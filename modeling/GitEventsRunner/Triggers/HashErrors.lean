/-
# When hashing the watched files fails

The other failures of a source end its iteration: nothing is executed and the
record stays.  A failed hash does not: the run goes on with no file hash at all,
compares that with the record and records it.

So a failed hash is neutral in one case only: the source is recorded at the very
commit that was found, and without a file hash.  A recorded hash is taken to
differ from the missing one and the action is executed; without a record it is
executed too; and a record of another commit is moved on to this one.
-/

import GitEventsRunner.Triggers.Finding

namespace GitEventsRunner.Triggers

open GitEventsRunner.Lib

section Neutral

variable (chrono : Rfc3339.Codec) (spec : Trigger) (taskSources : TriggerTaskSources)
  (sourceCloneFolder : String) (status : Option TriggerStatus) (source commit : String)

/-- A run in which the source is found at the commit and hashing its files fails
does not execute the action for the source and leaves its record alone, and so
the next run decides as if it had not happened. -/
def HashingNeutral : Prop :=
  ∀ trace next, (spec.createTriggerTask chrono taskSources sourceCloneFolder).RunsIn
      (Solo chrono spec) status trace next () →
    ∀ suffix part, PartsOf chrono spec taskSources sourceCloneFolder status trace suffix part →
      resolvedCommit (part source) = some commit → computedHash (part source) = none →
        executionsFor source trace = [] ∧
        (recordedSources next).get source = (recordedSources status).get source ∧
        ∀ found, Needed spec.sources.watchOn found ((recordedSources next).get source) ↔
          Needed spec.sources.watchOn found ((recordedSources status).get source)

/-- The source is recorded at the commit, without a file hash. -/
def RecordedUnhashed : Prop :=
  ∃ entry, (recordedSources status).get source = some entry ∧ entry.fileHash = none ∧
    entry.commitHash = some commit

end Neutral

/-! ## A run in which only hashing fails -/

/-- Every step succeeds and finds the commit, but hashing fails. -/
def HashFails (commit : String) : (e : Effect) → e.Reply → Prop
  | .createDirAll _, reply | .getGitRepo _ _ _, reply | .fetchRepoRef _ _ _ _ _, reply
  | .getAction _ _ _, reply | .execute _ _, reply => reply = true
  | .getLatestCommit _ _, reply => reply = some commit
  | .getFileGlobHash _ _, reply => reply = none
  | _, _ => True

/-- The oracle of such a run. -/
def failingHash (commit : String) : (e : Effect) → e.Reply
  | .getLatestCommit _ _ => some commit
  | .getFileGlobHash _ _ => none
  | e => obliging Shared.twoSources e

theorem hashFails_soloAnswer (chrono : Rfc3339.Codec) (spec : Trigger) (commit : String)
    (status : Option TriggerStatus) (e : Effect) :
    HashFails commit e (soloAnswer chrono spec (failingHash commit) status e).1 := by
  cases e with
  | createDirAll | getGitRepo | fetchRepoRef | getAction | execute | getLatestCommit
  | getFileGlobHash => rfl
  | _ => trivial

theorem finds_of_hashFails {commit : String} {e : Effect} {reply : e.Reply}
    (h : HashFails commit e reply) : Finds commit none e reply := by
  cases e with
  | createDirAll | getGitRepo | fetchRepoRef | getAction | execute | getLatestCommit
  | getFileGlobHash => exact h
  | _ => trivial

/-! ## When a failed hash is neutral -/

section WholeRun

variable {chrono : Rfc3339.Codec} {spec : Trigger} {taskSources : TriggerTaskSources}
  {sourceCloneFolder source commit : String} {status : Option TriggerStatus}

/-- A source that is recorded at its commit without a file hash looks unchanged
when hashing fails. -/
theorem not_needed_of_unhashed (hfiles : spec.sources.watchOn.files.isSome = true)
    (hchange : spec.sources.watchOn.onChangeOnly = true) {found entry : CheckedSourceState}
    (hfound : found.fileHash = none) (hentry : entry.fileHash = none) :
    ¬ Needed spec.sources.watchOn found (some entry) := by
  rintro (hnever | hdiffers)
  · rw [hchange] at hnever
    cases hnever
  · apply hdiffers entry rfl
    rw [hfiles, CheckedSourceState.watched, CheckedSourceState.watched, if_pos rfl, if_pos rfl,
      hentry, hfound]

theorem hashingNeutral_of_recordedUnhashed (hfiles : spec.sources.watchOn.files.isSome = true)
    (hchange : spec.sources.watchOn.onChangeOnly = true)
    (hnames : ∀ source ∈ spec.sourcesToCheck taskSources, source ∈ spec.sources.names)
    (hsource : source ∈ spec.sourcesToCheck taskSources)
    (h : RecordedUnhashed status source commit) :
    HashingNeutral chrono spec taskSources sourceCloneFolder status source commit := by
  obtain ⟨entry, hentry, hunhashed, hat⟩ := h
  intro trace next hruns suffix part hparts hcommit hhash
  obtain ⟨suffix', part', hparts', houtcome⟩ := createTriggerTask_solo hnames hruns
  rw [hparts.unique hparts' hsource] at hcommit hhash
  have hnotDue : ∀ other, ¬ Due spec (spec.sourcesToCheck taskSources) status part' source
      other := by
    intro other hdue
    have hneeded := hdue.needed
    rw [hentry] at hneeded
    exact not_needed_of_unhashed hfiles hchange hhash hunhashed hneeded
  obtain ⟨old, hold, hnew⟩ := houtcome.notNeeded hsource hcommit (hnotDue commit)
  have hkept : (recordedSources next).get source = (recordedSources status).get source := by
    obtain rfl := Option.some.inj (hentry.symm.trans hold)
    rw [hnew, hentry, foundState, hhash, ← hat, ← hunhashed]
  apply And.intro (houtcome.notCalled fun other hdue => absurd hdue (hnotDue other))
  apply And.intro hkept
  intro found
  rw [hkept]

theorem recordedUnhashed_of_hashingNeutral
    (hnames : ∀ source ∈ spec.sourcesToCheck taskSources, source ∈ spec.sources.names)
    (hsource : source ∈ spec.sourcesToCheck taskSources)
    (h : HashingNeutral chrono spec taskSources sourceCloneFolder status source commit) :
    RecordedUnhashed status source commit := by
  -- the run in which everything else succeeds decides the question
  have hrun := Prog.runsIn_runWith
    (H := fun s e r t => Solo chrono spec s e r t ∧ HashFails commit e r)
    (fun s e => ⟨solo_soloAnswer chrono spec (failingHash commit) s e,
      hashFails_soloAnswer chrono spec commit s e⟩)
    (spec.createTriggerTask chrono taskSources sourceCloneFolder) status
  have hsolo := hrun.mono fun _ _ _ _ hboth => hboth.1
  have hfails := hrun.forall_mem fun _ _ _ _ hboth => hboth.2
  obtain ⟨suffix, part, hparts, houtcome⟩ := createTriggerTask_solo hnames hsolo
  obtain ⟨hpart, hsub⟩ := hparts.part_spec hsource
  have hfinds : ∀ event ∈ part source, Finds commit none event.1 event.2 :=
    fun event hmem => finds_of_hashFails (hfails event (hsub event hmem))
  obtain ⟨hcommit, hhash⟩ := checkSource_finds hpart hfinds nofun
  have haction := checkSource_actionFound hpart hcommit
    fun event hmem => (hfinds event hmem).actionAvailable
  rw [get_taskRun_checkedSources, if_pos (hnames source hsource)] at haction
  obtain ⟨hnone, hkept, -⟩ := h _ _ hsolo suffix part hparts hcommit hhash
  by_cases hneeded : Needed spec.sources.watchOn (foundState commit (part source))
      ((recordedSources status).get source)
  · obtain ⟨ok, hone⟩ := houtcome.called ⟨hsource, hcommit, hneeded⟩ (haction hneeded)
    rw [hnone] at hone
    cases hone
  · obtain ⟨entry, hentry, hnew⟩ := houtcome.notNeeded hsource hcommit
      fun hdue => hneeded hdue.needed
    rw [hkept, hentry] at hnew
    have hsame := Option.some.inj hnew
    exact ⟨entry, hentry, hsame ▸ hhash, hsame ▸ rfl⟩

end WholeRun

/-- Hashing errors are neutral exactly if the source is recorded at the commit
that is found and without a file hash. -/
theorem hashingNeutral_iff_recordedUnhashed (chrono : Rfc3339.Codec) (spec : Trigger)
    (hfiles : spec.sources.watchOn.files.isSome = true)
    (hchange : spec.sources.watchOn.onChangeOnly = true) (taskSources : TriggerTaskSources)
    (hnames : ∀ source ∈ spec.sourcesToCheck taskSources, source ∈ spec.sources.names)
    (sourceCloneFolder : String) (status : Option TriggerStatus) (source commit : String)
    (hsource : source ∈ spec.sourcesToCheck taskSources) :
    HashingNeutral chrono spec taskSources sourceCloneFolder status source commit ↔
      RecordedUnhashed status source commit := by
  constructor
  · exact recordedUnhashed_of_hashingNeutral hnames hsource
  · exact hashingNeutral_of_recordedUnhashed hfiles hchange hnames hsource

/-- A trigger that watches files of two sources. -/
def watchingFiles : Trigger :=
  { Shared.twoSources with
    sources := { names := ["a", "b"], watchOn := { files := some ["src/*.rs"] } } }

/-- A status that records one source at a commit. -/
def recordedAt (fileHash : Option String) : TriggerStatus where
  checkedSources := (∅ : HashMap _ _).insert "a" { commitHash := some "c0", fileHash := fileHash }

theorem mem_names_of_mem_sourcesToCheck :
    ∀ source ∈ watchingFiles.sourcesToCheck (.single "a"),
      source ∈ watchingFiles.sources.names := by
  intro source hsource
  rw [List.mem_singleton.mp hsource]
  exact List.mem_cons_self

theorem hashingNeutral_iff_recordedUnhashed_watchingFiles :
    HashingNeutral Rfc3339.standard watchingFiles (.single "a") "/tmp" (some (recordedAt none)) "a"
        "c0" ∧
      RecordedUnhashed (some (recordedAt none)) "a" "c0" := by
  have hrecorded : RecordedUnhashed (some (recordedAt none)) "a" "c0" :=
    ⟨{ commitHash := some "c0" }, HashMap.get_insert_self _ _ _, rfl, rfl⟩
  have hiff := hashingNeutral_iff_recordedUnhashed Rfc3339.standard watchingFiles rfl rfl
    (.single "a") mem_names_of_mem_sourcesToCheck "/tmp" (some (recordedAt none)) "a" "c0"
    List.mem_cons_self
  exact ⟨hiff.mpr hrecorded, hrecorded⟩

/-- A source at the commit that is recorded, with the hash of its files recorded
too: hashing fails, the action is executed and the recorded hash is lost. -/
theorem executed_after_failed_hash :
    (executionsFor "a" (soloRun watchingFiles (failingHash "c0") (some (recordedAt (some "h0")))
      (.single "a")).1).length = 1 ∧
    ((recordedSources (soloRun watchingFiles (failingHash "c0") (some (recordedAt (some "h0")))
      (.single "a")).2).get "a").map CheckedSourceState.fileHash = some none ∧
    ¬ HashingNeutral Rfc3339.standard watchingFiles (.single "a") "/tmp"
      (some (recordedAt (some "h0"))) "a" "c0" := by
  apply And.intro (by decide +kernel)
  apply And.intro (by decide +kernel)
  intro hneutral
  obtain ⟨entry, hentry, hunhashed, -⟩ := recordedUnhashed_of_hashingNeutral
    mem_names_of_mem_sourcesToCheck List.mem_cons_self hneutral
  have hsame : some { commitHash := some "c0", fileHash := some "h0" } = some entry :=
    (HashMap.get_insert_self _ _ _).symm.trans hentry
  cases hsame
  cases hunhashed

end GitEventsRunner.Triggers
