/-
# Runs that come to their decision

A run that finds a source at a commit and comes to a file hash, or to none,
decides about the action by the two and the record.  Such a run exists for every
commit and every outcome of hashing: everything else may succeed.

The only other thing that keeps the action from being executed is that it is not
found, so as long as no lookup fails, executed means needed.
-/

import GitEventsRunner.Triggers.SoloRun

namespace GitEventsRunner.Triggers

open GitEventsRunner.Lib

/-- Every step succeeds, the commit is found and hashing has the given outcome. -/
def Finds (commit : String) (hash : Option String) : (e : Effect) → e.Reply → Prop
  | .createDirAll _, reply | .getGitRepo _ _ _, reply | .fetchRepoRef _ _ _ _ _, reply
  | .getAction _ _ _, reply | .execute _ _, reply => reply = true
  | .getLatestCommit _ _, reply => reply = some commit
  | .getFileGlobHash _ _, reply => reply = hash
  | _, _ => True

/-- The oracle of such a run. -/
def finding (commit : String) (hash : Option String) : (e : Effect) → e.Reply
  | .getLatestCommit _ _ => some commit
  | .getFileGlobHash _ _ => hash
  | e => obliging Shared.twoSources e

theorem finds_soloAnswer (chrono : Rfc3339.Codec) (spec : Trigger) (commit : String)
    (hash : Option String) (status : Option TriggerStatus) (e : Effect) :
    Finds commit hash e (soloAnswer chrono spec (finding commit hash) status e).1 := by
  cases e with
  | createDirAll | getGitRepo | fetchRepoRef | getAction | execute | getLatestCommit
  | getFileGlobHash => rfl
  | _ => trivial

/-- The event is no failed lookup of an action. -/
def ActionAvailable : TaskEvent → Prop
  | ⟨.getAction _ _ _, found⟩ => found = true
  | _ => True

theorem Finds.actionAvailable {commit : String} {hash : Option String} {event : TaskEvent}
    (h : Finds commit hash event.1 event.2) : ActionAvailable event := by
  obtain ⟨e, reply⟩ := event
  cases e with
  | getAction kind name ns => exact h
  | _ => trivial

/-! ## One source -/

/-- The effect is the hashing of watched files. -/
def Effect.isHashing : Effect → Bool
  | .getFileGlobHash _ _ => true
  | _ => false

section Iteration

variable {chrono : Rfc3339.Codec} {run : TaskRun} {source commit : String}
  {hash : Option String} {part : List TaskEvent}

theorem actionFound_of_available {found : CheckedSourceState}
    (hcommit : found.commitHash.isSome = true)
    (hneeded : Needed run.trigger.sources.watchOn found (run.checkedSources.get source))
    (h : (run.actAndRecord chrono source commit found).Runs part ())
    (havailable : ∀ event ∈ part, ActionAvailable event) : actionFound part = true := by
  unfold TaskRun.actAndRecord at h
  extract_lets watchOn current unchanged at h
  rw [if_pos ((needed_iff _ _ hcommit).mpr hneeded)] at h
  obtain ⟨ok, first, second, rfl, hfirst, -⟩ := Prog.runs_bind.mp h
  obtain ⟨found, rest, rfl, -⟩ := hfirst
  have hfound : found = true := havailable _ List.mem_cons_self
  rw [hfound]
  rfl

/-- Hashing is the only question after the commit is found and before the
decision. -/
theorem fileHash_runs {reply : Option String} (h : (run.fileHash source).Runs part reply) :
    computedHash part = reply ∧ (run.trigger.sources.watchOn.files.isSome = true →
      ∃ path files, ⟨.getFileGlobHash path files, reply⟩ ∈ part) := by
  unfold TaskRun.fileHash at h
  split at h
  · obtain ⟨found, rest, rfl, rfl, rfl⟩ := h
    apply And.intro
    · cases found with
      | none => rfl
      | some hash => rfl
    · intro _
      exact ⟨_, _, List.mem_cons_self⟩
  · rename_i hfiles
    obtain ⟨rfl, rfl⟩ := h
    apply And.intro rfl
    intro hsome
    rw [hfiles] at hsome
    cases hsome

/-- Deciding, acting and recording computes no hash. -/
theorem computedHash_actAndRecord {found : CheckedSourceState}
    (h : (run.actAndRecord chrono source commit found).Runs part ()) :
    computedHash part = none := by
  have hall : (run.actAndRecord chrono source commit found).All fun e => e.isHashing = false :=
    run.actAndRecord_all chrono source commit found rfl rfl rfl rfl fun _ => rfl
  apply List.findSome?_eq_none_iff.mpr
  rintro ⟨e, reply⟩ hmem
  cases e with
  | getFileGlobHash path files => cases hall.of_runs h _ hmem
  | _ => rfl

/-- The part of a source whose commit was found: five questions, hashing, the
decision and the removal of the folder. -/
theorem checkSource_phases (h : (run.checkSource chrono source).Runs part ())
    (hcommit : resolvedCommit part = some commit) :
    ∃ hashing acting first second third fourth fifth last,
      part = [first, second, third, fourth, fifth] ++ (hashing ++ (acting ++ [last])) ∧
      (run.fileHash source).Runs hashing (computedHash part) ∧
      (run.actAndRecord chrono source commit (foundState commit part)).Runs acting () := by
  obtain ⟨_, _, rfl, hcreate⟩ := h.of_perform_bind
  obtain ⟨made, _, rfl, hget⟩ := hcreate.of_perform_bind
  cases made with
  | false =>
      obtain ⟨rfl, -⟩ := hget
      cases hcommit
  | true =>
      obtain ⟨found, _, rfl, hfetch⟩ := hget.of_perform_bind
      cases found with
      | false =>
          obtain ⟨rfl, -⟩ := hfetch
          cases hcommit
      | true =>
          obtain ⟨fetched, _, rfl, hlatest⟩ := hfetch.of_perform_bind
          cases fetched with
          | false =>
              obtain ⟨rfl, -⟩ := hlatest
              cases hcommit
          | true =>
              obtain ⟨latest, _, rfl, hrest⟩ := hlatest.of_perform_bind
              cases latest with
              | none =>
                  obtain ⟨rfl, -⟩ := hrest
                  cases hcommit
              | some latest =>
                  cases hcommit
                  obtain ⟨hash, hashing, _, rfl, hhash, hact⟩ := Prog.runs_bind.mp hrest
                  obtain ⟨_, acting, _, rfl, hacting, hremove⟩ := Prog.runs_bind.mp hact
                  obtain ⟨removed, _, rfl, ⟨rfl, -⟩⟩ := hremove.of_perform_bind
                  have hcomputed : computedHash (hashing ++ (acting ++
                      [⟨.removeDirAll (run.repoPath source), removed⟩])) = hash := by
                    rw [computedHash_append, computedHash_append, (fileHash_runs hhash).1,
                      computedHash_actAndRecord hacting, Option.none_or]
                    exact Option.or_none
                  refine ⟨hashing, acting, _, _, _, _, _, _, rfl, ?_, ?_⟩
                  · exact hcomputed ▸ hhash
                  · show (run.actAndRecord chrono source commit
                      ⟨some commit, computedHash (hashing ++
                        (acting ++ [⟨.removeDirAll (run.repoPath source), removed⟩])), none⟩).Runs
                          acting ()
                    rw [hcomputed]
                    exact hacting

/-- The action is found if it is needed and no lookup fails. -/
theorem checkSource_actionFound (h : (run.checkSource chrono source).Runs part ())
    (hcommit : resolvedCommit part = some commit)
    (havailable : ∀ event ∈ part, ActionAvailable event)
    (hneeded : Needed run.trigger.sources.watchOn (foundState commit part)
      (run.checkedSources.get source)) : actionFound part = true := by
  obtain ⟨hashing, acting, first, second, third, fourth, fifth, last, hpart, -, hacting⟩ :=
    checkSource_phases h hcommit
  have hmem : ∀ event ∈ acting, event ∈ part := by
    intro event hevent
    rw [hpart]
    exact List.mem_append_right _ (List.mem_append_right _ (List.mem_append_left _ hevent))
  have hfound : actionFound acting = true :=
    actionFound_of_available rfl hneeded hacting fun event hevent =>
      havailable event (hmem event hevent)
  rw [hpart, actionFound_append, actionFound_append, actionFound_append, hfound, Bool.true_or,
    Bool.or_true, Bool.or_true]

/-- Every reply being as it should, the iteration comes to the commit and, if
files are watched, to the hash. -/
theorem checkSource_finds (h : (run.checkSource chrono source).Runs part ())
    (hfinds : ∀ event ∈ part, Finds commit hash event.1 event.2)
    (hfiles : hash.isSome = true → run.trigger.sources.watchOn.files.isSome = true) :
    resolvedCommit part = some commit ∧ computedHash part = hash := by
  have hresolved : resolvedCommit part = some commit := by
    obtain ⟨_, _, rfl, hcreate⟩ := h.of_perform_bind
    obtain ⟨made, _, rfl, hget⟩ := hcreate.of_perform_bind
    obtain rfl : made = true := hfinds ⟨.createDirAll _, made⟩ (by simp)
    obtain ⟨found, _, rfl, hfetch⟩ := hget.of_perform_bind
    obtain rfl : found = true := hfinds ⟨.getGitRepo _ _ _, found⟩ (by simp)
    obtain ⟨fetched, _, rfl, hlatest⟩ := hfetch.of_perform_bind
    obtain rfl : fetched = true := hfinds ⟨.fetchRepoRef _ _ _ _ _, fetched⟩ (by simp)
    obtain ⟨latest, _, rfl, -⟩ := hlatest.of_perform_bind
    obtain rfl : latest = some commit := hfinds ⟨.getLatestCommit _ _, latest⟩ (by simp)
    rfl
  apply And.intro hresolved
  cases hcomputed : computedHash part with
  | some computed =>
      obtain ⟨⟨e, reply⟩, hmem, hreply⟩ := List.exists_of_findSome?_eq_some hcomputed
      cases e with
      | getFileGlobHash path files => exact hreply.symm.trans (hfinds _ hmem)
      | _ => cases hreply
  | none =>
      cases hash with
      | none => rfl
      | some hash =>
          obtain ⟨hashing, _, _, _, _, _, _, _, hpart, hhash, -⟩ := checkSource_phases h hresolved
          obtain ⟨path, files, hmem⟩ := (fileHash_runs hhash).2 (hfiles rfl)
          have hin : ⟨.getFileGlobHash path files, computedHash part⟩ ∈ part := by
            rw [hpart]
            exact List.mem_append_right _ (List.mem_append_left _ (hpart ▸ hmem))
          exact hcomputed.symm.trans (hfinds _ hin)

end Iteration

/-! ## Whole runs -/

section WholeRun

variable {chrono : Rfc3339.Codec} {spec : Trigger} {taskSources : TriggerTaskSources}
  {sourceCloneFolder source commit : String} {status next : Option TriggerStatus}
  {trace : List TaskEvent} {suffix suffix' : RandomString 8}
  {part part' : String → List TaskEvent}

/-- The part of a source that was checked lies in the trace, and it is an
execution of its iteration. -/
theorem PartsOf.part_spec
    (h : PartsOf chrono spec taskSources sourceCloneFolder status trace suffix part)
    (hsource : source ∈ spec.sourcesToCheck taskSources) :
    ((spec.taskRun status sourceCloneFolder suffix).checkSource chrono source).Runs
      (part source) () ∧ ∀ event ∈ part source, event ∈ trace := by
  obtain ⟨order, read, written, after, rfl, hruns⟩ := h
  have hmem := (order.property.2 source).mpr hsource
  apply And.intro (hruns source hmem)
  intro event hevent
  apply List.mem_append_right
  apply List.mem_append_left
  exact List.mem_flatMap.mpr ⟨source, hmem, hevent⟩

/-- A trace has one division into parts. -/
theorem PartsOf.unique
    (h : PartsOf chrono spec taskSources sourceCloneFolder status trace suffix part)
    (h' : PartsOf chrono spec taskSources sourceCloneFolder status trace suffix' part')
    (hsource : source ∈ spec.sourcesToCheck taskSources) : part source = part' source := by
  obtain ⟨order, read, written, after, rfl, hruns⟩ := h
  obtain ⟨order', read', written', after', heq, hruns'⟩ := h'
  injection heq with _ heq
  injection heq with hsuffix heq
  injection heq with _ heq
  injection heq with _ heq
  injection heq with horder heq
  cases hsuffix
  cases horder
  exact Prog.eq_of_flatMap_append_eq hruns hruns' heq source
    ((order.property.2 source).mpr hsource)

/-- For every commit and every outcome of hashing there is a run that comes to
them. -/
theorem exists_run_finds (chrono : Rfc3339.Codec) (sourceCloneFolder : String)
    (status : Option TriggerStatus)
    (hnames : ∀ source ∈ spec.sourcesToCheck taskSources, source ∈ spec.sources.names)
    (hsource : source ∈ spec.sourcesToCheck taskSources) (commit : String) (hash : Option String)
    (hfiles : hash.isSome = true → spec.sources.watchOn.files.isSome = true) :
    ∃ trace next suffix part,
      (spec.createTriggerTask chrono taskSources sourceCloneFolder).RunsIn (Solo chrono spec) status
        trace next () ∧
      PartsOf chrono spec taskSources sourceCloneFolder status trace suffix part ∧
      resolvedCommit (part source) = some commit ∧ computedHash (part source) = hash ∧
      ∀ event ∈ part source, ActionAvailable event := by
  have hrun := Prog.runsIn_runWith
    (H := fun s e r t => Solo chrono spec s e r t ∧ Finds commit hash e r)
    (fun s e => ⟨solo_soloAnswer chrono spec (finding commit hash) s e,
      finds_soloAnswer chrono spec commit hash s e⟩)
    (spec.createTriggerTask chrono taskSources sourceCloneFolder) status
  have hsolo := hrun.mono fun _ _ _ _ hboth => hboth.1
  have hfinds := hrun.forall_mem fun _ _ _ _ hboth => hboth.2
  obtain ⟨suffix, part, hparts, -⟩ := createTriggerTask_solo hnames hsolo
  obtain ⟨hpart, hsub⟩ := hparts.part_spec hsource
  have hfindsPart : ∀ event ∈ part source, Finds commit hash event.1 event.2 :=
    fun event hmem => hfinds event (hsub event hmem)
  obtain ⟨hcommit, hhash⟩ := checkSource_finds hpart hfindsPart hfiles
  exact ⟨_, _, suffix, part, hsolo, hparts, hcommit, hhash,
    fun event hmem => (hfindsPart event hmem).actionAvailable⟩

/-- The action is executed for a source exactly if it is needed, as long as no
lookup of the action fails. -/
theorem executed_iff_needed
    (hnames : ∀ source ∈ spec.sourcesToCheck taskSources, source ∈ spec.sources.names)
    (hsource : source ∈ spec.sourcesToCheck taskSources)
    (hruns : (spec.createTriggerTask chrono taskSources sourceCloneFolder).RunsIn
      (Solo chrono spec) status trace next ())
    (hparts : PartsOf chrono spec taskSources sourceCloneFolder status trace suffix part)
    (hcommit : resolvedCommit (part source) = some commit)
    (havailable : ∀ event ∈ part source, ActionAvailable event) :
    executionsFor source trace ≠ [] ↔
      Needed spec.sources.watchOn (foundState commit (part source))
        ((recordedSources status).get source) := by
  obtain ⟨suffix', part', hparts', houtcome⟩ := createTriggerTask_solo hnames hruns
  have hsame := hparts.unique hparts' hsource
  rw [hsame] at hcommit havailable ⊢
  constructor
  · intro hexecuted
    by_contra hneeded
    apply hexecuted
    apply houtcome.notCalled
    intro other hdue
    obtain rfl := Option.some.inj (hcommit.symm.trans hdue.resolved)
    exact absurd hdue.needed hneeded
  · intro hneeded
    have hfound : actionFound (part' source) = true := by
      apply checkSource_actionFound (hparts'.part_spec hsource).1 hcommit havailable
      rw [get_taskRun_checkedSources, if_pos (hnames source hsource)]
      exact hneeded
    obtain ⟨ok, hone⟩ := houtcome.called ⟨hsource, hcommit, hneeded⟩ hfound
    rw [hone]
    exact List.cons_ne_nil _ _

end WholeRun

end GitEventsRunner.Triggers
