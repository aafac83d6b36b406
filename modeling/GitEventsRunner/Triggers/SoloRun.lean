/-
# One run of a task, end to end

A task that is the only one for its trigger, with a cache that follows every
patch at once and patches that succeed.  Everything else may go wrong: folders,
lookups, fetches, commits, hashes and executions, for each source on its own and
in any order of the sources.

A run is read off its trace.  The trace falls into one part for each source that
was checked; what happened in the part of a source decides whether the action was
executed for it and what the status records afterwards.
-/

import GitEventsRunner.Lib.Surroundings
import GitEventsRunner.Triggers.Records

namespace GitEventsRunner.Triggers

open GitEventsRunner.Lib
open TriggerTask

/-- An effect of a trigger task with its reply. -/
abbrev TaskEvent := Prog.Event Effect.Reply

/-! ## Surroundings without other tasks -/

/-- The surroundings of the only task of a trigger, whose state is the status:
the cache answers with it, and a patch is accepted and replaces it. -/
def Solo (chrono : Rfc3339.Codec) (spec : Trigger) (status : Option TriggerStatus) :
    (e : Effect) → e.Reply → Option TriggerStatus → Prop
  | .getTrigger _ _, reply, next => reply = some { spec with status := status } ∧ next = status
  | .patchStatus patch, reply, next =>
      reply = true ∧ next = some (patch.cached.newStatus chrono patch.update)
  | _, _, next => next = status

/-! ## Reading a trace -/

/-- The commit that was found, if any. -/
def resolvedCommit (part : List TaskEvent) : Option String :=
  part.findSome? fun
    | ⟨.getLatestCommit _ _, commit⟩ => commit
    | _ => none

/-- The hash of the watched files, if it was computed. -/
def computedHash (part : List TaskEvent) : Option String :=
  part.findSome? fun
    | ⟨.getFileGlobHash _ _, hash⟩ => hash
    | _ => none

/-- Whether the action was found. -/
def actionFound (part : List TaskEvent) : Bool :=
  part.any fun
    | ⟨.getAction _ _ _, found⟩ => found
    | _ => false

/-- The calls of `execute`, with whether they returned `Ok`. -/
def executions (part : List TaskEvent) : List (ExecuteCall × Bool) :=
  part.filterMap fun
    | ⟨.execute call _, ok⟩ => some (call, ok)
    | _ => none

/-- The readings of the clock. -/
def clockReadings (part : List TaskEvent) : List SystemTime :=
  part.filterMap fun
    | ⟨.utcNow, now⟩ => some now
    | _ => none

/-- The new state of a source at a commit. -/
def foundState (commit : String) (part : List TaskEvent) : CheckedSourceState where
  commitHash := some commit
  fileHash := computedHash part

/-- No decision shows in a part of a trace. -/
structure Silent (part : List TaskEvent) : Prop where
  executions : executions part = []
  action : actionFound part = false
  clock : clockReadings part = []

section Append

variable (first second : List TaskEvent)

theorem executions_append :
    executions (first ++ second) = executions first ++ executions second :=
  List.filterMap_append

theorem clockReadings_append :
    clockReadings (first ++ second) = clockReadings first ++ clockReadings second :=
  List.filterMap_append

theorem actionFound_append :
    actionFound (first ++ second) = (actionFound first || actionFound second) :=
  List.any_append

theorem computedHash_append :
    computedHash (first ++ second) = (computedHash first).or (computedHash second) :=
  List.findSome?_append

end Append

/-! ## The decision -/

/-- The action is to be executed: always, or because what is watched of the
source differs from the record or is not recorded. -/
def Needed (watchOn : TriggerWatchOn) (found : CheckedSourceState)
    (recorded : Option CheckedSourceState) : Prop :=
  watchOn.onChangeOnly = false ∨ ∀ entry, recorded = some entry →
    entry.watched watchOn.files.isSome ≠ found.watched watchOn.files.isSome

/-- The condition of the code is that the action is needed. -/
theorem needed_iff (watchOn : TriggerWatchOn) {found : CheckedSourceState}
    (recorded : Option CheckedSourceState) (hcommit : found.commitHash.isSome = true) :
    (!found.isEqual recorded watchOn.files.isSome || !watchOn.onChangeOnly) = true ↔
      Needed watchOn found recorded := by
  rw [Bool.or_eq_true, Bool.not_eq_true', Bool.not_eq_true', Or.comm]
  apply or_congr Iff.rfl
  cases recorded with
  | none =>
      cases hfound : found.commitHash with
      | none =>
          rw [hfound] at hcommit
          cases hcommit
      | some commit => simp [CheckedSourceState.isEqual, hfound]
  | some entry =>
      cases watchOn.files with
      | none => simp [CheckedSourceState.isEqual, CheckedSourceState.watched, eq_comm]
      | some files => simp [CheckedSourceState.isEqual, CheckedSourceState.watched, eq_comm]

/-! ## Status updates -/

section Updates

variable {chrono : Rfc3339.Codec} {spec : Trigger} {status next : Option TriggerStatus}

/-- What a status records after an update of sources of the spec. -/
theorem get_recordedSources_newStatus (update : StatusUpdate)
    (hnamed : ∀ source, ((update.checkedSources.getD ∅).get source).isSome →
      source ∈ spec.sources.names) (source : String) :
    (recordedSources (some (({ spec with status := status } : Trigger).newStatus chrono
        update))).get source =
      if source ∈ spec.sources.names then
        ((update.checkedSources.getD ∅).get source).or ((recordedSources status).get source)
      else none := by
  by_cases hsource : source ∈ spec.sources.names
  · rw [if_pos hsource]
    exact Trigger.get_newStatus_checkedSources chrono { spec with status := status } update hsource
  · rw [if_neg hsource]
    cases status with
    | none =>
        have hnone := mt (hnamed source) hsource
        exact Option.not_isSome_iff_eq_none.mp hnone
    | some status =>
        show HashMap.get (HashMap.retain _ _) source = none
        simp [HashMap.get_retain, hsource]

/-- A status update reads the trigger and patches it. -/
theorem updateTriggerStatus_solo {trigger : Trigger} {update : StatusUpdate}
    {trace : List TaskEvent} {ok : Bool}
    (h : (trigger.updateTriggerStatus update).RunsIn (Solo chrono spec) status trace next ok) :
    next = some (({ spec with status := status } : Trigger).newStatus chrono update) ∧
      trace = [⟨.getTrigger trigger.name (some trigger.ns), some { spec with status := status }⟩,
        ⟨.patchStatus ⟨{ spec with status := status }, update⟩, true⟩] := by
  obtain ⟨found, _, rest, ⟨rfl, rfl⟩, rfl, hpatch⟩ := h.of_perform_bind
  obtain ⟨accepted, _, _, ⟨rfl, rfl⟩, rfl, ⟨rfl, rfl, -⟩⟩ := hpatch
  exact ⟨rfl, rfl⟩

end Updates

/-! ## The part of one source -/

/-- Everything that can happen to a source found at a commit, given the record the
run has of it: what the trace says and what is recorded afterwards. -/
inductive Decision (chrono : Rfc3339.Codec) (run : TaskRun) (source commit : String)
    (found : CheckedSourceState) (old : Option CheckedSourceState) :
    List TaskEvent → Option CheckedSourceState → Prop
  | unneeded {part : List TaskEvent} {entry : CheckedSourceState}
      (hneeded : ¬ Needed run.trigger.sources.watchOn found old) (hold : old = some entry)
      (hexecutions : executions part = []) :
      Decision chrono run source commit found old part
        (some { found with changed := entry.changed })
  | noAction {part : List TaskEvent} (hneeded : Needed run.trigger.sources.watchOn found old)
      (haction : actionFound part = false) (hexecutions : executions part = []) :
      Decision chrono run source commit found old part old
  | failed {part : List TaskEvent} (hneeded : Needed run.trigger.sources.watchOn found old)
      (haction : actionFound part = true)
      (hexecutions : executions part = [(run.executeCall source commit, false)]) :
      Decision chrono run source commit found old part old
  | acted {part : List TaskEvent} {now : SystemTime}
      (hneeded : Needed run.trigger.sources.watchOn found old)
      (haction : actionFound part = true)
      (hexecutions : executions part = [(run.executeCall source commit, true)])
      (hnow : now ∈ clockReadings part) :
      Decision chrono run source commit found old part
        (some { found with changed := some (chrono.format now) })

/-- Everything that can happen to one source. -/
inductive SourceOutcome (chrono : Rfc3339.Codec) (run : TaskRun) (source : String)
    (old : Option CheckedSourceState) : List TaskEvent → Option CheckedSourceState → Prop
  | unresolved {part : List TaskEvent} (hcommit : resolvedCommit part = none)
      (hexecutions : executions part = []) : SourceOutcome chrono run source old part old
  | resolved {part : List TaskEvent} {commit : String} {new : Option CheckedSourceState}
      (hcommit : resolvedCommit part = some commit)
      (hdecision : Decision chrono run source commit (foundState commit part) old part new) :
      SourceOutcome chrono run source old part new

/-- A decision only concerns the lookup of the action, its executions and the
clock. -/
theorem Decision.congr {chrono : Rfc3339.Codec} {run : TaskRun} {source commit : String}
    {found : CheckedSourceState} {old new : Option CheckedSourceState}
    {part part' : List TaskEvent} (h : Decision chrono run source commit found old part new)
    (hexecutions : executions part' = executions part)
    (haction : actionFound part' = actionFound part)
    (hclock : clockReadings part' = clockReadings part) :
    Decision chrono run source commit found old part' new := by
  cases h with
  | unneeded hneeded hold hnone => exact .unneeded hneeded hold (hexecutions.trans hnone)
  | noAction hneeded hmissing hnone =>
      exact .noAction hneeded (haction.trans hmissing) (hexecutions.trans hnone)
  | failed hneeded hfound hone =>
      exact .failed hneeded (haction.trans hfound) (hexecutions.trans hone)
  | acted hneeded hfound hone hnow =>
      exact .acted hneeded (haction.trans hfound) (hexecutions.trans hone) (hclock ▸ hnow)

section Iteration

variable {chrono : Rfc3339.Codec} {spec : Trigger} {run : TaskRun} {source : String}
  {status next : Option TriggerStatus}

/-- The status records sources of the spec only. -/
def OnlyNamed (spec : Trigger) (status : Option TriggerStatus) : Prop :=
  ∀ source, source ∉ spec.sources.names → (recordedSources status).get source = none

/-- Recording one source of the spec changes its record and no other. -/
theorem recordedSources_record (hnamed : OnlyNamed spec status)
    (hsource : source ∈ spec.sources.names) (entry : CheckedSourceState)
    (state : Option TriggerState) (lastRun : Option SystemTime) (other : String) :
    (recordedSources (some (({ spec with status := status } : Trigger).newStatus chrono
      { state := state
        checkedSources := some ((∅ : HashMap _ _).insert source entry)
        lastRun := lastRun }))).get other =
      if other = source then some entry else (recordedSources status).get other := by
  rw [get_recordedSources_newStatus]
  · by_cases hother : other = source
    · subst hother
      simp [hsource]
    · rw [if_neg hother]
      split
      · simp [HashMap.get_insert_of_ne _ _ hother]
      · exact (hnamed other ‹_›).symm
  · intro other hsome
    by_cases hother : other = source
    · rw [hother]
      exact hsource
    · simp [HashMap.get_insert_of_ne _ _ hother] at hsome

/-- The record of a source goes from one entry to another, and no other record
changes. -/
def Rerecorded (source : String) (new : Option CheckedSourceState)
    (status next : Option TriggerStatus) : Prop :=
  ∀ other, (recordedSources next).get other =
    if other = source then new else (recordedSources status).get other

theorem rerecorded_self (status : Option TriggerStatus) (source : String) :
    Rerecorded source ((recordedSources status).get source) status status := by
  intro other
  by_cases hother : other = source
  · rw [if_pos hother, hother]
  · rw [if_neg hother]

/-- Deciding about a source whose record is the one the run began with. -/
theorem actAndRecord_solo (hnamed : OnlyNamed spec status) (hsource : source ∈ spec.sources.names)
    (hcurrent : (recordedSources status).get source = run.checkedSources.get source)
    {commit : String} {found : CheckedSourceState} (hcommit : found.commitHash = some commit)
    {part : List TaskEvent}
    (h : (run.actAndRecord chrono source commit found).RunsIn (Solo chrono spec) status part next
      ()) :
    ∃ new, Rerecorded source new status next ∧ computedHash part = none ∧
      Decision chrono run source commit found (run.checkedSources.get source) part new := by
  have hself := rerecorded_self status source
  rw [hcurrent] at hself
  have hsome : found.commitHash.isSome = true := by
    rw [hcommit]
    rfl
  have hiff := needed_iff run.trigger.sources.watchOn (run.checkedSources.get source) hsome
  unfold TaskRun.actAndRecord at h
  extract_lets watchOn current unchanged at h
  split at h
  · have hneeded := hiff.mp ‹_›
    obtain ⟨ok, _, first, second, rfl, hfirst, hsecond⟩ := h.of_bind
    obtain ⟨found, _, rest, rfl, rfl, hexecute⟩ := hfirst.of_perform_bind
    cases found with
    | false =>
        obtain ⟨rfl, rfl, rfl⟩ := hexecute
        obtain ⟨rfl, rfl, -⟩ := hsecond
        exact ⟨_, hself, rfl, .noAction hneeded rfl rfl⟩
    | true =>
        obtain ⟨ok, _, rest, rfl, rfl, ⟨rfl, rfl, rfl⟩⟩ := hexecute
        cases ok with
        | false =>
            obtain ⟨rfl, rfl, -⟩ := hsecond
            exact ⟨_, hself, rfl, .failed hneeded rfl rfl⟩
        | true =>
            obtain ⟨changed, _, rest, rfl, rfl, hclock⟩ := hsecond.of_perform_bind
            obtain ⟨lastRun, _, rest, rfl, rfl, hupdate⟩ := hclock.of_perform_bind
            obtain ⟨_, _, update, _, rfl, hupdate, ⟨rfl, rfl, -⟩⟩ := hupdate.of_bind
            obtain ⟨rfl, rfl⟩ := updateTriggerStatus_solo hupdate
            exact ⟨_, recordedSources_record hnamed hsource _ _ _, rfl,
              .acted hneeded rfl rfl List.mem_cons_self⟩
  · have hneeded := mt hiff.mpr ‹_›
    obtain ⟨_, _, update, _, rfl, hupdate, ⟨rfl, rfl, -⟩⟩ := h.of_bind
    obtain ⟨rfl, rfl⟩ := updateTriggerStatus_solo hupdate
    cases hold : run.checkedSources.get source with
    | none => exact absurd (Or.inr fun entry hentry => by simp [hold] at hentry) hneeded
    | some entry =>
        have hunchanged : unchanged = { found with changed := entry.changed } := by
          simp only [unchanged, current, hold, Option.map_some, Option.getD_some]
        rw [hold] at hneeded
        refine ⟨_, recordedSources_record hnamed hsource _ _ _, rfl, ?_⟩
        rw [hunchanged]
        exact .unneeded hneeded rfl rfl

theorem fileHash_solo {hash : Option String} {part : List TaskEvent}
    (h : (run.fileHash source).RunsIn (Solo chrono spec) status part next hash) :
    next = status ∧ computedHash part = hash ∧ Silent part := by
  unfold TaskRun.fileHash at h
  split at h
  · obtain ⟨reply, _, _, rfl, rfl, ⟨rfl, rfl, rfl⟩⟩ := h
    cases reply with
    | none => exact ⟨rfl, rfl, rfl, rfl, rfl⟩
    | some hash => exact ⟨rfl, rfl, rfl, rfl, rfl⟩
  · obtain ⟨rfl, rfl, rfl⟩ := h
    exact ⟨rfl, rfl, rfl, rfl, rfl⟩

/-- A decision about a source, in the part of the trace around it. -/
theorem Decision.around {commit : String} {old new : Option CheckedSourceState}
    {hashing acting after : List TaskEvent} (before : List TaskEvent)
    (h : Decision chrono run source commit
      { commitHash := some commit, fileHash := computedHash hashing } old acting new)
    (hcommit : resolvedCommit (before ++ (hashing ++ (acting ++ after))) = some commit)
    (hbefore : Silent before) (hnone : computedHash before = none) (hhashing : Silent hashing)
    (hacting : computedHash acting = none) (hafter : Silent after)
    (hnoneAfter : computedHash after = none) :
    SourceOutcome chrono run source old (before ++ (hashing ++ (acting ++ after))) new := by
  apply SourceOutcome.resolved hcommit
  have hfound : foundState commit (before ++ (hashing ++ (acting ++ after))) =
      { commitHash := some commit, fileHash := computedHash hashing } := by
    simp only [foundState, computedHash_append, hnone, hacting, hnoneAfter, Option.none_or,
      Option.or_none]
  rw [hfound]
  apply h.congr
  · simp only [executions_append, hbefore.executions, hhashing.executions, hafter.executions,
      List.nil_append, List.append_nil]
  · simp only [actionFound_append, hbefore.action, hhashing.action, hafter.action,
      Bool.false_or, Bool.or_false]
  · simp only [clockReadings_append, hbefore.clock, hhashing.clock, hafter.clock,
      List.nil_append, List.append_nil]

/-- One iteration for a source whose record is the one the run began with. -/
theorem checkSource_solo (hnamed : OnlyNamed spec status) (hsource : source ∈ spec.sources.names)
    (hcurrent : (recordedSources status).get source = run.checkedSources.get source)
    {part : List TaskEvent}
    (h : (run.checkSource chrono source).RunsIn (Solo chrono spec) status part next ()) :
    ∃ new, Rerecorded source new status next ∧
      SourceOutcome chrono run source (run.checkedSources.get source) part new := by
  have hself := rerecorded_self status source
  rw [hcurrent] at hself
  obtain ⟨_, _, _, rfl, rfl, hcreate⟩ := h.of_perform_bind
  obtain ⟨made, _, _, rfl, rfl, hget⟩ := hcreate.of_perform_bind
  cases made with
  | false =>
      obtain ⟨rfl, rfl, -⟩ := hget
      exact ⟨_, hself, .unresolved rfl rfl⟩
  | true =>
      obtain ⟨found, _, _, rfl, rfl, hfetch⟩ := hget.of_perform_bind
      cases found with
      | false =>
          obtain ⟨rfl, rfl, -⟩ := hfetch
          exact ⟨_, hself, .unresolved rfl rfl⟩
      | true =>
          obtain ⟨fetched, _, _, rfl, rfl, hlatest⟩ := hfetch.of_perform_bind
          cases fetched with
          | false =>
              obtain ⟨rfl, rfl, -⟩ := hlatest
              exact ⟨_, hself, .unresolved rfl rfl⟩
          | true =>
              obtain ⟨latest, _, _, rfl, rfl, hrest⟩ := hlatest.of_perform_bind
              cases latest with
              | none =>
                  obtain ⟨rfl, rfl, -⟩ := hrest
                  exact ⟨_, hself, .unresolved rfl rfl⟩
              | some commit =>
                  obtain ⟨hash, _, hashing, _, rfl, hhash, hrest⟩ := hrest.of_bind
                  obtain ⟨rfl, rfl, hquiet⟩ := fileHash_solo hhash
                  obtain ⟨_, _, acting, _, rfl, hact, hrest⟩ := hrest.of_bind
                  obtain ⟨_, _, _, rfl, rfl, ⟨rfl, rfl, -⟩⟩ := hrest.of_perform_bind
                  obtain ⟨new, hnew, hnone, hdecision⟩ :=
                    actAndRecord_solo hnamed hsource hcurrent rfl hact
                  exact ⟨new, hnew, hdecision.around [_, _, _, _, _] rfl ⟨rfl, rfl, rfl⟩ rfl
                    hquiet hnone ⟨rfl, rfl, rfl⟩ rfl⟩

theorem Rerecorded.onlyNamed {new : Option CheckedSourceState}
    (h : Rerecorded source new status next) (hnamed : OnlyNamed spec status)
    (hsource : source ∈ spec.sources.names) : OnlyNamed spec next := by
  intro other hother
  have hne : other ≠ source := ne_of_mem_of_not_mem hsource hother |>.symm
  rw [h other, if_neg hne]
  exact hnamed other hother

/-- The loop over the sources: the trace falls into one part for each source, and
the record of a source changes by what happens in its part only. -/
theorem forEach_solo {order : List String} (hnodup : order.Nodup)
    (hnames : ∀ source ∈ order, source ∈ spec.sources.names) (hnamed : OnlyNamed spec status)
    (hcurrent : ∀ source ∈ order,
      (recordedSources status).get source = run.checkedSources.get source)
    {trace : List TaskEvent}
    (h : (Prog.forEach (run.checkSource chrono) order).RunsIn (Solo chrono spec) status trace next
      ()) :
    ∃ part : String → List TaskEvent, trace = order.flatMap part ∧
      (∀ source ∈ order, (run.checkSource chrono source).Runs (part source) () ∧
        SourceOutcome chrono run source (run.checkedSources.get source) (part source)
          ((recordedSources next).get source)) ∧
      ∀ source, source ∉ order →
        (recordedSources next).get source = (recordedSources status).get source := by
  induction order generalizing status trace with
  | nil =>
      obtain ⟨rfl, rfl, -⟩ := h
      apply Exists.intro fun _ => []
      apply And.intro rfl
      apply And.intro
      · intro source hsource
        cases hsource
      · intro source _
        rfl
  | cons first order ih =>
      obtain ⟨hfresh, hnodup⟩ := List.nodup_cons.mp hnodup
      obtain ⟨_, middle, head, tail, rfl, hfirst, hrest⟩ := h.of_bind
      have hfirstNamed := hnames first List.mem_cons_self
      have hne : ∀ source ∈ order, source ≠ first :=
        fun source hsource => ne_of_mem_of_not_mem hsource hfresh
      obtain ⟨new, hnew, houtcome⟩ := checkSource_solo hnamed hfirstNamed
        (hcurrent first List.mem_cons_self) hfirst
      have hkept : ∀ source ∈ order,
          (recordedSources middle).get source = (recordedSources status).get source := by
        intro source hsource
        rw [hnew source, if_neg (hne source hsource)]
      obtain ⟨part, rfl, hparts, hothers⟩ := ih hnodup
        (fun source hsource => hnames source (List.mem_cons_of_mem _ hsource))
        (hnew.onlyNamed hnamed hfirstNamed)
        (fun source hsource => (hkept source hsource).trans
          (hcurrent source (List.mem_cons_of_mem _ hsource))) hrest
      let parts : String → List TaskEvent := fun source =>
        if source = first then head else part source
      have hpartsFirst : parts first = head := if_pos rfl
      have hpartsRest : ∀ source ∈ order, parts source = part source := by
        intro source hsource
        exact if_neg (hne source hsource)
      apply Exists.intro parts
      apply And.intro
      · rw [List.flatMap_cons, hpartsFirst, List.flatMap_congr hpartsRest]
      · apply And.intro
        · intro source hsource
          rcases List.mem_cons.mp hsource with rfl | hlater
          · rw [hpartsFirst, hothers source hfresh, hnew source, if_pos rfl]
            exact ⟨hfirst.runs, houtcome⟩
          · rw [hpartsRest source hlater]
            exact hparts source hlater
        · intro source hsource
          obtain ⟨hother, hnotMem⟩ := not_or.mp (mt List.mem_cons.mpr hsource)
          rw [hothers source hnotMem, hnew source, if_neg hother]

end Iteration

/-! ## The whole run -/

/-- The calls of `execute` for a source. -/
def executionsFor (source : String) (trace : List TaskEvent) : List (ExecuteCall × Bool) :=
  (executions trace).filter fun execution => execution.1.sourceName = source

/-- What a run has at hand that found a status and drew a suffix. -/
def Trigger.taskRun (spec : Trigger) (status : Option TriggerStatus) (sourceCloneFolder : String)
    (suffix : RandomString 8) : TaskRun where
  self := spec
  trigger := { spec with status := status }
  checkedSources := ({ spec with status := status } : Trigger).initialSources
  baseTempDir := spec.baseTempDir sourceCloneFolder suffix.val

/-- The trace of a run that drew the suffix: the run reads the trigger, draws the
suffix, updates the state, gets the order of the sources to check, and has one
part for each of them, in this order. -/
def PartsOf (chrono : Rfc3339.Codec) (spec : Trigger) (taskSources : TriggerTaskSources)
    (sourceCloneFolder : String) (status : Option TriggerStatus) (trace : List TaskEvent)
    (suffix : RandomString 8) (part : String → List TaskEvent) : Prop :=
  ∃ (order : HashSetOrder (spec.sourcesToCheck taskSources)) (read written : TaskEvent)
      (after : List TaskEvent),
    trace = [⟨.getTrigger spec.name (some spec.ns), some { spec with status := status }⟩,
        ⟨.randomString 8, suffix⟩, read, written,
        ⟨.iterHashSet (spec.sourcesToCheck taskSources), order⟩] ++
      (order.val.flatMap part ++ after) ∧
    ∀ source ∈ order.val, ((spec.taskRun status sourceCloneFolder suffix).checkSource chrono
      source).Runs (part source) ()

/-- The outcome for each source that was checked, what was executed in all, and
what the status is afterwards. -/
structure RunOutcome (chrono : Rfc3339.Codec) (spec : Trigger) (run : TaskRun)
    (checked : List String) (status next : Option TriggerStatus) (trace : List TaskEvent)
    (part : String → List TaskEvent) : Prop where
  outcome : ∀ source ∈ checked, SourceOutcome chrono run source
    ((recordedSources status).get source) (part source) ((recordedSources next).get source)
  executions : ∀ source, executionsFor source trace =
    if source ∈ checked then executions (part source) else []
  others : ∀ source, source ∉ checked → (recordedSources next).get source =
    if source ∈ spec.sources.names then (recordedSources status).get source else none
  idle : ∃ final, next = some final ∧ final.state = .idle ∧
    ∃ now ∈ clockReadings trace, final.lastRun = some (chrono.format now)

section WholeRun

variable {chrono : Rfc3339.Codec} {spec : Trigger} {run : TaskRun} {source : String}
  {status next : Option TriggerStatus}

theorem SourceOutcome.sourceName_eq {old new : Option CheckedSourceState}
    {part : List TaskEvent} (h : SourceOutcome chrono run source old part new) :
    ∀ execution ∈ executions part, execution.1.sourceName = source := by
  intro execution hmem
  have hnil : executions part = [] → execution.1.sourceName = source := by
    intro hnil
    rw [hnil] at hmem
    cases hmem
  have hone : ∀ commit ok, executions part = [(run.executeCall source commit, ok)] →
      execution.1.sourceName = source := by
    intro commit ok hone
    rw [hone] at hmem
    rw [List.mem_singleton.mp hmem]
    rfl
  cases h with
  | unresolved hcommit hexecutions => exact hnil hexecutions
  | resolved hcommit hdecision =>
      cases hdecision with
      | unneeded hneeded hold hexecutions => exact hnil hexecutions
      | noAction hneeded haction hexecutions => exact hnil hexecutions
      | failed hneeded haction hexecutions => exact hone _ _ hexecutions
      | acted hneeded haction hexecutions hnow => exact hone _ _ hexecutions

/-- The executions for a source are those of its part. -/
theorem executionsFor_flatMap {order : List String} {part : String → List TaskEvent}
    (hnodup : order.Nodup)
    (hown : ∀ source ∈ order, ∀ execution ∈ executions (part source),
      execution.1.sourceName = source) (source : String) :
    executionsFor source (order.flatMap part) =
      if source ∈ order then executions (part source) else [] := by
  induction order with
  | nil => rfl
  | cons first order ih =>
      obtain ⟨hfresh, hnodup⟩ := List.nodup_cons.mp hnodup
      have hrest := ih hnodup fun other hother => hown other (List.mem_cons_of_mem _ hother)
      have hfirst := hown first List.mem_cons_self
      rw [executionsFor] at hrest ⊢
      rw [List.flatMap_cons, executions_append, List.filter_append, hrest]
      by_cases hsource : source = first
      · subst hsource
        rw [if_neg hfresh, if_pos List.mem_cons_self, List.append_nil, List.filter_eq_self]
        intro execution hmem
        exact decide_eq_true (hfirst execution hmem)
      · have hnone : (executions (part first)).filter
            (fun execution => execution.1.sourceName = source) = [] := by
          rw [List.filter_eq_nil_iff]
          intro execution hmem hsame
          exact hsource ((of_decide_eq_true hsame).symm.trans (hfirst execution hmem))
        rw [hnone, List.nil_append]
        simp only [List.mem_cons, hsource, false_or]

/-- An update of state and time leaves the sources of the spec alone. -/
theorem recordedSources_state (state : Option TriggerState) (lastRun : Option SystemTime)
    (source : String) :
    (recordedSources (some (({ spec with status := status } : Trigger).newStatus chrono
      { state := state, lastRun := lastRun }))).get source =
      if source ∈ spec.sources.names then (recordedSources status).get source else none := by
  rw [get_recordedSources_newStatus]
  · simp
  · intro other hsome
    simp at hsome

theorem newStatus_idle (trigger : Trigger) (lastRun : SystemTime) :
    (trigger.newStatus chrono { state := some .idle, lastRun := some lastRun }).state = .idle ∧
      (trigger.newStatus chrono { state := some .idle, lastRun := some lastRun }).lastRun =
        some (chrono.format lastRun) := by
  rw [Trigger.newStatus]
  cases trigger.status with
  | none => exact ⟨rfl, rfl⟩
  | some status => exact ⟨rfl, rfl⟩

/-- The record a run begins with. -/
theorem get_taskRun_checkedSources (spec : Trigger) (status : Option TriggerStatus)
    (sourceCloneFolder : String) (suffix : RandomString 8) (source : String) :
    (spec.taskRun status sourceCloneFolder suffix).checkedSources.get source =
      if source ∈ spec.sources.names then (recordedSources status).get source else none := by
  show HashMap.get (HashMap.retain _ _) source = _
  rw [HashMap.get_retain]
  simp only [List.contains_iff_mem]
  rfl

/-- The status with which the loop begins. -/
def runningStatus (chrono : Rfc3339.Codec) (spec : Trigger) (status : Option TriggerStatus) :
    Option TriggerStatus :=
  some (({ spec with status := status } : Trigger).newStatus chrono { state := some .running })

/-- A run is a loop with a beginning and an end. -/
theorem createTriggerTask_phases {taskSources : TriggerTaskSources} {sourceCloneFolder : String}
    {trace : List TaskEvent}
    (h : (spec.createTriggerTask chrono taskSources sourceCloneFolder).RunsIn (Solo chrono spec)
      status trace next ()) :
    ∃ (suffix : RandomString 8) (order : HashSetOrder (spec.sourcesToCheck taskSources))
        (looped : Option TriggerStatus) (read written : TaskEvent)
        (loop after : List TaskEvent) (lastRun : SystemTime),
      trace = [⟨.getTrigger spec.name (some spec.ns), some { spec with status := status }⟩,
          ⟨.randomString 8, suffix⟩, read, written,
          ⟨.iterHashSet (spec.sourcesToCheck taskSources), order⟩] ++ (loop ++ after) ∧
      executions [read, written] = [] ∧ executions after = [] ∧ lastRun ∈ clockReadings after ∧
      (Prog.forEach ((spec.taskRun status sourceCloneFolder suffix).checkSource chrono)
        order.val).RunsIn (Solo chrono spec) (runningStatus chrono spec status) loop looped () ∧
      next = some (({ spec with status := looped } : Trigger).newStatus chrono
        { state := some .idle, lastRun := some lastRun }) := by
  obtain ⟨_, _, _, ⟨rfl, rfl⟩, rfl, hfound⟩ := h.of_perform_bind
  obtain ⟨suffix, _, _, rfl, rfl, hrun⟩ := hfound.of_perform_bind
  obtain ⟨_, _, _, _, rfl, hrunning, hchecks⟩ := hrun.of_bind
  obtain ⟨rfl, rfl⟩ := updateTriggerStatus_solo hrunning
  obtain ⟨order, _, _, rfl, rfl, hordered⟩ := hchecks.of_perform_bind
  obtain ⟨_, looped, loop, _, rfl, hloop, hend⟩ := hordered.of_bind
  obtain ⟨lastRun, _, _, rfl, rfl, hlast⟩ := hend.of_perform_bind
  obtain ⟨_, _, _, _, rfl, hidle, ⟨rfl, rfl, -⟩⟩ := hlast.of_bind
  obtain ⟨rfl, rfl⟩ := updateTriggerStatus_solo hidle
  exact ⟨suffix, order, _, _, _, loop, [_, _, _], lastRun, rfl, rfl, rfl, List.mem_cons_self,
    hloop, rfl⟩

/-- A run in terms of the outcome for each source. -/
theorem createTriggerTask_solo {taskSources : TriggerTaskSources} {sourceCloneFolder : String}
    {trace : List TaskEvent}
    (hnames : ∀ source ∈ spec.sourcesToCheck taskSources, source ∈ spec.sources.names)
    (h : (spec.createTriggerTask chrono taskSources sourceCloneFolder).RunsIn (Solo chrono spec)
      status trace next ()) :
    ∃ suffix part,
      PartsOf chrono spec taskSources sourceCloneFolder status trace suffix part ∧
      RunOutcome chrono spec (spec.taskRun status sourceCloneFolder suffix)
        (spec.sourcesToCheck taskSources) status next trace part := by
  obtain ⟨suffix, order, looped, read, written, loop, after, lastRun, rfl, hbefore, hafter, hlast,
    hloop, rfl⟩ := createTriggerTask_phases h
  have horder := order.property.2
  have hrunning : ∀ source, (recordedSources (runningStatus chrono spec status)).get source =
      (spec.taskRun status sourceCloneFolder suffix).checkedSources.get source := by
    intro source
    rw [get_taskRun_checkedSources]
    exact recordedSources_state (some .running) none source
  have hnamed : OnlyNamed spec (runningStatus chrono spec status) := by
    intro source hsource
    rw [hrunning, get_taskRun_checkedSources, if_neg hsource]
  obtain ⟨part, rfl, hparts, hothers⟩ := forEach_solo order.property.1
    (fun source hsource => hnames source ((horder source).mp hsource)) hnamed
    (fun source _ => hrunning source) hloop
  have hrecorded : ∀ source ∈ spec.sources.names,
      (recordedSources status).get source =
        (spec.taskRun status sourceCloneFolder suffix).checkedSources.get source := by
    intro source hsource
    rw [get_taskRun_checkedSources, if_pos hsource]
  apply Exists.intro suffix
  apply Exists.intro part
  apply And.intro
  · exact ⟨order, read, written, after, rfl, fun source hsource => (hparts source hsource).1⟩
  constructor
  case outcome =>
    intro source hsource
    have hsourceNamed := hnames source hsource
    rw [recordedSources_state, if_pos hsourceNamed, hrecorded source hsourceNamed]
    exact (hparts source ((horder source).mpr hsource)).2
  case executions =>
    intro source
    have hown := executionsFor_flatMap order.property.1
      (fun source hsource => (hparts source hsource).2.sourceName_eq) source
    simp only [horder] at hown
    have hfirst : executions [⟨.getTrigger spec.name (some spec.ns),
        some { spec with status := status }⟩, ⟨.randomString 8, suffix⟩, read, written,
        ⟨.iterHashSet (spec.sourcesToCheck taskSources), order⟩] = [] := by
      show executions ([read, written] ++ [⟨.iterHashSet _, order⟩]) = []
      rw [executions_append, hbefore]
      rfl
    rw [← hown, executionsFor, executions_append, executions_append, hfirst, hafter,
      List.nil_append, List.append_nil]
    rfl
  case others =>
    intro source hsource
    rw [recordedSources_state, hothers source (mt (horder source).mp hsource), hrunning,
      get_taskRun_checkedSources]
    split
    · rfl
    · rfl
  case idle =>
    refine ⟨_, rfl, (newStatus_idle _ _).1, lastRun, ?_, (newStatus_idle _ _).2⟩
    rw [clockReadings_append, clockReadings_append]
    exact List.mem_append_right _ (List.mem_append_right _ hlast)

end WholeRun

/-! ## End to end -/

/-- The call of the action of a trigger for a source at a commit. -/
def Trigger.executeCall (spec : Trigger) (source commit : String) : ExecuteCall where
  actionKind := spec.action.kind
  actionName := spec.action.name
  sourceKind := spec.sources.kind
  sourceName := source
  sourceCommit := commit
  triggerRef := spec.sources.watchOn.reference
  ns := spec.ns
  triggerKind := spec.kind.crdKind
  triggerName := spec.name

/-- The action is to be executed for a source at a commit: the source is checked,
its repository and commit resolve, and it is needed. -/
structure Due (spec : Trigger) (checked : List String) (status : Option TriggerStatus)
    (part : String → List TaskEvent) (source commit : String) : Prop where
  checked : source ∈ checked
  resolved : resolvedCommit (part source) = some commit
  needed : Needed spec.sources.watchOn (foundState commit (part source))
    ((recordedSources status).get source)

/-- What a run did for each source, by its part of the trace, and what the status
is afterwards. -/
structure RunReport (chrono : Rfc3339.Codec) (spec : Trigger) (checked : List String)
    (status next : Option TriggerStatus) (trace : List TaskEvent)
    (part : String → List TaskEvent) : Prop where
  /-- one call of `execute` for a source that is due and whose action is found -/
  called : ∀ source commit, Due spec checked status part source commit →
    actionFound (part source) = true →
      ∃ ok, executionsFor source trace = [(spec.executeCall source commit, ok)]
  /-- and none for any other source -/
  notCalled : ∀ source, (∀ commit, Due spec checked status part source commit →
    actionFound (part source) = false) → executionsFor source trace = []
  /-- `execute` returned `Ok`: the new hashes with a new time -/
  acted : ∀ source commit, Due spec checked status part source commit →
    (spec.executeCall source commit, true) ∈ executionsFor source trace →
      ∃ now ∈ clockReadings (part source), (recordedSources next).get source =
        some { foundState commit (part source) with changed := some (chrono.format now) }
  /-- it was not needed: the new hashes with the old time -/
  notNeeded : ∀ source commit, source ∈ checked → resolvedCommit (part source) = some commit →
    ¬ Due spec checked status part source commit →
      ∃ entry, (recordedSources status).get source = some entry ∧
        (recordedSources next).get source =
          some { foundState commit (part source) with changed := entry.changed }
  /-- a step for the source failed: the old entry -/
  failed : ∀ source ∈ checked,
    (resolvedCommit (part source) = none ∨
      ∃ commit, Due spec checked status part source commit ∧
        (spec.executeCall source commit, true) ∉ executionsFor source trace) →
      (recordedSources next).get source = (recordedSources status).get source
  /-- other sources of the spec keep their entries -/
  unchecked : ∀ source ∈ spec.sources.names, source ∉ checked →
    (recordedSources next).get source = (recordedSources status).get source
  /-- and entries of sources that are not in the spec are dropped -/
  dropped : ∀ source, source ∉ spec.sources.names → (recordedSources next).get source = none
  /-- the trigger is idle and knows when it ran -/
  idle : ∃ final, next = some final ∧ final.state = .idle ∧
    ∃ now ∈ clockReadings trace, final.lastRun = some (chrono.format now)

section Report

variable {chrono : Rfc3339.Codec} {spec : Trigger} {checked : List String} {source : String}
  {status next : Option TriggerStatus} {run : TaskRun} {part : String → List TaskEvent}

/-- The outcome for a source that is due. -/
theorem SourceOutcome.of_due {commit : String} {new : Option CheckedSourceState}
    (h : SourceOutcome chrono run source ((recordedSources status).get source) (part source) new)
    (hsources : run.trigger.sources = spec.sources)
    (hdue : Due spec checked status part source commit) :
    (actionFound (part source) = false ∧ executions (part source) = [] ∧
      new = (recordedSources status).get source) ∨
    (actionFound (part source) = true ∧
      executions (part source) = [(run.executeCall source commit, false)] ∧
      new = (recordedSources status).get source) ∨
    (actionFound (part source) = true ∧
      executions (part source) = [(run.executeCall source commit, true)] ∧
      ∃ now ∈ clockReadings (part source),
        new =
          some { foundState commit (part source) with changed := some (chrono.format now) }) := by
  cases h with
  | unresolved hcommit hexecutions =>
      rw [hdue.resolved] at hcommit
      cases hcommit
  | resolved hcommit hdecision =>
      obtain rfl := Option.some.inj (hcommit.symm.trans hdue.resolved)
      cases hdecision with
      | unneeded hneeded hold hexecutions =>
          rw [hsources] at hneeded
          exact absurd hdue.needed hneeded
      | noAction hneeded haction hexecutions => exact Or.inl ⟨haction, hexecutions, rfl⟩
      | failed hneeded haction hexecutions =>
          exact Or.inr (Or.inl ⟨haction, hexecutions, rfl⟩)
      | acted hneeded haction hexecutions hnow =>
          exact Or.inr (Or.inr ⟨haction, hexecutions, _, hnow, rfl⟩)

/-- The outcome for a source that is checked but not due. -/
theorem SourceOutcome.of_not_due {new : Option CheckedSourceState}
    (h : SourceOutcome chrono run source ((recordedSources status).get source) (part source) new)
    (hsources : run.trigger.sources = spec.sources) (hchecked : source ∈ checked)
    (hdue : ∀ commit, ¬ Due spec checked status part source commit) :
    executions (part source) = [] ∧
    ((resolvedCommit (part source) = none ∧ new = (recordedSources status).get source) ∨
      ∃ commit entry, resolvedCommit (part source) = some commit ∧
        (recordedSources status).get source = some entry ∧
        new = some { foundState commit (part source) with changed := entry.changed }) := by
  cases h with
  | unresolved hcommit hexecutions => exact ⟨hexecutions, Or.inl ⟨hcommit, rfl⟩⟩
  | @resolved commit _ hcommit hdecision =>
      have hnot : ¬ Needed run.trigger.sources.watchOn (foundState commit (part source))
          ((recordedSources status).get source) := by
        intro hneeded
        rw [hsources] at hneeded
        exact hdue commit ⟨hchecked, hcommit, hneeded⟩
      cases hdecision with
      | unneeded hneeded hold hexecutions =>
          exact ⟨hexecutions, Or.inr ⟨commit, _, hcommit, hold, rfl⟩⟩
      | noAction hneeded haction hexecutions => exact absurd hneeded hnot
      | failed hneeded haction hexecutions => exact absurd hneeded hnot
      | acted hneeded haction hexecutions hnow => exact absurd hneeded hnot

theorem taskRun_sources (spec : Trigger) (status : Option TriggerStatus)
    (sourceCloneFolder : String) (suffix : RandomString 8) :
    (spec.taskRun status sourceCloneFolder suffix).trigger.sources = spec.sources := rfl

namespace RunOutcome

variable {trace : List TaskEvent} {commit sourceCloneFolder : String} {suffix : RandomString 8}
  (h : RunOutcome chrono spec (spec.taskRun status sourceCloneFolder suffix) checked status next
    trace part)

include h

theorem executionsFor_eq (hchecked : source ∈ checked) :
    executionsFor source trace = Triggers.executions (part source) := by
  rw [h.executions, if_pos hchecked]

theorem called (hdue : Due spec checked status part source commit)
    (haction : actionFound (part source) = true) :
    ∃ ok, executionsFor source trace = [(spec.executeCall source commit, ok)] := by
  rw [h.executionsFor_eq hdue.checked]
  rcases (h.outcome source hdue.checked).of_due (taskRun_sources spec status _ _) hdue with
    ⟨hmissing, -⟩ | ⟨-, hone, -⟩ | ⟨-, hone, -⟩
  · rw [haction] at hmissing
    cases hmissing
  · exact ⟨false, hone⟩
  · exact ⟨true, hone⟩

theorem notCalled (hnot : ∀ commit, Due spec checked status part source commit →
    actionFound (part source) = false) : executionsFor source trace = [] := by
  by_cases hchecked : source ∈ checked
  · rw [h.executionsFor_eq hchecked]
    have houtcome := h.outcome source hchecked
    by_cases hdue : ∃ commit, Due spec checked status part source commit
    · obtain ⟨commit, hdue⟩ := hdue
      have hmissing := hnot commit hdue
      rcases houtcome.of_due (taskRun_sources spec status _ _) hdue with
        ⟨-, hnone, -⟩ | ⟨hfound, -⟩ | ⟨hfound, -⟩
      · exact hnone
      · rw [hmissing] at hfound
        cases hfound
      · rw [hmissing] at hfound
        cases hfound
    · exact (houtcome.of_not_due (taskRun_sources spec status _ _) hchecked
        (not_exists.mp hdue)).1
  · rw [h.executions, if_neg hchecked]

theorem acted (hdue : Due spec checked status part source commit)
    (hmem : (spec.executeCall source commit, true) ∈ executionsFor source trace) :
    ∃ now ∈ clockReadings (part source), (recordedSources next).get source =
      some { foundState commit (part source) with changed := some (chrono.format now) } := by
  rw [h.executionsFor_eq hdue.checked] at hmem
  rcases (h.outcome source hdue.checked).of_due (taskRun_sources spec status _ _) hdue with
    ⟨-, hnone, -⟩ | ⟨-, hone, -⟩ | ⟨-, -, hnow⟩
  · rw [hnone] at hmem
    cases hmem
  · rw [hone] at hmem
    cases List.mem_singleton.mp hmem
  · exact hnow

theorem notNeeded (hchecked : source ∈ checked)
    (hresolved : resolvedCommit (part source) = some commit)
    (hnot : ¬ Due spec checked status part source commit) :
    ∃ entry, (recordedSources status).get source = some entry ∧
      (recordedSources next).get source =
        some { foundState commit (part source) with changed := entry.changed } := by
  have hnever : ∀ other, ¬ Due spec checked status part source other := by
    intro other hdue
    obtain rfl := Option.some.inj (hresolved.symm.trans hdue.resolved)
    exact hnot hdue
  rcases ((h.outcome source hchecked).of_not_due (taskRun_sources spec status _ _) hchecked
    hnever).2 with ⟨hnone, -⟩ | ⟨other, entry, hother, hentry, hnew⟩
  · rw [hresolved] at hnone
    cases hnone
  · obtain rfl := Option.some.inj (hresolved.symm.trans hother)
    exact ⟨entry, hentry, hnew⟩

theorem unresolved (hchecked : source ∈ checked) (hnone : resolvedCommit (part source) = none) :
    (recordedSources next).get source = (recordedSources status).get source := by
  have hnever : ∀ commit, ¬ Due spec checked status part source commit := by
    intro commit hdue
    rw [hdue.resolved] at hnone
    cases hnone
  rcases ((h.outcome source hchecked).of_not_due (taskRun_sources spec status _ _) hchecked
    hnever).2 with ⟨-, hold⟩ | ⟨other, entry, hother, -⟩
  · exact hold
  · rw [hnone] at hother
    cases hother

theorem notActed (hdue : Due spec checked status part source commit)
    (hmem : (spec.executeCall source commit, true) ∉ executionsFor source trace) :
    (recordedSources next).get source = (recordedSources status).get source := by
  rw [h.executionsFor_eq hdue.checked] at hmem
  rcases (h.outcome source hdue.checked).of_due (taskRun_sources spec status _ _) hdue with
    ⟨-, -, hold⟩ | ⟨-, -, hold⟩ | ⟨-, hone, -⟩
  · exact hold
  · exact hold
  · rw [hone] at hmem
    exact absurd List.mem_cons_self hmem

end RunOutcome

end Report

/-- One task run, end to end.  With no other task for the trigger, a cache that
follows every patch and patches that succeed, for every spec and status, every
outcome of the steps for each source and every order of the sources: the action
is executed exactly once for each source that is due and whose action is found,
and for no other, and the status records what the report says. -/
theorem task_run_end_to_end (chrono : Rfc3339.Codec) (spec : Trigger)
    (status next : Option TriggerStatus) (taskSources : TriggerTaskSources)
    (hnames : ∀ source ∈ spec.sourcesToCheck taskSources, source ∈ spec.sources.names)
    (sourceCloneFolder : String) (trace : List TaskEvent)
    (hruns : (spec.createTriggerTask chrono taskSources sourceCloneFolder).RunsIn
      (Solo chrono spec) status trace next ()) :
    ∃ suffix part,
      PartsOf chrono spec taskSources sourceCloneFolder status trace suffix part ∧
      RunReport chrono spec (spec.sourcesToCheck taskSources) status next trace part := by
  obtain ⟨suffix, part, hparts, h⟩ := createTriggerTask_solo hnames hruns
  apply Exists.intro suffix
  apply Exists.intro part
  apply And.intro hparts
  constructor
  case called => exact fun source commit => h.called
  case notCalled => exact fun source => h.notCalled
  case acted => exact fun source commit => h.acted
  case notNeeded => exact fun source commit => h.notNeeded
  case failed =>
    rintro source hchecked (hnone | ⟨commit, hdue, hmem⟩)
    · exact h.unresolved hchecked hnone
    · exact h.notActed hdue hmem
  case unchecked =>
    intro source hsource hchecked
    rw [h.others source hchecked, if_pos hsource]
  case dropped =>
    intro source hsource
    rw [h.others source (mt (hnames source) hsource), if_neg hsource]
  case idle => exact h.idle

/-- The surroundings of the only task, when an oracle says how its steps go. -/
def soloAnswer (chrono : Rfc3339.Codec) (spec : Trigger) (oracle : (e : Effect) → e.Reply)
    (status : Option TriggerStatus) : (e : Effect) → e.Reply × Option TriggerStatus
  | .getTrigger _ _ => (some { spec with status := status }, status)
  | .patchStatus patch => (true, some (patch.cached.newStatus chrono patch.update))
  | e => (oracle e, status)

theorem solo_soloAnswer (chrono : Rfc3339.Codec) (spec : Trigger)
    (oracle : (e : Effect) → e.Reply) (status : Option TriggerStatus) (e : Effect) :
    Solo chrono spec status e (soloAnswer chrono spec oracle status e).1
      (soloAnswer chrono spec oracle status e).2 := by
  cases e with
  | getTrigger name ns => exact ⟨rfl, rfl⟩
  | patchStatus patch => exact ⟨rfl, rfl⟩
  | _ => rfl

/-- A run of the only task: its trace and the status it leaves. -/
def soloRun (spec : Trigger) (oracle : (e : Effect) → e.Reply) (status : Option TriggerStatus)
    (taskSources : TriggerTaskSources) : List TaskEvent × Option TriggerStatus :=
  let result := (spec.createTriggerTask Rfc3339.standard taskSources "/tmp").runWith
    (soloAnswer Rfc3339.standard spec oracle) status
  (result.1, result.2.1)

theorem runsIn_soloRun (spec : Trigger) (oracle : (e : Effect) → e.Reply)
    (status : Option TriggerStatus) (taskSources : TriggerTaskSources) :
    (spec.createTriggerTask Rfc3339.standard taskSources "/tmp").RunsIn
      (Solo Rfc3339.standard spec) status (soloRun spec oracle status taskSources).1
      (soloRun spec oracle status taskSources).2 () :=
  Prog.runsIn_runWith (solo_soloAnswer Rfc3339.standard spec oracle) _ status

open Shared (twoSources)

theorem task_run_end_to_end_twoSources :
    (executionsFor "b" (soloRun twoSources (obliging twoSources) none .all).1).length = 1 ∧
    ∃ suffix part, PartsOf Rfc3339.standard twoSources .all "/tmp" none
        (soloRun twoSources (obliging twoSources) none .all).1 suffix part ∧
      RunReport Rfc3339.standard twoSources ["a", "b"] none
        (soloRun twoSources (obliging twoSources) none .all).2
        (soloRun twoSources (obliging twoSources) none .all).1 part := by
  apply And.intro (by decide +kernel)
  exact task_run_end_to_end Rfc3339.standard twoSources none _ .all (fun _ hsource => hsource)
    "/tmp" _ (runsIn_soloRun twoSources (obliging twoSources) none .all)

/-- Surroundings in which every step succeeds but the lookup of the action. -/
def withoutAction (trigger : Trigger) : (e : Effect) → e.Reply
  | .getAction _ _ _ => false
  | e => obliging trigger e

/-- A new commit of a source that is not recorded, and an action that is not in
the cache: `execute` is not called for the source. -/
theorem not_called_without_action :
    (twoSources.createTriggerTask Rfc3339.standard (.single "a") "/tmp").RunsIn
      (Solo Rfc3339.standard twoSources) none
      (soloRun twoSources (withoutAction twoSources) none (.single "a")).1
      (soloRun twoSources (withoutAction twoSources) none (.single "a")).2 () ∧
    resolvedCommit (soloRun twoSources (withoutAction twoSources) none (.single "a")).1 =
      some "c1" ∧
    Needed twoSources.sources.watchOn { commitHash := some "c1" }
      ((recordedSources none).get "a") ∧
    executionsFor "a" (soloRun twoSources (withoutAction twoSources) none (.single "a")).1 =
      [] := by
  apply And.intro (runsIn_soloRun twoSources (withoutAction twoSources) none (.single "a"))
  apply And.intro (by decide +kernel)
  apply And.intro
  · apply Or.inr
    intro entry hentry
    simp [recordedSources] at hentry
  · decide +kernel

end GitEventsRunner.Triggers
