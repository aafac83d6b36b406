/-
# One action for each commit

A trigger with `on_change_only` runs its action when a source has changed since
it was last recorded.  A task decides that by a snapshot of the record it takes
when it begins, and writes the record only after it acted.  Tasks of one trigger
run in parallel, so two of them can decide on the same old snapshot and act
twice on one commit; and a snapshot from a cache that lags behind does the same
to tasks that run one after the other.

The action is executed at most once if every task takes its snapshot in time:
the snapshot has the record of the commit, or nobody has acted on the source and
nobody else is about to.
-/

import GitEventsRunner.Lib.Once
import GitEventsRunner.Triggers.Records

namespace GitEventsRunner.Triggers

open GitEventsRunner.Lib
open TriggerTask

/-- The effect executes the action for a source. -/
def ExecutesFor (source : String) : Effect → Prop
  | .execute call _ => call.sourceName = source
  | _ => False

/-- The reply is one of a remote whose watched reference stays at a commit: in
every clone of the source the latest commit is that one, if it is found. -/
def StaysAt (spec : Trigger) (sourceCloneFolder source commit : String) :
    (e : Effect) → e.Reply → Prop
  | .getLatestCommit path _, reply =>
      (∃ suffix : RandomString 8,
        path = spec.baseTempDir sourceCloneFolder suffix.val ++ "/" ++ source) →
      reply = none ∨ reply = some commit
  | _, _ => True

/-! ## What one task does for a source -/

namespace TaskRun

variable {chrono : Rfc3339.Codec} {run : TaskRun} {source : String}
  {A : (e : Effect) → e.Reply → Prop}

theorem updateTriggerStatus_calm (trigger : Trigger) (update : StatusUpdate) :
    (trigger.updateTriggerStatus update).Calm A (ExecutesFor source) :=
  (updateTriggerStatus_all trigger update not_false fun _ => not_false).calm

/-- An iteration executes the action for its own source only. -/
theorem checkSource_calm_of_ne {other : String} (hne : other ≠ source) :
    (run.checkSource chrono other).Calm A (ExecutesFor source) := by
  apply Prog.All.calm
  apply (run.checkSource_all chrono other).mono
  intro e he
  cases he with
  | execute commit checked => exact hne
  | removeDirAll | createDirAll | getGitRepo | fetchRepoRef | getLatestCommit | getFileGlobHash
  | getAction | utcNow | getTrigger | patchStatus => exact not_false

theorem actAndRecord_single (commit : String) (newSourceState : CheckedSourceState) :
    (run.actAndRecord chrono source commit newSourceState).Single A (ExecutesFor source) := by
  unfold actAndRecord
  extract_lets watchOn current
  split
  · apply Prog.Single.bind_calm
    · apply Prog.single_perform_bind not_false
      intro found
      cases found with
      | false => trivial
      | true => exact Prog.single_perform _
    · intro ok
      cases ok with
      | false => trivial
      | true =>
          apply Prog.calm_perform_bind not_false
          intro changed _
          apply Prog.calm_perform_bind not_false
          intro lastRun _
          exact Prog.calm_bind (updateTriggerStatus_calm _ _) fun _ => trivial
  · apply Prog.Calm.single
    exact Prog.calm_bind (updateTriggerStatus_calm _ _) fun _ => trivial

theorem fileHash_calm : (run.fileHash source).Calm A (ExecutesFor source) := by
  rw [fileHash]
  cases run.trigger.sources.watchOn.files with
  | none => trivial
  | some files => exact ⟨not_false, fun _ _ => trivial⟩

/-- An iteration executes the action once at most. -/
theorem checkSource_single : (run.checkSource chrono source).Single A (ExecutesFor source) := by
  apply Prog.single_perform_bind not_false
  intro _
  apply Prog.single_perform_bind not_false
  intro made
  cases made with
  | false => trivial
  | true =>
      apply Prog.single_perform_bind not_false
      intro found
      cases found with
      | false => trivial
      | true =>
          apply Prog.single_perform_bind not_false
          intro fetched
          cases fetched with
          | false => trivial
          | true =>
              apply Prog.single_perform_bind not_false
              intro latest
              cases latest with
              | none => trivial
              | some commit =>
                  apply fileHash_calm.bind_single
                  intro fileHash
                  apply (actAndRecord_single commit _).bind_calm
                  intro _
                  exact Prog.calm_perform_bind not_false fun _ _ => trivial

section Recorded

variable {spec : Trigger} {sourceCloneFolder commit : String}

/-- A source that is recorded at its commit looks unchanged. -/
theorem actAndRecord_calm {entry : CheckedSourceState}
    (hchange : run.trigger.sources.watchOn.onChangeOnly = true)
    (hfiles : run.trigger.sources.watchOn.files = none)
    (hentry : run.checkedSources.get source = some entry)
    (hcommit : entry.commitHash = some commit) :
    (run.actAndRecord chrono source commit { commitHash := some commit, fileHash := none }).Calm A
      (ExecutesFor source) := by
  have hequal : CheckedSourceState.isEqual { commitHash := some commit, fileHash := none }
      (some entry) false = true := by
    simp [CheckedSourceState.isEqual, hcommit]
  simp only [actAndRecord, hchange, hfiles, hentry, Option.isSome_none, hequal, Bool.not_true,
    Bool.or_false, Bool.false_eq_true, if_false]
  exact Prog.calm_bind (updateTriggerStatus_calm _ _) fun _ => trivial

/-- An iteration for a source that is recorded at the commit its remote stays at
does not execute the action. -/
theorem checkSource_calm {entry : CheckedSourceState} {suffix : RandomString 8}
    (hchange : run.trigger.sources.watchOn.onChangeOnly = true)
    (hfiles : run.trigger.sources.watchOn.files = none)
    (hentry : run.checkedSources.get source = some entry)
    (hcommit : entry.commitHash = some commit)
    (hfolder : run.baseTempDir = spec.baseTempDir sourceCloneFolder suffix.val) :
    (run.checkSource chrono source).Calm (StaysAt spec sourceCloneFolder source commit)
      (ExecutesFor source) := by
  apply Prog.calm_perform_bind not_false
  intro _ _
  apply Prog.calm_perform_bind not_false
  intro made _
  cases made with
  | false => trivial
  | true =>
      apply Prog.calm_perform_bind not_false
      intro found _
      cases found with
      | false => trivial
      | true =>
          apply Prog.calm_perform_bind not_false
          intro fetched _
          cases fetched with
          | false => trivial
          | true =>
              apply Prog.calm_perform_bind not_false
              intro latest hlatest
              have hstays : latest = none ∨ latest = some commit := by
                apply hlatest ⟨suffix, _⟩
                rw [repoPath, hfolder]
              rcases hstays with rfl | rfl
              · trivial
              · have hnone : run.fileHash source = Prog.pure none := by
                  rw [TaskRun.fileHash, hfiles]
                  rfl
                show (run.fileHash source >>= _).Calm _ _
                rw [hnone]
                apply Prog.calm_bind (actAndRecord_calm hchange hfiles hentry hcommit)
                intro _
                exact Prog.calm_perform_bind not_false fun _ _ => trivial

end Recorded

end TaskRun

/-! ## What one task does -/

namespace Trigger

variable {chrono : Rfc3339.Codec} {self trigger : Trigger} {source : String}
  {sourceCloneFolder suffix : String} {A : (e : Effect) → e.Reply → Prop}

/-- What a task does with the snapshot it took. -/
def afterSnapshot (chrono : Rfc3339.Codec) (self : Trigger) (taskSources : TriggerTaskSources)
    (sourceCloneFolder : String) : Option Trigger → TriggerTask Unit
  | some trigger => do
      let suffix ← randomString 8
      self.runTask chrono taskSources sourceCloneFolder trigger suffix.val
  | none => pure ()

/-- A run is calm if its iterations are. -/
theorem runTask_calm (taskSources : TriggerTaskSources)
    (hloop : ∀ other, (TaskRun.checkSource chrono ⟨self, trigger, trigger.initialSources,
      self.baseTempDir sourceCloneFolder suffix⟩ other).Calm A (ExecutesFor source)) :
    (self.runTask chrono taskSources sourceCloneFolder trigger suffix).Calm A
      (ExecutesFor source) := by
  apply Prog.calm_bind (TaskRun.updateTriggerStatus_calm _ _)
  intro _
  apply Prog.calm_perform_bind not_false
  intro order _
  apply Prog.calm_bind (Prog.calm_forEach fun other _ => hloop other)
  intro _
  apply Prog.calm_perform_bind not_false
  intro lastRun _
  exact Prog.calm_bind (TaskRun.updateTriggerStatus_calm _ _) fun _ => trivial

/-- A run checks no source twice, so it executes the action once at most. -/
theorem runTask_single (taskSources : TriggerTaskSources) :
    (self.runTask chrono taskSources sourceCloneFolder trigger suffix).Single A
      (ExecutesFor source) := by
  apply (TaskRun.updateTriggerStatus_calm _ _).bind_single
  intro _
  apply Prog.single_perform_bind not_false
  intro order
  apply Prog.Single.bind_calm
  · apply Prog.single_forEach source order.property.1 TaskRun.checkSource_single
    intro other _ hne
    exact TaskRun.checkSource_calm_of_ne hne
  · intro _
    apply Prog.calm_perform_bind not_false
    intro lastRun _
    exact Prog.calm_bind (TaskRun.updateTriggerStatus_calm _ _) fun _ => trivial

end Trigger

/-! ## All tasks together -/

namespace Shared

/-- The executions for a source so far. -/
def executionsFor (source : String) (s : Shared) : List Acted :=
  s.executed.filter fun acted => acted.call.sourceName = source

section Count

variable {chrono : Rfc3339.Codec} {source : String}

theorem executionsFor_afterExecute_le (s : Shared) (acted : Acted) (ok : Bool) :
    ((s.afterExecute acted ok).executionsFor source).length ≤
      (s.executionsFor source).length + 1 := by
  cases ok with
  | false => exact Nat.le_succ _
  | true =>
      simp only [afterExecute, executionsFor, if_true, List.filter_cons]
      split
      · exact le_refl _
      · exact Nat.le_succ _

theorem executionsFor_handle_le (s : Shared) (oracle : (e : Effect) → e.Reply) (e : Effect) :
    ((s.handle chrono oracle e).2.executionsFor source).length ≤
      (s.executionsFor source).length + 1 := by
  cases e with
  | execute call checked => exact executionsFor_afterExecute_le s _ _
  | patchStatus patch =>
      simp only [handle, afterPatch]
      split
      · exact Nat.le_succ _
      · exact Nat.le_succ _
  | _ => exact Nat.le_succ _

/-- Only executions for the source count. -/
theorem executionsFor_handle_eq (s : Shared) (oracle : (e : Effect) → e.Reply) {e : Effect}
    (he : ¬ ExecutesFor source e) :
    (s.handle chrono oracle e).2.executionsFor source = s.executionsFor source := by
  cases e with
  | execute call checked =>
      have hother : call.sourceName ≠ source := he
      simp only [handle, afterExecute]
      split
      · simp [executionsFor, hother]
      · rfl
  | patchStatus patch =>
      simp only [handle, afterPatch]
      split
      · rfl
      · rfl
  | _ => rfl

theorem executionsFor_refresh {s t : Shared} {n : ℕ} (h : s.refresh n = some t) :
    t.executionsFor source = s.executionsFor source := by
  obtain ⟨version, -, rfl⟩ := Option.map_eq_some_iff.mp h
  rfl

end Count

variable (chrono : Rfc3339.Codec) (spec : Trigger) (sourceCloneFolder : String)

/-- The tasks of a trigger in one process, which clones to one folder. -/
def tasksOf : Scheduler Effect.Reply Shared TriggerTaskSources ℕ :=
  scheduler chrono spec fun taskSources => ⟨taskSources, sourceCloneFolder⟩

variable (source commit : String)

/-- All patches and enqueues succeed, and the watched reference of the source
stays at the commit. -/
def Undisturbed : PoolAction Effect.Reply TriggerTaskSources ℕ → Prop
  | .perform _ oracle =>
      (∀ patch, oracle (.patchStatus patch) = true) ∧
      (∀ call checked, oracle (.execute call checked) = true) ∧
      ∀ e, StaysAt spec sourceCloneFolder source commit e (oracle e)
  | .spawn _ | .env _ => True

/-- The version in the cache, as a task reads it, records the source at the
commit. -/
def RecordedAt (s : Shared) : Prop :=
  ∃ entry, ({ spec with status := s.cached } : Trigger).initialSources.get source = some entry ∧
    entry.commitHash = some commit

/-- If in this step a task takes its snapshot of the trigger, then the snapshot
records the source at the commit, or nobody has executed the action for the
source and every other task has not begun or does not execute it any more. -/
def SnapshotInTime (s : Pool Effect.Reply Shared)
    (a : PoolAction Effect.Reply TriggerTaskSources ℕ) (_ : Pool Effect.Reply Shared) : Prop :=
  ∀ thread oracle taskSources, a = .perform thread oracle →
    s.threads[thread]? = some (spec.createTriggerTask chrono taskSources sourceCloneFolder) →
    oracle (.getTrigger spec.name (some spec.ns)) ≠ (none : Option Trigger) →
      RecordedAt spec source commit s.shared ∨
      (s.shared.executionsFor source = [] ∧
        s.CalmBut (tasksOf chrono spec sourceCloneFolder)
          (StaysAt spec sourceCloneFolder source commit) (ExecutesFor source) thread)

variable {chrono spec sourceCloneFolder source commit}

theorem handle_spec (s : Shared) (oracle : (e : Effect) → e.Reply) (e : Effect) :
    (s.handle chrono oracle e).2.spec = s.spec := by
  cases e with
  | execute call checked =>
      simp only [handle, afterExecute]
      split
      · rfl
      · rfl
  | patchStatus patch =>
      simp only [handle, afterPatch]
      split
      · rfl
      · rfl
  | _ => rfl

/-- The cache answers with the version it holds, or not at all. -/
theorem handle_getTrigger (chrono : Rfc3339.Codec) (s : Shared)
    (oracle : (e : Effect) → e.Reply) {name : String} {ns : Option String} :
    (s.handle chrono oracle (.getTrigger name ns)).1 = (none : Option Trigger) ∨
      (oracle (.getTrigger name ns) ≠ (none : Option Trigger) ∧
        (s.handle chrono oracle (.getTrigger name ns)).1 =
          some { s.spec with status := s.cached }) := by
  cases hfound : (oracle (.getTrigger name ns) : Option Trigger) with
  | none =>
      apply Or.inl
      show Option.map _ (oracle (.getTrigger name ns) : Option Trigger) = none
      rw [hfound]
      rfl
  | some found =>
      apply Or.inr
      apply And.intro (fun hnone => nomatch hnone)
      show Option.map _ (oracle (.getTrigger name ns) : Option Trigger) = some _
      rw [hfound]
      rfl

theorem spec_of_step {s t : Pool Effect.Reply Shared}
    {a : PoolAction Effect.Reply TriggerTaskSources ℕ}
    (hstep : Pool.step (tasksOf chrono spec sourceCloneFolder) s a = some t) :
    t.shared.spec = s.shared.spec := by
  cases Pool.Transition.of_step hstep with
  | spawn i => rfl
  | perform thread oracle e k hthread => exact handle_spec s.shared oracle e
  | env n shared henv =>
      obtain ⟨version, -, rfl⟩ := Option.map_eq_some_iff.mp henv
      rfl

theorem repliesMeet_of_undisturbed {s : Pool Effect.Reply Shared}
    {a : PoolAction Effect.Reply TriggerTaskSources ℕ}
    (h : Undisturbed spec sourceCloneFolder source commit a) :
    Pool.RepliesMeet (tasksOf chrono spec sourceCloneFolder)
      (StaysAt spec sourceCloneFolder source commit) s a := by
  rintro thread oracle rfl e
  cases e with
  | getLatestCommit path reference => exact h.2.2 (.getLatestCommit path reference)
  | _ => trivial

/-- What a task does after its snapshot, if the snapshot records the source. -/
theorem runTask_calm_of_recordedAt {s : Shared} (taskSources : TriggerTaskSources)
    (suffix : RandomString 8) (hchange : spec.sources.watchOn.onChangeOnly = true)
    (hfiles : spec.sources.watchOn.files = none) (h : RecordedAt spec source commit s) :
    (spec.runTask chrono taskSources sourceCloneFolder { spec with status := s.cached }
      suffix.val).Calm (StaysAt spec sourceCloneFolder source commit) (ExecutesFor source) := by
  obtain ⟨entry, hentry, hcommit⟩ := h
  apply Trigger.runTask_calm
  intro other
  by_cases hother : other = source
  · subst hother
    exact TaskRun.checkSource_calm hchange hfiles hentry hcommit rfl
  · exact TaskRun.checkSource_calm_of_ne hother

theorem beginsInTime_of_snapshotInTime {s t : Pool Effect.Reply Shared}
    {a : PoolAction Effect.Reply TriggerTaskSources ℕ}
    (hchange : spec.sources.watchOn.onChangeOnly = true)
    (hfiles : spec.sources.watchOn.files = none) (hspec : s.shared.spec = spec)
    (h : SnapshotInTime chrono spec sourceCloneFolder source commit s a t) :
    Pool.BeginsInTime (tasksOf chrono spec sourceCloneFolder)
      (StaysAt spec sourceCloneFolder source commit) (ExecutesFor source)
      (fun s => (s.executionsFor source).length) s a := by
  intro thread oracle taskSources e k ha hthread htask
  have htask : Prog.call (Effect.getTrigger spec.name (some spec.ns))
      (spec.afterSnapshot chrono taskSources sourceCloneFolder) = Prog.call e k := htask
  obtain ⟨rfl, hk⟩ := Prog.call.inj htask
  obtain rfl := eq_of_heq hk
  apply And.intro not_false
  have hafter : ∀ reply : Option Trigger,
      (reply = none ∨ (oracle (.getTrigger spec.name (some spec.ns)) ≠ (none : Option Trigger) ∧
        reply = some { s.shared.spec with status := s.shared.cached })) →
      (spec.afterSnapshot chrono taskSources sourceCloneFolder reply).Calm
          (StaysAt spec sourceCloneFolder source commit) (ExecutesFor source) ∨
        ((s.shared.executionsFor source).length = 0 ∧
          s.CalmBut (tasksOf chrono spec sourceCloneFolder)
            (StaysAt spec sourceCloneFolder source commit) (ExecutesFor source) thread ∧
          (spec.afterSnapshot chrono taskSources sourceCloneFolder reply).Single
            (StaysAt spec sourceCloneFolder source commit) (ExecutesFor source)) := by
    rintro reply (rfl | ⟨hfound, rfl⟩)
    · exact Or.inl trivial
    · rw [hspec]
      rcases h thread oracle taskSources ha hthread hfound with hrecorded | ⟨hnobody, hothers⟩
      · apply Or.inl
        apply Prog.calm_perform_bind not_false
        intro suffix _
        exact runTask_calm_of_recordedAt taskSources suffix hchange hfiles hrecorded
      · apply Or.inr
        apply And.intro (List.length_eq_zero_iff.mpr hnobody)
        apply And.intro hothers
        apply Prog.single_perform_bind not_false
        intro suffix
        exact Trigger.runTask_single taskSources
  exact hafter _ (handle_getTrigger chrono s.shared oracle)

theorem start_atMostOnce {initial : Option TriggerStatus} :
    (start spec initial).AtMostOnce (tasksOf chrono spec sourceCloneFolder)
      (StaysAt spec sourceCloneFolder source commit) (ExecutesFor source)
      (fun s => (s.executionsFor source).length) := by
  apply And.intro (Nat.zero_le 1)
  apply Exists.intro 0
  apply And.intro
  · intro other p _ hp
    cases hp
  · intro p hp
    cases hp

/-- At most one action for each commit.  In every interleaving of any tasks of a
trigger that acts on changes of the commit only, with any lag of the cache, while
patches and enqueues succeed and the source stays at a commit: the action is
executed at most once for the source, if every task takes its snapshot in
time. -/
theorem executed_at_most_once (chrono : Rfc3339.Codec) (spec : Trigger)
    (sourceCloneFolder source commit : String) (initial : Option TriggerStatus)
    (hchange : spec.sources.watchOn.onChangeOnly = true)
    (hfiles : spec.sources.watchOn.files = none)
    (actions : List (PoolAction Effect.Reply TriggerTaskSources ℕ))
    (hundisturbed : ∀ a ∈ actions, Undisturbed spec sourceCloneFolder source commit a)
    (s : Pool Effect.Reply Shared)
    (hrun : run (Pool.step (tasksOf chrono spec sourceCloneFolder)) (start spec initial) actions =
      some s)
    (hsnapshots : Along (Pool.step (tasksOf chrono spec sourceCloneFolder))
      (SnapshotInTime chrono spec sourceCloneFolder source commit) (start spec initial) actions) :
    (s.shared.executionsFor source).length ≤ 1 := by
  let once : Pool Effect.Reply Shared → Prop := fun s => s.shared.spec = spec ∧
    s.AtMostOnce (tasksOf chrono spec sourceCloneFolder)
      (StaysAt spec sourceCloneFolder source commit) (ExecutesFor source)
      (fun s => (s.executionsFor source).length)
  have honce : once s := by
    apply invariant_of_along _ hrun ((along_of_forall_mem _ hundisturbed).and hsnapshots)
    · apply And.intro rfl
      exact start_atMostOnce
    · intro s a t hstep hs ha
      apply And.intro ((spec_of_step hstep).trans hs.1)
      apply Pool.AtMostOnce.step _ _ _ hstep (repliesMeet_of_undisturbed ha.1)
        (beginsInTime_of_snapshotInTime hchange hfiles hs.1 ha.2) hs.2
      · intro s oracle e
        exact executionsFor_handle_le s oracle e
      · intro s oracle e he
        exact congrArg List.length (executionsFor_handle_eq s oracle he)
      · intro s n t hrefresh
        exact congrArg List.length (executionsFor_refresh hrefresh)
  exact honce.2.1

/-! ## Tasks one after the other, and in parallel -/

/-- The program is a task at its beginning: it reads the trigger and goes on with
a random suffix. -/
def takesSnapshot : TriggerTask Unit → Bool
  | .call (.getTrigger _ _) k =>
      match k (some twoSources) with
      | .call (.randomString _) _ => true
      | _ => false
  | _ => false

/-- The snapshot of this step records the source at its commit, or there is only
one task and it has not acted. -/
def recordedOrAlone (s : Pool Effect.Reply Shared) :
    PoolAction Effect.Reply TriggerTaskSources ℕ → Bool
  | .perform thread _ =>
      !(s.threads[thread]?.any takesSnapshot) ||
      (({ twoSources with status := s.shared.cached } : Trigger).initialSources.get "a").any
        (fun entry => entry.commitHash = some "c1") ||
      ((s.shared.executionsFor "a").isEmpty && s.threads.length == 1)
  | .spawn _ | .env _ => true

theorem snapshotInTime_of_recordedOrAlone {s t : Pool Effect.Reply Shared}
    {a : PoolAction Effect.Reply TriggerTaskSources ℕ} (h : recordedOrAlone s a = true) :
    SnapshotInTime Rfc3339.standard twoSources "/tmp" "a" "c1" s a t := by
  rintro thread oracle taskSources rfl hthread -
  have hfirst : s.threads[thread]?.any takesSnapshot = true := by
    rw [hthread]
    rfl
  simp only [recordedOrAlone, hfirst, Bool.not_true, Bool.false_or, Bool.or_eq_true,
    Option.any_eq_true, decide_eq_true_eq, Bool.and_eq_true, List.isEmpty_iff, beq_iff_eq] at h
  rcases h with ⟨entry, hentry, hcommit⟩ | ⟨hnobody, hlength⟩
  · exact Or.inl ⟨entry, hentry, hcommit⟩
  · apply Or.inr
    apply And.intro hnobody
    intro other p hne hother
    have hlt := (List.getElem?_eq_some_iff.mp hother).1
    have hlt' := (List.getElem?_eq_some_iff.mp hthread).1
    omega

theorem undisturbed_obliging (thread : ℕ) :
    Undisturbed twoSources "/tmp" "a" "c1" (.perform thread (obliging twoSources)) := by
  apply And.intro (fun _ => rfl)
  apply And.intro (fun _ _ => rfl)
  intro e
  cases e with
  | getLatestCommit path reference => exact fun _ => Or.inr rfl
  | _ => trivial

/-- Steps of one task, and then the cache learns of its patch. -/
def stepsAndRefresh (thread steps version : ℕ) :
    List (PoolAction Effect.Reply TriggerTaskSources ℕ) :=
  List.replicate steps (.perform thread (obliging twoSources)) ++ [.env version]

theorem stepsAndRefresh_undisturbed (thread steps version : ℕ) :
    ∀ a ∈ stepsAndRefresh thread steps version, Undisturbed twoSources "/tmp" "a" "c1" a := by
  intro a ha
  rcases List.mem_append.mp ha with hstep | hrefresh
  · rw [List.eq_of_mem_replicate hstep]
    exact undisturbed_obliging thread
  · rw [List.mem_singleton.mp hrefresh]
    trivial

/-- Two tasks for one source, one after the other, with a cache that follows each
patch at once. -/
def taskAfterTask : List (PoolAction Effect.Reply TriggerTaskSources ℕ) :=
  [.spawn (.single "a")] ++ stepsAndRefresh 0 4 1 ++ stepsAndRefresh 0 12 2 ++
    stepsAndRefresh 0 4 3 ++ [.spawn (.single "a")] ++ stepsAndRefresh 1 4 4 ++
    stepsAndRefresh 1 8 5 ++ stepsAndRefresh 1 4 6

theorem taskAfterTask_isSome :
    (run (Pool.step (tasksOf Rfc3339.standard twoSources "/tmp")) (start twoSources none)
      taskAfterTask).isSome = true := by
  decide +kernel

theorem executed_at_most_once_taskAfterTask :
    ∃ s, run (Pool.step (tasksOf Rfc3339.standard twoSources "/tmp")) (start twoSources none)
        taskAfterTask = some s ∧
      s.shared.executionsFor "a" ≠ [] ∧ (s.shared.executionsFor "a").length ≤ 1 := by
  apply Exists.intro _
  apply And.intro (Option.some_get taskAfterTask_isSome).symm
  apply And.intro (by decide +kernel)
  apply executed_at_most_once Rfc3339.standard twoSources "/tmp" "a" "c1" none rfl rfl
    taskAfterTask _ _ (Option.some_get taskAfterTask_isSome).symm
  · have hsteps : Along (Pool.step (tasksOf Rfc3339.standard twoSources "/tmp"))
        (fun s a _ => recordedOrAlone s a = true) (start twoSources none) taskAfterTask := by
      decide +kernel
    exact hsteps.mono fun s a t h => snapshotInTime_of_recordedOrAlone h
  · have hspawn : ∀ a ∈ [PoolAction.spawn (TriggerTaskSources.single "a")],
        Undisturbed twoSources "/tmp" "a" "c1" a := by
      intro a ha
      rw [List.mem_singleton.mp ha]
      trivial
    have hsteps := stepsAndRefresh_undisturbed
    rw [taskAfterTask]
    simp only [List.forall_mem_append]
    exact ⟨⟨⟨⟨⟨⟨⟨hspawn, hsteps 0 4 1⟩, hsteps 0 12 2⟩, hsteps 0 4 3⟩, hspawn⟩, hsteps 1 4 4⟩,
      hsteps 1 8 5⟩, hsteps 1 4 6⟩

/-- Two tasks for one source, in step. -/
def taskBesideTask : List (PoolAction Effect.Reply TriggerTaskSources ℕ) :=
  [.spawn (.single "a"), .spawn (.single "a")] ++
    (List.replicate 20 [.perform 0 (obliging twoSources), .perform 1 (obliging twoSources)]).flatten

/-- Two requests for one source at one commit: both tasks take their snapshot
before either has acted, and both execute the action. -/
theorem executed_twice_in_parallel :
    (∀ a ∈ taskBesideTask, Undisturbed twoSources "/tmp" "a" "c1" a) ∧
    (run (Pool.step (tasksOf Rfc3339.standard twoSources "/tmp")) (start twoSources none)
        taskBesideTask).map (fun s => (s.finished, (s.shared.executionsFor "a").map
          fun acted => acted.call.sourceCommit)) =
      some (true, ["c1", "c1"]) := by
  apply And.intro
  · intro a ha
    rcases List.mem_append.mp ha with hspawn | hstep
    · rcases List.mem_pair.mp hspawn with rfl | rfl
      · trivial
      · trivial
    · obtain ⟨pair, hpair, ha⟩ := List.mem_flatten.mp hstep
      rw [List.eq_of_mem_replicate hpair] at ha
      rcases List.mem_pair.mp ha with rfl | rfl
      · exact undisturbed_obliging 0
      · exact undisturbed_obliging 1
  · decide +kernel

end Shared

end GitEventsRunner.Triggers
