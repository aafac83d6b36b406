/-
# Is the trigger running?

A run marks its trigger as running before it checks its sources and as idle
afterwards, and whoever looks at the status in between should see that.  But all
runs of a trigger share one state.  A run that is done takes it back although
others are not, and the record of an unchanged source repeats the state of the
version it was computed from, which may be older than the run itself.

Over all interleavings, with every patch accepted and a cache that may hold any
version: the state is visible all the time exactly if no patch of these two kinds is
sent at such a moment.
-/

import GitEventsRunner.Triggers.Records

namespace GitEventsRunner.Triggers

open GitEventsRunner.Lib
open TriggerTask

/-! ## The phases of a run -/

/-- A run is running from the answer to its first patch, which is the one that marks
the trigger, until it begins the update that takes the mark back. -/
inductive Phase
  | starting | running | finishing
  deriving DecidableEq, Repr

/-- The next patch takes the mark back. -/
def takesBack : TriggerTask Unit → Bool
  | .call (.patchStatus patch) _ => patch.update.state.any fun state => state ≠ .running
  | _ => false

/-- The phase after an effect, given the rest of the run.  An update begins with a
look at the cache. -/
def Phase.advance (phase : Phase) (e : Effect) (rest : TriggerTask Unit) : Phase :=
  match e with
  | .patchStatus patch =>
      match patch.update.state with
      | some .running => if phase = .starting then .running else phase
      | some _ => .finishing
      | none => phase
  | .getTrigger .. => if takesBack rest then .finishing else phase
  | _ => phase

/-- The runs of one trigger, each with its phase. -/
structure Observed where
  pool : Pool Effect.Reply Shared
  phases : ℕ → Phase

/-- Surroundings in which patches succeed and the cache holds the trigger. -/
def willing (spec : Trigger) (oracle : (e : Effect) → e.Reply) : (e : Effect) → e.Reply
  | .getTrigger _ _ => some spec
  | .patchStatus _ => true
  | e => oracle e

namespace Observed

/-- What the runs may do. -/
abbrev Action := PoolAction Effect.Reply TaskRequest ℕ

section Step

variable (chrono : Rfc3339.Codec) (spec : Trigger)

/-- The same action in willing surroundings. -/
def willingAction : Action → Action
  | .perform thread oracle => .perform thread (willing spec oracle)
  | a => a

/-- The phases after an action that led to a pool. -/
def phasesAfter (s : Observed) (a : Action) (pool : Pool Effect.Reply Shared) : ℕ → Phase :=
  match a with
  | .perform thread _ =>
      match s.pool.threads[thread]?, pool.threads[thread]? with
      | some (.call e _), some rest =>
          Function.update s.phases thread ((s.phases thread).advance e rest)
      | _, _ => s.phases
  | _ => s.phases

/-- One action of the runs of a trigger. -/
def step (s : Observed) (a : Action) : Option Observed :=
  (Pool.step (Shared.scheduler chrono spec id) s.pool (willingAction spec a)).map fun pool =>
    { pool := pool, phases := s.phasesAfter a pool }

/-- No run yet. -/
def start (initial : Option TriggerStatus) : Observed where
  pool := Shared.start spec initial
  phases := fun _ => .starting

end Step

/-- A run sends a patch. -/
def Sends (s : Observed) (a : Action) (thread : ℕ) (patch : StatusPatch) : Prop :=
  ∃ oracle k, a = .perform thread oracle ∧
    s.pool.threads[thread]? = some (.call (.patchStatus patch) k)

theorem Sends.unique {s : Observed} {a : Action} {thread thread' : ℕ} {patch patch' : StatusPatch}
    (h : s.Sends a thread patch) (h' : s.Sends a thread' patch') :
    thread' = thread ∧ patch' = patch := by
  obtain ⟨oracle, k, rfl, hthread⟩ := h
  obtain ⟨oracle', k', ha, hthread'⟩ := h'
  cases ha
  rw [hthread] at hthread'
  cases hthread'
  exact ⟨rfl, rfl⟩

/-- While some run is running, the server says so. -/
def Visible (s : Observed) : Prop :=
  (∃ run, s.phases run = .running) →
    s.pool.shared.server.map TriggerStatus.state = some .running

/-- A patch that another look at the status does not notice: it marks the trigger, or
takes the mark back while no other run is running, or repeats the mark. -/
def Harmless (s : Observed) (thread : ℕ) (patch : StatusPatch) : Prop :=
  match patch.update.state with
  | some .running => True
  | some _ => ∀ run, run ≠ thread → s.phases run ≠ .running
  | none => patch.cached.status.map TriggerStatus.state = some .running ∨
      ∀ run, s.phases run ≠ .running

/-- Every patch that is sent is harmless. -/
def SendsHarmless (s : Observed) (a : Action) (_ : Observed) : Prop :=
  ∀ thread patch, s.Sends a thread patch → s.Harmless thread patch

/-! ## Steps -/

section Steps

variable {chrono : Rfc3339.Codec} {spec : Trigger} {s t : Observed} {a : Action}

/-- What a patch does: it replaces the status, and the run that sent it moves on. -/
structure AfterPatch (chrono : Rfc3339.Codec) (s t : Observed) (thread : ℕ)
    (patch : StatusPatch) : Prop where
  server : t.pool.shared.server = some (patch.cached.newStatus chrono patch.update)
  phases : ∃ rest, t.phases =
    Function.update s.phases thread ((s.phases thread).advance (.patchStatus patch) rest)

/-- Without a patch the status stays, and no run starts to be running. -/
structure Quiet (s t : Observed) : Prop where
  server : t.pool.shared.server = s.pool.shared.server
  phases : ∀ run, t.phases run = .running → s.phases run = .running

/-- Only a patch moves a run to the phase in which it is running. -/
theorem advance_eq_running {phase : Phase} {e : Effect} {rest : TriggerTask Unit}
    (he : ∀ patch, e ≠ .patchStatus patch) (h : phase.advance e rest = .running) :
    phase = .running := by
  cases e with
  | patchStatus patch => exact absurd rfl (he patch)
  | getTrigger name ns =>
      simp only [Phase.advance] at h
      split at h
      · cases h
      · exact h
  | _ => exact h

/-- Only a patch changes the status on the server. -/
theorem server_handle {shared : Shared} {oracle : (e : Effect) → e.Reply} {e : Effect}
    (he : ∀ patch, e ≠ .patchStatus patch) :
    (shared.handle chrono oracle e).2.server = shared.server := by
  cases e with
  | patchStatus patch => exact absurd rfl (he patch)
  | execute call checked =>
      show (shared.afterExecute ⟨call, checked⟩ _).server = shared.server
      unfold Shared.afterExecute
      split <;> rfl
  | _ => rfl

/-- Only the run that performed the effect moves on. -/
theorem phasesAfter_perform {thread : ℕ} {e : Effect} {k : e.Reply → TriggerTask Unit}
    (hthread : s.pool.threads[thread]? = some (.call e k)) (oracle : (e : Effect) → e.Reply)
    {shared : Shared} {rest : TriggerTask Unit} :
    s.phasesAfter (.perform thread oracle) ⟨shared, s.pool.threads.set thread rest⟩ =
      Function.update s.phases thread ((s.phases thread).advance e rest) := by
  obtain ⟨hlt, -⟩ := List.getElem?_eq_some_iff.mp hthread
  simp only [phasesAfter, hthread, List.getElem?_set_self hlt]

/-- Everything a step does that can be seen in the status. -/
theorem step_cases (h : step chrono spec s a = some t) :
    (∃ thread patch, s.Sends a thread patch ∧ AfterPatch chrono s t thread patch) ∨
      (∀ thread patch, ¬ s.Sends a thread patch) ∧ Quiet s t := by
  obtain ⟨pool, hpool, rfl⟩ := Option.map_eq_some_iff.mp h
  cases a with
  | spawn request =>
      right
      cases Pool.Transition.of_step hpool
      refine ⟨?_, rfl, fun run hrun => hrun⟩
      rintro thread patch ⟨oracle, k, ha, -⟩
      cases ha
  | env n =>
      right
      cases Pool.Transition.of_step hpool with
      | env _ shared henv =>
          obtain ⟨version, -, rfl⟩ := Option.map_eq_some_iff.mp henv
          refine ⟨?_, rfl, fun run hrun => hrun⟩
          rintro thread patch ⟨oracle, k, ha, -⟩
          cases ha
  | perform thread oracle =>
      cases Pool.Transition.of_step hpool with
      | perform _ _ e k hthread =>
          by_cases hpatch : ∃ patch, e = .patchStatus patch
          · left
            obtain ⟨patch, rfl⟩ := hpatch
            exact ⟨thread, patch, ⟨oracle, k, rfl, hthread⟩, rfl, _,
              phasesAfter_perform hthread oracle⟩
          · right
            have he : ∀ patch, e ≠ .patchStatus patch := fun patch heq => hpatch ⟨patch, heq⟩
            refine ⟨?_, server_handle he, ?_⟩
            · rintro thread' patch ⟨oracle', k', ha, hthread'⟩
              cases ha
              rw [hthread] at hthread'
              cases hthread'
              exact he patch rfl
            · intro run hrun
              replace hrun := (congrFun (phasesAfter_perform hthread oracle) run).symm.trans hrun
              by_cases hrun' : run = thread
              · rw [hrun', Function.update_self] at hrun
                rw [hrun']
                exact advance_eq_running he hrun
              · rwa [Function.update_of_ne hrun'] at hrun

/-- The state a patch writes: the given one, else that of the version it was computed
from, else the default. -/
theorem state_newStatus (trigger : Trigger) (update : StatusUpdate) :
    (trigger.newStatus chrono update).state =
      update.state.getD ((trigger.status.map TriggerStatus.state).getD .idle) := by
  unfold Trigger.newStatus
  cases trigger.status <;> rfl

/-- A run that takes the mark back is over, so what matters are the others. -/
theorem visible_iff_of_takenBack {thread : ℕ} {state : TriggerState} (hstate : state ≠ .running)
    (hphases : t.phases = Function.update s.phases thread .finishing) :
    ((∃ run, t.phases run = .running) → some state = some TriggerState.running) ↔
      ∀ run, run ≠ thread → s.phases run ≠ .running := by
  have hwrong : some state ≠ some TriggerState.running := fun h => hstate (Option.some.inj h)
  constructor
  · intro h run hne hrun
    apply hwrong (h ⟨run, _⟩)
    rw [hphases, Function.update_of_ne hne]
    exact hrun
  · rintro h ⟨run, hrun⟩
    rw [hphases] at hrun
    by_cases hne : run = thread
    · rw [hne, Function.update_self] at hrun
      cases hrun
    · rw [Function.update_of_ne hne] at hrun
      exact absurd hrun (h run hne)

/-- After a patch the status is right exactly if the patch was harmless. -/
theorem AfterPatch.visible_iff {thread : ℕ} {patch : StatusPatch}
    (h : AfterPatch chrono s t thread patch) : t.Visible ↔ s.Harmless thread patch := by
  obtain ⟨rest, hphases⟩ := h.phases
  have hserver : t.pool.shared.server.map TriggerStatus.state = some
      (patch.update.state.getD ((patch.cached.status.map TriggerStatus.state).getD .idle)) := by
    rw [h.server, Option.map_some, state_newStatus]
  rw [Visible, hserver, Harmless]
  cases hstate : patch.update.state with
  | none =>
      have hsame : t.phases = s.phases := by
        rw [hphases]
        simp [Phase.advance, hstate]
      rw [hsame, Option.getD_none]
      have hcached : some ((patch.cached.status.map TriggerStatus.state).getD .idle) =
          some TriggerState.running ↔
          patch.cached.status.map TriggerStatus.state = some .running := by
        cases patch.cached.status.map TriggerStatus.state with
        | none => simp
        | some state => simp
      rw [hcached, ← not_exists, Classical.or_iff_not_imp_right, Classical.not_not]
  | some state =>
      rw [Option.getD_some]
      cases state with
      | running => exact iff_of_true (fun _ => rfl) trivial
      | idle =>
          apply visible_iff_of_takenBack (by decide)
          rw [hphases, Phase.advance, hstate]
      | wrongConfig =>
          apply visible_iff_of_takenBack (by decide)
          rw [hphases, Phase.advance, hstate]

/-- One step keeps the status right exactly if its patch, if it sends one, is
harmless. -/
theorem visible_iff_sendsHarmless (h : step chrono spec s a = some t) (hs : s.Visible) :
    t.Visible ↔ SendsHarmless s a t := by
  rcases step_cases h with ⟨thread, patch, hsends, hafter⟩ | ⟨hnone, hquiet⟩
  · rw [hafter.visible_iff]
    constructor
    · intro hharmless thread' patch' hsends'
      obtain ⟨rfl, rfl⟩ := hsends.unique hsends'
      exact hharmless
    · intro hall
      exact hall thread patch hsends
  · apply iff_of_true
    · rintro ⟨run, hrun⟩
      rw [hquiet.server]
      exact hs ⟨run, hquiet.phases run hrun⟩
    · intro thread patch hsends
      exact absurd hsends (hnone thread patch)

end Steps

/-- In every interleaving of runs of a trigger, with any lag of the cache: every state
reached in which some run is running says so on the server, exactly if every patch that
is sent is harmless. -/
theorem visible_iff_harmless (chrono : Rfc3339.Codec) (spec : Trigger)
    (initial : Option TriggerStatus) (actions : List Action) :
    Along (step chrono spec) (fun _ _ t => t.Visible) (start spec initial) actions ↔
      Along (step chrono spec) SendsHarmless (start spec initial) actions := by
  apply along_iff_of_invariant Visible
  · intro s a t hstep hs
    exact visible_iff_sendsHarmless hstep hs
  · intro s a t hstep hs hharmless
    exact (visible_iff_sendsHarmless hstep hs).mpr hharmless
  · rintro ⟨run, hrun⟩
    cases hrun

/-- Two webhooks for the same source: both runs begin, and the first one goes on to its
end. -/
def parallelRuns : List Action :=
  .spawn ⟨.single "a", "/tmp"⟩ :: .spawn ⟨.single "a", "/tmp"⟩ ::
    (List.replicate 4 (.perform 0 (obliging Shared.twoSources)) ++
      List.replicate 4 (.perform 1 (obliging Shared.twoSources)) ++
      List.replicate 16 (.perform 0 (obliging Shared.twoSources)))

/-- A run of twenty effects: it is running after the fourth one, which marks the trigger,
and until it looks at the cache for its last patch. -/
example : ([3, 4, 18, 19].map fun n =>
    (run (step Rfc3339.standard Shared.twoSources) (start Shared.twoSources none)
      (.spawn ⟨.single "a", "/tmp"⟩ ::
        List.replicate n (.perform 0 (obliging Shared.twoSources)))).map fun s => s.phases 0) =
    [some .starting, some .running, some .running, some .finishing] := by
  decide +kernel

/-- The first run takes the mark back while the second one is running. -/
theorem not_visible_parallelRuns :
    ∃ s, run (step Rfc3339.standard Shared.twoSources) (start Shared.twoSources none)
      parallelRuns = some s ∧ ¬ s.Visible := by
  have hend : (run (step Rfc3339.standard Shared.twoSources) (start Shared.twoSources none)
      parallelRuns).map (fun s => (s.phases 1, s.pool.shared.server.map TriggerStatus.state)) =
      some (.running, some .idle) := by
    decide +kernel
  obtain ⟨s, hrun, hs⟩ := Option.map_eq_some_iff.mp hend
  obtain ⟨hphase, hstate⟩ := Prod.mk.inj hs
  refine ⟨s, hrun, fun hvisible => ?_⟩
  rw [hvisible ⟨1, hphase⟩] at hstate
  cases hstate

end Observed

end GitEventsRunner.Triggers
