/-
# Records of parallel trigger tasks

Any number of tasks of one trigger run at the same time: a schedule, repeated
webhooks, several replicas.  Each updates the status by reading the trigger from
a cache that lags behind, and sending the whole new status to the API server.

Two questions are settled over all interleavings.  What the status records was
acted upon: no version of the status names a watched value for which no action
was executed.  And a record may be lost: the map a patch was computed from
replaces the map on the server, so every record stays exactly if no patch is
computed from a version that misses one.
-/

import GitEventsRunner.Triggers.Task
import Mathlib.Order.CompletePartialOrder

namespace GitEventsRunner.Triggers

open GitEventsRunner.Lib
open TriggerTask

/-- An execution of the action that returned `Ok`, with the state of the source
that made the task act. -/
structure Acted where
  call : ExecuteCall
  checked : CheckedSourceState

/-- The state the tasks of one trigger share: its spec, the status on the API
server, the version the cache holds, and all versions so far.  `executed` and
`records` are history: the successful executions, and the last accepted record
of each source. -/
structure Shared where
  spec : Trigger
  server : Option TriggerStatus
  cached : Option TriggerStatus
  versions : List (Option TriggerStatus)
  executed : List Acted
  records : HashMap String CheckedSourceState

/-- A task as its creator asks for it. -/
structure TaskRequest where
  taskSources : TriggerTaskSources
  sourceCloneFolder : String

/-- The sources a status records. -/
def recordedSources (status : Option TriggerStatus) : HashMap String CheckedSourceState :=
  (status.getD {}).checkedSources

namespace Shared

variable (chrono : Rfc3339.Codec)

/-- An execution is over; it counts if it returned `Ok`. -/
def afterExecute (s : Shared) (acted : Acted) (ok : Bool) : Shared :=
  if ok then { s with executed := acted :: s.executed } else s

/-- A patch was sent; if the server accepts it, the body replaces the status. -/
def afterPatch (s : Shared) (patch : StatusPatch) (ok : Bool) : Shared :=
  if ok then
    let status := some (patch.cached.newStatus chrono patch.update)
    { s with
      server := status
      versions := s.versions ++ [status]
      records := s.records.extend (patch.update.checkedSources.getD ∅) }
  else s

/-- The meaning of the effects of trigger tasks.  The cache, the queue and the
server may refuse; what the cache answers is the version it holds. -/
def handle (s : Shared) (oracle : (e : Effect) → e.Reply) : (e : Effect) → e.Reply × Shared
  | .getTrigger name ns =>
      let found : Option Trigger := oracle (.getTrigger name ns)
      (found.map fun _ => { s.spec with status := s.cached }, s)
  | .execute call checked =>
      let ok : Bool := oracle (.execute call checked)
      (ok, s.afterExecute ⟨call, checked⟩ ok)
  | .patchStatus patch =>
      let ok : Bool := oracle (.patchStatus patch)
      (ok, s.afterPatch chrono patch ok)
  | e => (oracle e, s)

/-- The cache moves to version `n`. -/
def refresh (s : Shared) (n : ℕ) : Option Shared :=
  s.versions[n]?.map fun version => { s with cached := version }

/-- Tasks of the trigger `spec`, requested by `requests`. -/
def scheduler {ι : Type} (spec : Trigger) (requests : ι → TaskRequest) :
    Scheduler Effect.Reply Shared ι ℕ where
  task i := spec.createTriggerTask chrono (requests i).taskSources (requests i).sourceCloneFolder
  handle := handle chrono
  env := refresh

/-- No task yet, and a cache that knows the status. -/
def start (spec : Trigger) (initial : Option TriggerStatus) : Pool Effect.Reply Shared where
  shared :=
    { spec := spec, server := initial, cached := initial, versions := [initial],
      executed := [], records := ∅ }
  threads := []

end Shared

/-! ## What a task knows -/

section Knowledge

variable (spec : Trigger) (initial : Option TriggerStatus)

/-- The watched value of an entry was there from the start, or among the
executions `w` is one for the source with that value, called with the commit it
was decided on. -/
def ActedOn (w : Set Acted) (source : String) (entry : CheckedSourceState) : Prop :=
  (∃ old, (recordedSources initial).get source = some old ∧
    old.watched spec.sources.watchOn.files.isSome =
      entry.watched spec.sources.watchOn.files.isSome) ∨
  ∃ acted ∈ w, acted.call.sourceName = source ∧
    acted.checked.commitHash = some acted.call.sourceCommit ∧
    acted.checked.watched spec.sources.watchOn.files.isSome =
      entry.watched spec.sources.watchOn.files.isSome

/-- Every entry of a map was acted on. -/
def AllActedOn (w : Set Acted) (sources : HashMap String CheckedSourceState) : Prop :=
  ∀ source entry, sources.get source = some entry → ActedOn spec initial w source entry

variable {spec initial}

theorem ActedOn.mono {w v : Set Acted} {source : String} {entry : CheckedSourceState}
    (h : ActedOn spec initial w source entry) (hle : w ≤ v) :
    ActedOn spec initial v source entry := by
  rcases h with hold | ⟨acted, hmem, hacted⟩
  · exact Or.inl hold
  · exact Or.inr ⟨acted, hle hmem, hacted⟩

/-- Only the watched value of an entry matters. -/
theorem ActedOn.congr {w : Set Acted} {source : String} {entry entry' : CheckedSourceState}
    (h : ActedOn spec initial w source entry)
    (hsame : entry.watched spec.sources.watchOn.files.isSome =
      entry'.watched spec.sources.watchOn.files.isSome) :
    ActedOn spec initial w source entry' := by
  unfold ActedOn at h ⊢
  rwa [← hsame]

theorem AllActedOn.mono {w v : Set Acted} {sources : HashMap String CheckedSourceState}
    (h : AllActedOn spec initial w sources) (hle : w ≤ v) : AllActedOn spec initial v sources :=
  fun source entry hget => (h source entry hget).mono hle

theorem allActedOn_single {w : Set Acted} {source : String} {entry : CheckedSourceState}
    (h : ActedOn spec initial w source entry) :
    AllActedOn spec initial w ((∅ : HashMap _ _).insert source entry) := by
  intro source' entry' hget
  rw [HashMap.get_insert] at hget
  split at hget
  · obtain rfl := Option.some.inj hget
    have hsame : source' = source := ‹_›
    rw [hsame]
    exact h
  · simp at hget

end Knowledge

/-- The protocol of the tasks of `spec`, whose knowledge is the executions so
far: a trigger from the cache has the spec and records only what was acted upon,
and so must every patch, which moreover records allowed sources only. -/
def protocol (spec : Trigger) (initial : Option TriggerStatus) (allowed : String → Prop) :
    Prog.Protocol Effect.Reply (Set Acted) where
  Pre
    | .patchStatus patch, w =>
        patch.cached.sources = spec.sources ∧
        AllActedOn spec initial w patch.cached.checkedSources ∧
        AllActedOn spec initial w (patch.update.checkedSources.getD ∅) ∧
        ∀ source, ((patch.update.checkedSources.getD ∅).get source).isSome → allowed source
    | _, _ => True
  Post
    | .getTrigger _ _, reply, w => ∀ trigger, reply = some trigger →
        trigger.sources = spec.sources ∧
        AllActedOn spec initial w trigger.checkedSources
    | .execute call checked, reply, w => reply = true → ⟨call, checked⟩ ∈ w
    | _, _, _ => True

section Safety

variable {chrono : Rfc3339.Codec} {spec : Trigger} {initial : Option TriggerStatus}
  {allowed : String → Prop} {w : Set Acted}

/-- A harmless question and what follows it. -/
theorem safe_ask {α : Type} {e : Effect} {f : e.Reply → TriggerTask α}
    {Q : α → Set Acted → Prop} (hpre : ∀ v, (protocol spec initial allowed).Pre e v)
    (hf : ∀ reply v, w ≤ v → (f reply).Safe (protocol spec initial allowed) Q v) :
    (Prog.perform e >>= f).Safe (protocol spec initial allowed) Q w := by
  apply Prog.safe_bind (Prog.safe_perform fun v _ => hpre v)
  intro reply v hv _
  exact hf reply v hv

theorem getTrigger_safe (name : String) (ns : Option String) :
    (getTrigger name ns).Safe (protocol spec initial allowed) (fun reply v => ∀ trigger,
      reply = some trigger → trigger.sources = spec.sources ∧
        AllActedOn spec initial v trigger.checkedSources) w :=
  Prog.safe_perform fun _ _ => trivial

/-- A status update is safe if what it records is allowed and was acted upon. -/
theorem updateTriggerStatus_safe (trigger : Trigger) (update : StatusUpdate)
    (hacted : AllActedOn spec initial w (update.checkedSources.getD ∅))
    (hallowed : ∀ source, ((update.checkedSources.getD ∅).get source).isSome → allowed source) :
    (trigger.updateTriggerStatus update).Safe (protocol spec initial allowed)
      (fun _ _ => True) w := by
  apply Prog.safe_bind (getTrigger_safe trigger.name (some trigger.ns))
  intro reply v hv hfound
  cases reply with
  | none => trivial
  | some cached =>
      obtain ⟨hsources, hcached⟩ := hfound cached rfl
      refine (Prog.safe_perform fun u hu => ?_).conseq fun _ _ _ _ => trivial
      exact ⟨hsources, hcached.mono hu, hacted.mono (hv.trans hu), hallowed⟩

/-- A successful action was executed for the source with the state it was
decided on. -/
theorem runAction_safe (run : TaskRun) {source commit : String} {checked : CheckedSourceState}
    (hcommit : checked.commitHash = some commit) :
    (run.runAction source commit checked).Safe (protocol spec initial allowed)
      (fun ok v => ok = true → ActedOn spec initial v source checked) w := by
  apply Prog.safe_bind (Prog.safe_perform fun _ _ => trivial)
  intro found v hv _
  cases found with
  | false => exact fun h => Bool.noConfusion h
  | true =>
      refine (Prog.safe_perform fun _ _ => trivial).conseq fun ok u hu hok h => ?_
      exact Or.inr ⟨_, hok h, rfl, hcommit, rfl⟩

/-- A single record is safe if its source is allowed and was acted upon. -/
theorem updateTriggerStatus_record_safe (trigger : Trigger) {source : String}
    {entry : CheckedSourceState} (state : Option TriggerState) (lastRun : Option SystemTime)
    (hacted : ActedOn spec initial w source entry)
    (hallowed : allowed source) :
    (trigger.updateTriggerStatus
      { state := state
        checkedSources := some ((∅ : HashMap _ _).insert source entry)
        lastRun := lastRun }).Safe (protocol spec initial allowed) (fun _ _ => True) w := by
  apply updateTriggerStatus_safe trigger _ (allActedOn_single hacted)
  intro source' hsome
  by_cases hsame : source' = source
  · rw [hsame]
    exact hallowed
  · simp [HashMap.get_insert_of_ne _ _ hsame] at hsome

/-- An update of state and time alone is always safe. -/
theorem updateTriggerStatus_state_safe (trigger : Trigger) (state : Option TriggerState)
    (lastRun : Option SystemTime) :
    (trigger.updateTriggerStatus { state := state, lastRun := lastRun }).Safe
      (protocol spec initial allowed) (fun _ _ => True) w := by
  apply updateTriggerStatus_safe
  · intro source entry hget
    simp at hget
  · intro source hsome
    simp at hsome

/-- What a run records about a source was acted upon: by this run if the source
looked changed, and before the version this run read if it did not. -/
theorem actAndRecord_safe (run : TaskRun) {source commit : String}
    {newSourceState : CheckedSourceState} (hsources : run.trigger.sources = spec.sources)
    (hchecked : AllActedOn spec initial w run.checkedSources)
    (hallowed : allowed source) (hcommit : newSourceState.commitHash = some commit) :
    (run.actAndRecord chrono source commit newSourceState).Safe (protocol spec initial allowed)
      (fun _ _ => True) w := by
  unfold TaskRun.actAndRecord
  rw [hsources]
  extract_lets watchOn current
  split
  · apply Prog.safe_bind (runAction_safe run hcommit)
    intro ok v hv hacted
    cases ok with
    | false => trivial
    | true =>
        have hdone := hacted rfl
        refine safe_ask (fun _ => trivial) fun changed u hu => ?_
        refine safe_ask (fun _ => trivial) fun lastRun u' hu' => ?_
        refine Prog.safe_bind (updateTriggerStatus_record_safe run.trigger _ _ ?_ hallowed) ?_
        · exact hdone.mono (hu.trans hu')
        · intro _ _ _ _
          trivial
  · have hunchanged : newSourceState.isEqual current watchOn.files.isSome = true ∧
        watchOn.onChangeOnly = true := by
      simp_all
    have hequal : newSourceState.isEqual (run.checkedSources.get source)
        spec.sources.watchOn.files.isSome = true := hunchanged.1
    obtain ⟨recorded, hrecorded, hwatched⟩ :=
      CheckedSourceState.exists_of_isEqual hequal (by rw [hcommit]; rfl)
    refine Prog.safe_bind (updateTriggerStatus_record_safe run.trigger _ _ ?_ hallowed) ?_
    · exact (hchecked source recorded hrecorded).congr hwatched.symm
    · intro _ _ _ _
      trivial

theorem fileHash_safe (run : TaskRun) (source : String) :
    (run.fileHash source).Safe (protocol spec initial allowed) (fun _ _ => True) w := by
  unfold TaskRun.fileHash
  split
  · exact (Prog.safe_perform fun _ _ => trivial).conseq fun _ _ _ _ => trivial
  · trivial

theorem fetchAndCheck_safe (run : TaskRun) {source : String}
    (hsources : run.trigger.sources = spec.sources)
    (hchecked : AllActedOn spec initial w run.checkedSources)
    (hallowed : allowed source) :
    (run.fetchAndCheck chrono source).Safe (protocol spec initial allowed) (fun _ _ => True) w := by
  unfold TaskRun.fetchAndCheck
  refine safe_ask (fun _ => trivial) fun fetched v hv => ?_
  cases fetched with
  | false => trivial
  | true =>
      refine safe_ask (fun _ => trivial) fun latest u hu => ?_
      cases latest with
      | none => trivial
      | some commit =>
          apply Prog.safe_bind (fileHash_safe run source)
          intro fileHash u' hu' _
          have hlater : w ≤ u' := hv.trans (hu.trans hu')
          apply Prog.safe_bind
            (actAndRecord_safe run hsources (hchecked.mono hlater) hallowed rfl)
          intro _ x _ _
          refine safe_ask (fun _ => trivial) fun _ _ _ => ?_
          trivial

theorem checkSource_safe (run : TaskRun) {source : String}
    (hsources : run.trigger.sources = spec.sources)
    (hchecked : AllActedOn spec initial w run.checkedSources)
    (hallowed : allowed source) :
    (run.checkSource chrono source).Safe (protocol spec initial allowed) (fun _ _ => True) w := by
  unfold TaskRun.checkSource
  refine safe_ask (fun _ => trivial) fun _ v hv => ?_
  refine safe_ask (fun _ => trivial) fun made u hu => ?_
  cases made with
  | false => trivial
  | true =>
      refine safe_ask (fun _ => trivial) fun found x hx => ?_
      cases found with
      | false => trivial
      | true =>
          exact fetchAndCheck_safe run hsources (hchecked.mono (hv.trans (hu.trans hx))) hallowed

/-- Every task keeps the protocol, whatever the others do. -/
theorem createTriggerTask_safe (taskSources : TriggerTaskSources) (sourceCloneFolder : String)
    (hallowed : ∀ source ∈ spec.sourcesToCheck taskSources, allowed source) :
    (spec.createTriggerTask chrono taskSources sourceCloneFolder).Safe
      (protocol spec initial allowed) (fun _ _ => True) w := by
  unfold Trigger.createTriggerTask
  apply Prog.safe_bind (getTrigger_safe spec.name (some spec.ns))
  intro reply v hv hfound
  cases reply with
  | none => trivial
  | some trigger =>
      obtain ⟨hsources, hcached⟩ := hfound trigger rfl
      have hinitial : AllActedOn spec initial v trigger.initialSources := by
        intro source entry hget
        rw [Trigger.initialSources, HashMap.get_retain] at hget
        split at hget
        · exact hcached source entry hget
        · cases hget
      have hcheck : trigger.sourcesToCheck taskSources = spec.sourcesToCheck taskSources := by
        unfold Trigger.sourcesToCheck
        rw [hsources]
      refine safe_ask (fun _ => trivial) fun suffix u hu => ?_
      unfold Trigger.runTask
      apply Prog.safe_bind (updateTriggerStatus_state_safe trigger _ _)
      intro _ u' hu' _
      refine safe_ask (fun _ => trivial) fun order x hx => ?_
      have hloop : ∀ source ∈ order.val, allowed source := by
        intro source hmem
        apply hallowed source
        rw [← hcheck]
        exact (order.property.2 source).mp hmem
      have hlater : v ≤ x := hu.trans (hu'.trans hx)
      refine Prog.safe_bind (Prog.safe_forEach fun source hmem y hy => ?_) ?_
      · exact checkSource_safe _ hsources (hinitial.mono (hlater.trans hy)) (hloop source hmem)
      · intro _ y hy _
        refine safe_ask (fun _ => trivial) fun lastRun z hz => ?_
        apply Prog.safe_bind (updateTriggerStatus_state_safe trigger _ _)
        intro _ _ _ _
        trivial

end Safety

/-! ## Recorded implies acted -/

namespace Shared

/-- The executions so far, as knowledge of the tasks. -/
def world (s : Shared) : Set Acted := {acted | acted ∈ s.executed}

/-- Every version of the status, the one on the server and the one in the cache
record only what was acted upon, and the recorded sources are allowed. -/
structure Truthful (spec : Trigger) (initial : Option TriggerStatus) (allowed : String → Prop)
    (s : Shared) : Prop where
  fixed : s.spec = spec
  versions : ∀ status ∈ s.server :: s.cached :: s.versions,
    AllActedOn spec initial s.world (recordedSources status)
  records : ∀ source, (s.records.get source).isSome → allowed source

variable {chrono : Rfc3339.Codec} {spec : Trigger} {initial : Option TriggerStatus}
  {allowed : String → Prop}

/-- More executions take nothing away from the truth. -/
theorem Truthful.afterExecute {s : Shared} (h : s.Truthful spec initial allowed) (acted : Acted)
    (ok : Bool) :
    (s.afterExecute acted ok).Truthful spec initial allowed ∧
      s.world ≤ (s.afterExecute acted ok).world ∧
      (ok = true → acted ∈ (s.afterExecute acted ok).world) := by
  cases ok with
  | false => exact ⟨h, le_refl _, fun hfalse => Bool.noConfusion hfalse⟩
  | true =>
      have hle : s.world ≤ (s.afterExecute acted true).world :=
        fun _ hmem => List.mem_cons_of_mem _ hmem
      refine ⟨⟨h.fixed, ?_, h.records⟩, hle, fun _ => List.mem_cons_self⟩
      intro status hmem
      exact (h.versions status hmem).mono hle

/-- A patch that keeps the protocol writes a truthful status. -/
theorem Truthful.afterPatch {s : Shared} (h : s.Truthful spec initial allowed) {patch : StatusPatch}
    (hpre : (protocol spec initial allowed).Pre (.patchStatus patch) s.world) (ok : Bool) :
    (s.afterPatch chrono patch ok).Truthful spec initial allowed ∧
      s.world ≤ (s.afterPatch chrono patch ok).world := by
  obtain ⟨hsources, hcached, hupdate, hallowed⟩ := hpre
  have hnew : AllActedOn spec initial s.world
      (patch.cached.newStatus chrono patch.update).checkedSources := by
    intro source entry hget
    rcases Trigger.get_newStatus_eq_some chrono hget with hgiven | hold
    · exact hupdate source entry hgiven
    · exact hcached source entry hold
  cases ok with
  | false => exact ⟨h, le_refl _⟩
  | true =>
      refine ⟨⟨h.fixed, ?_, ?_⟩, le_refl _⟩
      · intro status hmem
        have hcases : status = some (patch.cached.newStatus chrono patch.update) ∨
            status ∈ s.server :: s.cached :: s.versions := by
          simp only [Shared.afterPatch, if_true, List.mem_cons, List.mem_append,
            List.not_mem_nil, or_false] at hmem ⊢
          tauto
        rcases hcases with rfl | hold
        · exact hnew
        · exact h.versions status hold
      · intro source hsome
        simp only [Shared.afterPatch, if_true, HashMap.get_extend, Option.isSome_or,
          Bool.or_eq_true] at hsome
        rcases hsome with hgiven | hold
        · exact hallowed source hgiven
        · exact h.records source hold

/-- Serving one effect keeps the truth and honours the protocol. -/
theorem Truthful.handle {s : Shared} (h : s.Truthful spec initial allowed)
    (oracle : (e : Effect) → e.Reply) (e : Effect)
    (hpre : (protocol spec initial allowed).Pre e s.world) :
    (s.handle chrono oracle e).2.Truthful spec initial allowed ∧
      s.world ≤ (s.handle chrono oracle e).2.world ∧
      (protocol spec initial allowed).Post e (s.handle chrono oracle e).1
        (s.handle chrono oracle e).2.world := by
  cases e with
  | getTrigger name ns =>
      refine ⟨h, le_refl _, ?_⟩
      intro trigger hreply
      obtain ⟨_, -, rfl⟩ := Option.map_eq_some_iff.mp hreply
      refine ⟨by rw [h.fixed], ?_⟩
      exact h.versions s.cached (List.mem_cons_of_mem _ List.mem_cons_self)
  | execute call checked => exact h.afterExecute ⟨call, checked⟩ _
  | patchStatus patch =>
      obtain ⟨htruthful, hle⟩ := h.afterPatch hpre (oracle (.patchStatus patch))
      exact ⟨htruthful, hle, trivial⟩
  | _ => exact ⟨h, le_refl _, trivial⟩

theorem Truthful.refresh {s t : Shared} {n : ℕ} (hrefresh : s.refresh n = some t)
    (h : s.Truthful spec initial allowed) :
    t.Truthful spec initial allowed ∧ s.world ≤ t.world := by
  obtain ⟨version, hversion, rfl⟩ := Option.map_eq_some_iff.mp hrefresh
  have hknown : version ∈ s.versions := List.mem_of_getElem? hversion
  refine ⟨⟨h.fixed, ?_, h.records⟩, le_refl _⟩
  intro status hmem
  apply h.versions status
  simp only [List.mem_cons] at hmem ⊢
  rcases hmem with hserver | rfl | hold
  · exact Or.inl hserver
  · exact Or.inr (Or.inr hknown)
  · exact Or.inr (Or.inr hold)

/-- The pools in which everybody keeps to the truth. -/
abbrev SafePool (spec : Trigger) (initial : Option TriggerStatus) (allowed : String → Prop)
    (s : Pool Effect.Reply Shared) : Prop :=
  s.Safe (protocol spec initial allowed) (Truthful spec initial allowed) world

theorem start_safe : SafePool spec initial allowed (start spec initial) := by
  refine ⟨⟨rfl, ?_, ?_⟩, ?_⟩
  · intro status hmem source entry hget
    have hinitial : status = initial := by simpa [start] using hmem
    rw [hinitial] at hget
    exact Or.inl ⟨entry, hget, rfl⟩
  · intro source hsome
    simp [start] at hsome
  · intro p hp
    simp [start] at hp

theorem SafePool.step {ι : Type} {requests : ι → TaskRequest}
    (hallowed : ∀ i, ∀ source ∈ spec.sourcesToCheck (requests i).taskSources, allowed source)
    {s t : Pool Effect.Reply Shared} {a : PoolAction Effect.Reply ι ℕ}
    (hstep : Pool.step (scheduler chrono spec requests) s a = some t)
    (h : SafePool spec initial allowed s) : SafePool spec initial allowed t := by
  refine Pool.Safe.step ?_ ?_ ?_ hstep h
  · intro s oracle e hs hpre
    exact hs.handle oracle e hpre
  · intro s n t hrefresh hs
    exact hs.refresh hrefresh
  · intro i w
    exact createTriggerTask_safe _ _ (hallowed i)

/-- Recorded implies acted.  In every interleaving of any tasks of the trigger,
with any lag of the cache and any outcome of their steps: whenever a version of
the status records a source, the action was executed for that source with the
recorded watched value and the execution returned `Ok`. -/
theorem recorded_implies_acted (chrono : Rfc3339.Codec) (spec : Trigger)
    (initial : Option TriggerStatus) (hempty : recordedSources initial = ∅)
    (actions : List (PoolAction Effect.Reply TaskRequest ℕ)) (s : Pool Effect.Reply Shared)
    (hrun : run (Pool.step (scheduler chrono spec id)) (start spec initial) actions = some s)
    (status : Option TriggerStatus)
    (hstatus : status ∈ s.shared.server :: s.shared.cached :: s.shared.versions)
    (source : String) (entry : CheckedSourceState)
    (hentry : (recordedSources status).get source = some entry) :
    ∃ acted ∈ s.shared.executed, acted.call.sourceName = source ∧
      acted.checked.commitHash = some acted.call.sourceCommit ∧
      acted.checked.watched spec.sources.watchOn.files.isSome =
        entry.watched spec.sources.watchOn.files.isSome := by
  have hsafe : SafePool spec initial (fun _ => True) s :=
    invariant_of_run (fun _ _ _ hstep h => h.step (fun _ _ _ => trivial) hstep) hrun
      start_safe
  rcases hsafe.shared.versions status hstatus source entry hentry with ⟨old, hold, -⟩ | hacted
  · rw [hempty] at hold
    simp at hold
  · exact hacted

/-- A trigger that watches two sources. -/
def twoSources : Trigger where
  kind := .webhookTrigger
  ns := "default"
  name := "trigger"
  sources := { names := ["a", "b"] }
  action := { name := "action" }
  ns_plain := Trigger.default_ns_plain

/-- A run for all sources, up to the first record. -/
def firstRecord : List (PoolAction Effect.Reply TaskRequest ℕ) :=
  .spawn ⟨.all, "/tmp"⟩ :: List.replicate 16 (.perform 0 (obliging twoSources))

theorem firstRecord_isSome :
    (run (Pool.step (scheduler Rfc3339.standard twoSources id)) (start twoSources none)
      firstRecord).isSome = true := by
  decide +kernel

theorem recorded_implies_acted_firstRecord :
    ∃ s, run (Pool.step (scheduler Rfc3339.standard twoSources id)) (start twoSources none)
        firstRecord = some s ∧
      ∃ acted ∈ s.shared.executed, acted.call.sourceName = "a" ∧
        acted.checked.commitHash = some acted.call.sourceCommit ∧
        acted.checked.commitHash = some "c1" := by
  refine ⟨_, (Option.some_get firstRecord_isSome).symm, ?_⟩
  exact recorded_implies_acted Rfc3339.standard twoSources none rfl firstRecord _
    (Option.some_get firstRecord_isSome).symm _ List.mem_cons_self "a"
    { commitHash := some "c1", changed := some "1970-01-01T00:00:00Z" } (by decide +kernel)

/-! ## No lost record, if no patch comes from an old map -/

/-- The server's map has the last record of every source. -/
def Kept (s : Shared) : Prop :=
  ∀ source entry, s.records.get source = some entry →
    (recordedSources s.server).get source = some entry

/-- The version a patch was computed from agrees with the server on every source
that was recorded so far and is not recorded by this patch. -/
def Agrees (s : Shared) (patch : StatusPatch) : Prop :=
  ∀ source, (patch.update.checkedSources.getD ∅).get source = none →
    (s.records.get source).isSome →
      patch.cached.checkedSources.get source = (recordedSources s.server).get source

/-- An accepted patch keeps all records exactly if its version agrees. -/
theorem kept_afterPatch_iff (chrono : Rfc3339.Codec) {s : Shared} {patch : StatusPatch}
    (hpre : (protocol spec initial (· ∈ spec.sources.names)).Pre (.patchStatus patch) s.world)
    (h : s.Truthful spec initial (· ∈ spec.sources.names)) (hkept : s.Kept) :
    (s.afterPatch chrono patch true).Kept ↔ s.Agrees patch := by
  obtain ⟨hsources, -, -, hallowed⟩ := hpre
  have hget : ∀ source ∈ spec.sources.names,
      (recordedSources (s.afterPatch chrono patch true).server).get source =
        ((patch.update.checkedSources.getD ∅).get source).or
          (patch.cached.checkedSources.get source) := by
    intro source hmem
    exact Trigger.get_newStatus_checkedSources chrono patch.cached patch.update
      (by rw [hsources]; exact hmem)
  have hrecords : ∀ source, (s.afterPatch chrono patch true).records.get source =
      ((patch.update.checkedSources.getD ∅).get source).or (s.records.get source) := by
    intro source
    exact HashMap.get_extend _ _ source
  constructor
  · intro hnew source hnone hsome
    obtain ⟨entry, hentry⟩ := Option.isSome_iff_exists.mp hsome
    have hafter : (s.afterPatch chrono patch true).records.get source = some entry := by
      rw [hrecords, hnone, Option.none_or, hentry]
    have hserver := hnew source entry hafter
    rw [hget source (h.records source hsome), hnone, Option.none_or] at hserver
    rw [hserver, hkept source entry hentry]
  · intro hagrees source entry hentry
    rw [hrecords] at hentry
    cases hgiven : (patch.update.checkedSources.getD ∅).get source with
    | some given =>
        rw [hget source (hallowed source (by rw [hgiven]; rfl)), hgiven]
        rwa [hgiven] at hentry
    | none =>
        rw [hgiven, Option.none_or] at hentry
        have hsome : (s.records.get source).isSome = true := by rw [hentry]; rfl
        rw [hget source (h.records source hsome), hgiven, Option.none_or,
          hagrees source hgiven hsome]
        exact hkept source entry hentry

/-- Requests as the callers make them: all sources, or one that is in the spec. -/
abbrev SpecRequest (spec : Trigger) :=
  { request : TaskRequest //
    ∀ source ∈ spec.sourcesToCheck request.taskSources, source ∈ spec.sources.names }

variable {ι : Type}

/-- After the step the server has the last record of every source. -/
def KeepsRecords (_ : Pool Effect.Reply Shared) (_ : PoolAction Effect.Reply ι ℕ)
    (t : Pool Effect.Reply Shared) : Prop :=
  t.shared.Kept

/-- If the step is an accepted patch, its version agrees with the server. -/
def UpToDate (s : Pool Effect.Reply Shared) (a : PoolAction Effect.Reply ι ℕ)
    (_ : Pool Effect.Reply Shared) : Prop :=
  ∀ thread oracle patch k, a = .perform thread oracle →
    s.threads[thread]? = some (.call (.patchStatus patch) k) →
      oracle (.patchStatus patch) = true → s.shared.Agrees patch

/-- Effects other than patches leave the server and the records alone. -/
theorem kept_handle {s : Shared} (hkept : s.Kept) (oracle : (e : Effect) → e.Reply) (e : Effect)
    (hno : ∀ patch, e = .patchStatus patch → oracle (.patchStatus patch) = false) :
    (s.handle chrono oracle e).2.Kept := by
  cases e with
  | execute call checked =>
      show (s.afterExecute ⟨call, checked⟩ _).Kept
      unfold afterExecute
      split
      · exact hkept
      · exact hkept
  | patchStatus patch =>
      show (s.afterPatch chrono patch (oracle (.patchStatus patch))).Kept
      rw [hno patch rfl]
      exact hkept
  | _ => exact hkept

/-- One step loses a record exactly if it accepts a patch of an old version. -/
theorem keepsRecords_iff_upToDate {requests : ι → TaskRequest}
    {s t : Pool Effect.Reply Shared} {a : PoolAction Effect.Reply ι ℕ}
    (hstep : Pool.step (scheduler chrono spec requests) s a = some t)
    (hsafe : SafePool spec initial (· ∈ spec.sources.names) s) (hkept : s.shared.Kept) :
    KeepsRecords s a t ↔ UpToDate s a t := by
  cases Pool.Transition.of_step hstep with
  | spawn i =>
      refine iff_of_true hkept ?_
      intro thread oracle patch k ha
      cases ha
  | env n shared henv =>
      obtain ⟨version, -, rfl⟩ := Option.map_eq_some_iff.mp henv
      refine iff_of_true hkept ?_
      intro thread oracle patch k ha
      cases ha
  | perform thread oracle e k hthread =>
      obtain ⟨hpre, -⟩ :=
        hsafe.threads _ (List.mem_of_getElem? hthread) s.shared.world (le_refl _)
      by_cases hpatch : ∃ patch, e = .patchStatus patch ∧ oracle (.patchStatus patch) = true
      · obtain ⟨patch, rfl, hok⟩ := hpatch
        have hserve : (s.shared.handle chrono oracle (.patchStatus patch)).2 =
            s.shared.afterPatch chrono patch true := by
          rw [← hok]
          rfl
        have hiff := kept_afterPatch_iff chrono hpre hsafe.shared hkept
        rw [← hserve] at hiff
        constructor
        · intro hkeeps thread' oracle' patch' k' ha hthread' _
          cases ha
          rw [hthread] at hthread'
          cases hthread'
          exact hiff.mp hkeeps
        · intro hup
          exact hiff.mpr (hup thread oracle patch k rfl hthread hok)
      · have hno : ∀ patch, e = .patchStatus patch → oracle (.patchStatus patch) = false := by
          intro patch he
          by_contra hok
          exact hpatch ⟨patch, he, eq_true_of_ne_false hok⟩
        refine iff_of_true (kept_handle hkept oracle e hno) ?_
        intro thread' oracle' patch' k' ha hthread' hok
        cases ha
        rw [hthread] at hthread'
        cases hthread'
        rw [hno patch' rfl] at hok
        cases hok

/-- No lost source status.  In every interleaving of tasks of the trigger, with
any lag of the cache: every state reached has, on the server, the last record of
every source, exactly if every accepted patch was computed from a version that
agrees with the server on the sources recorded so far. -/
theorem records_kept_iff_upToDate (chrono : Rfc3339.Codec) (spec : Trigger)
    (initial : Option TriggerStatus)
    (actions : List (PoolAction Effect.Reply (SpecRequest spec) ℕ)) :
    Along (Pool.step (scheduler chrono spec Subtype.val)) KeepsRecords (start spec initial)
        actions ↔
      Along (Pool.step (scheduler chrono spec Subtype.val)) UpToDate (start spec initial)
        actions := by
  apply along_iff_of_invariant
    (fun s => SafePool spec initial (· ∈ spec.sources.names) s ∧ s.shared.Kept)
  · intro s a t hstep hs
    exact keepsRecords_iff_upToDate hstep hs.1 hs.2
  · intro s a t hstep hs hup
    exact ⟨hs.1.step (fun i => i.property) hstep,
      (keepsRecords_iff_upToDate hstep hs.1 hs.2).mpr hup⟩
  · refine ⟨start_safe, ?_⟩
    intro source entry hget
    simp [start] at hget

/-- One run for two sources with a cache that never learns of its patches: each
patch drops the record of the one before, and the last one drops them all. -/
theorem record_lost_behind_stale_cache :
    (run (Pool.step (scheduler Rfc3339.standard twoSources
          (fun request : SpecRequest twoSources => request.val))) (start twoSources none)
        (.spawn ⟨⟨.all, "/tmp"⟩, fun _ h => h⟩ ::
          List.replicate 32 (.perform 0 (obliging twoSources)))).map
      (fun s => (s.finished, (s.shared.records.get "a").map CheckedSourceState.commitHash,
        (recordedSources s.shared.server).get "a")) =
      some (true, some (some "c1"), none) := by
  decide +kernel

end Shared

end GitEventsRunner.Triggers
