/-
# From the request to the Job

The handlers with the tasks they schedule, the tasks of schedule triggers and the jobs
queue are one process.  A task that executes an action makes a Job and puts it in the
queue; from there on the Job is the queue's, which creates it on the server when it
sees fit, or drops it.

An observer keeps a journal of the executions that succeeded.  Whatever the process
does in whatever order, each of them has put one item in the queue, and each Job the
process has in the cluster goes back to one of them, in the namespace of its trigger,
and no two Jobs go back to the same one.  If the trigger is a webhook trigger, the
execution is also in the journal of the requests: somebody who was authorized asked
for it.
-/

import Mathlib.Data.List.NodupEquivFin
import GitEventsRunner.Actions.Job
import GitEventsRunner.Jobs.Replicas
import GitEventsRunner.Web.Grants

namespace GitEventsRunner.Jobs

open GitEventsRunner.Lib

/-! ## The Jobs the queue created -/

/-- The item of a create request that the server has not served yet. -/
def PassPhase.unserved : PassPhase → List JobsQueueItem
  | .creating checked => [checked.item]
  | .atLoop | .checking _ | .created _ | .gauging => []

namespace System

/-- Create requests are made for items that were put in, once and in order. -/
theorem Conserved.createCalls_sublist {s : System} (h : s.Conserved) :
    s.createCalls.Sublist s.putIn := by
  rw [h.requests, h.order, takenItems, List.append_assoc]
  apply List.Sublist.append
  · exact List.filter_sublist.map _
  · apply List.Sublist.trans _ (List.sublist_append_left _ _)
    cases s.phase with
    | creating checked | created checked => exact List.Sublist.refl _
    | atLoop | checking _ | gauging => exact List.nil_sublist _

/-- The server numbers the Jobs in the order in which it stored them, each for a create
request of its own, and files each under the name of its item. -/
structure Numbered (s : System) : Prop where
  count : s.stored.length = s.nextUid
  served : (s.stored ++ s.phase.unserved).Sublist s.createCalls
  keys : ∀ uid job, s.cluster.get uid = some job →
    ∃ item, s.stored[uid]? = some item ∧ job.key = item.job.objectRef

theorem Numbered.stored_sublist {s : System} (h : s.Numbered) :
    s.stored.Sublist s.createCalls :=
  (List.sublist_append_left _ _).trans h.served

/-- A step that makes and serves no request leaves the numbers alone. -/
theorem Numbered.of_eq {s t : System} (h : s.Numbered) (hstored : t.stored = s.stored)
    (huid : t.nextUid = s.nextUid) (hcluster : t.cluster = s.cluster)
    (hcreateCalls : t.createCalls = s.createCalls)
    (hphase : t.phase.unserved = [] ∨ t.phase = s.phase) : t.Numbered where
  count := by rw [hstored, huid, h.count]
  served := by
    rw [hstored, hcreateCalls]
    rcases hphase with hnone | hsame
    · rw [hnone, List.append_nil]
      exact h.stored_sublist
    · rw [hsame]
      exact h.served
  keys := by
    rw [hstored, hcluster]
    exact h.keys

theorem Numbered.createJob {s : System} (h : s.Numbered) {c : Caller} {pass : Pass}
    {checked : Checked} (hcall : s.call = some (c, .passing pass))
    (hphase : pass.phase = .creating checked) (status : Option JobStatus) :
    ((s.createJob checked.item status).setCall c
      (.passing { pass with phase := .created checked })).Numbered := by
  have hserved := h.served
  have hunserved : s.phase.unserved = [checked.item] := by
    rw [phase_of_call hcall, Call.phase, hphase]
    rfl
  rw [hunserved] at hserved
  constructor
  case count =>
    show (s.stored ++ [checked.item]).length = s.nextUid + 1
    rw [List.length_append, h.count]
    rfl
  case served =>
    show (s.stored ++ [checked.item] ++ []).Sublist s.createCalls
    rwa [List.append_nil]
  case keys =>
    intro uid job hjob
    show ∃ item, (s.stored ++ [checked.item])[uid]? = some item ∧ job.key = item.job.objectRef
    have hget : (s.cluster.insert s.nextUid ⟨checked.item.job.objectRef, status⟩).get uid =
        some job := hjob
    rw [HashMap.get_insert] at hget
    split at hget
    next hnew =>
      subst hnew
      rw [← Option.some.inj hget, ← h.count, List.getElem?_concat_length]
      exact ⟨checked.item, rfl, rfl⟩
    next hold =>
      obtain ⟨item, hitem, hkey⟩ := h.keys uid job hget
      have hlt := (List.getElem?_eq_some_iff.mp hitem).1
      rw [List.getElem?_append_left hlt]
      exact ⟨item, hitem, hkey⟩

theorem Numbered.step {s t : System} {action : Action} (h : s.Numbered)
    (hstep : s.step action = some t) : t.Numbered := by
  cases Transition.of_step hstep with
  | request c pass item now measured hcall hphase hfresh =>
      refine ⟨h.count, ?_, h.keys⟩
      exact h.stored_sublist.append (List.Sublist.refl [item])
  | accept c pass checked status hcall hphase hstatus => exact h.createJob hcall hphase status
  | setStatus uid status job hfound hfinal =>
      refine ⟨h.count, h.served, ?_⟩
      intro other changed hchanged
      have hget : (s.cluster.insert uid ⟨job.key, some status⟩).get other = some changed :=
        hchanged
      rw [HashMap.get_insert] at hget
      split at hget
      next hsame =>
        subst hsame
        rw [← Option.some.inj hget]
        exact h.keys other job hfound
      next hother => exact h.keys other changed hget
  | deleteJob uid job hfound =>
      refine ⟨h.count, h.served, ?_⟩
      intro other kept hkept
      have hget : (s.cluster.remove uid).get other = some kept := hkept
      rw [HashMap.get_remove] at hget
      split at hget
      next => cases hget
      next => exact h.keys other kept hget
  | lock | loadRunningJobs | readLen | readConfig | exceeded | begin | recv | expire | reject
  | reply | loseReply | gauge | stop => exact h.of_eq rfl rfl rfl rfl (Or.inl rfl)
  | enqueue | notify | notifyNobody | replaceEarly | replace | subscribe | changed
  | borrowAndUpdate | foreign | deliver | watchError | panic =>
      exact h.of_eq rfl rfl rfl rfl (Or.inr rfl)

theorem start_numbered (identity : String) (config : ActionConfig) (watch : JobsWatch) :
    (start identity config watch).Numbered where
  count := rfl
  served := List.Sublist.refl _
  keys := by
    intro uid job hjob
    cases hjob

/-- Only the living task makes create requests. -/
theorem createCalls_of_step {s t : System} {action : Action} (hstep : s.step action = some t) :
    t.createCalls = s.createCalls ∨ s.panicked = false := by
  have halive : action.ofTask = true → s.panicked = false := by
    intro htask
    rw [step, htask, Bool.and_true] at hstep
    split at hstep
    · cases hstep
    · exact Bool.eq_false_of_not_eq_true ‹_›
  cases Transition.of_step hstep with
  | request => exact Or.inr (halive rfl)
  | _ => exact Or.inl rfl

theorem panicked_of_step {s t : System} {action : Action} (hstep : s.step action = some t)
    (halive : t.panicked = false) : s.panicked = false := by
  cases Transition.of_step hstep with
  | panic => cases halive
  | _ => exact halive

end System

end GitEventsRunner.Jobs

namespace GitEventsRunner.Web

open GitEventsRunner.Actions (EnqueueCall JobEffect)
open GitEventsRunner.Jobs (JobsQueueItem JobsWatch)
open GitEventsRunner.Lib
open GitEventsRunner.Triggers
open Admission (Calls Charge Journal)

/-! ## Executions -/

/-- How an execution is carried out: the action that was looked up, what the making of its
Job reads at each of its effects, and the clock when the Job is put in the queue. -/
structure Execution where
  action : Actions.Action
  reading : ℕ → (e : JobEffect) → e.Reply
  now : SystemTime

namespace Execution

/-- The action is the one that was looked up for the call. -/
structure Executes (execution : Execution) (call : ExecuteCall) : Prop where
  kind : execution.action.kind = call.actionKind
  name : execution.action.name = call.actionName
  ns : execution.action.ns = match call.actionKind with
    | .action => some call.ns
    | .clusterAction => none

instance (execution : Execution) (call : ExecuteCall) : Decidable (execution.Executes call) :=
  decidable_of_iff (execution.action.kind = call.actionKind ∧
    execution.action.name = call.actionName ∧ execution.action.ns = match call.actionKind with
      | .action => some call.ns
      | .clusterAction => none)
    ⟨fun h => ⟨h.1, h.2.1, h.2.2⟩, fun h => ⟨h.kind, h.name, h.ns⟩⟩

/-- The call of the queue that the execution ends with. -/
def enqueueCall (execution : Execution) (call : ExecuteCall) : EnqueueCall :=
  ((execution.action.execute call).traceFrom (fun n e => (execution.reading n e, n + 1)) 0).2

/-- The item that the execution puts in the queue. -/
def item (execution : Execution) (call : ExecuteCall) (identity : String) : JobsQueueItem :=
  (execution.enqueueCall call).item identity execution.now

/-- An item is for the namespace of the trigger. -/
theorem item_ns (execution : Execution) (call : ExecuteCall) (identity : String) :
    (execution.item call identity).job.objectRef.ns = call.ns := by
  have hends : Actions.EndsExecution execution.action call (execution.enqueueCall call) :=
    (Actions.execute_returns execution.action call).of_runs
      (Prog.runs_traceFrom _ _ _)
  exact hends.ns

end Execution

/-- Who executes an action: a task that a request has scheduled, or the task of a schedule
trigger that has come due. -/
inductive Origin
  | request (charge : Charge)
  | schedule (tick : ℕ) (call : ExecuteCall)

namespace Origin

def call : Origin → ExecuteCall
  | .request charge => charge.call
  | .schedule _ call => call

def charge : Origin → Option Charge
  | .request charge => some charge
  | .schedule .. => none

/-- The task and the source of an execution. -/
def key : Origin → (ℕ ⊕ ℕ) × String
  | .request charge => (.inl charge.thread, charge.call.sourceName)
  | .schedule tick call => (.inr tick, call.sourceName)

/-- The item is the one that the execution put in the queue. -/
def Made (identity : String) (origin : Origin) (item : JobsQueueItem) : Prop :=
  ∃ execution : Execution, execution.Executes origin.call ∧
    item = execution.item origin.call identity

theorem Made.ns {identity : String} {origin : Origin} {item : JobsQueueItem}
    (h : origin.Made identity item) : item.job.objectRef.ns = origin.call.ns := by
  obtain ⟨execution, -, rfl⟩ := h
  exact execution.item_ns origin.call identity

end Origin

/-! ## The process -/

/-- The handlers with the tasks they have scheduled, the tasks of schedule triggers that
have come due, and the jobs queue with its cluster. -/
structure Service where
  handlers : Admission.System
  ticks : List (TriggerTask Unit) := []
  queue : Jobs.System

/-- What can happen: something at the handlers, a schedule trigger comes due, its task
performs its next effect, or something at the queue.  A step that executes an action says
how, if it comes to putting an item in the queue. -/
inductive ServiceAction
  | handlers (a : Admission.Action) (execution : Option Execution)
  | tick (trigger : Trigger)
  | performTick (tick : ℕ) (oracle : (e : Effect) → e.Reply) (execution : Option Execution)
  | queue (a : Jobs.Action)

/-- The execution of an action that an effect is, and whether it succeeds. -/
def executing (origin : ExecuteCall → Origin) : (e : Effect) → e.Reply → Option (Origin × Bool)
  | .execute call _, succeeds => some (origin call, succeeds)
  | _, _ => none

/-- What an execution does to the queue.  One that succeeds puts its item in.  Without the
task of the queue the item is put in as well, but the event cannot be sent and the execution
fails; that the task ends just between the two is not told apart from a success. -/
def carryOut (queue : Jobs.System) :
    Option (Origin × Bool) → Option Execution → Option Jobs.System
  | some (origin, succeeds), some execution =>
      if execution.Executes origin.call ∧ succeeds = !queue.panicked then
        let enqueueCall := execution.enqueueCall origin.call
        queue.step (.enqueue enqueueCall.job.toJob enqueueCall.ns enqueueCall.expireAfter
          execution.now)
      else none
  | some (_, true), none => none
  | some (_, false), none => some queue
  | none, none => some queue
  | none, some _ => none

/-- Items are put in the queue by executions only. -/
def putsIn : Jobs.Action → Bool
  | .enqueue .. => true
  | _ => false

namespace Service

variable (chrono : Rfc3339.Codec)

/-- The execution of an action in a step, and whether it succeeds. -/
def executes (s : Service) : ServiceAction → Option (Origin × Bool)
  | .handlers (.perform thread oracle) _ =>
      match s.handlers.threads[thread]? with
      | some ⟨_, _, .call e _⟩ =>
          executing (fun call => .request ⟨thread, call⟩) e
            (Admission.reply s.handlers.web oracle e)
      | _ => none
  | .performTick tick oracle _ =>
      match s.ticks[tick]? with
      | some (.call e _) => executing (.schedule tick) e (oracle e)
      | _ => none
  | _ => none

/-- One step of the process. -/
def step (s : Service) : ServiceAction → Option Service
  | .handlers a execution =>
      (s.handlers.step chrono a).bind fun handlers =>
        (carryOut s.queue (s.executes (.handlers a execution)) execution).map fun queue =>
          { s with handlers := handlers, queue := queue }
  | .tick trigger =>
      if trigger.kind = .scheduleTrigger then
        let task := trigger.createTriggerTask chrono .all s.handlers.web.sourceCloneFolder
        some { s with ticks := s.ticks ++ [task] }
      else none
  | .performTick tick oracle execution =>
      match s.ticks[tick]? with
      | some (.call e k) =>
          (carryOut s.queue (s.executes (.performTick tick oracle execution)) execution).map
            fun queue => { s with ticks := s.ticks.set tick (k (oracle e)), queue := queue }
      | _ => none
  | .queue a =>
      if putsIn a then none
      else (s.queue.step a).map fun queue => { s with queue := queue }

/-- The process before anything happens. -/
def start (web : WebState) (queue : Jobs.System) : Service where
  handlers := Admission.start web
  queue := queue

end Service

/-! ## The record -/

/-- What an observer of the process writes down: the journal of the requests, the schedule
triggers that came due, and the executions that succeeded. -/
structure Record where
  requests : Journal := {}
  ticked : List Trigger := []
  succeeded : List Origin := []

/-- The executions of a step that succeed: one at most. -/
def successes : Option (Origin × Bool) → List Origin
  | some (origin, true) => [origin]
  | _ => []

/-- The observer writes down what a step is about to do. -/
def Record.note (record : Record) (s : Service) (a : ServiceAction) : Record where
  requests := match a with
    | .handlers a _ => record.requests.note s.handlers a
    | _ => record.requests
  ticked := match a with
    | .tick trigger => record.ticked ++ [trigger]
    | _ => record.ticked
  succeeded := record.succeeded ++ successes (s.executes a)

/-- The call is one for this schedule trigger. -/
structure Ticks (trigger : Trigger) (call : ExecuteCall) : Prop where
  kind : trigger.kind = .scheduleTrigger
  ns : call.ns = trigger.ns
  triggerName : call.triggerName = trigger.name
  triggerKind : call.triggerKind = "ScheduleTrigger"

/-- The record accounts for the Jobs of the process.  The requests are in order, and every
successful execution is a charge of theirs or one by the task of a schedule trigger that came
due; no task succeeds twice for one source.  The successful executions have put their items in
the queue, one each and in this order, and nothing else was put in while the task of the queue
was there.  And each Job in the cluster was made for the item of an execution of its own. -/
structure Service.Traced (record : Record) (s : Service) : Prop where
  accounted : record.requests.Accounted
  charges : (record.succeeded.filterMap Origin.charge).Sublist record.requests.executed
  ticks : ∀ tick call, .schedule tick call ∈ record.succeeded →
    ∃ trigger, record.ticked[tick]? = some trigger ∧ Ticks trigger call
  once : (record.succeeded.map Origin.key).Nodup
  made : List.Forall₂ (Origin.Made s.queue.identity) record.succeeded
    (s.queue.putIn.take record.succeeded.length)
  nothingElse : s.queue.panicked = false → s.queue.putIn.length = record.succeeded.length
  jobs : ∃ place : ℕ ↪o ℕ, ∀ uid job, s.queue.cluster.get uid = some job →
    ∃ origin item, record.succeeded[place uid]? = some origin ∧
      s.queue.putIn[place uid]? = some item ∧ origin.Made s.queue.identity item ∧
      job.key = item.job.objectRef ∧ job.key.ns = origin.call.ns

/-! ## What is put in the queue -/

theorem mem_successes_executing {origin : ExecuteCall → Origin} {e : Effect} {r : e.Reply}
    {executed : Origin} (h : executed ∈ successes (executing origin e r)) :
    ∃ call checked, e = .execute call checked ∧ executed = origin call := by
  cases e with
  | execute call checked =>
      cases r with
      | false => cases h
      | true => exact ⟨call, checked, rfl, List.mem_singleton.mp h⟩
  | _ => cases h

theorem enqueue_step (queue : Jobs.System) (execution : Execution) (call : ExecuteCall) :
    queue.step (.enqueue (execution.enqueueCall call).job.toJob (execution.enqueueCall call).ns
      (execution.enqueueCall call).expireAfter execution.now) =
        some (queue.put (execution.item call queue.identity)) :=
  Jobs.System.step_eq_proceed rfl rfl

/-- The queue is left alone, or a successful execution puts its item in, or one that fails
because the task of the queue is gone. -/
theorem of_carryOut {queue queue' : Jobs.System} {executed : Option (Origin × Bool)}
    {execution : Option Execution} (h : carryOut queue executed execution = some queue') :
    (successes executed = [] ∧ queue' = queue) ∨
    ∃ origin succeeds carried, executed = some (origin, succeeds) ∧
      Execution.Executes carried origin.call ∧ succeeds = !queue.panicked ∧
      queue' = queue.put (carried.item origin.call queue.identity) := by
  unfold carryOut at h
  split at h
  next origin succeeds carried =>
    split at h
    next hcarried =>
      simp only [enqueue_step] at h
      exact Or.inr ⟨origin, succeeds, carried, rfl, hcarried.1, hcarried.2,
        (Option.some.inj h).symm⟩
    next => cases h
  next => cases h
  next => exact Or.inl ⟨rfl, (Option.some.inj h).symm⟩
  next => exact Or.inl ⟨rfl, (Option.some.inj h).symm⟩
  next => cases h

/-- The queue with the executions that supplied it. -/
structure Supplied (succeeded : List Origin) (queue : Jobs.System) : Prop where
  conserved : queue.Conserved
  numbered : queue.Numbered
  made : List.Forall₂ (Origin.Made queue.identity) succeeded
    (queue.putIn.take succeeded.length)
  nothingElse : queue.panicked = false → queue.putIn.length = succeeded.length
  requested : queue.createCalls.Sublist (queue.putIn.take succeeded.length)

namespace Supplied

variable {succeeded : List Origin} {queue queue' : Jobs.System}

theorem length_le (h : Supplied succeeded queue) : succeeded.length ≤ queue.putIn.length := by
  rw [h.made.length_eq, List.length_take]
  exact Nat.min_le_right ..

/-- A successful execution puts its item in. -/
theorem put (h : Supplied succeeded queue) (halive : queue.panicked = false) {origin : Origin}
    {execution : Execution} (hexecutes : execution.Executes origin.call) :
    Supplied (succeeded ++ [origin])
      (queue.put (execution.item origin.call queue.identity)) where
  conserved := h.conserved.step (enqueue_step queue execution origin.call)
  numbered := h.numbered.step (enqueue_step queue execution origin.call)
  made := by
    have hall : queue.putIn.take succeeded.length = queue.putIn :=
      List.take_of_length_le (h.nothingElse halive).le
    have hmade := h.made
    rw [hall] at hmade
    have hafter : (queue.putIn ++ [execution.item origin.call queue.identity]).take
        (succeeded ++ [origin]).length =
          queue.putIn ++ [execution.item origin.call queue.identity] := by
      apply List.take_of_length_le
      simp [h.nothingElse halive]
    show List.Forall₂ _ (succeeded ++ [origin]) (List.take _ (queue.putIn ++ [_]))
    rw [hafter]
    exact List.rel_append hmade (.cons ⟨execution, hexecutes, rfl⟩ .nil)
  nothingElse := by
    intro _
    show (queue.putIn ++ [execution.item origin.call queue.identity]).length = _
    simp [h.nothingElse halive]
  requested := by
    show queue.createCalls.Sublist (List.take _ (queue.putIn ++ [_]))
    rw [List.take_of_length_le (by simp [h.nothingElse halive])]
    exact h.conserved.createCalls_sublist.trans (List.sublist_append_left _ _)

/-- An execution whose event cannot be sent leaves its item behind. -/
theorem putLate (h : Supplied succeeded queue) (hpanicked : queue.panicked = true)
    (execution : Execution) (call : ExecuteCall) :
    Supplied succeeded (queue.put (execution.item call queue.identity)) where
  conserved := h.conserved.step (enqueue_step queue execution call)
  numbered := h.numbered.step (enqueue_step queue execution call)
  made := by
    show List.Forall₂ _ _ (List.take _ (queue.putIn ++ [_]))
    rw [List.take_append_of_le_length h.length_le]
    exact h.made
  nothingElse := by
    intro halive
    cases hpanicked.symm.trans halive
  requested := by
    show queue.createCalls.Sublist (List.take _ (queue.putIn ++ [_]))
    rw [List.take_append_of_le_length h.length_le]
    exact h.requested

theorem putIn_of_step {a : Jobs.Action} (ha : putsIn a = false)
    (h : queue.step a = some queue') : queue'.putIn = queue.putIn := by
  cases Jobs.System.Transition.of_step h with
  | enqueue => cases ha
  | _ => rfl

/-- The queue goes on. -/
theorem step (h : Supplied succeeded queue) {a : Jobs.Action} (ha : putsIn a = false)
    (hstep : queue.step a = some queue') : Supplied succeeded queue' where
  conserved := h.conserved.step hstep
  numbered := h.numbered.step hstep
  made := by
    rw [putIn_of_step ha hstep, Jobs.System.step_identity hstep]
    exact h.made
  nothingElse := by
    intro halive
    rw [putIn_of_step ha hstep]
    exact h.nothingElse (Jobs.System.panicked_of_step hstep halive)
  requested := by
    rw [putIn_of_step ha hstep]
    rcases Jobs.System.createCalls_of_step hstep with hsame | halive
    · rw [hsame]
      exact h.requested
    · -- while the task is there everything that was put in is accounted for
      rw [List.take_of_length_le (h.nothingElse halive).le, ← putIn_of_step ha hstep]
      exact (h.conserved.step hstep).createCalls_sublist

theorem start (identity : String) (config : Jobs.ActionConfig) (jobsWatch : JobsWatch) :
    Supplied [] (.start identity config jobsWatch) where
  conserved := Jobs.System.start_conserved identity config jobsWatch
  numbered := Jobs.System.start_numbered identity config jobsWatch
  made := .nil
  nothingElse _ := rfl
  requested := List.Sublist.refl _

/-- An execution leaves the queue supplied. -/
theorem carryOut (h : Supplied succeeded queue) {executed : Option (Origin × Bool)}
    {execution : Option Execution} (hcarry : Web.carryOut queue executed execution = some queue') :
    Supplied (succeeded ++ successes executed) queue' := by
  rcases of_carryOut hcarry with ⟨hnone, rfl⟩ |
    ⟨origin, succeeds, carried, rfl, hexecutes, hsucceeds, rfl⟩
  · rw [hnone, List.append_nil]
    exact h
  · cases hpanicked : queue.panicked with
    | false =>
        rw [hpanicked] at hsucceeds
        subst hsucceeds
        exact h.put hpanicked hexecutes
    | true =>
        rw [hpanicked] at hsucceeds
        subst hsucceeds
        show Supplied (succeeded ++ []) _
        rw [List.append_nil]
        exact h.putLate hpanicked carried origin.call

/-- Every Job was made for the item of an execution of its own. -/
theorem jobs (h : Supplied succeeded queue) :
    ∃ place : ℕ ↪o ℕ, ∀ uid job, queue.cluster.get uid = some job →
      ∃ origin item, succeeded[place uid]? = some origin ∧
        queue.putIn[place uid]? = some item ∧ origin.Made queue.identity item ∧
        job.key = item.job.objectRef ∧ job.key.ns = origin.call.ns := by
  obtain ⟨place, hplace⟩ := List.sublist_iff_exists_orderEmbedding_getElem?_eq.mp
    (h.numbered.stored_sublist.trans h.requested)
  refine ⟨place, ?_⟩
  intro uid job hjob
  obtain ⟨item, hitem, hkey⟩ := h.numbered.keys uid job hjob
  have htaken : (queue.putIn.take succeeded.length)[place uid]? = some item :=
    (hplace uid).symm.trans hitem
  obtain ⟨hlt, htaken'⟩ := List.getElem?_eq_some_iff.mp htaken
  have hlt' : place uid < succeeded.length := by
    rw [h.made.length_eq]
    exact hlt
  have hmade : succeeded[place uid].Made queue.identity item := by
    rw [← htaken']
    exact List.forall₂_iff_get.mp h.made |>.2 _ hlt' hlt
  refine ⟨_, item, List.getElem?_eq_getElem hlt', ?_, hmade, hkey, ?_⟩
  · rw [List.getElem?_take_of_lt hlt'] at htaken
    exact htaken
  · rw [hkey]
    exact hmade.ns

end Supplied

/-! ## What the tasks of schedule triggers do -/

/-- A schedule trigger's task that came due has succeeded for a source. -/
def Record.Spent (record : Record) (tick : ℕ) (source : String) : Prop :=
  ∃ call, .schedule tick call ∈ record.succeeded ∧ call.sourceName = source

/-- The tasks are those of the triggers that came due, and they spare the sources they
succeeded for. -/
structure Service.Ticking (record : Record) (ticks : List (TriggerTask Unit)) : Prop where
  length : record.ticked.length = ticks.length
  calls : ∀ (tick : ℕ) trigger rest, record.ticked[tick]? = some trigger →
    ticks[tick]? = some rest → rest.All (Calls (Ticks trigger))
  sparing : ∀ (tick : ℕ) rest, ticks[tick]? = some rest →
    rest.Sparing Triggers.ExecutesFor (record.Spent tick)
  succeeded : ∀ tick call, .schedule tick call ∈ record.succeeded →
    ∃ trigger, record.ticked[tick]? = some trigger ∧ Ticks trigger call

namespace Service.Ticking

variable {record record' : Record} {ticks : List (TriggerTask Unit)}

/-- Executions of other tasks change nothing. -/
theorem mono (h : Ticking record ticks) (hticked : record'.ticked = record.ticked)
    (hsucceeded : ∀ tick call, Origin.schedule tick call ∈ record'.succeeded →
      .schedule tick call ∈ record.succeeded) : Ticking record' ticks where
  length := by rw [hticked, h.length]
  calls := by
    rw [hticked]
    exact h.calls
  sparing := by
    intro tick rest hrest
    apply (h.sparing tick rest hrest).mono
    rintro source ⟨call, hcall, hsource⟩
    exact ⟨call, hsucceeded tick call hcall, hsource⟩
  succeeded := by
    intro tick call hcall
    rw [hticked]
    exact h.succeeded tick call (hsucceeded tick call hcall)

/-- A trigger comes due. -/
theorem tick (chrono : Rfc3339.Codec) (h : Ticking record ticks) {trigger : Trigger}
    (hkind : trigger.kind = .scheduleTrigger) (sourceCloneFolder : String) :
    Ticking { record with ticked := record.ticked ++ [trigger] }
      (ticks ++ [trigger.createTriggerTask chrono .all sourceCloneFolder]) where
  length := by simp [h.length]
  calls := by
    intro tick other rest hother hrest
    rcases lt_or_ge tick ticks.length with hlt | hge
    · rw [List.getElem?_append_left (h.length ▸ hlt)] at hother
      rw [List.getElem?_append_left hlt] at hrest
      exact h.calls tick other rest hother hrest
    · rw [List.getElem?_append_right (h.length ▸ hge)] at hother
      rw [List.getElem?_append_right hge] at hrest
      rw [List.mem_singleton.mp (List.mem_of_getElem? hother),
        List.mem_singleton.mp (List.mem_of_getElem? hrest)]
      apply (Admission.createTriggerTask_calls chrono trigger .all _).mono
      intro e he
      apply he.mono
      rintro call ⟨hns, hname, hcallKind, -⟩
      refine ⟨hkind, hns, hname, ?_⟩
      rw [hcallKind, hkind]
      rfl
  sparing := by
    intro tick rest hrest
    rcases lt_or_ge tick ticks.length with hlt | hge
    · rw [List.getElem?_append_left hlt] at hrest
      exact h.sparing tick rest hrest
    · -- no trigger came due here before, so nothing is spent
      rw [List.getElem?_append_right hge] at hrest
      rw [List.mem_singleton.mp (List.mem_of_getElem? hrest)]
      apply (Admission.createTriggerTask_sparing chrono trigger .all _).mono
      rintro source ⟨call, hcall, -⟩
      obtain ⟨due, hdue, -⟩ := h.succeeded tick call hcall
      have hlt := (List.getElem?_eq_some_iff.mp hdue).1
      rw [h.length] at hlt
      omega
  succeeded := by
    intro tick call hcall
    obtain ⟨due, hdue, hticks⟩ := h.succeeded tick call hcall
    refine ⟨due, ?_, hticks⟩
    rw [List.getElem?_append_left (List.getElem?_eq_some_iff.mp hdue).1, hdue]

/-- A task goes on. -/
theorem perform (h : Ticking record ticks) {index : ℕ} {e : Effect}
    {k : e.Reply → TriggerTask Unit} (htick : ticks[index]? = some (.call e k)) (r : e.Reply) :
    Ticking { record with
      succeeded := record.succeeded ++ successes (executing (.schedule index) e r) }
      (ticks.set index (k r)) where
  length := by rw [List.length_set, h.length]
  calls := by
    intro tick trigger rest htrigger hrest
    by_cases hindex : index = tick
    · subst hindex
      rw [List.getElem?_set_self (List.getElem?_eq_some_iff.mp htick).1] at hrest
      rw [← Option.some.inj hrest]
      exact (h.calls index trigger _ htrigger htick).2 r
    · rw [List.getElem?_set_ne hindex] at hrest
      exact h.calls tick trigger rest htrigger hrest
  sparing := by
    have hspent : ∀ tick source,
        Record.Spent { record with
          succeeded := record.succeeded ++ successes (executing (.schedule index) e r) } tick
            source →
        record.Spent tick source ∨ index = tick ∧ Triggers.ExecutesFor source e := by
      rintro tick source ⟨call, hcall, hsource⟩
      rcases List.mem_append.mp hcall with hold | hnew
      · exact Or.inl ⟨call, hold, hsource⟩
      · obtain ⟨made, checked, rfl, hmade⟩ := mem_successes_executing hnew
        obtain ⟨rfl, rfl⟩ := Origin.schedule.inj hmade
        exact Or.inr ⟨rfl, hsource⟩
    intro tick rest hrest
    by_cases hindex : index = tick
    · subst hindex
      rw [List.getElem?_set_self (List.getElem?_eq_some_iff.mp htick).1] at hrest
      rw [← Option.some.inj hrest]
      apply (h.sparing index _ htick).next r
      intro source hsource
      exact (hspent index source hsource).imp_right And.right
    · rw [List.getElem?_set_ne hindex] at hrest
      apply (h.sparing tick rest hrest).mono
      intro source hsource
      exact (hspent tick source hsource).resolve_right fun hnew => hindex hnew.1
  succeeded := by
    intro tick call hcall
    rcases List.mem_append.mp hcall with hold | hnew
    · exact h.succeeded tick call hold
    · obtain ⟨made, checked, rfl, hmade⟩ := mem_successes_executing hnew
      obtain ⟨rfl, rfl⟩ := Origin.schedule.inj hmade
      have hlt := (List.getElem?_eq_some_iff.mp htick).1
      rw [← h.length] at hlt
      have hticked := List.getElem?_eq_getElem hlt
      exact ⟨_, hticked, (h.calls tick _ _ hticked htick).1⟩

end Service.Ticking

/-! ## Runs -/

/-- The journal only grows. -/
theorem executed_sublist_note (journal : Journal) (s : Admission.System) (a : Admission.Action) :
    journal.executed.Sublist (journal.note s a).executed := by
  cases a with
  | perform thread oracle =>
      rw [Journal.note]
      split
      · exact List.sublist_append_left _ _
      · exact List.Sublist.refl _
  | arrive | answer | change => exact List.Sublist.refl _

/-- What succeeds at the handlers is the charge that the journal writes down. -/
theorem note_of_successes (record : Record) {s : Service} {a : Admission.Action}
    {execution : Option Execution} {origin : Origin}
    (h : origin ∈ successes (s.executes (.handlers a execution))) :
    ∃ charge, origin = .request charge ∧
      (record.requests.note s.handlers a).executed = record.requests.executed ++ [charge] := by
  cases a with
  | perform thread oracle =>
      simp only [Service.executes] at h
      split at h
      next task version e k hthread =>
        obtain ⟨call, checked, rfl, horigin⟩ := mem_successes_executing h
        refine ⟨⟨thread, call⟩, horigin, ?_⟩
        rw [Journal.note, hthread]
        rfl
      next => cases h
  | arrive | answer | change => cases h

theorem successes_eq (executed : Option (Origin × Bool)) :
    successes executed = [] ∨ ∃ origin, successes executed = [origin] := by
  unfold successes
  split
  · exact Or.inr ⟨_, rfl⟩
  · exact Or.inl rfl

/-- The record agrees with the process it was kept of. -/
structure Service.Agrees (record : Record) (s : Service) : Prop where
  requests : record.requests.Agrees s.handlers
  charges : (record.succeeded.filterMap Origin.charge).Sublist record.requests.executed
  ticking : Service.Ticking record s.ticks
  once : (record.succeeded.map Origin.key).Nodup
  supplied : Supplied record.succeeded s.queue

namespace Service.Agrees

variable {chrono : Rfc3339.Codec} {record : Record} {s t : Service}

theorem handlers (h : s.Agrees record) {a : Admission.Action} {execution : Option Execution}
    (hstep : s.step chrono (.handlers a execution) = some t) :
    t.Agrees (record.note s (.handlers a execution)) := by
  obtain ⟨handlers, hhandlers, hrest⟩ := Option.bind_eq_some_iff.mp hstep
  obtain ⟨queue, hcarry, rfl⟩ := Option.map_eq_some_iff.mp hrest
  have hrequests := h.requests.step hhandlers
  have hsupplied := h.supplied.carryOut hcarry
  have hgrows := executed_sublist_note record.requests s.handlers a
  have hticking : Service.Ticking (record.note s (.handlers a execution)) s.ticks := by
    have hticked : (record.note s (.handlers a execution)).ticked = record.ticked := rfl
    apply h.ticking.mono hticked
    intro tick call hcall
    rcases List.mem_append.mp hcall with hold | hnew
    · exact hold
    · obtain ⟨charge, hcharge, -⟩ := note_of_successes record hnew
      cases hcharge
  refine ⟨hrequests, ?_, hticking, ?_, hsupplied⟩
  · show ((record.succeeded ++ successes _).filterMap Origin.charge).Sublist _
    rw [List.filterMap_append]
    rcases successes_eq (s.executes (.handlers a execution)) with hnone | ⟨origin, hone⟩
    · rw [hnone, List.filterMap_nil, List.append_nil]
      exact h.charges.trans hgrows
    · obtain ⟨charge, rfl, hnote⟩ := note_of_successes record
        (hone ▸ List.mem_singleton_self origin)
      rw [hone]
      show (_ ++ [charge]).Sublist (record.requests.note s.handlers a).executed
      rw [hnote]
      exact h.charges.append (List.Sublist.refl _)
  · show ((record.succeeded ++ successes _).map Origin.key).Nodup
    rw [List.map_append]
    rcases successes_eq (s.executes (.handlers a execution)) with hnone | ⟨origin, hone⟩
    · rw [hnone]
      simpa using h.once
    · obtain ⟨charge, rfl, hnote⟩ := note_of_successes record
        (hone ▸ List.mem_singleton_self origin)
      rw [hone]
      apply h.once.append (List.nodup_singleton _)
      intro key hold hnew
      obtain rfl := List.mem_singleton.mp hnew
      obtain ⟨other, hother, hkey⟩ := List.mem_map.mp hold
      cases other with
      | schedule tick call => cases hkey
      | request charged =>
          -- the journal never charges one source to one task twice
          have hcharged : charged ∈ record.requests.executed :=
            h.charges.subset (List.mem_filterMap.mpr ⟨_, hother, rfl⟩)
          have hnodup := hrequests.once
          rw [hnote, List.map_append] at hnodup
          have hsame : charged.key = charge.key := by
            simpa [Origin.key, Charge.key] using hkey
          exact List.disjoint_of_nodup_append hnodup (List.mem_map_of_mem hcharged)
            (List.mem_singleton.mpr hsame)

theorem performTick (h : s.Agrees record) {tick : ℕ} {oracle : (e : Effect) → e.Reply}
    {execution : Option Execution}
    (hstep : s.step chrono (.performTick tick oracle execution) = some t) :
    t.Agrees (record.note s (.performTick tick oracle execution)) := by
  simp only [Service.step] at hstep
  split at hstep
  next e k htick =>
    obtain ⟨queue, hcarry, rfl⟩ := Option.map_eq_some_iff.mp hstep
    have hexecutes : s.executes (.performTick tick oracle execution) =
        executing (.schedule tick) e (oracle e) := by
      rw [Service.executes, htick]
    have hsupplied := h.supplied.carryOut hcarry
    have hticking := h.ticking.perform htick (oracle e)
    have hnote : (record.note s (.performTick tick oracle execution)).succeeded =
        record.succeeded ++ successes (executing (.schedule tick) e (oracle e)) := by
      rw [← hexecutes]
      rfl
    refine ⟨h.requests, ?_, ?_, ?_, hsupplied⟩
    · rw [hnote, List.filterMap_append]
      have hnone : (successes (executing (.schedule tick) e (oracle e))).filterMap
          Origin.charge = [] := by
        apply List.filterMap_eq_nil_iff.mpr
        intro origin horigin
        obtain ⟨call, -, -, rfl⟩ := mem_successes_executing horigin
        rfl
      rw [hnone, List.append_nil]
      exact h.charges
    · have hticked : (record.note s (.performTick tick oracle execution)).ticked =
          record.ticked := rfl
      apply hticking.mono hticked
      intro other call hcall
      rwa [hnote] at hcall
    · rw [hnote, List.map_append]
      rcases successes_eq (executing (.schedule tick) e (oracle e)) with hnone | ⟨origin, hone⟩
      · rw [hnone]
        simpa using h.once
      · obtain ⟨call, checked, rfl, rfl⟩ :=
          mem_successes_executing (hone ▸ List.mem_singleton_self origin)
        rw [hone]
        apply h.once.append (List.nodup_singleton _)
        intro key hold hnew
        obtain rfl := List.mem_singleton.mp hnew
        obtain ⟨other, hother, hkey⟩ := List.mem_map.mp hold
        cases other with
        | request charge => cases hkey
        | schedule before made =>
            -- the task spares the sources it succeeded for
            obtain ⟨hbefore, hsource⟩ : before = tick ∧ made.sourceName = call.sourceName := by
              simpa [Origin.key] using hkey
            subst hbefore
            exact (h.ticking.sparing before _ htick).not_spent call.sourceName rfl
              ⟨made, hother, hsource⟩
  next => cases hstep

theorem step {a : ServiceAction} (h : s.Agrees record) (hstep : s.step chrono a = some t) :
    t.Agrees (record.note s a) := by
  cases a with
  | handlers a execution => exact h.handlers hstep
  | performTick tick oracle execution => exact h.performTick hstep
  | tick trigger =>
      simp only [Service.step] at hstep
      split at hstep
      next hkind =>
        obtain rfl := Option.some.inj hstep
        have hnote : record.note s (.tick trigger) =
            { record with ticked := record.ticked ++ [trigger] } := by
          simp [Record.note, Service.executes, successes]
        rw [hnote]
        exact ⟨h.requests, h.charges, h.ticking.tick chrono hkind _, h.once, h.supplied⟩
      next => cases hstep
  | queue a =>
      simp only [Service.step] at hstep
      split at hstep
      next => cases hstep
      next hputs =>
        obtain ⟨queue, hqueue, rfl⟩ := Option.map_eq_some_iff.mp hstep
        have hnote : record.note s (.queue a) = record := by
          simp [Record.note, Service.executes, successes]
        rw [hnote]
        exact ⟨h.requests, h.charges, h.ticking, h.once,
          h.supplied.step (Bool.eq_false_of_not_eq_true hputs) hqueue⟩

theorem start (web : WebState) (identity : String) (config : Jobs.ActionConfig)
    (jobsWatch : JobsWatch) :
    (Service.start web (.start identity config jobsWatch)).Agrees {} where
  requests := Admission.Journal.Agrees.start web
  charges := List.Sublist.refl _
  ticking := by
    refine ⟨rfl, ?_, ?_, ?_⟩
    · intro tick trigger rest htrigger
      cases htrigger
    · intro tick rest hrest
      cases hrest
    · intro tick call hcall
      cases hcall
  once := List.nodup_nil
  supplied := Supplied.start identity config jobsWatch

theorem traced (h : s.Agrees record) : s.Traced record where
  accounted := h.requests.accounted
  charges := h.charges
  ticks := h.ticking.succeeded
  once := h.once
  made := h.supplied.made
  nothingElse := h.supplied.nothingElse
  jobs := h.supplied.jobs

end Service.Agrees

/-- In every run of the process the record accounts for its Jobs: each of them goes back to a
successful execution of its own, a charge of a request that was authorized or one by the task
of a schedule trigger that came due. -/
theorem Service.jobs_traced (chrono : Rfc3339.Codec) (web : WebState) (identity : String)
    (config : Jobs.ActionConfig) (jobsWatch : JobsWatch) (actions : List ServiceAction) :
    Service.Traced
      (watch (Service.step chrono) Record.note {}
        (Service.start web (.start identity config jobsWatch)) actions).1
      (watch (Service.step chrono) Record.note {}
        (Service.start web (.start identity config jobsWatch)) actions).2 := by
  have hagrees : Service.Agrees
      (watch (Service.step chrono) Record.note {}
        (Service.start web (.start identity config jobsWatch)) actions).1
      (watch (Service.step chrono) Record.note {}
        (Service.start web (.start identity config jobsWatch)) actions).2 := by
    apply invariant_of_watch _ (Service.Agrees.start web identity config jobsWatch)
    intro record s a t hstep h
    exact h.step hstep
  exact hagrees.traced

/-- The action of the trigger of a request, under the default configuration. -/
def buildExecution : Execution where
  action := { name := "action", ns := some "default", sourceOverride := .action none }
  reading _ := Actions.JobEffect.plainReply
  now := 0

/-- A request is answered, its task executes the action, and the queue creates the Job. -/
def requestToJob : List ServiceAction :=
  ((Admission.requestThenEdit ["a"]).take 14).map (.handlers · none) ++
    [.handlers (.perform 0 (obliging Shared.twoSources)) (some buildExecution),
      .queue .notify] ++ Jobs.System.oneCall.map .queue

def requestToJobRun : Record × Service :=
  watch (Service.step Rfc3339.standard) Record.note {}
    (Service.start (Admission.webWith ["a", "b"]) (.start "me" {} JobsWatch.init)) requestToJob

example : requestToJobRun.1.succeeded.map Origin.key = [(.inl 0, "a")] ∧
    (requestToJobRun.2.queue.cluster.get 0).map (fun job => job.key.ns) = some "default" := by
  decide +kernel

end GitEventsRunner.Web
