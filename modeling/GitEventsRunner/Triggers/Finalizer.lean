/-
# Schedule triggers under a finalizer

`reconcile_namespaced` hands every schedule trigger to the `finalizer` helper of
the client library, under `ScheduleTrigger::finalizer_name`.  The helper puts the
finalizer on an object before it lets `reconcile` see it, calls `cleanup` once
the object is marked for deletion, and takes the finalizer off again when
`cleanup` has succeeded; the API server removes a marked object with its last
finalizer.

This module is the system around the calls of `Reconcile`: the objects of the API
server, their users, the watch the controller follows them by, the requests it
queues, its calls and their patches, and the terms of the leaders.  A controller
decides by what its watch has shown it, which may be older than what the API
server stores.  Nothing here is assumed about how far it lags behind.
-/

import GitEventsRunner.Lib.EventLog
import GitEventsRunner.Triggers.Calls

namespace GitEventsRunner.Triggers

open GitEventsRunner.Lib

variable {Cron : Type}

/-! ## Objects of the API server -/

/-- A trigger object: whether it is marked for deletion, whether the finalizer
`scheduletriggers.git-events-runner.rs` holds it, and the finalizers of others. -/
structure TriggerObject where
  trigger : ScheduleTrigger
  deleting : Bool
  held : Bool
  others : List String

namespace TriggerObject

/-- The API server removes an object that is marked for deletion and has no
finalizer left. -/
def kept (object : TriggerObject) : Option TriggerObject :=
  if object.deleting && !object.held && object.others.isEmpty then none else some object

/-- The object is on its way out and still waits for this program. -/
def doomed (object : TriggerObject) : Bool := object.held && object.deleting

/-- There is work left for the finalizer: it is to be put on, or to be taken off. -/
def unsettled (object : TriggerObject) : Bool := object.held == object.deleting

end TriggerObject

/-- A watch event: an object as it was applied, or `none` for one that is gone. -/
abbrev WatchEvent := TriggerId × Option TriggerObject

/-- A patch of the finalizers under way. -/
inductive FinalizerPatch
  | add | remove
  deriving DecidableEq, Repr

/-! ## The cluster -/

/-- The API server with the controller of the leader: the log of what happened to
the objects, newest first, the number of events the watch has not delivered, the
objects with a request in the queue, the state behind the calls, and the patches
under way.  `halted` says that a call has panicked and took the controller with
it. -/
structure Cluster (Cron : Type) where
  log : List WatchEvent
  lag : ℕ
  queued : TriggerId → Bool
  controller : Controller Cron
  patches : HashMap TriggerId FinalizerPatch
  halted : Bool

/-- One step: a user creates, changes or deletes an object, the watch delivers an
event, the controller takes a request from its queue, a call goes on, a patch is
answered, or a leader starts with a list that lacks the newest `lag` events.  What a
user changes are the trigger and the finalizers of others, never this program's own
one; and within a term the watch does not list the objects again. -/
inductive ClusterAction
  | create (trigger : ScheduleTrigger) (others : List String)
  | edit (trigger : ScheduleTrigger) (others : List String)
  | delete (id : TriggerId)
  | deliver
  | take (id : TriggerId)
  | rebuild (id : TriggerId) (outcome : RebuildOutcome)
  | proceed (id : TriggerId) (cancelled : Bool)
  | patch (id : TriggerId) (accepted : Bool)
  | term (lag : ℕ)

namespace Cluster

/-- The object the API server stores. -/
def stored (s : Cluster Cron) (id : TriggerId) : Option TriggerObject := latest s.log id

/-- The object as the watch has shown it. -/
def view (s : Cluster Cron) (id : TriggerId) : Option TriggerObject :=
  latest (s.log.drop s.lag) id

/-- Nothing has happened yet. -/
def start : Cluster Cron where
  log := []
  lag := 0
  queued _ := false
  controller := Controller.start
  patches := ∅
  halted := false

/-- Something happens to an object. -/
def record (s : Cluster Cron) (id : TriggerId) (object : Option TriggerObject) : Cluster Cron :=
  { s with log := (id, object) :: s.log, lag := s.lag + 1 }

/-- An event arrives, the oldest of those missed.  A request is queued for an
applied object, not for one that is gone. -/
def arrive (s : Cluster Cron) (lag : ℕ) (event : WatchEvent) : Cluster Cron :=
  { s with
    lag := lag
    queued := if event.2.isSome then Function.update s.queued event.1 true else s.queued }

/-- The controller takes the request for an object from its queue. -/
def dequeue (s : Cluster Cron) (id : TriggerId) : Cluster Cron :=
  { s with queued := Function.update s.queued id false }

/-- A leader starts: with a list, and with nothing of its predecessor's, whose calls and
patches are gone by then. -/
def newTerm (s : Cluster Cron) (lag : ℕ) : Cluster Cron where
  log := s.log
  lag := lag
  queued id := (latest (s.log.drop lag) id).isSome
  controller := Controller.start
  patches := ∅
  halted := false

/-- A panic ends the controller with all its calls, and the scheduler is shut down
behind it. -/
def halt (s : Cluster Cron) : Cluster Cron :=
  { s with
    controller := Controller.start
    queued := fun _ => false
    patches := ∅
    halted := true }

/-- A step of the controller, and what the helper makes of a call that ended: a
successful cleanup is followed by the patch that takes the finalizer off. -/
def settle (s : Cluster Cron) (controller : Controller Cron) : Cluster Cron :=
  match s.controller.ended controller with
  | some ⟨_, _, .panicked⟩ => s.halt
  | some ⟨.cleanup, trigger, .ok⟩ =>
      { s with controller := controller, patches := s.patches.insert trigger.id .remove }
  | _ => { s with controller := controller }

/-- A patch is over. -/
def endPatch (s : Cluster Cron) (id : TriggerId) : Cluster Cron :=
  { s with patches := s.patches.remove id }

/-- The answer to a patch.  The API server accepts it only if the object still
is what the patch was made for: there, and without or with the finalizer. -/
def answer (s : Cluster Cron) (id : TriggerId) (patch : FinalizerPatch) (accepted : Bool) :
    Option (Cluster Cron) :=
  if accepted then
    match patch, s.stored id with
    | .add, some object =>
        -- no finalizer can be added to an object marked for deletion
        if object.held || object.deleting then none
        else some ((s.endPatch id).record id (some { object with held := true }))
    | .remove, some object =>
        if object.held then some ((s.endPatch id).record id { object with held := false }.kept)
        else none
    | _, none => none
  else some (s.endPatch id)

variable (chrono : Rfc3339.Codec) (parsers : ScheduleParsers Cron)

/-- The helper's decision for an object the controller takes from its queue. -/
def decide (s : Cluster Cron) (id : TriggerId) (object : TriggerObject) :
    Option (Cluster Cron) :=
  match object.held, object.deleting with
  | true, false =>
      (s.controller.step chrono parsers (.reconcile object.trigger)).map s.settle
  | true, true => (s.controller.step chrono parsers (.cleanup object.trigger)).map s.settle
  | false, false => some { s with patches := s.patches.insert id .add }
  | false, true => some s

/-- Perform one step; `none` if it is not possible now. -/
def step (s : Cluster Cron) : ClusterAction → Option (Cluster Cron)
  | .create trigger others =>
      if (s.stored trigger.id).isSome then none
      else some (s.record trigger.id (some ⟨trigger, false, false, others⟩))
  | .edit trigger others =>
      (s.stored trigger.id).map fun object =>
        s.record trigger.id { object with trigger := trigger, others := others }.kept
  | .delete id =>
      (s.stored id).map fun object => s.record id { object with deleting := true }.kept
  | .deliver =>
      match s.halted, s.lag with
      | false, lag + 1 => s.log[lag]?.map (s.arrive lag)
      | _, _ => none
  | .take id =>
      if !s.halted && s.queued id && (s.patches.get id).isNone &&
          (s.controller.calls.get id).isNone then
        match s.view id with
        | some object => (s.dequeue id).decide chrono parsers id object
        | none => some (s.dequeue id)
      else none
  | .rebuild id outcome =>
      (s.controller.step chrono parsers (.rebuild id outcome)).map s.settle
  | .proceed id cancelled =>
      (s.controller.step chrono parsers (.proceed id cancelled)).map s.settle
  | .patch id accepted => (s.patches.get id).bind fun patch => s.answer id patch accepted
  | .term lag => if lag ≤ s.log.length then some (s.newTerm lag) else none

/-! ## Everything one step can do -/

/-- A request for an object can be taken: it is queued and nothing is going on for
the object. -/
structure Free (s : Cluster Cron) (id : TriggerId) : Prop where
  queued : s.queued id = true
  patches : s.patches.get id = none
  calls : s.controller.calls.get id = none

/-- The steps of the cluster with their guards. -/
inductive Happens (s : Cluster Cron) : ClusterAction → Cluster Cron → Prop
  | create (trigger : ScheduleTrigger) (others : List String)
      (hstored : s.stored trigger.id = none) :
      Happens s (.create trigger others)
        (s.record trigger.id (some ⟨trigger, false, false, others⟩))
  | edit (trigger : ScheduleTrigger) (others : List String) (object : TriggerObject)
      (hstored : s.stored trigger.id = some object) :
      Happens s (.edit trigger others)
        (s.record trigger.id { object with trigger := trigger, others := others }.kept)
  | delete (id : TriggerId) (object : TriggerObject) (hstored : s.stored id = some object) :
      Happens s (.delete id) (s.record id { object with deleting := true }.kept)
  | deliver (lag : ℕ) (event : WatchEvent) (hlag : s.lag = lag + 1)
      (hevent : s.log[lag]? = some event) : Happens s .deliver (s.arrive lag event)
  | idle (id : TriggerId) (hfree : s.Free id)
      (hview : ∀ object, s.view id = some object → object.unsettled = false) :
      Happens s (.take id) (s.dequeue id)
  | apply (id : TriggerId) (object : TriggerObject) (controller : Controller Cron)
      (hfree : s.Free id) (hview : s.view id = some object) (hheld : object.held = true)
      (hdeleting : object.deleting = false)
      (hstep : s.controller.step chrono parsers (.reconcile object.trigger) = some controller) :
      Happens s (.take id) ((s.dequeue id).settle controller)
  | clean (id : TriggerId) (object : TriggerObject) (controller : Controller Cron)
      (hfree : s.Free id) (hview : s.view id = some object) (hdoomed : object.doomed = true)
      (hstep : s.controller.step chrono parsers (.cleanup object.trigger) = some controller) :
      Happens s (.take id) ((s.dequeue id).settle controller)
  | add (id : TriggerId) (object : TriggerObject) (hfree : s.Free id)
      (hview : s.view id = some object) (hheld : object.held = false)
      (hdeleting : object.deleting = false) :
      Happens s (.take id) { s.dequeue id with patches := s.patches.insert id .add }
  | rebuild (id : TriggerId) (outcome : RebuildOutcome) (controller : Controller Cron)
      (hstep : s.controller.step chrono parsers (.rebuild id outcome) = some controller) :
      Happens s (.rebuild id outcome) (s.settle controller)
  | proceed (id : TriggerId) (cancelled : Bool) (controller : Controller Cron)
      (hstep : s.controller.step chrono parsers (.proceed id cancelled) = some controller) :
      Happens s (.proceed id cancelled) (s.settle controller)
  | added (id : TriggerId) (object : TriggerObject) (hpatch : s.patches.get id = some .add)
      (hstored : s.stored id = some object) (hheld : object.held = false)
      (hdeleting : object.deleting = false) :
      Happens s (.patch id true) ((s.endPatch id).record id (some { object with held := true }))
  | removed (id : TriggerId) (object : TriggerObject)
      (hpatch : s.patches.get id = some .remove) (hstored : s.stored id = some object)
      (hheld : object.held = true) :
      Happens s (.patch id true) ((s.endPatch id).record id { object with held := false }.kept)
  | refused (id : TriggerId) (patch : FinalizerPatch) (hpatch : s.patches.get id = some patch) :
      Happens s (.patch id false) (s.endPatch id)
  | term (lag : ℕ) (hlag : lag ≤ s.log.length) : Happens s (.term lag) (s.newTerm lag)

variable {chrono parsers}

theorem Happens.of_take {s t : Cluster Cron} {id : TriggerId}
    (h : s.step chrono parsers (.take id) = some t) : Happens chrono parsers s (.take id) t := by
  simp only [step] at h
  split at h
  · rename_i hguard
    simp only [Bool.and_eq_true, Option.isNone_iff_eq_none] at hguard
    have hfree : s.Free id := ⟨hguard.1.1.2, hguard.1.2, hguard.2⟩
    split at h
    · rename_i object hview
      simp only [decide] at h
      split at h
      · rename_i hheld hdeleting
        obtain ⟨controller, hstep, rfl⟩ := Option.map_eq_some_iff.mp h
        exact .apply id object controller hfree hview hheld hdeleting hstep
      · rename_i hheld hdeleting
        obtain ⟨controller, hstep, rfl⟩ := Option.map_eq_some_iff.mp h
        refine .clean id object controller hfree hview ?_ hstep
        simp [TriggerObject.doomed, hheld, hdeleting]
      · rename_i hheld hdeleting
        obtain rfl := Option.some.inj h
        exact .add id object hfree hview hheld hdeleting
      · rename_i hheld hdeleting
        obtain rfl := Option.some.inj h
        refine .idle id hfree ?_
        intro other hother
        obtain rfl : object = other := Option.some.inj (hview.symm.trans hother)
        simp [TriggerObject.unsettled, hheld, hdeleting]
    · rename_i hview
      obtain rfl := Option.some.inj h
      refine .idle id hfree ?_
      intro other hother
      rw [hview] at hother
      cases hother
  · cases h

theorem Happens.of_patch {s t : Cluster Cron} {id : TriggerId} {accepted : Bool}
    (h : s.step chrono parsers (.patch id accepted) = some t) :
    Happens chrono parsers s (.patch id accepted) t := by
  obtain ⟨patch, hpatch, hanswer⟩ := Option.bind_eq_some_iff.mp h
  cases accepted with
  | false =>
      obtain rfl := Option.some.inj hanswer
      exact .refused id patch hpatch
  | true =>
      simp only [answer, if_true] at hanswer
      split at hanswer
      · rename_i object hstored
        split at hanswer
        · cases hanswer
        · rename_i hnot
          simp only [Bool.or_eq_true, not_or, Bool.not_eq_true] at hnot
          obtain rfl := Option.some.inj hanswer
          exact .added id object hpatch hstored hnot.1 hnot.2
      · rename_i object hstored
        split at hanswer
        · rename_i hheld
          obtain rfl := Option.some.inj hanswer
          exact .removed id object hpatch hstored hheld
        · cases hanswer
      · cases hanswer

/-- Every step of the cluster is one of the listed ones. -/
theorem Happens.of_step {s t : Cluster Cron} {action : ClusterAction}
    (h : s.step chrono parsers action = some t) : Happens chrono parsers s action t := by
  cases action with
  | create trigger others =>
      simp only [step] at h
      split at h
      · cases h
      · obtain rfl := Option.some.inj h
        exact .create trigger others (Option.not_isSome_iff_eq_none.mp ‹_›)
  | edit trigger others =>
      obtain ⟨object, hstored, rfl⟩ := Option.map_eq_some_iff.mp h
      exact .edit trigger others object hstored
  | delete id =>
      obtain ⟨object, hstored, rfl⟩ := Option.map_eq_some_iff.mp h
      exact .delete id object hstored
  | deliver =>
      simp only [step] at h
      split at h
      · rename_i lag hhalted hlag
        obtain ⟨event, hevent, rfl⟩ := Option.map_eq_some_iff.mp h
        exact .deliver lag event hlag hevent
      · cases h
  | take id => exact .of_take h
  | rebuild id outcome =>
      obtain ⟨controller, hstep, rfl⟩ := Option.map_eq_some_iff.mp h
      exact .rebuild id outcome controller hstep
  | proceed id cancelled =>
      obtain ⟨controller, hstep, rfl⟩ := Option.map_eq_some_iff.mp h
      exact .proceed id cancelled controller hstep
  | patch id accepted => exact .of_patch h
  | term lag =>
      simp only [step] at h
      split at h
      · obtain rfl := Option.some.inj h
        exact .term lag ‹_›
      · cases h

end Cluster

end GitEventsRunner.Triggers
