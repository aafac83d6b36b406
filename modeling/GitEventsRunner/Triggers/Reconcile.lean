/-
# Reconciling schedule triggers

`ScheduleTrigger::reconcile` and `cleanup` keep three things in step: the map of
scheduled tasks, the map of the schedules they were built from, and the tasks
that live in the leader's scheduler.  Calls for one trigger never overlap, calls
for different triggers interleave at their locks: `reconcile` looks at the
schedules under a read lock and does all its changes under one write lock,
`cleanup` takes a lock four times.

This module is the state machine of these calls.  `Transition` lists its steps
and `Rebuilt` everything the locked part of `reconcile` can do.
-/

import GitEventsRunner.Lib.Machine
import GitEventsRunner.Triggers.LastRun

namespace GitEventsRunner.Triggers

open GitEventsRunner.Lib

/-! ## Schedules -/

/-- Type of the schedule. -/
inductive TriggerSchedule
  | interval (text : String)
  | cron (text : String)
  deriving DecidableEq, Repr

/-- A schedule trigger: a trigger with its schedule. -/
structure ScheduleTrigger extends Trigger where
  schedule : TriggerSchedule

/-- The parsers of the schedule expressions: `humantime::Duration` and the
scheduler's own `CronSchedule`. -/
structure ScheduleParsers (Cron : Type) where
  parseInterval : String → Option Duration
  parseCron : String → Option Cron

/-- The schedule of a task in the scheduler. -/
inductive TaskSchedule (Cron : Type)
  | interval (every : Duration)
  | intervalDelayed (every delay : Duration)
  | cron (cron : Cron) (atStart concurrent : Bool)

variable {Cron : Type}

namespace TriggerSchedule

/-- `TriggerSchedule::is_valid` -/
def isValid (parsers : ScheduleParsers Cron) : TriggerSchedule → Bool
  | .interval text => (parsers.parseInterval text).isSome
  | .cron text => (parsers.parseCron text).isSome

end TriggerSchedule

namespace ScheduleTrigger

/-- `ScheduleTrigger::get_task_schedule` at clock reading `now`; the outer `none`
is a panic, the inner one `Err(())`. -/
def getTaskSchedule (parsers : ScheduleParsers Cron) (trigger : ScheduleTrigger)
    (lastRun : Option SystemTime) (now : SystemTime) : Option (Option (TaskSchedule Cron)) :=
  if trigger.schedule.isValid parsers then
    match trigger.schedule with
    | .interval text =>
        match parsers.parseInterval text, lastRun with
        | none, _ => some none
        | some interval, none => some (some (.interval interval))
        | some interval, some lastRun =>
            -- `expect` on a last run that lies in the future
            (now.durationSince lastRun).map fun sinceLastRun =>
              some (.intervalDelayed interval (interval - sinceLastRun))
    | .cron text =>
        (parsers.parseCron text).map fun cron => some (.cron cron lastRun.isNone false)
  else some none

/-- A valid schedule, and no other, has a task schedule. -/
theorem getTaskSchedule_eq_some {parsers : ScheduleParsers Cron} {trigger : ScheduleTrigger}
    {lastRun : Option SystemTime} {now : SystemTime} {schedule : Option (TaskSchedule Cron)}
    (h : trigger.getTaskSchedule parsers lastRun now = some schedule) :
    schedule.isSome = trigger.schedule.isValid parsers := by
  unfold getTaskSchedule at h
  split at h
  · rename_i hvalid
    rw [hvalid]
    split at h
    · rename_i text hschedule
      rw [hschedule, TriggerSchedule.isValid] at hvalid
      split at h
      · simp_all
      · cases h
        rfl
      · obtain ⟨_, -, rfl⟩ := Option.map_eq_some_iff.mp h
        rfl
    · obtain ⟨_, -, rfl⟩ := Option.map_eq_some_iff.mp h
      rfl
  · rename_i hinvalid
    cases h
    simpa using hinvalid

end ScheduleTrigger

/-! ## The controller -/

/-- A task in the leader's scheduler, with the trigger it was created for. -/
structure LiveTask (Cron : Type) where
  key : String
  schedule : TriggerSchedule
  taskSchedule : TaskSchedule Cron

/-- A call of the controller for one trigger. -/
inductive CallKind
  | reconcile | cleanup
  deriving DecidableEq, Repr

/-- How a call ended. -/
inductive CallResult
  | ok | err | panicked
  deriving DecidableEq, Repr

/-- A call that has ended. -/
structure Return where
  kind : CallKind
  trigger : ScheduleTrigger
  result : CallResult

/-- Where a call stands between its locks: `reconcile` has found another
schedule than its own, `cleanup` has found the schedule, is past that half, or
has found the task. -/
inductive CallPhase
  | rebuilding | removingSchedule | checkingTask | removingTask
  deriving DecidableEq, Repr

/-- A call in progress. -/
structure CallInProgress where
  trigger : ScheduleTrigger
  phase : CallPhase

/-- The identity of a trigger: its namespace and name. -/
abbrev TriggerId := String × String

def Trigger.id (trigger : Trigger) : TriggerId := (trigger.ns, trigger.name)

/-- The leader's state: the two maps of `TriggersState`, the tasks living in the
scheduler with the next fresh id, and the calls in progress.  `failed` and
`returns` are history: whether the last rebuild for a key failed, and the calls
that have ended, newest first. -/
structure Controller (Cron : Type) where
  tasks : HashMap String ℕ
  schedules : HashMap String TriggerSchedule
  live : HashMap ℕ (LiveTask Cron)
  nextId : ℕ
  calls : HashMap TriggerId CallInProgress
  failed : String → Bool
  returns : List Return

/-- What the surroundings decide during a rebuild: whether cancelling, adding,
publishing and the status update succeed, and what the clock says. -/
structure RebuildOutcome where
  now : SystemTime
  cancelled : Bool
  added : Bool
  published : Bool
  updated : Bool

/-- The steps: a call starts with its first look at the maps, a rebuild happens
under one lock, and a cleanup goes on to its next lock. -/
inductive ControllerAction
  | reconcile (trigger : ScheduleTrigger)
  | rebuild (id : TriggerId) (outcome : RebuildOutcome)
  | cleanup (trigger : ScheduleTrigger)
  | proceed (id : TriggerId) (cancelled : Bool)

/-- The trigger a step belongs to. -/
def ControllerAction.target : ControllerAction → TriggerId
  | .reconcile trigger | .cleanup trigger => trigger.id
  | .rebuild id _ | .proceed id _ => id

namespace Controller

/-- The leader starts with nothing. -/
def start : Controller Cron where
  tasks := ∅
  schedules := ∅
  live := ∅
  nextId := 0
  calls := ∅
  failed _ := false
  returns := []

/-- Take the task of a key out of the map and cancel it; an error of the
scheduler is only logged. -/
def cancelTask (s : Controller Cron) (key : String) (cancelled : Bool) : Controller Cron :=
  match s.tasks.get key with
  | some id =>
      { s with
        tasks := s.tasks.remove key
        live := if cancelled then s.live.remove id else s.live }
  | none => s

/-- Add a task to the scheduler and to the map. -/
def addTask (s : Controller Cron) (task : LiveTask Cron) : Controller Cron :=
  { s with
    live := s.live.insert s.nextId task
    tasks := s.tasks.insert task.key s.nextId
    nextId := s.nextId + 1 }

/-- The status update that ends a rebuild, and the record of the schedule behind
it. -/
def recordSchedule (s : Controller Cron) (trigger : ScheduleTrigger) (updated : Bool) :
    Controller Cron × CallResult :=
  if updated then
    ({ s with schedules := s.schedules.insert trigger.triggerHashKey trigger.schedule }, .ok)
  else (s, .err)

variable (chrono : Rfc3339.Codec) (parsers : ScheduleParsers Cron)

/-- The part of `reconcile` under the write lock. -/
def rebuild (s : Controller Cron) (trigger : ScheduleTrigger) (outcome : RebuildOutcome) :
    Controller Cron × CallResult :=
  let s := s.cancelTask trigger.triggerHashKey outcome.cancelled
  match decodeLastRun chrono trigger.status with
  | none => (s, .panicked)
  | some lastRun =>
      match trigger.getTaskSchedule parsers lastRun outcome.now with
      | none => (s, .panicked)
      | some (some schedule) =>
          if outcome.added then
            let task := ⟨trigger.triggerHashKey, trigger.schedule, schedule⟩
            (s.addTask task).recordSchedule trigger outcome.updated
          else (s, .err)
      | some none =>
          -- an invalid schedule is reported by an event
          if outcome.published then s.recordSchedule trigger outcome.updated else (s, .err)

/-- The call for a trigger goes on to a later phase. -/
def setCall (s : Controller Cron) (trigger : ScheduleTrigger) (phase : CallPhase) :
    Controller Cron :=
  { s with calls := s.calls.insert trigger.id ⟨trigger, phase⟩ }

/-- The call for a trigger ends. -/
def endCall (s : Controller Cron) (kind : CallKind) (trigger : ScheduleTrigger)
    (result : CallResult) : Controller Cron :=
  { s with
    calls := s.calls.remove trigger.id
    returns := ⟨kind, trigger, result⟩ :: s.returns }

/-- The second half of `cleanup` looks for the task. -/
def checkTask (s : Controller Cron) (trigger : ScheduleTrigger) : Controller Cron :=
  if (s.tasks.get trigger.triggerHashKey).isSome then s.setCall trigger .removingTask
  else s.endCall .cleanup trigger .ok

/-- Perform one step; `none` if it is not possible now. -/
def step (s : Controller Cron) : ControllerAction → Option (Controller Cron)
  | .reconcile trigger =>
      if (s.calls.get trigger.id).isSome then none
      else if s.schedules.get trigger.triggerHashKey ≠ some trigger.schedule then
        some (s.setCall trigger .rebuilding)
      else some (s.endCall .reconcile trigger .ok)
  | .rebuild id outcome =>
      match s.calls.get id with
      | some ⟨trigger, .rebuilding⟩ =>
          let (t, result) := s.rebuild chrono parsers trigger outcome
          some ({ t with
            failed := Function.update t.failed trigger.triggerHashKey
              (decide (result ≠ CallResult.ok)) }.endCall .reconcile trigger result)
      | _ => none
  | .cleanup trigger =>
      if (s.calls.get trigger.id).isSome then none
      else if (s.schedules.get trigger.triggerHashKey).isSome then
        some (s.setCall trigger .removingSchedule)
      else some (s.setCall trigger .checkingTask)
  | .proceed id cancelled =>
      match s.calls.get id with
      | some ⟨trigger, .removingSchedule⟩ =>
          some ({ s with schedules := s.schedules.remove trigger.triggerHashKey }.setCall
            trigger .checkingTask)
      | some ⟨trigger, .checkingTask⟩ => some (s.checkTask trigger)
      | some ⟨trigger, .removingTask⟩ =>
          -- the task was there a moment ago, its removal is unwrapped
          some ((s.cancelTask trigger.triggerHashKey cancelled).endCall .cleanup trigger
            (if (s.tasks.get trigger.triggerHashKey).isSome then .ok else .panicked))
      | _ => none

/-! ## Everything one step can do -/

/-- The steps of the controller with their guards. -/
inductive Transition (s : Controller Cron) : ControllerAction → Controller Cron → Prop
  | reconcile (trigger : ScheduleTrigger) (hfree : s.calls.get trigger.id = none)
      (hother : s.schedules.get trigger.triggerHashKey ≠ some trigger.schedule) :
      Transition s (.reconcile trigger) (s.setCall trigger .rebuilding)
  | skip (trigger : ScheduleTrigger) (hfree : s.calls.get trigger.id = none)
      (hsame : s.schedules.get trigger.triggerHashKey = some trigger.schedule) :
      Transition s (.reconcile trigger) (s.endCall .reconcile trigger .ok)
  | rebuild (id : TriggerId) (outcome : RebuildOutcome) (trigger : ScheduleTrigger)
      (hcall : s.calls.get id = some ⟨trigger, .rebuilding⟩) :
      Transition s (.rebuild id outcome) ({ (s.rebuild chrono parsers trigger outcome).1 with
        failed := Function.update (s.rebuild chrono parsers trigger outcome).1.failed
          trigger.triggerHashKey
          (decide ((s.rebuild chrono parsers trigger outcome).2 ≠ CallResult.ok)) }.endCall
            .reconcile trigger (s.rebuild chrono parsers trigger outcome).2)
  | cleanup (trigger : ScheduleTrigger) (hfree : s.calls.get trigger.id = none)
      (hfound : (s.schedules.get trigger.triggerHashKey).isSome = true) :
      Transition s (.cleanup trigger) (s.setCall trigger .removingSchedule)
  | cleanupUnscheduled (trigger : ScheduleTrigger) (hfree : s.calls.get trigger.id = none)
      (hmissing : s.schedules.get trigger.triggerHashKey = none) :
      Transition s (.cleanup trigger) (s.setCall trigger .checkingTask)
  | removeSchedule (id : TriggerId) (cancelled : Bool) (trigger : ScheduleTrigger)
      (hcall : s.calls.get id = some ⟨trigger, .removingSchedule⟩) :
      Transition s (.proceed id cancelled)
        ({ s with schedules := s.schedules.remove trigger.triggerHashKey }.setCall
          trigger .checkingTask)
  | checkTask (id : TriggerId) (cancelled : Bool) (trigger : ScheduleTrigger)
      (hcall : s.calls.get id = some ⟨trigger, .checkingTask⟩) :
      Transition s (.proceed id cancelled) (s.checkTask trigger)
  | removeTask (id : TriggerId) (cancelled : Bool) (trigger : ScheduleTrigger)
      (hcall : s.calls.get id = some ⟨trigger, .removingTask⟩) :
      Transition s (.proceed id cancelled)
        ((s.cancelTask trigger.triggerHashKey cancelled).endCall .cleanup trigger
          (if (s.tasks.get trigger.triggerHashKey).isSome then .ok else .panicked))

variable {chrono parsers}

/-- Every step of the controller is one of the listed transitions. -/
theorem Transition.of_step {s t : Controller Cron} {action : ControllerAction}
    (h : s.step chrono parsers action = some t) : Transition chrono parsers s action t := by
  cases action with
  | reconcile trigger =>
      simp only [step] at h
      split at h
      · cases h
      · have hfree : s.calls.get trigger.id = none := Option.not_isSome_iff_eq_none.mp ‹_›
        split at h
        · obtain rfl := Option.some.inj h
          exact .reconcile trigger hfree ‹_›
        · obtain rfl := Option.some.inj h
          exact .skip trigger hfree (not_not.mp ‹_›)
  | rebuild id outcome =>
      simp only [step] at h
      split at h
      · obtain rfl := Option.some.inj h
        exact .rebuild id outcome _ ‹_›
      · cases h
  | cleanup trigger =>
      simp only [step] at h
      split at h
      · cases h
      · have hfree : s.calls.get trigger.id = none := Option.not_isSome_iff_eq_none.mp ‹_›
        split at h
        · obtain rfl := Option.some.inj h
          exact .cleanup trigger hfree ‹_›
        · obtain rfl := Option.some.inj h
          exact .cleanupUnscheduled trigger hfree (Option.not_isSome_iff_eq_none.mp ‹_›)
  | proceed id cancelled =>
      simp only [step] at h
      split at h
      · obtain rfl := Option.some.inj h
        exact .removeSchedule id cancelled _ ‹_›
      · obtain rfl := Option.some.inj h
        exact .checkTask id cancelled _ ‹_›
      · obtain rfl := Option.some.inj h
        exact .removeTask id cancelled _ ‹_›
      · cases h

/-- Everything a rebuild can do once the old task is cancelled: give up before a
task is added, give up behind it, or go through with a valid or an invalid
schedule. -/
inductive Rebuilt (parsers : ScheduleParsers Cron) (s : Controller Cron)
    (trigger : ScheduleTrigger) : Controller Cron × CallResult → Prop
  | abandoned (result : CallResult) (hresult : result ≠ .ok) : Rebuilt parsers s trigger (s, result)
  | added (task : LiveTask Cron) (hkey : task.key = trigger.triggerHashKey)
      (hschedule : task.schedule = trigger.schedule) :
      Rebuilt parsers s trigger (s.addTask task, .err)
  | scheduled (task : LiveTask Cron) (hkey : task.key = trigger.triggerHashKey)
      (hschedule : task.schedule = trigger.schedule)
      (hvalid : trigger.schedule.isValid parsers = true) :
      Rebuilt parsers s trigger ({ s.addTask task with
        schedules := s.schedules.insert trigger.triggerHashKey trigger.schedule }, .ok)
  | disabled (hinvalid : trigger.schedule.isValid parsers = false) :
      Rebuilt parsers s trigger ({ s with
        schedules := s.schedules.insert trigger.triggerHashKey trigger.schedule }, .ok)

variable (chrono parsers) in
theorem rebuild_rebuilt (s : Controller Cron) (trigger : ScheduleTrigger)
    (outcome : RebuildOutcome) :
    Rebuilt parsers (s.cancelTask trigger.triggerHashKey outcome.cancelled) trigger
      (s.rebuild chrono parsers trigger outcome) := by
  unfold rebuild recordSchedule
  split
  · exact .abandoned _ (by decide)
  · split
    · exact .abandoned _ (by decide)
    · rename_i schedule hschedule
      have hvalid : trigger.schedule.isValid parsers = true :=
        (ScheduleTrigger.getTaskSchedule_eq_some hschedule).symm
      split
      · split
        · exact .scheduled _ rfl rfl hvalid
        · exact .added _ rfl rfl
      · exact .abandoned _ (by decide)
    · rename_i hschedule
      have hinvalid : trigger.schedule.isValid parsers = false :=
        (ScheduleTrigger.getTaskSchedule_eq_some hschedule).symm
      split
      · split
        · exact .disabled hinvalid
        · exact .abandoned _ (by decide)
      · exact .abandoned _ (by decide)

end Controller

end GitEventsRunner.Triggers
