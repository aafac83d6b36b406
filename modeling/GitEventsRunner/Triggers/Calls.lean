/-
# What the calls of the controller do

One lemma for each kind of step of `Controller`: a `reconcile` call starts a
rebuild or is over at once, a rebuild ends its call, a cleanup goes on from lock
to lock and, unless somebody else takes its task away, returns `Ok` with no entry
left for its trigger.
-/

import GitEventsRunner.Triggers.LiveTasks

namespace GitEventsRunner.Triggers

open GitEventsRunner.Lib

variable {Cron : Type} {chrono : Rfc3339.Codec} {parsers : ScheduleParsers Cron}

namespace Controller

/-- The call a step of the controller has ended, if it has ended one. -/
def ended (s t : Controller Cron) : Option Return :=
  if s.returns.length < t.returns.length then t.returns.head? else none

/-- A cleanup that has found a task finds it again: nobody else touches the key. -/
def TaskFound (s : Controller Cron) : Prop :=
  ∀ id trigger, s.calls.get id = some ⟨trigger, .removingTask⟩ →
    (s.tasks.get trigger.triggerHashKey).isSome = true

/-- A call is over: it is filed no longer and has returned. -/
structure Ends (s t : Controller Cron) (ret : Return) : Prop where
  calls : t.calls = s.calls.remove ret.trigger.id
  ended : s.ended t = some ret

/-- A call goes on in the given phase. -/
structure GoesOn (s t : Controller Cron) (trigger : ScheduleTrigger) (phase : CallPhase) :
    Prop where
  calls : t.calls = s.calls.insert trigger.id ⟨trigger, phase⟩
  tasks : t.tasks = s.tasks
  schedules : ∀ key, (t.schedules.get key).isSome = true → (s.schedules.get key).isSome = true
  ended : s.ended t = none

theorem ended_of_returns_eq {s t : Controller Cron} (h : t.returns = s.returns) :
    s.ended t = none := by
  simp [ended, h]

theorem ended_of_returns_cons {s t : Controller Cron} {ret : Return}
    (h : t.returns = ret :: s.returns) : s.ended t = some ret := by
  simp [ended, h]

theorem Rebuilt.returns_eq {s : Controller Cron} {trigger : ScheduleTrigger}
    {r : Controller Cron × CallResult} (hrebuilt : Rebuilt parsers s trigger r) :
    r.1.returns = s.returns := by
  cases hrebuilt <;> rfl

/-- A `reconcile` call starts a rebuild or is over at once. -/
theorem step_reconcile {s t : Controller Cron} {trigger : ScheduleTrigger}
    (h : s.step chrono parsers (.reconcile trigger) = some t) :
    GoesOn s t trigger .rebuilding ∨
      (Ends s t ⟨.reconcile, trigger, .ok⟩ ∧ t.tasks = s.tasks ∧ t.schedules = s.schedules) := by
  cases Transition.of_step h with
  | reconcile => exact Or.inl ⟨rfl, rfl, fun _ => id, ended_of_returns_eq rfl⟩
  | skip => exact Or.inr ⟨⟨rfl, ended_of_returns_cons rfl⟩, rfl, rfl⟩

/-- A `cleanup` call starts at its first or its second half. -/
theorem step_cleanup {s t : Controller Cron} {trigger : ScheduleTrigger}
    (h : s.step chrono parsers (.cleanup trigger) = some t) :
    ∃ phase, phase ≠ .rebuilding ∧ phase ≠ .removingTask ∧ GoesOn s t trigger phase := by
  cases Transition.of_step h with
  | cleanup =>
      exact ⟨.removingSchedule, by decide, by decide, rfl, rfl, fun _ => id,
        ended_of_returns_eq rfl⟩
  | cleanupUnscheduled =>
      exact ⟨.checkingTask, by decide, by decide, rfl, rfl, fun _ => id, ended_of_returns_eq rfl⟩

/-- A rebuild ends its call. -/
theorem step_rebuild {s t : Controller Cron} {id : TriggerId} {outcome : RebuildOutcome}
    (h : s.step chrono parsers (.rebuild id outcome) = some t) :
    ∃ trigger result, s.calls.get id = some ⟨trigger, .rebuilding⟩ ∧
      Ends s t ⟨.reconcile, trigger, result⟩ := by
  cases Transition.of_step h with
  | rebuild id outcome trigger hcall =>
      have hrebuilt := rebuild_rebuilt chrono parsers s trigger outcome
      refine ⟨trigger, (s.rebuild chrono parsers trigger outcome).2, hcall, ?_,
        ended_of_returns_cons ?_⟩
      · show (s.rebuild chrono parsers trigger outcome).1.calls.remove trigger.id = _
        rw [hrebuilt.calls_eq, cancelTask_calls]
      · show _ :: (s.rebuild chrono parsers trigger outcome).1.returns = _
        rw [hrebuilt.returns_eq, cancelTask_returns]

/-- A cleanup goes on to its next lock, or returns `Ok` with nothing left of its
trigger. -/
theorem step_proceed {s t : Controller Cron} (hsound : s.Sound) (hfound : s.TaskFound)
    {id : TriggerId} {cancelled : Bool}
    (h : s.step chrono parsers (.proceed id cancelled) = some t) :
    ∃ trigger phase, s.calls.get id = some ⟨trigger, phase⟩ ∧ phase ≠ .rebuilding ∧
      ((∃ next, next ≠ .rebuilding ∧ GoesOn s t trigger next ∧
          (next = .removingTask → (s.tasks.get trigger.triggerHashKey).isSome = true)) ∨
        (Ends s t ⟨.cleanup, trigger, .ok⟩ ∧ t.tasks.get trigger.triggerHashKey = none ∧
          t.schedules.get trigger.triggerHashKey = none)) := by
  cases Transition.of_step h with
  | removeSchedule id cancelled trigger hcall =>
      refine ⟨trigger, _, hcall, by decide, Or.inl ⟨.checkingTask, by decide, ?_, nofun⟩⟩
      refine ⟨rfl, rfl, ?_, ended_of_returns_eq rfl⟩
      intro key hkey
      change ((s.schedules.remove trigger.triggerHashKey).get key).isSome = true at hkey
      rw [HashMap.get_remove] at hkey
      split at hkey
      · cases hkey
      · exact hkey
  | checkTask id cancelled trigger hcall =>
      refine ⟨trigger, _, hcall, by decide, ?_⟩
      have hnone := hsound.orderly.unscheduled id trigger _ hcall (Or.inl rfl)
      unfold checkTask
      split
      · rename_i htask
        exact Or.inl ⟨.removingTask, by decide,
          ⟨rfl, rfl, fun _ hkey => hkey, ended_of_returns_eq rfl⟩, fun _ => htask⟩
      · rename_i htask
        exact Or.inr ⟨⟨rfl, ended_of_returns_cons rfl⟩,
          Option.not_isSome_iff_eq_none.mp htask, hnone⟩
  | removeTask id cancelled trigger hcall =>
      refine ⟨trigger, _, hcall, by decide, Or.inr ?_⟩
      have htask := hfound id trigger hcall
      have hnone := hsound.orderly.unscheduled id trigger _ hcall (Or.inr rfl)
      rw [if_pos htask]
      refine ⟨⟨?_, ended_of_returns_cons ?_⟩, ?_, ?_⟩
      · show (s.cancelTask _ _).calls.remove trigger.id = _
        rw [cancelTask_calls]
      · show _ :: (s.cancelTask _ _).returns = _
        rw [cancelTask_returns]
      · exact get_tasks_cancelTask_self s trigger.triggerHashKey cancelled
      · show (s.cancelTask _ _).schedules.get _ = none
        rw [cancelTask_schedules]
        exact hnone

end Controller

end GitEventsRunner.Triggers
