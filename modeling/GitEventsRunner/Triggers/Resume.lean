/-
# Resuming an interval schedule

A controller that takes over schedules an interval trigger from its last run: the
first run comes one interval after the last one, or at once if that is over.  The
time of the last run was written by whoever led before, by another clock.

The code subtracts twice.  What is left of the interval is a checked subtraction
that falls back to no delay; the time since the last run is not, and there is no
such time if the last run lies ahead.
-/

import GitEventsRunner.Triggers.LiveTasks
import Mathlib.Algebra.Order.Group.Int

namespace GitEventsRunner.Triggers

open GitEventsRunner.Lib
open Controller (minuteParsers intervalTrigger)

namespace ScheduleTrigger

variable {Cron : Type}

/-- What is left of an interval that began at the last run ends when the interval
does, or at once. -/
theorem add_sub_sinceLastRun {lastRun now : ℤ} (interval : ℕ) (h : lastRun ≤ now) :
    now + (interval - (now - lastRun).toNat : ℕ) = max now (lastRun + interval) := by
  omega

/-- The task schedule of an interval trigger that has run before. -/
theorem getTaskSchedule_interval {parsers : ScheduleParsers Cron} {trigger : ScheduleTrigger}
    {text : String} {interval : Duration} (hschedule : trigger.schedule = .interval text)
    (hparse : parsers.parseInterval text = some interval) (lastRun now : SystemTime) :
    trigger.getTaskSchedule parsers (some lastRun) now =
      (now.durationSince lastRun).map fun sinceLastRun =>
        some (.intervalDelayed interval (interval - sinceLastRun)) := by
  have hvalid : trigger.schedule.isValid parsers = true := by
    rw [hschedule, TriggerSchedule.isValid, hparse]
    rfl
  rw [getTaskSchedule, if_pos hvalid, hschedule]
  simp only [hparse]

/-- The trigger is scheduled without a panic, with the interval and with the delay
after which the first run comes at its time. -/
def ResumesInterval (parsers : ScheduleParsers Cron) (trigger : ScheduleTrigger)
    (interval : Duration) (lastRun now : SystemTime) : Prop :=
  ∃ delay : Duration, trigger.getTaskSchedule parsers (some lastRun) now =
      some (some (.intervalDelayed interval delay)) ∧
    now + delay = max now (lastRun + interval)

/-- An interval schedule is resumed exactly if the last run is not ahead of the
clock. -/
theorem resumesInterval_iff_lastRun_le (parsers : ScheduleParsers Cron) (trigger : ScheduleTrigger)
    (text : String) (interval : Duration) (hschedule : trigger.schedule = .interval text)
    (hparse : parsers.parseInterval text = some interval) (lastRun now : SystemTime) :
    ResumesInterval parsers trigger interval lastRun now ↔ lastRun ≤ now := by
  rw [ResumesInterval, getTaskSchedule_interval hschedule hparse, SystemTime.durationSince]
  constructor
  · rintro ⟨delay, hsome, -⟩
    by_contra hahead
    rw [if_neg hahead] at hsome
    cases hsome
  · intro hle
    rw [if_pos hle]
    apply Exists.intro (interval - (now - lastRun).toNat)
    apply And.intro rfl
    exact add_sub_sinceLastRun interval hle

/-- Half a minute after the last run of a trigger that runs every minute. -/
theorem resumesInterval_iff_lastRun_le_minute :
    ResumesInterval minuteParsers (intervalTrigger "1m") (Duration.fromSecs 60) 0
      (30 * nanosPerSec) :=
  (resumesInterval_iff_lastRun_le minuteParsers (intervalTrigger "1m") "1m" (Duration.fromSecs 60)
    rfl rfl 0 (30 * nanosPerSec)).mpr (by decide)

/-- A last run one second ahead of the clock: the expectation that it is not ends
in a panic. -/
theorem panics_on_lastRun_ahead :
    (intervalTrigger "1m").getTaskSchedule minuteParsers (some (31 * nanosPerSec))
        (30 * nanosPerSec) = none ∧
      ¬ ResumesInterval minuteParsers (intervalTrigger "1m") (Duration.fromSecs 60)
        (31 * nanosPerSec) (30 * nanosPerSec) := by
  have hpanics : (intervalTrigger "1m").getTaskSchedule minuteParsers (some (31 * nanosPerSec))
      (30 * nanosPerSec) = none := rfl
  apply And.intro hpanics
  rintro ⟨delay, hsome, -⟩
  rw [hpanics] at hsome
  cases hsome

end ScheduleTrigger

end GitEventsRunner.Triggers
