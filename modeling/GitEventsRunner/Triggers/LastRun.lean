/-
# Reading `lastRun` back

`update_trigger_status` writes `lastRun` as the word `Never` or as an RFC 3339
timestamp, and `ScheduleTrigger::reconcile` reads it when it has to build the
task of a trigger again.  The reader keeps the wrong half: it passes `Never` to
the timestamp parser and drops every timestamp.  So of all the statuses that can
be written it reads only the missing one correctly.
-/

import GitEventsRunner.Triggers.Types

namespace GitEventsRunner.Triggers

open GitEventsRunner.Lib

variable (chrono : Rfc3339.Codec)

/-- The `last_run` that `reconcile` hands to `get_task_schedule`; `none` is the
panic of the `expect` behind the parser. -/
def decodeLastRun (status : Option TriggerStatus) : Option (Option SystemTime) :=
  match status with
  | some status =>
      match status.lastRun.filter fun lastRun => lastRun = neverLastRunStr with
      | some lastRun => (chrono.parse lastRun).map some
      | none => some none
  | none => some none

/-- The statuses that sequences of `update_trigger_status` calls can write, each
found in the cache by a later call, with the last instant given as `last_run`. -/
inductive Written : Option TriggerStatus → Option SystemTime → Prop
  | absent : Written none none
  | update (trigger : Trigger) (written : Option SystemTime) (update : StatusUpdate)
      (h : Written trigger.status written) :
      Written (some (trigger.newStatus chrono update)) (update.lastRun.or written)

/-- The text of the `lastRun` field for the last instant given. -/
def encodeLastRun : Option SystemTime → String
  | some lastRun => chrono.format lastRun
  | none => neverLastRunStr

variable {chrono}

/-- Every written status carries the text of the last instant given. -/
theorem Written.lastRun_eq {status : TriggerStatus} {written : Option SystemTime}
    (h : Written chrono (some status) written) :
    status.lastRun = some (encodeLastRun chrono written) := by
  generalize hstatus : some status = found at h
  induction h generalizing status with
  | absent => cases hstatus
  | update trigger written update h ih =>
      obtain rfl := Option.some.inj hstatus
      unfold Trigger.newStatus
      cases hfound : trigger.status with
      | none =>
          rw [hfound] at h
          cases h
          cases hlast : update.lastRun <;> rfl
      | some previous =>
          cases hlast : update.lastRun with
          | some lastRun => rfl
          | none =>
              have hprevious : previous.lastRun = _ := ih hfound.symm
              exact hprevious

theorem never_head {c : Char} {rest : List Char} (h : neverLastRunStr.toList = c :: rest) :
    c = 'N' := by
  have hlist : neverLastRunStr.toList = ['N', 'e', 'v', 'e', 'r'] := by decide
  rw [hlist] at h
  exact (List.cons.inj h).1.symm

theorem format_ne_never (lastRun : SystemTime) : chrono.format lastRun ≠ neverLastRunStr := by
  intro heq
  obtain ⟨c, rest, hhead, hc⟩ := chrono.format_head lastRun
  rw [heq] at hhead
  rw [never_head hhead] at hc
  revert hc
  decide

theorem parse_never : chrono.parse neverLastRunStr = none := by
  cases hparse : chrono.parse neverLastRunStr with
  | none => rfl
  | some t =>
      obtain ⟨c, rest, hhead, hc⟩ := chrono.parse_head _ t hparse
      rw [never_head hhead] at hc
      exact absurd hc (by decide)

/-- What the reader does with a written status: it panics on `Never` and forgets
every timestamp. -/
theorem decodeLastRun_written {status : TriggerStatus} {written : Option SystemTime}
    (h : Written chrono (some status) written) :
    decodeLastRun chrono (some status) = if written.isSome then some none else none := by
  rw [decodeLastRun, h.lastRun_eq]
  cases written with
  | none =>
      have hkept : (some neverLastRunStr).filter (fun lastRun => lastRun = neverLastRunStr) =
          some neverLastRunStr := by simp [Option.filter]
      simp only [encodeLastRun, hkept, parse_never]
      rfl
  | some lastRun =>
      have hdropped : (some (chrono.format lastRun)).filter
          (fun lastRun => lastRun = neverLastRunStr) = none := by
        simp [Option.filter, format_ne_never]
      simp only [encodeLastRun, hdropped]
      rfl

/-- Of all the statuses that can be written, the reader gets back the instant
that was written, or none if there was none, exactly for the trigger that has no
status yet. -/
theorem decodeLastRun_eq_iff_absent {status : Option TriggerStatus}
    {written : Option SystemTime} (h : Written chrono status written) :
    decodeLastRun chrono status = some (written.map SystemTime.truncate) ↔ status = none := by
  cases status with
  | none =>
      cases h
      exact iff_of_true rfl rfl
  | some status =>
      rw [decodeLastRun_written h]
      cases written with
      | none => simp
      | some lastRun => simp

/-- A trigger that has never run and has no status. -/
def freshTrigger : Trigger where
  kind := .scheduleTrigger
  ns := "default"
  name := "trigger"
  sources := { names := ["source"] }
  action := { name := "action" }
  ns_plain := Trigger.default_ns_plain

theorem decodeLastRun_eq_iff_absent_freshTrigger :
    decodeLastRun Rfc3339.standard freshTrigger.status = some none :=
  (decodeLastRun_eq_iff_absent (.absent : Written Rfc3339.standard none none)).mpr rfl

/-- The first update writes `Never`, on which the reader panics; after a run at
`2024-02-29T12:34:56Z` the reader says that there was none. -/
theorem decodeLastRun_wrong_after_update :
    Written Rfc3339.standard (some (freshTrigger.newStatus Rfc3339.standard {})) none ∧
    decodeLastRun Rfc3339.standard (some (freshTrigger.newStatus Rfc3339.standard {})) = none ∧
    Written Rfc3339.standard (some (freshTrigger.newStatus Rfc3339.standard
      { lastRun := some 1709210096000000000 })) (some 1709210096000000000) ∧
    decodeLastRun Rfc3339.standard (some (freshTrigger.newStatus Rfc3339.standard
      { lastRun := some 1709210096000000000 })) = some none := by
  refine ⟨.update freshTrigger none {} .absent, by decide, ?_, by decide⟩
  exact .update freshTrigger none { lastRun := some 1709210096000000000 } .absent

end GitEventsRunner.Triggers
