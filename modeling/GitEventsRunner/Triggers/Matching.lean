/-
# Does the running task match the spec?

A `reconcile` that returns `Ok` promises that the live task of its trigger was
created with the trigger's schedule, or that there is none if the schedule is
invalid.  A rebuild keeps the promise whenever it gets to its end.  The other way
to return `Ok` is to find the schedule already recorded, and there the promise
hangs on the rebuilds before: one that fails half-way has cancelled the old task
and perhaps added a new one, but the record still names the old schedule.  If the
spec then goes back to that schedule, nothing is done.
-/

import GitEventsRunner.Triggers.LiveTasks

namespace GitEventsRunner.Triggers

open GitEventsRunner.Lib

variable {Cron : Type}

namespace Controller

variable {chrono : Rfc3339.Codec} (parsers : ScheduleParsers Cron)

/-- The live task of a key was created with the given schedule, or there is none
if the schedule is invalid. -/
def Holds (s : Controller Cron) (key : String) (schedule : TriggerSchedule) : Prop :=
  if schedule.isValid parsers then
    ∃ id task, s.tasks.get key = some id ∧ s.live.get id = some task ∧ task.schedule = schedule
  else s.tasks.get key = none ∧ ∀ id task, s.live.get id = some task → task.key ≠ key

/-- A `reconcile` that returns `Ok` leaves the task its trigger asks for. -/
def MatchesOnOk (s : Controller Cron) (_ : ControllerAction) (t : Controller Cron) : Prop :=
  ∀ trigger, t.returns = ⟨.reconcile, trigger, .ok⟩ :: s.returns →
    t.Holds parsers trigger.triggerHashKey trigger.schedule

/-- A `reconcile` finds its schedule recorded only if the last rebuild for its
key did not fail, or if the schedule is invalid and no task is stored. -/
def SkipsWhenBuilt (s : Controller Cron) (action : ControllerAction) (_ : Controller Cron) :
    Prop :=
  ∀ trigger, action = .reconcile trigger →
    s.schedules.get trigger.triggerHashKey = some trigger.schedule →
      s.failed trigger.triggerHashKey = false ∨
        (trigger.schedule.isValid parsers = false ∧
          s.tasks.get trigger.triggerHashKey = none)

/-- What a recorded schedule says: behind a completed rebuild the task matches
it, behind a failed one the task, if there is one, does not. -/
structure Reflected (s : Controller Cron) : Prop where
  built : ∀ key schedule, s.schedules.get key = some schedule → s.failed key = false →
    s.Holds parsers key schedule
  broken : ∀ key schedule, s.schedules.get key = some schedule → s.failed key = true →
    ∀ id task, s.tasks.get key = some id → s.live.get id = some task → task.schedule ≠ schedule

variable {parsers}

theorem start_reflected : (start : Controller Cron).Reflected parsers := by
  constructor
  · simp [start]
  · simp [start]

/-- Recorded schedules of other keys keep their meaning. -/
theorem Reflected.of_frame {s t : Controller Cron} (h : s.Reflected parsers) (hs : s.Tied)
    (ht : t.Tied) (key : String) (hframe : Frame key s t)
    (hbuilt : ∀ schedule, t.schedules.get key = some schedule → t.failed key = false →
      t.Holds parsers key schedule)
    (hbroken : ∀ schedule, t.schedules.get key = some schedule → t.failed key = true →
      ∀ id task, t.tasks.get key = some id → t.live.get id = some task →
        task.schedule ≠ schedule) : t.Reflected parsers := by
  constructor
  · intro k schedule hget hfailed
    by_cases hk : k = key
    · subst hk
      exact hbuilt schedule hget hfailed
    · rw [hframe.schedules k hk] at hget
      rw [hframe.failed k hk] at hfailed
      have hold := h.built k schedule hget hfailed
      unfold Holds at hold ⊢
      rw [hframe.tasks k hk]
      split at hold
      · rw [if_pos ‹_›]
        obtain ⟨id, task, htask, hlive, hschedule⟩ := hold
        have hother : task.key ≠ key := by rwa [hs.live_key htask hlive]
        exact ⟨id, task, htask, (hframe.live id task hother).mpr hlive, hschedule⟩
      · rw [if_neg ‹_›]
        have hnone : t.tasks.get k = none := by rw [hframe.tasks k hk, hold.1]
        exact ⟨hold.1, ht.no_live hnone⟩
  · intro k schedule hget hfailed id task htask hlive
    by_cases hk : k = key
    · subst hk
      exact hbroken schedule hget hfailed id task htask hlive
    · have hother : task.key ≠ key := by rwa [ht.live_key htask hlive]
      rw [hframe.schedules k hk] at hget
      rw [hframe.failed k hk] at hfailed
      rw [hframe.tasks k hk] at htask
      rw [hframe.live id task hother] at hlive
      exact h.broken k schedule hget hfailed id task htask hlive

/-- A rebuild that gets to its end leaves the task its trigger asks for. -/
theorem Rebuilt.holds {s : Controller Cron} (h : s.Tied) {trigger : ScheduleTrigger}
    (hnone : s.tasks.get trigger.triggerHashKey = none) {r : Controller Cron × CallResult}
    (hrebuilt : Rebuilt parsers s trigger r) (hok : r.2 = .ok) :
    r.1.Holds parsers trigger.triggerHashKey trigger.schedule := by
  unfold Holds
  cases hrebuilt with
  | abandoned result hresult => exact absurd hok hresult
  | added task hkey hschedule => cases hok
  | scheduled task hkey hschedule hvalid =>
      rw [if_pos hvalid]
      refine ⟨s.nextId, task, ?_, HashMap.get_insert_self _ _ _, hschedule⟩
      rw [← hkey]
      exact HashMap.get_insert_self _ _ _
  | disabled hinvalid =>
      rw [if_neg (by simp [hinvalid])]
      exact ⟨hnone, h.no_live hnone⟩

/-- A rebuild that fails leaves no task that matches another schedule. -/
theorem Rebuilt.mismatch {s : Controller Cron} {trigger : ScheduleTrigger}
    (hnone : s.tasks.get trigger.triggerHashKey = none) {r : Controller Cron × CallResult}
    (hrebuilt : Rebuilt parsers s trigger r) (herr : r.2 ≠ .ok) {schedule : TriggerSchedule}
    (hother : schedule ≠ trigger.schedule) {id : ℕ} {task : LiveTask Cron}
    (htask : r.1.tasks.get trigger.triggerHashKey = some id)
    (hlive : r.1.live.get id = some task) : task.schedule ≠ schedule := by
  cases hrebuilt with
  | abandoned result hresult =>
      rw [hnone] at htask
      cases htask
  | added new hkey hschedule =>
      have hid : id = s.nextId := by
        rw [← hkey] at htask
        exact (Option.some.inj ((HashMap.get_insert_self _ _ _).symm.trans htask)).symm
      subst hid
      have hsame : new = task :=
        Option.some.inj ((HashMap.get_insert_self _ _ _).symm.trans hlive)
      rw [← hsame, hschedule]
      exact hother.symm
  | scheduled task hkey hschedule hvalid => exact absurd rfl herr
  | disabled hinvalid => exact absurd rfl herr

/-! ## Steps and runs -/

theorem Rebuilt.schedules_of_ne_ok {s : Controller Cron} {trigger : ScheduleTrigger}
    {r : Controller Cron × CallResult} (hrebuilt : Rebuilt parsers s trigger r)
    (herr : r.2 ≠ .ok) : r.1.schedules = s.schedules := by
  cases hrebuilt with
  | abandoned result hresult => rfl
  | added task hkey hschedule => rfl
  | scheduled task hkey hschedule hvalid => exact absurd rfl herr
  | disabled hinvalid => exact absurd rfl herr

theorem Rebuilt.schedules_of_ok {s : Controller Cron} {trigger : ScheduleTrigger}
    {r : Controller Cron × CallResult} (hrebuilt : Rebuilt parsers s trigger r)
    (hok : r.2 = .ok) :
    r.1.schedules.get trigger.triggerHashKey = some trigger.schedule := by
  cases hrebuilt with
  | abandoned result hresult => exact absurd hok hresult
  | added task hkey hschedule => cases hok
  | scheduled task hkey hschedule hvalid => exact HashMap.get_insert_self _ _ _
  | disabled hinvalid => exact HashMap.get_insert_self _ _ _

/-- Every step keeps the meaning of the recorded schedules. -/
theorem Reflected.step {s t : Controller Cron} {action : ControllerAction}
    (h : s.Reflected parsers) (hsound : s.Sound)
    (hstep : s.step chrono parsers action = some t) (hcancel : CancelsSucceed s action t) :
    t.Reflected parsers := by
  have htied : t.Tied := (hsound.step hstep hcancel).tied
  have hframe {trigger : ScheduleTrigger} : trigger.id = action.target →
      Frame trigger.triggerHashKey s t := hsound.frame_of_id hstep hcancel
  cases Transition.of_step hstep with
  | reconcile | skip | cleanup | cleanupUnscheduled => exact ⟨h.built, h.broken⟩
  | rebuild id outcome trigger hcall =>
      have hother := hsound.orderly.rebuilding id trigger hcall
      have hrebuilt := rebuild_rebuilt chrono parsers s trigger outcome
      have hnone := get_tasks_cancelTask_self s trigger.triggerHashKey outcome.cancelled
      have hs₀ : (s.cancelTask trigger.triggerHashKey outcome.cancelled).Tied := by
        have hsuccess : outcome.cancelled = true := hcancel
        rw [hsuccess]
        exact hsound.tied.cancelTask _
      have hframe := hframe (hsound.orderly.filed id _ hcall)
      generalize s.rebuild chrono parsers trigger outcome = r at hrebuilt hframe htied ⊢
      apply h.of_frame hsound.tied htied trigger.triggerHashKey hframe
      · intro schedule hget hfailed
        have hok : r.2 = .ok := by simpa [endCall] using hfailed
        have hschedule : schedule = trigger.schedule :=
          Option.some.inj (hget.symm.trans (hrebuilt.schedules_of_ok hok))
        rw [hschedule]
        exact hrebuilt.holds hs₀ hnone hok
      · intro schedule hget hfailed liveId task htask hlive
        have herr : r.2 ≠ .ok := by simpa [endCall] using hfailed
        refine hrebuilt.mismatch hnone herr ?_ htask hlive
        intro hsame
        apply hother
        rw [← hsame, ← hget]
        show _ = r.1.schedules.get _
        rw [hrebuilt.schedules_of_ne_ok herr, cancelTask_schedules]
  | removeSchedule id cancelled trigger hcall =>
      have hgone : (s.schedules.remove trigger.triggerHashKey).get trigger.triggerHashKey =
          none := HashMap.get_remove_self _ _
      apply h.of_frame hsound.tied htied _ (hframe (hsound.orderly.filed id _ hcall))
      · intro schedule hget
        cases hgone.symm.trans hget
      · intro schedule hget
        cases hgone.symm.trans hget
  | checkTask id cancelled trigger hcall =>
      unfold checkTask
      split
      · exact ⟨h.built, h.broken⟩
      · exact ⟨h.built, h.broken⟩
  | removeTask id cancelled trigger hcall =>
      have hsuccess : cancelled = true := hcancel
      subst hsuccess
      have hgone : (s.cancelTask trigger.triggerHashKey true).schedules.get
          trigger.triggerHashKey = none := by
        rw [cancelTask_schedules]
        exact hsound.orderly.unscheduled id trigger _ hcall (Or.inr rfl)
      apply h.of_frame hsound.tied htied _ (hframe (hsound.orderly.filed id _ hcall))
      · intro schedule hget
        cases hgone.symm.trans hget
      · intro schedule hget
        cases hgone.symm.trans hget

/-- A recorded schedule matches exactly if the last rebuild completed, or if the
schedule is invalid and no task is stored. -/
theorem Reflected.holds_iff {s : Controller Cron} (h : s.Reflected parsers) (htied : s.Tied)
    {key : String} {schedule : TriggerSchedule} (hget : s.schedules.get key = some schedule) :
    s.Holds parsers key schedule ↔ s.failed key = false ∨
      (schedule.isValid parsers = false ∧ s.tasks.get key = none) := by
  constructor
  · intro hholds
    cases hfailed : s.failed key with
    | false => exact Or.inl rfl
    | true =>
        unfold Holds at hholds
        split at hholds
        · obtain ⟨id, task, htask, hlive, hschedule⟩ := hholds
          exact absurd hschedule (h.broken key schedule hget hfailed id task htask hlive)
        · exact Or.inr ⟨Bool.eq_false_of_not_eq_true ‹_›, hholds.1⟩
  · intro hcases
    rcases hcases with hfailed | ⟨hinvalid, hnone⟩
    · exact h.built key schedule hget hfailed
    · unfold Holds
      rw [if_neg (by simp [hinvalid])]
      exact ⟨hnone, htied.no_live hnone⟩

/-- One step breaks the promise exactly if it skips behind a failed rebuild. -/
theorem Reflected.matchesOnOk_iff {s t : Controller Cron} {action : ControllerAction}
    (h : s.Reflected parsers) (hsound : s.Sound)
    (hstep : s.step chrono parsers action = some t) (hcancel : CancelsSucceed s action t) :
    MatchesOnOk parsers s action t ↔ SkipsWhenBuilt parsers s action t := by
  cases Transition.of_step hstep with
  | skip trigger hfree hsame =>
      have hiff := h.holds_iff hsound.tied hsame
      constructor
      · intro hmatches other hother _
        cases hother
        exact hiff.mp (hmatches trigger rfl)
      · intro hskips other hreturn
        cases hreturn
        exact hiff.mpr (hskips trigger rfl hsame)
  | reconcile trigger hfree hother =>
      apply iff_of_true
      · intro other hreturn
        exact absurd hreturn.symm (List.cons_ne_self _ _)
      · intro other heq hsame
        cases heq
        exact absurd hsame hother
  | rebuild id outcome trigger hcall =>
      apply iff_of_true
      · intro other hreturn
        have hrebuilt := rebuild_rebuilt chrono parsers s trigger outcome
        have hnone := get_tasks_cancelTask_self s trigger.triggerHashKey outcome.cancelled
        have hsuccess : outcome.cancelled = true := hcancel
        rw [hsuccess] at hrebuilt hnone
        simp only [endCall, List.cons.injEq, Return.mk.injEq, true_and] at hreturn
        obtain ⟨⟨rfl, hok⟩, -⟩ := hreturn
        exact hrebuilt.holds (hsound.tied.cancelTask _) hnone hok
      · intro other heq
        cases heq
  | cleanup | cleanupUnscheduled | removeSchedule =>
      apply iff_of_true
      · intro other hreturn
        exact absurd hreturn.symm (List.cons_ne_self _ _)
      · intro other heq
        cases heq
  | checkTask id cancelled trigger hcall =>
      apply iff_of_true
      · intro other hreturn
        unfold checkTask at hreturn
        split at hreturn
        · exact absurd hreturn.symm (List.cons_ne_self _ _)
        · cases hreturn
      · intro other heq
        cases heq
  | removeTask id cancelled trigger hcall =>
      apply iff_of_true
      · intro other hreturn
        simp [endCall] at hreturn
      · intro other heq
        cases heq

/-- In every history of reconcile and cleanup calls with successful
cancellations: each `reconcile` that returns `Ok` leaves the task its trigger
asks for, exactly if none finds its schedule recorded behind a failed rebuild,
other than an invalid schedule without a task. -/
theorem matches_on_ok_iff (chrono : Rfc3339.Codec) (parsers : ScheduleParsers Cron)
    (actions : List ControllerAction)
    (hcancel : Along (step chrono parsers) CancelsSucceed start actions) :
    Along (step chrono parsers) (MatchesOnOk parsers) start actions ↔
      Along (step chrono parsers) (SkipsWhenBuilt parsers) start actions := by
  apply along_iff_of_along (fun s => s.Sound ∧ s.Reflected parsers) ?_ ?_
    ⟨start_sound, start_reflected⟩ hcancel
  · intro s action t hstep hs hc
    exact hs.2.matchesOnOk_iff hs.1 hstep hc
  · intro s action t hstep hs hc _
    exact ⟨hs.1.step hstep hc, hs.2.step hs.1 hstep hc⟩

/-- The schedule goes from one minute to five and back. -/
def backAndForth (outcome : RebuildOutcome) : List ControllerAction :=
  [.reconcile (intervalTrigger "1m"), .rebuild ("default", "trigger") smooth,
    .reconcile (intervalTrigger "5m"), .rebuild ("default", "trigger") outcome,
    .reconcile (intervalTrigger "1m")]

theorem matches_on_ok_iff_backAndForth :
    Along (step Rfc3339.standard minuteParsers) CancelsSucceed start (backAndForth smooth) ∧
    (Along (step Rfc3339.standard minuteParsers) (MatchesOnOk minuteParsers) start
        (backAndForth smooth) ↔
      Along (step Rfc3339.standard minuteParsers) (SkipsWhenBuilt minuteParsers) start
        (backAndForth smooth)) := by
  have hcancel : Along (step Rfc3339.standard minuteParsers) CancelsSucceed start
      (backAndForth smooth) := by decide +kernel
  exact ⟨hcancel, matches_on_ok_iff Rfc3339.standard minuteParsers (backAndForth smooth) hcancel⟩

/-- The rebuild for five minutes fails to add its task; the schedule goes back to
one minute, `reconcile` returns `Ok`, and there is no task at all. -/
theorem ok_without_task_after_failed_rebuild :
    (run (step Rfc3339.standard minuteParsers) start
        (backAndForth { smooth with added := false })).map
      (fun s => (s.returns.map fun r => (r.kind, r.trigger.schedule, r.result),
        s.tasks.get (intervalTrigger "1m").triggerHashKey, (s.live.get 0).isSome)) =
      some ([(.reconcile, .interval "1m", .ok), (.reconcile, .interval "5m", .err),
        (.reconcile, .interval "1m", .ok)], none, false) ∧
    (intervalTrigger "1m").schedule.isValid minuteParsers = true := by
  decide +kernel

end Controller

end GitEventsRunner.Triggers
