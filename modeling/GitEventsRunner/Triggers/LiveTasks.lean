/-
# No orphaned and no duplicated schedule tasks

Whatever fails inside `reconcile` and however the calls for different triggers
interleave, the tasks living in the leader's scheduler are exactly the values of
the map of tasks, each stored under the key of the trigger it was created for.
A call keeps to the key of its own trigger, and after `cleanup` neither map has
an entry for it.
-/

import GitEventsRunner.Triggers.Reconcile

namespace GitEventsRunner.Triggers

open GitEventsRunner.Lib

variable {Cron : Type}

namespace Controller

variable {chrono : Rfc3339.Codec} {parsers : ScheduleParsers Cron}

/-! ## Tasks and their owners -/

/-- The map of tasks and the scheduler are tied: a task id is stored under a key
exactly if it lives and was created for that key, and the next id is fresh. -/
structure Tied (s : Controller Cron) : Prop where
  owner : ∀ key id, s.tasks.get key = some id ↔
    ∃ task, s.live.get id = some task ∧ task.key = key
  fresh : ∀ id task, s.live.get id = some task → id < s.nextId

/-- No task stored means no task alive. -/
theorem Tied.no_live {s : Controller Cron} (h : s.Tied) {key : String}
    (hnone : s.tasks.get key = none) (id : ℕ) (task : LiveTask Cron)
    (hlive : s.live.get id = some task) : task.key ≠ key := by
  intro hkey
  have hget := (h.owner key id).mpr ⟨task, hlive, hkey⟩
  rw [hnone] at hget
  cases hget

theorem Tied.live_key {s : Controller Cron} (h : s.Tied) {key : String} {id : ℕ}
    {task : LiveTask Cron} (hget : s.tasks.get key = some id)
    (hlive : s.live.get id = some task) : task.key = key := by
  obtain ⟨other, hother, hkey⟩ := (h.owner key id).mp hget
  rw [← Option.some.inj (hother.symm.trans hlive)]
  exact hkey

@[simp]
theorem cancelTask_schedules (s : Controller Cron) (key : String) (cancelled : Bool) :
    (s.cancelTask key cancelled).schedules = s.schedules := by
  unfold cancelTask
  split <;> rfl

@[simp]
theorem cancelTask_nextId (s : Controller Cron) (key : String) (cancelled : Bool) :
    (s.cancelTask key cancelled).nextId = s.nextId := by
  unfold cancelTask
  split <;> rfl

@[simp]
theorem cancelTask_calls (s : Controller Cron) (key : String) (cancelled : Bool) :
    (s.cancelTask key cancelled).calls = s.calls := by
  unfold cancelTask
  split <;> rfl

@[simp]
theorem cancelTask_failed (s : Controller Cron) (key : String) (cancelled : Bool) :
    (s.cancelTask key cancelled).failed = s.failed := by
  unfold cancelTask
  split <;> rfl

@[simp]
theorem cancelTask_returns (s : Controller Cron) (key : String) (cancelled : Bool) :
    (s.cancelTask key cancelled).returns = s.returns := by
  unfold cancelTask
  split <;> rfl

theorem get_tasks_cancelTask (s : Controller Cron) (key k : String) (cancelled : Bool) :
    (s.cancelTask key cancelled).tasks.get k = if k = key then none else s.tasks.get k := by
  unfold cancelTask
  split
  · exact HashMap.get_remove _ _ _
  · by_cases hk : k = key
    · rw [if_pos hk, hk]
      assumption
    · rw [if_neg hk]

/-- Cancelling leaves no task under the key. -/
theorem get_tasks_cancelTask_self (s : Controller Cron) (key : String) (cancelled : Bool) :
    (s.cancelTask key cancelled).tasks.get key = none := by
  rw [get_tasks_cancelTask, if_pos rfl]

/-- What lives after a successful cancellation: everything but the tasks of the
key. -/
theorem Tied.live_cancelTask {s : Controller Cron} (h : s.Tied) (key : String) (id : ℕ)
    (task : LiveTask Cron) :
    (s.cancelTask key true).live.get id = some task ↔
      s.live.get id = some task ∧ task.key ≠ key := by
  unfold cancelTask
  cases hfound : s.tasks.get key with
  | none =>
      show s.live.get id = some task ↔ _
      constructor
      · intro hlive
        exact ⟨hlive, h.no_live hfound id task hlive⟩
      · exact And.left
  | some old =>
      show (s.live.remove old).get id = some task ↔ _
      rw [HashMap.get_remove]
      by_cases hid : id = old
      · subst hid
        simp only [if_true, reduceCtorEq, false_iff, not_and, not_not]
        intro hlive
        exact h.live_key hfound hlive
      · rw [if_neg hid]
        constructor
        · intro hlive
          refine ⟨hlive, fun hkey => hid ?_⟩
          have howned := (h.owner key id).mpr ⟨task, hlive, hkey⟩
          rw [hfound] at howned
          exact (Option.some.inj howned).symm
        · exact And.left

theorem Tied.cancelTask {s : Controller Cron} (h : s.Tied) (key : String) :
    (s.cancelTask key true).Tied := by
  constructor
  · intro k id
    rw [get_tasks_cancelTask]
    constructor
    · intro hget
      split at hget
      · cases hget
      · rename_i hk
        obtain ⟨task, hlive, hkey⟩ := (h.owner k id).mp hget
        exact ⟨task, (h.live_cancelTask key id task).mpr ⟨hlive, by rwa [hkey]⟩, hkey⟩
    · rintro ⟨task, hlive, hkey⟩
      obtain ⟨hbefore, hne⟩ := (h.live_cancelTask key id task).mp hlive
      rw [hkey] at hne
      rw [if_neg hne]
      exact (h.owner k id).mpr ⟨task, hbefore, hkey⟩
  · intro id task hlive
    have hbefore := ((h.live_cancelTask key id task).mp hlive).1
    rw [cancelTask_nextId]
    exact h.fresh id task hbefore

/-- What lives after a task was added. -/
theorem Tied.live_addTask {s : Controller Cron} (h : s.Tied) (task other : LiveTask Cron)
    (id : ℕ) : (s.addTask task).live.get id = some other ↔
      s.live.get id = some other ∨ (id = s.nextId ∧ task = other) := by
  show (s.live.insert s.nextId task).get id = some other ↔ _
  rw [HashMap.get_insert]
  by_cases hid : id = s.nextId
  · rw [if_pos hid]
    constructor
    · intro hnew
      exact Or.inr ⟨hid, Option.some.inj hnew⟩
    · intro hcases
      rcases hcases with hlive | ⟨-, rfl⟩
      · have hlt := h.fresh id other hlive
        omega
      · rfl
  · simp [hid]

theorem Tied.addTask {s : Controller Cron} (h : s.Tied) {task : LiveTask Cron}
    (hnone : s.tasks.get task.key = none) : (s.addTask task).Tied := by
  constructor
  · intro key id
    show (s.tasks.insert task.key s.nextId).get key = some id ↔ _
    rw [HashMap.get_insert]
    by_cases hkey : key = task.key
    · subst hkey
      rw [if_pos rfl]
      constructor
      · intro hid
        obtain rfl := Option.some.inj hid
        exact ⟨task, (h.live_addTask task task _).mpr (Or.inr ⟨rfl, rfl⟩), rfl⟩
      · rintro ⟨other, hlive, hother⟩
        rcases (h.live_addTask task other id).mp hlive with hbefore | ⟨rfl, -⟩
        · exact absurd hother (h.no_live hnone id other hbefore)
        · rfl
    · rw [if_neg hkey, h.owner key id]
      constructor
      · rintro ⟨other, hlive, hother⟩
        exact ⟨other, (h.live_addTask task other id).mpr (Or.inl hlive), hother⟩
      · rintro ⟨other, hlive, hother⟩
        rcases (h.live_addTask task other id).mp hlive with hbefore | ⟨-, rfl⟩
        · exact ⟨other, hbefore, hother⟩
        · exact absurd hother.symm hkey
  · intro id other hlive
    show id < s.nextId + 1
    rcases (h.live_addTask task other id).mp hlive with hbefore | ⟨rfl, -⟩
    · exact Nat.lt_succ_of_lt (h.fresh id other hbefore)
    · exact Nat.lt_succ_self _

/-! ## Calls keep to their own key -/

/-- From `s` to `t` nothing happens to other keys than `key`. -/
structure Frame (key : String) (s t : Controller Cron) : Prop where
  tasks : ∀ k, k ≠ key → t.tasks.get k = s.tasks.get k
  schedules : ∀ k, k ≠ key → t.schedules.get k = s.schedules.get k
  live : ∀ id task, task.key ≠ key → (t.live.get id = some task ↔ s.live.get id = some task)
  failed : ∀ k, k ≠ key → t.failed k = s.failed k

theorem Frame.refl (key : String) (s : Controller Cron) : Frame key s s :=
  ⟨fun _ _ => rfl, fun _ _ => rfl, fun _ _ _ => Iff.rfl, fun _ _ => rfl⟩

theorem Frame.trans {key : String} {s t u : Controller Cron} (h : Frame key s t)
    (h' : Frame key t u) : Frame key s u where
  tasks k hk := (h'.tasks k hk).trans (h.tasks k hk)
  schedules k hk := (h'.schedules k hk).trans (h.schedules k hk)
  live id task hk := (h'.live id task hk).trans (h.live id task hk)
  failed k hk := (h'.failed k hk).trans (h.failed k hk)

/-- Changes of the schedule and of the history of one key. -/
theorem Frame.of_schedules {key : String} {s t : Controller Cron} (htasks : t.tasks = s.tasks)
    (hlive : t.live = s.live)
    (hschedules : ∀ k, k ≠ key → t.schedules.get k = s.schedules.get k)
    (hfailed : ∀ k, k ≠ key → t.failed k = s.failed k) : Frame key s t where
  tasks k _ := by rw [htasks]
  schedules := hschedules
  live id task _ := by rw [hlive]
  failed := hfailed

theorem Tied.frame_cancelTask {s : Controller Cron} (h : s.Tied) (key : String) :
    Frame key s (s.cancelTask key true) where
  tasks k hk := by rw [get_tasks_cancelTask, if_neg hk]
  schedules k _ := by rw [cancelTask_schedules]
  live id task hk := by
    rw [h.live_cancelTask key id task]
    exact and_iff_left hk
  failed k _ := by rw [cancelTask_failed]

theorem Tied.frame_addTask {s : Controller Cron} (h : s.Tied) (task : LiveTask Cron) :
    Frame task.key s (s.addTask task) where
  tasks k hk := HashMap.get_insert_of_ne _ _ hk
  schedules _ _ := rfl
  live id other hk := by
    rw [h.live_addTask task other id]
    constructor
    · intro hcases
      rcases hcases with hlive | ⟨-, rfl⟩
      · exact hlive
      · exact absurd rfl hk
    · exact Or.inl
  failed _ _ := rfl

/-- The rest of a rebuild keeps to the key of its trigger. -/
theorem Rebuilt.frame {s : Controller Cron} (h : s.Tied) {trigger : ScheduleTrigger}
    {r : Controller Cron × CallResult} (hrebuilt : Rebuilt parsers s trigger r) :
    Frame trigger.triggerHashKey s r.1 := by
  cases hrebuilt with
  | abandoned result hresult => exact .refl _ _
  | added task hkey hschedule =>
      rw [← hkey]
      exact h.frame_addTask task
  | scheduled task hkey hschedule hvalid =>
      rw [← hkey]
      refine (h.frame_addTask task).trans (.of_schedules rfl rfl ?_ fun _ _ => rfl)
      intro k hk
      exact HashMap.get_insert_of_ne _ _ hk
  | disabled hinvalid =>
      refine .of_schedules rfl rfl ?_ fun _ _ => rfl
      intro k hk
      exact HashMap.get_insert_of_ne _ _ hk

/-- The rest of a rebuild keeps tasks and owners tied. -/
theorem Rebuilt.tied {s : Controller Cron} (h : s.Tied) {trigger : ScheduleTrigger}
    (hnone : s.tasks.get trigger.triggerHashKey = none)
    {r : Controller Cron × CallResult} (hrebuilt : Rebuilt parsers s trigger r) : r.1.Tied := by
  cases hrebuilt with
  | abandoned result hresult => exact h
  | added task hkey hschedule => exact h.addTask (by rwa [hkey])
  | scheduled task hkey hschedule hvalid =>
      have htied : (s.addTask task).Tied := h.addTask (by rwa [hkey])
      exact ⟨htied.owner, htied.fresh⟩
  | disabled hinvalid => exact ⟨h.owner, h.fresh⟩

/-- The scheduler's `cancel` succeeds. -/
def CancelsSucceed (_ : Controller Cron) : ControllerAction → Controller Cron → Prop
  | .rebuild _ outcome, _ => outcome.cancelled = true
  | .proceed _ cancelled, _ => cancelled = true
  | .reconcile _, _ | .cleanup _, _ => True

instance (s : Controller Cron) (action : ControllerAction) (t : Controller Cron) :
    Decidable (CancelsSucceed s action t) :=
  match action with
  | .rebuild _ outcome => inferInstanceAs (Decidable (outcome.cancelled = true))
  | .proceed _ cancelled => inferInstanceAs (Decidable (cancelled = true))
  | .reconcile _ | .cleanup _ => instDecidableTrue

/-- What a call between its locks relies on: it is filed under its own trigger,
a rebuild was started for another schedule, and a cleanup that is past its first
half has left no schedule. -/
structure Orderly (s : Controller Cron) : Prop where
  filed : ∀ id call, s.calls.get id = some call → call.trigger.id = id
  rebuilding : ∀ id trigger, s.calls.get id = some ⟨trigger, .rebuilding⟩ →
    s.schedules.get trigger.triggerHashKey ≠ some trigger.schedule
  unscheduled : ∀ id trigger phase, s.calls.get id = some ⟨trigger, phase⟩ →
    phase = .checkingTask ∨ phase = .removingTask →
      s.schedules.get trigger.triggerHashKey = none

/-- The key of a trigger is that of its identity. -/
theorem triggerHashKey_congr {a b : Trigger} (h : a.id = b.id) :
    a.triggerHashKey = b.triggerHashKey := by
  obtain ⟨hns, hname⟩ := Prod.mk.inj h
  rw [Trigger.triggerHashKey, Trigger.triggerHashKey, hns, hname]

/-- Triggers with different identities have different keys. -/
theorem triggerHashKey_ne {a b : Trigger} (h : a.id ≠ b.id) :
    a.triggerHashKey ≠ b.triggerHashKey := by
  intro hkey
  obtain ⟨hns, hname⟩ := Trigger.eq_of_triggerHashKey_eq hkey
  exact h (Prod.ext hns hname)

/-- A call that goes on leaves the calls of other triggers in order. -/
theorem Orderly.setCall {s t : Controller Cron} (h : s.Orderly) {trigger : ScheduleTrigger}
    {phase : CallPhase} (hframe : Frame trigger.triggerHashKey s t)
    (hcalls : t.calls = s.calls.insert trigger.id ⟨trigger, phase⟩)
    (hrebuilding : phase = .rebuilding →
      t.schedules.get trigger.triggerHashKey ≠ some trigger.schedule)
    (hunscheduled : phase = .checkingTask ∨ phase = .removingTask →
      t.schedules.get trigger.triggerHashKey = none) : t.Orderly := by
  have hcases : ∀ id call, t.calls.get id = some call →
      (call = ⟨trigger, phase⟩ ∧ id = trigger.id) ∨
      (s.calls.get id = some call ∧
        t.schedules.get call.trigger.triggerHashKey =
          s.schedules.get call.trigger.triggerHashKey) := by
    intro id call hcall
    rw [hcalls, HashMap.get_insert] at hcall
    split at hcall
    · exact Or.inl ⟨(Option.some.inj hcall).symm, ‹_›⟩
    · rename_i hid
      refine Or.inr ⟨hcall, hframe.schedules _ (triggerHashKey_ne ?_)⟩
      rw [h.filed id call hcall]
      exact hid
  constructor
  · intro id call hcall
    rcases hcases id call hcall with ⟨rfl, rfl⟩ | ⟨hold, -⟩
    · rfl
    · exact h.filed id call hold
  · intro id other hcall
    rcases hcases id _ hcall with ⟨hsame, -⟩ | ⟨hold, hget⟩
    · cases hsame
      exact hrebuilding rfl
    · rw [hget]
      exact h.rebuilding id other hold
  · intro id other otherPhase hcall hphase
    rcases hcases id _ hcall with ⟨hsame, -⟩ | ⟨hold, hget⟩
    · cases hsame
      exact hunscheduled hphase
    · rw [hget]
      exact h.unscheduled id other otherPhase hold hphase

/-- A call that ends leaves the calls of other triggers in order. -/
theorem Orderly.endCall {s t : Controller Cron} (h : s.Orderly) (trigger : ScheduleTrigger)
    (hframe : Frame trigger.triggerHashKey s t)
    (hcalls : t.calls = s.calls.remove trigger.id) : t.Orderly := by
  have hcases : ∀ id call, t.calls.get id = some call → s.calls.get id = some call ∧
      t.schedules.get call.trigger.triggerHashKey =
        s.schedules.get call.trigger.triggerHashKey := by
    intro id call hcall
    rw [hcalls, HashMap.get_remove] at hcall
    split at hcall
    · cases hcall
    · rename_i hid
      refine ⟨hcall, hframe.schedules _ (triggerHashKey_ne ?_)⟩
      rw [h.filed id call hcall]
      exact hid
  constructor
  · intro id call hcall
    exact h.filed id call (hcases id call hcall).1
  · intro id other hcall
    obtain ⟨hold, hget⟩ := hcases id _ hcall
    rw [hget]
    exact h.rebuilding id other hold
  · intro id other phase hcall hphase
    obtain ⟨hold, hget⟩ := hcases id _ hcall
    rw [hget]
    exact h.unscheduled id other phase hold hphase

/-! ## Steps and runs -/

/-- The state of tasks, schedules and calls between two steps. -/
structure Sound (s : Controller Cron) : Prop where
  tied : s.Tied
  orderly : s.Orderly

theorem start_sound : (start : Controller Cron).Sound := by
  refine ⟨⟨?_, ?_⟩, ⟨?_, ?_, ?_⟩⟩
  · simp [start]
  · simp [start]
  · simp [start]
  · simp [start]
  · simp [start]

/-- A step that only moves the call of a trigger. -/
theorem Frame.of_calls {key : String} {s t : Controller Cron} (htasks : t.tasks = s.tasks)
    (hlive : t.live = s.live) (hschedules : t.schedules = s.schedules)
    (hfailed : t.failed = s.failed) : Frame key s t :=
  .of_schedules htasks hlive (fun _ _ => by rw [hschedules]) fun _ _ => by rw [hfailed]

theorem frame_checkTask (s : Controller Cron) (trigger : ScheduleTrigger) :
    Frame trigger.triggerHashKey s (s.checkTask trigger) := by
  unfold checkTask
  split
  · exact .of_calls rfl rfl rfl rfl
  · exact .of_calls rfl rfl rfl rfl

variable (chrono parsers) in
/-- A rebuild keeps to the key of its trigger and keeps tasks and owners tied. -/
theorem Tied.rebuild {s : Controller Cron} (h : s.Tied) (trigger : ScheduleTrigger)
    {outcome : RebuildOutcome} (hcancel : outcome.cancelled = true) :
    Frame trigger.triggerHashKey s (s.rebuild chrono parsers trigger outcome).1 ∧
      (s.rebuild chrono parsers trigger outcome).1.Tied := by
  have hrebuilt := rebuild_rebuilt chrono parsers s trigger outcome
  rw [hcancel] at hrebuilt
  have hnone := get_tasks_cancelTask_self s trigger.triggerHashKey true
  exact ⟨(h.frame_cancelTask _).trans (hrebuilt.frame (h.cancelTask _)),
    hrebuilt.tied (h.cancelTask _) hnone⟩

/-- Every step keeps to the key of its trigger. -/
theorem Sound.frame {s t : Controller Cron} {action : ControllerAction} (h : s.Sound)
    (hstep : s.step chrono parsers action = some t) (hcancel : CancelsSucceed s action t) :
    ∃ trigger : ScheduleTrigger, trigger.id = action.target ∧
      Frame trigger.triggerHashKey s t := by
  cases Transition.of_step hstep with
  | reconcile trigger | skip trigger | cleanup trigger | cleanupUnscheduled trigger =>
      exact ⟨trigger, rfl, .of_calls rfl rfl rfl rfl⟩
  | rebuild id outcome trigger hcall =>
      refine ⟨trigger, h.orderly.filed id _ hcall, ?_⟩
      have hframe := (h.tied.rebuild chrono parsers trigger hcancel).1
      refine hframe.trans (.of_schedules rfl rfl (fun _ _ => rfl) ?_)
      intro k hk
      exact Function.update_of_ne hk _ _
  | removeSchedule id cancelled trigger hcall =>
      refine ⟨trigger, h.orderly.filed id _ hcall, .of_schedules rfl rfl ?_ fun _ _ => rfl⟩
      intro k hk
      exact HashMap.get_remove_of_ne _ hk
  | checkTask id cancelled trigger hcall =>
      exact ⟨trigger, h.orderly.filed id _ hcall, frame_checkTask s trigger⟩
  | removeTask id cancelled trigger hcall =>
      have hsuccess : cancelled = true := hcancel
      subst hsuccess
      exact ⟨trigger, h.orderly.filed id _ hcall,
        (h.tied.frame_cancelTask _).trans (.of_calls rfl rfl rfl rfl)⟩

/-- The frame of a step, for any trigger with the identity the step is about. -/
theorem Sound.frame_of_id {s t : Controller Cron} {action : ControllerAction} (h : s.Sound)
    (hstep : s.step chrono parsers action = some t) (hcancel : CancelsSucceed s action t)
    {trigger : Trigger} (hid : trigger.id = action.target) :
    Frame trigger.triggerHashKey s t := by
  obtain ⟨owner, howner, hframe⟩ := h.frame hstep hcancel
  rw [triggerHashKey_congr (hid.trans howner.symm)]
  exact hframe

theorem Rebuilt.calls_eq {s : Controller Cron} {trigger : ScheduleTrigger}
    {r : Controller Cron × CallResult} (hrebuilt : Rebuilt parsers s trigger r) :
    r.1.calls = s.calls := by
  cases hrebuilt <;> rfl

/-- A state with the tasks of a tied one is sound if its calls are orderly. -/
theorem Tied.sound {s t : Controller Cron} (h : s.Tied) (htasks : t.tasks = s.tasks)
    (hlive : t.live = s.live) (hnext : t.nextId = s.nextId) (horderly : t.Orderly) :
    t.Sound := by
  constructor
  · constructor
    · rw [htasks, hlive]
      exact h.owner
    · rw [hlive, hnext]
      exact h.fresh
  · exact horderly

/-- Every step with successful cancellations keeps the state sound. -/
theorem Sound.step {s t : Controller Cron} {action : ControllerAction} (h : s.Sound)
    (hstep : s.step chrono parsers action = some t) (hcancel : CancelsSucceed s action t) :
    t.Sound := by
  have hframe {trigger : ScheduleTrigger} : trigger.id = action.target →
      Frame trigger.triggerHashKey s t := h.frame_of_id hstep hcancel
  cases Transition.of_step hstep with
  | reconcile trigger hfree hother =>
      refine h.tied.sound rfl rfl rfl ?_
      exact h.orderly.setCall (hframe rfl) rfl (fun _ => hother) (by simp)
  | skip trigger hfree hsame =>
      refine h.tied.sound rfl rfl rfl ?_
      exact h.orderly.endCall trigger (hframe rfl) rfl
  | rebuild id outcome trigger hcall =>
      have htied := (h.tied.rebuild chrono parsers trigger hcancel).2
      refine htied.sound rfl rfl rfl ?_
      apply h.orderly.endCall trigger (hframe (h.orderly.filed id _ hcall))
      show (s.rebuild chrono parsers trigger outcome).1.calls.remove trigger.id = _
      rw [(rebuild_rebuilt chrono parsers s trigger outcome).calls_eq, cancelTask_calls]
  | cleanup trigger hfree hfound =>
      refine h.tied.sound rfl rfl rfl ?_
      exact h.orderly.setCall (hframe rfl) rfl (by simp) (by simp)
  | cleanupUnscheduled trigger hfree hmissing =>
      refine h.tied.sound rfl rfl rfl ?_
      exact h.orderly.setCall (hframe rfl) rfl (by simp) (fun _ => hmissing)
  | removeSchedule id cancelled trigger hcall =>
      refine h.tied.sound rfl rfl rfl ?_
      exact h.orderly.setCall (hframe (h.orderly.filed id _ hcall)) rfl (by simp)
        fun _ => HashMap.get_remove_self _ _
  | checkTask id cancelled trigger hcall =>
      have hnone := h.orderly.unscheduled id trigger _ hcall (Or.inl rfl)
      have hframe := frame_checkTask s trigger
      unfold checkTask at hframe ⊢
      split
      · rw [if_pos ‹_›] at hframe
        refine h.tied.sound rfl rfl rfl ?_
        exact h.orderly.setCall hframe rfl (by simp) fun _ => hnone
      · rw [if_neg ‹_›] at hframe
        refine h.tied.sound rfl rfl rfl ?_
        exact h.orderly.endCall trigger hframe rfl
  | removeTask id cancelled trigger hcall =>
      have hsuccess : cancelled = true := hcancel
      subst hsuccess
      have htied := h.tied.cancelTask trigger.triggerHashKey
      refine htied.sound rfl rfl rfl ?_
      apply h.orderly.endCall trigger (hframe (h.orderly.filed id _ hcall))
      show (s.cancelTask trigger.triggerHashKey true).calls.remove trigger.id = _
      rw [cancelTask_calls]

/-- A cleanup that returns leaves no entry for its trigger. -/
theorem Sound.cleaned {s t : Controller Cron} {action : ControllerAction} (h : s.Sound)
    (hstep : s.step chrono parsers action = some t) {trigger : ScheduleTrigger}
    {result : CallResult} (hreturn : t.returns = ⟨.cleanup, trigger, result⟩ :: s.returns) :
    t.tasks.get trigger.triggerHashKey = none ∧ t.schedules.get trigger.triggerHashKey = none := by
  cases Transition.of_step hstep with
  | reconcile | cleanup | cleanupUnscheduled | removeSchedule =>
      exact absurd hreturn.symm (List.cons_ne_self _ _)
  | skip other hfree hsame => cases hreturn
  | rebuild id outcome other hcall => simp [endCall] at hreturn
  | checkTask id cancelled other hcall =>
      have hnone := h.orderly.unscheduled id other _ hcall (Or.inl rfl)
      unfold checkTask at hreturn ⊢
      split at hreturn
      · exact absurd hreturn.symm (List.cons_ne_self _ _)
      · rw [if_neg ‹_›]
        cases hreturn
        exact ⟨Option.not_isSome_iff_eq_none.mp ‹_›, hnone⟩
  | removeTask id cancelled other hcall =>
      have hnone := h.orderly.unscheduled id other _ hcall (Or.inr rfl)
      simp only [endCall, cancelTask_returns, List.cons.injEq, Return.mk.injEq, true_and,
        and_true] at hreturn
      obtain ⟨rfl, -⟩ := hreturn
      refine ⟨?_, ?_⟩
      · show (s.cancelTask other.triggerHashKey cancelled).tasks.get _ = none
        exact get_tasks_cancelTask_self _ _ _
      · show (s.cancelTask other.triggerHashKey cancelled).schedules.get _ = none
        rw [cancelTask_schedules]
        exact hnone

/-- No duplicated or orphaned schedule tasks.  In every history of reconcile and
cleanup calls with successful cancellations, whatever else fails: the live tasks
are the values of the map of tasks, no id is stored under two keys, no trigger
has two live tasks, a step leaves the entries of other triggers alone, and a
cleanup that returns leaves no entry of its own trigger. -/
theorem live_tasks_are_the_values (chrono : Rfc3339.Codec) (parsers : ScheduleParsers Cron)
    (actions : List ControllerAction) (s : Controller Cron)
    (hrun : run (step chrono parsers) start actions = some s)
    (hcancel : Along (step chrono parsers) CancelsSucceed start actions) :
    (∀ id, (s.live.get id).isSome ↔ ∃ key, s.tasks.get key = some id) ∧
    (∀ key key' id, s.tasks.get key = some id → s.tasks.get key' = some id → key = key') ∧
    (∀ id id' task task', s.live.get id = some task → s.live.get id' = some task' →
      task.key = task'.key → id = id') ∧
    (∀ action t, s.step chrono parsers action = some t → CancelsSucceed s action t →
      (∀ other : Trigger, other.id ≠ action.target →
        t.tasks.get other.triggerHashKey = s.tasks.get other.triggerHashKey ∧
        t.schedules.get other.triggerHashKey = s.schedules.get other.triggerHashKey) ∧
      (∀ trigger result, t.returns = ⟨.cleanup, trigger, result⟩ :: s.returns →
        t.tasks.get trigger.triggerHashKey = none ∧
        t.schedules.get trigger.triggerHashKey = none)) := by
  have h : s.Sound :=
    invariant_of_along (fun _ _ _ hstep h hc => h.step hstep hc) hrun hcancel start_sound
  refine ⟨?_, ?_, ?_, ?_⟩
  · intro id
    rw [Option.isSome_iff_exists]
    constructor
    · rintro ⟨task, hlive⟩
      exact ⟨task.key, (h.tied.owner _ id).mpr ⟨task, hlive, rfl⟩⟩
    · rintro ⟨key, hget⟩
      obtain ⟨task, hlive, -⟩ := (h.tied.owner key id).mp hget
      exact ⟨task, hlive⟩
  · intro key key' id hget hget'
    obtain ⟨task, hlive, rfl⟩ := (h.tied.owner key id).mp hget
    obtain ⟨task', hlive', rfl⟩ := (h.tied.owner key' id).mp hget'
    rw [Option.some.inj (hlive.symm.trans hlive')]
  · intro id id' task task' hlive hlive' hkey
    have hget := (h.tied.owner _ id).mpr ⟨task, hlive, rfl⟩
    have hget' := (h.tied.owner _ id').mpr ⟨task', hlive', rfl⟩
    rw [← hkey, hget] at hget'
    exact Option.some.inj hget'
  · intro action t hstep hc
    refine ⟨?_, fun trigger result hreturn => h.cleaned hstep hreturn⟩
    intro other hother
    obtain ⟨trigger, htarget, hframe⟩ := h.frame hstep hc
    have hkey := triggerHashKey_ne (hother.trans_eq htarget.symm)
    exact ⟨hframe.tasks _ hkey, hframe.schedules _ hkey⟩

/-- Parsers that know the intervals of one and of five minutes. -/
def minuteParsers : ScheduleParsers Unit where
  parseInterval text :=
    if text = "1m" then some (Duration.fromSecs 60)
    else if text = "5m" then some (Duration.fromSecs 300)
    else none
  parseCron _ := none

/-- A trigger that has run before, with the given interval. -/
def intervalTrigger (text : String) : ScheduleTrigger where
  kind := .scheduleTrigger
  ns := "default"
  name := "trigger"
  sources := { names := ["source"] }
  action := { name := "action" }
  status := some { lastRun := some "2024-02-29T12:34:56Z" }
  ns_plain := Trigger.default_ns_plain
  schedule := .interval text

/-- A rebuild in which everything succeeds. -/
def smooth : RebuildOutcome where
  now := 0
  cancelled := true
  added := true
  published := true
  updated := true

/-- A trigger is scheduled, scheduled again with another interval, and dropped. -/
def scheduleAndClean : List ControllerAction :=
  [.reconcile (intervalTrigger "1m"), .rebuild ("default", "trigger") smooth,
    .reconcile (intervalTrigger "5m"), .rebuild ("default", "trigger") smooth,
    .cleanup (intervalTrigger "5m"), .proceed ("default", "trigger") true,
    .proceed ("default", "trigger") true]

theorem scheduleAndClean_isSome :
    (run (step Rfc3339.standard minuteParsers) start scheduleAndClean).isSome = true := by
  decide +kernel

theorem live_tasks_are_the_values_scheduleAndClean :
    ∃ s, run (step Rfc3339.standard minuteParsers) start scheduleAndClean = some s ∧
      (s.live.get 1).isSome ∧ ∃ key, s.tasks.get key = some 1 := by
  refine ⟨_, (Option.some_get scheduleAndClean_isSome).symm, by decide +kernel, ?_⟩
  have hvalues := live_tasks_are_the_values Rfc3339.standard minuteParsers scheduleAndClean _
    (Option.some_get scheduleAndClean_isSome).symm (by decide +kernel)
  exact (hvalues.1 1).mp (by decide +kernel)

end Controller

end GitEventsRunner.Triggers
