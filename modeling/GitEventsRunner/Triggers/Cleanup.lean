/-
# Tasks do not outlive their objects

Under the finalizer, every entry of the leader's maps and every task in its
scheduler belongs to an object that the API server still stores and that still
carries the finalizer, however far the controller lags behind and however users,
watch, calls and patches interleave.  And no object is forgotten: as long as a
finalizer is to be put on or to be taken off, the controller still has an event,
a request, a call or a patch for it before it.

The first needs the lists the leaders start with to be recent: none of them may
show an object under a finalizer that has been taken off since.  Within a term
the invariant is about the versions of an object from the one the watch has shown
to the one that is stored, its `Window`.
-/

import GitEventsRunner.Triggers.Finalizer

namespace GitEventsRunner.Triggers

open GitEventsRunner.Lib

variable {Cron : Type} {chrono : Rfc3339.Codec} {parsers : ScheduleParsers Cron}

/-! ## The versions still to come -/

/-- What the reader of a log can still come to see of an object.  While the
finalizer is on the stored object it never comes off again; where it is off, it
was taken off an object that was marked for deletion all the while. -/
structure Window (log : List WatchEvent) (lag : ℕ) (id : TriggerId) : Prop where
  keeps : holdsAt TriggerObject.held log 0 id = true → ∀ m n, m ≤ n → n ≤ lag →
    holdsAt TriggerObject.held log n id = true → holdsAt TriggerObject.held log m id = true
  releases : holdsAt TriggerObject.held log 0 id = false → ∀ m n, m ≤ n → n ≤ lag →
    holdsAt TriggerObject.held log m id = true → holdsAt TriggerObject.doomed log n id = true

theorem held_of_doomed {log : List WatchEvent} {lag : ℕ} {id : TriggerId}
    (h : holdsAt TriggerObject.doomed log lag id = true) :
    holdsAt TriggerObject.held log lag id = true := by
  apply holdsAt_mono _ h
  intro object hdoomed
  exact (Bool.and_eq_true_iff.mp hdoomed).1

namespace Window

variable {log : List WatchEvent} {lag : ℕ} {id : TriggerId} {event : WatchEvent}

theorem mono (h : Window log lag id) {fewer : ℕ} (hle : fewer ≤ lag) : Window log fewer id where
  keeps hheld m n hmn hn := h.keeps hheld m n hmn (hn.trans hle)
  releases hheld m n hmn hn := h.releases hheld m n hmn (hn.trans hle)

theorem of_steady (h : Steady TriggerObject.held log lag) (id : TriggerId) :
    Window log lag id where
  keeps _ _ _ hmn hn hold := h.mono hmn hn hold
  releases hnot m n hmn hn hold := by
    have hheld := h.mono (Nat.zero_le m) (hmn.trans hn) hold
    rw [hnot] at hheld
    cases hheld

/-- An event that leaves the finalizer as it is. -/
theorem cons (h : Window log lag id)
    (hsame : holdsAt TriggerObject.held (event :: log) 0 id =
      holdsAt TriggerObject.held log 0 id) : Window (event :: log) (lag + 1) id where
  keeps hheld m n hmn hn hold := by
    cases n with
    | zero =>
        obtain rfl := Nat.le_zero.mp hmn
        exact hheld
    | succ n =>
        cases m with
        | zero => exact hheld
        | succ m =>
            rw [hsame] at hheld
            exact h.keeps hheld m n (Nat.le_of_succ_le_succ hmn) (Nat.le_of_succ_le_succ hn) hold
  releases hnot m n hmn hn hold := by
    cases m with
    | zero =>
        rw [hnot] at hold
        cases hold
    | succ m =>
        cases n with
        | zero => exact absurd hmn (Nat.not_succ_le_zero m)
        | succ n =>
            rw [hsame] at hnot
            exact h.releases hnot m n (Nat.le_of_succ_le_succ hmn) (Nat.le_of_succ_le_succ hn) hold

/-- The finalizer comes off an object known to be marked for deletion. -/
theorem cons_removed (hdoomed : ∀ n ≤ lag, holdsAt TriggerObject.doomed log n id = true)
    (hnot : holdsAt TriggerObject.held (event :: log) 0 id = false) :
    Window (event :: log) (lag + 1) id where
  keeps hheld := by
    rw [hnot] at hheld
    cases hheld
  releases _ m n hmn hn hold := by
    cases m with
    | zero =>
        rw [hnot] at hold
        cases hold
    | succ m =>
        cases n with
        | zero => exact absurd hmn (Nat.not_succ_le_zero m)
        | succ n => exact hdoomed n (Nat.le_of_succ_le_succ hn)

/-- The finalizer is put on where nobody has seen it. -/
theorem cons_added (hnever : ∀ n ≤ lag, holdsAt TriggerObject.held log n id = false)
    (hheld : holdsAt TriggerObject.held (event :: log) 0 id = true) :
    Window (event :: log) (lag + 1) id where
  keeps _ m n hmn hn hold := by
    cases n with
    | zero =>
        obtain rfl := Nat.le_zero.mp hmn
        exact hheld
    | succ n =>
        have hnot := hnever n (Nat.le_of_succ_le_succ hn)
        change holdsAt TriggerObject.held log n id = true at hold
        rw [hnot] at hold
        cases hold
  releases hnot := by
    rw [hheld] at hnot
    cases hnot

/-- Who sees an object under the finalizer and not marked for deletion can rely on
it: the stored object is under the finalizer. -/
theorem held_of_view (h : Window log lag id) {object : TriggerObject}
    (hview : latest (log.drop lag) id = some object) (hheld : object.held = true)
    (hdeleting : object.deleting = false) : holdsAt TriggerObject.held log 0 id = true := by
  by_contra hnot
  have hold : holdsAt TriggerObject.held log lag id = true := by
    rw [holdsAt_of_latest hview]
    exact hheld
  have hdoomed := h.releases (Bool.eq_false_iff.mpr hnot) lag lag (le_refl lag) (le_refl lag) hold
  rw [holdsAt_of_latest hview, TriggerObject.doomed, hdeleting, Bool.and_false] at hdoomed
  cases hdoomed

/-- Who sees an object without the finalizer: it is on the stored object, or
nowhere in between. -/
theorem never_of_view (h : Window log lag id)
    (hview : holdsAt TriggerObject.held log lag id = false) :
    holdsAt TriggerObject.held log 0 id = true ∨
      ∀ n ≤ lag, holdsAt TriggerObject.held log n id = false := by
  by_cases hheld : holdsAt TriggerObject.held log 0 id = true
  · exact Or.inl hheld
  · refine Or.inr fun n hn => ?_
    by_contra hold
    have hdoomed := h.releases (Bool.eq_false_iff.mpr hheld) n lag hn (le_refl lag)
      (by simpa using hold)
    rw [held_of_doomed hdoomed] at hview
    cases hview

end Window

namespace Cluster

/-! ## Settled calls -/

@[simp]
theorem settle_log (s : Cluster Cron) (controller : Controller Cron) :
    (s.settle controller).log = s.log := by
  unfold settle
  split <;> rfl

@[simp]
theorem settle_lag (s : Cluster Cron) (controller : Controller Cron) :
    (s.settle controller).lag = s.lag := by
  unfold settle
  split <;> rfl

/-- A call that goes on has nothing to settle. -/
theorem settle_of_goesOn {s : Cluster Cron} {controller : Controller Cron}
    {trigger : ScheduleTrigger} {phase : CallPhase}
    (h : s.controller.GoesOn controller trigger phase) :
    s.settle controller = { s with controller := controller } := by
  rw [settle, h.ended]

/-- A `reconcile` that is over leaves no patch. -/
theorem settle_of_reconciled {s : Cluster Cron} {controller : Controller Cron}
    {trigger : ScheduleTrigger} {result : CallResult}
    (h : s.controller.Ends controller ⟨.reconcile, trigger, result⟩) :
    s.settle controller = s.halt ∨ s.settle controller = { s with controller := controller } := by
  rw [settle, h.ended]
  cases result with
  | ok | err => exact Or.inr rfl
  | panicked => exact Or.inl rfl

/-- A cleanup that is over is followed by the patch. -/
theorem settle_of_cleaned {s : Cluster Cron} {controller : Controller Cron}
    {trigger : ScheduleTrigger} (h : s.controller.Ends controller ⟨.cleanup, trigger, .ok⟩) :
    s.settle controller =
      { s with controller := controller, patches := s.patches.insert trigger.id .remove } := by
  rw [settle, h.ended]

/-! ## What is relied on -/

/-- The finalizer is on the object, as a reader with the given lag sees it. -/
def HeldAt (s : Cluster Cron) (lag : ℕ) (id : TriggerId) : Prop :=
  holdsAt TriggerObject.held s.log lag id = true

/-- The object is under the finalizer and marked for deletion, as a reader with the
given lag sees it. -/
def DoomedAt (s : Cluster Cron) (lag : ℕ) (id : TriggerId) : Prop :=
  holdsAt TriggerObject.doomed s.log lag id = true

/-- The object is being cleaned up: a cleanup is under way, or its patch. -/
def Cleaning (s : Cluster Cron) (id : TriggerId) : Prop :=
  (∃ trigger phase, s.controller.calls.get id = some ⟨trigger, phase⟩ ∧ phase ≠ .rebuilding) ∨
    s.patches.get id = some .remove

/-- The leader has an entry for a key. -/
def Entry (controller : Controller Cron) (key : String) : Prop :=
  (controller.tasks.get key).isSome = true ∨ (controller.schedules.get key).isSome = true

/-- The log of the API server: every object is stored under its own name, a mark
for deletion stays, and what the watch has still to show is in order. -/
structure Logged (s : Cluster Cron) : Prop where
  filed : ∀ id lag object, latest (s.log.drop lag) id = some object → object.trigger.id = id
  marked : ∀ id lag object later, latest (s.log.drop (lag + 1)) id = some object →
    object.deleting = true → latest (s.log.drop lag) id = some later → later.deleting = true
  window : ∀ id, Window s.log s.lag id

/-- What calls and patches under way rely on: a rebuild on the finalizer being on
the stored object; a cleanup, as long as the finalizer is on, on the object being
marked for deletion wherever the watch looks; the patch that puts the finalizer on,
on nobody having seen it.  And all entries belong to objects under the finalizer. -/
structure Working (s : Cluster Cron) : Prop where
  sound : s.controller.Sound
  found : s.controller.TaskFound
  exclusive : ∀ id, (s.patches.get id).isSome = true → s.controller.calls.get id = none
  rebuilding : ∀ id trigger, s.controller.calls.get id = some ⟨trigger, .rebuilding⟩ →
    s.HeldAt 0 id
  cleaning : ∀ id, s.Cleaning id → s.HeldAt 0 id → ∀ n ≤ s.lag, s.DoomedAt n id
  adding : ∀ id, s.patches.get id = some .add →
    s.HeldAt 0 id ∨ ∀ n ≤ s.lag, ¬ s.HeldAt n id
  cleaned : ∀ trigger : Trigger, s.patches.get trigger.id = some .remove →
    ¬ Entry s.controller trigger.triggerHashKey
  owned : ∀ key, Entry s.controller key →
    ∃ trigger : Trigger, trigger.triggerHashKey = key ∧ s.HeldAt 0 trigger.id

/-- Nothing is under way, and the leader has no entries. -/
theorem Working.of_start {s : Cluster Cron} (hcontroller : s.controller = Controller.start)
    (hpatches : s.patches = ∅) : s.Working := by
  have hcalls : ∀ id, s.controller.calls.get id = none := by
    intro id
    rw [hcontroller]
    rfl
  have hnone : ∀ id, s.patches.get id = none := by
    intro id
    rw [hpatches]
    rfl
  have hentry : ∀ key, ¬ Entry s.controller key := by
    intro key hkey
    rw [hcontroller] at hkey
    rcases hkey with hkey | hkey
    · cases hkey
    · cases hkey
  refine ⟨by rw [hcontroller]; exact Controller.start_sound, ?_, ?_, ?_, ?_, ?_, ?_, ?_⟩
  · intro id trigger hcall
    rw [hcalls] at hcall
    cases hcall
  · intro id _
    exact hcalls id
  · intro id trigger hcall
    rw [hcalls] at hcall
    cases hcall
  · rintro id (⟨trigger, phase, hcall, -⟩ | hpatch)
    · rw [hcalls] at hcall
      cases hcall
    · rw [hnone] at hpatch
      cases hpatch
  · intro id hpatch
    rw [hnone] at hpatch
    cases hpatch
  · intro trigger hpatch
    rw [hnone] at hpatch
    cases hpatch
  · intro key hkey
    exact absurd hkey (hentry key)

/-- What happens to the objects without touching the finalizer leaves the work as
it is, and so does the watch. -/
theorem Working.of_quiet {s t : Cluster Cron} (h : s.Working)
    (hcontroller : t.controller = s.controller) (hpatches : t.patches = s.patches)
    (hheld : ∀ id, t.HeldAt 0 id ↔ s.HeldAt 0 id)
    (hseen : ∀ id n, n ≤ t.lag → t.HeldAt n id → ∃ m ≤ s.lag, s.HeldAt m id)
    (hdoomed : ∀ id, (∀ n ≤ s.lag, s.DoomedAt n id) → ∀ n ≤ t.lag, t.DoomedAt n id) :
    t.Working where
  sound := by
    rw [hcontroller]
    exact h.sound
  found := by
    rw [hcontroller]
    exact h.found
  exclusive := by
    rw [hcontroller, hpatches]
    exact h.exclusive
  rebuilding id trigger hcall := by
    rw [hcontroller] at hcall
    exact (hheld id).mpr (h.rebuilding id trigger hcall)
  cleaning id hcleaning hid := by
    rw [Cleaning, hcontroller, hpatches] at hcleaning
    exact hdoomed id (h.cleaning id hcleaning ((hheld id).mp hid))
  adding id hpatch := by
    rw [hpatches] at hpatch
    rcases h.adding id hpatch with hid | hnever
    · exact Or.inl ((hheld id).mpr hid)
    · refine Or.inr fun n hn hid => ?_
      obtain ⟨m, hm, hheldm⟩ := hseen id n hn hid
      exact hnever m hm hheldm
  cleaned trigger hpatch := by
    rw [hpatches] at hpatch
    rw [hcontroller]
    exact h.cleaned trigger hpatch
  owned key hkey := by
    rw [hcontroller] at hkey
    obtain ⟨trigger, htrigger, hid⟩ := h.owned key hkey
    exact ⟨trigger, htrigger, (hheld trigger.id).mpr hid⟩

/-! ## Calls -/

/-- Entries of other keys than that of the call are as they were. -/
theorem entry_of_frame {s t : Controller Cron} {key other : String}
    (hframe : Controller.Frame key s t) (hne : other ≠ key) (h : Entry t other) :
    Entry s other := by
  rw [Entry, hframe.tasks other hne, hframe.schedules other hne] at h
  exact h

/-- A call that starts or goes on. -/
theorem Working.goesOn {s : Cluster Cron} (h : s.Working) {controller : Controller Cron}
    {trigger : ScheduleTrigger} {phase : CallPhase}
    (hgoes : s.controller.GoesOn controller trigger phase) (hsound : controller.Sound)
    (hpatch : s.patches.get trigger.id = none)
    (hbuild : phase = .rebuilding → s.HeldAt 0 trigger.id)
    (hclean : phase ≠ .rebuilding → s.HeldAt 0 trigger.id →
      ∀ n ≤ s.lag, s.DoomedAt n trigger.id)
    (htask : phase = .removingTask →
      (s.controller.tasks.get trigger.triggerHashKey).isSome = true) :
    { s with controller := controller }.Working where
  sound := hsound
  found id other hcall := by
    rw [hgoes.calls, HashMap.get_insert] at hcall
    rw [hgoes.tasks]
    split at hcall
    · cases hcall
      exact htask rfl
    · exact h.found id other hcall
  exclusive id hid := by
    have hne : id ≠ trigger.id := by
      rintro rfl
      rw [hpatch] at hid
      cases hid
    show controller.calls.get id = none
    rw [hgoes.calls, HashMap.get_insert_of_ne _ _ hne]
    exact h.exclusive id hid
  rebuilding id other hcall := by
    rw [hgoes.calls, HashMap.get_insert] at hcall
    split at hcall
    · rename_i hid
      subst hid
      cases hcall
      exact hbuild rfl
    · exact h.rebuilding id other hcall
  cleaning id hcleaning hid := by
    rcases hcleaning with ⟨other, otherPhase, hcall, hphase⟩ | hremove
    · rw [hgoes.calls, HashMap.get_insert] at hcall
      split at hcall
      · rename_i heq
        subst heq
        cases hcall
        exact hclean hphase hid
      · exact h.cleaning id (Or.inl ⟨other, otherPhase, hcall, hphase⟩) hid
    · exact h.cleaning id (Or.inr hremove) hid
  adding := h.adding
  cleaned other hremove hentry := by
    apply h.cleaned other hremove
    rcases hentry with hentry | hentry
    · rw [hgoes.tasks] at hentry
      exact Or.inl hentry
    · exact Or.inr (hgoes.schedules _ hentry)
  owned key hkey := by
    apply h.owned key
    rcases hkey with hkey | hkey
    · rw [hgoes.tasks] at hkey
      exact Or.inl hkey
    · exact Or.inr (hgoes.schedules key hkey)

/-- A call that is over, with the patch it leaves, if any. -/
theorem Working.ends {s : Cluster Cron} (h : s.Working) {controller : Controller Cron}
    {patches : HashMap TriggerId FinalizerPatch} {ret : Return}
    (hends : s.controller.Ends controller ret) (hsound : controller.Sound)
    (hframe : Controller.Frame ret.trigger.triggerHashKey s.controller controller)
    (hentry : Entry controller ret.trigger.triggerHashKey → s.HeldAt 0 ret.trigger.id)
    (hothers : ∀ id, id ≠ ret.trigger.id → patches.get id = s.patches.get id)
    (hpatch : patches.get ret.trigger.id = none ∨
      (patches.get ret.trigger.id = some .remove ∧
        ¬ Entry controller ret.trigger.triggerHashKey ∧
        (s.HeldAt 0 ret.trigger.id → ∀ n ≤ s.lag, s.DoomedAt n ret.trigger.id))) :
    { s with controller := controller, patches := patches }.Working := by
  have hcalls : ∀ id call, controller.calls.get id = some call →
      id ≠ ret.trigger.id ∧ s.controller.calls.get id = some call := by
    intro id call hcall
    rw [hends.calls, HashMap.get_remove] at hcall
    split at hcall
    · cases hcall
    · exact ⟨‹_›, hcall⟩
  have hremoving : ∀ id, patches.get id = some .remove → id = ret.trigger.id ∨
      (id ≠ ret.trigger.id ∧ s.patches.get id = some .remove) := by
    intro id hremove
    by_cases hid : id = ret.trigger.id
    · exact Or.inl hid
    · rw [hothers id hid] at hremove
      exact Or.inr ⟨hid, hremove⟩
  constructor
  · exact hsound
  · intro id other hcall
    obtain ⟨hne, hold⟩ := hcalls id _ hcall
    rw [hframe.tasks _ ?_]
    · exact h.found id other hold
    · apply Controller.triggerHashKey_ne
      rw [h.sound.orderly.filed id _ hold]
      exact hne
  · intro id hid
    show controller.calls.get id = none
    rw [hends.calls, HashMap.get_remove]
    split
    · rfl
    · rename_i hne
      apply h.exclusive id
      change (patches.get id).isSome = true at hid
      rwa [hothers id hne] at hid
  · intro id other hcall
    exact h.rebuilding id other (hcalls id _ hcall).2
  · intro id hcleaning hid
    rcases hcleaning with ⟨other, phase, hcall, hphase⟩ | hremove
    · exact h.cleaning id (Or.inl ⟨other, phase, (hcalls id _ hcall).2, hphase⟩) hid
    · rcases hremoving id hremove with rfl | ⟨-, hold⟩
      · rcases hpatch with hnone | ⟨-, -, hdoomed⟩
        · change patches.get _ = some _ at hremove
          rw [hnone] at hremove
          cases hremove
        · exact hdoomed hid
      · exact h.cleaning id (Or.inr hold) hid
  · intro id hadd
    change patches.get id = some .add at hadd
    have hne : id ≠ ret.trigger.id := by
      rintro rfl
      rcases hpatch with hnone | ⟨hremove, -⟩
      · rw [hnone] at hadd
        cases hadd
      · rw [hremove] at hadd
        cases hadd
    rw [hothers id hne] at hadd
    exact h.adding id hadd
  · intro other hremove hother
    rcases hremoving _ hremove with hid | ⟨hne, hold⟩
    · rcases hpatch with hnone | ⟨-, hno, -⟩
      · change patches.get _ = some _ at hremove
        rw [hid, hnone] at hremove
        cases hremove
      · rw [Controller.triggerHashKey_congr hid] at hother
        exact hno hother
    · exact h.cleaned other hold (entry_of_frame hframe (Controller.triggerHashKey_ne hne) hother)
  · intro key hkey
    by_cases heq : key = ret.trigger.triggerHashKey
    · subst heq
      exact ⟨ret.trigger.toTrigger, rfl, hentry hkey⟩
    · exact h.owned key (entry_of_frame hframe heq hkey)

/-! ## Steps and runs -/

/-- The log and the work on it between two steps. -/
structure Guarded (s : Cluster Cron) : Prop where
  logged : s.Logged
  working : s.Working

theorem Logged.congr {s t : Cluster Cron} (h : s.Logged) (hlog : t.log = s.log)
    (hlag : t.lag = s.lag) : t.Logged := by
  constructor
  · rw [hlog]
    exact h.filed
  · rw [hlog]
    exact h.marked
  · rw [hlog, hlag]
    exact h.window

/-- Something happens to an object. -/
theorem Logged.record {s t : Cluster Cron} (h : s.Logged) {id : TriggerId}
    {object : Option TriggerObject} (hlog : t.log = (id, object) :: s.log)
    (hlag : t.lag = s.lag + 1) (hfiled : ∀ new, object = some new → new.trigger.id = id)
    (hmarked : ∀ old new, s.stored id = some old → old.deleting = true → object = some new →
      new.deleting = true)
    (hwindow : Window t.log t.lag id) : t.Logged := by
  constructor
  · intro other lag new hnew
    rw [hlog] at hnew
    cases lag with
    | zero =>
        by_cases hid : id = other
        · subst hid
          rw [List.drop_zero, latest_cons_self] at hnew
          exact hfiled new hnew
        · rw [List.drop_zero, latest_cons_of_ne _ _ hid] at hnew
          exact h.filed other 0 new hnew
    | succ lag => exact h.filed other lag new hnew
  · intro other lag old new hold hdeleting hnew
    rw [hlog] at hold hnew
    cases lag with
    | zero =>
        by_cases hid : id = other
        · subst hid
          rw [List.drop_zero, latest_cons_self] at hnew
          exact hmarked old new hold hdeleting hnew
        · rw [List.drop_zero, latest_cons_of_ne _ _ hid] at hnew
          rw [show old = new from Option.some.inj (hold.symm.trans hnew)] at hdeleting
          exact hdeleting
    | succ lag => exact h.marked other lag old new hold hdeleting hnew
  · intro other
    by_cases hid : id = other
    · rw [← hid]
      exact hwindow
    · rw [hlog, hlag]
      exact (h.window other).cons (holdsAt_cons_zero_of_ne object hid)

/-- The object after an event that leaves the finalizer as it is. -/
structure Quiet (before after : Option TriggerObject) : Prop where
  held : after.any TriggerObject.held = before.any TriggerObject.held
  doomed : before.any TriggerObject.doomed = true → after.any TriggerObject.doomed = true
  marked : ∀ old new, before = some old → old.deleting = true → after = some new →
    new.deleting = true

/-- An object that keeps the finalizer, or keeps to be without it, and stays marked
for deletion. -/
theorem Quiet.of_kept {old new : TriggerObject} (hheld : new.held = old.held)
    (hdeleting : old.deleting = true → new.deleting = true) : Quiet (some old) new.kept := by
  unfold TriggerObject.kept
  split
  · rename_i hgone
    simp only [Bool.and_eq_true, Bool.not_eq_true', hheld] at hgone
    refine ⟨by simp [hgone.1.2], by simp [TriggerObject.doomed, hgone.1.2], ?_⟩
    intro _ _ _ _ hnew
    cases hnew
  · refine ⟨by simp [hheld], ?_, ?_⟩
    · simp only [Option.any_some, TriggerObject.doomed, hheld, Bool.and_eq_true]
      exact fun hdoomed => ⟨hdoomed.1, hdeleting hdoomed.2⟩
    · intro _ _ hold hmark hnew
      cases hold
      cases hnew
      exact hdeleting hmark

theorem trigger_of_kept {object new : TriggerObject} (h : object.kept = some new) :
    new.trigger = object.trigger := by
  unfold TriggerObject.kept at h
  split at h
  · cases h
  · cases h
    rfl

/-- A user's step keeps everything. -/
theorem Guarded.record {s : Cluster Cron} (h : s.Guarded) {id : TriggerId}
    {object : Option TriggerObject} (hquiet : Quiet (s.stored id) object)
    (hfiled : ∀ new, object = some new → new.trigger.id = id) : (s.record id object).Guarded := by
  have hheld : ∀ other, holdsAt TriggerObject.held ((id, object) :: s.log) 0 other =
      holdsAt TriggerObject.held s.log 0 other := by
    intro other
    by_cases hid : id = other
    · subst hid
      rw [holdsAt_cons_zero_self]
      exact hquiet.held
    · exact holdsAt_cons_zero_of_ne object hid
  have hdoomed : ∀ other, s.DoomedAt 0 other → (s.record id object).DoomedAt 0 other := by
    intro other hdoomed
    by_cases hid : id = other
    · subst hid
      show holdsAt TriggerObject.doomed ((id, object) :: s.log) 0 id = true
      rw [holdsAt_cons_zero_self]
      exact hquiet.doomed hdoomed
    · show holdsAt TriggerObject.doomed ((id, object) :: s.log) 0 other = true
      rw [holdsAt_cons_zero_of_ne object hid]
      exact hdoomed
  constructor
  · exact h.logged.record rfl rfl hfiled hquiet.marked ((h.logged.window id).cons (hheld id))
  · refine h.working.of_quiet rfl rfl (fun other => ?_) ?_ ?_
    · show holdsAt _ _ _ _ = true ↔ _
      rw [show (s.record id object).log = (id, object) :: s.log from rfl, hheld other]
      exact Iff.rfl
    · intro other n hn hseen
      cases n with
      | zero => exact ⟨0, Nat.zero_le _, by rw [HeldAt, ← hheld other]; exact hseen⟩
      | succ n => exact ⟨n, Nat.le_of_succ_le_succ hn, hseen⟩
    · intro other hall n hn
      cases n with
      | zero => exact hdoomed other (hall 0 (Nat.zero_le _))
      | succ n => exact hall n (Nat.le_of_succ_le_succ hn)

/-- Where nobody has missed a removal, an object marked for deletion is seen so all
the way. -/
theorem Logged.doomed_of_held {s : Cluster Cron} (h : s.Logged) {id : TriggerId}
    (hdoomed : s.DoomedAt s.lag id) (hheld : s.HeldAt 0 id) : ∀ n ≤ s.lag, s.DoomedAt n id := by
  intro n hn
  have hdown : ∀ k ≤ s.lag, s.DoomedAt (s.lag - k) id := by
    intro k
    induction k with
    | zero => exact fun _ => hdoomed
    | succ k ih =>
        intro hk
        obtain ⟨old, hold, hmark⟩ := exists_latest_of_holdsAt (ih (by omega))
        have hseen := (h.window id).keeps hheld (s.lag - (k + 1)) s.lag (Nat.sub_le _ _)
          (le_refl _) (held_of_doomed hdoomed)
        obtain ⟨new, hnew, hnewHeld⟩ := exists_latest_of_holdsAt hseen
        rw [show s.lag - k = s.lag - (k + 1) + 1 by omega] at hold
        have hnewMark := h.marked id _ old new hold (Bool.and_eq_true_iff.mp hmark).2 hnew
        rw [DoomedAt, holdsAt_of_latest hnew]
        simp [TriggerObject.doomed, hnewHeld, hnewMark]
  have hlast := hdown (s.lag - n) (Nat.sub_le _ _)
  rwa [show s.lag - (s.lag - n) = n by omega] at hlast

/-- A step of the watch. -/
theorem Guarded.arrive {s : Cluster Cron} (h : s.Guarded) {lag : ℕ} (hlag : lag ≤ s.lag)
    (event : WatchEvent) : (s.arrive lag event).Guarded where
  logged := ⟨h.logged.filed, h.logged.marked, fun id => (h.logged.window id).mono hlag⟩
  working := h.working.of_quiet rfl rfl (fun _ => Iff.rfl)
    (fun _ n hn hseen => ⟨n, le_trans hn hlag, hseen⟩) fun _ hall n hn => hall n (le_trans hn hlag)

theorem Working.dequeue {s : Cluster Cron} (h : s.Working) (id : TriggerId) :
    (s.dequeue id).Working :=
  h.of_quiet rfl rfl (fun _ => Iff.rfl) (fun _ n hn hseen => ⟨n, hn, hseen⟩) fun _ hall => hall

theorem Guarded.halt {s : Cluster Cron} (h : s.Logged) : s.halt.Guarded where
  logged := h.congr rfl rfl
  working := .of_start rfl rfl

/-- A step of the controller is settled. -/
theorem Guarded.of_controller {s t : Cluster Cron} {controller : Controller Cron}
    (h : s.Logged) (ht : t = s.settle controller) (hworking : t = s.halt ∨ t.Working) :
    t.Guarded := by
  subst ht
  rcases hworking with hhalt | hworking
  · rw [hhalt]
    exact .halt h
  · exact ⟨h.congr (settle_log s controller) (settle_lag s controller), hworking⟩

/-- `reconcile` is called for an object that is not marked for deletion, under the
finalizer. -/
theorem Guarded.apply {s : Cluster Cron} (h : s.Guarded) {object : TriggerObject}
    {controller : Controller Cron} (hpatch : s.patches.get object.trigger.id = none)
    (hheld : s.HeldAt 0 object.trigger.id)
    (hstep : s.controller.step chrono parsers (.reconcile object.trigger) = some controller) :
    (s.settle controller).Guarded := by
  have hsound : controller.Sound := h.working.sound.step hstep trivial
  apply Guarded.of_controller h.logged rfl
  rcases Controller.step_reconcile hstep with hgoes | ⟨hends, htasks, hschedules⟩
  · rw [settle_of_goesOn hgoes]
    refine Or.inr (h.working.goesOn hgoes hsound hpatch (fun _ => hheld) ?_ (by simp))
    intro hne
    exact absurd rfl hne
  · rcases settle_of_reconciled hends with hhalt | heq
    · exact Or.inl hhalt
    · rw [heq]
      refine Or.inr (h.working.ends hends hsound ?_ (fun _ => hheld) (fun _ _ => rfl)
        (Or.inl hpatch))
      exact h.working.sound.frame_of_id hstep trivial rfl

/-- `cleanup` is called for an object that is marked for deletion, under the
finalizer. -/
theorem Guarded.clean {s : Cluster Cron} (h : s.Guarded) {object : TriggerObject}
    {controller : Controller Cron} (hpatch : s.patches.get object.trigger.id = none)
    (hdoomed : s.DoomedAt s.lag object.trigger.id)
    (hstep : s.controller.step chrono parsers (.cleanup object.trigger) = some controller) :
    (s.settle controller).Guarded := by
  have hsound : controller.Sound := h.working.sound.step hstep trivial
  apply Guarded.of_controller h.logged rfl
  obtain ⟨phase, hbuild, htask, hgoes⟩ := Controller.step_cleanup hstep
  rw [settle_of_goesOn hgoes]
  exact Or.inr (h.working.goesOn hgoes hsound hpatch (fun heq => absurd heq hbuild)
    (fun _ => h.logged.doomed_of_held hdoomed) fun heq => absurd heq htask)

/-- A call under way has no patch beside it. -/
theorem Working.no_patch {s : Cluster Cron} (h : s.Working) {id : TriggerId}
    {trigger : ScheduleTrigger} {phase : CallPhase}
    (hcall : s.controller.calls.get id = some ⟨trigger, phase⟩) :
    trigger.id = id ∧ s.patches.get id = none := by
  refine ⟨h.sound.orderly.filed id _ hcall, ?_⟩
  by_contra hpatch
  rw [h.exclusive id (Option.isSome_iff_ne_none.mpr hpatch)] at hcall
  cases hcall

theorem Guarded.rebuild {s : Cluster Cron} (h : s.Guarded) {id : TriggerId}
    {outcome : RebuildOutcome} {controller : Controller Cron} (hcancel : outcome.cancelled = true)
    (hstep : s.controller.step chrono parsers (.rebuild id outcome) = some controller) :
    (s.settle controller).Guarded := by
  have hsound : controller.Sound := h.working.sound.step hstep hcancel
  apply Guarded.of_controller h.logged rfl
  obtain ⟨trigger, result, hcall, hends⟩ := Controller.step_rebuild hstep
  obtain ⟨rfl, hpatch⟩ := h.working.no_patch hcall
  rcases settle_of_reconciled hends with hhalt | heq
  · exact Or.inl hhalt
  · rw [heq]
    refine Or.inr (h.working.ends hends hsound ?_ ?_ (fun _ _ => rfl) (Or.inl hpatch))
    · exact h.working.sound.frame_of_id hstep hcancel rfl
    · exact fun _ => h.working.rebuilding _ trigger hcall

theorem Guarded.proceed {s : Cluster Cron} (h : s.Guarded) {id : TriggerId} {cancelled : Bool}
    {controller : Controller Cron} (hcancel : cancelled = true)
    (hstep : s.controller.step chrono parsers (.proceed id cancelled) = some controller) :
    (s.settle controller).Guarded := by
  have hsound : controller.Sound := h.working.sound.step hstep hcancel
  apply Guarded.of_controller h.logged rfl
  obtain ⟨trigger, phase, hcall, hphase, hnext⟩ :=
    Controller.step_proceed h.working.sound h.working.found hstep
  obtain ⟨rfl, hpatch⟩ := h.working.no_patch hcall
  have hdoomed := h.working.cleaning trigger.id (Or.inl ⟨trigger, phase, hcall, hphase⟩)
  rcases hnext with ⟨next, hbuild, hgoes, htask⟩ | ⟨hends, htasks, hschedules⟩
  · rw [settle_of_goesOn hgoes]
    exact Or.inr (h.working.goesOn hgoes hsound hpatch (fun heq => absurd heq hbuild)
      (fun _ => hdoomed) htask)
  · rw [settle_of_cleaned hends]
    have hentry : ¬ Entry controller trigger.triggerHashKey := by
      simp [Entry, htasks, hschedules]
    refine Or.inr (h.working.ends hends hsound ?_ (fun hkey => absurd hkey hentry) ?_ ?_)
    · exact h.working.sound.frame_of_id hstep hcancel rfl
    · exact fun id hid => HashMap.get_insert_of_ne _ _ hid
    · exact Or.inr ⟨HashMap.get_insert_self _ _ _, hentry, hdoomed⟩

theorem Working.endPatch {s : Cluster Cron} (h : s.Working) (id : TriggerId) :
    (s.endPatch id).Working := by
  have hold : ∀ other patch, (s.patches.remove id).get other = some patch →
      s.patches.get other = some patch := by
    intro other patch hpatch
    rw [HashMap.get_remove] at hpatch
    split at hpatch
    · cases hpatch
    · exact hpatch
  constructor
  · exact h.sound
  · exact h.found
  · intro other hother
    obtain ⟨patch, hpatch⟩ := Option.isSome_iff_exists.mp hother
    exact h.exclusive other (by rw [hold other patch hpatch]; rfl)
  · exact h.rebuilding
  · rintro other (hcall | hremove)
    · exact h.cleaning other (Or.inl hcall)
    · exact h.cleaning other (Or.inr (hold other _ hremove))
  · exact fun other hadd => h.adding other (hold other _ hadd)
  · exact fun trigger hremove => h.cleaned trigger (hold trigger.id _ hremove)
  · exact h.owned

/-- The patch that puts the finalizer on is sent. -/
theorem Working.startAdd {s : Cluster Cron} (h : s.Working) {id : TriggerId}
    (hcalls : s.controller.calls.get id = none)
    (hnever : s.HeldAt 0 id ∨ ∀ n ≤ s.lag, ¬ s.HeldAt n id) :
    { s with patches := s.patches.insert id .add }.Working := by
  have hold : ∀ other, (s.patches.insert id .add).get other = some .remove →
      s.patches.get other = some .remove := by
    intro other hremove
    rw [HashMap.get_insert] at hremove
    split at hremove
    · cases hremove
    · exact hremove
  constructor
  · exact h.sound
  · exact h.found
  · intro other hother
    by_cases hid : other = id
    · rw [hid]
      exact hcalls
    · apply h.exclusive other
      change ((s.patches.insert id .add).get other).isSome = true at hother
      rwa [HashMap.get_insert_of_ne _ _ hid] at hother
  · exact h.rebuilding
  · rintro other (hcall | hremove)
    · exact h.cleaning other (Or.inl hcall)
    · exact h.cleaning other (Or.inr (hold other hremove))
  · intro other hadd
    by_cases hid : other = id
    · rw [hid]
      exact hnever
    · change (s.patches.insert id .add).get other = some .add at hadd
      rw [HashMap.get_insert_of_ne _ _ hid] at hadd
      exact h.adding other hadd
  · exact fun trigger hremove => h.cleaned trigger (hold trigger.id hremove)
  · exact h.owned

/-- The finalizer of an object nothing is going on for is changed: entries need it
to be on. -/
theorem Working.patched {s : Cluster Cron} (h : s.Working) {id : TriggerId}
    {object : Option TriggerObject} (hcalls : s.controller.calls.get id = none)
    (hpatch : s.patches.get id = none)
    (hentry : ∀ trigger : Trigger, trigger.id = id →
      Entry s.controller trigger.triggerHashKey → object.any TriggerObject.held = true) :
    (s.record id object).Working := by
  have hzero : ∀ {p : TriggerObject → Bool} {other}, other ≠ id →
      holdsAt p ((id, object) :: s.log) 0 other = holdsAt p s.log 0 other :=
    fun hne => holdsAt_cons_zero_of_ne object hne.symm
  have hbusy : ∀ other call, s.controller.calls.get other = some call → other ≠ id := by
    rintro other call hcall rfl
    rw [hcalls] at hcall
    cases hcall
  have hpatched : ∀ other patch, s.patches.get other = some patch → other ≠ id := by
    rintro other patch hother rfl
    rw [hpatch] at hother
    cases hother
  constructor
  · exact h.sound
  · exact h.found
  · exact h.exclusive
  · intro other trigger hcall
    exact (hzero (hbusy other _ hcall)).trans (h.rebuilding other trigger hcall)
  · intro other hcleaning hheld n hn
    have hne : other ≠ id := by
      rcases hcleaning with ⟨trigger, phase, hcall, -⟩ | hremove
      · exact hbusy other _ hcall
      · exact hpatched other _ hremove
    have hall := h.cleaning other hcleaning ((hzero hne).symm.trans hheld)
    cases n with
    | zero => exact (hzero hne).trans (hall 0 (Nat.zero_le _))
    | succ n => exact hall n (Nat.le_of_succ_le_succ hn)
  · intro other hadd
    have hne := hpatched other _ hadd
    rcases h.adding other hadd with hheld | hnever
    · exact Or.inl ((hzero hne).trans hheld)
    · refine Or.inr fun n hn hheld => ?_
      cases n with
      | zero => exact hnever 0 (Nat.zero_le _) ((hzero hne).symm.trans hheld)
      | succ n => exact hnever n (Nat.le_of_succ_le_succ hn) hheld
  · exact h.cleaned
  · intro key hkey
    obtain ⟨trigger, rfl, hheld⟩ := h.owned key hkey
    refine ⟨trigger, rfl, ?_⟩
    by_cases hid : trigger.id = id
    · show holdsAt TriggerObject.held ((id, object) :: s.log) 0 trigger.id = true
      rw [hid, holdsAt_cons_zero_self]
      exact hentry trigger hid hkey
    · exact (hzero hid).trans hheld

/-- The finalizer is put on. -/
theorem Guarded.added {s : Cluster Cron} (h : s.Guarded) {id : TriggerId}
    {object : TriggerObject} (hpatch : s.patches.get id = some .add)
    (hstored : s.stored id = some object) (hheld : object.held = false)
    (hdeleting : object.deleting = false) :
    ((s.endPatch id).record id (some { object with held := true })).Guarded := by
  have hcalls := h.working.exclusive id (by rw [hpatch]; rfl)
  have hnot : holdsAt TriggerObject.held s.log 0 id = false := by
    rw [holdsAt_zero, ← hheld]
    exact congrArg (Option.any TriggerObject.held) hstored
  constructor
  · refine h.logged.record rfl rfl ?_ ?_ (.cons_added ?_ ?_)
    · intro new hnew
      cases hnew
      exact h.logged.filed id 0 object hstored
    · intro old new hold hmark
      cases hstored.symm.trans hold
      rw [hdeleting] at hmark
      cases hmark
    · rcases h.working.adding id hpatch with hyes | hnever
      · rw [HeldAt, hnot] at hyes
        cases hyes
      · exact fun n hn => Bool.eq_false_iff.mpr (hnever n hn)
    · exact holdsAt_cons_zero_self _
  · exact (h.working.endPatch id).patched hcalls (HashMap.get_remove_self _ _) fun _ _ _ => rfl

/-- The finalizer is taken off. -/
theorem Guarded.removed {s : Cluster Cron} (h : s.Guarded) {id : TriggerId}
    {object : TriggerObject} (hpatch : s.patches.get id = some .remove)
    (hstored : s.stored id = some object) (hheld : object.held = true) :
    ((s.endPatch id).record id { object with held := false }.kept).Guarded := by
  have hcalls := h.working.exclusive id (by rw [hpatch]; rfl)
  have hyes : s.HeldAt 0 id := by
    rw [HeldAt, holdsAt_zero, ← hheld]
    exact congrArg (Option.any TriggerObject.held) hstored
  have hoff : ∀ new, { object with held := false }.kept = some new →
      new = { object with held := false } := by
    intro new hnew
    unfold TriggerObject.kept at hnew
    split at hnew
    · cases hnew
    · exact (Option.some.inj hnew).symm
  constructor
  · refine h.logged.record rfl rfl ?_ ?_ (.cons_removed ?_ ?_)
    · intro new hnew
      rw [hoff new hnew]
      exact h.logged.filed id 0 object hstored
    · intro old new hold hmark hnew
      cases hstored.symm.trans hold
      rw [hoff new hnew]
      exact hmark
    · exact h.working.cleaning id (Or.inr hpatch) hyes
    · rw [holdsAt_cons_zero_self, Option.any_eq_false]
      intro new hnew
      rw [hoff new hnew]
  · refine (h.working.endPatch id).patched hcalls (HashMap.get_remove_self _ _) ?_
    rintro trigger rfl hentry
    exact absurd hentry (h.working.cleaned trigger hpatch)

/-- The scheduler's `cancel` succeeds. -/
def CancelsSucceed (_ : Cluster Cron) : ClusterAction → Cluster Cron → Prop
  | .rebuild _ outcome, _ => outcome.cancelled = true
  | .proceed _ cancelled, _ => cancelled = true
  | _, _ => True

/-- The list a leader starts with is recent: it misses no removal of a finalizer. -/
def ListsRecent (s : Cluster Cron) : ClusterAction → Cluster Cron → Prop
  | .term lag, _ => Steady TriggerObject.held s.log lag
  | _, _ => True

/-- Every step with successful cancellations and recent lists keeps the cluster
guarded. -/
theorem Guarded.step {s t : Cluster Cron} {action : ClusterAction} (h : s.Guarded)
    (hstep : s.step chrono parsers action = some t) (hcancel : CancelsSucceed s action t)
    (hrecent : ListsRecent s action t) : t.Guarded := by
  cases Happens.of_step hstep with
  | create trigger others hstored =>
      apply h.record
      · rw [hstored]
        exact ⟨rfl, by simp, by simp⟩
      · intro new hnew
        cases hnew
        rfl
  | edit trigger others object hstored =>
      apply h.record
      · rw [hstored]
        exact .of_kept rfl id
      · exact fun new hnew => congrArg (fun t => t.toTrigger.id) (trigger_of_kept hnew)
  | delete id object hstored =>
      apply h.record
      · rw [hstored]
        exact .of_kept rfl fun _ => rfl
      · intro new hnew
        rw [trigger_of_kept hnew]
        exact h.logged.filed id 0 object hstored
  | deliver lag event hlag hevent => exact h.arrive (by omega) event
  | idle id hfree hview => exact ⟨h.logged.congr rfl rfl, h.working.dequeue id⟩
  | apply id object controller hfree hview hheld hdeleting hcall =>
      obtain rfl : object.trigger.id = id := h.logged.filed _ _ object hview
      have hdequeued : (s.dequeue object.trigger.id).Guarded :=
        ⟨h.logged.congr rfl rfl, h.working.dequeue _⟩
      exact hdequeued.apply hfree.patches
        ((h.logged.window _).held_of_view hview hheld hdeleting) hcall
  | clean id object controller hfree hview hdoomed hcall =>
      obtain rfl : object.trigger.id = id := h.logged.filed _ _ object hview
      have hdequeued : (s.dequeue object.trigger.id).Guarded :=
        ⟨h.logged.congr rfl rfl, h.working.dequeue _⟩
      exact hdequeued.clean hfree.patches ((holdsAt_of_latest hview).trans hdoomed) hcall
  | add id object hfree hview hheld hdeleting =>
      refine ⟨h.logged.congr rfl rfl, (h.working.dequeue id).startAdd hfree.calls ?_⟩
      have hnever := (h.logged.window id).never_of_view ((holdsAt_of_latest hview).trans hheld)
      exact hnever.imp_right fun hnot n hn => Bool.eq_false_iff.mp (hnot n hn)
  | rebuild id outcome controller hcall => exact h.rebuild hcancel hcall
  | proceed id cancelled controller hcall => exact h.proceed hcancel hcall
  | added id object hpatch hstored hheld hdeleting => exact h.added hpatch hstored hheld hdeleting
  | removed id object hpatch hstored hheld => exact h.removed hpatch hstored hheld
  | refused id patch hpatch => exact ⟨h.logged.congr rfl rfl, h.working.endPatch id⟩
  | term lag hlag =>
      exact ⟨⟨h.logged.filed, h.logged.marked, fun id => .of_steady hrecent id⟩,
        .of_start rfl rfl⟩

instance (s : Cluster Cron) (action : ClusterAction) (t : Cluster Cron) :
    Decidable (CancelsSucceed s action t) :=
  match action with
  | .rebuild _ outcome => inferInstanceAs (Decidable (outcome.cancelled = true))
  | .proceed _ cancelled => inferInstanceAs (Decidable (cancelled = true))
  | .create _ _ | .edit _ _ | .delete _ | .deliver | .take _ | .patch _ _ | .term _ =>
      instDecidableTrue

instance (s : Cluster Cron) (action : ClusterAction) (t : Cluster Cron) :
    Decidable (ListsRecent s action t) :=
  match action with
  | .term lag => inferInstanceAs (Decidable (Steady TriggerObject.held s.log lag))
  | .create _ _ | .edit _ _ | .delete _ | .deliver | .take _ | .rebuild _ _ | .proceed _ _
  | .patch _ _ => instDecidableTrue

theorem start_guarded : (start : Cluster Cron).Guarded where
  logged := by
    refine ⟨by simp [start], by simp [start], fun id => .of_steady ?_ id⟩
    intro n hn
    exact absurd hn (Nat.not_lt_zero n)
  working := .of_start rfl rfl

theorem guarded_of_run {actions : List ClusterAction} {s : Cluster Cron}
    (hrun : run (step chrono parsers) start actions = some s)
    (hcancel : Along (step chrono parsers) CancelsSucceed start actions)
    (hrecent : Along (step chrono parsers) ListsRecent start actions) : s.Guarded :=
  invariant_of_along (fun _ _ _ hstep h hc => h.step hstep hc.1 hc.2) hrun (hcancel.and hrecent)
    start_guarded

/-- An entry belongs to an object that is stored, under the finalizer. -/
theorem Guarded.object_of_entry {s : Cluster Cron} (h : s.Guarded) {key : String}
    (hkey : Entry s.controller key) :
    ∃ object : TriggerObject, s.stored object.trigger.id = some object ∧ object.held = true ∧
      object.trigger.triggerHashKey = key := by
  obtain ⟨trigger, rfl, hheld⟩ := h.working.owned key hkey
  obtain ⟨object, hstored, hobject⟩ := exists_latest_of_holdsAt hheld
  have hid := h.logged.filed trigger.id 0 object hstored
  refine ⟨object, ?_, hobject, Controller.triggerHashKey_congr hid⟩
  rw [hid]
  exact hstored

/-- No task outlives its object.  Whatever users do to their triggers, however far
the watch of the controller lags behind and however its calls and patches
interleave: if cancelling succeeds and no list a leader starts with is older than
the removal of a finalizer, then every task in the scheduler and every entry of
the two maps belongs to an object that the API server stores, under the
finalizer; and no step of a cleanup panics. -/
theorem tasks_have_objects (chrono : Rfc3339.Codec) (parsers : ScheduleParsers Cron)
    (actions : List ClusterAction) (s : Cluster Cron)
    (hrun : run (step chrono parsers) start actions = some s)
    (hcancel : Along (step chrono parsers) CancelsSucceed start actions)
    (hrecent : Along (step chrono parsers) ListsRecent start actions) :
    (∀ id task, s.controller.live.get id = some task →
      ∃ object : TriggerObject, s.stored object.trigger.id = some object ∧
        object.held = true ∧ object.trigger.triggerHashKey = task.key) ∧
    (∀ key, Entry s.controller key →
      ∃ object : TriggerObject, s.stored object.trigger.id = some object ∧
        object.held = true ∧ object.trigger.triggerHashKey = key) ∧
    (∀ id cancelled t, s.step chrono parsers (.proceed id cancelled) = some t →
      t.halted = s.halted) := by
  have h := guarded_of_run hrun hcancel hrecent
  refine ⟨?_, fun key hkey => h.object_of_entry hkey, ?_⟩
  · intro id task hlive
    apply h.object_of_entry
    left
    rw [(h.working.sound.tied.owner task.key id).mpr ⟨task, hlive, rfl⟩]
    rfl
  · intro id cancelled t hstep
    obtain ⟨controller, hcall, rfl⟩ := Option.map_eq_some_iff.mp hstep
    obtain ⟨trigger, phase, -, -, hnext⟩ :=
      Controller.step_proceed h.working.sound h.working.found hcall
    rcases hnext with ⟨next, -, hgoes, -⟩ | ⟨hends, -, -⟩
    · rw [settle_of_goesOn hgoes]
    · rw [settle_of_cleaned hends]

/-- A user creates a trigger, and a leader puts the finalizer on it and schedules
it. -/
def createAndSchedule : List ClusterAction :=
  [.create (Controller.intervalTrigger "1m") [], .deliver, .take ("default", "trigger"),
    .patch ("default", "trigger") true, .deliver, .take ("default", "trigger"),
    .rebuild ("default", "trigger") Controller.smooth]

theorem createAndSchedule_isSome :
    (run (step Rfc3339.standard Controller.minuteParsers) start createAndSchedule).isSome =
      true := by
  decide +kernel

theorem tasks_have_objects_createAndSchedule :
    ∃ s, run (step Rfc3339.standard Controller.minuteParsers) start createAndSchedule = some s ∧
      (s.controller.live.get 0).isSome = true ∧
      ∀ task, s.controller.live.get 0 = some task →
        ∃ object : TriggerObject, s.stored object.trigger.id = some object ∧
          object.held = true ∧ object.trigger.triggerHashKey = task.key := by
  refine ⟨_, (Option.some_get createAndSchedule_isSome).symm, by decide +kernel, ?_⟩
  exact (tasks_have_objects Rfc3339.standard Controller.minuteParsers createAndSchedule _
    (Option.some_get createAndSchedule_isSome).symm (by decide +kernel) (by decide +kernel)).1 0

/-- The trigger is deleted and cleaned up, and the next leader starts with a list
from before its deletion. -/
def startWithStaleList : List ClusterAction :=
  createAndSchedule ++
    [.delete ("default", "trigger"), .deliver, .take ("default", "trigger"),
      .proceed ("default", "trigger") true, .proceed ("default", "trigger") true,
      .proceed ("default", "trigger") true, .patch ("default", "trigger") true,
      .term 2, .take ("default", "trigger"),
      .rebuild ("default", "trigger") Controller.smooth, .deliver, .deliver,
      .take ("default", "trigger")]

/-- Behind a list that is older than the removal of a finalizer, a task stays
without an object, with nothing left to be done about it. -/
example :
    ((run (step Rfc3339.standard Controller.minuteParsers) start startWithStaleList).map fun s =>
      ((s.controller.live.get 0).isSome, (s.stored ("default", "trigger")).isSome, s.lag,
        s.queued ("default", "trigger"))) = some (true, false, 0, false) := by
  decide +kernel

end Cluster

end GitEventsRunner.Triggers
