/-
# No object is forgotten

A reconciliation that failed is not repeated: `error_policy` waits for a change of
the object.  So an object must never be left with work to do and nothing under way
that will do it.

An object is unsettled while the finalizer has yet to be put on it, or is on it
although it is marked for deletion.  Then, as long as the API server accepts the
patches it can accept, the controller still has something before it: an event it
has not seen, a request in its queue, a cleanup or the patch behind one, or the
patch that puts the finalizer on.
-/

import GitEventsRunner.Triggers.Cleanup

namespace GitEventsRunner.Triggers

open GitEventsRunner.Lib

variable {Cron : Type} {chrono : Rfc3339.Codec} {parsers : ScheduleParsers Cron}

namespace Cluster

/-- Something is under way for an unsettled object. -/
inductive Attended (s : Cluster Cron) (id : TriggerId) (object : TriggerObject) : Prop
  | missed (hmissed : Missed s.log s.lag id)
  | queued (hqueued : s.queued id = true)
  | cleaning (hheld : object.held = true) (hcleaning : s.Cleaning id)
  | adding (hheld : object.held = false) (hpatch : s.patches.get id = some .add)

/-- The controller has not been taken down by a panic, and every unsettled object is
attended to. -/
def Busy (s : Cluster Cron) : Prop :=
  s.halted = true ∨ ∀ id object, s.stored id = some object → object.unsettled = true →
    s.Attended id object

/-- The patch is still due: the object is there, and as the patch needs it. -/
def due (s : Cluster Cron) (id : TriggerId) (patch : FinalizerPatch) : Bool :=
  match patch, s.stored id with
  | .add, some object => !object.held && !object.deleting
  | .remove, some object => object.held
  | _, none => false

/-- No patch that is still due is refused. -/
def PatchesAccepted (s : Cluster Cron) : ClusterAction → Cluster Cron → Prop
  | .patch id false, _ => ∀ patch ∈ s.patches.get id, s.due id patch = false
  | _, _ => True

instance (s : Cluster Cron) (action : ClusterAction) (t : Cluster Cron) :
    Decidable (PatchesAccepted s action t) :=
  match action with
  | .patch id false =>
      inferInstanceAs (Decidable (∀ patch ∈ s.patches.get id, s.due id patch = false))
  | .patch _ true | .create _ _ | .edit _ _ | .delete _ | .deliver | .take _ | .rebuild _ _
  | .proceed _ _ | .term _ => instDecidableTrue

/-! ## One step -/

/-- An object that is attended to in the same way as before. -/
theorem Attended.mono {s t : Cluster Cron} {id : TriggerId} {object : TriggerObject}
    (h : s.Attended id object) (hmissed : Missed s.log s.lag id → Missed t.log t.lag id)
    (hqueued : s.queued id = true → t.queued id = true)
    (hcleaning : s.Cleaning id → t.Cleaning id)
    (hadding : s.patches.get id = some .add → t.patches.get id = some .add) :
    t.Attended id object := by
  cases h with
  | missed h => exact .missed (hmissed h)
  | queued h => exact .queued (hqueued h)
  | cleaning hheld h => exact .cleaning hheld (hcleaning h)
  | adding hheld h => exact .adding hheld (hadding h)

/-- A cleanup goes on with the same call and patch. -/
theorem Cleaning.congr {s t : Cluster Cron} {id : TriggerId} (h : s.Cleaning id)
    (hcalls : t.controller.calls.get id = s.controller.calls.get id)
    (hpatches : t.patches.get id = s.patches.get id) : t.Cleaning id := by
  rw [Cleaning, hcalls, hpatches]
  exact h

/-- What happens to an object has to be seen, and the others are as before. -/
theorem Busy.record {s t : Cluster Cron} (h : s.Busy) {id : TriggerId}
    {object : Option TriggerObject} (hhalted : t.halted = s.halted)
    (hlog : t.log = (id, object) :: s.log) (hlag : t.lag = s.lag + 1)
    (hqueued : t.queued = s.queued) (hcontroller : t.controller = s.controller)
    (hpatches : ∀ other, other ≠ id → t.patches.get other = s.patches.get other) : t.Busy := by
  refine h.imp (fun hhalt => hhalted.trans hhalt) fun hattended other new hnew hunsettled => ?_
  by_cases hid : other = id
  · subst hid
    apply Attended.missed
    rw [hlog, hlag]
    exact missed_cons_self object
  · rw [stored, hlog, latest_cons_of_ne _ _ (Ne.symm hid)] at hnew
    refine (hattended other new hnew hunsettled).mono ?_ ?_ ?_ ?_
    · rw [hlog, hlag]
      exact fun hmissed => hmissed.cons _
    · rw [hqueued]
      exact fun hq => hq
    · exact fun hcleaning => hcleaning.congr (by rw [hcontroller]) (hpatches other hid)
    · rw [hpatches other hid]
      exact fun hadd => hadd

/-- An event arrives: an applied object is queued, and one that is gone has nothing
to be done about. -/
theorem Busy.arrive {s : Cluster Cron} (h : s.Busy) {lag : ℕ} {event : WatchEvent}
    (hlag : s.lag = lag + 1) (hevent : s.log[lag]? = some event) : (s.arrive lag event).Busy := by
  refine h.imp_right fun hattended id object hstored hunsettled => ?_
  have hgrows : ∀ other, s.queued other = true → (s.arrive lag event).queued other = true := by
    intro other hqueued
    show (if event.2.isSome then Function.update s.queued event.1 true else s.queued) other = true
    split
    · rw [Function.update_apply]
      split
      · rfl
      · exact hqueued
    · exact hqueued
  cases hattended id object hstored hunsettled with
  | queued hqueued => exact .queued (hgrows id hqueued)
  | cleaning hheld hcleaning => exact .cleaning hheld hcleaning
  | adding hheld hpatch => exact .adding hheld hpatch
  | missed hmissed =>
      rw [hlag] at hmissed
      by_cases hstill : Missed s.log lag id
      · exact .missed hstill
      · obtain ⟨value, hvalue⟩ := hmissed.of_succ.resolve_left hstill
        obtain rfl : event = (id, value) := Option.some.inj (hevent.symm.trans hvalue)
        -- the event is the newest about the object
        have hlatest : latest s.log id = value := by
          obtain ⟨hlt, hget⟩ := List.getElem?_eq_some_iff.mp hvalue
          rw [← latest_drop_of_not_missed hstill, List.drop_eq_getElem_cons hlt, hget,
            latest_cons_self]
        obtain rfl : value = some object := hlatest.symm.trans hstored
        apply Attended.queued
        show Function.update s.queued id true id = true
        exact Function.update_self _ _ _

/-- A request is taken from the queue: unless an event is missing, what the
controller has seen is what is stored. -/
theorem Busy.dequeue {s t : Cluster Cron} (h : s.Busy) (id : TriggerId)
    (hhalted : s.halted = true → t.halted = true) (hlog : t.log = s.log) (hlag : t.lag = s.lag)
    (hqueued : ∀ other, other ≠ id → s.queued other = true → t.queued other = true)
    (hcleaning : ∀ other, other ≠ id → s.Cleaning other → t.Cleaning other)
    (hadding : ∀ other, other ≠ id → s.patches.get other = some .add →
      t.patches.get other = some .add)
    (hself : ∀ object, s.view id = some object → object.unsettled = true → t.Attended id object) :
    t.Busy := by
  refine h.imp hhalted fun hattended other object hstored hunsettled => ?_
  rw [stored, hlog] at hstored
  by_cases hid : other = id
  · subst hid
    by_cases hmissed : Missed s.log s.lag other
    · apply Attended.missed
      rwa [hlog, hlag]
    · refine hself object ?_ hunsettled
      exact (latest_drop_of_not_missed hmissed).trans hstored
  · refine (hattended other object hstored hunsettled).mono ?_ (hqueued other hid)
      (hcleaning other hid) (hadding other hid)
    rw [hlog, hlag]
    exact fun hmissed => hmissed

/-- Nothing but the calls and the patches changes: who was attended to by a cleanup
or by the patch that adds still is. -/
theorem Busy.congr {s t : Cluster Cron} (h : s.Busy) (hhalted : s.halted = true → t.halted = true)
    (hlog : t.log = s.log) (hlag : t.lag = s.lag) (hqueued : t.queued = s.queued)
    (hcleaning : ∀ id, s.Cleaning id → t.Cleaning id ∨ ∀ object, s.stored id = some object →
      object.held = false)
    (hadding : ∀ id, s.patches.get id = some .add → t.patches.get id = some .add ∨
      ∀ object, s.stored id = some object → object.held = false → object.unsettled = false) :
    t.Busy := by
  refine h.imp hhalted fun hattended id object hstored hunsettled => ?_
  rw [stored, hlog] at hstored
  cases hattended id object hstored hunsettled with
  | missed hmissed =>
      apply Attended.missed
      rwa [hlog, hlag]
  | queued hq =>
      apply Attended.queued
      rwa [hqueued]
  | cleaning hheld hcall =>
      refine .cleaning hheld ((hcleaning id hcall).resolve_right fun hnot => ?_)
      rw [hnot object hstored] at hheld
      cases hheld
  | adding hheld hpatch =>
      refine .adding hheld ((hadding id hpatch).resolve_right fun hnot => ?_)
      rw [hnot object hstored hheld] at hunsettled
      cases hunsettled

/-- A cleanup goes on while the calls and patches of others change. -/
theorem Cleaning.of_ne {s t : Cluster Cron} {id other : TriggerId} (h : s.Cleaning other)
    (hcalls : t.controller.calls = s.controller.calls.remove id ∨
      ∃ call, t.controller.calls = s.controller.calls.insert id call)
    (hpatches : t.patches = s.patches ∨ ∃ patch, t.patches = s.patches.insert id patch)
    (hne : other ≠ id) : t.Cleaning other := by
  apply h.congr
  · rcases hcalls with hcalls | ⟨call, hcalls⟩
    · rw [hcalls, HashMap.get_remove_of_ne _ hne]
    · rw [hcalls, HashMap.get_insert_of_ne _ _ hne]
  · rcases hpatches with hpatches | ⟨patch, hpatches⟩
    · rw [hpatches]
    · rw [hpatches, HashMap.get_insert_of_ne _ _ hne]

theorem Busy.apply {s : Cluster Cron} (h : s.Busy) {object : TriggerObject}
    {controller : Controller Cron} (hview : s.view object.trigger.id = some object)
    (hheld : object.held = true) (hdeleting : object.deleting = false)
    (hstep : s.controller.step chrono parsers (.reconcile object.trigger) = some controller) :
    ((s.dequeue object.trigger.id).settle controller).Busy := by
  have hself : ∀ seen, s.view object.trigger.id = some seen → seen.unsettled = false := by
    intro seen hseen
    obtain rfl : object = seen := Option.some.inj (hview.symm.trans hseen)
    simp [TriggerObject.unsettled, hheld, hdeleting]
  have hdone : ∀ calls, (controller.calls = s.controller.calls.remove object.trigger.id ∨
      ∃ call, controller.calls = s.controller.calls.insert object.trigger.id call) →
      calls = { s.dequeue object.trigger.id with controller := controller } →
      calls.Busy := by
    rintro calls hcalls rfl
    refine h.dequeue object.trigger.id (fun hhalt => hhalt) rfl rfl ?_ ?_
      (fun _ _ hadd => hadd) ?_
    · intro other hne hqueued
      exact (Function.update_of_ne hne _ _).trans hqueued
    · intro other hne hcleaning
      exact hcleaning.of_ne hcalls (Or.inl rfl) hne
    · intro seen hseen hunsettled
      rw [hself seen hseen] at hunsettled
      cases hunsettled
  rcases Controller.step_reconcile hstep with hgoes | ⟨hends, -, -⟩
  · exact hdone _ (Or.inr ⟨_, hgoes.calls⟩) (settle_of_goesOn (s := s.dequeue _) hgoes)
  · rcases settle_of_reconciled (s := s.dequeue _) hends with hhalt | heq
    · rw [hhalt]
      exact Or.inl rfl
    · exact hdone _ (Or.inl hends.calls) heq

theorem Busy.clean {s : Cluster Cron} (h : s.Busy) {object : TriggerObject}
    {controller : Controller Cron} (hview : s.view object.trigger.id = some object)
    (hdoomed : object.doomed = true)
    (hstep : s.controller.step chrono parsers (.cleanup object.trigger) = some controller) :
    ((s.dequeue object.trigger.id).settle controller).Busy := by
  obtain ⟨phase, hphase, -, hgoes⟩ := Controller.step_cleanup hstep
  rw [show (s.dequeue object.trigger.id).settle controller =
    { s.dequeue object.trigger.id with controller := controller } from
      settle_of_goesOn (s := s.dequeue _) hgoes]
  refine h.dequeue object.trigger.id (fun hhalt => hhalt) rfl rfl ?_ ?_
    (fun _ _ hadd => hadd) ?_
  · intro other hne hqueued
    exact (Function.update_of_ne hne _ _).trans hqueued
  · intro other hne hcleaning
    exact hcleaning.of_ne (Or.inr ⟨_, hgoes.calls⟩) (Or.inl rfl) hne
  · intro seen hseen _
    obtain rfl : object = seen := Option.some.inj (hview.symm.trans hseen)
    refine .cleaning (Bool.and_eq_true_iff.mp hdoomed).1
      (Or.inl ⟨object.trigger, phase, ?_, hphase⟩)
    show controller.calls.get object.trigger.id = _
    rw [hgoes.calls, HashMap.get_insert_self]

theorem Busy.add {s : Cluster Cron} (h : s.Busy) {id : TriggerId} {object : TriggerObject}
    (hview : s.view id = some object) (hheld : object.held = false) :
    { s.dequeue id with patches := s.patches.insert id .add }.Busy := by
  refine h.dequeue id (fun hhalt => hhalt) rfl rfl ?_ ?_ ?_ ?_
  · intro other hne hqueued
    exact (Function.update_of_ne hne _ _).trans hqueued
  · intro other hne hcleaning
    exact hcleaning.congr rfl (HashMap.get_insert_of_ne _ _ hne)
  · intro other hne hadd
    exact (HashMap.get_insert_of_ne _ _ hne).trans hadd
  · intro seen hseen _
    obtain rfl : object = seen := Option.some.inj (hview.symm.trans hseen)
    exact .adding hheld (HashMap.get_insert_self _ _ _)

theorem Busy.idle {s : Cluster Cron} (h : s.Busy) {id : TriggerId}
    (hview : ∀ object, s.view id = some object → object.unsettled = false) :
    (s.dequeue id).Busy := by
  refine h.dequeue id (fun hhalt => hhalt) rfl rfl ?_ (fun _ _ hcleaning => hcleaning)
    (fun _ _ hadd => hadd) ?_
  · intro other hne hqueued
    exact (Function.update_of_ne hne _ _).trans hqueued
  · intro seen hseen hunsettled
    rw [hview seen hseen] at hunsettled
    cases hunsettled

theorem Busy.rebuild {s : Cluster Cron} (h : s.Busy) (hworking : s.Working) {id : TriggerId}
    {outcome : RebuildOutcome} {controller : Controller Cron}
    (hstep : s.controller.step chrono parsers (.rebuild id outcome) = some controller) :
    (s.settle controller).Busy := by
  obtain ⟨trigger, result, hcall, hends⟩ := Controller.step_rebuild hstep
  obtain ⟨rfl, hpatch⟩ := hworking.no_patch hcall
  rcases settle_of_reconciled hends with hhalt | heq
  · rw [hhalt]
    exact Or.inl rfl
  · rw [heq]
    refine h.congr (fun hhalt => hhalt) rfl rfl rfl ?_ fun _ hadd => Or.inl hadd
    intro other hcleaning
    left
    have hne : other ≠ trigger.id := by
      rintro rfl
      rcases hcleaning with ⟨found, phase, hfound, hphase⟩ | hremove
      · rw [hcall] at hfound
        cases hfound
        exact hphase rfl
      · rw [hpatch] at hremove
        cases hremove
    exact hcleaning.of_ne (Or.inl hends.calls) (Or.inl rfl) hne

theorem Busy.proceed {s : Cluster Cron} (h : s.Busy) (hworking : s.Working) {id : TriggerId}
    {cancelled : Bool} {controller : Controller Cron}
    (hstep : s.controller.step chrono parsers (.proceed id cancelled) = some controller) :
    (s.settle controller).Busy := by
  obtain ⟨trigger, phase, hcall, -, hnext⟩ :=
    Controller.step_proceed hworking.sound hworking.found hstep
  obtain ⟨rfl, hpatch⟩ := hworking.no_patch hcall
  rcases hnext with ⟨next, hbuild, hgoes, -⟩ | ⟨hends, -, -⟩
  · rw [settle_of_goesOn hgoes]
    refine h.congr (fun hhalt => hhalt) rfl rfl rfl ?_ fun _ hadd => Or.inl hadd
    intro other hcleaning
    left
    by_cases hid : other = trigger.id
    · rw [hid]
      refine Or.inl ⟨trigger, next, ?_, hbuild⟩
      show controller.calls.get trigger.id = _
      rw [hgoes.calls, HashMap.get_insert_self]
    · exact hcleaning.of_ne (Or.inr ⟨_, hgoes.calls⟩) (Or.inl rfl) hid
  · rw [settle_of_cleaned hends]
    refine h.congr (fun hhalt => hhalt) rfl rfl rfl ?_ ?_
    · intro other hcleaning
      left
      by_cases hid : other = trigger.id
      · rw [hid]
        exact Or.inr (HashMap.get_insert_self _ _ _)
      · exact hcleaning.of_ne (Or.inl hends.calls) (Or.inr ⟨_, rfl⟩) hid
    · intro other hadd
      left
      have hne : other ≠ trigger.id := by
        rintro rfl
        rw [hpatch] at hadd
        cases hadd
      exact (HashMap.get_insert_of_ne _ _ hne).trans hadd

theorem Busy.refused {s : Cluster Cron} (h : s.Busy) {id : TriggerId} {patch : FinalizerPatch}
    (hpatch : s.patches.get id = some patch) (hdue : s.due id patch = false) :
    (s.endPatch id).Busy := by
  have hothers : ∀ other, other ≠ id →
      (s.endPatch id).patches.get other = s.patches.get other :=
    fun other hne => HashMap.get_remove_of_ne _ hne
  refine h.congr (fun hhalt => hhalt) rfl rfl rfl ?_ ?_
  · intro other hcleaning
    rcases hcleaning with hcall | hremove
    · exact Or.inl (Or.inl hcall)
    · by_cases hid : other = id
      · subst hid
        right
        intro object hstored
        obtain rfl : patch = .remove := Option.some.inj (hpatch.symm.trans hremove)
        simpa [due, hstored] using hdue
      · exact Or.inl (Or.inr ((hothers other hid).trans hremove))
  · intro other hadd
    by_cases hid : other = id
    · subst hid
      right
      intro object hstored hheld
      obtain rfl : patch = .add := Option.some.inj (hpatch.symm.trans hadd)
      have hdeleting : object.deleting = true := by simpa [due, hstored, hheld] using hdue
      simp [TriggerObject.unsettled, hheld, hdeleting]
    · exact Or.inl ((hothers other hid).trans hadd)

/-- A leader starts with every object of its list in the queue. -/
theorem Busy.newTerm (s : Cluster Cron) (lag : ℕ) : (s.newTerm lag).Busy := by
  right
  intro id object hstored _
  by_cases hmissed : Missed s.log lag id
  · exact .missed hmissed
  · apply Attended.queued
    show (latest (s.log.drop lag) id).isSome = true
    rw [latest_drop_of_not_missed hmissed]
    exact Option.isSome_iff_exists.mpr ⟨object, hstored⟩

/-- Every step in which no due patch is refused leaves every unsettled object
attended to. -/
theorem Busy.step {s t : Cluster Cron} {action : ClusterAction} (h : s.Busy) (hguarded : s.Guarded)
    (hstep : s.step chrono parsers action = some t) (haccepted : PatchesAccepted s action t) :
    t.Busy := by
  cases Happens.of_step hstep with
  | create | edit | delete => exact h.record rfl rfl rfl rfl rfl fun _ _ => rfl
  | deliver lag event hlag hevent => exact h.arrive hlag hevent
  | idle id hfree hview => exact h.idle hview
  | apply id object controller hfree hview hheld hdeleting hcall =>
      obtain rfl : object.trigger.id = id := hguarded.logged.filed _ _ object hview
      exact h.apply hview hheld hdeleting hcall
  | clean id object controller hfree hview hdoomed hcall =>
      obtain rfl : object.trigger.id = id := hguarded.logged.filed _ _ object hview
      exact h.clean hview hdoomed hcall
  | add id object hfree hview hheld hdeleting => exact h.add hview hheld
  | rebuild id outcome controller hcall => exact h.rebuild hguarded.working hcall
  | proceed id cancelled controller hcall => exact h.proceed hguarded.working hcall
  | added id | removed id =>
      exact h.record rfl rfl rfl rfl rfl fun _ hne => HashMap.get_remove_of_ne _ hne
  | refused id patch hpatch => exact h.refused hpatch (haccepted patch hpatch)
  | term lag hlag => exact .newTerm s lag

/-! ## Runs -/

/-- The controller has nothing before it. -/
structure AtRest (s : Cluster Cron) : Prop where
  lag : s.lag = 0
  queued : ∀ id, s.queued id = false
  calls : ∀ id, s.controller.calls.get id = none
  patches : ∀ id, s.patches.get id = none

/-- At rest nobody is attended to. -/
theorem AtRest.not_attended {s : Cluster Cron} (h : s.AtRest) (id : TriggerId)
    (object : TriggerObject) : ¬ s.Attended id object := by
  intro hattended
  cases hattended with
  | missed hmissed =>
      obtain ⟨event, hmem, -⟩ := hmissed
      rw [h.lag, List.take_zero] at hmem
      cases hmem
  | queued hqueued =>
      rw [h.queued id] at hqueued
      cases hqueued
  | cleaning hheld hcleaning =>
      rcases hcleaning with ⟨trigger, phase, hcall, -⟩ | hremove
      · rw [h.calls id] at hcall
        cases hcall
      · rw [h.patches id] at hremove
        cases hremove
  | adding hheld hpatch =>
      rw [h.patches id] at hpatch
      cases hpatch

/-- An object with the finalizer on it although it is marked for deletion, or
without it although it is not, is unsettled. -/
theorem unsettled_of_ne {object : TriggerObject} (h : object.held ≠ !object.deleting) :
    object.unsettled = true := by
  rw [TriggerObject.unsettled, beq_iff_eq]
  exact Bool.ne_not.mp h

/-- No object is forgotten.  If cancelling succeeds, no list a leader starts with is
older than the removal of a finalizer, and the API server refuses no patch it could
accept: unless a panic has taken the
controller down, every unsettled object is attended to, at every moment; and
whenever the controller has nothing before it, every object carries the finalizer
exactly if it is not marked for deletion. -/
theorem no_object_is_forgotten (chrono : Rfc3339.Codec) (parsers : ScheduleParsers Cron)
    (actions : List ClusterAction) (s : Cluster Cron)
    (hrun : run (step chrono parsers) start actions = some s)
    (hcancel : Along (step chrono parsers) CancelsSucceed start actions)
    (hrecent : Along (step chrono parsers) ListsRecent start actions)
    (haccepted : Along (step chrono parsers) PatchesAccepted start actions)
    (hrunning : s.halted = false) :
    (∀ id object, s.stored id = some object → object.unsettled = true → s.Attended id object) ∧
    (s.AtRest → ∀ id object, s.stored id = some object → object.held = !object.deleting) := by
  have hbusy : s.Guarded ∧ s.Busy := by
    apply invariant_of_along _ hrun ((hcancel.and hrecent).and haccepted)
    · refine ⟨start_guarded, Or.inr ?_⟩
      intro id object hstored
      cases hstored
    · intro s action t hstep h hc
      exact ⟨h.1.step hstep hc.1.1 hc.1.2, h.2.step h.1 hstep hc.2⟩
  have hattended := hbusy.2.resolve_left (by simp [hrunning])
  refine ⟨hattended, fun hrest id object hstored => ?_⟩
  by_contra hne
  exact hrest.not_attended id object (hattended id object hstored (unsettled_of_ne hne))

/-- A user creates a trigger and deletes it once it is scheduled. -/
def createAndDelete : List ClusterAction := createAndSchedule ++ [.delete ("default", "trigger")]

theorem createAndDelete_isSome :
    (run (step Rfc3339.standard Controller.minuteParsers) start createAndDelete).isSome = true := by
  decide +kernel

theorem no_object_is_forgotten_createAndDelete :
    ∃ s object, run (step Rfc3339.standard Controller.minuteParsers) start createAndDelete =
        some s ∧ s.stored ("default", "trigger") = some object ∧ object.doomed = true ∧
      s.Attended ("default", "trigger") object := by
  have hdoomed : (((run (step Rfc3339.standard Controller.minuteParsers) start
      createAndDelete).get createAndDelete_isSome).stored ("default", "trigger")).any
      (fun object => object.doomed && object.unsettled) = true := by decide +kernel
  obtain ⟨object, hstored, hobject⟩ := (Option.any_eq_true _ _).mp hdoomed
  simp only [Bool.and_eq_true] at hobject
  refine ⟨_, object, (Option.some_get createAndDelete_isSome).symm, hstored, hobject.1, ?_⟩
  exact (no_object_is_forgotten Rfc3339.standard Controller.minuteParsers createAndDelete _
    (Option.some_get createAndDelete_isSome).symm (by decide +kernel) (by decide +kernel)
    (by decide +kernel) (by decide +kernel)).1 _ object hstored hobject.2

end Cluster

end GitEventsRunner.Triggers
