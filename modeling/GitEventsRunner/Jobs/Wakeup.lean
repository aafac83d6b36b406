/-
# No lost wake-up of the jobs queue

`run_queue` works on a snapshot of three values that other parties change while
it awaits the API server, and the two channels that wake it only tell whether
something newer exists.  Still a waiting Job is not stranded while there is free
capacity, if the task of the queue lives and hears of every limit that makes room.

The invariant says that the snapshot may be believed unless somebody has left a
mark: an unseen value in one of the channels, a loop on its way into
`run_queue`, or an `enqueue` call that still owes its event.  Every step of
another party that changes a value of the snapshot leaves such a mark, but for a
config that is replaced before the config loop subscribes.
-/

import GitEventsRunner.Jobs.Limit

namespace GitEventsRunner.Jobs

open GitEventsRunner.Lib

/-- The locals of a call agree with the queue, and its capacity covers what the limit
leaves after the Jobs that are counted or still unhandled. -/
structure Pass.Current (pass : Pass) (runningJobs maxRunningJobs queueLength unhandled : ℕ) :
    Prop where
  queue : pass.waitingJobs = queueLength
  capacity : queueLength = 0 ∨
    maxRunningJobs ≤ runningJobs + unhandled + (pass.freeCapacity - pass.phase.owed)

/-- A call that finishes with its item keeps its locals current, if the capacity
it gives up is the one the reply owed. -/
theorem Pass.Current.finishItem {pass : Pass} {r m q u : ℕ} (h : pass.Current r m q u)
    (handled : Handled) (free : ℕ) (hfree : pass.freeCapacity ≤ free + pass.phase.owed) :
    Pass.Current { pass with
      freeCapacity := free, phase := .gauging, handled := pass.handled ++ [handled] } r m q u where
  queue := h.queue
  capacity := by
    rcases h.capacity with hempty | hcapacity
    · exact Or.inl hempty
    · right
      show m ≤ r + u + (free - 0)
      omega

/-- A call between its snapshot and the reading of the limit. -/
def Call.beforeLimit : Call → Bool
  | .locked | .counted _ | .measured .. => true
  | .limited .. | .passing _ => false

/-- What a call that holds the lock may believe of the counter, the limit, the length of
the queue and the number of unhandled Jobs. -/
def Call.Current (runningJobs maxRunningJobs queueLength unhandled : ℕ) : Call → Prop
  | .locked => True
  | .counted r => r = runningJobs
  | .measured r w => r = runningJobs ∧ w = queueLength
  | .limited r w m => (r = runningJobs ∧ w = queueLength) ∧
      (queueLength = 0 ∨ maxRunningJobs ≤ max m (runningJobs + unhandled))
  | .passing pass => pass.Current runningJobs maxRunningJobs queueLength unhandled

/-- A new limit that leaves no more room changes nothing for a call, and one that the call
will still read neither. -/
theorem Call.Current.replace {call : Call} {r m m' q u : ℕ} (h : call.Current r m q u)
    (hharmless : q = 0 ∨ m' ≤ max m (r + u) ∨ call.beforeLimit = true) :
    call.Current r m' q u := by
  cases call with
  | locked | counted | measured => exact h
  | limited runningJobs waitingJobs maxRunningJobs =>
      refine ⟨h.1, ?_⟩
      have hlimit := h.2
      rcases hharmless with hempty | hroom | hbefore
      · exact Or.inl hempty
      · omega
      · cases hbefore
  | passing pass =>
      have hcurrent : pass.Current r m q u := h
      refine ⟨hcurrent.queue, ?_⟩
      have hcapacity := hcurrent.capacity
      rcases hharmless with hempty | hroom | hbefore
      · exact Or.inl hempty
      · omega
      · cases hbefore

instance : Fintype Caller where
  elems := {.queueEvents, .config}
  complete := by rintro (_ | _) <;> simp

namespace System

/-- Some party has left a mark that makes a loop run the queue afresh. -/
def Marked (s : System) : Prop :=
  (∃ c, s.unseen c = true) ∨ (∃ c, s.loops c = .notified ∨ s.loops c = .locking) ∨
    0 < s.notifying

instance (s : System) : Decidable s.Marked := inferInstanceAs (Decidable (_ ∨ _ ∨ _))

/-- The call that holds the lock is current, or, if there is none, the last call left no
Job behind that could run. -/
def Believed (s : System) : Prop :=
  match s.call with
  | none => s.waiting.length = 0 ∨
      s.config.maxRunningJobs ≤ s.watch.runningJobs + s.unhandled.length
  | some (_, call) => call.Current s.watch.runningJobs s.config.maxRunningJobs s.waiting.length
      s.unhandled.length

/-- The invariant of the wake-up protocol. -/
structure Attentive (s : System) : Prop where
  alive : s.panicked = false
  believed : ¬ s.Marked → s.Believed
  queueLoop : s.loops .queueEvents ≠ .starting
  configLoop : s.loops .config = .starting → s.unseen .config = false
  caller : ∀ c call, s.call = some (c, call) → s.loops c = .running

/-- A config that comes before the config loop has subscribed goes unnoticed.  That does
no harm if no Job waits, if the new limit leaves no more room than the old one or no room
at all, or if some call will still read it. -/
def LimitNoticed (s : System) : Action → Prop
  | .replaceConfig config => s.loops .config = .starting →
      s.waiting.length = 0 ∨
      config.maxRunningJobs ≤
        max s.config.maxRunningJobs (s.watch.runningJobs + s.unhandled.length) ∨
      s.Marked ∨ s.call.any (fun call => call.2.beforeLimit)
  | _ => True

/-- What a step has to meet for no wake-up to get lost. -/
def Heeded (s : System) (action : Action) (_ : System) : Prop :=
  s.panics action = false ∧ s.LimitNoticed action

instance (s : System) (action : Action) : Decidable (s.LimitNoticed action) :=
  match action with
  | .replaceConfig _ => inferInstanceAs (Decidable (_ = _ → _ = _ ∨ _ ≤ _ ∨ _ ∨ _ = _))
  | .enqueue .. | .notify | .loop .. | .call _ | .setStatus .. | .deleteJob _ | .foreign _
  | .deliver _ | .watchError => instDecidableTrue

instance (s : System) (action : Action) (t : System) : Decidable (Heeded s action t) :=
  inferInstanceAs (Decidable (_ ∧ _))

/-- A Job waits, and there is free capacity, the created Jobs whose first event is still to
come counted in. -/
def HasWork (s : System) : Prop :=
  s.waiting ≠ [] ∧ s.watch.runningJobs + s.unhandled.length < s.config.maxRunningJobs

/-- The task is there and will look at the queue: it has not seen a value of one of its
channels, a `run_queue` call is in progress or about to start, or an `enqueue` call is
just about to send its event. -/
def Awake (s : System) : Prop :=
  s.panicked = false ∧
    (s.unseen .queueEvents = true ∨ s.unseen .config = true ∨
      (s.call.isSome ∨ ∃ c, s.loops c = .notified ∨ s.loops c = .locking) ∨ 0 < s.notifying)

theorem start_attentive (identity : String) (config : ActionConfig) (watch : JobsWatch)
    (hgauges : updateGauges watch.runningJobs config.maxRunningJobs 0 = true) :
    (start identity config watch).Attentive where
  alive := by simp [start, hgauges]
  believed _ := Or.inl rfl
  queueLoop := by simp [start]
  configLoop _ := rfl
  caller := by simp [start]

/-! ## Marks -/

theorem marked_setUnseen_true (s : System) (c : Caller) : (s.setUnseen c true).Marked :=
  Or.inl ⟨c, by simp [setUnseen]⟩

theorem marked_setLoop (s : System) (c : Caller) {loop : EventLoop}
    (hloop : loop = .notified ∨ loop = .locking) : (s.setLoop c loop).Marked :=
  Or.inr (Or.inl ⟨c, by simpa [setLoop] using hloop⟩)

/-- Moving a loop between states that are not marks neither adds nor removes a
mark. -/
theorem marked_setLoop_iff {s : System} {c : Caller} {loop : EventLoop}
    (hold : s.loops c ≠ .notified ∧ s.loops c ≠ .locking)
    (hnew : loop ≠ .notified ∧ loop ≠ .locking) : (s.setLoop c loop).Marked ↔ s.Marked := by
  have hloops : (∃ d, (s.setLoop c loop).loops d = .notified ∨
      (s.setLoop c loop).loops d = .locking) ↔
        ∃ d, s.loops d = .notified ∨ s.loops d = .locking := by
    constructor
    · rintro ⟨d, hd⟩
      by_cases hcd : d = c
      · subst hcd
        simp [setLoop, hnew] at hd
      · exact ⟨d, by simpa [setLoop, hcd] using hd⟩
    · rintro ⟨d, hd⟩
      by_cases hcd : d = c
      · subst hcd
        simp [hold] at hd
      · exact ⟨d, by simpa [setLoop, hcd] using hd⟩
  rw [Marked, Marked, hloops]
  rfl

/-- The queue loop stays subscribed when a loop moves on. -/
theorem Attentive.queueLoop_update {s : System} (h : s.Attentive) (c : Caller)
    {loop : EventLoop} (hloop : loop ≠ .starting) :
    Function.update s.loops c loop .queueEvents ≠ .starting := by
  by_cases hc : .queueEvents = c
  · subst hc
    rw [Function.update_self]
    exact hloop
  · rw [Function.update_of_ne hc]
    exact h.queueLoop

theorem Attentive.configLoop_update {s : System} (h : s.Attentive) (c : Caller)
    {loop : EventLoop} (hloop : loop ≠ .starting)
    (hstarting : Function.update s.loops c loop .config = .starting) :
    s.unseen .config = false := by
  by_cases hc : .config = c
  · subst hc
    rw [Function.update_self] at hstarting
    exact absurd hstarting hloop
  · rw [Function.update_of_ne hc] at hstarting
    exact h.configLoop hstarting

/-- A step that leaves a mark and keeps the loops as they were keeps the
invariant, whatever it does to the values of the snapshot. -/
theorem Attentive.of_marked {s t : System} (h : s.Attentive) (hmarked : t.Marked)
    (halive : t.panicked = s.panicked) (hloops : t.loops = s.loops) (hcall : t.call = s.call)
    (hconfig : s.loops .config = .starting → t.unseen .config = false) : t.Attentive where
  alive := by rw [halive]; exact h.alive
  believed hnot := absurd hmarked hnot
  queueLoop := by rw [hloops]; exact h.queueLoop
  configLoop := by rw [hloops]; exact hconfig
  caller := by rw [hloops, hcall]; exact h.caller

/-- A step of the call that holds the lock only has to keep its beliefs. -/
theorem Attentive.of_call {s t : System} (h : s.Attentive) {c : Caller} {call call' : Call}
    (hcall : s.call = some (c, call)) (hcall' : t.call = some (c, call'))
    (halive : t.panicked = s.panicked) (hloops : t.loops = s.loops)
    (hunseen : t.unseen = s.unseen) (hnotifying : t.notifying = s.notifying)
    (hbelieved : s.Believed → t.Believed) : t.Attentive where
  alive := by rw [halive]; exact h.alive
  believed hnot := by
    apply hbelieved
    apply h.believed
    intro hmarked
    apply hnot
    rw [Marked, hloops, hunseen, hnotifying]
    exact hmarked
  queueLoop := by rw [hloops]; exact h.queueLoop
  configLoop := by rw [hloops, hunseen]; exact h.configLoop
  caller d call'' hd := by
    obtain ⟨rfl, -⟩ := Prod.mk.inj (Option.some.inj (hcall'.symm.trans hd))
    rw [hloops]
    exact h.caller c call hcall

/-- A call that returns hands its beliefs over to the idle state. -/
theorem Attentive.returnCall {s t : System} (h : s.Attentive) {c : Caller} {call : Call}
    (hcall : s.call = some (c, call)) (halive : t.panicked = s.panicked)
    (hloops : t.loops = Function.update s.loops c .waiting) (hunseen : t.unseen = s.unseen)
    (hnotifying : t.notifying = s.notifying) (hcall' : t.call = none)
    (hbelieved : s.Believed → t.Believed) : t.Attentive where
  alive := by rw [halive]; exact h.alive
  believed hnot := by
    apply hbelieved
    apply h.believed
    intro hmarked
    apply hnot
    have hrunning := h.caller c call hcall
    have hsame : (s.setLoop c .waiting).Marked :=
      (marked_setLoop_iff (by simp [hrunning]) (by simp)).mpr hmarked
    rw [Marked, hloops, hunseen, hnotifying]
    exact hsame
  queueLoop := by
    rw [hloops]
    exact h.queueLoop_update c (by simp)
  configLoop := by
    rw [hloops, hunseen]
    exact h.configLoop_update c (by simp)
  caller := by simp [hcall']

/-! ## Steps and runs -/

theorem Believed.current {s : System} (h : s.Believed) {c : Caller} {pass : Pass}
    (hcall : s.call = some (c, .passing pass)) :
    pass.Current s.watch.runningJobs s.config.maxRunningJobs s.waiting.length
      s.unhandled.length := by
  rw [Believed, hcall] at h
  exact h

/-- A step inside the loop of the call only has to keep its locals current. -/
theorem Attentive.of_pass {s t : System} (h : s.Attentive) {c : Caller} {pass pass' : Pass}
    (hcall : s.call = some (c, .passing pass)) (hcall' : t.call = some (c, .passing pass'))
    (halive : t.panicked = s.panicked) (hloops : t.loops = s.loops)
    (hunseen : t.unseen = s.unseen) (hnotifying : t.notifying = s.notifying)
    (hcurrent : pass.Current s.watch.runningJobs s.config.maxRunningJobs s.waiting.length
        s.unhandled.length →
      pass'.Current t.watch.runningJobs t.config.maxRunningJobs t.waiting.length
        t.unhandled.length) : t.Attentive := by
  apply h.of_call hcall hcall' halive hloops hunseen hnotifying
  intro hb
  rw [Believed, hcall']
  exact hcurrent (hb.current hcall)

/-- A loop that moves on its own channel, up to the lock. -/
theorem Attentive.of_loop {s : System} (h : s.Attentive) {c : Caller} {loop : EventLoop}
    (hloop : s.loops c ≠ .running) (hnext : loop = .notified ∨ loop = .locking) :
    ((s.setUnseen c false).setLoop c loop).Attentive where
  alive := h.alive
  believed hnot := absurd (marked_setLoop _ c hnext) hnot
  queueLoop := h.queueLoop_update c (by rcases hnext with rfl | rfl <;> simp)
  configLoop hstarting := by
    have hseen := h.configLoop_update c (by rcases hnext with rfl | rfl <;> simp) hstarting
    show Function.update s.unseen c false .config = false
    rw [Function.update_apply, hseen, ite_self]
  caller d call hcall := by
    have hrunning := h.caller d call hcall
    by_cases hd : d = c
    · subst hd
      exact absurd hrunning hloop
    · show Function.update s.loops c loop d = .running
      rw [Function.update_of_ne hd]
      exact hrunning

/-- A config that comes before the subscription leaves no mark, and has to be harmless. -/
theorem Attentive.replaceEarly {s : System} (h : s.Attentive) {config : ActionConfig}
    (hloop : s.loops .config = .starting) (hnoticed : s.LimitNoticed (.replaceConfig config)) :
    Attentive { s with config := config } where
  alive := h.alive
  believed hnot := by
    have hbelieved := h.believed hnot
    have hharmless : s.waiting.length = 0 ∨ config.maxRunningJobs ≤
        max s.config.maxRunningJobs (s.watch.runningJobs + s.unhandled.length) ∨
          s.call.any (fun call => call.2.beforeLimit) := by
      rcases hnoticed hloop with hempty | hroom | hmarked | hbefore
      · exact Or.inl hempty
      · exact Or.inr (Or.inl hroom)
      · exact absurd hmarked hnot
      · exact Or.inr (Or.inr hbefore)
    cases hcall : s.call with
    | none =>
        rw [Believed, hcall] at hbelieved
        simp only [hcall, Option.any_none, Bool.false_eq_true, or_false] at hharmless
        show s.waiting.length = 0 ∨
          config.maxRunningJobs ≤ s.watch.runningJobs + s.unhandled.length
        omega
    | some called =>
        rw [Believed, hcall] at hbelieved
        rw [hcall] at hharmless
        exact hbelieved.replace hharmless
  queueLoop := h.queueLoop
  configLoop := h.configLoop
  caller := h.caller

/-- The config loop subscribes; its channel was not marked before. -/
theorem Attentive.subscribe {s : System} (h : s.Attentive) {c : Caller}
    (hloop : s.loops c = .starting) : ((s.setUnseen c false).setLoop c .waiting).Attentive := by
  have hc : c = .config := by
    cases c with
    | queueEvents => exact absurd hloop h.queueLoop
    | config => rfl
  subst hc
  have hunseen : s.setUnseen .config false = s := by
    have hsame : Function.update s.unseen .config false = s.unseen := by
      rw [← h.configLoop hloop, Function.update_eq_self]
    rw [setUnseen, hsame]
  rw [hunseen]
  constructor
  case alive => exact h.alive
  case believed =>
    intro hnot
    exact h.believed fun hmarked =>
      hnot ((marked_setLoop_iff (by simp [hloop]) (by simp)).mpr hmarked)
  case queueLoop => exact h.queueLoop
  case configLoop => simp [setLoop]
  case caller =>
    intro d call hcall
    have hrunning := h.caller d call hcall
    cases d with
    | queueEvents => exact hrunning
    | config => exact absurd (hloop.symm.trans hrunning) (by simp)

/-- A call that just took the lock believes nothing. -/
theorem Attentive.lock {s : System} (h : s.Attentive) (c : Caller) :
    ((s.setLoop c .running).setCall c .locked).Attentive where
  alive := h.alive
  believed _ := trivial
  queueLoop := h.queueLoop_update c (by simp)
  configLoop := h.configLoop_update c (by simp)
  caller := by
    intro d call hd
    cases hd
    exact Function.update_self c .running s.loops

/-- Every step that is heeded keeps the invariant. -/
theorem Attentive.step {s t : System} {action : Action} (hstep : s.step action = some t)
    (h : s.Attentive) (hheeded : Heeded s action t) : t.Attentive := by
  cases Transition.of_step hstep with
  | enqueue job ns expireAfter now =>
      have hmarked : (s.put (.ofJob s.identity job ns expireAfter now)).Marked :=
        Or.inr (Or.inr (Nat.succ_pos s.notifying))
      exact h.of_marked hmarked rfl rfl rfl h.configLoop
  | notify hcalls =>
      exact h.of_marked (marked_setUnseen_true _ .queueEvents) rfl rfl rfl h.configLoop
  | replaceEarly config hloop => exact h.replaceEarly hloop hheeded.2
  | replace config hloop =>
      exact h.of_marked (marked_setUnseen_true _ .config) rfl rfl rfl (fun hs => absurd hs hloop)
  | subscribe c hloop => exact h.subscribe hloop
  | changed c hloop hunseen => exact h.of_loop (by simp [hloop]) (Or.inl rfl)
  | borrowAndUpdate c hloop => exact h.of_loop (by simp [hloop]) (Or.inr rfl)
  | lock c hloop hcall => exact h.lock c
  | loadRunningJobs c hcall => exact h.of_call hcall rfl rfl rfl rfl rfl (fun _ => rfl)
  | readLen c runningJobs hcall =>
      refine h.of_call hcall rfl rfl rfl rfl rfl fun hb => ?_
      rw [Believed, hcall] at hb
      exact ⟨hb, rfl⟩
  | readConfig c runningJobs waitingJobs hcall =>
      refine h.of_call hcall rfl rfl rfl rfl rfl fun hb => ?_
      rw [Believed, hcall] at hb
      exact ⟨hb, Or.inr (Nat.le_max_left _ _)⟩
  | exceeded c runningJobs waitingJobs maxRunningJobs hcall hlimit =>
      refine h.returnCall hcall rfl rfl rfl rfl rfl fun hb => ?_
      rw [Believed, hcall] at hb
      obtain ⟨⟨hcounter, hlength⟩, hroom⟩ := hb
      show s.waiting.length = 0 ∨
        s.config.maxRunningJobs ≤ s.watch.runningJobs + s.unhandled.length
      omega
  | begin c runningJobs waitingJobs maxRunningJobs hcall hlimit =>
      refine h.of_call hcall rfl rfl rfl rfl rfl fun hb => ?_
      rw [Believed, hcall] at hb
      obtain ⟨⟨hcounter, hlength⟩, hroom⟩ := hb
      refine ⟨hlength, ?_⟩
      show s.waiting.length = 0 ∨ s.config.maxRunningJobs ≤
        s.watch.runningJobs + s.unhandled.length + (maxRunningJobs - runningJobs - 0)
      omega
  | recv c pass item rest hcall hphase hwaiting hjobs hfree =>
      refine h.of_pass hcall rfl rfl rfl rfl rfl fun hcurrent => ?_
      have hqueue := hcurrent.queue
      have hcapacity := hcurrent.capacity
      rw [hwaiting, List.length_cons] at hqueue hcapacity
      rw [hphase] at hcapacity
      refine ⟨?_, Or.inr (hcapacity.resolve_left (Nat.succ_ne_zero _))⟩
      show pass.waitingJobs - 1 = rest.length
      omega
  | expire c pass item now measured hcall hphase hexpired =>
      refine h.of_pass hcall rfl rfl rfl rfl rfl fun hcurrent => ?_
      exact hcurrent.finishItem _ pass.freeCapacity (Nat.le_add_right _ _)
  | request c pass item now measured hcall hphase hfresh =>
      refine h.of_pass hcall rfl rfl rfl rfl rfl fun hcurrent => ?_
      have hcapacity := hcurrent.capacity
      rw [hphase] at hcapacity
      exact ⟨hcurrent.queue, hcapacity⟩
  | accept c pass checked status hcall hphase hstatus =>
      refine h.of_pass hcall rfl rfl rfl rfl rfl fun hcurrent => ?_
      have hcapacity := hcurrent.capacity
      simp only [hphase, PassPhase.owed] at hcapacity
      refine ⟨hcurrent.queue, ?_⟩
      show s.waiting.length = 0 ∨ s.config.maxRunningJobs ≤
        s.watch.runningJobs + (s.unhandled ++ [s.nextUid]).length + (pass.freeCapacity - 1)
      simp only [List.length_append, List.length_singleton]
      omega
  | reject c pass checked hcall hphase =>
      refine h.of_pass hcall rfl rfl rfl rfl rfl fun hcurrent => ?_
      exact hcurrent.finishItem _ pass.freeCapacity (Nat.le_add_right _ _)
  | reply c pass checked hcall hphase =>
      refine h.of_pass hcall rfl rfl rfl rfl rfl fun hcurrent => ?_
      apply hcurrent.finishItem _ (pass.freeCapacity - 1)
      rw [hphase, PassPhase.owed]
      omega
  | loseReply c pass checked hcall hphase =>
      refine h.of_pass hcall rfl rfl rfl rfl rfl fun hcurrent => ?_
      exact hcurrent.finishItem _ pass.freeCapacity (Nat.le_add_right _ _)
  | gauge c pass hcall hphase =>
      refine h.of_pass hcall rfl rfl rfl rfl rfl fun hcurrent => ?_
      have hcapacity := hcurrent.capacity
      rw [hphase] at hcapacity
      exact ⟨hcurrent.queue, hcapacity⟩
  | stop c pass hcall hphase hdone =>
      refine h.returnCall hcall rfl rfl rfl rfl rfl fun hb => ?_
      have hcurrent := hb.current hcall
      have hqueue := hcurrent.queue
      have hcapacity := hcurrent.capacity
      simp only [hphase, PassPhase.owed] at hcapacity
      show s.waiting.length = 0 ∨
        s.config.maxRunningJobs ≤ s.watch.runningJobs + s.unhandled.length
      omega
  | deliver labelled delivery rest hbacklog =>
      exact h.of_marked (marked_setUnseen_true _ .queueEvents) rfl rfl rfl h.configLoop
  | watchError => exact h.of_marked (marked_setUnseen_true s .queueEvents) rfl rfl rfl h.configLoop
  | setStatus | deleteJob | foreign =>
      exact ⟨h.alive, h.believed, h.queueLoop, h.configLoop, h.caller⟩
  | notifyNobody hpanicked => exact absurd hpanicked (by simp [h.alive])
  | panic action hpanics => exact absurd hpanics (by simp [hheeded.1])

/-- In every run whose steps are heeded, a waiting Job is never stranded: whenever there is
work, the task of the queue is awake. -/
theorem no_lost_wakeup (identity : String) (config : ActionConfig) (watch : JobsWatch)
    (hgauges : updateGauges watch.runningJobs config.maxRunningJobs 0 = true)
    (actions : List Action) (s : System)
    (hrun : run step (start identity config watch) actions = some s)
    (hheeded : Along step Heeded (start identity config watch) actions) :
    s.HasWork → s.Awake := by
  rintro ⟨hwaiting, hfree⟩
  have h : s.Attentive :=
    invariant_of_along (fun _ _ _ hstep h hc => h.step hstep hc) hrun hheeded
      (start_attentive _ _ _ hgauges)
  refine ⟨h.alive, ?_⟩
  by_cases hmarked : s.Marked
  · rcases hmarked with ⟨c, hc⟩ | hloops | hnotifying
    · cases c with
      | queueEvents => exact Or.inl hc
      | config => exact Or.inr (Or.inl hc)
    · exact Or.inr (Or.inr (Or.inl (Or.inr hloops)))
    · exact Or.inr (Or.inr (Or.inr hnotifying))
  · have hbelieved := h.believed hmarked
    cases hcall : s.call with
    | some call => exact Or.inr (Or.inr (Or.inl (Or.inl rfl)))
    | none =>
        rw [Believed, hcall] at hbelieved
        rcases hbelieved with hempty | hfull
        · exact absurd (List.eq_nil_of_length_eq_zero hempty) hwaiting
        · omega

/-- A Job waits for the limit, which is raised after the config loop subscribed. -/
def raiseAfterSubscribe : List Action :=
  [.enqueue (labelledJob "a") "default" none 0, .notify] ++ beginCall ++ [.call .stop,
    .loop .config .subscribe, .replaceConfig { maxRunningJobs := 4 }]

theorem no_lost_wakeup_raiseAfterSubscribe :
    ∃ s, run step (start "me" { maxRunningJobs := 0 } JobsWatch.init) raiseAfterSubscribe =
      some s ∧ s.HasWork ∧ s.Awake := by
  have hwork : ∀ s, run step (start "me" { maxRunningJobs := 0 } JobsWatch.init)
      raiseAfterSubscribe = some s → s.HasWork := by
    rintro _ ⟨⟩
    exact ⟨List.cons_ne_nil _ _, by decide⟩
  exact ⟨_, rfl, hwork _ rfl, no_lost_wakeup "me" { maxRunningJobs := 0 } JobsWatch.init (by decide)
    raiseAfterSubscribe _ rfl (by decide) (hwork _ rfl)⟩

/-- If the limit is raised before the config loop subscribes, the queue loop has seen the
old limit and nobody looks at the new one.  And a limit that no gauge holds ends the task
with the Job in the queue. -/
theorem stranded_after_replaceConfig :
    (∃ s, run step (start "me" { maxRunningJobs := 0 } JobsWatch.init)
        ([.enqueue (labelledJob "a") "default" none 0, .notify] ++ beginCall ++ [.call .stop,
          .replaceConfig { maxRunningJobs := 4 }, .loop .config .subscribe]) = some s ∧
      (∀ c, s.loops c ≠ .starting) ∧ s.HasWork ∧ s.panicked = false ∧ ¬ s.Awake) ∧
    ∃ s, run step (start "me" {} JobsWatch.init)
        ([.loop .config .subscribe, .enqueue (labelledJob "a") "default" none 0,
          .replaceConfig { maxRunningJobs := 2 ^ 63 }, .notify] ++ beginCall) = some s ∧
      (∀ c, s.loops c ≠ .starting) ∧ s.HasWork ∧ ¬ s.Awake := by
  refine ⟨⟨_, rfl, ?_⟩, ⟨_, rfl, ?_⟩⟩
  · unfold HasWork Awake
    decide
  · unfold HasWork Awake
    decide

end System

end GitEventsRunner.Jobs
