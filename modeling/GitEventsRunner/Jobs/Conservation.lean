/-
# Queue conservation and order

No item is lost, duplicated or reordered between `enqueue` and the outcome
`run_queue` gives it, whatever the clocks, the API server, the counter and the
config do.  A single call never creates more Jobs than the capacity it saw, and
it stops only for one of its two reasons.
-/

import GitEventsRunner.Jobs.Queue

namespace GitEventsRunner.Jobs

open GitEventsRunner.Lib

namespace PassPhase

/-- The item a call has received and not finished with. -/
def inHand : PassPhase → List JobsQueueItem
  | .atLoop | .gauging => []
  | .checking item => [item]
  | .creating checked | .created checked => [checked.item]

/-- The item in hand, if its create request was sent. -/
def requested : PassPhase → List JobsQueueItem
  | .creating checked | .created checked => [checked.item]
  | _ => []

/-- An item whose create request was sent was checked and found unexpired. -/
def Fresh : PassPhase → Prop
  | .creating checked | .created checked =>
      checked.item.isExpired checked.config checked.now = some false
  | _ => True

end PassPhase

namespace Pass

/-- Number of Jobs the call has created and heard back about. -/
def createdJobs (pass : Pass) : ℕ := pass.handled.countP fun h => h.outcome = .created

/-- What a finished call has done: it stayed within the capacity it saw, and it
consumed all items that were waiting at its start or used that capacity up. -/
structure Complete (pass : Pass) : Prop where
  within : pass.createdJobs ≤ pass.maxRunningJobs - pass.runningJobs
  reason : pass.handled.length = pass.initialWaiting ∨
    pass.createdJobs = pass.maxRunningJobs - pass.runningJobs

/-- The books of a call in progress, given the length of the queue. -/
structure Balanced (pass : Pass) (queueLength : ℕ) : Prop where
  capacity : pass.createdJobs + pass.freeCapacity = pass.maxRunningJobs - pass.runningJobs
  items : pass.handled.length + pass.phase.inHand.length + pass.waitingJobs =
    pass.initialWaiting
  room : pass.phase.inHand ≠ [] → 0 < pass.freeCapacity
  queue : pass.waitingJobs ≤ queueLength
  fresh : pass.phase.Fresh

theorem Balanced.complete {pass : Pass} {n : ℕ} (h : pass.Balanced n)
    (hphase : pass.phase = .atLoop) (hdone : pass.waitingJobs = 0 ∨ pass.freeCapacity = 0) :
    pass.Complete := by
  have hcapacity := h.capacity
  have hitems := h.items
  simp only [hphase, PassPhase.inHand, List.length_nil] at hitems
  refine ⟨by omega, ?_⟩
  rcases hdone with hwaiting | hfree
  · exact Or.inl (by omega)
  · exact Or.inr (by omega)

theorem Balanced.mono {pass : Pass} {n m : ℕ} (h : pass.Balanced n) (hle : n ≤ m) :
    pass.Balanced m :=
  { h with queue := h.queue.trans hle }

/-- Finishing with the item in hand keeps the books: a created Job costs one
unit of capacity, any other outcome costs none. -/
theorem Balanced.finishItem {pass : Pass} {n : ℕ} (h : pass.Balanced n) {item : JobsQueueItem}
    (hhand : pass.phase.inHand = [item]) (handled : Handled) (free : ℕ)
    (hfree : free + (if handled.outcome = .created then 1 else 0) = pass.freeCapacity) :
    Balanced { pass with
      freeCapacity := free, phase := .gauging, handled := pass.handled ++ [handled] } n := by
  have hcapacity := h.capacity
  have hitems := h.items
  rw [hhand] at hitems
  refine ⟨?_, ?_, by simp [PassPhase.inHand], h.queue, trivial⟩
  · simp only [createdJobs, List.countP_append, List.countP_singleton, decide_eq_true_eq] at *
    split at hfree
    · simp_all
      omega
    · simp_all
  · simp only [List.length_append, List.length_singleton, PassPhase.inHand, List.length_nil] at *
    omega

end Pass

namespace Call

/-- The books of a call, given the length of the queue. -/
def Balanced (queueLength : ℕ) : Call → Prop
  | .locked | .counted _ => True
  | .measured _ waitingJobs | .limited _ waitingJobs _ => waitingJobs ≤ queueLength
  | .passing pass => pass.Balanced queueLength

theorem Balanced.mono {call : Call} {n m : ℕ} (h : call.Balanced n) (hle : n ≤ m) :
    call.Balanced m := by
  cases call with
  | locked | counted _ => trivial
  | measured _ _ | limited _ _ _ => exact le_trans h hle
  | passing pass => exact Pass.Balanced.mono h hle

/-- The phase of the loop a call is in, if it is in its loop. -/
def phase : Call → PassPhase
  | .passing pass => pass.phase
  | _ => .atLoop

end Call

namespace System

/-- The phase of the call that holds the lock. -/
def phase (s : System) : PassPhase :=
  match s.call with
  | some (_, call) => call.phase
  | none => .atLoop

theorem phase_of_call {s : System} {c : Caller} {call : Call} (hcall : s.call = some (c, call)) :
    s.phase = call.phase := by
  rw [phase, hcall]

/-- The items taken out of the queue so far, in order. -/
def takenItems (s : System) : List JobsQueueItem :=
  s.takenOut.map (·.item) ++ s.phase.inHand

/-- Conservation: what was put in is what was taken out followed by what still
waits; the create requests are the taken items that were not found expired, each
once and in order; the recorded outcome agrees with the check of the item; and
the calls keep their books. -/
structure Conserved (s : System) : Prop where
  order : s.putIn = s.takenItems ++ s.waiting
  requests : s.createCalls =
    (s.takenOut.filter fun h => h.outcome ≠ .expired).map (·.item) ++ s.phase.requested
  verdicts : ∀ h ∈ s.takenOut,
    h.item.isExpired h.config h.now = some (decide (h.outcome = .expired))
  finished : ∀ pass ∈ s.passes, pass.Complete
  current : ∀ c call, s.call = some (c, call) → call.Balanced s.waiting.length

theorem start_conserved (identity : String) (config : ActionConfig) (watch : JobsWatch) :
    (start identity config watch).Conserved where
  order := rfl
  requests := rfl
  verdicts := by simp [start]
  finished := by simp [start]
  current := by simp [start]

/-- Finishing with the item in hand moves it to the end of the handled items. -/
theorem Conserved.finishItem {s : System} (h : s.Conserved) {c : Caller} {pass : Pass}
    (hcall : s.call = some (c, .passing pass)) (handled : Handled)
    (hhand : pass.phase.inHand = [handled.item])
    (hrequested : pass.phase.requested =
      if handled.outcome ≠ .expired then [handled.item] else [])
    (hverdict : handled.item.isExpired handled.config handled.now =
      some (decide (handled.outcome = .expired)))
    (free : ℕ)
    (hfree : free + (if handled.outcome = .created then 1 else 0) = pass.freeCapacity) :
    (s.finishItem c { pass with freeCapacity := free } handled).Conserved := by
  have hphase : s.phase = pass.phase := phase_of_call hcall
  have horder := h.order
  have hrequests := h.requests
  rw [takenItems, hphase, hhand] at horder
  rw [hphase, hrequested] at hrequests
  constructor
  · show s.putIn = (s.takenOut ++ [handled]).map (·.item) ++ [] ++ s.waiting
    simpa using horder
  · show s.createCalls =
      ((s.takenOut ++ [handled]).filter fun h => h.outcome ≠ .expired).map (·.item) ++ []
    rw [hrequests, List.filter_append, List.map_append, List.append_nil]
    by_cases hexpired : handled.outcome = .expired
    · simp [hexpired]
    · simp [hexpired]
  · intro entry hmem
    rcases List.mem_append.mp hmem with hold | hnew
    · exact h.verdicts entry hold
    · rw [List.mem_singleton.mp hnew]
      exact hverdict
  · exact h.finished
  · intro d call hd
    cases hd
    exact Pass.Balanced.finishItem (h.current c _ hcall) hhand handled free hfree

/-- A call that goes on with the same item in hand only has to keep its books. -/
theorem Conserved.setCall {s : System} (h : s.Conserved) (c : Caller) {call : Call}
    (hhand : call.phase.inHand = s.phase.inHand)
    (hrequested : call.phase.requested = s.phase.requested)
    (hbalanced : call.Balanced s.waiting.length) : (s.setCall c call).Conserved where
  order := by
    show s.putIn = s.takenOut.map (·.item) ++ call.phase.inHand ++ s.waiting
    rw [hhand]
    exact h.order
  requests := by
    show s.createCalls = _ ++ call.phase.requested
    rw [hrequested]
    exact h.requests
  verdicts := h.verdicts
  finished := h.finished
  current d other hother := by
    cases hother
    exact hbalanced

/-- A call that had nothing in hand and still has nothing. -/
theorem Conserved.setCall_of_atLoop {s : System} (h : s.Conserved) (c : Caller) {call : Call}
    (hbefore : s.phase = .atLoop) (hafter : call.phase = .atLoop)
    (hbalanced : call.Balanced s.waiting.length) : (s.setCall c call).Conserved := by
  apply h.setCall c _ _ hbalanced
  · rw [hbefore, hafter]
  · rw [hbefore, hafter]

/-- A call returns with nothing in hand. -/
theorem Conserved.returnCall {s : System} (h : s.Conserved) (c : Caller)
    (hphase : s.phase = .atLoop) : (s.returnCall c).Conserved where
  order := by
    have horder := h.order
    rwa [takenItems, hphase] at horder
  requests := by
    have hrequests := h.requests
    rwa [hphase] at hrequests
  verdicts := h.verdicts
  finished := h.finished
  current d other hother := by cases hother

/-- Every step keeps conservation. -/
theorem Conserved.step {s t : System} {action : Action} (hstep : s.step action = some t)
    (h : s.Conserved) : t.Conserved := by
  cases Transition.of_step hstep with
  | enqueue job ns expireAfter now =>
      have horder := h.order
      refine ⟨?_, h.requests, h.verdicts, h.finished, fun c call hcall => ?_⟩
      · show s.putIn ++ [_] = s.takenItems ++ (s.waiting ++ [_])
        rw [horder, List.append_assoc]
      · refine (h.current c call hcall).mono ?_
        show s.waiting.length ≤ (s.waiting ++ [_]).length
        simp
  | lock c hloop hcall =>
      have hphase : s.phase = .atLoop := by rw [phase, hcall]
      have hlocking : (s.setLoop c .running).Conserved :=
        ⟨h.order, h.requests, h.verdicts, h.finished, h.current⟩
      exact hlocking.setCall_of_atLoop c hphase rfl trivial
  | loadRunningJobs c hcall =>
      exact h.setCall_of_atLoop c (phase_of_call hcall) rfl trivial
  | readLen c runningJobs hcall =>
      exact h.setCall_of_atLoop c (phase_of_call hcall) rfl (le_refl s.waiting.length)
  | readConfig c runningJobs waitingJobs hcall =>
      have hlen : waitingJobs ≤ s.waiting.length := h.current c _ hcall
      exact h.setCall_of_atLoop c (phase_of_call hcall) rfl hlen
  | exceeded c runningJobs waitingJobs maxRunningJobs hcall hlimit =>
      exact h.returnCall c (phase_of_call hcall)
  | begin c runningJobs waitingJobs maxRunningJobs hcall hlimit =>
      have hlen : waitingJobs ≤ s.waiting.length := h.current c _ hcall
      apply h.setCall_of_atLoop c (phase_of_call hcall) rfl
      exact ⟨by simp [beginPass, Pass.createdJobs], by simp [beginPass, PassPhase.inHand],
        by simp [beginPass, PassPhase.inHand], hlen, trivial⟩
  | recv c pass item rest hcall hphase hwaiting hjobs hfree =>
      have hp : s.phase = .atLoop := (phase_of_call hcall).trans hphase
      have hbalanced : pass.Balanced s.waiting.length := h.current c _ hcall
      refine ⟨?_, ?_, h.verdicts, h.finished, ?_⟩
      · have horder := h.order
        rw [takenItems, hp, hwaiting] at horder
        show s.putIn = s.takenOut.map (·.item) ++ [item] ++ rest
        simpa [PassPhase.inHand] using horder
      · have hrequests := h.requests
        rwa [hp] at hrequests
      · intro d call hd
        cases hd
        have hitems := hbalanced.items
        have hqueue := hbalanced.queue
        rw [hwaiting] at hqueue
        simp only [hphase, PassPhase.inHand, List.length_nil, List.length_cons] at hitems hqueue
        refine ⟨hbalanced.capacity, ?_, fun _ => hfree, ?_, trivial⟩
        · simp only [PassPhase.inHand, List.length_singleton]
          omega
        · show pass.waitingJobs - 1 ≤ rest.length
          omega
  | expire c pass item now measured hcall hphase hexpired =>
      refine h.finishItem hcall _ (by simp [hphase, PassPhase.inHand])
        (by simp [hphase, PassPhase.requested]) ?_ pass.freeCapacity (by simp)
      simpa using hexpired
  | request c pass item now measured hcall hphase hfresh =>
      have hp : s.phase = .checking item := (phase_of_call hcall).trans hphase
      have hbalanced : pass.Balanced s.waiting.length := h.current c _ hcall
      refine ⟨?_, ?_, h.verdicts, h.finished, ?_⟩
      · have horder := h.order
        rwa [takenItems, hp] at horder
      · have hrequests := h.requests
        rw [hp] at hrequests
        show s.createCalls ++ [item] =
          (s.takenOut.filter fun h => h.outcome ≠ .expired).map (·.item) ++ [item]
        rw [hrequests]
        simp [PassPhase.requested]
      · intro d call hd
        cases hd
        have hitems := hbalanced.items
        have hroom := hbalanced.room
        simp only [hphase, PassPhase.inHand] at hitems hroom
        exact ⟨hbalanced.capacity, hitems, fun _ => hroom (by simp), hbalanced.queue, hfresh⟩
  | accept c pass checked status hcall hphase hstatus =>
      have hp : s.phase = .creating checked := (phase_of_call hcall).trans hphase
      have hbalanced : pass.Balanced s.waiting.length := h.current c _ hcall
      have hitems := hbalanced.items
      have hroom := hbalanced.room
      have hfresh := hbalanced.fresh
      simp only [hphase, PassPhase.inHand, PassPhase.Fresh] at hitems hroom hfresh
      have hcreated : (s.createJob checked.item status).Conserved :=
        ⟨h.order, h.requests, h.verdicts, h.finished, h.current⟩
      apply hcreated.setCall
      · show _ = s.phase.inHand
        rw [hp]
        rfl
      · show _ = s.phase.requested
        rw [hp]
        rfl
      · exact ⟨hbalanced.capacity, hitems, fun _ => hroom (by simp), hbalanced.queue, hfresh⟩
  | reject c pass checked hcall hphase =>
      have hbalanced : pass.Balanced s.waiting.length := h.current c _ hcall
      have hfresh := hbalanced.fresh
      rw [hphase, PassPhase.Fresh] at hfresh
      exact h.finishItem hcall _ (by simp [hphase, PassPhase.inHand])
        (by simp [hphase, PassPhase.requested]) (by simpa using hfresh)
        pass.freeCapacity (by simp)
  | loseReply c pass checked hcall hphase =>
      have hbalanced : pass.Balanced s.waiting.length := h.current c _ hcall
      have hfresh := hbalanced.fresh
      rw [hphase, PassPhase.Fresh] at hfresh
      exact h.finishItem hcall _ (by simp [hphase, PassPhase.inHand])
        (by simp [hphase, PassPhase.requested]) (by simpa using hfresh)
        pass.freeCapacity (by simp)
  | gauge c pass hcall hphase =>
      have hp : s.phase = .gauging := (phase_of_call hcall).trans hphase
      have hbalanced : pass.Balanced s.waiting.length := h.current c _ hcall
      have hitems := hbalanced.items
      rw [hphase] at hitems
      apply h.setCall
      · rw [hp]
        rfl
      · rw [hp]
        rfl
      · exact ⟨hbalanced.capacity, hitems, by simp [PassPhase.inHand], hbalanced.queue, trivial⟩
  | reply c pass checked hcall hphase =>
      have hbalanced : pass.Balanced s.waiting.length := h.current c _ hcall
      have hfresh := hbalanced.fresh
      have hroom := hbalanced.room
      rw [hphase] at hroom
      rw [hphase, PassPhase.Fresh] at hfresh
      have hpos : 0 < pass.freeCapacity := hroom (by simp [PassPhase.inHand])
      exact h.finishItem hcall _ (by simp [hphase, PassPhase.inHand])
        (by simp [hphase, PassPhase.requested]) (by simpa using hfresh)
        (pass.freeCapacity - 1) (by simp only [if_true]; omega)
  | stop c pass hcall hphase hdone =>
      have hfinished : ∀ finished ∈ s.passes ++ [pass], finished.Complete := by
        intro finished hmem
        rcases List.mem_append.mp hmem with hold | hnew
        · exact h.finished finished hold
        · rw [List.mem_singleton.mp hnew]
          exact Pass.Balanced.complete (h.current c _ hcall) hphase hdone
      have hstopped : { s with passes := s.passes ++ [pass] }.Conserved :=
        ⟨h.order, h.requests, h.verdicts, hfinished, h.current⟩
      exact hstopped.returnCall c ((phase_of_call hcall).trans hphase)
  | notify | notifyNobody | replaceEarly | replace | subscribe | changed | borrowAndUpdate |
      setStatus | deleteJob | foreign | deliver | watchError | panic =>
      exact ⟨h.order, h.requests, h.verdicts, h.finished, h.current⟩

theorem conserved_of_run {identity : String} {config : ActionConfig} {watch : JobsWatch}
    {actions : List Action} {s : System}
    (hrun : run step (start identity config watch) actions = some s) : s.Conserved :=
  invariant_of_run (fun _ _ _ hstep h => h.step hstep) hrun (start_conserved _ _ _)

/-- In every run, from any counter, config and clock: the items taken out are a
prefix of the items put in; exactly the taken items that were not found expired
are passed to create, once each and in order; the outcome of a handled item is
`expired` exactly if its check said so; a call stays within the capacity it saw
and stops only when it has consumed the items that were waiting at its start or
has used that capacity up, and its receive never blocks. -/
theorem queue_conservation (identity : String) (config : ActionConfig) (watch : JobsWatch)
    (actions : List Action) (s : System)
    (hrun : run step (start identity config watch) actions = some s) :
    s.takenItems <+: s.putIn ∧
    s.createCalls =
      (s.takenOut.filter fun h => h.outcome ≠ .expired).map (·.item) ++ s.phase.requested ∧
    (∀ h ∈ s.takenOut, h.item.isExpired h.config h.now = some (decide (h.outcome = .expired))) ∧
    (∀ pass ∈ s.passes,
      pass.createdJobs ≤ pass.maxRunningJobs - pass.runningJobs ∧
      (pass.handled.length = pass.initialWaiting ∨
        pass.createdJobs = pass.maxRunningJobs - pass.runningJobs)) ∧
    (∀ c pass, s.call = some (c, .passing pass) →
      pass.createdJobs ≤ pass.maxRunningJobs - pass.runningJobs ∧
      (0 < pass.waitingJobs → s.waiting ≠ [])) := by
  have h := conserved_of_run hrun
  refine ⟨⟨s.waiting, h.order.symm⟩, h.requests, h.verdicts, ?_, ?_⟩
  · intro pass hmem
    have hcomplete := h.finished pass hmem
    exact ⟨hcomplete.within, hcomplete.reason⟩
  · intro c pass hcall
    have hbalanced : pass.Balanced s.waiting.length := h.current c _ hcall
    have hcapacity := hbalanced.capacity
    have hqueue := hbalanced.queue
    refine ⟨by omega, fun hpos hnil => ?_⟩
    rw [hnil, List.length_nil] at hqueue
    omega

/-- A Job with the labels its metrics are filed under. -/
def labelledJob (name : String) : Job where
  metadata :=
    { name := some name
      labels := some (((((((∅ : HashMap String String).insert actionJobActionKindLabel
        "Action").insert actionJobActionNameLabel "build").insert actionJobSourceKindLabel
        "GitRepo").insert actionJobSourceNameLabel "repo").insert actionJobTriggerKindLabel
        "WebhookTrigger").insert actionJobTriggerNameLabel "push") }

/-- Two items are put in; the call of the queue loop finds the first one expired and the
request for the second is rejected, and it stops with nothing left to do. -/
def twoJobsRun : List Action :=
  [.enqueue (labelledJob "a") "default" (some 0) 0, .notify,
    .enqueue (labelledJob "b") "default" none 0, .notify, .loop .queueEvents .changed,
    .loop .queueEvents .borrowAndUpdate, .loop .queueEvents .lock, .call .loadRunningJobs,
    .call .readLen, .call .readConfig, .call .updateGauges, .call .recv, .call (.check 1 1),
    .call .updateGauges, .call .recv, .call (.check 1 1), .call .reject, .call .updateGauges,
    .call .stop]

theorem queue_conservation_twoJobsRun :
    ∃ s, run step (start "me" {} JobsWatch.init) twoJobsRun = some s ∧
      s.takenOut.map Handled.outcome = [.expired, .createError] ∧ s.createCalls.length = 1 ∧
      s.takenItems <+: s.putIn ∧ ∀ pass ∈ s.passes,
        pass.createdJobs ≤ pass.maxRunningJobs - pass.runningJobs ∧
        (pass.handled.length = pass.initialWaiting ∨
          pass.createdJobs = pass.maxRunningJobs - pass.runningJobs) := by
  have hfacts : (run step (start "me" {} JobsWatch.init) twoJobsRun).map
      (fun s => (s.takenOut.map Handled.outcome, s.createCalls.length)) =
        some ([.expired, .createError], 1) := by
    decide +kernel
  obtain ⟨s, hrun, hfacts⟩ := Option.map_eq_some_iff.mp hfacts
  obtain ⟨houtcomes, hcalls⟩ := Prod.mk.inj hfacts
  obtain ⟨htaken, -, -, hpasses, -⟩ := queue_conservation "me" {} JobsWatch.init twoJobsRun s hrun
  exact ⟨s, hrun, houtcomes, hcalls, htaken, hpasses⟩

end System

end GitEventsRunner.Jobs
