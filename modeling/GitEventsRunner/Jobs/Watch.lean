/-
# The jobs watch handler and its counter

`JobsQueue::init_and_watch` follows the Jobs that carry this instance's
identity label through a reflector store, remembers the last status it saw for
each of them, and keeps one atomic counter, `running_jobs`, from which the queue
computes its free capacity.  The counter moves at three places of the handler,
each guarded by a different test on the remembered status.

The module embeds the handler and settles when the counter is the number of
unfinished Jobs in the store: exactly as long as each Job is first seen
unfinished and a finished Job keeps its status until it is deleted.
-/

import GitEventsRunner.Lib.HashMap
import GitEventsRunner.Lib.Machine

namespace GitEventsRunner.Jobs

open GitEventsRunner.Lib

/-- `ObjectRef<Job>`: the key of the reflector store and of the status map. -/
structure ObjectRef where
  ns : String
  name : String
  deriving DecidableEq, Repr

/-- One entry of `JobStatus.conditions`. -/
structure JobCondition where
  type : String
  status : String
  reason : Option String := none
  message : Option String := none
  lastProbeTime : Option ℤ := none
  lastTransitionTime : Option ℤ := none
  deriving DecidableEq, Repr

/-- `JobStatus` of the batch API.  The handler reads `succeeded` and `failed`;
the other fields matter because statuses are compared as wholes. -/
structure JobStatus where
  succeeded : Option ℤ := none
  failed : Option ℤ := none
  active : Option ℤ := none
  ready : Option ℤ := none
  terminating : Option ℤ := none
  startTime : Option ℤ := none
  completionTime : Option ℤ := none
  conditions : Option (List JobCondition) := none
  completedIndexes : Option String := none
  failedIndexes : Option String := none
  uncountedTerminatedPods : Option (List String × List String) := none
  deriving DecidableEq, Repr

namespace JobStatus

/-- Neither `succeeded` nor `failed` is set. -/
def isUnfinished (status : JobStatus) : Bool :=
  status.succeeded.isNone && status.failed.isNone

end JobStatus

/-- How a Job ended. -/
inductive JobCompletionStatus
  | succeed | failed | expired | deleted | createError
  deriving DecidableEq, Repr

/-- The name of a completion status, as it is printed. -/
def JobCompletionStatus.text : JobCompletionStatus → String
  | .succeed => "Succeed"
  | .failed => "Failed"
  | .expired => "Expired"
  | .deleted => "Deleted"
  | .createError => "CreateError"

/-! ## The atomic counter -/

/-- Number of values of a `usize`. -/
def usizeSize : ℕ := 2 ^ 64

/-- `AtomicUsize::fetch_add(1)` on the stored value. -/
def fetchAdd (value : ℕ) : ℕ := (value + 1) % usizeSize

/-- `AtomicUsize::fetch_sub(1)`: zero wraps to the largest `usize`. -/
def fetchSub (value : ℕ) : ℕ := (value + (usizeSize - 1)) % usizeSize

theorem fetchAdd_mod (n : ℕ) : fetchAdd (n % usizeSize) = (n + 1) % usizeSize := by
  simp only [fetchAdd, usizeSize]
  omega

theorem fetchSub_succ_mod (n : ℕ) : fetchSub ((n + 1) % usizeSize) = n % usizeSize := by
  simp only [fetchSub, usizeSize]
  omega

/-- A subtraction never agrees with leaving the value alone or with adding. -/
theorem fetchSub_mod_ne (n : ℕ) : fetchSub (n % usizeSize) ≠ n % usizeSize ∧
    fetchSub (n % usizeSize) ≠ (n + 1) % usizeSize := by
  simp only [fetchSub, usizeSize]
  omega

theorem succ_mod_usizeSize_ne (n : ℕ) : (n + 1) % usizeSize ≠ n % usizeSize := by
  simp only [usizeSize]
  omega

/-! ## The handler -/

/-- The reflector store (a Job is represented by its status, the only part of
the object the handler reads), the remembered statuses and the counter.
`completed` lists the calls of `METRICS.count_and_measure_completed`. -/
structure JobsWatch where
  store : HashMap ObjectRef (Option JobStatus)
  statuses : HashMap ObjectRef JobStatus
  runningJobs : ℕ
  completed : List (ObjectRef × JobCompletionStatus)

namespace JobsWatch

/-- The state in which `init_and_watch` starts its stream. -/
def init : JobsWatch := ⟨∅, ∅, 0, []⟩

/-- `store.get(&key).unwrap_or_default().status` -/
def storeStatus (w : JobsWatch) (key : ObjectRef) : Option JobStatus :=
  (w.store.get key).getD none

/-- Take one finished or deleted Job off the counter and report it. -/
def complete (w : JobsWatch) (key : ObjectRef) (status : JobCompletionStatus) : JobsWatch :=
  { w with
    runningJobs := fetchSub w.runningJobs
    completed := w.completed ++ [(key, status)] }

/-- The branch for a status that differs from the remembered one. -/
def statusChanged (w : JobsWatch) (key : ObjectRef) (status : JobStatus) : JobsWatch :=
  if status.succeeded.isSome then w.complete key .succeed
  else if status.failed.isSome then w.complete key .failed
  else w

/-- `statuses.insert(..)`, counting the Job if nothing was remembered for it. -/
def remember (w : JobsWatch) (key : ObjectRef) (status : JobStatus) : JobsWatch :=
  { w with
    statuses := w.statuses.insert key status
    runningJobs :=
      if (w.statuses.get key).isNone then fetchAdd w.runningJobs else w.runningJobs }

/-- `statuses.remove(&key)`, taking an unfinished Job off the counter. -/
def forget (w : JobsWatch) (key : ObjectRef) : JobsWatch :=
  match w.statuses.get key with
  | none => w
  | some status =>
      let w' := { w with statuses := w.statuses.remove key }
      if status.succeeded.isNone && status.failed.isNone then w'.complete key .deleted else w'

/-- The closure passed to `for_each`, for a touched Job with the given key. -/
def handle (w : JobsWatch) (key : ObjectRef) : JobsWatch :=
  match w.storeStatus key with
  | some status =>
      let w' := match w.statuses.get key with
        | some prevStatus =>
            if status ≠ prevStatus then w.statusChanged key status else w
        | none => w
      w'.remember key status
  | none => w.forget key

end JobsWatch

/-- A delivered watch event: an object was added or modified, or it was
deleted. -/
inductive WatchEvent
  | apply (key : ObjectRef) (status : Option JobStatus)
  | delete (key : ObjectRef)
  deriving DecidableEq, Repr

namespace WatchEvent

/-- The object the event is about. -/
def key : WatchEvent → ObjectRef
  | .apply key _ => key
  | .delete key => key

/-- The status the store holds for the object once it took the event. -/
def status : WatchEvent → Option JobStatus
  | .apply _ status => status
  | .delete _ => none

end WatchEvent

namespace JobsWatch

/-- The reflector writes the event to the store. -/
def reflect (w : JobsWatch) : WatchEvent → JobsWatch
  | .apply key status => { w with store := w.store.insert key status }
  | .delete key => { w with store := w.store.remove key }

/-- One delivered event: the store takes it, then the handler runs. -/
def deliver (w : JobsWatch) (event : WatchEvent) : JobsWatch :=
  (w.reflect event).handle event.key

/-- Deliveries as machine steps; the handler never refuses an event. -/
def step (w : JobsWatch) (event : WatchEvent) : Option JobsWatch := some (w.deliver event)

/-- Number of keys in the store whose status is present and unfinished. -/
def unfinishedJobs (w : JobsWatch) : ℕ := w.store.countP fun status =>
  status.any JobStatus.isUnfinished

/-! ## What one delivery does -/

end JobsWatch

/-- The counter instruction one handled event issues. -/
inductive CounterMove
  | keep | add | sub
  deriving DecidableEq, Repr

namespace CounterMove

/-- Effect of the instruction on the stored value. -/
def onValue : CounterMove → ℕ → ℕ
  | .keep, value => value
  | .add, value => fetchAdd value
  | .sub, value => fetchSub value

/-- The instruction issued when the remembered status is `prev` and the store
now holds `next`. -/
def between (prev next : Option JobStatus) : CounterMove :=
  match prev, next with
  | none, none => .keep
  | none, some _ => .add
  | some prev, some next =>
      if next = prev then .keep else if next.isUnfinished then .keep else .sub
  | some prev, none => if prev.isUnfinished then .sub else .keep

end CounterMove

namespace JobsWatch

@[simp]
theorem reflect_statuses (w : JobsWatch) (event : WatchEvent) :
    (w.reflect event).statuses = w.statuses := by
  cases event <;> rfl

@[simp]
theorem reflect_runningJobs (w : JobsWatch) (event : WatchEvent) :
    (w.reflect event).runningJobs = w.runningJobs := by
  cases event <;> rfl

theorem reflect_storeStatus (w : JobsWatch) (event : WatchEvent) (key : ObjectRef) :
    (w.reflect event).storeStatus key =
      if key = event.key then event.status else w.storeStatus key := by
  cases event with
  | apply key' status =>
      by_cases h : key = key' <;>
        simp [storeStatus, reflect, WatchEvent.key, WatchEvent.status, HashMap.get_insert, h]
  | delete key' =>
      by_cases h : key = key' <;>
        simp [storeStatus, reflect, WatchEvent.key, WatchEvent.status, HashMap.get_remove, h]

@[simp]
theorem handle_store (w : JobsWatch) (key : ObjectRef) : (w.handle key).store = w.store := by
  unfold handle forget remember statusChanged complete
  repeat' split
  all_goals rfl

/-- After the handler the remembered status of the touched Job is the stored
one, and nothing else is remembered or forgotten. -/
theorem handle_statuses (w : JobsWatch) (key key' : ObjectRef) :
    (w.handle key).statuses.get key' =
      if key' = key then w.storeStatus key else w.statuses.get key' := by
  cases hstore : w.storeStatus key with
  | some status =>
      have hsame : (w.handle key).statuses = w.statuses.insert key status := by
        simp only [handle, hstore, remember, statusChanged, complete]
        repeat' split
        all_goals rfl
      rw [hsame, HashMap.get_insert]
  | none =>
      cases hprev : w.statuses.get key with
      | none =>
          by_cases h : key' = key
          · simp [handle, hstore, forget, hprev, h]
          · simp [handle, hstore, forget, hprev, h]
      | some prev =>
          have hsame : (w.handle key).statuses = w.statuses.remove key := by
            simp only [handle, hstore, forget, hprev, complete]
            split <;> rfl
          rw [hsame, HashMap.get_remove]

/-- The counter after the handler, by the remembered and the stored status. -/
theorem handle_runningJobs (w : JobsWatch) (key : ObjectRef) :
    (w.handle key).runningJobs =
      (CounterMove.between (w.statuses.get key) (w.storeStatus key)).onValue w.runningJobs := by
  cases hprev : w.statuses.get key with
  | none =>
      cases hstore : w.storeStatus key with
      | none => simp [handle, hstore, forget, hprev, CounterMove.between, CounterMove.onValue]
      | some status =>
          simp [handle, hstore, hprev, remember, CounterMove.between, CounterMove.onValue]
  | some prev =>
      cases hstore : w.storeStatus key with
      | none =>
          cases hs : prev.succeeded <;> cases hf : prev.failed <;>
            simp [handle, hstore, hprev, forget, complete, hs, hf, CounterMove.between,
              CounterMove.onValue, JobStatus.isUnfinished]
      | some status =>
          by_cases heq : status = prev
          · simp [handle, hstore, hprev, remember, CounterMove.between, CounterMove.onValue, heq]
          · cases hs : status.succeeded <;> cases hf : status.failed <;>
              simp [handle, hstore, hprev, remember, statusChanged, complete, heq, hs, hf,
                CounterMove.between, CounterMove.onValue, JobStatus.isUnfinished]

/-! ## When the counter is accurate -/

/-- The counter is the number of unfinished Jobs in the store, as a `usize`. -/
def Accurate (w : JobsWatch) : Prop := w.runningJobs = w.unfinishedJobs % usizeSize

/-- Handling `event` calls `fetch_sub`. -/
def Subtracts (w : JobsWatch) (event : WatchEvent) : Prop :=
  CounterMove.between (w.statuses.get event.key) event.status = .sub

/-- After the step the counter is accurate, and a `fetch_sub` made by the step
did not start from zero. -/
def StepAccurate (w : JobsWatch) (event : WatchEvent) (w' : JobsWatch) : Prop :=
  w'.Accurate ∧ (w.unfinishedJobs < usizeSize → w.Subtracts event → w.runningJobs ≠ 0)

/-- The status changes the handler counts right: a Job is first seen
unfinished, and a status that replaces a different one replaces an unfinished
one. -/
def RegularChange (prev next : Option JobStatus) : Prop :=
  match prev, next with
  | none, some status => status.isUnfinished = true
  | some prev, some status => status = prev ∨ prev.isUnfinished = true
  | _, none => True

/-- The event changes the status the store held before in a regular way. -/
def Regular (w : JobsWatch) (event : WatchEvent) : Prop :=
  RegularChange (w.storeStatus event.key) event.status

/-- The handler remembers exactly the statuses in the store. -/
def Mirrored (w : JobsWatch) : Prop := ∀ key, w.statuses.get key = w.storeStatus key

theorem mirrored_deliver {w : JobsWatch} (h : w.Mirrored) (event : WatchEvent) :
    (w.deliver event).Mirrored := by
  intro key
  have hstore : (w.deliver event).storeStatus key = (w.reflect event).storeStatus key := by
    rw [deliver, storeStatus, handle_store, ← storeStatus]
  rw [hstore, deliver, handle_statuses]
  by_cases hk : key = event.key
  · rw [if_pos hk, hk]
  · rw [if_neg hk, reflect_statuses, h key, reflect_storeStatus, if_neg hk]

/-- What one key contributes to the number of unfinished Jobs. -/
def weight (status : Option JobStatus) : ℕ := if status.any JobStatus.isUnfinished then 1 else 0

/-- A delivery changes the number of unfinished Jobs only through its own key. -/
theorem unfinishedJobs_deliver (w : JobsWatch) (event : WatchEvent) :
    (w.deliver event).unfinishedJobs + weight (w.storeStatus event.key) =
      w.unfinishedJobs + weight event.status := by
  have hweight : ∀ entry : Option (Option JobStatus),
      HashMap.weight (fun status => status.any JobStatus.isUnfinished) entry =
        weight (entry.getD none) := by
    intro entry
    cases entry <;> rfl
  rw [unfinishedJobs, deliver, handle_store, unfinishedJobs, storeStatus, ← hweight]
  cases event with
  | apply key status => exact HashMap.countP_insert _ w.store key status
  | delete key => exact HashMap.countP_remove _ w.store key

/-- The instruction moves the counter as the number of unfinished Jobs moves
exactly on regular changes. -/
theorem onValue_between_eq_iff {prev next : Option JobStatus} {n n' : ℕ}
    (hcount : n' + weight prev = n + weight next) :
    (CounterMove.between prev next).onValue (n % usizeSize) = n' % usizeSize ↔
      RegularChange prev next := by
  match prev, next with
  | none, none =>
      obtain rfl : n' = n := hcount
      simp [CounterMove.between, CounterMove.onValue, RegularChange]
  | none, some next =>
      cases hu : next.isUnfinished with
      | true =>
          obtain rfl : n' = n + 1 := by simpa [weight, hu] using hcount
          simp [CounterMove.between, CounterMove.onValue, RegularChange, fetchAdd_mod, hu]
      | false =>
          obtain rfl : n' = n := by simpa [weight, hu] using hcount
          simp [CounterMove.between, CounterMove.onValue, RegularChange, fetchAdd_mod, hu,
            succ_mod_usizeSize_ne]
  | some prev, none =>
      cases hu : prev.isUnfinished with
      | true =>
          obtain rfl : n = n' + 1 := by simpa [weight, hu] using hcount.symm
          simp [CounterMove.between, CounterMove.onValue, RegularChange, fetchSub_succ_mod, hu]
      | false =>
          obtain rfl : n' = n := by simpa [weight, hu] using hcount
          simp [CounterMove.between, CounterMove.onValue, RegularChange, hu]
  | some prev, some next =>
      by_cases heq : next = prev
      · subst heq
        obtain rfl : n' = n := by simpa using hcount
        simp [CounterMove.between, CounterMove.onValue, RegularChange]
      · cases hu : prev.isUnfinished <;> cases hv : next.isUnfinished <;>
          simp only [weight, Option.any_some, hu, hv, if_true, if_false,
            Bool.false_eq_true, Nat.add_zero, Nat.add_right_cancel_iff] at hcount <;>
          subst hcount
        · -- a finished status replaced by another finished one is subtracted twice
          simp [CounterMove.between, CounterMove.onValue, RegularChange, heq, hu, hv,
            fetchSub_mod_ne]
        · -- a finished Job that turns unfinished again is not counted
          simp [CounterMove.between, CounterMove.onValue, RegularChange, heq, hu, hv,
            (succ_mod_usizeSize_ne n).symm]
        · simp [CounterMove.between, CounterMove.onValue, RegularChange, heq, hu, hv,
            fetchSub_succ_mod]
        · simp [CounterMove.between, CounterMove.onValue, RegularChange, heq, hu, hv]

/-- A regular change that subtracts takes an unfinished Job away. -/
theorem weight_eq_one_of_sub {prev next : Option JobStatus}
    (hsub : CounterMove.between prev next = .sub) (hregular : RegularChange prev next) :
    weight prev = 1 ∧ weight next = 0 := by
  match prev, next with
  | none, none | none, some _ => simp [CounterMove.between] at hsub
  | some prev, none =>
      cases hu : prev.isUnfinished <;> simp_all [CounterMove.between, weight]
  | some prev, some next =>
      by_cases heq : next = prev
      · simp [CounterMove.between, heq] at hsub
      · cases hv : next.isUnfinished <;>
          simp_all [CounterMove.between, RegularChange, weight]

/-- At an accurate state the step is accurate exactly on regular events. -/
theorem stepAccurate_iff_regular {w : JobsWatch} (hm : w.Mirrored) (ha : w.Accurate)
    (event : WatchEvent) : w.StepAccurate event (w.deliver event) ↔ w.Regular event := by
  have hcount := w.unfinishedJobs_deliver event
  have haccurate : (w.deliver event).Accurate ↔ w.Regular event := by
    rw [Accurate, deliver, handle_runningJobs, reflect_statuses, reflect_storeStatus,
      if_pos rfl, reflect_runningJobs, hm, ha]
    exact onValue_between_eq_iff hcount
  rw [StepAccurate, haccurate, and_iff_left_iff_imp]
  intro hregular hlt hsub
  rw [Subtracts, hm] at hsub
  have hweight := weight_eq_one_of_sub hsub hregular
  rw [ha, Nat.mod_eq_of_lt hlt]
  omega

theorem init_mirrored : init.Mirrored := fun _ => rfl

theorem init_accurate : init.Accurate := rfl

/-- The counter follows the store through a whole run exactly when every event
of the run is regular. -/
theorem accurate_along_iff_regular (events : List WatchEvent) :
    Along step StepAccurate init events ↔
      Along step (fun w event _ => w.Regular event) init events := by
  refine along_iff_of_invariant (fun w => w.Mirrored ∧ w.Accurate) ?_ ?_
    ⟨init_mirrored, init_accurate⟩ events
  · rintro w event _ ⟨⟩ ⟨hm, ha⟩
    exact stepAccurate_iff_regular hm ha event
  · rintro w event _ ⟨⟩ ⟨hm, ha⟩ hregular
    exact ⟨mirrored_deliver hm event, ((stepAccurate_iff_regular hm ha event).mpr hregular).1⟩

/-- A Job whose first event already carries `succeeded` is counted as running. -/
theorem not_accurate_first_seen_finished :
    ¬ Along step StepAccurate init
        [.apply ⟨"default", "job"⟩ (some { succeeded := some 1 })] := by
  intro h
  have hstep := (h _ rfl).1.1
  revert hstep
  simp only [Accurate]
  decide

end JobsWatch

end GitEventsRunner.Jobs
