/-
# Deadlines

Two places add a number of seconds chosen by a user to a reading of the clock and
take the sum for granted: the check whether a Job waited too long, with the
timeout of its action or else of the runtime configuration, and the secrets cache,
with the time of the command line.  Any 64-bit number is accepted in all three,
but the seconds of `SystemTime` are signed, so from half the range on there is no
sum and the code panics.
-/

import GitEventsRunner.Actions.Job
import GitEventsRunner.Secrets.Cache

namespace GitEventsRunner.Actions

open GitEventsRunner.Lib
open GitEventsRunner.Triggers
open GitEventsRunner.Jobs (JobsQueueItem)
open GitEventsRunner.Secrets (State Request Error SecretStore SecretData)

/-! ## Jobs in the queue -/

/-- The seconds a Job of the action may wait, under the configuration at the time
it is checked. -/
def Action.waitingSeconds (action : Action) (config : Jobs.ActionConfig) : ℕ :=
  action.actionJob.jobWaitingTimeoutSeconds.getD config.jobWaitingTimeoutSeconds

/-- Whether the Job waited too long is checked without a panic, whenever that is. -/
def EnqueueCall.Checked (config : Jobs.ActionConfig) (enqueuedAt : SystemTime)
    (enqueueCall : EnqueueCall) : Prop :=
  ∀ identity now, ((enqueueCall.item identity enqueuedAt).isExpired config now).isSome

/-- A Job of the action is checked exactly if its deadline is an instant. -/
theorem checked_iff {action : Action} {call : ExecuteCall} (config : Jobs.ActionConfig)
    {enqueuedAt : SystemTime} (hepoch : 0 ≤ enqueuedAt) (enqueueCall : EnqueueCall)
    (hends : EndsExecution action call enqueueCall) :
    enqueueCall.Checked config enqueuedAt ↔
      enqueuedAt / nanosPerSec + action.waitingSeconds config < 2 ^ 63 := by
  have hitem : ∀ identity now,
      ((enqueueCall.item identity enqueuedAt).isExpired config now).isSome ↔
        enqueuedAt / nanosPerSec + action.waitingSeconds config < 2 ^ 63 := by
    intro identity now
    rw [JobsQueueItem.isExpired, Option.isSome_map]
    show (enqueuedAt.checkedAdd (enqueueCall.expireAfter.getD _)).isSome ↔ _
    rw [hends.expireAfter, Option.getD_map]
    exact SystemTime.isSome_checkedAdd_fromSecs hepoch _
  constructor
  · intro h
    exact (hitem "" enqueuedAt).mp (h "" enqueuedAt)
  · intro h identity now
    exact (hitem identity now).mpr h

/-! ## Secrets in the cache -/

/-- A call under the write lock returns if its deadline is an instant. -/
theorem refresh_returns {timeout : Duration} {s : State}
    (hadd : (s.clock.checkedAdd timeout).isSome) (id : ℕ) (request : Request)
    (failure : Option Error) :
    ∃ result, (s.refresh timeout id request failure).returns =
      s.returns ++ [⟨id, request, s.clock, result⟩] := by
  obtain ⟨expiresAt, hexpires⟩ := Option.isSome_iff_exists.mp hadd
  rw [State.refresh]
  cases s.query request failure with
  | error error => exact ⟨.error error, rfl⟩
  | ok answer =>
      rcases answer with ⟨data, value⟩
      rw [hexpires]
      exact ⟨.ok value, rfl⟩

/-- Without one, a call that got its secret returns nothing. -/
theorem returns_refresh_of_panic {timeout : Duration} {s : State}
    (hadd : s.clock.checkedAdd timeout = none) {id : ℕ} {request : Request}
    {failure : Option Error} {answer : SecretData × String}
    (hquery : s.query request failure = .ok answer) :
    (s.refresh timeout id request failure).returns = s.returns := by
  rw [State.refresh, hquery, hadd]
  rfl

/-- A server with one secret. -/
def hookServer : SecretStore :=
  (∅ : SecretStore).insert ("ns", "hook")
    ⟨some ((∅ : SecretData).insert "token" "value".toUTF8.toList)⟩

theorem hookRequest_ns_plain : '/' ∉ "ns".toList := by decide

/-- A request for the secret of `hookServer`. -/
def hookRequest : Request where
  ns := "ns"
  secretName := "hook"
  key := "token"
  ns_plain := hookRequest_ns_plain

theorem query_hookServer (clock : SystemTime) :
    ∃ answer, (State.start clock hookServer).query hookRequest none = .ok answer := by
  have hok : (hookRequest.querySecretsApi hookServer).isOk = true := by decide +kernel
  show ∃ answer, hookRequest.querySecretsApi hookServer = .ok answer
  cases hquery : hookRequest.querySecretsApi hookServer with
  | error error =>
      rw [hquery] at hok
      cases hok
  | ok answer => exact ⟨answer, rfl⟩

/-- No call of the cache at the time panics. -/
def SecretsKept (secretsCacheTime : ℕ) (clock : SystemTime) : Prop :=
  ∀ s : State, s.clock = clock → ∀ id request failure, ∃ result,
    (s.refresh (Duration.fromSecs secretsCacheTime) id request failure).returns =
      s.returns ++ [⟨id, request, clock, result⟩]

theorem secretsKept_iff {clock : SystemTime} (hepoch : 0 ≤ clock) (secretsCacheTime : ℕ) :
    SecretsKept secretsCacheTime clock ↔ clock / nanosPerSec + secretsCacheTime < 2 ^ 63 := by
  rw [← SystemTime.isSome_checkedAdd_fromSecs hepoch]
  constructor
  · intro h
    by_contra hpanics
    have hadd := Option.not_isSome_iff_eq_none.mp hpanics
    obtain ⟨answer, hanswer⟩ := query_hookServer clock
    obtain ⟨result, hresult⟩ := h (State.start clock hookServer) rfl 0 hookRequest none
    rw [returns_refresh_of_panic hadd hanswer] at hresult
    cases hresult
  · rintro hadd s rfl id request failure
    exact refresh_returns hadd id request failure

/-! ## Both -/

/-- No deadline panics: neither the one of the Job that the action puts in the
queue, nor the one of a secret that is read. -/
structure DeadlinesHold (action : Action) (call : ExecuteCall) (config : Jobs.ActionConfig)
    (secretsCacheTime : ℕ) (enqueuedAt clock : SystemTime) : Prop where
  job : (action.execute call).Returns (EnqueueCall.Checked config enqueuedAt)
  secrets : SecretsKept secretsCacheTime clock

/-- The deadlines hold exactly as long as their seconds are below `2 ^ 63`. -/
theorem deadlinesHold_iff_seconds_lt (action : Action) (call : ExecuteCall)
    (config : Jobs.ActionConfig) (secretsCacheTime : ℕ) (enqueuedAt clock : SystemTime)
    (henqueued : 0 ≤ enqueuedAt) (hclock : 0 ≤ clock) :
    DeadlinesHold action call config secretsCacheTime enqueuedAt clock ↔
      enqueuedAt / nanosPerSec + action.waitingSeconds config < 2 ^ 63 ∧
        clock / nanosPerSec + secretsCacheTime < 2 ^ 63 := by
  have hjob : (action.execute call).Returns (EnqueueCall.Checked config enqueuedAt) ↔
      enqueuedAt / nanosPerSec + action.waitingSeconds config < 2 ^ 63 := by
    apply Prog.returns_iff JobEffect.plainReply (execute_returns action call)
    exact checked_iff config henqueued
  rw [← hjob, ← secretsKept_iff hclock]
  constructor
  · intro h
    exact ⟨h.job, h.secrets⟩
  · rintro ⟨hchecked, hkept⟩
    exact ⟨hchecked, hkept⟩

/-- An action whose Jobs may wait for a number of seconds. -/
def waitingAction (secs : ℕ) : Action where
  name := "build"
  ns := some "ns"
  sourceOverride := .action none
  actionJob := { jobWaitingTimeoutSeconds := some secs }

/-- Ten minutes in the queue and one in the cache, at the end of 2023. -/
theorem deadlinesHold_iff_seconds_lt_minutes :
    DeadlinesHold (waitingAction 600) buildCall {} 60 (1704067199 * nanosPerSec)
      (1704067199 * nanosPerSec) :=
  (deadlinesHold_iff_seconds_lt (waitingAction 600) buildCall {} 60 (1704067199 * nanosPerSec)
    (1704067199 * nanosPerSec) (by decide) (by decide)).mpr (by decide)

/-- The largest signed number of seconds, a second after the epoch: as the waiting
time of an action it panics in the queue, as the time of the command line in the
cache. -/
theorem not_deadlinesHold_largest_seconds :
    ¬ DeadlinesHold (waitingAction 9223372036854775807) buildCall {} 60 nanosPerSec nanosPerSec ∧
      ¬ DeadlinesHold (waitingAction 600) buildCall {} 9223372036854775807 nanosPerSec
        nanosPerSec := by
  constructor
  · intro h
    have hchecked := h.job.of_runs (Prog.runs_traceWith JobEffect.plainReply _)
    have hpanics := hchecked "" nanosPerSec
    revert hpanics
    decide +kernel
  · intro h
    have hepoch : (0 : SystemTime) ≤ nanosPerSec := by decide
    have hlt := (secretsKept_iff hepoch 9223372036854775807).mp h.secrets
    revert hlt
    decide

end GitEventsRunner.Actions
