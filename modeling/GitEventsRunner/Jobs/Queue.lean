/-
# The jobs queue as a system of parties

Six parties meet in the jobs queue: the callers of `JobsQueue::enqueue`, the two
event loops of `init_and_watch` (one wakes on queue events, one on config
changes), the `run_queue` call a loop is in, the API server with its cluster,
and the watch that delivers the cluster's changes to the handler of
`Jobs.Watch` after any delay.

`System.step` gives each of them its atomic steps.  `run_queue` is cut at every
point where another party can move: taking the receiver lock, each of the three
reads of its snapshot, each received item, the create request, the server's
decision and the reply, which can get lost.  An `enqueue` call is cut between
putting its item and sending its event, because it runs on other threads.  The
handler has no await point and shares its task with the loops, so handling one
event is one step.

The loops, the call and the handler are one task.  It panics on a clock that went
back, on a deadline out of range, on a number that no gauge holds and on a Job
without the labels its metrics are filed under, and nobody starts it again.
-/

import GitEventsRunner.Jobs.Watch
import GitEventsRunner.Lib.SystemTime

namespace GitEventsRunner.Jobs

open GitEventsRunner.Lib

/-! ## Items -/

/-- The metadata of a Job that the queue reads and writes. -/
structure ObjectMeta where
  name : Option String := none
  ns : Option String := none
  labels : Option (HashMap String String) := none

/-- A Job as the queue handles it. -/
structure Job where
  metadata : ObjectMeta

namespace Job

/-- `name_any()` -/
def nameAny (job : Job) : String := job.metadata.name.getD ""

/-- The object the API server is asked to create. -/
def objectRef (job : Job) : ObjectRef := ⟨job.metadata.ns.getD "", job.nameAny⟩

end Job

/-- The part of `RuntimeConfig::action` the queue reads. -/
structure ActionConfig where
  maxRunningJobs : ℕ := 16
  jobWaitingTimeoutSeconds : ℕ := 300
  deriving DecidableEq, Repr

/-- `ACTION_JOB_IDENTITY_LABEL` -/
def actionJobIdentityLabel : String := "git-events-runner.rs/controller-identity"

/-! ## Metrics -/

def actionJobActionKindLabel : String := "git-events-runner.rs/action-kind"

def actionJobActionNameLabel : String := "git-events-runner.rs/action-name"

def actionJobSourceKindLabel : String := "git-events-runner.rs/source-kind"

def actionJobSourceNameLabel : String := "git-events-runner.rs/source-name"

def actionJobTriggerKindLabel : String := "git-events-runner.rs/trigger-kind"

def actionJobTriggerNameLabel : String := "git-events-runner.rs/trigger-name"

/-- The label values under which `Metrics::count_and_measure_completed` counts a Job;
`none` is the panic of one of its unwrapped lookups. -/
def countAndMeasureCompleted (job : Job) (status : JobCompletionStatus) : Option (List String) := do
  let ns ← job.metadata.ns
  let jobLabels ← job.metadata.labels
  let actionKind ← jobLabels.get actionJobActionKindLabel
  let actionName ← jobLabels.get actionJobActionNameLabel
  let sourceKind ← jobLabels.get actionJobSourceKindLabel
  let sourceName ← jobLabels.get actionJobSourceNameLabel
  let triggerKind ← jobLabels.get actionJobTriggerKindLabel
  let triggerName ← jobLabels.get actionJobTriggerNameLabel
  pure [ns, triggerKind, triggerName, sourceKind, sourceName, actionKind, actionName, status.text]

/-- Number of values of a gauge from zero on. -/
def gaugeSize : ℕ := 2 ^ 63

/-- `Metrics::update_gauges`; `false` is the panic of one of its unwrapped
conversions. -/
def updateGauges (runningJobs maxRunningJobs waitingJobs : ℕ) : Bool :=
  runningJobs < gaugeSize && maxRunningJobs < gaugeSize && waitingJobs < gaugeSize

/-! ## Items in the queue -/

/-- A Job in the queue with the time it was put there and its own timeout. -/
structure JobsQueueItem where
  job : Job
  enqueuedAt : SystemTime
  expireAfter : Option Duration

namespace JobsQueueItem

/-- `JobsQueueItem::is_expired` at clock reading `now`; `none` is the panic of
the unwrapped `checked_add`. -/
def isExpired (item : JobsQueueItem) (config : ActionConfig) (now : SystemTime) :
    Option Bool :=
  let expiredAfter := item.expireAfter.getD (Duration.fromSecs config.jobWaitingTimeoutSeconds)
  (item.enqueuedAt.checkedAdd expiredAfter).map fun deadline => decide (deadline < now)

/-- The item `JobsQueue::enqueue` builds: the Job with the identity label and
its namespace set. -/
def ofJob (identity : String) (job : Job) (ns : String) (expireAfter : Option Duration)
    (now : SystemTime) : JobsQueueItem :=
  let labels := (job.metadata.labels.getD ∅).insert actionJobIdentityLabel identity
  { job := { job with metadata := { job.metadata with ns := some ns, labels := some labels } }
    enqueuedAt := now
    expireAfter := expireAfter }

end JobsQueueItem

/-! ## A `run_queue` call -/

/-- What becomes of an item taken out of the queue. -/
inductive Outcome
  | created | createError | expired
  deriving DecidableEq, Repr

/-- An item with the clock reading and config its `is_expired` check used. -/
structure Checked where
  item : JobsQueueItem
  now : SystemTime
  config : ActionConfig

/-- A fully handled item. -/
structure Handled extends Checked where
  outcome : Outcome

/-- Where a call stands inside its loop: at the `while` condition, with a
received item, with a create request on its way, with the reply to a successful
one on its way, or done with an item. -/
inductive PassPhase
  | atLoop
  | checking (item : JobsQueueItem)
  | creating (checked : Checked)
  | created (checked : Checked)
  | gauging

/-- A created Job whose reply is on its way still counts as free capacity. -/
def PassPhase.owed : PassPhase → ℕ
  | .created _ => 1
  | _ => 0

/-- The locals of a `run_queue` call past its snapshot.  `initialWaiting` and
`handled` are history: the length of the queue at the snapshot and the items
the call has finished with. -/
structure Pass where
  runningJobs : ℕ
  maxRunningJobs : ℕ
  waitingJobs : ℕ
  freeCapacity : ℕ
  phase : PassPhase
  initialWaiting : ℕ
  handled : List Handled

/-- A `run_queue` call that holds the receiver lock: nothing read yet, the
counter loaded, the queue length read as well, the limit too, or in the `while`
loop. -/
inductive Call
  | locked
  | counted (runningJobs : ℕ)
  | measured (runningJobs waitingJobs : ℕ)
  | limited (runningJobs waitingJobs maxRunningJobs : ℕ)
  | passing (pass : Pass)

/-! ## The system -/

/-- The two event loops of `init_and_watch` that call `run_queue`. -/
inductive Caller
  | queueEvents | config
  deriving DecidableEq, Repr

/-- Where an event loop stands: not yet subscribed to its channel, in
`changed().await`, between that and `borrow_and_update`, waiting for the
receiver lock in `run_queue`, or past that point. -/
inductive EventLoop
  | starting | waiting | notified | locking | running
  deriving DecidableEq, Repr

/-- A Job this instance created, while it exists in the cluster. -/
structure ClusterJob where
  key : ObjectRef
  status : Option JobStatus

namespace ClusterJob

/-- The Job is not yet finished; a Job without a status has not started. -/
def isUnfinished (job : ClusterJob) : Bool := job.status.all JobStatus.isUnfinished

end ClusterJob

/-- An event on its way to the handler, with the uid of the Job if `run_queue`
created it. -/
structure Delivery where
  uid : Option ℕ
  event : WatchEvent

/-- The whole state.  `unseen c` tells whether the channel of loop `c` holds a
value newer than the last one the loop saw; `notifying` counts the `enqueue`
calls between their two sends; `call` is the `run_queue` call that holds the
receiver lock, with the loop it belongs to.  `unhandled` are the Jobs created by
`run_queue` whose first event was not handled yet.  `panicked` tells whether the
task of the loops, the call and the handler is gone.  The remaining fields are
history: the items put in by `enqueue`, the items taken out and finished with,
the items passed to the API's create, those of which the server stored a Job, and
the finished `run_queue` calls that entered their loop, all in order. -/
structure System where
  identity : String
  config : ActionConfig
  waiting : List JobsQueueItem
  notifying : ℕ
  unseen : Caller → Bool
  loops : Caller → EventLoop
  call : Option (Caller × Call)
  watch : JobsWatch
  cluster : HashMap ℕ ClusterJob
  backlog : List Delivery
  nextUid : ℕ
  unhandled : List ℕ
  panicked : Bool
  putIn : List JobsQueueItem
  takenOut : List Handled
  createCalls : List JobsQueueItem
  stored : List JobsQueueItem
  passes : List Pass

/-- Steps of an event loop up to the receiver lock. -/
inductive LoopAction
  | subscribe | changed | borrowAndUpdate | lock
  deriving DecidableEq, Repr

/-- Steps of the `run_queue` call that holds the lock, and of the API server
serving its create request.  `check` carries the clock readings of `is_expired`
and of the waiting-time metric, `accept` the status the server gives the Job.  The
call hears of an error if the server rejects its request, and also if the reply
about a stored Job is lost; a request the call gave up is not stored later. -/
inductive CallAction
  | loadRunningJobs
  | readLen
  | readConfig
  | updateGauges
  | recv
  | check (now measured : SystemTime)
  | accept (status : Option JobStatus)
  | reject
  | reply
  | loseReply
  | stop

/-- Everything that can happen next.  `setStatus` and `deleteJob` are the
cluster's changes of Jobs of this instance, `foreign` a change of a Job that
carries the identity label but was not created by `run_queue`; `deliver` and
`watchError` hand the next event, or an error, to the handler, and the Job of the
event is `labelled` if it has all labels of a Job of this program. -/
inductive Action
  | enqueue (job : Job) (ns : String) (expireAfter : Option Duration) (now : SystemTime)
  | notify
  | replaceConfig (config : ActionConfig)
  | loop (caller : Caller) (action : LoopAction)
  | call (action : CallAction)
  | setStatus (uid : ℕ) (status : JobStatus)
  | deleteJob (uid : ℕ)
  | foreign (event : WatchEvent)
  | deliver (labelled : Bool)
  | watchError

/-- What the task of the queue does.  The server serves its create request without it. -/
def Action.ofTask : Action → Bool
  | .call (.accept _) => false
  | .loop .. | .call _ | .deliver _ | .watchError => true
  | .enqueue .. | .notify | .replaceConfig _ | .setStatus .. | .deleteJob _ | .foreign _ => false

namespace System

/-- The state in which `init_and_watch` enters its `select!`, unless it panics on
its gauges: the queue loop's receiver exists since the channel was made, the config
loop subscribes when it is first polled. -/
def start (identity : String) (config : ActionConfig) (watch : JobsWatch) : System where
  identity := identity
  config := config
  waiting := []
  notifying := 0
  unseen _ := false
  loops
    | .queueEvents => .waiting
    | .config => .starting
  call := none
  watch := watch
  cluster := ∅
  backlog := []
  nextUid := 0
  unhandled := []
  panicked := !updateGauges watch.runningJobs config.maxRunningJobs 0
  putIn := []
  takenOut := []
  createCalls := []
  stored := []
  passes := []

/-- Move loop `c`. -/
def setLoop (s : System) (c : Caller) (loop : EventLoop) : System :=
  { s with loops := Function.update s.loops c loop }

/-- Mark the channel of loop `c`. -/
def setUnseen (s : System) (c : Caller) (flag : Bool) : System :=
  { s with unseen := Function.update s.unseen c flag }

/-- `queue_event_tx.send(())` -/
def sendQueueEvent (s : System) : System := s.setUnseen .queueEvents true

/-- `jobs_tx.send(job_item)`, the first half of `enqueue`. -/
def put (s : System) (item : JobsQueueItem) : System :=
  { s with
    waiting := s.waiting ++ [item]
    putIn := s.putIn ++ [item]
    notifying := s.notifying + 1 }

/-- The call advances. -/
def setCall (s : System) (c : Caller) (call : Call) : System := { s with call := some (c, call) }

/-- `run_queue` returns to the loop it was called from. -/
def returnCall (s : System) (c : Caller) : System := { s.setLoop c .waiting with call := none }

/-- The locals of a call that found the limit not exceeded. -/
def beginPass (runningJobs waitingJobs maxRunningJobs : ℕ) : Pass where
  runningJobs := runningJobs
  maxRunningJobs := maxRunningJobs
  waitingJobs := waitingJobs
  freeCapacity := maxRunningJobs - runningJobs
  phase := .atLoop
  initialWaiting := waitingJobs
  handled := []

/-- The call is done with an item. -/
def finishItem (s : System) (c : Caller) (pass : Pass) (handled : Handled) : System :=
  { s with takenOut := s.takenOut ++ [handled] }.setCall c
    (.passing { pass with phase := .gauging, handled := pass.handled ++ [handled] })

/-- The server creates the Job of an item and its first event sets off. -/
def createJob (s : System) (item : JobsQueueItem) (status : Option JobStatus) : System :=
  { s with
    cluster := s.cluster.insert s.nextUid ⟨item.job.objectRef, status⟩
    backlog := s.backlog ++ [⟨some s.nextUid, .apply item.job.objectRef status⟩]
    unhandled := s.unhandled ++ [s.nextUid]
    stored := s.stored ++ [item]
    nextUid := s.nextUid + 1 }

/-- Steps of loop `c` up to the receiver lock. -/
def loopStep (s : System) (c : Caller) (action : LoopAction) : Option System :=
  match s.loops c, action with
  | .starting, .subscribe => some ((s.setUnseen c false).setLoop c .waiting)
  | .waiting, .changed =>
      if s.unseen c then some ((s.setUnseen c false).setLoop c .notified) else none
  | .notified, .borrowAndUpdate => some ((s.setUnseen c false).setLoop c .locking)
  | .locking, .lock =>
      if s.call.isNone then some ((s.setLoop c .running).setCall c .locked) else none
  | _, _ => none

/-- Steps inside the `while` loop of a call. -/
def passStep (s : System) (c : Caller) (pass : Pass) (action : CallAction) : Option System :=
  match pass.phase, action with
  | .atLoop, .recv =>
      match s.waiting with
      | item :: rest =>
          if 0 < pass.waitingJobs ∧ 0 < pass.freeCapacity then
            some ({ s with waiting := rest }.setCall c (.passing
              { pass with phase := .checking item, waitingJobs := pass.waitingJobs - 1 }))
          else none
      | [] => none
  | .atLoop, .stop =>
      if pass.waitingJobs = 0 ∨ pass.freeCapacity = 0 then
        some ({ s with passes := s.passes ++ [pass] }.returnCall c)
      else none
  | .checking item, .check now _ =>
      match item.isExpired s.config now with
      | none => none
      | some true => some (s.finishItem c pass ⟨⟨item, now, s.config⟩, .expired⟩)
      | some false => some ({ s with createCalls := s.createCalls ++ [item] }.setCall c (.passing
          { pass with phase := .creating ⟨item, now, s.config⟩ }))
  | .creating checked, .accept status =>
      if status.all JobStatus.isUnfinished then
        some ((s.createJob checked.item status).setCall c (.passing
          { pass with phase := .created checked }))
      else none
  | .creating checked, .reject => some (s.finishItem c pass ⟨checked, .createError⟩)
  | .created checked, .reply =>
      some (s.finishItem c { pass with freeCapacity := pass.freeCapacity - 1 }
        ⟨checked, .created⟩)
  -- the `Err` branch keeps the capacity, although the Job exists
  | .created checked, .loseReply => some (s.finishItem c pass ⟨checked, .createError⟩)
  | .gauging, .updateGauges => some (s.setCall c (.passing { pass with phase := .atLoop }))
  | _, _ => none

/-- Steps of the `run_queue` call that holds the lock. -/
def callStep (s : System) (action : CallAction) : Option System :=
  match s.call, action with
  | some (c, .locked), .loadRunningJobs => some (s.setCall c (.counted s.watch.runningJobs))
  | some (c, .counted runningJobs), .readLen =>
      some (s.setCall c (.measured runningJobs s.waiting.length))
  | some (c, .measured runningJobs waitingJobs), .readConfig =>
      some (s.setCall c (.limited runningJobs waitingJobs s.config.maxRunningJobs))
  | some (c, .limited runningJobs waitingJobs maxRunningJobs), .updateGauges =>
      -- the call returns at once if the limit is exceeded
      if maxRunningJobs < runningJobs then some (s.returnCall c)
      else some (s.setCall c (.passing (beginPass runningJobs waitingJobs maxRunningJobs)))
  | some (c, .passing pass), action => s.passStep c pass action
  | _, _ => none

/-- The handler takes one delivered event and sends a queue event. -/
def handleDelivery (s : System) (delivery : Delivery) : System :=
  { s with
    watch := s.watch.deliver delivery.event
    unhandled := s.unhandled.filter fun uid => some uid ≠ delivery.uid }.sendQueueEvent

/-! ## Panics -/

/-- The metrics of the Job of an item cannot be filed. -/
def unlabelled (item : JobsQueueItem) (status : JobCompletionStatus) : Bool :=
  (countAndMeasureCompleted item.job status).isNone

/-- A step inside the `while` loop of a call panics. -/
def passPanics (s : System) (pass : Pass) (action : CallAction) : Bool :=
  match pass.phase, action with
  | .checking item, .check now measured =>
      match item.isExpired s.config now with
      | none => true
      | some true => unlabelled item .expired
      -- `duration_since(..).unwrap()` on a clock before `enqueued_at`
      | some false => (measured.durationSince item.enqueuedAt).isNone
  | .creating checked, .reject => unlabelled checked.item .createError
  | .created checked, .loseReply => unlabelled checked.item .createError
  | .gauging, .updateGauges =>
      !updateGauges s.watch.runningJobs s.config.maxRunningJobs pass.waitingJobs
  | _, _ => false

/-- A step of the task panics.  The handler files the metrics of a Job that ends. -/
def panics (s : System) : Action → Bool
  | .call action =>
      match s.call, action with
      | some (_, .limited _ waitingJobs _), .updateGauges =>
          !updateGauges s.watch.runningJobs s.config.maxRunningJobs waitingJobs
      | some (_, .passing pass), action => s.passPanics pass action
      | _, _ => false
  | .deliver labelled =>
      match s.backlog with
      | delivery :: _ =>
          !labelled && s.watch.completed.length < (s.watch.deliver delivery.event).completed.length
      | [] => false
  | _ => false

/-- Perform one action without a panic; `none` if it is not possible now. -/
def proceed (s : System) : Action → Option System
  | .enqueue job ns expireAfter now =>
      some (s.put (.ofJob s.identity job ns expireAfter now))
  | .notify =>
      if 0 < s.notifying then
        -- without its task the channel has no receiver
        if s.panicked then some { s with notifying := s.notifying - 1 }
        else some { s with notifying := s.notifying - 1 }.sendQueueEvent
      else none
  | .replaceConfig config =>
      -- a value sent before the loop subscribes is not new to its receiver
      if s.loops .config = .starting then some { s with config := config }
      else some ({ s with config := config }.setUnseen .config true)
  | .loop caller action => s.loopStep caller action
  | .call action => s.callStep action
  | .setStatus uid status =>
      match s.cluster.get uid with
      | some job =>
          -- a finished Job stays finished
          if job.isUnfinished = true ∨ status.isUnfinished = false then
            some { s with
              cluster := s.cluster.insert uid ⟨job.key, some status⟩
              backlog := s.backlog ++ [⟨some uid, .apply job.key (some status)⟩] }
          else none
      | none => none
  | .deleteJob uid =>
      match s.cluster.get uid with
      | some job => some { s with
          cluster := s.cluster.remove uid
          backlog := s.backlog ++ [⟨some uid, .delete job.key⟩] }
      | none => none
  | .foreign event => some { s with backlog := s.backlog ++ [⟨none, event⟩] }
  | .deliver _ =>
      match s.backlog with
      | delivery :: rest => some ({ s with backlog := rest }.handleDelivery delivery)
      | [] => none
  | .watchError => some s.sendQueueEvent

/-- Perform one action; `none` if it is not possible now. -/
def step (s : System) (action : Action) : Option System :=
  if s.panicked && action.ofTask then none
  else if s.panics action then some { s with panicked := true }
  else s.proceed action

/-- What happens outside the task happens also when the task is gone. -/
theorem step_eq_proceed {s : System} {action : Action} (houtside : action.ofTask = false)
    (hcalm : s.panics action = false) : s.step action = s.proceed action := by
  simp only [step, houtside, hcalm, Bool.and_false, Bool.false_eq_true, if_false]

/-- Number of Jobs of this instance that exist in the cluster unfinished. -/
def unfinishedInCluster (s : System) : ℕ := s.cluster.countP ClusterJob.isUnfinished

/-! ## Everything one step can do

`Transition` lists the steps with their guards.  The theorems about runs are
proved over it, so that the step function is taken apart only once. -/

/-- The transitions of the system. -/
inductive Transition (s : System) : Action → System → Prop
  | enqueue (job : Job) (ns : String) (expireAfter : Option Duration) (now : SystemTime) :
      Transition s (.enqueue job ns expireAfter now)
        (s.put (.ofJob s.identity job ns expireAfter now))
  | notify (hcalls : 0 < s.notifying) :
      Transition s .notify { s with notifying := s.notifying - 1 }.sendQueueEvent
  | notifyNobody (hpanicked : s.panicked = true) :
      Transition s .notify { s with notifying := s.notifying - 1 }
  | replaceEarly (config : ActionConfig) (hloop : s.loops .config = .starting) :
      Transition s (.replaceConfig config) { s with config := config }
  | replace (config : ActionConfig) (hloop : s.loops .config ≠ .starting) :
      Transition s (.replaceConfig config) ({ s with config := config }.setUnseen .config true)
  | subscribe (c : Caller) (hloop : s.loops c = .starting) :
      Transition s (.loop c .subscribe) ((s.setUnseen c false).setLoop c .waiting)
  | changed (c : Caller) (hloop : s.loops c = .waiting) (hunseen : s.unseen c = true) :
      Transition s (.loop c .changed) ((s.setUnseen c false).setLoop c .notified)
  | borrowAndUpdate (c : Caller) (hloop : s.loops c = .notified) :
      Transition s (.loop c .borrowAndUpdate) ((s.setUnseen c false).setLoop c .locking)
  | lock (c : Caller) (hloop : s.loops c = .locking) (hcall : s.call = none) :
      Transition s (.loop c .lock) ((s.setLoop c .running).setCall c .locked)
  | loadRunningJobs (c : Caller) (hcall : s.call = some (c, .locked)) :
      Transition s (.call .loadRunningJobs) (s.setCall c (.counted s.watch.runningJobs))
  | readLen (c : Caller) (runningJobs : ℕ) (hcall : s.call = some (c, .counted runningJobs)) :
      Transition s (.call .readLen) (s.setCall c (.measured runningJobs s.waiting.length))
  | readConfig (c : Caller) (runningJobs waitingJobs : ℕ)
      (hcall : s.call = some (c, .measured runningJobs waitingJobs)) :
      Transition s (.call .readConfig)
        (s.setCall c (.limited runningJobs waitingJobs s.config.maxRunningJobs))
  | exceeded (c : Caller) (runningJobs waitingJobs maxRunningJobs : ℕ)
      (hcall : s.call = some (c, .limited runningJobs waitingJobs maxRunningJobs))
      (hlimit : maxRunningJobs < runningJobs) :
      Transition s (.call .updateGauges) (s.returnCall c)
  | begin (c : Caller) (runningJobs waitingJobs maxRunningJobs : ℕ)
      (hcall : s.call = some (c, .limited runningJobs waitingJobs maxRunningJobs))
      (hlimit : runningJobs ≤ maxRunningJobs) :
      Transition s (.call .updateGauges)
        (s.setCall c (.passing (beginPass runningJobs waitingJobs maxRunningJobs)))
  | recv (c : Caller) (pass : Pass) (item : JobsQueueItem) (rest : List JobsQueueItem)
      (hcall : s.call = some (c, .passing pass)) (hphase : pass.phase = .atLoop)
      (hwaiting : s.waiting = item :: rest) (hjobs : 0 < pass.waitingJobs)
      (hfree : 0 < pass.freeCapacity) :
      Transition s (.call .recv) ({ s with waiting := rest }.setCall c (.passing
        { pass with phase := .checking item, waitingJobs := pass.waitingJobs - 1 }))
  | expire (c : Caller) (pass : Pass) (item : JobsQueueItem) (now measured : SystemTime)
      (hcall : s.call = some (c, .passing pass)) (hphase : pass.phase = .checking item)
      (hexpired : item.isExpired s.config now = some true) :
      Transition s (.call (.check now measured))
        (s.finishItem c pass ⟨⟨item, now, s.config⟩, .expired⟩)
  | request (c : Caller) (pass : Pass) (item : JobsQueueItem) (now measured : SystemTime)
      (hcall : s.call = some (c, .passing pass)) (hphase : pass.phase = .checking item)
      (hfresh : item.isExpired s.config now = some false) :
      Transition s (.call (.check now measured))
        ({ s with createCalls := s.createCalls ++ [item] }.setCall c (.passing
          { pass with phase := .creating ⟨item, now, s.config⟩ }))
  | accept (c : Caller) (pass : Pass) (checked : Checked) (status : Option JobStatus)
      (hcall : s.call = some (c, .passing pass)) (hphase : pass.phase = .creating checked)
      (hstatus : status.all JobStatus.isUnfinished = true) :
      Transition s (.call (.accept status)) ((s.createJob checked.item status).setCall c
        (.passing { pass with phase := .created checked }))
  | reject (c : Caller) (pass : Pass) (checked : Checked)
      (hcall : s.call = some (c, .passing pass)) (hphase : pass.phase = .creating checked) :
      Transition s (.call .reject) (s.finishItem c pass ⟨checked, .createError⟩)
  | reply (c : Caller) (pass : Pass) (checked : Checked)
      (hcall : s.call = some (c, .passing pass)) (hphase : pass.phase = .created checked) :
      Transition s (.call .reply) (s.finishItem c
        { pass with freeCapacity := pass.freeCapacity - 1 } ⟨checked, .created⟩)
  | loseReply (c : Caller) (pass : Pass) (checked : Checked)
      (hcall : s.call = some (c, .passing pass)) (hphase : pass.phase = .created checked) :
      Transition s (.call .loseReply) (s.finishItem c pass ⟨checked, .createError⟩)
  | gauge (c : Caller) (pass : Pass) (hcall : s.call = some (c, .passing pass))
      (hphase : pass.phase = .gauging) :
      Transition s (.call .updateGauges)
        (s.setCall c (.passing { pass with phase := .atLoop }))
  | stop (c : Caller) (pass : Pass) (hcall : s.call = some (c, .passing pass))
      (hphase : pass.phase = .atLoop) (hdone : pass.waitingJobs = 0 ∨ pass.freeCapacity = 0) :
      Transition s (.call .stop) ({ s with passes := s.passes ++ [pass] }.returnCall c)
  | setStatus (uid : ℕ) (status : JobStatus) (job : ClusterJob)
      (hfound : s.cluster.get uid = some job)
      (hfinal : job.isUnfinished = true ∨ status.isUnfinished = false) :
      Transition s (.setStatus uid status)
        { s with
          cluster := s.cluster.insert uid ⟨job.key, some status⟩
          backlog := s.backlog ++ [⟨some uid, .apply job.key (some status)⟩] }
  | deleteJob (uid : ℕ) (job : ClusterJob)
      (hfound : s.cluster.get uid = some job) :
      Transition s (.deleteJob uid)
        { s with
          cluster := s.cluster.remove uid
          backlog := s.backlog ++ [⟨some uid, .delete job.key⟩] }
  | foreign (event : WatchEvent) :
      Transition s (.foreign event) { s with backlog := s.backlog ++ [⟨none, event⟩] }
  | deliver (labelled : Bool) (delivery : Delivery) (rest : List Delivery)
      (hbacklog : s.backlog = delivery :: rest) :
      Transition s (.deliver labelled) ({ s with backlog := rest }.handleDelivery delivery)
  | watchError : Transition s .watchError s.sendQueueEvent
  | panic (action : Action) (hpanics : s.panics action = true) :
      Transition s action { s with panicked := true }

theorem Transition.of_loopStep {s t : System} {c : Caller} {action : LoopAction}
    (h : s.loopStep c action = some t) : Transition s (.loop c action) t := by
  unfold loopStep at h
  split at h
  · obtain rfl := Option.some.inj h
    exact .subscribe c ‹_›
  · split at h
    · obtain rfl := Option.some.inj h
      exact .changed c ‹_› ‹_›
    · cases h
  · obtain rfl := Option.some.inj h
    exact .borrowAndUpdate c ‹_›
  · split at h
    · obtain rfl := Option.some.inj h
      exact .lock c ‹_› (Option.isNone_iff_eq_none.mp ‹_›)
    · cases h
  · cases h

theorem Transition.of_passStep {s t : System} {c : Caller} {pass : Pass} {action : CallAction}
    (hcall : s.call = some (c, .passing pass)) (h : s.passStep c pass action = some t) :
    Transition s (.call action) t := by
  unfold passStep at h
  split at h
  · split at h
    · split at h
      · obtain rfl := Option.some.inj h
        exact .recv c pass _ _ hcall ‹_› ‹_› (And.left ‹_›) (And.right ‹_›)
      · cases h
    · cases h
  · split at h
    · obtain rfl := Option.some.inj h
      exact .stop c pass hcall ‹_› ‹_›
    · cases h
  · split at h
    · cases h
    · obtain rfl := Option.some.inj h
      exact .expire c pass _ _ _ hcall ‹_› ‹_›
    · obtain rfl := Option.some.inj h
      exact .request c pass _ _ _ hcall ‹_› ‹_›
  · split at h
    · obtain rfl := Option.some.inj h
      exact .accept c pass _ _ hcall ‹_› ‹_›
    · cases h
  · obtain rfl := Option.some.inj h
    exact .reject c pass _ hcall ‹_›
  · obtain rfl := Option.some.inj h
    exact .reply c pass _ hcall ‹_›
  · obtain rfl := Option.some.inj h
    exact .loseReply c pass _ hcall ‹_›
  · obtain rfl := Option.some.inj h
    exact .gauge c pass hcall ‹_›
  · cases h

theorem Transition.of_callStep {s t : System} {action : CallAction}
    (h : s.callStep action = some t) : Transition s (.call action) t := by
  unfold callStep at h
  split at h
  · obtain rfl := Option.some.inj h
    exact .loadRunningJobs _ ‹_›
  · obtain rfl := Option.some.inj h
    exact .readLen _ _ ‹_›
  · obtain rfl := Option.some.inj h
    exact .readConfig _ _ _ ‹_›
  · split at h
    · obtain rfl := Option.some.inj h
      exact .exceeded _ _ _ _ ‹_› ‹_›
    · obtain rfl := Option.some.inj h
      exact .begin _ _ _ _ ‹_› (Nat.not_lt.mp ‹_›)
  · exact .of_passStep ‹_› h
  · cases h

theorem Transition.of_proceed {s t : System} {action : Action} (h : s.proceed action = some t) :
    Transition s action t := by
  cases action with
  | enqueue job ns expireAfter now =>
      obtain rfl := Option.some.inj h
      exact .enqueue job ns expireAfter now
  | notify =>
      simp only [proceed] at h
      split at h
      · split at h
        · obtain rfl := Option.some.inj h
          exact .notifyNobody ‹_›
        · obtain rfl := Option.some.inj h
          exact .notify ‹_›
      · cases h
  | replaceConfig config =>
      simp only [proceed] at h
      split at h
      · obtain rfl := Option.some.inj h
        exact .replaceEarly config ‹_›
      · obtain rfl := Option.some.inj h
        exact .replace config ‹_›
  | loop caller action => exact .of_loopStep h
  | call action => exact .of_callStep h
  | setStatus uid status =>
      simp only [proceed] at h
      split at h
      · split at h
        · obtain rfl := Option.some.inj h
          exact .setStatus uid status _ ‹_› ‹_›
        · cases h
      · cases h
  | deleteJob uid =>
      simp only [proceed] at h
      split at h
      · obtain rfl := Option.some.inj h
        exact .deleteJob uid _ ‹_›
      · cases h
  | foreign event =>
      obtain rfl := Option.some.inj h
      exact .foreign event
  | deliver labelled =>
      simp only [proceed] at h
      split at h
      · obtain rfl := Option.some.inj h
        exact .deliver labelled _ _ ‹_›
      · cases h
  | watchError =>
      obtain rfl := Option.some.inj h
      exact .watchError

/-- Every step of the machine is one of the listed transitions. -/
theorem Transition.of_step {s t : System} {action : Action} (h : s.step action = some t) :
    Transition s action t := by
  rw [step] at h
  split at h
  · cases h
  · split at h
    · obtain rfl := Option.some.inj h
      exact .panic action ‹_›
    · exact .of_proceed h

end System

end GitEventsRunner.Jobs
