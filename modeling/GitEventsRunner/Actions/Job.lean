/-
# Actions and the Jobs they make

The data model of `resources/action.rs` and `create_job_spec`: how an action, the
source and the trigger that called it, and the runtime configuration become a
Job.  Both kinds of action are one type here; they differ in their kind and in
what their source override may name.

`create_job_spec` reads the runtime configuration many times, and the
configuration may change in between, so it is a program whose effects are these
readings, the clock and the random suffix of the Job's name.
-/

import GitEventsRunner.Jobs.Queue
import GitEventsRunner.Triggers.Task

namespace GitEventsRunner.Actions

open GitEventsRunner.Lib
open GitEventsRunner.Triggers

/-! ## Actions -/

/-- Action source override section. -/
structure ActionSourceOverride where
  kind : TriggerSourceKind
  name : String
  reference : TriggerGitRepoReference
  deriving DecidableEq, Repr

/-- Possible kinds of the source override of a ClusterAction. -/
inductive TriggerClusterSourceKind
  | clusterGitRepo
  deriving DecidableEq, Repr

/-- ClusterAction source override section. -/
structure ClusterActionSourceOverride where
  kind : TriggerClusterSourceKind := .clusterGitRepo
  name : String
  reference : TriggerGitRepoReference
  deriving DecidableEq, Repr

/-- Action Job config section, without what is only copied into the pod
(tolerations, affinity, node selector). -/
structure ActionJob where
  workdir : Option String := none
  clonerImage : Option String := none
  actionImage : Option String := none
  args : Option (List String) := none
  command : Option (List String) := none
  serviceAccount : Option String := none
  annotations : Option (HashMap String String) := none
  labels : Option (HashMap String String) := none
  ttlSecondsAfterFinished : Option ℤ := none
  activeDeadlineSeconds : Option ℤ := none
  jobWaitingTimeoutSeconds : Option ℕ := none
  enableClonerDebug : Bool := false
  preserveGitFolder : Bool := false

/-- The source override of an action, which says which kind of action it is. -/
inductive SourceOverride
  | action (override : Option ActionSourceOverride)
  | clusterAction (override : Option ClusterActionSourceOverride)

/-- An Action or ClusterAction.  Only the first is in a namespace. -/
structure Action where
  name : String
  ns : Option String := none
  sourceOverride : SourceOverride
  actionJob : ActionJob := {}

namespace Action

/-- The kind of an action. -/
def kind (action : Action) : TriggerActionKind :=
  match action.sourceOverride with
  | .action _ => .action
  | .clusterAction _ => .clusterAction

/-- `CustomApiResource::crd_kind` -/
def crdKind (action : Action) : String :=
  match action.kind with
  | .action => "Action"
  | .clusterAction => "ClusterAction"

/-- `ActionInternals::source_override_spec` -/
def sourceOverrideSpec (action : Action) : Option ActionSourceOverride :=
  match action.sourceOverride with
  | .action override => override
  | .clusterAction override => override.map fun value =>
      { kind := .clusterGitRepo, name := value.name, reference := value.reference }

end Action

/-! ## Configuration -/

/-- The part of `RuntimeConfig::action` that makes Jobs. -/
structure ActionConfig where
  defaultServiceAccount : Option String := none
  activeDeadlineSeconds : ℤ := 3600
  ttlSecondsAfterFinished : ℤ := 7200
  mountPath : String := "/action_workdir"
  volumeName : String := "action-workdir"
  clonerName : String := "action-cloner"
  clonerImage : String := "ghcr.io/alex-karpenko/git-events-runner/gitrepo-cloner:v0.5.0"
  workerName : String := "action-worker"
  workerImage : String := "ghcr.io/alex-karpenko/git-events-runner/action-worker:v0.5.0"
  variablesPrefix : String := "ACTION_JOB_"
  deriving DecidableEq, Repr

/-! ## Jobs -/

/-- An environment variable of a container. -/
structure EnvVar where
  name : String
  value : String
  deriving DecidableEq, Repr

/-- A volume mounted in a container. -/
structure VolumeMount where
  name : String
  mountPath : String
  deriving DecidableEq, Repr

/-- A container of a Job's pod. -/
structure Container where
  name : String
  image : String
  command : Option (List String) := none
  args : Option (List String) := none
  workingDir : Option String := none
  env : List EnvVar := []
  volumeMounts : List VolumeMount := []
  deriving DecidableEq, Repr

/-- The owner of a Job. -/
structure OwnerReference where
  kind : String
  name : String
  deriving DecidableEq, Repr

/-- A Job as `create_job_spec` makes it. -/
structure JobSpec where
  metadata : Jobs.ObjectMeta
  annotations : Option (HashMap String String)
  ownerReferences : List OwnerReference
  backoffLimit : ℕ := 0
  parallelism : ℕ := 1
  ttlSecondsAfterFinished : ℤ
  activeDeadlineSeconds : ℤ
  podLabels : Option (HashMap String String)
  podAnnotations : Option (HashMap String String)
  serviceAccountName : Option String
  initContainer : Container
  container : Container
  restartPolicy : String := "Never"
  volumeName : String

/-- The Job as the queue handles it. -/
def JobSpec.toJob (spec : JobSpec) : Jobs.Job := ⟨spec.metadata⟩

/-! ## Making a Job -/

/-- What making a Job asks of its surroundings: the current runtime
configuration, the local time as `%Y%m%d-%H%M%S`, and random characters. -/
inductive JobEffect
  | runtimeConfig
  | localTime
  | randomString (len : ℕ)

/-- What comes back. -/
def JobEffect.Reply : JobEffect → Type
  | .runtimeConfig => ActionConfig
  | .localTime => String
  | .randomString len => RandomString len

/-- A program that makes a Job. -/
abbrev JobProg (α : Type) := Prog JobEffect.Reply α

/-- The same letter over and over could be random. -/
theorem replicate_randomString (len : ℕ) :
    (String.ofList (List.replicate len 'a')).toList.length = len ∧
      ∀ c ∈ (String.ofList (List.replicate len 'a')).toList, c.isAlphanum = true := by
  rw [String.toList_ofList]
  apply And.intro List.length_replicate
  intro c hc
  rw [List.eq_of_mem_replicate hc]
  decide

/-- Surroundings with the default configuration, in which all random characters
are the same. -/
def JobEffect.plainReply : (e : JobEffect) → e.Reply
  | .runtimeConfig => {}
  | .localTime => "20240501-120000"
  | .randomString len => ⟨String.ofList (List.replicate len 'a'), replicate_randomString len⟩

/-- `RuntimeConfig::get` -/
def runtimeConfig : JobProg ActionConfig := Prog.perform JobEffect.runtimeConfig

def localTime : JobProg String := Prog.perform JobEffect.localTime

def randomString (len : ℕ) : JobProg (RandomString len) :=
  Prog.perform (JobEffect.randomString len)

/-- The name of a kind of source, as it is printed. -/
def sourceKindText : TriggerSourceKind → String
  | .gitRepo => "GitRepo"
  | .clusterGitRepo => "ClusterGitRepo"

/-- `TriggerGitRepoReference::to_refname` -/
def toRefname (reference : TriggerGitRepoReference) (pre : String) : String × String :=
  match reference with
  | .branch branch => (pre ++ "branch", branch)
  | .tag tag => (pre ++ "tag", tag)
  | .commit commit => (pre ++ "commit", commit)

/-- `format_action_job_env_var` -/
def formatActionJobEnvVar (name value : String) : JobProg EnvVar := do
  let config ← runtimeConfig
  pure ⟨config.variablesPrefix ++ name, value⟩

namespace Action

variable (action : Action)

/-- `ActionInternals::job_name` -/
def jobName : JobProg String := do
  let timestamp ← localTime
  let suffix ← randomString 2
  pure (action.name ++ "-" ++ timestamp ++ "-" ++ suffix.val).toLower

/-- The folder a Job works in, under a configuration. -/
def workdir (config : ActionConfig) : String := action.actionJob.workdir.getD config.mountPath

/-- `ActionInternals::get_gitrepo_cloner_args`, with the configuration it reads. -/
def getGitrepoClonerArgs (config : ActionConfig) (sourceKind : TriggerSourceKind)
    (sourceName : String) (sourceRef : TriggerGitRepoReference) : List String :=
  ["--kind", sourceKindText sourceKind, "--source", sourceName,
    "--destination", action.workdir config,
    (toRefname sourceRef "--").1, (toRefname sourceRef "--").2] ++
  (if action.actionJob.preserveGitFolder then ["--preserve-git-folder"] else []) ++
  (if action.actionJob.enableClonerDebug then ["--debug"] else [])

/-- `ActionInternals::get_action_job_envs` -/
def getActionJobEnvs (call : ExecuteCall) : JobProg (List EnvVar) := do
  let config ← runtimeConfig
  let (refType, refName) := toRefname call.triggerRef ""
  let workdir ← formatActionJobEnvVar "WORKDIR" (action.workdir config)
  let kind ← formatActionJobEnvVar "TRIGGER_SOURCE_KIND" (sourceKindText call.sourceKind)
  let name ← formatActionJobEnvVar "TRIGGER_SOURCE_NAME" call.sourceName
  let commit ← formatActionJobEnvVar "TRIGGER_SOURCE_COMMIT" call.sourceCommit
  let refTypeVar ← formatActionJobEnvVar "TRIGGER_SOURCE_REF_TYPE" refType
  let refNameVar ← formatActionJobEnvVar "TRIGGER_SOURCE_REF_NAME" refName
  let triggerKind ← formatActionJobEnvVar "TRIGGER_KIND" call.triggerKind
  let triggerName ← formatActionJobEnvVar "TRIGGER_NAME" call.triggerName
  let ns ← if call.sourceKind = .gitRepo then
      (· :: []) <$> formatActionJobEnvVar "TRIGGER_SOURCE_NAMESPACE" call.ns
    else pure []
  let override ← match action.sourceOverrideSpec with
    | some override => do
        let (refType, refName) := toRefname override.reference ""
        let kind ← formatActionJobEnvVar "ACTION_SOURCE_KIND" (sourceKindText override.kind)
        let name ← formatActionJobEnvVar "ACTION_SOURCE_NAME" override.name
        let refTypeVar ← formatActionJobEnvVar "ACTION_SOURCE_REF_TYPE" refType
        let refNameVar ← formatActionJobEnvVar "ACTION_SOURCE_REF_NAME" refName
        let ns ← if override.kind = .gitRepo then
            (· :: []) <$> formatActionJobEnvVar "ACTION_SOURCE_NAMESPACE" call.ns
          else pure []
        pure ([kind, name, refTypeVar, refNameVar] ++ ns)
    | none => pure []
  pure ([workdir, kind, name, commit, refTypeVar, refNameVar, triggerKind, triggerName] ++ ns ++
    override)

/-- The source a Job's cloner is told to clone: the override of the action, else
the source that called it, at its commit. -/
def clonedSource (call : ExecuteCall) : ActionSourceOverride :=
  action.sourceOverrideSpec.getD
    { kind := call.sourceKind, name := call.sourceName, reference := .commit call.sourceCommit }

/-- The labels of a Job: the six tracking labels, with the labels of the action
over them. -/
def jobLabels (call : ExecuteCall) : HashMap String String :=
  let labels := (((((((∅ : HashMap String String)
    |>.insert "git-events-runner.rs/action-kind" action.crdKind)
    |>.insert "git-events-runner.rs/action-name" action.name)
    |>.insert "git-events-runner.rs/source-kind" (sourceKindText call.sourceKind))
    |>.insert "git-events-runner.rs/source-name" call.sourceName)
    |>.insert "git-events-runner.rs/trigger-kind" call.triggerKind)
    |>.insert "git-events-runner.rs/trigger-name" call.triggerName)
  labels.extend (action.actionJob.labels.getD ∅)

/-- `ActionInternals::create_job_spec` -/
def createJobSpec (call : ExecuteCall) : JobProg JobSpec := do
  let config ← runtimeConfig
  let job := action.actionJob
  let source := action.clonedSource call
  let argsConfig ← runtimeConfig
  let args := action.getGitrepoClonerArgs argsConfig source.kind source.name source.reference
  let serviceAccount ← match job.serviceAccount with
    | some serviceAccount => pure (some serviceAccount)
    | none => ActionConfig.defaultServiceAccount <$> runtimeConfig
  let ttlConfig ← runtimeConfig
  let deadlineConfig ← runtimeConfig
  let name ← action.jobName
  let env ← action.getActionJobEnvs call
  let mount : VolumeMount := ⟨config.volumeName, action.workdir config⟩
  pure
    { metadata := { name := some name, labels := some (action.jobLabels call) }
      annotations := job.annotations
      ownerReferences := [⟨action.crdKind, action.name⟩]
      ttlSecondsAfterFinished := job.ttlSecondsAfterFinished.getD ttlConfig.ttlSecondsAfterFinished
      activeDeadlineSeconds := job.activeDeadlineSeconds.getD deadlineConfig.activeDeadlineSeconds
      podLabels := job.labels
      podAnnotations := job.annotations
      serviceAccountName := serviceAccount
      initContainer :=
        { name := config.clonerName
          image := job.clonerImage.getD config.clonerImage
          args := some args
          volumeMounts := [mount] }
      container :=
        { name := config.workerName
          image := job.actionImage.getD config.workerImage
          command := job.command
          args := job.args
          workingDir := some (action.workdir config)
          env := env
          volumeMounts := [mount] }
      volumeName := config.volumeName }

end Action

/-- A call of `JobsQueue::enqueue`. -/
structure EnqueueCall where
  job : JobSpec
  ns : String
  expireAfter : Option Duration

/-- `ActionExecutor::execute`, up to the call of the queue it ends with. -/
def Action.execute (action : Action) (call : ExecuteCall) : JobProg EnqueueCall := do
  let job ← action.createJobSpec call
  pure ⟨job, call.ns, action.actionJob.jobWaitingTimeoutSeconds.map Duration.fromSecs⟩

/-- The item a call of `enqueue` puts in the queue. -/
def EnqueueCall.item (enqueueCall : EnqueueCall) (identity : String) (now : SystemTime) :
    Jobs.JobsQueueItem :=
  .ofJob identity enqueueCall.job.toJob enqueueCall.ns enqueueCall.expireAfter now

/-! ## What is made

What holds of a Job and of the call of the queue whatever configurations they were
made under. -/

section Made

variable (action : Action) (call : ExecuteCall)

/-- The cloner of a Job is told the source of the action, under some
configuration. -/
def ClonesSource (job : JobSpec) : Prop :=
  ∃ config, job.initContainer.args = some
    (action.getGitrepoClonerArgs config (action.clonedSource call).kind
      (action.clonedSource call).name (action.clonedSource call).reference)

/-- A Job that was made for a call of the action. -/
structure MadeFor (job : JobSpec) : Prop where
  clones : ClonesSource action call job
  labels : job.metadata.labels = some (action.jobLabels call)

theorem createJobSpec_returns : (action.createJobSpec call).Returns (MadeFor action call) := by
  rw [Action.createJobSpec]
  apply Prog.returns_bind
  intro config
  apply Prog.returns_bind
  intro argsConfig
  extract_lets args mount rest
  have hrest : ∀ serviceAccount, (rest serviceAccount).Returns (MadeFor action call) := by
    intro serviceAccount
    apply Prog.returns_bind
    intro ttlConfig
    apply Prog.returns_bind
    intro deadlineConfig
    apply Prog.returns_bind
    intro name
    apply Prog.returns_bind
    intro env
    exact ⟨⟨argsConfig, rfl⟩, rfl⟩
  cases action.actionJob.serviceAccount with
  | none => exact Prog.returns_bind hrest
  | some serviceAccount => exact Prog.returns_bind hrest

/-- A call of the queue that ends an execution of the action. -/
structure EndsExecution (enqueueCall : EnqueueCall) : Prop where
  ns : enqueueCall.ns = call.ns
  expireAfter : enqueueCall.expireAfter =
    action.actionJob.jobWaitingTimeoutSeconds.map Duration.fromSecs
  job : MadeFor action call enqueueCall.job

theorem execute_returns : (action.execute call).Returns (EndsExecution action call) := by
  apply (createJobSpec_returns action call).bind
  intro job hjob
  exact ⟨rfl, rfl, hjob⟩

/-! ## How it is made -/

/-- A reading of the configuration that returned this one. -/
def reading (config : ActionConfig) : Prog.Event JobEffect.Reply := ⟨.runtimeConfig, config⟩

/-- The readings between the arguments of the cloner and the name: for the time to live,
for the deadline and, unless the action has one, for the service account. -/
def Action.limitReadings : ℕ := if action.actionJob.serviceAccount.isSome then 2 else 3

/-- Where the parts of a Job come from: its arguments from one configuration, its mounts
and its working directory from another one. -/
structure MadeOf (job : JobSpec) (config argsConfig : ActionConfig) (name : String)
    (env : List EnvVar) : Prop where
  metadata : job.metadata = { name := some name, labels := some (action.jobLabels call) }
  args : job.initContainer.args = some
    (action.getGitrepoClonerArgs argsConfig (action.clonedSource call).kind
      (action.clonedSource call).name (action.clonedSource call).reference)
  clonerMounts : job.initContainer.volumeMounts = [⟨config.volumeName, action.workdir config⟩]
  workerMounts : job.container.volumeMounts = [⟨config.volumeName, action.workdir config⟩]
  workingDir : job.container.workingDir = some (action.workdir config)
  env : job.container.env = env

variable {action call}

/-- Every execution reads the configuration for the Job and for the arguments of the
cloner, then for the limits of the Job, makes the name and last the environment. -/
theorem runs_createJobSpec {trace : List (Prog.Event JobEffect.Reply)} {job : JobSpec}
    (h : (action.createJobSpec call).Runs trace job) :
    ∃ config argsConfig, ∃ limits : List ActionConfig, ∃ nameTrace name envTrace env,
      trace = reading config :: reading argsConfig ::
        (limits.map reading ++ (nameTrace ++ envTrace)) ∧
      limits.length = action.limitReadings ∧
      action.jobName.Runs nameTrace name ∧
      (action.getActionJobEnvs call).Runs envTrace env ∧
      MadeOf action call job config argsConfig name env := by
  obtain ⟨config, rest, rfl, hargs⟩ := Prog.Runs.of_perform_bind h
  obtain ⟨argsConfig, rest, rfl, hrest⟩ := Prog.Runs.of_perform_bind hargs
  clear h hargs
  extract_lets args mount next at hrest
  -- what follows the service account
  have hnext : ∀ {serviceAccount trace}, (next serviceAccount).Runs trace job →
      ∃ ttlConfig deadlineConfig nameTrace name envTrace env,
        trace = reading ttlConfig :: reading deadlineConfig :: (nameTrace ++ envTrace) ∧
        action.jobName.Runs nameTrace name ∧
        (action.getActionJobEnvs call).Runs envTrace env ∧
        MadeOf action call job config argsConfig name env := by
    intro serviceAccount trace hsteps
    obtain ⟨ttlConfig, trace, rfl, httl⟩ := Prog.Runs.of_perform_bind hsteps
    obtain ⟨deadlineConfig, trace, rfl, hdeadline⟩ := Prog.Runs.of_perform_bind httl
    obtain ⟨name, nameTrace, trace, rfl, hname, hspec⟩ := Prog.runs_bind.mp hdeadline
    obtain ⟨env, envTrace, _, rfl, henv, rfl, rfl⟩ := Prog.runs_bind.mp hspec
    refine ⟨ttlConfig, deadlineConfig, nameTrace, name, envTrace, env, ?_, hname, henv, ?_⟩
    · rw [List.append_nil]
      rfl
    · exact ⟨rfl, rfl, rfl, rfl, rfl, rfl⟩
  unfold Action.limitReadings
  cases hsa : action.actionJob.serviceAccount with
  | some serviceAccount =>
      simp only [hsa] at hrest
      obtain ⟨ttlConfig, deadlineConfig, nameTrace, name, envTrace, env, rfl, hmade⟩ := hnext hrest
      exact ⟨config, argsConfig, [ttlConfig, deadlineConfig], nameTrace, name, envTrace, env, rfl,
        rfl, hmade⟩
  | none =>
      simp only [hsa] at hrest
      obtain ⟨saConfig, rest, rfl, hrest⟩ := hrest
      obtain ⟨ttlConfig, deadlineConfig, nameTrace, name, envTrace, env, rfl, hmade⟩ := hnext hrest
      exact ⟨config, argsConfig, [saConfig, ttlConfig, deadlineConfig], nameTrace, name, envTrace,
        env, rfl, rfl, hmade⟩

end Made

/-- A call of an action `build`. -/
def buildCall : ExecuteCall where
  actionKind := .action
  actionName := "build"
  sourceKind := .gitRepo
  sourceName := "app"
  sourceCommit := "c1"
  triggerRef := .branch "main"
  ns := "ns"
  triggerKind := "ScheduleTrigger"
  triggerName := "nightly"

end GitEventsRunner.Actions
