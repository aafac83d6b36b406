/-
# The runtime configuration

The configuration is a tree of sections, each with `#[serde(default,
deny_unknown_fields)]`.  A document that gives it may leave out any setting and any
section, and may not use any other name.

The result says what that comes to for the whole tree: a document is accepted exactly
if each of its sections uses the names of that section, each at most once, and then
every setting is what the document says at its path, or its default.

The YAML library is a parameter: what it makes of a text, which entries it hands over to
the derived code of a section, and what it reads as a text or a number.
-/

import GitEventsRunner.Lib.Overlay
import GitEventsRunner.Actions.Job
import GitEventsRunner.Web.Handlers

namespace GitEventsRunner.Config

open GitEventsRunner.Lib
open GitEventsRunner.Lib.Overlay

/-! ## Defaults -/

def defaultContainerRepo : String := "ghcr.io/alex-karpenko/git-events-runner"
def defaultClonerImageName : String := "gitrepo-cloner"
def defaultClonerContainerName : String := "action-cloner"
def defaultWorkerImageName : String := "action-worker"
def defaultWorkerContainerName : String := "action-worker"
def defaultWorkerEnvVariablesPrefix : String := "ACTION_JOB_"
def defaultActionWorkdirMountPath : String := "/action_workdir"
def defaultActionWorkdirVolumeName : String := "action-workdir"
def defaultWebhookTriggerAuthHeader : String := "x-trigger-auth"
def defaultTtlSecondsAfterFinished : Int32 := 7200
def defaultActiveDeadlineSeconds : Int64 := 3600
def defaultMaxRunningActionJobs : UInt64 := 16
def defaultActionJobWaitingTimeoutSeconds : UInt64 := 300

/-- `CARGO_PKG_VERSION` -/
def cargoPkgVersion : String := "0.5.0"

/-! ## Sections -/

/-- Action Job workdir config. -/
structure ActionWorkdirConfig where
  mountPath : String := defaultActionWorkdirMountPath
  volumeName : String := defaultActionWorkdirVolumeName
  deriving DecidableEq, Repr

/-- Cloner container config. -/
structure ActionContainersClonerConfig where
  name : String := defaultClonerContainerName
  image : String := defaultContainerRepo ++ "/" ++ defaultClonerImageName ++ ":v" ++ cargoPkgVersion
  deriving DecidableEq, Repr

/-- Worker container config. -/
structure ActionContainersWorkerConfig where
  name : String := defaultWorkerContainerName
  image : String := defaultContainerRepo ++ "/" ++ defaultWorkerImageName ++ ":v" ++ cargoPkgVersion
  variablesPrefix : String := defaultWorkerEnvVariablesPrefix
  deriving DecidableEq, Repr

/-- Action Job containers configs. -/
structure ActionContainersConfig where
  cloner : ActionContainersClonerConfig := {}
  worker : ActionContainersWorkerConfig := {}
  deriving DecidableEq, Repr

/-- Actions config section. -/
structure ActionConfig where
  maxRunningJobs : UInt64 := defaultMaxRunningActionJobs
  jobWaitingTimeoutSeconds : UInt64 := defaultActionJobWaitingTimeoutSeconds
  defaultServiceAccount : Option String := none
  activeDeadlineSeconds : Int64 := defaultActiveDeadlineSeconds
  ttlSecondsAfterFinished : Int32 := defaultTtlSecondsAfterFinished
  workdir : ActionWorkdirConfig := {}
  containers : ActionContainersConfig := {}
  deriving DecidableEq

/-- Webhook trigger config. -/
structure TriggerWebhookConfig where
  defaultAuthHeader : String := defaultWebhookTriggerAuthHeader
  deriving DecidableEq, Repr

/-- Trigger config. -/
structure TriggerConfig where
  webhook : TriggerWebhookConfig := {}
  deriving DecidableEq, Repr

/-- Root runtime config struct. -/
structure RuntimeConfig where
  action : ActionConfig := {}
  trigger : TriggerConfig := {}
  deriving DecidableEq

/-! ## Their documents -/

/-- What the YAML library does, as far as the configuration needs it: it parses a text, hands
over the entries of a section, and reads texts and numbers. -/
structure Yaml (Node Error : Type) extends Format Node Error where
  parse : String → Except Error Node
  text : Node → Except Error String
  optionalText : Node → Except Error (Option String)
  usize : Node → Except Error UInt64
  u64 : Node → Except Error UInt64
  i64 : Node → Except Error Int64
  i32 : Node → Except Error Int32

variable {Node Error : Type} (yaml : Yaml Node Error)

namespace ActionWorkdirConfig

def names : List String := ["mountPath", "volumeName"]

theorem names_nodup : names.Nodup := by decide

def fields : List (Decl yaml.toFormat) :=
  [.leaf "mountPath" yaml.text defaultActionWorkdirMountPath,
    .leaf "volumeName" yaml.text defaultActionWorkdirVolumeName]

def equiv : ActionWorkdirConfig ≃ Values (fields yaml) where
  toFun c := (c.mountPath, c.volumeName, ())
  invFun := fun (mountPath, volumeName, ()) => ⟨mountPath, volumeName⟩
  left_inv _ := rfl
  right_inv _ := rfl

end ActionWorkdirConfig

namespace ActionContainersClonerConfig

def names : List String := ["name", "image"]

theorem names_nodup : names.Nodup := by decide

def fields : List (Decl yaml.toFormat) :=
  [.leaf "name" yaml.text ({} : ActionContainersClonerConfig).name,
    .leaf "image" yaml.text ({} : ActionContainersClonerConfig).image]

def equiv : ActionContainersClonerConfig ≃ Values (fields yaml) where
  toFun c := (c.name, c.image, ())
  invFun := fun (name, image, ()) => ⟨name, image⟩
  left_inv _ := rfl
  right_inv _ := rfl

end ActionContainersClonerConfig

namespace ActionContainersWorkerConfig

def names : List String := ["name", "image", "variablesPrefix"]

theorem names_nodup : names.Nodup := by decide

def fields : List (Decl yaml.toFormat) :=
  [.leaf "name" yaml.text ({} : ActionContainersWorkerConfig).name,
    .leaf "image" yaml.text ({} : ActionContainersWorkerConfig).image,
    .leaf "variablesPrefix" yaml.text ({} : ActionContainersWorkerConfig).variablesPrefix]

def equiv : ActionContainersWorkerConfig ≃ Values (fields yaml) where
  toFun c := (c.name, c.image, c.variablesPrefix, ())
  invFun := fun (name, image, variablesPrefix, ()) => ⟨name, image, variablesPrefix⟩
  left_inv _ := rfl
  right_inv _ := rfl

end ActionContainersWorkerConfig

namespace ActionContainersConfig

def names : List String := ["cloner", "worker"]

theorem names_nodup : names.Nodup := by decide

def fields : List (Decl yaml.toFormat) :=
  [.record "cloner" (ActionContainersClonerConfig.fields yaml)
      ActionContainersClonerConfig.names_nodup (ActionContainersClonerConfig.equiv yaml),
    .record "worker" (ActionContainersWorkerConfig.fields yaml)
      ActionContainersWorkerConfig.names_nodup (ActionContainersWorkerConfig.equiv yaml)]

def equiv : ActionContainersConfig ≃ Values (fields yaml) where
  toFun c := (c.cloner, c.worker, ())
  invFun := fun (cloner, worker, ()) => ⟨cloner, worker⟩
  left_inv _ := rfl
  right_inv _ := rfl

end ActionContainersConfig

namespace ActionConfig

def names : List String :=
  ["maxRunningJobs", "jobWaitingTimeoutSeconds", "defaultServiceAccount",
    "activeDeadlineSeconds", "ttlSecondsAfterFinished", "workdir", "containers"]

theorem names_nodup : names.Nodup := by decide

def fields : List (Decl yaml.toFormat) :=
  [.leaf "maxRunningJobs" yaml.usize defaultMaxRunningActionJobs,
    .leaf "jobWaitingTimeoutSeconds" yaml.u64 defaultActionJobWaitingTimeoutSeconds,
    .leaf "defaultServiceAccount" yaml.optionalText none,
    .leaf "activeDeadlineSeconds" yaml.i64 defaultActiveDeadlineSeconds,
    .leaf "ttlSecondsAfterFinished" yaml.i32 defaultTtlSecondsAfterFinished,
    .record "workdir" (ActionWorkdirConfig.fields yaml) ActionWorkdirConfig.names_nodup
      (ActionWorkdirConfig.equiv yaml),
    .record "containers" (ActionContainersConfig.fields yaml) ActionContainersConfig.names_nodup
      (ActionContainersConfig.equiv yaml)]

def equiv : ActionConfig ≃ Values (fields yaml) where
  toFun c := (c.maxRunningJobs, c.jobWaitingTimeoutSeconds, c.defaultServiceAccount,
    c.activeDeadlineSeconds, c.ttlSecondsAfterFinished, c.workdir, c.containers, ())
  invFun := fun (maxRunningJobs, jobWaitingTimeoutSeconds, defaultServiceAccount,
      activeDeadlineSeconds, ttlSecondsAfterFinished, workdir, containers, ()) =>
    ⟨maxRunningJobs, jobWaitingTimeoutSeconds, defaultServiceAccount, activeDeadlineSeconds,
      ttlSecondsAfterFinished, workdir, containers⟩
  left_inv _ := rfl
  right_inv _ := rfl

end ActionConfig

namespace TriggerWebhookConfig

def names : List String := ["defaultAuthHeader"]

theorem names_nodup : names.Nodup := by decide

def fields : List (Decl yaml.toFormat) :=
  [.leaf "defaultAuthHeader" yaml.text defaultWebhookTriggerAuthHeader]

def equiv : TriggerWebhookConfig ≃ Values (fields yaml) where
  toFun c := (c.defaultAuthHeader, ())
  invFun := fun (defaultAuthHeader, ()) => ⟨defaultAuthHeader⟩
  left_inv _ := rfl
  right_inv _ := rfl

end TriggerWebhookConfig

namespace TriggerConfig

def names : List String := ["webhook"]

theorem names_nodup : names.Nodup := by decide

def fields : List (Decl yaml.toFormat) :=
  [.record "webhook" (TriggerWebhookConfig.fields yaml) TriggerWebhookConfig.names_nodup
    (TriggerWebhookConfig.equiv yaml)]

def equiv : TriggerConfig ≃ Values (fields yaml) where
  toFun c := (c.webhook, ())
  invFun := fun (webhook, ()) => ⟨webhook⟩
  left_inv _ := rfl
  right_inv _ := rfl

end TriggerConfig

namespace RuntimeConfig

def names : List String := ["action", "trigger"]

theorem names_nodup : names.Nodup := by decide

def fields : List (Decl yaml.toFormat) :=
  [.record "action" (ActionConfig.fields yaml) ActionConfig.names_nodup (ActionConfig.equiv yaml),
    .record "trigger" (TriggerConfig.fields yaml) TriggerConfig.names_nodup
      (TriggerConfig.equiv yaml)]

def equiv : RuntimeConfig ≃ Values (fields yaml) where
  toFun c := (c.action, c.trigger, ())
  invFun := fun (action, trigger, ()) => ⟨action, trigger⟩
  left_inv _ := rfl
  right_inv _ := rfl

/-- The derived `Deserialize` of `RuntimeConfig`. -/
def deserialize (document : Node) : Except (ReadError Error) RuntimeConfig :=
  readAs (fields yaml) (equiv yaml) document

end RuntimeConfig

/-! ## The whole tree -/

namespace RuntimeConfig

/-- The way to a name in each section. -/
def inRoot (name : String) : List Step := [⟨names, name⟩]

def inAction (name : String) : List Step := inRoot "action" ++ [⟨ActionConfig.names, name⟩]

def inWorkdir (name : String) : List Step :=
  inAction "workdir" ++ [⟨ActionWorkdirConfig.names, name⟩]

def inContainers (name : String) : List Step :=
  inAction "containers" ++ [⟨ActionContainersConfig.names, name⟩]

def inCloner (name : String) : List Step :=
  inContainers "cloner" ++ [⟨ActionContainersClonerConfig.names, name⟩]

def inWorker (name : String) : List Step :=
  inContainers "worker" ++ [⟨ActionContainersWorkerConfig.names, name⟩]

def inTrigger (name : String) : List Step := inRoot "trigger" ++ [⟨TriggerConfig.names, name⟩]

def inWebhook (name : String) : List Step :=
  inTrigger "webhook" ++ [⟨TriggerWebhookConfig.names, name⟩]

/-- The sections of the configuration, each with its names. -/
def sections : List Section :=
  [⟨[], names⟩, ⟨inRoot "action", ActionConfig.names⟩,
    ⟨inAction "workdir", ActionWorkdirConfig.names⟩,
    ⟨inAction "containers", ActionContainersConfig.names⟩,
    ⟨inContainers "cloner", ActionContainersClonerConfig.names⟩,
    ⟨inContainers "worker", ActionContainersWorkerConfig.names⟩,
    ⟨inRoot "trigger", TriggerConfig.names⟩,
    ⟨inTrigger "webhook", TriggerWebhookConfig.names⟩]

/-- The settings of the configuration: where a document has them, how they are read,
which part of the configuration they are, and their defaults. -/
def settings : List (Setting Node Error RuntimeConfig) :=
  [⟨inAction "maxRunningJobs", UInt64, yaml.usize, fun c => c.action.maxRunningJobs,
      defaultMaxRunningActionJobs⟩,
    ⟨inAction "jobWaitingTimeoutSeconds", UInt64, yaml.u64,
      fun c => c.action.jobWaitingTimeoutSeconds, defaultActionJobWaitingTimeoutSeconds⟩,
    ⟨inAction "defaultServiceAccount", Option String, yaml.optionalText,
      fun c => c.action.defaultServiceAccount, none⟩,
    ⟨inAction "activeDeadlineSeconds", Int64, yaml.i64, fun c => c.action.activeDeadlineSeconds,
      defaultActiveDeadlineSeconds⟩,
    ⟨inAction "ttlSecondsAfterFinished", Int32, yaml.i32,
      fun c => c.action.ttlSecondsAfterFinished, defaultTtlSecondsAfterFinished⟩,
    ⟨inWorkdir "mountPath", String, yaml.text, fun c => c.action.workdir.mountPath,
      defaultActionWorkdirMountPath⟩,
    ⟨inWorkdir "volumeName", String, yaml.text, fun c => c.action.workdir.volumeName,
      defaultActionWorkdirVolumeName⟩,
    ⟨inCloner "name", String, yaml.text, fun c => c.action.containers.cloner.name,
      ({} : ActionContainersClonerConfig).name⟩,
    ⟨inCloner "image", String, yaml.text, fun c => c.action.containers.cloner.image,
      ({} : ActionContainersClonerConfig).image⟩,
    ⟨inWorker "name", String, yaml.text, fun c => c.action.containers.worker.name,
      ({} : ActionContainersWorkerConfig).name⟩,
    ⟨inWorker "image", String, yaml.text, fun c => c.action.containers.worker.image,
      ({} : ActionContainersWorkerConfig).image⟩,
    ⟨inWorker "variablesPrefix", String, yaml.text,
      fun c => c.action.containers.worker.variablesPrefix,
      ({} : ActionContainersWorkerConfig).variablesPrefix⟩,
    ⟨inWebhook "defaultAuthHeader", String, yaml.text,
      fun c => c.trigger.webhook.defaultAuthHeader, defaultWebhookTriggerAuthHeader⟩]

theorem sections_eq : sectionsOf (fields yaml) = sections := rfl

theorem settings_eq :
    (settingsOf names (fields yaml)).map (Setting.comap (equiv yaml)) = settings yaml := by
  simp only [settingsOf, Decl.record, Decl.leaf, fields, ActionConfig.fields,
    ActionWorkdirConfig.fields, ActionContainersConfig.fields,
    ActionContainersClonerConfig.fields, ActionContainersWorkerConfig.fields,
    TriggerConfig.fields, TriggerWebhookConfig.fields, List.map_cons, List.map_nil,
    List.cons_append, List.nil_append, List.append_nil]
  rfl

/-- The whole tree, setting by setting. -/
theorem deserialize_iff (document : Node) (config : RuntimeConfig) :
    deserialize yaml document = .ok config ↔
      (∀ part ∈ sections, part.Ok yaml.toFormat document) ∧
        ∀ setting ∈ settings yaml, setting.Holds yaml.toFormat document config := by
  have hnodup : ((fields yaml).map Decl.name).Nodup := names_nodup
  rw [← sections_eq yaml, ← settings_eq]
  exact readAs_iff hnodup (equiv yaml) document config

/-- Every setting of the default configuration is a default. -/
theorem get_default : ∀ setting ∈ settings yaml, setting.get {} = setting.default := by
  rw [← settings_eq, List.forall_mem_map]
  exact eq_defaultsOf_iff names _ |>.mp rfl

/-- The part of the configuration the jobs queue reads. -/
def forQueue (config : RuntimeConfig) : Jobs.ActionConfig where
  maxRunningJobs := config.action.maxRunningJobs.toNat
  jobWaitingTimeoutSeconds := config.action.jobWaitingTimeoutSeconds.toNat

/-- The part of the configuration Jobs are made from. -/
def forJobs (config : RuntimeConfig) : Actions.ActionConfig where
  defaultServiceAccount := config.action.defaultServiceAccount
  activeDeadlineSeconds := config.action.activeDeadlineSeconds.toInt
  ttlSecondsAfterFinished := config.action.ttlSecondsAfterFinished.toInt
  mountPath := config.action.workdir.mountPath
  volumeName := config.action.workdir.volumeName
  clonerName := config.action.containers.cloner.name
  clonerImage := config.action.containers.cloner.image
  workerName := config.action.containers.worker.name
  workerImage := config.action.containers.worker.image
  variablesPrefix := config.action.containers.worker.variablesPrefix

/-- The readers of the configuration start with the same defaults. -/
theorem readers_default :
    forQueue {} = {} ∧ forJobs {} = {} ∧
      ({} : RuntimeConfig).trigger.webhook.defaultAuthHeader =
        Web.defaultWebhookTriggerAuthHeader := by
  decide

/-- Whatever the YAML library makes of documents, a document settles the configuration,
setting by setting: it is accepted, and read as a configuration, exactly if its sections
are handed over with their own names, each at most once, and every setting is what the
document says at its path, or the default where it says nothing.  A document that is handed
over without entries gives the defaults. -/
theorem document_settles_config (yaml : Yaml Node Error) (document : Node)
    (config : RuntimeConfig) :
    (deserialize yaml document = .ok config ↔
      (∀ part ∈ sections, part.Ok yaml.toFormat document) ∧
        ∀ setting ∈ settings yaml, setting.Holds yaml.toFormat document config) ∧
    (yaml.entries names document = .ok [] → deserialize yaml document = .ok {}) :=
  ⟨deserialize_iff yaml document config, readAs_of_entries_nil (equiv yaml)⟩

end RuntimeConfig

end GitEventsRunner.Config
