/-
# One configuration for each Job

The runtime configuration is shared: a watcher replaces it whenever its ConfigMap
changes, also while a Job is being made.  `create_job_spec` reads it once at its
start and keeps what it read, but the helpers that write the arguments of the cloner
and the environment of the worker read it again, the latter once for each variable.

So one Job may be made from many configurations.  This module finds the readings
that end up in the Job and shows that the Job agrees with itself about its folder
and about the names of its variables exactly if these readings agree.
-/

import GitEventsRunner.Actions.Job

namespace GitEventsRunner.Actions

open GitEventsRunner.Lib
open GitEventsRunner.Triggers

/-! ## The variables of a Job -/

section Variables

variable (action : Action) (call : ExecuteCall)

/-- The variables about the source override, without their prefix. -/
def Action.overrideVars : List (String × String) :=
  match action.sourceOverrideSpec with
  | some override =>
      [("ACTION_SOURCE_KIND", sourceKindText override.kind),
        ("ACTION_SOURCE_NAME", override.name),
        ("ACTION_SOURCE_REF_TYPE", (toRefname override.reference "").1),
        ("ACTION_SOURCE_REF_NAME", (toRefname override.reference "").2)] ++
      (if override.kind = .gitRepo then [("ACTION_SOURCE_NAMESPACE", call.ns)] else [])
  | none => []

/-- The variables of a Job that works in a folder, without their prefix. -/
def Action.envVars (folder : String) : List (String × String) :=
  [("WORKDIR", folder),
    ("TRIGGER_SOURCE_KIND", sourceKindText call.sourceKind),
    ("TRIGGER_SOURCE_NAME", call.sourceName),
    ("TRIGGER_SOURCE_COMMIT", call.sourceCommit),
    ("TRIGGER_SOURCE_REF_TYPE", (toRefname call.triggerRef "").1),
    ("TRIGGER_SOURCE_REF_NAME", (toRefname call.triggerRef "").2),
    ("TRIGGER_KIND", call.triggerKind),
    ("TRIGGER_NAME", call.triggerName)] ++
  (if call.sourceKind = .gitRepo then [("TRIGGER_SOURCE_NAMESPACE", call.ns)] else []) ++
  action.overrideVars call

/-- A variable with the prefix of a configuration. -/
def prefixed (config : ActionConfig) (var : String × String) : EnvVar :=
  ⟨config.variablesPrefix ++ var.1, var.2⟩

/-- Format variables one after the other. -/
def formatActionJobEnvVars : List (String × String) → JobProg (List EnvVar)
  | [] => pure []
  | (name, value) :: rest => do
      let first ← formatActionJobEnvVar name value
      let others ← formatActionJobEnvVars rest
      pure (first :: others)

/-- The environment is one reading for the folder, then one for each variable. -/
theorem getActionJobEnvs_eq : action.getActionJobEnvs call = runtimeConfig >>= fun config =>
    formatActionJobEnvVars (action.envVars call (action.workdir config)) := by
  unfold Action.getActionJobEnvs Action.envVars Action.overrideVars
  apply congrArg (runtimeConfig >>= ·)
  funext config
  cases action.sourceOverrideSpec with
  | none =>
      cases call.sourceKind <;>
        simp only [formatActionJobEnvVars, bind_assoc, pure_bind, map_eq_pure_bind, reduceIte,
          reduceCtorEq, List.cons_append, List.nil_append, List.append_nil]
  | some override =>
      rcases override with ⟨kind, name, reference⟩
      cases call.sourceKind <;> cases kind <;>
        simp only [formatActionJobEnvVars, bind_assoc, pure_bind, map_eq_pure_bind, reduceIte,
          reduceCtorEq, List.cons_append, List.nil_append, List.append_nil]

end Variables

/-! ## Readings -/

/-- The configurations an execution read, in their order. -/
def readings (trace : List (Prog.Event JobEffect.Reply)) : List ActionConfig :=
  trace.filterMap fun
    | ⟨.runtimeConfig, config⟩ => some config
    | ⟨.localTime, _⟩ => none
    | ⟨.randomString _, _⟩ => none

theorem readings_append (first second : List (Prog.Event JobEffect.Reply)) :
    readings (first ++ second) = readings first ++ readings second :=
  List.filterMap_append

theorem readings_cons (config : ActionConfig) (trace : List (Prog.Event JobEffect.Reply)) :
    readings (reading config :: trace) = config :: readings trace :=
  rfl

theorem readings_map_reading (configs : List ActionConfig) :
    readings (configs.map reading) = configs := by
  induction configs with
  | nil => rfl
  | cons config configs ih => rw [List.map_cons, readings_cons, ih]

/-- Each variable has the prefix of a reading of its own. -/
theorem runs_formatActionJobEnvVars {vars : List (String × String)}
    {trace : List (Prog.Event JobEffect.Reply)} {env : List EnvVar}
    (h : (formatActionJobEnvVars vars).Runs trace env) :
    (readings trace).length = vars.length ∧ env = List.zipWith prefixed (readings trace) vars := by
  induction vars generalizing trace env with
  | nil =>
      obtain ⟨rfl, rfl⟩ := h
      exact ⟨rfl, rfl⟩
  | cons var vars ih =>
      obtain ⟨config, rest, rfl, hrest⟩ := Prog.Runs.of_perform_bind h
      obtain ⟨others, first, second, rfl, hothers, rfl, rfl⟩ := Prog.runs_bind.mp hrest
      obtain ⟨hlength, rfl⟩ := ih hothers
      rw [List.append_nil]
      exact ⟨congrArg Nat.succ hlength, rfl⟩

section Readings

variable (action : Action)

/-- The readings the folder of a Job is taken from. -/
def Action.folderReadings (configs : List ActionConfig) : List ActionConfig :=
  configs.take 2 ++ (configs.drop (2 + action.limitReadings)).take 1

/-- The readings the prefixes of the variables are taken from. -/
def Action.variableReadings (configs : List ActionConfig) : List ActionConfig :=
  configs.drop (3 + action.limitReadings)

variable {action} {call : ExecuteCall} {trace : List (Prog.Event JobEffect.Reply)}

/-- The name of a Job has nothing to do with the configuration. -/
theorem readings_jobName {name : String} (h : action.jobName.Runs trace name) :
    readings trace = [] := by
  obtain ⟨timestamp, rest, rfl, hrest⟩ := Prog.Runs.of_perform_bind h
  obtain ⟨suffix, rest, rfl, rfl, -⟩ := Prog.Runs.of_perform_bind hrest
  rfl

theorem runs_getActionJobEnvs {env : List EnvVar}
    (h : (action.getActionJobEnvs call).Runs trace env) :
    ∃ config varConfigs, readings trace = config :: varConfigs ∧
      varConfigs.length = (action.envVars call (action.workdir config)).length ∧
      env = List.zipWith prefixed varConfigs (action.envVars call (action.workdir config)) := by
  rw [getActionJobEnvs_eq] at h
  obtain ⟨config, rest, rfl, hrest⟩ := Prog.Runs.of_perform_bind h
  exact ⟨config, readings rest, rfl, runs_formatActionJobEnvVars hrest⟩

/-- The readings of an execution, in the order of their use. -/
theorem readings_createJobSpec {job : JobSpec} (h : (action.createJobSpec call).Runs trace job) :
    ∃ config argsConfig name envConfig varConfigs,
      action.folderReadings (readings trace) = [config, argsConfig, envConfig] ∧
      action.variableReadings (readings trace) = varConfigs ∧
      varConfigs.length = (action.envVars call (action.workdir envConfig)).length ∧
      MadeOf action call job config argsConfig name
        (List.zipWith prefixed varConfigs (action.envVars call (action.workdir envConfig))) := by
  obtain ⟨config, argsConfig, limits, nameTrace, name, envTrace, env, rfl, hlimits, hname, henv,
    hmade⟩ := runs_createJobSpec h
  obtain ⟨envConfig, varConfigs, hreadings, hlength, rfl⟩ := runs_getActionJobEnvs henv
  have hall : readings (reading config :: reading argsConfig ::
      (limits.map reading ++ (nameTrace ++ envTrace))) =
      config :: argsConfig :: (limits ++ envConfig :: varConfigs) := by
    rw [readings_cons, readings_cons, readings_append, readings_append, readings_map_reading,
      readings_jobName hname, hreadings, List.nil_append]
  refine ⟨config, argsConfig, name, envConfig, varConfigs, ?_, ?_, hlength, hmade⟩
  · rw [hall, Action.folderReadings, ← hlimits, Nat.add_comm]
    simp
  · rw [hall, Action.variableReadings, ← hlimits, Nat.add_comm]
    simp

end Readings

/-! ## Jobs that agree with themselves -/

/-- The value of `--destination` in the arguments of a cloner, which are options with
one value each up to there. -/
def destinationArg : List String → Option String
  | "--destination" :: destination :: _ => some destination
  | _ :: _ :: rest => destinationArg rest
  | _ => none

/-- All of a Job works in one folder, and all its variables have one prefix. -/
structure OneConfig (action : Action) (call : ExecuteCall) (job : JobSpec)
    (folder varPrefix : String) : Prop where
  destination : job.initContainer.args.bind destinationArg = some folder
  clonerMounts : job.initContainer.volumeMounts.map VolumeMount.mountPath = [folder]
  workerMounts : job.container.volumeMounts.map VolumeMount.mountPath = [folder]
  workingDir : job.container.workingDir = some folder
  workdir : ⟨varPrefix ++ "WORKDIR", folder⟩ ∈ job.container.env
  names : job.container.env.map EnvVar.name =
    (action.envVars call folder).map fun var => varPrefix ++ var.1

def Consistent (action : Action) (call : ExecuteCall) (job : JobSpec) : Prop :=
  ∃ folder varPrefix, OneConfig action call job folder varPrefix

/-- All of the configurations have the same value there. -/
def AgreeOn (field : ActionConfig → String) (configs : List ActionConfig) : Prop :=
  ∀ config ∈ configs, ∀ config' ∈ configs, field config = field config'

/-- The readings of one execution agree on what the Job takes from them. -/
structure ReadingsAgree (action : Action) (configs : List ActionConfig) : Prop where
  folder : action.actionJob.workdir = none →
    AgreeOn ActionConfig.mountPath (action.folderReadings configs)
  names : AgreeOn ActionConfig.variablesPrefix (action.variableReadings configs)

section Agreement

variable {action : Action} {call : ExecuteCall} {job : JobSpec}

/-- Variables have the names of one prefix exactly if their readings have it. -/
theorem names_zipWith_prefixed {configs : List ActionConfig} {vars : List (String × String)}
    (hlength : configs.length = vars.length) (varPrefix : String) :
    (List.zipWith prefixed configs vars).map EnvVar.name =
        vars.map (fun var => varPrefix ++ var.1) ↔
      ∀ config ∈ configs, config.variablesPrefix = varPrefix := by
  induction configs generalizing vars with
  | nil =>
      rw [List.length_eq_zero_iff.mp hlength.symm]
      simp
  | cons config configs ih =>
      cases vars with
      | nil => cases hlength
      | cons var vars =>
          rw [List.zipWith_cons_cons, List.map_cons, List.map_cons, List.cons.injEq,
            ih (Nat.succ.inj hlength), List.forall_mem_cons]
          apply and_congr_left'
          exact String.append_left_inj var.1

/-- Readings with one prefix write the variables with this prefix. -/
theorem zipWith_prefixed_of_forall {configs : List ActionConfig} {vars : List (String × String)}
    (hlength : configs.length = vars.length) {varPrefix : String}
    (h : ∀ config ∈ configs, config.variablesPrefix = varPrefix) :
    List.zipWith prefixed configs vars = vars.map fun var => ⟨varPrefix ++ var.1, var.2⟩ := by
  induction configs generalizing vars with
  | nil =>
      rw [List.length_eq_zero_iff.mp hlength.symm]
      rfl
  | cons config configs ih =>
      cases vars with
      | nil => cases hlength
      | cons var vars =>
          rw [List.forall_mem_cons] at h
          rw [List.zipWith_cons_cons, ih (Nat.succ.inj hlength) h.2, prefixed, h.1, List.map_cons]

/-- Only one variable has the name `WORKDIR`, and its value is the folder. -/
theorem eq_folder_of_mem_envVars {folder value : String}
    (h : ("WORKDIR", value) ∈ action.envVars call folder) : value = folder := by
  have hother : ("WORKDIR", value) ∉ action.overrideVars call := by
    unfold Action.overrideVars
    cases action.sourceOverrideSpec with
    | none => exact List.not_mem_nil
    | some override => simp
  simpa [Action.envVars, hother] using h

/-- The folder depends on the configuration only if the action gives none. -/
theorem workdir_eq_workdir_iff (config config' : ActionConfig) :
    action.workdir config = action.workdir config' ↔
      (action.actionJob.workdir = none → config.mountPath = config'.mountPath) := by
  unfold Action.workdir
  cases action.actionJob.workdir with
  | none => simp
  | some folder => simp

variable {config argsConfig envConfig : ActionConfig} {varConfigs : List ActionConfig}
  {name : String}

/-- A Job agrees with itself exactly if what it was made of agrees. -/
theorem consistent_iff_of_madeOf
    (hlength : varConfigs.length = (action.envVars call (action.workdir envConfig)).length)
    (h : MadeOf action call job config argsConfig name
      (List.zipWith prefixed varConfigs (action.envVars call (action.workdir envConfig)))) :
    Consistent action call job ↔
      (action.workdir argsConfig = action.workdir config ∧
        action.workdir envConfig = action.workdir config) ∧
      AgreeOn ActionConfig.variablesPrefix varConfigs := by
  have hdestination : job.initContainer.args.bind destinationArg =
      some (action.workdir argsConfig) := by
    rw [h.args]
    rfl
  have hcloner : job.initContainer.volumeMounts.map VolumeMount.mountPath =
      [action.workdir config] := by
    rw [h.clonerMounts]
    rfl
  have hworker : job.container.volumeMounts.map VolumeMount.mountPath =
      [action.workdir config] := by
    rw [h.workerMounts]
    rfl
  constructor
  · rintro ⟨folder, varPrefix, hone⟩
    obtain rfl : action.workdir config = folder :=
      List.singleton_inj.mp (hcloner.symm.trans hone.clonerMounts)
    have hprefixes : ∀ config ∈ varConfigs, config.variablesPrefix = varPrefix := by
      apply (names_zipWith_prefixed hlength varPrefix).mp
      rw [← h.env, hone.names]
      rfl
    have hworkdir := hone.workdir
    rw [h.env, zipWith_prefixed_of_forall hlength hprefixes] at hworkdir
    obtain ⟨⟨name, value⟩, hmem, hvar⟩ := List.mem_map.mp hworkdir
    obtain ⟨hname, rfl⟩ := EnvVar.mk.inj hvar
    obtain rfl : name = "WORKDIR" := (String.append_right_inj varPrefix).mp hname
    refine ⟨⟨?_, (eq_folder_of_mem_envVars hmem).symm⟩, ?_⟩
    · exact Option.some.inj (hdestination.symm.trans hone.destination)
    · intro first hfirst second hsecond
      rw [hprefixes first hfirst, hprefixes second hsecond]
  · rintro ⟨⟨hargs, henv⟩, hagree⟩
    obtain ⟨first, rest, rfl⟩ : ∃ first rest, varConfigs = first :: rest :=
      List.exists_cons_of_length_eq_add_one hlength
    have hprefixes : ∀ config ∈ first :: rest, config.variablesPrefix = first.variablesPrefix := by
      intro other hother
      exact hagree other hother first List.mem_cons_self
    have hall := h.env
    rw [zipWith_prefixed_of_forall hlength hprefixes, henv] at hall
    refine ⟨action.workdir config, first.variablesPrefix, ?_, hcloner, hworker, h.workingDir,
      ?_, ?_⟩
    · rw [hdestination, hargs]
    · rw [hall]
      exact List.mem_cons_self
    · rw [hall, List.map_map]
      rfl

end Agreement

/-- The Job of an execution agrees with itself exactly if the configurations that were
read during the execution agree: on the folder in the three readings that give it,
unless the action gives one, and on the prefix in all readings for variables. -/
theorem consistent_iff_readingsAgree (action : Action) (call : ExecuteCall)
    (trace : List (Prog.Event JobEffect.Reply)) (job : JobSpec)
    (hruns : (action.createJobSpec call).Runs trace job) :
    Consistent action call job ↔ ReadingsAgree action (readings trace) := by
  obtain ⟨config, argsConfig, name, envConfig, varConfigs, hfolder, hvariables, hlength, hmade⟩ :=
    readings_createJobSpec hruns
  rw [consistent_iff_of_madeOf hlength hmade, workdir_eq_workdir_iff, workdir_eq_workdir_iff,
    ← hvariables]
  constructor
  · rintro ⟨⟨hargs, henv⟩, hnames⟩
    refine ⟨fun hnone => ?_, hnames⟩
    rw [hfolder]
    simp [AgreeOn, hargs hnone, henv hnone]
  · rintro ⟨hagree, hnames⟩
    rw [hfolder] at hagree
    refine ⟨⟨fun hnone => ?_, fun hnone => ?_⟩, hnames⟩
    · exact hagree hnone argsConfig (by simp) config (by simp)
    · exact hagree hnone envConfig (by simp) config (by simp)

/-! ## A reload -/

/-- Surroundings that return the listed configurations one after the other, and the
default one after them. -/
def JobEffect.replyFrom (configs : List ActionConfig) :
    (e : JobEffect) → e.Reply × List ActionConfig
  | .runtimeConfig => (configs.headD {}, configs.tail)
  | .localTime => (JobEffect.plainReply .localTime, configs)
  | .randomString len => (JobEffect.plainReply (.randomString len), configs)

/-- An action without a folder of its own. -/
def buildAction : Action where
  name := "build"
  ns := some "ns"
  sourceOverride := .action none

/-- A reload after the first reading.  One of an image does not matter, but after one of
the folder the Job does not agree with itself. -/
theorem consistent_iff_readingsAgree_reload :
    Consistent buildAction buildCall ((buildAction.createJobSpec buildCall).traceFrom
      JobEffect.replyFrom [{ workerImage := "worker:v1" }]).2 ∧
    ¬ Consistent buildAction buildCall ((buildAction.createJobSpec buildCall).traceFrom
      JobEffect.replyFrom [{ mountPath := "/workdir" }]).2 := by
  constructor
  · apply (consistent_iff_readingsAgree buildAction buildCall _ _
      (Prog.runs_traceFrom JobEffect.replyFrom _ _)).mpr
    constructor
    · unfold AgreeOn
      decide +kernel
    · unfold AgreeOn
      decide +kernel
  · intro hconsistent
    have hagree := (consistent_iff_readingsAgree buildAction buildCall _ _
      (Prog.runs_traceFrom JobEffect.replyFrom _ _)).mp hconsistent
    have hfolder := hagree.folder rfl
    revert hfolder
    unfold AgreeOn
    decide +kernel

/-- A reload after the first reading: the cloner clones into the default folder, but the
other one is mounted. -/
theorem not_consistent_after_reload :
    ∃ trace job, (buildAction.createJobSpec buildCall).Runs trace job ∧
      ¬ Consistent buildAction buildCall job := by
  refine ⟨_, _, Prog.runs_traceFrom JobEffect.replyFrom [{ mountPath := "/workdir" }] _, ?_⟩
  rintro ⟨folder, varPrefix, hone⟩
  have hdestination : some "/action_workdir" = some folder := hone.destination
  have hmounts : ["/workdir"] = [folder] := hone.clonerMounts
  obtain rfl := List.singleton_inj.mp hmounts
  revert hdestination
  decide

end GitEventsRunner.Actions
