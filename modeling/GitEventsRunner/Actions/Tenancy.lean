/-
# What a trigger task reaches across namespaces

The trigger task asks its surroundings to fetch a repository and to execute an
action; here both are carried out by the programs that do it, `fetch_repo_ref`
and `execute`, down to the single secret that is read and the single Job that is
put in the queue.  The objects they work on are those the task looked up before,
with whatever content the caches hold.

A namespace is a tenant: a task of a trigger stays in the namespace of its
trigger, up to what the resources of the cluster say explicitly.
-/

import GitEventsRunner.Actions.Cloner
import GitEventsRunner.Repos.Fetch

namespace GitEventsRunner.Actions

open GitEventsRunner.Lib
open GitEventsRunner.Repos
open GitEventsRunner.Triggers

/-! ## The task with its repositories and actions -/

/-- What a trigger task asks of its surroundings when fetching and executing are
its own work.  `foundGitRepo` and `foundAction` stand for the object that the
lookup before them returned; the repository and the action in front of other
effects say on whose behalf they are performed. -/
inductive TenantEffect
  | task (e : Effect)
  | foundGitRepo (kind : TriggerSourceKind) (name : String)
  | foundAction (kind : TriggerActionKind) (name : String)
  | fetch (repo : GitRepo) (e : FetchEffect)
  | job (action : Action) (e : JobEffect)
  | enqueue (action : Action) (call : EnqueueCall)

/-- What comes back. -/
def TenantEffect.Reply : TenantEffect → Type
  | .task e => e.Reply
  | .foundGitRepo kind name => { repo : GitRepo // repo.kind = kind ∧ repo.name = name }
  | .foundAction kind name => { action : Action // action.kind = kind ∧ action.name = name }
  | .fetch _ e => e.Reply
  | .job _ e => e.Reply
  | .enqueue .. => Bool

/-- A program of trigger tasks with their fetches and executions. -/
abbrev TenantProg (α : Type) := Prog TenantEffect.Reply α

namespace TenantProg

def foundGitRepo (kind : TriggerSourceKind) (name : String) :
    TenantProg { repo : GitRepo // repo.kind = kind ∧ repo.name = name } :=
  Prog.perform (TenantEffect.foundGitRepo kind name)

def foundAction (kind : TriggerActionKind) (name : String) :
    TenantProg { action : Action // action.kind = kind ∧ action.name = name } :=
  Prog.perform (TenantEffect.foundAction kind name)

/-- `JobsQueue::enqueue`; returns whether it succeeded. -/
def enqueue (action : Action) (call : EnqueueCall) : TenantProg Bool :=
  Prog.perform (TenantEffect.enqueue action call)

/-- A fetch of a repository. -/
def fetching {α : Type} (repo : GitRepo) (p : FetchProg α) : TenantProg α :=
  p.refine fun e => Prog.perform (TenantEffect.fetch repo e)

/-- The making of a Job of an action. -/
def making {α : Type} (action : Action) (p : JobProg α) : TenantProg α :=
  p.refine fun e => Prog.perform (TenantEffect.job action e)

end TenantProg

open TenantProg

/-- How the effects of a trigger task are carried out. -/
def carryOut : (e : Effect) → TenantProg e.Reply
  | .fetchRepoRef kind name refName path ns => do
      let repo ← foundGitRepo kind name
      match ← fetching repo.val (repo.val.fetchRepoRef refName path ns) with
      | .ok _ => pure true
      | .error _ => pure false
  | .execute call _ => do
      let action ← foundAction call.actionKind call.actionName
      let enqueueCall ← making action.val (action.val.execute call)
      enqueue action.val enqueueCall
  | e => Prog.perform (TenantEffect.task e)

/-! ## Staying in a namespace -/

/-- A secret that is read on behalf of a repository: in the namespace of the
tenant, or in another one that a ClusterGitRepo names explicitly. -/
def SecretConfined (tenant : String) (repo : GitRepo) (use : SecretUse) (ns : String) : Prop :=
  (repo.kind = .gitRepo → ns = tenant) ∧
  (ns ≠ tenant → repo.kind = .clusterGitRepo ∧
    ∃ ref, repo.secretRef use = some ref ∧ ref.ns = some ns)

/-- A Job that is handed to the queue on behalf of an action: the queue puts it
in the namespace of the tenant, and where a ClusterAction overrides the source,
the cloner that reads its command line gets a ClusterGitRepo. -/
def JobConfined (tenant : String) (action : Action) (call : EnqueueCall) : Prop :=
  (∀ identity now, (Jobs.JobsQueueItem.ofJob identity call.job.toJob call.ns call.expireAfter
    now).job.metadata.ns = some tenant) ∧
  (action.kind = .clusterAction → action.sourceOverrideSpec.isSome →
    ∃ args, call.job.initContainer.args = some args ∧
      ∀ cli, Cli.parse args = some cli → cli.sourceKind = .clusterGitRepo)

/-- An effect of a task stays in the namespace of a tenant. -/
def Confined (tenant : String) : TenantEffect → Prop
  | .task (.getGitRepo kind _ ns) =>
      match kind with
      | .gitRepo => ns = some tenant
      | .clusterGitRepo => ns = none
  | .task (.getAction kind _ ns) =>
      match kind with
      | .action => ns = some tenant
      | .clusterAction => ns = none
  | .fetch repo (.getSecret use ns _) => SecretConfined tenant repo use ns
  | .enqueue action call => JobConfined tenant action call
  | _ => True

/-! ## Fetches -/

theorem secretConfined_secretsNamespace (tenant : String) (repo : GitRepo) {use : SecretUse}
    {ref : SecretRef} (href : repo.secretRef use = some ref) :
    SecretConfined tenant repo use (repo.secretsNamespace ref tenant) := by
  rw [GitRepo.secretsNamespace, GitRepo.isNamespaced]
  cases hkind : repo.kind with
  | gitRepo => exact ⟨fun _ => rfl, fun hne => absurd rfl hne⟩
  | clusterGitRepo =>
      apply And.intro
      · intro hnamespaced
        rw [hkind] at hnamespaced
        cases hnamespaced
      · intro hne
        apply And.intro hkind
        cases hns : ref.ns with
        | none =>
            simp only [hns] at hne
            exact absurd rfl hne
        | some ns => exact ⟨ref, href, hns⟩

theorem fetching_all (tenant : String) (repo : GitRepo) (refName path : String) :
    (fetching repo (repo.fetchRepoRef refName path tenant)).All (Confined tenant) := by
  apply (repo.fetchRepoRef_all refName path tenant).refine
  intro e he
  apply Prog.all_perform
  cases e with
  | getSecret use ns name =>
      obtain ⟨ref, href, -, rfl⟩ := he
      exact secretConfined_secretsNamespace tenant repo href
  | iterHashMap _ | gitFetch _ | panic _ => trivial

/-! ## Executions -/

section Execute

variable (action : Action) (call : ExecuteCall)

/-- A cloner that starts at all uses the kind of source it was told. -/
theorem sourceKind_of_cli_parse {config : ActionConfig} {sourceKind : TriggerSourceKind}
    {sourceName : String} {sourceRef : TriggerGitRepoReference} {cli : Cli}
    (hparse : Cli.parse (action.getGitrepoClonerArgs config sourceKind sourceName sourceRef) =
      some cli) : cli.sourceKind = sourceKind := by
  by_cases hplain : NoHyphen action config sourceName sourceRef
  · rw [cli_parse_of_noHyphen action config sourceKind sourceName sourceRef hplain] at hparse
    obtain rfl := Option.some.inj hparse
    rfl
  · have hnone :=
      (parse_getGitrepoClonerArgs action config sourceKind sourceName sourceRef).2 hplain
    rw [Cli.parse, hnone] at hparse
    cases hparse

/-- The override of a ClusterAction is a ClusterGitRepo. -/
theorem clonedSource_kind_of_clusterAction (hkind : action.kind = .clusterAction)
    (hover : action.sourceOverrideSpec.isSome) :
    (action.clonedSource call).kind = .clusterGitRepo := by
  rcases action with ⟨name, ns, override, job⟩
  cases override with
  | action override => cases hkind
  | clusterAction override =>
      cases override with
      | none => cases hover
      | some override => rfl

theorem jobConfined_of_execute {enqueueCall : EnqueueCall}
    (hends : EndsExecution action call enqueueCall) :
    JobConfined call.ns action enqueueCall := by
  apply And.intro
  · intro identity now
    rw [hends.ns]
    rfl
  · intro hkind hover
    obtain ⟨config, hargs⟩ := hends.job.clones
    apply Exists.intro _
    apply And.intro hargs
    intro cli hparse
    rw [sourceKind_of_cli_parse action hparse]
    exact clonedSource_kind_of_clusterAction action call hkind hover

theorem making_all {α : Type} (tenant : String) (p : JobProg α) :
    (making action p).All (Confined tenant) :=
  p.all_true.refine fun _ _ => Prog.all_perform trivial

end Execute

/-! ## The task -/

/-- An effect of a trigger task, as far as namespaces are concerned. -/
def Confinable (tenant : String) : Effect → Prop
  | .getGitRepo kind name ns => Confined tenant (.task (.getGitRepo kind name ns))
  | .getAction kind name ns => Confined tenant (.task (.getAction kind name ns))
  | .fetchRepoRef _ _ _ _ ns => ns = tenant
  | .execute call _ => call.ns = tenant
  | _ => True

/-- An effect that passes the namespace of its tenant on is carried out inside
of it. -/
theorem carryOut_all {tenant : String} {e : Effect} (h : Confinable tenant e) :
    (carryOut e).All (Confined tenant) := by
  cases e with
  | fetchRepoRef kind name refName path ns =>
      obtain rfl : ns = tenant := h
      apply Prog.all_perform_bind trivial
      intro repo
      apply Prog.all_bind (fetching_all ns repo.val refName path)
      intro fetched
      cases fetched with
      | error err => trivial
      | ok _ => trivial
  | execute call checked =>
      obtain rfl : call.ns = tenant := h
      apply Prog.all_perform_bind trivial
      intro action
      apply Prog.all_bind_of_returns (making_all action.val call.ns _)
        (execute_returns action.val call).refine
      intro enqueueCall hends
      exact Prog.all_perform (jobConfined_of_execute action.val call hends)
  | getGitRepo kind name ns => exact Prog.all_perform h
  | getAction kind name ns => exact Prog.all_perform h
  | getTrigger | randomString | utcNow | iterHashSet | removeDirAll | createDirAll
  | getLatestCommit | getFileGlobHash | patchStatus => exact Prog.all_perform trivial

/-- Whatever trigger a run finds in the cache, an iteration passes on the
namespace of the trigger it was made for. -/
theorem confinable_of_mayPerform {run : TaskRun} {source : String} {e : Effect}
    (h : run.MayPerform source e) : Confinable run.self.ns e := by
  cases h with
  | getGitRepo =>
      simp only [Confinable, Confined, Trigger.sourceNamespace]
      cases run.trigger.sources.kind with
      | gitRepo => rfl
      | clusterGitRepo => rfl
  | getAction =>
      simp only [Confinable, Confined, Trigger.actionNamespace]
      cases run.trigger.action.kind with
      | action => rfl
      | clusterAction => rfl
  | fetchRepoRef => rfl
  | execute commit checked => rfl
  | removeDirAll | createDirAll | getLatestCommit | getFileGlobHash | utcNow | getTrigger
  | patchStatus => trivial

theorem createTriggerTask_confinable (chrono : Rfc3339.Codec) (self : Trigger)
    (taskSources : TriggerTaskSources) (sourceCloneFolder : String) :
    (self.createTriggerTask chrono taskSources sourceCloneFolder).All (Confinable self.ns) := by
  apply Prog.all_perform_bind trivial
  intro found
  cases found with
  | none => trivial
  | some trigger =>
      apply Prog.all_perform_bind trivial
      intro suffix
      exact self.runTask_all chrono taskSources sourceCloneFolder trigger suffix.val trivial
        (fun _ => trivial) trivial trivial fun _ _ _ he => confinable_of_mayPerform he

/-- Every effect of every run of a task stays in the namespace of its trigger:
the lookups, the secrets, the Jobs and what their cloners are told. -/
theorem task_confined (chrono : Rfc3339.Codec) (self : Trigger)
    (taskSources : TriggerTaskSources) (sourceCloneFolder : String) :
    ((self.createTriggerTask chrono taskSources sourceCloneFolder).refine carryOut).All
      (Confined self.ns) :=
  (createTriggerTask_confinable chrono self taskSources sourceCloneFolder).refine
    fun _ he => carryOut_all he

end GitEventsRunner.Actions
