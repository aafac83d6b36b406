/-
# From the commit that was found to the folder of the worker

A trigger task finds a commit, decides on it and hands a Job to the queue.  Later, on
some node, the Job's init container runs the cloner, which clones the source once
more, and the worker starts in the folder it left.  In between branches move.

The commit travels as a text: from the task into the call of the action, from there
into the command line in the Job, and from the command line back into a reference.
This module follows it through the three programs.  A cloner that succeeds has looked
up the same repository as the task and has checked out the very object that the task
had checked out before it called the action, whatever was pushed meanwhile.
-/

import GitEventsRunner.Actions.Cloner
import GitEventsRunner.Repos.Commit
import GitEventsRunner.Repos.Fetch

namespace GitEventsRunner.Actions

open GitEventsRunner.Lib
open GitEventsRunner.Repos
open GitEventsRunner.Triggers

/-- The namespace in which a source of a kind is looked up from another one. -/
def sourceNamespace (kind : TriggerSourceKind) (ns : String) : Option String :=
  match kind with
  | .gitRepo => some ns
  | .clusterGitRepo => none

/-! ## The task, with the commits it finds -/

/-- What a trigger task asks of its surroundings when finding commits is its own work. -/
inductive DetailEffect
  | task (e : Effect)
  | git (e : GitEffect)

/-- What comes back. -/
def DetailEffect.Reply : DetailEffect → Type
  | .task e => e.Reply
  | .git e => e.Reply

/-- How the effects of a trigger task are carried out: a commit is passed on as the text
of its id. -/
def inDetail : (e : Effect) → Prog DetailEffect.Reply e.Reply
  | .getLatestCommit path reference => do
      let oid ← (getLatestCommit path reference).refine fun e =>
        Prog.perform (DetailEffect.git e)
      pure (oid.map Oid.text)
  | e => Prog.perform (DetailEffect.task e)

/-- What has happened in a task so far. -/
abbrev Past := Set (Prog.Event DetailEffect.Reply)

/-- Before a call of an action its source was found and fetched, and the object the call
names was checked out in a folder. -/
structure Sighted (call : ExecuteCall) (oid : Oid) (path : String) (past : Past) : Prop where
  commit : call.sourceCommit = oid.text
  found : ⟨.task (.getGitRepo call.sourceKind call.sourceName
    (sourceNamespace call.sourceKind call.ns)), true⟩ ∈ past
  fetched : ∃ refName,
    ⟨.task (.fetchRepoRef call.sourceKind call.sourceName refName path call.ns), true⟩ ∈ past
  checkedOut : ⟨.git (.checkoutTree path oid), true⟩ ∈ past

theorem Sighted.mono {call : ExecuteCall} {oid : Oid} {path : String} {past later : Past}
    (h : Sighted call oid path past) (hle : past ≤ later) : Sighted call oid path later where
  commit := h.commit
  found := hle h.found
  fetched := h.fetched.imp fun _ hfetched => hle hfetched
  checkedOut := hle h.checkedOut

/-- An action is called on a commit that was sighted. -/
def CallsSighted : Effect → Past → Prop
  | .execute call _, past => ∃ oid path, Sighted call oid path past
  | _, _ => True

/-- What a task learns from a reply. -/
def Learns : (e : Effect) → e.Reply → Past → Prop
  | .getGitRepo kind name ns, reply, past => ⟨.task (.getGitRepo kind name ns), reply⟩ ∈ past
  | .fetchRepoRef kind name refName path ns, reply, past =>
      ⟨.task (.fetchRepoRef kind name refName path ns), reply⟩ ∈ past
  | .getLatestCommit path _, reply, past => ∀ commit, reply = some commit →
      ∃ oid : Oid, commit = oid.text ∧ ⟨.git (.checkoutTree path oid), true⟩ ∈ past
  | _, _, _ => True

/-- The protocol of a task: to call an action only on what it sighted. -/
def sighting : Prog.Protocol Effect.Reply Past where
  Pre := CallsSighted
  Post := Learns

/-- The same protocol for the task in detail. -/
def sightingInDetail : Prog.Protocol DetailEffect.Reply Past where
  Pre
    | .task e, past => CallsSighted e past
    | .git _, _ => True
  Post e reply past := ⟨e, reply⟩ ∈ past

/-- The protocol of finding a commit inside of a task. -/
def gitInTask : Prog.Protocol GitEffect.Reply Past where
  Pre _ _ := True
  Post e reply past := ⟨.git e, reply⟩ ∈ past

theorem CallsSighted.mono {e : Effect} {past later : Past} (h : CallsSighted e past)
    (hle : past ≤ later) : CallsSighted e later := by
  cases e with
  | execute call checked =>
      obtain ⟨oid, path, hsighted⟩ := h
      exact ⟨oid, path, hsighted.mono hle⟩
  | _ => trivial

/-- The detail implements the protocol of the task. -/
theorem inDetail_safe (e : Effect) (past : Past) (h : CallsSighted e past) :
    (inDetail e).Safe sightingInDetail (fun reply later => Learns e reply later) past := by
  cases e with
  | getLatestCommit path reference =>
      have hfind := getLatestCommit_safe (P := gitInTask) (fun _ _ => trivial) path reference past
      have hgit : ∀ e v, gitInTask.Pre e v → (Prog.perform (DetailEffect.git e) :
          Prog DetailEffect.Reply e.Reply).Safe sightingInDetail
            (fun reply u => gitInTask.Post e reply u) v :=
        fun e v _ => Prog.safe_perform fun _ _ => trivial
      apply Prog.safe_bind (hfind.refine hgit)
      intro reply later _ hreply commit hcommit
      obtain ⟨oid, hoid, rfl⟩ := Option.map_eq_some_iff.mp hcommit
      exact ⟨oid, rfl, (hreply oid hoid).1⟩
  | getGitRepo | fetchRepoRef =>
      exact Prog.safe_perform fun later hle => h.mono hle
  | _ =>
      refine (Prog.safe_perform fun later hle => ?_).conseq fun _ _ _ _ => trivial
      exact h.mono hle

section Task

variable {chrono : Rfc3339.Codec} {past : Past}

/-- A question that is always allowed, and what follows it. -/
theorem sighting_ask {α : Type} {e : Effect} {f : e.Reply → TriggerTask α}
    {Q : α → Past → Prop} (hpre : ∀ v, CallsSighted e v)
    (hf : ∀ reply v, past ≤ v → Learns e reply v → (f reply).Safe sighting Q v) :
    (Prog.perform e >>= f).Safe sighting Q past :=
  Prog.safe_bind (Prog.safe_perform fun v _ => hpre v) hf

theorem updateTriggerStatus_sighting (trigger : Trigger) (update : StatusUpdate) :
    (trigger.updateTriggerStatus update).Safe sighting (fun _ _ => True) past := by
  refine sighting_ask (fun _ => trivial) fun found v _ _ => ?_
  cases found with
  | none => trivial
  | some cached =>
      exact (Prog.safe_perform fun _ _ => trivial).conseq fun _ _ _ _ => trivial

theorem actAndRecord_sighting (run : TaskRun) {source commit : String}
    {newSourceState : CheckedSourceState} {oid : Oid} {path : String}
    (h : Sighted (run.executeCall source commit) oid path past) :
    (run.actAndRecord chrono source commit newSourceState).Safe sighting
      (fun _ _ => True) past := by
  unfold TaskRun.actAndRecord
  extract_lets watchOn current
  split
  · have haction : (run.runAction source commit newSourceState).Safe sighting
        (fun _ _ => True) past := by
      refine sighting_ask (fun _ => trivial) fun found v hv _ => ?_
      cases found with
      | false => trivial
      | true =>
          refine (Prog.safe_perform fun u hu => ?_).conseq fun _ _ _ _ => trivial
          exact ⟨oid, path, h.mono (hv.trans hu)⟩
    apply Prog.safe_bind haction
    intro ok v _ _
    cases ok with
    | false => trivial
    | true =>
        refine sighting_ask (fun _ => trivial) fun changed u _ _ => ?_
        refine sighting_ask (fun _ => trivial) fun lastRun u' _ _ => ?_
        exact Prog.safe_bind (updateTriggerStatus_sighting _ _) fun _ _ _ _ => trivial
  · exact Prog.safe_bind (updateTriggerStatus_sighting _ _) fun _ _ _ _ => trivial

theorem fileHash_sighting (run : TaskRun) (source : String) :
    (run.fileHash source).Safe sighting (fun _ _ => True) past := by
  unfold TaskRun.fileHash
  split
  · exact (Prog.safe_perform fun _ _ => trivial).conseq fun _ _ _ _ => trivial
  · trivial

/-- An iteration sights the commit it acts on. -/
theorem checkSource_sighting (run : TaskRun) (source : String) :
    (run.checkSource chrono source).Safe sighting (fun _ _ => True) past := by
  refine sighting_ask (fun _ => trivial) fun _ _ _ _ => ?_
  refine sighting_ask (fun _ => trivial) fun made _ _ _ => ?_
  cases made with
  | false => trivial
  | true =>
      refine sighting_ask (fun _ => trivial) fun found v _ hfound => ?_
      cases found with
      | false => trivial
      | true =>
          refine sighting_ask (fun _ => trivial) fun fetched u hu hfetched => ?_
          cases fetched with
          | false => trivial
          | true =>
              refine sighting_ask (fun _ => trivial) fun latest x hx hlatest => ?_
              cases latest with
              | none => trivial
              | some commit =>
                  obtain ⟨oid, rfl, hchecked⟩ := hlatest commit rfl
                  have hsighted : Sighted (run.executeCall source oid.text) oid
                      (run.repoPath source) x :=
                    ⟨rfl, hx (hu hfound), ⟨_, hx hfetched⟩, hchecked⟩
                  apply Prog.safe_bind (fileHash_sighting run source)
                  intro fileHash y hy _
                  apply Prog.safe_bind (actAndRecord_sighting run (hsighted.mono hy))
                  intro _ _ _ _
                  exact sighting_ask (fun _ => trivial) fun _ _ _ _ => trivial

theorem createTriggerTask_sighting (self : Trigger) (taskSources : TriggerTaskSources)
    (sourceCloneFolder : String) :
    (self.createTriggerTask chrono taskSources sourceCloneFolder).Safe sighting
      (fun _ _ => True) past := by
  refine sighting_ask (fun _ => trivial) fun found _ _ _ => ?_
  cases found with
  | none => trivial
  | some trigger =>
      refine sighting_ask (fun _ => trivial) fun suffix _ _ _ => ?_
      apply Prog.safe_bind (updateTriggerStatus_sighting _ _)
      intro _ _ _ _
      refine sighting_ask (fun _ => trivial) fun order _ _ _ => ?_
      apply Prog.safe_bind (Prog.safe_forEach fun source _ _ _ => checkSource_sighting _ source)
      intro _ _ _ _
      refine sighting_ask (fun _ => trivial) fun lastRun _ _ _ => ?_
      exact Prog.safe_bind (updateTriggerStatus_sighting _ _) fun _ _ _ _ => trivial

/-- In an execution of a task every call of an action was sighted before. -/
theorem exists_sighted {self : Trigger} {taskSources : TriggerTaskSources}
    {sourceCloneFolder : String} {before after : List (Prog.Event DetailEffect.Reply)}
    {call : ExecuteCall} {checked : CheckedSourceState} {ok : Bool}
    (hruns : ((self.createTriggerTask chrono taskSources sourceCloneFolder).refine inDetail).Runs
      (before ++ ⟨.task (.execute call checked), ok⟩ :: after) ()) :
    ∃ oid path, Sighted call oid path {event | event ∈ before} := by
  have hsafe : (self.createTriggerTask chrono taskSources sourceCloneFolder).Safe sighting
      (fun _ _ => True) ∅ :=
    createTriggerTask_sighting self taskSources sourceCloneFolder
  have hpre := (hsafe.refine inDetail_safe).of_runs (fun _ _ _ hmem => hmem) hruns
  rwa [Set.empty_union] at hpre

end Task

/-! ## The cloner -/

/-- What the cloner asks of its surroundings.  The repository in front of a fetch is the
one that was looked up. -/
inductive ClonerEffect
  | getRepo (kind : TriggerSourceKind) (name : String) (ns : Option String)
  | fetch (repo : GitRepo) (e : FetchEffect)
  | git (e : GitEffect)
  | removeDirAll (path : String)
  | panic (msg : String)

/-- What comes back, with `none` or `false` for an error. -/
def ClonerEffect.Reply : ClonerEffect → Type
  | .getRepo kind name _ => Option { repo : GitRepo // repo.kind = kind ∧ repo.name = name }
  | .fetch _ e => e.Reply
  | .git e => e.Reply
  | .removeDirAll _ => Bool
  | .panic _ => Empty

/-- A program of the cloner. -/
abbrev ClonerProg (α : Type) := Prog ClonerEffect.Reply α

/-- Fetch a reference, check it out and remove what git needs to know about it. -/
def cloneRepo (repo : GitRepo) (referenceName : String) (reference : TriggerGitRepoReference)
    (cli : Cli) (ns : String) : ClonerProg Bool := do
  match ← (repo.fetchRepoRef referenceName cli.destination ns).refine fun e =>
      Prog.perform (ClonerEffect.fetch repo e) with
  | .error _ => pure false
  | .ok _ =>
      match ← (getLatestCommit cli.destination reference).refine fun e =>
          Prog.perform (ClonerEffect.git e) with
      | none => pure false
      | some _ =>
          if cli.preserveGitFolder then pure true
          else Prog.perform (ClonerEffect.removeDirAll (cli.destination ++ "/.git"))

/-- `git_repo_cloner` in the namespace of its pod; returns whether it succeeded. -/
def gitRepoCloner (cli : Cli) (ns : String) : ClonerProg Bool :=
  match cli.reference.toName, cli.reference.toReference with
  | some referenceName, some reference => do
      match ← Prog.perform (ClonerEffect.getRepo cli.sourceKind cli.sourceName
          (sourceNamespace cli.sourceKind ns)) with
      | some repo => cloneRepo repo.val referenceName reference cli ns
      | none => pure false
  | _, _ => Prog.call (ClonerEffect.panic "Looks like a BUG") Empty.elim

/-- What the cloner leaves in a folder: the source was looked up and fetched, and an
object was checked out, which is the commit if the source is to be cloned at one. -/
structure Cloned (source : ActionSourceOverride) (ns destination : String) (oid : Oid)
    (past : Set (Prog.Event ClonerEffect.Reply)) : Prop where
  fetched : ∃ repo fetch,
    ⟨.getRepo source.kind source.name (sourceNamespace source.kind ns), some repo⟩ ∈ past ∧
    ⟨.fetch repo.val (.gitFetch fetch), true⟩ ∈ past ∧ fetch.path = destination ∧
    fetch.originUrl = repo.val.repoUri ∧ fetch.refName = (toRefname source.reference "").2
  checkedOut : ⟨.git (.checkoutTree destination oid), true⟩ ∈ past
  commit : ∀ r, source.reference = .commit r → Oid.fromStr r = some oid

/-- A fetch that succeeds has set the repository up in its folder and fetched the
reference. -/
theorem fetchRepoRef_safe {W : Type} [Preorder W] {P : Prog.Protocol FetchEffect.Reply W}
    (hpre : ∀ e w, P.Pre e w) (repo : GitRepo) (refName path secretsNs : String) (w : W) :
    (repo.fetchRepoRef refName path secretsNs).Safe P (fun reply v => reply = .ok () →
      ∃ fetch : GitFetch, fetch.path = path ∧ fetch.originUrl = repo.repoUri ∧
        fetch.refName = refName ∧ P.Post (.gitFetch fetch) true v) w := by
  apply Prog.safe_bind (Prog.safe_of_pre hpre (repo.authSecrets secretsNs) w)
  intro auth v _ _
  cases auth with
  | error err => exact fun hok => nomatch hok
  | ok authSecrets =>
      apply Prog.safe_bind (Prog.safe_of_pre hpre (repo.tlsSecrets secretsNs) v)
      intro tls u _ _
      cases tls with
      | error err => exact fun hok => nomatch hok
      | ok tlsSecrets =>
          cases repo.uriSchema with
          | none => exact fun x _ => ⟨hpre _ x, fun impossible => impossible.elim⟩
          | some schema =>
              apply Prog.safe_bind (Prog.safe_perform fun x _ => hpre _ x)
              intro fetched x _ hfetched
              cases fetched with
              | false => exact fun hok => nomatch hok
              | true => exact fun _ => ⟨_, rfl, rfl, rfl, hfetched⟩

/-- Fetching inside of the cloner. -/
def fetchInCloner (repo : GitRepo) :
    Prog.Protocol FetchEffect.Reply (Set (Prog.Event ClonerEffect.Reply)) where
  Pre _ _ := True
  Post e reply past := ⟨.fetch repo e, reply⟩ ∈ past

/-- Finding a commit inside of the cloner. -/
def gitInCloner : Prog.Protocol GitEffect.Reply (Set (Prog.Event ClonerEffect.Reply)) where
  Pre _ _ := True
  Post e reply past := ⟨.git e, reply⟩ ∈ past

section Cloner

variable {past later : Set (Prog.Event ClonerEffect.Reply)}

theorem Cloned.mono {source : ActionSourceOverride} {ns destination : String} {oid : Oid}
    (h : Cloned source ns destination oid past) (hle : past ≤ later) :
    Cloned source ns destination oid later := by
  obtain ⟨⟨repo, fetch, hfound, hdone, hfetch⟩, hchecked, hcommit⟩ := h
  exact ⟨⟨repo, fetch, hle hfound, hle hdone, hfetch⟩, hle hchecked, hcommit⟩

theorem fetching_cloner (repo : GitRepo) (refName path ns : String) :
    ((repo.fetchRepoRef refName path ns).refine fun e =>
      Prog.perform (ClonerEffect.fetch repo e)).Safe Prog.history (fun reply past =>
        reply = .ok () → ∃ fetch : GitFetch, fetch.path = path ∧ fetch.originUrl = repo.repoUri ∧
          fetch.refName = refName ∧ ⟨.fetch repo (.gitFetch fetch), true⟩ ∈ past) past := by
  have hsafe := fetchRepoRef_safe (P := fetchInCloner repo) (fun _ _ => trivial) repo refName path
    ns past
  exact hsafe.refine fun _ _ _ => Prog.safe_perform fun _ _ => trivial

theorem finding_cloner (path : String) (reference : TriggerGitRepoReference) :
    ((getLatestCommit path reference).refine fun e =>
      Prog.perform (ClonerEffect.git e)).Safe Prog.history (fun reply past =>
        ∀ oid, reply = some oid → ⟨.git (.checkoutTree path oid), true⟩ ∈ past ∧
          ∀ r, reference = .commit r → Oid.fromStr r = some oid) past := by
  have hsafe := getLatestCommit_safe (P := gitInCloner) (fun _ _ => trivial) path reference past
  exact hsafe.refine fun _ _ _ => Prog.safe_perform fun _ _ => trivial

/-- A cloner that succeeds has cloned its source. -/
theorem gitRepoCloner_safe (cli : Cli) (ns : String) {reference : TriggerGitRepoReference}
    (hname : cli.reference.toName = some (toRefname reference "").2)
    (hreference : cli.reference.toReference = some reference) :
    (gitRepoCloner cli ns).Safe Prog.history (fun ok past => ok = true →
      ∃ oid, Cloned ⟨cli.sourceKind, cli.sourceName, reference⟩ ns cli.destination oid past)
      past := by
  unfold gitRepoCloner
  rw [hname, hreference]
  apply Prog.safe_bind (Prog.safe_perform fun _ _ => trivial)
  intro found v _ hfound
  cases found with
  | none => exact fun hok => nomatch hok
  | some repo =>
      apply Prog.safe_bind (fetching_cloner repo.val (toRefname reference "").2 cli.destination ns)
      intro fetched u hu hfetched
      cases fetched with
      | error err => exact fun hok => nomatch hok
      | ok _ =>
          obtain ⟨fetch, hpath, hurl, hrefname, hdone⟩ := hfetched rfl
          apply Prog.safe_bind (finding_cloner cli.destination reference)
          intro commit x hx hcommit
          cases commit with
          | none => exact fun hok => nomatch hok
          | some oid =>
              obtain ⟨hchecked, hread⟩ := hcommit oid rfl
              have hcloned : Cloned ⟨cli.sourceKind, cli.sourceName, reference⟩ ns
                  cli.destination oid x :=
                ⟨⟨repo, fetch, hx (hu hfound), hx hdone, hpath, hurl, hrefname⟩, hchecked, hread⟩
              cases cli.preserveGitFolder with
              | true =>
                  simp only [reduceIte]
                  exact fun _ => ⟨oid, hcloned⟩
              | false =>
                  simp only [reduceIte, Bool.false_eq_true]
                  refine (Prog.safe_perform fun _ _ => trivial).conseq fun _ _ hle _ _ => ?_
                  exact ⟨oid, hcloned.mono hle⟩

/-- A cloner that is told a commit checks out nothing else. -/
theorem gitRepoCloner_all (cli : Cli) (ns : String) {r : String}
    (hreference : cli.reference.toReference = some (.commit r)) :
    (gitRepoCloner cli ns).All fun e => ∀ folder oid, e = .git (.checkoutTree folder oid) →
      folder = cli.destination ∧ Oid.fromStr r = some oid := by
  unfold gitRepoCloner
  rw [hreference]
  cases cli.reference.toName with
  | none =>
      exact ⟨(fun _ _ hcheckout => nomatch hcheckout), fun impossible => impossible.elim⟩
  | some referenceName =>
      apply Prog.all_perform_bind fun _ _ hcheckout => nomatch hcheckout
      intro found
      cases found with
      | none => trivial
      | some repo =>
          apply Prog.all_bind
          · apply (Prog.all_true _).refine
            intro e _
            exact Prog.all_perform fun _ _ hcheckout => nomatch hcheckout
          · intro fetched
            cases fetched with
            | error err => trivial
            | ok _ =>
                apply Prog.all_bind
                · apply (getLatestCommit_commit_all cli.destination r).refine
                  intro e he
                  apply Prog.all_perform
                  intro folder oid hcheckout
                  exact he folder oid (ClonerEffect.git.inj hcheckout)
                · intro commit
                  cases commit with
                  | none => trivial
                  | some oid =>
                      cases cli.preserveGitFolder with
                      | true => trivial
                      | false => exact Prog.all_perform fun _ _ hcheckout => nomatch hcheckout

end Cloner

/-! ## Through all three programs -/

/-- A command line that the cloner reads tells it what the controller wrote. -/
theorem eq_of_cli_parse {action : Action} {config : ActionConfig} {source : ActionSourceOverride}
    {cli : Cli} (hparse : Cli.parse (action.getGitrepoClonerArgs config source.kind source.name
      source.reference) = some cli) :
    cli.sourceKind = source.kind ∧ cli.sourceName = source.name ∧
      cli.destination = action.workdir config ∧
      cli.reference.toReference = some source.reference ∧
      cli.reference.toName = some (toRefname source.reference "").2 := by
  by_cases hplain : NoHyphen action config source.name source.reference
  · rw [cli_parse_of_noHyphen action config source.kind source.name source.reference
      hplain] at hparse
    obtain rfl := Option.some.inj hparse
    refine ⟨rfl, rfl, rfl, ?_, ?_⟩
    · cases source.reference <;> rfl
    · cases source.reference <;> rfl
  · have hnone := (parse_getGitrepoClonerArgs action config source.kind source.name
      source.reference).2 hplain
    rw [Cli.parse, hnone] at hparse
    cases hparse

/-- For every execution of a trigger task, every call of an action in it, every way the Job
of the action is made and every execution of the Job's cloner that succeeds: before the call
the task had found and fetched the source and checked out the object that the call names.
The cloner looked up and fetched the source it is to clone in the namespace of the Job and
checked an object out where it was told to, which is the working directory of the worker if
all configurations the Job was made with have one mount path.  And unless the action
overrides the source, that object is the one the task had checked out, and the cloner
checked out nothing else. -/
theorem worker_gets_sighted_commit (chrono : Rfc3339.Codec) (self : Trigger)
    (taskSources : TriggerTaskSources) (sourceCloneFolder : String)
    (before after : List (Prog.Event DetailEffect.Reply)) (call : ExecuteCall)
    (checked : CheckedSourceState) (ok : Bool)
    (htask : ((self.createTriggerTask chrono taskSources sourceCloneFolder).refine inDetail).Runs
      (before ++ ⟨.task (.execute call checked), ok⟩ :: after) ())
    (action : Action) (jobTrace : List (Prog.Event JobEffect.Reply)) (enqueueCall : EnqueueCall)
    (hjob : (action.execute call).Runs jobTrace enqueueCall) (args : List String) (cli : Cli)
    (hargs : enqueueCall.job.initContainer.args = some args)
    (hparse : Cli.parse args = some cli) (cloneTrace : List (Prog.Event ClonerEffect.Reply))
    (hclone : (gitRepoCloner cli enqueueCall.ns).Runs cloneTrace true) :
    ∃ oid path cloned, Sighted call oid path {event | event ∈ before} ∧
      Cloned (action.clonedSource call) call.ns cli.destination cloned
        {event | event ∈ cloneTrace} ∧
      ((∀ config config', reading config ∈ jobTrace → reading config' ∈ jobTrace →
          config.mountPath = config'.mountPath) →
        enqueueCall.job.container.workingDir = some cli.destination) ∧
      (action.sourceOverrideSpec = none → cloned = oid ∧ ∀ folder other reply,
        ⟨.git (.checkoutTree folder other), reply⟩ ∈ cloneTrace →
          folder = cli.destination ∧ other = oid) := by
  obtain ⟨oid, path, hsighted⟩ := exists_sighted htask
  obtain ⟨job, first, second, rfl, hspec, rfl, rfl⟩ := Prog.runs_bind.mp hjob
  obtain ⟨config, argsConfig, limits, nameTrace, name, envTrace, env, rfl, -, -, -, hmade⟩ :=
    runs_createJobSpec hspec
  obtain rfl := Option.some.inj (hmade.args.symm.trans hargs)
  obtain ⟨hkind, hsource, hdestination, hreference, hname⟩ := eq_of_cli_parse hparse
  have hsafe : (gitRepoCloner cli call.ns).Safe Prog.history (fun ok past => ok = true →
      ∃ cloned, Cloned ⟨cli.sourceKind, cli.sourceName, (action.clonedSource call).reference⟩
        call.ns cli.destination cloned past) ∅ :=
    gitRepoCloner_safe cli call.ns hname hreference
  obtain ⟨cloned, hcloned⟩ := hsafe.result_of_runs (fun _ _ _ hmem => hmem) hclone rfl
  rw [Set.empty_union, hkind, hsource] at hcloned
  refine ⟨oid, path, cloned, hsighted, hcloned, ?_, ?_⟩
  · intro hagree
    have hsame : config.mountPath = argsConfig.mountPath :=
      hagree config argsConfig (by simp) (by simp)
    rw [hdestination]
    show job.container.workingDir = some (action.workdir argsConfig)
    rw [hmade.workingDir, Action.workdir, Action.workdir, hsame]
  · intro hoverride
    have hcommit : (action.clonedSource call).reference = .commit oid.text := by
      rw [Action.clonedSource, hoverride, ← hsighted.commit]
      rfl
    have hread : Oid.fromStr oid.text = some oid := Oid.fromStr_text oid
    refine ⟨?_, ?_⟩
    · exact Option.some.inj ((hcloned.commit _ hcommit).symm.trans hread)
    · intro folder other reply hmem
      rw [hcommit] at hreference
      obtain ⟨hfolder, hother⟩ :=
        (gitRepoCloner_all cli call.ns hreference).of_runs hclone _ hmem folder other rfl
      exact ⟨hfolder, Option.some.inj (hother.symm.trans hread)⟩

theorem length_headDigits : (List.replicate 40 'a').length = 40 := List.length_replicate

theorem hex_headDigits : ∀ c ∈ List.replicate 40 'a', c ∈ hexDigits := by
  intro c hc
  rw [List.eq_of_mem_replicate hc]
  decide

/-- The id that a branch stands for. -/
def headOid : Oid := ⟨List.replicate 40 'a', length_headDigits, hex_headDigits⟩

/-- Git finds the branch and everything it stands for. -/
def headReply : (e : GitEffect) → Option e.Reply
  | .resolveReference .. => some (some (some headOid))
  | .findObject .. => some true
  | .checkoutTree .. => some true
  | .panic _ => none

/-- A trigger of one source on its branch. -/
def nightly : Trigger where
  kind := .scheduleTrigger
  ns := "default"
  name := "nightly"
  sources := { names := ["app"] }
  action := { name := "build" }
  ns_plain := Trigger.default_ns_plain

def nightlyReply : (e : DetailEffect) → Option e.Reply
  | .task e => some (obliging nightly e)
  | .git e => headReply e

def nightlyRun : Option (List (Prog.Event DetailEffect.Reply) × Unit) :=
  ((nightly.createTriggerTask Rfc3339.standard .all "/tmp").refine inDetail).traceWhile nightlyReply

def nightlyTrace : List (Prog.Event DetailEffect.Reply) :=
  (nightlyRun.map Prod.fst).getD []

/-- The call of the action in that run. -/
def nightlyCall : ExecuteCall where
  actionKind := .action
  actionName := "build"
  sourceKind := .gitRepo
  sourceName := "app"
  sourceCommit := headOid.text
  triggerRef := .branch "main"
  ns := "default"
  triggerKind := "ScheduleTrigger"
  triggerName := "nightly"

/-- The call is the fourteenth effect of the run. -/
theorem nightlyRun_eq : nightlyRun = some (nightlyTrace.take 13 ++
    ⟨.task (.execute nightlyCall { commitHash := some headOid.text }), true⟩ ::
      nightlyTrace.drop 14, ()) := rfl

/-- The action that is called, without a source of its own. -/
def build : Action where
  name := "build"
  ns := some "default"
  sourceOverride := .action none

/-- The call of the queue under the default configuration. -/
def nightlyJob : List (Prog.Event JobEffect.Reply) × EnqueueCall :=
  (build.execute nightlyCall).traceWith JobEffect.plainReply

/-- What the cloner reads in the Job. -/
def nightlyCli : Cli where
  sourceKind := .gitRepo
  sourceName := "app"
  reference := referenceValue (.commit headOid.text)
  destination := "/action_workdir"
  preserveGitFolder := false
  debug := false

theorem parse_nightlyCli : Cli.parse (build.getGitrepoClonerArgs {} .gitRepo "app"
    (.commit headOid.text)) = some nightlyCli :=
  cli_parse_of_noHyphen build {} .gitRepo "app" (.commit headOid.text)
    ⟨by decide, by decide, by decide⟩

/-- Surroundings of a cloner in which every step succeeds. -/
def cloneReply : (e : ClonerEffect) → Option e.Reply
  | .getRepo kind name _ =>
      some (some ⟨{ kind := kind, name := name, repoUri := "https://git/app" }, rfl, rfl⟩)
  | .fetch _ (.gitFetch _) => some true
  | .fetch _ _ => none
  | .git e => headReply e
  | .removeDirAll _ => some true
  | .panic _ => none

def nightlyClone : Option (List (Prog.Event ClonerEffect.Reply) × Bool) :=
  (gitRepoCloner nightlyCli "default").traceWhile cloneReply

theorem nightlyClone_eq : nightlyClone = some ((nightlyClone.map Prod.fst).getD [], true) := by
  have hsucceeds : nightlyClone.map Prod.snd = some true := by decide +kernel
  obtain ⟨⟨trace, ok⟩, hrun, rfl⟩ := Option.map_eq_some_iff.mp hsucceeds
  rw [hrun]
  rfl

/-- The worker of the Job of that run starts in the folder with the head of the branch. -/
theorem worker_gets_sighted_commit_nightly :
    ∃ oid path cloned, Sighted nightlyCall oid path {event | event ∈ nightlyTrace.take 13} ∧
      Cloned (build.clonedSource nightlyCall) "default" "/action_workdir" cloned
        {event | event ∈ (nightlyClone.map Prod.fst).getD []} ∧ cloned = oid := by
  obtain ⟨oid, path, cloned, hsighted, hcloned, -, hsame⟩ :=
    worker_gets_sighted_commit Rfc3339.standard nightly .all "/tmp" _ _ nightlyCall
      { commitHash := some headOid.text } true (Prog.runs_of_traceWhile nightlyRun_eq)
      build nightlyJob.1 nightlyJob.2 (Prog.runs_traceWith JobEffect.plainReply _) _ nightlyCli
      rfl parse_nightlyCli _ (Prog.runs_of_traceWhile nightlyClone_eq)
  exact ⟨oid, path, cloned, hsighted, hcloned, (hsame rfl).1⟩

end GitEventsRunner.Actions
