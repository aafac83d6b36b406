/-
# The trigger task

The body of `Trigger::create_trigger_task` as a program: what one run of a
trigger asks of its surroundings, in order, with every exit of the loop over the
sources.  The surroundings are the API cache, the API server, the file system,
git, the clock and the jobs queue; each question is an `Effect`, and a failed
step is a reply like any other, since the body only logs its errors.

A run that panics or is cancelled is a program that is not continued.
-/

import GitEventsRunner.Lib.Program
import GitEventsRunner.Triggers.Types

namespace GitEventsRunner.Triggers

open GitEventsRunner.Lib

/-- The arguments of `ActionExecutor::execute`, with the action it is called on. -/
structure ExecuteCall where
  actionKind : TriggerActionKind
  actionName : String
  sourceKind : TriggerSourceKind
  sourceName : String
  sourceCommit : String
  triggerRef : TriggerGitRepoReference
  ns : String
  triggerKind : String
  triggerName : String
  deriving DecidableEq

/-- A status patch: the cached trigger it was computed from and the update that
was asked for.  The body of the request is `newStatus` of the two. -/
structure StatusPatch where
  cached : Trigger
  update : StatusUpdate

/-- `random_string(len)`: any text of that many alphanumeric characters. -/
abbrev RandomString (len : ℕ) :=
  { s : String // s.toList.length = len ∧ ∀ c ∈ s.toList, c.isAlphanum = true }

/-- The order in which a `HashSet` built from `items` is iterated: any. -/
abbrev HashSetOrder (items : List String) :=
  { order : List String // order.Nodup ∧ ∀ item, item ∈ order ↔ item ∈ items }

/-- What a trigger task asks of its surroundings.  `execute` also carries the
state of the source that made the task act; it is not an argument of the call. -/
inductive Effect
  | getTrigger (name : String) (ns : Option String)
  | randomString (len : ℕ)
  | utcNow
  | iterHashSet (items : List String)
  | removeDirAll (path : String)
  | createDirAll (path : String)
  | getGitRepo (kind : TriggerSourceKind) (name : String) (ns : Option String)
  | fetchRepoRef (kind : TriggerSourceKind) (name refName path ns : String)
  | getLatestCommit (path : String) (reference : TriggerGitRepoReference)
  | getFileGlobHash (path : String) (files : List String)
  | getAction (kind : TriggerActionKind) (name : String) (ns : Option String)
  | execute (call : ExecuteCall) (checked : CheckedSourceState)
  | patchStatus (patch : StatusPatch)

/-- What comes back: the value, with `none` or `false` for an error. -/
def Effect.Reply : Effect → Type
  | .getTrigger .. => Option Trigger
  | .randomString len => RandomString len
  | .utcNow => SystemTime
  | .iterHashSet items => HashSetOrder items
  | .getLatestCommit .. | .getFileGlobHash .. => Option String
  | .removeDirAll _ | .createDirAll _ | .getGitRepo .. | .fetchRepoRef .. | .getAction ..
  | .execute .. | .patchStatus _ => Bool

/-- A program of trigger tasks. -/
abbrev TriggerTask (α : Type) := Prog Effect.Reply α

namespace TriggerTask

/-- `Self::get` of the trigger's own kind. -/
def getTrigger (name : String) (ns : Option String) : TriggerTask (Option Trigger) :=
  Prog.perform (Effect.getTrigger name ns)

def randomString (len : ℕ) : TriggerTask (RandomString len) :=
  Prog.perform (Effect.randomString len)

def utcNow : TriggerTask SystemTime := Prog.perform Effect.utcNow

def iterHashSet (items : List String) : TriggerTask (HashSetOrder items) :=
  Prog.perform (Effect.iterHashSet items)

def removeDirAll (path : String) : TriggerTask Bool := Prog.perform (Effect.removeDirAll path)

def createDirAll (path : String) : TriggerTask Bool := Prog.perform (Effect.createDirAll path)

/-- `GitRepo::get` or `ClusterGitRepo::get` -/
def getGitRepo (kind : TriggerSourceKind) (name : String) (ns : Option String) :
    TriggerTask Bool :=
  Prog.perform (Effect.getGitRepo kind name ns)

def fetchRepoRef (kind : TriggerSourceKind) (name refName path ns : String) :
    TriggerTask Bool :=
  Prog.perform (Effect.fetchRepoRef kind name refName path ns)

def getLatestCommit (path : String) (reference : TriggerGitRepoReference) :
    TriggerTask (Option String) :=
  Prog.perform (Effect.getLatestCommit path reference)

/-- `get_file_glob_hash`, in hex. -/
def getFileGlobHash (path : String) (files : List String) : TriggerTask (Option String) :=
  Prog.perform (Effect.getFileGlobHash path files)

/-- `Action::get` or `ClusterAction::get` -/
def getAction (kind : TriggerActionKind) (name : String) (ns : Option String) :
    TriggerTask Bool :=
  Prog.perform (Effect.getAction kind name ns)

def execute (call : ExecuteCall) (checked : CheckedSourceState) : TriggerTask Bool :=
  Prog.perform (Effect.execute call checked)

def patchStatus (patch : StatusPatch) : TriggerTask Bool := Prog.perform (Effect.patchStatus patch)

end TriggerTask

open TriggerTask

namespace Trigger

/-- The namespace in which a source of the trigger is looked up. -/
def sourceNamespace (trigger : Trigger) (triggerNs : String) : Option String :=
  match trigger.sources.kind with
  | .gitRepo => some triggerNs
  | .clusterGitRepo => none

/-- The namespace in which the action of the trigger is looked up. -/
def actionNamespace (trigger : Trigger) (triggerNs : String) : Option String :=
  match trigger.action.kind with
  | .action => some triggerNs
  | .clusterAction => none

/-- `Trigger::update_trigger_status`; returns whether it succeeded. -/
def updateTriggerStatus (trigger : Trigger) (update : StatusUpdate) : TriggerTask Bool := do
  match ← getTrigger trigger.name (some trigger.ns) with
  | some cached => patchStatus ⟨cached, update⟩
  | none => pure false

/-- The sources one run checks, before they become a `HashSet`. -/
def sourcesToCheck (trigger : Trigger) : TriggerTaskSources → List String
  | .all => trigger.sources.names
  | .single source => [source]

/-- The recorded sources a run starts from: those still in the spec. -/
def initialSources (trigger : Trigger) : HashMap String CheckedSourceState :=
  trigger.checkedSources.retain fun k => trigger.sources.names.contains k

/-- The base folder a run clones its sources to. -/
def baseTempDir (self : Trigger) (sourceCloneFolder suffix : String) : String :=
  sourceCloneFolder ++ "/" ++ self.ns ++ "/" ++ self.name ++ "/" ++ suffix

end Trigger

/-- What one run has at hand inside its loop: the trigger the task was created
for, the trigger it read from the cache, the recorded sources it starts from and
its base folder. -/
structure TaskRun where
  self : Trigger
  trigger : Trigger
  checkedSources : HashMap String CheckedSourceState
  baseTempDir : String

namespace TaskRun

variable (chrono : Rfc3339.Codec) (run : TaskRun)

/-- The folder a source is cloned to. -/
def repoPath (source : String) : String := run.baseTempDir ++ "/" ++ source

/-- The call of the action for a source at a commit. -/
def executeCall (source commit : String) : ExecuteCall where
  actionKind := run.trigger.action.kind
  actionName := run.trigger.action.name
  sourceKind := run.trigger.sources.kind
  sourceName := source
  sourceCommit := commit
  triggerRef := run.trigger.sources.watchOn.reference
  ns := run.self.ns
  triggerKind := run.self.kind.crdKind
  triggerName := run.self.name

/-- Look the action up and execute it for a source; returns whether that
succeeded. -/
def runAction (source commit : String) (checked : CheckedSourceState) : TriggerTask Bool := do
  let action := run.trigger.action
  if ← getAction action.kind action.name (run.trigger.actionNamespace run.self.ns) then
    execute (run.executeCall source commit) checked
  else pure false

/-- Decide about a source whose commit is known, act and record. -/
def actAndRecord (source commit : String) (newSourceState : CheckedSourceState) :
    TriggerTask Unit := do
  let watchOn := run.trigger.sources.watchOn
  let current := run.checkedSources.get source
  if !newSourceState.isEqual current watchOn.files.isSome || !watchOn.onChangeOnly then
    if ← run.runAction source commit newSourceState then
      let changed ← utcNow
      let lastRun ← utcNow
      let newSourceState := { newSourceState with changed := some (chrono.format changed) }
      let _ ← run.trigger.updateTriggerStatus
        { state := some .running
          checkedSources := some ((∅ : HashMap _ _).insert source newSourceState)
          lastRun := some lastRun }
    else pure ()
  else
    -- an unchanged source keeps the time of its last change
    let newSourceState := { newSourceState with
      changed := (current.map CheckedSourceState.changed).getD newSourceState.changed }
    let _ ← run.trigger.updateTriggerStatus
      { checkedSources := some ((∅ : HashMap _ _).insert source newSourceState) }

/-- The hash of the watched files; `none` if none are configured or hashing
failed. -/
def fileHash (source : String) : TriggerTask (Option String) :=
  match run.trigger.sources.watchOn.files with
  | some files => getFileGlobHash (run.repoPath source) files
  | none => pure none

/-- A source whose repository was found: fetch it, and go on if it has the
commit. -/
def fetchAndCheck (source : String) : TriggerTask Unit := do
  let sources := run.trigger.sources
  if ← fetchRepoRef sources.kind source sources.watchOn.referenceName (run.repoPath source)
      run.self.ns then
    match ← getLatestCommit (run.repoPath source) sources.watchOn.reference with
    | some commit =>
        let fileHash ← run.fileHash source
        run.actAndRecord chrono source commit { commitHash := some commit, fileHash := fileHash }
        let _ ← removeDirAll (run.repoPath source)
    | none => pure ()
  else pure ()

/-- One iteration of the main check loop. -/
def checkSource (source : String) : TriggerTask Unit := do
  let _ ← removeDirAll (run.repoPath source)
  if ← createDirAll (run.repoPath source) then
    if ← getGitRepo run.trigger.sources.kind source (run.trigger.sourceNamespace run.self.ns) then
      run.fetchAndCheck chrono source
    else pure ()
  else pure ()

end TaskRun

namespace Trigger

variable (chrono : Rfc3339.Codec)

/-- What a run does with the trigger it found and the suffix it drew. -/
def runTask (self : Trigger) (taskSources : TriggerTaskSources) (sourceCloneFolder : String)
    (trigger : Trigger) (suffix : String) : TriggerTask Unit := do
  let run : TaskRun := ⟨self, trigger, trigger.initialSources,
    self.baseTempDir sourceCloneFolder suffix⟩
  let _ ← trigger.updateTriggerStatus { state := some .running }
  let order ← iterHashSet (trigger.sourcesToCheck taskSources)
  Prog.forEach (run.checkSource chrono) order.val
  let lastRun ← utcNow
  let _ ← trigger.updateTriggerStatus { state := some .idle, lastRun := some lastRun }

/-- The body of the task that `create_trigger_task` makes for the trigger. -/
def createTriggerTask (self : Trigger) (taskSources : TriggerTaskSources)
    (sourceCloneFolder : String) : TriggerTask Unit := do
  match ← getTrigger self.name (some self.ns) with
  | some trigger =>
      let suffix ← randomString 8
      self.runTask chrono taskSources sourceCloneFolder trigger suffix.val
  | none => pure ()

end Trigger

/-! ## Everything an iteration can do -/

namespace TaskRun

/-- The effects of one iteration of the main check loop, with all their
arguments but the contents of the records. -/
inductive MayPerform (run : TaskRun) (source : String) : Effect → Prop
  | removeDirAll : MayPerform run source (.removeDirAll (run.repoPath source))
  | createDirAll : MayPerform run source (.createDirAll (run.repoPath source))
  | getGitRepo : MayPerform run source (.getGitRepo run.trigger.sources.kind source
      (run.trigger.sourceNamespace run.self.ns))
  | fetchRepoRef : MayPerform run source (.fetchRepoRef run.trigger.sources.kind source
      run.trigger.sources.watchOn.referenceName (run.repoPath source) run.self.ns)
  | getLatestCommit : MayPerform run source (.getLatestCommit (run.repoPath source)
      run.trigger.sources.watchOn.reference)
  | getFileGlobHash (files : List String) :
      MayPerform run source (.getFileGlobHash (run.repoPath source) files)
  | getAction : MayPerform run source (.getAction run.trigger.action.kind run.trigger.action.name
      (run.trigger.actionNamespace run.self.ns))
  | execute (commit : String) (checked : CheckedSourceState) :
      MayPerform run source (.execute (run.executeCall source commit) checked)
  | utcNow : MayPerform run source .utcNow
  | getTrigger : MayPerform run source (.getTrigger run.trigger.name (some run.trigger.ns))
  | patchStatus (patch : StatusPatch) : MayPerform run source (.patchStatus patch)

variable (chrono : Rfc3339.Codec) (run : TaskRun)

theorem updateTriggerStatus_all {P : Effect → Prop} (trigger : Trigger) (update : StatusUpdate)
    (hget : P (.getTrigger trigger.name (some trigger.ns)))
    (hpatch : ∀ patch, P (.patchStatus patch)) :
    (trigger.updateTriggerStatus update).All P := by
  apply Prog.all_perform_bind hget
  intro found
  cases found with
  | none => trivial
  | some cached => exact Prog.all_perform (hpatch _)

theorem actAndRecord_all {P : Effect → Prop} (source commit : String)
    (newSourceState : CheckedSourceState)
    (haction : P (.getAction run.trigger.action.kind run.trigger.action.name
      (run.trigger.actionNamespace run.self.ns)))
    (hexecute : P (.execute (run.executeCall source commit) newSourceState)) (hnow : P .utcNow)
    (hget : P (.getTrigger run.trigger.name (some run.trigger.ns)))
    (hpatch : ∀ patch, P (.patchStatus patch)) :
    (run.actAndRecord chrono source commit newSourceState).All P := by
  have hupdate : ∀ update, (run.trigger.updateTriggerStatus update).All P :=
    fun update => updateTriggerStatus_all run.trigger update hget hpatch
  unfold actAndRecord
  extract_lets watchOn current
  split
  · apply Prog.all_bind
    · apply Prog.all_perform_bind haction
      intro found
      cases found with
      | false => trivial
      | true => exact Prog.all_perform hexecute
    · intro ok
      cases ok with
      | false => trivial
      | true =>
          apply Prog.all_perform_bind hnow
          intro changed
          apply Prog.all_perform_bind hnow
          intro lastRun
          exact Prog.all_bind (hupdate _) fun _ => trivial
  · exact Prog.all_bind (hupdate _) fun _ => trivial

theorem fileHash_all (source : String) :
    (run.fileHash source).All (run.MayPerform source) := by
  unfold TaskRun.fileHash
  split
  · exact Prog.all_perform (.getFileGlobHash _)
  · trivial

theorem checkSource_all (source : String) :
    (run.checkSource chrono source).All (run.MayPerform source) := by
  apply Prog.all_perform_bind MayPerform.removeDirAll
  intro _
  apply Prog.all_perform_bind MayPerform.createDirAll
  intro made
  cases made with
  | false => trivial
  | true =>
      apply Prog.all_perform_bind MayPerform.getGitRepo
      intro found
      cases found with
      | false => trivial
      | true =>
          apply Prog.all_perform_bind MayPerform.fetchRepoRef
          intro fetched
          cases fetched with
          | false => trivial
          | true =>
              apply Prog.all_perform_bind MayPerform.getLatestCommit
              intro latest
              cases latest with
              | none => trivial
              | some commit =>
                  apply Prog.all_bind (run.fileHash_all source)
                  intro fileHash
                  apply Prog.all_bind (run.actAndRecord_all chrono source commit _ .getAction
                    (.execute commit _) .utcNow .getTrigger .patchStatus)
                  intro _
                  exact Prog.all_perform_bind .removeDirAll fun _ => trivial

end TaskRun

/-- The effects of a run after it found the trigger: those of the iterations, and
a few around the loop. -/
theorem Trigger.runTask_all {P : Effect → Prop} (chrono : Rfc3339.Codec) (self : Trigger)
    (taskSources : TriggerTaskSources) (sourceCloneFolder : String) (trigger : Trigger)
    (suffix : String) (hget : P (.getTrigger trigger.name (some trigger.ns)))
    (hpatch : ∀ patch, P (.patchStatus patch))
    (hiter : P (.iterHashSet (trigger.sourcesToCheck taskSources))) (hnow : P .utcNow)
    (hcheck : ∀ source ∈ trigger.sourcesToCheck taskSources, ∀ e,
      TaskRun.MayPerform ⟨self, trigger, trigger.initialSources,
        self.baseTempDir sourceCloneFolder suffix⟩ source e → P e) :
    (self.runTask chrono taskSources sourceCloneFolder trigger suffix).All P := by
  have hupdate : ∀ update, (trigger.updateTriggerStatus update).All P :=
    fun update => TaskRun.updateTriggerStatus_all trigger update hget hpatch
  apply Prog.all_bind (hupdate _)
  intro _
  apply Prog.all_perform_bind hiter
  intro order
  apply Prog.all_bind
  · apply Prog.all_forEach
    intro source hsource
    exact (TaskRun.checkSource_all chrono _ source).mono
      (hcheck source ((order.property.2 source).mp hsource))
  · intro _
    apply Prog.all_perform_bind hnow
    intro lastRun
    exact Prog.all_bind (hupdate _) fun _ => trivial

/-- Surroundings in which every step succeeds, the cache holds the given trigger
and every repository is at commit `c1`. -/
def obliging (trigger : Trigger) : (e : Effect) → e.Reply
  | .getTrigger _ _ => some trigger
  | .randomString len => ⟨String.ofList (List.replicate len 'a'), by simp, by
      intro c hc
      rw [String.toList_ofList] at hc
      rw [List.eq_of_mem_replicate hc]
      decide⟩
  | .utcNow => (0 : ℤ)
  | .iterHashSet items => ⟨items.dedup, List.nodup_dedup items, fun _ => List.mem_dedup⟩
  | .getLatestCommit .. => some "c1"
  | .getFileGlobHash .. => some "h1"
  | .removeDirAll _ | .createDirAll _ | .getGitRepo .. | .fetchRepoRef .. | .getAction ..
  | .execute .. | .patchStatus _ => true

end GitEventsRunner.Triggers
