/-
# Where a trigger task touches the file system

A run clones every source below a base folder of its own, whose last segment is
random.  The folder of a source is the base folder with the name of the source
put behind it, and that name is any text a trigger carries: nothing keeps it from
holding slashes, `..` or nothing at all.

So a run stays strictly inside its base folder exactly if the name of every
source it checks, read as a path, comes back from wherever it climbs to.
-/

import GitEventsRunner.Lib.Path
import GitEventsRunner.Triggers.Task

namespace GitEventsRunner.Triggers

open GitEventsRunner.Lib

/-- The paths an effect removes or writes. -/
def Effect.touched : Effect → List String
  | .removeDirAll path | .createDirAll path | .fetchRepoRef _ _ _ path _ => [path]
  | _ => []

/-- The paths an execution removes or writes. -/
def touchedPaths (trace : List (Prog.Event Effect.Reply)) : List String :=
  trace.flatMap fun event => event.1.touched

theorem touchedPaths_append (first second : List (Prog.Event Effect.Reply)) :
    touchedPaths (first ++ second) = touchedPaths first ++ touchedPaths second :=
  List.flatMap_append

/-- An iteration touches the folder of its source and nothing else. -/
theorem TaskRun.MayPerform.touched_eq {run : TaskRun} {source : String} {e : Effect}
    (h : run.MayPerform source e) : ∀ path ∈ e.touched, path = run.repoPath source := by
  intro path hpath
  cases h with
  | removeDirAll | createDirAll | fetchRepoRef => exact List.mem_singleton.mp hpath
  | getGitRepo | getLatestCommit | getFileGlobHash | getAction | execute | utcNow | getTrigger
  | patchStatus => cases hpath

theorem repoPath_mem_touchedPaths {chrono : Rfc3339.Codec} {run : TaskRun} {source : String}
    {trace : List (Prog.Event Effect.Reply)} (h : (run.checkSource chrono source).Runs trace ()) :
    run.repoPath source ∈ touchedPaths trace := by
  obtain ⟨_, first, second, rfl, ⟨_, _, rfl, -⟩, -⟩ := Prog.runs_bind.mp h
  exact List.mem_cons_self

/-- A path is touched by the loop exactly if it is the folder of a source. -/
theorem mem_touchedPaths_forEach {chrono : Rfc3339.Codec} {run : TaskRun}
    {order : List String} {trace : List (Prog.Event Effect.Reply)}
    (h : (Prog.forEach (run.checkSource chrono) order).Runs trace ()) (path : String) :
    path ∈ touchedPaths trace ↔ ∃ source ∈ order, path = run.repoPath source := by
  constructor
  · intro hpath
    obtain ⟨event, hevent, htouched⟩ := List.mem_flatMap.mp hpath
    have hall : (Prog.forEach (run.checkSource chrono) order).All fun e =>
        ∀ path ∈ e.touched, ∃ source ∈ order, path = run.repoPath source := by
      apply Prog.all_forEach
      intro source hsource
      apply (run.checkSource_all chrono source).mono
      intro e he path hpath
      exact ⟨source, hsource, he.touched_eq path hpath⟩
    exact hall.of_runs h event hevent path htouched
  · rintro ⟨source, hsource, hpath⟩
    obtain ⟨part, hpart, hsub⟩ := Prog.exists_runs_of_runs_forEach h hsource
    obtain ⟨event, hevent, htouched⟩ :=
      List.mem_flatMap.mp (repoPath_mem_touchedPaths hpart)
    rw [hpath]
    exact List.mem_flatMap.mpr ⟨event, hsub hevent, htouched⟩

/-- Status updates touch nothing. -/
theorem touchedPaths_updateTriggerStatus {trigger : Trigger} {update : StatusUpdate} {ok : Bool}
    {trace : List (Prog.Event Effect.Reply)}
    (h : (trigger.updateTriggerStatus update).Runs trace ok) : touchedPaths trace = [] := by
  have hall : (trigger.updateTriggerStatus update).All fun e => e.touched = [] :=
    TaskRun.updateTriggerStatus_all trigger update rfl fun _ => rfl
  exact List.flatMap_eq_nil_iff.mpr fun event hevent => hall.of_runs h event hevent

/-- A run touches exactly the folders of the sources it checks. -/
theorem mem_touchedPaths_runTask {chrono : Rfc3339.Codec} {self trigger : Trigger}
    {taskSources : TriggerTaskSources} {sourceCloneFolder suffix : String}
    {trace : List (Prog.Event Effect.Reply)}
    (h : (self.runTask chrono taskSources sourceCloneFolder trigger suffix).Runs trace ())
    (path : String) :
    path ∈ touchedPaths trace ↔ ∃ source ∈ trigger.sourcesToCheck taskSources,
      path = self.baseTempDir sourceCloneFolder suffix ++ "/" ++ source := by
  unfold Trigger.runTask at h
  obtain ⟨_, running, trace, rfl, hrunning, h⟩ := Prog.runs_bind.mp h
  obtain ⟨_, _, trace, rfl, ⟨order, _, rfl, rfl, rfl⟩, h⟩ := Prog.runs_bind.mp h
  obtain ⟨_, loop, trace, rfl, hloop, h⟩ := Prog.runs_bind.mp h
  obtain ⟨_, _, trace, rfl, ⟨lastRun, _, rfl, rfl, rfl⟩, h⟩ := Prog.runs_bind.mp h
  obtain ⟨_, idle, trace, rfl, hidle, ⟨rfl, -⟩⟩ := Prog.runs_bind.mp h
  have hall : touchedPaths (running ++ ([⟨.iterHashSet (trigger.sourcesToCheck taskSources),
      order⟩] ++ (loop ++ ([⟨.utcNow, lastRun⟩] ++ (idle ++ []))))) = touchedPaths loop := by
    simp only [touchedPaths_append, touchedPaths_updateTriggerStatus hrunning,
      touchedPaths_updateTriggerStatus hidle]
    simp [touchedPaths, Effect.touched]
  rw [hall, mem_touchedPaths_forEach hloop path]
  constructor
  · rintro ⟨source, hsource, hpath⟩
    exact ⟨source, (order.property.2 source).mp hsource, hpath⟩
  · rintro ⟨source, hsource, hpath⟩
    exact ⟨source, (order.property.2 source).mpr hsource, hpath⟩

/-- The name of a source, read as a path, ends strictly inside the folder it is
put behind. -/
def StaysInside (folder : List Path.Segment) (source : String) : Prop :=
  (Path.Detour.ofRoute (Path.segments source)).Returns folder

instance (folder : List Path.Segment) (source : String) : Decidable (StaysInside folder source) :=
  inferInstanceAs (Decidable (Path.Detour.Returns _ _))

theorem inside_baseTempDir_iff (cwd : List Path.Segment) (self : Trigger)
    (sourceCloneFolder suffix source : String) :
    Path.Inside (Path.resolve cwd (self.baseTempDir sourceCloneFolder suffix))
        (Path.resolve cwd (self.baseTempDir sourceCloneFolder suffix ++ "/" ++ source)) ↔
      StaysInside (Path.resolve cwd (self.baseTempDir sourceCloneFolder suffix)) source := by
  have hne : (self.baseTempDir sourceCloneFolder suffix).toList ≠ [] := by
    simp [Trigger.baseTempDir, String.toList_append]
  rw [Path.resolve_append cwd source hne]
  exact Path.inside_resolveFrom_iff _ _

/-- Every complete run of a task either finds no trigger and touches nothing, or
it finds a trigger and draws a suffix, and then every path it removes or writes
lies strictly inside its own base folder exactly if the names of all sources it
checks stay inside. -/
theorem confined_iff_staysInside (chrono : Rfc3339.Codec) (self : Trigger)
    (taskSources : TriggerTaskSources) (sourceCloneFolder : String) (cwd : List Path.Segment)
    (trace : List (Prog.Event Effect.Reply))
    (hruns : (self.createTriggerTask chrono taskSources sourceCloneFolder).Runs trace ()) :
    (trace.length = 1 ∧ touchedPaths trace = []) ∨
    ∃ (trigger : Trigger) (suffix : RandomString 8) (rest : List (Prog.Event Effect.Reply)),
      trace = ⟨.getTrigger self.name (some self.ns), some trigger⟩ ::
        ⟨.randomString 8, suffix⟩ :: rest ∧
      ((∀ path ∈ touchedPaths trace,
          Path.Inside (Path.resolve cwd (self.baseTempDir sourceCloneFolder suffix.val))
            (Path.resolve cwd path)) ↔
        ∀ source ∈ trigger.sourcesToCheck taskSources,
          StaysInside (Path.resolve cwd (self.baseTempDir sourceCloneFolder suffix.val))
            source) := by
  obtain ⟨_, _, trace, rfl, ⟨found, _, rfl, rfl, rfl⟩, hfound⟩ := Prog.runs_bind.mp hruns
  cases found with
  | none =>
      obtain ⟨rfl, -⟩ := hfound
      exact Or.inl ⟨rfl, rfl⟩
  | some trigger =>
      obtain ⟨_, _, rest, rfl, ⟨suffix, _, rfl, rfl, rfl⟩, htask⟩ := Prog.runs_bind.mp hfound
      refine Or.inr ⟨trigger, suffix, rest, rfl, ?_⟩
      have hpaths : ∀ path, path ∈ touchedPaths rest ↔ _ := mem_touchedPaths_runTask htask
      constructor
      · intro hinside source hsource
        rw [← inside_baseTempDir_iff]
        exact hinside _ ((hpaths _).mpr ⟨source, hsource, rfl⟩)
      · intro hstays path hpath
        obtain ⟨source, hsource, rfl⟩ := (hpaths path).mp hpath
        rw [inside_baseTempDir_iff]
        exact hstays source hsource

/-- A trigger with a single source. -/
def singleSource (source : String) : Trigger where
  kind := .webhookTrigger
  ns := "default"
  name := "trigger"
  sources := { names := [source] }
  action := { name := "action" }
  ns_plain := Trigger.default_ns_plain

/-- A run for that source in which every step succeeds. -/
def singleRun (source : String) : List (Prog.Event Effect.Reply) :=
  (((singleSource source).createTriggerTask Rfc3339.standard .all "/tmp").traceWith
    (obliging (singleSource source))).1

theorem confined_iff_staysInside_singleRun :
    (∀ path ∈ touchedPaths (singleRun "repo"),
      Path.Inside (Path.resolve [] "/tmp/default/trigger/aaaaaaaa") (Path.resolve [] path)) ∧
    ((singleRun "repo").length = 1 ∧ touchedPaths (singleRun "repo") = [] ∨
      ∃ (trigger : Trigger) (suffix : RandomString 8) (rest : List (Prog.Event Effect.Reply)),
        singleRun "repo" = ⟨.getTrigger "trigger" (some "default"), some trigger⟩ ::
          ⟨.randomString 8, suffix⟩ :: rest ∧
        ((∀ path ∈ touchedPaths (singleRun "repo"),
            Path.Inside (Path.resolve [] ((singleSource "repo").baseTempDir "/tmp" suffix.val))
              (Path.resolve [] path)) ↔
          ∀ source ∈ trigger.sourcesToCheck .all,
            StaysInside (Path.resolve [] ((singleSource "repo").baseTempDir "/tmp" suffix.val))
              source)) := by
  refine ⟨by decide +kernel, ?_⟩
  exact confined_iff_staysInside Rfc3339.standard (singleSource "repo") .all "/tmp" []
    (singleRun "repo") (Prog.runs_traceWith _ _)

/-- A source named `../../x` makes the run remove and write a folder next to
those of other triggers. -/
theorem not_confined_parent_source :
    ((singleSource "../../x").createTriggerTask Rfc3339.standard .all "/tmp").Runs
      (singleRun "../../x") () ∧
    ∃ path ∈ touchedPaths (singleRun "../../x"),
      Path.resolve [] path = Path.resolve [] "/tmp/default/x" ∧
      ¬ Path.Inside (Path.resolve [] "/tmp/default/trigger/aaaaaaaa") (Path.resolve [] path) := by
  refine ⟨Prog.runs_traceWith _ _, ?_⟩
  decide +kernel

end GitEventsRunner.Triggers
