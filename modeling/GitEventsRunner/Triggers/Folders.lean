/-
# What a run leaves on the disk

A run clones each source to a folder of its own, below a base folder that only
this run uses.  The folder of a source is made before the source is looked up and
removed after its action was decided about; every failure in between goes on with
the next source and leaves the folder behind.  The base folder is made on the way
to the first of them, and nothing ever removes it.
-/

import GitEventsRunner.Lib.Disk
import GitEventsRunner.Lib.Surroundings
import GitEventsRunner.Triggers.Confinement

namespace GitEventsRunner.Triggers

open GitEventsRunner.Lib

/-- The effects of a task on the disk.  Removing succeeds; making a folder may
fail; cloning and checking out work inside the folder. -/
def OnDisk (cwd : Dir) (disk : Disk) : (e : Effect) → e.Reply → Disk → Prop
  | .removeDirAll path, _, next => next = disk.removeAll (Path.resolve cwd path)
  | .createDirAll path, ok, next => disk.CreatesAll (Path.resolve cwd path) ok next
  | .fetchRepoRef _ _ _ path _, _, next => disk.WorksInside (Path.resolve cwd path) next
  | .getLatestCommit path _, _, next => disk.WorksInside (Path.resolve cwd path) next
  | _, _, next => next = disk

/-- The effect is one of those. -/
def Effect.onDisk : Effect → Bool
  | .removeDirAll _ | .createDirAll _ | .fetchRepoRef .. | .getLatestCommit .. => true
  | _ => false

theorem OnDisk.eq_of_not_onDisk {cwd : Dir} {disk next : Disk} {e : Effect} {reply : e.Reply}
    (he : e.onDisk = false) (h : OnDisk cwd disk e reply next) : next = disk := by
  cases e with
  | removeDirAll | createDirAll | fetchRepoRef | getLatestCommit => cases he
  | _ => exact h

/-- A commit was found in the clone at a path. -/
def reachedCommit (path : String) (trace : List (Prog.Event Effect.Reply)) : Bool :=
  trace.any fun
    | ⟨.getLatestCommit found _, commit⟩ => found = path && commit.isSome
    | _ => false

theorem reachedCommit_append (path : String) (first second : List (Prog.Event Effect.Reply)) :
    reachedCommit path (first ++ second) =
      (reachedCommit path first || reachedCommit path second) :=
  List.any_append

/-! ## One source -/

section Iteration

variable {chrono : Rfc3339.Codec} {run : TaskRun} {source : String} {cwd : Dir}
  {disk next : Disk}

/-- What came of the folder of a source: all of it is gone if its commit was
found; else nothing was made there, or the folder was made and is still there. -/
structure SourceFolder (repo : Dir) (reached : Bool) (disk next : Disk) : Prop where
  touches : Disk.Touches repo disk next
  released : reached = true → ∀ dir, repo <+: dir → dir ∉ next.dirs
  leaked : reached = false → (∀ dir ∈ next.made, repo <+: dir → dir ∈ disk.made) ∨
    (repo ∈ next.made ∧ repo ∈ next.dirs)

theorem fileHash_onDisk {hash : Option String} {trace : List (Prog.Event Effect.Reply)}
    (h : (run.fileHash source).RunsIn (OnDisk cwd) disk trace next hash) :
    next = disk := by
  unfold TaskRun.fileHash at h
  split at h
  · obtain ⟨reply, _, _, rfl, rfl, ⟨rfl, rfl, -⟩⟩ := h
    rfl
  · exact h.2.1

theorem actAndRecord_onDisk {commit : String} {found : CheckedSourceState}
    {trace : List (Prog.Event Effect.Reply)}
    (h : (run.actAndRecord chrono source commit found).RunsIn (OnDisk cwd) disk trace next ()) :
    next = disk := by
  have hall : (run.actAndRecord chrono source commit found).All fun e => e.onDisk = false :=
    run.actAndRecord_all chrono source commit found rfl rfl rfl rfl fun _ => rfl
  exact h.state_eq hall fun _ _ _ _ => OnDisk.eq_of_not_onDisk

/-- Making a folder that is not there: it is there now, or it was not made. -/
theorem leaked_of_createsAll {repo : Dir} {ok : Bool} (hne : repo ≠ []) (hrepo : repo ∉ disk.dirs)
    (h : disk.CreatesAll repo ok next) :
    (repo ∈ next.made ∧ repo ∈ next.dirs) ∨
      (ok = false ∧ ∀ dir ∈ next.made, repo <+: dir → dir ∈ disk.made) := by
  obtain ⟨added, hadded, hok, rfl⟩ := h
  by_cases hmade : repo ∈ added
  · exact Or.inl ⟨List.mem_append_right _ hmade, List.mem_append_right _ hmade⟩
  · apply Or.inr
    constructor
    · cases ok with
      | false => rfl
      | true =>
          rcases List.mem_append.mp (hok rfl repo List.prefix_rfl hne) with hold | hnew
          · exact absurd hold hrepo
          · exact absurd hnew hmade
    · intro dir hdir hbelow
      rcases List.mem_append.mp hdir with hold | hnew
      · exact hold
      · have hsame := hbelow.eq_of_length_le (hadded dir hnew).1.length_le
        exact absurd (hsame ▸ hnew) hmade

/-- Work inside a folder leaves the folder. -/
theorem leaked_of_worksInside {repo : Dir} (h : disk.WorksInside repo next)
    (hrepo : repo ∈ disk.made ∧ repo ∈ disk.dirs) : repo ∈ next.made ∧ repo ∈ next.dirs := by
  obtain ⟨added, keeps, -, hkeeps, rfl⟩ := h
  apply And.intro (List.mem_append_left _ hrepo.1)
  rw [List.mem_filter]
  apply And.intro (List.mem_append_left _ hrepo.2)
  by_contra hdropped
  have hinside := hkeeps repo (Bool.not_eq_true _ ▸ hdropped)
  exact absurd hinside.2 (lt_irrefl _)

/-- One iteration, by how far it came. -/
theorem checkSource_onDisk (hne : Path.resolve cwd (run.repoPath source) ≠ [])
    {trace : List (Prog.Event Effect.Reply)}
    (h : (run.checkSource chrono source).RunsIn (OnDisk cwd) disk trace next ()) :
    SourceFolder (Path.resolve cwd (run.repoPath source))
      (reachedCommit (run.repoPath source) trace) disk next := by
  obtain ⟨_, _, _, rfl, rfl, hcreate⟩ := h.of_perform_bind
  obtain ⟨made, _, _, hcreates, rfl, hget⟩ := hcreate.of_perform_bind
  have hgone : Path.resolve cwd (run.repoPath source) ∉
      (disk.removeAll (Path.resolve cwd (run.repoPath source))).dirs :=
    fun hmem => (Disk.mem_dirs_removeAll.mp hmem).2 List.prefix_rfl
  have htouches := (disk.touches_removeAll _).trans (Disk.CreatesAll.touches hcreates)
  have hmade := leaked_of_createsAll hne hgone hcreates
  cases made with
  | false =>
      obtain ⟨rfl, rfl, -⟩ := hget
      exact ⟨htouches, nofun, fun _ => hmade.symm.imp And.right id⟩
  | true =>
      replace hmade := hmade.resolve_right nofun
      obtain ⟨found, _, _, rfl, rfl, hfetch⟩ := hget.of_perform_bind
      cases found with
      | false =>
          obtain ⟨rfl, rfl, -⟩ := hfetch
          exact ⟨htouches, nofun, fun _ => Or.inr hmade⟩
      | true =>
          obtain ⟨fetched, _, _, hclone, rfl, hlatest⟩ := hfetch.of_perform_bind
          replace htouches := htouches.trans (Disk.WorksInside.touches hclone)
          replace hmade := leaked_of_worksInside hclone hmade
          cases fetched with
          | false =>
              obtain ⟨rfl, rfl, -⟩ := hlatest
              exact ⟨htouches, nofun, fun _ => Or.inr hmade⟩
          | true =>
              obtain ⟨latest, _, _, hcheckout, rfl, hrest⟩ := hlatest.of_perform_bind
              replace htouches := htouches.trans (Disk.WorksInside.touches hcheckout)
              replace hmade := leaked_of_worksInside hcheckout hmade
              cases latest with
              | none =>
                  obtain ⟨rfl, rfl, -⟩ := hrest
                  refine ⟨htouches, ?_, fun _ => Or.inr hmade⟩
                  simp [reachedCommit]
              | some commit =>
                  obtain ⟨hash, _, hashing, _, rfl, hhash, hact⟩ := hrest.of_bind
                  obtain rfl := fileHash_onDisk hhash
                  obtain ⟨_, _, acting, _, rfl, hacting, hlast⟩ := hact.of_bind
                  obtain rfl := actAndRecord_onDisk hacting
                  obtain ⟨_, _, _, rfl, rfl, ⟨rfl, rfl, -⟩⟩ := hlast.of_perform_bind
                  refine ⟨htouches.trans (Disk.touches_removeAll _ _), ?_, ?_⟩
                  · intro _ dir hbelow hmem
                    exact (Disk.mem_dirs_removeAll.mp hmem).2 hbelow
                  · simp [reachedCommit]

end Iteration

/-! ## The loop -/

/-- The folders directly below one folder share nothing. -/
theorem eq_of_folders {base dir : Dir} {a b : String} (ha : base ++ [a.toList] <+: dir)
    (hb : base ++ [b.toList] <+: dir) : a = b := by
  have hlength : (base ++ [a.toList]).length = (base ++ [b.toList]).length := by simp
  have hsame := (List.prefix_of_prefix_length_le ha hb hlength.le).eq_of_length hlength
  exact String.toList_inj.mp (List.singleton_inj.mp (List.append_cancel_left hsame))

/-- What came of the base folder and of the folders of the sources so far. -/
structure Looped (base : Dir) (reached : String → Bool) (sources : List String) (disk : Disk) :
    Prop where
  base_made : base ∈ disk.made → base ∈ disk.dirs
  below : ∀ dir ∈ disk.made, base <+: dir →
    dir = base ∨ ∃ source ∈ sources, base ++ [source.toList] <+: dir
  released : ∀ source ∈ sources, reached source = true →
    ∀ dir, base ++ [source.toList] <+: dir → dir ∉ disk.dirs
  leaked : ∀ source ∈ sources, reached source = false →
    (∀ dir ∈ disk.made, ¬ base ++ [source.toList] <+: dir) ∨
      (base ++ [source.toList] ∈ disk.made ∧ base ++ [source.toList] ∈ disk.dirs)

section Loop

variable {base : Dir} {reached : String → Bool} {sources : List String} {disk next : Disk}

theorem looped_nil (base : Dir) (reached : String → Bool) (dirs : List Dir) :
    Looped base reached [] ⟨dirs, []⟩ where
  base_made := nofun
  below := nofun
  released := nofun
  leaked := nofun

/-- A folder of another source is neither on the way to this one nor below it. -/
theorem not_comparable {dir : Dir} {source other : String} (hne : other ≠ source)
    (hother : base ++ [other.toList] <+: dir) :
    ¬ (dir <+: base ++ [source.toList] ∨ base ++ [source.toList] <+: dir) := by
  rintro (hway | hbelow)
  · exact hne (eq_of_folders (hother.trans hway) List.prefix_rfl)
  · exact hne (eq_of_folders hother hbelow)

theorem base_notBelow (base : Dir) (source : String) : ¬ base ++ [source.toList] <+: base := by
  intro hbelow
  have hlength := hbelow.length_le
  rw [List.length_append, List.length_singleton] at hlength
  omega

/-- One more source. -/
theorem Looped.step {source : String} (h : Looped base reached sources disk)
    (hnew : source ∉ sources)
    (hfolder : SourceFolder (base ++ [source.toList]) (reached source) disk next) :
    Looped base reached (sources ++ [source]) next := by
  have hne : ∀ other ∈ sources, other ≠ source :=
    fun other hother => ne_of_mem_of_not_mem hother hnew
  constructor
  case base_made =>
    intro hmade
    rcases hfolder.touches.made_stays base hmade (base_notBelow base source) with hold | hthere
    · exact hfolder.touches.kept base (h.base_made hold) (base_notBelow base source)
    · exact hthere
  case below =>
    intro dir hmade hbelow
    have hlast : source ∈ sources ++ [source] := List.mem_append_right _ List.mem_cons_self
    rcases hfolder.touches.new_made dir hmade with hold | hway | hfolderBelow
    · rcases h.below dir hold hbelow with hbase | ⟨other, hother, hdir⟩
      · exact Or.inl hbase
      · exact Or.inr ⟨other, List.mem_append_left _ hother, hdir⟩
    · by_cases hlength : dir.length = base.length
      · exact Or.inl (hbelow.eq_of_length hlength.symm).symm
      · have hle := hbelow.length_le
        have hfull : (base ++ [source.toList]).length ≤ dir.length := by
          rw [List.length_append, List.length_singleton]
          omega
        rw [hway.eq_of_length_le hfull]
        exact Or.inr ⟨source, hlast, List.prefix_rfl⟩
    · exact Or.inr ⟨source, hlast, hfolderBelow⟩
  case released =>
    intro other hother hreached dir hdir hmem
    rcases List.mem_append.mp hother with hold | hsource
    · rcases hfolder.touches.new_dir dir hmem with hbefore | hcomparable
      · exact h.released other hold hreached dir hdir hbefore
      · exact not_comparable (hne other hold) hdir hcomparable
    · rw [List.mem_singleton.mp hsource] at hreached hdir
      exact hfolder.released hreached dir hdir hmem
  case leaked =>
    intro other hother hreached
    rcases List.mem_append.mp hother with hold | hsource
    · rcases h.leaked other hold hreached with hnone | ⟨hmade, hthere⟩
      · apply Or.inl
        intro dir hmem hdir
        rcases hfolder.touches.new_made dir hmem with hbefore | hcomparable
        · exact hnone dir hbefore hdir
        · exact not_comparable (hne other hold) hdir hcomparable
      · apply Or.inr
        apply And.intro (hfolder.touches.made_mono _ hmade)
        apply hfolder.touches.kept _ hthere
        intro hbelow
        exact not_comparable (hne other hold) List.prefix_rfl (Or.inr hbelow)
    · rw [List.mem_singleton.mp hsource] at hreached ⊢
      rcases hfolder.leaked hreached with hnone | hthere
      · apply Or.inl
        intro dir hmem hdir
        have hbase : base <+: dir := (List.prefix_append base _).trans hdir
        rcases h.below dir (hnone dir hmem hdir) hbase with rfl | ⟨other, hother, hother'⟩
        · exact base_notBelow dir source hdir
        · exact hne other hother (eq_of_folders hother' hdir)
      · exact Or.inr hthere

end Loop

section Runs

variable {chrono : Rfc3339.Codec} {run : TaskRun} {cwd base : Dir} {reached : String → Bool}
  {disk next : Disk} {trace : List (Prog.Event Effect.Reply)}

theorem TaskRun.repoPath_injective {a b : String} (h : run.repoPath a = run.repoPath b) :
    a = b := by
  have htext := congrArg String.toList h
  simp only [TaskRun.repoPath, String.toList_append] at htext
  exact String.toList_inj.mp (List.append_cancel_left htext)

/-- The clone in which an effect looks for a commit. -/
def Effect.clone : Effect → Option String
  | .getLatestCommit path _ => some path
  | _ => none

/-- An iteration looks for a commit in the clone of its source only. -/
theorem TaskRun.MayPerform.clone_ne {source other : String} {e : Effect}
    (h : run.MayPerform source e) (hne : source ≠ other) :
    e.clone ≠ some (run.repoPath other) := by
  cases h with
  | getLatestCommit =>
      intro hsame
      exact hne (TaskRun.repoPath_injective (Option.some.inj hsame))
  | _ => nofun

theorem reachedCommit_of_all {α : Type} {p : TriggerTask α} {path : String} {a : α}
    (hall : p.All fun e => e.clone ≠ some path) (h : p.Runs trace a) :
    reachedCommit path trace = false := by
  apply List.any_eq_false.mpr
  rintro ⟨e, reply⟩ hmem
  have hne := hall.of_runs h ⟨e, reply⟩ hmem
  cases e with
  | getLatestCommit found reference =>
      have hdiffers : found ≠ path := fun hsame => hne (congrArg some hsame)
      simp [hdiffers]
  | _ => nofun

/-- The loop over the sources. -/
theorem forEach_onDisk {sources order : List String} (hnodup : (sources ++ order).Nodup)
    (hpath : ∀ source ∈ order, Path.resolve cwd (run.repoPath source) = base ++ [source.toList])
    (hreached : ∀ source ∈ order, reached source = reachedCommit (run.repoPath source) trace)
    (h : Looped base reached sources disk)
    (hruns : (Prog.forEach (run.checkSource chrono) order).RunsIn (OnDisk cwd) disk trace next
      ()) : Looped base reached (sources ++ order) next := by
  induction order generalizing sources disk trace with
  | nil =>
      obtain ⟨rfl, rfl, -⟩ := hruns
      rw [List.append_nil]
      exact h
  | cons first order ih =>
      obtain ⟨_, _, head, tail, rfl, hhead, htail⟩ := hruns.of_bind
      have hfresh := (List.nodup_cons.mp (List.nodup_middle.mp hnodup)).1
      obtain ⟨hnew, hfirst⟩ := not_or.mp (mt List.mem_append.mpr hfresh)
      have hneFirst : ∀ other ∈ order, other ≠ first :=
        fun other hother => ne_of_mem_of_not_mem hother hfirst
      -- the rest of the loop says nothing about this clone, nor this iteration about the others
      have htailFirst : reachedCommit (run.repoPath first) tail = false := by
        apply reachedCommit_of_all _ htail.runs
        apply Prog.all_forEach
        intro other hother
        apply (run.checkSource_all chrono other).mono
        intro e he
        exact he.clone_ne (hneFirst other hother)
      have hheadOther : ∀ other ∈ order, reachedCommit (run.repoPath other) head = false := by
        intro other hother
        apply reachedCommit_of_all _ hhead.runs
        exact (run.checkSource_all chrono first).mono
          fun e he => he.clone_ne (hneFirst other hother).symm
      have hreachedFirst : reached first = reachedCommit (run.repoPath first) head := by
        rw [hreached first List.mem_cons_self, reachedCommit_append, htailFirst, Bool.or_false]
      have hpathFirst := hpath first List.mem_cons_self
      have hfolder := checkSource_onDisk (by rw [hpathFirst]; simp) hhead
      rw [hpathFirst, ← hreachedFirst] at hfolder
      rw [List.append_cons] at hnodup ⊢
      apply ih hnodup (fun other hother => hpath other (List.mem_cons_of_mem _ hother)) _
        (h.step hnew hfolder) htail
      intro other hother
      rw [hreached other (List.mem_cons_of_mem _ hother), reachedCommit_append,
        hheadOther other hother, Bool.false_or]

/-- A status update leaves the disk alone and looks for no commit. -/
theorem updateTriggerStatus_onDisk {trigger : Trigger} {update : StatusUpdate} {ok : Bool}
    (h : (trigger.updateTriggerStatus update).RunsIn (OnDisk cwd) disk trace next ok) :
    next = disk ∧ ∀ path, reachedCommit path trace = false := by
  have hall : (trigger.updateTriggerStatus update).All fun e => e.onDisk = false :=
    TaskRun.updateTriggerStatus_all trigger update rfl fun _ => rfl
  apply And.intro (h.state_eq hall fun _ _ _ _ => OnDisk.eq_of_not_onDisk)
  intro path
  exact reachedCommit_of_all
    (TaskRun.updateTriggerStatus_all trigger update nofun fun _ => nofun) h.runs

end Runs

/-! ## Whole runs -/

section WholeRun

variable (cwd : Dir) (base : String) (sources : List String)
  (trace : List (Prog.Event Effect.Reply)) (disk : Disk)

/-- Every directory that was made at the base folder or below is gone. -/
def Released : Prop := ∀ dir ∈ disk.made, Path.resolve cwd base <+: dir → dir ∉ disk.dirs

/-- The base folder was not made, and for every source the commit was found or
nothing was made. -/
def LeavesNothing : Prop :=
  Path.resolve cwd base ∉ disk.made ∧
    ∀ source ∈ sources, reachedCommit (base ++ "/" ++ source) trace = true ∨
      ∀ dir ∈ disk.made, ¬ Path.resolve cwd (base ++ "/" ++ source) <+: dir

end WholeRun

theorem Looped.released_iff {cwd : Dir} {base : String} {sources : List String}
    {trace : List (Prog.Event Effect.Reply)} {disk : Disk}
    (hpath : ∀ source ∈ sources,
      Path.resolve cwd (base ++ "/" ++ source) = Path.resolve cwd base ++ [source.toList])
    (h : Looped (Path.resolve cwd base) (fun source => reachedCommit (base ++ "/" ++ source) trace)
      sources disk) :
    Released cwd base disk ↔ LeavesNothing cwd base sources trace disk := by
  constructor
  · intro hreleased
    constructor
    · intro hmade
      exact hreleased _ hmade List.prefix_rfl (h.base_made hmade)
    · intro source hsource
      rw [hpath source hsource]
      cases hreached : reachedCommit (base ++ "/" ++ source) trace with
      | true => exact Or.inl rfl
      | false =>
          rcases h.leaked source hsource hreached with hnone | ⟨hmade, hthere⟩
          · exact Or.inr hnone
          · exact absurd hthere (hreleased _ hmade (List.prefix_append _ _))
  · rintro ⟨hbase, hsources⟩ dir hmade hbelow
    rcases h.below dir hmade hbelow with rfl | ⟨source, hsource, hdir⟩
    · exact absurd hmade hbase
    · rcases hsources source hsource with hreached | hnone
      · exact h.released source hsource hreached dir hdir
      · rw [hpath source hsource] at hnone
        exact absurd hdir (hnone dir hmade)

/-- What a run does after it found the trigger and drew a suffix. -/
theorem runTask_onDisk {chrono : Rfc3339.Codec} {cwd : Dir} {self trigger : Trigger}
    {taskSources : TriggerTaskSources} {sourceCloneFolder suffix : String} {dirs : List Dir}
    {trace : List (Prog.Event Effect.Reply)} {next : Disk}
    (hplain : ∀ source ∈ trigger.sourcesToCheck taskSources, Path.Plain source)
    (hruns : (self.runTask chrono taskSources sourceCloneFolder trigger suffix).RunsIn (OnDisk cwd)
      ⟨dirs, []⟩ trace next ()) :
    Released cwd (self.baseTempDir sourceCloneFolder suffix) next ↔
      LeavesNothing cwd (self.baseTempDir sourceCloneFolder suffix)
        (trigger.sourcesToCheck taskSources) trace next := by
  obtain ⟨_, _, running, _, rfl, hrunning, hchecks⟩ := hruns.of_bind
  obtain ⟨rfl, hquiet⟩ := updateTriggerStatus_onDisk hrunning
  obtain ⟨order, _, _, rfl, rfl, hordered⟩ := hchecks.of_perform_bind
  obtain ⟨_, _, loop, _, rfl, hloop, hend⟩ := hordered.of_bind
  obtain ⟨lastRun, _, _, rfl, rfl, hlast⟩ := hend.of_perform_bind
  obtain ⟨_, _, idle, _, rfl, hidle, ⟨rfl, rfl, -⟩⟩ := hlast.of_bind
  obtain ⟨rfl, hquietEnd⟩ := updateTriggerStatus_onDisk hidle
  have horder := order.property.2
  have hbase : (self.baseTempDir sourceCloneFolder suffix).toList ≠ [] := by
    simp [Trigger.baseTempDir]
  have hpath : ∀ source ∈ order.val,
      Path.resolve cwd (self.baseTempDir sourceCloneFolder suffix ++ "/" ++ source) =
        Path.resolve cwd (self.baseTempDir sourceCloneFolder suffix) ++ [source.toList] :=
    fun source hsource => Path.resolve_append_of_plain cwd hbase
      (hplain source ((horder source).mp hsource))
  have hreached : ∀ path, reachedCommit path (running ++ ⟨.iterHashSet _, order⟩ ::
      (loop ++ ⟨.utcNow, lastRun⟩ :: (idle ++ []))) = reachedCommit path loop := by
    intro path
    rw [reachedCommit_append, hquiet, Bool.false_or]
    show reachedCommit path (loop ++ ⟨.utcNow, lastRun⟩ :: (idle ++ [])) = _
    rw [reachedCommit_append, List.append_nil]
    show (reachedCommit path loop || reachedCommit path idle) = _
    rw [hquietEnd, Bool.or_false]
  generalize running ++ ⟨.iterHashSet _, order⟩ :: (loop ++ ⟨.utcNow, lastRun⟩ :: (idle ++ [])) =
    trace at hreached ⊢
  have hlooped : Looped (Path.resolve cwd (self.baseTempDir sourceCloneFolder suffix))
      (fun source => reachedCommit (self.baseTempDir sourceCloneFolder suffix ++ "/" ++ source)
        trace) ([] ++ order.val) next := by
    apply forEach_onDisk _ _ _ (looped_nil _ _ dirs) hloop
    · exact order.property.1
    · exact hpath
    · intro source _
      exact hreached _
  rw [List.nil_append] at hlooped
  rw [hlooped.released_iff hpath]
  simp only [LeavesNothing, horder]

/-- A run that found its trigger and drew a suffix releases all it made for its
base folder exactly if it did not make the base folder and came, for every
source, to its commit or made nothing. -/
theorem released_iff_leavesNothing (chrono : Rfc3339.Codec) (cwd : Dir) (self : Trigger)
    (taskSources : TriggerTaskSources) (sourceCloneFolder : String) (dirs : List Dir)
    (trace : List (Prog.Event Effect.Reply)) (next : Disk)
    (hruns : (self.createTriggerTask chrono taskSources sourceCloneFolder).RunsIn (OnDisk cwd)
      ⟨dirs, []⟩ trace next ())
    (trigger : Trigger) (suffix : RandomString 8) (rest : List (Prog.Event Effect.Reply))
    (htrace : trace = ⟨.getTrigger self.name (some self.ns), some trigger⟩ ::
      ⟨.randomString 8, suffix⟩ :: rest)
    (hplain : ∀ source ∈ trigger.sourcesToCheck taskSources, Path.Plain source) :
    Released cwd (self.baseTempDir sourceCloneFolder suffix.val) next ↔
      LeavesNothing cwd (self.baseTempDir sourceCloneFolder suffix.val)
        (trigger.sourcesToCheck taskSources) trace next := by
  subst htrace
  obtain ⟨found, _, _, rfl, hread, hfound⟩ := hruns.of_perform_bind
  injection hread with hread hrest
  cases hread
  obtain ⟨drawn, _, _, rfl, rfl, hrun⟩ := hfound.of_perform_bind
  injection hrest with hdrawn hrest
  cases hdrawn
  subst hrest
  -- neither of the first two questions is about a commit
  have hiff := runTask_onDisk hplain hrun
  exact hiff

/-! ## A disk on which nothing fails -/

/-- The folders of the list that are missing. -/
def missingOn (disk : Disk) (dirs : List Dir) : List Dir :=
  dirs.filter fun dir => dir ∉ disk.dirs

/-- All folders on the way to a place, and the place. -/
def onTheWay (path : Dir) : List Dir := path.inits.filter fun dir => dir ≠ []

/-- Every folder can be made, and a clone has a folder `.git`. -/
def diskAnswer (oracle : (e : Effect) → e.Reply) (disk : Disk) :
    (e : Effect) → e.Reply × Disk
  | .removeDirAll path => (true, disk.removeAll (Path.resolve [] path))
  | .createDirAll path => (true, disk.make (missingOn disk (onTheWay (Path.resolve [] path))))
  | .fetchRepoRef kind name refName path ns => (oracle (.fetchRepoRef kind name refName path ns),
      disk.make (missingOn disk [Path.resolve [] path ++ [".git".toList]]))
  | e => (oracle e, disk)

theorem worksInside_make (disk : Disk) {path : Dir} {added : List Dir}
    (h : ∀ dir ∈ added, Path.Inside path dir ∧ dir ∉ disk.dirs) :
    disk.WorksInside path (disk.make added) := by
  refine ⟨added, fun _ => true, h, nofun, ?_⟩
  rw [List.filter_true]
  rfl

theorem onDisk_diskAnswer (oracle : (e : Effect) → e.Reply) (disk : Disk) (e : Effect) :
    OnDisk [] disk e (diskAnswer oracle disk e).1 (diskAnswer oracle disk e).2 := by
  cases e with
  | createDirAll path =>
      refine ⟨_, ?_, ?_, rfl⟩
      · intro dir hdir
        simp only [missingOn, onTheWay, List.mem_filter, List.mem_inits,
          decide_eq_true_eq] at hdir
        exact ⟨hdir.1.1, hdir.2⟩
      · intro _ dir hway hne
        by_cases hmem : dir ∈ disk.dirs
        · exact List.mem_append_left _ hmem
        · apply List.mem_append_right
          simp only [missingOn, onTheWay, List.mem_filter, List.mem_inits, decide_eq_true_eq]
          exact ⟨⟨hway, hne⟩, hmem⟩
  | fetchRepoRef kind name refName path ns =>
      apply worksInside_make
      intro dir hdir
      simp only [missingOn, List.mem_filter, List.mem_singleton, decide_eq_true_eq] at hdir
      refine ⟨?_, hdir.2⟩
      rw [hdir.1]
      exact ⟨List.prefix_append _ _, by simp⟩
  | getLatestCommit path reference =>
      have hnothing : disk.WorksInside (Path.resolve [] path) (disk.make []) :=
        worksInside_make disk (by simp)
      rw [Disk.make, List.append_nil, List.append_nil] at hnothing
      exact hnothing
  | _ => rfl

/-- A run on such a disk in which every other step succeeds too. -/
def diskRun (dirs : List Dir) : List (Prog.Event Effect.Reply) × Disk :=
  let result := ((singleSource "repo").createTriggerTask Rfc3339.standard .all "/tmp").runWith
    (diskAnswer (obliging (singleSource "repo"))) ⟨dirs, []⟩
  (result.1, result.2.1)

theorem runsIn_diskRun (dirs : List Dir) :
    ((singleSource "repo").createTriggerTask Rfc3339.standard .all "/tmp").RunsIn (OnDisk [])
      ⟨dirs, []⟩ (diskRun dirs).1 (diskRun dirs).2 () :=
  Prog.runsIn_runWith (onDisk_diskAnswer (obliging (singleSource "repo"))) _ _

/-- A run whose base folder is there already. -/
theorem released_iff_leavesNothing_existingBase :
    (diskRun (onTheWay (Path.resolve [] "/tmp/default/trigger/aaaaaaaa"))).2.made ≠ [] ∧
    Released [] "/tmp/default/trigger/aaaaaaaa"
      (diskRun (onTheWay (Path.resolve [] "/tmp/default/trigger/aaaaaaaa"))).2 := by
  apply And.intro (by decide +kernel)
  have hplain : ∀ source ∈ (singleSource "repo").sourcesToCheck .all, Path.Plain source := by
    decide +kernel
  apply (released_iff_leavesNothing Rfc3339.standard [] (singleSource "repo") .all "/tmp" _ _ _
    (runsIn_diskRun (onTheWay (Path.resolve [] "/tmp/default/trigger/aaaaaaaa")))
    (singleSource "repo") (obliging (singleSource "repo") (.randomString 8)) _ rfl hplain).mpr
  unfold LeavesNothing
  decide +kernel

/-- Every step succeeds, and the base folder stays. -/
theorem not_released_base :
    ((singleSource "repo").createTriggerTask Rfc3339.standard .all "/tmp").RunsIn (OnDisk [])
      ⟨[Path.resolve [] "/tmp"], []⟩ (diskRun [Path.resolve [] "/tmp"]).1
      (diskRun [Path.resolve [] "/tmp"]).2 () ∧
    reachedCommit "/tmp/default/trigger/aaaaaaaa/repo" (diskRun [Path.resolve [] "/tmp"]).1 = true ∧
    ¬ Released [] "/tmp/default/trigger/aaaaaaaa" (diskRun [Path.resolve [] "/tmp"]).2 := by
  apply And.intro (runsIn_diskRun _)
  apply And.intro (by decide +kernel)
  unfold Released
  decide +kernel

end GitEventsRunner.Triggers
