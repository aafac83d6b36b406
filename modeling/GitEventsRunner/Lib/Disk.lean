/-
# A tree of folders and what was made in it

A disk is the folders that exist on it, each by the segments of its place, with a
record of the folders that were made.  Removing a folder removes everything below
it; making a folder makes the missing folders on the way to it, perhaps only some
of them if it fails; and a tool that is pointed at a folder may make and remove
what it likes strictly inside.

All of these leave folders alone that are neither on the way to the folder in
question nor below it, and none removes anything outside of it.  `Touches` says
this of any number of such steps.
-/

import GitEventsRunner.Lib.Path

namespace GitEventsRunner.Lib

/-- The place of a folder. -/
abbrev Dir := List Path.Segment

/-- The folders that exist, and those that were made. -/
structure Disk where
  dirs : List Dir
  made : List Dir := []

namespace Disk

/-- Remove a folder with all that is in it. -/
def removeAll (disk : Disk) (path : Dir) : Disk :=
  { disk with dirs := disk.dirs.filter fun dir => ¬ path <+: dir }

/-- Make some folders. -/
def make (disk : Disk) (added : List Dir) : Disk := ⟨disk.dirs ++ added, disk.made ++ added⟩

/-- What making a folder with all its parents can do: missing folders on the way
to it are made, and all of them if it succeeds. -/
def CreatesAll (disk : Disk) (path : Dir) (ok : Bool) (next : Disk) : Prop :=
  ∃ added, (∀ dir ∈ added, dir <+: path ∧ dir ∉ disk.dirs) ∧
    (ok = true → ∀ dir, dir <+: path → dir ≠ [] → dir ∈ disk.dirs ++ added) ∧
    next = disk.make added

/-- What work strictly inside a folder can do: folders there are made, and not all
need to remain. -/
def WorksInside (disk : Disk) (path : Dir) (next : Disk) : Prop :=
  ∃ (added : List Dir) (keeps : Dir → Bool),
    (∀ dir ∈ added, Path.Inside path dir ∧ dir ∉ disk.dirs) ∧
    (∀ dir, keeps dir = false → Path.Inside path dir) ∧
    next = ⟨(disk.dirs ++ added).filter keeps, disk.made ++ added⟩

/-- All that happened concerns a folder, what is below it and the way to it, and
nothing outside of it was removed. -/
structure Touches (path : Dir) (disk next : Disk) : Prop where
  made_mono : ∀ dir ∈ disk.made, dir ∈ next.made
  kept : ∀ dir ∈ disk.dirs, ¬ path <+: dir → dir ∈ next.dirs
  new_dir : ∀ dir ∈ next.dirs, dir ∈ disk.dirs ∨ dir <+: path ∨ path <+: dir
  new_made : ∀ dir ∈ next.made, dir ∈ disk.made ∨ dir <+: path ∨ path <+: dir
  made_stays : ∀ dir ∈ next.made, ¬ path <+: dir → dir ∈ disk.made ∨ dir ∈ next.dirs

section Touches

variable {disk next last : Disk} {path : Dir}

theorem Touches.refl (path : Dir) (disk : Disk) : Touches path disk disk where
  made_mono _ h := h
  kept _ h _ := h
  new_dir _ h := Or.inl h
  new_made _ h := Or.inl h
  made_stays _ h _ := Or.inl h

theorem Touches.trans (h : Touches path disk next) (h' : Touches path next last) :
    Touches path disk last where
  made_mono dir hdir := h'.made_mono dir (h.made_mono dir hdir)
  kept dir hdir houtside := h'.kept dir (h.kept dir hdir houtside) houtside
  new_dir dir hdir := by
    rcases h'.new_dir dir hdir with hnext | hnew
    · exact h.new_dir dir hnext
    · exact Or.inr hnew
  new_made dir hdir := by
    rcases h'.new_made dir hdir with hnext | hnew
    · exact h.new_made dir hnext
    · exact Or.inr hnew
  made_stays dir hdir houtside := by
    rcases h'.made_stays dir hdir houtside with hnext | hlast
    · rcases h.made_stays dir hnext houtside with hdisk | hdirs
      · exact Or.inl hdisk
      · exact Or.inr (h'.kept dir hdirs houtside)
    · exact Or.inr hlast

theorem mem_dirs_removeAll {dir : Dir} :
    dir ∈ (disk.removeAll path).dirs ↔ dir ∈ disk.dirs ∧ ¬ path <+: dir := by
  simp [removeAll]

theorem touches_removeAll (disk : Disk) (path : Dir) : Touches path disk (disk.removeAll path) where
  made_mono _ h := h
  kept _ h houtside := mem_dirs_removeAll.mpr ⟨h, houtside⟩
  new_dir _ h := Or.inl (mem_dirs_removeAll.mp h).1
  new_made _ h := Or.inl h
  made_stays _ h _ := Or.inl h

theorem CreatesAll.touches {ok : Bool} (h : disk.CreatesAll path ok next) :
    Touches path disk next := by
  obtain ⟨added, hadded, -, rfl⟩ := h
  constructor
  case made_mono => exact fun dir hdir => List.mem_append_left _ hdir
  case kept => exact fun dir hdir _ => List.mem_append_left _ hdir
  case new_dir =>
    intro dir hdir
    exact (List.mem_append.mp hdir).imp id fun hnew => Or.inl (hadded dir hnew).1
  case new_made =>
    intro dir hdir
    exact (List.mem_append.mp hdir).imp id fun hnew => Or.inl (hadded dir hnew).1
  case made_stays =>
    intro dir hdir _
    exact (List.mem_append.mp hdir).imp id fun hnew => List.mem_append_right _ hnew

theorem WorksInside.touches (h : disk.WorksInside path next) : Touches path disk next := by
  obtain ⟨added, keeps, hadded, hkeeps, rfl⟩ := h
  have hkept : ∀ dir ∈ disk.dirs ++ added, ¬ path <+: dir →
      dir ∈ (disk.dirs ++ added).filter keeps := by
    intro dir hdir houtside
    rw [List.mem_filter]
    apply And.intro hdir
    by_contra hdropped
    exact houtside (hkeeps dir (Bool.not_eq_true _ ▸ hdropped)).1
  constructor
  case made_mono => exact fun dir hdir => List.mem_append_left _ hdir
  case kept => exact fun dir hdir => hkept dir (List.mem_append_left _ hdir)
  case new_dir =>
    intro dir hdir
    exact (List.mem_append.mp (List.mem_filter.mp hdir).1).imp id
      fun hnew => Or.inr (hadded dir hnew).1.1
  case new_made =>
    intro dir hdir
    exact (List.mem_append.mp hdir).imp id fun hnew => Or.inr (hadded dir hnew).1.1
  case made_stays =>
    intro dir hdir houtside
    exact (List.mem_append.mp hdir).imp id
      fun hnew => absurd (hadded dir hnew).1.1 houtside

end Touches

end Disk

end GitEventsRunner.Lib
