/-
# The walk over a source folder

The watched files are hashed in the order in which a walk over the folder finds them.
The walk lists the entries of a folder as they are on the disk, sorts them with the
comparator of `get_file_glob_hash`, which sees their paths from the base folder on, and
then visits them.  Every task has a base folder of its own, with a random name.

A folder on disk is a tree of names here.  The walk over it finds the files of a
checkout, in the order of their paths, and which checkout it is can be read off the
tree by looking up paths.  So neither the listings nor the base folder nor the times
show in the hash.
-/

import GitEventsRunner.Lib.NameTree
import GitEventsRunner.Lib.Path
import GitEventsRunner.Triggers.FileHash
import GitEventsRunner.Triggers.Types

namespace GitEventsRunner.Triggers

open GitEventsRunner.Lib

/-! ## Comparing paths -/

/-- `std::path::Component`, with its order. -/
inductive Component
  | rootDir
  | curDir
  | parentDir
  | normal (name : Bytes)
  deriving DecidableEq, Repr, Ord

namespace Component

theorem compare_normal (a b : Bytes) : compare (normal a) (normal b) = compare a b := by
  show Ordering.then _ _ = _
  cases compare a b with
  | lt => rfl
  | eq => rfl
  | gt => rfl

instance : Std.ReflOrd Component where
  compare_self {component} := by
    cases component with
    | rootDir => rfl
    | curDir => rfl
    | parentDir => rfl
    | normal name =>
        rw [compare_normal]
        exact Std.ReflOrd.compare_self

end Component

/-- A segment of a path as a component.  An empty segment means nothing, and neither
does a dot. -/
def componentOf (segment : Path.Segment) : Option Component :=
  if segment = [] ∨ segment = ['.'] then none
  else if segment = ['.', '.'] then some .parentDir
  else some (.normal (String.ofList segment).toByteArray.data.toList)

/-- `Path::components`: a dot counts only where a relative path begins. -/
def components (path : String) : List Component :=
  let rest := (Path.segments path).filterMap componentOf
  match Path.segments path with
  | [] :: _ :: _ => .rootDir :: rest
  | ['.'] :: _ => .curDir :: rest
  | _ => rest

/-- The comparator of `get_file_glob_hash`: it compares the paths of two entries, which
begin with the base folder. -/
def comparePaths (folder : String) (p1 p2 : RelPath) : Ordering :=
  compare (components folder ++ p1.map .normal) (components folder ++ p2.map .normal)

/-- Entries of one folder are compared by their names. -/
theorem comparesNames_comparePaths (folder : String) :
    NameTree.ComparesNames (comparePaths folder) := by
  intro path a b
  rw [comparePaths, compare_append_append, List.map_append, List.map_append,
    compare_append_append, List.map_singleton, List.map_singleton, List.compare_cons_cons,
    Component.compare_normal]
  rw [← isLE_compare_iff_le]
  cases compare a b with
  | lt => rfl
  | eq => rfl
  | gt => rfl

/-! ## Folders on disk -/

/-- What is in a folder without being one: a regular file with the time of its last
change, or something else with what opening it comes to. -/
inductive DiskFile
  | regular (modified : ℕ) (content : Bytes)
  | other (opened : Except String Bytes)

/-- A folder on disk.  Each lists its names in the order of the disk, and has a time. -/
abbrev DiskTree := NameTree Bytes ℕ DiskFile

namespace DiskTree

/-- The content of a regular file. -/
def content : DiskTree → Option Bytes
  | .leaf (.regular _ content) => some content
  | .leaf (.other _) => none
  | .branch .. => none

/-- Read what is at a path. -/
def read (tree : DiskTree) (path : RelPath) : Except String Bytes :=
  match tree.descend path with
  | some (.leaf (.regular _ content)) => .ok content
  | some (.leaf (.other opened)) => opened
  | some (.branch ..) => .error "Is a directory"
  | none => .error "No such file or directory"

/-- The walker of `get_file_glob_hash`: of the entries of the sorted walk it takes the
regular files that the patterns select. -/
def globWalker (tree : DiskTree) (folder : String) (selects : RelPath → Bool) : List RelPath :=
  ((tree.walk (comparePaths folder) []).filter fun entry =>
    (content entry.2).isSome && selects entry.1).map Prod.fst

/-- The tree as the program sees it at a base folder. -/
def folder (globs : Globs) (tree : DiskTree) (folder : String) : Folder where
  walk patterns := (globs patterns).map fun selects =>
    (globWalker tree folder selects).map .ok
  read := read tree

/-- The map from the paths of the selected files to their contents. -/
def fileMap (globs : Globs) (patterns : List String) (tree : DiskTree) (path : RelPath) :
    Option Bytes :=
  match globs patterns with
  | .ok selects => if selects path then (tree.descend path).bind content else none
  | .error _ => none

/-! ## The checkout of a tree -/

/-- The regular files of a walk. -/
def regularFiles (entries : List (RelPath × DiskTree)) : List (RelPath × Bytes) :=
  entries.filterMap fun entry => (content entry.2).map fun content => (entry.1, content)

theorem regularFiles_pairwise (tree : DiskTree) (folder : String) :
    (regularFiles (tree.walk (comparePaths folder) [])).Pairwise fun a b => a.1 < b.1 := by
  apply (NameTree.walk_pairwise (comparesNames_comparePaths folder) tree []).filterMap
  intro a b hlt file hfile file' hfile'
  obtain ⟨content, -, rfl⟩ := Option.map_eq_some_iff.mp hfile
  obtain ⟨content', -, rfl⟩ := Option.map_eq_some_iff.mp hfile'
  exact hlt

/-- The regular files of a tree as a checkout. -/
def checkout (tree : DiskTree) (folder : String) : Checkout where
  files := regularFiles (tree.walk (comparePaths folder) [])
  ordered := regularFiles_pairwise tree folder

variable {globs : Globs} {patterns : List String} {tree : DiskTree} {folder : String}

/-- The checkout has the files that are in the tree. -/
theorem mem_files {path : RelPath} {bytes : Bytes} :
    (path, bytes) ∈ (checkout tree folder).files ↔
      (tree.descend path).bind content = some bytes := by
  constructor
  · intro h
    obtain ⟨⟨here, place⟩, hwalk, hfile⟩ := List.mem_filterMap.mp h
    obtain ⟨bytes', hcontent, heq⟩ := Option.map_eq_some_iff.mp hfile
    obtain ⟨rfl, rfl⟩ := Prod.mk.inj heq
    obtain ⟨below, rfl, hplace⟩ := NameTree.mem_walk.mp hwalk
    exact Option.bind_eq_some_iff.mpr ⟨place, hplace, hcontent⟩
  · intro h
    obtain ⟨place, hplace, hcontent⟩ := Option.bind_eq_some_iff.mp h
    have hwalk : (path, place) ∈ tree.walk (comparePaths folder) [] :=
      NameTree.mem_walk.mpr ⟨path, rfl, hplace⟩
    apply List.mem_filterMap.mpr ⟨(path, place), hwalk, _⟩
    exact Option.map_eq_some_iff.mpr ⟨bytes, hcontent, rfl⟩

/-- The map of the checkout is that of the tree. -/
theorem fileMap_checkout :
    (checkout tree folder).fileMap globs patterns = fileMap globs patterns tree := by
  funext path
  unfold Checkout.fileMap fileMap Checkout.selected
  cases globs patterns with
  | error message => rfl
  | ok selects =>
      ext bytes
      rw [lookup_eq_some_iff_mem (r := fun a b : RelPath => a < b)
        ((checkout tree folder).ordered.sublist List.filter_sublist), List.mem_filter, mem_files]
      by_cases hselects : selects path = true
      · simp [hselects]
      · simp [hselects]

/-- The walker finds the selected files of the checkout. -/
theorem globWalker_eq (selects : RelPath → Bool) :
    globWalker tree folder selects =
      ((checkout tree folder).files.filter fun file => selects file.1).map Prod.fst := by
  show ((tree.walk (comparePaths folder) []).filter _).map _ =
    ((regularFiles (tree.walk (comparePaths folder) [])).filter _).map _
  unfold regularFiles
  generalize tree.walk (comparePaths folder) [] = entries
  induction entries with
  | nil => rfl
  | cons entry entries ih =>
      cases hcontent : content entry.2 with
      | none => simp [hcontent, ih]
      | some bytes =>
          cases hselects : selects entry.1 with
          | false => simp [hcontent, hselects, ih]
          | true => simp [hcontent, hselects, ih]

/-- What is read of a regular file is its content. -/
theorem read_of_mem {file : RelPath × Bytes} (h : file ∈ (checkout tree folder).files) :
    read tree file.1 = .ok file.2 := by
  obtain ⟨place, hplace, hcontent⟩ := Option.bind_eq_some_iff.mp (mem_files.mp h)
  rw [read, hplace]
  match place, hcontent with
  | .leaf (.regular _ content), hcontent =>
      obtain rfl := Option.some.inj hcontent
      rfl

/-- The walk over the tree is the one over its checkout. -/
theorem walk_folder :
    (DiskTree.folder globs tree folder).walk patterns =
      ((checkout tree folder).folder globs).walk patterns := by
  show (globs patterns).map _ = (globs patterns).map _
  cases globs patterns with
  | error message => rfl
  | ok selects =>
      show Except.ok ((globWalker tree folder selects).map Except.ok) = _
      rw [globWalker_eq, List.map_map]
      rfl

/-- Hashing the files of a tree is hashing those of its checkout. -/
theorem getFileGlobHash_folder (sha256 : Digest) :
    Folder.getFileGlobHash sha256 (DiskTree.folder globs tree folder) patterns =
      Folder.getFileGlobHash sha256 ((checkout tree folder).folder globs) patterns := by
  rw [Folder.getFileGlobHash, Folder.getFileGlobHash, walk_folder]
  cases hwalk : ((checkout tree folder).folder globs).walk patterns with
  | error message => rfl
  | ok entries =>
      have hreads : ∀ path, Except.ok path ∈ entries →
          (DiskTree.folder globs tree folder).read path =
            ((checkout tree folder).folder globs).read path := by
        intro path hpath
        obtain ⟨file, hmem, rfl⟩ := Checkout.exists_file_of_mem_walk hwalk hpath
        rw [Checkout.read_of_mem hmem]
        exact read_of_mem hmem
      simp only [Folder.updateHasher_congr hreads]

end DiskTree

/-! ## Stability -/

/-- The hash as a task records it; none if hashing failed. -/
def hexHash : Except FileHashError Bytes → Option String
  | .ok hash => some (Hex.encode hash)
  | .error _ => none

/-- A source that was recorded with one hash and is found with another one looks
unchanged to a trigger that watches files. -/
def LooksUnchanged (before after : Except FileHashError Bytes) : Prop :=
  ∀ recorded found : CheckedSourceState, recorded.fileHash = hexHash before →
    found.fileHash = hexHash after → found.isEqual (some recorded) true = true

/-- Equal hashes look unchanged. -/
theorem looksUnchanged_refl (hash : Except FileHashError Bytes) : LooksUnchanged hash hash := by
  intro recorded found hrecorded hfound
  simp [CheckedSourceState.isEqual, hrecorded, hfound]

/-- The hash depends on the selected files only: two trees in which these are the same
have one hash, whatever the listings, the base folders and the times are, and an
unchanged checkout does not look changed. -/
theorem getFileGlobHash_eq_of_fileMap_eq (sha256 : Digest) (globs : Globs)
    (patterns : List String) (before after : DiskTree) (folder folder' : String)
    (h : before.fileMap globs patterns = after.fileMap globs patterns) :
    Folder.getFileGlobHash sha256 (before.folder globs folder) patterns =
        Folder.getFileGlobHash sha256 (after.folder globs folder') patterns ∧
      LooksUnchanged (Folder.getFileGlobHash sha256 (before.folder globs folder) patterns)
        (Folder.getFileGlobHash sha256 (after.folder globs folder') patterns) := by
  have hsame : Folder.getFileGlobHash sha256 (before.folder globs folder) patterns =
      Folder.getFileGlobHash sha256 (after.folder globs folder') patterns := by
    rw [DiskTree.getFileGlobHash_folder, DiskTree.getFileGlobHash_folder]
    cases hglobs : globs patterns with
    | error message =>
        rw [Checkout.getFileGlobHash_folder_error sha256 hglobs,
          Checkout.getFileGlobHash_folder_error sha256 hglobs]
    | ok selects =>
        have hselected : (before.checkout folder).selected globs patterns =
            (after.checkout folder').selected globs patterns := by
          apply Checkout.selected_eq_of_fileMap_eq
          rw [DiskTree.fileMap_checkout, DiskTree.fileMap_checkout]
          exact h
        rw [Checkout.getFileGlobHash_folder sha256 hglobs,
          Checkout.getFileGlobHash_folder sha256 hglobs, Checkout.contents, Checkout.contents,
          hselected]
  apply And.intro hsame
  rw [hsame]
  exact looksUnchanged_refl _

/-- A folder of files that contain their own names, all of one time. -/
def filesOf (time : ℕ) (names : List Bytes) (distinct : names.Nodup) : DiskTree :=
  .branch time names distinct fun name => .leaf (.regular time name)

theorem fileMap_filesOf {time time' : ℕ} {names names' : List Bytes} {distinct : names.Nodup}
    {distinct' : names'.Nodup} (h : names.Perm names') :
    (filesOf time names distinct).fileMap everyFile ["*"] =
      (filesOf time' names' distinct').fileMap everyFile ["*"] := by
  funext path
  simp only [DiskTree.fileMap, everyFile]
  cases path with
  | nil => rfl
  | cons name rest =>
      simp only [filesOf, NameTree.descend, h.mem_iff]
      cases rest with
      | nil => by_cases hname : name ∈ names' <;> simp [hname, NameTree.descend, DiskTree.content]
      | cons name' rest => simp [NameTree.descend]

/-- The files `a` and `b` in two orders, in two base folders and with two times. -/
theorem getFileGlobHash_eq_of_fileMap_eq_reordered :
    Folder.getFileGlobHash Sha256.digest
        ((filesOf 1 [[98], [97]] (by decide)).folder everyFile "/tmp/ns/t/aaaaaaaa/s") ["*"] =
      Folder.getFileGlobHash Sha256.digest
        ((filesOf 2 [[97], [98]] (by decide)).folder everyFile "/tmp/ns/t/bbbbbbbb/s") ["*"] :=
  (getFileGlobHash_eq_of_fileMap_eq _ _ _ _ _ _ _
    (fileMap_filesOf (List.Perm.swap [97] [98] []))).1

end GitEventsRunner.Triggers
