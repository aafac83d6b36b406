/-
# Hashing the watched files

`get_file_glob_hash` walks over a folder, takes the regular files that the
patterns select, in the order of their paths, and hashes the hashes of their
contents.  The paths themselves are not hashed.

Which paths a list of patterns selects is the business of the glob library; here
it is a parameter, and so is the digest.  A checkout is what the walk finds if
nothing goes wrong on the way.
-/

import GitEventsRunner.Lib.Digest
import GitEventsRunner.Lib.HashMap
import GitEventsRunner.Lib.Sha256

namespace GitEventsRunner.Triggers

open GitEventsRunner.Lib

/-- A path below the folder that is walked, by its components.  They are compared
one after the other, each byte by byte. -/
abbrev RelPath := List Bytes

/-- The errors of hashing watched files. -/
inductive FileHashError
  | triggerFileAccessError (message : String)
  | triggerDirWalkError (message : String)
  | triggerFilePatternError (message : String)
  deriving DecidableEq, Repr

/-- A folder as the program sees it: the walk over it with some patterns, which
cannot begin with a malformed pattern and may fail at any entry, and the contents
of its files. -/
structure Folder where
  walk : List String → Except String (List (Except String RelPath))
  read : RelPath → Except String Bytes

namespace Folder

variable (sha256 : Digest)

/-- `calc_buffer_hash` -/
def calcBufferHash (buf : Bytes) : Bytes := sha256.hash buf

/-- `calc_file_hash` -/
def calcFileHash (folder : Folder) (path : RelPath) : Except FileHashError Bytes :=
  match folder.read path with
  | .ok buf => .ok (calcBufferHash sha256 buf)
  | .error message => .error (.triggerFileAccessError message)

/-- The loop of `get_file_glob_hash` over the walk.  The state of a hasher is what
it was updated with. -/
def updateHasher (folder : Folder) (hasher : Bytes) :
    List (Except String RelPath) → Except FileHashError Bytes
  | [] => .ok hasher
  | .error message :: _ => .error (.triggerDirWalkError message)
  | .ok path :: rest =>
      match calcFileHash sha256 folder path with
      | .ok hash => updateHasher folder (hasher ++ hash) rest
      | .error error => .error error

/-- `get_file_glob_hash` -/
def getFileGlobHash (folder : Folder) (glob : List String) : Except FileHashError Bytes :=
  match folder.walk glob with
  | .error message => .error (.triggerFilePatternError message)
  | .ok entries =>
      match updateHasher sha256 folder [] entries with
      | .ok hasher => .ok (sha256.hash hasher)
      | .error error => .error error

/-- Only what is read of the files of the walk matters. -/
theorem updateHasher_congr {sha256 : Digest} {folder other : Folder}
    {entries : List (Except String RelPath)}
    (h : ∀ path, Except.ok path ∈ entries → folder.read path = other.read path) (hasher : Bytes) :
    folder.updateHasher sha256 hasher entries = other.updateHasher sha256 hasher entries := by
  induction entries generalizing hasher with
  | nil => rfl
  | cons entry entries ih =>
      cases entry with
      | error message => rfl
      | ok path =>
          have hhash : folder.calcFileHash sha256 path = other.calcFileHash sha256 path := by
            rw [calcFileHash, calcFileHash, h path List.mem_cons_self]
          rw [updateHasher, updateHasher, hhash]
          cases other.calcFileHash sha256 path with
          | ok hash => exact ih (fun path hpath => h path (List.mem_cons_of_mem _ hpath)) _
          | error error => rfl

end Folder

/-! ## Checkouts -/

/-- The paths a list of patterns selects, or why it is malformed. -/
abbrev Globs := List String → Except String (RelPath → Bool)

/-- The regular files of a folder, in the order of their paths. -/
structure Checkout where
  files : List (RelPath × Bytes)
  ordered : files.Pairwise fun a b => a.1 < b.1

namespace Checkout

variable (globs : Globs) (patterns : List String) (checkout : Checkout)

/-- The files the patterns select; malformed patterns select none. -/
def selected : List (RelPath × Bytes) :=
  match globs patterns with
  | .ok selects => checkout.files.filter fun file => selects file.1
  | .error _ => []

/-- The map from the paths of the selected files to their contents. -/
def fileMap (path : RelPath) : Option Bytes := (checkout.selected globs patterns).lookup path

/-- The contents of the selected files, in the order of their paths. -/
def contents : List Bytes := (checkout.selected globs patterns).map Prod.snd

/-- The folder with these files. -/
def folder : Folder where
  walk patterns := (globs patterns).map fun selects =>
    (checkout.files.filter fun file => selects file.1).map fun file => .ok file.1
  read path := (checkout.files.lookup path).elim (.error "No such file or directory") .ok

variable {globs patterns checkout}

theorem selected_sublist : (checkout.selected globs patterns).Sublist checkout.files := by
  unfold selected
  split
  · exact List.filter_sublist
  · exact List.nil_sublist _

/-- The selected files are given by the map. -/
theorem selected_eq_of_fileMap_eq {other : Checkout}
    (h : checkout.fileMap globs patterns = other.fileMap globs patterns) :
    checkout.selected globs patterns = other.selected globs patterns := by
  apply eq_of_lookup_eq (r := fun a b : RelPath => a < b)
    (checkout.ordered.sublist selected_sublist) (other.ordered.sublist selected_sublist)
  intro path
  exact congrFun h path

/-- Reading a file of the checkout. -/
theorem read_of_mem {file : RelPath × Bytes} (h : file ∈ checkout.files) :
    (checkout.folder globs).read file.1 = .ok file.2 := by
  have hlookup : checkout.files.lookup file.1 = some file.2 :=
    (lookup_eq_some_iff_mem checkout.ordered).mpr h
  show (checkout.files.lookup file.1).elim _ _ = _
  rw [hlookup]
  rfl

/-- The walk finds files of the checkout. -/
theorem exists_file_of_mem_walk {entries : List (Except String RelPath)} {path : RelPath}
    (h : (checkout.folder globs).walk patterns = .ok entries) (hpath : .ok path ∈ entries) :
    ∃ file ∈ checkout.files, file.1 = path := by
  cases hglobs : globs patterns with
  | error message =>
      simp only [folder, hglobs, Except.map] at h
      cases h
  | ok selects =>
      simp only [folder, hglobs, Except.map, Except.ok.injEq] at h
      rw [← h] at hpath
      obtain ⟨file, hfile, heq⟩ := List.mem_map.mp hpath
      exact ⟨file, (List.mem_filter.mp hfile).1, Except.ok.inj heq⟩

/-- The hasher collects the hashes of the contents. -/
theorem updateHasher_folder (sha256 : Digest) {files : List (RelPath × Bytes)}
    (h : ∀ file ∈ files, file ∈ checkout.files) (hasher : Bytes) :
    Folder.updateHasher sha256 (checkout.folder globs) hasher (files.map fun file => .ok file.1) =
      .ok (hasher ++ sha256.joint (files.map Prod.snd)) := by
  induction files generalizing hasher with
  | nil =>
      rw [List.map_nil, List.map_nil, Digest.joint, List.flatMap_nil, List.append_nil]
      rfl
  | cons file files ih =>
      have hhash : Folder.calcFileHash sha256 (checkout.folder globs) file.1 =
          .ok (sha256.hash file.2) := by
        rw [Folder.calcFileHash, read_of_mem (h file List.mem_cons_self)]
        rfl
      have hrest := ih (fun other hother => h other (List.mem_cons_of_mem _ hother))
        (hasher ++ sha256.hash file.2)
      rw [List.map_cons, Folder.updateHasher, hhash]
      rw [List.append_assoc] at hrest
      exact hrest

/-- The hash of a checkout is the digest of the list of the selected contents. -/
theorem getFileGlobHash_folder (sha256 : Digest) {selects : RelPath → Bool}
    (h : globs patterns = .ok selects) :
    Folder.getFileGlobHash sha256 (checkout.folder globs) patterns =
      .ok (sha256.chain (checkout.contents globs patterns)) := by
  have hselected : checkout.selected globs patterns =
      checkout.files.filter fun file => selects file.1 := by
    rw [selected, h]
  have hwalk : (checkout.folder globs).walk patterns =
      .ok ((checkout.selected globs patterns).map fun file => .ok file.1) := by
    show (globs patterns).map _ = _
    rw [hselected, h]
    rfl
  rw [Folder.getFileGlobHash, hwalk]
  simp only [updateHasher_folder sha256 (fun file hfile => selected_sublist.mem hfile) []]
  rfl

/-- Malformed patterns are an error. -/
theorem getFileGlobHash_folder_error (sha256 : Digest) {message : String}
    (h : globs patterns = .error message) :
    Folder.getFileGlobHash sha256 (checkout.folder globs) patterns =
      .error (.triggerFilePatternError message) := by
  have hwalk : (checkout.folder globs).walk patterns = .error message := by
    show (globs patterns).map _ = _
    rw [h]
    rfl
  rw [Folder.getFileGlobHash, hwalk]

end Checkout

/-! ## What the hash tells apart -/

section Sensitivity

variable (sha256 : Digest) (globs : Globs) (patterns : List String) (first second : Checkout)

/-- If the maps of the selected files differ, the hashes do. -/
def HashSensitive : Prop :=
  first.fileMap globs patterns ≠ second.fileMap globs patterns →
    Folder.getFileGlobHash sha256 (first.folder globs) patterns ≠
      Folder.getFileGlobHash sha256 (second.folder globs) patterns

/-- Nothing that is hashed for one of the checkouts collides with anything hashed
for them. -/
def HashesApart : Prop :=
  sha256.CollisionFree (sha256.hashed (first.contents globs patterns) ++
    sha256.hashed (second.contents globs patterns))

/-- The files were not only moved: if the maps differ, so do the contents one
after the other. -/
def ContentsTellApart : Prop :=
  first.fileMap globs patterns ≠ second.fileMap globs patterns →
    first.contents globs patterns ≠ second.contents globs patterns

variable {sha256 globs patterns first second}

/-- Two checkouts have the same hash if their contents are the same one after the
other. -/
theorem getFileGlobHash_eq_iff {selects : RelPath → Bool} (hvalid : globs patterns = .ok selects)
    (hapart : HashesApart sha256 globs patterns first second) :
    Folder.getFileGlobHash sha256 (first.folder globs) patterns =
        Folder.getFileGlobHash sha256 (second.folder globs) patterns ↔
      first.contents globs patterns = second.contents globs patterns := by
  rw [Checkout.getFileGlobHash_folder sha256 hvalid, Checkout.getFileGlobHash_folder sha256 hvalid,
    Except.ok.injEq]
  exact Digest.chain_eq_iff hapart

end Sensitivity

/-- The hash is sensitive to the selected files exactly if these were not only
renamed or moved in a way that keeps the contents in order. -/
theorem hashSensitive_iff_contentsTellApart (sha256 : Digest) (globs : Globs)
    (patterns : List String) (first second : Checkout)
    (hapart : HashesApart sha256 globs patterns first second) :
    HashSensitive sha256 globs patterns first second ↔
      ContentsTellApart globs patterns first second := by
  apply imp_congr_right
  intro hdiffer
  cases hvalid : globs patterns with
  | ok selects => exact not_congr (getFileGlobHash_eq_iff hvalid hapart)
  | error message =>
      -- malformed patterns select nothing, so the maps do not differ
      have hnone : ∀ checkout : Checkout, checkout.selected globs patterns = [] := by
        intro checkout
        rw [Checkout.selected, hvalid]
      apply absurd _ hdiffer
      unfold Checkout.fileMap
      rw [hnone, hnone]

/-- Patterns that select every file. -/
def everyFile : Globs := fun _ => .ok fun _ => true

/-- A checkout with one file of the given one-letter name. -/
def oneFile (name : UInt8) (content : Bytes) : Checkout where
  files := [([[name]], content)]
  ordered := List.pairwise_singleton _ _

/-- A file whose content is changed. -/
theorem hashSensitive_iff_contentsTellApart_edited :
    HashesApart Sha256.digest everyFile ["*"] (oneFile 97 [1]) (oneFile 97 [2]) ∧
      HashSensitive Sha256.digest everyFile ["*"] (oneFile 97 [1]) (oneFile 97 [2]) := by
  have hapart : HashesApart Sha256.digest everyFile ["*"] (oneFile 97 [1]) (oneFile 97 [2]) := by
    unfold HashesApart
    decide +kernel
  apply And.intro hapart
  apply (hashSensitive_iff_contentsTellApart _ _ _ _ _ hapart).mpr
  intro _
  decide

/-- A file that is renamed from `a` to `b`. -/
theorem not_hashSensitive_renamed :
    HashesApart Sha256.digest everyFile ["*"] (oneFile 97 [1]) (oneFile 98 [1]) ∧
      ¬ HashSensitive Sha256.digest everyFile ["*"] (oneFile 97 [1]) (oneFile 98 [1]) := by
  apply And.intro
  · unfold HashesApart
    decide +kernel
  · intro hsensitive
    have hdiffer : (oneFile 97 [1]).fileMap everyFile ["*"] ≠
        (oneFile 98 [1]).fileMap everyFile ["*"] := by
      intro hsame
      have ha := congrFun hsame [[97]]
      revert ha
      decide
    exact hsensitive hdiffer rfl

end GitEventsRunner.Triggers
