/-
# Watching files

The documentation of a trigger that watches files is a table: nothing happens
while the commit stays the same; with a new commit the action is executed if a
matching file was changed, added or removed or if no file matches, and it is not
executed if files match and none of them differs.

The code does not look at the commit here.  It compares the hash of the matching
files with the recorded one, and the recorded one was computed with the patterns
of that time.  So the code follows the table as far as the contents that were
hashed do.
-/

import GitEventsRunner.Triggers.FileHash
import GitEventsRunner.Triggers.Finding

namespace GitEventsRunner.Triggers

open GitEventsRunner.Lib

/-- What a run finds of a source that watches files: the commit, the patterns of
that time and the checkout. -/
structure Visit where
  commit : String
  patterns : List String
  checkout : Checkout

namespace Visit

variable (sha256 : Digest) (globs : Globs) (visit : Visit)

/-- The contents that are hashed. -/
def contents : List Bytes := visit.checkout.contents globs visit.patterns

/-- The hash a run comes to, as it is recorded; none if hashing fails. -/
def fileHash : Option String :=
  match Folder.getFileGlobHash sha256 (visit.checkout.folder globs) visit.patterns with
  | .ok hash => some (Hex.encode hash)
  | .error _ => none

variable {sha256 globs visit}

/-- A hash that was recorded is the one of the contents. -/
theorem fileHash_eq (h : (visit.fileHash sha256 globs).isSome = true) :
    visit.fileHash sha256 globs = some (Hex.encode (sha256.chain (visit.contents globs))) := by
  unfold fileHash at h ⊢
  cases hglobs : globs visit.patterns with
  | ok selects =>
      rw [Checkout.getFileGlobHash_folder sha256 hglobs]
      rfl
  | error message =>
      rw [Checkout.getFileGlobHash_folder_error sha256 hglobs] at h
      cases h

/-- Two visits have the same hash if the contents are the same. -/
theorem fileHash_eq_iff {other : Visit} (h : (visit.fileHash sha256 globs).isSome = true)
    (hother : (other.fileHash sha256 globs).isSome = true)
    (hapart : sha256.CollisionFree (sha256.hashed (visit.contents globs) ++
      sha256.hashed (other.contents globs))) :
    visit.fileHash sha256 globs = other.fileHash sha256 globs ↔
      visit.contents globs = other.contents globs := by
  rw [fileHash_eq h, fileHash_eq hother, Option.some.injEq, ← Digest.chain_eq_iff hapart]
  constructor
  · exact Hex.encode_inj
  · intro hsame
    rw [hsame]

end Visit

/-! ## The table -/

section Table

variable (globs : Globs) (old new : Visit)

/-- A file that matches the current patterns was changed, added or removed. -/
def FilesDiffer : Prop :=
  old.checkout.fileMap globs new.patterns ≠ new.checkout.fileMap globs new.patterns

/-- No file matches the current patterns. -/
def NoneMatches : Prop := new.checkout.selected globs new.patterns = []

/-- The documented decision: whether the action is executed is as the table
says. -/
structure FollowsTable (executed : Prop) : Prop where
  sameCommit : new.commit = old.commit → ¬ executed
  filesDiffer : new.commit ≠ old.commit → FilesDiffer globs old new → executed
  filesAgree : new.commit ≠ old.commit → ¬ NoneMatches globs new → ¬ FilesDiffer globs old new →
    ¬ executed
  noneMatches : new.commit ≠ old.commit → NoneMatches globs new → executed

/-- What the table needs of the contents that are hashed.  With the same commit
they must be the same; files that differ must show in them; an edit of the
patterns must not show if no matching file differs; and if no file matches now,
some did at the recorded run. -/
structure ContentsFollowTable : Prop where
  sameCommit : new.commit = old.commit → new.contents globs = old.contents globs
  filesDiffer : new.commit ≠ old.commit → FilesDiffer globs old new →
    new.contents globs ≠ old.contents globs
  filesAgree : new.commit ≠ old.commit → ¬ NoneMatches globs new → ¬ FilesDiffer globs old new →
    old.checkout.contents globs new.patterns = old.contents globs
  noneMatches : new.commit ≠ old.commit → NoneMatches globs new → old.contents globs ≠ []

variable {globs old new}

theorem contents_eq_of_filesAgree (h : ¬ FilesDiffer globs old new) :
    old.checkout.contents globs new.patterns = new.contents globs := by
  rw [Visit.contents, Checkout.contents, Checkout.contents,
    Checkout.selected_eq_of_fileMap_eq (not_not.mp h)]

theorem contents_eq_nil_of_noneMatches (h : NoneMatches globs new) : new.contents globs = [] := by
  rw [Visit.contents, Checkout.contents, h, List.map_nil]

/-- A decision that goes by the contents follows the table if they do. -/
theorem followsTable_iff {executed : Prop}
    (h : executed ↔ new.contents globs ≠ old.contents globs) :
    FollowsTable globs old new executed ↔ ContentsFollowTable globs old new := by
  constructor
  · intro htable
    constructor
    case sameCommit =>
      intro hcommit
      exact not_not.mp (mt h.mpr (htable.sameCommit hcommit))
    case filesDiffer =>
      intro hcommit hdiffer
      exact h.mp (htable.filesDiffer hcommit hdiffer)
    case filesAgree =>
      intro hcommit hmatch hagree
      rw [contents_eq_of_filesAgree hagree]
      exact not_not.mp (mt h.mpr (htable.filesAgree hcommit hmatch hagree))
    case noneMatches =>
      intro hcommit hnone hold
      apply h.mp (htable.noneMatches hcommit hnone)
      rw [contents_eq_nil_of_noneMatches hnone, hold]
  · intro hcontents
    constructor
    case sameCommit =>
      intro hcommit hexecuted
      exact h.mp hexecuted (hcontents.sameCommit hcommit)
    case filesDiffer =>
      intro hcommit hdiffer
      exact h.mpr (hcontents.filesDiffer hcommit hdiffer)
    case filesAgree =>
      intro hcommit hmatch hagree hexecuted
      apply h.mp hexecuted
      rw [← contents_eq_of_filesAgree hagree]
      exact hcontents.filesAgree hcommit hmatch hagree
    case noneMatches =>
      intro hcommit hnone
      apply h.mpr
      rw [contents_eq_nil_of_noneMatches hnone]
      exact (hcontents.noneMatches hcommit hnone).symm

end Table

/-! ## Runs -/

section Decision

variable (chrono : Rfc3339.Codec) (sha256 : Digest) (globs : Globs) (spec : Trigger)
  (taskSources : TriggerTaskSources) (sourceCloneFolder : String)
  (status : Option TriggerStatus) (source : String) (old new : Visit)

/-- A trigger that watches files looks at a source again: the source is recorded
as a run left it that found `old`, and the patterns are those of `new` by now.
Hashing succeeds both times, and nothing that is hashed collides. -/
structure Revisits : Prop where
  onChangeOnly : spec.sources.watchOn.onChangeOnly = true
  files : spec.sources.watchOn.files = some new.patterns
  names : ∀ source ∈ spec.sourcesToCheck taskSources, source ∈ spec.sources.names
  checked : source ∈ spec.sourcesToCheck taskSources
  recorded : ∃ entry, (recordedSources status).get source = some entry ∧
    entry.commitHash = some old.commit ∧ entry.fileHash = old.fileHash sha256 globs
  oldHashed : (old.fileHash sha256 globs).isSome = true
  newHashed : (new.fileHash sha256 globs).isSome = true
  apart : sha256.CollisionFree (sha256.hashed (new.contents globs) ++
    sha256.hashed (old.contents globs))

/-- Every run that finds the source as `new`, with no failed lookup of the
action, executes the action for it as the table says. -/
def DecidesByTable : Prop :=
  ∀ trace next, (spec.createTriggerTask chrono taskSources sourceCloneFolder).RunsIn
      (Solo chrono spec) status trace next () →
    ∀ suffix part, PartsOf chrono spec taskSources sourceCloneFolder status trace suffix part →
      resolvedCommit (part source) = some new.commit →
      computedHash (part source) = new.fileHash sha256 globs →
      (∀ event ∈ part source, ActionAvailable event) →
        FollowsTable globs old new (executionsFor source trace ≠ [])

variable {chrono sha256 globs spec taskSources sourceCloneFolder status source old new}
  (h : Revisits sha256 globs spec taskSources status source old new)

include h

/-- The action is needed if the contents differ. -/
theorem Revisits.needed_iff (commit : String) {part : List TaskEvent}
    (hhash : computedHash part = new.fileHash sha256 globs) :
    Needed spec.sources.watchOn (foundState commit part) ((recordedSources status).get source) ↔
      new.contents globs ≠ old.contents globs := by
  obtain ⟨entry, hentry, -, hrecordedHash⟩ := h.recorded
  rw [Ne, ← Visit.fileHash_eq_iff h.newHashed h.oldHashed h.apart, ← hhash, ← hrecordedHash]
  have hwatched : ∀ state : CheckedSourceState,
      state.watched spec.sources.watchOn.files.isSome = state.fileHash := by
    intro state
    rw [h.files]
    rfl
  constructor
  · rintro (halways | hdiffers)
    · rw [h.onChangeOnly] at halways
      cases halways
    · have hne := hdiffers entry hentry
      rw [hwatched, hwatched] at hne
      exact hne.symm
  · intro hne
    apply Or.inr
    intro other hother
    obtain rfl := Option.some.inj (hentry.symm.trans hother)
    rw [hwatched, hwatched]
    exact Ne.symm hne

/-- One run decides by the table if the contents follow it. -/
theorem Revisits.followsTable_iff {next : Option TriggerStatus} {trace : List TaskEvent}
    {suffix : RandomString 8} {part : String → List TaskEvent}
    (hruns : (spec.createTriggerTask chrono taskSources sourceCloneFolder).RunsIn
      (Solo chrono spec) status trace next ())
    (hparts : PartsOf chrono spec taskSources sourceCloneFolder status trace suffix part)
    (hcommit : resolvedCommit (part source) = some new.commit)
    (hhash : computedHash (part source) = new.fileHash sha256 globs)
    (havailable : ∀ event ∈ part source, ActionAvailable event) :
    FollowsTable globs old new (executionsFor source trace ≠ []) ↔
      ContentsFollowTable globs old new := by
  apply Triggers.followsTable_iff
  rw [executed_iff_needed h.names h.checked hruns hparts hcommit havailable]
  exact h.needed_iff new.commit hhash

theorem Revisits.contentsFollowTable
    (hdecides : DecidesByTable chrono sha256 globs spec taskSources sourceCloneFolder status source
      old new) : ContentsFollowTable globs old new := by
  have hwatches : spec.sources.watchOn.files.isSome = true := by
    rw [h.files]
    rfl
  obtain ⟨trace, next, suffix, part, hruns, hparts, hcommit, hhash, havailable⟩ :=
    exists_run_finds chrono sourceCloneFolder status h.names h.checked new.commit
      (new.fileHash sha256 globs) fun _ => hwatches
  exact (h.followsTable_iff hruns hparts hcommit hhash havailable).mp
    (hdecides trace next hruns suffix part hparts hcommit hhash havailable)

end Decision

/-- A trigger that watches files decides by the documented table exactly if the
contents it hashes follow the table. -/
theorem decidesByTable_iff_contentsFollowTable (chrono : Rfc3339.Codec) (sha256 : Digest)
    (globs : Globs) (spec : Trigger) (taskSources : TriggerTaskSources)
    (sourceCloneFolder : String) (status : Option TriggerStatus) (source : String)
    (old new : Visit) (h : Revisits sha256 globs spec taskSources status source old new) :
    DecidesByTable chrono sha256 globs spec taskSources sourceCloneFolder status source old new ↔
      ContentsFollowTable globs old new := by
  constructor
  · exact h.contentsFollowTable
  · intro hcontents trace next hruns suffix part hparts hcommit hhash havailable
    exact (h.followsTable_iff hruns hparts hcommit hhash havailable).mpr hcontents

/-! ## A repository with a readme -/

/-- The bytes of a text. -/
def utf8 (text : String) : Bytes := text.toByteArray.data.toList

/-- Patterns that are plain file names. -/
def plainNames : Globs := fun patterns =>
  .ok fun path => patterns.any fun pattern => path.getLast? = some (utf8 pattern)

/-- The files of a checkout of a repository that may have a `README.md`. -/
def readmeFiles (head : String) (readme : Option String) : List (RelPath × Bytes) :=
  ([utf8 ".git", utf8 "HEAD"], utf8 head) ::
    (readme.map fun text => ([utf8 "README.md"], utf8 text)).toList

theorem readmeFiles_ordered (head : String) (readme : Option String) :
    (readmeFiles head readme).Pairwise fun a b => a.1 < b.1 := by
  cases readme with
  | none => exact List.pairwise_singleton _ _
  | some text =>
      apply List.pairwise_pair.mpr
      show [utf8 ".git", utf8 "HEAD"] < [utf8 "README.md"]
      decide

/-- A visit of the repository at a commit, for a trigger that watches the
readme. -/
def readmeVisit (commit : String) (readme : Option String) : Visit where
  commit := commit
  patterns := ["README.md"]
  checkout := ⟨readmeFiles commit readme, readmeFiles_ordered commit readme⟩

/-- A trigger that watches the readme of its sources. -/
def watchingReadme : Trigger :=
  { Shared.twoSources with
    sources := { names := ["a", "b"], watchOn := { files := some ["README.md"] } } }

/-- The status after a visit. -/
def statusAfterVisit (visit : Visit) : TriggerStatus where
  checkedSources := (∅ : HashMap _ _).insert "a"
    { commitHash := some visit.commit, fileHash := visit.fileHash Sha256.digest plainNames }

theorem fileHash_readmeVisit (commit : String) (readme : Option String) :
    ((readmeVisit commit readme).fileHash Sha256.digest plainNames).isSome = true := by
  rw [Visit.fileHash, Checkout.getFileGlobHash_folder Sha256.digest rfl]
  rfl

theorem selected_readmeVisit (commit : String) (readme : Option String) :
    (readmeVisit commit readme).checkout.selected plainNames ["README.md"] =
      (readme.map fun text => ([utf8 "README.md"], utf8 text)).toList := by
  cases readme with
  | none => rfl
  | some text => rfl

/-- The readme is watched, and the source was visited before. -/
theorem revisits_readme (oldCommit newCommit : String) (oldReadme newReadme : Option String)
    (hapart : Sha256.digest.CollisionFree
      (Sha256.digest.hashed ((readmeVisit newCommit newReadme).contents plainNames) ++
        Sha256.digest.hashed ((readmeVisit oldCommit oldReadme).contents plainNames))) :
    Revisits Sha256.digest plainNames watchingReadme (.single "a")
      (some (statusAfterVisit (readmeVisit oldCommit oldReadme))) "a"
      (readmeVisit oldCommit oldReadme) (readmeVisit newCommit newReadme) where
  onChangeOnly := rfl
  files := rfl
  names source hsource := by
    rw [List.mem_singleton.mp hsource]
    exact List.mem_cons_self
  checked := List.mem_cons_self
  recorded := ⟨_, HashMap.get_insert_self _ _ _, rfl, rfl⟩
  oldHashed := fileHash_readmeVisit _ _
  newHashed := fileHash_readmeVisit _ _
  apart := hapart

/-- A new commit that changes the readme. -/
theorem decidesByTable_iff_contentsFollowTable_readme :
    Revisits Sha256.digest plainNames watchingReadme (.single "a")
      (some (statusAfterVisit (readmeVisit "c0" (some "old")))) "a"
      (readmeVisit "c0" (some "old")) (readmeVisit "c1" (some "new")) ∧
    DecidesByTable Rfc3339.standard Sha256.digest plainNames watchingReadme (.single "a") "/tmp"
      (some (statusAfterVisit (readmeVisit "c0" (some "old")))) "a"
      (readmeVisit "c0" (some "old")) (readmeVisit "c1" (some "new")) := by
  have hrevisits := revisits_readme "c0" "c1" (some "old") (some "new") (by decide +kernel)
  apply And.intro hrevisits
  apply (decidesByTable_iff_contentsFollowTable _ _ _ _ _ _ _ _ _ _ hrevisits).mpr
  constructor
  case sameCommit =>
    intro hcommit
    exact absurd hcommit (by decide)
  case filesDiffer =>
    intro _ _
    decide
  case filesAgree =>
    intro _ _ _
    rfl
  case noneMatches =>
    intro _ _
    decide

/-- A new commit of a repository that has no readme, before and after it: the
documentation says to call the action, and it is not called. -/
theorem not_decidesByTable_without_readme :
    Revisits Sha256.digest plainNames watchingReadme (.single "a")
      (some (statusAfterVisit (readmeVisit "c0" none))) "a"
      (readmeVisit "c0" none) (readmeVisit "c1" none) ∧
    NoneMatches plainNames (readmeVisit "c1" none) ∧
    executionsFor "a" (soloRun watchingReadme
      (finding "c1" ((readmeVisit "c1" none).fileHash Sha256.digest plainNames))
      (some (statusAfterVisit (readmeVisit "c0" none))) (.single "a")).1 = [] ∧
    ¬ DecidesByTable Rfc3339.standard Sha256.digest plainNames watchingReadme (.single "a") "/tmp"
      (some (statusAfterVisit (readmeVisit "c0" none))) "a"
      (readmeVisit "c0" none) (readmeVisit "c1" none) := by
  have hrevisits := revisits_readme "c0" "c1" none none (by decide +kernel)
  apply And.intro hrevisits
  apply And.intro (selected_readmeVisit "c1" none)
  apply And.intro (by decide +kernel)
  intro hdecides
  have hcontents := hrevisits.contentsFollowTable hdecides
  exact hcontents.noneMatches (by decide) (selected_readmeVisit "c1" none) rfl

end GitEventsRunner.Triggers
