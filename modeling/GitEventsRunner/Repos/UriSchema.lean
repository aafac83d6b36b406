/-
# Validated addresses have a schema

The address of a repository is validated by the pattern in its CRD, and its schema is
found later by four tests of how it begins, with a panic behind them.  The pattern has
three alternatives, one of them for two schemas.

No test is the beginning of another one, so at most one of them applies, and each
alternative of the pattern begins with what one of the tests looks for.
-/

import GitEventsRunner.Lib.Regex
import GitEventsRunner.Repos.Fetch

namespace GitEventsRunner.Repos

open GitEventsRunner.Lib

/-! ## The pattern -/

namespace UriValidation

/-- `[\w.-]+` -/
def name : Regex := .repeated (.oneOf [.word, .char '.', .char '-']) .oneOrMore

/-- `(:[\d]{1,5})?` -/
def port : Regex :=
  .repeated (.group (.sequence [.char ':', .repeated (.oneOf [.digit]) (.between 1 5)])) .optional

/-- `(/([..]+)?)?`, with what is in the brackets. -/
def path (items : List ClassItem) : Regex :=
  .repeated (.group (.sequence [.char '/',
    .repeated (.group (.repeated (.oneOf items) .oneOrMore)) .optional])) .optional

/-- `^git@[\w.-]+:[\w.-]+/[/\w.-]+$` -/
def git : Regex :=
  .seq .startOfText (.sequence [.literal "git@", name, .char ':', name, .char '/',
    .repeated (.oneOf [.char '/', .word, .char '.', .char '-']) .oneOrMore, .endOfText])

/-- `^ssh://([\w.-]+@)?[\w.-]+(:[\d]{1,5})?(/([/\w.-]+)?)?$` -/
def ssh : Regex :=
  .seq .startOfText (.sequence [.literal "ssh://",
    .repeated (.group (.sequence [name, .char '@'])) .optional, name, port,
    path [.char '/', .word, .char '.', .char '-'], .endOfText])

/-- `^https?://[\w.-]+(:[\d]{1,5})?(/([/%&=\?\w.-]+)?)?$` -/
def http : Regex :=
  .seq .startOfText (.sequence [.literal "http", .repeated (.char 's') .optional, .literal "://",
    name, port, path [.char '/', .char '%', .char '&', .char '=', .escaped '?', .word, .char '.',
      .char '-'], .endOfText])

end UriValidation

/-- `URI_VALIDATION_REGEX` -/
def uriValidationRegex : Regex := .alt UriValidation.git (.alt UriValidation.ssh UriValidation.http)

/-- It is printed as it is in the source. -/
example : uriValidationRegex.print =
    ("^git@[\\w.-]+:[\\w.-]+/[/\\w.-]+$|" ++
      "^ssh://([\\w.-]+@)?[\\w.-]+(:[\\d]\x7b1,5\x7d)?(/([/\\w.-]+)?)?$|" ++
      "^https?://[\\w.-]+(:[\\d]\x7b1,5\x7d)?(/([/%&=\\?\\w.-]+)?)?$").toList := by
  decide +kernel

/-! ## The tests -/

/-- The beginnings `uri_schema` tests for, in its order, with its results. -/
def schemaTests : List (String × GitRepoUriSchema) :=
  [("http://", .http), ("https://", .https), ("ssh://", .ssh), ("git@", .git)]

/-- No test looks for the beginning of what another one looks for. -/
theorem eq_of_prefix_schemaTests : ∀ test ∈ schemaTests, ∀ other ∈ schemaTests,
    test.1.toList <+: other.1.toList → test = other := by
  decide

/-- At most one test applies to an address. -/
theorem eq_of_startsWith {test other : String × GitRepoUriSchema} (htest : test ∈ schemaTests)
    (hother : other ∈ schemaTests) {uri : String} (h : uri.startsWith test.1 = true)
    (h' : uri.startsWith other.1 = true) : test = other := by
  rw [String.startsWith_string_iff] at h h'
  rcases Nat.le_total test.1.toList.length other.1.toList.length with hle | hle
  · exact eq_of_prefix_schemaTests test htest other hother
      (List.prefix_of_prefix_length_le h h' hle)
  · exact (eq_of_prefix_schemaTests other hother test htest
      (List.prefix_of_prefix_length_le h' h hle)).symm

/-- The tests are made in order. -/
theorem uriSchema_eq_find? (repo : GitRepo) :
    repo.uriSchema =
      (schemaTests.find? fun test => repo.repoUri.startsWith test.1).map Prod.snd := by
  unfold GitRepo.uriSchema schemaTests
  simp only [List.find?_cons, List.find?_nil]
  cases repo.repoUri.startsWith "http://" with
  | true => rfl
  | false =>
      cases repo.repoUri.startsWith "https://" with
      | true => rfl
      | false =>
          cases repo.repoUri.startsWith "ssh://" with
          | true => rfl
          | false =>
              cases repo.repoUri.startsWith "git@" with
              | true => rfl
              | false => rfl

/-- The schema is that of the test that applies. -/
theorem uriSchema_of_startsWith {repo : GitRepo} {test : String × GitRepoUriSchema}
    (htest : test ∈ schemaTests) (h : repo.repoUri.startsWith test.1 = true) :
    repo.uriSchema = some test.2 := by
  rw [uriSchema_eq_find?]
  cases hfind : schemaTests.find? fun test => repo.repoUri.startsWith test.1 with
  | none => exact absurd h (List.find?_eq_none.mp hfind test htest)
  | some found =>
      have hfound := List.find?_some hfind
      rw [eq_of_startsWith htest (List.mem_of_find?_eq_some hfind) h hfound]
      rfl

/-! ## Agreement -/

/-- The scheme of an address as it is written: all before the first colon. -/
def writtenScheme (uri : String) : List Char := uri.toList.takeWhile fun c => c ≠ ':'

theorem writtenScheme_http {uri : String} (h : uri.startsWith "http://" = true) :
    writtenScheme uri = "http".toList := by
  obtain ⟨rest, hrest⟩ := String.startsWith_string_iff.mp h
  rw [writtenScheme, ← hrest]
  rfl

theorem writtenScheme_https {uri : String} (h : uri.startsWith "https://" = true) :
    writtenScheme uri = "https".toList := by
  obtain ⟨rest, hrest⟩ := String.startsWith_string_iff.mp h
  rw [writtenScheme, ← hrest]
  rfl

section Accepted

variable {uri : String}

theorem startsWith_of_accepts_git (h : UriValidation.git.Accepts uri) :
    uri.startsWith "git@" = true :=
  String.startsWith_string_iff.mpr (Regex.prefix_of_accepts h)

theorem startsWith_of_accepts_ssh (h : UriValidation.ssh.Accepts uri) :
    uri.startsWith "ssh://" = true :=
  String.startsWith_string_iff.mpr (Regex.prefix_of_accepts h)

/-- Between its letters and its `://` an address of the third alternative has an `s` or
nothing. -/
theorem startsWith_of_accepts_http (h : UriValidation.http.Accepts uri) :
    uri.startsWith "http://" = true ∨ uri.startsWith "https://" = true := by
  obtain ⟨_, after, htext, piece, rest, rfl, hhttp, hrest⟩ :=
    Regex.exists_of_accepts_startOfText h
  obtain ⟨letter, rest, rfl, hletter, colon, rest, rfl, hcolon, -⟩ := hrest
  rw [Regex.matches_literal] at hhttp hcolon
  rw [hhttp, hcolon] at htext
  rw [String.startsWith_string_iff, String.startsWith_string_iff]
  rcases Regex.matches_optional_char.mp hletter with rfl | rfl
  · apply Or.inl
    rw [htext]
    exact ⟨rest ++ after, by simp⟩
  · apply Or.inr
    rw [htext]
    exact ⟨rest ++ after, by simp⟩

/-- Some test applies to every address that passes. -/
theorem exists_test_of_accepts (h : uriValidationRegex.Accepts uri) :
    ∃ test ∈ schemaTests, uri.startsWith test.1 = true := by
  rcases Regex.accepts_alt.mp h with hgit | hothers
  · exact ⟨("git@", .git), by decide, startsWith_of_accepts_git hgit⟩
  · rcases Regex.accepts_alt.mp hothers with hssh | hhttp
    · exact ⟨("ssh://", .ssh), by decide, startsWith_of_accepts_ssh hssh⟩
    · rcases startsWith_of_accepts_http hhttp with hplain | hsecure
      · exact ⟨("http://", .http), by decide, hplain⟩
      · exact ⟨("https://", .https), by decide, hsecure⟩

end Accepted

/-- The schema of an address is what its validation says: there is one, exactly one of the
tests applies, and it is the schema of the alternative that accepts the address, for the
third one the scheme that is written. -/
structure SchemaAgrees (repo : GitRepo) : Prop where
  returns : repo.uriSchema.isSome = true
  oneTest : ∃! test, test ∈ schemaTests ∧ repo.repoUri.startsWith test.1 = true
  git : UriValidation.git.Accepts repo.repoUri → repo.uriSchema = some .git
  ssh : UriValidation.ssh.Accepts repo.repoUri → repo.uriSchema = some .ssh
  http : UriValidation.http.Accepts repo.repoUri →
    (writtenScheme repo.repoUri = "http".toList ∧ repo.uriSchema = some .http) ∨
      (writtenScheme repo.repoUri = "https".toList ∧ repo.uriSchema = some .https)

/-- Every address that passes its validation has the schema the validation says. -/
theorem schemaAgrees_of_accepts (repo : GitRepo) (h : uriValidationRegex.Accepts repo.repoUri) :
    SchemaAgrees repo := by
  obtain ⟨test, htest, hstarts⟩ := exists_test_of_accepts h
  constructor
  case returns =>
    rw [uriSchema_of_startsWith htest hstarts]
    rfl
  case oneTest =>
    refine ⟨test, ⟨htest, hstarts⟩, ?_⟩
    rintro other ⟨hother, hothers⟩
    exact eq_of_startsWith hother htest hothers hstarts
  case git =>
    intro haccepts
    have hgit : ("git@", GitRepoUriSchema.git) ∈ schemaTests := by decide
    exact uriSchema_of_startsWith hgit (startsWith_of_accepts_git haccepts)
  case ssh =>
    intro haccepts
    have hssh : ("ssh://", GitRepoUriSchema.ssh) ∈ schemaTests := by decide
    exact uriSchema_of_startsWith hssh (startsWith_of_accepts_ssh haccepts)
  case http =>
    intro haccepts
    rcases startsWith_of_accepts_http haccepts with hplain | hsecure
    · have hhttp : ("http://", GitRepoUriSchema.http) ∈ schemaTests := by decide
      exact Or.inl ⟨writtenScheme_http hplain, uriSchema_of_startsWith hhttp hplain⟩
    · have hhttps : ("https://", GitRepoUriSchema.https) ∈ schemaTests := by decide
      exact Or.inr ⟨writtenScheme_https hsecure, uriSchema_of_startsWith hhttps hsecure⟩

/-- An address for git over SSH. -/
theorem schemaAgrees_of_accepts_git :
    SchemaAgrees
      { kind := .gitRepo, name := "r", repoUri := "git@example.com:group/repo.git" } :=
  schemaAgrees_of_accepts _ (by decide +kernel)

end GitEventsRunner.Repos
