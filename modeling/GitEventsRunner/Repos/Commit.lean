/-
# Finding a commit and checking it out

`get_latest_commit` is the one function that both programs of the repository share
beyond the fetch: the trigger task calls it to learn the commit of a source, and the
cloner calls it to get that commit into the folder of a Job.  It turns a reference
into the id of an object, looks the object up and checks its tree out.

Whatever it returns, it has checked out.  An id is printed as forty digits and read
back as itself, so a commit that goes from the one program to the other as a text is
the same commit there.
-/

import GitEventsRunner.Lib.Program
import GitEventsRunner.Triggers.Types

namespace GitEventsRunner.Repos

open GitEventsRunner.Lib
open GitEventsRunner.Triggers

/-! ## Object ids -/

/-- The digits an id is printed with. -/
def hexDigits : List Char := "0123456789abcdef".toList

/-- `git2::Oid` by its hexadecimal digits. -/
structure Oid where
  digits : List Char
  length_eq : digits.length = 40
  hex : ∀ c ∈ digits, c ∈ hexDigits
  deriving DecidableEq

namespace Oid

/-- `to_string()` -/
def text (oid : Oid) : String := String.ofList oid.digits

/-- A text that `from_str` reads: one to forty hexadecimal digits of either case. -/
def Readable (text : List Char) : Prop :=
  text ≠ [] ∧ text.length ≤ 40 ∧ ∀ c ∈ text, c.toLower ∈ hexDigits

instance (text : List Char) : Decidable (Readable text) :=
  have : Decidable (∀ c ∈ text, c.toLower ∈ hexDigits) := List.decidableBAll _ text
  inferInstanceAs (Decidable (_ ∧ _ ∧ _))

/-- The digits of a text, filled up with zeros. -/
def padded (text : List Char) : List Char :=
  text.map Char.toLower ++ List.replicate (40 - text.length) '0'

theorem length_padded {text : List Char} (h : Readable text) : (padded text).length = 40 := by
  have hle := h.2.1
  rw [padded, List.length_append, List.length_map, List.length_replicate]
  omega

theorem hex_padded {text : List Char} (h : Readable text) : ∀ c ∈ padded text, c ∈ hexDigits := by
  intro c hc
  rcases List.mem_append.mp hc with hdigit | hzero
  · obtain ⟨digit, hmem, rfl⟩ := List.mem_map.mp hdigit
    exact h.2.2 digit hmem
  · rw [List.eq_of_mem_replicate hzero]
    decide

/-- `Oid::from_str` -/
def fromStr (text : String) : Option Oid :=
  if h : Readable text.toList then
    some ⟨padded text.toList, length_padded h, hex_padded h⟩
  else none

theorem toLower_of_mem_hexDigits {c : Char} (hc : c ∈ hexDigits) : c.toLower = c := by
  have hall : hexDigits.all (fun c => c.toLower = c) = true := by decide
  exact of_decide_eq_true (List.all_eq_true.mp hall c hc)

/-- A printed id is read back. -/
theorem fromStr_text (oid : Oid) : fromStr oid.text = some oid := by
  obtain ⟨digits, hlength, hhex⟩ := oid
  have hlower : ∀ c ∈ digits, c.toLower = c := fun c hc => toLower_of_mem_hexDigits (hhex c hc)
  have htext : (Oid.text ⟨digits, hlength, hhex⟩).toList = digits := String.toList_ofList
  have hreadable : Readable digits := by
    refine ⟨?_, hlength.le, fun c hc => ?_⟩
    · intro hnil
      rw [hnil] at hlength
      cases hlength
    · rw [hlower c hc]
      exact hhex c hc
  have hpadded : padded digits = digits := by
    rw [padded, List.map_congr_left hlower, List.map_id'', hlength]
    · exact List.append_nil digits
    · exact fun _ => rfl
  simp only [fromStr, htext, dif_pos hreadable, hpadded]

end Oid

/-! ## `get_latest_commit` -/

/-- What finding a commit asks of git, in the repository of a folder.  A reference that
is found may still have no direct target. -/
inductive GitEffect
  | resolveReference (path shortName : String)
  | findObject (path : String) (oid : Oid)
  | checkoutTree (path : String) (oid : Oid)
  | panic (msg : String)

/-- What comes back, with `none` or `false` for an error. -/
def GitEffect.Reply : GitEffect → Type
  | .resolveReference .. => Option (Option Oid)
  | .findObject .. | .checkoutTree .. => Bool
  | .panic _ => Empty

/-- A program that finds commits. -/
abbrev GitProg (α : Type) := Prog GitEffect.Reply α

namespace GitProg

/-- `resolve_reference_from_short_name(..)` -/
def resolveReference (path shortName : String) : GitProg (Option (Option Oid)) :=
  Prog.perform (GitEffect.resolveReference path shortName)

def findObject (path : String) (oid : Oid) : GitProg Bool :=
  Prog.perform (GitEffect.findObject path oid)

def checkoutTree (path : String) (oid : Oid) : GitProg Bool :=
  Prog.perform (GitEffect.checkoutTree path oid)

/-- The end of a program that panics. -/
def panic {α : Type} (msg : String) : GitProg α := Prog.call (GitEffect.panic msg) Empty.elim

end GitProg

open GitProg

/-- The target of a reference. -/
def target (path shortName : String) : GitProg (Option Oid) := do
  match ← resolveReference path shortName with
  | some (some oid) => pure (some oid)
  | some none => GitProg.panic "called `Option::unwrap()` on a `None` value"
  | none => pure none

/-- The id a reference stands for. -/
def resolve (path : String) : TriggerGitRepoReference → GitProg (Option Oid)
  | .branch r => target path ("origin/" ++ r)
  | .tag r => target path r
  | .commit r => pure (Oid.fromStr r)

/-- Look an object up and check its tree out. -/
def checkout (path : String) (oid : Oid) : GitProg (Option Oid) := do
  if ← findObject path oid then
    if ← checkoutTree path oid then pure (some oid) else pure none
  else pure none

/-- `get_latest_commit`, with `none` for an error. -/
def getLatestCommit (path : String) (reference : TriggerGitRepoReference) :
    GitProg (Option Oid) := do
  match ← resolve path reference with
  | some oid => checkout path oid
  | none => pure none

/-! ## What it leaves behind -/

section Safety

variable {W : Type} [Preorder W] {P : Prog.Protocol GitEffect.Reply W}

/-- What is returned was looked up and then checked out. -/
theorem checkout_safe (hpre : ∀ e w, P.Pre e w) (path : String) (oid : Oid) (w : W) :
    (checkout path oid).Safe P (fun reply v => ∀ found, reply = some found →
      found = oid ∧ P.Post (.checkoutTree path oid) true v) w := by
  apply Prog.safe_bind (Prog.safe_perform fun v _ => hpre _ v)
  intro present v _ _
  cases present with
  | false => exact fun _ hnone => nomatch hnone
  | true =>
      apply Prog.safe_bind (Prog.safe_perform fun u _ => hpre _ u)
      intro done u _ hdone
      cases done with
      | false => exact fun _ hnone => nomatch hnone
      | true => exact fun _ hfound => ⟨(Option.some.inj hfound).symm, hdone⟩

/-- What `get_latest_commit` returns it has checked out, and a commit it is asked for is
the one it returns. -/
theorem getLatestCommit_safe (hpre : ∀ e w, P.Pre e w) (path : String)
    (reference : TriggerGitRepoReference) (w : W) :
    (getLatestCommit path reference).Safe P (fun reply v => ∀ oid, reply = some oid →
      P.Post (.checkoutTree path oid) true v ∧
        ∀ r, reference = .commit r → Oid.fromStr r = some oid) w := by
  have hresolve : (resolve path reference).Safe P (fun reply _ => ∀ oid, reply = some oid →
      ∀ r, reference = .commit r → Oid.fromStr r = some oid) w := by
    cases reference with
    | branch r =>
        exact (Prog.safe_of_pre hpre _ w).conseq fun _ _ _ _ _ _ _ hcommit => nomatch hcommit
    | tag r =>
        exact (Prog.safe_of_pre hpre _ w).conseq fun _ _ _ _ _ _ _ hcommit => nomatch hcommit
    | commit r =>
        rintro oid hoid r' hcommit
        cases hcommit
        exact hoid
  apply Prog.safe_bind hresolve
  intro resolved v _ hresolved
  cases resolved with
  | none => exact fun _ hnone => nomatch hnone
  | some oid =>
      refine (checkout_safe hpre path oid v).conseq fun reply u _ hreply found hfound => ?_
      obtain ⟨rfl, hpost⟩ := hreply found hfound
      exact ⟨hpost, hresolved found rfl⟩

end Safety

/-- A commit that is asked for is all that can be checked out. -/
theorem getLatestCommit_commit_all (path r : String) :
    (getLatestCommit path (.commit r)).All fun e => ∀ folder oid,
      e = .checkoutTree folder oid → folder = path ∧ Oid.fromStr r = some oid := by
  have hresolved : getLatestCommit path (.commit r) =
      match Oid.fromStr r with
      | some oid => checkout path oid
      | none => pure none := rfl
  rw [hresolved]
  cases hread : Oid.fromStr r with
  | none => trivial
  | some oid =>
      apply Prog.all_perform_bind
      · intro folder found hfind
        cases hfind
      · intro present
        cases present with
        | false => trivial
        | true =>
            apply Prog.all_perform_bind
            · intro folder found hcheckout
              cases hcheckout
              exact ⟨rfl, rfl⟩
            · intro done
              cases done with
              | false => trivial
              | true => trivial

end GitEventsRunner.Repos
