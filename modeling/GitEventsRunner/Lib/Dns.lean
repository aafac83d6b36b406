/-
# DNS-1123 subdomains

The names of most resources of a cluster are DNS-1123 subdomains: labels joined by
dots, each of lower-case letters, digits and hyphens, with a letter or a digit at
both ends.  How long a name may be depends on what it is used for and is not part of
its grammar.

A subdomain can be continued: hyphens and alphanumeric characters behind it belong
to its last label, and it only matters how they end.
-/

import Mathlib.Data.List.Basic

namespace GitEventsRunner.Lib.Dns

/-- A lower-case letter or a digit. -/
def isAlnum (c : Char) : Bool := c.isLower || c.isDigit

/-- One label: it starts and ends alphanumeric and has hyphens at most in between. -/
structure IsLabel (label : List Char) : Prop where
  head : label.head?.any isAlnum = true
  last : label.getLast?.any isAlnum = true
  chars : ∀ c ∈ label, isAlnum c = true ∨ c = '-'

theorem isLabel_iff {label : List Char} : label.head?.any isAlnum = true ∧
    label.getLast?.any isAlnum = true ∧ (∀ c ∈ label, isAlnum c = true ∨ c = '-') ↔
      IsLabel label :=
  ⟨fun h => ⟨h.1, h.2.1, h.2.2⟩, fun h => ⟨h.head, h.last, h.chars⟩⟩

instance (label : List Char) : Decidable (IsLabel label) :=
  have : Decidable (∀ c ∈ label, isAlnum c = true ∨ c = '-') := List.decidableBAll _ label
  decidable_of_iff _ isLabel_iff

/-- Labels joined by dots. -/
def IsSubdomain (text : List Char) : Prop := ∀ label ∈ text.splitOn '.', IsLabel label

instance (text : List Char) : Decidable (IsSubdomain text) :=
  inferInstanceAs (Decidable (∀ label ∈ text.splitOn '.', IsLabel label))

/-- What holds of the first 128 characters holds of every letter and digit. -/
theorem of_isAlphanum {P : Char → Prop} {c : Char} (h : c.isAlphanum = true)
    (hP : ∀ n < 128, P (Char.ofNat n)) : P c := by
  have hlt : c.toNat < 128 := by
    delta Char.isAlphanum Char.isAlpha Char.isUpper Char.isLower Char.isDigit at h
    simp only [Bool.or_eq_true, Bool.and_eq_true, decide_eq_true_eq, ge_iff_le,
      UInt32.le_iff_toNat_le] at h
    have hZ : 'Z'.val.toNat = 90 := rfl
    have hz : 'z'.val.toNat = 122 := rfl
    have hnine : '9'.val.toNat = 57 := rfl
    have hval : c.toNat = c.val.toNat := rfl
    omega
  rw [← Char.ofNat_toNat c]
  exact hP c.toNat hlt

theorem isAlnum_toLower {c : Char} (h : c.isAlphanum = true) : isAlnum c.toLower = true := by
  apply of_isAlphanum (P := fun c => c.isAlphanum = true → isAlnum c.toLower = true) h _ h
  decide

/-- The characters of a subdomain are lower-case. -/
theorem toLower_of_isAlnum {c : Char} (h : isAlnum c = true) : c.toLower = c := by
  have hchar : c.isAlphanum = true := by
    rw [isAlnum, Bool.or_eq_true] at h
    delta Char.isAlphanum Char.isAlpha
    rw [Bool.or_eq_true, Bool.or_eq_true]
    exact h.imp_left Or.inr
  apply of_isAlphanum (P := fun c => isAlnum c = true → c.toLower = c) hchar _ h
  decide

/-- A text without a dot that is put behind another one continues its last part. -/
theorem splitOn_append_of_notMem {tail : List Char} (htail : '.' ∉ tail) (text : List Char) :
    ∃ init last, text.splitOn '.' = init ++ [last] ∧
      (text ++ tail).splitOn '.' = init ++ [last ++ tail] := by
  induction text with
  | nil => exact ⟨[], [], rfl, List.splitOn_eq_singleton htail⟩
  | cons c text ih =>
      obtain ⟨init, last, hsplit, happend⟩ := ih
      rw [List.cons_append, List.splitOn_cons_eq_if_modifyHead,
        List.splitOn_cons_eq_if_modifyHead, hsplit, happend]
      split
      · exact ⟨[] :: init, last, rfl, rfl⟩
      · cases init with
        | nil => exact ⟨[], c :: last, rfl, rfl⟩
        | cons first init => exact ⟨(c :: first) :: init, last, rfl, rfl⟩

theorem IsLabel.append {label tail : List Char} (h : IsLabel label)
    (hlast : tail.getLast?.any isAlnum = true)
    (hchars : ∀ c ∈ tail, isAlnum c = true ∨ c = '-') : IsLabel (label ++ tail) := by
  have hlabel : label ≠ [] := by
    rintro rfl
    cases h.head
  have htail : tail ≠ [] := by
    rintro rfl
    cases hlast
  constructor
  · rw [List.head?_append_of_ne_nil label hlabel]
    exact h.head
  · rw [List.getLast?_append_of_ne_nil label htail]
    exact hlast
  · intro c hc
    rcases List.mem_append.mp hc with hold | hnew
    · exact h.chars c hold
    · exact hchars c hnew

/-- A subdomain continued by hyphens and alphanumeric characters, the last one of
which is alphanumeric, is a subdomain. -/
theorem IsSubdomain.append {text tail : List Char} (h : IsSubdomain text)
    (hlast : tail.getLast?.any isAlnum = true)
    (hchars : ∀ c ∈ tail, isAlnum c = true ∨ c = '-') : IsSubdomain (text ++ tail) := by
  have hdot : '.' ∉ tail := by
    intro hmem
    rcases hchars '.' hmem with h | h <;> revert h <;> decide
  obtain ⟨init, last, hsplit, happend⟩ := splitOn_append_of_notMem hdot text
  rw [IsSubdomain, hsplit] at h
  rw [IsSubdomain, happend]
  intro label hlabel
  rcases List.mem_append.mp hlabel with hinit | hend
  · exact h label (List.mem_append_left _ hinit)
  · rw [List.mem_singleton.mp hend]
    exact (h last List.mem_concat_self).append hlast hchars

/-- Every character is a separator or in one of the parts. -/
theorem eq_or_mem_splitOn (sep : Char) {c : Char} {text : List Char} (h : c ∈ text) :
    c = sep ∨ ∃ part ∈ text.splitOn sep, c ∈ part := by
  induction text with
  | nil => cases h
  | cons d text ih =>
      rw [List.splitOn_cons_eq_if_modifyHead]
      split
      · rename_i hsep
        rcases List.mem_cons.mp h with rfl | hrest
        · exact Or.inl (beq_iff_eq.mp hsep)
        · exact (ih hrest).imp_right fun ⟨part, hpart, hmem⟩ =>
            ⟨part, List.mem_cons_of_mem _ hpart, hmem⟩
      · obtain ⟨first, rest, hsplit⟩ := List.exists_cons_of_ne_nil (List.splitOn_ne_nil sep text)
        rw [hsplit] at ih ⊢
        rcases List.mem_cons.mp h with rfl | hrest
        · exact Or.inr ⟨_, List.mem_cons_self, List.mem_cons_self⟩
        · refine (ih hrest).imp_right fun ⟨part, hpart, hmem⟩ => ?_
          rcases List.mem_cons.mp hpart with rfl | hother
          · exact ⟨_, List.mem_cons_self, List.mem_cons_of_mem _ hmem⟩
          · exact ⟨part, List.mem_cons_of_mem _ hother, hmem⟩

/-- A subdomain has no other characters than those of its labels, and dots. -/
theorem IsSubdomain.chars {text : List Char} (h : IsSubdomain text) :
    ∀ c ∈ text, isAlnum c = true ∨ c = '-' ∨ c = '.' := by
  intro c hc
  rcases eq_or_mem_splitOn '.' hc with rfl | ⟨label, hlabel, hmem⟩
  · exact Or.inr (Or.inr rfl)
  · exact ((h label hlabel).chars c hmem).imp_right Or.inl

/-- A subdomain is its own lower-case form. -/
theorem IsSubdomain.map_toLower {text : List Char} (h : IsSubdomain text) :
    text.map Char.toLower = text := by
  have hfixed : ∀ c ∈ text, c.toLower = c := by
    intro c hc
    rcases h.chars c hc with halnum | rfl | rfl
    · exact toLower_of_isAlnum halnum
    · decide
    · decide
  exact (List.map_congr_left hfixed).trans (List.map_id' text)

example : IsSubdomain "git-events.runner2".toList ∧ ¬ IsSubdomain "a..b".toList ∧
    ¬ IsSubdomain "a-".toList := by
  decide

end GitEventsRunner.Lib.Dns
