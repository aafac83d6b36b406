/-
# Regular expressions as programs write them

A pattern is built from characters, bracket expressions, anchors, groups, alternatives
and repetitions, and it can be printed as it is written.  It is searched for in a text:
the text is accepted if the pattern matches some piece of it, and the anchors match
nothing, but only where the text begins or ends.

`Matches` is the meaning of a pattern.  `splits` finds the matches that begin at a
place, and so it can be decided whether a text is accepted.
-/

import Mathlib.Data.List.Basic
import Mathlib.Data.Nat.Notation

namespace GitEventsRunner.Lib

/-! ## Patterns -/

/-- What is listed in a bracket expression. -/
inductive ClassItem
  | char (c : Char)
  | escaped (c : Char)
  | word
  | digit
  deriving DecidableEq, Repr

namespace ClassItem

/-- The characters of an item.  Those of `\w` and `\d` are in ASCII. -/
def contains : ClassItem → Char → Bool
  | char c, c' => c' = c
  | escaped c, c' => c' = c
  | word, c' => c'.isAlphanum || c' = '_'
  | digit, c' => c'.isDigit

/-- An item as it is written. -/
def print : ClassItem → List Char
  | char c => [c]
  | escaped c => ['\\', c]
  | word => ['\\', 'w']
  | digit => ['\\', 'd']

end ClassItem

/-- How often something is repeated. -/
inductive Quantifier
  | optional
  | oneOrMore
  | between (low high : ℕ)
  deriving DecidableEq, Repr

namespace Quantifier

/-- The numbers of repetitions. -/
def Allows : Quantifier → ℕ → Prop
  | optional, n => n ≤ 1
  | oneOrMore, n => 1 ≤ n
  | between low high, n => low ≤ n ∧ n ≤ high

/-- Numbers of repetitions to be tried on a text of some length. -/
def counts : Quantifier → ℕ → List ℕ
  | optional, _ => [0, 1]
  | oneOrMore, length => (List.range (length + 1)).map fun n => n + 1
  | between low high, _ => (List.range (high + 1)).filter fun n => low ≤ n

/-- A quantifier as it is written. -/
def print : Quantifier → List Char
  | optional => ['?']
  | oneOrMore => ['+']
  | between low high => ['{'] ++ Nat.toDigits 10 low ++ [','] ++ Nat.toDigits 10 high ++ ['}']

end Quantifier

/-- A regular expression. -/
inductive Regex
  | empty
  | char (c : Char)
  | oneOf (items : List ClassItem)
  | startOfText
  | endOfText
  | seq (first second : Regex)
  | alt (first second : Regex)
  | group (inner : Regex)
  | repeated (inner : Regex) (quantifier : Quantifier)
  deriving DecidableEq, Repr

namespace Regex

/-- The characters of a text one after the other. -/
def literal (text : String) : Regex := text.toList.foldr (fun c rest => seq (char c) rest) empty

/-- Expressions one after the other. -/
def sequence (parts : List Regex) : Regex := parts.foldr seq empty

/-- A regular expression as it is written. -/
def print : Regex → List Char
  | empty => []
  | char c => [c]
  | oneOf items => '[' :: items.flatMap ClassItem.print ++ [']']
  | startOfText => ['^']
  | endOfText => ['$']
  | seq first second => first.print ++ second.print
  | alt first second => first.print ++ '|' :: second.print
  | group inner => '(' :: inner.print ++ [')']
  | repeated inner quantifier => inner.print ++ quantifier.print

/-! ## Meaning -/

/-- A text is cut into pieces, each of which matches where it stands. -/
def Copies (Piece : List Char → List Char → List Char → Prop) :
    ℕ → List Char → List Char → List Char → Prop
  | 0, _, text, _ => text = []
  | n + 1, before, text, after => ∃ first rest, text = first ++ rest ∧
      Piece before first (rest ++ after) ∧ Copies Piece n (before ++ first) rest after

/-- A text between two others matches. -/
def Matches : Regex → List Char → List Char → List Char → Prop
  | empty, _, text, _ => text = []
  | char c, _, text, _ => text = [c]
  | oneOf items, _, text, _ => ∃ c, text = [c] ∧ items.any (fun item => item.contains c) = true
  | startOfText, before, text, _ => text = [] ∧ before = []
  | endOfText, _, text, after => text = [] ∧ after = []
  | seq first second, before, text, after => ∃ piece rest, text = piece ++ rest ∧
      first.Matches before piece (rest ++ after) ∧ second.Matches (before ++ piece) rest after
  | alt first second, before, text, after =>
      first.Matches before text after ∨ second.Matches before text after
  | group inner, before, text, after => inner.Matches before text after
  | repeated inner quantifier, before, text, after =>
      ∃ n, quantifier.Allows n ∧ Copies inner.Matches n before text after

/-- A text in which the expression is found. -/
def Accepts (regex : Regex) (text : String) : Prop :=
  ∃ before piece after, text.toList = before ++ piece ++ after ∧
    regex.Matches before piece after

/-- A literal matches itself. -/
theorem matches_literal {expected : String} {before text after : List Char} :
    (literal expected).Matches before text after ↔ text = expected.toList := by
  unfold literal
  generalize expected.toList = expected
  induction expected generalizing before text with
  | nil => exact Iff.rfl
  | cons c expected ih =>
      rw [List.foldr_cons]
      constructor
      · rintro ⟨piece, rest, rfl, rfl, hrest⟩
        rw [ih.mp hrest]
        rfl
      · rintro rfl
        exact ⟨[c], expected, rfl, rfl, ih.mpr rfl⟩

theorem accepts_alt {first second : Regex} {text : String} :
    (alt first second).Accepts text ↔ first.Accepts text ∨ second.Accepts text := by
  constructor
  · rintro ⟨before, piece, after, htext, hfirst | hsecond⟩
    · exact Or.inl ⟨before, piece, after, htext, hfirst⟩
    · exact Or.inr ⟨before, piece, after, htext, hsecond⟩
  · rintro (⟨before, piece, after, htext, hfirst⟩ | ⟨before, piece, after, htext, hsecond⟩)
    · exact ⟨before, piece, after, htext, Or.inl hfirst⟩
    · exact ⟨before, piece, after, htext, Or.inr hsecond⟩

/-- Behind the start of the text an expression matches where the text begins. -/
theorem exists_of_accepts_startOfText {regex : Regex} {text : String}
    (h : (seq startOfText regex).Accepts text) :
    ∃ piece after, text.toList = piece ++ after ∧ regex.Matches [] piece after := by
  obtain ⟨before, piece, after, htext, start, rest, rfl, ⟨rfl, rfl⟩, hregex⟩ := h
  exact ⟨rest, after, htext, hregex⟩

/-- A text that is accepted begins with the literal the expression begins with. -/
theorem prefix_of_accepts {start : String} {parts : List Regex} {text : String}
    (h : (seq startOfText (sequence (literal start :: parts))).Accepts text) :
    start.toList <+: text.toList := by
  obtain ⟨_, after, htext, piece, rest, rfl, hstart, -⟩ := exists_of_accepts_startOfText h
  rw [htext, matches_literal.mp hstart, List.append_assoc]
  exact List.prefix_append _ _

/-- An optional character is there or not. -/
theorem matches_optional_char {c : Char} {before text after : List Char} :
    (repeated (char c) .optional).Matches before text after ↔ text = [] ∨ text = [c] := by
  constructor
  · rintro ⟨n, hn, hcopies⟩
    match n, hn, hcopies with
    | 0, _, htext => exact Or.inl htext
    | 1, _, ⟨first, rest, htext, hfirst, hrest⟩ =>
        apply Or.inr
        rw [htext, show first = [c] from hfirst, show rest = [] from hrest]
        rfl
  · rintro (rfl | rfl)
    · exact ⟨0, Nat.zero_le 1, rfl⟩
    · exact ⟨1, Nat.le_refl 1, [c], [], rfl, rfl, rfl⟩

/-! ## Deciding -/

/-- The first character of a text, if it is right, and the rest. -/
def headSplit (right : Char → Bool) : List Char → List (List Char × List Char)
  | c :: rest => if right c then [([c], rest)] else []
  | [] => []

/-- Matches followed by matches of what is left. -/
def andThen (firsts : List (List Char × List Char))
    (next : List Char → List Char → List (List Char × List Char)) :
    List (List Char × List Char) :=
  firsts.flatMap fun first =>
    (next first.1 first.2).map fun second => (first.1 ++ second.1, second.2)

/-- A number of matches one behind the other. -/
def copySplits (splits : List Char → List Char → List (List Char × List Char)) :
    ℕ → List Char → List Char → List (List Char × List Char)
  | 0, _, text => [([], text)]
  | n + 1, before, text => andThen (splits before text) fun piece behind =>
      copySplits splits n (before ++ piece) behind

/-- The matches that begin with a text, each with the rest of the text. -/
def splits : Regex → List Char → List Char → List (List Char × List Char)
  | empty, _, text => [([], text)]
  | char c, _, text => headSplit (fun c' => c' = c) text
  | oneOf items, _, text => headSplit (fun c => items.any fun item => item.contains c) text
  | startOfText, before, text => if before = [] then [([], text)] else []
  | endOfText, _, text => if text = [] then [([], text)] else []
  | seq first second, before, text => andThen (first.splits before text) fun piece behind =>
      second.splits (before ++ piece) behind
  | alt first second, before, text => first.splits before text ++ second.splits before text
  | group inner, before, text => inner.splits before text
  | repeated inner quantifier, before, text =>
      (quantifier.counts text.length).flatMap fun n => copySplits inner.splits n before text

theorem mem_headSplit {right : Char → Bool} {text piece rest : List Char} :
    (piece, rest) ∈ headSplit right text ↔
      text = piece ++ rest ∧ ∃ c, piece = [c] ∧ right c = true := by
  cases text with
  | nil =>
      constructor
      · intro h
        cases h
      · rintro ⟨htext, c, rfl, -⟩
        cases htext
  | cons c text =>
      rw [headSplit]
      constructor
      · intro h
        by_cases hright : right c = true
        · rw [if_pos hright] at h
          obtain ⟨rfl, rfl⟩ := Prod.mk.inj (List.mem_singleton.mp h)
          exact ⟨rfl, c, rfl, hright⟩
        · rw [if_neg hright] at h
          cases h
      · rintro ⟨htext, c', rfl, hright⟩
        obtain ⟨rfl, rfl⟩ := List.cons.inj htext
        rw [if_pos hright]
        exact List.mem_singleton_self _

theorem mem_andThen {firsts : List (List Char × List Char)}
    {next : List Char → List Char → List (List Char × List Char)} {piece rest : List Char} :
    (piece, rest) ∈ andThen firsts next ↔ ∃ first behind second, piece = first ++ second ∧
      (first, behind) ∈ firsts ∧ (second, rest) ∈ next first behind := by
  rw [andThen, List.mem_flatMap]
  constructor
  · rintro ⟨⟨first, behind⟩, hfirst, hmap⟩
    obtain ⟨⟨second, last⟩, hsecond, heq⟩ := List.mem_map.mp hmap
    obtain ⟨rfl, rfl⟩ := Prod.mk.inj heq
    exact ⟨first, behind, second, rfl, hfirst, hsecond⟩
  · rintro ⟨first, behind, second, rfl, hfirst, hsecond⟩
    exact ⟨(first, behind), hfirst, List.mem_map.mpr ⟨(second, rest), hsecond, rfl⟩⟩

/-- Nothing is split off exactly if the piece is empty. -/
theorem mem_singleton_nil {text piece rest : List Char} :
    (piece, rest) ∈ [([], text)] ↔ text = piece ++ rest ∧ piece = [] := by
  rw [List.mem_singleton, Prod.mk.injEq]
  constructor
  · rintro ⟨rfl, rfl⟩
    exact ⟨rfl, rfl⟩
  · rintro ⟨rfl, rfl⟩
    exact ⟨rfl, rfl⟩

/-- If some splits are the matches of a piece, a number of them one behind the other are
those of as many pieces. -/
theorem mem_copySplits {splits : List Char → List Char → List (List Char × List Char)}
    {Piece : List Char → List Char → List Char → Prop}
    (h : ∀ before text piece rest, (piece, rest) ∈ splits before text ↔
      text = piece ++ rest ∧ Piece before piece rest)
    {n : ℕ} {before text piece rest : List Char} :
    (piece, rest) ∈ copySplits splits n before text ↔
      text = piece ++ rest ∧ Copies Piece n before piece rest := by
  induction n generalizing before text piece with
  | zero => exact mem_singleton_nil
  | succ n ih =>
      rw [copySplits, mem_andThen]
      constructor
      · rintro ⟨first, behind, second, rfl, hfirst, hsecond⟩
        obtain ⟨rfl, hpiece⟩ := (h _ _ _ _).mp hfirst
        obtain ⟨rfl, hcopies⟩ := ih.mp hsecond
        exact ⟨(List.append_assoc first second rest).symm, first, second, rfl, hpiece, hcopies⟩
      · rintro ⟨rfl, first, second, rfl, hpiece, hcopies⟩
        exact ⟨first, second ++ rest, second, rfl,
          (h _ _ _ _).mpr ⟨List.append_assoc first second rest, hpiece⟩,
          ih.mpr ⟨rfl, hcopies⟩⟩

/-- Among the copies that make up a text, the empty ones can be left out, but for one. -/
theorem exists_copies_le {Piece : List Char → List Char → List Char → Prop} {n : ℕ}
    {before text after : List Char} (h : Copies Piece (n + 1) before text after) :
    ∃ m ≤ text.length, Copies Piece (m + 1) before text after := by
  induction n generalizing before text with
  | zero => exact ⟨0, Nat.zero_le _, h⟩
  | succ n ih =>
      obtain ⟨first, rest, rfl, hpiece, hcopies⟩ := h
      obtain ⟨m, hm, hfewer⟩ := ih hcopies
      cases first with
      | nil =>
          rw [List.append_nil] at hfewer
          exact ⟨m, hm, hfewer⟩
      | cons c first =>
          refine ⟨m + 1, ?_, c :: first, rest, rfl, hpiece, hfewer⟩
          simp only [List.length_append, List.length_cons]
          omega

/-- The counts that are tried are enough. -/
theorem exists_counts_iff {Piece : List Char → List Char → List Char → Prop}
    (quantifier : Quantifier) {before piece rest : List Char} :
    (∃ n ∈ quantifier.counts (piece ++ rest).length, Copies Piece n before piece rest) ↔
      ∃ n, quantifier.Allows n ∧ Copies Piece n before piece rest := by
  cases quantifier with
  | optional =>
      apply exists_congr
      intro n
      have hcount : n ∈ [0, 1] ↔ n ≤ 1 := by
        simp only [List.mem_cons, List.not_mem_nil, or_false]
        omega
      exact and_congr hcount Iff.rfl
  | oneOrMore =>
      constructor
      · rintro ⟨n, hn, hcopies⟩
        obtain ⟨m, -, rfl⟩ := List.mem_map.mp hn
        exact ⟨m + 1, Nat.succ_pos m, hcopies⟩
      · rintro ⟨n, hn, hcopies⟩
        obtain ⟨k, rfl⟩ := Nat.exists_eq_succ_of_ne_zero (Nat.one_le_iff_ne_zero.mp hn)
        obtain ⟨m, hm, hfewer⟩ := exists_copies_le hcopies
        refine ⟨m + 1, List.mem_map.mpr ⟨m, List.mem_range.mpr ?_, rfl⟩, hfewer⟩
        rw [List.length_append]
        omega
  | between low high =>
      apply exists_congr
      intro n
      have hcount : n ∈ (Quantifier.between low high).counts (piece ++ rest).length ↔
          low ≤ n ∧ n ≤ high := by
        rw [Quantifier.counts, List.mem_filter, List.mem_range, decide_eq_true_iff]
        omega
      exact and_congr hcount Iff.rfl

/-- The splits are the matches. -/
theorem mem_splits {regex : Regex} {before text piece rest : List Char} :
    (piece, rest) ∈ regex.splits before text ↔
      text = piece ++ rest ∧ regex.Matches before piece rest := by
  induction regex generalizing before text piece rest with
  | empty => exact mem_singleton_nil
  | char c =>
      rw [splits, mem_headSplit, Matches]
      simp
  | oneOf items => exact mem_headSplit
  | startOfText =>
      rw [splits]
      by_cases hbefore : before = []
      · rw [if_pos hbefore, mem_singleton_nil, Matches]
        simp [hbefore]
      · rw [if_neg hbefore, Matches]
        simp [hbefore]
  | endOfText =>
      rw [splits, Matches]
      by_cases htext : text = []
      · rw [if_pos htext, mem_singleton_nil]
        constructor
        · rintro ⟨hsplit, rfl⟩
          exact ⟨hsplit, rfl, hsplit.symm.trans htext⟩
        · rintro ⟨hsplit, hpiece, -⟩
          exact ⟨hsplit, hpiece⟩
      · rw [if_neg htext]
        constructor
        · intro h
          cases h
        · rintro ⟨rfl, rfl, rfl⟩
          exact absurd rfl htext
  | seq first second ihfirst ihsecond =>
      rw [splits, mem_andThen, Matches]
      constructor
      · rintro ⟨piece, behind, last, rfl, hfirst, hsecond⟩
        obtain ⟨rfl, hpiece⟩ := ihfirst.mp hfirst
        obtain ⟨rfl, hlast⟩ := ihsecond.mp hsecond
        exact ⟨(List.append_assoc piece last rest).symm, piece, last, rfl, hpiece, hlast⟩
      · rintro ⟨rfl, piece, last, rfl, hpiece, hlast⟩
        exact ⟨piece, last ++ rest, last, rfl,
          ihfirst.mpr ⟨List.append_assoc piece last rest, hpiece⟩, ihsecond.mpr ⟨rfl, hlast⟩⟩
  | alt first second ihfirst ihsecond =>
      rw [splits, List.mem_append, ihfirst, ihsecond, Matches, and_or_left]
  | group inner ih => exact ih
  | repeated inner quantifier ih =>
      have hinner : ∀ before text piece rest, (piece, rest) ∈ inner.splits before text ↔
          text = piece ++ rest ∧ inner.Matches before piece rest := fun _ _ _ _ => ih
      rw [splits, List.mem_flatMap, Matches]
      constructor
      · rintro ⟨n, hn, hsplit⟩
        obtain ⟨rfl, hcopies⟩ := (mem_copySplits hinner).mp hsplit
        exact ⟨rfl, (exists_counts_iff quantifier).mp ⟨n, hn, hcopies⟩⟩
      · rintro ⟨rfl, hcopies⟩
        obtain ⟨n, hn, hcopies⟩ := (exists_counts_iff quantifier).mpr hcopies
        exact ⟨n, hn, (mem_copySplits hinner).mpr ⟨rfl, hcopies⟩⟩

/-- Search a text for a match, at one place after the other. -/
def isMatch (regex : Regex) (text : String) : Bool :=
  (List.range (text.toList.length + 1)).any fun place =>
    regex.splits (text.toList.take place) (text.toList.drop place) ≠ []

theorem isMatch_iff_accepts {regex : Regex} {text : String} :
    regex.isMatch text = true ↔ regex.Accepts text := by
  simp only [isMatch, List.any_eq_true, List.mem_range, decide_eq_true_iff]
  constructor
  · rintro ⟨place, -, hsplits⟩
    obtain ⟨⟨piece, rest⟩, hmem⟩ := List.exists_mem_of_ne_nil _ hsplits
    obtain ⟨htext, hmatches⟩ := mem_splits.mp hmem
    refine ⟨_, piece, rest, ?_, hmatches⟩
    rw [List.append_assoc, ← htext, List.take_append_drop]
  · rintro ⟨before, piece, after, htext, hmatches⟩
    rw [List.append_assoc] at htext
    refine ⟨before.length, ?_, List.ne_nil_of_mem (a := (piece, after)) (mem_splits.mpr ?_)⟩
    · rw [htext, List.length_append]
      omega
    · rw [htext, List.drop_left, List.take_left]
      exact ⟨rfl, hmatches⟩

instance (regex : Regex) (text : String) : Decidable (regex.Accepts text) :=
  decidable_of_iff _ isMatch_iff_accepts

end Regex

end GitEventsRunner.Lib
