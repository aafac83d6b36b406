/-
# Trees with named branches

A branch of such a tree lists its names in some order, each of them once, and has a
subtree for every name.  What is under other names is no part of the tree.

A walk visits a branch before what is below it, and the names of a branch in the order
of a comparator that sees their whole paths.  If the comparator puts the names of a
branch in order, the walk is in the lexicographic order of the paths, and it visits
every place of the tree; so the order of the listings does not show in it.
-/

import Mathlib.Data.List.Basic

namespace GitEventsRunner.Lib

/-- A tree with names of type `N`, something else at each branch, and values at the
leaves. -/
inductive NameTree (N I V : Type)
  | leaf (value : V)
  | branch (info : I) (names : List N) (distinct : names.Nodup) (child : N → NameTree N I V)

/-! ## Lexicographic comparison -/

section Lexicographic

variable {α : Type} [Ord α]

/-- A common prefix does not matter. -/
theorem compare_append_append [Std.ReflOrd α] (common xs ys : List α) :
    compare (common ++ xs) (common ++ ys) = compare xs ys := by
  induction common with
  | nil => rfl
  | cons x common ih =>
      rw [List.cons_append, List.cons_append, List.compare_cons_cons, Std.ReflOrd.compare_self, ih]
      rfl

/-- The comparison is that of the lexicographic order. -/
theorem isLE_compare_iff_le [LE α] [LT α] [Std.LawfulOrderLT α] [Std.IsLinearOrder α]
    [Std.LawfulOrderOrd α] [Std.LawfulEqOrd α] {xs ys : List α} :
    (compare xs ys).isLE = true ↔ xs ≤ ys := by
  induction xs generalizing ys with
  | nil => exact ⟨fun _ => List.nil_le ys, fun _ => List.isLE_compare_nil_left⟩
  | cons x xs ih =>
      cases ys with
      | nil => simp
      | cons y ys =>
          rw [List.compare_cons_cons, List.cons_le_cons_iff, ← ih]
          cases hcompare : compare x y with
          | lt =>
              have hlt : x < y := Std.compare_eq_lt.mp hcompare
              exact ⟨fun _ => Or.inl hlt, fun _ => rfl⟩
          | eq =>
              obtain rfl := Std.LawfulEqOrd.eq_of_compare hcompare
              constructor
              · intro h
                exact Or.inr ⟨rfl, h⟩
              · rintro (hlt | ⟨-, hle⟩)
                · exact absurd hlt Std.lt_irrefl
                · exact hle
          | gt =>
              have hlt : y < x := Std.compare_eq_gt.mp hcompare
              constructor
              · intro h
                cases h
              · rintro (hlt' | ⟨rfl, -⟩)
                · exact absurd (Std.lt_trans hlt hlt') Std.lt_irrefl
                · exact absurd hlt Std.lt_irrefl

end Lexicographic

namespace NameTree

variable {N I V : Type}

/-- What is at a path. -/
def descend [DecidableEq N] : NameTree N I V → List N → Option (NameTree N I V)
  | tree, [] => some tree
  | leaf _, _ :: _ => none
  | branch _ names _ child, name :: path =>
      if name ∈ names then (child name).descend path else none

/-- The names of a branch as they are visited. -/
def visited (cmp : List N → List N → Ordering) (path : List N) (names : List N) : List N :=
  names.mergeSort fun a b => (cmp (path ++ [a]) (path ++ [b])).isLE

/-- The walk over the tree at a path: the paths it visits and what is there. -/
def walk (cmp : List N → List N → Ordering) :
    NameTree N I V → List N → List (List N × NameTree N I V)
  | leaf value, path => [(path, leaf value)]
  | branch info names distinct child, path =>
      (path, branch info names distinct child) ::
        (visited cmp path names).flatMap fun name => walk cmp (child name) (path ++ [name])

/-- The comparator puts names below a common path in their order. -/
def ComparesNames [LE N] (cmp : List N → List N → Ordering) : Prop :=
  ∀ path a b, (cmp (path ++ [a]) (path ++ [b])).isLE = true ↔ a ≤ b

variable {cmp : List N → List N → Ordering}

@[simp]
theorem mem_visited {path names : List N} {name : N} :
    name ∈ visited cmp path names ↔ name ∈ names :=
  List.mem_mergeSort

/-- Walks visit what is at the paths below. -/
theorem mem_walk [DecidableEq N] {tree place : NameTree N I V} {path here : List N} :
    (here, place) ∈ tree.walk cmp path ↔
      ∃ below, here = path ++ below ∧ tree.descend below = some place := by
  induction tree generalizing path with
  | leaf value =>
      constructor
      · intro h
        obtain ⟨rfl, rfl⟩ := Prod.mk.inj (List.mem_singleton.mp h)
        exact ⟨[], (List.append_nil here).symm, rfl⟩
      · rintro ⟨below, rfl, hplace⟩
        cases below with
        | nil =>
            rw [List.append_nil, ← Option.some.inj hplace]
            exact List.mem_singleton_self _
        | cons name below => cases hplace
  | branch info names distinct child ih =>
      rw [walk, List.mem_cons, List.mem_flatMap]
      constructor
      · rintro (hhere | ⟨name, hname, hbelow⟩)
        · obtain ⟨rfl, rfl⟩ := Prod.mk.inj hhere
          exact ⟨[], (List.append_nil here).symm, rfl⟩
        · obtain ⟨below, rfl, hplace⟩ := (ih name).mp hbelow
          refine ⟨name :: below, List.append_assoc path [name] below, ?_⟩
          rw [descend, if_pos (mem_visited.mp hname)]
          exact hplace
      · rintro ⟨below, rfl, hplace⟩
        cases below with
        | nil =>
            rw [List.append_nil, ← Option.some.inj hplace]
            exact Or.inl rfl
        | cons name below =>
            apply Or.inr
            rw [descend] at hplace
            split at hplace
            case isTrue hname =>
              refine ⟨name, mem_visited.mpr hname, (ih name).mpr ⟨below, ?_, hplace⟩⟩
              exact (List.append_assoc path [name] below).symm
            case isFalse => cases hplace

section Order

variable [LE N] [LT N] [Std.LawfulOrderLT N] [Std.IsLinearOrder N]

/-- The names of a branch are visited in order. -/
theorem visited_pairwise (hcmp : ComparesNames cmp) (path : List N) {names : List N}
    (hdistinct : names.Nodup) : (visited cmp path names).Pairwise fun a b => a < b := by
  have hsorted : (visited cmp path names).Pairwise
      fun a b => (cmp (path ++ [a]) (path ++ [b])).isLE = true := by
    apply List.pairwise_mergeSort
    · intro a b c hab hbc
      exact (hcmp path a c).mpr
        (Std.le_trans ((hcmp path a b).mp hab) ((hcmp path b c).mp hbc))
    · intro a b
      rw [Bool.or_eq_true]
      exact Std.le_total.imp (hcmp path a b).mpr (hcmp path b a).mpr
  have hnodup : (visited cmp path names).Nodup :=
    (List.mergeSort_perm _ _).nodup_iff.mpr hdistinct
  apply hsorted.imp₂ _ hnodup
  intro a b hle hne
  exact Std.lt_of_le_of_ne ((hcmp path a b).mp hle) hne

omit [LE N] [Std.LawfulOrderLT N] [Std.IsLinearOrder N] in
/-- Paths through different names of a branch are in the order of the names. -/
theorem append_lt_append {path below below' : List N} {a b : N} (h : a < b) :
    path ++ [a] ++ below < path ++ [b] ++ below' := by
  rw [List.append_assoc, List.append_assoc]
  exact List.append_left_lt (List.cons_lt_cons_iff.mpr (Or.inl h))

/-- A walk is in the order of the paths. -/
theorem walk_pairwise (hcmp : ComparesNames cmp) (tree : NameTree N I V) (path : List N) :
    (tree.walk cmp path).Pairwise fun a b => a.1 < b.1 := by
  classical
  induction tree generalizing path with
  | leaf value => exact List.pairwise_singleton _ _
  | branch info names distinct child ih =>
      rw [walk, List.pairwise_cons, List.pairwise_flatMap]
      refine ⟨?_, fun name _ => ih name (path ++ [name]), ?_⟩
      · rintro ⟨here, place⟩ h
        obtain ⟨name, -, hwalk⟩ := List.mem_flatMap.mp h
        obtain ⟨below, rfl, -⟩ := mem_walk.mp hwalk
        have hnil : path ++ [] < path ++ (name :: below) :=
          List.append_left_lt (List.nil_lt_cons name below)
        rw [List.append_nil, List.append_cons] at hnil
        exact hnil
      · apply (visited_pairwise hcmp path distinct).imp
        rintro a b hlt ⟨here, place⟩ hhere ⟨there, place'⟩ hthere
        obtain ⟨below, rfl, -⟩ := mem_walk.mp hhere
        obtain ⟨below', rfl, -⟩ := mem_walk.mp hthere
        exact append_lt_append hlt

end Order

end NameTree

end GitEventsRunner.Lib
