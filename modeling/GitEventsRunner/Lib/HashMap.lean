/-
# Finite maps under their program names

Mathlib's `Finmap` is the extensional finite map: two maps with the same
lookups are equal.  This module gives it the vocabulary of an imperative hash
map (`get`, `insert`, `remove`, `extend`, `retain`), states every operation by
what `get` reads afterwards, and counts the entries whose value satisfies a
predicate.  Programs that keep a counter beside a map are verified against
`countP_insert` and `countP_remove`.
-/

import Mathlib.Data.Finmap

namespace GitEventsRunner.Lib

universe u v

/-- A finite map from keys to values, equal to another when all lookups agree. -/
abbrev HashMap (K : Type u) (V : Type v) := Finmap fun _ : K => V

namespace HashMap

variable {K : Type u} {V : Type v} [DecidableEq K]

/-- The value stored under a key. -/
def get (m : HashMap K V) (k : K) : Option V := Finmap.lookup k m

/-- Store a value under a key, replacing what was there. -/
def insert (m : HashMap K V) (k : K) (v : V) : HashMap K V := Finmap.insert k v m

/-- Drop the entry of a key. -/
def remove (m : HashMap K V) (k : K) : HashMap K V := Finmap.erase k m

/-- Add all entries of `other`; on a common key the entry of `other` wins. -/
def extend (m other : HashMap K V) : HashMap K V := other ∪ m

/-- Keep the entries whose key satisfies `p`. -/
def retain (p : K → Bool) (m : HashMap K V) : HashMap K V where
  entries := m.entries.filter fun e => p e.1
  nodupKeys := by
    have h := m.nodupKeys
    generalize m.entries = entries at h
    induction entries using Quot.inductionOn with
    | _ l =>
        have hl : l.NodupKeys := Multiset.coe_nodupKeys.mp h
        exact Multiset.coe_nodupKeys.mpr (hl.sublist List.filter_sublist)

/-- The number of entries whose value satisfies `p`. -/
def countP (p : V → Bool) (m : HashMap K V) : ℕ :=
  m.entries.countP fun e => p e.2 = true

/-- Maps with equal lookups are equal. -/
theorem ext_get {m n : HashMap K V} (h : ∀ k, m.get k = n.get k) : m = n :=
  Finmap.ext_lookup h

/-- The entries of a map can be listed, each key once. -/
theorem exists_entries (m : HashMap K V) : ∃ order : List (K × V),
    (order.map Prod.fst).Nodup ∧ ∀ k v, (k, v) ∈ order ↔ m.get k = some v := by
  induction m using Finmap.induction_on with
  | _ s =>
      apply Exists.intro (s.entries.map fun e => (e.1, e.2))
      constructor
      · rw [List.map_map]
        exact s.keys_nodup
      · intro k v
        have hlookup : Finmap.lookup k s.toFinmap = some v ↔ Sigma.mk k v ∈ s.entries :=
          AList.mem_lookup_iff
        rw [get, hlookup, List.mem_map]
        constructor
        · rintro ⟨⟨key, value⟩, hmem, heq⟩
          obtain ⟨rfl, rfl⟩ := Prod.mk.inj heq
          exact hmem
        · intro hmem
          exact ⟨_, hmem, rfl⟩

/-- An order in which a map is iterated: each entry once. -/
structure Listing (m : HashMap K V) where
  entries : List (K × V)
  nodup : (entries.map Prod.fst).Nodup
  mem_iff : ∀ k v, (k, v) ∈ entries ↔ m.get k = some v

theorem nonempty_listing (m : HashMap K V) : Nonempty (Listing m) :=
  let ⟨order, hnodup, hmem⟩ := exists_entries m
  ⟨⟨order, hnodup, hmem⟩⟩

@[simp]
theorem get_empty (k : K) : (∅ : HashMap K V).get k = none := Finmap.lookup_empty k

theorem get_insert (m : HashMap K V) (k k' : K) (v : V) :
    (m.insert k v).get k' = if k' = k then some v else m.get k' := by
  by_cases h : k' = k
  · subst h
    simp [get, insert]
  · simp [get, insert, h, Finmap.lookup_insert_of_ne _ h]

@[simp]
theorem get_insert_self (m : HashMap K V) (k : K) (v : V) :
    (m.insert k v).get k = some v := by
  simp [get_insert]

theorem get_insert_of_ne (m : HashMap K V) {k k' : K} (v : V) (h : k' ≠ k) :
    (m.insert k v).get k' = m.get k' := by
  simp [get_insert, h]

theorem get_remove (m : HashMap K V) (k k' : K) :
    (m.remove k).get k' = if k' = k then none else m.get k' := by
  by_cases h : k' = k
  · subst h
    simp [get, remove]
  · simp [get, remove, h, Finmap.lookup_erase_ne h]

@[simp]
theorem get_remove_self (m : HashMap K V) (k : K) : (m.remove k).get k = none := by
  simp [get_remove]

theorem get_remove_of_ne (m : HashMap K V) {k k' : K} (h : k' ≠ k) :
    (m.remove k).get k' = m.get k' := by
  simp [get_remove, h]

theorem get_extend (m other : HashMap K V) (k : K) :
    (m.extend other).get k = (other.get k).or (m.get k) := by
  by_cases h : k ∈ other
  · obtain ⟨v, hv⟩ := Finmap.mem_iff.mp h
    rw [get, extend, Finmap.lookup_union_left h]
    simp [get, hv]
  · rw [get, extend, Finmap.lookup_union_right h]
    simp [get, Finmap.lookup_eq_none.mpr h]

theorem get_retain (p : K → Bool) (m : HashMap K V) (k : K) :
    (m.retain p).get k = if p k then m.get k else none := by
  apply Option.ext
  intro v
  rw [← Option.mem_def, ← Option.mem_def, get, Finmap.mem_lookup_iff]
  by_cases h : p k
  · rw [if_pos h, get, Finmap.mem_lookup_iff]
    simp [retain, h]
  · simp [retain, h]

/-- One if the entry is present and satisfies `p`, else zero: what a single key
contributes to `countP`. -/
def weight (p : V → Bool) (entry : Option V) : ℕ := if entry.any p then 1 else 0

@[simp]
theorem weight_none (p : V → Bool) : weight p none = 0 := rfl

theorem weight_some (p : V → Bool) (v : V) : weight p (some v) = if p v then 1 else 0 := rfl

omit [DecidableEq K] in
@[simp]
theorem countP_empty (p : V → Bool) : (∅ : HashMap K V).countP p = 0 := rfl

/-- Inserting under a fresh key adds exactly the new entry's weight. -/
theorem countP_insert_of_get_eq_none (p : V → Bool) {m : HashMap K V} {k : K} (v : V)
    (h : m.get k = none) :
    (m.insert k v).countP p = m.countP p + weight p (some v) := by
  have hmem : k ∉ m := Finmap.lookup_eq_none.mp h
  rw [countP, insert, Finmap.entries_insert_of_notMem hmem, Multiset.countP_cons]
  rfl

/-- Removing a key takes away exactly the weight of what was stored there. -/
theorem countP_remove (p : V → Bool) (m : HashMap K V) (k : K) :
    (m.remove k).countP p + weight p (m.get k) = m.countP p := by
  cases h : m.get k with
  | none =>
      have hsame : m.remove k = m := ext_get fun k' => by
        by_cases hk : k' = k
        · subst hk
          rw [get_remove_self, h]
        · exact get_remove_of_ne m hk
      rw [hsame, weight_none, Nat.add_zero]
  | some v =>
      have hback : m = (m.remove k).insert k v := ext_get fun k' => by
        by_cases hk : k' = k
        · subst hk
          rw [get_insert_self, h]
        · rw [get_insert_of_ne _ _ hk, get_remove_of_ne m hk]
      rw [← countP_insert_of_get_eq_none p v (get_remove_self m k), ← hback]

/-- Replacing an entry exchanges its weight for the new one's. -/
theorem countP_insert (p : V → Bool) (m : HashMap K V) (k : K) (v : V) :
    (m.insert k v).countP p + weight p (m.get k) = m.countP p + weight p (some v) := by
  have hover : m.insert k v = (m.remove k).insert k v := ext_get fun k' => by
    by_cases hk : k' = k
    · subst hk
      rw [get_insert_self, get_insert_self]
    · rw [get_insert_of_ne _ _ hk, get_insert_of_ne _ _ hk, get_remove_of_ne m hk]
  rw [hover, countP_insert_of_get_eq_none p v (get_remove_self m k), Nat.add_right_comm,
    countP_remove]

/-! ## Maps from their entries -/

/-- The map of some entries; on a common key the later entry wins. -/
def ofList (entries : List (K × V)) : HashMap K V :=
  entries.foldl (fun m e => m.insert e.1 e.2) ∅

/-- What is read after entries with different keys were added. -/
theorem get_foldl_insert {entries : List (K × V)} (hnodup : (entries.map Prod.fst).Nodup)
    (m : HashMap K V) (k : K) (v : V) :
    (entries.foldl (fun m e => m.insert e.1 e.2) m).get k = some v ↔
      (k, v) ∈ entries ∨ k ∉ entries.map Prod.fst ∧ m.get k = some v := by
  induction entries generalizing m with
  | nil => simp
  | cons e entries ih =>
      obtain ⟨k', v'⟩ := e
      rw [List.map_cons, List.nodup_cons] at hnodup
      rw [List.foldl_cons, ih hnodup.2, get_insert]
      by_cases hk : k = k'
      · subst hk
        have hnot : (k, v) ∉ entries := by
          intro hmem
          exact hnodup.1 (List.mem_map.mpr ⟨(k, v), hmem, rfl⟩)
        simp [hnot, hnodup.1, eq_comm]
      · simp [hk]

/-- A map is determined by its entries, in any order. -/
theorem Listing.ofList_entries {m : HashMap K V} (order : Listing m) :
    ofList order.entries = m := by
  apply ext_get
  intro k
  apply Option.ext
  intro v
  rw [ofList, get_foldl_insert order.nodup, order.mem_iff]
  simp

end HashMap

/-! ## Maps as lists in the order of their keys -/

section Ordered

variable {κ β : Type} [BEq κ] [LawfulBEq κ] {r : κ → κ → Prop}

/-- A key that is found after the head of an ordered list comes after the head. -/
theorem rel_of_lookup_eq_some {x : κ × β} {xs : List (κ × β)} {k : κ} {b : β}
    (hordered : (x :: xs).Pairwise fun a b => r a.1 b.1) (h : xs.lookup k = some b) :
    r x.1 k := by
  obtain ⟨before, after, rfl, -⟩ := List.lookup_eq_some_iff.mp h
  exact (List.pairwise_cons.mp hordered).1 (k, b) (List.mem_append_right _ List.mem_cons_self)

/-- The key of the head of an ordered list is not found after it. -/
theorem lookup_eq_none_of_pairwise [Std.Asymm r] {x : κ × β} {xs : List (κ × β)}
    (hordered : (x :: xs).Pairwise fun a b => r a.1 b.1) : xs.lookup x.1 = none := by
  rw [Option.eq_none_iff_forall_ne_some]
  intro value hvalue
  have hself : r x.1 x.1 := rel_of_lookup_eq_some hordered hvalue
  exact Std.Asymm.asymm _ _ hself hself

/-- In an ordered list a lookup finds what the list contains. -/
theorem lookup_eq_some_iff_mem [Std.Asymm r] {xs : List (κ × β)} {k : κ} {b : β}
    (hordered : xs.Pairwise fun a b => r a.1 b.1) : xs.lookup k = some b ↔ (k, b) ∈ xs := by
  constructor
  · intro h
    obtain ⟨before, after, rfl, -⟩ := List.lookup_eq_some_iff.mp h
    exact List.mem_append_right _ List.mem_cons_self
  · intro h
    induction xs with
    | nil => cases h
    | cons x xs ih =>
        obtain ⟨hfirst, hrest⟩ := List.pairwise_cons.mp hordered
        rcases List.mem_cons.mp h with rfl | hlater
        · exact List.lookup_cons_self
        · have hne : k ≠ x.1 := by
            rintro rfl
            have hself : r x.1 x.1 := hfirst (x.1, b) hlater
            exact Std.Asymm.asymm _ _ hself hself
          rw [List.lookup_cons, beq_false_of_ne hne]
          exact ih hrest hlater

/-- Lists in the order of their keys are equal if all lookups agree. -/
theorem eq_of_lookup_eq [Std.Asymm r] {xs ys : List (κ × β)}
    (hxs : xs.Pairwise fun a b => r a.1 b.1) (hys : ys.Pairwise fun a b => r a.1 b.1)
    (h : ∀ k, xs.lookup k = ys.lookup k) : xs = ys := by
  induction xs generalizing ys with
  | nil =>
      cases ys with
      | nil => rfl
      | cons y ys =>
          obtain ⟨k', b'⟩ := y
          have hnone := h k'
          rw [List.lookup_cons_self] at hnone
          cases hnone
  | cons x xs ih =>
      obtain ⟨k, b⟩ := x
      have hk := h k
      rw [List.lookup_cons_self] at hk
      cases ys with
      | nil => cases hk
      | cons y ys =>
          obtain ⟨k', b'⟩ := y
          have hk' := h k'
          rw [List.lookup_cons_self] at hk'
          -- neither head comes before the other, so they have the same key
          have hkey : k = k' := by
            by_contra hne
            rw [List.lookup_cons, beq_false_of_ne hne] at hk
            rw [List.lookup_cons, beq_false_of_ne (Ne.symm hne)] at hk'
            exact Std.Asymm.asymm k' k (rel_of_lookup_eq_some hys hk.symm)
              (rel_of_lookup_eq_some hxs hk')
          subst hkey
          rw [List.lookup_cons_self] at hk
          have hrest : xs = ys := by
            apply ih (List.pairwise_cons.mp hxs).2 (List.pairwise_cons.mp hys).2
            intro key
            by_cases hkey : key = k
            · rw [hkey, lookup_eq_none_of_pairwise hxs, lookup_eq_none_of_pairwise hys]
            · have hlater := h key
              rw [List.lookup_cons, List.lookup_cons, beq_false_of_ne hkey] at hlater
              exact hlater
          rw [hrest, Option.some.inj hk]

end Ordered

end GitEventsRunner.Lib
