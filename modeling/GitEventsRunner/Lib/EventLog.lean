/-
# A store seen through its log of events

A store that announces its changes is the list of its events, newest first: the
value of a key is the one of the last event about it, `none` for a key that was
removed.  A reader that follows the log has missed the newest `lag` events and
sees the store as it was before them.  So the stored value and every value a
reader can still come to see are read off one list.

`at p log lag key` says that the value a reader with that lag sees has the
property `p`.  A log is `Steady` over its newest events if none of them takes the
property off a value that had it.
-/

import Mathlib.Data.List.Basic

namespace GitEventsRunner.Lib

universe u v

variable {K : Type u} {V : Type v}

/-- Some of the newest `lag` events is about the key. -/
def Missed (log : List (K × Option V)) (lag : ℕ) (key : K) : Prop :=
  ∃ event ∈ log.take lag, event.1 = key

section Missing

variable {log : List (K × Option V)} {lag : ℕ} {key : K}

theorem Missed.cons (h : Missed log lag key) (event : K × Option V) :
    Missed (event :: log) (lag + 1) key := by
  obtain ⟨old, hmem, hkey⟩ := h
  exact ⟨old, List.mem_cons_of_mem event hmem, hkey⟩

theorem missed_cons_self (value : Option V) : Missed ((key, value) :: log) (lag + 1) key :=
  ⟨(key, value), List.mem_cons_self, rfl⟩

/-- To miss an event more is to miss it or to have missed one before. -/
theorem Missed.of_succ (h : Missed log (lag + 1) key) :
    Missed log lag key ∨ ∃ value, log[lag]? = some (key, value) := by
  obtain ⟨event, hmem, rfl⟩ := h
  obtain ⟨n, hn⟩ := List.mem_iff_getElem?.mp hmem
  rw [List.getElem?_take] at hn
  split at hn
  · rename_i hlt
    rcases Nat.lt_succ_iff_lt_or_eq.mp hlt with hless | rfl
    · refine Or.inl ⟨event, List.mem_iff_getElem?.mpr ⟨n, ?_⟩, rfl⟩
      rw [List.getElem?_take, if_pos hless]
      exact hn
    · exact Or.inr ⟨event.2, hn⟩
  · cases hn

end Missing

variable [DecidableEq K]

/-- The value of a key after the events of a log, newest first. -/
def latest (log : List (K × Option V)) (key : K) : Option V :=
  (log.find? fun event => event.1 = key).bind Prod.snd

/-- The value of the key behind the newest `lag` events has a property. -/
def holdsAt (p : V → Bool) (log : List (K × Option V)) (lag : ℕ) (key : K) : Bool :=
  (latest (log.drop lag) key).any p

section Rules

variable {p q : V → Bool} {log : List (K × Option V)} {lag : ℕ} {key : K}

@[simp]
theorem latest_nil (key : K) : latest ([] : List (K × Option V)) key = none := rfl

theorem latest_cons_self (key : K) (value : Option V) (log : List (K × Option V)) :
    latest ((key, value) :: log) key = value := by
  simp [latest]

theorem latest_cons_of_ne {key other : K} (value : Option V) (log : List (K × Option V))
    (hne : key ≠ other) : latest ((key, value) :: log) other = latest log other := by
  simp [latest, hne]

theorem holdsAt_zero : holdsAt p log 0 key = (latest log key).any p := rfl

/-- A new event is one more event missed. -/
@[simp]
theorem holdsAt_cons_succ (event : K × Option V) :
    holdsAt p (event :: log) (lag + 1) key = holdsAt p log lag key := rfl

theorem holdsAt_cons_zero_self (value : Option V) :
    holdsAt p ((key, value) :: log) 0 key = value.any p := by
  rw [holdsAt_zero, latest_cons_self]

theorem holdsAt_cons_zero_of_ne {other : K} (value : Option V) (hne : key ≠ other) :
    holdsAt p ((key, value) :: log) 0 other = holdsAt p log 0 other := by
  rw [holdsAt_zero, latest_cons_of_ne value log hne, holdsAt_zero]

theorem exists_latest_of_holdsAt (h : holdsAt p log lag key = true) :
    ∃ value, latest (log.drop lag) key = some value ∧ p value = true :=
  Option.any_eq_true _ _ |>.mp h

theorem holdsAt_of_latest {value : V} (h : latest (log.drop lag) key = some value) :
    holdsAt p log lag key = p value := by
  simp [holdsAt, h]

theorem holdsAt_mono (hpq : ∀ value, p value = true → q value = true)
    (h : holdsAt p log lag key = true) : holdsAt q log lag key = true := by
  obtain ⟨value, hlatest, hp⟩ := exists_latest_of_holdsAt h
  rw [holdsAt_of_latest hlatest]
  exact hpq value hp

/-- A reader that has missed nothing about a key sees its value. -/
theorem latest_drop_of_not_missed (h : ¬ Missed log lag key) :
    latest (log.drop lag) key = latest log key := by
  have hnone : (log.take lag).find? (fun event => event.1 = key) = none := by
    rw [List.find?_eq_none]
    intro event hmem heq
    exact h ⟨event, hmem, of_decide_eq_true heq⟩
  have hfind : log.find? (fun event => event.1 = key) =
      (log.drop lag).find? (fun event => event.1 = key) := by
    conv_lhs => rw [← List.take_append_drop lag log]
    rw [List.find?_append, hnone, Option.none_or]
  rw [latest, latest, hfind]

/-- Behind one event more, only the key of that event can have another value. -/
theorem holdsAt_succ_of_ne {event : K × Option V} (hevent : log[lag]? = some event)
    (hne : event.1 ≠ key) : holdsAt p log (lag + 1) key = holdsAt p log lag key := by
  obtain ⟨hlt, rfl⟩ := List.getElem?_eq_some_iff.mp hevent
  have hdrop : log.drop lag = log[lag] :: log.drop (lag + 1) := List.drop_eq_getElem_cons hlt
  rw [holdsAt, holdsAt, hdrop, latest_cons_of_ne _ _ hne]

/-- None of the newest events takes the property off a value. -/
def Steady (p : V → Bool) (log : List (K × Option V)) (lag : ℕ) : Prop :=
  ∀ n < lag, ∀ event, log[n]? = some event →
    holdsAt p log (n + 1) event.1 = true → holdsAt p log n event.1 = true

instance : Decidable (Steady p log lag) :=
  decidable_of_iff (∀ n < lag, (log[n]?.all fun event =>
      !holdsAt p log (n + 1) event.1 || holdsAt p log n event.1) = true) (by
    simp only [Steady, Option.all_eq_true, Bool.or_eq_true, Bool.not_eq_true', imp_iff_not_or,
      Bool.not_eq_true])

theorem Steady.step (h : Steady p log lag) {n : ℕ} (hn : n < lag)
    (hold : holdsAt p log (n + 1) key = true) : holdsAt p log n key = true := by
  by_cases hlt : n < log.length
  · have hevent : log[n]? = some log[n] := List.getElem?_eq_getElem hlt
    by_cases hkey : log[n].1 = key
    · subst hkey
      exact h n hn log[n] hevent hold
    · rw [← holdsAt_succ_of_ne hevent hkey]
      exact hold
  · have hnil : log.drop (n + 1) = [] := List.drop_eq_nil_of_le (by omega)
    simp [holdsAt, hnil] at hold

/-- Over a steady log, what a value was it still is. -/
theorem Steady.mono (h : Steady p log lag) {m n : ℕ} (hmn : m ≤ n) (hn : n ≤ lag)
    (hold : holdsAt p log n key = true) : holdsAt p log m key = true := by
  induction n with
  | zero =>
      obtain rfl : m = 0 := Nat.le_zero.mp hmn
      exact hold
  | succ n ih =>
      rcases Nat.le_succ_iff.mp hmn with hle | rfl
      · exact ih hle (by omega) (h.step (by omega) hold)
      · exact hold

end Rules

end GitEventsRunner.Lib
