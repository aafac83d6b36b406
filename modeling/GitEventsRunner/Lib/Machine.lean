/-
# Runs of a partial step function

A machine is a partial function `step : σ → α → Option σ`: in a state an action
is either refused (`none`) or leads to one state.  Everything an environment may
decide is part of the action, so "for every interleaving" is "for every list of
actions".  The rules below are the only inductions over runs: an invariant kept
by every step holds at the end of a run, a condition on the steps may be
assumed, and a property of the steps is equivalent to such a condition when the
two agree one step at a time.
-/

import Mathlib.Data.List.Basic

namespace GitEventsRunner.Lib

universe u v

variable {σ : Type u} {α : Type v}

/-- Perform a list of actions in order; `none` if one of them is refused. -/
def run (step : σ → α → Option σ) : σ → List α → Option σ
  | s, [] => some s
  | s, a :: as => (step s a).bind fun t => run step t as

/-- Every step of the run satisfies `P` of its source, action and target.  Steps
after a refused action do not exist and are not constrained. -/
def Along (step : σ → α → Option σ) (P : σ → α → σ → Prop) : σ → List α → Prop
  | _, [] => True
  | s, a :: as => ∀ t, step s a = some t → P s a t ∧ Along step P t as

/-- Perform actions up to the first refused one and let an observer note each: what it
noted in the end, and the state it left the machine in. -/
def watch {ω : Type*} (step : σ → α → Option σ) (note : ω → σ → α → ω) : ω → σ → List α → ω × σ
  | w, s, [] => (w, s)
  | w, s, a :: as =>
      match step s a with
      | some t => watch step note (note w s a) t as
      | none => (w, s)

section Rules

variable {step : σ → α → Option σ}

@[simp]
theorem run_nil (s : σ) : run step s [] = some s := rfl

theorem run_cons_eq_some {s u : σ} {a : α} {as : List α} :
    run step s (a :: as) = some u ↔ ∃ t, step s a = some t ∧ run step t as = some u := by
  simp [run, Option.bind_eq_some_iff]

instance decidableAlong (P : σ → α → σ → Prop) [∀ s a t, Decidable (P s a t)] :
    (s : σ) → (as : List α) → Decidable (Along step P s as)
  | _, [] => isTrue trivial
  | s, a :: as =>
      match h : step s a with
      | none => isTrue fun t ht => by simp [h] at ht
      | some t =>
          have := decidableAlong P t as
          decidable_of_iff (P s a t ∧ Along step P t as) (by simp [Along, h])

/-- Two conditions on the steps of a run are one. -/
theorem Along.and {P Q : σ → α → σ → Prop} {s : σ} {as : List α}
    (hP : Along step P s as) (hQ : Along step Q s as) :
    Along step (fun s a t => P s a t ∧ Q s a t) s as := by
  induction as generalizing s with
  | nil => trivial
  | cons a as ih =>
      intro t hst
      obtain ⟨hPa, hPs⟩ := hP t hst
      obtain ⟨hQa, hQs⟩ := hQ t hst
      exact ⟨⟨hPa, hQa⟩, ih hPs hQs⟩

theorem Along.mono {P Q : σ → α → σ → Prop} {s : σ} {as : List α} (h : Along step P s as)
    (hPQ : ∀ s a t, P s a t → Q s a t) : Along step Q s as := by
  induction as generalizing s with
  | nil => trivial
  | cons a as ih =>
      intro t hst
      obtain ⟨ha, hrest⟩ := h t hst
      exact ⟨hPQ s a t ha, ih hrest⟩

/-- Invariant rule with a condition on the steps: what every admitted step keeps
holds wherever an admitted run ends. -/
theorem invariant_of_along {Inv : σ → Prop} {C : σ → α → σ → Prop}
    (hstep : ∀ s a t, step s a = some t → Inv s → C s a t → Inv t)
    {s u : σ} {as : List α} (hrun : run step s as = some u)
    (hc : Along step C s as) (hs : Inv s) : Inv u := by
  induction as generalizing s with
  | nil =>
      obtain rfl : s = u := by simpa using hrun
      exact hs
  | cons a as ih =>
      obtain ⟨t, hst, htu⟩ := run_cons_eq_some.mp hrun
      obtain ⟨hca, hrest⟩ := hc t hst
      exact ih htu hrest (hstep s a t hst hs hca)

/-- Invariant rule for properties of steps: a condition on the steps that keeps an
invariant, and with it gives the property, gives it along the run. -/
theorem along_of_along (Inv : σ → Prop) {P C : σ → α → σ → Prop}
    (hstep : ∀ s a t, step s a = some t → Inv s → C s a t → Inv t)
    (hP : ∀ s a t, step s a = some t → Inv s → C s a t → P s a t)
    {s : σ} (hs : Inv s) {as : List α} (hc : Along step C s as) : Along step P s as := by
  induction as generalizing s with
  | nil => trivial
  | cons a as ih =>
      intro t hst
      obtain ⟨hca, hrest⟩ := hc t hst
      exact ⟨hP s a t hst hs hca, ih (hstep s a t hst hs hca) hrest⟩

/-- A fact about single steps may use where the run ends. -/
theorem along_of_reach {Inv : σ → Prop} {P : σ → α → σ → Prop} {s u : σ} {as : List α}
    (hstep : ∀ s a t, step s a = some t → Inv s → Inv t)
    (hP : ∀ s a t, step s a = some t → Inv s → (∃ bs, run step t bs = some u) → P s a t)
    (hrun : run step s as = some u) (hs : Inv s) : Along step P s as := by
  induction as generalizing s with
  | nil => trivial
  | cons a as ih =>
      obtain ⟨t', hst', htu⟩ := run_cons_eq_some.mp hrun
      intro t hst
      obtain rfl : t' = t := Option.some.inj (hst'.symm.trans hst)
      exact ⟨hP s a t' hst hs ⟨as, htu⟩, ih htu (hstep s a t' hst hs)⟩

/-- What holds of all actions holds along the run. -/
theorem along_of_forall_mem {Q : α → Prop} (s : σ) {as : List α} (h : ∀ a ∈ as, Q a) :
    Along step (fun _ a _ => Q a) s as := by
  induction as generalizing s with
  | nil => trivial
  | cons a as ih =>
      intro t _
      exact ⟨h a List.mem_cons_self, ih t fun b hb => h b (List.mem_cons_of_mem a hb)⟩

/-- The empty condition holds along every run. -/
theorem along_true (s : σ) (as : List α) : Along step (fun _ _ _ => True) s as :=
  along_of_forall_mem s fun _ _ => trivial

/-- Invariant rule: what every step keeps holds wherever a run ends. -/
theorem invariant_of_run {Inv : σ → Prop}
    (hstep : ∀ s a t, step s a = some t → Inv s → Inv t)
    {s u : σ} {as : List α} (hrun : run step s as = some u) (hs : Inv s) : Inv u := by
  apply invariant_of_along (C := fun _ _ _ => True) _ hrun (along_true s as) hs
  intro s a t hst hi _
  exact hstep s a t hst hi

/-- Invariant rule for an observer: what it noted and the state of the machine stay in a
relation that every noted step keeps. -/
theorem invariant_of_watch {ω : Type*} {note : ω → σ → α → ω} {Inv : ω → σ → Prop}
    (hstep : ∀ w s a t, step s a = some t → Inv w s → Inv (note w s a) t) {w : ω} {s : σ}
    (hs : Inv w s) (as : List α) :
    Inv (watch step note w s as).1 (watch step note w s as).2 := by
  induction as generalizing w s with
  | nil => exact hs
  | cons a as ih =>
      rw [watch]
      cases hst : step s a with
      | none => exact hs
      | some t => exact ih (hstep w s a t hst hs)

/-- Ranking rule: steps that keep an invariant and lower a rank are no more than the
rank allows. -/
theorem length_le_of_rank (Inv : σ → Prop) (rank : σ → ℕ) {s u : σ} {as : List α}
    (hstep : ∀ s a t, a ∈ as → step s a = some t → Inv s → Inv t ∧ rank t < rank s)
    (hrun : run step s as = some u) (hs : Inv s) : Inv u ∧ as.length + rank u ≤ rank s := by
  induction as generalizing s with
  | nil =>
      obtain rfl : s = u := by simpa using hrun
      exact ⟨hs, by simp⟩
  | cons a as ih =>
      obtain ⟨t, hst, htu⟩ := run_cons_eq_some.mp hrun
      obtain ⟨ht, hlt⟩ := hstep s a t List.mem_cons_self hst hs
      obtain ⟨hu, hle⟩ := ih (fun s b t hb => hstep s b t (List.mem_cons_of_mem a hb)) htu ht
      refine ⟨hu, ?_⟩
      rw [List.length_cons]
      omega

/-- Projection rule: if a component sees of every step either nothing or a step of its own
machine, it sees of a run a run of its own machine. -/
theorem exists_run_of_view {τ : Type*} {β : Type*} {stepOf : τ → β → Option τ} (view : σ → τ)
    (Inv : σ → Prop) (Q : β → Prop) {s u : σ} {as : List α}
    (hstep : ∀ s a t, a ∈ as → step s a = some t → Inv s → Inv t ∧
      (view t = view s ∨ ∃ b, Q b ∧ stepOf (view s) b = some (view t)))
    (hrun : run step s as = some u) (hs : Inv s) :
    Inv u ∧ ∃ bs, (∀ b ∈ bs, Q b) ∧ run stepOf (view s) bs = some (view u) := by
  induction as generalizing s with
  | nil =>
      obtain rfl : s = u := by simpa using hrun
      exact ⟨hs, [], by simp, rfl⟩
  | cons a as ih =>
      obtain ⟨t, hst, htu⟩ := run_cons_eq_some.mp hrun
      obtain ⟨ht, hview⟩ := hstep s a t List.mem_cons_self hst hs
      obtain ⟨hu, bs, hbs, hrest⟩ :=
        ih (fun s b t hb => hstep s b t (List.mem_cons_of_mem a hb)) htu ht
      rcases hview with hsame | ⟨b, hb, hown⟩
      · exact ⟨hu, bs, hbs, hsame ▸ hrest⟩
      · exact ⟨hu, b :: bs, List.forall_mem_cons.mpr ⟨hb, hbs⟩,
          run_cons_eq_some.mpr ⟨view t, hown, hrest⟩⟩

/-- Exactness rule: if, under a standing assumption `D`, a property of steps and
a condition on steps agree at every invariant state, and steps under the
condition keep the invariant, then the runs with the property are exactly the
runs under the condition. -/
theorem along_iff_of_along (Inv : σ → Prop) {P C D : σ → α → σ → Prop}
    (hiff : ∀ s a t, step s a = some t → Inv s → D s a t → (P s a t ↔ C s a t))
    (hstep : ∀ s a t, step s a = some t → Inv s → D s a t → C s a t → Inv t)
    {s : σ} (hs : Inv s) {as : List α} (hD : Along step D s as) :
    Along step P s as ↔ Along step C s as := by
  induction as generalizing s with
  | nil => exact Iff.rfl
  | cons a as ih =>
      constructor
      · intro h t hst
        obtain ⟨hP, hrest⟩ := h t hst
        obtain ⟨hDa, hDs⟩ := hD t hst
        have hC := (hiff s a t hst hs hDa).mp hP
        exact ⟨hC, (ih (hstep s a t hst hs hDa hC) hDs).mp hrest⟩
      · intro h t hst
        obtain ⟨hC, hrest⟩ := h t hst
        obtain ⟨hDa, hDs⟩ := hD t hst
        exact ⟨(hiff s a t hst hs hDa).mpr hC, (ih (hstep s a t hst hs hDa hC) hDs).mpr hrest⟩

/-- The exactness rule without a standing assumption. -/
theorem along_iff_of_invariant (Inv : σ → Prop) {P C : σ → α → σ → Prop}
    (hiff : ∀ s a t, step s a = some t → Inv s → (P s a t ↔ C s a t))
    (hstep : ∀ s a t, step s a = some t → Inv s → C s a t → Inv t)
    {s : σ} (hs : Inv s) (as : List α) : Along step P s as ↔ Along step C s as := by
  apply along_iff_of_along Inv _ _ hs (along_true s as)
  · intro s a t hst hi _
    exact hiff s a t hst hi
  · intro s a t hst hi _ hC
    exact hstep s a t hst hi hC

end Rules

end GitEventsRunner.Lib
