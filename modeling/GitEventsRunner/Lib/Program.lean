/-
# Effectful programs and their interleavings

A program is a tree: it returns, or it performs an effect and goes on with
whatever reply comes back.  The effects a program may perform and the replies
they may get are parameters, so the tree holds every path the program can take
and "for every outcome of the individual steps" is a quantifier over replies.

Several readings of a program are given.  `Runs` lists the effects of one
complete execution.  `All` bounds the effects a program can perform at all and
`Returns` the results it can have, also after `refine` has replaced each effect
by a program of its own.  `Safe` is a
program logic for programs that share state with others: a protocol says what a
program must know to perform an effect and what it learns from the reply, and
knowledge only grows, so that it survives the steps of other programs.  `Pool`
interleaves any number of programs over a shared state; a program that is `Safe`
on its own is safe in every pool.
-/

import GitEventsRunner.Lib.Machine
import Mathlib.Data.Set.BooleanAlgebra
import Mathlib.Order.CompletePartialOrder

namespace GitEventsRunner.Lib

/-- A program over effects `E` with replies `R` that returns an `α`. -/
inductive Prog {E : Type} (R : E → Type) (α : Type)
  | pure (a : α)
  | call (e : E) (k : R e → Prog R α)

namespace Prog

variable {E : Type} {R : E → Type} {α β : Type}

/-- Run `p`, then `f` on its result. -/
def bind (p : Prog R α) (f : α → Prog R β) : Prog R β :=
  match p with
  | .pure a => f a
  | .call e k => .call e fun r => (k r).bind f

instance : Monad (Prog R) where
  pure := .pure
  bind := .bind

protected theorem bind_pure (p : Prog R α) : p.bind .pure = p := by
  induction p with
  | pure a => rfl
  | call e k ih => exact congrArg (call e) (funext ih)

protected theorem bind_assoc {γ : Type} (p : Prog R α) (f : α → Prog R β) (g : β → Prog R γ) :
    (p.bind f).bind g = p.bind fun a => (f a).bind g := by
  induction p with
  | pure a => rfl
  | call e k ih => exact congrArg (call e) (funext ih)

instance : LawfulMonad (Prog R) :=
  LawfulMonad.mk' _ Prog.bind_pure (fun _ _ => rfl) Prog.bind_assoc

/-- Perform one effect and return its reply. -/
def perform (e : E) : Prog R (R e) := .call e .pure

/-- Run `f` on every element in order. -/
def forEach (f : α → Prog R Unit) : List α → Prog R Unit
  | [] => .pure ()
  | a :: as => do
      f a
      forEach f as

/-! ## Complete executions -/

/-- An effect with the reply it got. -/
abbrev Event (R : E → Type) := Σ e, R e

/-- `p` can perform exactly the listed effects and then return `b`. -/
def Runs : Prog R α → List (Event R) → α → Prop
  | .pure a, trace, b => trace = [] ∧ a = b
  | .call e k, trace, b => ∃ r rest, trace = ⟨e, r⟩ :: rest ∧ (k r).Runs rest b

/-- An execution of a sequence is an execution of its parts, one after the
other. -/
theorem runs_bind {p : Prog R α} {f : α → Prog R β} {trace : List (Event R)} {b : β} :
    (p >>= f).Runs trace b ↔
      ∃ a first second, trace = first ++ second ∧ p.Runs first a ∧ (f a).Runs second b := by
  show (p.bind f).Runs trace b ↔ _
  induction p generalizing trace with
  | pure a =>
      constructor
      · intro h
        exact ⟨a, [], trace, rfl, ⟨rfl, rfl⟩, h⟩
      · rintro ⟨_, _, second, rfl, ⟨rfl, rfl⟩, h⟩
        exact h
  | call e k ih =>
      constructor
      · rintro ⟨r, rest, rfl, h⟩
        obtain ⟨a, first, second, rfl, hfirst, hsecond⟩ := (ih r).mp h
        exact ⟨a, ⟨e, r⟩ :: first, second, rfl, ⟨r, first, rfl, hfirst⟩, hsecond⟩
      · rintro ⟨a, _, second, rfl, ⟨r, first, rfl, hfirst⟩, hsecond⟩
        exact ⟨r, first ++ second, rfl, (ih r).mpr ⟨a, first, second, rfl, hfirst, hsecond⟩⟩

/-- An execution of one effect and what follows it. -/
theorem Runs.of_perform_bind {e : E} {f : R e → Prog R β} {trace : List (Event R)} {b : β}
    (h : (perform e >>= f).Runs trace b) :
    ∃ r rest, trace = ⟨e, r⟩ :: rest ∧ (f r).Runs rest b :=
  h

/-- Where an execution ends is seen from its effects alone. -/
theorem Runs.append_inj {p : Prog R α} {first first' second second' : List (Event R)} {a b : α}
    (h : p.Runs first a) (h' : p.Runs first' b) (heq : first ++ second = first' ++ second') :
    first = first' ∧ second = second' := by
  induction p generalizing first first' with
  | pure c =>
      obtain ⟨rfl, -⟩ := h
      obtain ⟨rfl, -⟩ := h'
      exact ⟨rfl, heq⟩
  | call e k ih =>
      obtain ⟨r, rest, rfl, hrest⟩ := h
      obtain ⟨r', rest', rfl, hrest'⟩ := h'
      obtain ⟨hhead, htail⟩ := List.cons.inj heq
      cases hhead
      obtain ⟨rfl, rfl⟩ := ih r hrest hrest' htail
      exact ⟨rfl, rfl⟩

/-- The executions of a loop are divided into its iterations in one way only. -/
theorem eq_of_flatMap_append_eq {f : α → Prog R Unit} {as : List α}
    {part part' : α → List (Event R)} {rest rest' : List (Event R)}
    (h : ∀ a ∈ as, (f a).Runs (part a) ()) (h' : ∀ a ∈ as, (f a).Runs (part' a) ())
    (heq : as.flatMap part ++ rest = as.flatMap part' ++ rest') :
    ∀ a ∈ as, part a = part' a := by
  induction as with
  | nil =>
      intro a ha
      cases ha
  | cons b bs ih =>
      rw [List.flatMap_cons, List.flatMap_cons, List.append_assoc, List.append_assoc] at heq
      obtain ⟨hfirst, hrest⟩ :=
        (h b List.mem_cons_self).append_inj (h' b List.mem_cons_self) heq
      intro a ha
      rcases List.mem_cons.mp ha with rfl | hlater
      · exact hfirst
      · exact ih (fun a ha => h a (List.mem_cons_of_mem b ha))
          (fun a ha => h' a (List.mem_cons_of_mem b ha)) hrest a hlater

/-- What happens if every effect gets the reply of an oracle. -/
def traceWith (oracle : (e : E) → R e) : Prog R α → List (Event R) × α
  | .pure a => ([], a)
  | .call e k =>
      let (trace, a) := (k (oracle e)).traceWith oracle
      (⟨e, oracle e⟩ :: trace, a)

theorem runs_traceWith (oracle : (e : E) → R e) (p : Prog R α) :
    p.Runs (p.traceWith oracle).1 (p.traceWith oracle).2 := by
  induction p with
  | pure a => exact ⟨rfl, rfl⟩
  | call e k ih => exact ⟨oracle e, _, rfl, ih (oracle e)⟩

/-- Every reply is that of the oracle. -/
theorem eq_of_mem_traceWith {oracle : (e : E) → R e} {p : Prog R α} {e : E} {r : R e}
    (h : ⟨e, r⟩ ∈ (p.traceWith oracle).1) : r = oracle e := by
  induction p with
  | pure a => cases h
  | call e' k ih =>
      rcases List.mem_cons.mp h with heq | hrest
      · cases heq
        rfl
      · exact ih _ hrest

/-- What happens if every effect gets the reply of an oracle that may have none. -/
def traceWhile (oracle : (e : E) → Option (R e)) : Prog R α → Option (List (Event R) × α)
  | .pure a => some ([], a)
  | .call e k =>
      match oracle e with
      | some r => ((k r).traceWhile oracle).map fun (trace, a) => (⟨e, r⟩ :: trace, a)
      | none => none

theorem runs_of_traceWhile {oracle : (e : E) → Option (R e)} {p : Prog R α}
    {trace : List (Event R)} {a : α} (h : p.traceWhile oracle = some (trace, a)) :
    p.Runs trace a := by
  induction p generalizing trace with
  | pure b =>
      obtain ⟨rfl, rfl⟩ := Prod.mk.inj (Option.some.inj h)
      exact ⟨rfl, rfl⟩
  | call e k ih =>
      unfold traceWhile at h
      split at h
      next r _ =>
        obtain ⟨⟨rest, b⟩, hrest, heq⟩ := Option.map_eq_some_iff.mp h
        obtain ⟨rfl, rfl⟩ := Prod.mk.inj heq
        exact ⟨r, rest, rfl, ih r hrest⟩
      next => cases h

/-- What happens if the replies come from a machine that moves on with each of
them. -/
def traceFrom {σ : Type} (oracle : σ → (e : E) → R e × σ) (s : σ) :
    Prog R α → List (Event R) × α
  | .pure a => ([], a)
  | .call e k =>
      let (r, next) := oracle s e
      let (trace, a) := (k r).traceFrom oracle next
      (⟨e, r⟩ :: trace, a)

theorem runs_traceFrom {σ : Type} (oracle : σ → (e : E) → R e × σ) (s : σ) (p : Prog R α) :
    p.Runs (p.traceFrom oracle s).1 (p.traceFrom oracle s).2 := by
  induction p generalizing s with
  | pure a => exact ⟨rfl, rfl⟩
  | call e k ih => exact ⟨(oracle s e).1, _, rfl, ih (oracle s e).1 (oracle s e).2⟩

/-- An execution of a loop contains one of each iteration. -/
theorem exists_runs_of_runs_forEach {f : α → Prog R Unit} {as : List α}
    {trace : List (Event R)} (h : (forEach f as).Runs trace ()) {a : α} (ha : a ∈ as) :
    ∃ part, (f a).Runs part () ∧ part ⊆ trace := by
  induction as generalizing trace with
  | nil => cases ha
  | cons b bs ih =>
      obtain ⟨_, first, second, rfl, hfirst, hsecond⟩ := runs_bind.mp h
      rcases List.mem_cons.mp ha with rfl | hrest
      · exact ⟨first, hfirst, List.subset_append_left _ _⟩
      · obtain ⟨part, hpart, hsub⟩ := ih hsecond hrest
        exact ⟨part, hpart, fun event hevent => List.mem_append_right _ (hsub hevent)⟩

/-! ## The effects a program can perform -/

/-- Every effect the program can come to satisfies `P`. -/
def All (P : E → Prop) : Prog R α → Prop
  | .pure _ => True
  | .call e k => P e ∧ ∀ r, (k r).All P

section All

variable {P P' : E → Prop}

theorem all_perform {e : E} (h : P e) : (perform e : Prog R (R e)).All P := ⟨h, fun _ => trivial⟩

theorem all_bind {p : Prog R α} {f : α → Prog R β} (hp : p.All P) (hf : ∀ a, (f a).All P) :
    (p >>= f).All P := by
  show (p.bind f).All P
  induction p with
  | pure a => exact hf a
  | call e k ih => exact ⟨hp.1, fun r => ih r (hp.2 r)⟩

/-- One effect and what follows it. -/
theorem all_perform_bind {e : E} {f : R e → Prog R β} (he : P e) (hf : ∀ r, (f r).All P) :
    (perform e >>= f).All P :=
  all_bind (all_perform he) hf

theorem all_forEach {f : α → Prog R Unit} {as : List α} (hf : ∀ a ∈ as, (f a).All P) :
    (forEach f as).All P := by
  induction as with
  | nil => trivial
  | cons a as ih =>
      apply all_bind (hf a List.mem_cons_self)
      intro _
      exact ih fun b hb => hf b (List.mem_cons_of_mem a hb)

theorem all_true (p : Prog R α) : p.All fun _ => True := by
  induction p with
  | pure a => trivial
  | call e k ih => exact ⟨trivial, ih⟩

theorem All.mono {p : Prog R α} (h : p.All P) (hP : ∀ e, P e → P' e) : p.All P' := by
  induction p with
  | pure a => trivial
  | call e k ih => exact ⟨hP e h.1, fun r => ih r (h.2 r)⟩

/-- An execution consists of effects the program can perform. -/
theorem All.of_runs {p : Prog R α} (h : p.All P) {trace : List (Event R)} {a : α}
    (hruns : p.Runs trace a) : ∀ event ∈ trace, P event.1 := by
  induction p generalizing trace with
  | pure b =>
      intro event hmem
      rw [hruns.1] at hmem
      cases hmem
  | call e k ih =>
      obtain ⟨r, rest, rfl, hrest⟩ := hruns
      intro event hmem
      rcases List.mem_cons.mp hmem with rfl | hlater
      · exact h.1
      · exact ih r (h.2 r) hrest event hlater

end All

/-! ## The results a program can return -/

/-- Every result the program can return satisfies `Q`. -/
def Returns (Q : α → Prop) : Prog R α → Prop
  | .pure a => Q a
  | .call _ k => ∀ r, (k r).Returns Q

section Returns

variable {P : E → Prop} {Q : α → Prop} {Q' : β → Prop}

/-- What a sequence returns, whatever its first part returns. -/
theorem returns_bind {p : Prog R α} {f : α → Prog R β} (hf : ∀ a, (f a).Returns Q') :
    (p >>= f).Returns Q' := by
  show (p.bind f).Returns Q'
  induction p with
  | pure a => exact hf a
  | call e k ih => exact ih

/-- The second part of a sequence may rely on what the first can return. -/
theorem Returns.bind {p : Prog R α} {f : α → Prog R β} (hp : p.Returns Q)
    (hf : ∀ a, Q a → (f a).Returns Q') : (p >>= f).Returns Q' := by
  show (p.bind f).Returns Q'
  induction p with
  | pure a => exact hf a hp
  | call e k ih => exact fun r => ih r (hp r)

theorem Returns.mono {Q Q' : α → Prop} {p : Prog R α} (h : p.Returns Q) (hQ : ∀ a, Q a → Q' a) :
    p.Returns Q' := by
  induction p with
  | pure a => exact hQ a h
  | call e k ih => exact fun r => ih r (h r)

/-- An execution ends with a result the program can return. -/
theorem Returns.of_runs {p : Prog R α} (h : p.Returns Q) {trace : List (Event R)} {a : α}
    (hruns : p.Runs trace a) : Q a := by
  induction p generalizing trace with
  | pure b =>
      obtain ⟨-, rfl⟩ := hruns
      exact h
  | call e k ih =>
      obtain ⟨r, rest, rfl, hrest⟩ := hruns
      exact ih r (h r) hrest

/-- Where all results agree on a property, it can be read off any of them. -/
theorem returns_iff (oracle : (e : E) → R e) {Q C : α → Prop} {P : Prop} {p : Prog R α}
    (hC : p.Returns C) (h : ∀ a, C a → (Q a ↔ P)) : p.Returns Q ↔ P := by
  have hruns := runs_traceWith oracle p
  constructor
  · intro hQ
    exact (h _ (hC.of_runs hruns)).mp (hQ.of_runs hruns)
  · intro hP
    exact hC.mono fun a ha => (h a ha).mpr hP

theorem all_bind_of_returns {p : Prog R α} {f : α → Prog R β} (hp : p.All P) (hq : p.Returns Q)
    (hf : ∀ a, Q a → (f a).All P) : (p >>= f).All P := by
  show (p.bind f).All P
  induction p with
  | pure a => exact hf a hq
  | call e k ih => exact ⟨hp.1, fun r => ih r (hp.2 r) (hq r)⟩

end Returns

/-! ## Implementing effects by programs -/

section Refine

variable {E' : Type} {R' : E' → Type}

/-- The program in which every effect is replaced by the program that implements
it. -/
def refine (impl : (e : E) → Prog R' (R e)) : Prog R α → Prog R' α
  | .pure a => .pure a
  | .call e k => (impl e).bind fun r => (k r).refine impl

variable {P : E → Prop} {P' : E' → Prop} {impl : (e : E) → Prog R' (R e)}

/-- A bound on the effects carries over to the implementation. -/
theorem All.refine {p : Prog R α} (h : p.All P) (himpl : ∀ e, P e → (impl e).All P') :
    (p.refine impl).All P' := by
  induction p with
  | pure a => trivial
  | call e k ih => exact all_bind (himpl e h.1) fun r => ih r (h.2 r)

/-- An implementation returns what the program returns. -/
theorem Returns.refine {Q : α → Prop} {p : Prog R α} (h : p.Returns Q) :
    (p.refine impl).Returns Q := by
  induction p with
  | pure a => exact h
  | call e k ih => exact returns_bind fun r => ih r (h r)

end Refine

/-! ## A logic of growing knowledge -/

/-- What a program must know to perform an effect, and what it learns from the
reply. -/
structure Protocol (R : E → Type) (W : Type) where
  Pre : (e : E) → W → Prop
  Post : (e : E) → R e → W → Prop

variable {W : Type} [Preorder W]

/-- Starting from knowledge `w`, the program keeps the protocol and ends with
`Q`.  Between any two of its effects others may add knowledge. -/
def Safe (P : Protocol R W) (Q : α → W → Prop) : Prog R α → W → Prop
  | .pure a, w => Q a w
  | .call e k, w => ∀ v, w ≤ v →
      P.Pre e v ∧ ∀ r u, v ≤ u → P.Post e r u → (k r).Safe P Q u

variable {P : Protocol R W}

/-- Consequence: at its end a program knows at least what it knew at its start. -/
theorem Safe.conseq {p : Prog R α} {Q Q' : α → W → Prop} {w : W} (h : p.Safe P Q w)
    (hQ : ∀ a v, w ≤ v → Q a v → Q' a v) : p.Safe P Q' w := by
  induction p generalizing w with
  | pure a => exact hQ a w (le_refl w) h
  | call e k ih =>
      intro v hv
      obtain ⟨hpre, hnext⟩ := h v hv
      refine ⟨hpre, fun r u hu hpost => ?_⟩
      apply ih r (hnext r u hu hpost)
      intro a u' hu' ha
      exact hQ a u' (le_trans hv (le_trans hu hu')) ha

theorem safe_bind {p : Prog R α} {f : α → Prog R β} {Q : α → W → Prop} {Q' : β → W → Prop}
    {w : W} (hp : p.Safe P Q w) (hf : ∀ a v, w ≤ v → Q a v → (f a).Safe P Q' v) :
    (p >>= f).Safe P Q' w := by
  have h := hp.conseq hf
  show (p.bind f).Safe P Q' w
  clear hp hf
  induction p generalizing w with
  | pure a => exact h
  | call e k ih =>
      intro v hv
      obtain ⟨hpre, hnext⟩ := h v hv
      exact ⟨hpre, fun r u hu hpost => ih r (hnext r u hu hpost)⟩

/-- One effect: its precondition must survive added knowledge. -/
theorem safe_perform {e : E} {w : W} (hpre : ∀ v, w ≤ v → P.Pre e v) :
    (perform e).Safe P (fun r v => P.Post e r v) w := by
  intro v hv
  exact ⟨hpre v hv, fun r u _ hpost => hpost⟩

/-- Where every effect is allowed, every program is safe. -/
theorem safe_of_pre (hpre : ∀ e w, P.Pre e w) (p : Prog R α) (w : W) :
    p.Safe P (fun _ _ => True) w := by
  induction p generalizing w with
  | pure a => trivial
  | call e k ih =>
      intro v _
      exact ⟨hpre e v, fun r u _ _ => ih r u⟩

/-- A loop is safe if each iteration is, whatever was learned before it. -/
theorem safe_forEach {f : α → Prog R Unit} {as : List α} {w : W}
    (hf : ∀ a ∈ as, ∀ v, w ≤ v → (f a).Safe P (fun _ _ => True) v) :
    (forEach f as).Safe P (fun _ _ => True) w := by
  induction as generalizing w with
  | nil => trivial
  | cons a as ih =>
      apply safe_bind (hf a List.mem_cons_self w (le_refl w))
      intro _ v hv _
      apply ih
      intro a' ha' u hu
      exact hf a' (List.mem_cons_of_mem a ha') u (le_trans hv hu)

/-- A safe program stays safe when each of its effects is implemented by a program that
needs no more than the effect and teaches no less. -/
theorem Safe.refine {E' : Type} {R' : E' → Type} {P' : Protocol R' W}
    {impl : (e : E) → Prog R' (R e)} {p : Prog R α} {Q : α → W → Prop} {w : W}
    (h : p.Safe P Q w)
    (himpl : ∀ e v, P.Pre e v → (impl e).Safe P' (fun r u => P.Post e r u) v) :
    (p.refine impl).Safe P' Q w := by
  induction p generalizing w with
  | pure a => exact h
  | call e k ih =>
      obtain ⟨hpre, hnext⟩ := h w (le_refl w)
      apply safe_bind (himpl e w hpre)
      intro r u hu hpost
      exact ih r (hnext r u hu hpost)

/-- The protocol that allows every effect and remembers what happened. -/
def history : Protocol R (Set (Event R)) where
  Pre _ _ := True
  Post e r w := ⟨e, r⟩ ∈ w

theorem union_mem_cons (w : Set (Event R)) (event : Event R) (trace : List (Event R)) :
    w ∪ {past | past ∈ event :: trace} = insert event w ∪ {past | past ∈ trace} := by
  ext past
  simp only [Set.mem_union, Set.mem_insert_iff, Set.mem_ofPred_eq, List.mem_cons]
  tauto

/-- Where knowledge is what happened so far, an execution of a safe program performs each
effect when its precondition holds of the events before it. -/
theorem Safe.of_runs {P : Protocol R (Set (Event R))} {p : Prog R α}
    {Q : α → Set (Event R) → Prop} {w : Set (Event R)}
    (hlearn : ∀ e r v, (⟨e, r⟩ : Event R) ∈ v → P.Post e r v) (h : p.Safe P Q w)
    {before after : List (Event R)} {e : E} {r : R e} {a : α}
    (hruns : p.Runs (before ++ ⟨e, r⟩ :: after) a) : P.Pre e (w ∪ {event | event ∈ before}) := by
  induction p generalizing w before with
  | pure b =>
      have hnil := hruns.1
      simp at hnil
  | call e' k ih =>
      obtain ⟨r', rest, heq, hrest⟩ := hruns
      cases before with
      | nil =>
          obtain ⟨hevent, -⟩ := List.cons.inj heq
          cases hevent
          have hnone : w ∪ {event | event ∈ ([] : List (Event R))} = w := by simp
          rw [hnone]
          exact (h w (le_refl w)).1
      | cons event before =>
          obtain ⟨rfl, rfl⟩ := List.cons.inj heq
          obtain ⟨-, hnext⟩ := h w (le_refl w)
          have hthen := hnext r' (insert ⟨e', r'⟩ w) (Set.subset_insert _ w)
            (hlearn e' r' _ (Set.mem_insert _ w))
          rw [union_mem_cons]
          exact ih r' hthen hrest

/-- There an execution also ends with what the program promises of its result. -/
theorem Safe.result_of_runs {P : Protocol R (Set (Event R))} {p : Prog R α}
    {Q : α → Set (Event R) → Prop} {w : Set (Event R)}
    (hlearn : ∀ e r v, (⟨e, r⟩ : Event R) ∈ v → P.Post e r v) (h : p.Safe P Q w)
    {trace : List (Event R)} {a : α} (hruns : p.Runs trace a) :
    Q a (w ∪ {event | event ∈ trace}) := by
  induction p generalizing w trace with
  | pure b =>
      obtain ⟨rfl, rfl⟩ := hruns
      have hnone : w ∪ {event | event ∈ ([] : List (Event R))} = w := by simp
      rw [hnone]
      exact h
  | call e k ih =>
      obtain ⟨r, rest, rfl, hrest⟩ := hruns
      obtain ⟨-, hnext⟩ := h w (le_refl w)
      have hthen := hnext r (insert ⟨e, r⟩ w) (Set.subset_insert _ w)
        (hlearn e r _ (Set.mem_insert _ w))
      rw [union_mem_cons]
      exact ih r hthen hrest

/-- A program stays safe when others add knowledge. -/
theorem Safe.mono {p : Prog R Unit} {w v : W} (h : p.Safe P (fun _ _ => True) w)
    (hle : w ≤ v) : p.Safe P (fun _ _ => True) v := by
  cases p with
  | pure a => trivial
  | call e k =>
      intro u hu
      exact h u (le_trans hle hu)

end Prog

/-! ## Pools -/

/-- A way to interleave programs over a shared state `σ`: the programs that may
be started, the meaning of an effect given the environment's proposals for its
reply, and the environment's own steps. -/
structure Scheduler {E : Type} (R : E → Type) (σ ι β : Type) where
  task : ι → Prog R Unit
  handle : σ → ((e : E) → R e) → (e : E) → R e × σ
  env : σ → β → Option σ

/-- The shared state with the programs that were started, each as what is left
of it. -/
structure Pool {E : Type} (R : E → Type) (σ : Type) where
  shared : σ
  threads : List (Prog R Unit)

/-- Start a program, let one perform its next effect, or let the environment
move. -/
inductive PoolAction {E : Type} (R : E → Type) (ι β : Type)
  | spawn (i : ι)
  | perform (thread : ℕ) (oracle : (e : E) → R e)
  | env (b : β)

namespace Pool

variable {E : Type} {R : E → Type} {σ ι β : Type}

/-- One step of a pool. -/
def step (S : Scheduler R σ ι β) (s : Pool R σ) : PoolAction R ι β → Option (Pool R σ)
  | .spawn i => some { s with threads := s.threads ++ [S.task i] }
  | .perform thread oracle =>
      match s.threads[thread]? with
      | some (.call e k) =>
          let (r, shared) := S.handle s.shared oracle e
          some ⟨shared, s.threads.set thread (k r)⟩
      | _ => none
  | .env b => (S.env s.shared b).map fun shared => { s with shared := shared }

/-- Every program that was started has returned. -/
def finished (s : Pool R σ) : Bool :=
  s.threads.all fun
    | .pure _ => true
    | .call _ _ => false

/-- Everything one step can do. -/
inductive Transition (S : Scheduler R σ ι β) (s : Pool R σ) :
    PoolAction R ι β → Pool R σ → Prop
  | spawn (i : ι) : Transition S s (.spawn i) { s with threads := s.threads ++ [S.task i] }
  | perform (thread : ℕ) (oracle : (e : E) → R e) (e : E) (k : R e → Prog R Unit)
      (hthread : s.threads[thread]? = some (.call e k)) :
      Transition S s (.perform thread oracle)
        ⟨(S.handle s.shared oracle e).2, s.threads.set thread (k (S.handle s.shared oracle e).1)⟩
  | env (b : β) (shared : σ) (henv : S.env s.shared b = some shared) :
      Transition S s (.env b) { s with shared := shared }

theorem Transition.of_step {S : Scheduler R σ ι β} {s t : Pool R σ} {a : PoolAction R ι β}
    (h : step S s a = some t) : Transition S s a t := by
  cases a with
  | spawn i =>
      obtain rfl := Option.some.inj h
      exact .spawn i
  | perform thread oracle =>
      simp only [step] at h
      split at h
      · obtain rfl := Option.some.inj h
        exact .perform thread oracle _ _ ‹_›
      · cases h
  | env b =>
      obtain ⟨shared, henv, rfl⟩ := Option.map_eq_some_iff.mp h
      exact .env b shared henv

/-- The shared state keeps its invariant and every thread is safe with the
knowledge the shared state holds. -/
structure Safe {W : Type} [Preorder W] (P : Prog.Protocol R W) (Inv : σ → Prop) (world : σ → W)
    (s : Pool R σ) : Prop where
  shared : Inv s.shared
  threads : ∀ p ∈ s.threads, p.Safe P (fun _ _ => True) (world s.shared)

section Rules

variable {W : Type} [Preorder W] {P : Prog.Protocol R W} {Inv : σ → Prop} {world : σ → W}
  {S : Scheduler R σ ι β}

/-- The step rule for pools.  It is enough that the shared state honours the
protocol at each effect, that the environment loses no knowledge, and that each
program is safe on its own. -/
theorem Safe.step
    (hhandle : ∀ s oracle e, Inv s → P.Pre e (world s) →
      Inv (S.handle s oracle e).2 ∧ world s ≤ world (S.handle s oracle e).2 ∧
        P.Post e (S.handle s oracle e).1 (world (S.handle s oracle e).2))
    (henv : ∀ s b t, S.env s b = some t → Inv s → Inv t ∧ world s ≤ world t)
    (htask : ∀ i w, (S.task i).Safe P (fun _ _ => True) w)
    {s t : Pool R σ} {a : PoolAction R ι β} (hstep : Pool.step S s a = some t)
    (h : s.Safe P Inv world) : t.Safe P Inv world := by
  cases Transition.of_step hstep with
  | spawn i =>
      refine ⟨h.shared, fun p hp => ?_⟩
      rcases List.mem_append.mp hp with hold | hnew
      · exact h.threads p hold
      · rw [List.mem_singleton.mp hnew]
        exact htask i _
  | perform thread oracle e k hthread =>
      obtain ⟨hpre, hnext⟩ :=
        h.threads _ (List.mem_of_getElem? hthread) (world s.shared) (le_refl _)
      obtain ⟨hinv, hle, hpost⟩ := hhandle s.shared oracle e h.shared hpre
      refine ⟨hinv, fun p hp => ?_⟩
      rcases List.mem_or_eq_of_mem_set hp with hold | rfl
      · exact (h.threads p hold).mono hle
      · exact hnext _ _ hle hpost
  | env b shared hb =>
      obtain ⟨hinv, hle⟩ := henv s.shared b shared hb h.shared
      exact ⟨hinv, fun p hp => (h.threads p hp).mono hle⟩

end Rules

end Pool

end GitEventsRunner.Lib
