/-
# Programs in surroundings that change

`Runs` lists the effects of an execution and lets every reply through.  Here the
surroundings have a state: which replies an effect may get depends on it, and the
effect may change it.  `RunsIn` is the big-step relation of a program in such
surroundings, and `runWith` computes one of its executions from surroundings that
always know their answer.
-/

import GitEventsRunner.Lib.Program

namespace GitEventsRunner.Lib

namespace Prog

variable {E : Type} {R : E → Type} {α β σ : Type}

/-- In surroundings that go by `H` from a state, an effect and its reply to the
next state, `p` can perform the listed effects from the first state to the second
and then return `b`. -/
def RunsIn (H : σ → (e : E) → R e → σ → Prop) :
    Prog R α → σ → List (Event R) → σ → α → Prop
  | .pure a, s, trace, t, b => trace = [] ∧ t = s ∧ a = b
  | .call e k, s, trace, t, b => ∃ r u rest, H s e r u ∧ trace = ⟨e, r⟩ :: rest ∧
      (k r).RunsIn H u rest t b

variable {H H' : σ → (e : E) → R e → σ → Prop}

/-- An execution of a sequence is an execution of its parts, one after the
other. -/
theorem RunsIn.of_bind {p : Prog R α} {f : α → Prog R β} {s t : σ} {trace : List (Event R)}
    {b : β} (h : (p >>= f).RunsIn H s trace t b) :
    ∃ a u first second, trace = first ++ second ∧ p.RunsIn H s first u a ∧
      (f a).RunsIn H u second t b := by
  replace h : (p.bind f).RunsIn H s trace t b := h
  induction p generalizing s trace with
  | pure a => exact ⟨a, s, [], trace, rfl, ⟨rfl, rfl, rfl⟩, h⟩
  | call e k ih =>
      obtain ⟨r, u, rest, hstep, rfl, hrest⟩ := h
      obtain ⟨a, v, first, second, rfl, hfirst, hsecond⟩ := ih r hrest
      exact ⟨a, v, ⟨e, r⟩ :: first, second, rfl, ⟨r, u, first, hstep, rfl, hfirst⟩, hsecond⟩

/-- An execution of one effect and what follows it. -/
theorem RunsIn.of_perform_bind {e : E} {f : R e → Prog R β} {s t : σ} {trace : List (Event R)}
    {b : β} (h : (perform e >>= f).RunsIn H s trace t b) :
    ∃ r u rest, H s e r u ∧ trace = ⟨e, r⟩ :: rest ∧ (f r).RunsIn H u rest t b :=
  h

/-- The surroundings only choose among the executions of the program. -/
theorem RunsIn.runs {p : Prog R α} {s t : σ} {trace : List (Event R)} {a : α}
    (h : p.RunsIn H s trace t a) : p.Runs trace a := by
  induction p generalizing s trace with
  | pure b => exact ⟨h.1, h.2.2⟩
  | call e k ih =>
      obtain ⟨r, u, rest, -, rfl, hrest⟩ := h
      exact ⟨r, rest, rfl, ih r hrest⟩

/-- What the surroundings say of all replies holds along an execution. -/
theorem RunsIn.forall_mem {p : Prog R α} {s t : σ} {trace : List (Event R)} {a : α}
    {G : (e : E) → R e → Prop} (h : p.RunsIn H s trace t a)
    (hG : ∀ s e r u, H s e r u → G e r) : ∀ event ∈ trace, G event.1 event.2 := by
  induction p generalizing s trace with
  | pure b =>
      obtain ⟨rfl, -⟩ := h
      intro event hmem
      cases hmem
  | call e k ih =>
      obtain ⟨r, u, rest, hstep, rfl, hrest⟩ := h
      intro event hmem
      rcases List.mem_cons.mp hmem with rfl | hlater
      · exact hG s e r u hstep
      · exact ih r hrest event hlater

/-- A program whose effects all leave the state alone leaves it alone. -/
theorem RunsIn.state_eq {p : Prog R α} {s t : σ} {trace : List (Event R)} {a : α} {P : E → Prop}
    (h : p.RunsIn H s trace t a) (hall : p.All P) (hsame : ∀ s e r u, P e → H s e r u → u = s) :
    t = s := by
  induction p generalizing s trace with
  | pure b => exact h.2.1
  | call e k ih =>
      obtain ⟨r, u, rest, hstep, rfl, hrest⟩ := h
      obtain rfl := hsame s e r u hall.1 hstep
      exact ih r hrest (hall.2 r)

theorem RunsIn.mono {p : Prog R α} {s t : σ} {trace : List (Event R)} {a : α}
    (h : p.RunsIn H s trace t a) (hH : ∀ s e r u, H s e r u → H' s e r u) :
    p.RunsIn H' s trace t a := by
  induction p generalizing s trace with
  | pure b => exact h
  | call e k ih =>
      obtain ⟨r, u, rest, hstep, rfl, hrest⟩ := h
      exact ⟨r, u, rest, hH s e r u hstep, rfl, ih r hrest⟩

/-- What happens in surroundings that answer by a function. -/
def runWith (answer : σ → (e : E) → R e × σ) : Prog R α → σ → List (Event R) × σ × α
  | .pure a, s => ([], s, a)
  | .call e k, s =>
      let (r, u) := answer s e
      let (trace, t, a) := (k r).runWith answer u
      (⟨e, r⟩ :: trace, t, a)

theorem runsIn_runWith {answer : σ → (e : E) → R e × σ}
    (h : ∀ s e, H s e (answer s e).1 (answer s e).2) (p : Prog R α) (s : σ) :
    p.RunsIn H s (p.runWith answer s).1 (p.runWith answer s).2.1 (p.runWith answer s).2.2 := by
  induction p generalizing s with
  | pure a => exact ⟨rfl, rfl, rfl⟩
  | call e k ih => exact ⟨_, _, _, h s e, rfl, ih _ _⟩

end Prog

end GitEventsRunner.Lib
