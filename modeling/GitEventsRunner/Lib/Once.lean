/-
# Programs that act at most once

Some effects of a program are marked: they must not be repeated.  A program is
calm if it comes to no marked effect any more and single if it comes to one at
most, both under an assumption on the replies it gets.

In a pool of programs the question is who may still act.  The rule below keeps
one marked effect for the whole pool: all threads but one are calm or wait to
begin, and the one that is left is calm too once a marked effect was performed.
What has to be shown is about the moment a thread begins: it begins calm, or
nothing was performed and everybody else is calm or waits.
-/

import GitEventsRunner.Lib.Program

namespace GitEventsRunner.Lib

namespace Prog

variable {E : Type} {R : E → Type} {α β : Type}

/-- The program performs no marked effect as long as the replies satisfy `A`. -/
def Calm (A : (e : E) → R e → Prop) (marked : E → Prop) : Prog R α → Prop
  | .pure _ => True
  | .call e k => ¬ marked e ∧ ∀ r, A e r → (k r).Calm A marked

/-- The program performs at most one marked effect as long as the replies
satisfy `A`. -/
def Single (A : (e : E) → R e → Prop) (marked : E → Prop) : Prog R α → Prop
  | .pure _ => True
  | .call e k => ∀ r, A e r →
      (marked e → (k r).Calm A marked) ∧ (k r).Single A marked

section Rules

variable {A : (e : E) → R e → Prop} {marked : E → Prop}

theorem calm_bind {p : Prog R α} {f : α → Prog R β} (hp : p.Calm A marked)
    (hf : ∀ a, (f a).Calm A marked) : (p >>= f).Calm A marked := by
  show (p.bind f).Calm A marked
  induction p with
  | pure a => exact hf a
  | call e k ih => exact ⟨hp.1, fun r hr => ih r (hp.2 r hr)⟩

/-- One unmarked effect and what follows it. -/
theorem calm_perform_bind {e : E} {f : R e → Prog R β} (he : ¬ marked e)
    (hf : ∀ r, A e r → (f r).Calm A marked) : (perform e >>= f).Calm A marked :=
  ⟨he, hf⟩

theorem calm_forEach {f : α → Prog R Unit} {as : List α}
    (hf : ∀ a ∈ as, (f a).Calm A marked) : (forEach f as).Calm A marked := by
  induction as with
  | nil => trivial
  | cons a as ih =>
      apply calm_bind (hf a List.mem_cons_self)
      intro _
      exact ih fun b hb => hf b (List.mem_cons_of_mem a hb)

/-- A program whose effects are all unmarked is calm. -/
theorem All.calm {p : Prog R α} (h : p.All fun e => ¬ marked e) : p.Calm A marked := by
  induction p with
  | pure a => trivial
  | call e k ih => exact ⟨h.1, fun r _ => ih r (h.2 r)⟩

theorem Calm.single {p : Prog R α} (h : p.Calm A marked) : p.Single A marked := by
  induction p with
  | pure a => trivial
  | call e k ih =>
      intro r hr
      exact ⟨fun he => absurd he h.1, ih r (h.2 r hr)⟩

/-- A single program and then a calm one. -/
theorem Single.bind_calm {p : Prog R α} {f : α → Prog R β} (hp : p.Single A marked)
    (hf : ∀ a, (f a).Calm A marked) : (p >>= f).Single A marked := by
  show (p.bind f).Single A marked
  induction p with
  | pure a => exact (hf a).single
  | call e k ih =>
      intro r hr
      obtain ⟨hcalm, hsingle⟩ := hp r hr
      exact ⟨fun he => calm_bind (hcalm he) hf, ih r hsingle⟩

/-- A calm program and then a single one. -/
theorem Calm.bind_single {p : Prog R α} {f : α → Prog R β} (hp : p.Calm A marked)
    (hf : ∀ a, (f a).Single A marked) : (p >>= f).Single A marked := by
  show (p.bind f).Single A marked
  induction p with
  | pure a => exact hf a
  | call e k ih =>
      intro r hr
      exact ⟨fun he => absurd he hp.1, ih r (hp.2 r hr)⟩

/-- Of a family of marks each is performed at most once from here on, and one that is spent
is not performed any more. -/
def Sparing {κ : Type} (marks : κ → E → Prop) (spent : κ → Prop) (p : Prog R α) : Prop :=
  ∀ key, p.Single (fun _ _ => True) (marks key) ∧
    (spent key → p.Calm (fun _ _ => True) (marks key))

theorem Sparing.mono {κ : Type} {marks : κ → E → Prop} {spent spent' : κ → Prop} {p : Prog R α}
    (h : p.Sparing marks spent) (hspent : ∀ key, spent' key → spent key) :
    p.Sparing marks spent' :=
  fun key => ⟨(h key).1, fun hkey => (h key).2 (hspent key hkey)⟩

/-- A mark that is performed was not spent. -/
theorem Sparing.not_spent {κ : Type} {marks : κ → E → Prop} {spent : κ → Prop} {e : E}
    {k : R e → Prog R α} (h : Sparing marks spent (.call e k)) (key : κ) (he : marks key e) :
    ¬ spent key :=
  fun hspent => ((h key).2 hspent).1 he

/-- After an effect its mark is spent. -/
theorem Sparing.next {κ : Type} {marks : κ → E → Prop} {spent spent' : κ → Prop} {e : E}
    {k : R e → Prog R α} (h : Sparing marks spent (.call e k)) (r : R e)
    (hspent : ∀ key, spent' key → spent key ∨ marks key e) : Sparing marks spent' (k r) := by
  intro key
  obtain ⟨hsingle, hcalm⟩ := h key
  obtain ⟨hspend, hlater⟩ := hsingle r trivial
  apply And.intro hlater
  intro hkey
  rcases hspent key hkey with hbefore | hnow
  · exact (hcalm hbefore).2 r trivial
  · exact hspend hnow

/-- One unmarked effect and then a single program. -/
theorem single_perform_bind {e : E} {f : R e → Prog R β} (he : ¬ marked e)
    (hf : ∀ r, (f r).Single A marked) : (perform e >>= f).Single A marked := by
  intro r _
  exact ⟨fun hmarked => absurd hmarked he, hf r⟩

/-- One effect on its own is single. -/
theorem single_perform (e : E) : (perform e : Prog R (R e)).Single A marked :=
  fun _ _ => ⟨fun _ => trivial, trivial⟩

/-- A loop is single if one iteration is and all others are calm. -/
theorem single_forEach {f : α → Prog R Unit} {as : List α} (a : α) (hnodup : as.Nodup)
    (hsingle : (f a).Single A marked) (hcalm : ∀ b ∈ as, b ≠ a → (f b).Calm A marked) :
    (forEach f as).Single A marked := by
  induction as with
  | nil => trivial
  | cons b as ih =>
      obtain ⟨hnotMem, hrest⟩ := List.nodup_cons.mp hnodup
      have hlater : ∀ c ∈ as, c ≠ a → (f c).Calm A marked :=
        fun c hc => hcalm c (List.mem_cons_of_mem b hc)
      by_cases hb : b = a
      · subst hb
        apply hsingle.bind_calm
        intro _
        apply calm_forEach
        intro c hc
        apply hlater c hc
        intro hsame
        exact hnotMem (hsame ▸ hc)
      · apply (hcalm b List.mem_cons_self hb).bind_single
        intro _
        exact ih hrest hlater

end Rules

end Prog

namespace Pool

variable {E : Type} {R : E → Type} {σ ι β : Type} (S : Scheduler R σ ι β)
  (A : (e : E) → R e → Prop) (marked : E → Prop)

/-- A thread that has not begun, or performs no marked effect any more. -/
def WaitsOrCalm (p : Prog R Unit) : Prop :=
  (∃ i, p = S.task i) ∨ p.Calm A marked

/-- Every thread but one waits or is calm. -/
def CalmBut (s : Pool R σ) (thread : ℕ) : Prop :=
  ∀ other p, other ≠ thread → s.threads[other]? = some p → WaitsOrCalm S A marked p

/-- At most one marked effect was performed, and none if a thread may still
perform one; there is at most one such thread, and it performs one at most. -/
def AtMostOnce (count : σ → ℕ) (s : Pool R σ) : Prop :=
  count s.shared ≤ 1 ∧ ∃ thread, CalmBut S A marked s thread ∧
    ∀ p, s.threads[thread]? = some p →
      WaitsOrCalm S A marked p ∨ (count s.shared = 0 ∧ p.Single A marked)

variable {S A marked} {count : σ → ℕ}

theorem getElem?_of_append {threads : List (Prog R Unit)} {q p : Prog R Unit} {thread : ℕ}
    (h : (threads ++ [q])[thread]? = some p) : threads[thread]? = some p ∨ p = q := by
  rw [List.getElem?_append] at h
  split at h
  · exact Or.inl h
  · exact Or.inr (List.mem_singleton.mp (List.mem_of_getElem? h))

theorem getElem?_of_set {threads : List (Prog R Unit)} {q p : Prog R Unit} {thread other : ℕ}
    (h : (threads.set thread q)[other]? = some p) :
    (other ≠ thread ∧ threads[other]? = some p) ∨ (other = thread ∧ p = q) := by
  by_cases hsame : other = thread
  · subst hsame
    rw [List.getElem?_set_self'] at h
    obtain ⟨_, -, rfl⟩ := Option.map_eq_some_iff.mp h
    exact Or.inr ⟨rfl, rfl⟩
  · rw [List.getElem?_set_ne (Ne.symm hsame)] at h
    exact Or.inl ⟨hsame, h⟩

/-- A thread goes on and stays calm. -/
theorem AtMostOnce.set_calm {s : Pool R σ} {shared : σ} {thread : ℕ} {q : Prog R Unit}
    (h : s.AtMostOnce S A marked count) (hcount : count shared = count s.shared)
    (hq : WaitsOrCalm S A marked q) :
    AtMostOnce S A marked count ⟨shared, s.threads.set thread q⟩ := by
  obtain ⟨hle, busy, hbut, hbusy⟩ := h
  apply And.intro (hcount ▸ hle)
  apply Exists.intro busy
  apply And.intro
  · intro other p hne hp
    rcases getElem?_of_set hp with ⟨-, hold⟩ | ⟨-, rfl⟩
    · exact hbut other p hne hold
    · exact hq
  · intro p hp
    rcases getElem?_of_set hp with ⟨-, hold⟩ | ⟨-, rfl⟩
    · rw [hcount]
      exact hbusy p hold
    · exact Or.inl hq

/-- A thread goes on, with everybody else calm or waiting. -/
theorem CalmBut.set {s : Pool R σ} {shared : σ} {thread : ℕ} {q : Prog R Unit}
    (h : s.CalmBut S A marked thread) (hle : count shared ≤ 1)
    (hq : WaitsOrCalm S A marked q ∨ (count shared = 0 ∧ q.Single A marked)) :
    AtMostOnce S A marked count ⟨shared, s.threads.set thread q⟩ := by
  apply And.intro hle
  apply Exists.intro thread
  apply And.intro
  · intro other p hne hp
    rcases getElem?_of_set hp with ⟨-, hold⟩ | ⟨hsame, -⟩
    · exact h other p hne hold
    · exact absurd hsame hne
  · intro p hp
    rcases getElem?_of_set hp with ⟨hne, -⟩ | ⟨-, rfl⟩
    · exact absurd rfl hne
    · exact hq

/-- When a thread begins, it is calm from there on, or it is single, nothing was
performed yet and everybody else is calm or waits. -/
def BeginsInTime (S : Scheduler R σ ι β) (A : (e : E) → R e → Prop) (marked : E → Prop)
    (count : σ → ℕ) (s : Pool R σ) (a : PoolAction R ι β) : Prop :=
  ∀ thread oracle i e k, a = .perform thread oracle → s.threads[thread]? = some (S.task i) →
    S.task i = .call e k → ¬ marked e ∧
      ((k (S.handle s.shared oracle e).1).Calm A marked ∨
        (count s.shared = 0 ∧ s.CalmBut S A marked thread ∧
          (k (S.handle s.shared oracle e).1).Single A marked))

/-- The replies of a step satisfy the assumption. -/
def RepliesMeet (S : Scheduler R σ ι β) (A : (e : E) → R e → Prop) (s : Pool R σ)
    (a : PoolAction R ι β) : Prop :=
  ∀ thread oracle, a = .perform thread oracle → ∀ e, A e (S.handle s.shared oracle e).1

/-- The step rule for marked effects.  It is enough that only marked effects
count, each as one, and that threads begin in time. -/
theorem AtMostOnce.step
    (hmarked : ∀ s oracle e, count (S.handle s oracle e).2 ≤ count s + 1)
    (hunmarked : ∀ s oracle e, ¬ marked e → count (S.handle s oracle e).2 = count s)
    (henv : ∀ s b t, S.env s b = some t → count t = count s)
    {s t : Pool R σ} {a : PoolAction R ι β} (hstep : Pool.step S s a = some t)
    (hreplies : RepliesMeet S A s a) (hbegins : BeginsInTime S A marked count s a)
    (h : s.AtMostOnce S A marked count) : t.AtMostOnce S A marked count := by
  cases Transition.of_step hstep with
  | spawn i =>
      obtain ⟨hle, busy, hbut, hbusy⟩ := h
      apply And.intro hle
      apply Exists.intro busy
      apply And.intro
      · intro other p hne hp
        rcases getElem?_of_append hp with hold | rfl
        · exact hbut other p hne hold
        · exact Or.inl ⟨i, rfl⟩
      · intro p hp
        rcases getElem?_of_append hp with hold | rfl
        · exact hbusy p hold
        · exact Or.inl (Or.inl ⟨i, rfl⟩)
  | env b shared hb =>
      have hsame := henv s.shared b shared hb
      obtain ⟨hle, busy, hbut, hbusy⟩ := h
      exact ⟨hsame ▸ hle, busy, hbut, fun p hp => hsame ▸ hbusy p hp⟩
  | perform thread oracle e k hthread =>
      have hreply := hreplies thread oracle rfl e
      have hcalm : WaitsOrCalm S A marked (.call e k) →
          AtMostOnce S A marked count ⟨(S.handle s.shared oracle e).2,
            s.threads.set thread (k (S.handle s.shared oracle e).1)⟩ := by
        rintro (⟨i, hi⟩ | ⟨he, hk⟩)
        · obtain ⟨he, hbegin⟩ := hbegins thread oracle i e k rfl (hi ▸ hthread) hi.symm
          have hcount := hunmarked s.shared oracle e he
          rcases hbegin with hk | ⟨hzero, hbut, hk⟩
          · exact h.set_calm hcount (Or.inr hk)
          · rw [← hcount] at hzero
            exact hbut.set (by omega) (Or.inr ⟨hzero, hk⟩)
        · exact h.set_calm (hunmarked s.shared oracle e he) (Or.inr (hk _ hreply))
      obtain ⟨hle, busy, hbut, hbusy⟩ := id h
      by_cases hsame : thread = busy
      · subst hsame
        rcases hbusy _ hthread with hwaits | ⟨hzero, hsingle⟩
        · exact hcalm hwaits
        · obtain ⟨hafter, hrest⟩ := hsingle _ hreply
          by_cases he : marked e
          · have hone := hmarked s.shared oracle e
            exact hbut.set (by omega) (Or.inl (Or.inr (hafter he)))
          · have hcount := hunmarked s.shared oracle e he
            exact hbut.set (by omega) (Or.inr ⟨by omega, hrest⟩)
      · exact hcalm (hbut thread _ hsame hthread)

end Pool

end GitEventsRunner.Lib
