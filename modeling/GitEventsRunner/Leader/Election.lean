/-
# Leader election

Several instances of the program run the loop of `Loop` against one lease.  The
lease manager grants the lease to one of them at a time and tells each instance
through its channel; an instance learns of a change only when its loop looks, so
the controllers of the previous holder may still be running, or stopping, while
the next holder starts its own.

The task of the controllers also ends when one of them panics.  The loop does not look
at it while it waits, so the holder of the lease may be left without controllers, and
nobody starts them again before the lease changes hands.

What holds is this: of the instances with controllers all but the holder have been
told to stop; an instance that is left alone takes at most six steps until it waits
again or is over; and where it waits, it has started controllers and not stopped them
exactly if it holds the lease, and runs them if they did not panic.
-/

import GitEventsRunner.Leader.Loop

namespace GitEventsRunner.Leader

open GitEventsRunner.Lib

/-! ## One instance -/

namespace LoopState

/-- The lease manager sends a value. -/
def tell (s : LoopState) (value : Bool) : LoopState :=
  { s with channel := { s.channel with current := value, unseen := true } }

/-- The controllers run: they were started, were not waited for and did not panic. -/
def runs (s : LoopState) : Bool := s.controllers && !s.gone

/-- The loop waits and has seen everything there is. -/
def AtRest (s : LoopState) : Prop := s.position = .waiting ∧ s.channel.unseen = false

/-- The steps of the loop itself, in which it is neither told anything nor
interrupted by a signal. -/
def Own (action : LoopAction) : Prop := action = .advance ∨ action = .finish

/-- How many of its own steps the loop is away from waiting with everything seen, or
from its end. -/
def distance (s : LoopState) : ℕ :=
  match s.position with
  | .ended => 0
  | .head => if s.shutdown then 1 else 2
  | .stopping => if s.shutdown then 2 else 3
  | .selected => if s.shutdown then if s.controllers then 3 else 2
      else if s.controllers then 4 else 3
  | .condition => if s.channel.current = s.isLeader then 1
      else if s.controllers then 5 else 4
  | .waiting => if s.channel.unseen then
        if s.channel.current = s.isLeader then 2 else if s.controllers then 6 else 5
      else 0

theorem distance_le (s : LoopState) : s.distance ≤ 6 := by
  unfold distance
  split
  all_goals grind

end LoopState

open LoopState

/-- The controllers and what the loop knows of the lease, from place to place, while
the lease manager is there.  After a signal the loop only goes on to its end. -/
structure Following (s : LoopState) : Prop where
  opened : s.channel.closed = false
  idle : s.position = .head ∨ s.position = .ended → s.controllers = false
  running : s.position ≠ .head → s.position ≠ .ended → s.controllers = s.isLeader
  stopping : s.position = .stopping → s.controllers = true
  seen : s.AtRest → s.channel.current = s.isLeader
  announced : s.shutdown = s.shutdownSent
  leaving : s.shutdown = true → s.position ≠ .condition ∧ s.position ≠ .waiting
  signalled : s.position = .ended → s.shutdown = true

theorem start_following : Following (LoopState.start false []) where
  opened := rfl
  idle _ := rfl
  running hne := absurd rfl hne
  stopping := by
    intro hposition
    cases hposition
  seen := by
    intro hrest
    cases hrest.1
  announced := rfl
  leaving := by
    intro hshutdown
    cases hshutdown
  signalled := by
    intro hposition
    cases hposition

theorem Following.tell {s : LoopState} (h : Following s) (value : Bool) :
    Following (s.tell value) where
  opened := h.opened
  idle := h.idle
  running := h.running
  stopping := h.stopping
  seen := by
    intro hrest
    cases hrest.2
  announced := h.announced
  leaving := h.leaving
  signalled := h.signalled

/-- A step of the loop itself keeps to this, and brings it closer. -/
theorem Following.advance {s t : LoopState} (h : Following s) (hstep : s.advance = some t) :
    Following t ∧ t.distance < s.distance := by
  rcases s with ⟨⟨current, unseen, coming, closed⟩, position, isLeader, controllers, gone,
    ready, shutdown, sent⟩
  obtain ⟨hopened, hidle, hrunning, hstopping, hseen, hannounced, hleaving, hover⟩ := h
  rw [LoopState.advance] at hstep
  cases position with
  | head =>
      -- the controllers of the last iteration are gone, new ones start with the lease
      cases shutdown with
      | true =>
          simp only [if_true, Option.some.injEq] at hstep
          subst hstep
          refine ⟨⟨hopened, fun _ => hidle (Or.inl rfl), ?_, ?_, ?_, hannounced, ?_, ?_⟩, ?_⟩
          all_goals simp [AtRest, distance]
      | false =>
          simp only [Bool.false_eq_true, if_false, Option.some.injEq] at hstep
          subst hstep
          refine ⟨⟨hopened, ?_, ?_, ?_, ?_, hannounced, ?_, ?_⟩, ?_⟩
          all_goals simp [AtRest, distance, LeaseChannel.borrowAndUpdate]
  | condition =>
      simp only [Option.some.injEq] at hstep
      subst hstep
      obtain rfl : shutdown = false := by grind
      by_cases hsame : current = isLeader
      · refine ⟨⟨hopened, ?_, ?_, ?_, ?_, hannounced, ?_, ?_⟩, ?_⟩
        all_goals grind [AtRest, distance, LeaseChannel.borrowAndUpdate]
      · refine ⟨⟨hopened, ?_, ?_, ?_, ?_, hannounced, ?_, ?_⟩, ?_⟩
        all_goals grind [AtRest, distance, LeaseChannel.borrowAndUpdate]
  | waiting =>
      obtain rfl : shutdown = false := by grind
      cases unseen with
      | false => simp [LeaseChannel.changed, show closed = false from hopened] at hstep
      | true =>
          simp only [LeaseChannel.changed, if_true, Option.some.injEq] at hstep
          subst hstep
          refine ⟨⟨hopened, ?_, ?_, ?_, ?_, hannounced, ?_, ?_⟩, ?_⟩
          all_goals grind [AtRest, distance, LeaseChannel.borrowAndUpdate]
  | selected =>
      simp only [Option.some.injEq] at hstep
      subst hstep
      refine ⟨⟨hopened, ?_, ?_, ?_, ?_, hannounced, ?_, ?_⟩, ?_⟩
      all_goals grind [AtRest, distance]
  | stopping => cases hstep
  | ended => cases hstep

/-- So does the end of stopped controllers. -/
theorem Following.finish {s t : LoopState} (h : Following s) (hstep : s.step .finish = some t) :
    Following t ∧ t.distance < s.distance := by
  simp only [LoopState.step] at hstep
  split at hstep
  · rename_i hposition
    obtain rfl := Option.some.inj hstep
    refine ⟨⟨h.opened, fun _ => rfl, ?_, ?_, ?_, h.announced, ?_, ?_⟩, ?_⟩
    all_goals grind [AtRest, distance]
  · cases hstep

theorem Following.own {s t : LoopState} (h : Following s) {action : LoopAction}
    (hown : Own action) (hstep : s.step action = some t) :
    Following t ∧ t.distance < s.distance := by
  rcases hown with rfl | rfl
  · exact h.advance hstep
  · exact h.finish hstep

/-- A signal sends the loop to its end, with the shutdown announced. -/
theorem Following.signal {s t : LoopState} (h : Following s) (hstep : s.step .signal = some t) :
    Following t := by
  simp only [LoopState.step] at hstep
  split at hstep
  · rename_i hposition
    obtain rfl := Option.some.inj hstep
    refine ⟨h.opened, ?_, fun _ _ => ?_, ?_, ?_, rfl, ?_, ?_⟩
    · simp
    · rcases hposition with hposition | hposition
      · exact h.running (by simp [hposition]) (by simp [hposition])
      · exact h.running (by simp [hposition]) (by simp [hposition])
    all_goals simp [AtRest]
  · cases hstep

/-- A panic of the controllers changes nothing for the loop. -/
theorem Following.panic {s t : LoopState} (h : Following s) (hstep : s.step .panic = some t) :
    Following t := by
  simp only [LoopState.step] at hstep
  split at hstep
  · obtain rfl := Option.some.inj hstep
    exact ⟨h.opened, h.idle, h.running, h.stopping, h.seen, h.announced, h.leaving, h.signalled⟩
  · cases hstep

/-- Only a panic takes the controllers away. -/
theorem gone_of_step {s t : LoopState} {action : LoopAction} (hpanic : action ≠ .panic)
    (hstep : s.step action = some t) (h : s.gone = false) : t.gone = false := by
  cases action with
  | panic => exact absurd rfl hpanic
  | advance =>
      change s.advance = some t at hstep
      unfold LoopState.advance at hstep
      grind
  | send | close | finish | signal =>
      simp only [LoopState.step] at hstep
      split at hstep
      · obtain rfl := Option.some.inj hstep
        exact h
      · cases hstep

/-- A loop that cannot take a step of its own waits with everything seen, or is
over. -/
theorem rest_of_stuck {s : LoopState}
    (hstuck : ∀ action, Own action → s.step action = none) : s.AtRest ∨ s.position = .ended := by
  have hadvance : s.advance = none := hstuck .advance (Or.inl rfl)
  have hfinish := hstuck .finish (Or.inr rfl)
  rw [LoopState.advance] at hadvance
  cases hposition : s.position with
  | head =>
      rw [hposition] at hadvance
      cases hshutdown : s.shutdown <;> simp [hshutdown] at hadvance
  | condition => simp [hposition] at hadvance
  | waiting =>
      refine Or.inl ⟨hposition, ?_⟩
      cases hunseen : s.channel.unseen with
      | false => rfl
      | true => simp [hposition, LeaseChannel.changed, hunseen] at hadvance
  | selected => simp [hposition] at hadvance
  | stopping => simp [LoopState.step, hposition] at hfinish
  | ended => exact Or.inr rfl

/-- The loop does not change what the channel says. -/
theorem current_of_step {s t : LoopState} {action : LoopAction} (hsend : action ≠ .send)
    (hstep : s.step action = some t) : t.channel.current = s.channel.current := by
  cases action with
  | send => exact absurd rfl hsend
  | advance =>
      change s.advance = some t at hstep
      unfold LoopState.advance LeaseChannel.borrowAndUpdate at hstep
      grind
  | close | finish | signal | panic =>
      simp only [LoopState.step] at hstep
      split at hstep
      · obtain rfl := Option.some.inj hstep
        rfl
      · cases hstep

/-- A signal is not forgotten. -/
theorem shutdown_of_own {s t : LoopState} {action : LoopAction} (hown : Own action)
    (hstep : s.step action = some t) (h : s.shutdown = true) : t.shutdown = true := by
  rcases hown with rfl | rfl
  · change s.advance = some t at hstep
    unfold LoopState.advance at hstep
    grind
  · simp only [LoopState.step] at hstep
    split at hstep
    · obtain rfl := Option.some.inj hstep
      exact h
    · cases hstep

/-! ## All instances -/

/-- The lease with the loops of the instances. -/
structure Election (I : Type) where
  holder : Option I
  loops : I → LoopState

/-- One step: the lease is granted, the holder loses it, or a loop goes on, is
interrupted or loses its controllers. -/
inductive ElectionAction (I : Type)
  | grant (i : I)
  | revoke
  | loop (i : I) (action : LoopAction)

namespace Election

variable {I : Type} [DecidableEq I]

/-- Nobody holds the lease. -/
def start : Election I where
  holder := none
  loops _ := LoopState.start false []

/-- The loop of an instance goes on to another state. -/
def setLoop (s : Election I) (i : I) (loop : LoopState) : Election I :=
  { s with loops := Function.update s.loops i loop }

/-- Perform one step; `none` if it is not possible now.  The lease manager of each
instance stays, and sends what it is told here and nothing else. -/
def step (s : Election I) : ElectionAction I → Option (Election I)
  | .grant i =>
      match s.holder with
      | none => some { s.setLoop i ((s.loops i).tell true) with holder := some i }
      | some _ => none
  | .revoke =>
      s.holder.map fun i => { s.setLoop i ((s.loops i).tell false) with holder := none }
  | .loop i action =>
      match action with
      | .advance | .finish | .signal | .panic => ((s.loops i).step action).map (s.setLoop i)
      | .send | .close => none

/-- Every loop follows its channel, and the channels say who holds the lease. -/
structure Agreed (s : Election I) : Prop where
  following : ∀ i, Following (s.loops i)
  told : ∀ i, (s.loops i).channel.current = true ↔ s.holder = some i

omit [DecidableEq I] in
theorem start_agreed : (start : Election I).Agreed where
  following _ := start_following
  told i := by simp [start, LoopState.start]

/-- The other loops are as before. -/
theorem loops_setLoop (s : Election I) (i j : I) (loop : LoopState) :
    (s.setLoop i loop).loops j = if j = i then loop else s.loops j :=
  Function.update_apply _ _ _ _

/-- A loop goes on without hearing anything new. -/
theorem Agreed.setLoop {s : Election I} (h : s.Agreed) {i : I} {loop : LoopState}
    (hloop : Following loop) (hcurrent : loop.channel.current = (s.loops i).channel.current) :
    (s.setLoop i loop).Agreed where
  following j := by
    rw [loops_setLoop]
    split
    · exact hloop
    · exact h.following j
  told j := by
    rw [loops_setLoop]
    split
    · rename_i hj
      rw [hcurrent, ← hj]
      exact h.told j
    · exact h.told j

theorem Agreed.step {s t : Election I} {action : ElectionAction I} (h : s.Agreed)
    (hstep : s.step action = some t) : t.Agreed := by
  cases action with
  | grant i =>
      simp only [Election.step] at hstep
      split at hstep
      · rename_i hnone
        obtain rfl := Option.some.inj hstep
        constructor
        · intro j
          show Following ((s.setLoop i _).loops j)
          rw [loops_setLoop]
          split
          · exact (h.following i).tell true
          · exact h.following j
        · intro j
          show ((s.setLoop i _).loops j).channel.current = true ↔ some i = some j
          rw [loops_setLoop]
          split
          · rename_i hj
            simp [LoopState.tell, hj]
          · rename_i hj
            rw [h.told j, hnone]
            simp [Ne.symm hj]
      · cases hstep
  | revoke =>
      obtain ⟨i, hholder, rfl⟩ := Option.map_eq_some_iff.mp hstep
      constructor
      · intro j
        show Following ((s.setLoop i _).loops j)
        rw [loops_setLoop]
        split
        · exact (h.following i).tell false
        · exact h.following j
      · intro j
        show ((s.setLoop i _).loops j).channel.current = true ↔ none = some j
        rw [loops_setLoop]
        split
        · simp [LoopState.tell]
        · rename_i hj
          rw [h.told j, hholder]
          simp [Ne.symm hj]
  | loop i action =>
      have hfollowing := h.following i
      cases action with
      | advance | finish =>
          obtain ⟨loop, hloop, rfl⟩ := Option.map_eq_some_iff.mp hstep
          exact h.setLoop (hfollowing.own (by simp [Own]) hloop).1
            (current_of_step (by decide) hloop)
      | signal =>
          obtain ⟨loop, hloop, rfl⟩ := Option.map_eq_some_iff.mp hstep
          exact h.setLoop (hfollowing.signal hloop) (current_of_step (by decide) hloop)
      | panic =>
          obtain ⟨loop, hloop, rfl⟩ := Option.map_eq_some_iff.mp hstep
          exact h.setLoop (hfollowing.panic hloop) (current_of_step (by decide) hloop)
      | send | close => cases hstep

/-- The controllers of an instance are there as long as they do not panic. -/
theorem gone_of_election_step {s t : Election I} {action : ElectionAction I} {i : I}
    (hpanic : action ≠ .loop i .panic) (hstep : s.step action = some t)
    (h : (s.loops i).gone = false) : (t.loops i).gone = false := by
  cases action with
  | grant j =>
      simp only [Election.step] at hstep
      split at hstep
      · obtain rfl := Option.some.inj hstep
        show ((s.setLoop j _).loops i).gone = false
        rw [loops_setLoop]
        split
        · next hij => exact hij ▸ h
        · exact h
      · cases hstep
  | revoke =>
      obtain ⟨j, -, rfl⟩ := Option.map_eq_some_iff.mp hstep
      show ((s.setLoop j _).loops i).gone = false
      rw [loops_setLoop]
      split
      · next hij => exact hij ▸ h
      · exact h
  | loop j action =>
      cases action with
      | advance | finish | signal | panic =>
          obtain ⟨loop, hloop, rfl⟩ := Option.map_eq_some_iff.mp hstep
          rw [loops_setLoop]
          split
          · next hij =>
              subst hij
              exact gone_of_step (fun haction => hpanic (haction ▸ rfl)) hloop h
          · exact h
      | send | close => cases hstep

/-- The controllers follow the lease.  For any number of instances, whenever the
lease is granted and lost, however the loops interleave, whenever signals arrive and
controllers panic: an instance that waits with everything seen has controllers it
started and did not stop exactly if it holds the lease, and they run if none of its
controllers panicked; of two instances with controllers one has been told to stop; a
loop that is over has stopped its controllers and announced the shutdown; and an
instance left alone takes at most six steps, and then waits with everything seen, or,
after a signal, is over. -/
theorem controllers_follow_lease (actions : List (ElectionAction I)) (t : Election I)
    (hrun : run step start actions = some t) :
    (∀ i, (t.loops i).AtRest → ((t.loops i).controllers = true ↔ t.holder = some i) ∧
      (.loop i .panic ∉ actions → ((t.loops i).runs = true ↔ t.holder = some i))) ∧
    (∀ i j, i ≠ j → (t.loops i).controllers = true → (t.loops j).controllers = true →
      (t.loops i).channel.current = false ∨ (t.loops j).channel.current = false) ∧
    (∀ i, (t.loops i).position = .ended →
      (t.loops i).controllers = false ∧ (t.loops i).shutdownSent = true) ∧
    (∀ i own u, (∀ action ∈ own, Own action) → run LoopState.step (t.loops i) own = some u →
      own.length ≤ 6 ∧ ((∀ action, Own action → u.step action = none) →
        if (t.loops i).shutdown then u.position = .ended else u.AtRest ∨ u.position = .ended)) := by
  have h : t.Agreed := invariant_of_run (fun _ _ _ hstep hs => hs.step hstep) hrun start_agreed
  refine ⟨?_, ?_, ?_, ?_⟩
  · intro i hrest
    have hfollowing := h.following i
    have hholds : (t.loops i).controllers = true ↔ t.holder = some i := by
      rw [hfollowing.running (by simp [hrest.1]) (by simp [hrest.1]), ← hfollowing.seen hrest]
      exact h.told i
    refine ⟨hholds, fun hcalm => ?_⟩
    have hall : ∀ action ∈ actions, action ≠ .loop i .panic :=
      fun action hmem haction => hcalm (haction ▸ hmem)
    have hkeeps : ∀ s action u, step s action = some u → (s.loops i).gone = false →
        action ≠ .loop i .panic → (u.loops i).gone = false :=
      fun s action u hstep hs hpanic => gone_of_election_step hpanic hstep hs
    have hgone := invariant_of_along hkeeps hrun (along_of_forall_mem _ hall) rfl
    rw [runs, hgone, Bool.not_false, Bool.and_true]
    exact hholds
  · intro i j hne _ _
    by_contra hboth
    simp only [not_or, Bool.not_eq_false] at hboth
    have hi := (h.told i).mp hboth.1
    have hj := (h.told j).mp hboth.2
    rw [hi] at hj
    exact hne (Option.some.inj hj)
  · intro i hover
    have hfollowing := h.following i
    refine ⟨hfollowing.idle (Or.inr hover), ?_⟩
    rw [← hfollowing.announced]
    exact hfollowing.signalled hover
  · intro i own u hown hrun
    have hcloser : ∀ s action v, action ∈ own → s.step action = some v →
        Following s ∧ ((t.loops i).shutdown = true → s.shutdown = true) →
        (Following v ∧ ((t.loops i).shutdown = true → v.shutdown = true)) ∧
          v.distance < s.distance := by
      intro s action v hmem hstep hs
      have hnext := hs.1.own (hown action hmem) hstep
      exact ⟨⟨hnext.1, fun hset => shutdown_of_own (hown action hmem) hstep (hs.2 hset)⟩, hnext.2⟩
    obtain ⟨⟨hfollowing, hkept⟩, hlength⟩ :=
      length_le_of_rank _ LoopState.distance hcloser hrun ⟨h.following i, id⟩
    have hle := (t.loops i).distance_le
    refine ⟨by omega, fun hstuck => ?_⟩
    have hrest := rest_of_stuck hstuck
    split
    · rename_i hset
      refine hrest.resolve_left fun hwaits => ?_
      exact (hfollowing.leaving (hkept hset)).2 hwaits.1
    · exact hrest

/-- The first instance leads and loses the lease, and the second one leads before the
first has looked. -/
def handOver : List (ElectionAction Bool) :=
  [.loop false .advance, .loop false .advance, .loop true .advance, .grant false,
    .loop false .advance, .loop false .advance, .loop false .advance, .loop false .advance,
    .loop false .advance, .revoke, .grant true, .loop true .advance, .loop true .advance,
    .loop true .advance, .loop true .advance]

/-- The controllers of the first instance panic: it goes on holding the lease. -/
example : (run step start (handOver.take 9 ++ [.loop false .panic])).map
    (fun t => (t.holder, (t.loops false).controllers, (t.loops false).runs)) =
      some (some false, true, false) := by
  decide

theorem handOver_isSome : (run step start handOver).isSome = true := by decide

theorem controllers_follow_lease_handOver :
    ∃ t, run step start handOver = some t ∧
      (t.loops false).controllers = true ∧ (t.loops true).controllers = true ∧
      ((t.loops false).channel.current = false ∨ (t.loops true).channel.current = false) := by
  refine ⟨_, (Option.some_get handOver_isSome).symm, by decide, by decide, ?_⟩
  exact (controllers_follow_lease handOver _ (Option.some_get handOver_isSome).symm).2.1 false
    true (by decide) (by decide) (by decide)

end Election

end GitEventsRunner.Leader
