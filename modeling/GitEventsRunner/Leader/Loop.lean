/-
# The leader loop

The main loop of `run`: it starts the leader controllers while this instance
holds the lease and stops them when it loses it.  The lease manager tells it
through a watch channel, which keeps one value and whether the receiver has seen
it.  A signal ends the loop and tells the web servers and the jobs queue to shut
down.

If the lease manager goes away, its channel closes.  The wait for a change then
fails at once, every time, and the loop notes that it has to shut down.  But it
notes so inside the inner wait loop, whose condition compares the last value with
itself: without a signal the loop never ends and never tells anyone to shut down.
-/

import GitEventsRunner.Lib.Machine

namespace GitEventsRunner.Leader

open GitEventsRunner.Lib

/-! ## The lease channel -/

/-- A watch channel with what will still be sent on it: the current value,
whether the receiver has seen it, the values to come, and whether the sender is
gone. -/
structure LeaseChannel where
  current : Bool
  unseen : Bool
  coming : List Bool
  closed : Bool
  deriving DecidableEq, Repr

namespace LeaseChannel

/-- `borrow_and_update` leaves the current value seen. -/
def borrowAndUpdate (channel : LeaseChannel) : LeaseChannel := { channel with unseen := false }

/-- `changed()`: whether it returns `Ok`; `none` if it has to wait. -/
def changed (channel : LeaseChannel) : Option Bool :=
  if channel.unseen then some true
  else if channel.closed then some false
  else none

end LeaseChannel

/-! ## The loop -/

/-- Where the loop is: at its head, at the condition of the inner loop, waiting
for a change, behind the `select!`, waiting for the stopped controllers, or
ended. -/
inductive Position
  | head | condition | waiting | selected | stopping | ended
  deriving DecidableEq, Repr

/-- The loop with its channel.  `controllers` says whether it has started controllers it
did not wait for yet, `gone` whether their task has ended by itself, and `shutdownSent`
whether the shutdown event went to the web servers and the jobs queue. -/
structure LoopState where
  channel : LeaseChannel
  position : Position
  isLeader : Bool
  controllers : Bool
  gone : Bool
  ready : Bool
  shutdown : Bool
  shutdownSent : Bool
  deriving DecidableEq, Repr

/-- One step: the lease manager sends its next value or goes away, the loop goes
on, the stopped controllers finish, a signal arrives, or the task of the controllers
panics. -/
inductive LoopAction
  | send | close | advance | finish | signal | panic
  deriving DecidableEq, Repr

namespace LoopState

/-- The next step of the loop itself; `none` if it has to wait. -/
def advance (s : LoopState) : Option LoopState :=
  match s.position with
  | .head =>
      if s.shutdown then some { s with position := .ended }
      else some { s with
        channel := s.channel.borrowAndUpdate
        isLeader := s.channel.current
        controllers := s.channel.current
        gone := false
        ready := true
        position := .condition }
  | .condition =>
      some { s with
        channel := s.channel.borrowAndUpdate
        position := if s.channel.current = s.isLeader then .waiting else .selected }
  | .waiting =>
      match s.channel.changed with
      | some true =>
          some { s with channel := s.channel.borrowAndUpdate, position := .condition }
      | some false => some { s with shutdown := true, position := .condition }
      | none => none
  | .selected => some { s with position := if s.controllers then .stopping else .head }
  | .stopping | .ended => none

/-- One step of the loop and its surroundings. -/
def step (s : LoopState) : LoopAction → Option LoopState
  | .send =>
      match s.channel.closed, s.channel.coming with
      | false, value :: coming =>
          some { s with channel :=
            { s.channel with current := value, unseen := true, coming := coming } }
      | _, _ => none
  | .close =>
      if s.channel.coming = [] then some { s with channel := { s.channel with closed := true } }
      else none
  | .advance => s.advance
  | .finish =>
      if s.position = .stopping then some { s with controllers := false, position := .head }
      else none
  | .signal =>
      if s.position = .condition ∨ s.position = .waiting then
        some { s with shutdownSent := true, shutdown := true, position := .selected }
      else none
  -- the loop holds the handle of the task, but does not look at it while it waits
  | .panic => if s.controllers && !s.gone then some { s with gone := true } else none

/-- The loop before its first iteration, with the values the lease manager will
send before it goes away. -/
def start (initial : Bool) (values : List Bool) : LoopState where
  channel := { current := initial, unseen := false, coming := values, closed := false }
  position := .head
  isLeader := false
  controllers := false
  gone := false
  ready := false
  shutdown := false
  shutdownSent := false

end LoopState

/-- Without a signal the loop can end at all, with the shutdown event sent. -/
def LeaderLoopEnds (initial : Bool) (values : List Bool) : Prop :=
  ∃ actions t, .signal ∉ actions ∧
    run LoopState.step (LoopState.start initial values) actions = some t ∧
    t.position = .ended ∧ t.shutdownSent = true

/-! ## It does not end -/

/-- Without a signal: no shutdown event is sent and the loop is not over.  While
it waits and has seen everything, the channel still holds the value it started
with; once it wants to shut down, that never changes again. -/
structure Caught (s : LoopState) : Prop where
  notSent : s.shutdownSent = false
  running : s.position ≠ .ended
  waits : s.position = .waiting → s.channel.unseen = false → s.channel.current = s.isLeader
  shuts : s.shutdown = true → s.channel.closed = true ∧ s.channel.unseen = false ∧
    s.channel.current = s.isLeader ∧ (s.position = .condition ∨ s.position = .waiting)

theorem start_caught (initial : Bool) (values : List Bool) :
    Caught (LoopState.start initial values) where
  notSent := rfl
  running := by simp [LoopState.start]
  waits := by
    intro hposition
    cases hposition
  shuts := by
    intro hshutdown
    cases hshutdown

theorem Caught.advance {s t : LoopState} (h : Caught s) (hstep : s.advance = some t) :
    Caught t := by
  rw [LoopState.advance] at hstep
  cases hposition : s.position with
  | head =>
      have hshutdown : s.shutdown = false := by
        by_contra hne
        have hshuts := h.shuts (by simpa using hne)
        simp [hposition] at hshuts
      simp only [hposition, hshutdown, Bool.false_eq_true, if_false] at hstep
      obtain rfl := Option.some.inj hstep
      refine ⟨h.notSent, by simp, by simp, ?_⟩
      intro hset
      cases hset
  | condition =>
      simp only [hposition] at hstep
      obtain rfl := Option.some.inj hstep
      by_cases hsame : s.channel.current = s.isLeader
      · rw [if_pos hsame]
        refine ⟨h.notSent, by simp, fun _ _ => hsame, ?_⟩
        intro hset
        rcases h.shuts hset with ⟨hclosed, -, hcurrent, -⟩
        exact ⟨hclosed, rfl, hcurrent, Or.inr rfl⟩
      · rw [if_neg hsame]
        refine ⟨h.notSent, by simp, by simp, ?_⟩
        intro hset
        exact absurd (h.shuts hset).2.2.1 hsame
  | waiting =>
      simp only [hposition] at hstep
      cases hchanged : s.channel.changed with
      | none =>
          rw [hchanged] at hstep
          cases hstep
      | some ok =>
          rw [hchanged] at hstep
          rw [LeaseChannel.changed] at hchanged
          cases hunseen : s.channel.unseen with
          | true =>
              obtain rfl : true = ok := by simpa [hunseen] using hchanged
              obtain rfl := Option.some.inj hstep
              refine ⟨h.notSent, by simp, by simp, ?_⟩
              intro hset
              have hseen := (h.shuts hset).2.1
              rw [hunseen] at hseen
              cases hseen
          | false =>
              have hclosed : s.channel.closed = true := by
                by_contra hopen
                simp [hunseen, hopen] at hchanged
              obtain rfl : false = ok := by simpa [hunseen, hclosed] using hchanged
              obtain rfl := Option.some.inj hstep
              refine ⟨h.notSent, by simp, by simp, ?_⟩
              intro _
              exact ⟨hclosed, hunseen, h.waits hposition hunseen, Or.inl rfl⟩
  | selected =>
      simp only [hposition] at hstep
      obtain rfl := Option.some.inj hstep
      have hnot : s.shutdown ≠ true := by
        intro hset
        have hshuts := h.shuts hset
        simp [hposition] at hshuts
      refine ⟨h.notSent, ?_, ?_, fun hset => absurd hset hnot⟩
      · cases s.controllers <;> simp
      · cases s.controllers <;> simp
  | stopping =>
      rw [hposition] at hstep
      cases hstep
  | ended => exact absurd hposition h.running

theorem Caught.step {s t : LoopState} {action : LoopAction} (hquiet : action ≠ .signal)
    (hstep : s.step action = some t) (h : Caught s) : Caught t := by
  cases action with
  | send =>
      simp only [LoopState.step] at hstep
      split at hstep
      · next value coming hopen hcoming =>
          obtain rfl := Option.some.inj hstep
          refine ⟨h.notSent, h.running, by simp, ?_⟩
          intro hset
          have hclosed := (h.shuts hset).1
          rw [hopen] at hclosed
          cases hclosed
      · cases hstep
  | close =>
      simp only [LoopState.step] at hstep
      split at hstep
      · obtain rfl := Option.some.inj hstep
        exact ⟨h.notSent, h.running, h.waits, fun hset => ⟨rfl, (h.shuts hset).2⟩⟩
      · cases hstep
  | advance => exact h.advance hstep
  | finish =>
      simp only [LoopState.step] at hstep
      split at hstep
      · next hposition =>
          obtain rfl := Option.some.inj hstep
          refine ⟨h.notSent, by simp, by simp, ?_⟩
          intro hset
          have hshuts := (h.shuts hset).2.2.2
          simp [hposition] at hshuts
      · cases hstep
  | signal => exact absurd rfl hquiet
  | panic =>
      simp only [LoopState.step] at hstep
      split at hstep
      · obtain rfl := Option.some.inj hstep
        exact ⟨h.notSent, h.running, h.waits, h.shuts⟩
      · cases hstep

/-- Whatever the lease manager sends and whenever it goes away: without a signal
the loop is not over and no shutdown event was sent. -/
theorem caught_of_run {initial : Bool} {values : List Bool} {actions : List LoopAction}
    {t : LoopState} (hquiet : .signal ∉ actions)
    (hrun : run LoopState.step (LoopState.start initial values) actions = some t) :
    Caught t := by
  have hall : ∀ action ∈ actions, action ≠ .signal :=
    fun action hmem heq => hquiet (heq ▸ hmem)
  apply invariant_of_along _ hrun (along_of_forall_mem _ hall) (start_caught initial values)
  intro s action t hstep h hne
  exact h.step hne hstep

/-- Behind a closed channel there is always a step to take. -/
theorem Caught.progress {s : LoopState} (h : Caught s) (hclosed : s.channel.closed = true) :
    ∃ action, action ≠ .signal ∧ (s.step action).isSome = true := by
  cases hposition : s.position with
  | head =>
      refine ⟨.advance, by decide, ?_⟩
      simp only [LoopState.step, LoopState.advance, hposition]
      split
      · rfl
      · rfl
  | condition => exact ⟨.advance, by decide, by simp [LoopState.step, LoopState.advance, hposition]⟩
  | waiting =>
      refine ⟨.advance, by decide, ?_⟩
      simp only [LoopState.step, LoopState.advance, hposition, LeaseChannel.changed, hclosed]
      cases s.channel.unseen with
      | true => rfl
      | false => rfl
  | selected => exact ⟨.advance, by decide, by simp [LoopState.step, LoopState.advance, hposition]⟩
  | stopping => exact ⟨.finish, by decide, by simp [LoopState.step, hposition]⟩
  | ended => exact absurd hposition h.running

/-- Once the loop wants to shut down, it goes in circles. -/
theorem Caught.circles {s : LoopState} (h : Caught s) (hshutdown : s.shutdown = true) :
    run LoopState.step s [.advance, .advance] = some s := by
  rcases h.shuts hshutdown with ⟨hclosed, hunseen, hcurrent, hposition⟩
  rcases s with ⟨⟨current, unseen, coming, closed⟩, position, isLeader, controllers, gone,
    ready, shutdown, sent⟩
  simp only at hclosed hunseen hcurrent hposition hshutdown
  subst hclosed hunseen hcurrent hshutdown
  rcases hposition with rfl | rfl
  · simp [run, LoopState.step, LoopState.advance, LeaseChannel.borrowAndUpdate,
      LeaseChannel.changed]
  · simp [run, LoopState.step, LoopState.advance, LeaseChannel.borrowAndUpdate,
      LeaseChannel.changed]

theorem not_leaderLoopEnds (initial : Bool) (values : List Bool) :
    ¬ LeaderLoopEnds initial values := by
  rintro ⟨actions, t, hquiet, hrun, hover, -⟩
  exact (caught_of_run hquiet hrun).running hover

/-- For every sequence of values the lease manager sends before it goes away, and
every interleaving with the loop: the loop never ends, nobody is told to shut
down, once the channel is closed the loop always has a next step, and once it
wants to shut down its steps lead back to where it is. -/
theorem leaderLoop_never_ends (initial : Bool) (values : List Bool) :
    ¬ LeaderLoopEnds initial values ∧
      ∀ actions t, .signal ∉ actions →
        run LoopState.step (LoopState.start initial values) actions = some t →
        t.position ≠ .ended ∧ t.shutdownSent = false ∧
          (t.channel.closed = true →
            ∃ action, action ≠ .signal ∧ (t.step action).isSome = true) ∧
          (t.shutdown = true → run LoopState.step t [.advance, .advance] = some t) := by
  apply And.intro (not_leaderLoopEnds initial values)
  intro actions t hquiet hrun
  have h := caught_of_run hquiet hrun
  exact ⟨h.running, h.notSent, h.progress, h.circles⟩

/-- The lease manager grants the lease and goes away. -/
def leaseThenClose : List LoopAction :=
  [.advance, .send, .close, .advance, .advance, .advance, .advance, .advance, .advance]

theorem leaderLoop_never_ends_leaseThenClose :
    ∃ t, run LoopState.step (LoopState.start false [true]) leaseThenClose = some t ∧
      t.shutdown = true ∧ run LoopState.step t [.advance, .advance] = some t := by
  have hshutdown : (run LoopState.step (LoopState.start false [true]) leaseThenClose).map
      LoopState.shutdown = some true := by decide
  rcases Option.map_eq_some_iff.mp hshutdown with ⟨t, hrun, hset⟩
  have hcircle := ((leaderLoop_never_ends false [true]).2 _ t (by decide) hrun).2.2.2 hset
  exact ⟨t, hrun, hset, hcircle⟩

/-- Even if the lease manager goes away at once, the loop does not end. -/
theorem leaderLoop_outlives_lease_manager : ¬ LeaderLoopEnds false [] :=
  not_leaderLoopEnds false []

end GitEventsRunner.Leader
