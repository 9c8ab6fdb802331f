import TierBuf.Core.Error

/-!
# The Fault Coordinator

The per-page record that elects one fault leader per generation.

`FaultCoordinator` is a mutex around a `FaultState` and one condition
variable. Every function here is one lock-protected section of its code: what
a caller does between taking the mutex and either releasing it or going to
sleep on the condition variable. `enter` is split accordingly. `FaultState.enter`
is the section a caller runs when it arrives or is woken before it has joined
a generation, and `FaultState.replay` is the section a registered waiter runs
each time it wakes.

## Main definitions

* `FaultState`: The record behind the mutex.
* `FaultState.enter`: Joining a generation, or being elected its leader.
* `FaultState.replay`: A woken waiter looking for its outcome.
* `FaultState.complete`: A leader publishing its outcome.

## Theorems

* `FaultState.enter_completed`, `FaultState.replay_completed`, `FaultState.replay_taken`,
  `FaultState.complete_completed`: What each section does to the completed record.
* `FaultState.enter_registered`, `FaultState.enter_deferred`,
  `FaultState.enter_leader`, `FaultState.replay_active`,
  `FaultState.complete_active`: What each section does to the active generation.
-/

namespace TierBuf

structure ActiveFault where
  generation : Nat
  waiters : Nat
  deriving DecidableEq, Repr

structure CompletedFault where
  generation : Nat
  outcome : FaultOutcome
  remainingWaiters : Nat
  deriving DecidableEq, Repr

structure FaultState where
  nextGeneration : Nat
  active : Option ActiveFault
  completed : Option CompletedFault
  deriving DecidableEq, Repr

/-- `FaultState::default`. -/
def FaultState.initial : FaultState :=
  { nextGeneration := 0, active := none, completed := none }

/-- How one pass through the body of `FaultCoordinator::enter` ends. -/
inductive Turn where
  /-- Registered as a waiter of the active generation, and asleep. -/
  | registered (generation : Nat)
  /-- Asleep until the completed generation has been replayed. -/
  | deferred
  /-- Elected leader of a new generation. -/
  | leader (generation : Nat)
  deriving DecidableEq, Repr

/-- How a woken waiter's look at the completed record ends. -/
inductive Replay where
  /-- The record is absent or of another generation; back to sleep. -/
  | notYet
  /-- The waiter took its outcome; `last` says that it also cleared the
      record and notified. -/
  | taken (outcome : FaultOutcome) (last : Bool)
  /-- `checked_sub` failed: the record retained no waiter. -/
  | underflow
  deriving DecidableEq, Repr

namespace FaultState

/-- The section of `FaultCoordinator::enter` run by a caller that has not
    joined a generation. -/
def enter (state : FaultState) : Turn × FaultState :=
  match state.active with
  | some act => (.registered act.generation,
      { state with active := some { act with waiters := act.waiters + 1 } })
  | none => match state.completed with
    | some _ => (.deferred, state)
    | none => (.leader state.nextGeneration,
        { state with
          nextGeneration := (state.nextGeneration + 1) % 2 ^ 64
          active := some { generation := state.nextGeneration, waiters := 0 } })

/-- The section of `FaultCoordinator::enter` run by a waiter of `generation`
    each time it wakes. -/
def replay (state : FaultState) (generation : Nat) : Replay × FaultState :=
  match state.completed with
  | none => (.notYet, state)
  | some done =>
    if done.generation = generation then
      match done.remainingWaiters with
      | 0 => (.underflow, state)
      | 1 => (.taken done.outcome true, { state with completed := none })
      | n + 2 => (.taken done.outcome false,
          { state with completed := some { done with remainingWaiters := n + 1 } })
    else (.notYet, state)

/-- `FaultCoordinator::complete`. -/
def complete (state : FaultState) (generation : Nat) (outcome : FaultOutcome) : FaultState :=
  match state.active with
  | none => state
  | some act =>
    { state with
      active := none
      completed := if act.waiters ≠ 0 then
          some { generation := generation, outcome := outcome, remainingWaiters := act.waiters }
        else state.completed }

variable {f f' : FaultState} {g : Nat}

theorem enter_registered (h : f.enter = (.registered g, f')) :
    f'.active.isSome = f.active.isSome := by
  unfold enter at h
  cases hact : f.active with
  | some act =>
      simp only [hact, Prod.mk.injEq] at h
      rw [← h.2]
      rfl
  | none =>
      simp only [hact] at h
      split at h
      · simp only [Prod.mk.injEq, reduceCtorEq, false_and] at h
      · simp only [Prod.mk.injEq, reduceCtorEq, false_and] at h

theorem enter_deferred (h : f.enter = (.deferred, f')) : f' = f := by
  unfold enter at h
  cases hact : f.active with
  | some act => simp only [hact, Prod.mk.injEq, reduceCtorEq, false_and] at h
  | none =>
      simp only [hact] at h
      split at h
      · simp only [Prod.mk.injEq, true_and] at h
        exact h.symm
      · simp only [Prod.mk.injEq, reduceCtorEq, false_and] at h

theorem enter_leader (h : f.enter = (.leader g, f')) :
    f.active = none ∧ f'.active.isSome = true := by
  unfold enter at h
  cases hact : f.active with
  | some act => simp only [hact, Prod.mk.injEq, reduceCtorEq, false_and] at h
  | none =>
      simp only [hact] at h
      split at h
      · simp only [Prod.mk.injEq, reduceCtorEq, false_and] at h
      · simp only [Prod.mk.injEq] at h
        rw [← h.2]
        exact ⟨rfl, rfl⟩

theorem replay_active : (f.replay g).2.active = f.active := by
  unfold replay
  split
  · rfl
  · split
    · split <;> rfl
    · rfl

theorem complete_active {outcome : FaultOutcome} : (f.complete g outcome).active = none := by
  unfold complete
  split
  · assumption
  · rfl

theorem enter_completed : f.enter.2.completed = f.completed := by
  unfold enter
  split
  · rfl
  · split <;> rfl

theorem replay_completed {done : CompletedFault} (h : (f.replay g).2.completed = some done) :
    ∃ before, f.completed = some before ∧ before.outcome = done.outcome := by
  unfold replay at h
  cases hdone : f.completed with
  | none =>
      simp only [hdone] at h
      cases h
  | some before =>
      refine ⟨before, rfl, ?_⟩
      simp only [hdone] at h
      split at h
      · split at h
        · rw [hdone] at h
          rw [Option.some.inj h]
        · cases h
        · rw [← Option.some.inj h]
      · rw [hdone] at h
        rw [Option.some.inj h]

theorem replay_taken {outcome : FaultOutcome} {last : Bool}
    (h : (f.replay g).1 = .taken outcome last) :
    ∃ done, f.completed = some done ∧ done.outcome = outcome := by
  unfold replay at h
  split at h
  · cases h
  · rename_i done hdone
    refine ⟨done, hdone, ?_⟩
    split at h
    · split at h
      · cases h
      · exact (Replay.taken.inj h).1
      · exact (Replay.taken.inj h).1
    · cases h

theorem complete_completed {outcome : FaultOutcome} {done : CompletedFault}
    (h : (f.complete g outcome).completed = some done) :
    done.outcome = outcome ∨ f.completed = some done := by
  unfold complete at h
  split at h
  · exact .inr h
  · dsimp only at h
    split at h
    · rw [← Option.some.inj h]
      exact .inl rfl
    · exact .inr h

end FaultState

end TierBuf
