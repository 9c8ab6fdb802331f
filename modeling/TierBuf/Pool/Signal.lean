import TierBuf.Transition

/-!
# Signals of the Background Threads

The loops of the cooler and of the epoch thread, with `wait_for_worker`.

Both threads go round one circle: take the manager if it is still there, end
if it is stopping, do a piece of work, and wait for the interval to pass or for
a notification. The cooler enters the circle at the work, the epoch thread at
the wait.

A notification need not find the thread asleep. It counts up a generation, and
the thread sleeps only while the generation is the one that it has observed
last. The generation has 64 bits, so `2 ^ 64` notifications in one round of the
circle look like none.

The word `stopping` is not under the mutex of the signal. It can be set after
the thread has looked and before the thread sleeps; what wakes the thread then
is the notification that follows.

## Main definitions

* `WorkerStage`: The points of the circle.
* `signalSystem`: A thread, and those who notify it.
* `SignalHistory`: What has been notified since when.
* `Heard`: The invariant.

## Theorems

* `heard_reachable`: It holds in every reachable state.
* `worker_hears`: A thread that sleeps has worked since the last notification.
* `worker_ends`: A thread that has been told to stop ends.
-/

namespace TierBuf

open Transition

/-! ### The circle -/

/-- Where a thread of `start_workers` is. A stage that drops the manager knows
    whether the loop ends with it. -/
inductive WorkerStage where
  | upgrade
  | running
  | begins
  | works
  | release (ends : Bool)
  | dropStop (ends : Bool)
  | dropNotify (ends : Bool)
  /-- The first line of `wait_for_worker`. -/
  | stop
  | lock
  | recheck
  | compare
  /-- The condition of `wait_timeout_while`, in two stages. -/
  | condition
  | same
  | asleep
  | woken
  | observe
  | answer
  | done
  deriving DecidableEq

/-- Whether the thread has the mutex of the signal. -/
def WorkerStage.locks : WorkerStage → Bool
  | .recheck | .compare | .condition | .same | .observe | .answer => true
  | _ => false

structure SignalState where
  generation : Nat
  locked : Bool
  stopping : Bool
  /-- Whether another thread has a strong reference to the manager. -/
  users : Bool
  /-- `observed_signal` of the thread. -/
  observed : Nat
  stage : WorkerStage

namespace SignalState

variable (s : SignalState)

/-- The section of `notify` under the mutex. -/
def notify : SignalState :=
  { s with
    generation := (s.generation + 1) % 2 ^ 64
    stage := if s.stage = .asleep then .woken else s.stage }

def moveTo (stage : WorkerStage) : SignalState := { s with stage := stage }

/-- The thread takes the mutex. -/
def take (stage : WorkerStage) : Option SignalState :=
  if s.locked then none else some { s with locked := true, stage := stage }

/-- The thread gives the mutex up. -/
def give (stage : WorkerStage) : SignalState := { s with locked := false, stage := stage }

/-- Where the loop is after the manager has been dropped. -/
def afterDrop (ends : Bool) : WorkerStage := if ends then .done else .stop

/-- One step of the thread, with whether the interval of `wait_timeout_while`
    has passed. -/
def work (elapsed : Bool) : Option SignalState :=
  match s.stage with
  | .upgrade => some (s.moveTo (if s.users then .running else .done))
  | .running => some (s.moveTo (if s.stopping then .release true else .begins))
  | .begins => some (s.moveTo .works)
  | .works => some (s.moveTo (.release false))
  | .release ends => some (s.moveTo (if s.users then afterDrop ends else .dropStop ends))
  | .dropStop ends => some { s with stopping := true, stage := .dropNotify ends }
  | .dropNotify ends => if s.locked then none else some (s.notify.moveTo (afterDrop ends))
  | .stop => some (s.moveTo (if s.stopping then .done else .lock))
  | .lock => s.take .recheck
  | .recheck => some (if s.stopping then s.give .done else s.moveTo .compare)
  | .compare => some (if s.generation = s.observed then s.moveTo .condition
      else { s.give .upgrade with observed := s.generation })
  | .condition => some (s.moveTo (if s.stopping then .observe else .same))
  | .same => some (if s.generation = s.observed ∧ ¬ elapsed then s.give .asleep
      else s.moveTo .observe)
  | .asleep => none
  | .woken => s.take .condition
  | .observe => some { s.moveTo .answer with observed := s.generation }
  | .answer => some (s.give (if s.stopping then .done else .upgrade))
  | .done => none

end SignalState

/-- The thread moves, wakes up for no reason or since its interval has passed;
    someone notifies it, stops the manager, or drops the last other reference
    to it. -/
inductive SignalMove where
  | work (elapsed : Bool)
  | wake
  | notify
  | stop
  | leave
  deriving DecidableEq

def SignalState.next (s : SignalState) : SignalMove → Option SignalState
  | .work elapsed => s.work elapsed
  | .wake => if s.stage = .asleep then some (s.moveTo .woken) else none
  | .notify => if s.locked then none else some s.notify
  | .stop => some { s with stopping := true }
  | .leave => some { s with users := false }

/-- A thread that enters the circle at `stage`. -/
def SignalState.initial (stage : WorkerStage) : SignalState :=
  { generation := 0, locked := false, stopping := false, users := true, observed := 0,
    stage := stage }

/-- The cooler or the epoch thread, with its signal. -/
def signalSystem : System SignalState SignalMove where
  init := fun s => s = .initial .upgrade ∨ s = .initial .stop
  next := SignalState.next

/-! ### What the thread has heard -/

structure SignalHistory where
  /-- The notifications since the thread has observed the generation. -/
  since : Nat
  /-- The notifications since the thread has begun a piece of work. -/
  unheard : Nat
  /-- Whether there was a notification after the manager was stopped. -/
  told : Bool
  /-- The pieces of work that were begun after the manager was stopped. -/
  begun : Nat

def SignalHistory.notified (h : SignalHistory) (stopping : Bool) : SignalHistory :=
  { h with since := h.since + 1, unheard := h.unheard + 1, told := h.told || stopping }

def recordSignal (h : SignalHistory) (s : SignalState) (m : SignalMove) (_ : SignalState) :
    SignalHistory :=
  match m with
  | .notify => h.notified s.stopping
  | .work _ => match s.stage with
    | .begins => { h with
        unheard := 0, begun := if s.stopping then h.begun + 1 else h.begun }
    | .dropNotify _ => h.notified s.stopping
    | .compare => if s.generation = s.observed then h else { h with since := 0 }
    | .observe => { h with since := 0 }
    | _ => h
  | _ => h

def signalHistory : System (SignalState × SignalHistory) SignalMove :=
  signalSystem.withHistory ⟨0, 0, false, 0⟩ recordSignal

/-- Whether the thread has worked since it has observed the generation. -/
def WorkerStage.worked : WorkerStage → Bool
  | .works | .stop | .lock | .recheck | .compare | .condition | .same | .asleep | .woken
  | .observe => true
  | .release ends | .dropStop ends | .dropNotify ends => !ends
  | _ => false

/-- The stages that do not rest on having seen the manager run. -/
def WorkerStage.plain : WorkerStage → Bool
  | .begins | .same | .asleep => false
  | _ => true

structure Heard (s : SignalState) (h : SignalHistory) : Prop where
  locked : s.locked = s.stage.locks
  observed : s.observed < 2 ^ 64
  count : s.generation = (s.observed + h.since) % 2 ^ 64
  asleep : s.stage = .asleep → s.generation = s.observed
  heard : s.stage.worked = true → h.unheard ≤ h.since
  told : h.told = true → s.stopping = true ∧ s.stage ≠ .same ∧ s.stage ≠ .asleep
  fresh : s.stopping = false → h.begun = 0
  begins : s.stage = .begins → h.begun = 0
  begun : h.begun ≤ 1

namespace Heard

variable {s s' : SignalState} {h : SignalHistory}

theorem generation_lt (hh : Heard s h) : s.generation < 2 ^ 64 := by
  rw [hh.count]
  exact Nat.mod_lt _ (by decide)

/-- A step that moves the thread, and may take or give up the mutex. -/
theorem moves {stage : WorkerStage} {b : Bool} (hh : Heard s h) (hlocks : b = stage.locks)
    (hworked : stage.worked = true → s.stage.worked = true)
    (hasleep : stage = .asleep → s.stage = .same ∧ s.generation = s.observed)
    (hrunning : stage = .same ∨ stage = .begins → s.stopping = false) :
    Heard { s with locked := b, stage := stage } h where
  locked := hlocks
  observed := hh.observed
  count := hh.count
  asleep := fun hs => (hasleep hs).2
  heard := fun hs => hh.heard (hworked hs)
  told := fun ht => by
    rcases hh.told ht with ⟨hstop, hsame, -⟩
    refine ⟨hstop, fun hs => ?_, fun hs => hsame (hasleep hs).1⟩
    exact Bool.false_ne_true ((hrunning (.inl hs)).symm.trans hstop)
  fresh := hh.fresh
  begins := fun hs => hh.fresh (hrunning (.inr hs))
  begun := hh.begun

/-- The thread has compared or recorded the generation. -/
theorem observes {stage : WorkerStage} {b : Bool} (hh : Heard s h) (hlocks : b = stage.locks)
    (hstage : stage = .upgrade ∨ stage = .answer) :
    Heard { s with observed := s.generation, locked := b, stage := stage }
      { h with since := 0 } where
  locked := hlocks
  observed := hh.generation_lt
  count := (Nat.mod_eq_of_lt hh.generation_lt).symm
  asleep := fun _ => rfl
  heard := fun hs => by
    rcases hstage with rfl | rfl
    · cases hs
    · cases hs
  told := fun ht => by
    refine ⟨(hh.told ht).1, fun hs => ?_, fun hs => ?_⟩
    · rcases hstage with rfl | rfl
      · cases hs
      · cases hs
    · rcases hstage with rfl | rfl
      · cases hs
      · cases hs
  fresh := hh.fresh
  begins := fun hs => by
    rcases hstage with rfl | rfl
    · cases hs
    · cases hs
  begun := hh.begun

/-- The thread begins a piece of work. -/
theorem works (hh : Heard s h) (hbegins : s.stage = .begins) :
    Heard (s.moveTo .works) { h with
      unheard := 0, begun := if s.stopping then h.begun + 1 else h.begun } where
  locked := by
    refine hh.locked.trans ?_
    rw [hbegins]
    rfl
  observed := hh.observed
  count := hh.count
  asleep := fun hs => by cases hs
  heard := fun _ => Nat.zero_le _
  told := fun ht => ⟨(hh.told ht).1, by rintro ⟨⟩, by rintro ⟨⟩⟩
  fresh := fun hs => by
    change s.stopping = false at hs
    dsimp only
    rw [hs]
    exact hh.fresh hs
  begins := fun hs => by cases hs
  begun := by
    dsimp only
    rw [hh.begins hbegins]
    split
    · exact Nat.le_refl _
    · exact Nat.zero_le _

/-- A notification. -/
theorem notify (hh : Heard s h) (hfree : s.locked = false) :
    Heard s.notify (h.notified s.stopping) where
  locked := by
    have hlocks : s.stage.locks = false := hh.locked.symm.trans hfree
    refine hfree.trans ?_
    unfold SignalState.notify
    dsimp only
    split
    · rfl
    · exact hlocks.symm
  observed := hh.observed
  count := by
    have hcount := hh.count
    unfold SignalState.notify SignalHistory.notified
    dsimp only
    omega
  asleep := fun hs => by
    unfold SignalState.notify at hs
    dsimp only at hs
    split at hs
    · cases hs
    · rename_i hawake
      exact absurd hs hawake
  heard := fun hs => by
    refine Nat.succ_le_succ (hh.heard ?_)
    unfold SignalState.notify at hs
    dsimp only at hs
    split at hs
    · rename_i hasleep
      rw [hasleep]
      rfl
    · exact hs
  told := fun ht => by
    have hstop : s.stopping = true := by
      rcases (Bool.or_eq_true _ _).mp ht with htold | hstop
      · exact (hh.told htold).1
      · exact hstop
    refine ⟨hstop, fun hs => ?_, fun hs => ?_⟩
    · unfold SignalState.notify at hs
      dsimp only at hs
      split at hs
      · cases hs
      · have hlocks := hh.locked
        rw [hs, hfree] at hlocks
        cases hlocks
    · unfold SignalState.notify at hs
      dsimp only at hs
      split at hs
      · cases hs
      · rename_i hawake
        exact hawake hs
  fresh := hh.fresh
  begins := fun hs => by
    unfold SignalState.notify at hs
    dsimp only at hs
    split at hs
    · cases hs
    · exact hh.begins hs
  begun := hh.begun

/-- Neither to sleep nor to work. -/
theorem goes {stage : WorkerStage} {b : Bool} (hh : Heard s h) (hlocks : b = stage.locks)
    (hworked : stage.worked = true → s.stage.worked = true) (hplain : stage.plain = true) :
    Heard { s with locked := b, stage := stage } h := by
  refine hh.moves hlocks hworked (fun hs => ?_) (fun hs => ?_)
  · rw [hs] at hplain
    cases hplain
  · rcases hs with hs | hs
    · rw [hs] at hplain
      cases hplain
    · rw [hs] at hplain
      cases hplain

/-- The thread has dropped the manager. -/
theorem dropped {ends : Bool} (hh : Heard s h)
    (hworked : ends = false → s.stage.worked = true) (hfree : s.locked = false) :
    Heard (s.moveTo (SignalState.afterDrop ends)) h := by
  cases ends with
  | true => exact hh.goes hfree (by rintro ⟨⟩) rfl
  | false => exact hh.goes hfree (fun _ => hworked rfl) rfl

theorem stops (hh : Heard s h) : Heard { s with stopping := true } h where
  locked := hh.locked
  observed := hh.observed
  count := hh.count
  asleep := hh.asleep
  heard := hh.heard
  told := fun ht => ⟨rfl, (hh.told ht).2⟩
  fresh := by rintro ⟨⟩
  begins := hh.begins
  begun := hh.begun

/-- A step of the thread. -/
theorem work {elapsed : Bool} (hh : Heard s h) (hs : s.work elapsed = some s') :
    Heard s' (recordSignal h s (.work elapsed) s') := by
  have hlocks := hh.locked
  unfold recordSignal
  unfold SignalState.work at hs
  cases hstage : s.stage with
  | upgrade =>
      rw [hstage] at hs hlocks
      cases hs
      cases s.users with
      | true => exact hh.goes hlocks (by rintro ⟨⟩) rfl
      | false => exact hh.goes hlocks (by rintro ⟨⟩) rfl
  | running =>
      rw [hstage] at hs hlocks
      cases hs
      cases hstop : s.stopping with
      | true => exact hh.goes hlocks (by rintro ⟨⟩) rfl
      | false => exact hh.moves hlocks (by rintro ⟨⟩) (by rintro ⟨⟩) (fun _ => hstop)
  | begins =>
      rw [hstage] at hs
      cases hs
      exact hh.works hstage
  | works =>
      rw [hstage] at hs hlocks
      cases hs
      exact hh.goes hlocks (fun _ => by rw [hstage]; rfl) rfl
  | release ends =>
      rw [hstage] at hs hlocks
      cases hs
      have hworked : ends = false → s.stage.worked = true := by
        rintro rfl
        rw [hstage]
        rfl
      cases s.users with
      | true => exact hh.dropped hworked hlocks
      | false => exact hh.goes hlocks (fun he => hworked (by simpa [WorkerStage.worked] using he)) rfl
  | dropStop ends =>
      rw [hstage] at hs hlocks
      cases hs
      refine hh.stops.goes hlocks (fun he => ?_) rfl
      rw [hstage]
      exact he
  | dropNotify ends =>
      rw [hstage] at hs
      dsimp only at hs
      split at hs
      · cases hs
      · rename_i hlocked
        cases hs
        have hfree : s.locked = false := Bool.eq_false_iff.mpr hlocked
        refine (hh.notify hfree).dropped ?_ hfree
        rintro rfl
        unfold SignalState.notify
        rw [hstage]
        rfl
  | stop =>
      rw [hstage] at hs hlocks
      cases hs
      cases s.stopping with
      | true => exact hh.goes hlocks (by rintro ⟨⟩) rfl
      | false => exact hh.goes hlocks (fun _ => by rw [hstage]; rfl) rfl
  | lock =>
      rw [hstage] at hs
      rcases Option.ite_none_left_eq_some.mp hs with ⟨-, hs⟩
      cases hs
      exact hh.goes rfl (fun _ => by rw [hstage]; rfl) rfl
  | recheck =>
      rw [hstage] at hs hlocks
      cases hs
      cases s.stopping with
      | true => exact hh.goes rfl (by rintro ⟨⟩) rfl
      | false => exact hh.goes hlocks (fun _ => by rw [hstage]; rfl) rfl
  | compare =>
      rw [hstage] at hs hlocks
      cases hs
      dsimp only
      split
      · exact hh.goes hlocks (fun _ => by rw [hstage]; rfl) rfl
      · exact hh.observes rfl (.inl rfl)
  | condition =>
      rw [hstage] at hs hlocks
      cases hs
      have hworked : s.stage.worked = true := by
        rw [hstage]
        rfl
      cases hstop : s.stopping with
      | true => exact hh.goes hlocks (fun _ => hworked) rfl
      | false => exact hh.moves hlocks (fun _ => hworked) (by rintro ⟨⟩) (fun _ => hstop)
  | same =>
      rw [hstage] at hs hlocks
      cases hs
      have hworked : s.stage.worked = true := by
        rw [hstage]
        rfl
      dsimp only
      split
      · rename_i hsame
        refine hh.moves rfl (fun _ => hworked) (fun _ => ⟨hstage, hsame.1⟩) ?_
        rintro (⟨⟨⟩⟩ | ⟨⟨⟩⟩)
      · exact hh.goes hlocks (fun _ => hworked) rfl
  | asleep =>
      rw [hstage] at hs
      cases hs
  | woken =>
      rw [hstage] at hs
      rcases Option.ite_none_left_eq_some.mp hs with ⟨-, hs⟩
      cases hs
      exact hh.goes rfl (fun _ => by rw [hstage]; rfl) rfl
  | observe =>
      rw [hstage] at hs hlocks
      cases hs
      exact hh.observes hlocks (.inr rfl)
  | answer =>
      rw [hstage] at hs
      cases hs
      cases s.stopping with
      | true => exact hh.goes rfl (by rintro ⟨⟩) rfl
      | false => exact hh.goes rfl (by rintro ⟨⟩) rfl
  | done =>
      rw [hstage] at hs
      cases hs

/-- Every step keeps the invariant. -/
theorem next {m : SignalMove} (hh : Heard s h) (hs : signalSystem.next s m = some s') :
    Heard s' (recordSignal h s m s') := by
  cases m with
  | work elapsed => exact hh.work hs
  | wake =>
      rcases Option.ite_none_right_eq_some.mp hs with ⟨hasleep, hs⟩
      cases hs
      have hlocks := hh.locked
      rw [hasleep] at hlocks
      exact hh.goes hlocks (fun _ => by rw [hasleep]; rfl) rfl
  | notify =>
      rcases Option.ite_none_left_eq_some.mp hs with ⟨hlocked, hs⟩
      cases hs
      exact hh.notify (Bool.eq_false_iff.mpr hlocked)
  | stop =>
      cases hs
      exact hh.stops
  | leave =>
      cases hs
      exact ⟨hh.locked, hh.observed, hh.count, hh.asleep, hh.heard, hh.told, hh.fresh, hh.begins,
        hh.begun⟩

theorem initial {stage : WorkerStage} (hlocks : stage.locks = false) :
    Heard (.initial stage) ⟨0, 0, false, 0⟩ where
  locked := hlocks.symm
  observed := Nat.two_pow_pos 64
  count := rfl
  asleep := fun _ => rfl
  heard := fun _ => Nat.le_refl _
  told := by rintro ⟨⟩
  fresh := fun _ => rfl
  begins := fun _ => rfl
  begun := Nat.zero_le _

end Heard

theorem heard_reachable {x : SignalState × SignalHistory} (hr : Reachable signalHistory x) :
    Heard x.1 x.2 := by
  refine history_invariant (M := signalSystem) (P := fun _ _ => True) (J := Heard) ?_
    (fun s h l s' _ hh _ hs => hh.next hs) hr
  rintro s (rfl | rfl)
  · exact Heard.initial rfl
  · exact Heard.initial rfl

/-- A thread that sleeps has observed the generation, and has worked since the
    last notification; unless the generation went all the way around. -/
theorem worker_hears {x : SignalState × SignalHistory} (hr : Reachable signalHistory x)
    (hasleep : x.1.stage = .asleep) :
    x.1.generation = x.1.observed ∧ x.2.told = false ∧
      (x.2.unheard = 0 ∨ ∃ n, 0 < n ∧ x.2.since = n * 2 ^ 64) := by
  have hh := heard_reachable hr
  have hsame := hh.asleep hasleep
  refine ⟨hsame, ?_, ?_⟩
  · by_contra htold
    rw [Bool.not_eq_false] at htold
    exact (hh.told htold).2.2 hasleep
  · have hworked : x.1.stage.worked = true := by
      rw [hasleep]
      rfl
    have hle := hh.heard hworked
    have hcount := hh.count
    have hlt := hh.observed
    rw [hsame] at hcount
    have hround : 2 ^ 64 ∣ x.2.since := by omega
    rcases hround with ⟨n, hn⟩
    rcases Nat.eq_zero_or_pos n with rfl | hpos
    · left
      omega
    · exact .inr ⟨n, hpos, hn.trans (Nat.mul_comm _ _)⟩

/-- The cooler is notified while it works, works again, and sleeps. -/
def notifiedAtWork : List SignalMove :=
  List.replicate 3 (.work false) ++ .notify :: List.replicate 17 (.work false)

theorem notifiedAtWork_runs : ∃ x, Reachable signalHistory x ∧ x.1.stage = .asleep ∧
    x.1.generation = 1 := by
  have hrun : (exec signalHistory (.initial .upgrade, ⟨0, 0, false, 0⟩) notifiedAtWork).map
      (fun x => (x.1.stage, x.1.generation)) = some (.asleep, 1) := by decide
  rcases Option.map_eq_some_iff.mp hrun with ⟨x, hx, hsees⟩
  rcases Prod.mk.inj hsees with ⟨hasleep, hgeneration⟩
  exact ⟨x, reachable_exec _ _ _ (.init ⟨.inl rfl, rfl⟩) hx, hasleep, hgeneration⟩

/-- It has observed the notification. -/
theorem worker_hears_atWork : ∃ x, Reachable signalHistory x ∧ x.1.stage = .asleep ∧
    x.1.observed = 1 := by
  rcases notifiedAtWork_runs with ⟨x, hr, hasleep, hgeneration⟩
  exact ⟨x, hr, hasleep, (worker_hears hr hasleep).1.symm.trans hgeneration⟩

/-! ### The end of the thread -/

/-- How many steps a thread that has been told to stop has left. -/
def WorkerStage.left : WorkerStage → Nat
  | .begins | .compare => 6
  | .upgrade | .works => 5
  | .running | .release false | .woken => 4
  | .release true | .dropStop false | .condition => 3
  | .dropStop true | .dropNotify false | .lock | .observe => 2
  | .dropNotify true | .stop | .recheck | .answer => 1
  | .same | .asleep | .done => 0

def SignalMove.isWork : SignalMove → Bool
  | .work _ => true
  | _ => false

theorem left_le (stage : WorkerStage) : stage.left ≤ 6 := by
  cases stage with
  | release ends | dropStop ends | dropNotify ends => cases ends <;> decide
  | _ => decide

theorem left_afterDrop (ends : Bool) : (SignalState.afterDrop ends).left ≤ 1 := by
  cases ends <;> decide

/-- A thread that has been told to stop gets nearer to its end with every
    step. -/
theorem left_work {s s' : SignalState} {elapsed : Bool} (hstop : s.stopping = true)
    (hs : s.work elapsed = some s') (hsame : s.stage ≠ .same) :
    s'.stage.left < s.stage.left := by
  unfold SignalState.work at hs
  cases hstage : s.stage with
  | upgrade =>
      rw [hstage] at hs
      cases hs
      cases s.users <;> exact Nat.le_of_ble_eq_true rfl
  | release ends =>
      rw [hstage] at hs
      cases hs
      cases s.users with
      | true =>
          refine Nat.lt_of_le_of_lt (left_afterDrop ends) ?_
          cases ends <;> exact Nat.le_of_ble_eq_true rfl
      | false => cases ends <;> exact Nat.le_of_ble_eq_true rfl
  | dropStop ends =>
      rw [hstage] at hs
      cases hs
      cases ends <;> exact Nat.le_of_ble_eq_true rfl
  | dropNotify ends =>
      rw [hstage] at hs
      rcases Option.ite_none_left_eq_some.mp hs with ⟨-, hs⟩
      cases hs
      cases ends <;> exact Nat.le_of_ble_eq_true rfl
  | same => exact absurd hstage hsame
  | compare =>
      rw [hstage] at hs
      cases hs
      split <;> exact Nat.le_of_ble_eq_true rfl
  | lock | woken =>
      rw [hstage] at hs
      rcases Option.ite_none_left_eq_some.mp hs with ⟨-, hs⟩
      cases hs
      exact Nat.le_of_ble_eq_true rfl
  | asleep | done =>
      rw [hstage] at hs
      cases hs
  | _ =>
      -- where the thread looks, it sees that the manager stops
      rw [hstage] at hs
      simp only [hstop, if_true] at hs
      cases hs
      exact Nat.le_of_ble_eq_true rfl

/-- Nobody keeps the mutex, so only a sleeper cannot move. -/
theorem Heard.moves_on {s : SignalState} {h : SignalHistory} (hh : Heard s h)
    (hawake : s.stage ≠ .asleep) : s.stage = .done ∨ ∃ s', s.work true = some s' := by
  have hlocks := hh.locked
  unfold SignalState.work
  cases hstage : s.stage with
  | asleep => exact absurd hstage hawake
  | done => exact .inl rfl
  | dropNotify ends =>
      rw [hstage] at hlocks
      exact .inr ⟨_, if_neg (by rw [hlocks]; exact Bool.false_ne_true)⟩
  | lock | woken =>
      rw [hstage] at hlocks
      exact .inr ⟨_, if_neg (by rw [hlocks]; exact Bool.false_ne_true)⟩
  | _ => exact .inr ⟨_, rfl⟩

theorem told_next {x y : SignalState × SignalHistory} {m : SignalMove} (htold : x.2.told = true)
    (hs : signalHistory.next x m = some y) : y.2.told = true := by
  rw [(withHistory_next hs).2]
  unfold recordSignal SignalHistory.notified
  split
  · exact (Bool.or_eq_true _ _).mpr (.inl htold)
  · split
    · exact htold
    · exact (Bool.or_eq_true _ _).mpr (.inl htold)
    · split <;> exact htold
    · exact htold
    · exact htold
  · exact htold

/-- One move after the thread has been told. -/
theorem left_next {x y : SignalState × SignalHistory} {m : SignalMove}
    (hr : Reachable signalHistory x) (htold : x.2.told = true)
    (hs : signalHistory.next x m = some y) :
    (if m.isWork then 1 else 0) + y.1.stage.left ≤ x.1.stage.left := by
  have hh := heard_reachable hr
  rcases hh.told htold with ⟨hstop, hsame, hawake⟩
  have hnext := (withHistory_next hs).1
  cases m with
  | work elapsed =>
      have hlt := left_work hstop hnext hsame
      rw [show SignalMove.isWork (.work elapsed) = true from rfl, if_pos rfl, Nat.add_comm]
      exact hlt
  | wake =>
      rcases Option.ite_none_right_eq_some.mp hnext with ⟨hasleep, -⟩
      exact absurd hasleep hawake
  | notify =>
      rcases Option.ite_none_left_eq_some.mp hnext with ⟨-, hnext⟩
      rw [← Option.some.inj hnext]
      unfold SignalState.notify
      dsimp only
      rw [if_neg hawake]
      exact Nat.le_of_eq (Nat.zero_add _)
  | stop =>
      rw [← Option.some.inj hnext]
      exact Nat.le_of_eq (Nat.zero_add _)
  | leave =>
      rw [← Option.some.inj hnext]
      exact Nat.le_of_eq (Nat.zero_add _)

theorem left_run (ls : List SignalMove) {x y : SignalState × SignalHistory}
    (hr : Reachable signalHistory x) (htold : x.2.told = true)
    (hrun : exec signalHistory x ls = some y) :
    ls.countP SignalMove.isWork + y.1.stage.left ≤ x.1.stage.left ∧ y.2.told = true ∧
      Reachable signalHistory y := by
  induction ls generalizing x with
  | nil =>
      cases hrun
      exact ⟨Nat.le_of_eq (Nat.zero_add _), htold, hr⟩
  | cons m ls ih =>
      rw [exec] at hrun
      split at hrun
      · cases hrun
      · rename_i x1 hnext
        rcases ih (hr.next hnext) (told_next htold hnext) hrun with ⟨hle, hrest⟩
        refine ⟨?_, hrest⟩
        have hone := left_next hr htold hnext
        rw [List.countP_cons]
        omega

/-- After the manager has been stopped and the thread notified, the thread
    never sleeps again and has at most six steps left, whatever else happens;
    and at most one piece of work has begun since the manager was stopped. -/
theorem worker_ends {x y : SignalState × SignalHistory} {ls : List SignalMove}
    (hr : Reachable signalHistory x) (htold : x.2.told = true)
    (hrun : exec signalHistory x ls = some y) :
    ls.countP SignalMove.isWork ≤ 6 ∧ y.2.begun ≤ 1 ∧
      (y.1.stage = .done ∨ ∃ z, signalHistory.next y (.work true) = some z) := by
  rcases left_run ls hr htold hrun with ⟨hle, htold', hr'⟩
  have hh := heard_reachable hr'
  refine ⟨?_, hh.begun, ?_⟩
  · have hsix := left_le x.1.stage
    omega
  · refine (hh.moves_on (hh.told htold').2.2).imp_right ?_
    rintro ⟨s', hs'⟩
    exact ⟨_, Option.map_eq_some_iff.mpr ⟨s', hs', rfl⟩⟩

/-- The thread is stopped in its sleep. -/
theorem worker_ends_asleep : ∃ x y ls, Reachable signalHistory x ∧ x.2.told = true ∧
    exec signalHistory x ls = some y ∧ y.1.stage = .done ∧ ls.countP SignalMove.isWork ≤ 6 := by
  have hrun : ((exec signalHistory (.initial .upgrade, ⟨0, 0, false, 0⟩)
      (notifiedAtWork ++ [.stop, .notify])).bind (fun x =>
        (exec signalHistory x (List.replicate 4 (.work false))).map (fun y =>
          (x.2.told, y.1.stage)))) = some (true, .done) := by decide
  rcases Option.bind_eq_some_iff.mp hrun with ⟨x, hx, hrest⟩
  rcases Option.map_eq_some_iff.mp hrest with ⟨y, hy, hsees⟩
  rcases Prod.mk.inj hsees with ⟨htold, hdone⟩
  have hr : Reachable signalHistory x := reachable_exec _ _ _ (.init ⟨.inl rfl, rfl⟩) hx
  exact ⟨x, y, _, hr, htold, hy, hdone, (worker_ends hr htold hy).1⟩

end TierBuf
