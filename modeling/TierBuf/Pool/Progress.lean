import TierBuf.Pool.Residency
import TierBuf.Pool.Waiters

/-!
# Progress

Why no set of calls waits on itself.

An agent can only be held up at a few program points, and there it needs one
thing: a latch, the last pin or reservation to leave a frame, the outcome of a
fault or the end of the one before, the operation gate, the workers or the
shutdown lock. Every such thing is kept by other agents, and the keepers never
need a thing of the same rank: a latch is only held by agents that need
nothing, a frame is kept out of reach only by agents that need no more than a
latch, and so on up to the shutdown lock. A chain of waiting therefore goes
down in rank and ends at an agent that can move.

A call that spins is not waiting here. It moves, if only in a circle.

## Main definitions

* `Need`, `Pc.needs`: What an agent can be held up for.
* `Need.Met`, `Need.KeptBy`: When it is to be had, and who keeps it.
* `WaitsFor`: One agent is held up for something another one keeps.
* `CanMove`: An agent has a step that leads it on.

## Theorems

* `moves_of_met`: An agent that has what it needs can move.
* `kept_of_unmet`: What an agent is held up for is kept by an agent of lower rank.
* `waits_end_in_mover`: Every call can move or waits, through some chain, for
  one that can.
-/

namespace TierBuf

open Function Ledger Transition

variable {cfg : Config} {sh : Shared} {s : PoolState} {c : Choice} {a b : Agent} {pc pc' : Pc}

/-! ### Needs -/

inductive Need where
  | latch (i : Nat) (exclusive : Bool)
  /-- Frame `i` without a pin and without a reservation. -/
  | reservation (i : Nat)
  /-- The outcome of generation `g`. -/
  | outcome (p : PageId) (g : Nat)
  /-- The end of the generation that has completed. -/
  | turn (p : PageId)
  | workers
  | writeGate
  | readGate
  | shutdownLock
  deriving DecidableEq

/-- What an agent can be held up for. -/
def Pc.needs : Pc → Option Need
  | .enter _ .gate => some .readGate
  | .fix k (.latch i) => some (.latch i k.mode.isExclusive)
  | .fault k .enter => some (.turn k.pid)
  | .fault k (.wait g) => some (.outcome k.pid g)
  | .acquire _ (.claim i) => some (.reservation i)
  | .evict _ t (.lock _) | .evict _ t (.clear _ .lock) => some (.latch t.frameIndex true)
  | .fill f .lock | .fill f .installLock | .fill f .latch | .fill f (.failClear .lock) =>
    some (.latch f.index true)
  | .shutdown .join => some .workers
  | .shutdown .gate => some .writeGate
  | .shutdown .lock => some .shutdownLock
  | _ => none

/-- The need can be met at once. -/
def Need.Met (sh : Shared) : Need → Prop
  | .latch i exclusive => (sh.latch i).lock exclusive ≠ none
  | .reservation i => tryClaimEviction (sh.pinControl i) ≠ none
  | .outcome p g => ((sh.faults p).replay g).1 ≠ .notYet
  | .turn p => (sh.faults p).enter.1 ≠ .deferred
  | .workers => sh.workers = 0
  | .writeGate => sh.operationGate = .shared 0
  | .readGate => sh.operationGate ≠ .exclusive
  | .shutdownLock => sh.shutdownLock = false

/-- An agent that has taken the shutdown lock. -/
def Pc.closes : Pc → Bool
  | .shutdown .lock => false
  | .shutdown _ | .evict (.flush _) _ _ => true
  | _ => false

/-- The agent keeps what is needed. -/
def Need.KeptBy (cfg : Config) (pc : Pc) : Need → Prop
  | .latch i _ => (pc.role cfg).tenure.shared = some i ∨ (pc.role cfg).tenure.exclusive = some i
  | .reservation i => (pc.role cfg).tenure.pin = some i ∨ (pc.role cfg).tenure.reservation = some i
  | .outcome p g => pc.leads = some (p, g)
  | .turn p => ∃ g, pc.awaits = some (p, g)
  | .workers => (pc.role cfg).post.background = some ()
  | .writeGate => (pc.role cfg).post.gate = some () ∨ (pc.role cfg).post.writeGate = some ()
  | .readGate => (pc.role cfg).post.writeGate = some ()
  | .shutdownLock => pc.closes = true

/-- Keepers need things of lower rank only. -/
def Need.rank : Need → Nat
  | .latch _ _ => 1
  | .reservation _ => 2
  | .outcome _ _ => 3
  | .turn _ => 4
  | .workers => 5
  | .writeGate => 6
  | .readGate => 6
  | .shutdownLock => 7

def Pc.rank (pc : Pc) : Nat := (pc.needs.map Need.rank).getD 0

/-- An agent that is in no call: it has not started or has ended, or it is a
    task that no worker has received. -/
def Pc.resting : Pc → Bool
  | .idle | .returned _ | .panicked _ | .stuck _ | .task _ .queued => true
  | _ => false

/-- Agent `a` is held up for something that agent `b` keeps. -/
def WaitsFor (cfg : Config) (s : PoolState) (a b : Agent) : Prop :=
  ∃ n, (s.pcs a).needs = some n ∧ ¬ n.Met s.shared ∧ n.KeptBy cfg (s.pcs b)

/-- Agent `a` has a step that takes it to another program point. -/
def CanMove (cfg : Config) (s : PoolState) (a : Agent) : Prop :=
  ∃ c s', (pool cfg).next s (a, c) = some s' ∧ s'.pcs a ≠ s.pcs a

/-! ### Moving -/

/-- The step leads to another program point. -/
def Moves (pc : Pc) (o : Stepped) : Prop :=
  ∃ r, o = some r ∧ r.2 ≠ pc

namespace Moves

theorem some (h : pc' ≠ pc) : Moves pc (some (sh, pc')) :=
  ⟨_, rfl, h⟩

variable {i : Nat} {exclusive : Bool}

theorem lockLatch (hmet : (Need.latch i exclusive).Met sh) (h : pc' ≠ pc) :
    Moves pc (sh.lockLatch i exclusive pc') := by
  unfold Shared.lockLatch
  cases hl : (sh.latch i).lock exclusive with
  | some l => exact some h
  | none => exact absurd hl hmet

theorem unlatch (h : pc' ≠ pc) (hp : ∀ site, .panicked site ≠ pc) :
    Moves pc (sh.unlatch i exclusive pc') := by
  unfold Shared.unlatch
  split
  · exact some h
  · exact some (hp _)

theorem unpin (h : pc' ≠ pc) (hp : ∀ site, .panicked site ≠ pc) : Moves pc (sh.unpin i pc') := by
  unfold Shared.unpin
  split
  · exact some h
  · exact some (hp _)

theorem releaseReservation (h : pc' ≠ pc) (hp : ∀ site, .panicked site ≠ pc) :
    Moves pc (sh.releaseReservation i pc') := by
  unfold Shared.releaseReservation
  split
  · exact some h
  · exact some (hp _)

theorem leaveQueue (h : pc' ≠ pc) (hp : ∀ site, .panicked site ≠ pc) :
    Moves pc (sh.leaveQueue i pc') := by
  unfold Shared.leaveQueue
  split
  · exact some h
  · exact some (hp _)

theorem enterQueue (h : pc' ≠ pc) (hp : ∀ site, .panicked site ≠ pc) :
    Moves pc (sh.enterQueue cfg i pc') := by
  unfold Shared.enterQueue
  split
  · exact some (hp _)
  · exact some h

theorem pushFree (h : pc' ≠ pc) (hp : ∀ site, .panicked site ≠ pc) :
    Moves pc (sh.pushFree cfg i pc') := by
  unfold Shared.pushFree
  split
  · exact some h
  · exact some (hp _)

theorem popFree {found : Nat → Pc} (hfound : ∀ i, found i ≠ pc) (hempty : pc' ≠ pc) :
    Moves pc (sh.popFree found pc') := by
  unfold Shared.popFree
  split
  · exact some (hfound _)
  · exact some hempty

theorem stepClear {back : ClearStage → Pc} {e : ClearStage}
    (hmet : e = .lock → (Need.latch i true).Met sh) (hback : ∀ e', e' ≠ e → back e' ≠ pc)
    (h : pc' ≠ pc) (hp : ∀ site, .panicked site ≠ pc) : Moves pc (sh.stepClear i back pc' e) := by
  cases e with
  | check =>
      dsimp only [Shared.stepClear]
      split
      · exact some (hback _ (fun h => by cases h))
      · exact some (hp _)
  | lock => exact lockLatch (hmet rfl) (hback _ (fun h => by cases h))
  | unlock => exact unlatch h hp
  | _ => exact some (hback _ (fun h => by cases h))

theorem stepExact {t : CoolingTicket} {back : ExactStage → Pc} {fails : Pc} {found : SwipId → Pc}
    {e : ExactStage} (hback : ∀ e', e' ≠ e → back e' ≠ pc) (hfails : fails ≠ pc)
    (hfound : ∀ s, found s ≠ pc) : Moves pc (sh.stepExact cfg t back fails found e) := by
  cases e <;> dsimp only [Shared.stepExact] <;> split <;> first
    | exact some hfails
    | exact some (hfound _)
    | exact some (hback _ (fun h => by cases h))

end Moves

theorem moves_stepEnter {op : Operation} {st : EnterStage}
    (hproper : op = .allocate → st ≠ .validate ∧ st ≠ .reject)
    (hmet : ∀ n, (Pc.enter op st).needs = some n → n.Met sh) :
    Moves (.enter op st) (sh.stepEnter cfg op st) := by
  cases st with
  | gate =>
      dsimp only [Shared.stepEnter]
      split
      · exact .some (fun h => by cases h)
      · rename_i hgate
        exact absurd hgate (hmet _ rfl)
  | validate =>
      cases op with
      | allocate => exact absurd rfl (hproper rfl).1
      | fix w mode =>
          dsimp only [Shared.stepEnter]
          split <;> exact .some (fun h => by cases h)
  | reject =>
      cases op with
      | allocate => exact absurd rfl (hproper rfl).2
      | fix w mode =>
          dsimp only [Shared.stepEnter]
          split <;> exact .some (fun h => by cases h)
  | running =>
      dsimp only [Shared.stepEnter]
      split <;> exact .some (fun h => by cases h)
  | recheck =>
      dsimp only [Shared.stepEnter]
      (repeat' split) <;> exact .some (fun h => by cases h)

theorem moves_stepFix {k : FixCtx} {st : FixStage}
    (hmet : ∀ n, (Pc.fix k st).needs = some n → n.Met sh) :
    Moves (.fix k st) (sh.stepFix cfg c k st) := by
  cases st with
  | latch i => exact .lockLatch (hmet _ rfl) (fun h => by cases h)
  | unlatch i => exact .unlatch (fun h => by cases h) (fun _ h => by cases h)
  | unpin i => exact .unpin (fun h => by cases h) (fun _ h => by cases h)
  | _ =>
      dsimp only [Shared.stepFix]
      (repeat' split) <;> exact .some (fun h => by cases h)

theorem FaultCtx.return_ne {k k' : FaultCtx} {r : FaultResult} {st : FaultStage} :
    k.return r ≠ .fault k' st := by
  unfold FaultCtx.return
  (repeat' split) <;> exact fun h => by cases h

theorem moves_stepFault {k : FaultCtx} {st : FaultStage}
    (hproper : ∀ t g loc, k = .prefetch t → st ≠ .leadCount g loc)
    (hmet : ∀ n, (Pc.fault k st).needs = some n → n.Met sh) :
    Moves (.fault k st) (sh.stepFault cfg k st) := by
  cases st with
  | running =>
      dsimp only [Shared.stepFault]
      split
      · exact .some FaultCtx.return_ne
      · exact .some (fun h => by cases h)
  | lookup =>
      dsimp only [Shared.stepFault]
      (repeat' split) <;> first
        | exact .some FaultCtx.return_ne
        | exact .some (fun h => by cases h)
  | enter =>
      dsimp only [Shared.stepFault]
      have hturn : (sh.faults k.pid).enter.1 ≠ .deferred := hmet _ rfl
      split
      · exact .some (fun h => by cases h)
      · rename_i heq
        rw [heq] at hturn
        exact absurd rfl hturn
      · exact .some (fun h => by cases h)
  | wait g =>
      dsimp only [Shared.stepFault]
      have houtcome : ((sh.faults k.pid).replay g).1 ≠ .notYet := hmet _ rfl
      split
      · rename_i heq
        rw [heq] at houtcome
        exact absurd rfl houtcome
      · exact .some FaultCtx.return_ne
      · exact .some (fun h => by cases h)
  | leadCount g loc =>
      cases k with
      | demand k => exact .some (fun h => by cases h)
      | prefetch t => exact absurd rfl (hproper t g loc rfl)
  | finish g r => exact .some FaultCtx.return_ne
  | _ =>
      dsimp only [Shared.stepFault]
      (repeat' split) <;> exact .some (fun h => by cases h)

theorem AcquireCtx.failed_ne {w w' : AcquireCtx} {e : TierBufError} {st : AcquireStage} :
    w.failed e ≠ .acquire w' st := by
  cases w <;> exact fun h => by cases h

theorem AcquireCtx.acquired_ne {w w' : AcquireCtx} {i : Nat} {st : AcquireStage} :
    w.acquired i ≠ .acquire w' st := by
  cases w <;> exact fun h => by cases h

theorem moves_stepAcquire {w : AcquireCtx} {st : AcquireStage}
    (hmet : ∀ n, (Pc.acquire w st).needs = some n → n.Met sh) :
    Moves (.acquire w st) (sh.stepAcquire cfg w st) := by
  cases st with
  | running =>
      dsimp only [Shared.stepAcquire]
      split
      · exact .some AcquireCtx.failed_ne
      · exact .some (fun h => by cases h)
  | pop => exact .popFree (fun _ h => by cases h) (fun h => by cases h)
  | member i => exact .leaveQueue (fun h => by cases h) (fun _ h => by cases h)
  | claim i =>
      dsimp only [Shared.stepAcquire]
      split
      · exact .some AcquireCtx.acquired_ne
      · rename_i hclaim
        exact absurd hclaim (hmet _ rfl)
  | request => exact .some (fun h => by cases h)
  | round n err =>
      dsimp only [Shared.stepAcquire]
      (repeat' split) <;> first
        | exact .some AcquireCtx.failed_ne
        | exact .some (fun h => by cases h)
  | popRound n err => exact .popFree (fun _ h => by cases h) (fun h => by cases h)
  | attempts n err => exact .some (fun h => by cases h)
  | sweep n err m =>
      dsimp only [Shared.stepAcquire]
      split <;> exact .some (fun h => by cases h)
  | popAfter n err m => exact .popFree (fun _ h => by cases h) (fun h => by cases h)
  | pushBack n err m t => exact .some (fun h => by cases h)

theorem CoolCtx.return_ne {k k' : CoolCtx} {st : CoolStage} : k.return ≠ .cool k' st := by
  cases k <;> exact fun h => by cases h

/-- The cooler takes the first candidate. -/
theorem moves_stepCool {k : CoolCtx} {st : CoolStage} :
    Moves (.cool k st) (sh.stepCool cfg { pick := some 0 } k st) := by
  cases st with
  | room desired =>
      dsimp only [Shared.stepCool]
      split
      · exact .some CoolCtx.return_ne
      · exact .some (fun h => by cases h)
  | sample desired indices candidates =>
      cases indices with
      | nil => exact .some (fun h => by cases h)
      | cons i rest =>
          dsimp only [Shared.stepCool]
          split
          · exact .some (fun h => by cases h)
          · refine .some (fun h => ?_)
            injection h with _ h
            injection h with _ h
            exact List.cons_ne_self i rest h.symm
  | take desired candidates =>
      cases candidates with
      | nil =>
          dsimp only [Shared.stepCool]
          rw [if_pos (.inl rfl)]
          exact .some CoolCtx.return_ne
      | cons i rest =>
          dsimp only [Shared.stepCool]
          split
          · exact .some CoolCtx.return_ne
          · exact .some (fun h => by cases h)
  | _ =>
      dsimp only [Shared.stepCool]
      (repeat' split) <;> exact .some (fun h => by cases h)

theorem EnqueueCtx.return_ne {k k' : EnqueueCtx} {i j : Nat} {p : PageId} {st : EnqueueStage} :
    k.return i ≠ .enqueue k' j p st := by
  cases k <;> exact fun h => by cases h

theorem moves_stepEnqueue {k : EnqueueCtx} {i : Nat} {p : PageId} {st : EnqueueStage} :
    Moves (.enqueue k i p st) (sh.stepEnqueue cfg k i p st) := by
  cases st <;> dsimp only [Shared.stepEnqueue] <;> (repeat' split) <;> first
    | exact .some EnqueueCtx.return_ne
    | exact .some (fun h => by cases h)

theorem EvictCtx.return_ne {k k' : EvictCtx} {t t' : CoolingTicket} {st : EvictStage}
    {r : Except TierBufError EvictionOutcome} : k.return t r ≠ .evict k' t' st := by
  rcases r with e | outcome
  · cases k <;> exact fun h => by cases h
  · cases outcome <;> cases k <;> exact fun h => by cases h

/-- No tier accepts a write. -/
theorem moves_stepEvict {k : EvictCtx} {t : CoolingTicket} {st : EvictStage}
    (hmet : ∀ n, (Pc.evict k t st).needs = some n → n.Met sh)
    (hwritten : ∀ v, st = .refree v → v.new ≠ none) :
    Moves (.evict k t st) (sh.stepEvict cfg { ok := false } k t st) := by
  cases st with
  | exact pass e =>
      cases pass with
      | first =>
          dsimp only [Shared.stepEvict]
          refine .stepExact ?_ EvictCtx.return_ne ?_
          · intro e' he h
            cases h
            exact he rfl
          · intro w' h
            cases h
      | second w =>
          dsimp only [Shared.stepEvict]
          refine .stepExact ?_ (fun h => by cases h) ?_
          · intro e' he h
            cases h
            exact he rfl
          · intro w' h
            split at h <;> cases h
  | claim w =>
      dsimp only [Shared.stepEvict]
      split
      · exact .some (fun h => by cases h)
      · exact .some EvictCtx.return_ne
  | lock w => exact .lockLatch (hmet _ rfl) (fun h => by cases h)
  | refree v =>
      dsimp only [Shared.stepEvict]
      split
      · exact .some (fun h => by cases h)
      · rename_i hnew
        exact absurd hnew (hwritten v rfl)
  | unlatch v => exact .unlatch (fun h => by cases h) (fun _ h => by cases h)
  | clear v e =>
      dsimp only [Shared.stepEvict]
      refine .stepClear ?_ ?_ (fun h => by cases h) (fun _ h => by cases h)
      · rintro rfl
        exact hmet _ rfl
      · intro e' he h
        cases h
        exact he rfl
  | release v => exact .releaseReservation (fun h => by cases h) (fun _ h => by cases h)
  | member v => exact .enterQueue (fun h => by cases h) (fun _ h => by cases h)
  | push v => exact .pushFree (fun h => by cases h) (fun _ h => by cases h)
  | freeOld v =>
      dsimp only [Shared.stepEvict]
      (repeat' split) <;> exact .some EvictCtx.return_ne
  | exitUnlatch r => exact .unlatch (fun h => by cases h) (fun _ h => by cases h)
  | exitRelease r => exact .releaseReservation EvictCtx.return_ne (fun _ h => by cases h)
  | restore v =>
      dsimp only [Shared.stepEvict]
      split
      · refine .some (fun h => ?_)
        split at h <;> cases h
      · exact .some (fun h => by cases h)
  | write v n err => exact .some (fun h => by cases h)
  | _ =>
      dsimp only [Shared.stepEvict]
      (repeat' split) <;> exact .some (fun h => by cases h)

theorem moves_stepFill {f : Filling} {st : FillStage}
    (hproper : st = .unpin → f.ctx.allocates = false)
    (hmet : ∀ n, (Pc.fill f st).needs = some n → n.Met sh) :
    Moves (.fill f st) (sh.stepFill cfg c f st) := by
  cases st with
  | lock => exact .lockLatch (hmet _ rfl) (fun h => by cases h)
  | installLock => exact .lockLatch (hmet _ rfl) (fun h => by cases h)
  | latch => exact .lockLatch (hmet _ rfl) (fun h => by cases h)
  | abort e => exact .unlatch (fun h => by cases h) (fun _ h => by cases h)
  | unlock => exact .unlatch (fun h => by cases h) (fun _ h => by cases h)
  | installUnlock =>
      refine .unlatch (fun h => ?_) (fun _ h => by cases h)
      split at h <;> cases h
  | publish =>
      dsimp only [Shared.stepFill]
      split
      · refine .some (fun h => ?_)
        split at h <;> cases h
      · exact .some (fun h => by cases h)
  | swizzle marker =>
      dsimp only [Shared.stepFill]
      split
      · refine .some (fun h => ?_)
        split at h <;> cases h
      · refine .some (fun h => ?_)
        split at h <;> cases h
  | unpin =>
      rcases f with ⟨k, i⟩
      cases k with
      | allocate p w => cases hproper rfl
      | demand k loc g => exact .unpin (fun h => by cases h) (fun _ h => by cases h)
      | prefetch p w loc g => exact .unpin (fun h => by cases h) (fun _ h => by cases h)
  | failUnpin => exact .unpin (fun h => by cases h) (fun _ h => by cases h)
  | failClear e =>
      dsimp only [Shared.stepFill]
      refine .stepClear ?_ ?_ (fun h => by cases h) (fun _ h => by cases h)
      · rintro rfl
        exact hmet _ rfl
      · intro e' he h
        cases h
        exact he rfl
  | failRelease => exact .releaseReservation (fun h => by cases h) (fun _ h => by cases h)
  | _ =>
      dsimp only [Shared.stepFill]
      (repeat' split) <;> exact .some (fun h => by cases h)

theorem CheckinCtx.return_ne {k k' : CheckinCtx} {i : Nat} {st : CheckinStage} :
    k.return ≠ .checkin k' i st := by
  cases k <;> exact fun h => by cases h

theorem moves_stepCheckin {k : CheckinCtx} {i : Nat} {st : CheckinStage} :
    Moves (.checkin k i st) (sh.stepCheckin cfg k i st) := by
  cases st with
  | release => exact .releaseReservation (fun h => by cases h) (fun _ h => by cases h)
  | member => exact .enterQueue (fun h => by cases h) (fun _ h => by cases h)
  | push => exact .pushFree CheckinCtx.return_ne (fun _ h => by cases h)

/-- A guard can always be dropped. -/
theorem moves_stepGuard {g : Guard} {st : GuardStage} :
    Moves (.guard g st) (sh.stepGuard { act := .drop } g st) := by
  cases st with
  | live => exact .unpin (fun h => by cases h) (fun _ h => by cases h)
  | writing => exact .some (fun h => by cases h)
  | unpinned => exact .unlatch (fun h => by cases h) (fun _ h => by cases h)

theorem moves_stepSubmit {w : SwipId} {p : PageId} {st : SubmitStage} :
    Moves (.submit w p st) (sh.stepSubmit cfg c a w p st) := by
  cases st with
  | pop => exact .popFree (fun _ h => by cases h) (fun h => by cases h)
  | member i => exact .leaveQueue (fun h => by cases h) (fun _ h => by cases h)
  | _ =>
      dsimp only [Shared.stepSubmit]
      (repeat' split) <;> exact .some (fun h => by cases h)

theorem moves_stepTask {t : PrefetchTask} {i : Nat} (h : t.checkout = some i) :
    Moves (.task t .check) (sh.stepTask a t .check) := by
  dsimp only [Shared.stepTask]
  rw [h]
  split <;> exact .some (fun h => by cases h)

theorem moves_stepUnreserve {running : Bool} {p : PageId} {st : UnreserveStage} :
    Moves (.unreserve running p st) (sh.stepUnreserve running p st) := by
  cases st with
  | inFlight =>
      dsimp only [Shared.stepUnreserve]
      split
      · exact .some (fun h => by cases h)
      · refine .some (fun h => ?_)
        split at h <;> cases h
  | _ => exact .some (fun h => by cases h)

theorem moves_stepCooler {st : CoolerStage} : Moves (.cooler st) (sh.stepCooler cfg st) := by
  cases st <;> dsimp only [Shared.stepCooler] <;> (repeat' split) <;>
    exact .some (fun h => by cases h)

theorem moves_stepShutdown {st : ShutdownStage}
    (hmet : ∀ n, (Pc.shutdown st).needs = some n → n.Met sh) :
    Moves (.shutdown st) (sh.stepShutdown cfg c st) := by
  cases st with
  | lock =>
      dsimp only [Shared.stepShutdown]
      have hlock : sh.shutdownLock = false := hmet _ rfl
      rw [hlock]
      exact .some (fun h => by cases h)
  | gate =>
      dsimp only [Shared.stepShutdown]
      have hgate : sh.operationGate = .shared 0 := hmet _ rfl
      rw [hgate]
      exact .some (fun h => by cases h)
  | join =>
      dsimp only [Shared.stepShutdown]
      have hworkers : sh.workers = 0 := hmet _ rfl
      rw [if_pos hworkers]
      exact .some (fun h => by cases h)
  | flush f =>
      -- the pass goes on to another frame, or the last one starts over at the first
      have hnext : Pc.shutdown (.flush f.next) ≠ .shutdown (.flush f) := by
        intro h
        injection h with h
        injection h with h
        exact absurd (congrArg FlushPass.index h) (Nat.succ_ne_self f.index)
      dsimp only [Shared.stepShutdown]
      split
      · split
        · exact .some (fun h => by cases h)
        · exact .some hnext
      · rename_i hend
        split
        · exact .some (fun h => by cases h)
        · split
          · exact .some (fun h => by cases h)
          · refine .some (fun h => hend ?_)
            cases h
            exact cfg.frames_pos
  | _ =>
      dsimp only [Shared.stepShutdown]
      (repeat' split) <;> exact .some (fun h => by cases h)

/-! ### Stages of one kind of caller -/

/-- Whether the caller is of the kind that goes through the stage. -/
def Pc.proper : Pc → Bool
  | .enter .allocate .validate | .enter .allocate .reject => false
  | .fault (.prefetch _) (.leadCount _ _) => false
  | .fill ⟨.allocate _ _, _⟩ .unpin => false
  | _ => true

theorem FaultCtx.return_proper {k : FaultCtx} {r : FaultResult} : (k.return r).proper = true := by
  unfold FaultCtx.return
  (repeat' split) <;> rfl

theorem stepEnter_proper {op : Operation} {st : EnterStage} :
    Goes (fun pc => pc.proper = true) (sh.stepEnter cfg op st) := by
  cases st <;> cases op <;> dsimp only [Shared.stepEnter] <;> (repeat' split) <;> first
    | exact .none
    | exact .some rfl

theorem stepFault_proper {k : FaultCtx} {st : FaultStage} :
    Goes (fun pc => pc.proper = true) (sh.stepFault cfg k st) := by
  cases st <;> cases k <;> dsimp only [Shared.stepFault] <;> (repeat' split) <;> first
    | exact .none
    | exact .some rfl
    | exact .some FaultCtx.return_proper

theorem stepFill_proper {f : Filling} {st : FillStage} :
    Goes (fun pc => pc.proper = true) (sh.stepFill cfg c f st) := by
  rcases f with ⟨k, i⟩
  cases st with
  | failClear e =>
      dsimp only [Shared.stepFill]
      refine .stepClear ?_ ?_ (fun _ => rfl)
      · intro e'
        cases k <;> rfl
      · cases k <;> rfl
  | _ =>
      cases k <;> dsimp only [Shared.stepFill] <;> (repeat' split) <;> first
        | exact .none
        | exact .some rfl
        | exact .lockLatch rfl
        | exact .unlatch rfl (fun _ => rfl)
        | exact .unpin rfl (fun _ => rfl)
        | exact .releaseReservation rfl (fun _ => rfl)

theorem step_proper {sh' : Shared} (hs : sh.step cfg c a pc = some (sh', pc')) :
    pc'.proper = true := by
  have hflow := step_flow hs
  cases hflow with
  | enter => exact stepEnter_proper _ _ hs
  | fault => exact stepFault_proper _ _ hs
  | fill => exact stepFill_proper _ _ hs
  | faultReturn => exact FaultCtx.return_proper
  | acquired => rename_i w _ _; cases w <;> rfl
  | acquireFailed => rename_i w _ _; cases w <;> rfl
  | coolReturn => rename_i k _; cases k <;> rfl
  | enqueueReturn => rename_i k _ _ _; cases k <;> rfl
  | evictReturn =>
      rename_i k _ _ r
      rcases r with e | outcome
      · cases k <;> rfl
      · cases outcome <;> cases k <;> rfl
  | idleEnter => rename_i op; cases op <;> rfl
  | checkinReturn => rename_i k _; cases k <;> rfl
  | _ => rfl

theorem proper_reachable (hr : Reachable (pool cfg) s) (a : Agent) : (s.pcs a).proper = true := by
  refine reachable_invariant (M := pool cfg) (I := fun s => (s.pcs a).proper = true) ?_
    (fun s l s' h hs => ?_) hr
  · rintro s ⟨budgets, rfl⟩
    rfl
  · rcases pool_next hs with ⟨hstep, hothers⟩
    by_cases ha : a = l.1
    · rw [ha]
      exact step_proper hstep
    · rw [hothers a ha]
      exact h

/-! ### The shutdown lock -/

/-- No outcome of a step touches the shutdown lock. -/
def LockKept (sh : Shared) (o : Stepped) : Prop :=
  ∀ sh' pc', o = some (sh', pc') → sh'.shutdownLock = sh.shutdownLock

namespace LockKept

theorem none : LockKept sh none :=
  fun _ _ h => by cases h

theorem some {sh' : Shared} (h : sh'.shutdownLock = sh.shutdownLock) :
    LockKept sh (some (sh', pc)) := by
  intro _ _ ho
  cases ho
  exact h

variable {i : Nat} {exclusive : Bool}

theorem lockLatch : LockKept sh (sh.lockLatch i exclusive pc) := by
  unfold Shared.lockLatch
  split
  · exact some rfl
  · exact none

theorem unlatch : LockKept sh (sh.unlatch i exclusive pc) := by
  unfold Shared.unlatch
  split <;> exact some rfl

theorem unpin : LockKept sh (sh.unpin i pc) := by
  unfold Shared.unpin
  split <;> exact some rfl

theorem releaseReservation : LockKept sh (sh.releaseReservation i pc) := by
  unfold Shared.releaseReservation
  split <;> exact some rfl

theorem leaveQueue : LockKept sh (sh.leaveQueue i pc) := by
  unfold Shared.leaveQueue
  split <;> exact some rfl

theorem enterQueue : LockKept sh (sh.enterQueue cfg i pc) := by
  unfold Shared.enterQueue
  split <;> exact some rfl

theorem pushFree : LockKept sh (sh.pushFree cfg i pc) := by
  unfold Shared.pushFree
  split <;> exact some rfl

theorem popFree {found : Nat → Pc} : LockKept sh (sh.popFree found pc) := by
  unfold Shared.popFree
  split <;> exact some rfl

theorem pushUnique {t : CoolingTicket} : (sh.pushUnique t).shutdownLock = sh.shutdownLock := by
  unfold Shared.pushUnique
  split <;> rfl

theorem acceptWrite {sh' : Shared} {p : PageId} {loc : Location} {page : Page}
    (h : sh.acceptWrite p loc page = Option.some sh') : sh'.shutdownLock = sh.shutdownLock := by
  unfold Shared.acceptWrite at h
  split at h
  · cases h
  · cases h
    rfl

theorem stepClear {back : ClearStage → Pc} {e : ClearStage} :
    LockKept sh (sh.stepClear i back pc e) := by
  cases e with
  | check =>
      dsimp only [Shared.stepClear]
      split <;> exact some rfl
  | lock => exact lockLatch
  | unlock => exact unlatch
  | _ => exact some rfl

theorem stepExact {t : CoolingTicket} {back : ExactStage → Pc} {fails : Pc} {found : SwipId → Pc}
    {e : ExactStage} : LockKept sh (sh.stepExact cfg t back fails found e) := by
  cases e <;> dsimp only [Shared.stepExact] <;> split <;> exact some rfl

theorem step_evict {k : EvictCtx} {t : CoolingTicket} {st : EvictStage} :
    LockKept sh (sh.stepEvict cfg c k t st) := by
  cases st with
  | exact pass e =>
      cases pass <;> dsimp only [Shared.stepEvict] <;> exact stepExact
  | lock w => exact lockLatch
  | write v n err =>
      dsimp only [Shared.stepEvict]
      split
      · split
        · rename_i hwrite
          exact some (acceptWrite hwrite)
        · exact none
      · exact some rfl
  | unlatch v => exact unlatch
  | clear v e =>
      dsimp only [Shared.stepEvict]
      exact stepClear
  | release v => exact releaseReservation
  | member v => exact enterQueue
  | push v => exact pushFree
  | exitUnlatch r => exact unlatch
  | exitRelease r => exact releaseReservation
  | _ =>
      dsimp only [Shared.stepEvict]
      (repeat' split) <;> first
        | exact some rfl
        | exact none

theorem step_fill {f : Filling} {st : FillStage} : LockKept sh (sh.stepFill cfg c f st) := by
  cases st with
  | failClear e =>
      dsimp only [Shared.stepFill]
      exact stepClear
  | _ =>
      dsimp only [Shared.stepFill]
      (repeat' split) <;> first
        | exact some rfl
        | exact none
        | exact lockLatch
        | exact unlatch
        | exact unpin
        | exact releaseReservation

/-- Only the shutdown touches the lock, where it takes and gives it back. -/
theorem step (hlock : pc ≠ .shutdown .lock) (hunlock : ∀ r, pc ≠ .shutdown (.unlock r)) :
    LockKept sh (sh.step cfg c a pc) := by
  cases pc with
  | idle =>
      dsimp only [Shared.step, Shared.stepIdle]
      (repeat' split) <;> first
        | exact some rfl
        | exact none
  | enter op st =>
      cases st <;> cases op <;> dsimp only [Shared.step, Shared.stepEnter] <;>
        (repeat' split) <;> first
        | exact some rfl
        | exact none
  | fix k st =>
      cases st <;> dsimp only [Shared.step, Shared.stepFix] <;> (repeat' split) <;> first
        | exact some rfl
        | exact lockLatch
        | exact unlatch
        | exact unpin
  | fault k st =>
      cases st <;> dsimp only [Shared.step, Shared.stepFault] <;> (repeat' split) <;> first
        | exact some rfl
        | exact none
  | acquire w st =>
      cases st <;> dsimp only [Shared.step, Shared.stepAcquire] <;> (repeat' split) <;> first
        | exact some rfl
        | exact none
        | exact popFree
        | exact leaveQueue
        | exact some pushUnique
  | cool k st =>
      cases st <;> dsimp only [Shared.step, Shared.stepCool] <;> (repeat' split) <;> first
        | exact some rfl
        | exact none
  | enqueue k i p st =>
      cases st <;> dsimp only [Shared.step, Shared.stepEnqueue] <;> (repeat' split) <;> first
        | exact some rfl
        | exact some pushUnique
  | evict k t st => exact step_evict
  | mint i =>
      dsimp only [Shared.step, Shared.stepMint]
      split <;> exact some rfl
  | bind i p =>
      dsimp only [Shared.step, Shared.stepBind]
      split <;> exact some rfl
  | fill f st => exact step_fill
  | checkin k i st =>
      cases st with
      | release => exact releaseReservation
      | member => exact enterQueue
      | push => exact pushFree
  | leave r =>
      dsimp only [Shared.step, Shared.stepLeave]
      split
      · exact some rfl
      · exact none
  | guard g st =>
      cases st with
      | live =>
          dsimp only [Shared.step, Shared.stepGuard]
          (repeat' split) <;> first
            | exact some rfl
            | exact none
            | exact unpin
      | writing => exact some rfl
      | unpinned => exact unlatch
  | submit w p st =>
      cases st <;> dsimp only [Shared.step, Shared.stepSubmit] <;> (repeat' split) <;> first
        | exact some rfl
        | exact popFree
        | exact leaveQueue
  | task t st =>
      cases st <;> dsimp only [Shared.step, Shared.stepTask] <;> (repeat' split) <;> first
        | exact some rfl
        | exact none
  | unreserve running p st =>
      cases st <;> dsimp only [Shared.step, Shared.stepUnreserve] <;> (repeat' split) <;>
        exact some rfl
  | cooler st =>
      cases st <;> dsimp only [Shared.step, Shared.stepCooler] <;> (repeat' split) <;> first
        | exact some rfl
        | exact some pushUnique
  | shutdown st =>
      cases st with
      | lock => exact absurd rfl hlock
      | unlock r => exact absurd rfl (hunlock r)
      | _ =>
          dsimp only [Shared.step, Shared.stepShutdown]
          (repeat' split) <;> first
            | exact some rfl
            | exact none
  | returned r => exact none
  | panicked site => exact none
  | stuck k => exact none

end LockKept

/-- A shutdown keeps the lock through all its evictions. -/
theorem closes_step {sh' : Shared} (hs : sh.step cfg c a pc = some (sh', pc'))
    (hpanic : ∀ site, pc' ≠ .panicked site) (hunlock : ∀ r, pc ≠ .shutdown (.unlock r))
    (h : pc.closes = true) : pc'.closes = true := by
  cases step_flow hs with
  | assertion => exact absurd rfl (hpanic _)
  | shutdown =>
      rename_i st st'
      have hgoes : Goes (fun pc => pc ≠ .shutdown .lock) (sh.stepShutdown cfg c st) := by
        cases st <;> dsimp only [Shared.stepShutdown] <;> (repeat' split) <;> first
          | exact .none
          | exact .some (fun h => by cases h)
      cases st' with
      | lock => exact absurd rfl (hgoes _ _ hs)
      | _ => rfl
  | shutdownEvict => rfl
  | shutdownReturn => exact absurd rfl (hunlock _)
  | evict =>
      rename_i k t st st'
      cases k with
      | flush f => rfl
      | _ => cases h
  | evictReturn =>
      rename_i k t st r
      cases k with
      | flush f =>
          rcases r with e | outcome
          · rfl
          · cases outcome <;> rfl
      | _ => cases h
  | _ => cases h

theorem closes_of_locked (hr : Reachable (pool cfg) s) (h : s.shared.shutdownLock = true) :
    ∃ b, (s.pcs b).closes = true := by
  revert h
  refine reachableVia_invariant (M := pool cfg) (P := fun _ _ => True) (I := fun s =>
    s.shared.shutdownLock = true → ∃ b, (s.pcs b).closes = true) ?_ (fun s l s' hr ih _ hs => ?_) hr
  · rintro s ⟨budgets, rfl⟩ h
    cases h
  · intro h
    have hpanic := never_panicked (Reachable.next hr hs) l.1
    rcases pool_next hs with ⟨hstep, hothers⟩
    by_cases hlock : s.pcs l.1 = .shutdown .lock
    · refine ⟨l.1, ?_⟩
      rw [hlock] at hstep
      dsimp only [Shared.step, Shared.stepShutdown] at hstep
      split at hstep
      · cases hstep
      · have hpc' : Pc.shutdown .stop = s'.pcs l.1 := congrArg Prod.snd (Option.some.inj hstep)
        rw [← hpc']
        rfl
    · by_cases hunlock : ∃ r, s.pcs l.1 = .shutdown (.unlock r)
      · rcases hunlock with ⟨r, hpc⟩
        rw [hpc] at hstep
        have hopen : false = s'.shared.shutdownLock :=
          congrArg (fun r => r.1.shutdownLock) (Option.some.inj hstep)
        rw [← hopen] at h
        cases h
      · have hne : ∀ r, s.pcs l.1 ≠ .shutdown (.unlock r) := fun r hpc => hunlock ⟨r, hpc⟩
        rw [LockKept.step hlock hne _ _ hstep] at h
        rcases ih h with ⟨b, hb⟩
        by_cases hbl : b = l.1
        · exact ⟨l.1, closes_step hstep hpanic hne (hbl ▸ hb)⟩
        · exact ⟨b, by rw [hothers b hbl]; exact hb⟩

/-! ### Keepers -/

/-- An agent in a call that needs nothing of rank `n` or more. -/
def Pc.Below (n : Nat) (pc : Pc) : Prop :=
  pc.resting = false ∧ ∀ m, pc.needs = some m → m.rank < n

namespace Pc.Below

variable {n m : Nat}

theorem free (hr : pc.resting = false) (h : pc.needs = none) : pc.Below n :=
  ⟨hr, fun m hm => by rw [h] at hm; cases hm⟩

theorem need {m : Need} (hr : pc.resting = false) (h : pc.needs = some m) (hm : m.rank < n) :
    pc.Below n := by
  refine ⟨hr, fun m' hm' => ?_⟩
  rw [h] at hm'
  rwa [← Option.some.inj hm']

theorem rank_lt {d : Need} (h : pc.Below d.rank) : pc.rank < d.rank := by
  unfold Pc.rank
  cases hn : pc.needs with
  | some e => exact h.2 e hn
  | none => cases d <;> exact Nat.succ_pos _

theorem mono (h : pc.Below m) (hle : m ≤ n) : pc.Below n :=
  ⟨h.1, fun d hd => Nat.lt_of_lt_of_le (h.2 d hd) hle⟩

end Pc.Below

theorem evict_below {k : EvictCtx} {t : CoolingTicket} {st : EvictStage} :
    (Pc.evict k t st).Below 2 := by
  cases st with
  | lock w => exact .need rfl rfl Nat.one_lt_two
  | clear v e => cases e <;> first
      | exact .free rfl rfl
      | exact .need rfl rfl Nat.one_lt_two
  | _ => exact .free rfl rfl

theorem fill_below {f : Filling} {st : FillStage} : (Pc.fill f st).Below 2 := by
  cases st with
  | lock | installLock | latch => exact .need rfl rfl Nat.one_lt_two
  | failClear e => cases e <;> first
      | exact .free rfl rfl
      | exact .need rfl rfl Nat.one_lt_two
  | _ => exact .free rfl rfl

theorem acquire_below {w : AcquireCtx} {st : AcquireStage} : (Pc.acquire w st).Below 3 := by
  cases st with
  | claim i => exact .need rfl rfl (Nat.lt_succ_self 2)
  | _ => exact .free rfl rfl

/-- Only the gate and the shutdown are above the faults. -/
theorem below_five (hr : pc.resting = false) (hgate : ∀ op, pc ≠ .enter op .gate)
    (hshutdown : ∀ st, pc ≠ .shutdown st) : pc.Below 5 := by
  cases pc with
  | enter op st =>
      cases st with
      | gate => exact absurd rfl (hgate op)
      | _ => exact .free rfl rfl
  | fix k st =>
      cases st with
      | latch i => exact .need rfl rfl (Nat.lt_add_of_pos_right (Nat.succ_pos 3))
      | _ => exact .free rfl rfl
  | fault k st =>
      cases st with
      | enter => exact .need rfl rfl (Nat.lt_succ_self 4)
      | wait g => exact .need rfl rfl (Nat.lt_add_of_pos_right (Nat.succ_pos 1))
      | _ => exact .free rfl rfl
  | acquire w st => exact acquire_below.mono (by decide)
  | evict k t st => exact evict_below.mono (by decide)
  | fill f st => exact fill_below.mono (by decide)
  | shutdown st => exact absurd rfl (hshutdown st)
  | task t st =>
      cases st with
      | queued => cases hr
      | check => exact .free rfl rfl
  | idle | returned | panicked | stuck => cases hr
  | _ => exact .free rfl rfl

/-- A latch is held by agents that need nothing. -/
theorem below_of_latched {i : Nat} (h : (Need.latch i false).KeptBy cfg pc) : pc.Below 1 := by
  cases pc with
  | enter op st => cases st <;> (rcases h with h | h <;> cases h)
  | fix k st => cases st <;> first
      | exact .free rfl rfl
      | (rcases h with h | h <;> cases h)
  | fault k st =>
      rcases k with k | ⟨p, w, checkout⟩
      · cases st <;> (rcases h with h | h <;> cases h)
      · cases checkout <;> cases st <;> (rcases h with h | h <;> cases h)
  | acquire w st => cases st <;> (rcases h with h | h <;> cases h)
  | evict k t st =>
      cases st with
      | clear v e => cases e <;> first
          | exact .free rfl rfl
          | (rcases h with h | h <;> cases h)
      | _ => first
          | exact .free rfl rfl
          | (rcases h with h | h <;> cases h)
  | fill f st =>
      cases st with
      | failClear e => cases e <;> (rcases h with h | h <;> cases h)
      | _ => first
          | exact .free rfl rfl
          | (rcases h with h | h <;> cases h)
  | task t st =>
      rcases t with ⟨p, w, checkout⟩
      cases checkout <;> (rcases h with h | h <;> cases h)
  | returned r =>
      rcases r with _ | e | r
      · rcases h with h | h <;> cases h
      · rcases h with h | h <;> cases h
      · cases r <;> (rcases h with h | h <;> cases h)
  | stuck k =>
      rcases k with k | ⟨p, w, checkout⟩
      · rcases h with h | h <;> cases h
      · cases checkout <;> (rcases h with h | h <;> cases h)
  | idle | panicked | cool | mint | bind | cooler | shutdown => rcases h with h | h <;> cases h
  | _ => exact .free rfl rfl

/-- A frame is kept from its next owner by agents that need a latch at most.
    Tasks and their faults keep a frame too, but it is their own. -/
theorem below_of_pinned {i : Nat} (h : (Need.reservation i).KeptBy cfg pc) :
    (pc.role cfg).tenure.own = some i ∨ pc.Below 2 := by
  cases pc with
  | enter op st => cases st <;> (rcases h with h | h <;> cases h)
  | fix k st =>
      cases st with
      | latch i => exact .inr (.need rfl rfl Nat.one_lt_two)
      | _ => exact .inr (.free rfl rfl)
  | fault k st =>
      rcases k with k | ⟨p, w, checkout⟩
      · cases st <;> (rcases h with h | h <;> cases h)
      · cases checkout <;> cases st <;> first
          | (rcases h with h | h <;> cases h; done)
          | exact .inl (h.resolve_left (fun h => by cases h))
  | acquire w st => cases st <;> (rcases h with h | h <;> cases h)
  | evict k t st => exact .inr evict_below
  | fill f st => exact .inr fill_below
  | task t st =>
      rcases t with ⟨p, w, checkout⟩
      cases checkout with
      | none => rcases h with h | h <;> cases h
      | some j => exact .inl (h.resolve_left (fun h => by cases h))
  | returned r =>
      rcases r with _ | e | r
      · rcases h with h | h <;> cases h
      · rcases h with h | h <;> cases h
      · cases r <;> (rcases h with h | h <;> cases h)
  | stuck k =>
      rcases k with k | ⟨p, w, checkout⟩
      · rcases h with h | h <;> cases h
      · cases checkout with
        | none => rcases h with h | h <;> cases h
        | some j => exact .inl (h.resolve_left (fun h => by cases h))
  | idle | panicked | shutdown => rcases h with h | h <;> cases h
  | _ => exact .inr (.free rfl rfl)

/-- A leader needs a latch or a frame, and never another fault. -/
theorem below_of_leads {p : PageId} {g : Nat} (h : pc.leads = some (p, g)) : pc.Below 3 := by
  cases pc with
  | fault k st => cases st <;> first
      | exact .free rfl rfl
      | cases h
  | acquire w st => exact acquire_below
  | evict k t st => exact evict_below.mono (by decide)
  | fill f st => exact fill_below.mono (by decide)
  | cool | enqueue | checkin => exact .free rfl rfl
  | _ => cases h

theorem below_of_awaits {p : PageId} {g : Nat} (h : pc.awaits = some (p, g)) : pc.Below 4 := by
  cases pc with
  | fault k st =>
      cases st with
      | wait g' => exact .need rfl rfl (Nat.lt_succ_self 3)
      | _ => cases h
  | _ => cases h

theorem shutdown_unengaged {st : ShutdownStage} :
    (st.post cfg).gate = none ∧ (st.post cfg).background = none := by
  cases st with
  | owner f p | load f p w | mark f p w | generation f p =>
      dsimp only [ShutdownStage.post]
      unfold Post.given
      split <;> exact ⟨rfl, rfl⟩
  | ungate r | unlock r => cases r <;> exact ⟨rfl, rfl⟩
  | _ => exact ⟨rfl, rfl⟩

/-- An operation and a background thread are past the gate, and in a call. -/
theorem below_of_engaged (hstuck : ∀ k, pc ≠ .stuck k)
    (h : (pc.role cfg).post.gate = some () ∨ (pc.role cfg).post.background = some ()) :
    pc.Below 5 := by
  refine below_five ?_ ?_ ?_
  · cases pc with
    | idle | panicked => rcases h with h | h <;> cases h
    | returned r =>
        rcases r with _ | e | r
        · rcases h with h | h <;> cases h
        · rcases h with h | h <;> cases h
        · cases r <;> (rcases h with h | h <;> cases h)
    | task t st =>
        cases st with
        | queued => rcases h with h | h <;> cases h
        | check => rfl
    | stuck k => exact absurd rfl (hstuck k)
    | _ => rfl
  · rintro op rfl
    rcases h with h | h <;> cases h
  · rintro st rfl
    rcases h with h | h
    · cases shutdown_unengaged.1.symm.trans h
    · cases shutdown_unengaged.2.symm.trans h

/-- A shutdown that has closed the gate waits for the workers, or evicts. -/
theorem below_of_writeGate (h : (Need.readGate).KeptBy cfg pc) : pc.Below 6 := by
  cases pc with
  | evict k t st => exact evict_below.mono (by decide)
  | shutdown st =>
      cases st with
      | lock | stop | gate => cases h
      | join => exact .need rfl rfl (Nat.lt_succ_self 5)
      | _ => exact .free rfl rfl
  | idle | panicked | mint | bind | cooler => cases h
  | enter op st => cases st <;> cases h
  | fix k st =>
      cases st with
      | exactOwner i state => cases state <;> cases h
      | _ => cases h
  | fault k st => cases k <;> cases st <;> cases h
  | acquire w st => cases st <;> cases h
  | cool k st => cases k <;> cases h
  | enqueue k i p st =>
      rcases k with k | ⟨k, n, is⟩
      · cases h
      · cases k <;> cases h
  | fill f st =>
      rcases f with ⟨k, i⟩
      cases k <;> cases st <;> cases h
  | checkin k i st =>
      cases k with
      | task running p => cases running <;> cases h
      | _ => cases h
  | leave r => cases r <;> cases h
  | guard g st => cases st <;> cases h
  | submit w p st => cases st <;> cases h
  | task t st => cases st <;> cases h
  | unreserve running p st => cases running <;> cases st <;> cases h
  | returned r =>
      rcases r with _ | e | r
      · cases h
      · cases h
      · cases r <;> cases h
  | stuck k => cases k <;> cases h

theorem below_of_closes (h : pc.closes = true) : pc.Below 7 := by
  cases pc with
  | evict k t st => exact evict_below.mono (by decide)
  | shutdown st =>
      cases st with
      | lock => cases h
      | join => exact .need rfl rfl (Nat.lt_add_of_pos_right (Nat.succ_pos 1))
      | gate => exact .need rfl rfl (Nat.lt_succ_self 6)
      | _ => exact .free rfl rfl
  | _ => cases h

/-! ### Waiting -/

theorem lock_met {l : HybridLatch} {exclusive : Bool} (h : l.state = .shared 0) :
    l.lock exclusive ≠ none := by
  unfold HybridLatch.lock HybridLatch.lockExclusive HybridLatch.lockShared
  rw [h]
  cases exclusive <;> exact fun hc => by cases hc

theorem claim_met {w : Nat} (h : pinState w = .shared 0) : tryClaimEviction w ≠ none := by
  unfold pinState at h
  split at h
  · cases h
    exact fun hc => by cases hc
  · cases h

theorem claiming_of_needs {i : Nat} (h : pc.needs = some (.reservation i)) :
    ∃ w, pc = .acquire w (.claim i) := by
  unfold Pc.needs at h
  split at h <;> cases h
  exact ⟨_, rfl⟩

theorem awaits_of_needs {p : PageId} {g : Nat} (h : pc.needs = some (.outcome p g)) :
    pc.awaits = some (p, g) := by
  unfold Pc.needs at h
  split at h <;> cases h
  rfl

/-- The leader by its role is the leader by its generation. -/
theorem leads_of_lead (hstuck : ∀ k, pc ≠ .stuck k) {p : PageId}
    (h : (pc.role cfg).warrant.lead = some p) : ∃ g, pc.leads = some (p, g) := by
  cases pc with
  | stuck k => exact absurd rfl (hstuck k)
  | enter op st => cases st <;> cases h
  | fix k st =>
      cases st with
      | exactOwner i state => cases state <;> cases h
      | _ => cases h
  | fault k st =>
      cases st with
      | leadRunning g | leadLoad g | leadLookup g | leadCount g loc | finish g r =>
          cases h
          exact ⟨g, rfl⟩
      | running | lookup => cases k <;> cases h
      | enter | wait g => cases h
  | acquire w st =>
      cases w with
      | allocate => cases st <;> cases h
      | demand k loc g => cases st <;> (cases h; exact ⟨g, rfl⟩)
  | cool k st =>
      rcases k with ⟨w, n, err⟩ | _
      · cases w <;> cases h
        exact ⟨_, rfl⟩
      · cases h
  | enqueue k i q st =>
      rcases k with k | ⟨k, n, is⟩
      · cases h
      · rcases k with ⟨w, n, err⟩ | _
        · cases w <;> cases h
          exact ⟨_, rfl⟩
        · cases h
  | evict k t st =>
      cases k with
      | acquire w n err m =>
          cases w <;> cases h
          exact ⟨_, rfl⟩
      | _ => cases h
  | fill f st =>
      rcases f with ⟨k, i⟩
      cases k with
      | allocate q w => cases st <;> cases h
      | demand k loc g => cases st <;> (cases h; exact ⟨g, rfl⟩)
      | prefetch q w loc g => cases st <;> (cases h; exact ⟨g, rfl⟩)
  | checkin k i st =>
      cases k with
      | demand k g e => cases h; exact ⟨g, rfl⟩
      | prefetch q w g e => cases h; exact ⟨g, rfl⟩
      | _ => cases h
  | leave r => cases r <;> cases h
  | guard g st => cases st <;> cases h
  | submit w q st => cases st <;> cases h
  | unreserve running q st => cases st <;> cases h
  | returned r =>
      rcases r with _ | e | r
      · cases h
      · cases h
      · cases r <;> cases h
  | _ => cases h

/-- What an agent is held up for is kept by an agent that needs less. -/
theorem kept_of_unmet (hr : Reachable (pool cfg) s) {n : Need} (hn : (s.pcs a).needs = some n)
    (hmet : ¬ n.Met s.shared) : ∃ b, n.KeptBy cfg (s.pcs b) ∧ (s.pcs b).Below n.rank := by
  have h := inv_reachable hr
  have hwaits := waits_reachable hr
  cases n with
  | latch i exclusive =>
      have hstate : (s.shared.latch i).state ≠ .shared 0 := fun hc => hmet (lock_met hc)
      rcases (h.latches i).exists_holder hstate with ⟨b, hb⟩
      exact ⟨b, hb, below_of_latched (i := i) hb⟩
  | reservation i =>
      have hstate : pinState (s.shared.pinControl i) ≠ .shared 0 := fun hc => hmet (claim_met hc)
      rcases (h.pins.table i).exists_holder hstate with ⟨b, hb⟩
      refine ⟨b, hb, (below_of_pinned (i := i) hb).resolve_left (fun hown => ?_)⟩
      -- the frame is the waiting agent's own, which has neither pin nor reservation on it
      rcases claiming_of_needs hn with ⟨w, hpc⟩
      have hmine : (s.roles cfg a).tenure.own = some i := by rw [role_at hpc]; rfl
      have hba : b = a := h.places.owner b a i hown hmine
      rw [hba, role_at hpc] at hb
      rcases hb with hb | hb <;> cases hb
  | outcome p g =>
      have hawaits := awaits_of_needs hn
      rcases (hwaits p).current a g hawaits with ⟨m, hact⟩ | ⟨o, m, hdone⟩
      · rcases (h.leads.active p).mp (by rw [hact]; rfl) with ⟨b, hb⟩
        rcases leads_of_lead (never_stuck hr b) hb with ⟨g', hg'⟩
        rcases (hwaits p).leader b g' hg' with ⟨m', hact'⟩
        rw [hact] at hact'
        cases hact'
        exact ⟨b, hg', below_of_leads hg'⟩
      · refine absurd (fun hc => ?_) hmet
        unfold FaultState.replay at hc
        rw [hdone] at hc
        dsimp only at hc
        rw [if_pos rfl] at hc
        split at hc <;> cases hc
  | turn p =>
      cases hact : (s.shared.faults p).active with
      | some act =>
          refine absurd (fun hc => ?_) hmet
          unfold FaultState.enter at hc
          rw [hact] at hc
          cases hc
      | none =>
          cases hdone : (s.shared.faults p).completed with
          | none =>
              refine absurd (fun hc => ?_) hmet
              unfold FaultState.enter at hc
              rw [hact, hdone] at hc
              cases hc
          | some done =>
              rcases done with ⟨g, o, m⟩
              rcases (hwaits p).remaining g o m hdone with ⟨hm, htally⟩
              have hwaiting : tally (fun b => (s.pcs b).awaits) (p, g) ≠ 0 := by
                rw [htally]
                exact fun hc => hm (Nat.cast_eq_zero.mp hc)
              rcases exists_of_tally_ne_zero hwaiting with ⟨b, hb⟩
              exact ⟨b, ⟨g, hb⟩, below_of_awaits hb⟩
  | workers =>
      have hbusy : tally (fun b => (s.roles cfg b).post.background) () ≠ 0 := by
        rw [h.background.workers]
        exact fun hc => hmet (Nat.cast_eq_zero.mp hc)
      rcases exists_of_tally_ne_zero hbusy with ⟨b, hb⟩
      exact ⟨b, hb, below_of_engaged (never_stuck hr b) (.inr hb)⟩
  | writeGate =>
      rcases (h.gate ()).exists_holder hmet with ⟨b, hb | hb⟩
      · exact ⟨b, .inl hb, (below_of_engaged (never_stuck hr b) (.inl hb)).mono (by decide)⟩
      · exact ⟨b, .inr hb, below_of_writeGate hb⟩
  | readGate =>
      have hclosed : s.shared.operationGate = .exclusive := not_not.mp hmet
      have hgate := h.gate ()
      rw [hclosed] at hgate
      rcases exists_of_tally_ne_zero (by rw [hgate.2]; exact one_ne_zero) with ⟨b, hb⟩
      exact ⟨b, hb, below_of_writeGate hb⟩
  | shutdownLock =>
      rcases closes_of_locked hr (Bool.of_not_eq_false hmet) with ⟨b, hb⟩
      exact ⟨b, hb, below_of_closes hb⟩

/-- An agent of a call that has what it needs can move. -/
theorem moves_of_met (hr : Reachable (pool cfg) s) (hrest : (s.pcs a).resting = false)
    (hmet : ∀ n, (s.pcs a).needs = some n → n.Met s.shared) : CanMove cfg s a := by
  have h := inv_reachable hr
  have hproper := proper_reachable hr a
  suffices hmoves : ∃ c, Moves (s.pcs a) (s.shared.step cfg c a (s.pcs a)) by
    rcases hmoves with ⟨c, ⟨sh', pc'⟩, hstep, hne⟩
    refine ⟨c, ⟨sh', update s.pcs a pc'⟩, Option.map_eq_some_iff.mpr ⟨_, hstep, rfl⟩, ?_⟩
    change update s.pcs a pc' a ≠ s.pcs a
    rwa [update_self]
  have hrole : s.roles cfg a = (s.pcs a).role cfg := rfl
  have hsound := h.sound a
  rw [hrole] at hsound
  cases hpc : s.pcs a with
  | idle | returned | panicked | stuck =>
      rw [hpc] at hrest
      cases hrest
  | enter op st =>
      rw [hpc] at hmet hproper
      refine ⟨{}, moves_stepEnter ?_ hmet⟩
      rintro rfl
      constructor <;> (rintro rfl; cases hproper)
  | fix k st =>
      rw [hpc] at hmet
      exact ⟨{}, moves_stepFix hmet⟩
  | fault k st =>
      rw [hpc] at hmet hproper
      refine ⟨{}, moves_stepFault ?_ hmet⟩
      rintro t g loc rfl rfl
      cases hproper
  | acquire w st =>
      rw [hpc] at hmet
      exact ⟨{}, moves_stepAcquire hmet⟩
  | cool k st => exact ⟨_, moves_stepCool⟩
  | enqueue k i p st => exact ⟨{}, moves_stepEnqueue⟩
  | evict k t st =>
      rw [hpc] at hmet hsound
      refine ⟨_, moves_stepEvict hmet ?_⟩
      rintro v rfl
      exact hsound.tenure.elim
  | mint i =>
      refine ⟨{}, ?_⟩
      dsimp only [Shared.step, Shared.stepMint]
      split <;> exact .some (fun h => by cases h)
  | bind i p =>
      refine ⟨{}, ?_⟩
      dsimp only [Shared.step, Shared.stepBind]
      split <;> exact .some (fun h => by cases h)
  | fill f st =>
      rw [hpc] at hmet hproper
      refine ⟨{}, moves_stepFill ?_ hmet⟩
      rintro rfl
      rcases f with ⟨k, i⟩
      cases k with
      | allocate p w => cases hproper
      | _ => rfl
  | checkin k i st => exact ⟨{}, moves_stepCheckin⟩
  | leave r =>
      -- an agent that leaves still has its hold of the gate
      refine ⟨{}, ?_⟩
      have hhold : (s.roles cfg a).post.gate = some () := by
        rw [hrole, hpc]
        cases r <;> rfl
      rcases (h.gate ()).shared_of_holds hhold with ⟨n, hn⟩
      have hgate : s.shared.operationGate = .shared (n + 1) := hn
      dsimp only [Shared.step, Shared.stepLeave]
      rw [hgate]
      refine .some (fun h => ?_)
      cases r <;> cases h
  | guard g st => exact ⟨{ act := .drop }, moves_stepGuard⟩
  | submit w p st => exact ⟨{}, moves_stepSubmit⟩
  | task t st =>
      rw [hpc] at hrest hsound
      cases st with
      | queued => cases hrest
      | check =>
          rcases t with ⟨p, w, checkout⟩
          cases checkout with
          | none => exact hsound.tenure.elim
          | some i => exact ⟨{}, moves_stepTask (a := a) rfl⟩
  | unreserve running p st => exact ⟨{}, moves_stepUnreserve⟩
  | cooler st => exact ⟨{}, moves_stepCooler⟩
  | shutdown st =>
      rw [hpc] at hmet
      exact ⟨{}, moves_stepShutdown hmet⟩

/-- Every call can move, or waits, through some chain, for a call that can. -/
theorem waits_end_in_mover (hr : Reachable (pool cfg) s) (hrest : (s.pcs a).resting = false) :
    ∃ b, Relation.ReflTransGen (WaitsFor cfg s) a b ∧ (s.pcs b).resting = false ∧
      CanMove cfg s b := by
  have hdown : ∀ b, (s.pcs b).resting = false → CanMove cfg s b ∨ ∃ d, WaitsFor cfg s b d ∧
      (s.pcs d).resting = false ∧ (s.pcs d).rank < (s.pcs b).rank := by
    intro b hb
    by_cases hmet : ∀ n, (s.pcs b).needs = some n → n.Met s.shared
    · exact .inl (moves_of_met hr hb hmet)
    · push Not at hmet
      rcases hmet with ⟨n, hn, hunmet⟩
      rcases kept_of_unmet hr hn hunmet with ⟨d, hkept, hbelow⟩
      refine .inr ⟨d, ⟨n, hn, hunmet, hkept⟩, hbelow.1, ?_⟩
      have hrank : (s.pcs b).rank = n.rank := by
        unfold Pc.rank
        rw [hn]
        rfl
      rw [hrank]
      exact hbelow.rank_lt
  exact exists_mover (fun b => (s.pcs b).rank) hdown hrest

/-- Agent `0` has the guard of its new page when agent `1` comes to the latch. -/
def contention : List (Agent × Choice) := allocation ++ runOf 1 (.fix 0 .exclusive) 7

theorem waits_end_in_mover_contention : ∃ s, exec (pool sampleConfig)
    (PoolState.initial sampleConfig (fun _ => none)) contention = some s ∧
    (s.pcs 1).needs = some (.latch 0 true) ∧ ¬ (Need.latch 0 true).Met s.shared ∧
    ∃ b, Relation.ReflTransGen (WaitsFor sampleConfig s) 1 b ∧ (s.pcs b).resting = false ∧
      CanMove sampleConfig s b := by
  have hrun : (exec (pool sampleConfig) (PoolState.initial sampleConfig (fun _ => none))
      contention).map (fun s => decide ((s.pcs 1).needs = some (.latch 0 true) ∧
        ((s.shared.latch 0).lock true).isNone = true ∧ (s.pcs 1).resting = false)) =
      some true := by decide +kernel
  rcases Option.map_eq_some_iff.mp hrun with ⟨s, hs, hsees⟩
  rw [decide_eq_true_eq] at hsees
  rcases hsees with ⟨hneeds, hheld, hrest⟩
  exact ⟨s, hs, hneeds, not_not.mpr (Option.isNone_iff_eq_none.mp hheld),
    waits_end_in_mover (reachable_of_run hs) hrest⟩

end TierBuf
