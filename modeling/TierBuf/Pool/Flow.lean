import TierBuf.Pool.Step

/-!
# Control Flow

Where a step can lead, one function at a time.

A function of the manager goes on inside itself, returns into its caller, or
calls another function. `Flow` has one constructor for each of these, with the
stages left open, so that an argument about which function an agent is in, and
with which locals, does not have to go through every stage.

## Main definitions

* `Flow`: A step may lead from one program point to another.
* `Goes`: All outcomes of a step meet a condition.

## Theorems

* `step_flow`: Every step follows the control flow.
* `Flow.into_evict`, `Flow.into_fill`: Where a function is entered.
* `pool_next`: A step of the pool is a step of one agent.
* `exec_others`: An agent that takes no step stays where it is.
-/

namespace TierBuf

open Function Transition

variable {cfg : Config} {sh sh' : Shared} {c : Choice} {a : Agent} {pc pc' : Pc}

/-- A step may lead from the first program point to the second. -/
inductive Flow : Pc → Pc → Prop where
  | assertion {pc : Pc} {site : PanicSite} : Flow pc (.panicked site)
  | idleEnter {op : Operation} : Flow .idle (.enter op .running)
  | idleSubmit {s : SwipId} {p : PageId} : Flow .idle (.submit s p .stop)
  | idleCooler : Flow .idle (.cooler .stop)
  | idleShutdown : Flow .idle (.shutdown .lock)
  | idleDone : Flow .idle (.returned .done)
  | enter {op : Operation} {st st' : EnterStage} : Flow (.enter op st) (.enter op st')
  | enterReturn {op : Operation} {st : EnterStage} {e : TierBufError} :
      Flow (.enter op st) (.returned (.failed e))
  | enterLeave {op : Operation} {st : EnterStage} {e : TierBufError} :
      Flow (.enter op st) (.leave (.failed e))
  | enterAllocate {st : EnterStage} : Flow (.enter .allocate st) (.acquire .allocate .running)
  | enterFix {s : SwipId} {mode : FixMode} {st : EnterStage} {p : PageId} :
      Flow (.enter (.fix s mode) st) (.fix ⟨s, p, mode, false, none⟩ .head)
  | fix {k : FixCtx} {st st' : FixStage} : Flow (.fix k st) (.fix k st')
  | fixFault {k : FixCtx} {st : FixStage} :
      Flow (.fix k st) (.fault (.demand { k with faulted := true }) .running)
  | fixLeave {k : FixCtx} {st : FixStage} {e : TierBufError} :
      Flow (.fix k st) (.leave (.failed e))
  | fixGuard {k : FixCtx} {st : FixStage} {i : Nat} :
      Flow (.fix k st) (.leave (.guard (k.guard i)))
  | fixEnqueue {k : FixCtx} {st : FixStage} {i : Nat} :
      Flow (.fix k st) (.enqueue (.fix k) i k.pid .pid)
  | fault {k : FaultCtx} {st st' : FaultStage} : Flow (.fault k st) (.fault k st')
  | faultReturn {k : FaultCtx} {st : FaultStage} {r : FaultResult} :
      Flow (.fault k st) (k.return r)
  | faultAcquire {k : FixCtx} {st : FaultStage} {loc : Location} {g : Nat} :
      Flow (.fault (.demand k) st) (.acquire (.demand k loc g) .running)
  | faultFill {t : PrefetchTask} {st : FaultStage} {loc : Location} {g i : Nat}
      (h : t.checkout = some i) :
      Flow (.fault (.prefetch t) st) (.fill ⟨.prefetch t.pid t.swip loc g, i⟩ .lock)
  | faultStuck {k : FaultCtx} {st : FaultStage} : Flow (.fault k st) (.stuck k)
  | acquire {w : AcquireCtx} {st st' : AcquireStage} : Flow (.acquire w st) (.acquire w st')
  | acquired {w : AcquireCtx} {st : AcquireStage} {i : Nat} : Flow (.acquire w st) (w.acquired i)
  | acquireFailed {w : AcquireCtx} {st : AcquireStage} {e : TierBufError} :
      Flow (.acquire w st) (w.failed e)
  | acquireCool {w : AcquireCtx} {st : AcquireStage} {n : Nat} {err : Option TierBufError} :
      Flow (.acquire w st) (.cool (.acquire w n err) .desired)
  | acquireEvict {w : AcquireCtx} {n m : Nat} {err : Option TierBufError} {t : CoolingTicket} :
      Flow (.acquire w (.sweep n err (m + 1))) (.evict (.acquire w n err m) t (.exact .first .pid))
  | cool {k : CoolCtx} {st st' : CoolStage} : Flow (.cool k st) (.cool k st')
  | coolReturn {k : CoolCtx} {st : CoolStage} : Flow (.cool k st) k.return
  | coolEnqueue {k : CoolCtx} {st : CoolStage} {n i : Nat} {p : PageId} {is : List Nat} :
      Flow (.cool k st) (.enqueue (.cool k n is) i p .pid)
  | enqueue {k : EnqueueCtx} {i : Nat} {p : PageId} {st st' : EnqueueStage} :
      Flow (.enqueue k i p st) (.enqueue k i p st')
  | enqueueReturn {k : EnqueueCtx} {i : Nat} {p : PageId} {st : EnqueueStage} :
      Flow (.enqueue k i p st) (k.return i)
  | evict {k : EvictCtx} {t : CoolingTicket} {st st' : EvictStage} :
      Flow (.evict k t st) (.evict k t st')
  | evictReturn {k : EvictCtx} {t : CoolingTicket} {st : EvictStage}
      {r : Except TierBufError EvictionOutcome} : Flow (.evict k t st) (k.return t r)
  | mintBind {i : Nat} {p : PageId} : Flow (.mint i) (.bind i p)
  | mintCheckin {i : Nat} {e : TierBufError} : Flow (.mint i) (.checkin (.allocate e) i .release)
  | bindFill {i : Nat} {p : PageId} {s : SwipId} :
      Flow (.bind i p) (.fill ⟨.allocate p s, i⟩ .lock)
  | fill {f : Filling} {st st' : FillStage} : Flow (.fill f st) (.fill f st')
  | fillCheckin {f : Filling} {st : FillStage} {st' : CheckinStage} {e : TierBufError} :
      Flow (.fill f st) (.checkin (f.ctx.abort e) f.index st')
  | fillDemand {k : FixCtx} {loc : Location} {g i : Nat} :
      Flow (.fill ⟨.demand k loc g, i⟩ .unpin)
        (.fault (.demand k) (.finish g (.ok (some loc.tierIndex))))
  | fillPrefetch {p : PageId} {s : SwipId} {loc : Location} {g i : Nat} :
      Flow (.fill ⟨.prefetch p s loc g, i⟩ .unpin)
        (.fault (.prefetch ⟨p, s, none⟩) (.finish g (.ok (some loc.tierIndex))))
  | fillGuard {f : Filling} :
      Flow (.fill f .insert) (.leave (.guard ⟨f.index, f.pid, f.swip, true, .dram⟩))
  | checkin {k : CheckinCtx} {i : Nat} {st st' : CheckinStage} :
      Flow (.checkin k i st) (.checkin k i st')
  | checkinReturn {k : CheckinCtx} {i : Nat} : Flow (.checkin k i .push) k.return
  | leaveGuard {g : Guard} : Flow (.leave (.guard g)) (.guard g .live)
  | leaveFailed {e : TierBufError} : Flow (.leave (.failed e)) (.returned (.failed e))
  | guard {g : Guard} {st st' : GuardStage} : Flow (.guard g st) (.guard g st')
  | guardDone {g : Guard} : Flow (.guard g .unpinned) (.returned .done)
  | submit {s : SwipId} {p : PageId} {st st' : SubmitStage} :
      Flow (.submit s p st) (.submit s p st')
  | submitDone {s : SwipId} {p : PageId} {st : SubmitStage} :
      Flow (.submit s p st) (.returned .done)
  | submitUnreserve {s : SwipId} {p : PageId} :
      Flow (.submit s p .pop) (.unreserve false p .pending)
  | submitCheckin {s : SwipId} {p : PageId} {st : SubmitStage} {st' : CheckinStage} {i : Nat} :
      Flow (.submit s p st) (.checkin (.task false p) i st')
  | submitTask {s : SwipId} {p : PageId} {i : Nat} :
      Flow (.submit s p (.send i)) (.task ⟨p, s, some i⟩ .queued)
  | task {t : PrefetchTask} : Flow (.task t .queued) (.task t .check)
  | taskFault {t : PrefetchTask} : Flow (.task t .check) (.fault (.prefetch t) .running)
  | taskCheckin {t : PrefetchTask} {i : Nat} (h : t.checkout = some i) :
      Flow (.task t .check) (.checkin (.task true t.pid) i .release)
  | unreserve {running : Bool} {p : PageId} {st st' : UnreserveStage} :
      Flow (.unreserve running p st) (.unreserve running p st')
  | unreserveDone {running : Bool} {p : PageId} {st : UnreserveStage} :
      Flow (.unreserve running p st) (.returned .done)
  | cooler {st st' : CoolerStage} : Flow (.cooler st) (.cooler st')
  | coolerCool : Flow (.cooler .room) (.cool .background .desired)
  | coolerEvict {m : Nat} {t : CoolingTicket} :
      Flow (.cooler (.pop m)) (.evict (.background m) t (.exact .first .pid))
  | coolerDone : Flow (.cooler .done) (.returned .done)
  | shutdown {st st' : ShutdownStage} : Flow (.shutdown st) (.shutdown st')
  | shutdownEvict {f : FlushPass} {p : PageId} {t : CoolingTicket} :
      Flow (.shutdown (.generation f p)) (.evict (.flush f) t (.exact .first .pid))
  | shutdownReturn {r : Except TierBufError Unit} :
      Flow (.shutdown (.unlock r)) (.returned (.shutdown r))

/-- All outcomes of a step meet the condition. -/
def Goes (Q : Pc → Prop) (o : Stepped) : Prop :=
  ∀ sh' pc', o = some (sh', pc') → Q pc'

namespace Goes

variable {Q : Pc → Prop}

theorem none : Goes Q none :=
  fun _ _ h => by cases h

theorem some (h : Q pc) : Goes Q (some (sh, pc)) := by
  intro _ _ ho
  cases ho
  exact h

variable {i : Nat} {exclusive : Bool}

theorem lockLatch (h : Q pc) : Goes Q (sh.lockLatch i exclusive pc) := by
  unfold Shared.lockLatch
  split
  · exact some h
  · exact none

theorem unlatch (h : Q pc) (hp : ∀ site, Q (.panicked site)) :
    Goes Q (sh.unlatch i exclusive pc) := by
  unfold Shared.unlatch
  split
  · exact some h
  · exact some (hp _)

theorem unpin (h : Q pc) (hp : ∀ site, Q (.panicked site)) :
    Goes Q (sh.unpin i pc) := by
  unfold Shared.unpin
  split
  · exact some h
  · exact some (hp _)

theorem releaseReservation (h : Q pc) (hp : ∀ site, Q (.panicked site)) :
    Goes Q (sh.releaseReservation i pc) := by
  unfold Shared.releaseReservation
  split
  · exact some h
  · exact some (hp _)

theorem leaveQueue (h : Q pc) (hp : ∀ site, Q (.panicked site)) :
    Goes Q (sh.leaveQueue i pc) := by
  unfold Shared.leaveQueue
  split
  · exact some h
  · exact some (hp _)

theorem enterQueue (h : Q pc) (hp : ∀ site, Q (.panicked site)) :
    Goes Q (sh.enterQueue cfg i pc) := by
  unfold Shared.enterQueue
  split
  · exact some (hp _)
  · exact some h

theorem pushFree (h : Q pc) (hp : ∀ site, Q (.panicked site)) :
    Goes Q (sh.pushFree cfg i pc) := by
  unfold Shared.pushFree
  split
  · exact some h
  · exact some (hp _)

theorem popFree {found : Nat → Pc} (hfound : ∀ i, Q (found i)) (hempty : Q pc) :
    Goes Q (sh.popFree found pc) := by
  unfold Shared.popFree
  split
  · exact some (hfound _)
  · exact some hempty

theorem stepClear {back : ClearStage → Pc} {e : ClearStage} (hback : ∀ e, Q (back e)) (h : Q pc)
    (hp : ∀ site, Q (.panicked site)) : Goes Q (sh.stepClear i back pc e) := by
  cases e with
  | check =>
      dsimp only [Shared.stepClear]
      split
      · exact some (hback _)
      · exact some (hp _)
  | lock => exact lockLatch (hback _)
  | unlock => exact unlatch h hp
  | _ => exact some (hback _)

theorem stepExact {t : CoolingTicket} {back : ExactStage → Pc} {fails : Pc} {found : SwipId → Pc}
    {e : ExactStage} (hback : ∀ e, Q (back e)) (hfails : Q fails) (hfound : ∀ s, Q (found s)) :
    Goes Q (sh.stepExact cfg t back fails found e) := by
  cases e <;> dsimp only [Shared.stepExact] <;> split <;> first
    | exact some (hback _)
    | exact some hfails
    | exact some (hfound _)

end Goes

/-! ### The functions of the manager -/

theorem stepIdle_flow : Goes (Flow .idle) (sh.stepIdle cfg c) := by
  unfold Shared.stepIdle
  split
  · exact .some .idleEnter
  · split
    · exact .some .idleEnter
    · exact .none
  · split
    · exact .some .idleSubmit
    · exact .none
  · split
    · exact .none
    · exact .some .idleCooler
  · exact .some .idleShutdown
  · exact .some .idleDone
  · exact .some .idleDone
  · exact .some .idleDone

theorem stepEnter_flow {op : Operation} {st : EnterStage} :
    Goes (Flow (.enter op st)) (sh.stepEnter cfg op st) := by
  cases st <;> cases op <;> dsimp only [Shared.stepEnter] <;> (repeat' split) <;> first
    | exact .none
    | exact .some .enter
    | exact .some .enterReturn
    | exact .some .enterLeave
    | exact .some .enterAllocate
    | exact .some .enterFix

theorem stepLeave_flow {r : Ret} : Goes (Flow (.leave r)) (sh.stepLeave r) := by
  unfold Shared.stepLeave
  split
  · cases r with
    | guard g => exact .some .leaveGuard
    | failed e => exact .some .leaveFailed
  · exact .none

theorem stepFix_flow {k : FixCtx} {st : FixStage} :
    Goes (Flow (.fix k st)) (sh.stepFix cfg c k st) := by
  cases st with
  | latch i => exact .lockLatch .fix
  | unlatch i => exact .unlatch .fix (fun _ => .assertion)
  | unpin i => exact .unpin .fix (fun _ => .assertion)
  | consume i g =>
      dsimp only [Shared.stepFix]
      split <;> exact .some .fix
  | resurrect i =>
      have hpc : Flow (.fix k (.resurrect i))
          (if k.consumes then Pc.fix k (.generation i) else .fix k (.count i)) := by
        split <;> exact .fix
      dsimp only [Shared.stepFix]
      split <;> exact .some hpc
  | count i =>
      have hpc : Flow (.fix k (.count i)) (if k.faulted ∧ ¬ k.mode.isExclusive then
          Pc.fix k (.admission i) else .leave (.guard (k.guard i))) := by
        split
        · exact .fix
        · exact .fixGuard
      dsimp only [Shared.stepFix]
      split <;> exact .some hpc
  | _ =>
      dsimp only [Shared.stepFix]
      (repeat' split) <;> first
        | exact .some .fix
        | exact .some .fixFault
        | exact .some .fixLeave
        | exact .some .fixGuard
        | exact .some .fixEnqueue

theorem stepFault_flow {k : FaultCtx} {st : FaultStage} :
    Goes (Flow (.fault k st)) (sh.stepFault cfg k st) := by
  cases st with
  | leadLookup g =>
      dsimp only [Shared.stepFault]
      split
      · exact .some .fault
      · split
        · exact .some .fault
        · cases k with
          | demand k' => exact .some .fault
          | prefetch t =>
              dsimp only
              split
              · exact .some (.faultFill ‹_›)
              · exact .some .assertion
  | leadCount g loc =>
      cases k with
      | demand k' => exact .some .faultAcquire
      | prefetch t => exact .none
  | wait g =>
      dsimp only [Shared.stepFault]
      split
      · exact .some .fault
      · exact .some .faultReturn
      · exact .some .faultStuck
  | _ =>
      dsimp only [Shared.stepFault]
      (repeat' split) <;> first
        | exact .some .fault
        | exact .some .faultReturn

theorem stepAcquire_flow {w : AcquireCtx} {st : AcquireStage} :
    Goes (Flow (.acquire w st)) (sh.stepAcquire cfg w st) := by
  cases st with
  | pop => exact .popFree (fun _ => .acquire) .acquire
  | member i => exact .leaveQueue .acquire (fun _ => .assertion)
  | claim i =>
      dsimp only [Shared.stepAcquire]
      split
      · exact .some .acquired
      · exact .none
  | popRound n err => exact .popFree (fun _ => .acquire) .acquireCool
  | popAfter n err m => exact .popFree (fun _ => .acquire) .acquire
  | sweep n err m =>
      dsimp only [Shared.stepAcquire]
      split
      · exact .some .acquireEvict
      · exact .some .acquire
  | _ =>
      dsimp only [Shared.stepAcquire]
      (repeat' split) <;> first
        | exact .some .acquire
        | exact .some .acquireFailed

theorem stepCool_flow {k : CoolCtx} {st : CoolStage} :
    Goes (Flow (.cool k st)) (sh.stepCool cfg c k st) := by
  cases st <;> dsimp only [Shared.stepCool] <;> (repeat' split) <;> first
    | exact .none
    | exact .some .cool
    | exact .some .coolReturn
    | exact .some .coolEnqueue

theorem stepEnqueue_flow {k : EnqueueCtx} {i : Nat} {p : PageId} {st : EnqueueStage} :
    Goes (Flow (.enqueue k i p st)) (sh.stepEnqueue cfg k i p st) := by
  cases st <;> dsimp only [Shared.stepEnqueue] <;> (repeat' split) <;> first
    | exact .some .enqueue
    | exact .some .enqueueReturn

theorem stepEvict_flow {k : EvictCtx} {t : CoolingTicket} {st : EvictStage} :
    Goes (Flow (.evict k t st)) (sh.stepEvict cfg c k t st) := by
  cases st with
  | exact pass e =>
      cases pass with
      | first => exact .stepExact (fun _ => Flow.evict) Flow.evictReturn (fun _ => Flow.evict)
      | second s =>
          refine .stepExact (fun _ => Flow.evict) Flow.evict (fun s' => ?_)
          split <;> exact .evict
  | lock s => exact .lockLatch .evict
  | unlatch v => exact .unlatch .evict (fun _ => .assertion)
  | clear v e => exact .stepClear (fun _ => Flow.evict) Flow.evict (fun _ => Flow.assertion)
  | release v => exact .releaseReservation .evict (fun _ => .assertion)
  | member v => exact .enterQueue .evict (fun _ => .assertion)
  | push v => exact .pushFree .evict (fun _ => .assertion)
  | exitUnlatch r => exact .unlatch .evict (fun _ => .assertion)
  | exitRelease r => exact .releaseReservation .evictReturn (fun _ => .assertion)
  | restore v =>
      dsimp only [Shared.stepEvict]
      split
      · split <;> exact .some .evict
      · exact .some .evict
  | _ =>
      dsimp only [Shared.stepEvict]
      (repeat' split) <;> first
        | exact .none
        | exact .some .evict
        | exact .some .evictReturn
        | exact .some .assertion

theorem stepMint_flow {i : Nat} : Goes (Flow (.mint i)) (sh.stepMint i) := by
  unfold Shared.stepMint
  split
  · exact .some .mintBind
  · exact .some .mintCheckin

theorem stepBind_flow {i : Nat} {p : PageId} : Goes (Flow (.bind i p)) (sh.stepBind cfg i p) := by
  unfold Shared.stepBind
  split
  · exact .some .bindFill
  · exact .some .assertion

theorem stepFill_flow {f : Filling} {st : FillStage} :
    Goes (Flow (.fill f st)) (sh.stepFill cfg c f st) := by
  cases st with
  | lock => exact .lockLatch .fill
  | abort e => exact .unlatch .fillCheckin (fun _ => .assertion)
  | unlock => exact .unlatch .fill (fun _ => .assertion)
  | installLock => exact .lockLatch .fill
  | installUnlock =>
      refine .unlatch ?_ (fun _ => .assertion)
      split <;> exact .fill
  | publish =>
      dsimp only [Shared.stepFill]
      split
      · refine .some ?_
        split <;> exact .fill
      · exact .some .assertion
  | swizzle marker =>
      dsimp only [Shared.stepFill]
      split
      · refine .some ?_
        split <;> exact .fill
      · refine .some ?_
        split <;> exact .fill
  | unpin =>
      rcases f with ⟨ctx, i⟩
      cases ctx with
      | allocate p s => exact .none
      | demand k loc g => exact .unpin .fillDemand (fun _ => .assertion)
      | prefetch p s loc g => exact .unpin .fillPrefetch (fun _ => .assertion)
  | latch => exact .lockLatch .fill
  | failUnpin => exact .unpin .fill (fun _ => .assertion)
  | failClear e => exact .stepClear (fun _ => Flow.fill) Flow.fill (fun _ => Flow.assertion)
  | failRelease => exact .releaseReservation .fillCheckin (fun _ => .assertion)
  | _ =>
      dsimp only [Shared.stepFill]
      (repeat' split) <;> first
        | exact .some .fill
        | exact .some .fillGuard
        | exact .some .assertion

theorem stepCheckin_flow {k : CheckinCtx} {i : Nat} {st : CheckinStage} :
    Goes (Flow (.checkin k i st)) (sh.stepCheckin cfg k i st) := by
  cases st with
  | release => exact .releaseReservation .checkin (fun _ => .assertion)
  | member => exact .enterQueue .checkin (fun _ => .assertion)
  | push => exact .pushFree .checkinReturn (fun _ => .assertion)

theorem stepGuard_flow {g : Guard} {st : GuardStage} :
    Goes (Flow (.guard g st)) (sh.stepGuard c g st) := by
  cases st with
  | live =>
      dsimp only [Shared.stepGuard]
      repeat' split
      · exact .some .guard
      · exact .some .guard
      · exact .none
      · exact .unpin .guard (fun _ => .assertion)
  | writing => exact .some .guard
  | unpinned => exact .unlatch .guardDone (fun _ => .assertion)

theorem stepSubmit_flow {s : SwipId} {p : PageId} {st : SubmitStage} :
    Goes (Flow (.submit s p st)) (sh.stepSubmit cfg c a s p st) := by
  cases st with
  | pop => exact .popFree (fun _ => .submit) .submitUnreserve
  | member i => exact .leaveQueue .submit (fun _ => .assertion)
  | _ =>
      dsimp only [Shared.stepSubmit]
      (repeat' split) <;> first
        | exact .some .submit
        | exact .some .submitDone
        | exact .some .submitCheckin
        | exact .some .submitTask

theorem stepTask_flow {t : PrefetchTask} {st : TaskStage} :
    Goes (Flow (.task t st)) (sh.stepTask a t st) := by
  cases st with
  | queued =>
      dsimp only [Shared.stepTask]
      (repeat' split) <;> first
        | exact .some .task
        | exact .none
  | check =>
      dsimp only [Shared.stepTask]
      split
      · exact .some .taskFault
      · split
        · exact .some (.taskCheckin ‹_›)
        · exact .none

theorem stepUnreserve_flow {running : Bool} {p : PageId} {st : UnreserveStage} :
    Goes (Flow (.unreserve running p st)) (sh.stepUnreserve running p st) := by
  cases st with
  | pending => exact .some .unreserve
  | inFlight =>
      dsimp only [Shared.stepUnreserve]
      split
      · exact .some .assertion
      · refine .some ?_
        split
        · exact .unreserve
        · exact .unreserveDone
  | retire => exact .some .unreserveDone

theorem stepCooler_flow {st : CoolerStage} : Goes (Flow (.cooler st)) (sh.stepCooler cfg st) := by
  cases st <;> dsimp only [Shared.stepCooler] <;> (repeat' split) <;> first
    | exact .some .cooler
    | exact .some .coolerCool
    | exact .some .coolerEvict
    | exact .some .coolerDone

theorem stepShutdown_flow {st : ShutdownStage} :
    Goes (Flow (.shutdown st)) (sh.stepShutdown cfg c st) := by
  cases st <;> dsimp only [Shared.stepShutdown] <;> (repeat' split) <;> first
    | exact .none
    | exact .some .shutdown
    | exact .some .shutdownEvict
    | exact .some .shutdownReturn

/-- Every step follows the control flow. -/
theorem step_flow (h : sh.step cfg c a pc = some (sh', pc')) : Flow pc pc' := by
  suffices hgoes : Goes (Flow pc) (sh.step cfg c a pc) from hgoes sh' pc' h
  cases pc with
  | idle => exact stepIdle_flow
  | enter op st => exact stepEnter_flow
  | fix k st => exact stepFix_flow
  | fault k st => exact stepFault_flow
  | acquire w st => exact stepAcquire_flow
  | cool k st => exact stepCool_flow
  | enqueue k i p st => exact stepEnqueue_flow
  | evict k t st => exact stepEvict_flow
  | mint i => exact stepMint_flow
  | bind i p => exact stepBind_flow
  | fill f st => exact stepFill_flow
  | checkin k i st => exact stepCheckin_flow
  | leave r => exact stepLeave_flow
  | guard g st => exact stepGuard_flow
  | submit s p st => exact stepSubmit_flow
  | task t st => exact stepTask_flow
  | unreserve running p st => exact stepUnreserve_flow
  | cooler st => exact stepCooler_flow
  | shutdown st => exact stepShutdown_flow
  | returned r => exact .none
  | panicked site => exact .none
  | stuck k => exact .none

/-! ### Into an eviction and into a filling -/

/-- Whether an agent is in `evict_ticket`, or is filling a frame. -/
def Pc.evicts : Pc → Bool
  | .evict _ _ _ => true
  | _ => false

def Pc.fills : Pc → Bool
  | .fill _ _ => true
  | _ => false

theorem FaultCtx.return_outside {k : FaultCtx} {r : FaultResult} :
    (k.return r).evicts = false ∧ (k.return r).fills = false := by
  unfold FaultCtx.return
  (repeat' split) <;> exact ⟨rfl, rfl⟩

theorem CoolCtx.return_outside {k : CoolCtx} : k.return.evicts = false ∧ k.return.fills = false := by
  cases k <;> exact ⟨rfl, rfl⟩

theorem EnqueueCtx.return_outside {k : EnqueueCtx} {i : Nat} :
    (k.return i).evicts = false ∧ (k.return i).fills = false := by
  cases k <;> exact ⟨rfl, rfl⟩

theorem EvictCtx.return_outside {k : EvictCtx} {t : CoolingTicket}
    {r : Except TierBufError EvictionOutcome} :
    (k.return t r).evicts = false ∧ (k.return t r).fills = false := by
  rcases r with e | outcome
  · cases k <;> exact ⟨rfl, rfl⟩
  · cases outcome <;> cases k <;> exact ⟨rfl, rfl⟩

theorem CheckinCtx.return_outside {k : CheckinCtx} :
    k.return.evicts = false ∧ k.return.fills = false := by
  cases k <;> exact ⟨rfl, rfl⟩

/-- An eviction is entered at its first stage. -/
theorem Flow.into_evict {k : EvictCtx} {t : CoolingTicket} {st' : EvictStage} (h : Flow pc pc')
    (hpc : pc' = .evict k t st') : (∃ st, pc = .evict k t st) ∨ st' = .exact .first .pid := by
  have hin : pc'.evicts = true := by rw [hpc]; rfl
  cases h with
  | evict =>
      cases hpc
      exact .inl ⟨_, rfl⟩
  | acquireEvict | coolerEvict | shutdownEvict =>
      cases hpc
      exact .inr rfl
  | faultReturn => exact absurd (FaultCtx.return_outside.1.symm.trans hin) Bool.false_ne_true
  | acquired => rename_i w _ _; cases w <;> cases hpc
  | acquireFailed => rename_i w _ _; cases w <;> cases hpc
  | coolReturn => exact absurd (CoolCtx.return_outside.1.symm.trans hin) Bool.false_ne_true
  | enqueueReturn => exact absurd (EnqueueCtx.return_outside.1.symm.trans hin) Bool.false_ne_true
  | evictReturn => exact absurd (EvictCtx.return_outside.1.symm.trans hin) Bool.false_ne_true
  | checkinReturn => exact absurd (CheckinCtx.return_outside.1.symm.trans hin) Bool.false_ne_true
  | _ => cases hpc

/-- A filling is entered at its first stage. -/
theorem Flow.into_fill {f : Filling} {st' : FillStage} (h : Flow pc pc') (hpc : pc' = .fill f st') :
    (∃ st, pc = .fill f st) ∨ st' = .lock := by
  have hin : pc'.fills = true := by rw [hpc]; rfl
  cases h with
  | fill =>
      cases hpc
      exact .inl ⟨_, rfl⟩
  | faultFill | bindFill =>
      cases hpc
      exact .inr rfl
  | acquired =>
      rename_i w _ _
      cases w with
      | allocate => cases hpc
      | demand k loc g =>
          cases hpc
          exact .inr rfl
  | acquireFailed => rename_i w _ _; cases w <;> cases hpc
  | faultReturn => exact absurd (FaultCtx.return_outside.2.symm.trans hin) Bool.false_ne_true
  | coolReturn => exact absurd (CoolCtx.return_outside.2.symm.trans hin) Bool.false_ne_true
  | enqueueReturn => exact absurd (EnqueueCtx.return_outside.2.symm.trans hin) Bool.false_ne_true
  | evictReturn => exact absurd (EvictCtx.return_outside.2.symm.trans hin) Bool.false_ne_true
  | checkinReturn => exact absurd (CheckinCtx.return_outside.2.symm.trans hin) Bool.false_ne_true
  | _ => cases hpc

/-! ### Steps of the pool -/

/-- The step behind a step of the pool. -/
theorem pool_next {s s' : PoolState} {l : Agent × Choice} (hs : (pool cfg).next s l = some s') :
    s.shared.step cfg l.2 l.1 (s.pcs l.1) = some (s'.shared, s'.pcs l.1) ∧
      ∀ b, b ≠ l.1 → s'.pcs b = s.pcs b := by
  rcases l with ⟨a, c⟩
  rcases Option.map_eq_some_iff.mp hs with ⟨⟨sh', pc'⟩, hstep, rfl⟩
  refine ⟨?_, fun b hb => update_of_ne hb _ _⟩
  change s.shared.step cfg c a (s.pcs a) = some (sh', update s.pcs a pc' a)
  rw [update_self]
  exact hstep

/-- An agent that takes no step of a run stays where it is. -/
theorem exec_others {b : Agent} (ls : List (Agent × Choice)) (s s' : PoolState)
    (hb : ∀ l ∈ ls, l.1 ≠ b) (hs : exec (pool cfg) s ls = some s') : s'.pcs b = s.pcs b := by
  induction ls generalizing s with
  | nil =>
      rw [exec, Option.some.injEq] at hs
      rw [hs]
  | cons l ls ih =>
      rw [exec] at hs
      split at hs
      · cases hs
      · rename_i s1 hnext
        have hrest := ih s1 (fun l hl => hb l (List.mem_cons_of_mem _ hl)) hs
        exact hrest.trans ((pool_next hnext).2 b (hb l (List.mem_cons_self ..)).symm)

/-- In a run of the agents below `n` the others have not started. -/
theorem idle_above {n : Nat} {s : PoolState} (hr : ReachableVia (pool cfg) (fun _ l => l.1 < n) s)
    {b : Agent} (hb : n ≤ b) : s.pcs b = .idle := by
  induction hr with
  | init hi =>
      rcases hi with ⟨budgets, rfl⟩
      rfl
  | @step s s' l _ hl hs ih =>
      have hne : b ≠ l.1 := by
        rintro rfl
        exact absurd hl (Nat.not_lt.mpr hb)
      exact ((pool_next hs).2 b hne).trans ih

end TierBuf
