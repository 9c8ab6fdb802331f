import TierBuf.Pool.Pc
import TierBuf.Transition

/-!
# Steps of a Buffer Manager

One function of the program at a time, one atomic operation a step.

A step reads or writes one atomic word, or runs one section under a mutex, a
read-write lock or an exclusive latch. Where the program spins or blocks the
step is not enabled. Where an assertion or an expectation of the program
fails the agent ends in `panicked`.

## Main definitions

* `Shared.stepFix`, `Shared.stepFault`, `Shared.stepAcquire`, `Shared.stepCool`,
  `Shared.stepEnqueue`, `Shared.stepEvict`, `Shared.stepFill`,
  `Shared.stepCheckin`, `Shared.stepGuard`, `Shared.stepSubmit`,
  `Shared.stepTask`, `Shared.stepCooler`, `Shared.stepShutdown`: The functions
  of the manager.
* `Shared.step`: One step from any program point.
* `pool`: The transition system of all agents.
-/

namespace TierBuf

open Function Ledger Transition

/-- A step of one agent: the shared state and the program point after it. -/
abbrev Stepped := Option (Shared × Pc)

/-! ### Where functions return to -/

/-- `fault` returns to its fix loop, `prefetch_fault` to the worker, which
    drops the task. -/
def FaultCtx.return (k : FaultCtx) (r : FaultResult) : Pc :=
  match k, r with
  | .demand c, .ok (some t) => .fix { c with faultedTier := c.faultedTier.or (some t) } .head
  | .demand c, .ok none => .fix c .head
  | .demand _, .error e => .leave (.failed e)
  | .prefetch t, _ => match t.checkout with
    | some i => .checkin (.task true t.pid) i .release
    | none => .unreserve true t.pid .pending

/-- `acquire_frame` returns frame `i`, reserved. -/
def AcquireCtx.acquired (w : AcquireCtx) (i : Nat) : Pc :=
  match w with
  | .allocate => .mint i
  | .demand c loc g => .fill ⟨.demand c loc g, i⟩ .lock

/-- `acquire_frame` returns an error. -/
def AcquireCtx.failed (w : AcquireCtx) (e : TierBufError) : Pc :=
  match w with
  | .allocate => .leave (.failed e)
  | .demand c _ g => .fault (.demand c) (.finish g (.error e))

def CoolCtx.return (k : CoolCtx) : Pc :=
  match k with
  | .acquire w n err => .acquire w (.attempts n err)
  | .background => .cooler .attempts

def EnqueueCtx.return (k : EnqueueCtx) (i : Nat) : Pc :=
  match k with
  | .fix c => .leave (.guard (c.guard i))
  | .cool k desired candidates => .cool k (.take desired candidates)

/-- The pass goes on to the next frame. -/
def FlushPass.next (f : FlushPass) : FlushPass :=
  { f with index := f.index + 1 }

def EvictCtx.return (k : EvictCtx) (t : CoolingTicket) (r : Except TierBufError EvictionOutcome) :
    Pc :=
  match k, r with
  | .acquire w n err m, .ok .freed => .acquire w (.popAfter n err m)
  | .acquire w n err m, .ok .busy => .acquire w (.pushBack n err m t)
  | .acquire w n err m, .ok .stale => .acquire w (.sweep n err m)
  | .acquire w n _ m, .error e => .acquire w (.sweep n (some e) m)
  | .background m, .ok .busy => .cooler (.pushBack m t)
  | .background m, _ => .cooler (.sweep m)
  | .flush f, .ok .freed => .shutdown (.flush { f.next with madeProgress := true })
  | .flush f, .ok _ => .shutdown (.flush f.next)
  | .flush _, .error e => .shutdown (.ungate (.error e))

def CheckinCtx.return (k : CheckinCtx) : Pc :=
  match k with
  | .allocate e => .leave (.failed e)
  | .demand c g e => .fault (.demand c) (.finish g (.error e))
  | .prefetch p s g e => .fault (.prefetch ⟨p, s, none⟩) (.finish g (.error e))
  | .task running p => .unreserve running p .pending

/-- What drops the checkout of a frame that could not be filled. -/
def FillCtx.abort (k : FillCtx) (e : TierBufError) : CheckinCtx :=
  match k with
  | .allocate _ _ => .allocate e
  | .demand c _ g => .demand c g e
  | .prefetch p s _ g => .prefetch p s g e

namespace Shared

variable (cfg : Config) (sh : Shared) (c : Choice)

/-! ### Operations on one word -/

def setPin (i w : Nat) : Shared := { sh with pinControl := update sh.pinControl i w }

def setLatch (i : Nat) (l : HybridLatch) : Shared := { sh with latch := update sh.latch i l }

def setSwip (s : SwipId) (cell : SwipInner) : Shared :=
  { sh with swips := update sh.swips s cell }

/-- `release` of a latch guard, then `pc`. -/
def unlatch (i : Nat) (exclusive : Bool) (pc : Pc) : Stepped :=
  match (sh.latch i).release exclusive with
  | some l => some (sh.setLatch i l, pc)
  | none => some (sh, .panicked .latchState)

/-- `lock_shared` or `lock_exclusive`, then `pc`. -/
def lockLatch (i : Nat) (exclusive : Bool) (pc : Pc) : Stepped :=
  match (sh.latch i).lock exclusive with
  | some l => some (sh.setLatch i l, pc)
  | none => none

/-- `Frame::unpin`, then `pc`. -/
def unpin (i : Nat) (pc : Pc) : Stepped :=
  match TierBuf.unpin (sh.pinControl i) with
  | some w => some (sh.setPin i w, pc)
  | none => some (sh, .panicked .unpin)

/-- `Frame::release_eviction`, then `pc`. -/
def releaseReservation (i : Nat) (pc : Pc) : Stepped :=
  match releaseEviction (sh.pinControl i) with
  | some w => some (sh.setPin i w, pc)
  | none => some (sh, .panicked .releaseEviction)

/-- The compare-and-swap of `pop_free` on the membership flag, then `pc`. -/
def leaveQueue (i : Nat) (pc : Pc) : Stepped :=
  if sh.freeMembership i then
    some ({ sh with freeMembership := update sh.freeMembership i false }, pc)
  else some (sh, .panicked .duplicateIndex)

/-- The compare-and-swap of `push_free` on the membership flag, then `pc`. -/
def enterQueue (i : Nat) (pc : Pc) : Stepped :=
  if cfg.frameCount ≤ i ∨ sh.freeMembership i then some (sh, .panicked .pushFree)
  else some ({ sh with freeMembership := update sh.freeMembership i true }, pc)

/-- The push of `push_free` onto the bounded queue, then `pc`. -/
def pushFree (i : Nat) (pc : Pc) : Stepped :=
  if sh.free.length < cfg.frameCount then some ({ sh with free := sh.free ++ [i] }, pc)
  else some (sh, .panicked .pushFree)

/-- The pop of `pop_free`: `found` goes on with the index, `empty` is where
    the queue has none. -/
def popFree (found : Nat → Pc) (empty : Pc) : Stepped :=
  match sh.free with
  | i :: rest => some ({ sh with free := rest }, found i)
  | [] => some (sh, empty)

/-- `Frame::clear_after_eviction`, one store at a time. -/
def stepClear (i : Nat) (back : ClearStage → Pc) (pc : Pc) : ClearStage → Stepped
  | .check => if isEvicting (sh.pinControl i) then some (sh, back .lock)
      else some (sh, .panicked .clearReservation)
  | .lock => sh.lockLatch i true (back .pid)
  | .pid => some ({ sh with pid := update sh.pid i PageId.INVALID }, back .owner)
  | .owner => some ({ sh with ownerSwip := update sh.ownerSwip i none }, back .dirty)
  | .dirty => some ({ sh with dirty := update sh.dirty i false }, back .unlock)
  | .unlock => sh.unlatch i true pc

/-! ### The prologue of an operation -/

/-- Up to the point where `allocate` acquires a frame or a fix enters its
    loop. -/
def stepEnter (op : Operation) : EnterStage → Stepped
  | .running => if sh.stopping then some (sh, .returned (.failed .shuttingDown))
      else some (sh, .enter op .gate)
  | .gate => match sh.operationGate with
    | .shared n => some ({ sh with operationGate := .shared (n + 1) }, .enter op .recheck)
    | .exclusive => none
  | .recheck => if sh.stopping then some (sh, .leave (.failed .shuttingDown))
      else match op with
        | .allocate => some (sh, .acquire .allocate .running)
        | .fix _ _ => some (sh, .enter op .validate)
  | .validate => match op with
    | .allocate => none
    | .fix s mode => if (sh.swips s).belongsTo cfg.id then
        some (sh, .fix ⟨s, (sh.swips s).pid, mode, false, none⟩ .head)
      else some (sh, .enter op .reject)
  | .reject => match op with
    | .allocate => none
    | .fix s _ => if (sh.pages (sh.swips s).pid).isSome then
        some (sh, .leave (.failed (.duplicateHandle (sh.swips s).pid)))
      else some (sh, .leave (.failed (.invalidPid (sh.swips s).pid)))

/-- The drop of the operation's gate guard, and the return. -/
def stepLeave (r : Ret) : Stepped :=
  match sh.operationGate with
  | .shared (n + 1) => some ({ sh with operationGate := .shared n }, match r with
      | .guard g => .guard g .live
      | .failed e => .returned (.failed e))
  | _ => none

/-! ### Fixing -/

/-- The loop of `fix_shared_with` and `fix_exclusive`. -/
def stepFix (k : FixCtx) : FixStage → Stepped
  | .head => if sh.stopping then some (sh, .leave (.failed .shuttingDown))
      else some (sh, .fix k .load)
  | .load => match (sh.swips k.swip).state with
    | .hot x | .cooling x => match cfg.indexOfResident x with
      | none => some (sh, .leave (.failed (.invalidPid k.pid)))
      | some i => some (sh, .fix k (.pin i))
    | .evicted observed =>
      if observed = k.pid then some (sh, .fault (.demand { k with faulted := true }) .running)
      else some (sh, .leave (.failed (.invalidPid observed)))
  | .pin i => match tryPin (sh.pinControl i) with
    | some w => some (sh.setPin i w, .fix k (.latch i))
    | none => some (sh, .fix k .head)
  | .latch i => sh.lockLatch i k.mode.isExclusive (.fix k (.exactState i))
  | .exactState i => some (sh, .fix k (.exactOwner i
      ((sh.swips k.swip).state.resident = some (cfg.residentAddr i))))
  | .exactOwner i state =>
    if state then some (sh, .fix k (.exactPid i (sh.ownerSwip i = some k.swip)))
    else some (sh, .fix k (.unlatch i))
  | .exactPid i owner =>
    if sh.pid i = k.pid ∧ owner then some (sh, .fix k (.resurrect i))
    else some (sh, .fix k (.unlatch i))
  | .unlatch i => sh.unlatch i k.mode.isExclusive (.fix k (.unpin i))
  | .unpin i => sh.unpin i (.fix k .head)
  | .resurrect i =>
    let pc := if k.consumes then Pc.fix k (.generation i) else .fix k (.count i)
    match (sh.swips k.swip).tryResurrect (cfg.residentAddr i) with
    | some cell => some (sh.setSwip k.swip cell, pc)
    | none => some (sh, pc)
  | .generation i => some (sh, .fix k (.consume i (sh.generation i)))
  | .consume i g => some ({ sh with prefetched := update sh.prefetched k.pid none },
      if sh.prefetched k.pid = some ⟨cfg.residentAddr i, g⟩ then .fix k (.hit i)
      else .fix k (.count i))
  | .hit i => some ({ sh with prefetchHits := sh.prefetchHits + 1 }, .fix k (.count i))
  | .count i =>
    let pc := if k.faulted ∧ ¬ k.mode.isExclusive then Pc.fix k (.admission i)
      else .leave (.guard (k.guard i))
    match k.faultedTier with
    | some t => some ({ sh with demandHits := update sh.demandHits t (sh.demandHits t + 1) }, pc)
    | none => some ({ sh with dramHits := sh.dramHits + 1 }, pc)
  | .admission i =>
    if c.ok then some (sh, .leave (.guard (k.guard i)))
    else match (sh.swips k.swip).tryMarkCooling (cfg.residentAddr i) with
      | some cell => some (sh.setSwip k.swip cell, .enqueue (.fix k) i k.pid .pid)
      | none => some (sh, .leave (.guard (k.guard i)))

/-! ### Faulting -/

/-- `fault` and `prefetch_fault` up to the acquisition of a frame, and the
    end of their leader. -/
def stepFault (k : FaultCtx) : FaultStage → Stepped
  | .running => if sh.stopping then some (sh, k.return (.error .shuttingDown))
      else some (sh, .fault k .lookup)
  | .lookup => match sh.pages k.pid with
    | none => some (sh, k.return (.error (.invalidPid k.pid)))
    | some s => if s = k.swip then some (sh, .fault k .enter)
      else some (sh, k.return (.error (.duplicateHandle k.pid)))
  | .enter => match (sh.faults k.pid).enter with
    | (.registered g, f) => some ({ sh with faults := update sh.faults k.pid f }, .fault k (.wait g))
    | (.deferred, f) => some ({ sh with faults := update sh.faults k.pid f }, .fault k .enter)
    | (.leader g, f) =>
      some ({ sh with faults := update sh.faults k.pid f }, .fault k (.leadRunning g))
  | .wait g => match (sh.faults k.pid).replay g with
    | (.notYet, f) => some ({ sh with faults := update sh.faults k.pid f }, .fault k (.wait g))
    | (.taken outcome _, f) =>
      some ({ sh with faults := update sh.faults k.pid f }, k.return outcome.intoResult)
    | (.underflow, _) => some (sh, .stuck k)
  | .leadRunning g =>
    if sh.stopping then some (sh, .fault k (.finish g (.error .shuttingDown)))
    else some (sh, .fault k (.leadLoad g))
  | .leadLoad g => match (sh.swips k.swip).state with
    | .hot _ | .cooling _ => some (sh, .fault k (.finish g (.ok none)))
    | .evicted observed =>
      if observed = k.pid then some (sh, .fault k (.leadLookup g))
      else some (sh, .fault k (.finish g (.error (.invalidPid observed))))
  | .leadLookup g => match sh.directory k.pid with
    | none => some (sh, .fault k (.finish g (.error (.invalidPid k.pid))))
    | some loc =>
      if cfg.tiers.length ≤ loc.tierIndex then
        some (sh, .fault k (.finish g (.error (.invalidConfig
          s!"page {k.pid} refers to missing tier {loc.tierIndex}"))))
      else match k with
        | .demand _ => some (sh, .fault k (.leadCount g loc))
        | .prefetch t => match t.checkout with
          | some i => some (sh, .fill ⟨.prefetch t.pid t.swip loc g, i⟩ .lock)
          | none => some (sh, .panicked .missingCheckout)
  | .leadCount g loc => match k with
    | .demand k' =>
      let count := if cfg.evictionMode = .demand then sh.faultInsThisEpoch + 1
        else sh.faultInsThisEpoch
      some ({ sh with faultInsThisEpoch := count }, .acquire (.demand k' loc g) .running)
    | .prefetch _ => none
  | .finish g r =>
    let f := (sh.faults k.pid).complete g (.fromResult r)
    some ({ sh with faults := update sh.faults k.pid f }, k.return r)

/-! ### Acquiring a frame -/

/-- `acquire_frame`, with `FreeFrame::from_index`. -/
def stepAcquire (w : AcquireCtx) : AcquireStage → Stepped
  | .running => if sh.stopping then some (sh, w.failed .shuttingDown)
      else some (sh, .acquire w .pop)
  | .pop => sh.popFree (fun i => .acquire w (.member i)) (.acquire w .request)
  | .member i => sh.leaveQueue i (.acquire w (.claim i))
  | .claim i => match tryClaimEviction (sh.pinControl i) with
    | some p => some (sh.setPin i p, w.acquired i)
    | none => none
  | .request => some ({ sh with exhaustedFrameRequest := true },
      .acquire w (.round ((cfg.frameCount + MAX_COOLING_SAMPLE - 1) / MAX_COOLING_SAMPLE + 2) none))
  | .round n err => match n with
    | 0 => some (sh, w.failed (err.getD .poolExhausted))
    | n + 1 => if sh.stopping then some (sh, w.failed .shuttingDown)
      else some (sh, .acquire w (.popRound n err))
  | .popRound n err =>
    sh.popFree (fun i => .acquire w (.member i)) (.cool (.acquire w n err) .desired)
  | .attempts n err => some (sh, .acquire w (.sweep n err sh.cooling.length))
  | .sweep n err m => match m, sh.cooling with
    | m + 1, t :: rest => some ({ sh with cooling := rest },
        .evict (.acquire w n err m) t (.exact .first .pid))
    | _, _ => some (sh, .acquire w (.round n err))
  | .popAfter n err m =>
    sh.popFree (fun i => .acquire w (.member i)) (.acquire w (.sweep n err m))
  | .pushBack n err m t => some (sh.pushUnique t, .acquire w (.sweep n err m))

/-! ### Cooling -/

/-- `enqueue_cold_candidates`. Its candidates are sorted by heat in the
    program and taken in any order here. -/
def stepCool (k : CoolCtx) : CoolStage → Stepped
  | .desired => some (sh, .cool k (.room (match k with
      | .acquire _ _ _ => max (sh.cooling.length + 1) cfg.coolingTarget
      | .background => cfg.coolingTarget)))
  | .room desired => if desired = 0 ∨ desired ≤ sh.cooling.length then some (sh, k.return)
      else some (sh, .cool k (.cursor desired))
  | .cursor desired =>
    let sampleCount := min cfg.frameCount MAX_COOLING_SAMPLE
    let start := sh.sampleCursor % cfg.frameCount
    some ({ sh with sampleCursor := (sh.sampleCursor + sampleCount) % 2 ^ 64 },
      .cool k (.sample desired
        ((List.range sampleCount).map (fun offset => (start + offset) % cfg.frameCount)) []))
  | .sample desired indices candidates => match indices with
    | [] => some (sh, .cool k (.take desired candidates))
    | i :: rest => if PageId.isValid (sh.pid i) then
        some (sh, .cool k (.samplePin desired i rest candidates))
      else some (sh, .cool k (.sample desired rest candidates))
  | .samplePin desired i indices candidates => if pinCount (sh.pinControl i) = 0 then
        some (sh, .cool k (.sampleEvicting desired i indices candidates))
      else some (sh, .cool k (.sample desired indices candidates))
  | .sampleEvicting desired i indices candidates => if isEvicting (sh.pinControl i) then
        some (sh, .cool k (.sample desired indices candidates))
      else some (sh, .cool k (.sample desired indices (candidates ++ [i])))
  | .take desired candidates => if candidates = [] ∨ desired ≤ sh.cooling.length then
        some (sh, k.return)
      else match c.pick.bind (fun n => candidates[n]?) with
        | some i => some (sh, .cool k (.pin desired i (candidates.erase i)))
        | none => none
  | .pin desired i candidates => if pinCount (sh.pinControl i) ≠ 0 then
        some (sh, .cool k (.take desired candidates))
      else some (sh, .cool k (.evicting desired i candidates))
  | .evicting desired i candidates => if isEvicting (sh.pinControl i) then
        some (sh, .cool k (.take desired candidates))
      else some (sh, .cool k (.pid desired i candidates))
  | .pid desired i candidates => some (sh, .cool k (.owner desired i (sh.pid i) candidates))
  | .owner desired i p candidates => match sh.ownerSwip i with
    | none => some (sh, .cool k (.take desired candidates))
    | some s => some (sh, .cool k (.load desired i p s candidates))
  | .load desired i p s candidates =>
    if (sh.swips s).state = .hot (cfg.residentAddr i) then
      some (sh, .cool k (.mark desired i p s candidates))
    else if (sh.swips s).state = .cooling (cfg.residentAddr i) then
      some (sh, .enqueue (.cool k desired candidates) i p .pid)
    else some (sh, .cool k (.take desired candidates))
  | .mark desired i p s candidates =>
    match (sh.swips s).tryMarkCooling (cfg.residentAddr i) with
    | some cell => some (sh.setSwip s cell, .enqueue (.cool k desired candidates) i p .pid)
    | none => some (sh, .cool k (.take desired candidates))

/-- `enqueue_ticket` for frame `i` and page `p`. -/
def stepEnqueue (k : EnqueueCtx) (i : Nat) (p : PageId) : EnqueueStage → Stepped
  | .pid => if sh.pid i = p then some (sh, .enqueue k i p .owner) else some (sh, k.return i)
  | .owner => match sh.ownerSwip i with
    | none => some (sh, k.return i)
    | some s => some (sh, .enqueue k i p (.state s))
  | .state s => if (sh.swips s).state = .cooling (cfg.residentAddr i) then
        some (sh, .enqueue k i p .generation)
      else some (sh, k.return i)
  | .generation => some (sh, .enqueue k i p (.push (sh.generation i)))
  | .push g => some (sh.pushUnique ⟨i, p, g, cfg.residentAddr i⟩, k.return i)

/-! ### Eviction -/

/-- One load of `exact_cooling_owner`: `fails` is where it returns `None`,
    `found` where it returns an owner. -/
def stepExact (t : CoolingTicket) (back : ExactStage → Pc) (fails : Pc) (found : SwipId → Pc) :
    ExactStage → Stepped
  | .pid => if cfg.frameCount ≤ t.frameIndex ∨ cfg.residentAddr t.frameIndex ≠ t.resident ∨
        sh.pid t.frameIndex ≠ t.pid then some (sh, fails)
      else some (sh, back .generation)
  | .generation => if sh.generation t.frameIndex ≠ t.generation then some (sh, fails)
      else some (sh, back .owner)
  | .owner => match sh.ownerSwip t.frameIndex with
    | none => some (sh, fails)
    | some s => some (sh, back (.state s))
  | .state s => if (sh.swips s).pid = t.pid ∧ (sh.swips s).state = .cooling t.resident then
        some (sh, back (.pages s))
      else some (sh, fails)
  | .pages s => if sh.pages t.pid = some s then some (sh, found s) else some (sh, fails)

/-- `evict_ticket`. -/
def stepEvict (k : EvictCtx) (t : CoolingTicket) : EvictStage → Stepped
  | .exact .first e => sh.stepExact cfg t (fun e => .evict k t (.exact .first e))
      (k.return t (.ok .stale)) (fun s => .evict k t (.claim s)) e
  | .claim s => match tryClaimEviction (sh.pinControl t.frameIndex) with
    | some w => some (sh.setPin t.frameIndex w, .evict k t (.lock s))
    | none => some (sh, k.return t (.ok .busy))
  | .lock s => sh.lockLatch t.frameIndex true (.evict k t (.exact (.second s) .pid))
  | .exact (.second s) e => sh.stepExact cfg t (fun e => .evict k t (.exact (.second s) e))
      (.evict k t (.samePid s))
      (fun s' => if s' = s then .evict k t (.backing s) else .evict k t (.samePid s)) e
  | .samePid s => if sh.pid t.frameIndex = t.pid then some (sh, .evict k t (.sameGeneration s))
      else some (sh, .evict k t (.exitUnlatch (.ok .stale)))
  | .sameGeneration s => if sh.generation t.frameIndex = t.generation then
        some (sh, .evict k t (.sameOwner s))
      else some (sh, .evict k t (.exitUnlatch (.ok .stale)))
  | .sameOwner s => if sh.ownerSwip t.frameIndex = some s then
        some (sh, .evict k t (.sameResurrect s))
      else some (sh, .evict k t (.exitUnlatch (.ok .stale)))
  | .sameResurrect s => match (sh.swips s).tryResurrect t.resident with
    | some cell => some (sh.setSwip s cell, .evict k t (.exitUnlatch (.ok .stale)))
    | none => some (sh, .evict k t (.exitUnlatch (.ok .stale)))
  | .backing s => some (sh, .evict k t (.dirty s (sh.directory t.pid)))
  | .dirty s old =>
    let v : Eviction := ⟨s, old, sh.dirty t.frameIndex, none, none⟩
    if v.wasDirty ∨ old = none then some (sh, .evict k t (.target v))
    else some (sh, .evict k t (.publish v))
  | .target v => some (sh, .evict k t (.tier v
      ((c.pick.filter (fun index => index < cfg.tiers.length)).getD 0) none))
  | .tier v index err => match cfg.tiers[index]? with
    | none => some (sh, .evict k t (.unwritten v (err.getD
        (.tierExhausted (cfg.tiers.getLast?.getD "unknown")))))
    | some name => match sh.budgets index with
      | none => some (sh, .evict k t (.write v index err))
      | some available => if PAGE_SIZE ≤ available then
          some ({ sh with budgets := update sh.budgets index (some (available - PAGE_SIZE)) },
            .evict k t (.write v index err))
        else some (sh, .evict k t (.tier v (index + 1) (some (.tierExhausted name))))
  | .write v index _ =>
    if c.ok then
      match sh.acceptWrite t.pid ⟨index, c.offset⟩ (sh.data t.frameIndex) with
      | some sh' => some (sh', .evict k t (.publish { v with new := some ⟨index, c.offset⟩ }))
      | none => none
    else some (sh, .evict k t (.tier v (index + 1) (some c.error)))
  | .unwritten v e => match (sh.swips v.swip).tryResurrect t.resident with
    | some cell => some (sh.setSwip v.swip cell, .evict k t (.exitUnlatch (.error e)))
    | none => some (sh, .evict k t (.exitUnlatch (.error e)))
  | .publish v => match v.new, v.old with
    | some loc, _ => some ({ sh with directory := update sh.directory t.pid (some loc) },
        .evict k t (.clean { v with previous := sh.directory t.pid }))
    | none, some _ => some (sh, .evict k t (.clean v))
    | none, none => some (sh, .panicked .missingBacking)
  | .clean v => some ({ sh with dirty := update sh.dirty t.frameIndex false },
      .evict k t (.unswizzle v))
  | .unswizzle v => match (sh.swips v.swip).tryUnswizzle t.resident t.pid with
    | some cell => some (sh.setSwip v.swip cell, .evict k t (.consume v))
    | none => some (sh, .evict k t (.restore v))
  | .restore v => match v.new with
    | some loc => some ({ sh with directory := update sh.directory t.pid v.previous },
        if v.previous = some loc then .evict k t (.redirty v) else .evict k t (.refree v))
    | none => some (sh, .evict k t (.redirty v))
  | .refree v => match v.new with
    | some loc => some (sh.freeSlot loc, .evict k t (.redirty v))
    | none => none
  | .redirty v => some ({ sh with dirty := update sh.dirty t.frameIndex v.wasDirty },
      .evict k t (.reresurrect v))
  | .reresurrect v => match (sh.swips v.swip).tryResurrect t.resident with
    | some cell => some (sh.setSwip v.swip cell, .evict k t (.exitUnlatch (.ok .stale)))
    | none => some (sh, .evict k t (.exitUnlatch (.ok .stale)))
  | .consume v => some ({ sh with prefetched := update sh.prefetched t.pid none },
      .evict k t (.unlatch v))
  | .unlatch v => sh.unlatch t.frameIndex true (.evict k t (.clear v .check))
  | .clear v e => sh.stepClear t.frameIndex (fun e => .evict k t (.clear v e))
      (.evict k t (.release v)) e
  | .release v => sh.releaseReservation t.frameIndex (.evict k t (.member v))
  | .member v => sh.enterQueue cfg t.frameIndex (.evict k t (.push v))
  | .push v => sh.pushFree cfg t.frameIndex (.evict k t (.freeOld v))
  | .freeOld v => match v.old with
    | some old => if some old ≠ v.replacement ∧ v.new.isSome ∧ old.tierIndex < cfg.tiers.length then
          some (sh.freeSlot old, k.return t (.ok .freed))
        else some (sh, k.return t (.ok .freed))
    | none => some (sh, k.return t (.ok .freed))
  | .exitUnlatch r => sh.unlatch t.frameIndex true (.evict k t (.exitRelease r))
  | .exitRelease r => sh.releaseReservation t.frameIndex (k.return t r)

/-! ### Filling a frame -/

/-- `allocate_pid`. -/
def stepMint (i : Nat) : Stepped :=
  if sh.nextPid ≤ PageId.MAX then
    some ({ sh with nextPid := sh.nextPid + 1 }, .bind i sh.nextPid)
  else some (sh, .checkin (.allocate
    (.invalidConfig "logical page identifier space exhausted")) i .release)

/-- `Swip::from_pid` and `try_bind_owner`, both on a cell no one else has. -/
def stepBind (i : Nat) (p : PageId) : Stepped :=
  match (SwipInner.fromPid p).tryBindOwner cfg.id with
  | some cell => some ({ sh.setSwip sh.nextSwip cell with nextSwip := sh.nextSwip + 1 },
      .fill ⟨.allocate p sh.nextSwip, i⟩ .lock)
  | none => some (sh, .panicked .bindOwner)

/-- `allocate`, `perform_demand_fault` and `perform_prefetch_fault` from the
    page write of the reserved frame on. -/
def stepFill (f : Filling) : FillStage → Stepped
  | .lock => sh.lockLatch f.index true (.fill f .write)
  | .write => match f.ctx with
    | .allocate _ _ => some ({ sh with data := update sh.data f.index Page.zero }, .fill f .unlock)
    | .demand _ loc _ | .prefetch _ _ loc _ =>
      if c.ok then
        some ({ sh with data := update sh.data f.index (sh.readSlot loc c.page) }, .fill f .unlock)
      else some ({ sh with data := update sh.data f.index c.page }, .fill f (.abort c.error))
  | .abort e => sh.unlatch f.index true (.checkin (f.ctx.abort e) f.index .release)
  | .unlock => sh.unlatch f.index true (.fill f .installCheck)
  | .installCheck => if ¬ PageId.isValid f.pid then some (sh, .panicked .installPid)
      else if isEvicting (sh.pinControl f.index) then some (sh, .fill f .installLock)
      else some (sh, .panicked .installReservation)
  | .installLock => sh.lockLatch f.index true (.fill f .owner)
  | .owner => some ({ sh with ownerSwip := update sh.ownerSwip f.index (some f.swip) },
      .fill f .clean)
  | .clean => some ({ sh with dirty := update sh.dirty f.index false }, .fill f .generation)
  | .generation =>
    let g := (sh.generation f.index + 1) % 2 ^ 32
    some ({ sh with generation := update sh.generation f.index g }, .fill f .pid)
  | .pid => some ({ sh with pid := update sh.pid f.index f.pid }, .fill f .installUnlock)
  | .installUnlock => sh.unlatch f.index true (match f.ctx with
      | .allocate _ _ => .fill f .dirty
      | _ => .fill f .publish)
  | .dirty => some ({ sh with dirty := update sh.dirty f.index true }, .fill f .publish)
  | .publish => match publishReservedPin (sh.pinControl f.index) with
    | some w => some (sh.setPin f.index w, match f.ctx with
        | .prefetch _ _ _ _ => .fill f .stamp
        | _ => .fill f (.swizzle none))
    | none => some (sh, .panicked .publishReservedPin)
  | .stamp => some (sh, .fill f (.mark (sh.generation f.index)))
  | .mark g =>
    let marker : PrefetchMarker := ⟨cfg.residentAddr f.index, g⟩
    some ({ sh with prefetched := update sh.prefetched f.pid (some marker) },
      .fill f (.swizzle (some marker)))
  | .swizzle marker =>
    match (sh.swips f.swip).trySwizzle f.pid (cfg.residentAddr f.index) with
    | some cell => some (sh.setSwip f.swip cell, match f.ctx with
        | .allocate _ _ => .fill f .latch
        | _ => .fill f .unpin)
    | none => some (sh, match marker with
        | some marker => .fill f (.unmark marker)
        | none => .fill f .failUnpin)
  | .unpin => match f.ctx with
    | .allocate _ _ => none
    | .demand k loc g =>
      sh.unpin f.index (.fault (.demand k) (.finish g (.ok (some loc.tierIndex))))
    | .prefetch p s loc g =>
      sh.unpin f.index (.fault (.prefetch ⟨p, s, none⟩) (.finish g (.ok (some loc.tierIndex))))
  | .latch => sh.lockLatch f.index true (.fill f .exactState)
  | .exactState => some (sh, .fill f (.exactOwner
      ((sh.swips f.swip).state.resident = some (cfg.residentAddr f.index))))
  | .exactOwner state =>
    if state then some (sh, .fill f (.exactPid (sh.ownerSwip f.index = some f.swip)))
    else some (sh, .panicked .revalidate)
  | .exactPid owner => if sh.pid f.index = f.pid ∧ owner then some (sh, .fill f .insert)
      else some (sh, .panicked .revalidate)
  | .insert => match sh.pages f.pid with
    | some _ => some (sh, .panicked .pidUnique)
    | none => some ({ sh with pages := update sh.pages f.pid (some f.swip) },
        .leave (.guard ⟨f.index, f.pid, f.swip, true, .dram⟩))
  | .unmark marker =>
    if sh.prefetched f.pid = some marker then
      some ({ sh with prefetched := update sh.prefetched f.pid none }, .fill f .failUnpin)
    else some (sh, .fill f .failUnpin)
  | .failUnpin => sh.unpin f.index (.fill f .failClaim)
  | .failClaim => match tryClaimEviction (sh.pinControl f.index) with
    | some w => some (sh.setPin f.index w, .fill f (.failClear .check))
    | none => some (sh, .panicked .unpublishedPinned)
  | .failClear e => sh.stepClear f.index (fun e => .fill f (.failClear e)) (.fill f .failRelease) e
  | .failRelease => sh.releaseReservation f.index
      (.checkin (f.ctx.abort .contended) f.index .member)

/-- The drop of a checked-out frame. -/
def stepCheckin (k : CheckinCtx) (i : Nat) : CheckinStage → Stepped
  | .release => sh.releaseReservation i (.checkin k i .member)
  | .member => sh.enterQueue cfg i (.checkin k i .push)
  | .push => sh.pushFree cfg i k.return

/-! ### Guards -/

/-- A guard in the hands of its user, and its drop. -/
def stepGuard (g : Guard) : GuardStage → Stepped
  | .live => match c.act with
    | .read => some (sh, .guard g .live)
    | .write => if g.isExclusive then
          some ({ sh with dirty := update sh.dirty g.index true }, .guard g .writing)
        else none
    | .drop => sh.unpin g.index (.guard g .unpinned)
  | .writing =>
    let page := c.write (sh.data g.index)
    some ({ sh with data := update sh.data g.index page, latest := update sh.latest g.pid page },
      .guard g .live)
  | .unpinned => sh.unlatch g.index g.isExclusive (.returned .done)

/-! ### Prefetching -/

/-- One handle of a call of `prefetch`, with `canonical_evicted_pid` and
    `OwnedFreeFrame::try_checkout`. -/
def stepSubmit (a : Agent) (s : SwipId) (p : PageId) : SubmitStage → Stepped
  | .stop => if sh.stopping then some (sh, .returned .done) else some (sh, .submit s p .owner)
  | .owner => if (sh.swips s).belongsTo cfg.id then some (sh, .submit s p .load)
      else some (sh, .returned .done)
  | .load => if (sh.swips s).state = .evicted p then some (sh, .submit s p .pages)
      else some (sh, .returned .done)
  | .pages => if sh.pages p = some s then some (sh, .submit s p .admission)
      else some (sh, .returned .done)
  | .admission => if c.ok then some (sh, .submit s p .pending) else some (sh, .returned .done)
  | .pending => if sh.prefetchPending p then some (sh, .returned .done)
      else some ({ sh with prefetchPending := update sh.prefetchPending p true },
        .submit s p .inFlight)
  | .inFlight => if sh.prefetchInFlight < MAX_PREFETCH_IN_FLIGHT then
        some ({ sh with prefetchInFlight := sh.prefetchInFlight + 1 }, .submit s p .pop)
      else some (sh, .submit s p .unpend)
  | .unpend => some ({ sh with prefetchPending := update sh.prefetchPending p false },
      .returned .done)
  | .pop => sh.popFree (fun i => .submit s p (.member i)) (.unreserve false p .pending)
  | .member i => sh.leaveQueue i (.submit s p (.claim i))
  | .claim i => match tryClaimEviction (sh.pinControl i) with
    | some w => some (sh.setPin i w, .submit s p (.recheck i))
    | none => some (sh, .checkin (.task false p) i .member)
  | .recheck i => if sh.stopping then some (sh, .checkin (.task false p) i .release)
      else some (sh, .submit s p (.send i))
  | .send i => if sh.channel.length < MAX_PREFETCH_IN_FLIGHT then
        some ({ sh with channel := sh.channel ++ [a] }, .task ⟨p, s, some i⟩ .queued)
      else some (sh, .checkin (.task false p) i .release)

/-- A worker receives a task and runs it. -/
def stepTask (a : Agent) (t : PrefetchTask) : TaskStage → Stepped
  | .queued => match sh.channel with
    | b :: rest => if b = a ∧ ¬ sh.joined then
          some ({ sh with channel := rest, workers := sh.workers + 1 }, .task t .check)
        else none
    | [] => none
  | .check => if ¬ sh.stopping then some (sh, .fault (.prefetch t) .running)
      else match t.checkout with
        | some i => some (sh, .checkin (.task true t.pid) i .release)
        | none => none

/-- The drop of a reservation; a worker then ends its iteration. -/
def stepUnreserve (running : Bool) (p : PageId) : UnreserveStage → Stepped
  | .pending => some ({ sh with prefetchPending := update sh.prefetchPending p false },
      .unreserve running p .inFlight)
  | .inFlight => match sh.prefetchInFlight with
    | 0 => some (sh, .panicked .inFlightUnderflow)
    | n + 1 => some ({ sh with prefetchInFlight := n },
        if running then .unreserve running p .retire else .returned .done)
  | .retire => some ({ sh with workers := sh.workers - 1 }, .returned .done)

/-! ### The background cooler -/

/-- One iteration of the cooler thread, with `background_cooling_step`. -/
def stepCooler : CoolerStage → Stepped
  | .stop => if sh.stopping then some (sh, .cooler .done) else some (sh, .cooler .step)
  | .step => if sh.stopping then some (sh, .cooler .done) else some (sh, .cooler .free)
  | .free => if cfg.lowWatermark ≤ sh.free.length ∨ cfg.coolingTarget = 0 then
        some (sh, .cooler .done)
      else some (sh, .cooler .exhausted)
  | .exhausted => some ({ sh with exhaustedFrameRequest := false },
      .cooler (.mode sh.exhaustedFrameRequest))
  | .mode exhausted =>
    if cfg.evictionMode = .demand ∧ sh.faultInsThisEpoch = 0 ∧ ¬ exhausted then
      some (sh, .cooler .done)
    else some (sh, .cooler .room)
  | .room => if sh.cooling.length < cfg.coolingTarget then some (sh, .cool .background .desired)
      else some (sh, .cooler .attempts)
  | .attempts => some (sh, .cooler (.sweep sh.cooling.length))
  | .sweep m => match m with
    | 0 => some (sh, .cooler .done)
    | m + 1 => if cfg.lowWatermark ≤ sh.free.length then some (sh, .cooler .done)
      else some (sh, .cooler (.pop m))
  | .pop m => match sh.cooling with
    | t :: rest => some ({ sh with cooling := rest }, .evict (.background m) t (.exact .first .pid))
    | [] => some (sh, .cooler .done)
  | .pushBack m t => some (sh.pushUnique t, .cooler (.sweep m))
  | .done => some ({ sh with workers := sh.workers - 1 }, .returned .done)

/-! ### Shutdown -/

/-- `shutdown`, with `join_workers` and `flush_resident_pages`. -/
def stepShutdown : ShutdownStage → Stepped
  | .lock => if sh.shutdownLock then none
      else some ({ sh with shutdownLock := true }, .shutdown .stop)
  | .stop => some ({ sh with stopping := true }, .shutdown .gate)
  | .gate => match sh.operationGate with
    | .shared 0 => some ({ sh with operationGate := .exclusive }, .shutdown .join)
    | _ => none
  | .join => if sh.workers = 0 then
        some ({ sh with joined := true }, .shutdown (.flush ⟨0, 0, false⟩))
      else none
  | .flush f =>
    if f.index < cfg.frameCount then
      if PageId.isValid (sh.pid f.index) then
        some (sh, .shutdown (.owner { f with resident := f.resident + 1 } (sh.pid f.index)))
      else some (sh, .shutdown (.flush f.next))
    else if f.resident = 0 then some (sh, .shutdown (.ungate (.ok ())))
    else if ¬ f.madeProgress ∧ ¬ c.ok then some (sh, .shutdown (.ungate (.error .contended)))
    else some (sh, .shutdown (.flush ⟨0, 0, false⟩))
  | .owner f p => match sh.ownerSwip f.index with
    | none => some (sh, .shutdown (.flush f.next))
    | some s => some (sh, .shutdown (.load f p s))
  | .load f p s =>
    if (sh.swips s).state = .hot (cfg.residentAddr f.index) then
      some (sh, .shutdown (.mark f p s))
    else if (sh.swips s).state = .cooling (cfg.residentAddr f.index) then
      some (sh, .shutdown (.generation f p))
    else some (sh, .shutdown (.flush f.next))
  | .mark f p s => match (sh.swips s).tryMarkCooling (cfg.residentAddr f.index) with
    | some cell => some (sh.setSwip s cell, .shutdown (.generation f p))
    | none => some (sh, .shutdown (.flush f.next))
  | .generation f p => some (sh, .evict (.flush f)
      ⟨f.index, p, sh.generation f.index, cfg.residentAddr f.index⟩ (.exact .first .pid))
  -- the ring may fail to shut down after everything has been flushed
  | .ungate r => some ({ sh with operationGate := .shared 0 }, .shutdown (.unlock
      (match r with
        | .ok () => if c.ok then .ok () else .error c.error
        | .error e => .error e)))
  | .unlock r => some ({ sh with shutdownLock := false }, .returned (.shutdown r))

/-! ### All program points -/

/-- What an agent that has not started can start. -/
def stepIdle : Stepped :=
  match c.call with
  | .allocate => some (sh, .enter .allocate .running)
  | .fix s mode => if s < sh.nextSwip then some (sh, .enter (.fix s mode) .running) else none
  | .prefetch s => if s < sh.nextSwip then some (sh, .submit s (sh.swips s).pid .stop) else none
  | .cooler => if sh.joined then none
      else some ({ sh with workers := sh.workers + 1 }, .cooler .stop)
  | .shutdown => some (sh, .shutdown .lock)
  | .fromPid p => some ({ sh.setSwip sh.nextSwip (.fromPid p) with
      nextSwip := sh.nextSwip + 1 }, .returned .done)
  | .tick tier added =>
    let refill := fun available => min (available + added) (cfg.dailyAllowance tier)
    some ({ sh with budgets := update sh.budgets tier ((sh.budgets tier).map refill) },
      .returned .done)
  | .epoch => some ({ sh with faultInsThisEpoch := 0 }, .returned .done)

/-- One step of agent `a` from program point `pc`. -/
def step (a : Agent) : Pc → Stepped
  | .idle => sh.stepIdle cfg c
  | .enter op st => sh.stepEnter cfg op st
  | .fix k st => sh.stepFix cfg c k st
  | .fault k st => sh.stepFault cfg k st
  | .acquire w st => sh.stepAcquire cfg w st
  | .cool k st => sh.stepCool cfg c k st
  | .enqueue k i p st => sh.stepEnqueue cfg k i p st
  | .evict k t st => sh.stepEvict cfg c k t st
  | .mint i => sh.stepMint i
  | .bind i p => sh.stepBind cfg i p
  | .fill f st => sh.stepFill cfg c f st
  | .checkin k i st => sh.stepCheckin cfg k i st
  | .leave r => sh.stepLeave r
  | .guard g st => sh.stepGuard c g st
  | .submit s p st => sh.stepSubmit cfg c a s p st
  | .task t st => sh.stepTask a t st
  | .unreserve running p st => sh.stepUnreserve running p st
  | .cooler st => sh.stepCooler cfg st
  | .shutdown st => sh.stepShutdown cfg c st
  | .returned _ => none
  | .panicked _ => none
  | .stuck _ => none

end Shared

/-- A state of the manager and all its agents. -/
structure PoolState where
  shared : Shared
  pcs : Agent → Pc

/-- One step of one agent. -/
def PoolState.next (cfg : Config) (s : PoolState) : Agent × Choice → Option PoolState
  | (a, c) => (s.shared.step cfg c a (s.pcs a)).map
      (fun r => { shared := r.1, pcs := update s.pcs a r.2 })

/-- The state of a new manager: no agent has started. -/
def PoolState.initial (cfg : Config) (budgets : Nat → Option Nat) : PoolState :=
  { shared := Shared.initial cfg budgets, pcs := fun _ => .idle }

/-- A buffer manager under every schedule. -/
def pool (cfg : Config) : System PoolState (Agent × Choice) :=
  { init := fun s => ∃ budgets, s = PoolState.initial cfg budgets, next := PoolState.next cfg }

end TierBuf
