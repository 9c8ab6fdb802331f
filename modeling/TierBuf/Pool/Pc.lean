import TierBuf.Pool.Shared

/-!
# Program Points

Where an agent is, between two of its atomic steps.

A program point is a stage of one function of the manager together with the
local variables that are live there. A function that is called from several
places carries its caller as a context: `evict_ticket` runs under
`acquire_frame`, under the cooler and under the shutdown flush, and
`acquire_frame` itself runs under `allocate` and under a demand fault. The
context is what the function returns into.

## Main definitions

* `Guard`, `FixCtx`, `PrefetchTask`: The records of the operations.
* `FaultCtx`, `AcquireCtx`, `CoolCtx`, `EvictCtx`, `CheckinCtx`: Callers.
* `Pc`: The program points.
* `Choice`: What a step does not decide by itself.
-/

namespace TierBuf

/-- How a fix latches its frame. -/
inductive FixMode where
  | shared (hint : AccessHint)
  | exclusive

def FixMode.isExclusive : FixMode → Bool
  | .shared _ => false
  | .exclusive => true

/-- `SharedGuard` and `ExclusiveGuard`. -/
structure Guard where
  index : Nat
  pid : PageId
  swip : SwipId
  isExclusive : Bool
  source : FixSource

/-- The locals of the loop of `fix_shared_with` and `fix_exclusive`. -/
structure FixCtx where
  swip : SwipId
  pid : PageId
  mode : FixMode
  faulted : Bool
  faultedTier : Option Nat

/-- The guard the fix loop returns for frame `index`. -/
def FixCtx.guard (c : FixCtx) (index : Nat) : Guard where
  index := index
  pid := c.pid
  swip := c.swip
  isExclusive := c.mode.isExclusive
  source := if c.faultedTier.isSome then .lowerTier else .dram

/-- Whether a fix looks for a prefetch marker. -/
def FixCtx.consumes (c : FixCtx) : Bool :=
  !c.faulted && match c.mode with
    | .shared .prefetch => false
    | _ => true

structure PrefetchTask where
  pid : PageId
  swip : SwipId
  checkout : Option Nat

/-- The caller of the fault coordinator: `fault` or `prefetch_fault`. -/
inductive FaultCtx where
  | demand (c : FixCtx)
  | prefetch (t : PrefetchTask)

def FaultCtx.pid : FaultCtx → PageId
  | .demand c => c.pid
  | .prefetch t => t.pid

def FaultCtx.swip : FaultCtx → SwipId
  | .demand c => c.swip
  | .prefetch t => t.swip

/-- The caller of `acquire_frame`: `allocate`, or the leader of fault
    generation `g`. -/
inductive AcquireCtx where
  | allocate
  | demand (c : FixCtx) (loc : Location) (g : Nat)

/-- The caller of `enqueue_cold_candidates`; `acquire_frame` has `n` rounds
    left and `err` is its last error. -/
inductive CoolCtx where
  | acquire (w : AcquireCtx) (n : Nat) (err : Option TierBufError)
  | background

/-- The caller of `enqueue_ticket`. -/
inductive EnqueueCtx where
  | fix (c : FixCtx)
  | cool (k : CoolCtx) (desired : Nat) (candidates : List Nat)

/-- One pass of `flush_resident_pages` over the frames. -/
structure FlushPass where
  index : Nat
  resident : Nat
  madeProgress : Bool

/-- The caller of `evict_ticket`; `attempts` tickets may still be popped. -/
inductive EvictCtx where
  | acquire (w : AcquireCtx) (n : Nat) (err : Option TierBufError) (attempts : Nat)
  | background (attempts : Nat)
  | flush (f : FlushPass)

inductive EvictionOutcome where
  | freed
  | stale
  | busy

/-- What drops a `FreeFrame` or an `OwnedFreeFrame` without committing it. A
    task is dropped by a worker or by the submitting call. -/
inductive CheckinCtx where
  | allocate (e : TierBufError)
  | demand (c : FixCtx) (g : Nat) (e : TierBufError)
  | prefetch (p : PageId) (s : SwipId) (g : Nat) (e : TierBufError)
  | task (running : Bool) (pid : PageId)

/-- Who fills a reserved frame: `allocate` with its new page and cell, or the
    leader of fault generation `g`. A prefetch has taken the checkout out of
    its task. -/
inductive FillCtx where
  | allocate (p : PageId) (s : SwipId)
  | demand (c : FixCtx) (loc : Location) (g : Nat)
  | prefetch (p : PageId) (s : SwipId) (loc : Location) (g : Nat)

/-- A reserved frame on its way to becoming the residence of a page. -/
structure Filling where
  ctx : FillCtx
  index : Nat

def Filling.pid (f : Filling) : PageId :=
  match f.ctx with
  | .allocate p _ => p
  | .demand c _ _ => c.pid
  | .prefetch p _ _ _ => p

def Filling.swip (f : Filling) : SwipId :=
  match f.ctx with
  | .allocate _ s => s
  | .demand c _ _ => c.swip
  | .prefetch _ s _ _ => s

/-- The locals of `evict_ticket` after its revalidation. `previous` is what
    `PageDirectory::insert` returned. -/
structure Eviction where
  swip : SwipId
  old : Option Location
  wasDirty : Bool
  new : Option Location
  previous : Option Location

/-- `new_location.or(old_location)`. -/
def Eviction.replacement (v : Eviction) : Option Location := v.new.or v.old

/-! ### Stages -/

inductive Operation where
  | allocate
  | fix (s : SwipId) (mode : FixMode)

inductive EnterStage where
  | running
  | gate
  | recheck
  | validate
  | reject

inductive FixStage where
  | head
  | load
  | pin (i : Nat)
  | latch (i : Nat)
  | exactState (i : Nat)
  | exactOwner (i : Nat) (state : Bool)
  | exactPid (i : Nat) (owner : Bool)
  | unlatch (i : Nat)
  | unpin (i : Nat)
  | resurrect (i : Nat)
  | generation (i : Nat)
  | consume (i : Nat) (generation : Nat)
  | hit (i : Nat)
  | count (i : Nat)
  | admission (i : Nat)

inductive FaultStage where
  | running
  | lookup
  | enter
  | wait (g : Nat)
  | leadRunning (g : Nat)
  | leadLoad (g : Nat)
  | leadLookup (g : Nat)
  | leadCount (g : Nat) (loc : Location)
  | finish (g : Nat) (r : FaultResult)

inductive AcquireStage where
  | running
  | pop
  | member (i : Nat)
  | claim (i : Nat)
  | request
  | round (n : Nat) (err : Option TierBufError)
  | popRound (n : Nat) (err : Option TierBufError)
  | attempts (n : Nat) (err : Option TierBufError)
  | sweep (n : Nat) (err : Option TierBufError) (attempts : Nat)
  | popAfter (n : Nat) (err : Option TierBufError) (attempts : Nat)
  | pushBack (n : Nat) (err : Option TierBufError) (attempts : Nat) (t : CoolingTicket)

/-- `sample` goes over the sampled indices and collects candidates, `take`
    goes over the candidates. -/
inductive CoolStage where
  | desired
  | room (desired : Nat)
  | cursor (desired : Nat)
  | sample (desired : Nat) (indices candidates : List Nat)
  | samplePin (desired i : Nat) (indices candidates : List Nat)
  | sampleEvicting (desired i : Nat) (indices candidates : List Nat)
  | take (desired : Nat) (candidates : List Nat)
  | pin (desired i : Nat) (candidates : List Nat)
  | evicting (desired i : Nat) (candidates : List Nat)
  | pid (desired i : Nat) (candidates : List Nat)
  | owner (desired i : Nat) (p : PageId) (candidates : List Nat)
  | load (desired i : Nat) (p : PageId) (s : SwipId) (candidates : List Nat)
  | mark (desired i : Nat) (p : PageId) (s : SwipId) (candidates : List Nat)

inductive EnqueueStage where
  | pid
  | owner
  | state (s : SwipId)
  | generation
  | push (generation : Nat)

/-- The two calls of `exact_cooling_owner`; the second compares its owner with
    that of the first. -/
inductive Pass where
  | first
  | second (s : SwipId)

inductive ExactStage where
  | pid
  | generation
  | owner
  | state (s : SwipId)
  | pages (s : SwipId)

/-- `clear_after_eviction`. -/
inductive ClearStage where
  | check
  | lock
  | pid
  | owner
  | dirty
  | unlock

inductive EvictStage where
  | exact (pass : Pass) (e : ExactStage)
  | claim (s : SwipId)
  | lock (s : SwipId)
  | samePid (s : SwipId)
  | sameGeneration (s : SwipId)
  | sameOwner (s : SwipId)
  | sameResurrect (s : SwipId)
  | backing (s : SwipId)
  | dirty (s : SwipId) (old : Option Location)
  | target (v : Eviction)
  | tier (v : Eviction) (index : Nat) (err : Option TierBufError)
  | write (v : Eviction) (index : Nat) (err : Option TierBufError)
  | unwritten (v : Eviction) (e : TierBufError)
  | publish (v : Eviction)
  | clean (v : Eviction)
  | unswizzle (v : Eviction)
  | restore (v : Eviction)
  | refree (v : Eviction)
  | redirty (v : Eviction)
  | reresurrect (v : Eviction)
  | consume (v : Eviction)
  | unlatch (v : Eviction)
  | clear (v : Eviction) (c : ClearStage)
  | release (v : Eviction)
  | member (v : Eviction)
  | push (v : Eviction)
  | freeOld (v : Eviction)
  | exitUnlatch (r : Except TierBufError EvictionOutcome)
  | exitRelease (r : Except TierBufError EvictionOutcome)

/-- From the page write of a reserved frame to its publication. The stages
    from `unmark` on are the failure of `try_swizzle`. -/
inductive FillStage where
  | lock
  | write
  | abort (e : TierBufError)
  | unlock
  | installCheck
  | installLock
  | owner
  | clean
  | generation
  | pid
  | installUnlock
  | dirty
  | publish
  | stamp
  | mark (generation : Nat)
  | swizzle (marker : Option PrefetchMarker)
  | unpin
  | latch
  | exactState
  | exactOwner (state : Bool)
  | exactPid (owner : Bool)
  | insert
  | unmark (marker : PrefetchMarker)
  | failUnpin
  | failClaim
  | failClear (c : ClearStage)
  | failRelease

inductive CheckinStage where
  | release
  | member
  | push

inductive GuardStage where
  | live
  /-- `write_with` has set the dirty flag. -/
  | writing
  /-- `Drop` has removed the pin; the latch field is still to be dropped. -/
  | unpinned

inductive SubmitStage where
  | stop
  | owner
  | load
  | pages
  | admission
  | pending
  | inFlight
  | unpend
  | pop
  | member (i : Nat)
  | claim (i : Nat)
  | recheck (i : Nat)
  | send (i : Nat)

inductive TaskStage where
  | queued
  | check

/-- The drop of a `PrefetchReservation`, and of the worker's iteration. -/
inductive UnreserveStage where
  | pending
  | inFlight
  | retire

inductive CoolerStage where
  | stop
  | step
  | free
  | exhausted
  | mode (exhausted : Bool)
  | room
  | attempts
  | sweep (attempts : Nat)
  | pop (attempts : Nat)
  | pushBack (attempts : Nat) (t : CoolingTicket)
  | done

inductive ShutdownStage where
  | lock
  | stop
  | gate
  | join
  | flush (f : FlushPass)
  | owner (f : FlushPass) (p : PageId)
  | load (f : FlushPass) (p : PageId) (s : SwipId)
  | mark (f : FlushPass) (p : PageId) (s : SwipId)
  | generation (f : FlushPass) (p : PageId)
  | ungate (r : Except TierBufError Unit)
  | unlock (r : Except TierBufError Unit)

/-! ### Program points -/

/-- What `allocate` and the fixes return. -/
inductive Ret where
  | guard (g : Guard)
  | failed (e : TierBufError)

/-- How an agent has ended. -/
inductive Returned where
  | done
  | failed (e : TierBufError)
  | shutdown (r : Except TierBufError Unit)

/-- The assertions and expectations of the pool. -/
inductive PanicSite where
  | unpin
  | releaseEviction
  | publishReservedPin
  | installPid
  | installReservation
  | clearReservation
  | duplicateIndex
  | pushFree
  | bindOwner
  | revalidate
  | pidUnique
  | missingBacking
  | missingCheckout
  | unpublishedPinned
  | inFlightUnderflow
  | latchState

inductive Pc where
  | idle
  | enter (op : Operation) (st : EnterStage)
  | fix (c : FixCtx) (st : FixStage)
  | fault (k : FaultCtx) (st : FaultStage)
  | acquire (w : AcquireCtx) (st : AcquireStage)
  | cool (k : CoolCtx) (st : CoolStage)
  | enqueue (k : EnqueueCtx) (i : Nat) (p : PageId) (st : EnqueueStage)
  | evict (k : EvictCtx) (t : CoolingTicket) (st : EvictStage)
  | mint (i : Nat)
  | bind (i : Nat) (p : PageId)
  | fill (f : Filling) (st : FillStage)
  | checkin (k : CheckinCtx) (i : Nat) (st : CheckinStage)
  | leave (r : Ret)
  | guard (g : Guard) (st : GuardStage)
  | submit (s : SwipId) (p : PageId) (st : SubmitStage)
  | task (t : PrefetchTask) (st : TaskStage)
  | unreserve (running : Bool) (p : PageId) (st : UnreserveStage)
  | cooler (st : CoolerStage)
  | shutdown (st : ShutdownStage)
  | returned (r : Returned)
  | panicked (site : PanicSite)
  /-- The expectation on `remaining_waiters` failed under this caller. -/
  | stuck (k : FaultCtx)

/-! ### Choices -/

/-- What an idle agent can start. -/
inductive Call where
  | allocate
  | fix (s : SwipId) (mode : FixMode)
  | prefetch (s : SwipId)
  | cooler
  | shutdown
  /-- A user builds a handle of its own. -/
  | fromPid (p : PageId)
  /-- The budget of one tier is refilled. -/
  | tick (tier : Nat) (added : Nat)
  | epoch

inductive GuardAct where
  | read
  | write
  | drop

/-- What a step does not decide by itself: what the user asks for, what the
    policy, the clock and the tiers answer. -/
structure Choice where
  call : Call := .epoch
  ok : Bool := true
  error : TierBufError := .contended
  offset : Nat := 0
  pick : Option Nat := none
  page : Page := Page.zero
  write : Page → Page := id
  act : GuardAct := .read

end TierBuf
