import TierBuf.Core.Frame
import TierBuf.Fault.Coordinator

/-!
# The Shared State of a Buffer Manager

Everything that two threads of a `BufferManager` can both reach.

Frame metadata is kept one field at a time, as functions of the frame index,
so that a store to one atomic is an update of one function. The tiers are one
map from locations to stored pages: a `Location` names its tier, and a slot
holds a page exactly while its backend has it allocated.

Two fields are not in the program and no step reads them. `latest` records
what the last `write_with` left in a page, and `writtenBack` records which
pages some tier has ever accepted. Heat is left out: it only orders the
candidates of the cooler, which are taken in any order here.

## Main definitions

* `Config`: What is fixed when a manager is constructed.
* `Shared`: The state shared by its threads.
* `Shared.initial`: The state of a new manager.
* `Shared.acceptWrite`, `Shared.freeSlot`, `Shared.readSlot`: The contract of
  a tier backend.
-/

namespace TierBuf

open Function Ledger

/-- A party to a run: one call, with the guard it may return, or one prefetch
    request, with the task it may become. -/
abbrev Agent := Nat

inductive EvictionMode where
  | demand
  | watermark
  deriving DecidableEq, Repr

inductive AccessHint where
  | normal
  | scan
  | prefetch
  deriving DecidableEq, Repr

inductive FixSource where
  | dram
  | lowerTier
  deriving DecidableEq, Repr

/-- A page's backing location below DRAM. -/
structure Location where
  tierIndex : Nat
  offset : Nat
  deriving DecidableEq, Repr

structure CoolingTicket where
  frameIndex : Nat
  pid : PageId
  generation : Nat
  resident : ResidentAddr
  deriving DecidableEq, Repr

structure PrefetchMarker where
  resident : ResidentAddr
  generation : Nat
  deriving DecidableEq, Repr

/-- What is fixed when a manager is constructed. -/
structure Config extends Geometry where
  id : Nat
  id_pos : id ≠ 0
  tiers : List String
  tiers_pos : tiers ≠ []
  coolingTarget : Nat
  evictionMode : EvictionMode
  /-- The daily allowance of each tier that has a write budget. -/
  dailyAllowance : Nat → Nat

/-- `low_watermark`. -/
def Config.lowWatermark (cfg : Config) : Nat := max ((cfg.frameCount + 9) / 10) 1

def MAX_COOLING_SAMPLE : Nat := 64

def MAX_PREFETCH_IN_FLIGHT : Nat := 128

structure Shared where
  data : Nat → Page
  latch : Nat → HybridLatch
  pid : Nat → PageId
  ownerSwip : Nat → Option SwipId
  dirty : Nat → Bool
  generation : Nat → Nat
  pinControl : Nat → Nat
  free : List Nat
  freeMembership : Nat → Bool
  swips : SwipId → SwipInner
  /-- The next unused cell: cells are allocated in order. -/
  nextSwip : SwipId
  directory : PageId → Option Location
  pages : PageId → Option SwipId
  faults : PageId → FaultState
  nextPid : Nat
  cooling : List CoolingTicket
  sampleCursor : Nat
  faultInsThisEpoch : Nat
  exhaustedFrameRequest : Bool
  stopping : Bool
  /-- Background threads that are in the middle of a task or a cooling step. -/
  workers : Nat
  /-- Whether the background threads have been joined. -/
  joined : Bool
  /-- The queued prefetch tasks, oldest first. -/
  channel : List Agent
  prefetchInFlight : Nat
  prefetchPending : PageId → Bool
  prefetched : PageId → Option PrefetchMarker
  operationGate : RwState
  shutdownLock : Bool
  dramHits : Nat
  prefetchHits : Nat
  demandHits : Nat → Nat
  slots : Location → Option Page
  /-- `available_bytes` of each tier that has a write budget. -/
  budgets : Nat → Option Nat
  latest : PageId → Page
  writtenBack : PageId → Bool

namespace Shared

/-- The state of a new manager. -/
def initial (cfg : Config) (budgets : Nat → Option Nat) : Shared where
  data := fun _ => Page.zero
  latch := fun _ => .new
  pid := fun _ => PageId.INVALID
  ownerSwip := fun _ => none
  dirty := fun _ => false
  generation := fun _ => 0
  pinControl := fun _ => 0
  free := List.range cfg.frameCount
  freeMembership := fun _ => true
  swips := fun _ => { pid := 0, ownerId := 0, state := .evicted 0 }
  nextSwip := 0
  directory := fun _ => none
  pages := fun _ => none
  faults := fun _ => .initial
  nextPid := 0
  cooling := []
  sampleCursor := 0
  faultInsThisEpoch := 0
  exhaustedFrameRequest := false
  stopping := false
  workers := 0
  joined := false
  channel := []
  prefetchInFlight := 0
  prefetchPending := fun _ => false
  prefetched := fun _ => none
  operationGate := .shared 0
  shutdownLock := false
  dramHits := 0
  prefetchHits := 0
  demandHits := fun _ => 0
  slots := fun _ => none
  budgets := budgets
  latest := fun _ => Page.zero
  writtenBack := fun _ => false

/-! ### Tier backends

A backend is trusted for what its trait documents. A successful write returns
an offset that was not allocated, a read of an allocated offset returns the
bytes last written there, and freeing an offset makes it unreadable. -/

/-- A successful `TierBackend::write` of page `p`, or `none` where the offset
    was already allocated. -/
def acceptWrite (sh : Shared) (p : PageId) (loc : Location) (page : Page) : Option Shared :=
  match sh.slots loc with
  | some _ => none
  | none => some { sh with
      slots := update sh.slots loc (some page)
      writtenBack := update sh.writtenBack p true }

/-- `TierBackend::free`. -/
def freeSlot (sh : Shared) (loc : Location) : Shared :=
  { sh with slots := update sh.slots loc none }

/-- A successful `TierBackend::read`: the stored page, or anything at all
    where the offset is not allocated. -/
def readSlot (sh : Shared) (loc : Location) (garbage : Page) : Page :=
  (sh.slots loc).getD garbage

/-- `CoolingQueue::push_unique`. -/
def pushUnique (sh : Shared) (t : CoolingTicket) : Shared :=
  if t ∈ sh.cooling then sh else { sh with cooling := sh.cooling ++ [t] }

end Shared

end TierBuf
