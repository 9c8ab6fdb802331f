import TierBuf.Pool.Role

/-!
# The Invariant

What holds of a manager and the roles of its agents at every moment.

The invariant has several parts. `Pins`, `Latches`, `Gate`, `Leads` and
`Background` say that the words of the program count the holders they should.
`Queue` and `Places` say where every
frame index is. `Cells` says what the Swips and the page table mean, `Storage`
what the tier slots are for, and `Sound` what each agent may rely on.

The last three read only a part of the shared state, the `Store`. A step that
leaves the store alone keeps them for free.

## Main definitions

* `Store`: The part of the shared state that pages are made of.
* `Pins`, `Latches`, `Gate`, `Leads`, `Background`, `Queue`, `Places`,
  `Cells`, `Storage`, `Sound`: The parts of the invariant.
* `Inv`: The invariant.

-/

namespace TierBuf

open Function Ledger

/-- The part of the shared state that pages are made of. -/
structure Store where
  data : Nat → Page
  pid : Nat → PageId
  ownerSwip : Nat → Option SwipId
  dirty : Nat → Bool
  swips : SwipId → SwipInner
  nextSwip : SwipId
  directory : PageId → Option Location
  pages : PageId → Option SwipId
  nextPid : Nat
  slots : Location → Option Page
  latest : PageId → Page
  writtenBack : PageId → Bool
  stopping : Bool
  joined : Bool

def Shared.store (sh : Shared) : Store where
  data := sh.data
  pid := sh.pid
  ownerSwip := sh.ownerSwip
  dirty := sh.dirty
  swips := sh.swips
  nextSwip := sh.nextSwip
  directory := sh.directory
  pages := sh.pages
  nextPid := sh.nextPid
  slots := sh.slots
  latest := sh.latest
  writtenBack := sh.writtenBack
  stopping := sh.stopping
  joined := sh.joined

/-- The part of the shared state that agents synchronise on. -/
structure Words where
  pinControl : Nat → Nat
  latch : Nat → HybridLatch
  gate : RwState
  faults : PageId → FaultState
  inFlight : Nat
  workers : Nat
  joined : Bool
  stopping : Bool
  free : List Nat
  membership : Nat → Bool

def Shared.words (sh : Shared) : Words where
  pinControl := sh.pinControl
  latch := sh.latch
  gate := sh.operationGate
  faults := sh.faults
  inFlight := sh.prefetchInFlight
  workers := sh.workers
  joined := sh.joined
  stopping := sh.stopping
  free := sh.free
  membership := sh.freeMembership

namespace Store

variable (cfg : Config) (st : Store)

/-- The directory names a slot with the latest bytes of the page. -/
def Backed (p : PageId) : Prop :=
  ∃ loc, st.directory p = some loc ∧ st.slots loc = some (st.latest p)

/-- The cell's word is resident in frame `i`. -/
def Resides (s : SwipId) (i : Nat) : Prop :=
  (st.swips s).state.resident = some (cfg.residentAddr i)

/-- The cell belongs to the manager. -/
def Bound (s : SwipId) : Prop :=
  (st.swips s).ownerId = cfg.id

end Store

/-! ### What an agent relies on -/

section Soundness

variable (cfg : Config) (st : Store)

def Draft.Sound (i : Nat) (d : Draft) : Prop :=
  (d.data = true → st.data i = st.latest d.pid) ∧
  (d.owner = true → st.ownerSwip i = some d.swip) ∧
  (d.named = true → st.pid i = d.pid) ∧
  (d.dirty = true → st.dirty i = true)

/-- The Swip is `Cooling` in frame `i`; the rest is what the stage adds. -/
def Victim.Sound (p : PageId) (s : SwipId) : Victim → Prop
  | .seen => (st.swips s).pid = p
  | .exact => st.pages p = some s
  | .backed old => st.pages p = some s ∧ st.directory p = old
  | .writing old tier => st.pages p = some s ∧ st.directory p = old ∧ tier < cfg.tiers.length
  | .written old new => st.pages p = some s ∧ st.directory p = old ∧
    st.slots new = some (st.latest p)
  | .published => st.pages p = some s ∧ st.Backed p

def Tenure.Sound : Tenure → Prop
  | .occupant i s _ => st.Resides cfg s i
  | .writer i s => st.Resides cfg s i ∧ st.dirty i = true
  | .victim i p s v => (st.swips s).state = .cooling (cfg.residentAddr i) ∧ v.Sound cfg st p s
  | .owned i _ _ _ (some d) => d.Sound st i
  | .published i d => d.Sound st i
  | .absurd => False
  | _ => True

def Warrant.Sound : Warrant → Prop
  | .none => True
  | .handle p s => st.Bound cfg s ∧ (st.swips s).pid = p
  | .listed p s => st.pages p = some s
  | .leading p s => st.pages p = some s
  | .evicted p s => st.pages p = some s ∧ (st.swips s).state = .evicted p
  | .located p s loc => st.pages p = some s ∧ (st.swips s).state = .evicted p ∧
    st.directory p = some loc
  | .minted p => p < st.nextPid ∧ st.pages p = Option.none ∧ st.directory p = Option.none ∧
    st.latest p = Page.zero ∧ ∀ s, st.Bound cfg s → (st.swips s).pid ≠ p
  | .fresh p s => st.pages p = Option.none ∧ st.directory p = Option.none ∧ st.latest p = Page.zero ∧
    st.Bound cfg s ∧ (st.swips s).pid = p ∧ (st.swips s).state = .evicted p
  | .unlisted p s => st.pages p = Option.none ∧ st.Bound cfg s ∧ (st.swips s).pid = p

/-- No page is resident in a frame below the bound. -/
def Store.Swept (n : Nat) : Prop :=
  ∀ i, i < n → ∀ s, ¬ st.Resides cfg s i

def Post.Sound : Post → Prop
  | .stopped => st.stopping = true
  | .draining => st.stopping = true
  | .flushing Option.none => st.joined = true
  | .flushing (some n) => st.joined = true ∧ st.Swept cfg n
  | .flushed => st.joined = true ∧ st.Swept cfg cfg.frameCount
  | .absurd => False
  | _ => True

/-- The draft of a frame the agent fills. -/
def Tenure.draft : Tenure → Option Draft
  | .owned _ _ _ _ d => d
  | .published _ d => some d
  | _ => Option.none

/-- The unpublished slot of a victim. -/
def Tenure.newSlot : Tenure → Option Location
  | .victim _ _ _ (.written _ new) => some new
  | _ => Option.none

structure Sound (r : Role) : Prop where
  tenure : r.tenure.Sound cfg st
  warrant : r.warrant.Sound cfg st
  post : r.post.Sound cfg st
  /-- Only an operation or a worker leads a fault or makes a page. -/
  active : r.warrant.lead ≠ none ∨ r.warrant.mint ≠ none → r.post.active = true
  /-- A draft is for the page of the warrant. -/
  draft : ∀ d, r.tenure.draft = some d →
    (∃ loc, r.warrant = .located d.pid d.swip loc) ∨ r.warrant = .fresh d.pid d.swip
  slot : ∀ l, r.tenure.newSlot = some l → r.slot = some l
  checked : r.checked

end Soundness

/-! ### The parts of the invariant -/

/-- Pin words count their holders. -/
structure Pins (pinControl : Nat → Nat) (R : Agent → Role) : Prop where
  table : Table (fun i => pinState (pinControl i)) (fun a => (R a).tenure.pin)
    (fun a => (R a).tenure.reservation)
  bounded : ∀ i, pinControl i ≤ EVICTING

/-- Latches count their holders. -/
def Latches (latch : Nat → HybridLatch) (R : Agent → Role) : Prop :=
  Table (fun i => (latch i).state) (fun a => (R a).tenure.shared)
    (fun a => (R a).tenure.exclusive)

/-- The operation gate counts its holders. -/
def Gate (gate : RwState) (R : Agent → Role) : Prop :=
  Table (fun _ : Unit => gate) (fun a => (R a).post.gate) (fun a => (R a).post.writeGate)

/-- A fault is active exactly while one agent leads it. -/
structure Leads (faults : PageId → FaultState) (R : Agent → Role) : Prop where
  active : ∀ p, (faults p).active.isSome = true ↔ ∃ a, (R a).warrant.lead = some p
  leader : Sole (fun a => (R a).warrant.lead)

/-- The counts of prefetch requests and of busy workers, and what joining the
    workers means: nothing makes pages resident any more. -/
structure Background (inFlight workers : Nat) (joined stopping : Bool) (R : Agent → Role) :
    Prop where
  flights : tally (fun a => (R a).inFlight) () = inFlight
  workers : tally (fun a => (R a).post.background) () = workers
  closed : joined = true → stopping = true ∧ ∀ a, (R a).post.active = false

/-- The free queue and its membership flags. -/
structure Queue (cfg : Config) (free : List Nat) (flags : Nat → Bool) (R : Agent → Role) :
    Prop where
  nodup : free.Nodup
  bounded : ∀ i ∈ free, i < cfg.frameCount
  member : ∀ i, i < cfg.frameCount →
    (flags i = true ↔ i ∈ free ∨ ∃ a, (R a).tenure.flag = some i)

/-- Every frame index is in the queue, or owned by one agent, or the residence
    of a page. -/
structure Places (cfg : Config) (free : List Nat) (swips : SwipId → SwipInner)
    (R : Agent → Role) : Prop where
  owner : Sole (fun a => (R a).tenure.own)
  owned : ∀ a i, (R a).tenure.own = some i → i < cfg.frameCount ∧ i ∉ free ∧
    ∀ s, (swips s).state.resident ≠ some (cfg.residentAddr i)
  queued : ∀ i ∈ free, ∀ s, (swips s).state.resident ≠ some (cfg.residentAddr i)
  covered : ∀ i, i < cfg.frameCount → i ∈ free ∨ (∃ a, (R a).tenure.own = some i) ∨
    ∃ s, (swips s).state.resident = some (cfg.residentAddr i)

/-- The residence of a page: the frame carries its metadata and its latest
    bytes, and a clean frame is backed. -/
structure Store.Occupies (cfg : Config) (st : Store) (s : SwipId) (i : Nat) : Prop where
  bound : st.Bound cfg s
  index : i < cfg.frameCount
  pid : st.pid i = (st.swips s).pid
  owner : st.ownerSwip i = some s
  data : st.data i = st.latest (st.swips s).pid
  clean : st.dirty i = false → st.Backed (st.swips s).pid

/-- What Swips and the page table mean. -/
structure Cells (cfg : Config) (st : Store) : Prop where
  unborn : ∀ s, st.nextSwip ≤ s → ¬ st.Bound cfg s
  minted : ∀ s, st.Bound cfg s → (st.swips s).pid < st.nextPid
  canonical : ∀ s s', st.Bound cfg s → st.Bound cfg s' → (st.swips s).pid = (st.swips s').pid →
    s = s'
  listed : ∀ p s, st.pages p = some s → st.Bound cfg s ∧ (st.swips s).pid = p
  evicted : ∀ s q, (st.swips s).state = .evicted q → q = (st.swips s).pid
  resident : ∀ s x, (st.swips s).state.resident = some x →
    ∃ i, x = cfg.residentAddr i ∧ st.Occupies cfg s i
  backed : ∀ p s, st.pages p = some s → (st.swips s).state = .evicted p → st.Backed p
  identifiers : st.nextPid ≤ PageId.MAX + 1

/-- What tier slots are for: each allocated slot is named by one directory
    entry or held by one agent. -/
structure Storage (cfg : Config) (st : Store) (R : Agent → Role) : Prop where
  named : ∀ p l, st.directory p = some l → st.slots l ≠ none ∧ l.tierIndex < cfg.tiers.length
  injective : ∀ p q l, st.directory p = some l → st.directory q = some l → p = q
  unborn : ∀ p, st.nextPid ≤ p → st.directory p = none ∧ st.latest p = Page.zero
  holder : Sole (fun a => (R a).slot)
  held : ∀ a l, (R a).slot = some l → st.slots l ≠ none ∧ l.tierIndex < cfg.tiers.length ∧
    ∀ p, st.directory p ≠ some l
  covered : ∀ l, st.slots l ≠ none → (∃ p, st.directory p = some l) ∨ ∃ a, (R a).slot = some l
  written : ∀ p, st.writtenBack p = true ↔
    st.directory p ≠ none ∨ ∃ a, (R a).tenure.pending = some p

/-- The invariant of a manager whose agents have the roles `R`. -/
structure Inv (cfg : Config) (sh : Shared) (R : Agent → Role) : Prop where
  pins : Pins sh.pinControl R
  latches : Latches sh.latch R
  gate : Gate sh.operationGate R
  leads : Leads sh.faults R
  background : Background sh.prefetchInFlight sh.workers sh.joined sh.stopping R
  minter : Sole (fun a => (R a).warrant.mint)
  queue : Queue cfg sh.free sh.freeMembership R
  places : Places cfg sh.free sh.swips R
  cells : Cells cfg sh.store
  storage : Storage cfg sh.store R
  sound : ∀ a, Sound cfg sh.store (R a)

end TierBuf
