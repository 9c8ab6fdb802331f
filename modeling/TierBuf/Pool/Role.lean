import TierBuf.Pool.Step

/-!
# Roles

What an agent holds and what it may rely on, at every program point.

A program point says where an agent is; its role says what that means to the
others. The `Tenure` is the agent's relation to one frame: which of its pin,
reservation and latch it holds, whether the frame is its own, and what it has
checked under their protection. The `Warrant` is the agent's relation to one
page, held by being the leader of its fault or the only one to know its
identifier. The `Post` is its part in an operation, in the background or in
the shutdown.

Program points are many and roles are few. `role` maps the first to the
second, and the invariants of the manager only ever speak of roles.

## Main definitions

* `Draft`: How far a reserved frame has been filled.
* `Tenure`, `Warrant`, `Post`, `Role`: What an agent holds.
* `Pc.role`: The role of a program point.
-/

namespace TierBuf

/-- The part of a page's residence that has been written to an unpublished
    frame: its bytes, its owner Swip, its identifier, a set dirty flag. -/
structure Draft where
  pid : PageId
  swip : SwipId
  data : Bool
  owner : Bool
  named : Bool
  dirty : Bool

/-- How far an evictor has come with a page it has revalidated. -/
inductive Victim where
  /-- The Swip was seen `Cooling`; the page table has not been consulted. -/
  | seen
  | exact
  /-- The directory entry was read. -/
  | backed (old : Option Location)
  /-- The tier of this index is about to be written. -/
  | writing (old : Option Location) (tier : Nat)
  | written (old : Option Location) (new : Location)
  /-- The directory names a current copy of the page. -/
  | published

/-- An agent's relation to one frame. Latches are named by whether they are
    exclusive. -/
inductive Tenure where
  | none
  /-- A pin, taken on the word of a Swip that may have changed since. -/
  | fixer (i : Nat) (latch : Option Bool)
  /-- A pin, and the Swip was seen resident in the frame since it was taken. -/
  | occupant (i : Nat) (s : SwipId) (latch : Option Bool)
  /-- An exclusive occupant that has set the dirty flag. -/
  | writer (i : Nat) (s : SwipId)
  /-- A guard that has dropped its pin and not yet its latch. -/
  | departing (i : Nat) (exclusive : Bool)
  /-- An eviction reservation, with or without the exclusive latch. -/
  | evictor (i : Nat) (latched : Bool)
  /-- Reservation and latch on the residence of page `p`. -/
  | victim (i : Nat) (p : PageId) (s : SwipId) (v : Victim)
  /-- A frame taken out of circulation: with the reservation, with the
      exclusive latch, with its membership flag set. -/
  | owned (i : Nat) (reserved latched flagged : Bool) (d : Option Draft)
  /-- An owned frame whose reservation has become its first pin. -/
  | published (i : Nat) (d : Draft)
  /-- The program point is not reachable. -/
  | absurd

/-- A tenure that is only reachable under a condition on local variables. -/
def Tenure.given (b : Bool) (t : Tenure) : Tenure := if b then t else .absurd

/-- An agent's relation to one page. -/
inductive Warrant where
  | none
  /-- `s` is a handle of page `p` of this manager. -/
  | handle (p : PageId) (s : SwipId)
  /-- `s` is the canonical Swip of `p`. -/
  | listed (p : PageId) (s : SwipId)
  /-- The agent leads the fault of `p`. -/
  | leading (p : PageId) (s : SwipId)
  /-- And has seen `p` evicted. -/
  | evicted (p : PageId) (s : SwipId)
  /-- And has looked up its location. -/
  | located (p : PageId) (s : SwipId) (loc : Location)
  /-- The agent alone knows the identifier `p`. -/
  | minted (p : PageId)
  /-- And has made its Swip. -/
  | fresh (p : PageId) (s : SwipId)
  /-- And has swizzled it, and is about to list it. -/
  | unlisted (p : PageId) (s : SwipId)

/-- An agent's part in the operation gate, the background threads and the
    shutdown. -/
inductive Post where
  | none
  /-- A read hold of the gate. -/
  | gated
  /-- And the manager was seen running under it. -/
  | operating
  /-- A background thread that has not been joined. -/
  | worker
  /-- The shutdown after it has stopped the manager. -/
  | stopped
  /-- The write hold of the gate. -/
  | draining
  /-- And the workers are joined; nothing is resident in the frames below the
      bound. -/
  | flushing (swept : Option Nat)
  /-- A shutdown that has returned `Ok`. -/
  | flushed
  | absurd

def Post.given (b : Bool) (p : Post) : Post := if b then p else .absurd

structure Role where
  tenure : Tenure
  warrant : Warrant
  /-- A tier slot the agent has yet to publish or to free. -/
  slot : Option Location
  post : Post
  /-- A unit of the prefetch in-flight count. -/
  flight : Bool
  /-- What the agent has checked about its own local variables. -/
  checked : Prop := True

/-! ### Ledgers -/

namespace Tenure

def pin : Tenure → Option Nat
  | .fixer i _ | .occupant i _ _ | .writer i _ | .published i _ => some i
  | _ => Option.none

def reservation : Tenure → Option Nat
  | .evictor i _ | .victim i _ _ _ | .owned i true _ _ _ => some i
  | _ => Option.none

def shared : Tenure → Option Nat
  | .fixer i (some exclusive) | .occupant i _ (some exclusive) | .departing i exclusive =>
    bif exclusive then Option.none else some i
  | _ => Option.none

def exclusive : Tenure → Option Nat
  | .fixer i (some exclusive) | .occupant i _ (some exclusive) | .departing i exclusive =>
    bif exclusive then some i else Option.none
  | .writer i _ | .evictor i true | .victim i _ _ _ | .owned i _ true _ _ => some i
  | _ => Option.none

/-- The frame the agent has taken out of circulation. -/
def own : Tenure → Option Nat
  | .owned i _ _ _ _ | .published i _ => some i
  | _ => Option.none

/-- The owned frame whose membership flag is set: its index has just left the
    queue, or is about to enter it. -/
def flag : Tenure → Option Nat
  | .owned i _ _ true _ => some i
  | _ => Option.none

/-- The page whose write-back is not published yet. -/
def pending : Tenure → Option PageId
  | .victim _ p _ (.written _ _) => some p
  | _ => Option.none

end Tenure

/-- The page whose fault the agent leads. -/
def Warrant.lead : Warrant → Option PageId
  | .leading p _ | .evicted p _ | .located p _ _ => some p
  | _ => Option.none

/-- The page identifier that only the agent knows. -/
def Warrant.mint : Warrant → Option PageId
  | .minted p | .fresh p _ | .unlisted p _ => some p
  | _ => Option.none

namespace Post

def gate : Post → Option Unit
  | .gated | .operating => some ()
  | _ => Option.none

def writeGate : Post → Option Unit
  | .draining | .flushing _ => some ()
  | _ => Option.none

def background : Post → Option Unit
  | .worker => some ()
  | _ => Option.none

/-- Whether an agent in this post may make pages resident. -/
def active : Post → Bool
  | .operating | .worker => true
  | _ => false

end Post

def Role.inFlight (r : Role) : Option Unit := if r.flight then some () else Option.none

/-! ### Roles of program points -/

/-- Nothing held and nothing relied on. -/
def Role.bystander : Role where
  tenure := .none
  warrant := .none
  slot := none
  post := .none
  flight := false

/-- A ticket that passes the first test of `exact_cooling_owner`. -/
def Config.Tickets (cfg : Config) (t : CoolingTicket) : Prop :=
  t.frameIndex < cfg.frameCount ∧ cfg.residentAddr t.frameIndex = t.resident

/-- The old slot an eviction frees in the end. -/
def Eviction.garbage (v : Eviction) : Option Location :=
  if v.new.isSome ∧ v.old ≠ v.new then v.old else none

/-- A fix, with its handle and the given hold on a frame. -/
def FixCtx.role (k : FixCtx) (t : Tenure) : Role :=
  { Role.bystander with tenure := t, warrant := .handle k.pid k.swip, post := .operating }

def FixStage.role (k : FixCtx) : FixStage → Role
  | .head | .load | .pin _ => k.role .none
  | .latch i | .unpin i => k.role (.fixer i none)
  | .exactState i | .exactOwner i false | .unlatch i =>
    k.role (.fixer i (some k.mode.isExclusive))
  | .exactOwner i true | .exactPid i _ | .resurrect i | .generation i | .consume i _ | .hit i
  | .count i | .admission i => k.role (.occupant i k.swip (some k.mode.isExclusive))

namespace FaultCtx

/-- A worker keeps its task's frame until it is taken. -/
def tenure (k : FaultCtx) (kept : Bool) : Tenure :=
  match k with
  | .demand _ => .none
  | .prefetch t => match t.checkout with
    | some i => .owned i true false false none
    | none => .given (!kept) .none

def post : FaultCtx → Post
  | .demand _ => .operating
  | .prefetch _ => .worker

def flight : FaultCtx → Bool
  | .demand _ => false
  | .prefetch _ => true

/-- The caller of the fault coordinator, with its warrant for the page. -/
def role (k : FaultCtx) (w : Warrant) (kept : Bool) : Role where
  tenure := k.tenure kept
  warrant := w
  slot := none
  post := k.post
  flight := k.flight

/-- The warrant with which a caller looks up the page table. -/
def warrant : FaultCtx → Warrant
  | .demand c => .handle c.pid c.swip
  | .prefetch _ => .none

end FaultCtx

def FaultStage.role (k : FaultCtx) : FaultStage → Role
  | .running | .lookup => k.role k.warrant true
  | .enter | .wait _ => k.role (.listed k.pid k.swip) true
  | .leadRunning _ | .leadLoad _ => k.role (.leading k.pid k.swip) true
  | .leadLookup _ => k.role (.evicted k.pid k.swip) true
  | .leadCount _ loc => k.role (.located k.pid k.swip loc) true
  | .finish _ _ => k.role (.leading k.pid k.swip) false

def AcquireCtx.warrant : AcquireCtx → Warrant
  | .allocate => .none
  | .demand c loc _ => .located c.pid c.swip loc

def AcquireCtx.role (w : AcquireCtx) (t : Tenure) : Role :=
  { Role.bystander with tenure := t, warrant := w.warrant, post := .operating }

def AcquireStage.role (w : AcquireCtx) : AcquireStage → Role
  | .member i => w.role (.owned i false false true none)
  | .claim i => w.role (.owned i false false false none)
  | _ => w.role .none

def CoolCtx.warrant : CoolCtx → Warrant
  | .acquire w _ _ => w.warrant
  | .background => .none

def CoolCtx.post : CoolCtx → Post
  | .acquire _ _ _ => .operating
  | .background => .worker

def CoolCtx.role (k : CoolCtx) : Role :=
  { Role.bystander with warrant := k.warrant, post := k.post }

def EnqueueCtx.role (k : EnqueueCtx) (i : Nat) : Role :=
  match k with
  | .fix c => c.role (.occupant i c.swip (some c.mode.isExclusive))
  | .cool k _ _ => k.role

def EvictCtx.warrant : EvictCtx → Warrant
  | .acquire w _ _ _ => w.warrant
  | .background _ | .flush _ => .none

def EvictCtx.post : EvictCtx → Post
  | .acquire _ _ _ _ => .operating
  | .background _ => .worker
  | .flush f => .given (f.resident ≠ 0) (.flushing none)

def EvictCtx.role (k : EvictCtx) (t : Tenure) (slot : Option Location) : Role where
  tenure := t
  warrant := k.warrant
  slot := slot
  post := k.post
  flight := false

/-- `clear_after_eviction` takes and drops the exclusive latch. -/
def ClearStage.tenure (i : Nat) : ClearStage → Tenure
  | .check | .lock => .owned i true false false none
  | .pid | .owner | .dirty | .unlock => .owned i true true false none

def EvictStage.tenure (t : CoolingTicket) : EvictStage → Tenure
  | .exact .first _ | .claim _ | .freeOld _ => .none
  | .lock _ | .exitRelease _ => .evictor t.frameIndex false
  | .exact (.second _) (.pages s) => .victim t.frameIndex t.pid s .seen
  | .exact (.second _) _ | .samePid _ | .sameGeneration _ | .sameOwner _ | .sameResurrect _
  | .exitUnlatch _ => .evictor t.frameIndex true
  | .backing s => .victim t.frameIndex t.pid s .exact
  | .dirty s old => .victim t.frameIndex t.pid s (.backed old)
  | .target v | .tier v _ _ | .unwritten v _ =>
    .given v.new.isNone (.victim t.frameIndex t.pid v.swip (.backed v.old))
  | .write v index _ =>
    .given v.new.isNone (.victim t.frameIndex t.pid v.swip (.writing v.old index))
  | .publish v => match v.new, v.old with
    | some new, _ => .victim t.frameIndex t.pid v.swip (.written v.old new)
    | none, some _ => .victim t.frameIndex t.pid v.swip .published
    | none, none => .absurd
  | .clean v | .unswizzle v => .victim t.frameIndex t.pid v.swip .published
  | .restore _ | .refree _ | .redirty _ | .reresurrect _ => .absurd
  | .consume _ | .unlatch _ => .owned t.frameIndex true true false none
  | .clear _ c => c.tenure t.frameIndex
  | .release _ => .owned t.frameIndex true false false none
  | .member _ => .owned t.frameIndex false false false none
  | .push _ => .owned t.frameIndex false false true none

def EvictStage.slot : EvictStage → Option Location
  | .publish v => v.new
  | .clean v | .unswizzle v | .restore v | .refree v | .redirty v | .reresurrect v | .consume v
  | .unlatch v | .clear v _ | .release v | .member v | .push v | .freeOld v => v.garbage
  | _ => none

/-- Every stage but the very first is past the first test of the ticket. -/
def EvictStage.checked (cfg : Config) (t : CoolingTicket) : EvictStage → Prop
  | .exact .first .pid => True
  | _ => cfg.Tickets t

def EvictStage.role (cfg : Config) (k : EvictCtx) (t : CoolingTicket) (st : EvictStage) : Role :=
  { k.role (st.tenure t) st.slot with checked := st.checked cfg t }

/-- The draft of a frame being filled. -/
def Filling.draft (f : Filling) (data owner named dirty : Bool) : Draft :=
  ⟨f.pid, f.swip, data, owner, named, dirty⟩

namespace FillCtx

def allocates : FillCtx → Bool
  | .allocate _ _ => true
  | _ => false

def warrant : FillCtx → Warrant
  | .allocate p s => .fresh p s
  | .demand c loc _ => .located c.pid c.swip loc
  | .prefetch p s loc _ => .located p s loc

/-- The warrant after the swizzle. -/
def settled : FillCtx → Warrant
  | .allocate p s => .unlisted p s
  | .demand c _ _ => .leading c.pid c.swip
  | .prefetch p s _ _ => .leading p s

def post : FillCtx → Post
  | .allocate _ _ | .demand _ _ _ => .operating
  | .prefetch _ _ _ _ => .worker

def flight : FillCtx → Bool
  | .prefetch _ _ _ _ => true
  | _ => false

end FillCtx

def Filling.role (f : Filling) (t : Tenure) : Role where
  tenure := t
  warrant := f.ctx.warrant
  slot := none
  post := f.ctx.post
  flight := f.ctx.flight

/-- After the swizzle. -/
def Filling.settled (f : Filling) (t : Tenure) : Role :=
  { f.role t with warrant := f.ctx.settled }

/-- The stages of `allocate` after the swizzle. -/
def Filling.allocated (f : Filling) (t : Tenure) : Role :=
  { f.settled t with checked := f.ctx.allocates = true }

def FillStage.role (f : Filling) : FillStage → Role
  | .lock => f.role (.owned f.index true false false none)
  | .write => f.role (.owned f.index true true false none)
  | .abort _ => { f.role (.owned f.index true true false none) with
      checked := f.ctx.allocates = false }
  | .unlock => f.role (.owned f.index true true false (some (f.draft true false false false)))
  | .installCheck | .installLock =>
    f.role (.owned f.index true false false (some (f.draft true false false false)))
  | .owner => f.role (.owned f.index true true false (some (f.draft true false false false)))
  | .clean | .generation | .pid =>
    f.role (.owned f.index true true false (some (f.draft true true false false)))
  | .installUnlock =>
    f.role (.owned f.index true true false (some (f.draft true true true false)))
  | .dirty => f.role (.owned f.index true false false (some (f.draft true true true false)))
  | .publish => f.role (.owned f.index true false false
      (some (f.draft true true true f.ctx.allocates)))
  | .stamp | .mark _ | .swizzle _ =>
    f.role (.published f.index (f.draft true true true f.ctx.allocates))
  | .unpin => f.settled (.fixer f.index none)
  | .latch => f.allocated (.occupant f.index f.swip none)
  | .exactState | .insert => f.allocated (.occupant f.index f.swip (some true))
  | .exactOwner b | .exactPid b =>
    f.allocated (.given b (.occupant f.index f.swip (some true)))
  | .unmark _ | .failUnpin | .failClaim | .failClear _ | .failRelease => f.settled .absurd

def CheckinStage.tenure (i : Nat) : CheckinStage → Tenure
  | .release => .owned i true false false none
  | .member => .owned i false false false none
  | .push => .owned i false false true none

namespace CheckinCtx

def warrant : CheckinCtx → Warrant
  | .demand c _ _ => .leading c.pid c.swip
  | .prefetch p s _ _ => .leading p s
  | _ => .none

def post : CheckinCtx → Post
  | .allocate _ => .gated
  | .demand _ _ _ => .operating
  | .prefetch _ _ _ _ | .task true _ => .worker
  | .task false _ => .none

def flight : CheckinCtx → Bool
  | .prefetch _ _ _ _ | .task _ _ => true
  | _ => false

def role (k : CheckinCtx) (t : Tenure) : Role where
  tenure := t
  warrant := k.warrant
  slot := none
  post := k.post
  flight := k.flight

end CheckinCtx

def EnterStage.role : EnterStage → Role
  | .running | .gate => .bystander
  | .recheck => { Role.bystander with post := .gated }
  | .validate | .reject => { Role.bystander with post := .operating }

/-- A guard, with the given hold on its frame. -/
def Guard.role (g : Guard) (t : Tenure) (post : Post) : Role :=
  { Role.bystander with tenure := t, warrant := .handle g.pid g.swip, post := post }

def Ret.role : Ret → Role
  | .guard g => g.role (.occupant g.index g.swip (some g.isExclusive)) .operating
  | .failed _ => { Role.bystander with post := .gated }

def GuardStage.role (g : Guard) : GuardStage → Role
  | .live => g.role (.occupant g.index g.swip (some g.isExclusive)) .none
  | .writing => g.role (.given g.isExclusive (.writer g.index g.swip)) .none
  | .unpinned => g.role (.departing g.index g.isExclusive) .none

def SubmitStage.role : SubmitStage → Role
  | .stop | .owner | .load | .pages | .admission | .pending | .inFlight | .unpend => .bystander
  | .pop => { Role.bystander with flight := true }
  | .member i => { Role.bystander with tenure := .owned i false false true none, flight := true }
  | .claim i => { Role.bystander with tenure := .owned i false false false none, flight := true }
  | .recheck i | .send i =>
    { Role.bystander with tenure := .owned i true false false none, flight := true }

def TaskStage.role (t : PrefetchTask) (st : TaskStage) : Role where
  tenure := match t.checkout with
    | some i => .owned i true false false none
    | none => .absurd
  warrant := .none
  slot := none
  post := match st with
    | .queued => .none
    | .check => .worker
  flight := true

def UnreserveStage.role (running : Bool) : UnreserveStage → Role
  | .pending | .inFlight =>
    { Role.bystander with post := if running then .worker else .none, flight := true }
  | .retire => { Role.bystander with post := .given running .worker }

def ShutdownStage.post (cfg : Config) : ShutdownStage → Post
  | .lock | .stop => .none
  | .gate => .stopped
  | .join => .draining
  | .flush f => .flushing (if f.resident = 0 then some f.index else none)
  | .owner f _ | .load f _ _ | .mark f _ _ | .generation f _ =>
    .given (f.resident ≠ 0) (.flushing none)
  | .ungate (.ok _) => .flushing (some cfg.frameCount)
  | .ungate (.error _) => .flushing none
  | .unlock (.ok _) => .flushed
  | .unlock (.error _) => .none

def Returned.role : Returned → Role
  | .shutdown (.ok _) => { Role.bystander with post := .flushed }
  | _ => .bystander

/-- The role of a program point. -/
def Pc.role (cfg : Config) : Pc → Role
  | .idle => .bystander
  | .enter _ st => st.role
  | .fix k st => st.role k
  | .fault k st => st.role k
  | .acquire w st => st.role w
  | .cool k _ => k.role
  | .enqueue k i _ _ => k.role i
  | .evict k t st => st.role cfg k t
  | .mint i => { Role.bystander with tenure := .owned i true false false none, post := .operating }
  | .bind i p => { Role.bystander with
      tenure := .owned i true false false none, warrant := .minted p, post := .operating }
  | .fill f st => st.role f
  | .checkin k i st => k.role (st.tenure i)
  | .leave r => r.role
  | .guard g st => st.role g
  | .submit _ _ st => st.role
  | .task t st => st.role t
  | .unreserve running _ st => st.role running
  | .cooler _ => { Role.bystander with post := .worker }
  | .shutdown st => { Role.bystander with post := st.post cfg }
  | .returned r => r.role
  | .panicked _ => { Role.bystander with tenure := .absurd }
  | .stuck k => k.role (.listed k.pid k.swip) true

end TierBuf
