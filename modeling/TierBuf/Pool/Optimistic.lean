import TierBuf.Pool.Markers

/-!
# Optimistic Guards

Snapshots that are validated after the fact.

`fix_optimistic` takes an ordinary shared guard, reads the version of the
latch, copies the page and drops the guard. `read_with` runs on the copy and
then looks at the Swip, the owner and the page identifier of the frame and at
its latch, at four different moments. Only the last of them decides. A version
counts the exclusive sections of its latch, a page is written and evicted
inside such sections only, and so an unchanged version with nobody inside means
that the copy is still the page.

## Main definitions

* `HybridLatch.Moves`: What one step can do to a latch.
* `OptimisticGuard`, `ReadStage`: The locals of `fix_optimistic` and `read_with`.
* `OptimisticLabel`, `optimisticPool`: Optimistic guards over a manager.
* `OptimisticHistory`: The exclusive sections, writes and evictions so far.

## Theorems

* `step_latch`: Every step moves every latch in one of these ways.
* `Inv.quiet_step`: Outside exclusive sections a resident page stays as it is.
* `optimistic_sound`: A validated snapshot is the page.
-/

namespace TierBuf

open Function Ledger Transition

variable {cfg : Config} {sh sh' : Shared} {c : Choice} {a b : Agent} {pc pc' : Pc}

/-! ### Latches -/

/-- What one step can do to a latch. -/
inductive HybridLatch.Moves (l l' : HybridLatch) : Prop where
  | same (h : l' = l)
  | locked {exclusive : Bool} (h : l.lock exclusive = some l')
  | released {exclusive : Bool} (h : l.release exclusive = some l')

/-- An exclusive section ends. -/
def HybridLatch.ends (l l' : HybridLatch) : Bool :=
  l.state = .exclusive ∧ l'.state ≠ .exclusive

theorem HybridLatch.ends_iff {l l' : HybridLatch} :
    l.ends l' = true ↔ l.state = .exclusive ∧ l'.state ≠ .exclusive := by
  unfold ends
  rw [decide_eq_true_eq]

/-- The end of an exclusive section, and nothing else, moves the version. -/
theorem HybridLatch.Moves.version {l l' : HybridLatch} (h : l.Moves l') :
    l'.version = if l.ends l' then (l.version + 1) % 2 ^ 48 else l.version := by
  cases h with
  | same h =>
      subst h
      rw [if_neg (fun hc => (ends_iff.mp hc).2 (ends_iff.mp hc).1)]
  | @locked exclusive h =>
      cases exclusive with
      | true =>
          change l.lockExclusive = some l' at h
          have hstate := lockExclusive_eq_some h
          rw [if_neg (fun hc => (ends_iff.mp hc).2 hstate.2)]
          unfold lockExclusive at h
          split at h
          · rw [← Option.some.inj h]
          · cases h
      | false =>
          change l.lockShared = some l' at h
          rcases lockShared_eq_some h with ⟨n, hstate, -⟩
          rw [if_neg (fun hc => by cases hstate.symm.trans (ends_iff.mp hc).1)]
          unfold lockShared at h
          simp only [hstate] at h
          split at h
          · rw [← Option.some.inj h]
          · cases h
  | @released exclusive h =>
      cases exclusive with
      | true =>
          change l.releaseExclusive = some l' at h
          unfold releaseExclusive at h
          split at h
          · rename_i hstate
            rw [← Option.some.inj h]
            rw [if_pos (ends_iff.mpr ⟨hstate, by simp only [ne_eq, reduceCtorEq, not_false_eq_true]⟩)]
          · cases h
      | false =>
          change l.releaseShared = some l' at h
          unfold releaseShared at h
          split at h
          · rename_i n hstate
            rw [if_neg (fun hc => by cases hstate.symm.trans (ends_iff.mp hc).1)]
            rw [← Option.some.inj h]
          · cases h

/-- All outcomes of a step move the latches in one of these ways. -/
def Latching (sh : Shared) (o : Stepped) : Prop :=
  ∀ sh' pc', o = some (sh', pc') → ∀ i, (sh.latch i).Moves (sh'.latch i)

namespace Latching

theorem none : Latching sh none :=
  fun _ _ h => by cases h

theorem same (h : sh'.latch = sh.latch) : Latching sh (some (sh', pc)) := by
  intro _ _ ho i
  cases ho
  exact .same (congrFun h i)

variable {i : Nat} {exclusive : Bool}

/-- One latch is replaced. -/
theorem moved {l : HybridLatch} (h : (sh.latch i).Moves l) :
    Latching sh (some (sh.setLatch i l, pc)) := by
  intro _ _ ho j
  cases ho
  change (sh.latch j).Moves (update sh.latch i l j)
  by_cases hj : j = i
  · rw [hj, update_self]
    exact h
  · rw [update_of_ne hj]
    exact .same rfl

theorem lockLatch : Latching sh (sh.lockLatch i exclusive pc) := by
  unfold Shared.lockLatch
  split
  · exact moved (.locked ‹_›)
  · exact none

theorem unlatch : Latching sh (sh.unlatch i exclusive pc) := by
  unfold Shared.unlatch
  split
  · exact moved (.released ‹_›)
  · exact same rfl

theorem unpin : Latching sh (sh.unpin i pc) := by
  unfold Shared.unpin
  split <;> exact same rfl

theorem releaseReservation : Latching sh (sh.releaseReservation i pc) := by
  unfold Shared.releaseReservation
  split <;> exact same rfl

theorem leaveQueue : Latching sh (sh.leaveQueue i pc) := by
  unfold Shared.leaveQueue
  split <;> exact same rfl

theorem enterQueue : Latching sh (sh.enterQueue cfg i pc) := by
  unfold Shared.enterQueue
  split <;> exact same rfl

theorem pushFree : Latching sh (sh.pushFree cfg i pc) := by
  unfold Shared.pushFree
  split <;> exact same rfl

theorem popFree {found : Nat → Pc} : Latching sh (sh.popFree found pc) := by
  unfold Shared.popFree
  split <;> exact same rfl

theorem pushUnique {t : CoolingTicket} : Latching sh (some (sh.pushUnique t, pc)) := by
  unfold Shared.pushUnique
  split <;> exact same rfl

theorem stepClear {back : ClearStage → Pc} {e : ClearStage} :
    Latching sh (sh.stepClear i back pc e) := by
  cases e with
  | check =>
      dsimp only [Shared.stepClear]
      split <;> exact same rfl
  | lock => exact lockLatch
  | unlock => exact unlatch
  | _ => exact same rfl

theorem stepExact {t : CoolingTicket} {back : ExactStage → Pc} {fails : Pc} {found : SwipId → Pc}
    {e : ExactStage} : Latching sh (sh.stepExact cfg t back fails found e) := by
  cases e <;> dsimp only [Shared.stepExact] <;> split <;> exact same rfl

end Latching

theorem stepFix_latching {k : FixCtx} {st : FixStage} :
    Latching sh (sh.stepFix cfg c k st) := by
  cases st with
  | latch i => exact .lockLatch
  | unlatch i => exact .unlatch
  | unpin i => exact .unpin
  | _ =>
      dsimp only [Shared.stepFix]
      (repeat' split) <;> exact .same rfl

theorem stepEvict_latching {k : EvictCtx} {t : CoolingTicket} {st : EvictStage} :
    Latching sh (sh.stepEvict cfg c k t st) := by
  cases st with
  | exact pass e =>
      cases pass <;> dsimp only [Shared.stepEvict]
      · exact .stepExact
      · exact .stepExact
  | lock s => exact .lockLatch
  | write v index err =>
      dsimp only [Shared.stepEvict]
      repeat' split
      · rename_i sh' hw
        unfold Shared.acceptWrite at hw
        split at hw
        · cases hw
        · cases hw
          exact .same rfl
      · exact .none
      · exact .same rfl
  | unlatch v => exact .unlatch
  | clear v e =>
      dsimp only [Shared.stepEvict]
      exact .stepClear
  | release v => exact .releaseReservation
  | member v => exact .enterQueue
  | push v => exact .pushFree
  | exitUnlatch r => exact .unlatch
  | exitRelease r => exact .releaseReservation
  | _ =>
      dsimp only [Shared.stepEvict]
      (repeat' split) <;> first
        | exact .none
        | exact .same rfl

theorem stepFill_latching {f : Filling} {st : FillStage} :
    Latching sh (sh.stepFill cfg c f st) := by
  cases st with
  | lock => exact .lockLatch
  | abort e => exact .unlatch
  | unlock => exact .unlatch
  | installLock => exact .lockLatch
  | installUnlock => exact .unlatch
  | unpin =>
      dsimp only [Shared.stepFill]
      split
      · exact .none
      · exact .unpin
      · exact .unpin
  | latch => exact .lockLatch
  | failUnpin => exact .unpin
  | failClear e =>
      dsimp only [Shared.stepFill]
      exact .stepClear
  | failRelease => exact .releaseReservation
  | _ =>
      dsimp only [Shared.stepFill]
      (repeat' split) <;> exact .same rfl

/-- Every step moves every latch by one acquisition or release at most. -/
theorem step_latch (h : sh.step cfg c a pc = some (sh', pc')) (i : Nat) :
    (sh.latch i).Moves (sh'.latch i) := by
  suffices hl : Latching sh (sh.step cfg c a pc) from hl sh' pc' h i
  cases pc with
  | idle =>
      dsimp only [Shared.step, Shared.stepIdle]
      (repeat' split) <;> first
        | exact .none
        | exact .same rfl
  | enter op st =>
      cases st <;> cases op <;> dsimp only [Shared.step, Shared.stepEnter] <;>
        (repeat' split) <;> first
          | exact .none
          | exact .same rfl
  | fix k st => exact stepFix_latching
  | fault k st =>
      cases st <;> dsimp only [Shared.step, Shared.stepFault] <;> (repeat' split) <;> first
        | exact .none
        | exact .same rfl
  | acquire w st =>
      cases st with
      | pop => exact .popFree
      | member i => exact .leaveQueue
      | popRound n err => exact .popFree
      | popAfter n err m => exact .popFree
      | pushBack n err m t => exact .pushUnique
      | _ =>
          dsimp only [Shared.step, Shared.stepAcquire]
          (repeat' split) <;> first
            | exact .none
            | exact .same rfl
  | cool k st =>
      cases st <;> dsimp only [Shared.step, Shared.stepCool] <;> (repeat' split) <;> first
        | exact .none
        | exact .same rfl
  | enqueue k i p st =>
      cases st with
      | push g => exact .pushUnique
      | _ =>
          dsimp only [Shared.step, Shared.stepEnqueue]
          (repeat' split) <;> exact .same rfl
  | evict k t st => exact stepEvict_latching
  | mint i =>
      dsimp only [Shared.step, Shared.stepMint]
      (repeat' split) <;> exact .same rfl
  | bind i p =>
      dsimp only [Shared.step, Shared.stepBind]
      (repeat' split) <;> exact .same rfl
  | fill f st => exact stepFill_latching
  | checkin k i st =>
      cases st with
      | release => exact .releaseReservation
      | member => exact .enterQueue
      | push => exact .pushFree
  | leave r =>
      dsimp only [Shared.step, Shared.stepLeave]
      (repeat' split) <;> first
        | exact .none
        | exact .same rfl
  | guard g st =>
      cases st with
      | live =>
          dsimp only [Shared.step, Shared.stepGuard]
          repeat' split
          · exact .same rfl
          · exact .same rfl
          · exact .none
          · exact .unpin
      | writing => exact .same rfl
      | unpinned => exact .unlatch
  | submit s p st =>
      cases st with
      | pop => exact .popFree
      | member i => exact .leaveQueue
      | _ =>
          dsimp only [Shared.step, Shared.stepSubmit]
          (repeat' split) <;> exact .same rfl
  | task t st =>
      cases st <;> dsimp only [Shared.step, Shared.stepTask] <;> (repeat' split) <;> first
        | exact .none
        | exact .same rfl
  | unreserve running p st =>
      cases st <;> dsimp only [Shared.step, Shared.stepUnreserve] <;> (repeat' split) <;>
        exact .same rfl
  | cooler st =>
      cases st with
      | pushBack m t => exact .pushUnique
      | _ =>
          dsimp only [Shared.step, Shared.stepCooler]
          (repeat' split) <;> exact .same rfl
  | shutdown st =>
      cases st <;> dsimp only [Shared.step, Shared.stepShutdown] <;> (repeat' split) <;> first
        | exact .none
        | exact .same rfl
  | returned r => exact .none
  | panicked site => exact .none
  | stuck k => exact .none

/-! ### Outside exclusive sections -/

section Quiet

variable {R : Agent → Role} {w : SwipId} {i : Nat}

/-- The page that a step begins to write or has written. -/
def Pc.writeTo (pc pc' : Pc) : Option PageId :=
  match pc, pc' with
  | .guard g .live, .guard _ .writing => some g.pid
  | .guard g .writing, _ => some g.pid
  | _, _ => none

/-- The page that a step evicts. -/
def Pc.evictionOf (pc pc' : Pc) : Option PageId :=
  match pc, pc' with
  | .evict _ t (.unswizzle _), .evict _ _ (.consume _) => some t.pid
  | _, _ => none

theorem Inv.exclusive_of_tenure (h : Inv cfg sh R) (ha : (R a).tenure.exclusive = some i) :
    (sh.latch i).state = .exclusive :=
  (h.latches i).exclusive_of_holds ha

/-- Handles of one page are one handle, and it is resident in one frame. -/
theorem Inv.frame_of_page (h : Inv cfg sh R) {s : SwipId} {j : Nat}
    (hw : sh.store.Resides cfg w i) (hb : sh.store.Bound cfg s)
    (hp : (sh.swips s).pid = (sh.swips w).pid) (hs : sh.store.Resides cfg s j) : j = i := by
  have hcell : s = w := h.cells.canonical s w hb (h.cells.occupies hw).bound hp
  rw [hcell] at hs
  exact cfg.residentAddr_inj (Option.some.inj (Eq.trans hs.symm hw))

/-- An evictor about to unswizzle holds the exclusive latch of the frame. -/
theorem Inv.unswizzler (h : Inv cfg sh R) {k : EvictCtx} {t : CoolingTicket} {v : Eviction}
    (hR : R a = (Pc.evict k t (.unswizzle v)).role cfg) :
    (sh.latch t.frameIndex).state = .exclusive ∧ sh.store.Resides cfg v.swip t.frameIndex ∧
      sh.store.Bound cfg v.swip ∧ (sh.swips v.swip).pid = t.pid ∧ cfg.Tickets t := by
  have hsound := h.sound a
  rw [hR] at hsound
  have hcool : (sh.swips v.swip).state = .cooling (cfg.residentAddr t.frameIndex) :=
    hsound.tenure.1
  have hlisted := h.cells.listed t.pid v.swip hsound.tenure.2.1
  refine ⟨h.exclusive_of_tenure (a := a) (by rw [hR]; rfl), ?_, hlisted.1, hlisted.2, hsound.checked⟩
  exact congrArg SwipState.resident hcool

/-- A guard that is written through holds the exclusive latch of its frame. -/
theorem Inv.writer_latch (h : Inv cfg sh R) {g : Guard}
    (hR : R a = (Pc.guard g .writing).role cfg) : (sh.latch g.index).state = .exclusive ∧
      sh.store.Resides cfg g.swip g.index ∧ sh.store.Bound cfg g.swip ∧
      (sh.swips g.swip).pid = g.pid := by
  have hsound := h.sound a
  rw [hR] at hsound
  have hwarrant : sh.store.Bound cfg g.swip ∧ (sh.swips g.swip).pid = g.pid := hsound.warrant
  have htenure : Tenure.Sound cfg sh.store (.given g.isExclusive (.writer g.index g.swip)) :=
    hsound.tenure
  have hexcl : g.isExclusive = true := by
    by_contra hc
    rw [Bool.not_eq_true] at hc
    rw [hc] at htenure
    exact htenure
  have hrole : (R a).tenure = .writer g.index g.swip := by
    rw [hR]
    change Tenure.given g.isExclusive (.writer g.index g.swip) = .writer g.index g.swip
    rw [hexcl]
    rfl
  rw [hexcl] at htenure
  exact ⟨h.exclusive_of_tenure (a := a) (by rw [hrole]; rfl), htenure.1, hwarrant⟩

/-- A live guard holds its frame. -/
theorem Inv.guard_frame (h : Inv cfg sh R) {g : Guard} (hR : R a = (Pc.guard g .live).role cfg) :
    sh.store.Resides cfg g.swip g.index ∧ sh.store.Bound cfg g.swip ∧
      (sh.swips g.swip).pid = g.pid := by
  have hsound := h.sound a
  rw [hR] at hsound
  exact ⟨hsound.tenure, hsound.warrant⟩

variable (h : Inv cfg sh R) (hR : R a = pc.role cfg) (hs : sh.step cfg c a pc = some (sh', pc'))
  (hfree : (sh.latch i).state ≠ .exclusive) (hw : sh.store.Resides cfg w i)

include h hR hs hfree hw

theorem Inv.quiet_resides : sh'.store.Resides cfg w i := by
  rcases h.resides_step hs hw with hres | ⟨k, t, v, hpc, -, ht⟩
  · exact hres
  · rw [hpc] at hR
    rcases h.unswizzler hR with ⟨hexcl, -, -, -, hticket⟩
    have hi : t.frameIndex = i := cfg.residentAddr_inj (hticket.2.trans ht)
    rw [hi] at hexcl
    exact absurd hexcl hfree

omit hw in
theorem Inv.quiet_data : sh'.data i = sh.data i := by
  by_cases hwriter : Field.Writer pc .data
  · rcases hwriter with ⟨f, rfl⟩ | ⟨g, rfl⟩
    · have hexcl := h.exclusive_of_tenure (a := a) (i := f.index) (by rw [hR]; rfl)
      have hi : i ≠ f.index := fun hc => hfree (hc ▸ hexcl)
      rw [Shared.step] at hs
      dsimp only [Shared.stepFill] at hs
      (repeat' split at hs) <;> (cases hs; exact update_of_ne hi _ _)
    · have hexcl := (h.writer_latch hR).1
      have hi : i ≠ g.index := fun hc => hfree (hc ▸ hexcl)
      cases hs
      exact update_of_ne hi _ _
  · have hsame : sh'.data = sh.data := step_same (f := .data) hs hwriter
    exact congrFun hsame i

theorem Inv.quiet_write : pc.writeTo pc' ≠ some (sh.swips w).pid := by
  intro hwrite
  unfold Pc.writeTo at hwrite
  split at hwrite
  · rename_i g g'
    rcases h.guard_frame hR with ⟨hres, hbound, hpid⟩
    have hi := h.frame_of_page hw hbound (hpid.trans (Option.some.inj hwrite)) hres
    -- only an exclusive guard begins to write
    have hexcl : g.isExclusive = true := by
      rw [Shared.step] at hs
      dsimp only [Shared.stepGuard] at hs
      split at hs
      · cases hs
      · split at hs
        · assumption
        · cases hs
      · unfold Shared.unpin at hs
        split at hs <;> cases hs
    refine hfree (hi ▸ h.exclusive_of_tenure (a := a) ?_)
    rw [hR]
    change Tenure.exclusive (.occupant g.index g.swip (some g.isExclusive)) = some g.index
    rw [hexcl]
    rfl
  · rename_i g pc''
    rcases h.writer_latch hR with ⟨hexcl, hres, hbound, hpid⟩
    have hi := h.frame_of_page hw hbound (hpid.trans (Option.some.inj hwrite)) hres
    exact hfree (hi ▸ hexcl)
  · cases hwrite

omit hs in
theorem Inv.quiet_eviction : pc.evictionOf pc' ≠ some (sh.swips w).pid := by
  intro hevict
  unfold Pc.evictionOf at hevict
  split at hevict
  · rcases h.unswizzler hR with ⟨hexcl, hres, hbound, hpid, -⟩
    have hi := h.frame_of_page hw hbound (hpid.trans (Option.some.inj hevict)) hres
    exact hfree (hi ▸ hexcl)
  · cases hevict

end Quiet

/-! ### Optimistic guards -/

structure OptimisticGuard where
  pid : PageId
  swip : SwipId
  resident : ResidentAddr
  version : Nat
  snapshot : Page

/-- How far the agent has come in `fix_optimistic`, after its shared fix. -/
inductive Snapshot where
  | none
  | versioned (version : Nat)
  | contended
  | taken (o : OptimisticGuard)

/-- A call of `read_with`, after the frame index was found: the loads of
    `resident_is_exact`, and the validation of the latch. -/
inductive ReadStage where
  | state (i : Nat)
  | owner (i : Nat) (state : Bool)
  | pid (i : Nat) (state owner : Bool)
  | validate (i : Nat)

/-- A thread that calls `read_with` on the guard of agent `a`. What its closure
    computes is a function of the bytes that it is shown. -/
inductive Reader where
  | idle
  | reading (a : Agent) (st : ReadStage)
  | returned (a : Agent) (r : Except TierBufError Page)

structure OptimisticState where
  manager : PoolState
  snapshots : Agent → Snapshot
  readers : Nat → Reader

inductive OptimisticLabel where
  | pool (l : Agent × Choice)
  /-- The agent reads the version of the frame it has fixed. -/
  | version (a : Agent)
  /-- And copies the page. -/
  | capture (a : Agent)
  /-- Thread `r` calls `read_with` on the guard of agent `a`. -/
  | call (r : Nat) (a : Agent)
  /-- Thread `r` makes its next check. -/
  | check (r : Nat)

namespace OptimisticState

variable (cfg : Config) (s : OptimisticState)

/-- The agent is between two steps of `fix_optimistic` and does nothing else. -/
def busy (a : Agent) : Bool :=
  match s.snapshots a with
  | .versioned _ => true
  | _ => false

/-- One check of `read_with`. -/
def check (a : Agent) (o : OptimisticGuard) : ReadStage → Reader
  | .state i =>
    .reading a (.owner i ((s.manager.shared.swips o.swip).state.resident = some o.resident))
  | .owner i state =>
    .reading a (.pid i state (s.manager.shared.ownerSwip i = some o.swip))
  | .pid i state owner =>
    if state ∧ s.manager.shared.pid i = o.pid ∧ owner then .reading a (.validate i)
    else .returned a (.error .retry)
  | .validate i =>
    if (s.manager.shared.latch i).validate o.version then .returned a (.ok o.snapshot)
    else .returned a (.error .retry)

def next : OptimisticLabel → Option OptimisticState
  | .pool l => if s.busy l.1 then none
      else (s.manager.next cfg l).map (fun m => { s with manager := m })
  | .version a => match s.manager.pcs a, s.snapshots a with
    | .guard g .live, .none =>
      if g.isExclusive then none
      else match (s.manager.shared.latch g.index).optimistic with
        | some version => some { s with snapshots := update s.snapshots a (.versioned version) }
        | none => some { s with snapshots := update s.snapshots a .contended }
    | _, _ => none
  | .capture a => match s.manager.pcs a, s.snapshots a with
    | .guard g .live, .versioned version =>
      some { s with snapshots := update s.snapshots a (.taken
        ⟨g.pid, g.swip, cfg.residentAddr g.index, version, s.manager.shared.data g.index⟩) }
    | _, _ => none
  | .call r a => match s.manager.pcs a, s.snapshots a, s.readers r with
    | .returned _, .taken _, .reading _ _ => none
    | .returned _, .taken o, _ => match cfg.indexOfResident o.resident with
      | some i => some { s with readers := update s.readers r (.reading a (.state i)) }
      | none => some { s with readers := update s.readers r (.returned a (.error .retry)) }
    | _, _, _ => none
  | .check r => match s.readers r with
    | .reading a st => match s.snapshots a with
      | .taken o => some { s with readers := update s.readers r (s.check a o st) }
      | _ => none
    | _ => none

end OptimisticState

/-- Optimistic guards over a manager under every schedule. -/
def optimisticPool (cfg : Config) : System OptimisticState OptimisticLabel where
  init := fun s => (pool cfg).init s.manager ∧ (∀ a, s.snapshots a = .none) ∧
    ∀ r, s.readers r = .idle
  next := OptimisticState.next cfg

/-! ### What has happened since -/

/-- The counts of a frame and a page at the time of a snapshot. -/
structure Marks where
  sections : Nat
  writes : Nat
  evictions : Nat

/-- How many exclusive sections each frame has seen end, how often a write of
    each page has begun or ended, how often each page was evicted, and what
    these counts were when an agent took its snapshot. -/
structure OptimisticHistory where
  sections : Nat → Nat
  writes : PageId → Nat
  evictions : PageId → Nat
  marks : Agent → Marks

def OptimisticHistory.initial : OptimisticHistory :=
  ⟨fun _ => 0, fun _ => 0, fun _ => 0, fun _ => ⟨0, 0, 0⟩⟩

namespace OptimisticHistory

variable (h : OptimisticHistory)

def recordPool (a : Agent) (s s' : PoolState) : OptimisticHistory where
  sections := fun i =>
    if (s.shared.latch i).ends (s'.shared.latch i) then h.sections i + 1 else h.sections i
  writes := fun p =>
    if (s.pcs a).writeTo (s'.pcs a) = some p then h.writes p + 1 else h.writes p
  evictions := fun p =>
    if (s.pcs a).evictionOf (s'.pcs a) = some p then h.evictions p + 1 else h.evictions p
  marks := h.marks

def recordCapture (a : Agent) (s : PoolState) : OptimisticHistory :=
  match s.pcs a with
  | .guard g .live => { h with
      marks := update h.marks a ⟨h.sections g.index, h.writes g.pid, h.evictions g.pid⟩ }
  | _ => h

def record (s : OptimisticState) (l : OptimisticLabel) (s' : OptimisticState) :
    OptimisticHistory :=
  match l with
  | .pool l => h.recordPool l.1 s.manager s'.manager
  | .capture a => h.recordCapture a s.manager
  | _ => h

end OptimisticHistory

/-- Optimistic guards that remember. -/
def optimisticRuns (cfg : Config) : System (OptimisticState × OptimisticHistory) OptimisticLabel :=
  (optimisticPool cfg).withHistory .initial OptimisticHistory.record

/-! ### Snapshots and their frames -/

def ReadStage.index : ReadStage → Nat
  | .state i | .owner i _ | .pid i _ _ | .validate i => i

/-- The snapshot of agent `a` is of frame `i`. As long as no exclusive section
    of the frame has ended and none is in progress, it is the page. -/
structure Kept (cfg : Config) (s : PoolState) (h : OptimisticHistory) (a : Agent)
    (o : OptimisticGuard) (i : Nat) : Prop where
  index : i < cfg.frameCount
  resident : o.resident = cfg.residentAddr i
  bound : s.shared.store.Bound cfg o.swip
  page : (s.shared.swips o.swip).pid = o.pid
  version : o.version = (h.marks a).sections % 2 ^ 48
  le : (h.marks a).sections ≤ h.sections i
  quiet : h.sections i = (h.marks a).sections → (s.shared.latch i).state ≠ .exclusive →
    s.shared.store.Resides cfg o.swip i ∧ s.shared.data i = o.snapshot ∧
      h.writes o.pid = (h.marks a).writes ∧ h.evictions o.pid = (h.marks a).evictions

/-- What relates snapshots to the manager and to what has happened. -/
structure Optimistic (cfg : Config) (s : OptimisticState) (h : OptimisticHistory) : Prop where
  version : ∀ i, (s.manager.shared.latch i).version = h.sections i % 2 ^ 48
  versioned : ∀ a version, s.snapshots a = .versioned version → ∃ g,
    s.manager.pcs a = .guard g .live ∧ g.isExclusive = false ∧
      (s.manager.shared.latch g.index).version = version
  taken : ∀ a o, s.snapshots a = .taken o → ∃ i, Kept cfg s.manager h a o i
  reading : ∀ r a st, s.readers r = .reading a st → ∃ o, s.snapshots a = .taken o ∧
    o.resident = cfg.residentAddr st.index

section Preservation

variable {s s' : OptimisticState} {h : OptimisticHistory} {l : Agent × Choice} {p m : PoolState}
  {o : OptimisticGuard} {i : Nat}

/-- A shared guard keeps exclusive sections away. -/
theorem Inv.guard_latch {R : Agent → Role} (hi : Inv cfg sh R) {g : Guard}
    (hR : R a = (Pc.guard g .live).role cfg) (hg : g.isExclusive = false) :
    (sh.latch g.index).state ≠ .exclusive := by
  have hshared : (R a).tenure.shared = some g.index := by
    rw [hR]
    change Tenure.shared (.occupant g.index g.swip (some g.isExclusive)) = some g.index
    rw [hg]
    rfl
  rcases (hi.latches g.index).shared_of_holds hshared with ⟨n, hn⟩
  rw [show (sh.latch g.index).state = .shared (n + 1) from hn]
  simp only [ne_eq, reduceCtorEq, not_false_eq_true]

theorem Kept.pool_step (hk : Kept cfg p h a o i) (hi : Inv cfg p.shared (p.roles cfg))
    (hs : (pool cfg).next p l = some m) : Kept cfg m (h.recordPool l.1 p m) a o i := by
  have hstep := (pool_next hs).1
  have hkeep := cell_keeps hstep (hi.bound_lt hk.bound)
  have hle : h.sections i ≤ (h.recordPool l.1 p m).sections i := by
    unfold OptimisticHistory.recordPool
    dsimp only
    split <;> omega
  refine ⟨hk.index, hk.resident, hkeep.2.trans hk.bound, hkeep.1.trans hk.page, hk.version,
    hk.le.trans hle, fun hsections hexcl => ?_⟩
  have hbefore : h.sections i = (h.marks a).sections :=
    le_antisymm (hle.trans (le_of_eq hsections)) hk.le
  -- no section has ended in this step, and none is open after it
  have hends : ¬ (p.shared.latch i).ends (m.shared.latch i) = true := by
    intro hends
    have hmore : (h.recordPool l.1 p m).sections i = h.sections i + 1 := if_pos hends
    have hmark : (h.recordPool l.1 p m).sections i = (h.marks a).sections := hsections
    omega
  have hfree : (p.shared.latch i).state ≠ .exclusive :=
    fun hc => hends (HybridLatch.ends_iff.mpr ⟨hc, hexcl⟩)
  rcases hk.quiet hbefore hfree with ⟨hres, hdata, hwrites, hevictions⟩
  refine ⟨hi.quiet_resides rfl hstep hfree hres, (hi.quiet_data rfl hstep hfree).trans hdata, ?_, ?_⟩
  · have hquiet := hi.quiet_write rfl hstep hfree hres
    rw [hk.page] at hquiet
    exact (if_neg hquiet).trans hwrites
  · have hquiet : (p.pcs l.1).evictionOf (m.pcs l.1) ≠ some _ :=
      hi.quiet_eviction (a := l.1) rfl hfree hres
    rw [hk.page] at hquiet
    exact (if_neg hquiet).trans hevictions

theorem Optimistic.pool_step (ho : Optimistic cfg s h)
    (hi : Inv cfg s.manager.shared (s.manager.roles cfg)) (hbusy : s.busy l.1 = false)
    (hs : (pool cfg).next s.manager l = some m) :
    Optimistic cfg { s with manager := m } (h.recordPool l.1 s.manager m) := by
  rcases pool_next hs with ⟨hstep, hothers⟩
  refine ⟨fun i => ?_, fun a version ha => ?_, fun a o ha => ?_, ho.reading⟩
  · change (m.shared.latch i).version = (h.recordPool l.1 s.manager m).sections i % 2 ^ 48
    rw [(step_latch hstep i).version, ho.version i]
    unfold OptimisticHistory.recordPool
    dsimp only
    split
    · rw [Nat.mod_add_mod]
    · rfl
  · rcases ho.versioned a version ha with ⟨g, hpc, hg, hversion⟩
    have hne : a ≠ l.1 := by
      rintro rfl
      unfold OptimisticState.busy at hbusy
      rw [ha] at hbusy
      cases hbusy
    refine ⟨g, (hothers a hne).trans hpc, hg, ?_⟩
    have hfree := hi.guard_latch (role_at hpc) hg
    change (m.shared.latch g.index).version = version
    rw [(step_latch hstep g.index).version, if_neg (fun hc => hfree (HybridLatch.ends_iff.mp hc).1)]
    exact hversion
  · rcases ho.taken a o ha with ⟨i, hk⟩
    exact ⟨i, hk.pool_step hi hs⟩

/-- The capture of one agent is nothing to the snapshots of the others. -/
theorem Kept.capture_other (hk : Kept cfg p h b o i) (hb : b ≠ a) :
    Kept cfg p (h.recordCapture a p) b o i := by
  unfold OptimisticHistory.recordCapture
  split
  · rename_i g hpc
    have hmark : update h.marks a ⟨h.sections g.index, h.writes g.pid, h.evictions g.pid⟩ b =
        h.marks b := update_of_ne hb _ _
    refine ⟨hk.index, hk.resident, hk.bound, hk.page, ?_, ?_, ?_⟩
    · exact hk.version.trans (congrArg (fun x : Marks => x.sections % 2 ^ 48) hmark.symm)
    · exact (le_of_eq (congrArg Marks.sections hmark)).trans hk.le
    · intro hsections hfree
      dsimp only at hsections ⊢
      rw [hmark] at hsections ⊢
      exact hk.quiet hsections hfree
  · exact hk

/-- A snapshot is the page of its frame when it is taken. -/
theorem kept_capture {g : Guard} {version : Nat} (hi : Inv cfg p.shared (p.roles cfg))
    (hpc : p.pcs a = .guard g .live)
    (hversion : (p.shared.latch g.index).version = h.sections g.index % 2 ^ 48)
    (hv : (p.shared.latch g.index).version = version) :
    Kept cfg p (h.recordCapture a p) a
      ⟨g.pid, g.swip, cfg.residentAddr g.index, version, p.shared.data g.index⟩ g.index := by
  rcases hi.guard_frame (role_at hpc) with ⟨hres, hbound, hpid⟩
  have hrecord : h.recordCapture a p = { h with
      marks := update h.marks a ⟨h.sections g.index, h.writes g.pid, h.evictions g.pid⟩ } := by
    unfold OptimisticHistory.recordCapture
    rw [hpc]
  rw [hrecord]
  have hmark : update h.marks a ⟨h.sections g.index, h.writes g.pid, h.evictions g.pid⟩ a =
      ⟨h.sections g.index, h.writes g.pid, h.evictions g.pid⟩ := update_self ..
  refine ⟨(hi.cells.occupies hres).index, rfl, hbound, hpid, ?_, ?_, ?_⟩
  · dsimp only
    rw [hmark, ← hv]
    exact hversion
  · dsimp only
    rw [hmark]
  · intro _ _
    dsimp only
    rw [hmark]
    exact ⟨hres, rfl, rfl, rfl⟩

theorem Optimistic.step {l : OptimisticLabel} (ho : Optimistic cfg s h)
    (hi : Inv cfg s.manager.shared (s.manager.roles cfg))
    (hs : (optimisticPool cfg).next s l = some s') : Optimistic cfg s' (h.record s l s') := by
  change OptimisticState.next cfg s l = some s' at hs
  cases l with
  | pool l =>
      dsimp only [OptimisticState.next] at hs
      split at hs
      · cases hs
      · rename_i hbusy
        rcases Option.map_eq_some_iff.mp hs with ⟨m, hm, rfl⟩
        exact ho.pool_step hi (eq_false_of_ne_true hbusy) hm
  | version a =>
      dsimp only [OptimisticState.next] at hs
      split at hs
      · rename_i g hpc hnone
        split at hs
        · cases hs
        · rename_i hg
          -- the agent had no snapshot, and the new entry is not one either
          have hkeep : ∀ x, (∀ o, x ≠ .taken o) → ∀ b o,
              update s.snapshots a x b = .taken o → s.snapshots b = .taken o := by
            intro x hx b o hb
            by_cases hba : b = a
            · rw [hba, update_self] at hb
              exact absurd hb (hx o)
            · rwa [update_of_ne hba] at hb
          have hother : ∀ x r b st, s.readers r = .reading b st → ∃ o,
              update s.snapshots a x b = .taken o ∧ o.resident = cfg.residentAddr st.index := by
            intro x r b st hb
            rcases ho.reading r b st hb with ⟨o, hsnap, hres⟩
            have hba : b ≠ a := by
              rintro rfl
              cases hnone.symm.trans hsnap
            exact ⟨o, (update_of_ne hba _ _).trans hsnap, hres⟩
          split at hs
          · rename_i version hversion
            cases hs
            refine ⟨ho.version, fun b v hb => ?_,
              fun b o hb => ho.taken b o (hkeep _ (fun _ => Snapshot.noConfusion) b o hb), hother _⟩
            by_cases hba : b = a
            · dsimp only at hb
              rw [hba, update_self] at hb
              refine ⟨g, hba ▸ hpc, eq_false_of_ne_true hg, ?_⟩
              unfold HybridLatch.optimistic at hversion
              split at hversion
              · cases hversion
              · exact (Option.some.inj hversion).trans (Snapshot.versioned.inj hb)
            · exact ho.versioned b v ((update_of_ne hba _ _).symm.trans hb)
          · cases hs
            refine ⟨ho.version, fun b v hb => ?_,
              fun b o hb => ho.taken b o (hkeep _ (fun _ => Snapshot.noConfusion) b o hb), hother _⟩
            by_cases hba : b = a
            · dsimp only at hb
              rw [hba, update_self] at hb
              cases hb
            · exact ho.versioned b v ((update_of_ne hba _ _).symm.trans hb)
      · cases hs
  | capture a =>
      dsimp only [OptimisticState.next] at hs
      split at hs
      · rename_i g version hpc hsnap
        cases hs
        have hsections : (h.recordCapture a s.manager).sections = h.sections := by
          unfold OptimisticHistory.recordCapture
          split <;> rfl
        refine ⟨fun i => ?_, fun b v hb => ?_, fun b o hb => ?_, fun r b st hb => ?_⟩
        · change _ = (h.recordCapture a s.manager).sections i % 2 ^ 48
          rw [hsections]
          exact ho.version i
        · by_cases hba : b = a
          · dsimp only at hb
            rw [hba, update_self] at hb
            cases hb
          · exact ho.versioned b v ((update_of_ne hba _ _).symm.trans hb)
        · by_cases hba : b = a
          · dsimp only at hb
            rw [hba, update_self] at hb
            rcases ho.versioned a version hsnap with ⟨g', hpc', -, hv⟩
            cases hpc.symm.trans hpc'
            cases hb
            subst hba
            exact ⟨g.index, kept_capture hi hpc (ho.version g.index) hv⟩
          · rcases ho.taken b o ((update_of_ne hba _ _).symm.trans hb) with ⟨i, hk⟩
            exact ⟨i, hk.capture_other hba⟩
        · rcases ho.reading r b st hb with ⟨o, htaken, hres⟩
          have hba : b ≠ a := by
            rintro rfl
            cases hsnap.symm.trans htaken
          exact ⟨o, (update_of_ne hba _ _).trans htaken, hres⟩
      · cases hs
  | call r a =>
      dsimp only [OptimisticState.next] at hs
      split at hs
      · cases hs
      · rename_i o _ hsnap _
        split at hs
        · rename_i i hindex
          cases hs
          refine ⟨ho.version, ho.versioned, ho.taken, fun r' b st hb => ?_⟩
          by_cases hr : r' = r
          · dsimp only at hb
            rw [hr, update_self] at hb
            cases hb
            exact ⟨o, hsnap, (cfg.residentAddr_of_index hindex).1⟩
          · exact ho.reading r' b st ((update_of_ne hr _ _).symm.trans hb)
        · cases hs
          refine ⟨ho.version, ho.versioned, ho.taken, fun r' b st hb => ?_⟩
          by_cases hr : r' = r
          · dsimp only at hb
            rw [hr, update_self] at hb
            cases hb
          · exact ho.reading r' b st ((update_of_ne hr _ _).symm.trans hb)
      · cases hs
  | check r =>
      dsimp only [OptimisticState.next] at hs
      split at hs
      · rename_i a st hreading
        split at hs
        · rename_i o hsnap
          cases hs
          refine ⟨ho.version, ho.versioned, ho.taken, fun r' b st' hb => ?_⟩
          by_cases hr : r' = r
          · dsimp only at hb
            rw [hr, update_self] at hb
            rcases ho.reading r a st hreading with ⟨o', hsnap', hres⟩
            cases hsnap.symm.trans hsnap'
            -- a check goes on with the same guard and the same frame
            have hsame : b = a ∧ st'.index = st.index := by
              unfold OptimisticState.check at hb
              cases st with
              | state i => cases hb; exact ⟨rfl, rfl⟩
              | owner i state => cases hb; exact ⟨rfl, rfl⟩
              | pid i state owner =>
                  dsimp only at hb
                  split at hb <;> cases hb
                  exact ⟨rfl, rfl⟩
              | validate i =>
                  dsimp only at hb
                  split at hb <;> cases hb
            rw [hsame.1, hsame.2]
            exact ⟨o, hsnap, hres⟩
          · exact ho.reading r' b st' ((update_of_ne hr _ _).symm.trans hb)
        · cases hs
      · cases hs

end Preservation

/-! ### Validation -/

/-- The manager under optimistic guards is one under any schedule. -/
theorem optimistic_pool {s : OptimisticState} (hr : Reachable (optimisticPool cfg) s) :
    Reachable (pool cfg) s.manager := by
  refine reachable_invariant (I := fun s : OptimisticState => Reachable (pool cfg) s.manager)
    ?_ (fun s l s' hi hs => ?_) hr
  · intro s hi
    exact ReachableVia.init hi.1
  change OptimisticState.next cfg s l = some s' at hs
  cases l with
  | pool l =>
      dsimp only [OptimisticState.next] at hs
      split at hs
      · cases hs
      · rcases Option.map_eq_some_iff.mp hs with ⟨m, hm, rfl⟩
        exact hi.next hm
  | _ =>
      dsimp only [OptimisticState.next] at hs
      (repeat' split at hs) <;> cases hs <;> exact hi

theorem optimistic_reachable {x : OptimisticState × OptimisticHistory}
    (hr : Reachable (optimisticRuns cfg) x) : Optimistic cfg x.1 x.2 := by
  refine history_invariant (P := fun _ _ => True) (J := fun s h => Optimistic cfg s h)
    (fun s hi => ?_) (fun s h l s' hreach hj _ hs =>
      hj.step (inv_reachable (optimistic_pool (reachable_of_via hreach))) hs) hr
  rcases hi with ⟨⟨budgets, hm⟩, hnone, hidle⟩
  refine ⟨fun i => ?_, fun a version ha => ?_, fun a o ha => ?_, fun r a st hreading => ?_⟩
  · rw [hm]
    rfl
  · cases (hnone a).symm.trans ha
  · cases (hnone a).symm.trans ha
  · cases (hidle r).symm.trans hreading

/-- The snapshot of agent `a` is page `o.pid`, which is still in frame `i` and
    has been neither written nor evicted since. -/
structure Current (cfg : Config) (s : PoolState) (h : OptimisticHistory) (a : Agent)
    (o : OptimisticGuard) (i : Nat) : Prop where
  resident : s.shared.store.Resides cfg o.swip i
  page : (s.shared.swips o.swip).pid = o.pid ∧ s.shared.pid i = o.pid
  unwritten : h.writes o.pid = (h.marks a).writes
  unevicted : h.evictions o.pid = (h.marks a).evictions
  bytes : s.shared.data i = o.snapshot ∧ s.shared.latest o.pid = o.snapshot

/-- A version that validates is that of the snapshot, unless it has come round. -/
theorem Kept.validated {s : PoolState} {h : OptimisticHistory} {o : OptimisticGuard} {i : Nat}
    (hk : Kept cfg s h a o i) (hi : Inv cfg s.shared (s.roles cfg))
    (hversion : (s.shared.latch i).version = h.sections i % 2 ^ 48)
    (hfew : h.sections i - (h.marks a).sections < 2 ^ 48)
    (hvalid : (s.shared.latch i).validate o.version = true) :
    (s.shared.latch i).state ≠ .exclusive ∧ h.sections i = (h.marks a).sections ∧
      Current cfg s h a o i := by
  unfold HybridLatch.validate at hvalid
  split at hvalid
  · cases hvalid
  rcases of_decide_eq_true hvalid with ⟨hfree, hsame⟩
  have hsections : h.sections i = (h.marks a).sections := by
    rw [hversion, hk.version] at hsame
    have hle := hk.le
    omega
  rcases hk.quiet hsections hfree with ⟨hres, hdata, hwrites, hevictions⟩
  have hocc := hi.cells.occupies hres
  refine ⟨hfree, hsections, hres, ⟨hk.page, hocc.pid.trans hk.page⟩, hwrites, hevictions, hdata, ?_⟩
  have hlatest : s.shared.data i = s.shared.latest (s.shared.swips o.swip).pid := hocc.data
  rw [← hk.page, ← hlatest]
  exact hdata

/-- A reader returns by its own check. -/
theorem check_of_return {s s' : OptimisticState} {l : OptimisticLabel} {r : Nat} {st : ReadStage}
    {res : Except TierBufError Page} (hs : (optimisticPool cfg).next s l = some s')
    (hreading : s.readers r = .reading a st) (hreturn : s'.readers r = .returned a res) :
    ∃ o, s.snapshots a = .taken o ∧ s.check a o st = .returned a res := by
  change OptimisticState.next cfg s l = some s' at hs
  have hmoved : ∀ r' y, s'.readers = update s.readers r' y → r' = r ∧ y = .returned a res := by
    intro r' y hreaders
    rw [hreaders] at hreturn
    by_cases hrr : r = r'
    · rw [hrr, update_self] at hreturn
      exact ⟨hrr.symm, hreturn⟩
    · rw [update_of_ne hrr] at hreturn
      cases hreading.symm.trans hreturn
  have hstays : s'.readers ≠ s.readers := by
    intro hc
    rw [hc] at hreturn
    cases hreading.symm.trans hreturn
  cases l with
  | check r' =>
      dsimp only [OptimisticState.next] at hs
      split at hs
      · rename_i a' st' hreading'
        split at hs
        · rename_i o hsnap
          rcases hmoved r' _ (congrArg OptimisticState.readers (Option.some.inj hs)).symm with
            ⟨rfl, hy⟩
          cases hreading.symm.trans hreading'
          exact ⟨o, hsnap, hy⟩
        · cases hs
      · cases hs
  | call r' a' =>
      dsimp only [OptimisticState.next] at hs
      split at hs
      · cases hs
      · rename_i o _ _ hidle
        -- the caller of a new `read_with` is not in the middle of one
        have hne : r' ≠ r := by
          rintro rfl
          exact hidle a st hreading
        split at hs
        · exact absurd (hmoved r' _ (congrArg OptimisticState.readers (Option.some.inj hs)).symm).1
            hne
        · exact absurd (hmoved r' _ (congrArg OptimisticState.readers (Option.some.inj hs)).symm).1
            hne
      · cases hs
  | pool l =>
      dsimp only [OptimisticState.next] at hs
      split at hs
      · cases hs
      · rcases Option.map_eq_some_iff.mp hs with ⟨m, -, hm⟩
        exact absurd (congrArg OptimisticState.readers hm).symm hstays
  | version a' =>
      dsimp only [OptimisticState.next] at hs
      (repeat' split at hs) <;> first
        | exact absurd (congrArg OptimisticState.readers (Option.some.inj hs)).symm hstays
        | cases hs
  | capture a' =>
      dsimp only [OptimisticState.next] at hs
      split at hs
      · exact absurd (congrArg OptimisticState.readers (Option.some.inj hs)).symm hstays
      · cases hs

/-- A check returns the snapshot after a validation, or `Retry`. -/
theorem check_returns {s : OptimisticState} {o : OptimisticGuard} {st : ReadStage}
    {res : Except TierBufError Page} (h : s.check a o st = .returned a res) :
    (res = .ok o.snapshot ∧ ∃ i, st = .validate i ∧
      (s.manager.shared.latch i).validate o.version = true) ∨ res = .error .retry := by
  unfold OptimisticState.check at h
  cases st with
  | state i => cases h
  | owner i state => cases h
  | pid i state owner =>
      dsimp only at h
      split at h
      · cases h
      · exact .inr (Reader.returned.inj h).2.symm
  | validate i =>
      dsimp only at h
      split at h
      · exact .inl ⟨(Reader.returned.inj h).2.symm, i, rfl, ‹_›⟩
      · exact .inr (Reader.returned.inj h).2.symm

/-- Where `read_with` returns `Ok`, its snapshot is the page, in the frame it
    was taken from. After an exclusive section, a write or an eviction, and
    during an exclusive hold, it returns `Retry`. -/
theorem optimistic_sound {x x' : OptimisticState × OptimisticHistory} {l : OptimisticLabel}
    {r : Nat} {st : ReadStage} {res : Except TierBufError Page}
    (hr : Reachable (optimisticRuns cfg) x) (hs : (optimisticRuns cfg).next x l = some x')
    (hreading : x.1.readers r = .reading a st) (hreturn : x'.1.readers r = .returned a res) :
    ∃ o i, x.1.snapshots a = .taken o ∧ o.resident = cfg.residentAddr i ∧
      (x.2.sections i - (x.2.marks a).sections < 2 ^ 48 →
        ((∃ page, res = .ok page) →
          st = .validate i ∧ res = .ok o.snapshot ∧ Current cfg x.1.manager x.2 a o i) ∧
        ((x.1.manager.shared.latch i).state = .exclusive ∨
            x.2.sections i ≠ (x.2.marks a).sections ∨
            x.2.writes o.pid ≠ (x.2.marks a).writes ∨
            x.2.evictions o.pid ≠ (x.2.marks a).evictions →
          res = .error .retry)) := by
  have ho := optimistic_reachable hr
  have hi := inv_reachable (optimistic_pool (reachable_fst hr))
  rcases check_of_return (withHistory_next hs).1 hreading hreturn with ⟨o, hsnap, hcheck⟩
  rcases ho.taken a o hsnap with ⟨i, hk⟩
  have hindex : st.index = i := by
    rcases ho.reading r a st hreading with ⟨o', hsnap', hindex⟩
    cases hsnap.symm.trans hsnap'
    exact cfg.residentAddr_inj (hindex.symm.trans hk.resident)
  refine ⟨o, i, hsnap, hk.resident, fun hfew => ?_⟩
  rcases check_returns hcheck with ⟨hres, j, rfl, hvalid⟩ | hretry
  · cases hindex
    rcases hk.validated hi (ho.version _) hfew hvalid with ⟨hfree, hsections, hcurrent⟩
    refine ⟨fun _ => ⟨rfl, hres, hcurrent⟩, fun hchanged => ?_⟩
    rcases hchanged with hc | hc | hc | hc
    · exact absurd hc hfree
    · exact absurd hsections hc
    · exact absurd hcurrent.unwritten hc
    · exact absurd hcurrent.unevicted hc
  · refine ⟨fun ⟨page, hpage⟩ => ?_, fun _ => hretry⟩
    cases hretry.symm.trans hpage

/-- Agent `1` takes a snapshot of the page of agent `0`, and a reader comes to
    its validation. -/
def snapshotting : List OptimisticLabel :=
  (allocateAndDrop 0 ++ runOf 1 (.fix 0 (.shared .normal)) 16).map .pool ++
    [.version 1, .capture 1] ++ (List.replicate 2 (1, { act := .drop })).map .pool ++
    [.call 0 1, .check 0, .check 0, .check 0]

def OptimisticState.initial (cfg : Config) : OptimisticState :=
  ⟨PoolState.initial cfg (fun _ => none), fun _ => .none, fun _ => .idle⟩

/-- The address of the frame of a snapshot. -/
def Snapshot.resident : Snapshot → Option ResidentAddr
  | .taken o => some o.resident
  | _ => Option.none

/-- Whether a read of the guard of agent `a` is at its validation. -/
def Reader.validating (a : Agent) : Reader → Bool
  | .reading b (.validate _) => b = a
  | _ => false

/-- Whether a read of the guard of agent `a` has returned `Ok`. -/
def Reader.succeeded (a : Agent) : Reader → Bool
  | .returned b (.ok _) => b = a
  | _ => false

theorem optimistic_sound_snapshotting : ∃ x x' o, Reachable (optimisticRuns sampleConfig) x ∧
    (optimisticRuns sampleConfig).next x (.check 0) = some x' ∧ x.1.snapshots 1 = .taken o ∧
    Current sampleConfig x.1.manager x.2 1 o 0 := by
  have hrun : (exec (optimisticRuns sampleConfig) (.initial sampleConfig, .initial)
      snapshotting).bind (fun x => ((optimisticRuns sampleConfig).next x (.check 0)).map (fun x' =>
        ((x.1.readers 0).validating 1, (x'.1.readers 0).succeeded 1, (x.1.snapshots 1).resident,
          x.2.sections 0))) = some (true, true, some 64, 3) := by decide +kernel
  rcases Option.bind_eq_some_iff.mp hrun with ⟨x, hx, hrest⟩
  rcases Option.map_eq_some_iff.mp hrest with ⟨x', hnext, hsees⟩
  simp only [Prod.mk.injEq] at hsees
  rcases hsees with ⟨hvalidating, hsucceeded, hresident, hsections⟩
  have hr : Reachable (optimisticRuns sampleConfig) x :=
    reachable_exec snapshotting _ x (ReachableVia.init
      ⟨⟨⟨_, rfl⟩, fun _ => rfl, fun _ => rfl⟩, rfl⟩) hx
  have hreading : ∃ i, x.1.readers 0 = .reading 1 (.validate i) := by
    unfold Reader.validating at hvalidating
    split at hvalidating
    · rename_i b i hreader
      exact ⟨i, by rw [hreader, of_decide_eq_true hvalidating]⟩
    · cases hvalidating
  have hreturn : ∃ page, x'.1.readers 0 = .returned 1 (.ok page) := by
    unfold Reader.succeeded at hsucceeded
    split at hsucceeded
    · rename_i b page hreader
      exact ⟨page, by rw [hreader, of_decide_eq_true hsucceeded]⟩
    · cases hsucceeded
  rcases hreading with ⟨j, hreading⟩
  rcases hreturn with ⟨page, hreturn⟩
  rcases optimistic_sound hr hnext hreading hreturn with ⟨o, i, hsnap, haddr, hsound⟩
  have hi : i = 0 := by
    rw [hsnap] at hresident
    exact sampleConfig.residentAddr_inj (haddr.symm.trans (Option.some.inj hresident))
  subst hi
  have hfew : x.2.sections 0 - (x.2.marks 1).sections < 2 ^ 48 := by
    rw [hsections]
    omega
  exact ⟨x, x', o, hr, hnext, hsnap, ((hsound hfew).1 ⟨page, rfl⟩).2.2⟩

end TierBuf
