import TierBuf.Pool.Step

/-!
# Footprints

Which fields of the shared state a program point can write.

A step of one agent writes at most a few fields, and which ones is read off
its program point. `Pc.writes` lists them, function by function in the order
of the steps, and `step_footprint` says that the list is complete. A property
of some fields is then kept by every program point that writes none of them.

The words that agents synchronise on are left out. What becomes of pins,
latches and the operation gate is the business of the roles.

## Main definitions

* `Field`: The fields of the shared state.
* `Field.Same`, `Footprint`: Nothing but the listed fields has changed.
* `Pc.writes`: The fields a program point can write.
* `Field.Writer`: The program points that can write a field.

## Theorems

* `step_footprint`: Every step stays within the list of its program point.
* `writer_of_mem`, `step_same`: The same, from the side of a field.
-/

namespace TierBuf

open Function Ledger

variable {cfg : Config} {sh sh' : Shared} {c : Choice} {a : Agent} {pc pc' : Pc}

inductive Field where
  | data | pid | ownerSwip | dirty | generation | free | freeMembership | swips | nextSwip
  | directory | pages | faults | nextPid | cooling | stopping | joined | channel
  | prefetchInFlight | prefetchPending | prefetched | dramHits | prefetchHits | demandHits
  | slots | budgets | latest | writtenBack
  deriving DecidableEq

/-- The field has the same value in both states. -/
def Field.Same (sh sh' : Shared) : Field → Prop
  | .data => sh'.data = sh.data
  | .pid => sh'.pid = sh.pid
  | .ownerSwip => sh'.ownerSwip = sh.ownerSwip
  | .dirty => sh'.dirty = sh.dirty
  | .generation => sh'.generation = sh.generation
  | .free => sh'.free = sh.free
  | .freeMembership => sh'.freeMembership = sh.freeMembership
  | .swips => sh'.swips = sh.swips
  | .nextSwip => sh'.nextSwip = sh.nextSwip
  | .directory => sh'.directory = sh.directory
  | .pages => sh'.pages = sh.pages
  | .faults => sh'.faults = sh.faults
  | .nextPid => sh'.nextPid = sh.nextPid
  | .cooling => sh'.cooling = sh.cooling
  | .stopping => sh'.stopping = sh.stopping
  | .joined => sh'.joined = sh.joined
  | .channel => sh'.channel = sh.channel
  | .prefetchInFlight => sh'.prefetchInFlight = sh.prefetchInFlight
  | .prefetchPending => sh'.prefetchPending = sh.prefetchPending
  | .prefetched => sh'.prefetched = sh.prefetched
  | .dramHits => sh'.dramHits = sh.dramHits
  | .prefetchHits => sh'.prefetchHits = sh.prefetchHits
  | .demandHits => sh'.demandHits = sh.demandHits
  | .slots => sh'.slots = sh.slots
  | .budgets => sh'.budgets = sh.budgets
  | .latest => sh'.latest = sh.latest
  | .writtenBack => sh'.writtenBack = sh.writtenBack

/-- Nothing but the listed fields has changed. -/
def Footprint (ws : List Field) (sh sh' : Shared) : Prop :=
  ∀ f, f ∉ ws → f.Same sh sh'

/-- No outcome of a step changes anything but the listed fields. -/
def Writes (sh : Shared) (ws : List Field) (o : Stepped) : Prop :=
  ∀ sh' pc', o = some (sh', pc') → Footprint ws sh sh'

/-! ### The fields of each function -/

def FixStage.writes : FixStage → List Field
  | .resurrect _ | .admission _ => [.swips]
  | .consume _ _ => [.prefetched]
  | .hit _ => [.prefetchHits]
  | .count _ => [.dramHits, .demandHits]
  | _ => []

def FaultStage.writes : FaultStage → List Field
  | .enter | .wait _ | .finish _ _ => [.faults]
  | _ => []

def AcquireStage.writes : AcquireStage → List Field
  | .pop | .popRound _ _ | .popAfter _ _ _ => [.free]
  | .member _ => [.freeMembership]
  | .sweep _ _ _ | .pushBack _ _ _ _ => [.cooling]
  | _ => []

def CoolStage.writes : CoolStage → List Field
  | .mark _ _ _ _ _ => [.swips]
  | _ => []

def EnqueueStage.writes : EnqueueStage → List Field
  | .push _ => [.cooling]
  | _ => []

def ClearStage.writes : ClearStage → List Field
  | .pid => [.pid]
  | .owner => [.ownerSwip]
  | .dirty => [.dirty]
  | _ => []

def EvictStage.writes : EvictStage → List Field
  | .sameResurrect _ | .unwritten _ _ | .unswizzle _ | .reresurrect _ => [.swips]
  | .tier _ _ _ => [.budgets]
  | .write _ _ _ => [.slots, .writtenBack]
  | .publish _ | .restore _ => [.directory]
  | .clean _ | .redirty _ => [.dirty]
  | .refree _ | .freeOld _ => [.slots]
  | .consume _ => [.prefetched]
  | .clear _ e => e.writes
  | .member _ => [.freeMembership]
  | .push _ => [.free]
  | _ => []

def FillStage.writes : FillStage → List Field
  | .write => [.data]
  | .owner => [.ownerSwip]
  | .clean | .dirty => [.dirty]
  | .generation => [.generation]
  | .pid => [.pid]
  | .mark _ | .unmark _ => [.prefetched]
  | .swizzle _ => [.swips]
  | .insert => [.pages]
  | .failClear e => e.writes
  | _ => []

def CheckinStage.writes : CheckinStage → List Field
  | .release => []
  | .member => [.freeMembership]
  | .push => [.free]

def GuardStage.writes : GuardStage → List Field
  | .live => [.dirty]
  | .writing => [.data, .latest]
  | .unpinned => []

def SubmitStage.writes : SubmitStage → List Field
  | .pending | .unpend => [.prefetchPending]
  | .inFlight => [.prefetchInFlight]
  | .pop => [.free]
  | .member _ => [.freeMembership]
  | .send _ => [.channel]
  | _ => []

def TaskStage.writes : TaskStage → List Field
  | .queued => [.channel]
  | .check => []

def UnreserveStage.writes : UnreserveStage → List Field
  | .pending => [.prefetchPending]
  | .inFlight => [.prefetchInFlight]
  | .retire => []

def CoolerStage.writes : CoolerStage → List Field
  | .pop _ | .pushBack _ _ => [.cooling]
  | _ => []

def ShutdownStage.writes : ShutdownStage → List Field
  | .stop => [.stopping]
  | .join => [.joined]
  | .mark _ _ _ => [.swips]
  | _ => []

/-- The fields a program point can write. -/
def Pc.writes : Pc → List Field
  | .idle => [.swips, .nextSwip, .budgets]
  | .fix _ st => st.writes
  | .fault _ st => st.writes
  | .acquire _ st => st.writes
  | .cool _ st => st.writes
  | .enqueue _ _ _ st => st.writes
  | .evict _ _ st => st.writes
  | .mint _ => [.nextPid]
  | .bind _ _ => [.swips, .nextSwip]
  | .fill _ st => st.writes
  | .checkin _ _ st => st.writes
  | .guard _ st => st.writes
  | .submit _ _ st => st.writes
  | .task _ st => st.writes
  | .unreserve _ _ st => st.writes
  | .cooler st => st.writes
  | .shutdown st => st.writes
  | _ => []

/-! ### Steps on one word -/

namespace Footprint

variable {ws : List Field}

theorem refl : Footprint ws sh sh := by
  intro f _
  cases f <;> rfl

theorem pin {i w : Nat} : Footprint ws sh (sh.setPin i w) := by
  intro f _
  cases f <;> rfl

theorem latch {i : Nat} {l : HybridLatch} : Footprint ws sh (sh.setLatch i l) := by
  intro f _
  cases f <;> rfl

theorem swip {s : SwipId} {cell : SwipInner} (h : Field.swips ∈ ws) :
    Footprint ws sh (sh.setSwip s cell) := by
  intro f hf
  cases f with
  | swips => exact absurd h hf
  | _ => rfl

end Footprint

namespace Writes

variable {ws : List Field}

theorem none : Writes sh ws none :=
  fun _ _ h => by cases h

theorem some (h : Footprint ws sh sh') : Writes sh ws (some (sh', pc)) := by
  intro _ _ ho
  cases ho
  exact h

variable {i : Nat} {exclusive : Bool}

theorem lockLatch : Writes sh ws (sh.lockLatch i exclusive pc) := by
  unfold Shared.lockLatch
  split
  · exact some .latch
  · exact none

theorem unlatch : Writes sh ws (sh.unlatch i exclusive pc) := by
  unfold Shared.unlatch
  split
  · exact some .latch
  · exact some .refl

theorem unpin : Writes sh ws (sh.unpin i pc) := by
  unfold Shared.unpin
  split
  · exact some .pin
  · exact some .refl

theorem releaseReservation : Writes sh ws (sh.releaseReservation i pc) := by
  unfold Shared.releaseReservation
  split
  · exact some .pin
  · exact some .refl

theorem leaveQueue (h : Field.freeMembership ∈ ws) : Writes sh ws (sh.leaveQueue i pc) := by
  unfold Shared.leaveQueue
  split
  · refine some (fun f hf => ?_)
    cases f with
    | freeMembership => exact absurd h hf
    | _ => rfl
  · exact some .refl

theorem enterQueue (h : Field.freeMembership ∈ ws) : Writes sh ws (sh.enterQueue cfg i pc) := by
  unfold Shared.enterQueue
  split
  · exact some .refl
  · refine some (fun f hf => ?_)
    cases f with
    | freeMembership => exact absurd h hf
    | _ => rfl

theorem pushFree (h : Field.free ∈ ws) : Writes sh ws (sh.pushFree cfg i pc) := by
  unfold Shared.pushFree
  split
  · refine some (fun f hf => ?_)
    cases f with
    | free => exact absurd h hf
    | _ => rfl
  · exact some .refl

theorem popFree {found : Nat → Pc} (h : Field.free ∈ ws) : Writes sh ws (sh.popFree found pc) := by
  unfold Shared.popFree
  split
  · refine some (fun f hf => ?_)
    cases f with
    | free => exact absurd h hf
    | _ => rfl
  · exact some .refl

theorem pushUnique {t : CoolingTicket} (h : Field.cooling ∈ ws) :
    Writes sh ws (.some (sh.pushUnique t, pc)) := by
  unfold Shared.pushUnique
  split
  · exact some .refl
  · refine some (fun f hf => ?_)
    cases f with
    | cooling => exact absurd h hf
    | _ => rfl

theorem stepClear {back : ClearStage → Pc} {e : ClearStage} :
    Writes sh e.writes (sh.stepClear i back pc e) := by
  cases e with
  | check =>
      dsimp only [Shared.stepClear]
      split
      · exact some .refl
      · exact some .refl
  | lock => exact lockLatch
  | unlock => exact unlatch
  | _ =>
      refine some (fun f hf => ?_)
      cases f <;> first
        | rfl
        | exact absurd (List.mem_cons_self ..) hf

theorem stepExact {t : CoolingTicket} {back : ExactStage → Pc} {fails : Pc} {found : SwipId → Pc}
    {e : ExactStage} : Writes sh ws (sh.stepExact cfg t back fails found e) := by
  cases e <;> dsimp only [Shared.stepExact] <;> split <;> exact some .refl

end Writes

/-! ### The functions of the manager -/

theorem stepEnter_writes {op : Operation} {st : EnterStage} :
    Writes sh [] (sh.stepEnter cfg op st) := by
  cases st <;> cases op <;> dsimp only [Shared.stepEnter] <;> (repeat' split) <;>
    first
      | exact .none
      | exact .some .refl

theorem stepLeave_writes {r : Ret} : Writes sh [] (sh.stepLeave r) := by
  unfold Shared.stepLeave
  split
  · exact .some .refl
  · exact .none

theorem stepFix_writes {k : FixCtx} {st : FixStage} :
    Writes sh st.writes (sh.stepFix cfg c k st) := by
  cases st with
  | pin i =>
      dsimp only [Shared.stepFix]
      split
      · exact .some .pin
      · exact .some .refl
  | latch i => exact .lockLatch
  | unlatch i => exact .unlatch
  | unpin i => exact .unpin
  | resurrect i =>
      dsimp only [Shared.stepFix]
      split
      · exact .some (.swip (List.mem_cons_self ..))
      · exact .some .refl
  | consume i g =>
      refine .some (fun f hf => ?_)
      cases f <;> first
        | rfl
        | exact absurd (List.mem_cons_self ..) hf
  | hit i =>
      refine .some (fun f hf => ?_)
      cases f <;> first
        | rfl
        | exact absurd (List.mem_cons_self ..) hf
  | count i =>
      dsimp only [Shared.stepFix]
      split <;> refine .some (fun f hf => ?_) <;> cases f <;> first
        | rfl
        | exact absurd (List.mem_cons_self ..) hf
        | exact absurd (List.mem_cons_of_mem _ (List.mem_cons_self ..)) hf
  | admission i =>
      dsimp only [Shared.stepFix]
      repeat' split
      · exact .some .refl
      · exact .some (.swip (List.mem_cons_self ..))
      · exact .some .refl
  | _ =>
      dsimp only [Shared.stepFix]
      repeat' split
      all_goals exact .some .refl

theorem stepFault_writes {k : FaultCtx} {st : FaultStage} :
    Writes sh st.writes (sh.stepFault cfg k st) := by
  have hwrite : ∀ {ws : List Field} {p : PageId} {f : FaultState} {pc : Pc}, Field.faults ∈ ws →
      Writes sh ws (some ({ sh with faults := update sh.faults p f }, pc)) := by
    intro ws p f pc hmem
    refine .some (fun f hf => ?_)
    cases f with
    | faults => exact absurd hmem hf
    | _ => rfl
  cases st with
  | enter =>
      dsimp only [Shared.stepFault]
      split <;> exact hwrite (List.mem_cons_self ..)
  | wait g =>
      dsimp only [Shared.stepFault]
      split
      · exact hwrite (List.mem_cons_self ..)
      · exact hwrite (List.mem_cons_self ..)
      · exact .some .refl
  | finish g r => exact hwrite (List.mem_cons_self ..)
  | leadCount g loc =>
      cases k with
      | demand k' => exact .some .refl
      | prefetch t => exact .none
  | _ =>
      dsimp only [Shared.stepFault]
      repeat' split
      all_goals exact .some .refl

theorem stepAcquire_writes {w : AcquireCtx} {st : AcquireStage} :
    Writes sh st.writes (sh.stepAcquire cfg w st) := by
  cases st with
  | pop => exact .popFree (List.mem_cons_self ..)
  | member i => exact .leaveQueue (List.mem_cons_self ..)
  | claim i =>
      dsimp only [Shared.stepAcquire]
      split
      · exact .some .pin
      · exact .none
  | popRound n err => exact .popFree (List.mem_cons_self ..)
  | popAfter n err m => exact .popFree (List.mem_cons_self ..)
  | pushBack n err m t => exact .pushUnique (List.mem_cons_self ..)
  | sweep n err m =>
      dsimp only [Shared.stepAcquire]
      split
      · refine .some (fun f hf => ?_)
        cases f <;> first
          | rfl
          | exact absurd (List.mem_cons_self ..) hf
      · exact .some .refl
  | _ =>
      dsimp only [Shared.stepAcquire]
      repeat' split
      all_goals exact .some .refl

theorem stepCool_writes {k : CoolCtx} {st : CoolStage} :
    Writes sh st.writes (sh.stepCool cfg c k st) := by
  cases st with
  | take desired candidates =>
      dsimp only [Shared.stepCool]
      repeat' split
      · exact .some .refl
      · exact .some .refl
      · exact .none
  | mark desired i p s candidates =>
      dsimp only [Shared.stepCool]
      split
      · exact .some (.swip (List.mem_cons_self ..))
      · exact .some .refl
  | _ =>
      dsimp only [Shared.stepCool]
      repeat' split
      all_goals exact .some .refl

theorem stepEnqueue_writes {k : EnqueueCtx} {i : Nat} {p : PageId} {st : EnqueueStage} :
    Writes sh st.writes (sh.stepEnqueue cfg k i p st) := by
  cases st with
  | push g => exact .pushUnique (List.mem_cons_self ..)
  | _ =>
      dsimp only [Shared.stepEnqueue]
      repeat' split
      all_goals exact .some .refl

/-- `TierBackend::write` writes a slot. -/
theorem acceptWrite_writes {ws : List Field} {p : PageId} {loc : Location} {page : Page}
    (hs : Field.slots ∈ ws) (hw : Field.writtenBack ∈ ws)
    (h : sh.acceptWrite p loc page = some sh') : Footprint ws sh sh' := by
  unfold Shared.acceptWrite at h
  split at h
  · cases h
  · rw [Option.some.injEq] at h
    rw [← h]
    intro f hf
    cases f with
    | slots => exact absurd hs hf
    | writtenBack => exact absurd hw hf
    | _ => rfl

theorem stepEvict_writes {k : EvictCtx} {t : CoolingTicket} {st : EvictStage} :
    Writes sh st.writes (sh.stepEvict cfg c k t st) := by
  cases st with
  | exact pass e =>
      cases pass <;> dsimp only [Shared.stepEvict]
      · exact .stepExact
      · exact .stepExact
  | claim s =>
      dsimp only [Shared.stepEvict]
      split
      · exact .some .pin
      · exact .some .refl
  | lock s => exact .lockLatch
  | sameResurrect s =>
      dsimp only [Shared.stepEvict]
      split
      · exact .some (.swip (List.mem_cons_self ..))
      · exact .some .refl
  | tier v index err =>
      dsimp only [Shared.stepEvict]
      repeat' split
      · exact .some .refl
      · exact .some .refl
      · refine .some (fun f hf => ?_)
        cases f <;> first
          | rfl
          | exact absurd (List.mem_cons_self ..) hf
      · exact .some .refl
  | write v index err =>
      dsimp only [Shared.stepEvict]
      repeat' split
      · exact .some (acceptWrite_writes (List.mem_cons_self ..)
          (List.mem_cons_of_mem _ (List.mem_cons_self ..)) ‹_›)
      · exact .none
      · exact .some .refl
  | unwritten v e =>
      dsimp only [Shared.stepEvict]
      split
      · exact .some (.swip (List.mem_cons_self ..))
      · exact .some .refl
  | publish v =>
      dsimp only [Shared.stepEvict]
      split
      · refine .some (fun f hf => ?_)
        cases f <;> first
          | rfl
          | exact absurd (List.mem_cons_self ..) hf
      · exact .some .refl
      · exact .some .refl
  | clean v =>
      refine .some (fun f hf => ?_)
      cases f <;> first
        | rfl
        | exact absurd (List.mem_cons_self ..) hf
  | unswizzle v =>
      dsimp only [Shared.stepEvict]
      split
      · exact .some (.swip (List.mem_cons_self ..))
      · exact .some .refl
  | restore v =>
      dsimp only [Shared.stepEvict]
      split
      · refine .some (fun f hf => ?_)
        cases f <;> first
          | rfl
          | exact absurd (List.mem_cons_self ..) hf
      · exact .some .refl
  | refree v =>
      dsimp only [Shared.stepEvict]
      split
      · refine .some (fun f hf => ?_)
        cases f <;> first
          | rfl
          | exact absurd (List.mem_cons_self ..) hf
      · exact .none
  | redirty v =>
      refine .some (fun f hf => ?_)
      cases f <;> first
        | rfl
        | exact absurd (List.mem_cons_self ..) hf
  | reresurrect v =>
      dsimp only [Shared.stepEvict]
      split
      · exact .some (.swip (List.mem_cons_self ..))
      · exact .some .refl
  | consume v =>
      refine .some (fun f hf => ?_)
      cases f <;> first
        | rfl
        | exact absurd (List.mem_cons_self ..) hf
  | unlatch v => exact .unlatch
  | clear v e =>
      dsimp only [Shared.stepEvict]
      exact .stepClear
  | release v => exact .releaseReservation
  | member v => exact .enterQueue (List.mem_cons_self ..)
  | push v => exact .pushFree (List.mem_cons_self ..)
  | freeOld v =>
      have hfree : ∀ old pc, Writes sh (EvictStage.freeOld v).writes
          (some (sh.freeSlot old, pc)) := by
        intro old pc
        refine .some (fun f hf => ?_)
        cases f <;> first
          | rfl
          | exact absurd (List.mem_cons_self ..) hf
      dsimp only [Shared.stepEvict]
      repeat' split
      · exact hfree _ _
      · exact .some .refl
      · exact .some .refl
  | exitUnlatch r => exact .unlatch
  | exitRelease r => exact .releaseReservation
  | _ =>
      dsimp only [Shared.stepEvict]
      repeat' split
      all_goals exact .some .refl

theorem stepMint_writes {i : Nat} : Writes sh [.nextPid] (sh.stepMint i) := by
  unfold Shared.stepMint
  split
  · refine .some (fun f hf => ?_)
    cases f <;> first
      | rfl
      | exact absurd (by decide) hf
  · exact .some .refl

theorem stepBind_writes {i : Nat} {p : PageId} :
    Writes sh [.swips, .nextSwip] (sh.stepBind cfg i p) := by
  unfold Shared.stepBind
  split
  · refine .some (fun f hf => ?_)
    cases f <;> first
      | rfl
      | exact absurd (by decide) hf
  · exact .some .refl

theorem stepFill_writes {f : Filling} {st : FillStage} :
    Writes sh st.writes (sh.stepFill cfg c f st) := by
  cases st with
  | lock => exact .lockLatch
  | write =>
      dsimp only [Shared.stepFill]
      repeat' split
      all_goals
        refine .some (fun f hf => ?_)
        cases f <;> first
          | rfl
          | exact absurd (List.mem_cons_self ..) hf
  | abort e => exact .unlatch
  | unlock => exact .unlatch
  | installLock => exact .lockLatch
  | installUnlock => exact .unlatch
  | publish =>
      dsimp only [Shared.stepFill]
      split
      · exact .some .pin
      · exact .some .refl
  | swizzle marker =>
      dsimp only [Shared.stepFill]
      split
      · exact .some (.swip (List.mem_cons_self ..))
      · exact .some .refl
  | unpin =>
      dsimp only [Shared.stepFill]
      split
      · exact .none
      · exact .unpin
      · exact .unpin
  | latch => exact .lockLatch
  | insert =>
      dsimp only [Shared.stepFill]
      split
      · exact .some .refl
      · refine .some (fun f hf => ?_)
        cases f <;> first
          | rfl
          | exact absurd (List.mem_cons_self ..) hf
  | unmark marker =>
      dsimp only [Shared.stepFill]
      split
      · refine .some (fun f hf => ?_)
        cases f <;> first
          | rfl
          | exact absurd (List.mem_cons_self ..) hf
      · exact .some .refl
  | failUnpin => exact .unpin
  | failClaim =>
      dsimp only [Shared.stepFill]
      split
      · exact .some .pin
      · exact .some .refl
  | failClear e =>
      dsimp only [Shared.stepFill]
      exact .stepClear
  | failRelease => exact .releaseReservation
  | installCheck =>
      dsimp only [Shared.stepFill]
      repeat' split
      all_goals exact .some .refl
  | stamp => exact .some .refl
  | exactState => exact .some .refl
  | exactOwner state =>
      dsimp only [Shared.stepFill]
      split <;> exact .some .refl
  | exactPid owner =>
      dsimp only [Shared.stepFill]
      split <;> exact .some .refl
  | _ =>
      refine .some (fun f hf => ?_)
      cases f <;> first
        | rfl
        | exact absurd (List.mem_cons_self ..) hf

theorem stepCheckin_writes {k : CheckinCtx} {i : Nat} {st : CheckinStage} :
    Writes sh st.writes (sh.stepCheckin cfg k i st) := by
  cases st with
  | release => exact .releaseReservation
  | member => exact .enterQueue (List.mem_cons_self ..)
  | push => exact .pushFree (List.mem_cons_self ..)

theorem stepGuard_writes {g : Guard} {st : GuardStage} :
    Writes sh st.writes (sh.stepGuard c g st) := by
  cases st with
  | live =>
      dsimp only [Shared.stepGuard]
      repeat' split
      · exact .some .refl
      · refine .some (fun f hf => ?_)
        cases f <;> first
          | rfl
          | exact absurd (by decide) hf
      · exact .none
      · exact .unpin
  | writing =>
      refine .some (fun f hf => ?_)
      cases f <;> first
        | rfl
        | exact absurd (by decide) hf
  | unpinned => exact .unlatch

theorem stepSubmit_writes {s : SwipId} {p : PageId} {st : SubmitStage} :
    Writes sh st.writes (sh.stepSubmit cfg c a s p st) := by
  cases st with
  | pop => exact .popFree (List.mem_cons_self ..)
  | member i => exact .leaveQueue (List.mem_cons_self ..)
  | claim i =>
      dsimp only [Shared.stepSubmit]
      split
      · exact .some .pin
      · exact .some .refl
  | _ =>
      dsimp only [Shared.stepSubmit]
      repeat' split
      all_goals first
        | exact .some .refl
        | refine .some (fun f hf => ?_)
          cases f <;> first
            | rfl
            | exact absurd (List.mem_cons_self ..) hf

theorem stepTask_writes {t : PrefetchTask} {st : TaskStage} :
    Writes sh st.writes (sh.stepTask a t st) := by
  cases st <;> dsimp only [Shared.stepTask] <;> (repeat' split) <;> first
    | exact .none
    | exact .some .refl
    | refine .some (fun f hf => ?_)
      cases f <;> first
        | rfl
        | exact absurd (List.mem_cons_self ..) hf

theorem stepUnreserve_writes {running : Bool} {p : PageId} {st : UnreserveStage} :
    Writes sh st.writes (sh.stepUnreserve running p st) := by
  cases st <;> dsimp only [Shared.stepUnreserve] <;> (repeat' split) <;> first
    | exact .some .refl
    | refine .some (fun f hf => ?_)
      cases f <;> first
        | rfl
        | exact absurd (List.mem_cons_self ..) hf

theorem stepCooler_writes {st : CoolerStage} : Writes sh st.writes (sh.stepCooler cfg st) := by
  cases st with
  | pushBack m t => exact .pushUnique (List.mem_cons_self ..)
  | pop m =>
      dsimp only [Shared.stepCooler]
      split
      · refine .some (fun f hf => ?_)
        cases f <;> first
          | rfl
          | exact absurd (List.mem_cons_self ..) hf
      · exact .some .refl
  | _ =>
      dsimp only [Shared.stepCooler]
      repeat' split
      all_goals exact .some .refl

theorem stepShutdown_writes {st : ShutdownStage} :
    Writes sh st.writes (sh.stepShutdown cfg c st) := by
  cases st with
  | mark f p s =>
      dsimp only [Shared.stepShutdown]
      split
      · exact .some (.swip (List.mem_cons_self ..))
      · exact .some .refl
  | _ =>
      dsimp only [Shared.stepShutdown]
      repeat' split
      all_goals first
        | exact .none
        | exact .some .refl
        | refine .some (fun f hf => ?_)
          cases f <;> first
            | rfl
            | exact absurd (List.mem_cons_self ..) hf

theorem stepIdle_writes : Writes sh [.swips, .nextSwip, .budgets] (sh.stepIdle cfg c) := by
  unfold Shared.stepIdle
  repeat' split
  all_goals first
    | exact .none
    | exact .some .refl
    | refine .some (fun f hf => ?_)
      cases f <;> first
        | rfl
        | exact absurd (by decide) hf

/-- A step writes only what its program point lists. -/
theorem step_footprint (h : sh.step cfg c a pc = some (sh', pc')) : Footprint pc.writes sh sh' := by
  suffices hw : Writes sh pc.writes (sh.step cfg c a pc) from hw sh' pc' h
  cases pc with
  | idle => exact stepIdle_writes
  | enter op st => exact stepEnter_writes
  | fix k st => exact stepFix_writes
  | fault k st => exact stepFault_writes
  | acquire w st => exact stepAcquire_writes
  | cool k st => exact stepCool_writes
  | enqueue k i p st => exact stepEnqueue_writes
  | evict k t st => exact stepEvict_writes
  | mint i => exact stepMint_writes
  | bind i p => exact stepBind_writes
  | fill f st => exact stepFill_writes
  | checkin k i st => exact stepCheckin_writes
  | leave r => exact stepLeave_writes
  | guard g st => exact stepGuard_writes
  | submit s p st => exact stepSubmit_writes
  | task t st => exact stepTask_writes
  | unreserve running p st => exact stepUnreserve_writes
  | cooler st => exact stepCooler_writes
  | shutdown st => exact stepShutdown_writes
  | returned r => exact .none
  | panicked site => exact .none
  | stuck k => exact .none

/-! ### The writers of each field -/

/-- The program points that can write a field. Those of the words of the free
    queue are not listed. -/
def Field.Writer (pc : Pc) : Field → Prop
  | .data => (∃ f, pc = .fill f .write) ∨ ∃ g, pc = .guard g .writing
  | .pid => (∃ f, pc = .fill f .pid) ∨ (∃ f, pc = .fill f (.failClear .pid)) ∨
    ∃ k t v, pc = .evict k t (.clear v .pid)
  | .ownerSwip => (∃ f, pc = .fill f .owner) ∨ (∃ f, pc = .fill f (.failClear .owner)) ∨
    ∃ k t v, pc = .evict k t (.clear v .owner)
  | .dirty => (∃ f, pc = .fill f .clean) ∨ (∃ f, pc = .fill f .dirty) ∨
    (∃ f, pc = .fill f (.failClear .dirty)) ∨ (∃ g, pc = .guard g .live) ∨
    (∃ k t v, pc = .evict k t (.clean v)) ∨ (∃ k t v, pc = .evict k t (.redirty v)) ∨
    ∃ k t v, pc = .evict k t (.clear v .dirty)
  | .generation => ∃ f, pc = .fill f .generation
  | .swips => pc = .idle ∨ (∃ i p, pc = .bind i p) ∨ (∃ k i, pc = .fix k (.resurrect i)) ∨
    (∃ k i, pc = .fix k (.admission i)) ∨ (∃ k n i p s is, pc = .cool k (.mark n i p s is)) ∨
    (∃ k t s, pc = .evict k t (.sameResurrect s)) ∨ (∃ k t v e, pc = .evict k t (.unwritten v e)) ∨
    (∃ k t v, pc = .evict k t (.unswizzle v)) ∨ (∃ k t v, pc = .evict k t (.reresurrect v)) ∨
    (∃ f m, pc = .fill f (.swizzle m)) ∨ ∃ f p s, pc = .shutdown (.mark f p s)
  | .nextSwip => pc = .idle ∨ ∃ i p, pc = .bind i p
  | .directory => (∃ k t v, pc = .evict k t (.publish v)) ∨ ∃ k t v, pc = .evict k t (.restore v)
  | .pages => ∃ f, pc = .fill f .insert
  | .faults => (∃ k, pc = .fault k .enter) ∨ (∃ k g, pc = .fault k (.wait g)) ∨
    ∃ k g r, pc = .fault k (.finish g r)
  | .nextPid => ∃ i, pc = .mint i
  | .cooling => (∃ w n err m, pc = .acquire w (.sweep n err m)) ∨
    (∃ w n err m t, pc = .acquire w (.pushBack n err m t)) ∨
    (∃ k i p g, pc = .enqueue k i p (.push g)) ∨ (∃ m, pc = .cooler (.pop m)) ∨
    ∃ m t, pc = .cooler (.pushBack m t)
  | .stopping => pc = .shutdown .stop
  | .joined => pc = .shutdown .join
  | .prefetchInFlight => (∃ s p, pc = .submit s p .inFlight) ∨
    ∃ r p, pc = .unreserve r p .inFlight
  | .prefetchPending => (∃ s p, pc = .submit s p .pending) ∨ (∃ s p, pc = .submit s p .unpend) ∨
    ∃ r p, pc = .unreserve r p .pending
  | .prefetched => (∃ k i g, pc = .fix k (.consume i g)) ∨ (∃ f g, pc = .fill f (.mark g)) ∨
    (∃ f m, pc = .fill f (.unmark m)) ∨ ∃ k t v, pc = .evict k t (.consume v)
  | .dramHits | .demandHits => ∃ k i, pc = .fix k (.count i)
  | .prefetchHits => ∃ k i, pc = .fix k (.hit i)
  | .slots => (∃ k t v n err, pc = .evict k t (.write v n err)) ∨
    (∃ k t v, pc = .evict k t (.refree v)) ∨ ∃ k t v, pc = .evict k t (.freeOld v)
  | .budgets => pc = .idle ∨ ∃ k t v n err, pc = .evict k t (.tier v n err)
  | .latest => ∃ g, pc = .guard g .writing
  | .writtenBack => ∃ k t v n err, pc = .evict k t (.write v n err)
  | .channel => (∃ s p i, pc = .submit s p (.send i)) ∨ ∃ t, pc = .task t .queued
  | .free | .freeMembership => True

theorem ClearStage.mem_writes {e : ClearStage} {f : Field} (h : f ∈ e.writes) :
    (f = .pid ∧ e = .pid) ∨ (f = .ownerSwip ∧ e = .owner) ∨ (f = .dirty ∧ e = .dirty) := by
  cases e <;> simp only [ClearStage.writes, List.mem_cons, List.not_mem_nil, or_false] at h <;>
    subst h <;> simp only [reduceCtorEq, and_self, or_false, or_true]

theorem writer_of_mem {f : Field} (h : f ∈ pc.writes) : f.Writer pc := by
  cases pc with
  | idle | enter | mint | bind | leave | returned | panicked | stuck =>
      (simp only [Pc.writes, List.mem_cons, List.not_mem_nil, or_false] at h) <;>
        rcases h with rfl | rfl | rfl <;> simp [Field.Writer]
  | fix k st =>
      cases st <;> (simp only [Pc.writes, FixStage.writes, List.mem_cons,
        List.not_mem_nil, or_false] at h) <;> rcases h with rfl | rfl <;> simp [Field.Writer]
  | fault k st =>
      cases st <;> (simp only [Pc.writes, FaultStage.writes, List.mem_cons,
        List.not_mem_nil, or_false] at h) <;> rcases h with rfl | rfl <;> simp [Field.Writer]
  | acquire w st =>
      cases st <;> (simp only [Pc.writes, AcquireStage.writes, List.mem_cons,
        List.not_mem_nil, or_false] at h) <;> rcases h with rfl | rfl <;> simp [Field.Writer]
  | cool k st =>
      cases st <;> simp only [Pc.writes, CoolStage.writes, List.mem_cons, List.not_mem_nil,
        or_false] at h
      rcases h with rfl | rfl
      all_goals simp [Field.Writer]
  | enqueue k i p st =>
      cases st <;> simp only [Pc.writes, EnqueueStage.writes, List.mem_cons, List.not_mem_nil,
        or_false] at h
      rcases h with rfl | rfl
      all_goals simp [Field.Writer]
  | checkin k i st =>
      cases st <;> (simp only [Pc.writes, CheckinStage.writes, List.mem_cons,
        List.not_mem_nil, or_false] at h) <;> rcases h with rfl | rfl <;> simp [Field.Writer]
  | guard g st =>
      cases st <;> (simp only [Pc.writes, GuardStage.writes, List.mem_cons,
        List.not_mem_nil, or_false] at h) <;> rcases h with rfl | rfl <;> simp [Field.Writer]
  | submit s p st =>
      cases st <;> (simp only [Pc.writes, SubmitStage.writes, List.mem_cons,
        List.not_mem_nil, or_false] at h) <;> rcases h with rfl | rfl <;> simp [Field.Writer]
  | task t st =>
      cases st <;> simp only [Pc.writes, TaskStage.writes, List.mem_cons, List.not_mem_nil,
        or_false] at h
      rcases h with rfl | rfl
      all_goals simp [Field.Writer]
  | unreserve running p st =>
      cases st <;> (simp only [Pc.writes, UnreserveStage.writes, List.mem_cons,
        List.not_mem_nil, or_false] at h) <;> rcases h with rfl | rfl <;> simp [Field.Writer]
  | cooler st =>
      cases st <;> (simp only [Pc.writes, CoolerStage.writes, List.mem_cons,
        List.not_mem_nil, or_false] at h) <;> rcases h with rfl | rfl <;> simp [Field.Writer]
  | shutdown st =>
      cases st <;> (simp only [Pc.writes, ShutdownStage.writes, List.mem_cons,
        List.not_mem_nil, or_false] at h) <;> rcases h with rfl | rfl <;> simp [Field.Writer]
  | evict k t st =>
      cases st with
      | clear v e =>
          rcases ClearStage.mem_writes h with ⟨rfl, rfl⟩ | ⟨rfl, rfl⟩ | ⟨rfl, rfl⟩ <;>
            simp [Field.Writer]
      | _ =>
          (simp only [Pc.writes, EvictStage.writes, List.mem_cons, List.not_mem_nil,
            or_false] at h) <;> rcases h with rfl | rfl <;> simp [Field.Writer]
  | fill f st =>
      cases st with
      | failClear e =>
          rcases ClearStage.mem_writes h with ⟨rfl, rfl⟩ | ⟨rfl, rfl⟩ | ⟨rfl, rfl⟩ <;>
            simp [Field.Writer]
      | _ =>
          (simp only [Pc.writes, FillStage.writes, List.mem_cons, List.not_mem_nil,
            or_false] at h) <;> rcases h with rfl | rfl <;> simp [Field.Writer]

/-- A program point that does not write a field leaves it alone. -/
theorem step_same {f : Field} (h : sh.step cfg c a pc = some (sh', pc')) (hf : ¬ f.Writer pc) :
    f.Same sh sh' :=
  step_footprint h f (fun hmem => hf (writer_of_mem hmem))

end TierBuf
