import TierBuf.Pool.Occupants

/-!
# Handles of Other Managers

What a manager makes of a Swip that it did not create.

Swips are cells that all managers of a process share. A cell of another
manager may well be resident, at an address that means nothing here. `veil`
replaces such a cell by an unbound one with the same page identifier, and
`step_veil` says that the steps of a manager commute with that, as long as the
words they look at belong to the manager. That they do is an invariant: an
operation checks the owner of the handle it is given, and every other Swip an
agent carries has been read from the owner field of a frame.

## Main definitions

* `SwipInner.veil`, `Shared.veil`: Cells as one manager may see them.
* `Pc.touches`: The cell whose word a step looks at.
* `Pc.Carries`: What holds of the Swips read from frames.

## Theorems

* `step_veil`: Steps commute with the veil.
* `step_carries`: The Swips carried come from frames.
* `owners_reachable`: The owner field of a frame names a cell of the manager.
* `carries_reachable`, `touches_reachable`: So do the Swips carried, and every
  word a step looks at is the manager's own.
-/

namespace TierBuf

open Function Ledger Transition

variable {cfg : Config} {sh sh' : Shared} {c : Choice} {a : Agent} {pc pc' : Pc}

/-! ### The veil -/

/-- A cell as manager `id` may see it. -/
def SwipInner.veil (id : Nat) (cell : SwipInner) : SwipInner :=
  if cell.ownerId = id then cell else .fromPid cell.pid

def Shared.veil (id : Nat) (sh : Shared) : Shared :=
  { sh with swips := fun s => (sh.swips s).veil id }

section Veil

variable {id : Nat} {cell : SwipInner}

theorem veil_of_owner (h : cell.ownerId = id) : cell.veil id = cell :=
  if_pos h

theorem veil_of_other (h : cell.ownerId ≠ id) : cell.veil id = .fromPid cell.pid :=
  if_neg h

theorem veil_pid : (cell.veil id).pid = cell.pid := by
  unfold SwipInner.veil
  split <;> rfl

theorem veil_fromPid {p : PageId} : (SwipInner.fromPid p).veil id = .fromPid p := by
  unfold SwipInner.veil
  split <;> rfl

theorem veil_ownerId (hid : id ≠ 0) : (cell.veil id).ownerId = id ↔ cell.ownerId = id := by
  by_cases h : cell.ownerId = id
  · rw [veil_of_owner h]
  · rw [veil_of_other h]
    exact ⟨fun hc => absurd hc.symm hid, fun hc => absurd hc h⟩

theorem veil_belongsTo (hid : id ≠ 0) : (cell.veil id).belongsTo id = cell.belongsTo id := by
  unfold SwipInner.belongsTo
  rw [decide_eq_decide.mpr (veil_ownerId hid)]

theorem veil_setSwip {s : SwipId} (h : cell.veil id = cell) :
    (sh.veil id).setSwip s cell = (sh.setSwip s cell).veil id := by
  have hswips : update (fun s => (sh.swips s).veil id) s cell =
      fun s' => (update sh.swips s cell s').veil id := by
    funext s'
    by_cases hs : s' = s
    · rw [hs, update_self, update_self, h]
    · rw [update_of_ne hs, update_of_ne hs]
  unfold Shared.setSwip Shared.veil
  dsimp only
  rw [hswips]

end Veil

/-- The second step is the first one seen through the veil. -/
def Veils (id : Nat) (o o' : Stepped) : Prop :=
  o' = o.map (fun r => (r.1.veil id, r.2))

/-! ### The words a step looks at -/

/-- The cell whose word the step looks at. -/
def Pc.touches : Pc → Option SwipId
  | .fix k .load | .fix k (.exactState _) | .fix k (.resurrect _) | .fix k (.admission _) =>
    some k.swip
  | .fault k (.leadLoad _) => some k.swip
  | .cool _ (.load _ _ _ s _) | .cool _ (.mark _ _ _ s _) => some s
  | .enqueue _ _ _ (.state s) => some s
  | .evict _ _ (.exact _ (.state s)) | .evict _ _ (.sameResurrect s) => some s
  | .evict _ _ (.unwritten v _) | .evict _ _ (.unswizzle v) | .evict _ _ (.reresurrect v) =>
    some v.swip
  | .fill f (.swizzle _) | .fill f .exactState => some f.swip
  | .submit s _ .load => some s
  | .shutdown (.load _ _ s) | .shutdown (.mark _ _ s) => some s
  | _ => none

/-- The word the step looks at belongs to the manager. -/
def Touches (cfg : Config) (sh : Shared) (pc : Pc) : Prop :=
  ∀ s, pc.touches = some s → (sh.swips s).ownerId = cfg.id

theorem Touches.veil {s : SwipId} (h : Touches cfg sh pc) (hs : pc.touches = some s) :
    (sh.veil cfg.id).swips s = sh.swips s :=
  veil_of_owner (h s hs)

/-- A compare-and-swap on a cell of the manager. -/
theorem veils_exchange {s : SwipId} {e r : SwipState} {pc' : Pc}
    (hs : (sh.swips s).ownerId = cfg.id) :
    Veils cfg.id
      (match (sh.swips s).compareExchange e r with
        | some cell => some (sh.setSwip s cell, pc)
        | none => some (sh, pc'))
      (match ((sh.veil cfg.id).swips s).compareExchange e r with
        | some cell => some ((sh.veil cfg.id).setSwip s cell, pc)
        | none => some (sh.veil cfg.id, pc')) := by
  have hcell : (sh.veil cfg.id).swips s = sh.swips s := veil_of_owner hs
  rw [hcell]
  unfold Veils
  cases hx : (sh.swips s).compareExchange e r with
  | none => rfl
  | some cell =>
      rcases SwipInner.compareExchange_eq_some.mp hx with ⟨-, rfl⟩
      have howner : ({ sh.swips s with state := r } : SwipInner).ownerId = cfg.id := hs
      dsimp only [Option.map_some]
      rw [veil_setSwip (veil_of_owner howner)]

theorem stepEnter_veils {op : Operation} {st : EnterStage} :
    Veils cfg.id (sh.stepEnter cfg op st) ((sh.veil cfg.id).stepEnter cfg op st) := by
  unfold Veils
  cases st with
  | validate =>
      cases op with
      | allocate => rfl
      | fix s mode =>
          dsimp only [Shared.stepEnter, Shared.veil]
          rw [veil_belongsTo cfg.id_pos, veil_pid]
          split <;> rfl
  | reject =>
      cases op with
      | allocate => rfl
      | fix s mode =>
          dsimp only [Shared.stepEnter, Shared.veil]
          rw [veil_pid]
          split <;> rfl
  | _ =>
      cases op <;> dsimp only [Shared.stepEnter, Shared.veil] <;> (repeat' split) <;> rfl

theorem stepFix_veils {k : FixCtx} {st : FixStage} (h : Touches cfg sh (.fix k st)) :
    Veils cfg.id (sh.stepFix cfg c k st) ((sh.veil cfg.id).stepFix cfg c k st) := by
  cases st with
  | load =>
      unfold Veils
      dsimp only [Shared.stepFix]
      rw [h.veil rfl]
      (repeat' split) <;> rfl
  | exactState i =>
      unfold Veils
      dsimp only [Shared.stepFix]
      rw [h.veil rfl]
      rfl
  | resurrect i => exact veils_exchange (h _ rfl)
  | admission i =>
      dsimp only [Shared.stepFix]
      split
      · rfl
      · exact veils_exchange (h _ rfl)
  | _ =>
      unfold Veils
      dsimp only [Shared.stepFix, Shared.lockLatch, Shared.unlatch, Shared.unpin, Shared.veil]
      (repeat' split) <;> rfl

theorem stepFault_veils {k : FaultCtx} {st : FaultStage} (h : Touches cfg sh (.fault k st)) :
    Veils cfg.id (sh.stepFault cfg k st) ((sh.veil cfg.id).stepFault cfg k st) := by
  unfold Veils
  cases st with
  | leadLoad g =>
      dsimp only [Shared.stepFault]
      rw [h.veil rfl]
      (repeat' split) <;> rfl
  | _ =>
      dsimp only [Shared.stepFault, Shared.veil]
      (repeat' split) <;> rfl

theorem stepAcquire_veils {w : AcquireCtx} {st : AcquireStage} :
    Veils cfg.id (sh.stepAcquire cfg w st) ((sh.veil cfg.id).stepAcquire cfg w st) := by
  unfold Veils
  cases st <;> dsimp only [Shared.stepAcquire, Shared.popFree, Shared.leaveQueue,
    Shared.pushUnique, Shared.veil] <;> (repeat' split) <;> rfl

theorem stepCool_veils {k : CoolCtx} {st : CoolStage} (h : Touches cfg sh (.cool k st)) :
    Veils cfg.id (sh.stepCool cfg c k st) ((sh.veil cfg.id).stepCool cfg c k st) := by
  cases st with
  | load desired i p s candidates =>
      unfold Veils
      dsimp only [Shared.stepCool]
      rw [h.veil rfl]
      (repeat' split) <;> rfl
  | mark desired i p s candidates => exact veils_exchange (h _ rfl)
  | _ =>
      unfold Veils
      dsimp only [Shared.stepCool, Shared.veil]
      (repeat' split) <;> rfl

theorem stepEnqueue_veils {k : EnqueueCtx} {i : Nat} {p : PageId} {st : EnqueueStage}
    (h : Touches cfg sh (.enqueue k i p st)) :
    Veils cfg.id (sh.stepEnqueue cfg k i p st) ((sh.veil cfg.id).stepEnqueue cfg k i p st) := by
  unfold Veils
  cases st with
  | state s =>
      dsimp only [Shared.stepEnqueue]
      rw [h.veil rfl]
      split <;> rfl
  | _ =>
      dsimp only [Shared.stepEnqueue, Shared.pushUnique, Shared.veil]
      (repeat' split) <;> rfl

theorem stepEvict_veils {k : EvictCtx} {t : CoolingTicket} {st : EvictStage}
    (h : Touches cfg sh (.evict k t st)) :
    Veils cfg.id (sh.stepEvict cfg c k t st) ((sh.veil cfg.id).stepEvict cfg c k t st) := by
  cases st with
  | exact pass e =>
      unfold Veils
      cases e with
      | state s =>
          cases pass <;> dsimp only [Shared.stepEvict, Shared.stepExact] <;> rw [h.veil rfl] <;>
            (repeat' split) <;> rfl
      | _ =>
          cases pass <;> dsimp only [Shared.stepEvict, Shared.stepExact, Shared.veil] <;>
            (repeat' split) <;> rfl
  | sameResurrect s => exact veils_exchange (h _ rfl)
  | unwritten v e => exact veils_exchange (h _ rfl)
  | unswizzle v => exact veils_exchange (h _ rfl)
  | reresurrect v => exact veils_exchange (h _ rfl)
  | write v index err =>
      unfold Veils
      dsimp only [Shared.stepEvict, Shared.acceptWrite, Shared.veil]
      split
      · cases sh.slots ⟨index, c.offset⟩ <;> rfl
      · rfl
  | clear v e =>
      unfold Veils
      cases e <;> dsimp only [Shared.stepEvict, Shared.stepClear, Shared.lockLatch, Shared.unlatch,
        Shared.veil] <;> (repeat' split) <;> rfl
  | _ =>
      unfold Veils
      dsimp only [Shared.stepEvict, Shared.lockLatch, Shared.unlatch, Shared.releaseReservation,
        Shared.enterQueue, Shared.pushFree, Shared.freeSlot, Shared.veil]
      (repeat' split) <;> rfl

theorem stepBind_veils {i : Nat} {p : PageId} :
    Veils cfg.id (sh.stepBind cfg i p) ((sh.veil cfg.id).stepBind cfg i p) := by
  unfold Veils Shared.stepBind
  cases hbind : (SwipInner.fromPid p).tryBindOwner cfg.id with
  | none => rfl
  | some cell =>
      cases hbind
      have hcell : ({ SwipInner.fromPid p with ownerId := cfg.id } : SwipInner).ownerId = cfg.id :=
        rfl
      dsimp only [Option.map_some]
      rw [show (sh.veil cfg.id).nextSwip = sh.nextSwip from rfl, veil_setSwip (veil_of_owner hcell)]
      rfl

theorem stepFill_veils {f : Filling} {st : FillStage} (h : Touches cfg sh (.fill f st)) :
    Veils cfg.id (sh.stepFill cfg c f st) ((sh.veil cfg.id).stepFill cfg c f st) := by
  cases st with
  | swizzle m => exact veils_exchange (h _ rfl)
  | exactState =>
      unfold Veils
      dsimp only [Shared.stepFill]
      rw [h.veil rfl]
      rfl
  | failClear e =>
      unfold Veils
      cases e <;> dsimp only [Shared.stepFill, Shared.stepClear, Shared.lockLatch, Shared.unlatch,
        Shared.veil] <;> (repeat' split) <;> rfl
  | _ =>
      unfold Veils
      dsimp only [Shared.stepFill, Shared.lockLatch, Shared.unlatch, Shared.unpin,
        Shared.releaseReservation, Shared.readSlot, Shared.veil]
      (repeat' split) <;> rfl

theorem stepSubmit_veils {s : SwipId} {p : PageId} {st : SubmitStage}
    (h : Touches cfg sh (.submit s p st)) :
    Veils cfg.id (sh.stepSubmit cfg c a s p st) ((sh.veil cfg.id).stepSubmit cfg c a s p st) := by
  unfold Veils
  cases st with
  | owner =>
      dsimp only [Shared.stepSubmit, Shared.veil]
      rw [veil_belongsTo cfg.id_pos]
      split <;> rfl
  | load =>
      dsimp only [Shared.stepSubmit]
      rw [h.veil rfl]
      split <;> rfl
  | _ =>
      dsimp only [Shared.stepSubmit, Shared.popFree, Shared.leaveQueue, Shared.veil]
      (repeat' split) <;> rfl

theorem stepShutdown_veils {st : ShutdownStage} (h : Touches cfg sh (.shutdown st)) :
    Veils cfg.id (sh.stepShutdown cfg c st) ((sh.veil cfg.id).stepShutdown cfg c st) := by
  cases st with
  | load f p s =>
      unfold Veils
      dsimp only [Shared.stepShutdown]
      rw [h.veil rfl]
      (repeat' split) <;> rfl
  | mark f p s => exact veils_exchange (h _ rfl)
  | _ =>
      unfold Veils
      dsimp only [Shared.stepShutdown, Shared.veil]
      (repeat' split) <;> rfl

theorem stepIdle_veils : Veils cfg.id (sh.stepIdle cfg c) ((sh.veil cfg.id).stepIdle cfg c) := by
  unfold Veils
  dsimp only [Shared.stepIdle]
  cases c.call with
  | fix s mode =>
      change (if s < sh.nextSwip then
        some (sh.veil cfg.id, Pc.enter (.fix s mode) .running) else none) = _
      by_cases hs : s < sh.nextSwip
      · simp only [if_pos hs, Option.map_some]
      · simp only [if_neg hs, Option.map_none]
  | prefetch s =>
      change (if s < sh.nextSwip then
        some (sh.veil cfg.id, Pc.submit s ((sh.swips s).veil cfg.id).pid .stop) else none) = _
      rw [veil_pid]
      by_cases hs : s < sh.nextSwip
      · simp only [if_pos hs, Option.map_some]
      · simp only [if_neg hs, Option.map_none]
  | fromPid p =>
      dsimp only [Option.map_some]
      rw [show (sh.veil cfg.id).nextSwip = sh.nextSwip from rfl, veil_setSwip veil_fromPid]
      rfl
  | cooler =>
      change (if sh.joined then none
        else some (({ sh with workers := sh.workers + 1 } : Shared).veil cfg.id, Pc.cooler .stop)) = _
      cases sh.joined <;> rfl
  | _ => rfl

/-- A step that looks at words of its own manager only is the same step when
    the other cells are veiled. -/
theorem step_veils (h : Touches cfg sh pc) :
    Veils cfg.id (sh.step cfg c a pc) ((sh.veil cfg.id).step cfg c a pc) := by
  cases pc with
  | idle => exact stepIdle_veils
  | enter op st => exact stepEnter_veils
  | fix k st => exact stepFix_veils h
  | fault k st => exact stepFault_veils h
  | acquire w st => exact stepAcquire_veils
  | cool k st => exact stepCool_veils h
  | enqueue k i p st => exact stepEnqueue_veils h
  | evict k t st => exact stepEvict_veils h
  | bind i p => exact stepBind_veils
  | fill f st => exact stepFill_veils h
  | submit s p st => exact stepSubmit_veils h
  | shutdown st => exact stepShutdown_veils h
  | mint i =>
      unfold Veils
      dsimp only [Shared.step, Shared.stepMint, Shared.veil]
      split <;> rfl
  | checkin k i st =>
      unfold Veils
      cases st <;> dsimp only [Shared.step, Shared.stepCheckin, Shared.releaseReservation,
        Shared.enterQueue, Shared.pushFree, Shared.veil] <;> (repeat' split) <;> rfl
  | leave r =>
      unfold Veils
      dsimp only [Shared.step, Shared.stepLeave, Shared.veil]
      (repeat' split) <;> rfl
  | guard g st =>
      unfold Veils
      cases st <;> dsimp only [Shared.step, Shared.stepGuard, Shared.unpin, Shared.unlatch,
        Shared.veil] <;> (repeat' split) <;> rfl
  | task t st =>
      unfold Veils
      cases st <;> dsimp only [Shared.step, Shared.stepTask, Shared.veil] <;> (repeat' split) <;> rfl
  | unreserve running p st =>
      unfold Veils
      cases st <;> dsimp only [Shared.step, Shared.stepUnreserve, Shared.veil] <;>
        (repeat' split) <;> rfl
  | cooler st =>
      unfold Veils
      cases st <;> dsimp only [Shared.step, Shared.stepCooler, Shared.pushUnique, Shared.veil] <;>
        (repeat' split) <;> rfl
  | returned r => rfl
  | panicked site => rfl
  | stuck k => rfl

theorem step_veil (h : Touches cfg sh pc) (hs : sh.step cfg c a pc = some (sh', pc')) :
    (sh.veil cfg.id).step cfg c a pc = some (sh'.veil cfg.id, pc') := by
  have hveils : (sh.veil cfg.id).step cfg c a pc =
    (sh.step cfg c a pc).map (fun r => (r.1.veil cfg.id, r.2)) := step_veils h
  rw [hveils, hs]
  rfl

/-! ### The Swips an agent carries -/

def ExactStage.Carries (Q : SwipId → Prop) : ExactStage → Prop
  | .state s | .pages s => Q s
  | _ => True

def Pass.Carries (Q : SwipId → Prop) : Pass → Prop
  | .first => True
  | .second s => Q s

def EvictStage.Carries (Q : SwipId → Prop) : EvictStage → Prop
  | .exact pass e => pass.Carries Q ∧ e.Carries Q
  | .claim s | .lock s | .samePid s | .sameGeneration s | .sameOwner s | .sameResurrect s
  | .backing s | .dirty s _ => Q s
  | .exitUnlatch _ | .exitRelease _ => True
  | .target v | .tier v _ _ | .write v _ _ | .unwritten v _ | .publish v | .clean v | .unswizzle v
  | .restore v | .refree v | .redirty v | .reresurrect v | .consume v | .unlatch v | .clear v _
  | .release v | .member v | .push v | .freeOld v => Q v.swip

/-- What holds of the Swips that an agent has read from the owner field of a
    frame, or whose owner it has checked. -/
def Pc.Carries (Q : SwipId → Prop) : Pc → Prop
  | .cool _ (.load _ _ _ s _) | .cool _ (.mark _ _ _ s _) => Q s
  | .enqueue _ _ _ (.state s) => Q s
  | .evict _ _ st => st.Carries Q
  | .submit s _ .load => Q s
  | .shutdown (.load _ _ s) | .shutdown (.mark _ _ s) => Q s
  | _ => True

section Carrying

variable {Q : SwipId → Prop}

theorem carries_evictReturn {k : EvictCtx} {t : CoolingTicket}
    {r : Except TierBufError EvictionOutcome} : (k.return t r).Carries Q := by
  rcases r with e | outcome
  · cases k <;> trivial
  · cases outcome <;> cases k <;> trivial

theorem carries_enqueueReturn {k : EnqueueCtx} {i : Nat} : (k.return i).Carries Q := by
  cases k <;> trivial

theorem carries_coolReturn {k : CoolCtx} : k.return.Carries Q := by
  cases k <;> trivial

theorem carries_panicked {site : PanicSite} : (Pc.panicked site).Carries Q :=
  trivial

variable (howner : ∀ i s, sh.ownerSwip i = some s → Q s)

include howner

theorem stepExact_carries {t : CoolingTicket} {back : ExactStage → Pc} {fails : Pc}
    {found : SwipId → Pc} {e : ExactStage} (he : e.Carries Q)
    (hback : ∀ e', e'.Carries Q → (back e').Carries Q) (hfails : fails.Carries Q)
    (hfound : ∀ s, Q s → (found s).Carries Q) :
    Goes (Pc.Carries Q) (sh.stepExact cfg t back fails found e) := by
  cases e with
  | owner =>
      dsimp only [Shared.stepExact]
      split
      · exact .some hfails
      · exact .some (hback _ (howner _ _ ‹_›))
  | state s =>
      dsimp only [Shared.stepExact]
      split
      · exact .some (hback _ he)
      · exact .some hfails
  | pages s =>
      dsimp only [Shared.stepExact]
      split
      · exact .some (hfound _ he)
      · exact .some hfails
  | _ =>
      dsimp only [Shared.stepExact]
      split
      · exact .some hfails
      · exact .some (hback _ trivial)

theorem stepEvict_carries {k : EvictCtx} {t : CoolingTicket} {st : EvictStage}
    (h : st.Carries Q) : Goes (Pc.Carries Q) (sh.stepEvict cfg c k t st) := by
  cases st with
  | exact pass e =>
      dsimp only [Shared.stepEvict]
      cases pass with
      | first =>
          exact stepExact_carries howner h.2 (fun e' he' => ⟨trivial, he'⟩) carries_evictReturn
            (fun s hs => hs)
      | second s =>
          refine stepExact_carries howner h.2 (fun e' he' => ⟨h.1, he'⟩) h.1 (fun s' hs' => ?_)
          split
          · exact h.1
          · exact h.1
  | lock s => exact .lockLatch ⟨h, trivial⟩
  | unlatch v => exact .unlatch h (fun _ => trivial)
  | clear v e =>
      dsimp only [Shared.stepEvict]
      exact .stepClear (fun _ => h) h (fun _ => trivial)
  | release v => exact .releaseReservation h (fun _ => trivial)
  | member v => exact .enterQueue h (fun _ => trivial)
  | push v => exact .pushFree h (fun _ => trivial)
  | exitUnlatch r => exact .unlatch trivial (fun _ => trivial)
  | exitRelease r => exact .releaseReservation carries_evictReturn (fun _ => trivial)
  | restore v =>
      dsimp only [Shared.stepEvict]
      (repeat' split) <;> exact .some h
  | _ =>
      dsimp only [Shared.stepEvict]
      (repeat' split) <;> first
        | exact .none
        | exact .some h
        | exact .some trivial
        | exact .some carries_evictReturn

/-- An agent goes on with the Swips it carries, and picks up new ones from
    frames and from the handle of a prefetch. -/
theorem step_carries (hbound : ∀ s, (sh.swips s).belongsTo cfg.id = true → Q s)
    (h : pc.Carries Q) (hs : sh.step cfg c a pc = some (sh', pc')) : pc'.Carries Q := by
  have hflow := step_flow hs
  cases pc with
  | cool k st =>
      suffices hgoes : Goes (Pc.Carries Q) (sh.stepCool cfg c k st) from hgoes sh' pc' hs
      cases st with
      | owner desired i p candidates =>
          dsimp only [Shared.stepCool]
          split
          · exact .some trivial
          · exact .some (howner _ _ ‹_›)
      | load desired i p s candidates =>
          dsimp only [Shared.stepCool]
          repeat' split
          · exact .some h
          · exact .some trivial
          · exact .some trivial
      | _ =>
          dsimp only [Shared.stepCool]
          (repeat' split) <;> first
            | exact .none
            | exact .some trivial
            | exact .some carries_coolReturn
  | enqueue k i p st =>
      suffices hgoes : Goes (Pc.Carries Q) (sh.stepEnqueue cfg k i p st) from hgoes sh' pc' hs
      cases st with
      | owner =>
          dsimp only [Shared.stepEnqueue]
          split
          · exact .some carries_enqueueReturn
          · exact .some (howner _ _ ‹_›)
      | _ =>
          dsimp only [Shared.stepEnqueue]
          (repeat' split) <;> first
            | exact .some trivial
            | exact .some carries_enqueueReturn
  | evict k t st => exact stepEvict_carries howner h sh' pc' hs
  | submit s p st =>
      suffices hgoes : Goes (Pc.Carries Q) (sh.stepSubmit cfg c a s p st) from hgoes sh' pc' hs
      cases st with
      | owner =>
          dsimp only [Shared.stepSubmit]
          split
          · exact .some (hbound s ‹_›)
          · exact .some trivial
      | pop => exact .popFree (fun _ => trivial) trivial
      | member i => exact .leaveQueue trivial (fun _ => trivial)
      | _ =>
          dsimp only [Shared.stepSubmit]
          (repeat' split) <;> exact .some trivial
  | shutdown st =>
      suffices hgoes : Goes (Pc.Carries Q) (sh.stepShutdown cfg c st) from hgoes sh' pc' hs
      cases st with
      | owner f p =>
          dsimp only [Shared.stepShutdown]
          split
          · exact .some trivial
          · exact .some (howner _ _ ‹_›)
      | load f p s =>
          dsimp only [Shared.stepShutdown]
          repeat' split
          · exact .some h
          · exact .some trivial
          · exact .some trivial
      | generation f p => exact .some ⟨trivial, trivial⟩
      | _ =>
          dsimp only [Shared.stepShutdown]
          (repeat' split) <;> first
            | exact .none
            | exact .some trivial
  | fault k st =>
      cases hflow with
      | @faultReturn _ _ r =>
          cases k with
          | demand k =>
              rcases r with e | tier
              · trivial
              · cases tier <;> trivial
          | prefetch t =>
              unfold FaultCtx.return
              dsimp only
              split <;> trivial
      | _ => trivial
  | acquire w st =>
      cases hflow with
      | acquired => cases w <;> trivial
      | acquireFailed => cases w <;> trivial
      | acquireEvict => exact ⟨trivial, trivial⟩
      | _ => trivial
  | cooler st =>
      cases hflow with
      | coolerEvict => exact ⟨trivial, trivial⟩
      | _ => trivial
  | checkin k i st =>
      cases hflow with
      | checkinReturn => cases k <;> trivial
      | _ => trivial
  | stuck k => cases hs
  | returned r => cases hs
  | panicked site => cases hs
  | _ => cases hflow <;> trivial

end Carrying

/-! ### Runs -/

theorem EvictStage.Carries.mono {Q Q' : SwipId → Prop} (hQ : ∀ s, Q s → Q' s) {st : EvictStage}
    (h : st.Carries Q) : st.Carries Q' := by
  cases st with
  | exact pass e =>
      constructor
      · cases pass with
        | first => trivial
        | second s => exact hQ s h.1
      · cases e with
        | state s => exact hQ s h.2
        | pages s => exact hQ s h.2
        | _ => trivial
  | exitUnlatch r => trivial
  | exitRelease r => trivial
  | _ => exact hQ _ h

theorem Pc.Carries.mono {Q Q' : SwipId → Prop} (hQ : ∀ s, Q s → Q' s) (h : pc.Carries Q) :
    pc.Carries Q' := by
  cases pc with
  | cool k st =>
      cases st with
      | load n i p s is => exact hQ s h
      | mark n i p s is => exact hQ s h
      | _ => trivial
  | enqueue k i p st =>
      cases st with
      | state s => exact hQ s h
      | _ => trivial
  | evict k t st => exact EvictStage.Carries.mono hQ h
  | submit s p st =>
      cases st with
      | load => exact hQ s h
      | _ => trivial
  | shutdown st =>
      cases st with
      | load f p s => exact hQ s h
      | mark f p s => exact hQ s h
      | _ => trivial
  | _ => trivial

section Runs

variable {s s' : PoolState} {l : Agent × Choice}

/-- A cell stays with its manager. -/
theorem bound_next (hr : Reachable (pool cfg) s) (hs : (pool cfg).next s l = some s') {w : SwipId}
    (hw : s.shared.store.Bound cfg w) : s'.shared.store.Bound cfg w :=
  (cell_keeps (pool_next hs).1 ((inv_reachable hr).bound_lt hw)).2.trans hw

/-- The page that a frame is filled with has a cell of the manager. -/
theorem fill_bound (hr : Reachable (pool cfg) s) {f : Filling} {st : FillStage} {d : Draft}
    (hpc : s.pcs a = .fill f st) (hd : (st.role f).tenure.draft = some d) (hswip : d.swip = f.swip) :
    s.shared.store.Bound cfg f.swip := by
  have h := inv_reachable hr
  have hsound := h.sound a
  rw [role_at hpc] at hsound
  rw [← hswip]
  rcases hsound.draft d hd with ⟨loc, hwarrant⟩ | hwarrant
  · have hlocated := hsound.warrant
    rw [hwarrant] at hlocated
    exact (h.cells.listed _ _ hlocated.1).1
  · have hfresh := hsound.warrant
    rw [hwarrant] at hfresh
    exact hfresh.2.2.2.1

theorem owners_reachable (hr : Reachable (pool cfg) s) {i : Nat} {w : SwipId}
    (hw : s.shared.ownerSwip i = some w) : s.shared.store.Bound cfg w := by
  suffices hall : ∀ i w, s.shared.ownerSwip i = some w → s.shared.store.Bound cfg w from
    hall i w hw
  refine reachableVia_invariant (M := pool cfg) (P := fun _ _ => True)
    (I := fun s => ∀ i w, s.shared.ownerSwip i = some w → s.shared.store.Bound cfg w) ?_
    (fun s l s' hr ih _ hs => ?_) hr
  · rintro s ⟨budgets, rfl⟩ i w hw
    cases hw
  · intro i w hw
    rcases pool_next hs with ⟨hstep, -⟩
    suffices hbound : s.shared.ownerSwip i = some w ∨ s.shared.store.Bound cfg w by
      rcases hbound with hold | hbound
      · exact bound_next hr hs (ih i w hold)
      · exact bound_next hr hs hbound
    by_cases hwriter : Field.Writer (s.pcs l.1) .ownerSwip
    · rcases hwriter with ⟨f, hpc⟩ | ⟨f, hpc⟩ | ⟨k, t, v, hpc⟩
      · have hafter : update s.shared.ownerSwip f.index (some f.swip) = s'.shared.ownerSwip := by
          rw [hpc] at hstep
          exact congrArg (fun r => r.1.ownerSwip) (Option.some.inj hstep)
        rw [← hafter] at hw
        by_cases hi : i = f.index
        · rw [hi, update_self] at hw
          rw [← Option.some.inj hw]
          exact .inr (fill_bound hr hpc rfl rfl)
        · rw [update_of_ne hi] at hw
          exact .inl hw
      · exact (absurd_role hr hpc rfl).elim
      · have hafter : update s.shared.ownerSwip t.frameIndex none = s'.shared.ownerSwip := by
          rw [hpc] at hstep
          exact congrArg (fun r => r.1.ownerSwip) (Option.some.inj hstep)
        rw [← hafter] at hw
        by_cases hi : i = t.frameIndex
        · rw [hi, update_self] at hw
          cases hw
        · rw [update_of_ne hi] at hw
          exact .inl hw
    · have hsame : s'.shared.ownerSwip = s.shared.ownerSwip := step_same hstep hwriter
      rw [hsame] at hw
      exact .inl hw

/-- The Swips that agents carry belong to the manager. -/
theorem carries_reachable (hr : Reachable (pool cfg) s) (a : Agent) :
    (s.pcs a).Carries (s.shared.store.Bound cfg) := by
  refine reachableVia_invariant (M := pool cfg) (P := fun _ _ => True)
    (I := fun s => ∀ a, (s.pcs a).Carries (s.shared.store.Bound cfg)) ?_
    (fun s l s' hr ih _ hs => ?_) hr a
  · rintro s ⟨budgets, rfl⟩ a
    trivial
  · intro b
    rcases pool_next hs with ⟨hstep, hother⟩
    by_cases hb : b = l.1
    · subst hb
      refine Pc.Carries.mono (fun w => bound_next hr hs) (step_carries (fun i w hw => ?_)
        (fun w hw => ?_) (ih l.1) hstep)
      · exact owners_reachable hr hw
      · unfold SwipInner.belongsTo at hw
        have howner : (s.shared.swips w).ownerId = cfg.id :=
          of_decide_eq_true (Bool.and_eq_true_iff.mp hw).2
        exact howner
    · rw [hother b hb]
      exact Pc.Carries.mono (fun w => bound_next hr hs) (ih b)

/-- Every word a step looks at belongs to the manager. -/
theorem touches_reachable (hr : Reachable (pool cfg) s) (a : Agent) :
    Touches cfg s.shared (s.pcs a) := by
  have h := inv_reachable hr
  have hsound := h.sound a
  have hcarries := carries_reachable hr a
  intro w hw
  generalize hpc : s.pcs a = pc at hw hcarries
  rw [role_at hpc] at hsound
  cases pc with
  | fix k st =>
      cases st with
      | load | exactState | resurrect | admission =>
          cases hw
          exact hsound.warrant.1
      | _ => cases hw
  | fault k st =>
      cases st with
      | leadLoad g =>
          cases hw
          exact (h.cells.listed _ _ hsound.warrant).1
      | _ => cases hw
  | cool k st =>
      cases st with
      | load | mark =>
          cases hw
          exact hcarries
      | _ => cases hw
  | enqueue k i p st =>
      cases st with
      | state s =>
          cases hw
          exact hcarries
      | _ => cases hw
  | evict k t st =>
      cases st with
      | exact pass e =>
          cases e with
          | state s =>
              cases hw
              exact hcarries.2
          | _ => cases hw
      | sameResurrect | unwritten | unswizzle | reresurrect =>
          cases hw
          exact hcarries
      | _ => cases hw
  | fill f st =>
      cases st with
      | swizzle m =>
          cases hw
          exact fill_bound hr hpc rfl rfl
      | exactState =>
          cases hw
          have hres : s.shared.store.Resides cfg f.swip f.index := hsound.tenure
          exact (h.cells.occupies hres).bound
      | _ => cases hw
  | submit s p st =>
      cases st with
      | load =>
          cases hw
          exact hcarries
      | _ => cases hw
  | shutdown st =>
      cases st with
      | load | mark =>
          cases hw
          exact hcarries
      | _ => cases hw
  | _ => cases hw

end Runs

end TierBuf
