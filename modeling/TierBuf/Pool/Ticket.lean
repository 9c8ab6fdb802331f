import TierBuf.Pool.Flow
import TierBuf.Pool.Safety

/-!
# Tickets

The control flow of `evict_ticket`.

The function is long and most of what is proved about it concerns a few of its
stages. `EvictEdge` lists from which stage each stage can be entered, with the
local variables that go along, and `EvictExit` lists where it returns and with
what.

## Main definitions

* `EvictEdge`: The edges between the stages.
* `EvictExit`: The stages that return.

## Theorems

* `step_evict`: A step of an evictor follows an edge or an exit.
* `into_evict`: Whoever is at a stage has come along an edge.
-/

namespace TierBuf

open Function Ledger Transition

variable {cfg : Config} {sh sh' : Shared} {c : Choice} {a : Agent} {pc pc' : Pc}
  {k : EvictCtx} {t : CoolingTicket}

/-- From which stage a stage of `evict_ticket` is entered. -/
inductive EvictEdge : EvictStage → EvictStage → Prop where
  | generation {pass : Pass} : EvictEdge (.exact pass .pid) (.exact pass .generation)
  | owner {pass : Pass} : EvictEdge (.exact pass .generation) (.exact pass .owner)
  | state {pass : Pass} {s : SwipId} : EvictEdge (.exact pass .owner) (.exact pass (.state s))
  | pages {pass : Pass} {s : SwipId} : EvictEdge (.exact pass (.state s)) (.exact pass (.pages s))
  | claim {s : SwipId} : EvictEdge (.exact .first (.pages s)) (.claim s)
  | lock {s : SwipId} : EvictEdge (.claim s) (.lock s)
  | second {s : SwipId} : EvictEdge (.lock s) (.exact (.second s) .pid)
  | inexact {s : SwipId} {e : ExactStage} : EvictEdge (.exact (.second s) e) (.samePid s)
  | sameGeneration {s : SwipId} : EvictEdge (.samePid s) (.sameGeneration s)
  | sameOwner {s : SwipId} : EvictEdge (.sameGeneration s) (.sameOwner s)
  | sameResurrect {s : SwipId} : EvictEdge (.sameOwner s) (.sameResurrect s)
  | otherPid {s : SwipId} : EvictEdge (.samePid s) (.exitUnlatch (.ok .stale))
  | otherGeneration {s : SwipId} : EvictEdge (.sameGeneration s) (.exitUnlatch (.ok .stale))
  | otherOwner {s : SwipId} : EvictEdge (.sameOwner s) (.exitUnlatch (.ok .stale))
  | resurrected {s : SwipId} : EvictEdge (.sameResurrect s) (.exitUnlatch (.ok .stale))
  | backing {s : SwipId} : EvictEdge (.exact (.second s) (.pages s)) (.backing s)
  | dirty {s : SwipId} {old : Option Location} : EvictEdge (.backing s) (.dirty s old)
  | target {s : SwipId} {old : Option Location} {wasDirty : Bool} :
      EvictEdge (.dirty s old) (.target ⟨s, old, wasDirty, none, none⟩)
  | clean {s : SwipId} {old : Option Location} {wasDirty : Bool} :
      EvictEdge (.dirty s old) (.publish ⟨s, old, wasDirty, none, none⟩)
  | tier {v : Eviction} {index : Nat} : EvictEdge (.target v) (.tier v index none)
  | exhausted {v : Eviction} {index : Nat} {err : Option TierBufError} {e : TierBufError} :
      EvictEdge (.tier v index err) (.unwritten v e)
  | write {v : Eviction} {index : Nat} {err : Option TierBufError} :
      EvictEdge (.tier v index err) (.write v index err)
  | denied {v : Eviction} {index : Nat} {err err' : Option TierBufError} :
      EvictEdge (.tier v index err) (.tier v (index + 1) err')
  | failed {v : Eviction} {index : Nat} {err err' : Option TierBufError} :
      EvictEdge (.write v index err) (.tier v (index + 1) err')
  | written {v : Eviction} {index offset : Nat} {err : Option TierBufError} :
      EvictEdge (.write v index err) (.publish { v with new := some ⟨index, offset⟩ })
  | unwritten {v : Eviction} {e : TierBufError} :
      EvictEdge (.unwritten v e) (.exitUnlatch (.error e))
  | published {v : Eviction} {previous : Option Location} :
      EvictEdge (.publish v) (.clean { v with previous := previous })
  | unswizzle {v : Eviction} : EvictEdge (.clean v) (.unswizzle v)
  | consume {v : Eviction} : EvictEdge (.unswizzle v) (.consume v)
  | restore {v : Eviction} : EvictEdge (.unswizzle v) (.restore v)
  | refree {v : Eviction} : EvictEdge (.restore v) (.refree v)
  | unpublished {v : Eviction} : EvictEdge (.restore v) (.redirty v)
  | redirty {v : Eviction} : EvictEdge (.refree v) (.redirty v)
  | reresurrect {v : Eviction} : EvictEdge (.redirty v) (.reresurrect v)
  | restored {v : Eviction} : EvictEdge (.reresurrect v) (.exitUnlatch (.ok .stale))
  | unlatch {v : Eviction} : EvictEdge (.consume v) (.unlatch v)
  | clear {v : Eviction} {e : ClearStage} : EvictEdge (.unlatch v) (.clear v e)
  | clearNext {v : Eviction} {e e' : ClearStage} : EvictEdge (.clear v e) (.clear v e')
  | release {v : Eviction} {e : ClearStage} : EvictEdge (.clear v e) (.release v)
  | member {v : Eviction} : EvictEdge (.release v) (.member v)
  | push {v : Eviction} : EvictEdge (.member v) (.push v)
  | freeOld {v : Eviction} : EvictEdge (.push v) (.freeOld v)
  | exitRelease {r : Except TierBufError EvictionOutcome} :
      EvictEdge (.exitUnlatch r) (.exitRelease r)

/-- The stages that return, and what they return. -/
inductive EvictExit : EvictStage → Except TierBufError EvictionOutcome → Prop where
  | stale {e : ExactStage} : EvictExit (.exact .first e) (.ok .stale)
  | busy {s : SwipId} : EvictExit (.claim s) (.ok .busy)
  | freed {v : Eviction} : EvictExit (.freeOld v) (.ok .freed)
  | other {r : Except TierBufError EvictionOutcome} : EvictExit (.exitRelease r) r

/-- Where a step of an evictor leads. -/
inductive EvictGoes (k : EvictCtx) (t : CoolingTicket) (st : EvictStage) : Pc → Prop where
  | edge {st' : EvictStage} : EvictEdge st st' → EvictGoes k t st (.evict k t st')
  | exit {r : Except TierBufError EvictionOutcome} : EvictExit st r →
      EvictGoes k t st (k.return t r)
  | panicked {site : PanicSite} : EvictGoes k t st (.panicked site)

theorem stepExact_goes {pass : Pass} {e : ExactStage} {fails : Pc} {found : SwipId → Pc}
    (hfails : EvictGoes k t (.exact pass e) fails)
    (hfound : ∀ s, e = .pages s → EvictGoes k t (.exact pass e) (found s)) :
    Goes (EvictGoes k t (.exact pass e))
      (sh.stepExact cfg t (fun e => .evict k t (.exact pass e)) fails found e) := by
  cases e with
  | pid =>
      dsimp only [Shared.stepExact]
      split
      · exact .some hfails
      · exact .some (.edge .generation)
  | generation =>
      dsimp only [Shared.stepExact]
      split
      · exact .some hfails
      · exact .some (.edge .owner)
  | owner =>
      dsimp only [Shared.stepExact]
      split
      · exact .some hfails
      · exact .some (.edge .state)
  | state s =>
      dsimp only [Shared.stepExact]
      split
      · exact .some (.edge .pages)
      · exact .some hfails
  | pages s =>
      dsimp only [Shared.stepExact]
      split
      · exact .some (hfound s rfl)
      · exact .some hfails

theorem stepClear_goes {v : Eviction} {e : ClearStage} :
    Goes (EvictGoes k t (.clear v e)) (sh.stepClear t.frameIndex
      (fun e => .evict k t (.clear v e)) (.evict k t (.release v)) e) :=
  .stepClear (Q := EvictGoes k t (.clear v e)) (fun _ => .edge .clearNext) (.edge .release)
    (fun _ => .panicked)

theorem stepEvict_goes {st : EvictStage} :
    Goes (EvictGoes k t st) (sh.stepEvict cfg c k t st) := by
  cases st with
  | exact pass e =>
      cases pass with
      | first => exact stepExact_goes (.exit .stale) (fun s he => by rw [he]; exact .edge .claim)
      | second s =>
          refine stepExact_goes (.edge .inexact) (fun s' he => ?_)
          split
          · rename_i hs
            rw [he, hs]
            exact .edge .backing
          · exact .edge .inexact
  | claim s =>
      dsimp only [Shared.stepEvict]
      split
      · exact .some (.edge .lock)
      · exact .some (.exit .busy)
  | lock s => exact .lockLatch (.edge .second)
  | samePid s =>
      dsimp only [Shared.stepEvict]
      split
      · exact .some (.edge .sameGeneration)
      · exact .some (.edge .otherPid)
  | sameGeneration s =>
      dsimp only [Shared.stepEvict]
      split
      · exact .some (.edge .sameOwner)
      · exact .some (.edge .otherGeneration)
  | sameOwner s =>
      dsimp only [Shared.stepEvict]
      split
      · exact .some (.edge .sameResurrect)
      · exact .some (.edge .otherOwner)
  | sameResurrect s =>
      dsimp only [Shared.stepEvict]
      split <;> exact .some (.edge .resurrected)
  | backing s => exact .some (.edge .dirty)
  | dirty s old =>
      dsimp only [Shared.stepEvict]
      split
      · exact .some (.edge .target)
      · exact .some (.edge .clean)
  | target v => exact .some (.edge .tier)
  | tier v index err =>
      dsimp only [Shared.stepEvict]
      split
      · exact .some (.edge .exhausted)
      · split
        · exact .some (.edge .write)
        · split
          · exact .some (.edge .write)
          · exact .some (.edge .denied)
  | write v index err =>
      dsimp only [Shared.stepEvict]
      split
      · split
        · exact .some (.edge .written)
        · exact .none
      · exact .some (.edge .failed)
  | unwritten v e =>
      dsimp only [Shared.stepEvict]
      split <;> exact .some (.edge .unwritten)
  | publish v =>
      dsimp only [Shared.stepEvict]
      split
      · exact .some (.edge .published)
      · exact .some (.edge .published)
      · exact .some .panicked
  | clean v => exact .some (.edge .unswizzle)
  | unswizzle v =>
      dsimp only [Shared.stepEvict]
      split
      · exact .some (.edge .consume)
      · exact .some (.edge .restore)
  | restore v =>
      dsimp only [Shared.stepEvict]
      split
      · split
        · exact .some (.edge .unpublished)
        · exact .some (.edge .refree)
      · exact .some (.edge .unpublished)
  | refree v =>
      dsimp only [Shared.stepEvict]
      split
      · exact .some (.edge .redirty)
      · exact .none
  | redirty v => exact .some (.edge .reresurrect)
  | reresurrect v =>
      dsimp only [Shared.stepEvict]
      split <;> exact .some (.edge .restored)
  | consume v => exact .some (.edge .unlatch)
  | unlatch v => exact .unlatch (.edge .clear) (fun _ => .panicked)
  | clear v e => exact stepClear_goes
  | release v => exact .releaseReservation (.edge .member) (fun _ => .panicked)
  | member v => exact .enterQueue (.edge .push) (fun _ => .panicked)
  | push v => exact .pushFree (.edge .freeOld) (fun _ => .panicked)
  | freeOld v =>
      dsimp only [Shared.stepEvict]
      split
      · split <;> exact .some (.exit .freed)
      · exact .some (.exit .freed)
  | exitUnlatch r => exact .unlatch (.edge .exitRelease) (fun _ => .panicked)
  | exitRelease r => exact .releaseReservation (.exit .other) (fun _ => .panicked)

/-- A step of an evictor follows an edge or an exit. -/
theorem step_evict {st : EvictStage} (hs : sh.step cfg c a (.evict k t st) = some (sh', pc')) :
    EvictGoes k t st pc' :=
  stepEvict_goes sh' pc' hs

/-- Whoever is at a stage has come along an edge. -/
theorem into_evict {st' : EvictStage} (hs : sh.step cfg c a pc = some (sh', .evict k t st')) :
    (∃ st, pc = .evict k t st ∧ EvictEdge st st') ∨ st' = .exact .first .pid := by
  rcases (step_flow hs).into_evict rfl with ⟨st, rfl⟩ | hfirst
  · refine .inl ⟨st, rfl, ?_⟩
    have hgoes := step_evict hs
    generalize hpc : Pc.evict k t st' = pc' at hgoes
    cases hgoes with
    | edge he =>
        cases hpc
        exact he
    | exit =>
        have hout := EvictCtx.return_outside.1.symm.trans (congrArg Pc.evicts hpc.symm)
        cases hout
    | panicked => cases hpc
  · exact .inr hfirst

end TierBuf
