import TierBuf.Pool.Operations

/-!
# Faulting

The fault coordinator, the acquisition of a frame, the search for cold pages
and the return of an unused frame keep the invariant.

## Theorems

* `Inv.stepFault`: `fault` and `prefetch_fault`.
* `Inv.stepAcquire`: `acquire_frame`.
* `Inv.stepCool`, `Inv.stepEnqueue`: `enqueue_cold_candidates` and
  `enqueue_ticket`.
* `Inv.stepCheckin`: The drop of a checked-out frame.
-/

namespace TierBuf

open Function Ledger

variable {cfg : Config} {sh : Shared} {c : Choice} {R : Agent → Role} {a : Agent} {st : Store}

/-! ### The caller of the coordinator -/

namespace FaultCtx

variable {k : FaultCtx} {w w' : Warrant} {kept : Bool}

theorem active_post : k.post.active = true := by
  cases k <;> rfl

theorem lead_warrant : k.warrant.lead = none := by
  cases k <;> rfl

theorem mint_warrant : k.warrant.mint = none := by
  cases k <;> rfl

theorem tenure_simple : (k.tenure kept).draft = none ∧ (k.tenure kept).newSlot = none := by
  cases k with
  | demand c => exact ⟨rfl, rfl⟩
  | prefetch t =>
      rcases t with ⟨p, s, checkout⟩
      cases checkout with
      | some i => exact ⟨rfl, rfl⟩
      | none => cases kept <;> exact ⟨rfl, rfl⟩

/-- A caller that must still have its frame has it. -/
theorem role_kept (h : Sound cfg st (k.role w true)) : k.role w true = k.role w false := by
  cases k with
  | demand c => rfl
  | prefetch t =>
      rcases t with ⟨p, s, checkout⟩
      cases checkout with
      | some i => rfl
      | none => exact h.tenure.elim

/-- A caller with another warrant for its page. -/
theorem reword (h : Sound cfg st (k.role w kept)) (hw : w'.Sound cfg st) :
    Sound cfg st (k.role w' kept) where
  tenure := h.tenure
  warrant := hw
  post := h.post
  active := fun _ => active_post
  draft := fun _ hd => by cases (tenure_simple (k := k)).1.symm.trans hd
  slot := fun _ hl => by cases (tenure_simple (k := k)).2.symm.trans hl
  checked := trivial

variable (k cfg) in
theorem claims_return (r : FaultResult) : ((k.return r).role cfg).claims = (none, none) := by
  cases k with
  | demand c => rcases r with e | _ | t <;> rfl
  | prefetch t =>
      rcases t with ⟨p, s, checkout⟩
      cases checkout <;> rfl

variable (k cfg w) in
theorem same_return (r : FaultResult) : SameHold (k.role w false) ((k.return r).role cfg) ∧
    SameSlot (k.role w false) ((k.return r).role cfg) ∧
    SamePost (k.role w false) ((k.return r).role cfg) := by
  cases k with
  | demand c =>
      rcases r with e | _ | t
      · exact ⟨rfl, rfl, rfl, nofun⟩
      · exact ⟨rfl, rfl, rfl, id⟩
      · exact ⟨rfl, rfl, rfl, id⟩
  | prefetch t =>
      rcases t with ⟨p, s, checkout⟩
      cases checkout <;> exact ⟨rfl, rfl, rfl, id⟩

/-- A demand fault goes back to its loop with its handle. -/
theorem sound_return {r : FaultResult} (hw : k.warrant.Sound cfg st) :
    Sound cfg st ((k.return r).role cfg) := by
  cases k with
  | demand c =>
      rcases r with e | _ | t
      · exact .bystander trivial
      · exact .plain trivial hw trivial rfl trivial
      · exact .plain trivial hw trivial rfl trivial
  | prefetch t =>
      rcases t with ⟨p, s, checkout⟩
      cases checkout
      · exact .bystander trivial
      · exact .plain trivial trivial trivial rfl trivial

end FaultCtx

/-- A listed Swip is a handle of its page. -/
theorem Inv.handle_of_listed {k : FaultCtx} (h : Inv cfg sh R)
    (hp : sh.pages k.pid = some k.swip) : k.warrant.Sound cfg sh.store := by
  cases k with
  | demand c => exact h.cells.listed c.pid c.swip hp
  | prefetch t => trivial

/-- The coordinator returns to a caller that does not lead. -/
theorem Inv.returnFault {k : FaultCtx} {w : Warrant} (h : Inv cfg sh R) (r : FaultResult)
    (hR : R a = k.role w true) (hw : k.warrant.Sound cfg sh.store)
    (hl : w.lead = none) (hm : w.mint = none) : Keeps cfg R a (some (sh, k.return r)) := by
  have hs := h.sound a
  rw [hR] at hs
  rw [FaultCtx.role_kept hs] at hR
  rcases k.same_return cfg w r with ⟨hhold, hslot, hpost⟩
  have hwarrant : SameWarrant (k.role w false) ((k.return r).role cfg) := by
    refine (k.claims_return cfg r).trans ?_
    exact (congrArg₂ Prod.mk hl hm).symm
  exact h.retreat hR (FaultCtx.sound_return hw) ⟨rfl, rfl⟩ hhold hslot hwarrant hpost

/-- A waiter returns with its outcome. -/
theorem Inv.returnOutcome {k : FaultCtx} {p : PageId} {f : FaultState} (h : Inv cfg sh R)
    (r : FaultResult) (hR : R a = k.role (.listed k.pid k.swip) true)
    (hf : f.active = (sh.faults p).active) :
    Keeps cfg R a (some ({ sh with faults := update sh.faults p f }, k.return r)) := by
  have hs := h.sound a
  rw [hR] at hs
  rw [FaultCtx.role_kept hs] at hR
  rcases k.same_return cfg (.listed k.pid k.swip) r with
    ⟨hhold, hslot, hpost⟩
  exact h.record hR (FaultCtx.sound_return (h.handle_of_listed hs.warrant)) (by rw [hf]) hhold hslot
    (k.claims_return cfg r) hpost

theorem Inv.stepFault {k : FaultCtx} {st : FaultStage} (h : Inv cfg sh R)
    (hR : R a = (Pc.fault k st).role cfg) : Keeps cfg R a (sh.stepFault cfg k st) := by
  have hs := h.sound a
  rw [hR] at hs
  -- what a leader ends with
  have hfinish : ∀ (w : Warrant) (g : Nat) (r : FaultResult), R a = k.role w true →
      w.lead = some k.pid → w.mint = none → sh.pages k.pid = some k.swip →
      Keeps cfg R a (some (sh, .fault k (.finish g r))) := by
    intro w g r hRw hl hm hp
    have hsw := h.sound a
    rw [hRw] at hsw
    have hlead : (Warrant.leading k.pid k.swip).Sound cfg sh.store := hp
    have hsound : Sound cfg sh.store (k.role (.leading k.pid k.swip) false) := by
      rw [← FaultCtx.role_kept (FaultCtx.reword hsw hlead)]
      exact FaultCtx.reword hsw hlead
    rw [FaultCtx.role_kept hsw] at hRw
    exact h.retreat hRw hsound ⟨rfl, rfl⟩ rfl rfl (congrArg₂ Prod.mk hl hm).symm ⟨rfl, id⟩
  cases st with
  | running =>
      dsimp only [Shared.stepFault]
      split
      · exact h.returnFault _ hR hs.warrant FaultCtx.lead_warrant FaultCtx.mint_warrant
      · exact h.stay hR
  | lookup =>
      dsimp only [Shared.stepFault]
      split
      · exact h.returnFault _ hR hs.warrant FaultCtx.lead_warrant FaultCtx.mint_warrant
      · split
        · next s hp hsk =>
          rw [hsk] at hp
          exact h.retreat hR (FaultCtx.reword hs hp) ⟨rfl, rfl⟩ rfl rfl
            (congrArg₂ Prod.mk FaultCtx.lead_warrant FaultCtx.mint_warrant).symm ⟨rfl, id⟩
        · exact h.returnFault _ hR hs.warrant FaultCtx.lead_warrant FaultCtx.mint_warrant
  | enter =>
      dsimp only [Shared.stepFault]
      split
      · next g f hf => exact h.record hR hs (FaultState.enter_registered hf) rfl rfl rfl ⟨rfl, id⟩
      · next f hf => exact h.record hR hs (by rw [FaultState.enter_deferred hf]) rfl rfl rfl ⟨rfl, id⟩
      · next g f hf =>
        rcases FaultState.enter_leader hf with ⟨hidle, hact⟩
        exact h.elect hR (FaultCtx.reword hs hs.warrant) hidle hact rfl rfl rfl rfl ⟨rfl, id⟩
  | wait g =>
      dsimp only [Shared.stepFault]
      have hact : ((sh.faults k.pid).replay g).2.active = (sh.faults k.pid).active :=
        FaultState.replay_active
      split
      · next f hf =>
        rw [hf] at hact
        exact h.record hR hs (by rw [hact]) rfl rfl rfl ⟨rfl, id⟩
      · next outcome last f hf =>
        rw [hf] at hact
        exact h.returnOutcome _ hR hact
      · exact h.stay hR
  | leadRunning g =>
      dsimp only [Shared.stepFault]
      split
      · exact hfinish _ g _ hR rfl rfl hs.warrant
      · exact h.stay hR
  | leadLoad g =>
      dsimp only [Shared.stepFault]
      split
      · exact hfinish _ g _ hR rfl rfl hs.warrant
      · exact hfinish _ g _ hR rfl rfl hs.warrant
      · split
        · next observed hev hpid =>
          rw [hpid] at hev
          exact h.reassign hR (FaultCtx.reword hs ⟨hs.warrant, hev⟩) ⟨rfl, rfl⟩ rfl rfl
        · exact hfinish _ g _ hR rfl rfl hs.warrant
  | leadLookup g =>
      dsimp only [Shared.stepFault]
      split
      · exact hfinish _ g _ hR rfl rfl hs.warrant.1
      · split
        · exact hfinish _ g _ hR rfl rfl hs.warrant.1
        · next loc hloc htier =>
          have hlocated : (Warrant.located k.pid k.swip loc).Sound cfg sh.store :=
            ⟨hs.warrant.1, hs.warrant.2, hloc⟩
          cases k with
          | demand k' => exact h.reassign hR (FaultCtx.reword hs hlocated) ⟨rfl, rfl⟩ rfl rfl
          | prefetch t =>
              rcases t with ⟨p, s, checkout⟩
              cases checkout with
              | some i =>
                  exact h.reassign hR ((FaultCtx.reword hs hlocated).hold rfl trivial rfl) ⟨rfl, rfl⟩
                    rfl rfl
              | none => exact hs.tenure.elim
  | leadCount g loc =>
      cases k with
      | demand k' => exact h.quiet hR ⟨rfl, rfl⟩
      | prefetch t => exact .none
  | finish g r =>
      rcases k.same_return cfg (.leading k.pid k.swip) r with
        ⟨hhold, hslot, hpost⟩
      exact h.retire hR (FaultCtx.sound_return (h.handle_of_listed hs.warrant))
        FaultState.complete_active rfl (k.claims_return cfg r) hhold hslot hpost

/-! ### Acquiring a frame -/

theorem quiet_pushUnique {t : CoolingTicket} : Quiet sh (sh.pushUnique t) := by
  unfold Shared.pushUnique
  split
  · exact ⟨rfl, rfl⟩
  · exact ⟨rfl, rfl⟩

/-- `acquire_frame` fails. -/
theorem Inv.failAcquire {w : AcquireCtx} (h : Inv cfg sh R) (e : TierBufError)
    (hR : R a = w.role .none) : Keeps cfg R a (some (sh, w.failed e)) := by
  have hs := h.sound a
  rw [hR] at hs
  cases w with
  | allocate => exact h.fail hR rfl
  | demand k loc g =>
      have hlead : (Warrant.leading k.pid k.swip).Sound cfg sh.store := hs.warrant.1
      exact h.reassign hR ⟨trivial, hlead, trivial, fun _ => rfl, nofun, nofun, trivial⟩ ⟨rfl, rfl⟩ rfl rfl

/-- A pop of `acquire_frame`, where the empty queue leads to the role of the
    caller without a frame. -/
theorem Inv.popAcquire {w : AcquireCtx} {r : Role} {empty : Pc} (h : Inv cfg sh R)
    (hR : R a = r) (hr : r = w.role .none) (hempty : empty.role cfg = w.role .none) :
    Keeps cfg R a (sh.popFree (fun i => .acquire w (.member i)) empty) := by
  rw [hr] at hR
  have hs := h.sound a
  rw [hR] at hs
  unfold Shared.popFree
  split
  · exact h.pop hR (hs.hold rfl trivial rfl) ‹_› rfl rfl rfl
  · rw [← hempty] at hR hs
    exact h.stay hR

theorem Inv.stepAcquire {w : AcquireCtx} {st : AcquireStage} (h : Inv cfg sh R)
    (hR : R a = (Pc.acquire w st).role cfg) : Keeps cfg R a (sh.stepAcquire cfg w st) := by
  have hs := h.sound a
  rw [hR] at hs
  cases st with
  | running =>
      dsimp only [Shared.stepAcquire]
      split
      · exact h.failAcquire _ hR
      · exact h.stay hR
  | pop => exact h.popAcquire hR rfl rfl
  | member i => exact h.unflag hR (hs.hold rfl trivial rfl) rfl rfl rfl
  | claim i =>
      dsimp only [Shared.stepAcquire]
      split
      · next v hv =>
        cases w with
        | allocate => exact h.claim hR (hs.hold rfl trivial rfl) hv rfl rfl rfl
        | demand k loc g => exact h.claim hR (hs.hold rfl trivial rfl) hv rfl rfl rfl
      · exact .none
  | request => exact h.quiet hR ⟨rfl, rfl⟩
  | round n err =>
      cases n with
      | zero => exact h.failAcquire _ hR
      | succ n =>
          dsimp only [Shared.stepAcquire]
          split
          · exact h.failAcquire _ hR
          · exact h.stay hR
  | popRound n err => exact h.popAcquire hR rfl rfl
  | attempts n err => exact h.stay hR
  | sweep n err m =>
      dsimp only [Shared.stepAcquire]
      split
      · exact h.quiet hR ⟨rfl, rfl⟩
      · exact h.stay hR
  | popAfter n err m => exact h.popAcquire hR rfl rfl
  | pushBack n err m t => exact h.quiet hR quiet_pushUnique

/-! ### Cooling -/

/-- A hot word is marked by an agent that need not hold its frame. -/
theorem Inv.markCooling {r : Role} {pc : Pc} {i : Nat} {s : SwipId} (h : Inv cfg sh R)
    (hR : R a = r) (hc : (sh.swips s).state = .hot (cfg.residentAddr i))
    (hpc : pc.role cfg = r) :
    Keeps cfg R a
      (some (sh.setSwip s { sh.swips s with state := .cooling (cfg.residentAddr i) }, pc)) := by
  have hs := h.sound a
  rw [hR] at hs
  have hresides : sh.store.Resides cfg s i := by
    have hword := congrArg SwipState.resident hc
    exact hword
  have hx : SwipState.resident (.cooling (cfg.residentAddr i)) =
      (sh.store.swips s).state.resident := hresides.symm
  have hhot : ∀ j, (sh.swips s).state ≠ .cooling (cfg.residentAddr j) := fun j hj =>
    by cases hc.symm.trans hj
  subst hpc
  exact h.recolor hR hx hresides (fun b _ hj => absurd hj (hhot i))
    (hs.recolor hx hresides (fun hj => absurd hj (hhot i))) rfl rfl

theorem CoolCtx.role_return {k : CoolCtx} : k.return.role cfg = k.role := by
  cases k <;> rfl

theorem Inv.stepCool {k : CoolCtx} {st : CoolStage} (h : Inv cfg sh R)
    (hR : R a = (Pc.cool k st).role cfg) : Keeps cfg R a (sh.stepCool cfg c k st) := by
  have hs := h.sound a
  rw [hR] at hs
  -- every stage has the role of the caller, so most steps only move on
  have hmove : ∀ (sh' : Shared) (pc : Pc), pc.role cfg = k.role → Quiet sh sh' →
      Keeps cfg R a (some (sh', pc)) := by
    intro sh' pc hpc hq
    have hrole : (Pc.cool k st).role cfg = pc.role cfg := hpc.symm
    rw [hrole] at hR hs
    exact h.reassign hR hs hq rfl rfl
  cases st with
  | desired => exact hmove _ _ rfl ⟨rfl, rfl⟩
  | room desired =>
      dsimp only [Shared.stepCool]
      split
      · exact hmove _ _ CoolCtx.role_return ⟨rfl, rfl⟩
      · exact hmove _ _ rfl ⟨rfl, rfl⟩
  | cursor desired => exact hmove _ _ rfl ⟨rfl, rfl⟩
  | sample desired indices candidates =>
      cases indices with
      | nil => exact hmove _ _ rfl ⟨rfl, rfl⟩
      | cons i rest =>
          dsimp only [Shared.stepCool]
          split
          · exact hmove _ _ rfl ⟨rfl, rfl⟩
          · exact hmove _ _ rfl ⟨rfl, rfl⟩
  | samplePin desired i indices candidates =>
      dsimp only [Shared.stepCool]
      split
      · exact hmove _ _ rfl ⟨rfl, rfl⟩
      · exact hmove _ _ rfl ⟨rfl, rfl⟩
  | sampleEvicting desired i indices candidates =>
      dsimp only [Shared.stepCool]
      split
      · exact hmove _ _ rfl ⟨rfl, rfl⟩
      · exact hmove _ _ rfl ⟨rfl, rfl⟩
  | take desired candidates =>
      dsimp only [Shared.stepCool]
      split
      · exact hmove _ _ CoolCtx.role_return ⟨rfl, rfl⟩
      · split
        · exact hmove _ _ rfl ⟨rfl, rfl⟩
        · exact .none
  | pin desired i candidates =>
      dsimp only [Shared.stepCool]
      split
      · exact hmove _ _ rfl ⟨rfl, rfl⟩
      · exact hmove _ _ rfl ⟨rfl, rfl⟩
  | evicting desired i candidates =>
      dsimp only [Shared.stepCool]
      split
      · exact hmove _ _ rfl ⟨rfl, rfl⟩
      · exact hmove _ _ rfl ⟨rfl, rfl⟩
  | pid desired i candidates => exact hmove _ _ rfl ⟨rfl, rfl⟩
  | owner desired i p candidates =>
      dsimp only [Shared.stepCool]
      split
      · exact hmove _ _ rfl ⟨rfl, rfl⟩
      · exact hmove _ _ rfl ⟨rfl, rfl⟩
  | load desired i p s candidates =>
      dsimp only [Shared.stepCool]
      split
      · exact hmove _ _ rfl ⟨rfl, rfl⟩
      · split
        · exact hmove _ _ rfl ⟨rfl, rfl⟩
        · exact hmove _ _ rfl ⟨rfl, rfl⟩
  | mark desired i p s candidates =>
      dsimp only [Shared.stepCool]
      split
      · next cell hcell =>
        rcases SwipInner.compareExchange_eq_some.mp hcell with ⟨hc, rfl⟩
        exact h.markCooling hR hc rfl
      · exact hmove _ _ rfl ⟨rfl, rfl⟩

theorem Inv.stepEnqueue {k : EnqueueCtx} {i : Nat} {p : PageId} {st : EnqueueStage}
    (h : Inv cfg sh R) (hR : R a = (Pc.enqueue k i p st).role cfg) :
    Keeps cfg R a (sh.stepEnqueue cfg k i p st) := by
  have hs := h.sound a
  rw [hR] at hs
  have hback : ∀ sh' : Shared, Quiet sh sh' → Keeps cfg R a (some (sh', k.return i)) := by
    intro sh' hq
    cases k with
    | fix k' => exact h.reassign hR (.plain hs.tenure hs.warrant trivial rfl trivial) hq rfl rfl
    | cool k' desired candidates => exact h.reassign hR hs hq rfl rfl
  cases st with
  | pid =>
      dsimp only [Shared.stepEnqueue]
      split
      · exact h.stay hR
      · exact hback _ ⟨rfl, rfl⟩
  | owner =>
      dsimp only [Shared.stepEnqueue]
      split
      · exact hback _ ⟨rfl, rfl⟩
      · exact h.stay hR
  | state s =>
      dsimp only [Shared.stepEnqueue]
      split
      · exact h.stay hR
      · exact hback _ ⟨rfl, rfl⟩
  | generation => exact h.stay hR
  | push g => exact hback _ quiet_pushUnique

/-! ### Returning a frame -/

theorem Inv.stepCheckin {k : CheckinCtx} {i : Nat} {st : CheckinStage} (h : Inv cfg sh R)
    (hR : R a = (Pc.checkin k i st).role cfg) : Keeps cfg R a (sh.stepCheckin cfg k i st) := by
  have hs := h.sound a
  rw [hR] at hs
  cases st with
  | release => exact h.release hR (hs.hold rfl trivial rfl) rfl rfl rfl
  | member => exact h.flag hR (hs.hold rfl trivial rfl) rfl rfl rfl
  | push =>
      cases k with
      | allocate e => exact h.push hR (hs.hold rfl trivial rfl) rfl rfl rfl
      | demand k' g e => exact h.push hR (hs.hold rfl trivial rfl) rfl rfl rfl
      | prefetch p s g e => exact h.push hR (hs.hold rfl trivial rfl) rfl rfl rfl
      | task running p => cases running <;> exact h.push hR (hs.hold rfl trivial rfl) rfl rfl rfl

end TierBuf
