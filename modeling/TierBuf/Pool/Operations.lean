import TierBuf.Pool.PageMoves

/-!
# Operations

The prologue of an operation, its epilogue, the fix loop and the guards keep
the invariant.

## Theorems

* `Inv.stepEnter`, `Inv.stepLeave`: The operation gate.
* `Inv.stepFix`: The loop of a fix.
* `Inv.stepGuard`: A guard and its drop.
-/

namespace TierBuf

open Function Ledger

variable {cfg : Config} {sh : Shared} {c : Choice} {R : Agent → Role} {a : Agent}

/-! ### The gate -/

/-- An operation with nothing in its hands fails. -/
theorem Inv.fail {r : Role} {e : TierBufError} (h : Inv cfg sh R) (hR : R a = r)
    (hr : (r.hold, r.storage, r.claims, r.station) =
      (Role.bystander.hold, (none, none), (none, none), some (), none, none, false)) :
    Keeps cfg R a (some (sh, .leave (.failed e))) := by
  have hhold : r.hold = Role.bystander.hold := congrArg Prod.fst hr
  have hslot : r.storage = (none, none) := congrArg (fun x => x.2.1) hr
  have hwarrant : r.claims = (none, none) := congrArg (fun x => x.2.2.1) hr
  have hpost : r.station = (some (), none, none, false) := congrArg (fun x => x.2.2.2) hr
  exact h.retreat hR (.bystander trivial) ⟨rfl, rfl⟩ hhold.symm hslot.symm hwarrant.symm
    ⟨hpost.symm, nofun⟩

theorem Inv.stepEnter {op : Operation} {st : EnterStage} (h : Inv cfg sh R)
    (hR : R a = (Pc.enter op st).role cfg) : Keeps cfg R a (sh.stepEnter cfg op st) := by
  have hs := h.sound a
  rw [hR] at hs
  cases st with
  | running =>
      dsimp only [Shared.stepEnter]
      split
      · exact h.stay hR
      · exact h.stay hR
  | gate =>
      dsimp only [Shared.stepEnter]
      split
      · exact h.enterGate hR (.bystander trivial) ‹_› rfl rfl id rfl
      · exact .none
  | recheck =>
      dsimp only [Shared.stepEnter]
      split
      · exact h.stay hR
      · next hrun =>
        cases op with
        | allocate => exact h.operate hR (.bystander trivial) (eq_false_of_ne_true hrun) rfl rfl
        | fix s mode =>
            exact h.operate hR (.bystander trivial) (eq_false_of_ne_true hrun) rfl rfl
  | validate =>
      cases op with
      | allocate => exact .none
      | fix s mode =>
          dsimp only [Shared.stepEnter]
          split
          · next hb =>
            have hbound : sh.store.Bound cfg s := by
              simp only [SwipInner.belongsTo, Bool.and_eq_true, decide_eq_true_eq] at hb
              exact hb.2
            exact h.reassign hR (.plain trivial ⟨hbound, rfl⟩ trivial rfl trivial) ⟨rfl, rfl⟩ rfl rfl
          · exact h.stay hR
  | reject =>
      cases op with
      | allocate => exact .none
      | fix s mode =>
          dsimp only [Shared.stepEnter]
          split
          · exact h.fail hR rfl
          · exact h.fail hR rfl

theorem Inv.stepLeave {ret : Ret} (h : Inv cfg sh R) (hR : R a = (Pc.leave ret).role cfg) :
    Keeps cfg R a (sh.stepLeave ret) := by
  have hs := h.sound a
  rw [hR] at hs
  unfold Shared.stepLeave
  cases ret with
  | guard g =>
      rcases h.leaveGate hR (.guard g .live) (.plain hs.tenure hs.warrant trivial rfl trivial) rfl
        rfl nofun rfl with ⟨n, hn, hk⟩
      rw [hn]
      exact hk
  | failed e =>
      rcases h.leaveGate hR (.returned (.failed e)) (.bystander trivial) rfl rfl nofun rfl with
        ⟨n, hn, hk⟩
      rw [hn]
      exact hk

/-! ### Fixing -/

/-- A word of a cell that the agent has pinned its frame for. -/
theorem Inv.resurrect {r : Role} {pc : Pc} {i : Nat} {s : SwipId} (h : Inv cfg sh R)
    (hR : R a = r) (hpin : r.tenure.pin = some i)
    (hc : (sh.swips s).state = .cooling (cfg.residentAddr i))
    (hsound : Sound cfg (sh.store.setState s (.hot (cfg.residentAddr i))) (pc.role cfg))
    (hhold : SameHold r (pc.role cfg)) (hrest : SameRest r (pc.role cfg)) :
    Keeps cfg R a
      (some (sh.setSwip s { sh.swips s with state := .hot (cfg.residentAddr i) }, pc)) := by
  have hs : sh.store.Resides cfg s i := congrArg SwipState.resident hc
  refine h.recolor hR (i := i) (by rw [hc]; rfl) hs (fun b _ _ => ?_) hsound hhold hrest
  exact h.pins.unreserved_of_pin (b := a) (by rw [hR, hpin])

theorem Inv.stepFix {k : FixCtx} {st : FixStage} (h : Inv cfg sh R)
    (hR : R a = (Pc.fix k st).role cfg) : Keeps cfg R a (sh.stepFix cfg c k st) := by
  have hs := h.sound a
  rw [hR] at hs
  have hhandle : (Warrant.handle k.pid k.swip).Sound cfg sh.store := by
    cases st with
    | exactOwner i state => cases state <;> exact hs.warrant
    | _ => exact hs.warrant
  cases st with
  | head =>
      dsimp only [Shared.stepFix]
      split
      · exact h.fail hR rfl
      · exact h.stay hR
  | load =>
      dsimp only [Shared.stepFix]
      split
      · split
        · exact h.fail hR rfl
        · exact h.stay hR
      · split
        · exact h.fail hR rfl
        · exact h.stay hR
      · split
        · exact h.reassign hR (.plain trivial hhandle trivial rfl trivial) ⟨rfl, rfl⟩ rfl rfl
        · exact h.fail hR rfl
  | pin i =>
      dsimp only [Shared.stepFix]
      split
      · exact h.pin hR (hs.hold rfl trivial rfl) ‹_› rfl rfl rfl
      · exact h.stay hR
  | latch i =>
      rcases k with ⟨s, p, mode, faulted, tier⟩
      cases mode
      · exact h.lock hR (hs.hold rfl trivial rfl) rfl rfl rfl rfl
      · exact h.lock hR (hs.hold rfl trivial rfl) rfl rfl rfl rfl
  | exactState i =>
      dsimp only [Shared.stepFix]
      cases hres : decide ((sh.swips k.swip).state.resident = some (cfg.residentAddr i)) with
      | true =>
          have hresides := of_decide_eq_true hres
          exact h.reassign hR (hs.hold rfl hresides rfl) ⟨rfl, rfl⟩ rfl rfl
      | false => exact h.stay hR
  | exactOwner i state =>
      cases state with
      | true => exact h.stay hR
      | false => exact h.stay hR
  | exactPid i owner =>
      dsimp only [Shared.stepFix]
      split
      · exact h.stay hR
      · exact h.reassign hR (hs.hold rfl trivial rfl) ⟨rfl, rfl⟩ rfl rfl
  | unlatch i =>
      rcases k with ⟨s, p, mode, faulted, tier⟩
      cases mode
      · exact h.unlock hR (hs.hold rfl trivial rfl) rfl rfl rfl rfl
      · exact h.unlock hR (hs.hold rfl trivial rfl) rfl rfl rfl rfl
  | unpin i => exact h.unpin hR (hs.hold rfl trivial rfl) rfl rfl rfl
  | resurrect i =>
      dsimp only [Shared.stepFix]
      split
      · next cell hcell =>
        rcases SwipInner.compareExchange_eq_some.mp hcell with ⟨hc, rfl⟩
        have hnew := hs.recolor (x := .hot (cfg.residentAddr i)) (by exact hs.tenure.symm) hs.tenure
          (fun _ hr => by cases hr)
        split
        · exact h.resurrect hR rfl hc hnew rfl rfl
        · exact h.resurrect hR rfl hc hnew rfl rfl
      · split
        · exact h.stay hR
        · exact h.stay hR
  | generation i => exact h.stay hR
  | consume i g =>
      dsimp only [Shared.stepFix]
      split
      · exact h.quiet hR ⟨rfl, rfl⟩
      · exact h.quiet hR ⟨rfl, rfl⟩
  | hit i => exact h.quiet hR ⟨rfl, rfl⟩
  | count i =>
      have hret : Sound cfg sh.store ((Pc.leave (.guard (k.guard i))).role cfg) :=
        .plain hs.tenure hhandle trivial rfl trivial
      dsimp only [Shared.stepFix]
      split
      · split
        · exact h.quiet hR ⟨rfl, rfl⟩
        · exact h.reassign hR hret ⟨rfl, rfl⟩ rfl rfl
      · split
        · exact h.quiet hR ⟨rfl, rfl⟩
        · exact h.reassign hR hret ⟨rfl, rfl⟩ rfl rfl
  | admission i =>
      have hret : Sound cfg sh.store ((Pc.leave (.guard (k.guard i))).role cfg) :=
        .plain hs.tenure hhandle trivial rfl trivial
      dsimp only [Shared.stepFix]
      split
      · exact h.reassign hR hret ⟨rfl, rfl⟩ rfl rfl
      · split
        · next cell hcell =>
          rcases SwipInner.compareExchange_eq_some.mp hcell with ⟨hc, rfl⟩
          refine h.recolor hR hs.tenure.symm hs.tenure (fun b _ hcool => ?_)
            (hs.recolor hs.tenure.symm hs.tenure (fun _ hr => by cases hr)) rfl rfl
          cases hc.symm.trans hcool
        · exact h.reassign hR hret ⟨rfl, rfl⟩ rfl rfl

/-! ### Guards -/

theorem Inv.stepGuard {g : Guard} {st : GuardStage} (h : Inv cfg sh R)
    (hR : R a = (Pc.guard g st).role cfg) : Keeps cfg R a (sh.stepGuard c g st) := by
  have hs := h.sound a
  rw [hR] at hs
  cases st with
  | live =>
      dsimp only [Shared.stepGuard]
      split
      · exact h.stay hR
      · split
        · next hexclusive =>
          rcases g with ⟨i, p, s, exclusive, source⟩
          cases hexclusive
          have hdirty : update sh.dirty i true i = true := update_self i true sh.dirty
          exact h.soil hR (hs.soil.hold rfl ⟨hs.tenure, hdirty⟩ rfl) rfl rfl
        · exact .none
      · exact h.unpin hR (hs.hold rfl trivial rfl) rfl rfl rfl
  | writing =>
      rcases g with ⟨i, p, s, exclusive, source⟩
      cases exclusive with
      | false => exact hs.tenure.elim
      | true =>
          have hresides : sh.store.Resides cfg s i := hs.tenure.1
          have hpid : (sh.swips s).pid = p := hs.warrant.2
          exact h.rewrite hR rfl hresides hpid hs.tenure.2 (.plain hresides hs.warrant trivial rfl trivial) rfl rfl
  | unpinned =>
      rcases g with ⟨i, p, s, exclusive, source⟩
      cases exclusive
      · exact h.unlock hR (.bystander trivial) rfl rfl rfl rfl
      · exact h.unlock hR (.bystander trivial) rfl rfl rfl rfl

end TierBuf
