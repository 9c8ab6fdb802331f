import TierBuf.Pool.Faulting

/-!
# Evicting

`evict_ticket` keeps the invariant.

The reservation keeps fixers out and the latch waits for the last of them. From
then on the evictor is the only one that can change the word of the page, its
directory entry or its frame, which is what its tenure as a victim's evictor
says. The stages that undo a failed unswizzle are not reachable.

## Theorems

* `Inv.returnEvict`: The return into the three callers.
* `Inv.evictExact`: The two calls of `exact_cooling_owner`.
* `Inv.evictDirty`, `Inv.evictWrite`, `Inv.evictPublish`, `Inv.evictClean`,
  `Inv.evictUnswizzle`, `Inv.evictFree`: The steps on the page.
* `Inv.stepEvict`: All of `evict_ticket`.
-/

namespace TierBuf

open Function Ledger

variable {cfg : Config} {sh : Shared} {c : Choice} {R : Agent → Role} {a : Agent}
  {k : EvictCtx} {t : CoolingTicket} {v : Eviction} {s : SwipId}

/-- A return leaves the caller with what it had. -/
theorem EvictCtx.role_return {st : Store} (h : k.post.Sound cfg st)
    (res : Except TierBufError EvictionOutcome) :
    (k.return t res).role cfg = k.role .none none := by
  cases k with
  | acquire w n err m =>
      rcases res with e | outcome
      · rfl
      · cases outcome <;> rfl
  | background m =>
      rcases res with e | outcome
      · rfl
      · cases outcome <;> rfl
  | flush f =>
      rcases f with ⟨index, resident, progress⟩
      cases resident with
      | zero => exact h.elim
      | succ n =>
          rcases res with e | outcome
          · rfl
          · cases outcome <;> rfl

/-- An evictor without a frame and a slot returns. -/
theorem Inv.returnEvict {P : Prop} (h : Inv cfg sh R)
    (hR : R a = { k.role .none none with checked := P })
    (res : Except TierBufError EvictionOutcome) : Keeps cfg R a (some (sh, k.return t res)) := by
  have hs := h.sound a
  rw [hR] at hs
  have hrole : (k.return t res).role cfg = k.role .none none := EvictCtx.role_return hs.post res
  have hsound : Sound cfg sh.store (k.role .none none) :=
    ⟨hs.tenure, hs.warrant, hs.post, hs.active, hs.draft, hs.slot, trivial⟩
  refine h.reassign hR (hrole ▸ hsound) ⟨rfl, rfl⟩ ?_ ?_
  · rw [hrole]
    rfl
  · rw [hrole]
    rfl

/-! ### Revalidation -/

theorem Inv.evictExactFirst {e : ExactStage} (h : Inv cfg sh R)
    (hR : R a = (Pc.evict k t (.exact .first e)).role cfg) :
    Keeps cfg R a (sh.stepEvict cfg c k t (.exact .first e)) := by
  have hs := h.sound a
  rw [hR] at hs
  cases e with
  | pid =>
      dsimp only [Shared.stepEvict, Shared.stepExact]
      split
      · exact h.returnEvict hR _
      · next hc =>
        have hticket : cfg.Tickets t := by
          simp only [not_or, not_le, ne_eq, not_not] at hc
          exact ⟨hc.1, hc.2.1⟩
        exact h.reassign hR ⟨trivial, hs.warrant, hs.post, hs.active, nofun, nofun, hticket⟩ ⟨rfl, rfl⟩ rfl rfl
  | generation =>
      dsimp only [Shared.stepEvict, Shared.stepExact]
      split
      · exact h.returnEvict hR _
      · exact h.stay hR
  | owner =>
      dsimp only [Shared.stepEvict, Shared.stepExact]
      split
      · exact h.returnEvict hR _
      · exact h.stay hR
  | state s =>
      dsimp only [Shared.stepEvict, Shared.stepExact]
      split
      · exact h.stay hR
      · exact h.returnEvict hR _
  | pages s =>
      dsimp only [Shared.stepEvict, Shared.stepExact]
      split
      · exact h.stay hR
      · exact h.returnEvict hR _

theorem Inv.evictExactSecond {e : ExactStage} (h : Inv cfg sh R)
    (hR : R a = (Pc.evict k t (.exact (.second s) e)).role cfg) :
    Keeps cfg R a (sh.stepEvict cfg c k t (.exact (.second s) e)) := by
  have hs := h.sound a
  rw [hR] at hs
  cases e with
  | pid =>
      dsimp only [Shared.stepEvict, Shared.stepExact]
      split
      · exact h.stay hR
      · exact h.stay hR
  | generation =>
      dsimp only [Shared.stepEvict, Shared.stepExact]
      split
      · exact h.stay hR
      · exact h.stay hR
  | owner =>
      dsimp only [Shared.stepEvict, Shared.stepExact]
      split
      · exact h.stay hR
      · exact h.stay hR
  | state s' =>
      dsimp only [Shared.stepEvict, Shared.stepExact]
      split
      · next hc =>
        have hticket : cfg.Tickets t := hs.checked
        rw [← hticket.2] at hc
        exact h.reassign hR (hs.hold rfl ⟨hc.2, hc.1⟩ rfl) ⟨rfl, rfl⟩ rfl rfl
      · exact h.stay hR
  | pages s' =>
      dsimp only [Shared.stepEvict, Shared.stepExact]
      split
      · next hp =>
        split
        · next heq =>
          rw [heq] at hp hs
          exact h.reassign hR (hs.hold rfl ⟨hs.tenure.1, hp⟩ rfl) ⟨rfl, rfl⟩ rfl rfl
        · exact h.reassign hR (hs.hold rfl trivial rfl) ⟨rfl, rfl⟩ rfl rfl
      · exact h.reassign hR (hs.hold rfl trivial rfl) ⟨rfl, rfl⟩ rfl rfl

/-- The evictor that holds the latch takes back the color of a word. -/
theorem Inv.evictResurrect {r : Role} {pc : Pc} {i : Nat} (h : Inv cfg sh R) (hR : R a = r)
    (hr : r.tenure.reservation = some i) (hc : (sh.swips s).state = .cooling (cfg.residentAddr i))
    (ht : (pc.role cfg).tenure = .evictor i true) (hb : (pc.role cfg).bond = r.bond)
    (hhold : SameHold r (pc.role cfg)) (hrest : SameRest r (pc.role cfg)) :
    Keeps cfg R a
      (some (sh.setSwip s { sh.swips s with state := .hot (cfg.residentAddr i) }, pc)) := by
  have hs := h.sound a
  rw [hR] at hs
  have hresides : sh.store.Resides cfg s i := by
    have hword := congrArg SwipState.resident hc
    exact hword
  have hx : SwipState.resident (.hot (cfg.residentAddr i)) =
      (sh.store.swips s).state.resident := hresides.symm
  have hres : (R a).tenure.reservation = some i := by rw [hR, hr]
  have hbare : Sound cfg sh.store { r with tenure := .none } := hs.hold rfl trivial rfl
  refine h.recolor hR hx hresides (fun b hb _ => h.reservation_ne hres hb) ?_ hhold hrest
  refine (hbare.recolor hx hresides (fun _ hn => by cases hn)).hold hb ?_ ?_
  · rw [ht]
    trivial
  · rw [ht]
    rfl

theorem Inv.evictRevalidate {st : EvictStage} (h : Inv cfg sh R)
    (hR : R a = (Pc.evict k t st).role cfg)
    (hst : st = .claim s ∨ st = .lock s ∨ st = .samePid s ∨ st = .sameGeneration s ∨
      st = .sameOwner s ∨ st = .sameResurrect s) :
    Keeps cfg R a (sh.stepEvict cfg c k t st) := by
  have hs := h.sound a
  rw [hR] at hs
  rcases hst with rfl | rfl | rfl | rfl | rfl | rfl
  · dsimp only [Shared.stepEvict]
    split
    · exact h.claim hR (hs.hold rfl trivial rfl) ‹_› rfl rfl rfl
    · exact h.returnEvict hR _
  · exact h.lock hR (hs.hold rfl trivial rfl) rfl rfl rfl rfl
  · dsimp only [Shared.stepEvict]
    split
    · exact h.stay hR
    · exact h.stay hR
  · dsimp only [Shared.stepEvict]
    split
    · exact h.stay hR
    · exact h.stay hR
  · dsimp only [Shared.stepEvict]
    split
    · exact h.stay hR
    · exact h.stay hR
  · have hticket : cfg.Tickets t := hs.checked
    dsimp only [Shared.stepEvict]
    split
    · next cell hcell =>
      rcases SwipInner.compareExchange_eq_some.mp hcell with ⟨hc, rfl⟩
      rw [← hticket.2] at hc ⊢
      exact h.evictResurrect hR rfl hc rfl rfl rfl rfl
    · exact h.stay hR

/-! ### Write-back and publication -/

/-- The residence of the page under eviction. -/
theorem Inv.victim_occupies {i : Nat} {p : PageId} (h : Inv cfg sh R)
    (hc : (sh.swips s).state = .cooling (cfg.residentAddr i)) (hp : sh.pages p = some s) :
    sh.store.Resides cfg s i ∧ sh.store.Occupies cfg s i ∧ (sh.swips s).pid = p := by
  have hresides : sh.store.Resides cfg s i := by
    have hword := congrArg SwipState.resident hc
    exact hword
  exact ⟨hresides, h.cells.occupies hresides, (h.cells.listed p s hp).2⟩

/-- A clean page is backed already; a dirty one has to be written. -/
theorem Inv.evictDirty {old : Option Location} (h : Inv cfg sh R)
    (hR : R a = (Pc.evict k t (.dirty s old)).role cfg) :
    Keeps cfg R a (sh.stepEvict cfg c k t (.dirty s old)) := by
  have hs := h.sound a
  rw [hR] at hs
  have hvictim := hs.tenure
  rcases h.victim_occupies hvictim.1 hvictim.2.1 with ⟨-, hocc, hpid⟩
  dsimp only [Shared.stepEvict]
  split
  · exact h.stay hR
  · next hdirty =>
    rw [not_or] at hdirty
    cases old with
    | none => exact absurd rfl hdirty.2
    | some loc =>
        have hbacked : sh.store.Backed t.pid := hpid ▸ hocc.clean (eq_false_of_ne_true hdirty.1)
        exact h.reassign hR (hs.hold rfl ⟨hvictim.1, hvictim.2.1, hbacked⟩ rfl) ⟨rfl, rfl⟩ rfl rfl

theorem Inv.evictWrite {index : Nat} {err : Option TierBufError} (h : Inv cfg sh R)
    (hR : R a = (Pc.evict k t (.write v index err)).role cfg) :
    Keeps cfg R a (sh.stepEvict cfg c k t (.write v index err)) := by
  have hs := h.sound a
  rw [hR] at hs
  rcases v with ⟨s, old, wasDirty, new, previous⟩
  cases new with
  | some loc => exact hs.tenure.elim
  | none =>
      have hvictim := hs.tenure
      rcases h.victim_occupies hvictim.1 hvictim.2.1 with ⟨-, hocc, hpid⟩
      dsimp only [Shared.stepEvict]
      split
      · split
        · next sh' haccept =>
          unfold Shared.acceptWrite at haccept
          split at haccept
          · cases haccept
          · next hfree =>
            cases haccept
            have hdata : sh.data t.frameIndex = sh.latest t.pid := hpid ▸ hocc.data
            have hslot : update sh.slots ⟨index, c.offset⟩ (some (sh.data t.frameIndex))
                ⟨index, c.offset⟩ = some (sh.latest t.pid) := by rw [update_self, hdata]
            refine h.writeBack hR hfree hvictim.2.2.2 ⟨?_, hs.warrant,
              hs.post.of_eq rfl rfl rfl, hs.active, nofun, fun l hl => hl, hs.checked⟩ rfl rfl rfl rfl ⟨rfl, id⟩
            exact ⟨hvictim.1, hvictim.2.1, hvictim.2.2.1, hslot⟩
        · exact .none
      · exact h.reassign hR (hs.hold rfl ⟨hvictim.1, hvictim.2.1, hvictim.2.2.1⟩ rfl) ⟨rfl, rfl⟩ rfl rfl

theorem Inv.evictPublish (h : Inv cfg sh R) (hR : R a = (Pc.evict k t (.publish v)).role cfg) :
    Keeps cfg R a (sh.stepEvict cfg c k t (.publish v)) := by
  have hs := h.sound a
  rw [hR] at hs
  rcases v with ⟨s, old, wasDirty, new, previous⟩
  cases new with
  | none =>
      cases old with
      | none => exact hs.tenure.elim
      | some old => exact h.stay hR
  | some loc =>
      have hvictim := hs.tenure
      have hheld := h.storage.held a loc (by rw [hR]; rfl)
      -- the new slot was not the old one
      have hne : old ≠ some loc := fun hc => hheld.2.2 t.pid (hvictim.2.2.1.trans hc)
      have hgarbage : Eviction.garbage ⟨s, old, wasDirty, some loc, sh.directory t.pid⟩ = old :=
        if_pos ⟨rfl, hne⟩
      have hbacked : Store.Backed
          { sh.store with directory := update sh.directory t.pid (some loc) } t.pid :=
        Store.Backed.published hvictim.2.2.2
      have hbare : Sound cfg sh.store { k.role .none none with checked := cfg.Tickets t } := hs.hold rfl trivial rfl
      have hpublished : Sound cfg
          { sh.store with directory := update sh.directory t.pid (some loc) } _ :=
        hbare.publish hvictim.2.1 hvictim.1 (fun hc => by cases hc)
      exact h.publish hR rfl hvictim.2.1 hvictim.1 hvictim.2.2.1 hvictim.2.2.2
        (hpublished.hold rfl ⟨hvictim.1, hvictim.2.1, hbacked⟩ rfl) rfl
        (congrArg₂ Prod.mk hgarbage rfl) rfl rfl ⟨rfl, id⟩

theorem Inv.evictClean (h : Inv cfg sh R) (hR : R a = (Pc.evict k t (.clean v)).role cfg) :
    Keeps cfg R a (sh.stepEvict cfg c k t (.clean v)) := by
  have hs := h.sound a
  rw [hR] at hs
  have hvictim := hs.tenure
  rcases h.victim_occupies hvictim.1 hvictim.2.1 with ⟨hresides, -, hpid⟩
  refine h.clean hR rfl hresides (hpid ▸ hvictim.2.2) ?_ rfl rfl
  exact ⟨hvictim, hs.warrant.of_eq rfl rfl rfl rfl rfl, hs.post.of_eq rfl rfl rfl, hs.active, nofun,
    nofun, hs.checked⟩

theorem Inv.evictUnswizzle (h : Inv cfg sh R)
    (hR : R a = (Pc.evict k t (.unswizzle v)).role cfg) :
    Keeps cfg R a (sh.stepEvict cfg c k t (.unswizzle v)) := by
  have hs := h.sound a
  rw [hR] at hs
  have hvictim := hs.tenure
  have hticket : cfg.Tickets t := hs.checked
  rcases h.victim_occupies hvictim.1 hvictim.2.1 with ⟨hresides, -, -⟩
  have hbare : Sound cfg sh.store { k.role .none none with checked := cfg.Tickets t } := hs.hold rfl trivial rfl
  have hevicted := hbare.unswizzle (p := t.pid) hresides (fun hc => by cases hc)
    (fun hc => by cases hc)
  have hcell : (sh.swips v.swip).tryUnswizzle t.resident t.pid =
      some { sh.swips v.swip with state := .evicted t.pid } :=
    SwipInner.compareExchange_eq_some.mpr ⟨hticket.2 ▸ hvictim.1, rfl⟩
  dsimp only [Shared.stepEvict]
  rw [hcell]
  exact h.unswizzle hR rfl hvictim.2.1 hvictim.1 hvictim.2.2 (hevicted.hold rfl trivial rfl) rfl rfl rfl rfl rfl

/-- Nothing was written: the page stays where it is. -/
theorem Inv.evictUnwritten {e : TierBufError} (h : Inv cfg sh R)
    (hR : R a = (Pc.evict k t (.unwritten v e)).role cfg) :
    Keeps cfg R a (sh.stepEvict cfg c k t (.unwritten v e)) := by
  have hs := h.sound a
  rw [hR] at hs
  have hticket : cfg.Tickets t := hs.checked
  rcases v with ⟨s, old, wasDirty, new, previous⟩
  cases new with
  | some loc => exact hs.tenure.elim
  | none =>
      dsimp only [Shared.stepEvict]
      split
      · next cell hcell =>
        rcases SwipInner.compareExchange_eq_some.mp hcell with ⟨hc, rfl⟩
        rw [← hticket.2] at hc ⊢
        exact h.evictResurrect hR rfl hc rfl rfl rfl rfl
      · exact h.reassign hR (hs.hold rfl trivial rfl) ⟨rfl, rfl⟩ rfl rfl

/-! ### Giving up the frame and the old slot -/

theorem Inv.evictClear {e : ClearStage} (h : Inv cfg sh R)
    (hR : R a = (Pc.evict k t (.clear v e)).role cfg) :
    Keeps cfg R a (sh.stepEvict cfg c k t (.clear v e)) := by
  have hs := h.sound a
  rw [hR] at hs
  cases e with
  | check =>
      have hword := h.pins.word_of_reserved (i := t.frameIndex) (b := a) (by rw [hR]; rfl)
      dsimp only [Shared.stepEvict, Shared.stepClear]
      rw [hword]
      exact h.stay hR
  | lock => exact h.lock hR (hs.hold rfl trivial rfl) rfl rfl rfl rfl
  | pid =>
      exact h.scribble hR rfl (hs.bare.hold rfl trivial rfl)
        (fun j hj => by rw [update_of_ne hj]) rfl rfl
  | owner =>
      exact h.scribble hR rfl (hs.bare.hold rfl trivial rfl)
        (fun j hj => by rw [update_of_ne hj]) rfl rfl
  | dirty =>
      exact h.scribble hR rfl (hs.bare.hold rfl trivial rfl)
        (fun j hj => by rw [update_of_ne hj]) rfl rfl
  | unlock => exact h.unlock hR (hs.hold rfl trivial rfl) rfl rfl rfl rfl

/-- An eviction has an old slot to free exactly when it published a new one. -/
theorem Eviction.garbage_eq_some {v : Eviction} {old : Location} :
    v.garbage = some old ↔ v.old = some old ∧ some old ≠ v.replacement ∧ v.new.isSome := by
  rcases v with ⟨s, voldOpt, wasDirty, new, previous⟩
  unfold Eviction.garbage Eviction.replacement
  cases new with
  | none => simp
  | some loc =>
      simp only [Option.isSome_some, true_and, and_true, Option.some_or, Option.ite_none_right_eq_some]
      constructor
      · rintro ⟨hne, rfl⟩
        exact ⟨rfl, hne⟩
      · rintro ⟨rfl, hne⟩
        exact ⟨hne, rfl⟩

theorem Inv.evictFree (h : Inv cfg sh R) (hR : R a = (Pc.evict k t (.freeOld v)).role cfg) :
    Keeps cfg R a (sh.stepEvict cfg c k t (.freeOld v)) := by
  have hs := h.sound a
  rw [hR] at hs
  have hrole : (k.return t (.ok .freed)).role cfg = k.role .none none :=
    EvictCtx.role_return hs.post _
  have hnothing : v.garbage = none → Keeps cfg R a (some (sh, k.return t (.ok .freed))) := by
    intro hg
    have hR' : R a = { k.role .none none with checked := cfg.Tickets t } := by
      rw [hR, ← hg]
      rfl
    exact h.returnEvict hR' _
  dsimp only [Shared.stepEvict]
  split
  · next old hold =>
    split
    · next hcond =>
      have hgarbage : v.garbage = some old :=
        Eviction.garbage_eq_some.mpr ⟨hold, hcond.1, hcond.2.1⟩
      have hbare : Sound cfg sh.store (k.role .none none) :=
        ⟨trivial, hs.warrant, hs.post, hs.active, nofun, nofun, trivial⟩
      have hheld := h.storage.held a old (by rw [hR]; exact hgarbage)
      have hfreed : Sound cfg { sh.store with slots := update sh.slots old none } _ :=
        hbare.free hheld.2.2 nofun
      refine h.free hR (hrole ▸ hfreed) (congrArg₂ Prod.mk hgarbage rfl) ?_ ?_ ?_ ?_
      · rw [hrole]
        rfl
      · rw [hrole]
        rfl
      · rw [hrole]
        rfl
      · rw [hrole]
        exact ⟨rfl, id⟩
    · next hcond =>
      refine hnothing ?_
      cases hg : v.garbage with
      | none => rfl
      | some loc =>
          rcases Eviction.garbage_eq_some.mp hg with ⟨hloc, hne, hnew⟩
          have hsame : old = loc := Option.some.inj (hold.symm.trans hloc)
          have hheld := h.storage.held a loc (by rw [hR]; exact hg)
          rw [hsame] at hcond
          exact absurd ⟨hne, hnew, hheld.2.1⟩ hcond
  · next hold =>
    refine hnothing ?_
    cases hg : v.garbage with
    | none => rfl
    | some loc => cases hold.symm.trans (Eviction.garbage_eq_some.mp hg).1

/-! ### The whole function -/

theorem Inv.stepEvict {st : EvictStage} (h : Inv cfg sh R)
    (hR : R a = (Pc.evict k t st).role cfg) : Keeps cfg R a (sh.stepEvict cfg c k t st) := by
  have hs := h.sound a
  rw [hR] at hs
  cases st with
  | exact pass e =>
      cases pass with
      | first => exact h.evictExactFirst hR
      | second s => exact h.evictExactSecond hR
  | claim s => exact h.evictRevalidate hR (.inl rfl)
  | lock s => exact h.evictRevalidate hR (.inr (.inl rfl))
  | samePid s => exact h.evictRevalidate hR (.inr (.inr (.inl rfl)))
  | sameGeneration s => exact h.evictRevalidate hR (.inr (.inr (.inr (.inl rfl))))
  | sameOwner s => exact h.evictRevalidate hR (.inr (.inr (.inr (.inr (.inl rfl)))))
  | sameResurrect s => exact h.evictRevalidate hR (.inr (.inr (.inr (.inr (.inr rfl)))))
  | backing s => exact h.reassign hR (hs.hold rfl ⟨hs.tenure.1, hs.tenure.2, rfl⟩ rfl) ⟨rfl, rfl⟩ rfl rfl
  | dirty s old => exact h.evictDirty hR
  | target v => exact h.stay hR
  | tier v index err =>
      rcases v with ⟨s, old, wasDirty, new, previous⟩
      cases new with
      | some loc => exact hs.tenure.elim
      | none =>
          dsimp only [Shared.stepEvict]
          split
          · exact h.stay hR
          · next name hname =>
            have htier : index < cfg.tiers.length := (List.getElem?_eq_some_iff.mp hname).1
            have hnew : Sound cfg sh.store ((Pc.evict k t
                (.write ⟨s, old, wasDirty, none, previous⟩ index err)).role cfg) :=
              hs.hold rfl ⟨hs.tenure.1, hs.tenure.2.1, hs.tenure.2.2, htier⟩ rfl
            split
            · exact h.reassign hR hnew ⟨rfl, rfl⟩ rfl rfl
            · split
              · exact h.reassign hR hnew ⟨rfl, rfl⟩ rfl rfl
              · exact h.stay hR
  | write v index err => exact h.evictWrite hR
  | unwritten v e => exact h.evictUnwritten hR
  | publish v => exact h.evictPublish hR
  | clean v => exact h.evictClean hR
  | unswizzle v => exact h.evictUnswizzle hR
  -- the unswizzle has not failed
  | restore v => exact hs.tenure.elim
  | refree v => exact hs.tenure.elim
  | redirty v => exact hs.tenure.elim
  | reresurrect v => exact hs.tenure.elim
  | consume v => exact h.quiet hR ⟨rfl, rfl⟩
  | unlatch v => exact h.unlock hR (hs.hold rfl trivial rfl) rfl rfl rfl rfl
  | clear v e => exact h.evictClear hR
  | release v => exact h.release hR (hs.hold rfl trivial rfl) rfl rfl rfl
  | member v => exact h.flag hR (hs.hold rfl trivial rfl) rfl rfl rfl
  | push v => exact h.push hR (hs.hold rfl trivial rfl) rfl rfl rfl
  | freeOld v => exact h.evictFree hR
  | exitUnlatch res => exact h.unlock hR (hs.hold rfl trivial rfl) rfl rfl rfl rfl
  | exitRelease res =>
      have hrole : (k.return t res).role cfg = k.role .none none := EvictCtx.role_return hs.post res
      have hbare : Sound cfg sh.store (k.role .none none) :=
        ⟨trivial, hs.warrant, hs.post, hs.active, nofun, nofun, trivial⟩
      refine h.release hR (hrole ▸ hbare) rfl ?_ ?_
      · rw [hrole]
        rfl
      · rw [hrole]
        rfl

end TierBuf
