import TierBuf.Pool.Flow
import TierBuf.Pool.Footprint
import TierBuf.Pool.Residency

/-!
# Occupants

What one step does to the residence of a page.

A Swip changes in five ways only, each at its own program points. `step_cell`
lists them, and the invariant turns the list into facts about frames: a page
leaves its frame by an unswizzle and in no other way, the generation of a
frame stays the same as long as a page is resident in it or someone has it
pinned or reserved, and a generation that was read under such a hold is
therefore still the right one.

## Main definitions

* `CellStep`: The ways a Swip can change.
* `Pc.stamp`: A frame with the generation an agent has read from it.

## Theorems

* `step_cell`: Every step changes a Swip in one of these ways.
* `Inv.resides_step`: A residence ends by an unswizzle.
* `Inv.generation_step`, `stamp_reachable`: Generations are stable under holds.
-/

namespace TierBuf

open Function Ledger Transition

variable {cfg : Config} {sh sh' : Shared} {c : Choice} {a b : Agent} {pc pc' : Pc}

/-! ### Steps on a cell -/

/-- The cell a step may mark `Cooling`. -/
def Pc.marks : Pc → Option SwipId
  | .fix k (.admission _) => some k.swip
  | .cool _ (.mark _ _ _ s _) => some s
  | .shutdown (.mark _ _ s) => some s
  | _ => none

/-- The cell a step may make `Hot` again. -/
def Pc.resurrects : Pc → Option SwipId
  | .fix k (.resurrect _) => some k.swip
  | .evict _ _ (.sameResurrect s) => some s
  | .evict _ _ (.unwritten v _) | .evict _ _ (.reresurrect v) => some v.swip
  | _ => none

/-- How one step can change the cell `w`. -/
inductive CellStep (cfg : Config) (sh sh' : Shared) (pc : Pc) (w : SwipId) : Prop where
  | same (h : sh'.swips w = sh.swips w)
  | marked {x : ResidentAddr} (hpc : pc.marks = some w) (h : (sh.swips w).state = .hot x)
      (h' : sh'.swips w = { sh.swips w with state := .cooling x })
  | resurrected {x : ResidentAddr} (hpc : pc.resurrects = some w)
      (h : (sh.swips w).state = .cooling x) (h' : sh'.swips w = { sh.swips w with state := .hot x })
  | swizzled {f : Filling} {m : Option PrefetchMarker} (hpc : pc = .fill f (.swizzle m))
      (hw : w = f.swip) (h : (sh.swips w).state = .evicted f.pid)
      (h' : sh'.swips w = { sh.swips w with state := .hot (cfg.residentAddr f.index) })
  | unswizzled {k : EvictCtx} {t : CoolingTicket} {v : Eviction}
      (hpc : pc = .evict k t (.unswizzle v)) (hw : w = v.swip)
      (h : (sh.swips w).state = .cooling t.resident)
      (h' : sh'.swips w = { sh.swips w with state := .evicted t.pid })
  | born (hw : w = sh.nextSwip) (hpc : pc = .idle ∨ ∃ i p, pc = .bind i p)
      (h' : (sh'.swips w).state.resident = none)

/-- A compare-and-swap on one cell, seen from any cell. -/
theorem cellStep_exchange {s w : SwipId} {cell : SwipInner} {e r : SwipState}
    (hx : (sh.swips s).compareExchange e r = some cell)
    (hself : w = s → (sh.swips w).state = e →
      (sh.setSwip s cell).swips w = { sh.swips w with state := r } →
      CellStep cfg sh (sh.setSwip s cell) pc w) :
    CellStep cfg sh (sh.setSwip s cell) pc w := by
  rcases SwipInner.compareExchange_eq_some.mp hx with ⟨he, rfl⟩
  by_cases hw : w = s
  · subst hw
    exact hself rfl he (update_self ..)
  · exact .same (update_of_ne hw _ _)

theorem step_cell (h : sh.step cfg c a pc = some (sh', pc')) (w : SwipId) :
    CellStep cfg sh sh' pc w := by
  by_cases hwriter : Field.Writer pc .swips
  · rcases hwriter with rfl | ⟨i, p, rfl⟩ | ⟨k, i, rfl⟩ | ⟨k, i, rfl⟩ | ⟨k, n, i, p, s, is, rfl⟩ |
      ⟨k, t, s, rfl⟩ | ⟨k, t, v, e, rfl⟩ | ⟨k, t, v, rfl⟩ | ⟨k, t, v, rfl⟩ | ⟨f, m, rfl⟩ |
      ⟨f, p, s, rfl⟩
    · rw [Shared.step, Shared.stepIdle] at h
      split at h
      · cases h
        exact .same rfl
      · split at h <;> cases h
        exact .same rfl
      · split at h <;> cases h
        exact .same rfl
      · split at h <;> cases h
        exact .same rfl
      · cases h
        exact .same rfl
      · cases h
        by_cases hw : w = sh.nextSwip
        · refine .born hw (.inl rfl) ?_
          rw [hw]
          change (update sh.swips sh.nextSwip (SwipInner.fromPid _) sh.nextSwip).state.resident = none
          rw [update_self]
          rfl
        · exact .same (update_of_ne hw _ _)
      · cases h
        exact .same rfl
      · cases h
        exact .same rfl
    · rw [Shared.step, Shared.stepBind] at h
      split at h
      · rename_i cell hbind
        cases h
        by_cases hw : w = sh.nextSwip
        · refine .born hw (.inr ⟨i, p, rfl⟩) ?_
          cases hbind
          rw [hw]
          change (update sh.swips sh.nextSwip { SwipInner.fromPid p with ownerId := cfg.id }
            sh.nextSwip).state.resident = none
          rw [update_self]
          rfl
        · exact .same (update_of_ne hw _ _)
      · cases h
        exact .same rfl
    · rw [Shared.step] at h
      dsimp only [Shared.stepFix] at h
      split at h <;> cases h
      · exact cellStep_exchange ‹_› (fun hw he hr => .resurrected (congrArg some hw.symm) he hr)
      · exact .same rfl
    · rw [Shared.step] at h
      dsimp only [Shared.stepFix] at h
      split at h
      · cases h
        exact .same rfl
      · split at h <;> cases h
        · exact cellStep_exchange ‹_› (fun hw he hr => .marked (congrArg some hw.symm) he hr)
        · exact .same rfl
    · rw [Shared.step] at h
      dsimp only [Shared.stepCool] at h
      split at h <;> cases h
      · exact cellStep_exchange ‹_› (fun hw he hr => .marked (congrArg some hw.symm) he hr)
      · exact .same rfl
    · rw [Shared.step] at h
      dsimp only [Shared.stepEvict] at h
      split at h <;> cases h
      · exact cellStep_exchange ‹_› (fun hw he hr => .resurrected (congrArg some hw.symm) he hr)
      · exact .same rfl
    · rw [Shared.step] at h
      dsimp only [Shared.stepEvict] at h
      split at h <;> cases h
      · exact cellStep_exchange ‹_› (fun hw he hr => .resurrected (congrArg some hw.symm) he hr)
      · exact .same rfl
    · rw [Shared.step] at h
      dsimp only [Shared.stepEvict] at h
      split at h <;> cases h
      · exact cellStep_exchange ‹_› (fun hw he hr => .unswizzled rfl hw he hr)
      · exact .same rfl
    · rw [Shared.step] at h
      dsimp only [Shared.stepEvict] at h
      split at h <;> cases h
      · exact cellStep_exchange ‹_› (fun hw he hr => .resurrected (congrArg some hw.symm) he hr)
      · exact .same rfl
    · rw [Shared.step] at h
      dsimp only [Shared.stepFill] at h
      split at h <;> cases h
      · exact cellStep_exchange ‹_› (fun hw he hr => .swizzled rfl hw he hr)
      · exact .same rfl
    · rw [Shared.step] at h
      dsimp only [Shared.stepShutdown] at h
      split at h <;> cases h
      · exact cellStep_exchange ‹_› (fun hw he hr => .marked (congrArg some hw.symm) he hr)
      · exact .same rfl
  · have hsame : sh'.swips = sh.swips := step_same (f := .swips) h hwriter
    exact .same (congrFun hsame w)

/-! ### Into a stage -/

/-- Whether an evictor is about to remove a marker. -/
def Pc.consuming : Pc → Bool
  | .evict _ _ (.consume _) => true
  | _ => false

/-- Whether a prefetch is about to swizzle. -/
def Pc.arriving : Pc → Bool
  | .fill _ (.swizzle (some _)) => true
  | _ => false

/-- The marker of an evicted page is removed right after its unswizzle. -/
theorem into_consume {k : EvictCtx} {t : CoolingTicket} {v : Eviction}
    (hs : sh.step cfg c a pc = some (sh', .evict k t (.consume v))) :
    pc = .evict k t (.unswizzle v) := by
  rcases (step_flow hs).into_evict rfl with ⟨st, rfl⟩ | hc
  · have hreturn : ∀ r, (k.return t r).consuming = false := by
      intro r
      rcases r with e | outcome
      · cases k <;> rfl
      · cases outcome <;> cases k <;> rfl
    suffices hgoes : (∃ v', st = .unswizzle v') ∨
        Goes (fun pc => pc.consuming = false) (sh.stepEvict cfg c k t st) by
      rcases hgoes with ⟨v', rfl⟩ | hgoes
      · rw [Shared.step] at hs
        dsimp only [Shared.stepEvict] at hs
        split at hs
        · cases hs
          rfl
        · cases hs
      · cases hgoes _ _ hs
    cases st with
    | unswizzle v' => exact .inl ⟨v', rfl⟩
    | exact pass e =>
        refine .inr ?_
        cases pass <;> dsimp only [Shared.stepEvict]
        · exact .stepExact (fun _ => rfl) (hreturn _) (fun _ => rfl)
        · refine .stepExact (fun _ => rfl) rfl (fun s' => ?_)
          split <;> rfl
    | lock s => exact .inr (.lockLatch rfl)
    | unlatch v' => exact .inr (.unlatch rfl (fun _ => rfl))
    | clear v' e =>
        refine .inr ?_
        dsimp only [Shared.stepEvict]
        exact .stepClear (fun _ => rfl) rfl (fun _ => rfl)
    | release v' => exact .inr (.releaseReservation rfl (fun _ => rfl))
    | member v' => exact .inr (.enterQueue rfl (fun _ => rfl))
    | push v' => exact .inr (.pushFree rfl (fun _ => rfl))
    | exitUnlatch r => exact .inr (.unlatch rfl (fun _ => rfl))
    | exitRelease r => exact .inr (.releaseReservation (hreturn r) (fun _ => rfl))
    | restore v' =>
        refine .inr ?_
        dsimp only [Shared.stepEvict]
        (repeat' split) <;> exact .some rfl
    | _ =>
        refine .inr ?_
        dsimp only [Shared.stepEvict]
        (repeat' split) <;> first
          | exact .none
          | exact .some rfl
          | exact .some (hreturn _)
  · cases hc

/-- A prefetch swizzles right after it has recorded its marker. -/
theorem into_swizzle {f : Filling} {m : PrefetchMarker}
    (hs : sh.step cfg c a pc = some (sh', .fill f (.swizzle (some m)))) :
    ∃ g, pc = .fill f (.mark g) := by
  rcases (step_flow hs).into_fill rfl with ⟨st, rfl⟩ | hc
  · suffices hgoes : (∃ g, st = .mark g) ∨
        Goes (fun pc => pc.arriving = false) (sh.stepFill cfg c f st) by
      rcases hgoes with ⟨g, rfl⟩ | hgoes
      · exact ⟨g, rfl⟩
      · cases hgoes _ _ hs
    cases st with
    | mark g => exact .inl ⟨g, rfl⟩
    | lock => exact .inr (.lockLatch rfl)
    | abort e => exact .inr (.unlatch rfl (fun _ => rfl))
    | unlock => exact .inr (.unlatch rfl (fun _ => rfl))
    | installLock => exact .inr (.lockLatch rfl)
    | installUnlock =>
        refine .inr (.unlatch ?_ (fun _ => rfl))
        split <;> rfl
    | unpin =>
        rcases f with ⟨ctx, i⟩
        cases ctx with
        | allocate p s => exact .inr .none
        | demand k loc g => exact .inr (.unpin rfl (fun _ => rfl))
        | prefetch p s loc g => exact .inr (.unpin rfl (fun _ => rfl))
    | latch => exact .inr (.lockLatch rfl)
    | failUnpin => exact .inr (.unpin rfl (fun _ => rfl))
    | failClear e =>
        refine .inr ?_
        dsimp only [Shared.stepFill]
        exact .stepClear (fun _ => rfl) rfl (fun _ => rfl)
    | failRelease => exact .inr (.releaseReservation rfl (fun _ => rfl))
    | _ =>
        refine .inr ?_
        dsimp only [Shared.stepFill]
        (repeat' split) <;> exact .some rfl
  · cases hc

/-! ### Residences -/

section Residence

variable {R : Agent → Role} {w : SwipId} {i : Nat}

/-- A cell keeps its page and its owner. -/
theorem cell_keeps (hs : sh.step cfg c a pc = some (sh', pc'))
    (hw : w < sh.nextSwip) :
    (sh'.swips w).pid = (sh.swips w).pid ∧ (sh'.swips w).ownerId = (sh.swips w).ownerId := by
  cases step_cell hs w with
  | same h => rw [h]; exact ⟨rfl, rfl⟩
  | marked _ _ h => rw [h]; exact ⟨rfl, rfl⟩
  | resurrected _ _ h => rw [h]; exact ⟨rfl, rfl⟩
  | swizzled _ _ _ h => rw [h]; exact ⟨rfl, rfl⟩
  | unswizzled _ _ _ h => rw [h]; exact ⟨rfl, rfl⟩
  | born hw' => exact absurd (hw'.symm ▸ hw) (Nat.lt_irrefl _)

theorem Inv.bound_lt (h : Inv cfg sh R) (hb : sh.store.Bound cfg w) : w < sh.nextSwip := by
  by_contra hge
  exact h.cells.unborn w (Nat.le_of_not_lt hge) hb

/-- A page leaves its frame by an unswizzle. -/
theorem Inv.resides_step (h : Inv cfg sh R) (hs : sh.step cfg c a pc = some (sh', pc'))
    (hr : sh.store.Resides cfg w i) : sh'.store.Resides cfg w i ∨
      ∃ k t v, pc = .evict k t (.unswizzle v) ∧ w = v.swip ∧ t.resident = cfg.residentAddr i := by
  have hres : (sh.swips w).state.resident = some (cfg.residentAddr i) := hr
  cases step_cell hs w with
  | same h => exact .inl ((congrArg (fun x : SwipInner => x.state.resident) h).trans hres)
  | marked _ hst h =>
      rw [hst] at hres
      exact .inl ((congrArg (fun x : SwipInner => x.state.resident) h).trans hres)
  | resurrected _ hst h =>
      rw [hst] at hres
      exact .inl ((congrArg (fun x : SwipInner => x.state.resident) h).trans hres)
  | swizzled _ _ hst _ =>
      rw [hst] at hres
      cases hres
  | unswizzled hpc hw hst _ =>
      rw [hst] at hres
      exact .inr ⟨_, _, _, hpc, hw, Option.some.inj hres⟩
  | born hw => exact absurd hw (h.cells.old_of_resides hr)

/-- A page becomes resident by a swizzle. -/
theorem resides_new (hs : sh.step cfg c a pc = some (sh', pc'))
    (hr : sh'.store.Resides cfg w i) : sh.store.Resides cfg w i ∨
      ∃ f m, pc = .fill f (.swizzle m) ∧ w = f.swip ∧ i = f.index ∧
        (sh.swips w).state = .evicted f.pid := by
  have hres : (sh'.swips w).state.resident = some (cfg.residentAddr i) := hr
  cases step_cell hs w with
  | same h => exact .inl ((congrArg (fun x : SwipInner => x.state.resident) h).symm.trans hres)
  | marked _ hst h =>
      rw [h] at hres
      exact .inl ((congrArg SwipState.resident hst).trans hres)
  | resurrected _ hst h =>
      rw [h] at hres
      exact .inl ((congrArg SwipState.resident hst).trans hres)
  | swizzled hpc hw hst h =>
      rw [h] at hres
      exact .inr ⟨_, _, hpc, hw, (cfg.residentAddr_inj (Option.some.inj hres)).symm, hst⟩
  | unswizzled _ _ _ h =>
      rw [h] at hres
      cases hres
  | born _ _ h => cases h.symm.trans hres

/-- A frame in which a page is resident is not being filled. -/
theorem Inv.not_own_of_resides (h : Inv cfg sh R) (hr : sh.store.Resides cfg w i) (b : Agent) :
    (R b).tenure.own ≠ some i :=
  fun hb => (h.places.owned b i hb).2.2 w hr

/-! ### Generations -/

/-- Only an installation changes a generation. -/
theorem generation_step (hs : sh.step cfg c a pc = some (sh', pc'))
    (hne : ∀ f, pc = .fill f .generation → f.index ≠ i) : sh'.generation i = sh.generation i := by
  by_cases hw : Field.Writer pc .generation
  · rcases hw with ⟨f, rfl⟩
    cases hs
    exact update_of_ne (hne f rfl).symm _ _
  · have hsame : sh'.generation = sh.generation := step_same (f := .generation) hs hw
    exact congrFun hsame i

theorem Inv.generation_of_resides (h : Inv cfg sh R) (hR : R a = pc.role cfg)
    (hs : sh.step cfg c a pc = some (sh', pc')) (hr : sh.store.Resides cfg w i) :
    sh'.generation i = sh.generation i := by
  refine generation_step hs ?_
  rintro f rfl rfl
  refine h.not_own_of_resides hr a ?_
  rw [hR]
  rfl

/-- A pin or a reservation keeps the installations of others away. -/
theorem Inv.generation_of_held (h : Inv cfg sh R) (hR : R a = pc.role cfg)
    (hs : sh.step cfg c a pc = some (sh', pc')) (hb : b ≠ a)
    (hheld : (R b).tenure.pin = some i ∨ (R b).tenure.reservation = some i) :
    sh'.generation i = sh.generation i := by
  refine generation_step hs ?_
  rintro f rfl rfl
  have hres : (R a).tenure.reservation = some f.index := by
    rw [hR]
    rfl
  rcases hheld with hpin | hheld
  · exact h.pins.unreserved_of_pin hpin hres
  · exact hb (h.pins.reserver hheld hres)

end Residence

/-! ### Stamps -/

/-- The stages of an eviction in which the generation of the ticket is that
    of its frame. -/
def EvictStage.stamped : EvictStage → Bool
  | .exact (.second _) .pid | .exact (.second _) .generation | .exact .first _ => false
  | .exact (.second _) _ | .backing _ | .dirty _ _ | .target _ | .tier _ _ _ | .write _ _ _
  | .publish _ | .clean _ | .unswizzle _ | .consume _ | .unlatch _ | .clear _ _ | .release _ => true
  | _ => false

/-- A frame with the generation an agent has read from it under a hold. -/
def Pc.stamp : Pc → Option (Nat × Nat)
  | .fix _ (.consume i g) => some (i, g)
  | .fill f (.mark g) => some (f.index, g)
  | .fill f (.swizzle (some m)) => some (f.index, m.generation)
  | .evict _ t st => bif st.stamped then some (t.frameIndex, t.generation) else none
  | _ => none

/-- A stamp is taken under a pin or a reservation. -/
theorem stamp_held {i g : Nat} (hst : pc.stamp = some (i, g))
    (htenure : (pc.role cfg).tenure ≠ .absurd) :
    (pc.role cfg).tenure.pin = some i ∨ (pc.role cfg).tenure.reservation = some i := by
  cases pc with
  | fix k st =>
      cases st with
      | consume j g' =>
          cases hst
          exact .inl rfl
      | _ => cases hst
  | fill f st =>
      cases st with
      | mark g' =>
          cases hst
          exact .inl rfl
      | swizzle m =>
          cases m with
          | none => cases hst
          | some m =>
              cases hst
              exact .inl rfl
      | _ => cases hst
  | evict k t st =>
      refine .inr ?_
      have hi : t.frameIndex = i ∧ st.stamped = true := by
        change (bif st.stamped then some (t.frameIndex, t.generation) else none) = some (i, g) at hst
        cases hstamped : st.stamped with
        | false =>
            rw [hstamped] at hst
            cases hst
        | true =>
            rw [hstamped] at hst
            exact ⟨congrArg Prod.fst (Option.some.inj hst), rfl⟩
      rw [← hi.1]
      have hstamped := hi.2
      have hgiven : ∀ (d : Bool) (u : Tenure), Tenure.given d u ≠ .absurd →
          Tenure.given d u = u := by
        intro d u hd
        cases d
        · exact absurd rfl hd
        · rfl
      cases st with
      | exact pass e =>
          cases pass with
          | first => cases hstamped
          | second s => cases e <;> rfl
      | target v => exact congrArg Tenure.reservation (hgiven _ _ htenure)
      | tier v n err => exact congrArg Tenure.reservation (hgiven _ _ htenure)
      | write v n err => exact congrArg Tenure.reservation (hgiven _ _ htenure)
      | publish v =>
          rcases v with ⟨s, old, wasDirty, new, previous⟩
          cases new with
          | some new => rfl
          | none => cases old with
              | some old => rfl
              | none => exact absurd rfl htenure
      | clear v e => cases e <;> rfl
      | backing s | dirty s old | clean v | unswizzle v | consume v | unlatch v | release v => rfl
      | _ => exact absurd hstamped Bool.false_ne_true
  | _ => cases hst

/-- Every stamp of the program point is right. -/
def Stamped (sh : Shared) (pc : Pc) : Prop :=
  ∀ i g, pc.stamp = some (i, g) → sh.generation i = g

theorem Stamped.of_none (h : pc.stamp = none) : Stamped sh pc :=
  fun _ _ hst => by cases h.symm.trans hst

theorem Stamped.of_read {i g : Nat} (h : pc.stamp = some (i, g)) (hg : sh.generation i = g) :
    Stamped sh pc := by
  intro j g' hst
  cases h.symm.trans hst
  exact hg

theorem Stamped.forth {k : EvictCtx} {t : CoolingTicket} {st st' : EvictStage}
    (h : Stamped sh (.evict k t st)) (hst : st'.stamped = true → st.stamped = true) :
    Stamped sh (.evict k t st') := by
  intro i g hg
  refine h i g ?_
  change (bif st'.stamped then some (t.frameIndex, t.generation) else none) = some (i, g) at hg
  change (bif st.stamped then some (t.frameIndex, t.generation) else none) = some (i, g)
  cases hst' : st'.stamped with
  | false =>
      rw [hst'] at hg
      cases hg
  | true =>
      rw [hst'] at hg
      rw [hst hst']
      exact hg

theorem stepFix_stamped {k : FixCtx} {st : FixStage} :
    Goes (Stamped sh) (sh.stepFix cfg c k st) := by
  cases st with
  | generation i => exact .some (.of_read rfl rfl)
  | latch i => exact .lockLatch (.of_none rfl)
  | unlatch i => exact .unlatch (.of_none rfl) (fun _ => .of_none rfl)
  | unpin i => exact .unpin (.of_none rfl) (fun _ => .of_none rfl)
  | _ =>
      dsimp only [Shared.stepFix]
      (repeat' split) <;> exact .some (.of_none rfl)

theorem stepFill_stamped {f : Filling} {st : FillStage} (h : Stamped sh (.fill f st)) :
    Goes (Stamped sh) (sh.stepFill cfg c f st) := by
  cases st with
  | stamp => exact .some (.of_read rfl rfl)
  | mark g => exact .some (.of_read rfl (h f.index g rfl))
  | lock => exact .lockLatch (.of_none rfl)
  | abort e => exact .unlatch (.of_none rfl) (fun _ => .of_none rfl)
  | unlock => exact .unlatch (.of_none rfl) (fun _ => .of_none rfl)
  | installLock => exact .lockLatch (.of_none rfl)
  | installUnlock =>
      refine .unlatch ?_ (fun _ => .of_none rfl)
      split <;> exact .of_none rfl
  | unpin =>
      rcases f with ⟨ctx, i⟩
      cases ctx with
      | allocate p s => exact .none
      | demand k loc g => exact .unpin (.of_none rfl) (fun _ => .of_none rfl)
      | prefetch p s loc g => exact .unpin (.of_none rfl) (fun _ => .of_none rfl)
  | latch => exact .lockLatch (.of_none rfl)
  | failUnpin => exact .unpin (.of_none rfl) (fun _ => .of_none rfl)
  | failClear e =>
      dsimp only [Shared.stepFill]
      exact .stepClear (fun _ => .of_none rfl) (.of_none rfl) (fun _ => .of_none rfl)
  | failRelease => exact .releaseReservation (.of_none rfl) (fun _ => .of_none rfl)
  | _ =>
      dsimp only [Shared.stepFill]
      (repeat' split) <;> exact .some (.of_none rfl)

theorem stepEvict_stamped {k : EvictCtx} {t : CoolingTicket} {st : EvictStage}
    (h : Stamped sh (.evict k t st)) : Goes (Stamped sh) (sh.stepEvict cfg c k t st) := by
  have hreturn : ∀ r, Stamped sh (k.return t r) := by
    intro r
    refine .of_none ?_
    rcases r with e | outcome
    · cases k <;> rfl
    · cases outcome <;> cases k <;> rfl
  have hpanic : ∀ site, Stamped sh (.panicked site) := fun _ => .of_none rfl
  -- the stages before the generation is compared are not stamped
  have hearly : ∀ st', st'.stamped = false → Stamped sh (.evict k t st') := by
    intro st' hst'
    refine .of_none ?_
    change (bif st'.stamped then some (t.frameIndex, t.generation) else none) = none
    rw [hst']
    rfl
  have hlate : st.stamped = true → ∀ st', Stamped sh (.evict k t st') :=
    fun hst st' => h.forth (fun _ => hst)
  cases st with
  | exact pass e =>
      cases pass with
      | first =>
          exact .stepExact (fun _ => hearly _ rfl) (hreturn _) (fun _ => hearly _ rfl)
      | second s =>
          cases e with
          | pid =>
              dsimp only [Shared.stepEvict, Shared.stepExact]
              split <;> exact .some (hearly _ rfl)
          | generation =>
              dsimp only [Shared.stepEvict, Shared.stepExact]
              split
              · exact .some (hearly _ rfl)
              · exact .some (.of_read rfl (not_not.mp ‹_›))
          | owner =>
              dsimp only [Shared.stepEvict, Shared.stepExact]
              split <;> exact .some (hlate rfl _)
          | state s' =>
              dsimp only [Shared.stepEvict, Shared.stepExact]
              split <;> exact .some (hlate rfl _)
          | pages s' =>
              dsimp only [Shared.stepEvict, Shared.stepExact]
              repeat' split
              all_goals exact .some (hlate rfl _)
  | claim s =>
      dsimp only [Shared.stepEvict]
      split
      · exact .some (hearly _ rfl)
      · exact .some (hreturn _)
  | lock s => exact .lockLatch (hearly _ rfl)
  | unlatch v => exact .unlatch (hlate rfl _) hpanic
  | clear v e => exact Goes.stepClear (Q := Stamped sh) (fun _ => hlate rfl _) (hlate rfl _) hpanic
  | release v => exact .releaseReservation (hearly _ rfl) hpanic
  | member v => exact .enterQueue (hearly _ rfl) hpanic
  | push v => exact .pushFree (hearly _ rfl) hpanic
  | exitUnlatch r => exact .unlatch (hearly _ rfl) hpanic
  | exitRelease r => exact .releaseReservation (hreturn _) hpanic
  | restore v =>
      dsimp only [Shared.stepEvict]
      (repeat' split) <;> exact .some (hearly _ rfl)
  | _ =>
      dsimp only [Shared.stepEvict]
      (repeat' split) <;> first
        | exact .none
        | exact .some (hlate rfl _)
        | exact .some (hearly _ rfl)
        | exact .some (hpanic _)
        | exact .some (hreturn _)

theorem step_stamped (h : Stamped sh pc) (hs : sh.step cfg c a pc = some (sh', pc')) :
    Stamped sh' pc' := by
  by_cases hgen : ∃ f, pc = .fill f .generation
  · rcases hgen with ⟨f, rfl⟩
    cases hs
    exact .of_none rfl
  · have hsame : sh'.generation = sh.generation := step_same (f := .generation) hs hgen
    suffices hst : Stamped sh pc' by
      intro i g hg
      rw [hsame]
      exact hst i g hg
    have hflow := step_flow hs
    cases pc with
    | fix k st => exact stepFix_stamped sh' pc' hs
    | fill f st => exact stepFill_stamped h sh' pc' hs
    | evict k t st => exact stepEvict_stamped h sh' pc' hs
    | fault k st =>
        refine .of_none ?_
        cases hflow with
        | @faultReturn _ _ r =>
            cases k with
            | demand k =>
                rcases r with e | tier
                · rfl
                · cases tier <;> rfl
            | prefetch t =>
                unfold FaultCtx.return
                dsimp only
                split <;> rfl
        | _ => rfl
    | acquire w st =>
        refine .of_none ?_
        cases hflow with
        | acquired => cases w <;> rfl
        | acquireFailed => cases w <;> rfl
        | _ => rfl
    | cool k st =>
        refine .of_none ?_
        cases hflow with
        | coolReturn => cases k <;> rfl
        | _ => rfl
    | enqueue k i p st =>
        refine .of_none ?_
        cases hflow with
        | enqueueReturn => cases k <;> rfl
        | _ => rfl
    | checkin k i st =>
        refine .of_none ?_
        cases hflow with
        | checkinReturn => cases k <;> rfl
        | _ => rfl
    | stuck k => cases hs
    | returned r => cases hs
    | panicked site => cases hs
    | _ => cases hflow <;> exact .of_none rfl

theorem stamped_reachable {s : PoolState} (hr : Reachable (pool cfg) s) (a : Agent) :
    Stamped s.shared (s.pcs a) := by
  suffices hall : Inv cfg s.shared (s.roles cfg) ∧ ∀ a, Stamped s.shared (s.pcs a) from hall.2 a
  refine reachable_invariant (I := fun s => Inv cfg s.shared (s.roles cfg) ∧
    ∀ a, Stamped s.shared (s.pcs a)) ?_ (fun s l s' hi hs => ⟨inv_next hi.1 hs, fun b => ?_⟩) hr
  · rintro s ⟨budgets, rfl⟩
    exact ⟨inv_initial budgets, fun _ => .of_none rfl⟩
  · rcases pool_next hs with ⟨hstep, hothers⟩
    by_cases hb : b = l.1
    · rw [hb]
      exact step_stamped (hi.2 l.1) hstep
    · rw [hothers b hb]
      intro i g hg
      have htenure : ((s.pcs b).role cfg).tenure ≠ .absurd := by
        intro hc
        have hsound := (hi.1.sound b).tenure
        rw [PoolState.roles, hc] at hsound
        exact hsound
      rw [hi.1.generation_of_held rfl hstep hb (stamp_held hg htenure)]
      exact hi.2 b i g hg

end TierBuf
