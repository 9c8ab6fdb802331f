import TierBuf.Pool.Occupants

/-!
# Prefetch Markers

Whose marker is in the map.

A prefetch records the address and the generation of its frame before it makes
the page resident, and the marker is looked up and removed by page alone. So
the map may name a frame that the page has left: an evictor makes the page
`Evicted` first and removes the marker afterwards. `Marked` says that nothing
else can happen. A marker always names a frame with its current generation,
and that frame is the residence of the page, or is still held by the evictor
that has just unswizzled the page, or by the prefetch that is about to swizzle
it.

That window is where markers are confused. `MarkerExact` is what the program
means its markers to do, and it holds of every run in which, while an evictor
of a page is in the window, no prefetch records a marker of that page and
nobody else removes the one the evictor is about to remove.

## Main definitions

* `MarkerAt`: Why a frame may be named by the marker of a page.
* `Marked`: Every marker names such a frame.
* `Leaving`, `Undisturbed`: The window of an evictor, and the steps that do
  not interfere with it.
* `MarkerExact`: Markers are inserted once and removed by their own occupant.

## Theorems

* `MarkerAt.step`, `marked_reachable`: The invariant.
* `marker_exact`: Undisturbed runs keep markers exact.
* `marker_exact_fails`: Other runs do not.
-/

namespace TierBuf

open Function Ledger Transition

variable {cfg : Config} {s s' : PoolState} {l : Agent × Choice} {p : PageId} {i : Nat}

/-- Why frame `i` may be named by the marker of page `p`. -/
inductive MarkerAt (cfg : Config) (s : PoolState) (p : PageId) (i : Nat) : Prop where
  | resident {w : SwipId} (hr : s.shared.store.Resides cfg w i) (hp : (s.shared.swips w).pid = p)
  | leaving {a : Agent} {k : EvictCtx} {t : CoolingTicket} {v : Eviction}
      (hpc : s.pcs a = .evict k t (.consume v)) (hi : t.frameIndex = i) (hp : t.pid = p)
  | arriving {a : Agent} {f : Filling} {m : PrefetchMarker}
      (hpc : s.pcs a = .fill f (.swizzle (some m))) (hi : f.index = i) (hp : f.pid = p)

/-- The marker of the occupant of frame `i`. -/
def PoolState.markerOf (cfg : Config) (s : PoolState) (i : Nat) : PrefetchMarker :=
  ⟨cfg.residentAddr i, s.shared.generation i⟩

/-- Every marker is that of a frame its page is in, is leaving, or is about to
    enter. -/
def Marked (cfg : Config) (s : PoolState) : Prop :=
  ∀ p m, s.shared.prefetched p = some m → ∃ i, m = s.markerOf cfg i ∧ MarkerAt cfg s p i

/-- The unswizzle of a revalidated page succeeds. -/
theorem unswizzle_next (hr : Reachable (pool cfg) s) (hs : (pool cfg).next s l = some s')
    {k : EvictCtx} {t : CoolingTicket} {v : Eviction}
    (hpc : s.pcs l.1 = .evict k t (.unswizzle v)) :
    s'.pcs l.1 = .evict k t (.consume v) ∧ (s.shared.swips v.swip).pid = t.pid ∧
      (s.shared.swips v.swip).state = .cooling t.resident ∧ cfg.Tickets t := by
  have h := inv_reachable hr
  have hsound := h.sound l.1
  rw [role_at hpc] at hsound
  have hcool : (s.shared.swips v.swip).state = .cooling (cfg.residentAddr t.frameIndex) :=
    hsound.tenure.1
  have hlisted : s.shared.pages t.pid = some v.swip := hsound.tenure.2.1
  have htickets : cfg.Tickets t := hsound.checked
  rw [htickets.2] at hcool
  refine ⟨?_, (h.cells.listed _ _ hlisted).2, hcool, htickets⟩
  have hstep := (pool_next hs).1
  rw [hpc, Shared.step] at hstep
  dsimp only [Shared.stepEvict] at hstep
  rw [show (s.shared.swips v.swip).tryUnswizzle t.resident t.pid =
    some { s.shared.swips v.swip with state := .evicted t.pid } from
      SwipInner.compareExchange_eq_some.mpr ⟨hcool, rfl⟩] at hstep
  exact (congrArg Prod.snd (Option.some.inj hstep)).symm

/-- The swizzle of a filled frame succeeds. -/
theorem swizzle_next (hr : Reachable (pool cfg) s) (hs : (pool cfg).next s l = some s')
    {f : Filling} {m : Option PrefetchMarker} (hpc : s.pcs l.1 = .fill f (.swizzle m)) :
    s'.shared.store.Resides cfg f.swip f.index ∧ (s'.shared.swips f.swip).pid = f.pid := by
  have h := inv_reachable hr
  have hwarrant := (h.sound l.1).warrant
  rw [role_at hpc] at hwarrant
  have hpage : (s.shared.swips f.swip).pid = f.pid := (h.fill_page hwarrant).2.1
  have hstep := (pool_next hs).1
  rw [hpc, Shared.step] at hstep
  dsimp only [Shared.stepFill] at hstep
  rw [swizzle_accepts hr hpc] at hstep
  have hshared : s.shared.setSwip f.swip { s.shared.swips f.swip with
      state := .hot (cfg.residentAddr f.index) } = s'.shared :=
    congrArg Prod.fst (Option.some.inj hstep)
  have hcell : s'.shared.swips f.swip =
      { s.shared.swips f.swip with state := .hot (cfg.residentAddr f.index) } := by
    rw [← hshared]
    exact update_self ..
  refine ⟨?_, ?_⟩
  · exact congrArg (fun x : SwipInner => x.state.resident) hcell
  · rw [hcell]
    exact hpage

/-- The frame of a marker keeps its generation. -/
theorem MarkerAt.generation (hr : Reachable (pool cfg) s) (hs : (pool cfg).next s l = some s')
    (h : MarkerAt cfg s p i) : s'.shared.generation i = s.shared.generation i := by
  have hi := inv_reachable hr
  rcases pool_next hs with ⟨hstep, -⟩
  cases h with
  | resident hres _ => exact hi.generation_of_resides rfl hstep hres
  | @leaving b k t v hpc hframe _ =>
      by_cases hb : b = l.1
      · subst hb
        rw [hpc] at hstep
        exact generation_step hstep nofun
      · refine hi.generation_of_held rfl hstep hb (.inr ?_)
        rw [role_at hpc, ← hframe]
        rfl
  | @arriving b f m hpc hframe _ =>
      by_cases hb : b = l.1
      · subst hb
        rw [hpc] at hstep
        exact generation_step hstep nofun
      · refine hi.generation_of_held rfl hstep hb (.inl ?_)
        rw [role_at hpc, ← hframe]
        rfl

/-- Only the evictor itself can take away the reason for a marker, by removing
    the marker of its page. -/
theorem MarkerAt.step (hr : Reachable (pool cfg) s) (hs : (pool cfg).next s l = some s')
    (h : MarkerAt cfg s p i) (hne : ∀ k t v, s.pcs l.1 = .evict k t (.consume v) → t.pid ≠ p) :
    MarkerAt cfg s' p i := by
  have hi := inv_reachable hr
  rcases pool_next hs with ⟨hstep, hothers⟩
  cases h with
  | @resident w hres hp =>
      have hocc := hi.cells.occupies hres
      rcases hi.resides_step hstep hres with hres' | ⟨k, t, v, hpc, hw, haddr⟩
      · refine .resident hres' ?_
        rw [(cell_keeps hstep (hi.bound_lt hocc.bound)).1]
        exact hp
      · rcases unswizzle_next hr hs hpc with ⟨hpc', hpid, -, htickets⟩
        refine .leaving hpc' (cfg.residentAddr_inj (htickets.2.trans haddr)) ?_
        rw [← hpid, ← hw]
        exact hp
  | @leaving b k t v hpc hframe hp =>
      by_cases hb : b = l.1
      · subst hb
        exact absurd hp (hne k t v hpc)
      · exact .leaving ((hothers b hb).trans hpc) hframe hp
  | @arriving b f m hpc hframe hp =>
      by_cases hb : b = l.1
      · subst hb
        rcases swizzle_next hr hs hpc with ⟨hres, hpid⟩
        rw [hframe] at hres
        exact .resident hres (hpid.trans hp)
      · exact .arriving ((hothers b hb).trans hpc) hframe hp

theorem Marked.step (hr : Reachable (pool cfg) s) (hm : Marked cfg s)
    (hs : (pool cfg).next s l = some s') : Marked cfg s' := by
  rcases pool_next hs with ⟨hstep, -⟩
  intro p m hmap
  -- a marker that was there before
  have hold : s.shared.prefetched p = some m →
      (∀ k t v, s.pcs l.1 = .evict k t (.consume v) → t.pid ≠ p) →
      ∃ i, m = s'.markerOf cfg i ∧ MarkerAt cfg s' p i := by
    intro hbefore hne
    rcases hm p m hbefore with ⟨i, hmark, hat⟩
    refine ⟨i, ?_, hat.step hr hs hne⟩
    rw [hmark]
    unfold PoolState.markerOf
    rw [hat.generation hr hs]
  by_cases hw : Field.Writer (s.pcs l.1) .prefetched
  · rcases hw with ⟨k, j, g, hpc⟩ | ⟨f, g, hpc⟩ | ⟨f, m', hpc⟩ | ⟨k, t, v, hpc⟩
    · rw [hpc] at hstep
      have hafter : update s.shared.prefetched k.pid none = s'.shared.prefetched :=
        congrArg (fun r => r.1.prefetched) (Option.some.inj hstep)
      have hmap' : update s.shared.prefetched k.pid none p = some m := by
        rw [hafter]
        exact hmap
      by_cases hp : p = k.pid
      · rw [hp, update_self] at hmap'
        cases hmap'
      · rw [update_of_ne hp] at hmap'
        exact hold hmap' (fun _ _ _ hc => by cases hpc.symm.trans hc)
    · have hstamp := stamped_reachable hr l.1
      rw [hpc] at hstep hstamp
      have hgen : s.shared.generation f.index = g := hstamp f.index g rfl
      have hafter : update s.shared.prefetched f.pid (some ⟨cfg.residentAddr f.index, g⟩) =
          s'.shared.prefetched := congrArg (fun r => r.1.prefetched) (Option.some.inj hstep)
      have hgen' : s.shared.generation = s'.shared.generation :=
        congrArg (fun r => r.1.generation) (Option.some.inj hstep)
      have hpc' : Pc.fill f (.swizzle (some ⟨cfg.residentAddr f.index, g⟩)) = s'.pcs l.1 :=
        congrArg Prod.snd (Option.some.inj hstep)
      have hmap' : update s.shared.prefetched f.pid (some ⟨cfg.residentAddr f.index, g⟩) p =
          some m := by
        rw [hafter]
        exact hmap
      by_cases hp : p = f.pid
      · rw [hp, update_self, Option.some.injEq] at hmap'
        refine ⟨f.index, ?_, .arriving hpc'.symm rfl hp.symm⟩
        rw [← hmap', PoolState.markerOf, ← hgen', hgen]
      · rw [update_of_ne hp] at hmap'
        exact hold hmap' (fun _ _ _ hc => by cases hpc.symm.trans hc)
    · exact (absurd_role hr hpc rfl).elim
    · rw [hpc] at hstep
      have hafter : update s.shared.prefetched t.pid none = s'.shared.prefetched :=
        congrArg (fun r => r.1.prefetched) (Option.some.inj hstep)
      have hmap' : update s.shared.prefetched t.pid none p = some m := by
        rw [hafter]
        exact hmap
      by_cases hp : p = t.pid
      · rw [hp, update_self] at hmap'
        cases hmap'
      · rw [update_of_ne hp] at hmap'
        refine hold hmap' (fun k' t' v' hc => ?_)
        cases hpc.symm.trans hc
        exact Ne.symm hp
  · have hsame : s'.shared.prefetched = s.shared.prefetched := step_same (f := .prefetched) hstep hw
    rw [hsame] at hmap
    refine hold hmap (fun k t v hc => ?_)
    exact absurd (.inr (.inr (.inr ⟨k, t, v, hc⟩))) hw

theorem marked_reachable (hr : Reachable (pool cfg) s) : Marked cfg s := by
  refine reachableVia_invariant (I := Marked cfg) ?_ (fun s l s' hr hm _ hs => hm.step hr hs) hr
  rintro s ⟨budgets, rfl⟩
  exact nofun

/-! ### Exactness -/

/-- Agent `a` has unswizzled page `p` and not yet removed its marker. -/
def Leaving (s : PoolState) (a : Agent) (p : PageId) : Prop :=
  ∃ k t v, s.pcs a = .evict k t (.consume v) ∧ t.pid = p

/-- The page whose marker a step removes if it has one. -/
def Pc.unmarks : Pc → Option PageId
  | .fix k (.consume _ _) => some k.pid
  | .evict _ t (.consume _) => some t.pid
  | _ => none

/-- While another agent is between the unswizzle of a page and the removal of
    its marker, the step does not record a marker of the page and does not
    remove that of the frame the other agent has emptied. -/
def Undisturbed (cfg : Config) (s : PoolState) (l : Agent × Choice) : Prop :=
  ∀ b k t v, b ≠ l.1 → s.pcs b = .evict k t (.consume v) →
    (∀ f g, s.pcs l.1 = .fill f (.mark g) → f.pid ≠ t.pid) ∧
    ((s.pcs l.1).unmarks = some t.pid →
      s.shared.prefetched t.pid ≠ some (s.markerOf cfg t.frameIndex))

/-- What markers are for: one is inserted only where there is none, and is
    removed by a fix that has found its occupant, by the eviction of its
    occupant, or by the rollback of its own prefetch. -/
structure MarkerExact (cfg : Config) (s : PoolState) (l : Agent × Choice) (s' : PoolState) :
    Prop where
  inserts : ∀ f g, s.pcs l.1 = .fill f (.mark g) → s.shared.prefetched f.pid = none
  removes : ∀ p m, s.shared.prefetched p = some m → s'.shared.prefetched p ≠ some m →
    (∃ k i g, s.pcs l.1 = .fix k (.consume i g) ∧ k.pid = p ∧ m = ⟨cfg.residentAddr i, g⟩) ∨
    (∃ k t v, s.pcs l.1 = .evict k t (.consume v) ∧ t.pid = p ∧ m = ⟨t.resident, t.generation⟩) ∨
    ∃ f, s.pcs l.1 = .fill f (.unmark m) ∧ f.pid = p

/-- No page is filled into two frames at once. -/
theorem Inv.filler_sole {sh : Shared} {R : Agent → Role} (h : Inv cfg sh R) {a b : Agent}
    {f f' : Filling} (ha : (R a).warrant = f.ctx.warrant) (hb : (R b).warrant = f'.ctx.warrant)
    (hp : f.pid = f'.pid) : a = b := by
  have hsa := (h.sound a).warrant
  have hsb := (h.sound b).warrant
  rw [ha] at hsa
  rw [hb] at hsb
  have hlead : ∀ {c : Agent} {f : Filling}, (R c).warrant = f.ctx.warrant →
      f.ctx.allocates = false → (R c).warrant.lead = some f.pid := by
    intro c f hc hf
    rw [hc]
    rcases f with ⟨ctx, i⟩
    cases ctx with
    | allocate p s => cases hf
    | demand k loc g => rfl
    | prefetch p s loc g => rfl
  have hmint : ∀ {c : Agent} {f : Filling}, (R c).warrant = f.ctx.warrant →
      f.ctx.allocates = true → (R c).warrant.mint = some f.pid := by
    intro c f hc hf
    rw [hc]
    rcases f with ⟨ctx, i⟩
    cases ctx with
    | allocate p s => rfl
    | demand k loc g => cases hf
    | prefetch p s loc g => cases hf
  -- a page is listed for the leader of its fault and not for its maker
  have hpages : ∀ {f : Filling}, f.ctx.warrant.Sound cfg sh.store →
      (sh.pages f.pid = none ↔ f.ctx.allocates = true) := by
    intro f hs
    rcases f with ⟨ctx, i⟩
    cases ctx with
    | allocate p s => exact ⟨fun _ => rfl, fun _ => hs.1⟩
    | demand k loc g =>
        refine ⟨fun hc => ?_, fun hc => by cases hc⟩
        cases hc.symm.trans hs.1
    | prefetch p s loc g =>
        refine ⟨fun hc => ?_, fun hc => by cases hc⟩
        cases hc.symm.trans hs.1
  have hsame : f.ctx.allocates = f'.ctx.allocates := by
    rw [Bool.eq_iff_iff, ← hpages hsa, ← hpages hsb, hp]
  cases hf : f.ctx.allocates with
  | true => exact h.minter a b f.pid (hmint ha hf) (by rw [hp]; exact hmint hb (hsame ▸ hf))
  | false => exact h.leads.leader a b f.pid (hlead ha hf) (by rw [hp]; exact hlead hb (hsame ▸ hf))

/-- A page that is being filled is not resident. -/
theorem Inv.filler_evicted {sh : Shared} {R : Agent → Role} (h : Inv cfg sh R) {a : Agent}
    {f : Filling} {w : SwipId} (ha : (R a).warrant = f.ctx.warrant)
    (hres : sh.store.Resides cfg w i) : (sh.swips w).pid ≠ f.pid := by
  intro hp
  have hs := (h.sound a).warrant
  rw [ha] at hs
  rcases h.fill_page hs with ⟨hbound, hpid, hevicted⟩
  have hw : w = f.swip :=
    h.cells.canonical w f.swip (h.cells.occupies hres).bound hbound (hp.trans hpid.symm)
  rw [hw] at hres
  exact hres.not_evicted hevicted

/-- The marker of a page that is being evicted is not that of a later
    occupant. -/
def Departed (cfg : Config) (s : PoolState) : Prop :=
  ∀ p i, s.shared.prefetched p = some (s.markerOf cfg i) → (∃ a, Leaving s a p) →
    (∀ w, s.shared.store.Resides cfg w i → (s.shared.swips w).pid ≠ p) ∧
    ∀ a f m, s.pcs a = .fill f (.swizzle (some m)) → f.index = i → f.pid ≠ p

/-- Only a prefetch adds a marker. -/
theorem prefetched_step {m : PrefetchMarker} (hs : (pool cfg).next s l = some s')
    (hmap : s'.shared.prefetched p = some m) :
    s.shared.prefetched p = some m ∨ ∃ f g, s.pcs l.1 = .fill f (.mark g) ∧ f.pid = p ∧
      m = ⟨cfg.residentAddr f.index, g⟩ := by
  rcases pool_next hs with ⟨hstep, -⟩
  by_cases hw : Field.Writer (s.pcs l.1) .prefetched
  · have hgone : ∀ q, update s.shared.prefetched q none = s'.shared.prefetched →
        s.shared.prefetched p = some m := by
      intro q hafter
      rw [← hafter] at hmap
      by_cases hp : p = q
      · rw [hp, update_self] at hmap
        cases hmap
      · rw [update_of_ne hp] at hmap
        exact hmap
    rcases hw with ⟨k, j, g, hpc⟩ | ⟨f, g, hpc⟩ | ⟨f, m', hpc⟩ | ⟨k, t, v, hpc⟩
    · rw [hpc] at hstep
      exact .inl (hgone k.pid (congrArg (fun r => r.1.prefetched) (Option.some.inj hstep)))
    · rw [hpc] at hstep
      have hafter : update s.shared.prefetched f.pid (some ⟨cfg.residentAddr f.index, g⟩) =
          s'.shared.prefetched := congrArg (fun r => r.1.prefetched) (Option.some.inj hstep)
      rw [← hafter] at hmap
      by_cases hp : p = f.pid
      · rw [hp, update_self, Option.some.injEq] at hmap
        exact .inr ⟨f, g, hpc, hp.symm, hmap.symm⟩
      · rw [update_of_ne hp] at hmap
        exact .inl hmap
    · rw [hpc, Shared.step] at hstep
      dsimp only [Shared.stepFill] at hstep
      split at hstep
      · exact .inl (hgone f.pid (congrArg (fun r => r.1.prefetched) (Option.some.inj hstep)))
      · have hafter : s.shared.prefetched = s'.shared.prefetched :=
          congrArg (fun r => r.1.prefetched) (Option.some.inj hstep)
        rw [← hafter] at hmap
        exact .inl hmap
    · rw [hpc] at hstep
      exact .inl (hgone t.pid (congrArg (fun r => r.1.prefetched) (Option.some.inj hstep)))
  · have hsame : s'.shared.prefetched = s.shared.prefetched := step_same (f := .prefetched) hstep hw
    rw [hsame] at hmap
    exact .inl hmap

/-- An evictor enters the window by its unswizzle. -/
theorem Leaving.moved {a : Agent} (hs : (pool cfg).next s l = some s') (h : Leaving s' a p) :
    Leaving s a p ∨ (a = l.1 ∧ ∃ k t v, s.pcs a = .evict k t (.unswizzle v) ∧ t.pid = p) := by
  rcases pool_next hs with ⟨hstep, hothers⟩
  rcases h with ⟨k, t, v, hpc, hp⟩
  by_cases ha : a = l.1
  · subst ha
    rw [hpc] at hstep
    exact .inr ⟨rfl, k, t, v, into_consume hstep, hp⟩
  · rw [hothers a ha] at hpc
    exact .inl ⟨k, t, v, hpc, hp⟩

theorem Departed.step (hr : Reachable (pool cfg) s) (hd : Departed cfg s) (hu : Undisturbed cfg s l)
    (hs : (pool cfg).next s l = some s') : Departed cfg s' := by
  have hi := inv_reachable hr
  rcases pool_next hs with ⟨hstep, hothers⟩
  -- a prefetch that records its marker would disturb the window
  have hmark : ∀ {b f g}, s.pcs l.1 = .fill f (.mark g) → ¬ Leaving s b f.pid := by
    rintro b f g hpc ⟨k, t, v, hb, hp⟩
    have hne : b ≠ l.1 := by
      rintro rfl
      cases hpc.symm.trans hb
    exact (hu b k t v hne hb).1 f g hpc hp.symm
  rintro p i hmap ⟨b, hb⟩
  rcases hb.moved hs with hbefore | ⟨rfl, k, t, v, hpc, hp⟩
  · rcases prefetched_step hs hmap with hold | ⟨f, g, hpc, hp, -⟩
    · rcases marked_reachable hr p _ hold with ⟨j, hj, hat⟩
      have hij : i = j := cfg.residentAddr_inj (congrArg PrefetchMarker.resident hj)
      subst hij
      rw [hj] at hold
      rcases hd p i hold ⟨b, hbefore⟩ with ⟨hres, harr⟩
      refine ⟨fun w hw hpid => ?_, fun a f m hpc hindex hpid => ?_⟩
      · rcases resides_new hstep hw with hw0 | ⟨f, m, hpc, hwf, hindex, -⟩
        · refine hres w hw0 ?_
          rw [← (cell_keeps hstep (hi.bound_lt (hi.cells.occupies hw0).bound)).1]
          exact hpid
        · -- the frame it enters is its own, so the marker is not that of another agent
          have hown : (s.roles cfg l.1).tenure.own = some i := by
            rw [role_at hpc, hindex]
            rfl
          cases hat with
          | resident hw0 hp0 => exact hres _ hw0 hp0
          | @leaving c k t v hc ht _ =>
              have howned : (s.roles cfg c).tenure.own = some i := by
                rw [role_at hc, ← ht]
                rfl
              have hac := hi.places.owner c l.1 i howned hown
              rw [hac, hpc] at hc
              cases hc
          | arriving hc hf hp0 => exact harr _ _ _ hc hf hp0
      · by_cases ha : a = l.1
        · subst ha
          rw [hpc] at hstep
          rcases into_swizzle hstep with ⟨g, hg⟩
          rw [← hpid] at hbefore
          exact hmark hg hbefore
        · rw [hothers a ha] at hpc
          exact harr a f m hpc hindex hpid
    · rw [← hp] at hbefore
      exact absurd hbefore (hmark hpc)
  · -- the page has just become `Evicted`, so it is neither resident nor being filled
    rcases unswizzle_next hr hs hpc with ⟨hpc', hpid, hcool, -⟩
    have hafter : (s'.shared.swips v.swip).state = .evicted t.pid := by
      rw [hpc, Shared.step] at hstep
      dsimp only [Shared.stepEvict] at hstep
      rw [show (s.shared.swips v.swip).tryUnswizzle t.resident t.pid =
        some { s.shared.swips v.swip with state := .evicted t.pid } from
          SwipInner.compareExchange_eq_some.mpr ⟨hcool, rfl⟩] at hstep
      have hshared : s.shared.setSwip v.swip { s.shared.swips v.swip with
          state := .evicted t.pid } = s'.shared := congrArg Prod.fst (Option.some.inj hstep)
      have hcell : s'.shared.swips v.swip =
          { s.shared.swips v.swip with state := .evicted t.pid } := by
        rw [← hshared]
        exact update_self ..
      exact congrArg SwipInner.state hcell
    have hbound : s.shared.store.Bound cfg v.swip := by
      have hres : (s.shared.swips v.swip).state.resident = some t.resident := by
        rw [hcool]
        rfl
      rcases hi.cells.resident _ _ hres with ⟨j, -, hocc⟩
      exact hocc.bound
    refine ⟨fun w hw hwp => ?_, fun a f m hfill hindex hfp => ?_⟩
    · have hi' := inv_reachable (hr.next hs)
      have hlt := hi.bound_lt hbound
      have hwv : w = v.swip := by
        refine hi'.cells.canonical w v.swip (hi'.cells.occupies hw).bound ?_ ?_
        · exact (cell_keeps hstep hlt).2.trans hbound
        · exact hwp.trans (hp.symm.trans (hpid.symm.trans (cell_keeps hstep hlt).1.symm))
      rw [hwv] at hw
      exact hw.not_evicted hafter
    · have ha : a ≠ l.1 := by
        rintro rfl
        cases hfill.symm.trans hpc'
      rw [hothers a ha] at hfill
      have hres : s.shared.store.Resides cfg v.swip t.frameIndex := by
        refine (congrArg SwipState.resident hcool).trans ?_
        have htickets := (unswizzle_next hr hs hpc).2.2.2
        exact congrArg some htickets.2.symm
      have hwarrant : (s.roles cfg a).warrant = f.ctx.warrant := by
        rw [role_at hfill]
        rfl
      exact hi.filler_evicted hwarrant hres (hpid.trans (hp.trans hfp.symm))

theorem departed_reachable (hr : ReachableVia (pool cfg) (Undisturbed cfg) s) : Departed cfg s := by
  refine reachableVia_invariant ?_ (fun s l s' hr hd hu hs => ?_) hr
  · rintro s ⟨budgets, rfl⟩
    exact nofun
  · exact hd.step (reachable_of_via hr) hu hs

/-- A prefetch records its marker where there is none. -/
theorem marker_inserts (hr : Reachable (pool cfg) s) (hu : Undisturbed cfg s l) {f : Filling} {g : Nat}
    (hpc : s.pcs l.1 = .fill f (.mark g)) : s.shared.prefetched f.pid = none := by
  have hi := inv_reachable hr
  have hwarrant : (s.roles cfg l.1).warrant = f.ctx.warrant := by
    rw [role_at hpc]
    rfl
  by_contra hsome
  rcases Option.ne_none_iff_exists'.mp hsome with ⟨m, hm⟩
  rcases marked_reachable hr _ _ hm with ⟨i, -, hat⟩
  cases hat with
  | resident hres hp => exact hi.filler_evicted hwarrant hres hp
  | @leaving b k t v hb _ hp =>
      have hne : b ≠ l.1 := by
        rintro rfl
        cases hpc.symm.trans hb
      exact (hu b k t v hne hb).1 f g hpc hp.symm
  | @arriving b f' m' hb _ hp =>
      have hwarrant' : (s.roles cfg b).warrant = f'.ctx.warrant := by
        rw [role_at hb]
        rfl
      have hab := hi.filler_sole hwarrant' hwarrant hp
      subst hab
      cases hpc.symm.trans hb

/-- The marker a fix finds is that of the frame it has pinned. -/
theorem marker_fixed (hr : Reachable (pool cfg) s) (hu : Undisturbed cfg s l) {k : FixCtx} {j g : Nat}
    {m : PrefetchMarker} (hpc : s.pcs l.1 = .fix k (.consume j g))
    (hm : s.shared.prefetched k.pid = some m) : m = ⟨cfg.residentAddr j, g⟩ := by
  have hi := inv_reachable hr
  have hstamp := stamped_reachable hr l.1
  rw [hpc] at hstamp
  have hgen : s.shared.generation j = g := hstamp j g rfl
  have hsound := hi.sound l.1
  rw [role_at hpc] at hsound
  have hres : s.shared.store.Resides cfg k.swip j := hsound.tenure
  have hpid : (s.shared.swips k.swip).pid = k.pid := hsound.warrant.2
  rcases marked_reachable hr _ _ hm with ⟨i, hmi, hat⟩
  cases hat with
  | @resident w hresw hp =>
      have hw : w = k.swip := by
        refine hi.cells.canonical w k.swip (hi.cells.occupies hresw).bound ?_ ?_
        · exact (hi.cells.occupies hres).bound
        · exact hp.trans hpid.symm
      rw [hw] at hresw
      have hij : i = j := cfg.residentAddr_inj (Option.some.inj (hresw.symm.trans hres))
      rw [hmi, hij, PoolState.markerOf, hgen]
  | @leaving b k' t v hb hindex hp =>
      have hne : b ≠ l.1 := by
        rintro rfl
        cases hpc.symm.trans hb
      refine ((hu b k' t v hne hb).2 ?_ ?_).elim
      · rw [hpc, hp]
        rfl
      · rw [hp, hindex, ← hmi]
        exact hm
  | @arriving b f m' hb _ hp =>
      have hwarrant : (s.roles cfg b).warrant = f.ctx.warrant := by
        rw [role_at hb]
        rfl
      exact (hi.filler_evicted hwarrant hres (hpid.trans hp.symm)).elim

/-- The marker an evictor removes is that of the occupant it has evicted. -/
theorem marker_evicted (hr : ReachableVia (pool cfg) (Undisturbed cfg) s) (hu : Undisturbed cfg s l)
    {k : EvictCtx} {t : CoolingTicket} {v : Eviction} {m : PrefetchMarker}
    (hpc : s.pcs l.1 = .evict k t (.consume v)) (hm : s.shared.prefetched t.pid = some m) :
    m = ⟨t.resident, t.generation⟩ := by
  have hreach := reachable_of_via hr
  have hstamp := stamped_reachable hreach l.1
  rw [hpc] at hstamp
  have hgen : s.shared.generation t.frameIndex = t.generation := hstamp _ _ rfl
  have hsound := (inv_reachable hreach).sound l.1
  rw [role_at hpc] at hsound
  have htickets : cfg.Tickets t := hsound.checked
  rcases marked_reachable hreach _ _ hm with ⟨i, hmi, hat⟩
  have hdeparted := departed_reachable hr t.pid i (by rw [← hmi]; exact hm) ⟨l.1, k, t, v, hpc, rfl⟩
  cases hat with
  | resident hres hp => exact (hdeparted.1 _ hres hp).elim
  | @leaving b k' t' v' hb hindex hp =>
      have hbl : b = l.1 := by
        by_contra hne
        refine (hu b k' t' v' hne hb).2 ?_ ?_
        · rw [hpc, hp]
          rfl
        · rw [hp, hindex, ← hmi]
          exact hm
      rw [hbl, hpc] at hb
      cases hb
      rw [hmi, ← hindex, PoolState.markerOf, htickets.2, hgen]
  | arriving hb hindex hp => exact (hdeparted.2 _ _ _ hb hindex hp).elim

/-- In a run of undisturbed steps every step keeps the markers exact. -/
theorem marker_exact (hr : ReachableVia (pool cfg) (Undisturbed cfg) s) (hu : Undisturbed cfg s l)
    (hs : (pool cfg).next s l = some s') : MarkerExact cfg s l s' := by
  have hreach := reachable_of_via hr
  refine ⟨fun f g hpc => marker_inserts hreach hu hpc, fun p m hm hgone => ?_⟩
  rcases pool_next hs with ⟨hstep, -⟩
  have hw : Field.Writer (s.pcs l.1) .prefetched := by
    by_contra hw
    have hsame : s'.shared.prefetched = s.shared.prefetched := step_same (f := .prefetched) hstep hw
    rw [hsame] at hgone
    exact hgone hm
  -- a step writes the marker of one page only
  have hpage : ∀ q x, update s.shared.prefetched q x = s'.shared.prefetched → q = p := by
    intro q x hafter
    by_contra hne
    rw [← hafter, update_of_ne (Ne.symm hne)] at hgone
    exact hgone hm
  rcases hw with ⟨k, j, g, hpc⟩ | ⟨f, g, hpc⟩ | ⟨f, m', hpc⟩ | ⟨k, t, v, hpc⟩
  · rw [hpc] at hstep
    have hp : k.pid = p :=
      hpage _ _ (congrArg (fun r => r.1.prefetched) (Option.some.inj hstep))
    rw [← hp] at hm
    exact .inl ⟨k, j, g, hpc, hp, marker_fixed hreach hu hpc hm⟩
  · rw [hpc] at hstep
    have hp : f.pid = p :=
      hpage _ _ (congrArg (fun r => r.1.prefetched) (Option.some.inj hstep))
    rw [← hp, marker_inserts hreach hu hpc] at hm
    cases hm
  · exact (absurd_role hreach hpc rfl).elim
  · rw [hpc] at hstep
    have hp : t.pid = p :=
      hpage _ _ (congrArg (fun r => r.1.prefetched) (Option.some.inj hstep))
    rw [← hp] at hm
    exact .inr (.inl ⟨k, t, v, hpc, hp, marker_evicted hr hu hpc hm⟩)

/-! ### Runs -/

/-- A manager of three frames that evicts below its watermark. -/
def watermarkConfig : Config :=
  { sampleConfig with frameCount := 3, evictionMode := .watermark, frames_pos := by decide }

/-- Agent `a` allocates a page and drops its guard. -/
def allocateAndDrop (a : Agent) : List (Agent × Choice) :=
  runOf a .allocate 28 ++ List.replicate 2 (a, { act := .drop })

/-- Agent `a` starts `call` and takes `n` steps in all, with the cooler
    looking at frame `i`. -/
def cooling (a : Agent) (call : Call) (i n : Nat) : List (Agent × Choice) :=
  List.replicate n (a, { call := call, pick := some 0, offset := i })

/-- The three frames are filled and page `0` is evicted. -/
def evicting : List (Agent × Choice) :=
  allocateAndDrop 0 ++ allocateAndDrop 1 ++ allocateAndDrop 2 ++ cooling 3 .cooler 0 70

/-- A prefetch of page `0` is about to record its marker. -/
def prefetching : List (Agent × Choice) :=
  evicting ++ cooling 4 (.prefetch 0) 0 33

/-- Then page `0` is evicted up to the removal of its marker, page `1` is
    evicted, and another prefetch of page `0` is about to record its marker. -/
def overtaking : List (Agent × Choice) :=
  prefetching ++ cooling 4 (.prefetch 0) 0 7 ++ cooling 5 .cooler 0 53 ++ cooling 6 .cooler 1 70 ++
    cooling 7 (.prefetch 0) 0 33

/-- An agent between the unswizzle of a page and the removal of its marker. -/
def Pc.leaves : Pc → Bool
  | .evict _ _ (.consume _) => true
  | _ => false

/-- Agents below `n` take their steps while no other agent is in the window. -/
def Ordered (n : Nat) (s : PoolState) (l : Agent × Choice) : Prop :=
  l.1 < n ∧ ∀ b, b < n → b ≠ l.1 → (s.pcs b).leaves = false

instance (n : Nat) (s : PoolState) (l : Agent × Choice) : Decidable (Ordered n s l) :=
  inferInstanceAs (Decidable (_ ∧ _))

theorem Ordered.undisturbed {n : Nat} (ho : Ordered n s l) (hidle : ∀ b, n ≤ b → s.pcs b = .idle) :
    Undisturbed cfg s l := by
  intro b k t v hb hpc
  by_cases hlt : b < n
  · have hleaves := ho.2 b hlt hb
    rw [hpc] at hleaves
    cases hleaves
  · cases (hidle b (Nat.le_of_not_lt hlt)).symm.trans hpc

theorem undisturbed_of_ordered {n : Nat} (hr : ReachableVia (pool cfg) (Ordered n) s) :
    ReachableVia (pool cfg) (Undisturbed cfg) s ∧ ∀ b, n ≤ b → s.pcs b = .idle := by
  refine ⟨?_, fun b hb => idle_above (hr.mono (fun _ _ ho => ho.1)) hb⟩
  induction hr with
  | init hi => exact .init hi
  | @step s s' l hr ho hs ih =>
      refine .step ih (ho.undisturbed (fun b hb => ?_)) hs
      exact idle_above (hr.mono (fun _ _ ho => ho.1)) hb

theorem marker_exact_prefetching : ∃ s s', Reachable (pool watermarkConfig) s ∧
    (pool watermarkConfig).next s (4, {}) = some s' ∧ s'.shared.prefetched 0 = some ⟨64, 2⟩ ∧
    MarkerExact watermarkConfig s (4, {}) s' := by
  have hrun : (execVia (pool watermarkConfig) (Ordered 5)
      (PoolState.initial watermarkConfig (fun _ => none)) prefetching).bind (fun s =>
        if Ordered 5 s (4, {}) then ((pool watermarkConfig).next s (4, {})).map (fun s' =>
          s'.shared.prefetched 0) else none) = some (some ⟨64, 2⟩) := by decide +kernel
  rcases Option.bind_eq_some_iff.mp hrun with ⟨s, hs, hrest⟩
  split at hrest
  · rename_i ho
    rcases Option.map_eq_some_iff.mp hrest with ⟨s', hnext, hmap⟩
    have hvia : ReachableVia (pool watermarkConfig) (Ordered 5) s :=
      reachableVia_exec _ _ s (ReachableVia.init ⟨_, rfl⟩) hs
    rcases undisturbed_of_ordered hvia with ⟨hr, hidle⟩
    exact ⟨s, s', reachable_of_via hr, hnext, hmap, marker_exact hr (ho.undisturbed hidle) hnext⟩
  · cases hrest

/-- The page that a fill is about to mark. -/
def Pc.markingPid : Pc → Option PageId
  | .fill f (.mark _) => some f.pid
  | _ => none

/-- The frame whose marker an eviction is about to consume. -/
def Pc.consumingResident : Pc → Option ResidentAddr
  | .evict _ t (.consume _) => some t.resident
  | _ => none

/-- The second prefetch finds a marker and replaces it, and the evictor of the
    earlier occupant then removes that of the later one. -/
theorem marker_exact_fails : ∃ s s' s'', Reachable (pool watermarkConfig) s ∧
    (pool watermarkConfig).next s (7, {}) = some s' ∧
    (pool watermarkConfig).next s' (5, {}) = some s'' ∧
    ¬ MarkerExact watermarkConfig s (7, {}) s' ∧ ¬ MarkerExact watermarkConfig s' (5, {}) s'' := by
  have hrun : (exec (pool watermarkConfig) (PoolState.initial watermarkConfig (fun _ => none))
      overtaking).bind (fun s => ((pool watermarkConfig).next s (7, {})).bind (fun s' =>
        ((pool watermarkConfig).next s' (5, {})).map (fun s'' =>
          (((s.pcs 7).markingPid.bind s.shared.prefetched).isSome, (s'.pcs 5).consumingResident,
          s'.shared.prefetched 0, s''.shared.prefetched 0)))) =
      some (true, some 64, some ⟨128, 2⟩, none) := by decide +kernel
  rcases Option.bind_eq_some_iff.mp hrun with ⟨s, hs, hrest⟩
  rcases Option.bind_eq_some_iff.mp hrest with ⟨s', hmark, hrest⟩
  rcases Option.map_eq_some_iff.mp hrest with ⟨s'', hremove, hsees⟩
  simp only [Prod.mk.injEq] at hsees
  rcases hsees with ⟨hmarking, hresident, hbefore, hafter⟩
  refine ⟨s, s', s'', reachable_of_run hs, hmark, hremove, fun h => ?_, fun h => ?_⟩
  · unfold Pc.markingPid at hmarking
    split at hmarking
    · rename_i f g hpc
      rw [Option.bind_some, h.inserts f g hpc] at hmarking
      cases hmarking
    · cases hmarking
  · have hgone : s''.shared.prefetched 0 ≠ some ⟨128, 2⟩ := by
      rw [hafter]
      rintro ⟨⟩
    rcases h.removes 0 _ hbefore hgone with ⟨k, i, g, hpc, -⟩ | ⟨k, t, v, hpc, -, hm⟩ | ⟨f, hpc, -⟩
    · rw [hpc] at hresident
      cases hresident
    · rw [hpc] at hresident
      have hframe : t.resident = 64 := Option.some.inj hresident
      have hother : 128 = t.resident := congrArg PrefetchMarker.resident hm
      exact absurd (hother.trans hframe) (by decide)
    · rw [hpc] at hresident
      cases hresident

end TierBuf
