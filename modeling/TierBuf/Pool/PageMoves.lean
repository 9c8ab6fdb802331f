import TierBuf.Pool.Moves

/-!
# Moves of Pages

The moves that change the store: what frames, Swips, the directory, the page
table and the tier slots hold.

For the agent that moves its new role is known to be sound. What is proved here
is that the exclusions between its hold and those of the others are the ones
that interference needs.

## Theorems

* `Inv.scribble`: An owner writes to its frame.
* `Inv.soil`, `Inv.rewrite`: A guard sets the dirty flag and writes the page.
* `Inv.writeBack`, `Inv.publish`, `Inv.clean`, `Inv.unswizzle`, `Inv.free`: An
  evictor writes a page back and gives up its frame and its old slot.
* `Inv.swizzle`, `Inv.list`: A page becomes resident and is listed.
* `Inv.recolor`: A word moves between `Hot` and `Cooling`.
* `Inv.mint`, `Inv.born`: A new identifier and a new cell.
* `Inv.stop`, `Inv.join`: The manager stops and joins its workers.
-/

namespace TierBuf

open Function Ledger

variable {cfg : Config} {sh sh' : Shared} {R R' : Agent → Role} {a : Agent} {r r' : Role}
  {pc : Pc} {i : Nat} {s : SwipId} {p : PageId} {loc : Location}

/-! ### Exclusions -/

/-- Another agent does not own this agent's frame. -/
theorem Inv.own_ne (h : Inv cfg sh R) (ho : (R a).tenure.own = some i) {b : Agent} (hb : b ≠ a) :
    (R b).tenure.own ≠ some i :=
  fun hc => hb (h.places.owner b a i hc ho)

/-- The residence of a page is nobody's own. -/
theorem Inv.own_ne_of_resides (h : Inv cfg sh R) (hs : sh.store.Resides cfg s i) (b : Agent) :
    (R b).tenure.own ≠ some i :=
  fun hc => (h.places.owned b i hc).2.2 s hs

/-- Another agent has not reserved this agent's reserved frame. -/
theorem Inv.reservation_ne (h : Inv cfg sh R) (hr : (R a).tenure.reservation = some i) {b : Agent}
    (hb : b ≠ a) : (R b).tenure.reservation ≠ some i :=
  fun hc => hb (h.pins.reserver hc hr)

/-- Nobody has pinned a reserved frame. -/
theorem Inv.pin_ne (h : Inv cfg sh R) (hr : (R a).tenure.reservation = some i) (b : Agent) :
    (R b).tenure.pin ≠ some i :=
  fun hc => h.pins.unreserved_of_pin hc hr

/-! ### An owner writes to its frame -/

/-- A step that leaves the tiers alone. -/
theorem Inv.storage_keep {st : Store} (h : Inv cfg sh R) (m : Change R R' a r r')
    (hs : SameSlot r r') (hd : st.disk = sh.store.disk) : Storage cfg st R' :=
  (h.storage.keep m hs.slot hs.pending).of_eq hd

theorem Inv.scribble {data : Nat → Page} {pid : Nat → PageId} {owner : Nat → Option SwipId}
    {dirty : Nat → Bool} (h : Inv cfg sh R) (hR : R a = r) (ho : r.tenure.own = some i)
    (hsound : Sound cfg
      { sh.store with data := data, pid := pid, ownerSwip := owner, dirty := dirty } (pc.role cfg))
    (hout : ∀ j, j ≠ i →
      (data j, pid j, owner j, dirty j) = (sh.data j, sh.pid j, sh.ownerSwip j, sh.dirty j))
    (hhold : SameHold r (pc.role cfg)) (hrest : SameRest r (pc.role cfg)) :
    Keeps cfg R a
      (some ({ sh with data := data, pid := pid, ownerSwip := owner, dirty := dirty }, pc)) := by
  have m := Change.to hR (pc.role cfg)
  have hown : (R a).tenure.own = some i := by rw [hR, ho]
  have hfree : ∀ s, ¬ sh.store.Resides cfg s i := (h.places.owned a i hown).2.2
  have hd : ∀ j, j ≠ i → data j = sh.data j := fun j hj => congrArg Prod.fst (hout j hj)
  have hp : ∀ j, j ≠ i → pid j = sh.pid j := fun j hj => congrArg (fun x => x.2.1) (hout j hj)
  have hs : ∀ j, j ≠ i → owner j = sh.ownerSwip j :=
    fun j hj => congrArg (fun x => x.2.2.1) (hout j hj)
  have hy : ∀ j, j ≠ i → dirty j = sh.dirty j :=
    fun j hj => congrArg (fun x => x.2.2.2) (hout j hj)
  exact .some (h.withStore m rfl hhold.toSamePin hhold.toSameLatch hrest.toSamePost hhold.toSamePlace.flag
    hrest.toSameWarrant.lead (m.minter h.minter hrest.toSameWarrant.mint) (h.places.keep m hhold.toSamePlace.own)
    (h.cells.scribble hfree hd hp hs hy)
    (h.storage_keep m hrest.toSameSlot rfl) hsound
    (fun b hb => (h.sound b).scribble (h.own_ne hown hb) hfree hd hp hs hy))

/-! ### A guard writes -/

theorem Inv.soil (h : Inv cfg sh R) (hR : R a = r)
    (hsound : Sound cfg { sh.store with dirty := update sh.dirty i true } (pc.role cfg))
    (hhold : SameHold r (pc.role cfg)) (hrest : SameRest r (pc.role cfg)) :
    Keeps cfg R a (some ({ sh with dirty := update sh.dirty i true }, pc)) := by
  have m := Change.to hR (pc.role cfg)
  exact .some (h.withStore m rfl hhold.toSamePin hhold.toSameLatch hrest.toSamePost hhold.toSamePlace.flag
    hrest.toSameWarrant.lead (m.minter h.minter hrest.toSameWarrant.mint) (h.places.keep m hhold.toSamePlace.own) h.cells.soil
    (h.storage_keep m hrest.toSameSlot rfl) hsound
    (fun b _ => (h.sound b).soil))

theorem Inv.rewrite {page : Page} (h : Inv cfg sh R) (hR : R a = r)
    (hpin : r.tenure.pin = some i) (hs : sh.store.Resides cfg s i) (hp : (sh.swips s).pid = p)
    (hdirty : sh.dirty i = true)
    (hsound : Sound cfg
      { sh.store with data := update sh.data i page, latest := update sh.latest p page }
      (pc.role cfg))
    (hhold : SameHold r (pc.role cfg)) (hrest : SameRest r (pc.role cfg)) :
    Keeps cfg R a (some ({ sh with
      data := update sh.data i page
      latest := update sh.latest p page }, pc)) := by
  have m := Change.to hR (pc.role cfg)
  have hborn : p < sh.nextPid := hp ▸ h.cells.minted s (h.cells.occupies hs).bound
  have hres : ∀ b, (R b).tenure.reservation ≠ some i := fun b =>
    h.pins.unreserved_of_pin (b := a) (by rw [hR, hpin])
  exact .some (h.withStore m rfl hhold.toSamePin hhold.toSameLatch hrest.toSamePost hhold.toSamePlace.flag
    hrest.toSameWarrant.lead (m.minter h.minter hrest.toSameWarrant.mint) (h.places.keep m hhold.toSamePlace.own)
    (h.cells.rewrite hs hp hdirty) ((h.storage.keep m hrest.toSameSlot.slot hrest.toSameSlot.pending).rewrite hborn)
    hsound (fun b _ => (h.sound b).rewrite h.cells hs hp (hres b) (h.own_ne_of_resides hs b)))

/-! ### An evictor writes back -/

theorem Inv.writeBack (h : Inv cfg sh R) (hR : R a = r) {page : Page}
    (hfree : sh.slots loc = none) (htier : loc.tierIndex < cfg.tiers.length)
    (hsound : Sound cfg { sh.store with
      slots := update sh.slots loc (some page)
      writtenBack := update sh.writtenBack p true } (pc.role cfg))
    (ht : r.storage = (none, none)) (ht' : (pc.role cfg).storage = (some loc, some p))
    (hhold : SameHold r (pc.role cfg)) (hwarrant : SameWarrant r (pc.role cfg))
    (hpost : SamePost r (pc.role cfg)) :
    Keeps cfg R a (some ({ sh with
      slots := update sh.slots loc (some page)
      writtenBack := update sh.writtenBack p true }, pc)) := by
  have m := Change.to hR (pc.role cfg)
  exact .some (h.withStore m rfl hhold.toSamePin hhold.toSameLatch hpost hhold.toSamePlace.flag hwarrant.lead
    (m.minter h.minter hwarrant.mint) (h.places.keep m hhold.toSamePlace.own) (h.cells.writeBack hfree)
    (h.storage.writeBack m hfree htier (congrArg Prod.fst ht) (congrArg Prod.fst ht')
      (congrArg Prod.snd ht) (congrArg Prod.snd ht')) hsound
    (fun b _ => (h.sound b).writeBack hfree))

theorem Inv.publish (h : Inv cfg sh R) (hR : R a = r) {old : Option Location}
    (hr : r.tenure.reservation = some i) (hs : sh.pages p = some s)
    (hc : (sh.swips s).state = .cooling (cfg.residentAddr i)) (hold : sh.directory p = old)
    (hnew : sh.slots loc = some (sh.latest p))
    (hsound : Sound cfg { sh.store with directory := update sh.directory p (some loc) }
      (pc.role cfg))
    (ht : r.storage = (some loc, some p)) (ht' : (pc.role cfg).storage = (old, none))
    (hhold : SameHold r (pc.role cfg)) (hwarrant : SameWarrant r (pc.role cfg))
    (hpost : SamePost r (pc.role cfg)) :
    Keeps cfg R a (some ({ sh with directory := update sh.directory p (some loc) }, pc)) := by
  have m := Change.to hR (pc.role cfg)
  have hlisted := h.cells.listed p s hs
  have hborn : p < sh.nextPid := hlisted.2 ▸ h.cells.minted s hlisted.1
  have hres : (R a).tenure.reservation = some i := by rw [hR, hr]
  exact .some (h.withStore m rfl hhold.toSamePin hhold.toSameLatch hpost hhold.toSamePlace.flag hwarrant.lead
    (m.minter h.minter hwarrant.mint) (h.places.keep m hhold.toSamePlace.own) (h.cells.publish hnew)
    (h.storage.publish m hold (congrArg Prod.fst ht) (congrArg Prod.fst ht') (congrArg Prod.snd ht)
      (congrArg Prod.snd ht') hborn) hsound
    (fun b hb => (h.sound b).publish hs hc (h.reservation_ne hres hb)))

theorem Inv.clean (h : Inv cfg sh R) (hR : R a = r) (hr : r.tenure.reservation = some i)
    (hs : sh.store.Resides cfg s i) (hb : sh.store.Backed (sh.swips s).pid)
    (hsound : Sound cfg { sh.store with dirty := update sh.dirty i false } (pc.role cfg))
    (hhold : SameHold r (pc.role cfg)) (hrest : SameRest r (pc.role cfg)) :
    Keeps cfg R a (some ({ sh with dirty := update sh.dirty i false }, pc)) := by
  have m := Change.to hR (pc.role cfg)
  have hres : (R a).tenure.reservation = some i := by rw [hR, hr]
  exact .some (h.withStore m rfl hhold.toSamePin hhold.toSameLatch hrest.toSamePost hhold.toSamePlace.flag
    hrest.toSameWarrant.lead (m.minter h.minter hrest.toSameWarrant.mint) (h.places.keep m hhold.toSamePlace.own) (h.cells.clean hs hb)
    (h.storage_keep m hrest.toSameSlot rfl) hsound
    (fun b _ => (h.sound b).clean (h.pin_ne hres b) (h.own_ne_of_resides hs b)))

theorem Inv.free (h : Inv cfg sh R) (hR : R a = r)
    (hsound : Sound cfg { sh.store with slots := update sh.slots loc none } (pc.role cfg))
    {v : Option PageId} (ht : r.storage = (some loc, v)) (ht' : (pc.role cfg).storage = (none, v))
    (hhold : SameHold r (pc.role cfg)) (hwarrant : SameWarrant r (pc.role cfg))
    (hpost : SamePost r (pc.role cfg)) :
    Keeps cfg R a (some (sh.freeSlot loc, pc)) := by
  have m := Change.to hR (pc.role cfg)
  have hl : r.slot = some loc := congrArg Prod.fst ht
  have hslot : (R a).slot = some loc := by rw [hR, hl]
  have hfree := (h.storage.held a loc hslot).2.2
  exact .some (h.withStore m rfl hhold.toSamePin hhold.toSameLatch hpost hhold.toSamePlace.flag hwarrant.lead
    (m.minter h.minter hwarrant.mint) (h.places.keep m hhold.toSamePlace.own) (h.cells.free hfree)
    (h.storage.free m hl (congrArg Prod.fst ht')
      ((congrArg Prod.snd ht').trans (congrArg Prod.snd ht).symm)) hsound
    (fun b hb => (h.sound b).free hfree (fun hc => hb (h.storage.holder b a loc hc hslot))))

/-! ### A word changes -/

theorem resident_setSwip (x : SwipState) :
    ((sh.setSwip s { sh.swips s with state := x }).swips s).state.resident = x.resident := by
  have hself : ((sh.store.setState s x).swips s).state = x := setState_self
  exact congrArg SwipState.resident hself

theorem resident_setSwip_other (x : SwipState) (s' : SwipId) (hs : s' ≠ s) :
    ((sh.setSwip s { sh.swips s with state := x }).swips s').state.resident =
      (sh.swips s').state.resident := by
  have hother : ((sh.store.setState s x).swips s').state = (sh.swips s').state := setState_other hs
  exact congrArg SwipState.resident hother

theorem Inv.recolor {x : SwipState} (h : Inv cfg sh R) (hR : R a = r)
    (hx : x.resident = (sh.swips s).state.resident) (hs : sh.store.Resides cfg s i)
    (hvic : ∀ b, b ≠ a → (sh.swips s).state = .cooling (cfg.residentAddr i) →
      (R b).tenure.reservation ≠ some i)
    (hsound : Sound cfg (sh.store.setState s x) (pc.role cfg))
    (hhold : SameHold r (pc.role cfg)) (hrest : SameRest r (pc.role cfg)) :
    Keeps cfg R a (some (sh.setSwip s { sh.swips s with state := x }, pc)) := by
  have m := Change.to hR (pc.role cfg)
  refine .some (h.withStore m rfl hhold.toSamePin hhold.toSameLatch hrest.toSamePost hhold.toSamePlace.flag
    hrest.toSameWarrant.lead (m.minter h.minter hrest.toSameWarrant.mint) ((h.places.keep m hhold.toSamePlace.own).congr (fun s' => ?_))
    (h.cells.recolor hx hs) (h.storage_keep m hrest.toSameSlot rfl) hsound
    (fun b hb => (h.sound b).recolor hx hs (hvic b hb)))
  by_cases hss : s' = s
  · rw [hss, resident_setSwip, hx]
  · exact resident_setSwip_other x s' hss

theorem Inv.unswizzle (h : Inv cfg sh R) (hR : R a = r) (hr : r.tenure.reservation = some i)
    (hs : sh.pages p = some s) (hc : (sh.swips s).state = .cooling (cfg.residentAddr i))
    (hb : sh.store.Backed p)
    (hsound : Sound cfg (sh.store.setState s (.evicted p)) (pc.role cfg))
    {v : Option Nat} (ht : r.places = (none, v)) (ht' : (pc.role cfg).places = (some i, v))
    (hpin : SamePin r (pc.role cfg)) (hlatch : SameLatch r (pc.role cfg))
    (hrest : SameRest r (pc.role cfg)) :
    Keeps cfg R a (some (sh.setSwip s { sh.swips s with state := .evicted p }, pc)) := by
  have m := Change.to hR (pc.role cfg)
  have hres : (R a).tenure.reservation = some i := by rw [hR, hr]
  have hresides : sh.store.Resides cfg s i := congrArg SwipState.resident hc
  have hf : (pc.role cfg).tenure.flag = r.tenure.flag :=
    (congrArg Prod.snd ht').trans (congrArg Prod.snd ht).symm
  refine .some (h.withStore m rfl hpin hlatch hrest.toSamePost hf hrest.toSameWarrant.lead
    (m.minter h.minter hrest.toSameWarrant.mint) ?_ (h.cells.unswizzle hs hb)
    (h.storage_keep m hrest.toSameSlot rfl) hsound
    (fun b hb => (h.sound b).unswizzle hresides (h.pin_ne hres b) (h.reservation_ne hres hb)))
  exact h.places.vacate m (h.cells.occupies hresides).index (congrArg Prod.fst ht)
    (congrArg Prod.fst ht') hresides
    (resident_setSwip _) (fun s' hs' => h.cells.resident_unique hs' hresides)
    (resident_setSwip_other _)

/-- A page has one leader, or one maker. -/
theorem Inv.claim_sole (h : Inv cfg sh R)
    (ha : (R a).warrant.lead = some p ∨ (R a).warrant.mint = some p) {b : Agent} (hb : b ≠ a) :
    (R b).warrant.lead ≠ some p ∧ (R b).warrant.mint ≠ some p := by
  rcases ha with ha | ha
  · refine ⟨fun hc => hb (h.leads.leader b a p hc ha), fun hc => ?_⟩
    exact absurd ((h.sound b).warrant.unlisted_of_mint hc) ((h.sound a).warrant.listed_of_lead ha)
  · refine ⟨fun hc => ?_, fun hc => hb (h.minter b a p hc ha)⟩
    exact absurd ((h.sound a).warrant.unlisted_of_mint ha) ((h.sound b).warrant.listed_of_lead hc)

theorem Inv.swizzle (h : Inv cfg sh R) (hR : R a = r)
    (hocc : sh.store.Occupies cfg s i) (hs : (sh.swips s).state = .evicted p)
    (hclaim : r.warrant.lead = some p ∨ r.warrant.mint = some p)
    (hact : r.post.active = true)
    (hsound : Sound cfg (sh.store.setState s (.hot (cfg.residentAddr i))) (pc.role cfg))
    {v : Option Nat} (ht : r.places = (some i, v)) (ht' : (pc.role cfg).places = (none, v))
    (hpin : SamePin r (pc.role cfg)) (hlatch : SameLatch r (pc.role cfg))
    (hrest : SameRest r (pc.role cfg)) :
    Keeps cfg R a
      (some (sh.setSwip s { sh.swips s with state := .hot (cfg.residentAddr i) }, pc)) := by
  have m := Change.to hR (pc.role cfg)
  have hf : (pc.role cfg).tenure.flag = r.tenure.flag :=
    (congrArg Prod.snd ht').trans (congrArg Prod.snd ht).symm
  have hsole : ∀ b, b ≠ a → (R b).warrant.lead ≠ some p ∧ (R b).warrant.mint ≠ some p :=
    fun b hb => h.claim_sole (by rw [hR]; exact hclaim) hb
  have hopen : sh.joined = false := by
    cases hj : sh.joined with
    | false => rfl
    | true =>
        have hpost := (h.background.closed hj).2 a
        rw [hR, hact] at hpost
        exact absurd hpost nofun
  refine .some (h.withStore m rfl hpin hlatch hrest.toSamePost hf hrest.toSameWarrant.lead
    (m.minter h.minter hrest.toSameWarrant.mint) ?_
    (h.cells.swizzle hocc.bound hocc.index hocc.pid hocc.owner hocc.data hocc.clean)
    (h.storage_keep m hrest.toSameSlot rfl) hsound
    (fun b hb => (h.sound b).swizzle hs hopen (hsole b hb).1 (hsole b hb).2))
  exact h.places.settle m (congrArg Prod.fst ht) (congrArg Prod.fst ht') (resident_setSwip _) (by rw [hs]; rfl) (resident_setSwip_other _)

/-! ### New identifiers, new cells, new pages -/

theorem Inv.mint (h : Inv cfg sh R) (hR : R a = r) (hmax : sh.nextPid ≤ PageId.MAX)
    (hsound : Sound cfg { sh.store with nextPid := sh.nextPid + 1 } (pc.role cfg))
    (ht : (pc.role cfg).claims = (r.warrant.lead, some sh.nextPid))
    (hhold : SameHold r (pc.role cfg)) (hslot : SameSlot r (pc.role cfg))
    (hpost : SamePost r (pc.role cfg)) :
    Keeps cfg R a (some ({ sh with nextPid := sh.nextPid + 1 }, pc)) := by
  have m := Change.to hR (pc.role cfg)
  have hfresh : ∀ b, (R b).warrant.mint ≠ some sh.nextPid := fun b hb =>
    Nat.lt_irrefl _ ((h.sound b).warrant.mint_lt h.cells hb)
  exact .some (h.withStore m rfl hhold.toSamePin hhold.toSameLatch hpost hhold.toSamePlace.flag
    (congrArg Prod.fst ht)
    (h.minter.acquire (a := a) (fun b hb => by rw [m.others b hb])
      (by rw [m.after, show (pc.role cfg).warrant.mint = some sh.nextPid from congrArg Prod.snd ht])
      hfresh)
    (h.places.keep m hhold.toSamePlace.own) (h.cells.mint hmax)
    (h.storage.keep m hslot.slot hslot.pending).mint hsound (fun b _ => (h.sound b).mint))

/-- A new cell: of the manager for a page it has just minted, or of nobody. -/
theorem Inv.born {cell : SwipInner} (h : Inv cfg sh R) (hR : R a = r)
    (hev : cell.state = .evicted cell.pid)
    (hown : cell.ownerId = cfg.id → r.warrant = .minted cell.pid)
    (hsound : Sound cfg (sh.store.born cell) (pc.role cfg))
    (hhold : SameHold r (pc.role cfg)) (hrest : SameRest r (pc.role cfg)) :
    Keeps cfg R a (some ({ sh.setSwip sh.nextSwip cell with nextSwip := sh.nextSwip + 1 }, pc)) := by
  have m := Change.to hR (pc.role cfg)
  have hminted : cell.ownerId = cfg.id → (Warrant.minted cell.pid).Sound cfg sh.store := by
    intro hc
    have hw := (h.sound a).warrant
    rw [hR, hown hc] at hw
    exact hw
  have hresident : ∀ s', ((sh.store.born cell).swips s').state.resident =
      (sh.swips s').state.resident := by
    intro s'
    by_cases hs' : s' = sh.nextSwip
    · have hold : (sh.swips sh.nextSwip).state.resident = none := by
        cases hc : (sh.swips sh.nextSwip).state.resident with
        | none => rfl
        | some x =>
            rcases h.cells.resident _ x hc with ⟨j, -, hocc⟩
            exact absurd hocc.bound (h.cells.unborn _ le_rfl)
      have hself : (sh.store.born cell).swips sh.nextSwip = cell := born_self
      rw [hs', hold, hself, hev]
      rfl
    · have hother : (sh.store.born cell).swips s' = sh.swips s' := born_other hs'
      rw [hother]
  exact .some (h.withStore m rfl hhold.toSamePin hhold.toSameLatch hrest.toSamePost hhold.toSamePlace.flag
    hrest.toSameWarrant.lead (m.minter h.minter hrest.toSameWarrant.mint) ((h.places.keep m hhold.toSamePlace.own).congr hresident)
    (h.cells.born hev (fun hc => ⟨(hminted hc).1, (hminted hc).2.2.2.2⟩))
    (h.storage_keep m hrest.toSameSlot rfl) hsound
    (fun b hb => (h.sound b).born h.cells hev (fun hc hm => hb (h.minter b a _ hm
      (by simp only [hR, hown hc]; rfl)))))

theorem Inv.list (h : Inv cfg sh R) (hR : R a = r) (hb : (sh.store.Bound cfg s))
    (hp : (sh.swips s).pid = p) (hs : sh.store.Resides cfg s i) (hfree : sh.pages p = none)
    (hsound : Sound cfg { sh.store with pages := update sh.pages p (some s) } (pc.role cfg))
    {v : Option PageId} (ht : r.claims = (v, some p)) (ht' : (pc.role cfg).claims = (v, none))
    (hhold : SameHold r (pc.role cfg)) (hslot : SameSlot r (pc.role cfg))
    (hpost : SamePost r (pc.role cfg)) :
    Keeps cfg R a (some ({ sh with pages := update sh.pages p (some s) }, pc)) := by
  have m := Change.to hR (pc.role cfg)
  have hmint : r.warrant.mint = some p := congrArg Prod.snd ht
  have hmint' : (pc.role cfg).warrant.mint = none := congrArg Prod.snd ht'
  exact .some (h.withStore m rfl hhold.toSamePin hhold.toSameLatch hpost hhold.toSamePlace.flag
    ((congrArg Prod.fst ht').trans (congrArg Prod.fst ht).symm)
    (h.minter.release (a := a) (fun b hb => by rw [m.others b hb]) (by rw [m.after, hmint']))
    (h.places.keep m hhold.toSamePlace.own) (h.cells.list hb hp hs)
    (h.storage_keep m hslot rfl) hsound
    (fun b hb => (h.sound b).list hfree
      (fun hc => hb (h.minter b a p hc (by simp only [hR, hmint])))))

/-! ### Stopping -/

theorem Inv.stop (h : Inv cfg sh R) (hR : R a = r)
    (hsound : Sound cfg { sh.store with stopping := true } (pc.role cfg))
    (hhold : SameHold r (pc.role cfg)) (hrest : SameRest r (pc.role cfg)) :
    Keeps cfg R a (some ({ sh with stopping := true }, pc)) := by
  have m := Change.to hR (pc.role cfg)
  refine .some ⟨h.pins.keep m hhold.toSamePin.pin hhold.toSamePin.reservation,
    h.latches.keep m hhold.toSameLatch.shared hhold.toSameLatch.exclusive, h.gate.keep m hrest.toSamePost.gate hrest.toSamePost.writeGate,
    h.leads.keep m hrest.toSameWarrant.lead, ?_, m.minter h.minter hrest.toSameWarrant.mint, h.queue.keep m hhold.toSamePlace.flag,
    h.places.keep m hhold.toSamePlace.own, h.cells.halt,
    h.storage_keep m hrest.toSameSlot rfl,
    m.sound hsound (fun b _ => (h.sound b).halt (fun _ => rfl) (fun hj => hj))⟩
  exact (h.background.keep m hrest.toSamePost.inFlight hrest.toSamePost.background
    (fun hc => .inl (hrest.toSamePost.active hc))).stop

/-- Workers are joined under the write hold of the gate: with the last one gone
    nobody is left to make a page resident. -/
theorem Inv.join (h : Inv cfg sh R) (hR : R a = r) (hw : sh.workers = 0) (hstop : sh.stopping = true)
    (hgate : r.post.writeGate = some ())
    (hsound : Sound cfg { sh.store with joined := true } (pc.role cfg))
    (hact : (pc.role cfg).post.active = false)
    (hhold : SameHold r (pc.role cfg)) (hrest : SameRest r (pc.role cfg)) :
    Keeps cfg R a (some ({ sh with joined := true }, pc)) := by
  have m := Change.to hR (pc.role cfg)
  have hidle : ∀ b, (R b).post.active = false := by
    intro b
    have hnogate : (R b).post.gate ≠ some () := by
      intro hb
      exact (h.gate ()).excludes (b := a) hb (by rw [hR, hgate])
    have hnowork : (R b).post.background ≠ some () := by
      have hcount := h.background.workers
      rw [hw, Nat.cast_zero] at hcount
      exact tally_eq_zero.mp hcount b
    cases hc : (R b).post with
    | operating =>
        rw [hc] at hnogate
        exact absurd rfl hnogate
    | worker =>
        rw [hc] at hnowork
        exact absurd rfl hnowork
    | _ => rfl
  refine .some ⟨h.pins.keep m hhold.toSamePin.pin hhold.toSamePin.reservation,
    h.latches.keep m hhold.toSameLatch.shared hhold.toSameLatch.exclusive, h.gate.keep m hrest.toSamePost.gate hrest.toSamePost.writeGate,
    h.leads.keep m hrest.toSameWarrant.lead, ?_, m.minter h.minter hrest.toSameWarrant.mint, h.queue.keep m hhold.toSamePlace.flag,
    h.places.keep m hhold.toSamePlace.own, h.cells.halt,
    h.storage_keep m hrest.toSameSlot rfl,
    m.sound hsound (fun b _ => (h.sound b).halt (fun hs => hs) (fun _ => rfl))⟩
  have hback := h.background.keep m hrest.toSamePost.inFlight hrest.toSamePost.background
    (fun hc => .inl (hrest.toSamePost.active hc))
  refine ⟨hback.flights, hback.workers, fun _ => ⟨hstop, fun b => ?_⟩⟩
  by_cases hb : b = a
  · rw [hb, m.after, hact]
  · rw [m.others b hb]
    exact hidle b

end TierBuf
