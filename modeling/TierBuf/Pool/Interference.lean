import TierBuf.Pool.Ledgers

/-!
# Interference

How the pages themselves follow a step, and what it leaves to the others.

For every way a step can change the store there are up to three lemmas. One
says that `Cells` survives, one that `Storage` does, and one that whatever
another agent relies on still holds. The last is where the protocol earns its
keep: each of its hypotheses is one exclusion between what the moving agent
holds and what the other does.

## Theorems

* `Sound.of_parts`: Soundness by parts.
* `Cells.scribble`, `Sound.scribble`: An owner writes to its frame.
* `Cells.soil`, `Sound.soil`: A guard sets the dirty flag.
* `Cells.rewrite`, `Storage.rewrite`, `Sound.rewrite`: A guard writes a page.
* `Cells.clean`, `Sound.clean`: An evictor clears the dirty flag.
* `Cells.writeBack`, `Storage.writeBack`, `Sound.writeBack`: A tier accepts a
  page.
* `Cells.publish`, `Storage.publish`, `Sound.publish`: The directory is updated.
* `Cells.free`, `Storage.free`, `Sound.free`: A slot is freed.
* `Cells.unswizzle`, `Sound.unswizzle`: A page becomes evicted.
* `Cells.swizzle`, `Sound.swizzle`: A page becomes resident.
* `Cells.recolor`, `Sound.recolor`: A word moves between `Hot` and `Cooling`.
-/

namespace TierBuf

open Function Ledger

variable {cfg : Config} {st : Store} {R R' : Agent → Role} {a : Agent} {r r' : Role}

theorem Sound.of_parts {st' : Store} (h : Sound cfg st r)
    (ht : r.tenure.Sound cfg st → r.tenure.Sound cfg st')
    (hw : r.warrant.Sound cfg st → r.warrant.Sound cfg st')
    (hp : r.post.Sound cfg st → r.post.Sound cfg st') : Sound cfg st' r :=
  ⟨ht h.tenure, hw h.warrant, hp h.post, h.active, h.draft, h.slot, h.checked⟩

/-- What a warrant depends on. -/
theorem Warrant.Sound.of_eq {st' : Store} {w : Warrant} (h : w.Sound cfg st)
    (hs : st'.swips = st.swips) (hp : st'.pages = st.pages) (hd : st'.directory = st.directory)
    (hl : st'.latest = st.latest) (hn : st'.nextPid = st.nextPid) : w.Sound cfg st' := by
  cases w <;> simp only [Warrant.Sound, Store.Bound, hs, hp, hd, hl, hn] at h ⊢ <;> exact h

/-- What a post depends on. -/
theorem Post.Sound.of_eq {st' : Store} {p : Post} (h : p.Sound cfg st)
    (hs : st'.swips = st.swips) (hj : st'.joined = st.joined)
    (hx : st'.stopping = st.stopping) : p.Sound cfg st' := by
  cases p with
  | flushing n =>
      cases n <;> simp only [Post.Sound, Store.Swept, Store.Resides, hs, hj] at h ⊢ <;> exact h
  | _ => simp only [Post.Sound, Store.Swept, Store.Resides, hs, hj, hx] at h ⊢ <;> exact h

/-- What is on the tiers. -/
def Store.disk (st : Store) :=
  (st.directory, st.slots, st.latest, st.nextPid, st.writtenBack)

theorem Storage.of_eq {st' : Store} (h : Storage cfg st R) (hst : st'.disk = st.disk) :
    Storage cfg st' R := by
  have hd : st'.directory = st.directory := congrArg Prod.fst hst
  have hs : st'.slots = st.slots := congrArg (fun x => x.2.1) hst
  have hl : st'.latest = st.latest := congrArg (fun x => x.2.2.1) hst
  have hn : st'.nextPid = st.nextPid := congrArg (fun x => x.2.2.2.1) hst
  have hw : st'.writtenBack = st.writtenBack := congrArg (fun x => x.2.2.2.2) hst
  refine ⟨?_, ?_, ?_, h.holder, ?_, ?_, ?_⟩ <;> simp only [hd, hs, hl, hn, hw]
  · exact h.named
  · exact h.injective
  · exact h.unborn
  · exact h.held
  · exact h.covered
  · exact h.written

/-- A page has at most one residence. -/
theorem Store.Resides.unique {s : SwipId} {i j : Nat} (hi : st.Resides cfg s i)
    (hj : st.Resides cfg s j) : i = j := by
  unfold Store.Resides at hi hj
  rw [hi, Option.some.injEq] at hj
  exact cfg.residentAddr_inj hj

theorem Store.Resides.not_evicted {s : SwipId} {i : Nat} {q : PageId} (hs : st.Resides cfg s i) :
    (st.swips s).state ≠ .evicted q := by
  intro hc
  unfold Store.Resides at hs
  rw [hc] at hs
  exact absurd hs nofun

namespace Cells

/-- A frame is the residence of at most one page. -/
theorem resident_unique (h : Cells cfg st) {s s' : SwipId} {i : Nat} (hs : st.Resides cfg s i)
    (hs' : st.Resides cfg s' i) : s = s' := by
  rcases h.resident s _ hs with ⟨j, hj, ho⟩
  rcases h.resident s' _ hs' with ⟨j', hj', ho'⟩
  have hjj : j = j' := by
    rw [← cfg.residentAddr_inj hj, ← cfg.residentAddr_inj hj']
  have howner := ho.owner
  rw [hjj, ho'.owner, Option.some.injEq] at howner
  exact howner.symm

theorem occupies (h : Cells cfg st) {s : SwipId} {i : Nat} (hs : st.Resides cfg s i) : st.Occupies cfg s i := by
  rcases h.resident s _ hs with ⟨j, hj, ho⟩
  rw [cfg.residentAddr_inj hj]
  exact ho

end Cells

/-! ### An owner writes to its frame -/

section Scribble

variable {i : Nat} {data : Nat → Page} {pid : Nat → PageId} {owner : Nat → Option SwipId}
  {dirty : Nat → Bool}

theorem Cells.scribble (h : Cells cfg st) (hfree : ∀ s, ¬ st.Resides cfg s i)
    (hd : ∀ j, j ≠ i → data j = st.data j) (hp : ∀ j, j ≠ i → pid j = st.pid j)
    (ho : ∀ j, j ≠ i → owner j = st.ownerSwip j) (hy : ∀ j, j ≠ i → dirty j = st.dirty j) :
    Cells cfg { st with data := data, pid := pid, ownerSwip := owner, dirty := dirty } where
  unborn := h.unborn
  minted := h.minted
  canonical := h.canonical
  listed := h.listed
  evicted := h.evicted
  resident := fun s x hx => by
    rcases h.resident s x hx with ⟨j, rfl, hj⟩
    have hji : j ≠ i := fun hc => hfree s (hc ▸ hx)
    exact ⟨j, rfl, hj.bound, hj.index, (hp j hji).trans hj.pid, (ho j hji).trans hj.owner,
      (hd j hji).trans hj.data, fun hc => hj.clean ((hy j hji).symm.trans hc)⟩
  backed := h.backed
  identifiers := h.identifiers

theorem Draft.Sound.scribble {j : Nat} {d : Draft} (h : d.Sound st j) (hji : j ≠ i)
    (hd : ∀ j, j ≠ i → data j = st.data j) (hp : ∀ j, j ≠ i → pid j = st.pid j)
    (ho : ∀ j, j ≠ i → owner j = st.ownerSwip j) (hy : ∀ j, j ≠ i → dirty j = st.dirty j) :
    d.Sound { st with data := data, pid := pid, ownerSwip := owner, dirty := dirty } j :=
  ⟨fun hc => (hd j hji).trans (h.1 hc), fun hc => (ho j hji).trans (h.2.1 hc),
    fun hc => (hp j hji).trans (h.2.2.1 hc), fun hc => (hy j hji).trans (h.2.2.2 hc)⟩

theorem Tenure.Sound.scribble {t : Tenure} (h : t.Sound cfg st) (hown : t.own ≠ some i)
    (hfree : ∀ s, ¬ st.Resides cfg s i)
    (hd : ∀ j, j ≠ i → data j = st.data j) (hp : ∀ j, j ≠ i → pid j = st.pid j)
    (ho : ∀ j, j ≠ i → owner j = st.ownerSwip j) (hy : ∀ j, j ≠ i → dirty j = st.dirty j) :
    t.Sound cfg { st with data := data, pid := pid, ownerSwip := owner, dirty := dirty } := by
  cases t with
  | owned j x y z d =>
      cases d with
      | none => exact h
      | some d => exact Draft.Sound.scribble h (fun hc => hown (hc ▸ rfl)) hd hp ho hy
  | published j d => exact Draft.Sound.scribble h (fun hc => hown (hc ▸ rfl)) hd hp ho hy
  | writer j s =>
      have hji : j ≠ i := fun hc => hfree s (hc ▸ h.1)
      exact ⟨h.1, (hy j hji).trans h.2⟩
  | victim j p s v => cases v <;> exact h
  | _ => exact h

theorem Sound.scribble (h : Sound cfg st r) (hown : r.tenure.own ≠ some i)
    (hfree : ∀ s, ¬ st.Resides cfg s i)
    (hd : ∀ j, j ≠ i → data j = st.data j) (hp : ∀ j, j ≠ i → pid j = st.pid j)
    (ho : ∀ j, j ≠ i → owner j = st.ownerSwip j) (hy : ∀ j, j ≠ i → dirty j = st.dirty j) :
    Sound cfg { st with data := data, pid := pid, ownerSwip := owner, dirty := dirty } r :=
  h.of_parts (fun ht => ht.scribble hown hfree hd hp ho hy)
    (fun hw => hw.of_eq rfl rfl rfl rfl rfl) (fun hp => hp.of_eq rfl rfl rfl)

end Scribble

/-! ### A guard sets the dirty flag and writes the page -/

section Write

variable {i : Nat} {s : SwipId} {p : PageId} {page : Page}

theorem Cells.soil (h : Cells cfg st) :
    Cells cfg { st with dirty := update st.dirty i true } where
  unborn := h.unborn
  minted := h.minted
  canonical := h.canonical
  listed := h.listed
  evicted := h.evicted
  resident := fun s x hx => by
    rcases h.resident s x hx with ⟨j, rfl, hj⟩
    refine ⟨j, rfl, hj.bound, hj.index, hj.pid, hj.owner, hj.data, fun hc => ?_⟩
    by_cases hji : j = i
    · simp only [hji, update_self] at hc
      exact absurd hc nofun
    · simp only [update_of_ne hji] at hc
      exact hj.clean hc
  backed := h.backed
  identifiers := h.identifiers

theorem dirty_soil {j : Nat} (h : st.dirty j = true) : update st.dirty i true j = true := by
  by_cases hji : j = i
  · rw [hji, update_self]
  · rw [update_of_ne hji, h]

theorem Draft.Sound.soil {j : Nat} {d : Draft} (h : d.Sound st j) :
    d.Sound { st with dirty := update st.dirty i true } j :=
  ⟨h.1, h.2.1, h.2.2.1, fun hc => dirty_soil (h.2.2.2 hc)⟩

theorem Sound.soil (h : Sound cfg st r) :
    Sound cfg { st with dirty := update st.dirty i true } r := by
  refine h.of_parts (fun ht => ?_) (fun hw => hw.of_eq rfl rfl rfl rfl rfl)
    (fun hp => hp.of_eq rfl rfl rfl)
  cases hc : r.tenure with
  | owned j x y z d =>
      rw [hc] at ht
      cases d with
      | none => exact ht
      | some d => exact Draft.Sound.soil ht
  | published j d => rw [hc] at ht; exact Draft.Sound.soil ht
  | writer j s => rw [hc] at ht; exact ⟨ht.1, dirty_soil ht.2⟩
  | victim j p s v => rw [hc] at ht; cases v <;> exact ht
  | _ => rw [hc] at ht; exact ht

theorem Store.Backed.rewrite {q : PageId} (h : st.Backed q) (hq : q ≠ p) :
    Store.Backed { st with data := update st.data i page, latest := update st.latest p page } q := by
  rcases h with ⟨loc, hd, hs⟩
  exact ⟨loc, hd, by simp only [update_of_ne hq, hs]⟩

theorem Cells.rewrite (h : Cells cfg st) (hs : st.Resides cfg s i) (hp : (st.swips s).pid = p)
    (hdirty : st.dirty i = true) :
    Cells cfg { st with data := update st.data i page, latest := update st.latest p page } where
  unborn := h.unborn
  minted := h.minted
  canonical := h.canonical
  listed := h.listed
  evicted := h.evicted
  resident := fun s' x hx => by
    rcases h.resident s' x hx with ⟨j, rfl, hj⟩
    have hbound := (h.occupies hs).bound
    by_cases hss : s' = s
    · have hji : j = i := Store.Resides.unique hx (hss ▸ hs)
      refine ⟨j, rfl, hj.bound, hj.index, hj.pid, hj.owner, ?_, fun hc => ?_⟩
      · simp only [hss, hp, hji, update_self]
      · simp only [hji, hdirty] at hc
        exact absurd hc nofun
    · have hji : j ≠ i := fun hc => hss (h.resident_unique (hc ▸ hx) hs)
      have hpq : (st.swips s').pid ≠ p := fun hc =>
        hss (h.canonical s' s hj.bound hbound (hc.trans hp.symm))
      refine ⟨j, rfl, hj.bound, hj.index, hj.pid, hj.owner, ?_, fun hc => (hj.clean hc).rewrite hpq⟩
      simp only [update_of_ne hji, update_of_ne hpq]
      exact hj.data
  backed := fun q s' hq he => by
    refine (h.backed q s' hq he).rewrite (fun hc => ?_)
    have hss : s' = s :=
      h.canonical s' s (h.listed q s' hq).1 (h.occupies hs).bound
        ((h.listed q s' hq).2.trans (hc.trans hp.symm))
    exact hs.not_evicted (hss ▸ he)
  identifiers := h.identifiers

theorem Storage.rewrite (h : Storage cfg st R) (hp : p < st.nextPid) :
    Storage cfg { st with data := update st.data i page, latest := update st.latest p page } R where
  named := h.named
  injective := h.injective
  unborn := fun q hq => by
    refine ⟨(h.unborn q hq).1, ?_⟩
    have hqp : q ≠ p := fun hc => absurd hp (Nat.not_lt.mpr (hc ▸ hq))
    simp only [update_of_ne hqp]
    exact (h.unborn q hq).2
  holder := h.holder
  held := h.held
  covered := h.covered
  written := h.written

/-- The page is not one that a role has a claim on. -/
theorem Sound.rewrite (h : Sound cfg st r) (hcells : Cells cfg st) (hs : st.Resides cfg s i)
    (hp : (st.swips s).pid = p)
    (hres : r.tenure.reservation ≠ some i) (hown : r.tenure.own ≠ some i) :
    Sound cfg { st with data := update st.data i page, latest := update st.latest p page } r := by
  have hbound := (hcells.occupies hs).bound
  -- an evicted page is another one
  have hother : ∀ q s', st.Bound cfg s' → (st.swips s').pid = q →
      (st.swips s').state = .evicted q → q ≠ p := by
    intro q s' hb hq he hc
    have hss : s' = s := hcells.canonical s' s hb hbound (hq.trans (hc.trans hp.symm))
    exact hs.not_evicted (hss ▸ he)
  have hdraft : ∀ d, r.tenure.draft = some d → d.pid ≠ p := by
    intro d hd
    have hw := h.warrant
    rcases h.draft d hd with ⟨loc, hc⟩ | hc
    · rw [hc] at hw
      exact hother d.pid d.swip (hcells.listed _ _ hw.1).1 (hcells.listed _ _ hw.1).2 hw.2.1
    · rw [hc] at hw
      exact hother d.pid d.swip hw.2.2.2.1 hw.2.2.2.2.1 hw.2.2.2.2.2
  -- a page under eviction resides in another frame
  have hvictim : ∀ j q s', (st.swips s').state = .cooling (cfg.residentAddr j) →
      r.tenure.reservation = some j → st.pages q = some s' → q ≠ p := by
    intro j q s' hc hj hq hqp
    have hss : s' = s := hcells.canonical s' s (hcells.listed q s' hq).1 hbound
      ((hcells.listed q s' hq).2.trans (hqp.trans hp.symm))
    have hjr : st.Resides cfg s' j := by
      unfold Store.Resides
      rw [hc]
      rfl
    rw [(hss ▸ hjr : st.Resides cfg s j).unique hs] at hj
    exact hres hj
  have hdata : ∀ j d, r.tenure.own = some j → r.tenure.draft = some d → d.Sound st j →
      d.Sound { st with data := update st.data i page, latest := update st.latest p page } j := by
    intro j d hj hd hsound
    refine ⟨fun hc => ?_, hsound.2⟩
    have hji : j ≠ i := fun hc => hown (hc ▸ hj)
    simp only [update_of_ne hji, update_of_ne (hdraft d hd)]
    exact hsound.1 hc
  refine h.of_parts (fun ht => ?_) (fun hw => ?_) (fun hp => hp.of_eq rfl rfl rfl)
  · cases hc : r.tenure with
    | owned j x y z d =>
        rw [hc] at ht
        cases d with
        | none => exact ht
        | some d => exact hdata j d (by rw [hc]; rfl) (by rw [hc]; rfl) ht
    | published j d =>
        rw [hc] at ht
        exact hdata j d (by rw [hc]; rfl) (by rw [hc]; rfl) ht
    | victim j q s' v =>
        rw [hc] at ht
        cases v with
        | written old new =>
            have hq := hvictim j q s' ht.1 (by rw [hc]; rfl) ht.2.1
            refine ⟨ht.1, ht.2.1, ht.2.2.1, ?_⟩
            simp only [update_of_ne hq]
            exact ht.2.2.2
        | published =>
            exact ⟨ht.1, ht.2.1, ht.2.2.rewrite (hvictim j q s' ht.1 (by rw [hc]; rfl) ht.2.1)⟩
        | _ => exact ht
    | _ => rw [hc] at ht; exact ht
  · cases hc : r.warrant with
    | minted q =>
        rw [hc] at hw
        have hqp : q ≠ p := fun hqp => hw.2.2.2.2 s hbound (hp.trans hqp.symm)
        refine ⟨hw.1, hw.2.1, hw.2.2.1, ?_, hw.2.2.2.2⟩
        simp only [update_of_ne hqp]
        exact hw.2.2.2.1
    | fresh q s' =>
        rw [hc] at hw
        have hqp := hother q s' hw.2.2.2.1 hw.2.2.2.2.1 hw.2.2.2.2.2
        refine ⟨hw.1, hw.2.1, ?_, hw.2.2.2⟩
        simp only [update_of_ne hqp]
        exact hw.2.2.1
    | _ => rw [hc] at hw; exact hw

end Write

/-! ### An evictor writes back -/

section Eviction

variable {i : Nat} {s : SwipId} {p : PageId} {loc : Location} {page : Page} {old : Option Location}

theorem Cells.clean (h : Cells cfg st) (hs : st.Resides cfg s i)
    (hb : st.Backed (st.swips s).pid) :
    Cells cfg { st with dirty := update st.dirty i false } where
  unborn := h.unborn
  minted := h.minted
  canonical := h.canonical
  listed := h.listed
  evicted := h.evicted
  resident := fun s' x hx => by
    rcases h.resident s' x hx with ⟨j, rfl, hj⟩
    refine ⟨j, rfl, hj.bound, hj.index, hj.pid, hj.owner, hj.data, fun hc => ?_⟩
    by_cases hji : j = i
    · rw [hji] at hx
      rw [h.resident_unique hx hs]
      exact hb
    · simp only [update_of_ne hji] at hc
      exact hj.clean hc
  backed := h.backed
  identifiers := h.identifiers

theorem Sound.clean (h : Sound cfg st r) (hpin : r.tenure.pin ≠ some i)
    (hown : r.tenure.own ≠ some i) :
    Sound cfg { st with dirty := update st.dirty i false } r := by
  refine h.of_parts (fun ht => ?_) (fun hw => hw.of_eq rfl rfl rfl rfl rfl)
    (fun hp => hp.of_eq rfl rfl rfl)
  have hdraft : ∀ j (d : Draft), r.tenure.own = some j → d.Sound st j →
      d.Sound { st with dirty := update st.dirty i false } j := by
    intro j d hj hd
    have hji : j ≠ i := fun hc => hown (hc ▸ hj)
    exact ⟨hd.1, hd.2.1, hd.2.2.1, fun hc => by simp only [update_of_ne hji, hd.2.2.2 hc]⟩
  cases hc : r.tenure with
  | owned j x y z d =>
      rw [hc] at ht
      cases d with
      | none => exact ht
      | some d => exact hdraft j d (by rw [hc]; rfl) ht
  | published j d => rw [hc] at ht; exact hdraft j d (by rw [hc]; rfl) ht
  | writer j s' =>
      rw [hc] at ht hpin
      have hji : j ≠ i := fun hji => hpin (hji ▸ rfl)
      exact ⟨ht.1, by simp only [update_of_ne hji, ht.2]⟩
  | victim j p s' v => rw [hc] at ht; cases v <;> exact ht
  | _ => rw [hc] at ht; exact ht

/-! A write-back fills a slot that nothing named. -/

theorem Store.Backed.writeBack {q : PageId} {wb : PageId → Bool} (h : st.Backed q)
    (hfree : st.slots loc = none) :
    Store.Backed { st with slots := update st.slots loc (some page), writtenBack := wb } q := by
  rcases h with ⟨l, hd, hs⟩
  have hl : l ≠ loc := by
    intro hc
    rw [hc, hfree] at hs
    exact absurd hs nofun
  exact ⟨l, hd, by simp only [update_of_ne hl, hs]⟩

theorem Cells.writeBack (h : Cells cfg st) (hfree : st.slots loc = none) :
    Cells cfg { st with
      slots := update st.slots loc (some page)
      writtenBack := update st.writtenBack p true } where
  unborn := h.unborn
  minted := h.minted
  canonical := h.canonical
  listed := h.listed
  evicted := h.evicted
  resident := fun s' x hx => by
    rcases h.resident s' x hx with ⟨j, rfl, hj⟩
    exact ⟨j, rfl, hj.bound, hj.index, hj.pid, hj.owner, hj.data,
      fun hc => (hj.clean hc).writeBack hfree⟩
  backed := fun q s' hq he => (h.backed q s' hq he).writeBack hfree
  identifiers := h.identifiers

theorem Storage.writeBack (h : Storage cfg st R) (m : Change R R' a r r')
    (hfree : st.slots loc = none) (htier : loc.tierIndex < cfg.tiers.length)
    (hs : r.slot = none) (hs' : r'.slot = some loc)
    (hp : r.tenure.pending = none) (hp' : r'.tenure.pending = some p) :
    Storage cfg { st with
      slots := update st.slots loc (some page)
      writtenBack := update st.writtenBack p true } R' where
  named := fun q l hl => by
    have hne : l ≠ loc := fun hc => (h.named q l hl).1 (hc ▸ hfree)
    simp only [update_of_ne hne]
    exact h.named q l hl
  injective := h.injective
  unborn := h.unborn
  holder := h.holder.acquire (a := a) (fun b hb => by rw [m.others b hb]) (by rw [m.after, hs'])
    (fun b hb => (h.held b loc hb).1 hfree)
  held := fun b l hb => by
    by_cases hba : b = a
    · rw [hba, m.after, hs', Option.some.injEq] at hb
      refine ⟨by simp only [hb, update_self]; exact nofun, hb ▸ htier, fun q hq => ?_⟩
      exact (h.named q l hq).1 (hb ▸ hfree)
    · rw [m.others b hba] at hb
      rcases h.held b l hb with ⟨h1, h2⟩
      have hne : l ≠ loc := fun hc => h1 (hc ▸ hfree)
      simp only [update_of_ne hne]
      exact ⟨h1, h2⟩
  covered := fun l hl => by
    by_cases hne : l = loc
    · exact .inr ⟨a, by rw [m.after, hs', hne]⟩
    · simp only [update_of_ne hne] at hl
      rcases h.covered l hl with hq | ⟨b, hb⟩
      · exact .inl hq
      · refine .inr ⟨b, ?_⟩
        have hba : b ≠ a := by
          intro hc
          rw [hc, m.before, hs] at hb
          exact absurd hb nofun
        rw [m.others b hba, hb]
  written := fun q => by
    by_cases hqp : q = p
    · simp only [hqp, update_self]
      exact ⟨fun _ => .inr ⟨a, by rw [m.after, hp']⟩, fun _ => trivial⟩
    · simp only [update_of_ne hqp, h.written q]
      refine or_congr_right ⟨?_, ?_⟩
      · rintro ⟨b, hb⟩
        have hba : b ≠ a := by
          intro hc
          rw [hc, m.before, hp] at hb
          exact absurd hb nofun
        exact ⟨b, by rw [m.others b hba, hb]⟩
      · rintro ⟨b, hb⟩
        have hba : b ≠ a := by
          intro hc
          rw [hc, m.after, hp', Option.some.injEq] at hb
          exact hqp hb.symm
        exact ⟨b, by rw [← m.others b hba, hb]⟩

theorem Sound.writeBack (h : Sound cfg st r) (hfree : st.slots loc = none) :
    Sound cfg { st with
      slots := update st.slots loc (some page)
      writtenBack := update st.writtenBack p true } r := by
  refine h.of_parts (fun ht => ?_) (fun hw => hw.of_eq rfl rfl rfl rfl rfl)
    (fun hp => hp.of_eq rfl rfl rfl)
  cases hc : r.tenure with
  | owned j x y z d => rw [hc] at ht; cases d <;> exact ht
  | victim j q s' v =>
      rw [hc] at ht
      cases v with
      | written old new =>
          have hne : new ≠ loc := by
            intro hcn
            rw [hcn] at ht
            have hslot := ht.2.2.2
            rw [hfree] at hslot
            exact absurd hslot nofun
          refine ⟨ht.1, ht.2.1, ht.2.2.1, ?_⟩
          simp only [update_of_ne hne]
          exact ht.2.2.2
      | published => exact ⟨ht.1, ht.2.1, ht.2.2.writeBack hfree⟩
      | _ => exact ht
  | _ => rw [hc] at ht; exact ht

/-! A publication names the new slot and leaves the old one to its evictor. -/

theorem Store.Backed.publish {q : PageId} (h : st.Backed q) (hq : q ≠ p) :
    Store.Backed { st with directory := update st.directory p (some loc) } q := by
  rcases h with ⟨l, hd, hs⟩
  exact ⟨l, by simp only [update_of_ne hq, hd], hs⟩

theorem Store.Backed.published (hs : st.slots loc = some (st.latest p)) :
    Store.Backed { st with directory := update st.directory p (some loc) } p :=
  ⟨loc, by simp only [update_self], hs⟩

theorem Cells.publish (h : Cells cfg st) (hs : st.slots loc = some (st.latest p)) :
    Cells cfg { st with directory := update st.directory p (some loc) } where
  unborn := h.unborn
  minted := h.minted
  canonical := h.canonical
  listed := h.listed
  evicted := h.evicted
  resident := fun s' x hx => by
    rcases h.resident s' x hx with ⟨j, rfl, hj⟩
    refine ⟨j, rfl, hj.bound, hj.index, hj.pid, hj.owner, hj.data, fun hc => ?_⟩
    by_cases hq : (st.swips s').pid = p
    · exact hq.symm ▸ Store.Backed.published hs
    · exact (hj.clean hc).publish hq
  backed := fun q s' hq he => by
    by_cases hqp : q = p
    · exact hqp.symm ▸ Store.Backed.published hs
    · exact (h.backed q s' hq he).publish hqp
  identifiers := h.identifiers

theorem Storage.publish (h : Storage cfg st R) (m : Change R R' a r r')
    (hold : st.directory p = old) (hs : r.slot = some loc) (hs' : r'.slot = old)
    (hp : r.tenure.pending = some p) (hp' : r'.tenure.pending = none)
    (hborn : p < st.nextPid) :
    Storage cfg { st with directory := update st.directory p (some loc) } R' := by
  have hheld := h.held a loc (by rw [m.before, hs])
  refine ⟨fun q l hl => ?_, fun q q' l hq hq' => ?_, fun q hq => ?_, ?_, fun b l hb => ?_,
    fun l hl => ?_, fun q => ?_⟩
  · by_cases hqp : q = p
    · simp only [hqp, update_self, Option.some.injEq] at hl
      exact hl ▸ ⟨hheld.1, hheld.2.1⟩
    · simp only [update_of_ne hqp] at hl
      exact h.named q l hl
  · by_cases hqp : q = p
    · by_cases hqp' : q' = p
      · rw [hqp, hqp']
      · simp only [hqp, update_self, Option.some.injEq] at hq
        simp only [update_of_ne hqp', ← hq] at hq'
        exact absurd hq' (hheld.2.2 q')
    · by_cases hqp' : q' = p
      · simp only [hqp', update_self, Option.some.injEq] at hq'
        simp only [update_of_ne hqp, ← hq'] at hq
        exact absurd hq (hheld.2.2 q)
      · simp only [update_of_ne hqp] at hq
        simp only [update_of_ne hqp'] at hq'
        exact h.injective q q' l hq hq'
  · have hqp : q ≠ p := fun hc => absurd hborn (Nat.not_lt.mpr (hc ▸ hq))
    simp only [update_of_ne hqp]
    exact h.unborn q hq
  · cases hcase : old with
    | none =>
        rw [hcase] at hs'
        exact h.holder.release (a := a) (fun b hb => by rw [m.others b hb]) (by rw [m.after, hs'])
    | some o =>
        rw [hcase] at hs' hold
        exact h.holder.acquire (a := a) (fun b hb => by rw [m.others b hb]) (by rw [m.after, hs'])
          (fun b hb => (h.held b o hb).2.2 p hold)
  · by_cases hba : b = a
    · rw [hba, m.after, hs'] at hb
      rw [hb] at hold
      refine ⟨(h.named p l hold).1, (h.named p l hold).2, fun q hq => ?_⟩
      by_cases hqp : q = p
      · simp only [hqp, update_self, Option.some.injEq] at hq
        rw [← hq] at hold
        exact hheld.2.2 p hold
      · simp only [update_of_ne hqp] at hq
        exact hqp (h.injective q p l hq hold)
    · rw [m.others b hba] at hb
      rcases h.held b l hb with ⟨h1, h2, h3⟩
      refine ⟨h1, h2, fun q hq => ?_⟩
      by_cases hqp : q = p
      · simp only [hqp, update_self, Option.some.injEq] at hq
        exact hba (h.holder b a l hb (by simp only [m.before, hs, hq]))
      · simp only [update_of_ne hqp] at hq
        exact h3 q hq
  · rcases h.covered l hl with ⟨q, hq⟩ | ⟨b, hb⟩
    · by_cases hqp : q = p
      · rw [hqp, hold] at hq
        exact .inr ⟨a, by rw [m.after, hs', hq]⟩
      · exact .inl ⟨q, by simp only [update_of_ne hqp, hq]⟩
    · by_cases hba : b = a
      · rw [hba, m.before, hs, Option.some.injEq] at hb
        exact .inl ⟨p, by simp only [update_self, hb]⟩
      · exact .inr ⟨b, by rw [m.others b hba, hb]⟩
  · rw [h.written q]
    by_cases hqp : q = p
    · rw [hqp]
      simp only [update_self, ne_eq, reduceCtorEq, not_false_eq_true, true_or, iff_true]
      exact .inr ⟨a, by rw [m.before, hp]⟩
    · simp only [update_of_ne hqp]
      refine or_congr_right ⟨?_, ?_⟩
      · rintro ⟨b, hb⟩
        have hba : b ≠ a := by
          intro hc
          rw [hc, m.before, hp, Option.some.injEq] at hb
          exact hqp hb.symm
        exact ⟨b, by rw [m.others b hba, hb]⟩
      · rintro ⟨b, hb⟩
        have hba : b ≠ a := by
          intro hc
          rw [hc, m.after, hp'] at hb
          exact absurd hb nofun
        exact ⟨b, by rw [← m.others b hba, hb]⟩

/-- No other agent has a claim on the entry of a page under eviction. -/
theorem Sound.publish (h : Sound cfg st r) (hs : st.pages p = some s)
    (hc : (st.swips s).state = .cooling (cfg.residentAddr i))
    (hres : r.tenure.reservation ≠ some i) :
    Sound cfg { st with directory := update st.directory p (some loc) } r := by
  have hvictim : ∀ j q s', (st.swips s').state = .cooling (cfg.residentAddr j) →
      r.tenure.reservation = some j → st.pages q = some s' → q ≠ p := by
    intro j q s' hcs hj hq hqp
    rw [hqp, hs, Option.some.injEq] at hq
    rw [← hq, hc, SwipState.cooling.injEq] at hcs
    rw [← cfg.residentAddr_inj hcs] at hj
    exact hres hj
  refine h.of_parts (fun ht => ?_) (fun hw => ?_) (fun hp => hp.of_eq rfl rfl rfl)
  · cases hct : r.tenure with
    | owned j x y z d => rw [hct] at ht; cases d <;> exact ht
    | victim j q s' v =>
        rw [hct] at ht
        have hne := hvictim j q s' ht.1 (by rw [hct]; rfl)
        cases v with
        | backed o =>
            refine ⟨ht.1, ht.2.1, ?_⟩
            simp only [update_of_ne (hne ht.2.1)]
            exact ht.2.2
        | writing o tier =>
            refine ⟨ht.1, ht.2.1, ?_, ht.2.2.2⟩
            simp only [update_of_ne (hne ht.2.1)]
            exact ht.2.2.1
        | written o new =>
            refine ⟨ht.1, ht.2.1, ?_, ht.2.2.2⟩
            simp only [update_of_ne (hne ht.2.1)]
            exact ht.2.2.1
        | published => exact ⟨ht.1, ht.2.1, ht.2.2.publish (hne ht.2.1)⟩
        | _ => exact ht
    | _ => rw [hct] at ht; exact ht
  · cases hcw : r.warrant with
    | located q s' l =>
        rw [hcw] at hw
        have hqp : q ≠ p := by
          intro hqp
          have hss := hw.1
          rw [hqp, hs, Option.some.injEq] at hss
          have hev := hw.2.1
          rw [← hss, hc] at hev
          exact absurd hev nofun
        refine ⟨hw.1, hw.2.1, ?_⟩
        simp only [update_of_ne hqp]
        exact hw.2.2
    | minted q =>
        rw [hcw] at hw
        have hqp : q ≠ p := fun hqp => absurd (hqp ▸ hw.2.1) (by rw [hs]; exact nofun)
        refine ⟨hw.1, hw.2.1, ?_, hw.2.2.2⟩
        simp only [update_of_ne hqp]
        exact hw.2.2.1
    | fresh q s' =>
        rw [hcw] at hw
        have hqp : q ≠ p := fun hqp => absurd (hqp ▸ hw.1) (by rw [hs]; exact nofun)
        refine ⟨hw.1, ?_, hw.2.2⟩
        simp only [update_of_ne hqp]
        exact hw.2.1
    | _ => rw [hcw] at hw; exact hw

/-! A slot is freed by the agent that holds it. -/

theorem Store.Backed.free {q : PageId} (h : st.Backed q)
    (hfree : ∀ p, st.directory p ≠ some loc) :
    Store.Backed { st with slots := update st.slots loc none } q := by
  rcases h with ⟨l, hd, hs⟩
  have hl : l ≠ loc := fun hc => hfree q (hc ▸ hd)
  exact ⟨l, hd, by simp only [update_of_ne hl, hs]⟩

theorem Cells.free (h : Cells cfg st) (hfree : ∀ p, st.directory p ≠ some loc) :
    Cells cfg { st with slots := update st.slots loc none } where
  unborn := h.unborn
  minted := h.minted
  canonical := h.canonical
  listed := h.listed
  evicted := h.evicted
  resident := fun s' x hx => by
    rcases h.resident s' x hx with ⟨j, rfl, hj⟩
    exact ⟨j, rfl, hj.bound, hj.index, hj.pid, hj.owner, hj.data,
      fun hc => (hj.clean hc).free hfree⟩
  backed := fun q s' hq he => (h.backed q s' hq he).free hfree
  identifiers := h.identifiers

theorem Storage.free (h : Storage cfg st R) (m : Change R R' a r r')
    (hs : r.slot = some loc) (hs' : r'.slot = none)
    (hp : r'.tenure.pending = r.tenure.pending) :
    Storage cfg { st with slots := update st.slots loc none } R' := by
  have hheld := h.held a loc (by rw [m.before, hs])
  refine ⟨fun q l hl => ?_, h.injective, h.unborn,
    h.holder.release (a := a) (fun b hb => by rw [m.others b hb]) (by rw [m.after, hs']),
    fun b l hb => ?_, fun l hl => ?_, fun q => ?_⟩
  · have hne : l ≠ loc := fun hc => hheld.2.2 q (hc ▸ hl)
    simp only [update_of_ne hne]
    exact h.named q l hl
  · have hba : b ≠ a := by
      intro hc
      rw [hc, m.after, hs'] at hb
      exact absurd hb nofun
    rw [m.others b hba] at hb
    have hne : l ≠ loc := by
      intro hc
      rw [hc] at hb
      exact hba (h.holder b a loc hb (by simp only [m.before, hs]))
    simp only [update_of_ne hne]
    exact h.held b l hb
  · have hne : l ≠ loc := by
      intro hc
      simp only [hc, update_self, ne_eq, not_true_eq_false] at hl
    simp only [update_of_ne hne] at hl
    rcases h.covered l hl with hq | ⟨b, hb⟩
    · exact .inl hq
    · refine .inr ⟨b, ?_⟩
      have hba : b ≠ a := by
        intro hc
        rw [hc, m.before, hs, Option.some.injEq] at hb
        exact hne hb.symm
      rw [m.others b hba, hb]
  · rw [h.written q, m.exists_iff (fun r => r.tenure.pending) hp]

theorem Sound.free (h : Sound cfg st r) (hfree : ∀ p, st.directory p ≠ some loc)
    (hslot : r.slot ≠ some loc) :
    Sound cfg { st with slots := update st.slots loc none } r := by
  refine h.of_parts (fun ht => ?_) (fun hw => hw.of_eq rfl rfl rfl rfl rfl)
    (fun hp => hp.of_eq rfl rfl rfl)
  cases hc : r.tenure with
  | owned j x y z d => rw [hc] at ht; cases d <;> exact ht
  | victim j q s' v =>
      rw [hc] at ht
      cases v with
      | written old new =>
          have hne : new ≠ loc := fun hcn => hslot (hcn ▸ h.slot new (by rw [hc]; rfl))
          refine ⟨ht.1, ht.2.1, ht.2.2.1, ?_⟩
          simp only [update_of_ne hne]
          exact ht.2.2.2
      | published => exact ⟨ht.1, ht.2.1, ht.2.2.free hfree⟩
      | _ => exact ht
  | _ => rw [hc] at ht; exact ht

end Eviction

/-! ### A word changes -/

/-- The word of one cell is replaced. -/
def Store.setState (st : Store) (s : SwipId) (x : SwipState) : Store :=
  { st with swips := update st.swips s { st.swips s with state := x } }

section Word

variable {s : SwipId} {x : SwipState} {i : Nat} {p : PageId}

theorem setState_pid (s' : SwipId) : ((st.setState s x).swips s').pid = (st.swips s').pid := by
  unfold Store.setState
  by_cases hs : s' = s
  · simp only [hs, update_self]
  · simp only [update_of_ne hs]

theorem setState_ownerId (s' : SwipId) :
    ((st.setState s x).swips s').ownerId = (st.swips s').ownerId := by
  unfold Store.setState
  by_cases hs : s' = s
  · simp only [hs, update_self]
  · simp only [update_of_ne hs]

theorem setState_self : ((st.setState s x).swips s).state = x := by
  simp only [Store.setState, update_self]

theorem setState_other {s' : SwipId} (hs : s' ≠ s) :
    ((st.setState s x).swips s').state = (st.swips s').state := by
  simp only [Store.setState, update_of_ne hs]

theorem setState_bound (s' : SwipId) : (st.setState s x).Bound cfg s' ↔ st.Bound cfg s' := by
  unfold Store.Bound
  rw [setState_ownerId]

theorem setState_resides_other {s' : SwipId} {j : Nat} (hs : s' ≠ s) :
    (st.setState s x).Resides cfg s' j ↔ st.Resides cfg s' j := by
  unfold Store.Resides
  rw [setState_other hs]

theorem Store.Occupies.setState {s' : SwipId} {j : Nat} (h : st.Occupies cfg s' j) :
    (st.setState s x).Occupies cfg s' j where
  bound := (setState_bound s').mpr h.bound
  index := h.index
  pid := by
    rw [setState_pid]
    exact h.pid
  owner := h.owner
  data := by
    rw [setState_pid]
    exact h.data
  clean := fun hc => by
    rw [setState_pid]
    exact h.clean hc

/-- What a change of one word leaves to prove about the cells. -/
theorem Cells.setState (h : Cells cfg st)
    (hev : ∀ q, x = .evicted q → q = (st.swips s).pid)
    (hres : ∀ y, x.resident = some y →
      ∃ j, y = cfg.residentAddr j ∧ (st.setState s x).Occupies cfg s j)
    (hback : ∀ q, st.pages q = some s → x = .evicted q → st.Backed q) :
    Cells cfg (st.setState s x) where
  unborn := fun s' hs' hb => h.unborn s' hs' ((setState_bound s').mp hb)
  minted := fun s' hb => by
    rw [setState_pid]
    exact h.minted s' ((setState_bound s').mp hb)
  canonical := fun s' s'' hb hb' hp => by
    rw [setState_pid, setState_pid] at hp
    exact h.canonical s' s'' ((setState_bound s').mp hb) ((setState_bound s'').mp hb') hp
  listed := fun q s' hq => by
    rw [setState_pid]
    exact ⟨(setState_bound s').mpr (h.listed q s' hq).1, (h.listed q s' hq).2⟩
  evicted := fun s' q hq => by
    rw [setState_pid]
    by_cases hs : s' = s
    · rw [hs, setState_self] at hq
      rw [hs]
      exact hev q hq
    · rw [setState_other hs] at hq
      exact h.evicted s' q hq
  resident := fun s' y hy => by
    by_cases hs : s' = s
    · rw [hs, setState_self] at hy
      rw [hs]
      exact hres y hy
    · rw [setState_other hs] at hy
      rcases h.resident s' y hy with ⟨j, hj, ho⟩
      exact ⟨j, hj, ho.setState⟩
  backed := fun q s' hq he => by
    by_cases hs : s' = s
    · rw [hs] at hq
      rw [hs, setState_self] at he
      exact hback q hq he
    · rw [setState_other hs] at he
      exact h.backed q s' hq he
  identifiers := h.identifiers

/-- What a change of one word leaves to prove about another agent. -/
theorem Sound.setState (h : Sound cfg st r)
    (hocc : ∀ j, r.tenure.pin = some j → st.Resides cfg s j → x.resident = some (cfg.residentAddr j))
    (hvic : ∀ j, r.tenure.reservation = some j →
      (st.swips s).state = .cooling (cfg.residentAddr j) → x = .cooling (cfg.residentAddr j))
    (hlead : ∀ q, r.warrant.lead = some q → (st.swips s).state = .evicted q →
      st.pages q = some s → x = .evicted q)
    (hmint : ∀ q, r.warrant.mint = some q → (st.swips s).state = .evicted q →
      (st.swips s).pid = q → x = .evicted q)
    (hpost : st.joined = true → ∀ j, x.resident = some (cfg.residentAddr j) → st.Resides cfg s j) :
    Sound cfg (st.setState s x) r := by
  have hresides : ∀ j s', r.tenure.pin = some j → st.Resides cfg s' j →
      (st.setState s x).Resides cfg s' j := by
    intro j s' hj hr
    by_cases hs : s' = s
    · rw [hs] at hr ⊢
      unfold Store.Resides
      rw [setState_self]
      exact hocc j hj hr
    · exact (setState_resides_other hs).mpr hr
  have hswept : ∀ n, st.joined = true → st.Swept cfg n → (st.setState s x).Swept cfg n := by
    intro n hj hsw j hjn s' hr
    by_cases hs : s' = s
    · rw [hs] at hr
      unfold Store.Resides at hr
      rw [setState_self] at hr
      exact hsw j hjn s (hpost hj j hr)
    · exact hsw j hjn s' ((setState_resides_other hs).mp hr)
  refine h.of_parts (fun ht => ?_) (fun hw => ?_) (fun hp => ?_)
  · cases hc : r.tenure with
    | occupant j s' l => rw [hc] at ht; exact hresides j s' (by rw [hc]; rfl) ht
    | writer j s' => rw [hc] at ht; exact ⟨hresides j s' (by rw [hc]; rfl) ht.1, ht.2⟩
    | victim j q s' v =>
        rw [hc] at ht
        refine ⟨?_, ?_⟩
        · by_cases hs : s' = s
          · rw [hs] at ht ⊢
            rw [setState_self]
            exact hvic j (by rw [hc]; rfl) ht.1
          · rw [setState_other hs]
            exact ht.1
        · have hv := ht.2
          cases v with
          | seen =>
              unfold Victim.Sound
              rw [setState_pid]
              exact hv
          | _ => exact hv
    | owned j y z w d => rw [hc] at ht; cases d <;> exact ht
    | _ => rw [hc] at ht; exact ht
  · have hsame : ∀ s' q, (s' = s → x = .evicted q) → (st.swips s').state = .evicted q →
        ((st.setState s x).swips s').state = .evicted q := by
      intro s' q hx hq
      by_cases hs : s' = s
      · rw [hs, setState_self]
        exact hx hs
      · rw [setState_other hs]
        exact hq
    cases hc : r.warrant with
    | handle q s' =>
        rw [hc] at hw
        exact ⟨(setState_bound s').mpr hw.1, (setState_pid s').trans hw.2⟩
    | evicted q s' =>
        rw [hc] at hw
        exact ⟨hw.1, hsame s' q (fun hs => hlead q (by rw [hc]; rfl) (hs ▸ hw.2) (hs ▸ hw.1)) hw.2⟩
    | located q s' l =>
        rw [hc] at hw
        exact ⟨hw.1, hsame s' q (fun hs => hlead q (by rw [hc]; rfl) (hs ▸ hw.2.1) (hs ▸ hw.1))
          hw.2.1, hw.2.2⟩
    | minted q =>
        rw [hc] at hw
        refine ⟨hw.1, hw.2.1, hw.2.2.1, hw.2.2.2.1, fun s' hb => ?_⟩
        rw [setState_pid]
        exact hw.2.2.2.2 s' ((setState_bound s').mp hb)
    | fresh q s' =>
        rw [hc] at hw
        rcases hw with ⟨h1, h2, h3, h4, h5, h6⟩
        exact ⟨h1, h2, h3, (setState_bound s').mpr h4, (setState_pid s').trans h5,
          hsame s' q (fun hs => hmint q (by rw [hc]; rfl) (hs ▸ h6) (hs ▸ h5)) h6⟩
    | unlisted q s' =>
        rw [hc] at hw
        exact ⟨hw.1, (setState_bound s').mpr hw.2.1, (setState_pid s').trans hw.2.2⟩
    | _ => rw [hc] at hw; exact hw
  · cases hc : r.post with
    | flushing n =>
        rw [hc] at hp
        cases n with
        | none => exact hp
        | some n => exact ⟨hp.1, hswept n hp.1 hp.2⟩
    | flushed => rw [hc] at hp; exact ⟨hp.1, hswept _ hp.1 hp.2⟩
    | _ => rw [hc] at hp; exact hp

theorem Cells.unswizzle (h : Cells cfg st) (hs : st.pages p = some s) (hb : st.Backed p) :
    Cells cfg (st.setState s (.evicted p)) := by
  refine h.setState (fun q hq => ?_) (fun y hy => absurd hy nofun) (fun q _ hq => ?_)
  · rw [← SwipState.evicted.inj hq]
    exact (h.listed p s hs).2.symm
  · rw [← SwipState.evicted.inj hq]
    exact hb

theorem Sound.unswizzle (h : Sound cfg st r) (hs : st.Resides cfg s i)
    (hpin : r.tenure.pin ≠ some i) (hres : r.tenure.reservation ≠ some i) :
    Sound cfg (st.setState s (.evicted p)) r := by
  refine h.setState (fun j hj hr => ?_) (fun j hj hc => ?_)
    (fun q _ hc _ => absurd hc hs.not_evicted) (fun q _ hc _ => absurd hc hs.not_evicted)
    (fun _ j hj => absurd hj nofun)
  · rw [hr.unique hs] at hj
    exact absurd hj hpin
  · have hr : st.Resides cfg s j := by
      unfold Store.Resides
      rw [hc]
      rfl
    rw [hr.unique hs] at hj
    exact absurd hj hres

theorem Cells.swizzle (h : Cells cfg st) (hbound : st.Bound cfg s) (hi : i < cfg.frameCount)
    (hp : st.pid i = (st.swips s).pid) (ho : st.ownerSwip i = some s)
    (hd : st.data i = st.latest (st.swips s).pid)
    (hc : st.dirty i = false → st.Backed (st.swips s).pid) :
    Cells cfg (st.setState s (.hot (cfg.residentAddr i))) := by
  refine h.setState (fun q hq => absurd hq nofun) (fun y hy => ?_) (fun q _ hq => absurd hq nofun)
  have hocc : st.Occupies cfg s i := ⟨hbound, hi, hp, ho, hd, hc⟩
  exact ⟨i, (Option.some.inj hy).symm, hocc.setState⟩

theorem Sound.swizzle (h : Sound cfg st r) (hs : (st.swips s).state = .evicted p)
    (hopen : st.joined = false) (hlead : r.warrant.lead ≠ some p)
    (hmint : r.warrant.mint ≠ some p) : Sound cfg (st.setState s (.hot (cfg.residentAddr i))) r := by
  refine h.setState (fun j _ hr => absurd hs hr.not_evicted) (fun j _ hc => ?_)
    (fun q hq hc _ => ?_) (fun q hq hc _ => ?_) (fun hj => ?_)
  · rw [hs] at hc
    exact absurd hc nofun
  · rw [hs, SwipState.evicted.injEq] at hc
    exact absurd (hc ▸ hq) hlead
  · rw [hs, SwipState.evicted.injEq] at hc
    exact absurd (hc ▸ hq) hmint
  · rw [hopen] at hj
    exact absurd hj nofun

theorem Cells.recolor (h : Cells cfg st) (hx : x.resident = (st.swips s).state.resident)
    (hs : st.Resides cfg s i) : Cells cfg (st.setState s x) := by
  have hsome : x.resident = some (cfg.residentAddr i) := hx.trans hs
  refine h.setState (fun q hq => ?_) (fun y hy => ?_) (fun q _ hq => ?_)
  · rw [hq] at hsome
    exact absurd hsome nofun
  · rcases h.resident s y (hx ▸ hy) with ⟨j, hj, ho⟩
    exact ⟨j, hj, ho.setState⟩
  · rw [hq] at hsome
    exact absurd hsome nofun

theorem Sound.recolor (h : Sound cfg st r) (hx : x.resident = (st.swips s).state.resident)
    (hs : st.Resides cfg s i)
    (hvic : (st.swips s).state = .cooling (cfg.residentAddr i) →
      r.tenure.reservation ≠ some i) : Sound cfg (st.setState s x) r := by
  refine h.setState (fun j _ hr => hx.trans hr) (fun j hj hc => ?_)
    (fun q _ hc _ => absurd hc hs.not_evicted) (fun q _ hc _ => absurd hc hs.not_evicted)
    (fun _ j hj => ?_)
  · have hr : st.Resides cfg s j := by
      unfold Store.Resides
      rw [hc]
      rfl
    rw [hr.unique hs] at hj hc
    exact absurd hj (hvic hc)
  · unfold Store.Resides
    rw [← hx, hj]

end Word

/-! ### New identifiers, new cells, new pages -/

section Birth

variable {s : SwipId} {p : PageId} {cell : SwipInner}

theorem Cells.mint (h : Cells cfg st) (hmax : st.nextPid ≤ PageId.MAX) :
    Cells cfg { st with nextPid := st.nextPid + 1 } where
  unborn := h.unborn
  minted := fun s hb => Nat.lt_succ_of_lt (h.minted s hb)
  canonical := h.canonical
  listed := h.listed
  evicted := h.evicted
  resident := fun s x hx => by
    rcases h.resident s x hx with ⟨j, hj, ho⟩
    exact ⟨j, hj, ho.bound, ho.index, ho.pid, ho.owner, ho.data, ho.clean⟩
  backed := h.backed
  identifiers := Nat.succ_le_succ hmax

theorem Storage.mint (h : Storage cfg st R) :
    Storage cfg { st with nextPid := st.nextPid + 1 } R :=
  ⟨h.named, h.injective, fun p hp => h.unborn p (Nat.le_of_succ_le hp), h.holder, h.held,
    h.covered, h.written⟩

theorem Sound.mint (h : Sound cfg st r) : Sound cfg { st with nextPid := st.nextPid + 1 } r := by
  refine h.of_parts (fun ht => ?_) (fun hw => ?_) (fun hp => hp.of_eq rfl rfl rfl)
  · cases hc : r.tenure with
    | owned j x y z d => rw [hc] at ht; cases d <;> exact ht
    | victim j p s v => rw [hc] at ht; cases v <;> exact ht
    | _ => rw [hc] at ht; exact ht
  · cases hc : r.warrant with
    | minted q => rw [hc] at hw; exact ⟨Nat.lt_succ_of_lt hw.1, hw.2⟩
    | _ => rw [hc] at hw; exact hw

/-- A page that an agent is making has been minted. -/
theorem Warrant.Sound.mint_lt {w : Warrant} (h : w.Sound cfg st) (hcells : Cells cfg st)
    (hw : w.mint = some p) : p < st.nextPid := by
  cases w with
  | minted q =>
      cases hw
      exact h.1
  | fresh q s =>
      cases hw
      exact h.2.2.2.2.1 ▸ hcells.minted s h.2.2.2.1
  | unlisted q s =>
      cases hw
      exact h.2.2 ▸ hcells.minted s h.2.1
  | _ => cases hw

theorem Warrant.Sound.unlisted_of_mint {w : Warrant} (h : w.Sound cfg st)
    (hw : w.mint = some p) : st.pages p = Option.none := by
  cases w with
  | minted q =>
      cases hw
      exact h.2.1
  | fresh q s =>
      cases hw
      exact h.1
  | unlisted q s =>
      cases hw
      exact h.1
  | _ => cases hw

theorem Warrant.Sound.listed_of_lead {w : Warrant} (h : w.Sound cfg st)
    (hw : w.lead = some p) : st.pages p ≠ Option.none := by
  intro hc
  cases w with
  | leading q s =>
      cases hw
      cases hc.symm.trans h
  | evicted q s =>
      cases hw
      cases hc.symm.trans h.1
  | located q s l =>
      cases hw
      cases hc.symm.trans h.1
  | _ => cases hw

/-- The next identifier is unused. -/
theorem minted_next (h : Cells cfg st) (hstore : Storage cfg st R) :
    (Warrant.minted st.nextPid).Sound cfg { st with nextPid := st.nextPid + 1 } := by
  have hunborn := hstore.unborn st.nextPid le_rfl
  refine ⟨Nat.lt_succ_self _, ?_, hunborn.1, hunborn.2, fun s hb => Nat.ne_of_lt (h.minted s hb)⟩
  cases hp : st.pages st.nextPid with
  | none => rfl
  | some s =>
      have hlisted := h.listed _ s hp
      have hlt := h.minted s hlisted.1
      rw [hlisted.2] at hlt
      exact absurd hlt (Nat.lt_irrefl _)

/-- A new cell. -/
def Store.born (st : Store) (cell : SwipInner) : Store :=
  { st with swips := update st.swips st.nextSwip cell, nextSwip := st.nextSwip + 1 }

theorem born_self : (st.born cell).swips st.nextSwip = cell := by
  simp only [Store.born, update_self]

theorem born_other (hs : s ≠ st.nextSwip) : (st.born cell).swips s = st.swips s := by
  simp only [Store.born, update_of_ne hs]

theorem Cells.old_of_bound (h : Cells cfg st) (hb : st.Bound cfg s) : s ≠ st.nextSwip :=
  fun hc => h.unborn s (le_of_eq hc.symm) hb

theorem Cells.old_of_resides (h : Cells cfg st) {i : Nat} (hr : st.Resides cfg s i) :
    s ≠ st.nextSwip :=
  h.old_of_bound (h.occupies hr).bound

theorem Cells.born (h : Cells cfg st) (hev : cell.state = .evicted cell.pid)
    (hnew : cell.ownerId = cfg.id → cell.pid < st.nextPid ∧
      ∀ s, st.Bound cfg s → (st.swips s).pid ≠ cell.pid) : Cells cfg (st.born cell) := by
  have hbound : ∀ s, (st.born cell).Bound cfg s → s ≠ st.nextSwip → st.Bound cfg s := by
    intro s hb hs
    unfold Store.Bound at hb ⊢
    rw [born_other hs] at hb
    exact hb
  have hself : (st.born cell).Bound cfg st.nextSwip → cell.ownerId = cfg.id := by
    intro hb
    unfold Store.Bound at hb
    rw [born_self] at hb
    exact hb
  refine ⟨fun s hs hb => ?_, fun s hb => ?_, fun s s' hb hb' hp => ?_, fun q s hq => ?_,
    fun s q hq => ?_, fun s x hx => ?_, fun q s hq he => ?_, h.identifiers⟩
  · have hne : s ≠ st.nextSwip := Nat.ne_of_gt hs
    exact h.unborn s (Nat.le_of_succ_le hs) (hbound s hb hne)
  · by_cases hs : s = st.nextSwip
    · rw [hs] at hb ⊢
      rw [born_self]
      exact (hnew (hself hb)).1
    · rw [born_other hs]
      exact h.minted s (hbound s hb hs)
  · by_cases hs : s = st.nextSwip
    · by_cases hs' : s' = st.nextSwip
      · rw [hs, hs']
      · rw [hs, born_self, born_other hs'] at hp
        exact absurd hp.symm ((hnew (hself (hs ▸ hb))).2 s' (hbound s' hb' hs'))
    · by_cases hs' : s' = st.nextSwip
      · rw [hs', born_self, born_other hs] at hp
        exact absurd hp ((hnew (hself (hs' ▸ hb'))).2 s (hbound s hb hs))
      · rw [born_other hs, born_other hs'] at hp
        exact h.canonical s s' (hbound s hb hs) (hbound s' hb' hs') hp
  · have hold := h.listed q s hq
    have hs := h.old_of_bound hold.1
    unfold Store.Bound
    rw [born_other hs]
    exact hold
  · by_cases hs : s = st.nextSwip
    · rw [hs, born_self] at hq ⊢
      rw [hev] at hq
      exact (SwipState.evicted.inj hq).symm
    · rw [born_other hs] at hq ⊢
      exact h.evicted s q hq
  · have hs : s ≠ st.nextSwip := by
      intro hc
      rw [hc, born_self, hev] at hx
      exact absurd hx nofun
    rw [born_other hs] at hx
    rcases h.resident s x hx with ⟨j, hj, ho⟩
    refine ⟨j, hj, ?_, ho.index, ?_, ho.owner, ?_, ?_⟩
    · unfold Store.Bound
      rw [born_other hs]
      exact ho.bound
    · rw [born_other hs]
      exact ho.pid
    · rw [born_other hs]
      exact ho.data
    · rw [born_other hs]
      exact ho.clean
  · have hs := h.old_of_bound (h.listed q s hq).1
    rw [born_other hs] at he
    exact h.backed q s hq he

theorem Sound.born (h : Sound cfg st r) (hcells : Cells cfg st)
    (hev : cell.state = .evicted cell.pid)
    (hmint : cell.ownerId = cfg.id → r.warrant.mint ≠ some cell.pid) :
    Sound cfg (st.born cell) r := by
  have hresides : ∀ j s, st.Resides cfg s j → (st.born cell).Resides cfg s j := by
    intro j s hr
    unfold Store.Resides
    rw [born_other (hcells.old_of_resides hr)]
    exact hr
  have hbound : ∀ s, st.Bound cfg s → (st.born cell).Bound cfg s := by
    intro s hb
    unfold Store.Bound
    rw [born_other (hcells.old_of_bound hb)]
    exact hb
  have hswept : ∀ n, st.Swept cfg n → (st.born cell).Swept cfg n := by
    intro n hsw j hj s hr
    have hs : s ≠ st.nextSwip := by
      intro hc
      unfold Store.Resides at hr
      rw [hc, born_self, hev] at hr
      exact absurd hr nofun
    unfold Store.Resides at hr
    rw [born_other hs] at hr
    exact hsw j hj s hr
  refine h.of_parts (fun ht => ?_) (fun hw => ?_) (fun hp => ?_)
  · cases hc : r.tenure with
    | occupant j s l => rw [hc] at ht; exact hresides j s ht
    | writer j s => rw [hc] at ht; exact ⟨hresides j s ht.1, ht.2⟩
    | victim j q s v =>
        rw [hc] at ht
        have hs : s ≠ st.nextSwip := by
          refine hcells.old_of_resides (i := j) ?_
          unfold Store.Resides
          rw [ht.1]
          rfl
        refine ⟨by rw [born_other hs]; exact ht.1, ?_⟩
        have hv := ht.2
        cases v with
        | seen =>
            unfold Victim.Sound
            rw [born_other hs]
            exact hv
        | _ => exact hv
    | owned j x y z d => rw [hc] at ht; cases d <;> exact ht
    | _ => rw [hc] at ht; exact ht
  · have hlisted : ∀ q s, st.pages q = some s → s ≠ st.nextSwip := fun q s hq =>
      hcells.old_of_bound (hcells.listed q s hq).1
    cases hc : r.warrant with
    | handle q s =>
        rw [hc] at hw
        exact ⟨hbound s hw.1, by rw [born_other (hcells.old_of_bound hw.1)]; exact hw.2⟩
    | evicted q s =>
        rw [hc] at hw
        exact ⟨hw.1, by rw [born_other (hlisted q s hw.1)]; exact hw.2⟩
    | located q s l =>
        rw [hc] at hw
        exact ⟨hw.1, by rw [born_other (hlisted q s hw.1)]; exact hw.2.1, hw.2.2⟩
    | minted q =>
        rw [hc] at hw hmint
        refine ⟨hw.1, hw.2.1, hw.2.2.1, hw.2.2.2.1, fun s hb => ?_⟩
        by_cases hs : s = st.nextSwip
        · unfold Store.Bound at hb
          rw [hs, born_self] at hb ⊢
          exact fun hq => hmint hb (congrArg some hq.symm)
        · unfold Store.Bound at hb
          rw [born_other hs] at hb ⊢
          exact hw.2.2.2.2 s hb
    | fresh q s =>
        rw [hc] at hw
        have hs := hcells.old_of_bound hw.2.2.2.1
        refine ⟨hw.1, hw.2.1, hw.2.2.1, hbound s hw.2.2.2.1, ?_⟩
        rw [born_other hs]
        exact hw.2.2.2.2
    | unlisted q s =>
        rw [hc] at hw
        exact ⟨hw.1, hbound s hw.2.1, by rw [born_other (hcells.old_of_bound hw.2.1)]; exact hw.2.2⟩
    | _ => rw [hc] at hw; exact hw
  · cases hc : r.post with
    | flushing n =>
        rw [hc] at hp
        cases n with
        | none => exact hp
        | some n => exact ⟨hp.1, hswept n hp.2⟩
    | flushed => rw [hc] at hp; exact ⟨hp.1, hswept _ hp.2⟩
    | _ => rw [hc] at hp; exact hp

theorem Cells.list (h : Cells cfg st) (hb : st.Bound cfg s) (hp : (st.swips s).pid = p) {i : Nat}
    (hs : st.Resides cfg s i) :
    Cells cfg { st with pages := update st.pages p (some s) } where
  unborn := h.unborn
  minted := h.minted
  canonical := h.canonical
  listed := fun q s' hq => by
    by_cases hqp : q = p
    · simp only [hqp, update_self, Option.some.injEq] at hq
      rw [← hq, hqp]
      exact ⟨hb, hp⟩
    · simp only [update_of_ne hqp] at hq
      exact h.listed q s' hq
  evicted := h.evicted
  resident := fun s' x hx => by
    rcases h.resident s' x hx with ⟨j, hj, ho⟩
    exact ⟨j, hj, ho.bound, ho.index, ho.pid, ho.owner, ho.data, ho.clean⟩
  backed := fun q s' hq he => by
    by_cases hqp : q = p
    · simp only [hqp, update_self, Option.some.injEq] at hq
      rw [← hq] at he
      exact absurd he hs.not_evicted
    · simp only [update_of_ne hqp] at hq
      exact h.backed q s' hq he
  identifiers := h.identifiers

theorem Sound.list (h : Sound cfg st r) (hp : st.pages p = none)
    (hmint : r.warrant.mint ≠ some p) :
    Sound cfg { st with pages := update st.pages p (some s) } r := by
  have hkeep : ∀ q s', st.pages q = some s' → update st.pages p (some s) q = some s' := by
    intro q s' hq
    have hqp : q ≠ p := by
      intro hc
      rw [hc, hp] at hq
      exact absurd hq nofun
    rw [update_of_ne hqp, hq]
  refine h.of_parts (fun ht => ?_) (fun hw => ?_) (fun hp => hp.of_eq rfl rfl rfl)
  · cases hc : r.tenure with
    | owned j x y z d => rw [hc] at ht; cases d <;> exact ht
    | victim j q s' v =>
        rw [hc] at ht
        cases v with
        | seen => exact ht
        | exact => exact ⟨ht.1, hkeep q s' ht.2⟩
        | _ => exact ⟨ht.1, hkeep q s' ht.2.1, ht.2.2⟩
    | _ => rw [hc] at ht; exact ht
  · have hne : ∀ q, r.warrant.mint = some q → q ≠ p := fun q hq hc => hmint (hc ▸ hq)
    cases hc : r.warrant with
    | listed q s' => rw [hc] at hw; exact hkeep q s' hw
    | leading q s' => rw [hc] at hw; exact hkeep q s' hw
    | evicted q s' => rw [hc] at hw; exact ⟨hkeep q s' hw.1, hw.2⟩
    | located q s' l => rw [hc] at hw; exact ⟨hkeep q s' hw.1, hw.2⟩
    | minted q =>
        rw [hc] at hw
        refine ⟨hw.1, ?_, hw.2.2⟩
        simp only [update_of_ne (hne q (by rw [hc]; rfl))]
        exact hw.2.1
    | fresh q s' =>
        rw [hc] at hw
        refine ⟨?_, hw.2⟩
        simp only [update_of_ne (hne q (by rw [hc]; rfl))]
        exact hw.1
    | unlisted q s' =>
        rw [hc] at hw
        refine ⟨?_, hw.2⟩
        simp only [update_of_ne (hne q (by rw [hc]; rfl))]
        exact hw.1
    | _ => rw [hc] at hw; exact hw

end Birth

/-! ### Stopping -/

section Stop

variable {stopping joined : Bool}

theorem Cells.halt (h : Cells cfg st) :
    Cells cfg { st with stopping := stopping, joined := joined } where
  unborn := h.unborn
  minted := h.minted
  canonical := h.canonical
  listed := h.listed
  evicted := h.evicted
  resident := fun s x hx => by
    rcases h.resident s x hx with ⟨j, hj, ho⟩
    exact ⟨j, hj, ho.bound, ho.index, ho.pid, ho.owner, ho.data, ho.clean⟩
  backed := h.backed
  identifiers := h.identifiers

theorem Sound.halt (h : Sound cfg st r) (hs : st.stopping = true → stopping = true)
    (hj : st.joined = true → joined = true) :
    Sound cfg { st with stopping := stopping, joined := joined } r := by
  refine h.of_parts (fun ht => ?_) (fun hw => hw.of_eq rfl rfl rfl rfl rfl) (fun hp => ?_)
  · cases hc : r.tenure with
    | owned j x y z d => rw [hc] at ht; cases d <;> exact ht
    | victim j p s v => rw [hc] at ht; cases v <;> exact ht
    | _ => rw [hc] at ht; exact ht
  · cases hc : r.post with
    | flushing n =>
        rw [hc] at hp
        cases n with
        | none => exact hj hp
        | some n => exact ⟨hj hp.1, hp.2⟩
    | flushed => rw [hc] at hp; exact ⟨hj hp.1, hp.2⟩
    | stopped => rw [hc] at hp; exact hs hp
    | draining => rw [hc] at hp; exact hs hp
    | _ => rw [hc] at hp; exact hp

end Stop

end TierBuf
