import TierBuf.Pool.Evicting

/-!
# Filling

What turns a reserved frame into the residence of a page keeps the invariant.

The frame is filled in steps, and the draft in the role of the agent records
which of them are done. When the word of the page becomes resident the draft
is complete, and the warrant of the agent says that nobody else can have made
the page resident in the meantime.

## Theorems

* `Inv.stepMint`, `Inv.stepBind`: The new identifier and cell of `allocate`.
* `Inv.fillWrite`, `Inv.fillSwizzle`, `Inv.fillRevalidate`: The steps on the page.
* `Inv.stepFill`: All of it.
-/

namespace TierBuf

open Function Ledger

variable {cfg : Config} {sh : Shared} {c : Choice} {R : Agent → Role} {a : Agent} {f : Filling}
  {st : Store}

/-! ### A new page -/

theorem Inv.stepMint {i : Nat} (h : Inv cfg sh R) (hR : R a = (Pc.mint i).role cfg) :
    Keeps cfg R a (sh.stepMint i) := by
  have hs := h.sound a
  rw [hR] at hs
  unfold Shared.stepMint
  split
  · next hmax =>
    exact h.mint hR hmax ⟨trivial, minted_next h.cells h.storage, trivial, fun _ => rfl, nofun,
      nofun, trivial⟩ rfl rfl rfl ⟨rfl, id⟩
  · exact h.retreat hR (.plain trivial trivial trivial rfl trivial) ⟨rfl, rfl⟩ rfl rfl rfl
      ⟨rfl, nofun⟩

theorem Inv.stepBind {i : Nat} {p : PageId} (h : Inv cfg sh R)
    (hR : R a = (Pc.bind i p).role cfg) : Keeps cfg R a (sh.stepBind cfg i p) := by
  have hs := h.sound a
  rw [hR] at hs
  have hminted := hs.warrant
  have hcell : (SwipInner.fromPid p).tryBindOwner cfg.id =
      some { SwipInner.fromPid p with ownerId := cfg.id } := rfl
  unfold Shared.stepBind
  rw [hcell]
  refine h.born hR rfl (fun _ => rfl) ⟨trivial, ?_, trivial, fun _ => rfl, nofun, nofun, trivial⟩ rfl rfl
  have hself : (sh.store.born { SwipInner.fromPid p with ownerId := cfg.id }).swips sh.nextSwip =
      { SwipInner.fromPid p with ownerId := cfg.id } := born_self
  refine ⟨hminted.2.1, hminted.2.2.1, hminted.2.2.2.1, ?_⟩
  unfold Store.Bound
  rw [hself]
  exact ⟨rfl, rfl, rfl⟩

/-! ### The page of a warrant -/

/-- The page that is filled belongs to the manager and is evicted. -/
theorem Inv.fill_page (h : Inv cfg sh R) (hw : f.ctx.warrant.Sound cfg sh.store) :
    sh.store.Bound cfg f.swip ∧ (sh.swips f.swip).pid = f.pid ∧
      (sh.swips f.swip).state = .evicted f.pid := by
  rcases f with ⟨ctx, index⟩
  cases ctx with
  | allocate p s => exact ⟨hw.2.2.2.1, hw.2.2.2.2.1, hw.2.2.2.2.2⟩
  | demand k loc g =>
      have hlisted := h.cells.listed _ _ hw.1
      exact ⟨hlisted.1, hlisted.2, hw.2.1⟩
  | prefetch p s loc g =>
      have hlisted := h.cells.listed _ _ hw.1
      exact ⟨hlisted.1, hlisted.2, hw.2.1⟩

/-- The bytes that a located page is filled with. -/
theorem Inv.read_located {p : PageId} {s : SwipId} {loc : Location} (h : Inv cfg sh R)
    (hw : (Warrant.located p s loc).Sound cfg sh.store) (garbage : Page) :
    sh.readSlot loc garbage = sh.latest p := by
  rcases h.cells.backed p s hw.1 hw.2.1 with ⟨l, hl, hslot⟩
  have hloc : l = loc := Option.some.inj (hl.symm.trans hw.2.2)
  unfold Shared.readSlot
  rw [← hloc, show sh.slots l = some (sh.latest p) from hslot]
  rfl

/-- A draft is of the page of its warrant. -/
theorem Filling.draft_warrant (d : Draft) (hp : d.pid = f.pid) (hs : d.swip = f.swip) :
    (∃ loc, f.ctx.warrant = .located d.pid d.swip loc) ∨ f.ctx.warrant = .fresh d.pid d.swip := by
  rw [hp, hs]
  rcases f with ⟨ctx, index⟩
  cases ctx with
  | allocate p s => exact .inr rfl
  | demand k loc g => exact .inl ⟨loc, rfl⟩
  | prefetch p s loc g => exact .inl ⟨loc, rfl⟩

theorem FillCtx.active_post {k : FillCtx} : k.post.active = true := by
  cases k <;> rfl

/-- A filling agent with a draft. -/
theorem Filling.sound {t : Tenure} (hw : f.ctx.warrant.Sound cfg st) (hp : f.ctx.post.Sound cfg st)
    (ht : t.Sound cfg st) {filled owned named dirtied : Bool}
    (hd : (t.draft, t.newSlot) = (some (f.draft filled owned named dirtied), none)) :
    Sound cfg st (f.role t) where
  tenure := ht
  warrant := hw
  post := hp
  active := fun _ => FillCtx.active_post
  draft := fun d hc => by
    have hdraft : some (f.draft filled owned named dirtied) = some d :=
      (congrArg Prod.fst hd).symm.trans hc
    cases hdraft
    exact Filling.draft_warrant _ rfl rfl
  slot := fun _ hl => by cases (congrArg Prod.snd hd).symm.trans hl
  checked := trivial

/-! ### The frame -/

theorem Inv.fillWrite (h : Inv cfg sh R) (hR : R a = (Pc.fill f .write).role cfg) :
    Keeps cfg R a (sh.stepFill cfg c f .write) := by
  have hs := h.sound a
  rw [hR] at hs
  -- the bytes are those of the page
  have hfill : ∀ page, page = sh.latest f.pid → Keeps cfg R a
      (some ({ sh with data := update sh.data f.index page }, .fill f .unlock)) := by
    intro page hpage
    have hdata : update sh.data f.index page f.index = sh.latest f.pid := by
      rw [update_self, hpage]
    exact h.scribble hR rfl (Filling.sound (hs.warrant.of_eq rfl rfl rfl rfl rfl)
      (hs.post.of_eq rfl rfl rfl) ⟨fun _ => hdata, nofun, nofun, nofun⟩ rfl)
      (fun j hj => by rw [update_of_ne hj]) rfl rfl
  have hfail : ∀ page e, f.ctx.allocates = false → Keeps cfg R a
      (some ({ sh with data := update sh.data f.index page }, .fill f (.abort e))) := by
    intro page e hctx
    have hbare : Sound cfg { sh.store with data := update sh.data f.index page }
        { f.role .none with checked := f.ctx.allocates = false } :=
      ⟨trivial, hs.bare.warrant, hs.bare.post, hs.active, nofun, nofun, hctx⟩
    exact h.scribble hR rfl (hbare.hold rfl trivial rfl) (fun j hj => by rw [update_of_ne hj]) rfl rfl
  rcases f with ⟨ctx, index⟩
  cases ctx with
  | allocate p s => exact hfill _ hs.warrant.2.2.1.symm
  | demand k loc g =>
      dsimp only [Shared.stepFill]
      split
      · exact hfill _ (h.read_located hs.warrant _)
      · exact hfail _ _ rfl
  | prefetch p s loc g =>
      dsimp only [Shared.stepFill]
      split
      · exact hfill _ (h.read_located hs.warrant _)
      · exact hfail _ _ rfl

/-- The stages that only touch the frame. -/
theorem Inv.fillInstall {st : FillStage} (h : Inv cfg sh R) (hR : R a = (Pc.fill f st).role cfg)
    (hst : st = .owner ∨ st = .clean ∨ st = .pid ∨ st = .dirty) :
    Keeps cfg R a (sh.stepFill cfg c f st) := by
  have hs := h.sound a
  rw [hR] at hs
  rcases hst with rfl | rfl | rfl | rfl
  · have howner : update sh.ownerSwip f.index (some f.swip) f.index = some f.swip :=
      update_self _ _ _
    exact h.scribble hR rfl (Filling.sound (hs.warrant.of_eq rfl rfl rfl rfl rfl)
      (hs.post.of_eq rfl rfl rfl) ⟨hs.tenure.1, fun _ => howner, nofun, nofun⟩ rfl)
      (fun j hj => by rw [update_of_ne hj]) rfl rfl
  · exact h.scribble hR rfl (Filling.sound (hs.warrant.of_eq rfl rfl rfl rfl rfl)
      (hs.post.of_eq rfl rfl rfl) ⟨hs.tenure.1, hs.tenure.2.1, nofun, nofun⟩ rfl)
      (fun j hj => by rw [update_of_ne hj]) rfl rfl
  · have hnamed : update sh.pid f.index f.pid f.index = f.pid := update_self _ _ _
    exact h.scribble hR rfl (Filling.sound (hs.warrant.of_eq rfl rfl rfl rfl rfl)
      (hs.post.of_eq rfl rfl rfl) ⟨hs.tenure.1, hs.tenure.2.1, fun _ => hnamed, nofun⟩ rfl)
      (fun j hj => by rw [update_of_ne hj]) rfl rfl
  · have hdirty : update sh.dirty f.index true f.index = true := update_self _ _ _
    exact h.scribble hR rfl (Filling.sound (hs.warrant.of_eq rfl rfl rfl rfl rfl)
      (hs.post.of_eq rfl rfl rfl)
      ⟨hs.tenure.1, hs.tenure.2.1, hs.tenure.2.2.1, fun _ => hdirty⟩ rfl)
      (fun j hj => by rw [update_of_ne hj]) rfl rfl

/-! ### Publication -/

/-- A complete draft is ready to be the residence of its page. -/
theorem Inv.fill_occupies (h : Inv cfg sh R) (ho : (R a).tenure.own = some f.index)
    (hw : f.ctx.warrant.Sound cfg sh.store)
    (hd : (f.draft true true true f.ctx.allocates).Sound sh.store f.index) :
    sh.store.Occupies cfg f.swip f.index := by
  rcases h.fill_page hw with ⟨hbound, hpid, hevicted⟩
  refine ⟨hbound, (h.places.owned a f.index ho).1, ?_, hd.2.1 rfl, ?_, fun hclean => ?_⟩
  · exact (hd.2.2.1 rfl).trans hpid.symm
  · exact (hd.1 rfl).trans (congrArg sh.latest hpid.symm)
  · have hback : ∀ s, sh.pages f.pid = some s → (sh.swips s).state = .evicted f.pid →
        sh.store.Backed (sh.swips f.swip).pid := by
      intro s hs he
      exact hpid.symm ▸ h.cells.backed f.pid s hs he
    rcases f with ⟨ctx, index⟩
    cases ctx with
    | allocate p s => exact absurd (hclean.symm.trans (hd.2.2.2 rfl)) nofun
    | demand k loc g => exact hback _ hw.1 hw.2.1
    | prefetch p s loc g => exact hback _ hw.1 hw.2.1

theorem Inv.fillSwizzle {marker : Option PrefetchMarker} (h : Inv cfg sh R)
    (hR : R a = (Pc.fill f (.swizzle marker)).role cfg) :
    Keeps cfg R a (sh.stepFill cfg c f (.swizzle marker)) := by
  have hs := h.sound a
  rw [hR] at hs
  rcases h.fill_page hs.warrant with ⟨hbound, hpid, hevicted⟩
  have hocc := h.fill_occupies (by rw [hR]; rfl) hs.warrant hs.tenure
  have hcell : (sh.swips f.swip).trySwizzle f.pid (cfg.residentAddr f.index) =
      some { sh.swips f.swip with state := .hot (cfg.residentAddr f.index) } :=
    SwipInner.compareExchange_eq_some.mpr ⟨hevicted, rfl⟩
  dsimp only [Shared.stepFill]
  rw [hcell]
  rcases f with ⟨ctx, index⟩
  cases ctx with
  | allocate p s =>
      have hresides : (sh.store.setState s (.hot (cfg.residentAddr index))).Resides cfg s index :=
        congrArg SwipState.resident setState_self
      have hunlisted : (Warrant.unlisted p s).Sound cfg
          (sh.store.setState s (.hot (cfg.residentAddr index))) :=
        ⟨hs.warrant.1, (setState_bound s).mpr hbound, (setState_pid s).trans hpid⟩
      exact h.swizzle hR hocc hevicted (.inr rfl) rfl
        ⟨hresides, hunlisted, trivial, fun _ => rfl, nofun, nofun, rfl⟩ rfl rfl rfl rfl rfl
  | demand k loc g =>
      exact h.swizzle hR hocc hevicted (.inl rfl) rfl
        ⟨trivial, hs.warrant.1, trivial, fun _ => rfl, nofun, nofun, trivial⟩ rfl rfl rfl rfl rfl
  | prefetch p s loc g =>
      exact h.swizzle hR hocc hevicted (.inl rfl) rfl
        ⟨trivial, hs.warrant.1, trivial, fun _ => rfl, nofun, nofun, trivial⟩ rfl rfl rfl rfl rfl

/-- The residence that `allocate` has made. -/
theorem Inv.allocated_occupies (h : Inv cfg sh R) (hk : f.ctx.allocates = true)
    (hw : f.ctx.settled.Sound cfg sh.store) (hr : sh.store.Resides cfg f.swip f.index) :
    sh.ownerSwip f.index = some f.swip ∧ sh.pid f.index = f.pid ∧ sh.pages f.pid = none := by
  have hocc := h.cells.occupies hr
  rcases f with ⟨ctx, index⟩
  cases ctx with
  | allocate p s => exact ⟨hocc.owner, hocc.pid.trans hw.2.2, hw.1⟩
  | demand k loc g => cases hk
  | prefetch p s loc g => cases hk

theorem Inv.fillRevalidate {st : FillStage} {b : Bool} (h : Inv cfg sh R)
    (hR : R a = (Pc.fill f st).role cfg)
    (hst : st = .exactState ∨ st = .exactOwner b ∨ st = .exactPid b ∨ st = .insert) :
    Keeps cfg R a (sh.stepFill cfg c f st) := by
  have hs := h.sound a
  rw [hR] at hs
  rcases hst with rfl | rfl | rfl | rfl
  · have hresides : (sh.swips f.swip).state.resident = some (cfg.residentAddr f.index) := hs.tenure
    dsimp only [Shared.stepFill]
    rw [decide_eq_true hresides]
    exact h.stay hR
  · cases b with
    | false => exact hs.tenure.elim
    | true =>
        rcases h.allocated_occupies hs.checked hs.warrant hs.tenure with ⟨howner, -, -⟩
        dsimp only [Shared.stepFill]
        rw [if_pos rfl, decide_eq_true howner]
        exact h.stay hR
  · cases b with
    | false => exact hs.tenure.elim
    | true =>
        rcases h.allocated_occupies hs.checked hs.warrant hs.tenure with ⟨-, hpid, -⟩
        dsimp only [Shared.stepFill]
        rw [if_pos ⟨hpid, rfl⟩]
        exact h.stay hR
  · rcases h.allocated_occupies hs.checked hs.warrant hs.tenure with ⟨-, -, hfree⟩
    rcases f with ⟨ctx, index⟩
    cases ctx with
    | demand k loc g => cases hs.checked
    | prefetch p s loc g => cases hs.checked
    | allocate p s =>
        dsimp only [Shared.stepFill]
        rw [show sh.pages (Filling.pid ⟨.allocate p s, index⟩) = none from hfree]
        have hlisted := hs.warrant
        exact h.list hR hlisted.2.1 hlisted.2.2 hs.tenure hfree
          (.plain hs.tenure ⟨hlisted.2.1, hlisted.2.2⟩ trivial rfl trivial) rfl rfl rfl rfl ⟨rfl, id⟩

/-! ### The whole function -/

theorem Inv.stepFill {st : FillStage} (h : Inv cfg sh R) (hR : R a = (Pc.fill f st).role cfg) :
    Keeps cfg R a (sh.stepFill cfg c f st) := by
  have hs := h.sound a
  rw [hR] at hs
  cases st with
  | lock => exact h.lock hR (hs.hold rfl trivial rfl) rfl rfl rfl rfl
  | write => exact h.fillWrite hR
  | abort e =>
      rcases f with ⟨ctx, index⟩
      cases ctx with
      | allocate p s => cases hs.checked
      | demand k loc g =>
          exact h.unlock hR ⟨trivial, hs.warrant.1, trivial, fun _ => rfl, nofun, nofun, trivial⟩ rfl rfl rfl rfl
      | prefetch p s loc g =>
          exact h.unlock hR ⟨trivial, hs.warrant.1, trivial, fun _ => rfl, nofun, nofun, trivial⟩ rfl rfl rfl rfl
  | unlock => exact h.unlock hR (Filling.sound hs.warrant hs.post hs.tenure rfl) rfl rfl rfl rfl
  | installCheck =>
      rcases h.fill_page hs.warrant with ⟨hbound, hpid, -⟩
      have hlt : f.pid < sh.nextPid := hpid ▸ h.cells.minted f.swip hbound
      have hvalid : PageId.isValid f.pid = true := by
        have hmax : sh.nextPid ≤ PageId.MAX + 1 := h.cells.identifiers
        exact decide_eq_true (Nat.le_of_lt_succ (Nat.lt_of_lt_of_le hlt hmax))
      have hword := h.pins.word_of_reserved (i := f.index) (b := a) (by rw [hR]; rfl)
      dsimp only [Shared.stepFill]
      rw [if_neg (not_not.mpr hvalid), hword]
      exact h.stay hR
  | installLock => exact h.lock hR (Filling.sound hs.warrant hs.post hs.tenure rfl) rfl rfl rfl rfl
  | owner => exact h.fillInstall hR (.inl rfl)
  | clean => exact h.fillInstall hR (.inr (.inl rfl))
  | generation => exact h.quiet hR ⟨rfl, rfl⟩
  | pid => exact h.fillInstall hR (.inr (.inr (.inl rfl)))
  | installUnlock =>
      have hunlocked : ∀ t, t = Tenure.owned f.index true false false
          (some (f.draft true true true false)) → Sound cfg sh.store (f.role t) :=
        fun t ht => ht ▸ Filling.sound hs.warrant hs.post hs.tenure rfl
      rcases f with ⟨ctx, index⟩
      cases ctx with
      | allocate p s => exact h.unlock hR (hunlocked _ rfl) rfl rfl rfl rfl
      | demand k loc g => exact h.unlock hR (hunlocked _ rfl) rfl rfl rfl rfl
      | prefetch p s loc g => exact h.unlock hR (hunlocked _ rfl) rfl rfl rfl rfl
  | dirty => exact h.fillInstall hR (.inr (.inr (.inr rfl)))
  | publish =>
      have hpublished : ∀ t, t = Tenure.published f.index
          (f.draft true true true f.ctx.allocates) → Sound cfg sh.store (f.role t) :=
        fun t ht => ht ▸ Filling.sound hs.warrant hs.post hs.tenure rfl
      rcases f with ⟨ctx, index⟩
      cases ctx with
      | allocate p s => exact h.publishPin hR (hpublished _ rfl) rfl rfl rfl
      | demand k loc g => exact h.publishPin hR (hpublished _ rfl) rfl rfl rfl
      | prefetch p s loc g => exact h.publishPin hR (hpublished _ rfl) rfl rfl rfl
  | stamp => exact h.stay hR
  | mark g => exact h.quiet hR ⟨rfl, rfl⟩
  | swizzle marker => exact h.fillSwizzle hR
  | unpin =>
      rcases f with ⟨ctx, index⟩
      cases ctx with
      | allocate p s => exact .none
      | demand k loc g => exact h.unpin hR (hs.hold rfl trivial rfl) rfl rfl rfl
      | prefetch p s loc g => exact h.unpin hR (hs.hold rfl trivial rfl) rfl rfl rfl
  | latch => exact h.lock hR (hs.hold rfl hs.tenure rfl) rfl rfl rfl rfl
  | exactState => exact h.fillRevalidate (b := true) hR (.inl rfl)
  | exactOwner b => exact h.fillRevalidate hR (.inr (.inl rfl))
  | exactPid b => exact h.fillRevalidate hR (.inr (.inr (.inl rfl)))
  | insert => exact h.fillRevalidate (b := true) hR (.inr (.inr (.inr rfl)))
  -- the swizzle has not failed
  | unmark marker => exact hs.tenure.elim
  | failUnpin => exact hs.tenure.elim
  | failClaim => exact hs.tenure.elim
  | failClear e => exact hs.tenure.elim
  | failRelease => exact hs.tenure.elim

end TierBuf
