import TierBuf.Pool.Contents

/-!
# Tier Authority

What the tiers hold of the pages that are not in a frame.

A page that is evicted, or whose frame is clean, has a location in the
directory, and the slot there has its latest bytes. Nothing happens to a slot
as long as it is named: a write takes a slot that was free, and what an
eviction frees is a slot that it holds itself, after the directory has been
pointed elsewhere. Since every slot is named or held, none is left when nobody
holds any, and a shutdown that has returned leaves every page in a tier.

## Main definitions

* `PageHistory`: The writes so far, and the pages that `allocate` has made.
* `Shared.usedBytes`: The bytes of a tier that are allocated.
* `Pc.quiet`: An agent that is in no operation.

## Theorems

* `Inv.named_slot`: A step leaves the slots in the directory alone.
* `tier_authority`: Every page is in its dirty frame or in its slot.
* `no_slot_leaks`: The directory names every slot exactly once.
* `shutdown_durable`: A shutdown loses nothing.
-/

namespace TierBuf

open Function Ledger Transition

variable {cfg : Config} {sh sh' : Shared} {R : Agent → Role} {c : Choice} {a b : Agent}
  {pc pc' : Pc} {loc : Location}

/-! ### Slots -/

/-- The slot that an eviction frees in the end is one that it holds. -/
theorem garbage_of_free {v : Eviction} {old : Location} (hold : v.old = some old)
    (hfree : some old ≠ v.replacement ∧ v.new.isSome) : v.garbage = some old := by
  have hnew : v.replacement = v.new := by
    rcases Option.isSome_iff_exists.mp hfree.2 with ⟨new, hnew⟩
    unfold Eviction.replacement
    rw [hnew, Option.some_or]
  unfold Eviction.garbage
  rw [if_pos ⟨hfree.2, by rw [hold, ← hnew]; exact hfree.1⟩, hold]

/-- A step leaves the slots in the directory alone. -/
theorem Inv.named_slot (h : Inv cfg sh R) (hR : R a = pc.role cfg)
    (hs : sh.step cfg c a pc = some (sh', pc')) {p : PageId} (hp : sh.directory p = some loc) :
    sh'.slots loc = sh.slots loc := by
  by_cases hw : Field.Writer pc .slots
  · rcases hw with ⟨k, t, v, n, err, rfl⟩ | ⟨k, t, v, rfl⟩ | ⟨k, t, v, rfl⟩
    · rw [Shared.step, Shared.stepEvict] at hs
      split at hs
      · unfold Shared.acceptWrite at hs
        -- the backend only accepts an offset that is free
        cases hfree : sh.slots ⟨n, c.offset⟩ with
        | some page =>
            rw [hfree] at hs
            cases hs
        | none =>
            rw [hfree] at hs
            cases hs
            refine update_of_ne ?_ _ _
            rintro rfl
            exact (h.storage.named p _ hp).1 hfree
      · cases hs
        rfl
    · exact absurd rfl (h.not_absurd hR)
    · rw [Shared.step, Shared.stepEvict] at hs
      split at hs
      · rename_i old hold
        split at hs
        · rename_i hfree
          cases hs
          refine update_of_ne ?_ _ _
          rintro rfl
          refine (h.storage.held a loc ?_).2.2 p hp
          rw [hR]
          exact garbage_of_free hold ⟨hfree.1, hfree.2.1⟩
        · cases hs
          rfl
      · cases hs
        rfl
  · have hsame : sh'.slots = sh.slots := step_same (f := .slots) hs hw
    rw [hsame]

/-! ### Pages -/

/-- The writes so far, and the pages and Swips that `allocate` has made. -/
structure PageHistory where
  writes : WriteHistory
  allocated : List (PageId × SwipId)

/-- A page has been made when `allocate` has listed it. -/
def recordPage (h : PageHistory) (s : PoolState) (l : Agent × Choice) (s' : PoolState) :
    PageHistory where
  writes := recordWrite h.writes s l s'
  allocated := match s.pcs l.1, s'.pcs l.1 with
    | .fill _ .insert, .leave (.guard g) => (g.pid, g.swip) :: h.allocated
    | _, _ => h.allocated

/-- A buffer manager that remembers its pages. -/
def pageHistory (cfg : Config) : System (PoolState × PageHistory) (Agent × Choice) :=
  (pool cfg).withHistory ⟨[], []⟩ recordPage

/-- What the manager knows of the history. -/
structure Recorded (sh : Shared) (h : PageHistory) : Prop where
  latest : ∀ p, sh.latest p = h.writes.latestWrite p
  listed : ∀ p w, (p, w) ∈ h.allocated ↔ sh.pages p = some w

/-- The page table has the pages that have been made. -/
theorem listed_step {s s' : PoolState} {l : Agent × Choice} {h : PageHistory}
    (hi : ∀ p w, (p, w) ∈ h.allocated ↔ s.shared.pages p = some w)
    (hs : (pool cfg).next s l = some s') (p : PageId) (w : SwipId) :
    (p, w) ∈ (recordPage h s l s').allocated ↔ s'.shared.pages p = some w := by
  have hstep := (pool_next hs).1
  by_cases hw : Field.Writer (s.pcs l.1) .pages
  · rcases hw with ⟨f, hf⟩
    rw [hf, Shared.step, Shared.stepFill] at hstep
    cases hpage : s.shared.pages f.pid with
    | some w' =>
        rw [hpage] at hstep
        rcases Prod.mk.inj (Option.some.inj hstep) with ⟨hshared, hpc⟩
        have hhist : (recordPage h s l s').allocated = h.allocated := by
          unfold recordPage
          dsimp only
          rw [hf, ← hpc]
        rw [hhist, ← hshared]
        exact hi p w
    | none =>
        rw [hpage] at hstep
        rcases Prod.mk.inj (Option.some.inj hstep) with ⟨hshared, hpc⟩
        have hhist : (recordPage h s l s').allocated = (f.pid, f.swip) :: h.allocated := by
          unfold recordPage
          dsimp only
          rw [hf, ← hpc]
        have hpages : s'.shared.pages = update s.shared.pages f.pid (some f.swip) := by
          rw [← hshared]
        rw [hhist, hpages, List.mem_cons, Prod.mk.injEq, hi p w]
        by_cases hp : p = f.pid
        · rw [hp, update_self, hpage, Option.some.injEq]
          simp only [true_and, reduceCtorEq, or_false]
          exact eq_comm
        · rw [update_of_ne hp]
          simp only [hp, false_and, false_or]
  · have hsame : s'.shared.pages = s.shared.pages := step_same (f := .pages) hstep hw
    have hhist : (recordPage h s l s').allocated = h.allocated := by
      unfold recordPage
      dsimp only
      split
      · rename_i f g hf _
        exact absurd ⟨f, hf⟩ hw
      · rfl
    rw [hhist, hsame]
    exact hi p w

theorem recorded_reachable {x : PoolState × PageHistory} (hr : Reachable (pageHistory cfg) x) :
    Recorded x.1.shared x.2 := by
  refine history_invariant (M := pool cfg) (P := fun _ _ => True)
    (J := fun s h => Recorded s.shared h) ?_ (fun s h l s' _ hi _ hs => ?_) hr
  · rintro s ⟨budgets, rfl⟩
    refine ⟨fun p => rfl, fun p w => ⟨fun hp => ?_, fun hp => ?_⟩⟩
    · cases hp
    · cases hp
  · exact ⟨latestWrite_step hi.latest hs, listed_step hi.listed hs⟩

/-- The page is evicted and its slot has the given bytes, or it is resident in
    a frame with these bytes, and in a slot as well if the frame is clean. -/
def InOrder (cfg : Config) (sh : Shared) (p : PageId) (w : SwipId) (page : Page) : Prop :=
  ((sh.swips w).state = .evicted p ∧
      ∃ loc, sh.directory p = some loc ∧ sh.slots loc = some page) ∨
    ∃ i, i < cfg.frameCount ∧ (sh.swips w).state.resident = some (cfg.residentAddr i) ∧
      sh.pid i = p ∧ sh.ownerSwip i = some w ∧ sh.data i = page ∧
      (sh.dirty i = false → ∃ loc, sh.directory p = some loc ∧ sh.slots loc = some page)

/-- Every listed page is in order. -/
theorem Inv.inOrder (h : Inv cfg sh R) {p : PageId} {w : SwipId} (hp : sh.pages p = some w) :
    InOrder cfg sh p w (sh.latest p) := by
  rcases h.cells.listed p w hp with ⟨hbound, hpid⟩
  cases hres : (sh.swips w).state.resident with
  | none =>
      have hev : (sh.swips w).state = .evicted p := by
        cases hstate : (sh.swips w).state with
        | evicted q => rw [h.cells.evicted w q hstate, ← hpid]
        | hot x =>
            rw [hstate] at hres
            cases hres
        | cooling x =>
            rw [hstate] at hres
            cases hres
      exact .inl ⟨hev, h.cells.backed p w hp hev⟩
  | some x =>
      rcases h.cells.resident w x hres with ⟨i, rfl, hocc⟩
      have hpage : (sh.store.swips w).pid = p := hpid
      have hdata := hocc.data
      have hclean := hocc.clean
      rw [hpage] at hdata hclean
      exact .inr ⟨i, hocc.index, hres, hocc.pid.trans hpid, hocc.owner, hdata, hclean⟩

/-- Every page is in its slot or in its frame with its latest bytes, and in both
    if the frame is clean; a slot that is named, or that a fault has looked up,
    is allocated, and no step changes it. -/
theorem tier_authority {x : PoolState × PageHistory} (hr : Reachable (pageHistory cfg) x) :
    (∀ p w, (p, w) ∈ x.2.allocated →
      InOrder cfg x.1.shared p w (x.2.writes.latestWrite p)) ∧
    (∀ p loc, x.1.shared.directory p = some loc → x.1.shared.slots loc ≠ none ∧
      ∀ l s', (pool cfg).next x.1 l = some s' → s'.shared.slots loc = x.1.shared.slots loc) ∧
    ∀ b p w loc, ((x.1.pcs b).role cfg).warrant = .located p w loc →
      x.1.shared.directory p = some loc ∧
        x.1.shared.slots loc = some (x.2.writes.latestWrite p) := by
  have h := inv_reachable (reachable_fst hr)
  have hrec := recorded_reachable hr
  refine ⟨fun p w hp => ?_, fun p loc hp => ⟨(h.storage.named p loc hp).1, fun l s' hs => ?_⟩,
    fun b p w loc hb => ?_⟩
  · rw [← hrec.latest p]
    exact h.inOrder ((hrec.listed p w).mp hp)
  · exact h.named_slot (role_at rfl) (pool_next hs).1 hp
  · have hw := (h.sound b).warrant
    rw [PoolState.roles, hb] at hw
    rcases hw with ⟨hpage, hev, hloc⟩
    rcases h.cells.backed p w hpage hev with ⟨loc', hloc', hslot⟩
    cases hloc.symm.trans hloc'
    rw [← hrec.latest p]
    exact ⟨hloc, hslot⟩

/-! ### Leaks -/

/-- An agent that is in no operation, perhaps with a guard or with a task that
    no worker has received. -/
def Pc.quiet : Pc → Bool
  | .idle | .returned _ | .guard _ .live | .task _ .queued => true
  | _ => false

/-- `TierBackend::used_bytes`. -/
noncomputable def Shared.usedBytes (sh : Shared) (tier : Nat) : Nat :=
  PAGE_SIZE * {offset | sh.slots ⟨tier, offset⟩ ≠ none}.ncard

theorem quiet_role (hq : pc.quiet = true) :
    (pc.role cfg).slot = none ∧ (pc.role cfg).tenure.pending = none := by
  cases pc with
  | idle => exact ⟨rfl, rfl⟩
  | returned r =>
      rcases r with _ | e | r
      · exact ⟨rfl, rfl⟩
      · exact ⟨rfl, rfl⟩
      · cases r <;> exact ⟨rfl, rfl⟩
  | guard g st =>
      cases st with
      | live => exact ⟨rfl, rfl⟩
      | _ => cases hq
  | task t st =>
      rcases t with ⟨p, w, checkout⟩
      cases st with
      | queued => cases checkout <;> exact ⟨rfl, rfl⟩
      | check => cases hq
  | _ => cases hq

/-- The slots of all tiers, tier by tier. -/
theorem ncard_slots {S : Set Location} {n : Nat} (hfin : S.Finite)
    (hbound : ∀ l ∈ S, l.tierIndex < n) :
    ∑ t ∈ Finset.range n, {offset | (⟨t, offset⟩ : Location) ∈ S}.ncard = S.ncard := by
  classical
  have hfiber : ∀ t, {offset | (⟨t, offset⟩ : Location) ∈ S}.ncard =
      (hfin.toFinset.filter (fun l => l.tierIndex = t)).card := by
    intro t
    have himage : (Location.mk t) '' {offset | (⟨t, offset⟩ : Location) ∈ S} =
        (hfin.toFinset.filter (fun l => l.tierIndex = t) : Finset Location) := by
      ext l
      simp only [Set.mem_image, Finset.coe_filter, Set.Finite.mem_toFinset]
      constructor
      · rintro ⟨offset, hmem, rfl⟩
        exact ⟨hmem, rfl⟩
      · rintro ⟨hmem, rfl⟩
        exact ⟨l.offset, hmem, rfl⟩
    have hinj : Function.Injective (Location.mk t) := by
      intro o o' ho
      exact congrArg Location.offset ho
    rw [← Set.ncard_image_of_injective _ hinj, himage, Set.ncard_coe_finset]
  rw [Set.ncard_eq_toFinset_card S hfin, Finset.sum_congr rfl (fun t _ => hfiber t)]
  refine (Finset.card_eq_sum_card_fiberwise (fun l hl => ?_)).symm
  rw [Finset.coe_range, Set.mem_Iio]
  exact hbound l ((Set.Finite.mem_toFinset hfin).mp hl)

/-- The directory names every slot exactly once, and the slots are as many as
    the pages that have ever been written back. -/
theorem no_slot_leaks {s : PoolState} (hr : Reachable (pool cfg) s)
    (hq : ∀ a, (s.pcs a).quiet = true) :
    (∀ p q loc, s.shared.directory p = some loc → s.shared.directory q = some loc → p = q) ∧
      (∀ loc, s.shared.slots loc ≠ none ↔ ∃ p, s.shared.directory p = some loc) ∧
      {loc | s.shared.slots loc ≠ none}.Finite ∧
      ∑ t ∈ Finset.range cfg.tiers.length, s.shared.usedBytes t =
        PAGE_SIZE * {p | s.shared.writtenBack p = true}.ncard := by
  have h := inv_reachable hr
  have hslots : ∀ loc, s.shared.slots loc ≠ none ↔ ∃ p, s.shared.directory p = some loc := by
    refine fun loc => ⟨fun hl => ?_, fun ⟨p, hp⟩ => (h.storage.named p loc hp).1⟩
    rcases h.storage.covered loc hl with hnamed | ⟨a, ha⟩
    · exact hnamed
    · cases (quiet_role (hq a)).1.symm.trans ha
  have hwritten : ∀ p, s.shared.writtenBack p = true ↔ ∃ loc, s.shared.directory p = some loc := by
    intro p
    rw [show s.shared.writtenBack p = true ↔ _ from h.storage.written p]
    constructor
    · rintro (hnamed | ⟨a, ha⟩)
      · exact Option.ne_none_iff_exists'.mp hnamed
      · cases (quiet_role (hq a)).2.symm.trans ha
    · rintro ⟨loc, hloc⟩
      exact .inl (Option.ne_none_iff_exists'.mpr ⟨loc, hloc⟩)
  -- the directory is a bijection between the pages and the slots
  have hbij : Set.BijOn (fun p => (s.shared.directory p).getD ⟨0, 0⟩)
      {p | s.shared.writtenBack p = true} {loc | s.shared.slots loc ≠ none} := by
    refine ⟨fun p hp => ?_, fun p hp q hpq heq => ?_, fun loc hloc => ?_⟩
    · rcases (hwritten p).mp hp with ⟨loc, hloc⟩
      exact (hslots _).mpr ⟨p, by dsimp only; rw [hloc, Option.getD_some]⟩
    · rcases (hwritten p).mp hp with ⟨loc, hloc⟩
      rcases (hwritten q).mp hpq with ⟨loc', hloc'⟩
      dsimp only at heq
      rw [hloc, hloc', Option.getD_some, Option.getD_some] at heq
      exact h.storage.injective p q loc hloc (heq ▸ hloc')
    · rcases (hslots loc).mp hloc with ⟨p, hp⟩
      exact ⟨p, (hwritten p).mpr ⟨loc, hp⟩, by dsimp only; rw [hp, Option.getD_some]⟩
  have hpages : {p | s.shared.writtenBack p = true}.Finite := by
    refine (Set.finite_lt_nat s.shared.nextPid).subset (fun p hp => ?_)
    rcases (hwritten p).mp hp with ⟨loc, hloc⟩
    by_contra hge
    cases (h.storage.unborn p (Nat.le_of_not_lt hge)).1.symm.trans hloc
  have hfin : {loc | s.shared.slots loc ≠ none}.Finite := hbij.image_eq ▸ hpages.image _
  refine ⟨h.storage.injective, hslots, hfin, ?_⟩
  have hbound : ∀ l ∈ {loc | s.shared.slots loc ≠ none}, l.tierIndex < cfg.tiers.length := by
    intro l hl
    rcases (hslots l).mp hl with ⟨p, hp⟩
    exact (h.storage.named p l hp).2
  unfold Shared.usedBytes
  rw [← Finset.mul_sum, hbij.ncard_eq, ← ncard_slots hfin hbound]
  rfl

/-! ### Shutdown -/

/-- An agent that has returned takes no further step. -/
theorem returned_exec {r : Returned} {s s' : PoolState} (ls : List (Agent × Choice))
    (hs : exec (pool cfg) s ls = some s') (ha : s.pcs a = .returned r) : s'.pcs a = .returned r := by
  induction ls generalizing s with
  | nil =>
      cases hs
      exact ha
  | cons l ls ih =>
      rw [exec] at hs
      split at hs
      · cases hs
      · rename_i s1 hnext
        refine ih hs ?_
        rcases pool_next hnext with ⟨hstep, hothers⟩
        rw [hothers a ?_]
        · exact ha
        · rintro rfl
          rw [ha] at hstep
          cases hstep

/-- A shutdown that has returned `Ok`. -/
def Pc.flushed : Pc → Bool
  | .returned (.shutdown (.ok _)) => true
  | _ => false

theorem eq_of_flushed (h : pc.flushed = true) : pc = .returned (.shutdown (.ok ())) := by
  cases pc with
  | returned r =>
      cases r with
      | shutdown r =>
          cases r with
          | ok u => rfl
          | error e => cases h
      | _ => cases h
  | _ => cases h

/-- What a shutdown that has returned `Ok` knows. -/
theorem Inv.swept (h : Inv cfg sh R) (hR : R a = (Pc.returned (.shutdown (.ok ()))).role cfg) :
    sh.store.Swept cfg cfg.frameCount := by
  have hpost := (h.sound a).post
  rw [hR] at hpost
  exact hpost.2

/-- Nobody has a guard after that. -/
theorem Inv.released (h : Inv cfg sh R) (hswept : sh.store.Swept cfg cfg.frameCount)
    (hR : R b = pc.role cfg) (g : Guard) : pc.holding ≠ some g := by
  intro hg
  have hholds := h.holds hR hg
  exact hswept g.index hholds.occupies.index g.swip hholds.resides

/-- A page that is in order has its bytes somewhere. -/
theorem InOrder.kept {p : PageId} {w : SwipId} {page : Page} (h : InOrder cfg sh p w page) :
    (∃ loc, sh.directory p = some loc ∧ sh.slots loc = some page) ∨
      ∃ i, (sh.swips w).state.resident = some (cfg.residentAddr i) ∧ sh.dirty i = true ∧
        sh.data i = page := by
  rcases h with ⟨-, hbacked⟩ | ⟨i, -, hres, -, -, hdata, hclean⟩
  · exact .inl hbacked
  · cases hdirty : sh.dirty i with
    | false => exact .inl (hclean hdirty)
    | true => exact .inr ⟨i, hres, hdirty, hdata⟩

/-- After a shutdown that has returned `Ok` every page is evicted to a slot with
    its latest bytes, and nobody ever has a guard again; after one that has
    failed every page still has its latest bytes. -/
theorem shutdown_durable {x : PoolState × PageHistory} (hr : Reachable (pageHistory cfg) x)
    {r : Except TierBufError Unit} (ha : x.1.pcs a = .returned (.shutdown r)) :
    (r = .ok () → (∀ p w, (p, w) ∈ x.2.allocated → (x.1.shared.swips w).state = .evicted p ∧
        ∃ loc, x.1.shared.directory p = some loc ∧
          x.1.shared.slots loc = some (x.2.writes.latestWrite p)) ∧
      ∀ ls s', exec (pool cfg) x.1 ls = some s' → ∀ b g, (s'.pcs b).holding ≠ some g) ∧
    ∀ p w, (p, w) ∈ x.2.allocated →
      (∃ loc, x.1.shared.directory p = some loc ∧
        x.1.shared.slots loc = some (x.2.writes.latestWrite p)) ∨
      ∃ i, (x.1.shared.swips w).state.resident = some (cfg.residentAddr i) ∧
        x.1.shared.dirty i = true ∧ x.1.shared.data i = x.2.writes.latestWrite p := by
  have hpool := reachable_fst hr
  have h := inv_reachable hpool
  have hrec := recorded_reachable hr
  have horder : ∀ p w, (p, w) ∈ x.2.allocated →
      InOrder cfg x.1.shared p w (x.2.writes.latestWrite p) := by
    intro p w hp
    rw [← hrec.latest p]
    exact h.inOrder ((hrec.listed p w).mp hp)
  refine ⟨?_, fun p w hp => (horder p w hp).kept⟩
  rintro rfl
  refine ⟨fun p w hp => ?_, fun ls s' hs b g => ?_⟩
  · rcases horder p w hp with hev | ⟨i, hi, hres, -⟩
    · exact hev
    · exact absurd hres (h.swept (role_at ha) i hi w)
  · have h' := inv_reachable (reachable_exec ls _ s' hpool hs)
    exact h'.released (h'.swept (role_at (returned_exec ls hs ha))) (role_at rfl) g

/-- A page is written and the manager is shut down. -/
def shuttingDown : List (Agent × Choice) := overwriting ++ runOf 1 .shutdown 48

theorem shuttingDown_runs : ∃ x, Reachable (pageHistory sampleConfig) x ∧
    x.1.pcs 1 = .returned (.shutdown (.ok ())) ∧ x.2.allocated = [(0, 0)] ∧
    (x.2.writes.latestWrite 0).first = 7 ∧ ∀ a, (x.1.pcs a).quiet = true := by
  have hrun : (exec (pageHistory sampleConfig)
      (PoolState.initial sampleConfig (fun _ => none), ⟨[], []⟩) shuttingDown).map (fun x =>
        ((x.1.pcs 1).flushed, x.2.allocated, (x.2.writes.latestWrite 0).first,
          (x.1.pcs 0).quiet)) = some (true, [(0, 0)], 7, true) := by decide +kernel
  rcases Option.map_eq_some_iff.mp hrun with ⟨x, hx, hsees⟩
  simp only [Prod.mk.injEq] at hsees
  rcases hsees with ⟨hflushed, hallocated, hseven, hquiet⟩
  have hpc := eq_of_flushed hflushed
  refine ⟨x, reachable_exec _ _ x (ReachableVia.init ⟨⟨_, rfl⟩, rfl⟩) hx, hpc, hallocated, hseven,
    fun a => ?_⟩
  by_cases h0 : a = 0
  · rw [h0]
    exact hquiet
  · by_cases h1 : a = 1
    · rw [h1, hpc]
      rfl
    · have hidle : x.1.pcs a = .idle := by
        refine exec_others shuttingDown _ _ (fun l hl => ?_) (exec_fst _ _ _ hx)
        have hagents : ∀ l ∈ shuttingDown, l.1 = 0 ∨ l.1 = 1 := by decide +kernel
        rcases hagents l hl with hl | hl <;> rw [hl]
        · exact Ne.symm h0
        · exact Ne.symm h1
      rw [hidle]
      rfl

/-- The page and its slot after the shutdown. -/
theorem tier_authority_shuttingDown : ∃ x, Reachable (pageHistory sampleConfig) x ∧
    InOrder sampleConfig x.1.shared 0 0 (x.2.writes.latestWrite 0) := by
  rcases shuttingDown_runs with ⟨x, hr, -, hallocated, -⟩
  refine ⟨x, hr, (tier_authority hr).1 0 0 ?_⟩
  rw [hallocated]
  exact List.mem_singleton_self _

theorem no_slot_leaks_shuttingDown : ∃ s, Reachable (pool sampleConfig) s ∧
    ∑ t ∈ Finset.range 1, s.shared.usedBytes t =
      PAGE_SIZE * {p | s.shared.writtenBack p = true}.ncard := by
  rcases shuttingDown_runs with ⟨x, hr, -, -, -, hquiet⟩
  exact ⟨x.1, reachable_fst hr, (no_slot_leaks (reachable_fst hr) hquiet).2.2.2⟩

/-- The sevens are in a slot. -/
theorem shutdown_durable_shuttingDown : ∃ x page, Reachable (pageHistory sampleConfig) x ∧
    (∃ loc, x.1.shared.directory 0 = some loc ∧ x.1.shared.slots loc = some page) ∧
    page.first = 7 := by
  rcases shuttingDown_runs with ⟨x, hr, hpc, hallocated, hseven, -⟩
  refine ⟨x, _, hr, (((shutdown_durable hr hpc).1 rfl).1 0 0 ?_).2, hseven⟩
  rw [hallocated]
  exact List.mem_singleton_self _

end TierBuf
