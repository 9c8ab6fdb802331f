import TierBuf.Pool.Safety

/-!
# Residency

What the invariant of a buffer manager says about frames: where a page is
resident, who has a frame, and which assertions hold.

A frame index is in the free queue, or taken out of circulation by one agent,
or the residence of one page. The agents that have taken a frame are those
between a pop of the queue and a swizzle, or between an unswizzle and a push.
All others have none, whichever way they came out of an operation, so a
failing path has always put its frame back.

No program point of a failed assertion is reachable: each of them has a role
that no agent can be in.

## Main definitions

* `sampleConfig`, `allocation`: A small manager and the run of one `allocate`.

## Theorems

* `residency_exact`: A resident word names one frame, which names the word.
* `frame_conservation`: Every frame is in exactly one place.
* `no_assertion_fires`: No assertion fails, and `try_swizzle` succeeds.
-/

namespace TierBuf

open Function Ledger Transition

variable {cfg : Config} {s : PoolState}

/-- A manager of two frames and one tier. -/
def sampleConfig : Config where
  frameCount := 2
  base := 64
  stride := 64
  frames_pos := by decide
  stride_pos := by decide
  id := 1
  id_pos := by decide
  tiers := ["nvme"]
  tiers_pos := by decide
  coolingTarget := 1
  evictionMode := .demand
  dailyAllowance := fun _ => 0

/-- Agent `a` starts `call` and takes `n` further steps. -/
def runOf (a : Agent) (call : Call) (n : Nat) : List (Agent × Choice) :=
  (a, { call := call }) :: List.replicate n (a, {})

/-- Agent `0` allocates a page and gets its guard. -/
def allocation : List (Agent × Choice) := runOf 0 .allocate 28

/-- A run of a new manager reaches a state. -/
theorem reachable_of_run {ls : List (Agent × Choice)} {budgets : Nat → Option Nat}
    (hs : exec (pool cfg) (PoolState.initial cfg budgets) ls = some s) : Reachable (pool cfg) s :=
  reachable_exec ls _ s (ReachableVia.init ⟨budgets, rfl⟩) hs

/-- The first cell is hot in the first frame. -/
theorem allocation_runs : ∃ s, exec (pool sampleConfig)
    (PoolState.initial sampleConfig (fun _ => none)) allocation = some s ∧
    (s.shared.swips 0).state = .hot 64 := by
  have hword : (exec (pool sampleConfig) (PoolState.initial sampleConfig (fun _ => none))
      allocation).map (fun s => (s.shared.swips 0).state) = some (.hot 64) := by decide +kernel
  exact Option.map_eq_some_iff.mp hword

/-! ### Where a page is resident -/

/-- A frame is the residence of at most one page. -/
theorem Inv.resident_sole {sh : Shared} {R : Agent → Role} (h : Inv cfg sh R) {w w' : SwipId}
    {i : Nat} (hw : sh.store.Resides cfg w i) (hw' : sh.store.Resides cfg w' i) : w' = w :=
  h.cells.resident_unique hw' hw

theorem residency_exact (hr : Reachable (pool cfg) s) (w : SwipId) (x : ResidentAddr)
    (hx : (s.shared.swips w).state.resident = some x) :
    ∃ i, cfg.indexOfResident x = some i ∧ s.shared.pid i = (s.shared.swips w).pid ∧
      s.shared.ownerSwip i = some w ∧ i ∉ s.shared.free ∧
      (∀ a, ((s.pcs a).role cfg).tenure.own ≠ some i) ∧
      (∀ w' x', (s.shared.swips w').state.resident = some x' →
        cfg.indexOfResident x' = some i → w' = w) ∧
      ∀ w' x', (s.shared.swips w').state.resident = some x' →
        (s.shared.swips w').pid = (s.shared.swips w).pid → w' = w ∧ x' = x := by
  have h := inv_reachable hr
  rcases h.cells.resident w x hx with ⟨i, rfl, hocc⟩
  have hresides : s.shared.store.Resides cfg w i := hx
  refine ⟨i, cfg.indexOfResident_residentAddr hocc.index, hocc.pid, hocc.owner, fun hq => ?_,
    fun a ha => ?_, fun w' x' hx' hi => ?_, fun w' x' hx' hp => ?_⟩
  · exact h.places.queued i hq w hx
  · exact (h.places.owned a i ha).2.2 w hx
  · rcases cfg.residentAddr_of_index hi with ⟨rfl, -⟩
    exact h.resident_sole hresides hx'
  · rcases h.cells.resident w' x' hx' with ⟨j, rfl, hocc'⟩
    have hw : w' = w := h.cells.canonical w' w hocc'.bound hocc.bound hp
    subst hw
    exact ⟨rfl, Option.some.inj (hx'.symm.trans hx)⟩

theorem residency_exact_allocation : ∃ s, exec (pool sampleConfig)
    (PoolState.initial sampleConfig (fun _ => none)) allocation = some s ∧
    ∃ i, sampleConfig.indexOfResident 64 = some i ∧ s.shared.ownerSwip i = some 0 := by
  rcases allocation_runs with ⟨s, hs, hword⟩
  rcases residency_exact (reachable_of_run hs) 0 64 (congrArg SwipState.resident hword) with
    ⟨i, hi, -, howner, -⟩
  exact ⟨s, hs, i, hi, howner⟩

/-! ### Where a frame is -/

/-- An agent outside the functions that move frames: it has not started, has
    returned, or has a guard. -/
def Pc.settled : Pc → Bool
  | .idle | .enter _ _ | .leave _ | .guard _ _ | .unreserve _ _ _ | .cooler _ | .shutdown _
  | .returned _ => true
  | _ => false

theorem own_of_settled {pc : Pc} (h : pc.settled = true) : (pc.role cfg).tenure.own = none := by
  cases pc with
  | enter op st => cases st <;> rfl
  | leave r => cases r <;> rfl
  | guard g st =>
      cases st with
      | writing =>
          rcases g with ⟨i, p, w, exclusive, source⟩
          cases exclusive <;> rfl
      | _ => rfl
  | unreserve running p st => cases st <;> rfl
  | returned r =>
      rcases r with _ | e | r
      · rfl
      · rfl
      · cases r <;> rfl
  | idle | cooler st | shutdown st => rfl
  | _ => cases h

/-- The places of a frame: the queue, one agent, one page. -/
inductive Place (cfg : Config) (s : PoolState) (i : Nat) : Prop where
  | queued : s.shared.free.count i = 1 → (∀ a, ((s.pcs a).role cfg).tenure.own ≠ some i) →
      (∀ w, ¬ s.shared.store.Resides cfg w i) → Place cfg s i
  | owned (a : Agent) : i ∉ s.shared.free →
      (∀ b, ((s.pcs b).role cfg).tenure.own = some i ↔ b = a) →
      (∀ w, ¬ s.shared.store.Resides cfg w i) → Place cfg s i
  | occupied (w : SwipId) : i ∉ s.shared.free →
      (∀ a, ((s.pcs a).role cfg).tenure.own ≠ some i) →
      (∀ w', s.shared.store.Resides cfg w' i ↔ w' = w) → Place cfg s i

theorem frame_conservation (hr : Reachable (pool cfg) s) :
    (∀ i, i < cfg.frameCount → Place cfg s i) ∧
      (∀ i ∈ s.shared.free, i < cfg.frameCount ∧ s.shared.freeMembership i = true) ∧
      (∀ a, (s.pcs a).settled = true → ((s.pcs a).role cfg).tenure.own = none) ∧
      ∀ a site, s.pcs a ≠ .panicked site := by
  have h := inv_reachable hr
  refine ⟨fun i hi => ?_, fun i hi => ?_, fun a ha => own_of_settled ha, fun a site hc => ?_⟩
  · rcases h.places.covered i hi with hq | ⟨a, ha⟩ | ⟨w, hw⟩
    · refine .queued (List.count_eq_one_of_mem h.queue.nodup hq) (fun a ha => ?_) ?_
      · exact (h.places.owned a i ha).2.1 hq
      · exact h.places.queued i hq
    · rcases h.places.owned a i ha with ⟨-, hq, hw⟩
      refine .owned a hq (fun b => ⟨fun hb => h.places.owner b a i hb ha, ?_⟩) hw
      rintro rfl
      exact ha
    · refine .occupied w (fun hq => h.places.queued i hq w hw) (fun a ha => ?_) (fun w' => ?_)
      · exact (h.places.owned a i ha).2.2 w hw
      · refine ⟨fun hw' => h.resident_sole hw hw', ?_⟩
        rintro rfl
        exact hw
  · have hlt := h.queue.bounded i hi
    exact ⟨hlt, (h.queue.member i hlt).mpr (.inl hi)⟩
  · have hs := (h.sound a).tenure
    rw [PoolState.roles, hc] at hs
    exact hs

/-- The allocated page has a frame, and the other frame is still queued. -/
theorem frame_conservation_allocation : ∃ s, exec (pool sampleConfig)
    (PoolState.initial sampleConfig (fun _ => none)) allocation = some s ∧
    Place sampleConfig s 0 ∧ Place sampleConfig s 1 := by
  rcases allocation_runs with ⟨s, hs, -⟩
  have h := (frame_conservation (reachable_of_run hs)).1
  exact ⟨s, hs, h 0 (by decide), h 1 (by decide)⟩

/-! ### Assertions -/

/-- An unreachable program point has an unreachable role. -/
theorem absurd_role (hr : Reachable (pool cfg) s) {a : Agent} {pc : Pc} (hc : s.pcs a = pc)
    (ht : (pc.role cfg).tenure = .absurd) : False := by
  have hs := ((inv_reachable hr).sound a).tenure
  rw [PoolState.roles, hc, ht] at hs
  exact hs

/-- The failure path of `try_swizzle`, up to `clear_unpublished_frame`. -/
def FillStage.failed : FillStage → Bool
  | .unmark _ | .failUnpin | .failClaim | .failClear _ | .failRelease => true
  | _ => false

theorem never_panicked (hr : Reachable (pool cfg) s) (a : Agent) (site : PanicSite) :
    s.pcs a ≠ .panicked site :=
  fun hc => absurd_role hr hc rfl

/-- The page a leader or an `allocate` is about to swizzle is still evicted. -/
theorem swizzle_accepts (hr : Reachable (pool cfg) s) {a : Agent} {f : Filling}
    {marker : Option PrefetchMarker} (hc : s.pcs a = .fill f (.swizzle marker)) :
    (s.shared.swips f.swip).trySwizzle f.pid (cfg.residentAddr f.index) =
      some { s.shared.swips f.swip with state := .hot (cfg.residentAddr f.index) } := by
  have h := inv_reachable hr
  have hw : f.ctx.warrant.Sound cfg s.shared.store := by
    have hs := (h.sound a).warrant
    rw [PoolState.roles, hc] at hs
    exact hs
  exact SwipInner.compareExchange_eq_some.mpr ⟨(h.fill_page hw).2.2, rfl⟩

theorem no_assertion_fires (hr : Reachable (pool cfg) s) (a : Agent) :
    (∀ site, s.pcs a ≠ .panicked site) ∧
      (∀ f st, s.pcs a = .fill f st → st.failed = false) ∧
      ∀ f marker, s.pcs a = .fill f (.swizzle marker) →
        (s.shared.swips f.swip).trySwizzle f.pid (cfg.residentAddr f.index) =
          some { s.shared.swips f.swip with state := .hot (cfg.residentAddr f.index) } := by
  refine ⟨fun site hc => absurd_role hr hc rfl, fun f st hc => ?_, fun f marker hc => ?_⟩
  · cases st with
    | unmark marker => exact (absurd_role hr hc rfl).elim
    | failUnpin => exact (absurd_role hr hc rfl).elim
    | failClaim => exact (absurd_role hr hc rfl).elim
    | failClear e => exact (absurd_role hr hc rfl).elim
    | failRelease => exact (absurd_role hr hc rfl).elim
    | _ => rfl
  · have h := inv_reachable hr
    have hw : f.ctx.warrant.Sound cfg s.shared.store := by
      have hs := (h.sound a).warrant
      rw [PoolState.roles, hc] at hs
      exact hs
    exact SwipInner.compareExchange_eq_some.mpr ⟨(h.fill_page hw).2.2, rfl⟩

theorem no_assertion_fires_allocation : ∃ s, exec (pool sampleConfig)
    (PoolState.initial sampleConfig (fun _ => none)) allocation = some s ∧
    ∀ a site, s.pcs a ≠ .panicked site := by
  rcases allocation_runs with ⟨s, hs, -⟩
  exact ⟨s, hs, fun a => (no_assertion_fires (reachable_of_run hs) a).1⟩

end TierBuf
