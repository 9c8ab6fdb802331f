import TierBuf.Pool.Occupants

/-!
# Contents

What the holder of a guard sees, and what it can rely on.

The bytes of a page move between a frame and the tiers while its Swip changes,
and a reader must not notice. It does not, because its guard is an occupant:
the Swip has been seen resident in the frame after the pin was taken, and the
invariant gives such a frame the latest bytes of the page. The latch keeps all
others from changing them while they are read.

The history records every `write_with` with the bytes it has left. What a
guard reads is compared with that, and not with a field of the manager.

## Main definitions

* `Pc.holding`: The guard in the hands of its user.
* `Pc.latching`: A guard whose latch has not been released.
* `Pc.inspects`: The frame whose bytes or dirty flag an evictor is about to
  read or to clear.
* `recordWrite`, `latestWrite`: The writes so far.

## Theorems

* `Inv.holds`: A guard is an occupant of its frame.
* `reads_latest`: A guard reads what the last `write_with` has left.
* `guard_stability`: Nothing happens to the frame of a guard.
-/

namespace TierBuf

open Function Ledger Transition

variable {cfg : Config} {sh sh' : Shared} {R : Agent → Role} {c : Choice} {a b : Agent}
  {pc pc' : Pc} {g g' : Guard}

/-! ### Guards -/

/-- The guard an operation has obtained, until its `Drop` has removed the pin. -/
def Pc.holding : Pc → Option Guard
  | .leave (.guard g) | .guard g .live | .guard g .writing => some g
  | _ => none

/-- And until the latch is released. -/
def Pc.latching : Pc → Option Guard
  | .leave (.guard g) | .guard g _ => some g
  | _ => none

/-- An agent that has dropped its guard. -/
def Pc.dropped : Pc → Bool
  | .guard _ .unpinned | .returned _ | .panicked _ => true
  | _ => false

/-- The frame whose bytes or dirty flag `evict_ticket` reads or changes in its
    next step, or which it clears. -/
def Pc.inspects : Pc → Option Nat
  | .evict _ t (.dirty _ _) | .evict _ t (.write _ _ _) | .evict _ t (.clean _)
  | .evict _ t (.redirty _) | .evict _ t (.clear _ .pid) | .evict _ t (.clear _ .owner)
  | .evict _ t (.clear _ .dirty) => some t.frameIndex
  | _ => none

theorem latching_of_holding (hg : pc.holding = some g) : pc.latching = some g := by
  cases pc with
  | leave r =>
      cases r with
      | guard g' => exact hg
      | failed e => cases hg
  | guard g' st =>
      cases st with
      | unpinned => cases hg
      | _ => exact hg
  | _ => cases hg

/-- The tenure of a guard in hand. -/
theorem holding_tenure (hg : pc.holding = some g) (hs : (pc.role cfg).tenure ≠ .absurd) :
    ((pc.role cfg).tenure = .occupant g.index g.swip (some g.isExclusive) ∨
      ((pc.role cfg).tenure = .writer g.index g.swip ∧ g.isExclusive = true)) ∧
    (pc.role cfg).warrant = .handle g.pid g.swip := by
  cases pc with
  | leave r =>
      cases r with
      | guard g' =>
          cases hg
          exact ⟨.inl rfl, rfl⟩
      | failed e => cases hg
  | guard g' st =>
      cases st with
      | live =>
          cases hg
          exact ⟨.inl rfl, rfl⟩
      | writing =>
          cases hg
          cases hexcl : g.isExclusive with
          | true =>
              refine ⟨.inr ⟨?_, rfl⟩, rfl⟩
              change Tenure.given g.isExclusive (.writer g.index g.swip) = _
              rw [hexcl]
              rfl
          | false =>
              refine absurd ?_ hs
              change Tenure.given g.isExclusive (.writer g.index g.swip) = _
              rw [hexcl]
              rfl
      | unpinned => cases hg
  | _ => cases hg

/-- The latch of a guard, until it is released. -/
theorem latching_tenure (hg : pc.latching = some g) (hs : (pc.role cfg).tenure ≠ .absurd) :
    (g.isExclusive = true ∧ (pc.role cfg).tenure.exclusive = some g.index) ∨
      (g.isExclusive = false ∧ (pc.role cfg).tenure.shared = some g.index) := by
  by_cases hheld : pc.holding = some g
  · rcases (holding_tenure hheld hs).1 with ht | ⟨ht, hexcl⟩
    · rw [ht]
      cases hexcl : g.isExclusive with
      | true => exact .inl ⟨rfl, rfl⟩
      | false => exact .inr ⟨rfl, rfl⟩
    · rw [ht]
      exact .inl ⟨hexcl, rfl⟩
  · cases pc with
    | leave r =>
        cases r with
        | guard g' => exact absurd hg hheld
        | failed e => cases hg
    | guard g' st =>
        cases st with
        | unpinned =>
            cases hg
            change (_ ∧ (Tenure.departing g.index g.isExclusive).exclusive = _) ∨
              (_ ∧ (Tenure.departing g.index g.isExclusive).shared = _)
            cases hexcl : g.isExclusive with
            | true => exact .inl ⟨rfl, rfl⟩
            | false => exact .inr ⟨rfl, rfl⟩
        | _ => exact absurd hg hheld
    | _ => cases hg

/-- An evictor looks at a frame under its exclusive latch. -/
theorem inspects_latched {i : Nat} (hi : pc.inspects = some i)
    (hs : (pc.role cfg).tenure ≠ .absurd) : (pc.role cfg).tenure.exclusive = some i := by
  cases pc with
  | evict k t st =>
      cases st with
      | dirty s old =>
          cases hi
          rfl
      | write v n err =>
          cases hi
          have hnone : v.new.isNone = true := by
            by_contra hc
            refine hs ?_
            change Tenure.given v.new.isNone _ = _
            rw [eq_false_of_ne_true hc]
            rfl
          change (Tenure.given v.new.isNone _).exclusive = _
          rw [hnone]
          rfl
      | clean v =>
          cases hi
          rfl
      | redirty v => exact absurd rfl hs
      | clear v e =>
          cases e with
          | pid | owner | dirty =>
              cases hi
              rfl
          | _ => cases hi
      | _ => cases hi
  | _ => cases hi

/-- What the invariant says of a guard in hand. -/
structure Holds (cfg : Config) (sh : Shared) (g : Guard) : Prop where
  resides : sh.store.Resides cfg g.swip g.index
  occupies : sh.store.Occupies cfg g.swip g.index
  page : (sh.swips g.swip).pid = g.pid

theorem Inv.not_absurd (h : Inv cfg sh R) (hR : R a = pc.role cfg) :
    (pc.role cfg).tenure ≠ .absurd := by
  intro hc
  have hsound := (h.sound a).tenure
  rw [hR, hc] at hsound
  exact hsound

/-- A guard is an occupant of its frame. -/
theorem Inv.holds (h : Inv cfg sh R) (hR : R a = pc.role cfg) (hg : pc.holding = some g) :
    Holds cfg sh g := by
  rcases holding_tenure hg (h.not_absurd hR) with ⟨htenure, hwarrant⟩
  have hsound := h.sound a
  rw [hR] at hsound
  have hresides : sh.store.Resides cfg g.swip g.index := by
    have ht := hsound.tenure
    rcases htenure with hocc | ⟨hwrite, -⟩
    · rw [hocc] at ht
      exact ht
    · rw [hwrite] at ht
      exact ht.1
  have hhandle := hsound.warrant
  rw [hwarrant] at hhandle
  exact ⟨hresides, h.cells.occupies hresides, hhandle.2⟩

theorem Inv.pinned (h : Inv cfg sh R) (hR : R a = pc.role cfg) (hg : pc.holding = some g) :
    (R a).tenure.pin = some g.index := by
  rw [hR]
  rcases (holding_tenure hg (h.not_absurd hR)).1 with ht | ⟨ht, -⟩ <;> rw [ht] <;> rfl

/-- Two latches on one frame are both shared. -/
theorem Inv.both_shared (h : Inv cfg sh R) (hR : R a = pc.role cfg) (hR' : R b = pc'.role cfg)
    (hab : b ≠ a) (hg : pc.latching = some g) (hg' : pc'.latching = some g')
    (hi : g'.index = g.index) : g.isExclusive = false ∧ g'.isExclusive = false := by
  have hword := h.latches g.index
  rcases latching_tenure hg (h.not_absurd hR) with ⟨-, hl⟩ | ⟨hfree, hl⟩ <;>
    rcases latching_tenure hg' (h.not_absurd hR') with ⟨-, hl'⟩ | ⟨hfree', hl'⟩ <;>
    rw [← hR] at hl <;> rw [← hR', hi] at hl'
  · exact absurd (hword.unique hl' hl) hab
  · exact absurd hl (hword.excludes hl')
  · exact absurd hl' (hword.excludes hl)
  · exact ⟨hfree, hfree'⟩

/-- No evictor looks at a frame with a latched guard. -/
theorem Inv.uninspected (h : Inv cfg sh R) (hR : R a = pc.role cfg) (hR' : R b = pc'.role cfg)
    (hab : b ≠ a) (hg : pc.latching = some g) : pc'.inspects ≠ some g.index := by
  intro hi
  have hword := h.latches g.index
  have hl' := inspects_latched hi (h.not_absurd hR')
  rw [← hR'] at hl'
  rcases latching_tenure hg (h.not_absurd hR) with ⟨-, hl⟩ | ⟨-, hl⟩ <;> rw [← hR] at hl
  · exact hab (hword.unique hl' hl)
  · exact hword.excludes hl hl'

/-! ### Reads -/

/-- The bytes under a guard only change by its own writes. -/
theorem Inv.data_step (h : Inv cfg sh R) (hR : R a = pc.role cfg) (hR' : R b = pc'.role cfg)
    (hab : b ≠ a) (hg : pc.holding = some g) {pc'' : Pc}
    (hs : sh.step cfg c b pc' = some (sh', pc'')) : sh'.data g.index = sh.data g.index := by
  by_cases hw : Field.Writer pc' .data
  · rcases hw with ⟨f, rfl⟩ | ⟨g', rfl⟩
    · -- a frame that is filled is nobody's residence
      have hne : g.index ≠ f.index := by
        intro hc
        refine h.not_own_of_resides (h.holds hR hg).resides b ?_
        rw [hR', hc]
        rfl
      rw [Shared.step, Shared.stepFill] at hs
      split at hs
      · cases hs
        exact update_of_ne hne _ _
      · split at hs <;> cases hs <;> exact update_of_ne hne _ _
      · split at hs <;> cases hs <;> exact update_of_ne hne _ _
    · have hne : g.index ≠ g'.index := by
        intro hc
        have hexcl := (h.both_shared hR hR' hab (latching_of_holding hg) rfl hc.symm).2
        have ht := h.not_absurd hR'
        change Tenure.given g'.isExclusive _ ≠ _ at ht
        rw [hexcl] at ht
        exact ht rfl
      cases hs
      exact update_of_ne hne _ _
  · have hsame : sh'.data = sh.data := step_same (f := .data) hs hw
    rw [hsame]

/-- The writes so far, with the bytes they have left. The latest is first. -/
abbrev WriteHistory := List (PageId × Page)

/-- A `write_with` is recorded when its closure returns. -/
def recordWrite (h : WriteHistory) (s : PoolState) (l : Agent × Choice) (s' : PoolState) :
    WriteHistory :=
  match s.pcs l.1 with
  | .guard g .writing => (g.pid, s'.shared.data g.index) :: h
  | _ => h

/-- A buffer manager that remembers the writes. -/
def writeHistory (cfg : Config) : System (PoolState × WriteHistory) (Agent × Choice) :=
  (pool cfg).withHistory [] recordWrite

/-- The bytes of the latest write on page `p`, and zeros if there was none. -/
def WriteHistory.latestWrite : WriteHistory → PageId → Page
  | [], _ => Page.zero
  | (q, page) :: h, p => if q = p then page else latestWrite h p

theorem latestWrite_step {s s' : PoolState} {l : Agent × Choice} {h : WriteHistory}
    (hi : ∀ p, s.shared.latest p = h.latestWrite p) (hs : (pool cfg).next s l = some s') (p : PageId) :
    s'.shared.latest p = (recordWrite h s l s').latestWrite p := by
  have hstep := (pool_next hs).1
  by_cases hw : Field.Writer (s.pcs l.1) .latest
  · rcases hw with ⟨g, hg⟩
    have hhist : recordWrite h s l s' = (g.pid, s'.shared.data g.index) :: h := by
      unfold recordWrite
      rw [hg]
    rw [hg] at hstep
    rcases Prod.mk.inj (Option.some.inj hstep) with ⟨hshared, -⟩
    rw [hhist, ← hshared, WriteHistory.latestWrite]
    dsimp only
    rw [update_self]
    by_cases hp : g.pid = p
    · rw [if_pos hp, hp, update_self]
    · rw [if_neg hp, update_of_ne (Ne.symm hp)]
      exact hi p
  · have hsame : s'.shared.latest = s.shared.latest := step_same (f := .latest) hstep hw
    have hhist : recordWrite h s l s' = h := by
      unfold recordWrite
      split
      · rename_i g hg
        exact absurd ⟨g, hg⟩ hw
      · rfl
    rw [hsame, hhist]
    exact hi p

/-- The ghost field is the latest write. -/
theorem latest_reachable {x : PoolState × WriteHistory} (hr : Reachable (writeHistory cfg) x)
    (p : PageId) : x.1.shared.latest p = x.2.latestWrite p := by
  refine history_invariant (M := pool cfg) (P := fun _ _ => True)
    (J := fun s h => ∀ p, s.shared.latest p = h.latestWrite p) ?_
    (fun s h l s' _ hi _ hs => latestWrite_step hi hs) hr p
  rintro s ⟨budgets, rfl⟩ p
  rfl

/-- A guard sees the bytes of the latest write on its page, for as long as
    nobody but its own holder takes a step on them. -/
theorem reads_latest {x : PoolState × WriteHistory} (hr : Reachable (writeHistory cfg) x)
    (hg : (x.1.pcs a).holding = some g) :
    x.1.shared.data g.index = x.2.latestWrite g.pid ∧
      ∀ l s', (pool cfg).next x.1 l = some s' → l.1 ≠ a →
        s'.shared.data g.index = x.2.latestWrite g.pid := by
  have h := inv_reachable (reachable_fst hr)
  have hholds := h.holds (role_at rfl) hg
  have hdata : x.1.shared.data g.index = x.2.latestWrite g.pid := by
    rw [← latest_reachable hr, ← hholds.page]
    exact hholds.occupies.data
  refine ⟨hdata, fun l s' hs hl => ?_⟩
  rw [← hdata]
  exact h.data_step (role_at rfl) (role_at rfl) hl hg (pool_next hs).1

/-- The first byte of a page. -/
def Page.first (page : Page) : UInt8 := page ⟨0, by decide⟩

/-- A page is filled with sevens and its guard is dropped. -/
def overwriting : List (Agent × Choice) :=
  allocation ++ [(0, { act := .write }), (0, { write := fun _ _ => 7 }), (0, { act := .drop }),
    (0, { act := .drop })]

/-- A fix of the page reads a seven. -/
theorem reads_latest_overwriting : ∃ x g, Reachable (writeHistory sampleConfig) x ∧
    (x.1.pcs 1).holding = some g ∧ (x.1.shared.data g.index).first = 7 := by
  have hrun : (exec (writeHistory sampleConfig)
      (PoolState.initial sampleConfig (fun _ => none), [])
      (overwriting ++ runOf 1 (.fix 0 (.shared .normal)) 15)).bind (fun x =>
        (x.1.pcs 1).holding.map (fun g => (x.2.latestWrite g.pid).first)) = some 7 := by decide +kernel
  rcases Option.bind_eq_some_iff.mp hrun with ⟨x, hx, hrest⟩
  rcases Option.map_eq_some_iff.mp hrest with ⟨g, hg, hseven⟩
  have hr : Reachable (writeHistory sampleConfig) x :=
    reachable_exec _ _ x (ReachableVia.init ⟨⟨_, rfl⟩, rfl⟩) hx
  refine ⟨x, g, hr, hg, ?_⟩
  rw [(reads_latest hr hg).1]
  exact hseven

/-! ### Stability -/

/-- An agent with a guard keeps it or drops it. -/
theorem holding_next (hs : sh.step cfg c a pc = some (sh', pc')) (hg : pc.holding = some g) :
    pc'.holding = some g ∨ pc'.dropped = true := by
  cases pc with
  | leave r =>
      cases r with
      | failed e => cases hg
      | guard g' =>
          cases hg
          rw [Shared.step, Shared.stepLeave] at hs
          split at hs <;> cases hs
          exact .inl rfl
  | guard g' st =>
      cases st with
      | live =>
          cases hg
          rw [Shared.step, Shared.stepGuard] at hs
          split at hs
          · cases hs
            exact .inl rfl
          · split at hs <;> cases hs
            exact .inl rfl
          · unfold Shared.unpin at hs
            split at hs <;> cases hs <;> exact .inr rfl
      | writing =>
          cases hg
          cases hs
          exact .inl rfl
      | unpinned => cases hg
  | _ => cases hg

/-- A dropped guard does not come back. -/
theorem dropped_next (hs : sh.step cfg c a pc = some (sh', pc')) (hd : pc.dropped = true) :
    pc'.dropped = true := by
  cases pc with
  | guard g' st =>
      cases st with
      | unpinned =>
          rw [Shared.step, Shared.stepGuard] at hs
          unfold Shared.unlatch at hs
          split at hs <;> cases hs <;> rfl
      | _ => cases hd
  | returned r => cases hs
  | panicked site => cases hs
  | _ => cases hd

theorem dropped_exec {s s' : PoolState} (ls : List (Agent × Choice))
    (hs : exec (pool cfg) s ls = some s') (hd : (s.pcs a).dropped = true) :
    (s'.pcs a).dropped = true := by
  induction ls generalizing s with
  | nil =>
      cases hs
      exact hd
  | cons l ls ih =>
      rw [exec] at hs
      split at hs
      · cases hs
      · rename_i s1 hnext
        refine ih hs ?_
        by_cases ha : l.1 = a
        · have hstep := (pool_next hnext).1
          rw [ha] at hstep
          exact dropped_next hstep hd
        · rw [(pool_next hnext).2 a (Ne.symm ha)]
          exact hd

theorem holding_not_dropped (hg : pc.holding = some g) : pc.dropped = false := by
  cases pc with
  | guard g' st =>
      cases st with
      | unpinned => cases hg
      | _ => rfl
  | leave r => rfl
  | _ => cases hg

/-- The generation of the frame is that of the moment the guard was obtained. -/
theorem generation_exec {s s' : PoolState} (hr : Reachable (pool cfg) s)
    (hg : (s.pcs a).holding = some g) (ls : List (Agent × Choice))
    (hs : exec (pool cfg) s ls = some s') (hg' : (s'.pcs a).holding = some g) :
    s'.shared.generation g.index = s.shared.generation g.index := by
  induction ls generalizing s with
  | nil =>
      cases hs
      rfl
  | cons l ls ih =>
      rw [exec] at hs
      split at hs
      · cases hs
      · rename_i s1 hnext
        have hstep := (pool_next hnext).1
        have h := inv_reachable hr
        have hsame : s1.shared.generation g.index = s.shared.generation g.index :=
          h.generation_of_resides (role_at rfl) hstep (h.holds (role_at rfl) hg).resides
        have hheld : (s1.pcs a).holding = some g ∨ (s1.pcs a).dropped = true := by
          by_cases ha : l.1 = a
          · rw [ha] at hstep
            exact holding_next hstep hg
          · rw [(pool_next hnext).2 a (Ne.symm ha)]
            exact .inl hg
        rcases hheld with hheld | hgone
        · rw [ih (hr.next hnext) hheld hs, hsame]
        · have hdropped := dropped_exec ls hs hgone
          rw [holding_not_dropped hg'] at hdropped
          cases hdropped

/-- Until the pin of a guard is removed its frame is not claimed and keeps its
    page, and until the latch is released nobody else has an incompatible
    guard and no evictor looks at the frame. -/
theorem guard_stability {s : PoolState} (hr : Reachable (pool cfg) s) :
    (∀ a g, (s.pcs a).holding = some g →
      (∃ n, s.shared.pinControl g.index = n + 1 ∧ n + 1 < EVICTING) ∧
      s.shared.pid g.index = g.pid ∧ s.shared.ownerSwip g.index = some g.swip ∧
      ((s.shared.swips g.swip).state = .hot (cfg.residentAddr g.index) ∨
        (s.shared.swips g.swip).state = .cooling (cfg.residentAddr g.index)) ∧
      (s.shared.swips g.swip).pid = g.pid ∧
      (∀ w, s.shared.pages g.pid = some w → w = g.swip) ∧
      ∀ ls s', exec (pool cfg) s ls = some s' → (s'.pcs a).holding = some g →
        s'.shared.generation g.index = s.shared.generation g.index) ∧
    ∀ a b g, b ≠ a → (s.pcs a).latching = some g → (s.pcs b).inspects ≠ some g.index ∧
      ∀ g', (s.pcs b).latching = some g' → g'.index = g.index →
        g.isExclusive = false ∧ g'.isExclusive = false := by
  have h := inv_reachable hr
  refine ⟨fun a g hg => ?_, fun a b g hab hg => ?_⟩
  · have hholds := h.holds (role_at rfl) hg
    refine ⟨?_, ?_, hholds.occupies.owner, ?_, hholds.page, fun w hw => ?_,
      fun ls s' => generation_exec hr hg ls⟩
    · rcases (h.pins.table g.index).shared_of_holds (h.pinned (role_at rfl) hg) with ⟨n, hn⟩
      rcases pinState_eq_shared hn with ⟨hword, hlt⟩
      exact ⟨n, hword, hword ▸ hlt⟩
    · exact hholds.occupies.pid.trans hholds.page
    · have hres : (s.shared.swips g.swip).state.resident = some (cfg.residentAddr g.index) :=
        hholds.resides
      cases hstate : (s.shared.swips g.swip).state with
      | hot x =>
          rw [hstate] at hres
          exact .inl (congrArg SwipState.hot (Option.some.inj hres))
      | cooling x =>
          rw [hstate] at hres
          exact .inr (congrArg SwipState.cooling (Option.some.inj hres))
      | evicted q =>
          rw [hstate] at hres
          cases hres
    · rcases h.cells.listed g.pid w hw with ⟨hbound, hpage⟩
      exact h.cells.canonical w g.swip hbound hholds.occupies.bound (hpage.trans hholds.page.symm)
  · exact ⟨h.uninspected (role_at rfl) (role_at rfl) hab hg,
      fun g' => h.both_shared (role_at rfl) (role_at rfl) hab hg⟩

/-- The guard of a fix, on the frame that the page has been allocated in. -/
theorem guard_stability_overwriting : ∃ s g, Reachable (pool sampleConfig) s ∧
    (s.pcs 1).holding = some g ∧ s.shared.pid g.index = g.pid ∧
    ∀ b, b ≠ 1 → (s.pcs b).inspects ≠ some g.index := by
  have hrun : (exec (pool sampleConfig) (PoolState.initial sampleConfig (fun _ => none))
      (overwriting ++ runOf 1 (.fix 0 (.shared .normal)) 15)).map (fun s =>
        (s.pcs 1).holding.isSome) = some true := by decide +kernel
  rcases Option.map_eq_some_iff.mp hrun with ⟨s, hs, hsome⟩
  rcases Option.isSome_iff_exists.mp hsome with ⟨g, hg⟩
  have hr := reachable_of_run hs
  rcases guard_stability hr with ⟨hheld, hlatched⟩
  exact ⟨s, g, hr, hg, (hheld 1 g hg).2.1,
    fun b hb => (hlatched 1 b g hb (latching_of_holding hg)).1⟩

end TierBuf
