import TierBuf.Pool.Background

/-!
# Safety

The invariant holds in every reachable state of a buffer manager.

## Main definitions

* `PoolState.roles`: The roles of all agents.

## Theorems

* `Inv.step`: Every step keeps the invariant.
* `inv_start`, `inv_initial`, `inv_next`, `inv_reachable`: The invariant over runs.
-/

namespace TierBuf

open Function Ledger Transition

variable {cfg : Config} {sh : Shared} {c : Choice} {R : Agent → Role} {a : Agent}

theorem Inv.step {pc : Pc} (h : Inv cfg sh R) (hR : R a = pc.role cfg) :
    Keeps cfg R a (sh.step cfg c a pc) := by
  cases pc with
  | idle => exact h.stepIdle hR
  | enter op st => exact h.stepEnter hR
  | fix k st => exact h.stepFix hR
  | fault k st => exact h.stepFault hR
  | acquire w st => exact h.stepAcquire hR
  | cool k st => exact h.stepCool hR
  | enqueue k i p st => exact h.stepEnqueue hR
  | evict k t st => exact h.stepEvict hR
  | mint i => exact h.stepMint hR
  | bind i p => exact h.stepBind hR
  | fill f st => exact h.stepFill hR
  | checkin k i st => exact h.stepCheckin hR
  | leave r => exact h.stepLeave hR
  | guard g st => exact h.stepGuard hR
  | submit s p st => exact h.stepSubmit hR
  | task t st => exact h.stepTask hR
  | unreserve running p st => exact h.stepUnreserve hR
  | cooler st => exact h.stepCooler hR
  | shutdown st => exact h.stepShutdown hR
  | returned r => exact .none
  | panicked site => exact .none
  | stuck k => exact .none

/-- The roles of all agents. -/
def PoolState.roles (cfg : Config) (s : PoolState) (a : Agent) : Role :=
  (s.pcs a).role cfg

/-- The role of an agent at a known program point. -/
theorem role_at {s : PoolState} {pc : Pc} (hpc : s.pcs a = pc) : s.roles cfg a = pc.role cfg := by
  rw [PoolState.roles, hpc]

theorem roles_update {s : PoolState} {pc : Pc} :
    PoolState.roles cfg { shared := sh, pcs := update s.pcs a pc } =
      update (s.roles cfg) a (pc.role cfg) :=
  comp_update (fun pc => Pc.role cfg pc) s.pcs a pc

/-- Nobody holds anything in a new manager. -/
theorem accounts_none {κ : Type*} (k : κ) :
    Accounts (.shared 0) (fun _ : Agent => none) (fun _ : Agent => none) k :=
  ⟨tally_eq_zero.mpr (fun _ => nofun), tally_eq_zero.mpr (fun _ => nofun)⟩

/-- Nobody holds anything in a new manager, whatever cells there are already:
    none of them is its own. -/
theorem inv_start {swips : SwipId → SwipInner} {n : Nat} (budgets : Nat → Option Nat)
    (hother : ∀ s, (swips s).ownerId ≠ cfg.id)
    (hevicted : ∀ s, (swips s).state = .evicted (swips s).pid) :
    Inv cfg { Shared.initial cfg budgets with swips := swips, nextSwip := n }
      ((PoolState.initial cfg budgets).roles cfg) where
  pins := ⟨accounts_none, fun _ => Nat.zero_le _⟩
  latches := accounts_none
  gate := accounts_none
  leads := ⟨fun _ => ⟨nofun, fun ⟨_, hb⟩ => by cases hb⟩, nofun⟩
  background := ⟨tally_eq_zero.mpr (fun _ => nofun), tally_eq_zero.mpr (fun _ => nofun), nofun⟩
  minter := nofun
  queue := by
    refine ⟨List.nodup_range, fun i hi => List.mem_range.mp hi, fun i hi => ?_⟩
    exact ⟨fun _ => .inl (List.mem_range.mpr hi), fun _ => rfl⟩
  places := by
    refine ⟨nofun, nofun, fun _ _ s hs => ?_, fun i hi => ?_⟩
    · cases (congrArg SwipState.resident (hevicted s)).symm.trans hs
    · exact .inl (List.mem_range.mpr hi)
  cells := by
    refine ⟨fun s _ => hother s, fun s hb => absurd hb (hother s),
      fun s _ hb => absurd hb (hother s), nofun, fun s q hq => ?_, fun s x hx => ?_, nofun, ?_⟩
    · exact (SwipState.evicted.inj ((hevicted s).symm.trans hq)).symm
    · cases (congrArg SwipState.resident (hevicted s)).symm.trans hx
    · exact Nat.zero_le _
  storage := by
    refine ⟨nofun, nofun, fun _ _ => ⟨rfl, rfl⟩, nofun, nofun, fun l hl => absurd rfl hl, fun p => ?_⟩
    refine ⟨nofun, fun hc => ?_⟩
    rcases hc with hc | ⟨b, hb⟩
    · exact absurd rfl hc
    · cases hb
  sound := fun _ => .plain trivial trivial trivial rfl trivial

theorem inv_initial (budgets : Nat → Option Nat) :
    Inv cfg (Shared.initial cfg budgets) ((PoolState.initial cfg budgets).roles cfg) :=
  inv_start budgets (fun _ hb => cfg.id_pos hb.symm) (fun _ => rfl)

theorem inv_next {s s' : PoolState} {l : Agent × Choice} (h : Inv cfg s.shared (s.roles cfg))
    (hs : (pool cfg).next s l = some s') : Inv cfg s'.shared (s'.roles cfg) := by
  rcases l with ⟨a, c⟩
  rcases Option.map_eq_some_iff.mp hs with ⟨⟨sh', pc'⟩, hstep, rfl⟩
  rw [roles_update]
  exact h.step rfl sh' pc' hstep

/-- The invariant holds in every reachable state. -/
theorem inv_reachable {s : PoolState} (hr : Reachable (pool cfg) s) :
    Inv cfg s.shared (s.roles cfg) := by
  refine reachable_invariant ?_ (fun s l s' h hs => inv_next h hs) hr
  rintro s ⟨budgets, rfl⟩
  exact inv_initial budgets

end TierBuf
