import TierBuf.Pool.Acquire
import TierBuf.Pool.Process

/-!
# The Drop of a Manager

`Drop for BufferManager`.

A handle may outlive its manager, and its word may hold the address of a frame
that goes away with the manager. So the drop goes through the page table and
unswizzles every page. It writes nothing back.

It runs when nobody has the manager any more. Guards and operations borrow it,
and the background threads keep it alive while they work; what may be left are
prefetch tasks, in the channel or in the hands of a worker that drops them.
They have frames, but no page.

## Main definitions

* `SwipInner.letGo`: The loop over one page.
* `Shared.dropManager`: The drop.
* `Pc.outlives`: What may be left of an agent.

## Theorems

* `letGo_eq`: The loop goes around at most twice.
* `dropPages_spec`: The pages that have been let go.
* `drop_lets_go`: No handle of the manager is swizzled after the drop, and
  none of another manager is changed.
-/

namespace TierBuf

open Function Ledger Transition

/-! ### The function -/

/-- The loop of `drop` over one page, at most `n` times around. -/
def SwipInner.letGo (p : PageId) : Nat → SwipInner → Option SwipInner
  | 0, _ => none
  | n + 1, cell => match cell.state with
    | .hot resident => letGo p n ((cell.tryMarkCooling resident).getD cell)
    | .cooling resident => some ((cell.tryUnswizzle resident p).getD cell)
    | .evicted _ => some cell

namespace Shared

/-- The loop of `drop` over the page table, in the order in which it is
    iterated. -/
def dropPages (turns : Nat) : List PageId → Shared → Option Shared
  | [], sh => some sh
  | p :: order, sh => match sh.pages p with
    | none => dropPages turns order sh
    | some s => ((sh.swips s).letGo p turns).bind (fun cell =>
        dropPages turns order (sh.setSwip s cell))

/-- `Drop for BufferManager`, but for the notifications of the threads. -/
def dropManager (sh : Shared) (turns : Nat) (order : List PageId) : Option Shared :=
  dropPages turns order { sh with stopping := true }

end Shared

/-- The same cell, with its page evicted. -/
def SwipInner.gone (cell : SwipInner) : SwipInner := { cell with state := .evicted cell.pid }

variable {cell : SwipInner} {p : PageId} {s : SwipId} {sh : Shared}

/-! ### One page -/

theorem letGo_eq (hpid : cell.pid = p) (hevicted : ∀ q, cell.state = .evicted q → q = p)
    {turns : Nat} (hturns : 2 ≤ turns) : cell.letGo p turns = some cell.gone := by
  rcases Nat.exists_eq_add_of_le' hturns with ⟨n, rfl⟩
  rcases cell with ⟨pid, owner, state⟩
  cases hpid
  unfold SwipInner.letGo SwipInner.gone
  cases state with
  | hot resident =>
      have hmark : SwipInner.tryMarkCooling ⟨pid, owner, .hot resident⟩ resident =
          some ⟨pid, owner, .cooling resident⟩ :=
        SwipInner.compareExchange_eq_some.mpr ⟨rfl, rfl⟩
      have hunswizzle : SwipInner.tryUnswizzle ⟨pid, owner, .cooling resident⟩ resident pid =
          some ⟨pid, owner, .evicted pid⟩ :=
        SwipInner.compareExchange_eq_some.mpr ⟨rfl, rfl⟩
      dsimp only
      rw [hmark, Option.getD_some]
      unfold SwipInner.letGo
      dsimp only
      rw [hunswizzle, Option.getD_some]
  | cooling resident =>
      have hunswizzle : SwipInner.tryUnswizzle ⟨pid, owner, .cooling resident⟩ resident pid =
          some ⟨pid, owner, .evicted pid⟩ :=
        SwipInner.compareExchange_eq_some.mpr ⟨rfl, rfl⟩
      dsimp only
      rw [hunswizzle, Option.getD_some]
  | evicted q =>
      obtain rfl : q = pid := hevicted q rfl
      rfl

theorem gone_of_evicted (hnone : cell.state.resident = none)
    (hevicted : ∀ q, cell.state = .evicted q → q = cell.pid) : cell.gone = cell := by
  rcases cell with ⟨pid, owner, state⟩
  cases state with
  | hot resident => cases hnone
  | cooling resident => cases hnone
  | evicted q =>
      obtain rfl : q = pid := hevicted q rfl
      rfl

/-! ### All pages -/

/-- What the drop relies on: a listed cell is for the page that it is listed
    for, and reads as evicted only for that page. -/
def Shared.Listed (sh : Shared) : Prop :=
  ∀ p s, sh.pages p = some s → (sh.swips s).pid = p ∧
    ∀ q, (sh.swips s).state = .evicted q → q = p

theorem listed_setSwip (h : sh.Listed) : (sh.setSwip s (sh.swips s).gone).Listed := by
  intro p s' hp
  rcases h p s' hp with ⟨hpid, hevicted⟩
  by_cases hs : s' = s
  · subst hs
    rw [setSwip_self]
    refine ⟨hpid, fun q hq => ?_⟩
    cases hq
    exact hpid
  · rw [setSwip_of_ne _ hs]
    exact ⟨hpid, hevicted⟩

/-- After the loop over some pages, their cells are gone and no others. -/
structure LetGo (order : List PageId) (sh sh' : Shared) : Prop where
  stopping : sh'.stopping = sh.stopping
  gone : ∀ p ∈ order, ∀ s, sh.pages p = some s → sh'.swips s = (sh.swips s).gone
  kept : ∀ s, (∀ p ∈ order, sh.pages p ≠ some s) → sh'.swips s = sh.swips s

theorem dropPages_spec {turns : Nat} (hturns : 2 ≤ turns) (order : List PageId)
    (h : sh.Listed) : ∃ sh', sh.dropPages turns order = some sh' ∧ LetGo order sh sh' := by
  induction order generalizing sh with
  | nil => exact ⟨sh, rfl, rfl, by rintro p ⟨⟩, fun _ _ => rfl⟩
  | cons p order ih =>
      unfold Shared.dropPages
      cases hp : sh.pages p with
      | none =>
          rcases ih h with ⟨sh', hdrop, hletgo⟩
          refine ⟨sh', hdrop, hletgo.stopping, fun q hq s hs => ?_, fun s hs => ?_⟩
          · rcases List.mem_cons.mp hq with rfl | hq
            · rw [hp] at hs
              cases hs
            · exact hletgo.gone q hq s hs
          · exact hletgo.kept s (fun q hq => hs q (List.mem_cons_of_mem p hq))
      | some s =>
          rcases h p s hp with ⟨hpid, hevicted⟩
          rcases ih (listed_setSwip (s := s) h) with ⟨sh', hdrop, hletgo⟩
          dsimp only
          rw [letGo_eq hpid hevicted hturns, Option.bind_some]
          refine ⟨sh', hdrop, hletgo.stopping, fun q hq s' hs' => ?_, fun s' hs' => ?_⟩
          · by_cases hsame : s' = s
            · -- gone already, and again if it is in the rest
              subst hsame
              by_cases hmore : ∃ q ∈ order, sh.pages q = some s'
              · rcases hmore with ⟨q', hq', hs''⟩
                rw [hletgo.gone q' hq' s' hs'', setSwip_self]
                rfl
              · rw [hletgo.kept s' (fun q' hq' hs'' => hmore ⟨q', hq', hs''⟩), setSwip_self]
            · rcases List.mem_cons.mp hq with rfl | hq
              · rw [hp] at hs'
                exact absurd (Option.some.inj hs').symm hsame
              · rw [hletgo.gone q hq s' hs', setSwip_of_ne _ hsame]
          · have hne : s' ≠ s := by
              rintro rfl
              exact hs' p List.mem_cons_self hp
            rw [hletgo.kept s' (fun q hq => hs' q (List.mem_cons_of_mem p hq)),
              setSwip_of_ne _ hne]

/-! ### A manager of a process -/

/-- What may be left of an agent when nobody has the manager. -/
def Pc.outlives : Pc → Bool
  | .idle | .returned _ | .task _ _ | .checkin (.task _ _) _ _ | .unreserve _ _ _ => true
  | _ => false

section Process

variable {w : Process} {m : Manager} {cfg : Config} {v v' : PoolState}

theorem not_listing_of_outlives {pc : Pc} (h : pc.outlives = true) : pc.listing = none := by
  cases pc with
  | fill f st => cases h
  | _ => rfl

/-- What a manager sees of an own cell is the cell. -/
theorem Veiled.own (h : Veiled cfg v' v) (howner : (v.shared.swips s).ownerId = cfg.id) :
    v.shared.swips s = v'.shared.swips s := by
  rw [h.shared] at howner ⊢
  exact veil_of_owner ((veil_ownerId cfg.id_pos).mp howner)

/-- A resident cell of a manager that nobody has is listed. -/
theorem listed_of_resident (hr : Reachable (pool cfg) v) (hq : ∀ a, (v.pcs a).listing = none)
    (hres : (v.shared.swips s).state.resident ≠ none) : ∃ p, v.shared.pages p = some s := by
  rcases Option.ne_none_iff_exists'.mp hres with ⟨x, hx⟩
  rcases (inv_reachable hr).cells.resident s x hx with ⟨i, rfl, -⟩
  rcases listed_reachable hr hx with hp | ⟨a, ha⟩
  · exact ⟨_, hp⟩
  · rw [hq a] at ha
    cases ha

/-- When nobody has a manager any more, its drop ends, leaves each of its
    handles evicted, and touches no handle of another manager or of none. -/
theorem drop_lets_go (hr : Reachable process w) (hm : m ∈ w.managers)
    (hq : ∀ a, (m.state.pcs a).outlives = true) {turns : Nat} (hturns : 2 ≤ turns)
    {order : List PageId} (horder : ∀ p, m.state.shared.pages p ≠ none → p ∈ order) :
    ∃ sh', (w.view m).shared.dropManager turns order = some sh' ∧ sh'.stopping = true ∧ ∀ s,
      sh'.swips s = if (w.swips s).ownerId = m.cfg.id then (w.swips s).gone else w.swips s := by
  rcases ruled_reachable hr with ⟨n, hruled⟩
  rcases hruled.alone m hm with ⟨v, hv⟩
  have hinv := inv_reachable hv.reachable
  have hveil := hv.veiled
  have hpages : v.shared.pages = m.state.shared.pages := by
    rw [hveil.shared]
    rfl
  have hlisting : ∀ a, (v.pcs a).listing = none := by
    intro a
    rcases hveil.pcs a with hpc | ⟨-, hpc⟩
    · rw [hpc]
      exact not_listing_of_outlives (hq a)
    · rw [hpc]
      rfl
  have hlisted : ({ (w.view m).shared with stopping := true } : Shared).Listed := by
    intro p s hp
    rcases hinv.cells.listed p s ((congrFun hpages p).trans hp) with ⟨hbound, hpid⟩
    have hown : v.shared.swips s = w.swips s := hveil.own hbound
    change (v.shared.swips s).pid = p at hpid
    rw [hown] at hpid
    refine ⟨hpid, fun q hs => ?_⟩
    rw [← hpid, ← hown]
    exact hinv.cells.evicted s q ((congrArg SwipInner.state hown).trans hs)
  rcases dropPages_spec hturns order hlisted with ⟨sh', hdrop, hletgo⟩
  refine ⟨sh', hdrop, hletgo.stopping, fun s => ?_⟩
  have howner : (v.shared.swips s).ownerId = m.cfg.id ↔ (w.swips s).ownerId = m.cfg.id := by
    rw [hveil.shared]
    exact veil_ownerId m.cfg.id_pos
  by_cases hown : (w.swips s).ownerId = m.cfg.id
  · rw [if_pos hown]
    have hcell : v.shared.swips s = w.swips s := hveil.own (howner.mpr hown)
    by_cases hl : ∃ p, v.shared.pages p = some s
    · rcases hl with ⟨p, hp⟩
      rw [hpages] at hp
      refine hletgo.gone p (horder p ?_) s hp
      rw [hp]
      exact Option.some_ne_none s
    · -- a page that is not listed is not resident either
      have hnone : (v.shared.swips s).state.resident = none := by
        by_contra hres
        exact hl (listed_of_resident hv.reachable hlisting hres)
      have hevicted := hinv.cells.evicted s
      change ∀ q, (v.shared.swips s).state = .evicted q → q = (v.shared.swips s).pid at hevicted
      rw [hcell] at hnone hevicted
      refine (hletgo.kept s (fun p _ hp => hl ⟨p, (congrFun hpages p).trans hp⟩)).trans ?_
      exact (gone_of_evicted hnone hevicted).symm
  · rw [if_neg hown]
    refine hletgo.kept s (fun p _ hp => hown (howner.mp ?_))
    exact (hinv.cells.listed p s ((congrFun hpages p).trans hp)).1

/-! ### A dropped manager -/

/-- The page ids of the table are among those that were handed out. -/
theorem listed_lt (hr : Reachable process w) (hm : m ∈ w.managers)
    (hp : m.state.shared.pages p ≠ none) : p < m.state.shared.nextPid := by
  rcases ruled_reachable hr with ⟨n, hruled⟩
  rcases hruled.alone m hm with ⟨v, hv⟩
  have hinv := inv_reachable hv.reachable
  rcases Option.ne_none_iff_exists'.mp hp with ⟨s, hs⟩
  have hshared := hv.veiled.shared
  have hpages : v.shared.pages p = some s := by
    rw [hshared]
    exact hs
  rcases hinv.cells.listed p s hpages with ⟨hbound, rfl⟩
  have hlt := hinv.cells.minted s hbound
  rwa [show v.shared.store.nextPid = m.state.shared.nextPid by rw [hshared]; rfl] at hlt

/-- Agents that a run does not name do not start. -/
theorem idle_beyond {n : Nat} (hr : ReachableVia process (fun _ l => l.agents ≤ n) w) :
    ∀ m ∈ w.managers, ∀ a, n ≤ a → m.state.pcs a = .idle := by
  refine reachableVia_invariant (M := process) (I := fun w =>
    ∀ m ∈ w.managers, ∀ a, n ≤ a → m.state.pcs a = .idle) ?_ (fun w l w' _ ih hl hs => ?_) hr
  · rintro w rfl m ⟨⟩
  · cases process_next hs with
    | new hid hlimit =>
        intro m hm a ha
        rcases List.mem_append.mp hm with hm | hm
        · exact ih m hm a ha
        · rw [List.mem_singleton.mp hm]
          rfl
    | @step i b c m s hm hstep =>
        intro m' hm' a ha
        rcases List.mem_or_eq_of_mem_set hm' with hm' | rfl
        · exact ih m' hm' a ha
        · have hne : a ≠ b := by
            rintro rfl
            exact Nat.not_succ_le_self a (Nat.le_trans hl ha)
          exact ((pool_next hstep).2 a hne).trans (ih m (List.mem_of_getElem? hm) a ha)

/-- The first of two managers has allocated a page, and its guard is gone. -/
def guardDropped : List ProcessLabel :=
  [.new sampleConfig (fun _ => none), .new otherConfig (fun _ => none)] ++
    stepsOf 0 (allocation ++ [(0, { act := .drop }), (0, { act := .drop })])

/-- The page is hot, and evicted by the drop. -/
theorem drop_lets_go_hot : ∃ w m sh', Reachable process w ∧ m ∈ w.managers ∧
    (w.swips 0).state = .hot 64 ∧
    (w.view m).shared.dropManager 2 (List.range m.state.shared.nextPid) = some sh' ∧
    (sh'.swips 0).state = .evicted 0 := by
  have hrun : (execVia process (fun _ l => l.agents ≤ 1) .initial guardDropped).bind (fun w =>
      w.managers[0]?.map (fun m => decide ((w.swips 0).state = .hot 64 ∧
        (w.swips 0).ownerId = m.cfg.id ∧ (w.swips 0).pid = 0 ∧
        (m.state.pcs 0).outlives = true))) = some true := by decide +kernel
  rcases Option.bind_eq_some_iff.mp hrun with ⟨w, hw, hsees⟩
  rcases Option.map_eq_some_iff.mp hsees with ⟨m, hm, hsees⟩
  rw [decide_eq_true_eq] at hsees
  rcases hsees with ⟨hhot, howner, hpid, hout⟩
  have hvia := reachableVia_exec guardDropped _ w (ReachableVia.init rfl) hw
  have hr : Reachable process w := reachable_of_via hvia
  have hmem := List.mem_of_getElem? hm
  have hq : ∀ a, (m.state.pcs a).outlives = true := by
    intro a
    cases a with
    | zero => exact hout
    | succ a =>
        rw [idle_beyond hvia m hmem (a + 1) (Nat.le_add_left 1 a)]
        rfl
  rcases drop_lets_go hr hmem hq (Nat.le_refl 2)
    (fun p hp => List.mem_range.mpr (listed_lt hr hmem hp)) with ⟨sh', hdrop, -, hcells⟩
  refine ⟨w, m, sh', hr, hmem, hhot, hdrop, ?_⟩
  rw [hcells 0, if_pos howner]
  exact congrArg SwipState.evicted hpid

end Process

end TierBuf
