import TierBuf.Pool.Handles

/-!
# The Managers of a Process

Any number of managers, made at any time, over the Swips of one process.

A manager steps on the cells of the process, and on nothing else of the other
managers. What it sees behind the veil is a run of a manager that has the
process to itself: the steps of the others are invisible there, and a cell one
of them makes is a handle that some user has built. So every theorem about the
reachable states of `pool` holds of every manager of a process.

The user who builds that handle is an agent that has not started, and never
will. A run names finitely many agents, so there are always others.

## Main definitions

* `allocateManagerId`: The identity of a new manager.
* `Process`, `process`: The managers of a process under every schedule.
* `Process.view`: The state of one manager on the cells of the process.
* `Veiled`: The state of a manager that is alone, as another sees it.
* `Simulates`: The same, with agents in reserve.
* `twoManagers`: A run of two managers.

## Theorems

* `step_cells`: What a step does to the cells of the process.
* `Simulates.step`, `Simulates.foreign`: A step of the manager is a step of one
  that is alone, and a step of another is none, or one of the reserve.
* `manager_runs`: Behind the veil every manager is alone.
-/

namespace TierBuf

open Function Ledger Transition

variable {cfg : Config} {sh sh' : Shared} {c : Choice} {a : Agent} {pc pc' : Pc}

/-! ### The model -/

/-- `allocate_manager_id`: the identity, and what the counter holds after. -/
def allocateManagerId (current : Nat) : Except TierBufError (Nat × Nat) :=
  if current + 1 < 2 ^ 64 then .ok (current, current + 1)
  else .error (.invalidConfig "buffer-manager identity space exhausted")

/-- The same state on other cells. -/
def PoolState.onCells (s : PoolState) (swips : SwipId → SwipInner) (nextSwip : SwipId) :
    PoolState :=
  { s with shared := { s.shared with swips := swips, nextSwip := nextSwip } }

/-- A manager of the process. The cells of its state are those it saw last. -/
structure Manager where
  cfg : Config
  state : PoolState

structure Process where
  swips : SwipId → SwipInner
  nextSwip : SwipId
  nextManagerId : Nat
  managers : List Manager

/-- The state of one manager on the cells of the process. -/
def Process.view (w : Process) (m : Manager) : PoolState :=
  m.state.onCells w.swips w.nextSwip

inductive ProcessLabel where
  | new (cfg : Config) (budgets : Nat → Option Nat)
  | step (m : Nat) (a : Agent) (c : Choice)

/-- A new manager, with the identity it is given, or a step of one agent of
    one manager. -/
def Process.next (w : Process) : ProcessLabel → Option Process
  | .new cfg budgets => match allocateManagerId w.nextManagerId with
    | .error _ => none
    | .ok (id, following) => if cfg.id = id then
        some { w with
          nextManagerId := following
          managers := w.managers ++ [⟨cfg, PoolState.initial cfg budgets⟩] }
      else none
  | .step i a c => match w.managers[i]? with
    | none => none
    | some m => ((pool m.cfg).next (w.view m) (a, c)).map (fun s => { w with
        swips := s.shared.swips
        nextSwip := s.shared.nextSwip
        managers := w.managers.set i ⟨m.cfg, s⟩ })

/-- A process that has made no handle and no manager. -/
def Process.initial : Process where
  swips := fun _ => .fromPid 0
  nextSwip := 0
  nextManagerId := 1
  managers := []

def process : System Process ProcessLabel where
  init := fun w => w = .initial
  next := Process.next

/-! ### A step on the cells of the process -/

theorem touches_of_marks {s : SwipId} (h : pc.marks = some s) : pc.touches = some s := by
  cases pc with
  | fix k st => cases st <;> first | exact h | cases h
  | cool k st => cases st <;> first | exact h | cases h
  | shutdown st => cases st <;> first | exact h | cases h
  | _ => cases h

theorem touches_of_resurrects {s : SwipId} (h : pc.resurrects = some s) :
    pc.touches = some s := by
  cases pc with
  | fix k st => cases st <;> first | exact h | cases h
  | evict k t st => cases st <;> first | exact h | cases h
  | _ => cases h

/-- What a step of one manager does to the cells of all: it changes the words
    of its own cells, or makes one more. -/
inductive CellsStep (id : Nat) (swips : SwipId → SwipInner) (nextSwip : SwipId)
    (swips' : SwipId → SwipInner) : SwipId → Prop where
  | own (h : ∀ s, swips' s = swips s ∨ ((swips s).ownerId = id ∧ (swips' s).ownerId = id ∧
      (swips' s).pid = (swips s).pid)) : CellsStep id swips nextSwip swips' nextSwip
  | born (cell : SwipInner) (howner : cell.ownerId = 0 ∨ cell.ownerId = id)
      (h : swips' = update swips nextSwip cell) : CellsStep id swips nextSwip swips' (nextSwip + 1)

section Cells

variable {id k : Nat} {swips swips' : SwipId → SwipInner} {nextSwip nextSwip' : SwipId}

theorem CellsStep.unborn (h : CellsStep id swips nextSwip swips' nextSwip') (hid : id ≠ 0)
    (hfree : ∀ s, nextSwip ≤ s → swips s = .fromPid 0) (s : SwipId) (hs : nextSwip' ≤ s) :
    swips' s = .fromPid 0 := by
  cases h with
  | own h =>
      rcases h s with hsame | ⟨howner, -, -⟩
      · exact hsame.trans (hfree s hs)
      · have hzero : (swips s).ownerId = 0 := congrArg SwipInner.ownerId (hfree s hs)
        exact absurd (howner.symm.trans hzero) hid
  | born cell _ h =>
      rw [h, update_of_ne (Nat.ne_of_gt hs)]
      exact hfree s (Nat.le_of_succ_le hs)

theorem CellsStep.owners (h : CellsStep id swips nextSwip swips' nextSwip') (hid : id < k)
    (howners : ∀ s, (swips s).ownerId < k) (s : SwipId) : (swips' s).ownerId < k := by
  cases h with
  | own h =>
      rcases h s with hsame | ⟨-, howner, -⟩
      · rw [hsame]
        exact howners s
      · rw [howner]
        exact hid
  | born cell hcell h =>
      rw [h]
      by_cases hs : s = nextSwip
      · rw [hs, update_self]
        rcases hcell with hcell | hcell
        · rw [hcell]
          exact Nat.zero_lt_of_lt hid
        · rw [hcell]
          exact hid
      · rw [update_of_ne hs]
        exact howners s

end Cells

theorem step_cells (ht : Touches cfg sh pc) (hs : sh.step cfg c a pc = some (sh', pc')) :
    CellsStep cfg.id sh.swips sh.nextSwip sh'.swips sh'.nextSwip := by
  by_cases hwriter : Field.Writer pc .nextSwip
  · rcases hwriter with rfl | ⟨i, p, rfl⟩
    · rw [Shared.step, Shared.stepIdle] at hs
      cases hcall : c.call with
      | fromPid p =>
          rw [hcall] at hs
          cases hs
          exact .born (.fromPid p) (.inl rfl) rfl
      | _ =>
          rw [hcall] at hs
          dsimp only at hs
          first
            | (cases hs; exact .own (fun _ => .inl rfl))
            | (split at hs <;> cases hs; exact .own (fun _ => .inl rfl))
    · rw [Shared.step, Shared.stepBind] at hs
      split at hs
      · rename_i cell hbind
        cases hs
        cases hbind
        exact .born _ (.inr rfl) rfl
      · cases hs
        exact .own (fun _ => .inl rfl)
  · have hnext : sh'.nextSwip = sh.nextSwip := step_same hs hwriter
    have hmine : ∀ s st, pc.touches = some s → sh'.swips s = { sh.swips s with state := st } →
        (sh.swips s).ownerId = cfg.id ∧ (sh'.swips s).ownerId = cfg.id ∧
          (sh'.swips s).pid = (sh.swips s).pid := by
      intro s st htouch hcell
      have howner := ht s htouch
      rw [hcell]
      exact ⟨howner, howner, rfl⟩
    rw [hnext]
    refine .own (fun s => ?_)
    cases step_cell hs s with
    | same h => exact .inl h
    | marked hpc _ h => exact .inr (hmine s _ (touches_of_marks hpc) h)
    | resurrected hpc _ h => exact .inr (hmine s _ (touches_of_resurrects hpc) h)
    | swizzled hpc hw _ h =>
        subst hpc
        exact .inr (hmine s _ (congrArg some hw.symm) h)
    | unswizzled hpc hw _ h =>
        subst hpc
        exact .inr (hmine s _ (congrArg some hw.symm) h)
    | born hw hpc h => exact absurd hpc hwriter

/-! ### One manager among others -/

/-- The state `s` of a manager that is alone is what the manager in the state
    `v` sees. Agents that `v` has not started may have built a handle. -/
structure Veiled (cfg : Config) (v s : PoolState) : Prop where
  shared : s.shared = v.shared.veil cfg.id
  pcs : ∀ a, s.pcs a = v.pcs a ∨ v.pcs a = .idle ∧ s.pcs a = .returned .done

/-- The agents below `n` do what they do in `v`, and some of the others are
    still in reserve. -/
structure Simulates (cfg : Config) (n : Nat) (v s : PoolState) : Prop where
  reachable : Reachable (pool cfg) s
  veiled : Veiled cfg v s
  below : ∀ a, a < n → s.pcs a = v.pcs a
  reserve : ∃ b, n ≤ b ∧ ∀ a, b ≤ a → s.pcs a = .idle

section Simulation

variable {n : Nat} {v v' s : PoolState}

/-- The words an agent looks at are its manager's own. -/
theorem Veiled.touches (h : Veiled cfg v s) (hr : Reachable (pool cfg) s) (a : Agent) :
    Touches cfg v.shared (v.pcs a) := by
  intro w hw
  rcases h.pcs a with hpc | ⟨hpc, -⟩
  · rw [← hpc] at hw
    have howner := touches_reachable hr a w hw
    rw [h.shared] at howner
    exact (veil_ownerId cfg.id_pos).mp howner
  · rw [hpc] at hw
    cases hw

/-- The manager takes a step. -/
theorem Simulates.step (h : Simulates cfg n v s) (ha : a < n)
    (hs : (pool cfg).next v (a, c) = some v') : ∃ s', Simulates cfg n v' s' := by
  rcases Option.map_eq_some_iff.mp hs with ⟨⟨sh', pc'⟩, hstep, rfl⟩
  have hveiled := step_veil (h.veiled.touches h.reachable a) hstep
  rw [← h.veiled.shared, ← h.below a ha] at hveiled
  have hnext : (pool cfg).next s (a, c) = some ⟨sh'.veil cfg.id, update s.pcs a pc'⟩ := by
    change (s.shared.step cfg c a (s.pcs a)).map _ = _
    rw [hveiled]
    rfl
  refine ⟨_, h.reachable.next hnext, ⟨rfl, fun b => ?_⟩, fun b hb => ?_, ?_⟩
  · by_cases hb : b = a
    · subst hb
      dsimp only
      rw [update_self, update_self]
      exact .inl rfl
    · dsimp only
      rw [update_of_ne hb, update_of_ne hb]
      exact h.veiled.pcs b
  · by_cases hba : b = a
    · subst hba
      dsimp only
      rw [update_self, update_self]
    · dsimp only
      rw [update_of_ne hba, update_of_ne hba]
      exact h.below b hb
  · rcases h.reserve with ⟨b, hb, hidle⟩
    refine ⟨b, hb, fun d hd => ?_⟩
    have hda : d ≠ a := fun hc => absurd (ha.trans_le hb) (Nat.not_lt.mpr (hc ▸ hd))
    exact (update_of_ne hda ..).trans (hidle d hd)

/-- A word of another manager changes. -/
theorem Simulates.others (h : Simulates cfg n v s) {swips : SwipId → SwipInner}
    (hsame : ∀ w, (swips w).veil cfg.id = (v.shared.swips w).veil cfg.id) :
    Simulates cfg n (v.onCells swips v.shared.nextSwip) s := by
  refine ⟨h.reachable, ⟨?_, h.veiled.pcs⟩, h.below, h.reserve⟩
  have hshared := h.veiled.shared
  unfold Shared.veil PoolState.onCells at *
  rw [hshared]
  dsimp only
  congr 1
  funext w
  exact (hsame w).symm

/-- Somebody else makes a cell. -/
theorem Simulates.born (h : Simulates cfg n v s) {cell : SwipInner} (hcell : cell.ownerId ≠ cfg.id) :
    ∃ s', Simulates cfg n (v.onCells (update v.shared.swips v.shared.nextSwip cell)
      (v.shared.nextSwip + 1)) s' := by
  rcases h.reserve with ⟨b, hb, hidle⟩
  have hnext : (pool cfg).next s (b, { call := .fromPid cell.pid }) =
      some ⟨{ s.shared with
        swips := update s.shared.swips s.shared.nextSwip (.fromPid cell.pid)
        nextSwip := s.shared.nextSwip + 1 }, update s.pcs b (.returned .done)⟩ := by
    change (s.shared.step cfg _ b (s.pcs b)).map _ = _
    rw [hidle b (Nat.le_refl b)]
    rfl
  refine ⟨_, h.reachable.next hnext, ⟨?_, fun d => ?_⟩, fun d hd => ?_, b + 1,
    Nat.le_succ_of_le hb, fun d hd => ?_⟩
  · rw [h.veiled.shared]
    unfold Shared.veil PoolState.onCells
    dsimp only
    congr 1
    funext w
    by_cases hw : w = v.shared.nextSwip
    · rw [hw, update_self, update_self, veil_of_other hcell]
    · rw [update_of_ne hw, update_of_ne hw]
  · dsimp only
    by_cases hd : d = b
    · subst hd
      rw [update_self]
      refine .inr ⟨?_, rfl⟩
      rcases h.veiled.pcs d with hpc | ⟨hpc, -⟩
      · exact hpc.symm.trans (hidle d (Nat.le_refl d))
      · exact hpc
    · rw [update_of_ne hd]
      exact h.veiled.pcs d
  · exact (update_of_ne (Nat.ne_of_lt (hd.trans_le hb)) ..).trans (h.below d hd)
  · exact (update_of_ne (Nat.ne_of_gt hd) ..).trans (hidle d (Nat.le_of_succ_le hd))

/-- Another manager takes a step. -/
theorem Simulates.foreign (h : Simulates cfg n v s) {id : Nat} (hid : id ≠ cfg.id)
    {swips : SwipId → SwipInner} {nextSwip : SwipId}
    (hcells : CellsStep id v.shared.swips v.shared.nextSwip swips nextSwip) :
    ∃ s', Simulates cfg n (v.onCells swips nextSwip) s' := by
  cases hcells with
  | own hown =>
      refine ⟨s, h.others (fun w => ?_)⟩
      rcases hown w with hsame | ⟨howner, howner', hpid⟩
      · rw [hsame]
      · rw [veil_of_other (howner' ▸ hid), veil_of_other (howner ▸ hid), hpid]
  | born cell hcell hswips =>
      rw [hswips]
      refine h.born (fun hc => ?_)
      rcases hcell with hcell | hcell
      · exact cfg.id_pos (hc.symm.trans hcell)
      · exact hid (hcell.symm.trans hc)

/-- A new manager, over the cells there are. -/
theorem simulates_new (budgets : Nat → Option Nat) {swips : SwipId → SwipInner}
    (hother : ∀ w, (swips w).ownerId ≠ cfg.id) (k : Nat) :
    ∃ s, Simulates cfg n ((PoolState.initial cfg budgets).onCells
      (fun w => if w < k then swips w else .fromPid 0) k) s := by
  induction k with
  | zero =>
      refine ⟨PoolState.initial cfg budgets, ReachableVia.init ⟨budgets, rfl⟩,
        ⟨?_, fun _ => .inl rfl⟩, fun _ _ => rfl, n, Nat.le_refl n, fun _ _ => rfl⟩
      unfold Shared.veil PoolState.onCells PoolState.initial Shared.initial
      dsimp only
      congr 1
      funext w
      rw [if_neg (Nat.not_lt_zero w), veil_fromPid]
      rfl
  | succ k ih =>
      rcases ih with ⟨s, hs⟩
      rcases hs.born (hother k) with ⟨s', hs'⟩
      refine ⟨s', ?_⟩
      have hcells : update (fun w => if w < k then swips w else SwipInner.fromPid 0) k (swips k) =
          fun w => if w < k + 1 then swips w else SwipInner.fromPid 0 := by
        funext w
        by_cases hw : w = k
        · rw [hw, update_self, if_pos (Nat.lt_succ_self k)]
        · rw [update_of_ne hw]
          exact if_congr (by omega) rfl rfl
      rw [← hcells]
      exact hs'

end Simulation

/-! ### Runs -/

/-- A bound on the agents the label names. -/
def ProcessLabel.agents : ProcessLabel → Nat
  | .new _ _ => 0
  | .step _ a _ => a + 1

/-- A run names finitely many agents. -/
theorem exists_agents {w : Process} (hr : Reachable process w) :
    ∃ n, ReachableVia process (fun _ l => l.agents ≤ n) w := by
  induction hr with
  | init h0 => exact ⟨0, ReachableVia.init h0⟩
  | @step w w' l _ _ hs ih =>
      rcases ih with ⟨n, hn⟩
      refine ⟨max n l.agents, ReachableVia.step (hn.mono fun _ _ hl => ?_) (le_max_right _ _) hs⟩
      exact le_trans hl (le_max_left _ _)

/-- What holds of the managers of a process. -/
structure Process.Ruled (n : Nat) (w : Process) : Prop where
  unborn : ∀ s, w.nextSwip ≤ s → w.swips s = .fromPid 0
  owners : ∀ s, (w.swips s).ownerId < w.nextManagerId
  limit : w.nextManagerId < 2 ^ 64
  identities : ∀ m ∈ w.managers, m.cfg.id < w.nextManagerId
  distinct : (w.managers.map (fun m => m.cfg.id)).Nodup
  alone : ∀ m ∈ w.managers, ∃ s, Simulates m.cfg n (w.view m) s

section Runs

variable {n : Nat} {w w' : Process}

/-- What a step of the process is. -/
inductive ProcessStep (w : Process) : ProcessLabel → Process → Prop where
  | new {cfg : Config} {budgets : Nat → Option Nat} (hid : cfg.id = w.nextManagerId)
      (hlimit : w.nextManagerId + 1 < 2 ^ 64) :
      ProcessStep w (.new cfg budgets) { w with
        nextManagerId := w.nextManagerId + 1
        managers := w.managers ++ [⟨cfg, PoolState.initial cfg budgets⟩] }
  | step {i : Nat} {a : Agent} {c : Choice} {m : Manager} {s : PoolState}
      (hm : w.managers[i]? = some m) (hs : (pool m.cfg).next (w.view m) (a, c) = some s) :
      ProcessStep w (.step i a c) { w with
        swips := s.shared.swips
        nextSwip := s.shared.nextSwip
        managers := w.managers.set i ⟨m.cfg, s⟩ }

theorem process_next {l : ProcessLabel} (hs : process.next w l = some w') : ProcessStep w l w' := by
  change w.next l = some w' at hs
  cases l with
  | new cfg budgets =>
      unfold Process.next allocateManagerId at hs
      dsimp only at hs
      by_cases hlimit : w.nextManagerId + 1 < 2 ^ 64
      · rw [if_pos hlimit] at hs
        dsimp only at hs
        split at hs
        · cases hs
          exact .new ‹_› hlimit
        · cases hs
      · rw [if_neg hlimit] at hs
        cases hs
  | step i a c =>
      unfold Process.next at hs
      dsimp only at hs
      split at hs
      · cases hs
      · rename_i m hm
        rcases Option.map_eq_some_iff.mp hs with ⟨s, hnext, rfl⟩
        exact .step hm hnext

theorem Process.Ruled.new (h : w.Ruled n) {budgets : Nat → Option Nat}
    (hid : cfg.id = w.nextManagerId) (hlimit : w.nextManagerId + 1 < 2 ^ 64) :
    Process.Ruled n { w with
      nextManagerId := w.nextManagerId + 1
      managers := w.managers ++ [⟨cfg, PoolState.initial cfg budgets⟩] } := by
  have hother : ∀ s, (w.swips s).ownerId ≠ cfg.id := fun s => hid ▸ Nat.ne_of_lt (h.owners s)
  have hcells : (fun s => if s < w.nextSwip then w.swips s else .fromPid 0) = w.swips := by
    funext s
    by_cases hs : s < w.nextSwip
    · exact if_pos hs
    · rw [if_neg hs, h.unborn s (Nat.not_lt.mp hs)]
  refine ⟨h.unborn, fun s => Nat.lt_succ_of_lt (h.owners s), hlimit, fun m hm => ?_, ?_,
    fun m hm => ?_⟩
  · rcases List.mem_append.mp hm with hm | hm
    · exact Nat.lt_succ_of_lt (h.identities m hm)
    · rw [List.mem_singleton.mp hm]
      exact hid ▸ Nat.lt_succ_self _
  · dsimp only
    rw [List.map_append]
    refine List.Nodup.append h.distinct (List.nodup_singleton _) (fun id hold hnew => ?_)
    rcases List.mem_map.mp hold with ⟨m, hm, hmid⟩
    have hlast : id = w.nextManagerId := (List.mem_singleton.mp hnew).trans hid
    exact absurd (h.identities m hm) (by rw [hmid, hlast]; exact Nat.lt_irrefl _)
  · rcases List.mem_append.mp hm with hm | hm
    · exact h.alone m hm
    · rw [List.mem_singleton.mp hm]
      have hnew := simulates_new (n := n) budgets hother w.nextSwip
      rw [hcells] at hnew
      exact hnew

/-- The manager that has moved, and the others. -/
theorem mem_set_managers {i : Nat} {m m' : Manager} {s : PoolState} (hm : w.managers[i]? = some m)
    (h : m' ∈ w.managers.set i ⟨m.cfg, s⟩) : m' = ⟨m.cfg, s⟩ ∨
      ∃ j, j ≠ i ∧ w.managers[j]? = some m' := by
  rcases List.mem_iff_getElem?.mp h with ⟨j, hj⟩
  by_cases hji : j = i
  · subst hji
    rw [List.getElem?_set_self (List.getElem?_eq_some_iff.mp hm).1] at hj
    exact .inl (Option.some.inj hj).symm
  · rw [List.getElem?_set_ne (Ne.symm hji)] at hj
    exact .inr ⟨j, hji, hj⟩

/-- A manager that moves keeps its identity. -/
theorem identities_set {i : Nat} {m : Manager} {s : PoolState} (hm : w.managers[i]? = some m) :
    (w.managers.set i ⟨m.cfg, s⟩).map (fun m => m.cfg.id) =
      w.managers.map (fun m => m.cfg.id) := by
  rcases List.getElem?_eq_some_iff.mp hm with ⟨hlt, hget⟩
  have hbound : i < (w.managers.map (fun m => m.cfg.id)).length := by rwa [List.length_map]
  have hid : (w.managers.map (fun m => m.cfg.id))[i] = m.cfg.id := by
    rw [List.getElem_map, hget]
  rw [List.map_set, ← hid]
  exact List.set_getElem_self hbound

/-- Two managers have two identities. -/
theorem Process.Ruled.id_ne (h : w.Ruled n) {i j : Nat} {m m' : Manager}
    (hm : w.managers[i]? = some m) (hm' : w.managers[j]? = some m') (hji : j ≠ i) :
    m.cfg.id ≠ m'.cfg.id := by
  intro hid
  have hi : (w.managers.map (fun m => m.cfg.id))[i]? = some m.cfg.id := by
    rw [List.getElem?_map, hm]
    rfl
  have hj : (w.managers.map (fun m => m.cfg.id))[j]? = some m.cfg.id := by
    rw [List.getElem?_map, hm', hid]
    rfl
  refine hji ((List.getElem?_inj ?_ h.distinct).mp (hj.trans hi.symm))
  exact (List.getElem?_eq_some_iff.mp hj).1

theorem Process.Ruled.step (h : w.Ruled n) {i : Nat} {m : Manager} {s : PoolState} (ha : a < n)
    (hm : w.managers[i]? = some m) (hs : (pool m.cfg).next (w.view m) (a, c) = some s) :
    Process.Ruled n { w with
      swips := s.shared.swips
      nextSwip := s.shared.nextSwip
      managers := w.managers.set i ⟨m.cfg, s⟩ } := by
  have hmem := List.mem_of_getElem? hm
  rcases h.alone m hmem with ⟨s0, hs0⟩
  have hcells := step_cells (hs0.veiled.touches hs0.reachable a) (pool_next hs).1
  refine ⟨hcells.unborn m.cfg.id_pos h.unborn, hcells.owners (h.identities m hmem) h.owners,
    h.limit, fun m' hm' => ?_, ?_, fun m' hm' => ?_⟩
  · rcases mem_set_managers hm hm' with rfl | ⟨j, -, hj⟩
    · exact h.identities m hmem
    · exact h.identities m' (List.mem_of_getElem? hj)
  · dsimp only
    rw [identities_set hm]
    exact h.distinct
  · rcases mem_set_managers hm hm' with rfl | ⟨j, hji, hj⟩
    · exact hs0.step ha hs
    · rcases h.alone m' (List.mem_of_getElem? hj) with ⟨s1, hs1⟩
      exact hs1.foreign (h.id_ne hm hj hji) hcells

theorem ruled_next (h : w.Ruled n) {l : ProcessLabel} (hl : l.agents ≤ n)
    (hs : process.next w l = some w') : w'.Ruled n := by
  cases process_next hs with
  | new hid hlimit => exact h.new hid hlimit
  | step hm hnext => exact h.step hl hm hnext

theorem ruled_initial : Process.initial.Ruled n where
  unborn := fun _ _ => rfl
  owners := fun _ => Nat.zero_lt_one
  limit := by decide
  identities := fun m hm => absurd hm (List.not_mem_nil)
  distinct := List.nodup_nil
  alone := fun m hm => absurd hm (List.not_mem_nil)

theorem ruled_reachable (hr : Reachable process w) : ∃ n, w.Ruled n := by
  rcases exists_agents hr with ⟨n, hn⟩
  refine ⟨n, reachableVia_invariant ?_ (fun w l w' _ h hl hs => ruled_next h hl hs) hn⟩
  rintro w rfl
  exact ruled_initial

/-- What a step of a manager does to the cells. -/
theorem manager_cells (hr : Reachable process w) {m : Manager} (hm : m ∈ w.managers)
    {s : PoolState} (hs : (pool m.cfg).next (w.view m) (a, c) = some s) :
    CellsStep m.cfg.id w.swips w.nextSwip s.shared.swips s.shared.nextSwip := by
  rcases ruled_reachable hr with ⟨n, h⟩
  rcases h.alone m hm with ⟨s0, hs0⟩
  exact step_cells (hs0.veiled.touches hs0.reachable a) (pool_next hs).1

/-- Behind the veil every manager is alone. -/
theorem manager_runs (hr : Reachable process w) {m : Manager} (hm : m ∈ w.managers) :
    ∃ s, Reachable (pool m.cfg) s ∧ Veiled m.cfg (w.view m) s := by
  rcases ruled_reachable hr with ⟨n, h⟩
  rcases h.alone m hm with ⟨s, hs⟩
  exact ⟨s, hs.reachable, hs.veiled⟩

/-- Agents of manager `i` take their steps. -/
def stepsOf (i : Nat) (ls : List (Agent × Choice)) : List ProcessLabel :=
  ls.map (fun l => .step i l.1 l.2)

def otherConfig : Config :=
  { sampleConfig with id := 2, id_pos := by decide }

/-- Two managers are made, and the first allocates a page. -/
def twoManagers : List ProcessLabel :=
  [.new sampleConfig (fun _ => none), .new otherConfig (fun _ => none)] ++ stepsOf 0 allocation

/-- The second manager is alone, with a handle that somebody has built. -/
theorem manager_runs_two : ∃ w m, exec process .initial twoManagers = some w ∧
    (w.swips 0).state = .hot 64 ∧ m.cfg.id = 2 ∧
    ∃ s, Reachable (pool m.cfg) s ∧ Veiled m.cfg (w.view m) s := by
  have hrun : (exec process .initial twoManagers).map (fun w => decide ((w.swips 0).state = .hot 64 ∧
      w.managers[1]?.map (fun m => m.cfg.id) = some 2)) = some true := by decide +kernel
  rcases Option.map_eq_some_iff.mp hrun with ⟨w, hw, hsees⟩
  rw [decide_eq_true_eq] at hsees
  rcases hsees with ⟨hhot, hid⟩
  rcases Option.map_eq_some_iff.mp hid with ⟨m, hm, hid⟩
  exact ⟨w, m, hw, hhot, hid, manager_runs
    (reachable_exec twoManagers _ w (ReachableVia.init rfl) hw) (List.mem_of_getElem? hm)⟩

end Runs

end TierBuf
