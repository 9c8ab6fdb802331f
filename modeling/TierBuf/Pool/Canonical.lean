import TierBuf.Pool.Process
import TierBuf.Pool.Accounting
import TierBuf.Pool.Contents

/-!
# Canonical Handles

A fix gives a guard for the Swip it was called with, and only if the manager
has made that Swip.

Users may call a manager with any Swip of the process: one of another manager,
or one they have built for some page identifier themselves. Only the owner
word is compared. That this is enough rests on all managers: identities are
never used twice, a cell is bound to one once, and every manager binds one
cell for each of its pages.

## Main definitions

* `handleHistory`: A process that remembers the Swip of every call of a fix.
* `Pc.Serves`: The agent works on a call with the Swip.
* `Pc.Rejects`: The agent works on a call that will be turned down.

## Theorems

* `step_serves`, `step_rejects`: What one step keeps of this.
* `handles_canonical`: A guard is for the one cell of its page.
* `foreign_rejected`: A call with another handle changes nothing.
-/

namespace TierBuf

open Function Ledger Transition

variable {cfg : Config} {sh sh' : Shared} {c : Choice} {a : Agent} {pc pc' : Pc}

/-! ### The Swip of a call -/

/-- The fix is one of Swip `s`. -/
def FixesSwip (s : SwipId) : Option FixCtx → Prop
  | some k => k.swip = s
  | none => False

/-- The agent works on a fix of Swip `s`, or has returned from it. -/
def Pc.Serves (s : SwipId) : Pc → Prop
  | .enter (.fix s' _) _ => s' = s
  | .fix k _ | .enqueue (.fix k) _ _ _ => k.swip = s
  | .fault k _ | .stuck k => FixesSwip s k.fix
  | .acquire w _ => FixesSwip s w.fix
  | .cool k _ | .enqueue (.cool k _ _) _ _ _ => FixesSwip s k.fix
  | .evict k _ _ => FixesSwip s k.fix
  | .fill f _ => FixesSwip s f.ctx.fix
  | .checkin k _ _ => FixesSwip s k.fix
  | .leave (.guard g) | .guard g _ => g.swip = s
  | .leave (.failed _) | .returned _ | .panicked _ => True
  | _ => False

/-- A call stays with its Swip. -/
theorem step_serves {s : SwipId} (h : pc.Serves s)
    (hs : sh.step cfg c a pc = some (sh', pc')) : pc'.Serves s := by
  have hflow := step_flow hs
  cases hflow with
  | assertion => trivial
  | @enter op => cases op <;> exact h
  | @enqueue k => cases k <;> exact h
  | @faultReturn k _ r =>
      cases k with
      | prefetch t => cases h
      | demand k => rcases r with e | ⟨- | t⟩ <;> first | exact h | trivial
  | @acquired w =>
      cases w with
      | allocate => cases h
      | demand k loc g => exact h
  | @acquireFailed w =>
      cases w with
      | allocate => cases h
      | demand k loc g => exact h
  | @coolReturn k =>
      cases k with
      | acquire w n err => exact h
      | background => cases h
  | @enqueueReturn k =>
      cases k with
      | fix k => exact h
      | cool k n is => exact h
  | @evictReturn k t _ r =>
      cases k with
      | acquire w n err m => rcases r with e | ⟨- | - | -⟩ <;> exact h
      | background m => cases h
      | flush f => cases h
  | @fillCheckin f st st' e =>
      rcases f with ⟨ctx, i⟩
      cases ctx <;> exact h
  | @fillGuard f =>
      rcases f with ⟨ctx, i⟩
      cases ctx with
      | demand k loc g => exact h
      | _ => cases h
  | @checkinReturn k => cases k <;> first | exact h | trivial
  | _ => first | exact h | trivial

/-! ### Calls that are turned down -/

/-- What a call with a handle for page `p` that is not the manager's own may
    return. -/
def TurnsDown (p : PageId) (e : TierBufError) : Prop :=
  e = .shuttingDown ∨ e = .duplicateHandle p ∨ e = .invalidPid p

/-- The agent is turning down a call with Swip `s` for page `p`, or has. -/
def Pc.Rejects (s : SwipId) (p : PageId) : Pc → Prop
  | .enter (.fix s' _) _ => s' = s
  | .leave (.failed e) | .returned (.failed e) => TurnsDown p e
  | _ => False

/-- The states differ in the holds of the operation gate only. -/
def SameButGate (sh sh' : Shared) : Prop :=
  sh' = { sh with operationGate := sh'.operationGate }

/-- A call with a handle that is not the manager's own goes on to be turned
    down, and touches the operation gate only. -/
theorem step_rejects {s : SwipId} (hforeign : (sh.swips s).ownerId ≠ cfg.id)
    (h : pc.Rejects s (sh.swips s).pid) (hs : sh.step cfg c a pc = some (sh', pc')) :
    pc'.Rejects s (sh.swips s).pid ∧ SameButGate sh sh' := by
  cases pc with
  | enter op st =>
      cases op with
      | allocate => cases h
      | fix s' mode =>
          have hswip : s' = s := h
          subst hswip
          have hother : (sh.swips s').belongsTo cfg.id = false := by
            unfold SwipInner.belongsTo
            rw [decide_eq_false hforeign, Bool.and_false]
          rw [Shared.step] at hs
          cases st with
          | running =>
              dsimp only [Shared.stepEnter] at hs
              split at hs <;> cases hs
              · exact ⟨.inl rfl, rfl⟩
              · exact ⟨rfl, rfl⟩
          | gate =>
              dsimp only [Shared.stepEnter] at hs
              split at hs <;> cases hs
              exact ⟨rfl, rfl⟩
          | recheck =>
              dsimp only [Shared.stepEnter] at hs
              split at hs <;> cases hs
              · exact ⟨.inl rfl, rfl⟩
              · exact ⟨rfl, rfl⟩
          | validate =>
              dsimp only [Shared.stepEnter] at hs
              rw [hother] at hs
              cases hs
              exact ⟨rfl, rfl⟩
          | reject =>
              dsimp only [Shared.stepEnter] at hs
              split at hs <;> cases hs
              · exact ⟨.inr (.inl rfl), rfl⟩
              · exact ⟨.inr (.inr rfl), rfl⟩
  | leave r =>
      cases r with
      | guard g => cases h
      | failed e =>
          rw [Shared.step] at hs
          dsimp only [Shared.stepLeave] at hs
          split at hs <;> cases hs
          exact ⟨h, rfl⟩
  | returned r => cases hs
  | _ => cases h

/-! ### Runs -/

/-- The Swip that each agent of each manager has been called with. -/
abbrev Handles := Nat → Agent → Option SwipId

/-- The handle an agent is called with when it takes a step. -/
def PoolState.callOf (s : PoolState) (a : Agent) (c : Choice) : Option SwipId :=
  match s.pcs a, c.call with
  | .idle, .fix x _ => some x
  | _, _ => none

def recordHandle (h : Handles) (w : Process) (l : ProcessLabel) (_ : Process) : Handles :=
  match l with
  | .new _ _ => h
  | .step i a c => match w.managers[i]?.bind (fun m => m.state.callOf a c) with
    | none => h
    | some x => update h i (update (h i) a (some x))

/-- A process that remembers the Swip of every call of a fix. -/
def handleHistory : System (Process × Handles) ProcessLabel :=
  process.withHistory (fun _ _ => none) recordHandle

/-- What one agent tells of its call. -/
structure Tells (cfg : Config) (sh : Shared) (pc : Pc) (x : SwipId) : Prop where
  known : x < sh.nextSwip
  serves : pc.Serves x
  rejects : (sh.swips x).ownerId ≠ cfg.id → pc.Rejects x (sh.swips x).pid

/-- What the calls of a process tell of its agents. -/
structure Handled (w : Process) (h : Handles) : Prop where
  absent : ∀ i, w.managers.length ≤ i → ∀ a, h i a = none
  tells : ∀ i m a x, w.managers[i]? = some m → h i a = some x →
    Tells m.cfg (w.view m).shared (m.state.pcs a) x

section Runs

variable {w w' : Process} {h : Handles} {i : Nat} {m : Manager} {s : PoolState}

theorem Handled.new (hd : Handled w h) (budgets : Nat → Option Nat) (k : Nat) :
    Handled { w with
      nextManagerId := k
      managers := w.managers ++ [⟨cfg, PoolState.initial cfg budgets⟩] } h := by
  refine ⟨fun i hi => hd.absent i ?_, fun i m a x hm hcall => ?_⟩
  · dsimp only at hi
    rw [List.length_append] at hi
    exact Nat.le_of_add_right_le hi
  · have hlt : i < w.managers.length := by
      by_contra hge
      rw [hd.absent i (Nat.not_lt.mp hge) a] at hcall
      cases hcall
    dsimp only at hm
    rw [List.getElem?_append_left hlt] at hm
    exact hd.tells i m a x hm hcall

/-- The owner of a cell is who it was, and its page too. -/
theorem CellsStep.keeps {id n n' : Nat} {swips swips' : SwipId → SwipInner} {x : SwipId}
    (hc : CellsStep id swips n swips' n') (hx : x < n) :
    x < n' ∧ (swips' x).ownerId = (swips x).ownerId ∧ (swips' x).pid = (swips x).pid := by
  cases hc with
  | own hown =>
      rcases hown x with hsame | ⟨howner, howner', hpid⟩
      · rw [hsame]
        exact ⟨hx, rfl, rfl⟩
      · exact ⟨hx, howner'.trans howner.symm, hpid⟩
  | born cell _ hcell =>
      rw [hcell, update_of_ne (Nat.ne_of_lt hx)]
      exact ⟨Nat.lt_succ_of_lt hx, rfl, rfl⟩

theorem record_other {j : Nat} {b : Agent} (hne : j ≠ i ∨ b ≠ a) :
    recordHandle h w (.step i a c) w' j b = h j b := by
  unfold recordHandle
  dsimp only
  cases w.managers[i]?.bind (fun m => m.state.callOf a c) with
  | none => rfl
  | some x =>
      dsimp only
      by_cases hj : j = i
      · subst hj
        rw [update_self, update_of_ne (hne.resolve_left (not_not.mpr rfl))]
      · rw [update_of_ne hj]

theorem record_own (hm : w.managers[i]? = some m) :
    recordHandle h w (.step i a c) w' i a = (m.state.callOf a c).or (h i a) := by
  unfold recordHandle
  dsimp only
  rw [hm, Option.bind_some]
  cases m.state.callOf a c with
  | none => rfl
  | some x =>
      dsimp only
      rw [update_self, update_self, Option.some_or]

/-- A call of a fix starts. -/
theorem step_called {x : SwipId} (hcall : s.callOf a c = some x)
    (hs : s.shared.step cfg c a (s.pcs a) = some (sh', pc')) :
    x < s.shared.nextSwip ∧ ∃ mode, pc' = .enter (.fix x mode) .running := by
  unfold PoolState.callOf at hcall
  split at hcall
  · rename_i y mode hpc hc
    cases hcall
    rw [hpc, Shared.step, Shared.stepIdle] at hs
    rw [hc] at hs
    dsimp only at hs
    split at hs
    · cases hs
      exact ⟨‹_›, mode, rfl⟩
    · cases hs
  · cases hcall

/-- The agent that moves tells of the same call. -/
theorem Tells.step {x : SwipId} (h : Tells cfg sh pc x)
    (hs : sh.step cfg c a pc = some (sh', pc'))
    (hcells : CellsStep cfg.id sh.swips sh.nextSwip sh'.swips sh'.nextSwip) :
    Tells cfg sh' pc' x := by
  rcases hcells.keeps h.known with ⟨hlt, howner, hpid⟩
  refine ⟨hlt, step_serves h.serves hs, fun hforeign => ?_⟩
  rw [howner] at hforeign
  rw [hpid]
  exact (step_rejects hforeign (h.rejects hforeign) hs).1

/-- And so do the others. -/
theorem Tells.others {id : Nat} {x : SwipId} (h : Tells cfg sh pc x)
    (hcells : CellsStep id sh.swips sh.nextSwip sh'.swips sh'.nextSwip) : Tells cfg sh' pc x := by
  rcases hcells.keeps h.known with ⟨hlt, howner, hpid⟩
  exact ⟨hlt, h.serves, fun hforeign => hpid ▸ h.rejects (howner ▸ hforeign)⟩

/-- A call that starts tells of its handle. -/
theorem tells_called {x : SwipId} (hcall : s.callOf a c = some x)
    (hs : s.shared.step cfg c a (s.pcs a) = some (sh', pc'))
    (hcells : CellsStep cfg.id s.shared.swips s.shared.nextSwip sh'.swips sh'.nextSwip) :
    Tells cfg sh' pc' x := by
  rcases step_called hcall hs with ⟨hlt, mode, rfl⟩
  exact ⟨(hcells.keeps hlt).1, rfl, fun _ => rfl⟩

theorem Handled.step (hd : Handled w h) (hr : Reachable process w) (hm : w.managers[i]? = some m)
    (hs : (pool m.cfg).next (w.view m) (a, c) = some s) :
    Handled { w with
      swips := s.shared.swips
      nextSwip := s.shared.nextSwip
      managers := w.managers.set i ⟨m.cfg, s⟩ } (recordHandle h w (.step i a c) w') := by
  have hcells := manager_cells hr (List.mem_of_getElem? hm) hs
  rcases pool_next hs with ⟨hstep, hother⟩
  have hlt := (List.getElem?_eq_some_iff.mp hm).1
  refine ⟨fun j hj b => ?_, fun j m' b x hm' hcall => ?_⟩
  · dsimp only at hj
    rw [List.length_set] at hj
    rw [record_other (.inl (Nat.ne_of_gt (hlt.trans_le hj)))]
    exact hd.absent j hj b
  · dsimp only at hm'
    by_cases hj : j = i
    · subst hj
      rw [List.getElem?_set_self hlt] at hm'
      cases hm'
      by_cases hb : b = a
      · subst hb
        rw [record_own hm] at hcall
        cases hcallOf : m.state.callOf b c with
        | some y =>
            rw [hcallOf] at hcall
            cases hcall
            exact tells_called (s := w.view m) hcallOf hstep hcells
        | none =>
            rw [hcallOf] at hcall
            exact (hd.tells j m b x hm hcall).step hstep hcells
      · rw [record_other (.inr hb)] at hcall
        have hpcs : s.pcs b = m.state.pcs b := hother b hb
        rw [hpcs]
        exact (hd.tells j m b x hm hcall).others hcells
    · rw [List.getElem?_set_ne (Ne.symm hj)] at hm'
      rw [record_other (.inl hj)] at hcall
      change Tells m'.cfg (m'.state.onCells s.shared.swips s.shared.nextSwip).shared _ x
      exact (hd.tells j m' b x hm' hcall).others hcells

theorem handled_reachable {x : Process × Handles} (hr : Reachable handleHistory x) :
    Handled x.1 x.2 := by
  refine history_invariant (M := process) (P := fun _ _ => True) (J := Handled) ?_
    (fun w h l w' hr hd _ hs => ?_) hr
  · rintro w rfl
    exact ⟨fun _ _ _ => rfl, fun _ _ _ _ hm => by cases hm⟩
  · cases process_next hs with
    | new hid hlimit => exact hd.new _ _
    | step hm hnext => exact hd.step hr hm hnext

/-- The cell of a guard belongs to the manager. -/
theorem guard_handle (hr : Reachable (pool cfg) s) {g : Guard}
    (hg : (s.pcs a).holding = some g) :
    s.shared.store.Bound cfg g.swip ∧ (s.shared.swips g.swip).pid = g.pid := by
  have h := inv_reachable hr
  have hsound := h.sound a
  have hwarrant := (holding_tenure hg (h.not_absurd (role_at rfl))).2
  rw [role_at rfl] at hsound
  have hhandle := hsound.warrant
  rw [hwarrant] at hhandle
  exact hhandle

/-- A guard is for the Swip of the call. That is the one cell the manager has
    for the page, and the page table names no other. -/
theorem handles_canonical {x : Process × Handles} (hr : Reachable handleHistory x)
    (hm : x.1.managers[i]? = some m) {y : SwipId} (hcall : x.2 i a = some y) {g : Guard}
    (hg : (m.state.pcs a).holding = some g) :
    g.swip = y ∧ (x.1.swips y).ownerId = m.cfg.id ∧ (x.1.swips y).pid = g.pid ∧
      PageId.isValid g.pid = true ∧
      (∀ z, (x.1.swips z).ownerId = m.cfg.id → (x.1.swips z).pid = g.pid → z = y) ∧
      ∀ z, m.state.shared.pages g.pid = some z → z = y := by
  have hserves := ((handled_reachable hr).tells i m a y hm hcall).serves
  have hswip : g.swip = y := by
    generalize m.state.pcs a = pc at hg hserves
    cases pc with
    | leave r =>
        cases r with
        | guard g' =>
            cases hg
            exact hserves
        | failed e => cases hg
    | guard g' st => cases st <;> cases hg <;> exact hserves
    | _ => cases hg
  rcases ruled_reachable (reachable_fst hr) with ⟨n, hruled⟩
  rcases hruled.alone m (List.mem_of_getElem? hm) with ⟨s, hs, hveiled, -, -⟩
  have hcells := (inv_reachable hs).cells
  -- a guard is held by an agent that the veiled state has as well
  have hg' : (s.pcs a).holding = some g := by
    rcases hveiled.pcs a with hpc | ⟨hpc, -⟩
    · rw [hpc]
      exact hg
    · have hidle : m.state.pcs a = .idle := hpc
      rw [hidle] at hg
      cases hg
  have hcell : ∀ z, s.shared.swips z = (x.1.swips z).veil m.cfg.id := by
    intro z
    rw [hveiled.shared]
    rfl
  have howner : ∀ z, s.shared.store.Bound m.cfg z ↔ (x.1.swips z).ownerId = m.cfg.id := by
    intro z
    change (s.shared.swips z).ownerId = m.cfg.id ↔ _
    rw [hcell]
    exact veil_ownerId m.cfg.id_pos
  have hpid : ∀ z, (s.shared.swips z).pid = (x.1.swips z).pid := by
    intro z
    rw [hcell]
    exact veil_pid
  rcases guard_handle hs hg' with ⟨hbound, hguard⟩
  rw [hswip] at hbound hguard
  have hunique : ∀ z, s.shared.store.Bound m.cfg z → (s.shared.swips z).pid = g.pid → z = y :=
    fun z hz hp => hcells.canonical z y hz hbound (hp.trans hguard.symm)
  refine ⟨hswip, (howner y).mp hbound, (hpid y).symm.trans hguard, ?_, fun z hz hp => ?_,
    fun z hz => ?_⟩
  · have hlt : (s.shared.swips y).pid < s.shared.nextPid := hcells.minted y hbound
    rw [hguard] at hlt
    exact decide_eq_true (Nat.le_of_lt_succ (hlt.trans_le hcells.identifiers))
  · exact hunique z ((howner z).mpr hz) ((hpid z).trans hp)
  · have hlisted : s.shared.pages g.pid = some z := by
      rw [hveiled.shared]
      exact hz
    rcases hcells.listed g.pid z hlisted with ⟨hz, hp⟩
    exact hunique z hz hp

/-- The page is fixed with the first manager and with the second. -/
def fixedTwice : List ProcessLabel :=
  twoManagers ++
    stepsOf 0 ([(0, { act := .drop }), (0, { act := .drop })] ++
      runOf 1 (.fix 0 (.shared .normal)) 16) ++
    stepsOf 1 (runOf 0 (.fix 0 .exclusive) 4)

/-- The second call is about to be turned down. -/
def Pc.turnsDown : Pc → Bool
  | .enter _ .reject => true
  | _ => false

theorem fixedTwice_runs : ∃ x m m' g, Reachable handleHistory x ∧ x.1.managers[0]? = some m ∧
    x.1.managers[1]? = some m' ∧ x.2 0 1 = some 0 ∧ (m.state.pcs 1).holding = some g ∧
    x.2 1 0 = some 0 ∧ (x.1.swips 0).ownerId ≠ m'.cfg.id ∧ (m'.state.pcs 0).turnsDown = true := by
  have hrun : (exec handleHistory (.initial, fun _ _ => none) fixedTwice).map (fun x =>
      (x.1.managers[0]?.bind (fun m => (m.state.pcs 1).holding)).isSome &&
        decide (x.1.managers[1]?.map (fun m => (m.cfg.id, (m.state.pcs 0).turnsDown)) =
          some (2, true)) &&
        decide (x.2 0 1 = some 0 ∧ x.2 1 0 = some 0 ∧ (x.1.swips 0).ownerId = 1)) = some true := by
    decide +kernel
  rcases Option.map_eq_some_iff.mp hrun with ⟨x, hx, hsees⟩
  rw [Bool.and_eq_true, Bool.and_eq_true, decide_eq_true_eq, decide_eq_true_eq] at hsees
  rcases hsees with ⟨⟨hguard, hother⟩, hcall, hcall', howner⟩
  rcases Option.isSome_iff_exists.mp hguard with ⟨g, hg⟩
  rcases Option.bind_eq_some_iff.mp hg with ⟨m, hm, hg⟩
  rcases Option.map_eq_some_iff.mp hother with ⟨m', hm', hsecond⟩
  rcases Prod.mk.inj hsecond with ⟨hid, hpc⟩
  have hr : Reachable handleHistory x :=
    reachable_exec fixedTwice (Process.initial, _) x (ReachableVia.init ⟨rfl, rfl⟩) hx
  refine ⟨x, m, m', g, hr, hm, hm', hcall, hg, hcall', ?_, hpc⟩
  rw [howner, hid]
  decide

theorem handles_canonical_fixedTwice : ∃ x, ∃ g : Guard, Reachable handleHistory x ∧ x.2 0 1 = some 0 ∧
    g.swip = 0 ∧ (x.1.swips 0).pid = g.pid := by
  rcases fixedTwice_runs with ⟨x, m, -, g, hr, hm, -, hcall, hg, -⟩
  rcases handles_canonical hr hm hcall hg with ⟨hswip, -, hpid, -⟩
  exact ⟨x, g, hr, hcall, hswip, hpid⟩

/-- A call with a handle that the manager has not made is turned down, with the
    error the page table calls for. Each of its steps leaves everything but the
    operation gate as it is. -/
theorem foreign_rejected {x : Process × Handles} (hr : Reachable handleHistory x)
    (hm : x.1.managers[i]? = some m) {y : SwipId} (hcall : x.2 i a = some y)
    (hforeign : (x.1.swips y).ownerId ≠ m.cfg.id) :
    (m.state.pcs a).Rejects y (x.1.swips y).pid ∧
      ∀ c w', process.next x.1 (.step i a c) = some w' →
        ∃ s, w' = { x.1 with managers := x.1.managers.set i ⟨m.cfg, s⟩ } ∧
          SameButGate (x.1.view m).shared s.shared ∧
          ∀ mode, m.state.pcs a = .enter (.fix y mode) .reject →
            s.pcs a = .leave (.failed (if (m.state.shared.pages (x.1.swips y).pid).isSome then
              .duplicateHandle (x.1.swips y).pid else .invalidPid (x.1.swips y).pid)) := by
  have hrejects := ((handled_reachable hr).tells i m a y hm hcall).rejects hforeign
  refine ⟨hrejects, fun c w' hs => ?_⟩
  cases process_next hs with
  | @step _ _ _ m' s hm' hnext =>
      cases hm.symm.trans hm'
      have hstep := (pool_next hnext).1
      have hgate := (step_rejects hforeign hrejects hstep).2
      refine ⟨s, ?_, hgate, fun mode hpc => ?_⟩
      · rw [hgate]
        rfl
      · have hview : (x.1.view m).pcs a = .enter (.fix y mode) .reject := hpc
        rw [hview, Shared.step] at hstep
        dsimp only [Shared.stepEnter] at hstep
        change (if (m.state.shared.pages (x.1.swips y).pid).isSome then
          some ((x.1.view m).shared, Pc.leave (.failed (.duplicateHandle (x.1.swips y).pid)))
          else some ((x.1.view m).shared, Pc.leave (.failed (.invalidPid (x.1.swips y).pid)))) =
          some (s.shared, s.pcs a) at hstep
        split at hstep
        · rw [if_pos ‹_›]
          exact (congrArg Prod.snd (Option.some.inj hstep)).symm
        · rw [if_neg ‹_›]
          exact (congrArg Prod.snd (Option.some.inj hstep)).symm

theorem foreign_rejected_fixedTwice : ∃ x m, Reachable handleHistory x ∧
    x.1.managers[1]? = some m ∧ (m.state.pcs 0).turnsDown = true ∧
    ∀ c w', process.next x.1 (.step 1 0 c) = some w' → w'.swips = x.1.swips := by
  rcases fixedTwice_runs with ⟨x, -, m, -, hr, -, hm, -, -, hcall, hforeign, hpc⟩
  refine ⟨x, m, hr, hm, hpc, fun c w' hs => ?_⟩
  rcases (foreign_rejected hr hm hcall hforeign).2 c w' hs with ⟨s, rfl, -⟩
  rfl

end Runs

end TierBuf
