import TierBuf.Pool.Flow
import TierBuf.Pool.Footprint

/-!
# Waiters of a Fault

The fault coordinators inside the manager.

`Fault.Coalescing` is about the callers of one coordinator and nothing else.
Here the callers are agents of the pool: a leader goes through frame
acquisition, other evictions and the filling of its frame before it finishes,
and a fix may come back to the coordinator any number of times.

Only three stages touch a coordinator, and a leader carries its generation
with it wherever it goes. So the record of a page always counts the agents
that wait for it, and a waiter finds its own generation either active or
completed.

## Main definitions

* `Pc.awaits`, `Pc.leads`: The page and generation an agent waits for or leads.
* `Coordinates`: What a step is to the coordinators.
* `Waits`: The record of a page agrees with its waiters and its leader.

## Theorems

* `step_coordinates`: Every step is of one of these kinds.
* `waits_next`, `waits_reachable`: The records agree along every run.
* `never_stuck`: The expectation on `remaining_waiters` never fails.
-/

namespace TierBuf

open Function Ledger Transition

variable {cfg : Config} {sh sh' : Shared} {c : Choice} {a : Agent} {pc pc' : Pc}

/-- The page and generation an agent is registered to wait for. -/
def Pc.awaits : Pc → Option (PageId × Nat)
  | .fault k (.wait g) => some (k.pid, g)
  | _ => none

def FaultStage.leads : FaultStage → Option Nat
  | .leadRunning g | .leadLoad g | .leadLookup g | .leadCount g _ | .finish g _ => some g
  | _ => none

def AcquireCtx.leads : AcquireCtx → Option (PageId × Nat)
  | .allocate => none
  | .demand c _ g => some (c.pid, g)

def CoolCtx.leads : CoolCtx → Option (PageId × Nat)
  | .acquire w _ _ => w.leads
  | .background => none

def EvictCtx.leads : EvictCtx → Option (PageId × Nat)
  | .acquire w _ _ _ => w.leads
  | .background _ | .flush _ => none

def FillCtx.leads : FillCtx → Option (PageId × Nat)
  | .allocate _ _ => none
  | .demand c _ g => some (c.pid, g)
  | .prefetch p _ _ g => some (p, g)

def CheckinCtx.leads : CheckinCtx → Option (PageId × Nat)
  | .demand c g _ => some (c.pid, g)
  | .prefetch p _ g _ => some (p, g)
  | .allocate _ | .task _ _ => none

/-- The page and generation an agent leads. -/
def Pc.leads : Pc → Option (PageId × Nat)
  | .fault k st => st.leads.map (fun g => (k.pid, g))
  | .acquire w _ => w.leads
  | .cool k _ => k.leads
  | .enqueue (.cool k _ _) _ _ _ => k.leads
  | .evict k _ _ => k.leads
  | .fill f _ => f.ctx.leads
  | .checkin k _ _ => k.leads
  | _ => none

/-! ### One coordinator -/

/-- The record of page `p` agrees with the ledgers of its waiters and of its
    leader. -/
structure Waits (f : FaultState) (p : PageId) (waits leads : Agent → Option (PageId × Nat)) :
    Prop where
  leader : ∀ a g, leads a = some (p, g) → ∃ n, f.active = some ⟨g, n⟩
  sole : ∀ a b g h, leads a = some (p, g) → leads b = some (p, h) → a = b
  exclusive : ∀ act, f.active = some act → f.completed = none
  registered : ∀ g n, f.active = some ⟨g, n⟩ → tally waits (p, g) = n
  remaining : ∀ g o n, f.completed = some ⟨g, o, n⟩ → n ≠ 0 ∧ tally waits (p, g) = n
  current : ∀ a g, waits a = some (p, g) →
    (∃ n, f.active = some ⟨g, n⟩) ∨ ∃ o n, f.completed = some ⟨g, o, n⟩

section Ledgers

variable {f f' : FaultState} {p : PageId} {g n : Nat}
variable {waits waits' leads leads' : Agent → Option (PageId × Nat)}

theorem Waits.not_completed (h : Waits f p waits leads) {act : ActiveFault}
    (hact : f.active = some act) (done : CompletedFault) : f.completed ≠ some done := by
  rw [h.exclusive act hact]
  exact fun hc => by cases hc

/-- A move that is not about the page keeps its record. -/
theorem Waits.other (h : Waits f p waits leads) (hw : ∀ b, b ≠ a → waits' b = waits b)
    (hl : ∀ b, b ≠ a → leads' b = leads b)
    (ha : ∀ g, waits' a = some (p, g) ↔ waits a = some (p, g))
    (hla : ∀ g, leads' a = some (p, g) → leads a = some (p, g)) : Waits f p waits' leads' := by
  have hwaits : ∀ b g, waits' b = some (p, g) ↔ waits b = some (p, g) := by
    intro b g
    by_cases hb : b = a
    · rw [hb]
      exact ha g
    · rw [hw b hb]
  have hleads : ∀ b g, leads' b = some (p, g) → leads b = some (p, g) := by
    intro b g hg
    by_cases hb : b = a
    · rw [hb] at hg ⊢
      exact hla g hg
    · rwa [hl b hb] at hg
  have htally : ∀ g, tally waits' (p, g) = tally waits (p, g) :=
    fun g => tally_congr (fun b => hwaits b g)
  constructor
  case leader => exact fun b g hg => h.leader b g (hleads b g hg)
  case sole => exact fun b d g g' hb hd => h.sole b d g g' (hleads b g hb) (hleads d g' hd)
  case exclusive => exact h.exclusive
  case registered => exact fun g n hact => (htally g).trans (h.registered g n hact)
  case remaining =>
    exact fun g o n hdone =>
      ⟨(h.remaining g o n hdone).1, (htally g).trans (h.remaining g o n hdone).2⟩
  case current => exact fun b g hb => h.current b g ((hwaits b g).mp hb)

theorem Waits.register (h : Waits f p waits leads) (hact : f.active = some ⟨g, n⟩)
    (hw : ∀ b, b ≠ a → waits' b = waits b) (hl : ∀ b, b ≠ a → leads' b = leads b)
    (ha : waits a = none) (ha' : waits' a = some (p, g)) (hla : leads' a = none) :
    Waits { f with active := some ⟨g, n + 1⟩ } p waits' leads' := by
  have hleads : ∀ b g, leads' b = some (p, g) → leads b = some (p, g) := by
    intro b g hg
    by_cases hb : b = a
    · rw [hb, hla] at hg
      cases hg
    · rwa [hl b hb] at hg
  have htally : tally waits' (p, g) = (n + 1 : Nat) := by
    rw [tally_acquire hw (by rw [ha]; exact Option.some_ne_none _ |>.symm) ha',
      h.registered g n hact, Nat.cast_add, Nat.cast_one]
  constructor
  case leader =>
    intro b g' hb
    rcases h.leader b g' (hleads b g' hb) with ⟨m, hm⟩
    rw [hact] at hm
    cases hm
    exact ⟨n + 1, rfl⟩
  case sole => exact fun b d g g' hb hd => h.sole b d g g' (hleads b g hb) (hleads d g' hd)
  case exclusive => exact fun act _ => h.exclusive _ hact
  case registered =>
    intro g' m hm
    cases hm
    exact htally
  case remaining => exact fun g' o m hm => absurd hm (h.not_completed hact _)
  case current =>
    intro b g' hb
    refine .inl ⟨n + 1, ?_⟩
    by_cases hba : b = a
    · rw [hba, ha'] at hb
      cases hb
      rfl
    · rw [hw b hba] at hb
      rcases h.current b g' hb with ⟨m, hm⟩ | ⟨o, m, hm⟩
      · rw [hact] at hm
        cases hm
        rfl
      · exact absurd hm (h.not_completed hact _)

theorem Waits.elect (h : Waits f p waits leads) (hact : f.active = none)
    (hdone : f.completed = none) (hnext : f'.active = some ⟨g, 0⟩)
    (hnext' : f'.completed = none)
    (hw : ∀ b, b ≠ a → waits' b = waits b) (hl : ∀ b, b ≠ a → leads' b = leads b)
    (ha : waits' a = none) (hla : leads' a = some (p, g)) : Waits f' p waits' leads' := by
  have hnone : ∀ b g', waits' b ≠ some (p, g') := by
    intro b g' hb
    by_cases hba : b = a
    · rw [hba, ha] at hb
      cases hb
    · rw [hw b hba] at hb
      rcases h.current b g' hb with ⟨m, hm⟩ | ⟨o, m, hm⟩
      · rw [hact] at hm
        cases hm
      · rw [hdone] at hm
        cases hm
  have honly : ∀ b g', leads' b = some (p, g') → b = a := by
    intro b g' hb
    by_contra hba
    rw [hl b hba] at hb
    rcases h.leader b g' hb with ⟨m, hm⟩
    rw [hact] at hm
    cases hm
  constructor
  case leader =>
    intro b g' hb
    rw [honly b g' hb, hla] at hb
    cases hb
    exact ⟨0, hnext⟩
  case sole => exact fun b d g g' hb hd => (honly b g hb).trans (honly d g' hd).symm
  case exclusive => exact fun _ _ => hnext'
  case registered =>
    intro g' m hm
    rw [hnext] at hm
    cases hm
    exact tally_eq_zero.mpr (fun b => hnone b g)
  case remaining =>
    intro g' o m hm
    rw [hnext'] at hm
    cases hm
  case current => exact fun b g' hb => absurd hb (hnone b g')

/-- The last waiter to leave takes the record away with it. -/
theorem Waits.take (h : Waits f p waits leads) {o : FaultOutcome}
    (hdone : f.completed = some ⟨g, o, n + 1⟩) (hactive : f'.active = f.active)
    (hnext : f'.completed = if n = 0 then none else some ⟨g, o, n⟩)
    (hw : ∀ b, b ≠ a → waits' b = waits b) (hl : ∀ b, b ≠ a → leads' b = leads b)
    (ha : waits a = some (p, g)) (ha' : waits' a = none) (hla : leads' a = none) :
    Waits f' p waits' leads' := by
  have hact : f.active = none := by
    cases hc : f.active with
    | none => rfl
    | some act => exact absurd hdone (h.not_completed hc _)
  have htally : tally waits' (p, g) = (n : Nat) := by
    have hstep : tally waits (p, g) = tally waits' (p, g) + 1 :=
      tally_release hw ha (by rw [ha']; exact (Option.some_ne_none _).symm)
    rw [(h.remaining g o (n + 1) hdone).2, Nat.cast_add, Nat.cast_one] at hstep
    exact (ENat.add_left_injective_of_ne_top ENat.one_ne_top hstep).symm
  have hnone : ∀ b g', leads' b ≠ some (p, g') := by
    intro b g' hb
    by_cases hba : b = a
    · rw [hba, hla] at hb
      cases hb
    · rw [hl b hba] at hb
      rcases h.leader b g' hb with ⟨m, hm⟩
      rw [hact] at hm
      cases hm
  constructor
  case leader => exact fun b g' hb => absurd hb (hnone b g')
  case sole => exact fun b _ g' _ hb => absurd hb (hnone b g')
  case exclusive =>
    intro act hm
    rw [hactive, hact] at hm
    cases hm
  case registered =>
    intro g' m hm
    rw [hactive, hact] at hm
    cases hm
  case remaining =>
    intro g' o' m hm
    rw [hnext] at hm
    split at hm
    · cases hm
    · rename_i hn
      cases hm
      exact ⟨hn, htally⟩
  case current =>
    intro b g' hb
    have hba : b ≠ a := by
      rintro rfl
      rw [ha'] at hb
      cases hb
    have hg : g' = g := by
      rcases h.current b g' ((hw b hba).symm.trans hb) with ⟨m, hm⟩ | ⟨o', m, hm⟩
      · rw [hact] at hm
        cases hm
      · rw [hdone] at hm
        cases hm
        rfl
    rw [hg] at hb
    have hn : n ≠ 0 := by
      rintro rfl
      exact tally_eq_zero.mp htally b hb
    exact .inr ⟨o, n, by rw [hnext, if_neg hn, hg]⟩

theorem Waits.finish (h : Waits f p waits leads) {o : FaultOutcome}
    (ha : leads a = some (p, g)) (hw : ∀ b, waits' b = waits b)
    (hl : ∀ b, b ≠ a → leads' b = leads b) (hla : leads' a = none) :
    Waits (f.complete g o) p waits' leads' := by
  rcases h.leader a g ha with ⟨n, hact⟩
  have hdone : f.completed = none := h.exclusive _ hact
  have hactive : (f.complete g o).active = none := FaultState.complete_active
  have hcompleted : (f.complete g o).completed = if n ≠ 0 then some ⟨g, o, n⟩ else none := by
    unfold FaultState.complete
    rw [hact, hdone]
  have htally : tally waits' (p, g) = (n : Nat) := by
    rw [funext hw]
    exact h.registered g n hact
  have hnone : ∀ b g', leads' b ≠ some (p, g') := by
    intro b g' hb
    have hba : b ≠ a := by
      rintro rfl
      rw [hla] at hb
      cases hb
    exact hba (h.sole b a g' g ((hl b hba).symm.trans hb) ha)
  constructor
  case leader => exact fun b g' hb => absurd hb (hnone b g')
  case sole => exact fun b _ g' _ hb => absurd hb (hnone b g')
  case exclusive =>
    intro act hm
    rw [hactive] at hm
    cases hm
  case registered =>
    intro g' m hm
    rw [hactive] at hm
    cases hm
  case remaining =>
    intro g' o' m hm
    rw [hcompleted] at hm
    split at hm
    · rename_i hn
      cases hm
      exact ⟨hn, htally⟩
    · cases hm
  case current =>
    intro b g' hb
    have hg : g' = g := by
      rcases h.current b g' ((hw b).symm.trans hb) with ⟨m, hm⟩ | ⟨o', m, hm⟩
      · rw [hact] at hm
        cases hm
        rfl
      · rw [hdone] at hm
        cases hm
    rw [hg] at hb
    have hn : n ≠ 0 := by
      rintro rfl
      exact tally_eq_zero.mp htally b hb
    exact .inr ⟨o, n, by rw [hcompleted, if_pos hn, hg]⟩

end Ledgers

/-! ### Steps -/

/-- What a step is to the coordinators. -/
inductive Coordinates (sh sh' : Shared) (pc pc' : Pc) : Prop where
  | apart (hf : sh'.faults = sh.faults) (ha : pc'.awaits = pc.awaits)
      (hl : pc'.leads = none ∨ pc'.leads = pc.leads) (hstuck : ∀ k, pc' ≠ .stuck k)
  | registered {k : FaultCtx} {g n : Nat} (hpc : pc = .fault k .enter)
      (hpc' : pc' = .fault k (.wait g)) (hact : (sh.faults k.pid).active = some ⟨g, n⟩)
      (hf : sh'.faults =
        update sh.faults k.pid { sh.faults k.pid with active := some ⟨g, n + 1⟩ })
  | elected {k : FaultCtx} {g : Nat} {f : FaultState} (hpc : pc = .fault k .enter)
      (hpc' : pc' = .fault k (.leadRunning g)) (hact : (sh.faults k.pid).active = none)
      (hdone : (sh.faults k.pid).completed = none) (hf : sh'.faults = update sh.faults k.pid f)
      (hact' : f.active = some ⟨g, 0⟩) (hdone' : f.completed = none)
  | taken {k : FaultCtx} {g n : Nat} {o : FaultOutcome} {f : FaultState}
      (hpc : pc = .fault k (.wait g)) (ha : pc'.awaits = none) (hl : pc'.leads = none)
      (hstuck : ∀ k, pc' ≠ .stuck k)
      (hdone : (sh.faults k.pid).completed = some ⟨g, o, n + 1⟩)
      (hf : sh'.faults = update sh.faults k.pid f) (hact' : f.active = (sh.faults k.pid).active)
      (hdone' : f.completed = if n = 0 then none else some ⟨g, o, n⟩)
  | underflow {k : FaultCtx} {g : Nat} {o : FaultOutcome} (hpc : pc = .fault k (.wait g))
      (hpc' : pc' = .stuck k) (hdone : (sh.faults k.pid).completed = some ⟨g, o, 0⟩)
  | finished {k : FaultCtx} {g : Nat} {r : FaultResult} (hpc : pc = .fault k (.finish g r))
      (ha : pc'.awaits = none) (hl : pc'.leads = none) (hstuck : ∀ k, pc' ≠ .stuck k)
      (hf : sh'.faults =
        update sh.faults k.pid ((sh.faults k.pid).complete g (.fromResult r)))

/-- A program point that waits for nobody, and leads what the last one led or
    nothing. -/
def Apart (pc pc' : Pc) : Prop :=
  pc'.awaits = none ∧ (pc'.leads = none ∨ pc'.leads = pc.leads) ∧ ∀ k, pc' ≠ .stuck k

theorem FaultCtx.return_apart {k : FaultCtx} {r : FaultResult} :
    (k.return r).awaits = none ∧ (k.return r).leads = none ∧ ∀ k', k.return r ≠ .stuck k' := by
  unfold FaultCtx.return
  (repeat' split) <;> exact ⟨rfl, rfl, fun _ h => by cases h⟩

/-- A leader takes its generation along, through every call and return. -/
theorem Flow.apart (h : Flow pc pc') (hpc : ∀ k st, pc ≠ .fault k st) : Apart pc pc' := by
  cases h with
  | fault | faultReturn | faultAcquire | faultFill | faultStuck => exact absurd rfl (hpc _ _)
  | acquired => rename_i w _ _; cases w <;> exact ⟨rfl, .inr rfl, fun _ h => by cases h⟩
  | acquireFailed => rename_i w _ _; cases w <;> exact ⟨rfl, .inr rfl, fun _ h => by cases h⟩
  | coolReturn => rename_i k _; cases k <;> exact ⟨rfl, .inr rfl, fun _ h => by cases h⟩
  | enqueue => rename_i k _ _ _ _; cases k <;> exact ⟨rfl, .inr rfl, fun _ h => by cases h⟩
  | enqueueReturn => rename_i k _ _ _; cases k <;> exact ⟨rfl, .inr rfl, fun _ h => by cases h⟩
  | evictReturn =>
      rename_i k _ _ r
      rcases r with e | outcome
      · cases k <;> exact ⟨rfl, .inr rfl, fun _ h => by cases h⟩
      · cases outcome <;> cases k <;> exact ⟨rfl, .inr rfl, fun _ h => by cases h⟩
  | fillCheckin =>
      rename_i f _ _ _
      rcases f with ⟨k, i⟩
      cases k <;> exact ⟨rfl, .inr rfl, fun _ h => by cases h⟩
  | checkinReturn => rename_i k _; cases k <;> exact ⟨rfl, .inr rfl, fun _ h => by cases h⟩
  | _ => first
    | exact ⟨rfl, .inr rfl, fun _ h => by cases h⟩
    | exact ⟨rfl, .inl rfl, fun _ h => by cases h⟩

theorem awaits_of_not_fault (hpc : ∀ k st, pc ≠ .fault k st) : pc.awaits = none := by
  cases pc with
  | fault k st => exact absurd rfl (hpc k st)
  | _ => rfl

theorem stepFault_coordinates {k : FaultCtx} {st : FaultStage}
    (hs : sh.stepFault cfg k st = some (sh', pc')) : Coordinates sh sh' (.fault k st) pc' := by
  have hapart : ∀ {pc'' : Pc}, Apart (.fault k st) pc'' → (Pc.fault k st).awaits = none →
      some (sh, pc'') = some (sh', pc') → Coordinates sh sh' (.fault k st) pc' := by
    intro pc'' h h0 heq
    cases heq
    exact .apart rfl (h.1.trans h0.symm) h.2.1 h.2.2
  have hreturn : ∀ {r}, Apart (.fault k st) (k.return r) := fun {_} =>
    ⟨FaultCtx.return_apart.1, .inl FaultCtx.return_apart.2.1, FaultCtx.return_apart.2.2⟩
  cases st with
  | running =>
      dsimp only [Shared.stepFault] at hs
      split at hs
      · exact hapart hreturn rfl hs
      · exact hapart ⟨rfl, .inl rfl, fun _ h => by cases h⟩ rfl hs
  | lookup =>
      dsimp only [Shared.stepFault] at hs
      (repeat' split at hs) <;> first
        | exact hapart ⟨rfl, .inl rfl, fun _ h => by cases h⟩ rfl hs
        | exact hapart hreturn rfl hs
  | enter =>
      dsimp only [Shared.stepFault, FaultState.enter] at hs
      cases hact : (sh.faults k.pid).active with
      | some act =>
          rw [hact] at hs
          cases hs
          exact .registered rfl rfl hact rfl
      | none =>
          cases hdone : (sh.faults k.pid).completed with
          | some done =>
              rw [hact, hdone] at hs
              dsimp only at hs
              cases hs
              exact .apart (update_eq_self k.pid sh.faults) rfl (.inl rfl) (fun _ h => by cases h)
          | none =>
              rw [hact, hdone] at hs
              cases hs
              exact .elected rfl rfl hact hdone rfl rfl rfl
  | wait g =>
      dsimp only [Shared.stepFault, FaultState.replay] at hs
      cases hdone : (sh.faults k.pid).completed with
      | none =>
          rw [hdone] at hs
          cases hs
          exact .apart (update_eq_self k.pid sh.faults) rfl (.inl rfl) (fun _ h => by cases h)
      | some done =>
          rcases done with ⟨h, o, n⟩
          rw [hdone] at hs
          dsimp only at hs
          by_cases hg : h = g
          · subst hg
            rw [if_pos rfl] at hs
            cases n with
            | zero =>
                cases hs
                exact .underflow rfl rfl hdone
            | succ n =>
                cases n with
                | zero =>
                    cases hs
                    exact .taken rfl FaultCtx.return_apart.1 FaultCtx.return_apart.2.1
                      FaultCtx.return_apart.2.2 hdone rfl rfl rfl
                | succ n =>
                    cases hs
                    exact .taken rfl FaultCtx.return_apart.1 FaultCtx.return_apart.2.1
                      FaultCtx.return_apart.2.2 hdone rfl rfl rfl
          · rw [if_neg hg] at hs
            cases hs
            exact .apart (update_eq_self k.pid sh.faults) rfl (.inl rfl) (fun _ h => by cases h)
  | finish g r =>
      cases hs
      exact .finished rfl FaultCtx.return_apart.1 FaultCtx.return_apart.2.1
        FaultCtx.return_apart.2.2 rfl
  | leadRunning g | leadLoad g | leadLookup g =>
      dsimp only [Shared.stepFault] at hs
      (repeat' split at hs) <;> first
        | (refine hapart ⟨?_, .inr ?_, ?_⟩ rfl hs <;> first | rfl | exact fun _ h => by cases h)
        | (refine hapart ⟨?_, .inl ?_, ?_⟩ rfl hs <;> first | rfl | exact fun _ h => by cases h)
  | leadCount g loc =>
      cases k with
      | demand c =>
          cases hs
          exact .apart rfl rfl (.inr rfl) (fun _ h => by cases h)
      | prefetch t => cases hs

/-- Every step is of one of these kinds. -/
theorem step_coordinates (hs : sh.step cfg c a pc = some (sh', pc')) :
    Coordinates sh sh' pc pc' := by
  by_cases hpc : ∃ k st, pc = .fault k st
  · rcases hpc with ⟨k, st, rfl⟩
    exact stepFault_coordinates hs
  · have hne : ∀ k st, pc ≠ .fault k st := fun k st h => hpc ⟨k, st, h⟩
    have happ := (step_flow hs).apart hne
    refine .apart (step_same (f := .faults) hs ?_) (happ.1.trans (awaits_of_not_fault hne).symm)
      happ.2.1 happ.2.2
    rintro (⟨k, h⟩ | ⟨k, g, h⟩ | ⟨k, g, r, h⟩)
    · exact hne _ _ h
    · exact hne _ _ h
    · exact hne _ _ h

/-! ### Runs -/

/-- Every record agrees with the agents of the pool. -/
def PoolState.Waited (s : PoolState) : Prop :=
  ∀ p, Waits (s.shared.faults p) p (fun a => (s.pcs a).awaits) (fun a => (s.pcs a).leads)

theorem waits_next {s s' : PoolState} {l : Agent × Choice} (h : s.Waited)
    (hs : (pool cfg).next s l = some s') : s'.Waited := by
  rcases pool_next hs with ⟨hstep, hother⟩
  have hw : ∀ b, b ≠ l.1 → (s'.pcs b).awaits = (s.pcs b).awaits := fun b hb => by rw [hother b hb]
  have hl : ∀ b, b ≠ l.1 → (s'.pcs b).leads = (s.pcs b).leads := fun b hb => by rw [hother b hb]
  intro p
  -- the page of the step, and the others, which it is not about
  have helse : ∀ {q f}, s'.shared.faults = update s.shared.faults q f → p ≠ q →
      (∀ g, (s'.pcs l.1).awaits = some (p, g) ↔ (s.pcs l.1).awaits = some (p, g)) →
      (∀ g, (s'.pcs l.1).leads = some (p, g) → (s.pcs l.1).leads = some (p, g)) →
      Waits (s'.shared.faults p) p (fun a => (s'.pcs a).awaits) (fun a => (s'.pcs a).leads) := by
    intro q f hf hpq ha hla
    rw [hf, update_of_ne hpq]
    exact (h p).other hw hl ha hla
  cases step_coordinates hstep with
  | apart hf ha hlead _ =>
      rw [hf]
      refine (h p).other hw hl (fun g => by rw [ha]) (fun g hg => ?_)
      rcases hlead with hlead | hlead
      · rw [hlead] at hg
        cases hg
      · rwa [hlead] at hg
  | @registered k g n hpc hpc' hact hf =>
      by_cases hp : p = k.pid
      · subst hp
        rw [hf, update_self]
        exact (h k.pid).register hact hw hl (by rw [hpc]; rfl) (by rw [hpc']; rfl)
          (by rw [hpc']; rfl)
      · refine helse hf hp (fun g' => ?_) (fun g' hg => ?_)
        · rw [hpc, hpc']
          exact ⟨fun hc => absurd (congrArg Prod.fst (Option.some.inj hc)).symm hp,
            fun hc => by cases hc⟩
        · rw [hpc'] at hg
          cases hg
  | @elected k g f hpc hpc' hact hdone hf hact' hdone' =>
      by_cases hp : p = k.pid
      · subst hp
        rw [hf, update_self]
        exact (h k.pid).elect hact hdone hact' hdone' hw hl (by rw [hpc']; rfl) (by rw [hpc']; rfl)
      · refine helse hf hp (fun g' => ?_) (fun g' hg => ?_)
        · rw [hpc, hpc']
          exact Iff.rfl
        · rw [hpc'] at hg
          exact absurd (congrArg Prod.fst (Option.some.inj hg)).symm hp
  | @taken k g n o f hpc ha hlead _ hdone hf hact' hdone' =>
      by_cases hp : p = k.pid
      · subst hp
        rw [hf, update_self]
        exact (h k.pid).take hdone hact' hdone' hw hl (by rw [hpc]; rfl) ha hlead
      · refine helse hf hp (fun g' => ?_) (fun g' hg => ?_)
        · rw [hpc, ha]
          exact ⟨fun hc => (by cases hc),
            fun hc => absurd (congrArg Prod.fst (Option.some.inj hc)).symm hp⟩
        · rw [hlead] at hg
          cases hg
  | underflow hpc hpc' hdone => exact absurd rfl ((h _).remaining _ _ _ hdone).1
  | @finished k g r hpc ha hlead _ hf =>
      by_cases hp : p = k.pid
      · subst hp
        rw [hf, update_self]
        refine (h k.pid).finish (a := l.1) (by rw [hpc]; rfl) (fun b => ?_) hl hlead
        by_cases hb : b = l.1
        · rw [hb, ha, hpc]
          rfl
        · exact hw b hb
      · refine helse hf hp (fun g' => ?_) (fun g' hg => ?_)
        · rw [hpc, ha]
          exact Iff.rfl
        · rw [hlead] at hg
          cases hg

/-- In every reachable state, the record of a page counts the agents that wait
    for it, and they wait for the generation it holds. -/
theorem waits_reachable {s : PoolState} (hr : Reachable (pool cfg) s) : s.Waited := by
  refine reachable_invariant ?_ (fun s l s' h hs => waits_next h hs) hr
  rintro s ⟨budgets, rfl⟩ p
  constructor
  case registered => exact fun g n hact => by cases hact
  case remaining => exact fun g o n hdone => by cases hdone
  case leader => exact fun a g ha => by cases ha
  case sole => exact fun a b g g' ha => by cases ha
  case exclusive => exact fun act hact => by cases hact
  case current => exact fun a g ha => by cases ha

/-- The expectation on `remaining_waiters` never fails. -/
theorem never_stuck {s : PoolState} (hr : Reachable (pool cfg) s) (b : Agent) (k : FaultCtx) :
    s.pcs b ≠ .stuck k := by
  refine reachableVia_invariant (M := pool cfg) (P := fun _ _ => True)
    (I := fun s => s.pcs b ≠ .stuck k) ?_ (fun s l s' hr ih _ hs => ?_) hr
  · rintro s ⟨budgets, rfl⟩ hc
    cases hc
  · rcases pool_next hs with ⟨hstep, hother⟩
    intro hc
    by_cases hb : b = l.1
    · subst hb
      cases step_coordinates hstep with
      | apart _ _ _ hstuck => exact hstuck k hc
      | taken _ _ _ hstuck _ _ _ _ => exact hstuck k hc
      | finished _ _ _ hstuck _ => exact hstuck k hc
      | underflow _ _ hdone => exact absurd rfl ((waits_reachable hr _).remaining _ _ _ hdone).1
      | registered _ hpc' _ _ =>
          rw [hpc'] at hc
          cases hc
      | elected _ hpc' _ _ _ _ _ =>
          rw [hpc'] at hc
          cases hc
    · exact ih ((hother b hb).symm.trans hc)

end TierBuf
