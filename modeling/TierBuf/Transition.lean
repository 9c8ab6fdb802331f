import Mathlib

/-!
# Transition Systems

Runs of a step function, and the three inductions over them.

A system here is a set of initial states and a partial function `next` from a
state and a label to the following state. A label names the party that moves
and everything the party does not decide by itself, so that the function is
deterministic and a run is just a list of labels. Nondeterminism is the choice
of the list.

`reachable_invariant` is the ordinary induction: what holds initially and is
kept by every step holds in every reachable state. `ReachableVia` is the same
set restricted to runs all of whose steps meet a condition, for properties
that are only true of such runs. `exec_observe` is the refinement induction:
when the events of a system are accepted by a second one step by step, the
event list of every run is a run of the second system. `System.withHistory`
adds a value that every step updates and none reads, for properties that speak
of the past of a state. `exists_mover` is about one state: parties that wait
for each other in the order of a rank do not wait for ever on themselves.

## Main definitions

* `System`: Initial states and a step function.
* `ReachableVia`: The states reached by steps that meet a condition.
* `Reachable`: The states reached by any steps.
* `exec`: Running a list of labels.
* `execVia`: The same, checking a condition at every step.
* `observe`: The events along a run.
* `System.withHistory`: A system that remembers.

## Theorems

* `reachableVia_invariant`, `reachable_invariant`: Invariants by induction.
* `reachable_of_via`, `ReachableVia.mono`: A conditioned run is a run, and one
  under any weaker condition.
* `reachable_exec`, `reachableVia_exec`: Running a list of labels reaches a
  state.
* `exec_observe`: Stepwise acceptance gives acceptance of the event list.
* `reachableVia_fst`, `exists_history`: A history neither adds nor loses runs.
* `history_invariant`: Invariants that relate a state to its history.
* `exists_mover`: Every chain of waiting ends in a party that can move.
-/

namespace Transition

/-- Initial states and a step function. -/
structure System (σ ι : Type*) where
  init : σ → Prop
  next : σ → ι → Option σ

variable {σ ι τ ε η : Type*} {M : System σ ι}

/-- The states reached from an initial one by steps that meet `P`. -/
inductive ReachableVia (M : System σ ι) (P : σ → ι → Prop) : σ → Prop where
  | init {s : σ} : M.init s → ReachableVia M P s
  | step {s s' : σ} {l : ι} : ReachableVia M P s → P s l → M.next s l = some s' →
      ReachableVia M P s'

/-- The reachable states. -/
def Reachable (M : System σ ι) : σ → Prop :=
  ReachableVia M (fun _ _ => True)

theorem Reachable.next {s s' : σ} {l : ι} (hr : Reachable M s) (hs : M.next s l = some s') :
    Reachable M s' :=
  ReachableVia.step hr trivial hs

theorem reachable_of_via {P : σ → ι → Prop} {s : σ} (hr : ReachableVia M P s) :
    Reachable M s := by
  induction hr with
  | init h0 => exact ReachableVia.init h0
  | step _ _ hs ih => exact Reachable.next ih hs

/-- A run of steps that meet a condition is one of steps that meet a weaker
    condition. -/
theorem ReachableVia.mono {P Q : σ → ι → Prop} (h : ∀ s l, P s l → Q s l) {s : σ}
    (hr : ReachableVia M P s) : ReachableVia M Q s := by
  induction hr with
  | init h0 => exact ReachableVia.init h0
  | step _ hp hs ih => exact ReachableVia.step ih (h _ _ hp) hs

/-- What holds initially and is kept by every step that meets `P` holds along
    every run of such steps. -/
theorem reachableVia_invariant {P : σ → ι → Prop} {I : σ → Prop}
    (h0 : ∀ s, M.init s → I s)
    (hstep : ∀ s l s', ReachableVia M P s → I s → P s l → M.next s l = some s' → I s')
    {s : σ} (hr : ReachableVia M P s) : I s := by
  induction hr with
  | init hi => exact h0 _ hi
  | step hr hp hs ih => exact hstep _ _ _ hr ih hp hs

theorem reachable_invariant {I : σ → Prop} (h0 : ∀ s, M.init s → I s)
    (hstep : ∀ s l s', I s → M.next s l = some s' → I s')
    {s : σ} (hr : Reachable M s) : I s :=
  reachableVia_invariant h0 (fun s l s' _ hi _ hs => hstep s l s' hi hs) hr

/-! ### Runs as lists of labels -/

/-- Run a list of labels, or `none` if one of them cannot be taken. -/
def exec (M : System σ ι) : σ → List ι → Option σ
  | s, [] => some s
  | s, l :: ls => match M.next s l with
    | none => none
    | some s' => exec M s' ls

/-- The events along the run of a list of labels. -/
def observe (M : System σ ι) (obs : σ → ι → Option ε) : σ → List ι → List ε
  | _, [] => []
  | s, l :: ls => match M.next s l with
    | none => []
    | some s' => (obs s l).toList ++ observe M obs s' ls

theorem reachable_exec : ∀ (ls : List ι) (s s' : σ), Reachable M s → exec M s ls = some s' →
    Reachable M s' := by
  intro ls
  induction ls with
  | nil =>
      intro s s' hr hs
      simp only [exec, Option.some.injEq] at hs
      rw [← hs]
      exact hr
  | cons l ls ih =>
      intro s s' hr hs
      simp only [exec] at hs
      cases hnext : M.next s l with
      | none => rw [hnext] at hs; exact absurd hs (by simp only [reduceCtorEq, not_false_eq_true])
      | some s1 =>
          rw [hnext] at hs
          exact ih s1 s' (hr.next hnext) hs

/-- Run a list of labels, or `none` if one of them cannot be taken or does not
    meet `P`. -/
def execVia (M : System σ ι) (P : σ → ι → Prop) [∀ s l, Decidable (P s l)] :
    σ → List ι → Option σ
  | s, [] => some s
  | s, l :: ls => if P s l then match M.next s l with
      | none => none
      | some s' => execVia M P s' ls
    else none

theorem reachableVia_exec {P : σ → ι → Prop} [∀ s l, Decidable (P s l)] (ls : List ι)
    (s s' : σ) (hr : ReachableVia M P s) (hs : execVia M P s ls = some s') :
    ReachableVia M P s' := by
  induction ls generalizing s with
  | nil =>
      rw [execVia, Option.some.injEq] at hs
      rw [← hs]
      exact hr
  | cons l ls ih =>
      rw [execVia] at hs
      split at hs
      · rename_i hp
        split at hs
        · cases hs
        · rename_i s1 hnext
          exact ih s1 (hr.step hp hnext) hs
      · cases hs

theorem exec_append (ls ls' : List ι) (s t : σ) (h : exec M s ls = some t) :
    exec M s (ls ++ ls') = exec M t ls' := by
  induction ls generalizing s with
  | nil =>
      simp only [exec, Option.some.injEq] at h
      rw [h, List.nil_append]
  | cons l ls ih =>
      simp only [exec, List.cons_append] at h ⊢
      cases hnext : M.next s l with
      | none => rw [hnext] at h; exact absurd h (by simp only [reduceCtorEq, not_false_eq_true])
      | some s1 =>
          rw [hnext] at h
          exact ih s1 h

/-- If every step from a reachable state either is silent and keeps the
    abstraction, or emits an event the second system takes from the
    abstraction of its source to that of its target, then the events of every
    run are a run of the second system. -/
theorem exec_observe (N : System τ ε) (obs : σ → ι → Option ε) (abs : σ → τ)
    (hsilent : ∀ s l s', Reachable M s → M.next s l = some s' → obs s l = none →
      abs s' = abs s)
    (hevent : ∀ s l s' e, Reachable M s → M.next s l = some s' → obs s l = some e →
      N.next (abs s) e = some (abs s')) :
    ∀ (ls : List ι) (s s' : σ), Reachable M s → exec M s ls = some s' →
      exec N (abs s) (observe M obs s ls) = some (abs s') := by
  intro ls
  induction ls with
  | nil =>
      intro s s' _ hs
      simp only [exec, Option.some.injEq] at hs
      simp only [observe, exec, hs]
  | cons l ls ih =>
      intro s s' hr hs
      simp only [exec] at hs
      cases hnext : M.next s l with
      | none => rw [hnext] at hs; exact absurd hs (by simp only [reduceCtorEq, not_false_eq_true])
      | some s1 =>
          rw [hnext] at hs
          have hrest := ih s1 s' (hr.next hnext) hs
          simp only [observe, hnext]
          cases hobs : obs s l with
          | none =>
              rw [hsilent s l s1 hr hnext hobs] at hrest
              simpa only [Option.toList_none, List.nil_append] using hrest
          | some e =>
              simp only [Option.toList_some, List.singleton_append, exec,
                hevent s l s1 e hr hnext hobs]
              exact hrest

/-! ### Histories -/

/-- A system that remembers: every step updates the second component by
    `record`, and none reads it. -/
def System.withHistory (M : System σ ι) (h0 : η) (record : η → σ → ι → σ → η) :
    System (σ × η) ι where
  init := fun x => M.init x.1 ∧ x.2 = h0
  next := fun x l => (M.next x.1 l).map (fun s' => (s', record x.2 x.1 l s'))

variable {h0 : η} {record : η → σ → ι → σ → η}

theorem withHistory_next {x x' : σ × η} {l : ι}
    (hs : (M.withHistory h0 record).next x l = some x') :
    M.next x.1 l = some x'.1 ∧ x'.2 = record x.2 x.1 l x'.1 := by
  rcases Option.map_eq_some_iff.mp hs with ⟨s', hnext, rfl⟩
  exact ⟨hnext, rfl⟩

/-- Forgetting the history gives back a run. -/
theorem reachableVia_fst {P : σ → ι → Prop} {x : σ × η}
    (hr : ReachableVia (M.withHistory h0 record) (fun y l => P y.1 l) x) :
    ReachableVia M P x.1 := by
  induction hr with
  | init hi => exact ReachableVia.init hi.1
  | step _ hp hs ih => exact ReachableVia.step ih hp (withHistory_next hs).1

theorem reachable_fst {x : σ × η} (hr : Reachable (M.withHistory h0 record) x) :
    Reachable M x.1 :=
  reachableVia_fst (P := fun _ _ => True) hr

theorem exec_fst (ls : List ι) (x x' : σ × η)
    (hs : exec (M.withHistory h0 record) x ls = some x') : exec M x.1 ls = some x'.1 := by
  induction ls generalizing x with
  | nil =>
      rw [exec, Option.some.injEq] at hs
      rw [exec, hs]
  | cons l ls ih =>
      rw [exec] at hs ⊢
      split at hs
      · cases hs
      · rename_i x1 hnext
        rw [(withHistory_next hnext).1]
        exact ih x1 hs

/-- Every run has a history. -/
theorem exists_history {P : σ → ι → Prop} {s : σ} (hr : ReachableVia M P s) :
    ∃ h, ReachableVia (M.withHistory h0 record) (fun y l => P y.1 l) (s, h) := by
  induction hr with
  | init hi => exact ⟨h0, ReachableVia.init ⟨hi, rfl⟩⟩
  | @step s s' l _ hp hs ih =>
      rcases ih with ⟨h, hh⟩
      refine ⟨record h s l s', ReachableVia.step hh hp ?_⟩
      exact Option.map_eq_some_iff.mpr ⟨s', hs, rfl⟩

/-- What relates the initial states to the initial history, and is kept by
    every step, relates every reachable state to its history. -/
theorem history_invariant {P : σ → ι → Prop} {J : σ → η → Prop} (hinit : ∀ s, M.init s → J s h0)
    (hstep : ∀ s h l s', ReachableVia M P s → J s h → P s l → M.next s l = some s' →
      J s' (record h s l s'))
    {x : σ × η} (hr : ReachableVia (M.withHistory h0 record) (fun y l => P y.1 l) x) :
    J x.1 x.2 := by
  induction hr with
  | init hi =>
      rw [hi.2]
      exact hinit _ hi.1
  | step hr hp hs ih =>
      rcases withHistory_next hs with ⟨hnext, hrec⟩
      rw [hrec]
      exact hstep _ _ _ _ (reachableVia_fst hr) ih hp hnext

/-! ### Waiting -/

/-- Where every party that cannot move waits for one of lower rank, everyone
    waits, through some chain, for a party that can move. -/
theorem exists_mover {α : Type*} {busy moves : α → Prop} {waits : α → α → Prop} (rank : α → Nat)
    (h : ∀ a, busy a → moves a ∨ ∃ b, waits a b ∧ busy b ∧ rank b < rank a) {a : α}
    (ha : busy a) : ∃ b, Relation.ReflTransGen waits a b ∧ busy b ∧ moves b := by
  induction hn : rank a using Nat.strong_induction_on generalizing a with
  | _ n ih =>
      rcases h a ha with hmoves | ⟨b, hwaits, hb, hlt⟩
      · exact ⟨a, .refl, ha, hmoves⟩
      · rcases ih (rank b) (hn ▸ hlt) hb rfl with ⟨d, hchain, hd⟩
        exact ⟨d, .head hwaits hchain, hd⟩

end Transition
