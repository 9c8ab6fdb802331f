import TierBuf.Fault.Coordinator
import TierBuf.Ledger
import TierBuf.Transition

/-!
# Fault Coalescing

The callers of one page's fault coordinator, under every schedule.

A caller runs `FaultCoordinator::enter` once. If it is elected leader it goes
through `perform_demand_fault` or `perform_prefetch_fault` and finishes with
whatever that returned; it may also be dropped at any point, which is what
unwinding does to a `FaultLeader`. Otherwise it sleeps on the condition
variable, as a waiter of the active generation or as a late arrival that must
let a completed generation drain first, and leaves as a follower.

The condition variable is a set of sleepers. `notify_all` empties it, and any
sleeper may also wake for no reason. A woken caller re-runs its lock-protected
section, which is one step.

What makes the one-slot `completed` record safe is that nothing can start
while it is occupied. `Coalesced` says so, and pins the rest to it: while a
generation is active its waiters are exactly the registered ones, and once it
has completed the waiters left are exactly the ones the record still counts,
all of them awake.

## Main definitions

* `CallerPc`: Where one caller is.
* `coalescing`: The transition system of all callers.
* `Coalesced`: The invariant.

## Theorems

* `coalesced_next`: One step keeps the invariant.
* `coalesced_reachable`: Every reachable state satisfies it.
* `fault_coalescing`: At most one leader, one outcome per waiter and that of
  its own generation, no overlap of generations, one read per generation.
-/

namespace TierBuf

open Function Ledger Transition

/-- A caller of the coordinator. A call is made once, so a thread that faults
    again is another caller. -/
abbrev Caller := Nat

/-- The stages of `perform_demand_fault` and `perform_prefetch_fault`, neither
    of which has a loop. Each may return early; `result` holds what it
    returned until `FaultLeader::finish`. -/
inductive Perform where
  | ensureRunning
  | load
  | lookup
  | checkout
  | read
  | install
  | swizzle
  | result (r : FaultResult)
  deriving DecidableEq

/-- The stage after one that does not return. -/
def Perform.following : Perform → Option Perform
  | .ensureRunning => some .load
  | .load => some .lookup
  | .lookup => some .checkout
  | .checkout => some .read
  | .read => some .install
  | .install => some .swizzle
  | .swizzle => none
  | .result _ => none

/-- Whether `read_backing_page` is still ahead. -/
def Perform.beforeRead : Perform → Bool
  | .ensureRunning | .load | .lookup | .checkout | .read => true
  | _ => false

inductive CallerPc where
  | idle
  | entering
  | deferred
  | waiting (generation : Nat)
  | leading (generation : Nat) (stage : Perform)
  /-- The leader returned with this result, `Contended` if it was dropped. -/
  | led (generation : Nat) (r : FaultResult)
  /-- A follower returned with this result. -/
  | followed (generation : Nat) (r : FaultResult)
  /-- The expectation on `remaining_waiters` failed. -/
  | panicked
  deriving DecidableEq

/-- The generation a caller is registered with as a waiter. -/
def CallerPc.waitsFor : CallerPc → Option Nat
  | .waiting g => some g
  | _ => none

/-- The generation a caller leads or has led. -/
def CallerPc.leads : CallerPc → Option Nat
  | .leading g _ => some g
  | .led g _ => some g
  | _ => none

structure Coordination where
  fault : FaultState
  asleep : Caller → Bool
  pcs : Caller → CallerPc
  /-- How many generations have started. -/
  started : Nat
  /-- How many backing reads each generation has made. -/
  reads : Nat → Nat

namespace Coordination

def initial : Coordination :=
  { fault := .initial, asleep := fun _ => false, pcs := fun _ => .idle, started := 0,
    reads := fun _ => 0 }

def moveTo (s : Coordination) (a : Caller) (pc : CallerPc) : Coordination :=
  { s with pcs := update s.pcs a pc }

/-- `Condvar::wait`: give up the mutex and sleep. -/
def sleep (s : Coordination) (a : Caller) : Coordination :=
  { s with asleep := update s.asleep a true }

/-- `Condvar::notify_all`. -/
def notifyAll (s : Coordination) : Coordination :=
  { s with asleep := fun _ => false }

/-- A caller that has not joined a generation takes the mutex. -/
def enter (s : Coordination) (a : Caller) : Coordination :=
  match s.fault.enter with
  | (.registered g, fault) => (({ s with fault := fault }).moveTo a (.waiting g)).sleep a
  | (.deferred, fault) => (({ s with fault := fault }).moveTo a .deferred).sleep a
  | (.leader g, fault) =>
    ({ s with fault := fault, started := s.started + 1 }).moveTo a (.leading g .ensureRunning)

/-- A woken waiter takes the mutex. -/
def replay (s : Coordination) (a : Caller) (g : Nat) : Coordination :=
  match s.fault.replay g with
  | (.notYet, fault) => ({ s with fault := fault }).sleep a
  | (.taken outcome false, fault) =>
    ({ s with fault := fault }).moveTo a (.followed g outcome.intoResult)
  | (.taken outcome true, fault) =>
    (({ s with fault := fault }).moveTo a (.followed g outcome.intoResult)).notifyAll
  | (.underflow, fault) => ({ s with fault := fault }).moveTo a .panicked

/-- `FaultLeader::finish`, and with `Contended` its `Drop`. -/
def finish (s : Coordination) (a : Caller) (g : Nat) (r : FaultResult) : Coordination :=
  (({ s with fault := s.fault.complete g (.fromResult r) }).moveTo a (.led g r)).notifyAll

/-- One stage of the leader that does not return; `read` is the stage that
    calls `read_backing_page`. -/
def perform (s : Coordination) (a : Caller) (g : Nat) (stage stage' : Perform) : Coordination :=
  ({ s with reads := if stage = Perform.read then update s.reads g (s.reads g + 1) else s.reads }).moveTo
    a (.leading g stage')

variable {s s' : Coordination} {a : Caller}

@[simp] theorem moveTo_fault (pc : CallerPc) : (s.moveTo a pc).fault = s.fault := rfl
@[simp] theorem moveTo_asleep (pc : CallerPc) : (s.moveTo a pc).asleep = s.asleep := rfl
@[simp] theorem moveTo_pcs (pc : CallerPc) : (s.moveTo a pc).pcs = update s.pcs a pc := rfl
@[simp] theorem moveTo_started (pc : CallerPc) : (s.moveTo a pc).started = s.started := rfl
@[simp] theorem moveTo_reads (pc : CallerPc) : (s.moveTo a pc).reads = s.reads := rfl
@[simp] theorem sleep_fault : (s.sleep a).fault = s.fault := rfl
@[simp] theorem sleep_asleep : (s.sleep a).asleep = update s.asleep a true := rfl
@[simp] theorem sleep_pcs : (s.sleep a).pcs = s.pcs := rfl
@[simp] theorem sleep_started : (s.sleep a).started = s.started := rfl
@[simp] theorem sleep_reads : (s.sleep a).reads = s.reads := rfl
@[simp] theorem notifyAll_fault : s.notifyAll.fault = s.fault := rfl
@[simp] theorem notifyAll_asleep (b : Caller) : s.notifyAll.asleep b = false := rfl
@[simp] theorem notifyAll_pcs : s.notifyAll.pcs = s.pcs := rfl
@[simp] theorem notifyAll_started : s.notifyAll.started = s.started := rfl
@[simp] theorem notifyAll_reads : s.notifyAll.reads = s.reads := rfl

end Coordination

/-- What a step's caller does not decide by itself. -/
inductive CallerMove where
  /-- An idle caller calls `enter`. -/
  | call
  /-- The caller goes on. -/
  | proceed
  /-- The leader's stage returns this result. -/
  | exit (r : FaultResult)
  /-- The leader is dropped without finishing. -/
  | drop
  /-- A sleeper wakes for no reason. -/
  | wake

/-- One step of one caller. -/
def Coordination.next (s : Coordination) : Caller × CallerMove → Option Coordination
  | (a, m) => match m with
    | .wake => some { s with asleep := update s.asleep a false }
    | .call => match s.pcs a with
      | .idle => some (s.moveTo a .entering)
      | _ => none
    | .proceed => if s.asleep a then none else match s.pcs a with
      | .entering => some (s.enter a)
      | .deferred => some (s.enter a)
      | .waiting g => some (s.replay a g)
      | .leading g (.result r) => some (s.finish a g r)
      | .leading g stage => stage.following.map (s.perform a g stage)
      | _ => none
    | .exit r => match s.pcs a with
      | .leading _ (.result _) => none
      | .leading g _ => some (s.moveTo a (.leading g (.result r)))
      | _ => none
    | .drop => match s.pcs a with
      | .leading g _ => some (s.finish a g (.error .contended))
      | _ => none

/-- All callers of one coordinator. -/
def coalescing : System Coordination (Caller × CallerMove) :=
  { init := fun s => s = .initial, next := Coordination.next }

/-- The invariant. The generation that is active, or else the one that has
    completed and is still draining, is the only one with waiters. -/
structure Coalesced (s : Coordination) : Prop where
  leader : ∀ act, s.fault.active = some act → ∃ a stage, s.pcs a = .leading act.generation stage
  active : ∀ a g stage, s.pcs a = .leading g stage → ∃ n, s.fault.active = some ⟨g, n⟩
  exclusive : ∀ act, s.fault.active = some act → s.fault.completed = none
  registered : ∀ g n, s.fault.active = some ⟨g, n⟩ → tally (fun a => (s.pcs a).waitsFor) g = n
  remaining : ∀ g o n, s.fault.completed = some ⟨g, o, n⟩ →
    n ≠ 0 ∧ tally (fun a => (s.pcs a).waitsFor) g = n
  awake : ∀ g o n a, s.fault.completed = some ⟨g, o, n⟩ → s.pcs a = .waiting g →
    s.asleep a = false
  published : ∀ g o n, s.fault.completed = some ⟨g, o, n⟩ →
    ∃ l r, s.pcs l = .led g r ∧ o = .fromResult r
  current : ∀ a g, s.pcs a = .waiting g →
    (∃ n, s.fault.active = some ⟨g, n⟩) ∨ ∃ o n, s.fault.completed = some ⟨g, o, n⟩
  unique : ∀ a b g, (s.pcs a).leads = some g → (s.pcs b).leads = some g → a = b
  followed : ∀ a g r, s.pcs a = .followed g r → ∃ l r₀, s.pcs l = .led g r₀ ∧ SameFault r₀ r
  bounded : ∀ a g, (s.pcs a).leads = some g → g < s.started
  generation : s.fault.nextGeneration = s.started % 2 ^ 64
  readOnce : ∀ g, s.reads g ≤ 1
  unread : ∀ a g stage, s.pcs a = .leading g stage → stage.beforeRead = true → s.reads g = 0
  unstarted : ∀ g, s.started ≤ g → s.reads g = 0
  sound : ∀ a, s.pcs a ≠ .panicked

variable {s s' : Coordination} {a : Caller}

theorem tally_waits_other (hd : ∀ b, b ≠ a → s'.pcs b = s.pcs b)
    (h0 : (s.pcs a).waitsFor = none) (h1 : (s'.pcs a).waitsFor = none) (g : Nat) :
    tally (fun b => (s'.pcs b).waitsFor) g = tally (fun b => (s.pcs b).waitsFor) g := by
  refine tally_other (a := a) (fun b hb => by rw [hd b hb]) ?_ ?_
  · simp only [h0, ne_eq, reduceCtorEq, not_false_eq_true]
  · simp only [h1, ne_eq, reduceCtorEq, not_false_eq_true]

theorem coalesced_initial : Coalesced .initial := by
  constructor <;> simp [Coordination.initial, FaultState.initial, CallerPc.leads]

theorem coalesced_quiet (h : Coalesced s) (hf : s'.fault = s.fault)
    (hst : s'.started = s.started) (hrd : ∀ g, s'.reads g = s.reads g)
    (hd : ∀ b, b ≠ a → s'.pcs b = s.pcs b) (hs : ∀ b, b ≠ a → s'.asleep b = s.asleep b)
    (hp : s.pcs a = .idle ∨ s.pcs a = .entering ∨ s.pcs a = .deferred)
    (hp' : s'.pcs a = .entering ∨ s'.pcs a = .deferred) : Coalesced s' := by
  have hw := tally_waits_other hd (by rcases hp with hp | hp | hp <;> rw [hp] <;> rfl)
    (by rcases hp' with hp | hp <;> rw [hp] <;> rfl)
  have hl : (s.pcs a).leads = none := by rcases hp with hp | hp | hp <;> rw [hp] <;> rfl
  have hl' : (s'.pcs a).leads = none := by rcases hp' with hp | hp <;> rw [hp] <;> rfl
  cases h
  constructor <;> grind

theorem coalesced_wake (h : Coalesced s) (hf : s'.fault = s.fault) (hst : s'.started = s.started)
    (hrd : ∀ g, s'.reads g = s.reads g) (hd : ∀ b, s'.pcs b = s.pcs b)
    (hs : ∀ b, s.asleep b = false → s'.asleep b = false) : Coalesced s' := by
  have hw : ∀ g, tally (fun b => (s'.pcs b).waitsFor) g = tally (fun b => (s.pcs b).waitsFor) g :=
    fun g => tally_congr (fun b => by rw [hd b])
  cases h
  constructor <;> grind

/-- A waiter of a generation that has not completed goes back to sleep. -/
theorem coalesced_asleep (h : Coalesced s) (hdone : s.fault.completed = none)
    (hf : s'.fault = s.fault) (hst : s'.started = s.started)
    (hrd : ∀ g, s'.reads g = s.reads g) (hd : ∀ b, s'.pcs b = s.pcs b) : Coalesced s' := by
  have hw : ∀ g, tally (fun b => (s'.pcs b).waitsFor) g = tally (fun b => (s.pcs b).waitsFor) g :=
    fun g => tally_congr (fun b => by rw [hd b])
  cases h
  constructor <;> grind

theorem coalesced_registered (h : Coalesced s) {act : ActiveFault}
    (hact : s.fault.active = some act)
    (hf : s'.fault = { s.fault with active := some { act with waiters := act.waiters + 1 } })
    (hst : s'.started = s.started) (hrd : ∀ g, s'.reads g = s.reads g)
    (hd : ∀ b, b ≠ a → s'.pcs b = s.pcs b)
    (hp : s.pcs a = .entering ∨ s.pcs a = .deferred)
    (hp' : s'.pcs a = .waiting act.generation) : Coalesced s' := by
  have h0 : (s.pcs a).waitsFor = none := by rcases hp with hp | hp <;> rw [hp] <;> rfl
  have h1 : (s'.pcs a).waitsFor = some act.generation := by rw [hp']; rfl
  have hl : (s.pcs a).leads = none := by rcases hp with hp | hp <;> rw [hp] <;> rfl
  have hl' : (s'.pcs a).leads = none := by rw [hp']; rfl
  have hw : tally (fun b => (s'.pcs b).waitsFor) act.generation = (act.waiters + 1 : Nat) := by
    rw [tally_acquire (a := a) (fun b hb => by rw [hd b hb]) (by simp [h0]) h1]
    rw [h.registered act.generation act.waiters hact, Nat.cast_add, Nat.cast_one]
  cases h
  constructor
  case registered =>
    intro g n hg
    rw [hf] at hg
    simp only [Option.some.injEq, ActiveFault.mk.injEq] at hg
    rw [← hg.1, ← hg.2, hw]
  all_goals grind

theorem coalesced_elected (h : Coalesced s)
    (hact : s.fault.active = none) (hdone : s.fault.completed = none) (hlt : s.started < 2 ^ 64)
    (hf : s'.fault = { s.fault with
      nextGeneration := (s.fault.nextGeneration + 1) % 2 ^ 64
      active := some { generation := s.fault.nextGeneration, waiters := 0 } })
    (hst : s'.started = s.started + 1) (hrd : ∀ g, s'.reads g = s.reads g)
    (hd : ∀ b, b ≠ a → s'.pcs b = s.pcs b)
    (hp : s.pcs a = .entering ∨ s.pcs a = .deferred)
    (hp' : s'.pcs a = .leading s.fault.nextGeneration .ensureRunning) : Coalesced s' := by
  have hgen : s.fault.nextGeneration = s.started := by
    rw [h.generation, Nat.mod_eq_of_lt hlt]
  have h0 : (s.pcs a).waitsFor = none := by rcases hp with hp | hp <;> rw [hp] <;> rfl
  have h1 : (s'.pcs a).waitsFor = none := by rw [hp']; rfl
  have hl : (s.pcs a).leads = none := by rcases hp with hp | hp <;> rw [hp] <;> rfl
  have hl' : (s'.pcs a).leads = some s.started := by rw [hp', hgen]; rfl
  have hnone : ∀ b g, s.pcs b ≠ .waiting g := by
    intro b g hb
    rcases h.current b g hb with ⟨n, hn⟩ | ⟨o, n, hn⟩
    · rw [hact] at hn
      exact absurd hn (by simp only [reduceCtorEq, not_false_eq_true])
    · rw [hdone] at hn
      exact absurd hn (by simp only [reduceCtorEq, not_false_eq_true])
  have hw : ∀ g, tally (fun b => (s'.pcs b).waitsFor) g = (0 : Nat) := by
    intro g
    rw [tally_waits_other hd h0 h1, Nat.cast_zero, tally_eq_zero]
    intro b hb
    have := hnone b
    cases hpc : s.pcs b <;> simp_all [CallerPc.waitsFor]
  cases h
  constructor
  case registered =>
    intro g n hg
    rw [hf] at hg
    simp only [Option.some.injEq, ActiveFault.mk.injEq] at hg
    rw [← hg.2, hw]
  all_goals grind

theorem coalesced_taken (h : Coalesced s) {g n : Nat} {o : FaultOutcome}
    (hdone : s.fault.completed = some ⟨g, o, n + 1⟩) (hp : s.pcs a = .waiting g)
    (hf : s'.fault = { s.fault with
      completed := if n = 0 then none else some ⟨g, o, n⟩ })
    (hst : s'.started = s.started) (hrd : ∀ g, s'.reads g = s.reads g)
    (hd : ∀ b, b ≠ a → s'.pcs b = s.pcs b)
    (hs : ∀ b, s.asleep b = false → s'.asleep b = false)
    (hp' : s'.pcs a = .followed g o.intoResult) : Coalesced s' := by
  have h0 : (s.pcs a).waitsFor = some g := by rw [hp]; rfl
  have h1 : (s'.pcs a).waitsFor = none := by rw [hp']; rfl
  have hl : (s.pcs a).leads = none := by rw [hp]; rfl
  have hl' : (s'.pcs a).leads = none := by rw [hp']; rfl
  have hact : s.fault.active = none := by
    cases hc : s.fault.active with
    | none => rfl
    | some act =>
        rw [h.exclusive act hc] at hdone
        exact absurd hdone (by simp only [reduceCtorEq, not_false_eq_true])
  have hw : tally (fun b => (s'.pcs b).waitsFor) g = (n : Nat) := by
    have hstep : tally (fun b => (s.pcs b).waitsFor) g =
        tally (fun b => (s'.pcs b).waitsFor) g + 1 :=
      tally_release (a := a) (fun b hb => by rw [hd b hb]) h0 (by simp [h1])
    rw [(h.remaining g o (n + 1) hdone).2, Nat.cast_add, Nat.cast_one] at hstep
    exact (ENat.add_left_injective_of_ne_top ENat.one_ne_top hstep).symm
  -- the last waiter to leave takes the record away with it
  have hlast : ∀ b g', s'.pcs b = .waiting g' → g' = g ∧ n ≠ 0 := by
    intro b g' hb
    have hne : b ≠ a := by
      intro hc
      rw [hc, hp'] at hb
      exact absurd hb (by simp only [reduceCtorEq, not_false_eq_true])
    have hg : g' = g := by
      rcases h.current b g' (by rw [← hd b hne]; exact hb) with ⟨m, hm⟩ | ⟨o', m, hm⟩
      · rw [hact] at hm
        exact absurd hm (by simp only [reduceCtorEq, not_false_eq_true])
      · rw [hdone] at hm
        simp only [Option.some.injEq, CompletedFault.mk.injEq] at hm
        exact hm.1.symm
    refine ⟨hg, fun hn => ?_⟩
    rw [hn, Nat.cast_zero, tally_eq_zero] at hw
    exact hw b (by simp only [hb, hg, CallerPc.waitsFor])
  have hsame : ∀ r, o = .fromResult r → SameFault r o.intoResult := by
    intro r hr
    rw [hr]
    exact sameFault_replay r
  cases h
  constructor
  case remaining =>
    intro g' o' m hm
    rw [hf] at hm
    by_cases hn : n = 0
    · rw [if_pos hn] at hm
      exact absurd hm (by simp only [reduceCtorEq, not_false_eq_true])
    · simp only [if_neg hn, Option.some.injEq, CompletedFault.mk.injEq] at hm
      rw [← hm.2.2, ← hm.1]
      exact ⟨hn, hw⟩
  all_goals grind

theorem coalesced_finish (h : Coalesced s) {g n : Nat} {stage : Perform} {r : FaultResult}
    (hact : s.fault.active = some ⟨g, n⟩) (hp : s.pcs a = .leading g stage)
    (hf : s'.fault = { s.fault with
      active := none
      completed := if n ≠ 0 then some ⟨g, .fromResult r, n⟩ else s.fault.completed })
    (hst : s'.started = s.started) (hrd : ∀ g, s'.reads g = s.reads g)
    (hd : ∀ b, b ≠ a → s'.pcs b = s.pcs b) (hs : ∀ b, s'.asleep b = false)
    (hp' : s'.pcs a = .led g r) : Coalesced s' := by
  have h0 : (s.pcs a).waitsFor = none := by rw [hp]; rfl
  have h1 : (s'.pcs a).waitsFor = none := by rw [hp']; rfl
  have hl : (s.pcs a).leads = some g := by rw [hp]; rfl
  have hl' : (s'.pcs a).leads = some g := by rw [hp']; rfl
  have hdone : s.fault.completed = none := h.exclusive _ hact
  have hw : tally (fun b => (s'.pcs b).waitsFor) g = (n : Nat) := by
    rw [tally_waits_other hd h0 h1, h.registered g n hact]
  have hwait : ∀ b g', s'.pcs b = .waiting g' → g' = g ∧ n ≠ 0 := by
    intro b g' hb
    have hne : b ≠ a := by
      intro hc
      rw [hc, hp'] at hb
      exact absurd hb (by simp only [reduceCtorEq, not_false_eq_true])
    have hg : g' = g := by
      rcases h.current b g' (by rw [← hd b hne]; exact hb) with ⟨m, hm⟩ | ⟨o', m, hm⟩
      · rw [hact] at hm
        simp only [Option.some.injEq, ActiveFault.mk.injEq] at hm
        exact hm.1.symm
      · rw [hdone] at hm
        exact absurd hm (by simp only [reduceCtorEq, not_false_eq_true])
    refine ⟨hg, fun hn => ?_⟩
    rw [hn, Nat.cast_zero, tally_eq_zero] at hw
    exact hw b (by simp only [hb, hg, CallerPc.waitsFor])
  have honly : ∀ b g' stage', s'.pcs b ≠ .leading g' stage' := by
    intro b g' stage' hb
    have hne : b ≠ a := by
      intro hc
      rw [hc, hp'] at hb
      exact absurd hb (by simp only [reduceCtorEq, not_false_eq_true])
    rw [hd b hne] at hb
    rcases h.active b g' stage' hb with ⟨m, hm⟩
    rw [hact] at hm
    simp only [Option.some.injEq, ActiveFault.mk.injEq] at hm
    exact hne (h.unique b a g (by rw [hb, hm.1]; rfl) hl)
  cases h
  constructor
  case remaining =>
    intro g' o' m hm
    rw [hf] at hm
    by_cases hn : n = 0
    · simp only [hn, ne_eq, not_true_eq_false, if_false, hdone] at hm
      exact absurd hm (by simp only [reduceCtorEq, not_false_eq_true])
    · simp only [ne_eq, hn, not_false_eq_true, if_true, Option.some.injEq,
        CompletedFault.mk.injEq] at hm
      rw [← hm.2.2, ← hm.1]
      exact ⟨hn, hw⟩
  all_goals grind

theorem coalesced_leading (h : Coalesced s) {g : Nat} {stage t : Perform}
    (hp : s.pcs a = .leading g stage) (hp' : s'.pcs a = .leading g t)
    (hf : s'.fault = s.fault) (hst : s'.started = s.started)
    (hrd : ∀ g', g' ≠ g → s'.reads g' = s.reads g')
    (hread : (s'.reads g = s.reads g ∧ (t.beforeRead = true → stage.beforeRead = true)) ∨
      (stage = .read ∧ s'.reads g = s.reads g + 1 ∧ t.beforeRead = false))
    (hd : ∀ b, b ≠ a → s'.pcs b = s.pcs b)
    (hs : ∀ b, s.asleep b = false → s'.asleep b = false) : Coalesced s' := by
  have h0 : (s.pcs a).waitsFor = none := by rw [hp]; rfl
  have h1 : (s'.pcs a).waitsFor = none := by rw [hp']; rfl
  have hl : (s.pcs a).leads = some g := by rw [hp]; rfl
  have hl' : (s'.pcs a).leads = some g := by rw [hp']; rfl
  have hw := tally_waits_other hd h0 h1
  have hlt : g < s.started := h.bounded a g hl
  have hzero : stage = .read → s.reads g = 0 := fun hc =>
    h.unread a g stage hp (by rw [hc]; rfl)
  have hone : ∀ b stage'', b ≠ a → s.pcs b ≠ .leading g stage'' := by
    intro b stage'' hne hb
    exact hne (h.unique b a g (by rw [hb]; rfl) hl)
  have hu := h.unread a g stage hp
  cases h
  constructor <;> grind

theorem coalesced_enter (h : Coalesced s) (hlt : (s.enter a).started < 2 ^ 64)
    (hp : s.pcs a = .entering ∨ s.pcs a = .deferred) : Coalesced (s.enter a) := by
  cases hact : s.fault.active with
  | some act =>
      have he : s.enter a = (({ s with fault := { s.fault with
          active := some { act with waiters := act.waiters + 1 } } }).moveTo a
            (.waiting act.generation)).sleep a := by
        simp only [Coordination.enter, FaultState.enter, hact]
      rw [he]
      refine coalesced_registered h hact rfl rfl (fun _ => rfl) (fun b hb => ?_) hp ?_
      · simp [hb]
      · simp
  | none =>
      cases hdone : s.fault.completed with
      | some done =>
          have he : s.enter a = (s.moveTo a .deferred).sleep a := by
            simp only [Coordination.enter, FaultState.enter, hact, hdone]
          rw [he]
          refine coalesced_quiet h rfl rfl (fun _ => rfl) (fun b hb => ?_) (fun b hb => ?_)
            (.inr hp) (.inr ?_)
          · simp [hb]
          · simp [hb]
          · simp
      | none =>
          have he : s.enter a = ({ s with started := s.started + 1, fault := { s.fault with
              nextGeneration := (s.fault.nextGeneration + 1) % 2 ^ 64
              active := some { generation := s.fault.nextGeneration, waiters := 0 } } }).moveTo a
                (.leading s.fault.nextGeneration .ensureRunning) := by
            simp only [Coordination.enter, FaultState.enter, hact, hdone]
          rw [he] at hlt ⊢
          refine coalesced_elected h hact hdone (Nat.lt_of_succ_lt hlt) rfl rfl (fun _ => rfl)
            (fun b hb => ?_) hp ?_
          · simp [hb]
          · simp

theorem coalesced_replay {g : Nat} (h : Coalesced s) (hp : s.pcs a = .waiting g) :
    Coalesced (s.replay a g) := by
  cases hdone : s.fault.completed with
  | none =>
      have he : s.replay a g = s.sleep a := by
        simp only [Coordination.replay, FaultState.replay, hdone]
      rw [he]
      exact coalesced_asleep h hdone rfl rfl (fun _ => rfl) (fun _ => rfl)
  | some done =>
      rcases done with ⟨g', o, n⟩
      have hg : g' = g := by
        rcases h.current a g hp with ⟨m, hm⟩ | ⟨o', m, hm⟩
        · rw [h.exclusive _ hm] at hdone
          exact absurd hdone (by simp only [reduceCtorEq, not_false_eq_true])
        · rw [hdone] at hm
          simp only [Option.some.injEq, CompletedFault.mk.injEq] at hm
          exact hm.1
      rw [hg] at hdone
      match n, hdone with
      | 0, hdone => exact absurd rfl (h.remaining g o 0 hdone).1
      | 1, hdone =>
          have he : s.replay a g = (({ s with fault := { s.fault with
              completed := none } }).moveTo a (.followed g o.intoResult)).notifyAll := by
            simp only [Coordination.replay, FaultState.replay, hdone, if_true]
          rw [he]
          refine coalesced_taken h hdone hp rfl rfl (fun _ => rfl) (fun b hb => ?_) ?_ ?_
          · simp [hb]
          · simp
          · simp
      | n + 2, hdone =>
          have he : s.replay a g = ({ s with fault := { s.fault with
              completed := some ⟨g, o, n + 1⟩ } }).moveTo a (.followed g o.intoResult) := by
            simp only [Coordination.replay, FaultState.replay, hdone, if_true]
          rw [he]
          refine coalesced_taken h hdone hp rfl rfl (fun _ => rfl) (fun b hb => ?_) ?_ ?_
          · simp [hb]
          · simp
          · simp

theorem coalesced_complete {g : Nat} {stage : Perform} (h : Coalesced s)
    (hp : s.pcs a = .leading g stage) (r : FaultResult) : Coalesced (s.finish a g r) := by
  rcases h.active a g stage hp with ⟨n, hact⟩
  refine coalesced_finish (r := r) h hact hp ?_ rfl (fun _ => rfl) (fun b hb => ?_) (fun _ => rfl) ?_
  · simp only [Coordination.finish, Coordination.notifyAll_fault, Coordination.moveTo_fault,
      FaultState.complete, hact]
  · simp [Coordination.finish, hb]
  · simp [Coordination.finish]

theorem coalesced_perform {g : Nat} {stage stage' : Perform} (h : Coalesced s)
    (hp : s.pcs a = .leading g stage) (hf : stage.following = some stage') :
    Coalesced (s.perform a g stage stage') := by
  refine coalesced_leading (t := stage') h hp ?_ rfl rfl (fun g' hg => ?_) ?_
    (fun b hb => ?_) (fun _ hb => hb)
  · simp [Coordination.perform]
  · by_cases hr : stage = .read <;> simp [Coordination.perform, hr, hg]
  · by_cases hr : stage = .read
    · right
      rw [hr] at hf ⊢
      cases hf
      simp [Coordination.perform, Perform.beforeRead]
    · left
      refine ⟨by simp [Coordination.perform, hr], fun _ => ?_⟩
      cases stage <;> cases hf <;> first | rfl | exact absurd rfl hr | contradiction
  · simp [Coordination.perform, hb]

/-- Everything one step of one caller can do. -/
theorem next_cases {m : CallerMove} (hs : s.next (a, m) = some s') :
    s' = { s with asleep := update s.asleep a false } ∨
    (s.pcs a = .idle ∧ s' = s.moveTo a .entering) ∨
    ((s.pcs a = .entering ∨ s.pcs a = .deferred) ∧ s' = s.enter a) ∨
    (∃ g, s.pcs a = .waiting g ∧ s' = s.replay a g) ∨
    (∃ g stage r, s.pcs a = .leading g stage ∧ s' = s.finish a g r) ∨
    (∃ g stage stage', s.pcs a = .leading g stage ∧ stage.following = some stage' ∧
      s' = s.perform a g stage stage') ∨
    (∃ g stage r, s.pcs a = .leading g stage ∧ s' = s.moveTo a (.leading g (.result r))) := by
  cases m with
  | wake =>
      simp only [Coordination.next, Option.some.injEq] at hs
      exact .inl hs.symm
  | call =>
      simp only [Coordination.next] at hs
      split at hs <;> simp only [Option.some.injEq, reduceCtorEq] at hs
      exact .inr (.inl ⟨‹_›, hs.symm⟩)
  | proceed =>
      simp only [Coordination.next] at hs
      split at hs
      · simp only [reduceCtorEq] at hs
      · split at hs <;> simp only [Option.some.injEq, Option.map_eq_some_iff, reduceCtorEq] at hs
        · exact .inr (.inr (.inl ⟨.inl ‹_›, hs.symm⟩))
        · exact .inr (.inr (.inl ⟨.inr ‹_›, hs.symm⟩))
        · exact .inr (.inr (.inr (.inl ⟨_, ‹_›, hs.symm⟩)))
        · exact .inr (.inr (.inr (.inr (.inl ⟨_, _, _, ‹_›, hs.symm⟩))))
        · rcases hs with ⟨stage', hf, he⟩
          exact .inr (.inr (.inr (.inr (.inr (.inl ⟨_, _, stage', ‹_›, hf, he.symm⟩)))))
  | exit r =>
      simp only [Coordination.next] at hs
      split at hs <;> simp only [Option.some.injEq, reduceCtorEq] at hs
      exact .inr (.inr (.inr (.inr (.inr (.inr ⟨_, _, r, ‹_›, hs.symm⟩)))))
  | drop =>
      simp only [Coordination.next] at hs
      split at hs <;> simp only [Option.some.injEq, reduceCtorEq] at hs
      exact .inr (.inr (.inr (.inr (.inl ⟨_, _, _, ‹_›, hs.symm⟩))))

theorem started_next {m : CallerMove} (hs : s.next (a, m) = some s') :
    s.started ≤ s'.started := by
  rcases next_cases hs with rfl | ⟨-, rfl⟩ | ⟨-, rfl⟩ | ⟨g, -, rfl⟩ | ⟨g, _, r, -, rfl⟩ |
    ⟨g, _, _, -, -, rfl⟩ | ⟨g, _, r, -, rfl⟩
  · exact le_rfl
  · exact le_rfl
  · unfold Coordination.enter
    split <;> simp
  · unfold Coordination.replay
    split <;> simp
  · exact le_rfl
  · exact le_rfl
  · exact le_rfl

/-- One step keeps the invariant, as long as the generation counter has not
    wrapped. -/
theorem coalesced_next {m : CallerMove} (h : Coalesced s) (hlt : s'.started < 2 ^ 64)
    (hs : s.next (a, m) = some s') : Coalesced s' := by
  rcases next_cases hs with rfl | ⟨hp, rfl⟩ | ⟨hp, rfl⟩ | ⟨g, hp, rfl⟩ | ⟨g, _, r, hp, rfl⟩ |
    ⟨g, _, _, hp, hf, rfl⟩ | ⟨g, stage, r, hp, rfl⟩
  · refine coalesced_wake h rfl rfl (fun _ => rfl) (fun _ => rfl) (fun b hb => ?_)
    by_cases hba : b = a
    · simp [hba]
    · simp [hba, hb]
  · refine coalesced_quiet h rfl rfl (fun _ => rfl) (fun b hb => ?_) (fun _ _ => rfl)
      (.inl hp) (.inl ?_)
    · simp [hb]
    · simp
  · exact coalesced_enter h hlt hp
  · exact coalesced_replay h hp
  · exact coalesced_complete h hp r
  · exact coalesced_perform h hp hf
  · refine coalesced_leading (t := .result r) h hp ?_ rfl rfl (fun _ _ => rfl)
      (.inl ⟨rfl, fun hb => ?_⟩) (fun b hb => ?_) (fun _ hb => hb)
    · simp
    · exact absurd hb (by simp [Perform.beforeRead])
    · simp [hb]

theorem coalesced_reachable (hr : Reachable coalescing s) (hlt : s.started < 2 ^ 64) :
    Coalesced s := by
  refine reachable_invariant (M := coalescing) (I := fun s => s.started < 2 ^ 64 → Coalesced s)
    (fun s h0 _ => ?_) (fun s l s' hi hs hlt => ?_) hr hlt
  · rw [h0]
    exact coalesced_initial
  · exact coalesced_next (hi (Nat.lt_of_le_of_lt (started_next hs) hlt)) hlt hs

/-- A step changes the position of no caller but its own. -/
theorem next_pcs_other {m : CallerMove} {b : Caller} (hs : s.next (a, m) = some s')
    (hb : b ≠ a) : s'.pcs b = s.pcs b := by
  rcases next_cases hs with rfl | ⟨-, rfl⟩ | ⟨-, rfl⟩ | ⟨g, -, rfl⟩ | ⟨g, _, r, -, rfl⟩ |
    ⟨g, _, _, -, -, rfl⟩ | ⟨g, _, r, -, rfl⟩
  · rfl
  · simp [hb]
  · unfold Coordination.enter
    split <;> simp [hb]
  · unfold Coordination.replay
    split <;> simp [hb]
  · simp [Coordination.finish, hb]
  · simp [Coordination.perform, hb]
  · simp [hb]

/-- A waiter that takes the mutex stays where it is or takes an outcome of its
    own generation. -/
theorem replay_pcs {g : Nat} (h : Coalesced (s.replay a g)) (hp : s.pcs a = .waiting g) :
    (s.replay a g).pcs a = .waiting g ∨ ∃ r, (s.replay a g).pcs a = .followed g r := by
  have hsound := h.sound a
  unfold Coordination.replay at hsound ⊢
  split at hsound <;> simp_all

theorem waiting_next {m : CallerMove} {b : Caller} {g : Nat} (h : Coalesced s')
    (hp : s.pcs b = .waiting g) (hs : s.next (a, m) = some s') :
    s'.pcs b = .waiting g ∨ ∃ r, s'.pcs b = .followed g r := by
  by_cases hb : b = a
  · rcases next_cases hs with rfl | ⟨hc, rfl⟩ | ⟨hc, rfl⟩ | ⟨g', hc, rfl⟩ | ⟨g', _, r, hc, rfl⟩ |
      ⟨g', _, _, hc, -, rfl⟩ | ⟨g', _, r, hc, rfl⟩
    · exact .inl hp
    · simp [← hb, hp] at hc
    · simp [← hb, hp] at hc
    · have hg : g' = g := by
        rw [← hb, hp] at hc
        exact (CallerPc.waiting.inj hc).symm
      rw [hg] at h ⊢
      rw [hb]
      exact replay_pcs h (hb ▸ hp)
    · simp [← hb, hp] at hc
    · simp [← hb, hp] at hc
    · simp [← hb, hp] at hc
  · exact .inl (by rw [next_pcs_other hs hb, hp])

/-- A follower has left for good. -/
theorem followed_next {m : CallerMove} {b : Caller} {g : Nat} {r : FaultResult}
    (hp : s.pcs b = .followed g r) (hs : s.next (a, m) = some s') :
    s'.pcs b = .followed g r := by
  by_cases hb : b = a
  · rcases next_cases hs with rfl | ⟨hc, rfl⟩ | ⟨hc, rfl⟩ | ⟨g', hc, rfl⟩ | ⟨g', _, _, hc, rfl⟩ |
      ⟨g', _, _, hc, -, rfl⟩ | ⟨g', _, _, hc, rfl⟩
    · exact hp
    all_goals simp [← hb, hp] at hc
  · rw [next_pcs_other hs hb, hp]

/-- A generation starts only when nobody waits for an outcome. -/
theorem next_started {m : CallerMove} (h : Coalesced s) (hs : s.next (a, m) = some s')
    (hne : s'.started ≠ s.started) (b : Caller) (g : Nat) : s.pcs b ≠ .waiting g := by
  intro hb
  rcases next_cases hs with rfl | ⟨-, rfl⟩ | ⟨-, rfl⟩ | ⟨g', -, rfl⟩ | ⟨g', _, r, -, rfl⟩ |
    ⟨g', _, _, -, -, rfl⟩ | ⟨g', _, r, -, rfl⟩
  · exact hne rfl
  · exact hne rfl
  · unfold Coordination.enter FaultState.enter at hne
    rcases h.current b g hb with ⟨n, hn⟩ | ⟨o, n, hn⟩
    · simp [hn] at hne
    · have hact : s.fault.active = none := by
        cases hc : s.fault.active with
        | none => rfl
        | some act => simp [h.exclusive act hc] at hn
      simp [hact, hn] at hne
  · unfold Coordination.replay at hne
    split at hne <;> simp at hne
  · exact hne rfl
  · exact hne rfl
  · exact hne rfl

/-- A waiter whose leader has returned is awake, and its next step takes the
    leader's outcome. -/
theorem waiting_served {g : Nat} (h : Coalesced s) (hp : s.pcs a = .waiting g) :
    (∃ l stage, s.pcs l = .leading g stage) ∨
    (∃ l r, s.pcs l = .led g r ∧ s.asleep a = false ∧ ∃ s' r',
      s.next (a, .proceed) = some s' ∧ s'.pcs a = .followed g r' ∧ SameFault r r') := by
  rcases h.current a g hp with ⟨n, hact⟩ | ⟨o, n, hdone⟩
  · rcases h.leader _ hact with ⟨l, stage, hl⟩
    exact .inl ⟨l, stage, hl⟩
  · rcases h.published g o n hdone with ⟨l, r, hl, ho⟩
    have hawake : s.asleep a = false := h.awake g o n a hdone hp
    refine .inr ⟨l, r, hl, hawake, s.replay a g, o.intoResult, ?_, ?_, ?_⟩
    · simp [Coordination.next, hawake, hp]
    · match n, hdone with
      | 0, hdone => exact absurd rfl (h.remaining g o 0 hdone).1
      | 1, hdone => simp [Coordination.replay, FaultState.replay, hdone]
      | n + 2, hdone => simp [Coordination.replay, FaultState.replay, hdone]
    · rw [ho]
      exact sameFault_replay r

theorem drop_pcs {g : Nat} {stage : Perform} (hp : s.pcs a = .leading g stage)
    (hs : s.next (a, .drop) = some s') : s'.pcs a = .led g (.error .contended) := by
  simp only [Coordination.next, hp, Option.some.injEq] at hs
  rw [← hs]
  simp [Coordination.finish]

theorem leading_unique (h : Coalesced s) {b : Caller} {g g' : Nat} {stage stage' : Perform}
    (ha : s.pcs a = .leading g stage) (hb : s.pcs b = .leading g' stage') : a = b := by
  rcases h.active a g stage ha with ⟨n, hn⟩
  rcases h.active b g' stage' hb with ⟨n', hn'⟩
  rw [hn] at hn'
  simp only [Option.some.injEq, ActiveFault.mk.injEq] at hn'
  exact h.unique a b g (by rw [ha]; rfl) (by rw [hb, hn'.1]; rfl)

/-- Fault coalescing. There is one leader at a time; every follower of a
    generation has that generation's outcome and keeps it; a waiter is left
    behind neither by its leader nor by its successor generation; and a
    generation reads the backing tier at most once. -/
theorem fault_coalescing (s : Coordination) (hr : Reachable coalescing s)
    (hlt : s.started < 2 ^ 64) :
    (∀ a b g g' stage stage', s.pcs a = .leading g stage → s.pcs b = .leading g' stage' → a = b) ∧
    (∀ a g, s.pcs a = .waiting g →
      (∃ l stage, s.pcs l = .leading g stage) ∨
      (∃ l r, s.pcs l = .led g r ∧ s.asleep a = false ∧ ∃ s' r',
        s.next (a, .proceed) = some s' ∧ s'.pcs a = .followed g r' ∧ SameFault r r')) ∧
    (∀ a g m s', s.pcs a = .waiting g → s.next m = some s' →
      s'.pcs a = .waiting g ∨ ∃ r, s'.pcs a = .followed g r) ∧
    (∀ a g r, s.pcs a = .followed g r →
      (∃ l r₀, s.pcs l = .led g r₀ ∧ SameFault r₀ r ∧ ∀ b, (s.pcs b).leads = some g → b = l) ∧
      ∀ m s', s.next m = some s' → s'.pcs a = .followed g r) ∧
    (∀ a g stage s', s.pcs a = .leading g stage → s.next (a, .drop) = some s' →
      s'.pcs a = .led g (.error .contended)) ∧
    (∀ m s', s.next m = some s' → s'.started ≠ s.started → ∀ a g, s.pcs a ≠ .waiting g) ∧
    (∀ a, s.pcs a ≠ .panicked) ∧
    (∀ g, s.reads g ≤ 1) := by
  have h := coalesced_reachable hr hlt
  refine ⟨fun a b g g' stage stage' => leading_unique h, fun a g => waiting_served h, ?_, ?_,
    fun a g stage s' => drop_pcs, fun m s' => next_started h, h.sound, h.readOnce⟩
  · intro a g m s' hp hs
    have hsame : s'.started = s.started := by
      by_contra hne
      exact next_started h hs hne a g hp
    exact waiting_next (coalesced_reachable (hr.next hs) (hsame ▸ hlt)) hp hs
  · intro a g r hp
    rcases h.followed a g r hp with ⟨l, r₀, hl, hsame⟩
    refine ⟨⟨l, r₀, hl, hsame, fun b hb => h.unique b l g hb (by rw [hl]; rfl)⟩, ?_⟩
    intro m s' hs
    exact followed_next hp hs
/-- Two callers: the second waits for the first, which serves the page from
    tier one. -/
def twoCallers : List (Caller × CallerMove) :=
  [(0, .call), (0, .proceed), (1, .call), (1, .proceed), (0, .exit (.ok (some 1))),
    (0, .proceed), (1, .proceed)]

theorem fault_coalescing_twoCallers : ∃ s, exec coalescing Coordination.initial twoCallers = some s ∧
    s.pcs 1 = .followed 0 (.ok (some 1)) ∧
    ∃ l r₀, s.pcs l = .led 0 r₀ ∧ SameFault r₀ (.ok (some 1)) := by
  refine ⟨_, rfl, rfl, ?_⟩
  have hr := reachable_exec (M := coalescing) twoCallers Coordination.initial _ (.init rfl) rfl
  rcases ((fault_coalescing _ hr (by decide)).2.2.2.1 1 0 _ rfl).1 with ⟨l, r₀, hl, hsame, -⟩
  exact ⟨l, r₀, hl, hsame⟩

end TierBuf
