import TierBuf.Ledger
import TierBuf.Transition

/-!
# Statistics

The recorder that counts what a manager does.

Its counters are separate atomic words and its calls overlap. A call that
counts an event may add to several of them, each with a loop that retries a
weak compare-and-swap, and a snapshot loads them one after the other. What
holds this together is a read-write gate whose sides are swapped: those that
count take it for reading and so overlap with each other, and the snapshot
takes it for writing.

The result is that the recorder behaves like a list. Every run leaves one list
of the calls that have returned, each entered between its start and its end,
and every snapshot in it is the saturated sum of what stands before it.

## Main definitions

* `Counter`, `TierStats`: The counters and a snapshot of them.
* `StatCall`: The calls that count an event, and what they add.
* `statsRecorder`: Any number of threads, one atomic operation a step.
* `StatLog`: The calls that have returned, in order.
* `StatLog.Legal`: Every snapshot is the sum of what stands before it.

## Theorems

* `Counted.next`: What every step keeps of the counters.
* `recorder_linearizable`: Every run is a list of calls, one at a time.
* `snapshot_coherent`: A snapshot does not split an event.
-/

namespace TierBuf

open Function Ledger Transition

/-- `u64::MAX`. -/
def U64_MAX : Nat := 2 ^ 64 - 1

/-! ### Counters -/

inductive Counter where
  | dramHits
  | faults
  | evictions
  | secondChances
  | prefetchSubmitted
  | prefetchHits
  | prefetchSkipped
  | budgetDenied
  | demandHits (tier : Nat)
  | reads (tier : Nat)
  | writes (tier : Nat)
  | bytesRead (tier : Nat)
  | bytesWritten (tier : Nat)
  deriving DecidableEq

structure TierCounters where
  name : String
  demandHits : Nat
  reads : Nat
  writes : Nat
  bytesRead : Nat
  bytesWritten : Nat
  deriving DecidableEq

structure TierStats where
  dramHits : Nat
  faults : Nat
  evictions : Nat
  secondChances : Nat
  prefetchSubmitted : Nat
  prefetchHits : Nat
  prefetchSkipped : Nat
  budgetDenied : Nat
  tiers : List TierCounters
  deriving DecidableEq

/-- The counters of the manager, in the order in which `snapshot` loads them. -/
def Counter.ofManager : List Counter :=
  [.dramHits, .faults, .evictions, .secondChances, .prefetchSubmitted, .prefetchHits,
    .prefetchSkipped, .budgetDenied]

/-- The counters of one tier, in the order in which `snapshot` loads them. -/
def Counter.ofTier (t : Nat) : List Counter :=
  [.demandHits t, .reads t, .writes t, .bytesRead t, .bytesWritten t]

/-- The order in which `snapshot` loads the counters. -/
def Counter.order (tiers : Nat) : List Counter :=
  ofManager ++ (List.range tiers).flatMap ofTier

def TierCounters.loaded (seen : Counter → Nat) (t : Nat) (name : String) : TierCounters where
  name := name
  demandHits := seen (.demandHits t)
  reads := seen (.reads t)
  writes := seen (.writes t)
  bytesRead := seen (.bytesRead t)
  bytesWritten := seen (.bytesWritten t)

/-- The snapshot made of the values that were loaded. -/
def TierStats.loaded (names : List String) (seen : Counter → Nat) : TierStats where
  dramHits := seen .dramHits
  faults := seen .faults
  evictions := seen .evictions
  secondChances := seen .secondChances
  prefetchSubmitted := seen .prefetchSubmitted
  prefetchHits := seen .prefetchHits
  prefetchSkipped := seen .prefetchSkipped
  budgetDenied := seen .budgetDenied
  tiers := names.mapIdx (TierCounters.loaded seen)

variable {names : List String} {seen seen' : Counter → Nat} {t : Nat} {name : String}

theorem TierCounters.loaded_congr (h : ∀ k ∈ Counter.ofTier t, seen k = seen' k) :
    loaded seen t name = loaded seen' t name := by
  simp only [Counter.ofTier, List.forall_mem_cons] at h
  rcases h with ⟨h1, h2, h3, h4, h5, -⟩
  unfold loaded
  rw [h1, h2, h3, h4, h5]

/-- A snapshot is made of the counters it loads. -/
theorem TierStats.loaded_congr (h : ∀ k ∈ Counter.order names.length, seen k = seen' k) :
    loaded names seen = loaded names seen' := by
  have hmanager : ∀ k ∈ Counter.ofManager, seen k = seen' k :=
    fun k hk => h k (List.mem_append_left _ hk)
  simp only [Counter.ofManager, List.forall_mem_cons] at hmanager
  rcases hmanager with ⟨h1, h2, h3, h4, h5, h6, h7, h8, -⟩
  unfold loaded
  rw [h1, h2, h3, h4, h5, h6, h7, h8]
  congr 1
  refine List.mapIdx_eq_mapIdx_iff.mpr (fun t ht => TierCounters.loaded_congr (fun k hk => ?_))
  exact h k (List.mem_append_right _ (List.mem_flatMap.mpr ⟨t, List.mem_range.mpr ht, hk⟩))

/-! ### Calls -/

/-- `u64::saturating_add`. -/
def saturatingAdd (current amount : Nat) : Nat :=
  min (current + amount) U64_MAX

/-- Saturation is not felt before the end of a sum. -/
theorem saturatingAdd_min (n amount : Nat) :
    saturatingAdd (min n U64_MAX) amount = min (n + amount) U64_MAX := by
  unfold saturatingAdd
  omega

/-- A call of one of the `record` functions. -/
inductive StatCall where
  | dramHit
  | fault
  | eviction
  | secondChance
  | prefetchSubmitted (count : Nat)
  | prefetchHit
  | prefetchSkipped (count : Nat)
  | budgetDenied
  | tierDemandHit (tier : Nat)
  | tierRead (tier bytes : Nat)
  | tierWrite (tier bytes : Nat)
  deriving DecidableEq

namespace StatCall

/-- What the call adds, in order. -/
def adds : StatCall → List (Counter × Nat)
  | .dramHit => [(.dramHits, 1)]
  | .fault => [(.faults, 1)]
  | .eviction => [(.evictions, 1)]
  | .secondChance => [(.secondChances, 1)]
  | .prefetchSubmitted count => [(.prefetchSubmitted, count)]
  | .prefetchHit => [(.prefetchHits, 1)]
  | .prefetchSkipped count => [(.prefetchSkipped, count)]
  | .budgetDenied => [(.budgetDenied, 1)]
  | .tierDemandHit tier => [(.demandHits tier, 1)]
  | .tierRead tier bytes => [(.reads tier, 1), (.bytesRead tier, bytes)]
  | .tierWrite tier bytes => [(.writes tier, 1), (.bytesWritten tier, bytes)]

/-- The tier the call looks up. -/
def tier : StatCall → Option Nat
  | .tierDemandHit tier | .tierRead tier _ | .tierWrite tier _ => some tier
  | _ => none

/-- What a list of additions comes to on one counter. -/
def sumAt (adds : List (Counter × Nat)) (k : Counter) : Nat :=
  ((adds.filter (fun x => x.1 = k)).map Prod.snd).sum

theorem sumAt_append (xs ys : List (Counter × Nat)) (k : Counter) :
    sumAt (xs ++ ys) k = sumAt xs k + sumAt ys k := by
  unfold sumAt
  rw [List.filter_append, List.map_append, List.sum_append]

@[simp] theorem sumAt_nil (k : Counter) : sumAt [] k = 0 := rfl

@[simp] theorem sumAt_cons (x : Counter × Nat) (xs : List (Counter × Nat)) (k : Counter) :
    sumAt (x :: xs) k = (if x.1 = k then x.2 else 0) + sumAt xs k := by
  unfold sumAt
  by_cases h : x.1 = k
  · rw [List.filter_cons, if_pos (decide_eq_true h), List.map_cons, List.sum_cons, if_pos h]
  · rw [List.filter_cons, if_neg (by rw [decide_eq_true_eq]; exact h), if_neg h, Nat.zero_add]

/-- A call adds `b` bytes for each page it reads from a tier. -/
theorem read_bytes {e : StatCall} {t b : Nat} (h : ∀ n, e = .tierRead t n → n = b) :
    sumAt e.adds (.bytesRead t) = b * sumAt e.adds (.reads t) := by
  cases e with
  | tierRead tier n =>
      by_cases ht : tier = t
      · subst ht
        simp [adds, h n rfl]
      · simp [adds, ht]
  | _ => simp [adds]

theorem written_bytes {e : StatCall} {t b : Nat} (h : ∀ n, e = .tierWrite t n → n = b) :
    sumAt e.adds (.bytesWritten t) = b * sumAt e.adds (.writes t) := by
  cases e with
  | tierWrite tier n =>
      by_cases ht : tier = t
      · subst ht
        simp [adds, h n rfl]
      · simp [adds, ht]
  | _ => simp [adds]

end StatCall

/-! ### Steps -/

/-- `StatsRecorder`, without the names of the tiers. -/
structure StatsRecorder where
  snapshotGate : RwState
  counters : Counter → Nat

/-- Where a thread is. -/
inductive StatPc where
  | idle
  | beginUpdate (e : StatCall)
  | tier (e : StatCall)
  /-- The load that starts addition `n` of the call. -/
  | load (e : StatCall) (n : Nat)
  | exchange (e : StatCall) (n current : Nat)
  | endUpdate (e : StatCall)
  | beginSnapshot
  /-- `n` counters have been loaded. -/
  | copy (seen : Counter → Nat) (n : Nat)
  | endSnapshot (seen : Counter → Nat)
  | returned (stats : TierStats)
  /-- The panic of `tier` gives the gate back. -/
  | unwind
  | panicked

/-- The call a thread starts, or a snapshot, and whether its exchange fails for
    no reason. -/
structure StatChoice where
  call : Option StatCall := none
  weak : Bool := false

namespace StatsRecorder

variable (names : List String) (c : StatChoice) (r : StatsRecorder)

def leave (pc : StatPc) : Option (StatsRecorder × StatPc) :=
  match r.snapshotGate with
  | .shared (n + 1) => some ({ r with snapshotGate := .shared n }, pc)
  | _ => none

def step : StatPc → Option (StatsRecorder × StatPc)
  | .idle | .returned _ => match c.call with
    | some e => some (r, .beginUpdate e)
    | none => some (r, .beginSnapshot)
  | .beginUpdate e => match r.snapshotGate with
    | .shared n => some ({ r with snapshotGate := .shared (n + 1) }, .tier e)
    | .exclusive => none
  | .tier e => match e.tier with
    | none => some (r, .load e 0)
    | some t => if t < names.length then some (r, .load e 0) else some (r, .unwind)
  | .load e n => match e.adds[n]? with
    | none => some (r, .endUpdate e)
    | some x => some (r, .exchange e n (r.counters x.1))
  | .exchange e n current => match e.adds[n]? with
    | none => none
    | some x =>
        if r.counters x.1 = current ∧ c.weak = false then
          some ({ r with counters := update r.counters x.1 (saturatingAdd current x.2) },
            .load e (n + 1))
        else some (r, .exchange e n (r.counters x.1))
  | .endUpdate _ => r.leave .idle
  | .beginSnapshot => match r.snapshotGate with
    | .shared 0 => some ({ r with snapshotGate := .exclusive }, .copy (fun _ => 0) 0)
    | _ => none
  | .copy seen n => match (Counter.order names.length)[n]? with
    | none => some (r, .endSnapshot seen)
    | some k => some (r, .copy (update seen k (r.counters k)) (n + 1))
  | .endSnapshot seen => some ({ r with snapshotGate := .shared 0 }, .returned (.loaded names seen))
  | .unwind => r.leave .panicked
  | .panicked => none

end StatsRecorder

structure StatState where
  recorder : StatsRecorder
  pcs : Nat → StatPc

/-- `StatsRecorder::new`, and no thread has started. -/
def StatState.initial : StatState :=
  ⟨⟨.shared 0, fun _ => 0⟩, fun _ => .idle⟩

/-- Any number of threads, one atomic operation a step. -/
def statsRecorder (names : List String) : System StatState (Nat × StatChoice) where
  init := fun s => s = .initial
  next := fun s l => (s.recorder.step names l.2 (s.pcs l.1)).map
    (fun x => ⟨x.1, update s.pcs l.1 x.2⟩)

/-! ### The list of calls -/

/-- A call that has returned, and the thread that made it. -/
inductive StatEntry where
  | recorded (a : Nat) (e : StatCall)
  | snapshot (a : Nat) (stats : TierStats)
  deriving DecidableEq

abbrev StatLog := List StatEntry

def StatEntry.call? : StatEntry → Option StatCall
  | .recorded _ e => some e
  | .snapshot _ _ => none

namespace StatLog

/-- What the calls of the list add to one counter. -/
def sum (log : StatLog) (k : Counter) : Nat :=
  ((log.filterMap StatEntry.call?).map (fun e => StatCall.sumAt e.adds k)).sum

/-- The value the list gives one counter. -/
def total (log : StatLog) (k : Counter) : Nat :=
  min (log.sum k) U64_MAX

/-- Every snapshot is the saturated sum of what stands before it. -/
def Legal (names : List String) (log : StatLog) : Prop :=
  ∀ before a stats rest, log = before ++ .snapshot a stats :: rest →
    stats = .loaded names (total before)

variable {log : StatLog} {a : Nat} {k : Counter}

theorem sum_recorded (e : StatCall) :
    sum (log ++ [.recorded a e]) k = log.sum k + StatCall.sumAt e.adds k := by
  unfold sum
  rw [List.filterMap_append, List.map_append, List.sum_append]
  rfl

theorem sum_snapshot (stats : TierStats) : sum (log ++ [.snapshot a stats]) k = log.sum k := by
  unfold sum
  rw [List.filterMap_append, List.map_append, List.sum_append]
  rfl

/-- A list stays legal when the next entry, if it is a snapshot, is its sum. -/
theorem Legal.append (h : Legal names log) {x : StatEntry}
    (hx : ∀ a stats, x = .snapshot a stats → stats = .loaded names log.total) :
    Legal names (log ++ [x]) := by
  intro before b stats rest heq
  rcases List.eq_nil_or_concat rest with rfl | ⟨rest, y, rfl⟩
  · have hlast := List.append_inj_right' heq rfl
    cases hlast
    rw [← List.append_inj_left' heq rfl]
    exact hx b stats rfl
  · rw [List.concat_eq_append, ← List.cons_append, ← List.append_assoc] at heq
    exact h before b stats rest (List.append_inj_left' heq rfl)

end StatLog

/-- A call is entered when it gives the gate back. -/
def StatState.record (names : List String) (log : StatLog) (s : StatState)
    (l : Nat × StatChoice) (_ : StatState) : StatLog :=
  match s.pcs l.1 with
  | .endUpdate e => log ++ [.recorded l.1 e]
  | .endSnapshot seen => log ++ [.snapshot l.1 (.loaded names seen)]
  | _ => log

/-- The recorder with the list of its calls. -/
def statHistory (names : List String) : System (StatState × StatLog) (Nat × StatChoice) :=
  (statsRecorder names).withHistory [] (StatState.record names)

/-! ### Counting -/

namespace StatPc

/-- A thread that holds the gate for reading. -/
def updates : StatPc → Option Unit
  | .tier _ | .load _ _ | .exchange _ _ _ | .endUpdate _ | .unwind => some ()
  | _ => none

/-- A thread that holds the gate for writing. -/
def copies : StatPc → Option Unit
  | .copy _ _ | .endSnapshot _ => some ()
  | _ => none

/-- What the call of the thread has added so far. -/
def added (pc : StatPc) (k : Counter) : Nat :=
  match pc with
  | .load e n | .exchange e n _ => StatCall.sumAt (e.adds.take n) k
  | .endUpdate e => StatCall.sumAt e.adds k
  | _ => 0

/-- What the snapshot has loaded is still in the counters. -/
def Sees (tiers : Nat) (counters : Counter → Nat) : StatPc → Prop
  | .copy seen n => ∀ k ∈ (Counter.order tiers).take n, seen k = counters k
  | .endSnapshot seen => ∀ k ∈ Counter.order tiers, seen k = counters k
  | _ => True

theorem sees_of_not_copies {tiers : Nat} {counters : Counter → Nat} {pc : StatPc}
    (h : pc.copies = none) : pc.Sees tiers counters := by
  cases pc with
  | copy seen n => cases h
  | endSnapshot seen => cases h
  | _ => exact trivial

theorem added_of_not_updates {pc : StatPc} (h : pc.updates = none) (k : Counter) :
    pc.added k = 0 := by
  cases pc with
  | load e n => cases h
  | exchange e n current => cases h
  | endUpdate e => cases h
  | _ => rfl

end StatPc

/-- The counters are the sum of the list and of the calls under way. -/
structure Counted (names : List String) (s : StatState) (log : StatLog) : Prop where
  gate : Accounts s.recorder.snapshotGate (fun a => (s.pcs a).updates) (fun a => (s.pcs a).copies) ()
  counters : ∀ k, ∃ n, Amounts (fun a => (s.pcs a).added k) n ∧
    s.recorder.counters k = min (log.sum k + n) U64_MAX
  sees : ∀ a, (s.pcs a).Sees names.length s.recorder.counters
  legal : log.Legal names
  returned : ∀ a stats, s.pcs a = .returned stats → .snapshot a stats ∈ log

variable {s s' : StatState} {log log' : StatLog} {a : Nat} {pc pc' : StatPc}

theorem statsRecorder_next {l : Nat × StatChoice} (hs : (statsRecorder names).next s l = some s') :
    s.recorder.step names l.2 (s.pcs l.1) = some (s'.recorder, s'.pcs l.1) ∧
      ∀ b, b ≠ l.1 → s'.pcs b = s.pcs b := by
  rcases Option.map_eq_some_iff.mp hs with ⟨⟨r', pc'⟩, hstep, rfl⟩
  refine ⟨?_, fun b hb => update_of_ne hb ..⟩
  rw [hstep]
  exact congrArg (fun pc => some (r', pc)) (update_self l.1 pc' s.pcs).symm

theorem Counted.initial (names : List String) : Counted names .initial [] where
  gate := ⟨tally_eq_zero.mpr (fun _ h => by cases h), tally_eq_zero.mpr (fun _ h => by cases h)⟩
  counters := fun _ => ⟨0, Amounts.zero (fun _ => rfl), rfl⟩
  sees := fun _ => trivial
  legal := fun before _ _ _ h => by cases before <;> cases h
  returned := fun _ _ h => by cases h

namespace Counted

/-- Where no call is under way, the counters are the sum of the list. -/
theorem total_of_quiet (h : Counted names s log) (hquiet : ∀ b, (s.pcs b).updates = none)
    (k : Counter) : s.recorder.counters k = log.total k := by
  rcases h.counters k with ⟨n, hn, hk⟩
  rw [hk, hn.eq_zero (fun b => StatPc.added_of_not_updates (hquiet b) k), Nat.add_zero]
  rfl

/-- While a snapshot is taken, no call is under way. -/
theorem total_of_copies (h : Counted names s log) (ha : (s.pcs a).copies = some ()) (k : Counter) :
    s.recorder.counters k = log.total k :=
  h.total_of_quiet (fun _ => Option.eq_none_iff_forall_ne_some.mpr
    (fun _ hb => h.gate.excludes hb ha)) k

/-- A step of one thread, by what it does to the gate, the counters and the
    list. -/
theorem move (h : Counted names s log) (hother : ∀ b, b ≠ a → s'.pcs b = s.pcs b)
    (hgate : Accounts s'.recorder.snapshotGate (fun b => (s'.pcs b).updates)
      (fun b => (s'.pcs b).copies) ())
    (hadd : ∀ k n, (s.pcs a).added k ≤ n →
      s.recorder.counters k = min (log.sum k + n) U64_MAX → s'.recorder.counters k =
        min (log'.sum k + (n - (s.pcs a).added k + (s'.pcs a).added k)) U64_MAX)
    (hkeep : s'.recorder.counters = s.recorder.counters ∨ (s.pcs a).updates = some ())
    (hsees : (s'.pcs a).Sees names.length s'.recorder.counters) (hlegal : log'.Legal names)
    (hlog : ∀ x ∈ log, x ∈ log')
    (hret : ∀ stats, s'.pcs a = .returned stats → .snapshot a stats ∈ log') :
    Counted names s' log' where
  gate := hgate
  counters := by
    intro k
    rcases h.counters k with ⟨n, hn, hk⟩
    refine ⟨_, hn.change (a := a) (fun b hb => by rw [hother b hb]), ?_⟩
    exact hadd k n (hn.le a) hk
  sees := by
    intro b
    by_cases hb : b = a
    · rw [hb]
      exact hsees
    · rw [hother b hb]
      rcases hkeep with hsame | hupdates
      · rw [hsame]
        exact h.sees b
      · exact StatPc.sees_of_not_copies (Option.eq_none_iff_forall_ne_some.mpr
          (fun _ => h.gate.excludes hupdates))
  legal := hlegal
  returned := by
    intro b stats hb
    by_cases hba : b = a
    · rw [hba] at hb ⊢
      exact hret stats hb
    · rw [hother b hba] at hb
      exact hlog _ (h.returned b stats hb)

/-- A step that keeps the counters. -/
theorem gated {g : RwState} (h : Counted names s log) (hother : ∀ b, b ≠ a → s'.pcs b = s.pcs b)
    (hpc : s.pcs a = pc)
    (hs : some ({ s.recorder with snapshotGate := g }, pc') = some (s'.recorder, s'.pcs a))
    (hgate : Accounts g (fun b => (s'.pcs b).updates) (fun b => (s'.pcs b).copies) ())
    (hsum : ∀ k, log'.sum k + pc'.added k = log.sum k + pc.added k)
    (hsees : pc'.Sees names.length s.recorder.counters) (hlegal : log'.Legal names)
    (hlog : ∀ x ∈ log, x ∈ log') (hret : ∀ stats, pc' = .returned stats → .snapshot a stats ∈ log') :
    Counted names s' log' := by
  rcases Prod.mk.inj (Option.some.inj hs) with ⟨hr, rfl⟩
  subst hpc
  refine h.move hother (hr ▸ hgate) (fun k n hn hk => ?_) (.inl (by rw [← hr])) (hr ▸ hsees) hlegal
    hlog hret
  have hsum := hsum k
  rw [← hr, hk]
  congr 1
  omega

/-- A step that keeps the gate, the counters and the list. -/
theorem quiet (h : Counted names s log) (hother : ∀ b, b ≠ a → s'.pcs b = s.pcs b)
    (hpc : s.pcs a = pc) (hs : some (s.recorder, pc') = some (s'.recorder, s'.pcs a))
    (hu : pc'.updates = pc.updates) (hc : pc'.copies = pc.copies)
    (hadd : ∀ k, pc'.added k = pc.added k) (hsees : pc'.Sees names.length s.recorder.counters)
    (hret : ∀ stats, pc' ≠ .returned stats) : Counted names s' log := by
  have hpc' := (Prod.mk.inj (Option.some.inj hs)).2
  refine h.gated hother hpc hs ?_ (fun k => by rw [hadd]) hsees h.legal (fun _ hx => hx)
    (fun stats hs => absurd hs (hret stats))
  exact h.gate.congr
    (eq_of_others (fun b hb => by rw [hother b hb]) (by rw [← hpc', hpc, hu]))
    (eq_of_others (fun b hb => by rw [hother b hb]) (by rw [← hpc', hpc, hc]))

/-- A step that gives the gate back after reading. -/
theorem leave (h : Counted names s log) (hother : ∀ b, b ≠ a → s'.pcs b = s.pcs b)
    (hpc : s.pcs a = pc) (hs : s.recorder.leave pc' = some (s'.recorder, s'.pcs a))
    (hu : pc.updates = some ()) (hu' : pc'.updates = none) (hc : pc.copies = none)
    (hc' : pc'.copies = none) (hsum : ∀ k, log'.sum k = log.sum k + pc.added k)
    (hlegal : log'.Legal names) (hlog : ∀ x ∈ log, x ∈ log')
    (hret : ∀ stats, pc' ≠ .returned stats) : Counted names s' log' := by
  unfold StatsRecorder.leave at hs
  split at hs
  · rename_i n hn
    have hpc' := (Prod.mk.inj (Option.some.inj hs)).2
    refine h.gated hother hpc hs ?_ (fun k => ?_) (StatPc.sees_of_not_copies hc') hlegal hlog
      (fun stats hs => absurd hs (hret stats))
    · have hgate := h.gate
      rw [hn] at hgate
      exact hgate.releaseShared (fun b hb => by rw [hother b hb])
        (eq_of_others (fun b hb => by rw [hother b hb]) (by rw [← hpc', hpc, hc, hc']))
        (by rw [hpc, hu]) (by rw [← hpc', hu']; exact fun hc => by cases hc)
    · rw [StatPc.added_of_not_updates hu', Nat.add_zero, hsum]
  · cases hs

/-- An addition that goes through. -/
theorem exchanged {e : StatCall} {n current : Nat} {x : Counter × Nat} (h : Counted names s log)
    (hother : ∀ b, b ≠ a → s'.pcs b = s.pcs b) (hpc : s.pcs a = .exchange e n current)
    (hx : e.adds[n]? = some x)
    (hr : s'.recorder = { s.recorder with
      counters := update s.recorder.counters x.1 (saturatingAdd (s.recorder.counters x.1) x.2) })
    (hpc' : s'.pcs a = .load e (n + 1)) : Counted names s' log := by
  have htake : ∀ k, StatCall.sumAt (e.adds.take (n + 1)) k =
      StatCall.sumAt (e.adds.take n) k + StatCall.sumAt [x] k := by
    intro k
    rw [List.take_add_one, hx, Option.toList_some, StatCall.sumAt_append]
  refine h.move hother ?_ (fun k m hm hk => ?_) (.inr (by rw [hpc]; rfl)) ?_ h.legal
    (fun _ hx => hx) (fun stats hs => ?_)
  · rw [hr]
    exact h.gate.congr (eq_of_others (fun b hb => by rw [hother b hb]) (by rw [hpc, hpc']; rfl))
      (eq_of_others (fun b hb => by rw [hother b hb]) (by rw [hpc, hpc']; rfl))
  · rw [hpc] at hm
    change StatCall.sumAt (e.adds.take n) k ≤ m at hm
    rw [hpc, hpc', hr]
    change update s.recorder.counters x.1 _ k = min (log.sum k +
      (m - StatCall.sumAt (e.adds.take n) k + StatCall.sumAt (e.adds.take (n + 1)) k)) U64_MAX
    rw [htake, ← Nat.add_assoc (m - _), Nat.sub_add_cancel hm, ← Nat.add_assoc]
    by_cases hk' : k = x.1
    · rw [hk', update_self, ← hk', hk, saturatingAdd_min, hk', StatCall.sumAt_cons, if_pos rfl]
      rfl
    · rw [update_of_ne hk', StatCall.sumAt_cons, if_neg (Ne.symm hk'), hk]
      rfl
  · rw [hpc']
    exact trivial
  · rw [hpc'] at hs
    cases hs

theorem next {l : Nat × StatChoice} (h : Counted names s log)
    (hs : (statsRecorder names).next s l = some s') :
    Counted names s' (StatState.record names log s l s') := by
  rcases statsRecorder_next hs with ⟨hstep, hother⟩
  unfold StatState.record
  cases hpc : s.pcs l.1 with
  | idle =>
      rw [hpc] at hstep
      dsimp only [StatsRecorder.step] at hstep
      split at hstep <;>
        exact h.quiet hother hpc hstep rfl rfl (fun _ => rfl) trivial (fun _ h => by cases h)
  | returned stats =>
      rw [hpc] at hstep
      dsimp only [StatsRecorder.step] at hstep
      split at hstep <;>
        exact h.quiet hother hpc hstep rfl rfl (fun _ => rfl) trivial (fun _ h => by cases h)
  | beginUpdate e =>
      rw [hpc] at hstep
      dsimp only [StatsRecorder.step] at hstep
      split at hstep
      · rename_i n hn
        have hpc' := (Prod.mk.inj (Option.some.inj hstep)).2
        have hgate := h.gate
        rw [hn] at hgate
        refine h.gated hother hpc hstep (hgate.acquireShared (fun b hb => by rw [hother b hb])
          (eq_of_others (fun b hb => by rw [hother b hb]) (by rw [← hpc', hpc]; rfl)) ?_ ?_)
          (fun _ => rfl) trivial h.legal (fun _ hx => hx) (fun _ h => by cases h)
        · rw [hpc]
          exact fun h => by cases h
        · rw [← hpc']
          rfl
      · cases hstep
  | tier e =>
      rw [hpc] at hstep
      dsimp only [StatsRecorder.step] at hstep
      (repeat' split at hstep) <;>
        exact h.quiet hother hpc hstep rfl rfl (fun _ => rfl) trivial (fun _ h => by cases h)
  | load e n =>
      rw [hpc] at hstep
      dsimp only [StatsRecorder.step] at hstep
      split at hstep
      · rename_i hnone
        refine h.quiet hother hpc hstep rfl rfl (fun k => ?_) trivial (fun _ h => by cases h)
        -- all additions of the call have been made
        exact congrArg (StatCall.sumAt · k)
          (List.take_of_length_le (List.getElem?_eq_none_iff.mp hnone)).symm
      · exact h.quiet hother hpc hstep rfl rfl (fun _ => rfl) trivial (fun _ h => by cases h)
  | exchange e n current =>
      rw [hpc] at hstep
      dsimp only [StatsRecorder.step] at hstep
      split at hstep
      · cases hstep
      · rename_i x hx
        split at hstep
        · rename_i hcond
          rcases Prod.mk.inj (Option.some.inj hstep) with ⟨hr, hpc'⟩
          rw [← hcond.1] at hr
          exact h.exchanged hother hpc hx hr.symm hpc'.symm
        · exact h.quiet hother hpc hstep rfl rfl (fun _ => rfl) trivial (fun _ h => by cases h)
  | endUpdate e =>
      rw [hpc] at hstep
      refine h.leave hother hpc hstep rfl rfl rfl rfl (fun k => StatLog.sum_recorded e)
        (h.legal.append (fun _ _ h => by cases h)) (fun x hx => List.mem_append_left _ hx)
        (fun _ h => by cases h)
  | beginSnapshot =>
      rw [hpc] at hstep
      dsimp only [StatsRecorder.step] at hstep
      split at hstep
      · rename_i hfree
        have hpc' := (Prod.mk.inj (Option.some.inj hstep)).2
        have hgate := h.gate
        rw [hfree] at hgate
        refine h.gated hother hpc hstep (hgate.acquireExclusive (eq_of_others
          (fun b hb => by rw [hother b hb]) (by rw [← hpc', hpc]; rfl))
          (fun b hb => by rw [hother b hb]) (by rw [← hpc']; rfl))
          (fun _ => rfl) (fun k hk => ?_) h.legal (fun _ hx => hx) (fun _ h => by cases h)
        rw [List.take_zero] at hk
        cases hk
      · cases hstep
  | copy seen n =>
      rw [hpc] at hstep
      have hsees := h.sees l.1
      rw [hpc] at hsees
      dsimp only [StatsRecorder.step] at hstep
      split at hstep
      · rename_i hnone
        refine h.quiet hother hpc hstep rfl rfl (fun _ => rfl) (fun k hk => hsees k ?_)
          (fun _ h => by cases h)
        rwa [List.take_of_length_le (List.getElem?_eq_none_iff.mp hnone)]
      · rename_i k hk
        refine h.quiet hother hpc hstep rfl rfl (fun _ => rfl) (fun j hj => ?_)
          (fun _ h => by cases h)
        by_cases hjk : j = k
        · rw [hjk, update_self]
        · rw [update_of_ne hjk]
          rw [List.take_add_one, hk, Option.toList_some, List.mem_append,
            List.mem_singleton] at hj
          exact hsees j (hj.resolve_right hjk)
  | endSnapshot seen =>
      rw [hpc] at hstep
      have hpc' := (Prod.mk.inj (Option.some.inj hstep)).2
      have hcopies : (s.pcs l.1).copies = some () := by
        rw [hpc]
        rfl
      have hsees := h.sees l.1
      rw [hpc] at hsees
      have hexact : TierStats.loaded names seen = .loaded names log.total :=
        TierStats.loaded_congr (fun k hk => (hsees k hk).trans (h.total_of_copies hcopies k))
      have hgate := h.gate
      rw [hgate.exclusive_of_holds hcopies] at hgate
      refine h.gated hother hpc hstep (hgate.releaseExclusive (eq_of_others
        (fun b hb => by rw [hother b hb]) (by rw [← hpc', hpc]; rfl))
        (fun b hb => by rw [hother b hb]) hcopies ?_)
        (fun k => congrArg (· + 0) (StatLog.sum_snapshot _)) trivial
        (h.legal.append (fun _ _ h => ?_)) (fun x hx => List.mem_append_left _ hx) (fun _ h => ?_)
      · rw [← hpc']
        exact fun h => by cases h
      · cases h
        exact hexact
      · cases h
        exact List.mem_append_right _ (List.mem_singleton_self _)
  | unwind =>
      rw [hpc] at hstep
      exact h.leave hother hpc hstep rfl rfl rfl rfl (fun _ => rfl) h.legal (fun _ hx => hx)
        (fun _ h => by cases h)
  | panicked =>
      rw [hpc] at hstep
      cases hstep

end Counted

/-! ### Runs -/

variable {x : StatState × StatLog}

theorem counted_reachable (hr : Reachable (statHistory names) x) : Counted names x.1 x.2 := by
  refine history_invariant (M := statsRecorder names) (P := fun _ _ => True)
    (J := Counted names) ?_ (fun s log l s' _ h _ hs => h.next hs) hr
  rintro s rfl
  exact Counted.initial names

/-- Every run leaves a list of calls in which every snapshot is the sum of what
    stands before it, and no count is lost. -/
theorem recorder_linearizable (hr : Reachable (statHistory names) x) :
    x.2.Legal names ∧
      (∀ a stats, x.1.pcs a = .returned stats → .snapshot a stats ∈ x.2) ∧
      ((∀ a, (x.1.pcs a).updates = none) → ∀ k, x.1.recorder.counters k = x.2.total k) :=
  have h := counted_reachable hr
  ⟨h.legal, h.returned, h.total_of_quiet⟩

/-- Thread `a` takes `n` steps. -/
def threadSteps (a n : Nat) : List (Nat × StatChoice) := List.replicate n (a, { weak := false })

/-- Two threads count a read of the same tier, and the exchange of the second
    one fails the first time. A third thread takes a snapshot. -/
def twoReads : List (Nat × StatChoice) :=
  [(0, { call := some (.tierRead 0 5) }), (1, { call := some (.tierRead 0 7) }),
    (2, { call := none })] ++
    threadSteps 0 3 ++ threadSteps 1 3 ++ threadSteps 0 1 ++ threadSteps 1 2 ++ threadSteps 0 4 ++
    threadSteps 1 4 ++ threadSteps 2 16

def StatPc.result? : StatPc → Option TierStats
  | .returned stats => some stats
  | _ => none

theorem recorder_linearizable_twoReads : ∃ x, Reachable (statHistory ["nvme"]) x ∧
    x.2.Legal ["nvme"] ∧ ∃ stats, .snapshot 2 stats ∈ x.2 ∧
      stats.tiers.map (fun t => (t.reads, t.bytesRead)) = [(2, 12)] := by
  have hrun : (exec (statHistory ["nvme"]) (.initial, []) twoReads).map (fun x =>
      (x.1.pcs 2).result?.map (fun stats => stats.tiers.map (fun t => (t.reads, t.bytesRead)))) =
      some (some [(2, 12)]) := by decide +kernel
  rcases Option.map_eq_some_iff.mp hrun with ⟨x, hx, hresult⟩
  rcases Option.map_eq_some_iff.mp hresult with ⟨stats, hstats, htiers⟩
  have hr : Reachable (statHistory ["nvme"]) x :=
    reachable_exec twoReads (StatState.initial, []) x (ReachableVia.init ⟨rfl, rfl⟩) hx
  have hall := recorder_linearizable hr
  refine ⟨x, hr, hall.1, stats, hall.2.1 2 stats ?_, htiers⟩
  unfold StatPc.result? at hstats
  split at hstats
  · rename_i stats' hpc
    cases hstats
    exact hpc
  · cases hstats

/-! ### Coherence -/

namespace StatLog

/-- Counters to which every call adds in the same ratio keep it. -/
theorem sum_eq_mul {log : StatLog} {j k : Counter} {b : Nat}
    (h : ∀ a e, .recorded a e ∈ log → StatCall.sumAt e.adds k = b * StatCall.sumAt e.adds j) :
    log.sum k = b * log.sum j := by
  induction log with
  | nil => rfl
  | cons x log ih =>
      have hrest := ih (fun a e he => h a e (List.mem_cons_of_mem x he))
      cases x with
      | snapshot a stats => exact hrest
      | recorded a e =>
          have hhead := h a e List.mem_cons_self
          change StatCall.sumAt e.adds k + sum log k = b * (StatCall.sumAt e.adds j + sum log j)
          rw [hhead, hrest, Nat.mul_add]

end StatLog

/-- Two counters of a legal list that keep their ratio, as far as they count. -/
theorem StatLog.total_eq_mul {log : StatLog} {j k : Counter} {b : Nat}
    (h : ∀ a e, .recorded a e ∈ log → StatCall.sumAt e.adds k = b * StatCall.sumAt e.adds j)
    (hlt : log.total j < U64_MAX) : log.total k = min (b * log.total j) U64_MAX := by
  have hj : log.total j = log.sum j := by
    unfold total at hlt ⊢
    omega
  rw [hj]
  exact congrArg (min · U64_MAX) (sum_eq_mul h)

/-- Where every transfer of a tier is of `b` bytes, a snapshot shows `b` bytes
    for each page it shows, also while transfers are being counted. -/
theorem snapshot_coherent (hr : Reachable (statHistory names) x) {a t b : Nat} {stats : TierStats}
    {tier : TierCounters} (hmem : .snapshot a stats ∈ x.2) (ht : stats.tiers[t]? = some tier)
    (hread : ∀ a n, .recorded a (.tierRead t n) ∈ x.2 → n = b)
    (hwrite : ∀ a n, .recorded a (.tierWrite t n) ∈ x.2 → n = b) :
    (tier.reads < U64_MAX → tier.bytesRead = min (b * tier.reads) U64_MAX) ∧
      (tier.writes < U64_MAX → tier.bytesWritten = min (b * tier.writes) U64_MAX) := by
  rcases List.append_of_mem hmem with ⟨before, rest, hlog⟩
  have hstats := (counted_reachable hr).legal before a stats rest hlog
  have hbefore : ∀ y ∈ before, y ∈ x.2 := fun y hy => hlog ▸ List.mem_append_left _ hy
  rw [hstats] at ht
  change (names.mapIdx (TierCounters.loaded (StatLog.total before)))[t]? = some tier at ht
  rw [List.getElem?_mapIdx] at ht
  rcases Option.map_eq_some_iff.mp ht with ⟨name, -, rfl⟩
  refine ⟨StatLog.total_eq_mul (fun c e he => StatCall.read_bytes ?_),
    StatLog.total_eq_mul (fun c e he => StatCall.written_bytes ?_)⟩
  · rintro n rfl
    exact hread c n (hbefore _ he)
  · rintro n rfl
    exact hwrite c n (hbefore _ he)

end TierBuf
