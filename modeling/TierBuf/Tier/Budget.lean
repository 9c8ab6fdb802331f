import TierBuf.Ledger
import TierBuf.Transition

/-!
# Write Budgets

`WriteBudget`, the token bucket that bounds the bytes written to a tier.

A tick adds credit in two steps. The first replaces the fractional remainder
and takes out of it the whole bytes that are due, the second adds those bytes
to the bucket, which holds at most one day of them. Both are loops around a
weak compare-and-swap, so other ticks and consumers run in between.

Sequentially ticks are additive. One tick leaves in the remainder what
`elapsed * allowance + remainder` leaves modulo a day, and adds the quotient,
or enough to fill the bucket. The split of a duration changes neither.

Concurrently the credit is conserved. The bytes taken out of the remainder and
the remainder itself never exceed the credit of the durations that have been
ticked, and the bytes granted and the bytes left never exceed the first day
and what was taken out.

## Main definitions

* `refill`: The arithmetic of one turn of the loop of `tick`.
* `WriteBudget`: The bucket, with its bounds.
* `WriteBudget.tryConsume`, `WriteBudget.tick`: The operations, run alone.
* `budgetSystem`: Any number of threads, one atomic operation a step.

## Theorems

* `refill_total`: No intermediate value overflows.
* `tick_additive`: A list of ticks is one tick of their sum.
* `endurance_never_overdrawn`: No schedule grants more than the allowance.
-/

namespace TierBuf

open Function Ledger Transition

/-- `NANOS_PER_DAY`. -/
def NANOS_PER_DAY : Nat := 86400 * 10 ^ 9

/-- A product or a sum in `u128`, or `none` where it overflows. -/
def checkedU128 (n : Nat) : Option Nat :=
  if n < 2 ^ 128 then some n else none

/-- The bytes that are due after `elapsed` nanoseconds and the remainder that
    is left, or `none` where the arithmetic overflows. -/
def refill (allowance elapsed oldRemainder : Nat) : Option (Nat × Nat) :=
  do
    let partialCredit ← checkedU128 (elapsed % NANOS_PER_DAY * allowance)
    let credit ← checkedU128 (partialCredit + oldRemainder)
    let partialBytes := credit / NANOS_PER_DAY
    let newRemainder := credit % NANOS_PER_DAY % 2 ^ 64
    let refillBytes := if NANOS_PER_DAY ≤ elapsed then allowance
      else if partialBytes < 2 ^ 64 then partialBytes else allowance
    return (refillBytes, newRemainder)

/-- `available.saturating_add(added).min(daily_allowance_bytes)`. -/
def credited (allowance available added : Nat) : Nat :=
  min (min (available + added) (2 ^ 64 - 1)) allowance

/-! ### The arithmetic of a tick -/

section Arithmetic

variable {A e r : Nat}

theorem partial_lt (e : Nat) : e % NANOS_PER_DAY < NANOS_PER_DAY :=
  Nat.mod_lt e (by decide)

/-- The credit of one turn is worth at most the allowance. -/
theorem credit_lt (e : Nat) (hr : r < NANOS_PER_DAY) :
    e % NANOS_PER_DAY * A + r < NANOS_PER_DAY * (A + 1) := by
  have hmul : e % NANOS_PER_DAY * A ≤ NANOS_PER_DAY * A :=
    Nat.mul_le_mul_right A (Nat.le_of_lt (partial_lt e))
  rw [Nat.mul_add, Nat.mul_one]
  omega

theorem credit_bytes_le (e : Nat) (hr : r < NANOS_PER_DAY) :
    (e % NANOS_PER_DAY * A + r) / NANOS_PER_DAY ≤ A :=
  Nat.lt_succ_iff.mp (Nat.div_lt_of_lt_mul (credit_lt e hr))

/-- No intermediate value overflows, and the casts lose nothing. -/
theorem refill_total (hA : A < 2 ^ 64) (e : Nat) (hr : r < NANOS_PER_DAY) :
    refill A e r = some
      (if NANOS_PER_DAY ≤ e then A else (e % NANOS_PER_DAY * A + r) / NANOS_PER_DAY,
        (e % NANOS_PER_DAY * A + r) % NANOS_PER_DAY) := by
  have hday : NANOS_PER_DAY < 2 ^ 63 := by decide
  have hcredit : e % NANOS_PER_DAY * A + r < 2 ^ 128 := by
    have hlt := credit_lt (A := A) e hr
    have hbound : NANOS_PER_DAY * (A + 1) ≤ 2 ^ 63 * 2 ^ 64 :=
      Nat.mul_le_mul (Nat.le_of_lt hday) hA
    omega
  have hpartial : e % NANOS_PER_DAY * A < 2 ^ 128 := by omega
  have hbytes := credit_bytes_le (A := A) e hr
  have hmod := partial_lt (e % NANOS_PER_DAY * A + r)
  have hcast : (e % NANOS_PER_DAY * A + r) % NANOS_PER_DAY % 2 ^ 64 =
      (e % NANOS_PER_DAY * A + r) % NANOS_PER_DAY := Nat.mod_eq_of_lt (by omega)
  unfold refill checkedU128
  simp only [if_pos hpartial, Option.bind_eq_bind, Option.bind_some, if_pos hcredit, hcast,
    if_pos (Nat.lt_of_le_of_lt hbytes hA), Option.pure_def]

theorem refill_remainder_lt {added remainder : Nat} (h : refill A e r = some (added, remainder)) :
    remainder < NANOS_PER_DAY := by
  unfold refill at h
  rcases Option.bind_eq_some_iff.mp h with ⟨partialCredit, -, h⟩
  rcases Option.bind_eq_some_iff.mp h with ⟨credit, -, h⟩
  simp only [Option.pure_def, Option.some.injEq, Prod.mk.injEq] at h
  rw [← h.2]
  exact Nat.lt_of_le_of_lt (Nat.mod_le _ _) (partial_lt credit)

/-- The bytes a tick adds, in either of its branches. -/
theorem credited_refill {available : Nat} (hA : A < 2 ^ 64) (ha : available ≤ A) (e r : Nat) :
    let added := if NANOS_PER_DAY ≤ e then A else (e % NANOS_PER_DAY * A + r) / NANOS_PER_DAY
    (if added = 0 then available else credited A available added) =
      min (available + (e * A + r) / NANOS_PER_DAY) A := by
  intro added
  have hcredited : (if added = 0 then available else credited A available added) =
      min (available + added) A := by
    unfold credited
    split <;> omega
  rw [hcredited]
  by_cases hday : NANOS_PER_DAY ≤ e
  · -- a full day fills the bucket, whatever its fractions come to
    have hadded : added = A := if_pos hday
    have hfull : A ≤ (e * A + r) / NANOS_PER_DAY := by
      rw [Nat.le_div_iff_mul_le (by decide), Nat.mul_comm]
      exact Nat.le_trans (Nat.mul_le_mul_right A hday) (Nat.le_add_right _ _)
    omega
  · have hadded : added = (e % NANOS_PER_DAY * A + r) / NANOS_PER_DAY := if_neg hday
    rw [hadded, Nat.mod_eq_of_lt (Nat.lt_of_not_le hday)]

end Arithmetic

/-! ### The bucket -/

/-- `WriteBudget`, with no thread in the middle of an operation. -/
@[ext]
structure WriteBudget where
  dailyAllowanceBytes : Nat
  availableBytes : Nat
  refillRemainder : Nat
  allowance_lt : dailyAllowanceBytes < 2 ^ 64
  available_le : availableBytes ≤ dailyAllowanceBytes
  remainder_lt : refillRemainder < NANOS_PER_DAY

namespace WriteBudget

/-- `WriteBudget::from_daily_allowance`. -/
def fromDailyAllowance (A : Nat) (hA : A < 2 ^ 64) : WriteBudget where
  dailyAllowanceBytes := A
  availableBytes := A
  refillRemainder := 0
  allowance_lt := hA
  available_le := Nat.le_refl A
  remainder_lt := by decide

/-- `WriteBudget::try_consume`. -/
def tryConsume (b : WriteBudget) (bytes : Nat) : WriteBudget × Bool :=
  if bytes ≤ b.availableBytes then
    ({ b with
      availableBytes := b.availableBytes - bytes
      available_le := Nat.le_trans (Nat.sub_le _ _) b.available_le }, true)
  else (b, false)

/-- `WriteBudget::tick`, or `none` where its arithmetic overflows. -/
def tick (b : WriteBudget) (elapsed : Nat) : Option WriteBudget :=
  if b.dailyAllowanceBytes = 0 ∨ elapsed = 0 then some b
  else match h : refill b.dailyAllowanceBytes elapsed b.refillRemainder with
    | none => none
    | some (added, remainder) =>
      some { b with
        availableBytes := if added = 0 then b.availableBytes
          else credited b.dailyAllowanceBytes b.availableBytes added
        refillRemainder := remainder
        available_le := by
          split
          · exact b.available_le
          · exact Nat.min_le_right _ _
        remainder_lt := refill_remainder_lt h }

/-- The bucket after `credit` in bytes times days: what `tick` comes to. -/
def advance (b : WriteBudget) (credit : Nat) : WriteBudget :=
  { b with
    availableBytes := min (b.availableBytes + (credit + b.refillRemainder) / NANOS_PER_DAY)
      b.dailyAllowanceBytes
    refillRemainder := (credit + b.refillRemainder) % NANOS_PER_DAY
    available_le := Nat.min_le_right _ _
    remainder_lt := partial_lt _ }

theorem advance_zero (b : WriteBudget) : b.advance 0 = b := by
  have hr := b.remainder_lt
  have ha := b.available_le
  ext
  · rfl
  · change min (b.availableBytes + (0 + b.refillRemainder) / NANOS_PER_DAY) _ = _
    rw [Nat.zero_add, Nat.div_eq_of_lt hr, Nat.add_zero, Nat.min_eq_left ha]
  · change (0 + b.refillRemainder) % NANOS_PER_DAY = _
    rw [Nat.zero_add, Nat.mod_eq_of_lt hr]

/-- The carry of the remainder makes credits add up. -/
theorem advance_advance (b : WriteBudget) (x y : Nat) :
    (b.advance x).advance y = b.advance (x + y) := by
  ext
  · rfl
  · change min (min (b.availableBytes + (x + b.refillRemainder) / NANOS_PER_DAY)
        b.dailyAllowanceBytes + (y + (x + b.refillRemainder) % NANOS_PER_DAY) / NANOS_PER_DAY)
        b.dailyAllowanceBytes =
      min (b.availableBytes + (x + y + b.refillRemainder) / NANOS_PER_DAY) b.dailyAllowanceBytes
    unfold NANOS_PER_DAY
    omega
  · change (y + (x + b.refillRemainder) % NANOS_PER_DAY) % NANOS_PER_DAY =
      (x + y + b.refillRemainder) % NANOS_PER_DAY
    unfold NANOS_PER_DAY
    omega

/-- All branches of `tick` are one advance by `elapsed * allowance`. -/
theorem tick_eq (b : WriteBudget) (e : Nat) :
    b.tick e = some (b.advance (e * b.dailyAllowanceBytes)) := by
  unfold tick
  by_cases hzero : b.dailyAllowanceBytes = 0 ∨ e = 0
  · have hcredit : e * b.dailyAllowanceBytes = 0 := by
      rcases hzero with h | h <;> rw [h]
      · exact Nat.mul_zero e
      · exact Nat.zero_mul _
    rw [if_pos hzero, hcredit, advance_zero]
  · rw [if_neg hzero]
    have htotal := refill_total b.allowance_lt e b.remainder_lt
    split
    · rename_i h
      rw [htotal] at h
      cases h
    · rename_i added remainder h
      rw [htotal, Option.some.injEq, Prod.mk.injEq] at h
      rcases h with ⟨rfl, rfl⟩
      refine congrArg some (WriteBudget.ext rfl ?_ ?_)
      · exact credited_refill b.allowance_lt b.available_le e b.refillRemainder
      · change (e % NANOS_PER_DAY * b.dailyAllowanceBytes + b.refillRemainder) % NANOS_PER_DAY =
          (e * b.dailyAllowanceBytes + b.refillRemainder) % NANOS_PER_DAY
        rw [Nat.add_mod, Nat.mod_mul_mod, ← Nat.add_mod]

theorem tick_additive (b : WriteBudget) :
    (∀ d e, ∃ b₁ b₂, b.tick d = some b₁ ∧ b₁.tick e = some b₂ ∧ b.tick (d + e) = some b₂) ∧
      ∀ ds : List Nat, ∃ b', ds.foldlM tick b = some b' ∧ b.tick ds.sum = some b' := by
  constructor
  · intro d e
    refine ⟨_, _, b.tick_eq d, tick_eq _ e, ?_⟩
    rw [tick_eq, Nat.add_mul, ← advance_advance]
    rfl
  · intro ds
    refine ⟨_, ?_, b.tick_eq ds.sum⟩
    induction ds generalizing b with
    | nil => rw [List.sum_nil, Nat.zero_mul, advance_zero, List.foldlM_nil, Option.pure_def]
    | cons d ds ih =>
        rw [List.foldlM_cons, tick_eq, Option.bind_eq_bind, Option.bind_some, ih, List.sum_cons,
          Nat.add_mul, ← advance_advance]
        rfl

end WriteBudget

/-! ### Threads -/

/-- A call of `try_consume` or `tick`. -/
inductive BudgetCall where
  | tryConsume (bytes : Nat)
  | tick (elapsed : Nat)

/-- What a step does not decide by itself: the next call, and whether a weak
    compare-and-swap fails although its word is the expected one. -/
structure BudgetChoice where
  call : BudgetCall := .tryConsume 0
  spurious : Bool := false

inductive BudgetPc where
  | idle
  | consumeLoad (bytes : Nat)
  | consumeSwap (bytes current : Nat)
  | consumed (granted : Bool)
  | remainderLoad (elapsed : Nat)
  | remainderSwap (elapsed old : Nat)
  | creditLoad (added : Nat)
  | creditSwap (added current : Nat)
  | ticked
  | overflowed
  deriving DecidableEq

/-- The two words of the bucket, and three records of the run that no step
    reads: the bytes granted, the duration of the ticks that have begun, and
    the bytes that ticks have computed for refill. -/
structure BudgetWords where
  available : Nat
  remainder : Nat
  granted : Nat
  elapsed : Nat
  refilled : Nat
  deriving DecidableEq

structure BudgetState where
  words : BudgetWords
  pcs : Nat → BudgetPc

namespace BudgetWords

variable (A : Nat) (m : BudgetWords) (c : BudgetChoice)

/-- The closure of `try_consume` on the value it observed. -/
def consumeFrom (bytes current : Nat) : BudgetPc :=
  if bytes ≤ current then .consumeSwap bytes current else .consumed false

/-- The start of a call, up to its first atomic operation. -/
def stepCall : BudgetWords × BudgetPc :=
  match c.call with
  | .tryConsume bytes => (m, .consumeLoad bytes)
  | .tick elapsed => ({ m with elapsed := m.elapsed + elapsed },
      if A = 0 ∨ elapsed = 0 then .ticked else .remainderLoad elapsed)

/-- One atomic operation. -/
def step : BudgetPc → Option (BudgetWords × BudgetPc)
  | .idle | .consumed _ | .ticked => some (m.stepCall A c)
  | .consumeLoad bytes => some (m, consumeFrom bytes m.available)
  | .consumeSwap bytes current =>
    if m.available = current ∧ ¬ c.spurious then
      some ({ m with available := current - bytes, granted := m.granted + bytes }, .consumed true)
    else some (m, consumeFrom bytes m.available)
  | .remainderLoad elapsed => some (m, .remainderSwap elapsed m.remainder)
  | .remainderSwap elapsed old =>
    match refill A elapsed old with
    | none => some (m, .overflowed)
    | some (added, remainder) =>
      if m.remainder = old ∧ ¬ c.spurious then
        some ({ m with remainder := remainder, refilled := m.refilled + added },
          if added = 0 then .ticked else .creditLoad added)
      else some (m, .remainderLoad elapsed)
  | .creditLoad added => some (m, .creditSwap added m.available)
  | .creditSwap added current =>
    if m.available = current ∧ ¬ c.spurious then
      some ({ m with available := credited A current added }, .ticked)
    else some (m, .creditSwap added m.available)
  | .overflowed => none

end BudgetWords

/-- A freshly constructed bucket. -/
def BudgetState.initial (A : Nat) : BudgetState :=
  { words := ⟨A, 0, 0, 0, 0⟩, pcs := fun _ => .idle }

/-- One step of one thread. -/
def BudgetState.next (A : Nat) (s : BudgetState) : Nat × BudgetChoice → Option BudgetState
  | (a, c) => (s.words.step A c (s.pcs a)).map
      (fun r => { words := r.1, pcs := update s.pcs a r.2 })

/-- A bucket of daily allowance `A` under every schedule of its callers. -/
def budgetSystem (A : Nat) : System BudgetState (Nat × BudgetChoice) :=
  { init := fun s => s = BudgetState.initial A, next := BudgetState.next A }

/-! ### Conservation of credit -/

namespace BudgetPc

/-- The duration of a tick that has not yet reached the remainder. -/
def untaken : BudgetPc → Nat
  | .remainderLoad elapsed | .remainderSwap elapsed _ => elapsed
  | _ => 0

/-- The bytes of a tick that have left the remainder for the bucket. -/
def uncredited : BudgetPc → Nat
  | .creditLoad added | .creditSwap added _ => added
  | _ => 0

/-- A thread inside `try_consume`. -/
def consuming : BudgetPc → Bool
  | .consumeLoad _ | .consumeSwap _ _ => true
  | _ => false

/-- What holds of the locals of a thread. -/
def Sound : BudgetPc → Prop
  | .consumeSwap bytes current => bytes ≤ current
  | .remainderSwap _ old => old < NANOS_PER_DAY
  | .overflowed => False
  | _ => True

end BudgetPc

/-- The words are in range and no credit has been made up. -/
structure BudgetInv (A : Nat) (s : BudgetState) : Prop where
  available_le : s.words.available ≤ A
  remainder_lt : s.words.remainder < NANOS_PER_DAY
  sound : ∀ a, (s.pcs a).Sound
  taken : ∃ n, Amounts (fun a => (s.pcs a).untaken) n ∧
    s.words.refilled * NANOS_PER_DAY + s.words.remainder + A * n ≤ A * s.words.elapsed
  paid : ∃ n, Amounts (fun a => (s.pcs a).uncredited) n ∧
    s.words.granted + s.words.available + n ≤ A + s.words.refilled

/-- What one step owes to the two balances. -/
structure BudgetMove (A : Nat) (m m' : BudgetWords) (pc pc' : BudgetPc) : Prop where
  available_le : m'.available ≤ A
  remainder_lt : m'.remainder < NANOS_PER_DAY
  sound : pc'.Sound
  taken : m'.refilled * NANOS_PER_DAY + m'.remainder + A * pc'.untaken + A * m.elapsed ≤
    m.refilled * NANOS_PER_DAY + m.remainder + A * pc.untaken + A * m'.elapsed
  paid : m'.granted + m'.available + pc'.uncredited + m.refilled ≤
    m.granted + m.available + pc.uncredited + m'.refilled

variable {A : Nat} {s s' : BudgetState}

theorem BudgetInv.initial (A : Nat) : BudgetInv A (BudgetState.initial A) where
  available_le := Nat.le_refl A
  remainder_lt := by
    change 0 < NANOS_PER_DAY
    decide
  sound := fun _ => trivial
  taken := by
    refine ⟨0, Amounts.zero (fun _ => rfl), ?_⟩
    change 0 * NANOS_PER_DAY + 0 + A * 0 ≤ A * 0
    omega
  paid := by
    refine ⟨0, Amounts.zero (fun _ => rfl), ?_⟩
    change 0 + A + 0 ≤ A + 0
    omega

theorem BudgetInv.move (hi : BudgetInv A s) {a : Nat}
    (hother : ∀ b, b ≠ a → s'.pcs b = s.pcs b)
    (hm : BudgetMove A s.words s'.words (s.pcs a) (s'.pcs a)) : BudgetInv A s' where
  available_le := hm.available_le
  remainder_lt := hm.remainder_lt
  sound := by
    intro b
    by_cases hb : b = a
    · rw [hb]
      exact hm.sound
    · rw [hother b hb]
      exact hi.sound b
  taken := by
    rcases hi.taken with ⟨n, hn, hle⟩
    have hhold := hn.le a
    have hmove := hm.taken
    refine ⟨_, hn.change (fun b hb => by rw [hother b hb]), ?_⟩
    have hmul : A * (n - (s.pcs a).untaken + (s'.pcs a).untaken) + A * (s.pcs a).untaken =
        A * n + A * (s'.pcs a).untaken := by
      rw [← Nat.mul_add, ← Nat.mul_add]
      congr 1
      omega
    omega
  paid := by
    rcases hi.paid with ⟨n, hn, hle⟩
    have hhold := hn.le a
    have hmove := hm.paid
    refine ⟨_, hn.change (fun b hb => by rw [hother b hb]), ?_⟩
    omega

/-! ### One step -/

section Step

variable {m m' : BudgetWords} {c : BudgetChoice} {pc pc' : BudgetPc}

/-- The bytes a tick takes out of the remainder are covered by the remainder
    and the credit of its duration. -/
theorem refill_conserves {e old added remainder : Nat} (hA : A < 2 ^ 64)
    (hold : old < NANOS_PER_DAY) (h : refill A e old = some (added, remainder)) :
    added * NANOS_PER_DAY + remainder ≤ A * e + old := by
  rw [refill_total hA e hold, Option.some.injEq, Prod.mk.injEq] at h
  rcases h with ⟨rfl, rfl⟩
  have hparts := Nat.div_add_mod (e % NANOS_PER_DAY * A + old) NANOS_PER_DAY
  by_cases hday : NANOS_PER_DAY ≤ e
  · rw [if_pos hday]
    have hmod := Nat.mod_le (e % NANOS_PER_DAY * A + old) NANOS_PER_DAY
    have hsplit : A * e = e % NANOS_PER_DAY * A + A * NANOS_PER_DAY * (e / NANOS_PER_DAY) := by
      rw [Nat.mul_comm _ A, Nat.mul_assoc, ← Nat.mul_add, Nat.mod_add_div]
    have hdays : A * NANOS_PER_DAY * 1 ≤ A * NANOS_PER_DAY * (e / NANOS_PER_DAY) :=
      Nat.mul_le_mul_left _ (Nat.div_pos hday (by decide))
    omega
  · rw [if_neg hday, Nat.mul_comm _ NANOS_PER_DAY, hparts,
      Nat.mod_eq_of_lt (Nat.lt_of_not_le hday), Nat.mul_comm]

theorem consumeFrom_sound (bytes current : Nat) :
    (BudgetWords.consumeFrom bytes current).Sound := by
  unfold BudgetWords.consumeFrom
  by_cases h : bytes ≤ current
  · rw [if_pos h]
    exact h
  · rw [if_neg h]
    trivial

theorem consumeFrom_idle (bytes current : Nat) :
    (BudgetWords.consumeFrom bytes current).untaken = 0 ∧
      (BudgetWords.consumeFrom bytes current).uncredited = 0 := by
  unfold BudgetWords.consumeFrom
  split <;> exact ⟨rfl, rfl⟩

/-- A step that changes no word owes nothing. -/
theorem BudgetMove.read (ha : m.available ≤ A) (hr : m.remainder < NANOS_PER_DAY)
    (hs : pc'.Sound) (ht : pc'.untaken = pc.untaken) (hc : pc'.uncredited = pc.uncredited) :
    BudgetMove A m m pc pc' where
  available_le := ha
  remainder_lt := hr
  sound := hs
  taken := by rw [ht]
  paid := by rw [hc]

/-- The start of a call puts the duration of a tick on both sides. -/
theorem stepCall_move (ha : m.available ≤ A) (hr : m.remainder < NANOS_PER_DAY)
    (ht : pc.untaken = 0) (hc : pc.uncredited = 0) (h : m.stepCall A c = (m', pc')) :
    BudgetMove A m m' pc pc' := by
  unfold BudgetWords.stepCall at h
  split at h
  · rw [Prod.mk.injEq] at h
    rcases h with ⟨rfl, rfl⟩
    exact BudgetMove.read ha hr trivial ht.symm hc.symm
  · rename_i elapsed _
    rw [Prod.mk.injEq] at h
    rcases h with ⟨rfl, rfl⟩
    have hpc : ∀ pc', pc' = (if A = 0 ∨ elapsed = 0 then BudgetPc.ticked
        else .remainderLoad elapsed) →
        pc'.Sound ∧ pc'.uncredited = 0 ∧ A * pc'.untaken ≤ A * elapsed := by
      rintro pc' rfl
      split
      · exact ⟨trivial, rfl, Nat.zero_le _⟩
      · exact ⟨trivial, rfl, Nat.le_refl _⟩
    rcases hpc _ rfl with ⟨hsound, hcredit, hle⟩
    refine ⟨ha, hr, hsound, ?_, ?_⟩
    · rw [ht, Nat.mul_add]
      dsimp only
      omega
    · rw [hc, hcredit]

theorem step_move (hA : A < 2 ^ 64) (ha : m.available ≤ A) (hr : m.remainder < NANOS_PER_DAY)
    (hs : pc.Sound) (h : m.step A c pc = some (m', pc')) : BudgetMove A m m' pc pc' := by
  cases pc with
  | idle => exact stepCall_move ha hr rfl rfl (Option.some.inj h)
  | consumed granted => exact stepCall_move ha hr rfl rfl (Option.some.inj h)
  | ticked => exact stepCall_move ha hr rfl rfl (Option.some.inj h)
  | overflowed => cases h
  | consumeLoad bytes =>
      rw [BudgetWords.step, Option.some.injEq, Prod.mk.injEq] at h
      rcases h with ⟨rfl, rfl⟩
      have hidle := consumeFrom_idle bytes m.available
      exact BudgetMove.read ha hr (consumeFrom_sound _ _) hidle.1 hidle.2
  | consumeSwap bytes current =>
      rw [BudgetWords.step] at h
      split at h
      · rename_i hcas
        rw [Option.some.injEq, Prod.mk.injEq] at h
        rcases h with ⟨rfl, rfl⟩
        have hle : bytes ≤ current := hs
        have hcur := hcas.1
        refine ⟨?_, hr, trivial, Nat.le_refl _, ?_⟩
        · dsimp only
          omega
        · dsimp only [BudgetPc.uncredited]
          omega
      · rw [Option.some.injEq, Prod.mk.injEq] at h
        rcases h with ⟨rfl, rfl⟩
        have hidle := consumeFrom_idle bytes m.available
        exact BudgetMove.read ha hr (consumeFrom_sound _ _) hidle.1 hidle.2
  | remainderLoad elapsed =>
      rw [BudgetWords.step, Option.some.injEq, Prod.mk.injEq] at h
      rcases h with ⟨rfl, rfl⟩
      exact BudgetMove.read ha hr hr rfl rfl
  | remainderSwap elapsed old =>
      have hold : old < NANOS_PER_DAY := hs
      rw [BudgetWords.step] at h
      split at h
      · rename_i hover
        rw [refill_total hA elapsed hold] at hover
        cases hover
      · rename_i added remainder hrefill
        split at h
        · rename_i hcas
          rw [Option.some.injEq, Prod.mk.injEq] at h
          rcases h with ⟨rfl, rfl⟩
          have hkeep := refill_conserves hA hold hrefill
          have hpc : ∀ pc', pc' = (if added = 0 then BudgetPc.ticked else .creditLoad added) →
              pc'.Sound ∧ pc'.uncredited = added ∧ pc'.untaken = 0 := by
            rintro pc' rfl
            split
            · rename_i hzero
              exact ⟨trivial, hzero.symm, rfl⟩
            · exact ⟨trivial, rfl, rfl⟩
          rcases hpc _ rfl with ⟨hsound, hcredit, htaken⟩
          have hcur := hcas.1
          refine ⟨ha, refill_remainder_lt hrefill, hsound, ?_, ?_⟩
          · rw [htaken]
            dsimp only [BudgetPc.untaken]
            rw [Nat.add_mul]
            omega
          · rw [hcredit]
            dsimp only [BudgetPc.uncredited]
            omega
        · rw [Option.some.injEq, Prod.mk.injEq] at h
          rcases h with ⟨rfl, rfl⟩
          exact BudgetMove.read ha hr trivial rfl rfl
  | creditLoad added =>
      rw [BudgetWords.step, Option.some.injEq, Prod.mk.injEq] at h
      rcases h with ⟨rfl, rfl⟩
      exact BudgetMove.read ha hr trivial rfl rfl
  | creditSwap added current =>
      rw [BudgetWords.step] at h
      split at h
      · rename_i hcas
        rw [Option.some.injEq, Prod.mk.injEq] at h
        rcases h with ⟨rfl, rfl⟩
        have hcur := hcas.1
        have hcap : credited A current added ≤ A := Nat.min_le_right _ _
        have hsum : credited A current added ≤ current + added :=
          Nat.le_trans (Nat.min_le_left _ _) (Nat.min_le_left _ _)
        refine ⟨hcap, hr, trivial, Nat.le_refl _, ?_⟩
        dsimp only [BudgetPc.uncredited]
        omega
      · rw [Option.some.injEq, Prod.mk.injEq] at h
        rcases h with ⟨rfl, rfl⟩
        exact BudgetMove.read ha hr trivial rfl rfl

/-- A step inside `try_consume` that does not grant changes no word. -/
theorem step_denied (hpc : pc.consuming = true) (h : m.step A c pc = some (m', pc'))
    (hfail : pc' ≠ .consumed true) : m' = m := by
  cases pc with
  | consumeLoad bytes =>
      rw [BudgetWords.step, Option.some.injEq, Prod.mk.injEq] at h
      exact h.1.symm
  | consumeSwap bytes current =>
      rw [BudgetWords.step] at h
      split at h
      · rw [Option.some.injEq, Prod.mk.injEq] at h
        exact absurd h.2.symm hfail
      · rw [Option.some.injEq, Prod.mk.injEq] at h
        exact h.1.symm
  | _ => cases hpc

end Step

/-! ### Every schedule -/

theorem BudgetState.next_eq_some {l : Nat × BudgetChoice} (h : BudgetState.next A s l = some s') :
    s.words.step A l.2 (s.pcs l.1) = some (s'.words, s'.pcs l.1) ∧
      ∀ b, b ≠ l.1 → s'.pcs b = s.pcs b := by
  rcases Option.map_eq_some_iff.mp h with ⟨r, hr, rfl⟩
  refine ⟨?_, fun b hb => update_of_ne hb _ _⟩
  dsimp only
  rw [update_self]
  exact hr

theorem budgetInv_reachable (hA : A < 2 ^ 64) (hr : Reachable (budgetSystem A) s) :
    BudgetInv A s := by
  refine reachable_invariant ?_ (fun s l s' hi h => ?_) hr
  · rintro s rfl
    exact BudgetInv.initial A
  · rcases BudgetState.next_eq_some h with ⟨hstep, hother⟩
    exact hi.move hother
      (step_move hA hi.available_le hi.remainder_lt (hi.sound l.1) hstep)

theorem endurance_never_overdrawn (hA : A < 2 ^ 64) (hr : Reachable (budgetSystem A) s) :
    s.words.available ≤ A ∧
      s.words.granted ≤ A + A * s.words.elapsed / NANOS_PER_DAY ∧
      s.words.remainder < NANOS_PER_DAY ∧
      s.words.refilled * NANOS_PER_DAY + s.words.remainder ≤ A * s.words.elapsed ∧
      (∀ a, s.pcs a ≠ .overflowed) ∧
      ∀ a c s', (s.pcs a).consuming = true → BudgetState.next A s (a, c) = some s' →
        s'.pcs a ≠ .consumed true → s'.words = s.words := by
  have hi := budgetInv_reachable hA hr
  rcases hi.taken with ⟨n, -, htaken⟩
  rcases hi.paid with ⟨k, -, hpaid⟩
  refine ⟨hi.available_le, ?_, hi.remainder_lt, by omega, fun a ha => ?_, fun a c s' hpc h => ?_⟩
  · have hrefilled : s.words.refilled ≤ A * s.words.elapsed / NANOS_PER_DAY := by
      rw [Nat.le_div_iff_mul_le (by decide)]
      omega
    omega
  · have hs := hi.sound a
    rw [ha] at hs
    exact hs
  · exact step_denied hpc (BudgetState.next_eq_some h).1

/-- A consumer empties a bucket of one byte, a whole day is ticked, and the
    consumer empties it again. -/
def emptiedTwice : List (Nat × BudgetChoice) :=
  [(0, { call := .tryConsume 1 }), (0, {}), (0, {}),
    (1, { call := .tick NANOS_PER_DAY }), (1, {}), (1, {}), (1, {}), (1, {}),
    (0, { call := .tryConsume 1 }), (0, {}), (0, {})]

/-- The bound on the granted bytes is attained. -/
theorem endurance_emptiedTwice : ∃ s, exec (budgetSystem 1) (BudgetState.initial 1)
    emptiedTwice = some s ∧ s.words = ⟨0, 0, 2, NANOS_PER_DAY, 1⟩ ∧
    s.words.granted ≤ 1 + 1 * s.words.elapsed / NANOS_PER_DAY := by
  have hwords : (exec (budgetSystem 1) (BudgetState.initial 1) emptiedTwice).map
      BudgetState.words = some ⟨0, 0, 2, NANOS_PER_DAY, 1⟩ := by decide +kernel
  rcases Option.map_eq_some_iff.mp hwords with ⟨s, hs, hw⟩
  have hr : Reachable (budgetSystem 1) s := reachable_exec _ _ s (ReachableVia.init rfl) hs
  exact ⟨s, hs, hw, (endurance_never_overdrawn (by decide) hr).2.1⟩

end TierBuf
