import TierBuf.Core.Swip
import TierBuf.Ledger

/-!
# Frame Words

The two words that guard a frame, and the addresses of frames.

`pin_control` packs a pin count and the eviction reservation into one `u32`:
a fixer increments it only while the top bit is clear, and an evictor moves it
only from the exact value zero to the exact value `EVICTING`. `HybridLatch`
packs a version and a lock state. Both are reader-writer words, and each
operation here comes with the move it makes on the `RwState` its word stands
for.

Frame metadata sits in one boxed slice, so the address of frame `i` is
`base + i * stride`, and `index_of_resident` inverts that.

## Main definitions

* `Page`: The bytes of one frame.
* `tryPin`, `unpin`, `tryClaimEviction`, `releaseEviction`,
  `publishReservedPin`: The operations on `pin_control`.
* `HybridLatch`: The latch, one step per acquisition or release.
* `Geometry`: Where frame metadata lives.

## Theorems

* `tryPin_eq_some`, `unpin_of_shared`, `tryClaimEviction_eq_some`,
  `releaseEviction_of_exclusive`, `publishReservedPin_of_exclusive`: What the
  operations do to the state of the word.
* `indexOfResident_residentAddr`: Every frame address resolves to its index.
* `residentAddr_of_index`: An address that resolves is that of the frame.
-/

namespace TierBuf

open Ledger

/-- `PAGE_SIZE`. -/
def PAGE_SIZE : Nat := 65536

/-- The bytes of one page. -/
abbrev Page := Fin PAGE_SIZE → UInt8

/-- `page.fill(0)`. -/
def Page.zero : Page := fun _ => 0

/-! ### The pin word -/

/-- `EVICTING`, the top bit of the control word. -/
def EVICTING : Nat := 2 ^ 31

/-- `PIN_COUNT_MASK`. -/
def PIN_COUNT_MASK : Nat := EVICTING - 1

/-- `Frame::try_pin`. The word is a `u32`, so the `EVICTING` bit is set
    exactly when the word is at least `EVICTING`. -/
def tryPin (current : Nat) : Option Nat :=
  if EVICTING ≤ current ∨ current = PIN_COUNT_MASK then none else some (current + 1)

/-- `Frame::unpin`, or `none` where one of its two assertions fails. -/
def unpin (current : Nat) : Option Nat :=
  if EVICTING ≤ current then none else if current = 0 then none else some (current - 1)

/-- `Frame::pin_count`. -/
def pinCount (current : Nat) : Nat := current % EVICTING

/-- `Frame::is_evicting`. -/
def isEvicting (current : Nat) : Bool := current = EVICTING

/-- `Frame::try_claim_eviction`. -/
def tryClaimEviction (current : Nat) : Option Nat :=
  if current = 0 then some EVICTING else none

/-- `Frame::release_eviction`, or `none` where its expectation fails. -/
def releaseEviction (current : Nat) : Option Nat :=
  if current = EVICTING then some 0 else none

/-- `Frame::publish_reserved_pin`, or `none` where its expectation fails. -/
def publishReservedPin (current : Nat) : Option Nat :=
  if current = EVICTING then some 1 else none

/-- The reader-writer state of a pin word: pins are shared holds and the
    eviction reservation is the exclusive one. -/
def pinState (current : Nat) : RwState :=
  if current < EVICTING then .shared current else .exclusive

theorem pinState_of_lt {w : Nat} (hw : w < EVICTING) : pinState w = .shared w := by
  unfold pinState
  rw [if_pos hw]

theorem pinState_evicting : pinState EVICTING = .exclusive := by
  unfold pinState
  rw [if_neg (Nat.lt_irrefl _)]

theorem pinState_eq_shared {w n : Nat} (hw : pinState w = .shared n) : w = n ∧ w < EVICTING := by
  unfold pinState at hw
  by_cases hlt : w < EVICTING
  · rw [if_pos hlt] at hw
    exact ⟨RwState.shared.inj hw, hlt⟩
  · rw [if_neg hlt] at hw
    exact absurd hw (by simp only [reduceCtorEq, not_false_eq_true])

theorem pinState_eq_exclusive {w : Nat} (hw : pinState w = .exclusive) (hle : w ≤ EVICTING) :
    w = EVICTING := by
  unfold pinState at hw
  by_cases hlt : w < EVICTING
  · rw [if_pos hlt] at hw
    exact absurd hw (by simp only [reduceCtorEq, not_false_eq_true])
  · omega

theorem tryPin_eq_some {w w' : Nat} (hw : tryPin w = some w') :
    ∃ n, pinState w = .shared n ∧ pinState w' = .shared (n + 1) ∧ w' ≤ EVICTING := by
  unfold tryPin at hw
  by_cases hc : EVICTING ≤ w ∨ w = PIN_COUNT_MASK
  · rw [if_pos hc] at hw
    exact absurd hw (by simp only [reduceCtorEq, not_false_eq_true])
  · rw [if_neg hc, Option.some.injEq] at hw
    have hlt : w + 1 < EVICTING := by
      unfold PIN_COUNT_MASK at hc
      omega
    rw [← hw]
    exact ⟨w, pinState_of_lt (by omega), pinState_of_lt hlt, Nat.le_of_lt hlt⟩

theorem unpin_of_shared {w n : Nat} (hw : pinState w = .shared (n + 1)) :
    unpin w = some n ∧ pinState n = .shared n ∧ n ≤ EVICTING := by
  rcases pinState_eq_shared hw with ⟨rfl, hlt⟩
  refine ⟨?_, pinState_of_lt (by omega), by omega⟩
  unfold unpin
  rw [if_neg (by omega), if_neg (by omega), Nat.add_sub_cancel]

theorem tryClaimEviction_eq_some {w w' : Nat} (hw : tryClaimEviction w = some w') :
    pinState w = .shared 0 ∧ w' = EVICTING := by
  unfold tryClaimEviction at hw
  by_cases hc : w = 0
  · rw [if_pos hc, Option.some.injEq] at hw
    rw [hc]
    exact ⟨pinState_of_lt (by decide), hw.symm⟩
  · rw [if_neg hc] at hw
    exact absurd hw (by simp only [reduceCtorEq, not_false_eq_true])

theorem releaseEviction_of_exclusive {w : Nat} (hw : pinState w = .exclusive)
    (hle : w ≤ EVICTING) : releaseEviction w = some 0 := by
  unfold releaseEviction
  rw [if_pos (pinState_eq_exclusive hw hle)]

theorem publishReservedPin_of_exclusive {w : Nat} (hw : pinState w = .exclusive)
    (hle : w ≤ EVICTING) : publishReservedPin w = some 1 := by
  unfold publishReservedPin
  rw [if_pos (pinState_eq_exclusive hw hle)]

/-! ### The latch -/

/-- `HybridLatch`, with its packed word taken apart. -/
structure HybridLatch where
  version : Nat
  state : RwState
  deriving DecidableEq, Repr

namespace HybridLatch

/-- `MAX_SHARED`. -/
def MAX_SHARED : Nat := 65534

/-- `VERSION_MASK`. -/
def VERSION_MASK : Nat := 2 ^ 48 - 1

/-- `HybridLatch::new`. -/
def new : HybridLatch :=
  { version := 0, state := .shared 0 }

/-- The successful attempt of `HybridLatch::lock_shared`, or `none` while the
    caller has to spin. -/
def lockShared (latch : HybridLatch) : Option HybridLatch :=
  match latch.state with
  | .shared n => if n < MAX_SHARED then some { latch with state := .shared (n + 1) } else none
  | .exclusive => none

/-- The successful attempt of `HybridLatch::lock_exclusive`, or `none` while
    the caller has to spin. -/
def lockExclusive (latch : HybridLatch) : Option HybridLatch :=
  match latch.state with
  | .shared 0 => some { latch with state := .exclusive }
  | _ => none

/-- `HybridLatch::release_shared`, or `none` where its assertion fails. -/
def releaseShared (latch : HybridLatch) : Option HybridLatch :=
  match latch.state with
  | .shared (n + 1) => some { latch with state := .shared n }
  | _ => none

/-- `HybridLatch::release_exclusive`, or `none` where its assertion fails. -/
def releaseExclusive (latch : HybridLatch) : Option HybridLatch :=
  match latch.state with
  | .exclusive => some { version := (latch.version + 1) % 2 ^ 48, state := .shared 0 }
  | _ => none

/-- `HybridLatch::optimistic`, or `none` where it is contended. -/
def optimistic (latch : HybridLatch) : Option Nat :=
  if latch.state = .exclusive then none else some latch.version

/-- `HybridLatch::validate`. -/
def validate (latch : HybridLatch) (snapshot : Nat) : Bool :=
  if VERSION_MASK < snapshot then false
  else latch.state ≠ .exclusive ∧ latch.version = snapshot

/-- The acquisition of either kind. -/
def lock (exclusive : Bool) (latch : HybridLatch) : Option HybridLatch :=
  if exclusive then latch.lockExclusive else latch.lockShared

/-- The release of either kind. -/
def release (exclusive : Bool) (latch : HybridLatch) : Option HybridLatch :=
  if exclusive then latch.releaseExclusive else latch.releaseShared

theorem lockShared_eq_some {l l' : HybridLatch} (hl : l.lockShared = some l') :
    ∃ n, l.state = .shared n ∧ l'.state = .shared (n + 1) := by
  unfold lockShared at hl
  cases hs : l.state with
  | exclusive =>
      rw [hs] at hl
      exact absurd hl (by simp only [reduceCtorEq, not_false_eq_true])
  | shared n =>
      simp only [hs, Option.ite_none_right_eq_some, Option.some.injEq] at hl
      exact ⟨n, rfl, by rw [← hl.2]⟩

theorem lockExclusive_eq_some {l l' : HybridLatch} (hl : l.lockExclusive = some l') :
    l.state = .shared 0 ∧ l'.state = .exclusive := by
  unfold lockExclusive at hl
  split at hl
  · rw [Option.some.injEq] at hl
    exact ⟨‹_›, by rw [← hl]⟩
  · exact absurd hl (by simp only [reduceCtorEq, not_false_eq_true])

theorem releaseShared_of_shared {l : HybridLatch} {n : Nat} (hl : l.state = .shared (n + 1)) :
    l.releaseShared = some { l with state := .shared n } := by
  unfold releaseShared
  rw [hl]

theorem releaseExclusive_of_exclusive {l : HybridLatch} (hl : l.state = .exclusive) :
    l.releaseExclusive = some { version := (l.version + 1) % 2 ^ 48, state := .shared 0 } := by
  unfold releaseExclusive
  rw [hl]

end HybridLatch

/-! ### Frame addresses -/

/-- Where the metadata slice of a frame table lives. -/
structure Geometry where
  frameCount : Nat
  base : Nat
  stride : Nat
  frames_pos : 0 < frameCount
  stride_pos : 0 < stride

namespace Geometry

variable (g : Geometry)

/-- `FrameTable::resident_addr`. -/
def residentAddr (index : Nat) : ResidentAddr := g.base + index * g.stride

/-- `FrameTable::index_of_resident`. -/
def indexOfResident (address : ResidentAddr) : Option Nat :=
  if address < g.base ∨ g.base + g.stride * g.frameCount ≤ address then none
  else if (address - g.base) % g.stride ≠ 0 then none
  else
    let index := (address - g.base) / g.stride
    if g.residentAddr index = address then some index else none

theorem residentAddr_inj {i j : Nat} (h : g.residentAddr i = g.residentAddr j) : i = j := by
  unfold residentAddr at h
  have hmul : i * g.stride = j * g.stride := Nat.add_left_cancel h
  exact Nat.eq_of_mul_eq_mul_right g.stride_pos hmul

theorem indexOfResident_residentAddr {i : Nat} (hi : i < g.frameCount) :
    g.indexOfResident (g.residentAddr i) = some i := by
  have hlt : g.stride * i < g.stride * g.frameCount := Nat.mul_lt_mul_of_pos_left hi g.stride_pos
  have hcomm : i * g.stride = g.stride * i := Nat.mul_comm _ _
  have hsub : g.base + i * g.stride - g.base = g.stride * i := by omega
  have hin : ¬ (g.residentAddr i < g.base ∨
      g.base + g.stride * g.frameCount ≤ g.residentAddr i) := by
    change ¬ (g.base + i * g.stride < g.base ∨
      g.base + g.stride * g.frameCount ≤ g.base + i * g.stride)
    omega
  have hindex : (g.residentAddr i - g.base) / g.stride = i := by
    unfold residentAddr
    rw [hsub, Nat.mul_div_cancel_left _ g.stride_pos]
  have hmod : (g.residentAddr i - g.base) % g.stride = 0 := by
    unfold residentAddr
    rw [hsub, Nat.mul_mod_right]
  unfold indexOfResident
  rw [if_neg hin, if_neg (by rw [hmod]; exact fun hc => hc rfl)]
  simp only [hindex, if_true]

theorem residentAddr_of_index {address i : Nat} (h : g.indexOfResident address = some i) :
    address = g.residentAddr i ∧ i < g.frameCount := by
  unfold indexOfResident at h
  split at h
  · exact absurd h (by simp only [reduceCtorEq, not_false_eq_true])
  · split at h
    · exact absurd h (by simp only [reduceCtorEq, not_false_eq_true])
    · simp only [Option.ite_none_right_eq_some, Option.some.injEq] at h
      rcases h with ⟨haddr, hi⟩
      rw [hi] at haddr
      refine ⟨haddr.symm, ?_⟩
      have hlt : g.stride * i < g.stride * g.frameCount := by
        have haddr' : g.base + i * g.stride = address := haddr
        rw [Nat.mul_comm g.stride i]
        omega
      exact Nat.lt_of_mul_lt_mul_left hlt

end Geometry

end TierBuf
