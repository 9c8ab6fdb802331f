import Mathlib

/-!
# Swips

The tagged page reference and its compare-and-swap transitions.

A `Swip` is a cloneable handle to one heap-allocated state cell. Clones share
the cell, and `shares_state_with` compares cells, so a handle is represented
by the identity of its cell (`SwipId`) and the cells live in the state of the
pool. The cell carries an immutable page identifier, the identity of the
manager it was bound to, and the tagged word. The word is represented here by
the state it decodes to.

Every transition is one exact compare-and-swap: it succeeds when the current
state equals the expected one, and otherwise changes nothing.

## Main definitions

* `SwipState`: The three states a word decodes to.
* `SwipInner`: A state cell.
* `SwipInner.compareExchange` and its four callers: The transitions.

## Theorems

* `compareExchange_eq_some`: What a successful transition did.
-/

namespace TierBuf

/-- A logical page identifier, the integer a `PageId` wraps. -/
abbrev PageId := Nat

/-- `PageId::INVALID`, the largest 62-bit value. -/
def PageId.INVALID : PageId := 2 ^ 62 - 1

/-- `PageId::MAX`. -/
def PageId.MAX : Nat := PageId.INVALID - 1

/-- `PageId::is_valid`. -/
def PageId.isValid (pid : PageId) : Bool := pid ≤ PageId.MAX

/-- The exposed address of a resident frame's metadata. -/
abbrev ResidentAddr := Nat

/-- The identity of a state cell: what `Arc::ptr_eq` compares. -/
abbrev SwipId := Nat

inductive SwipState where
  | hot (resident : ResidentAddr)
  | cooling (resident : ResidentAddr)
  | evicted (pid : PageId)
  deriving DecidableEq, Repr

/-- The resident address of a state, if it has one. -/
def SwipState.resident : SwipState → Option ResidentAddr
  | .hot a => some a
  | .cooling a => some a
  | .evicted _ => none

structure SwipInner where
  pid : PageId
  ownerId : Nat
  state : SwipState
  deriving DecidableEq, Repr

namespace SwipInner

/-- `Swip::from_pid`. -/
def fromPid (pid : PageId) : SwipInner :=
  { pid := pid, ownerId := 0, state := .evicted pid }

/-- `Swip::try_bind_owner`: manager identity zero is an unbound handle. -/
def tryBindOwner (cell : SwipInner) (ownerId : Nat) : Option SwipInner :=
  if cell.ownerId = 0 then some { cell with ownerId := ownerId } else none

/-- `Swip::belongs_to`. -/
def belongsTo (cell : SwipInner) (ownerId : Nat) : Bool :=
  ownerId ≠ 0 && cell.ownerId = ownerId

/-- `Swip::compare_exchange`. -/
def compareExchange (cell : SwipInner) (expected replacement : SwipState) : Option SwipInner :=
  if cell.state = expected then some { cell with state := replacement } else none

/-- `Swip::try_swizzle`. -/
def trySwizzle (cell : SwipInner) (expectedPid : PageId) (resident : ResidentAddr) :
    Option SwipInner :=
  cell.compareExchange (.evicted expectedPid) (.hot resident)

/-- `Swip::try_mark_cooling`. -/
def tryMarkCooling (cell : SwipInner) (expectedResident : ResidentAddr) : Option SwipInner :=
  cell.compareExchange (.hot expectedResident) (.cooling expectedResident)

/-- `Swip::try_resurrect`. -/
def tryResurrect (cell : SwipInner) (expectedResident : ResidentAddr) : Option SwipInner :=
  cell.compareExchange (.cooling expectedResident) (.hot expectedResident)

/-- `Swip::try_unswizzle`. -/
def tryUnswizzle (cell : SwipInner) (expectedResident : ResidentAddr) (pid : PageId) :
    Option SwipInner :=
  cell.compareExchange (.cooling expectedResident) (.evicted pid)

theorem compareExchange_eq_some {cell cell' : SwipInner} {e r : SwipState} :
    cell.compareExchange e r = some cell' ↔ cell.state = e ∧ cell' = { cell with state := r } := by
  unfold compareExchange
  by_cases he : cell.state = e
  · rw [if_pos he, Option.some.injEq]
    exact ⟨fun hc => ⟨he, hc.symm⟩, fun hc => hc.2.symm⟩
  · rw [if_neg he]
    exact ⟨fun hc => absurd hc (by simp only [reduceCtorEq, not_false_eq_true]),
      fun hc => absurd hc.1 he⟩

theorem compareExchange_eq_none {cell : SwipInner} {e r : SwipState} :
    cell.compareExchange e r = none ↔ cell.state ≠ e := by
  unfold compareExchange
  by_cases he : cell.state = e
  · simp only [he, if_true, reduceCtorEq, ne_eq, not_true_eq_false]
  · simp only [he, if_false, ne_eq, not_false_eq_true]

end SwipInner

end TierBuf
