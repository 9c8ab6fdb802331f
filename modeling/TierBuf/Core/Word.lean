import TierBuf.Core.Swip
import TierBuf.Transition

/-!
# The Swip Word

The encoding of a Swip state in one 64-bit word.

The two low bits are a tag. A resident address is stored as it is, with the
tag of `Hot` or `Cooling`, so it has to have these bits clear; a page
identifier is shifted past them. The states are told apart by their words
alone, and a compare-and-swap on the word is therefore one on the state.

## Main definitions

* `encodeEvicted`, `encodeHot`, `encodeCooling`, `decode`: The encoding.
* `SwipState.Encodable`: The states that have a word.
* `SwipCell`: A Swip whose state is a word, with its compare-and-swaps.
* `SwipCall`, `swipCell`: Any calls in any order.

## Theorems

* `decode_encode`, `encode_injective`: The word holds the state.
* `SwipCall.run_cell`: A call on the word is the call on the state.
* `swip_word_faithful`: The word is a faithful state machine.
-/

namespace TierBuf

open Transition

abbrev Word := BitVec 64

def TAG_EVICTED : Word := 0b01

def TAG_COOLING : Word := 0b10

def TAG_MASK : Word := 0b11

/-! ### Encoding -/

/-- `encode_evicted`, or `none` where its assertion fails. -/
def encodeEvicted (pid : PageId) : Option Word :=
  if PageId.isValid pid then some ((BitVec.ofNat 64 pid <<< 2) ||| TAG_EVICTED) else none

/-- `encode_hot`. -/
def encodeHot (resident : ResidentAddr) : Word := BitVec.ofNat 64 resident

/-- `encode_cooling`. -/
def encodeCooling (resident : ResidentAddr) : Word := BitVec.ofNat 64 resident ||| TAG_COOLING

/-- `ResidentAddr::from_encoded`, or `none` where an assertion fails. -/
def ResidentAddr.fromEncoded (encoded : Word) : Option ResidentAddr :=
  if encoded = 0 then none else if encoded &&& TAG_MASK ≠ 0 then none else some encoded.toNat

/-- `decode`, or `none` where it panics. -/
def decode (encoded : Word) : Option SwipState :=
  if encoded &&& TAG_MASK = 0 then (ResidentAddr.fromEncoded encoded).map .hot
  else if encoded &&& TAG_MASK = TAG_COOLING then
    (ResidentAddr.fromEncoded (encoded &&& ~~~ TAG_MASK)).map .cooling
  else if encoded &&& TAG_MASK = TAG_EVICTED then
    let pid := (encoded >>> 2).toNat
    if PageId.isValid pid then some (.evicted pid) else none
  else none

/-- What `ResidentAddr::from_non_null` asserts of an address. -/
def ResidentAddr.Tagless (resident : ResidentAddr) : Prop :=
  resident ≠ 0 ∧ resident < 2 ^ 64 ∧ resident % 4 = 0

instance (resident : ResidentAddr) : Decidable resident.Tagless :=
  inferInstanceAs (Decidable (_ ∧ _))

/-- The states that have a word. -/
def SwipState.Encodable : SwipState → Prop
  | .hot resident | .cooling resident => resident.Tagless
  | .evicted pid => PageId.isValid pid = true

/-- The word of a state. -/
def SwipState.encode : SwipState → Option Word
  | .hot resident => some (encodeHot resident)
  | .cooling resident => some (encodeCooling resident)
  | .evicted pid => encodeEvicted pid

/-! ### Tags -/

/-- A tag is put on bits that are clear, and taken off again. -/
theorem tag_bits {x t m : Word} (hx : x &&& m = 0) (ht : t &&& ~~~ m = 0) :
    (x ||| t) &&& m = t ∧ (x ||| t) &&& ~~~ m = x := by
  have hbits : ∀ i, i < 64 → (x.getLsbD i && m.getLsbD i) = false ∧
      (t.getLsbD i && !m.getLsbD i) = false := by
    intro i hi
    have hxi := congrArg (fun w : Word => w.getLsbD i) hx
    have hti := congrArg (fun w : Word => w.getLsbD i) ht
    simp only [BitVec.getLsbD_and, BitVec.getLsbD_not, hi, decide_true, Bool.true_and] at hxi hti
    exact ⟨hxi.trans (by simp), hti.trans (by simp)⟩
  constructor
  · refine BitVec.eq_of_getLsbD_eq (fun i hi => ?_)
    have hb := hbits i hi
    rw [BitVec.getLsbD_and, BitVec.getLsbD_or]
    revert hb
    cases x.getLsbD i <;> cases t.getLsbD i <;> cases m.getLsbD i <;> simp
  · refine BitVec.eq_of_getLsbD_eq (fun i hi => ?_)
    have hb := hbits i hi
    rw [BitVec.getLsbD_and, BitVec.getLsbD_or, BitVec.getLsbD_not]
    simp only [hi, decide_true, Bool.true_and]
    revert hb
    cases x.getLsbD i <;> cases t.getLsbD i <;> cases m.getLsbD i <;> simp

theorem tag_eq_zero {x : Word} : x &&& TAG_MASK = 0 ↔ x.toNat % 4 = 0 := by
  have hmask : (x &&& TAG_MASK).toNat = x.toNat % 4 := by
    rw [BitVec.toNat_and]
    exact Nat.and_two_pow_sub_one_eq_mod x.toNat 2
  rw [← BitVec.toNat_inj, hmask]
  rfl

theorem tag_address {resident : ResidentAddr} (h : resident.Tagless) :
    BitVec.ofNat 64 resident &&& TAG_MASK = 0 := by
  rw [tag_eq_zero, BitVec.toNat_ofNat, Nat.mod_eq_of_lt h.2.1]
  exact h.2.2

theorem fromEncoded_address {resident : ResidentAddr} (h : resident.Tagless) :
    ResidentAddr.fromEncoded (BitVec.ofNat 64 resident) = some resident := by
  have hnat : (BitVec.ofNat 64 resident).toNat = resident := by
    rw [BitVec.toNat_ofNat, Nat.mod_eq_of_lt h.2.1]
  have hzero : BitVec.ofNat 64 resident ≠ 0 := by
    intro hc
    rw [hc] at hnat
    exact h.1 hnat.symm
  unfold ResidentAddr.fromEncoded
  rw [if_neg hzero, if_neg (fun hc => hc (tag_address h)), hnat]

theorem tag_pid (pid : PageId) : (BitVec.ofNat 64 pid <<< 2) &&& TAG_MASK = 0 := by
  rw [tag_eq_zero, BitVec.toNat_shiftLeft, Nat.shiftLeft_eq]
  generalize (BitVec.ofNat 64 pid).toNat = n
  have hquarter : n * 2 ^ 2 % 2 ^ 64 = n * 4 % (4 * 2 ^ 62) := rfl
  rw [hquarter, Nat.mod_mul_right_mod]
  exact Nat.mul_mod_left n 4

/-! ### Round trips -/

theorem decode_encodeHot {resident : ResidentAddr} (h : resident.Tagless) :
    decode (encodeHot resident) = some (.hot resident) := by
  unfold decode encodeHot
  rw [if_pos (tag_address h), fromEncoded_address h]
  rfl

theorem decode_encodeCooling {resident : ResidentAddr} (h : resident.Tagless) :
    decode (encodeCooling resident) = some (.cooling resident) := by
  rcases tag_bits (tag_address h) (t := TAG_COOLING) (by decide) with ⟨htag, haddr⟩
  unfold decode encodeCooling
  rw [htag, if_neg (by decide), if_pos rfl, haddr, fromEncoded_address h]
  rfl

theorem decode_encodeEvicted {pid : PageId} (h : PageId.isValid pid = true) :
    (encodeEvicted pid).bind decode = some (.evicted pid) := by
  have hmax : pid ≤ PageId.MAX := of_decide_eq_true h
  have hlt : pid < 2 ^ 62 := Nat.lt_of_le_of_lt hmax (by decide)
  rcases tag_bits (tag_pid pid) (t := TAG_EVICTED) (by decide) with ⟨htag, -⟩
  have hword : (BitVec.ofNat 64 pid).toNat = pid := by
    rw [BitVec.toNat_ofNat]
    exact Nat.mod_eq_of_lt (Nat.lt_trans hlt (by decide))
  have hshift : (((BitVec.ofNat 64 pid <<< 2) ||| TAG_EVICTED) >>> 2).toNat = pid := by
    rw [BitVec.ushiftRight_or_distrib, show TAG_EVICTED >>> 2 = 0#64 from rfl, BitVec.or_zero,
      BitVec.toNat_ushiftRight, BitVec.toNat_shiftLeft, hword, Nat.shiftLeft_eq,
      Nat.shiftRight_eq_div_pow]
    have hfit : pid * 2 ^ 2 < 2 ^ 64 := by
      have hscale : pid * 2 ^ 2 < 2 ^ 62 * 2 ^ 2 := Nat.mul_lt_mul_of_pos_right hlt (by decide)
      exact hscale
    rw [Nat.mod_eq_of_lt hfit]
    exact Nat.mul_div_cancel pid (by decide)
  unfold encodeEvicted
  rw [if_pos h, Option.bind_some]
  unfold decode
  rw [htag, if_neg (by decide), if_neg (by decide), if_pos rfl]
  simp only [hshift]
  rw [if_pos h]

/-- Every state that has a word is read back from it. -/
theorem decode_encode {state : SwipState} (h : state.Encodable) :
    state.encode.bind decode = some state := by
  cases state with
  | hot resident => exact decode_encodeHot h
  | cooling resident => exact decode_encodeCooling h
  | evicted pid => exact decode_encodeEvicted h

/-- Different states have different words. -/
theorem encode_injective {state state' : SwipState} (h : state.Encodable) (h' : state'.Encodable)
    (hw : state.encode = state'.encode) : state = state' := by
  have hstate := decode_encode h
  rw [hw, decode_encode h'] at hstate
  exact (Option.some.inj hstate).symm

/-! ### Cells -/

/-- `SwipInner`, with its atomic word. -/
structure SwipCell where
  pid : PageId
  ownerId : Nat
  word : Word
  deriving DecidableEq

namespace SwipCell

/-- `Swip::from_pid`, or `none` where its assertion fails. -/
def fromPid (pid : PageId) : Option SwipCell :=
  (encodeEvicted pid).map (fun word => { pid := pid, ownerId := 0, word := word })

variable (cell : SwipCell)

/-- `Swip::load`. -/
def load : Option SwipState := decode cell.word

/-- `Swip::compare_exchange`: the cell afterwards and the result. A failure
    decodes the word it has met. -/
def compareExchange (expected replacement : Word) : Option (SwipCell × Except SwipState Unit) :=
  if cell.word = expected then some ({ cell with word := replacement }, .ok ())
  else (decode cell.word).map (fun observed => (cell, .error observed))

/-- `Swip::try_swizzle`. -/
def trySwizzle (expectedPid : PageId) (resident : ResidentAddr) :
    Option (SwipCell × Except SwipState Unit) :=
  (encodeEvicted expectedPid).bind (fun expected =>
    cell.compareExchange expected (encodeHot resident))

/-- `Swip::try_mark_cooling`. -/
def tryMarkCooling (expectedResident : ResidentAddr) : Option (SwipCell × Except SwipState Unit) :=
  cell.compareExchange (encodeHot expectedResident) (encodeCooling expectedResident)

/-- `Swip::try_resurrect`. -/
def tryResurrect (expectedResident : ResidentAddr) : Option (SwipCell × Except SwipState Unit) :=
  cell.compareExchange (encodeCooling expectedResident) (encodeHot expectedResident)

/-- `Swip::try_unswizzle`. -/
def tryUnswizzle (expectedResident : ResidentAddr) (pid : PageId) :
    Option (SwipCell × Except SwipState Unit) :=
  (encodeEvicted pid).bind (fun replacement =>
    cell.compareExchange (encodeCooling expectedResident) replacement)

/-- The word of the cell stands for the state of the second one. -/
structure Holds (inner : SwipInner) : Prop where
  pid : inner.pid = cell.pid
  ownerId : inner.ownerId = cell.ownerId
  encodable : inner.state.Encodable
  word : inner.state.encode = some cell.word

variable {cell} {inner : SwipInner}

theorem Holds.load (h : cell.Holds inner) : cell.load = some inner.state := by
  have hdecode := decode_encode h.encodable
  rw [h.word] at hdecode
  exact hdecode

/-- A compare-and-swap on the word is the one on the state. -/
theorem Holds.exchange (h : cell.Holds inner) {e r : SwipState} {expected replacement : Word}
    (he : e.Encodable) (hr : r.Encodable) (hexpected : e.encode = some expected)
    (hreplacement : r.encode = some replacement) :
    (inner.state = e ∧ cell.compareExchange expected replacement =
        some ({ cell with word := replacement }, .ok ()) ∧
        inner.compareExchange e r = some { inner with state := r } ∧
        ({ cell with word := replacement } : SwipCell).Holds { inner with state := r }) ∨
      (inner.state ≠ e ∧ inner.compareExchange e r = none ∧
        cell.compareExchange expected replacement = some (cell, .error inner.state)) := by
  by_cases hstate : inner.state = e
  · have hword : cell.word = expected := by
      rw [← hstate, h.word] at hexpected
      exact Option.some.inj hexpected
    refine .inl ⟨hstate, if_pos hword, SwipInner.compareExchange_eq_some.mpr ⟨hstate, rfl⟩, ?_⟩
    exact ⟨h.pid, h.ownerId, hr, hreplacement⟩
  · have hword : cell.word ≠ expected := by
      rintro rfl
      exact hstate (encode_injective h.encodable he (h.word.trans hexpected.symm))
    refine .inr ⟨hstate, SwipInner.compareExchange_eq_none.mpr hstate, ?_⟩
    have hload : decode cell.word = some inner.state := h.load
    unfold compareExchange
    rw [if_neg hword, hload]
    rfl

end SwipCell

/-! ### Calls -/

/-- A call on a cell. A page is unswizzled under its own identifier. -/
inductive SwipCall where
  | trySwizzle (expectedPid : PageId) (resident : ResidentAddr)
  | tryMarkCooling (expectedResident : ResidentAddr)
  | tryResurrect (expectedResident : ResidentAddr)
  | tryUnswizzle (expectedResident : ResidentAddr)

namespace SwipCall

def run (call : SwipCall) (cell : SwipCell) : Option (SwipCell × Except SwipState Unit) :=
  match call with
  | .trySwizzle pid resident => cell.trySwizzle pid resident
  | .tryMarkCooling resident => cell.tryMarkCooling resident
  | .tryResurrect resident => cell.tryResurrect resident
  | .tryUnswizzle resident => cell.tryUnswizzle resident cell.pid

/-- The state that the call replaces. -/
def expected : SwipCall → SwipState
  | .trySwizzle pid _ => .evicted pid
  | .tryMarkCooling resident => .hot resident
  | .tryResurrect resident | .tryUnswizzle resident => .cooling resident

/-- The state it leaves in a cell of page `p`. -/
def replacement (p : PageId) : SwipCall → SwipState
  | .trySwizzle _ resident | .tryResurrect resident => .hot resident
  | .tryMarkCooling resident => .cooling resident
  | .tryUnswizzle _ => .evicted p

def resident : SwipCall → ResidentAddr
  | .trySwizzle _ resident | .tryMarkCooling resident | .tryResurrect resident
  | .tryUnswizzle resident => resident

/-- A call that names a page names a real one. -/
def Named : SwipCall → Prop
  | .trySwizzle pid _ => PageId.isValid pid = true
  | _ => True

instance (call : SwipCall) : Decidable call.Named :=
  match call with
  | .trySwizzle pid _ => inferInstanceAs (Decidable (PageId.isValid pid = true))
  | .tryMarkCooling _ | .tryResurrect _ | .tryUnswizzle _ => isTrue trivial

end SwipCall

/-- A cell under any calls in any order. An address that is given to a call
    has passed the assertions of `ResidentAddr::from_non_null`; a page
    identifier may be any at all. -/
def swipCell (pid : PageId) : System SwipCell SwipCall where
  init := fun cell => SwipCell.fromPid pid = some cell
  next := fun cell call =>
    if call.resident.Tagless then (call.run cell).map Prod.fst else none

/-- The transitions of a cell of page `p`. -/
inductive SwipMove (p : PageId) : SwipState → SwipState → Prop where
  | swizzled {resident : ResidentAddr} : SwipMove p (.evicted p) (.hot resident)
  | marked {resident : ResidentAddr} : SwipMove p (.hot resident) (.cooling resident)
  | resurrected {resident : ResidentAddr} : SwipMove p (.cooling resident) (.hot resident)
  | unswizzled {resident : ResidentAddr} : SwipMove p (.cooling resident) (.evicted p)

/-- The word of the cell is that of the state, and an evicted page is the
    page of the cell. -/
structure SwipCell.Sound (cell : SwipCell) (p : PageId) (state : SwipState) : Prop where
  valid : PageId.isValid p = true
  holds : cell.Holds ⟨p, cell.ownerId, state⟩
  evicted : ∀ q, state = .evicted q → q = p

section Calls

variable {cell cell' : SwipCell} {p : PageId} {state : SwipState} {call : SwipCall}

/-- What the call replaces and what it puts there have words. -/
theorem SwipCall.run_cell (hp : cell.pid = p) (hvalid : PageId.isValid p = true)
    (hres : call.resident.Tagless) (hnamed : call.Named) :
    ∃ expected replacement, call.expected.encode = some expected ∧ call.expected.Encodable ∧
      (call.replacement p).encode = some replacement ∧ (call.replacement p).Encodable ∧
      call.run cell = cell.compareExchange expected replacement := by
  cases call with
  | trySwizzle pid resident =>
      have hpid : PageId.isValid pid = true := hnamed
      refine ⟨_, _, if_pos hpid, hpid, rfl, hres, ?_⟩
      unfold SwipCall.run SwipCell.trySwizzle encodeEvicted
      dsimp only
      rw [if_pos hpid]
      rfl
  | tryMarkCooling resident => exact ⟨_, _, rfl, hres, rfl, hres, rfl⟩
  | tryResurrect resident => exact ⟨_, _, rfl, hres, rfl, hres, rfl⟩
  | tryUnswizzle resident =>
      refine ⟨_, _, rfl, hres, if_pos hvalid, hvalid, ?_⟩
      unfold SwipCall.run SwipCell.tryUnswizzle encodeEvicted
      dsimp only
      rw [hp, if_pos hvalid]
      rfl

/-- A call that names no real page panics before it looks at the cell. -/
theorem SwipCall.run_unnamed (hnamed : ¬ call.Named) : call.run cell = none := by
  cases call with
  | trySwizzle pid resident =>
      have hpid : ¬ PageId.isValid pid = true := hnamed
      unfold SwipCall.run SwipCell.trySwizzle encodeEvicted
      dsimp only
      rw [if_neg hpid]
      rfl
  | _ => exact absurd trivial hnamed

/-- A call succeeds exactly on the state it expects. -/
theorem SwipCell.Sound.run (h : cell.Sound p state) (hres : call.resident.Tagless)
    (hnamed : call.Named) :
    (state = call.expected ∧ ∃ cell', call.run cell = some (cell', .ok ()) ∧
        cell'.Sound p (call.replacement p) ∧ SwipMove p state (call.replacement p)) ∨
      (state ≠ call.expected ∧ call.run cell = some (cell, .error state)) := by
  rcases SwipCall.run_cell h.holds.pid.symm h.valid hres hnamed with
    ⟨expected, replacement, hexpected, he, hreplacement, hr, hrun⟩
  rw [hrun]
  rcases h.holds.exchange he hr hexpected hreplacement with ⟨hstate, hok, -, hholds⟩ |
    ⟨hstate, -, herror⟩
  · have hstate' : state = call.expected := hstate
    refine .inl ⟨hstate', _, hok, ⟨h.valid, hholds, fun q hq => ?_⟩, ?_⟩
    · cases call with
      | tryUnswizzle resident => exact (SwipState.evicted.inj hq).symm
      | _ => cases hq
    · subst hstate'
      cases call with
      | trySwizzle pid resident =>
          have hpid : pid = p := h.evicted pid rfl
          rw [← hpid]
          exact .swizzled
      | tryMarkCooling resident => exact .marked
      | tryResurrect resident => exact .resurrected
      | tryUnswizzle resident => exact .unswizzled
  · exact .inr ⟨hstate, herror⟩

theorem sound_reachable (hr : Reachable (swipCell p) cell) : ∃ state, cell.Sound p state := by
  refine reachable_invariant (I := fun cell => ∃ state, cell.Sound p state)
    (fun cell hi => ?_) (fun cell call cell' hsound hs => ?_) hr
  · rcases Option.map_eq_some_iff.mp hi with ⟨word, hword, rfl⟩
    have hvalid : PageId.isValid p = true := by
      unfold encodeEvicted at hword
      split at hword
      · assumption
      · cases hword
    exact ⟨.evicted p, hvalid, ⟨rfl, rfl, hvalid, hword⟩, fun q hq => (SwipState.evicted.inj hq).symm⟩
  · rcases hsound with ⟨state, hsound⟩
    change (if call.resident.Tagless then (call.run cell).map Prod.fst else none) = some cell' at hs
    split at hs
    · rename_i hres
      by_cases hnamed : call.Named
      · rcases hsound.run hres hnamed with ⟨-, cell'', hrun, hafter, -⟩ | ⟨-, hrun⟩
        · rw [hrun] at hs
          cases hs
          exact ⟨_, hafter⟩
        · rw [hrun] at hs
          cases hs
          exact ⟨_, hsound⟩
      · rw [SwipCall.run_unnamed hnamed] at hs
        cases hs
    · cases hs

end Calls

/-- The word is a faithful state machine: it holds the state, and under any
    calls a cell moves from the states the calls expect, in four ways only.
    A swizzle under no real page identifier does not get past its assertion. -/
theorem swip_word_faithful :
    (∀ state : SwipState, state.Encodable → state.encode.bind decode = some state) ∧
    (∀ state state' : SwipState, state.Encodable → state'.Encodable → state ≠ state' →
      state.encode ≠ state'.encode) ∧
    ∀ p cell, Reachable (swipCell p) cell → ∃ state, cell.load = some state ∧ cell.pid = p ∧
      (∀ q, state = .evicted q → q = p) ∧
      ∀ call : SwipCall, (¬ call.Named → call.run cell = none) ∧
        (call.Named → call.resident.Tagless →
          (state = call.expected → ∃ cell', call.run cell = some (cell', .ok ()) ∧
            cell'.pid = p ∧ cell'.load = some (call.replacement p) ∧
            SwipMove p state (call.replacement p)) ∧
          (state ≠ call.expected → call.run cell = some (cell, .error state))) := by
  refine ⟨fun _ => decode_encode, fun state state' h h' hne hw => hne (encode_injective h h' hw),
    fun p cell hr => ?_⟩
  rcases sound_reachable hr with ⟨state, hsound⟩
  refine ⟨state, hsound.holds.load, hsound.holds.pid.symm, hsound.evicted,
    fun call => ⟨SwipCall.run_unnamed, fun hnamed hres => ?_⟩⟩
  rcases hsound.run hres hnamed with ⟨hstate, cell', hrun, hafter, hmove⟩ | ⟨hstate, hrun⟩
  · exact ⟨fun _ => ⟨cell', hrun, hafter.holds.pid.symm, hafter.holds.load, hmove⟩,
      fun hc => absurd hstate hc⟩
  · exact ⟨fun hc => absurd hc hstate, fun _ => hrun⟩

/-- A page is swizzled, cooled, resurrected, cooled and unswizzled; a stale
    swizzle in between fails. -/
theorem swip_word_faithful_cycle : ∃ cell, Reachable (swipCell 5) cell ∧
    cell.load = some (.evicted 5) ∧
    (SwipCall.trySwizzle 6 128).run cell = some (cell, .error (.evicted 5)) := by
  have hrun : ((SwipCell.fromPid 5).bind (fun cell => exec (swipCell 5) cell
      [.trySwizzle 5 64, .tryMarkCooling 64, .trySwizzle 5 128, .tryResurrect 64,
        .tryMarkCooling 64, .tryUnswizzle 64])).map SwipCell.load = some (some (.evicted 5)) := by
    decide +kernel
  rcases Option.map_eq_some_iff.mp hrun with ⟨cell, hcell, hload⟩
  rcases Option.bind_eq_some_iff.mp hcell with ⟨start, hstart, hexec⟩
  have hr : Reachable (swipCell 5) cell := reachable_exec _ start cell (.init hstart) hexec
  rcases swip_word_faithful.2.2 5 cell hr with ⟨state, hstate, -, -, hcalls⟩
  cases hload.symm.trans hstate
  exact ⟨cell, hr, hload, ((hcalls (.trySwizzle 6 128)).2 (by decide) (by decide)).2 (by decide)⟩

end TierBuf
