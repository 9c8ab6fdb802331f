import TierBuf.Core.Error
import TierBuf.Core.Frame

/-!
# The Memory of the Frames

`AlignedPool`, which cuts a mapping into frames.

The mapping is a frame longer than the frames need, less a byte, so that it has
a page boundary early enough. The frames begin there. Everything that the
unsafe code of the pool relies on is a field of the structure, and proved where
the pool is made: the frames are aligned and inside of the mapping, and no
address of theirs wraps around.

Frames are then pages of their own: what is written to one of them is read from
that one, and from no other.

## Main definitions

* `AlignedPool`: A mapping with its frames.
* `AlignedPool.new`: How it is made.
* `AlignedPool.readFrame`, `AlignedPool.writeFrame`: A frame as a page.
* `AlignedPool.frames`: All frames of a memory.

## Theorems

* `base_add_alignmentOffset`: The offset leads to a page boundary.
* `framePtr_eq`: Frame pointers do not wrap around.
* `frames_writeFrame`: A write changes one frame.
* `writeFrame_outside`: And nothing outside of the mapping.
-/

namespace TierBuf

open Function

/-! ### The pool -/

/-- What `mmap` returns. A mapping does not wrap around. -/
abbrev Mapped (length : Nat) := Except IoError {base : Nat // base + length ≤ 2 ^ 64}

structure AlignedPool where
  mapping : Nat
  mappingLen : Nat
  alignedStart : Nat
  frameCount : Nat
  aligned : PAGE_SIZE ∣ alignedStart
  begins : mapping ≤ alignedStart
  ends : alignedStart + frameCount * PAGE_SIZE ≤ mapping + mappingLen
  addressable : mapping + mappingLen ≤ 2 ^ 64

namespace AlignedPool

/-- `invalid_size`. -/
def invalidSize (message : String) : TierBufError := .io (.new .invalidInput message)

/-- `alignment_offset`. -/
def alignmentOffset (base : Nat) : Nat := (PAGE_SIZE - base % PAGE_SIZE) % PAGE_SIZE

theorem alignmentOffset_lt (base : Nat) : alignmentOffset base < PAGE_SIZE :=
  Nat.mod_lt _ (by decide)

theorem base_add_alignmentOffset (base : Nat) : PAGE_SIZE ∣ base + alignmentOffset base := by
  have hpos : 0 < PAGE_SIZE := by decide
  have hlt := Nat.mod_lt base hpos
  have hbase := Nat.div_add_mod base PAGE_SIZE
  unfold alignmentOffset
  rcases Nat.eq_zero_or_pos (base % PAGE_SIZE) with hzero | hrest
  · rw [hzero, Nat.sub_zero, Nat.mod_self, Nat.add_zero]
    exact Nat.dvd_of_mod_eq_zero hzero
  · rw [Nat.mod_eq_of_lt (Nat.sub_lt hpos hrest)]
    refine ⟨base / PAGE_SIZE + 1, ?_⟩
    rw [Nat.mul_add, Nat.mul_one]
    omega

/-- The padding has room for the offset, so the start does not wrap around. -/
theorem start_eq {base bytes : Nat} (hbase : base + (bytes + (PAGE_SIZE - 1)) ≤ 2 ^ 64)
    (hbytes : bytes ≠ 0) :
    (base + alignmentOffset base) % 2 ^ 64 = base + alignmentOffset base := by
  have hoffset := alignmentOffset_lt base
  refine Nat.mod_eq_of_lt ?_
  omega

/-- `AlignedPool::new`. -/
def new (bytes : Nat) (mmap : (length : Nat) → Mapped length) : Except TierBufError AlignedPool :=
  if hzero : bytes = 0 then .error (invalidSize "pool size must be greater than zero")
  else if hmultiple : bytes % PAGE_SIZE ≠ 0 then
    .error (invalidSize "pool size must be an exact multiple of PAGE_SIZE")
  else if 2 ^ 64 ≤ bytes + (PAGE_SIZE - 1) then
    .error (invalidSize "pool size overflows with alignment padding")
  else match mmap (bytes + (PAGE_SIZE - 1)) with
    | .error e => .error (.io e)
    | .ok ⟨base, hbase⟩ => .ok
      { mapping := base
        mappingLen := bytes + (PAGE_SIZE - 1)
        alignedStart := (base + alignmentOffset base) % 2 ^ 64
        frameCount := bytes / PAGE_SIZE
        aligned := by
          rw [start_eq hbase hzero]
          exact base_add_alignmentOffset base
        begins := by
          rw [start_eq hbase hzero]
          exact Nat.le_add_right _ _
        ends := by
          rw [start_eq hbase hzero, Nat.div_mul_cancel (Nat.dvd_of_mod_eq_zero (not_not.mp hmultiple))]
          have hoffset := alignmentOffset_lt base
          omega
        addressable := hbase }

/-- The sizes that a pool can have. -/
theorem new_ok {bytes : Nat} {mmap : (length : Nat) → Mapped length} {pool : AlignedPool}
    (h : new bytes mmap = .ok pool) :
    0 < pool.frameCount ∧ pool.frameCount * PAGE_SIZE = bytes := by
  unfold new at h
  split at h
  · cases h
  · rename_i hzero
    split at h
    · cases h
    · rename_i hmultiple
      split at h
      · cases h
      · split at h
        · cases h
        · cases h
          have hbytes : bytes / PAGE_SIZE * PAGE_SIZE = bytes :=
            Nat.div_mul_cancel (Nat.dvd_of_mod_eq_zero (not_not.mp hmultiple))
          refine ⟨Nat.pos_of_ne_zero (fun hnone => hzero ?_), hbytes⟩
          rw [← hbytes]
          exact Nat.mul_eq_zero.mpr (.inl hnone)

/-! ### Frames -/

variable (pool : AlignedPool)

/-- `frame_ptr`, or `none` if it panics. -/
def framePtr (index : Nat) : Option Nat :=
  if index < pool.frameCount then some ((pool.alignedStart + index * PAGE_SIZE) % 2 ^ 64)
  else none

end AlignedPool

/-- The bytes of the address space. -/
abbrev Memory := Nat → UInt8

namespace AlignedPool

variable (pool : AlignedPool) (memory : Memory)

/-- The argument of `read` in `read_frame_with`. -/
def readFrame (index : Nat) : Option Page :=
  (pool.framePtr index).map (fun ptr byte => memory (ptr + byte))

/-- The memory after `write` in `write_frame_with` has left these bytes. -/
def writeFrame (index : Nat) (page : Page) : Option Memory :=
  (pool.framePtr index).map (fun ptr address =>
    if h : ptr ≤ address ∧ address - ptr < PAGE_SIZE then page ⟨address - ptr, h.2⟩
    else memory address)

/-- All frames. -/
def frames (index : Nat) : Page :=
  fun byte => memory (pool.alignedStart + index * PAGE_SIZE + byte)

/-- The addresses of the mapping. -/
def Maps (address : Nat) : Prop :=
  pool.mapping ≤ address ∧ address < pool.mapping + pool.mappingLen

instance (address : Nat) : Decidable (pool.Maps address) := inferInstanceAs (Decidable (_ ∧ _))

variable {pool memory} {index : Nat} {page : Page} {memory' : Memory}

/-- Where a frame lies. -/
theorem frame_inside (h : index < pool.frameCount) :
    pool.mapping ≤ pool.alignedStart + index * PAGE_SIZE ∧
      pool.alignedStart + index * PAGE_SIZE + PAGE_SIZE ≤ pool.mapping + pool.mappingLen := by
  have hmul : (index + 1) * PAGE_SIZE ≤ pool.frameCount * PAGE_SIZE := Nat.mul_le_mul_right _ h
  have hbegins := pool.begins
  have hends := pool.ends
  rw [Nat.succ_mul] at hmul
  omega

theorem framePtr_eq (h : index < pool.frameCount) :
    pool.framePtr index = some (pool.alignedStart + index * PAGE_SIZE) := by
  have hinside := frame_inside h
  have haddressable := pool.addressable
  have hpos : 0 < PAGE_SIZE := by decide
  unfold framePtr
  rw [if_pos h, Nat.mod_eq_of_lt (by omega)]

theorem readFrame_eq (h : index < pool.frameCount) :
    pool.readFrame memory index = some (pool.frames memory index) := by
  unfold readFrame
  rw [framePtr_eq h]
  rfl

theorem maps_frame (h : index < pool.frameCount) (byte : Fin PAGE_SIZE) :
    pool.Maps (pool.alignedStart + index * PAGE_SIZE + byte) := by
  have hinside := frame_inside h
  exact ⟨Nat.le_trans hinside.1 (Nat.le_add_right _ _), by omega⟩

/-- A write happens inside of its frame. -/
theorem writeFrame_eq_some (h : pool.writeFrame memory index page = some memory') :
    index < pool.frameCount ∧ memory' = fun address =>
      if h : pool.alignedStart + index * PAGE_SIZE ≤ address ∧
          address - (pool.alignedStart + index * PAGE_SIZE) < PAGE_SIZE then
        page ⟨address - (pool.alignedStart + index * PAGE_SIZE), h.2⟩
      else memory address := by
  rcases Option.map_eq_some_iff.mp h with ⟨ptr, hptr, rfl⟩
  have hindex : index < pool.frameCount := by
    by_contra hout
    unfold framePtr at hptr
    rw [if_neg hout] at hptr
    cases hptr
  rw [framePtr_eq hindex] at hptr
  cases hptr
  exact ⟨hindex, rfl⟩

/-- A write changes one frame. -/
theorem frames_writeFrame (h : pool.writeFrame memory index page = some memory') :
    pool.frames memory' = update (pool.frames memory) index page := by
  rcases writeFrame_eq_some h with ⟨-, rfl⟩
  funext other byte
  unfold frames
  dsimp only
  by_cases hsame : other = index
  · subst hsame
    rw [update_self, dif_pos ⟨Nat.le_add_right _ _, by omega⟩]
    exact congrArg page (Fin.ext (Nat.add_sub_cancel_left _ _))
  · rw [update_of_ne hsame, dif_neg]
    rintro ⟨hle, hlt⟩
    have hbyte := byte.isLt
    rcases Nat.lt_or_gt_of_ne hsame with hless | hmore
    · have hmul : (other + 1) * PAGE_SIZE ≤ index * PAGE_SIZE := Nat.mul_le_mul_right _ hless
      rw [Nat.succ_mul] at hmul
      omega
    · have hmul : (index + 1) * PAGE_SIZE ≤ other * PAGE_SIZE := Nat.mul_le_mul_right _ hmore
      rw [Nat.succ_mul] at hmul
      omega

/-- And nothing outside of the mapping. -/
theorem writeFrame_outside (h : pool.writeFrame memory index page = some memory') {address : Nat}
    (hout : ¬ pool.Maps address) : memory' address = memory address := by
  rcases writeFrame_eq_some h with ⟨hindex, rfl⟩
  have hinside := frame_inside hindex
  refine dif_neg (fun hc => hout ⟨Nat.le_trans hinside.1 hc.1, ?_⟩)
  omega

/-- What somebody else writes outside of the mapping is in no frame. -/
theorem frames_outside (hsame : ∀ address, pool.Maps address → memory' address = memory address)
    (h : index < pool.frameCount) : pool.frames memory' index = pool.frames memory index :=
  funext (fun byte => hsame _ (maps_frame h byte))

end AlignedPool

end TierBuf
