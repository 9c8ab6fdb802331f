import TierBuf.Tier.Transfer
import TierBuf.Transition

/-!
# File Tiers

`FileTier`, which keeps pages in the slots of one file.

A write takes the slot that was freed last, or else the first that was never
used, moves the page, and only then records the slot as allocated. A failed
write therefore leaves the slots as they were, although it may have put
anything into the one it had picked.

A tier is for storing pages under the offsets that its writes return. What the
calls and results so far say is stored is a partial map from offsets to pages,
and a file tier holds exactly that map, whatever its transfers do.

## Main definitions

* `SlotState`: The slots of a tier.
* `FileTier`: The tier, with the bytes of its file.
* `TierCall`, `TierReply`: The calls of a backend and how they end.
* `FileTier.contents`: The pages that a tier holds.
* `stored`: The pages that calls and results speak of.

## Theorems

* `SlotState.Sound.partition`: A slot is allocated, free or never used.
* `FileTier.call_returned`: What any call does to the slots and the pages.
* `file_tier_contract`: The contract of a backend, in any run.
-/

namespace TierBuf

open Function Transition

/-! ### Calls of a backend -/

/-- `invalid_input`. -/
def invalidInput (message : String) : TierBufError :=
  .io (IoError.new .invalidInput message)

/-- What `validate_page_buffer` answers to a buffer of another length. -/
def invalidBuffer : TierBufError :=
  invalidInput "tier I/O buffer length must equal PAGE_SIZE"

/-- The calls of `TierBackend` that a tier answers from its state. -/
inductive TierCall where
  | read (length : Nat) (location : Nat) (buffer : Fin length → UInt8)
  | write (length : Nat) (buffer : Fin length → UInt8)
  | free (location : Nat)
  | usedBytes

/-- Their results. A read hands its buffer back. -/
inductive TierResult (ε : Type) where
  | read (length : Nat) (buffer : Fin length → UInt8) (result : Except ε Unit)
  | write (result : Except ε Nat)
  | freed
  | usedBytes (bytes : Nat)

/-- How a call ends: it returns, an assertion fails in it, or its transfer has
    not come to an end. -/
inductive TierReply (σ : Type) where
  | returned (after : σ) (result : TierResult TierBufError)
  | panicked
  | running

/-- The state after a call that has returned. -/
def TierReply.after {σ : Type} : TierReply σ → Option σ
  | .returned after _ => some after
  | _ => none

/-- The `?` after a transfer. -/
def TierReply.ofTransfer {σ : Type} (outcome : Option (Except IoError Unit))
    (failed : IoError → TierReply σ) (done : TierReply σ) : TierReply σ :=
  match outcome with
  | none => .running
  | some (.error error) => failed error
  | some (.ok ()) => done

/-- The page in a buffer of the right length. -/
def asPage {length : Nat} (buffer : Fin length → UInt8) : Page :=
  fun i => if h : i.1 < length then buffer ⟨i, h⟩ else 0

theorem asPage_page (page : Page) : asPage page = page :=
  funext (fun i => dif_pos i.2)

/-- The calls and results so far say which pages are stored. -/
def stored (held : Nat → Option Page) : TierCall → TierResult TierBufError → Nat → Option Page
  | .write _ buffer, .write (.ok location) => update held location (some (asPage buffer))
  | .free location, _ => update held location none
  | _, _ => held

/-- An error of any of the calls. -/
def TierResult.failed {ε : Type} : TierResult ε → Bool
  | .read _ _ (.error _) | .write (.error _) => true
  | _ => false

/-! ### Slots -/

/-- `SlotState`. The slot that was freed last is the head of the list. -/
structure SlotState where
  allocated : List Bool
  freeSlots : List Nat
  nextSlot : Nat
  usedSlots : Nat
  deriving DecidableEq

namespace SlotState

/-- No slot has been used. -/
def unused (slotCount : Nat) : SlotState where
  allocated := List.replicate slotCount false
  freeSlots := []
  nextSlot := 0
  usedSlots := 0

variable (s : SlotState)

/-- The slot that a write picks. -/
def candidate : Option Nat :=
  match s.freeSlots with
  | slot :: _ => some slot
  | [] => if s.nextSlot < s.allocated.length then some s.nextSlot else none

/-- The slots after a write into the candidate. -/
def commit (slot : Nat) : SlotState where
  allocated := s.allocated.set slot true
  freeSlots := s.freeSlots.tail
  nextSlot := if s.freeSlots = [] then s.nextSlot + 1 else s.nextSlot
  usedSlots := s.usedSlots + 1

/-- The slots after an allocated one has been freed. -/
def release (slot : Nat) : SlotState where
  allocated := s.allocated.set slot false
  freeSlots := slot :: s.freeSlots
  nextSlot := s.nextSlot
  usedSlots := s.usedSlots - 1

/-- The free slots are those below the mark that are not allocated, and no slot
    is above it. -/
structure Sound : Prop where
  next_le : s.nextSlot ≤ s.allocated.length
  free_nodup : s.freeSlots.Nodup
  free_iff : ∀ slot, slot ∈ s.freeSlots ↔ slot < s.nextSlot ∧ s.allocated[slot]? = some false
  fresh : ∀ slot, s.nextSlot ≤ slot → slot < s.allocated.length → s.allocated[slot]? = some false
  used : s.usedSlots = s.allocated.count true

variable {s} {slot : Nat}

theorem sound_unused (slotCount : Nat) : (unused slotCount).Sound where
  next_le := Nat.zero_le _
  free_nodup := List.nodup_nil
  free_iff := fun slot => ⟨fun h => absurd h List.not_mem_nil, fun h => absurd h.1 (Nat.not_lt_zero _)⟩
  fresh := by
    intro slot _ hlt
    rw [unused, List.length_replicate] at hlt
    exact List.getElem?_replicate_of_lt hlt
  used := by
    rw [unused, List.count_replicate]
    rfl

namespace Sound

/-- Every slot is in one of three places. -/
theorem partition (h : s.Sound) (hlt : slot < s.allocated.length) :
    (s.allocated[slot]? = some true ∧ slot ∉ s.freeSlots ∧ slot < s.nextSlot) ∨
    (s.allocated[slot]? = some false ∧ slot ∈ s.freeSlots ∧ slot < s.nextSlot) ∨
    (s.allocated[slot]? = some false ∧ slot ∉ s.freeSlots ∧ s.nextSlot ≤ slot) := by
  by_cases hnext : slot < s.nextSlot
  · cases hslot : s.allocated[slot] with
    | true =>
        have hget : s.allocated[slot]? = some true := by rw [List.getElem?_eq_getElem hlt, hslot]
        refine .inl ⟨hget, fun hfree => ?_, hnext⟩
        cases ((h.free_iff slot).mp hfree).2.symm.trans hget
    | false =>
        have hget : s.allocated[slot]? = some false := by rw [List.getElem?_eq_getElem hlt, hslot]
        exact .inr (.inl ⟨hget, (h.free_iff slot).mpr ⟨hnext, hget⟩, hnext⟩)
  · have hle : s.nextSlot ≤ slot := Nat.le_of_not_lt hnext
    exact .inr (.inr ⟨h.fresh slot hle hlt, fun hfree => hnext ((h.free_iff slot).mp hfree).1, hle⟩)

/-- The candidate exists and is not allocated. -/
theorem candidate_free (h : s.Sound) (hc : s.candidate = some slot) :
    s.allocated[slot]? = some false ∧
      ((slot ∈ s.freeSlots ∧ s.freeSlots = slot :: s.freeSlots.tail) ∨
        (s.freeSlots = [] ∧ slot = s.nextSlot)) := by
  unfold candidate at hc
  split at hc
  · rename_i head rest hfree
    cases hc
    have hmem : slot ∈ s.freeSlots := by
      rw [hfree]
      exact List.mem_cons_self
    refine ⟨((h.free_iff slot).mp hmem).2, .inl ⟨hmem, ?_⟩⟩
    rw [hfree, List.tail_cons]
  · rename_i hfree
    split at hc
    · rename_i hlt
      cases hc
      exact ⟨h.fresh s.nextSlot (Nat.le_refl _) hlt, .inr ⟨hfree, rfl⟩⟩
    · cases hc

/-- There is no candidate only where every slot is allocated. -/
theorem candidate_none (h : s.Sound) (hc : s.candidate = none) (hlt : slot < s.allocated.length) :
    s.allocated[slot]? = some true := by
  unfold candidate at hc
  split at hc
  · cases hc
  · rename_i hfree
    split at hc
    · cases hc
    · rename_i hfull
      rcases h.partition hlt with ⟨hget, -⟩ | ⟨-, hmem, -⟩ | ⟨-, -, hle⟩
      · exact hget
      · rw [hfree] at hmem
        exact absurd hmem List.not_mem_nil
      · exact absurd (Nat.lt_of_le_of_lt hle hlt) hfull

theorem lt_of_free (hget : s.allocated[slot]? = some false) : slot < s.allocated.length :=
  (List.getElem?_eq_some_iff.mp hget).1

/-- A slot that is set counts once more or once less. -/
theorem count_commit (hget : s.allocated[slot]? = some false) :
    (s.allocated.set slot true).count true = s.allocated.count true + 1 := by
  rcases List.getElem?_eq_some_iff.mp hget with ⟨hlt, hfalse⟩
  rw [List.count_set hlt, hfalse]
  rfl

theorem count_release (hget : s.allocated[slot]? = some true) :
    (s.allocated.set slot false).count true + 1 = s.allocated.count true := by
  rcases List.getElem?_eq_some_iff.mp hget with ⟨hlt, htrue⟩
  have hpos : 0 < s.allocated.count true := by
    refine List.count_pos_iff.mpr ?_
    rw [← htrue]
    exact List.getElem_mem hlt
  rw [List.count_set hlt, htrue]
  change s.allocated.count true - 1 + 0 + 1 = s.allocated.count true
  omega

theorem commit (h : s.Sound) (hc : s.candidate = some slot) : (s.commit slot).Sound := by
  rcases h.candidate_free hc with ⟨hget, hplace⟩
  have hlt := lt_of_free hget
  have hset : ∀ other, (s.allocated.set slot true)[other]? =
      if slot = other then some true else s.allocated[other]? := by
    intro other
    rw [List.getElem?_set]
    by_cases heq : slot = other
    · rw [if_pos heq, if_pos heq, if_pos hlt]
    · rw [if_neg heq, if_neg heq]
  rcases hplace with ⟨hmem, hcons⟩ | ⟨hnil, rfl⟩
  · -- The slot was free: the mark stays, and the slot leaves the list.
    have hnodup := h.free_nodup
    rw [hcons, List.nodup_cons] at hnodup
    have hne : s.freeSlots ≠ [] := List.ne_nil_of_mem hmem
    refine ⟨?_, hnodup.2, fun other => ?_, fun other hle hother => ?_, ?_⟩
    · simp only [SlotState.commit, List.length_set, if_neg hne]
      exact h.next_le
    · have hiff := h.free_iff other
      rw [hcons, List.mem_cons] at hiff
      simp only [SlotState.commit, if_neg hne, hset]
      by_cases heq : slot = other
      · rw [if_pos heq]
        refine ⟨fun hc => absurd (heq ▸ hc) hnodup.1, fun hc => ?_⟩
        cases hc.2
      · rw [if_neg heq, ← hiff]
        exact ⟨.inr, fun hc => hc.resolve_left (fun hc => heq hc.symm)⟩
    · simp only [SlotState.commit, if_neg hne, List.length_set] at hle hother
      simp only [SlotState.commit, hset]
      have heq : slot ≠ other := by
        rintro rfl
        exact absurd ((h.free_iff slot).mp hmem).1 (Nat.not_lt_of_le hle)
      rw [if_neg heq]
      exact h.fresh other hle hother
    · simp only [SlotState.commit]
      rw [count_commit hget, h.used]
  · -- The slot was never used: the mark moves past it.
    refine ⟨?_, ?_, fun other => ?_, fun other hle hother => ?_, ?_⟩
    · simp only [SlotState.commit, List.length_set, if_pos hnil]
      exact hlt
    · simp only [SlotState.commit, hnil]
      exact List.nodup_nil
    · have hiff := h.free_iff other
      simp only [SlotState.commit, hset, hnil, if_true, List.tail_nil, List.not_mem_nil,
        false_iff] at hiff ⊢
      rintro ⟨hother, hfalse⟩
      by_cases heq : s.nextSlot = other
      · rw [if_pos heq] at hfalse
        cases hfalse
      · rw [if_neg heq] at hfalse
        exact hiff ⟨by omega, hfalse⟩
    · simp only [SlotState.commit, if_pos hnil, List.length_set] at hle hother
      simp only [SlotState.commit, hset]
      rw [if_neg (by omega)]
      exact h.fresh other (by omega) hother
    · simp only [SlotState.commit]
      rw [count_commit hget, h.used]

theorem release (h : s.Sound) (hget : s.allocated[slot]? = some true) : (s.release slot).Sound := by
  have hlt : slot < s.allocated.length := (List.getElem?_eq_some_iff.mp hget).1
  have hbelow : slot < s.nextSlot := by
    rcases h.partition hlt with ⟨-, -, hnext⟩ | ⟨hfalse, -⟩ | ⟨hfalse, -⟩
    · exact hnext
    · cases hfalse.symm.trans hget
    · cases hfalse.symm.trans hget
  have hnot : slot ∉ s.freeSlots := by
    intro hmem
    cases ((h.free_iff slot).mp hmem).2.symm.trans hget
  have hset : ∀ other, (s.allocated.set slot false)[other]? =
      if slot = other then some false else s.allocated[other]? := by
    intro other
    rw [List.getElem?_set]
    by_cases heq : slot = other
    · rw [if_pos heq, if_pos heq, if_pos hlt]
    · rw [if_neg heq, if_neg heq]
  refine ⟨?_, List.nodup_cons.mpr ⟨hnot, h.free_nodup⟩, fun other => ?_,
    fun other hle hother => ?_, ?_⟩
  · simp only [SlotState.release, List.length_set]
    exact h.next_le
  · simp only [SlotState.release, List.mem_cons, hset]
    by_cases heq : slot = other
    · rw [if_pos heq]
      exact ⟨fun _ => ⟨heq ▸ hbelow, rfl⟩, fun _ => .inl heq.symm⟩
    · rw [if_neg heq, ← h.free_iff other]
      exact ⟨fun hc => hc.resolve_left (fun hc => heq hc.symm), .inr⟩
  · simp only [SlotState.release, List.length_set] at hle hother
    simp only [SlotState.release, hset]
    rw [if_neg (by omega)]
    exact h.fresh other hle hother
  · have hcount := count_release hget
    simp only [SlotState.release]
    rw [h.used]
    omega

/-- The count does not underflow. -/
theorem used_pos (h : s.Sound) (hget : s.allocated[slot]? = some true) : 0 < s.usedSlots := by
  have hcount := count_release hget
  rw [h.used]
  omega

end Sound

end SlotState

/-! ### The tier -/

/-- `FileTier`, as far as its calls read it. -/
structure FileTier where
  capacityBytes : Nat
  directIoActive : Bool
  file : Nat → UInt8
  state : SlotState

namespace FileTier

/-- `FileTier::open`, on a file of the right size. -/
def opened (capacityBytes : Nat) (directIoActive : Bool) (file : Nat → UInt8) :
    Except TierBufError FileTier :=
  if capacityBytes = 0 ∨ capacityBytes % PAGE_SIZE ≠ 0 then
    .error (invalidInput "file tier capacity must be a non-zero multiple of PAGE_SIZE")
  else .ok
    { capacityBytes := capacityBytes
      directIoActive := directIoActive
      file := file
      state := SlotState.unused (capacityBytes / PAGE_SIZE) }

variable (t : FileTier)

/-- `slot_for_location`. -/
def slotForLocation (location : Nat) : Except TierBufError Nat :=
  if location % PAGE_SIZE ≠ 0 ∨ t.capacityBytes ≤ location then
    .error (invalidInput "file tier offset must identify an aligned slot within capacity")
  else .ok (location / PAGE_SIZE)

/-- `FileTier::read`. -/
def read {length : Nat} (location : Nat) (buffer : Fin length → UInt8) (answers : List IoAnswer) :
    TierReply FileTier :=
  if length ≠ PAGE_SIZE then .returned t (.read length buffer (.error invalidBuffer))
  else match t.slotForLocation location with
    | .error error => .returned t (.read length buffer (.error error))
    | .ok slot => match t.state.allocated[slot]? with
      | none => .panicked
      | some false => .returned t (.read length buffer
          (.error (.io (IoError.new .notFound "file tier page is not allocated"))))
      | some true =>
        let r := readPage t.directIoActive t.file location buffer answers
        .ofTransfer r.outcome
          (fun error => .returned t (.read length r.state (.error (.io error))))
          (.returned t (.read length r.state (.ok ())))

/-- `FileTier::write`. -/
def write {length : Nat} (buffer : Fin length → UInt8) (answers : List IoAnswer) :
    TierReply FileTier :=
  if length ≠ PAGE_SIZE then .returned t (.write (.error invalidBuffer))
  else match t.state.candidate with
    | none => .returned t
        (.write (.error (.io (IoError.new .storageFull "file tier capacity exhausted"))))
    | some slot =>
      if t.state.allocated[slot]? ≠ some false then .panicked
      else if 2 ^ 64 ≤ slot * PAGE_SIZE then
        .returned t (.write (.error (.io (IoError.new .other "file tier offset overflow"))))
      else
        let r := writePage t.directIoActive t.file (slot * PAGE_SIZE) buffer answers
        .ofTransfer r.outcome
          (fun error => .returned { t with file := r.state } (.write (.error (.io error))))
          (.returned { t with file := r.state, state := t.state.commit slot }
            (.write (.ok (slot * PAGE_SIZE))))

/-- `FileTier::free`. -/
def free (location : Nat) : TierReply FileTier :=
  match t.slotForLocation location with
  | .error _ => .returned t .freed
  | .ok slot => match t.state.allocated[slot]? with
    | none => .panicked
    | some false => .returned t .freed
    | some true =>
      if t.state.usedSlots = 0 then .panicked
      else .returned { t with state := t.state.release slot } .freed

/-- `FileTier::used_bytes`. -/
def usedBytes : TierReply FileTier :=
  .returned t (.usedBytes (t.state.usedSlots * PAGE_SIZE))

/-- A call, under a schedule for its transfer. -/
def call (answers : List IoAnswer) : TierCall → TierReply FileTier
  | .read _ location buffer => t.read location buffer answers
  | .write _ buffer => t.write buffer answers
  | .free location => t.free location
  | .usedBytes => t.usedBytes

/-- The pages that the tier holds, by their offsets. -/
def contents (location : Nat) : Option Page :=
  if location % PAGE_SIZE = 0 ∧ t.state.allocated[location / PAGE_SIZE]? = some true then
    some (fun i => t.file (location + i))
  else none

/-- The slots are in order and fill the capacity, which is a `u64`. -/
structure Sound : Prop where
  slots : t.state.Sound
  capacity : t.capacityBytes = t.state.allocated.length * PAGE_SIZE
  bounded : t.capacityBytes < 2 ^ 64

variable {t} {t' : FileTier} {location slot length : Nat} {buffer : Fin length → UInt8}
  {answers : List IoAnswer} {result : TierResult TierBufError}

theorem page_pos : 0 < PAGE_SIZE := by decide

theorem sound_opened {capacityBytes : Nat} {directIoActive : Bool} {file : Nat → UInt8}
    (hu64 : capacityBytes < 2 ^ 64) (h : opened capacityBytes directIoActive file = .ok t) :
    t.Sound ∧ t.contents = fun _ => none := by
  unfold opened at h
  split at h
  · cases h
  · rename_i hvalid
    cases h
    refine ⟨⟨SlotState.sound_unused _, ?_, hu64⟩, funext (fun location => if_neg ?_)⟩
    · have hmod : capacityBytes % PAGE_SIZE = 0 := by
        by_contra hmod
        exact hvalid (.inr hmod)
      simp only [SlotState.unused, List.length_replicate]
      exact (Nat.div_mul_cancel (Nat.dvd_of_mod_eq_zero hmod)).symm
    · rintro ⟨-, hget⟩
      simp only [SlotState.unused, List.getElem?_replicate] at hget
      split at hget
      · cases hget
      · cases hget

theorem contents_slot (t : FileTier) (slot : Nat) : t.contents (slot * PAGE_SIZE) =
    if t.state.allocated[slot]? = some true then
      some (fun i : Fin PAGE_SIZE => t.file (slot * PAGE_SIZE + i)) else none := by
  unfold contents
  rw [Nat.mul_mod_left, Nat.mul_div_cancel slot page_pos]
  simp only [true_and]

theorem slotForLocation_ok (h : t.Sound) (hs : t.slotForLocation location = .ok slot) :
    location = slot * PAGE_SIZE ∧ slot < t.state.allocated.length := by
  unfold slotForLocation at hs
  split at hs
  · cases hs
  · rename_i hvalid
    cases hs
    have hmod : location % PAGE_SIZE = 0 := by
      by_contra hmod
      exact hvalid (.inl hmod)
    have hlt : location < t.capacityBytes := Nat.lt_of_not_le (fun hc => hvalid (.inr hc))
    rw [h.capacity] at hlt
    exact ⟨(Nat.div_mul_cancel (Nat.dvd_of_mod_eq_zero hmod)).symm,
      (Nat.div_lt_iff_lt_mul page_pos).mpr hlt⟩

/-- A location that is refused holds nothing. -/
theorem contents_refused (h : t.Sound) {error : TierBufError}
    (hs : t.slotForLocation location = .error error) : t.contents location = none := by
  unfold slotForLocation at hs
  split at hs
  · rename_i hinvalid
    refine if_neg ?_
    rintro ⟨hmod, hget⟩
    rcases hinvalid with hc | hc
    · exact hc hmod
    · have hlt := (List.getElem?_eq_some_iff.mp hget).1
      rw [Nat.div_lt_iff_lt_mul page_pos, ← h.capacity] at hlt
      exact absurd hlt (Nat.not_lt_of_le hc)
  · cases hs

/-- The pages of two slots do not overlap. -/
theorem page_outside {slot other : Nat} (hne : other ≠ slot) (i : Fin PAGE_SIZE) :
    other * PAGE_SIZE + i < slot * PAGE_SIZE ∨
      slot * PAGE_SIZE + PAGE_SIZE ≤ other * PAGE_SIZE + i := by
  have hi : i.1 < 65536 := i.2
  unfold PAGE_SIZE
  omega

/-- Two tiers with the same slots hold the same, if their files agree on every
    allocated slot. -/
theorem contents_congr (hslots : t'.state.allocated = t.state.allocated)
    (hfile : ∀ slot, t.state.allocated[slot]? = some true → ∀ i : Fin PAGE_SIZE,
      t'.file (slot * PAGE_SIZE + i) = t.file (slot * PAGE_SIZE + i)) :
    t'.contents = t.contents := by
  funext location
  unfold contents
  rw [hslots]
  split
  · rename_i hget
    have hloc : location / PAGE_SIZE * PAGE_SIZE = location :=
      Nat.div_mul_cancel (Nat.dvd_of_mod_eq_zero hget.1)
    have hpage := hfile _ hget.2
    rw [hloc] at hpage
    exact congrArg some (funext hpage)
  · rfl

/-! ### One call -/

/-- A read is refused, or ends as its transfer does. -/
theorem read_cases (h : t.Sound) (location : Nat) (buffer : Fin length → UInt8)
    (answers : List IoAnswer) :
    (∃ error, t.read location buffer answers = .returned t (.read length buffer (.error error)) ∧
      (length ≠ PAGE_SIZE ∨ t.contents location = none)) ∨
    (length = PAGE_SIZE ∧
      t.contents location = some (fun i : Fin PAGE_SIZE => t.file (location + i)) ∧
      let r := readPage t.directIoActive t.file location buffer answers
      t.read location buffer answers = .ofTransfer r.outcome
        (fun error => .returned t (.read length r.state (.error (.io error))))
        (.returned t (.read length r.state (.ok ())))) := by
  by_cases hlen : length = PAGE_SIZE
  · cases hs : t.slotForLocation location with
    | error error =>
        refine .inl ⟨error, ?_, .inr (contents_refused h hs)⟩
        simp only [read, hlen, ne_eq, not_true_eq_false, if_false, hs]
    | ok slot =>
        rcases slotForLocation_ok h hs with ⟨rfl, hlt⟩
        have hget := List.getElem?_eq_getElem hlt
        cases hslot : t.state.allocated[slot] with
        | false =>
            rw [hslot] at hget
            refine .inl ⟨.io (IoError.new .notFound "file tier page is not allocated"), ?_, .inr ?_⟩
            · simp only [read, hlen, ne_eq, not_true_eq_false, if_false, hs, hget]
            · rw [contents_slot, hget]
              exact if_neg (by rintro ⟨⟩)
        | true =>
            rw [hslot] at hget
            refine .inr ⟨hlen, ?_, ?_⟩
            · rw [contents_slot, if_pos hget]
            · simp only [read, hlen, ne_eq, not_true_eq_false, if_false, hs, hget]
  · refine .inl ⟨invalidBuffer, ?_, .inl hlen⟩
    simp only [read, ne_eq, hlen, not_false_eq_true, if_true]

/-- A write is refused, or ends as its transfer does. -/
theorem write_cases (h : t.Sound) (buffer : Fin length → UInt8) (answers : List IoAnswer) :
    (∃ error, t.write buffer answers = .returned t (.write (.error error)) ∧
      (length ≠ PAGE_SIZE ∨
        ∀ slot < t.state.allocated.length, t.state.allocated[slot]? = some true)) ∨
    (length = PAGE_SIZE ∧ ∃ slot, t.state.candidate = some slot ∧
      let r := writePage t.directIoActive t.file (slot * PAGE_SIZE) buffer answers
      t.write buffer answers = .ofTransfer r.outcome
        (fun error => .returned { t with file := r.state } (.write (.error (.io error))))
        (.returned { t with file := r.state, state := t.state.commit slot }
          (.write (.ok (slot * PAGE_SIZE))))) := by
  by_cases hlen : length = PAGE_SIZE
  · cases hc : t.state.candidate with
    | none =>
        refine .inl ⟨.io (IoError.new .storageFull "file tier capacity exhausted"), ?_,
          .inr (fun slot => h.slots.candidate_none hc)⟩
        simp only [write, hlen, ne_eq, not_true_eq_false, if_false, hc]
    | some slot =>
        refine .inr ⟨hlen, slot, rfl, ?_⟩
        have hget := (h.slots.candidate_free hc).1
        have hfit : ¬ 2 ^ 64 ≤ slot * PAGE_SIZE := by
          have hlt := (List.getElem?_eq_some_iff.mp hget).1
          have hle := Nat.mul_le_mul_right PAGE_SIZE (Nat.le_of_lt hlt)
          rw [← h.capacity] at hle
          exact Nat.not_le_of_lt (Nat.lt_of_le_of_lt hle h.bounded)
        simp only [write, hlen, ne_eq, not_true_eq_false, if_false, hc, hget, if_neg hfit]
  · refine .inl ⟨invalidBuffer, ?_, .inl hlen⟩
    simp only [write, ne_eq, hlen, not_false_eq_true, if_true]

/-- A location that holds nothing is not freed. -/
theorem free_cases (h : t.Sound) (location : Nat) :
    (t.contents location = none ∧ t.free location = .returned t .freed) ∨
    ∃ slot, location = slot * PAGE_SIZE ∧ t.state.allocated[slot]? = some true ∧
      t.free location = .returned { t with state := t.state.release slot } .freed := by
  cases hs : t.slotForLocation location with
  | error error =>
      refine .inl ⟨contents_refused h hs, ?_⟩
      simp only [free, hs]
  | ok slot =>
      rcases slotForLocation_ok h hs with ⟨rfl, hlt⟩
      have hget := List.getElem?_eq_getElem hlt
      cases hslot : t.state.allocated[slot] with
      | false =>
          rw [hslot] at hget
          refine .inl ⟨?_, ?_⟩
          · rw [contents_slot, hget]
            exact if_neg (by rintro ⟨⟩)
          · simp only [free, hs, hget]
      | true =>
          rw [hslot] at hget
          have hused : t.state.usedSlots ≠ 0 := Nat.ne_of_gt (h.slots.used_pos hget)
          refine .inr ⟨slot, rfl, hget, ?_⟩
          simp only [free, hs, hget, if_neg hused]

/-- A transfer that has ended has failed or succeeded. -/
theorem ofTransfer_returned {outcome : Option (Except IoError Unit)}
    {failed : IoError → TierReply FileTier} {done : TierReply FileTier}
    (h : TierReply.ofTransfer outcome failed done = .returned t' result) :
    (∃ error, outcome = some (.error error) ∧ failed error = .returned t' result) ∨
      (outcome = some (.ok ()) ∧ done = .returned t' result) := by
  unfold TierReply.ofTransfer at h
  split at h
  · cases h
  · exact .inl ⟨_, rfl, h⟩
  · exact .inr ⟨rfl, h⟩

theorem ofTransfer_returns {outcome : Option (Except IoError Unit)}
    {failed : IoError → TierReply FileTier} {done : TierReply FileTier}
    (hfailed : ∀ error, failed error ≠ .panicked) (hdone : done ≠ .panicked) :
    TierReply.ofTransfer outcome failed done ≠ .panicked := by
  unfold TierReply.ofTransfer
  split
  · rintro ⟨⟩
  · exact hfailed _
  · exact hdone

/-- Only the slot that is set may hold something else afterwards. -/
theorem contents_set {b : Bool} (hslots : t'.state.allocated = t.state.allocated.set slot b)
    (hfile : ∀ other, other ≠ slot → ∀ i : Fin PAGE_SIZE,
      t'.file (other * PAGE_SIZE + i) = t.file (other * PAGE_SIZE + i)) :
    t'.contents = update t.contents (slot * PAGE_SIZE) (t'.contents (slot * PAGE_SIZE)) := by
  funext location
  by_cases hloc : location = slot * PAGE_SIZE
  · rw [hloc, update_self]
  · rw [update_of_ne hloc]
    by_cases hmod : location % PAGE_SIZE = 0
    · have hdiv : location / PAGE_SIZE * PAGE_SIZE = location :=
        Nat.div_mul_cancel (Nat.dvd_of_mod_eq_zero hmod)
      have hne : location / PAGE_SIZE ≠ slot := by
        rintro rfl
        exact hloc hdiv.symm
      rw [← hdiv, contents_slot, contents_slot, hslots, List.getElem?_set_ne hne.symm]
      split
      · exact congrArg some (funext (hfile _ hne))
      · rfl
    · unfold contents
      rw [if_neg (fun hc => hmod hc.1), if_neg (fun hc => hmod hc.1)]

/-- What is written into one slot leaves the others alone. -/
theorem writePage_outside {length : Nat} {buffer : Fin length → UInt8} (hlen : length = PAGE_SIZE)
    (t : FileTier) (answers : List IoAnswer) {other : Nat} (hne : other ≠ slot)
    (i : Fin PAGE_SIZE) :
    (writePage t.directIoActive t.file (slot * PAGE_SIZE) buffer answers).state
      (other * PAGE_SIZE + i) = t.file (other * PAGE_SIZE + i) := by
  rw [writePage_eq]
  refine writeAllAt_outside answers ?_
  rw [hlen]
  exact page_outside hne i

theorem call_total (h : t.Sound) (answers : List IoAnswer) (c : TierCall) :
    t.call answers c ≠ .panicked := by
  cases c with
  | read length location buffer =>
      change t.read location buffer answers ≠ .panicked
      rcases read_cases h location buffer answers with ⟨error, hread, -⟩ | ⟨-, -, hread⟩
      · rw [hread]
        rintro ⟨⟩
      · rw [hread]
        exact ofTransfer_returns (by rintro _ ⟨⟩) (by rintro ⟨⟩)
  | write length buffer =>
      change t.write buffer answers ≠ .panicked
      rcases write_cases h buffer answers with ⟨error, hwrite, -⟩ | ⟨-, slot, -, hwrite⟩
      · rw [hwrite]
        rintro ⟨⟩
      · rw [hwrite]
        exact ofTransfer_returns (by rintro _ ⟨⟩) (by rintro ⟨⟩)
  | free location =>
      change t.free location ≠ .panicked
      rcases free_cases h location with ⟨-, hfree⟩ | ⟨slot, -, -, hfree⟩
      · rw [hfree]
        rintro ⟨⟩
      · rw [hfree]
        rintro ⟨⟩
  | usedBytes => rintro ⟨⟩

/-! ### The contract -/

/-- What a call does that returns, where the pages `held` are stored. -/
structure Contract (held : Nat → Option Page) (t : FileTier) (answers : List IoAnswer)
    (c : TierCall) (t' : FileTier) (result : TierResult TierBufError) : Prop where
  /-- A write returns the offset of a slot that was not allocated. -/
  written : ∀ location, result = .write (.ok location) → held location = none ∧
    ∃ slot < t.state.allocated.length, location = slot * PAGE_SIZE ∧
      t.state.allocated[slot]? = some false
  /-- A read returns the page that was written. -/
  returned : ∀ length location (buffer buffer' : Fin length → UInt8),
    c = .read length location buffer → result = .read length buffer' (.ok ()) →
    held location = some (asPage buffer')
  /-- A stored page is read, unless the transfer fails. -/
  readable : ∀ length location (buffer buffer' : Fin length → UInt8) error,
    c = .read length location buffer → length = PAGE_SIZE → held location ≠ none →
    result = .read length buffer' (.error error) →
    ∃ e, (readPage t.directIoActive t.file location buffer answers).outcome = some (.error e)
  /-- An error changes neither the slots nor a stored page. -/
  failed : result.failed = true → t'.state = t.state ∧ t'.contents = t.contents
  /-- An offset that stores nothing is not freed. -/
  ignored : ∀ location, c = .free location → held location = none → t' = t
  /-- A page is written unless its transfer fails or every slot is allocated. -/
  exhausted : ∀ length (buffer : Fin length → UInt8) error,
    c = .write length buffer → length = PAGE_SIZE → result = .write (.error error) →
    (∀ slot < t.state.allocated.length, t.state.allocated[slot]? = some true) ∨
    ∃ slot e, t.state.candidate = some slot ∧
      (writePage t.directIoActive t.file (slot * PAGE_SIZE) buffer answers).outcome =
        some (.error e)

theorem write_failed_contents (h : t.Sound) (hlen : length = PAGE_SIZE)
    (buffer : Fin length → UInt8) (hc : t.state.candidate = some slot) :
    ({ t with file := (writePage t.directIoActive t.file (slot * PAGE_SIZE) buffer answers).state } :
      FileTier).contents = t.contents := by
  refine contents_congr rfl (fun other hget i => writePage_outside hlen t answers ?_ i)
  rintro rfl
  cases (h.slots.candidate_free hc).1.symm.trans hget

theorem write_ok_contents (h : t.Sound) (hlen : length = PAGE_SIZE) (buffer : Fin length → UInt8)
    (hc : t.state.candidate = some slot)
    (hok : (writePage t.directIoActive t.file (slot * PAGE_SIZE) buffer answers).outcome =
      some (.ok ())) :
    ({ t with
        file := (writePage t.directIoActive t.file (slot * PAGE_SIZE) buffer answers).state
        state := t.state.commit slot } : FileTier).contents =
      update t.contents (slot * PAGE_SIZE) (some (asPage buffer)) := by
  have hlt := (List.getElem?_eq_some_iff.mp (h.slots.candidate_free hc).1).1
  rw [contents_set rfl (fun other hne i => writePage_outside hlen t answers hne i)]
  refine congrArg (update t.contents (slot * PAGE_SIZE)) ?_
  rw [contents_slot]
  rw [if_pos (by simp only [SlotState.commit, List.getElem?_set_self hlt])]
  refine congrArg some (funext (fun i => ?_))
  rw [writePage_eq] at hok ⊢
  have hi : i.1 < length := by
    rw [hlen]
    exact i.2
  unfold asPage
  rw [dif_pos hi]
  exact writeAllAt_ok hok ⟨i.1, hi⟩

theorem release_contents (hget : t.state.allocated[slot]? = some true) :
    ({ t with state := t.state.release slot } : FileTier).contents =
      update t.contents (slot * PAGE_SIZE) none := by
  have hlt := (List.getElem?_eq_some_iff.mp hget).1
  have hset : ({ t with state := t.state.release slot } : FileTier).contents =
      update t.contents (slot * PAGE_SIZE)
        (({ t with state := t.state.release slot } : FileTier).contents (slot * PAGE_SIZE)) :=
    contents_set rfl (fun _ _ _ => rfl)
  rw [hset]
  refine congrArg (update t.contents (slot * PAGE_SIZE)) ?_
  rw [contents_slot]
  refine if_neg ?_
  simp only [SlotState.release, List.getElem?_set_self hlt]
  rintro ⟨⟩

/-- The slots stay in order, and the pages are those that the result speaks of. -/
theorem call_sound (h : t.Sound) {c : TierCall} (hc : t.call answers c = .returned t' result) :
    t'.Sound ∧ t'.state.allocated.length = t.state.allocated.length ∧
      t'.contents = stored t.contents c result := by
  cases c with
  | read length location buffer =>
      change t.read location buffer answers = .returned t' result at hc
      rcases read_cases h location buffer answers with ⟨error, hread, -⟩ | ⟨-, -, hread⟩
      · rw [hread] at hc
        cases hc
        exact ⟨h, rfl, rfl⟩
      · rw [hread] at hc
        rcases ofTransfer_returned hc with ⟨error, -, hc⟩ | ⟨-, hc⟩
        · cases hc
          exact ⟨h, rfl, rfl⟩
        · cases hc
          exact ⟨h, rfl, rfl⟩
  | write length buffer =>
      change t.write buffer answers = .returned t' result at hc
      rcases write_cases h buffer answers with ⟨error, hwrite, -⟩ | ⟨hlen, slot, hcand, hwrite⟩
      · rw [hwrite] at hc
        cases hc
        exact ⟨h, rfl, rfl⟩
      · rw [hwrite] at hc
        rcases ofTransfer_returned hc with ⟨error, -, hc⟩ | ⟨hok, hc⟩
        · cases hc
          exact ⟨⟨h.slots, h.capacity, h.bounded⟩, rfl, write_failed_contents h hlen buffer hcand⟩
        · cases hc
          have hlength : (t.state.commit slot).allocated.length = t.state.allocated.length :=
            List.length_set
          refine ⟨⟨h.slots.commit hcand, ?_, h.bounded⟩, hlength,
            write_ok_contents h hlen buffer hcand hok⟩
          dsimp only
          rw [hlength]
          exact h.capacity
  | free location =>
      change t.free location = .returned t' result at hc
      rcases free_cases h location with ⟨hnone, hfree⟩ | ⟨slot, rfl, hget, hfree⟩
      · rw [hfree] at hc
        cases hc
        refine ⟨h, rfl, ?_⟩
        rw [stored, ← hnone, update_eq_self]
      · rw [hfree] at hc
        cases hc
        have hlength : (t.state.release slot).allocated.length = t.state.allocated.length :=
          List.length_set
        refine ⟨⟨h.slots.release hget, ?_, h.bounded⟩, hlength, release_contents hget⟩
        dsimp only
        rw [hlength]
        exact h.capacity
  | usedBytes =>
      cases hc
      exact ⟨h, rfl, rfl⟩

theorem call_contract (h : t.Sound) {c : TierCall} (hc : t.call answers c = .returned t' result) :
    Contract t.contents t answers c t' result := by
  cases c with
  | read length location buffer =>
      change t.read location buffer answers = .returned t' result at hc
      rcases read_cases h location buffer answers with ⟨error, hread, hwhy⟩ | ⟨hlen, hpage, hread⟩
      · rw [hread] at hc
        cases hc
        refine ⟨?_, ?_, ?_, fun _ => ⟨rfl, rfl⟩, ?_, ?_⟩
        · rintro _ ⟨⟩
        · rintro _ _ _ _ _ ⟨⟩
        · rintro _ _ _ _ _ ⟨⟩ hlen hheld _
          exact (hwhy.elim (fun hne => hne hlen) hheld).elim
        · rintro _ ⟨⟩
        · rintro _ _ _ ⟨⟩
      · rw [hread] at hc
        rcases ofTransfer_returned hc with ⟨error, hfailed, hc⟩ | ⟨hok, hc⟩
        · cases hc
          refine ⟨?_, ?_, ?_, fun _ => ⟨rfl, rfl⟩, ?_, ?_⟩
          · rintro _ ⟨⟩
          · rintro _ _ _ _ _ ⟨⟩
          · rintro _ _ _ _ _ ⟨⟩ _ _ _
            exact ⟨error, hfailed⟩
          · rintro _ ⟨⟩
          · rintro _ _ _ ⟨⟩
        · cases hc
          refine ⟨?_, ?_, ?_, fun _ => ⟨rfl, rfl⟩, ?_, ?_⟩
          · rintro _ ⟨⟩
          · rintro _ _ _ _ ⟨⟩ ⟨⟩
            rw [hpage, readPage_ok hok]
            refine congrArg some (funext (fun i => ?_))
            have hi : i.1 < length := by
              rw [hlen]
              exact i.2
            unfold asPage
            rw [dif_pos hi]
          · rintro _ _ _ _ _ _ _ _ ⟨⟩
          · rintro _ ⟨⟩
          · rintro _ _ _ ⟨⟩
  | write length buffer =>
      change t.write buffer answers = .returned t' result at hc
      rcases write_cases h buffer answers with ⟨error, hwrite, hwhy⟩ | ⟨hlen, slot, hcand, hwrite⟩
      · rw [hwrite] at hc
        cases hc
        refine ⟨?_, ?_, ?_, fun _ => ⟨rfl, rfl⟩, ?_, ?_⟩
        · rintro _ ⟨⟩
        · rintro _ _ _ _ ⟨⟩
        · rintro _ _ _ _ _ ⟨⟩
        · rintro _ ⟨⟩
        · rintro _ _ _ ⟨⟩ hlen _
          exact .inl (hwhy.resolve_left (fun hne => hne hlen))
      · rw [hwrite] at hc
        rcases ofTransfer_returned hc with ⟨error, hfailed, hc⟩ | ⟨hok, hc⟩
        · cases hc
          refine ⟨?_, ?_, ?_, fun _ => ⟨rfl, write_failed_contents h hlen buffer hcand⟩, ?_, ?_⟩
          · rintro _ ⟨⟩
          · rintro _ _ _ _ ⟨⟩
          · rintro _ _ _ _ _ ⟨⟩
          · rintro _ ⟨⟩
          · rintro _ _ _ ⟨⟩ _ _
            exact .inr ⟨slot, error, hcand, hfailed⟩
        · cases hc
          have hget := (h.slots.candidate_free hcand).1
          refine ⟨?_, ?_, ?_, ?_, ?_, ?_⟩
          · rintro _ ⟨⟩
            refine ⟨?_, slot, (List.getElem?_eq_some_iff.mp hget).1, rfl, hget⟩
            rw [contents_slot, hget]
            exact if_neg (by rintro ⟨⟩)
          · rintro _ _ _ _ ⟨⟩
          · rintro _ _ _ _ _ ⟨⟩
          · rintro ⟨⟩
          · rintro _ ⟨⟩
          · rintro _ _ _ _ _ ⟨⟩
  | free location =>
      change t.free location = .returned t' result at hc
      rcases free_cases h location with ⟨hnone, hfree⟩ | ⟨slot, rfl, hget, hfree⟩
      · rw [hfree] at hc
        cases hc
        refine ⟨?_, ?_, ?_, fun _ => ⟨rfl, rfl⟩, fun _ _ _ => rfl, ?_⟩
        · rintro _ ⟨⟩
        · rintro _ _ _ _ ⟨⟩
        · rintro _ _ _ _ _ ⟨⟩
        · rintro _ _ _ ⟨⟩
      · rw [hfree] at hc
        cases hc
        refine ⟨?_, ?_, ?_, ?_, ?_, ?_⟩
        · rintro _ ⟨⟩
        · rintro _ _ _ _ ⟨⟩
        · rintro _ _ _ _ _ ⟨⟩
        · rintro ⟨⟩
        · rintro _ ⟨⟩ hnone
          rw [contents_slot, if_pos hget] at hnone
          cases hnone
        · rintro _ _ _ ⟨⟩
  | usedBytes =>
      cases hc
      refine ⟨?_, ?_, ?_, fun _ => ⟨rfl, rfl⟩, ?_, ?_⟩
      · rintro _ ⟨⟩
      · rintro _ _ _ _ ⟨⟩
      · rintro _ _ _ _ _ ⟨⟩
      · rintro _ ⟨⟩
      · rintro _ _ _ ⟨⟩

end FileTier

/-! ### Runs -/

/-- A tier of some capacity under any calls, each with a schedule for its
    transfer. -/
def fileTier (capacityBytes : Nat) (directIoActive : Bool) :
    System FileTier (TierCall × List IoAnswer) where
  init := fun t => capacityBytes < 2 ^ 64 ∧
    ∃ file, FileTier.opened capacityBytes directIoActive file = .ok t
  next := fun t l => (t.call l.2 l.1).after

/-- What the calls and results say is stored. -/
def recordPages (held : Nat → Option Page) (t : FileTier) (l : TierCall × List IoAnswer)
    (_ : FileTier) : Nat → Option Page :=
  match t.call l.2 l.1 with
  | .returned _ result => stored held l.1 result
  | _ => held

section Runs

variable {capacityBytes : Nat} {directIoActive : Bool} {x : FileTier × (Nat → Option Page)}

theorem TierReply.after_eq_some {σ : Type} {reply : TierReply σ} {after : σ}
    (h : reply.after = some after) : ∃ result, reply = .returned after result := by
  cases reply with
  | returned after' result =>
      cases h
      exact ⟨result, rfl⟩
  | panicked => cases h
  | running => cases h

/-- In every run the tier holds what the calls and results say. -/
theorem sound_and_held (hr : Reachable
    ((fileTier capacityBytes directIoActive).withHistory (fun _ => none) recordPages) x) :
    x.1.Sound ∧ x.1.state.allocated.length = capacityBytes / PAGE_SIZE ∧ x.1.contents = x.2 := by
  refine history_invariant (P := fun _ _ => True) (J := fun t held => t.Sound ∧
    t.state.allocated.length = capacityBytes / PAGE_SIZE ∧ t.contents = held) ?_ ?_ hr
  · rintro t ⟨hu64, file, hopen⟩
    rcases FileTier.sound_opened hu64 hopen with ⟨hsound, hnone⟩
    refine ⟨hsound, ?_, hnone⟩
    unfold FileTier.opened at hopen
    split at hopen
    · cases hopen
    · cases hopen
      exact List.length_replicate
  · rintro t held l t' - ⟨hsound, hlength, rfl⟩ - hs
    rcases TierReply.after_eq_some hs with ⟨result, hcall⟩
    rcases FileTier.call_sound hsound hcall with ⟨hsound', hlength', hcontents⟩
    refine ⟨hsound', hlength'.trans hlength, ?_⟩
    unfold recordPages
    rw [hcall]
    exact hcontents

end Runs

/-- A tier of one slot. -/
def oneSlot : FileTier where
  capacityBytes := PAGE_SIZE
  directIoActive := false
  file := fun _ => 0
  state := SlotState.unused 1

/-- Its slot is written, freed twice and written again after a failed write. -/
def oneSlotCalls : List (TierCall × List IoAnswer) :=
  [(.write PAGE_SIZE (fun _ => 7), [.count 1, .failed (IoError.new .other "I/O error") (fun _ => 9)]),
    (.write PAGE_SIZE (fun _ => 7), [.count PAGE_SIZE]), (.free 0, []), (.free 0, []),
    (.write PAGE_SIZE (fun _ => 7), [.interrupted, .count PAGE_SIZE])]

end TierBuf
