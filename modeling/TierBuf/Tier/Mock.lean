import TierBuf.Tier.File

/-!
# Mock Tiers

`MockTier`, the tier of the tests, and why it can stand in for a file tier.

A mock tier keeps its pages in a map. It pops a freed offset before it inserts,
where a file tier looks at the last freed slot, writes, and pops it only then;
it has no bitmap, since its map says which offsets are used, and no counter.
Without failures nobody can tell: both hand out the same offsets, give back the
same pages and refuse the same calls with the same kinds of errors.

## Main definitions

* `MockTier`: The tier.
* `Alike`: A mock and a file tier in the same state.
* `FileTier.AllSucceed`: No transfer of a run fails.

## Theorems

* `Alike.call`: A call gives the same result and keeps the two alike.
* `mock_file_interchangeable`: All runs give the same results.
-/

namespace TierBuf

open Function

/-- `copy_from_slice` of a page into a buffer of its length. -/
def copyFromSlice {length : Nat} (page : Page) (buffer : Fin length → UInt8) : Fin length → UInt8 :=
  fun i => if h : i.1 < PAGE_SIZE then page ⟨i, h⟩ else buffer i

/-- `MockTier`, as far as its calls read it. The offset that was freed last is
    the head of the list. -/
structure MockTier where
  capacityBytes : Nat
  slotCount : Nat
  pages : Std.HashMap Nat Page
  freeSlots : List Nat
  nextSlot : Nat
  readAttempts : Nat
  failReadAt : Option Nat

namespace MockTier

/-- `MockTier::new`. -/
def new (capacityBytes : Nat) : Except TierBufError MockTier :=
  if capacityBytes = 0 ∨ capacityBytes % PAGE_SIZE ≠ 0 then
    .error (invalidInput "mock tier capacity must be a non-zero multiple of PAGE_SIZE")
  else .ok
    { capacityBytes := capacityBytes
      slotCount := capacityBytes / PAGE_SIZE
      pages := ∅
      freeSlots := []
      nextSlot := 0
      readAttempts := 0
      failReadAt := none }

variable (m : MockTier)

/-- `fail_nth_read`. -/
def failNthRead (nth : Option Nat) : Except TierBufError MockTier :=
  if nth = some 0 then .error (invalidInput "injected read number must be at least one")
  else .ok { m with readAttempts := 0, failReadAt := nth }

/-- `validate_location`, where it refuses. -/
def refusedLocation (location : Nat) : Option TierBufError :=
  if location % PAGE_SIZE ≠ 0 ∨ m.capacityBytes ≤ location then
    some (invalidInput "mock tier offset must identify an aligned slot within capacity")
  else none

/-- `MockTier::read`. -/
def read {length : Nat} (location : Nat) (buffer : Fin length → UInt8) : TierReply MockTier :=
  if length ≠ PAGE_SIZE then .returned m (.read length buffer (.error invalidBuffer))
  else match m.refusedLocation location with
    | some error => .returned m (.read length buffer (.error error))
    | none =>
      let attempts := min (m.readAttempts + 1) (2 ^ 64 - 1)
      if m.failReadAt = some attempts then
        .returned { m with readAttempts := attempts, failReadAt := none } (.read length buffer
          (.error (.io (IoError.new .other "injected mock tier read failure"))))
      else match m.pages[location]? with
        | none => .returned { m with readAttempts := attempts } (.read length buffer
            (.error (.io (IoError.new .notFound "mock tier page not found"))))
        | some page => .returned { m with readAttempts := attempts }
            (.read length (copyFromSlice page buffer) (.ok ()))

/-- What a write makes of the free offsets, the mark and its offset. -/
def take : Except TierBufError (MockTier × Nat) :=
  match m.freeSlots with
  | reused :: rest => .ok ({ m with freeSlots := rest }, reused)
  | [] =>
    if m.nextSlot < m.slotCount then
      if 2 ^ 64 ≤ m.nextSlot * PAGE_SIZE then
        .error (.io (IoError.new .other "mock tier offset overflow"))
      else .ok ({ m with nextSlot := m.nextSlot + 1 }, m.nextSlot * PAGE_SIZE)
    else .error (.io (IoError.new .storageFull "mock tier capacity exhausted"))

/-- `MockTier::write`. -/
def write {length : Nat} (buffer : Fin length → UInt8) : TierReply MockTier :=
  if length ≠ PAGE_SIZE then .returned m (.write (.error invalidBuffer))
  else match m.take with
    | .error error => .returned m (.write (.error error))
    | .ok (after, location) =>
      if after.pages.contains location then .panicked
      else .returned { after with pages := after.pages.insert location (asPage buffer) }
        (.write (.ok location))

/-- `MockTier::free`. -/
def free (location : Nat) : TierReply MockTier :=
  match m.refusedLocation location with
  | some _ => .returned m .freed
  | none =>
    if m.pages.contains location then
      .returned { m with pages := m.pages.erase location, freeSlots := location :: m.freeSlots }
        .freed
    else .returned m .freed

/-- `MockTier::used_bytes`. -/
def usedBytes : TierReply MockTier :=
  .returned m (.usedBytes (m.pages.size * PAGE_SIZE))

def call : TierCall → TierReply MockTier
  | .read _ location buffer => m.read location buffer
  | .write _ buffer => m.write buffer
  | .free location => m.free location
  | .usedBytes => m.usedBytes

end MockTier

/-- `io::Error::kind`, of the errors that have one. -/
def TierBufError.kind : TierBufError → Option ErrorKind
  | .io source => some source.kind
  | _ => none

/-- A result with its error reduced to the kind. -/
def TierResult.kinds : TierResult TierBufError → TierResult (Option ErrorKind)
  | .read length buffer result => .read length buffer (result.mapError TierBufError.kind)
  | .write result => .write (result.mapError TierBufError.kind)
  | .freed => .freed
  | .usedBytes bytes => .usedBytes bytes

/-! ### One call -/

/-- Where the call moves a page, the transfer succeeds. -/
def FileTier.Succeeds (t : FileTier) (answers : List IoAnswer) : TierCall → Prop
  | .read _ location buffer => t.contents location ≠ none →
      (readPage t.directIoActive t.file location buffer answers).outcome = some (.ok ())
  | .write _ buffer => ∀ slot, t.state.candidate = some slot →
      (writePage t.directIoActive t.file (slot * PAGE_SIZE) buffer answers).outcome =
        some (.ok ())
  | .free _ | .usedBytes => True

/-- The mock tier holds the pages of the file tier, and picks the offsets of the
    same slots. -/
structure Alike (m : MockTier) (t : FileTier) : Prop where
  sound : t.Sound
  capacity : m.capacityBytes = t.capacityBytes
  slotCount : m.slotCount = t.state.allocated.length
  pages : ∀ location, m.pages[location]? = t.contents location
  freeSlots : m.freeSlots = t.state.freeSlots.map (fun slot => slot * PAGE_SIZE)
  nextSlot : m.nextSlot = t.state.nextSlot
  size : m.pages.size = t.state.usedSlots
  injected : m.failReadAt = none

namespace Alike

variable {m : MockTier} {t : FileTier} {answers : List IoAnswer}

/-- Both refuse the same locations. -/
theorem refused (h : Alike m t) (location : Nat) :
    (∃ error error', m.refusedLocation location = some error ∧
      t.slotForLocation location = .error error' ∧ error.kind = error'.kind) ∨
    ∃ slot, m.refusedLocation location = none ∧ t.slotForLocation location = .ok slot := by
  unfold MockTier.refusedLocation FileTier.slotForLocation
  rw [h.capacity]
  split
  · exact .inl ⟨_, _, rfl, rfl, rfl⟩
  · exact .inr ⟨_, rfl, rfl⟩

theorem contains_eq (h : Alike m t) (location : Nat) :
    m.pages.contains location = (t.contents location).isSome := by
  rw [Std.HashMap.contains_eq_isSome_getElem?, h.pages]

/-- The two are alike whatever the counter of read attempts says. -/
theorem readAttempts (h : Alike m t) (attempts : Nat) :
    Alike { m with readAttempts := attempts } t :=
  ⟨h.sound, h.capacity, h.slotCount, h.pages, h.freeSlots, h.nextSlot, h.size, h.injected⟩

theorem read (h : Alike m t) (length location : Nat) (buffer : Fin length → UInt8)
    (hok : t.Succeeds answers (.read length location buffer)) :
    ∃ m' r r', m.read location buffer = .returned m' r ∧
      t.read location buffer answers = .returned t r' ∧ r.kinds = r'.kinds ∧ Alike m' t := by
  have hinjected : ∀ attempts, m.failReadAt ≠ some attempts := by
    intro attempts
    rw [h.injected]
    rintro ⟨⟩
  by_cases hlen : length = PAGE_SIZE
  · rcases h.refused location with ⟨error, error', hm, ht, hkind⟩ | ⟨slot, hm, ht⟩
    · refine ⟨m, .read length buffer (.error error), .read length buffer (.error error'), ?_, ?_, ?_,
        h⟩
      · simp only [MockTier.read, hlen, ne_eq, not_true_eq_false, if_false, hm]
      · simp only [FileTier.read, hlen, ne_eq, not_true_eq_false, if_false, ht]
      · simp only [TierResult.kinds, Except.mapError, hkind]
    · rcases FileTier.slotForLocation_ok h.sound ht with ⟨rfl, hlt⟩
      have hget := List.getElem?_eq_getElem hlt
      have hpages := h.pages (slot * PAGE_SIZE)
      rw [FileTier.contents_slot] at hpages
      cases hslot : t.state.allocated[slot] with
      | false =>
          rw [hslot] at hget
          rw [hget, if_neg (by rintro ⟨⟩)] at hpages
          refine ⟨{ m with readAttempts := min (m.readAttempts + 1) (2 ^ 64 - 1) },
            .read length buffer (.error (.io (IoError.new .notFound "mock tier page not found"))),
            .read length buffer
              (.error (.io (IoError.new .notFound "file tier page is not allocated"))), ?_, ?_, rfl,
            h.readAttempts _⟩
          · simp only [MockTier.read, hlen, ne_eq, not_true_eq_false, if_false, hm, hinjected,
              hpages]
          · simp only [FileTier.read, hlen, ne_eq, not_true_eq_false, if_false, ht, hget]
      | true =>
          rw [hslot] at hget
          rw [hget, if_pos rfl] at hpages
          have hdone : (readPage t.directIoActive t.file (slot * PAGE_SIZE) buffer answers).outcome =
              some (.ok ()) := by
            refine hok ?_
            rw [← h.pages, hpages]
            rintro ⟨⟩
          have hcopied : copyFromSlice (fun i : Fin PAGE_SIZE => t.file (slot * PAGE_SIZE + i)) buffer =
              fun i : Fin length => t.file (slot * PAGE_SIZE + i) := by
            funext i
            exact dif_pos (hlen ▸ i.2)
          refine ⟨{ m with readAttempts := min (m.readAttempts + 1) (2 ^ 64 - 1) },
            .read length (fun i : Fin length => t.file (slot * PAGE_SIZE + i)) (.ok ()),
            .read length (fun i : Fin length => t.file (slot * PAGE_SIZE + i)) (.ok ()), ?_, ?_, rfl,
            h.readAttempts _⟩
          · simp only [MockTier.read, hlen, ne_eq, not_true_eq_false, if_false, hm, hinjected,
              hpages, hcopied]
          · simp only [FileTier.read, hlen, ne_eq, not_true_eq_false, if_false, ht, hget, hdone,
              TierReply.ofTransfer, readPage_ok hdone]
  · refine ⟨m, .read length buffer (.error invalidBuffer), .read length buffer (.error invalidBuffer),
      ?_, ?_, rfl, h⟩
    · simp only [MockTier.read, ne_eq, hlen, not_false_eq_true, if_true]
    · simp only [FileTier.read, ne_eq, hlen, not_false_eq_true, if_true]

/-- A write takes the offset of the candidate. -/
theorem take (h : Alike m t) :
    (∃ error, m.take = .error error ∧ error.kind = some .storageFull ∧ t.state.candidate = none) ∨
    ∃ slot m', t.state.candidate = some slot ∧ m.take = .ok (m', slot * PAGE_SIZE) ∧
      m'.pages = m.pages ∧ m'.capacityBytes = m.capacityBytes ∧ m'.slotCount = m.slotCount ∧
      m'.failReadAt = m.failReadAt ∧ m'.nextSlot = (t.state.commit slot).nextSlot ∧
      m'.freeSlots = (t.state.commit slot).freeSlots.map (fun slot => slot * PAGE_SIZE) := by
  have hfree := h.freeSlots
  unfold MockTier.take SlotState.candidate SlotState.commit
  cases hslots : t.state.freeSlots with
  | cons slot rest =>
      rw [hslots] at hfree
      rw [hfree]
      refine .inr ⟨slot, { m with freeSlots := rest.map (fun slot => slot * PAGE_SIZE) }, rfl, rfl,
        rfl, rfl, rfl, rfl, ?_, rfl⟩
      rw [if_neg (by rintro ⟨⟩)]
      exact h.nextSlot
  | nil =>
      rw [hslots] at hfree
      rw [hfree, h.nextSlot, h.slotCount]
      dsimp only [List.map_nil]
      by_cases hlt : t.state.nextSlot < t.state.allocated.length
      · have hfit : ¬ 2 ^ 64 ≤ t.state.nextSlot * PAGE_SIZE := by
          have hle := Nat.mul_le_mul_right PAGE_SIZE (Nat.le_of_lt hlt)
          rw [← h.sound.capacity] at hle
          exact Nat.not_le_of_lt (Nat.lt_of_le_of_lt hle h.sound.bounded)
        rw [if_pos hlt, if_neg hfit, if_pos hlt]
        refine .inr ⟨t.state.nextSlot, _, rfl, rfl, rfl, rfl, rfl, rfl, ?_, rfl⟩
        rw [if_pos rfl]
      · rw [if_neg hlt, if_neg hlt]
        exact .inl ⟨_, rfl, rfl, rfl⟩

theorem write (h : Alike m t) (length : Nat) (buffer : Fin length → UInt8)
    (hok : t.Succeeds answers (.write length buffer)) :
    ∃ m' t' r r', m.write buffer = .returned m' r ∧ t.write buffer answers = .returned t' r' ∧
      r.kinds = r'.kinds ∧ Alike m' t' := by
  by_cases hlen : length = PAGE_SIZE
  · rcases h.take with ⟨error, htake, hkind, hcand⟩ | ⟨slot, m', hcand, htake, hpages, hcapacity,
      hcount, hinjected, hnext, hfree⟩
    · refine ⟨m, t, .write (.error error),
        .write (.error (.io (IoError.new .storageFull "file tier capacity exhausted"))), ?_, ?_, ?_, h⟩
      · simp only [MockTier.write, hlen, ne_eq, not_true_eq_false, if_false, htake]
      · simp only [FileTier.write, hlen, ne_eq, not_true_eq_false, if_false, hcand]
      · simp only [TierResult.kinds, Except.mapError, hkind]
        rfl
    · have hget := (h.sound.slots.candidate_free hcand).1
      have hdone := hok slot hcand
      have hcontents := FileTier.write_ok_contents h.sound hlen buffer hcand hdone
      have hempty : m.pages.contains (slot * PAGE_SIZE) = false := by
        rw [h.contains_eq, FileTier.contents_slot, hget, if_neg (by rintro ⟨⟩)]
        rfl
      rcases FileTier.write_cases h.sound buffer answers with ⟨error, -, hwhy⟩ |
        ⟨-, slot', hcand', hwrite⟩
      · -- A candidate is there, so the write is not refused.
        have hfull := hwhy.resolve_left (fun hne => hne hlen)
        cases hget.symm.trans (hfull slot (SlotState.Sound.lt_of_free hget))
      · cases hcand.symm.trans hcand'
        dsimp only at hwrite
        rw [hdone, TierReply.ofTransfer] at hwrite
        have hsound := (FileTier.call_sound (c := .write length buffer) h.sound hwrite).1
        refine ⟨{ m' with pages := m'.pages.insert (slot * PAGE_SIZE) (asPage buffer) }, _,
          .write (.ok (slot * PAGE_SIZE)), .write (.ok (slot * PAGE_SIZE)), ?_, hwrite, rfl, hsound,
          hcapacity.trans h.capacity, ?_, fun location => ?_, hfree, hnext, ?_,
          hinjected.trans h.injected⟩
        · simp only [MockTier.write, hlen, ne_eq, not_true_eq_false, if_false, htake, hpages, hempty,
            Bool.false_eq_true]
        · rw [hcount, h.slotCount]
          exact List.length_set.symm
        · rw [hcontents]
          dsimp only
          rw [Std.HashMap.getElem?_insert, hpages, h.pages]
          by_cases hloc : location = slot * PAGE_SIZE
          · rw [hloc, update_self, if_pos (beq_self_eq_true _)]
          · rw [update_of_ne hloc, if_neg (by simpa using Ne.symm hloc)]
        · dsimp only
          rw [Std.HashMap.size_insert, hpages, h.size,
            if_neg (by rw [Std.HashMap.mem_iff_contains, hempty]; exact Bool.false_ne_true)]
          rfl
  · refine ⟨m, t, .write (.error invalidBuffer), .write (.error invalidBuffer), ?_, ?_, rfl, h⟩
    · simp only [MockTier.write, ne_eq, hlen, not_false_eq_true, if_true]
    · simp only [FileTier.write, ne_eq, hlen, not_false_eq_true, if_true]

theorem free (h : Alike m t) (location : Nat) :
    ∃ m' t', m.free location = .returned m' .freed ∧ t.free location = .returned t' .freed ∧
      Alike m' t' := by
  rcases h.refused location with ⟨error, error', hm, ht, -⟩ | ⟨slot, hm, ht⟩
  · refine ⟨m, t, ?_, ?_, h⟩
    · simp only [MockTier.free, hm]
    · simp only [FileTier.free, ht]
  · rcases FileTier.slotForLocation_ok h.sound ht with ⟨rfl, hlt⟩
    have hcontains := h.contains_eq (slot * PAGE_SIZE)
    rcases FileTier.free_cases h.sound (slot * PAGE_SIZE) with ⟨hnone, hfree⟩ |
      ⟨slot', heq, hget, hfree⟩
    · rw [hnone] at hcontains
      refine ⟨m, t, ?_, hfree, h⟩
      simp only [MockTier.free, hm, hcontains, Option.isSome_none, Bool.false_eq_true, if_false]
    · cases Nat.eq_of_mul_eq_mul_right FileTier.page_pos heq
      rw [FileTier.contents_slot, if_pos hget] at hcontains
      have hcall : t.call [] (.free (slot * PAGE_SIZE)) = t.free (slot * PAGE_SIZE) := rfl
      have hsound := (FileTier.call_sound h.sound (hcall.trans hfree)).1
      refine ⟨{ m with
          pages := m.pages.erase (slot * PAGE_SIZE)
          freeSlots := slot * PAGE_SIZE :: m.freeSlots }, _, ?_, hfree, hsound, h.capacity, ?_,
        fun location => ?_, ?_, h.nextSlot, ?_, h.injected⟩
      · simp only [MockTier.free, hm, hcontains, Option.isSome_some, if_true]
      · rw [h.slotCount]
        exact List.length_set.symm
      · rw [FileTier.release_contents hget]
        dsimp only
        rw [Std.HashMap.getElem?_erase, h.pages]
        by_cases hloc : location = slot * PAGE_SIZE
        · rw [hloc, update_self, if_pos (beq_self_eq_true _)]
        · rw [update_of_ne hloc, if_neg (by simpa using Ne.symm hloc)]
      · dsimp only
        rw [h.freeSlots]
        rfl
      · dsimp only
        rw [Std.HashMap.size_erase, h.size, if_pos (by rw [Std.HashMap.mem_iff_contains, hcontains]; rfl)]
        rfl

/-- A call gives results of one kind, and leaves the two alike. -/
theorem call (h : Alike m t) (c : TierCall) (hok : t.Succeeds answers c) :
    ∃ m' t' r r', m.call c = .returned m' r ∧ t.call answers c = .returned t' r' ∧
      r.kinds = r'.kinds ∧ Alike m' t' := by
  cases c with
  | read length location buffer =>
      rcases h.read length location buffer hok with ⟨m', r, r', hm, ht, hkinds, hafter⟩
      exact ⟨m', t, r, r', hm, ht, hkinds, hafter⟩
  | write length buffer => exact h.write length buffer hok
  | free location =>
      rcases h.free location with ⟨m', t', hm, ht, hafter⟩
      exact ⟨m', t', .freed, .freed, hm, ht, rfl, hafter⟩
  | usedBytes =>
      refine ⟨m, t, .usedBytes (m.pages.size * PAGE_SIZE),
        .usedBytes (t.state.usedSlots * PAGE_SIZE), rfl, rfl, ?_, h⟩
      rw [h.size]

end Alike

/-! ### Runs -/

/-- The results of a run, unless a call does not return. -/
def MockTier.results : MockTier → List TierCall → Option (List (TierResult TierBufError))
  | _, [] => some []
  | m, c :: calls => match m.call c with
    | .returned m' result => (m'.results calls).map (fun results => result :: results)
    | _ => none

/-- The same of a file tier, with a schedule for every transfer. -/
def FileTier.results : FileTier → List (TierCall × List IoAnswer) →
    Option (List (TierResult TierBufError))
  | _, [] => some []
  | t, (c, answers) :: calls => match t.call answers c with
    | .returned t' result => (t'.results calls).map (fun results => result :: results)
    | _ => none

/-- Every transfer of the run succeeds. -/
def FileTier.AllSucceed : FileTier → List (TierCall × List IoAnswer) → Prop
  | _, [] => True
  | t, (c, answers) :: calls => t.Succeeds answers c ∧
    ∀ t' result, t.call answers c = .returned t' result → t'.AllSucceed calls

theorem alike_results {m : MockTier} {t : FileTier} (h : Alike m t)
    (calls : List (TierCall × List IoAnswer)) (hok : t.AllSucceed calls) :
    ∃ results results', m.results (calls.map Prod.fst) = some results ∧
      t.results calls = some results' ∧
      results.map TierResult.kinds = results'.map TierResult.kinds := by
  induction calls generalizing m t with
  | nil => exact ⟨[], [], rfl, rfl, rfl⟩
  | cons l calls ih =>
      rcases h.call l.1 hok.1 with ⟨m', t', r, r', hm, ht, hkinds, hafter⟩
      rcases ih hafter (hok.2 t' r' ht) with ⟨results, results', hmocks, hfiles, hsame⟩
      refine ⟨r :: results, r' :: results', ?_, ?_, ?_⟩
      · rw [List.map_cons, MockTier.results, hm]
        dsimp only
        rw [hmocks]
        rfl
      · rw [FileTier.results, ht]
        dsimp only
        rw [hfiles]
        rfl
      · rw [List.map_cons, List.map_cons, hkinds, hsame]

theorem alike_new {capacityBytes : Nat} {directIoActive : Bool} {file : Nat → UInt8}
    {m : MockTier} {t : FileTier} (hu64 : capacityBytes < 2 ^ 64)
    (hm : MockTier.new capacityBytes = .ok m)
    (ht : FileTier.opened capacityBytes directIoActive file = .ok t) : Alike m t := by
  rcases FileTier.sound_opened hu64 ht with ⟨hsound, hnone⟩
  unfold MockTier.new at hm
  unfold FileTier.opened at ht
  split at hm
  · cases hm
  · rename_i hvalid
    rw [if_neg hvalid] at ht
    cases hm
    cases ht
    refine ⟨hsound, rfl, List.length_replicate.symm, fun location => ?_, rfl, rfl, rfl, rfl⟩
    rw [hnone]
    exact Std.HashMap.getElem?_empty

/-- A mock tier without injected failures and a file tier whose transfers succeed
    cannot be told apart: every call of every run gives the same result. -/
theorem mock_file_interchangeable {capacityBytes : Nat} (hu64 : capacityBytes < 2 ^ 64)
    (hpos : capacityBytes ≠ 0) (haligned : capacityBytes % PAGE_SIZE = 0) (directIoActive : Bool)
    (file : Nat → UInt8) : ∃ m t, MockTier.new capacityBytes = .ok m ∧
      FileTier.opened capacityBytes directIoActive file = .ok t ∧
      ∀ calls : List (TierCall × List IoAnswer), t.AllSucceed calls →
        ∃ results results', m.results (calls.map Prod.fst) = some results ∧
          t.results calls = some results' ∧
          results.map TierResult.kinds = results'.map TierResult.kinds := by
  have hvalid : ¬ (capacityBytes = 0 ∨ capacityBytes % PAGE_SIZE ≠ 0) :=
    fun hc => hc.elim hpos (fun hne => hne haligned)
  have hm : ∃ m, MockTier.new capacityBytes = .ok m := ⟨_, if_neg hvalid⟩
  have ht : ∃ t, FileTier.opened capacityBytes directIoActive file = .ok t := ⟨_, if_neg hvalid⟩
  rcases hm with ⟨m, hm⟩
  rcases ht with ⟨t, ht⟩
  exact ⟨m, t, hm, ht, alike_results (alike_new hu64 hm ht)⟩

/-- A page is written into tiers of one slot, and counted. -/
theorem mock_file_interchangeable_one : ∃ m t, MockTier.new PAGE_SIZE = .ok m ∧
    FileTier.opened PAGE_SIZE false (fun _ => 0) = .ok t ∧ ∃ results results',
      m.results [.write PAGE_SIZE (fun _ => 7), .usedBytes] = some results ∧
      t.results [(.write PAGE_SIZE (fun _ => 7), [.count PAGE_SIZE]), (.usedBytes, [])] =
        some results' ∧
      results.map TierResult.kinds = results'.map TierResult.kinds := by
  rcases mock_file_interchangeable (by decide : PAGE_SIZE < 2 ^ 64) (by decide) (by decide) false
    (fun _ => 0) with ⟨m, t, hm, ht, hall⟩
  have hslot : t = oneSlot := (Except.ok.inj ht).symm
  have hok : t.AllSucceed [(.write PAGE_SIZE (fun _ => 7), [.count PAGE_SIZE]), (.usedBytes, [])] := by
    refine ⟨fun slot hc => ?_, fun _ _ _ => ⟨trivial, fun _ _ _ => trivial⟩⟩
    rw [hslot] at hc ⊢
    cases hc
    rfl
  exact ⟨m, t, hm, ht, hall _ hok⟩

end TierBuf
