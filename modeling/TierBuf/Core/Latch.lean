import TierBuf.Core.Frame
import TierBuf.Core.Word
import TierBuf.Transition

/-!
# The Latch Word

`HybridLatch` as it is in memory, one word under any number of threads.

The low 16 bits of the word are a lock state and the upper 48 a version. A
shared acquisition adds one to the whole word and a shared release subtracts
one, so a carry or a borrow would run into the version or into the exclusive
sentinel. An exclusive release loads the word and stores another one, so a
change in between would be lost. Neither happens. A compare-and-swap only
succeeds on the word that was looked at, a holder keeps the count above zero,
and the sentinel keeps everybody else away.

Taken apart, the word is the latch of the frames, and what the threads do to it
are the operations on that latch.

## Main definitions

* `LatchWord.state`, `LatchWord.version`, `LatchWord.withState`,
  `LatchWord.pack`: The fields of the word.
* `LatchWord.latch`: The word, taken apart.
* `LatchPc`, `latchThreads`: Any number of guards, one atomic operation a step.
* `LatchHistory`: Exclusive sections and snapshots so far.

## Theorems

* `LatchWord.latch_share` and its companions: The word operations.
* `LatchMove`, `guard_move`: Every step is one of five moves.
* `hybrid_latch_correct`: The word tells who holds the latch.
-/

namespace TierBuf

open Function Ledger Transition

namespace LatchWord

def STATE_MASK : Word := 0xFFFF

def VERSION_MASK : Word := 0xFFFFFFFFFFFF

def EXCLUSIVE_STATE : Nat := 0xFFFF

def MAX_SHARED : Nat := EXCLUSIVE_STATE - 1

/-- `state`. -/
def state (word : Word) : Nat := (word &&& STATE_MASK).toNat

/-- `version`. -/
def version (word : Word) : Nat := (word >>> 16).toNat

/-- `with_state`. -/
def withState (word : Word) (newState : Nat) : Word :=
  (word &&& ~~~ STATE_MASK) ||| BitVec.ofNat 64 newState

/-- `pack`. -/
def pack (version state : Nat) : Word :=
  ((BitVec.ofNat 64 version &&& VERSION_MASK) <<< 16) ||| BitVec.ofNat 64 state

/-- The latch of a word. -/
def latch (word : Word) : HybridLatch where
  version := version word
  state := if state word = EXCLUSIVE_STATE then .exclusive else .shared (state word)

/-! ### Fields -/

theorem state_eq (word : Word) : state word = word.toNat % 2 ^ 16 := by
  unfold state STATE_MASK
  rw [BitVec.toNat_and]
  exact Nat.and_two_pow_sub_one_eq_mod word.toNat 16

theorem version_eq (word : Word) : version word = word.toNat / 2 ^ 16 := by
  unfold version
  rw [BitVec.toNat_ushiftRight, Nat.shiftRight_eq_div_pow]

/-- Clearing the low bits shifts them out and in again. -/
theorem clear_state (word : Word) : word &&& ~~~ STATE_MASK = (word >>> 16) <<< 16 := by
  have hmask : STATE_MASK = (BitVec.allOnes 16).setWidth 64 := by decide
  refine BitVec.eq_of_getLsbD_eq (fun i hi => ?_)
  rw [BitVec.getLsbD_and, BitVec.getLsbD_not, hmask, BitVec.getLsbD_setWidth,
    BitVec.getLsbD_allOnes, BitVec.getLsbD_shiftLeft, BitVec.getLsbD_ushiftRight]
  by_cases h : i < 16
  · simp [h]
  · simp [h, hi, Nat.add_sub_cancel' (Nat.le_of_not_lt h)]

theorem toNat_or_state {x : Word} {high s : Nat} (hx : x.toNat = 2 ^ 16 * high) (hs : s < 2 ^ 16) :
    (x ||| BitVec.ofNat 64 s).toNat = 2 ^ 16 * high + s := by
  rw [BitVec.toNat_or, hx, BitVec.toNat_ofNat, Nat.mod_eq_of_lt (Nat.lt_trans hs (by decide)),
    Nat.two_pow_add_eq_or_of_lt hs]

theorem toNat_withState (word : Word) {s : Nat} (hs : s < 2 ^ 16) :
    (withState word s).toNat = 2 ^ 16 * (word.toNat / 2 ^ 16) + s := by
  unfold withState
  refine toNat_or_state ?_ hs
  rw [clear_state, BitVec.toNat_shiftLeft, BitVec.toNat_ushiftRight, Nat.shiftRight_eq_div_pow,
    Nat.shiftLeft_eq, Nat.mul_comm]
  exact Nat.mod_eq_of_lt (Nat.lt_of_le_of_lt (Nat.mul_div_le _ _) word.isLt)

theorem toNat_pack (v : Nat) {s : Nat} (hs : s < 2 ^ 16) :
    (pack v s).toNat = 2 ^ 16 * (v % 2 ^ 48) + s := by
  unfold pack
  refine toNat_or_state ?_ hs
  have hmask : VERSION_MASK.toNat = 2 ^ 48 - 1 := by decide
  rw [BitVec.toNat_shiftLeft, BitVec.toNat_and, hmask, Nat.and_two_pow_sub_one_eq_mod,
    BitVec.toNat_ofNat, Nat.shiftLeft_eq, Nat.mul_comm]
  omega

theorem state_lt (word : Word) : state word < 2 ^ 16 := by
  rw [state_eq]
  exact Nat.mod_lt _ (by decide)

theorem version_lt (word : Word) : version word < 2 ^ 48 := by
  have hlt := word.isLt
  rw [version_eq]
  omega

/-! ### Operations on the word -/

variable {word : Word}

/-- Adding one does not carry out of the state. -/
theorem latch_share (h : state word < MAX_SHARED) :
    (latch word).state = .shared (state word) ∧
      latch (word + 1) = { latch word with state := .shared (state word + 1) } := by
  have hmax : MAX_SHARED = 65534 := rfl
  have hexcl : EXCLUSIVE_STATE = 65535 := rfl
  have hlt := word.isLt
  have hword := state_eq word
  have hsum : (word + 1).toNat = word.toNat + 1 := by
    rw [BitVec.toNat_add]
    exact Nat.mod_eq_of_lt (by change word.toNat + 1 < 2 ^ 64; omega)
  have hstate : state (word + 1) = state word + 1 := by
    rw [state_eq, hsum]
    omega
  have hversion : version (word + 1) = version word := by
    rw [version_eq, version_eq, hsum]
    omega
  unfold latch
  rw [hstate, hversion, if_neg (by omega), if_neg (by omega)]
  exact ⟨rfl, rfl⟩

/-- Subtracting one does not borrow from the version. -/
theorem latch_unshare (h : 1 ≤ state word) (hle : state word ≤ MAX_SHARED) :
    (latch word).state = .shared (state word - 1 + 1) ∧
      latch (word - 1) = { latch word with state := .shared (state word - 1) } := by
  have hmax : MAX_SHARED = 65534 := rfl
  have hexcl : EXCLUSIVE_STATE = 65535 := rfl
  have hlt := word.isLt
  have hword := state_eq word
  have hdiff : (word - 1).toNat = word.toNat - 1 := by
    rw [BitVec.toNat_sub]
    change (2 ^ 64 - 1 + word.toNat) % 2 ^ 64 = word.toNat - 1
    omega
  have hstate : state (word - 1) = state word - 1 := by
    rw [state_eq, hdiff]
    omega
  have hversion : version (word - 1) = version word := by
    rw [version_eq, version_eq, hdiff]
    omega
  unfold latch
  rw [hstate, hversion, if_neg (by omega), if_neg (by omega), Nat.sub_add_cancel h]
  exact ⟨rfl, rfl⟩

/-- The sentinel replaces the state and keeps the version. -/
theorem latch_lock (word : Word) :
    latch (withState word EXCLUSIVE_STATE) = { latch word with state := .exclusive } := by
  have hfit : EXCLUSIVE_STATE < 2 ^ 16 := by decide
  have hnat := toNat_withState word hfit
  have hstate : state (withState word EXCLUSIVE_STATE) = EXCLUSIVE_STATE := by
    rw [state_eq, hnat]
    omega
  have hversion : version (withState word EXCLUSIVE_STATE) = version word := by
    rw [version_eq, version_eq, hnat]
    omega
  unfold latch
  rw [hstate, hversion, if_pos rfl]

/-- The packed word is an open latch. -/
theorem latch_pack (v : Nat) : latch (pack v 0) = { version := v % 2 ^ 48, state := .shared 0 } := by
  have hnat := toNat_pack v (s := 0) (by decide)
  have hstate : state (pack v 0) = 0 := by
    rw [state_eq, hnat]
    omega
  have hversion : version (pack v 0) = v % 2 ^ 48 := by
    rw [version_eq, hnat]
    omega
  unfold latch
  rw [hstate, hversion, if_neg (by decide)]

theorem latch_exclusive : (latch word).state = .exclusive ↔ state word = EXCLUSIVE_STATE := by
  unfold latch
  dsimp only
  split
  · rename_i h
    exact ⟨fun _ => h, fun _ => rfl⟩
  · rename_i h
    refine ⟨fun hc => ?_, fun hc => absurd hc h⟩
    cases hc

theorem latch_shared {n : Nat} (h : (latch word).state = .shared n) :
    state word = n ∧ n ≤ MAX_SHARED := by
  have hlt := state_lt word
  unfold latch at h
  dsimp only at h
  split at h
  · cases h
  · rename_i hne
    cases h
    have hmax : MAX_SHARED = 65534 := rfl
    have hexcl : EXCLUSIVE_STATE = 65535 := rfl
    exact ⟨rfl, by omega⟩

end LatchWord

/-! ### Threads -/

/-- A guard from its acquisition to its drop, one atomic operation at a time. A
    thread that holds several guards is several of these. -/
inductive LatchPc where
  | idle
  | sharing (current : Word)
  | shared
  | upgrading (current : Word)
  | locking (current : Word)
  | exclusive
  | releasing (current : Word)
  | panicked
  deriving DecidableEq

/-- The next operation: the load of an attempt, its compare-and-swap, which may
    fail for no reason where it is a weak one, the operations of a drop, and the
    two loads of optimistic access. -/
inductive LatchOp where
  | tryLockShared
  | lockExclusive
  | tryUpgrade
  | compareExchange (fails : Bool)
  | drop
  | store
  | optimistic
  | validate (snapshot : Nat)
  deriving DecidableEq

namespace LatchPc

/-- The kind of the guard that is alive. -/
def holds : LatchPc → Option Bool
  | .shared | .upgrading _ => some false
  | .exclusive | .releasing _ => some true
  | _ => none

open LatchWord in
/-- One operation of a guard, on the word. -/
def step (word : Word) (pc : LatchPc) (op : LatchOp) : Option (Word × LatchPc) :=
  match op, pc with
  | .tryLockShared, .idle =>
    if MAX_SHARED ≤ state word then some (word, .idle) else some (word, .sharing word)
  | .lockExclusive, .idle =>
    if state word = 0 then some (word, .locking word) else some (word, .idle)
  | .tryUpgrade, .shared =>
    if state word ≠ 1 then some (word, .shared) else some (word, .upgrading word)
  | .compareExchange fails, .sharing current =>
    if word = current ∧ fails = false then some (current + 1, .shared) else some (word, .idle)
  | .compareExchange fails, .locking current =>
    if word = current ∧ fails = false then
      some (withState current EXCLUSIVE_STATE, .exclusive) else some (word, .idle)
  | .compareExchange _, .upgrading current =>
    if word = current then some (withState current EXCLUSIVE_STATE, .exclusive)
    else some (word, .shared)
  | .drop, .shared =>
    if 1 ≤ state word ∧ state word ≤ MAX_SHARED then some (word - 1, .idle)
    else some (word - 1, .panicked)
  | .drop, .exclusive =>
    if state word = EXCLUSIVE_STATE then some (word, .releasing word) else some (word, .panicked)
  | .store, .releasing current =>
    some (pack ((version current + 1) % 2 ^ 64) 0, .idle)
  | .optimistic, .idle | .validate _, .idle => some (word, .idle)
  | _, _ => none

end LatchPc

/-- The word and the guards. -/
structure LatchState where
  word : Word
  pcs : Nat → LatchPc

/-- Any number of guards on a new latch. -/
def latchThreads : System LatchState (Nat × LatchOp) where
  init := fun s => s.word = 0 ∧ ∀ a, s.pcs a = .idle
  next := fun s l => ((s.pcs l.1).step s.word l.2).map
    (fun x => { word := x.1, pcs := update s.pcs l.1 x.2 })

/-- `HybridLatch::optimistic`. -/
def LatchWord.optimistic (word : Word) : Option Nat :=
  if state word = EXCLUSIVE_STATE then none else some (version word)

/-- `HybridLatch::validate`. -/
def LatchWord.validate (word : Word) (snapshot : Nat) : Bool :=
  if VERSION_MASK.toNat < snapshot then false
  else state word ≠ EXCLUSIVE_STATE ∧ version word = snapshot

/-- A snapshot, with the numbers of sections that had begun and completed. -/
structure LatchSnapshot where
  version : Nat
  began : Nat
  completed : Nat

/-- The exclusive sections so far, and the snapshots. -/
structure LatchHistory where
  began : Nat
  completed : Nat
  snapshots : List LatchSnapshot

/-- A section begins with the exchange that installs the sentinel, and completes
    with the store. -/
def recordLatch (h : LatchHistory) (s : LatchState) (l : Nat × LatchOp) (s' : LatchState) :
    LatchHistory where
  began := if s.pcs l.1 ≠ .exclusive ∧ s'.pcs l.1 = .exclusive then h.began + 1 else h.began
  completed := if l.2 = .store then h.completed + 1 else h.completed
  snapshots := if l.2 = .optimistic then
      (LatchWord.optimistic s.word).toList.map (fun version =>
        { version := version, began := h.began, completed := h.completed }) ++ h.snapshots
    else h.snapshots

/-- What a guard has loaded is of the kind it was looking for, and the word of
    an exclusive guard is still there. -/
def LatchPc.Fresh (word : Word) : LatchPc → Prop
  | .sharing current => LatchWord.state current < LatchWord.MAX_SHARED
  | .upgrading current => LatchWord.state current = 1
  | .locking current => LatchWord.state current = 0
  | .releasing current => current = word
  | .panicked => False
  | _ => True

/-! ### One step -/

section Step

variable {word word' : Word} {pc pc' : LatchPc} {op : LatchOp}

/-- What a step does to the latch and to the guard. -/
inductive LatchMove (word : Word) (pc : LatchPc) (op : LatchOp) : Word → LatchPc → Prop where
  | quiet {pc' : LatchPc} : pc'.holds = pc.holds → op ≠ .store → pc' ≠ .exclusive →
      LatchMove word pc op word pc'
  | share {n : Nat} {word' : Word} : pc.holds = none → op ≠ .store → op ≠ .optimistic →
      (LatchWord.latch word).state = .shared n →
      LatchWord.latch word' = { LatchWord.latch word with state := .shared (n + 1) } →
      LatchMove word pc op word' .shared
  | unshare {n : Nat} {word' : Word} : pc.holds = some false → op ≠ .store → op ≠ .optimistic →
      (LatchWord.latch word).state = .shared (n + 1) →
      LatchWord.latch word' = { LatchWord.latch word with state := .shared n } →
      LatchMove word pc op word' .idle
  | lock {word' : Word} : pc.holds = none → op ≠ .store → op ≠ .optimistic →
      (LatchWord.latch word).state = .shared 0 →
      LatchWord.latch word' = { LatchWord.latch word with state := .exclusive } →
      LatchMove word pc op word' .exclusive
  | upgrade {word' : Word} : pc.holds = some false → op ≠ .store → op ≠ .optimistic →
      (LatchWord.latch word).state = .shared 1 →
      LatchWord.latch word' = { LatchWord.latch word with state := .exclusive } →
      LatchMove word pc op word' .exclusive
  | unlock {word' : Word} : pc.holds = some true → op = .store →
      LatchWord.latch word' =
        { version := ((LatchWord.latch word).version + 1) % 2 ^ 48, state := .shared 0 } →
      LatchMove word pc op word' .idle

/-- A step is one of the moves, and looks at the right word. -/
theorem guard_move (hs : pc.step word op = some (word', pc')) (hfresh : pc.Fresh word)
    (hshared : pc.holds = some false → ∃ n, (LatchWord.latch word).state = .shared (n + 1))
    (hexclusive : pc.holds = some true → (LatchWord.latch word).state = .exclusive) :
    LatchMove word pc op word' pc' ∧ pc'.Fresh word' := by
  have hroom : 1 < LatchWord.MAX_SHARED := by decide
  cases pc with
  | idle =>
      cases op with
      | tryLockShared =>
          dsimp only [LatchPc.step] at hs
          split at hs
          · cases hs
            exact ⟨.quiet rfl (by rintro ⟨⟩) (by rintro ⟨⟩), trivial⟩
          · rename_i hmax
            cases hs
            exact ⟨.quiet rfl (by rintro ⟨⟩) (by rintro ⟨⟩), Nat.lt_of_not_le hmax⟩
      | lockExclusive =>
          dsimp only [LatchPc.step] at hs
          split at hs
          · rename_i hzero
            cases hs
            exact ⟨.quiet rfl (by rintro ⟨⟩) (by rintro ⟨⟩), hzero⟩
          · cases hs
            exact ⟨.quiet rfl (by rintro ⟨⟩) (by rintro ⟨⟩), trivial⟩
      | optimistic =>
          cases hs
          exact ⟨.quiet rfl (by rintro ⟨⟩) (by rintro ⟨⟩), trivial⟩
      | validate snapshot =>
          cases hs
          exact ⟨.quiet rfl (by rintro ⟨⟩) (by rintro ⟨⟩), trivial⟩
      | _ => cases hs
  | sharing current =>
      cases op with
      | compareExchange fails =>
          dsimp only [LatchPc.step] at hs
          split at hs
          · rename_i hsame
            cases hs
            rw [hsame.1]
            rcases LatchWord.latch_share hfresh with ⟨hbefore, hafter⟩
            exact ⟨.share rfl (by rintro ⟨⟩) (by rintro ⟨⟩) hbefore hafter, trivial⟩
          · cases hs
            exact ⟨.quiet rfl (by rintro ⟨⟩) (by rintro ⟨⟩), trivial⟩
      | _ => cases hs
  | shared =>
      cases op with
      | tryUpgrade =>
          dsimp only [LatchPc.step] at hs
          split at hs
          · cases hs
            exact ⟨.quiet rfl (by rintro ⟨⟩) (by rintro ⟨⟩), trivial⟩
          · rename_i hone
            cases hs
            exact ⟨.quiet rfl (by rintro ⟨⟩) (by rintro ⟨⟩), not_not.mp hone⟩
      | drop =>
          -- A shared guard is counted, so its drop neither borrows nor asserts.
          rcases hshared rfl with ⟨n, hn⟩
          rcases LatchWord.latch_shared hn with ⟨hstate, hle⟩
          have hrange : 1 ≤ LatchWord.state word ∧ LatchWord.state word ≤ LatchWord.MAX_SHARED := by
            rw [hstate]
            exact ⟨Nat.succ_le_succ (Nat.zero_le n), hle⟩
          dsimp only [LatchPc.step] at hs
          rw [if_pos hrange] at hs
          cases hs
          rcases LatchWord.latch_unshare hrange.1 hrange.2 with ⟨hbefore, hafter⟩
          exact ⟨.unshare rfl (by rintro ⟨⟩) (by rintro ⟨⟩) hbefore hafter, trivial⟩
      | _ => cases hs
  | upgrading current =>
      cases op with
      | compareExchange fails =>
          dsimp only [LatchPc.step] at hs
          split at hs
          · rename_i hsame
            cases hs
            rw [hsame]
            have hone : LatchWord.state current = 1 := hfresh
            have hbefore := (LatchWord.latch_share (hone ▸ hroom)).1
            rw [hone] at hbefore
            exact ⟨.upgrade rfl (by rintro ⟨⟩) (by rintro ⟨⟩) hbefore (LatchWord.latch_lock current),
              trivial⟩
          · cases hs
            exact ⟨.quiet rfl (by rintro ⟨⟩) (by rintro ⟨⟩), trivial⟩
      | _ => cases hs
  | locking current =>
      cases op with
      | compareExchange fails =>
          dsimp only [LatchPc.step] at hs
          split at hs
          · rename_i hsame
            cases hs
            rw [hsame.1]
            have hzero : LatchWord.state current = 0 := hfresh
            have hbefore := (LatchWord.latch_share (hzero ▸ Nat.lt_of_succ_lt hroom)).1
            rw [hzero] at hbefore
            exact ⟨.lock rfl (by rintro ⟨⟩) (by rintro ⟨⟩) hbefore (LatchWord.latch_lock current),
              trivial⟩
          · cases hs
            exact ⟨.quiet rfl (by rintro ⟨⟩) (by rintro ⟨⟩), trivial⟩
      | _ => cases hs
  | exclusive =>
      cases op with
      | drop =>
          dsimp only [LatchPc.step] at hs
          rw [if_pos (LatchWord.latch_exclusive.mp (hexclusive rfl))] at hs
          cases hs
          exact ⟨.quiet rfl (by rintro ⟨⟩) (by rintro ⟨⟩), rfl⟩
      | _ => cases hs
  | releasing current =>
      cases op with
      | store =>
          cases hs
          refine ⟨.unlock rfl rfl ?_, trivial⟩
          have hsame : current = word := hfresh
          rw [LatchWord.latch_pack, hsame]
          change HybridLatch.mk ((LatchWord.version word + 1) % 2 ^ 64 % 2 ^ 48) _ =
            HybridLatch.mk ((LatchWord.version word + 1) % 2 ^ 48) _
          rw [Nat.mod_mod_of_dvd _ (by decide)]
      | _ => cases hs
  | panicked => exact hfresh.elim

end Step

/-! ### Runs -/

/-- The entry of a guard in the ledger of one kind. -/
def LatchPc.guard (exclusive : Bool) (pc : LatchPc) : Option Unit :=
  if pc.holds = some exclusive then some () else none

/-- The ledger of the guards of one kind. -/
def LatchState.guards (s : LatchState) (exclusive : Bool) (a : Nat) : Option Unit :=
  (s.pcs a).guard exclusive

/-- The word agrees with the guards that are alive and with the history. -/
structure LatchState.Sound (s : LatchState) (h : LatchHistory) : Prop where
  accounts : Accounts (LatchWord.latch s.word).state (s.guards false) (s.guards true) ()
  fresh : ∀ a, (s.pcs a).Fresh s.word
  version : (LatchWord.latch s.word).version = h.completed % 2 ^ 48
  began : h.began = if (LatchWord.latch s.word).state = .exclusive then h.completed + 1
    else h.completed
  snapshots : ∀ p ∈ h.snapshots, p.version = p.completed % 2 ^ 48 ∧ p.began = p.completed ∧
    p.completed ≤ h.completed

section Runs

variable {s s' : LatchState} {h : LatchHistory} {l : Nat × LatchOp}

theorem guards_eq_some {exclusive : Bool} {a : Nat} :
    s.guards exclusive a = some () ↔ (s.pcs a).holds = some exclusive := by
  unfold LatchState.guards LatchPc.guard
  split
  · rename_i hc
    exact ⟨fun _ => hc, fun _ => rfl⟩
  · rename_i hc
    refine ⟨?_, fun h => absurd h hc⟩
    rintro ⟨⟩

theorem sound_init (hword : s.word = 0) (hidle : ∀ a, s.pcs a = .idle) :
    s.Sound ⟨0, 0, []⟩ := by
  have hlatch : LatchWord.latch s.word = HybridLatch.new := by
    rw [hword]
    decide
  have hnone : ∀ exclusive a, s.guards exclusive a ≠ some () := by
    intro exclusive a
    rw [ne_eq, guards_eq_some, hidle]
    rintro ⟨⟩
  rw [HybridLatch.new] at hlatch
  refine ⟨?_, fun a => ?_, ?_, ?_, ?_⟩
  · rw [hlatch]
    exact ⟨tally_eq_zero.mpr (hnone false), tally_eq_zero.mpr (hnone true)⟩
  · rw [hidle]
    trivial
  · rw [hlatch]
    rfl
  · rw [hlatch]
    exact (if_neg (by rintro ⟨⟩)).symm
  · rintro p ⟨⟩

theorem latch_next (hs : latchThreads.next s l = some s') : ∃ word' pc',
    (s.pcs l.1).step s.word l.2 = some (word', pc') ∧
      s' = { word := word', pcs := update s.pcs l.1 pc' } := by
  rcases Option.map_eq_some_iff.mp hs with ⟨⟨word', pc'⟩, hstep, rfl⟩
  exact ⟨word', pc', hstep, rfl⟩

namespace LatchState.Sound

theorem counted (hi : s.Sound h) {a : Nat} (ha : (s.pcs a).holds = some false) :
    ∃ n, (LatchWord.latch s.word).state = .shared (n + 1) :=
  hi.accounts.shared_of_holds (guards_eq_some.mpr ha)

theorem locked (hi : s.Sound h) {a : Nat} (ha : (s.pcs a).holds = some true) :
    (LatchWord.latch s.word).state = .exclusive :=
  hi.accounts.exclusive_of_holds (guards_eq_some.mpr ha)

variable {a : Nat} {word' : Word} {pc' : LatchPc}

theorem guards_other (exclusive : Bool) {b : Nat} (hb : b ≠ a) :
    LatchState.guards { word := word', pcs := update s.pcs a pc' } exclusive b =
      s.guards exclusive b :=
  congrArg (LatchPc.guard exclusive) (update_of_ne hb _ _)

theorem guards_self (exclusive : Bool) :
    LatchState.guards { word := word', pcs := update s.pcs a pc' } exclusive a =
      pc'.guard exclusive :=
  congrArg (LatchPc.guard exclusive) (update_self _ _ _)

/-- The guards of a kind that the step does not concern. -/
theorem guards_same {exclusive : Bool} (hsame : pc'.guard exclusive = (s.pcs a).guard exclusive)
    (b : Nat) : LatchState.guards { word := word', pcs := update s.pcs a pc' } exclusive b =
      s.guards exclusive b := by
  by_cases hb : b = a
  · rw [hb, guards_self, hsame]
    rfl
  · exact guards_other exclusive hb

/-- What the others have loaded stays right, unless one of them is about to
    store. -/
theorem fresh_step (hi : s.Sound h) (hpc : pc'.Fresh word')
    (hothers : ∀ b, b ≠ a → (s.pcs b).holds ≠ some true) (b : Nat) :
    (update s.pcs a pc' b).Fresh word' := by
  by_cases hb : b = a
  · rw [hb, update_self]
    exact hpc
  · rw [update_of_ne hb]
    have hold := hi.fresh b
    have hnot := hothers b hb
    cases hcase : s.pcs b with
    | releasing current =>
        rw [hcase] at hnot
        exact absurd rfl hnot
    | _ =>
        rw [hcase] at hold
        exact hold

/-- No other guard is exclusive, unless this one is not. -/
theorem sole (hi : s.Sound h) (hstate : (LatchWord.latch s.word).state ≠ .exclusive ∨
    (s.pcs a).holds = some true) (b : Nat) (hb : b ≠ a) : (s.pcs b).holds ≠ some true := by
  intro hc
  rcases hstate with hstate | ha
  · exact hstate (hi.locked hc)
  · exact hb (hi.accounts.unique (guards_eq_some.mpr hc) (guards_eq_some.mpr ha))

/-- A guard of a kind is in its ledger, any other is not. -/
theorem guard_of_holds {pc : LatchPc} {exclusive : Bool} (hpc : pc.holds = some exclusive) :
    pc.guard exclusive = some () :=
  if_pos hpc

theorem guard_of_not {pc : LatchPc} {exclusive : Bool} (hpc : pc.holds ≠ some exclusive) :
    pc.guard exclusive = none :=
  if_neg hpc

/-- The accounts after a move. -/
theorem accounts_step (hi : s.Sound h) {op : LatchOp}
    (hmove : LatchMove s.word (s.pcs a) op word' pc') :
    Accounts (LatchWord.latch word').state
      (LatchState.guards { word := word', pcs := update s.pcs a pc' } false)
      (LatchState.guards { word := word', pcs := update s.pcs a pc' } true) () := by
  have hacc := hi.accounts
  cases hmove with
  | quiet hholds =>
      refine hacc.congr (guards_same ?_) (guards_same ?_)
      · unfold LatchPc.guard
        simp only [hholds]
      · unfold LatchPc.guard
        simp only [hholds]
  | share hnone _ _ hbefore hafter =>
      rw [hbefore] at hacc
      rw [hafter]
      refine hacc.acquireShared (a := a) (fun b hb => guards_other false hb) (guards_same ?_) ?_ ?_
      · exact (guard_of_not (by rw [hnone]; rintro ⟨⟩)).symm
      · change (s.pcs a).guard false ≠ some ()
        rw [guard_of_not (by rw [hnone]; rintro ⟨⟩)]
        rintro ⟨⟩
      · rw [guards_self]
        rfl
  | unshare hshared _ _ hbefore hafter =>
      rw [hbefore] at hacc
      rw [hafter]
      refine hacc.releaseShared (a := a) (fun b hb => guards_other false hb) (guards_same ?_)
        (guard_of_holds hshared) ?_
      · exact (guard_of_not (by rw [hshared]; rintro ⟨⟩)).symm
      · rw [guards_self]
        rintro ⟨⟩
  | lock hnone _ _ hbefore hafter =>
      rw [hbefore] at hacc
      rw [hafter]
      refine hacc.acquireExclusive (a := a) (guards_same ?_) (fun b hb => guards_other true hb) ?_
      · exact (guard_of_not (by rw [hnone]; rintro ⟨⟩)).symm
      · rw [guards_self]
        rfl
  | upgrade hshared _ _ hbefore hafter =>
      rw [hbefore] at hacc
      rw [hafter]
      -- The shared hold is given up and the exclusive one taken in one step.
      have hfree : Accounts (.shared 0)
          (LatchState.guards { word := word', pcs := update s.pcs a .exclusive } false)
          (s.guards true) () := by
        refine hacc.releaseShared (a := a) (fun b hb => guards_other false hb) (fun _ => rfl)
          (guard_of_holds hshared) ?_
        rw [guards_self]
        rintro ⟨⟩
      refine hfree.acquireExclusive (a := a) (fun _ => rfl) (fun b hb => guards_other true hb) ?_
      rw [guards_self]
      rfl
  | unlock hexclusive _ hafter =>
      rw [hi.locked hexclusive] at hacc
      rw [hafter]
      refine hacc.releaseExclusive (a := a) (guards_same ?_) (fun b hb => guards_other true hb)
        (guard_of_holds hexclusive) ?_
      · exact (guard_of_not (by rw [hexclusive]; rintro ⟨⟩)).symm
      · rw [guards_self]
        rintro ⟨⟩

/-- A snapshot is taken where no section is under way. -/
theorem snapshots_step (hi : s.Sound h) (p : LatchSnapshot)
    (hp : p ∈ (recordLatch h s l s').snapshots) :
    p.version = p.completed % 2 ^ 48 ∧ p.began = p.completed ∧ p.completed ≤ h.completed := by
  unfold recordLatch at hp
  dsimp only at hp
  split at hp
  · rcases List.mem_append.mp hp with hp | hp
    · rcases List.mem_map.mp hp with ⟨v, hv, rfl⟩
      have hopt := Option.mem_toList.mp hv
      unfold LatchWord.optimistic at hopt
      split at hopt
      · cases hopt
      · rename_i hopen
        cases hopt
        have hbegan := hi.began
        rw [if_neg (fun hc => hopen (LatchWord.latch_exclusive.mp hc))] at hbegan
        exact ⟨hi.version, hbegan, Nat.le_refl _⟩
    · exact hi.snapshots p hp
  · exact hi.snapshots p hp

/-- The version and the counts after a move. -/
theorem counts_step (hi : s.Sound h) {op : LatchOp}
    (hmove : LatchMove s.word (s.pcs a) op word' pc') :
    (LatchWord.latch word').version =
        (if op = .store then h.completed + 1 else h.completed) % 2 ^ 48 ∧
      (if s.pcs a ≠ .exclusive ∧ pc' = .exclusive then h.began + 1 else h.began) =
        if (LatchWord.latch word').state = .exclusive then
          (if op = .store then h.completed + 1 else h.completed) + 1
        else if op = .store then h.completed + 1 else h.completed := by
  have hversion := hi.version
  have hbegan := hi.began
  cases hmove with
  | quiet _ hop hpc =>
      rw [if_neg hop, if_neg (fun hc => hpc hc.2)]
      exact ⟨hversion, hbegan⟩
  | share _ hop _ hbefore hafter =>
      rw [if_neg hop, if_neg (by rintro ⟨_, ⟨⟩⟩), hafter, if_neg (by rintro ⟨⟩)]
      rw [hbefore, if_neg (by rintro ⟨⟩)] at hbegan
      exact ⟨hversion, hbegan⟩
  | unshare _ hop _ hbefore hafter =>
      rw [if_neg hop, if_neg (by rintro ⟨_, ⟨⟩⟩), hafter, if_neg (by rintro ⟨⟩)]
      rw [hbefore, if_neg (by rintro ⟨⟩)] at hbegan
      exact ⟨hversion, hbegan⟩
  | lock hnone hop _ hbefore hafter =>
      have hnot : s.pcs a ≠ .exclusive := by
        intro hc
        rw [hc] at hnone
        cases hnone
      rw [if_neg hop, if_pos ⟨hnot, rfl⟩, hafter, if_pos rfl]
      rw [hbefore, if_neg (by rintro ⟨⟩)] at hbegan
      exact ⟨hversion, congrArg Nat.succ hbegan⟩
  | upgrade hshared hop _ hbefore hafter =>
      have hnot : s.pcs a ≠ .exclusive := by
        intro hc
        rw [hc] at hshared
        cases hshared
      rw [if_neg hop, if_pos ⟨hnot, rfl⟩, hafter, if_pos rfl]
      rw [hbefore, if_neg (by rintro ⟨⟩)] at hbegan
      exact ⟨hversion, congrArg Nat.succ hbegan⟩
  | unlock hexclusive hop hafter =>
      rw [if_pos hop, if_neg (by rintro ⟨_, ⟨⟩⟩), hafter, if_neg (by rintro ⟨⟩)]
      rw [hi.locked hexclusive, if_pos rfl] at hbegan
      refine ⟨?_, hbegan⟩
      change ((LatchWord.latch s.word).version + 1) % 2 ^ 48 = (h.completed + 1) % 2 ^ 48
      rw [hversion, Nat.mod_add_mod]

/-- Nobody else is about to store, or the word does not change. -/
theorem fresh_move (hi : s.Sound h) {op : LatchOp}
    (hmove : LatchMove s.word (s.pcs a) op word' pc') (hpc : pc'.Fresh word') (b : Nat) :
    (update s.pcs a pc' b).Fresh word' := by
  have hopen : ∀ n, (LatchWord.latch s.word).state = .shared n →
      (LatchWord.latch s.word).state ≠ .exclusive := by
    intro n hn hc
    rw [hn] at hc
    cases hc
  cases hmove with
  | quiet =>
      by_cases hb : b = a
      · rw [hb, update_self]
        exact hpc
      · rw [update_of_ne hb]
        exact hi.fresh b
  | share _ _ _ hbefore => exact hi.fresh_step hpc (hi.sole (.inl (hopen _ hbefore))) b
  | unshare _ _ _ hbefore => exact hi.fresh_step hpc (hi.sole (.inl (hopen _ hbefore))) b
  | lock _ _ _ hbefore => exact hi.fresh_step hpc (hi.sole (.inl (hopen _ hbefore))) b
  | upgrade _ _ _ hbefore => exact hi.fresh_step hpc (hi.sole (.inl (hopen _ hbefore))) b
  | unlock hexclusive => exact hi.fresh_step hpc (hi.sole (.inr hexclusive)) b

theorem next (hi : s.Sound h) (hs : latchThreads.next s l = some s') :
    s'.Sound (recordLatch h s l s') := by
  rcases latch_next hs with ⟨word', pc', hstep, rfl⟩
  rcases guard_move hstep (hi.fresh l.1) hi.counted hi.locked with ⟨hmove, hpc⟩
  rcases hi.counts_step hmove with ⟨hversion, hbegan⟩
  refine ⟨hi.accounts_step hmove, hi.fresh_move hmove hpc, hversion, ?_, fun p hp => ?_⟩
  · have hsame : (if s.pcs l.1 ≠ .exclusive ∧ update s.pcs l.1 pc' l.1 = .exclusive then
        h.began + 1 else h.began) =
        if s.pcs l.1 ≠ .exclusive ∧ pc' = .exclusive then h.began + 1 else h.began :=
      if_congr (by rw [update_self]) rfl rfl
    exact hsame.trans hbegan
  · rcases hi.snapshots_step p hp with ⟨hv, hb, hle⟩
    refine ⟨hv, hb, Nat.le_trans hle ?_⟩
    unfold recordLatch
    dsimp only
    split
    · exact Nat.le_succ _
    · exact Nat.le_refl _

/-- A snapshot that is still valid has seen no section. -/
theorem validated (hi : s.Sound h) {p : LatchSnapshot} (hp : p ∈ h.snapshots)
    (hfew : h.completed - p.completed < 2 ^ 48)
    (hvalid : LatchWord.validate s.word p.version = true) :
    h.began = p.began ∧ h.completed = p.completed := by
  rcases hi.snapshots p hp with ⟨hversion, hbegan, hle⟩
  unfold LatchWord.validate at hvalid
  split at hvalid
  · cases hvalid
  · rcases of_decide_eq_true hvalid with ⟨hopen, hsame⟩
    have hnow : (LatchWord.latch s.word).version = p.version := hsame
    rw [hi.version, hversion] at hnow
    have heq : h.completed = p.completed := by omega
    have hcount := hi.began
    rw [if_neg (fun hc => hopen (LatchWord.latch_exclusive.mp hc))] at hcount
    exact ⟨hcount.trans (heq.trans hbegan.symm), heq⟩

/-- The guards of a kind that are alive. -/
theorem tally_guards (exclusive : Bool) : tally (s.guards exclusive) () =
    {a | (s.pcs a).holds = some exclusive}.encard :=
  congrArg Set.encard (Set.ext fun _ => guards_eq_some)

/-- The word is a count of shared guards or the sentinel of an exclusive one. -/
theorem word_holds (hi : s.Sound h) :
    (LatchWord.state s.word ≤ 65534 ∧
        {a | (s.pcs a).holds = some false}.encard = LatchWord.state s.word ∧
        ∀ a, (s.pcs a).holds ≠ some true) ∨
      (LatchWord.state s.word = 0xFFFF ∧ (∃! a, (s.pcs a).holds = some true) ∧
        ∀ a, (s.pcs a).holds ≠ some false) := by
  have hacc := hi.accounts
  cases hstate : (LatchWord.latch s.word).state with
  | shared n =>
      rcases LatchWord.latch_shared hstate with ⟨hn, hle⟩
      rw [hstate] at hacc
      refine .inl ⟨by rw [hn]; exact hle, ?_, fun a ha => ?_⟩
      · rw [hn, ← tally_guards]
        exact hacc.1
      · exact tally_eq_zero.mp hacc.2 a (guards_eq_some.mpr ha)
  | exclusive =>
      rw [hstate] at hacc
      refine .inr ⟨LatchWord.latch_exclusive.mp hstate, ?_, fun a ha => ?_⟩
      · have hone : tally (s.guards true) () = 1 := hacc.2
        rcases exists_of_tally_ne_zero (by rw [hone]; exact one_ne_zero) with ⟨a, ha⟩
        exact ⟨a, guards_eq_some.mp ha, fun b hb => eq_of_tally_one hone (guards_eq_some.mpr hb) ha⟩
      · exact tally_eq_zero.mp hacc.1 a (guards_eq_some.mpr ha)

/-- A shared guard that is not dropped either becomes exclusive or stays what it
    is, without a change to the word. -/
theorem kept (hi : s.Sound h) {op : LatchOp} (ha : (s.pcs a).holds = some false)
    (hop : op ≠ .drop) (hs : latchThreads.next s (a, op) = some s') :
    s'.pcs a = .exclusive ∨ ((s'.pcs a).holds = some false ∧ s'.word = s.word) := by
  rcases latch_next hs with ⟨word', pc', hstep, rfl⟩
  rcases guard_move hstep (hi.fresh a) hi.counted hi.locked with ⟨hmove, -⟩
  dsimp only
  rw [update_self]
  cases hmove with
  | quiet hholds => exact .inr ⟨hholds.trans ha, rfl⟩
  | share hnone =>
      rw [hnone] at ha
      cases ha
  | unshare =>
      cases hpc : s.pcs a with
      | shared =>
          rw [hpc] at hstep
          cases op with
          | drop => exact absurd rfl hop
          | tryUpgrade =>
              dsimp only [LatchPc.step] at hstep
              split at hstep <;> cases hstep
          | _ => cases hstep
      | upgrading current =>
          rw [hpc] at hstep
          cases op with
          | compareExchange =>
              dsimp only [LatchPc.step] at hstep
              split at hstep <;> cases hstep
          | _ => cases hstep
      | _ =>
          rw [hpc] at ha
          cases ha
  | lock => exact .inl rfl
  | upgrade => exact .inl rfl
  | unlock hexclusive =>
      rw [hexclusive] at ha
      cases ha

end LatchState.Sound

end Runs

/-- Every run keeps the word in step with the guards. -/
theorem latch_sound {x : LatchState × LatchHistory}
    (hr : Reachable (latchThreads.withHistory ⟨0, 0, []⟩ recordLatch) x) : x.1.Sound x.2 :=
  history_invariant (M := latchThreads) (P := fun _ _ => True)
    (fun _ hs => sound_init hs.1 hs.2)
    (fun _ _ _ _ _ hi _ hs => hi.next hs) hr

/-- The low 16 bits count the shared guards or are the sentinel of the only
    guard, the upper ones count the exclusive sections, no drop finds the word
    in another state, a failed upgrade keeps the shared hold, and a snapshot
    that is valid has seen no exclusive section. -/
theorem hybrid_latch_correct {x : LatchState × LatchHistory}
    (hr : Reachable (latchThreads.withHistory ⟨0, 0, []⟩ recordLatch) x) :
    ((LatchWord.state x.1.word ≤ 65534 ∧
        {a | (x.1.pcs a).holds = some false}.encard = LatchWord.state x.1.word ∧
        ∀ a, (x.1.pcs a).holds ≠ some true) ∨
      (LatchWord.state x.1.word = 0xFFFF ∧ (∃! a, (x.1.pcs a).holds = some true) ∧
        ∀ a, (x.1.pcs a).holds ≠ some false)) ∧
      LatchWord.version x.1.word = x.2.completed % 2 ^ 48 ∧
      (∀ a, x.1.pcs a ≠ .panicked) ∧
      (∀ a op s', (x.1.pcs a).holds = some false → op ≠ .drop →
        latchThreads.next x.1 (a, op) = some s' →
        s'.pcs a = .exclusive ∨ ((s'.pcs a).holds = some false ∧ s'.word = x.1.word)) ∧
      ∀ p ∈ x.2.snapshots, x.2.completed - p.completed < 2 ^ 48 →
        LatchWord.validate x.1.word p.version = true →
        x.2.began = p.began ∧ x.2.completed = p.completed := by
  have hi := latch_sound hr
  refine ⟨hi.word_holds, hi.version, fun a ha => ?_, fun a op s' ha hop => hi.kept ha hop,
    fun p hp => hi.validated hp⟩
  have hfresh := hi.fresh a
  rw [ha] at hfresh
  exact hfresh

/-- A snapshot is taken next to a shared guard, which is upgraded and dropped. -/
def latchUpgrade : List (Nat × LatchOp) :=
  [(0, .tryLockShared), (0, .compareExchange false), (1, .optimistic), (0, .tryUpgrade),
    (0, .compareExchange false), (0, .drop), (0, .store)]

/-- The version has moved on, and the snapshot is no longer valid. -/
theorem hybrid_latch_correct_upgrade : ∃ x,
    Reachable (latchThreads.withHistory ⟨0, 0, []⟩ recordLatch) x ∧
      LatchWord.version x.1.word = 1 ∧ x.2.snapshots.map LatchSnapshot.version = [0] ∧
      ∀ p ∈ x.2.snapshots, LatchWord.validate x.1.word p.version = false := by
  have hrun : (exec (latchThreads.withHistory ⟨0, 0, []⟩ recordLatch)
      (⟨0, fun _ => .idle⟩, ⟨0, 0, []⟩) latchUpgrade).map (fun x => (x.2.completed,
        x.2.snapshots.map LatchSnapshot.version, x.2.snapshots.map LatchSnapshot.completed)) =
      some (1, [0], [0]) := by decide +kernel
  rcases Option.map_eq_some_iff.mp hrun with ⟨x, hx, hsees⟩
  simp only [Prod.mk.injEq] at hsees
  rcases hsees with ⟨hone, hversions, hcompleted⟩
  have hr : Reachable (latchThreads.withHistory ⟨0, 0, []⟩ recordLatch) x :=
    reachable_exec _ _ x (ReachableVia.init ⟨⟨rfl, fun _ => rfl⟩, rfl⟩) hx
  rcases hybrid_latch_correct hr with ⟨-, hversion, -, -, hvalid⟩
  rw [hone] at hversion
  refine ⟨x, hr, hversion, hversions, fun p hp => ?_⟩
  have hzero : p.completed = 0 := by
    have hmem := List.mem_map_of_mem (f := LatchSnapshot.completed) hp
    rw [hcompleted] at hmem
    exact List.mem_singleton.mp hmem
  by_contra hc
  have hsame := (hvalid p hp (by omega) (eq_true_of_ne_false hc)).2
  omega

end TierBuf
