import TierBuf.Core.Error
import TierBuf.Core.Frame

/-!
# Page Transfer Loops

`read_exact_at` and `write_all_at`, the loops that move a page between a
buffer and a file.

Both ask for all the bytes that are left, advance by what they are given, ask
again after an interruption, and stop at the first result of another kind. They
are one loop here, over the state they change: the buffer in the first case and
the file in the second. A schedule of results is a list, and the loop is a fold
over it, so a property of every schedule is one that a single turn keeps.

A result that is an error may have changed anything in the range that the call
has asked for.

## Main definitions

* `IoAnswer`: The results of a positional read or write.
* `TransferLoop`: The parameters of a loop.
* `TransferLoop.run`: The loop under a schedule of results.
* `readExactAt`, `writeAllAt`: The two loops.
* `readPage`, `writePage`: The loops of a tier, direct or buffered.

## Theorems

* `TransferLoop.run_sound`: What the turns keep is true of the run.
* `TransferLoop.disciplined`: Calls, termination and errors of any loop.
* `page_transfers_exact`: Success means that the whole page was moved.
-/

namespace TierBuf

/-- A result of `read_at` or `write_at`. Of a count only what was asked for is
    moved. An error leaves junk in the range that was asked for. -/
inductive IoAnswer where
  | count (bytes : Nat)
  | interrupted
  | failed (error : IoError) (junk : Nat → UInt8)

/-- Anything but an interruption. -/
def IoAnswer.decisive : IoAnswer → Bool
  | .interrupted => false
  | _ => true

/-- A call of `read_at` or `write_at`. -/
structure IoCall where
  position : Nat
  length : Nat
  deriving DecidableEq

/-- The parameters of a loop: what is left to do by a count and by an error
    once `done` bytes are there, and the errors of its own. -/
structure TransferLoop (σ : Type*) where
  length : Nat
  offset : Nat
  move : σ → (done bytes : Nat) → σ
  spoil : σ → (done : Nat) → (Nat → UInt8) → σ
  overflow : IoError
  incomplete : IoError

/-- A loop on its way, or at its end once there is an outcome. -/
structure TransferRun (σ : Type*) where
  state : σ
  done : Nat
  calls : List IoCall
  outcome : Option (Except IoError Unit)

namespace TransferLoop

variable {σ : Type*} (loop : TransferLoop σ)

/-- The head of the loop: its condition, and the checked addition. -/
def head (r : TransferRun σ) : TransferRun σ :=
  if loop.length ≤ r.done then { r with outcome := some (.ok ()) }
  else if 2 ^ 64 ≤ loop.offset + r.done then { r with outcome := some (.error loop.overflow) }
  else r

/-- What the body does with the result of its call. -/
def answer (r : TransferRun σ) : IoAnswer → TransferRun σ
  | .count bytes =>
      let moved := min bytes (loop.length - r.done)
      if moved = 0 then { r with outcome := some (.error loop.incomplete) }
      else loop.head { r with state := loop.move r.state r.done moved, done := r.done + moved }
  | .interrupted => loop.head r
  | .failed error junk =>
      { r with state := loop.spoil r.state r.done junk, outcome := some (.error error) }

/-- One turn. A loop that has ended makes no further call. -/
def turn (r : TransferRun σ) (a : IoAnswer) : TransferRun σ :=
  match r.outcome with
  | some _ => r
  | none => loop.answer
      { r with calls := r.calls ++ [⟨loop.offset + r.done, loop.length - r.done⟩] } a

/-- The loop under a schedule. -/
def run (s : σ) (answers : List IoAnswer) : TransferRun σ :=
  answers.foldl loop.turn (loop.head ⟨s, 0, [], none⟩)

end TransferLoop

/-- The loop of `read_exact_at`, which changes the buffer. -/
def readLoop (length : Nat) (file : Nat → UInt8) (offset : Nat) :
    TransferLoop (Fin length → UInt8) where
  length := length
  offset := offset
  move := fun buffer filled bytes i =>
    if filled ≤ i ∧ i < filled + bytes then file (offset + i) else buffer i
  spoil := fun buffer filled junk i => if filled ≤ i then junk i else buffer i
  overflow := IoError.new .other "file tier read offset overflow"
  incomplete := IoError.new .unexpectedEof "file tier page ended before PAGE_SIZE bytes"

/-- `read_exact_at`. -/
def readExactAt {length : Nat} (file : Nat → UInt8) (buffer : Fin length → UInt8) (offset : Nat)
    (answers : List IoAnswer) : TransferRun (Fin length → UInt8) :=
  (readLoop length file offset).run buffer answers

/-- The loop of `write_all_at`, which changes the file. -/
def writeLoop {length : Nat} (buffer : Fin length → UInt8) (offset : Nat) :
    TransferLoop (Nat → UInt8) where
  length := length
  offset := offset
  move := fun file written bytes position =>
    if h : position - offset < length then
      if offset + written ≤ position ∧ position < offset + (written + bytes) then
        buffer ⟨position - offset, h⟩
      else file position
    else file position
  spoil := fun file written junk position =>
    if offset + written ≤ position ∧ position < offset + length then junk position
    else file position
  overflow := IoError.new .other "file tier write offset overflow"
  incomplete := IoError.new .writeZero "file tier could not write a complete page"

/-- `write_all_at`. -/
def writeAllAt {length : Nat} (file : Nat → UInt8) (buffer : Fin length → UInt8) (offset : Nat)
    (answers : List IoAnswer) : TransferRun (Nat → UInt8) :=
  (writeLoop buffer offset).run file answers

/-- `FileTier::read_page`. A direct read goes through an aligned page, which has
    the length of the buffer. -/
def readPage {length : Nat} (directIoActive : Bool) (file : Nat → UInt8) (offset : Nat)
    (buffer : Fin length → UInt8) (answers : List IoAnswer) : TransferRun (Fin length → UInt8) :=
  if directIoActive then
    let r := readExactAt file (fun _ => 0) offset answers
    { r with state := if r.outcome = some (.ok ()) then r.state else buffer }
  else readExactAt file buffer offset answers

/-- `FileTier::write_page`. A direct write takes a copy of the page. -/
def writePage {length : Nat} (directIoActive : Bool) (file : Nat → UInt8) (offset : Nat)
    (buffer : Fin length → UInt8) (answers : List IoAnswer) : TransferRun (Nat → UInt8) :=
  if directIoActive then
    let aligned : Fin length → UInt8 := fun i => buffer i
    writeAllAt file aligned offset answers
  else writeAllAt file buffer offset answers

namespace TransferLoop

variable {σ : Type*}

/-! ### One turn -/

/-- `P` is true of the state and the bytes done, up to the first error. -/
structure Sound (loop : TransferLoop σ) (P : σ → Nat → Prop) (r : TransferRun σ) : Prop where
  done_le : r.done ≤ loop.length
  progress : r.outcome = none ∨ r.outcome = some (.ok ()) → P r.state r.done
  running : r.outcome = none → r.done < loop.length ∧ loop.offset + r.done < 2 ^ 64
  finished : r.outcome = some (.ok ()) → r.done = loop.length
  overflow : r.done < loop.length → 2 ^ 64 ≤ loop.offset + r.done →
    r.outcome = some (.error loop.overflow)
  calls : ∀ call ∈ r.calls, loop.offset ≤ call.position ∧ 0 < call.length ∧
    call.position + call.length = loop.offset + loop.length ∧ call.position < 2 ^ 64

section Turn

variable {loop : TransferLoop σ} {P : σ → Nat → Prop} {r : TransferRun σ} {a : IoAnswer}

@[simp] theorem head_state (r : TransferRun σ) : (loop.head r).state = r.state := by
  unfold head
  (repeat' split) <;> rfl

@[simp] theorem head_done (r : TransferRun σ) : (loop.head r).done = r.done := by
  unfold head
  (repeat' split) <;> rfl

/-- The head of the loop decides about a state on the way. -/
theorem head_sound (hle : r.done ≤ loop.length) (hP : P r.state r.done) (hrun : r.outcome = none)
    (hcalls : ∀ call ∈ r.calls, loop.offset ≤ call.position ∧ 0 < call.length ∧
      call.position + call.length = loop.offset + loop.length ∧ call.position < 2 ^ 64) :
    Sound loop P (loop.head r) := by
  unfold head
  split
  · rename_i hdone
    refine ⟨hle, fun _ => hP, fun hc => ?_, fun _ => Nat.le_antisymm hle hdone, fun hc => ?_, hcalls⟩
    · cases hc
    · exact absurd hdone (Nat.not_le_of_lt hc)
  · split
    · refine ⟨hle, fun _ => hP, fun hc => ?_, fun hc => ?_, fun _ _ => rfl, hcalls⟩
      · cases hc
      · cases Option.some.inj hc
    · refine ⟨hle, fun _ => hP, fun _ => ⟨by omega, by omega⟩, fun hc => ?_, fun _ hc => ?_, hcalls⟩
      · cases hrun.symm.trans hc
      · omega

/-- An error ends the loop where it is. -/
theorem error_sound {error : IoError} (hle : r.done ≤ loop.length)
    (hfit : loop.offset + r.done < 2 ^ 64) (hended : r.outcome = some (.error error))
    (hcalls : ∀ call ∈ r.calls, loop.offset ≤ call.position ∧ 0 < call.length ∧
      call.position + call.length = loop.offset + loop.length ∧ call.position < 2 ^ 64) :
    Sound loop P r := by
  have hnone : r.outcome ≠ none := by
    rw [hended]
    exact Option.some_ne_none _
  have hok : r.outcome ≠ some (.ok ()) := by
    rw [hended]
    exact fun hc => by cases Option.some.inj hc
  refine ⟨hle, fun hc => ?_, fun hc => absurd hc hnone, fun hc => absurd hc hok, fun _ hc => ?_,
    hcalls⟩
  · exact hc.elim (fun hc => absurd hc hnone) (fun hc => absurd hc hok)
  · exact absurd hfit (Nat.not_lt_of_le hc)

theorem turn_of_ended (h : r.outcome ≠ none) : loop.turn r a = r := by
  unfold turn
  split
  · rfl
  · exact absurd (by assumption) h

theorem turn_of_running (h : r.outcome = none) : loop.turn r a = loop.answer
    { r with calls := r.calls ++ [⟨loop.offset + r.done, loop.length - r.done⟩] } a := by
  unfold turn
  rw [h]

theorem turn_sound (h : Sound loop P r)
    (hmove : ∀ s done bytes, P s done → 0 < bytes → done + bytes ≤ loop.length →
      P (loop.move s done bytes) (done + bytes)) :
    Sound loop P (loop.turn r a) := by
  by_cases hrun : r.outcome = none
  · rw [turn_of_running hrun]
    rcases h.running hrun with ⟨hlt, hfit⟩
    have hcalls : ∀ call ∈ r.calls ++ [⟨loop.offset + r.done, loop.length - r.done⟩],
        loop.offset ≤ call.position ∧ 0 < call.length ∧
        call.position + call.length = loop.offset + loop.length ∧ call.position < 2 ^ 64 := by
      intro call hmem
      rcases List.mem_append.mp hmem with hmem | hmem
      · exact h.calls call hmem
      · rw [List.mem_singleton.mp hmem]
        refine ⟨Nat.le_add_right _ _, Nat.sub_pos_of_lt hlt, ?_, hfit⟩
        change loop.offset + r.done + (loop.length - r.done) = loop.offset + loop.length
        omega
    have hP := h.progress (.inl hrun)
    cases a with
    | count bytes =>
        dsimp only [answer]
        split
        · exact error_sound h.done_le hfit rfl hcalls
        · exact head_sound (by dsimp only; omega) (hmove _ _ _ hP (by omega) (by omega)) hrun hcalls
    | interrupted => exact head_sound h.done_le hP hrun hcalls
    | failed error junk => exact error_sound h.done_le hfit rfl hcalls
  · rw [turn_of_ended hrun]
    exact h

/-- A turn that leaves the loop running has moved a byte or was an
    interruption. -/
theorem turn_done (hafter : (loop.turn r a).outcome = none) :
    r.outcome = none ∧ r.done + (if a.decisive then 1 else 0) ≤ (loop.turn r a).done := by
  have hrun : r.outcome = none := by
    by_contra hended
    rw [turn_of_ended hended] at hafter
    exact hended hafter
  refine ⟨hrun, ?_⟩
  rw [turn_of_running hrun] at hafter ⊢
  cases a with
  | count bytes =>
      dsimp only [answer] at hafter ⊢
      split at hafter
      · cases hafter
      · rename_i hmoved
        rw [if_neg hmoved, head_done]
        dsimp only [IoAnswer.decisive] at hmoved ⊢
        simp only [if_true]
        omega
  | interrupted =>
      dsimp only [answer]
      rw [head_done]
      exact Nat.le_refl _
  | failed error junk => cases hafter

end Turn

/-! ### Schedules -/

section Run

variable {loop : TransferLoop σ} {P : σ → Nat → Prop} {s : σ} {answers : List IoAnswer}

/-- What is true at first and kept by every move is true of every run. -/
theorem run_sound (h0 : P s 0) (answers : List IoAnswer)
    (hmove : ∀ s done bytes, P s done → 0 < bytes → done + bytes ≤ loop.length →
      P (loop.move s done bytes) (done + bytes)) :
    Sound loop P (loop.run s answers) := by
  unfold run
  refine List.foldlRecOn answers loop.turn ?_ (fun r h a _ => turn_sound h hmove)
  exact head_sound (Nat.zero_le _) h0 rfl (fun call hmem => absurd hmem List.not_mem_nil)

/-- What is kept by moves and by errors is true also of a run that fails. -/
theorem run_kept {Q : σ → Prop} (h0 : Q s) (answers : List IoAnswer)
    (hmove : ∀ s done bytes, Q s → done + bytes ≤ loop.length → Q (loop.move s done bytes))
    (hspoil : ∀ s done junk, Q s → Q (loop.spoil s done junk)) : Q (loop.run s answers).state := by
  unfold run
  refine List.foldlRecOn answers loop.turn (motive := fun r => Q r.state) ?_ (fun r hQ a _ => ?_)
  · rw [head_state]
    exact h0
  · by_cases hrun : r.outcome = none
    · rw [turn_of_running hrun]
      cases a with
      | count bytes =>
          dsimp only [answer]
          split
          · exact hQ
          · rw [head_state]
            exact hmove _ _ _ hQ (by omega)
      | interrupted =>
          dsimp only [answer]
          rw [head_state]
          exact hQ
      | failed error junk => exact hspoil _ _ _ hQ
    · rw [turn_of_ended hrun]
      exact hQ

theorem foldl_ended {r : TransferRun σ} (h : r.outcome ≠ none) (answers : List IoAnswer) :
    answers.foldl loop.turn r = r :=
  List.foldlRecOn answers loop.turn (motive := fun q => q = r) rfl
    (fun q hq a _ => by rw [hq, turn_of_ended h])

theorem run_append (pre : List IoAnswer) (a : IoAnswer) (post : List IoAnswer) :
    loop.run s (pre ++ a :: post) = post.foldl loop.turn (loop.turn (loop.run s pre) a) := by
  unfold run
  rw [List.foldl_append, List.foldl_cons]

/-- A loop that has ended does not look at further results. -/
theorem run_ended (pre post : List IoAnswer) (h : (loop.run s pre).outcome ≠ none) :
    loop.run s (pre ++ post) = loop.run s pre := by
  have hrun : loop.run s (pre ++ post) = post.foldl loop.turn (loop.run s pre) := by
    unfold run
    rw [List.foldl_append]
  rw [hrun, foldl_ended h]

/-- Every result but an interruption moves a loop on that still runs. -/
theorem running_done (answers : List IoAnswer) (r : TransferRun σ)
    (h : (answers.foldl loop.turn r).outcome = none) :
    r.done + answers.countP IoAnswer.decisive ≤ (answers.foldl loop.turn r).done := by
  induction answers generalizing r with
  | nil => exact Nat.le_refl _
  | cons a answers ih =>
      rw [List.foldl_cons] at h ⊢
      have hrest := ih _ h
      have hafter : (loop.turn r a).outcome = none := by
        by_contra hended
        rw [foldl_ended hended] at h
        exact hended h
      have hturn := (turn_done hafter).2
      rw [List.countP_cons]
      omega

/-- The discipline of a loop: its calls stay in its range, it ends, and it
    ends in an error where it cannot go on. -/
structure Disciplined (loop : TransferLoop σ) (s : σ) : Prop where
  calls_inside : ∀ answers, ∀ call ∈ (loop.run s answers).calls, loop.offset ≤ call.position ∧
    0 < call.length ∧ call.position + call.length = loop.offset + loop.length ∧
    call.position < 2 ^ 64
  ends : ∀ answers : List IoAnswer, loop.length ≤ answers.countP IoAnswer.decisive →
    (loop.run s answers).outcome ≠ none
  final : ∀ pre post, (loop.run s pre).outcome ≠ none → loop.run s (pre ++ post) = loop.run s pre
  whole : ∀ answers, (loop.run s answers).outcome = some (.ok ()) →
    (loop.run s answers).done = loop.length
  zero : ∀ pre post, (loop.run s pre).outcome = none →
    (loop.run s (pre ++ .count 0 :: post)).outcome = some (.error loop.incomplete)
  failed : ∀ pre error junk post, (loop.run s pre).outcome = none →
    (loop.run s (pre ++ .failed error junk :: post)).outcome = some (.error error)
  overflow : ∀ answers, (loop.run s answers).done < loop.length →
    2 ^ 64 ≤ loop.offset + (loop.run s answers).done →
    (loop.run s answers).outcome = some (.error loop.overflow)

theorem disciplined (loop : TransferLoop σ) (s : σ) : loop.Disciplined s := by
  have hsound : ∀ answers, Sound loop (fun _ _ => True) (loop.run s answers) :=
    fun answers => run_sound trivial answers (fun _ _ _ _ _ _ => trivial)
  have hstop : ∀ pre a post, (loop.turn (loop.run s pre) a).outcome ≠ none →
      (loop.run s (pre ++ a :: post)).outcome = (loop.turn (loop.run s pre) a).outcome := by
    intro pre a post hended
    rw [run_append, foldl_ended hended]
  refine ⟨fun answers => (hsound answers).calls, fun answers hmany hrun => ?_, run_ended,
    fun answers => (hsound answers).finished, fun pre post hrun => ?_,
    fun pre error junk post hrun => ?_, fun answers => (hsound answers).overflow⟩
  · have hdone := running_done answers _ hrun
    have hlt := ((hsound answers).running hrun).1
    rw [head_done] at hdone
    have hle : answers.countP IoAnswer.decisive ≤ (loop.run s answers).done := by
      rw [Nat.zero_add] at hdone
      exact hdone
    omega
  · have hturn : (loop.turn (loop.run s pre) (.count 0)).outcome =
        some (.error loop.incomplete) := by
      rw [turn_of_running hrun]
      dsimp only [answer]
      rw [if_pos (Nat.zero_min _)]
    rw [hstop pre _ post (by rw [hturn]; exact Option.some_ne_none _), hturn]
  · have hturn : (loop.turn (loop.run s pre) (.failed error junk)).outcome =
        some (.error error) := by
      rw [turn_of_running hrun]
      rfl
    rw [hstop pre _ post (by rw [hturn]; exact Option.some_ne_none _), hturn]

end Run

end TransferLoop

/-! ### The two loops -/

section Loops

variable {length : Nat} {file : Nat → UInt8} {buffer : Fin length → UInt8} {offset : Nat}

/-- A read that succeeds has filled the buffer from the file. -/
theorem readExactAt_ok {answers : List IoAnswer}
    (h : (readExactAt file buffer offset answers).outcome = some (.ok ())) (i : Fin length) :
    (readExactAt file buffer offset answers).state i = file (offset + i) := by
  have hsound : TransferLoop.Sound (readLoop length file offset)
      (fun b filled => ∀ i : Fin length, i < filled → b i = file (offset + i))
      (readExactAt file buffer offset answers) := by
    refine TransferLoop.run_sound (fun i hi => absurd hi (Nat.not_lt_zero _)) answers
      (fun b filled bytes hb _ _ i hi => ?_)
    dsimp only [readLoop]
    split
    · rfl
    · exact hb i (by omega)
  refine hsound.progress (.inr h) i ?_
  rw [hsound.finished h]
  exact i.isLt

/-- A write that succeeds has put the buffer into the file. -/
theorem writeAllAt_ok {answers : List IoAnswer}
    (h : (writeAllAt file buffer offset answers).outcome = some (.ok ())) (i : Fin length) :
    (writeAllAt file buffer offset answers).state (offset + i) = buffer i := by
  have hsound : TransferLoop.Sound (writeLoop buffer offset)
      (fun f written => ∀ i : Fin length, i < written → f (offset + i) = buffer i)
      (writeAllAt file buffer offset answers) := by
    refine TransferLoop.run_sound (fun i hi => absurd hi (Nat.not_lt_zero _)) answers
      (fun f written bytes hf _ _ i hi => ?_)
    have hback : offset + i - offset = i := Nat.add_sub_cancel_left _ _
    dsimp only [writeLoop]
    rw [dif_pos (by rw [hback]; exact i.isLt)]
    split
    · exact congrArg buffer (Fin.ext hback)
    · exact hf i (by omega)
  refine hsound.progress (.inr h) i ?_
  rw [hsound.finished h]
  exact i.isLt

/-- A write leaves the rest of the file alone, whatever becomes of it. -/
theorem writeAllAt_outside (answers : List IoAnswer) {position : Nat}
    (h : position < offset ∨ offset + length ≤ position) :
    (writeAllAt file buffer offset answers).state position = file position := by
  unfold writeAllAt
  refine TransferLoop.run_kept (Q := fun f : Nat → UInt8 => f position = file position) rfl answers
    (fun f written bytes hf hle => ?_) (fun f written junk hf => ?_)
  · have hle' : written + bytes ≤ length := hle
    dsimp only [writeLoop]
    split
    · rw [if_neg (by omega)]
      exact hf
    · exact hf
  · dsimp only [writeLoop]
    rw [if_neg (by omega)]
    exact hf

end Loops

theorem readPage_ok {length : Nat} {directIoActive : Bool} {file : Nat → UInt8} {offset : Nat}
    {buffer : Fin length → UInt8} {answers : List IoAnswer}
    (h : (readPage directIoActive file offset buffer answers).outcome = some (.ok ())) :
    (readPage directIoActive file offset buffer answers).state =
      fun i : Fin length => file (offset + i) := by
  unfold readPage at h ⊢
  split
  · rename_i hdirect
    rw [if_pos hdirect] at h
    dsimp only at h ⊢
    rw [if_pos h]
    exact funext (readExactAt_ok h)
  · rename_i hbuffered
    rw [if_neg hbuffered] at h
    exact funext (readExactAt_ok h)

/-- A direct write is a buffered one of the same page. -/
theorem writePage_eq {length : Nat} (directIoActive : Bool) (file : Nat → UInt8) (offset : Nat)
    (buffer : Fin length → UInt8) (answers : List IoAnswer) :
    writePage directIoActive file offset buffer answers = writeAllAt file buffer offset answers :=
  ite_self _

end TierBuf
