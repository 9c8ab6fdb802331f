import TierBuf.Core.Mapping
import TierBuf.Pool.Contents

/-!
# Pages as Bytes

The frames of a manager in the address space of its process.

The model of the manager has a page for each frame. The program has one mapping
and writes bytes through pointers into it. Here both run side by side: what the
model does to a page is done to the bytes of its frame, and others write where
they like outside of the mapping.

The bytes of the frames are always the pages of the model. So what a guard
reads through its pointer are the latest bytes of its page, and the manager
writes to no byte that is not its own.

## Main definitions

* `writeBytes`: What a step writes to the memory.
* `byteSystem`: A manager with the memory of its process.
* `Backs`: The invariant.

## Theorems

* `backs_reachable`: The bytes of the frames are the pages of the model.
* `bytes_exact`: What guards read, and what the manager does not write.
-/

namespace TierBuf

open Function Ledger Transition

variable {cfg : Config} {frames : AlignedPool}

/-- The memory after a step that has left the manager in the state `sh`. -/
def writeBytes (frames : AlignedPool) (memory : Memory) (pc : Pc) (sh : Shared) : Memory :=
  match pc with
  | .fill f .write => (frames.writeFrame memory f.index (sh.data f.index)).getD memory
  | .guard g .writing => (frames.writeFrame memory g.index (sh.data g.index)).getD memory
  | _ => memory

/-- A manager, the memory of its process, and what the memory would be without
    the manager. -/
structure ByteState where
  state : PoolState
  memory : Memory
  others : Memory

inductive ByteLabel where
  | step (a : Agent) (c : Choice)
  | other (address : Nat) (byte : UInt8)

def ByteState.next (cfg : Config) (frames : AlignedPool) (x : ByteState) :
    ByteLabel → Option ByteState
  | .step a c => ((pool cfg).next x.state (a, c)).map (fun s =>
      { x with state := s, memory := writeBytes frames x.memory (x.state.pcs a) s.shared })
  | .other address byte => if frames.Maps address then none
      else some { x with
        memory := update x.memory address byte
        others := update x.others address byte }

/-- An anonymous mapping is zeroed. -/
def byteSystem (cfg : Config) (frames : AlignedPool) : System ByteState ByteLabel where
  init := fun x => ∃ budgets, x.state = PoolState.initial cfg budgets ∧ x.others = x.memory ∧
    ∀ address, frames.Maps address → x.memory address = 0
  next := ByteState.next cfg frames

structure Backs (cfg : Config) (frames : AlignedPool) (x : ByteState) : Prop where
  reachable : Reachable (pool cfg) x.state
  pages : ∀ i, i < cfg.frameCount → frames.frames x.memory i = x.state.shared.data i
  others : ∀ address, ¬ frames.Maps address → x.memory address = x.others address

/-- A write of the manager goes to a frame. -/
theorem backs_write {memory : Memory} {i : Nat} (hi : i < frames.frameCount) (page : Page) :
    frames.frames ((frames.writeFrame memory i page).getD memory) =
        update (frames.frames memory) i page ∧
      ∀ address, ¬ frames.Maps address →
        ((frames.writeFrame memory i page).getD memory) address = memory address := by
  have hwrite : ∃ memory', frames.writeFrame memory i page = some memory' := by
    unfold AlignedPool.writeFrame
    rw [AlignedPool.framePtr_eq hi]
    exact ⟨_, rfl⟩
  rcases hwrite with ⟨memory', hwrite⟩
  rw [hwrite, Option.getD_some]
  exact ⟨AlignedPool.frames_writeFrame hwrite,
    fun address hout => AlignedPool.writeFrame_outside hwrite hout⟩

/-- What a step writes, in the model and in the memory. -/
inductive PageWrite (cfg : Config) (sh sh' : Shared) (memory : Memory) (frames : AlignedPool) :
    Memory → Prop where
  | none (h : sh'.data = sh.data) : PageWrite cfg sh sh' memory frames memory
  | frame {i : Nat} {page : Page} (hi : i < cfg.frameCount) (h : sh'.data = update sh.data i page) :
      PageWrite cfg sh sh' memory frames ((frames.writeFrame memory i page).getD memory)

theorem pageWrite_next {s s' : PoolState} {a : Agent} {c : Choice} (memory : Memory)
    (hr : Reachable (pool cfg) s) (hs : (pool cfg).next s (a, c) = some s') :
    PageWrite cfg s.shared s'.shared memory frames
      (writeBytes frames memory (s.pcs a) s'.shared) := by
  have h := inv_reachable hr
  have hstep := (pool_next hs).1
  by_cases hw : Field.Writer (s.pcs a) .data
  · rcases hw with ⟨f, hpc⟩ | ⟨g, hpc⟩
    · have hi : f.index < cfg.frameCount := by
        refine (h.places.owned a f.index ?_).1
        rw [role_at hpc]
        rfl
      have hdata : ∃ page, s'.shared.data = update s.shared.data f.index page := by
        rw [hpc, Shared.step, Shared.stepFill] at hstep
        split at hstep
        · rw [← (Prod.mk.inj (Option.some.inj hstep)).1]
          exact ⟨_, rfl⟩
        · split at hstep <;> rw [← (Prod.mk.inj (Option.some.inj hstep)).1] <;> exact ⟨_, rfl⟩
        · split at hstep <;> rw [← (Prod.mk.inj (Option.some.inj hstep)).1] <;> exact ⟨_, rfl⟩
      rcases hdata with ⟨page, hdata⟩
      have hpage : s'.shared.data f.index = page := by rw [hdata, update_self]
      unfold writeBytes
      rw [hpc]
      dsimp only
      rw [hpage]
      exact .frame hi hdata
    · have hholding : (s.pcs a).holding = some g := by
        rw [hpc]
        rfl
      have hi := (h.holds (role_at rfl) hholding).occupies.index
      rw [hpc] at hstep
      have hdata : s'.shared.data = update s.shared.data g.index (c.write (s.shared.data g.index)) := by
        rw [← (Prod.mk.inj (Option.some.inj hstep)).1]
      have hpage : s'.shared.data g.index = c.write (s.shared.data g.index) := by
        rw [hdata, update_self]
      unfold writeBytes
      rw [hpc]
      dsimp only
      rw [hpage]
      exact .frame hi hdata
  · have hsame : writeBytes frames memory (s.pcs a) s'.shared = memory := by
      unfold writeBytes
      split
      · rename_i f hpc
        exact absurd (.inl ⟨f, hpc⟩) hw
      · rename_i g hpc
        exact absurd (.inr ⟨g, hpc⟩) hw
      · rfl
    rw [hsame]
    exact .none (step_same (f := .data) hstep hw)

/-- What a write of the manager changes. -/
theorem PageWrite.backs {sh sh' : Shared} {memory memory' : Memory}
    (hcount : frames.frameCount = cfg.frameCount) (h : PageWrite cfg sh sh' memory frames memory')
    (hpages : ∀ i, i < cfg.frameCount → frames.frames memory i = sh.data i) :
    (∀ i, i < cfg.frameCount → frames.frames memory' i = sh'.data i) ∧
      ∀ address, ¬ frames.Maps address → memory' address = memory address := by
  cases h with
  | none hdata =>
      refine ⟨fun i hi => ?_, fun _ _ => rfl⟩
      rw [hdata]
      exact hpages i hi
  | @frame i page hi hdata =>
      rcases backs_write (hcount ▸ hi) page with ⟨hframes, hout⟩
      refine ⟨fun j hj => ?_, hout⟩
      rw [hframes, hdata]
      by_cases hsame : j = i
      · rw [hsame, update_self, update_self]
      · rw [update_of_ne hsame, update_of_ne hsame]
        exact hpages j hj

theorem Backs.next {x x' : ByteState} {l : ByteLabel} (hcount : frames.frameCount = cfg.frameCount)
    (h : Backs cfg frames x) (hs : x.next cfg frames l = some x') : Backs cfg frames x' := by
  cases l with
  | step a c =>
      rcases Option.map_eq_some_iff.mp hs with ⟨s, hnext, rfl⟩
      have hwrite := @pageWrite_next cfg frames x.state s a c x.memory h.reachable hnext
      rcases hwrite.backs hcount h.pages with ⟨hpages, hout⟩
      exact ⟨h.reachable.next hnext, hpages,
        fun address ho => (hout address ho).trans (h.others address ho)⟩
  | other address byte =>
      rcases Option.ite_none_left_eq_some.mp hs with ⟨hout, hs⟩
      cases hs
      refine ⟨h.reachable, fun i hi => ?_, fun address' ho => ?_⟩
      · refine (AlignedPool.frames_outside (fun address' hmaps => ?_) (hcount ▸ hi)).trans
          (h.pages i hi)
        exact update_of_ne (by rintro rfl; exact hout hmaps) _ _
      · change update x.memory address byte address' = update x.others address byte address'
        by_cases hsame : address' = address
        · rw [hsame, update_self, update_self]
        · rw [update_of_ne hsame, update_of_ne hsame]
          exact h.others address' ho

theorem backs_reachable {x : ByteState} (hcount : frames.frameCount = cfg.frameCount)
    (hr : Reachable (byteSystem cfg frames) x) : Backs cfg frames x := by
  refine reachable_invariant (M := byteSystem cfg frames) (I := Backs cfg frames) ?_
    (fun s l s' h hs => h.next hcount hs) hr
  rintro x ⟨budgets, hstate, hothers, hzero⟩
  refine ⟨ReachableVia.init ⟨budgets, hstate⟩, fun i hi => ?_, fun address _ => ?_⟩
  · rw [hstate]
    exact funext (fun byte => hzero _ (AlignedPool.maps_frame (hcount ▸ hi) byte))
  · rw [hothers]

/-- In every run a guard reads the latest bytes of its page through the pointer
    to its frame, and a byte outside of the mapping is what it would be without
    the manager. -/
theorem bytes_exact {mmap : (length : Nat) → Mapped length} {x : ByteState}
    (hnew : AlignedPool.new (cfg.frameCount * PAGE_SIZE) mmap = .ok frames)
    (hr : Reachable (byteSystem cfg frames) x) :
    (∀ a g, (x.state.pcs a).holding = some g →
      frames.readFrame x.memory g.index = some (x.state.shared.latest g.pid)) ∧
    ∀ address, ¬ frames.Maps address → x.memory address = x.others address := by
  have hcount : frames.frameCount = cfg.frameCount :=
    Nat.eq_of_mul_eq_mul_right (by decide) (AlignedPool.new_ok hnew).2
  have h := backs_reachable hcount hr
  refine ⟨fun a g hg => ?_, h.others⟩
  have hholds := (inv_reachable h.reachable).holds (role_at rfl) hg
  have hindex := hholds.occupies.index
  have hdata : x.state.shared.data g.index =
      x.state.shared.latest (x.state.shared.swips g.swip).pid := hholds.occupies.data
  rw [AlignedPool.readFrame_eq (hcount ▸ hindex), h.pages g.index hindex, hdata, hholds.page]

/-! ### A manager in a process -/

/-- A mapping that begins in the middle of a page. -/
def mmapAt (length : Nat) : Mapped length :=
  if h : 100000 + length ≤ 2 ^ 64 then .ok ⟨100000, h⟩
  else .error (.new .outOfMemory "out of memory")

/-- A page is filled with sevens, and somebody else writes below the
    mapping. -/
def writingBytes : List ByteLabel :=
  List.map (fun l => ByteLabel.step l.1 l.2)
    (allocation ++ [(0, { act := .write }), (0, { write := fun _ _ => 7 })]) ++ [.other 99999 5]

/-- The guard reads the sevens where the first frame is. -/
theorem bytes_exact_sevens : ∃ frames x g, frames.alignedStart = 131072 ∧
    Reachable (byteSystem sampleConfig frames) x ∧ (x.state.pcs 0).holding = some g ∧
    (x.state.shared.latest g.pid).first = 7 ∧
    frames.readFrame x.memory g.index = some (x.state.shared.latest g.pid) ∧
    x.memory 99999 = 5 := by
  have hrun : (AlignedPool.new (2 * PAGE_SIZE) mmapAt).toOption.bind (fun frames =>
      (exec (byteSystem sampleConfig frames)
        ⟨PoolState.initial sampleConfig (fun _ => none), fun _ => 0, fun _ => 0⟩
        writingBytes).bind (fun x => (x.state.pcs 0).holding.map (fun g =>
          (frames.alignedStart, (x.state.shared.latest g.pid).first, x.memory 99999)))) =
      some (131072, 7, 5) := by decide +kernel
  rcases Option.bind_eq_some_iff.mp hrun with ⟨frames, hnew, hrest⟩
  rcases Option.bind_eq_some_iff.mp hrest with ⟨x, hx, hrest⟩
  rcases Option.map_eq_some_iff.mp hrest with ⟨g, hg, hsees⟩
  simp only [Prod.mk.injEq] at hsees
  have hok : AlignedPool.new (sampleConfig.frameCount * PAGE_SIZE) mmapAt = .ok frames := by
    cases hpool : AlignedPool.new (2 * PAGE_SIZE) mmapAt with
    | error e =>
        rw [hpool] at hnew
        cases hnew
    | ok pool =>
        rw [hpool] at hnew
        cases hnew
        exact hpool
  have hr : Reachable (byteSystem sampleConfig frames) x :=
    reachable_exec _ _ _ (ReachableVia.init ⟨_, rfl, rfl, fun _ _ => rfl⟩) hx
  exact ⟨frames, x, g, hsees.1, hr, hg, hsees.2.1, (bytes_exact hok hr).1 0 g hg, hsees.2.2⟩

end TierBuf
