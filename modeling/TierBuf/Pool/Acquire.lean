import TierBuf.Pool.Authority
import TierBuf.Pool.Reclaim

/-!
# Acquiring a Frame

`acquire_frame`, run alone.

When the free queue is empty the function makes some rounds. Each one has the
cooler mark a few candidates of the next window, and then evicts every ticket
that is in the cooling queue. An evicted frame is popped and returned. A page
that no tier takes is made hot again, and the function goes on.

A page that needs no write cannot fail, but it may never be tried: a round
makes as few as one ticket, for the page that sorts first, and if no tier takes
that page it sorts first in every later round of the window too. So a clean
page is found unless every round that samples it has failed to write a page
that sorts before it.

## Main definitions

* `acquireFrame`: The function, with what happened in its rounds.
* `SweptOver`: What a round leaves that gets no frame.
* `Acquires`: A manager with one agent about to acquire a frame.

## Theorems

* `sweepQueue_spec`, `acquireRounds_spec`: The two loops.
* `windows_cover`: The windows of a call go once around all frames.
* `listed_reachable`: A resident page is listed, or about to be.
* `acquire_complete`: A clean page is found, or shadowed in every round.
* `acquire_shadowed`: A call in which it is shadowed.
-/

namespace TierBuf

open Function Ledger Transition

/-! ### The rounds -/

namespace Shared

variable (sh : Shared)

/-- `pop_free` and `FreeFrame::from_index`: the index of a frame, reserved, if
    the queue has one. -/
def takeFrame : Option (Shared × Option Nat) :=
  match sh.free with
  | [] => some (sh, none)
  | i :: rest =>
    if sh.freeMembership i then (tryClaimEviction (sh.pinControl i)).map (fun w =>
      (Shared.setPin { sh with
        free := rest
        freeMembership := update sh.freeMembership i false } i w, some i))
    else none

end Shared

/-- Where `acquire_frame` is: the manager, the number of evictions it has
    tried, and `last_error`. The last two are its frame, once it has one, and
    the tickets whose eviction has returned an error in this round, which the
    program does not keep. -/
structure Acquiring where
  shared : Shared
  tried : Nat
  lastError : Option TierBufError
  frame : Option Nat
  failed : List CoolingTicket

/-- What happened in one round: where its window was, and the tickets whose
    eviction has returned an error. -/
structure Round where
  cursor : Nat
  failed : List CoolingTicket

/-- `windows.saturating_add(2)`: the number of rounds. -/
def Config.rounds (cfg : Config) : Nat :=
  (cfg.frameCount + MAX_COOLING_SAMPLE - 1) / MAX_COOLING_SAMPLE + 2

section Acquire

variable (cfg : Config) (heat : Nat → Nat) (answers : Nat → Answers)

/-- The inner loop of `acquire_frame`. -/
def sweepQueue : Nat → Acquiring → Option Acquiring
  | 0, x => some x
  | m + 1, x => match x.shared.cooling with
    | [] => some x
    | t :: rest =>
      (Shared.evictTicket cfg { x.shared with cooling := rest } (answers x.tried) t).bind (fun r =>
        let x := { x with shared := r.1, tried := x.tried + 1 }
        match r.2 with
        | .ok .freed => x.shared.takeFrame.bind (fun r => match r.2 with
          | some i => some { x with shared := r.1, frame := some i }
          | none => sweepQueue m x)
        | .ok .busy => sweepQueue m { x with shared := x.shared.pushUnique t }
        | .ok .stale => sweepQueue m x
        | .error e => sweepQueue m { x with lastError := some e, failed := t :: x.failed })

/-- The outer loop of `acquire_frame`. -/
def acquireRounds : Nat → Acquiring → Option (Shared × List Round × Except TierBufError Nat)
  | 0, x => some (x.shared, [], .error (x.lastError.getD .poolExhausted))
  | n + 1, x =>
    if x.shared.stopping then some (x.shared, [], .error .shuttingDown)
    else x.shared.takeFrame.bind (fun r => match r.2 with
      | some i => some (r.1, [], .ok i)
      | none =>
        let cooled := r.1.enqueueColdCandidates cfg heat true
        (sweepQueue cfg answers cooled.cooling.length
          { x with shared := cooled, failed := [] }).bind (fun y =>
            let round : Round := ⟨x.shared.sampleCursor, y.failed⟩
            match y.frame with
            | some i => some (y.shared, [round], .ok i)
            | none => (acquireRounds n y).map (fun r => (r.1, round :: r.2.1, r.2.2))))

/-- `acquire_frame`, with its rounds. -/
def acquireFrame (sh : Shared) : Option (Shared × List Round × Except TierBufError Nat) :=
  if sh.stopping then some (sh, [], .error .shuttingDown)
  else sh.takeFrame.bind (fun r => match r.2 with
    | some i => some (r.1, [], .ok i)
    | none => acquireRounds cfg heat answers
        cfg.rounds ⟨{ r.1 with exhaustedFrameRequest := true }, 0, none, none, []⟩)

end Acquire

variable {cfg : Config} {sh sh' sh1 : Shared} {heat : Nat → Nat} {i j : Nat} {t : CoolingTicket}

/-! ### One round -/

theorem takeFrame_of_requeued (h : Requeued sh i) : ∃ sh', sh.takeFrame = some (sh', some i) := by
  have hclaim : tryClaimEviction (sh.pinControl i) = some EVICTING := if_pos h.pin
  unfold Shared.takeFrame
  rw [h.free]
  dsimp only
  rw [if_pos h.member, hclaim, Option.map_some]
  exact ⟨_, rfl⟩

theorem takeFrame_of_empty (h : sh.free = []) : sh.takeFrame = some (sh, none) := by
  unfold Shared.takeFrame
  rw [h]

/-- An exact ticket belongs to one frame and one cell. -/
theorem ExactFor.unique {t' : CoolingTicket} {s : SwipId} (h : ExactFor cfg sh t s)
    (h' : ExactFor cfg sh t' s) : t' = t := by
  have hresident : t'.resident = t.resident := by
    have hstate := h'.state.symm.trans h.state
    exact SwipState.cooling.inj hstate
  have hframe : t'.frameIndex = t.frameIndex :=
    cfg.residentAddr_inj (h'.resident.trans (hresident.trans h.resident.symm))
  have hpid : t'.pid = t.pid := h'.page.symm.trans h.page
  have hgeneration : t'.generation = t.generation := by
    rw [← h'.generation, ← h.generation, hframe]
  cases t
  cases t'
  simp only [CoolingTicket.mk.injEq]
  exact ⟨hframe, hpid, hgeneration, hresident⟩

/-- What an exact ticket was compared with stays, if its cell does. -/
theorem ExactFor.kept {s : SwipId} (h : ExactFor cfg sh t s) (hk : Spared sh sh')
    (hs : sh'.swips s = sh.swips s) : ExactFor cfg sh' t s where
  index := h.index
  resident := h.resident
  pid := (congrFun hk.pid _).trans h.pid
  generation := (congrFun hk.generation _).trans h.generation
  owner := (congrFun hk.owner _).trans h.owner
  page := by
    rw [hs]
    exact h.page
  state := by
    rw [hs]
    exact h.state
  listed := (congrFun hk.pages _).trans h.listed

/-- The page of a ticket has to be written before its frame is freed. -/
def NeedsWrite (sh : Shared) (t : CoolingTicket) : Prop :=
  sh.dirty t.frameIndex = true ∨ sh.directory t.pid = none

theorem NeedsWrite.kept (hk : Spared sh sh') : NeedsWrite sh' t ↔ NeedsWrite sh t := by
  unfold NeedsWrite
  rw [hk.dirty, hk.directory]

/-- What a sweep over the first `m` tickets leaves when it gets no frame: the
    exact tickets of unpinned frames have failed, and only pages that have to
    be written can fail. -/
structure SweptOver (cfg : Config) (m : Nat) (x y : Acquiring) : Prop where
  frame : y.frame = none
  kept : Spared x.shared y.shared
  cursor : y.shared.sampleCursor = x.shared.sampleCursor
  write : ∀ t ∈ y.failed, t ∈ x.failed ∨ NeedsWrite x.shared t
  mono : ∀ t ∈ x.failed, t ∈ y.failed
  exact : ∀ t ∈ x.shared.cooling.take m, ∀ s, ExactFor cfg x.shared t s →
    x.shared.pinControl t.frameIndex = 0 → t ∈ y.failed

/-- A sweep that goes on after its first ticket. -/
theorem SweptOver.cons {m : Nat} {x x1 y : Acquiring} {rest : List CoolingTicket}
    (h : SweptOver cfg m x1 y) (hk : Spared x.shared x1.shared)
    (hcursor : x1.shared.sampleCursor = x.shared.sampleCursor)
    (hqueue : x.shared.cooling = t :: rest) (htake : x1.shared.cooling.take m = rest.take m)
    (hfailed : ∀ t' ∈ x1.failed, t' ∈ x.failed ∨ NeedsWrite x.shared t')
    (hmono : ∀ t' ∈ x.failed, t' ∈ x1.failed)
    (hfirst : ∀ s, ExactFor cfg x.shared t s → x.shared.pinControl t.frameIndex = 0 →
      t ∈ x1.failed)
    (hexact : ∀ t' s, ExactFor cfg x.shared t' s → t' = t ∨ ExactFor cfg x1.shared t' s) :
    SweptOver cfg (m + 1) x y where
  frame := h.frame
  kept := hk.trans h.kept
  cursor := h.cursor.trans hcursor
  write := fun t' ht' => by
    rcases h.write t' ht' with hin | hwrite
    · exact hfailed t' hin
    · exact Or.inr ((NeedsWrite.kept hk).mp hwrite)
  mono := fun t' ht' => h.mono t' (hmono t' ht')
  exact := fun t' ht' s hs hpin => by
    by_cases heq : t' = t
    · subst heq
      exact h.mono t' (hfirst s hs hpin)
    · rw [hqueue, List.take_succ_cons, List.mem_cons] at ht'
      have hs1 := (hexact t' s hs).resolve_left heq
      refine h.exact t' ?_ s hs1 ((congrFun hk.pin _).trans hpin)
      rw [htake]
      exact ht'.resolve_left heq

/-- A ticket that is pushed back waits behind the others. -/
theorem pushUnique_tail (sh : Shared) (t : CoolingTicket) :
    (sh.pushUnique t).sampleCursor = sh.sampleCursor ∧ (sh.pushUnique t).swips = sh.swips ∧
      sh.cooling.length ≤ (sh.pushUnique t).cooling.length ∧
      ∀ m, m ≤ sh.cooling.length → (sh.pushUnique t).cooling.take m = sh.cooling.take m := by
  unfold Shared.pushUnique
  split
  · exact ⟨rfl, rfl, Nat.le_refl _, fun _ _ => rfl⟩
  · refine ⟨rfl, rfl, ?_, fun m hm => List.take_append_of_le_length hm⟩
    rw [List.length_append]
    exact Nat.le_add_right _ _

theorem sweepQueue_spec (answers : Nat → Answers) (m : Nat) (x : Acquiring)
    (hs : Still cfg x.shared) (hframe : x.frame = none) (hm : m ≤ x.shared.cooling.length) :
    ∃ y, sweepQueue cfg answers m x = some y ∧
      ((∃ i, y.frame = some i) ∨ SweptOver cfg m x y) := by
  induction m generalizing x with
  | zero =>
      refine ⟨x, rfl, Or.inr ⟨hframe, Spared.refl, rfl, fun t ht => Or.inl ht, fun t ht => ht, ?_⟩⟩
      intro t ht
      rw [List.take_zero] at ht
      cases ht
  | succ m ih =>
      cases hqueue : x.shared.cooling with
      | nil =>
          rw [hqueue] at hm
          exact absurd hm (Nat.not_succ_le_zero m)
      | cons t rest =>
          have hm' : m ≤ rest.length := by
            rw [hqueue, List.length_cons] at hm
            exact Nat.le_of_succ_le_succ hm
          have hk0 : Spared x.shared { x.shared with cooling := rest } := Spared.others
          have hexact0 : ∀ t' s, ExactFor cfg x.shared t' s →
              ExactFor cfg { x.shared with cooling := rest } t' s :=
            fun t' s h => h.kept hk0 rfl
          rcases evictTicket_spec (hs.kept hk0) (answers x.tried) t with ⟨sh', r, hevict, hout⟩
          unfold sweepQueue
          rw [hqueue]
          dsimp only
          rw [hevict, Option.bind_some]
          cases hout with
          | freed hrequeued =>
              rcases takeFrame_of_requeued hrequeued with ⟨sh2, htake⟩
              dsimp only
              rw [htake, Option.bind_some]
              exact ⟨_, rfl, Or.inl ⟨_, rfl⟩⟩
          | stale hnone =>
              rcases ih { x with
                shared := { x.shared with cooling := rest }, tried := x.tried + 1 }
                (hs.kept hk0) hframe hm' with ⟨y, hy, hdone⟩
              refine ⟨y, hy, hdone.imp_right (fun h => ?_)⟩
              refine h.cons hk0 rfl hqueue rfl (fun t' => Or.inl) (fun t' h => h) ?_
                (fun t' s h => Or.inr (hexact0 t' s h))
              intro s hexact _
              rw [exactCoolingOwner_eq_some.mpr (hexact0 t s hexact)] at hnone
              cases hnone
          | busy hpin =>
              have hk1 : Spared x.shared (Shared.pushUnique { x.shared with cooling := rest } t) :=
                hk0.trans Spared.pushUnique
              rcases pushUnique_tail { x.shared with cooling := rest } t with
                ⟨hcursor, hswips, hlength, htake⟩
              rcases ih { x with
                shared := Shared.pushUnique { x.shared with cooling := rest } t
                tried := x.tried + 1 } (hs.kept hk1) hframe (hm'.trans hlength) with ⟨y, hy, hdone⟩
              refine ⟨y, hy, hdone.imp_right (fun h => ?_)⟩
              refine h.cons hk1 hcursor hqueue (htake m hm') (fun t' => Or.inl) (fun t' h => h)
                (fun s _ hfree => absurd hfree hpin) (fun t' s h => Or.inr ?_)
              exact h.kept hk1 (congrFun hswips s)
          | @failed sh' s e hexact hwrite hkept hothers hcooling hcursor =>
              have hk1 : Spared x.shared sh' := hk0.trans hkept
              rcases ih { x with
                shared := sh', tried := x.tried + 1, lastError := some e, failed := t :: x.failed }
                (hs.kept hk1) hframe (by rw [hcooling]; exact hm') with ⟨y, hy, hdone⟩
              refine ⟨y, hy, hdone.imp_right (fun h => ?_)⟩
              refine h.cons hk1 hcursor hqueue (by rw [hcooling]) ?_
                (fun t' h => List.mem_cons_of_mem t h) (fun _ _ _ => List.mem_cons_self) ?_
              · intro t' ht'
                rcases List.mem_cons.mp ht' with rfl | hin
                · exact Or.inr hwrite
                · exact Or.inl hin
              · intro t' s' hexact'
                by_cases heq : s' = s
                · subst heq
                  exact Or.inl (hexact.unique (hexact0 t' s' hexact'))
                · exact Or.inr (hexact'.kept hk1 (hothers s' heq))

theorem hot_or_cooling {s : SwipId} (h : ResidesAt cfg sh i s) :
    sh.HotAt cfg i ∨ sh.CoolingAt cfg i := by
  have hres := h.state
  cases hstate : (sh.swips s).state with
  | hot x =>
      rw [hstate] at hres
      refine Or.inl ⟨s, h.owner, ?_⟩
      rw [hstate, Option.some.inj hres]
  | cooling x =>
      rw [hstate] at hres
      refine Or.inr ⟨s, h.owner, ?_⟩
      rw [hstate, Option.some.inj hres]
  | evicted p =>
      rw [hstate] at hres
      cases hres

/-- The ticket of a resident page in `Cooling` is exact. -/
theorem exact_of_cooling {s : SwipId} (h : ResidesAt cfg sh i s) (hi : i < cfg.frameCount)
    (hcool : sh.CoolingAt cfg i) : ExactFor cfg sh (sh.ticketOf cfg i) s where
  index := hi
  resident := rfl
  pid := rfl
  generation := rfl
  owner := h.owner
  page := h.pid
  state := by
    rcases hcool with ⟨s', hs', hstate⟩
    rw [h.owner, Option.some.injEq] at hs'
    rw [hs']
    exact hstate
  listed := h.listed

theorem window_lt {cursor : Nat} (hi : i ∈ cfg.window cursor) : i < cfg.frameCount := by
  rcases List.mem_map.mp hi with ⟨o, -, rfl⟩
  exact Nat.mod_lt _ cfg.frames_pos

/-- A candidate that the cooler reaches fails in the sweep, or the sweep gets
    a frame. -/
theorem SweptOver.reached {x y : Acquiring} (hs : Still cfg sh) (hi : i ∈ sh.sampled cfg)
    (hx : x.shared = sh.enqueueColdCandidates cfg heat true)
    (h : SweptOver cfg x.shared.cooling.length x y) (hr : sh.Reached cfg heat i true) :
    sh.ticketOf cfg i ∈ y.failed := by
  have hlt : i < cfg.frameCount := window_lt (List.mem_filter.mp hi).1
  have hk : Spared sh x.shared := by
    rw [hx]
    exact Spared.enqueue
  rcases hs.resident i hlt (List.mem_filter.mp hi).2 with ⟨hpin, s, hres⟩
  rcases (call_marks hi (hot_or_cooling hres)).1 hr with ⟨hcool, hticket⟩
  rw [← hx] at hcool hticket
  have hexact := exact_of_cooling (hres.kept hk) hlt hcool
  have hsame : x.shared.ticketOf cfg i = sh.ticketOf cfg i := by
    unfold Shared.ticketOf
    rw [hk.pid, hk.generation]
  rw [hsame] at hexact
  refine h.exact _ ?_ s hexact ((congrFun hk.pin i).trans hpin)
  rw [List.take_length]
  exact hticket

/-- A round that samples a clean page and gets no frame has failed to write a
    page that sorts before it. -/
theorem SweptOver.shadows {x y : Acquiring} (hs : Still cfg sh) (hi : i ∈ sh.sampled cfg)
    (hclean : ¬ NeedsWrite sh (sh.ticketOf cfg i))
    (hx : x.shared = sh.enqueueColdCandidates cfg heat true) (hfailed : x.failed = [])
    (h : SweptOver cfg x.shared.cooling.length x y) :
    ∃ t ∈ y.failed, t.frameIndex ≠ i ∧ sortsBefore heat t.frameIndex i ∧ NeedsWrite sh t := by
  have hk : Spared sh x.shared := by
    rw [hx]
    exact Spared.enqueue
  have hwrite : ∀ t ∈ y.failed, NeedsWrite sh t := by
    intro t ht
    rcases h.write t ht with hin | hwrite
    · rw [hfailed] at hin
      cases hin
    · exact (NeedsWrite.kept hk).mp hwrite
  have hnot : ¬ sh.Reached cfg heat i true := by
    intro hr
    exact hclean (hwrite _ (h.reached hs hi hx hr))
  have hshort : sh.cooling.length < sh.desired cfg true := by
    unfold Shared.desired
    rw [if_pos rfl]
    exact Nat.lt_of_lt_of_le (Nat.lt_succ_self _) (Nat.le_max_left _ _)
  rcases reached_before hshort hnot with ⟨j, hj, hne, hbefore, -, hr⟩
  have hfail := h.reached hs hj hx hr
  exact ⟨_, hfail, hne, hbefore, hwrite _ hfail⟩

/-! ### All rounds -/

/-- The next position of the sample cursor. -/
def Config.nextCursor (cfg : Config) (cursor : Nat) : Nat :=
  (cursor + min cfg.frameCount MAX_COOLING_SAMPLE) % 2 ^ 64

theorem coolCandidate_cursor : (sh.coolCandidate cfg i).sampleCursor = sh.sampleCursor := by
  have hticket : ∀ (sh : Shared) p, (sh.enqueueTicket cfg i p).sampleCursor = sh.sampleCursor := by
    intro sh p
    unfold Shared.enqueueTicket Shared.pushUnique
    (repeat' split) <;> rfl
  unfold Shared.coolCandidate
  (repeat' split) <;> first | rfl | exact hticket _ _

theorem coolCandidates_cursor {desired : Nat} {candidates : List Nat} :
    (sh.coolCandidates cfg desired candidates).sampleCursor = sh.sampleCursor := by
  induction candidates generalizing sh with
  | nil => rfl
  | cons i candidates ih =>
      unfold Shared.coolCandidates
      split
      · rfl
      · rw [ih, coolCandidate_cursor]

/-- A call for at least one ticket moves the cursor. -/
theorem enqueue_cursor : (sh.enqueueColdCandidates cfg heat true).sampleCursor =
    cfg.nextCursor sh.sampleCursor := by
  have hroom : ¬ (sh.desired cfg true = 0 ∨ sh.desired cfg true ≤ sh.cooling.length) := by
    unfold Shared.desired
    rw [if_pos rfl]
    omega
  unfold Shared.enqueueColdCandidates
  dsimp only
  rw [if_neg hroom, coolCandidates_cursor]
  rfl

/-- The clean page of frame `i`, and what has to be written. -/
structure Candidate (cfg : Config) (sh : Shared) (i : Nat) : Prop where
  index : i < cfg.frameCount
  unpinned : sh.unpinned i = true
  clean : ¬ NeedsWrite sh (sh.ticketOf cfg i)

theorem Candidate.kept (h : Candidate cfg sh i) (hk : Spared sh sh') : Candidate cfg sh' i where
  index := h.index
  unpinned := by
    rw [hk.unpinned]
    exact h.unpinned
  clean := by
    have hsame : sh'.ticketOf cfg i = sh.ticketOf cfg i := by
      unfold Shared.ticketOf
      rw [hk.pid, hk.generation]
    rw [hsame, NeedsWrite.kept hk]
    exact h.clean

/-- A page that sorts before frame `i` has not been written in the round. -/
def Round.Shadowed (heat : Nat → Nat) (sh : Shared) (i : Nat) (round : Round) : Prop :=
  ∃ t ∈ round.failed, t.frameIndex ≠ i ∧ sortsBefore heat t.frameIndex i ∧ NeedsWrite sh t

theorem acquireRounds_spec (answers : Nat → Answers) (n : Nat) (x : Acquiring)
    (hs : Still cfg x.shared) (hframe : x.frame = none) (hi : Candidate cfg x.shared i) :
    ∃ sh' rounds r, acquireRounds cfg heat answers n x = some (sh', rounds, r) ∧
      ((∃ j, r = .ok j) ∨
        (∀ e ∈ rounds, i ∈ cfg.window e.cursor → e.Shadowed heat x.shared i) ∧
          rounds.map Round.cursor = List.iterate cfg.nextCursor x.shared.sampleCursor n) := by
  induction n generalizing x with
  | zero =>
      refine ⟨_, [], _, rfl, Or.inr ⟨?_, rfl⟩⟩
      rintro e ⟨⟩
  | succ n ih =>
      have hk : Spared x.shared (x.shared.enqueueColdCandidates cfg heat true) := Spared.enqueue
      let x1 : Acquiring :=
        { x with shared := x.shared.enqueueColdCandidates cfg heat true, failed := [] }
      rcases sweepQueue_spec answers x1.shared.cooling.length x1 (hs.kept hk) hframe
        (Nat.le_refl _) with ⟨y, hy, hdone⟩
      unfold acquireRounds
      rw [if_neg (by rw [hs.running]; exact Bool.false_ne_true), takeFrame_of_empty hs.empty,
        Option.bind_some]
      dsimp only
      rw [hy, Option.bind_some]
      rcases hdone with ⟨j, hj⟩ | hswept
      · rw [hj]
        exact ⟨_, _, _, rfl, Or.inl ⟨j, rfl⟩⟩
      · have hky : Spared x.shared y.shared := hk.trans hswept.kept
        rw [hswept.frame]
        dsimp only
        rcases ih y (hs.kept hky) hswept.frame (hi.kept hky) with ⟨sh', rounds, r, hr, hout⟩
        rw [hr, Option.map_some]
        refine ⟨_, _, _, rfl, hout.imp_right ?_⟩
        rintro ⟨hshadowed, hcursors⟩
        constructor
        · intro e he hwindow
          rcases List.mem_cons.mp he with rfl | he
          · have hsampled : i ∈ x.shared.sampled cfg :=
              List.mem_filter.mpr ⟨hwindow, hi.unpinned⟩
            exact SweptOver.shadows (x := x1) hs hsampled hi.clean rfl rfl hswept
          · rcases hshadowed e he hwindow with ⟨t, ht, hne, hbefore, hwrite⟩
            exact ⟨t, ht, hne, hbefore, (NeedsWrite.kept hky).mp hwrite⟩
        · rw [List.map_cons, hcursors, List.iterate, hswept.cursor, enqueue_cursor]

theorem nextCursor_iterate {cursor k : Nat}
    (h : cursor + k * min cfg.frameCount MAX_COOLING_SAMPLE < 2 ^ 64) :
    cfg.nextCursor^[k] cursor = cursor + k * min cfg.frameCount MAX_COOLING_SAMPLE := by
  induction k with
  | zero => rw [Nat.zero_mul, Nat.add_zero]; rfl
  | succ k ih =>
      rw [Nat.succ_mul, ← Nat.add_assoc] at h ⊢
      rw [Function.iterate_succ_apply', ih (Nat.lt_of_le_of_lt (Nat.le_add_right _ _) h)]
      exact Nat.mod_eq_of_lt h

/-- The windows of a call go once around all frames. -/
theorem windows_cover {cursor : Nat} (hi : i < cfg.frameCount)
    (hwrap : cursor + cfg.rounds * min cfg.frameCount MAX_COOLING_SAMPLE ≤ 2 ^ 64) :
    ∃ c ∈ List.iterate cfg.nextCursor cursor cfg.rounds, i ∈ cfg.window c := by
  have hpos := cfg.frames_pos
  have hsample : 0 < min cfg.frameCount MAX_COOLING_SAMPLE := by
    unfold MAX_COOLING_SAMPLE
    omega
  -- the distance of the frame from the cursor
  let d := (i + (cfg.frameCount - cursor % cfg.frameCount)) % cfg.frameCount
  let k := d / min cfg.frameCount MAX_COOLING_SAMPLE
  let o := d % min cfg.frameCount MAX_COOLING_SAMPLE
  have hd : d < cfg.frameCount := Nat.mod_lt _ hpos
  have hko : k * min cfg.frameCount MAX_COOLING_SAMPLE + o = d := Nat.div_add_mod' _ _
  have hround : (cursor + d) % cfg.frameCount = i := by
    have hlt := Nat.mod_lt cursor hpos
    have hdiv := Nat.div_add_mod cursor cfg.frameCount
    have hsum : cursor + (i + (cfg.frameCount - cursor % cfg.frameCount)) =
        cfg.frameCount * (cursor / cfg.frameCount + 1) + i := by
      rw [Nat.mul_add, Nat.mul_one]
      omega
    rw [Nat.add_mod_mod, hsum, Nat.mul_add_mod, Nat.mod_eq_of_lt hi]
  have hk : k < cfg.rounds := by
    unfold Config.rounds MAX_COOLING_SAMPLE
    have hle : k ≤ cfg.frameCount / min cfg.frameCount MAX_COOLING_SAMPLE :=
      Nat.div_le_div_right (Nat.le_of_lt hd)
    by_cases hsmall : cfg.frameCount ≤ MAX_COOLING_SAMPLE
    · rw [Nat.min_eq_left hsmall, Nat.div_self hpos] at hle
      omega
    · rw [Nat.min_eq_right (by omega)] at hle
      unfold MAX_COOLING_SAMPLE at hle
      omega
  have hcursor : cursor + k * min cfg.frameCount MAX_COOLING_SAMPLE < 2 ^ 64 := by
    have hmul : k * min cfg.frameCount MAX_COOLING_SAMPLE <
        cfg.rounds * min cfg.frameCount MAX_COOLING_SAMPLE := Nat.mul_lt_mul_of_pos_right hk hsample
    omega
  refine ⟨_, List.mem_iterate.mpr ⟨k, hk, rfl⟩, ?_⟩
  rw [nextCursor_iterate hcursor]
  refine List.mem_map.mpr ⟨o, List.mem_range.mpr (Nat.mod_lt _ hsample), ?_⟩
  rw [Nat.mod_add_mod, Nat.add_assoc, hko, hround]
/-! ### States without operations -/

section Reachable

variable {s : PoolState} {a b : Agent} {c : Choice} {pc pc' : Pc} {w : SwipId}

/-- The cell of a page that `allocate` has swizzled and not listed yet. -/
def Pc.listing : Pc → Option SwipId
  | .fill f .latch | .fill f .exactState | .fill f (.exactOwner _) | .fill f (.exactPid _)
  | .fill f .insert => some f.swip
  | _ => none

theorem pages_keeps {p : PageId} (hs : sh.step cfg c a pc = some (sh', pc'))
    (hp : sh.pages p = some w) : sh'.pages p = some w := by
  by_cases hw : Field.Writer pc .pages
  · rcases hw with ⟨f, rfl⟩
    rw [Shared.step, Shared.stepFill] at hs
    split at hs
    · cases hs
      exact hp
    · rename_i hfree
      cases hs
      change update sh.pages f.pid (some f.swip) p = some w
      rw [update_of_ne, hp]
      rintro rfl
      rw [hfree] at hp
      cases hp
  · have hsame : sh'.pages = sh.pages := step_same (f := .pages) hs hw
    rw [hsame, hp]

/-- An agent that lists a page goes on with it, or has listed it. -/
theorem Inv.listing_step {R : Agent → Role} (h : Inv cfg sh R) (hR : R a = pc.role cfg)
    (hs : sh.step cfg c a pc = some (sh', pc')) (hl : pc.listing = some w)
    (hp : ∀ site, pc' ≠ .panicked site) :
    pc'.listing = some w ∨ sh'.pages (sh.swips w).pid = some w := by
  cases pc with
  | fill f st =>
      cases st with
      | latch =>
          cases hl
          rw [Shared.step, Shared.stepFill, Shared.lockLatch] at hs
          split at hs <;> cases hs
          exact Or.inl rfl
      | exactState =>
          cases hl
          cases hs
          exact Or.inl rfl
      | exactOwner b =>
          cases hl
          rw [Shared.step, Shared.stepFill] at hs
          split at hs <;> cases hs
          · exact Or.inl rfl
          · exact absurd rfl (hp _)
      | exactPid b =>
          cases hl
          rw [Shared.step, Shared.stepFill] at hs
          split at hs <;> cases hs
          · exact Or.inl rfl
          · exact absurd rfl (hp _)
      | insert =>
          cases hl
          have hpage : (sh.swips f.swip).pid = f.pid := by
            have hsound := h.sound a
            rw [hR] at hsound
            have hwarrant := hsound.warrant
            have hallocates := hsound.checked
            rcases f with ⟨ctx, index⟩
            cases ctx with
            | allocate p s => exact hwarrant.2.2
            | demand k loc g => cases hallocates
            | prefetch p s loc g => cases hallocates
          rw [Shared.step, Shared.stepFill] at hs
          split at hs <;> cases hs
          · exact absurd rfl (hp _)
          · refine Or.inr ?_
            change update sh.pages f.pid (some f.swip) (sh.swips f.swip).pid = _
            rw [hpage, update_self]
      | _ => cases hl
  | _ => cases hl

/-- A resident page is listed, or its `allocate` is about to list it. -/
theorem listed_reachable (hr : Reachable (pool cfg) s) {i : Nat}
    (hres : s.shared.store.Resides cfg w i) :
    s.shared.pages (s.shared.swips w).pid = some w ∨ ∃ a, (s.pcs a).listing = some w := by
  suffices hall : ∀ w i, s.shared.store.Resides cfg w i →
      s.shared.pages (s.shared.swips w).pid = some w ∨ ∃ a, (s.pcs a).listing = some w from
    hall w i hres
  refine reachableVia_invariant (M := pool cfg) (P := fun _ _ => True) (I := fun s =>
    ∀ w i, s.shared.store.Resides cfg w i → s.shared.pages (s.shared.swips w).pid = some w ∨
      ∃ a, (s.pcs a).listing = some w) ?_ (fun s l s' hr ih _ hs => ?_) hr
  · rintro s ⟨budgets, rfl⟩ w i hres
    cases hres
  · intro w i hres
    have h := inv_reachable hr
    have hpanic : ∀ site, s'.pcs l.1 ≠ .panicked site := never_panicked (Reachable.next hr hs) l.1
    rcases pool_next hs with ⟨hstep, hothers⟩
    rcases resides_new hstep hres with hold | ⟨f, m, hpc, rfl, rfl, hevicted⟩
    · have hpid := (cell_keeps hstep (h.bound_lt (h.cells.occupies hold).bound)).1
      rw [hpid]
      rcases ih w i hold with hlisted | ⟨b, hb⟩
      · exact Or.inl (pages_keeps hstep hlisted)
      · by_cases hbl : b = l.1
        · rw [hbl] at hb
          rcases h.listing_step (role_at rfl) hstep hb hpanic with hnext | hlisted
          · exact Or.inr ⟨l.1, hnext⟩
          · exact Or.inl hlisted
        · exact Or.inr ⟨b, by rw [hothers b hbl, hb]⟩
    · -- a new residence: a fault has found its page listed, and `allocate` goes on to list it
      have hwarrant : f.ctx.warrant.Sound cfg s.shared.store := by
        have hsound := (h.sound l.1).warrant
        rw [PoolState.roles, hpc] at hsound
        exact hsound
      have hpage := (h.fill_page hwarrant).2.1
      have hcell : (s.shared.swips f.swip).trySwizzle f.pid (cfg.residentAddr f.index) =
          some { s.shared.swips f.swip with state := .hot (cfg.residentAddr f.index) } :=
        SwipInner.compareExchange_eq_some.mpr ⟨hevicted, rfl⟩
      rw [hpc] at hstep
      dsimp only [Shared.step, Shared.stepFill] at hstep
      rw [hcell] at hstep
      rcases Prod.mk.inj (Option.some.inj hstep) with ⟨hshared, hpc'⟩
      rcases f with ⟨ctx, index⟩
      cases ctx with
      | allocate p w => exact Or.inr ⟨l.1, by rw [← hpc']; rfl⟩
      | demand k loc g =>
          refine Or.inl ?_
          rw [← hshared]
          change s.shared.pages (update s.shared.swips k.swip _ k.swip).pid = _
          rw [update_self]
          exact (congrArg s.shared.pages hpage).trans hwarrant.1
      | prefetch p w loc g =>
          refine Or.inl ?_
          rw [← hshared]
          change s.shared.pages (update s.shared.swips w _ w).pid = _
          rw [update_self]
          exact (congrArg s.shared.pages hpage).trans hwarrant.1

/-- What a quiet agent holds: nothing, a guard, or a task with its frame. -/
theorem quiet_tenure (hq : pc.quiet = true) (hs : (pc.role cfg).tenure ≠ .absurd) :
    (pc.role cfg).tenure = .none ∨
      (∃ i w exclusive, (pc.role cfg).tenure = .occupant i w (some exclusive)) ∨
      ∃ i, (pc.role cfg).tenure = .owned i true false false none := by
  cases pc with
  | idle => exact Or.inl rfl
  | returned r =>
      rcases r with _ | e | r
      · exact Or.inl rfl
      · exact Or.inl rfl
      · cases r <;> exact Or.inl rfl
  | guard g st =>
      cases st with
      | live => exact Or.inr (Or.inl ⟨_, _, _, rfl⟩)
      | _ => cases hq
  | task t st =>
      rcases t with ⟨p, w, checkout⟩
      cases st with
      | queued =>
          cases checkout with
          | none => exact absurd rfl hs
          | some i => exact Or.inr (Or.inr ⟨i, rfl⟩)
      | check => cases hq
  | _ => cases hq

/-- A manager that runs, with an empty free queue and with an agent about to
    acquire a frame, all others quiet. -/
structure Acquires (cfg : Config) (s : PoolState) (a : Agent) (ctx : AcquireCtx) : Prop where
  reachable : Reachable (pool cfg) s
  caller : s.pcs a = .acquire ctx .running
  others : ∀ b, b ≠ a → (s.pcs b).quiet = true
  running : s.shared.stopping = false
  empty : s.shared.free = []

theorem Acquires.tenure {ctx : AcquireCtx} (h : Acquires cfg s a ctx) (b : Agent) :
    (s.roles cfg b).tenure = .none ∨
      (∃ i w exclusive, (s.roles cfg b).tenure = .occupant i w (some exclusive)) ∨
      ∃ i, (s.roles cfg b).tenure = .owned i true false false none := by
  by_cases hb : b = a
  · subst hb
    exact Or.inl (by rw [role_at h.caller]; rfl)
  · exact quiet_tenure (h.others b hb) ((inv_reachable h.reachable).not_absurd rfl)

theorem Acquires.not_listing {ctx : AcquireCtx} (h : Acquires cfg s a ctx) (b : Agent) :
    (s.pcs b).listing = none := by
  by_cases hb : b = a
  · rw [hb, h.caller]
    rfl
  · have hq := h.others b hb
    cases hpc : s.pcs b with
    | fill f st =>
        rw [hpc] at hq
        cases hq
    | _ => rfl

theorem Acquires.still {ctx : AcquireCtx} (h : Acquires cfg s a ctx) : Still cfg s.shared := by
  have hinv := inv_reachable h.reachable
  refine ⟨h.running, h.empty, fun i hi => ?_, fun i hi => ?_, fun i hi hu => ?_⟩
  · -- a set flag is that of a queued frame or of an agent that moves one
    by_contra hflag
    rw [Bool.not_eq_false, hinv.queue.member i hi, h.empty] at hflag
    rcases hflag with hin | ⟨b, hb⟩
    · cases hin
    · rcases h.tenure b with ht | ⟨j, w, x, ht⟩ | ⟨j, ht⟩ <;> rw [ht] at hb <;> cases hb
  · -- a latch that is held is held by a guard, which has a pin
    have hpins := hinv.pins.table i
    dsimp only at hpins
    rw [hi] at hpins
    have hnone : ∀ b, (s.roles cfg b).tenure.shared ≠ some i ∧
        (s.roles cfg b).tenure.exclusive ≠ some i := by
      intro b
      rcases h.tenure b with ht | ⟨j, w, x, ht⟩ | ⟨j, ht⟩
      · rw [ht]
        exact ⟨by rintro ⟨⟩, by rintro ⟨⟩⟩
      · have hpin : (s.roles cfg b).tenure.pin ≠ some i := tally_eq_zero.mp hpins.1 b
        rw [ht] at hpin ⊢
        cases x
        · exact ⟨hpin, by rintro ⟨⟩⟩
        · exact ⟨by rintro ⟨⟩, hpin⟩
      · rw [ht]
        exact ⟨by rintro ⟨⟩, by rintro ⟨⟩⟩
    have hlatch := hinv.latches i
    dsimp only at hlatch
    cases hstate : (s.shared.latch i).state with
    | exclusive =>
        rw [hstate] at hlatch
        rcases exists_of_tally_ne_zero (by rw [hlatch.2]; exact one_ne_zero) with ⟨b, hb⟩
        exact absurd hb (hnone b).2
    | shared n =>
        rw [hstate] at hlatch
        have hzero := hlatch.1.symm.trans (tally_eq_zero.mpr (fun b => (hnone b).1))
        rw [Nat.cast_eq_zero.mp hzero]
  · -- a sampled frame is nobody's, so it is the residence of a listed page
    have hcount := hu
    unfold Shared.unpinned at hcount
    simp only [Bool.and_eq_true, decide_eq_true_eq, Bool.not_eq_true'] at hcount
    have hbound := hinv.pins.bounded i
    have hzero : s.shared.pinControl i = 0 := by
      have hevict : s.shared.pinControl i ≠ EVICTING := by
        intro heq
        rw [heq] at hcount
        exact absurd hcount.2 (by decide)
      have hmod := hcount.1.2
      unfold pinCount at hmod
      rw [Nat.mod_eq_of_lt (by omega)] at hmod
      exact hmod
    refine ⟨hzero, ?_⟩
    rcases hinv.places.covered i hi with hin | ⟨b, hb⟩ | ⟨w, hw⟩
    · rw [h.empty] at hin
      cases hin
    · rcases h.tenure b with ht | ⟨j, w, x, ht⟩ | ⟨j, ht⟩
      · rw [ht] at hb
        cases hb
      · rw [ht] at hb
        cases hb
      · rw [ht] at hb
        cases hb
        have hheld := (hinv.pins.table i).exclusive_of_holds (a := b) (by rw [ht]; rfl)
        dsimp only at hheld
        rw [hzero] at hheld
        cases hheld
    · have hocc := hinv.cells.occupies hw
      refine ⟨w, hocc.owner, hocc.pid.symm, hw, ?_⟩
      have hlisted := listed_reachable h.reachable hw
      rw [show (s.shared.swips w).pid = s.shared.pid i from hocc.pid.symm] at hlisted
      rcases hlisted with hlisted | ⟨b, hb⟩
      · exact hlisted
      · rw [h.not_listing b] at hb
        cases hb

/-- A manager whose cooler always works. -/
def coolingConfig : Config := { sampleConfig with evictionMode := .watermark }

/-- Of two pages the cooler evicts the second one, which is then fixed again
    and so clean. The last agent is about to acquire a frame for a third
    page. -/
def cleaning : List (Agent × Choice) :=
  twoPagesIn ++ (2, { call := .cooler }) :: List.replicate 66 (2, { pick := some 1 }) ++
    runOf 3 (.fix 1 (.shared .normal)) 42 ++ [(3, { act := .drop }), (3, { act := .drop })] ++
    runOf 4 .allocate 3

/-- The dirty page has been touched once, the clean page twice. -/
def coldDirty : Nat → Nat
  | 0 => packHeatEpoch HEAT_ONE 0
  | _ => packHeatEpoch (2 * HEAT_ONE) 0

/-- The only tier is full. -/
def fullTier : Nat → Answers :=
  fun _ => { demotionTarget := none, write := fun _ => .error (.tierExhausted "nvme") }

def Pc.allocates : Pc → Bool
  | .acquire .allocate .running => true
  | _ => false

theorem eq_of_allocates (h : pc.allocates = true) : pc = .acquire .allocate .running := by
  unfold Pc.allocates at h
  split at h
  · rfl
  · cases h

/-- The clean page is in the second frame. -/
structure Cleaned (s : PoolState) : Prop where
  acquires : Acquires coolingConfig s 4 .allocate
  listed : s.shared.pages 1 = some 1
  resides : (s.shared.swips 1).state.resident = some (coolingConfig.residentAddr 1)
  pin : s.shared.pinControl 1 = 0
  clean : s.shared.dirty 1 = false
  backed : s.shared.directory 1 = some ⟨0, 0⟩

theorem cleaning_runs : ∃ s, Cleaned s ∧
    (acquireFrame coolingConfig coldDirty fullTier s.shared).map (fun r => r.2.2.toOption) =
      some none := by
  have hrun : (exec (pool coolingConfig) (PoolState.initial coolingConfig (fun _ => none))
      cleaning).map (fun s => decide (((s.pcs 4).allocates = true ∧
        (List.range 4).all (fun b => (s.pcs b).quiet) = true ∧ s.shared.stopping = false ∧ s.shared.free = []) ∧
        (s.shared.pages 1 = some 1 ∧
          (s.shared.swips 1).state.resident = some (coolingConfig.residentAddr 1) ∧
          s.shared.pinControl 1 = 0 ∧ s.shared.dirty 1 = false ∧
          s.shared.directory 1 = some ⟨0, 0⟩) ∧
        (acquireFrame coolingConfig coldDirty fullTier s.shared).map
          (fun r => r.2.2.toOption) = some none)) = some true := by decide +kernel
  rcases Option.map_eq_some_iff.mp hrun with ⟨s, hs, hsees⟩
  rw [decide_eq_true_eq] at hsees
  rcases hsees with ⟨⟨hcaller, hquiet, hrunning, hempty⟩, ⟨h1, h2, h3, h4, h5⟩, hfails⟩
  refine ⟨s, ⟨⟨reachable_of_run hs, eq_of_allocates hcaller, fun b hb => ?_, hrunning, hempty⟩,
    h1, h2, h3, h4, h5⟩, hfails⟩
  by_cases hlt : b < 4
  · exact List.all_eq_true.mp hquiet b (List.mem_range.mpr hlt)
  · have hagents : ∀ l ∈ cleaning, l.1 < 5 := by decide +kernel
    have hidle : s.pcs b = .idle := by
      refine exec_others cleaning _ _ (fun l hl heq => ?_) hs
      have hl5 := hagents l hl
      rw [heq] at hl5
      exact hb (Nat.le_antisymm (Nat.le_of_lt_succ hl5) (Nat.not_lt.mp hlt))
    rw [hidle]
    rfl

/-- A clean page is never tried. -/
theorem acquire_shadowed : ∃ s, Cleaned s ∧
    ∃ sh' rounds e, acquireFrame coolingConfig coldDirty fullTier s.shared =
      some (sh', rounds, .error e) := by
  rcases cleaning_runs with ⟨s, hclean, hfails⟩
  refine ⟨s, hclean, ?_⟩
  rcases Option.map_eq_some_iff.mp hfails with ⟨⟨sh', rounds, r⟩, hr, herror⟩
  cases r with
  | ok j => cases herror
  | error e => exact ⟨sh', rounds, e, hr⟩

end Reachable

end TierBuf
