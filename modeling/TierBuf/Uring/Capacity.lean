import TierBuf.Uring.Completion

/-!
# Ring Capacity

How many requests are in flight.

`submit_pending` is limited by the free submission slots, and a successful
enter empties all of them while it waits for one completion only. So each turn
of the worker can put a full queue on top of what is still in flight, and the
map outgrows the ring. It stays within the ring exactly as long as no more
requests have reached the worker than the ring has entries.

## Main definitions

* `SubmitFits`: A call of `submit_pending` finds at most a ring of requests.

## Theorems

* `inflight_le_entries`: Then the map stays within the ring.
* `inflight_exceeds_entries`: Otherwise it need not.
-/

namespace TierBuf

open Function Ledger Transition

namespace Uring

variable {cfg : RingConfig} {s s' : RingState} {e e' : Engine} {w w' : WorkerPc}

/-- Where the worker calls `submit_pending`, the requests it has received and
    not answered fit into the ring. -/
def SubmitFits (cfg : RingConfig) (s : RingState) : Mover → Prop
  | .worker _ => s.worker = .drain → s.engine.channel = [] →
      s.engine.pending.length + s.engine.inflight.length ≤ cfg.entries
  | _ => True

instance (cfg : RingConfig) (s : RingState) (m : Mover) : Decidable (SubmitFits cfg s m) :=
  match m with
  | .worker _ => inferInstanceAs (Decidable (s.worker = .drain → s.engine.channel = [] →
      s.engine.pending.length + s.engine.inflight.length ≤ cfg.entries))
  | .caller _ _ => .isTrue trivial
  | .kernel _ _ => .isTrue trivial

/-- What fits while `submit_pending` runs. -/
def WorkerPc.Fits (cfg : RingConfig) (e : Engine) : WorkerPc → Prop
  | .submit | .push _ _ => e.pending.length + e.inflight.length ≤ cfg.entries
  | .allocate _ => e.pending.length + 1 + e.inflight.length ≤ cfg.entries
  | _ => True

theorem fits_worker {outcome : Outcome} (hle : e.inflight.length ≤ cfg.entries)
    (hf : w.Fits cfg e)
    (hp : w = .drain → e.channel = [] → e.pending.length + e.inflight.length ≤ cfg.entries)
    (hs : e.stepWorker cfg outcome w = some (e', w')) :
    e'.inflight.length ≤ cfg.entries ∧ w'.Fits cfg e' := by
  have hshrink : ∀ {e₁ w₁}, some (e₁, w₁) = some (e', w') →
      e₁.inflight.length ≤ e.inflight.length → w₁.Fits cfg e₁ →
      e'.inflight.length ≤ cfg.entries ∧ w'.Fits cfg e' := by
    intro e₁ w₁ h hlen hfits
    rcases Prod.mk.inj (Option.some.inj h) with ⟨rfl, rfl⟩
    exact ⟨Nat.le_trans hlen hle, hfits⟩
  cases w with
  | recv =>
      rw [Engine.stepWorker] at hs
      split at hs
      · split at hs
        · cases hs
        · exact hshrink hs (Nat.le_refl _) trivial
        · exact hshrink hs (Nat.le_refl _) trivial
      · exact hshrink hs (Nat.le_refl _) trivial
  | drain =>
      rw [Engine.stepWorker] at hs
      split at hs
      · rename_i hch
        exact hshrink hs (Nat.le_refl _) (hp rfl hch)
      · split at hs
        · exact hshrink hs (Nat.le_refl _) trivial
        · exact hshrink hs (Nat.le_refl _) trivial
      · exact hshrink hs (Nat.le_refl _) trivial
  | submit =>
      have hfits : e.pending.length + e.inflight.length ≤ cfg.entries := hf
      rw [Engine.stepWorker] at hs
      split at hs
      · exact hshrink hs (Nat.le_refl _) trivial
      · rename_i r rest hpend
        refine hshrink hs (Nat.le_refl _) ?_
        rw [hpend, List.length_cons] at hfits
        exact hfits
  | allocate r =>
      have hfits : e.pending.length + 1 + e.inflight.length ≤ cfg.entries := hf
      rw [Engine.stepWorker] at hs
      dsimp only at hs
      split at hs
      · rcases Prod.mk.inj (Option.some.inj hs) with ⟨rfl, rfl⟩
        constructor
        · change e.inflight.length + 1 ≤ cfg.entries
          omega
        · change e.pending.length + (e.inflight.length + 1) ≤ cfg.entries
          omega
      · exact hshrink hs (Nat.le_refl _) hf
  | push u r =>
      rw [Engine.stepWorker] at hs
      split at hs
      · exact hshrink hs (Nat.le_refl _) hf
      · exact hshrink hs (List.length_filter_le _ _) trivial
  | check =>
      rw [Engine.stepWorker] at hs
      split at hs
      · split at hs <;> exact hshrink hs (Nat.le_refl _) trivial
      · exact hshrink hs (Nat.le_refl _) trivial
  | enter => cases outcome <;> exact hshrink hs (Nat.le_refl _) trivial
  | waiting =>
      cases outcome with
      | ok =>
          rw [Engine.stepWorker] at hs
          split at hs <;> exact hshrink hs (Nat.le_refl _) trivial
      | interrupted => exact hshrink hs (Nat.le_refl _) trivial
      | failed => exact hshrink hs (Nat.le_refl _) trivial
  | reap completions =>
      cases completions with
      | nil => exact hshrink hs (Nat.le_refl _) trivial
      | cons x rest =>
          rw [Engine.stepWorker] at hs
          split at hs
          · exact hshrink hs (Nat.le_refl _) trivial
          · exact hshrink hs (List.length_filter_le _ _) trivial
  | failing => exact hshrink hs (Nat.le_refl _) trivial
  | failAll =>
      rw [Engine.stepWorker] at hs
      split at hs
      · exact hshrink hs (Nat.le_refl _) trivial
      · rename_i x rest _ hi
        refine hshrink hs ?_ trivial
        rw [hi]
        exact Nat.le_succ _
      · exact hshrink hs (Nat.le_refl _) trivial
  | exiting fatal => exact hshrink hs (Nat.le_refl _) trivial
  | exited fatal => cases hs

theorem WorkerPc.Fits.of_eq (h : w.Fits cfg e) (hp : e'.pending = e.pending)
    (hi : e'.inflight = e.inflight) : w.Fits cfg e' := by
  cases w with
  | submit =>
      change e'.pending.length + e'.inflight.length ≤ cfg.entries
      rw [hp, hi]
      exact h
  | push u r =>
      change e'.pending.length + e'.inflight.length ≤ cfg.entries
      rw [hp, hi]
      exact h
  | allocate r =>
      change e'.pending.length + 1 + e'.inflight.length ≤ cfg.entries
      rw [hp, hi]
      exact h
  | _ => trivial

theorem inflight_le_entries (hr : ReachableVia (engine cfg) (SubmitFits cfg) s) :
    s.engine.inflight.length ≤ cfg.entries := by
  have hinv : s.engine.inflight.length ≤ cfg.entries ∧ s.worker.Fits cfg s.engine := by
    refine reachableVia_invariant (I := fun s => s.engine.inflight.length ≤ cfg.entries ∧
      s.worker.Fits cfg s.engine) ?_ (fun s m s' _ hi hp hs => ?_) hr
    · rintro s rfl
      exact ⟨Nat.zero_le _, trivial⟩
    · cases m with
      | worker outcome =>
          rcases Option.map_eq_some_iff.mp hs with ⟨⟨e', w'⟩, hstep, rfl⟩
          exact fits_worker hi.1 hi.2 hp hstep
      | caller a call =>
          rcases Option.map_eq_some_iff.mp hs with ⟨⟨e', pc'⟩, hstep, rfl⟩
          have hsame := (sameAnswers_caller hstep).ring
          refine ⟨?_, hi.2.of_eq hsame.pending hsame.inflight⟩
          change e'.inflight.length ≤ cfg.entries
          rw [hsame.inflight]
          exact hi.1
      | kernel position result =>
          rcases Option.map_eq_some_iff.mp hs with ⟨e', hstep, rfl⟩
          unfold Engine.stepKernel at hstep
          split at hstep
          · cases hstep
          · rcases Option.some.inj hstep with rfl
            exact ⟨hi.1, hi.2.of_eq rfl rfl⟩
  exact hinv.1

/-- One read is in flight in a ring of one entry. -/
theorem inflight_le_entries_single : ∃ s, execVia (engine singleRing) (SubmitFits singleRing)
    RingState.initial (oneRead.take 13) = some s ∧ s.engine.inflight.length = 1 ∧
    s.engine.inflight.length ≤ singleRing.entries := by
  have hrun : (execVia (engine singleRing) (SubmitFits singleRing) RingState.initial
      (oneRead.take 13)).map (fun s => s.engine.inflight.length) = some 1 := by decide +kernel
  rcases Option.map_eq_some_iff.mp hrun with ⟨s, hs, hlen⟩
  exact ⟨s, hs, hlen, inflight_le_entries (reachableVia_exec _ _ s (ReachableVia.init rfl) hs)⟩

/-- A ring of two entries. -/
def pairRing : RingConfig :=
  { entries := 2, sqSize := 2, entries_pos := Nat.two_pos, entries_le := Nat.le_refl 2 }

/-- Caller `a` hands its read to the engine. -/
def submits (a : Caller) : List Mover :=
  List.replicate 5 (.caller a (.read 3 0))

/-- Two reads are in flight and two more wait in the channel when the first of
    them completes. -/
def overlapping : List Mover :=
  submits 0 ++ submits 1 ++ List.replicate 12 (.worker .ok) ++ submits 2 ++ submits 3 ++
    [.kernel 0 PAGE_SIZE] ++ List.replicate 16 (.worker .ok)

/-- The kernel holds three pages of a ring of two entries. -/
theorem inflight_exceeds_entries : ∃ s, exec (engine pairRing) RingState.initial overlapping =
    some s ∧ s.worker = .waiting ∧ s.engine.kernel.length = 3 ∧
    ¬ s.engine.inflight.length ≤ pairRing.entries := by
  have hrun : (exec (engine pairRing) RingState.initial overlapping).map
      (fun s => (s.worker, s.engine.kernel.length, s.engine.inflight.length)) =
      some (.waiting, 3, 3) := by decide +kernel
  rcases Option.map_eq_some_iff.mp hrun with ⟨s, hs, hpc⟩
  simp only [Prod.mk.injEq] at hpc
  refine ⟨s, hs, hpc.1, hpc.2.1, ?_⟩
  rw [hpc.2.2]
  decide

end Uring

end TierBuf
