import TierBuf.Pool.Filling

/-!
# Background Threads and Shutdown

Prefetch submission, the workers, the cooler and the shutdown keep the
invariant.

The shutdown stops the manager, waits for the operations and for the workers,
and then scans the frames until a whole pass has met no valid page identifier.
What such a pass has shown is recorded in its post: no page is resident in the
frames it has been over. Nobody can make one resident behind its back.

## Theorems

* `Inv.stepSubmit`, `Inv.stepTask`, `Inv.stepUnreserve`: A prefetch request.
* `Inv.stepCooler`: The cooler thread.
* `Inv.shutdownScan`, `Inv.stepShutdown`: The shutdown and its passes.
* `Inv.stepIdle`: The start of a call.
-/

namespace TierBuf

open Function Ledger

variable {cfg : Config} {sh : Shared} {c : Choice} {R : Agent → Role} {a : Agent}

/-! ### Prefetching -/

theorem Inv.stepSubmit {s : SwipId} {p : PageId} {st : SubmitStage} (h : Inv cfg sh R)
    (hR : R a = (Pc.submit s p st).role cfg) : Keeps cfg R a (sh.stepSubmit cfg c a s p st) := by
  have hs := h.sound a
  rw [hR] at hs
  cases st with
  | stop =>
      dsimp only [Shared.stepSubmit]
      split
      · exact h.stay hR
      · exact h.stay hR
  | owner =>
      dsimp only [Shared.stepSubmit]
      split
      · exact h.stay hR
      · exact h.stay hR
  | load =>
      dsimp only [Shared.stepSubmit]
      split
      · exact h.stay hR
      · exact h.stay hR
  | pages =>
      dsimp only [Shared.stepSubmit]
      split
      · exact h.stay hR
      · exact h.stay hR
  | admission =>
      dsimp only [Shared.stepSubmit]
      split
      · exact h.stay hR
      · exact h.stay hR
  | pending =>
      dsimp only [Shared.stepSubmit]
      split
      · exact h.stay hR
      · exact h.quiet hR ⟨rfl, rfl⟩
  | inFlight =>
      dsimp only [Shared.stepSubmit]
      split
      · exact h.depart hR (.bystander trivial) rfl rfl rfl rfl
      · exact h.stay hR
  | unpend => exact h.quiet hR ⟨rfl, rfl⟩
  | pop =>
      dsimp only [Shared.stepSubmit, Shared.popFree]
      split
      · exact h.pop hR (hs.hold rfl trivial rfl) ‹_› rfl rfl rfl
      · exact h.stay hR
  | member i => exact h.unflag hR (hs.hold rfl trivial rfl) rfl rfl rfl
  | claim i =>
      dsimp only [Shared.stepSubmit]
      split
      · exact h.claim hR (hs.hold rfl trivial rfl) ‹_› rfl rfl rfl
      · exact h.stay hR
  | recheck i =>
      dsimp only [Shared.stepSubmit]
      split
      · exact h.stay hR
      · exact h.stay hR
  | send i =>
      dsimp only [Shared.stepSubmit]
      split
      · exact h.quiet hR ⟨rfl, rfl⟩
      · exact h.stay hR

theorem Inv.stepTask {t : PrefetchTask} {st : TaskStage} (h : Inv cfg sh R)
    (hR : R a = (Pc.task t st).role cfg) : Keeps cfg R a (sh.stepTask a t st) := by
  have hs := h.sound a
  rw [hR] at hs
  rcases t with ⟨p, s, checkout⟩
  cases checkout with
  | none => exact hs.tenure.elim
  | some i =>
      cases st with
      | queued =>
          dsimp only [Shared.stepTask]
          split
          · split
            · next hcond =>
              refine h.hire hR ?_ (eq_false_of_ne_true hcond.2) rfl rfl rfl rfl
              exact .plain trivial trivial trivial rfl trivial
            · exact .none
          · exact .none
      | check =>
          dsimp only [Shared.stepTask]
          split
          · exact h.stay hR
          · exact h.stay hR

theorem Inv.stepUnreserve {running : Bool} {p : PageId} {st : UnreserveStage} (h : Inv cfg sh R)
    (hR : R a = (Pc.unreserve running p st).role cfg) :
    Keeps cfg R a (sh.stepUnreserve running p st) := by
  have hs := h.sound a
  rw [hR] at hs
  cases st with
  | pending => exact h.quiet hR ⟨rfl, rfl⟩
  | inFlight =>
      cases running with
      | true =>
          rcases h.arrive hR (.unreserve true p .retire) (.bystander trivial) rfl rfl rfl rfl with ⟨n, hn, hk⟩
          dsimp only [Shared.stepUnreserve]
          rw [hn]
          exact hk
      | false =>
          rcases h.arrive hR (.returned .done) (.bystander trivial) rfl rfl rfl rfl with ⟨n, hn, hk⟩
          dsimp only [Shared.stepUnreserve]
          rw [hn]
          exact hk
  | retire =>
      cases running with
      | true => exact h.dismiss hR (.bystander trivial) rfl rfl rfl rfl
      | false => exact hs.post.elim

theorem Inv.stepCooler {st : CoolerStage} (h : Inv cfg sh R)
    (hR : R a = (Pc.cooler st).role cfg) : Keeps cfg R a (sh.stepCooler cfg st) := by
  have hs := h.sound a
  rw [hR] at hs
  cases st with
  | stop =>
      dsimp only [Shared.stepCooler]
      split
      · exact h.stay hR
      · exact h.stay hR
  | step =>
      dsimp only [Shared.stepCooler]
      split
      · exact h.stay hR
      · exact h.stay hR
  | free =>
      dsimp only [Shared.stepCooler]
      split
      · exact h.stay hR
      · exact h.stay hR
  | exhausted => exact h.quiet hR ⟨rfl, rfl⟩
  | mode exhausted =>
      dsimp only [Shared.stepCooler]
      split
      · exact h.stay hR
      · exact h.stay hR
  | room =>
      dsimp only [Shared.stepCooler]
      split
      · exact h.stay hR
      · exact h.stay hR
  | attempts => exact h.stay hR
  | sweep m =>
      cases m with
      | zero => exact h.stay hR
      | succ m =>
          dsimp only [Shared.stepCooler]
          split
          · exact h.stay hR
          · exact h.stay hR
  | pop m =>
      dsimp only [Shared.stepCooler]
      split
      · exact h.quiet hR ⟨rfl, rfl⟩
      · exact h.stay hR
  | pushBack m t => exact h.quiet hR quiet_pushUnique
  | done => exact h.dismiss hR (.bystander trivial) rfl rfl rfl rfl

/-! ### Shutdown -/

/-- A frame without a valid identifier is nobody's residence. -/
theorem Inv.swept_succ {i : Nat} (h : Inv cfg sh R) (hswept : sh.store.Swept cfg i)
    (hinvalid : PageId.isValid (sh.pid i) ≠ true) : sh.store.Swept cfg (i + 1) := by
  intro j hj s hr
  rcases Nat.lt_succ_iff_lt_or_eq.mp hj with hlt | heq
  · exact hswept j hlt s hr
  · have hocc := h.cells.occupies hr
    have hlt : (sh.swips s).pid < sh.nextPid := h.cells.minted s hocc.bound
    have hmax : sh.nextPid ≤ PageId.MAX + 1 := h.cells.identifiers
    have hpid : sh.pid j = (sh.swips s).pid := hocc.pid
    refine hinvalid ?_
    rw [← heq, hpid]
    exact decide_eq_true (Nat.le_of_lt_succ (Nat.lt_of_lt_of_le hlt hmax))

/-- One look at a frame, or the end of a pass. -/
theorem Inv.shutdownScan {f : FlushPass} (h : Inv cfg sh R)
    (hR : R a = (Pc.shutdown (.flush f)).role cfg) :
    Keeps cfg R a (sh.stepShutdown cfg c (.flush f)) := by
  have hs := h.sound a
  rw [hR] at hs
  rcases f with ⟨index, resident, progress⟩
  have hjoined : sh.joined = true := by
    cases resident with
    | zero => exact hs.post.1
    | succ n => exact hs.post
  have hpost : ∀ st, (ShutdownStage.post cfg st).Sound cfg sh.store →
      Sound cfg sh.store ((Pc.shutdown st).role cfg) := fun st hp => .bystander hp
  dsimp only [Shared.stepShutdown]
  split
  · split
    · exact h.reassign hR (hpost _ hjoined) ⟨rfl, rfl⟩ rfl rfl
    · next hinvalid =>
      cases resident with
      | zero => exact h.reassign hR (hpost _ ⟨hjoined, h.swept_succ hs.post.2 hinvalid⟩) ⟨rfl, rfl⟩ rfl rfl
      | succ n => exact h.reassign hR (hpost _ hjoined) ⟨rfl, rfl⟩ rfl rfl
  · next hend =>
    split
    · next hzero =>
      cases resident with
      | zero =>
          refine h.reassign hR (hpost _ ⟨hjoined, fun j hj => ?_⟩) ⟨rfl, rfl⟩ rfl rfl
          exact hs.post.2 j (Nat.lt_of_lt_of_le hj (Nat.le_of_not_lt hend))
      | succ n => cases hzero
    · split
      · exact h.reassign hR (hpost _ hjoined) ⟨rfl, rfl⟩ rfl rfl
      · exact h.reassign hR (hpost _ ⟨hjoined, fun j hj => absurd hj (Nat.not_lt_zero j)⟩) ⟨rfl, rfl⟩ rfl rfl

/-- The steps of a pass on one frame. -/
theorem Inv.shutdownFrame {f : FlushPass} {p : PageId} {s : SwipId} {st : ShutdownStage}
    (h : Inv cfg sh R) (hR : R a = (Pc.shutdown st).role cfg)
    (hst : st = .owner f p ∨ st = .load f p s ∨ st = .mark f p s ∨ st = .generation f p) :
    Keeps cfg R a (sh.stepShutdown cfg c st) := by
  have hs := h.sound a
  rw [hR] at hs
  rcases f with ⟨index, resident, progress⟩
  cases resident with
  | zero => rcases hst with rfl | rfl | rfl | rfl <;> exact hs.post.elim
  | succ n =>
      rcases hst with rfl | rfl | rfl | rfl
      · dsimp only [Shared.stepShutdown]
        split
        · exact h.stay hR
        · exact h.stay hR
      · dsimp only [Shared.stepShutdown]
        split
        · exact h.stay hR
        · split
          · exact h.stay hR
          · exact h.stay hR
      · dsimp only [Shared.stepShutdown]
        split
        · next cell hcell =>
          rcases SwipInner.compareExchange_eq_some.mp hcell with ⟨hc, rfl⟩
          exact h.markCooling hR hc rfl
        · exact h.stay hR
      · exact h.stay hR

theorem Inv.stepShutdown {st : ShutdownStage} (h : Inv cfg sh R)
    (hR : R a = (Pc.shutdown st).role cfg) : Keeps cfg R a (sh.stepShutdown cfg c st) := by
  have hs := h.sound a
  rw [hR] at hs
  cases st with
  | lock =>
      dsimp only [Shared.stepShutdown]
      split
      · exact .none
      · exact h.quiet hR ⟨rfl, rfl⟩
  | stop => exact h.stop hR (.bystander rfl) rfl rfl
  | gate =>
      dsimp only [Shared.stepShutdown]
      split
      · exact h.shut hR (.bystander hs.post) ‹_› rfl rfl id rfl
      · exact .none
  | join =>
      dsimp only [Shared.stepShutdown]
      split
      · next hw =>
        exact h.join hR hw hs.post rfl
          (.bystander ⟨rfl, fun j hj => absurd hj (Nat.not_lt_zero j)⟩) rfl rfl rfl
      · exact .none
  | flush f => exact h.shutdownScan hR
  | owner f p => exact h.shutdownFrame (s := 0) hR (.inl rfl)
  | load f p s => exact h.shutdownFrame hR (.inr (.inl rfl))
  | mark f p s => exact h.shutdownFrame hR (.inr (.inr (.inl rfl)))
  | generation f p => exact h.shutdownFrame (s := 0) hR (.inr (.inr (.inr rfl)))
  | ungate r =>
      rcases r with e | _
      · exact h.reopen hR (.bystander trivial) rfl rfl id rfl
      · dsimp only [Shared.stepShutdown]
        split
        · exact h.reopen hR (.bystander hs.post) rfl rfl id rfl
        · exact h.reopen hR (.bystander trivial) rfl rfl id rfl
  | unlock r =>
      rcases r with e | _
      · exact h.quiet hR ⟨rfl, rfl⟩
      · exact h.quiet hR ⟨rfl, rfl⟩

/-! ### Starting -/

theorem Inv.stepIdle (h : Inv cfg sh R) (hR : R a = (Pc.idle).role cfg) :
    Keeps cfg R a (sh.stepIdle cfg c) := by
  have hs := h.sound a
  rw [hR] at hs
  unfold Shared.stepIdle
  split
  · exact h.stay hR
  · split
    · exact h.stay hR
    · exact .none
  · split
    · exact h.stay hR
    · exact .none
  · split
    · exact .none
    · refine h.hire hR ?_ (eq_false_of_ne_true ‹_›) rfl rfl rfl rfl
      exact .bystander trivial
  · exact h.stay hR
  · exact h.born hR rfl (fun hc => absurd hc.symm cfg.id_pos) (.plain trivial trivial trivial rfl trivial) rfl rfl
  · exact h.quiet hR ⟨rfl, rfl⟩
  · exact h.quiet hR ⟨rfl, rfl⟩

end TierBuf
