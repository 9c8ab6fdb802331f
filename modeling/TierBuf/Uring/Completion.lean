import TierBuf.Uring.Custody

/-!
# Completion of Requests

What a request is answered with, and when.

While the ring is live, the keys of the in-flight map are exactly those of the
entries on the way through it: queued, accepted by the kernel, completed, or
taken out of the completion queue by the worker. Each entry carries the
request that the map has under its key, so a completion always finds the
request it belongs to.

The shutdown command is behind every read of the channel. The caller that
sends it has the gate to itself after `stopping` was set, so no read is between
its check and its send, then or later. Hence the worker never receives a read
after the shutdown, and never answers one with `engine_stopped`.

## Main definitions

* `Tracks`: The map and the ring agree.
* `Ordered`: No read is behind the shutdown.
* `UringInv`: The invariant of the engine.

## Theorems

* `uringInv_reachable`: It holds in every reachable state.
* `reads_complete_once`: A request has one reply, that of its own completion.
-/

namespace TierBuf

open Function Ledger Transition

namespace Uring

variable {cfg : RingConfig} {s s' : RingState} {e e' : Engine} {w w' : WorkerPc}

/-! ### The ring -/

/-- The ring has not been closed after a failure. -/
def WorkerPc.live : WorkerPc → Bool
  | .failAll | .exiting true | .exited true => false
  | _ => true

/-- The completions the worker has taken out of the queue. -/
def WorkerPc.due : WorkerPc → List (Nat × Int)
  | .reap completions => completions
  | _ => []

/-- The key that is in the map and not yet in the ring. -/
def WorkerPc.pushing : WorkerPc → List Nat
  | .push userData _ => [userData]
  | _ => []

/-- The keys of the entries on the way through the ring. -/
def tracked (e : Engine) (w : WorkerPc) : List Nat :=
  e.sq.map Sqe.userData ++ (e.kernel.map Sqe.userData ++ (e.cq.map Prod.fst ++
    (w.due.map Prod.fst ++ w.pushing)))

/-- The map and the ring agree. -/
structure Tracks (e : Engine) (w : WorkerPc) : Prop where
  keys : (tracked e w).Perm (e.inflight.map Prod.fst)
  entries : ∀ q, q ∈ e.sq ∨ q ∈ e.kernel → (q.userData, q.request) ∈ e.inflight
  done : ∀ u result, (u, result) ∈ e.cq ∨ (u, result) ∈ w.due →
    ∃ r, (u, r) ∈ e.inflight ∧ e.results r.caller = some result

/-- A reply of the ring to a caller. -/
def Answers (e : Engine) (w : WorkerPc) (a : Caller) (x : Reply) : Prop :=
  (∃ result, e.results a = some result ∧ x = completeCqe a result) ∨
    (x = .ringFailed ∧ w.live = false)

/-- What the map holds, in every state. -/
structure Mapped (e : Engine) (w : WorkerPc) : Prop where
  keyed : Keyed e w
  nonzero : ∀ x ∈ e.inflight, x.1 ≠ 0

theorem Tracks.of_perm (ht : Tracks e w) (hi : e'.inflight = e.inflight)
    (hk : (tracked e' w').Perm (tracked e w))
    (hq : ∀ q, q ∈ e'.sq ∨ q ∈ e'.kernel → q ∈ e.sq ∨ q ∈ e.kernel)
    (hd : ∀ x, x ∈ e'.cq ∨ x ∈ w'.due → x ∈ e.cq ∨ x ∈ w.due)
    (hr : e'.results = e.results) : Tracks e' w' where
  keys := by
    rw [hi]
    exact hk.trans ht.keys
  entries := by
    intro q h
    rw [hi]
    exact ht.entries q (hq q h)
  done := by
    intro u result h
    rw [hi, hr]
    exact ht.done u result (hd _ h)

/-- A completion the worker has taken finds the request it belongs to. -/
theorem Tracks.lookup_due (ht : Tracks e w) (hk : Keyed e w) {u : Nat} {result : Int}
    (h : (u, result) ∈ w.due) :
    ∃ r, e.inflight.lookup u = some r ∧ e.results r.caller = some result := by
  rcases ht.done u result (.inr h) with ⟨r, hr, hres⟩
  exact ⟨r, lookup_of_mem hk.nodup hr, hres⟩

/-- Entries of one caller in the map are the same entry. -/
theorem inflight_caller (hn : (held e w).Nodup) {x y : Nat × ReadRequest} (hx : x ∈ e.inflight)
    (hy : y ∈ e.inflight) (hc : x.2.caller = y.2.caller) : x = y := by
  have hmap : (e.inflight.map (fun x => x.2.caller)).Nodup := by
    unfold held at hn
    have h1 := (List.nodup_append.mp hn).2.1
    have h2 := (List.nodup_append.mp h1).2.1
    exact (List.nodup_append.mp h2).2.1
  exact List.inj_on_of_nodup_map hmap hx hy hc

theorem mem_held_of_inflight {x : Nat × ReadRequest} (hx : x ∈ e.inflight) :
    x.2.caller ∈ held e w := by
  unfold held
  refine List.mem_append_right _ (List.mem_append_right _ (List.mem_append_right _ ?_))
  exact List.mem_map_of_mem (f := fun x : Nat × ReadRequest => x.2.caller) hx

/-! ### What the worker does to the ring -/

/-- What a step of the worker does to the map and the ring. -/
inductive RingMove (e e' : Engine) (w w' : WorkerPc) : Prop where
  | keep : e'.inflight = e.inflight → e'.sq = e.sq → e'.kernel = e.kernel → e'.cq = e.cq →
      w'.due = w.due → w.pushing = [] → w'.pushing = [] → w'.live = w.live →
      RingMove e e' w w'
  | allocate (u : Nat) (r : ReadRequest) : w = .allocate r → w' = .push u r → u ≠ 0 →
      u ∉ e.inflight.map Prod.fst → e'.inflight = (u, r) :: e.inflight → e'.sq = e.sq →
      e'.kernel = e.kernel → e'.cq = e.cq → RingMove e e' w w'
  | queue (u : Nat) (r : ReadRequest) : w = .push u r → w' = .submit →
      e'.inflight = e.inflight → e'.sq = e.sq ++ [⟨u, r⟩] → e'.kernel = e.kernel →
      e'.cq = e.cq → RingMove e e' w w'
  | requeue (u : Nat) (r : ReadRequest) : w = .push u r → w' = .check →
      e'.inflight = (e.takeInflight u).inflight → e'.sq = e.sq → e'.kernel = e.kernel →
      e'.cq = e.cq → RingMove e e' w w'
  | enter : w = .enter → w' = .waiting → e'.inflight = e.inflight → e'.sq = [] →
      e'.kernel = e.kernel ++ e.sq → e'.cq = e.cq → RingMove e e' w w'
  | collect : w = .waiting → w' = .reap e.cq → e.cq ≠ [] → e'.inflight = e.inflight →
      e'.sq = e.sq → e'.kernel = e.kernel → e'.cq = [] → RingMove e e' w w'
  | reap (u : Nat) (result : Int) (rest : List (Nat × Int)) (r : ReadRequest) :
      w = .reap ((u, result) :: rest) → w' = .reap rest → e.inflight.lookup u = some r →
      e'.inflight = (e.takeInflight u).inflight → e'.sq = e.sq → e'.kernel = e.kernel →
      e'.cq = e.cq → RingMove e e' w w'
  | lost (u : Nat) (result : Int) (rest : List (Nat × Int)) :
      w = .reap ((u, result) :: rest) → w' = .failing → e.inflight.lookup u = none →
      e'.inflight = e.inflight → RingMove e e' w w'
  | fail : w'.live = false → w'.pushing = [] → e'.inflight.Sublist e.inflight →
      RingMove e e' w w'

theorem ringMove_worker {outcome : Outcome} (hs : e.stepWorker cfg outcome w = some (e', w')) :
    RingMove e e' w w' ∧ e'.results = e.results := by
  have hkeep : ∀ {e₁ w₁}, some (e₁, w₁) = some (e', w') → e₁.inflight = e.inflight →
      e₁.sq = e.sq → e₁.kernel = e.kernel → e₁.cq = e.cq → w₁.due = w.due →
      w.pushing = [] → w₁.pushing = [] → w₁.live = w.live → e₁.results = e.results →
      RingMove e e' w w' ∧ e'.results = e.results := by
    intro e₁ w₁ h h1 h2 h3 h4 h5 h6 h7 h8 h9
    rcases Prod.mk.inj (Option.some.inj h) with ⟨rfl, rfl⟩
    exact ⟨.keep h1 h2 h3 h4 h5 h6 h7 h8, h9⟩
  have hfail : ∀ {e₁ w₁}, some (e₁, w₁) = some (e', w') → w₁.live = false → w₁.pushing = [] →
      e₁.inflight.Sublist e.inflight → e₁.results = e.results →
      RingMove e e' w w' ∧ e'.results = e.results := by
    intro e₁ w₁ h h1 h2 h3 h4
    rcases Prod.mk.inj (Option.some.inj h) with ⟨rfl, rfl⟩
    exact ⟨.fail h1 h2 h3, h4⟩
  cases w with
  | recv =>
      rw [Engine.stepWorker] at hs
      split at hs
      · split at hs
        · cases hs
        · exact hkeep hs rfl rfl rfl rfl rfl rfl rfl rfl rfl
        · exact hkeep hs rfl rfl rfl rfl rfl rfl rfl rfl rfl
      · exact hkeep hs rfl rfl rfl rfl rfl rfl rfl rfl rfl
  | drain =>
      rw [Engine.stepWorker] at hs
      split at hs
      · exact hkeep hs rfl rfl rfl rfl rfl rfl rfl rfl rfl
      · split at hs
        · exact hkeep hs rfl rfl rfl rfl rfl rfl rfl rfl rfl
        · exact hkeep hs rfl rfl rfl rfl rfl rfl rfl rfl rfl
      · exact hkeep hs rfl rfl rfl rfl rfl rfl rfl rfl rfl
  | submit =>
      rw [Engine.stepWorker] at hs
      split at hs
      · exact hkeep hs rfl rfl rfl rfl rfl rfl rfl rfl rfl
      · exact hkeep hs rfl rfl rfl rfl rfl rfl rfl rfl rfl
  | allocate r =>
      rw [Engine.stepWorker] at hs
      dsimp only at hs
      split at hs
      · rename_i hfree
        rcases Prod.mk.inj (Option.some.inj hs) with ⟨rfl, rfl⟩
        exact ⟨.allocate _ r rfl rfl hfree.1 hfree.2 rfl rfl rfl rfl, rfl⟩
      · exact hkeep hs rfl rfl rfl rfl rfl rfl rfl rfl rfl
  | push u r =>
      rw [Engine.stepWorker] at hs
      split at hs
      · rcases Prod.mk.inj (Option.some.inj hs) with ⟨rfl, rfl⟩
        exact ⟨.queue u r rfl rfl rfl rfl rfl rfl, rfl⟩
      · rcases Prod.mk.inj (Option.some.inj hs) with ⟨rfl, rfl⟩
        exact ⟨.requeue u r rfl rfl rfl rfl rfl rfl, rfl⟩
  | check =>
      rw [Engine.stepWorker] at hs
      split at hs
      · split at hs
        · exact hkeep hs rfl rfl rfl rfl rfl rfl rfl rfl rfl
        · exact hkeep hs rfl rfl rfl rfl rfl rfl rfl rfl rfl
      · exact hkeep hs rfl rfl rfl rfl rfl rfl rfl rfl rfl
  | enter =>
      cases outcome with
      | ok =>
          rcases Prod.mk.inj (Option.some.inj hs) with ⟨rfl, rfl⟩
          exact ⟨.enter rfl rfl rfl rfl rfl rfl, rfl⟩
      | interrupted => exact hkeep hs rfl rfl rfl rfl rfl rfl rfl rfl rfl
      | failed => exact hkeep hs rfl rfl rfl rfl rfl rfl rfl rfl rfl
  | waiting =>
      cases outcome with
      | ok =>
          rw [Engine.stepWorker] at hs
          split at hs
          · exact hkeep hs rfl rfl rfl rfl rfl rfl rfl rfl rfl
          · rename_i hcq
            rcases Prod.mk.inj (Option.some.inj hs) with ⟨rfl, rfl⟩
            exact ⟨.collect rfl rfl hcq rfl rfl rfl rfl, rfl⟩
      | interrupted => exact hkeep hs rfl rfl rfl rfl rfl rfl rfl rfl rfl
      | failed => exact hkeep hs rfl rfl rfl rfl rfl rfl rfl rfl rfl
  | reap completions =>
      cases completions with
      | nil => exact hkeep hs rfl rfl rfl rfl rfl rfl rfl rfl rfl
      | cons x rest =>
          rw [Engine.stepWorker] at hs
          split at hs
          · rename_i hl
            rcases Prod.mk.inj (Option.some.inj hs) with ⟨rfl, rfl⟩
            exact ⟨.lost x.1 x.2 rest rfl rfl hl rfl, rfl⟩
          · rename_i r hl
            rcases Prod.mk.inj (Option.some.inj hs) with ⟨rfl, rfl⟩
            exact ⟨.reap x.1 x.2 rest r rfl rfl hl rfl rfl rfl rfl, rfl⟩
  | failing => exact hfail hs rfl rfl (List.Sublist.refl _) rfl
  | failAll =>
      rw [Engine.stepWorker] at hs
      split at hs
      · exact hfail hs rfl rfl (List.Sublist.refl _) rfl
      · rename_i x rest _ hi
        exact hfail hs rfl rfl (by rw [hi]; exact List.sublist_cons_self _ _) rfl
      · exact hfail hs rfl rfl (List.Sublist.refl _) rfl
  | exiting fatal => cases fatal <;> exact hkeep hs rfl rfl rfl rfl rfl rfl rfl rfl rfl
  | exited fatal => cases hs

/-- The keys of the map stay distinct and non-zero. -/
theorem mapped_move (hm : Mapped e w) (hs : RingMove e e' w w') : Mapped e' w' := by
  have hsub : e'.inflight.Sublist e.inflight → w'.pushing = [] → Mapped e' w' := by
    intro hsub hp
    refine ⟨⟨(hsub.map Prod.fst).nodup hm.keyed.nodup, fun v r h => ?_⟩,
      fun x hx => hm.nonzero x (hsub.subset hx)⟩
    rw [h] at hp
    cases hp
  cases hs with
  | keep hi _ _ _ _ _ hp _ => exact hsub (by rw [hi]) hp
  | allocate u r hw hw' hu hfree hi _ _ _ =>
      refine ⟨⟨?_, fun v q h => ?_⟩, fun x hx => ?_⟩
      · rw [hi, List.map_cons, List.nodup_cons]
        exact ⟨hfree, hm.keyed.nodup⟩
      · rw [hw'] at h
        rcases WorkerPc.push.inj h with ⟨rfl, rfl⟩
        rw [hi]
        exact List.mem_cons_self ..
      · rw [hi] at hx
        rcases List.mem_cons.mp hx with rfl | hx
        · exact hu
        · exact hm.nonzero x hx
  | queue u r _ hw' hi _ _ _ => exact hsub (by rw [hi]) (by rw [hw']; rfl)
  | requeue u r _ hw' hi _ _ _ => exact hsub (by rw [hi]; exact List.filter_sublist) (by rw [hw']; rfl)
  | enter _ hw' hi _ _ _ => exact hsub (by rw [hi]) (by rw [hw']; rfl)
  | collect _ hw' _ hi _ _ _ => exact hsub (by rw [hi]) (by rw [hw']; rfl)
  | reap u result rest r _ hw' _ hi _ _ _ =>
      exact hsub (by rw [hi]; exact List.filter_sublist) (by rw [hw']; rfl)
  | lost u result rest _ hw' _ hi => exact hsub (by rw [hi]) (by rw [hw']; rfl)
  | fail _ hp hsl => exact hsub hsl hp

/-- An entry with another key stays in the map. -/
theorem mem_take {x : Nat × ReadRequest} {u : Nat} (hx : x ∈ e.inflight) (hne : x.1 ≠ u) :
    x ∈ (e.takeInflight u).inflight :=
  List.mem_filter.mpr ⟨hx, decide_eq_true hne⟩

/-- Taking a key out of the map takes it out of those tracked. -/
theorem keys_take (hm : Mapped e w) {u : Nat} {r : ReadRequest} (hmem : (u, r) ∈ e.inflight) :
    (e.inflight.map Prod.fst).Perm (u :: (e.takeInflight u).inflight.map Prod.fst) :=
  (perm_take hm.keyed.nodup hmem).map Prod.fst

/-- An entry leaves the ring and the map together. -/
theorem Tracks.leave (ht : Tracks e w) (hm : Mapped e w) {u : Nat} {r : ReadRequest}
    (hmem : (u, r) ∈ e.inflight) (hp : (tracked e w).Perm (u :: tracked e w'))
    (hd : ∀ x, x ∈ w'.due → x ∈ w.due) (hi : e'.inflight = (e.takeInflight u).inflight)
    (h1 : e'.sq = e.sq) (h2 : e'.kernel = e.kernel) (h3 : e'.cq = e.cq)
    (hr : e'.results = e.results) : Tracks e' w' := by
  have htake := keys_take hm hmem
  have hkeys : (tracked e w').Perm ((e.takeInflight u).inflight.map Prod.fst) :=
    (List.perm_cons u).mp (hp.symm.trans (ht.keys.trans htake))
  -- the key is no longer in the ring, so the entries that are left have other keys
  have hout : u ∉ tracked e w' := by
    rw [hkeys.mem_iff]
    exact (List.nodup_cons.mp (htake.nodup_iff.mp hm.keyed.nodup)).1
  have hsame : tracked e' w' = tracked e w' := by
    unfold tracked
    rw [h1, h2, h3]
  refine ⟨by rw [hsame, hi]; exact hkeys, fun q h => ?_, fun v result h => ?_⟩
  · rw [h1, h2] at h
    rw [hi]
    refine mem_take (ht.entries q h) (fun hc => hout ?_)
    rw [← hc]
    rcases h with h | h
    · exact List.mem_append_left _ (List.mem_map_of_mem h)
    · exact List.mem_append_right _ (List.mem_append_left _ (List.mem_map_of_mem h))
  · rw [h3] at h
    rcases ht.done v result (h.imp id (hd _)) with ⟨q, hq, hres⟩
    rw [hi, hr]
    refine ⟨q, mem_take hq (fun hc => hout ?_), hres⟩
    rw [← show v = u from hc]
    refine List.mem_append_right _ (List.mem_append_right _ ?_)
    rcases h with h | h
    · exact List.mem_append_left _ (List.mem_map_of_mem (f := Prod.fst) h)
    · exact List.mem_append_right _ (List.mem_append_left _
        (List.mem_map_of_mem (f := Prod.fst) h))

/-- The map keeps agreeing with the ring, as long as the ring is live. -/
theorem tracks_move (hm : Mapped e w) (ht : w.live = true → Tracks e w)
    (hs : RingMove e e' w w') (hr : e'.results = e.results) :
    w'.live = true → Tracks e' w' := by
  intro hlive
  cases hs with
  | keep hi h1 h2 h3 hd hp hp' hl =>
      refine (ht (hl ▸ hlive)).of_perm hi ?_ (fun q h => ?_) (fun x h => ?_) hr
      · unfold tracked
        rw [h1, h2, h3, hd, hp, hp']
      · rw [h1, h2] at h
        exact h
      · rw [h3, hd] at h
        exact h
  | allocate u r hw hw' _ _ hi h1 h2 h3 =>
      subst hw hw'
      have ht := ht rfl
      refine ⟨?_, fun q h => ?_, fun v result h => ?_⟩
      · have hkeys := ht.keys
        unfold tracked at hkeys ⊢
        rw [h1, h2, h3, hi, List.map_cons]
        refine List.perm_iff_count.mpr (fun x => ?_)
        have hcount := hkeys.count_eq x
        simp only [WorkerPc.due, WorkerPc.pushing, List.map_nil, List.count_append,
          List.count_cons, List.count_nil] at hcount ⊢
        omega
      · rw [h1, h2] at h
        rw [hi]
        exact List.mem_cons_of_mem _ (ht.entries q h)
      · rw [h3] at h
        rcases ht.done v result h with ⟨q, hq, hres⟩
        rw [hi, hr]
        exact ⟨q, List.mem_cons_of_mem _ hq, hres⟩
  | queue u r hw hw' hi h1 h2 h3 =>
      subst hw hw'
      have ht := ht rfl
      refine ⟨?_, fun q h => ?_, fun v result h => ?_⟩
      · have hkeys := ht.keys
        unfold tracked at hkeys ⊢
        rw [h1, h2, h3, hi]
        refine List.perm_iff_count.mpr (fun x => ?_)
        have hcount := hkeys.count_eq x
        simp only [WorkerPc.due, WorkerPc.pushing, List.map_nil, List.map_append, List.map_cons,
          List.count_append, List.count_cons, List.count_nil] at hcount ⊢
        omega
      · rw [h1, h2, List.mem_append, List.mem_singleton] at h
        rw [hi]
        rcases h with (h | rfl) | h
        · exact ht.entries q (.inl h)
        · exact hm.keyed.pushing u r rfl
        · exact ht.entries q (.inr h)
      · rw [h3] at h
        rw [hi, hr]
        exact ht.done v result h
  | requeue u r hw hw' hi h1 h2 h3 =>
      subst hw hw'
      refine (ht rfl).leave hm (hm.keyed.pushing u r rfl) (List.perm_iff_count.mpr (fun x => ?_))
        (fun _ => id) hi h1 h2 h3 hr
      unfold tracked
      simp only [WorkerPc.due, WorkerPc.pushing, List.map_nil, List.count_append,
        List.count_cons, List.count_nil]
      omega
  | enter hw hw' hi h1 h2 h3 =>
      subst hw hw'
      refine (ht rfl).of_perm hi ?_ (fun q h => ?_) (fun x h => ?_) hr
      · unfold tracked
        rw [h1, h2, h3]
        refine List.perm_iff_count.mpr (fun x => ?_)
        simp only [WorkerPc.due, WorkerPc.pushing, List.map_nil, List.map_append,
          List.count_append, List.count_nil]
        omega
      · rw [h1, h2, List.mem_append] at h
        rcases h with h | h | h
        · cases h
        · exact .inr h
        · exact .inl h
      · rw [h3] at h
        exact h
  | collect hw hw' _ hi h1 h2 h3 =>
      subst hw hw'
      refine (ht rfl).of_perm hi ?_ (fun q h => ?_) (fun x h => ?_) hr
      · unfold tracked
        rw [h1, h2, h3]
        refine List.perm_iff_count.mpr (fun x => ?_)
        simp only [WorkerPc.due, WorkerPc.pushing, List.map_nil, List.count_append,
          List.count_nil]
        omega
      · rw [h1, h2] at h
        exact h
      · rw [h3] at h
        rcases h with h | h
        · cases h
        · exact .inl h
  | reap u result rest r hw hw' hl hi h1 h2 h3 =>
      subst hw hw'
      refine (ht rfl).leave hm (mem_of_lookup hl) (List.perm_iff_count.mpr (fun x => ?_))
        (fun _ => List.mem_cons_of_mem _) hi h1 h2 h3 hr
      unfold tracked
      simp only [WorkerPc.due, WorkerPc.pushing, List.map_cons, List.count_append,
        List.count_cons, List.count_nil]
      omega
  | lost u result rest hw _ hl _ =>
      subst hw
      rcases (ht rfl).lookup_due hm.keyed (List.mem_cons_self ..) with ⟨r, hr, -⟩
      rw [hl] at hr
      cases hr
  | fail hl _ _ =>
      rw [hl] at hlive
      exact absurd hlive (by decide)

/-! ### What the kernel does to the ring -/

theorem tracked_nodup (hm : Mapped e w) (ht : Tracks e w) : (tracked e w).Nodup :=
  ht.keys.nodup_iff.mpr hm.keyed.nodup

/-- A key the kernel has accepted is not completed. -/
theorem not_done_of_kernel (hm : Mapped e w) (ht : Tracks e w) {q : Sqe} (hq : q ∈ e.kernel)
    {u : Nat} {result : Int} (h : (u, result) ∈ e.cq ∨ (u, result) ∈ w.due) : u ≠ q.userData := by
  intro hc
  have hk : q.userData ∈ e.kernel.map Sqe.userData := List.mem_map_of_mem hq
  have hd := (List.nodup_append.mp (List.nodup_append.mp (tracked_nodup hm ht)).2.1).2.2
  refine hd q.userData hk u ?_ hc.symm
  rcases h with h | h
  · exact List.mem_append_left _ (List.mem_map_of_mem (f := Prod.fst) h)
  · exact List.mem_append_right _ (List.mem_append_left _
      (List.mem_map_of_mem (f := Prod.fst) h))

theorem tracks_kernel {position : Nat} {result : Int} (hm : Mapped e w)
    (hn : (held e w).Nodup) (ht : Tracks e w) (hs : e.stepKernel position result = some e') :
    Tracks e' w := by
  unfold Engine.stepKernel at hs
  split at hs
  · cases hs
  · rename_i q hq
    rw [← Option.some.inj hs]
    rcases List.getElem?_eq_some_iff.mp hq with ⟨hlt, rfl⟩
    have hmem : e.kernel[position] ∈ e.kernel := List.getElem_mem hlt
    have hperm := (List.getElem_cons_eraseIdx_perm hlt).map Sqe.userData
    refine ⟨?_, fun q h => ?_, fun u res h => ?_⟩
    · refine List.Perm.trans (List.perm_iff_count.mpr (fun x => ?_)) ht.keys
      have hcount := hperm.count_eq x
      unfold tracked
      simp only [List.map_append, List.map_cons, List.map_nil, List.count_append,
        List.count_cons, List.count_nil] at hcount ⊢
      omega
    · exact ht.entries q (h.imp id List.mem_of_mem_eraseIdx)
    · have hold : (u, res) ∈ e.cq ∨ (u, res) ∈ w.due ∨
          (u = e.kernel[position].userData ∧ res = result) := by
        rcases h with h | h
        · rcases List.mem_append.mp h with h | h
          · exact .inl h
          · rw [List.mem_singleton, Prod.mk.injEq] at h
            exact .inr (.inr h)
        · exact .inr (.inl h)
      rcases or_assoc.mpr hold with hold | ⟨rfl, rfl⟩
      · rcases ht.done u res hold with ⟨r, hr, hres⟩
        refine ⟨r, hr, ?_⟩
        have hne : r.caller ≠ e.kernel[position].request.caller := by
          intro hc
          have heq := inflight_caller hn hr (ht.entries _ (.inr hmem)) hc
          exact not_done_of_kernel hm ht hmem hold (congrArg Prod.fst heq)
        change update e.results _ _ r.caller = _
        rw [update_of_ne hne, hres]
      · exact ⟨_, ht.entries _ (.inr hmem), update_self ..⟩

/-! ### The order of commands -/

/-- No read is behind the shutdown. -/
def Ordered : List Command → Prop
  | [] => True
  | .read _ :: rest => Ordered rest
  | .shutdown :: rest => owners rest = []

theorem Ordered.tail {c : Command} {l : List Command} (h : Ordered (c :: l)) : Ordered l := by
  cases c with
  | read r => exact h
  | shutdown =>
      induction l with
      | nil => trivial
      | cons d l ih =>
          cases d with
          | read r => cases (h : owners (.read r :: l) = [])
          | shutdown => exact h

theorem Ordered.send {l : List Command} (h : Ordered l) {c : Command}
    (hc : .shutdown ∉ l ∨ c = .shutdown) : Ordered (l ++ [c]) := by
  induction l with
  | nil =>
      cases c with
      | read r => trivial
      | shutdown => rfl
  | cons d l ih =>
      cases d with
      | read r =>
          refine ih h (hc.imp (fun hn hm => hn (List.mem_cons_of_mem _ hm)) id)
      | shutdown =>
          rcases hc with hc | rfl
          · exact absurd (List.mem_cons_self ..) hc
          · change owners (l ++ [.shutdown]) = []
            have hl : owners l = [] := h
            unfold owners at hl ⊢
            rw [List.filterMap_append, hl]
            rfl

/-- The gate as a reader holds it. -/
def CallerPc.reading : CallerPc → Option Unit
  | .readCheck _ | .readSend _ | .readUngate _ => some ()
  | _ => none

/-- The gate as a shutdown holds it. -/
def CallerPc.closing : CallerPc → Option Unit
  | .stopSend | .stopJoin | .stopUngate => some ()
  | _ => none

/-- A shutdown that has set `stopping`. -/
def CallerPc.halting : CallerPc → Bool
  | .stopGate _ | .stopSend | .stopJoin | .stopUngate => true
  | _ => false

def CallerPc.sending : CallerPc → Bool
  | .readSend _ => true
  | _ => false

/-- What holds where the worker waits for the kernel and where it ends. -/
def WorkerPc.Ends (e : Engine) : WorkerPc → Prop
  | .enter => e.inflight ≠ []
  | .waiting => e.inflight ≠ [] ∧ e.sq = []
  | .failAll => e.kernel = []
  | .exiting fatal => e.pending = [] ∧ e.inflight = [] ∧
      (fatal = false → e.shuttingDown = true) ∧ (fatal = true → e.kernel = [])
  | .exited fatal => e.pending = [] ∧ e.inflight = [] ∧
      (fatal = false → e.shuttingDown = true) ∧ (fatal = true → e.kernel = []) ∧ e.channel = []
  | _ => True

/-- What the gate guarantees, and how the worker ends. -/
structure Closing (s : RingState) : Prop where
  gate : Accounts s.engine.gate (fun a => (s.callers a).reading)
    (fun a => (s.callers a).closing) ()
  halting : ∀ a, (s.callers a).halting = true → s.engine.stopping = true
  ordered : Ordered s.engine.channel
  sealed : .shutdown ∈ s.engine.channel ∨ s.engine.shuttingDown = true →
    s.engine.stopping = true ∧ ∀ a, (s.callers a).sending = false
  drained : s.engine.shuttingDown = true → owners s.engine.channel = []
  ends : s.worker.Ends s.engine
  closed : ∀ a, s.engine.closed a = true → s.worker = .exited true

/-- What a step of the worker does to the channel. -/
inductive Received (e e' : Engine) : Prop where
  | keep : e'.channel = e.channel → e'.shuttingDown = e.shuttingDown → Received e e'
  | read (r : ReadRequest) : e.channel = .read r :: e'.channel →
      e'.shuttingDown = e.shuttingDown → Received e e'
  | shutdown : e.channel = .shutdown :: e'.channel → e'.shuttingDown = true → Received e e'
  | close : e'.channel = [] → e'.shuttingDown = e.shuttingDown → Received e e'

/-- A step of the worker that keeps the gate keeps the order of commands. -/
theorem Closing.receive (hc : Closing s) (hs : Received s.engine e')
    (hg : e'.gate = s.engine.gate) (hst : e'.stopping = s.engine.stopping)
    (he : w'.Ends e') (hcl : ∀ a, e'.closed a = true → w' = .exited true) :
    Closing { s with engine := e', worker := w' } := by
  have hord : Ordered e'.channel := by
    have h := hc.ordered
    cases hs with
    | keep hch _ =>
        rw [hch]
        exact h
    | read r hch _ =>
        rw [hch] at h
        exact h.tail
    | shutdown hch _ =>
        rw [hch] at h
        exact h.tail
    | close hch _ =>
        rw [hch]
        trivial
  have hseal : .shutdown ∈ e'.channel ∨ e'.shuttingDown = true →
      .shutdown ∈ s.engine.channel ∨ s.engine.shuttingDown = true := by
    intro h
    cases hs with
    | keep hch hsd =>
        rw [hch, hsd] at h
        exact h
    | read r hch hsd =>
        rw [hsd] at h
        rw [hch]
        exact h.imp (List.mem_cons_of_mem _) id
    | shutdown hch hsd =>
        rw [hch]
        exact .inl (List.mem_cons_self ..)
    | close hch hsd =>
        rw [hch, hsd] at h
        exact .inr (h.resolve_left (List.not_mem_nil))
  have hdrain : e'.shuttingDown = true → owners e'.channel = [] := by
    intro h
    cases hs with
    | keep hch hsd =>
        rw [hsd] at h
        rw [hch]
        exact hc.drained h
    | read r hch hsd =>
        rw [hsd] at h
        have hold := hc.drained h
        rw [hch] at hold
        cases hold
    | shutdown hch _ =>
        have hold := hc.ordered
        rw [hch] at hold
        exact hold
    | close hch _ =>
        rw [hch]
        rfl
  refine ⟨?_, fun a ha => ?_, hord, fun h => ?_, hdrain, he, hcl⟩
  · rw [hg]
    exact hc.gate
  · rw [hst]
    exact hc.halting a ha
  · rw [hst]
    exact hc.sealed (hseal h)

theorem closing_worker {outcome : Outcome} (hc : Closing s)
    (hs : s.engine.stepWorker cfg outcome s.worker = some (e', w')) :
    Closing { s with engine := e', worker := w' } := by
  have hkeep : ∀ {e₁ w₁}, some (e₁, w₁) = some (e', w') → s.worker ≠ .exited true →
      Received s.engine e₁ → e₁.gate = s.engine.gate → e₁.stopping = s.engine.stopping →
      e₁.closed = s.engine.closed → w₁.Ends e₁ →
      Closing { s with engine := e', worker := w' } := by
    intro e₁ w₁ h hne hrec hg hst hcl he
    rcases Prod.mk.inj (Option.some.inj h) with ⟨rfl, rfl⟩
    refine hc.receive hrec hg hst he (fun a ha => ?_)
    rw [hcl] at ha
    exact absurd (hc.closed a ha) hne
  have hends := hc.ends
  cases hw : s.worker with
  | recv =>
      have hne : s.worker ≠ .exited true := by rw [hw]; rintro ⟨⟩
      rw [hw, Engine.stepWorker] at hs
      split at hs
      · split at hs
        · cases hs
        · rename_i r rest hch
          exact hkeep hs hne (.read r hch rfl) rfl rfl rfl trivial
        · rename_i rest hch
          exact hkeep hs hne (.shutdown hch rfl) rfl rfl rfl trivial
      · exact hkeep hs hne (.keep rfl rfl) rfl rfl rfl trivial
  | drain =>
      have hne : s.worker ≠ .exited true := by rw [hw]; rintro ⟨⟩
      rw [hw, Engine.stepWorker] at hs
      split at hs
      · exact hkeep hs hne (.keep rfl rfl) rfl rfl rfl trivial
      · rename_i r rest hch
        split at hs
        · exact hkeep hs hne (.read r hch rfl) rfl rfl rfl trivial
        · exact hkeep hs hne (.read r hch rfl) rfl rfl rfl trivial
      · rename_i rest hch
        exact hkeep hs hne (.shutdown hch rfl) rfl rfl rfl trivial
  | submit =>
      have hne : s.worker ≠ .exited true := by rw [hw]; rintro ⟨⟩
      rw [hw, Engine.stepWorker] at hs
      split at hs
      · exact hkeep hs hne (.keep rfl rfl) rfl rfl rfl trivial
      · exact hkeep hs hne (.keep rfl rfl) rfl rfl rfl trivial
  | allocate r =>
      have hne : s.worker ≠ .exited true := by rw [hw]; rintro ⟨⟩
      rw [hw, Engine.stepWorker] at hs
      dsimp only at hs
      split at hs
      · exact hkeep hs hne (.keep rfl rfl) rfl rfl rfl trivial
      · exact hkeep hs hne (.keep rfl rfl) rfl rfl rfl trivial
  | push u r =>
      have hne : s.worker ≠ .exited true := by rw [hw]; rintro ⟨⟩
      rw [hw, Engine.stepWorker] at hs
      split at hs
      · exact hkeep hs hne (.keep rfl rfl) rfl rfl rfl trivial
      · exact hkeep hs hne (.keep rfl rfl) rfl rfl rfl trivial
  | check =>
      have hne : s.worker ≠ .exited true := by rw [hw]; rintro ⟨⟩
      rw [hw, Engine.stepWorker] at hs
      split at hs
      · rename_i hi
        split at hs
        · rename_i hstop
          exact hkeep hs hne (.keep rfl rfl) rfl rfl rfl ⟨hstop.2, hi, fun _ => hstop.1, (by rintro ⟨⟩)⟩
        · exact hkeep hs hne (.keep rfl rfl) rfl rfl rfl trivial
      · rename_i hi
        exact hkeep hs hne (.keep rfl rfl) rfl rfl rfl hi
  | enter =>
      have hne : s.worker ≠ .exited true := by rw [hw]; rintro ⟨⟩
      rw [hw] at hs hends
      cases outcome with
      | ok => exact hkeep hs hne (.keep rfl rfl) rfl rfl rfl ⟨hends, rfl⟩
      | interrupted => exact hkeep hs hne (.keep rfl rfl) rfl rfl rfl hends
      | failed => exact hkeep hs hne (.keep rfl rfl) rfl rfl rfl trivial
  | waiting =>
      have hne : s.worker ≠ .exited true := by rw [hw]; rintro ⟨⟩
      rw [hw] at hs hends
      cases outcome with
      | ok =>
          rw [Engine.stepWorker] at hs
          split at hs
          · exact hkeep hs hne (.keep rfl rfl) rfl rfl rfl trivial
          · exact hkeep hs hne (.keep rfl rfl) rfl rfl rfl trivial
      | interrupted => exact hkeep hs hne (.keep rfl rfl) rfl rfl rfl hends.1
      | failed => exact hkeep hs hne (.keep rfl rfl) rfl rfl rfl trivial
  | reap completions =>
      have hne : s.worker ≠ .exited true := by rw [hw]; rintro ⟨⟩
      rw [hw] at hs
      cases completions with
      | nil => exact hkeep hs hne (.keep rfl rfl) rfl rfl rfl trivial
      | cons x rest =>
          rw [Engine.stepWorker] at hs
          split at hs
          · exact hkeep hs hne (.keep rfl rfl) rfl rfl rfl trivial
          · exact hkeep hs hne (.keep rfl rfl) rfl rfl rfl trivial
  | failing =>
      have hne : s.worker ≠ .exited true := by rw [hw]; rintro ⟨⟩
      rw [hw] at hs
      exact hkeep hs hne (.keep rfl rfl) rfl rfl rfl rfl
  | failAll =>
      have hne : s.worker ≠ .exited true := by rw [hw]; rintro ⟨⟩
      rw [hw] at hends
      rw [hw, Engine.stepWorker] at hs
      split at hs
      · exact hkeep hs hne (.keep rfl rfl) rfl rfl rfl hends
      · exact hkeep hs hne (.keep rfl rfl) rfl rfl rfl hends
      · rename_i hp hi
        exact hkeep hs hne (.keep rfl rfl) rfl rfl rfl ⟨hp, hi, (by rintro ⟨⟩), fun _ => hends⟩
  | exiting fatal =>
      rw [hw] at hs hends
      rcases Prod.mk.inj (Option.some.inj hs) with ⟨rfl, rfl⟩
      refine hc.receive (.close rfl rfl) rfl rfl
        ⟨hends.1, hends.2.1, hends.2.2.1, hends.2.2.2, rfl⟩
        (fun a ha => ?_)
      cases fatal with
      | true => rfl
      | false =>
          -- every read has been received before the shutdown, so none is closed
          rcases Bool.or_eq_true_iff.mp ha with h | h
          · exact absurd (hc.closed a h) (by rw [hw]; rintro ⟨⟩)
          · have hmem : a ∈ owners s.engine.channel := mem_owners.mpr h
            rw [hc.drained (hends.2.2.1 rfl)] at hmem
            exact absurd hmem (List.not_mem_nil)
  | exited fatal =>
      rw [hw] at hs
      cases hs

theorem WorkerPc.Ends.of_eq (h : w.Ends e) (hp : e'.pending = e.pending)
    (hi : e'.inflight = e.inflight) (hsd : e'.shuttingDown = e.shuttingDown) (hq : e'.sq = e.sq)
    (hk : e.kernel = [] → e'.kernel = []) (hch : Engine.gone w = true → e'.channel = e.channel) : w.Ends e' := by
  cases w with
  | enter =>
      change e'.inflight ≠ []
      rw [hi]
      exact h
  | waiting =>
      change e'.inflight ≠ [] ∧ e'.sq = []
      rw [hi, hq]
      exact h
  | failAll => exact hk h
  | exiting fatal =>
      change e'.pending = [] ∧ e'.inflight = [] ∧ (fatal = false → e'.shuttingDown = true) ∧ _
      rw [hp, hi, hsd]
      exact ⟨h.1, h.2.1, h.2.2.1, fun hf => hk (h.2.2.2 hf)⟩
  | exited fatal =>
      change e'.pending = [] ∧ e'.inflight = [] ∧ (fatal = false → e'.shuttingDown = true) ∧ _ ∧
        e'.channel = []
      rw [hp, hi, hsd, hch rfl]
      exact ⟨h.1, h.2.1, h.2.2.1, fun hf => hk (h.2.2.2.1 hf), h.2.2.2.2⟩
  | _ => trivial

section Callers

variable {a : Caller} {pc' : CallerPc}

/-- What only the callers can change. -/
structure SameRing (e e' : Engine) : Prop where
  pending : e'.pending = e.pending
  inflight : e'.inflight = e.inflight
  shuttingDown : e'.shuttingDown = e.shuttingDown
  sq : e'.sq = e.sq
  kernel : e'.kernel = e.kernel
  closed : e'.closed = e.closed

theorem update_same {β : Type} (f : CallerPc → β) (callers : Caller → CallerPc) (a : Caller)
    (pc : CallerPc) (h : f pc = f (callers a)) (b : Caller) :
    f (update callers a pc b) = f (callers b) := by
  by_cases hb : b = a
  · rw [hb, update_self, h]
  · rw [update_of_ne hb]

theorem update_other {β : Type} (f : CallerPc → β) (callers : Caller → CallerPc) (a : Caller)
    (pc : CallerPc) (b : Caller) (hb : b ≠ a) : f (update callers a pc b) = f (callers b) := by
  rw [update_of_ne hb]

/-- A step of a caller that sends nothing keeps the order of commands. -/
theorem Closing.pass (hc : Closing s) (hr : SameRing s.engine e')
    (hch : e'.channel = s.engine.channel)
    (hg : Accounts e'.gate (fun b => (update s.callers a pc' b).reading)
      (fun b => (update s.callers a pc' b).closing) ())
    (hst : s.engine.stopping = true → e'.stopping = true)
    (hhalt : pc'.halting = true → e'.stopping = true)
    (hsend : pc'.sending = true → s.engine.stopping = false) :
    Closing { s with engine := e', callers := update s.callers a pc' } := by
  refine ⟨hg, fun b hb => ?_, ?_, fun h => ?_, fun h => ?_, ?_, fun b hb => ?_⟩
  · by_cases hba : b = a
    · change (update s.callers a pc' b).halting = true at hb
      rw [hba, update_self] at hb
      exact hhalt hb
    · change (update s.callers a pc' b).halting = true at hb
      rw [update_of_ne hba] at hb
      exact hst (hc.halting b hb)
  · rw [hch]
    exact hc.ordered
  · rw [hch, hr.shuttingDown] at h
    rcases hc.sealed h with ⟨hstop, hnone⟩
    refine ⟨hst hstop, fun b => ?_⟩
    by_cases hba : b = a
    · change (update s.callers a pc' b).sending = false
      rw [hba, update_self]
      by_contra hc'
      rw [hsend (Bool.eq_true_of_not_eq_false hc')] at hstop
      exact absurd hstop (by decide)
    · change (update s.callers a pc' b).sending = false
      rw [update_of_ne hba]
      exact hnone b
  · rw [hr.shuttingDown] at h
    rw [hch]
    exact hc.drained h
  · exact hc.ends.of_eq hr.pending hr.inflight hr.shuttingDown hr.sq (fun h => hr.kernel.trans h)
      (fun _ => hch)
  · rw [hr.closed] at hb
    exact hc.closed b hb

/-- The gate of a step that neither takes nor releases it. -/
theorem Closing.gate_same (hc : Closing s) (h1 : pc'.reading = (s.callers a).reading)
    (h2 : pc'.closing = (s.callers a).closing) :
    Accounts s.engine.gate (fun b => (update s.callers a pc' b).reading)
      (fun b => (update s.callers a pc' b).closing) () :=
  hc.gate.congr (update_same CallerPc.reading s.callers a pc' h1)
    (update_same CallerPc.closing s.callers a pc' h2)

/-- A send keeps the order of commands: a read is sent by a caller that is
    still let through, a shutdown by one that has closed the gate. -/
theorem Closing.send (hc : Closing s) {c : Command} {sent lost : CallerPc}
    (hs : s.engine.send cfg s.worker c sent lost = some (e', pc'))
    (hfrom : (s.callers a).sending = true ∧ c ≠ .shutdown ∨
      (s.callers a).closing = some () ∧ (s.callers a).halting = true ∧ c = .shutdown)
    (hsent : sent.reading = (s.callers a).reading ∧ sent.closing = (s.callers a).closing ∧
      (sent.halting = true → s.engine.stopping = true) ∧ sent.sending = false)
    (hlost : lost.reading = (s.callers a).reading ∧ lost.closing = (s.callers a).closing ∧
      (lost.halting = true → s.engine.stopping = true) ∧ lost.sending = false) :
    Closing { s with engine := e', callers := update s.callers a pc' } := by
  unfold Engine.send at hs
  split at hs
  · rcases Prod.mk.inj (Option.some.inj hs) with ⟨rfl, rfl⟩
    refine hc.pass ⟨rfl, rfl, rfl, rfl, rfl, rfl⟩ rfl (hc.gate_same hlost.1 hlost.2.1) id hlost.2.2.1
      (fun h => ?_)
    rw [hlost.2.2.2] at h
    exact absurd h (by decide)
  · rename_i hgone
    split at hs
    · rcases Prod.mk.inj (Option.some.inj hs) with ⟨rfl, rfl⟩
      rcases hsent with ⟨hread, hclose, hhalt, hquiet⟩
      have hopen : c ≠ .shutdown →
          .shutdown ∉ s.engine.channel ∧ s.engine.shuttingDown ≠ true := by
        intro hne
        rcases hfrom with ⟨hsend, -⟩ | ⟨-, -, hshut⟩
        · constructor
          · intro hmem
            rw [(hc.sealed (.inl hmem)).2 a] at hsend
            exact absurd hsend (by decide)
          · intro hsd
            rw [(hc.sealed (.inr hsd)).2 a] at hsend
            exact absurd hsend (by decide)
        · exact absurd hshut hne
      have hclosed : c = .shutdown →
          s.engine.stopping = true ∧ ∀ b, (s.callers b).sending = false := by
        intro hshut
        rcases hfrom with ⟨-, hne⟩ | ⟨hexc, hhalting, -⟩
        · exact absurd hshut hne
        · refine ⟨hc.halting a hhalting, fun b => ?_⟩
          by_contra hb
          have hbread : (s.callers b).reading = some () := by
            cases hpc : s.callers b with
            | readSend r => rfl
            | _ =>
                rw [hpc] at hb
                exact absurd rfl hb
          exact hc.gate.excludes hbread hexc
      refine ⟨hc.gate_same hread hclose, fun b hb => ?_, ?_, fun h => ?_, fun h => ?_, ?_, hc.closed⟩
      · by_cases hba : b = a
        · change (update s.callers a sent b).halting = true at hb
          rw [hba, update_self] at hb
          exact hhalt hb
        · change (update s.callers a sent b).halting = true at hb
          rw [update_of_ne hba] at hb
          exact hc.halting b hb
      · refine hc.ordered.send ?_
        by_cases hshut : c = .shutdown
        · exact .inr hshut
        · exact .inl (hopen hshut).1
      · have hall : s.engine.stopping = true ∧ ∀ b, (s.callers b).sending = false := by
          by_cases hshut : c = .shutdown
          · exact hclosed hshut
          · rcases h with h | h
            · rcases List.mem_append.mp h with h | h
              · exact hc.sealed (.inl h)
              · exact absurd (List.mem_singleton.mp h).symm hshut
            · exact hc.sealed (.inr h)
        refine ⟨hall.1, fun b => ?_⟩
        by_cases hba : b = a
        · change (update s.callers a sent b).sending = false
          rw [hba, update_self]
          exact hquiet
        · change (update s.callers a sent b).sending = false
          rw [update_of_ne hba]
          exact hall.2 b
      · by_cases hshut : c = .shutdown
        · have hold := hc.drained h
          change owners (s.engine.channel ++ [c]) = []
          unfold owners at hold ⊢
          rw [List.filterMap_append, hold, hshut]
          rfl
        · exact absurd h (hopen hshut).2
      · exact hc.ends.of_eq rfl rfl rfl rfl id (fun hg => absurd hg hgone)
    · cases hs

theorem closing_caller {call : UringCall} (hc : Closing s)
    (hs : s.engine.stepCaller cfg s.worker call a (s.callers a) = some (e', pc')) :
    Closing { s with engine := e', callers := update s.callers a pc' } := by
  have hkeep : ∀ {pc₁}, some (s.engine, pc₁) = some (e', pc') →
      pc₁.reading = (s.callers a).reading → pc₁.closing = (s.callers a).closing →
      (pc₁.halting = true → s.engine.stopping = true) →
      (pc₁.sending = true → s.engine.stopping = false) →
      Closing { s with engine := e', callers := update s.callers a pc' } := by
    intro pc₁ h h1 h2 h3 h4
    rcases Prod.mk.inj (Option.some.inj h) with ⟨rfl, rfl⟩
    exact hc.pass ⟨rfl, rfl, rfl, rfl, rfl, rfl⟩ rfl (hc.gate_same h1 h2) id h3 h4
  have hother1 : ∀ b, b ≠ a → (update s.callers a pc' b).reading = (s.callers b).reading :=
    fun b hb => update_other CallerPc.reading s.callers a pc' b hb
  have hother2 : ∀ b, b ≠ a → (update s.callers a pc' b).closing = (s.callers b).closing :=
    fun b hb => update_other CallerPc.closing s.callers a pc' b hb
  have hgate := hc.gate
  cases hpc : s.callers a with
  | idle =>
      rw [hpc] at hs
      cases call with
      | read rawFd location =>
          exact hkeep hs (by rw [hpc]; rfl) (by rw [hpc]; rfl) (by rintro ⟨⟩) (by rintro ⟨⟩)
      | shutdown => exact hkeep hs (by rw [hpc]; rfl) (by rw [hpc]; rfl) (by rintro ⟨⟩) (by rintro ⟨⟩)
  | readGate r =>
      rw [hpc, Engine.stepCaller] at hs
      split at hs
      · rename_i n hg
        rcases Prod.mk.inj (Option.some.inj hs) with ⟨rfl, rfl⟩
        refine hc.pass ⟨rfl, rfl, rfl, rfl, rfl, rfl⟩ rfl ?_ id (by rintro ⟨⟩) (by rintro ⟨⟩)
        rw [hg] at hgate
        refine hgate.acquireShared (a := a) hother1 (update_same CallerPc.closing s.callers a _ ?_)
          ?_ ?_
        · rw [hpc]
          rfl
        · rw [hpc]
          rintro ⟨⟩
        · rw [update_self]
          rfl
      · cases hs
  | readCheck r =>
      rw [hpc, Engine.stepCaller] at hs
      split at hs
      · exact hkeep hs (by rw [hpc]; rfl) (by rw [hpc]; rfl) (by rintro ⟨⟩) (by rintro ⟨⟩)
      · rename_i hstop
        exact hkeep hs (by rw [hpc]; rfl) (by rw [hpc]; rfl) (by rintro ⟨⟩)
          (fun _ => Bool.eq_false_of_not_eq_true hstop)
  | readSend r =>
      rw [hpc] at hs
      exact hc.send hs (.inl ⟨by rw [hpc]; rfl, (by rintro ⟨⟩)⟩)
        (by rw [hpc]; exact ⟨rfl, rfl, (by rintro ⟨⟩), rfl⟩) (by rw [hpc]; exact ⟨rfl, rfl, (by rintro ⟨⟩), rfl⟩)
  | readUngate accepted =>
      rw [hpc, Engine.stepCaller] at hs
      split at hs
      · rename_i n hg
        rcases Prod.mk.inj (Option.some.inj hs) with ⟨rfl, hpc'⟩
        have hquiet : pc'.reading = none ∧ pc'.closing = none ∧ pc'.halting = false ∧
            pc'.sending = false := by
          rw [← hpc']
          cases accepted <;> exact ⟨rfl, rfl, rfl, rfl⟩
        refine hc.pass ⟨rfl, rfl, rfl, rfl, rfl, rfl⟩ rfl ?_ id
          (fun h => absurd (hquiet.2.2.1.symm.trans h) (by decide))
          (fun h => absurd (hquiet.2.2.2.symm.trans h) (by decide))
        rw [hg] at hgate
        refine hgate.releaseShared (a := a) hother1
          (update_same CallerPc.closing s.callers a _ ?_) ?_ ?_
        · rw [hpc, hquiet.2.1]
          rfl
        · rw [hpc]
          rfl
        · rw [update_self, hquiet.1]
          rintro ⟨⟩
      · cases hs
  | readWait =>
      rw [hpc, Engine.stepCaller] at hs
      split at hs
      · exact hkeep hs (by rw [hpc]; rfl) (by rw [hpc]; rfl) (by rintro ⟨⟩) (by rintro ⟨⟩)
      · split at hs
        · exact hkeep hs (by rw [hpc]; rfl) (by rw [hpc]; rfl) (by rintro ⟨⟩) (by rintro ⟨⟩)
        · cases hs
  | stopLock =>
      rw [hpc, Engine.stepCaller] at hs
      split at hs
      · cases hs
      · rcases Prod.mk.inj (Option.some.inj hs) with ⟨rfl, rfl⟩
        exact hc.pass ⟨rfl, rfl, rfl, rfl, rfl, rfl⟩ rfl
          (hc.gate_same (by rw [hpc]; rfl) (by rw [hpc]; rfl)) id (by rintro ⟨⟩) (by rintro ⟨⟩)
  | stopSwap =>
      rw [hpc] at hs
      rcases Prod.mk.inj (Option.some.inj hs) with ⟨rfl, rfl⟩
      exact hc.pass ⟨rfl, rfl, rfl, rfl, rfl, rfl⟩ rfl
        (hc.gate_same (by rw [hpc]; rfl) (by rw [hpc]; rfl)) (fun _ => rfl) (fun _ => rfl) (by rintro ⟨⟩)
  | stopGate first =>
      have hstop := hc.halting a (by rw [hpc]; rfl)
      rw [hpc, Engine.stepCaller] at hs
      split at hs
      · rename_i hg
        rcases Prod.mk.inj (Option.some.inj hs) with ⟨rfl, hpc'⟩
        have hquiet : pc'.reading = none ∧ pc'.closing = some () ∧ pc'.sending = false := by
          rw [← hpc']
          cases first <;> exact ⟨rfl, rfl, rfl⟩
        refine hc.pass ⟨rfl, rfl, rfl, rfl, rfl, rfl⟩ rfl ?_ id (fun _ => hstop)
          (fun h => absurd (hquiet.2.2.symm.trans h) (by decide))
        rw [hg] at hgate
        refine hgate.acquireExclusive (a := a)
          (update_same CallerPc.reading s.callers a _ ?_) hother2 ?_
        · rw [hpc, hquiet.1]
          rfl
        · rw [update_self, hquiet.2.1]
      · cases hs
  | stopSend =>
      have hstop := hc.halting a (by rw [hpc]; rfl)
      rw [hpc] at hs
      exact hc.send hs (.inr ⟨by rw [hpc]; rfl, by rw [hpc]; rfl, rfl⟩)
        (by rw [hpc]; exact ⟨rfl, rfl, fun _ => hstop, rfl⟩)
        (by rw [hpc]; exact ⟨rfl, rfl, fun _ => hstop, rfl⟩)
  | stopJoin =>
      have hstop := hc.halting a (by rw [hpc]; rfl)
      rw [hpc, Engine.stepCaller] at hs
      split at hs
      · exact hkeep hs (by rw [hpc]; rfl) (by rw [hpc]; rfl) (fun _ => hstop) (by rintro ⟨⟩)
      · cases hs
  | stopUngate =>
      rw [hpc] at hs
      rcases Prod.mk.inj (Option.some.inj hs) with ⟨rfl, rfl⟩
      refine hc.pass ⟨rfl, rfl, rfl, rfl, rfl, rfl⟩ rfl ?_ id (by rintro ⟨⟩) (by rintro ⟨⟩)
      have hexc : (s.callers a).closing = some () := by
        rw [hpc]
        rfl
      rw [hgate.exclusive_of_holds hexc] at hgate
      refine hgate.releaseExclusive (a := a)
        (update_same CallerPc.reading s.callers a _ ?_) hother2 hexc ?_
      · rw [hpc]
        rfl
      · rw [update_self]
        rintro ⟨⟩
  | stopUnlock =>
      rw [hpc] at hs
      rcases Prod.mk.inj (Option.some.inj hs) with ⟨rfl, rfl⟩
      exact hc.pass ⟨rfl, rfl, rfl, rfl, rfl, rfl⟩ rfl
        (hc.gate_same (by rw [hpc]; rfl) (by rw [hpc]; rfl)) id (by rintro ⟨⟩) (by rintro ⟨⟩)
  | answered x =>
      rw [hpc] at hs
      cases hs
  | disconnected =>
      rw [hpc] at hs
      cases hs
  | refused =>
      rw [hpc] at hs
      cases hs
  | stopped =>
      rw [hpc] at hs
      cases hs

end Callers

/-! ### The invariant -/

/-- The invariant of the engine. -/
structure UringInv (s : RingState) : Prop where
  custody : Custody s
  mapped : Mapped s.engine s.worker
  tracks : s.worker.live = true → Tracks s.engine s.worker
  answers : ∀ a x, x ∈ s.engine.replies a → Answers s.engine s.worker a x
  closing : Closing s
  received : ∀ a x, s.callers a = .answered x → x ∈ s.engine.replies a

/-- A ring that has been closed stays closed. -/
theorem RingMove.live_of_live (hs : RingMove e e' w w') (hl : w'.live = true) : w.live = true := by
  cases hs with
  | keep _ _ _ _ _ _ _ hlive => exact hlive.symm.trans hl
  | allocate u r hw _ _ _ _ _ _ _ => rw [hw]; rfl
  | queue u r hw _ _ _ _ _ => rw [hw]; rfl
  | requeue u r hw _ _ _ _ _ => rw [hw]; rfl
  | enter hw _ _ _ _ _ => rw [hw]; rfl
  | collect hw _ _ _ _ _ _ => rw [hw]; rfl
  | reap u result rest r hw _ _ _ _ _ _ => rw [hw]; rfl
  | lost u result rest hw _ _ _ => rw [hw]; rfl
  | fail hdead _ _ => exact absurd (hdead.symm.trans hl) (by decide)

theorem answers_worker {outcome : Outcome} (hi : UringInv s)
    (hs : s.engine.stepWorker cfg outcome s.worker = some (e', w')) :
    (∀ a x, x ∈ s.engine.replies a → x ∈ e'.replies a) ∧
      ∀ a x, x ∈ e'.replies a → Answers e' w' a x := by
  rcases ringMove_worker hs with ⟨hmove, hres⟩
  have hmono : ∀ a x, Answers s.engine s.worker a x → Answers e' w' a x := by
    rintro a x (⟨result, hr, hx⟩ | ⟨hx, hdead⟩)
    · exact .inl ⟨result, by rw [hres]; exact hr, hx⟩
    · refine .inr ⟨hx, ?_⟩
      by_contra hl
      rw [hmove.live_of_live (Bool.eq_true_of_not_eq_false hl)] at hdead
      exact absurd hdead (by decide)
  have hsame : e'.replies = s.engine.replies →
      (∀ a x, x ∈ s.engine.replies a → x ∈ e'.replies a) ∧
        ∀ a x, x ∈ e'.replies a → Answers e' w' a x := by
    intro hr
    rw [hr]
    exact ⟨fun _ _ => id, fun a x h => hmono a x (hi.answers a x h)⟩
  cases passed_worker hi.mapped.keyed hs with
  | keep _ hr _ => exact hsame hr
  | close _ _ _ hr _ => exact hsame hr
  | answer c y hwhy _ hr _ =>
      have hy : Answers e' w' c y := by
        cases hwhy with
        | completed u result rest r hw hl hrc =>
            have ht := hi.tracks (by rw [hw]; rfl)
            have hdue : (u, result) ∈ s.worker.due := by
              rw [hw]
              exact List.mem_cons_self ..
            rcases ht.lookup_due hi.mapped.keyed hdue with ⟨q, hq, hqr⟩
            rw [hl, Option.some.injEq] at hq
            rw [← hq, hrc] at hqr
            exact .inl ⟨result, by rw [hres]; exact hqr, rfl⟩
        | stopped r rest _ hsd hch =>
            have hnone := hi.closing.drained hsd
            rw [hch] at hnone
            cases hnone
        | failed _ hw' => exact .inr ⟨rfl, by rw [hw']; rfl⟩
      rw [hr]
      constructor
      · intro a x hx
        by_cases ha : a = c
        · rw [ha] at hx ⊢
          rw [update_self]
          exact List.mem_cons_of_mem _ hx
        · rw [update_of_ne ha]
          exact hx
      · intro a x hx
        by_cases ha : a = c
        · rw [ha, update_self] at hx
          rcases List.mem_cons.mp hx with rfl | hx
          · rw [ha]
            exact hy
          · rw [ha]
            exact hmono c x (hi.answers c x hx)
        · rw [update_of_ne ha] at hx
          exact hmono a x (hi.answers a x hx)

/-- Callers change neither the map nor the ring nor the replies. -/
structure SameAnswers (e e' : Engine) : Prop where
  ring : SameRing e e'
  kernel : e'.kernel = e.kernel
  cq : e'.cq = e.cq
  replies : e'.replies = e.replies
  results : e'.results = e.results

theorem sameAnswers_caller {call : UringCall} {a : Caller} {pc pc' : CallerPc}
    (hs : e.stepCaller cfg w call a pc = some (e', pc')) : SameAnswers e e' := by
  have hkeep : ∀ {e₁ pc₁}, some (e₁, pc₁) = some (e', pc') → SameAnswers e e₁ →
      SameAnswers e e' := by
    intro e₁ pc₁ h hsame
    rw [← (Prod.mk.inj (Option.some.inj h)).1]
    exact hsame
  have hsend : ∀ {c sent lost}, e.send cfg w c sent lost = some (e', pc') →
      SameAnswers e e' := by
    intro c sent lost h
    unfold Engine.send at h
    split at h
    · exact hkeep h ⟨⟨rfl, rfl, rfl, rfl, rfl, rfl⟩, rfl, rfl, rfl, rfl⟩
    · split at h
      · exact hkeep h ⟨⟨rfl, rfl, rfl, rfl, rfl, rfl⟩, rfl, rfl, rfl, rfl⟩
      · cases h
  cases pc with
  | idle =>
      cases call with
      | read rawFd location => exact hkeep hs ⟨⟨rfl, rfl, rfl, rfl, rfl, rfl⟩, rfl, rfl, rfl, rfl⟩
      | shutdown => exact hkeep hs ⟨⟨rfl, rfl, rfl, rfl, rfl, rfl⟩, rfl, rfl, rfl, rfl⟩
  | readGate r =>
      rw [Engine.stepCaller] at hs
      split at hs
      · exact hkeep hs ⟨⟨rfl, rfl, rfl, rfl, rfl, rfl⟩, rfl, rfl, rfl, rfl⟩
      · cases hs
  | readCheck r =>
      rw [Engine.stepCaller] at hs
      split at hs <;> exact hkeep hs ⟨⟨rfl, rfl, rfl, rfl, rfl, rfl⟩, rfl, rfl, rfl, rfl⟩
  | readSend r => exact hsend hs
  | readUngate accepted =>
      rw [Engine.stepCaller] at hs
      split at hs
      · exact hkeep hs ⟨⟨rfl, rfl, rfl, rfl, rfl, rfl⟩, rfl, rfl, rfl, rfl⟩
      · cases hs
  | readWait =>
      rw [Engine.stepCaller] at hs
      split at hs
      · exact hkeep hs ⟨⟨rfl, rfl, rfl, rfl, rfl, rfl⟩, rfl, rfl, rfl, rfl⟩
      · split at hs
        · exact hkeep hs ⟨⟨rfl, rfl, rfl, rfl, rfl, rfl⟩, rfl, rfl, rfl, rfl⟩
        · cases hs
  | stopLock =>
      rw [Engine.stepCaller] at hs
      split at hs
      · cases hs
      · exact hkeep hs ⟨⟨rfl, rfl, rfl, rfl, rfl, rfl⟩, rfl, rfl, rfl, rfl⟩
  | stopSwap => exact hkeep hs ⟨⟨rfl, rfl, rfl, rfl, rfl, rfl⟩, rfl, rfl, rfl, rfl⟩
  | stopGate first =>
      rw [Engine.stepCaller] at hs
      split at hs
      · exact hkeep hs ⟨⟨rfl, rfl, rfl, rfl, rfl, rfl⟩, rfl, rfl, rfl, rfl⟩
      · cases hs
  | stopSend => exact hsend hs
  | stopJoin =>
      rw [Engine.stepCaller] at hs
      split at hs
      · exact hkeep hs ⟨⟨rfl, rfl, rfl, rfl, rfl, rfl⟩, rfl, rfl, rfl, rfl⟩
      · cases hs
  | stopUngate => exact hkeep hs ⟨⟨rfl, rfl, rfl, rfl, rfl, rfl⟩, rfl, rfl, rfl, rfl⟩
  | stopUnlock => exact hkeep hs ⟨⟨rfl, rfl, rfl, rfl, rfl, rfl⟩, rfl, rfl, rfl, rfl⟩
  | answered x => cases hs
  | disconnected => cases hs
  | refused => cases hs
  | stopped => cases hs

/-- A caller returns a reply that it has received. -/
theorem received_caller {call : UringCall} {a : Caller} {pc : CallerPc} {x : Reply}
    (hs : e.stepCaller cfg w call a pc = some (e', .answered x)) : x ∈ e.replies a := by
  have hno : ∀ {e₁ pc₁}, some (e₁, pc₁) = some (e', CallerPc.answered x) →
      (∀ y, pc₁ ≠ .answered y) → x ∈ e.replies a := by
    intro e₁ pc₁ h hne
    exact absurd (Prod.mk.inj (Option.some.inj h)).2 (hne x)
  have hsend : ∀ {c sent lost}, e.send cfg w c sent lost = some (e', .answered x) →
      (∀ y, sent ≠ .answered y) → (∀ y, lost ≠ .answered y) → x ∈ e.replies a := by
    intro c sent lost h h1 h2
    unfold Engine.send at h
    split at h
    · exact hno h h2
    · split at h
      · exact hno h h1
      · cases h
  cases pc with
  | readWait =>
      rw [Engine.stepCaller] at hs
      split at hs
      · rename_i y rest hy
        rcases CallerPc.answered.inj (Prod.mk.inj (Option.some.inj hs)).2 with rfl
        rw [hy]
        exact List.mem_cons_self ..
      · split at hs
        · exact hno hs (fun _ => by rintro ⟨⟩)
        · cases hs
  | idle =>
      cases call with
      | read rawFd location => exact hno hs (fun _ => by rintro ⟨⟩)
      | shutdown => exact hno hs (fun _ => by rintro ⟨⟩)
  | readGate r =>
      rw [Engine.stepCaller] at hs
      split at hs
      · exact hno hs (fun _ => by rintro ⟨⟩)
      · cases hs
  | readCheck r =>
      rw [Engine.stepCaller] at hs
      split at hs <;> exact hno hs (fun _ => by rintro ⟨⟩)
  | readSend r => exact hsend hs (fun _ => by rintro ⟨⟩) (fun _ => by rintro ⟨⟩)
  | readUngate accepted =>
      rw [Engine.stepCaller] at hs
      split at hs
      · cases accepted <;> exact hno hs (fun _ => by rintro ⟨⟩)
      · cases hs
  | stopLock =>
      rw [Engine.stepCaller] at hs
      split at hs
      · cases hs
      · exact hno hs (fun _ => by rintro ⟨⟩)
  | stopSwap => exact hno hs (fun _ => by rintro ⟨⟩)
  | stopGate first =>
      rw [Engine.stepCaller] at hs
      split at hs
      · cases first <;> exact hno hs (fun _ => by rintro ⟨⟩)
      · cases hs
  | stopSend => exact hsend hs (fun _ => by rintro ⟨⟩) (fun _ => by rintro ⟨⟩)
  | stopJoin =>
      rw [Engine.stepCaller] at hs
      split at hs
      · exact hno hs (fun _ => by rintro ⟨⟩)
      · cases hs
  | stopUngate => exact hno hs (fun _ => by rintro ⟨⟩)
  | stopUnlock => exact hno hs (fun _ => by rintro ⟨⟩)
  | answered y => cases hs
  | disconnected => cases hs
  | refused => cases hs
  | stopped => cases hs

theorem uringInv_initial : UringInv RingState.initial where
  custody := by
    refine ⟨List.nodup_nil, fun a => ?_, fun a => .inl rfl, fun a h => ?_, fun a r h => ?_⟩
    · exact ⟨fun h => absurd h (List.not_mem_nil), fun h => absurd h.1 Bool.false_ne_true⟩
    · exact absurd h Bool.false_ne_true
    · cases h
  mapped := ⟨⟨List.nodup_nil, fun u r h => by cases h⟩, fun x h => absurd h (List.not_mem_nil)⟩
  tracks := by
    intro _
    refine ⟨List.Perm.refl _, fun q h => ?_, fun u result h => ?_⟩
    · rcases h with h | h <;> exact absurd h (List.not_mem_nil)
    · rcases h with h | h <;> exact absurd h (List.not_mem_nil)
  answers := fun a x h => absurd h (List.not_mem_nil)
  closing := by
    refine ⟨?_, fun a h => ?_, trivial, fun h => ?_, fun h => ?_, trivial, fun a h => ?_⟩
    · exact ⟨tally_eq_zero.mpr (fun _ => nofun), tally_eq_zero.mpr (fun _ => nofun)⟩
    · exact absurd h Bool.false_ne_true
    · rcases h with h | h
      · exact absurd h (List.not_mem_nil)
      · exact absurd h Bool.false_ne_true
    · exact absurd h Bool.false_ne_true
    · exact absurd h Bool.false_ne_true
  received := fun a x h => by cases h

/-- The kernel has something to complete only while the ring is open. -/
theorem live_of_kernel (h : w.Ends e) (hk : e.kernel ≠ []) : w.live = true := by
  cases w with
  | failAll => exact absurd h hk
  | exiting fatal =>
      cases fatal with
      | true => exact absurd (h.2.2.2 rfl) hk
      | false => rfl
  | exited fatal =>
      cases fatal with
      | true => exact absurd (h.2.2.2.1 rfl) hk
      | false => rfl
  | _ => rfl

theorem uringInv_kernel {position : Nat} {result : Int} (hi : UringInv s)
    (hc : Custody { s with engine := e' })
    (hs : s.engine.stepKernel position result = some e') : UringInv { s with engine := e' } := by
  have hlive : s.worker.live = true := by
    refine live_of_kernel hi.closing.ends (fun hnone => ?_)
    unfold Engine.stepKernel at hs
    rw [hnone] at hs
    cases hs
  have ht := hi.tracks hlive
  have htracks := tracks_kernel hi.mapped hi.custody.nodup ht hs
  unfold Engine.stepKernel at hs
  split at hs
  · cases hs
  · rename_i q hq
    have hmem : q ∈ s.engine.kernel := List.mem_of_getElem? hq
    have hwait := hi.custody.of_held (mem_held_of_inflight (ht.entries q (.inr hmem)))
    rcases Option.some.inj hs with rfl
    refine ⟨hc, ⟨⟨hi.mapped.keyed.nodup, hi.mapped.keyed.pushing⟩, hi.mapped.nonzero⟩,
      fun _ => htracks, fun a x hx => ?_, ?_, hi.received⟩
    · have hx' : x ∈ s.engine.replies a := hx
      rcases hi.answers a x hx' with ⟨res, hr, hxr⟩ | hdead
      · refine .inl ⟨res, ?_, hxr⟩
        have hne : a ≠ q.request.caller := by
          intro ha
          rw [ha, hwait.2.1] at hx'
          exact absurd hx' (List.not_mem_nil)
        change update s.engine.results _ _ a = _
        rw [update_of_ne hne, hr]
      · exact .inr hdead
    · have hcl := hi.closing
      refine ⟨hcl.gate, hcl.halting, hcl.ordered, hcl.sealed, hcl.drained, ?_, hcl.closed⟩
      refine hcl.ends.of_eq rfl rfl rfl rfl (fun hnone => ?_) (fun _ => rfl)
      rw [hnone] at hmem
      exact absurd hmem (List.not_mem_nil)

theorem uringInv_next {m : Mover} (hi : UringInv s) (hs : s.next cfg m = some s') :
    UringInv s' := by
  rcases handover_of_next hi.custody hi.mapped.keyed hs with ⟨hhand, hnamed⟩
  have hcustody := hi.custody.handover hhand hnamed
  cases m with
  | worker outcome =>
      rcases Option.map_eq_some_iff.mp hs with ⟨⟨e', w'⟩, hstep, rfl⟩
      rcases ringMove_worker hstep with ⟨hmove, hres⟩
      rcases answers_worker hi hstep with ⟨hmono, hans⟩
      exact ⟨hcustody, mapped_move hi.mapped hmove, tracks_move hi.mapped hi.tracks hmove hres,
        hans, closing_worker hi.closing hstep, fun a x h => hmono a x (hi.received a x h)⟩
  | caller a call =>
      rcases Option.map_eq_some_iff.mp hs with ⟨⟨e', pc'⟩, hstep, rfl⟩
      have hsame := sameAnswers_caller hstep
      have hrep : e'.replies = s.engine.replies := hsame.replies
      refine ⟨hcustody, ⟨⟨?_, fun u r h => ?_⟩, fun x hx => ?_⟩, fun hl => ?_, fun b x hx => ?_,
        closing_caller hi.closing hstep, fun b x hb => ?_⟩
      · exact hsame.ring.inflight ▸ hi.mapped.keyed.nodup
      · exact hsame.ring.inflight ▸ hi.mapped.keyed.pushing u r h
      · exact hi.mapped.nonzero x (hsame.ring.inflight ▸ hx)
      · refine (hi.tracks hl).of_perm hsame.ring.inflight ?_ (fun q h => ?_) (fun x h => ?_)
          hsame.results
        · unfold tracked
          rw [hsame.ring.sq, hsame.kernel, hsame.cq]
        · rw [← hsame.ring.sq, ← hsame.kernel]
          exact h
        · rw [← hsame.cq]
          exact h
      · rw [show e'.replies b = s.engine.replies b from congrFun hrep b] at hx
        rcases hi.answers b x hx with ⟨result, hr, hxr⟩ | hdead
        · exact .inl ⟨result, by rw [hsame.results]; exact hr, hxr⟩
        · exact .inr hdead
      · change x ∈ e'.replies b
        rw [hrep]
        by_cases hba : b = a
        · rw [hba] at hb ⊢
          change update s.callers a pc' a = _ at hb
          rw [update_self] at hb
          subst hb
          exact received_caller hstep
        · change update s.callers a pc' b = _ at hb
          rw [update_of_ne hba] at hb
          exact hi.received b x hb
  | kernel position result =>
      rcases Option.map_eq_some_iff.mp hs with ⟨e', hstep, rfl⟩
      exact uringInv_kernel hi hcustody hstep

theorem uringInv_reachable (hr : Reachable (engine cfg) s) : UringInv s := by
  refine reachable_invariant (I := UringInv) ?_ (fun _ _ _ hi hs => uringInv_next hi hs) hr
  rintro s rfl
  exact uringInv_initial

/-! ### What callers are promised -/

/-- Reads complete exactly once, each with its own data. -/
structure CompletesOnce (cfg : RingConfig) (s : RingState) : Prop where
  once : ∀ a, (s.engine.replies a).length ≤ 1
  returned : ∀ a x, s.callers a = .answered x → s.engine.replies a = [x]
  /-- A reply is that of the request's own completion, unless the ring has failed. -/
  own : ∀ a x, x ∈ s.engine.replies a →
    (∃ result, s.engine.results a = some result ∧ x = completeCqe a result) ∨
      (x = .ringFailed ∧ s.worker.live = false)
  page : ∀ a b, .page b ∈ s.engine.replies a →
    b = a ∧ s.engine.results a = some (PAGE_SIZE : Int)
  notStopped : ∀ a, .engineStopped ∉ s.engine.replies a
  /-- An accepted request that has no reply is held in one place. -/
  accounted : ∀ a, (s.callers a).accepted = true → (∃ x, s.engine.replies a = [x]) ∨
    (held s.engine s.worker).count a = 1 ∨ (s.engine.closed a = true ∧ s.worker = .exited true)
  /-- While a request is held, the kernel has an entry to complete or the worker moves on. -/
  progress : ∀ a ∈ held s.engine s.worker, s.worker.live = true → s.worker ≠ .failing →
    s.engine.kernel ≠ [] ∨
      ∃ s', s.next cfg (.worker .ok) = some s' ∧ s'.worker.live = true ∧ s'.worker ≠ .failing
  distinct : (s.engine.inflight.map Prod.fst).Nodup
  nonzero : ∀ u r, (u, r) ∈ s.engine.inflight → u ≠ 0
  ended : ∀ fatal, s.worker = .exited fatal → ∀ a, (s.callers a).accepted = true →
    (∃ x, s.engine.replies a = [x]) ∨ (fatal = true ∧ s.engine.closed a = true)
  empty : s.worker = .exiting false ∨ s.worker = .exited false →
    s.engine.pending = [] ∧ s.engine.inflight = []

theorem completeCqe_ne_stopped (a : Caller) (result : Int) :
    completeCqe a result ≠ .engineStopped := by
  unfold completeCqe
  split
  · rintro ⟨⟩
  · split <;> rintro ⟨⟩

theorem completeCqe_eq_page {a b : Caller} {result : Int} (h : .page b = completeCqe a result) :
    b = a ∧ result = PAGE_SIZE := by
  unfold completeCqe at h
  split at h
  · cases h
  · split at h
    · cases h
    · rename_i hsize
      exact ⟨Reply.page.inj h, not_not.mp hsize⟩

/-- A worker that waits for the kernel has given it something to complete. -/
theorem kernel_ne_nil (ht : Tracks e .waiting) (hi : e.inflight ≠ []) (hq : e.sq = [])
    (hcq : e.cq = []) : e.kernel ≠ [] := by
  intro hk
  have hkeys := ht.keys
  unfold tracked at hkeys
  rw [hq, hk, hcq] at hkeys
  exact hi (List.map_eq_nil_iff.mp (List.nil_perm.mp hkeys))

theorem worker_progress (hi : UringInv s) {a : Caller} (ha : a ∈ held s.engine s.worker)
    (hl : s.worker.live = true) (hf : s.worker ≠ .failing) : s.engine.kernel ≠ [] ∨
      ∃ s', s.next cfg (.worker .ok) = some s' ∧ s'.worker.live = true ∧ s'.worker ≠ .failing := by
  have hstep : ∀ w₁ {e₁}, s.engine.stepWorker cfg .ok s.worker = some (e₁, w₁) →
      w₁.live = true → w₁ ≠ .failing →
      ∃ s', s.next cfg (.worker .ok) = some s' ∧ s'.worker.live = true ∧ s'.worker ≠ .failing := by
    intro w₁ e₁ h h1 h2
    refine ⟨{ s with engine := e₁, worker := w₁ }, ?_, h1, h2⟩
    exact Option.map_eq_some_iff.mpr ⟨_, h, rfl⟩
  have hends := hi.closing.ends
  cases hw : s.worker with
  | recv =>
      rw [hw] at ha
      by_cases hidle : s.engine.pending = [] ∧ s.engine.inflight = [] ∧
          s.engine.shuttingDown = false
      · cases hch : s.engine.channel with
        | nil =>
            unfold held at ha
            rw [hidle.1, hidle.2.1, hch] at ha
            exact absurd ha (List.not_mem_nil)
        | cons c rest =>
            cases c with
            | read r =>
                exact .inr (hstep .drain (by rw [hw, Engine.stepWorker, if_pos hidle, hch]) rfl (by rintro ⟨⟩))
            | shutdown =>
                exact .inr (hstep .drain (by rw [hw, Engine.stepWorker, if_pos hidle, hch]) rfl (by rintro ⟨⟩))
      · exact .inr (hstep .drain (by rw [hw, Engine.stepWorker, if_neg hidle]) rfl (by rintro ⟨⟩))
  | drain =>
      cases hch : s.engine.channel with
      | nil => exact .inr (hstep .submit (by rw [hw, Engine.stepWorker, hch]) rfl (by rintro ⟨⟩))
      | cons c rest =>
          cases c with
          | read r =>
              by_cases hsd : s.engine.shuttingDown = true
              · exact .inr (hstep .drain (by
                  rw [hw, Engine.stepWorker, hch]
                  exact if_pos hsd) rfl (by rintro ⟨⟩))
              · exact .inr (hstep .drain (by
                  rw [hw, Engine.stepWorker, hch]
                  exact if_neg hsd) rfl (by rintro ⟨⟩))
          | shutdown => exact .inr (hstep .drain (by rw [hw, Engine.stepWorker, hch]) rfl (by rintro ⟨⟩))
  | submit =>
      cases hp : s.engine.pending with
      | nil => exact .inr (hstep .check (by rw [hw, Engine.stepWorker, hp]) rfl (by rintro ⟨⟩))
      | cons r rest => exact .inr (hstep (.allocate r) (by rw [hw, Engine.stepWorker, hp]) rfl (by rintro ⟨⟩))
  | allocate r =>
      by_cases hfree : s.engine.nextUserData ≠ 0 ∧
          s.engine.nextUserData ∉ s.engine.inflight.map Prod.fst
      · exact .inr (hstep (.push s.engine.nextUserData r) (by
          rw [hw, Engine.stepWorker]
          exact if_pos hfree) rfl (by rintro ⟨⟩))
      · exact .inr (hstep (.allocate r) (by
          rw [hw, Engine.stepWorker]
          exact if_neg hfree) rfl (by rintro ⟨⟩))
  | push u r =>
      by_cases hfull : s.engine.sq.length < cfg.sqSize
      · exact .inr (hstep .submit (by rw [hw, Engine.stepWorker, if_pos hfull]) rfl (by rintro ⟨⟩))
      · exact .inr (hstep .check (by rw [hw, Engine.stepWorker, if_neg hfull]) rfl (by rintro ⟨⟩))
  | check =>
      by_cases hidle : s.engine.inflight = []
      · by_cases hstop : s.engine.shuttingDown = true ∧ s.engine.pending = []
        · exact .inr (hstep (.exiting false) (by
            rw [hw, Engine.stepWorker, if_pos hidle, if_pos hstop]) rfl (by rintro ⟨⟩))
        · exact .inr (hstep .recv (by
            rw [hw, Engine.stepWorker, if_pos hidle, if_neg hstop]) rfl (by rintro ⟨⟩))
      · exact .inr (hstep .enter (by rw [hw, Engine.stepWorker, if_neg hidle]) rfl (by rintro ⟨⟩))
  | enter => exact .inr (hstep .waiting (by rw [hw, Engine.stepWorker]) rfl (by rintro ⟨⟩))
  | waiting =>
      have ht := hi.tracks hl
      rw [hw] at hends ht
      by_cases hcq : s.engine.cq = []
      · exact .inl (kernel_ne_nil ht hends.1 hends.2 hcq)
      · exact .inr (hstep (.reap s.engine.cq) (by
          rw [hw, Engine.stepWorker, if_neg hcq]) rfl (by rintro ⟨⟩))
  | reap completions =>
      cases completions with
      | nil => exact .inr (hstep .recv (by rw [hw, Engine.stepWorker]) rfl (by rintro ⟨⟩))
      | cons x rest =>
          have ht := hi.tracks hl
          have hdue : (x.1, x.2) ∈ s.worker.due := by
            rw [hw]
            exact List.mem_cons_self ..
          rcases ht.lookup_due hi.mapped.keyed hdue with ⟨r, hr, -⟩
          exact .inr (hstep (.reap rest) (by
            rw [hw, Engine.stepWorker, hr]) rfl (by rintro ⟨⟩))
  | failing => exact absurd hw hf
  | failAll =>
      rw [hw] at hl
      exact absurd hl Bool.false_ne_true
  | exiting fatal =>
      refine .inr (hstep (.exited fatal) (by rw [hw, Engine.stepWorker]) ?_ (by rintro ⟨⟩))
      rw [hw] at hl
      cases fatal <;> exact hl
  | exited fatal =>
      rw [hw] at ha hends
      unfold held at ha
      rw [hends.1, hends.2.1, hends.2.2.2.2] at ha
      exact absurd ha (List.not_mem_nil)

/-- A ring of one entry. -/
def singleRing : RingConfig :=
  { entries := 1, sqSize := 1, entries_pos := by decide, entries_le := by decide }

/-- Caller `0` reads a page and waits for it. -/
def oneRead : List Mover :=
  List.replicate 5 (.caller 0 (.read 3 0)) ++ List.replicate 8 (.worker .ok) ++
    [.kernel 0 PAGE_SIZE] ++ List.replicate 2 (.worker .ok) ++ [.caller 0 .shutdown]

end Uring

end TierBuf
