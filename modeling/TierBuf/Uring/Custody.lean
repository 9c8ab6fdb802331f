import TierBuf.Uring.Engine

/-!
# Custody of Requests

Who holds an accepted request.

From the send of its command until its one reply, a request is in exactly one
of four places: the channel, the deque, the hand of the worker, the in-flight
map. `held` lists the callers of the requests in all four, and every step does
one of four things to that list. It moves a request from one place to another,
accepts one more, answers one, or closes the channels of those that are left
when the worker is gone.

## Main definitions

* `held`: The callers of the requests that are held somewhere.
* `Custody`: Held requests are those accepted and not answered, each once.
* `Handover`: The four things a step does to the list.

## Theorems

* `Custody.handover`: Each of them keeps custody.
* `handover_of_next`: Every step is one of them.
-/

namespace TierBuf

open Function Ledger Transition

namespace Uring

/-- The caller of a read command. -/
def Command.owner? : Command → Option Caller
  | .read r => some r.caller
  | .shutdown => none

/-- The request the worker has taken out of the deque. -/
def WorkerPc.hand : WorkerPc → List Caller
  | .allocate r => [r.caller]
  | _ => []

/-- The request that a caller has not sent yet. -/
def CallerPc.unsent : CallerPc → Option ReadRequest
  | .readGate r | .readCheck r | .readSend r => some r
  | _ => none

/-- The request of the caller has been taken by the channel. -/
def CallerPc.accepted : CallerPc → Bool
  | .readUngate accepted => accepted
  | .readWait | .answered _ | .disconnected => true
  | _ => false

/-- The callers of the commands in a channel. -/
def owners (channel : List Command) : List Caller :=
  channel.filterMap Command.owner?

/-- The callers of the requests that are held somewhere. -/
def held (e : Engine) (w : WorkerPc) : List Caller :=
  owners e.channel ++ (e.pending.map ReadRequest.caller ++
    (w.hand ++ e.inflight.map (fun x => x.2.caller)))

/-- Held requests are those accepted and not answered, each held once. -/
structure Custody (s : RingState) : Prop where
  nodup : (held s.engine s.worker).Nodup
  holds : ∀ a, a ∈ held s.engine s.worker ↔
    (s.callers a).accepted = true ∧ s.engine.replies a = [] ∧ s.engine.closed a = false
  once : ∀ a, s.engine.replies a = [] ∨
    s.engine.closed a = false ∧ (s.callers a).accepted = true ∧ ∃ r, s.engine.replies a = [r]
  closed : ∀ a, s.engine.closed a = true → (s.callers a).accepted = true
  named : ∀ a r, (s.callers a).unsent = some r → r.caller = a

/-- What a step does to the requests. -/
inductive Handover (s s' : RingState) : Prop where
  | keep : (held s'.engine s'.worker).Perm (held s.engine s.worker) →
      s'.engine.replies = s.engine.replies → s'.engine.closed = s.engine.closed →
      (∀ a, (s'.callers a).accepted = (s.callers a).accepted) → Handover s s'
  | accept (c : Caller) : (held s'.engine s'.worker).Perm (c :: held s.engine s.worker) →
      s'.engine.replies = s.engine.replies → s'.engine.closed = s.engine.closed →
      (s.callers c).accepted = false → (s'.callers c).accepted = true →
      (∀ a, a ≠ c → (s'.callers a).accepted = (s.callers a).accepted) → Handover s s'
  | answer (c : Caller) (x : Reply) :
      (held s.engine s.worker).Perm (c :: held s'.engine s'.worker) →
      s'.engine.replies = update s.engine.replies c (x :: s.engine.replies c) →
      s'.engine.closed = s.engine.closed → s'.callers = s.callers → Handover s s'
  | close (cs : List Caller) :
      (held s.engine s.worker).Perm (cs ++ held s'.engine s'.worker) →
      s'.engine.replies = s.engine.replies →
      (∀ a, s'.engine.closed a = true ↔ s.engine.closed a = true ∨ a ∈ cs) →
      s'.callers = s.callers → Handover s s'

variable {s s' : RingState} {e e' : Engine} {w w' : WorkerPc}

namespace Custody

theorem of_held (hc : Custody s) {a : Caller} (ha : a ∈ held s.engine s.worker) :
    (s.callers a).accepted = true ∧ s.engine.replies a = [] ∧ s.engine.closed a = false :=
  (hc.holds a).mp ha

/-- A request that is not accepted has no replies and no dropped sender. -/
theorem untouched (hc : Custody s) {a : Caller} (ha : (s.callers a).accepted = false) :
    s.engine.replies a = [] ∧ s.engine.closed a = false := by
  constructor
  · rcases hc.once a with h | ⟨-, h, -⟩
    · exact h
    · rw [ha] at h
      exact absurd h (by decide)
  · by_contra hcl
    have h := hc.closed a (Bool.eq_true_of_not_eq_false hcl)
    rw [ha] at h
    exact absurd h (by decide)

theorem handover (hc : Custody s) (hh : Handover s s')
    (hn : ∀ a r, (s'.callers a).unsent = some r → r.caller = a) : Custody s' := by
  cases hh with
  | keep hp hr hcl ha =>
      refine ⟨hp.nodup_iff.mpr hc.nodup, fun a => ?_, fun a => ?_, fun a => ?_, hn⟩
      · rw [hp.mem_iff, ha, hr, hcl]
        exact hc.holds a
      · rw [ha, hr, hcl]
        exact hc.once a
      · rw [ha, hcl]
        exact hc.closed a
  | accept c hp hr hcl h0 h1 ha =>
      have hfree := hc.untouched h0
      have hout : c ∉ held s.engine s.worker := by
        intro hmem
        have hacc := (hc.of_held hmem).1
        rw [h0] at hacc
        exact absurd hacc (by decide)
      refine ⟨hp.nodup_iff.mpr (List.nodup_cons.mpr ⟨hout, hc.nodup⟩), fun a => ?_, fun a => ?_,
        fun a => ?_, hn⟩
      · rw [hp.mem_iff, List.mem_cons, hr, hcl]
        by_cases hac : a = c
        · rw [hac, h1]
          exact ⟨fun _ => ⟨rfl, hfree⟩, fun _ => .inl rfl⟩
        · rw [ha a hac, ← hc.holds a]
          exact ⟨fun h => h.resolve_left hac, .inr⟩
      · rw [hr, hcl]
        by_cases hac : a = c
        · rw [hac]
          exact .inl hfree.1
        · rw [ha a hac]
          exact hc.once a
      · rw [hcl]
        intro hclosed
        by_cases hac : a = c
        · rw [hac]
          exact h1
        · rw [ha a hac]
          exact hc.closed a hclosed
  | answer c x hp hr hcl ha =>
      have hmem : c ∈ held s.engine s.worker := hp.mem_iff.mpr (List.mem_cons_self ..)
      have hnodup := hp.nodup_iff.mp hc.nodup
      rw [List.nodup_cons] at hnodup
      rcases hc.of_held hmem with ⟨hacc, hnone, hopen⟩
      refine ⟨hnodup.2, fun a => ?_, fun a => ?_, fun a => ?_, hn⟩
      · rw [ha, hcl, hr]
        by_cases hac : a = c
        · rw [hac, update_self]
          exact ⟨fun h => absurd h hnodup.1, fun h => absurd h.2.1 (List.cons_ne_nil _ _)⟩
        · rw [update_of_ne hac, ← hc.holds a, hp.mem_iff, List.mem_cons]
          exact ⟨.inr, fun h => h.resolve_left hac⟩
      · rw [ha, hcl, hr]
        by_cases hac : a = c
        · rw [hac, update_self, hnone]
          exact .inr ⟨hopen, hacc, x, rfl⟩
        · rw [update_of_ne hac]
          exact hc.once a
      · rw [ha, hcl]
        exact hc.closed a
  | close cs hp hr hcl ha =>
      have hnodup := hp.nodup_iff.mp hc.nodup
      have hdisj := (List.nodup_append.mp hnodup).2.2
      have hin : ∀ a, a ∈ cs → a ∈ held s.engine s.worker :=
        fun a h => hp.mem_iff.mpr (List.mem_append_left _ h)
      refine ⟨(List.nodup_append.mp hnodup).2.1, fun a => ?_, fun a => ?_, fun a => ?_, hn⟩
      · have hold := hc.holds a
        rw [hp.mem_iff, List.mem_append] at hold
        rw [ha, hr]
        constructor
        · intro h
          rcases hold.mp (.inr h) with ⟨h1, h2, h3⟩
          refine ⟨h1, h2, ?_⟩
          by_contra hclosed
          rcases (hcl a).mp (Bool.eq_true_of_not_eq_false hclosed) with hc1 | hc1
          · rw [h3] at hc1
            exact absurd hc1 (by decide)
          · exact hdisj a hc1 a h rfl
        · rintro ⟨h1, h2, h3⟩
          have hopen : s.engine.closed a = false := by
            by_contra hclosed
            rw [(hcl a).mpr (.inl (Bool.eq_true_of_not_eq_false hclosed))] at h3
            exact absurd h3 (by decide)
          refine (hold.mpr ⟨h1, h2, hopen⟩).resolve_left (fun hmem => ?_)
          rw [(hcl a).mpr (.inr hmem)] at h3
          exact absurd h3 (by decide)
      · rw [ha, hr]
        rcases hc.once a with h | ⟨h1, h2, h3⟩
        · exact .inl h
        · refine .inr ⟨?_, h2, h3⟩
          by_contra hclosed
          rcases (hcl a).mp (Bool.eq_true_of_not_eq_false hclosed) with hc1 | hc1
          · rw [h1] at hc1
            exact absurd hc1 (by decide)
          · rcases h3 with ⟨r, hreply⟩
            rw [(hc.of_held (hin a hc1)).2.1] at hreply
            exact absurd hreply (by simp only [reduceCtorEq, not_false_eq_true])
      · rw [ha]
        intro hclosed
        rcases (hcl a).mp hclosed with h | h
        · exact hc.closed a h
        · exact (hc.of_held (hin a h)).1

end Custody

/-! ### Taking an entry out of the map -/

theorem perm_take {l : List (Nat × ReadRequest)} (hl : (l.map Prod.fst).Nodup) {u : Nat}
    {r : ReadRequest} (hm : (u, r) ∈ l) : l.Perm ((u, r) :: l.filter (fun x => x.1 ≠ u)) := by
  induction l with
  | nil => exact absurd hm (List.not_mem_nil)
  | cons x l ih =>
      rw [List.map_cons, List.nodup_cons] at hl
      rcases List.mem_cons.mp hm with rfl | hm
      · have hrest : l.filter (fun x => x.1 ≠ u) = l := by
          rw [List.filter_eq_self]
          intro y hy
          have hkey : y.1 ∈ l.map Prod.fst := List.mem_map_of_mem hy
          have hne : y.1 ≠ u := fun hc => hl.1 (by rw [hc] at hkey; exact hkey)
          exact decide_eq_true hne
        rw [List.filter_cons_of_neg (by simp only [ne_eq, not_true_eq_false, decide_false,
          Bool.false_eq_true, not_false_eq_true]), hrest]
      · have hne : x.1 ≠ u := fun hc => hl.1 (hc ▸ List.mem_map_of_mem (f := Prod.fst) hm)
        rw [List.filter_cons_of_pos (by exact decide_eq_true hne)]
        exact ((ih hl.2 hm).cons x).trans (List.Perm.swap _ _ _)

/-- What `inflight.remove` finds is in the map. -/
theorem mem_of_lookup {l : List (Nat × ReadRequest)} {u : Nat} {r : ReadRequest}
    (h : l.lookup u = some r) : (u, r) ∈ l := by
  rcases List.lookup_eq_some_iff.mp h with ⟨l₁, l₂, rfl, -⟩
  exact List.mem_append_right _ (List.mem_cons_self ..)

theorem lookup_of_mem {l : List (Nat × ReadRequest)} (hl : (l.map Prod.fst).Nodup) {u : Nat}
    {r : ReadRequest} (hm : (u, r) ∈ l) : l.lookup u = some r := by
  induction l with
  | nil => exact absurd hm (List.not_mem_nil)
  | cons x l ih =>
      rw [List.map_cons, List.nodup_cons] at hl
      rcases List.mem_cons.mp hm with rfl | hm
      · exact List.lookup_cons_self
      · have hne : u ≠ x.1 := fun hc => hl.1 (hc ▸ List.mem_map_of_mem (f := Prod.fst) hm)
        rw [List.lookup_cons, beq_eq_false_iff_ne.mpr hne]
        exact ih hl.2 hm

/-! ### The steps of the worker -/

/-- Taking an entry out of the map takes its caller out of those held. -/
theorem held_take (hl : (e.inflight.map Prod.fst).Nodup) {u : Nat} {r : ReadRequest}
    (hm : (u, r) ∈ e.inflight) (hw : w.hand = w'.hand) :
    (held e w).Perm (r.caller :: held (e.takeInflight u) w') := by
  have hp : (e.inflight.map (fun x => x.2.caller)).Perm
      (r.caller :: (e.takeInflight u).inflight.map (fun x => x.2.caller)) :=
    (perm_take hl hm).map (fun x => x.2.caller)
  unfold held
  rw [hw, List.perm_iff_count]
  intro a
  have hcount := hp.count_eq a
  simp only [List.count_append, List.count_cons] at hcount ⊢
  change _ = List.count a (owners e.channel) + (List.count a (e.pending.map ReadRequest.caller) +
    (List.count a w'.hand + _)) + _
  omega

/-- Whom the worker has to find in the map. -/
structure Keyed (e : Engine) (w : WorkerPc) : Prop where
  nodup : (e.inflight.map Prod.fst).Nodup
  pushing : ∀ u r, w = .push u r → (u, r) ∈ e.inflight

/-- Why the worker answers a request. -/
inductive Reason (e : Engine) (w w' : WorkerPc) (c : Caller) : Reply → Prop where
  | completed (u : Nat) (result : Int) (rest : List (Nat × Int)) (r : ReadRequest) :
      w = .reap ((u, result) :: rest) → e.inflight.lookup u = some r → r.caller = c →
      Reason e w w' c (completeCqe c result)
  | stopped (r : ReadRequest) (rest : List Command) : w = .drain → e.shuttingDown = true →
      e.channel = .read r :: rest → Reason e w w' c .engineStopped
  | failed : w = .failAll → w' = .failAll → Reason e w w' c .ringFailed

/-- What a step of the worker does to the requests that are held. -/
inductive Passed (e e' : Engine) (w w' : WorkerPc) : Prop where
  | keep : (held e' w').Perm (held e w) → e'.replies = e.replies → e'.closed = e.closed →
      Passed e e' w w'
  | answer (c : Caller) (x : Reply) : Reason e w w' c x → (held e w).Perm (c :: held e' w') →
      e'.replies = update e.replies c (x :: e.replies c) → e'.closed = e.closed →
      Passed e e' w w'
  | close (fatal : Bool) : w' = .exited fatal →
      (held e w).Perm (owners e.channel ++ held e' w') → e'.replies = e.replies →
      (∀ a, e'.closed a = true ↔ e.closed a = true ∨ a ∈ owners e.channel) → Passed e e' w w'

/-- A step that moves nothing. -/
theorem Passed.stay (hw : w'.hand = w.hand) : Passed e e w w' :=
  .keep (by unfold held; rw [hw]) rfl rfl

/-- A step that moves requests between the places of the worker. -/
theorem Passed.move (hcount : ∀ a, (held e' w').count a = (held e w).count a)
    (hr : e'.replies = e.replies) (hcl : e'.closed = e.closed) : Passed e e' w w' :=
  .keep (List.perm_iff_count.mpr hcount) hr hcl

theorem mem_owners {channel : List Command} {a : Caller} :
    a ∈ owners channel ↔ channel.any (fun
      | .read r => r.caller = a
      | .shutdown => false) = true := by
  rw [owners, List.mem_filterMap, List.any_eq_true]
  constructor
  · rintro ⟨c, hc, ha⟩
    cases c with
    | read r => exact ⟨_, hc, decide_eq_true (Option.some.inj ha)⟩
    | shutdown => cases ha
  · rintro ⟨c, hc, ha⟩
    cases c with
    | read r => exact ⟨_, hc, congrArg some (of_decide_eq_true ha)⟩
    | shutdown => cases ha

/-- A received command leaves the channel for the deque. -/
theorem passed_receive {r : ReadRequest} {rest : List Command}
    (hch : e.channel = .read r :: rest) (hw : w.hand = []) (hw' : w'.hand = []) :
    Passed e { e with channel := rest, pending := e.pending ++ [r] } w w' := by
  refine Passed.move (fun a => ?_) rfl rfl
  unfold held
  rw [hch, hw, hw']
  simp only [owners, List.filterMap_cons, Command.owner?, List.count_append, List.map_append,
    List.map_cons, List.map_nil, List.count_cons, List.count_nil]
  omega

theorem passed_shutdown {rest : List Command} (hch : e.channel = .shutdown :: rest)
    (hw : w.hand = w'.hand) :
    Passed e { e with channel := rest, shuttingDown := true } w w' := by
  refine Passed.move (fun a => ?_) rfl rfl
  unfold held
  rw [hch, hw]
  rfl

theorem passed_worker {cfg : RingConfig} {outcome : Outcome} (hk : Keyed e w)
    (hs : e.stepWorker cfg outcome w = some (e', w')) : Passed e e' w w' := by
  cases w with
  | recv =>
      rw [Engine.stepWorker] at hs
      split at hs
      · cases hch : e.channel with
        | nil => rw [hch] at hs; cases hs
        | cons c rest =>
            cases c with
            | read r =>
                simp only [hch, Option.some.injEq, Prod.mk.injEq] at hs
                rcases hs with ⟨rfl, rfl⟩
                exact passed_receive hch rfl rfl
            | shutdown =>
                simp only [hch, Option.some.injEq, Prod.mk.injEq] at hs
                rcases hs with ⟨rfl, rfl⟩
                exact passed_shutdown hch rfl
      · simp only [Option.some.injEq, Prod.mk.injEq] at hs
        rcases hs with ⟨rfl, rfl⟩
        exact Passed.stay rfl
  | drain =>
      rw [Engine.stepWorker] at hs
      cases hch : e.channel with
      | nil =>
          simp only [hch, Option.some.injEq, Prod.mk.injEq] at hs
          rcases hs with ⟨rfl, rfl⟩
          exact Passed.stay rfl
      | cons c rest =>
          cases c with
          | read r =>
              simp only [hch] at hs
              split at hs
              · simp only [Option.some.injEq, Prod.mk.injEq] at hs
                rcases hs with ⟨rfl, rfl⟩
                rename_i hstop
                refine .answer r.caller .engineStopped (.stopped r rest rfl hstop hch) ?_ rfl rfl
                unfold held
                rw [hch]
                exact List.Perm.refl _
              · simp only [Option.some.injEq, Prod.mk.injEq] at hs
                rcases hs with ⟨rfl, rfl⟩
                exact passed_receive hch rfl rfl
          | shutdown =>
              simp only [hch, Option.some.injEq, Prod.mk.injEq] at hs
              rcases hs with ⟨rfl, rfl⟩
              exact passed_shutdown hch rfl
  | submit =>
      rw [Engine.stepWorker] at hs
      cases hp : e.pending with
      | nil =>
          simp only [hp, Option.some.injEq, Prod.mk.injEq] at hs
          rcases hs with ⟨rfl, rfl⟩
          exact Passed.stay rfl
      | cons r rest =>
          simp only [hp, Option.some.injEq, Prod.mk.injEq] at hs
          rcases hs with ⟨rfl, rfl⟩
          refine Passed.move (fun a => ?_) rfl rfl
          unfold held
          simp only [hp, WorkerPc.hand, List.count_append, List.map_cons, List.count_cons,
            List.count_nil]
          omega
  | allocate r =>
      rw [Engine.stepWorker] at hs
      dsimp only at hs
      split at hs
      · simp only [Option.some.injEq, Prod.mk.injEq] at hs
        rcases hs with ⟨rfl, rfl⟩
        refine Passed.move (fun a => ?_) rfl rfl
        unfold held
        simp only [WorkerPc.hand, List.count_append, List.map_cons, List.count_cons,
          List.count_nil]
        omega
      · simp only [Option.some.injEq, Prod.mk.injEq] at hs
        rcases hs with ⟨rfl, rfl⟩
        exact Passed.move (fun a => rfl) rfl rfl
  | push u r =>
      rw [Engine.stepWorker] at hs
      split at hs
      · simp only [Option.some.injEq, Prod.mk.injEq] at hs
        rcases hs with ⟨rfl, rfl⟩
        exact Passed.move (fun a => rfl) rfl rfl
      · simp only [Option.some.injEq, Prod.mk.injEq] at hs
        rcases hs with ⟨rfl, rfl⟩
        refine Passed.move (fun a => ?_) rfl rfl
        have htake : (held e (.push u r)).Perm (r.caller :: held (e.takeInflight u) .check) :=
          held_take hk.nodup (hk.pushing u r rfl) rfl
        have hcount := htake.count_eq a
        unfold held at hcount ⊢
        simp only [List.count_append, List.count_cons, List.map_cons] at hcount ⊢
        change List.count a (owners e.channel) + _ = _
        change _ = List.count a (owners e.channel) + (List.count a (e.pending.map ReadRequest.caller)
          + _) + _ at hcount
        omega
  | check =>
      rw [Engine.stepWorker] at hs
      split at hs
      · split at hs
        · simp only [Option.some.injEq, Prod.mk.injEq] at hs
          rcases hs with ⟨rfl, rfl⟩
          exact Passed.stay rfl
        · simp only [Option.some.injEq, Prod.mk.injEq] at hs
          rcases hs with ⟨rfl, rfl⟩
          exact Passed.stay rfl
      · simp only [Option.some.injEq, Prod.mk.injEq] at hs
        rcases hs with ⟨rfl, rfl⟩
        exact Passed.stay rfl
  | enter =>
      cases outcome with
      | ok =>
          rw [Engine.stepWorker, Option.some.injEq, Prod.mk.injEq] at hs
          rcases hs with ⟨rfl, rfl⟩
          exact Passed.move (fun a => rfl) rfl rfl
      | interrupted =>
          rw [Engine.stepWorker, Option.some.injEq, Prod.mk.injEq] at hs
          rcases hs with ⟨rfl, rfl⟩
          exact Passed.stay rfl
      | failed =>
          rw [Engine.stepWorker, Option.some.injEq, Prod.mk.injEq] at hs
          rcases hs with ⟨rfl, rfl⟩
          exact Passed.stay rfl
  | waiting =>
      cases outcome with
      | ok =>
          rw [Engine.stepWorker] at hs
          split at hs
          · simp only [Option.some.injEq, Prod.mk.injEq] at hs
            rcases hs with ⟨rfl, rfl⟩
            exact Passed.stay rfl
          · simp only [Option.some.injEq, Prod.mk.injEq] at hs
            rcases hs with ⟨rfl, rfl⟩
            exact Passed.move (fun a => rfl) rfl rfl
      | interrupted =>
          rw [Engine.stepWorker, Option.some.injEq, Prod.mk.injEq] at hs
          rcases hs with ⟨rfl, rfl⟩
          exact Passed.stay rfl
      | failed =>
          rw [Engine.stepWorker, Option.some.injEq, Prod.mk.injEq] at hs
          rcases hs with ⟨rfl, rfl⟩
          exact Passed.stay rfl
  | reap completions =>
      cases completions with
      | nil =>
          rw [Engine.stepWorker, Option.some.injEq, Prod.mk.injEq] at hs
          rcases hs with ⟨rfl, rfl⟩
          exact Passed.stay rfl
      | cons x rest =>
          rcases x with ⟨u, result⟩
          rw [Engine.stepWorker] at hs
          cases hl : e.inflight.lookup u with
          | none =>
              simp only [hl, Option.some.injEq, Prod.mk.injEq] at hs
              rcases hs with ⟨rfl, rfl⟩
              exact Passed.stay rfl
          | some r =>
              simp only [hl, Option.some.injEq, Prod.mk.injEq] at hs
              rcases hs with ⟨rfl, rfl⟩
              exact .answer r.caller _ (.completed u result rest r rfl hl rfl) (held_take hk.nodup (mem_of_lookup hl) rfl) rfl rfl
  | failing =>
      rw [Engine.stepWorker, Option.some.injEq, Prod.mk.injEq] at hs
      rcases hs with ⟨rfl, rfl⟩
      exact Passed.move (fun a => rfl) rfl rfl
  | failAll =>
      rw [Engine.stepWorker] at hs
      cases hp : e.pending with
      | cons r rest =>
          simp only [hp, Option.some.injEq, Prod.mk.injEq] at hs
          rcases hs with ⟨rfl, rfl⟩
          refine .answer r.caller .ringFailed (.failed rfl rfl) (List.perm_iff_count.mpr (fun a => ?_)) rfl rfl
          unfold held
          simp only [hp, Engine.reply, WorkerPc.hand, List.count_append, List.map_cons,
            List.count_cons, List.count_nil]
          omega
      | nil =>
          cases hi : e.inflight with
          | cons x rest =>
              simp only [hp, hi, Option.some.injEq, Prod.mk.injEq] at hs
              rcases hs with ⟨rfl, rfl⟩
              refine .answer x.2.caller .ringFailed (.failed rfl rfl)
                (List.perm_iff_count.mpr (fun a => ?_)) rfl rfl
              unfold held
              simp only [hp, hi, Engine.reply, WorkerPc.hand, List.count_append, List.map_cons,
                List.count_cons, List.count_nil]
              omega
          | nil =>
              simp only [hp, hi, Option.some.injEq, Prod.mk.injEq] at hs
              rcases hs with ⟨rfl, rfl⟩
              exact Passed.stay rfl
  | exiting fatal =>
      rw [Engine.stepWorker, Option.some.injEq, Prod.mk.injEq] at hs
      rcases hs with ⟨rfl, rfl⟩
      refine .close fatal rfl ?_ rfl (fun a => ?_)
      · exact List.Perm.refl _
      · change (e.closed a || _) = true ↔ _
        rw [Bool.or_eq_true]
        exact or_congr_right mem_owners.symm
  | exited fatal => cases hs

/-! ### The steps of the callers -/

variable {pc pc' : CallerPc} {a : Caller}

/-- What a step of a caller does to the requests that are held. -/
inductive Sent (e e' : Engine) (w : WorkerPc) (a : Caller) (pc pc' : CallerPc) : Prop where
  | keep : (held e' w).Perm (held e w) → e'.replies = e.replies → e'.closed = e.closed →
      pc'.accepted = pc.accepted → Sent e e' w a pc pc'
  | accept : (held e' w).Perm (a :: held e w) → e'.replies = e.replies → e'.closed = e.closed →
      pc.accepted = false → pc'.accepted = true → Sent e e' w a pc pc'

theorem held_send (e : Engine) (w : WorkerPc) (c : Command) :
    (held { e with channel := e.channel ++ [c] } w).Perm (c.owner?.toList ++ held e w) := by
  rw [List.perm_iff_count]
  intro a
  unfold held owners
  cases c with
  | read r =>
      simp only [List.filterMap_append, List.filterMap_cons, List.filterMap_nil, Command.owner?,
        List.count_append, Option.toList_some, List.count_cons, List.count_nil]
      omega
  | shutdown =>
      simp only [List.filterMap_append, List.filterMap_cons, List.filterMap_nil, Command.owner?,
        List.append_nil, Option.toList_none, List.nil_append]

theorem sent_caller {cfg : RingConfig} {call : UringCall}
    (hn : ∀ r, pc.unsent = some r → r.caller = a)
    (hs : e.stepCaller cfg w call a pc = some (e', pc')) : Sent e e' w a pc pc' := by
  have hquiet : ∀ {e₁ pc₁}, (e₁, pc₁) = (e', pc') → held e₁ w = held e w →
      e₁.replies = e.replies → e₁.closed = e.closed → pc₁.accepted = pc.accepted →
      Sent e e' w a pc pc' := by
    intro e₁ pc₁ h hheld hr hcl hacc
    rcases Prod.mk.inj h with ⟨rfl, rfl⟩
    exact .keep (by rw [hheld]) hr hcl hacc
  cases pc with
  | idle =>
      cases call with
      | read rawFd location => exact hquiet (Option.some.inj hs) rfl rfl rfl rfl
      | shutdown => exact hquiet (Option.some.inj hs) rfl rfl rfl rfl
  | readGate r =>
      rw [Engine.stepCaller] at hs
      split at hs
      · exact hquiet (Option.some.inj hs) rfl rfl rfl rfl
      · cases hs
  | readCheck r =>
      rw [Engine.stepCaller] at hs
      split at hs <;> exact hquiet (Option.some.inj hs) rfl rfl rfl rfl
  | readSend r =>
      rw [Engine.stepCaller, Engine.send] at hs
      split at hs
      · exact hquiet (Option.some.inj hs) rfl rfl rfl rfl
      · split at hs
        · rcases Prod.mk.inj (Option.some.inj hs) with ⟨rfl, rfl⟩
          have hheld := held_send e w (.read r)
          rw [Command.owner?, hn r rfl] at hheld
          exact .accept hheld rfl rfl rfl rfl
        · cases hs
  | readUngate accepted =>
      rw [Engine.stepCaller] at hs
      split at hs
      · cases accepted with
        | true => exact hquiet (Option.some.inj hs) rfl rfl rfl rfl
        | false => exact hquiet (Option.some.inj hs) rfl rfl rfl rfl
      · cases hs
  | readWait =>
      rw [Engine.stepCaller] at hs
      split at hs
      · exact hquiet (Option.some.inj hs) rfl rfl rfl rfl
      · split at hs
        · exact hquiet (Option.some.inj hs) rfl rfl rfl rfl
        · cases hs
  | stopLock =>
      rw [Engine.stepCaller] at hs
      split at hs
      · cases hs
      · exact hquiet (Option.some.inj hs) rfl rfl rfl rfl
  | stopSwap => exact hquiet (Option.some.inj hs) rfl rfl rfl rfl
  | stopGate first =>
      rw [Engine.stepCaller] at hs
      split at hs
      · cases first with
        | true => exact hquiet (Option.some.inj hs) rfl rfl rfl rfl
        | false => exact hquiet (Option.some.inj hs) rfl rfl rfl rfl
      · cases hs
  | stopSend =>
      rw [Engine.stepCaller, Engine.send] at hs
      split at hs
      · exact hquiet (Option.some.inj hs) rfl rfl rfl rfl
      · split at hs
        · rcases Prod.mk.inj (Option.some.inj hs) with ⟨rfl, rfl⟩
          exact .keep (held_send e w .shutdown) rfl rfl rfl
        · cases hs
  | stopJoin =>
      rw [Engine.stepCaller] at hs
      split at hs
      · exact hquiet (Option.some.inj hs) rfl rfl rfl rfl
      · cases hs
  | stopUngate => exact hquiet (Option.some.inj hs) rfl rfl rfl rfl
  | stopUnlock => exact hquiet (Option.some.inj hs) rfl rfl rfl rfl
  | answered x => cases hs
  | disconnected => cases hs
  | refused => cases hs
  | stopped => cases hs

/-- A caller names itself in its request. -/
theorem unsent_caller {cfg : RingConfig} {call : UringCall}
    (hn : ∀ r, pc.unsent = some r → r.caller = a)
    (hs : e.stepCaller cfg w call a pc = some (e', pc')) :
    ∀ r, pc'.unsent = some r → r.caller = a := by
  intro r hr
  have hnone : ∀ {e₁ pc₁}, some (e₁, pc₁) = some (e', pc') → pc₁.unsent = none →
      r.caller = a := by
    intro e₁ pc₁ h hpc
    rw [← (Prod.mk.inj (Option.some.inj h)).2, hpc] at hr
    cases hr
  have hsend : ∀ {c sent lost}, e.send cfg w c sent lost = some (e', pc') →
      sent.unsent = none → lost.unsent = none → r.caller = a := by
    intro c sent lost h h1 h2
    unfold Engine.send at h
    split at h
    · exact hnone h h2
    · split at h
      · exact hnone h h1
      · cases h
  cases pc with
  | idle =>
      cases call with
      | read rawFd location =>
          rcases Prod.mk.inj (Option.some.inj hs) with ⟨-, rfl⟩
          rw [← Option.some.inj hr]
      | shutdown => exact hnone hs rfl
  | readGate q =>
      rw [Engine.stepCaller] at hs
      split at hs
      · rcases Prod.mk.inj (Option.some.inj hs) with ⟨-, rfl⟩
        exact hn r hr
      · cases hs
  | readCheck q =>
      rw [Engine.stepCaller] at hs
      split at hs
      · exact hnone hs rfl
      · rcases Prod.mk.inj (Option.some.inj hs) with ⟨-, rfl⟩
        exact hn r hr
  | readSend q => exact hsend hs rfl rfl
  | readUngate accepted =>
      rw [Engine.stepCaller] at hs
      split at hs
      · cases accepted with
        | true => exact hnone hs rfl
        | false => exact hnone hs rfl
      · cases hs
  | readWait =>
      rw [Engine.stepCaller] at hs
      split at hs
      · exact hnone hs rfl
      · split at hs
        · exact hnone hs rfl
        · cases hs
  | stopLock =>
      rw [Engine.stepCaller] at hs
      split at hs
      · cases hs
      · exact hnone hs rfl
  | stopSwap => exact hnone hs rfl
  | stopGate first =>
      rw [Engine.stepCaller] at hs
      split at hs
      · cases first with
        | true => exact hnone hs rfl
        | false => exact hnone hs rfl
      · cases hs
  | stopSend => exact hsend hs rfl rfl
  | stopJoin =>
      rw [Engine.stepCaller] at hs
      split at hs
      · exact hnone hs rfl
      · cases hs
  | stopUngate => exact hnone hs rfl
  | stopUnlock => exact hnone hs rfl
  | answered x => cases hs
  | disconnected => cases hs
  | refused => cases hs
  | stopped => cases hs

/-! ### Every step -/

theorem handover_of_next {cfg : RingConfig} {m : Mover} (hc : Custody s)
    (hk : Keyed s.engine s.worker) (hs : s.next cfg m = some s') :
    Handover s s' ∧ ∀ a r, (s'.callers a).unsent = some r → r.caller = a := by
  cases m with
  | worker outcome =>
      rcases Option.map_eq_some_iff.mp hs with ⟨⟨e', w'⟩, hstep, rfl⟩
      refine ⟨?_, hc.named⟩
      cases passed_worker hk hstep with
      | keep hp hr hcl => exact .keep hp hr hcl (fun _ => rfl)
      | answer c x _ hp hr hcl => exact .answer c x hp hr hcl rfl
      | close _ _ hp hr hcl => exact .close _ hp hr hcl rfl
  | caller a call =>
      rcases Option.map_eq_some_iff.mp hs with ⟨⟨e', pc'⟩, hstep, rfl⟩
      constructor
      · cases sent_caller (hc.named a) hstep with
        | keep hp hr hcl hacc =>
            refine .keep hp hr hcl (fun b => ?_)
            by_cases hb : b = a
            · rw [hb]
              change (update s.callers a pc' a).accepted = _
              rw [update_self, hacc]
            · change (update s.callers a pc' b).accepted = _
              rw [update_of_ne hb]
        | accept hp hr hcl h0 h1 =>
            refine .accept a hp hr hcl h0 ?_ (fun b hb => ?_)
            · change (update s.callers a pc' a).accepted = _
              rw [update_self, h1]
            · change (update s.callers a pc' b).accepted = _
              rw [update_of_ne hb]
      · intro b r hr
        by_cases hb : b = a
        · rw [hb] at hr ⊢
          change (update s.callers a pc' a).unsent = _ at hr
          rw [update_self] at hr
          exact unsent_caller (hc.named a) hstep r hr
        · change (update s.callers a pc' b).unsent = _ at hr
          rw [update_of_ne hb] at hr
          exact hc.named b r hr
  | kernel position result =>
      rcases Option.map_eq_some_iff.mp hs with ⟨e', hstep, rfl⟩
      unfold Engine.stepKernel at hstep
      split at hstep
      · cases hstep
      · rw [← Option.some.inj hstep]
        exact ⟨.keep (List.Perm.refl _) rfl rfl (fun _ => rfl), hc.named⟩

end Uring

end TierBuf
