import TierBuf.Pool.Admission
import TierBuf.Pool.Markers

/-!
# Prefetch Calls

Calls of `prefetch` over a buffer manager.

A call goes over its handles one by one. The body of its loop runs as an agent
of the manager, from the first check of a handle to the point where the task
is in the channel or its resources are given back. Between two handles the
call keeps its counts and the pages it has seen. In the end it adds the counts
to the statistics of the manager.

## Main definitions

* `PrefetchCall`: The locals of one call.
* `CallLabel`, `prefetchCalls`: Calls and the other agents of a manager.
* `AdmissionExact`: What admission promises.

## Theorems

* `calls_pool`: The manager under the calls is one under any schedule.
* `Tallied.step`, `tallied_reachable`: The counts of calls.
* `admission_exact`: Admission keeps its promise in every run.
-/

namespace TierBuf

open Function Ledger Transition

variable {cfg : Config}

/-! ### Calls -/

inductive CallStage where
  | looping
  /-- The submitted requests have been recorded. -/
  | recorded
  | done
  deriving DecidableEq

/-- The locals of a call of `prefetch` for the given handles. -/
structure PrefetchCall where
  handles : List SwipId
  rest : List SwipId
  /-- The agent that runs the body of the loop for one handle. -/
  current : Option Agent
  seen : List PageId
  submitted : Nat
  skipped : Nat
  stage : CallStage

/-- A call that starts. -/
def PrefetchCall.start (handles : List SwipId) : PrefetchCall :=
  ⟨handles, handles, none, [], 0, 0, .looping⟩

/-- `seen.insert(pid)`; the policy is not asked about a page seen before. -/
def PrefetchCall.see (k : PrefetchCall) (pc : Pc) (c : Choice) : PrefetchCall × Choice :=
  match pc with
  | .submit _ p .admission =>
    if p ∈ k.seen then (k, { c with ok := false }) else ({ k with seen := p :: k.seen }, c)
  | _ => (k, c)

/-- The body of the loop ends with a queued task, or with `continue`. -/
def PrefetchCall.after (k : PrefetchCall) (pc : Pc) : PrefetchCall :=
  match pc with
  | .task _ _ => { k with current := none, submitted := k.submitted + 1 }
  | .returned _ => { k with current := none, skipped := k.skipped + 1 }
  | _ => k

/-- Whether an agent runs the body of the loop. -/
def Pc.submitting : Pc → Bool
  | .submit _ _ _ | .checkin (.task false _) _ _ | .unreserve false _ _ => true
  | _ => false

/-- Whether an agent is about to start a prefetch. -/
def Pc.prefetches (pc : Pc) (c : Choice) : Bool :=
  match pc, c.call with
  | .idle, .prefetch _ => true
  | _, _ => false

structure CallsState where
  manager : PoolState
  calls : Nat → Option PrefetchCall
  prefetchSubmitted : Nat
  prefetchSkipped : Nat

inductive CallLabel where
  /-- A step of an agent that is not in the loop of a call. -/
  | step (l : Agent × Choice)
  | call (id : Nat) (handles : List SwipId)
  /-- A call goes on to its next handle, for which agent `a` runs. -/
  | next (id : Nat) (a : Agent)
  | handle (id : Nat) (c : Choice)
  | record (id : Nat)

namespace CallsState

variable (cfg : Config) (x : CallsState)

def setCall (id : Nat) (k : PrefetchCall) : CallsState :=
  { x with calls := update x.calls id (some k) }

/-- A step of the manager under the calls. -/
def stepPool (l : Agent × Choice) (f : PoolState → CallsState → CallsState) : Option CallsState :=
  ((pool cfg).next x.manager l).map (fun s => f s { x with manager := s })

/-- A call goes on to its next handle. -/
def nextHandle (id : Nat) (k : PrefetchCall) (a : Agent) : Option CallsState :=
  match k.rest with
  | [] => none
  | w :: rest =>
    if MAX_PREFETCH_IN_FLIGHT ≤ k.submitted then
      some (x.setCall id { k with rest := rest, skipped := k.skipped + 1 })
    else if (x.manager.pcs a).prefetches { call := .prefetch w } then
      x.stepPool cfg (a, { call := .prefetch w })
        (fun _ y => y.setCall id { k with rest := rest, current := some a })
    else none

/-- A step of the body of the loop, by agent `a`. -/
def stepHandle (id : Nat) (k : PrefetchCall) (a : Agent) (c : Choice) : Option CallsState :=
  if (x.manager.pcs a).submitting then
    x.stepPool cfg (a, (k.see (x.manager.pcs a) c).2)
      (fun s y => y.setCall id ((k.see (x.manager.pcs a) c).1.after (s.pcs a)))
  else none

/-- `record_prefetch_submitted`, then `record_prefetch_skipped`. -/
def stepRecord (id : Nat) (k : PrefetchCall) : Option CallsState :=
  match k.rest, k.stage with
  | [], .looping => some { x.setCall id { k with stage := .recorded } with
      prefetchSubmitted := x.prefetchSubmitted + k.submitted }
  | [], .recorded => some { x.setCall id { k with stage := .done } with
      prefetchSkipped := x.prefetchSkipped + k.skipped }
  | _, _ => none

def next : CallLabel → Option CallsState
  | .step l => if (x.manager.pcs l.1).submitting ∨ (x.manager.pcs l.1).prefetches l.2 then none
      else x.stepPool cfg l (fun _ y => y)
  | .call id handles => match x.calls id with
    | none => if ∀ w ∈ handles, w < x.manager.shared.nextSwip then
          some (x.setCall id (.start handles))
        else none
    | some _ => none
  | .next id a => match x.calls id with
    | some k => match k.current with
      | none => x.nextHandle cfg id k a
      | some _ => none
    | none => none
  | .handle id c => match x.calls id with
    | some k => match k.current with
      | some a => x.stepHandle cfg id k a c
      | none => none
    | none => none
  | .record id => match x.calls id with
    | some k => match k.current with
      | none => x.stepRecord id k
      | some _ => none
    | none => none

end CallsState

/-- A buffer manager with its `prefetch` calls, under every schedule. -/
def prefetchCalls (cfg : Config) : System CallsState CallLabel where
  init := fun x => (pool cfg).init x.manager ∧ x.calls = (fun _ => none) ∧
    x.prefetchSubmitted = 0 ∧ x.prefetchSkipped = 0
  next := CallsState.next cfg

variable {x x' : CallsState} {lab : CallLabel}

/-! ### The manager under the calls -/

theorem stepPool_eq_some {l : Agent × Choice} {f : PoolState → CallsState → CallsState}
    (hs : x.stepPool cfg l f = some x') :
    ∃ s, (pool cfg).next x.manager l = some s ∧ x' = f s { x with manager := s } := by
  rcases Option.map_eq_some_iff.mp hs with ⟨s, hnext, rfl⟩
  exact ⟨s, hnext, rfl⟩

theorem nextHandle_eq_some {id : Nat} {k : PrefetchCall} {a : Agent}
    (hs : x.nextHandle cfg id k a = some x') : ∃ w rest, k.rest = w :: rest ∧
      ((MAX_PREFETCH_IN_FLIGHT ≤ k.submitted ∧
          x' = x.setCall id { k with rest := rest, skipped := k.skipped + 1 }) ∨
        (k.submitted < MAX_PREFETCH_IN_FLIGHT ∧ ∃ l s, (pool cfg).next x.manager l = some s ∧
          x' = { x with manager := s }.setCall id { k with rest := rest, current := some a })) := by
  unfold CallsState.nextHandle at hs
  split at hs
  · cases hs
  · rename_i w rest hrest
    refine ⟨w, rest, hrest, ?_⟩
    split at hs
    · cases hs
      exact .inl ⟨‹_›, rfl⟩
    · split at hs
      · rcases stepPool_eq_some hs with ⟨s, hnext, rfl⟩
        exact .inr ⟨Nat.lt_of_not_le ‹_›, _, s, hnext, rfl⟩
      · cases hs

theorem stepHandle_eq_some {id : Nat} {k : PrefetchCall} {a : Agent} {c : Choice}
    (hs : x.stepHandle cfg id k a c = some x') :
    ∃ l s, (pool cfg).next x.manager l = some s ∧ x' = { x with manager := s }.setCall id
      ((k.see (x.manager.pcs a) c).1.after (s.pcs a)) := by
  unfold CallsState.stepHandle at hs
  split at hs
  · rcases stepPool_eq_some hs with ⟨s, hnext, rfl⟩
    exact ⟨_, s, hnext, rfl⟩
  · cases hs

/-- A call takes no step of the manager that an agent could not take by
    itself. -/
theorem calls_next (hs : (prefetchCalls cfg).next x lab = some x') :
    x'.manager = x.manager ∨ ∃ l, (pool cfg).next x.manager l = some x'.manager := by
  cases lab with
  | step l =>
      change (if _ then none else x.stepPool cfg l (fun _ y => y)) = some x' at hs
      split at hs
      · cases hs
      · rcases stepPool_eq_some hs with ⟨s, hnext, rfl⟩
        exact .inr ⟨l, hnext⟩
  | call id handles =>
      dsimp only [prefetchCalls, CallsState.next] at hs
      split at hs
      · split at hs
        · cases hs
          exact .inl rfl
        · cases hs
      · cases hs
  | next id a =>
      dsimp only [prefetchCalls, CallsState.next] at hs
      split at hs
      · split at hs
        · rcases nextHandle_eq_some hs with ⟨w, rest, -, ⟨-, rfl⟩ | ⟨-, l, s, hnext, rfl⟩⟩
          · exact .inl rfl
          · exact .inr ⟨l, hnext⟩
        · cases hs
      · cases hs
  | handle id c =>
      dsimp only [prefetchCalls, CallsState.next] at hs
      split at hs
      · split at hs
        · rcases stepHandle_eq_some hs with ⟨l, s, hnext, rfl⟩
          exact .inr ⟨l, hnext⟩
        · cases hs
      · cases hs
  | record id =>
      dsimp only [prefetchCalls, CallsState.next] at hs
      split at hs
      · split at hs
        · unfold CallsState.stepRecord at hs
          split at hs
          · cases hs
            exact .inl rfl
          · cases hs
            exact .inl rfl
          · cases hs
        · cases hs
      · cases hs

theorem calls_pool (hr : Reachable (prefetchCalls cfg) x) : Reachable (pool cfg) x.manager := by
  refine reachable_invariant (I := fun x => Reachable (pool cfg) x.manager) ?_ ?_ hr
  · intro x hi
    exact ReachableVia.init hi.1
  · intro x lab x' hr hs
    rcases calls_next hs with hsame | ⟨l, hnext⟩
    · rw [hsame]
      exact hr
    · exact Reachable.next hr hnext

/-! ### The counts of a call -/

/-- Every handle is either left, or in the loop, or submitted or skipped. -/
structure PrefetchCall.Tallied (k : PrefetchCall) : Prop where
  total : k.rest.length + k.submitted + k.skipped + (if k.current.isSome then 1 else 0) =
    k.handles.length
  room : k.current.isSome = true → k.submitted < MAX_PREFETCH_IN_FLIGHT
  bounded : k.submitted ≤ MAX_PREFETCH_IN_FLIGHT
  ended : k.stage ≠ .looping → k.rest = [] ∧ k.current = none

theorem tallied_start (handles : List SwipId) : (PrefetchCall.start handles).Tallied where
  total := rfl
  room := fun h => absurd h Bool.false_ne_true
  bounded := Nat.zero_le _
  ended := fun h => absurd rfl h

/-- Seeing a page changes no count. -/
theorem PrefetchCall.Tallied.see {k : PrefetchCall} (h : k.Tallied) (pc : Pc) (c : Choice) :
    (k.see pc c).1.Tallied := by
  unfold PrefetchCall.see
  split
  · split
    · exact h
    · exact ⟨h.total, h.room, h.bounded, h.ended⟩
  · exact h

theorem see_keeps (k : PrefetchCall) (pc : Pc) (c : Choice) :
    (k.see pc c).1.stage = k.stage ∧ (k.see pc c).1.current = k.current := by
  unfold PrefetchCall.see
  split
  · split
    · exact ⟨rfl, rfl⟩
    · exact ⟨rfl, rfl⟩
  · exact ⟨rfl, rfl⟩

/-- The end of the loop's body counts its handle. -/
theorem PrefetchCall.Tallied.after {k : PrefetchCall} (h : k.Tallied)
    (hcurrent : k.current.isSome = true) (pc : Pc) : (k.after pc).Tallied := by
  have htotal := h.total
  have hroom := h.room hcurrent
  rw [hcurrent, if_pos rfl] at htotal
  have hlooping : k.stage = .looping := by
    by_contra hne
    rw [(h.ended hne).2] at hcurrent
    exact Bool.false_ne_true hcurrent
  unfold PrefetchCall.after
  split
  · refine ⟨?_, fun hf => absurd hf Bool.false_ne_true, hroom, fun hne => absurd hlooping hne⟩
    change k.rest.length + (k.submitted + 1) + k.skipped + 0 = k.handles.length
    omega
  · refine ⟨?_, fun hf => absurd hf Bool.false_ne_true, h.bounded, fun hne => absurd hlooping hne⟩
    change k.rest.length + k.submitted + (k.skipped + 1) + 0 = k.handles.length
    omega
  · exact h

theorem after_stage (k : PrefetchCall) (pc : Pc) : (k.after pc).stage = k.stage := by
  unfold PrefetchCall.after
  split <;> rfl

/-! ### The statistics -/

/-- What a call has added to the count of submitted requests. -/
def addedSubmitted : Option PrefetchCall → Nat
  | some k => if k.stage = .looping then 0 else k.submitted
  | none => 0

/-- What a call has added to the count of skipped requests. -/
def addedSkipped : Option PrefetchCall → Nat
  | some k => if k.stage = .done then k.skipped else 0
  | none => 0

theorem added_looping {k : PrefetchCall} (h : k.stage = .looping) :
    addedSubmitted (some k) = 0 ∧ addedSkipped (some k) = 0 := by
  change (if k.stage = .looping then 0 else k.submitted) = 0 ∧
    (if k.stage = .done then k.skipped else 0) = 0
  rw [h]
  exact ⟨rfl, rfl⟩

/-- The statistics are the sums of what the calls have added. -/
structure Totals (x : CallsState) : Prop where
  tallied : ∀ id k, x.calls id = some k → k.Tallied
  submitted : Amounts (fun id => addedSubmitted (x.calls id)) x.prefetchSubmitted
  skipped : Amounts (fun id => addedSkipped (x.calls id)) x.prefetchSkipped

/-- One call moves and adds what it records. -/
theorem Totals.move (ht : Totals x) {id : Nat} {k : PrefetchCall}
    (hcalls : x'.calls = update x.calls id (some k)) (hk : k.Tallied)
    (hsub : x'.prefetchSubmitted =
      x.prefetchSubmitted - addedSubmitted (x.calls id) + addedSubmitted (some k))
    (hskip : x'.prefetchSkipped =
      x.prefetchSkipped - addedSkipped (x.calls id) + addedSkipped (some k)) : Totals x' := by
  have hself : x'.calls id = some k := by
    rw [hcalls, update_self]
  have hothers : ∀ b, b ≠ id → x'.calls b = x.calls b := by
    intro b hb
    rw [hcalls, update_of_ne hb]
  refine ⟨fun b k' hb => ?_, ?_, ?_⟩
  · by_cases hbid : b = id
    · rw [hbid, hself] at hb
      cases hb
      exact hk
    · rw [hothers b hbid] at hb
      exact ht.tallied b k' hb
  · rw [hsub, ← hself]
    exact ht.submitted.change (fun b hb => congrArg addedSubmitted (hothers b hb))
  · rw [hskip, ← hself]
    exact ht.skipped.change (fun b hb => congrArg addedSkipped (hothers b hb))

/-- A call in its loop moves and stays in it. -/
theorem Totals.loop (ht : Totals x) {id : Nat} {k : PrefetchCall}
    (hbefore : addedSubmitted (x.calls id) = 0 ∧ addedSkipped (x.calls id) = 0)
    (hcalls : x'.calls = update x.calls id (some k)) (hk : k.Tallied)
    (hstage : k.stage = .looping) (hsub : x'.prefetchSubmitted = x.prefetchSubmitted)
    (hskip : x'.prefetchSkipped = x.prefetchSkipped) : Totals x' := by
  have hafter := added_looping hstage
  refine ht.move hcalls hk ?_ ?_
  · rw [hbefore.1, hafter.1, hsub]
    omega
  · rw [hbefore.2, hafter.2, hskip]
    omega

/-- A call that has ended records its counts, first the one and then the
    other. -/
theorem Totals.record (ht : Totals x) {id : Nat} {k : PrefetchCall} (hk : x.calls id = some k)
    (hcurrent : k.current = none) (hs : x.stepRecord id k = some x') : Totals x' := by
  have htallied := ht.tallied id k hk
  have hle := ht.submitted.le id
  have hle' := ht.skipped.le id
  have hended : ∀ st, k.rest = [] → ({ k with stage := st } : PrefetchCall).Tallied :=
    fun st hrest => ⟨htallied.total, htallied.room, htallied.bounded, fun _ => ⟨hrest, hcurrent⟩⟩
  unfold CallsState.stepRecord at hs
  split at hs
  · rename_i hrest hstage
    have hzero := added_looping hstage
    cases hs
    refine ht.move rfl (hended .recorded hrest) ?_ ?_
    · rw [hk, hzero.1]
      rfl
    · rw [hk, hzero.2]
      rfl
  · rename_i hrest hstage
    have hsub : addedSubmitted (some k) = k.submitted := by
      change (if k.stage = .looping then 0 else k.submitted) = k.submitted
      rw [hstage]
      rfl
    have hskip : addedSkipped (some k) = 0 := by
      change (if k.stage = .done then k.skipped else 0) = 0
      rw [hstage]
      rfl
    cases hs
    refine ht.move rfl (hended .done hrest) ?_ ?_
    · rw [hk] at hle ⊢
      rw [hsub] at hle ⊢
      change x.prefetchSubmitted = x.prefetchSubmitted - k.submitted + k.submitted
      omega
    · rw [hk, hskip]
      rfl
  · cases hs

theorem Totals.step (ht : Totals x) (hs : (prefetchCalls cfg).next x lab = some x') :
    Totals x' := by
  -- a call that has a current handle, or a next one, is in its loop
  have hlooping : ∀ {id k}, x.calls id = some k → (k.current.isSome = true ∨ k.rest ≠ []) →
      k.stage = .looping := by
    intro id k hk hloop
    by_contra hne
    rcases (ht.tallied id k hk).ended hne with ⟨hrest, hcurrent⟩
    rcases hloop with h | h
    · rw [hcurrent] at h
      exact Bool.false_ne_true h
    · exact h hrest
  cases lab with
  | step l =>
      change (if _ then none else x.stepPool cfg l (fun _ y => y)) = some x' at hs
      split at hs
      · cases hs
      · rcases stepPool_eq_some hs with ⟨s, -, rfl⟩
        exact ⟨ht.tallied, ht.submitted, ht.skipped⟩
  | call id handles =>
      dsimp only [prefetchCalls, CallsState.next] at hs
      split at hs
      · rename_i hnew
        split at hs
        · cases hs
          refine ht.loop ?_ rfl (tallied_start handles) rfl rfl rfl
          rw [hnew]
          exact ⟨rfl, rfl⟩
        · cases hs
      · cases hs
  | next id a =>
      dsimp only [prefetchCalls, CallsState.next] at hs
      split at hs
      · rename_i k hk
        have htallied := ht.tallied id k hk
        split at hs
        · rename_i hcurrent
          rcases nextHandle_eq_some hs with ⟨w, rest, hrest, hcases⟩
          have hstage := hlooping hk (.inr (by rw [hrest]; exact List.cons_ne_nil _ _))
          have htotal := htallied.total
          rw [hcurrent, hrest, List.length_cons] at htotal
          rcases hcases with ⟨-, rfl⟩ | ⟨hroom, l, s, -, rfl⟩
          · refine ht.loop (hk ▸ added_looping hstage) rfl ⟨?_, ?_, htallied.bounded, ?_⟩ hstage
              rfl rfl
            · change rest.length + k.submitted + (k.skipped + 1) +
                (if k.current.isSome then 1 else 0) = k.handles.length
              rw [hcurrent]
              simp only [Option.isSome_none, Bool.false_eq_true, if_false] at htotal ⊢
              omega
            · exact htallied.room
            · exact fun hne => absurd hstage hne
          · refine ht.loop (hk ▸ added_looping hstage) rfl
              ⟨?_, fun _ => hroom, htallied.bounded, fun hne => absurd hstage hne⟩ hstage rfl rfl
            change rest.length + k.submitted + k.skipped + 1 = k.handles.length
            simp only [Option.isSome_none, Bool.false_eq_true, if_false] at htotal
            omega
        · cases hs
      · cases hs
  | handle id c =>
      dsimp only [prefetchCalls, CallsState.next] at hs
      split at hs
      · rename_i k hk
        split at hs
        · rename_i a hcurrent
          have hsome : k.current.isSome = true := by
            rw [hcurrent]
            rfl
          have hstage := hlooping hk (.inl hsome)
          rcases stepHandle_eq_some hs with ⟨l, s, -, rfl⟩
          have hkeeps := see_keeps k (x.manager.pcs a) c
          refine ht.loop (hk ▸ added_looping hstage) rfl ?_ ?_ rfl rfl
          · refine ((ht.tallied id k hk).see _ c).after ?_ _
            rw [hkeeps.2]
            exact hsome
          · rw [after_stage, hkeeps.1]
            exact hstage
        · cases hs
      · cases hs
  | record id =>
      dsimp only [prefetchCalls, CallsState.next] at hs
      split at hs
      · rename_i k hk
        split at hs
        · exact ht.record hk ‹_› hs
        · cases hs
      · cases hs

theorem totals_reachable (hr : Reachable (prefetchCalls cfg) x) : Totals x := by
  refine reachable_invariant (I := Totals) ?_ (fun x lab x' ht hs => ht.step hs) hr
  rintro x ⟨-, hcalls, hsub, hskip⟩
  refine ⟨fun id k hk => ?_, ?_, ?_⟩
  · rw [hcalls] at hk
    cases hk
  · rw [hsub, hcalls]
    exact Amounts.zero (fun _ => rfl)
  · rw [hskip, hcalls]
    exact Amounts.zero (fun _ => rfl)

/-! ### Admission -/

/-- What the admission of prefetch requests promises. -/
structure AdmissionExact (cfg : Config) (x : CallsState) : Prop where
  bounded : x.manager.shared.prefetchInFlight ≤ MAX_PREFETCH_IN_FLIGHT
  /-- In particular the count does not underflow. -/
  sound : ∀ a site, x.manager.pcs a ≠ .panicked site
  /-- The count is that of the reservations, with those that are being
      dropped, and the pending set has their pages, with those that are being
      admitted. -/
  count : {a | (x.manager.pcs a).reserves.isSome = true ∨
    (x.manager.pcs a).releases.isSome = true}.encard = x.manager.shared.prefetchInFlight
  pending : ∀ p, x.manager.shared.prefetchPending p = true ↔
    ∃ a, (x.manager.pcs a).reserves = some p ∨ (x.manager.pcs a).admits = some p
  /-- Between admissions and drops both are those of the reservations. -/
  counted : (∀ a, (x.manager.pcs a).admits = none ∧ (x.manager.pcs a).releases = none) →
    {a | (x.manager.pcs a).reserves.isSome = true}.encard = x.manager.shared.prefetchInFlight ∧
      ∀ p, x.manager.shared.prefetchPending p = true ↔ ∃ a, (x.manager.pcs a).reserves = some p
  sole : Sole (fun a => (x.manager.pcs a).reserves)
  /-- A queued task has one frame, out of circulation and reserved. -/
  queued : x.manager.shared.channel.Nodup ∧ ∀ a ∈ x.manager.shared.channel,
    ∃ t i, x.manager.pcs a = .task t .queued ∧ t.checkout = some i ∧ i < cfg.frameCount ∧
      isEvicting (x.manager.shared.pinControl i) = true ∧ i ∉ x.manager.shared.free ∧
      (∀ w, ¬ x.manager.shared.store.Resides cfg w i) ∧
      ∀ b, ((x.manager.pcs b).role cfg).tenure.own = some i ↔ b = a
  /-- A call adds what it was given, and the statistics are the sums. -/
  recorded : (∀ id k, x.calls id = some k → k.stage = .done →
      addedSubmitted (some k) + addedSkipped (some k) = k.handles.length ∧
        addedSubmitted (some k) ≤ MAX_PREFETCH_IN_FLIGHT) ∧
    Amounts (fun id => addedSubmitted (x.calls id)) x.prefetchSubmitted ∧
    Amounts (fun id => addedSkipped (x.calls id)) x.prefetchSkipped

theorem admission_exact (hr : Reachable (prefetchCalls cfg) x) : AdmissionExact cfg x := by
  have hpool := calls_pool hr
  have hclaims := claims_reachable hpool
  have htotals := totals_reachable hr
  refine ⟨flights_bounded hpool, fun a => never_panicked hpool a, flights_count hpool,
    fun p => ?_, fun hquiet => ⟨?_, ?_⟩, fun a b p ha hb => ?_,
    ⟨(queued_reachable hpool).nodup, fun a ha => ?_⟩, fun id k hk hdone => ?_,
    htotals.submitted, htotals.skipped⟩
  · rw [hclaims.pending p]
    refine exists_congr (fun a => ⟨fun ha => ?_, ?_⟩)
    · rcases Option.or_eq_some_iff.mp ha with h | ⟨-, h⟩
      · exact .inl h
      · exact .inr h
    · rintro (h | h)
      · exact claims_of_reserves h
      · exact claims_of_admits h
  · rw [← flights_count hpool]
    congr 1
    ext a
    rw [Set.mem_ofPred_eq, Set.mem_ofPred_eq, (hquiet a).2]
    exact ⟨.inl, fun h => h.resolve_right Bool.false_ne_true⟩
  · intro p
    rw [hclaims.pending p]
    refine exists_congr (fun a => ?_)
    rw [Pc.claims, (hquiet a).1, Option.or_none]
  · exact hclaims.sole a b p (claims_of_reserves ha) (claims_of_reserves hb)
  · rcases enqueued_iff.mp (((queued_reachable hpool).named a).mp ha) with ⟨t, hpc⟩
    rcases queued_frame hpool hpc with ⟨i, hframe⟩
    exact ⟨t, i, hpc, hframe⟩
  · have htallied := htotals.tallied id k hk
    have hsub : addedSubmitted (some k) = k.submitted := by
      change (if k.stage = .looping then 0 else k.submitted) = k.submitted
      rw [hdone]
      rfl
    have hskip : addedSkipped (some k) = k.skipped := by
      change (if k.stage = .done then k.skipped else 0) = k.skipped
      rw [hdone]
      rfl
    have htotal := htallied.total
    rcases htallied.ended (by rw [hdone]; rintro ⟨⟩) with ⟨hrest, hcurrent⟩
    rw [hrest, hcurrent, List.length_nil] at htotal
    simp only [Option.isSome_none, Bool.false_eq_true, if_false] at htotal
    rw [hsub, hskip]
    exact ⟨by omega, htallied.bounded⟩

/-- A call for page `0`, for the same page again, and for a resident page. -/
def calling : List CallLabel :=
  evicting.map .step ++ [.call 0 [0, 0, 1], .next 0 4] ++ List.replicate 12 (.handle 0 {}) ++
    [.next 0 5] ++ List.replicate 5 (.handle 0 {}) ++ [.next 0 6] ++
    List.replicate 3 (.handle 0 {}) ++ [.record 0, .record 0]

/-- One request is submitted and two are skipped. -/
theorem admission_exact_calling : ∃ x, exec (prefetchCalls watermarkConfig)
    ⟨PoolState.initial watermarkConfig (fun _ => none), fun _ => none, 0, 0⟩ calling = some x ∧
    x.prefetchSubmitted = 1 ∧ x.prefetchSkipped = 2 ∧ AdmissionExact watermarkConfig x := by
  have hrun : (exec (prefetchCalls watermarkConfig)
      ⟨PoolState.initial watermarkConfig (fun _ => none), fun _ => none, 0, 0⟩ calling).map
        (fun x => (x.prefetchSubmitted, x.prefetchSkipped)) = some (1, 2) := by decide +kernel
  rcases Option.map_eq_some_iff.mp hrun with ⟨x, hx, hsees⟩
  rw [Prod.mk.injEq] at hsees
  refine ⟨x, hx, hsees.1, hsees.2, admission_exact (reachable_exec _ _ x ?_ hx)⟩
  exact ReachableVia.init ⟨⟨_, rfl⟩, rfl, rfl, rfl⟩

end TierBuf
