import TierBuf.Pool.Flow
import TierBuf.Pool.Footprint
import TierBuf.Pool.Residency

/-!
# Prefetch Admission

Who holds the resources of a prefetch request.

A request is admitted in four steps, each of which claims one resource: an
entry of the pending set, a unit of the in-flight count, a free frame and a
place in the channel. A failure gives back what has been claimed, and so does
the drop of the reservation, in its own order: first the entry, then the unit.
The entry of a page has one holder at any time, and the count has as many
holders as it says.

## Main definitions

* `Pc.reserves`: The page of a live reservation.
* `Pc.admits`, `Pc.releases`: An agent between the two parts of a reservation.
* `Claims`: The pending set names the claimed pages.
* `Queued`: The channel names the agents with a queued task.

## Theorems

* `claims_step`: How one step changes the pending set.
* `claims_reachable`, `queued_reachable`, `flights_bounded`: The invariants.
* `queued_frame`: A queued task holds one reserved frame.
-/

namespace TierBuf

open Function Ledger Transition

variable {cfg : Config} {s s' : PoolState} {l : Agent × Choice}

/-! ### Reservations -/

def FaultCtx.reserves : FaultCtx → Option PageId
  | .demand _ => none
  | .prefetch t => some t.pid

def FillCtx.reserves : FillCtx → Option PageId
  | .prefetch p _ _ _ => some p
  | _ => none

def CheckinCtx.reserves : CheckinCtx → Option PageId
  | .prefetch p _ _ _ | .task _ p => some p
  | _ => none

namespace Pc

/-- The page of the `PrefetchReservation` an agent holds. -/
def reserves : Pc → Option PageId
  | .submit _ p st => match st with
    | .pop | .member _ | .claim _ | .recheck _ | .send _ => some p
    | _ => none
  | .task t _ => some t.pid
  | .fault k _ | .stuck k => k.reserves
  | .fill f _ => f.ctx.reserves
  | .checkin k _ _ => k.reserves
  | .unreserve _ p .pending => some p
  | _ => none

/-- The page an agent has put into the pending set and not yet counted, or is
    about to take out of it again. -/
def admits : Pc → Option PageId
  | .submit _ p .inFlight | .submit _ p .unpend => some p
  | _ => none

/-- The page an agent has taken out of the pending set and still counts. -/
def releases : Pc → Option PageId
  | .unreserve _ p .inFlight => some p
  | _ => none

/-- The page whose entry in the pending set is the agent's. -/
def claims (pc : Pc) : Option PageId := pc.reserves.or pc.admits

end Pc

theorem claims_of_reserves {pc : Pc} {p : PageId} (h : pc.reserves = some p) :
    pc.claims = some p := by
  rw [Pc.claims, h]
  rfl

theorem claims_of_admits {pc : Pc} {p : PageId} (h : pc.admits = some p) :
    pc.claims = some p := by
  cases pc with
  | submit w q st =>
      cases st with
      | inFlight => exact h
      | unpend => exact h
      | _ => cases h
  | _ => cases h

section Step

variable {sh sh' : Shared} {c : Choice} {a : Agent} {pc pc' : Pc}

/-- What one step of an agent does to the pending set. -/
inductive ClaimStep (sh sh' : Shared) (pc pc' : Pc) : Prop where
  | same (h : pc'.claims = pc.claims) (hp : sh'.prefetchPending = sh.prefetchPending)
  | claimed {p : PageId} (h : pc.claims = none) (h' : pc'.claims = some p)
      (hfree : sh.prefetchPending p = false)
      (hp : sh'.prefetchPending = update sh.prefetchPending p true)
  | dropped {p : PageId} (h : pc.claims = some p) (h' : pc'.claims = none)
      (hp : sh'.prefetchPending = update sh.prefetchPending p false)

theorem stepSubmit_claims {w : SwipId} {p : PageId} {st : SubmitStage}
    (hs : sh.stepSubmit cfg c a w p st = some (sh', pc')) (hpanic : ∀ site, pc' ≠ .panicked site) :
    ClaimStep sh sh' (.submit w p st) pc' := by
  cases st with
  | pending =>
      dsimp only [Shared.stepSubmit] at hs
      split at hs
      · cases hs
        exact .same rfl rfl
      · cases hs
        exact .claimed rfl rfl (Bool.eq_false_iff.mpr ‹_›) rfl
  | unpend =>
      cases hs
      exact .dropped rfl rfl rfl
  | pop =>
      dsimp only [Shared.stepSubmit, Shared.popFree] at hs
      split at hs <;> (cases hs; exact .same rfl rfl)
  | member i =>
      dsimp only [Shared.stepSubmit, Shared.leaveQueue] at hs
      split at hs
      · cases hs
        exact .same rfl rfl
      · cases hs
        exact absurd rfl (hpanic _)
  | _ =>
      dsimp only [Shared.stepSubmit] at hs
      split at hs <;> (cases hs; exact .same rfl rfl)

theorem stepUnreserve_claims {running : Bool} {p : PageId} {st : UnreserveStage}
    (hs : sh.stepUnreserve running p st = some (sh', pc')) :
    ClaimStep sh sh' (.unreserve running p st) pc' := by
  cases st with
  | pending =>
      cases hs
      exact .dropped rfl rfl rfl
  | inFlight =>
      dsimp only [Shared.stepUnreserve] at hs
      split at hs
      · cases hs
        exact .same rfl rfl
      · cases hs
        cases running <;> exact .same rfl rfl
  | retire =>
      cases hs
      exact .same rfl rfl

theorem claims_step (hs : sh.step cfg c a pc = some (sh', pc'))
    (hpanic : ∀ site, pc' ≠ .panicked site)
    (hinsert : ∀ f, pc = .fill f .insert → f.ctx.allocates = true) : ClaimStep sh sh' pc pc' := by
  have hflow := step_flow hs
  -- only the steps of a submission and of a drop touch the pending set
  have hsame : ¬ Field.Writer pc .prefetchPending → pc'.claims = pc.claims →
      ClaimStep sh sh' pc pc' :=
    fun hw h => .same h (step_same (f := .prefetchPending) hs hw)
  have hnot : (∀ s p st, pc ≠ .submit s p st) → (∀ r p st, pc ≠ .unreserve r p st) →
      ¬ Field.Writer pc .prefetchPending := by
    rintro hsubmit hunreserve (⟨s, p, h⟩ | ⟨s, p, h⟩ | ⟨r, p, h⟩)
    · exact hsubmit _ _ _ h
    · exact hsubmit _ _ _ h
    · exact hunreserve _ _ _ h
  cases pc with
  | submit w p st => exact stepSubmit_claims hs hpanic
  | unreserve running p st => exact stepUnreserve_claims hs
  | stuck k => cases hs
  | returned r => cases hs
  | panicked site => cases hs
  | fault k st =>
      refine hsame (hnot (fun _ _ _ => nofun) (fun _ _ _ => nofun)) ?_
      cases hflow with
      | assertion => exact absurd rfl (hpanic _)
      | @faultReturn _ _ r =>
          cases k with
          | demand k =>
              rcases r with e | tier
              · rfl
              · cases tier <;> rfl
          | prefetch t =>
              rcases t with ⟨p, w, checkout⟩
              cases checkout <;> rfl
      | _ => rfl
  | acquire w st =>
      refine hsame (hnot (fun _ _ _ => nofun) (fun _ _ _ => nofun)) ?_
      cases hflow with
      | assertion => exact absurd rfl (hpanic _)
      | acquired => cases w <;> rfl
      | acquireFailed => cases w <;> rfl
      | _ => rfl
  | cool k st =>
      refine hsame (hnot (fun _ _ _ => nofun) (fun _ _ _ => nofun)) ?_
      cases hflow with
      | assertion => exact absurd rfl (hpanic _)
      | coolReturn => cases k <;> rfl
      | _ => rfl
  | enqueue k i p st =>
      refine hsame (hnot (fun _ _ _ => nofun) (fun _ _ _ => nofun)) ?_
      cases hflow with
      | assertion => exact absurd rfl (hpanic _)
      | enqueueReturn => cases k <;> rfl
      | _ => rfl
  | evict k t st =>
      refine hsame (hnot (fun _ _ _ => nofun) (fun _ _ _ => nofun)) ?_
      cases hflow with
      | assertion => exact absurd rfl (hpanic _)
      | @evictReturn _ _ _ r =>
          rcases r with e | outcome
          · cases k <;> rfl
          · cases outcome <;> cases k <;> rfl
      | _ => rfl
  | fill f st =>
      refine hsame (hnot (fun _ _ _ => nofun) (fun _ _ _ => nofun)) ?_
      rcases f with ⟨ctx, i⟩
      cases hflow with
      | assertion => exact absurd rfl (hpanic _)
      | fillCheckin => cases ctx <;> rfl
      | fillGuard =>
          have hallocates := hinsert _ rfl
          cases ctx with
          | prefetch p w loc g => cases hallocates
          | _ => rfl
      | _ => rfl
  | checkin k i st =>
      refine hsame (hnot (fun _ _ _ => nofun) (fun _ _ _ => nofun)) ?_
      cases hflow with
      | assertion => exact absurd rfl (hpanic _)
      | checkinReturn => cases k <;> rfl
      | _ => rfl
  | _ =>
      refine hsame (hnot (fun _ _ _ => nofun) (fun _ _ _ => nofun)) ?_
      cases hflow <;> first | rfl | exact absurd rfl (hpanic _)

end Step

/-! ### The pending set -/

/-- An entry of the pending set has one holder. -/
structure Claims (s : PoolState) : Prop where
  sole : Sole (fun a => (s.pcs a).claims)
  pending : ∀ p, s.shared.prefetchPending p = true ↔ ∃ a, (s.pcs a).claims = some p

theorem claims_next (hr : Reachable (pool cfg) s) (hs : (pool cfg).next s l = some s') :
    ClaimStep s.shared s'.shared (s.pcs l.1) (s'.pcs l.1) := by
  refine claims_step (pool_next hs).1 (never_panicked (hr.next hs) l.1) (fun f hpc => ?_)
  have hchecked := ((inv_reachable hr).sound l.1).checked
  rw [PoolState.roles, hpc] at hchecked
  exact hchecked

theorem Claims.step (hr : Reachable (pool cfg) s) (hc : Claims s)
    (hs : (pool cfg).next s l = some s') : Claims s' := by
  have hothers : ∀ b, b ≠ l.1 → (s'.pcs b).claims = (s.pcs b).claims :=
    fun b hb => congrArg Pc.claims ((pool_next hs).2 b hb)
  cases claims_next hr hs with
  | same h hp =>
      have hall : ∀ b, (s'.pcs b).claims = (s.pcs b).claims := by
        intro b
        by_cases hb : b = l.1
        · rw [hb, h]
        · exact hothers b hb
      refine ⟨hc.sole.keep hothers h, fun p => ?_⟩
      rw [hp, hc.pending p]
      exact exists_congr (fun b => by rw [← hall b])
  | @claimed p h h' hfree hp =>
      have hnobody : ∀ b, (s.pcs b).claims ≠ some p := by
        intro b hb
        exact Bool.false_ne_true (hfree.symm.trans ((hc.pending p).mpr ⟨b, hb⟩))
      refine ⟨hc.sole.acquire hothers h' hnobody, fun q => ?_⟩
      rw [hp]
      by_cases hq : q = p
      · rw [hq, update_self]
        exact ⟨fun _ => ⟨l.1, h'⟩, fun _ => rfl⟩
      · rw [update_of_ne hq, hc.pending q]
        refine ⟨fun ⟨b, hb⟩ => ⟨b, ?_⟩, fun ⟨b, hb⟩ => ⟨b, ?_⟩⟩
        · have hbl : b ≠ l.1 := by
            rintro rfl
            cases h.symm.trans hb
          rw [hothers b hbl]
          exact hb
        · have hbl : b ≠ l.1 := by
            rintro rfl
            exact hq (Option.some.inj (hb.symm.trans h'))
          rw [← hothers b hbl]
          exact hb
  | @dropped p h h' hp =>
      refine ⟨hc.sole.release hothers h', fun q => ?_⟩
      rw [hp]
      by_cases hq : q = p
      · rw [hq, update_self]
        refine ⟨fun hf => absurd hf Bool.false_ne_true, fun ⟨b, hb⟩ => ?_⟩
        have hbl : b ≠ l.1 := by
          rintro rfl
          cases h'.symm.trans hb
        rw [hothers b hbl] at hb
        exact absurd (hc.sole b l.1 p hb h) hbl
      · rw [update_of_ne hq, hc.pending q]
        refine ⟨fun ⟨b, hb⟩ => ⟨b, ?_⟩, fun ⟨b, hb⟩ => ⟨b, ?_⟩⟩
        · have hbl : b ≠ l.1 := by
            rintro rfl
            exact hq (Option.some.inj (hb.symm.trans h))
          rw [hothers b hbl]
          exact hb
        · have hbl : b ≠ l.1 := by
            rintro rfl
            cases h'.symm.trans hb
          rw [← hothers b hbl]
          exact hb

theorem claims_reachable (hr : Reachable (pool cfg) s) : Claims s := by
  refine reachableVia_invariant (I := Claims) ?_ (fun s l s' hr hc _ hs => hc.step hr hs) hr
  rintro s ⟨budgets, rfl⟩
  refine ⟨fun _ _ _ => nofun, fun p => ⟨fun h => absurd h Bool.false_ne_true, ?_⟩⟩
  rintro ⟨a, ha⟩
  cases ha

/-! ### The in-flight count -/

/-- The roles that are in flight are the holders of a reservation, and those
    that are dropping one. -/
theorem flight_role {pc : Pc} :
    (pc.role cfg).flight = (pc.reserves.isSome || pc.releases.isSome) := by
  cases pc with
  | enter op st => cases st <;> rfl
  | fix k st =>
      cases st with
      | exactOwner i state => cases state <;> rfl
      | _ => rfl
  | fault k st => cases k <;> cases st <;> rfl
  | stuck k => cases k <;> rfl
  | acquire w st => cases st <;> rfl
  | enqueue k i p st => cases k <;> rfl
  | fill f st =>
      rcases f with ⟨ctx, i⟩
      cases ctx <;> cases st <;> rfl
  | checkin k i st => cases k <;> rfl
  | leave r => cases r <;> rfl
  | guard g st => cases st <;> rfl
  | submit s p st => cases st <;> rfl
  | unreserve running p st => cases st <;> rfl
  | returned r =>
      rcases r with _ | e | r
      · rfl
      · rfl
      · cases r <;> rfl
  | _ => rfl

/-- The count never exceeds its limit. -/
theorem flights_bounded (hr : Reachable (pool cfg) s) :
    s.shared.prefetchInFlight ≤ MAX_PREFETCH_IN_FLIGHT := by
  refine reachableVia_invariant (I := fun s => s.shared.prefetchInFlight ≤ MAX_PREFETCH_IN_FLIGHT)
    ?_ (fun s l s' _ hle _ hs => ?_) hr
  · rintro s ⟨budgets, rfl⟩
    exact Nat.zero_le _
  · have hstep := (pool_next hs).1
    by_cases hw : Field.Writer (s.pcs l.1) .prefetchInFlight
    · rcases hw with ⟨w, p, hpc⟩ | ⟨r, p, hpc⟩
      · rw [hpc, Shared.step] at hstep
        dsimp only [Shared.stepSubmit] at hstep
        split at hstep
        · have hafter : s.shared.prefetchInFlight + 1 = s'.shared.prefetchInFlight :=
            congrArg (fun r => r.1.prefetchInFlight) (Option.some.inj hstep)
          omega
        · have hafter : s.shared.prefetchInFlight = s'.shared.prefetchInFlight :=
            congrArg (fun r => r.1.prefetchInFlight) (Option.some.inj hstep)
          omega
      · rw [hpc, Shared.step] at hstep
        dsimp only [Shared.stepUnreserve] at hstep
        split at hstep
        · have hafter : s.shared.prefetchInFlight = s'.shared.prefetchInFlight :=
            congrArg (fun r => r.1.prefetchInFlight) (Option.some.inj hstep)
          omega
        · rename_i n hn
          have hafter : n = s'.shared.prefetchInFlight :=
            congrArg (fun r => r.1.prefetchInFlight) (Option.some.inj hstep)
          omega
    · have hsame : s'.shared.prefetchInFlight = s.shared.prefetchInFlight :=
        step_same (f := .prefetchInFlight) hstep hw
      omega

/-- The count is that of the reservations, and of those that are being
    dropped. -/
theorem flights_count (hr : Reachable (pool cfg) s) :
    {a | (s.pcs a).reserves.isSome = true ∨ (s.pcs a).releases.isSome = true}.encard =
      s.shared.prefetchInFlight := by
  rw [← (inv_reachable hr).background.flights]
  unfold tally
  congr 1
  ext a
  have hflight : (s.roles cfg a).flight =
      ((s.pcs a).reserves.isSome || (s.pcs a).releases.isSome) := flight_role
  change _ ↔ (if (s.roles cfg a).flight then some () else none) = some ()
  rw [Set.mem_ofPred_eq, hflight]
  cases (s.pcs a).reserves.isSome <;> cases (s.pcs a).releases.isSome <;>
    simp only [Bool.or_false, Bool.or_true, Bool.false_eq_true, if_true, if_false, or_false,
      or_true, reduceCtorEq]

/-! ### The channel -/

/-- Whether an agent has a queued task. -/
def Pc.enqueued : Pc → Bool
  | .task _ .queued => true
  | _ => false

theorem enqueued_iff {pc : Pc} : pc.enqueued = true ↔ ∃ t, pc = .task t .queued := by
  refine ⟨fun h => ?_, ?_⟩
  · cases pc with
    | task t st =>
        cases st with
        | queued => exact ⟨t, rfl⟩
        | check => cases h
    | _ => cases h
  · rintro ⟨t, rfl⟩
    rfl

/-- The channel names the agents with a queued task. -/
structure Queued (s : PoolState) : Prop where
  nodup : s.shared.channel.Nodup
  bounded : s.shared.channel.length ≤ MAX_PREFETCH_IN_FLIGHT
  named : ∀ a, a ∈ s.shared.channel ↔ (s.pcs a).enqueued = true

/-- Only a submission queues a task. -/
theorem Flow.into_queued {pc pc' : Pc} (h : Flow pc pc') (hq : pc'.enqueued = true) :
    ∃ w p i, pc = .submit w p (.send i) := by
  cases h with
  | submitTask => exact ⟨_, _, _, rfl⟩
  | @faultReturn k _ r =>
      have hreturn : (k.return r).enqueued = false := by
        unfold FaultCtx.return
        (repeat' split) <;> rfl
      cases hreturn.symm.trans hq
  | acquired => rename_i w _ _; cases w <;> cases hq
  | acquireFailed => rename_i w _ _; cases w <;> cases hq
  | coolReturn => rename_i k _; cases k <;> cases hq
  | enqueueReturn => rename_i k _ _ _; cases k <;> cases hq
  | @evictReturn k t _ r =>
      have hreturn : (k.return t r).enqueued = false := by
        rcases r with e | outcome
        · cases k <;> rfl
        · cases outcome <;> cases k <;> rfl
      cases hreturn.symm.trans hq
  | checkinReturn => rename_i k _; cases k <;> cases hq
  | _ => cases hq

theorem Queued.step (hq : Queued s) (hs : (pool cfg).next s l = some s') : Queued s' := by
  rcases pool_next hs with ⟨hstep, hothers⟩
  have hrest : ∀ b, b ≠ l.1 → (b ∈ s.shared.channel ↔ (s'.pcs b).enqueued = true) := by
    intro b hb
    rw [hothers b hb]
    exact hq.named b
  by_cases hw : Field.Writer (s.pcs l.1) .channel
  · rcases hw with ⟨w, p, i, hpc⟩ | ⟨t, hpc⟩
    · have hnot : l.1 ∉ s.shared.channel := by
        rw [hq.named, hpc]
        exact Bool.false_ne_true
      rw [hpc, Shared.step] at hstep
      dsimp only [Shared.stepSubmit] at hstep
      split at hstep
      · have hafter : s.shared.channel ++ [l.1] = s'.shared.channel :=
          congrArg (fun r => r.1.channel) (Option.some.inj hstep)
        have hpc' : Pc.task ⟨p, w, some i⟩ .queued = s'.pcs l.1 :=
          congrArg Prod.snd (Option.some.inj hstep)
        refine ⟨?_, ?_, fun b => ?_⟩
        · rw [← hafter]
          exact List.nodup_append.mpr ⟨hq.nodup, List.nodup_singleton _, fun b hb c hc hbc =>
            hnot (by rw [← List.mem_singleton.mp hc, ← hbc]; exact hb)⟩
        · rw [← hafter, List.length_append, List.length_singleton]
          omega
        · rw [← hafter, List.mem_append, List.mem_singleton]
          by_cases hb : b = l.1
          · rw [hb, ← hpc']
            exact ⟨fun _ => rfl, fun _ => .inr rfl⟩
          · rw [hrest b hb]
            exact ⟨fun h => h.resolve_right hb, .inl⟩
      · have hafter : s.shared.channel = s'.shared.channel :=
          congrArg (fun r => r.1.channel) (Option.some.inj hstep)
        have hpc' : Pc.checkin (.task false p) i .release = s'.pcs l.1 :=
          congrArg Prod.snd (Option.some.inj hstep)
        refine ⟨hafter ▸ hq.nodup, hafter ▸ hq.bounded, fun b => ?_⟩
        rw [← hafter]
        by_cases hb : b = l.1
        · rw [hb, ← hpc']
          exact ⟨fun h => absurd h hnot, fun h => absurd h Bool.false_ne_true⟩
        · exact hrest b hb
    · rw [hpc, Shared.step] at hstep
      dsimp only [Shared.stepTask] at hstep
      split at hstep
      · rename_i b rest hchannel
        split at hstep
        · rename_i hfirst
          have hafter : rest = s'.shared.channel :=
            congrArg (fun r => r.1.channel) (Option.some.inj hstep)
          have hpc' : Pc.task t .check = s'.pcs l.1 := congrArg Prod.snd (Option.some.inj hstep)
          have hnodup := hq.nodup
          have hbounded := hq.bounded
          rw [hchannel, List.nodup_cons] at hnodup
          rw [hchannel, List.length_cons] at hbounded
          refine ⟨hafter ▸ hnodup.2, by rw [← hafter]; omega, fun c => ?_⟩
          rw [← hafter]
          by_cases hc : c = l.1
          · rw [hc, ← hpc', ← hfirst.1]
            exact ⟨fun h => absurd h hnodup.1, fun h => absurd h Bool.false_ne_true⟩
          · rw [← hrest c hc, hchannel, List.mem_cons, hfirst.1]
            exact ⟨.inr, fun h => h.resolve_left hc⟩
        · cases hstep
      · cases hstep
  · have hsame : s'.shared.channel = s.shared.channel := step_same (f := .channel) hstep hw
    refine ⟨hsame ▸ hq.nodup, hsame ▸ hq.bounded, fun b => ?_⟩
    rw [hsame]
    by_cases hb : b = l.1
    · -- it is not queued before the step, and not after it
      have hbefore : (s.pcs l.1).enqueued = false := by
        refine Bool.eq_false_iff.mpr (fun h => hw (.inr ?_))
        exact enqueued_iff.mp h
      have hafter : (s'.pcs l.1).enqueued = false := by
        refine Bool.eq_false_iff.mpr (fun h => hw (.inl ?_))
        exact (step_flow hstep).into_queued h
      rw [hb, hq.named, hbefore, hafter]
    · exact hrest b hb

theorem queued_reachable (hr : Reachable (pool cfg) s) : Queued s := by
  refine reachableVia_invariant (I := Queued) ?_ (fun s l s' _ hq _ hs => hq.step hs) hr
  rintro s ⟨budgets, rfl⟩
  refine ⟨List.nodup_nil, Nat.zero_le _, fun a => ?_⟩
  exact ⟨fun h => absurd h List.not_mem_nil, fun h => absurd h Bool.false_ne_true⟩

/-- A queued task has one frame, out of circulation and reserved. -/
theorem queued_frame (hr : Reachable (pool cfg) s) {a : Agent} {t : PrefetchTask}
    {st : TaskStage} (hpc : s.pcs a = .task t st) :
    ∃ i, t.checkout = some i ∧ i < cfg.frameCount ∧ isEvicting (s.shared.pinControl i) = true ∧
      i ∉ s.shared.free ∧ (∀ w, ¬ s.shared.store.Resides cfg w i) ∧
      ∀ b, ((s.pcs b).role cfg).tenure.own = some i ↔ b = a := by
  have hi := inv_reachable hr
  have htenure := (hi.sound a).tenure
  rw [role_at hpc] at htenure
  cases hcheckout : t.checkout with
  | none =>
      exfalso
      dsimp only [Pc.role, TaskStage.role] at htenure
      rw [hcheckout] at htenure
      exact htenure
  | some i =>
      have hrole : ((s.pcs a).role cfg).tenure = .owned i true false false none := by
        rw [hpc]
        dsimp only [Pc.role, TaskStage.role]
        rw [hcheckout]
      have hown : (s.roles cfg a).tenure.own = some i := by
        rw [PoolState.roles, hrole]
        rfl
      have hreserved : (s.roles cfg a).tenure.reservation = some i := by
        rw [PoolState.roles, hrole]
        rfl
      rcases hi.places.owned a i hown with ⟨hlt, hfree, hres⟩
      have hexclusive := Accounts.exclusive_of_holds (hi.pins.table i) hreserved
      refine ⟨i, rfl, hlt, ?_, hfree, hres, fun b => ⟨fun hb => hi.places.owner b a i hb hown, ?_⟩⟩
      · exact decide_eq_true (pinState_eq_exclusive hexclusive (hi.pins.bounded i))
      · rintro rfl
        exact hown

end TierBuf
