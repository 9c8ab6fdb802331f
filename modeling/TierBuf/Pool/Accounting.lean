import TierBuf.Pool.Flow
import TierBuf.Pool.Footprint
import TierBuf.Pool.Residency

/-!
# Demand-Hit Accounting

Every fix that returns a guard is counted once, on DRAM or on one tier.

A fix goes round its loop until it has a guard, and on the way it may wait for
any number of faults. What it remembers of them is the first tier index that
one of them named. The history of a run records the three things the claim is
about: a fault outcome with a tier index, the increment of a hit counter, and
the guard. `Fixing` is what the program point of an agent says about its past,
and `Fixing.Tells` says it in terms of the events of the agent.

## Main definitions

* `FixEvent`, `Shared.fixEvents`, `fixHistory`: What is recorded of a run.
* `Fixing`, `Pc.fixing`: How far the fix of an agent has come.
* `Fixing.Tells`: What that says about the events so far.

## Theorems

* `step_moves`: What one step records.
* `tells_reachable`, `tier_reachable`, `counters_reachable`: The invariants.
* `hits_partition`: The hit counters partition the completed fixes.
-/

namespace TierBuf

open Function Transition

variable {cfg : Config} {sh sh' : Shared} {c : Choice} {a : Agent} {pc pc' : Pc}

/-! ### Events -/

inductive FixEvent where
  /-- A fault returned this tier index to the loop. -/
  | outcome (tier : Nat)
  /-- The hit counter of this tier was incremented, or that of DRAM. -/
  | counted (tier : Option Nat)
  /-- The loop ended with this guard. -/
  | completed (g : Guard)

namespace FixEvent

def tier? : FixEvent → Option Nat
  | .outcome t => some t
  | _ => none

def hit? : FixEvent → Option (Option Nat)
  | .counted t => some t
  | _ => none

def guard? : FixEvent → Option Guard
  | .completed g => some g
  | _ => none

end FixEvent

def outcomes (es : List FixEvent) : List Nat := es.filterMap FixEvent.tier?

def hits (es : List FixEvent) : List (Option Nat) := es.filterMap FixEvent.hit?

def guards (es : List FixEvent) : List Guard := es.filterMap FixEvent.guard?

/-- The result a fault is about to hand to its caller. -/
def Shared.faultResult (sh : Shared) (p : PageId) : FaultStage → Option FaultResult
  | .wait g => match ((sh.faults p).replay g).1 with
    | .taken outcome _ => some outcome.intoResult
    | _ => none
  | .finish _ r => some r
  | _ => none

/-- The guard that is about to be returned. -/
def Pc.leaving : Pc → Option Guard
  | .leave (.guard g) => some g
  | _ => none

/-- What is recorded of one step of a fix. -/
def Shared.fixEvents (sh : Shared) (pc pc' : Pc) : List FixEvent :=
  match pc with
  | .fault (.demand k) st => match sh.faultResult k.pid st with
    | some (.ok (some t)) => [.outcome t]
    | _ => []
  | .fix k (.count _) => .counted k.faultedTier :: pc'.leaving.toList.map .completed
  | .fix _ _ | .enqueue (.fix _) _ _ _ => pc'.leaving.toList.map .completed
  | _ => []

/-- The events of a run, oldest first. -/
abbrev FixHistory := List (Agent × FixEvent)

def recordFix (h : FixHistory) (s : PoolState) (l : Agent × Choice) (s' : PoolState) :
    FixHistory :=
  h ++ (s.shared.fixEvents (s.pcs l.1) (s'.pcs l.1)).map (Prod.mk l.1)

/-- A buffer manager that remembers its fixes. -/
def fixHistory (cfg : Config) : System (PoolState × FixHistory) (Agent × Choice) :=
  (pool cfg).withHistory [] recordFix

/-- The events of one agent. -/
def FixHistory.of (h : FixHistory) (a : Agent) : List FixEvent :=
  h.filterMap (fun e => if e.1 = a then some e.2 else none)

/-! ### How far a fix has come -/

inductive Fixing where
  /-- The call has not entered a loop. -/
  | fresh
  | looping (k : FixCtx)
  /-- Its hit is counted and its guard not yet returned. -/
  | counted (k : FixCtx)
  /-- The call is not a fix, or is one that has failed. -/
  | bare
  | finished

def Fixing.ofLoop : Option FixCtx → Fixing
  | some k => .looping k
  | none => .bare

def AcquireCtx.fix : AcquireCtx → Option FixCtx
  | .allocate => none
  | .demand k _ _ => some k

def CoolCtx.fix : CoolCtx → Option FixCtx
  | .acquire w _ _ => w.fix
  | .background => none

def EvictCtx.fix : EvictCtx → Option FixCtx
  | .acquire w _ _ _ => w.fix
  | _ => none

def FaultCtx.fix : FaultCtx → Option FixCtx
  | .demand k => some k
  | .prefetch _ => none

def FillCtx.fix : FillCtx → Option FixCtx
  | .demand k _ _ => some k
  | _ => none

def CheckinCtx.fix : CheckinCtx → Option FixCtx
  | .demand k _ _ => some k
  | _ => none

def Pc.fixing : Pc → Fixing
  | .idle | .enter _ _ => .fresh
  | .fix k (.admission _) => .counted k
  | .fix k _ => .looping k
  | .fault k _ | .stuck k => .ofLoop k.fix
  | .acquire w _ => .ofLoop w.fix
  | .cool k _ => .ofLoop k.fix
  | .enqueue (.fix k) _ _ _ => .counted k
  | .enqueue (.cool k _ _) _ _ _ => .ofLoop k.fix
  | .evict k _ _ => .ofLoop k.fix
  | .fill f _ => .ofLoop f.ctx.fix
  | .checkin k _ _ => .ofLoop k.fix
  | .leave (.guard _) | .guard _ _ | .returned .done | .returned (.shutdown _)
  | .panicked _ => .finished
  | _ => .bare

/-- What one step of a fix can do, with what is recorded of it. -/
inductive Fixing.Moves : Fixing → List FixEvent → Fixing → Prop where
  | stay {v : Fixing} : Moves v [] v
  | start {k : FixCtx} (h : k.faultedTier = none) : Moves .fresh [] (.looping k)
  | skip : Moves .fresh [] .bare
  | skipOver : Moves .fresh [] .finished
  | fault {k k' : FixCtx} (h : k'.faultedTier = k.faultedTier) :
      Moves (.looping k) [] (.looping k')
  | outcome {k : FixCtx} {t : Nat} : Moves (.looping k) [.outcome t]
      (.looping { k with faultedTier := k.faultedTier.or (some t) })
  | fail {k : FixCtx} : Moves (.looping k) [] .bare
  | drop {k : FixCtx} : Moves (.looping k) [] .finished
  | rest : Moves .bare [] .finished
  | count {k : FixCtx} : Moves (.looping k) [.counted k.faultedTier] (.counted k)
  | finish {k : FixCtx} {i : Nat} :
      Moves (.looping k) [.counted k.faultedTier, .completed (k.guard i)] .finished
  | complete {k : FixCtx} {i : Nat} : Moves (.counted k) [.completed (k.guard i)] .finished

/-- What the past of an agent looks like. -/
def Fixing.Tells (es : List FixEvent) : Fixing → Prop
  | .fresh => es = []
  | .looping k => (outcomes es).head? = k.faultedTier ∧ hits es = [] ∧ guards es = []
  | .counted k =>
    (outcomes es).head? = k.faultedTier ∧ hits es = [k.faultedTier] ∧ guards es = []
  | .bare => hits es = [] ∧ guards es = []
  | .finished => (hits es = [] ∧ guards es = []) ∨ ∃ g, guards es = [g] ∧
    hits es = [(outcomes es).head?] ∧ (g.source = .lowerTier ↔ (outcomes es).head?.isSome = true)

theorem guard_source {k : FixCtx} {i : Nat} :
    (k.guard i).source = .lowerTier ↔ k.faultedTier.isSome = true := by
  unfold FixCtx.guard
  by_cases h : k.faultedTier.isSome = true
  · simp only [h, if_true]
  · simp only [h, if_false, reduceCtorEq]

/-- Recording a step keeps the account. -/
theorem Fixing.Moves.tells {v v' : Fixing} {es new : List FixEvent} (h : v.Moves new v')
    (ht : v.Tells es) : v'.Tells (es ++ new) := by
  cases h with
  | stay => rwa [List.append_nil]
  | start h =>
      rw [List.append_nil]
      have hes : es = [] := ht
      subst hes
      exact ⟨h.symm, rfl, rfl⟩
  | skip =>
      have hes : es = [] := ht
      subst hes
      exact ⟨rfl, rfl⟩
  | skipOver =>
      have hes : es = [] := ht
      subst hes
      exact .inl ⟨rfl, rfl⟩
  | fault h =>
      rw [List.append_nil]
      rcases ht with ⟨hout, hhit, hguard⟩
      exact ⟨hout.trans h.symm, hhit, hguard⟩
  | @outcome k t =>
      rcases ht with ⟨hout, hhit, hguard⟩
      refine ⟨?_, ?_, ?_⟩
      · -- the first outcome is remembered, later ones are not
        simp only [outcomes, List.filterMap_append, List.head?_append] at hout ⊢
        rw [hout]
        rfl
      · simpa only [hits, List.filterMap_append, List.append_eq_nil_iff] using ⟨hhit, rfl⟩
      · simpa only [guards, List.filterMap_append, List.append_eq_nil_iff] using ⟨hguard, rfl⟩
  | fail =>
      rw [List.append_nil]
      exact ht.2
  | drop =>
      rw [List.append_nil]
      exact .inl ht.2
  | rest =>
      rw [List.append_nil]
      exact .inl ht
  | @count k =>
      rcases ht with ⟨hout, hhit, hguard⟩
      refine ⟨?_, ?_, ?_⟩
      · simpa only [outcomes, List.filterMap_append, List.filterMap_cons, FixEvent.tier?,
          List.filterMap_nil, List.append_nil] using hout
      · simp only [hits, List.filterMap_append] at hhit ⊢
        rw [hhit]
        rfl
      · simp only [guards, List.filterMap_append] at hguard ⊢
        rw [hguard]
        rfl
  | @finish k i =>
      rcases ht with ⟨hout, hhit, hguard⟩
      have hkeep : outcomes (es ++ [.counted k.faultedTier, .completed (k.guard i)]) =
          outcomes es := by
        simp only [outcomes, List.filterMap_append, List.filterMap_cons, FixEvent.tier?,
          List.filterMap_nil, List.append_nil]
      refine .inr ⟨k.guard i, ?_, ?_, ?_⟩
      · simp only [guards, List.filterMap_append] at hguard ⊢
        rw [hguard]
        rfl
      · rw [hkeep, hout]
        simp only [hits, List.filterMap_append] at hhit ⊢
        rw [hhit]
        rfl
      · rw [hkeep, hout]
        exact guard_source
  | @complete k i =>
      rcases ht with ⟨hout, hhit, hguard⟩
      have hkeep : outcomes (es ++ [.completed (k.guard i)]) = outcomes es := by
        simp only [outcomes, List.filterMap_append, List.filterMap_cons, FixEvent.tier?,
          List.filterMap_nil, List.append_nil]
      refine .inr ⟨k.guard i, ?_, ?_, ?_⟩
      · simp only [guards, List.filterMap_append] at hguard ⊢
        rw [hguard]
        rfl
      · rw [hkeep, hout]
        simp only [hits, List.filterMap_append] at hhit ⊢
        rw [hhit]
        rfl
      · rw [hkeep, hout]
        exact guard_source

/-! ### One step -/

/-- All outcomes of a step are moves of its fix. -/
def FixMoves (sh : Shared) (pc : Pc) (o : Stepped) : Prop :=
  ∀ sh' pc', o = some (sh', pc') → pc.fixing.Moves (sh.fixEvents pc pc') pc'.fixing

namespace FixMoves

theorem none : FixMoves sh pc none :=
  fun _ _ h => by cases h

theorem some (h : pc.fixing.Moves (sh.fixEvents pc pc') pc'.fixing) :
    FixMoves sh pc (some (sh', pc')) := by
  intro _ _ ho
  cases ho
  exact h

variable {i : Nat} {exclusive : Bool}

theorem lockLatch (h : pc.fixing.Moves (sh.fixEvents pc pc') pc'.fixing) :
    FixMoves sh pc (sh.lockLatch i exclusive pc') := by
  unfold Shared.lockLatch
  split
  · exact some h
  · exact none

theorem unlatch {k : FixCtx} {st st' : FixStage} {k' : FixCtx}
    (h : (Pc.fix k st).fixing.Moves (sh.fixEvents (.fix k st) (.fix k' st')) (Pc.fix k' st').fixing)
    (hp : (Pc.fix k st).fixing = .looping k)
    (he : sh.fixEvents (.fix k st) (.panicked .latchState) = []) :
    FixMoves sh (.fix k st) (sh.unlatch i exclusive (.fix k' st')) := by
  unfold Shared.unlatch
  split
  · exact some h
  · refine some ?_
    rw [hp, he]
    exact .drop

end FixMoves

theorem stepFix_moves {k : FixCtx} {st : FixStage} :
    FixMoves sh (.fix k st) (sh.stepFix cfg c k st) := by
  cases st with
  | head =>
      dsimp only [Shared.stepFix]
      split
      · exact .some .fail
      · exact .some .stay
  | load =>
      dsimp only [Shared.stepFix]
      (repeat' split) <;> first
        | exact .some .stay
        | exact .some .fail
        | exact .some (.fault rfl)
  | pin i =>
      dsimp only [Shared.stepFix]
      split <;> exact .some .stay
  | latch i => exact .lockLatch .stay
  | exactState i => exact .some .stay
  | exactOwner i state =>
      dsimp only [Shared.stepFix]
      split <;> exact .some .stay
  | exactPid i owner =>
      dsimp only [Shared.stepFix]
      split <;> exact .some .stay
  | unlatch i => exact .unlatch .stay rfl rfl
  | unpin i =>
      dsimp only [Shared.stepFix, Shared.unpin]
      split
      · exact .some .stay
      · exact .some .drop
  | resurrect i =>
      dsimp only [Shared.stepFix]
      (repeat' split) <;> exact .some .stay
  | generation i => exact .some .stay
  | consume i g =>
      dsimp only [Shared.stepFix]
      split <;> exact .some .stay
  | hit i => exact .some .stay
  | count i =>
      dsimp only [Shared.stepFix]
      (repeat' split) <;> first
        | exact .some .count
        | exact .some .finish
  | admission i =>
      dsimp only [Shared.stepFix]
      repeat' split
      · exact .some .complete
      · exact .some .stay
      · exact .some .complete

/-- What a fault returns into its loop. -/
theorem faultReturn_moves {k : FaultCtx} {st : FaultStage} {r : FaultResult}
    (h : sh.faultResult k.pid st = some r ∨ (sh.faultResult k.pid st = none ∧ ∃ e, r = .error e)) :
    (Pc.fault k st).fixing.Moves (sh.fixEvents (.fault k st) (k.return r)) (k.return r).fixing := by
  cases k with
  | prefetch t =>
      have hbare : (FaultCtx.return (.prefetch t) r).fixing = .bare := by
        unfold FaultCtx.return
        dsimp only
        split <;> rfl
      rw [hbare]
      exact .stay
  | demand k =>
      have hevents : sh.fixEvents (.fault (.demand k) st) (FaultCtx.return (.demand k) r) =
          match sh.faultResult k.pid st with
          | some (.ok (some t)) => [.outcome t]
          | _ => [] := rfl
      rw [hevents]
      rcases h with h | ⟨h, e, rfl⟩
      · rw [show sh.faultResult k.pid st = some r from h]
        match r with
        | .ok (some t) => exact .outcome
        | .ok none => exact .stay
        | .error e => exact .fail
      · rw [show sh.faultResult k.pid st = none from h]
        exact .fail

theorem stepFault_moves {k : FaultCtx} {st : FaultStage} :
    FixMoves sh (.fault k st) (sh.stepFault cfg k st) := by
  -- a stage that returns nothing to the loop records nothing
  have hquiet : ∀ pc', sh.faultResult k.pid st = none →
      pc'.fixing = .ofLoop k.fix ∨ pc'.fixing = .finished →
      (Pc.fault k st).fixing.Moves (sh.fixEvents (.fault k st) pc') pc'.fixing := by
    intro pc' hnone hpc
    have hevents : sh.fixEvents (.fault k st) pc' = [] := by
      cases k with
      | demand k' =>
          change (match sh.faultResult k'.pid st with
            | some (.ok (some t)) => [FixEvent.outcome t]
            | _ => []) = []
          rw [show sh.faultResult k'.pid st = none from hnone]
      | prefetch t => rfl
    rw [hevents]
    rcases hpc with hpc | hpc
    · rw [hpc]
      exact .stay
    · rw [hpc]
      cases k with
      | demand k' => exact .drop
      | prefetch t => exact .rest
  cases st with
  | running =>
      dsimp only [Shared.stepFault]
      split
      · exact .some (faultReturn_moves (.inr ⟨rfl, _, rfl⟩))
      · exact .some (hquiet _ rfl (.inl rfl))
  | lookup =>
      dsimp only [Shared.stepFault]
      split
      · exact .some (faultReturn_moves (.inr ⟨rfl, _, rfl⟩))
      · split
        · exact .some (hquiet _ rfl (.inl rfl))
        · exact .some (faultReturn_moves (.inr ⟨rfl, _, rfl⟩))
  | enter =>
      dsimp only [Shared.stepFault]
      split <;> exact .some (hquiet _ rfl (.inl rfl))
  | wait g =>
      have hresult : sh.faultResult k.pid (.wait g) = match ((sh.faults k.pid).replay g).1 with
          | .taken outcome _ => some outcome.intoResult
          | _ => none := rfl
      dsimp only [Shared.stepFault]
      split
      · rename_i heq
        rw [heq] at hresult
        exact .some (hquiet _ hresult (.inl rfl))
      · rename_i heq
        rw [heq] at hresult
        exact .some (faultReturn_moves (.inl hresult))
      · rename_i heq
        rw [heq] at hresult
        exact .some (hquiet _ hresult (.inl rfl))
  | leadRunning g =>
      dsimp only [Shared.stepFault]
      split <;> exact .some (hquiet _ rfl (.inl rfl))
  | leadLoad g =>
      dsimp only [Shared.stepFault]
      (repeat' split) <;> exact .some (hquiet _ rfl (.inl rfl))
  | leadLookup g =>
      dsimp only [Shared.stepFault]
      split
      · exact .some (hquiet _ rfl (.inl rfl))
      · split
        · exact .some (hquiet _ rfl (.inl rfl))
        · cases k with
          | demand k' => exact .some (hquiet _ rfl (.inl rfl))
          | prefetch t =>
              dsimp only
              split
              · exact .some (hquiet _ rfl (.inl rfl))
              · exact .some (hquiet _ rfl (.inr rfl))
  | leadCount g loc =>
      cases k with
      | demand k' => exact .some (hquiet _ rfl (.inl rfl))
      | prefetch t => exact .none
  | finish g r => exact .some (faultReturn_moves (.inl rfl))

theorem stepEnqueue_moves {k : EnqueueCtx} {i : Nat} {p : PageId} {st : EnqueueStage} :
    FixMoves sh (.enqueue k i p st) (sh.stepEnqueue cfg k i p st) := by
  intro sh' pc' hs
  cases k with
  | fix k =>
      have hgoes : Goes (fun pc => pc = .leave (.guard (k.guard i)) ∨
          ∃ st', pc = .enqueue (.fix k) i p st') (sh.stepEnqueue cfg (.fix k) i p st) := by
        cases st <;> dsimp only [Shared.stepEnqueue] <;> (repeat' split) <;> first
          | exact .some (.inl rfl)
          | exact .some (.inr ⟨_, rfl⟩)
      rcases hgoes sh' pc' hs with rfl | ⟨st', rfl⟩
      · exact .complete
      · exact .stay
  | cool k desired candidates =>
      cases stepEnqueue_flow sh' pc' hs with
      | assertion =>
          change (Fixing.ofLoop k.fix).Moves [] .finished
          cases k.fix with
          | none => exact .rest
          | some k => exact .drop
      | enqueue => exact .stay
      | enqueueReturn => exact .stay

/-- A step of any other function goes on with its fix or gives it up. -/
theorem other_moves {l : Option FixCtx} (hpc : pc.fixing = .ofLoop l)
    (hevents : sh.fixEvents pc pc' = [])
    (h : pc'.fixing = .ofLoop l ∨ pc'.fixing = .bare ∨ pc'.fixing = .finished) :
    pc.fixing.Moves (sh.fixEvents pc pc') pc'.fixing := by
  rw [hpc, hevents]
  rcases h with h | h | h
  · rw [h]
    exact .stay
  · rw [h]
    cases l with
    | none => exact .stay
    | some k => exact .fail
  · rw [h]
    cases l with
    | none => exact .rest
    | some k => exact .drop

/-- What one step records. -/
theorem step_moves (h : sh.step cfg c a pc = some (sh', pc')) :
    pc.fixing.Moves (sh.fixEvents pc pc') pc'.fixing := by
  have hflow := step_flow h
  cases pc with
  | idle => cases hflow <;> first
      | exact .stay
      | exact .skip
      | exact .skipOver
  | enter op st => cases hflow <;> first
      | exact .stay
      | exact .skip
      | exact .skipOver
      | exact .start rfl
  | fix k st => exact stepFix_moves sh' pc' h
  | fault k st => exact stepFault_moves sh' pc' h
  | enqueue k i p st => exact stepEnqueue_moves sh' pc' h
  | acquire w st =>
      refine other_moves rfl rfl ?_
      cases hflow with
      | acquired => cases w <;> exact .inl rfl
      | acquireFailed => cases w <;> exact .inl rfl
      | assertion => exact .inr (.inr rfl)
      | _ => exact .inl rfl
  | cool k st =>
      refine other_moves rfl rfl ?_
      cases hflow with
      | coolReturn => cases k <;> exact .inl rfl
      | assertion => exact .inr (.inr rfl)
      | _ => exact .inl rfl
  | evict k t st =>
      refine other_moves rfl rfl ?_
      cases hflow with
      | @evictReturn _ _ _ r =>
          rcases r with e | outcome
          · cases k <;> exact .inl rfl
          · cases outcome <;> cases k <;> exact .inl rfl
      | assertion => exact .inr (.inr rfl)
      | evict => exact .inl rfl
  | fill f st =>
      refine other_moves rfl rfl ?_
      cases hflow with
      | fillCheckin =>
          rcases f with ⟨ctx, i⟩
          cases ctx <;> exact .inl rfl
      | fillGuard => exact .inr (.inr rfl)
      | assertion => exact .inr (.inr rfl)
      | _ => exact .inl rfl
  | checkin k i st =>
      refine other_moves rfl rfl ?_
      cases hflow with
      | checkinReturn => cases k <;> exact .inl rfl
      | assertion => exact .inr (.inr rfl)
      | checkin => exact .inl rfl
  | stuck k => cases h
  | returned r => cases h
  | panicked site => cases h
  | mint i => cases hflow <;> first
      | exact .stay
      | exact .rest
  | bind i p => cases hflow <;> first
      | exact .stay
      | exact .rest
  | leave r => cases r <;> cases hflow <;> first
      | exact .stay
      | exact .rest
  | guard g st => cases hflow <;> exact .stay
  | submit s p st => cases hflow <;> first
      | exact .stay
      | exact .rest
  | task t st => cases hflow <;> first
      | exact .stay
      | exact .rest
  | unreserve running p st => cases hflow <;> first
      | exact .stay
      | exact .rest
  | cooler st => cases hflow <;> first
      | exact .stay
      | exact .rest
  | shutdown st => cases hflow <;> first
      | exact .stay
      | exact .rest

/-! ### Runs -/

namespace FixHistory

variable {h : FixHistory} {es : List FixEvent} {b : Agent}

theorem of_record_self : FixHistory.of (h ++ es.map (Prod.mk a)) a = h.of a ++ es := by
  unfold FixHistory.of
  rw [List.filterMap_append, List.filterMap_map]
  congr 1
  induction es with
  | nil => rfl
  | cons e es ih => simp

theorem of_record_other (hb : b ≠ a) : FixHistory.of (h ++ es.map (Prod.mk a)) b = h.of b := by
  unfold FixHistory.of
  rw [List.filterMap_append, List.filterMap_map]
  have hnil : es.filterMap ((fun e : Agent × FixEvent => if e.1 = b then some e.2 else none) ∘
      Prod.mk a) = [] := by
    refine List.filterMap_eq_nil_iff.mpr (fun e _ => ?_)
    exact if_neg (fun hc => hb hc.symm)
  rw [hnil, List.append_nil]

/-- All events, whoever caused them. -/
def all (h : FixHistory) : List FixEvent := h.map Prod.snd

theorem all_record : all (h ++ es.map (Prod.mk a)) = h.all ++ es := by
  unfold all
  rw [List.map_append, List.map_map]
  congr 1
  exact List.map_id _

end FixHistory

theorem tells_reachable {x : PoolState × FixHistory} (hr : Reachable (fixHistory cfg) x) (a : Agent) :
    ((x.1.pcs a).fixing).Tells (x.2.of a) := by
  refine history_invariant (P := fun _ _ => True)
    (J := fun s h => ∀ a, ((s.pcs a).fixing).Tells (h.of a)) ?_ ?_ hr a
  · rintro s ⟨budgets, rfl⟩ b
    exact rfl
  · rintro s h l s' - hj - hs b
    rcases pool_next hs with ⟨hstep, hothers⟩
    by_cases hb : b = l.1
    · rw [hb]
      unfold recordFix
      rw [FixHistory.of_record_self]
      exact (step_moves hstep).tells (hj l.1)
    · unfold recordFix
      rw [FixHistory.of_record_other hb, hothers b hb]
      exact hj b

/-! ### Counters -/

theorem hits_append {es es' : List FixEvent} : hits (es ++ es') = hits es ++ hits es' :=
  List.filterMap_append

theorem hits_completed {gs : List Guard} : hits (gs.map .completed) = [] := by
  unfold hits
  rw [List.filterMap_map]
  exact List.filterMap_eq_nil_iff.mpr (fun _ _ => rfl)

theorem hits_count {k : FixCtx} {i : Nat} :
    hits (sh.fixEvents (.fix k (.count i)) pc') = [k.faultedTier] := by
  change k.faultedTier :: hits (pc'.leaving.toList.map .completed) = [k.faultedTier]
  rw [hits_completed]

/-- Only the counting step records a hit. -/
theorem hits_other (h : ∀ k i, pc ≠ .fix k (.count i)) : hits (sh.fixEvents pc pc') = [] := by
  unfold Shared.fixEvents
  split
  · split <;> rfl
  · exact absurd rfl (h _ _)
  · exact hits_completed
  · exact hits_completed
  · rfl

/-- The counters are those of the recorded hits. -/
structure Counters (sh : Shared) (es : List FixEvent) : Prop where
  dram : sh.dramHits = (hits es).count none
  demand : ∀ t, sh.demandHits t = (hits es).count (some t)

theorem Counters.step {es : List FixEvent} (hj : Counters sh es)
    (h : sh.step cfg c a pc = some (sh', pc')) : Counters sh' (es ++ sh.fixEvents pc pc') := by
  by_cases hc : ∃ k i, pc = .fix k (.count i)
  · rcases hc with ⟨k, i, rfl⟩
    rw [Shared.step] at h
    dsimp only [Shared.stepFix] at h
    refine ⟨?_, fun t => ?_⟩
    · rw [hits_append, hits_count, List.count_append]
      split at h <;> rename_i htier <;> cases h
      · rw [htier]
        exact hj.dram
      · rw [htier]
        exact congrArg (· + 1) hj.dram
    · rw [hits_append, hits_count, List.count_append]
      split at h <;> rename_i htier <;> cases h
      · rename_i u
        rw [htier]
        by_cases ht : t = u
        · subst ht
          change update sh.demandHits t (sh.demandHits t + 1) t = _
          rw [update_self, List.count_singleton_self, hj.demand]
        · change update sh.demandHits u (sh.demandHits u + 1) t = _
          rw [update_of_ne ht, hj.demand, List.count_singleton]
          simp only [beq_iff_eq, Option.some.injEq, Ne.symm ht, if_false, Nat.add_zero]
      · rw [htier]
        exact hj.demand t
  · have hno : ∀ k i, pc ≠ .fix k (.count i) := fun k i hpc => hc ⟨k, i, hpc⟩
    have hdram : sh'.dramHits = sh.dramHits := step_same (f := .dramHits) h hc
    have hdemand : sh'.demandHits = sh.demandHits := step_same (f := .demandHits) h hc
    refine ⟨?_, fun t => ?_⟩
    · rw [hits_append, hits_other hno, List.append_nil, hdram]
      exact hj.dram
    · rw [hits_append, hits_other hno, List.append_nil, hdemand]
      exact hj.demand t

theorem counters_reachable {x : PoolState × FixHistory} (hr : Reachable (fixHistory cfg) x) :
    Counters x.1.shared x.2.all := by
  refine history_invariant (P := fun _ _ => True) (J := fun s h => Counters s.shared h.all) ?_ ?_ hr
  · rintro s ⟨budgets, rfl⟩
    exact ⟨rfl, fun _ => rfl⟩
  · rintro s h l s' - hj - hs
    unfold recordFix
    rw [FixHistory.all_record]
    exact hj.step (pool_next hs).1

/-! ### Tier indices -/

def AcquireCtx.tier : AcquireCtx → Option Nat
  | .allocate => none
  | .demand _ loc _ => some loc.tierIndex

def CoolCtx.tier : CoolCtx → Option Nat
  | .acquire w _ _ => w.tier
  | .background => none

def EvictCtx.tier : EvictCtx → Option Nat
  | .acquire w _ _ _ => w.tier
  | _ => none

def FillCtx.tier : FillCtx → Option Nat
  | .allocate _ _ => none
  | .demand _ loc _ | .prefetch _ _ loc _ => some loc.tierIndex

/-- The tier a fault in progress reads from, or has read from. -/
def Pc.tier : Pc → Option Nat
  | .fault _ (.leadCount _ loc) => some loc.tierIndex
  | .fault _ (.finish _ (.ok t)) => t
  | .acquire w _ => w.tier
  | .cool k _ | .enqueue (.cool k _ _) _ _ _ => k.tier
  | .evict k _ _ => k.tier
  | .fill f _ => f.ctx.tier
  | _ => none

/-- Every tier index that a fault hands on is that of a configured tier. -/
structure Tiered (cfg : Config) (s : PoolState) : Prop where
  read : ∀ a t, (s.pcs a).tier = some t → t < cfg.tiers.length
  published : ∀ p done t, (s.shared.faults p).completed = some done →
    done.outcome = .success (some t) → t < cfg.tiers.length

theorem faultReturn_tier {k : FaultCtx} {r : FaultResult} : (k.return r).tier = none := by
  unfold FaultCtx.return
  split
  · rfl
  · rfl
  · rfl
  · split <;> rfl

theorem stepFault_tier {k : FaultCtx} {st : FaultStage}
    (hn : ∀ t, (Pc.fault k st).tier = some t → t < cfg.tiers.length) :
    Goes (fun pc => ∀ t, pc.tier = some t → t < cfg.tiers.length) (sh.stepFault cfg k st) := by
  have hreturn : ∀ r t, (k.return r).tier = some t → t < cfg.tiers.length := by
    intro r t ht
    rw [faultReturn_tier] at ht
    cases ht
  have hstay : ∀ {pc : Pc}, pc.tier = none → ∀ t, pc.tier = some t → t < cfg.tiers.length :=
    fun hnone t ht => by cases hnone.symm.trans ht
  cases st with
  | leadLoad g =>
      dsimp only [Shared.stepFault]
      (repeat' split) <;> exact .some (hstay rfl)
  | leadLookup g =>
      dsimp only [Shared.stepFault]
      split
      · exact .some nofun
      · split
        · exact .some nofun
        · rename_i loc _ hlt
          have hloc : ∀ t, some loc.tierIndex = some t → t < cfg.tiers.length := by
            intro t ht
            rw [← Option.some.inj ht]
            exact Nat.lt_of_not_le hlt
          cases k with
          | demand k' => exact .some hloc
          | prefetch t =>
              dsimp only
              split
              · exact .some hloc
              · exact .some nofun
  | leadCount g loc =>
      cases k with
      | demand k' => exact .some hn
      | prefetch t => exact .none
  | finish g r => exact .some (hreturn r)
  | _ =>
      dsimp only [Shared.stepFault]
      (repeat' split) <;> first
        | exact .some (hreturn _)
        | exact .some (hstay rfl)

theorem step_tier (hn : ∀ t, pc.tier = some t → t < cfg.tiers.length)
    (h : sh.step cfg c a pc = some (sh', pc')) : ∀ t, pc'.tier = some t → t < cfg.tiers.length := by
  have hflow := step_flow h
  cases pc with
  | fault k st => exact stepFault_tier hn sh' pc' h
  | acquire w st => cases hflow with
      | acquired => cases w with
          | allocate => exact nofun
          | demand k loc g => exact hn
      | acquireFailed => cases w <;> exact nofun
      | assertion => exact nofun
      | _ => exact hn
  | cool k st => cases hflow with
      | coolReturn => cases k with
          | acquire w n err => exact hn
          | background => exact nofun
      | assertion => exact nofun
      | _ => exact hn
  | enqueue k i p st =>
      cases k with
      | fix k => cases hflow <;> exact nofun
      | cool k n is => cases hflow with
          | assertion => exact nofun
          | _ => exact hn
  | evict k t st => cases hflow with
      | @evictReturn _ _ _ r =>
          cases k with
          | acquire w n err m =>
              rcases r with e | outcome
              · exact hn
              · cases outcome <;> exact hn
          | background m =>
              have hnone : (EvictCtx.return (.background m) t r).tier = none := by
                rcases r with e | outcome
                · rfl
                · cases outcome <;> rfl
              exact fun u hu => by cases hnone.symm.trans hu
          | flush f =>
              have hnone : (EvictCtx.return (.flush f) t r).tier = none := by
                rcases r with e | outcome
                · rfl
                · cases outcome <;> rfl
              exact fun u hu => by cases hnone.symm.trans hu
      | assertion => exact nofun
      | evict => exact hn
  | fill f st => cases hflow with
      | fillCheckin =>
          rcases f with ⟨ctx, i⟩
          cases ctx <;> exact nofun
      | fillGuard => exact nofun
      | assertion => exact nofun
      | _ => exact hn
  | checkin k i st => cases hflow with
      | checkinReturn => cases k <;> exact nofun
      | _ => exact nofun
  | stuck k => cases h
  | returned r => cases h
  | panicked site => cases h
  | fix k st => cases hflow <;> exact nofun
  | idle => cases hflow <;> exact nofun
  | enter op st => cases hflow <;> exact nofun
  | mint i => cases hflow <;> exact nofun
  | bind i p => cases hflow <;> exact nofun
  | leave r => cases hflow <;> exact nofun
  | guard g st => cases hflow <;> exact nofun
  | submit s p st => cases hflow <;> exact nofun
  | task t st => cases hflow <;> exact nofun
  | unreserve running p st => cases hflow <;> exact nofun
  | cooler st => cases hflow <;> exact nofun
  | shutdown st => cases hflow <;> exact nofun

theorem step_published {p : PageId} {done : CompletedFault} {t : Nat}
    (hn : ∀ t, pc.tier = some t → t < cfg.tiers.length)
    (hpub : ∀ p done t, (sh.faults p).completed = some done → done.outcome = .success (some t) →
      t < cfg.tiers.length)
    (h : sh.step cfg c a pc = some (sh', pc')) (hdone : (sh'.faults p).completed = some done)
    (ht : done.outcome = .success (some t)) : t < cfg.tiers.length := by
  by_cases hw : Field.Writer pc .faults
  · -- a fault section of page `q` leaves the records of the other pages alone
    have hother : ∀ q f, sh'.faults = update sh.faults q f →
        (∀ done, f.completed = some done → done.outcome = .success (some t) →
          t < cfg.tiers.length) → t < cfg.tiers.length := by
      intro q f hf hq
      rw [hf] at hdone
      by_cases hp : p = q
      · rw [hp, update_self] at hdone
        exact hq done hdone ht
      · rw [update_of_ne hp] at hdone
        exact hpub p done t hdone ht
    rcases hw with ⟨k, rfl⟩ | ⟨k, g, rfl⟩ | ⟨k, g, r, rfl⟩
    · have hkeep : ∀ d, (sh.faults k.pid).enter.2.completed = some d →
          d.outcome = .success (some t) → t < cfg.tiers.length := by
        intro d hd
        rw [FaultState.enter_completed] at hd
        exact hpub k.pid d t hd
      rw [Shared.step] at h
      dsimp only [Shared.stepFault] at h
      split at h <;> rename_i heq <;> cases h <;> refine hother k.pid _ rfl ?_ <;>
        rw [heq] at hkeep <;> exact hkeep
    · have hkeep : ∀ d, ((sh.faults k.pid).replay g).2.completed = some d →
          d.outcome = .success (some t) → t < cfg.tiers.length := by
        intro d hd hout
        rcases FaultState.replay_completed hd with ⟨before, hbefore, hsame⟩
        exact hpub k.pid before t hbefore (hsame.trans hout)
      rw [Shared.step] at h
      dsimp only [Shared.stepFault] at h
      split at h <;> rename_i heq <;> cases h
      · rw [heq] at hkeep
        exact hother k.pid _ rfl hkeep
      · rw [heq] at hkeep
        exact hother k.pid _ rfl hkeep
      · exact hpub p done t hdone ht
    · cases h
      refine hother k.pid _ rfl (fun d hd hout => ?_)
      rcases FaultState.complete_completed hd with hd | hd
      · match r with
        | .ok u =>
            have hu : u = some t := FaultOutcome.success.inj (hd.symm.trans hout)
            exact hn t hu
        | .error e => cases hd.symm.trans hout
      · exact hpub k.pid d t hd hout
  · have hsame : sh'.faults = sh.faults := step_same (f := .faults) h hw
    rw [hsame] at hdone
    exact hpub p done t hdone ht

theorem tiered_reachable {s : PoolState} (hr : Reachable (pool cfg) s) : Tiered cfg s := by
  refine reachable_invariant (I := Tiered cfg) ?_ (fun s l s' hi hs => ?_) hr
  · rintro s ⟨budgets, rfl⟩
    exact ⟨fun _ => nofun, fun _ => nofun⟩
  · rcases pool_next hs with ⟨hstep, hothers⟩
    refine ⟨fun b t ht => ?_, fun p done t hdone ht => ?_⟩
    · by_cases hb : b = l.1
      · rw [hb] at ht
        exact step_tier (hi.read l.1) hstep t ht
      · rw [hothers b hb] at ht
        exact hi.read b t ht
    · exact step_published (hi.read l.1) hi.published hstep hdone ht

/-! ### The partition -/

namespace FixHistory

variable {β : Type} {h : FixHistory}

/-- The agents of the events that `f` selects. -/
def who (f : FixEvent → Option β) (h : FixHistory) : List Agent :=
  h.filterMap (fun e => (f e.2).map (fun _ => e.1))

theorem length_who {f : FixEvent → Option β} : (h.who f).length = (h.all.filterMap f).length := by
  induction h with
  | nil => rfl
  | cons e h ih =>
      unfold who all at ih ⊢
      rw [List.map_cons, List.filterMap_cons, List.filterMap_cons]
      cases hf : f e.2 with
      | none => exact ih
      | some b => exact congrArg (· + 1) ih

theorem count_who {f : FixEvent → Option β} :
    (h.who f).count a = ((h.of a).filterMap f).length := by
  induction h with
  | nil => rfl
  | cons e h ih =>
      unfold who FixHistory.of at ih ⊢
      rw [List.filterMap_cons, List.filterMap_cons]
      by_cases ha : e.1 = a
      · rw [if_pos ha]
        cases hf : f e.2 with
        | none => simpa only [Option.map_none, List.filterMap_cons, hf] using ih
        | some b =>
            simp only [Option.map_some, ha, List.count_cons_self, List.filterMap_cons, hf,
              List.length_cons, ih]
      · rw [if_neg ha]
        cases hf : f e.2 with
        | none => simpa only [Option.map_none] using ih
        | some b => simpa only [Option.map_some, List.count_cons_of_ne ha] using ih

/-- Two kinds of events that every agent has equally often are equally
    frequent. -/
theorem length_eq_of_each {γ : Type} {f : FixEvent → Option β} {f' : FixEvent → Option γ}
    (heach : ∀ a, ((h.of a).filterMap f).length = ((h.of a).filterMap f').length) :
    (h.all.filterMap f).length = (h.all.filterMap f').length := by
  have hperm : (h.who f).Perm (h.who f') := by
    refine List.perm_iff_count.mpr (fun a => ?_)
    rw [count_who, count_who]
    exact heach a
  rw [← length_who, ← length_who]
  exact hperm.length_eq

theorem of_subset {e : FixEvent} (he : e ∈ h.of a) : e ∈ h.all := by
  rcases List.mem_filterMap.mp he with ⟨⟨b, e'⟩, hmem, hsel⟩
  split at hsel
  · rw [← Option.some.inj hsel]
    exact List.mem_map_of_mem hmem
  · cases hsel

theorem exists_of {e : FixEvent} (he : e ∈ h.all) : ∃ a, e ∈ h.of a := by
  rcases List.mem_map.mp he with ⟨⟨a, e'⟩, hmem, rfl⟩
  exact ⟨a, List.mem_filterMap.mpr ⟨(a, e'), hmem, if_pos rfl⟩⟩

end FixHistory

theorem mem_outcomes {es : List FixEvent} {t : Nat} : t ∈ outcomes es ↔ .outcome t ∈ es := by
  unfold outcomes
  rw [List.mem_filterMap]
  constructor
  · rintro ⟨e, he, ht⟩
    cases e <;> cases ht
    exact he
  · intro he
    exact ⟨_, he, rfl⟩

theorem mem_hits {es : List FixEvent} {t : Option Nat} : t ∈ hits es ↔ .counted t ∈ es := by
  unfold hits
  rw [List.mem_filterMap]
  constructor
  · rintro ⟨e, he, ht⟩
    cases e <;> cases ht
    exact he
  · intro he
    exact ⟨_, he, rfl⟩

theorem mem_guards {es : List FixEvent} {g : Guard} : g ∈ guards es ↔ .completed g ∈ es := by
  unfold guards
  rw [List.mem_filterMap]
  constructor
  · rintro ⟨e, he, hg⟩
    cases e <;> cases hg
    exact he
  · intro he
    exact ⟨_, he, rfl⟩

/-- A hit is counted on the tier of the first outcome. -/
theorem Fixing.Tells.hit {v : Fixing} {es : List FixEvent} (ht : v.Tells es) {t : Option Nat}
    (hmem : t ∈ hits es) : (outcomes es).head? = t := by
  cases v with
  | fresh =>
      have hes : es = [] := ht
      rw [hes] at hmem
      cases hmem
  | looping k =>
      rw [ht.2.1] at hmem
      cases hmem
  | counted k =>
      rw [ht.2.1] at hmem
      exact ht.1.trans (List.mem_singleton.mp hmem).symm
  | bare =>
      rw [ht.1] at hmem
      cases hmem
  | finished =>
      rcases ht with ⟨hhit, -⟩ | ⟨g, -, hhit, -⟩
      · rw [hhit] at hmem
        cases hmem
      · rw [hhit] at hmem
        exact (List.mem_singleton.mp hmem).symm

theorem outcome_bound {x : PoolState × FixHistory} (hr : Reachable (fixHistory cfg) x) :
    ∀ t ∈ outcomes x.2.all, t < cfg.tiers.length := by
  refine history_invariant (P := fun _ _ => True)
    (J := fun _ h => ∀ t ∈ outcomes h.all, t < cfg.tiers.length) ?_ ?_ hr
  · rintro s ⟨budgets, rfl⟩
    exact nofun
  · rintro s h l s' hr hj - hs t ht
    have htiered := tiered_reachable hr
    rw [mem_outcomes, recordFix, FixHistory.all_record, List.mem_append] at ht
    rcases ht with ht | ht
    · exact hj t (mem_outcomes.mpr ht)
    · unfold Shared.fixEvents at ht
      split at ht
      · rename_i k st hpc
        split at ht
        · rename_i u hresult
          cases List.mem_singleton.mp ht
          cases st with
          | wait g =>
              unfold Shared.faultResult at hresult
              dsimp only at hresult
              split at hresult
              · rename_i outcome last htaken
                rcases FaultState.replay_taken htaken with ⟨done, hdone, rfl⟩
                refine htiered.published k.pid done t hdone ?_
                cases hout : done.outcome with
                | success tier =>
                    rw [hout] at hresult
                    rw [Except.ok.inj (Option.some.inj hresult)]
                | failure e =>
                    rw [hout] at hresult
                    cases hresult
              · cases hresult
          | finish g r =>
              refine htiered.read l.1 t ?_
              rw [hpc, Option.some.inj hresult]
              rfl
          | _ => cases hresult
        · cases ht
      · rcases List.mem_cons.mp ht with ht | ht
        · cases ht
        · rcases List.mem_map.mp ht with ⟨g, -, hg⟩
          cases hg
      · rcases List.mem_map.mp ht with ⟨g, -, hg⟩
        cases hg
      · rcases List.mem_map.mp ht with ⟨g, -, hg⟩
        cases hg
      · cases ht

/-- A list of hits is split by what they were counted on. -/
theorem length_eq_sum {l : List (Option Nat)} {n : Nat} (hn : ∀ t, some t ∈ l → t < n) :
    l.length = l.count none + ∑ t ∈ Finset.range n, l.count (some t) := by
  induction l with
  | nil => simp only [List.length_nil, List.count_nil, Finset.sum_const_zero, Nat.add_zero]
  | cons x l ih =>
      have hrest := ih (fun t ht => hn t (List.mem_cons_of_mem _ ht))
      cases x with
      | none =>
          have hsame : ∀ t, (none :: l).count (some t) = l.count (some t) :=
            fun t => List.count_cons_of_ne (by simp only [ne_eq, reduceCtorEq, not_false_eq_true])
          simp only [hsame, List.length_cons, List.count_cons_self]
          omega
      | some u =>
          have hu : u ∈ Finset.range n := Finset.mem_range.mpr (hn u (List.mem_cons_self ..))
          have hsum : ∑ t ∈ Finset.range n, (some u :: l).count (some t) =
              ∑ t ∈ Finset.range n, l.count (some t) + 1 := by
            simp only [List.count_cons, Finset.sum_add_distrib, beq_iff_eq, Option.some.injEq,
              Finset.sum_ite_eq, hu, if_true]
          rw [hsum, List.length_cons, List.count_cons_of_ne (by
            simp only [ne_eq, reduceCtorEq, not_false_eq_true])]
          omega

/-- Outside the window between the increment of a counter and the return, an
    agent has as many hits as guards. -/
theorem Fixing.Tells.balanced {v : Fixing} {es : List FixEvent} (ht : v.Tells es)
    (hv : ∀ k, v ≠ .counted k) : (hits es).length = (guards es).length := by
  cases v with
  | fresh =>
      have hes : es = [] := ht
      rw [hes]
      rfl
  | looping k => rw [ht.2.1, ht.2.2]; rfl
  | counted k => exact absurd rfl (hv k)
  | bare => rw [ht.1, ht.2]; rfl
  | finished =>
      rcases ht with ⟨hhit, hguard⟩ | ⟨g, hguard, hhit, -⟩
      · rw [hhit, hguard]; rfl
      · rw [hhit, hguard]; rfl

/-- What an agent has recorded once its loop has ended with a guard. -/
theorem Fixing.Tells.completed {v : Fixing} {es : List FixEvent} (ht : v.Tells es) {g : Guard}
    (hg : g ∈ guards es) : guards es = [g] ∧ hits es = [(outcomes es).head?] ∧
      (g.source = .lowerTier ↔ (outcomes es).head?.isSome = true) := by
  cases v with
  | fresh =>
      have hes : es = [] := ht
      rw [hes] at hg
      cases hg
  | looping k =>
      rw [ht.2.2] at hg
      cases hg
  | counted k =>
      rw [ht.2.2] at hg
      cases hg
  | bare =>
      rw [ht.2] at hg
      cases hg
  | finished =>
      rcases ht with ⟨-, hguard⟩ | ⟨g', hguard, hhit, hsource⟩
      · rw [hguard] at hg
        cases hg
      · rw [hguard] at hg
        rw [List.mem_singleton.mp hg]
        exact ⟨hguard, hhit, hsource⟩

/-- The hit counters are the recorded hits, and where no fix is between its
    counter and its return they add up to the completed fixes. A completed fix
    was counted once, on the tier of its first outcome or else on DRAM, which
    is what its guard says; a failed one was not counted. -/
theorem hits_partition {x : PoolState × FixHistory} (hr : Reachable (fixHistory cfg) x) :
    (x.1.shared.dramHits = (hits x.2.all).count none ∧
      ∀ t, x.1.shared.demandHits t = (hits x.2.all).count (some t)) ∧
    ((∀ a k, (x.1.pcs a).fixing ≠ .counted k) →
      x.1.shared.dramHits + ∑ t ∈ Finset.range cfg.tiers.length, x.1.shared.demandHits t =
        (guards x.2.all).length) ∧
    (∀ a g, g ∈ guards (x.2.of a) → guards (x.2.of a) = [g] ∧
      hits (x.2.of a) = [(outcomes (x.2.of a)).head?] ∧
      (g.source = .lowerTier ↔ ∃ t, hits (x.2.of a) = [some t])) ∧
    ∀ a e, x.1.pcs a = .returned (.failed e) → hits (x.2.of a) = [] ∧ guards (x.2.of a) = [] := by
  have hcount := counters_reachable hr
  have htells := tells_reachable hr
  refine ⟨⟨hcount.dram, hcount.demand⟩, fun hquiet => ?_, fun a g hg => ?_, fun a e hpc => ?_⟩
  · have hbound : ∀ t, some t ∈ hits x.2.all → t < cfg.tiers.length := by
      intro t ht
      rcases FixHistory.exists_of (mem_hits.mp ht) with ⟨a, ha⟩
      have hhead := (htells a).hit (mem_hits.mpr ha)
      have hmem : t ∈ outcomes (x.2.of a) := List.mem_of_mem_head? hhead
      exact outcome_bound hr t (mem_outcomes.mpr (FixHistory.of_subset (mem_outcomes.mp hmem)))
    have hlength : (hits x.2.all).length = (guards x.2.all).length :=
      FixHistory.length_eq_of_each (fun a => (htells a).balanced (hquiet a))
    rw [← hlength, length_eq_sum hbound, hcount.dram]
    exact congrArg _ (Finset.sum_congr rfl (fun t _ => hcount.demand t))
  · rcases (htells a).completed hg with ⟨hguard, hhit, hsource⟩
    refine ⟨hguard, hhit, hsource.trans ?_⟩
    rw [hhit, Option.isSome_iff_exists]
    constructor
    · rintro ⟨t, ht⟩
      exact ⟨t, by rw [ht]⟩
    · rintro ⟨t, ht⟩
      exact ⟨t, List.head_eq_of_cons_eq ht⟩
  · have ht := htells a
    rw [hpc] at ht
    exact ht

/-- Agent `0` allocates a page and drops its guard, then agent `1` fixes it. -/
def fixing : List (Agent × Choice) :=
  allocation ++ [(0, { act := .drop }), (0, { act := .drop })] ++
    runOf 1 (.fix 0 (.shared .normal)) 16

theorem hits_partition_fixing : ∃ x, exec (fixHistory sampleConfig)
    (PoolState.initial sampleConfig (fun _ => none), []) fixing = some x ∧
    (guards x.2.all).length = 1 ∧
    x.1.shared.dramHits + ∑ t ∈ Finset.range 1, x.1.shared.demandHits t = 1 := by
  have hrun : (exec (fixHistory sampleConfig)
      (PoolState.initial sampleConfig (fun _ => none), []) fixing).map (fun x =>
        ((guards x.2.all).length, [0, 1].map (fun a => match (x.1.pcs a).fixing with
          | .counted _ => true
          | _ => false))) = some (1, [false, false]) := by decide +kernel
  rcases Option.map_eq_some_iff.mp hrun with ⟨x, hx, hsees⟩
  rw [Prod.mk.injEq] at hsees
  have hr : Reachable (fixHistory sampleConfig) x :=
    reachable_exec _ _ x (ReachableVia.init ⟨⟨_, rfl⟩, rfl⟩) hx
  refine ⟨x, hx, hsees.1, ?_⟩
  refine ((hits_partition hr).2.1 (fun a k hc => ?_)).trans hsees.1
  by_cases ha : a = 0 ∨ a = 1
  · have hsees := hsees.2
    rcases ha with rfl | rfl
    · simp only [List.map_cons, hc, List.cons.injEq, Bool.true_eq_false, false_and] at hsees
    · simp only [List.map_cons, hc, List.cons.injEq, Bool.true_eq_false, false_and,
        and_false] at hsees
  · have hidle : x.1.pcs a = .idle := by
      refine exec_others fixing _ _ (fun l hl => ?_) (exec_fst _ _ _ hx)
      have hagents : ∀ l ∈ fixing, l.1 = 0 ∨ l.1 = 1 := by decide +kernel
      rintro rfl
      exact ha (hagents l hl)
    rw [hidle] at hc
    cases hc

end TierBuf
