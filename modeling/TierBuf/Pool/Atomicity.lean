import TierBuf.Pool.Ticket
import TierBuf.Pool.SecondChance
import TierBuf.Pool.Fallback

/-!
# Atomicity of Eviction

What one call of `evict_ticket` does, whatever runs beside it.

The call takes many steps and other agents move between any two of them, so
that no two of its states can be compared. What can be compared is the state
before and after each step of its own. A journal keeps these pairs for the
current call of every agent.

A call that does not free the frame has only claimed and released its frame,
latched and unlatched it, paid for writes that failed, and turned the page back
to `Hot`. Its write can no longer fail to be published once it has succeeded:
the path that takes a publication back is never taken, since nobody else can
touch the page in between. So a call that has written frees the frame, and it
has unswizzled exactly the page of its ticket.

## Main definitions

* `EvictStep`, `evictJournal`: The steps of the current call of every agent.
* `Inert`: A step that leaves the page, its frame and the tiers alone.
* `Unswizzles`: A step that evicts exactly the page of the ticket.
* `EvictStage.committed`: The page is in a tier.

## Theorems

* `inert_step`: A step before the page is in a tier is inert.
* `Journal.edge`: What every step keeps of the journal.
* `evict_atomic`: A call evicts exactly its page, or does nothing.
-/

namespace TierBuf

open Function Ledger Transition

variable {cfg : Config} {sh sh' : Shared} {c : Choice} {a : Agent} {pc pc' : Pc}
  {k : EvictCtx} {t : CoolingTicket} {st st' : EvictStage}

/-! ### Inert steps -/

/-- Nothing changes but the pin word and the latch of the frame, the budgets,
    and a page of the frame that turns from `Cooling` to `Hot`. -/
structure Inert (t : CoolingTicket) (sh sh' : Shared) : Prop where
  same : ∀ f : Field, f ≠ .swips → f ≠ .budgets → f.Same sh sh'
  swips : ∀ w, sh'.swips w = sh.swips w ∨ ((sh.swips w).state = .cooling t.resident ∧
    sh'.swips w = { sh.swips w with state := .hot t.resident })
  pins : ∀ i, i ≠ t.frameIndex → sh'.pinControl i = sh.pinControl i
  latches : ∀ i, i ≠ t.frameIndex → sh'.latch i = sh.latch i

namespace Inert

theorem refl : Inert t sh sh where
  same := fun f _ _ => by cases f <;> rfl
  swips := fun _ => .inl rfl
  pins := fun _ _ => rfl
  latches := fun _ _ => rfl

theorem setPin {w : Nat} : Inert t sh (sh.setPin t.frameIndex w) where
  same := fun f _ _ => by cases f <;> rfl
  swips := fun _ => .inl rfl
  pins := fun _ hi => update_of_ne hi ..
  latches := fun _ _ => rfl

theorem setLatch {l : HybridLatch} : Inert t sh (sh.setLatch t.frameIndex l) where
  same := fun f _ _ => by cases f <;> rfl
  swips := fun _ => .inl rfl
  pins := fun _ _ => rfl
  latches := fun _ hi => update_of_ne hi ..

theorem resurrect {w : SwipId} {cell : SwipInner}
    (h : (sh.swips w).tryResurrect t.resident = some cell) : Inert t sh (sh.setSwip w cell) where
  same := fun f hf _ => by
    cases f with
    | swips => exact absurd rfl hf
    | _ => rfl
  swips := fun w' => by
    rcases SwipInner.compareExchange_eq_some.mp h with ⟨hstate, rfl⟩
    by_cases hw : w' = w
    · subst hw
      exact .inr ⟨hstate, update_self ..⟩
    · exact .inl (update_of_ne hw ..)
  pins := fun _ _ => rfl
  latches := fun _ _ => rfl

theorem pay {index : Nat} {o : Option Nat} :
    Inert t sh { sh with budgets := update sh.budgets index o } where
  same := fun f _ hf => by
    cases f with
    | budgets => exact absurd rfl hf
    | _ => rfl
  swips := fun _ => .inl rfl
  pins := fun _ _ => rfl
  latches := fun _ _ => rfl

end Inert

/-- The page is in a tier, or on its way out of its frame. -/
def EvictStage.committed : EvictStage → Bool
  | .publish _ | .clean _ | .unswizzle _ | .restore _ | .refree _ | .redirty _ | .reresurrect _
  | .consume _ | .unlatch _ | .clear _ _ | .release _ | .member _ | .push _ | .freeOld _ => true
  | _ => false

theorem stepExact_shared {back : ExactStage → Pc} {fails : Pc} {found : SwipId → Pc}
    {e : ExactStage} (hs : sh.stepExact cfg t back fails found e = some (sh', pc')) : sh' = sh := by
  cases e <;> dsimp only [Shared.stepExact] at hs <;> split at hs <;> cases hs <;> rfl

/-- A step that does not lead to the publication is inert. -/
theorem inert_step (hs : sh.stepEvict cfg c k t st = some (sh', pc'))
    (hst : st.committed = false) (hpc' : ∀ v, pc' ≠ .evict k t (.publish v)) : Inert t sh sh' := by
  cases st with
  | exact pass e =>
      cases pass <;> dsimp only [Shared.stepEvict] at hs <;>
        exact stepExact_shared hs ▸ .refl
  | claim s =>
      dsimp only [Shared.stepEvict] at hs
      split at hs <;> cases hs
      · exact .setPin
      · exact .refl
  | lock s =>
      dsimp only [Shared.stepEvict, Shared.lockLatch] at hs
      split at hs <;> cases hs
      exact .setLatch
  | samePid s | sameGeneration s | sameOwner s | dirty s old =>
      dsimp only [Shared.stepEvict] at hs
      split at hs <;> cases hs <;> exact .refl
  | sameResurrect s =>
      dsimp only [Shared.stepEvict] at hs
      split at hs <;> cases hs
      · rename_i hcell
        exact .resurrect hcell
      · exact .refl
  | backing s | target v =>
      cases hs
      exact .refl
  | tier v index err =>
      dsimp only [Shared.stepEvict] at hs
      (repeat' split at hs) <;> cases hs <;> first
        | exact .refl
        | exact .pay
  | write v index err =>
      dsimp only [Shared.stepEvict] at hs
      split at hs
      · split at hs <;> cases hs
        exact absurd rfl (hpc' _)
      · cases hs
        exact .refl
  | unwritten v e =>
      dsimp only [Shared.stepEvict] at hs
      split at hs <;> cases hs
      · rename_i hcell
        exact .resurrect hcell
      · exact .refl
  | exitUnlatch r =>
      dsimp only [Shared.stepEvict, Shared.unlatch] at hs
      split at hs <;> cases hs
      · exact .setLatch
      · exact .refl
  | exitRelease r =>
      dsimp only [Shared.stepEvict, Shared.releaseReservation] at hs
      split at hs <;> cases hs
      · exact .setPin
      · exact .refl
  | _ => cases hst

/-! ### The unswizzle -/

/-- The page of the ticket is in the frame of the ticket and marked `Cooling`,
    the frame is claimed and latched, the page has its latest bytes in a tier,
    and after the step it is evicted. -/
structure Unswizzles (cfg : Config) (t : CoolingTicket) (v : Eviction) (sh sh' : Shared) :
    Prop where
  pid : sh.pid t.frameIndex = t.pid
  generation : sh.generation t.frameIndex = t.generation
  resident : cfg.residentAddr t.frameIndex = t.resident
  owner : sh.ownerSwip t.frameIndex = some v.swip
  listed : sh.pages t.pid = some v.swip
  cooling : (sh.swips v.swip).state = .cooling t.resident
  reserved : sh.pinControl t.frameIndex = EVICTING
  latched : (sh.latch t.frameIndex).state = .exclusive
  backed : ∃ loc, sh.directory t.pid = some loc ∧ sh.slots loc = some (sh.latest t.pid)
  evicted : (sh'.swips v.swip).state = .evicted t.pid

variable {s s' : PoolState} {l : Agent × Choice}

theorem unswizzles_next (hr : Reachable (pool cfg) s) (hs : (pool cfg).next s l = some s')
    {v : Eviction} (hpc : s.pcs l.1 = .evict k t (.unswizzle v)) :
    Unswizzles cfg t v s.shared s'.shared := by
  have h := inv_reachable hr
  have hsound := h.sound l.1
  rw [role_at hpc] at hsound
  have hvictim := hsound.tenure
  have htickets : cfg.Tickets t := hsound.checked
  rcases h.victim_occupies hvictim.1 hvictim.2.1 with ⟨-, hocc, hpid⟩
  have hstamp := stamped_reachable hr l.1
  rw [hpc] at hstamp
  have hcool : (s.shared.swips v.swip).state = .cooling t.resident := htickets.2 ▸ hvictim.1
  have hcell : (s.shared.swips v.swip).tryUnswizzle t.resident t.pid =
      some { s.shared.swips v.swip with state := .evicted t.pid } :=
    SwipInner.compareExchange_eq_some.mpr ⟨hcool, rfl⟩
  have hstep := (pool_next hs).1
  rw [hpc, Shared.step] at hstep
  dsimp only [Shared.stepEvict] at hstep
  rw [hcell] at hstep
  have hshared : s.shared.setSwip v.swip { s.shared.swips v.swip with state := .evicted t.pid } =
      s'.shared := congrArg Prod.fst (Option.some.inj hstep)
  exact {
    pid := hocc.pid.trans hpid
    generation := hstamp _ _ rfl
    resident := htickets.2
    owner := hocc.owner
    listed := hvictim.2.1
    cooling := hcool
    reserved := h.pins.word_of_reserved (b := l.1) (by rw [role_at hpc]; rfl)
    latched := (h.latches t.frameIndex).exclusive_of_holds (a := l.1) (by rw [role_at hpc]; rfl)
    backed := hvictim.2.2
    evicted := by
      rw [← hshared]
      exact congrArg SwipInner.state (update_self v.swip _ s.shared.swips) }

/-! ### The journal -/

/-- One step of an evictor. -/
structure EvictStep where
  stage : EvictStage
  before : Shared
  after : Shared

/-- A journal starts with the first step of a call. -/
def recordEvict (h : Agent → List EvictStep) (s : PoolState) (l : Agent × Choice) (s' : PoolState) :
    Agent → List EvictStep :=
  update h l.1 (match s.pcs l.1 with
    | .evict _ _ (.exact .first .pid) => [⟨.exact .first .pid, s.shared, s'.shared⟩]
    | .evict _ _ st => h l.1 ++ [⟨st, s.shared, s'.shared⟩]
    | _ => h l.1)

/-- A buffer manager that keeps the steps of the current call of every
    evictor. -/
def evictJournal (cfg : Config) : System (PoolState × (Agent → List EvictStep)) (Agent × Choice) :=
  (pool cfg).withHistory (fun _ => []) recordEvict

/-- The call has claimed its frame. -/
def EvictStage.claimed : EvictStage → Bool
  | .exact .first _ | .claim _ => false
  | _ => true

/-- The call has unswizzled its page. -/
def EvictStage.unswizzled : EvictStage → Bool
  | .consume _ | .unlatch _ | .clear _ _ | .release _ | .member _ | .push _ | .freeOld _ => true
  | _ => false

/-- What the call will return, where that is settled. -/
def EvictStage.returns : EvictStage → Option (Except TierBufError EvictionOutcome)
  | .exitUnlatch r | .exitRelease r => some r
  | _ => none

/-- What the journal of a call says at one of its stages. -/
structure Journal (cfg : Config) (t : CoolingTicket) (st : EvictStage) (log : List EvictStep) :
    Prop where
  inert : st.committed = false → ∀ e ∈ log, Inert t e.before e.after
  unclaimed : st.claimed = false → ∀ e ∈ log, e.after.pinControl = e.before.pinControl
  claimed : st.claimed = true → ∃ e ∈ log, e.before.pinControl t.frameIndex = 0
  unswizzled : st.unswizzled = true → ∃ e ∈ log, ∃ v, e.stage = .unswizzle v ∧
    Unswizzles cfg t v e.before e.after
  returns : st.returns ≠ some (.ok .freed)

namespace EvictEdge

theorem committed (he : EvictEdge st st') (h : st'.committed = false) :
    st.committed = false ∨ ∃ v, st = .reresurrect v := by
  cases he with
  | restored => exact .inr ⟨_, rfl⟩
  | clearNext | clear => cases h
  | _ => first
    | exact .inl rfl
    | cases h

theorem claimed (he : EvictEdge st st') (h : st'.claimed = false) :
    ∃ e, st = .exact .first e := by
  cases he with
  | claim => exact ⟨_, rfl⟩
  | @generation pass | @owner pass | @state pass _ | @pages pass _ =>
      cases pass with
      | first => exact ⟨_, rfl⟩
      | second s => cases h
  | _ => cases h

theorem claims (he : EvictEdge st st') (h : st'.claimed = true) :
    st.claimed = true ∨ ∃ w, st = .claim w := by
  cases he with
  | lock => exact .inr ⟨_, rfl⟩
  | @generation pass | @owner pass | @state pass _ | @pages pass _ =>
      cases pass with
      | first => cases h
      | second s => exact .inl rfl
  | claim => cases h
  | _ => exact .inl rfl

theorem unswizzled (he : EvictEdge st st') (h : st'.unswizzled = true) :
    st.unswizzled = true ∨ ∃ v, st = .unswizzle v := by
  cases he with
  | consume => exact .inr ⟨_, rfl⟩
  | _ => first
    | exact .inl rfl
    | cases h

theorem returns (he : EvictEdge st st') (h : st.returns ≠ some (.ok .freed)) :
    st'.returns ≠ some (.ok .freed) := by
  cases he with
  | exitRelease => exact h
  | _ => exact fun hc => by cases hc

end EvictEdge

theorem Journal.start : Journal cfg t (.exact .first .pid) [] where
  inert := fun _ _ he => by cases he
  unclaimed := fun _ _ he => by cases he
  claimed := fun h => by cases h
  unswizzled := fun h => by cases h
  returns := fun h => by cases h

/-- What every step keeps of the journal. -/
theorem Journal.edge {log : List EvictStep} (h : Journal cfg t st log) (he : EvictEdge st st')
    (hs : sh.stepEvict cfg c k t st = some (sh', .evict k t st'))
    (hun : ∀ v, st = .unswizzle v → Unswizzles cfg t v sh sh') (hlive : ∀ v, st ≠ .reresurrect v) :
    Journal cfg t st' (log ++ [⟨st, sh, sh'⟩]) := by
  constructor
  case inert =>
    intro hst'
    rcases he.committed hst' with hst | ⟨v, hv⟩
    · rw [List.forall_mem_append, List.forall_mem_singleton]
      refine ⟨h.inert hst, inert_step hs hst (fun v hpc' => ?_)⟩
      cases hpc'
      cases hst'
    · exact absurd hv (hlive v)
  case unclaimed =>
    intro hst'
    rcases he.claimed hst' with ⟨e, rfl⟩
    rw [List.forall_mem_append, List.forall_mem_singleton]
    refine ⟨h.unclaimed rfl, ?_⟩
    dsimp only [Shared.stepEvict] at hs
    rw [stepExact_shared hs]
  case claimed =>
    intro hst'
    rcases he.claims hst' with hst | ⟨w, rfl⟩
    · rcases h.claimed hst with ⟨e, hmem, hpin⟩
      exact ⟨e, List.mem_append_left _ hmem, hpin⟩
    · refine ⟨_, List.mem_append_right _ (List.mem_singleton_self _), ?_⟩
      dsimp only [Shared.stepEvict] at hs
      split at hs
      · rename_i hclaim
        unfold tryClaimEviction at hclaim
        split at hclaim
        · assumption
        · cases hclaim
      · have hpc' : k.return t (.ok .busy) = .evict k t st' := congrArg Prod.snd (Option.some.inj hs)
        cases EvictCtx.return_outside.1.symm.trans (congrArg Pc.evicts hpc')
  case unswizzled =>
    intro hst'
    rcases he.unswizzled hst' with hst | ⟨v, rfl⟩
    · rcases h.unswizzled hst with ⟨e, hmem, hv⟩
      exact ⟨e, List.mem_append_left _ hmem, hv⟩
    · exact ⟨_, List.mem_append_right _ (List.mem_singleton_self _), v, rfl, hun v rfl⟩
  case returns => exact he.returns h.returns

/-! ### Runs -/

variable {h : Agent → List EvictStep} {x x' : PoolState × (Agent → List EvictStep)}

theorem recordEvict_other {b : Agent} (hb : b ≠ l.1) : recordEvict h s l s' b = h b :=
  update_of_ne hb ..

/-- The journal of the agent that moves is that of its stage, and the step. -/
theorem recordEvict_own (s' : PoolState) (hpc : s.pcs l.1 = .evict k t st)
    (hj : st = .exact .first .pid ∨ Journal cfg t st (h l.1)) :
    ∃ log, Journal cfg t st log ∧
      recordEvict h s l s' l.1 = log ++ [⟨st, s.shared, s'.shared⟩] := by
  unfold recordEvict
  rw [update_self]
  split
  · rename_i k' t' hfirst
    cases hpc.symm.trans hfirst
    exact ⟨[], .start, rfl⟩
  · rename_i k' t' st' hfirst hlater
    cases hpc.symm.trans hlater
    exact ⟨h l.1, hj.resolve_left hfirst, rfl⟩
  · rename_i hno
    exact absurd hpc (hno k t st)

/-- Whoever is in a call has its journal. -/
theorem journal_reachable (hr : Reachable (evictJournal cfg) x) (a : Agent) (k : EvictCtx)
    (t : CoolingTicket) (st : EvictStage) (hpc : x.1.pcs a = .evict k t st) :
    st = .exact .first .pid ∨ Journal cfg t st (x.2 a) := by
  suffices hall : ∀ a k t st, x.1.pcs a = .evict k t st →
      st = .exact .first .pid ∨ Journal cfg t st (x.2 a) from hall a k t st hpc
  refine history_invariant (M := pool cfg) (P := fun _ _ => True)
    (J := fun s h => ∀ a k t st, s.pcs a = .evict k t st →
      st = .exact .first .pid ∨ Journal cfg t st (h a)) ?_ (fun s h l s' hr hj _ hs => ?_) hr
  · rintro s ⟨budgets, rfl⟩ a k t st hpc
    cases hpc
  · intro b k t st' hpc'
    rcases pool_next hs with ⟨hstep, hother⟩
    by_cases hb : b = l.1
    · subst hb
      rw [hpc'] at hstep
      rcases into_evict hstep with ⟨st, hpc, he⟩ | hfirst
      · rw [hpc] at hstep
        rcases recordEvict_own s' hpc (hj _ k t st hpc) with ⟨log, hlog, hrec⟩
        rw [hrec]
        refine .inr (hlog.edge he hstep (fun v hv => ?_) (fun v hv => ?_))
        · subst hv
          exact unswizzles_next hr hs hpc
        · subst hv
          exact absurd_role hr hpc rfl
      · exact .inl hfirst
    · rw [hother b hb] at hpc'
      rw [recordEvict_other hb]
      exact hj b k t st' hpc'

/-- A call that frees the frame has unswizzled exactly the page of its ticket.
    A call that returns anything else has only taken inert steps, and the pin
    word of the frame is what it was before it was claimed. -/
theorem evict_atomic (hr : Reachable (evictJournal cfg) x)
    (hs : (evictJournal cfg).next x l = some x') (hpc : x.1.pcs l.1 = .evict k t st)
    (hout : (x'.1.pcs l.1).evicts = false) :
    ∃ r, EvictExit st r ∧ x'.1.pcs l.1 = k.return t r ∧
      (r = .ok .freed → ∃ e ∈ x'.2 l.1, ∃ v, e.stage = .unswizzle v ∧
        Unswizzles cfg t v e.before e.after) ∧
      (r ≠ .ok .freed → (∀ e ∈ x'.2 l.1, Inert t e.before e.after) ∧
        ((∀ e ∈ x'.2 l.1, e.after.pinControl = e.before.pinControl) ∨
          (∃ e ∈ x'.2 l.1, e.before.pinControl t.frameIndex = 0) ∧
            x'.1.shared.pinControl t.frameIndex = 0)) := by
  rcases withHistory_next hs with ⟨hnext, hrec⟩
  have hpool := reachable_fst hr
  have hstep := (pool_next hnext).1
  rw [hpc] at hstep
  rcases recordEvict_own x'.1 hpc (journal_reachable hr _ k t st hpc) with ⟨log, hlog, hown⟩
  rw [hrec, hown, List.forall_mem_append, List.forall_mem_append, List.forall_mem_singleton,
    List.forall_mem_singleton]
  have hinert : st.committed = false → Inert t x.1.shared x'.1.shared := by
    refine fun hst => inert_step hstep hst (fun v hc => ?_)
    rw [hc] at hout
    cases hout
  have hgoes := step_evict hstep
  generalize hpc' : x'.1.pcs l.1 = pc' at hgoes hout hstep
  cases hgoes with
  | edge => cases hout
  | panicked => exact absurd hpc' (never_panicked (hpool.next hnext) l.1 _)
  | @exit r hexit =>
      refine ⟨r, hexit, rfl, fun hr => ?_, fun hr => ?_⟩
      · subst hr
        have hst : st.unswizzled = true := by
          cases hexit with
          | freed => rfl
          | other => exact absurd rfl hlog.returns
        rcases hlog.unswizzled hst with ⟨e, hmem, hv⟩
        exact ⟨e, List.mem_append_left _ hmem, hv⟩
      · dsimp only [Shared.step] at hstep
        cases hexit with
        | stale =>
            refine ⟨⟨hlog.inert rfl, hinert rfl⟩, .inl ⟨hlog.unclaimed rfl, ?_⟩⟩
            dsimp only [Shared.stepEvict] at hstep
            rw [stepExact_shared hstep]
        | busy =>
            refine ⟨⟨hlog.inert rfl, hinert rfl⟩, .inl ⟨hlog.unclaimed rfl, ?_⟩⟩
            dsimp only [Shared.stepEvict] at hstep
            split at hstep
            · cases hout.symm.trans (congrArg (fun y => y.2.evicts) (Option.some.inj hstep).symm)
            · exact congrArg (fun y => y.1.pinControl) (Option.some.inj hstep).symm
        | freed => exact absurd rfl hr
        | other =>
            rcases hlog.claimed rfl with ⟨e, hmem, hpin⟩
            refine ⟨⟨hlog.inert rfl, hinert rfl⟩, .inr ⟨⟨e, List.mem_append_left _ hmem, hpin⟩, ?_⟩⟩
            have hword := (inv_reachable hpool).pins.word_of_reserved (i := t.frameIndex) (b := l.1)
              (by rw [role_at hpc]; rfl)
            dsimp only [Shared.stepEvict, Shared.releaseReservation] at hstep
            rw [hword] at hstep
            have hshared : x.1.shared.setPin t.frameIndex 0 = x'.1.shared :=
              congrArg Prod.fst (Option.some.inj hstep)
            rw [← hshared]
            exact update_self ..

/-- An evictor whose call is about to free the frame. -/
def Pc.freeing : Pc → Bool
  | .evict _ _ (.freeOld _) => true
  | _ => false

/-- A shutdown has evicted its only page up to the last step. -/
def flushingPage : List (Agent × Choice) := targeting ++ List.replicate 17 (1, { ok := true })

theorem evict_atomic_shutdown : ∃ x x' k t v, Reachable (evictJournal sampleConfig) x ∧
    (evictJournal sampleConfig).next x (1, { ok := true }) = some x' ∧
    x.1.pcs 1 = .evict k t (.freeOld v) ∧ ∃ e ∈ x'.2 1, ∃ v, e.stage = .unswizzle v ∧
      Unswizzles sampleConfig t v e.before e.after := by
  have hrun : (exec (evictJournal sampleConfig)
      (PoolState.initial sampleConfig twoPages, fun _ => []) flushingPage).bind (fun x =>
        ((evictJournal sampleConfig).next x (1, { ok := true })).map (fun x' =>
          ((x.1.pcs 1).freeing, (x'.1.pcs 1).evicts))) = some (true, false) := by decide +kernel
  rcases Option.bind_eq_some_iff.mp hrun with ⟨x, hx, hlast⟩
  rcases Option.map_eq_some_iff.mp hlast with ⟨x', hs, hsees⟩
  rcases Prod.mk.inj hsees with ⟨hfreeing, hout⟩
  have hr : Reachable (evictJournal sampleConfig) x :=
    reachable_exec flushingPage (PoolState.initial sampleConfig twoPages, fun _ => []) x
      (ReachableVia.init ⟨⟨twoPages, rfl⟩, rfl⟩) hx
  unfold Pc.freeing at hfreeing
  split at hfreeing
  · rename_i k t v hpc
    rcases evict_atomic hr hs hpc hout with ⟨r, hexit, -, hfreed, -⟩
    cases hexit
    exact ⟨x, x', k, t, v, hr, hs, hpc, hfreed rfl⟩
  · cases hfreeing

end TierBuf
