import TierBuf.Pool.Acquire

/-!
# An Acquisition Alone

`acquireFrame` is what one agent of the pool does when no other moves.

The functions of `Cooler`, `Reclaim` and `Acquire` do in one go what an agent
does one access at a time. Each is matched here with its stages, from the
inside out: the two checks of the ticket, the loop over the tiers, the end of
an eviction, the sweep over the queue and the rounds. A function that returns
no value waits or panics, and nothing is claimed of it.

The one thing the functions do not check is the contract of the tiers, that a
write answers with an offset that was not allocated. At most one write of an
acquisition succeeds, since its frame is freed and taken; so it is enough that
the answers are free in the first state.

## Main definitions

* `Answers.Fresh`: The tiers answer with offsets that are not allocated.
* `Leaves`: What an eviction leaves of the queue and of the slots.
* `AcquireCtx.return`: Where an acquisition goes on.

## Theorems

* `exact_alone`, `writeBack_alone`, `retire_alone`: The parts of an eviction.
* `evict_alone`: An eviction is a run of its agent.
* `sweep_alone`, `rounds_alone`: The two loops.
* `acquireFrame_alone`, `acquire_alone`: And so is an acquisition.
-/

namespace TierBuf

open Function Ledger Transition

variable {cfg : Config} {sh sh' : Shared} {a : Agent} {t : CoolingTicket} {i : Nat}

/-! ### Words -/

theorem unlatch_of_unlocked {pc : Pc} (h : sh.unlocked i = some sh') :
    sh.unlatch i true pc = some (sh', pc) := by
  rcases Option.map_eq_some_iff.mp h with ⟨l, hl, rfl⟩
  unfold Shared.unlatch
  rw [show (sh.latch i).release true = some l from hl]

theorem lockLatch_of_locked {pc : Pc} (h : sh.locked i = some sh') :
    sh.lockLatch i true pc = some (sh', pc) := by
  rcases Option.map_eq_some_iff.mp h with ⟨l, hl, rfl⟩
  unfold Shared.lockLatch
  rw [show (sh.latch i).lock true = some l from hl]

theorem releaseReservation_of_released {pc : Pc} (h : sh.released i = some sh') :
    sh.releaseReservation i pc = some (sh', pc) := by
  rcases Option.map_eq_some_iff.mp h with ⟨w, hw, rfl⟩
  unfold Shared.releaseReservation
  rw [hw]

/-! ### One eviction -/

/-- `exact_cooling_owner` alone. -/
theorem exact_alone (back : ExactStage → Pc) (fails : Pc) (found : SwipId → Pc)
    (hback : ∀ c e, sh.step cfg c a (back e) = sh.stepExact cfg t back fails found e) :
    Alone cfg a (sh, back .pid) (sh, match sh.exactCoolingOwner cfg t with
      | some s => found s
      | none => fails) := by
  have hstep : ∀ e, sh.step cfg {} a (back e) = sh.stepExact cfg t back fails found e := hback {}
  unfold Shared.exactCoolingOwner
  by_cases hframe : cfg.frameCount ≤ t.frameIndex ∨ cfg.residentAddr t.frameIndex ≠ t.resident
  · rw [if_pos hframe]
    refine Alone.head {} ((hstep .pid).trans ?_) Alone.refl
    exact if_pos (hframe.imp_right Or.inl)
  · rw [if_neg hframe]
    rw [not_or] at hframe
    by_cases hpid : sh.pid t.frameIndex = t.pid
    · refine Alone.head (y := (sh, back .generation)) {} ((hstep .pid).trans (if_neg ?_)) ?_
      · exact fun h => h.elim hframe.1 (fun h => h.elim hframe.2 (fun h => h hpid))
      · by_cases hgeneration : sh.generation t.frameIndex = t.generation
        · rw [if_neg (fun h => h.elim (fun h => h hpid) (fun h => h hgeneration))]
          refine Alone.head (y := (sh, back .owner)) {}
            ((hstep .generation).trans (if_neg (not_not.mpr hgeneration))) ?_
          cases howner : sh.ownerSwip t.frameIndex with
          | none =>
              refine Alone.head {} ((hstep .owner).trans ?_) Alone.refl
              simp only [Shared.stepExact, howner]
          | some s =>
              refine Alone.head (y := (sh, back (.state s))) {} ((hstep .owner).trans ?_) ?_
              · simp only [Shared.stepExact, howner]
              · dsimp only
                by_cases hstate : (sh.swips s).pid = t.pid ∧
                    (sh.swips s).state = .cooling t.resident
                · rw [if_neg (fun h => h.elim (fun h => h hstate.1) (fun h => h hstate.2))]
                  refine Alone.head (y := (sh, back (.pages s))) {}
                    ((hstep (.state s)).trans (if_pos hstate)) ?_
                  by_cases hpages : sh.pages t.pid = some s
                  · rw [if_pos hpages]
                    exact Alone.head {} ((hstep (.pages s)).trans (if_pos hpages)) Alone.refl
                  · rw [if_neg hpages]
                    exact Alone.head {} ((hstep (.pages s)).trans (if_neg hpages)) Alone.refl
                · rw [if_pos (not_and_or.mp hstate)]
                  exact Alone.head {} ((hstep (.state s)).trans (if_neg hstate)) Alone.refl
        · rw [if_pos (Or.inr hgeneration)]
          exact Alone.head {} ((hstep .generation).trans (if_pos hgeneration)) Alone.refl
    · rw [if_pos (Or.inl hpid)]
      refine Alone.head {} ((hstep .pid).trans ?_) Alone.refl
      exact if_pos (Or.inr (Or.inr hpid))

/-- The tiers answer with offsets that are not allocated. -/
def Answers.Fresh (answers : Answers) (slots : Location → Option Page) : Prop :=
  ∀ index offset, answers.write index = .ok offset → slots ⟨index, offset⟩ = none

/-- A tier that refuses. -/
def refusal (e : TierBufError) : Choice := { ok := false, error := e }

/-- Where the loop over the tiers goes on. -/
def EvictCtx.written (k : EvictCtx) (t : CoolingTicket) (v : Eviction) :
    Except TierBufError Location → Pc
  | .ok loc => .evict k t (.publish { v with new := some loc })
  | .error e => .evict k t (.unwritten v e)

/-- A tier that has the budget is paid. -/
theorem charge_alone {k : EvictCtx} {v : Eviction} {index : Nat} {err : Option TierBufError}
    (hlt : index < cfg.tiers.length)
    (hrich : ¬ (sh.budgets index).any (fun available => available < PAGE_SIZE) = true) :
    sh.step cfg {} a (.evict k t (.tier v index err)) =
      some (sh.charge index, .evict k t (.write v index err)) := by
  have hname : cfg.tiers[index]? = some cfg.tiers[index] := List.getElem?_eq_getElem hlt
  unfold Shared.charge
  cases hb : sh.budgets index with
  | none =>
      have hsame : update sh.budgets index none = sh.budgets := by
        rw [← hb]
        exact update_eq_self index sh.budgets
      simp only [Shared.step, Shared.stepEvict, hname, hb, Option.map_none, hsame]
  | some available =>
      rw [hb, Option.any_some, decide_eq_true_eq, Nat.not_lt] at hrich
      simp only [Shared.step, Shared.stepEvict, hname, hb, if_pos hrich, Option.map_some]

/-- The loop over the tiers alone. -/
theorem writeBack_alone {answers : Answers} {k : EvictCtx} {v : Eviction} (n index : Nat)
    (err : Option TierBufError) (hn : cfg.tiers.length - index = n)
    (hfresh : answers.Fresh sh.slots) :
    Alone cfg a (sh, .evict k t (.tier v index err))
      ((sh.writeBack cfg answers t.pid (sh.data t.frameIndex) n index err).1,
        k.written t v (sh.writeBack cfg answers t.pid (sh.data t.frameIndex) n index err).2) := by
  induction n generalizing sh index err with
  | zero =>
      have hnone : cfg.tiers[index]? = none :=
        List.getElem?_eq_none (Nat.le_of_sub_eq_zero hn)
      refine Alone.head {} ?_ Alone.refl
      simp only [Shared.step, Shared.stepEvict, hnone]
      rfl
  | succ n ih =>
      have hlt : index < cfg.tiers.length := by omega
      have hname : cfg.tiers[index]? = some cfg.tiers[index] := List.getElem?_eq_getElem hlt
      unfold Shared.writeBack
      by_cases hpoor : (sh.budgets index).any (fun available => available < PAGE_SIZE) = true
      · rw [if_pos hpoor, hname, Option.getD_some]
        refine Alone.head (y := (sh, .evict k t (.tier v (index + 1)
          (some (.tierExhausted cfg.tiers[index]))))) {} ?_ (ih _ _ (by omega) hfresh)
        cases hb : sh.budgets index with
        | none =>
            rw [hb] at hpoor
            cases hpoor
        | some available =>
            rw [hb, Option.any_some, decide_eq_true_eq] at hpoor
            simp only [Shared.step, Shared.stepEvict, hname, hb, if_neg (Nat.not_le.mpr hpoor)]
      · rw [if_neg hpoor]
        refine Alone.head {} (charge_alone hlt hpoor) ?_
        cases hanswer : answers.write index with
        | ok offset =>
            refine Alone.head { offset := offset } ?_ Alone.refl
            have hfree : (sh.charge index).slots ⟨index, offset⟩ = none :=
              hfresh index offset hanswer
            simp only [Shared.step, Shared.stepEvict, Shared.acceptWrite, hfree, if_true]
            rfl
        | error e =>
            refine Alone.head (y := (sh.charge index, .evict k t (.tier v (index + 1) (some e))))
              (refusal e) rfl ?_
            exact @ih (sh.charge index) (index + 1) (some e) (by omega) hfresh

/-- `clear_after_eviction` alone. -/
theorem clear_alone {k : EvictCtx} {v : Eviction}
    (h : sh.clearAfterEviction t.frameIndex = some sh') :
    Alone cfg a (sh, .evict k t (.clear v .check)) (sh', .evict k t (.release v)) := by
  unfold Shared.clearAfterEviction at h
  split at h
  · rename_i hevicting
    rcases Option.bind_eq_some_iff.mp h with ⟨sh1, hlocked, hunlocked⟩
    refine Alone.head (y := (sh, .evict k t (.clear v .lock))) {} (if_pos hevicting) ?_
    refine Alone.head {} (lockLatch_of_locked hlocked) ?_
    refine Alone.head {} rfl (Alone.head {} rfl (Alone.head {} rfl ?_))
    exact Alone.head {} (unlatch_of_unlocked hunlocked) Alone.refl
  · cases h

/-- `push_free` alone. -/
theorem requeue_alone {k : EvictCtx} {v : Eviction} (h : sh.requeued cfg t.frameIndex = some sh') :
    Alone cfg a (sh, .evict k t (.member v)) (sh', .evict k t (.freeOld v)) := by
  unfold Shared.requeued at h
  split at h
  · cases h
  · rename_i hroom
    cases h
    rw [not_or, not_or] at hroom
    refine Alone.head {} (if_neg (not_or.mpr ⟨hroom.1, hroom.2.1⟩)) ?_
    exact Alone.head {} (if_pos (Nat.lt_of_not_le hroom.2.2)) Alone.refl

/-- The location is published, if there is a new one. -/
theorem publish_alone {k : EvictCtx} {v : Eviction} (hbacked : v.new = none → v.old ≠ none) :
    ∃ previous, sh.step cfg {} a (.evict k t (.publish v)) =
      some (sh.publishLocation t.pid v.new, .evict k t (.clean { v with previous := previous })) := by
  rcases v with ⟨s, old, wasDirty, new, previous⟩
  cases new with
  | some loc => exact ⟨sh.directory t.pid, rfl⟩
  | none =>
      refine ⟨previous, ?_⟩
      cases old with
      | some loc => rfl
      | none => exact absurd rfl (hbacked rfl)

/-- The slot that the page has left is freed. -/
theorem freeOld_alone {k : EvictCtx} {v : Eviction} :
    sh.step cfg {} a (.evict k t (.freeOld v)) =
      some (sh.freeReplaced cfg v.old v.new, k.return t (.ok .freed)) := by
  unfold Shared.freeReplaced
  cases hold : v.old with
  | none => simp only [Shared.step, Shared.stepEvict, hold]
  | some loc =>
      simp only [Shared.step, Shared.stepEvict, hold, Eviction.replacement]
      split <;> rfl

/-- The page is unswizzled, and its marker removed. -/
theorem unswizzle_alone {k : EvictCtx} {v : Eviction}
    (hcooling : (sh.swips v.swip).state = .cooling t.resident) :
    Alone cfg a (sh, .evict k t (.unswizzle v))
      ({ sh.setSwip v.swip { sh.swips v.swip with state := .evicted t.pid } with
        prefetched := update sh.prefetched t.pid none }, .evict k t (.unlatch v)) := by
  have hcell : (sh.swips v.swip).tryUnswizzle t.resident t.pid =
      some { sh.swips v.swip with state := .evicted t.pid } :=
    SwipInner.compareExchange_eq_some.mpr ⟨hcooling, rfl⟩
  refine Alone.head (y := (sh.setSwip v.swip { sh.swips v.swip with state := .evicted t.pid },
    .evict k t (.consume v))) {} ?_ (Alone.head {} rfl Alone.refl)
  simp only [Shared.step, Shared.stepEvict, hcell]

/-- The frame is cleared and queued. -/
theorem freeing_alone {k : EvictCtx} {v : Eviction} {sh1 sh2 sh3 sh4 : Shared}
    (hunlocked : sh.unlocked t.frameIndex = some sh1)
    (hcleared : sh1.clearAfterEviction t.frameIndex = some sh2)
    (hreleased : sh2.released t.frameIndex = some sh3)
    (hrequeued : sh3.requeued cfg t.frameIndex = some sh4) :
    Alone cfg a (sh, .evict k t (.unlatch v))
      (sh4.freeReplaced cfg v.old v.new, k.return t (.ok .freed)) := by
  refine Alone.head {} (unlatch_of_unlocked hunlocked) ?_
  refine (clear_alone hcleared).trans ?_
  refine Alone.head {} (releaseReservation_of_released hreleased) ?_
  exact (requeue_alone hrequeued).trans (Alone.head {} freeOld_alone Alone.refl)

/-- The end of an eviction alone, where the page is still `Cooling`. -/
theorem retire_alone {k : EvictCtx} {v : Eviction} {r : Except TierBufError EvictionOutcome}
    (hbacked : v.new = none → v.old ≠ none)
    (hcooling : (sh.swips v.swip).state = .cooling t.resident)
    (h : sh.retire cfg t v.swip v.old v.new v.wasDirty = some (sh', r)) :
    Alone cfg a (sh, .evict k t (.publish v)) (sh', k.return t r) := by
  rcases publish_alone hbacked with ⟨previous, hpublish⟩
  refine Alone.head {} hpublish ?_
  rcases publishLocation_eq sh t.pid v.new with ⟨directory, hpublished⟩
  have hcell : (sh.swips v.swip).tryUnswizzle t.resident t.pid =
      some { sh.swips v.swip with state := .evicted t.pid } :=
    SwipInner.compareExchange_eq_some.mpr ⟨hcooling, rfl⟩
  unfold Shared.retire at h
  dsimp only at h
  rw [hpublished] at h ⊢
  dsimp only at h
  rw [hcell] at h
  dsimp only at h
  rcases Option.map_eq_some_iff.mp h with ⟨sh4, hfreeing, hfinal⟩
  rcases Option.bind_eq_some_iff.mp hfreeing with ⟨sh1, hunlocked, hfreeing⟩
  rcases Option.bind_eq_some_iff.mp hfreeing with ⟨sh2, hcleared, hfreeing⟩
  rcases Option.bind_eq_some_iff.mp hfreeing with ⟨sh3, hreleased, hrequeued⟩
  cases hfinal
  have hclean : (({ sh with
      directory := directory
      dirty := update sh.dirty t.frameIndex false } : Shared).swips v.swip).state =
      .cooling t.resident := hcooling
  refine Alone.head {} rfl ?_
  refine (@unswizzle_alone _ _ a t k { v with previous := previous } hclean).trans ?_
  exact freeing_alone hunlocked hcleared hreleased hrequeued

/-- The drop of the latch guard and of the reservation alone. -/
theorem backOut_alone {k : EvictCtx} {r : Except TierBufError EvictionOutcome}
    (h : sh.backOut t.frameIndex = some sh') :
    Alone cfg a (sh, .evict k t (.exitUnlatch r)) (sh', k.return t r) := by
  rcases Option.bind_eq_some_iff.mp h with ⟨sh1, hunlocked, hreleased⟩
  refine Alone.head {} (unlatch_of_unlocked hunlocked) ?_
  exact Alone.head {} (releaseReservation_of_released hreleased) Alone.refl

/-- `try_resurrect`, whatever comes of it. -/
theorem resurrect_step {s : SwipId} {x : ResidentAddr} {pc : Pc} :
    (match (sh.swips s).tryResurrect x with
      | some cell => some (sh.setSwip s cell, pc)
      | none => some (sh, pc)) = some (sh.resurrect s x, pc) := by
  unfold Shared.resurrect
  cases (sh.swips s).tryResurrect x <;> rfl

/-- The ticket is not exact any more. -/
theorem stale_alone {k : EvictCtx} {s : SwipId}
    (h : (if sh.pid t.frameIndex = t.pid ∧ sh.generation t.frameIndex = t.generation ∧
      sh.ownerSwip t.frameIndex = some s then sh.resurrect s t.resident else sh).backOut
        t.frameIndex = some sh') :
    Alone cfg a (sh, .evict k t (.samePid s)) (sh', k.return t (.ok .stale)) := by
  by_cases hpid : sh.pid t.frameIndex = t.pid
  · refine Alone.head (y := (sh, .evict k t (.sameGeneration s))) {} (if_pos hpid) ?_
    by_cases hgeneration : sh.generation t.frameIndex = t.generation
    · refine Alone.head (y := (sh, .evict k t (.sameOwner s))) {} (if_pos hgeneration) ?_
      by_cases howner : sh.ownerSwip t.frameIndex = some s
      · rw [if_pos ⟨hpid, hgeneration, howner⟩] at h
        refine Alone.head (y := (sh, .evict k t (.sameResurrect s))) {} (if_pos howner) ?_
        exact Alone.head {} resurrect_step (backOut_alone h)
      · rw [if_neg (fun hc => howner hc.2.2)] at h
        exact Alone.head {} (if_neg howner) (backOut_alone h)
    · rw [if_neg (fun hc => hgeneration hc.2.1)] at h
      exact Alone.head {} (if_neg hgeneration) (backOut_alone h)
  · rw [if_neg (fun hc => hpid hc.1)] at h
    exact Alone.head {} (if_neg hpid) (backOut_alone h)

/-- `evict_ticket` under the reservation and the latch, alone. -/
theorem latched_alone {answers : Answers} {k : EvictCtx} {s : SwipId}
    {r : Except TierBufError EvictionOutcome} (hfresh : answers.Fresh sh.slots)
    (h : sh.evictLatched cfg answers t s = some (sh', r)) :
    Alone cfg a (sh, .evict k t (.exact (.second s) .pid)) (sh', k.return t r) := by
  refine (exact_alone (fun e => .evict k t (.exact (.second s) e)) (.evict k t (.samePid s))
    (fun s' => if s' = s then .evict k t (.backing s) else .evict k t (.samePid s))
    (fun _ _ => rfl)).trans ?_
  unfold Shared.evictLatched at h
  dsimp only at h
  by_cases hexact : sh.exactCoolingOwner cfg t = some s
  · rw [if_pos hexact] at h
    rw [hexact]
    dsimp only
    rw [if_pos rfl]
    have hcooling := (exactCoolingOwner_eq_some.mp hexact).state
    refine Alone.head {} rfl ?_
    by_cases hwrite : sh.dirty t.frameIndex = true ∨ sh.directory t.pid = none
    · rw [if_pos hwrite] at h
      refine Alone.head (y := (sh, .evict k t (.target
        ⟨s, sh.directory t.pid, sh.dirty t.frameIndex, none, none⟩))) {} (if_pos hwrite) ?_
      refine Alone.head (y := (sh, .evict k t (.tier
        ⟨s, sh.directory t.pid, sh.dirty t.frameIndex, none, none⟩
        (cfg.firstTier answers.demotionTarget) none))) { pick := answers.demotionTarget } rfl ?_
      refine (writeBack_alone _ _ none rfl hfresh).trans ?_
      rcases @writeBack_changes cfg answers t.pid (sh.data t.frameIndex) (cfg.tiers.length -
        cfg.firstTier answers.demotionTarget) (cfg.firstTier answers.demotionTarget) none sh with
        ⟨budgets, e, hr⟩ | ⟨budgets, slots, written, loc, hr⟩
      · rw [hr] at h ⊢
        rcases Option.map_eq_some_iff.mp h with ⟨sh1, hback, hresult⟩
        cases hresult
        exact Alone.head {} resurrect_step (backOut_alone hback)
      · rw [hr] at h ⊢
        exact retire_alone (fun hc => by cases hc) hcooling h
    · rw [if_neg hwrite] at h
      refine Alone.head (y := (sh, .evict k t (.publish
        ⟨s, sh.directory t.pid, sh.dirty t.frameIndex, none, none⟩))) {} (if_neg hwrite) ?_
      exact retire_alone (fun _ hnone => hwrite (.inr hnone)) hcooling h
  · rw [if_neg hexact] at h
    rcases Option.map_eq_some_iff.mp h with ⟨sh1, hback, hresult⟩
    cases hresult
    have hsame : (match sh.exactCoolingOwner cfg t with
        | some s' => if s' = s then Pc.evict k t (.backing s) else .evict k t (.samePid s)
        | none => .evict k t (.samePid s)) = .evict k t (.samePid s) := by
      cases howner : sh.exactCoolingOwner cfg t with
      | none => rfl
      | some s' => exact if_neg (fun hc : s' = s => hexact (howner.trans (congrArg some hc)))
    rw [hsame]
    exact stale_alone hback

/-- `evict_ticket` alone. -/
theorem evict_alone {answers : Answers} {k : EvictCtx} {r : Except TierBufError EvictionOutcome}
    (hfresh : answers.Fresh sh.slots) (h : sh.evictTicket cfg answers t = some (sh', r)) :
    Alone cfg a (sh, .evict k t (.exact .first .pid)) (sh', k.return t r) := by
  refine (exact_alone (fun e => .evict k t (.exact .first e)) (k.return t (.ok .stale))
    (fun s => .evict k t (.claim s)) (fun _ _ => rfl)).trans ?_
  unfold Shared.evictTicket at h
  split at h
  · rename_i hnone
    cases h
    rw [hnone]
    exact Alone.refl
  · rename_i s hsome
    rw [hsome]
    dsimp only
    split at h
    · rename_i hbusy
      cases h
      refine Alone.head {} ?_ Alone.refl
      simp only [Shared.step, Shared.stepEvict, hbusy]
    · rename_i w hclaim
      rcases Option.bind_eq_some_iff.mp h with ⟨sh1, hlocked, hlatched⟩
      refine Alone.head (y := (sh.setPin t.frameIndex w, .evict k t (.lock s))) {} ?_ ?_
      · simp only [Shared.step, Shared.stepEvict, hclaim]
      · refine Alone.head {} (lockLatch_of_locked hlocked) (latched_alone ?_ hlatched)
        rcases Option.map_eq_some_iff.mp hlocked with ⟨l, -, rfl⟩
        exact hfresh

/-! ### What an eviction leaves -/

theorem backOut_kept (h : sh.backOut i = some sh') :
    sh'.slots = sh.slots ∧ sh'.stopping = sh.stopping := by
  rcases Option.bind_eq_some_iff.mp h with ⟨sh1, hunlocked, hreleased⟩
  rcases Option.map_eq_some_iff.mp hunlocked with ⟨l, -, rfl⟩
  rcases Option.map_eq_some_iff.mp hreleased with ⟨w, -, rfl⟩
  exact ⟨rfl, rfl⟩

theorem resurrect_kept {s : SwipId} {x : ResidentAddr} :
    (sh.resurrect s x).slots = sh.slots ∧ (sh.resurrect s x).stopping = sh.stopping := by
  unfold Shared.resurrect
  split <;> exact ⟨rfl, rfl⟩

theorem clear_kept (h : sh.clearAfterEviction i = some sh') : sh'.stopping = sh.stopping := by
  unfold Shared.clearAfterEviction at h
  split at h
  · rcases Option.bind_eq_some_iff.mp h with ⟨sh1, hlocked, hunlocked⟩
    rcases Option.map_eq_some_iff.mp hlocked with ⟨l, -, rfl⟩
    rcases Option.map_eq_some_iff.mp hunlocked with ⟨l', -, rfl⟩
    rfl
  · cases h

theorem freeReplaced_kept {old new : Option Location} :
    (sh.freeReplaced cfg old new).free = sh.free ∧
      (sh.freeReplaced cfg old new).stopping = sh.stopping := by
  unfold Shared.freeReplaced
  split
  · split <;> exact ⟨rfl, rfl⟩
  · exact ⟨rfl, rfl⟩

/-- What an eviction leaves: a manager that runs as before, and a frame in the
    queue or the slots as they were. -/
def Leaves (sh sh' : Shared) (r : Except TierBufError EvictionOutcome) : Prop :=
  sh'.stopping = sh.stopping ∧
    ((r = .ok .freed ∧ sh'.free ≠ []) ∨ (r ≠ .ok .freed ∧ sh'.slots = sh.slots))

theorem retire_frees {s : SwipId} {old new : Option Location} {wasDirty : Bool}
    {r : Except TierBufError EvictionOutcome} (hcooling : (sh.swips s).state = .cooling t.resident)
    (h : sh.retire cfg t s old new wasDirty = some (sh', r)) :
    sh'.stopping = sh.stopping ∧ r = .ok .freed ∧ sh'.free ≠ [] := by
  have hcell : (sh.swips s).tryUnswizzle t.resident t.pid =
      some { sh.swips s with state := .evicted t.pid } :=
    SwipInner.compareExchange_eq_some.mpr ⟨hcooling, rfl⟩
  rcases publishLocation_eq sh t.pid new with ⟨directory, hpublished⟩
  unfold Shared.retire at h
  dsimp only at h
  rw [hpublished] at h
  dsimp only at h
  rw [hcell] at h
  dsimp only at h
  rcases Option.map_eq_some_iff.mp h with ⟨sh4, hfreeing, hfinal⟩
  rcases Option.bind_eq_some_iff.mp hfreeing with ⟨sh1, hunlocked, hfreeing⟩
  rcases Option.bind_eq_some_iff.mp hfreeing with ⟨sh2, hcleared, hfreeing⟩
  rcases Option.bind_eq_some_iff.mp hfreeing with ⟨sh3, hreleased, hrequeued⟩
  rcases Option.map_eq_some_iff.mp hunlocked with ⟨l, -, rfl⟩
  rcases Option.map_eq_some_iff.mp hreleased with ⟨word, -, rfl⟩
  have hstop := clear_kept hcleared
  cases hfinal
  unfold Shared.requeued at hrequeued
  split at hrequeued
  · cases hrequeued
  · cases hrequeued
    refine ⟨freeReplaced_kept.2.trans hstop, rfl, ?_⟩
    rw [freeReplaced_kept.1]
    exact List.append_ne_nil_of_right_ne_nil _ (List.cons_ne_nil _ _)

theorem latched_leaves {answers : Answers} {s : SwipId} {r : Except TierBufError EvictionOutcome}
    (h : sh.evictLatched cfg answers t s = some (sh', r)) : Leaves sh sh' r := by
  unfold Shared.evictLatched at h
  dsimp only at h
  split at h
  · rename_i hexact
    have hcooling := (exactCoolingOwner_eq_some.mp hexact).state
    split at h
    · rcases @writeBack_changes cfg answers t.pid (sh.data t.frameIndex) (cfg.tiers.length -
        cfg.firstTier answers.demotionTarget) (cfg.firstTier answers.demotionTarget) none sh with
        ⟨budgets, e, hr⟩ | ⟨budgets, slots, written, loc, hr⟩
      · rw [hr] at h
        rcases Option.map_eq_some_iff.mp h with ⟨sh1, hback, hresult⟩
        cases hresult
        refine ⟨(backOut_kept hback).2.trans resurrect_kept.2, .inr ⟨(by rintro ⟨⟩), ?_⟩⟩
        exact (backOut_kept hback).1.trans resurrect_kept.1
      · rw [hr] at h
        have hcooling' : (({ sh with
            budgets := budgets, slots := slots, writtenBack := written } : Shared).swips s).state =
            .cooling t.resident := hcooling
        rcases retire_frees hcooling' h with ⟨hstop, hfreed⟩
        exact ⟨hstop, .inl hfreed⟩
    · rcases retire_frees hcooling h with ⟨hstop, hfreed⟩
      exact ⟨hstop, .inl hfreed⟩
  · rcases Option.map_eq_some_iff.mp h with ⟨sh1, hback, hresult⟩
    cases hresult
    rcases backOut_kept hback with ⟨hslots, hstop⟩
    by_cases hsame : sh.pid t.frameIndex = t.pid ∧ sh.generation t.frameIndex = t.generation ∧
        sh.ownerSwip t.frameIndex = some s
    · rw [if_pos hsame] at hslots hstop
      exact ⟨hstop.trans resurrect_kept.2, .inr ⟨(by rintro ⟨⟩), hslots.trans resurrect_kept.1⟩⟩
    · rw [if_neg hsame] at hslots hstop
      exact ⟨hstop, .inr ⟨(by rintro ⟨⟩), hslots⟩⟩

/-- Only an eviction that frees a frame keeps a slot. -/
theorem evict_leaves {answers : Answers} {r : Except TierBufError EvictionOutcome}
    (h : sh.evictTicket cfg answers t = some (sh', r)) : Leaves sh sh' r := by
  unfold Shared.evictTicket at h
  split at h
  · cases h
    exact ⟨rfl, .inr ⟨(by rintro ⟨⟩), rfl⟩⟩
  · split at h
    · cases h
      exact ⟨rfl, .inr ⟨(by rintro ⟨⟩), rfl⟩⟩
    · rcases Option.bind_eq_some_iff.mp h with ⟨sh1, hlocked, hlatched⟩
      rcases Option.map_eq_some_iff.mp hlocked with ⟨l, -, rfl⟩
      exact (latched_leaves hlatched : _)

/-! ### The two loops -/

/-- Where `acquire_frame` returns to. -/
def AcquireCtx.return (w : AcquireCtx) : Except TierBufError Nat → Pc
  | .ok i => w.acquired i
  | .error e => w.failed e

/-- `pop_free` and `from_index` alone. -/
theorem take_alone {w : AcquireCtx} {st : AcquireStage} {found : Option Nat} (empty : Pc)
    (hpop : sh.step cfg {} a (.acquire w st) =
      sh.popFree (fun i => .acquire w (.member i)) empty)
    (h : sh.takeFrame = some (sh', found)) :
    Alone cfg a (sh, .acquire w st) (sh', found.elim empty w.acquired) := by
  unfold Shared.takeFrame at h
  unfold Shared.popFree at hpop
  cases hfree : sh.free with
  | nil =>
      rw [hfree] at h hpop
      cases h
      exact Alone.head {} hpop Alone.refl
  | cons i rest =>
      rw [hfree] at h hpop
      dsimp only at h hpop
      split at h
      · rename_i hmember
        rcases Option.map_eq_some_iff.mp h with ⟨p, hclaim, hresult⟩
        cases hresult
        refine Alone.head {} hpop ?_
        refine Alone.head (y := ({ sh with
          free := rest
          freeMembership := update sh.freeMembership i false }, .acquire w (.claim i))) {}
          (if_pos hmember) ?_
        refine Alone.head {} ?_ Alone.refl
        simp only [Shared.step, Shared.stepAcquire, hclaim]
        rfl
      · cases h

/-- Only an empty queue has no frame to take. -/
theorem take_none (h : sh.takeFrame = some (sh', none)) : sh' = sh ∧ sh.free = [] := by
  unfold Shared.takeFrame at h
  split at h
  · rename_i hfree
    cases h
    exact ⟨rfl, hfree⟩
  · split at h
    · rcases Option.map_eq_some_iff.mp h with ⟨p, -, hresult⟩
      cases hresult
    · cases h

theorem take_kept {found : Option Nat} (h : sh.takeFrame = some (sh', found)) :
    sh'.stopping = sh.stopping := by
  unfold Shared.takeFrame at h
  split at h
  · cases h
    rfl
  · split at h
    · rcases Option.map_eq_some_iff.mp h with ⟨p, -, hresult⟩
      cases hresult
      rfl
    · cases h

/-- The loop over the tickets alone. -/
theorem sweep_alone {answers : Nat → Answers} {w : AcquireCtx} {n : Nat} (m : Nat)
    {x y : Acquiring} (hframe : x.frame = none) (hfresh : ∀ k, (answers k).Fresh x.shared.slots)
    (h : sweepQueue cfg answers m x = some y) :
    Alone cfg a (x.shared, .acquire w (.sweep n x.lastError m))
      (y.shared, y.frame.elim (.acquire w (.round n y.lastError)) w.acquired) ∧
        y.shared.stopping = x.shared.stopping ∧
        (y.frame = none → y.shared.slots = x.shared.slots) := by
  induction m generalizing x with
  | zero =>
      cases h
      rw [hframe]
      exact ⟨Alone.head {} rfl Alone.refl, rfl, fun _ => rfl⟩
  | succ m ih =>
      unfold sweepQueue at h
      cases hqueue : x.shared.cooling with
      | nil =>
          rw [hqueue] at h
          cases h
          rw [hframe]
          refine ⟨Alone.head {} ?_ Alone.refl, rfl, fun _ => rfl⟩
          simp only [Shared.step, Shared.stepAcquire, hqueue]
          rfl
      | cons t rest =>
          rw [hqueue] at h
          dsimp only at h
          rcases Option.bind_eq_some_iff.mp h with ⟨⟨sh1, r⟩, hevict, h⟩
          dsimp only at h
          have hpop : x.shared.step cfg {} a (.acquire w (.sweep n x.lastError (m + 1))) =
              some ({ x.shared with cooling := rest },
                .evict (.acquire w n x.lastError m) t (.exact .first .pid)) := by
            simp only [Shared.step, Shared.stepAcquire, hqueue]
          have hone : Alone cfg a (x.shared, .acquire w (.sweep n x.lastError (m + 1)))
              (sh1, EvictCtx.return (.acquire w n x.lastError m) t r) :=
            Alone.head {} hpop (evict_alone (hfresh x.tried) hevict)
          rcases evict_leaves hevict with ⟨hstop, ⟨rfl, hfree⟩ | ⟨hkept, hslots⟩⟩
          · rcases Option.bind_eq_some_iff.mp h with ⟨⟨sh2, found⟩, htake, h⟩
            cases found with
            | none => exact absurd (take_none htake).2 hfree
            | some i =>
                cases h
                refine ⟨hone.trans (take_alone (.acquire w (.sweep n x.lastError m)) rfl htake),
                  (take_kept htake).trans hstop, fun hnone => by cases hnone⟩
          · have hfresh1 : ∀ k, (answers k).Fresh sh1.slots := by
              intro k
              rw [hslots]
              exact hfresh k
            cases r with
            | error e =>
                rcases @ih { x with
                  shared := sh1, tried := x.tried + 1, lastError := some e, failed := t :: x.failed }
                  hframe hfresh1 h with ⟨hrest, hstop1, hsame⟩
                exact ⟨hone.trans hrest, hstop1.trans hstop, fun hnone => (hsame hnone).trans hslots⟩
            | ok outcome =>
                cases outcome with
                | freed => exact absurd rfl hkept
                | stale =>
                    rcases @ih { x with shared := sh1, tried := x.tried + 1 } hframe hfresh1 h with
                      ⟨hrest, hstop1, hsame⟩
                    exact ⟨hone.trans hrest, hstop1.trans hstop,
                      fun hnone => (hsame hnone).trans hslots⟩
                | busy =>
                    have hpushed : Spared sh1 (sh1.pushUnique t) := Spared.pushUnique
                    have hfresh2 : ∀ k, (answers k).Fresh (sh1.pushUnique t).slots := by
                      intro k
                      rw [hpushed.slots]
                      exact hfresh1 k
                    rcases @ih { x with
                      shared := sh1.pushUnique t, tried := x.tried + 1 } hframe hfresh2 h with
                      ⟨hrest, hstop1, hsame⟩
                    refine ⟨hone.trans (Alone.head {} rfl hrest), ?_, fun hnone => ?_⟩
                    · exact hstop1.trans (hpushed.stopping.trans hstop)
                    · exact (hsame hnone).trans (hpushed.slots.trans hslots)

/-- The rounds alone. -/
theorem rounds_alone {heat : Nat → Nat} {answers : Nat → Answers} {w : AcquireCtx} (n : Nat)
    {x : Acquiring} {rounds : List Round} {r : Except TierBufError Nat} (hframe : x.frame = none)
    (hfresh : ∀ k, (answers k).Fresh x.shared.slots)
    (h : acquireRounds cfg heat answers n x = some (sh', rounds, r)) :
    Alone cfg a (x.shared, .acquire w (.round n x.lastError)) (sh', w.return r) ∧
      sh'.stopping = x.shared.stopping := by
  induction n generalizing x rounds with
  | zero =>
      cases h
      exact ⟨Alone.head {} rfl Alone.refl, rfl⟩
  | succ n ih =>
      unfold acquireRounds at h
      split at h
      · rename_i hstop
        cases h
        exact ⟨Alone.head {} (if_pos hstop) Alone.refl, rfl⟩
      · rename_i hrunning
        have hhead : x.shared.step cfg {} a (.acquire w (.round (n + 1) x.lastError)) =
            some (x.shared, .acquire w (.popRound n x.lastError)) := if_neg hrunning
        rcases Option.bind_eq_some_iff.mp h with ⟨⟨sh1, found⟩, htake, h⟩
        cases found with
        | some i =>
            cases h
            exact ⟨Alone.head {} hhead (take_alone _ rfl htake), take_kept htake⟩
        | none =>
            rcases take_none htake with ⟨rfl, -⟩
            dsimp only at h
            rcases Option.bind_eq_some_iff.mp h with ⟨y, hsweep, h⟩
            have hcooled : Spared x.shared (x.shared.enqueueColdCandidates cfg heat true) :=
              Spared.enqueue
            have hfresh1 : ∀ k, (answers k).Fresh
                (x.shared.enqueueColdCandidates cfg heat true).slots := by
              intro k
              rw [hcooled.slots]
              exact hfresh k
            have hswept := @sweep_alone cfg a answers w n _ { x with
              shared := x.shared.enqueueColdCandidates cfg heat true, failed := [] } y hframe
              hfresh1 hsweep
            rcases hswept with ⟨hswept, hstop1, hsame⟩
            have hround : Alone cfg a (x.shared, .acquire w (.round (n + 1) x.lastError))
                (y.shared, y.frame.elim (.acquire w (.round n y.lastError)) w.acquired) := by
              refine Alone.head {} hhead ((take_alone _ rfl htake).trans ?_)
              refine (cool_alone heat (.acquire w n x.lastError)).trans ?_
              exact Alone.head {} rfl hswept
            have hstop2 : y.shared.stopping = x.shared.stopping := hstop1.trans hcooled.stopping
            cases hy : y.frame with
            | some i =>
                rw [hy] at h hround
                cases h
                exact ⟨hround, hstop2⟩
            | none =>
                rw [hy] at h hround
                rcases Option.map_eq_some_iff.mp h with ⟨⟨sh2, rounds2, r2⟩, hrest, hresult⟩
                cases hresult
                have hfresh2 : ∀ k, (answers k).Fresh y.shared.slots := by
                  intro k
                  rw [hsame hy, hcooled.slots]
                  exact hfresh k
                rcases ih hy hfresh2 hrest with ⟨hlast, hstop3⟩
                exact ⟨hround.trans hlast, hstop3.trans hstop2⟩

/-- `acquire_frame` alone. -/
theorem acquireFrame_alone {ctx : AcquireCtx} {heat : Nat → Nat} {answers : Nat → Answers}
    {rounds : List Round} {r : Except TierBufError Nat} (hfresh : ∀ k, (answers k).Fresh sh.slots)
    (h : acquireFrame cfg heat answers sh = some (sh', rounds, r)) :
    Alone cfg a (sh, .acquire ctx .running) (sh', ctx.return r) ∧ sh'.stopping = sh.stopping := by
  unfold acquireFrame at h
  split at h
  · rename_i hstop
    cases h
    exact ⟨Alone.head {} (if_pos hstop) Alone.refl, rfl⟩
  · rename_i hrunning
    have hhead : sh.step cfg {} a (.acquire ctx .running) = some (sh, .acquire ctx .pop) :=
      if_neg hrunning
    rcases Option.bind_eq_some_iff.mp h with ⟨⟨sh1, found⟩, htake, hrounds⟩
    cases found with
    | some i =>
        cases hrounds
        exact ⟨Alone.head {} hhead (take_alone _ rfl htake), take_kept htake⟩
    | none =>
        rcases take_none htake with ⟨rfl, -⟩
        dsimp only at hrounds
        rcases @rounds_alone cfg sh' a heat answers ctx cfg.rounds
          ⟨{ sh1 with exhaustedFrameRequest := true }, 0, none, none, []⟩ rounds r rfl hfresh hrounds with
          ⟨hrest, hstop⟩
        refine ⟨Alone.head {} hhead ((take_alone _ rfl htake).trans ?_), hstop⟩
        exact Alone.head {} rfl hrest

/-- `acquire_frame` is a run of its agent, which takes the candidates by their
    stored heat and gets the answers of the tiers. -/
theorem acquire_alone {s : PoolState} {ctx : AcquireCtx} {heat : Nat → Nat}
    {answers : Nat → Answers} {rounds : List Round} {r : Except TierBufError Nat}
    (hpc : s.pcs a = .acquire ctx .running)
    (hfresh : ∀ k, (answers k).Fresh s.shared.slots)
    (h : acquireFrame cfg heat answers s.shared = some (sh', rounds, r)) :
    ∃ ls : List (Agent × Choice), (∀ l ∈ ls, l.1 = a) ∧
      exec (pool cfg) s ls = some ⟨sh', update s.pcs a (ctx.return r)⟩ := by
  refine alone_exec (y := (sh', ctx.return r)) ?_
  rw [hpc]
  exact (acquireFrame_alone hfresh h).1

/-- The call that gets no frame, step by step. -/
theorem acquire_alone_cleaning : ∃ s e, Cleaned s ∧ ∃ ls s', (∀ l ∈ ls, l.1 = 4) ∧
    exec (pool coolingConfig) s ls = some s' ∧ s'.pcs 4 = .leave (.failed e) := by
  rcases cleaning_runs with ⟨s, hclean, hfails⟩
  rcases Option.map_eq_some_iff.mp hfails with ⟨⟨sh', rounds, r⟩, hr, herror⟩
  cases r with
  | ok j => cases herror
  | error e =>
      have hfresh : ∀ k, (fullTier k).Fresh s.shared.slots := by
        rintro k index offset ⟨⟩
      rcases acquire_alone hclean.acquires.caller hfresh hr with ⟨ls, hls, hrun⟩
      exact ⟨s, e, hclean, ls, _, hls, hrun,
        update_self 4 (AcquireCtx.allocate.return (.error e)) s.pcs⟩

end TierBuf
