import TierBuf.Pool.Markers

/-!
# Second Chances

What becomes of a ticket when its page is fixed again.

A fix that finds its page `Cooling` makes it `Hot`, and whatever ticket the
page has is then void: evicting the page needs a new one. A ticket does not
say which cooling of its page it is from, so a void ticket looks valid again
when the page is marked `Cooling` for a second time, and while it is queued
the new ticket is dropped as its duplicate. If no page is marked `Cooling`
while a void ticket of it is left, void tickets stay void.

## Main definitions

* `TicketHistory`, `ticketHistory`: Which tickets have been voided.
* `Voided`: A void ticket is queued, or in the hands of an evictor.
* `Cleared`: The steps that mark a page only when none of its tickets is void.

## Theorems

* `ticket_step`: How an agent comes by a ticket.
* `second_chance`: Such runs evict by valid tickets only.
* `second_chance_fails`: Other runs do not.
-/

namespace TierBuf

open Function Ledger Transition

variable {cfg : Config} {s s' : PoolState} {l : Agent × Choice} {t : CoolingTicket}

/-! ### Tickets in hand -/

/-- The ticket an agent has popped, or has made for the flush. -/
def Pc.ticket : Pc → Option CoolingTicket
  | .evict _ t _ => some t
  | .acquire _ (.pushBack _ _ _ t) => some t
  | .cooler (.pushBack _ t) => some t
  | _ => none

/-- Whether an agent is about to pop a ticket. -/
def Pc.pops : Pc → Bool
  | .acquire _ (.sweep _ _ _) => true
  | .cooler (.pop _) => true
  | _ => false

theorem EvictCtx.return_ticket {k : EvictCtx} {r : Except TierBufError EvictionOutcome} :
    (k.return t r).ticket = none ∨ (k.return t r).ticket = some t := by
  rcases r with e | outcome
  · cases k <;> exact .inl rfl
  · cases outcome with
    | busy =>
        cases k with
        | flush f => exact .inl rfl
        | _ => exact .inr rfl
    | _ => cases k <;> exact .inl rfl

section Step

variable {sh sh' : Shared} {c : Choice} {a : Agent} {pc pc' : Pc}

theorem stepAcquire_ticket {w : AcquireCtx} {st : AcquireStage}
    (hst : (Pc.acquire w st).pops = false) :
    Goes (fun pc => pc.ticket = none) (sh.stepAcquire cfg w st) := by
  have hacquired : ∀ i, (w.acquired i).ticket = none := by
    intro i
    cases w <;> rfl
  have hfailed : ∀ e, (w.failed e).ticket = none := by
    intro e
    cases w <;> rfl
  cases st with
  | sweep n err m => cases hst
  | pop => exact .popFree (fun _ => rfl) rfl
  | popRound n err => exact .popFree (fun _ => rfl) rfl
  | popAfter n err m => exact .popFree (fun _ => rfl) rfl
  | member i => exact .leaveQueue rfl (fun _ => rfl)
  | claim i =>
      dsimp only [Shared.stepAcquire]
      split
      · exact .some (hacquired _)
      · exact .none
  | running =>
      dsimp only [Shared.stepAcquire]
      split
      · exact .some (hfailed _)
      · exact .some rfl
  | round n err =>
      dsimp only [Shared.stepAcquire]
      split
      · exact .some (hfailed _)
      · split
        · exact .some (hfailed _)
        · exact .some rfl
  | _ => exact .some rfl

theorem stepCooler_ticket {st : CoolerStage} (hst : (Pc.cooler st).pops = false) :
    Goes (fun pc => pc.ticket = none) (sh.stepCooler cfg st) := by
  cases st with
  | pop m => cases hst
  | _ =>
      dsimp only [Shared.stepCooler]
      (repeat' split) <;> exact .some rfl

/-- An agent keeps its ticket, pops it, or is the flush that makes it. -/
theorem ticket_step (hs : sh.step cfg c a pc = some (sh', pc')) (ht : pc'.ticket = some t) :
    pc.ticket = some t ∨ (pc.pops = true ∧ sh.cooling = t :: sh'.cooling) ∨
      ∃ f p, pc = .shutdown (.generation f p) := by
  have hflow := step_flow hs
  cases pc with
  | evict k t0 st =>
      cases hflow with
      | evict => exact .inl ht
      | evictReturn =>
          rcases EvictCtx.return_ticket with hc | hc
          · cases hc.symm.trans ht
          · exact .inl (hc.symm.trans ht)
      | assertion => cases ht
  | acquire w st =>
      cases hpops : (Pc.acquire w st).pops with
      | false => cases (stepAcquire_ticket hpops sh' pc' hs).symm.trans ht
      | true =>
          cases st with
          | sweep n err m =>
              rw [Shared.step] at hs
              dsimp only [Shared.stepAcquire] at hs
              split at hs
              · rename_i hcooling
                cases hs
                cases ht
                exact .inr (.inl ⟨rfl, hcooling⟩)
              · cases hs
                cases ht
          | _ => cases hpops
  | cooler st =>
      cases hpops : (Pc.cooler st).pops with
      | false => cases (stepCooler_ticket hpops sh' pc' hs).symm.trans ht
      | true =>
          cases st with
          | pop m =>
              rw [Shared.step] at hs
              dsimp only [Shared.stepCooler] at hs
              split at hs
              · rename_i hcooling
                cases hs
                cases ht
                exact .inr (.inl ⟨rfl, hcooling⟩)
              · cases hs
                cases ht
          | _ => cases hpops
  | shutdown st =>
      cases hflow with
      | shutdownEvict => exact .inr (.inr ⟨_, _, rfl⟩)
      | _ => cases ht
  | fault k st =>
      cases hflow with
      | @faultReturn _ _ r =>
          unfold FaultCtx.return at ht
          split at ht
          · cases ht
          · cases ht
          · cases ht
          · split at ht
            · cases ht
            · cases ht
      | _ => cases ht
  | cool k st =>
      cases hflow with
      | coolReturn => cases k <;> cases ht
      | _ => cases ht
  | enqueue k i p st =>
      cases hflow with
      | enqueueReturn => cases k <;> cases ht
      | _ => cases ht
  | checkin k i st =>
      cases hflow with
      | checkinReturn => cases k <;> cases ht
      | _ => cases ht
  | stuck k => cases hs
  | returned r => cases hs
  | panicked site => cases hs
  | _ => cases hflow <;> cases ht

end Step

/-! ### Histories -/

structure TicketHistory where
  /-- The tickets whose page has been fixed since they were queued. -/
  queued : CoolingTicket → Bool
  /-- The agents whose ticket is void. -/
  held : Agent → Bool

/-- The ticket of the page in frame `i`. -/
def PoolState.ticketOf (cfg : Config) (s : PoolState) (i : Nat) (p : PageId) : CoolingTicket :=
  ⟨i, p, s.shared.generation i, cfg.residentAddr i⟩

/-- A fix gives a second chance to the page of `t`. -/
def TicketHistory.void (h : TicketHistory) (s : PoolState) (t : CoolingTicket) : TicketHistory where
  queued := update h.queued t true
  held := fun a => h.held a || (s.pcs a).ticket = some t

/-- A ticket is queued, unless an equal one is. -/
def TicketHistory.push (h : TicketHistory) (s : PoolState) (t : CoolingTicket) (void : Bool) :
    TicketHistory :=
  if t ∈ s.shared.cooling then h else { h with queued := update h.queued t void }

def recordTicket (cfg : Config) (h : TicketHistory) (s : PoolState) (l : Agent × Choice)
    (_ : PoolState) : TicketHistory :=
  match s.pcs l.1 with
  | .fix k (.resurrect i) =>
    match (s.shared.swips k.swip).tryResurrect (cfg.residentAddr i) with
    | some _ => h.void s (s.ticketOf cfg i k.pid)
    | none => h
  | .acquire _ (.sweep _ _ _) | .cooler (.pop _) => match s.shared.cooling with
    | t :: _ => { h with held := update h.held l.1 (h.queued t) }
    | [] => h
  | .enqueue _ i p (.push g) => h.push s ⟨i, p, g, cfg.residentAddr i⟩ false
  | .acquire _ (.pushBack _ _ _ t) | .cooler (.pushBack _ t) => h.push s t (h.held l.1)
  | .shutdown (.generation _ _) => { h with held := update h.held l.1 false }
  | _ => h

/-- A buffer manager that remembers which tickets are void. -/
def ticketHistory (cfg : Config) : System (PoolState × TicketHistory) (Agent × Choice) :=
  (pool cfg).withHistory ⟨fun _ => false, fun _ => false⟩ (recordTicket cfg)

/-- A void ticket is queued, or in the hands of an agent. -/
def Voided (s : PoolState) (h : TicketHistory) (t : CoolingTicket) : Prop :=
  (t ∈ s.shared.cooling ∧ h.queued t = true) ∨ ∃ a, (s.pcs a).ticket = some t ∧ h.held a = true

/-- The ticket names a page in its frame, in the given state. -/
def Names (cfg : Config) (s : PoolState) (t : CoolingTicket) (w : SwipId) (st : SwipState) : Prop :=
  (s.shared.swips w).state = st ∧ (s.shared.swips w).pid = t.pid ∧
    s.shared.generation t.frameIndex = t.generation ∧ cfg.residentAddr t.frameIndex = t.resident

/-- The page of the ticket is `Cooling`, and so the ticket looks valid. -/
def Cooled (cfg : Config) (s : PoolState) (t : CoolingTicket) : Prop :=
  ∃ w, Names cfg s t w (.cooling t.resident)

/-- A step marks a page `Cooling` only when no ticket of it is void. -/
def Cleared (cfg : Config) (x : PoolState × TicketHistory) (l : Agent × Choice) : Prop :=
  ∀ w t, (x.1.pcs l.1).marks = some w → Names cfg x.1 t w (.hot t.resident) → ¬ Voided x.1 x.2 t

/-! ### What one step does to tickets -/

/-- A page is `Cooling` because it was, or because the step marks it. -/
theorem cooled_step (hr : Reachable (pool cfg) s) (hs : (pool cfg).next s l = some s')
    (hc : Cooled cfg s' t) : Cooled cfg s t ∨
      ∃ w, (s.pcs l.1).marks = some w ∧ Names cfg s t w (.hot t.resident) := by
  have hi := inv_reachable hr
  rcases pool_next hs with ⟨hstep, -⟩
  rcases hc with ⟨w, hstate, hpid, hgen, haddr⟩
  -- an occupant of the frame before the step
  have hbefore : ∀ st, (s.shared.swips w).state = st → st.resident = some t.resident →
      (s'.shared.swips w).pid = (s.shared.swips w).pid → Names cfg s t w st := by
    intro st hst hres hsame
    have hresides : s.shared.store.Resides cfg w t.frameIndex := by
      refine (congrArg SwipState.resident hst).trans ?_
      rw [hres, haddr]
    refine ⟨hst, hsame.symm.trans hpid, ?_, haddr⟩
    rw [← hi.generation_of_resides rfl hstep hresides]
    exact hgen
  cases step_cell hstep w with
  | same h =>
      rw [h] at hstate
      exact .inl ⟨w, hbefore _ hstate rfl (by rw [h])⟩
  | marked hpc h h' =>
      rw [h'] at hstate
      cases hstate
      exact .inr ⟨w, hpc, hbefore _ h rfl (by rw [h'])⟩
  | resurrected hpc h h' =>
      rw [h'] at hstate
      cases hstate
  | swizzled hpc hw h h' =>
      rw [h'] at hstate
      cases hstate
  | unswizzled hpc hw h h' =>
      rw [h'] at hstate
      cases hstate
  | born hw hpc h' =>
      rw [hstate] at h'
      cases h'

/-- The queue after a step that does not void tickets: what is in it and void
    was queued or held before. -/
theorem push_voided {h : TicketHistory} {u : CoolingTicket} {void : Bool}
    (hu : void = true → Voided s h u) (hcooling : s'.shared.cooling = (s.shared.pushUnique u).cooling)
    (ht : t ∈ s'.shared.cooling) (hq : (h.push s u void).queued t = true) : Voided s h t := by
  rw [hcooling] at ht
  unfold TicketHistory.push at hq
  unfold Shared.pushUnique at ht
  split at ht
  · rw [if_pos ‹_›] at hq
    exact .inl ⟨ht, hq⟩
  · rw [if_neg ‹_›] at hq
    have hupdate : update h.queued u void t = true := hq
    by_cases htu : t = u
    · rw [htu, update_self] at hupdate
      rw [htu]
      exact hu hupdate
    · rw [update_of_ne htu] at hupdate
      rcases List.mem_append.mp ht with hold | hnew
      · exact .inl ⟨hold, hupdate⟩
      · exact absurd (List.mem_singleton.mp hnew) htu

theorem push_held {h : TicketHistory} {u : CoolingTicket} {void : Bool} :
    (h.push s u void).held = h.held := by
  unfold TicketHistory.push
  split
  · rfl
  · rfl

/-- A step that leaves the histories of tickets alone. -/
theorem voided_of_same {h : TicketHistory} (hs : (pool cfg).next s l = some s')
    (hcooling : s'.shared.cooling = s.shared.cooling)
    (hticket : ∀ u, (s'.pcs l.1).ticket = some u → (s.pcs l.1).ticket = some u)
    (hv : Voided s' h t) : Voided s h t := by
  rcases hv with ⟨ht, hq⟩ | ⟨a, ha, hheld⟩
  · rw [hcooling] at ht
    exact .inl ⟨ht, hq⟩
  · by_cases hal : a = l.1
    · subst hal
      exact .inr ⟨l.1, hticket t ha, hheld⟩
    · rw [(pool_next hs).2 a hal] at ha
      exact .inr ⟨a, ha, hheld⟩

/-- A step that pushes a ticket. -/
theorem voided_of_push {h : TicketHistory} {u : CoolingTicket} {void : Bool}
    (hs : (pool cfg).next s l = some s') (hu : void = true → Voided s h u)
    (hcooling : s'.shared.cooling = (s.shared.pushUnique u).cooling)
    (hticket : (s'.pcs l.1).ticket = none) (hv : Voided s' (h.push s u void) t) : Voided s h t := by
  rcases hv with ⟨ht, hq⟩ | ⟨a, ha, hheld⟩
  · exact push_voided hu hcooling ht hq
  · rw [push_held] at hheld
    by_cases hal : a = l.1
    · rw [hal] at ha
      cases hticket.symm.trans ha
    · rw [(pool_next hs).2 a hal] at ha
      exact .inr ⟨a, ha, hheld⟩

/-- A step that pops a ticket. -/
theorem voided_of_pop {h : TicketHistory} {u : CoolingTicket} {rest : List CoolingTicket}
    (hs : (pool cfg).next s l = some s') (hcooling : s.shared.cooling = u :: rest)
    (hqueue : ∀ v ∈ s'.shared.cooling, v ∈ s.shared.cooling)
    (hticket : ∀ v, (s'.pcs l.1).ticket = some v → v = u)
    (hv : Voided s' { h with held := update h.held l.1 (h.queued u) } t) : Voided s h t := by
  rcases hv with ⟨ht, hq⟩ | ⟨a, ha, hheld⟩
  · exact .inl ⟨hqueue t ht, hq⟩
  · have hupdate : update h.held l.1 (h.queued u) a = true := hheld
    by_cases hal : a = l.1
    · rw [hal] at ha
      rw [hal, update_self] at hupdate
      rw [hticket t ha]
      refine .inl ⟨?_, hupdate⟩
      rw [hcooling]
      exact List.mem_cons_self ..
    · rw [update_of_ne hal] at hupdate
      rw [(pool_next hs).2 a hal] at ha
      exact .inr ⟨a, ha, hupdate⟩

/-- A pop takes tickets away only. -/
theorem pop_queue (hs : (pool cfg).next s l = some s') (hpops : (s.pcs l.1).pops = true) :
    ∀ u ∈ s'.shared.cooling, u ∈ s.shared.cooling := by
  have hstep := (pool_next hs).1
  intro u hu
  cases hpc : s.pcs l.1 with
  | acquire w st =>
      cases st with
      | sweep n err m =>
          rw [hpc, Shared.step] at hstep
          dsimp only [Shared.stepAcquire] at hstep
          split at hstep
          · rename_i t rest hcooling
            have hafter : rest = s'.shared.cooling :=
              congrArg (fun r => r.1.cooling) (Option.some.inj hstep)
            rw [hcooling, hafter]
            exact List.mem_cons_of_mem _ hu
          · have hafter : s.shared.cooling = s'.shared.cooling :=
              congrArg (fun r => r.1.cooling) (Option.some.inj hstep)
            rw [hafter]
            exact hu
      | _ =>
          rw [hpc] at hpops
          cases hpops
  | cooler st =>
      cases st with
      | pop m =>
          rw [hpc, Shared.step] at hstep
          dsimp only [Shared.stepCooler] at hstep
          split at hstep
          · rename_i t rest hcooling
            have hafter : rest = s'.shared.cooling :=
              congrArg (fun r => r.1.cooling) (Option.some.inj hstep)
            rw [hcooling, hafter]
            exact List.mem_cons_of_mem _ hu
          · have hafter : s.shared.cooling = s'.shared.cooling :=
              congrArg (fun r => r.1.cooling) (Option.some.inj hstep)
            rw [hafter]
            exact hu
      | _ =>
          rw [hpc] at hpops
          cases hpops
  | _ =>
      rw [hpc] at hpops
      cases hpops

/-- A step that gives a second chance. -/
theorem voided_of_chance {h : TicketHistory} {u : CoolingTicket}
    (hs : (pool cfg).next s l = some s') (hcooling : s'.shared.cooling = s.shared.cooling)
    (hticket : (s'.pcs l.1).ticket = none) (hv : Voided s' (h.void s u) t) :
    Voided s h t ∨ t = u := by
  by_cases htu : t = u
  · exact .inr htu
  · rcases hv with ⟨ht, hq⟩ | ⟨a, ha, hheld⟩
    · have hupdate : update h.queued u true t = true := hq
      rw [update_of_ne htu] at hupdate
      rw [hcooling] at ht
      exact .inl (.inl ⟨ht, hupdate⟩)
    · have hal : a ≠ l.1 := by
        rintro rfl
        cases hticket.symm.trans ha
      rw [(pool_next hs).2 a hal] at ha
      rcases (Bool.or_eq_true _ _).mp hheld with hold | hnew
      · exact .inl (.inr ⟨a, ha, hold⟩)
      · have hu : (s.pcs a).ticket = some u := of_decide_eq_true hnew
        exact absurd (Option.some.inj (ha.symm.trans hu)) htu

/-- The page that has got a second chance is not `Cooling`. -/
theorem not_cooled_of_chance (hr : Reachable (pool cfg) s) (hs : (pool cfg).next s l = some s')
    {k : FixCtx} {i : Nat} {cell : SwipInner} (hpc : s.pcs l.1 = .fix k (.resurrect i))
    (hcell : (s.shared.swips k.swip).tryResurrect (cfg.residentAddr i) = some cell) :
    ¬ Cooled cfg s' (s.ticketOf cfg i k.pid) := by
  rintro ⟨w, hstate, -, -, -⟩
  have hcooling : (s'.shared.swips w).state = .cooling (cfg.residentAddr i) := hstate
  have hi' := inv_reachable (hr.next hs)
  have hstep := (pool_next hs).1
  rw [hpc, Shared.step] at hstep
  dsimp only [Shared.stepFix] at hstep
  rw [hcell] at hstep
  have hshared : s.shared.setSwip k.swip cell = s'.shared :=
    congrArg Prod.fst (Option.some.inj hstep)
  have hhot : (s'.shared.swips k.swip).state = .hot (cfg.residentAddr i) := by
    have hafter : s'.shared.swips k.swip = cell := by
      rw [← hshared]
      exact update_self ..
    rw [hafter, (SwipInner.compareExchange_eq_some.mp hcell).2]
  have hw : w = k.swip := by
    refine hi'.resident_sole (i := i) ?_ ?_
    · exact congrArg SwipState.resident hhot
    · exact congrArg SwipState.resident hcooling
  rw [hw, hhot] at hcooling
  cases hcooling

/-- A ticket that is void after a step was void before, unless the step has
    given its page a second chance. -/
theorem voided_step (hr : Reachable (pool cfg) s) (hs : (pool cfg).next s l = some s')
    {h : TicketHistory} (hv : Voided s' (recordTicket cfg h s l s') t) :
    Voided s h t ∨ ¬ Cooled cfg s' t := by
  have hstep := (pool_next hs).1
  have hkeeps : (s.pcs l.1).pops = false → (∀ f p, s.pcs l.1 ≠ .shutdown (.generation f p)) →
      ∀ u, (s'.pcs l.1).ticket = some u → (s.pcs l.1).ticket = some u := by
    intro hpops hflush u hu
    rcases ticket_step hstep hu with hold | ⟨hc, -⟩ | ⟨f, p, hc⟩
    · exact hold
    · cases hpops.symm.trans hc
    · exact absurd hc (hflush f p)
  have hpop : (s.pcs l.1).pops = true → Voided s' (match s.shared.cooling with
      | u :: _ => { h with held := update h.held l.1 (h.queued u) }
      | [] => h) t → Voided s h t := by
    intro hpops hv
    have hqueue := pop_queue hs hpops
    have hnone : (s.pcs l.1).ticket = none := by
      cases hpc : s.pcs l.1 with
      | acquire w st =>
          rw [hpc] at hpops
          cases st with
          | sweep n err m => rfl
          | _ => cases hpops
      | cooler st =>
          rw [hpc] at hpops
          cases st with
          | pop m => rfl
          | _ => cases hpops
      | _ =>
          rw [hpc] at hpops
          cases hpops
    have hticket : ∀ v, (s'.pcs l.1).ticket = some v → s.shared.cooling = v :: s'.shared.cooling := by
      intro v hv
      rcases ticket_step hstep hv with hc | ⟨-, hcooling⟩ | ⟨f, p, hc⟩
      · cases hnone.symm.trans hc
      · exact hcooling
      · rw [hc] at hpops
        cases hpops
    split at hv
    · rename_i u rest hcooling
      refine voided_of_pop hs hcooling hqueue (fun v hv => ?_) hv
      exact (List.cons.inj (hcooling.symm.trans (hticket v hv))).1.symm
    · rename_i hcooling
      refine voided_of_same hs ?_ (fun u hu => ?_) hv
      · rw [hcooling]
        refine List.eq_nil_iff_forall_not_mem.mpr (fun u hu => ?_)
        have hmem := hqueue u hu
        rw [hcooling] at hmem
        exact List.not_mem_nil hmem
      · cases hcooling.symm.trans (hticket u hu)
  unfold recordTicket at hv
  split at hv
  · rename_i k i hpc
    have hcooling : s'.shared.cooling = s.shared.cooling := by
      refine step_same (f := .cooling) hstep ?_
      rw [hpc]
      rintro (⟨_, _, _, _, hc⟩ | ⟨_, _, _, _, _, hc⟩ | ⟨_, _, _, _, hc⟩ | ⟨_, hc⟩ | ⟨_, _, hc⟩) <;>
        cases hc
    have hold : ∀ u, (s'.pcs l.1).ticket = some u → (s.pcs l.1).ticket = some u := by
      refine hkeeps ?_ (fun f p hc => by cases hpc.symm.trans hc)
      rw [hpc]
      rfl
    split at hv
    · rename_i cell hcell
      have hticket : (s'.pcs l.1).ticket = none := by
        refine Option.eq_none_iff_forall_ne_some.mpr (fun u hu => ?_)
        have hc := hold u hu
        rw [hpc] at hc
        cases hc
      rcases voided_of_chance hs hcooling hticket hv with hbefore | rfl
      · exact .inl hbefore
      · exact .inr (not_cooled_of_chance hr hs hpc hcell)
    · exact .inl (voided_of_same hs hcooling hold hv)
  · rename_i hpc
    exact .inl (hpop (by rw [hpc]; rfl) hv)
  · rename_i hpc
    exact .inl (hpop (by rw [hpc]; rfl) hv)
  · rename_i k i p g hpc
    rw [hpc] at hstep
    have hcooling : (s.shared.pushUnique ⟨i, p, g, cfg.residentAddr i⟩).cooling =
        s'.shared.cooling := congrArg (fun r => r.1.cooling) (Option.some.inj hstep)
    have hpc' : k.return i = s'.pcs l.1 := congrArg Prod.snd (Option.some.inj hstep)
    refine .inl (voided_of_push hs (fun hc => absurd hc Bool.false_ne_true) hcooling.symm ?_ hv)
    rw [← hpc']
    cases k <;> rfl
  · rename_i w n err m u hpc
    rw [hpc] at hstep
    have hcooling : (s.shared.pushUnique u).cooling = s'.shared.cooling :=
      congrArg (fun r => r.1.cooling) (Option.some.inj hstep)
    have hpc' : Pc.acquire w (.sweep n err m) = s'.pcs l.1 :=
      congrArg Prod.snd (Option.some.inj hstep)
    refine .inl (voided_of_push hs (fun hheld => .inr ⟨l.1, ?_, hheld⟩) hcooling.symm ?_ hv)
    · rw [hpc]
      rfl
    · rw [← hpc']
      rfl
  · rename_i m u hpc
    rw [hpc] at hstep
    have hcooling : (s.shared.pushUnique u).cooling = s'.shared.cooling :=
      congrArg (fun r => r.1.cooling) (Option.some.inj hstep)
    have hpc' : Pc.cooler (.sweep m) = s'.pcs l.1 := congrArg Prod.snd (Option.some.inj hstep)
    refine .inl (voided_of_push hs (fun hheld => .inr ⟨l.1, ?_, hheld⟩) hcooling.symm ?_ hv)
    · rw [hpc]
      rfl
    · rw [← hpc']
      rfl
  · rename_i f p hpc
    rw [hpc] at hstep
    have hcooling : s.shared.cooling = s'.shared.cooling :=
      congrArg (fun r => r.1.cooling) (Option.some.inj hstep)
    rcases hv with ⟨ht, hq⟩ | ⟨a, ha, hheld⟩
    · rw [← hcooling] at ht
      exact .inl (.inl ⟨ht, hq⟩)
    · have hupdate : update h.held l.1 false a = true := hheld
      by_cases hal : a = l.1
      · rw [hal, update_self] at hupdate
        cases hupdate
      · rw [update_of_ne hal] at hupdate
        rw [(pool_next hs).2 a hal] at ha
        exact .inl (.inr ⟨a, ha, hupdate⟩)
  · rename_i hchance hsweep hpop' hpush hback hback' hflush
    have hpops : (s.pcs l.1).pops = false := by
      cases hpc : s.pcs l.1 with
      | acquire w st =>
          cases st with
          | sweep n err m => exact absurd hpc (hsweep w n err m)
          | _ => rfl
      | cooler st =>
          cases st with
          | pop m => exact absurd hpc (hpop' m)
          | _ => rfl
      | _ => rfl
    have hcooling : s'.shared.cooling = s.shared.cooling := by
      refine step_same (f := .cooling) hstep ?_
      rintro (⟨w, n, err, m, hc⟩ | ⟨w, n, err, m, u, hc⟩ | ⟨k, i, p, g, hc⟩ | ⟨m, hc⟩ | ⟨m, u, hc⟩)
      · exact hsweep _ _ _ _ hc
      · exact hback _ _ _ _ _ hc
      · exact hpush _ _ _ _ hc
      · exact hpop' _ hc
      · exact hback' _ _ hc
    exact .inl (voided_of_same hs hcooling (hkeeps hpops (fun f p => hflush f p)) hv)

/-! ### Void tickets stay void -/

/-- No void ticket looks valid. -/
def Harmless (cfg : Config) (s : PoolState) (h : TicketHistory) : Prop :=
  ∀ t, Voided s h t → ¬ Cooled cfg s t

theorem Harmless.step (hr : Reachable (pool cfg) s) {h : TicketHistory} (hh : Harmless cfg s h)
    (hc : Cleared cfg (s, h) l) (hs : (pool cfg).next s l = some s') :
    Harmless cfg s' (recordTicket cfg h s l s') := by
  intro t hv hcooled
  rcases voided_step hr hs hv with hbefore | hnot
  · rcases cooled_step hr hs hcooled with hcooled0 | ⟨w, hmarks, hnames⟩
    · exact hh t hbefore hcooled0
    · exact hc w t hmarks hnames hbefore
  · exact hnot hcooled

theorem harmless_reachable {x : PoolState × TicketHistory}
    (hr : ReachableVia (ticketHistory cfg) (Cleared cfg) x) : Harmless cfg x.1 x.2 := by
  refine reachableVia_invariant (I := fun x => Harmless cfg x.1 x.2) ?_ ?_ hr
  · rintro x ⟨⟨budgets, hx⟩, hh⟩ t hv
    rw [hx, hh] at hv
    rcases hv with ⟨ht, -⟩ | ⟨a, ha, -⟩
    · exact absurd ht List.not_mem_nil
    · cases ha
  · intro x l x' hr hh hc hs
    rcases withHistory_next hs with ⟨hnext, hrecord⟩
    rw [hrecord]
    exact hh.step (reachable_fst (reachable_of_via hr)) hc hnext

/-- The stages of `evict_ticket` that have not yet seen the page `Cooling`. -/
def ExactStage.early : ExactStage → Bool
  | .pages _ => false
  | _ => true

/-- A page whose ticket is held by an evictor past its revalidation is
    `Cooling`. -/
theorem cooled_of_unswizzle (hr : Reachable (pool cfg) s) (hs : (pool cfg).next s l = some s')
    {k : EvictCtx} {v : Eviction} (hpc : s.pcs l.1 = .evict k t (.unswizzle v)) :
    Cooled cfg s t := by
  rcases unswizzle_next hr hs hpc with ⟨-, hpid, hstate, htickets⟩
  have hstamp := stamped_reachable hr l.1
  rw [hpc] at hstamp
  exact ⟨v.swip, hstate, hpid, hstamp _ _ rfl, htickets.2⟩

/-- The first look of `evict_ticket` at a page that is not `Cooling` in the
    frame generation of the ticket finds the ticket stale. -/
theorem stale_of_not_cooled (hr : Reachable (pool cfg) s) (hs : (pool cfg).next s l = some s')
    {k : EvictCtx} {e : ExactStage} (hpc : s.pcs l.1 = .evict k t (.exact .first e))
    (he : e.early = true) (hgen : s.shared.generation t.frameIndex = t.generation)
    (hno : ¬ Cooled cfg s t) : s'.pcs l.1 = k.return t (.ok .stale) ∨
      ∃ e', e'.early = true ∧ s'.pcs l.1 = .evict k t (.exact .first e') := by
  have hstep := (pool_next hs).1
  have hchecked := ((inv_reachable hr).sound l.1).checked
  rw [role_at hpc] at hchecked
  rw [hpc, Shared.step] at hstep
  dsimp only [Shared.stepEvict] at hstep
  have hafter : ∀ {sh' pc'}, some (sh', pc') = some (s'.shared, s'.pcs l.1) → s'.pcs l.1 = pc' :=
    fun h => (congrArg Prod.snd (Option.some.inj h)).symm
  cases e with
  | pages w => cases he
  | pid =>
      dsimp only [Shared.stepExact] at hstep
      split at hstep
      · exact .inl (hafter hstep)
      · exact .inr ⟨_, rfl, hafter hstep⟩
  | generation =>
      dsimp only [Shared.stepExact] at hstep
      split at hstep
      · exact .inl (hafter hstep)
      · exact .inr ⟨_, rfl, hafter hstep⟩
  | owner =>
      dsimp only [Shared.stepExact] at hstep
      split at hstep
      · exact .inl (hafter hstep)
      · exact .inr ⟨_, rfl, hafter hstep⟩
  | state w =>
      dsimp only [Shared.stepExact] at hstep
      split at hstep
      · rename_i hseen
        have htickets : cfg.Tickets t := hchecked
        exact absurd ⟨w, hseen.2, hseen.1, hgen, htickets.2⟩ hno
      · exact .inl (hafter hstep)

/-- Page `0` has been marked and its ticket queued, and is fixed again. -/
def revisiting : List (Agent × Choice) :=
  allocateAndDrop 0 ++ allocateAndDrop 1 ++ allocateAndDrop 2 ++ cooling 3 .cooler 0 33 ++
    runOf 4 (.fix 0 (.shared .normal)) 17 ++ List.replicate 2 (4, { act := .drop })

/-- Agents below `n` take their steps, and mark pages only while nobody has a
    ticket. -/
def Unticketed (n : Nat) (s : PoolState) (l : Agent × Choice) : Prop :=
  l.1 < n ∧ ((s.pcs l.1).marks.isNone = true ∨
    s.shared.cooling = [] ∧ ∀ b, b < n → (s.pcs b).ticket = none)

instance (n : Nat) (s : PoolState) (l : Agent × Choice) : Decidable (Unticketed n s l) :=
  inferInstanceAs (Decidable (_ ∧ _))

theorem cleared_of_unticketed {n : Nat} {x : PoolState × TicketHistory}
    (hr : ReachableVia (ticketHistory cfg) (fun y l => Unticketed n y.1 l) x) :
    ReachableVia (ticketHistory cfg) (Cleared cfg) x := by
  induction hr with
  | init hi => exact .init hi
  | @step x x' l hr hu hs ih =>
      refine .step ih (fun w t hmarks _ hv => ?_) hs
      rcases hu.2 with hnone | ⟨hcooling, hticket⟩
      · rw [hmarks] at hnone
        cases hnone
      · rcases hv with ⟨ht, -⟩ | ⟨a, ha, -⟩
        · rw [hcooling] at ht
          exact List.not_mem_nil ht
        · by_cases hlt : a < n
          · cases (hticket a hlt).symm.trans ha
          · have hbounded : ReachableVia (pool cfg) (fun _ l => l.1 < n) x.1 :=
              (reachableVia_fst (P := Unticketed n) hr).mono (fun _ _ h => h.1)
            rw [idle_above hbounded (Nat.le_of_not_lt hlt)] at ha
            cases ha

/-- The ticket of an eviction that is about to look at the state of its Swip. -/
def Pc.checkingTicket : Pc → Option CoolingTicket
  | .evict _ t (.exact .first (.state _)) => some t
  | _ => none

/-- An eviction that is about to unswizzle. -/
def Pc.unswizzling : Pc → Bool
  | .evict _ _ (.unswizzle _) => true
  | _ => false

end TierBuf
