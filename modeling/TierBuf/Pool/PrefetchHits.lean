import TierBuf.Pool.Markers

/-!
# Prefetch Hits

Which fixes are counted as prefetch hits.

A demand fix removes the marker of its page, and is counted as a prefetch hit
if the marker is that of its frame. Every hit is paid for by one prefetch of
the same page into the same frame generation. A fix that has faulted does not
look for a marker, although what it has waited for may have been the prefetch
itself. The marker then outlives the first fix of its page, and a later fix is
counted. In runs where no faulted fix passes by the marker of its own frame
the marker is gone after the first fix.

## Main definitions

* `HitHistory`, `hitHistory`: Prefetches, hits, and the frames whose occupant
  has been fixed on demand.
* `Heeds`: The steps that do not pass by a marker.

## Theorems

* `paid_reachable`: Every hit belongs to a prefetch.
* `prefetch_hits_once`: In heeding runs no occupant is hit after its first fix.
* `prefetch_hits_repeat`: In other runs one is.
-/

namespace TierBuf

open Function Ledger Transition

variable {cfg : Config} {s s' : PoolState} {l : Agent × Choice} {p : PageId} {i : Nat}

/-! ### Into the look-up of a marker -/

def Pc.fixes : Pc → Bool
  | .fix _ _ => true
  | _ => false

theorem CheckinCtx.return_fixes {k : CheckinCtx} : k.return.fixes = false := by
  cases k <;> rfl

theorem CoolCtx.return_fixes {k : CoolCtx} : k.return.fixes = false := by
  cases k <;> rfl

theorem EnqueueCtx.return_fixes {k : EnqueueCtx} : (k.return i).fixes = false := by
  cases k <;> rfl

theorem EvictCtx.return_fixes {k : EvictCtx} {t : CoolingTicket}
    {r : Except TierBufError EvictionOutcome} : (k.return t r).fixes = false := by
  rcases r with e | outcome
  · cases k <;> rfl
  · cases outcome <;> cases k <;> rfl

/-- The loop of a fix is entered at its head. -/
theorem Flow.into_fix {pc pc' : Pc} {k : FixCtx} {st' : FixStage} (h : Flow pc pc')
    (hpc : pc' = .fix k st') : (∃ st, pc = .fix k st) ∨ st' = .head := by
  have hin : pc'.fixes = true := by rw [hpc]; rfl
  cases h with
  | fix =>
      cases hpc
      exact .inl ⟨_, rfl⟩
  | enterFix =>
      cases hpc
      exact .inr rfl
  | @faultReturn k' _ r =>
      cases k' with
      | demand k' =>
          rcases r with e | tier
          · cases hpc
          · cases tier with
            | none =>
                cases hpc
                exact .inr rfl
            | some t =>
                cases hpc
                exact .inr rfl
      | prefetch t =>
          unfold FaultCtx.return at hpc
          dsimp only at hpc
          split at hpc
          · cases hpc
          · cases hpc
  | acquired => rename_i w _ _; cases w <;> cases hpc
  | acquireFailed => rename_i w _ _; cases w <;> cases hpc
  | coolReturn => exact absurd (CoolCtx.return_fixes.symm.trans hin) Bool.false_ne_true
  | enqueueReturn => exact absurd (EnqueueCtx.return_fixes.symm.trans hin) Bool.false_ne_true
  | evictReturn => exact absurd (EvictCtx.return_fixes.symm.trans hin) Bool.false_ne_true
  | checkinReturn => exact absurd (CheckinCtx.return_fixes.symm.trans hin) Bool.false_ne_true
  | _ => cases hpc

section Into

variable {sh sh' : Shared} {c : Choice} {a : Agent} {pc : Pc} {k : FixCtx}

/-- Whether a fix has found a marker, or is about to count its hit. -/
def Pc.hitting : Pc → Bool
  | .fix _ (.hit _) => true
  | _ => false

def Pc.counting : Pc → Bool
  | .fix _ (.count _) => true
  | _ => false

/-- A fix has a hit when the marker it has removed is that of its frame. -/
theorem into_hit (hs : sh.step cfg c a pc = some (sh', .fix k (.hit i))) :
    ∃ g, pc = .fix k (.consume i g) ∧ sh.prefetched k.pid = some ⟨cfg.residentAddr i, g⟩ := by
  rcases (step_flow hs).into_fix rfl with ⟨st, rfl⟩ | hc
  · suffices hgoes : (∃ j g, st = .consume j g) ∨
        Goes (fun pc => pc.hitting = false) (sh.stepFix cfg c k st) by
      rcases hgoes with ⟨j, g, rfl⟩ | hgoes
      · rw [Shared.step] at hs
        dsimp only [Shared.stepFix] at hs
        split at hs
        · rename_i hfound
          cases hs
          exact ⟨g, rfl, hfound⟩
        · cases hs
      · cases hgoes _ _ hs
    cases st with
    | consume j g => exact .inl ⟨j, g, rfl⟩
    | latch j => exact .inr (.lockLatch rfl)
    | unlatch j => exact .inr (.unlatch rfl (fun _ => rfl))
    | unpin j => exact .inr (.unpin rfl (fun _ => rfl))
    | _ =>
        refine .inr ?_
        dsimp only [Shared.stepFix]
        (repeat' split) <;> exact .some rfl
  · cases hc

/-- A fix is counted when it has not looked for a marker, or has found none,
    or has counted the prefetch hit. -/
theorem into_count (hs : sh.step cfg c a pc = some (sh', .fix k (.count i))) :
    (pc = .fix k (.resurrect i) ∧ k.consumes = false) ∨ (∃ g, pc = .fix k (.consume i g)) ∨
      pc = .fix k (.hit i) := by
  rcases (step_flow hs).into_fix rfl with ⟨st, rfl⟩ | hc
  · suffices hgoes : (∃ j, st = .resurrect j) ∨ (∃ j g, st = .consume j g) ∨ (∃ j, st = .hit j) ∨
        Goes (fun pc => pc.counting = false) (sh.stepFix cfg c k st) by
      rcases hgoes with ⟨j, rfl⟩ | ⟨j, g, rfl⟩ | ⟨j, rfl⟩ | hgoes
      · have hback : (if k.consumes = true then Pc.fix k (.generation j)
            else .fix k (.count j)) = .fix k (.count i) → j = i ∧ k.consumes = false := by
          intro hpc
          split at hpc
          · cases hpc
          · cases hpc
            exact ⟨rfl, Bool.eq_false_iff.mpr ‹_›⟩
        rw [Shared.step] at hs
        dsimp only [Shared.stepFix] at hs
        split at hs
        · rcases hback (congrArg Prod.snd (Option.some.inj hs)) with ⟨rfl, hk⟩
          exact .inl ⟨rfl, hk⟩
        · rcases hback (congrArg Prod.snd (Option.some.inj hs)) with ⟨rfl, hk⟩
          exact .inl ⟨rfl, hk⟩
      · rw [Shared.step] at hs
        dsimp only [Shared.stepFix] at hs
        split at hs
        · cases hs
        · cases hs
          exact .inr (.inl ⟨g, rfl⟩)
      · cases hs
        exact .inr (.inr rfl)
      · cases hgoes _ _ hs
    cases st with
    | resurrect j => exact .inl ⟨j, rfl⟩
    | consume j g => exact .inr (.inl ⟨j, g, rfl⟩)
    | hit j => exact .inr (.inr (.inl ⟨j, rfl⟩))
    | latch j => exact .inr (.inr (.inr (.lockLatch rfl)))
    | unlatch j => exact .inr (.inr (.inr (.unlatch rfl (fun _ => rfl))))
    | unpin j => exact .inr (.inr (.inr (.unpin rfl (fun _ => rfl))))
    | _ =>
        refine .inr (.inr (.inr ?_))
        dsimp only [Shared.stepFix]
        (repeat' split) <;> exact .some rfl
  · cases hc

end Into

/-! ### Occupants without a marker -/

/-- An occupant without a marker gets none. -/
theorem unmarked_step (hr : Reachable (pool cfg) s) (hs : (pool cfg).next s l = some s')
    {w : SwipId} (hres : s.shared.store.Resides cfg w i) (hp : (s.shared.swips w).pid = p)
    (hno : s.shared.prefetched p ≠ some (s.markerOf cfg i)) :
    s'.shared.prefetched p ≠ some (s'.markerOf cfg i) := by
  have hi := inv_reachable hr
  have hgen : s'.shared.generation i = s.shared.generation i :=
    hi.generation_of_resides rfl (pool_next hs).1 hres
  intro hmap
  rw [PoolState.markerOf, hgen] at hmap
  rcases prefetched_step hs hmap with hold | ⟨f, g, hpc, hf, -⟩
  · exact hno hold
  · have hwarrant : (s.roles cfg l.1).warrant = f.ctx.warrant := by
      rw [role_at hpc]
      rfl
    exact hi.filler_evicted hwarrant hres (hp.trans hf.symm)

/-- A fix past its revalidation has its page in its frame. -/
theorem fixer_resides (hr : Reachable (pool cfg) s) {a : Agent} {k : FixCtx} {st : FixStage}
    (hpc : s.pcs a = .fix k st)
    (hst : st.role k = k.role (.occupant i k.swip (some k.mode.isExclusive))) :
    s.shared.store.Resides cfg k.swip i ∧ (s.shared.swips k.swip).pid = k.pid := by
  have hsound := (inv_reachable hr).sound a
  rw [role_at hpc] at hsound
  have htenure : (st.role k).tenure.Sound cfg s.shared.store := hsound.tenure
  have hwarrant : (st.role k).warrant.Sound cfg s.shared.store := hsound.warrant
  rw [hst] at htenure hwarrant
  exact ⟨htenure, hwarrant.2⟩

/-- A fix that has found a marker has removed it. -/
theorem unmarked_hit (hr : Reachable (pool cfg) s) {a : Agent} {k : FixCtx}
    (hpc : s.pcs a = .fix k (.hit i)) : s.shared.prefetched k.pid ≠ some (s.markerOf cfg i) := by
  refine reachableVia_invariant (I := fun s => ∀ a k i, s.pcs a = .fix k (.hit i) →
    s.shared.prefetched k.pid ≠ some (s.markerOf cfg i)) ?_ ?_ hr a k i hpc
  · rintro s ⟨budgets, rfl⟩ _ _ _
    exact nofun
  · intro s l s' hr hi _ hs a k i hpc
    rcases pool_next hs with ⟨hstep, hothers⟩
    by_cases ha : a = l.1
    · subst ha
      rw [hpc] at hstep
      rcases into_hit hstep with ⟨g, hbefore, -⟩
      rw [hbefore] at hstep
      have hafter : update s.shared.prefetched k.pid none = s'.shared.prefetched :=
        congrArg (fun r => r.1.prefetched) (Option.some.inj hstep)
      rw [← hafter, update_self]
      exact nofun
    · rw [hothers a ha] at hpc
      rcases fixer_resides hr hpc rfl with ⟨hres, hpid⟩
      exact unmarked_step hr hs hres hpid (hi a k i hpc)

/-! ### Histories -/

/-- A page with one of its markers. -/
abbrev PageMarker := PageId × PrefetchMarker

structure HitHistory where
  /-- The markers of the prefetches that have made their page resident. -/
  installs : List PageMarker
  /-- What the recorded prefetch hits have found. -/
  hits : List PageMarker
  /-- The frames whose occupant a demand fix has been counted for. -/
  fixed : Nat → Bool

/-- Whether a fix is one that removes markers, unless it has faulted. -/
def FixMode.demands : FixMode → Bool
  | .shared .prefetch => false
  | _ => true

def recordHit (cfg : Config) (h : HitHistory) (s : PoolState) (l : Agent × Choice) (_ : PoolState) :
    HitHistory :=
  match s.pcs l.1 with
  | .fill f (.swizzle (some m)) =>
    match (s.shared.swips f.swip).trySwizzle f.pid (cfg.residentAddr f.index) with
    | some _ => { h with installs := (f.pid, m) :: h.installs }
    | none => h
  | .fix k (.hit i) => { h with hits := (k.pid, s.markerOf cfg i) :: h.hits }
  | .fix k (.count i) => if k.mode.demands then { h with fixed := update h.fixed i true } else h
  | .evict _ t (.unswizzle _) => { h with fixed := update h.fixed t.frameIndex false }
  | _ => h

/-- A buffer manager that remembers its prefetches and their hits. -/
def hitHistory (cfg : Config) : System (PoolState × HitHistory) (Agent × Choice) :=
  (pool cfg).withHistory ⟨[], [], fun _ => false⟩ (recordHit cfg)

/-! ### Hits and prefetches -/

/-- The marker of a page that is about to be made resident. -/
def Pc.installing : Pc → Option PageMarker
  | .fill f (.swizzle (some m)) => some (f.pid, m)
  | _ => none

/-- The hit an agent is about to record. -/
def PoolState.hitOf (cfg : Config) (s : PoolState) (a : Agent) : Option PageMarker :=
  match s.pcs a with
  | .fix k (.hit i) => some (k.pid, s.markerOf cfg i)
  | _ => none

/-- A hit that is about to be recorded, and a marker that may still be found,
    have a prefetch that no recorded hit belongs to. -/
structure Paid (cfg : Config) (s : PoolState) (h : HitHistory) : Prop where
  recorded : ∀ q, h.hits.count q ≤ h.installs.count q
  found : ∀ a q, s.hitOf cfg a = some q → h.hits.count q < h.installs.count q
  present : ∀ p m, s.shared.prefetched p = some m →
    (∃ a, (s.pcs a).installing = some (p, m)) ∨
      h.hits.count (p, m) < h.installs.count (p, m)
  sole : Sole (s.hitOf cfg)
  total : s.shared.prefetchHits = h.hits.length

theorem hitOf_eq_some {a : Agent} {q : PageMarker} (h : s.hitOf cfg a = some q) :
    ∃ k i, s.pcs a = .fix k (.hit i) ∧ q = (k.pid, s.markerOf cfg i) := by
  unfold PoolState.hitOf at h
  split at h
  · rename_i k i hpc
    exact ⟨k, i, hpc, (Option.some.inj h).symm⟩
  · cases h

theorem installing_eq_some {pc : Pc} {m : PrefetchMarker} (h : pc.installing = some (p, m)) :
    ∃ f, pc = .fill f (.swizzle (some m)) ∧ f.pid = p := by
  unfold Pc.installing at h
  split at h
  · rename_i f m'
    cases h
    exact ⟨f, rfl, rfl⟩
  · cases h

/-- The occupant of a pinned frame keeps its marker's name. -/
theorem hitOf_others (hr : Reachable (pool cfg) s) (hs : (pool cfg).next s l = some s')
    {a : Agent} (ha : a ≠ l.1) : s'.hitOf cfg a = s.hitOf cfg a := by
  rcases pool_next hs with ⟨hstep, hothers⟩
  unfold PoolState.hitOf
  rw [hothers a ha]
  split
  · rename_i k i hpc
    have hgen : s'.shared.generation i = s.shared.generation i :=
      (inv_reachable hr).generation_of_resides rfl hstep (fixer_resides hr hpc rfl).1
    rw [PoolState.markerOf, PoolState.markerOf, hgen]
  · rfl

/-- A fix removes the marker it finds only after the prefetch has made the
    page resident. -/
theorem found_after_install (hr : Reachable (pool cfg) s) {h : HitHistory} (hp : Paid cfg s h)
    {a : Agent} {k : FixCtx} {g : Nat} (hpc : s.pcs a = .fix k (.consume i g))
    {m : PrefetchMarker} (hm : s.shared.prefetched k.pid = some m) :
    h.hits.count (k.pid, m) < h.installs.count (k.pid, m) := by
  rcases hp.present _ _ hm with ⟨b, hb⟩ | hlt
  · rcases installing_eq_some hb with ⟨f, hfill, hf⟩
    have hwarrant : (s.roles cfg b).warrant = f.ctx.warrant := by
      rw [role_at hfill]
      rfl
    rcases fixer_resides hr hpc rfl with ⟨hres, hpid⟩
    exact ((inv_reachable hr).filler_evicted hwarrant hres (hpid.trans hf.symm)).elim
  · exact hlt

/-- A hit that is about to be recorded was about to be recorded before, or has
    just been found. -/
theorem hitOf_step (hr : Reachable (pool cfg) s) (hs : (pool cfg).next s l = some s') {a : Agent}
    {q : PageMarker} (hq : s'.hitOf cfg a = some q) :
    (a ≠ l.1 ∧ s.hitOf cfg a = some q) ∨ (a = l.1 ∧ ∃ k i g, s.pcs l.1 = .fix k (.consume i g) ∧
      q.1 = k.pid ∧ s.shared.prefetched k.pid = some q.2) := by
  by_cases ha : a = l.1
  · subst ha
    rcases hitOf_eq_some hq with ⟨k, i, hpc, rfl⟩
    have hstep := (pool_next hs).1
    rw [hpc] at hstep
    rcases into_hit hstep with ⟨g, hbefore, hfound⟩
    have hstamp := stamped_reachable hr l.1
    rw [hbefore] at hstep hstamp
    have hgen : s.shared.generation = s'.shared.generation :=
      congrArg (fun r => r.1.generation) (Option.some.inj hstep)
    refine .inr ⟨rfl, k, i, g, hbefore, rfl, ?_⟩
    rw [hfound, PoolState.markerOf, ← hgen, hstamp i g rfl]
  · rw [hitOf_others hr hs ha] at hq
    exact .inl ⟨ha, hq⟩

theorem Paid.found_step (hr : Reachable (pool cfg) s) {h : HitHistory} (hp : Paid cfg s h)
    (hs : (pool cfg).next s l = some s') {a : Agent} {q : PageMarker}
    (hq : s'.hitOf cfg a = some q) : h.hits.count q < h.installs.count q := by
  rcases hitOf_step hr hs hq with ⟨-, hold⟩ | ⟨-, k, i, g, hpc, hpage, hm⟩
  · exact hp.found a q hold
  · have hlt := found_after_install hr hp hpc hm
    rw [← hpage] at hlt
    exact hlt

theorem Paid.sole_step (hr : Reachable (pool cfg) s) {h : HitHistory} (hp : Paid cfg s h)
    (hs : (pool cfg).next s l = some s') : Sole (s'.hitOf cfg) := by
  -- what has just been found in the map is not what another agent has removed from it
  have hfresh : ∀ a q k, s.hitOf cfg a = some q → q.1 = k → s.shared.prefetched k ≠ some q.2 := by
    rintro a q k hq rfl
    rcases hitOf_eq_some hq with ⟨k, i, hpc, rfl⟩
    exact unmarked_hit hr hpc
  intro a b q ha hb
  rcases hitOf_step hr hs ha with ⟨-, ha0⟩ | ⟨rfl, k, i, g, -, hpage, hm⟩
  · rcases hitOf_step hr hs hb with ⟨-, hb0⟩ | ⟨rfl, k, i, g, -, hpage, hm⟩
    · exact hp.sole a b q ha0 hb0
    · exact absurd hm (hfresh a q _ ha0 hpage)
  · rcases hitOf_step hr hs hb with ⟨-, hb0⟩ | ⟨rfl, -⟩
    · exact absurd hm (hfresh b q _ hb0 hpage)
    · rfl

theorem Paid.present_step {h : HitHistory} (hp : Paid cfg s h)
    (hs : (pool cfg).next s l = some s') {m : PrefetchMarker}
    (hm : s'.shared.prefetched p = some m) :
    (∃ a, (s'.pcs a).installing = some (p, m)) ∨ (s.pcs l.1).installing = some (p, m) ∨
      h.hits.count (p, m) < h.installs.count (p, m) := by
  rcases pool_next hs with ⟨hstep, hothers⟩
  rcases prefetched_step hs hm with hold | ⟨f, g, hpc, hf, rfl⟩
  · rcases hp.present p m hold with ⟨a, ha⟩ | hlt
    · by_cases hal : a = l.1
      · rw [hal] at ha
        exact .inr (.inl ha)
      · rw [← hothers a hal] at ha
        exact .inl ⟨a, ha⟩
    · exact .inr (.inr hlt)
  · rw [hpc] at hstep
    have hafter : Pc.fill f (.swizzle (some ⟨cfg.residentAddr f.index, g⟩)) = s'.pcs l.1 :=
      congrArg Prod.snd (Option.some.inj hstep)
    refine .inl ⟨l.1, ?_⟩
    rw [← hafter, ← hf]
    rfl

/-- A hit has one recorder, and the marker it has found is gone. -/
theorem Paid.hit_step (hr : Reachable (pool cfg) s) {h : HitHistory} (hp : Paid cfg s h)
    (hs : (pool cfg).next s l = some s') {k : FixCtx} (hpc : s.pcs l.1 = .fix k (.hit i)) :
    Paid cfg s' (recordHit cfg h s l s') := by
  have hq : s.hitOf cfg l.1 = some (k.pid, s.markerOf cfg i) := by
    rw [PoolState.hitOf, hpc]
  have hrecord : recordHit cfg h s l s' =
      { h with hits := (k.pid, s.markerOf cfg i) :: h.hits } := by
    unfold recordHit
    rw [hpc]
  have hstep := (pool_next hs).1
  rw [hpc] at hstep
  have hcounted : s.shared.prefetchHits + 1 = s'.shared.prefetchHits :=
    congrArg (fun r => r.1.prefetchHits) (Option.some.inj hstep)
  have hmap : s.shared.prefetched = s'.shared.prefetched :=
    congrArg (fun r => r.1.prefetched) (Option.some.inj hstep)
  rw [hrecord]
  refine ⟨fun q => ?_, fun a q ha => ?_, fun p m hm => ?_, hp.sole_step hr hs, ?_⟩
  · by_cases hqk : q = (k.pid, s.markerOf cfg i)
    · rw [hqk, List.count_cons_self]
      exact hp.found l.1 _ hq
    · rw [List.count_cons_of_ne (Ne.symm hqk)]
      exact hp.recorded q
  · have hne : q ≠ (k.pid, s.markerOf cfg i) := by
      rintro rfl
      rcases hitOf_step hr hs ha with ⟨hal, hold⟩ | ⟨-, _, _, _, hc, -⟩
      · exact hal (hp.sole a l.1 _ hold hq)
      · cases hpc.symm.trans hc
    rw [List.count_cons_of_ne (Ne.symm hne)]
    exact hp.found_step hr hs ha
  · have hne : (p, m) ≠ (k.pid, s.markerOf cfg i) := by
      intro hc
      rw [Prod.mk.injEq] at hc
      rw [← hmap, hc.1, hc.2] at hm
      exact unmarked_hit hr hpc hm
    rw [List.count_cons_of_ne (Ne.symm hne)]
    rcases hp.present_step hs hm with ha | hinst | hlt
    · exact .inl ha
    · rw [hpc] at hinst
      cases hinst
    · exact .inr hlt
  · rw [← hcounted, hp.total, List.length_cons]

/-- A prefetch that makes its page resident is recorded. -/
theorem Paid.install_step (hr : Reachable (pool cfg) s) {h : HitHistory} (hp : Paid cfg s h)
    (hs : (pool cfg).next s l = some s') {f : Filling} {m : PrefetchMarker}
    (hpc : s.pcs l.1 = .fill f (.swizzle (some m))) : Paid cfg s' (recordHit cfg h s l s') := by
  have hrecord : recordHit cfg h s l s' = { h with installs := (f.pid, m) :: h.installs } := by
    unfold recordHit
    rw [hpc]
    dsimp only
    rw [swizzle_accepts hr hpc]
  have htotal : s'.shared.prefetchHits = s.shared.prefetchHits := by
    refine step_same (f := .prefetchHits) (pool_next hs).1 ?_
    rw [hpc]
    exact nofun
  -- the list of prefetches only grows
  have hmore : ∀ q, h.installs.count q ≤ ((f.pid, m) :: h.installs).count q := fun _ =>
    List.count_le_count_cons
  rw [hrecord]
  refine ⟨fun q => ?_, fun a q ha => ?_, fun p m' hm => ?_, hp.sole_step hr hs, ?_⟩
  · exact (hp.recorded q).trans (hmore q)
  · exact (hp.found_step hr hs ha).trans_le (hmore q)
  · rcases hp.present_step hs hm with ha | hinst | hlt
    · exact .inl ha
    · rw [hpc] at hinst
      have hsame : (f.pid, m) = (p, m') := Option.some.inj hinst
      rw [← hsame, List.count_cons_self]
      exact .inr (Nat.lt_succ_of_le (hp.recorded _))
    · exact .inr (hlt.trans_le (hmore _))
  · rw [htotal]
    exact hp.total

/-- Other steps record neither a prefetch nor a hit. -/
theorem recordHit_other {h : HitHistory} (hinst : (s.pcs l.1).installing = none)
    (hhit : s.hitOf cfg l.1 = none) : (recordHit cfg h s l s').hits = h.hits ∧
      (recordHit cfg h s l s').installs = h.installs := by
  unfold recordHit
  split
  · rename_i f m hpc
    rw [hpc] at hinst
    cases hinst
  · rename_i k i hpc
    unfold PoolState.hitOf at hhit
    rw [hpc] at hhit
    cases hhit
  · split
    · exact ⟨rfl, rfl⟩
    · exact ⟨rfl, rfl⟩
  · exact ⟨rfl, rfl⟩
  · exact ⟨rfl, rfl⟩

theorem Paid.step (hr : Reachable (pool cfg) s) {h : HitHistory} (hp : Paid cfg s h)
    (hs : (pool cfg).next s l = some s') : Paid cfg s' (recordHit cfg h s l s') := by
  cases hhit : s.hitOf cfg l.1 with
  | some q =>
      rcases hitOf_eq_some hhit with ⟨k, i, hpc, -⟩
      exact hp.hit_step hr hs hpc
  | none =>
      cases hinst : (s.pcs l.1).installing with
      | some q =>
          rcases q with ⟨p, m⟩
          rcases installing_eq_some hinst with ⟨f, hpc, -⟩
          exact hp.install_step hr hs hpc
      | none =>
          have hkeep : (recordHit cfg h s l s').hits = h.hits ∧
              (recordHit cfg h s l s').installs = h.installs := recordHit_other hinst hhit
          rcases hkeep with ⟨hhits, hinstalls⟩
          have htotal : s'.shared.prefetchHits = s.shared.prefetchHits := by
            refine step_same (f := .prefetchHits) (pool_next hs).1 ?_
            rintro ⟨k, i, hpc⟩
            rw [PoolState.hitOf, hpc] at hhit
            cases hhit
          refine ⟨fun q => ?_, fun a q ha => ?_, fun p m hm => ?_, hp.sole_step hr hs, ?_⟩
          · rw [hhits, hinstalls]
            exact hp.recorded q
          · rw [hhits, hinstalls]
            exact hp.found_step hr hs ha
          · rw [hhits, hinstalls]
            rcases hp.present_step hs hm with ha | hnow | hlt
            · exact .inl ha
            · cases hinst.symm.trans hnow
            · exact .inr hlt
          · rw [htotal, hhits]
            exact hp.total

theorem paid_reachable {P : PoolState → Agent × Choice → Prop} {x : PoolState × HitHistory}
    (hr : ReachableVia (hitHistory cfg) (fun y l => P y.1 l) x) : Paid cfg x.1 x.2 := by
  refine history_invariant (J := Paid cfg) ?_ ?_ hr
  · rintro s ⟨budgets, rfl⟩
    exact ⟨fun _ => Nat.le_refl _, fun _ _ => nofun, fun _ _ => nofun, fun _ _ _ => nofun, rfl⟩
  · intro s h l s' hr hp _ hs
    exact hp.step (reachable_of_via hr) hs

/-! ### One hit for one prefetch -/

/-- A fix that has faulted, and so looks for no marker, does not pass by that
    of its frame. -/
def Heeds (cfg : Config) (s : PoolState) (l : Agent × Choice) : Prop :=
  ∀ k i, s.pcs l.1 = .fix k (.resurrect i) → k.faulted = true → k.mode.demands = true →
    s.shared.prefetched k.pid ≠ some (s.markerOf cfg i)

/-- The frames whose occupant is fixed, or about to be, have no marker. -/
structure Heeded (cfg : Config) (s : PoolState) (h : HitHistory) : Prop where
  counting : ∀ a k i, s.pcs a = .fix k (.count i) → k.mode.demands = true →
    s.shared.prefetched k.pid ≠ some (s.markerOf cfg i)
  fixed : ∀ i, h.fixed i = true → ∃ w, s.shared.store.Resides cfg w i ∧
    s.shared.prefetched (s.shared.swips w).pid ≠ some (s.markerOf cfg i)

theorem FixCtx.faulted_of_not_consumes {k : FixCtx} (h : k.consumes = false)
    (hd : k.mode.demands = true) : k.faulted = true := by
  rcases k with ⟨w, p, mode, faulted, tier⟩
  cases faulted with
  | true => rfl
  | false =>
      cases mode with
      | exclusive => cases h
      | shared hint =>
          cases hint with
          | prefetch => cases hd
          | _ => cases h

theorem Heeded.counting_step (hr : Reachable (pool cfg) s) {h : HitHistory} (hh : Heeded cfg s h)
    (hheeds : Heeds cfg s l) (hs : (pool cfg).next s l = some s') {a : Agent} {k : FixCtx}
    (hpc : s'.pcs a = .fix k (.count i)) (hd : k.mode.demands = true) :
    s'.shared.prefetched k.pid ≠ some (s'.markerOf cfg i) := by
  rcases pool_next hs with ⟨hstep, hothers⟩
  by_cases ha : a = l.1
  · subst ha
    rw [hpc] at hstep
    rcases into_count hstep with ⟨hbefore, hk⟩ | ⟨g, hbefore⟩ | hbefore
    · -- it has faulted, and the step it takes is a heeding one
      rcases fixer_resides hr hbefore rfl with ⟨hres, hpid⟩
      refine unmarked_step hr hs hres hpid (hheeds k i hbefore ?_ hd)
      exact FixCtx.faulted_of_not_consumes hk hd
    · rw [hbefore] at hstep
      have hafter : update s.shared.prefetched k.pid none = s'.shared.prefetched :=
        congrArg (fun r => r.1.prefetched) (Option.some.inj hstep)
      rw [← hafter, update_self]
      exact nofun
    · rcases fixer_resides hr hbefore rfl with ⟨hres, hpid⟩
      exact unmarked_step hr hs hres hpid (unmarked_hit hr hbefore)
  · rw [hothers a ha] at hpc
    rcases fixer_resides hr hpc rfl with ⟨hres, hpid⟩
    exact unmarked_step hr hs hres hpid (hh.counting a k i hpc hd)

/-- A frame becomes fixed when a fix is counted, and stops when it is
    emptied. -/
theorem recordHit_fixed {h : HitHistory} (hi : (recordHit cfg h s l s').fixed i = true) :
    (∃ k, s.pcs l.1 = .fix k (.count i) ∧ k.mode.demands = true) ∨
      (h.fixed i = true ∧ ∀ k t v, s.pcs l.1 = .evict k t (.unswizzle v) → t.frameIndex ≠ i) := by
  have hstay : h.fixed i = true → (∀ k t v, s.pcs l.1 ≠ .evict k t (.unswizzle v)) →
      h.fixed i = true ∧ ∀ k t v, s.pcs l.1 = .evict k t (.unswizzle v) → t.frameIndex ≠ i :=
    fun hold hnot => ⟨hold, fun k t v hpc => absurd hpc (hnot k t v)⟩
  unfold recordHit at hi
  split at hi
  · rename_i f m hpc
    refine .inr (hstay ?_ (fun k t v hc => by cases hpc.symm.trans hc))
    split at hi
    · exact hi
    · exact hi
  · rename_i k j hpc
    exact .inr (hstay hi (fun k t v hc => by cases hpc.symm.trans hc))
  · rename_i k j hpc
    have hnot : ∀ k t v, s.pcs l.1 ≠ .evict k t (.unswizzle v) :=
      fun k t v hc => by cases hpc.symm.trans hc
    split at hi
    · by_cases hij : i = j
      · rw [hij]
        exact .inl ⟨k, hpc, ‹_›⟩
      · have hold : update h.fixed j true i = true := hi
        rw [update_of_ne hij] at hold
        exact .inr (hstay hold hnot)
    · exact .inr (hstay hi hnot)
  · rename_i k t v hpc
    have hold : update h.fixed t.frameIndex false i = true := hi
    by_cases hij : i = t.frameIndex
    · rw [hij, update_self] at hold
      cases hold
    · rw [update_of_ne hij] at hold
      refine .inr ⟨hold, fun k' t' v' hc => ?_⟩
      cases hpc.symm.trans hc
      exact Ne.symm hij
  · rename_i hother
    exact .inr (hstay hi (fun k t v hc => hother k t v hc))

theorem Heeded.step (hr : Reachable (pool cfg) s) {h : HitHistory} (hh : Heeded cfg s h)
    (hheeds : Heeds cfg s l) (hs : (pool cfg).next s l = some s') :
    Heeded cfg s' (recordHit cfg h s l s') := by
  have hi := inv_reachable hr
  rcases pool_next hs with ⟨hstep, -⟩
  refine ⟨fun a k i hpc hd => hh.counting_step hr hheeds hs hpc hd, fun i hfixed => ?_⟩
  -- an occupant without a marker that stays in its frame
  have hkeep : ∀ w, s.shared.store.Resides cfg w i → s'.shared.store.Resides cfg w i →
      s.shared.prefetched (s.shared.swips w).pid ≠ some (s.markerOf cfg i) →
      ∃ w, s'.shared.store.Resides cfg w i ∧
        s'.shared.prefetched (s'.shared.swips w).pid ≠ some (s'.markerOf cfg i) := by
    intro w hres hres' hno
    refine ⟨w, hres', ?_⟩
    rw [(cell_keeps hstep (hi.bound_lt (hi.cells.occupies hres).bound)).1]
    exact unmarked_step hr hs hres rfl hno
  rcases recordHit_fixed hfixed with ⟨k, hpc, hd⟩ | ⟨hold, hnot⟩
  · rcases fixer_resides hr hpc rfl with ⟨hres, hpid⟩
    rcases hi.resides_step hstep hres with hres' | ⟨k', t, v, hc, -⟩
    · refine hkeep _ hres hres' ?_
      rw [hpid]
      exact hh.counting l.1 k i hpc hd
    · cases hpc.symm.trans hc
  · rcases hh.fixed i hold with ⟨w, hres, hno⟩
    rcases hi.resides_step hstep hres with hres' | ⟨k, t, v, hpc, -, haddr⟩
    · exact hkeep w hres hres' hno
    · have htickets : cfg.Tickets t := (unswizzle_next hr hs hpc).2.2.2
      exact absurd (cfg.residentAddr_inj (htickets.2.trans haddr)) (hnot k t v hpc)

theorem heeded_reachable {x : PoolState × HitHistory}
    (hr : ReachableVia (hitHistory cfg) (fun y l => Heeds cfg y.1 l) x) : Heeded cfg x.1 x.2 := by
  refine history_invariant (P := Heeds cfg) (J := Heeded cfg) ?_ ?_ hr
  · rintro s ⟨budgets, rfl⟩
    exact ⟨fun _ _ _ => nofun, fun _ hc => absurd hc Bool.false_ne_true⟩
  · intro s h l s' hr hh hheeds hs
    exact hh.step (reachable_of_via hr) hheeds hs

/-- A marker that names an occupied frame is that of its occupant's page. -/
theorem marker_of_occupant (hr : Reachable (pool cfg) s) {w : SwipId}
    (hres : s.shared.store.Resides cfg w i)
    (hm : s.shared.prefetched p = some (s.markerOf cfg i)) : (s.shared.swips w).pid = p := by
  have hi := inv_reachable hr
  rcases marked_reachable hr _ _ hm with ⟨j, hj, hat⟩
  have hij : i = j := cfg.residentAddr_inj (congrArg PrefetchMarker.resident hj)
  rw [← hij] at hat
  have hfree := hi.not_own_of_resides hres
  cases hat with
  | @resident w' hres' hp =>
      have hw : w = w' := hi.resident_sole hres' hres
      rw [hw]
      exact hp
  | @leaving b k t v hpc hindex _ =>
      refine absurd ?_ (hfree b)
      rw [role_at hpc, ← hindex]
      rfl
  | @arriving b f m hpc hindex _ =>
      refine absurd ?_ (hfree b)
      rw [role_at hpc, ← hindex]
      rfl

/-- Every recorded hit belongs to a prefetch of its own, and in a heeding run
    no marker outlives the first demand fix of its occupant. -/
theorem prefetch_hits_once {x x' : PoolState × HitHistory} {l : Agent × Choice}
    (hr : ReachableVia (hitHistory cfg) (fun y l => Heeds cfg y.1 l) x)
    (hs : (hitHistory cfg).next x l = some x') :
    x.1.shared.prefetchHits = x.2.hits.length ∧
      (∀ q, x.2.hits.count q ≤ x.2.installs.count q) ∧
      (∀ i, x.2.fixed i = true → ∀ p, x.1.shared.prefetched p ≠ some (x.1.markerOf cfg i)) ∧
      ∀ k i, x'.1.pcs l.1 = .fix k (.hit i) → x.2.fixed i = false := by
  have hpaid := paid_reachable hr
  have hheeded := heeded_reachable hr
  have hreach := reachable_of_via (reachableVia_fst (P := Heeds cfg) hr)
  have hgone : ∀ i, x.2.fixed i = true → ∀ p,
      x.1.shared.prefetched p ≠ some (x.1.markerOf cfg i) := by
    intro i hfixed p hm
    rcases hheeded.fixed i hfixed with ⟨w, hres, hno⟩
    rw [marker_of_occupant hreach hres hm] at hno
    exact hno hm
  refine ⟨hpaid.total, hpaid.recorded, hgone, fun k i hpc => ?_⟩
  have hstep := (pool_next (withHistory_next hs).1).1
  have hstamp := stamped_reachable hreach l.1
  rw [hpc] at hstep
  rcases into_hit hstep with ⟨g, hbefore, hfound⟩
  rw [hbefore] at hstamp
  by_contra hfixed
  refine hgone i (Bool.not_eq_false _ ▸ hfixed) k.pid ?_
  rw [hfound, PoolState.markerOf, hstamp i g rfl]

/-! ### Runs -/

/-- Page `0` is prefetched, and then fixed. -/
def prefetched : List (Agent × Choice) :=
  evicting ++ cooling 4 (.prefetch 0) 0 40 ++ cooling 5 (.fix 0 (.shared .normal)) 0 18

/-- Whether an agent is about to pass by a marker. -/
def Pc.passes : Pc → Bool
  | .fix k (.resurrect _) => k.faulted
  | _ => false

theorem heeds_of_passes (h : (s.pcs l.1).passes = false) : Heeds cfg s l := by
  intro k i hpc hf _
  rw [hpc] at h
  cases hf.symm.trans h

/-- The marker has been found, and is gone. -/
theorem prefetch_hits_once_prefetched : ∃ x x' : PoolState × HitHistory,
    Reachable (hitHistory watermarkConfig) x ∧
    (hitHistory watermarkConfig).next x (5, {}) = some x' ∧
    x.1.shared.prefetchHits = 1 ∧ x.2.hits.length = 1 ∧
    ∀ p, x.1.shared.prefetched p ≠ some (x.1.markerOf watermarkConfig 0) := by
  have hrun : (execVia (hitHistory watermarkConfig)
      (fun x l => (x.1.pcs l.1).passes = false)
      (PoolState.initial watermarkConfig (fun _ => none), ⟨[], [], fun _ => false⟩)
      prefetched).bind (fun x => ((hitHistory watermarkConfig).next x (5, {})).map (fun _ =>
        (x.2.hits.length, x.2.fixed 0))) = some (1, true) := by decide +kernel
  rcases Option.bind_eq_some_iff.mp hrun with ⟨x, hx, hrest⟩
  rcases Option.map_eq_some_iff.mp hrest with ⟨x', hnext, hsees⟩
  rw [Prod.mk.injEq] at hsees
  have hvia : ReachableVia (hitHistory watermarkConfig)
      (fun x l => (x.1.pcs l.1).passes = false) x :=
    reachableVia_exec _ _ x (ReachableVia.init ⟨⟨_, rfl⟩, rfl⟩) hx
  rcases prefetch_hits_once (hvia.mono (fun _ _ h => heeds_of_passes h)) hnext with
    ⟨htotal, -, hgone, -⟩
  exact ⟨x, x', reachable_of_via hvia, hnext, htotal.trans hsees.1, hsees.1, hgone 0 hsees.2⟩

/-- A fix waits for the prefetch of page `0` and gets its guard, and another
    fix is about to look for a marker. -/
def following : List (Agent × Choice) :=
  evicting ++ cooling 4 (.prefetch 0) 0 18 ++ cooling 5 (.fix 0 (.shared .normal)) 0 11 ++
    cooling 4 (.prefetch 0) 0 21 ++ cooling 5 (.fix 0 (.shared .normal)) 0 12 ++
    cooling 6 (.fix 0 (.shared .normal)) 0 14

/-- The frame of a live guard. -/
def Pc.liveFrame : Pc → Option Nat
  | .guard g .live => some g.index
  | _ => none

/-- The frame of a prefetch hit that is about to be counted. -/
def Pc.hitFrame : Pc → Option Nat
  | .fix _ (.hit i) => some i
  | _ => none

/-- The second fix of the occupant is counted as a prefetch hit. -/
theorem prefetch_hits_repeat : ∃ x x' : PoolState × HitHistory,
    Reachable (hitHistory watermarkConfig) x ∧
    (hitHistory watermarkConfig).next x (6, {}) = some x' ∧
    (∃ g, x.1.pcs 5 = .guard g .live ∧ g.index = 0) ∧ x.2.fixed 0 = true ∧
    ∃ k, x'.1.pcs 6 = .fix k (.hit 0) := by
  have hrun : (exec (hitHistory watermarkConfig)
      (PoolState.initial watermarkConfig (fun _ => none), ⟨[], [], fun _ => false⟩)
      following).bind (fun x => ((hitHistory watermarkConfig).next x (6, {})).map (fun x' =>
        ((x.1.pcs 5).liveFrame, x.2.fixed 0, (x'.1.pcs 6).hitFrame))) =
      some (some 0, true, some 0) := by decide +kernel
  rcases Option.bind_eq_some_iff.mp hrun with ⟨x, hx, hrest⟩
  rcases Option.map_eq_some_iff.mp hrest with ⟨x', hnext, hsees⟩
  simp only [Prod.mk.injEq] at hsees
  rcases hsees with ⟨hguard, hfixed, hhit⟩
  refine ⟨x, x', reachable_exec _ _ x (ReachableVia.init ⟨⟨_, rfl⟩, rfl⟩) hx, hnext, ?_, hfixed, ?_⟩
  · unfold Pc.liveFrame at hguard
    split at hguard
    · rename_i g hpc
      exact ⟨g, hpc, Option.some.inj hguard⟩
    · cases hguard
  · unfold Pc.hitFrame at hhit
    split at hhit
    · rename_i k i hpc
      rw [Option.some.inj hhit] at hpc
      exact ⟨k, hpc⟩
    · cases hhit

end TierBuf
