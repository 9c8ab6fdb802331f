import TierBuf.Pool.Contents
import TierBuf.Pool.Ticket

/-!
# Write Fallback

The loop of `evict_ticket` over the tiers.

The policy names a tier, and the loop goes on from there towards the colder
ones until a tier takes the page. A tier that has a write budget is asked for
it first. What it has granted is spent when the write fails, so a budget goes
down with every write that was tried, and not with every write that has
succeeded.

## Main definitions

* `TierScan`, `recordScan`: Where the loop of an agent has started, and which
  tiers have refused the page since.
* `writeEvent`: The writes of a run, with their outcomes.
* `Pc.spends`: The tier that an agent is about to write.

## Theorems

* `tier_fallback`: An error means that all tiers from the start have refused.
* `spend_exec`: Budgets pay for the writes that were tried.
* `budget_exact_iff`: They are exact if and only if no write has failed.
-/

namespace TierBuf

open Function Ledger Transition

variable {cfg : Config} {sh sh' : Shared} {c : Choice} {a : Agent} {pc pc' : Pc}
  {s s' : PoolState} {l : Agent × Choice}

/-! ### The scan over the tiers -/

/-- The first tier of a scan, and the tiers that have refused the page. -/
structure TierScan where
  start : Nat
  refused : List Nat

/-- The first tier: the answer of the policy if it is a tier, else the first
    one. -/
def Config.firstTier (cfg : Config) (pick : Option Nat) : Nat :=
  (pick.filter (fun index => index < cfg.tiers.length)).getD 0

/-- The scan of an agent after a step. It begins with the answer of the policy,
    and a tier refuses the page if its budget does not have a page or if its
    write returns an error. -/
def TierScan.after (cfg : Config) (sh : Shared) (c : Choice) (scan : TierScan) : Pc → TierScan
  | .evict _ _ (.target _) => ⟨cfg.firstTier c.pick, []⟩
  | .evict _ _ (.tier _ index _) => match cfg.tiers[index]?, sh.budgets index with
    | some _, some available =>
      if PAGE_SIZE ≤ available then scan else { scan with refused := index :: scan.refused }
    | _, _ => scan
  | .evict _ _ (.write _ index _) =>
    if c.ok then scan else { scan with refused := index :: scan.refused }
  | _ => scan

def recordScan (cfg : Config) (h : Agent → TierScan) (s : PoolState) (l : Agent × Choice)
    (_ : PoolState) : Agent → TierScan :=
  update h l.1 ((h l.1).after cfg s.shared l.2 (s.pcs l.1))

/-- A buffer manager that remembers the scans. -/
def scanHistory (cfg : Config) : System (PoolState × (Agent → TierScan)) (Agent × Choice) :=
  (pool cfg).withHistory (fun _ => ⟨0, []⟩) (recordScan cfg)

/-- Every tier of the scan below `n` has refused the page. -/
def TierScan.Refused (scan : TierScan) (n : Nat) : Prop :=
  scan.start ≤ n ∧ ∀ i, scan.start ≤ i → i < n → i ∈ scan.refused

/-- What the scan of an agent says of its program point. -/
def Scanned (cfg : Config) (scan : TierScan) : Pc → Prop
  | .evict _ _ (.tier _ index _) | .evict _ _ (.write _ index _) =>
    scan.start < cfg.tiers.length ∧ scan.Refused index
  | .evict _ _ (.unwritten _ _) | .evict _ _ (.exitUnlatch (.error _))
  | .evict _ _ (.exitRelease (.error _)) =>
    scan.start < cfg.tiers.length ∧ scan.Refused cfg.tiers.length
  | _ => True

variable {scan : TierScan}

/-- Nothing is said of an agent outside of `evict_ticket`. -/
theorem scanned_outside (h : pc.evicts = false) : Scanned cfg scan pc := by
  cases pc with
  | evict k t st => cases h
  | _ => trivial

theorem TierScan.Refused.next {n : Nat} (h : scan.Refused n) :
    { scan with refused := n :: scan.refused }.Refused (n + 1) := by
  refine ⟨Nat.le_succ_of_le h.1, fun i hstart hi => ?_⟩
  by_cases hn : i = n
  · rw [hn]
    exact List.mem_cons_self
  · exact List.mem_cons_of_mem _ (h.2 i hstart (by omega))

theorem TierScan.Refused.below {n m : Nat} (h : scan.Refused n) (hstart : scan.start < m)
    (hm : m ≤ n) : scan.Refused m :=
  ⟨Nat.le_of_lt hstart, fun i hi hlt => h.2 i hi (Nat.lt_of_lt_of_le hlt hm)⟩

theorem firstTier_lt (pick : Option Nat) : cfg.firstTier pick < cfg.tiers.length := by
  have hpos : 0 < cfg.tiers.length := List.length_pos_of_ne_nil cfg.tiers_pos
  unfold Config.firstTier
  cases pick with
  | none => exact hpos
  | some n =>
      by_cases hn : n < cfg.tiers.length
      · rw [Option.filter_some_pos (by exact decide_eq_true hn), Option.getD_some]
        exact hn
      · rw [Option.filter_some_neg (by exact decide_eq_false hn)]
        exact hpos

/-- Every step of the scan leaves the refused tiers behind. -/
theorem scanned_step (hs : sh.step cfg c a pc = some (sh', pc')) (h : Scanned cfg scan pc) :
    Scanned cfg (scan.after cfg sh c pc) pc' := by
  by_cases hout : pc'.evicts = false
  · exact scanned_outside hout
  · cases pc' with
    | evict k t st' =>
        rcases into_evict hs with ⟨st, rfl, hedge⟩ | rfl
        · cases hedge with
          | @tier v index =>
              cases hs
              refine ⟨firstTier_lt c.pick, Nat.le_refl _, fun i hstart hi => ?_⟩
              exact absurd hstart (Nat.not_le.mpr hi)
          | @exhausted v index err e =>
              dsimp only [Shared.step, Shared.stepEvict] at hs
              cases hget : cfg.tiers[index]? with
              | none =>
                  have hlen := List.getElem?_eq_none_iff.mp hget
                  dsimp only [TierScan.after]
                  rw [hget]
                  exact ⟨h.1, h.2.below h.1 hlen⟩
              | some name =>
                  rw [hget] at hs
                  dsimp only at hs
                  split at hs
                  · cases hs
                  · split at hs <;> cases hs
          | @write v index err =>
              dsimp only [Shared.step, Shared.stepEvict] at hs
              dsimp only [TierScan.after]
              split at hs
              · cases hs
              · rename_i name hget
                rw [hget]
                split at hs
                · rename_i hbudget
                  rw [hbudget]
                  exact h
                · rename_i available hbudget
                  rw [hbudget]
                  split at hs
                  · rename_i hle
                    dsimp only
                    rw [if_pos hle]
                    exact h
                  · cases hs
          | @denied v index err err' =>
              dsimp only [Shared.step, Shared.stepEvict] at hs
              dsimp only [TierScan.after]
              split at hs
              · cases hs
              · rename_i name hget
                rw [hget]
                split at hs
                · cases hs
                · rename_i available hbudget
                  rw [hbudget]
                  split at hs
                  · cases hs
                  · rename_i hle
                    dsimp only
                    rw [if_neg hle]
                    exact ⟨h.1, h.2.next⟩
          | @failed v index err err' =>
              dsimp only [Shared.step, Shared.stepEvict] at hs
              dsimp only [TierScan.after]
              split at hs
              · split at hs <;> cases hs
              · rename_i hok
                rw [if_neg hok]
                exact ⟨h.1, h.2.next⟩
          | unwritten => exact h
          | @exitRelease r =>
              cases r with
              | ok outcome => trivial
              | error e => exact h
          | _ => trivial
        · trivial
    | _ => exact absurd rfl hout

theorem scanned_reachable {x : PoolState × (Agent → TierScan)}
    (hr : Reachable (scanHistory cfg) x) (a : Agent) : Scanned cfg (x.2 a) (x.1.pcs a) := by
  refine history_invariant (M := pool cfg) (P := fun _ _ => True)
    (J := fun s h => ∀ a, Scanned cfg (h a) (s.pcs a)) ?_ (fun s h l s' _ hi _ hs b => ?_) hr a
  · rintro s ⟨budgets, rfl⟩ b
    trivial
  · rcases pool_next hs with ⟨hstep, hothers⟩
    unfold recordScan
    by_cases hb : b = l.1
    · rw [hb, update_self]
      exact scanned_step hstep (hi l.1)
    · rw [update_of_ne hb, hothers b hb]
      exact hi b

/-- An `evict_ticket` that returns a tier error has been refused by every tier
    from the answer of the policy on. -/
theorem tier_fallback {x : PoolState × (Agent → TierScan)} (hr : Reachable (scanHistory cfg) x)
    {k : EvictCtx} {t : CoolingTicket} {e : TierBufError}
    (ha : x.1.pcs a = .evict k t (.exitRelease (.error e))) :
    (x.2 a).start < cfg.tiers.length ∧
      ∀ i, (x.2 a).start ≤ i → i < cfg.tiers.length → i ∈ (x.2 a).refused := by
  have hscan := scanned_reachable hr a
  rw [ha] at hscan
  exact ⟨hscan.1, hscan.2.2⟩

/-- A manager with two tiers. -/
def twoTiers : Config := { sampleConfig with tiers := ["warm", "cold"], tiers_pos := by decide }

/-- A page is allocated, and a shutdown asks the policy for a tier. -/
def targeting : List (Agent × Choice) :=
  allocation ++ [(0, { act := .drop }), (0, { act := .drop })] ++ runOf 1 .shutdown 23

/-- The policy answers the cold tier, and its write fails. -/
def coldOnly : List (Agent × Choice) :=
  targeting ++ (1, { pick := some 1 }) :: List.replicate 5 (1, { ok := false })

/-- An `evict_ticket` that is about to return an error. -/
def Pc.erring : Pc → Bool
  | .evict _ _ (.exitRelease (.error _)) => true
  | _ => false

theorem eq_of_erring (h : pc.erring = true) : ∃ k t e, pc = .evict k t (.exitRelease (.error e)) := by
  cases pc with
  | evict k t st =>
      cases st with
      | exitRelease r =>
          cases r with
          | ok outcome => cases h
          | error e => exact ⟨k, t, e, rfl⟩
      | _ => cases h
  | _ => cases h

theorem coldOnly_runs : ∃ x, Reachable (scanHistory twoTiers) x ∧ (x.1.pcs 1).erring = true ∧
    (x.2 1).start = 1 ∧ (x.2 1).refused = [1] := by
  have hrun : (exec (scanHistory twoTiers)
      (PoolState.initial twoTiers (fun _ => none), fun _ => ⟨0, []⟩) coldOnly).map (fun x =>
        ((x.1.pcs 1).erring, (x.2 1).start, (x.2 1).refused)) = some (true, 1, [1]) := by
    decide +kernel
  rcases Option.map_eq_some_iff.mp hrun with ⟨x, hx, hsees⟩
  simp only [Prod.mk.injEq] at hsees
  exact ⟨x, reachable_exec _ _ x (ReachableVia.init ⟨⟨_, rfl⟩, rfl⟩) hx, hsees⟩

/-- The cold tier has refused the page. -/
theorem tier_fallback_coldOnly : ∃ x, Reachable (scanHistory twoTiers) x ∧
    (x.2 1).start = 1 ∧ 1 ∈ (x.2 1).refused := by
  rcases coldOnly_runs with ⟨x, hr, herr, hstart, -⟩
  rcases eq_of_erring herr with ⟨k, t, e, ha⟩
  exact ⟨x, hr, hstart, (tier_fallback hr ha).2 1 (Nat.le_of_eq hstart) (by decide)⟩

/-- The warm tier has not been asked. -/
theorem tier_fallback_warm : ¬ ∀ (x : PoolState × (Agent → TierScan)) (a : Agent) (k : EvictCtx)
    (t : CoolingTicket) (e : TierBufError), Reachable (scanHistory twoTiers) x →
    x.1.pcs a = .evict k t (.exitRelease (.error e)) →
    ∀ i, i < twoTiers.tiers.length → i ∈ (x.2 a).refused := by
  intro hall
  rcases coldOnly_runs with ⟨x, hr, herr, -, hrefused⟩
  rcases eq_of_erring herr with ⟨k, t, e, ha⟩
  have hwarm := hall x 1 k t e hr ha 0 (by decide)
  rw [hrefused, List.mem_singleton] at hwarm
  cases hwarm

/-! ### The charge on budgets -/

/-- The tier that an agent is about to write. -/
def Pc.spends : Pc → Option Nat
  | .evict _ _ (.write _ index _) => some index
  | _ => none

/-- A call that refills no budget. -/
def Call.refills : Call → Bool
  | .tick _ _ => true
  | _ => false

/-- The tier that is written in a step, and whether the write succeeds. -/
def writeEvent (s : PoolState) (l : Agent × Choice) : Option (Nat × Bool) :=
  (s.pcs l.1).spends.map (fun index => (index, l.2.ok))

/-- The writes of a run. -/
def writeEvents (cfg : Config) (s : PoolState) (ls : List (Agent × Choice)) : List (Nat × Bool) :=
  observe (pool cfg) writeEvent s ls

theorem spends_evict {k : EvictCtx} {t : CoolingTicket} {st : EvictStage}
    (h : ∀ v index err, st ≠ .write v index err) : (Pc.evict k t st).spends = none := by
  cases st with
  | write v index err => exact absurd rfl (h v index err)
  | _ => rfl

/-- Only the loop over the tiers leads to a write. -/
theorem spends_next (hs : sh.step cfg c a pc = some (sh', pc'))
    (htier : ∀ k t v index err, pc ≠ .evict k t (.tier v index err)) : pc'.spends = none := by
  cases hpc : pc' with
  | evict k t st' =>
      rw [hpc] at hs
      refine spends_evict (fun v index err hst => ?_)
      rw [hst] at hs
      rcases into_evict hs with ⟨st, rfl, hedge⟩ | hfirst
      · cases hedge
        exact htier k t v index err rfl
      · cases hfirst
  | _ => rfl

/-- A step that begins no write of a tier leaves its budget alone, and one that
    does has taken a page out of it. -/
theorem spend_local {t b : Nat} (hs : sh.step cfg c a pc = some (sh', pc'))
    (hl : c.call.refills = false) (hb : sh.budgets t = some b) :
    (sh'.budgets t = some b ∧ pc'.spends ≠ some t) ∨
      (pc.spends = none ∧ pc'.spends = some t ∧
        ∃ b', sh'.budgets t = some b' ∧ b' + PAGE_SIZE = b) := by
  by_cases htier : ∃ k tk v index err, pc = .evict k tk (.tier v index err)
  · rcases htier with ⟨k, tk, v, index, err, rfl⟩
    dsimp only [Shared.step, Shared.stepEvict] at hs
    split at hs
    · cases hs
      exact .inl ⟨hb, by rintro ⟨⟩⟩
    · split at hs
      · rename_i hnone
        cases hs
        refine .inl ⟨hb, ?_⟩
        intro hc
        cases hc
        cases hnone.symm.trans hb
      · rename_i available hbudget
        split at hs
        · rename_i hle
          cases hs
          by_cases ht : index = t
          · subst ht
            cases hbudget.symm.trans hb
            refine .inr ⟨rfl, rfl, b - PAGE_SIZE, update_self _ _ _, Nat.sub_add_cancel hle⟩
          · refine .inl ⟨(update_of_ne (Ne.symm ht) _ _).trans hb, ?_⟩
            intro hc
            exact ht (Option.some.inj hc)
        · cases hs
          exact .inl ⟨hb, by rintro ⟨⟩⟩
  · have hnone : pc'.spends = none :=
      spends_next hs (fun k tk v index err hpc => htier ⟨k, tk, v, index, err, hpc⟩)
    refine .inl ⟨?_, by rw [hnone]; rintro ⟨⟩⟩
    by_cases hw : Field.Writer pc .budgets
    · rcases hw with rfl | ⟨k, tk, v, index, err, hpc⟩
      · rw [Shared.step, Shared.stepIdle] at hs
        cases hcall : c.call with
        | tick tier added =>
            rw [hcall] at hl
            cases hl
        | fix s mode =>
            rw [hcall] at hs
            dsimp only at hs
            split at hs <;> cases hs
            exact hb
        | prefetch s =>
            rw [hcall] at hs
            dsimp only at hs
            split at hs <;> cases hs
            exact hb
        | cooler =>
            rw [hcall] at hs
            dsimp only at hs
            split at hs <;> cases hs
            exact hb
        | _ =>
            rw [hcall] at hs
            cases hs
            exact hb
      · exact absurd ⟨k, tk, v, index, err, hpc⟩ htier
    · have hsame : sh'.budgets = sh.budgets := step_same (f := .budgets) hs hw
      rw [hsame]
      exact hb

/-- The agents that are about to write a tier. -/
abbrev PoolState.spenders (s : PoolState) (a : Agent) : Option Nat := (s.pcs a).spends

/-- The writes of a tier that a step makes. -/
theorem count_event {t : Nat} : (writeEvent s l).toList.countP (fun e => e.1 = t) =
    if (s.pcs l.1).spends = some t then 1 else 0 := by
  unfold writeEvent
  cases hspend : (s.pcs l.1).spends with
  | none => rfl
  | some index =>
      by_cases ht : index = t
      · simp [ht]
      · simp [ht]

/-- One step pays for the write that it begins. -/
theorem spend_step {t b n : Nat} (hs : (pool cfg).next s l = some s')
    (hl : l.2.call.refills = false) (hb : s.shared.budgets t = some b)
    (hn : tally s.spenders t = n) :
    ∃ b' n', s'.shared.budgets t = some b' ∧ tally s'.spenders t = (n' : ℕ) ∧
      b' + PAGE_SIZE * ((writeEvent s l).toList.countP (fun e => e.1 = t) + n') =
        b + PAGE_SIZE * n := by
  rcases pool_next hs with ⟨hstep, hothers⟩
  have hother : ∀ x, x ≠ l.1 → s'.spenders x = s.spenders x := by
    intro x hx
    exact congrArg Pc.spends (hothers x hx)
  rw [count_event]
  rcases spend_local hstep hl hb with ⟨hkeep, hnot⟩ | ⟨hnone, hspend, b', hpaid, hsum⟩
  · by_cases hself : (s.pcs l.1).spends = some t
    · -- the write that was paid for has been made
      have hrelease := tally_release hother hself hnot
      rw [hn] at hrelease
      have hfin : tally s'.spenders t ≠ ⊤ := by
        intro hc
        rw [hc, top_add] at hrelease
        cases hrelease
      rcases ENat.ne_top_iff_exists.mp hfin with ⟨n', hn'⟩
      rw [← hn'] at hrelease
      have hcount : n = n' + 1 := by exact_mod_cast hrelease
      refine ⟨b, n', hkeep, hn'.symm, ?_⟩
      rw [if_pos hself, hcount, Nat.add_comm 1 n']
    · refine ⟨b, n, hkeep, (tally_other hother hself hnot).trans hn, ?_⟩
      rw [if_neg hself, Nat.zero_add]
  · have hself : (s.pcs l.1).spends ≠ some t := by
      rw [hnone]
      rintro ⟨⟩
    have hacquire := tally_acquire hother hself hspend
    rw [hn] at hacquire
    refine ⟨b', n + 1, hpaid, by exact_mod_cast hacquire, ?_⟩
    rw [if_neg hself, Nat.zero_add, Nat.mul_add]
    omega

/-- A run pays for all writes that it tries. -/
theorem spend_exec {t b n : Nat} (ls : List (Agent × Choice))
    (hs : exec (pool cfg) s ls = some s') (hl : ∀ l ∈ ls, l.2.call.refills = false)
    (hb : s.shared.budgets t = some b) (hn : tally s.spenders t = n) :
    ∃ b' n', s'.shared.budgets t = some b' ∧ tally s'.spenders t = (n' : ℕ) ∧
      b' + PAGE_SIZE * ((writeEvents cfg s ls).countP (fun e => e.1 = t) + n') =
        b + PAGE_SIZE * n := by
  induction ls generalizing s b n with
  | nil =>
      cases hs
      exact ⟨b, n, hb, hn, by rw [writeEvents, observe, List.countP_nil, Nat.zero_add]⟩
  | cons l ls ih =>
      rw [exec] at hs
      split at hs
      · cases hs
      · rename_i s1 hnext
        rcases spend_step hnext (hl l List.mem_cons_self) hb hn with ⟨b1, n1, hb1, hn1, hsum1⟩
        rcases ih hs (fun l hmem => hl l (List.mem_cons_of_mem _ hmem)) hb1 hn1 with
          ⟨b', n', hb', hn', hsum⟩
        refine ⟨b', n', hb', hn', ?_⟩
        have hevents : writeEvents cfg s (l :: ls) =
            (writeEvent s l).toList ++ writeEvents cfg s1 ls := by
          unfold writeEvents
          rw [observe, hnext]
        rw [hevents, List.countP_append]
        linarith

/-- The successful writes and the failed writes of a tier. -/
def writesOf (es : List (Nat × Bool)) (t : Nat) (ok : Bool) : Nat := es.count (t, ok)

theorem count_writes (es : List (Nat × Bool)) (t : Nat) :
    es.countP (fun e => e.1 = t) = writesOf es t true + writesOf es t false := by
  induction es with
  | nil => rfl
  | cons e es ih =>
      rcases e with ⟨t', ok⟩
      unfold writesOf at ih ⊢
      rw [List.countP_cons, List.count_cons, List.count_cons, ih]
      by_cases ht : t' = t
      · cases ok <;> simp [ht] <;> omega
      · simp [ht]

/-- No agent is about to write the tier. -/
def PoolState.Unspent (s : PoolState) (t : Nat) : Prop := ∀ a, (s.pcs a).spends ≠ some t

/-- In a run without a tick the budget of a tier goes down by a page for every
    write of it, and so by what has been written if and only if no write of
    the tier has failed. -/
theorem budget_exact_iff {t b : Nat} (ls : List (Agent × Choice))
    (hs : exec (pool cfg) s ls = some s') (hl : ∀ l ∈ ls, l.2.call.refills = false)
    (hb : s.shared.budgets t = some b) (h0 : s.Unspent t) (h1 : s'.Unspent t) :
    ∃ b', s'.shared.budgets t = some b' ∧
      (b = b' + PAGE_SIZE * writesOf (writeEvents cfg s ls) t true ↔
        writesOf (writeEvents cfg s ls) t false = 0) := by
  have hzero : tally s.spenders t = (0 : ℕ) := tally_eq_zero.mpr h0
  rcases spend_exec ls hs hl hb hzero with ⟨b', n', hb', hn', hsum⟩
  have hnone : n' = 0 := by
    have hz := tally_eq_zero.mpr h1
    rw [show tally s'.spenders t = (n' : ℕ) from hn'] at hz
    exact_mod_cast hz
  have hpage : 0 < PAGE_SIZE := by decide
  refine ⟨b', hb', ?_⟩
  rw [count_writes, hnone, Nat.mul_zero, Nat.add_zero, Nat.add_zero, Nat.mul_add] at hsum
  constructor
  · intro hexact
    have hfail : PAGE_SIZE * writesOf (writeEvents cfg s ls) t false = 0 := by omega
    exact (Nat.mul_eq_zero.mp hfail).resolve_left (Nat.ne_of_gt hpage)
  · intro hfail
    rw [hfail, Nat.mul_zero] at hsum
    omega

/-- The only tier fails to take the page, and the shutdown returns the error. -/
def failing : List (Agent × Choice) := targeting ++ List.replicate 9 (1, { ok := false })

/-- In a run of two agents the others are about to write nothing. -/
theorem unspent_run {budgets : Nat → Option Nat} {ls : List (Agent × Choice)} {t : Nat}
    (hs : exec (pool sampleConfig) (PoolState.initial sampleConfig budgets) ls = some s')
    (hagents : ∀ l ∈ ls, l.1 = 0 ∨ l.1 = 1) (h0 : (s'.pcs 0).spends = none)
    (h1 : (s'.pcs 1).spends = none) : s'.Unspent t := by
  intro a
  by_cases ha0 : a = 0
  · rw [ha0, h0]
    rintro ⟨⟩
  · by_cases ha1 : a = 1
    · rw [ha1, h1]
      rintro ⟨⟩
    · have hidle : s'.pcs a = .idle := by
        refine exec_others ls _ _ (fun l hl => ?_) hs
        rcases hagents l hl with hl | hl <;> rw [hl]
        · exact Ne.symm ha0
        · exact Ne.symm ha1
      rw [hidle]
      rintro ⟨⟩

/-- Two pages of budget for every tier. -/
def twoPages : Nat → Option Nat := fun _ => some (2 * PAGE_SIZE)

/-- A run from a new manager, with its writes and the budget that is left. -/
def budgetRun (ls : List (Agent × Choice)) : Option (List (Nat × Bool) × Option Nat × Bool) :=
  (exec (pool sampleConfig) (PoolState.initial sampleConfig twoPages) ls).map (fun s' =>
    (writeEvents sampleConfig (PoolState.initial sampleConfig twoPages) ls, s'.shared.budgets 0,
      (s'.pcs 0).spends.isNone && (s'.pcs 1).spends.isNone))

/-- The only tier takes the page, and the shutdown goes on. -/
def succeeding : List (Agent × Choice) := targeting ++ List.replicate 25 (1, { ok := true })

/-- The page of a shutdown is paid for. -/
theorem budget_exact_iff_shutdown : ∃ s' b',
    exec (pool sampleConfig) (PoolState.initial sampleConfig twoPages) succeeding = some s' ∧
    s'.shared.budgets 0 = some b' ∧
    2 * PAGE_SIZE = b' + PAGE_SIZE * 1 := by
  have hrun : budgetRun succeeding = some ([(0, true)], some PAGE_SIZE, true) := by decide +kernel
  rcases Option.map_eq_some_iff.mp hrun with ⟨s', hs, hsees⟩
  simp only [Prod.mk.injEq, Bool.and_eq_true, Option.isNone_iff_eq_none] at hsees
  rcases hsees with ⟨hevents, -, h0, h1⟩
  have hagents : ∀ l ∈ succeeding, (l.1 = 0 ∨ l.1 = 1) ∧ l.2.call.refills = false := by
    decide +kernel
  have hend : s'.Unspent 0 := unspent_run hs (fun l hl => (hagents l hl).1) h0 h1
  rcases budget_exact_iff _ hs (fun l hl => (hagents l hl).2) (t := 0) rfl
    (by rintro a ⟨⟩) hend with ⟨b', hb', hexact⟩
  rw [hevents] at hexact
  exact ⟨s', b', hs, hb', hexact.mpr rfl⟩

/-- A write that has failed is paid for as well. -/
theorem budget_exact_fails : ∃ s', exec (pool sampleConfig)
    (PoolState.initial sampleConfig twoPages) failing = some s' ∧
    (∀ l ∈ failing, l.2.call.refills = false) ∧ s'.Unspent 0 ∧
    writesOf (writeEvents sampleConfig (PoolState.initial sampleConfig twoPages) failing) 0 true = 0 ∧
    s'.shared.budgets 0 = some PAGE_SIZE := by
  have hrun : budgetRun failing = some ([(0, false)], some PAGE_SIZE, true) := by decide +kernel
  rcases Option.map_eq_some_iff.mp hrun with ⟨s', hs, hsees⟩
  simp only [Prod.mk.injEq, Bool.and_eq_true, Option.isNone_iff_eq_none] at hsees
  rcases hsees with ⟨hevents, hleft, h0, h1⟩
  have hagents : ∀ l ∈ failing, (l.1 = 0 ∨ l.1 = 1) ∧ l.2.call.refills = false := by decide +kernel
  refine ⟨s', hs, fun l hl => (hagents l hl).2, unspent_run hs (fun l hl => (hagents l hl).1) h0 h1,
    ?_, hleft⟩
  rw [hevents]
  rfl

end TierBuf
