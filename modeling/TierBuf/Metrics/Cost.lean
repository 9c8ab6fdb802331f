import TierBuf.OrderedMap
import TierBuf.Policy.Economic

/-!
# Residency Cost

What it costs to keep pages where they are.

Time comes in intervals. At the end of one the accumulator is told how long it
was, how many bytes were in memory and how many in every tier and at what
price, and adds to one pair of sums for memory and to one for every name of a
tier. The report prices the same residency a second time, as if all of it had
been in memory.

An interval is a list of charges, and the sums are sums of charges. This is
where the results come from: they are about sums, and a run is the list of the
charges of its intervals.

Floating-point numbers are rationals here, so that the order of additions does
not matter.

## Main definitions

* `ResidencyCost`: The accumulator.
* `ResidencyCost.tick`: The integration of one interval.
* `ResidencyCost.report`: The report.
* `Charge`: The residency of one interval in one place.

## Theorems

* `tick_ok`: An interval is the list of its charges.
* `cost_report_exact`: The report of a run is the sum of its charges.
* `tick_add`: An interval may be cut in two.
* `cost_report_bounds`: Tiers that are no dearer than memory never cost more.
-/

namespace TierBuf

/-- `BYTES_PER_GIB`. -/
def BYTES_PER_GIB : ℚ := 1024 * 1024 * 1024

/-- `SECONDS_PER_MONTH`. -/
def SECONDS_PER_MONTH : ℚ := 30 * 24 * 60 * 60

/-- `DRAM_TIER_NAME`. -/
def DRAM_TIER_NAME : String := "dram"

/-- `gib_seconds`. -/
def gibSeconds (bytes : Nat) (elapsedSeconds : ℚ) : ℚ :=
  bytes / BYTES_PER_GIB * elapsedSeconds

/-- `monthly_cost`. -/
def monthlyCost (gibSeconds priceGibMonth : ℚ) : ℚ :=
  gibSeconds * priceGibMonth / SECONDS_PER_MONTH

/-- `Duration::as_secs_f64` of a number of nanoseconds. -/
def asSecs (elapsed : Nat) : ℚ := elapsed / 10 ^ 9

/-! ### The accumulator -/

structure TierResidencySample where
  name : String
  usedBytes : Nat
  priceGibMonth : F64

@[ext] structure CostAccumulator where
  gibSeconds : ℚ
  costUsd : ℚ

namespace CostAccumulator

instance : Zero CostAccumulator := ⟨⟨0, 0⟩⟩

instance : Add CostAccumulator := ⟨fun x y => ⟨x.gibSeconds + y.gibSeconds, x.costUsd + y.costUsd⟩⟩

@[simp] theorem gibSeconds_zero : (0 : CostAccumulator).gibSeconds = 0 := rfl

@[simp] theorem costUsd_zero : (0 : CostAccumulator).costUsd = 0 := rfl

@[simp] theorem gibSeconds_add (x y : CostAccumulator) :
    (x + y).gibSeconds = x.gibSeconds + y.gibSeconds := rfl

@[simp] theorem costUsd_add (x y : CostAccumulator) : (x + y).costUsd = x.costUsd + y.costUsd := rfl

instance : AddCommMonoid CostAccumulator where
  add_assoc x y z := by ext <;> simp [add_assoc]
  zero_add x := by ext <;> simp
  add_zero x := by ext <;> simp
  add_comm x y := by ext <;> simp [add_comm]
  nsmul := nsmulRec

end CostAccumulator

@[ext] structure ResidencyCost where
  dramPriceGibMonth : {value : ℚ // 0 ≤ value}
  dram : CostAccumulator
  lowerTiers : OrderedMap String CostAccumulator
  allDramCostUsd : ℚ

/-- The assertions of `tick`. -/
inductive CostPanic where
  | emptyName
  | invalidPrice
  deriving DecidableEq

namespace ResidencyCost

/-- `ResidencyCost::new`, or `none` where `assert_valid_price` panics. -/
def new (dramPriceGibMonth : F64) : Option ResidencyCost :=
  dramPriceGibMonth.nonNegative.map (fun price => ⟨price, 0, .empty, 0⟩)

/-- The loop over the samples, with the sum of all residency so far. A panic
    leaves the samples before it accounted for. -/
def samples (elapsedSeconds : ℚ) : ResidencyCost → ℚ → List TierResidencySample →
    Except (CostPanic × ResidencyCost) (ResidencyCost × ℚ)
  | c, all, [] => .ok (c, all)
  | c, all, sample :: rest =>
      if sample.name = "" then .error (.emptyName, c)
      else match sample.priceGibMonth.nonNegative with
        | none => .error (.invalidPrice, c)
        | some price =>
            let sampleGibSeconds := gibSeconds sample.usedBytes elapsedSeconds
            samples elapsedSeconds { c with
              lowerTiers := c.lowerTiers.adjust sample.name 0
                (· + ⟨sampleGibSeconds, monthlyCost sampleGibSeconds price⟩) }
              (all + sampleGibSeconds) rest

/-- `ResidencyCost::tick`. -/
def tick (c : ResidencyCost) (elapsed dramUsedBytes : Nat) (lowerTiers : List TierResidencySample) :
    Except (CostPanic × ResidencyCost) ResidencyCost :=
  let elapsedSeconds := asSecs elapsed
  if elapsedSeconds = 0 then .ok c
  else
    let dramGibSeconds := gibSeconds dramUsedBytes elapsedSeconds
    let c := { c with
      dram := c.dram + ⟨dramGibSeconds, monthlyCost dramGibSeconds c.dramPriceGibMonth⟩ }
    match samples elapsedSeconds c dramGibSeconds lowerTiers with
    | .error e => .error e
    | .ok (c, all) => .ok { c with
        allDramCostUsd := c.allDramCostUsd + monthlyCost all c.dramPriceGibMonth }

end ResidencyCost

/-! ### The report -/

structure TierCost where
  name : String
  gibSeconds : ℚ
  costUsd : ℚ
  averagePriceGibMonth : ℚ
  deriving DecidableEq

structure CostReport where
  tiers : List TierCost
  actualCostUsd : ℚ
  allDramCostUsd : ℚ
  deriving DecidableEq

/-- `to_tier_cost`. -/
def toTierCost (name : String) (a : CostAccumulator) : TierCost where
  name := name
  gibSeconds := a.gibSeconds
  costUsd := a.costUsd
  averagePriceGibMonth :=
    if a.gibSeconds = 0 then 0 else a.costUsd * SECONDS_PER_MONTH / a.gibSeconds

/-- `ResidencyCost::report`. -/
def ResidencyCost.report (c : ResidencyCost) : CostReport :=
  let tiers := toTierCost DRAM_TIER_NAME c.dram ::
    c.lowerTiers.entries.map (fun x => toTierCost x.1 x.2)
  { tiers := tiers
    actualCostUsd := (tiers.map TierCost.costUsd).sum
    allDramCostUsd := c.allDramCostUsd }

/-- `CostReport::actual_to_all_dram_ratio`. -/
def CostReport.actualToAllDramRatio (r : CostReport) : Option ℚ :=
  if 0 < r.allDramCostUsd then some (r.actualCostUsd / r.allDramCostUsd) else none

/-! ### Charges -/

/-- The residency of some time in one place, memory or a tier, at a price. -/
structure Charge where
  tier : Option String
  gibSeconds : ℚ
  price : ℚ

def Charge.amount (x : Charge) : CostAccumulator :=
  ⟨x.gibSeconds, monthlyCost x.gibSeconds x.price⟩

/-- What the charges come to in one place. -/
def amountAt (t : Option String) (xs : List Charge) : CostAccumulator :=
  ((xs.filter (fun x => x.tier = t)).map Charge.amount).sum

variable {t : Option String} {x : Charge} {xs ys : List Charge} {c c' : ResidencyCost}

theorem amountAt_cons : amountAt t (x :: xs) =
    (if x.tier = t then x.amount else 0) + amountAt t xs := by
  unfold amountAt
  by_cases h : x.tier = t
  · rw [List.filter_cons, if_pos (decide_eq_true h), if_pos h, List.map_cons, List.sum_cons]
  · rw [List.filter_cons, if_neg (by rwa [decide_eq_true_eq]), if_neg h, zero_add]

theorem amountAt_append : amountAt t (xs ++ ys) = amountAt t xs + amountAt t ys := by
  unfold amountAt
  rw [List.filter_append, List.map_append, List.sum_append]

theorem amountAt_of_notMem (h : t ∉ xs.map Charge.tier) : amountAt t xs = 0 := by
  have hnone : xs.filter (fun x => x.tier = t) = [] := by
    refine List.filter_eq_nil_iff.mpr (fun x hx hc => h ?_)
    exact of_decide_eq_true hc ▸ List.mem_map_of_mem hx
  rw [amountAt, hnone]
  rfl

namespace ResidencyCost

/-- Account for one charge. -/
def charge (c : ResidencyCost) (x : Charge) : ResidencyCost :=
  match x.tier with
  | none => { c with dram := c.dram + x.amount }
  | some name => { c with lowerTiers := c.lowerTiers.adjust name 0 (· + x.amount) }

/-- The cost of all places. -/
def spent (c : ResidencyCost) : ℚ :=
  c.dram.costUsd + (c.lowerTiers.entries.map (fun x => x.2.costUsd)).sum

/-- What a list of charges adds to every sum. -/
structure Charged (c : ResidencyCost) (xs : List Charge) (c' : ResidencyCost) : Prop where
  price : c'.dramPriceGibMonth = c.dramPriceGibMonth
  dram : c'.dram = c.dram + amountAt none xs
  lowerTiers : ∀ name, c'.lowerTiers.get? name = if some name ∈ xs.map Charge.tier then
    some ((c.lowerTiers.get? name).getD 0 + amountAt (some name) xs) else c.lowerTiers.get? name
  spent : c'.spent = c.spent + (xs.map (fun x => x.amount.costUsd)).sum
  allDram : c'.allDramCostUsd = c.allDramCostUsd

theorem Charged.cons (h : Charged (c.charge x) xs c') : Charged c (x :: xs) c' := by
  rcases x with ⟨tier, gib, price⟩
  cases tier with
  | none =>
      refine ⟨h.price, ?_, fun name => ?_, ?_, h.allDram⟩
      · rw [h.dram, amountAt_cons, if_pos rfl, ← add_assoc]
        rfl
      · have hne : (none : Option String) ≠ some name := fun hc => by cases hc
        rw [h.lowerTiers, amountAt_cons]
        dsimp only
        rw [if_neg hne, zero_add]
        simp only [List.map_cons, List.mem_cons, reduceCtorEq, false_or]
        rfl
      · rw [h.spent, List.map_cons, List.sum_cons, ← add_assoc]
        congr 1
        simp only [ResidencyCost.spent, charge, CostAccumulator.costUsd_add]
        exact add_right_comm _ _ _
  | some tier =>
      refine ⟨h.price, ?_, fun name => ?_, ?_, h.allDram⟩
      · rw [h.dram, amountAt_cons, if_neg (fun h => by cases h), zero_add]
        rfl
      · rw [h.lowerTiers, amountAt_cons]
        dsimp only [charge]
        rw [OrderedMap.get?_adjust]
        by_cases hname : name = tier
        · subst hname
          have hmem : some name ∈ (⟨some name, gib, price⟩ :: xs).map Charge.tier :=
            List.mem_cons_self
          rw [if_pos rfl, if_pos rfl, if_pos hmem, Option.getD_some, ← add_assoc]
          by_cases hxs : some name ∈ xs.map Charge.tier
          · rw [if_pos hxs]
          · rw [if_neg hxs, amountAt_of_notMem hxs, add_zero]
        · have hne : some tier ≠ some name := fun hc => hname (Option.some.inj hc).symm
          rw [if_neg hname, if_neg hne, zero_add]
          simp only [List.map_cons, List.mem_cons, Ne.symm hne, false_or]
      · rw [h.spent, List.map_cons, List.sum_cons, ← add_assoc]
        congr 1
        simp only [ResidencyCost.spent, charge]
        rw [OrderedMap.sum_adjust (c := Charge.amount ⟨some tier, gib, price⟩ |>.costUsd) _ _ _ _
          CostAccumulator.costUsd rfl (fun v => rfl), add_assoc]

theorem charged_foldl (xs : List Charge) (c : ResidencyCost) :
    Charged c xs (xs.foldl charge c) := by
  induction xs generalizing c with
  | nil =>
      refine ⟨rfl, (add_zero _).symm, fun name => ?_, (add_zero _).symm, rfl⟩
      rw [if_neg (fun h => by cases h)]
      rfl
  | cons x xs ih => exact (ih (c.charge x)).cons

/-- Account for a list of charges, also as if all of it had been in memory. -/
def bill (c : ResidencyCost) (xs : List Charge) : ResidencyCost :=
  { xs.foldl charge c with
    allDramCostUsd := c.allDramCostUsd +
      monthlyCost (xs.map Charge.gibSeconds).sum c.dramPriceGibMonth }

theorem foldl_allDram (xs : List Charge) (c : ResidencyCost) (v : ℚ) :
    xs.foldl charge { c with allDramCostUsd := v } =
      { xs.foldl charge c with allDramCostUsd := v } := by
  induction xs generalizing c with
  | nil => rfl
  | cons x xs ih =>
      have hhead : ({ c with allDramCostUsd := v } : ResidencyCost).charge x =
          { c.charge x with allDramCostUsd := v } := by
        unfold charge
        cases x.tier <;> rfl
      rw [List.foldl_cons, List.foldl_cons, hhead, ih]

theorem bill_nil (c : ResidencyCost) : c.bill [] = c := by
  unfold bill
  rw [List.map_nil, List.sum_nil, monthlyCost, zero_mul, zero_div, add_zero]
  rfl

theorem bill_bill (c : ResidencyCost) (xs ys : List Charge) :
    (c.bill xs).bill ys = c.bill (xs ++ ys) := by
  unfold bill
  rw [foldl_allDram, List.foldl_append, (charged_foldl xs c).price, List.map_append, List.sum_append]
  simp only [monthlyCost, add_mul, add_div, add_assoc]

/-- Charges that come to the same everywhere give the same bill. -/
theorem bill_congr (hmem : ∀ t, t ∈ xs.map Charge.tier ↔ t ∈ ys.map Charge.tier)
    (hsum : ∀ t, amountAt t xs = amountAt t ys)
    (hall : (xs.map Charge.gibSeconds).sum = (ys.map Charge.gibSeconds).sum) :
    c.bill xs = c.bill ys := by
  have hx := charged_foldl xs c
  have hy := charged_foldl ys c
  refine ResidencyCost.ext (hx.price.trans hy.price.symm) ?_ ?_ ?_
  · exact hx.dram.trans ((congrArg (c.dram + ·) (hsum none)).trans hy.dram.symm)
  · refine OrderedMap.ext_get? (fun name => (hx.lowerTiers name).trans ?_)
    rw [hsum]
    exact (if_congr (hmem (some name)) rfl rfl).trans (hy.lowerTiers name).symm
  · exact congrArg (fun all => c.allDramCostUsd + monthlyCost all c.dramPriceGibMonth) hall

end ResidencyCost

/-! ### Intervals -/

/-- The arguments of `tick`. -/
structure Interval where
  elapsed : Nat
  dramUsedBytes : Nat
  lowerTiers : List TierResidencySample

/-- Bytes that stay in one place, and their price. -/
structure Residency where
  tier : Option String
  bytes : Nat
  price : ℚ

def Residency.over (elapsedSeconds : ℚ) (r : Residency) : Charge :=
  ⟨r.tier, gibSeconds r.bytes elapsedSeconds, r.price⟩

def TierResidencySample.residency (s : TierResidencySample) : Residency :=
  ⟨some s.name, s.usedBytes, s.priceGibMonth.value⟩

/-- The sample passes the assertions. -/
def TierResidencySample.Valid (s : TierResidencySample) : Prop :=
  s.name ≠ "" ∧ ∃ price, s.priceGibMonth.nonNegative = some price

namespace Interval

def residencies (dramPrice : ℚ) (i : Interval) : List Residency :=
  ⟨none, i.dramUsedBytes, dramPrice⟩ :: i.lowerTiers.map TierResidencySample.residency

/-- The charges of an interval. -/
def charges (dramPrice : ℚ) (i : Interval) : List Charge :=
  if i.elapsed = 0 then [] else (i.residencies dramPrice).map (Residency.over (asSecs i.elapsed))

end Interval

theorem asSecs_eq_zero {elapsed : Nat} : asSecs elapsed = 0 ↔ elapsed = 0 := by
  unfold asSecs
  rw [div_eq_zero_iff, Nat.cast_eq_zero]
  exact or_iff_left (by norm_num)

theorem F64.value_of_nonNegative {f : F64} {v : {value : ℚ // 0 ≤ value}}
    (h : f.nonNegative = some v) : f.value = v := by
  cases f with
  | finite value =>
      rw [F64.nonNegative] at h
      split at h
      · cases h
        rfl
      · cases h
  | _ => cases h

theorem F64.nonNegative_finite {value : ℚ} (h : 0 ≤ value) :
    (F64.finite value).nonNegative = some ⟨value, h⟩ := by
  unfold F64.nonNegative
  exact dif_pos h

namespace ResidencyCost

theorem samples_ok {secs all all' : ℚ} {l : List TierResidencySample} :
    samples secs c all l = .ok (c', all') ↔ (∀ s ∈ l, s.Valid) ∧
      c' = ((l.map TierResidencySample.residency).map (Residency.over secs)).foldl charge c ∧
      all' = all + (((l.map TierResidencySample.residency).map (Residency.over secs)).map
        Charge.gibSeconds).sum := by
  induction l generalizing c all with
  | nil =>
      rw [samples, Except.ok.injEq, Prod.mk.injEq]
      simp [eq_comm]
  | cons s l ih =>
      rw [samples]
      by_cases hname : s.name = ""
      · rw [if_pos hname]
        exact ⟨fun h => (by cases h), fun h => absurd hname (h.1 s List.mem_cons_self).1⟩
      · rw [if_neg hname]
        cases hprice : s.priceGibMonth.nonNegative with
        | none =>
            refine ⟨fun h => (by cases h), fun h => ?_⟩
            rcases (h.1 s List.mem_cons_self).2 with ⟨price, hsome⟩
            rw [hprice] at hsome
            cases hsome
        | some price =>
            have hamount : (⟨gibSeconds s.usedBytes secs,
                monthlyCost (gibSeconds s.usedBytes secs) price⟩ : CostAccumulator) =
                (s.residency.over secs).amount := by
              rw [← F64.value_of_nonNegative hprice]
              rfl
            dsimp only
            rw [hamount, ih, List.forall_mem_cons, List.map_cons, List.map_cons, List.foldl_cons,
              List.map_cons, List.sum_cons, add_assoc]
            exact and_congr_left' ⟨fun h => ⟨⟨hname, price, hprice⟩, h⟩, And.right⟩

/-- An interval is the list of its charges. -/
theorem tick_ok {i : Interval} : c.tick i.elapsed i.dramUsedBytes i.lowerTiers = .ok c' ↔
    (i.elapsed ≠ 0 → ∀ s ∈ i.lowerTiers, s.Valid) ∧
      c' = c.bill (i.charges c.dramPriceGibMonth) := by
  rw [tick, Interval.charges]
  by_cases hzero : i.elapsed = 0
  · rw [if_pos (asSecs_eq_zero.mpr hzero), if_pos hzero, bill_nil, Except.ok.injEq]
    exact ⟨fun h => ⟨fun hne => absurd hzero hne, h.symm⟩, fun h => h.2.symm⟩
  · rw [if_neg (fun h => hzero (asSecs_eq_zero.mp h)), if_neg hzero]
    dsimp only
    split
    · rename_i e he
      refine ⟨fun h => (by cases h), fun h => ?_⟩
      rw [samples_ok.mpr ⟨h.1 hzero, rfl, rfl⟩] at he
      cases he
    · rename_i c₁ all hok
      rcases samples_ok.mp hok with ⟨hvalid, hc₁, rfl⟩
      have hbill : c₁ = ((i.residencies c.dramPriceGibMonth).map
          (Residency.over (asSecs i.elapsed))).foldl charge c := hc₁
      have hcharged := charged_foldl ((i.residencies c.dramPriceGibMonth).map
        (Residency.over (asSecs i.elapsed))) c
      rw [← hbill] at hcharged
      rw [Except.ok.injEq, hcharged.price, hcharged.allDram, bill, ← hbill, hcharged.price]
      exact ⟨fun h => ⟨fun _ => hvalid, h.symm⟩, fun h => h.2.symm⟩

/-- The accumulator after a list of intervals. -/
def run (c : ResidencyCost) (is : List Interval) :
    Except (CostPanic × ResidencyCost) ResidencyCost :=
  is.foldlM (fun c i => c.tick i.elapsed i.dramUsedBytes i.lowerTiers) c

theorem run_ok {is : List Interval} : c.run is = .ok c' ↔
    (∀ i ∈ is, i.elapsed ≠ 0 → ∀ s ∈ i.lowerTiers, s.Valid) ∧
      c' = c.bill (is.flatMap (Interval.charges c.dramPriceGibMonth)) := by
  induction is generalizing c with
  | nil =>
      rw [List.flatMap_nil, bill_nil]
      change Except.ok c = Except.ok c' ↔ _
      rw [Except.ok.injEq]
      exact ⟨fun h => ⟨fun _ hi => (by cases hi), h.symm⟩, fun h => h.2.symm⟩
  | cons i is ih =>
      rw [List.flatMap_cons, ← bill_bill, List.forall_mem_cons]
      have hprice : (c.bill (i.charges c.dramPriceGibMonth)).dramPriceGibMonth =
          c.dramPriceGibMonth := (charged_foldl _ c).price
      rw [run, List.foldlM_cons]
      cases htick : c.tick i.elapsed i.dramUsedBytes i.lowerTiers with
      | error e =>
          refine ⟨fun h => (by cases h), fun h => ?_⟩
          rw [tick_ok.mpr ⟨h.1.1, rfl⟩] at htick
          cases htick
      | ok c₁ =>
          rcases tick_ok.mp htick with ⟨hvalid, rfl⟩
          refine ih.trans ?_
          rw [hprice]
          exact and_congr_left' ⟨fun h => ⟨hvalid, h⟩, And.right⟩

end ResidencyCost

/-! ### Results -/

theorem Interval.mem_charges {i : Interval} {price : ℚ} {name : String} :
    some name ∈ (i.charges price).map Charge.tier ↔
      i.elapsed ≠ 0 ∧ ∃ s ∈ i.lowerTiers, s.name = name := by
  unfold Interval.charges
  by_cases hzero : i.elapsed = 0
  · rw [if_pos hzero]
    exact ⟨fun h => (by cases h), fun h => absurd hzero h.1⟩
  · rw [if_neg hzero, List.map_map]
    have hmap : (i.residencies price).map (Charge.tier ∘ Residency.over (asSecs i.elapsed)) =
        none :: i.lowerTiers.map (fun s => some s.name) := by
      unfold Interval.residencies
      rw [List.map_cons, List.map_map]
      rfl
    rw [hmap, List.mem_cons, List.mem_map]
    refine ⟨fun h => ⟨hzero, ?_⟩, fun h => .inr ?_⟩
    · rcases h.resolve_left (fun hc => by cases hc) with ⟨s, hs, hname⟩
      exact ⟨s, hs, Option.some.inj hname⟩
    · rcases h.2 with ⟨s, hs, rfl⟩
      exact ⟨s, hs, rfl⟩

namespace ResidencyCost

/-- An accumulator that has a price, and nothing else. -/
def fresh (price : {value : ℚ // 0 ≤ value}) : ResidencyCost := ⟨price, 0, .empty, 0⟩

variable {price : {value : ℚ // 0 ≤ value}}

theorem spent_fresh : (fresh price).spent = 0 := add_zero _

theorem get?_bill_fresh (name : String) : ((fresh price).bill xs).lowerTiers.get? name =
    if some name ∈ xs.map Charge.tier then some (amountAt (some name) xs) else none := by
  refine ((charged_foldl xs (fresh price)).lowerTiers name).trans ?_
  change (if _ then some ((0 : CostAccumulator) + _) else none) = _
  rw [zero_add]

/-- The report of a bill. -/
theorem report_bill : ∃ names : List String, names.Pairwise (· < ·) ∧
    (∀ name, name ∈ names ↔ some name ∈ xs.map Charge.tier) ∧
    ((fresh price).bill xs).report = {
      tiers := toTierCost DRAM_TIER_NAME (amountAt none xs) ::
        names.map (fun name => toTierCost name (amountAt (some name) xs))
      actualCostUsd := (xs.map (fun x => x.amount.costUsd)).sum
      allDramCostUsd := monthlyCost (xs.map Charge.gibSeconds).sum price } := by
  have hcharged := charged_foldl xs (fresh price)
  have hdram : ((fresh price).bill xs).dram = amountAt none xs := hcharged.dram.trans (zero_add _)
  have hentry : ∀ x ∈ ((fresh price).bill xs).lowerTiers.entries,
      some x.1 ∈ xs.map Charge.tier ∧ x.2 = amountAt (some x.1) xs := by
    intro x hx
    have hget := OrderedMap.get?_eq_some.mpr hx
    rw [get?_bill_fresh] at hget
    split at hget
    · rename_i hmem
      exact ⟨hmem, (Option.some.inj hget).symm⟩
    · cases hget
  refine ⟨((fresh price).bill xs).lowerTiers.entries.map Prod.fst, ?_, fun name => ?_, ?_⟩
  · exact List.pairwise_map.mpr ((fresh price).bill xs).lowerTiers.sorted
  · rw [List.mem_map]
    refine ⟨fun ⟨x, hx, hname⟩ => hname ▸ (hentry x hx).1, fun hmem => ?_⟩
    have hget := @get?_bill_fresh xs price name
    rw [if_pos hmem] at hget
    exact ⟨_, OrderedMap.get?_eq_some.mp hget, rfl⟩
  · have hlower : ((fresh price).bill xs).lowerTiers.entries.map (fun x => toTierCost x.1 x.2) =
        (((fresh price).bill xs).lowerTiers.entries.map Prod.fst).map
          (fun name => toTierCost name (amountAt (some name) xs)) := by
      rw [List.map_map]
      refine List.map_congr_left (fun x hx => ?_)
      rw [(hentry x hx).2]
      rfl
    have hspent : ((fresh price).bill xs).spent = (xs.map (fun x => x.amount.costUsd)).sum :=
      hcharged.spent.trans (by rw [spent_fresh, zero_add])
    have hactual : ((toTierCost DRAM_TIER_NAME ((fresh price).bill xs).dram ::
        ((fresh price).bill xs).lowerTiers.entries.map (fun x => toTierCost x.1 x.2)).map
          TierCost.costUsd).sum = ((fresh price).bill xs).spent := by
      rw [List.map_cons, List.sum_cons, List.map_map]
      rfl
    unfold report
    dsimp only
    rw [hactual, hspent, hlower, hdram]
    exact congrArg (CostReport.mk _ _) (zero_add _)

/-- `new` accepts a price and nothing else. -/
theorem new_eq {price : F64} (hnew : new price = some c) :
    ∃ v, c = fresh v ∧ price.value = v := by
  rcases Option.map_eq_some_iff.mp hnew with ⟨v, hv, rfl⟩
  exact ⟨v, rfl, F64.value_of_nonNegative hv⟩

end ResidencyCost

theorem asSecs_add (d d' : Nat) : asSecs (d + d') = asSecs d + asSecs d' := by
  unfold asSecs
  rw [Nat.cast_add, add_div]

theorem Residency.over_add (r : Residency) (x y : ℚ) :
    (r.over (x + y)).amount = (r.over x).amount + (r.over y).amount := by
  refine CostAccumulator.ext (mul_add _ _ _) ?_
  change monthlyCost (gibSeconds r.bytes (x + y)) r.price =
    monthlyCost (gibSeconds r.bytes x) r.price + monthlyCost (gibSeconds r.bytes y) r.price
  unfold monthlyCost gibSeconds
  ring

variable {rs : List Residency} {u v : ℚ}

theorem amountAt_over_add : amountAt t (rs.map (Residency.over (u + v))) =
    amountAt t (rs.map (Residency.over u) ++ rs.map (Residency.over v)) := by
  rw [amountAt_append]
  induction rs with
  | nil => exact (add_zero _).symm
  | cons r rs ih =>
      simp only [List.map_cons, amountAt_cons, ih]
      have htier : ∀ w, (r.over w).tier = r.tier := fun _ => rfl
      rw [htier, htier, htier]
      split_ifs
      · rw [Residency.over_add, add_add_add_comm]
      · rw [zero_add, zero_add, zero_add]

theorem gibSeconds_over_add : ((rs.map (Residency.over (u + v))).map Charge.gibSeconds).sum =
    ((rs.map (Residency.over u) ++ rs.map (Residency.over v)).map Charge.gibSeconds).sum := by
  rw [List.map_append, List.sum_append]
  induction rs with
  | nil => exact (add_zero _).symm
  | cons r rs ih =>
      simp only [List.map_cons, List.sum_cons, ih]
      have hgib : (r.over (u + v)).gibSeconds = (r.over u).gibSeconds + (r.over v).gibSeconds :=
        mul_add _ _ _
      rw [hgib, add_add_add_comm]

/-- The parts of an interval have the bill of the whole. -/
theorem bill_charges_add {d d' bytes : Nat} {l : List TierResidencySample} {price : ℚ} :
    c.bill (Interval.charges price ⟨d + d', bytes, l⟩) =
      c.bill (Interval.charges price ⟨d, bytes, l⟩ ++ Interval.charges price ⟨d', bytes, l⟩) := by
  have hempty : Interval.charges price ⟨0, bytes, l⟩ = [] := if_pos rfl
  by_cases hd : d = 0
  · rw [hd, Nat.zero_add, hempty, List.nil_append]
  · by_cases hd' : d' = 0
    · rw [hd', Nat.add_zero, hempty, List.append_nil]
    · unfold Interval.charges
      rw [if_neg hd, if_neg hd', if_neg (fun h => hd (Nat.eq_zero_of_add_eq_zero_right h)), asSecs_add]
      refine ResidencyCost.bill_congr (fun t => ?_) (fun t => amountAt_over_add) gibSeconds_over_add
      have htiers : ∀ (is : Interval) (secs : ℚ),
          ((is.residencies price).map (Residency.over secs)).map Charge.tier =
            (is.residencies price).map Residency.tier := by
        intro is secs
        rw [List.map_map]
        rfl
      rw [List.map_append, List.mem_append, htiers, htiers, htiers]
      exact (or_self_iff).symm

/-- An interval of a run may be cut in two. -/
theorem tick_add {before after : List Interval} {d d' bytes : Nat}
    {l : List TierResidencySample} :
    c.run (before ++ ⟨d + d', bytes, l⟩ :: after) = .ok c' ↔
      c.run (before ++ ⟨d, bytes, l⟩ :: ⟨d', bytes, l⟩ :: after) = .ok c' := by
  rw [ResidencyCost.run_ok, ResidencyCost.run_ok]
  simp only [List.flatMap_append, List.flatMap_cons, ← ResidencyCost.bill_bill]
  rw [bill_charges_add, ← ResidencyCost.bill_bill]
  refine and_congr_left' ?_
  simp only [List.forall_mem_append, List.forall_mem_cons]
  refine and_congr_right' ?_
  rw [← and_assoc]
  refine and_congr_left' ⟨fun h => ⟨fun hd => h ?_, fun hd => h ?_⟩, fun h hne => ?_⟩
  · exact fun hc => hd (Nat.eq_zero_of_add_eq_zero_right hc)
  · exact fun hc => hd (Nat.eq_zero_of_add_eq_zero_left hc)
  · by_cases hd : d = 0
    · exact h.2 (fun hd' => hne (by rw [hd, hd']))
    · exact h.1 hd

/-! ### Bounds -/

theorem Interval.mem_charges_iff {i : Interval} {price : ℚ} : x ∈ i.charges price ↔
    i.elapsed ≠ 0 ∧ ∃ r ∈ i.residencies price, r.over (asSecs i.elapsed) = x := by
  unfold Interval.charges
  split
  · rename_i hzero
    exact ⟨fun h => (by cases h), fun h => absurd hzero h.1⟩
  · rename_i hne
    rw [List.mem_map]
    exact ⟨fun h => ⟨hne, h⟩, And.right⟩

theorem Interval.charge_nonneg {i : Interval} {price : ℚ} (h : x ∈ i.charges price) :
    0 ≤ x.gibSeconds := by
  rcases Interval.mem_charges_iff.mp h with ⟨-, r, -, rfl⟩
  change 0 ≤ gibSeconds r.bytes (asSecs i.elapsed)
  unfold gibSeconds asSecs BYTES_PER_GIB
  positivity

/-- A charge is for memory at its price, or for a sample at its own. -/
theorem Interval.charge_price {i : Interval} {price : ℚ} (h : x ∈ i.charges price) :
    (x.tier = none ∧ x.price = price) ∨
      ∃ s ∈ i.lowerTiers, x.tier = some s.name ∧ x.price = s.priceGibMonth.value := by
  rcases Interval.mem_charges_iff.mp h with ⟨-, r, hr, rfl⟩
  rcases List.mem_cons.mp hr with rfl | hr
  · exact .inl ⟨rfl, rfl⟩
  · rcases List.mem_map.mp hr with ⟨s, hs, rfl⟩
    exact .inr ⟨s, hs, rfl, rfl⟩

theorem secondsPerMonth_pos : 0 < SECONDS_PER_MONTH := by
  unfold SECONDS_PER_MONTH
  norm_num

theorem monthlyCost_mono {gib p q : ℚ} (hgib : 0 ≤ gib) (h : p ≤ q) :
    monthlyCost gib p ≤ monthlyCost gib q := by
  unfold monthlyCost
  exact div_le_div_of_nonneg_right (mul_le_mul_of_nonneg_left h hgib) secondsPerMonth_pos.le

theorem monthlyCost_zero (p : ℚ) : monthlyCost 0 p = 0 := by
  unfold monthlyCost
  rw [zero_mul, zero_div]

theorem monthlyCost_add (g g' p : ℚ) : monthlyCost (g + g') p = monthlyCost g p + monthlyCost g' p := by
  unfold monthlyCost
  rw [add_mul, add_div]

/-- Where no price is above `p`, the charges cost no more than at `p`. -/
theorem sum_cost_le {p : ℚ} (hgib : ∀ x ∈ xs, 0 ≤ x.gibSeconds) (h : ∀ x ∈ xs, x.price ≤ p) :
    (xs.map (fun x => x.amount.costUsd)).sum ≤ monthlyCost (xs.map Charge.gibSeconds).sum p := by
  induction xs with
  | nil => rw [List.map_nil, List.map_nil, List.sum_nil, monthlyCost_zero]
  | cons x xs ih =>
      rw [List.forall_mem_cons] at hgib h
      rw [List.map_cons, List.map_cons, List.sum_cons, List.sum_cons, monthlyCost_add]
      exact add_le_add (monthlyCost_mono hgib.1 h.1) (ih hgib.2 h.2)

/-- Where no price is below `p`, the charges cost no less than at `p`. -/
theorem le_sum_cost {p : ℚ} (hgib : ∀ x ∈ xs, 0 ≤ x.gibSeconds) (h : ∀ x ∈ xs, p ≤ x.price) :
    monthlyCost (xs.map Charge.gibSeconds).sum p ≤ (xs.map (fun x => x.amount.costUsd)).sum := by
  induction xs with
  | nil => rw [List.map_nil, List.map_nil, List.sum_nil, monthlyCost_zero]
  | cons x xs ih =>
      rw [List.forall_mem_cons] at hgib h
      rw [List.map_cons, List.map_cons, List.sum_cons, List.sum_cons, monthlyCost_add]
      exact add_le_add (monthlyCost_mono hgib.1 h.1) (ih hgib.2 h.2)

theorem amountAt_eq : amountAt t xs =
    ⟨((xs.filter (fun x => x.tier = t)).map Charge.gibSeconds).sum,
      ((xs.filter (fun x => x.tier = t)).map (fun x => x.amount.costUsd)).sum⟩ := by
  unfold amountAt
  generalize xs.filter (fun x => x.tier = t) = ys
  induction ys with
  | nil => rfl
  | cons y ys ih =>
      rw [List.map_cons, List.sum_cons, ih, List.map_cons, List.map_cons, List.sum_cons,
        List.sum_cons]
      rfl

/-- The average price of a place is between the prices charged for it. -/
theorem average_between {name : String} {lo hi : ℚ} (hgib : ∀ x ∈ xs, 0 ≤ x.gibSeconds)
    (h : ∀ x ∈ xs, x.tier = t → lo ≤ x.price ∧ x.price ≤ hi)
    (hne : (toTierCost name (amountAt t xs)).gibSeconds ≠ 0) :
    lo ≤ (toTierCost name (amountAt t xs)).averagePriceGibMonth ∧
      (toTierCost name (amountAt t xs)).averagePriceGibMonth ≤ hi := by
  have hfilter : ∀ x ∈ xs.filter (fun x => x.tier = t), 0 ≤ x.gibSeconds ∧ lo ≤ x.price ∧
      x.price ≤ hi := by
    intro x hx
    rcases List.mem_filter.mp hx with ⟨hmem, htier⟩
    exact ⟨hgib x hmem, h x hmem (of_decide_eq_true htier)⟩
  have hlo := le_sum_cost (fun x hx => (hfilter x hx).1) (fun x hx => (hfilter x hx).2.1)
  have hhi := sum_cost_le (fun x hx => (hfilter x hx).1) (fun x hx => (hfilter x hx).2.2)
  have hnonneg : 0 ≤ ((xs.filter (fun x => x.tier = t)).map Charge.gibSeconds).sum :=
    List.sum_nonneg (List.forall_mem_map.mpr (fun x hx => (hfilter x hx).1))
  rw [amountAt_eq] at hne ⊢
  unfold toTierCost at hne ⊢
  dsimp only at hne ⊢
  rw [if_neg hne]
  generalize ((xs.filter (fun x => x.tier = t)).map Charge.gibSeconds).sum = gib at *
  generalize ((xs.filter (fun x => x.tier = t)).map (fun x => x.amount.costUsd)).sum = cost at *
  have hpos : 0 < gib := lt_of_le_of_ne hnonneg (Ne.symm hne)
  unfold monthlyCost at hlo hhi
  rw [div_le_iff₀ secondsPerMonth_pos] at hlo
  rw [le_div_iff₀ secondsPerMonth_pos] at hhi
  rw [le_div_iff₀ hpos, div_le_iff₀ hpos, mul_comm lo, mul_comm hi]
  exact ⟨hlo, hhi⟩

/-- Tiers that are no dearer than memory never cost more than memory would
    have, and the average price of a tier is between the prices it had. -/
theorem cost_report_bounds {price : F64} {is : List Interval}
    (hnew : ResidencyCost.new price = some c) (hrun : c.run is = .ok c') :
    ((∀ i ∈ is, ∀ s ∈ i.lowerTiers, s.priceGibMonth.value ≤ price.value) →
      c'.report.actualCostUsd ≤ c'.report.allDramCostUsd ∧
        ∀ r, c'.report.actualToAllDramRatio = some r → r ≤ 1) ∧
    ∀ x ∈ c'.report.tiers.tail, ∀ lo hi : ℚ,
      (∀ i ∈ is, ∀ s ∈ i.lowerTiers, s.name = x.name →
        lo ≤ s.priceGibMonth.value ∧ s.priceGibMonth.value ≤ hi) →
      x.gibSeconds ≠ 0 → lo ≤ x.averagePriceGibMonth ∧ x.averagePriceGibMonth ≤ hi := by
  rcases ResidencyCost.new_eq hnew with ⟨v, rfl, hprice⟩
  rcases @ResidencyCost.report_bill (is.flatMap (Interval.charges v)) v with
    ⟨names, -, -, hbill⟩
  have hreport := (congrArg ResidencyCost.report (ResidencyCost.run_ok.mp hrun).2).trans hbill
  have hgib : ∀ x ∈ is.flatMap (Interval.charges v), 0 ≤ x.gibSeconds := by
    intro x hx
    rcases List.mem_flatMap.mp hx with ⟨i, -, hxi⟩
    exact Interval.charge_nonneg hxi
  rw [hreport, hprice]
  refine ⟨fun hprices => ?_, fun x hx lo hi hbetween hne => ?_⟩
  · have hle := sum_cost_le (p := v) hgib (fun x hx => ?_)
    · refine ⟨hle, fun r hr => ?_⟩
      unfold CostReport.actualToAllDramRatio at hr
      split at hr
      · rename_i hpos
        rw [← Option.some.inj hr]
        exact (div_le_one hpos).mpr hle
      · cases hr
    · rcases List.mem_flatMap.mp hx with ⟨i, hi, hxi⟩
      rcases Interval.charge_price hxi with ⟨-, hp⟩ | ⟨s, hs, -, hp⟩
      · exact hp.le
      · exact hp ▸ hprices i hi s hs
  · rcases List.mem_map.mp hx with ⟨name, -, rfl⟩
    refine average_between hgib (fun y hy htier => ?_) hne
    rcases List.mem_flatMap.mp hy with ⟨i, hi, hyi⟩
    rcases Interval.charge_price hyi with ⟨hnone, -⟩ | ⟨s, hs, hsome, hp⟩
    · rw [hnone] at htier
      cases htier
    · rw [hsome] at htier
      rw [hp]
      exact hbetween i hi s hs (Option.some.inj htier)

/-! ### A change of price -/

/-- Ten seconds of one gibibyte at price `1` and twenty at price `2`. -/
def repriced : List Interval :=
  [⟨10 * 10 ^ 9, 0, [⟨"nvme", 2 ^ 30, .finite 1⟩]⟩, ⟨20 * 10 ^ 9, 0, [⟨"nvme", 2 ^ 30, .finite 2⟩]⟩]

theorem repriced_samples : ∀ i ∈ repriced, ∀ s ∈ i.lowerTiers, s.name = "nvme" ∧
    (s.priceGibMonth = .finite 1 ∨ s.priceGibMonth = .finite 2) := by
  unfold repriced
  simp

theorem repriced_runs : ∃ c c', ResidencyCost.new (.finite 4) = some c ∧ c.run repriced = .ok c' := by
  refine ⟨_, _, congrArg (Option.map _) (F64.nonNegative_finite (by norm_num)),
    ResidencyCost.run_ok.mpr ⟨fun i hi _ s hs => ?_, rfl⟩⟩
  rcases repriced_samples i hi s hs with ⟨hname, hfirst | hsecond⟩
  · rw [TierResidencySample.Valid, hname, hfirst]
    exact ⟨by decide, _, F64.nonNegative_finite (by norm_num)⟩
  · rw [TierResidencySample.Valid, hname, hsecond]
    exact ⟨by decide, _, F64.nonNegative_finite (by norm_num)⟩

theorem cost_report_bounds_repriced : ∃ c c', ResidencyCost.new (.finite 4) = some c ∧
    c.run repriced = .ok c' ∧ c'.report.actualCostUsd ≤ c'.report.allDramCostUsd := by
  rcases repriced_runs with ⟨c, c', hnew, hrun⟩
  refine ⟨c, c', hnew, hrun, ((cost_report_bounds hnew hrun).1 (fun i hi s hs => ?_)).1⟩
  rcases (repriced_samples i hi s hs).2 with hfirst | hsecond
  · rw [hfirst]
    exact show (1 : ℚ) ≤ 4 by norm_num
  · rw [hsecond]
    exact show (2 : ℚ) ≤ 4 by norm_num

end TierBuf
