import TierBuf.Core.Error
import TierBuf.Core.Frame
import TierBuf.Policy.Heat

/-!
# Economic Placement

`EconomicPolicy`, which picks the tier that a cooled page is demoted to.

A tier pays off when the page is expected back no sooner than the interval
after which reading it again is cheaper than having kept it. Of the eligible
tiers that pay off the cheapest is taken, and when there is none the fastest
eligible one.

Raising the price of DRAM or letting the page cool adds tiers that pay off, and
among more tiers the cheapest costs no more. The step from the fallback to the
first tier that pays off is the exception: there the comparison is with the
fastest tier, and holds because the fastest is the first to pay off.

Floating-point numbers are rationals here, with the values that are not finite
beside them.

## Main definitions

* `F64`: A floating-point number.
* `preferred`: The cheapest of a subset, or else the fastest.
* `EconomicPolicy`: A validated configuration.
* `EconomicPolicy.new`: The validation.
* `EconomicPolicy.demotionTarget`: The tier that a page is demoted to.

## Theorems

* `preferred_le`: A larger subset has no dearer choice.
* `demotion_target_sound_monotone`: The target is eligible, and monotone.
-/

namespace TierBuf

/-! ### The cheapest of a subset -/

section Preferred

variable {α β γ : Type*} [LinearOrder β] [LinearOrder γ]

/-- The first of the cheapest among those that `pays` selects, or else the
    first of the fastest among all. -/
def preferred (price : α → β) (latency : α → γ) (pays : α → Bool) (l : List α) : Option α :=
  ((l.filter pays).argmin price).or (l.argmin latency)

variable {price : α → β} {latency : α → γ} {pays pays' : α → Bool} {l : List α} {t t' : α}

theorem preferred_eq_none : preferred price latency pays l = none ↔ l = [] := by
  unfold preferred
  rw [Option.or_eq_none_iff, List.argmin_eq_none, List.argmin_eq_none, List.filter_eq_nil_iff]
  refine ⟨fun h => h.2, fun h => ⟨fun a hmem => ?_, h⟩⟩
  rw [h] at hmem
  exact absurd hmem List.not_mem_nil

theorem preferred_mem (h : preferred price latency pays l = some t) : t ∈ l := by
  rcases Option.or_eq_some_iff.mp h with h | ⟨-, h⟩
  · exact List.mem_of_mem_filter (List.argmin_mem h)
  · exact List.argmin_mem h

/-- Selecting more, and the faster ones first, makes the choice no dearer. -/
theorem preferred_le (hmore : ∀ a ∈ l, pays a = true → pays' a = true)
    (hfaster : ∀ a ∈ l, ∀ b ∈ l, latency a ≤ latency b → pays' b = true → pays' a = true)
    (h : preferred price latency pays l = some t)
    (h' : preferred price latency pays' l = some t') : price t' ≤ price t := by
  rcases Option.or_eq_some_iff.mp h' with hcheap' | ⟨hnone', hfast'⟩
  · have ht' := List.mem_filter.mp (List.argmin_mem hcheap')
    -- Everything that pays off now costs at least what `t'` does.
    have hle : ∀ a ∈ l, pays' a = true → price t' ≤ price a :=
      fun a hmem hpays => List.le_of_mem_argmin (List.mem_filter.mpr ⟨hmem, hpays⟩) hcheap'
    rcases Option.or_eq_some_iff.mp h with hcheap | ⟨-, hfast⟩
    · have ht := List.mem_filter.mp (List.argmin_mem hcheap)
      exact hle t ht.1 (hmore t ht.1 ht.2)
    · have ht := List.argmin_mem hfast
      exact hle t ht (hfaster t ht t' ht'.1 (List.le_of_mem_argmin ht'.1 hfast) ht'.2)
  · rcases Option.or_eq_some_iff.mp h with hcheap | ⟨-, hfast⟩
    · have ht := List.mem_filter.mp (List.argmin_mem hcheap)
      rw [List.argmin_eq_none, List.filter_eq_nil_iff] at hnone'
      exact absurd (hmore t ht.1 ht.2) (hnone' t ht.1)
    · rw [Option.some.inj (hfast'.symm.trans hfast)]

end Preferred

/-! ### Prices -/

/-- An `f64`: a rational, an infinity by its sign, or not a number. -/
inductive F64 where
  | finite (value : ℚ)
  | infinite (negative : Bool)
  | nan
  deriving DecidableEq

namespace F64

/-- A finite number greater than zero. -/
def positive : F64 → Option {value : ℚ // 0 < value}
  | .finite value => if h : 0 < value then some ⟨value, h⟩ else none
  | _ => none

/-- A finite number that is not negative. -/
def nonNegative : F64 → Option {value : ℚ // 0 ≤ value}
  | .finite value => if h : 0 ≤ value then some ⟨value, h⟩ else none
  | _ => none

/-- What `total_cmp` compares, of finite numbers. -/
def value : F64 → ℚ
  | .finite value => value
  | _ => 0

end F64

/-- `EconomicConfig`. -/
structure EconomicConfig where
  dramPriceGbMonth : F64
  epochSeconds : F64
  cpuCostUsdPerUs : F64
  readOpportunityCostUsd : F64
  deriving DecidableEq

/-- `EconomicConfig::default`. -/
def EconomicConfig.default : EconomicConfig where
  dramPriceGbMonth := .finite (9 / 2)
  epochSeconds := .finite 1
  cpuCostUsdPerUs := .finite (1 / 10 ^ 9)
  readOpportunityCostUsd := .finite (1 / 10 ^ 7)

/-- `TierInfo`. -/
structure TierInfo where
  index : Nat
  name : String
  priceGbMonth : F64
  readLatencyUs : F64
  writeBudgetRemainingBytes : Option Nat
  deriving DecidableEq

/-- The configuration of an `EconomicPolicy`, as it is after its validation. -/
structure EconomicPolicy where
  dramPriceGbMonth : {value : ℚ // 0 < value}
  epochSeconds : {value : ℚ // 0 < value}
  cpuCostUsdPerUs : {value : ℚ // 0 ≤ value}
  readOpportunityCostUsd : {value : ℚ // 0 ≤ value}

namespace EconomicPolicy

/-- One check of `validate_config`. -/
def validated {α : Type} (checked : Option α) (message : String) : Except TierBufError α :=
  match checked with
  | some value => .ok value
  | none => .error (.invalidConfig message)

/-- `EconomicPolicy::new`, with `validate_config`. -/
def new (config : EconomicConfig) : Except TierBufError EconomicPolicy := do
  let dramPriceGbMonth ← validated config.dramPriceGbMonth.positive
    "DRAM price must be finite and greater than zero"
  let epochSeconds ← validated config.epochSeconds.positive
    "epoch seconds must be finite and greater than zero"
  let cpuCostUsdPerUs ← validated config.cpuCostUsdPerUs.nonNegative
    "CPU opportunity cost must be finite and non-negative"
  let readOpportunityCostUsd ← validated config.readOpportunityCostUsd.nonNegative
    "read opportunity cost must be finite and non-negative"
  return { dramPriceGbMonth, epochSeconds, cpuCostUsdPerUs, readOpportunityCostUsd }

/-- `EconomicPolicy::default`. -/
def default : EconomicPolicy where
  dramPriceGbMonth := ⟨9 / 2, by decide +kernel⟩
  epochSeconds := ⟨1, by decide +kernel⟩
  cpuCostUsdPerUs := ⟨1 / 10 ^ 9, by decide +kernel⟩
  readOpportunityCostUsd := ⟨1 / 10 ^ 7, by decide +kernel⟩

variable (policy : EconomicPolicy)

/-- `EconomicPolicy::config`. -/
def config : EconomicConfig where
  dramPriceGbMonth := .finite policy.dramPriceGbMonth
  epochSeconds := .finite policy.epochSeconds
  cpuCostUsdPerUs := .finite policy.cpuCostUsdPerUs
  readOpportunityCostUsd := .finite policy.readOpportunityCostUsd

/-- `GIB_BYTES`. -/
def GIB_BYTES : ℚ := 1024 * 1024 * 1024

/-- `MONTH_SECONDS`. -/
def MONTH_SECONDS : ℚ := 30 * 24 * 60 * 60

/-- `dram_page_cost_per_second`. -/
def dramPageCostPerSecond : ℚ :=
  policy.dramPriceGbMonth * PAGE_SIZE / GIB_BYTES / MONTH_SECONDS

/-- `read_opportunity_cost`. -/
def readOpportunityCost (tier : TierInfo) : Option ℚ :=
  tier.readLatencyUs.nonNegative.map (fun readLatencyUs =>
    readLatencyUs.1 * policy.cpuCostUsdPerUs + policy.readOpportunityCostUsd)

/-- `break_even_seconds`. -/
def breakEvenSeconds (tier : TierInfo) : Option ℚ :=
  (policy.readOpportunityCost tier).map (fun readCost => readCost / policy.dramPageCostPerSecond)

/-- `estimated_reaccess_seconds`, by the heat of the frame. -/
def estimatedReaccessSeconds (heat : HeatTracker) : WithTop ℚ :=
  let rawHeat := heat.currentHeatRaw
  if rawHeat = 0 then ⊤ else ((policy.epochSeconds * HEAT_ONE / rawHeat : ℚ) : WithTop ℚ)

/-- `is_eligible`. -/
def isEligible (tier : TierInfo) : Bool :=
  tier.priceGbMonth.nonNegative.isSome && (policy.readOpportunityCost tier).isSome &&
    match tier.writeBudgetRemainingBytes with
    | none => true
    | some remaining => PAGE_SIZE ≤ remaining

/-- The page is expected back no sooner than the tier breaks even. -/
def paysOff (heat : HeatTracker) (tier : TierInfo) : Bool :=
  match policy.breakEvenSeconds tier with
  | none => false
  | some breakEven => (breakEven : WithTop ℚ) ≤ policy.estimatedReaccessSeconds heat

/-- `demotion_target`. -/
def demotionTarget (heat : HeatTracker) (tiers : List TierInfo) : Option Nat := do
  let fastest ← (tiers.filter policy.isEligible).argmin (fun tier => tier.readLatencyUs.value)
  match ((tiers.filter policy.isEligible).filter (policy.paysOff heat)).argmin
      (fun tier => tier.priceGbMonth.value) with
  | none => return fastest.index
  | some tier => return tier.index

/-- The tier behind `demotionTarget`. -/
def demotionTier (heat : HeatTracker) (tiers : List TierInfo) : Option TierInfo :=
  preferred (fun tier => tier.priceGbMonth.value) (fun tier => tier.readLatencyUs.value)
    (policy.paysOff heat) (tiers.filter policy.isEligible)

theorem demotionTarget_eq (heat : HeatTracker) (tiers : List TierInfo) :
    policy.demotionTarget heat tiers = (policy.demotionTier heat tiers).map TierInfo.index := by
  unfold demotionTarget demotionTier preferred
  cases hfast : (tiers.filter policy.isEligible).argmin (fun tier => tier.readLatencyUs.value) with
  | none =>
      -- Nothing is selected from an empty list either.
      rw [List.argmin_eq_none] at hfast
      rw [hfast]
      rfl
  | some fastest =>
      dsimp only [Option.bind_eq_bind, Option.bind_some]
      cases ((tiers.filter policy.isEligible).filter (policy.paysOff heat)).argmin
        (fun tier => tier.priceGbMonth.value) <;> rfl

/-! ### Validation -/

/-- Every policy is that of a configuration. -/
theorem new_config : new policy.config = .ok policy := by
  have hpos : ∀ x : {value : ℚ // 0 < value}, (F64.finite x).positive = some x :=
    fun x => dif_pos x.2
  have hnonneg : ∀ x : {value : ℚ // 0 ≤ value}, (F64.finite x).nonNegative = some x :=
    fun x => dif_pos x.2
  unfold new config
  rw [hpos, hpos, hnonneg, hnonneg]
  rfl

/-- The `expect` of the default policy is never reached. -/
theorem new_default : new EconomicConfig.default = .ok default :=
  default.new_config

theorem positive_eq_some {x : F64} {value : {value : ℚ // 0 < value}}
    (h : x.positive = some value) : x = .finite value := by
  cases x with
  | finite q =>
      unfold F64.positive at h
      dsimp only at h
      split at h
      · rw [← Option.some.inj h]
      · cases h
  | _ => cases h

theorem nonNegative_eq_some {x : F64} {value : {value : ℚ // 0 ≤ value}}
    (h : x.nonNegative = some value) : x = .finite value := by
  cases x with
  | finite q =>
      unfold F64.nonNegative at h
      dsimp only at h
      split at h
      · rw [← Option.some.inj h]
      · cases h
  | _ => cases h

/-- A check that passes hands its value on. -/
theorem validated_bind {α β : Type} {checked : Option α} {message : String}
    {next : α → Except TierBufError β} {b : β} (h : (validated checked message >>= next) = .ok b) :
    ∃ value, checked = some value ∧ next value = .ok b := by
  cases checked with
  | none => cases h
  | some value => exact ⟨value, rfl, h⟩

/-- A configuration that passes is kept as it is. -/
theorem config_of_new {candidate : EconomicConfig} {policy : EconomicPolicy}
    (h : new candidate = .ok policy) : policy.config = candidate := by
  unfold new at h
  rcases validated_bind h with ⟨dram, hdram, h⟩
  rcases validated_bind h with ⟨epoch, hepoch, h⟩
  rcases validated_bind h with ⟨cpu, hcpu, h⟩
  rcases validated_bind h with ⟨read, hread, h⟩
  rw [← Except.ok.inj h]
  unfold config
  rw [← positive_eq_some hdram, ← positive_eq_some hepoch, ← nonNegative_eq_some hcpu,
    ← nonNegative_eq_some hread]

/-! ### Costs -/

section Costs

variable {policy} {tier tier' : TierInfo} {heat heat' : HeatTracker}

theorem dramPageCostPerSecond_pos : 0 < policy.dramPageCostPerSecond := by
  have hdram : 0 < (policy.dramPriceGbMonth : ℚ) := policy.dramPriceGbMonth.2
  unfold dramPageCostPerSecond GIB_BYTES MONTH_SECONDS PAGE_SIZE
  positivity

theorem isEligible_iff : policy.isEligible tier = true ↔
    (∃ price, 0 ≤ price ∧ tier.priceGbMonth = .finite price) ∧
    (∃ latency, 0 ≤ latency ∧ tier.readLatencyUs = .finite latency) ∧
    ∀ remaining, tier.writeBudgetRemainingBytes = some remaining → PAGE_SIZE ≤ remaining := by
  have hvalid : ∀ x : F64, x.nonNegative.isSome = true ↔ ∃ q, 0 ≤ q ∧ x = .finite q := by
    intro x
    constructor
    · intro h
      rcases Option.isSome_iff_exists.mp h with ⟨q, hq⟩
      exact ⟨q, q.2, nonNegative_eq_some hq⟩
    · rintro ⟨q, hq, rfl⟩
      exact Option.isSome_iff_exists.mpr ⟨⟨q, hq⟩, dif_pos hq⟩
  unfold isEligible readOpportunityCost
  rw [Option.isSome_map, Bool.and_eq_true, Bool.and_eq_true, hvalid, hvalid, and_assoc]
  cases tier.writeBudgetRemainingBytes with
  | none => simp only [reduceCtorEq, false_implies, implies_true]
  | some remaining => simp only [decide_eq_true_eq, Option.some.injEq, forall_eq']

/-- The break-even interval of a tier whose latency is valid. -/
theorem breakEvenSeconds_eq {latency : ℚ} (hlat : 0 ≤ latency)
    (h : tier.readLatencyUs = .finite latency) : policy.breakEvenSeconds tier =
      some ((latency * policy.cpuCostUsdPerUs + policy.readOpportunityCostUsd) /
        policy.dramPageCostPerSecond) := by
  have hvalid : (F64.finite latency).nonNegative = some ⟨latency, hlat⟩ := dif_pos hlat
  unfold breakEvenSeconds readOpportunityCost
  rw [h, hvalid]
  rfl

theorem paysOff_iff {latency : ℚ} (hlat : 0 ≤ latency) (h : tier.readLatencyUs = .finite latency) :
    policy.paysOff heat tier = true ↔
      (((latency * policy.cpuCostUsdPerUs + policy.readOpportunityCostUsd) /
        policy.dramPageCostPerSecond : ℚ) : WithTop ℚ) ≤ policy.estimatedReaccessSeconds heat := by
  unfold paysOff
  rw [breakEvenSeconds_eq hlat h]
  exact decide_eq_true_iff

/-- The faster of two tiers breaks even first. -/
theorem paysOff_faster (helig : policy.isEligible tier = true)
    (helig' : policy.isEligible tier' = true)
    (hlat : tier.readLatencyUs.value ≤ tier'.readLatencyUs.value)
    (h : policy.paysOff heat tier' = true) : policy.paysOff heat tier = true := by
  rcases (isEligible_iff.mp helig).2.1 with ⟨latency, hpos, hlatency⟩
  rcases (isEligible_iff.mp helig').2.1 with ⟨latency', hpos', hlatency'⟩
  rw [hlatency, hlatency'] at hlat
  have hle : latency ≤ latency' := hlat
  have hcpu : 0 ≤ (policy.cpuCostUsdPerUs : ℚ) := policy.cpuCostUsdPerUs.2
  have hcost : 0 < policy.dramPageCostPerSecond := dramPageCostPerSecond_pos
  rw [paysOff_iff hpos hlatency]
  rw [paysOff_iff hpos' hlatency'] at h
  refine le_trans (WithTop.coe_le_coe.mpr ?_) h
  gcongr

/-- A cooler page is expected back later. -/
theorem estimatedReaccessSeconds_anti (hheat : heat'.currentHeatRaw ≤ heat.currentHeatRaw) :
    policy.estimatedReaccessSeconds heat ≤ policy.estimatedReaccessSeconds heat' := by
  unfold estimatedReaccessSeconds
  dsimp only
  split
  · rename_i hzero
    rw [if_pos (Nat.le_zero.mp (hzero ▸ hheat))]
  · split
    · exact le_top
    · rename_i hpos
      have hepoch : 0 < (policy.epochSeconds : ℚ) := policy.epochSeconds.2
      have hcast : (heat'.currentHeatRaw : ℚ) ≤ heat.currentHeatRaw := by exact_mod_cast hheat
      have hraw : 0 < (heat'.currentHeatRaw : ℚ) := by
        exact_mod_cast Nat.pos_of_ne_zero hpos
      refine WithTop.coe_le_coe.mpr ?_
      gcongr

/-- A tier that pays off still does for a cooler page and dearer DRAM. -/
theorem paysOff_more {price : {value : ℚ // 0 < value}} (helig : policy.isEligible tier = true)
    (hprice : (policy.dramPriceGbMonth : ℚ) ≤ price)
    (hheat : heat'.currentHeatRaw ≤ heat.currentHeatRaw) (h : policy.paysOff heat tier = true) :
    ({ policy with dramPriceGbMonth := price } : EconomicPolicy).paysOff heat' tier = true := by
  rcases (isEligible_iff.mp helig).2.1 with ⟨latency, hpos, hlatency⟩
  rw [paysOff_iff hpos hlatency] at h ⊢
  refine le_trans (WithTop.coe_le_coe.mpr ?_) (le_trans h (estimatedReaccessSeconds_anti hheat))
  have hcpu : 0 ≤ (policy.cpuCostUsdPerUs : ℚ) := policy.cpuCostUsdPerUs.2
  have hread : 0 ≤ (policy.readOpportunityCostUsd : ℚ) := policy.readOpportunityCostUsd.2
  have hcost : 0 < policy.dramPageCostPerSecond := dramPageCostPerSecond_pos
  have hdearer : policy.dramPageCostPerSecond ≤
      ({ policy with dramPriceGbMonth := price } : EconomicPolicy).dramPageCostPerSecond := by
    unfold dramPageCostPerSecond GIB_BYTES MONTH_SECONDS
    dsimp only
    gcongr
  dsimp only
  gcongr

end Costs

end EconomicPolicy

/-- The tier that is demoted to has no higher price once the page is cooler or
    DRAM is dearer. -/
theorem demotionTier_le {policy : EconomicPolicy} {tiers : List TierInfo} {heat heat' : HeatTracker}
    {price : {value : ℚ // 0 < value}} {tier tier' : TierInfo}
    (hprice : (policy.dramPriceGbMonth : ℚ) ≤ price)
    (hheat : heat'.currentHeatRaw ≤ heat.currentHeatRaw)
    (h : policy.demotionTier heat tiers = some tier)
    (h' : ({ policy with dramPriceGbMonth := price } : EconomicPolicy).demotionTier heat' tiers =
      some tier') : tier'.priceGbMonth.value ≤ tier.priceGbMonth.value := by
  have helig : ∀ a ∈ tiers.filter policy.isEligible, policy.isEligible a = true :=
    fun a hmem => (List.mem_filter.mp hmem).2
  have hmore : ∀ a ∈ tiers.filter policy.isEligible, policy.paysOff heat a = true →
      ({ policy with dramPriceGbMonth := price } : EconomicPolicy).paysOff heat' a = true :=
    fun a hmem hpays => EconomicPolicy.paysOff_more (helig a hmem) hprice hheat hpays
  unfold EconomicPolicy.demotionTier at h h'
  have hle := preferred_le hmore (fun a hmem b hmem' hlat hpays =>
    EconomicPolicy.paysOff_faster (helig a hmem) (helig b hmem') hlat hpays) h h'
  exact hle

/-- Where indices are distinct, the answer tells the tier. -/
theorem demotionTier_of_target {policy : EconomicPolicy} {tiers : List TierInfo}
    (hdistinct : (tiers.map TierInfo.index).Nodup) {heat : HeatTracker} {tier : TierInfo}
    (hmem : tier ∈ tiers) (h : policy.demotionTarget heat tiers = some tier.index) :
    policy.demotionTier heat tiers = some tier := by
  rw [EconomicPolicy.demotionTarget_eq] at h
  rcases Option.map_eq_some_iff.mp h with ⟨chosen, hchosen, hindex⟩
  have hlisted := (List.mem_filter.mp (preferred_mem hchosen)).1
  rw [hchosen, List.inj_on_of_nodup_map hdistinct hlisted hmem hindex]

/-- The target of a demotion is an eligible tier, there is none only when no
    tier is eligible, and neither a cooler page nor dearer DRAM leads to a tier
    with a higher price. -/
theorem demotion_target_sound_monotone (policy : EconomicPolicy) (tiers : List TierInfo)
    (heat : HeatTracker) :
    (∀ tier, policy.isEligible tier = true ↔
      (∃ price, 0 ≤ price ∧ tier.priceGbMonth = .finite price) ∧
      (∃ latency, 0 ≤ latency ∧ tier.readLatencyUs = .finite latency) ∧
      ∀ remaining, tier.writeBudgetRemainingBytes = some remaining → PAGE_SIZE ≤ remaining) ∧
    (policy.demotionTarget heat tiers = none ↔ ∀ tier ∈ tiers, ¬ policy.isEligible tier = true) ∧
    (∀ index, policy.demotionTarget heat tiers = some index →
      ∃ tier ∈ tiers, policy.isEligible tier = true ∧
        policy.demotionTier heat tiers = some tier ∧ tier.index = index) ∧
    ∀ (price : {value : ℚ // 0 < value}) (heat' : HeatTracker),
      (policy.dramPriceGbMonth : ℚ) ≤ price → heat'.currentHeatRaw ≤ heat.currentHeatRaw →
      let policy' : EconomicPolicy := { policy with dramPriceGbMonth := price }
      (∀ tier tier', policy.demotionTier heat tiers = some tier →
        policy'.demotionTier heat' tiers = some tier' →
          tier'.priceGbMonth.value ≤ tier.priceGbMonth.value) ∧
      ((tiers.map TierInfo.index).Nodup → ∀ tier ∈ tiers, ∀ tier' ∈ tiers,
        policy.demotionTarget heat tiers = some tier.index →
        policy'.demotionTarget heat' tiers = some tier'.index →
          tier'.priceGbMonth.value ≤ tier.priceGbMonth.value) := by
  refine ⟨fun _ => EconomicPolicy.isEligible_iff, ?_, fun index h => ?_,
    fun price heat' hprice hheat => ⟨fun tier tier' => demotionTier_le hprice hheat,
      fun hdistinct tier hmem tier' hmem' h h' => ?_⟩⟩
  · rw [EconomicPolicy.demotionTarget_eq, Option.map_eq_none_iff]
    exact preferred_eq_none.trans List.filter_eq_nil_iff
  · rw [EconomicPolicy.demotionTarget_eq] at h
    rcases Option.map_eq_some_iff.mp h with ⟨tier, htier, rfl⟩
    have hmem := List.mem_filter.mp (preferred_mem htier)
    exact ⟨tier, hmem.1, hmem.2, htier, rfl⟩
  · exact demotionTier_le hprice hheat (demotionTier_of_target hdistinct hmem h)
      (demotionTier_of_target hdistinct hmem' h')

/-- A fast tier and a cheap one. -/
def fastAndCheap : List TierInfo :=
  [{ index := 7, name := "fast", priceGbMonth := .finite (1 / 10), readLatencyUs := .finite 80,
      writeBudgetRemainingBytes := none },
    { index := 11, name := "cheap", priceGbMonth := .finite (1 / 100),
      readLatencyUs := .finite 2000, writeBudgetRemainingBytes := some PAGE_SIZE }]

/-- A page that cools down moves from the fast tier to the cheap one. -/
theorem demotion_target_sound_monotone_cooling : ∃ tier tier',
    EconomicPolicy.default.demotionTier ⟨0, packHeatEpoch HEAT_ONE 0⟩ fastAndCheap = some tier ∧
    EconomicPolicy.default.demotionTier ⟨1, packHeatEpoch 1 0⟩ fastAndCheap = some tier' ∧
    tier.index = 7 ∧ tier'.index = 11 ∧ tier'.priceGbMonth.value ≤ tier.priceGbMonth.value := by
  have hhot : (EconomicPolicy.default.demotionTier ⟨0, packHeatEpoch HEAT_ONE 0⟩ fastAndCheap).map
      TierInfo.index = some 7 := by decide +kernel
  have hcold : (EconomicPolicy.default.demotionTier ⟨1, packHeatEpoch 1 0⟩ fastAndCheap).map
      TierInfo.index = some 11 := by decide +kernel
  rcases Option.map_eq_some_iff.mp hhot with ⟨tier, htier, hindex⟩
  rcases Option.map_eq_some_iff.mp hcold with ⟨tier', htier', hindex'⟩
  refine ⟨tier, tier', htier, htier', hindex, hindex', ?_⟩
  rcases demotion_target_sound_monotone EconomicPolicy.default fastAndCheap
    ⟨0, packHeatEpoch HEAT_ONE 0⟩ with ⟨-, -, -, hmono⟩
  exact (hmono EconomicPolicy.default.dramPriceGbMonth ⟨1, packHeatEpoch 1 0⟩ le_rfl
    (by decide)).1 tier tier' htier htier'

end TierBuf
