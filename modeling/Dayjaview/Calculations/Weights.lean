import Dayjaview.Core.Arithmetic
import Dayjaview.Core.Dict
import Mathlib.Data.String.Basic

/-!
# Capped weights and the weighted return

Weights are proportional to free-float capitalisations, except that a weight
above the cap is fixed at the cap and the rest is distributed anew. What rounding
leaves over is put on the first constituent that can take it.
-/

namespace Dayjaview.Calculations

inductive PolicyMaturity where
  | adopted
  | backtestPending
  deriving DecidableEq

/-- The written form of a maturity. -/
def PolicyMaturity.value : PolicyMaturity → String
  | adopted => "ADOPTED"
  | backtestPending => "BACKTEST_PENDING"

/-- The fields of the policy behind the metrics of a theme. -/
structure ThemeCalculationPolicy.Fields where
  version : String
  maturity : PolicyMaturity
  maximumConstituentWeight : Decimal
  sufficientCoreWeightRatio : Decimal
  sufficientRelatedCountRatio : Decimal
  minimumCoreObservations : Int
  minimumTotalObservations : Int

/-- A number is positive and at most one. -/
def requirePositiveRatio (value : Decimal) (fieldName : String) : Except Error Unit :=
  ensure (¬ value ≤ Decimal.zero ∧ value ≤ .ofNat 1) s!"{fieldName}은 0보다 크고 1 이하여야 합니다"

/-- The checks of a policy, in order. -/
def ThemeCalculationPolicy.Fields.postInit (p : ThemeCalculationPolicy.Fields) :
    Except Error Unit := do
  ensure (p.version ≠ "") "calculation policy version은 비어 있을 수 없습니다"
  requirePositiveRatio p.maximumConstituentWeight "maximum_constituent_weight"
  requirePositiveRatio p.sufficientCoreWeightRatio "sufficient_core_weight_ratio"
  requirePositiveRatio p.sufficientRelatedCountRatio "sufficient_related_count_ratio"
  ensure (1 ≤ p.minimumCoreObservations) "minimum_core_observations는 1 이상이어야 합니다"
  ensure (p.minimumCoreObservations ≤ p.minimumTotalObservations)
    "minimum_total_observations는 core 최소 관측 수 이상이어야 합니다"

/-- The policy behind the metrics of a theme. -/
structure ThemeCalculationPolicy extends ThemeCalculationPolicy.Fields where
  valid : toFields.postInit = .ok ()

def THEME_CALCULATION_POLICY_V1 : ThemeCalculationPolicy where
  version := "theme-metrics-2026.08.1"
  maturity := .backtestPending
  maximumConstituentWeight := ⟨false, 30, -2⟩
  sufficientCoreWeightRatio := ⟨false, 80, -2⟩
  sufficientRelatedCountRatio := ⟨false, 70, -2⟩
  minimumCoreObservations := 2
  minimumTotalObservations := 3
  valid := by decide

/-- The capitalisation of a constituent. -/
structure CapitalizationInput where
  stockId : String
  freeFloatMarketCap : Decimal

/-- The checks of a capitalisation, in order. -/
def CapitalizationInput.postInit (c : CapitalizationInput) : Except Error Unit := do
  ensure (c.stockId ≠ "") "stock_id는 비어 있을 수 없습니다"
  ensure (¬ c.freeFloatMarketCap ≤ Decimal.zero) "free_float_market_cap은 0보다 커야 합니다"

/-- The weight of a constituent. -/
structure CappedWeight where
  stockId : String
  weight : Decimal
  deriving DecidableEq

/-- The weight a constituent would have with the residual on top. -/
def acceptsResidual (residual effectiveCap weight : Decimal) : Except Error Bool := do
  let moved ← Decimal.add 120 weight residual
  return if Decimal.zero < residual then decide (moved ≤ effectiveCap)
    else decide (Decimal.zero ≤ moved)

/-- Put what rounding left over on the first constituent that can take it. -/
def applyResidual (weights : Dict String Decimal) (effectiveCap : Decimal) :
    Except Error (Dict String Decimal) := do
  let total ← Decimal.sum 120 weights.values
  let residual ← Decimal.sub 120 (.ofNat 1) total
  if residual.coefficient = 0 then return weights
  let candidates ← weights.sortedEntries.filterM fun e =>
    acceptsResidual residual effectiveCap e.2
  match candidates with
  | [] => throw ⟨.arithmeticError, "가중치 반올림 잔여분을 안전하게 배분할 수 없습니다"⟩
  | (selected, weight) :: _ => return weights.set selected (← Decimal.add 120 weight residual)

/-- Cap and distribute anew until no weight is above the cap. A round that caps something leaves
fewer constituents, so as many rounds as there are constituents suffice. -/
def capRounds (effectiveCap : Decimal) :
    Nat → List CapitalizationInput → Dict String Decimal → Except Error (Dict String Decimal)
  | 0, _, fixed => .ok fixed
  | _, [], fixed => .ok fixed
  | fuel + 1, remaining, fixed => do
    let used ← Decimal.sum 60 fixed.values
    let remainingMass ← Decimal.sub 60 (.ofNat 1) used
    let remainingCapitalization ←
      Decimal.sum 60 (remaining.map CapitalizationInput.freeFloatMarketCap)
    let proposed ← remaining.mapM fun c => do
      let share ← Decimal.mul 60 remainingMass c.freeFloatMarketCap
      let weight ← Decimal.div 60 share remainingCapitalization
      return (c, weight)
    let newlyCapped := proposed.filter fun e => decide (effectiveCap < e.2)
    if newlyCapped.isEmpty then
      return proposed.foldl (fun fixed e => fixed.set e.1.stockId e.2) fixed
    else
      let fixed := newlyCapped.foldl (fun fixed e => fixed.set e.1.stockId effectiveCap) fixed
      let capped := newlyCapped.map fun e => e.1.stockId
      capRounds effectiveCap fuel (remaining.filter fun c => c.stockId ∉ capped) fixed

/-- One over the number of constituents, from above where it cannot be written exactly. -/
def inverseCount (count : Nat) : Except Error Decimal := do
  let inverse ← Decimal.div 60 (.ofNat 1) (.ofNat count)
  let back ← Decimal.mul 60 inverse (.ofNat count)
  if back < .ofNat 1 then Decimal.nextPlus 60 inverse else return inverse

/-- The weights of some constituents, in the order of their stocks. -/
def calculateCappedWeights (inputs : List CapitalizationInput) (configuredCap : Decimal) :
    Except Error (List CappedWeight) := do
  ensure (Decimal.zero < configuredCap ∧ configuredCap ≤ .ofNat 1)
    "configured_cap은 0보다 크고 1 이하여야 합니다"
  inputs.forM CapitalizationInput.postInit
  let ordered := inputs.insertionSort fun a b => a.stockId ≤ b.stockId
  if ordered.isEmpty then return []
  ensure (ordered.map CapitalizationInput.stockId).Nodup "weight input에 중복 stock_id가 있습니다"
  let inverse ← inverseCount ordered.length
  let effectiveCap := if configuredCap < inverse then inverse else configuredCap
  let fixed ← capRounds effectiveCap (ordered.length + 1) ordered .empty
  let fixed ← applyResidual fixed effectiveCap
  return ordered.filterMap fun c => (fixed.get? c.stockId).map (CappedWeight.mk c.stockId)

/-- The return of the constituents under their weights. -/
def calculateWeightedReturn (weights : List CappedWeight) (returns : Dict String Decimal) :
    Except Error Decimal := do
  let ids := weights.map CappedWeight.stockId
  ensure (ids ⊆ returns.keys ∧ returns.keys ⊆ ids)
    "weight와 return의 stock_id 집합이 일치해야 합니다"
  let products ← weights.mapM fun w =>
    Decimal.mul 60 w.weight ((returns.get? w.stockId).getD .zero)
  Decimal.sum 60 products

end Dayjaview.Calculations
