import Dayjaview.Calculations.Weights
import Dayjaview.Domain.Models

/-!
# The metrics of a theme

The return of every member is taken from its reference and its observation, each
used only if it was known at the time of the calculation; whatever stands in the
way is recorded as a quality flag and an issue. Weighted and median return,
breadth and coverage are computed from the returns that remain.
-/

namespace Dayjaview.Calculations

open Dayjaview.Domain

/-- The different texts of a list, in increasing order. -/
def sortedTexts (texts : List String) : List String := texts.dedup.insertionSort (· ≤ ·)

theorem mem_sortedTexts {texts : List String} {t : String} : t ∈ sortedTexts texts ↔ t ∈ texts := by
  simp [sortedTexts]

/-- Why a metric has no or no reliable value. -/
structure MetricIssue where
  metric : String
  reason : UnavailableReason
  stockIds : List String := []
  deriving DecidableEq

structure ThemeMetrics where
  calculationVersion : String
  policyMaturity : String
  membershipVersion : String
  weightedReturn : Option Decimal
  medianReturn : Option Decimal
  advancingCount : Option Nat
  validCount : Option Nat
  advancingRatio : Option Decimal
  coverage : Coverage
  cappedWeights : List CappedWeight
  qualityFlags : List String
  issues : List MetricIssue
  referenceVersions : List String
  deriving DecidableEq

/-- The theme may take part in a ranking. -/
def ThemeMetrics.rankEligible (m : ThemeMetrics) : Bool :=
  m.coverage.status == .sufficient && m.weightedReturn.isSome && m.medianReturn.isSome &&
    m.advancingCount.isSome && m.validCount.isSome

/-- Index records by stock; no stock may have two. -/
def indexUnique {α : Type} (stockId : α → String) (label : String) :
    List α → Dict String α → Except Error (Dict String α)
  | [], index => .ok index
  | record :: records, index =>
    if (index.get? (stockId record)).isSome then
      .error ⟨.valueError, s!"{label}에 중복 stock_id가 있습니다: {stockId record}"⟩
    else indexUnique stockId label records (index.set (stockId record) record)

/-- The element in the middle of some numbers, or the mean of the two there. -/
def median (values : List Decimal) : Except Error (Option Decimal) :=
  let ordered := values.insertionSort (· ≤ ·)
  let middle := ordered.length / 2
  if ordered.length % 2 = 1 then .ok ordered[middle]?
  else
    match ordered[middle - 1]?, ordered[middle]? with
    | some a, some b => do return some (← Decimal.div 60 (← Decimal.add 60 a b) (.ofNat 2))
    | _, _ => .ok none

/-- What stands in the way of a calculation, collected on the way. -/
structure Findings where
  qualityFlags : List String
  issueStockIds : Dict UnavailableReason (List String)

def Findings.empty : Findings := ⟨[], .empty⟩

def Findings.flag (f : Findings) (flag : QualityFlag) : Findings :=
  { f with qualityFlags := flag.value :: f.qualityFlags }

/-- Record stocks behind a reason. -/
def Findings.issue (f : Findings) (reason : UnavailableReason) (stockIds : List String) :
    Findings :=
  { f with
    issueStockIds :=
      f.issueStockIds.set reason (stockIds ++ (f.issueStockIds.get? reason).getD []) }

/-- Why a stock has no return, and the close and the price of one that has. -/
def stockPrices (marketDate : Date) (asOf : Datetime) (reference : Option StockReference)
    (observation : Option StockMarketObservation.Fields) :
    Sum (QualityFlag × UnavailableReason) (Decimal × Decimal) :=
  match reference with
  | none => .inl (.referencePriceUnavailable, .missingReferenceData)
  | some reference =>
    if reference.corporateActionResolved = false then
      .inl (.corporateActionUnresolved, .corporateActionUnresolved)
    else if reference.effectiveFor ≠ marketDate ∨ asOf < reference.knownAt then
      .inl (.pointInTimeViolation, .missingReferenceData)
    else
      match reference.previousAdjustedClose.filter fun close => ¬ close ≤ Decimal.zero with
      | none => .inl (.referencePriceUnavailable, .missingReferenceData)
      | some previousClose =>
        match observation with
        | none => .inl (.marketPriceUnavailable, .missingMarketData)
        | some observation =>
          if observation.marketDate ≠ marketDate ∨ asOf < observation.observedAt then
            .inl (.pointInTimeViolation, .missingMarketData)
          else if observation.tradingHalted then .inl (.tradingHalted, .tradingHalted)
          else if observation.corporateActionUnresolved then
            .inl (.corporateActionUnresolved, .corporateActionUnresolved)
          else if observation.fresh = false then .inl (.staleMarketData, .missingMarketData)
          else
            match observation.currentPrice.filter fun price => ¬ price ≤ Decimal.zero with
            | none => .inl (.marketPriceUnavailable, .missingMarketData)
            | some currentPrice => .inr (previousClose, currentPrice)

/-- The return of a stock, with the findings so far. -/
def stockReturn (stockId : String) (marketDate : Date) (asOf : Datetime)
    (references : Dict String StockReference)
    (observations : Dict String StockMarketObservation.Fields) (findings : Findings) :
    Except Error (Option Decimal × Findings) :=
  match stockPrices marketDate asOf (references.get? stockId) (observations.get? stockId) with
  | .inl (flag, reason) => .ok (none, (findings.flag flag).issue reason [stockId])
  | .inr (previousClose, currentPrice) => do
    let quotient ← Decimal.div 60 currentPrice previousClose
    return (some (← Decimal.sub 60 quotient (.ofNat 1)), findings)

/-- How far the members are observed. Related stands for core and related together. -/
def determineCoverageStatus (core related : CoveragePart) (totalValidCount : Nat)
    (policy : ThemeCalculationPolicy) : CoverageStatus :=
  match core.observedWeightRatio, related.countRatio with
  | some weightRatio, some countRatio =>
    if (core.observedCount : Int) < policy.minimumCoreObservations ∨
        (totalValidCount : Int) < policy.minimumTotalObservations then .insufficient
    else if policy.sufficientCoreWeightRatio ≤ weightRatio ∧
        policy.sufficientRelatedCountRatio ≤ countRatio then .sufficient
    else .partialCoverage
  | _, _ => .insufficient

/-- The returns of the members in their order, with what stands in the way of the others. -/
def memberReturns (members : List ThemeMember) (marketDate : Date) (asOf : Datetime)
    (references : Dict String StockReference)
    (observations : Dict String StockMarketObservation.Fields) :
    Except Error (Dict String Decimal × Findings) :=
  members.foldlM (fun acc member => do
    let (stockReturn, findings) ←
      stockReturn member.stockId marketDate asOf references observations acc.2
    match stockReturn with
    | some value => return (acc.1.set member.stockId value, findings)
    | none => return (acc.1, findings)) (.empty, .empty)

/-- The capitalisation of a core member, if it can be computed. -/
def memberCapitalization (marketDate : Date) (asOf : Datetime)
    (references : Dict String StockReference) (member : ThemeMember) :
    Except Error (String × Option Decimal) := do
  match references.get? member.stockId with
  | none => return (member.stockId, none)
  | some reference => return (member.stockId, ← reference.freeFloatMarketCap marketDate asOf)

/-- The share of the core's capitalisation that is observed. -/
def observedWeight (capitalizations : List (String × Decimal)) (observed : List String) :
    Except Error (Option Decimal) := do
  let total ← Decimal.sum 60 (capitalizations.map Prod.snd)
  if Decimal.zero < total then
    let part ← Decimal.sum 60
      ((capitalizations.filter fun e => e.1 ∈ observed).map Prod.snd)
    return some (← Decimal.div 60 part total)
  else return none

/-- The rank of an issue in the list of issues. -/
def MetricIssue.rank (i : MetricIssue) : String ×ₗ String ×ₗ List String :=
  toLex (i.metric, toLex (i.reason.value, i.stockIds))

/-- The metrics of a theme from its membership, references and observations. -/
def calculateThemeMetrics (marketDate : Date) (asOf : Datetime)
    (membership : ThemeMembershipSnapshot) (references : List StockReference)
    (observations : List StockMarketObservation.Fields) (policy : ThemeCalculationPolicy) :
    Except Error ThemeMetrics := do
  ensure (¬ (marketDate < membership.effectiveFrom ∨ asOf < membership.knownAt))
    "계산 시점에 알려지지 않은 membership은 사용할 수 없습니다"
  let referenceByStock ← indexUnique (fun r => r.stockId) "references" references .empty
  let observationByStock ← indexUnique (fun o => o.stockId) "observations" observations .empty
  let orderedMembers := membership.members.insertionSort fun a b => a.stockId ≤ b.stockId
  let coreMembers := orderedMembers.filter fun member => member.role == .core
  let (returnsByStock, findings) ←
    memberReturns orderedMembers marketDate asOf referenceByStock observationByStock
  let capitalizations ←
    coreMembers.mapM (memberCapitalization marketDate asOf referenceByStock)
  let missing := (capitalizations.filter fun e => e.2.isNone).map Prod.fst
  let known := capitalizations.filterMap fun e => e.2.map (Prod.mk e.1)
  let findings := if missing.isEmpty then findings
    else (findings.flag .freeFloatUnavailable).issue .missingReferenceData missing
  let observedCore := known.filter fun e => (returnsByStock.get? e.1).isSome
  let observedCoreIds := observedCore.map Prod.fst
  let observedWeightRatio ← if coreMembers.isEmpty = false ∧ missing.isEmpty
    then observedWeight known observedCoreIds else pure none
  let core ←
    CoveragePart.fromCounts observedCoreIds.length coreMembers.length observedWeightRatio
  let related ←
    CoveragePart.fromCounts returnsByStock.entries.length orderedMembers.length none
  let validCount := returnsByStock.entries.length
  let status := determineCoverageStatus core related validCount policy
  let findings := match status with
    | .partialCoverage => findings.flag .partialCoverage
    | .insufficient => findings.flag .insufficientCoverage
    | .sufficient => findings
  let findings := if (observedCoreIds.length : Int) < policy.minimumCoreObservations ∨
      (validCount : Int) < policy.minimumTotalObservations
    then (findings.flag .insufficientObservations).issue .insufficientObservations []
    else findings
  let (cappedWeights, weightedReturn) ←
    if missing.isEmpty ∧ policy.minimumCoreObservations ≤ (observedCoreIds.length : Int) then do
      let weights ← calculateCappedWeights
        (observedCore.map fun e => CapitalizationInput.mk e.1 e.2) policy.maximumConstituentWeight
      let returns := Dict.ofList (observedCoreIds.filterMap fun stockId =>
        (returnsByStock.get? stockId).map (Prod.mk stockId))
      pure (weights, some (← calculateWeightedReturn weights returns))
    else pure ([], none)
  let medianReturn ← median returnsByStock.values
  let advancing := returnsByStock.values.countP fun r => Decimal.zero < r
  let advancingRatio ← if validCount = 0 then pure none
    else do pure (some (← Decimal.div 60 (.ofNat advancing) (.ofNat validCount)))
  let dataIssues := (findings.issueStockIds.entries.filter fun e => e.2 ≠ []).map fun e =>
    ({ metric := "constituentData", reason := e.1, stockIds := sortedTexts e.2 } : MetricIssue)
  let weightedIssues := if weightedReturn.isSome then [] else
    [({ metric := "weightedReturn"
        reason := if coreMembers.isEmpty then .emptyMembership else .insufficientCoverage } :
      MetricIssue)]
  let medianIssues := if medianReturn.isSome then [] else
    [({ metric := "medianReturn", reason := .insufficientObservations } : MetricIssue)]
  let versions := orderedMembers.filterMap fun member =>
    (referenceByStock.get? member.stockId).map fun r => r.version
  return {
    calculationVersion := policy.version
    policyMaturity := policy.maturity.value
    membershipVersion := membership.version
    weightedReturn
    medianReturn
    advancingCount := if validCount = 0 then none else some advancing
    validCount := if validCount = 0 then none else some validCount
    advancingRatio
    coverage := ⟨status, core, related⟩
    cappedWeights
    qualityFlags := sortedTexts findings.qualityFlags
    issues := (dataIssues ++ weightedIssues ++ medianIssues).insertionSort fun a b =>
      a.rank ≤ b.rank
    referenceVersions := sortedTexts versions }

end Dayjaview.Calculations
