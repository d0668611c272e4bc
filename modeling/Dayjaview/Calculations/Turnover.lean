import Dayjaview.Calculations.ThemeMetrics

/-!
# The turnover of a theme over its usual one

The value traded in a stock up to a minute is compared with the median of the values traded
up to that minute on earlier trading days, on which the stock belonged to the theme. The
turnover of the theme is the ratio of the sums over the stocks that have both.
-/

namespace Dayjaview.Calculations

open Dayjaview.Domain

/-- The fields of the policy behind a baseline. -/
structure SameTimeBaselinePolicy.Fields where
  version : String
  maturity : PolicyMaturity
  lookbackTradingDays : Int
  minimumObservations : Int

/-- The checks of a policy, in order. -/
def SameTimeBaselinePolicy.Fields.postInit (p : SameTimeBaselinePolicy.Fields) :
    Except Error Unit := do
  ensure (p.version ≠ "") "baseline policy version은 비어 있을 수 없습니다"
  ensure (1 ≤ p.lookbackTradingDays) "lookback_trading_days는 1 이상이어야 합니다"
  ensure (1 ≤ p.minimumObservations ∧ p.minimumObservations ≤ p.lookbackTradingDays)
    "minimum_observations는 1 이상 lookback 이하이어야 합니다"

/-- The policy behind a baseline. -/
structure SameTimeBaselinePolicy extends SameTimeBaselinePolicy.Fields where
  valid : toFields.postInit = .ok ()

/-- How much stands behind a baseline. -/
inductive BaselineStatus where
  | full
  | provisional
  | insufficient
  deriving DecidableEq

/-- The turnover of a stock over its usual one. -/
structure StockTurnoverMetric where
  stockId : String
  currentTradingValue : Decimal
  baselineMedian : Decimal
  multiple : Decimal
  observationCount : Nat

/-- The turnover of a theme over its usual one. -/
structure ThemeTurnoverResult where
  baselineVersion : String
  policyMaturity : String
  membershipVersion : Option String
  turnoverMultiple : Option Decimal
  validCount : Nat
  totalCount : Nat
  baselineStatus : BaselineStatus
  stockMetrics : List StockTurnoverMetric
  qualityFlags : List String
  unavailableReason : Option UnavailableReason

/-- The element in the middle of some numbers, or the mean of the two there. -/
def turnoverMedian (values : List Decimal) : Except Error Decimal :=
  let ordered := values.insertionSort (· ≤ ·)
  let middle := ordered.length / 2
  if ordered.length % 2 = 1 then .ok (ordered.getD middle .zero)
  else
    match ordered[middle - 1]?, ordered[middle]? with
    | some a, some b => do Decimal.div 60 (← Decimal.add 60 a b) (.ofNat 2)
    | _, _ => .error ⟨.indexError, "list index out of range"⟩

/-- The trading days before the day of the evaluation that are looked back at. -/
def validateTradingDays (tradingDays : List Date) (evaluationDate : Date) (lookback : Int) :
    Except Error (List Date) := do
  ensure (tradingDays.dedup.insertionSort (· ≤ ·) = tradingDays)
    "trading_days는 중복 없이 오름차순이어야 합니다"
  ensure (evaluationDate ∈ tradingDays) "evaluation_date가 trading_days에 포함되어야 합니다"
  let position := tradingDays.idxOf evaluationDate
  return (tradingDays.take position).drop ((position : Int) - lookback).toNat

/-- Index the observations of a minute by stock and day. -/
def indexObservations (timeBucket : TimeOfDay) : List StockTradingValueObservation →
    Dict (String × Date) StockTradingValueObservation →
      Except Error (Dict (String × Date) StockTradingValueObservation)
  | [], indexed => .ok indexed
  | observation :: observations, indexed =>
    if observation.timeBucket ≠ timeBucket then indexObservations timeBucket observations indexed
    else
      let key := (observation.stockId, observation.marketDate)
      if (indexed.get? key).isSome then
        .error ⟨.valueError, "같은 stock_id·market_date·time_bucket 관측이 중복되었습니다"⟩
      else indexObservations timeBucket observations (indexed.set key observation)

/-- An observation may be used at a decision time. -/
def isUsable (observation : Option StockTradingValueObservation) (decisionAt : Datetime) : Bool :=
  observation.any fun o => o.observedAt ≤ decisionAt && o.comparable && o.fresh &&
    !o.tradingHalted && !o.corporateActionUnresolved && o.cumulativeTradingValue.isSome

/-- The flag of a stock whose observation may not be used. -/
def unusableFlag (current : Option StockTradingValueObservation) : QualityFlag :=
  match current with
  | none => .sourceDegraded
  | some current =>
    if current.tradingHalted then .tradingHalted
    else if current.corporateActionUnresolved then .corporateActionUnresolved
    else if current.fresh = false then .staleMarketData
    else .sourceDegraded

/-- The value traded in a stock on an earlier day, if it counts. -/
def historicalValue (snapshots : List ThemeMembershipSnapshot) (themeId : String)
    (indexed : Dict (String × Date) StockTradingValueObservation) (stockId : String)
    (historyDate : Date) : Except Error (Option Decimal) :=
  match indexed.get? (stockId, historyDate) with
  | none => .ok none
  | some historical => do
    match ← selectMembershipSnapshot snapshots themeId historyDate historical.observedAt with
    | none => return none
    | some membership =>
      if membership.contains stockId = false then return none
      else if isUsable (some historical) historical.observedAt = false then return none
      else return historical.cumulativeTradingValue

/-- The turnover of a stock from the value traded so far and those of earlier days. -/
def turnoverOver (policy : SameTimeBaselinePolicy) (stockId : String) (current : Decimal)
    (historicalValues : List Decimal) : Except Error (Sum QualityFlag StockTurnoverMetric) :=
  if (historicalValues.length : Int) < policy.minimumObservations then
    .ok (.inl .insufficientObservations)
  else do
    let baselineMedian ← turnoverMedian historicalValues
    if baselineMedian ≤ Decimal.zero then return .inl .zeroBaseline
    else
      let multiple ← Decimal.div 60 current baselineMedian
      return .inr {
        stockId
        currentTradingValue := current
        baselineMedian
        multiple
        observationCount := historicalValues.length }

/-- The turnover of a member, or the flag of a member that has none. -/
def memberTurnover (policy : SameTimeBaselinePolicy) (snapshots : List ThemeMembershipSnapshot)
    (themeId : String) (evaluationDate : Date) (evaluationAt : Datetime) (historyDates : List Date)
    (indexed : Dict (String × Date) StockTradingValueObservation) (member : ThemeMember) :
    Except Error (Sum QualityFlag StockTurnoverMetric) :=
  let current := indexed.get? (member.stockId, evaluationDate)
  if isUsable current evaluationAt = false then .ok (.inl (unusableFlag current))
  else do
    let historical ← historyDates.mapM (historicalValue snapshots themeId indexed member.stockId)
    turnoverOver policy member.stockId
      ((current.bind fun o => o.cumulativeTradingValue).getD .zero) (historical.filterMap id)

/-- The result for a theme without a membership. -/
def withoutMembership (policy : SameTimeBaselinePolicy) : ThemeTurnoverResult where
  baselineVersion := policy.version
  policyMaturity := policy.maturity.value
  membershipVersion := none
  turnoverMultiple := none
  validCount := 0
  totalCount := 0
  baselineStatus := .insufficient
  stockMetrics := []
  qualityFlags := [QualityFlag.membershipVersionMismatch.value]
  unavailableReason := some .membershipHistoryUnavailable

/-- The result for a theme from the turnovers of its members. -/
def themeTurnover (policy : SameTimeBaselinePolicy) (version : String) (totalCount : Nat)
    (stockMetrics : List StockTurnoverMetric) (flags : List QualityFlag) :
    Except Error ThemeTurnoverResult :=
  let result (turnoverMultiple : Option Decimal) (baselineStatus : BaselineStatus)
      (flags : List QualityFlag) (unavailableReason : Option UnavailableReason) :
      ThemeTurnoverResult := {
    baselineVersion := policy.version
    policyMaturity := policy.maturity.value
    membershipVersion := some version
    turnoverMultiple
    validCount := stockMetrics.length
    totalCount
    baselineStatus
    stockMetrics
    qualityFlags := sortedTexts (flags.map QualityFlag.value)
    unavailableReason }
  if stockMetrics.isEmpty then
    .ok (result none .insufficient flags (some .insufficientObservations))
  else do
    let denominator ← Decimal.sum Decimal.defaultPrec
      (stockMetrics.map StockTurnoverMetric.baselineMedian)
    let numerator ← Decimal.sum Decimal.defaultPrec
      (stockMetrics.map StockTurnoverMetric.currentTradingValue)
    if denominator ≤ Decimal.zero then
      return result none .insufficient (.zeroBaseline :: flags) (some .zeroBaseline)
    else
      let turnoverMultiple ← Decimal.div 60 numerator denominator
      if stockMetrics.length = totalCount ∧
          ∀ metric ∈ stockMetrics, (metric.observationCount : Int) = policy.lookbackTradingDays then
        return result (some turnoverMultiple) .full flags none
      else return result (some turnoverMultiple) .provisional (.provisionalBaseline :: flags) none

/-- The result for a theme with a membership. -/
def membershipTurnover (policy : SameTimeBaselinePolicy) (snapshots : List ThemeMembershipSnapshot)
    (themeId : String) (evaluationDate : Date) (evaluationAt : Datetime) (historyDates : List Date)
    (indexed : Dict (String × Date) StockTradingValueObservation)
    (membership : ThemeMembershipSnapshot) : Except Error ThemeTurnoverResult := do
  let members := membership.members.insertionSort fun a b => a.stockId ≤ b.stockId
  let outcomes ← members.mapM
    (memberTurnover policy snapshots themeId evaluationDate evaluationAt historyDates indexed)
  themeTurnover policy membership.version members.length
    ((outcomes.filterMap Sum.getRight?).insertionSort fun a b => a.stockId ≤ b.stockId)
    (outcomes.filterMap Sum.getLeft?)

/-- The turnover of a theme up to a minute over its usual one. -/
def calculateThemeTurnover (themeId : String) (evaluationDate : Date) (evaluationAt : Datetime)
    (timeBucket : TimeOfDay) (tradingDays : List Date)
    (membershipSnapshots : List ThemeMembershipSnapshot)
    (observations : List StockTradingValueObservation) (policy : SameTimeBaselinePolicy) :
    Except Error ThemeTurnoverResult := do
  let historyDates ← validateTradingDays tradingDays evaluationDate policy.lookbackTradingDays
  let indexed ← indexObservations timeBucket observations .empty
  match ← selectMembershipSnapshot membershipSnapshots themeId evaluationDate evaluationAt with
  | none => return withoutMembership policy
  | some membership =>
    membershipTurnover policy membershipSnapshots themeId evaluationDate evaluationAt historyDates
      indexed membership

end Dayjaview.Calculations
