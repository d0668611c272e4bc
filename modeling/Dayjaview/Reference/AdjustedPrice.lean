import Dayjaview.Core.Freshest
import Dayjaview.Reference.Observations

/-!
# The adjusted price of the day before

The change of a day gives the price of the day before. Without it the closing price of the
trading day before is multiplied with the factor of the corporate actions of the day. No price is
made up when the sources disagree or say nothing.
-/

namespace Dayjaview.Reference

/-- The price of the day before, or why there is none. -/
structure AdjustedPriceResolution where
  stockCode : String
  effectiveFor : Date
  previousTradingDay : Option Date
  previousAdjustedClose : Option Decimal
  state : QualityState
  qualityFlags : List QualityFlag
  version : String
  lineage : List String

/-- The prices of a stock on a day that were known at a time. -/
def eligiblePrices (values : List DailyPriceObservation) (stockCode : String) (marketDate : Date)
    (decisionAt : Datetime) : List DailyPriceObservation :=
  values.filter fun v => decide (v.stockCode = stockCode) && decide (v.marketDate = marketDate) &&
    decide (v.metadata.knownAt ≤ decisionAt)

/-- What equally late prices have to agree on. -/
def DailyPriceObservation.quoted (v : DailyPriceObservation) : ℚ × Int :=
  (v.close.value, v.listedShares)

/-- The latest price of a stock on a day, or that the latest ones disagree. -/
def latestPrice (values : List DailyPriceObservation) (stockCode : String) (marketDate : Date)
    (decisionAt : Datetime) : Option DailyPriceObservation × Bool :=
  latestAgreeing (·.metadata.rank) DailyPriceObservation.quoted
    (eligiblePrices values stockCode marketDate decisionAt)

/-- What is known at a time about the corporate actions of a stock on a day. -/
def eligibleActions (values : List CorporateActionReference) (stockCode : String)
    (effectiveOn : Date) (decisionAt : Datetime) : List CorporateActionReference :=
  values.filter fun v => decide (v.stockCode = stockCode) && decide (v.effectiveOn = effectiveOn) &&
    decide (v.metadata.knownAt ≤ decisionAt)

/-- What equally late actions have to agree on. -/
def CorporateActionReference.stated (v : CorporateActionReference) :
    CorporateActionStatus × Option ℚ :=
  (v.status, v.adjustmentFactor.map Decimal.value)

/-- The latest action of a stock on a day, or that the latest ones disagree. -/
def latestAction (values : List CorporateActionReference) (stockCode : String) (effectiveOn : Date)
    (decisionAt : Datetime) : Option CorporateActionReference × Bool :=
  latestAgreeing (·.metadata.rank) CorporateActionReference.stated
    (eligibleActions values stockCode effectiveOn decisionAt)

/-- What some collections rest on. -/
def sourcesOf (values : List SourceMetadata) : List String := textSet (values.flatMap (·.sources))

/-- What a price is asked for with. -/
structure PriceRequest where
  stockCode : String
  marketDate : Date
  decisionAt : Datetime
  calendar : TradingCalendar
  dailyPrices : List DailyPriceObservation
  corporateActions : List CorporateActionReference
  version : String

namespace PriceRequest

variable (q : PriceRequest)

def unavailable (previousTradingDay : Option Date) (state : QualityState)
    (qualityFlags : List QualityFlag) (lineage : List String) : AdjustedPriceResolution where
  stockCode := q.stockCode
  effectiveFor := q.marketDate
  previousTradingDay := previousTradingDay
  previousAdjustedClose := none
  state := state
  qualityFlags := qualityFlags
  version := q.version
  lineage := lineage

def available (previousTradingDay : Date) (previousAdjustedClose : Decimal)
    (lineage : List String) : AdjustedPriceResolution where
  stockCode := q.stockCode
  effectiveFor := q.marketDate
  previousTradingDay := some previousTradingDay
  previousAdjustedClose := some previousAdjustedClose
  state := .verified
  qualityFlags := []
  version := q.version
  lineage := lineage

/-- The price that the change of the day implies. -/
def fromChange (current : DailyPriceObservation) (implied : Decimal) :
    Except Error AdjustedPriceResolution := do
  let (previousDay, calendarResolution) ← q.calendar.previousTradingDay q.marketDate q.decisionAt
  match previousDay with
  | none =>
    pure (q.unavailable none calendarResolution.state calendarResolution.qualityFlags
      calendarResolution.lineage)
  | some previousDay =>
    pure (q.available previousDay implied
      (textSet (current.metadata.lineage ++ calendarResolution.lineage)))

/-- The price that a trading day before and the corporate actions give. -/
def fromDayBefore (previousDay : Date) (calendarResolution : CalendarResolution) :
    Except Error AdjustedPriceResolution :=
  match latestPrice q.dailyPrices q.stockCode previousDay q.decisionAt with
  | (_, true) =>
    .ok (q.unavailable (some previousDay) .conflict [.referencePriceUnavailable]
      calendarResolution.lineage)
  | (none, false) =>
    .ok (q.unavailable (some previousDay) .missing [.referencePriceUnavailable]
      calendarResolution.lineage)
  | (some previous, false) =>
    match latestAction q.corporateActions q.stockCode q.marketDate q.decisionAt with
    | (_, true) =>
      .ok (q.unavailable (some previousDay) .conflict
        [.corporateActionUnresolved, .referencePriceUnavailable] (sourcesOf [previous.metadata]))
    | (none, false) =>
      .ok (q.unavailable (some previousDay) .corporateActionUnresolved
        [.corporateActionUnresolved, .referencePriceUnavailable] (sourcesOf [previous.metadata]))
    | (some action, false) =>
      if action.status = .unresolved then
        .ok (q.unavailable (some previousDay) .corporateActionUnresolved
          [.corporateActionUnresolved, .referencePriceUnavailable]
          (sourcesOf [previous.metadata, action.metadata]))
      else
        match action.adjustmentFactor with
        | none => .error ⟨.assertionError, ""⟩
        | some factor => do
          let adjusted ← Decimal.mul Decimal.defaultPrec previous.close factor
          pure (q.available previousDay adjusted
            (textSet
              (sourcesOf [previous.metadata, action.metadata] ++ calendarResolution.lineage)))

/-- The price that the trading day before gives, when the change of the day implies none. -/
def fromPreviousDay : Except Error AdjustedPriceResolution := do
  let (previousDay, calendarResolution) ← q.calendar.previousTradingDay q.marketDate q.decisionAt
  match previousDay with
  | none =>
    pure (q.unavailable none calendarResolution.state calendarResolution.qualityFlags
      calendarResolution.lineage)
  | some previousDay => q.fromDayBefore previousDay calendarResolution

/-- The adjusted price of the day before. -/
def resolvePreviousAdjustedClose : Except Error AdjustedPriceResolution :=
  if q.version = "" then .error ⟨.valueError, "adjusted price version은 비어 있을 수 없습니다."⟩
  else
    match latestPrice q.dailyPrices q.stockCode q.marketDate q.decisionAt with
    | (_, true) => .ok (q.unavailable none .conflict [.referencePriceUnavailable] [])
    | (none, false) => q.fromPreviousDay
    | (some current, false) => do
      match ← current.impliedPreviousAdjustedClose with
      | some implied => q.fromChange current implied
      | none => q.fromPreviousDay

end PriceRequest

end Dayjaview.Reference
