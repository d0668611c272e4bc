import Dayjaview.Core.Ranking
import Dayjaview.Core.Timedelta
import Dayjaview.Reference.Models

/-!
# The trading calendar

Whether a date is a trading day is observed at some time. A calendar answers for the
time of a decision: the latest observations that were known then decide, and nothing
is answered if they disagree or if there are none.
-/

namespace Dayjaview.Reference

/-- How far an answer can be trusted. -/
inductive QualityState where
  | verified
  | partial_
  | missing
  | conflict
  | stale
  | corporateActionUnresolved
  | pointInTimeUnavailable
  deriving DecidableEq

inductive QualityFlag where
  | freeFloatUnavailable
  | freeFloatStale
  | freeFloatSourceConflict
  | sourceMissing
  | sourceStale
  | duplicateDeductionPrevented
  | corporateActionUnresolved
  | referencePriceUnavailable
  | calendarUnavailable
  | pointInTimeFiltered
  | liveUnverified
  deriving DecidableEq

/-- A time of the day, in microseconds. -/
abbrev ClockTime := Fin dayMicros

/-- The fields of an observation of a date. -/
structure TradingDayObservation.Fields where
  marketDate : Date
  isTradingDay : Bool
  sessionOpen : Option ClockTime
  sessionClose : Option ClockTime
  version : String
  metadata : SourceMetadata

/-- The checks of an observation, in order. -/
def TradingDayObservation.Fields.postInit (o : TradingDayObservation.Fields) : Except Error Unit :=
  do
  ensure (o.version ≠ "") "calendar version은 비어 있을 수 없습니다."
  if o.isTradingDay then
    match o.sessionOpen, o.sessionClose with
    | some opens, some closes => ensure (opens < closes) "개장 시각은 마감 시각보다 빨라야 합니다."
    | _, _ => .error ⟨.valueError, "거래일에는 개장·마감 시각이 필요합니다."⟩
  else
    ensure (o.sessionOpen = none ∧ o.sessionClose = none) "비거래일에는 session 시각을 둘 수 없습니다."

structure TradingDayObservation extends TradingDayObservation.Fields where
  valid : toFields.postInit = .ok ()

/-- Build an observation, or report the first failed check. -/
def TradingDayObservation.make (o : TradingDayObservation.Fields) :
    Except Error TradingDayObservation :=
  checked TradingDayObservation.Fields.postInit TradingDayObservation.mk o

/-- What a calendar answers for a date. -/
structure CalendarResolution where
  marketDate : Date
  isTradingDay : Option Bool
  state : QualityState
  qualityFlags : List QualityFlag
  version : Option String
  lineage : List String
  deriving DecidableEq

/-- Where some observations come from. -/
def lineageOf (values : List TradingDayObservation) : List String :=
  textSet (values.flatMap (·.metadata.lineage))

/-- The rank of an observation: when it was known, and its revision. -/
def TradingDayObservation.rank (o : TradingDayObservation) : ℤ ×ₗ ℕ :=
  toLex (o.metadata.knownAt.instant, o.metadata.revision)

/-- The observations of a calendar. -/
abbrev TradingCalendar := List TradingDayObservation

namespace TradingCalendar

/-- The observations of a date that were known at a time. -/
def eligible (c : TradingCalendar) (marketDate : Date) (decisionAt : Datetime) :
    List TradingDayObservation :=
  c.filter fun o => decide (o.marketDate = marketDate) && decide (o.metadata.knownAt ≤ decisionAt)

def resolve (c : TradingCalendar) (marketDate : Date) (decisionAt : Datetime) :
    CalendarResolution :=
  let eligible := c.eligible marketDate decisionAt
  match (eligible.map (·.rank)).max? with
  | none =>
    { marketDate
      isTradingDay := none
      state := .pointInTimeUnavailable
      qualityFlags := [.calendarUnavailable, .pointInTimeFiltered]
      version := none
      lineage := [] }
  | some latestKey =>
    let latest := eligible.filter (·.rank = latestKey)
    match (latest.map fun o => (o.isTradingDay, o.version)).dedup with
    | [(isTradingDay, version)] =>
      { marketDate
        isTradingDay := some isTradingDay
        state := .verified
        qualityFlags := []
        version := some version
        lineage := lineageOf latest }
    | _ =>
      { marketDate
        isTradingDay := none
        state := .conflict
        qualityFlags := [.calendarUnavailable]
        version := none
        lineage := lineageOf latest }

/-- Go back from a date, day by day, to a trading day. -/
def lookBack (c : TradingCalendar) (marketDate : Date) (decisionAt : Datetime) :
    Nat → Nat → Except Error (Option Date × CalendarResolution)
  | 0, _ =>
    .ok (none,
      { marketDate
        isTradingDay := none
        state := .missing
        qualityFlags := [.calendarUnavailable]
        version := none
        lineage := [] })
  | left + 1, offset =>
    match marketDate.earlier offset with
    | none => .error ⟨.overflowError, "date value out of range"⟩
    | some candidate =>
      let resolution := c.resolve candidate decisionAt
      if resolution.state ≠ .verified then .ok (none, resolution)
      else if resolution.isTradingDay = some true then .ok (some candidate, resolution)
      else lookBack c marketDate decisionAt left (offset + 1)

/-- The trading day before a date. -/
def previousTradingDay (c : TradingCalendar) (marketDate : Date) (decisionAt : Datetime)
    (maxLookbackDays : Int := 370) : Except Error (Option Date × CalendarResolution) :=
  if maxLookbackDays ≤ 0 then .error ⟨.valueError, "max_lookback_days는 1 이상이어야 합니다."⟩
  else c.lookBack marketDate decisionAt maxLookbackDays.toNat 1

end TradingCalendar

end Dayjaview.Reference
