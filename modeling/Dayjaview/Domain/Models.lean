import Dayjaview.Core.Arithmetic
import Dayjaview.Core.Calendar
import Mathlib.Data.List.Dedup
import Mathlib.Data.List.Sort
import Mathlib.Data.String.Basic

/-!
# Memberships, stock references and observations

A membership or a reference may be used only from the day it is effective and
from the time it is known. Numbers in these records are finite by their type;
what remains to check is their sign.
-/

namespace Dayjaview.Domain

/-- The role of a stock in a theme. -/
inductive MembershipRole where
  | core
  | related
  deriving DecidableEq

inductive DataStatus where
  | preopen
  | live
  | delayed
  | degraded
  | closed
  deriving DecidableEq

/-- The written form of a data status. -/
def DataStatus.value : DataStatus → String
  | preopen => "PREOPEN"
  | live => "LIVE"
  | delayed => "DELAYED"
  | degraded => "DEGRADED"
  | closed => "CLOSED"

/-- What limits the quality of a calculation. -/
inductive QualityFlag where
  | partialCoverage
  | insufficientCoverage
  | staleMarketData
  | freeFloatUnavailable
  | provisionalBaseline
  | membershipVersionMismatch
  | sourceDegraded
  | referencePriceUnavailable
  | marketPriceUnavailable
  | tradingHalted
  | corporateActionUnresolved
  | insufficientObservations
  | zeroBaseline
  | pointInTimeViolation
  deriving DecidableEq

/-- The written form of a quality flag. -/
def QualityFlag.value : QualityFlag → String
  | partialCoverage => "PARTIAL_COVERAGE"
  | insufficientCoverage => "INSUFFICIENT_COVERAGE"
  | staleMarketData => "STALE_MARKET_DATA"
  | freeFloatUnavailable => "FREE_FLOAT_UNAVAILABLE"
  | provisionalBaseline => "PROVISIONAL_BASELINE"
  | membershipVersionMismatch => "MEMBERSHIP_VERSION_MISMATCH"
  | sourceDegraded => "SOURCE_DEGRADED"
  | referencePriceUnavailable => "REFERENCE_PRICE_UNAVAILABLE"
  | marketPriceUnavailable => "MARKET_PRICE_UNAVAILABLE"
  | tradingHalted => "TRADING_HALTED"
  | corporateActionUnresolved => "CORPORATE_ACTION_UNRESOLVED"
  | insufficientObservations => "INSUFFICIENT_OBSERVATIONS"
  | zeroBaseline => "ZERO_BASELINE"
  | pointInTimeViolation => "POINT_IN_TIME_VIOLATION"

inductive UnavailableReason where
  | emptyMembership
  | insufficientCoverage
  | missingReferenceData
  | missingMarketData
  | tradingHalted
  | corporateActionUnresolved
  | insufficientObservations
  | zeroBaseline
  | noPriorAttentionInterval
  | noCurrentAttentionInterval
  | membershipHistoryUnavailable
  | membershipVersionMismatch
  | incompleteAttentionHistory
  deriving DecidableEq

/-- The written form of a reason. -/
def UnavailableReason.value : UnavailableReason → String
  | emptyMembership => "EMPTY_MEMBERSHIP"
  | insufficientCoverage => "INSUFFICIENT_COVERAGE"
  | missingReferenceData => "MISSING_REFERENCE_DATA"
  | missingMarketData => "MISSING_MARKET_DATA"
  | tradingHalted => "TRADING_HALTED"
  | corporateActionUnresolved => "CORPORATE_ACTION_UNRESOLVED"
  | insufficientObservations => "INSUFFICIENT_OBSERVATIONS"
  | zeroBaseline => "ZERO_BASELINE"
  | noPriorAttentionInterval => "NO_PRIOR_ATTENTION_INTERVAL"
  | noCurrentAttentionInterval => "NO_CURRENT_ATTENTION_INTERVAL"
  | membershipHistoryUnavailable => "MEMBERSHIP_HISTORY_UNAVAILABLE"
  | membershipVersionMismatch => "MEMBERSHIP_VERSION_MISMATCH"
  | incompleteAttentionHistory => "INCOMPLETE_ATTENTION_HISTORY"

structure ThemeMember where
  stockId : String
  role : MembershipRole
  valid : stockId ≠ ""

theorem stock005930_ne : "KRX:005930" ≠ "" := by decide
theorem stock000660_ne : "KRX:000660" ≠ "" := by decide

/-- The fields of a membership of a theme. -/
structure ThemeMembershipSnapshot.Fields where
  themeId : String
  version : String
  effectiveFrom : Date
  knownAt : Datetime
  members : List ThemeMember

/-- The checks of a membership, in order. -/
def ThemeMembershipSnapshot.Fields.postInit (m : ThemeMembershipSnapshot.Fields) :
    Except Error Unit := do
  ensure (m.themeId ≠ "") "theme_id는 비어 있을 수 없습니다"
  ensure (m.version ≠ "") "membership version은 비어 있을 수 없습니다"
  ensure (m.members.map ThemeMember.stockId).Nodup
    "membership snapshot에 중복 stock_id가 있습니다"

/-- The stocks of a theme, with the times from which they may be used. -/
structure ThemeMembershipSnapshot extends ThemeMembershipSnapshot.Fields where
  valid : toFields.postInit = .ok ()

/-- The stock belongs to the theme. -/
def ThemeMembershipSnapshot.contains (m : ThemeMembershipSnapshot) (stockId : String) : Bool :=
  m.members.any fun member => member.stockId == stockId

theorem ThemeMembershipSnapshot.contains_iff {m : ThemeMembershipSnapshot} {stockId : String} :
    m.contains stockId = true ↔ ∃ member ∈ m.members, member.stockId = stockId := by
  simp [contains]

/-- The membership was effective and known at a decision time. -/
def ThemeMembershipSnapshot.Usable (m : ThemeMembershipSnapshot) (themeId : String)
    (marketDate : Date) (decisionAt : Datetime) : Prop :=
  m.themeId = themeId ∧ m.effectiveFrom ≤ marketDate ∧ m.knownAt ≤ decisionAt

instance (m : ThemeMembershipSnapshot) (themeId : String) (marketDate : Date)
    (decisionAt : Datetime) : Decidable (m.Usable themeId marketDate decisionAt) :=
  inferInstanceAs (Decidable (_ ∧ _ ∧ _))

/-- The order in which later memberships win. -/
def ThemeMembershipSnapshot.rank (m : ThemeMembershipSnapshot) : Date ×ₗ Int ×ₗ String :=
  toLex (m.effectiveFrom, toLex (m.knownAt.instant, m.version))

/-- The membership of a theme at a decision time, if there is one. -/
def selectMembershipSnapshot (snapshots : List ThemeMembershipSnapshot) (themeId : String)
    (marketDate : Date) (decisionAt : Datetime) :
    Except Error (Option ThemeMembershipSnapshot) :=
  let eligible := snapshots.filter fun m => decide (m.Usable themeId marketDate decisionAt)
  match (eligible.insertionSort fun a b => a.rank ≤ b.rank).getLast? with
  | none => .ok none
  | some selected =>
    if 1 < eligible.countP fun m => m.effectiveFrom = selected.effectiveFrom ∧
        m.knownAt.instant = selected.knownAt.instant then
      .error ⟨.valueError, "같은 시점에 둘 이상의 membership version이 유효합니다"⟩
    else .ok (some selected)

theorem selectMembershipSnapshot_instant (snapshots : List ThemeMembershipSnapshot)
    (themeId : String) (marketDate : Date) {s t : Datetime} (h : s.instant = t.instant) :
    selectMembershipSnapshot snapshots themeId marketDate s =
      selectMembershipSnapshot snapshots themeId marketDate t := by
  have husable : ∀ m : ThemeMembershipSnapshot,
      m.Usable themeId marketDate s ↔ m.Usable themeId marketDate t := by
    intro m
    simp only [ThemeMembershipSnapshot.Usable, Datetime.le_def, h]
  simp only [selectMembershipSnapshot, husable]

/-- The fields of the reference data of a stock. -/
structure StockReference.Fields where
  stockId : String
  effectiveFor : Date
  knownAt : Datetime
  previousAdjustedClose : Option Decimal
  listedShares : Option Int
  freeFloatRatio : Option Decimal
  freeFloatValidated : Bool
  version : String
  corporateActionResolved : Bool := true

/-- A present ratio lies between zero and one. -/
def requireRatio (value : Option Decimal) (message : String) : Except Error Unit :=
  match value with
  | none => .ok ()
  | some value => ensure (Decimal.zero ≤ value ∧ value ≤ .ofNat 1) message

/-- A present number is not negative. -/
def requireNonNegative (value : Option Decimal) (message : String) : Except Error Unit :=
  match value with
  | none => .ok ()
  | some value => ensure (¬ value < Decimal.zero) message

/-- The checks of a reference, in order. -/
def StockReference.Fields.postInit (r : StockReference.Fields) : Except Error Unit := do
  ensure (r.stockId ≠ "") "stock_id는 비어 있을 수 없습니다"
  ensure (r.version ≠ "") "reference version은 비어 있을 수 없습니다"
  requireNonNegative r.previousAdjustedClose "previous_adjusted_close는 음수일 수 없습니다"
  ensure (∀ n ∈ r.listedShares, 0 ≤ n) "listed_shares는 음수일 수 없습니다"
  requireRatio r.freeFloatRatio "free_float_ratio는 0과 1 사이여야 합니다"

/-- The reference data of a stock. -/
structure StockReference extends StockReference.Fields where
  valid : toFields.postInit = .ok ()

/-- Build a reference, or report the first failed check. -/
def StockReference.make (f : StockReference.Fields) : Except Error StockReference :=
  checked StockReference.Fields.postInit StockReference.mk f

/-- The close that returns are measured against, when it may be used. -/
def StockReference.adjustedReturnReference (r : StockReference) (marketDate : Date)
    (asOf : Datetime) : Option Decimal :=
  if r.effectiveFor ≠ marketDate ∨ asOf < r.knownAt ∨ r.corporateActionResolved = false then none
  else r.previousAdjustedClose.filter fun close => ¬ close ≤ Decimal.zero

/-- The value of the shares in free float, when everything behind it may be used. -/
def StockReference.freeFloatMarketCap (r : StockReference) (marketDate : Date)
    (asOf : Datetime) : Except Error (Option Decimal) :=
  match r.adjustedReturnReference marketDate asOf, r.listedShares, r.freeFloatRatio with
  | some previousClose, some listedShares, some freeFloatRatio =>
    if listedShares ≤ 0 ∨ freeFloatRatio ≤ Decimal.zero ∨ r.freeFloatValidated = false then .ok none
    else do
      let value ← Decimal.mul Decimal.defaultPrec previousClose (.ofInt listedShares)
      return some (← Decimal.mul Decimal.defaultPrec value freeFloatRatio)
  | _, _, _ => .ok none

/-- The fields of one observation of a stock. -/
structure StockMarketObservation.Fields where
  stockId : String
  marketDate : Date
  observedAt : Datetime
  currentPrice : Option Decimal
  cumulativeTradingValue : Option Decimal
  fresh : Bool := true
  tradingHalted : Bool := false
  corporateActionUnresolved : Bool := false

/-- The checks of an observation, in order. -/
def StockMarketObservation.Fields.postInit (o : StockMarketObservation.Fields) :
    Except Error Unit := do
  ensure (o.stockId ≠ "") "stock_id는 비어 있을 수 없습니다"
  requireNonNegative o.currentPrice "current_price는 음수일 수 없습니다"
  requireNonNegative o.cumulativeTradingValue "cumulative_trading_value는 음수일 수 없습니다"

structure TimeOfDay where
  hour : Nat
  minute : Nat
  second : Nat
  microsecond : Nat
  valid : hour < 24 ∧ minute < 60 ∧ second < 60 ∧ microsecond < 1000000
  deriving DecidableEq

/-- The fields of one observation of the value traded in a stock. -/
structure StockTradingValueObservation.Fields where
  stockId : String
  marketDate : Date
  observedAt : Datetime
  timeBucket : TimeOfDay
  cumulativeTradingValue : Option Decimal
  comparable : Bool := true
  fresh : Bool := true
  tradingHalted : Bool := false
  corporateActionUnresolved : Bool := false

/-- The checks of an observation of the value traded, in order. -/
def StockTradingValueObservation.Fields.postInit (o : StockTradingValueObservation.Fields) :
    Except Error Unit := do
  ensure (o.stockId ≠ "") "stock_id는 비어 있을 수 없습니다"
  ensure (o.timeBucket.second = 0 ∧ o.timeBucket.microsecond = 0) "time_bucket은 1분 경계여야 합니다"
  requireNonNegative o.cumulativeTradingValue "cumulative_trading_value는 음수일 수 없습니다"

/-- One observation of the value traded in a stock. -/
structure StockTradingValueObservation extends StockTradingValueObservation.Fields where
  valid : toFields.postInit = .ok ()

/-- Build an observation, or report the first failed check. -/
def StockTradingValueObservation.make (f : StockTradingValueObservation.Fields) :
    Except Error StockTradingValueObservation :=
  checked StockTradingValueObservation.Fields.postInit StockTradingValueObservation.mk f

/-- How far the constituents of a theme are observed. -/
inductive CoverageStatus where
  | sufficient
  | partialCoverage
  | insufficient
  deriving DecidableEq

/-- The written form of a coverage status. -/
def CoverageStatus.value : CoverageStatus → String
  | sufficient => "SUFFICIENT"
  | partialCoverage => "PARTIAL"
  | insufficient => "INSUFFICIENT"

/-- The fields of the coverage of a group of constituents. -/
structure CoveragePart.Fields where
  observedCount : Nat
  totalCount : Nat
  countRatio : Option Decimal
  observedWeightRatio : Option Decimal := none
  deriving DecidableEq

def CoveragePart.ratio (numerator denominator : Nat) : Except Error (Option Decimal) :=
  if denominator = 0 then .ok none
  else do return some (← Decimal.div 50 (.ofNat numerator) (.ofNat denominator))

/-- Two optional numbers are both missing or of one value. -/
def sameValue : Option Decimal → Option Decimal → Bool
  | none, none => true
  | some a, some b => a ≤ b ∧ b ≤ a
  | _, _ => false

theorem sameValue_self (a : Option Decimal) : sameValue a a = true := by
  cases a with
  | none => rfl
  | some d =>
    have hle : d ≤ d := le_refl (d.scaled (min d.exponent d.exponent))
    simp [sameValue, hle]

/-- The checks of a part, in order. -/
def CoveragePart.Fields.postInit (p : CoveragePart.Fields) : Except Error Unit := do
  ensure (p.observedCount ≤ p.totalCount) "observed_count는 total_count를 초과할 수 없습니다"
  let expected ← CoveragePart.ratio p.observedCount p.totalCount
  ensure (sameValue p.countRatio expected = true) "count_ratio가 count와 일치하지 않습니다"
  ensure (∀ w ∈ p.observedWeightRatio, Decimal.zero ≤ w ∧ w ≤ .ofNat 1)
    "observed_weight_ratio는 0과 1 사이여야 합니다"

/-- The coverage of a group of constituents. -/
structure CoveragePart extends CoveragePart.Fields where
  valid : toFields.postInit = .ok ()
  deriving DecidableEq

/-- The coverage with the ratio of the given counts. -/
def CoveragePart.fromCounts (observedCount totalCount : Nat)
    (observedWeightRatio : Option Decimal) : Except Error CoveragePart := do
  let countRatio ← CoveragePart.ratio observedCount totalCount
  checked CoveragePart.Fields.postInit CoveragePart.mk
    { observedCount, totalCount, countRatio, observedWeightRatio }

/-- The coverage of a theme: its core, and core and related together. -/
structure Coverage where
  status : CoverageStatus
  core : CoveragePart
  related : CoveragePart
  deriving DecidableEq

end Dayjaview.Domain
