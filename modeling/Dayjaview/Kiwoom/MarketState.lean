import Dayjaview.Core.Arithmetic
import Dayjaview.Core.Dict
import Dayjaview.Kiwoom.Events

/-!
# The latest observations and their freshness

The state keeps the last applied observation of every stock. A coverage report
groups the asked stocks by how fresh theirs is; asked for stock ids, it is always
made.
-/

namespace Dayjaview.Kiwoom

inductive ConnectionPhase where
  | disconnected
  | reconnecting
  | recovering
  | connected
  deriving DecidableEq

/-- How fresh the observation of a stock is. -/
inductive StockFreshness where
  | fresh
  | lowConfidence
  | stale
  | incomplete
  | missing
  deriving DecidableEq

/-- How far the asked stocks are observed. -/
inductive CoverageStatus where
  | complete
  | partialCoverage
  | insufficient
  deriving DecidableEq

/-- The fields of a coverage report. -/
structure CoverageReport.Fields where
  status : CoverageStatus
  requestedCount : Nat
  freshCount : Nat
  lowConfidenceCount : Nat
  staleCount : Nat
  incompleteCount : Nat
  missingCount : Nat
  freshRatio : Option Decimal
  freshStockIds : List String
  lowConfidenceStockIds : List String
  staleStockIds : List String
  incompleteStockIds : List String
  missingStockIds : List String

/-- The checks of a report, in order. -/
def CoverageReport.Fields.postInit (r : CoverageReport.Fields) : Except Error Unit := do
  ensure (r.freshCount + r.lowConfidenceCount + r.staleCount + r.incompleteCount + r.missingCount =
    r.requestedCount) "Coverage 상세 count 합계가 requested_count와 다릅니다"
  ensure (r.requestedCount = 0 → r.freshRatio = none) "대상 0건 Coverage ratio는 null이어야 합니다"

/-- How fresh the observations of some stocks are. -/
structure CoverageReport extends CoverageReport.Fields where
  valid : toFields.postInit = .ok ()

/-- Build a report, or report the first failed check. -/
def CoverageReport.make (r : CoverageReport.Fields) : Except Error CoverageReport :=
  checked CoverageReport.Fields.postInit CoverageReport.mk r

/-- What a coverage report looks at besides the observations. -/
structure CoverageContext where
  now : Datetime
  phase : ConnectionPhase
  currentSessionId : Option String
  heartbeatFresh : Bool
  subscriptions : List String

/-- The last applied observations. -/
structure MarketState where
  snapshotFreshFor : Int := 30000000
  snapshotLowConfidenceFor : Int := 60000000
  observations : Dict String CanonicalMarketEvent := .empty
  valid : 0 ≤ snapshotFreshFor ∧ snapshotFreshFor ≤ snapshotLowConfidenceFor := by decide

namespace MarketState

def apply (s : MarketState) (event : CanonicalMarketEvent) : MarketState :=
  if event.isObservation then
      { s with observations := s.observations.set event.stockId event } else s

/-- The observation of a stock. -/
def eventFor (s : MarketState) (stockId : String) : Option CanonicalMarketEvent :=
  s.observations.get? stockId

/-- How fresh the observation of a stock is. -/
def freshness (s : MarketState) (context : CoverageContext) (stockId : String) : StockFreshness :=
  match s.observations.get? stockId with
  | none => .missing
  | some event =>
    match event.observation? with
    | none => .missing
    | some observation =>
      if observation.missingFields ≠ [] then .incomplete
      else if observation.observationSource = .realtime0B then
        if context.phase = .connected ∧ context.heartbeatFresh = true ∧
            stockId ∈ context.subscriptions ∧
            some event.lineage.sessionId = context.currentSessionId then .fresh
        else .stale
      else
        let age := context.now.instant - event.receivedAt.instant
        if age < 0 then .stale
        else if age ≤ s.snapshotFreshFor then .fresh
        else if age ≤ s.snapshotLowConfidenceFor then .lowConfidence
        else .stale

/-- The asked stocks of a freshness. -/
def group (s : MarketState) (context : CoverageContext) (requested : List String)
    (freshness : StockFreshness) : List String :=
  requested.filter fun stockId => s.freshness context stockId = freshness

/-- The report on some stocks with a ratio of the fresh ones. -/
def report (s : MarketState) (context : CoverageContext) (requested : List String)
    (freshRatio : Option Decimal) : CoverageReport.Fields :=
  let group := s.group context requested
  let total := requested.length
  let freshCount := (group .fresh).length
  { status :=
      if 0 < total ∧ freshCount = total then .complete
      else if 0 < freshCount then .partialCoverage
      else .insufficient
    requestedCount := total
    freshCount
    lowConfidenceCount := (group .lowConfidence).length
    staleCount := (group .stale).length
    incompleteCount := (group .incomplete).length
    missingCount := (group .missing).length
    freshRatio
    freshStockIds := group .fresh
    lowConfidenceStockIds := group .lowConfidence
    staleStockIds := group .stale
    incompleteStockIds := group .incomplete
    missingStockIds := group .missing }

/-- The ratio of the fresh stocks. -/
def freshRatio (freshCount total : Nat) : Except Error (Option Decimal) :=
  if total = 0 then .ok none else (Decimal.div 50 (.ofNat freshCount) (.ofNat total)).map some

def coverage (s : MarketState) (stockIds : List String) (context : CoverageContext) :
    Except Error CoverageReport := do
  let requested := sortedTuple stockIds
  requested.forM requireStockId
  let ratio ← freshRatio (s.group context requested .fresh).length requested.length
  CoverageReport.make (s.report context requested ratio)

end MarketState

namespace MarketState

end MarketState

end Dayjaview.Kiwoom
