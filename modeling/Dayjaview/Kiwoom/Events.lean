import Dayjaview.Core.Decimal
import Dayjaview.Core.JsonReading
import Dayjaview.Kiwoom.Contract

/-!
# Market events

An envelope is what the source hands over, with the place and the times that the
adapter gives it. Its items become canonical events: a candidate that entered or
left a condition, or an observation of a stock.
-/

namespace Dayjaview.Kiwoom

/-- The version of a canonical event. -/
def CANONICAL_EVENT_SCHEMA_VERSION : String := "market-event.v1"

/-- The version of the adapter. -/
def ADAPTER_VERSION : String := "kiwoom-read-only.v1"

inductive SourceChannel where
  | websocket
  | restSnapshot
  deriving DecidableEq

/-- What a canonical event is about. -/
inductive CanonicalEventType where
  | candidateEntered
  | candidateExited
  | trade
  | snapshot
  deriving DecidableEq

/-- The written form of an event type. -/
def CanonicalEventType.value : CanonicalEventType → String
  | candidateEntered => "market.candidate.entered"
  | candidateExited => "market.candidate.exited"
  | trade => "market.trade"
  | snapshot => "market.snapshot"

/-- What a candidate does to its condition. -/
inductive CandidateAction where
  | enter
  | exit
  deriving DecidableEq

/-- Where an observation comes from. -/
inductive ObservationSource where
  | realtime0B
  | restKa10095
  deriving DecidableEq

structure KiwoomConnection where
  sessionId : String
  connectedAt : Datetime
  valid : sessionId ≠ "" := by decide

instance : DecidableEq KiwoomConnection := fun a b =>
  decidable_of_iff (a.sessionId = b.sessionId ∧ a.connectedAt = b.connectedAt) <| by
    cases a
    cases b
    simp

/-- A raw message with the place and the times that the adapter gives it. -/
structure KiwoomSourceEnvelope where
  sourceSchemaVersion : String
  channel : SourceChannel
  sessionId : String
  sourceMessageId : String
  sourceSequence : Int
  sourceTimestamp : Datetime
  receivedAt : Datetime
  payload : JsonValue.Fields
  requestId : Option String := none
  valid : sourceSchemaVersion ≠ "" ∧ sessionId ≠ "" ∧ sourceMessageId ≠ "" ∧
    0 ≤ sourceSequence := by
    decide
  deriving DecidableEq

structure EventLineage.Fields where
  provider : String
  adapterVersion : String
  sourceSchemaVersion : String
  sourceChannel : SourceChannel
  sessionId : String
  sourceMessageId : String
  sourceItemIndex : Nat
  requestId : Option String
  rawPayloadSha256 : String

/-- The checks of a lineage, in order. -/
def EventLineage.Fields.postInit (l : EventLineage.Fields) : Except Error Unit := do
  ensure (l.provider = "KIWOOM") "provider는 KIWOOM이어야 합니다"
  ensure (l.rawPayloadSha256.toList.length = 64) "raw_payload_sha256는 SHA-256 hex여야 합니다"

structure EventLineage extends EventLineage.Fields where
  valid : toFields.postInit = .ok ()

/-- Build a lineage, or report the first failed check. -/
def EventLineage.make (l : EventLineage.Fields) : Except Error EventLineage :=
  checked EventLineage.Fields.postInit EventLineage.mk l

/-- Reject anything but a short code. -/
def requireSourceStockCode (code : String) : Except Error Unit :=
  ensure (isStockCode code.toList = true) "source_stock_code는 6자리 종목코드여야 합니다"

structure CandidateData.Fields where
  action : CandidateAction
  conditionId : List CodePoint
  sourceStockCode : String

/-- The checks of a candidate, in order. -/
def CandidateData.Fields.postInit (d : CandidateData.Fields) : Except Error Unit := do
  ensure (d.conditionId ≠ []) "condition_id는 비어 있을 수 없습니다"
  requireSourceStockCode d.sourceStockCode

/-- A stock that entered or left a condition. -/
structure CandidateData extends CandidateData.Fields where
  valid : toFields.postInit = .ok ()

/-- Build a candidate, or report the first failed check. -/
def CandidateData.make (d : CandidateData.Fields) : Except Error CandidateData :=
  checked CandidateData.Fields.postInit CandidateData.mk d

/-- The fields of an observation. -/
structure MarketObservation.Fields where
  observationSource : ObservationSource
  sourceStockCode : String
  currentPrice : Option Decimal
  changeRate : Option Decimal
  basePrice : Option Decimal
  tradeVolume : Option Int
  cumulativeVolume : Option Int
  cumulativeTradingValue : Option Decimal
  openPrice : Option Decimal
  highPrice : Option Decimal
  lowPrice : Option Decimal
  executionStrength : Option Decimal
  marketCap : Option Decimal
  missingFields : List String

def requireNotNegative (value : Option Decimal) (name : String) : Except Error Unit :=
  ensure (∀ v ∈ value, Decimal.zero ≤ v) s!"{name}은 0 이상의 유한한 Decimal이어야 합니다"

def requireNotNegativeCount (value : Option Int) (name : String) : Except Error Unit :=
  ensure (∀ v ∈ value, 0 ≤ v) s!"{name}은 음수일 수 없습니다"

/-- The checks of an observation, in order. The numbers are finite by their type. -/
def MarketObservation.Fields.postInit (o : MarketObservation.Fields) : Except Error Unit := do
  requireSourceStockCode o.sourceStockCode
  requireNotNegative o.currentPrice "current_price"
  requireNotNegative o.basePrice "base_price"
  requireNotNegative o.cumulativeTradingValue "cumulative_trading_value"
  requireNotNegative o.openPrice "open_price"
  requireNotNegative o.highPrice "high_price"
  requireNotNegative o.lowPrice "low_price"
  requireNotNegative o.marketCap "market_cap"
  requireNotNegativeCount o.tradeVolume "trade_volume"
  requireNotNegativeCount o.cumulativeVolume "cumulative_volume"
  ensure (sortedTuple o.missingFields = o.missingFields) "missing_fields는 중복 없이 정렬돼야 합니다"

structure MarketObservation extends MarketObservation.Fields where
  valid : toFields.postInit = .ok ()

/-- Build an observation, or report the first failed check. -/
def MarketObservation.make (o : MarketObservation.Fields) : Except Error MarketObservation :=
  checked MarketObservation.Fields.postInit MarketObservation.mk o

inductive EventData where
  /-- A candidate entered or left. -/
  | candidate (data : CandidateData)
  | observation (data : MarketObservation)

/-- The observation of an event, if it is one. -/
def EventData.observation? : EventData → Option MarketObservation
  | .candidate _ => none
  | .observation o => some o

structure CanonicalMarketEvent.Fields where
  schemaVersion : String
  eventId : String
  idempotencyKey : String
  eventType : CanonicalEventType
  stockId : String
  sourceSequence : Int
  sourceTimestamp : Datetime
  receivedAt : Datetime
  lineage : EventLineage
  data : EventData

/-- The event type goes with candidates. -/
def CanonicalEventType.isCandidate : CanonicalEventType → Bool
  | candidateEntered | candidateExited => true
  | trade | snapshot => false

/-- The checks of an event, in order. -/
def CanonicalMarketEvent.Fields.postInit (e : CanonicalMarketEvent.Fields) : Except Error Unit := do
  ensure (e.schemaVersion = CANONICAL_EVENT_SCHEMA_VERSION)
    "지원하지 않는 canonical event schema version입니다"
  ensure ("mkt_".toList.isPrefixOf e.eventId.toList = true) "event_id는 mkt_ prefix를 사용해야 합니다"
  ensure ("kiwoom:".toList.isPrefixOf e.idempotencyKey.toList = true)
    "idempotency_key는 kiwoom: prefix를 사용해야 합니다"
  requireStockId e.stockId
  ensure (0 ≤ e.sourceSequence) "source_sequence는 음수일 수 없습니다"
  ensure (e.eventType.isCandidate = true → e.data.observation? = none)
    "candidate event에는 CandidateData가 필요합니다"
  ensure (e.eventType.isCandidate = false → e.data.observation? ≠ none)
    "market observation event에는 MarketObservation이 필요합니다"

structure CanonicalMarketEvent extends CanonicalMarketEvent.Fields where
  valid : toFields.postInit = .ok ()

namespace CanonicalMarketEvent

/-- Build an event, or report the first failed check. -/
def make (e : CanonicalMarketEvent.Fields) : Except Error CanonicalMarketEvent :=
  checked CanonicalMarketEvent.Fields.postInit CanonicalMarketEvent.mk e

/-- The observation of an event, if it is one. -/
def observation? (e : CanonicalMarketEvent) : Option MarketObservation := e.data.observation?

/-- The event observes a stock. -/
def isObservation (e : CanonicalMarketEvent) : Bool := e.observation?.isSome

end CanonicalMarketEvent

end Dayjaview.Kiwoom
