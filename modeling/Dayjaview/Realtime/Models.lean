import Dayjaview.Domain.Models
import Dayjaview.Events.Models

/-!
# Realtime stock inputs and hot-state records

An update carries one observation of a stock together with its place at its
source. The hot state of a stock is the update that currently wins, under a
version that counts how often the winner changed.
-/

namespace Dayjaview.Realtime

open Dayjaview.Domain Dayjaview.Events

/-- The version written into checkpoints. -/
def HOT_STATE_CHECKPOINT_VERSION : String := "hot-state-2026.08.1"

/-- An optional number as a value. -/
def decimalJson : Option Decimal → Json
  | none => .null
  | some d => .str d.str

structure StockRealtimeUpdate.Fields where
  messageId : String
  stockId : String
  marketDate : Date
  source : String
  sourceSequence : Int
  occurredAt : Datetime
  receivedAt : Datetime
  currentPrice : Option Decimal
  cumulativeTradingValue : Option Decimal
  basePrice : Option Decimal := none
  fresh : Bool := true
  tradingHalted : Bool := false
  corporateActionUnresolved : Bool := false
  lineage : List LineageRef := []
  deriving DecidableEq

/-- The observation of an update. -/
def StockRealtimeUpdate.Fields.toObservation (u : StockRealtimeUpdate.Fields) :
    StockMarketObservation.Fields where
  stockId := u.stockId
  marketDate := u.marketDate
  observedAt := u.occurredAt
  currentPrice := u.currentPrice
  cumulativeTradingValue := u.cumulativeTradingValue
  fresh := u.fresh
  tradingHalted := u.tradingHalted
  corporateActionUnresolved := u.corporateActionUnresolved

/-- A present reference price is positive. -/
def requirePositivePrice (value : Option Decimal) : Except Error Unit :=
  match value with
  | none => .ok ()
  | some value =>
    ensure (¬ value ≤ Decimal.zero) "base_price는 0보다 큰 유한한 Decimal이어야 합니다"

/-- The checks of an update, in order; the observation repeats its own. -/
def StockRealtimeUpdate.Fields.postInit (u : StockRealtimeUpdate.Fields) : Except Error Unit := do
  requireTexts [("message_id", u.messageId), ("stock_id", u.stockId), ("source", u.source)]
  ensure (0 ≤ u.sourceSequence) "source_sequence는 음수일 수 없습니다"
  ensure (u.occurredAt ≤ u.receivedAt) "occurred_at은 received_at 이후일 수 없습니다"
  requirePositivePrice u.basePrice
  u.toObservation.postInit

structure StockRealtimeUpdate extends StockRealtimeUpdate.Fields where
  valid : toFields.postInit = .ok ()
  deriving DecidableEq

/-- The written form of an update. The reference price is not part of it. -/
def StockRealtimeUpdate.toDict (u : StockRealtimeUpdate) : Json :=
  .obj [("messageId", .str u.messageId), ("stockId", .str u.stockId),
    ("marketDate", .str u.marketDate.isoformat), ("source", .str u.source),
    ("sourceSequence", .int u.sourceSequence), ("occurredAt", .str u.occurredAt.isoformat),
    ("receivedAt", .str u.receivedAt.isoformat), ("currentPrice", decimalJson u.currentPrice),
    ("cumulativeTradingValue", decimalJson u.cumulativeTradingValue), ("fresh", .bool u.fresh),
    ("tradingHalted", .bool u.tradingHalted),
    ("corporateActionUnresolved", .bool u.corporateActionUnresolved),
    ("lineage", .arr (u.lineage.map LineageRef.toDict))]

/-- The digest that recognises an update. -/
def StockRealtimeUpdate.fingerprint [Sha256] (u : StockRealtimeUpdate) : String :=
  jsonDigest u.toDict

/-- The fields of the hot state of a stock. -/
structure HotStockState.Fields where
  stockId : String
  marketDate : Date
  version : Int
  source : String
  sourceSequence : Int
  occurredAt : Datetime
  receivedAt : Datetime
  currentPrice : Option Decimal
  cumulativeTradingValue : Option Decimal
  fresh : Bool
  tradingHalted : Bool
  corporateActionUnresolved : Bool
  lastMessageId : String
  lineage : List LineageRef

/-- The observation of a hot state. -/
def HotStockState.Fields.toObservation (s : HotStockState.Fields) :
    StockMarketObservation.Fields where
  stockId := s.stockId
  marketDate := s.marketDate
  observedAt := s.occurredAt
  currentPrice := s.currentPrice
  cumulativeTradingValue := s.cumulativeTradingValue
  fresh := s.fresh
  tradingHalted := s.tradingHalted
  corporateActionUnresolved := s.corporateActionUnresolved

/-- The checks of a hot state, in order. -/
def HotStockState.Fields.postInit (s : HotStockState.Fields) : Except Error Unit := do
  requireTexts [("stock_id", s.stockId), ("source", s.source),
    ("last_message_id", s.lastMessageId)]
  ensure (1 ≤ s.version) "hot state version은 1 이상이어야 합니다"
  ensure (0 ≤ s.sourceSequence) "source_sequence는 음수일 수 없습니다"
  ensure (s.occurredAt ≤ s.receivedAt) "occurred_at은 received_at 이후일 수 없습니다"
  s.toObservation.postInit

structure HotStockState extends HotStockState.Fields where
  valid : toFields.postInit = .ok ()

theorem HotStockState.one_le_version (s : HotStockState) : 1 ≤ s.version := by
  have hs := s.valid
  simp only [HotStockState.Fields.postInit, check_bind_eq_ok, requireTexts_eq_ok,
    ensure_eq_ok] at hs
  exact hs.2.1

theorem HotStockState.sourceSequence_nonneg (s : HotStockState) : 0 ≤ s.sourceSequence := by
  have hs := s.valid
  simp only [HotStockState.Fields.postInit, check_bind_eq_ok, requireTexts_eq_ok,
    ensure_eq_ok] at hs
  exact hs.2.2.1

/-- Build a hot state, or report the first failed check. -/
def HotStockState.make (f : HotStockState.Fields) : Except Error HotStockState :=
  checked HotStockState.Fields.postInit HotStockState.mk f

/-- The fields a hot state takes over from an update. -/
def HotStockState.fieldsOf (u : StockRealtimeUpdate.Fields) (version : Int) :
    HotStockState.Fields where
  stockId := u.stockId
  marketDate := u.marketDate
  version
  source := u.source
  sourceSequence := u.sourceSequence
  occurredAt := u.occurredAt
  receivedAt := u.receivedAt
  currentPrice := u.currentPrice
  cumulativeTradingValue := u.cumulativeTradingValue
  fresh := u.fresh
  tradingHalted := u.tradingHalted
  corporateActionUnresolved := u.corporateActionUnresolved
  lastMessageId := u.messageId
  lineage := u.lineage

theorem HotStockState.fieldsOf_valid (u : StockRealtimeUpdate) {version : Int}
    (h : 1 ≤ version) : (HotStockState.fieldsOf u.toFields version).postInit = .ok () := by
  have hu := u.valid
  simp only [StockRealtimeUpdate.Fields.postInit, check_bind_eq_ok, requireTexts_eq_ok,
    ensure_eq_ok, List.forall_mem_cons] at hu
  obtain ⟨⟨hmessage, hstock, hsource, -⟩, hsequence, htime, -, hobservation⟩ := hu
  simp only [HotStockState.Fields.postInit, check_bind_eq_ok, requireTexts_eq_ok, ensure_eq_ok,
    List.forall_mem_cons]
  exact ⟨⟨hstock, hsource, hmessage, by simp⟩, h, hsequence, htime, hobservation⟩

/-- The hot state an update becomes under a version. -/
def HotStockState.fromUpdate (u : StockRealtimeUpdate) (version : Int) (h : 1 ≤ version) :
    HotStockState :=
  ⟨HotStockState.fieldsOf u.toFields version, HotStockState.fieldsOf_valid u h⟩

inductive HotApplyDisposition where
  | applied
  | duplicate
  | staleSourceSequence
  | staleReceivedAt
  | staleObservation
  deriving DecidableEq

structure HotApplyResult where
  disposition : HotApplyDisposition
  previous : Option HotStockState
  current : Option HotStockState

/-- The fields of the position of a source at a stock. -/
structure SourceCursor.Fields where
  marketDate : Date
  stockId : String
  source : String
  sourceSequence : Int
  receivedAt : Datetime

/-- The checks of a cursor, in order. -/
def SourceCursor.Fields.postInit (c : SourceCursor.Fields) : Except Error Unit := do
  requireText c.stockId "stock_id"
  requireText c.source "source"
  ensure (0 ≤ c.sourceSequence) "source_sequence는 음수일 수 없습니다"

/-- The position of a source at a stock. -/
structure SourceCursor extends SourceCursor.Fields where
  valid : toFields.postInit = .ok ()

theorem SourceCursor.sourceSequence_nonneg (c : SourceCursor) : 0 ≤ c.sourceSequence := by
  have hc := c.valid
  simp only [SourceCursor.Fields.postInit, check_bind_eq_ok, ensure_eq_ok] at hc
  exact hc.2.2

/-- Build a cursor, or report the first failed check. -/
def SourceCursor.make (f : SourceCursor.Fields) : Except Error SourceCursor :=
  checked SourceCursor.Fields.postInit SourceCursor.mk f

/-- The cursor after an update, received no earlier than the cursor so far. -/
def SourceCursor.ofUpdate (u : StockRealtimeUpdate) (receivedAt : Datetime) : SourceCursor where
  marketDate := u.marketDate
  stockId := u.stockId
  source := u.source
  sourceSequence := u.sourceSequence
  receivedAt
  valid := by
    have hu := u.valid
    simp only [StockRealtimeUpdate.Fields.postInit, check_bind_eq_ok, requireTexts_eq_ok,
      ensure_eq_ok, List.forall_mem_cons] at hu
    obtain ⟨⟨-, hstock, hsource, -⟩, hsequence, -⟩ := hu
    simp only [SourceCursor.Fields.postInit, check_bind_eq_ok, requireText_eq_ok, ensure_eq_ok]
    exact ⟨hstock, hsource, hsequence⟩

end Dayjaview.Realtime
