import Dayjaview.Core.Builtins
import Dayjaview.Realtime.Redelivery

/-!
# Checkpoints of the hot state

A checkpoint lists the states, the recognised messages and the cursors in the
order of their keys. Every record is read back from its written form, and a
store is rebuilt entry by entry from lists that may not repeat a key.
-/

namespace Dayjaview

open Json

/-- The optional text of an item that may be null or missing. -/
def optionalItem [CharTable] (v : Json) (key : String) : Except Error (Option String) :=
  match v.getOr key with
  | .null => .ok none
  | _ => (v.getText key).map some

theorem optionalItem_obj [CharTable] {fields : List (String × Json)} {key : String}
    {value : Option String} (h : field? fields key = some (Events.optionalText value)) :
    optionalItem (.obj fields) key = .ok value := by
  cases value with
  | none => simp [optionalItem, getOr, h, Events.optionalText]
  | some s =>
    have htext : (Json.obj fields).getText key = .ok s := getText_obj h
    simp [optionalItem, getOr, h, Events.optionalText, htext, Except.map]

def Events.LineageRef.fromDict [CharTable] (v : Json) : Except Error Events.LineageRef := do
  let kind ← v.getText "kind"
  let identifier ← v.getText "identifier"
  let version ← optionalItem v "version"
  let contentHash ← optionalItem v "contentHash"
  checked Events.LineageRef.Fields.postInit Events.LineageRef.mk
    { kind, identifier, version, contentHash }

theorem Events.LineageRef.fromDict_toDict [CharTable] (r : Events.LineageRef) :
    Events.LineageRef.fromDict r.toDict = .ok r := by
  have hkind : r.toDict.getText "kind" = .ok r.kind := getText_obj (by simp)
  have hidentifier : r.toDict.getText "identifier" = .ok r.identifier := getText_obj (by simp)
  have hversion : optionalItem r.toDict "version" = .ok r.version := optionalItem_obj (by simp)
  have hhash : optionalItem r.toDict "contentHash" = .ok r.contentHash :=
    optionalItem_obj (by simp)
  rw [Events.LineageRef.fromDict, hkind, hidentifier, hversion, hhash]
  exact checked_of_ok r.valid

namespace Realtime

open Dayjaview.Domain Dayjaview.Events

theorem getDecimal_obj [CharTable] {fields : List (String × Json)} {key : String}
    {value : Option Decimal} (fieldName : String)
    (h : field? fields key = some (decimalJson value)) :
    (Json.obj fields).getDecimal key fieldName = .ok value := by
  cases value with
  | none => simp [getDecimal, getOr, h, decimalJson]
  | some d => simp [getDecimal, getOr, h, decimalJson, Decimal.ofStr_str]

/-- The written form of a hot state. -/
def HotStockState.toDict (s : HotStockState) : Json :=
  .obj [("stockId", .str s.stockId), ("marketDate", .str s.marketDate.isoformat),
    ("version", .int s.version), ("source", .str s.source),
    ("sourceSequence", .int s.sourceSequence), ("occurredAt", .str s.occurredAt.isoformat),
    ("receivedAt", .str s.receivedAt.isoformat), ("currentPrice", decimalJson s.currentPrice),
    ("cumulativeTradingValue", decimalJson s.cumulativeTradingValue), ("fresh", .bool s.fresh),
    ("tradingHalted", .bool s.tradingHalted),
    ("corporateActionUnresolved", .bool s.corporateActionUnresolved),
    ("lastMessageId", .str s.lastMessageId),
    ("lineage", .arr (s.lineage.map LineageRef.toDict))]

def HotStockState.fromDict [CharTable] (v : Json) : Except Error HotStockState := do
  let lineage ← v.getItem "lineage"
  let lineage ← requireList lineage "checkpoint의 hot state lineage가 잘못되었습니다"
  let stockId ← v.getText "stockId"
  let marketDate ← v.getDate "marketDate"
  let version ← v.getInt "version"
  let source ← v.getText "source"
  let sourceSequence ← v.getInt "sourceSequence"
  let occurredAt ← v.getDatetime "occurredAt"
  let receivedAt ← v.getDatetime "receivedAt"
  let currentPrice ← v.getDecimal "currentPrice" "current_price"
  let cumulativeTradingValue ←
    v.getDecimal "cumulativeTradingValue" "cumulative_trading_value"
  let fresh ← v.getTruth "fresh"
  let tradingHalted ← v.getTruth "tradingHalted"
  let corporateActionUnresolved ← v.getTruth "corporateActionUnresolved"
  let lastMessageId ← v.getText "lastMessageId"
  let lineage ← lineage.mapM LineageRef.fromDict
  HotStockState.make
    { stockId, marketDate, version, source, sourceSequence, occurredAt, receivedAt, currentPrice,
      cumulativeTradingValue, fresh, tradingHalted, corporateActionUnresolved, lastMessageId,
      lineage }

theorem HotStockState.fromDict_toDict [CharTable] (s : HotStockState) :
    HotStockState.fromDict s.toDict = .ok s := by
  have hlineage : s.toDict.getItem "lineage" = .ok (.arr (s.lineage.map LineageRef.toDict)) :=
    getItem_obj (by simp)
  have hstock : s.toDict.getText "stockId" = .ok s.stockId := getText_obj (by simp)
  have hdate : s.toDict.getDate "marketDate" = .ok s.marketDate := getDate_obj (by simp)
  have hversion : s.toDict.getInt "version" = .ok s.version :=
    getInt_obj (by simp) (le_trans (by decide) s.one_le_version)
  have hsource : s.toDict.getText "source" = .ok s.source := getText_obj (by simp)
  have hsequence : s.toDict.getInt "sourceSequence" = .ok s.sourceSequence :=
    getInt_obj (by simp) s.sourceSequence_nonneg
  have hoccurred : s.toDict.getDatetime "occurredAt" = .ok s.occurredAt :=
    getDatetime_obj (by simp)
  have hreceived : s.toDict.getDatetime "receivedAt" = .ok s.receivedAt :=
    getDatetime_obj (by simp)
  have hprice : s.toDict.getDecimal "currentPrice" "current_price" = .ok s.currentPrice :=
    getDecimal_obj _ (by simp)
  have hvalue : s.toDict.getDecimal "cumulativeTradingValue" "cumulative_trading_value" =
      .ok s.cumulativeTradingValue := getDecimal_obj _ (by simp)
  have hfresh : s.toDict.getTruth "fresh" = .ok s.fresh := getTruth_obj (by simp)
  have hhalted : s.toDict.getTruth "tradingHalted" = .ok s.tradingHalted :=
    getTruth_obj (by simp)
  have haction : s.toDict.getTruth "corporateActionUnresolved" =
      .ok s.corporateActionUnresolved := getTruth_obj (by simp)
  have hmessage : s.toDict.getText "lastMessageId" = .ok s.lastMessageId :=
    getText_obj (by simp)
  have hrefs := mapM_map_eq_ok LineageRef.fromDict_toDict s.lineage
  rw [HotStockState.fromDict, hlineage, hstock, hdate, hversion, hsource, hsequence, hoccurred,
    hreceived, hprice, hvalue, hfresh, hhalted, haction, hmessage]
  show ((s.lineage.map LineageRef.toDict).mapM LineageRef.fromDict >>= _) = _
  rw [hrefs]
  exact checked_of_ok s.valid

/-- The written form of a cursor. -/
def SourceCursor.toDict (c : SourceCursor) : Json :=
  .obj [("marketDate", .str c.marketDate.isoformat), ("stockId", .str c.stockId),
    ("source", .str c.source), ("sourceSequence", .int c.sourceSequence),
    ("receivedAt", .str c.receivedAt.isoformat)]

def SourceCursor.fromDict [CharTable] (v : Json) : Except Error SourceCursor := do
  let marketDate ← v.getDate "marketDate"
  let stockId ← v.getText "stockId"
  let source ← v.getText "source"
  let sourceSequence ← v.getInt "sourceSequence"
  let receivedAt ← v.getDatetime "receivedAt"
  SourceCursor.make { marketDate, stockId, source, sourceSequence, receivedAt }

theorem SourceCursor.fromDict_toDict [CharTable] (c : SourceCursor) :
    SourceCursor.fromDict c.toDict = .ok c := by
  have hdate : c.toDict.getDate "marketDate" = .ok c.marketDate := getDate_obj (by simp)
  have hstock : c.toDict.getText "stockId" = .ok c.stockId := getText_obj (by simp)
  have hsource : c.toDict.getText "source" = .ok c.source := getText_obj (by simp)
  have hsequence : c.toDict.getInt "sourceSequence" = .ok c.sourceSequence :=
    getInt_obj (by simp) c.sourceSequence_nonneg
  have hreceived : c.toDict.getDatetime "receivedAt" = .ok c.receivedAt :=
    getDatetime_obj (by simp)
  rw [SourceCursor.fromDict, hdate, hstock, hsource, hsequence, hreceived]
  exact checked_of_ok c.valid

/-- The fields of a checkpoint. -/
structure HotStateCheckpoint.Fields where
  checkpointVersion : String
  createdAt : Datetime
  asOf : Datetime
  states : List HotStockState
  processedMessages : List (String × String)
  sourceCursors : List SourceCursor

/-- The checks of a checkpoint, in order. -/
def HotStateCheckpoint.Fields.postInit (c : HotStateCheckpoint.Fields) : Except Error Unit := do
  requireText c.checkpointVersion "checkpoint_version"
  ensure (c.asOf ≤ c.createdAt) "checkpoint as_of는 created_at 이후일 수 없습니다"

/-- A checkpoint of the hot state. -/
structure HotStateCheckpoint extends HotStateCheckpoint.Fields where
  valid : toFields.postInit = .ok ()

/-- Build a checkpoint, or report the first failed check. -/
def HotStateCheckpoint.make (f : HotStateCheckpoint.Fields) : Except Error HotStateCheckpoint :=
  checked HotStateCheckpoint.Fields.postInit HotStateCheckpoint.mk f

/-- A recognised message in written form. -/
def messageDict (message : String × String) : Json :=
  .obj [("messageId", .str message.1), ("fingerprint", .str message.2)]

/-- The written form of a checkpoint. -/
def HotStateCheckpoint.toDict (c : HotStateCheckpoint) : Json :=
  .obj [("checkpointVersion", .str c.checkpointVersion),
    ("createdAt", .str c.createdAt.isoformat), ("asOf", .str c.asOf.isoformat),
    ("states", .arr (c.states.map HotStockState.toDict)),
    ("processedMessages", .arr (c.processedMessages.map messageDict)),
    ("sourceCursors", .arr (c.sourceCursors.map SourceCursor.toDict))]

def readMessage [CharTable] (v : Json) : Except Error (String × String) :=
  match v with
  | .obj fields => do
    let messageId ← (Json.obj fields).getText "messageId"
    let fingerprint ← (Json.obj fields).getText "fingerprint"
    return (messageId, fingerprint)
  | _ => .error ⟨.typeError, "processed message 형식이 잘못되었습니다"⟩

theorem readMessage_messageDict [CharTable] (message : String × String) :
    readMessage (messageDict message) = .ok message := by
  have hid : (messageDict message).getText "messageId" = .ok message.1 := getText_obj (by simp)
  have hfingerprint : (messageDict message).getText "fingerprint" = .ok message.2 :=
    getText_obj (by simp)
  rw [messageDict] at hid hfingerprint ⊢
  rw [readMessage, hid, hfingerprint]
  rfl

def HotStateCheckpoint.fromDict [CharTable] (v : Json) : Except Error HotStateCheckpoint := do
  let states ← v.getItem "states"
  let processed ← v.getItem "processedMessages"
  let cursors ← v.getItem "sourceCursors"
  let states ← requireList states "hot state checkpoint 목록 형식이 잘못되었습니다"
  let processed ← requireList processed "hot state checkpoint 목록 형식이 잘못되었습니다"
  let cursors ← requireList cursors "hot state checkpoint cursor 형식이 잘못되었습니다"
  let processedMessages ← processed.mapM readMessage
  let checkpointVersion ← v.getText "checkpointVersion"
  let createdAt ← v.getDatetime "createdAt"
  let asOf ← v.getDatetime "asOf"
  let states ← states.mapM HotStockState.fromDict
  let sourceCursors ← cursors.mapM SourceCursor.fromDict
  HotStateCheckpoint.make
    { checkpointVersion, createdAt, asOf, states, processedMessages, sourceCursors }

theorem HotStateCheckpoint.fromDict_toDict [CharTable] (c : HotStateCheckpoint) :
    HotStateCheckpoint.fromDict c.toDict = .ok c := by
  have hstates : c.toDict.getItem "states" = .ok (.arr (c.states.map HotStockState.toDict)) :=
    getItem_obj (by simp)
  have hmessages : c.toDict.getItem "processedMessages" =
      .ok (.arr (c.processedMessages.map messageDict)) := getItem_obj (by simp)
  have hcursors : c.toDict.getItem "sourceCursors" =
      .ok (.arr (c.sourceCursors.map SourceCursor.toDict)) := getItem_obj (by simp)
  have hversion : c.toDict.getText "checkpointVersion" = .ok c.checkpointVersion :=
    getText_obj (by simp)
  have hcreated : c.toDict.getDatetime "createdAt" = .ok c.createdAt :=
    getDatetime_obj (by simp)
  have hasOf : c.toDict.getDatetime "asOf" = .ok c.asOf := getDatetime_obj (by simp)
  have hreadStates := mapM_map_eq_ok HotStockState.fromDict_toDict c.states
  have hreadMessages := mapM_map_eq_ok readMessage_messageDict c.processedMessages
  have hreadCursors := mapM_map_eq_ok SourceCursor.fromDict_toDict c.sourceCursors
  rw [HotStateCheckpoint.fromDict, hstates, hmessages, hcursors, hversion, hcreated, hasOf]
  show ((c.processedMessages.map messageDict).mapM readMessage >>= _) = _
  rw [hreadMessages]
  show ((c.states.map HotStockState.toDict).mapM HotStockState.fromDict >>= _) = _
  rw [hreadStates]
  show ((c.sourceCursors.map SourceCursor.toDict).mapM SourceCursor.fromDict >>= _) = _
  rw [hreadCursors]
  exact checked_of_ok c.valid

/-- The latest of some times, the first one of those at that instant, or a default. -/
def latestTime (default : Datetime) : List Datetime → Datetime
  | [] => default
  | t :: ts => ts.foldl Datetime.latest t

namespace HotStateStore

/-- The times of receipt a store has recorded. -/
def observedTimes (s : HotStateStore) : List Datetime :=
  s.states.values.map (fun state => state.receivedAt) ++
    s.sourceCursors.values.map (fun cursor => cursor.receivedAt)

def checkpoint (s : HotStateStore) (createdAt : Datetime) : Except Error HotStateCheckpoint :=
  HotStateCheckpoint.make
    { checkpointVersion := HOT_STATE_CHECKPOINT_VERSION
      createdAt
      asOf := latestTime createdAt s.observedTimes
      states := s.states.sortedEntries.map Prod.snd
      processedMessages := s.processedMessages.sortedEntries
      sourceCursors := s.sourceCursors.sortedEntries.map Prod.snd }

/-- The key of a hot state in the store. -/
def stateKey (state : HotStockState) : StateKey := toLex (state.marketDate, state.stockId)

/-- The key of a cursor in the store. -/
def cursorKey (cursor : SourceCursor) : CursorKey :=
  toLex (cursor.marketDate, toLex (cursor.stockId, cursor.source))

/-- Enter the items one by one under their own keys, each key at most once. -/
def enter {κ α : Type} [DecidableEq κ] (key : α → κ) (duplicate : String) :
    List α → Dict κ α → Except Error (Dict κ α)
  | [], d => .ok d
  | a :: as, d =>
    if (d.get? (key a)).isSome then .error ⟨.valueError, duplicate⟩
    else enter key duplicate as (d.set (key a) a)

/-- The store a checkpoint describes. -/
def restore (checkpoint : HotStateCheckpoint) : Except Error HotStateStore := do
  ensure (checkpoint.checkpointVersion = HOT_STATE_CHECKPOINT_VERSION)
    s!"지원하지 않는 hot state checkpoint version입니다: {checkpoint.checkpointVersion}"
  let states ← enter stateKey "checkpoint에 중복 hot stock state가 있습니다"
    checkpoint.states .empty
  let processedMessages := Dict.ofList checkpoint.processedMessages
  ensure (processedMessages.entries.length = checkpoint.processedMessages.length)
    "checkpoint에 중복 processed message가 있습니다"
  let sourceCursors ← enter cursorKey "checkpoint에 중복 source cursor가 있습니다"
    checkpoint.sourceCursors .empty
  return ⟨states, processedMessages, sourceCursors⟩

end HotStateStore

end Realtime

end Dayjaview

namespace Dayjaview.Realtime

open Dayjaview.Domain Dayjaview.Events

private theorem foldl_latest (t : Datetime) (ts : List Datetime) :
    ts.foldl Datetime.latest t ∈ t :: ts ∧ ∀ x ∈ t :: ts, x ≤ ts.foldl Datetime.latest t := by
  induction ts generalizing t with
  | nil => simp
  | cons u ts ih =>
    obtain ⟨hmem, hle⟩ := ih (Datetime.latest t u)
    have hlatest : t ≤ Datetime.latest t u ∧ u ≤ Datetime.latest t u := by
      simp [Datetime.le_def]
    have htop := hle (Datetime.latest t u) (by simp)
    rw [List.foldl_cons]
    constructor
    · rcases List.mem_cons.mp hmem with heq | hmem
      · rw [heq, Datetime.latest]
        split <;> simp
      · simp [hmem]
    · intro x hx
      rcases List.mem_cons.mp hx with rfl | hx
      · exact le_trans hlatest.1 htop
      · rcases List.mem_cons.mp hx with rfl | hx
        · exact le_trans hlatest.2 htop
        · exact hle x (List.mem_cons_of_mem _ hx)

theorem latestTime_spec (default : Datetime) (ts : List Datetime) :
    (ts = [] ∧ latestTime default ts = default ∨ latestTime default ts ∈ ts) ∧
      ∀ t ∈ ts, t ≤ latestTime default ts := by
  cases ts with
  | nil => simp [latestTime]
  | cons t ts => exact ⟨.inr (foldl_latest t ts).1, (foldl_latest t ts).2⟩

theorem instant_latestTime_perm (default : Datetime) {ts us : List Datetime} (h : ts.Perm us) :
    (latestTime default ts).instant = (latestTime default us).instant := by
  obtain ⟨ht, hts⟩ := latestTime_spec default ts
  obtain ⟨hu, hus⟩ := latestTime_spec default us
  rcases ht with ⟨rfl, ht⟩ | ht
  · rw [List.nil_perm.mp h]
  · rcases hu with ⟨rfl, hu⟩ | hu
    · rw [List.perm_nil.mp h]
    · exact le_antisymm (hus _ (h.mem_iff.mp ht)) (hts _ (h.mem_iff.mpr hu))

namespace HotStateStore

/-- Two stores answer every lookup alike. -/
structure Same (s t : HotStateStore) : Prop where
  states : s.states.Same t.states
  processedMessages : s.processedMessages.Same t.processedMessages
  sourceCursors : s.sourceCursors.Same t.sourceCursors

variable {s t : HotStateStore}

theorem Same.recordCursor (h : s.Same t) (u : StockRealtimeUpdate) :
    (s.recordCursor u).Same (t.recordCursor u) where
  states := h.states
  processedMessages := h.processedMessages
  sourceCursors := by
    simp only [HotStateStore.recordCursor, h.sourceCursors u.cursorKey]
    exact h.sourceCursors.set _ _

section Apply

variable [Sha256]

variable {s t : HotStateStore}

theorem Same.recordMessage (h : s.Same t) (u : StockRealtimeUpdate) :
    (s.recordMessage u).Same (t.recordMessage u) where
  states := h.states
  processedMessages := h.processedMessages.set _ _
  sourceCursors := h.sourceCursors

theorem Same.decideUpdate (h : s.Same t) (u : StockRealtimeUpdate) :
    (s.decideUpdate u).1 = (t.decideUpdate u).1 ∧ (s.decideUpdate u).2.Same
      (t.decideUpdate u).2 := by
  have hrecorded := (h.recordCursor u).recordMessage u
  simp only [HotStateStore.decideUpdate, h.states u.stateKey, h.sourceCursors u.cursorKey]
  split_ifs
  · exact ⟨rfl, h.recordMessage u⟩
  · exact ⟨rfl, hrecorded⟩
  · exact ⟨rfl, hrecorded⟩
  · exact ⟨rfl, hrecorded.states.set _ _, hrecorded.processedMessages, hrecorded.sourceCursors⟩

theorem Same.apply (h : s.Same t) (u : StockRealtimeUpdate) :
    (s.apply u).1 = (t.apply u).1 ∧ (s.apply u).2.Same (t.apply u).2 := by
  simp only [HotStateStore.apply, h.processedMessages u.messageId, h.states u.stateKey]
  cases t.processedMessages.get? u.messageId with
  | none =>
    obtain ⟨hresult, hsame⟩ := h.decideUpdate u
    exact ⟨congrArg Except.ok hresult, hsame⟩
  | some seen =>
    by_cases hseen : seen = u.fingerprint
    · simpa [hseen] using h
    · simpa [hseen] using h

/-- What a sequence of updates is answered. -/
def results (s : HotStateStore) : List StockRealtimeUpdate → List (Except Error HotApplyResult)
  | [] => []
  | u :: us => (s.apply u).1 :: results (s.apply u).2 us

theorem Same.run (h : s.Same t) (us : List StockRealtimeUpdate) :
    s.results us = t.results us ∧ (s.run us).Same (t.run us) := by
  induction us generalizing s t with
  | nil => exact ⟨rfl, h⟩
  | cons u us ih =>
    obtain ⟨hresult, hsame⟩ := h.apply u
    obtain ⟨hresults, hrun⟩ := ih hsame
    refine ⟨?_, hrun⟩
    rw [results, results, hresult, hresults]

end Apply

private theorem values_perm {κ α : Type} [DecidableEq κ] {d e : Dict κ α} (h : d.Same e) :
    d.values.Perm e.values := h.perm.map _

theorem Same.observedTimes_perm (h : s.Same t) :
    s.observedTimes.Perm t.observedTimes :=
  ((values_perm h.states).map _).append ((values_perm h.sourceCursors).map _)

/-- The checkpoints agree in every field; of two spellings of the latest instant they may carry
different ones. -/
def SameCheckpoint (c d : HotStateCheckpoint) : Prop :=
  c.asOf.instant = d.asOf.instant ∧ { c.toFields with asOf := d.asOf } = d.toFields

/-- Both attempts made a checkpoint, the same one, or failed alike. -/
def SameOutcome : Except Error HotStateCheckpoint → Except Error HotStateCheckpoint → Prop
  | .ok c, .ok d => SameCheckpoint c d
  | .error e, .error f => e = f
  | _, _ => False

theorem sameOutcome_make {f g : HotStateCheckpoint.Fields} (hasOf : f.asOf.instant = g.asOf.instant)
    (hrest : { f with asOf := g.asOf } = g) :
    SameOutcome (HotStateCheckpoint.make f) (HotStateCheckpoint.make g) := by
  have hcheck : f.postInit = g.postInit := by
    have hversion : f.checkpointVersion = g.checkpointVersion := by rw [← hrest]
    have hcreated : f.createdAt = g.createdAt := by rw [← hrest]
    have hiff : f.asOf ≤ f.createdAt ↔ g.asOf ≤ g.createdAt := by
      rw [Datetime.le_def, Datetime.le_def, hasOf, hcreated]
    simp only [HotStateCheckpoint.Fields.postInit, hversion, hiff]
  rw [HotStateCheckpoint.make, HotStateCheckpoint.make]
  cases hg : g.postInit with
  | ok =>
    rw [checked_of_ok (hcheck.trans hg), checked_of_ok hg]
    exact ⟨hasOf, hrest⟩
  | error e =>
    rw [checked_of_error (hcheck.trans hg), checked_of_error hg]
    rfl

theorem Same.checkpoint (h : s.Same t) (createdAt : Datetime) :
    SameOutcome (s.checkpoint createdAt) (t.checkpoint createdAt) := by
  apply sameOutcome_make
  · exact instant_latestTime_perm createdAt h.observedTimes_perm
  · simp only [h.states.sortedEntries, h.processedMessages.sortedEntries,
      h.sourceCursors.sortedEntries]

section Reachable

variable [Sha256]

/-- The stores that arise from a fresh one and from restored ones by taking updates. -/
inductive Reachable : HotStateStore → Prop where
  | fresh : Reachable .empty
  | apply {s : HotStateStore} (u : StockRealtimeUpdate) : Reachable s → Reachable (s.apply u).2
  /-- The store a checkpoint describes. -/
  | restore {s : HotStateStore} (c : HotStateCheckpoint) : HotStateStore.restore c = .ok s →
    Reachable s

end Reachable

/-- Every record is stored under its own key. -/
structure Keyed (s : HotStateStore) : Prop where
  states : ∀ key state, s.states.get? key = some state → stateKey state = key
  sourceCursors : ∀ key cursor, s.sourceCursors.get? key = some cursor → cursorKey cursor = key

private theorem keyed_set {κ α : Type} [DecidableEq κ] {key : α → κ} {d : Dict κ α}
    (h : ∀ k a, d.get? k = some a → key a = k) (b : α) :
    ∀ k a, (d.set (key b) b).get? k = some a → key a = k := by
  intro k a ha
  rw [Dict.get?_set] at ha
  split at ha
  · next hk =>
    cases ha
    exact hk.symm
  · exact h k a ha

private theorem keyed_enter {κ α : Type} [DecidableEq κ] {key : α → κ} {duplicate : String}
    {as : List α} {d e : Dict κ α} (h : ∀ k a, d.get? k = some a → key a = k)
    (he : enter key duplicate as d = .ok e) : ∀ k a, e.get? k = some a → key a = k := by
  induction as generalizing d with
  | nil =>
    cases he
    exact h
  | cons a as ih =>
    rw [enter] at he
    split at he
    · cases he
    · exact ih (keyed_set h a) he

theorem keyed_restore {c : HotStateCheckpoint} (h : restore c = .ok s) :
    s.Keyed := by
  rw [restore, check_bind_eq_ok, bind_eq_ok] at h
  obtain ⟨-, states, hstates, h⟩ := h
  rw [check_bind_eq_ok, bind_eq_ok] at h
  obtain ⟨-, cursors, hcursors, h⟩ := h
  cases h
  exact ⟨keyed_enter (by simp) hstates, keyed_enter (by simp) hcursors⟩

theorem Keyed.recordCursor (h : s.Keyed) (u : StockRealtimeUpdate) :
    (s.recordCursor u).Keyed where
  states := h.states
  sourceCursors := keyed_set h.sourceCursors (.ofUpdate u _)

section Reachable

variable [Sha256]

theorem Keyed.apply {s : HotStateStore} (h : s.Keyed) (u : StockRealtimeUpdate) :
    (s.apply u).2.Keyed := by
  have hrecorded := h.recordCursor u
  have hdecide : (s.decideUpdate u).2.Keyed := by
    simp only [decideUpdate]
    split_ifs
    · exact ⟨h.states, h.sourceCursors⟩
    · exact ⟨hrecorded.states, hrecorded.sourceCursors⟩
    · exact ⟨hrecorded.states, hrecorded.sourceCursors⟩
    · exact ⟨keyed_set hrecorded.states (.fromUpdate u _ _), hrecorded.sourceCursors⟩
  unfold HotStateStore.apply
  cases s.processedMessages.get? u.messageId with
  | none => exact hdecide
  | some seen => by_cases hseen : seen ≠ u.fingerprint <;> simpa [hseen] using h

theorem Reachable.keyed {s : HotStateStore} (h : Reachable s) : s.Keyed := by
  induction h with
  | fresh => exact ⟨by simp [empty], by simp [empty]⟩
  | apply u _ ih => exact ih.apply u
  | restore c hc => exact keyed_restore hc

end Reachable

private theorem enter_of_nodup {κ α : Type} [DecidableEq κ] {key : α → κ} (duplicate : String)
    {as : List α} {d : Dict κ α} (hn : (as.map key).Nodup)
    (hd : ∀ a ∈ as, d.get? (key a) = none) :
    enter key duplicate as d =
      .ok ((as.map fun a => (key a, a)).foldl (fun d e => d.set e.1 e.2) d) := by
  induction as generalizing d with
  | nil => rfl
  | cons a as ih =>
    obtain ⟨hne, htail⟩ := List.nodup_cons.mp hn
    have hnone : ¬ (d.get? (key a)).isSome := by simp [hd a]
    rw [enter, if_neg hnone, ih htail]
    · rfl
    · intro b hb
      have hkey : key b ≠ key a := fun h => hne (h ▸ List.mem_map_of_mem hb)
      rw [Dict.get?_set_of_ne _ _ hkey]
      exact hd b (List.mem_cons_of_mem _ hb)

private theorem enter_sortedEntries {κ α : Type} [LinearOrder κ] [DecidableEq κ] {key : α → κ}
    (duplicate : String) {d : Dict κ α} (h : ∀ k a, d.get? k = some a → key a = k) :
    ∃ e, enter key duplicate (d.sortedEntries.map Prod.snd) .empty = .ok e ∧ e.Same d := by
  have hpairs : (d.sortedEntries.map Prod.snd).map (fun a => (key a, a)) = d.sortedEntries := by
    rw [List.map_map]
    conv_rhs => rw [← List.map_id d.sortedEntries]
    apply List.map_congr_left
    rintro ⟨k, a⟩ hmem
    have hget := d.mem_entries_iff.mp (d.sortedEntries_perm.mem_iff.mp hmem)
    simp [h k a hget]
  have hkeys : (d.sortedEntries.map Prod.snd).map key = d.sortedEntries.map Prod.fst := by
    conv_rhs => rw [← hpairs]
    simp
  refine ⟨_, enter_of_nodup duplicate (hkeys ▸ d.sortedEntries_nodup) (by simp), ?_⟩
  rw [hpairs]
  exact d.ofList_sortedEntries

/-- Restoring the checkpoint of a store with its records under their own keys succeeds and answers
every lookup as the store does. -/
theorem restore_of_checkpoint {c : HotStateCheckpoint} {createdAt : Datetime} (hs : s.Keyed)
    (hc : s.checkpoint createdAt = .ok c) :
    ∃ t, restore c = .ok t ∧ t.Same s := by
  obtain ⟨states, hstates, hsameStates⟩ :=
    enter_sortedEntries "checkpoint에 중복 hot stock state가 있습니다" hs.states
  obtain ⟨cursors, hcursors, hsameCursors⟩ :=
    enter_sortedEntries "checkpoint에 중복 source cursor가 있습니다" hs.sourceCursors
  have hmessages := s.processedMessages.ofList_sortedEntries
  have hlength : (Dict.ofList s.processedMessages.sortedEntries).entries.length =
      s.processedMessages.sortedEntries.length :=
    (hmessages.perm.trans s.processedMessages.sortedEntries_perm.symm).length_eq
  obtain ⟨hvalid, rfl⟩ := checked_eq_ok.mp hc
  refine ⟨⟨states, .ofList s.processedMessages.sortedEntries, cursors⟩, ?_,
    hsameStates, hmessages, hsameCursors⟩
  rw [restore, check_bind_eq_ok, bind_eq_ok]
  refine ⟨ensure_eq_ok.mpr rfl, states, hstates, ?_⟩
  rw [check_bind_eq_ok, bind_eq_ok]
  exact ⟨ensure_eq_ok.mpr hlength, cursors, hcursors, rfl⟩

/-- A checkpoint made no earlier than anything received is made, read back and restored, and the
restored store is indistinguishable from the original: on every later sequence of updates it gives
the same answers and refusals, holds the same states and makes the same checkpoints. -/
theorem recovery_transparent [Sha256] [CharTable] {s : HotStateStore} (hs : Reachable s)
    {createdAt : Datetime} (hcreated : ∀ t ∈ s.observedTimes, t ≤ createdAt) :
    ∃ c r, s.checkpoint createdAt = .ok c ∧
      (HotStateCheckpoint.fromDict c.toDict >>= restore) = .ok r ∧
      ∀ us, r.results us = s.results us ∧
        (∀ marketDate stockId,
          (r.run us).get marketDate stockId = (s.run us).get marketDate stockId) ∧
        ∀ createdAt, SameOutcome ((r.run us).checkpoint createdAt)
          ((s.run us).checkpoint createdAt) := by
  have hasOf : latestTime createdAt s.observedTimes ≤ createdAt := by
    rcases (latestTime_spec createdAt s.observedTimes).1 with ⟨-, heq⟩ | hmem
    · rw [heq]
    · exact hcreated _ hmem
  have hcheckpoint : s.checkpoint createdAt = .ok ⟨_, _⟩ := checked_of_ok (by
    simp only [HotStateCheckpoint.Fields.postInit, check_bind_eq_ok, requireText_eq_ok,
      ensure_eq_ok]
    exact ⟨by decide, hasOf⟩)
  obtain ⟨r, hr, hsame⟩ := restore_of_checkpoint hs.keyed hcheckpoint
  refine ⟨_, r, hcheckpoint, ?_, fun us => ?_⟩
  · rw [HotStateCheckpoint.fromDict_toDict]
    exact hr
  · obtain ⟨hresults, hrun⟩ := hsame.run us
    exact ⟨hresults, fun marketDate stockId => hrun.states _, hrun.checkpoint⟩

/-- A store that took one tick recovers. -/
theorem recovery_transparent_tick :
    letI : Sha256 := .ofTable tickDigests
    letI : CharTable := ⟨fun _ => true⟩
    let s := empty.run [tick]
    ∃ c r, s.checkpoint fivePastNine = .ok c ∧
      (HotStateCheckpoint.fromDict c.toDict >>= restore) = .ok r ∧
      ∀ us, r.results us = s.results us ∧
        (∀ marketDate stockId,
          (r.run us).get marketDate stockId = (s.run us).get marketDate stockId) ∧
        ∀ createdAt, SameOutcome ((r.run us).checkpoint createdAt)
          ((s.run us).checkpoint createdAt) := by
  generalize Sha256.ofTable tickDigests = sha
  refine @recovery_transparent sha ⟨fun _ => true⟩ (empty.run [tick]) (.apply tick .fresh)
    fivePastNine ?_
  have htimes : (empty.run [tick]).observedTimes = [fivePastNine, fivePastNine] := rfl
  rw [htimes]
  simp

end HotStateStore

end Dayjaview.Realtime
