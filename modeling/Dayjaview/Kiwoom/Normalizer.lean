import Dayjaview.Core.Arithmetic
import Dayjaview.Core.Utc
import Dayjaview.Kiwoom.Events

/-!
# Normalization of source messages

A message becomes canonical events or is refused as a whole. Most refusals are
normalization errors; the checks of the events and the arithmetic of the numbers
have errors of their own.
-/

namespace Dayjaview.Kiwoom

/-- A source message that breaks the contract of the adapter. -/
def normalizationError (message : String) : Error := ⟨.normalizationError, message⟩

variable [JsonValue.Printer]

/-- The text of a value, empty for one that counts as false. -/
def textOrEmpty (value : JsonValue) : List CodePoint := if value.truth then value.text else []

section

omit [JsonValue.Printer]

/-- The first of some values that counts as true, or else the last one. -/
def firstTrue : List JsonValue → JsonValue
  | [] => .null
  | [value] => value
  | value :: values => if value.truth then value else firstTrue values

def mappingRows (value : JsonValue) (fieldName : String) : Except Error (List JsonValue) :=
  match value with
  | .arr rows =>
    rows.mapM fun row => match row with
      | .obj fields => .ok (.obj fields)
      | _ => .error (normalizationError s!"{fieldName} 항목은 object여야 합니다")
  | _ => .error (normalizationError s!"{fieldName}는 object 배열이어야 합니다")

def asMapping (value : JsonValue) (fieldName : String) : Except Error JsonValue :=
  match value with
  | .obj fields => .ok (.obj fields)
  | _ => .error (normalizationError s!"{fieldName}는 object여야 합니다")

/-- A text without one leading letter A. -/
def withoutMarketLetter : List CodePoint → List CodePoint
  | .char 'A' :: code => code
  | code => code

end

def stockCode [UnicodeTable] (value : JsonValue) : Except Error String :=
  let code := withoutMarketLetter (upperPoints (stripPoints (textOrEmpty value)))
  if code.length ≠ 6 ∨ isDigitPoints code = false then
    .error (normalizationError "Kiwoom 종목코드는 6자리 숫자여야 합니다")
  else .ok (String.ofList (charsOf code))

section

omit [JsonValue.Printer]

/-- The largest exponent that a number can be written with. -/
def maxExponent : Int := 999999999999999999

/-- The digits and the exponent of a number are within the limits of its type. -/
def isExact (d : Decimal) : Bool :=
  -(2 * maxExponent - 1) ≤ d.exponent &&
    if d.coefficient = 0 then d.exponent ≤ maxExponent
    else d.exponent + Decimal.digits d.coefficient - 1 ≤ maxExponent

end

/-- The characters of a number without blanks, commas and percent signs. -/
def numberPoints (value : JsonValue) : List CodePoint :=
  (stripPoints (textOrEmpty value)).filter fun c => c != .char ',' && c != .char '%'

omit [JsonValue.Printer] in
/-- What some characters write as a number; a lone surrogate writes none. -/
def decimalLiteral (points : List CodePoint) : Option Decimal.Literal :=
  (encodable points).toOption.bind Decimal.ofStr

/-- The number of a value, if there is one; its magnitude is rounded. A message about a value leaves
out its lone surrogates. -/
def decimal (value : JsonValue) (absolute : Bool) : Except Error (Option Decimal) :=
  let points := numberPoints value
  let shown := String.ofList (charsOf value.text)
  let refused := normalizationError s!"숫자 필드를 Decimal로 변환할 수 없습니다: {shown}"
  if points = [] then .ok none
  else
    match decimalLiteral points with
    | none => .error refused
    | some .special => .error (normalizationError "숫자 필드는 유한해야 합니다")
    | some (.finite parsed) =>
      if isExact parsed = false then .error refused
      else if absolute then do
        let magnitude ← Decimal.finish .halfEven Decimal.defaultPrec
            { parsed with negative := false }
        return some magnitude
      else .ok (some parsed)

omit [JsonValue.Printer] in
/-- The number as an integer, if it is one. -/
def toInteger (d : Decimal) : Option Int :=
  if 0 ≤ d.exponent then some (d.signed * 10 ^ d.exponent.toNat)
  else if d.coefficient % 10 ^ (-d.exponent).toNat = 0 then
    some (d.signed / 10 ^ (-d.exponent).toNat)
  else none

/-- The integer of a value, if there is one. -/
def integer (value : JsonValue) (absolute : Bool) : Except Error (Option Int) := do
  let parsed ← decimal value absolute
  match parsed with
  | none => return none
  | some parsed =>
    match toInteger parsed with
    | some n => return some n
    | none => throw (normalizationError "정수 필드에 소수값이 들어왔습니다")

section

omit [JsonValue.Printer]

/-- The reference price of the day: the price without its change, when that is positive. -/
def basePriceOf (currentPrice changeFromPrevious : Option Decimal) :
    Except Error (Option Decimal) :=
  match currentPrice, changeFromPrevious with
  | some price, some change => do
    let base ← Decimal.sub Decimal.defaultPrec price change
    return if Decimal.zero < base then some base else none
  | _, _ => .ok none

/-- The observation with the names of its missing fields. -/
def observationOf (o : MarketObservation.Fields) : Except Error MarketObservation :=
  MarketObservation.make { o with
    missingFields :=
      (if o.cumulativeTradingValue.isNone then ["cumulativeTradingValue"] else []) ++
        if o.currentPrice.isNone then ["currentPrice"] else [] }

/-- What names the condition of a candidate; a lone surrogate cannot be encoded. -/
def conditionKey : EventData → Except Error (List (String × Json))
  | .candidate data => (encodable data.conditionId).map fun id => [("conditionId", .str id)]
  | .observation _ => .ok []

/-- What identifies an item: its session, type, stock, time and place, and the condition. -/
def naturalKey (envelope : KiwoomSourceEnvelope) (itemIndex : Nat) (eventType : CanonicalEventType)
    (code sourceTimestamp : String) (condition : List (String × Json)) : Json :=
  .obj ([("sessionId", .str envelope.sessionId), ("type", .str eventType.value),
    ("stockId", .str ("KRX:" ++ code)), ("sourceTimestamp", .str sourceTimestamp),
    ("sourceSequence", .int envelope.sourceSequence), ("sourceItemIndex", .int itemIndex)] ++
    condition)

end

def makeEvent [Sha256] (envelope : KiwoomSourceEnvelope) (rawItem : JsonValue)
    (itemIndex : Nat)
    (eventType : CanonicalEventType) (code : String) (data : EventData) :
    Except Error CanonicalMarketEvent := do
  let rawHash ← rawItem.digest
  let utc ← envelope.sourceTimestamp.astimezoneUtc
  let condition ← conditionKey data
  let digest := jsonDigest (naturalKey envelope itemIndex eventType code utc.isoformat condition)
  let lineage ← EventLineage.make {
    provider := "KIWOOM", adapterVersion := ADAPTER_VERSION
    sourceSchemaVersion := envelope.sourceSchemaVersion, sourceChannel := envelope.channel
    sessionId := envelope.sessionId, sourceMessageId := envelope.sourceMessageId
    sourceItemIndex := itemIndex, requestId := envelope.requestId, rawPayloadSha256 := rawHash }
  CanonicalMarketEvent.make {
    schemaVersion := CANONICAL_EVENT_SCHEMA_VERSION
    eventId := "mkt_" ++ takeText 26 digest, idempotencyKey := "kiwoom:" ++ digest, eventType
    stockId := "KRX:" ++ code, sourceSequence := envelope.sourceSequence
    sourceTimestamp := envelope.sourceTimestamp, receivedAt := envelope.receivedAt, lineage, data }

variable [UnicodeTable] [Sha256]

def candidateEvent (envelope : KiwoomSourceEnvelope) (row : JsonValue) (itemIndex : Nat)
    (conditionId : List CodePoint) (action : CandidateAction) :
    Except Error CanonicalMarketEvent := do
  let values := row.getOr "values"
  let code ← stockCode (firstTrue [row.getOr "item", values.getOr "9001", row.getOr "stk_cd"])
  if conditionId = [] then throw (normalizationError "condition_id가 비어 있습니다")
  let eventType := match action with
    | .enter => CanonicalEventType.candidateEntered
    | .exit => CanonicalEventType.candidateExited
  let data ← CandidateData.make { action, conditionId, sourceStockCode := code }
  makeEvent envelope row itemIndex eventType code (.candidate data)

def tradeEvent (envelope : KiwoomSourceEnvelope) (item values : JsonValue) (itemIndex : Nat) :
    Except Error CanonicalMarketEvent := do
  let code ← stockCode (firstTrue [item.getOr "item", values.getOr "9001"])
  let currentPrice ← decimal (values.getOr "10") true
  let changeRate ← decimal (values.getOr "12") false
  let change ← decimal (values.getOr "11") false
  let basePrice ← basePriceOf currentPrice change
  let tradeVolume ← integer (values.getOr "15") true
  let cumulativeVolume ← integer (values.getOr "13") true
  let cumulativeTradingValue ← decimal (values.getOr "14") true
  let openPrice ← decimal (values.getOr "16") true
  let highPrice ← decimal (values.getOr "17") true
  let lowPrice ← decimal (values.getOr "18") true
  let executionStrength ← decimal (values.getOr "228") true
  let marketCap ← decimal (values.getOr "311") true
  let data ← observationOf {
    observationSource := .realtime0B, sourceStockCode := code, currentPrice, changeRate, basePrice
    tradeVolume, cumulativeVolume, cumulativeTradingValue, openPrice, highPrice, lowPrice
    executionStrength, marketCap, missingFields := [] }
  makeEvent envelope item itemIndex .trade code (.observation data)

/-- The event of a row of a snapshot. A reference price of zero counts as none. -/
def snapshotEvent (envelope : KiwoomSourceEnvelope) (row : JsonValue) (itemIndex : Nat) :
    Except Error CanonicalMarketEvent := do
  let code ← stockCode (firstTrue [row.getOr "stk_cd", row.getOr "code"])
  let currentPrice ← decimal (row.getOr "cur_prc") true
  let changeRate ← decimal (row.getOr "flu_rt") false
  let given ← decimal (row.getOr "base_pric") true
  let basePrice ←
    match given.filter fun d => d.coefficient != 0 with
    | some base => pure (some base)
    | none => do
      let price ← decimal (row.getOr "cur_prc") true
      let change ← decimal (row.getOr "pred_pre") false
      basePriceOf price change
  let tradeVolume ← integer (row.getOr "trde_qty") true
  let cumulativeVolume ← integer (row.getOr "acc_trde_qty") true
  let cumulativeTradingValue ← decimal (row.getOr "acc_trde_prica") true
  let openPrice ← decimal (row.getOr "open_pric") true
  let highPrice ← decimal (row.getOr "high_pric") true
  let lowPrice ← decimal (row.getOr "low_pric") true
  let executionStrength ← decimal (row.getOr "cntr_str") true
  let marketCap ← decimal (row.getOr "mac") true
  let data ← observationOf {
    observationSource := .restKa10095, sourceStockCode := code, currentPrice, changeRate, basePrice
    tradeVolume, cumulativeVolume, cumulativeTradingValue, openPrice, highPrice, lowPrice
    executionStrength, marketCap, missingFields := [] }
  makeEvent envelope row itemIndex .snapshot code (.observation data)

/-- The event of an item of a realtime message; items of other types are passed over. -/
def realtimeEvent (envelope : KiwoomSourceEnvelope) (item : JsonValue) (itemIndex : Nat) :
    Except Error (Option CanonicalMarketEvent) := do
  let eventType := textOrEmpty (item.getOr "type")
  let values ← asMapping (item.getOr "values") "REAL.data.values"
  if eventType = "0B" then
    return some (← tradeEvent envelope item values itemIndex)
  else if eventType = "02" then
    let actionCode := upperPoints (textOrEmpty (values.getOr "843"))
    let action ←
      if actionCode = "I" then pure CandidateAction.enter
      else if actionCode = "D" then pure CandidateAction.exit
      else throw (normalizationError "조건검색 action은 I 또는 D여야 합니다")
    let conditionId := stripPoints (textOrEmpty (values.getOr "841"))
    return some (← candidateEvent envelope item itemIndex conditionId action)
  else return none

/-- The events of a message of the websocket. -/
def normalizeWebsocket (envelope : KiwoomSourceEnvelope) :
    Except Error (List CanonicalMarketEvent) := do
  let payload := JsonValue.obj envelope.payload
  let transaction := upperPoints (textOrEmpty (payload.getOr "trnm"))
  let rawData := payload.getOr "data"
  if transaction = "CNSRREQ" then
    let rows ← mappingRows rawData "CNSRREQ.data"
    let conditionId := stripPoints (textOrEmpty (payload.getOr "seq"))
    if conditionId = [] then throw (normalizationError "CNSRREQ.seq가 비어 있습니다")
    rows.zipIdx.mapM fun (row, index) => candidateEvent envelope row index conditionId .enter
  else if transaction ≠ "REAL" then return []
  else
    let items ← mappingRows rawData "REAL.data"
    let events ← items.zipIdx.mapM fun (item, index) => realtimeEvent envelope item index
    return events.reduceOption

def normalizeSnapshot (envelope : KiwoomSourceEnvelope) :
    Except Error (List CanonicalMarketEvent) := do
  let payload := JsonValue.obj envelope.payload
  let apiId := textOrEmpty (payload.getOr "apiId")
  if apiId ≠ "ka10095" then throw (normalizationError "REST snapshot apiId는 ka10095여야 합니다")
  let rawRows := match payload.getOr "rows" with
    | .null => payload.getOr "atn_stk_infr"
    | rows => rows
  let rows ← mappingRows rawRows "ka10095.rows"
  rows.zipIdx.mapM fun (row, index) => snapshotEvent envelope row index

omit [JsonValue.Printer] [UnicodeTable] [Sha256] in
/-- The version of the messages of a channel. -/
def SOURCE_SCHEMA_BY_CHANNEL : SourceChannel → String
  | .websocket => "kiwoom.websocket.v1"
  | .restSnapshot => "kiwoom.ka10095.v1"

def normalize (envelope : KiwoomSourceEnvelope) : Except Error (List CanonicalMarketEvent) :=
  if envelope.sourceSchemaVersion ≠ SOURCE_SCHEMA_BY_CHANNEL envelope.channel then
    .error (normalizationError "Kiwoom source channel과 schema version이 일치하지 않습니다")
  else
    match envelope.channel with
    | .websocket => normalizeWebsocket envelope
    | .restSnapshot => normalizeSnapshot envelope

end Dayjaview.Kiwoom
