import Dayjaview.Core.Dict
import Dayjaview.Core.Timedelta
import Dayjaview.Kiwoom.Normalizer
import Mathlib.Algebra.Order.Field.Rat

/-!
# The live adapter

The adapter keeps the items of the feed that have a code of six digits, puts what it
keeps of a message into an envelope with the clock of the source, and hands it over.
-/

namespace Dayjaview.Kiwoom

/-- The offset of Korea from UTC: nine hours. -/
def KST : Int := 32400000000

/-- The fields with one of them replaced, or added at the end. -/
def withField (fields : JsonValue.Fields) (key : String) (value : JsonValue) :
    JsonValue.Fields :=
  if codePoints key ∈ fields.map Prod.fst then
    fields.map fun field => if field.1 = codePoints key then (field.1, value) else field
  else fields ++ [(codePoints key, value)]

/-- A row with a code in one of its fields. -/
def withCode (fields : JsonValue.Fields) (key code : String) : JsonValue :=
  .obj (withField fields key (.str (codePoints code)))

section

variable [JsonValue.Printer] [UnicodeTable]

omit [JsonValue.Printer] [UnicodeTable] in
def withoutSuffix (suffix : String) (text : List CodePoint) : List CodePoint :=
  if (codePoints suffix).isSuffixOf text then text.take (text.length - (codePoints suffix).length)
  else text

omit [JsonValue.Printer] in
/-- A code of seven characters without its leading letter A, when digits follow. -/
def withoutFeedLetter (text : List CodePoint) : List CodePoint :=
  match text with
  | .char 'A' :: code => if text.length = 7 ∧ isDigitPoints code = true then code else text
  | text => text

/-- The code of six digits of a stock of the feed, if it has one. -/
def normalizeLiveStockCode (value : JsonValue) : Option String :=
  let text := upperPoints (stripPoints (textOrEmpty value))
  let code := withoutSuffix "_NX" (withoutSuffix "_AL" (withoutFeedLetter text))
  if code.length = 6 ∧ isDigitPoints code = true then some (String.ofList (charsOf code)) else none

/-- What the adapter makes of an item. -/
inductive ItemVerdict where
  /-- It belongs to another channel. -/
  | passed
  | dropped
  | kept (item : JsonValue)
  deriving DecidableEq

omit [JsonValue.Printer] [UnicodeTable] in
/-- The kept items and the number of the dropped ones. -/
def sifted (verdicts : List ItemVerdict) : List JsonValue × Nat :=
  (verdicts.filterMap fun verdict => match verdict with
    | .kept item => some item
    | _ => none, verdicts.countP (· = .dropped))

/-- An item of a realtime message. -/
def sanitizeRealItem (item : JsonValue) : ItemVerdict :=
  match item with
  | .obj fields =>
    let itemType := textOrEmpty (item.getOr "type")
    if itemType ≠ "0B" ∧ itemType ≠ "02" then .passed
    else
      let values := item.getOr "values"
      match normalizeLiveStockCode (firstTrue [item.getOr "item", values.getOr "9001"]) with
      | none => .dropped
      | some code =>
        let action := upperPoints (textOrEmpty (values.getOr "843"))
        let conditionId := stripPoints (textOrEmpty (values.getOr "841"))
        if itemType = "02" ∧ ((action ≠ "I" ∧ action ≠ "D") ∨ conditionId = []) then .dropped
        else .kept (withCode fields "item" code)
  | _ => .dropped

/-- The items of a realtime message that the normalizer takes. -/
def sanitizeRealItems (data : JsonValue) : List JsonValue × Nat :=
  match data with
  | .arr items => sifted (items.map sanitizeRealItem)
  | _ => ([], 0)

/-- A row of the first list of a condition. -/
def sanitizeConditionRow (row : JsonValue) : ItemVerdict :=
  match row with
  | .obj fields =>
    match normalizeLiveStockCode (firstTrue
      [row.getOr "item", row.getOr "9001", row.getOr "jmcode", row.getOr "stk_cd"]) with
    | none => .dropped
    | some code => .kept (withCode fields "item" code)
  | _ => .dropped

/-- The rows of the first list of a condition, under the key that the normalizer reads. -/
def sanitizeConditionRows (data : JsonValue) : List JsonValue × Nat :=
  match data with
  | .arr rows => sifted (rows.map sanitizeConditionRow)
  | _ => ([], 0)

/-- A row of a snapshot; rows that are no objects are passed over. -/
def sanitizeSnapshotRow (requestedCodes : List String) (row : JsonValue) : ItemVerdict :=
  match row with
  | .obj fields =>
    match normalizeLiveStockCode (firstTrue [row.getOr "stk_cd", row.getOr "code"]) with
    | none => .dropped
    | some code =>
      if code ∈ requestedCodes then .kept (withCode fields "stk_cd" code) else .dropped
  | _ => .passed

/-- The rows of a snapshot of the requested stocks. -/
def sanitizeSnapshotRows (requestedCodes : List String) (data : JsonValue) : List JsonValue × Nat :=
  match data with
  | .arr rows => sifted (rows.map (sanitizeSnapshotRow requestedCodes))
  | _ => ([], 0)

section

omit [JsonValue.Printer] [UnicodeTable]

/-- The hour that two digits write. -/
def hourOf (tens ones : Char) : Option Nat :=
  if tens = '0' then decimalValue ones
  else if tens = '1' then (decimalValue ones).map (10 + ·)
  else if tens = '2' ∧ ones ∈ ['0', '1', '2', '3'] then (decimalValue ones).map (20 + ·)
  else none

/-- The minute or the second that two digits write. -/
def sixtiethOf (tens ones : Char) : Option Nat :=
  if tens ∈ ['0', '1', '2', '3', '4', '5'] then
    (decimalValue ones).map fun n => 10 * (tens.toNat - '0'.toNat) + n
  else none

/-- The hour, the minute and the second that six digits write. -/
def clockOf : List Char → Option (Nat × Nat × Nat)
  | h₁ :: h₂ :: m₁ :: m₂ :: s₁ :: s₂ :: _ => do
    return (← hourOf h₁ h₂, ← sixtiethOf m₁ m₂, ← sixtiethOf s₁ s₂)
  | _ => none

end

/-- The microsecond that the digits after the clock write, as thousandths of a second. -/
def microsecondOf (digits : List Char) : Except Error Nat :=
  if 9 ≤ digits.length then
    let text := String.ofList ((digits.drop 6).take 3)
    match intOfStr text with
    | some millisecond => .ok (millisecond.toNat * 1000)
    | none => .error ⟨.valueError,
        "invalid literal for int() with base 10: " ++ String.ofList (Json.reprText text)⟩
  else .ok 0

/-- The time of a source that gives the clock of the day on which it was received. -/
def sourceClockToDatetime (value : JsonValue) (receivedAt : Datetime) : Except Error Datetime :=
  let digits := (charsOf (textOrEmpty value)).filter UnicodeTable.isdigit
  match clockOf digits with
  | none => .ok receivedAt
  | some (hour, minute, second) => do
    let received ← receivedAt.astimezone KST
    let microsecond ← microsecondOf digits
    match Datetime.ofFields received.date hour minute second microsecond KST with
    | some occurred => return occurred
    | none => throw ⟨.valueError, "microsecond must be in 0..999999"⟩

/-- The time of the first item that has a clock, else the time of receipt. -/
def firstSourceClock (payload : JsonValue) (receivedAt : Datetime) : Except Error Datetime :=
  match payload.getOr "data" with
  | .arr items =>
    match items.find? fun item => ((item.getOr "values").getOr "20").truth with
    | some item => sourceClockToDatetime ((item.getOr "values").getOr "20") receivedAt
    | none => .ok receivedAt
  | _ => .ok receivedAt

end

/-- A registration that is sent again. Seconds are exact numbers here. -/
structure ConditionRetry where
  attempts : Nat
  dueAt : ℚ

structure LiveSession where
  sessionId : String
  queue : List KiwoomSourceEnvelope := []
  closed : Bool := false
  closeReason : String := ""
  lastMessageAt : Option Datetime := none
  droppedItems : Nat := 0
  controlErrors : Nat := 0
  conditionRetries : Dict (List CodePoint) ConditionRetry := .empty
  lastConditionSend : ℚ := 0
  sequence : Nat := 0
  named : sessionId ≠ "" := by decide

namespace LiveSession

/-- Close the session; the first reason stays. -/
def markClosed (s : LiveSession) (reason : String) : LiveSession :=
  { s with closed := true, closeReason := if s.closeReason = "" then reason else s.closeReason }

def sourceMessageId (sessionId : String) (sequence : Nat) : String :=
  "live:" ++ (sessionId ++ (":" ++ String.ofList (natText sequence)))

theorem sourceMessageId_ne (sessionId : String) (sequence : Nat) :
    sourceMessageId sessionId sequence ≠ "" := by
  intro h
  have hchars := congrArg String.toList h
  simp [sourceMessageId] at hchars

/-- The envelope of a realtime message or of the first list of a condition. -/
def realtimeEnvelope (s : LiveSession) (sequence : Nat) (payload : JsonValue.Fields)
    (sourceTimestamp receivedAt : Datetime) : KiwoomSourceEnvelope where
  sourceSchemaVersion := SOURCE_SCHEMA_BY_CHANNEL .websocket
  channel := .websocket
  sessionId := s.sessionId
  sourceMessageId := sourceMessageId s.sessionId sequence
  sourceSequence := sequence
  sourceTimestamp
  receivedAt
  payload
  valid := ⟨by decide, s.named, sourceMessageId_ne _ _, Int.natCast_nonneg _⟩

/-- The message in which the adapter hands over the first list of a condition. -/
def conditionPayload (sequence : List CodePoint) (rows : List JsonValue) : JsonValue.Fields :=
  [("trnm", .str "CNSRREQ"), ("seq", .str sequence), ("data", .arr rows)]

/-- The message in which the adapter hands over the rows of a snapshot. -/
def snapshotPayload (rows : List JsonValue) : JsonValue.Fields :=
  [("apiId", .str "ka10095"), ("atn_stk_infr", .arr rows)]

/-- The envelope of a snapshot. -/
def snapshotEnvelope (s : LiveSession) (sequence : Nat) (rows : List JsonValue)
    (receivedAt : Datetime) : KiwoomSourceEnvelope where
  sourceSchemaVersion := SOURCE_SCHEMA_BY_CHANNEL .restSnapshot
  channel := .restSnapshot
  sessionId := s.sessionId
  sourceMessageId := sourceMessageId s.sessionId sequence
  sourceSequence := sequence
  sourceTimestamp := receivedAt
  receivedAt
  payload := snapshotPayload rows
  requestId := some ("ka10095:" ++ String.ofList (natText sequence))
  valid := ⟨by decide, s.named, sourceMessageId_ne _ _, Int.natCast_nonneg _⟩

variable [JsonValue.Printer] [UnicodeTable]

/-- Put a message into an envelope. What raises after the number was taken leaves it taken. -/
def enqueue (s : LiveSession) (payload : JsonValue.Fields) (receivedAt : Datetime) :
    Except Error Unit × LiveSession :=
  let numbered := { s with sequence := s.sequence + 1 }
  let built := do
    let sourceTimestamp ← firstSourceClock (.obj payload) receivedAt
    let _ ← receivedAt.astimezone KST
    return s.realtimeEnvelope (s.sequence + 1) payload sourceTimestamp receivedAt
  match built with
  | .error e => (.error e, numbered)
  | .ok envelope => (.ok (), { numbered with queue := s.queue ++ [envelope] })

/-- Take in a realtime message. -/
def handleRealMessage (s : LiveSession) (payload : JsonValue.Fields) (receivedAt : Datetime) :
    Except Error Unit × LiveSession :=
  let sanitized := sanitizeRealItems ((JsonValue.obj payload).getOr "data")
  let s := { s with droppedItems := s.droppedItems + sanitized.2 }
  if sanitized.1 = [] then (.ok (), s)
  else s.enqueue (withField payload "data" (.arr sanitized.1)) receivedAt

/-- Take in the answer of the snapshot service for some codes. -/
def handleSnapshot (s : LiveSession) (requestedCodes : List String)
    (payload : JsonValue.Fields) (receivedAt : Datetime) :
    Except Error (Option KiwoomSourceEnvelope) × LiveSession :=
  let sanitized :=
    sanitizeSnapshotRows requestedCodes ((JsonValue.obj payload).getOr "atn_stk_infr")
  let s := { s with droppedItems := s.droppedItems + sanitized.2 }
  if sanitized.1 = [] then (.ok none, s)
  else
    let numbered := { s with sequence := s.sequence + 1 }
    match receivedAt.astimezone KST with
    | .error e => (.error e, numbered)
    | .ok _ => (.ok (some (s.snapshotEnvelope (s.sequence + 1) sanitized.1 receivedAt)), numbered)

end LiveSession

end Dayjaview.Kiwoom
