import Dayjaview.Core.JsonReader
import Dayjaview.Reference.Calendar

/-!
# The calendar in the daily trades

The exchange has no calendar service. Whether a date is a trading day is derived
from the answers about the daily trades of the date: it is one if there are rows.
-/

namespace Dayjaview.Reference

/-- A source answers against its contract. -/
def sourceContractError (code path detail : String) : Error :=
  ⟨.sourceContractError, code ++ " (" ++ path ++ "): " ++ detail⟩

def readSequence (value : Json) (path : String) : Except Error (List Json) :=
  match value with
  | .arr items => .ok items
  | _ => .error (sourceContractError "MALFORMED_SOURCE_RESPONSE" path "JSON array가 필요합니다.")

def readText (value : String) (path : String) : Except Error String :=
  if isBlank value then
    .error (sourceContractError "MALFORMED_SOURCE_RESPONSE" path "빈 문자열은 허용되지 않습니다.")
  else .ok (strip value)

/-- The characters of a date that is written with separators, for eight digits. -/
def normalizedDate (cs : List Char) : List Char :=
  if cs.length = 8 ∧ cs.all (·.isDigit) = true then
    cs.take 4 ++ '-' :: (cs.drop 4).take 2 ++ '-' :: (cs.drop 6).take 2
  else cs

/-- A date, with or without separators. -/
def readDate (value : String) (path : String) : Except Error Date := do
  let text ← readText value path
  match Date.fromisoformat (String.ofList (normalizedDate text.toList)) with
  | some d => return d
  | none => throw (sourceContractError "MALFORMED_SOURCE_RESPONSE" path
      "YYYY-MM-DD 또는 YYYYMMDD 날짜가 필요합니다.")

/-- The part of a text behind the first colon. -/
def behindColon (s : String) : String := String.ofList ((s.toList.dropWhile (· != ':')).drop 1)

/-- The fields of an object that is written as JSON. -/
def parseJsonObject [JsonRuntime] (text : String) : Except Error (List (String × Json)) := do
  match ← loads text with
  | .obj fields => return fields
  | _ => throw ⟨.typeError, "최상위 JSON object가 필요합니다."⟩

def nineOClock : ClockTime := ⟨32400000000, by decide⟩

def halfPastThree : ClockTime := ⟨55800000000, by decide⟩

variable [Sha256]

/-- The date of a snapshot of the daily trades. -/
def SourceSnapshot.marketDate (s : SourceSnapshot) : Except Error Date :=
  readDate (behindColon s.metadata.sourceKey) "$metadata.sourceKey"

/-- A snapshot of the daily trades has rows. -/
def SourceSnapshot.hasRows [JsonRuntime] (s : SourceSnapshot) : Except Error Bool := do
  let payload ← parseJsonObject s.rawPayloadText
  let rows ← readSequence ((Json.field? payload "OutBlock_1").getD .null) "$.OutBlock_1"
  return !rows.isEmpty

/-- The metadata of an observation of a date from a snapshot. -/
def derivedMetadata (metadata : SourceMetadata) (marketDate : Date) : Except Error SourceMetadata :=
  SourceMetadata.make { metadata.toFields with
    dataset := .krxCalendarDerived
    sourceKey := marketDate.isoformat
    lineage := metadata.lineage.map ("krx-calendar-derived:" ++ ·) }

/-- The observation of a date in a snapshot of its daily trades. -/
def observe [JsonRuntime] (version : String) (sessionOpen sessionClose : ClockTime)
    (snapshot : SourceSnapshot) : Except Error TradingDayObservation := do
  let metadata := snapshot.metadata
  if metadata.dataset ≠ .krxStockDaily then
    throw (sourceContractError "SOURCE_DATASET_MISMATCH" "$snapshot"
      "KRX 일별매매 snapshot이 아닙니다.")
  let marketDate ← snapshot.marketDate
  let isTradingDay ← snapshot.hasRows
  TradingDayObservation.make
    { marketDate
      isTradingDay
      sessionOpen := if isTradingDay then some sessionOpen else none
      sessionClose := if isTradingDay then some sessionClose else none
      version
      metadata := ← derivedMetadata metadata marketDate }

/-- The calendar in some snapshots of daily trades. -/
def deriveTradingCalendar [JsonRuntime] (snapshots : List SourceSnapshot) (version : String)
    (sessionOpen : ClockTime := nineOClock) (sessionClose : ClockTime := halfPastThree) :
    Except Error TradingCalendar :=
  snapshots.mapM (observe version sessionOpen sessionClose)

end Dayjaview.Reference
