import Dayjaview.Core.Grouping
import Dayjaview.Core.JsonText
import Dayjaview.Domain.Models

/-!
# The intraday history in files

Every trading day has a directory. A minute of the day, the memberships and the signals
at its end each have a file, which is overwritten in place. A file that is not there
contributes nothing.
-/

namespace Dayjaview.Pipeline

open Dayjaview.Domain

/-- The signal of a theme on one day. -/
structure AttentionDaySignal where
  marketDate : Date
  isAttention : Option Bool
  membershipVersion : Option String
  calculationVersion : String
  baselineVersion : String
  attentionPolicyVersion : String
  turnoverMultiple : Option Decimal
  highInterestCount : Option Int
  validCount : Option Int
  highInterestRatio : Option Decimal
  weightedReturn : Option Decimal
  unavailableReason : Option UnavailableReason

/-- A directory and a file in it. -/
abbrev HistoryPath := String × String

abbrev HistoryFiles := Dict HistoryPath String

/-- The beginning of the name of a minute's file. -/
def BUCKET_PREFIX : String := "bucket-"

/-- The file of the memberships. -/
def MEMBERSHIP_FILE : String := "membership.json"

def ATTENTION_FILE : String := "attention.json"

def bucketFile (bucket : TimeOfDay) : String :=
  BUCKET_PREFIX ++ (String.ofList (padded 2 bucket.hour ++ padded 2 bucket.minute) ++ ".json")

/-- The path of the file of a minute. -/
def bucketPath (marketDate : Date) (bucket : TimeOfDay) : HistoryPath :=
  (marketDate.isoformat, bucketFile bucket)

/-- The path of the memberships of a day. -/
def membershipPath (marketDate : Date) : HistoryPath := (marketDate.isoformat, MEMBERSHIP_FILE)

/-- The path of the signals of a day. -/
def attentionPath (marketDate : Date) : HistoryPath := (marketDate.isoformat, ATTENTION_FILE)

def decimalText : Option Decimal → Json
  | none => .null
  | some value => .str value.str

def textOrNull : Option String → Json
  | none => .null
  | some text => .str text

def countOrNull : Option Int → Json
  | none => .null
  | some count => .int count

def truthOrNull : Option Bool → Json
  | none => .null
  | some b => .bool b

/-- The fields of an observation; its day and minute are those of the file. -/
def turnoverFields (o : StockTradingValueObservation) : List (String × Json) :=
  [("stockId", .str o.stockId), ("observedAt", .str o.observedAt.isoformat),
    ("cumulativeTradingValue", decimalText o.cumulativeTradingValue),
    ("comparable", .bool o.comparable), ("fresh", .bool o.fresh),
    ("tradingHalted", .bool o.tradingHalted),
    ("corporateActionUnresolved", .bool o.corporateActionUnresolved)]

/-- The written form of an observation. -/
def turnoverRow (o : StockTradingValueObservation) : Json := .obj (turnoverFields o)

/-- The written form of a role. -/
def roleValue : MembershipRole → String
  | .core => "CORE"
  | .related => "RELATED"

def memberFields (m : ThemeMember) : List (String × Json) :=
  [("stockId", .str m.stockId), ("role", .str (roleValue m.role))]

/-- The written form of a member. -/
def memberRow (m : ThemeMember) : Json := .obj (memberFields m)

/-- The fields of a membership. -/
def membershipFields (s : ThemeMembershipSnapshot) : List (String × Json) :=
  [("themeId", .str s.themeId), ("version", .str s.version),
    ("effectiveFrom", .str s.effectiveFrom.isoformat), ("knownAt", .str s.knownAt.isoformat),
    ("members", .arr (s.members.map memberRow))]

/-- The written form of a membership. -/
def membershipRow (s : ThemeMembershipSnapshot) : Json := .obj (membershipFields s)

/-- The fields of a signal; its day is that of the file. -/
def signalFields (s : AttentionDaySignal) : List (String × Json) :=
  [("isAttention", truthOrNull s.isAttention),
    ("membershipVersion", textOrNull s.membershipVersion),
    ("calculationVersion", .str s.calculationVersion), ("baselineVersion", .str s.baselineVersion),
    ("attentionPolicyVersion", .str s.attentionPolicyVersion),
    ("turnoverMultiple", decimalText s.turnoverMultiple),
    ("highInterestCount", countOrNull s.highInterestCount),
    ("validCount", countOrNull s.validCount),
    ("highInterestRatio", decimalText s.highInterestRatio),
    ("weightedReturn", decimalText s.weightedReturn),
    ("unavailableReason", textOrNull (s.unavailableReason.map UnavailableReason.value))]

/-- The written form of a signal. -/
def signalRow (s : AttentionDaySignal) : Json := .obj (signalFields s)

/-- A call that records something. -/
inductive HistoryCall where
  | turnover (marketDate : Date) (timeBucket : TimeOfDay)
      (observations : List StockTradingValueObservation)
  | membership (marketDate : Date) (snapshots : List ThemeMembershipSnapshot)
  | attention (marketDate : Date) (signals : Dict String AttentionDaySignal)

def HistoryCall.path : HistoryCall → HistoryPath
  | turnover marketDate timeBucket _ => bucketPath marketDate timeBucket
  | membership marketDate _ => membershipPath marketDate
  | attention marketDate _ => attentionPath marketDate

def HistoryCall.payload : HistoryCall → Json
  | turnover _ _ observations => .arr (observations.map turnoverRow)
  | membership _ snapshots => .arr (snapshots.map membershipRow)
  | attention _ signals => .obj (signals.entries.map fun e => (e.1, signalRow e.2))

inductive CallEnd where
  | completed
  /-- The process ends before the file is opened. -/
  | crashedBefore
  /-- The process ends when so many characters are in the file. -/
  | crashedAfter (written : Nat)

def HistoryFiles.record (files : HistoryFiles) (c : HistoryCall) (e : CallEnd) : HistoryFiles :=
  match c.payload.dumpText with
  | .error _ => files
  | .ok text =>
    match e with
    | .completed => files.set c.path text
    | .crashedBefore => files
    | .crashedAfter written => files.set c.path (String.ofList (text.toList.take written))

/-- The files after some calls. -/
def HistoryFiles.recordAll (files : HistoryFiles) (calls : List (HistoryCall × CallEnd)) :
    HistoryFiles :=
  calls.foldl (fun files c => files.record c.1 c.2) files

variable [CharTable] [JsonRuntime]

/-- The value in a file, if there is one. -/
def readFile (files : HistoryFiles) (path : HistoryPath) : Except Error (Option Json) :=
  match files.get? path with
  | none => .ok none
  | some text => (loads text).map some

omit [JsonRuntime]

/-- Read a number from its text. -/
def readDecimal (fieldName : String) (item : Json) : Except Error (Option Decimal) :=
  match item with
  | .null => .ok none
  | item =>
    match Decimal.ofStr item.text with
    | some (.finite d) => .ok (some d)
    | some .special => .error ⟨.valueError, s!"{fieldName}은 유한한 Decimal이어야 합니다"⟩
    | none => .error ⟨.decimalSignal, "[<class 'decimal.ConversionSyntax'>]"⟩

/-- The number in an item that has to be there. -/
def decimalItem (row : Json) (key fieldName : String) : Except Error (Option Decimal) := do
  let item ← row.getItem key
  readDecimal fieldName item

/-- A value that is not of the declared type. -/
def undeclared : Error := ⟨.typeError, ""⟩

/-- An optional truth value as declared. -/
def truthItem (row : Json) (key : String) : Except Error (Option Bool) := do
  match ← row.getItem key with
  | .null => return none
  | .bool b => return some b
  | _ => throw undeclared

/-- An optional text as declared. -/
def textItem (row : Json) (key : String) : Except Error (Option String) := do
  match ← row.getItem key with
  | .null => return none
  | .str text => return some text
  | _ => throw undeclared

/-- An optional count as declared. -/
def countItem (row : Json) (key : String) : Except Error (Option Int) := do
  match ← row.getItem key with
  | .null => return none
  | .int count => return some count
  | _ => throw undeclared

/-- The role with a written form. -/
def readRole (text : String) : Option MembershipRole :=
  if text = "CORE" then some .core else if text = "RELATED" then some .related else none

def allReasons : List UnavailableReason :=
  [.emptyMembership, .insufficientCoverage, .missingReferenceData, .missingMarketData,
    .tradingHalted, .corporateActionUnresolved, .insufficientObservations, .zeroBaseline,
    .noPriorAttentionInterval, .noCurrentAttentionInterval, .membershipHistoryUnavailable,
    .membershipVersionMismatch, .incompleteAttentionHistory]

/-- The reason with a written form. -/
def readReason (text : String) : Option UnavailableReason :=
  allReasons.find? fun reason => reason.value == text

/-- The complaint about a text that is no word of an enumeration. -/
def invalidWord (enumeration text : String) : Error :=
  ⟨.valueError, String.ofList (Json.reprText text) ++ " is not a valid " ++ enumeration⟩

/-- The items of a value one after the other. -/
def iterate : Json → Except Error (List Json)
  | .arr items => .ok items
  | .obj fields => .ok (fields.map fun e => .str e.1)
  | .str text => .ok (text.toList.map fun c => .str (String.ofList [c]))
  | .null => .error ⟨.typeError, "'NoneType' object is not iterable"⟩
  | .bool _ => .error ⟨.typeError, "'bool' object is not iterable"⟩
  | .int _ => .error ⟨.typeError, "'int' object is not iterable"⟩
  | .float _ => .error ⟨.typeError, "'float' object is not iterable"⟩

/-- Read an observation of a day and a minute. -/
def readTurnoverRow (marketDate : Date) (timeBucket : TimeOfDay) (row : Json) :
    Except Error StockTradingValueObservation := do
  let stockId ← row.getText "stockId"
  let observedAt ← row.getDatetime "observedAt"
  let cumulativeTradingValue ←
    decimalItem row "cumulativeTradingValue" "cumulative_trading_value"
  let comparable ← row.getTruth "comparable"
  let fresh ← row.getTruth "fresh"
  let tradingHalted ← row.getTruth "tradingHalted"
  let corporateActionUnresolved ← row.getTruth "corporateActionUnresolved"
  StockTradingValueObservation.make {
    stockId, marketDate, observedAt, timeBucket, cumulativeTradingValue, comparable, fresh,
    tradingHalted, corporateActionUnresolved }

def readMemberRow (row : Json) : Except Error ThemeMember := do
  let stockId ← row.getText "stockId"
  let role ← Json.getVia readRole (invalidWord "MembershipRole") row "role"
  if h : stockId ≠ "" then return ⟨stockId, role, h⟩
  else throw ⟨.valueError, "stock_id는 비어 있을 수 없습니다"⟩

def readMembershipRow (row : Json) : Except Error ThemeMembershipSnapshot := do
  let themeId ← row.getText "themeId"
  let version ← row.getText "version"
  let effectiveFrom ← row.getDate "effectiveFrom"
  let knownAt ← row.getDatetime "knownAt"
  let rows ← row.getItem "members"
  let rows ← iterate rows
  let members ← rows.mapM readMemberRow
  checked ThemeMembershipSnapshot.Fields.postInit ThemeMembershipSnapshot.mk
    { themeId, version, effectiveFrom, knownAt, members }

def readReasonItem : Json → Except Error (Option UnavailableReason)
  | .null => .ok none
  | reason =>
    match readReason reason.text with
    | some reason => .ok (some reason)
    | none => .error (invalidWord "UnavailableReason" reason.text)

def readSignalRow (marketDate : Date) (row : Json) : Except Error AttentionDaySignal := do
  let reason ← row.getItem "unavailableReason"
  let isAttention ← truthItem row "isAttention"
  let membershipVersion ← textItem row "membershipVersion"
  let calculationVersion ← row.getText "calculationVersion"
  let baselineVersion ← row.getText "baselineVersion"
  let attentionPolicyVersion ← row.getText "attentionPolicyVersion"
  let turnoverMultiple ← decimalItem row "turnoverMultiple" "turnover_multiple"
  let highInterestCount ← countItem row "highInterestCount"
  let validCount ← countItem row "validCount"
  let highInterestRatio ← decimalItem row "highInterestRatio" "high_interest_ratio"
  let weightedReturn ← decimalItem row "weightedReturn" "weighted_return"
  let unavailableReason ← readReasonItem reason
  return {
    marketDate, isAttention, membershipVersion, calculationVersion, baselineVersion,
    attentionPolicyVersion, turnoverMultiple, highInterestCount, validCount, highInterestRatio,
    weightedReturn, unavailableReason }

/-- The observations of a minute on one day. -/
def loadTurnoverDay (files : HistoryFiles) (timeBucket : TimeOfDay) (marketDate : Date) :
    Except Error (List StockTradingValueObservation) := do
  match ← readFile files (bucketPath marketDate timeBucket) with
  | some (.arr rows) => rows.mapM (readTurnoverRow marketDate timeBucket)
  | _ => return []

/-- The observations of a minute on some days. -/
def loadTurnover (files : HistoryFiles) (timeBucket : TimeOfDay) (tradingDays : List Date) :
    Except Error (List StockTradingValueObservation) := do
  let parts ← tradingDays.mapM (loadTurnoverDay files timeBucket)
  return parts.flatten

/-- The memberships of one day. -/
def loadMembershipDay (files : HistoryFiles) (marketDate : Date) :
    Except Error (List ThemeMembershipSnapshot) := do
  match ← readFile files (membershipPath marketDate) with
  | some (.arr rows) => rows.mapM readMembershipRow
  | _ => return []

/-- The memberships of some days. -/
def loadMembership (files : HistoryFiles) (tradingDays : List Date) :
    Except Error (List ThemeMembershipSnapshot) := do
  let parts ← tradingDays.mapM (loadMembershipDay files)
  return parts.flatten

/-- The signals of one day by theme. -/
def loadAttentionDay (files : HistoryFiles) (marketDate : Date) :
    Except Error (List (String × AttentionDaySignal)) := do
  match ← readFile files (attentionPath marketDate) with
  | some (.obj rows) => rows.mapM fun e => do
    let signal ← readSignalRow marketDate e.2
    return (e.1, signal)
  | _ => return []

/-- The signals of every theme in the order of the days. -/
def loadAttention (files : HistoryFiles) (tradingDays : List Date) :
    Except Error (Dict String (List AttentionDaySignal)) := do
  let parts ← tradingDays.mapM (loadAttentionDay files)
  return (grouped Prod.fst parts.flatten).mapValues fun signals => signals.map Prod.snd

end Dayjaview.Pipeline
