import Dayjaview.Core.Calendar
import Dayjaview.Core.DecimalFormat
import Dayjaview.Core.Dict
import Dayjaview.Core.Json

/-!
# The contracts of the questions

Every type of question names the slots it needs, the unit its answer counts in, and
the data it rests on. A plan whose slots fill none of the alternatives is refused.
-/

namespace Dayjaview.Ontology

inductive QueryType where
  | dayMovers
  | periodSummary
  | stockDayReason
  | stockTopMoves
  | stockThemeMembership
  | stockCooccurrence
  | themeMembers
  | themeHistory
  | themeComparison
  | themeFrequency
  | catalystThemeReaction
  | catalystFrequency
  | catalystCertainty
  | catalystContinuation
  | companyDirectEvent
  | companyValueSummary
  | companyHistoricalOutcome
  deriving DecidableEq

/-- The written form of a type. -/
def QueryType.text : QueryType → String
  | .dayMovers => "DAY_MOVERS"
  | .periodSummary => "PERIOD_SUMMARY"
  | .stockDayReason => "STOCK_DAY_REASON"
  | .stockTopMoves => "STOCK_TOP_MOVES"
  | .stockThemeMembership => "STOCK_THEME_MEMBERSHIP"
  | .stockCooccurrence => "STOCK_COOCCURRENCE"
  | .themeMembers => "THEME_MEMBERS"
  | .themeHistory => "THEME_HISTORY"
  | .themeComparison => "THEME_COMPARISON"
  | .themeFrequency => "THEME_FREQUENCY"
  | .catalystThemeReaction => "CATALYST_THEME_REACTION"
  | .catalystFrequency => "CATALYST_FREQUENCY"
  | .catalystCertainty => "CATALYST_CERTAINTY"
  | .catalystContinuation => "CATALYST_CONTINUATION"
  | .companyDirectEvent => "COMPANY_DIRECT_EVENT"
  | .companyValueSummary => "COMPANY_VALUE_SUMMARY"
  | .companyHistoricalOutcome => "COMPANY_HISTORICAL_OUTCOME"

inductive QuerySlot where
  | date
  | dateRange
  | stock
  | theme
  | themes
  | period
  | catalystType
  | event
  | company
  | amountCondition
  | topic
  deriving DecidableEq

/-- The written form of a slot. -/
def QuerySlot.text : QuerySlot → String
  | .date => "date"
  | .dateRange => "dateRange"
  | .stock => "stock"
  | .theme => "theme"
  | .themes => "themes"
  | .period => "period"
  | .catalystType => "catalystType"
  | .event => "event"
  | .company => "company"
  | .amountCondition => "amountCondition"
  | .topic => "topic"

inductive CountUnit where
  | dailySection
  | dailyStockRow
  | currentThemeMembership
  | sourceRecord
  | themeReaction
  | catalyst
  | valueFact
  | outcomeObservation
  deriving DecidableEq

/-- The written form of a unit. -/
def CountUnit.text : CountUnit → String
  | .dailySection => "DAILY_SECTION"
  | .dailyStockRow => "DAILY_STOCK_ROW"
  | .currentThemeMembership => "CURRENT_THEME_MEMBERSHIP"
  | .sourceRecord => "SOURCE_RECORD"
  | .themeReaction => "THEME_REACTION"
  | .catalyst => "CATALYST"
  | .valueFact => "VALUE_FACT"
  | .outcomeObservation => "OUTCOME_OBSERVATION"

/-- What the data of a question rests on. -/
inductive QueryPrerequisite where
  | none
  | e17LabelsDb
  | e22Stage1
  | e22Stage2
  | e22Stage3
  | e22Stage4
  | e22Stage6
  deriving DecidableEq

/-- The written form of a prerequisite. -/
def QueryPrerequisite.text : QueryPrerequisite → String
  | .none => "NONE"
  | .e17LabelsDb => "E17_LABELS_DB"
  | .e22Stage1 => "E22_STAGE_1"
  | .e22Stage2 => "E22_STAGE_2"
  | .e22Stage3 => "E22_STAGE_3"
  | .e22Stage4 => "E22_STAGE_4"
  | .e22Stage6 => "E22_STAGE_6"

inductive SlotValue where
  | text (s : String)
  | texts (ss : List String)

def SlotValue.isFilled : SlotValue → Bool
  | .text s => s != ""
  | .texts ss => ss != []

/-- The contract of a type of question. -/
structure QueryContract where
  queryType : QueryType
  requiredAlternatives : List (List QuerySlot)
  countUnit : CountUnit
  prerequisites : List QueryPrerequisite
  bundle : Nat
  supportsDirection : Bool

/-- One of the alternatives is filled. -/
def QueryContract.accepts (contract : QueryContract) (slots : List (QuerySlot × SlotValue)) :
    Bool :=
  let supplied := (slots.filter fun e => e.2.isFilled).map Prod.fst
  contract.requiredAlternatives.any fun alternative => alternative.all supplied.contains

def queryContract : QueryType → QueryContract
  | .dayMovers => ⟨.dayMovers, [[.date]], .dailySection, [.e22Stage1], 1, true⟩
  | .periodSummary => ⟨.periodSummary, [[.dateRange]], .dailySection, [.e22Stage1], 2, true⟩
  | .stockDayReason =>
    ⟨.stockDayReason, [[.stock, .date]], .dailySection, [.e22Stage1, .e22Stage2], 1, true⟩
  | .stockTopMoves =>
    ⟨.stockTopMoves, [[.stock, .period]], .dailyStockRow, [.e22Stage1, .e22Stage2], 2, true⟩
  | .stockThemeMembership =>
    ⟨.stockThemeMembership, [[.stock]], .currentThemeMembership, [.e22Stage2], 1, true⟩
  | .stockCooccurrence =>
    ⟨.stockCooccurrence, [[.stock, .period]], .catalyst, [.e22Stage4], 3, true⟩
  | .themeMembers => ⟨.themeMembers, [[.theme]], .currentThemeMembership, [.none], 2, true⟩
  | .themeHistory => ⟨.themeHistory, [[.theme]], .sourceRecord, [.e17LabelsDb], 2, true⟩
  | .themeComparison =>
    ⟨.themeComparison, [[.themes, .period]], .dailySection, [.e22Stage1], 3, true⟩
  | .themeFrequency => ⟨.themeFrequency, [[.period]], .catalyst, [.e22Stage4], 3, true⟩
  | .catalystThemeReaction =>
    ⟨.catalystThemeReaction, [[.catalystType]], .themeReaction, [.e17LabelsDb], 3, true⟩
  | .catalystFrequency =>
    ⟨.catalystFrequency, [[.catalystType, .period]], .catalyst, [.e22Stage4], 3, true⟩
  | .catalystCertainty =>
    ⟨.catalystCertainty, [[.catalystType], [.event]], .catalyst, [.e22Stage4], 3, true⟩
  | .catalystContinuation =>
    ⟨.catalystContinuation, [[.catalystType], [.theme]], .catalyst, [.e22Stage4], 3, true⟩
  | .companyDirectEvent => ⟨.companyDirectEvent, [[.company]], .catalyst, [.e22Stage3], 3, true⟩
  | .companyValueSummary =>
    ⟨.companyValueSummary, [[.company, .amountCondition], [.catalystType, .amountCondition]],
      .valueFact, [.e22Stage4], 3, true⟩
  | .companyHistoricalOutcome =>
    ⟨.companyHistoricalOutcome,
      [[.company, .period], [.event, .period], [.catalystType, .period], [.theme, .period]],
      .outcomeObservation, [.e22Stage6], 3, true⟩

/-- The types in the order of their contracts. -/
def queryTypes : List QueryType :=
  [.dayMovers, .periodSummary, .stockDayReason, .stockTopMoves, .stockThemeMembership,
    .stockCooccurrence, .themeMembers, .themeHistory, .themeComparison, .themeFrequency,
    .catalystThemeReaction, .catalystFrequency, .catalystCertainty, .catalystContinuation,
    .companyDirectEvent, .companyValueSummary, .companyHistoricalOutcome]

def QueryContract.asDict (contract : QueryContract) : Json :=
  .obj
    [("queryType", .str contract.queryType.text),
      ("requiredAlternatives", .arr (contract.requiredAlternatives.map fun alternative =>
        .arr (alternative.map fun slot => .str slot.text))),
      ("countUnit", .str contract.countUnit.text),
      ("prerequisites", .arr (contract.prerequisites.map fun item => .str item.text)),
      ("bundle", .int contract.bundle),
      ("supportsDirection", .bool contract.supportsDirection)]

/-- The version of the contracts. -/
def queryContractVersion : String := "query-contract/1.1.0"

def queryContractContentHash [Sha256] : String :=
  jsonDigest (.obj
    [("version", .str queryContractVersion),
      ("queries", .arr (queryTypes.map fun queryType => (queryContract queryType).asDict))])

inductive QueryDirection where
  | up
  | down
  deriving DecidableEq

/-- The written form of a direction. -/
def QueryDirection.text : QueryDirection → String
  | .up => "UP"
  | .down => "DOWN"

/-- A day or a period that depends on the present one. -/
inductive RelativeExpression where
  | today
  | yesterday
  | dayBeforeYesterday
  | previousTradingDay
  | lastMonday
  | lastTuesday
  | lastWednesday
  | lastThursday
  | lastFriday
  | thisWeek
  | lastWeek
  | thisMonth
  | lastMonth
  | thisYear
  | lastYear
  | last7Days
  | last3Months
  | last12Months
  | recent
  | allTime
  deriving DecidableEq

/-- The written form of an expression. -/
def RelativeExpression.text : RelativeExpression → String
  | .today => "TODAY"
  | .yesterday => "YESTERDAY"
  | .dayBeforeYesterday => "DAY_BEFORE_YESTERDAY"
  | .previousTradingDay => "PREVIOUS_TRADING_DAY"
  | .lastMonday => "LAST_MONDAY"
  | .lastTuesday => "LAST_TUESDAY"
  | .lastWednesday => "LAST_WEDNESDAY"
  | .lastThursday => "LAST_THURSDAY"
  | .lastFriday => "LAST_FRIDAY"
  | .thisWeek => "THIS_WEEK"
  | .lastWeek => "LAST_WEEK"
  | .thisMonth => "THIS_MONTH"
  | .lastMonth => "LAST_MONTH"
  | .thisYear => "THIS_YEAR"
  | .lastYear => "LAST_YEAR"
  | .last7Days => "LAST_7_DAYS"
  | .last3Months => "LAST_3_MONTHS"
  | .last12Months => "LAST_12_MONTHS"
  | .recent => "RECENT"
  | .allTime => "ALL_TIME"

/-- What a company was recognised by. -/
inductive CompanyBasis where
  | stockCode
  | currentName
  | pastAlias
  deriving DecidableEq

/-- The written form of a basis. -/
def CompanyBasis.text : CompanyBasis → String
  | .stockCode => "STOCK_CODE"
  | .currentName => "CURRENT_NAME"
  | .pastAlias => "PAST_ALIAS"

def optionalText : Option String → Json
  | none => .null
  | some s => .str s

def optionalDate (d : Option Date) : Json := optionalText (d.map Date.isoformat)

/-- A day, and the expression it comes from. -/
structure DateSlot where
  value : Date
  literal : String
  expression : Option RelativeExpression

def DateSlot.asDict (slot : DateSlot) : Json :=
  .obj [("value", .str slot.value.isoformat), ("literal", .str slot.literal),
    ("expression", optionalText (slot.expression.map RelativeExpression.text))]

/-- A period that does not end before it starts. -/
structure PeriodSlot where
  start : Date
  finish : Date
  literal : String
  expression : Option RelativeExpression
  valid : start ≤ finish

def PeriodSlot.asDict (slot : PeriodSlot) : Json :=
  .obj [("from", .str slot.start.isoformat), ("to", .str slot.finish.isoformat),
    ("literal", .str slot.literal),
    ("expression", optionalText (slot.expression.map RelativeExpression.text))]

structure CompanyRef where
  seedStockCode : String
  canonicalName : String
  matchedText : String
  basis : CompanyBasis

def CompanyRef.asDict (ref : CompanyRef) : Json :=
  .obj [("seedStockCode", .str ref.seedStockCode), ("canonicalName", .str ref.canonicalName),
    ("matchedText", .str ref.matchedText), ("basis", .str ref.basis.text)]

structure ThemeRef where
  sourceThemeId : String
  themeName : String
  matchedText : String

def ThemeRef.asDict (ref : ThemeRef) : Json :=
  .obj [("sourceThemeId", .str ref.sourceThemeId), ("themeName", .str ref.themeName),
    ("matchedText", .str ref.matchedText)]

/-- A type of catalyst that was found. -/
structure CatalystTypeRef where
  typeId : String
  nameKo : String
  matchedText : String

def CatalystTypeRef.asDict (ref : CatalystTypeRef) : Json :=
  .obj [("typeId", .str ref.typeId), ("nameKo", .str ref.nameKo),
    ("matchedText", .str ref.matchedText)]

inductive Comparator where
  | gte
  | gt
  | lte
  | lt
  deriving DecidableEq

/-- The written form of a comparator. -/
def Comparator.text : Comparator → String
  | .gte => "GTE"
  | .gt => "GT"
  | .lte => "LTE"
  | .lt => "LT"

structure AmountCondition where
  comparator : Comparator
  normalizedValue : Decimal
  currency : String
  literal : String

/-- An amount fulfils the condition. -/
def AmountCondition.matches (condition : AmountCondition) (value : Decimal) : Bool :=
  match condition.comparator with
  | .gte => condition.normalizedValue ≤ value
  | .gt => condition.normalizedValue < value
  | .lte => value ≤ condition.normalizedValue
  | .lt => value < condition.normalizedValue

def AmountCondition.asDict (condition : AmountCondition) : Json :=
  .obj [("comparator", .str condition.comparator.text),
    ("normalizedValue", .str condition.normalizedValue.fixedText),
    ("currency", .str condition.currency), ("literal", .str condition.literal)]

structure QueryPlan.Fields where
  queryType : QueryType
  countUnit : CountUnit
  direction : Option QueryDirection
  date : Option DateSlot
  period : Option PeriodSlot
  company : Option CompanyRef
  themes : List ThemeRef
  catalystType : Option CatalystTypeRef
  amountCondition : Option AmountCondition
  topic : Option String
  outcomeHorizon : Option Int
  plannerVersion : String
  contractVersion : String

namespace QueryPlan.Fields

/-- The slot that holds the period. -/
def periodSlotKey (plan : QueryPlan.Fields) : QuerySlot :=
  if plan.queryType = .periodSummary then .dateRange else .period

def slotMapping (plan : QueryPlan.Fields) : List (QuerySlot × SlotValue) :=
  List.flatten
    [plan.date.toList.map fun slot => (.date, .text slot.value.isoformat),
      plan.period.toList.map fun slot =>
        (plan.periodSlotKey, .text (slot.start.isoformat ++ "~" ++ slot.finish.isoformat)),
      plan.company.toList.flatMap fun ref =>
        [(.company, .text ref.seedStockCode), (.stock, .text ref.seedStockCode)],
      plan.themes.head?.toList.map fun ref => (.theme, .text ref.sourceThemeId),
      if 2 ≤ plan.themes.length then [(.themes, .texts (plan.themes.map (·.sourceThemeId)))] else
          [],
      plan.catalystType.toList.flatMap fun ref =>
        [(.catalystType, .text ref.typeId), (.event, .text ref.typeId)],
      plan.amountCondition.toList.map fun condition => (.amountCondition, .text condition.literal),
      plan.topic.toList.map fun topic => (.topic, .text topic)]

/-- The checks of the constructor. -/
def postInit (plan : QueryPlan.Fields) : Except Error Unit := do
  let contract := queryContract plan.queryType
  ensure (plan.countUnit = contract.countUnit) "QueryPlan의 집계 단위가 계약과 다릅니다."
  ensure (contract.accepts plan.slotMapping = true)
    (plan.queryType.text ++ " 필수 슬롯이 없습니다: " ++ " 또는 ".intercalate
      (contract.requiredAlternatives.map fun alternative =>
        "+".intercalate (alternative.map QuerySlot.text)))

end QueryPlan.Fields

structure QueryPlan extends QueryPlan.Fields where
  valid : toFields.postInit = .ok ()

namespace QueryPlan

/-- A slot as a record, or nothing. -/
def optionalDict {α : Type} (asDict : α → Json) : Option α → Json
  | none => .null
  | some a => asDict a

def asDict [Sha256] (plan : QueryPlan) : Json :=
  .obj
    [("queryType", .str plan.queryType.text), ("countUnit", .str plan.countUnit.text),
      ("direction", optionalText (plan.direction.map QueryDirection.text)),
      ("date", optionalDict DateSlot.asDict plan.date),
      ("period", optionalDict PeriodSlot.asDict plan.period),
      ("company", optionalDict CompanyRef.asDict plan.company),
      ("themes", .arr (plan.themes.map ThemeRef.asDict)),
      ("catalystType", optionalDict CatalystTypeRef.asDict plan.catalystType),
      ("amountCondition", optionalDict AmountCondition.asDict plan.amountCondition),
      ("outcomeHorizon", optionalDict Json.int plan.outcomeHorizon),
      ("plannerVersion", .str plan.plannerVersion), ("contractVersion", .str plan.contractVersion),
      ("contractHash", .str queryContractContentHash)]

/-- The key under which an answer to the plan may be kept. -/
def cacheKey [Sha256] (plan : QueryPlan) (datasetVersions : Dict String String) : String :=
  jsonDigest (.obj [("plan", plan.asDict),
    ("datasetVersions", .obj (datasetVersions.sortedEntries.map fun e => (e.1, .str e.2)))])

end QueryPlan

/-- Why a question is not answered. -/
inductive FailureReason where
  | outOfScope
  | notInterpretable
  | unknownCompany
  | ambiguousAlias
  | unknownTheme
  | unknownCatalystType
  | missingSlot
  | noMatchingEvent
  | insufficientEvidence
  | notPublished
  | unsupportedQueryType
  | outcomeGateClosed
  | similarityGateClosed
  | qualityNotVerified
  | prerequisiteNotReady
  deriving DecidableEq

/-- A question that is not answered. -/
structure PlanFailure where
  reason : FailureReason
  messageKo : String
  queryType : QueryType

end Dayjaview.Ontology
