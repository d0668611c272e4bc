import Dayjaview.Core.Grouping
import Dayjaview.Ontology.QueryPlans

/-!
# Answers to plans

What a repository of research data returns, and the block that an answer is made of.
Every block repeats how the plan was understood. Rows that the display limit cuts off
are declared as an exclusion.
-/

namespace Dayjaview.Ontology

/-- A stock in the report of a day. -/
structure DailyStock where
  stockName : String
  stockCode : Option String
  closePrice : Option Int
  changeRate : Option Decimal

/-- A theme in the report of a day. -/
structure DailyTheme where
  themeName : String
  changeRate : Option Decimal
  stocks : List DailyStock

/-- A section of the report of a day. -/
structure DailySection where
  sectionName : String
  headline : String
  details : List String
  themes : List DailyTheme

/-- Where the themes of a section or a history went. -/
inductive MoveDirection where
  | up
  | down
  | mixed
  | unknown
  deriving DecidableEq

/-- The written form of a direction. -/
def MoveDirection.text : MoveDirection → String
  | .up => "UP"
  | .down => "DOWN"
  | .mixed => "MIXED"
  | .unknown => "UNKNOWN"

/-- The direction of a section. -/
def DailySection.direction (s : DailySection) : MoveDirection :=
  let rates := s.themes.filterMap (·.changeRate)
  if rates.isEmpty then .unknown
  else if rates.all (· < .zero) then .down
  else if rates.all (.zero ≤ ·) then .up
  else .mixed

/-- Whether there is a report of a day. -/
inductive DailyStatus where
  | published
  | notPublished
  | noRecord
  deriving DecidableEq

/-- The report of a trading day. -/
structure DailyDay where
  tradingDate : Date
  status : DailyStatus
  sections : List DailySection
  unsplitPostCount : Nat

/-- A stock in the report of some day. -/
structure DailyStockRow where
  tradingDate : Date
  themeName : String
  sectionHeadline : String
  closePrice : Option Int
  changeRate : Option Decimal

/-- The rate of a theme on a day. -/
structure ThemeDailyChange where
  tradingDate : Date
  themeName : String
  changeRate : Option Decimal
  sectionHeadline : String

structure MembershipRow where
  sourceThemeId : String
  themeName : String
  stockCode : Option String
  stockName : String
  reason : Option String

/-- A record in the history of a theme. -/
structure ThemeHistoryRecord where
  themeName : String
  eventDate : Option Date
  rawText : String
  primaryCatalystType : Option String
  primaryCatalystNameKo : Option String
  direction : MoveDirection

/-- The part of a company in a catalyst. -/
structure CatalystCompanyRoleRow where
  seedStockCode : String
  companyName : String
  role : String

structure CatalystSummary where
  catalystId : String
  occurredOn : Option Date
  primaryCatalystNameKo : Option String
  eventStage : String
  certainty : String
  noveltyType : String
  action : Option String
  projectId : Option String
  geographyCodes : List String
  themeNames : List String
  companyRoles : List CatalystCompanyRoleRow
  sourceRecordCount : Nat
  themeReactionCount : Nat
  evidenceText : String
  evidenceStart : Nat
  evidenceEnd : Nat

structure ValueFact where
  catalystId : String
  occurredOn : Option Date
  factType : String
  reportedValue : String
  normalizedValue : Decimal
  unit : String
  currency : Option String
  valueBasis : String
  eligibleForSum : Bool
  themeName : String
  evidenceText : String

/-- The price of a stock after a catalyst. -/
structure OutcomeObservation where
  catalystId : String
  occurredOn : Date
  companyName : String
  baseTradingDate : Option Date
  baseClose : Option Decimal
  returns : Dict Int (Option Decimal)
  missingReason : Option String
  evidenceText : String
  themeName : Option String

/-- The return of an observation over a horizon. -/
def OutcomeObservation.returnAt (item : OutcomeObservation) (horizon : Int) : Option Decimal :=
  (item.returns.get? horizon).join

/-- Which catalysts are asked for. -/
structure CatalystFilter where
  dateFrom : Option Date := none
  dateTo : Option Date := none
  catalystType : Option String := none
  seedStockCode : Option String := none
  roles : List String := []
  sourceThemeId : Option String := none
  topicText : Option String := none

structure ResearchRepository where
  versions : Dict String String
  readyPrerequisites : List QueryPrerequisite
  dailyDay : Date → DailyDay
  dailyDays : Date → Date → List DailyDay
  stockDailyRows : String → Date → Date → List DailyStockRow
  themeDailyChanges : List String → Date → Date → List ThemeDailyChange
  themeMembers : String → List MembershipRow
  stockThemeMemberships : String → List MembershipRow
  themeHistory : String → Option Date → Option Date → List ThemeHistoryRecord
  catalysts : CatalystFilter → List CatalystSummary
  valueFacts : CatalystFilter → List ValueFact
  outcomes : CatalystFilter → List Int → List OutcomeObservation
  leaderOutcomes : CatalystFilter → List Int → List OutcomeObservation

/-- The order in which a set of companies is gone through. -/
class SetOrder where
  order : List (String × String) → List (String × String)
  perm : ∀ companies, (order companies).Perm companies.dedup

/-- A set in the order in which the companies came last. -/
@[reducible] def SetOrder.plain : SetOrder := ⟨List.dedup, fun _ => .refl _⟩

structure AnswerEvidence where
  sourceKind : String
  labelKo : String
  occurredOn : Option Date
  excerpt : String
  start : Option Nat := none
  finish : Option Nat := none

structure AnswerRow where
  label : String
  values : List (String × Json)
  evidence : List AnswerEvidence

structure AnswerMetric where
  labelKo : String
  value : String
  countUnit : Option CountUnit := none
  sampleSize : Option Nat := none
  noteKo : Option String := none

structure AnswerExclusion where
  code : String
  labelKo : String
  count : Int

structure AnswerBlock where
  queryType : QueryType
  countUnit : CountUnit
  interpretation : List (String × Json)
  summaryKo : String
  metrics : List AnswerMetric
  rows : List AnswerRow
  exclusions : List AnswerExclusion
  versions : Dict String String
  sampleSize : Nat
  humanVerified : Bool
  notesKo : List String

def AnswerBlock.covered (block : AnswerBlock) : Bool :=
  block.rows.all fun row => !row.evidence.isEmpty

/-- The result of a plan: an answer or a failure. -/
inductive AnswerResult where
  | answered (block : AnswerBlock)
  | failed (failure : PlanFailure)

/-- Which types of questions are open. -/
structure QueryAvailability where
  humanVerified : List QueryType
  outcomeGateOpen : Bool
  outcomeRangeFrom : Date
  serveUnverified : Bool

/-- A type of question is open. -/
def QueryAvailability.isOpen (availability : QueryAvailability) (queryType : QueryType) : Bool :=
  availability.serveUnverified || availability.humanVerified.contains queryType

def countUnitLabelKo : CountUnit → String
  | .dailySection => "Daily 섹션"
  | .dailyStockRow => "Daily 종목 행"
  | .currentThemeMembership => "현재 테마 구성"
  | .sourceRecord => "원천 기록"
  | .themeReaction => "테마 반응"
  | .catalyst => "고유 사건"
  | .valueFact => "금액 기록"
  | .outcomeObservation => "주가 관측"

/-- The version of the answers. -/
def answerContractVersion : String := "answer-contract/1.0.0"

/-- The first elements of a list; a negative number counts from the end. -/
def slice {α : Type} (limit : Int) (items : List α) : List α :=
  if 0 ≤ limit then items.take limit.toNat else items.take (items.length - (-limit).toNat)

/-- The first text that is not empty. -/
def orText (s t : String) : String := if s = "" then t else s

/-- The present text that is not empty, or another one. -/
def orElseText (s : Option String) (t : String) : String := orText (s.getD "") t

/-- What a slot holds that the contract of the plan asks for. -/
def asserted {α : Type} : Option α → Except Error α
  | some a => .ok a
  | none => .error ⟨.assertionError, ""⟩

def firstTheme (plan : QueryPlan) : Except Error ThemeRef :=
  match plan.themes with
  | theme :: _ => .ok theme
  | [] => .error ⟨.indexError, "tuple index out of range"⟩

/-- The middle one of some numbers. -/
def median (values : List Decimal) : Option Decimal :=
  (values.insertionSort (· ≤ ·))[values.length / 2]?

/-- A rate with two digits behind the point. -/
def rateText : Option Decimal → Except Error String
  | none => .ok "—"
  | some value => do
    let shown ← value.quantize .halfUp Decimal.defaultPrec (-2)
    let sign := if Decimal.zero ≤ shown then "+" else ""
    return sign ++ shown.fixedText ++ "%"

/-- What the display limit cuts off. -/
def displayLimitExclusions (total : Nat) (limit : Int) : List AnswerExclusion :=
  if (total : Int) ≤ limit then []
  else [⟨"DISPLAY_LIMIT", "화면 표시 한도로 생략", total - limit⟩]

/-- An exclusion that is declared if there is something to declare. -/
def declared (code labelKo : String) (count : Int) : List AnswerExclusion :=
  if count = 0 then [] else [⟨code, labelKo, count⟩]

/-- A rate goes the way that the plan asks for. -/
def matchesDirection (plan : QueryPlan) (rate : Option Decimal) : Bool :=
  match plan.direction, rate with
  | none, _ => true
  | some _, none => false
  | some .up, some rate => .zero ≤ rate
  | some .down, some rate => rate < .zero

/-- The word for the direction of a plan. -/
def directionLabel (plan : QueryPlan) : String :=
  match plan.direction with
  | some .up => "오른"
  | some .down => "빠진"
  | none => "움직인"

def interpretation (plan : QueryPlan) (extra : List (String × Json)) : List (String × Json) :=
  [("queryType", .str plan.queryType.text), ("countUnit", .str plan.countUnit.text),
    ("countUnitLabelKo", .str (countUnitLabelKo plan.countUnit)),
    ("direction", optionalText (plan.direction.map QueryDirection.text)),
    ("date", QueryPlan.optionalDict DateSlot.asDict plan.date),
    ("period", QueryPlan.optionalDict PeriodSlot.asDict plan.period),
    ("company", QueryPlan.optionalDict CompanyRef.asDict plan.company),
    ("themes", .arr (plan.themes.map ThemeRef.asDict)),
    ("catalystType", QueryPlan.optionalDict CatalystTypeRef.asDict plan.catalystType),
    ("amountCondition", QueryPlan.optionalDict AmountCondition.asDict plan.amountCondition),
    ("topic", optionalText plan.topic)] ++ extra

/-- The versions that an answer rests on. -/
def answerVersions (repository : ResearchRepository) (plan : QueryPlan) : Dict String String :=
  ((repository.versions.set "queryContract" plan.contractVersion).set "queryPlanner"
    plan.plannerVersion).set "answerContract" answerContractVersion

def periodLabel (plan : QueryPlan) : String :=
  match plan.period with
  | none => ""
  | some period => period.start.isoformat ++ "~" ++ period.finish.isoformat

def failPlan (plan : QueryPlan) (reason : FailureReason) (message : String) : AnswerResult :=
  .failed ⟨reason, message, plan.queryType⟩

/-- Nothing is recorded of what the plan asks for. -/
def noRecord (plan : QueryPlan) (message : String) : AnswerResult :=
  failPlan plan .noMatchingEvent message

def answerBlock (plan : QueryPlan) (repository : ResearchRepository)
    (availability : QueryAvailability) (extra : List (String × Json)) (summaryKo : String)
    (metrics : List AnswerMetric) (rows : List AnswerRow) (exclusions : List AnswerExclusion)
    (sampleSize : Nat) (notesKo : List String) : AnswerResult :=
  .answered
    { queryType := plan.queryType
      countUnit := plan.countUnit
      interpretation := interpretation plan extra
      summaryKo
      metrics
      rows
      exclusions
      versions := answerVersions repository plan
      sampleSize
      humanVerified := availability.humanVerified.contains plan.queryType
      notesKo }

/-- What has to be said about the report of a day. -/
def dailyNotes (day : DailyDay) : List String :=
  (if day.status = .notPublished then
    ["아직 그날 특징테마가 발행되지 않아 직전 거래일" ++
      s!"({day.tradingDate.isoformat}) 결과를 보여드립니다. " ++ "장중 실시간 값과 섞지 않았습니다."]
  else []) ++
  if 1 < day.unsplitPostCount then
    [s!"이 발행일에 게시물이 {day.unsplitPostCount}건인데 거래일로 가르지 " ++
      "못했습니다. 여러 거래일 내용이 섞였을 수 있습니다."]
  else []

def sectionEvidence (day : DailyDay) (s : DailySection) : List AnswerEvidence :=
  { sourceKind := "INFOSTOCK_DAILY_DESCRIPTION"
    labelKo := s!"{day.tradingDate.isoformat} 특징테마 · {s.sectionName}"
    occurredOn := some day.tradingDate
    excerpt := orText s.headline s.sectionName } ::
  (s.details.take 2).map fun detail =>
    { sourceKind := "INFOSTOCK_DAILY_DESCRIPTION"
      labelKo := s!"{day.tradingDate.isoformat} 상세 문단"
      occurredOn := some day.tradingDate
      excerpt := detail }

/-- The date of a catalyst in words. -/
def dateLabel (d : Option Date) : String := (d.map Date.isoformat).getD "날짜 없음"

/-- The evidence of a catalyst. -/
def catalystEvidence (item : CatalystSummary) : List AnswerEvidence :=
  if item.evidenceText = "" then []
  else
    let theme := item.themeNames.head?.getD "테마 미상"
    [{ sourceKind := "ONTOLOGY_CATALYST"
       labelKo := dateLabel item.occurredOn ++ " · " ++ theme
       occurredOn := item.occurredOn
       excerpt := takeText 200 item.evidenceText
       start := some item.evidenceStart
       finish := some item.evidenceEnd }]

/-- How good the classification of catalysts is. -/
def classificationNote : String :=
  "소재 종류는 기계가 자동으로 분류했고, 검수 표본에서 10건 중 " ++ "약 8건이 맞았습니다(77.8%)."

/-- The counted entries, the most frequent ones first. -/
def mostFrequent (counter : Dict String Nat) : List (String × Nat) :=
  ranked (fun e => toLex (-(e.2 : Int), e.1)) counter.entries

/-- How often each text occurs. -/
def counterOf (texts : List String) : Dict String Nat := tallyOf (texts.map fun text => (text, 1))

/-- A value that the unit of the plan goes with. -/
def countValues (plan : QueryPlan) (name : String) (count : Nat) : List (String × Json) :=
  [(name, .int count), ("countUnit", .str plan.countUnit.text)]

end Dayjaview.Ontology
