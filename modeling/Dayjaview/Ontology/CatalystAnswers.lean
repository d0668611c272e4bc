import Dayjaview.Ontology.Answers

/-!
# Answers from the catalysts

The handlers of the questions about catalysts, companies and amounts, and about prices
after a catalyst. Rows without evidence are left out of the answers that count catalysts.
-/

namespace Dayjaview.Ontology

/-- The numbers of source records, of reactions and of catalysts. -/
def catalystCounts (items : List CatalystSummary) : Nat × Nat × Nat :=
  ((items.map (·.sourceRecordCount)).sum, (items.map (·.themeReactionCount)).sum, items.length)

/-- The metrics of some catalysts. -/
def catalystMetrics (items : List CatalystSummary) : List AnswerMetric :=
  let (sourceRecords, reactions, unique) := catalystCounts items
  [{ labelKo := "고유 사건", value := s!"{unique}", countUnit := some .catalyst
     sampleSize := some unique },
    { labelKo := "원천 기록", value := s!"{sourceRecords}", countUnit := some .sourceRecord },
    { labelKo := "테마 반응", value := s!"{reactions}", countUnit := some .themeReaction }]

/-- The themes of some catalysts, each with what a catalyst counts for it. -/
def themeWeights (weight : CatalystSummary → Nat) (items : List CatalystSummary) :
    List (String × Nat) :=
  items.flatMap fun item => item.themeNames.eraseDups.map fun name => (name, weight item)

/-- The evidence of the themes of some catalysts. -/
def themeEvidence (items : List CatalystSummary) : Dict String (List AnswerEvidence) :=
  bucketsOf 3 (items.flatMap fun item =>
    item.themeNames.eraseDups.map fun name => (name, catalystEvidence item))

/-- The rows of some counted groups, without those that have no evidence. -/
def evidencedRows (plan : QueryPlan) (name : String) (evidence : Dict String (List AnswerEvidence))
    (groups : List (String × Nat)) : List AnswerRow :=
  groups.filterMap fun e =>
    match (evidence.get? e.1).getD [] with
    | [] => none
    | found => some ⟨e.1, countValues plan name e.2, found⟩

/-- Which themes were moved most often in a period. -/
def answerThemeFrequency (plan : QueryPlan) (repository : ResearchRepository)
    (availability : QueryAvailability) (limit : Int) : Except Error AnswerResult := do
  let period ← asserted plan.period
  let items := repository.catalysts { dateFrom := some period.start, dateTo := some period.finish }
  let label := periodLabel plan
  if items = [] then return noRecord plan s!"{label} 구간에 고유 사건 기록이 없습니다."
  let ordered := mostFrequent (tallyOf (themeWeights (fun _ => 1) items))
  let rows := evidencedRows plan "catalystCount" (themeEvidence items) (slice limit ordered)
  match rows, ordered with
  | _ :: _, first :: _ =>
    return answerBlock plan repository availability []
      (s!"{label} 구간에서 가장 자주 나온 테마는 " ++ s!"{first.1}({first.2}건)입니다.")
      (catalystMetrics items) rows (displayLimitExclusions ordered.length limit) items.length []
  | _, _ => return noRecord plan "근거를 붙일 수 있는 테마 사건이 없습니다."

/-- The catalysts that a plan about a type of catalyst asks for. -/
def catalystFilterOf (plan : QueryPlan) (catalystType : Option String) : CatalystFilter where
  catalystType
  dateFrom := plan.period.map (·.start)
  dateTo := plan.period.map (·.finish)
  sourceThemeId := plan.themes.head?.map (·.sourceThemeId)
  topicText := plan.topic

/-- The topic in front of a message. -/
def topicScope (plan : QueryPlan) : String :=
  match plan.topic with
  | none => ""
  | some topic => if topic = "" then "" else topic ++ " "

/-- What a catalyst counts for each of its themes. -/
def reactionWeight (item : CatalystSummary) : Nat :=
  if item.themeReactionCount = 0 then 1 else item.themeReactionCount

/-- Which themes a type of catalyst moved. -/
def answerCatalystThemeReaction (plan : QueryPlan) (repository : ResearchRepository)
    (availability : QueryAvailability) (limit : Int) : Except Error AnswerResult := do
  let catalystType ← asserted plan.catalystType
  let items := repository.catalysts (catalystFilterOf plan (some catalystType.typeId))
  let scope := topicScope plan
  let name := catalystType.nameKo
  if items = [] then return noRecord plan s!"{scope}{name} 소재로 분류된 사건이 없습니다."
  let counter := tallyOf (themeWeights reactionWeight items)
  let ordered := mostFrequent counter
  let rows := evidencedRows plan "reactionCount" (themeEvidence items) (slice limit ordered)
  match rows, ordered with
  | _ :: _, first :: _ =>
    return answerBlock plan repository availability []
      (s!"{name} 소재에 반응한 테마는 {ordered.length}개이고 " ++
        s!"가장 많이 반응한 곳은 {first.1}입니다.")
      [{ labelKo := "테마 반응", value := s!"{totalOf counter}", countUnit := some plan.countUnit
         sampleSize := some items.length },
        { labelKo := "고유 사건", value := s!"{items.length}", countUnit := some .catalyst }]
      rows (displayLimitExclusions ordered.length limit) items.length [classificationNote]
  | _, _ => return noRecord plan "근거를 붙일 수 있는 테마 반응이 없습니다."

def yearOf (item : CatalystSummary) : String :=
  match item.occurredOn with
  | some day => s!"{day.year}"
  | none => "날짜 없음"

/-- The evidence of some catalysts by a key. -/
def evidenceBy (key : CatalystSummary → String) (items : List CatalystSummary) :
    Dict String (List AnswerEvidence) :=
  bucketsOf 3 (items.map fun item => (key item, catalystEvidence item))

/-- How often a type of catalyst occurred. -/
def answerCatalystFrequency (plan : QueryPlan) (repository : ResearchRepository)
    (availability : QueryAvailability) (_limit : Int) : Except Error AnswerResult := do
  let catalystType ← asserted plan.catalystType
  let _ ← asserted plan.period
  let items := repository.catalysts (catalystFilterOf plan (some catalystType.typeId))
  let label := periodLabel plan
  let name := catalystType.nameKo
  if items = [] then
    return noRecord plan (s!"{label} 구간에 {name} 소재 사건이 " ++ "없습니다.")
  let (sourceRecords, _, unique) := catalystCounts items
  let byYear := (counterOf (items.map yearOf)).sortedEntries
  let rows := evidencedRows plan "catalystCount" (evidenceBy yearOf items) byYear
  if rows = [] then return noRecord plan "근거를 붙일 수 있는 사건이 없습니다."
  return answerBlock plan repository availability []
    (s!"{label} 구간에 {name} 소재는 " ++ s!"고유 사건 {unique}건입니다(원천 기록 {sourceRecords}건).")
    (catalystMetrics items) rows [] unique []

/-- The counted kinds, the most frequent ones first and otherwise as they came. -/
def byFrequency (counter : Dict String Nat) : List (String × Nat) :=
  ranked (fun e => -(e.2 : Int)) counter.entries

def certaintyLabel (certainty : String) : String :=
  if certainty = "CONFIRMED" then "확정"
  else if certainty = "ANTICIPATION" then "기대·전망"
  else if certainty = "UNSPECIFIED" then "표지 없음"
  else certainty

/-- How certain the catalysts of a type are. -/
def answerCatalystCertainty (plan : QueryPlan) (repository : ResearchRepository)
    (availability : QueryAvailability) (_limit : Int) : Except Error AnswerResult := do
  let catalystType ← asserted plan.catalystType
  let items := repository.catalysts (catalystFilterOf plan (some catalystType.typeId))
  let scope := topicScope plan
  let name := catalystType.nameKo
  if items = [] then return noRecord plan s!"{scope}{name} 소재로 분류된 사건이 없습니다."
  let counter := counterOf (items.map (·.certainty))
  let evidence := evidenceBy (·.certainty) items
  let rows := (byFrequency counter).filterMap fun e =>
    match (evidence.get? e.1).getD [] with
    | [] => none
    | found => some (⟨certaintyLabel e.1,
        [("catalystCount", .int e.2), ("share", .str (shareText e.2 items.length)),
          ("countUnit", .str plan.countUnit.text)], found⟩ : AnswerRow)
  if rows = [] then return noRecord plan "근거를 붙일 수 있는 사건이 없습니다."
  let confirmed := (counter.get? "CONFIRMED").getD 0
  let anticipated := (counter.get? "ANTICIPATION").getD 0
  return answerBlock plan repository availability []
    (s!"{name} 소재 고유 사건 {items.length}건 중 확정은 " ++
      s!"{confirmed}건, 기대·전망은 " ++ s!"{anticipated}건입니다.")
    [{ labelKo := "고유 사건", value := s!"{items.length}", countUnit := some plan.countUnit
       sampleSize := some items.length }]
    rows [] items.length
    ["확정·기대 구분은 기계가 자동으로 판단했고, 검수 표본에서 10건 중 " ++ "9건이 맞았습니다(90.0%)."]

/-- The word for a kind of novelty. -/
def noveltyLabel (novelty : String) : String :=
  if novelty = "NEW" then "처음 나온 소재"
  else if novelty = "RECURRING" then "다시 나온 소재"
  else if novelty = "CONTINUATION" then "이어지는 소재"
  else if novelty = "UNSPECIFIED" then "표지 없음"
  else novelty

/-- Whether a catalyst goes on. -/
def answerCatalystContinuation (plan : QueryPlan) (repository : ResearchRepository)
    (availability : QueryAvailability) (_limit : Int) : Except Error AnswerResult := do
  let items := repository.catalysts (catalystFilterOf plan (plan.catalystType.map (·.typeId)))
  if items = [] then return noRecord plan "해당 소재·테마의 사건 기록이 없습니다."
  let counter := counterOf (items.map (·.noveltyType))
  let evidence := evidenceBy (·.noveltyType) items
  let rows := (byFrequency counter).filterMap fun e =>
    match (evidence.get? e.1).getD [] with
    | [] => none
    | found => some (⟨noveltyLabel e.1, countValues plan "catalystCount" e.2, found⟩ : AnswerRow)
  if rows = [] then return noRecord plan "근거를 붙일 수 있는 사건이 없습니다."
  let dated := items.filterMap (·.occurredOn)
  let repeated := ((counter.entries.filter (·.1 ≠ "NEW")).map Prod.snd).sum
  return answerBlock plan repository availability []
    (s!"고유 사건 {items.length}건 중 재부각·반복은 " ++ s!"{repeated}건입니다.")
    [{ labelKo := "고유 사건", value := s!"{items.length}", countUnit := some plan.countUnit
       sampleSize := some items.length },
      { labelKo := "첫 기록", value := dateLabel dated.min? },
      { labelKo := "마지막 기록", value := dateLabel dated.max? }]
    rows [] items.length []

variable [SetOrder] (plan : QueryPlan) (repository : ResearchRepository)
  (availability : QueryAvailability) (limit : Int)

/-- The other companies of a catalyst. -/
def peersOf (code : String) (item : CatalystSummary) : List (String × String) :=
  SetOrder.order ((item.companyRoles.filter (·.seedStockCode ≠ code)).map fun role =>
    (role.seedStockCode, role.companyName))

/-- Which companies occur together with a stock. -/
def answerStockCooccurrence : Except Error AnswerResult := do
  let company ← asserted plan.company
  let period ← asserted plan.period
  let items := repository.catalysts { seedStockCode := some company.seedStockCode
                                      dateFrom := some period.start, dateTo := some period.finish }
  let name := company.canonicalName
  let label := periodLabel plan
  if items = [] then
    return noRecord plan (s!"{name}의 {label} 구간 고유 사건이 " ++ "없습니다.")
  let peers := peersOf company.seedStockCode
  let counter := tallyOf (items.flatMap fun item => (peers item).map fun peer => (peer, 1))
  let evidence := bucketsOf 3 (items.flatMap fun item =>
    (peers item).map fun peer => (peer, catalystEvidence item))
  if counter.entries = [] then return noRecord plan s!"{name}과 같은 사건에 등장한 회사가 없습니다."
  let ordered := ranked (fun e : (String × String) × Nat => toLex (-(e.2 : Int), e.1.1))
    counter.entries
  let rows := (slice limit ordered).filterMap fun e =>
    match (evidence.get? e.1).getD [] with
    | [] => none
    | found => some (⟨e.1.2, [("stockCode", .str e.1.1), ("sharedCatalystCount", .int e.2),
        ("countUnit", .str plan.countUnit.text)], found⟩ : AnswerRow)
  if rows = [] then return noRecord plan "근거를 붙일 수 있는 동반 종목이 없습니다."
  return answerBlock plan repository availability []
    (s!"{name}과 같은 고유 사건에 함께 등장한 회사는 " ++ s!"{ordered.length}곳입니다.")
    [{ labelKo := "공동 등장 사건", value := s!"{items.length}", countUnit := some plan.countUnit
       sampleSize := some items.length }]
    rows (displayLimitExclusions ordered.length limit) items.length
    ["같은 사건에 함께 나왔다는 뜻이며 주가가 같이 움직였다는 뜻이 아닙니다."]

omit [SetOrder]

/-- The roles in which a company takes part in a catalyst itself. -/
def directRoles : List String := ["ACTOR", "ISSUER", "CONTRACTOR", "TARGET"]

def directEventRow (code : String) (item : CatalystSummary) : AnswerRow :=
  let roles := (item.companyRoles.filter fun role =>
    role.seedStockCode = code && directRoles.contains role.role).map (·.role)
  { label := dateLabel item.occurredOn ++ " · " ++
      orElseText item.action (orElseText item.primaryCatalystNameKo "사건")
    values := [("catalystId", .str item.catalystId), ("eventStage", .str item.eventStage),
      ("certainty", .str item.certainty), ("roles", .arr ((textSet roles).map Json.str)),
      ("themeNames", .arr ((item.themeNames.take 4).map Json.str)),
      ("themeNameTotal", .int item.themeNames.length),
      ("geographyCodes", .arr (item.geographyCodes.map Json.str)),
      ("projectId", optionalText item.projectId),
      ("sourceRecordCount", .int item.sourceRecordCount)]
    evidence := catalystEvidence item }

/-- Which catalysts a company takes part in itself. -/
def answerCompanyDirectEvent : Except Error AnswerResult := do
  let company ← asserted plan.company
  let base : CatalystFilter :=
    { seedStockCode := some company.seedStockCode, dateFrom := plan.period.map (·.start)
      dateTo := plan.period.map (·.finish) }
  let every := repository.catalysts base
  let direct := repository.catalysts { base with roles := directRoles }
  let name := company.canonicalName
  if direct = [] then
    return noRecord plan (s!"{name}이 직접 주체인 사건 기록이 없습니다. " ++
      s!"이름이 등장한 고유 사건은 {every.length}건입니다.")
  let leaderOnly : Int := every.length - direct.length
  let (sourceRecords, reactions, unique) := catalystCounts direct
  return answerBlock plan repository availability [("roles", .arr (directRoles.map Json.str))]
    (s!"{name}이 직접 주체인 고유 사건은 {unique}건입니다" ++
      s!"(이름이 등장한 고유 사건 {every.length}건 중).")
    [{ labelKo := "직접 사건", value := s!"{unique}", countUnit := some .catalyst
       sampleSize := some every.length },
      { labelKo := "원천 기록", value := s!"{sourceRecords}", countUnit := some .sourceRecord },
      { labelKo := "테마 반응", value := s!"{reactions}", countUnit := some .themeReaction }]
    ((slice limit direct).map (directEventRow company.seedStockCode))
    ((if 0 < leaderOnly then
        [⟨"LEADER_OR_RELATED_ONLY", "주도주·관련주로만 등장해 직접 사건이 아닌 기록", leaderOnly⟩]
      else []) ++ displayLimitExclusions direct.length limit)
    every.length []

/-- The facts that a plan asks for. -/
def selectedFacts (plan : QueryPlan) (facts : List ValueFact) : List ValueFact :=
  let eligible := facts.filter (·.eligibleForSum)
  match plan.amountCondition with
  | none => eligible
  | some condition =>
    if .zero < condition.normalizedValue then
      eligible.filter fun fact => condition.matches fact.normalizedValue
    else eligible

/-- A number with the other sign, which rounds it. A zero loses its sign. -/
def negated (amount : Decimal) : Except Error Decimal :=
  Decimal.finish .halfEven Decimal.defaultPrec
    (if amount.coefficient = 0 then { amount with negative := false } else amount.neg)

/-- A fact with its amount negated. -/
def negatedFact (fact : ValueFact) : Except Error (Decimal × ValueFact) := do
  let amount ← negated fact.normalizedValue
  return (amount, fact)

/-- A catalyst before another one, and a larger amount before a smaller one. -/
def catalystFirst (a b : Decimal × ValueFact) : Bool :=
  a.2.catalystId < b.2.catalystId || (a.2.catalystId = b.2.catalystId && a.1 ≤ b.1)

/-- A larger amount before a smaller one, and otherwise a catalyst before another one. -/
def amountFirst (a b : Decimal × ValueFact) : Bool :=
  a.1 < b.1 || (!(b.1 < a.1) && a.2.catalystId ≤ b.2.catalystId)

/-- One fact of each catalyst, the largest amounts first. -/
def uniqueFacts (selected : List ValueFact) : Except Error (List ValueFact) := do
  let keyed ← selected.mapM negatedFact
  let byCatalyst := (keyed.insertionSort (catalystFirst · ·)).foldl
    (fun found e => if (found.get? e.2.catalystId).isSome then
      found else found.set e.2.catalystId e)
    (Dict.empty : Dict String (Decimal × ValueFact))
  return (byCatalyst.values.insertionSort (amountFirst · ·)).map Prod.snd

def factRow (fact : ValueFact) : AnswerRow :=
  let label := dateLabel fact.occurredOn ++ " · " ++ fact.themeName
  { label
    values := [("catalystId", .str fact.catalystId), ("factType", .str fact.factType),
      ("reportedValue", .str fact.reportedValue),
      ("normalizedValue", .str fact.normalizedValue.fixedText), ("unit", .str fact.unit),
      ("currency", optionalText fact.currency), ("valueBasis", .str fact.valueBasis)]
    evidence := [{ sourceKind := "ONTOLOGY_CATALYST_VALUE", labelKo := label
                   occurredOn := fact.occurredOn, excerpt := takeText 200 fact.evidenceText }] }

/-- The facts that are asked for by a plan. -/
def valueFilterOf (plan : QueryPlan) : CatalystFilter where
  seedStockCode := plan.company.map (·.seedStockCode)
  catalystType := plan.catalystType.map (·.typeId)
  dateFrom := plan.period.map (·.start)
  dateTo := plan.period.map (·.finish)

/-- What the amounts in some catalysts add up to. -/
def answerCompanyValueSummary : Except Error AnswerResult := do
  let facts := repository.valueFacts (valueFilterOf plan)
  if facts = [] then return noRecord plan "금액이 원문에 적힌 사건 기록이 없습니다."
  let dropped := facts.length - (facts.filter (·.eligibleForSum)).length
  let selected := selectedFacts plan facts
  if selected = [] then return noRecord plan "금액 조건에 맞는 사건이 없습니다."
  let unique ← uniqueFacts selected
  let total ← Decimal.sum Decimal.defaultPrec (unique.map (·.normalizedValue))
  return answerBlock plan repository availability []
    (s!"조건에 맞는 고유 사건은 {unique.length}건이고 합계는 " ++ s!"{total.fixedText}원입니다.")
    [{ labelKo := "해당 사건", value := s!"{unique.length}", countUnit := some plan.countUnit
       sampleSize := some facts.length },
      { labelKo := "금액 합계", value := total.fixedText, countUnit := some .valueFact
        noteKo := some "원 단위. 합산 가능한 fact만 더했습니다." }]
    ((slice limit unique).map factRow)
    (declared "VALUE_NOT_SUMMABLE" "범위·최대값·총사업비라 합계에서 뺀 금액" dropped ++
      declared "DUPLICATE_VALUE_FACT" "같은 고유 사건의 중복 금액" (selected.length - unique.length) ++
      displayLimitExclusions unique.length limit)
    facts.length ["회사 몫이 명시되지 않은 총사업비는 합계에 넣지 않았습니다."]

/-- The horizons that are always shown. -/
def defaultOutcomeHorizons : List Int := [1, 5, 20]

/-- The horizon that the answer speaks of. -/
def headlineHorizon (plan : QueryPlan) : Int :=
  match plan.outcomeHorizon with
  | none => 5
  | some horizon => if horizon = 0 then 5 else horizon

def outcomeHorizons (plan : QueryPlan) : List Int :=
  (headlineHorizon plan :: defaultOutcomeHorizons).dedup.insertionSort (· ≤ ·)

/-- The observations by catalyst and day, the latest day first. -/
def outcomeEvents (observations : List OutcomeObservation) :
    List ((String × Date) × List OutcomeObservation) :=
  let grouped := observations.foldl
    (fun grouped item =>
      let key := (item.catalystId, item.occurredOn)
      grouped.set key ((grouped.get? key).getD [] ++ [item]))
    (Dict.empty : Dict (String × Date) (List OutcomeObservation))
  ranked (fun e => toLex (-(e.1.2.toOrdinal : Int), e.1.1)) grouped.entries

/-- The return of a stock over a horizon. -/
def horizonReturn (item : OutcomeObservation) (horizon : Int) : Except Error (String × Json) := do
  match item.returnAt horizon with
  | none => return (s!"T+{horizon}", Json.null)
  | some value =>
    let rate ← rateText (some value)
    return (s!"T+{horizon}", Json.str rate)

/-- A stock with its returns as a record. -/
def leaderValues (horizons : List Int) (item : OutcomeObservation) : Except Error Json := do
  let returns ← horizons.mapM (horizonReturn item)
  return .obj [("companyName", .str item.companyName), ("themeName", optionalText item.themeName),
    ("baseTradingDate", optionalDate item.baseTradingDate),
    ("baseClose", optionalText (item.baseClose.map Decimal.fixedText)), ("returns", .obj returns),
    ("missingReason", optionalText item.missingReason)]

def outcomeRow (horizons : List Int) (headline : Int)
    (e : (String × Date) × List OutcomeObservation) : Except Error AnswerRow := do
  let ((catalystId, occurredOn), members) := e
  let values := members.filterMap (·.returnAt headline)
  let middle ← rateText (median values)
  let leaders ← members.mapM (leaderValues horizons)
  let themes := textSet ((members.filterMap (·.themeName)).filter (· ≠ ""))
  return {
    label := occurredOn.isoformat
    values := [("catalystId", .str catalystId), ("eventDate", .str occurredOn.isoformat),
      ("leaderCount", .int members.length), ("themeNames", .arr (themes.map Json.str)),
      ("horizon", .int headline), ("upCount", .int (values.filter (Decimal.zero < ·)).length),
      ("medianReturn", .str middle), ("leaders", .arr leaders)]
    evidence := [{ sourceKind := "ONTOLOGY_CATALYST", labelKo := occurredOn.isoformat
                   occurredOn := some occurredOn
                   excerpt := takeText 200 ((members.head?.map (·.evidenceText)).getD "") }] }

def horizonMetric (observed : List OutcomeObservation) (horizon : Int) :
    Except Error AnswerMetric := do
  let values := observed.filterMap (·.returnAt horizon)
  let value ← match median values with
    | some middle => rateText (some middle)
    | none => .ok "아직 그날이 안 왔습니다"
  return { labelKo := s!"{horizon}거래일 뒤 중앙값", value, countUnit := some .outcomeObservation
           sampleSize := some values.length }

/-- The outcomes that are asked for by a plan. -/
def outcomeFilterOf (plan : QueryPlan) (start finish : Date) : CatalystFilter where
  seedStockCode := plan.company.map (·.seedStockCode)
  catalystType := plan.catalystType.map (·.typeId)
  sourceThemeId := plan.themes.head?.map (·.sourceThemeId)
  topicText := plan.topic
  dateFrom := some start
  dateTo := some finish

/-- The first sentence of an answer about prices. -/
def openingText (headline : Int) : Option Decimal → Except Error String
  | some middle => do
    let rate ← rateText (some middle)
    return s!"{headline}거래일 뒤 중앙값 {rate}입니다."
  | none => .ok s!"{headline}거래일 뒤 주가가 아직 나오지 않았습니다."

/-- How prices went after some catalysts. -/
def answerCompanyHistoricalOutcome : Except Error AnswerResult := do
  let period ← asserted plan.period
  let rangeFrom := availability.outcomeRangeFrom
  let effectiveStart := max period.start rangeFrom
  if period.finish < effectiveStart then
    return failPlan plan .outcomeGateClosed
      (s!"{rangeFrom.isoformat} 이전 사건의 실제 결과는 " ++ "가격 자료가 없어 답할 수 없습니다.")
  let outcomeFilter := outcomeFilterOf plan effectiveStart period.finish
  let headline := headlineHorizon plan
  let horizons := outcomeHorizons plan
  let observations := if plan.company.isNone then repository.leaderOutcomes outcomeFilter horizons
    else repository.outcomes outcomeFilter horizons
  if observations = [] then return noRecord plan "그 구간에 실제 결과를 붙일 사건이 없습니다."
  let observed := observations.filter (·.baseClose.isSome)
  let events := outcomeEvents observations
  let rows ← (slice limit events).mapM (outcomeRow horizons headline)
  let horizonMetrics ← horizons.mapM (horizonMetric observed)
  let samples := observed.filterMap (·.returnAt headline)
  let up := (samples.filter (Decimal.zero < ·)).length
  let axis := if plan.company.isNone then "주도주" else "종목"
  let opening ← openingText headline (median samples)
  let closing := if samples = [] then "."
    else s!" · {axis} {samples.length}곳 중 " ++ s!"{up}곳 상승."
  return answerBlock plan repository availability
    [("outcomeRangeFrom", .str rangeFrom.isoformat), ("horizons", .arr (horizons.map Json.int)),
      ("headlineHorizon", .int headline)]
    (opening ++ s!" 사건 {events.length}건" ++ closing)
    ({ labelKo := "사건", value := s!"{events.length}건", countUnit := some plan.countUnit
       sampleSize := some events.length } ::
      { labelKo := axis, value := s!"{observed.length}곳", countUnit := some .outcomeObservation
        noteKo := if observed.length = observations.length then none
          else some "주가를 못 찾은 곳은 0으로 바꾸지 않고 뺐습니다." } :: horizonMetrics)
    rows
    ((if period.start < rangeFrom then
        [⟨"OUT_OF_PRICE_RANGE", s!"{rangeFrom.isoformat} 이전이라 가격 자료가 없는 구간", 1⟩]
      else []) ++
      declared "PRICE_MISSING" "가격을 찾지 못한 사건" (observations.length - observed.length) ++
      displayLimitExclusions observations.length limit)
    observations.length
    ("과거 실제 결과이며 앞으로의 수익률이 아닙니다." ::
      if plan.company.isNone then
        ["사건 당시 주도주 목록 기준입니다 — 현재 테마 구성과 다를 수 있습니다."]
      else [])

end Dayjaview.Ontology
