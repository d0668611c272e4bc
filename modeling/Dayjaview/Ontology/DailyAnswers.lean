import Dayjaview.Ontology.Answers

/-!
# Answers from the daily reports and the themes

The handlers of the questions about days, stocks and themes. A handler reads what its
plan asks for and makes a block of it, or says why there is nothing to answer.
-/

namespace Dayjaview.Ontology

/-- The themes of a section that go the way of the plan. -/
def keptThemes (plan : QueryPlan) (s : DailySection) : List DailyTheme :=
  s.themes.filter fun theme => theme.changeRate.isSome && matchesDirection plan theme.changeRate

def themeValues (theme : DailyTheme) : Except Error Json := do
  let stocks ← (theme.stocks.take 8).mapM fun stock => do
    let rate ← rateText stock.changeRate
    return Json.obj
      [("stockName", .str stock.stockName), ("stockCode", optionalText stock.stockCode),
      ("closePrice", QueryPlan.optionalDict Json.int stock.closePrice), ("changeRate", .str rate)]
  let rate ← rateText theme.changeRate
  return .obj [("themeName", .str theme.themeName), ("changeRate", .str rate),
    ("stocks", .arr stocks), ("stockTotal", .int theme.stocks.length)]

def sectionRow (plan : QueryPlan) (day : DailyDay) (s : DailySection) : Except Error AnswerRow := do
  let kept := keptThemes plan s
  let themes ← (kept.take 6).mapM themeValues
  return {
    label := orText s.headline s.sectionName
    values := [("sectionName", .str s.sectionName), ("direction", .str s.direction.text),
      ("themes", .arr themes), ("themeTotal", .int kept.length)]
    evidence := sectionEvidence day s }

/-- The sections with a theme that goes the way of the plan. -/
def keptSections (plan : QueryPlan) (day : DailyDay) : List DailySection :=
  day.sections.filter fun s => !(keptThemes plan s).isEmpty

variable (plan : QueryPlan) (repository : ResearchRepository) (availability : QueryAvailability)
  (limit : Int)

/-- Which themes moved on a day. -/
def answerDayMovers : Except Error AnswerResult := do
  let date ← asserted plan.date
  let day := repository.dailyDay date.value
  if day.status = .noRecord ∨ day.sections = [] then
    return noRecord plan s!"{date.value.isoformat} 특징테마 기록이 없습니다."
  let themes := day.sections.flatMap (·.themes)
  let rateless := (themes.filter (·.changeRate.isNone)).length
  let matched := (day.sections.flatMap (keptThemes plan)).length
  let mismatched := themes.length - rateless - matched
  let rows ← (keptSections plan day).mapM (sectionRow plan day)
  let trading := day.tradingDate.isoformat
  let label := directionLabel plan
  if rows = [] then return noRecord plan s!"{trading}에 {label} 테마가 없습니다."
  return answerBlock plan repository availability [("tradingDate", .str trading)]
    s!"{trading}에 {label} 테마는 {matched}개입니다."
    [{ labelKo := s!"{label} 테마"
       value := s!"{matched}"
       sampleSize := if themes.length ≠ matched then some themes.length else none }]
    (slice limit rows)
    (declared "DIRECTION_MISMATCH" "질문한 방향과 반대인 테마" mismatched ++
      declared "UNKNOWN_CHANGE_RATE" "등락률이 없어 방향을 알 수 없는 테마" rateless ++
      displayLimitExclusions rows.length limit)
    day.sections.length (dailyNotes day)

/-- A section that the direction of the plan leaves out. -/
def excludesSection (plan : QueryPlan) (s : DailySection) : Bool :=
  match plan.direction with
  | none => false
  | some .up => s.direction != .up && s.direction != .mixed
  | some .down => s.direction != .down && s.direction != .mixed

/-- The themes of a period with the evidence of their sections. -/
def periodThemes (plan : QueryPlan) (published : List DailyDay) :
    List (String × List AnswerEvidence) :=
  published.flatMap fun day =>
    (day.sections.filter fun s => !excludesSection plan s).flatMap fun s =>
      (s.themes.filter fun theme => matchesDirection plan theme.changeRate).map fun theme =>
        (theme.themeName,
          [{ sourceKind := "INFOSTOCK_DAILY_DESCRIPTION"
             labelKo := s!"{day.tradingDate.isoformat} · {s.sectionName}"
             occurredOn := some day.tradingDate
             excerpt := orText s.headline s.sectionName }])

/-- Which themes moved in a period. -/
def answerPeriodSummary : Except Error AnswerResult := do
  let period ← asserted plan.period
  let days := repository.dailyDays period.start period.finish
  let published := days.filter fun day => day.status = .published && !day.sections.isEmpty
  let label := periodLabel plan
  let direction := directionLabel plan
  if published = [] then return noRecord plan s!"{label} 구간에 발행된 특징테마가 없습니다."
  let sections := published.flatMap (·.sections)
  let excluded := (sections.filter (excludesSection plan)).length
  let themes := periodThemes plan published
  let counter := counterOf (themes.map Prod.fst)
  let evidence := bucketsOf 3 themes
  if themes = [] then return noRecord plan s!"{label} 구간에 {direction} 테마 기록이 없습니다."
  let ordered := mostFrequent counter
  return answerBlock plan repository availability
    [("tradingDays", .arr (published.map fun day => .str day.tradingDate.isoformat))]
    (s!"{label} 거래일 {published.length}일 동안 " ++
      s!"{direction} 테마는 {counter.entries.length}개입니다.")
    [{ labelKo := "거래일 수", value := s!"{published.length}", sampleSize := some days.length },
      { labelKo := s!"{direction} 테마", value := s!"{counter.entries.length}"
        countUnit := some plan.countUnit, sampleSize := some sections.length }]
    ((slice limit ordered).map fun e =>
      ⟨e.1, countValues plan "appearanceCount" e.2, (evidence.get? e.1).getD []⟩)
    (declared "DIRECTION_MISMATCH" "질문한 방향과 반대인 섹션" excluded ++
      displayLimitExclusions ordered.length limit)
    sections.length ((published.flatMap dailyNotes).take 3)

/-- The row of a stock in the report of a day. -/
def stockDayRow (day : DailyDay) (s : DailySection) (theme : DailyTheme) (stock : DailyStock) :
    Except Error (String × AnswerRow) := do
  let rate ← rateText stock.changeRate
  let themeRate ← rateText theme.changeRate
  return (rate,
    { label := s!"{s.sectionName} · {theme.themeName}"
      values := [("themeName", .str theme.themeName), ("sectionHeadline", .str s.headline),
        ("closePrice", QueryPlan.optionalDict Json.int stock.closePrice), ("changeRate", .str rate),
        ("themeChangeRate", .str themeRate), ("details", .arr ((s.details.take 3).map Json.str)),
        ("detailTotal", .int s.details.length)]
      evidence := sectionEvidence day s })

/-- Why a stock moved on a day. -/
def answerStockDayReason : Except Error AnswerResult := do
  let date ← asserted plan.date
  let company ← asserted plan.company
  let day := repository.dailyDay date.value
  if day.status = .noRecord ∨ day.sections = [] then
    return noRecord plan s!"{date.value.isoformat} 특징테마 기록이 없습니다."
  let name := company.canonicalName
  let found := day.sections.flatMap fun s => s.themes.flatMap fun theme =>
    (theme.stocks.filter fun stock =>
      stock.stockCode == some company.seedStockCode || stock.stockName == name).map
        fun stock => (s, theme, stock)
  let rows ← found.mapM fun e => stockDayRow day e.1 e.2.1 e.2.2
  let trading := day.tradingDate.isoformat
  if rows = [] then return noRecord plan s!"{trading} 특징테마에 {name} 기록이 없습니다."
  let observed := (rows.map Prod.fst).filter (· ≠ "—")
  let rate := observed.head?.getD "기록 없음"
  return answerBlock plan repository availability [("tradingDate", .str trading)]
    (s!"{name}은 {trading} 특징테마 {rows.length}개 섹션에 " ++
      s!"등장했고 그날 등락률은 {rate}입니다.")
    [{ labelKo := "등장 섹션", value := s!"{rows.length}", countUnit := some plan.countUnit
       sampleSize := some day.sections.length }]
    (slice limit (rows.map Prod.snd)) (displayLimitExclusions rows.length limit)
    day.sections.length (dailyNotes day)

/-- The rate of a row, and its day. -/
def moveLe (a b : DailyStockRow) : Bool :=
  let rate := fun (row : DailyStockRow) => row.changeRate.getD .zero
  rate a < rate b || (!(rate b < rate a) && a.tradingDate ≤ b.tradingDate)

/-- The row of a stock on a day. -/
def stockMoveRow (row : DailyStockRow) : Except Error AnswerRow := do
  let rate ← rateText row.changeRate
  return {
    label := row.tradingDate.isoformat
    values := [("themeName", .str row.themeName), ("changeRate", .str rate),
      ("closePrice", QueryPlan.optionalDict Json.int row.closePrice),
      ("sectionHeadline", .str row.sectionHeadline)]
    evidence := [{ sourceKind := "INFOSTOCK_DAILY_THEME_STOCK"
                   labelKo := s!"{row.tradingDate.isoformat} · {row.themeName}"
                   occurredOn := some row.tradingDate
                   excerpt := orText row.sectionHeadline row.themeName }] }

/-- On which days a stock moved most. -/
def answerStockTopMoves : Except Error AnswerResult := do
  let company ← asserted plan.company
  let period ← asserted plan.period
  let found := repository.stockDailyRows company.seedStockCode period.start period.finish
  let usable := found.filter (·.changeRate.isSome)
  let missing := found.length - usable.length
  let selected := usable.filter fun row => matchesDirection plan row.changeRate
  let name := company.canonicalName
  let label := periodLabel plan
  let direction := directionLabel plan
  if selected = [] then
    return noRecord plan (s!"{name}의 {label} 구간에 " ++ s!"{direction} 기록이 없습니다.")
  let ordered := if plan.direction = some .down then selected.insertionSort (moveLe · ·)
    else selected.insertionSort fun a b => moveLe b a
  let rows ← (slice limit ordered).mapM stockMoveRow
  return answerBlock plan repository availability []
    (s!"{name}은 {label} 구간에 " ++ s!"{selected.length}일 {direction} 기록이 있습니다.")
    [{ labelKo := s!"{direction} 행", value := s!"{selected.length}"
       countUnit := some plan.countUnit, sampleSize := some found.length }]
    rows
    (declared "RATE_MISSING" "등락률이 원문에 없는 행" missing ++
      displayLimitExclusions ordered.length limit)
    found.length []

/-- The memberships with a reason. -/
def described (memberships : List MembershipRow) : List MembershipRow :=
  memberships.filter fun item => item.reason.getD "" ≠ ""

def answerStockThemeMembership : Except Error AnswerResult := do
  let company ← asserted plan.company
  let memberships := repository.stockThemeMemberships company.seedStockCode
  let name := company.canonicalName
  if memberships = [] then return noRecord plan s!"{name}이 속한 테마 기록이 없습니다."
  let total := memberships.length
  return answerBlock plan repository availability []
    (s!"{name}은 현재 테마 {total}개에 " ++ "구성 종목으로 들어 있습니다.")
    [{ labelKo := "편입 테마", value := s!"{total}", countUnit := some plan.countUnit
       sampleSize := some total }]
    ((slice limit memberships).map fun item =>
      { label := item.themeName
        values := [("sourceThemeId", .str item.sourceThemeId), ("reason", optionalText item.reason)]
        evidence := [{ sourceKind := "INFOSTOCK_THEME_MEMBERSHIP"
                       labelKo := s!"{item.themeName} 구성 종목"
                       occurredOn := none
                       excerpt := orElseText item.reason item.themeName }] })
    (declared "REASON_MISSING" "편입 사유가 원문에 없는 테마"
        (total - (described memberships).length) ++ displayLimitExclusions total limit)
    total []

def answerThemeMembers : Except Error AnswerResult := do
  let theme ← firstTheme plan
  let members := repository.themeMembers theme.sourceThemeId
  let name := theme.themeName
  if members = [] then return noRecord plan s!"{name} 테마의 구성 종목 기록이 없습니다."
  let total := members.length
  return answerBlock plan repository availability []
    s!"{name} 테마의 구성 종목은 {total}개입니다."
    [{ labelKo := "구성 종목", value := s!"{total}", countUnit := some plan.countUnit
       sampleSize := some total }]
    ((slice limit members).map fun item =>
      { label := item.stockName
        values := [("stockCode", optionalText item.stockCode), ("reason", optionalText item.reason)]
        evidence := [{ sourceKind := "INFOSTOCK_THEME_MEMBERSHIP"
                       labelKo := s!"{name} 구성 종목"
                       occurredOn := none
                       excerpt := orElseText item.reason item.stockName }] })
    (declared "REASON_MISSING" "편입 사유가 원문에 없는 종목" (total - (described members).length) ++
      displayLimitExclusions total limit)
    total []

/-- The name under which a record is counted. -/
def recordKind (item : ThemeHistoryRecord) : String :=
  orElseText item.primaryCatalystNameKo (orElseText item.primaryCatalystType "미분류")

def recordEvidence (item : ThemeHistoryRecord) : List AnswerEvidence :=
  [{ sourceKind := "INFOSTOCK_THEME_HISTORY"
     labelKo := dateLabel item.eventDate ++ s!" · {item.themeName}"
     occurredOn := item.eventDate
     excerpt := takeText 160 item.rawText }]

def answerThemeHistory : Except Error AnswerResult := do
  let theme ← firstTheme plan
  let found := repository.themeHistory theme.sourceThemeId (plan.period.map (·.start))
    (plan.period.map (·.finish))
  let records := match plan.direction with
    | none => found
    | some .up => found.filter (·.direction = .up)
    | some .down => found.filter (·.direction = .down)
  let name := theme.themeName
  if records = [] then return noRecord plan s!"{name} 테마의 과거 사유 기록이 없습니다."
  let counter := counterOf (records.map recordKind)
  let evidence := bucketsOf 3 (records.map fun item => (recordKind item, recordEvidence item))
  let ordered := mostFrequent counter
  return answerBlock plan repository availability []
    (s!"{name} 테마는 원천 기록 {records.length}건에서 " ++
      s!"소재 {counter.entries.length}종으로 움직였습니다.")
    [{ labelKo := "원천 기록", value := s!"{records.length}", countUnit := some plan.countUnit
       sampleSize := some records.length }]
    ((slice limit ordered).map fun e =>
      ⟨e.1, countValues plan "recordCount" e.2, (evidence.get? e.1).getD []⟩)
    (displayLimitExclusions ordered.length limit) records.length [classificationNote]

/-- The element that no later one is better than. -/
def firstBest {α : Type} (better : α → α → Bool) : List α → Option α
  | [] => none
  | a :: as => some (as.foldl (fun current a => if better a current then a else current) a)

/-- What is compared of a theme. -/
structure ThemeComparison where
  total : Decimal
  observedDays : Nat
  row : AnswerRow

/-- The rates of a theme in a period, if there are any. -/
def themeComparison (plan : QueryPlan) (usable : List ThemeDailyChange) (name : String) :
    Except Error (Option ThemeComparison) := do
  let items := usable.filter (·.themeName = name)
  let rate := fun (item : ThemeDailyChange) => item.changeRate.getD .zero
  match firstBest (fun a b => rate b < rate a) items, firstBest (fun a b => rate a < rate b) items,
      median (items.filterMap (·.changeRate)) with
  | some best, some worst, some middle =>
    let rates := (items.filterMap (·.changeRate)).insertionSort (· ≤ ·)
    let total ← Decimal.sum Decimal.defaultPrec rates
    let bestRate ← rateText best.changeRate
    let worstRate ← rateText worst.changeRate
    let pick := if plan.direction = some .down then worst else best
    return some
      { total
        observedDays := items.length
        row :=
          { label := name
            values := [("observedDays", .int items.length), ("sumChangeRate", .str total.fixedText),
              ("medianChangeRate", .str middle.fixedText),
              ("bestDate", .str best.tradingDate.isoformat), ("bestChangeRate", .str bestRate),
              ("worstDate", .str worst.tradingDate.isoformat), ("worstChangeRate", .str worstRate)]
            evidence := [{ sourceKind := "INFOSTOCK_DAILY_DESCRIPTION"
                           labelKo := s!"{pick.tradingDate.isoformat} · {name}"
                           occurredOn := some pick.tradingDate
                           excerpt := orText pick.sectionHeadline name }] } }
  | _, _, _ => return none

/-- Which of some themes did better. -/
def answerThemeComparison (plan : QueryPlan) (repository : ResearchRepository)
    (availability : QueryAvailability) (_limit : Int) : Except Error AnswerResult := do
  let period ← asserted plan.period
  let names := plan.themes.map (·.themeName)
  let changes := repository.themeDailyChanges names period.start period.finish
  let usable := changes.filter (·.changeRate.isSome)
  let label := periodLabel plan
  if usable = [] then return noRecord plan s!"{label} 구간에 두 테마의 등락률 기록이 없습니다."
  let found ← names.mapM (themeComparison plan usable)
  let compared := found.filterMap id
  let better := fun (a b : ThemeComparison) =>
    if plan.direction = some .down then a.total < b.total else b.total < a.total
  match compared, firstBest (fun a b => decide (better a b)) compared with
  | _ :: _ :: _, some winner =>
    let verb := if plan.direction = some .down then "더 빠진" else "더 오른"
    return answerBlock plan repository availability []
      (s!"{label} 구간 관측일 기준으로 " ++ s!"{verb} 쪽은 " ++ s!"{winner.row.label}입니다.")
      (compared.map fun item =>
        { labelKo := s!"{item.row.label} 등락률 합", value := item.total.fixedText
          countUnit := some plan.countUnit, sampleSize := some item.observedDays })
      (compared.map (·.row))
      (declared "RATE_MISSING" "등락률이 원문에 없는 행" (changes.length - usable.length))
      usable.length ["두 테마가 같은 날 모두 등장하지 않을 수 있어 관측일 수를 함께 표시합니다."]
  | _, _ =>
    return noRecord plan s!"{label} 구간에 비교할 두 테마의 기록이 모두 있지는 않습니다."

end Dayjaview.Ontology
