import Dayjaview.Ontology.GroupCounts

/-!
# What the answers about days count

Four answers state how many themes, days or sections there are. Each counts entries, and an entry
may repeat a name or a name may have no entry that counts. An answer states the right number exactly
when the one makes up for the other.
-/

namespace Dayjaview.Ontology

section Entries

variable {α β γ : Type} [DecidableEq β] (name : α → β) (counts : α → Bool)

/-- How many entries repeat a name. -/
def repeats (xs : List α) : Nat := xs.length - (xs.map name).dedup.length

/-- The names that no entry has that counts. -/
def uncounted (xs : List α) : List β :=
  (xs.map name).dedup.filter fun b => b ∉ (xs.filter counts).map name

/-- The names of the entries that count and the other names are all names. -/
theorem length_dedup_split (xs : List α) : (xs.map name).dedup.length =
    ((xs.filter counts).map name).dedup.length + (uncounted name counts xs).length := by
  have hcounted : ((xs.map name).dedup.filter fun b => b ∈ (xs.filter counts).map name).Perm
      ((xs.filter counts).map name).dedup := by
    rw [List.perm_ext_iff_of_nodup ((List.nodup_dedup _).filter _) (List.nodup_dedup _)]
    intro b
    rw [List.mem_filter, List.mem_dedup, List.mem_dedup, decide_eq_true_eq, and_iff_right_iff_imp]
    exact fun hb => (List.filter_sublist.map name).subset hb
  rw [← hcounted.length_eq, uncounted, ← List.length_append]
  refine (List.Perm.length_eq ?_).symm
  simpa only [decide_not] using List.filter_append_perm
    (fun b => decide (b ∈ (xs.filter counts).map name)) (xs.map name).dedup

/-- There are as many entries that count as names exactly if the repeated ones make up for the names
that no entry has that counts. -/
theorem length_counted_iff (xs : List α) : (xs.filter counts).length = (xs.map name).dedup.length ↔
    repeats name (xs.filter counts) = (uncounted name counts xs).length := by
  have hsplit := length_dedup_split name counts xs
  have hle := (List.dedup_sublist ((xs.filter counts).map name)).length_le
  rw [List.length_map] at hle
  unfold repeats
  omega

/-- Fewer names are as many only if they are all names. -/
theorem length_dedup_eq_iff {as bs : List β} (hsub : as ⊆ bs) :
    as.dedup.length = bs.dedup.length ↔ ∀ b ∈ bs, b ∈ as := by
  rw [← List.card_toFinset, ← List.card_toFinset]
  have hfinset : as.toFinset ⊆ bs.toFinset :=
    fun b hb => List.mem_toFinset.mpr (hsub (List.mem_toFinset.mp hb))
  constructor
  · intro hcard b hb
    rw [← List.mem_toFinset, Finset.eq_of_subset_of_card_le hfinset hcard.ge]
    exact List.mem_toFinset.mpr hb
  · intro hall
    exact congrArg _
      (hfinset.antisymm fun b hb => List.mem_toFinset.mpr (hall b (List.mem_toFinset.mp hb)))

/-- There are as many entries as parts with entries exactly if no part has two. -/
theorem length_flatMap_iff (entries : α → List γ) (xs : List α) :
    (xs.flatMap entries).length = (xs.filter fun x => !(entries x).isEmpty).length ↔
      ∀ x ∈ xs, (entries x).length ≤ 1 := by
  have hle : ∀ xs : List α, (xs.filter fun x => !(entries x).isEmpty).length ≤
      (xs.flatMap entries).length := by
    intro xs
    induction xs with
    | nil => exact le_rfl
    | cons x xs ih =>
      rw [List.flatMap_cons, List.length_append, List.filter_cons]
      cases entries x with
      | nil => simpa using ih
      | cons e es => simp only [List.isEmpty_cons, Bool.not_false, if_true, List.length_cons]; omega
  induction xs with
  | nil => exact ⟨fun _ _ hx => absurd hx List.not_mem_nil, fun _ => rfl⟩
  | cons x xs ih =>
    have hrest := hle xs
    rw [List.forall_mem_cons]
    refine Iff.trans ?_ (and_congr_right fun _ => ih)
    rw [List.flatMap_cons, List.length_append, List.filter_cons]
    cases entries x with
    | nil => simp
    | cons e es =>
      simp only [List.isEmpty_cons, Bool.not_false, if_true, List.length_cons]
      omega

end Entries

variable {plan : QueryPlan} {repository : ResearchRepository} {availability : QueryAvailability}
  {limit : Int} {result : AnswerResult} {date : DateSlot} {period : PeriodSlot}
  {company : CompanyRef} {n : Nat}

/-- The number that an answer states at some place; an answer that finds nothing states none. -/
def AnswerResult.States (result : AnswerResult) (place n : Nat) : Prop :=
  match result with
  | .answered block => (block.metrics[place]?).map (·.value) = some n.repr
  | .failed _ => n = 0

/-- How many days an answer says that a company moved on in a period. -/
def daysText (plan : QueryPlan) (company : CompanyRef) (n : Nat) : String :=
  s!"{company.canonicalName}은 {periodLabel plan} 구간에 " ++
    s!"{n}일 {directionLabel plan} 기록이 있습니다."

theorem daysText_inj {m : Nat} : daysText plan company m = daysText plan company n ↔ m = n := by
  rw [daysText, daysText, String.append_right_inj]
  simp only [String.append_left_inj]
  exact repr_inj

/-- The number of days that an answer states; an answer that finds nothing states none. -/
def AnswerResult.StatesDays (result : AnswerResult) (plan : QueryPlan) (company : CompanyRef)
    (n : Nat) : Prop :=
  match result with
  | .answered block => block.summaryKo = daysText plan company n
  | .failed _ => n = 0

/-- The themes of some sections that go the way of a plan. -/
def matchingThemes (plan : QueryPlan) (sections : List DailySection) : List DailyTheme :=
  (sections.flatMap (·.themes)).filter fun theme => matchesDirection plan theme.changeRate

/-- The entries of a company in a section. -/
def stockEntries (company : CompanyRef) (s : DailySection) :
    List (DailySection × DailyTheme × DailyStock) :=
  s.themes.flatMap fun theme => (theme.stocks.filter fun stock =>
    stock.stockCode == some company.seedStockCode || stock.stockName == company.canonicalName).map
      fun stock => (s, theme, stock)

/-- The rows of a company in a period that go the way of a plan. -/
def matchingRows (plan : QueryPlan) (repository : ResearchRepository) (company : CompanyRef)
    (period : PeriodSlot) : List DailyStockRow :=
  (repository.stockDailyRows company.seedStockCode period.start period.finish).filter fun row =>
    matchesDirection plan row.changeRate

theorem answerDayMovers_states (hdate : plan.date = some date)
    (hpublished : (repository.dailyDay date.value).status = .published)
    (h : answerDayMovers plan repository availability limit = .ok result) : result.States 0 n ↔
      n = ((matchingThemes plan (repository.dailyDay date.value).sections).filter
        (·.changeRate.isSome)).length := by
  have hkept :
      ∀ sections : List DailySection, (matchingThemes plan sections).filter (·.changeRate.isSome) =
      sections.flatMap (keptThemes plan) := by
    intro sections
    rw [matchingThemes, List.filter_filter, List.filter_flatMap]
    rfl
  rw [hkept]
  unfold answerDayMovers at h
  obtain ⟨found, hfound, h⟩ := bind_eq_ok.mp h
  obtain rfl := Option.some.inj (hdate.symm.trans (asserted_eq_ok.mp hfound))
  dsimp only at h
  split at h
  · next hnone =>
    cases h
    rw [hnone.resolve_left (by rw [hpublished]; exact nofun)]
    rfl
  obtain ⟨rows, hrows, h⟩ := bind_eq_ok.mp h
  have hlength := (forall₂_of_mapM_eq_ok hrows).length_eq
  split at h
  · next hempty =>
    cases h
    rw [hempty, List.length_nil, List.length_eq_zero_iff, keptSections, List.filter_eq_nil_iff]
      at hlength
    have hnone : (repository.dailyDay date.value).sections.flatMap (keptThemes plan) = [] := by
      rw [List.flatMap_eq_nil_iff]
      intro s hs
      simpa using hlength s hs
    rw [hnone]
    rfl
  · cases h
    exact (Option.some_inj.trans repr_inj).trans eq_comm

/-- The day of a period of one day is the report of that day. -/
def ResearchRepository.DayAlone (repository : ResearchRepository) (d : Date) : Prop :=
  ∃ day, repository.dailyDays d d = [day] ∧ day.status = .published ∧
    day.sections = (repository.dailyDay d).sections

/-- The names of the themes in the sections that a plan does not leave out. -/
def includedNames (plan : QueryPlan) (sections : List DailySection) : List String :=
  (matchingThemes plan (sections.filter fun s => !excludesSection plan s)).map (·.themeName)

theorem answerPeriodSummary_states (hperiod : plan.period = some period)
    (hday : period.finish = period.start) (halone : repository.DayAlone period.start)
    (h : answerPeriodSummary plan repository availability limit = .ok result) : result.States 1 n ↔
      n = (includedNames plan (repository.dailyDay period.start).sections).dedup.length := by
  obtain ⟨day, hdays, hstatus, hsections⟩ := halone
  unfold answerPeriodSummary at h
  obtain ⟨found, hfound, h⟩ := bind_eq_ok.mp h
  obtain rfl := Option.some.inj (hperiod.symm.trans (asserted_eq_ok.mp hfound))
  have hnames : (periodThemes plan [day]).map Prod.fst =
      includedNames plan (repository.dailyDay period.start).sections := by
    rw [← hsections, includedNames, matchingThemes, periodThemes]
    simp only [List.flatMap_cons, List.flatMap_nil, List.append_nil, List.map_flatMap, List.map_map,
      List.filter_flatMap, Function.comp_def]
  rw [hday, hdays] at h
  dsimp only at h
  by_cases hempty : day.sections = []
  · have hpublished : [day].filter (fun day => day.status = .published && !day.sections.isEmpty) =
        [] := by
      rw [List.filter_cons_of_neg (by simp [hempty]), List.filter_nil]
    rw [hpublished, if_pos rfl] at h
    cases h
    rw [← hsections, hempty]
    rfl
  · have hpublished : [day].filter (fun day => day.status = .published && !day.sections.isEmpty) =
        [day] := by
      rw [List.filter_cons_of_pos (by simp [hempty, hstatus]), List.filter_nil]
    rw [hpublished, if_neg (List.cons_ne_nil _ _)] at h
    rw [← hnames]
    split at h
    · next hnone =>
      cases h
      rw [hnone]
      rfl
    · cases h
      have hentries : (counterOf ((periodThemes plan [day]).map Prod.fst)).entries.length =
          ((periodThemes plan [day]).map Prod.fst).dedup.length := by
        rw [counterOf, length_entries_tallyOf, List.map_map]
        exact congrArg (fun names => (List.dedup names).length) (List.map_id _)
      rw [← hentries]
      exact (Option.some_inj.trans repr_inj).trans eq_comm

theorem answerStockDayReason_states (hdate : plan.date = some date)
    (hcompany : plan.company = some company)
    (hpublished : (repository.dailyDay date.value).status = .published)
    (h : answerStockDayReason plan repository availability limit = .ok result) : result.States 0 n ↔
      n = ((repository.dailyDay date.value).sections.flatMap (stockEntries company)).length := by
  unfold answerStockDayReason at h
  obtain ⟨found, hfound, h⟩ := bind_eq_ok.mp h
  obtain rfl := Option.some.inj (hdate.symm.trans (asserted_eq_ok.mp hfound))
  obtain ⟨named, hnamed, h⟩ := bind_eq_ok.mp h
  obtain rfl := Option.some.inj (hcompany.symm.trans (asserted_eq_ok.mp hnamed))
  dsimp only at h
  split at h
  · next hnone =>
    cases h
    rw [hnone.resolve_left (by rw [hpublished]; exact nofun)]
    rfl
  obtain ⟨rows, hrows, h⟩ := bind_eq_ok.mp h
  have hlength : ((repository.dailyDay date.value).sections.flatMap (stockEntries company)).length =
      rows.length :=
    (forall₂_of_mapM_eq_ok hrows).length_eq
  rw [hlength]
  split at h
  · next hempty =>
    cases h
    rw [hempty]
    rfl
  · cases h
    exact (Option.some_inj.trans repr_inj).trans eq_comm

theorem answerStockTopMoves_states (hcompany : plan.company = some company)
    (hperiod : plan.period = some period)
    (h : answerStockTopMoves plan repository availability limit = .ok result) :
    result.StatesDays plan company n ↔
      n = ((matchingRows plan repository company period).filter (·.changeRate.isSome)).length := by
  have hselected : (matchingRows plan repository company period).filter (·.changeRate.isSome) =
      ((repository.stockDailyRows company.seedStockCode period.start period.finish).filter
        (·.changeRate.isSome)).filter fun row => matchesDirection plan row.changeRate := by
    rw [matchingRows, List.filter_filter, List.filter_filter]
    simp only [Bool.and_comm]
  rw [hselected]
  unfold answerStockTopMoves at h
  obtain ⟨named, hnamed, h⟩ := bind_eq_ok.mp h
  obtain rfl := Option.some.inj (hcompany.symm.trans (asserted_eq_ok.mp hnamed))
  obtain ⟨found, hfound, h⟩ := bind_eq_ok.mp h
  obtain rfl := Option.some.inj (hperiod.symm.trans (asserted_eq_ok.mp hfound))
  dsimp only at h
  split at h
  · next hnone =>
    cases h
    rw [hnone]
    rfl
  obtain ⟨rows, -, h⟩ := bind_eq_ok.mp h
  cases h
  exact daysText_inj.trans eq_comm

/-- The sections of a day in which a company occurs. -/
def stockSections (company : CompanyRef) (sections : List DailySection) : List DailySection :=
  sections.filter fun s => !(stockEntries company s).isEmpty

/-- The answers about a published day and about a company state the right numbers exactly if, for
themes and for days, repeated entries make up for the names that have no entry with a rate, every
theme of the day stands in a section that is not left out, and the company stands in no section
twice. -/
theorem dailyAnswers_iff {movers summary reason moves : QueryPlan}
    {moversResult summaryResult reasonResult movesResult : AnswerResult} {date : DateSlot}
    {day period : PeriodSlot} {company : CompanyRef} (hdate : movers.date = some date)
    (hday : summary.period = some day) (hstart : day.start = date.value)
    (hfinish : day.finish = date.value) (hdirection : summary.direction = movers.direction)
    (hpublished : (repository.dailyDay date.value).status = .published)
    (halone : repository.DayAlone date.value)
    (hreasonDate : reason.date = some date) (hreasonCompany : reason.company = some company)
    (hmovesCompany : moves.company = some company) (hmovesPeriod : moves.period = some period)
    (hmovers : answerDayMovers movers repository availability limit = .ok moversResult)
    (hsummary : answerPeriodSummary summary repository availability limit = .ok summaryResult)
    (hreason : answerStockDayReason reason repository availability limit = .ok reasonResult)
    (hmoves : answerStockTopMoves moves repository availability limit = .ok movesResult) :
    let sections := (repository.dailyDay date.value).sections
    let themes := matchingThemes movers sections
    let rows := matchingRows moves repository company period
    (moversResult.States 0 (themes.map (·.themeName)).dedup.length ∧
        summaryResult.States 1 (themes.map (·.themeName)).dedup.length ∧
        movesResult.StatesDays moves company (rows.map (·.tradingDate)).dedup.length ∧
        reasonResult.States 0 (stockSections company sections).length) ↔
      (repeats (·.themeName) (themes.filter (·.changeRate.isSome)) =
          (uncounted (·.themeName) (·.changeRate.isSome) themes).length ∧
        (∀ name ∈ themes.map (·.themeName), name ∈ includedNames summary sections) ∧
        repeats (·.tradingDate) (rows.filter (·.changeRate.isSome)) =
          (uncounted (·.tradingDate) (·.changeRate.isSome) rows).length ∧
        ∀ s ∈ sections, (stockEntries company s).length ≤ 1) := by
  intro sections themes rows
  have hsame : ∀ theme : DailyTheme, matchesDirection summary theme.changeRate =
      matchesDirection movers theme.changeRate := by
    intro theme
    unfold matchesDirection
    rw [hdirection]
  have hsub : includedNames summary sections ⊆ themes.map (·.themeName) := by
    refine List.Sublist.subset (List.Sublist.map _ ?_)
    unfold matchingThemes
    simp only [hsame]
    exact (List.filter_sublist.flatMap _).filter _
  rw [answerDayMovers_states hdate hpublished hmovers,
    answerPeriodSummary_states hday (hfinish.trans hstart.symm) (hstart ▸ halone) hsummary, hstart,
    answerStockTopMoves_states hmovesCompany hmovesPeriod hmoves,
    answerStockDayReason_states hreasonDate hreasonCompany hpublished hreason]
  refine and_congr (eq_comm.trans (length_counted_iff _ _ _))
    (and_congr (eq_comm.trans (length_dedup_eq_iff hsub))
    (and_congr (eq_comm.trans (length_counted_iff _ _ _)) ?_))
  exact eq_comm.trans (length_flatMap_iff _ _)

def reportedCompany : CompanyRef := ⟨"005930", "삼성전자", "삼성전자", .currentName⟩

def reportFields : QueryPlan.Fields :=
  { supplyFields .dayMovers with
    date := some ⟨supplyDay, "오늘", some .today⟩, company := some reportedCompany }

theorem postInit_reportFields : reportFields.postInit = .ok () := by decide

/-- A question about a day and a company. -/
def reportPlan : QueryPlan := ⟨reportFields, postInit_reportFields⟩

/-- A theme that rose with the company in it. -/
def risenTheme (themeName : String) : DailyTheme :=
  ⟨themeName, some (.ofNat 3), [⟨"삼성전자", some "005930", none, none⟩]⟩

/-- A report with some sections, and a row for the company on the day and one on the next. -/
def reportOf (sections : List DailySection) : ResearchRepository :=
  { catalystRepository [] [] with
    dailyDay := fun d => ⟨d, .published, sections, 1⟩
    dailyDays := fun d _ => [⟨d, .published, sections, 1⟩]
    stockDailyRows := fun _ d _ =>
      [⟨d, "반도체", "", none, some (.ofNat 3)⟩, ⟨.august 4, "조선", "", none, some (.ofNat 2)⟩] }

theorem exists_result_of_isOk (answer : Except Error AnswerResult) (h : answer.isOk = true) :
    ∃ result, answer = .ok result := by
  cases answer with
  | error e => cases h
  | ok result => exact ⟨result, rfl⟩

/-- The answers about a report with two sections state the right numbers, also where only one row
is shown. -/
theorem dailyAnswers_twoSections :
    let sections := [⟨"반도체", "반도체 강세", [], [risenTheme "반도체"]⟩,
      ⟨"조선", "조선 강세", [], [risenTheme "조선"]⟩]
    ∃ moversResult summaryResult reasonResult movesResult,
      answerDayMovers reportPlan (reportOf sections) everythingOpen 1 = .ok moversResult ∧
      answerPeriodSummary reportPlan (reportOf sections) everythingOpen 1 = .ok summaryResult ∧
      answerStockDayReason reportPlan (reportOf sections) everythingOpen 1 = .ok reasonResult ∧
      answerStockTopMoves reportPlan (reportOf sections) everythingOpen 1 = .ok movesResult ∧
      moversResult.States 0 2 ∧ summaryResult.States 1 2 ∧
      movesResult.StatesDays reportPlan reportedCompany 2 ∧ reasonResult.States 0 2 := by
  intro sections
  obtain ⟨moversResult, hmovers⟩ := exists_result_of_isOk
    (answerDayMovers reportPlan (reportOf sections) everythingOpen 1) (by decide)
  obtain ⟨summaryResult, hsummary⟩ := exists_result_of_isOk
    (answerPeriodSummary reportPlan (reportOf sections) everythingOpen 1) (by decide)
  obtain ⟨reasonResult, hreason⟩ := exists_result_of_isOk
    (answerStockDayReason reportPlan (reportOf sections) everythingOpen 1) (by decide)
  obtain ⟨movesResult, hmoves⟩ := exists_result_of_isOk
    (answerStockTopMoves reportPlan (reportOf sections) everythingOpen 1) (by decide)
  obtain ⟨hthemes, hnames, hdays, hstood⟩ := (dailyAnswers_iff rfl rfl rfl rfl rfl rfl
    ⟨_, rfl, rfl, rfl⟩ rfl rfl rfl rfl hmovers hsummary hreason hmoves).mpr
      ⟨by decide, by decide, by decide, by decide⟩
  exact ⟨moversResult, summaryResult, reasonResult, movesResult, hmovers, hsummary, hreason, hmoves,
    Eq.mp (congrArg (moversResult.States 0) (by decide)) hthemes,
    Eq.mp (congrArg (summaryResult.States 1) (by decide)) hnames,
    Eq.mp (congrArg (movesResult.StatesDays reportPlan reportedCompany) (by decide)) hdays,
    Eq.mp (congrArg (reasonResult.States 0) (by decide)) hstood⟩

/-- A theme that is listed in two sections is counted twice, and so is a company that is listed
twice in one. -/
theorem dailyAnswers_miscount :
    let sections := [⟨"반도체", "반도체 강세", [], [risenTheme "반도체", risenTheme "장비"]⟩,
      ⟨"수출", "수출 증가", [], [risenTheme "반도체"]⟩]
    ∃ moversResult reasonResult,
      answerDayMovers reportPlan (reportOf sections) everythingOpen 20 = .ok moversResult ∧
      answerStockDayReason reportPlan (reportOf sections) everythingOpen 20 = .ok reasonResult ∧
      ((matchingThemes reportPlan sections).map (·.themeName)).dedup.length = 2 ∧
      ¬moversResult.States 0 2 ∧
      (stockSections reportedCompany sections).length = 2 ∧ ¬reasonResult.States 0 2 := by
  intro sections
  obtain ⟨moversResult, hmovers⟩ :=
    exists_result_of_isOk (answerDayMovers reportPlan (reportOf sections) everythingOpen 20)
    (by decide)
  obtain ⟨reasonResult, hreason⟩ :=
    exists_result_of_isOk (answerStockDayReason reportPlan (reportOf sections) everythingOpen 20)
    (by decide)
  refine ⟨moversResult, reasonResult, hmovers, hreason, by decide, ?_, by decide, ?_⟩
  · rw [answerDayMovers_states rfl rfl hmovers]
    decide
  · rw [answerStockDayReason_states rfl rfl rfl hreason]
    decide

end Dayjaview.Ontology
