import Dayjaview.Ontology.GroupCounts

/-!
# Every plan has an answer

For every plan there is a repository from which it is answered. Only a question about
amounts may have none: if no amount that it asks for can be added up.
-/

namespace Dayjaview.Ontology

/-- A slot of a plan is filled. -/
def QueryPlan.Fields.Present (plan : QueryPlan.Fields) : QuerySlot → Prop
  | .date => plan.date.isSome
  | .dateRange | .period => plan.period.isSome
  | .stock | .company => plan.company.isSome
  | .theme => plan.themes ≠ []
  | .themes => 2 ≤ plan.themes.length
  | .catalystType | .event => plan.catalystType.isSome
  | .amountCondition => plan.amountCondition.isSome
  | .topic => plan.topic.isSome

theorem present_of_mem_slotMapping {plan : QueryPlan.Fields} {slot : QuerySlot} {value : SlotValue}
    (h : (slot, value) ∈ plan.slotMapping) : plan.Present slot := by
  simp only [QueryPlan.Fields.slotMapping, List.flatten_cons, List.flatten_nil, List.mem_append,
    List.mem_map, List.mem_flatMap, Option.mem_toList] at h
  rcases h with h | h | h | h | h | h | h | h | h
  · obtain ⟨date, hdate, h⟩ := h
    cases h
    simp [QueryPlan.Fields.Present, Option.mem_def.mp hdate]
  · obtain ⟨period, hperiod, h⟩ := h
    have hpresent : plan.period.isSome = true := by rw [Option.mem_def.mp hperiod]; rfl
    unfold QueryPlan.Fields.periodSlotKey at h
    split at h <;> cases h <;> exact hpresent
  · obtain ⟨company, hcompany, h⟩ := h
    have hpresent : plan.company.isSome = true := by rw [Option.mem_def.mp hcompany]; rfl
    rcases List.mem_cons.mp h with h | h
    · cases h
      exact hpresent
    · cases List.mem_singleton.mp h
      exact hpresent
  · obtain ⟨theme, htheme, h⟩ := h
    cases h
    intro hnil
    rw [hnil] at htheme
    cases htheme
  · split at h
    · next htwo =>
      cases List.mem_singleton.mp h
      exact htwo
    · cases h
  · obtain ⟨catalystType, htype, h⟩ := h
    have hpresent : plan.catalystType.isSome = true := by rw [Option.mem_def.mp htype]; rfl
    rcases List.mem_cons.mp h with h | h
    · cases h
      exact hpresent
    · cases List.mem_singleton.mp h
      exact hpresent
  · obtain ⟨condition, hcondition, h⟩ := h
    cases h
    simp [QueryPlan.Fields.Present, Option.mem_def.mp hcondition]
  · obtain ⟨topic, htopic, h⟩ := h
    cases h
    simp [QueryPlan.Fields.Present, Option.mem_def.mp htopic]
  · cases h

theorem QueryPlan.exists_alternative (plan : QueryPlan) :
    ∃ alternative ∈ (queryContract plan.queryType).requiredAlternatives,
      ∀ slot ∈ alternative, plan.Present slot := by
  have hvalid := plan.valid
  unfold QueryPlan.Fields.postInit at hvalid
  rw [check_bind_eq_ok, ensure_eq_ok, ensure_eq_ok] at hvalid
  obtain ⟨alternative, halternative, hslots⟩ := List.any_eq_true.mp hvalid.2
  refine ⟨alternative, halternative, fun slot hslot => ?_⟩
  have hsupplied := List.all_eq_true.mp hslots slot hslot
  rw [List.contains_iff_mem, List.mem_map] at hsupplied
  obtain ⟨e, he, rfl⟩ := hsupplied
  exact present_of_mem_slotMapping (List.mem_of_mem_filter he)

/-- A rate that goes the way of a plan. -/
def sampleRate : Option QueryDirection → Decimal
  | some .down => Decimal.neg (.ofNat 1)
  | _ => .ofNat 1

/-- A catalyst of another company. -/
def sampleCatalyst (code : String) : CatalystSummary :=
  { supplyCatalyst "1" ["조선"] 1 "선박 수주" with
    companyRoles := [⟨code ++ "0", "한화오션", "ACTOR"⟩] }

def sampleObservation (day : Date) : OutcomeObservation :=
  ⟨"1", day, "한화오션", none, none, .empty, none, "선박 수주", none⟩

/-- A contract about an amount. -/
def sampleFact (amount : Decimal) : ValueFact :=
  ⟨"1", none, "CONTRACT_VALUE", "1", amount, "원", some "KRW", "CONTRACT", true, "조선", "선박 수주"⟩

/-- A repository with one record of everything that a plan may ask for. -/
def sampleRepository (plan : QueryPlan) (versions : Dict String String) (amount : Decimal) :
    ResearchRepository :=
  let rate := sampleRate plan.direction
  let code := (plan.company.map (·.seedStockCode)).getD ""
  let day := fun d : Date =>
    (⟨d, .published, [⟨"조선", "선박 수주", [], [⟨"조선", some rate,
      [⟨"한화오션", some code, none, none⟩]⟩]⟩], 1⟩ : DailyDay)
  { versions
    readyPrerequisites := [.e17LabelsDb, .e22Stage1, .e22Stage2, .e22Stage3, .e22Stage4, .e22Stage6]
    dailyDay := day
    dailyDays := fun start _ => [day start]
    stockDailyRows := fun _ start _ => [⟨start, "조선", "선박 수주", none, some rate⟩]
    themeDailyChanges := fun names start _ =>
      names.dedup.map fun name => ⟨start, name, some rate, "선박 수주"⟩
    themeMembers := fun id => [⟨id, "조선", none, "한화오션", none⟩]
    stockThemeMemberships := fun code => [⟨"1", "조선", some code, "한화오션", none⟩]
    themeHistory := fun _ _ _ =>
      [⟨"조선", none, "선박 수주", none, none, if plan.direction = some .down then .down else .up⟩]
    catalysts := fun _ => [sampleCatalyst code]
    valueFacts := fun _ => [sampleFact amount]
    outcomes := fun asked _ => [sampleObservation (asked.dateFrom.getD supplyDay)]
    leaderOutcomes := fun asked _ => [sampleObservation (asked.dateFrom.getD supplyDay)] }

@[simp] theorem asserted_some {α : Type} (a : α) : asserted (some a) = .ok a := rfl
@[simp] theorem rateText_none : rateText none = .ok "—" := rfl
@[simp] theorem rateText_up : rateText (some (.ofNat 1)) = .ok "+1.00%" := rfl
@[simp] theorem rateText_down : rateText (some (Decimal.neg (.ofNat 1))) = .ok "-1.00%" := rfl
@[simp] theorem zero_le_up : Decimal.zero ≤ .ofNat 1 := by decide
@[simp] theorem not_up_lt_zero : ¬Decimal.ofNat 1 < Decimal.zero := by decide
@[simp] theorem down_lt_zero : Decimal.neg (.ofNat 1) < Decimal.zero := by decide

@[simp] theorem ok_bind {α β : Type} (a : α) (f : α → Except Error β) :
    (Except.ok a >>= f) = f a := rfl

@[simp] theorem pure_eq_ok {α : Type} (a : α) : (pure a : Except Error α) = .ok a := rfl

@[simp] theorem ranked_singleton {α ρ : Type} [LinearOrder ρ] (rank : α → ρ) (a : α) :
    ranked rank [a] = [a] := rfl

@[simp] theorem entries_tallyOf_singleton {κ : Type} [DecidableEq κ] (key : κ) :
    (tallyOf [(key, 1)]).entries = [(key, 1)] := rfl

@[simp] theorem sortedEntries_counterOf_singleton (text : String) :
    (counterOf [text]).sortedEntries = [(text, 1)] := rfl

@[simp] theorem get?_bucketsOf_singleton {κ α : Type} [DecidableEq κ] (key : κ) (items : List α) :
    (bucketsOf 3 [(key, items)]).get? key = some items := by
  simp [bucketsOf, addItems]

@[simp] theorem mostFrequent_counterOf (text : String) :
    mostFrequent (counterOf [text]) = [(text, 1)] :=
  rfl

@[simp] theorem byFrequency_counterOf (text : String) :
    byFrequency (counterOf [text]) = [(text, 1)] :=
  rfl

@[simp] theorem mostFrequent_tallyOf (text : String) :
    mostFrequent (tallyOf [(text, 1)]) = [(text, 1)] :=
  rfl

@[simp] theorem themeWeights_sample (weight : CatalystSummary → Nat) (code : String) :
    themeWeights weight [sampleCatalyst code] = [("조선", weight (sampleCatalyst code))] := rfl

@[simp] theorem reactionWeight_sample (code : String) :
    reactionWeight (sampleCatalyst code) = 1 := rfl

@[simp] theorem themeEvidence_sample (code : String) :
    themeEvidence [sampleCatalyst code] =
      bucketsOf 3 [("조선", catalystEvidence (sampleCatalyst code))] := rfl

@[simp] theorem evidenceBy_sample (key : CatalystSummary → String) (code : String) :
    evidenceBy key [sampleCatalyst code] =
      bucketsOf 3 [(key (sampleCatalyst code), catalystEvidence (sampleCatalyst code))] := rfl

/-- What a catalyst is known from. -/
def sampleEvidence : AnswerEvidence :=
  ⟨"ONTOLOGY_CATALYST", "2026-08-03 · 조선", some supplyDay, "선박 수주", some 0, some 4⟩

@[simp] theorem catalystEvidence_sample (code : String) :
    catalystEvidence (sampleCatalyst code) = [sampleEvidence] := by
  have hlabel : dateLabel (some supplyDay) ++ " · " ++ "조선" = "2026-08-03 · 조선" := by
    decide
  have hexcerpt : takeText 200 "선박 수주" = "선박 수주" := by decide
  simp [catalystEvidence, sampleCatalyst, supplyCatalyst, sampleEvidence, hlabel, hexcerpt]

/-- An answer with evidence in every row. -/
def IsAnswer (result : Except Error AnswerResult) : Prop :=
  ∃ block, result = .ok (.answered block) ∧ block.covered = true

section
variable {plan : QueryPlan} {versions : Dict String String} {amount : Decimal}
  {availability : QueryAvailability}

theorem isAnswer_dayMovers (hdate : plan.date.isSome = true) :
    IsAnswer (answerDayMovers plan (sampleRepository plan versions amount) availability 20) := by
  obtain ⟨date, hdate⟩ := Option.isSome_iff_exists.mp hdate
  unfold answerDayMovers IsAnswer
  rcases hdirection : plan.direction with _ | _ | _ <;>
    simp [hdate, hdirection, sampleRepository, sampleRate, keptSections, keptThemes,
      matchesDirection, sectionRow, themeValues, List.mapM_cons, answerBlock, AnswerBlock.covered,
      slice, sectionEvidence]

theorem isAnswer_periodSummary (hperiod : plan.period.isSome = true) :
    IsAnswer
      (answerPeriodSummary plan (sampleRepository plan versions amount) availability 20) := by
  obtain ⟨period, hperiod⟩ := Option.isSome_iff_exists.mp hperiod
  unfold answerPeriodSummary IsAnswer
  rcases hdirection : plan.direction with _ | _ | _ <;>
    simp [hperiod, hdirection, sampleRepository, sampleRate, periodThemes, excludesSection,
      DailySection.direction, matchesDirection, answerBlock, AnswerBlock.covered, slice]

theorem isAnswer_stockDayReason (hdate : plan.date.isSome = true)
    (hcompany : plan.company.isSome = true) :
    IsAnswer
      (answerStockDayReason plan (sampleRepository plan versions amount) availability 20) := by
  obtain ⟨date, hdate⟩ := Option.isSome_iff_exists.mp hdate
  obtain ⟨company, hcompany⟩ := Option.isSome_iff_exists.mp hcompany
  unfold answerStockDayReason IsAnswer
  rcases hdirection : plan.direction with _ | _ | _ <;>
    simp [hdate, hcompany, hdirection, sampleRepository, sampleRate, stockDayRow, List.mapM_cons,
      answerBlock, AnswerBlock.covered, slice, sectionEvidence]

theorem isAnswer_stockTopMoves (hperiod : plan.period.isSome = true)
    (hcompany : plan.company.isSome = true) :
    IsAnswer
      (answerStockTopMoves plan (sampleRepository plan versions amount) availability 20) := by
  obtain ⟨period, hperiod⟩ := Option.isSome_iff_exists.mp hperiod
  obtain ⟨company, hcompany⟩ := Option.isSome_iff_exists.mp hcompany
  unfold answerStockTopMoves IsAnswer
  rcases hdirection : plan.direction with _ | _ | _ <;>
    simp [hperiod, hcompany, hdirection, sampleRepository, sampleRate, stockMoveRow,
      matchesDirection, List.mapM_cons, answerBlock, AnswerBlock.covered, slice]

theorem isAnswer_stockThemeMembership (hcompany : plan.company.isSome = true) :
    IsAnswer (answerStockThemeMembership plan (sampleRepository plan versions amount) availability
      20) := by
  obtain ⟨company, hcompany⟩ := Option.isSome_iff_exists.mp hcompany
  unfold answerStockThemeMembership IsAnswer
  simp [hcompany, sampleRepository, answerBlock, AnswerBlock.covered, slice]

theorem isAnswer_themeMembers (htheme : plan.themes ≠ []) :
    IsAnswer (answerThemeMembers plan (sampleRepository plan versions amount) availability 20) := by
  obtain ⟨theme, themes, htheme⟩ := List.exists_cons_of_ne_nil htheme
  unfold answerThemeMembers IsAnswer
  simp [firstTheme, htheme, sampleRepository, answerBlock, AnswerBlock.covered, slice]

theorem isAnswer_themeHistory (htheme : plan.themes ≠ []) :
    IsAnswer (answerThemeHistory plan (sampleRepository plan versions amount) availability 20) := by
  obtain ⟨theme, themes, htheme⟩ := List.exists_cons_of_ne_nil htheme
  unfold answerThemeHistory IsAnswer
  rcases hdirection : plan.direction with _ | _ | _ <;>
    simp [firstTheme, htheme, hdirection, sampleRepository, answerBlock, AnswerBlock.covered, slice,
      recordEvidence]

theorem isAnswer_themeFrequency (hperiod : plan.period.isSome = true) :
    IsAnswer
      (answerThemeFrequency plan (sampleRepository plan versions amount) availability 20) := by
  obtain ⟨period, hperiod⟩ := Option.isSome_iff_exists.mp hperiod
  unfold answerThemeFrequency IsAnswer
  simp [hperiod, sampleRepository, slice, evidencedRows, answerBlock, AnswerBlock.covered]

theorem isAnswer_catalystThemeReaction (htype : plan.catalystType.isSome = true) :
    IsAnswer (answerCatalystThemeReaction plan (sampleRepository plan versions amount) availability
      20) := by
  obtain ⟨catalystType, htype⟩ := Option.isSome_iff_exists.mp htype
  unfold answerCatalystThemeReaction IsAnswer
  simp [htype, sampleRepository, slice, evidencedRows, answerBlock, AnswerBlock.covered]

theorem isAnswer_catalystFrequency (htype : plan.catalystType.isSome = true)
    (hperiod : plan.period.isSome = true) :
    IsAnswer (answerCatalystFrequency plan (sampleRepository plan versions amount) availability
      20) := by
  obtain ⟨catalystType, htype⟩ := Option.isSome_iff_exists.mp htype
  obtain ⟨period, hperiod⟩ := Option.isSome_iff_exists.mp hperiod
  unfold answerCatalystFrequency IsAnswer
  simp [htype, hperiod, sampleRepository, catalystCounts, evidencedRows, answerBlock,
    AnswerBlock.covered]

theorem isAnswer_catalystCertainty (htype : plan.catalystType.isSome = true) :
    IsAnswer (answerCatalystCertainty plan (sampleRepository plan versions amount) availability
      20) := by
  obtain ⟨catalystType, htype⟩ := Option.isSome_iff_exists.mp htype
  unfold answerCatalystCertainty IsAnswer
  simp [htype, sampleRepository, answerBlock, AnswerBlock.covered]

theorem isAnswer_catalystContinuation :
    IsAnswer (answerCatalystContinuation plan (sampleRepository plan versions amount) availability
      20) := by
  unfold answerCatalystContinuation IsAnswer
  simp [sampleRepository, answerBlock, AnswerBlock.covered]

theorem isAnswer_companyDirectEvent (hcompany : plan.company.isSome = true) :
    IsAnswer (answerCompanyDirectEvent plan (sampleRepository plan versions amount) availability
      20) := by
  obtain ⟨company, hcompany⟩ := Option.isSome_iff_exists.mp hcompany
  unfold answerCompanyDirectEvent IsAnswer
  simp [hcompany, sampleRepository, answerBlock, AnswerBlock.covered, slice, directEventRow]

theorem peersOf_sample [SetOrder] (code : String) :
    peersOf code (sampleCatalyst code) = [(code ++ "0", "한화오션")] := by
  have hother : code ++ "0" ≠ code := by
    intro h
    have hlength := congrArg String.length h
    have hone : "0".length = 1 := by decide
    rw [String.length_append] at hlength
    omega
  have horder := SetOrder.perm [(code ++ "0", "한화오션")]
  rw [List.dedup_cons_of_notMem (List.not_mem_nil), List.dedup_nil, List.perm_singleton] at horder
  simp [peersOf, sampleCatalyst, hother, horder]

theorem isAnswer_stockCooccurrence [SetOrder] (hcompany : plan.company.isSome = true)
    (hperiod : plan.period.isSome = true) :
    IsAnswer (answerStockCooccurrence plan (sampleRepository plan versions amount) availability
      20) := by
  obtain ⟨company, hcompany⟩ := Option.isSome_iff_exists.mp hcompany
  obtain ⟨period, hperiod⟩ := Option.isSome_iff_exists.mp hperiod
  unfold answerStockCooccurrence IsAnswer
  simp [hcompany, hperiod, sampleRepository, peersOf_sample, slice, answerBlock,
    AnswerBlock.covered]

theorem themeComparison_one {usable : List ThemeDailyChange} {name headline : String} {day : Date}
    {direction : Option QueryDirection}
    (h : usable.filter (·.themeName = name) =
      [⟨day, name, some (sampleRate direction), headline⟩]) :
    ∃ found, themeComparison plan usable name = .ok (some found) ∧ found.row.evidence ≠ [] := by
  have hsum : ∃ total, Decimal.sum Decimal.defaultPrec [sampleRate direction] = .ok total := by
    rcases direction with _ | _ | _
    · exact ⟨.ofNat 1, by decide⟩
    · exact ⟨.ofNat 1, by decide⟩
    · exact ⟨Decimal.neg (.ofNat 1), by decide⟩
  have hrate : ∃ text, rateText (some (sampleRate direction)) = .ok text := by
    rcases direction with _ | _ | _
    · exact ⟨_, rateText_up⟩
    · exact ⟨_, rateText_up⟩
    · exact ⟨_, rateText_down⟩
  obtain ⟨total, hsum⟩ := hsum
  obtain ⟨text, hrate⟩ := hrate
  unfold themeComparison
  simp [h, firstBest, median, hsum, hrate]

theorem isAnswer_themeComparison (hthemes : 2 ≤ plan.themes.length)
    (hperiod : plan.period.isSome = true) :
    IsAnswer (answerThemeComparison plan (sampleRepository plan versions amount) availability
      20) := by
  obtain ⟨period, hperiod⟩ := Option.isSome_iff_exists.mp hperiod
  let names := plan.themes.map (·.themeName)
  let changes : List ThemeDailyChange := names.dedup.map fun name =>
    ⟨period.start, name, some (sampleRate plan.direction), "선박 수주"⟩
  have husable : changes.filter (·.changeRate.isSome) = changes := by
    rw [List.filter_eq_self]
    intro change hchange
    obtain ⟨name, -, rfl⟩ := List.mem_map.mp hchange
    rfl
  have hone : ∀ name ∈ names, changes.filter (·.themeName = name) =
      [⟨period.start, name, some (sampleRate plan.direction), "선박 수주"⟩] := by
    intro name hname
    have hcount : names.dedup.count name = 1 :=
      List.count_eq_one_of_mem (List.nodup_dedup _) (List.mem_dedup.mpr hname)
    rw [List.filter_map]
    have hfilter : names.dedup.filter ((fun change : ThemeDailyChange =>
        decide (change.themeName = name)) ∘ fun name =>
          ⟨period.start, name, some (sampleRate plan.direction), "선박 수주"⟩) = [name] := by
      rw [show [name] = List.replicate (names.dedup.count name) name by rw [hcount]; rfl,
        ← List.filter_eq]
      congr 1
    rw [hfilter]
    rfl
  have hcompares : ∀ name ∈ names, ∃ compared,
      themeComparison plan changes name = .ok (some compared) ∧ compared.row.evidence ≠ [] :=
    fun name hname => themeComparison_one (hone name hname)
  have hfound : ∃ found, names.mapM (themeComparison plan changes) = .ok found :=
    exists_mapM_eq_ok fun name hname =>
      let ⟨one, hok, _⟩ := hcompares name hname
      ⟨some one, hok⟩
  obtain ⟨found, hfound⟩ := hfound
  have hall : ∀ one ∈ found, ∃ compared, one = some compared ∧ compared.row.evidence ≠ [] := by
    intro one hmem
    obtain ⟨name, hname, hok⟩ := (mem_of_mapM_eq_ok hfound).1 one hmem
    obtain ⟨compared, hcompared, hevidence⟩ := hcompares name hname
    rw [hcompared] at hok
    exact ⟨compared, (Except.ok.inj hok).symm, hevidence⟩
  have hlength : (found.filterMap id).length = plan.themes.length := by
    rw [List.filterMap_length_eq_length.mpr, ← (forall₂_of_mapM_eq_ok hfound).length_eq,
      List.length_map]
    intro one hmem
    obtain ⟨compared, rfl, -⟩ := hall one hmem
    rfl
  have hne : changes ≠ [] := by
    intro hnil
    have hdedup : names.dedup = [] := List.map_eq_nil_iff.mp hnil
    have hnames : names.length = 0 := by rw [(List.dedup_eq_nil names).mp hdedup, List.length_nil]
    rw [List.length_map] at hnames
    omega
  have hevidence : ∀ compared ∈ found.filterMap id, compared.row.evidence ≠ [] := by
    intro compared hmem
    obtain ⟨one, hone, hid⟩ := List.mem_filterMap.mp hmem
    obtain ⟨other, rfl, hother⟩ := hall one hone
    cases hid
    exact hother
  have hrepository : (sampleRepository plan versions amount).themeDailyChanges names period.start
      period.finish = changes := rfl
  unfold answerThemeComparison IsAnswer
  rw [hperiod, asserted_some, ok_bind]
  dsimp only
  rw [hrepository, husable, if_neg hne, hfound, ok_bind]
  obtain ⟨first, second, rest, hcompared⟩ : ∃ first second rest,
      found.filterMap id = first :: second :: rest := by
    match hfilter : found.filterMap id with
    | first :: second :: rest => exact ⟨first, second, rest, rfl⟩
    | [_] =>
      rw [hfilter, List.length_singleton] at hlength
      omega
    | [] =>
      rw [hfilter, List.length_nil] at hlength
      omega
  rw [hcompared] at hevidence ⊢
  refine ⟨_, rfl, ?_⟩
  simpa [AnswerBlock.covered] using hevidence

/-- An amount is one that a plan asks for. -/
def Asked (plan : QueryPlan) (amount : Decimal) : Prop :=
  ∀ condition, plan.amountCondition = some condition → .zero < condition.normalizedValue →
    condition.matches amount = true

/-- An amount can be ranked and added up. -/
def Summable (amount : Decimal) : Prop :=
  (∃ n, negated amount = .ok n) ∧ ∃ total, Decimal.sum Decimal.defaultPrec [amount] = .ok total

variable {fact : ValueFact}

theorem selectedFacts_of_asked (heligible : fact.eligibleForSum = true)
    (hasked : Asked plan fact.normalizedValue) : selectedFacts plan [fact] = [fact] := by
  unfold selectedFacts
  cases hcondition : plan.amountCondition with
  | none => simp [heligible]
  | some condition =>
    have hmatches := hasked condition hcondition
    dsimp only
    split
    · next hpositive => simp [heligible, hmatches hpositive]
    · simp [heligible]

theorem uniqueFacts_one (h : ∃ n, negated fact.normalizedValue = .ok n) :
    uniqueFacts [fact] = .ok [fact] := by
  obtain ⟨n, hn⟩ := h
  have hfact : negatedFact fact = .ok (n, fact) := by
    unfold negatedFact
    rw [hn]
    rfl
  unfold uniqueFacts
  rw [List.mapM_cons, hfact]
  rfl

theorem isAnswer_companyValueSummary (hasked : Asked plan amount) (hsum : Summable amount) :
    IsAnswer (answerCompanyValueSummary plan (sampleRepository plan versions amount) availability
      20) := by
  obtain ⟨hnegated, total, htotal⟩ := hsum
  have hfacts : (sampleRepository plan versions amount).valueFacts (valueFilterOf plan) =
      [sampleFact amount] := rfl
  have hselected : selectedFacts plan [sampleFact amount] = [sampleFact amount] :=
    selectedFacts_of_asked rfl hasked
  have hunique : uniqueFacts [sampleFact amount] = .ok [sampleFact amount] :=
    uniqueFacts_one hnegated
  have hvalues : [sampleFact amount].map (·.normalizedValue) = [amount] := rfl
  unfold answerCompanyValueSummary IsAnswer
  dsimp only
  rw [hfacts, if_neg (List.cons_ne_nil _ _), hselected, if_neg (List.cons_ne_nil _ _), hunique,
    ok_bind, hvalues, htotal, ok_bind]
  refine ⟨_, rfl, ?_⟩
  simp [AnswerBlock.covered, slice, factRow]

theorem asked_of_mem_selectedFacts {facts : List ValueFact} (h : fact ∈ selectedFacts plan facts) :
    Asked plan fact.normalizedValue := by
  intro condition hcondition hpositive
  unfold selectedFacts at h
  dsimp only at h
  rw [hcondition] at h
  dsimp only at h
  rw [if_pos hpositive] at h
  exact (List.mem_filter.mp h).2

theorem mem_uniqueFacts {selected unique : List ValueFact} (h : uniqueFacts selected = .ok unique)
    (hfact : fact ∈ unique) :
    fact ∈ selected ∧ ∃ n, negated fact.normalizedValue = .ok n := by
  unfold uniqueFacts at h
  obtain ⟨keyed, hkeyed, h⟩ := bind_eq_ok.mp h
  cases h
  obtain ⟨e, he, rfl⟩ := List.mem_map.mp hfact
  rw [(List.perm_insertionSort _ _).mem_iff, Dict.mem_values_iff] at he
  obtain ⟨k, hk⟩ := he
  rw [get?_foldl_first fun e : Decimal × ValueFact => e.2.catalystId] at hk
  have hmem := List.mem_of_find?_eq_some hk
  rw [(List.perm_insertionSort _ _).mem_iff] at hmem
  obtain ⟨fact, hselected, hnegated⟩ := (mem_of_mapM_eq_ok hkeyed).1 e hmem
  unfold negatedFact at hnegated
  obtain ⟨n, hn, hnegated⟩ := bind_eq_ok.mp hnegated
  cases hnegated
  exact ⟨hselected, n, hn⟩

theorem exists_summable {selected unique : List ValueFact} (hne : selected ≠ [])
    (hunique : uniqueFacts selected = .ok unique) {total : Decimal}
    (htotal : Decimal.sum Decimal.defaultPrec (unique.map (·.normalizedValue)) = .ok total) :
    ∃ fact ∈ selected, Summable fact.normalizedValue := by
  cases hcases : unique with
  | nil =>
    have hlength := length_uniqueFacts hunique
    rw [hcases, List.length_nil, eq_comm, List.length_eq_zero_iff, List.dedup_eq_nil,
      List.map_eq_nil_iff] at hlength
    exact absurd hlength hne
  | cons fact rest =>
    obtain ⟨hselected, hnegated⟩ := mem_uniqueFacts hunique (by simp [hcases] : fact ∈ _)
    rw [hcases, List.map_cons, Decimal.sum, List.foldlM_cons] at htotal
    obtain ⟨first, hfirst, -⟩ := bind_eq_ok.mp htotal
    refine ⟨fact, hselected, hnegated, first, ?_⟩
    rw [Decimal.sum, List.foldlM_cons, hfirst]
    rfl

theorem horizonMetric_nil (horizon : Int) : ∃ metric, horizonMetric [] horizon = .ok metric :=
  ⟨_, rfl⟩

theorem outcomeRow_sample (horizons : List Int) (headline : Int) (day : Date) :
    ∃ row, outcomeRow horizons headline (("1", day), [sampleObservation day]) = .ok row ∧
      row.evidence ≠ [] := by
  have hreturns : ∀ horizon, (sampleObservation day).returnAt horizon = none := fun _ => rfl
  obtain ⟨texts, htexts⟩ : ∃ texts, horizons.mapM (horizonReturn (sampleObservation day)) =
      .ok texts := exists_mapM_eq_ok fun _ _ => ⟨_, rfl⟩
  have hleader : ∃ leader, leaderValues horizons (sampleObservation day) = .ok leader := by
    unfold leaderValues
    rw [htexts]
    exact ⟨_, rfl⟩
  obtain ⟨leader, hleader⟩ := hleader
  unfold outcomeRow
  simp [List.mapM_cons, hleader, hreturns, median]

theorem isAnswer_companyHistoricalOutcome {period : PeriodSlot}
    (hperiod : plan.period = some period) (hrange : availability.outcomeRangeFrom = period.start) :
    IsAnswer (answerCompanyHistoricalOutcome plan (sampleRepository plan versions amount)
      availability 20) := by
  have hstart : ¬period.finish < max period.start availability.outcomeRangeFrom := by
    rw [hrange, max_self]
    exact not_lt.mpr period.valid
  obtain ⟨row, hrow, hevidence⟩ :=
    outcomeRow_sample (outcomeHorizons plan) (headlineHorizon plan) period.start
  obtain ⟨metrics, hmetrics⟩ : ∃ metrics, (outcomeHorizons plan).mapM (horizonMetric []) =
      .ok metrics := exists_mapM_eq_ok fun horizon _ => horizonMetric_nil horizon
  unfold answerCompanyHistoricalOutcome IsAnswer
  rw [hperiod, asserted_some, ok_bind]
  dsimp only
  rw [if_neg hstart]
  have hobservations : (if plan.company.isNone = true then
      (sampleRepository plan versions amount).leaderOutcomes (outcomeFilterOf plan
        (max period.start availability.outcomeRangeFrom) period.finish) (outcomeHorizons plan)
      else (sampleRepository plan versions amount).outcomes (outcomeFilterOf plan
        (max period.start availability.outcomeRangeFrom) period.finish) (outcomeHorizons plan)) =
      [sampleObservation period.start] := by
    rw [hrange, max_self]
    split
    · rfl
    · rfl
  have hevents : outcomeEvents [sampleObservation period.start] =
      [(("1", period.start), [sampleObservation period.start])] := rfl
  have hopening : ∃ opening, openingText (headlineHorizon plan) none = .ok opening := ⟨_, rfl⟩
  obtain ⟨opening, hopening⟩ := hopening
  have hobserved : [sampleObservation period.start].filter (·.baseClose.isSome) = [] := rfl
  rw [hobservations, if_neg (List.cons_ne_nil _ _), hevents, hobserved, hmetrics]
  simp [slice, hrow, List.mapM_cons, median, hopening, answerBlock, AnswerBlock.covered, hevidence]

end

variable [SetOrder]

theorem isAnswer_handler {plan : QueryPlan} {versions : Dict String String} {amount : Decimal}
    {availability : QueryAvailability}
    (hamount : plan.queryType = .companyValueSummary → Asked plan amount ∧ Summable amount)
    (hrange : ∀ period, plan.period = some period → availability.outcomeRangeFrom = period.start) :
    IsAnswer (handler plan.queryType plan (sampleRepository plan versions amount) availability
      20) := by
  obtain ⟨alternative, halternative, hslots⟩ := plan.exists_alternative
  cases htype : plan.queryType <;> rw [htype] at halternative <;>
    simp only [queryContract, List.mem_cons, List.not_mem_nil, or_false] at halternative
  case dayMovers =>
    subst halternative
    exact isAnswer_dayMovers (hslots .date (by simp))
  case periodSummary =>
    subst halternative
    exact isAnswer_periodSummary (hslots .dateRange (by simp))
  case stockDayReason =>
    subst halternative
    exact isAnswer_stockDayReason (hslots .date (by simp)) (hslots .stock (by simp))
  case stockTopMoves =>
    subst halternative
    exact isAnswer_stockTopMoves (hslots .period (by simp)) (hslots .stock (by simp))
  case stockThemeMembership =>
    subst halternative
    exact isAnswer_stockThemeMembership (hslots .stock (by simp))
  case stockCooccurrence =>
    subst halternative
    exact isAnswer_stockCooccurrence (hslots .stock (by simp)) (hslots .period (by simp))
  case themeMembers =>
    subst halternative
    exact isAnswer_themeMembers (hslots .theme (by simp))
  case themeHistory =>
    subst halternative
    exact isAnswer_themeHistory (hslots .theme (by simp))
  case themeComparison =>
    subst halternative
    exact isAnswer_themeComparison (hslots .themes (by simp)) (hslots .period (by simp))
  case themeFrequency =>
    subst halternative
    exact isAnswer_themeFrequency (hslots .period (by simp))
  case catalystThemeReaction =>
    subst halternative
    exact isAnswer_catalystThemeReaction (hslots .catalystType (by simp))
  case catalystFrequency =>
    subst halternative
    exact isAnswer_catalystFrequency (hslots .catalystType (by simp)) (hslots .period (by simp))
  case catalystCertainty =>
    rcases halternative with rfl | rfl
    · exact isAnswer_catalystCertainty (hslots .catalystType (by simp))
    · exact isAnswer_catalystCertainty (hslots .event (by simp))
  case catalystContinuation => exact isAnswer_catalystContinuation
  case companyDirectEvent =>
    subst halternative
    exact isAnswer_companyDirectEvent (hslots .company (by simp))
  case companyValueSummary =>
    obtain ⟨hasked, hsum⟩ := hamount htype
    exact isAnswer_companyValueSummary hasked hsum
  case companyHistoricalOutcome =>
    have hperiod : plan.period.isSome = true := by
      rcases halternative with rfl | rfl | rfl | rfl <;> exact hslots .period (by simp)
    obtain ⟨period, hperiod⟩ := Option.isSome_iff_exists.mp hperiod
    exact isAnswer_companyHistoricalOutcome hperiod (hrange period hperiod)

omit [SetOrder] in
theorem missingPrerequisites_sample (plan : QueryPlan) (versions : Dict String String)
    (amount : Decimal) : missingPrerequisites plan (sampleRepository plan versions amount) =
    [] := by
  unfold missingPrerequisites
  dsimp only [sampleRepository]
  cases plan.queryType <;> decide

/-- A plan is answered from some repository with any versions of the data, if it does not ask
for amounts that cannot be added up. -/
theorem exists_answer (plan : QueryPlan) (versions : Dict String String)
    (h : plan.queryType = .companyValueSummary → ∃ amount, Asked plan amount ∧ Summable amount) :
    ∃ repository availability, repository.versions = versions ∧
      ∃ block, answerPlan plan repository availability supplyDay 20 = .ok (.answered block) := by
  obtain ⟨amount, hamount⟩ : ∃ amount, plan.queryType = .companyValueSummary →
      Asked plan amount ∧ Summable amount := by
    by_cases htype : plan.queryType = .companyValueSummary
    · obtain ⟨amount, hamount⟩ := h htype
      exact ⟨amount, fun _ => hamount⟩
    · exact ⟨.zero, fun hvalue => absurd hvalue htype⟩
  let availability : QueryAvailability :=
    ⟨[], true, (plan.period.map (·.start)).getD supplyDay, true⟩
  have hrange : ∀ period, plan.period = some period →
      availability.outcomeRangeFrom = period.start := by
    intro period hperiod
    simp [availability, hperiod]
  have hanswer : IsAnswer (handler plan.queryType plan (sampleRepository plan versions amount)
      availability 20) := isAnswer_handler hamount hrange
  obtain ⟨block, hblock, hcovered⟩ := hanswer
  refine ⟨sampleRepository plan versions amount, availability, rfl, block, ?_⟩
  unfold answerPlan
  dsimp only
  rw [missingPrerequisites_sample, if_neg (not_not.mpr rfl)]
  simp [availability, QueryAvailability.isOpen] at hblock ⊢
  simp [hblock, hcovered]

end Dayjaview.Ontology
