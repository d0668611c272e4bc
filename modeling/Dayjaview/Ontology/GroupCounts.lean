import Dayjaview.Ontology.ReactionTotals

/-!
# What becomes of the groups of an answer

A handler counts groups, shows a row for each of the first ones and declares how many
the display limit cuts off. The rows and the declared number are compared with the
number of groups. A row of the report of a day is a section of it.
-/

namespace Dayjaview.Ontology

variable {plan : QueryPlan} {repository : ResearchRepository} {availability : QueryAvailability}
  {limit : Int} {block : AnswerBlock}

theorem code_of_mem_declared {code labelKo : String} {count : Int} {e : AnswerExclusion}
    (h : e ∈ declared code labelKo count) : e.code = code := by
  unfold declared at h
  split at h
  · cases h
  · rw [List.mem_singleton.mp h]

theorem cutCount_append {before after : List AnswerExclusion}
    (h : ∀ e ∈ before, e.code ≠ "DISPLAY_LIMIT") : cutCount (before ++ after) = cutCount after := by
  rw [cutCount, cutCount, List.find?_append, List.find?_eq_none.mpr (by simpa using h)]
  rfl

theorem cutCount_declared {code labelKo : String} (h : code ≠ "DISPLAY_LIMIT") (count : Int)
    (after : List AnswerExclusion) :
    cutCount (declared code labelKo count ++ after) = cutCount after :=
  cutCount_append fun _ he => by rwa [code_of_mem_declared he]

theorem uncut_declared {code labelKo : String} (h : code ≠ "DISPLAY_LIMIT") {count : Int}
    {after : List AnswerExclusion} :
    (∀ e ∈ declared code labelKo count ++ after, e.code ≠ "DISPLAY_LIMIT") ↔
      ∀ e ∈ after, e.code ≠ "DISPLAY_LIMIT" := by
  simp only [List.mem_append, or_imp, forall_and]
  exact ⟨fun hboth => hboth.2, fun hafter => ⟨fun _ he => by rwa [code_of_mem_declared he], hafter⟩⟩

theorem shown_add_cut {α : Type} {groups : List α} (hlimit : 0 ≤ limit) :
    ((slice limit groups).length : Int) + cutCount (displayLimitExclusions groups.length limit) =
      groups.length := by
  rw [length_slice hlimit, min_add_cutCount]

theorem numberOf_sectionRow {day : DailyDay} {s : DailySection} {row : AnswerRow}
    (h : sectionRow plan day s = .ok row) :
    row.numberOf "themeTotal" = (keptThemes plan s).length := by
  unfold sectionRow at h
  obtain ⟨themes, -, h⟩ := bind_eq_ok.mp h
  cases h
  rfl

theorem sum_themeTotals {day : DailyDay} {sections : List DailySection} {rows : List AnswerRow}
    (h : (sections.filter fun s => !(keptThemes plan s).isEmpty).mapM (sectionRow plan day) =
      .ok rows) :
    (rows.map (·.numberOf "themeTotal")).sum = (sections.flatMap (keptThemes plan)).length := by
  have hrows := forall₂_of_mapM_eq_ok h
  have hsum : ∀ {kept : List DailySection} {rows : List AnswerRow},
      List.Forall₂ (fun s row => sectionRow plan day s = .ok row) kept rows →
      (rows.map (·.numberOf "themeTotal")).sum = (kept.flatMap (keptThemes plan)).length := by
    intro kept rows hall
    induction hall with
    | nil => rfl
    | cons hrow _ ih =>
      rw [List.map_cons, List.sum_cons, ih, numberOf_sectionRow hrow, List.flatMap_cons,
        List.length_append, Nat.cast_add]
  rw [hsum hrows]
  clear h hrows
  induction sections with
  | nil => rfl
  | cons s sections ih =>
    by_cases hempty : keptThemes plan s = []
    · rw [List.filter_cons_of_neg (by simp [hempty]), ih, List.flatMap_cons, hempty,
        List.nil_append]
    · rw [List.filter_cons_of_pos (by simpa using hempty), List.flatMap_cons, List.flatMap_cons,
        List.length_append, List.length_append, Nat.cast_add, Nat.cast_add, ih]

/-- The sections of the day that a plan asks for, with a theme that goes its way. -/
def daySections (plan : QueryPlan) (repository : ResearchRepository) : List DailySection :=
  match plan.date with
  | none => []
  | some date => keptSections plan (repository.dailyDay date.value)

/-- The themes of the day that go the way of the plan. -/
def dayThemes (plan : QueryPlan) (repository : ResearchRepository) : List DailyTheme :=
  match plan.date with
  | none => []
  | some date => (repository.dailyDay date.value).sections.flatMap (keptThemes plan)

theorem answerDayMovers_answered (hlimit : 0 ≤ limit)
    (h : answerDayMovers plan repository availability limit = .ok (.answered block)) :
    block.rows.length + cutCount block.exclusions = (daySections plan repository).length ∧
      block.metrics.map (·.value) = [(dayThemes plan repository).length.repr] ∧
      (block.Uncut →
        (block.rows.map (·.numberOf "themeTotal")).sum = (dayThemes plan repository).length) := by
  unfold answerDayMovers at h
  obtain ⟨date, hdate, h⟩ := bind_eq_ok.mp h
  rw [asserted_eq_ok] at hdate
  dsimp only at h
  split at h
  · cases h
  obtain ⟨rows, hrows, h⟩ := bind_eq_ok.mp h
  split at h
  · cases h
  cases h
  have hlength : rows.length = (daySections plan repository).length := by
    rw [daySections, hdate]
    exact (forall₂_of_mapM_eq_ok hrows).length_eq.symm
  have hthemes : dayThemes plan repository =
      (repository.dailyDay date.value).sections.flatMap (keptThemes plan) := by
    rw [dayThemes, hdate]
  refine ⟨?_, ?_, ?_⟩
  · rw [List.append_assoc, cutCount_declared (by decide), cutCount_declared (by decide),
      shown_add_cut hlimit, hlength]
  · rw [hthemes]
    rfl
  · intro huncut
    rw [AnswerBlock.Uncut, List.append_assoc, uncut_declared (by decide),
      uncut_declared (by decide), displayLimitExclusions_uncut] at huncut
    rw [slice_eq_self huncut, hthemes]
    exact sum_themeTotals hrows

/-- The catalysts of the period of a plan. -/
def periodCatalysts (plan : QueryPlan) (repository : ResearchRepository) : List CatalystSummary :=
  repository.catalysts
  { dateFrom := plan.period.map (·.start), dateTo := plan.period.map (·.finish) }

/-- Every theme that is shown is one of a catalyst with evidence. -/
def ShownThemesEvidenced (limit : Int) (weight : CatalystSummary → Nat)
    (items : List CatalystSummary) : Prop :=
  ∀ e ∈ slice limit (mostFrequent (tallyOf (themeWeights weight items))),
    ∃ item ∈ items, e.1 ∈ item.themeNames ∧ item.evidenceText ≠ ""

/-- The rows of themes and what is cut off are all themes, unless one that is shown has no
evidence. -/
theorem themeRows_add_cut {weight : CatalystSummary → Nat} {items : List CatalystSummary}
    {name : String} (hlimit : 0 ≤ limit) (hshown : ShownThemesEvidenced limit weight items) :
    ((evidencedRows plan name (themeEvidence items)
        (slice limit (mostFrequent (tallyOf (themeWeights weight items))))).length : Int) +
      cutCount (displayLimitExclusions
        (mostFrequent (tallyOf (themeWeights weight items))).length limit) =
      (items.flatMap (·.themeNames)).dedup.length := by
  have hevidence : ∀ e ∈ slice limit (mostFrequent (tallyOf (themeWeights weight items))),
      ((themeEvidence items).get? e.1).getD [] ≠ [] := fun e he =>
    themeEvidence_ne_nil.mpr (hshown e he)
  rw [length_evidencedRows_iff.mpr hevidence, shown_add_cut hlimit,
    length_mostFrequent_themeWeights]

theorem answerThemeFrequency_answered (hlimit : 0 ≤ limit)
    (hshown : ShownThemesEvidenced limit (fun _ => 1) (periodCatalysts plan repository))
    (h : answerThemeFrequency plan repository availability limit = .ok (.answered block)) :
    block.rows.length + cutCount block.exclusions =
      ((periodCatalysts plan repository).flatMap (·.themeNames)).dedup.length := by
  unfold answerThemeFrequency at h
  obtain ⟨period, hperiod, h⟩ := bind_eq_ok.mp h
  have hitems : periodCatalysts plan repository = repository.catalysts
      { dateFrom := some period.start, dateTo := some period.finish } := by
    rw [periodCatalysts, asserted_eq_ok.mp hperiod]
    rfl
  dsimp only at h
  rw [← hitems] at h
  split at h
  · cases h
  · split at h
    · cases h
      exact themeRows_add_cut hlimit hshown
    · cases h

theorem answerCatalystThemeReaction_accounted (hunit : plan.countUnit = .themeReaction)
    (hlimit : 0 ≤ limit)
    (hshown : ShownThemesEvidenced limit reactionWeight (matchedCatalysts plan repository))
    (h : answerCatalystThemeReaction plan repository availability limit = .ok (.answered block)) :
    block.rows.length + cutCount block.exclusions =
      ((matchedCatalysts plan repository).flatMap (·.themeNames)).dedup.length := by
  obtain ⟨-, hrows, hexclusions⟩ := answerCatalystThemeReaction_answered hunit h
  rw [hrows, hexclusions]
  exact themeRows_add_cut hlimit hshown

/-- The catalysts of the company of a plan in its period. -/
def companyCatalysts (plan : QueryPlan) (repository : ResearchRepository) : List CatalystSummary :=
  repository.catalysts
    { seedStockCode := plan.company.map (·.seedStockCode), dateFrom := plan.period.map (·.start)
      dateTo := plan.period.map (·.finish) }

/-- The catalysts in which the company of a plan takes part itself. -/
def directCatalysts (plan : QueryPlan) (repository : ResearchRepository) : List CatalystSummary :=
  repository.catalysts
    { seedStockCode := plan.company.map (·.seedStockCode), dateFrom := plan.period.map (·.start)
      dateTo := plan.period.map (·.finish), roles := directRoles }

theorem answerCompanyDirectEvent_answered (hlimit : 0 ≤ limit)
    (h : answerCompanyDirectEvent plan repository availability limit = .ok (.answered block)) :
    block.rows.length + cutCount block.exclusions = (directCatalysts plan repository).length := by
  unfold answerCompanyDirectEvent at h
  obtain ⟨company, hcompany, h⟩ := bind_eq_ok.mp h
  have hdirect : directCatalysts plan repository = repository.catalysts
      { seedStockCode := some company.seedStockCode, dateFrom := plan.period.map (·.start)
        dateTo := plan.period.map (·.finish), roles := directRoles } := by
    rw [directCatalysts, asserted_eq_ok.mp hcompany]
    rfl
  dsimp only at h
  rw [← hdirect] at h
  split at h
  · cases h
  · cases h
    dsimp only
    rw [List.length_map, cutCount_append, shown_add_cut hlimit]
    intro e he
    split at he
    · rw [List.mem_singleton.mp he]
      show "LEADER_OR_RELATED_ONLY" ≠ "DISPLAY_LIMIT"
      decide
    · cases he

/-- The facts that a plan asks for. -/
def planFacts (plan : QueryPlan) (repository : ResearchRepository) : List ValueFact :=
  selectedFacts plan (repository.valueFacts (valueFilterOf plan))

theorem map_snd_of_negatedFacts {selected : List ValueFact} {keyed : List (Decimal × ValueFact)}
    (h : selected.mapM negatedFact = .ok keyed) : keyed.map Prod.snd = selected := by
  have hall := forall₂_of_mapM_eq_ok h
  clear h
  induction hall with
  | nil => rfl
  | cons hfact _ ih =>
    unfold negatedFact at hfact
    obtain ⟨negated, -, hfact⟩ := bind_eq_ok.mp hfact
    cases hfact
    rw [List.map_cons, ih]

theorem length_uniqueFacts {selected unique : List ValueFact}
    (h : uniqueFacts selected = .ok unique) :
    unique.length = (selected.map (·.catalystId)).dedup.length := by
  unfold uniqueFacts at h
  obtain ⟨keyed, hkeyed, h⟩ := bind_eq_ok.mp h
  cases h
  rw [List.length_map, (List.perm_insertionSort _ _).length_eq, Dict.values, List.length_map]
  refine Dict.length_entries fun key => ?_
  rw [mem_keys_foldl_first fun e : Decimal × ValueFact => e.2.catalystId, List.mem_map,
    List.mem_map]
  simp only [(List.perm_insertionSort _ _).mem_iff, ← map_snd_of_negatedFacts hkeyed, List.mem_map]
  constructor
  · rintro ⟨e, he, rfl⟩
    exact ⟨e.2, ⟨e, he, rfl⟩, rfl⟩
  · rintro ⟨_, ⟨e, he, rfl⟩, rfl⟩
    exact ⟨e, he, rfl⟩

theorem answerCompanyValueSummary_answered (hlimit : 0 ≤ limit)
    (h : answerCompanyValueSummary plan repository availability limit = .ok (.answered block)) :
    block.rows.length + cutCount block.exclusions =
      ((planFacts plan repository).map (·.catalystId)).dedup.length := by
  unfold answerCompanyValueSummary at h
  dsimp only at h
  split at h
  · cases h
  split at h
  · cases h
  obtain ⟨unique, hunique, h⟩ := bind_eq_ok.mp h
  obtain ⟨total, -, h⟩ := bind_eq_ok.mp h
  cases h
  dsimp only
  rw [List.length_map, List.append_assoc, cutCount_declared (by decide),
    cutCount_declared (by decide), shown_add_cut hlimit, length_uniqueFacts hunique, planFacts]

/-- The observations that a plan asks for. -/
def planObservations (plan : QueryPlan) (repository : ResearchRepository)
    (availability : QueryAvailability) : List OutcomeObservation :=
  match plan.period with
  | none => []
  | some period =>
    let outcomeFilter :=
      outcomeFilterOf plan (max period.start availability.outcomeRangeFrom) period.finish
    if plan.company.isNone then repository.leaderOutcomes outcomeFilter (outcomeHorizons plan)
    else repository.outcomes outcomeFilter (outcomeHorizons plan)

/-- The events of some observations. -/
def eventKeys (observations : List OutcomeObservation) : List (String × Date) :=
  (observations.map fun item => (item.catalystId, item.occurredOn)).dedup

theorem length_outcomeEvents (observations : List OutcomeObservation) :
    (outcomeEvents observations).length = (eventKeys observations).length := by
  rw [outcomeEvents, ranked_perm.length_eq, eventKeys]
  refine Dict.length_entries fun key => ?_
  exact mem_keys_foldl_set (fun item : OutcomeObservation => (item.catalystId, item.occurredOn))
    (fun grouped item => (grouped.get? (item.catalystId, item.occurredOn)).getD [] ++ [item]) _

theorem answerCompanyHistoricalOutcome_answered (hlimit : 0 ≤ limit)
    (hsingle : ((planObservations plan repository availability).length : Int) ≤ limit ∨
      (planObservations plan repository availability).length =
        (eventKeys (planObservations plan repository availability)).length)
    (h : answerCompanyHistoricalOutcome plan repository availability limit =
      .ok (.answered block)) :
    block.rows.length + cutCount block.exclusions =
      (eventKeys (planObservations plan repository availability)).length := by
  unfold answerCompanyHistoricalOutcome at h
  obtain ⟨period, hperiod, h⟩ := bind_eq_ok.mp h
  have hobservations : planObservations plan repository availability =
      if plan.company.isNone then repository.leaderOutcomes (outcomeFilterOf plan
        (max period.start availability.outcomeRangeFrom) period.finish) (outcomeHorizons plan)
      else repository.outcomes (outcomeFilterOf plan
        (max period.start availability.outcomeRangeFrom) period.finish) (outcomeHorizons plan) := by
    rw [planObservations, asserted_eq_ok.mp hperiod]
  dsimp only at h
  split at h
  · cases h
  rw [← hobservations] at h
  generalize planObservations plan repository availability = observations at h hsingle ⊢
  split at h
  · cases h
  obtain ⟨rows, hrows, h⟩ := bind_eq_ok.mp h
  obtain ⟨metrics, -, h⟩ := bind_eq_ok.mp h
  obtain ⟨opening, -, h⟩ := bind_eq_ok.mp h
  cases h
  have hlength := (forall₂_of_mapM_eq_ok hrows).length_eq
  have hevents := length_outcomeEvents observations
  have hshown : ((slice limit (outcomeEvents observations)).length : Int) =
      min limit (outcomeEvents observations).length := length_slice hlimit
  have hle : (eventKeys observations).length ≤ observations.length := by
    have hkeys : (observations.map fun item => (item.catalystId, item.occurredOn)).length =
        observations.length := List.length_map _
    rw [eventKeys, ← hkeys]
    exact (List.dedup_sublist _).length_le
  have hcut := min_add_cutCount observations.length limit
  dsimp only
  rw [List.append_assoc, cutCount_append, cutCount_declared (by decide)]
  · rcases hsingle with hfits | hsingle <;> omega
  · intro e he
    split at he
    · rw [List.mem_singleton.mp he]
      show "OUT_OF_PRICE_RANGE" ≠ "DISPLAY_LIMIT"
      decide
    · cases he

variable [SetOrder]

/-- The other companies of a catalyst that the company of a plan shares. -/
def sharedPeers (plan : QueryPlan) (item : CatalystSummary) : List (String × String) :=
  match plan.company with
  | none => []
  | some company => peersOf company.seedStockCode item

/-- The counted companies of some catalysts, the most frequent ones first. -/
def rankedPeers (plan : QueryPlan) (items : List CatalystSummary) :
    List ((String × String) × Nat) :=
  ranked (fun e : (String × String) × Nat => toLex (-(e.2 : Int), e.1.1))
    (tallyOf (items.flatMap fun item => (sharedPeers plan item).map fun peer => (peer, 1))).entries

/-- Every company that is shown is one of a catalyst with evidence. -/
def ShownPeersEvidenced (limit : Int) (plan : QueryPlan) (items : List CatalystSummary) : Prop :=
  ∀ e ∈ slice limit (rankedPeers plan items),
    ∃ item ∈ items, e.1 ∈ sharedPeers plan item ∧ item.evidenceText ≠ ""

theorem length_rankedPeers (plan : QueryPlan) (items : List CatalystSummary) :
    (rankedPeers plan items).length = (items.flatMap (sharedPeers plan)).dedup.length := by
  have hkeys : ((items.flatMap fun item => (sharedPeers plan item).map fun peer => (peer, 1)).map
      Prod.fst) = items.flatMap (sharedPeers plan) := by
    rw [List.map_flatMap]
    simp [Function.comp_def]
  rw [rankedPeers, ranked_perm.length_eq, length_entries_tallyOf, hkeys]

theorem peerEvidence_ne_nil {items : List CatalystSummary} {peer : String × String} :
    ((bucketsOf 3 (items.flatMap fun item =>
        (sharedPeers plan item).map fun peer => (peer, catalystEvidence item))).get? peer).getD [] ≠
        [] ↔ ∃ item ∈ items, peer ∈ sharedPeers plan item ∧ item.evidenceText ≠ "" := by
  rw [bucketsOf_ne_nil (by decide)]
  simp only [List.mem_flatMap, List.mem_map]
  constructor
  · rintro ⟨_, ⟨item, hitem, peer, hpeer, rfl⟩, rfl, hevidence⟩
    exact ⟨item, hitem, hpeer, catalystEvidence_ne_nil.mp hevidence⟩
  · rintro ⟨item, hitem, hpeer, hevidence⟩
    exact ⟨_, ⟨item, hitem, peer, hpeer, rfl⟩, rfl, catalystEvidence_ne_nil.mpr hevidence⟩

theorem answerStockCooccurrence_answered (hlimit : 0 ≤ limit)
    (hshown : ShownPeersEvidenced limit plan (companyCatalysts plan repository))
    (h : answerStockCooccurrence plan repository availability limit = .ok (.answered block)) :
    block.rows.length + cutCount block.exclusions =
      ((companyCatalysts plan repository).flatMap (sharedPeers plan)).dedup.length := by
  unfold answerStockCooccurrence at h
  obtain ⟨company, hcompany, h⟩ := bind_eq_ok.mp h
  obtain ⟨period, hperiod, h⟩ := bind_eq_ok.mp h
  have hitems : companyCatalysts plan repository = repository.catalysts
      { seedStockCode := some company.seedStockCode, dateFrom := some period.start
        dateTo := some period.finish } := by
    rw [companyCatalysts, asserted_eq_ok.mp hcompany, asserted_eq_ok.mp hperiod]
    rfl
  have hpeers : peersOf company.seedStockCode = sharedPeers plan := by
    funext item
    rw [sharedPeers, asserted_eq_ok.mp hcompany]
  dsimp only at h
  rw [← hitems, hpeers] at h
  generalize companyCatalysts plan repository = items at h hshown ⊢
  split at h
  · cases h
  split at h
  · cases h
  split at h
  · cases h
  cases h
  dsimp only
  rw [← rankedPeers, List.filterMap_length_eq_length.mpr]
  · rw [shown_add_cut hlimit, length_rankedPeers]
  · intro e he
    have hevidence := peerEvidence_ne_nil.mpr (hshown e he)
    split
    · next hempty => exact absurd hempty hevidence
    · rfl

/-- The types of questions whose answers count groups. -/
def groupedTypes : List QueryType :=
  [.dayMovers, .themeFrequency, .catalystThemeReaction, .stockCooccurrence, .companyDirectEvent,
    .companyValueSummary, .companyHistoricalOutcome]

/-- How many groups the handler of a plan counts. -/
def groupCount (plan : QueryPlan) (repository : ResearchRepository)
    (availability : QueryAvailability) : Nat :=
  match plan.queryType with
  | .dayMovers => (daySections plan repository).length
  | .themeFrequency => ((periodCatalysts plan repository).flatMap (·.themeNames)).dedup.length
  | .catalystThemeReaction =>
    ((matchedCatalysts plan repository).flatMap (·.themeNames)).dedup.length
  | .stockCooccurrence =>
    ((companyCatalysts plan repository).flatMap (sharedPeers plan)).dedup.length
  | .companyDirectEvent => (directCatalysts plan repository).length
  | .companyValueSummary => ((planFacts plan repository).map (·.catalystId)).dedup.length
  | .companyHistoricalOutcome => (eventKeys (planObservations plan repository availability)).length
  | _ => 0

/-- Every group within the limit has evidence, and an event has one price if some are cut off. -/
def GroupsShown (plan : QueryPlan) (repository : ResearchRepository)
    (availability : QueryAvailability) (limit : Int) : Prop :=
  match plan.queryType with
  | .themeFrequency => ShownThemesEvidenced limit (fun _ => 1) (periodCatalysts plan repository)
  | .catalystThemeReaction =>
    ShownThemesEvidenced limit reactionWeight (matchedCatalysts plan repository)
  | .stockCooccurrence => ShownPeersEvidenced limit plan (companyCatalysts plan repository)
  | .companyHistoricalOutcome =>
    ((planObservations plan repository availability).length : Int) ≤ limit ∨
      (planObservations plan repository availability).length =
        (eventKeys (planObservations plan repository availability)).length
  | _ => True

/-- The rows and what is declared as cut off are all groups. The groups of a day are sections,
the themes of which make up the number that is reported. -/
theorem groups_accounted {today : Date} (htype : plan.queryType ∈ groupedTypes) (hlimit : 0 ≤ limit)
    (hshown : GroupsShown plan repository availability limit)
    (h : answerPlan plan repository availability today limit = .ok (.answered block)) :
    block.rows.length + cutCount block.exclusions = groupCount plan repository availability ∧
      (plan.queryType = .dayMovers →
        block.metrics.map (·.value) = [(dayThemes plan repository).length.repr] ∧
        (block.Uncut →
          (block.rows.map (·.numberOf "themeTotal")).sum =
          (dayThemes plan repository).length)) := by
  obtain ⟨hhandler, -⟩ := answerPlan_answered h
  have hunit := plan.countUnit_eq
  simp only [groupedTypes, List.mem_cons, List.not_mem_nil, or_false] at htype
  rcases htype with htype | htype | htype | htype | htype | htype | htype <;>
    simp only [groupCount, GroupsShown, htype] at hhandler hshown hunit ⊢
  · obtain ⟨hrows, hmetrics, hthemes⟩ := answerDayMovers_answered hlimit hhandler
    exact ⟨hrows, fun _ => ⟨hmetrics, hthemes⟩⟩
  · exact ⟨answerThemeFrequency_answered hlimit hshown hhandler, fun hday => by cases hday⟩
  · exact ⟨answerCatalystThemeReaction_accounted hunit hlimit hshown hhandler,
      fun hday => by cases hday⟩
  · exact ⟨answerStockCooccurrence_answered hlimit hshown hhandler, fun hday => by cases hday⟩
  · exact ⟨answerCompanyDirectEvent_answered hlimit hhandler, fun hday => by cases hday⟩
  · exact ⟨answerCompanyValueSummary_answered hlimit hhandler, fun hday => by cases hday⟩
  · exact ⟨answerCompanyHistoricalOutcome_answered hlimit hshown hhandler,
      fun hday => by cases hday⟩

omit [SetOrder]

theorem postInit_dayFields : ({ supplyFields .dayMovers with
    date := some ⟨supplyDay, "오늘", some .today⟩ } : QueryPlan.Fields).postInit = .ok () := by
  decide

theorem postInit_themeFields : (supplyFields .themeFrequency).postInit = .ok () :=
  postInit_supplyFields _ (by simp)

theorem postInit_outcomeFields : (supplyFields .companyHistoricalOutcome).postInit = .ok () :=
  postInit_supplyFields _ (by simp)

def dayPlan : QueryPlan :=
  ⟨{ supplyFields .dayMovers with date := some ⟨supplyDay, "오늘", some .today⟩ }, postInit_dayFields⟩

/-- Which themes were moved most often? -/
def themePlan : QueryPlan := ⟨supplyFields .themeFrequency, postInit_themeFields⟩

/-- How did prices go after contracts? -/
def outcomePlan : QueryPlan := ⟨supplyFields .companyHistoricalOutcome, postInit_outcomeFields⟩

/-- A report with one section of two themes. -/
def twoThemesDay : ResearchRepository :=
  { catalystRepository [] [] with
    readyPrerequisites := [.e22Stage1]
    dailyDay := fun d => ⟨d, .published, [⟨"조선", "선박 수주", [],
      [⟨"조선", some (.ofNat 3), []⟩, ⟨"LNG", some (.ofNat 2), []⟩]⟩], 1⟩ }

/-- Two stocks that led one event. -/
def twoLeaders : ResearchRepository :=
  { catalystRepository [] [] with
    readyPrerequisites := [.e22Stage6]
    leaderOutcomes := fun _ _ =>
      [⟨"1", supplyDay, "한화오션", none, none, .empty, none, "선박 수주", some "조선"⟩,
        ⟨"1", supplyDay, "삼성중공업", none, none, .empty, none, "선박 수주", some "조선"⟩] }

/-- Two events of different themes, the second one with some evidence. -/
def twoThemes (evidenceText : String) : ResearchRepository :=
  catalystRepository
    [supplyCatalyst "1" ["조선"] 1 "선박 수주", supplyCatalyst "2" ["LNG"] 1 evidenceText] []

/-- The rows of an answer and what it declares as cut off. -/
def accounted (result : Except Error AnswerResult) : Option Int :=
  match result with
  | .ok (.answered block) => some (block.rows.length + cutCount block.exclusions)
  | _ => none

/-- Two themes with evidence are accounted for when one of them is cut off. -/
theorem groups_accounted_twoThemes :
    letI : SetOrder := .plain
    ∃ block, answerPlan themePlan (twoThemes "가스 수주") everythingOpen supplyDay 1 =
        .ok (.answered block) ∧
      block.rows.length + cutCount block.exclusions =
        groupCount themePlan (twoThemes "가스 수주") everythingOpen := by
  let _ : SetOrder := .plain
  have hanswer : (accounted (answerPlan themePlan (twoThemes "가스 수주") everythingOpen
      supplyDay 1)).isSome = true := by
    decide
  have hgroups : GroupsShown themePlan (twoThemes "가스 수주") everythingOpen 1 := by
    change ShownThemesEvidenced 1 (fun _ => 1) (periodCatalysts themePlan (twoThemes "가스 수주"))
    unfold ShownThemesEvidenced
    decide
  have htype : themePlan.queryType ∈ groupedTypes := by decide
  unfold accounted at hanswer
  split at hanswer
  · next block hblock =>
    exact ⟨block, hblock, (groups_accounted htype (by decide) hgroups hblock).1⟩
  · cases hanswer

/-- One section with two themes is one row. A theme without evidence is neither shown nor
declared, an event with two prices is declared although its row is shown, and a limit below
zero is declared twice. -/
theorem groups_not_accounted :
    letI : SetOrder := .plain
    (accounted (answerPlan dayPlan twoThemesDay everythingOpen supplyDay 20) = some 1 ∧
      (dayThemes dayPlan twoThemesDay).length = 2) ∧
    (accounted (answerPlan themePlan (twoThemes "") everythingOpen supplyDay 20) = some 1 ∧
      groupCount themePlan (twoThemes "") everythingOpen = 2) ∧
    (accounted (answerPlan outcomePlan twoLeaders everythingOpen supplyDay 1) = some 2 ∧
      groupCount outcomePlan twoLeaders everythingOpen = 1) ∧
    accounted (answerPlan themePlan (twoThemes "가스 수주") everythingOpen supplyDay (-1)) = some 4 ∧
      groupCount themePlan (twoThemes "가스 수주") everythingOpen = 2 := by
  let _ : SetOrder := .plain
  refine ⟨⟨?_, ?_⟩, ⟨?_, ?_⟩, ⟨?_, ?_⟩, ?_, ?_⟩ <;> decide

end Dayjaview.Ontology
