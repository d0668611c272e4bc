import Dayjaview.Ontology.AnswerablePlans
import Dayjaview.Ontology.PlanKeys

/-!
# Answers under one cache key

Plans with one key that also have one topic are answered alike by every repository. The
topic is not part of the key, but every answer repeats it, so plans with different
topics are answered differently by some repository.
-/

namespace Dayjaview.Ontology

/-- Whatever is answered repeats how the plan was understood. -/
def RepeatsPlan (plan : QueryPlan) (result : Except Error AnswerResult) : Prop :=
  ∀ block, result = .ok (.answered block) → ∃ extra, block.interpretation =
  interpretation plan extra

section
variable {plan : QueryPlan} {repository : ResearchRepository} {availability : QueryAvailability}

theorem repeatsPlan_bind {α : Type} {x : Except Error α} {f : α → Except Error AnswerResult}
    (h : ∀ a, RepeatsPlan plan (f a)) : RepeatsPlan plan (x >>= f) := by
  intro block hblock
  obtain ⟨a, -, ha⟩ := bind_eq_ok.mp hblock
  exact h a block ha

theorem repeatsPlan_failed (failure : PlanFailure) :
    RepeatsPlan plan (pure (.failed failure)) := by
  intro block hblock
  cases hblock

theorem repeatsPlan_ite {p : Prop} [Decidable p] {x y : Except Error AnswerResult}
    (hx : RepeatsPlan plan x) (hy : RepeatsPlan plan y) :
    RepeatsPlan plan (if p then x else y) := by
  split
  · exact hx
  · exact hy

theorem repeatsPlan_answerBlock (extra : List (String × Json)) (summaryKo : String)
    (metrics : List AnswerMetric) (rows : List AnswerRow) (exclusions : List AnswerExclusion)
    (sampleSize : Nat) (notesKo : List String) :
    RepeatsPlan plan (pure (answerBlock plan repository availability extra summaryKo metrics rows
      exclusions sampleSize notesKo)) := by
  intro block hblock
  cases hblock
  exact ⟨extra, rfl⟩

variable [SetOrder]

theorem repeatsPlan_handler (queryType : QueryType) (limit : Int) :
    RepeatsPlan plan (handler queryType plan repository availability limit) := by
  cases queryType <;> dsimp only [handler] <;>
    first
      | unfold answerDayMovers
      | unfold answerPeriodSummary
      | unfold answerStockDayReason
      | unfold answerStockTopMoves
      | unfold answerStockThemeMembership
      | unfold answerStockCooccurrence
      | unfold answerThemeMembers
      | unfold answerThemeHistory
      | unfold answerThemeComparison
      | unfold answerThemeFrequency
      | unfold answerCatalystThemeReaction
      | unfold answerCatalystFrequency
      | unfold answerCatalystCertainty
      | unfold answerCatalystContinuation
      | unfold answerCompanyDirectEvent
      | unfold answerCompanyValueSummary
      | unfold answerCompanyHistoricalOutcome
  -- A handler is a chain of steps and checks that ends in a failure or in a block.
  all_goals
    repeat' first
      | exact repeatsPlan_failed _
      | exact repeatsPlan_answerBlock _ _ _ _ _ _ _
      | refine repeatsPlan_bind fun _ => ?_
      | refine repeatsPlan_ite ?_ ?_
      | (dsimp only; split)

end

section
variable {p q : QueryPlan}

theorem AmountCondition.Alike.matches_eq {a b : AmountCondition} (h : a.Alike b)
    (amount : Decimal) : a.matches amount = b.matches amount := by
  obtain ⟨-, hcomparator, hvalue, -⟩ := h
  unfold AmountCondition.matches
  rw [hcomparator]
  cases b.comparator <;> simp [Decimal.le_iff_value, Decimal.lt_iff_value, hvalue]

theorem AmountCondition.Alike.positive_iff {a b : AmountCondition} (h : a.Alike b) :
    Decimal.zero < a.normalizedValue ↔ Decimal.zero < b.normalizedValue := by
  rw [Decimal.lt_iff_value, Decimal.lt_iff_value, h.2.2.1]

theorem Alike.selectedFacts_eq (h : Alike p q) : selectedFacts p = selectedFacts q := by
  funext facts
  have hamount := h.amountCondition
  unfold selectedFacts
  generalize p.amountCondition = a, q.amountCondition = b at hamount
  cases hamount with
  | none => rfl
  | some hcondition =>
    dsimp only
    simp only [hcondition.positive_iff, hcondition.matches_eq]

theorem Alike.interpretation_eq (h : Alike p q) (htopic : p.topic = q.topic) :
    interpretation p = interpretation q := by
  have hamount : QueryPlan.optionalDict AmountCondition.asDict p.amountCondition =
      QueryPlan.optionalDict AmountCondition.asDict q.amountCondition := by
    have hrel := h.amountCondition
    generalize p.amountCondition = a, q.amountCondition = b at hrel
    cases hrel with
    | none => rfl
    | some hcondition => exact hcondition.1
  funext extra
  rw [interpretation, interpretation, hamount, htopic, h.queryType, h.countUnit,
    h.direction, h.date, h.period, h.company, h.themes, h.catalystType]

theorem Alike.answerBlock_eq (h : Alike p q) (htopic : p.topic = q.topic) :
    answerBlock p = answerBlock q := by
  funext repository availability extra summaryKo metrics rows exclusions sampleSize notesKo
  rw [answerBlock, answerBlock, h.interpretation_eq htopic, answerVersions, answerVersions,
    h.queryType, h.countUnit, h.plannerVersion, h.contractVersion]

variable [SetOrder]

theorem Alike.handler_eq (h : Alike p q) (htopic : p.topic = q.topic) (queryType : QueryType) :
    handler queryType p = handler queryType q := by
  have hblock := h.answerBlock_eq htopic
  have hselected := h.selectedFacts_eq
  obtain ⟨⟨_, _, _, _, _, _, _, _, _, _, _, _, _⟩, _⟩ := p
  obtain ⟨⟨_, _, _, _, _, _, _, _, _, _, _, _, _⟩, _⟩ := q
  obtain ⟨rfl, rfl, rfl, rfl, rfl, rfl, rfl, rfl, -, rfl, rfl, rfl⟩ := h
  obtain rfl := htopic
  -- The plans differ in the form of an amount, which only blocks and selected facts depend on.
  cases queryType <;> dsimp only [handler]
  case dayMovers => unfold answerDayMovers; rw [hblock]; rfl
  case periodSummary => unfold answerPeriodSummary; rw [hblock]; rfl
  case stockDayReason => unfold answerStockDayReason; rw [hblock]; rfl
  case stockTopMoves => unfold answerStockTopMoves; rw [hblock]; rfl
  case stockThemeMembership => unfold answerStockThemeMembership; rw [hblock]; rfl
  case stockCooccurrence => unfold answerStockCooccurrence; rw [hblock]; rfl
  case themeMembers => unfold answerThemeMembers; rw [hblock]; rfl
  case themeHistory => unfold answerThemeHistory; rw [hblock]; rfl
  case themeComparison => unfold answerThemeComparison; rw [hblock]; rfl
  case themeFrequency => unfold answerThemeFrequency; rw [hblock]; rfl
  case catalystThemeReaction => unfold answerCatalystThemeReaction; rw [hblock]; rfl
  case catalystFrequency => unfold answerCatalystFrequency; rw [hblock]; rfl
  case catalystCertainty => unfold answerCatalystCertainty; rw [hblock]; rfl
  case catalystContinuation => unfold answerCatalystContinuation; rw [hblock]; rfl
  case companyDirectEvent => unfold answerCompanyDirectEvent; rw [hblock]; rfl
  case companyValueSummary => unfold answerCompanyValueSummary; rw [hblock, hselected]; rfl
  case companyHistoricalOutcome => unfold answerCompanyHistoricalOutcome; rw [hblock]; rfl

omit [SetOrder] in
theorem Alike.valueSummary_eq (h : Alike p q)
    (hnone : ¬∃ amount, Asked p amount ∧ Summable amount) :
    answerCompanyValueSummary p = answerCompanyValueSummary q := by
  funext repository availability limit
  have hfilter : valueFilterOf p = valueFilterOf q := by
    rw [valueFilterOf, valueFilterOf, h.company, h.catalystType, h.period]
  have hnoRecord : noRecord p = noRecord q := by
    funext message
    rw [noRecord, noRecord, failPlan, failPlan, h.queryType]
  unfold answerCompanyValueSummary
  dsimp only
  rw [hfilter, hnoRecord, h.selectedFacts_eq]
  split
  · rfl
  split
  · rfl
  next hne =>
  cases hunique : uniqueFacts (selectedFacts q (repository.valueFacts (valueFilterOf q))) with
  | error e => rfl
  | ok unique =>
    cases htotal : Decimal.sum Decimal.defaultPrec (unique.map (·.normalizedValue)) with
    | error e =>
      rw [ok_bind, ok_bind, htotal]
      rfl
    | ok total =>
      obtain ⟨fact, hfact, hsummable⟩ := exists_summable hne hunique htotal
      rw [← h.selectedFacts_eq] at hfact
      exact absurd ⟨_, asked_of_mem_selectedFacts hfact, hsummable⟩ hnone

theorem Alike.answerPlan_eq (h : Alike p q) {repository : ResearchRepository}
    {availability : QueryAvailability} {today : Date} {limit : Int}
    (hhandler : handler p.queryType p repository availability limit =
      handler p.queryType q repository availability limit) :
    answerPlan p repository availability today limit =
      answerPlan q repository availability today limit := by
  have hmissing : missingPrerequisites p repository = missingPrerequisites q repository := by
    rw [missingPrerequisites, missingPrerequisites, h.queryType]
  have hfail : failPlan p = failPlan q := by
    funext reason message
    rw [failPlan, failPlan, h.queryType]
  rw [answerPlan, answerPlan, hhandler, hmissing, hfail, h.queryType]

end

variable [SetOrder] [Sha256]

/-- Plans with one key are answered alike by every repository exactly if they have one topic, or
ask for amounts that cannot be added up. -/
theorem cacheKey_sound_iff (hinj : Function.Injective (hexdigest : String → String))
    {p q : QueryPlan} {versions : Dict String String}
    (hkey : p.cacheKey versions = q.cacheKey versions) :
    (∀ repository, repository.versions = versions → ∀ availability today limit,
      answerPlan p repository availability today limit =
        answerPlan q repository availability today limit) ↔
    p.topic = q.topic ∨ p.queryType = .companyValueSummary ∧
      ¬∃ amount, Asked p amount ∧ Summable amount := by
  have halike := alike_of_cacheKey_eq hinj hkey
  constructor
  · intro hsound
    by_cases hanswer : p.queryType = .companyValueSummary → ∃ amount, Asked p amount ∧
      Summable amount
    · obtain ⟨repository, availability, hversions, block, hblock⟩ :=
        exists_answer p versions hanswer
      have hsame := hsound repository hversions availability supplyDay 20
      rw [hblock] at hsame
      obtain ⟨extra, hextra⟩ := repeatsPlan_handler _ _ block (answerPlan_answered hblock).1
      obtain ⟨extra', hextra'⟩ := repeatsPlan_handler _ _ block (answerPlan_answered hsame.symm).1
      rw [hextra, interpretation, interpretation] at hextra'
      simp only [List.cons_append, List.cons.injEq, Prod.mk.injEq, true_and] at hextra'
      have htopic := hextra'.2.2.2.2.2.2.2.2.2.2.1
      refine .inl ?_
      exact optionalText_map_injective Function.injective_id (by simpa using htopic)
    · rw [Classical.not_imp] at hanswer
      exact .inr hanswer
  · rintro (htopic | ⟨htype, hnone⟩) repository - availability today limit
    · exact halike.answerPlan_eq (by rw [halike.handler_eq htopic])
    · refine halike.answerPlan_eq ?_
      rw [htype]
      exact congrFun (congrFun (congrFun (halike.valueSummary_eq hnone) _) _) _

/-- A question about large contracts. -/
def amountFields (amount : Decimal) : QueryPlan.Fields :=
  { supplyFields .companyValueSummary with
    amountCondition := some ⟨.gte, amount, "KRW", "100원 이상"⟩ }

omit [SetOrder] [Sha256]

theorem postInit_amountFields : ∀ amount ∈ [(⟨false, 100, 0⟩ : Decimal), ⟨false, 1, 2⟩],
    (amountFields amount).postInit = .ok () := by
  decide

theorem postInit_hundred : (amountFields ⟨false, 100, 0⟩).postInit = .ok () :=
  postInit_amountFields _ (by simp)

theorem postInit_oneHundred : (amountFields ⟨false, 1, 2⟩).postInit = .ok () :=
  postInit_amountFields _ (by simp)

/-- A number that is written 100. -/
def hundredPlan : QueryPlan := ⟨amountFields ⟨false, 100, 0⟩, postInit_hundred⟩

/-- The same number, written with an exponent. -/
def oneHundredPlan : QueryPlan := ⟨amountFields ⟨false, 1, 2⟩, postInit_oneHundred⟩

theorem fixedText_oneHundred :
    Decimal.fixedText ⟨false, 1, 2⟩ = Decimal.fixedText ⟨false, 100, 0⟩ := by
  decide

/-- The two forms of a number have one key and the same answers. -/
theorem cacheKey_sound_hundred :
    letI : Sha256 := .ofTable []
    letI : SetOrder := .plain
    hundredPlan.cacheKey .empty = oneHundredPlan.cacheKey .empty ∧
      ∀ repository, repository.versions = .empty → ∀ availability today limit,
        answerPlan hundredPlan repository availability today limit =
          answerPlan oneHundredPlan repository availability today limit := by
  let _ : Sha256 := .ofTable []
  let _ : SetOrder := .plain
  have hkey : hundredPlan.cacheKey .empty = oneHundredPlan.cacheKey .empty := by
    unfold QueryPlan.cacheKey QueryPlan.asDict
    simp only [hundredPlan, oneHundredPlan, amountFields, QueryPlan.optionalDict,
      AmountCondition.asDict, fixedText_oneHundred]
  exact ⟨hkey, (cacheKey_sound_iff (hexdigest_ofTable_injective []) hkey).mpr (.inl rfl)⟩

/-- A question about contracts in a topic. -/
def topicFields (topic : String) : QueryPlan.Fields :=
  { supplyFields .catalystThemeReaction with topic := some topic }

theorem postInit_topicFields : ∀ topic ∈ ["로봇", "조선"], (topicFields topic).postInit = .ok () := by
  decide

theorem postInit_robots : (topicFields "로봇").postInit = .ok () := postInit_topicFields _ (by simp)

theorem postInit_ships : (topicFields "조선").postInit = .ok () := postInit_topicFields _ (by simp)

/-- Which themes did contracts about robots move? -/
def robotPlan : QueryPlan := ⟨topicFields "로봇", postInit_robots⟩

/-- Which themes did contracts about ships move? -/
def shipPlan : QueryPlan := ⟨topicFields "조선", postInit_ships⟩

/-- A repository with a contract about ships. -/
def shipRepository : ResearchRepository :=
  { catalystRepository [] [] with
    catalysts := fun asked =>
      if asked.topicText = some "조선" then [supplyCatalyst "1" ["조선"] 1 "조선 선박 수주"] else [] }

/-- Questions about two topics have one key and different answers. -/
theorem cacheKey_of_topics :
    letI : Sha256 := .ofTable []
    letI : SetOrder := .plain
    Function.Injective (hexdigest : String → String) ∧
      robotPlan.cacheKey .empty = shipPlan.cacheKey .empty ∧
      accounted (answerPlan robotPlan shipRepository everythingOpen supplyDay 20) = none ∧
      accounted (answerPlan shipPlan shipRepository everythingOpen supplyDay 20) = some 1 ∧
      answerPlan robotPlan shipRepository everythingOpen supplyDay 20 ≠
        answerPlan shipPlan shipRepository everythingOpen supplyDay 20 := by
  let _ : Sha256 := .ofTable []
  let _ : SetOrder := .plain
  have hrobots : accounted (answerPlan robotPlan shipRepository everythingOpen supplyDay 20) =
      none := by
    decide
  have hships : accounted (answerPlan shipPlan shipRepository everythingOpen supplyDay 20) =
      some 1 := by
    decide
  refine ⟨hexdigest_ofTable_injective [], rfl, hrobots, hships, fun h => ?_⟩
  rw [h, hships] at hrobots
  exact absurd hrobots (by decide)

end Dayjaview.Ontology
