import Dayjaview.Ontology.CatalystAnswers
import Dayjaview.Ontology.DailyAnswers

/-!
# The answer to a plan

A plan is answered by the handler of its type if the data it rests on is ready and its
type is open, and the answer is given out only if every row of it has evidence.
-/

namespace Dayjaview.Ontology

section

variable [SetOrder]

/-- The handler of a type of question. -/
def handler : QueryType → QueryPlan → ResearchRepository → QueryAvailability → Int →
    Except Error AnswerResult
  | .dayMovers => answerDayMovers
  | .periodSummary => answerPeriodSummary
  | .stockDayReason => answerStockDayReason
  | .stockTopMoves => answerStockTopMoves
  | .stockThemeMembership => answerStockThemeMembership
  | .stockCooccurrence => answerStockCooccurrence
  | .themeMembers => answerThemeMembers
  | .themeHistory => answerThemeHistory
  | .themeComparison => answerThemeComparison
  | .themeFrequency => answerThemeFrequency
  | .catalystThemeReaction => answerCatalystThemeReaction
  | .catalystFrequency => answerCatalystFrequency
  | .catalystCertainty => answerCatalystCertainty
  | .catalystContinuation => answerCatalystContinuation
  | .companyDirectEvent => answerCompanyDirectEvent
  | .companyValueSummary => answerCompanyValueSummary
  | .companyHistoricalOutcome => answerCompanyHistoricalOutcome

/-- The prerequisites of a plan that are not there. -/
def missingPrerequisites (plan : QueryPlan) (repository : ResearchRepository) :
    List QueryPrerequisite :=
  (queryContract plan.queryType).prerequisites.filter fun item =>
    item ≠ .none && !repository.readyPrerequisites.contains item

def answerPlan (plan : QueryPlan) (repository : ResearchRepository)
    (availability : QueryAvailability) (_today : Date) (limit : Int) :
    Except Error AnswerResult := do
  let missing := missingPrerequisites plan repository
  if missing ≠ [] then
    return failPlan plan .prerequisiteNotReady
      ("이 질문이 쓰는 데이터가 아직 준비되지 않았습니다: " ++
        ", ".intercalate (missing.map QueryPrerequisite.text))
  if plan.queryType = .companyHistoricalOutcome ∧ availability.outcomeGateOpen = false then
    return failPlan plan .outcomeGateClosed
      ("사건 이후 실제 주가는 가격 자료 검증을 통과한 뒤에 엽니다. " ++
        "지금은 과거 사건 목록만 답할 수 있습니다.")
  if availability.isOpen plan.queryType = false then
    return failPlan plan .qualityNotVerified
      "이 질문 유형은 아직 사람 검수를 통과하지 않아 수치를 내보내지 않습니다."
  match ← handler plan.queryType plan repository availability limit with
  | .failed failure => return .failed failure
  | .answered block =>
    if block.covered = false then
      return failPlan plan .insufficientEvidence
        "근거를 붙이지 못한 행이 있어 답변을 내보내지 않았습니다."
    return .answered block

theorem answerPlan_answered {plan : QueryPlan} {repository : ResearchRepository}
    {availability : QueryAvailability} {today : Date} {limit : Int} {block : AnswerBlock}
    (h : answerPlan plan repository availability today limit = .ok (.answered block)) :
    handler plan.queryType plan repository availability limit = .ok (.answered block) ∧
      block.covered = true := by
  unfold answerPlan failPlan at h
  dsimp only at h
  split_ifs at h with hmissing houtcome hopen
  · cases h
  · cases h
  · cases h
  · obtain ⟨result, hresult, hrest⟩ := bind_eq_ok.mp h
    cases result with
    | failed failure => cases hrest
    | answered found =>
      dsimp only at hrest
      split_ifs at hrest with hcovered
      · cases hrest
      · obtain rfl : found = block := by cases hrest; rfl
        exact ⟨hresult, by simpa using hcovered⟩

end

/-- What a block reports in a unit. -/
def AnswerBlock.totalIn (block : AnswerBlock) (unit : CountUnit) : Option String :=
  (block.metrics.find? (·.countUnit = some unit)).map (·.value)

/-- The number that a row reports under a name. -/
def AnswerRow.numberOf (row : AnswerRow) (name : String) : Int :=
  match row.values.lookup name with
  | some (.int n) => n
  | _ => 0

/-- How many groups are said to be cut off. -/
def cutCount (exclusions : List AnswerExclusion) : Int :=
  ((exclusions.find? (·.code = "DISPLAY_LIMIT")).map (·.count)).getD 0

/-- No group is said to be cut off. -/
def AnswerBlock.Uncut (block : AnswerBlock) : Prop :=
  ∀ e ∈ block.exclusions, e.code ≠ "DISPLAY_LIMIT"

@[simp] theorem asserted_eq_ok {α : Type} {slot : Option α} {a : α} :
    asserted slot = .ok a ↔ slot = some a := by
  cases slot with
  | none => simp [asserted]
  | some b => simp [asserted]

section
variable {α : Type} {limit : Int} {items : List α}

theorem slice_eq_self (h : (items.length : Int) ≤ limit) : slice limit items = items := by
  have hlimit : 0 ≤ limit := by omega
  rw [slice, if_pos hlimit, List.take_of_length_le (by omega)]

theorem length_slice (hlimit : 0 ≤ limit) :
    ((slice limit items).length : Int) = min limit items.length := by
  rw [slice, if_pos hlimit, List.length_take]
  omega

end

theorem displayLimitExclusions_uncut {total : Nat} {limit : Int} :
    (∀ e ∈ displayLimitExclusions total limit, e.code ≠ "DISPLAY_LIMIT") ↔ (total : Int) ≤
    limit := by
  unfold displayLimitExclusions
  split
  · next hfits => simp [hfits]
  · next hcut => simp [hcut]

theorem min_add_cutCount (total : Nat) (limit : Int) :
    min limit total + cutCount (displayLimitExclusions total limit) = total := by
  unfold displayLimitExclusions cutCount
  split
  · simp
    omega
  · simp
    omega

theorem length_evidencedRows_iff {plan : QueryPlan} {name : String}
    {evidence : Dict String (List AnswerEvidence)} {groups : List (String × Nat)} :
    (evidencedRows plan name evidence groups).length = groups.length ↔
      ∀ e ∈ groups, (evidence.get? e.1).getD [] ≠ [] := by
  rw [evidencedRows, List.filterMap_length_eq_length]
  refine forall₂_congr fun e _ => ?_
  split
  · next hempty => simp [hempty]
  · next found hnone => simpa using hnone

theorem sum_evidencedRows (plan : QueryPlan) (name : String)
    (evidence : Dict String (List AnswerEvidence)) (groups : List (String × Nat)) :
    ((evidencedRows plan name evidence groups).map (·.numberOf name)).sum =
      (((groups.filter fun e => (evidence.get? e.1).getD [] ≠ []).map Prod.snd).sum : Nat) := by
  induction groups with
  | nil => rfl
  | cons e groups ih =>
    have hcons : evidencedRows plan name evidence (e :: groups) =
        evidencedRows plan name evidence [e] ++ evidencedRows plan name evidence groups := by
      rw [evidencedRows, evidencedRows, evidencedRows, ← List.filterMap_append]
      rfl
    rw [hcons, List.map_append, List.sum_append, ih]
    by_cases hempty : (evidence.get? e.1).getD [] = []
    · simp [evidencedRows, hempty]
    · have hone : ((evidencedRows plan name evidence [e]).map (·.numberOf name)).sum = e.2 := by
        rw [evidencedRows, List.filterMap_cons]
        split
        · next hnone =>
          split at hnone
          · next hnil => exact absurd hnil hempty
          · cases hnone
        · next row hsome =>
          split at hsome
          · cases hsome
          · cases hsome
            simp [AnswerRow.numberOf, countValues]
      rw [hone, List.filter_cons_of_pos (by simpa using hempty)]
      simp

theorem sum_filter_eq_iff {α : Type} {p : α → Bool} {number : α → Nat} {items : List α}
    (hpos : ∀ a ∈ items, 0 < number a) :
    ((items.filter p).map number).sum = (items.map number).sum ↔ ∀ a ∈ items, p a = true := by
  constructor
  · induction items with
    | nil => simp
    | cons a items ih =>
      have hrest : ∀ b ∈ items, 0 < number b := fun b hb => hpos b (List.mem_cons_of_mem _ hb)
      have hle : ((items.filter p).map number).sum ≤ (items.map number).sum :=
        (List.filter_sublist.map number).sum_le_sum fun _ _ => Nat.zero_le _
      have hhead : 0 < number a := hpos a List.mem_cons_self
      intro hsum
      by_cases hp : p a = true
      · rw [List.filter_cons_of_pos hp, List.map_cons, List.map_cons, List.sum_cons, List.sum_cons]
          at hsum
        have htail := ih hrest (by omega)
        intro b hb
        rcases List.mem_cons.mp hb with rfl | hb
        · exact hp
        · exact htail b hb
      · rw [List.filter_cons_of_neg hp, List.map_cons, List.sum_cons] at hsum
        omega
  · intro hall
    rw [List.filter_eq_self.mpr hall]

/-- A repository that holds nothing but some catalysts and amounts. -/
def catalystRepository (items : List CatalystSummary) (facts : List ValueFact) :
    ResearchRepository where
  versions := .empty
  readyPrerequisites := [.e17LabelsDb, .e22Stage3, .e22Stage4]
  dailyDay d := ⟨d, .noRecord, [], 0⟩
  dailyDays _ _ := []
  stockDailyRows _ _ _ := []
  themeDailyChanges _ _ _ := []
  themeMembers _ := []
  stockThemeMemberships _ := []
  themeHistory _ _ _ := []
  catalysts _ := items
  valueFacts _ := facts
  outcomes _ _ := []
  leaderOutcomes _ _ := []

def supplyDay : Date := .august 3

/-- A contract that moved some themes. -/
def supplyCatalyst (catalystId : String) (themeNames : List String) (reactions : Nat)
    (evidenceText : String) : CatalystSummary where
  catalystId
  occurredOn := some supplyDay
  primaryCatalystNameKo := some "공급계약"
  eventStage := "SIGNED"
  certainty := "CONFIRMED"
  noveltyType := "NEW"
  action := none
  projectId := none
  geographyCodes := []
  themeNames
  companyRoles := []
  sourceRecordCount := 1
  themeReactionCount := reactions
  evidenceText
  evidenceStart := 0
  evidenceEnd := 4

/-- A question about contracts on one day. -/
def supplyFields (queryType : QueryType) : QueryPlan.Fields where
  queryType
  countUnit := (queryContract queryType).countUnit
  direction := none
  date := none
  period := some ⟨supplyDay, supplyDay, "오늘", some .today, le_refl _⟩
  company := none
  themes := []
  catalystType := some ⟨"SUPPLY_CONTRACT", "공급계약", "공급계약"⟩
  amountCondition := none
  topic := none
  outcomeHorizon := none
  plannerVersion := "query-planner/1.0.0"
  contractVersion := queryContractVersion

theorem postInit_supplyFields : ∀ queryType ∈ [QueryType.themeFrequency, .catalystThemeReaction,
    .catalystFrequency, .companyHistoricalOutcome], (supplyFields queryType).postInit = .ok () := by
  decide

/-- Every type of question is open. -/
def everythingOpen : QueryAvailability := ⟨[], true, supplyDay, true⟩

end Dayjaview.Ontology
