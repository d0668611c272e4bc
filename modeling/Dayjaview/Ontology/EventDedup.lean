import Dayjaview.Core.Grouping
import Dayjaview.Ontology.EventClauses
import Dayjaview.Ontology.EventModels

/-!
# Catalysts and their projects

The clauses of a record become drafts, and drafts of one event are merged into a catalyst. The
catalysts of a project advance from stage to stage, and catalysts that may be duplicates are kept
apart and related.
-/

namespace Dayjaview.Ontology

def EVENT_STRUCTURE_TRANSFORM_VERSION : String := "event-structure-transform/1.0.11"

/-- A history record with its companies, as far as its drafts name it. -/
structure HistoryCompanyRoleLabel where
  companyMasterVersion : String
  sourceThemeId : String
  sourceHistoryKey : String
  eventDate : Option Date
  historyContentHash : String
  rawText : String

section
variable [Sha256]

/-- The mention of a clause of a record. -/
def sourceMention (label : HistoryCompanyRoleLabel) (clause : ClauseSpan) : SourceMentionDraft :=
  let mention : SourceMentionDraft := {
    sourceThemeId := label.sourceThemeId
    sourceHistoryKey := label.sourceHistoryKey
    clauseOrder := clause.sourceOrder
    sourceRevisionHash := label.historyContentHash
    sourceTextHash := hexdigest clause.text
    start := clause.start
    finish := clause.stop
    transformVersion := EVENT_STRUCTURE_TRANSFORM_VERSION
    outputHash := "" }
  { mention with outputHash := jsonDigest mention.payload }

variable [Compatibility] [UnicodeTable]
  (read : HistoryCompanyRoleLabel → ClauseSpan → CatalystDraft) (normalized : String → String)
  (label : HistoryCompanyRoleLabel) (datasetHash : String)

/-- The draft of a clause. The vocabularies and patterns read what is not set here. -/
def structureClause (clause : ClauseSpan) : CatalystDraft :=
  let reading := read label clause
  let fingerprint := reading.projectReference.map fun reference =>
    jsonDigest (.obj [("reference", .str (normalized reference))])
  let draft := { reading with
    sourceMention := sourceMention label clause
    rawText := clause.text
    occurredOn := label.eventDate
    knownOn := label.eventDate
    projectFingerprint := fingerprint
    projectId := fingerprint.map fun digest => "project_" ++ takeText 24 digest
    companyMasterVersion := label.companyMasterVersion
    transformVersion := EVENT_STRUCTURE_TRANSFORM_VERSION
    datasetHash
    contentHash := hexdigest clause.text }
  { draft with dedupKey := jsonDigest draft.identity }

/-- The drafts of a record, one for each clause. -/
def structureHistoryCatalysts : List CatalystDraft :=
  (splitEventClauses label.rawText).map (structureClause read normalized label datasetHash)

/-- The drafts of a record are structured. -/
theorem structured_of_mem {d : CatalystDraft}
    (h : d ∈ structureHistoryCatalysts read normalized label datasetHash) : d.Structured := by
  obtain ⟨clause, -, rfl⟩ := List.mem_map.mp h
  refine ⟨rfl, rfl, fun hproject => ?_⟩
  cases hreference : (read label clause).projectReference with
  | none => simp [structureClause, hreference] at hproject
  | some reference => simp [structureClause, hreference]

end

theorem validDate_max : ValidDate 9999 12 31 := by decide

theorem validDate_min : ValidDate 1 1 1 := by decide

/-- The last day of the calendar. -/
def maxDate : Date := ⟨9999, 12, 31, validDate_max⟩

/-- The first day of the calendar. -/
def minDate : Date := ⟨1, 1, 1, validDate_min⟩

/-- How two catalysts are related. -/
inductive CatalystRelationType where
  | advances
  | possibleDuplicate
  deriving DecidableEq

def CatalystRelationType.value : CatalystRelationType → String
  | advances => "ADVANCES"
  | possibleDuplicate => "POSSIBLE_DUPLICATE"

structure AggregateCounts where
  sourceRecordCount : Nat
  themeReactionCount : Nat
  uniqueCatalystCount : Nat
  projectCount : Nat

/-- The place of a mention among the mentions of an event. -/
def mentionRank (m : SourceMentionDraft) : String ×ₗ String ×ₗ Nat ×ₗ String :=
  toLex (m.sourceThemeId, toLex (m.sourceHistoryKey, toLex (m.clauseOrder, m.outputHash)))

def draftSortKey (d : CatalystDraft) : Bool ×ₗ Date ×ₗ String ×ₗ String ×ₗ Nat ×ₗ String :=
  toLex (d.occurredOn.isNone, toLex (d.occurredOn.getD maxDate, mentionRank d.sourceMention))

/-- The mentions of some drafts, one for each digest. -/
def uniqueMentions (drafts : List CatalystDraft) : List SourceMentionDraft :=
  ranked mentionRank (Dict.ofList (drafts.map fun d =>
    (d.sourceMention.outputHash, d.sourceMention))).values

def reactionRank (r : ThemeReactionDraft) : Bool ×ₗ Date ×ₗ String ×ₗ String ×ₗ String :=
  toLex (r.occurredOn.isNone, toLex (r.occurredOn.getD maxDate,
    toLex (r.sourceThemeId, toLex (r.sourceHistoryKey, r.reactionKey))))

/-- The reactions of some drafts, one for each key. -/
def uniqueReactions (drafts : List CatalystDraft) : List ThemeReactionDraft :=
  ranked reactionRank
  (Dict.ofList (drafts.map fun d => (d.reaction.reactionKey, d.reaction))).values

structure CanonicalCatalyst.Fields where
  catalystId : String
  dedupKey : String
  drafts : List CatalystDraft
  sourceMentions : List SourceMentionDraft
  themeReactions : List ThemeReactionDraft

/-- The id of the catalyst with a key. -/
def catalystIdOf (dedupKey : String) : String := "catalyst_" ++ takeText 24 dedupKey

/-- The checks of a catalyst, in order. -/
def CanonicalCatalyst.Fields.postInit (c : CanonicalCatalyst.Fields) : Except Error Unit := do
  ensure (c.drafts ≠ []) "고유 사건에는 원천 초안이 하나 이상 필요합니다."
  ensure (c.catalystId = catalystIdOf c.dedupKey) "catalyst_id와 dedup key가 맞지 않습니다."
  ensure (∀ d ∈ c.drafts, d.dedupKey = c.dedupKey)
    "서로 다른 자동 병합 key의 사건을 합칠 수 없습니다."
  ensure (ranked draftSortKey c.drafts = c.drafts) "사건 초안 순서는 결정론적으로 정렬돼야 합니다."
  ensure ((c.drafts.map CatalystDraft.versions).dedup.length = 1)
    "서로 다른 dataset·변환 버전의 초안을 한 번에 합칠 수 없습니다."

/-- An event with all its drafts. -/
structure CanonicalCatalyst extends CanonicalCatalyst.Fields where
  valid : toFields.postInit = .ok ()

/-- Build a catalyst, or report the first failed check. -/
def CanonicalCatalyst.make (c : CanonicalCatalyst.Fields) : Except Error CanonicalCatalyst :=
  checked CanonicalCatalyst.Fields.postInit CanonicalCatalyst.mk c

theorem CanonicalCatalyst.Fields.postInit_eq_ok {c : CanonicalCatalyst.Fields} :
    c.postInit = .ok () ↔ c.drafts ≠ [] ∧ c.catalystId = catalystIdOf c.dedupKey ∧
      (∀ d ∈ c.drafts, d.dedupKey = c.dedupKey) ∧ ranked draftSortKey c.drafts = c.drafts ∧
        (c.drafts.map CatalystDraft.versions).dedup.length = 1 := by
  simp [postInit]

namespace CanonicalCatalyst

theorem drafts_ne_nil (c : CanonicalCatalyst) : c.drafts ≠ [] :=
  (Fields.postInit_eq_ok.mp c.valid).1

/-- The first draft of a catalyst. -/
def primary (c : CanonicalCatalyst) : CatalystDraft := c.drafts.head c.drafts_ne_nil

theorem primary_mem (c : CanonicalCatalyst) : c.primary ∈ c.drafts := List.head_mem _

end CanonicalCatalyst

structure ProjectDraft where
  projectId : String
  projectFingerprint : String
  reference : String
  catalystIds : List String
  firstOccurredOn : Option Date
  lastOccurredOn : Option Date
  latestStage : EventStage

structure CatalystRelationDraft.Fields where
  fromCatalystId : String
  toCatalystId : String
  relationType : CatalystRelationType
  reason : String

def CatalystRelationDraft.Fields.postInit (r : CatalystRelationDraft.Fields) : Except Error Unit :=
  ensure (r.fromCatalystId ≠ r.toCatalystId) "사건은 자기 자신과 관계를 맺을 수 없습니다."

/-- A relation between two catalysts. -/
structure CatalystRelationDraft extends CatalystRelationDraft.Fields where
  valid : toFields.postInit = .ok ()

/-- Build a relation, or report the failed check. -/
def CatalystRelationDraft.make (r : CatalystRelationDraft.Fields) :
    Except Error CatalystRelationDraft :=
  checked CatalystRelationDraft.Fields.postInit CatalystRelationDraft.mk r

/-- The place of a catalyst in its project. -/
def projectSortKey (c : CanonicalCatalyst) : Bool ×ₗ Date ×ₗ Nat ×ₗ String :=
  toLex (c.primary.occurredOn.isNone, toLex (c.primary.occurredOn.getD maxDate,
    toLex (eventStageRank c.primary.eventStage, c.catalystId)))

/-- How recent a catalyst of a project is. -/
def stageSortKey (c : CanonicalCatalyst) : Date ×ₗ Nat ×ₗ String :=
  toLex
  (c.primary.occurredOn.getD minDate, toLex (eventStageRank c.primary.eventStage, c.catalystId))

/-- The later one of two neighbours has come further. -/
def advance (pair : CanonicalCatalyst × CanonicalCatalyst) :
    Except Error (Option CatalystRelationDraft) :=
  if eventStageRank pair.2.primary.eventStage ≤ eventStageRank pair.1.primary.eventStage then
      .ok none
  else do
    let relation ← CatalystRelationDraft.make {
      fromCatalystId := pair.1.catalystId
      toCatalystId := pair.2.catalystId
      relationType := .advances
      reason := "같은 명시 프로젝트에서 날짜·단계가 앞으로 진행됨" }
    return some relation

/-- The catalysts of a project with a day, in order. -/
def datedMembers (members : List CanonicalCatalyst) : List CanonicalCatalyst :=
  (ranked projectSortKey members).filter fun c => c.primary.occurredOn.isSome

/-- A project with the steps between its catalysts. -/
def buildProject (projectId : String) (members : List CanonicalCatalyst) :
    Except Error (ProjectDraft × List CatalystRelationDraft) := do
  let ordered := ranked projectSortKey members
  match ordered.head?, latestOf stageSortKey ordered with
  | some first, some latest =>
    match first.primary.projectFingerprint, first.primary.projectReference with
    | some fingerprint, some reference =>
      let dates := ordered.filterMap (·.primary.occurredOn)
      let advances ← (neighbours (datedMembers members)).mapM advance
      return ({
        projectId := projectId
        projectFingerprint := fingerprint
        reference := reference
        catalystIds := ordered.map (·.catalystId)
        firstOccurredOn := dates.min?
        lastOccurredOn := dates.max?
        latestStage := latest.primary.eventStage }, advances.filterMap id)
    | _, _ => .error ⟨.valueError, "프로젝트 연결 사건에 fingerprint·reference가 없습니다."⟩
  -- A project has a catalyst.
  | _, _ => .error ⟨.indexError, "tuple index out of range"⟩

/-- The projects of some catalysts with the steps between these. -/
def buildProjects (catalysts : List CanonicalCatalyst) :
    Except Error (List ProjectDraft × List CatalystRelationDraft) := do
  let linked := catalysts.filter fun c => c.primary.projectId.isSome
  let built ← (sortedGroups (fun c => c.primary.projectId.getD "") linked).mapM fun e =>
    buildProject e.1 e.2
  return (built.map Prod.fst, built.flatMap Prod.snd)

/-- The companies of a catalyst. -/
def companyCodesOf (c : CanonicalCatalyst) : List String :=
  sortedSet (c.drafts.flatMap fun d => d.companyRoles.map (·.seedStockCode))

def valueSignature (c : CanonicalCatalyst) : List (String ×ₗ String ×ₗ String) :=
  ranked id (c.drafts.flatMap fun d => d.values.map fun v =>
    (toLex (v.factType.value, toLex (v.normalizedValue.str, v.unit)) :
      String ×ₗ String ×ₗ String)).dedup

/-- What possible duplicates have in common. -/
structure DuplicateKey where
  occurredOn : Date
  eventStage : EventStage
  primaryCatalystType : Option String
  projectId : Option String
  companies : List String
  deriving DecidableEq

/-- What a catalyst has in common with its possible duplicates. -/
def possibleDuplicateKey (c : CanonicalCatalyst) : Option DuplicateKey :=
  match c.primary.occurredOn with
  | none => none
  | some occurredOn =>
    if c.primary.projectId = none ∧ companyCodesOf c = [] then none
    else some {
      occurredOn := occurredOn
      eventStage := c.primary.eventStage
      primaryCatalystType := c.primary.primaryCatalystType
      projectId := c.primary.projectId
      companies := companyCodesOf c }

/-- One text stands in the other. -/
def isInfix (short long : List Char) : Bool := (List.range (long.length + 1)).any fun i =>
  short.isPrefixOf (long.drop i)

section
variable [Compatibility] [UnicodeTable]

def possibleDuplicate (left right : CanonicalCatalyst) : Bool :=
  if left.primary.projectId.isSome then true
  else if valueSignature left ≠ valueSignature right then false
  else
    let leftText := (CatalystDraft.normalizedClause left.primary.rawText).toList
    let rightText := (CatalystDraft.normalizedClause right.primary.rawText).toList
    if leftText = [] ∨ rightText = [] then false
    else
      let shorter := if rightText.length < leftText.length then rightText else leftText
      let longer := if rightText.length < leftText.length then leftText else rightText
      isInfix shorter longer && decide (3 * longer.length ≤ 4 * shorter.length)

/-- Relate two catalysts that may be one. -/
def relatePossible (pair : CanonicalCatalyst × CanonicalCatalyst) :
    Except Error (Option CatalystRelationDraft) :=
  if possibleDuplicate pair.1 pair.2 then do
    let relation ← CatalystRelationDraft.make {
      fromCatalystId := pair.1.catalystId
      toCatalystId := pair.2.catalystId
      relationType := .possibleDuplicate
      reason := "같은 날짜·단계·회사 또는 프로젝트지만 자동 병합 key가 다름" }
    return some relation
  else .ok none

/-- The catalysts that may be one, related. -/
def possibleDuplicates (catalysts : List CanonicalCatalyst) :
    Except Error (List CatalystRelationDraft) := do
  let candidates := grouped possibleDuplicateKey
    (catalysts.filter fun c => (possibleDuplicateKey c).isSome)
  let related ← (candidates.values.flatMap fun members =>
    pairsOf (ranked (·.catalystId) members)).mapM relatePossible
  return related.filterMap id

def relationRank (r : CatalystRelationDraft) : String ×ₗ String ×ₗ String :=
  toLex (r.relationType.value, toLex (r.fromCatalystId, r.toCatalystId))

/-- What becomes of some drafts. -/
structure DeduplicationResult where
  catalysts : List CanonicalCatalyst
  projects : List ProjectDraft
  relations : List CatalystRelationDraft
  counts : AggregateCounts
  datasetHashes : List String

/-- The catalyst of some drafts with one key. -/
def catalystOf (dedupKey : String) (group : List CatalystDraft) : Except Error CanonicalCatalyst :=
  CanonicalCatalyst.make {
    catalystId := catalystIdOf dedupKey
    dedupKey := dedupKey
    drafts := group
    sourceMentions := uniqueMentions group
    themeReactions := uniqueReactions group }

/-- Merge the drafts of one event and relate the events. -/
def deduplicateCatalysts (drafts : List CatalystDraft) : Except Error DeduplicationResult := do
  let catalysts ← (sortedGroups (·.dedupKey) (ranked draftSortKey drafts)).mapM fun e =>
    catalystOf e.1 e.2
  let (projects, advances) ← buildProjects catalysts
  let possible ← possibleDuplicates catalysts
  return {
    catalysts := catalysts
    projects := projects
    relations := ranked relationRank (advances ++ possible)
    counts := {
      sourceRecordCount := (drafts.map fun d =>
        (d.sourceMention.sourceThemeId, d.sourceMention.sourceHistoryKey)).dedup.length
      themeReactionCount := (drafts.map (·.reaction.reactionKey)).dedup.length
      uniqueCatalystCount := catalysts.length
      projectCount := projects.length }
    datasetHashes := sortedSet (drafts.map (·.datasetHash)) }

end

end Dayjaview.Ontology
