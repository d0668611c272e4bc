import Dayjaview.Catalyst.Models
import Dayjaview.Core.Dict

/-!
# Revisions of the evidence

The store keeps the revisions of each event and appends one when the decision
changed. The pipeline builds the evidence of an event from the grounded news,
decides and records.
-/

namespace Dayjaview.Catalyst

section

structure EvidenceRevisionStore where
  revisions : Dict String (List EvidenceRevision)

/-- The decision is the one of the revision. -/
def unchanged (previous : EvidenceRevision) (decision : EvidenceDecision) : Bool :=
  decide (previous.evidenceStatus = decision.evidenceStatus) &&
    decide (previous.summary = decision.summary) && decide (previous.newsIds = decision.newsIds) &&
    decide (previous.catalystKey = decision.catalystKey)

namespace EvidenceRevisionStore

def empty : EvidenceRevisionStore := ⟨.empty⟩

def history (s : EvidenceRevisionStore) (eventId : String) : List EvidenceRevision :=
  (s.revisions.get? eventId).getD []

/-- The current revision of an event. -/
def current (s : EvidenceRevisionStore) (eventId : String) : Option EvidenceRevision :=
  (s.history eventId).getLast?

/-- When the news items of a decision were confirmed. -/
def confirmedAt (previous : Option EvidenceRevision) (decision : EvidenceDecision)
    (now : Datetime) : Option Datetime :=
  if decision.newsIds ≠ [] ∧ previous.map (·.newsIds) ≠ some decision.newsIds then some now
  else previous.bind (·.evidenceConfirmedAt)

/-- The revision that a decision asks for. -/
def newRevision (s : EvidenceRevisionStore) (eventId : String) (decision : EvidenceDecision)
    (now : Datetime) : EvidenceRevision where
  eventId := eventId
  revision := (s.history eventId).length + 1
  evidenceStatus := decision.evidenceStatus
  summary := decision.summary
  newsIds := decision.newsIds
  catalystKey := decision.catalystKey
  reason := decision.reason
  policyVersion := decision.policyVersion
  decidedAt := now
  evidenceConfirmedAt := confirmedAt (s.current eventId) decision now
  positive := Nat.le_add_left 1 _

/-- Append a revision unless nothing changed. -/
def record (s : EvidenceRevisionStore) (eventId : String) (decision : EvidenceDecision)
    (now : Datetime) : EvidenceRevision × EvidenceRevisionStore :=
  match (s.current eventId).filter fun previous => unchanged previous decision with
  | some previous => (previous, s)
  | none =>
    let revision := s.newRevision eventId decision now
    (revision, ⟨s.revisions.set eventId (s.history eventId ++ [revision])⟩)

end EvidenceRevisionStore

/-- What the language model found in the news. -/
structure GroundedCatalyst where
  catalystSummary : String
  eventEntities : List String
  confidence : FloatText

/-- How the language model was called. -/
structure LlmCallRecord where
  modelName : String
  promptVersion : String

/-- The result of grounding some news. -/
structure GroundingOutcome where
  catalyst : Option GroundedCatalyst
  record : Option LlmCallRecord

/-- What is missing from an item. -/
def qualityFlags (item : News.NewsItem) : List String :=
  (if item.publishedAt = none then ["PUBLISHED_AT_MISSING"] else []) ++
    if item.rightsScope = .metadataOnly then ["RIGHTS_LIMITED"] else []

/-- The evidence of a match, if the item supports some term. -/
def matchEvidence (context : ThemeContext) (item : News.NewsItem) (found : NewsThemeMatch)
    (catalyst : GroundedCatalyst) (record : LlmCallRecord) (now : Datetime) :
    Option CatalystEvidence :=
  let supported := catalyst.eventEntities.filter fun entity =>
    !isBlank entity && isPart entity item.groundableText
  if supported = [] then none
  else some {
    newsId := found.newsId
    eventId := context.eventId
    publisher := item.publisher
    title := item.title
    summary := catalyst.catalystSummary
    matchBasis := found.matchBasis
    entities := supported
    publishedAt := item.publishedAt
    receivedAt := item.retrievedAt
    originalUrl := item.originalUrl
    qualityFlags := qualityFlags item
    extractionMethod := .llmGrounded
    modelName := some record.modelName
    promptVersion := some record.promptVersion
    confidence := some catalyst.confidence
    generatedAt := now }

/-- What is handed in for an event. -/
structure Submission where
  context : ThemeContext
  found : List NewsThemeMatch
  stored : String → Option News.NewsItem
  outcome : GroundingOutcome
  now : Datetime
  sourcesDegraded : Bool
  afterCloseSummary : Option String

/-- The stored news of the matches. -/
def Submission.newsItems (x : Submission) : List News.NewsItem :=
  x.found.filterMap fun found => x.stored found.newsId

/-- The evidence of a submission. -/
def Submission.evidence (x : Submission) : List CatalystEvidence :=
  let byNewsId := Dict.ofList (x.newsItems.map fun item => (item.newsId, item))
  match x.outcome.catalyst, x.outcome.record with
  | some catalyst, some record =>
    x.found.filterMap fun found =>
      (byNewsId.get? found.newsId).bind fun item =>
        matchEvidence x.context item found catalyst record x.now
  | _, _ => []

variable [Sha256] [UnicodeTable]

/-- The decision about a submission. -/
def Submission.decision (x : Submission) (s : EvidenceRevisionStore) : EvidenceDecision :=
  decideEvidence x.context x.evidence x.now (s.current x.context.eventId) x.sourcesDegraded
    x.afterCloseSummary

/-- Decide about a submission and record the decision. -/
def Submission.submit (x : Submission) (s : EvidenceRevisionStore) :
    EvidenceRevision × EvidenceRevisionStore :=
  s.record x.context.eventId (x.decision s) x.now

/-- The store after some submissions. -/
def submitAll (xs : List Submission) : EvidenceRevisionStore :=
  xs.foldl (fun s x => (x.submit s).2) .empty

end

structure RevisionList (history : List EvidenceRevision) : Prop where
  numbered : history.map (·.revision) = List.range' 1 history.length
  changed : history.IsChain fun a b =>
    ¬ (a.evidenceStatus = b.evidenceStatus ∧ a.summary = b.summary ∧ a.newsIds = b.newsIds ∧
      a.catalystKey = b.catalystKey)

/-- The revisions of an event whose status never says less than before. -/
structure NeverWeakened (history : List EvidenceRevision) : Prop extends RevisionList history where
  sustained : history.IsChain fun a b => strength a.evidenceStatus ≤ strength b.evidenceStatus
  confirmed : history.Pairwise fun a b =>
    a.evidenceStatus = .afterCloseConfirmed → b.evidenceStatus = .afterCloseConfirmed

theorem revisionList_nil : RevisionList [] := ⟨rfl, .nil⟩

theorem strength_eq_three {status : EvidenceStatus} :
    3 ≤ strength status ↔ status = .afterCloseConfirmed := by
  cases status <;> simp [strength]

theorem neverWeakened_iff {history : List EvidenceRevision} :
    NeverWeakened history ↔ RevisionList history ∧
      history.IsChain fun a b => strength a.evidenceStatus ≤ strength b.evidenceStatus := by
  constructor
  · intro h
    exact ⟨h.toRevisionList, h.sustained⟩
  · rintro ⟨hlist, hchain⟩
    refine { toRevisionList := hlist, sustained := hchain, confirmed := ?_ }
    have htrans : IsTrans EvidenceRevision
        fun a b => strength a.evidenceStatus ≤ strength b.evidenceStatus :=
      ⟨fun _ _ _ hab hbc => hab.trans hbc⟩
    refine hchain.pairwise.imp ?_
    intro a b hle hconfirmed
    rw [hconfirmed] at hle
    exact strength_eq_three.mp hle

theorem chain_concat {R : EvidenceRevision → EvidenceRevision → Prop}
    {history : List EvidenceRevision} {r : EvidenceRevision} :
    (history ++ [r]).IsChain R ↔ history.IsChain R ∧ ∀ a, history.getLast? = some a → R a r := by
  rw [List.isChain_append]
  simp

theorem unchanged_eq_false {previous : EvidenceRevision} {decision : EvidenceDecision} :
    unchanged previous decision = false ↔
      ¬ (previous.evidenceStatus = decision.evidenceStatus ∧ previous.summary = decision.summary ∧
        previous.newsIds = decision.newsIds ∧ previous.catalystKey = decision.catalystKey) := by
  simp [unchanged]

namespace EvidenceRevisionStore

theorem record_cases (s : EvidenceRevisionStore) (eventId : String) (decision : EvidenceDecision)
    (now : Datetime) :
    (∃ previous, s.current eventId = some previous ∧ unchanged previous decision = true ∧
      s.record eventId decision now = (previous, s)) ∨
    ((∀ previous, s.current eventId = some previous → unchanged previous decision = false) ∧
      ∀ event, (s.record eventId decision now).2.history event =
        if event = eventId then s.history eventId ++ [s.newRevision eventId decision now]
        else s.history event) := by
  unfold record
  cases hsame : (s.current eventId).filter fun previous => unchanged previous decision with
  | some previous =>
    obtain ⟨hcurrent, hunchanged⟩ := Option.filter_eq_some_iff.mp hsame
    exact .inl ⟨previous, hcurrent, hunchanged, rfl⟩
  | none =>
    refine .inr ⟨fun previous hcurrent => ?_, fun event => ?_⟩
    · by_contra hunchanged
      rw [hcurrent, Option.filter_some, if_pos (by simpa using hunchanged)] at hsame
      cases hsame
    · unfold history
      dsimp only
      rw [Dict.get?_set]
      split <;> rfl

theorem revisionList_record {s : EvidenceRevisionStore}
    (h : ∀ event, RevisionList (s.history event))
    (eventId : String) (decision : EvidenceDecision) (now : Datetime) (event : String) :
    RevisionList ((s.record eventId decision now).2.history event) := by
  rcases s.record_cases eventId decision now with ⟨previous, -, -, hsame⟩ | ⟨hchanged, hhistory⟩
  · rw [hsame]
    exact h event
  · rw [hhistory event]
    split
    · next hevent =>
      refine ⟨?_, chain_concat.mpr ⟨(h eventId).changed, fun a ha => ?_⟩⟩
      · rw [List.map_append, (h eventId).numbered, List.length_append, List.length_singleton,
          List.range'_1_concat]
        simp [newRevision, Nat.add_comm]
      · exact unchanged_eq_false.mp (hchanged a ha)
    · exact h event

end EvidenceRevisionStore

open EvidenceRevisionStore

variable [Sha256] [UnicodeTable]

/-- The evidence of a submission says as much as the status of the event does. -/
def Submission.Sustains (x : Submission) (s : EvidenceRevisionStore) : Prop :=
  x.afterCloseSummary = none → x.evidence ≠ [] → ∀ previous,
    s.current x.context.eventId = some previous →
      previous.evidenceStatus ≠ .afterCloseConfirmed ∧
      (previous.evidenceStatus = .multiSourceConfirmed → independent x.evidence = true)

theorem strength_decideEvidence {context : ThemeContext} {evidence : List CatalystEvidence}
    (h : evidence ≠ []) (now : Datetime) (previous : Option EvidenceRevision) (degraded : Bool)
    (noCatalystAfter : Int) :
    strength
      (decideEvidence context evidence now previous degraded none noCatalystAfter).evidenceStatus =
      if independent evidence = true then 2 else 1 := by
  cases evidence with
  | nil => exact absurd rfl h
  | cons first rest =>
    simp only [decideEvidence]
    by_cases hindependent : independent (first :: rest) = true
    · simp only [if_pos hindependent]
      rfl
    · simp only [if_neg hindependent]
      split <;> rfl

omit [Sha256] [UnicodeTable] in
theorem strength_withoutEvidence {previous : EvidenceRevision} (context : ThemeContext)
    (now : Datetime) (degraded : Bool) (noCatalystAfter : Int) :
    strength previous.evidenceStatus ≤
      strength
      (withoutEvidence context now (some previous) degraded noCatalystAfter).evidenceStatus := by
  unfold withoutEvidence
  by_cases hstrong : 0 < strength previous.evidenceStatus
  · rw [Option.filter_some, if_pos (by simpa using hstrong)]
  · omega

theorem Submission.sustains_iff (x : Submission) (s : EvidenceRevisionStore) :
    x.Sustains s ↔ ∀ previous, s.current x.context.eventId = some previous →
      strength previous.evidenceStatus ≤ strength (x.decision s).evidenceStatus := by
  unfold Submission.Sustains Submission.decision
  cases hsummary : x.afterCloseSummary with
  | some summary =>
    have hthree : ∀ status, strength status ≤ 3 := by
      intro status
      cases status <;> simp [strength]
    constructor
    · intro _ previous _
      exact hthree previous.evidenceStatus
    · intro _ hnone
      cases hnone
  | none =>
    by_cases hempty : x.evidence = []
    · constructor
      · intro _ previous hcurrent
        rw [hempty, hcurrent]
        exact strength_withoutEvidence x.context x.now x.sourcesDegraded noNewCatalystAfter
      · intro _ _ hevidence
        exact absurd hempty hevidence
    · rw [strength_decideEvidence hempty]
      have hstatus : ∀ status : EvidenceStatus,
          (status ≠ .afterCloseConfirmed ∧
            (status = .multiSourceConfirmed → independent x.evidence = true)) ↔
          strength status ≤ if independent x.evidence = true then 2 else 1 := by
        intro status
        cases status <;> by_cases h : independent x.evidence = true <;> simp [strength, h]
      simp only [hstatus]
      exact ⟨fun h => h trivial hempty, fun h _ _ => h⟩

theorem revisionList_submitAll (xs : List Submission) (event : String) :
    RevisionList ((submitAll xs).history event) := by
  induction xs using List.reverseRecOn generalizing event with
  | nil => exact revisionList_nil
  | append_singleton xs x ih =>
    rw [submitAll, List.foldl_append]
    exact revisionList_record ih x.context.eventId _ x.now event

theorem Submission.neverWeakened_submit {s : EvidenceRevisionStore} (x : Submission)
    (h : ∀ event, RevisionList (s.history event)) :
    (∀ event, NeverWeakened ((x.submit s).2.history event)) ↔
      (∀ event, NeverWeakened (s.history event)) ∧ x.Sustains s := by
  have hlist : ∀ event, RevisionList ((x.submit s).2.history event) :=
    revisionList_record h x.context.eventId _ x.now
  simp only [neverWeakened_iff, h, hlist, true_and]
  rw [x.sustains_iff]
  rcases s.record_cases x.context.eventId (x.decision s) x.now with
    ⟨previous, hcurrent, hunchanged, hsame⟩ | ⟨-, hhistory⟩
  · have hstatus : previous.evidenceStatus = (x.decision s).evidenceStatus := by
      simp only [unchanged, Bool.and_eq_true, decide_eq_true_eq] at hunchanged
      exact hunchanged.1.1.1
    simp only [Submission.submit, hsame]
    refine ⟨fun hchain => ⟨hchain, fun r hr => ?_⟩, And.left⟩
    rw [hcurrent] at hr
    cases hr
    rw [hstatus]
  · simp only [Submission.submit, hhistory]
    constructor
    · intro hchain
      have hevent := hchain x.context.eventId
      rw [if_pos rfl, chain_concat] at hevent
      refine ⟨fun event => ?_, hevent.2⟩
      by_cases hsame : event = x.context.eventId
      · rw [hsame]
        exact hevent.1
      · have hother := hchain event
        rwa [if_neg hsame] at hother
    · rintro ⟨hchain, hsustains⟩ event
      split
      · exact chain_concat.mpr ⟨hchain x.context.eventId, hsustains⟩
      · exact hchain event

/-- Over any submissions no status of any event says less than before exactly when every
submission sustained the status of its event. -/
theorem submitAll_neverWeakened (xs : List Submission) :
    (∀ event, NeverWeakened ((submitAll xs).history event)) ↔
      ∀ earlier x later, xs = earlier ++ x :: later → x.Sustains (submitAll earlier) := by
  induction xs using List.reverseRecOn with
  | nil =>
    refine ⟨fun _ earlier x later h => ?_, fun _ event => ?_⟩
    · simp at h
    · exact neverWeakened_iff.mpr ⟨revisionList_nil, .nil⟩
  | append_singleton xs x ih =>
    have hlast : submitAll (xs ++ [x]) = (x.submit (submitAll xs)).2 := by
      rw [submitAll, List.foldl_append]
      rfl
    rw [hlast, x.neverWeakened_submit (revisionList_submitAll xs), ih]
    constructor
    · rintro ⟨hall, hx⟩ earlier y later h
      rcases List.eq_nil_or_concat later with rfl | ⟨later, z, rfl⟩
      · obtain ⟨rfl, hy⟩ := List.append_inj' h rfl
        obtain rfl : x = y := by simpa using hy
        exact hx
      · have hsplit : xs ++ [x] = (earlier ++ y :: later) ++ [z] := by simpa using h
        exact hall earlier y later (List.append_inj' hsplit rfl).1
    · intro hall
      exact ⟨fun earlier y later h => hall earlier y (later ++ [x]) (by simp [h]),
        hall xs x [] rfl⟩

omit [Sha256] [UnicodeTable]

/-- Some time in the afternoon. -/
def afternoon (minute : Nat) : Datetime := (Date.august 19).seoul 16 minute

/-- A news item that names its term. -/
def reactorNews : News.NewsItem where
  newsId := "news_1"
  sourceId := "rss-1"
  sourceType := .rss
  sourceItemId := "1"
  canonicalUrl := "https://example.com/1"
  originalUrl := codePoints "https://example.com/1"
  publisher := "매체"
  title := "[특징주] 원전"
  description := ""
  publishedAt := some (afternoon 0)
  retrievedAt := afternoon 0
  normalizedTitleHash := "1"
  contentHash := "1"
  rightsScope := .summaryAllowed
  ingestionStatus := .stored
  valid := by decide

/-- Its theme is handed in with or without a confirmation after the close. -/
def reactorSubmission (now : Datetime) (afterCloseSummary : Option String) : Submission where
  context := ⟨"event-1", "theme-1", afternoon 0, []⟩
  found := [⟨"news_1", [.theme]⟩]
  stored newsId := if newsId = "news_1" then some reactorNews else none
  outcome := ⟨some ⟨"원전 수주", ["원전"], ⟨"0.9".toList, by decide⟩⟩, some ⟨"model", "prompt"⟩⟩
  now := now
  sourcesDegraded := false
  afterCloseSummary := afterCloseSummary

/-- The event is confirmed after the close, and the next submission without a confirmation makes
it an estimate again. -/
theorem submitAll_loses_confirmation :
    letI : Sha256 := .ofTable []
    letI : UnicodeTable := .ascii
    ¬ ∀ xs : List Submission, xs.IsChain (fun a b => a.now ≤ b.now) →
      ∀ event, NeverWeakened ((submitAll xs).history event) := by
  have key : ∀ [Sha256] [UnicodeTable],
      ((submitAll [reactorSubmission (afternoon 10) (some "장후 확정"),
        reactorSubmission (afternoon 20) none]).history "event-1").map (·.evidenceStatus) =
          [.afterCloseConfirmed, .singleSource] →
      ¬ ∀ xs : List Submission, xs.IsChain (fun a b => a.now ≤ b.now) →
        ∀ event, NeverWeakened ((submitAll xs).history event) := by
    intro _ _ hhistory hall
    have hkept := (hall [reactorSubmission (afternoon 10) (some "장후 확정"),
      reactorSubmission (afternoon 20) none] (by decide) "event-1").sustained
    have hchain := (List.isChain_map (R := fun a b => strength a ≤ strength b)
      fun r : EvidenceRevision => r.evidenceStatus).mpr hkept
    rw [hhistory] at hchain
    revert hchain
    decide
  exact @key (.ofTable []) .ascii (by decide +kernel)

end Dayjaview.Catalyst
