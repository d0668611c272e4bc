import Dayjaview.Core.Json
import Dayjaview.News.Models

/-!
# Evidence for an event

News is matched with a theme, grounded by a language model and kept as evidence.
What the evidence says of an event is a status that is kept as revisions.
-/

namespace Dayjaview.Catalyst

section

def catalystPolicyVersion : String := "catalyst-policy-2026.08.1"

/-- How far an event is explained. -/
inductive EvidenceStatus where
  | searching
  | singleSource
  | multiSourceConfirmed
  | noNewCatalyst
  | reemergence
  | afterCloseConfirmed
  deriving DecidableEq

inductive MatchBasis where
  | theme
  | stock
  | time
  deriving DecidableEq

inductive ExtractionMethod where
  | rule
  | llmGrounded
  deriving DecidableEq

/-- What is settled about an event and its theme. -/
structure ThemeContext where
  eventId : String
  themeId : String
  activatedAt : Datetime
  knownCatalystKeys : List String := []

structure NewsThemeMatch where
  newsId : String
  matchBasis : List MatchBasis

/-- Evidence found in one news item. -/
structure CatalystEvidence where
  newsId : String
  eventId : String
  publisher : String
  title : String
  summary : String
  matchBasis : List MatchBasis
  entities : List String
  publishedAt : Option Datetime
  receivedAt : Datetime
  originalUrl : List CodePoint
  qualityFlags : List String
  extractionMethod : ExtractionMethod
  modelName : Option String
  promptVersion : Option String
  confidence : Option FloatText
  generatedAt : Datetime

/-- A revision of the evidence of an event. -/
structure EvidenceRevision where
  eventId : String
  revision : Nat
  evidenceStatus : EvidenceStatus
  summary : Option String
  newsIds : List String
  catalystKey : Option String
  reason : String
  policyVersion : String
  decidedAt : Datetime
  evidenceConfirmedAt : Option Datetime
  positive : 1 ≤ revision

variable [Sha256] [UnicodeTable]

/-- The key by which a catalyst is recognised again. -/
def catalystKey (themeId : String) (entities : List String) : String :=
  let terms := textSet ((entities.filter fun e => !isBlank e).map fun e => casefoldText (strip e))
  "cat_" ++ takeText 32 (hexdigest ("|".intercalate (themeId :: terms)))

end

/-- How long a catalyst is searched for, in microseconds. -/
def noNewCatalystAfter : Int := 1200000000

def strength : EvidenceStatus → Nat
  | .searching => 0
  | .noNewCatalyst => 0
  | .singleSource => 1
  | .reemergence => 1
  | .multiSourceConfirmed => 2
  | .afterCloseConfirmed => 3

/-- What was decided about an event. -/
structure EvidenceDecision where
  evidenceStatus : EvidenceStatus
  summary : Option String
  newsIds : List String
  catalystKey : Option String
  reason : String
  policyVersion : String := catalystPolicyVersion

/-- The decision when there is no evidence. -/
def withoutEvidence (context : ThemeContext) (now : Datetime) (previous : Option EvidenceRevision)
    (sourcesDegraded : Bool) (noCatalystAfter : Int) : EvidenceDecision :=
  match previous.filter fun previous => 0 < strength previous.evidenceStatus with
  | some previous =>
    { evidenceStatus := previous.evidenceStatus, summary := previous.summary
      newsIds := previous.newsIds, catalystKey := previous.catalystKey
      reason := "이미 확인된 근거를 유지했습니다" }
  | none =>
    if sourcesDegraded then
      { evidenceStatus := .searching, summary := none, newsIds := [], catalystKey := none
        reason := "공급원 수집이 지연돼 소재 없음으로 판정하지 않았습니다" }
    else if noCatalystAfter ≤ now.instant - context.activatedAt.instant then
      { evidenceStatus := .noNewCatalyst, summary := none, newsIds := [], catalystKey := none
        reason := "정상 수집 상태에서 관련 기사를 찾지 못했습니다" }
    else
      { evidenceStatus := .searching, summary := none, newsIds := [], catalystKey := none
        reason := "근거를 계속 확인하는 중입니다" }

variable [UnicodeTable]

/-- The different publishers of some evidence. -/
def publishers (evidence : List CatalystEvidence) : List String :=
  ((evidence.filter fun item => !isBlank item.publisher).map
    fun item => casefoldText (strip item.publisher)).dedup

/-- The different titles of some evidence. -/
def titles (evidence : List CatalystEvidence) : List String :=
  ((evidence.filter fun item => !isBlank item.title).map
    fun item => casefoldText (" ".intercalate (words item.title))).dedup

/-- Several publishers have reported, each in its own words. -/
def independent (evidence : List CatalystEvidence) : Bool :=
  decide (2 ≤ (publishers evidence).length) && decide (2 ≤ (titles evidence).length)

variable [Sha256]

/-- The catalyst that some evidence names. -/
def evidenceKey (context : ThemeContext) (evidence : List CatalystEvidence) : Option String :=
  let entities := (evidence.flatMap (·.entities)).eraseDups
  if entities = [] then none else some (catalystKey context.themeId entities)

/-- The decision about an event. -/
def decideEvidence (context : ThemeContext) (evidence : List CatalystEvidence) (now : Datetime)
    (previous : Option EvidenceRevision) (sourcesDegraded : Bool)
    (afterCloseSummary : Option String) (noCatalystAfter : Int := noNewCatalystAfter) :
    EvidenceDecision :=
  match afterCloseSummary, evidence with
  | some summary, evidence =>
    { evidenceStatus := .afterCloseConfirmed, summary := some summary
      newsIds := evidence.map (·.newsId), catalystKey := evidenceKey context evidence
      reason := "인포스탁 장후 확정을 같은 Event에 반영했습니다" }
  | none, [] => withoutEvidence context now previous sourcesDegraded noCatalystAfter
  | none, first :: rest =>
    let evidence := first :: rest
    let key := evidenceKey context evidence
    let (status, reason) :=
      if independent evidence then
        (EvidenceStatus.multiSourceConfirmed,
          s!"독립 매체 {(publishers evidence).length}곳에서 같은 소재를 확인했습니다")
      else if key.any context.knownCatalystKeys.contains then
        (.reemergence, "이전 거래일에 확인된 소재가 다시 부각됐습니다")
      else (.singleSource, "단일 매체 보도로 확인된 추정입니다")
    { evidenceStatus := status, summary := some first.summary
      newsIds := (evidence.map (·.newsId)).eraseDups, catalystKey := key, reason }

end Dayjaview.Catalyst
