import Dayjaview.Core.JoinedWords
import Dayjaview.Llm.Models

/-!
# Structuring within the chosen articles

An answer is checked field by field; what passes is a catalyst. An entity counts as supported when
it stands in the titles and texts of all articles joined together, so it may reach from one of them
into the next one.
-/

namespace Dayjaview.Llm

open JoinedWords

structure LlmClient where
  modelName : List CodePoint
  structurePayload : List CodePoint → JsonValue → Except Error (List (List CodePoint × JsonValue))

structure GroundingService where
  client : LlmClient
  promptVersion : List CodePoint := GROUNDING_PROMPT_VERSION
  minConfidence : Double := MIN_CONFIDENCE

def get (raw : List (List CodePoint × JsonValue)) (key : String) : Option JsonValue :=
  raw.lookup (codePoints key)

def stringTuple : Option JsonValue → Option (List (List CodePoint))
  | some (.arr items) => items.mapM fun
    | .str cs => some cs
    | _ => none
  | _ => none

/-- A number, which no truth value is. -/
def isNumber : JsonValue → Bool
  | .int _ | .float _ => true
  | _ => false

/-- The floating-point number of a number. -/
def float : JsonValue → Except Error Double
  | .int n => Double.ofInt n
  | .float x => .ok x
  | _ => .error ⟨.typeError, "float() argument must be a string or a real number"⟩

/-- Some long run of the summary stands in the text. -/
def hasVerbatimRun (summary sourceText : List CodePoint) : Bool :=
  let compacted := compact CodePoint.isSpace (.char ' ') summary
  let haystack := compact CodePoint.isSpace (.char ' ') sourceText
  (List.range (compacted.length + 1 - VERBATIM_WINDOW)).any fun start =>
    occursIn ((compacted.drop start).take VERBATIM_WINDOW) haystack

/-- The checks of what an answer says, the first one that fails first. -/
def validateContents (request : GroundingRequest) (minConfidence : Double)
    (stockIds themeIds entities : List (List CodePoint)) (summary : List CodePoint)
    (confidence : Double) : Option GroundedCatalyst × Option GroundingRejection :=
  if ¬((Double.finite 0).le confidence ∧ confidence.le (.finite 1)) then (none, some .schemaInvalid)
  else if ¬stockIds ⊆ request.candidateStockIds then (none, some .unknownStock)
  else if ¬themeIds ⊆ [request.themeId] then (none, some .unknownTheme)
  else if confidence.lt minConfidence then (none, some .lowConfidence)
  else if entities.any fun entity =>
      !(stripPoints entity).isEmpty && !occursIn entity request.sourceText then
    (none, some .unsupportedEntity)
  else if hasVerbatimRun summary request.sourceText then (none, some .verbatimQuote)
  else (some ⟨stockIds, themeIds, stripPoints summary, entities, confidence, true⟩, none)

/-- The checks of an answer; its form is checked first. -/
def validate (raw : List (List CodePoint × JsonValue)) (request : GroundingRequest)
    (minConfidence : Double) : Except Error (Option GroundedCatalyst × Option GroundingRejection) :=
  match get raw "grounded" with
  | some (.bool false) => .ok (none, some .notGrounded)
  | some (.bool true) =>
    match stringTuple (get raw "stockIds"), stringTuple (get raw "candidateThemeIds"),
        stringTuple (get raw "eventEntities"), get raw "catalystSummary", get raw "confidence" with
    | some stockIds, some themeIds, some entities, some (.str summary), some confidence =>
      if stripPoints summary = [] ∨ isNumber confidence = false then .ok (none, some .schemaInvalid)
      else (float confidence).map
        (validateContents request minConfidence stockIds themeIds entities summary)
    | _, _, _, _, _ => .ok (none, some .schemaInvalid)
  | _ => .ok (none, some .schemaInvalid)

namespace GroundingService

variable [JsonValue.Encoder] [Sha256]

def record (service : GroundingService) (request : GroundingRequest)
    (rawOutput : Option (List CodePoint))
    (rejection : Option GroundingRejection) (now : Moment) : Except Error LlmCallRecord := do
  let digest ← request.fingerprint
  .ok ⟨service.client.modelName, service.promptVersion, request.newsIds, digest, rawOutput,
    rejection.isNone, rejection, now⟩

def serialize (raw : List (List CodePoint × JsonValue)) : Except Error (List CodePoint) :=
  (JsonValue.obj raw).dumps

/-- Ask about a theme, unless there is no article to hand over. -/
def structureRequest (service : GroundingService) (request : GroundingRequest) (now : Moment) :
    Except Error GroundingOutcome :=
  if request.articles = [] then .ok ⟨false, none, none, some .noEvidence⟩
  else
    match service.client.structurePayload service.promptVersion request.toPayload with
    | .error _ => do
      let record ← service.record request none (some .providerError) now
      .ok ⟨true, none, some record, some .providerError⟩
    | .ok raw => do
      let serialized ← serialize raw
      let (catalyst, rejection) ← validate raw request service.minConfidence
      let record ← service.record request (some serialized) rejection now
      match catalyst with
      | none => .ok ⟨true, none, some record, rejection⟩
      | some catalyst => .ok ⟨true, some catalyst, some record, none⟩

end GroundingService

/-- The titles and texts of the articles. -/
def GroundingRequest.parts (request : GroundingRequest) : List (List CodePoint) :=
  request.articles.flatMap fun article => [article.title, article.text]

theorem sourceText_eq (request : GroundingRequest) :
    request.sourceText = [CodePoint.char ' '].intercalate request.parts :=
  intercalate_map_pair GroundingArticle.title GroundingArticle.text request.articles

/-- A text stands within the title or the text of one article. -/
def WithinArticle (request : GroundingRequest) (entity : List CodePoint) : Prop :=
  ∃ article ∈ request.articles, entity <:+: article.title ∨ entity <:+: article.text

theorem withinArticle_iff {request : GroundingRequest} {entity : List CodePoint} :
    WithinArticle request entity ↔ ∃ part ∈ request.parts, entity <:+: part := by
  simp only [WithinArticle, GroundingRequest.parts, List.mem_flatMap]
  constructor
  · rintro ⟨article, harticle, htitle | htext⟩
    · exact ⟨_, ⟨article, harticle, List.mem_cons_self⟩, htitle⟩
    · exact ⟨_, ⟨article, harticle, List.mem_cons_of_mem _ List.mem_cons_self⟩, htext⟩
  · rintro ⟨part, ⟨article, harticle, hpart⟩, hentity⟩
    rcases List.mem_cons.mp hpart with rfl | hpart
    · exact ⟨article, harticle, .inl hentity⟩
    · obtain rfl := List.mem_singleton.mp hpart
      exact ⟨article, harticle, .inr hentity⟩

/-- A text starts in one title or text and ends in a later one. -/
def AcrossArticles (request : GroundingRequest) (entity : List CodePoint) : Prop :=
  Straddles (.char ' ') request.parts entity

theorem infix_sourceText_iff {request : GroundingRequest} {entity : List CodePoint}
    (hblank : stripPoints entity ≠ []) :
    entity <:+: request.sourceText ↔ WithinArticle request entity ∨
    AcrossArticles request entity := by
  have hne : entity ≠ [] := by
    rintro rfl
    exact hblank rfl
  rw [sourceText_eq, infix_intercalate_iff hne, withinArticle_iff]
  rfl

/-- The words of a text with single blanks between them. -/
def normalized (cs : List CodePoint) : List CodePoint := compact CodePoint.isSpace (.char ' ') cs

/-- A run of a summary that counts as copied stands in a text. -/
def Copies (summary text : List CodePoint) : Prop :=
  ∃ run, run.length = VERBATIM_WINDOW ∧ run <:+: normalized summary ∧ run <:+: normalized text

theorem hasVerbatimRun_iff {summary text : List CodePoint} :
    hasVerbatimRun summary text = true ↔ Copies summary text := by
  simp only [hasVerbatimRun, List.any_eq_true, List.mem_range, occursIn_iff]
  constructor
  · rintro ⟨start, hstart, hoccurs⟩
    have hroom : start < (normalized summary).length + 1 - VERBATIM_WINDOW := hstart
    refine ⟨_, ?_, ((List.take_prefix _ _).isInfix.trans (List.drop_suffix _ _).isInfix), hoccurs⟩
    rw [List.length_take, List.length_drop]
    omega
  · rintro ⟨run, hlength, ⟨front, back, hsummary⟩, hoccurs⟩
    refine ⟨front.length, ?_, ?_⟩
    · have hcount := congrArg List.length hsummary
      simp only [List.length_append] at hcount
      show front.length < (normalized summary).length + 1 - VERBATIM_WINDOW
      omega
    · have hrun : ((normalized summary).drop front.length).take VERBATIM_WINDOW = run := by
        rw [← hsummary, List.append_assoc, List.drop_left, ← hlength, List.take_left]
      rw [normalized] at hrun
      rwa [hrun]

theorem not_copies_text {request : GroundingRequest} {summary : List CodePoint}
    (h : ¬ Copies summary request.sourceText) {article : GroundingArticle}
    (harticle : article ∈ request.articles) : ¬ Copies summary article.text := by
  rintro ⟨run, hlength, hsummary, htext⟩
  refine h ⟨run, hlength, hsummary, htext.trans ?_⟩
  have hpart : article.text ∈ request.parts :=
    List.mem_flatMap.mpr ⟨article, harticle, List.mem_cons_of_mem _ List.mem_cons_self⟩
  rw [sourceText_eq]
  exact compact_infix (by decide) hpart

theorem normalized_stripPoints (cs : List CodePoint) :
    normalized (stripPoints cs) = normalized cs := by
  rw [normalized, normalized, compact, compact, stripPoints, wordsOf_strip]

/-- What an answer of the right form says. -/
structure Says (raw : List (List CodePoint × JsonValue))
    (stockIds themeIds entities : List (List CodePoint))
    (summary : List CodePoint) (confidence : JsonValue) : Prop where
  grounded : get raw "grounded" = some (.bool true)
  stocks : stringTuple (get raw "stockIds") = some stockIds
  themes : stringTuple (get raw "candidateThemeIds") = some themeIds
  entities : stringTuple (get raw "eventEntities") = some entities
  text : get raw "catalystSummary" = some (.str summary)
  value : get raw "confidence" = some confidence
  notBlank : stripPoints summary ≠ []
  number : isNumber confidence = true

/-- What an answer says passes the checks that do not look at the entities. -/
structure Passes (request : GroundingRequest) (minConfidence : Double)
    (stockIds themeIds : List (List CodePoint))
    (summary : List CodePoint) (value : Double) : Prop where
  low : (Double.finite 0).le value = true
  high : value.le (.finite 1) = true
  stocks : stockIds ⊆ request.candidateStockIds
  themes : themeIds ⊆ [request.themeId]
  confident : value.lt minConfidence = false
  original : ¬ Copies summary request.sourceText

/-- Every entity stands in one article or reaches across. -/
def Supported (request : GroundingRequest) (entities : List (List CodePoint)) : Prop :=
  ∀ entity ∈ entities, stripPoints entity ≠ [] → WithinArticle request entity ∨
  AcrossArticles request entity

theorem Says.unique {raw : List (List CodePoint × JsonValue)}
    {stockIds themeIds entities stockIds' themeIds' entities' : List (List CodePoint)}
    {summary summary' : List CodePoint} {confidence confidence' : JsonValue}
    (h : Says raw stockIds themeIds entities summary confidence)
    (h' : Says raw stockIds' themeIds' entities' summary' confidence') :
    stockIds' = stockIds ∧ themeIds' = themeIds ∧ entities' = entities ∧ summary' = summary ∧
      confidence' = confidence :=
  ⟨Option.some.inj (h'.stocks.symm.trans h.stocks), Option.some.inj (h'.themes.symm.trans h.themes),
    Option.some.inj (h'.entities.symm.trans h.entities),
    JsonValue.str.inj (Option.some.inj (h'.text.symm.trans h.text)),
    Option.some.inj (h'.value.symm.trans h.value)⟩

variable {raw : List (List CodePoint × JsonValue)} {request : GroundingRequest}
  {minConfidence : Double}
  {stockIds themeIds entities : List (List CodePoint)} {summary : List CodePoint}
  {confidence : JsonValue}

theorem any_unsupported_eq_false_iff :
    (entities.any fun entity => !(stripPoints entity).isEmpty &&
      !occursIn entity request.sourceText) = false ↔ Supported request entities := by
  rw [List.any_eq_false]
  refine forall₂_congr fun entity _ => ?_
  rw [Bool.and_eq_true, Bool.not_eq_true', Bool.not_eq_true', List.isEmpty_eq_false_iff, not_and]
  refine imp_congr_right fun hblank => ?_
  rw [Bool.not_eq_false, occursIn_iff, infix_sourceText_iff hblank]

theorem validateContents_fst_iff {confidence : Double} {catalyst : GroundedCatalyst} :
    (validateContents request minConfidence stockIds themeIds entities summary confidence).1 =
      some catalyst ↔
      Passes request minConfidence stockIds themeIds summary confidence ∧
      Supported request entities ∧
      catalyst = ⟨stockIds, themeIds, stripPoints summary, entities, confidence, true⟩ := by
  unfold validateContents
  split_ifs with hrange hstocks hthemes hlow hunsupported hcopies
  · exact iff_of_false (by simp) fun h => Bool.false_ne_true (h.1.confident.symm.trans hlow)
  · exact iff_of_false (by simp) fun h =>
      Bool.false_ne_true ((any_unsupported_eq_false_iff.mpr h.2.1).symm.trans hunsupported)
  · exact iff_of_false (by simp) fun h => h.1.original (hasVerbatimRun_iff.mp hcopies)
  · have hpasses : Passes request minConfidence stockIds themeIds summary confidence :=
      ⟨hrange.1, hrange.2, hstocks, hthemes, Bool.eq_false_iff.mpr hlow,
        fun hcopy => hcopies (hasVerbatimRun_iff.mpr hcopy)⟩
    have hsupported : Supported request entities :=
      any_unsupported_eq_false_iff.mp (Bool.eq_false_iff.mpr hunsupported)
    simp [hpasses, hsupported, eq_comm]
  · exact iff_of_false (by simp) fun h => hthemes h.1.themes
  · exact iff_of_false (by simp) fun h => hstocks h.1.stocks
  · exact iff_of_false (by simp) fun h => hrange ⟨h.1.low, h.1.high⟩

theorem validate_of_said (h : Says raw stockIds themeIds entities summary confidence) :
    validate raw request minConfidence =
      (float confidence).map
      (validateContents request minConfidence stockIds themeIds entities summary) := by
  simp [validate, h.grounded, h.stocks, h.themes, h.entities, h.text, h.value, h.notBlank, h.number]

theorem validate_of_not_said
    (h : ∀ stockIds themeIds entities summary confidence,
      ¬ Says raw stockIds themeIds entities summary confidence) :
    ∃ rejection, validate raw request minConfidence = .ok (none, some rejection) := by
  unfold validate
  split
  · exact ⟨_, rfl⟩
  · next hgrounded =>
    split
    · next stockIds themeIds entities summary confidence hstocks hthemes hentities htext hvalue =>
      split
      · exact ⟨_, rfl⟩
      · next hform =>
        rw [not_or, Bool.not_eq_false] at hform
        exact absurd ⟨hgrounded, hstocks, hthemes, hentities, htext, hvalue, hform.1, hform.2⟩
          (h _ _ _ _ _)
    · exact ⟨_, rfl⟩
  · exact ⟨_, rfl⟩

theorem float_isOk (h : isNumber confidence = true) :
    (∃ value, float confidence = .ok value) ↔
      ∀ n, confidence = .int n → |binary64 n| < 2 ^ 1024 := by
  cases confidence with
  | int n =>
    rw [float, Double.ofInt]
    split
    · next hsmall =>
      refine iff_of_true ⟨_, rfl⟩ fun m hm => ?_
      cases hm
      exact hsmall
    · next hlarge =>
      exact iff_of_false (fun ⟨_, hvalue⟩ => (by cases hvalue)) fun hsmall => hlarge (hsmall n rfl)
  | float x => exact iff_of_true ⟨x, rfl⟩ fun n hn => by cases hn
  | null | bool | str | arr | obj => cases h

/-- A catalyst keeps to the request. -/
structure Grounded (request : GroundingRequest) (catalyst : GroundedCatalyst) : Prop where
  stocks : ∀ id ∈ catalyst.stockIds, id ∈ request.candidateStockIds
  themes : ∀ id ∈ catalyst.candidateThemeIds, id = request.themeId
  entities : ∀ entity ∈ catalyst.eventEntities, stripPoints entity ≠ [] →
    WithinArticle request entity
  original : ∀ article ∈ request.articles, ¬ Copies catalyst.catalystSummary article.text

/-- An answer to a request gives no trouble. -/
structure Harmless [JsonValue.Encoder] (request : GroundingRequest)
    (raw : List (List CodePoint × JsonValue)) (minConfidence : Double) : Prop where
  writable : (JsonValue.obj raw).Writable JsonValue.Encoder.nesting
  encodable : ∀ text ∈ request.texts, ∀ n, CodePoint.surrogate n ∉ text
  fits : ∀ {stockIds themeIds entities summary n},
    Says raw stockIds themeIds entities summary (.int n) → |binary64 n| < 2 ^ 1024
  apart : ∀ {stockIds themeIds entities summary confidence value},
    Says raw stockIds themeIds entities summary confidence → float confidence = .ok value →
    Passes request minConfidence stockIds themeIds summary value → Supported request entities →
    ∀ entity ∈ entities, stripPoints entity ≠ [] → AcrossArticles request entity →
    WithinArticle request entity

theorem grounded_iff {value : Double}
    (h : Passes request minConfidence stockIds themeIds summary value)
    (hsupported : Supported request entities) :
    Grounded request ⟨stockIds, themeIds, stripPoints summary, entities, value, true⟩ ↔
      ∀ entity ∈ entities, stripPoints entity ≠ [] → AcrossArticles request entity →
        WithinArticle request entity := by
  constructor
  · exact fun hgrounded entity hentity hblank _ => hgrounded.entities entity hentity hblank
  · intro hapart
    refine ⟨fun id hid => h.stocks hid, fun id hid => List.mem_singleton.mp (h.themes hid), ?_, ?_⟩
    · intro entity hentity hblank
      rcases hsupported entity hentity hblank with hwithin | hacross
      · exact hwithin
      · exact hapart entity hentity hblank hacross
    · intro article harticle hcopies
      refine not_copies_text h.original harticle ?_
      rwa [Copies, normalized_stripPoints] at hcopies

/-- The check of an answer ends with a catalyst that keeps to the request, or with none, exactly if
the answer's confidence and entities give no trouble. -/
theorem validate_grounded_iff :
    (∃ verdict, validate raw request minConfidence = .ok verdict ∧ ∀ c ∈ verdict.1,
      Grounded request c) ↔ (∀ {stockIds themeIds entities summary n},
        Says raw stockIds themeIds entities summary (.int n) → |binary64 n| < 2 ^ 1024) ∧
      ∀ {stockIds themeIds entities summary confidence value},
        Says raw stockIds themeIds entities summary confidence → float confidence = .ok value →
        Passes request minConfidence stockIds themeIds summary value → Supported request entities →
        ∀ entity ∈ entities, stripPoints entity ≠ [] → AcrossArticles request entity →
          WithinArticle request entity := by
  by_cases hsaid : ∃ stockIds themeIds entities summary confidence,
      Says raw stockIds themeIds entities summary confidence
  · obtain ⟨stockIds, themeIds, entities, summary, confidence, hsaid⟩ := hsaid
    rw [validate_of_said hsaid]
    have hnumber := float_isOk hsaid.number
    cases hfloat : float confidence with
    | error e =>
      refine iff_of_false (fun ⟨_, hverdict, _⟩ => by cases hverdict) fun ⟨hfits, _⟩ => ?_
      obtain ⟨value, hvalue⟩ := hnumber.mpr fun n hn => hfits (hn ▸ hsaid)
      rw [hfloat] at hvalue
      cases hvalue
    | ok value =>
      constructor
      · rintro ⟨verdict, hverdict, hgrounded⟩
        cases hverdict
        constructor
        · intro stockIds' themeIds' entities' summary' n hsaid'
          obtain ⟨-, -, -, -, hconfidence⟩ := hsaid.unique hsaid'
          exact hnumber.mp ⟨value, hfloat⟩ n hconfidence.symm
        · intro stockIds' themeIds' entities' summary' confidence' value' hsaid' hvalue' hpasses
            hsupported
          obtain ⟨rfl, rfl, rfl, rfl, rfl⟩ := hsaid.unique hsaid'
          obtain rfl : value = value' := Except.ok.inj (hfloat.symm.trans hvalue')
          have hcatalyst := validateContents_fst_iff.mpr ⟨hpasses, hsupported, rfl⟩
          exact (grounded_iff hpasses hsupported).mp (hgrounded _ hcatalyst)
      · rintro ⟨-, hapart⟩
        refine ⟨_, rfl, fun catalyst hcatalyst => ?_⟩
        obtain ⟨hpasses, hsupported, rfl⟩ := validateContents_fst_iff.mp hcatalyst
        exact (grounded_iff hpasses hsupported).mpr (hapart hsaid hfloat hpasses hsupported)
  · simp only [not_exists] at hsaid
    obtain ⟨rejection, hrejection⟩ := @validate_of_not_said raw request minConfidence hsaid
    refine iff_of_true ⟨_, hrejection, fun c hc => by cases hc⟩ ⟨fun h => ?_, fun h => ?_⟩
    · exact absurd h (hsaid _ _ _ _ _)
    · exact absurd h (hsaid _ _ _ _ _)

variable [JsonValue.Encoder] [Sha256]

theorem structureRequest_eq_error {service : GroundingService} {now : Moment}
    {text : List CodePoint} {e : Error} (harticles : request.articles ≠ [])
    (hraw : service.client.structurePayload service.promptVersion request.toPayload = .ok raw)
    (htext : GroundingService.serialize raw = .ok text)
    (hvalidate : validate raw request service.minConfidence = .error e) :
    service.structureRequest request now = .error e := by
  simp only [GroundingService.structureRequest, if_neg harticles, hraw, htext, hvalidate]
  rfl

/-- A service that is answered ends with an outcome whose catalyst keeps to the request exactly if
the answer gives no trouble. -/
theorem structureRequest_grounded_iff {service : GroundingService} (now : Moment)
    (harticles : request.articles ≠ [])
    (hraw : service.client.structurePayload service.promptVersion request.toPayload = .ok raw) :
    (∃ outcome, service.structureRequest request now = .ok outcome ∧
        ∀ catalyst ∈ outcome.catalyst, Grounded request catalyst) ↔
      Harmless request raw service.minConfidence := by
  have hsteps : (∃ outcome, service.structureRequest request now = .ok outcome ∧
        ∀ catalyst ∈ outcome.catalyst, Grounded request catalyst) ↔
      (∃ text, GroundingService.serialize raw = .ok text) ∧
      (∃ digest, request.fingerprint = .ok digest) ∧
        ∃ verdict, validate raw request service.minConfidence = .ok verdict ∧
          ∀ catalyst ∈ verdict.1, Grounded request catalyst := by
    simp only [GroundingService.structureRequest, if_neg harticles, hraw, GroundingService.record,
      bind_eq_ok]
    constructor
    · rintro ⟨outcome, ⟨text, htext, ⟨verdict, rejection⟩, hverdict, record, ⟨digest, hdigest, -⟩,
        houtcome⟩, hgrounded⟩
      refine ⟨⟨text, htext⟩, ⟨digest, hdigest⟩, _, hverdict, ?_⟩
      rcases verdict with _ | catalyst
      · exact fun c hc => by cases hc
      · cases houtcome
        exact hgrounded
    · rintro ⟨⟨text, htext⟩, ⟨digest, hdigest⟩, ⟨verdict, rejection⟩, hverdict, hgrounded⟩
      rcases verdict with _ | catalyst
      · exact ⟨_, ⟨text, htext, _, hverdict, _, ⟨digest, hdigest, rfl⟩, rfl⟩, fun c hc => by
          cases hc⟩
      · exact ⟨_, ⟨text, htext, _, hverdict, _, ⟨digest, hdigest, rfl⟩, rfl⟩, hgrounded⟩
  rw [hsteps, GroundingService.serialize, JsonValue.dumps_isOk, GroundingRequest.fingerprint_isOk,
    validate_grounded_iff]
  constructor
  · rintro ⟨hwritable, hencodable, hfits, hapart⟩
    exact ⟨hwritable, hencodable, hfits, hapart⟩
  · exact fun h => ⟨h.writable, h.encodable, h.fits, h.apart⟩

omit [JsonValue.Encoder] [Sha256]

section Contract

/-- Room for a thousand containers. -/
@[reducible] def encoderOfContract : JsonValue.Encoder :=
  ⟨1000, Nat.le_of_ble_eq_true rfl, fun _ => "0.5".toList⟩

/-- An article about a supply contract. -/
def articleOfContract : GroundingArticle :=
  ⟨codePoints "n1", codePoints "연합", codePoints "삼성전자 공급 계약", codePoints "반도체 장비를 공급한다",
    codePoints "https://news.example/1", none⟩

def requestOfContract : GroundingRequest :=
  ⟨codePoints "semi", codePoints "반도체", [codePoints "005930"],
    .aware ⟨.august 19, 9, 30, 0, 0, 0, by decide⟩, [articleOfContract]⟩

/-- What is answered with some confidence. -/
def answerOfContract (confidence : JsonValue) : List (List CodePoint × JsonValue) :=
  [(codePoints "stockIds", .arr [.str (codePoints "005930")]),
    (codePoints "candidateThemeIds", .arr [.str (codePoints "semi")]),
    (codePoints "catalystSummary", .str (codePoints "납품 소식")),
    (codePoints "eventEntities", .arr [.str (codePoints "공급 계약")]),
    (codePoints "confidence", confidence),
    (codePoints "grounded", .bool true)]

/-- A service that is always answered so. -/
def serviceOfContract (confidence : JsonValue) : GroundingService :=
  ⟨⟨codePoints "model", fun _ _ => .ok (answerOfContract confidence)⟩, GROUNDING_PROMPT_VERSION,
    MIN_CONFIDENCE⟩

theorem says_answerOfContract {confidence : JsonValue} (h : isNumber confidence = true) :
    Says (answerOfContract confidence) [codePoints "005930"] [codePoints "semi"]
      [codePoints "공급 계약"] (codePoints "납품 소식") confidence :=
  ⟨rfl, rfl, rfl, rfl, rfl, rfl, by decide, h⟩

theorem texts_requestOfContract :
    ∀ text ∈ requestOfContract.texts, ∀ n, CodePoint.surrogate n ∉ text := by
  have hall : requestOfContract.texts = ["semi", "반도체", "005930", "n1", "연합", "삼성전자 공급 계약",
      "반도체 장비를 공급한다", "https://news.example/1"].map codePoints := rfl
  rw [hall]
  intro text htext n
  obtain ⟨s, -, rfl⟩ := List.mem_map.mp htext
  exact JsonValue.surrogate_notMem_map_char

theorem harmless_answerOfContract :
    @Harmless encoderOfContract requestOfContract (answerOfContract (.int 1)) MIN_CONFIDENCE := by
  refine @Harmless.mk encoderOfContract _ _ _ ?_ texts_requestOfContract ?_ ?_
  · simp only [answerOfContract, JsonValue.Writable, JsonValue.FieldsWritable,
      JsonValue.ItemsWritable]
    decide +kernel
  · intro stockIds themeIds entities summary n hsaid
    obtain ⟨-, -, -, -, hvalue⟩ := (says_answerOfContract rfl).unique hsaid
    obtain rfl : n = 1 := JsonValue.int.inj hvalue
    decide +kernel
  · intro stockIds themeIds entities summary confidence value hsaid _ _ _ entity hentity _ _
    obtain ⟨-, -, rfl, -, -⟩ := (says_answerOfContract rfl).unique hsaid
    obtain rfl := List.mem_singleton.mp hentity
    exact
      ⟨articleOfContract, List.mem_singleton.mpr rfl, .inl (occursIn_iff.mp (by decide +kernel))⟩

/-- A contract that its article names. -/
theorem structureRequest_grounded_contract :
    ∃ outcome, @GroundingService.structureRequest encoderOfContract (Sha256.ofTable [])
        (serviceOfContract (.int 1)) requestOfContract
        (.naive ⟨.august 19, 9, 31, 0, 0, 0, by decide⟩) =
          .ok outcome ∧ ∀ catalyst ∈ outcome.catalyst, Grounded requestOfContract catalyst :=
  (@structureRequest_grounded_iff (answerOfContract (.int 1)) requestOfContract encoderOfContract
    (Sha256.ofTable []) (serviceOfContract (.int 1)) _ (List.cons_ne_nil _ _) rfl).mpr
    harmless_answerOfContract

/-- An answer whose confidence is an integer with four hundred zeros stops the service. -/
theorem structureRequest_tooLarge :
    @GroundingService.structureRequest encoderOfContract (Sha256.ofTable [])
      (serviceOfContract (.int (10 ^ 400)))
      requestOfContract (.naive ⟨.august 19, 9, 31, 0, 0, 0, by decide⟩) =
      .error Double.tooLarge := by
  have hwritable : (JsonValue.obj (answerOfContract (.int (10 ^ 400)))).Writable 1000 := by
    simp only [answerOfContract, JsonValue.Writable, JsonValue.FieldsWritable,
      JsonValue.ItemsWritable]
    decide +kernel
  obtain ⟨text, htext⟩ := (@JsonValue.dumps_isOk encoderOfContract _).mpr hwritable
  have hfloat : float (.int (10 ^ 400)) = .error Double.tooLarge := if_neg (by decide +kernel)
  have hvalidate : validate (answerOfContract (.int (10 ^ 400))) requestOfContract MIN_CONFIDENCE =
      .error Double.tooLarge := by
    rw [validate_of_said (says_answerOfContract rfl), hfloat]
    rfl
  exact @structureRequest_eq_error _ _ encoderOfContract (Sha256.ofTable []) _ _ _ _
    (List.cons_ne_nil _ _) rfl htext hvalidate

end Contract

end Dayjaview.Llm
