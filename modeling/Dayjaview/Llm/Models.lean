import Dayjaview.Core.Calendar
import Dayjaview.Core.JsonValue

/-!
# Requests and answers of the structuring

A request hands the chosen articles to the model that structures them. Its payload is also the text
that the fingerprint of the call is taken of; the text of all articles is what an answer is checked
against.
-/

namespace Dayjaview.Llm

def GROUNDING_PROMPT_VERSION : List CodePoint := codePoints "catalyst-grounding-2026.08.1"

/-- The least confidence of an answer that is used. -/
def MIN_CONFIDENCE : Double := .finite (binary64 (6 / 10))

/-- The length of a run that counts as copied. -/
def VERBATIM_WINDOW : Nat := 30

inductive GroundingRejection where
  | noEvidence
  | providerError
  | schemaInvalid
  | notGrounded
  | unknownStock
  | unknownTheme
  | lowConfidence
  | unsupportedEntity
  | verbatimQuote
  deriving DecidableEq

/-- A point in time with or without its UTC offset. -/
inductive Moment where
  /-- A timestamp with its offset. -/
  | aware (t : Datetime)
  /-- The wall clock of a timestamp alone. -/
  | naive (t : Datetime)

/-- The text of a point in time. -/
def Moment.isoChars : Moment → List Char
  | aware t => t.isoChars
  | naive t => t.date.isoChars ++ 'T' :: padded 2 t.hour ++ ':' :: padded 2 t.minute ++ ':' ::
      padded 2 t.second ++ Datetime.fractionChars t.microsecond

/-- The code points of that text. -/
def Moment.isoformat (m : Moment) : List CodePoint := m.isoChars.map .char

/-- An article that may be handed to the model. -/
structure GroundingArticle where
  newsId : List CodePoint
  publisher : List CodePoint
  title : List CodePoint
  text : List CodePoint
  originalUrl : List CodePoint
  publishedAt : Option Moment

def GroundingArticle.toPayload (article : GroundingArticle) : JsonValue :=
  .obj [(codePoints "newsId", .str article.newsId),
    (codePoints "publisher", .str article.publisher),
    (codePoints "title", .str article.title),
    (codePoints "text", .str article.text),
    (codePoints "originalUrl", .str article.originalUrl),
    (codePoints "publishedAt", match article.publishedAt with
      | none => .null
      | some publishedAt => .str publishedAt.isoformat)]

/-- What is asked about a theme. -/
structure GroundingRequest where
  themeId : List CodePoint
  displayName : List CodePoint
  candidateStockIds : List (List CodePoint)
  reactionStartedAt : Moment
  articles : List GroundingArticle

namespace GroundingRequest

def toPayload (request : GroundingRequest) : JsonValue :=
  .obj [(codePoints "themeId", .str request.themeId),
    (codePoints "displayName", .str request.displayName),
    (codePoints "candidateStockIds", .arr (request.candidateStockIds.map .str)),
    (codePoints "reactionStartedAt", .str request.reactionStartedAt.isoformat),
    (codePoints "articles", .arr (request.articles.map GroundingArticle.toPayload))]

def newsIds (request : GroundingRequest) : List (List CodePoint) := request.articles.map (·.newsId)

/-- The titles and texts of all articles behind each other. -/
def sourceText (request : GroundingRequest) : List CodePoint :=
  [CodePoint.char ' '].intercalate (request.articles.map fun article =>
    article.title ++ .char ' ' :: article.text)

def fingerprint [JsonValue.Encoder] [Sha256] (request : GroundingRequest) : Except Error String :=
  do
  let raw ← request.toPayload.dumps
  let raw ← encodable raw
  .ok (hexdigest raw)

end GroundingRequest

/-- What an answer says about the cause of a move. -/
structure GroundedCatalyst where
  stockIds : List (List CodePoint)
  candidateThemeIds : List (List CodePoint)
  catalystSummary : List CodePoint
  eventEntities : List (List CodePoint)
  confidence : Double
  grounded : Bool

structure LlmCallRecord where
  modelName : List CodePoint
  promptVersion : List CodePoint
  newsIds : List (List CodePoint)
  requestFingerprint : String
  rawOutput : Option (List CodePoint)
  accepted : Bool
  rejection : Option GroundingRejection
  calledAt : Moment

structure GroundingOutcome where
  called : Bool
  catalyst : Option GroundedCatalyst
  record : Option LlmCallRecord
  rejection : Option GroundingRejection

/-- The texts that a request is made of. -/
def GroundingRequest.texts (request : GroundingRequest) : List (List CodePoint) :=
  request.themeId :: request.displayName :: request.candidateStockIds ++
    request.articles.flatMap fun article =>
      [article.newsId, article.publisher, article.title, article.text, article.originalUrl]

theorem GroundingRequest.writable_toPayload (request : GroundingRequest) {left : Nat}
    (h : 3 ≤ left) : request.toPayload.Writable left := by
  have hstocks : ∀ (left : Nat) (ids : List (List CodePoint)),
      JsonValue.ItemsWritable left (ids.map .str) := by
    intro left ids
    induction ids with
    | nil => trivial
    | cons id ids ih => exact ⟨trivial, ih⟩
  have harticle : ∀ (left : Nat) (article : GroundingArticle), left ≠ 0 →
      article.toPayload.Writable left := by
    intro left article hleft
    rcases hpublished : article.publishedAt with _ | publishedAt <;>
      simp [GroundingArticle.toPayload, hpublished, JsonValue.Writable,
        JsonValue.FieldsWritable, hleft]
  have harticles : ∀ (left : Nat) (articles : List GroundingArticle), left ≠ 0 →
      JsonValue.ItemsWritable left (articles.map GroundingArticle.toPayload) := by
    intro left articles hleft
    induction articles with
    | nil => trivial
    | cons article articles ih => exact ⟨harticle left article hleft, ih⟩
  refine ⟨by omega, trivial, trivial, ⟨by omega, hstocks _ _⟩, trivial,
    ⟨by omega, harticles _ _ (by omega)⟩, trivial⟩

theorem GroundingRequest.surrogate_mem_points {n : Fin 2048} {request : GroundingRequest} :
    .surrogate n ∈ request.toPayload.points ↔ ∃ text ∈ request.texts, .surrogate n ∈ text := by
  have hstocks :
      ∀ ids : List (List CodePoint), .surrogate n ∈ JsonValue.itemsPoints (ids.map .str) ↔
      ∃ id ∈ ids, .surrogate n ∈ id := by
    intro ids
    induction ids with
    | nil => simp [JsonValue.itemsPoints]
    | cons id ids ih => simp [JsonValue.itemsPoints, JsonValue.points, ih]
  have hliteral : ∀ s : String, CodePoint.surrogate n ∉ codePoints s := fun s =>
    JsonValue.surrogate_notMem_map_char
  have hmoment : ∀ m : Moment, CodePoint.surrogate n ∉ m.isoformat := fun m =>
    JsonValue.surrogate_notMem_map_char
  have harticle : ∀ article : GroundingArticle, .surrogate n ∈ article.toPayload.points ↔
      ∃ text ∈ [article.newsId, article.publisher, article.title, article.text,
        article.originalUrl], .surrogate n ∈ text := by
    intro article
    rcases hpublished : article.publishedAt with _ | publishedAt <;>
      simp [GroundingArticle.toPayload, hpublished, JsonValue.points, JsonValue.fieldsPoints,
        hliteral, hmoment]
  have harticles : ∀ articles : List GroundingArticle,
      .surrogate n ∈ JsonValue.itemsPoints (articles.map GroundingArticle.toPayload) ↔
        ∃ article ∈ articles, .surrogate n ∈ article.toPayload.points := by
    intro articles
    induction articles with
    | nil => simp [JsonValue.itemsPoints]
    | cons article articles ih => simp [JsonValue.itemsPoints, ih]
  simp only [toPayload, JsonValue.points, JsonValue.fieldsPoints, List.mem_append, hstocks,
    harticles, harticle,
    hliteral, hmoment, texts, List.mem_cons, List.mem_flatMap, List.not_mem_nil]
  grind

theorem GroundingRequest.fingerprint_isOk [JsonValue.Encoder] [Sha256]
    {request : GroundingRequest} : (∃ digest, request.fingerprint = .ok digest) ↔
      ∀ text ∈ request.texts, ∀ n, CodePoint.surrogate n ∉ text := by
  have hwritable := request.writable_toPayload JsonValue.Encoder.deep
  obtain ⟨raw, hraw⟩ := JsonValue.dumps_isOk.mpr hwritable
  have hencodable : (∃ digest, request.fingerprint = .ok digest) ↔ ∃ s, encodable raw = .ok s := by
    rw [fingerprint, hraw]
    show (∃ digest, (encodable raw >>= fun text => Except.ok (hexdigest text)) = .ok digest) ↔ _
    constructor
    · rintro ⟨digest, hdigest⟩
      obtain ⟨s, hs, -⟩ := bind_eq_ok.mp hdigest
      exact ⟨s, hs⟩
    · rintro ⟨s, hs⟩
      exact ⟨hexdigest s, bind_eq_ok.mpr ⟨s, hs, rfl⟩⟩
  rw [hencodable, encodable_isOk]
  simp only [JsonValue.surrogate_mem_dumps hraw, surrogate_mem_points]
  exact ⟨fun h text htext n hn => h n ⟨text, htext, hn⟩, fun h n ⟨text, htext, hn⟩ =>
    h text htext n hn⟩

end Dayjaview.Llm
