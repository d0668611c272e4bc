import Dayjaview.Core.CodePoints
import Dayjaview.Core.Timedelta

/-!
# News

A raw item is what a source returns; a news item is the unit that is stored, with
the keys by which duplicates are found. The address of an item is kept as it came,
which need not be a text that can be encoded.
-/

namespace Dayjaview.News

inductive NewsSourceType where
  | rss
  | naverNewsSearch
  | supplementalSearch
  deriving DecidableEq

/-- What may be stored and shown. -/
inductive RightsScope where
  | metadataOnly
  | summaryAllowed
  | fullTextAllowed
  deriving DecidableEq

inductive IngestionStatus where
  | stored
  | duplicate
  | rejected
  deriving DecidableEq

inductive RejectionReason where
  | notFeaturedStock
  | noListedStock
  | invalidUrl
  | publishedInFuture
  | publishedBeforeWindow
  deriving DecidableEq

/-- The fields of an item as the source returned it. -/
structure RawNewsItem.Fields where
  sourceId : String
  sourceType : NewsSourceType
  sourceItemId : String
  publisher : String
  title : String
  description : String
  originalUrl : List CodePoint
  publishedAt : Option Datetime
  retrievedAt : Datetime
  rightsScope : RightsScope := .summaryAllowed
  body : String := ""

/-- The checks of a raw item, in order. -/
def RawNewsItem.Fields.postInit (r : RawNewsItem.Fields) : Except Error Unit := do
  requireText r.sourceId "source_id"
  requireText r.sourceItemId "source_item_id"
  requireText r.publisher "publisher"
  requireText r.title "title"
  ensure (stripPoints r.originalUrl ≠ []) "original_url은 비어 있을 수 없습니다"
  ensure (r.rightsScope = .fullTextAllowed ∨ r.body = "") "본문 저장이 허용되지 않은 공급원입니다"

/-- An item as the source returned it. -/
structure RawNewsItem extends RawNewsItem.Fields where
  valid : toFields.postInit = .ok ()

/-- The fields of a stored item. -/
structure NewsItem.Fields where
  newsId : String
  sourceId : String
  sourceType : NewsSourceType
  sourceItemId : String
  canonicalUrl : String
  originalUrl : List CodePoint
  publisher : String
  title : String
  description : String
  publishedAt : Option Datetime
  retrievedAt : Datetime
  normalizedTitleHash : String
  contentHash : String
  rightsScope : RightsScope
  ingestionStatus : IngestionStatus
  stockIds : List String := []
  entities : List String := []
  body : String := ""
  deriving DecidableEq

/-- The checks of a stored item, in order. -/
def NewsItem.Fields.postInit (n : NewsItem.Fields) : Except Error Unit := do
  requireText n.newsId "news_id"
  requireText n.canonicalUrl "canonical_url"
  ensure n.stockIds.Nodup "stock_ids에 중복이 있습니다"

structure NewsItem extends NewsItem.Fields where
  valid : toFields.postInit = .ok ()
  deriving DecidableEq

/-- Build a stored item, or report the first failed check. -/
def NewsItem.make (n : NewsItem.Fields) : Except Error NewsItem :=
  checked NewsItem.Fields.postInit NewsItem.mk n

/-- The text that may be handed to the language model. -/
def NewsItem.groundableText (n : NewsItem) : String :=
  " ".intercalate ([n.title, n.description, n.body].filter (· ≠ ""))

inductive SourceStatus where
  | healthy
  | retrying
  | failed
  deriving DecidableEq

/-- How far a source has been read. -/
structure SourceCursor where
  sourceId : String
  sourceType : NewsSourceType
  lastSourceItemId : Option String := none
  lastPublishedAt : Option Datetime := none
  lastPolledAt : Option Datetime := none
  nextPollAt : Option Datetime := none
  status : SourceStatus := .healthy
  lastError : Option String := none
  consecutiveFailures : Nat := 0

end Dayjaview.News
