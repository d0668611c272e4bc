import Dayjaview.Core.Dict
import Dayjaview.Core.Ranking
import Dayjaview.News.Models
import Mathlib.Data.Prod.Lex
import Mathlib.Data.String.Basic

/-!
# The store of the news

Items are kept under their ids, with an index by address and one by title. An item is
stored once; a search goes through all items.
-/

namespace Dayjaview.News

/-- The digest of a title, who published it and when. -/
abbrev TitleKey := String × String × String

section Items

variable [UnicodeTable]

/-- The key by which two items have the same title. -/
def titleKey (item : NewsItem) : TitleKey :=
  (item.normalizedTitleHash, casefoldText (strip item.publisher),
    (item.publishedAt.map Datetime.isoformat).getD "")

end Items

structure InMemoryNewsStore where
  items : Dict String NewsItem
  byCanonicalUrl : Dict String String
  byTitleKey : Dict TitleKey String
  cursors : Dict String SourceCursor

namespace InMemoryNewsStore

/-- The store without any item. -/
def empty : InMemoryNewsStore := ⟨.empty, .empty, .empty, .empty⟩

variable [UnicodeTable]

/-- Store an item under a new id. -/
def upsert (s : InMemoryNewsStore) (item : NewsItem) : Bool × InMemoryNewsStore :=
  if (s.items.get? item.newsId).isSome then (false, s)
  else
    (true, { s with
      items := s.items.set item.newsId item
      byCanonicalUrl := s.byCanonicalUrl.set item.canonicalUrl item.newsId
      byTitleKey := s.byTitleKey.set (titleKey item) item.newsId })

/-- The id of the item with the same address or title. -/
def existingId (s : InMemoryNewsStore) (item : NewsItem) : Option String :=
  (s.byCanonicalUrl.get? item.canonicalUrl).or (s.byTitleKey.get? (titleKey item))

/-- The item with the same address or title. -/
def findDuplicate (s : InMemoryNewsStore) (item : NewsItem) : Except Error (Option NewsItem) :=
  match s.existingId item with
  | none => .ok none
  | some existing =>
    if existing = item.newsId then .ok (if existing = "" then none else s.items.get? existing)
    else
      match s.items.get? existing with
      | none => .error ⟨.keyError, existing⟩
      | some found => .ok (some found)

end InMemoryNewsStore

end Dayjaview.News
