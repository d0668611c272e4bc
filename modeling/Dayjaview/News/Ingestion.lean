import Dayjaview.News.Normalize
import Dayjaview.News.Store

/-!
# Taking in news

A raw item is rejected, or it is normalised and stored unless the store has its address
or its title already. Which operations of the store raise is decided from outside.
-/

namespace Dayjaview.News

/-- The error is a value error. -/
def isValueError (e : Error) : Bool :=
  e.kind == .valueError || e.kind == .unicodeEncodeError || e.kind == .unicodeDecodeError ||
    e.kind == .jsonDecodeError

/-- The sources whose titles have to be those of notices. -/
def FEATURED_SOURCE_TYPES : List NewsSourceType := [.rss, .naverNewsSearch, .supplementalSearch]

/-- An item that is not stored. -/
structure RejectedNews where
  sourceId : String
  sourceItemId : String
  reason : RejectionReason
  deriving DecidableEq

inductive Outcome where
  | stored (item : NewsItem)
  | duplicate (existing : NewsItem)
  | rejected (news : RejectedNews)

structure IngestionReport where
  stored : List NewsItem
  duplicates : List NewsItem
  rejected : List RejectedNews
  deriving DecidableEq

/-- The report of some outcomes. -/
def IngestionReport.ofOutcomes (outcomes : List Outcome) : IngestionReport where
  stored := outcomes.filterMap fun
    | .stored item => some item
    | _ => none
  duplicates := outcomes.filterMap fun
    | .duplicate item => some item
    | _ => none
  rejected := outcomes.filterMap fun
    | .rejected news => some news
    | _ => none

/-- Which operations of the store raise, by the number of the cursor or the item. -/
structure StoreFailures where
  putCursor : Nat → Option Error := fun _ => none
  findDuplicate : Nat → Option Error := fun _ => none
  upsert : Nat → Option Error := fun _ => none

/-- No operation of the store raises. -/
def StoreFailures.calm : StoreFailures := {}

/-- What items are looked through for. -/
structure NewsIngestor where
  stockDirectory : Dict String String
  entities : List String

/-- Where a name stands in a text, one place behind the other. -/
def spansFrom (name : List Char) : Nat → Nat → List Char → List (Nat × Nat)
  | _, _, [] => []
  | position, skip + 1, _ :: cs => spansFrom name (position + 1) skip cs
  | position, 0, c :: cs =>
    if name.isPrefixOf (c :: cs) then
      (position, position + name.length) :: spansFrom name (position + 1) (name.length - 1) cs
    else spansFrom name (position + 1) 0 cs

namespace NewsIngestor

/-- The names that stand in a text, each with its places. -/
def namesIn (g : NewsIngestor) (haystack : String) : List (String × List (Nat × Nat)) :=
  (g.stockDirectory.keys.filter fun name => name ≠ "" && isPart name haystack).map fun name =>
    (name, spansFrom name.toList 0 0 haystack.toList)

/-- The name stands somewhere on its own and not only within longer ones. -/
def standsAlone (spans : List (String × List (Nat × Nat))) (name : String)
    (own : List (Nat × Nat)) : Bool :=
  let longer := (spans.filter fun other =>
    other.1 ≠ name && decide (name.length < other.1.length) && isPart name other.1).flatMap (·.2)
  own.any fun place => !longer.any fun outer => decide (outer.1 ≤ place.1 ∧ place.2 ≤ outer.2)

/-- The stocks that title and description name. -/
def resolveStocks (g : NewsIngestor) (title description : String) : List String :=
  let spans := g.namesIn s!"{title} {description}"
  let kept := (spans.filter fun entry => standsAlone spans entry.1 entry.2).map (·.1)
  (kept.filterMap g.stockDirectory.get?).eraseDups

/-- The terms that an item names. -/
def resolveEntities (g : NewsIngestor) (raw : RawNewsItem) : List String :=
  g.entities.filter fun term => isPart term s!"{raw.title} {raw.description} {raw.body}"

variable [TextTables]

def rejectReason (g : NewsIngestor) (raw : RawNewsItem) (now windowStart : Datetime) :
    Except Error (Option RejectionReason) :=
  if FEATURED_SOURCE_TYPES.contains raw.sourceType && !isFeaturedStockTitle raw.title then
    .ok (some .notFeaturedStock)
  else
    match canonicalUrl raw.originalUrl with
    | .error e => if isValueError e then .ok (some .invalidUrl) else .error e
    | .ok _ =>
      if g.resolveStocks raw.title raw.description = [] then .ok (some .noListedStock)
      else if raw.publishedAt.any fun t => decide (now < t) then .ok (some .publishedInFuture)
      else if raw.publishedAt.any fun t => decide (t < windowStart) then
        .ok (some .publishedBeforeWindow)
      else .ok none

variable [UnicodeTable] [Sha256]

omit [TextTables] in
/-- The fields of the item that is stored for a raw one with a normalised address. -/
def normalizedFields (g : NewsIngestor) (raw : RawNewsItem) (canonical : String) :
    NewsItem.Fields where
  newsId := newsId canonical
  sourceId := raw.sourceId
  sourceType := raw.sourceType
  sourceItemId := raw.sourceItemId
  canonicalUrl := canonical
  originalUrl := raw.originalUrl
  publisher := raw.publisher
  title := raw.title
  description := raw.description
  publishedAt := raw.publishedAt
  retrievedAt := raw.retrievedAt
  normalizedTitleHash := titleHash raw.title
  contentHash := contentHash raw.title raw.description
  rightsScope := raw.rightsScope
  ingestionStatus := .stored
  stockIds := g.resolveStocks raw.title raw.description
  entities := g.resolveEntities raw
  body := raw.body

/-- The item that is stored for a raw one. -/
def normalize (g : NewsIngestor) (raw : RawNewsItem) : Except Error NewsItem := do
  let canonical ← canonicalUrl raw.originalUrl
  -- the id is the digest of the encoded address
  let canonical ← encodable canonical
  NewsItem.make (g.normalizedFields raw canonical)

omit [TextTables] [Sha256] in
/-- Store an item unless it is there already. -/
def storeItem (failures : StoreFailures) (number : Nat) (store : InMemoryNewsStore)
    (item : NewsItem) : Except Error Outcome × InMemoryNewsStore :=
  match failures.findDuplicate number with
  | some e => (.error e, store)
  | none =>
    match store.findDuplicate item with
    | .error e => (.error e, store)
    | .ok (some existing) => (.ok (.duplicate existing), store)
    | .ok none =>
      match failures.upsert number with
      | some e => (.error e, store)
      | none =>
        let (created, store) := store.upsert item
        (.ok (if created then .stored item else .duplicate item), store)

def ingestOne (g : NewsIngestor) (failures : StoreFailures) (now windowStart : Datetime)
    (number : Nat) (store : InMemoryNewsStore) (raw : RawNewsItem) :
    Except Error Outcome × InMemoryNewsStore :=
  match g.rejectReason raw now windowStart with
  | .error e => (.error e, store)
  | .ok (some reason) => (.ok (.rejected ⟨raw.sourceId, raw.sourceItemId, reason⟩), store)
  | .ok none =>
    match g.normalize raw with
    | .error e => (.error e, store)
    | .ok item => storeItem failures number store item

/-- Take in items one after the other. -/
def ingestAll (g : NewsIngestor) (failures : StoreFailures) (now windowStart : Datetime) :
    Nat → InMemoryNewsStore → List RawNewsItem → Except Error (List Outcome) × InMemoryNewsStore
  | _, store, [] => (.ok [], store)
  | number, store, raw :: raws =>
    match g.ingestOne failures now windowStart number store raw with
    | (.error e, store) => (.error e, store)
    | (.ok outcome, store) =>
      let (outcomes, store) := g.ingestAll failures now windowStart (number + 1) store raws
      (outcomes.map (outcome :: ·), store)

def ingest (g : NewsIngestor) (failures : StoreFailures) (store : InMemoryNewsStore)
    (raws : List RawNewsItem) (now windowStart : Datetime) :
    Except Error IngestionReport × InMemoryNewsStore :=
  let (outcomes, store) := g.ingestAll failures now windowStart 0 store raws
  (outcomes.map IngestionReport.ofOutcomes, store)

end NewsIngestor

/-- An index finds the last item with a key. -/
def IndexedBy {κ : Type} [DecidableEq κ] (key : NewsItem → κ) (index : Dict κ String)
    (items : List NewsItem) : Prop :=
  ∀ k, index.get? k = (items.reverse.find? fun x => key x = k).map (·.newsId)

theorem indexedBy_empty {κ : Type} [DecidableEq κ] (key : NewsItem → κ) :
    IndexedBy key .empty [] := fun _ => rfl

variable {items : List NewsItem}

theorem IndexedBy.set {κ : Type} [DecidableEq κ] {key : NewsItem → κ} {index : Dict κ String}
    (h : IndexedBy key index items) (item : NewsItem) :
    IndexedBy key (index.set (key item) item.newsId) (items ++ [item]) := by
  intro k
  rw [Dict.get?_set, List.reverse_append, List.reverse_singleton, List.singleton_append,
    List.find?_cons]
  by_cases hk : k = key item
  · simp [hk]
  · have hother : ¬ key item = k := fun h => hk h.symm
    simp [hk, hother, h k]

variable [UnicodeTable]

/-- Two items have the same address or the same title. -/
def Shares (item other : NewsItem) : Prop :=
  other.canonicalUrl = item.canonicalUrl ∨ titleKey other = titleKey item

instance (item other : NewsItem) : Decidable (Shares item other) :=
  inferInstanceAs (Decidable (_ ∨ _))

/-- Only one of two items can be stored. -/
def Repeats (item other : NewsItem) : Prop := other.newsId = item.newsId ∨ Shares item other

instance (item other : NewsItem) : Decidable (Repeats item other) :=
  inferInstanceAs (Decidable (_ ∨ _))

/-- The item that is found for another one: the last with its address, else with its title. -/
def lookUp (items : List NewsItem) (item : NewsItem) : Option NewsItem :=
  (items.reverse.find? fun x => x.canonicalUrl = item.canonicalUrl).or
    (items.reverse.find? fun x => titleKey x = titleKey item)

theorem shares_of_lookUp {item found : NewsItem} (h : lookUp items item = some found) :
    found ∈ items ∧ Shares item found := by
  rw [lookUp, Option.or_eq_some_iff] at h
  rcases h with hurl | ⟨-, htitle⟩
  · exact ⟨List.mem_reverse.mp (List.mem_of_find?_eq_some hurl),
      .inl (by simpa using List.find?_some hurl)⟩
  · exact ⟨List.mem_reverse.mp (List.mem_of_find?_eq_some htitle),
      .inr (by simpa using List.find?_some htitle)⟩

theorem lookUp_eq_none {item : NewsItem} :
    lookUp items item = none ↔ ∀ x ∈ items, ¬ Shares item x := by
  simp only [lookUp, Option.or_eq_none_iff, List.find?_eq_none, List.mem_reverse, decide_eq_true_eq,
    Shares, not_or, ← forall_and]

namespace InMemoryNewsStore

def contents (s : InMemoryNewsStore) : List NewsItem := s.items.values

/-- The indexes of a store describe its contents. -/
structure Indexed (s : InMemoryNewsStore) : Prop where
  own : ∀ id item, s.items.get? id = some item → item.newsId = id
  url : IndexedBy (·.canonicalUrl) s.byCanonicalUrl s.contents
  title : IndexedBy titleKey s.byTitleKey s.contents

theorem indexed_empty : Indexed empty where
  own _ _ h := by cases h
  url := indexedBy_empty _
  title := indexedBy_empty _

variable {s : InMemoryNewsStore}

theorem Indexed.mem_contents (h : s.Indexed) {item : NewsItem} :
    item ∈ s.contents ↔ s.items.get? item.newsId = some item := by
  rw [contents, Dict.mem_values_iff]
  constructor
  · rintro ⟨id, hid⟩
    rw [h.own id item hid]
    exact hid
  · exact fun hid => ⟨_, hid⟩

theorem Indexed.isSome_get? (h : s.Indexed) {id : String} :
    (s.items.get? id).isSome ↔ ∃ x ∈ s.contents, x.newsId = id := by
  rw [Option.isSome_iff_exists]
  constructor
  · rintro ⟨x, hx⟩
    obtain rfl := h.own id x hx
    exact ⟨x, h.mem_contents.mpr hx, rfl⟩
  · rintro ⟨x, hx, rfl⟩
    exact ⟨x, h.mem_contents.mp hx⟩

theorem Indexed.upsert_cases (h : s.Indexed) (item : NewsItem) :
    ((∃ x ∈ s.contents, x.newsId = item.newsId) ∧ s.upsert item = (false, s)) ∨
      ((∀ x ∈ s.contents, x.newsId ≠ item.newsId) ∧ (s.upsert item).1 = true ∧
        (s.upsert item).2.contents = s.contents ++ [item] ∧ (s.upsert item).2.Indexed ∧
        (s.upsert item).2.cursors = s.cursors) := by
  unfold upsert
  split
  · next hsome => exact .inl ⟨h.isSome_get?.mp hsome, rfl⟩
  · next hnone =>
    have hfresh : s.items.get? item.newsId = none := Option.not_isSome_iff_eq_none.mp hnone
    have hcontents : (s.items.set item.newsId item).values = s.items.values ++ [item] :=
      Dict.values_set_of_get?_eq_none _ _ hfresh
    refine .inr ⟨fun x hx heq => hnone (h.isSome_get?.mpr ⟨x, hx, heq⟩), rfl, hcontents, ?_, rfl⟩
    constructor
    · intro id x hx
      rw [Dict.get?_set] at hx
      split at hx
      · next heq =>
        cases hx
        exact heq.symm
      · exact h.own id x hx
    · intro url
      have hset := h.url.set item url
      rw [contents, hcontents]
      exact hset
    · intro key
      have hset := h.title.set item key
      rw [contents, hcontents]
      exact hset

theorem Indexed.existingId_eq (h : s.Indexed) (item : NewsItem) :
    s.existingId item = (lookUp s.contents item).map (·.newsId) := by
  rw [existingId, lookUp, h.url, h.title, Option.map_or]

omit [UnicodeTable] in
theorem newsId_ne_empty (item : NewsItem) : item.newsId ≠ "" := by
  intro hempty
  have hvalid := item.valid
  unfold NewsItem.Fields.postInit requireText at hvalid
  rw [hempty] at hvalid
  simp [isBlank] at hvalid

theorem Indexed.findDuplicate_eq (h : s.Indexed) (item : NewsItem) :
    s.findDuplicate item = .ok (lookUp s.contents item) := by
  unfold findDuplicate
  rw [h.existingId_eq item]
  cases hfound : lookUp s.contents item with
  | none => rfl
  | some found =>
    have hstored : s.items.get? found.newsId = some found :=
      h.mem_contents.mp (shares_of_lookUp hfound).1
    have hid := newsId_ne_empty item
    simp only [Option.map_some]
    split
    · next heq => rw [if_neg (heq ▸ hid), hstored]
    · rw [hstored]

end InMemoryNewsStore

end Dayjaview.News
