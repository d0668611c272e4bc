import Dayjaview.News.IngestionSteps
import Mathlib.Data.List.Forall2

/-!
# Batches of news

Over a run of batches no two stored items have the same id, address or title, and what
passes the checks is stored or repeats a stored item. A batch that comes again stores
nothing, and an item with a malformed address only adds its own rejection.
-/

namespace Dayjaview.News

variable [TextTables] [UnicodeTable] [Sha256]

/-- A batch of raw items with the times between which they may have been published. -/
structure Batch where
  items : List RawNewsItem
  now : Datetime
  windowStart : Datetime

namespace NewsIngestor

/-- Take in a batch while no operation of the store raises. -/
def ingestBatch (g : NewsIngestor) (s : InMemoryNewsStore) (b : Batch) :
    Except Error IngestionReport × InMemoryNewsStore :=
  g.ingest .calm s b.items b.now b.windowStart

/-- The store after some batches. -/
def ingestRun (g : NewsIngestor) (batches : List Batch) : InMemoryNewsStore :=
  batches.foldl (fun s b => (g.ingestBatch s b).2) .empty

/-- The items of a batch that pass the checks. -/
def acceptedOf (g : NewsIngestor) (b : Batch) : List NewsItem :=
  b.items.filterMap (g.accepted b.now b.windowStart)

/-- The items of a run that pass the checks. -/
def acceptedItems (g : NewsIngestor) (batches : List Batch) : List NewsItem :=
  batches.flatMap g.acceptedOf

omit [TextTables] [UnicodeTable] [Sha256] in
/-- Two items have the same words in the title, the same publisher and the same time. -/
def SameTitle (a b : NewsItem) : Prop :=
  a.normalizedTitleHash = b.normalizedTitleHash ∧ a.publisher = b.publisher ∧
    a.publishedAt.map Datetime.instant = b.publishedAt.map Datetime.instant

omit [UnicodeTable] [Sha256] in
/-- The normalised address of a raw item can be encoded if the item passes the checks. -/
def Encodes (g : NewsIngestor) (now windowStart : Datetime) (raw : RawNewsItem) : Prop :=
  g.rejectReason raw now windowStart = .ok none →
    ∀ url, canonicalUrl raw.originalUrl = .ok url → ∃ text, url = codePoints text

/-- What becomes of a raw item: it is stored, repeats a stored item or is rejected. -/
def Settled (g : NewsIngestor) (now windowStart : Datetime) (contents : List NewsItem)
    (raw : RawNewsItem) : Outcome → Prop
  | .stored item => g.accepted now windowStart raw = some item ∧ item ∈ contents
  | .duplicate existing =>
    ∃ item, g.accepted now windowStart raw = some item ∧ existing ∈ contents ∧ Shares item existing
  | .rejected news =>
    ∃ reason, g.rejectReason raw now windowStart = .ok (some reason) ∧
      news = ⟨raw.sourceId, raw.sourceItemId, reason⟩

/-- The items of a run can be told apart. -/
structure Distinguishable (g : NewsIngestor) (batches : List Batch) : Prop where
  encodes : ∀ b ∈ batches, ∀ raw ∈ b.items, g.Encodes b.now b.windowStart raw
  ids : ∀ a ∈ g.acceptedItems batches, ∀ b ∈ g.acceptedItems batches, a.newsId = b.newsId →
    Shares a b
  times : ∀ a ∈ g.acceptedItems batches, ∀ b ∈ g.acceptedItems batches,
    SameTitle a b → titleKey a = titleKey b

/-- What holds of a batch behind earlier ones. -/
structure Deduplicated (g : NewsIngestor) (earlier : List Batch) (b : Batch) : Prop where
  distinct : (g.ingestRun (earlier ++ [b])).contents.Pairwise fun x y =>
    x.newsId ≠ y.newsId ∧ x.canonicalUrl ≠ y.canonicalUrl ∧ titleKey x ≠ titleKey y ∧
    ¬ SameTitle x y
  settled : ∃ outcomes,
    g.ingestBatch (g.ingestRun earlier) b =
        (.ok (.ofOutcomes outcomes), g.ingestRun (earlier ++ [b])) ∧
      List.Forall₂ (g.Settled b.now b.windowStart (g.ingestRun (earlier ++ [b])).contents)
        b.items outcomes
  again : ∀ b' ∈ earlier ++ [b], ∃ report,
    g.ingestBatch (g.ingestRun (earlier ++ [b])) b' = (.ok report, g.ingestRun (earlier ++ [b])) ∧
      report.stored = []
  malformed : ∀ before raw after e, b.items = before ++ raw :: after →
    canonicalUrl raw.originalUrl = .error e →
    ∃ reason report report' front back,
      g.ingestBatch (g.ingestRun earlier) b = (.ok report, g.ingestRun (earlier ++ [b])) ∧
        g.ingestBatch (g.ingestRun earlier) { b with items := before ++ after } =
          (.ok report', g.ingestRun (earlier ++ [b])) ∧
        report.stored = report'.stored ∧ report.duplicates = report'.duplicates ∧
        report'.rejected = front ++ back ∧
        report.rejected = front ++ ⟨raw.sourceId, raw.sourceItemId, reason⟩ :: back

open InMemoryNewsStore (Indexed)

variable {g : NewsIngestor} {s : InMemoryNewsStore} {now windowStart : Datetime}

variable {raw : RawNewsItem} {raws : List RawNewsItem} {b : Batch}

theorem accepted_eq_some {item : NewsItem} :
    g.accepted now windowStart raw = some item ↔
      g.rejectReason raw now windowStart = .ok none ∧ g.normalize raw = .ok item := by
  unfold accepted
  split
  · next h => simp [h, toOption_eq_some]
  · next h =>
    constructor
    · intro hnone
      cases hnone
    · exact fun hboth => absurd hboth.1 h

theorem accepted_of_encodes (h : g.Encodes now windowStart raw)
    (hreason : g.rejectReason raw now windowStart = .ok none) :
    ∃ item, g.accepted now windowStart raw = some item := by
  obtain ⟨url, hurl⟩ := canonicalUrl_of_acceptable hreason
  obtain ⟨text, rfl⟩ := h hreason url hurl
  obtain ⟨item, hitem, -⟩ := normalize_eq_ok (g := g) hurl
  exact ⟨item, accepted_eq_some.mpr ⟨hreason, hitem⟩⟩

theorem Settled.mono {contents contents' : List NewsItem} {outcome : Outcome}
    (h : g.Settled now windowStart contents raw outcome) (hsub : ∀ x ∈ contents, x ∈ contents') :
    g.Settled now windowStart contents' raw outcome := by
  cases outcome with
  | stored item => exact ⟨h.1, hsub _ h.2⟩
  | duplicate existing =>
    obtain ⟨item, haccepted, hmem, hshares⟩ := h
    exact ⟨item, haccepted, hsub _ hmem, hshares⟩
  | rejected news => exact h

/-- While the store does not raise, an item is settled whose address can be encoded and whose id no
other stored item has. -/
theorem settled_ingestOne (h : s.Indexed) (hencodes : g.Encodes now windowStart raw)
    (hids : ∀ item, g.accepted now windowStart raw = some item → ∀ x ∈ s.contents,
      x.newsId = item.newsId → Shares item x) (number : Nat) :
    ∃ outcome after, g.ingestOne .calm now windowStart number s raw = (.ok outcome, after) ∧
      TookIn s after (g.accepted now windowStart raw).toList ∧
      g.Settled now windowStart after.contents raw outcome := by
  obtain ⟨reason, hreason⟩ := g.rejectReason_ok raw now windowStart
  unfold ingestOne
  rw [hreason]
  cases reason with
  | some reason =>
    have hnone : g.accepted now windowStart raw = none := by
      unfold accepted
      rw [hreason]
    rw [hnone]
    exact ⟨_, s, rfl, .nil h, reason, hreason, rfl⟩
  | none =>
    obtain ⟨item, haccepted⟩ := accepted_of_encodes hencodes hreason
    have hitem := (accepted_eq_some.mp haccepted).2
    rw [haccepted, hitem]
    dsimp only
    rcases storeItem_cases h .calm number item with
      ⟨-, hfind | ⟨-, hupsert⟩⟩ | ⟨x, hfound, heq⟩ | ⟨⟨x, hx, hid⟩, hnone, -⟩ |
        ⟨hnew, after, heq, hindexed, hcontents, hcursors⟩
    · cases hfind
    · cases hupsert
    · obtain ⟨hx, hshares⟩ := shares_of_lookUp hfound
      exact ⟨_, s, heq, ⟨h, (withNew_of_repeats ⟨x, hx, .inr hshares⟩).symm, rfl⟩,
        item, haccepted, hx, hshares⟩
    · exact absurd (hids item haccepted x hx hid) (lookUp_eq_none.mp hnone x hx)
    · refine ⟨_, after, heq, ⟨hindexed, hcontents.trans (withNew_of_new hnew).symm, hcursors⟩,
        haccepted, ?_⟩
      rw [hcontents]
      simp

theorem mem_filterMap_accepted_cons :
    (raw :: raws).filterMap (g.accepted now windowStart) =
      (g.accepted now windowStart raw).toList ++ raws.filterMap (g.accepted now windowStart) := by
  rw [List.filterMap_cons]
  cases g.accepted now windowStart raw <;> rfl

theorem settled_ingestAll (h : s.Indexed) (hencodes : ∀ raw ∈ raws, g.Encodes now windowStart raw)
    (hids : ∀ x ∈ s.contents ++ raws.filterMap (g.accepted now windowStart),
      ∀ y ∈ s.contents ++ raws.filterMap (g.accepted now windowStart), x.newsId = y.newsId →
      Shares y x)
    (number : Nat) :
    ∃ outcomes after, g.ingestAll .calm now windowStart number s raws = (.ok outcomes, after) ∧
      TookIn s after (raws.filterMap (g.accepted now windowStart)) ∧
      List.Forall₂ (g.Settled now windowStart after.contents) raws outcomes := by
  induction raws generalizing s number with
  | nil => exact ⟨[], s, rfl, .nil h, .nil⟩
  | cons raw raws ih =>
    obtain ⟨outcome, mid, hfirst, htook, hsettled⟩ :=
      settled_ingestOne h (hencodes raw (List.mem_cons_self ..)) (fun item hitem x hx hid =>
        hids x (List.mem_append_left _ hx) item (List.mem_append_right _
          (List.mem_filterMap.mpr ⟨raw, List.mem_cons_self .., hitem⟩)) hid) number
    have hsub : ∀ x ∈ mid.contents ++ raws.filterMap (g.accepted now windowStart),
        x ∈ s.contents ++ (raw :: raws).filterMap (g.accepted now windowStart) := by
      intro x hx
      rw [mem_filterMap_accepted_cons, ← List.append_assoc, List.mem_append]
      rcases List.mem_append.mp hx with hmid | hlater
      · rw [htook.contents] at hmid
        exact .inl (mem_append_of_mem_withAll hmid)
      · exact .inr hlater
    obtain ⟨outcomes, after, hrest, htooks, hall⟩ :=
      ih htook.indexed (fun r hr => hencodes r (List.mem_cons_of_mem _ hr))
        (fun x hx y hy => hids x (hsub x hx) y (hsub y hy)) (number + 1)
    refine ⟨outcome :: outcomes, after, ?_, ?_, .cons (hsettled.mono fun x hx => ?_) hall⟩
    · rw [ingestAll, hfirst]
      dsimp only
      rw [hrest]
      rfl
    · rw [mem_filterMap_accepted_cons]
      exact htook.append htooks
    · rw [htooks.contents]
      exact mem_withAll hx

theorem ingestAll_repeated (h : s.Indexed) (hencodes : ∀ raw ∈ raws, g.Encodes now windowStart raw)
    (hrepeated : ∀ item ∈ raws.filterMap (g.accepted now windowStart),
      ∃ x ∈ s.contents, Repeats item x) (number : Nat) :
    ∃ outcomes, g.ingestAll .calm now windowStart number s raws = (.ok outcomes, s) ∧
      ∀ item, Outcome.stored item ∉ outcomes := by
  induction raws generalizing number with
  | nil => exact ⟨[], rfl, by simp⟩
  | cons raw raws ih =>
    obtain ⟨outcomes, hrest, hnone⟩ := ih (fun r hr => hencodes r (List.mem_cons_of_mem _ hr))
      (fun item hitem => hrepeated item (by
        rw [mem_filterMap_accepted_cons]
        exact List.mem_append_right _ hitem)) (number + 1)
    have hone : ∃ outcome, g.ingestOne .calm now windowStart number s raw = (.ok outcome, s) ∧
        ∀ item, outcome ≠ .stored item := by
      obtain ⟨reason, hreason⟩ := g.rejectReason_ok raw now windowStart
      unfold ingestOne
      rw [hreason]
      cases reason with
      | some reason => exact ⟨_, rfl, by simp⟩
      | none =>
        obtain ⟨item, haccepted⟩ :=
          accepted_of_encodes (hencodes raw (List.mem_cons_self ..)) hreason
        obtain ⟨y, hy, hrepeats⟩ := hrepeated item
          (List.mem_filterMap.mpr ⟨raw, List.mem_cons_self .., haccepted⟩)
        rw [(accepted_eq_some.mp haccepted).2]
        dsimp only
        rcases storeItem_cases h .calm number item with
          ⟨-, hfind | ⟨-, hupsert⟩⟩ | ⟨x, -, heq⟩ | ⟨-, -, heq⟩ | ⟨hnew, -⟩
        · cases hfind
        · cases hupsert
        · exact ⟨_, heq, by simp⟩
        · exact ⟨_, heq, by simp⟩
        · exact absurd hrepeats (hnew y hy)
    obtain ⟨outcome, hfirst, hother⟩ := hone
    refine ⟨outcome :: outcomes, ?_, fun item hitem => ?_⟩
    · rw [ingestAll, hfirst]
      dsimp only
      rw [hrest]
      rfl
    · rcases List.mem_cons.mp hitem with heq | hmem
      · exact hother item heq.symm
      · exact hnone item hmem

theorem ingestAll_calm (g : NewsIngestor) (now windowStart : Datetime) (m n : Nat)
    (s : InMemoryNewsStore) (raws : List RawNewsItem) :
    g.ingestAll .calm now windowStart m s raws = g.ingestAll .calm now windowStart n s raws := by
  induction raws generalizing m n s with
  | nil => rfl
  | cons raw raws ih =>
    have hone : g.ingestOne .calm now windowStart m s raw =
        g.ingestOne .calm now windowStart n s raw := rfl
    rw [ingestAll, ingestAll, hone]
    split
    · rfl
    · rw [ih (m + 1) (n + 1)]

theorem ingestAll_malformed {front back : List RawNewsItem} {e : Error} {outcomes : List Outcome}
    {after : InMemoryNewsStore} (hmalformed : canonicalUrl raw.originalUrl = .error e)
    (number : Nat)
    (h : g.ingestAll .calm now windowStart number s (front ++ raw :: back) =
      (.ok outcomes, after)) :
    ∃ reason first rest,
      outcomes = first ++ .rejected ⟨raw.sourceId, raw.sourceItemId, reason⟩ :: rest ∧
        g.ingestAll .calm now windowStart number s (front ++ back) =
        (.ok (first ++ rest), after) := by
  induction front generalizing s number outcomes with
  | nil =>
    obtain ⟨reason, hreason⟩ := rejectReason_of_malformed (g := g) hmalformed now windowStart
    have hone : g.ingestOne .calm now windowStart number s raw =
        (.ok (.rejected ⟨raw.sourceId, raw.sourceItemId, reason⟩), s) := by
      unfold ingestOne
      rw [hreason]
    rw [List.nil_append, ingestAll, hone] at h
    dsimp only at h
    rw [ingestAll_calm g now windowStart (number + 1) number] at h
    cases hrest : g.ingestAll .calm now windowStart number s back with
    | mk result store =>
      rw [hrest] at h
      obtain ⟨hresult, rfl⟩ := Prod.mk.inj h
      cases result with
      | error e => cases hresult
      | ok rest =>
        cases hresult
        exact ⟨reason, [], rest, rfl, hrest⟩
  | cons first front ih =>
    rw [List.cons_append, ingestAll] at h
    rw [List.cons_append, ingestAll]
    cases hone : g.ingestOne .calm now windowStart number s first with
    | mk result mid =>
      cases result with
      | error e =>
        rw [hone] at h
        cases (Prod.mk.inj h).1
      | ok outcome =>
        rw [hone] at h
        dsimp only at h ⊢
        cases hrest : g.ingestAll .calm now windowStart (number + 1) mid (front ++ raw :: back) with
        | mk result store =>
          rw [hrest] at h
          obtain ⟨hresult, rfl⟩ := Prod.mk.inj h
          cases result with
          | error e => cases hresult
          | ok later =>
            cases hresult
            obtain ⟨reason, before, rest, rfl, hwithout⟩ := ih (number + 1) hrest
            refine ⟨reason, outcome :: before, rest, rfl, ?_⟩
            rw [hwithout]
            rfl

theorem ingestRun_append (g : NewsIngestor) (earlier : List Batch) (b : Batch) :
    g.ingestRun (earlier ++ [b]) = (g.ingestBatch (g.ingestRun earlier) b).2 := by
  simp only [ingestRun, List.foldl_append, List.foldl_cons, List.foldl_nil]

theorem acceptedItems_append (g : NewsIngestor) (earlier : List Batch) (b : Batch) :
    g.acceptedItems (earlier ++ [b]) = g.acceptedItems earlier ++ g.acceptedOf b := by
  simp [acceptedItems]

theorem Distinguishable.earlier {earlier later : List Batch}
    (h : g.Distinguishable (earlier ++ later)) : g.Distinguishable earlier := by
  have hsub : ∀ x ∈ g.acceptedItems earlier, x ∈ g.acceptedItems (earlier ++ later) := by
    intro x hx
    rw [acceptedItems, List.flatMap_append]
    exact List.mem_append_left _ hx
  exact ⟨fun b hb => h.encodes b (List.mem_append_left _ hb),
    fun x hx y hy => h.ids x (hsub x hx) y (hsub y hy),
    fun x hx y hy => h.times x (hsub x hx) y (hsub y hy)⟩

/-- What holds after some batches whose items can be told apart: the indexes describe the contents,
no item repeats another one, every item was accepted, and every accepted one repeats an item. -/
structure Sorted (g : NewsIngestor) (batches : List Batch) : Prop where
  indexed : (g.ingestRun batches).Indexed
  distinct : Distinct (g.ingestRun batches).contents
  accepted : ∀ x ∈ (g.ingestRun batches).contents, x ∈ g.acceptedItems batches
  repeated : ∀ x ∈ g.acceptedItems batches, ∃ y ∈ (g.ingestRun batches).contents, Repeats x y

theorem Sorted.settled_ingestBatch {earlier : List Batch} (h : g.Sorted earlier)
    (hdistinguishable : g.Distinguishable (earlier ++ [b])) :
    ∃ outcomes after, g.ingestAll .calm b.now b.windowStart 0 (g.ingestRun earlier) b.items =
        (.ok outcomes, after) ∧ TookIn (g.ingestRun earlier) after (g.acceptedOf b) ∧
      List.Forall₂ (g.Settled b.now b.windowStart after.contents) b.items outcomes := by
  have hmem : ∀ x ∈ (g.ingestRun earlier).contents ++
      b.items.filterMap (g.accepted b.now b.windowStart), x ∈ g.acceptedItems (earlier ++ [b]) := by
    intro x hx
    rw [acceptedItems_append, List.mem_append]
    exact (List.mem_append.mp hx).imp (h.accepted x) id
  refine settled_ingestAll h.indexed (hdistinguishable.encodes b (by simp)) ?_ 0
  intro x hx y hy hid
  exact hdistinguishable.ids y (hmem y hy) x (hmem x hx) hid.symm

theorem ingestBatch_of_ingestAll {outcomes : List Outcome} {after : InMemoryNewsStore}
    (h : g.ingestAll .calm b.now b.windowStart 0 s b.items = (.ok outcomes, after)) :
    g.ingestBatch s b = (.ok (.ofOutcomes outcomes), after) := by
  unfold ingestBatch ingest
  rw [h]
  rfl

theorem Sorted.append {earlier : List Batch} (h : g.Sorted earlier)
    (hdistinguishable : g.Distinguishable (earlier ++ [b])) : g.Sorted (earlier ++ [b]) := by
  obtain ⟨outcomes, after, hingest, htook, -⟩ := h.settled_ingestBatch hdistinguishable
  have hafter : g.ingestRun (earlier ++ [b]) = after := by
    rw [ingestRun_append, ingestBatch_of_ingestAll hingest]
  constructor
  · rw [hafter]
    exact htook.indexed
  · rw [hafter, htook.contents]
    exact h.distinct.withAll _
  · rw [hafter, htook.contents, acceptedItems_append]
    intro x hx
    exact List.mem_append.mpr ((List.mem_append.mp (mem_append_of_mem_withAll hx)).imp
      (h.accepted x) id)
  · rw [hafter, htook.contents, acceptedItems_append]
    intro x hx
    rcases List.mem_append.mp hx with hold | hnew
    · obtain ⟨y, hy, hrepeats⟩ := h.repeated x hold
      exact ⟨y, mem_withAll hy, hrepeats⟩
    · exact exists_repeats_withAll hnew

theorem sorted_run {batches : List Batch} (h : g.Distinguishable batches) : g.Sorted batches := by
  induction batches using List.reverseRecOn with
  | nil =>
    constructor
    · exact InMemoryNewsStore.indexed_empty
    · exact .nil
    · intro x hx
      cases hx
    · intro x hx
      cases hx
  | append_singleton earlier b ih => exact (ih h.earlier).append h

/-- In a run whose items can be told apart every batch is free of duplicates. -/
theorem deduplicated_run (g : NewsIngestor) (earlier : List Batch) (b : Batch)
    (h : g.Distinguishable (earlier ++ [b])) : g.Deduplicated earlier b := by
  have hbefore := sorted_run h.earlier
  have hsorted := sorted_run h
  obtain ⟨outcomes, after, hingest, htook, hsettled⟩ := hbefore.settled_ingestBatch h
  have hafter : g.ingestRun (earlier ++ [b]) = after := by
    rw [ingestRun_append, ingestBatch_of_ingestAll hingest]
  constructor
  · refine hsorted.distinct.imp_of_mem fun {x y} hx hy hnot => ⟨?_, ?_, ?_, ?_⟩
    · exact fun heq => hnot (.inl heq)
    · exact fun heq => hnot (.inr (.inl heq))
    · exact fun heq => hnot (.inr (.inr heq))
    · exact fun hsame => hnot (.inr (.inr
        (h.times x (hsorted.accepted x hx) y (hsorted.accepted y hy) hsame)))
  · rw [hafter]
    exact ⟨outcomes, ingestBatch_of_ingestAll hingest, hsettled⟩
  · intro b' hb'
    have hitems : ∀ item ∈ b'.items.filterMap (g.accepted b'.now b'.windowStart),
        ∃ x ∈ (g.ingestRun (earlier ++ [b])).contents, Repeats item x := fun item hitem =>
      hsorted.repeated item (List.mem_flatMap.mpr ⟨b', hb', hitem⟩)
    obtain ⟨outcomes', hagain, hnone⟩ :=
      ingestAll_repeated hsorted.indexed (h.encodes b' hb') hitems 0
    refine ⟨_, ingestBatch_of_ingestAll hagain, ?_⟩
    refine List.filterMap_eq_nil_iff.mpr fun outcome houtcome => ?_
    cases outcome with
    | stored item => exact absurd houtcome (hnone item)
    | duplicate existing => rfl
    | rejected news => rfl
  · intro front raw back e hitems hmalformed
    rw [hitems] at hingest
    obtain ⟨reason, first, rest, rfl, hwithout⟩ := ingestAll_malformed hmalformed 0 hingest
    rw [← hitems] at hingest
    rw [hafter]
    refine ⟨reason, _, _, (IngestionReport.ofOutcomes first).rejected,
      (IngestionReport.ofOutcomes rest).rejected, ingestBatch_of_ingestAll hingest,
      ingestBatch_of_ingestAll hwithout, ?_, ?_, ?_, ?_⟩
    all_goals simp [IngestionReport.ofOutcomes]

omit [TextTables] [UnicodeTable] [Sha256]

def noticeTime : Datetime := (Date.august 18).seoul 9 0

/-- A notice about a stock at an address. -/
def noticeFields (url : List CodePoint) : RawNewsItem.Fields where
  sourceId := "naver"
  sourceType := .naverNewsSearch
  sourceItemId := "1"
  publisher := "한국일보"
  title := "[특징주] 한국원전"
  description := ""
  originalUrl := url
  publishedAt := some noticeTime
  retrievedAt := noticeTime

def noticeUrl : List CodePoint := codePoints "https://example.com/1"

/-- The same with half of a surrogate pair behind it. -/
def malformedUrl : List CodePoint := noticeUrl ++ [.surrogate 0]

theorem postInit_notice : (noticeFields noticeUrl).postInit = .ok () := by decide +kernel

theorem postInit_malformed : (noticeFields malformedUrl).postInit = .ok () := by decide +kernel

def notice : RawNewsItem := ⟨noticeFields noticeUrl, postInit_notice⟩

/-- The notice with the malformed address. -/
def malformedNotice : RawNewsItem := ⟨noticeFields malformedUrl, postInit_malformed⟩

def noticeIngestor : NewsIngestor :=
  ⟨Dict.empty.set "한국원전" "KRX:000001", []⟩

def noticeBatch (items : List RawNewsItem) : Batch := ⟨items, noticeTime, noticeTime⟩

theorem canonicalUrl_notice :
    letI : TextTables := .ascii
    canonicalUrl noticeUrl = .ok noticeUrl := by
  decide +kernel

/-- A notice that comes twice, and again in the next batch, is stored once. -/
theorem deduplicated_notice :
    letI : TextTables := .ascii
    letI : UnicodeTable := .ascii
    letI : Sha256 := .ofTable []
    noticeIngestor.Deduplicated [noticeBatch [notice, notice]] (noticeBatch [notice, notice]) := by
  let _ : TextTables := .ascii
  let _ : UnicodeTable := .ascii
  let _ : Sha256 := .ofTable []
  have hsame : ∀ a ∈ noticeIngestor.acceptedItems
      ([noticeBatch [notice, notice]] ++ [noticeBatch [notice, notice]]),
      noticeIngestor.accepted noticeTime noticeTime notice = some a := by
    intro a ha
    simpa [acceptedItems, acceptedOf, noticeBatch] using ha
  refine deduplicated_run _ _ _ ⟨?_, ?_, ?_⟩
  · intro b hb raw hraw _ url hurl
    obtain rfl : b = noticeBatch [notice, notice] := by simpa using hb
    obtain rfl : raw = notice := by simpa [noticeBatch] using hraw
    obtain rfl := Except.ok.inj (canonicalUrl_notice.symm.trans hurl)
    exact ⟨_, rfl⟩
  · intro a ha b hb _
    obtain rfl := Option.some.inj ((hsame a ha).symm.trans (hsame b hb))
    exact .inl rfl
  · intro a ha b hb _
    rw [Option.some.inj ((hsame a ha).symm.trans (hsame b hb))]

/-- A notice whose address cannot be encoded passes the checks and ends the batch, and the
notice behind it is not stored. -/
theorem not_deduplicated_malformed :
    letI : TextTables := .ascii
    letI : UnicodeTable := .ascii
    letI : Sha256 := .ofTable []
    noticeIngestor.rejectReason notice noticeTime noticeTime = .ok none ∧
      (noticeIngestor.ingestBatch .empty (noticeBatch [malformedNotice, notice])).1 =
        .error surrogatesNotAllowed ∧
      ¬ noticeIngestor.Deduplicated [] (noticeBatch [malformedNotice, notice]) := by
  let _ : TextTables := .ascii
  let _ : UnicodeTable := .ascii
  let _ : Sha256 := .ofTable []
  have hraises : (noticeIngestor.ingestBatch .empty (noticeBatch [malformedNotice, notice])).1 =
      .error surrogatesNotAllowed := by
    decide +kernel
  refine ⟨by decide +kernel, hraises, fun h => ?_⟩
  obtain ⟨outcomes, heq, -⟩ := h.settled
  have hok := congrArg Prod.fst heq
  rw [show noticeIngestor.ingestRun [] = .empty from rfl, hraises] at hok
  cases hok

end NewsIngestor

end Dayjaview.News
