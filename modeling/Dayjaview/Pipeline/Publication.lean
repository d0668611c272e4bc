import Dayjaview.Pipeline.Records
import Dayjaview.Realtime.SnapshotRuns

/-!
# The publications of the pipeline

A publication dates its snapshots by the latest evaluated calculation, and by the
present time as long as nothing was evaluated. The latest calculation never goes
back, but the first one may be earlier than the present time that an empty board
was dated by.
-/

namespace Dayjaview.Pipeline

open Dayjaview.Domain Dayjaview.Calculations Dayjaview.Realtime

/-- The parameters of the published ranking. -/
def RANKINGS_PARAMS : Json := .obj [("limit", .int 10)]

/-- The parameters of the published treemap. -/
def TREEMAP_PARAMS : Json := .obj [("limit", .int 12)]

/-- The pipeline with the repository of its snapshots. -/
structure PublishingPipeline extends MarketDataPipeline where
  schemaVersion : String
  membershipVersion : String
  snapshots : SnapshotRepository
  publicationIndex : Nat

/-- What a publication shows: how its items come out of the rest of the pipeline. -/
structure PublishedContents where
  items : Except Error Json
  treemapItems : Except Error Json
  dataStatus : DataStatus

/-- The snapshots of a publication. -/
structure PublishedView where
  rankings : ReadSnapshot
  treemap : ReadSnapshot

/-- What a publication raises: an error of the calculation and evaluation, or one of a snapshot. -/
inductive PublishError where
  | evaluation (e : Error)
  | snapshot (e : Error)
  deriving DecidableEq

/-- The id of the publication with a number. -/
def publicationId (streamId : String) (number : Nat) : String := s!"{streamId}:pub:{number}"

namespace PublishingPipeline

/-- The pipeline at the start of a trading day, with no snapshots. -/
def start (settings : PipelineSettings) (catalog : VersionedThemeCatalog)
    (references : List StockReference) (schemaVersion membershipVersion : String) :
    PublishingPipeline where
  toMarketDataPipeline := .start settings catalog references
  schemaVersion
  membershipVersion
  snapshots := .empty
  publicationIndex := 0

def publication (p : PublishingPipeline) (topic : SnapshotTopic) (params payload : Json)
    (now asOf : Datetime) (dataStatus : DataStatus) : Except Error SnapshotPublication := do
  let versions ← SnapshotVersions.make {
    schemaVersion := p.schemaVersion
    calculationVersion := THEME_CALCULATION_POLICY_V1.version
    rankingModelVersion := RANKING_MODEL_VERSION
    membershipVersion := p.membershipVersion }
  SnapshotPublication.make {
    publicationId := publicationId p.streamId (p.publicationIndex + 1)
    streamId := p.streamId
    topic
    params
    marketDate := p.marketDate
    generatedAt := Datetime.latest now asOf
    asOf
    dataStatus
    qualityFlags := []
    payload
    versions }

variable [Sha256]

def publishSnapshot (p : PublishingPipeline) (topic : SnapshotTopic) (params payload : Json)
    (now asOf : Datetime) (dataStatus : DataStatus) :
    Except Error ReadSnapshot × PublishingPipeline :=
  let publication := p.publication topic params payload now asOf dataStatus
  let p := { p with publicationIndex := p.publicationIndex + 1 }
  match publication with
  | .error e => (.error e, p)
  | .ok publication =>
    let (result, snapshots) := p.snapshots.publish publication
    (result, { p with snapshots })

def itemsPayload (items : Json) : Json := .obj [("items", items)]

/-- Publish the ranking and the treemap. -/
def publishSnapshots (p : PublishingPipeline) (contents : PublishedContents) (now asOf : Datetime) :
    Except PublishError PublishedView × PublishingPipeline :=
  match contents.items with
  | .error e => (.error (.evaluation e), p)
  | .ok items =>
    match p.publishSnapshot .themeRank RANKINGS_PARAMS (itemsPayload items) now asOf
        contents.dataStatus with
    | (.error e, p) => (.error (.snapshot e), p)
    | (.ok rankings, p) =>
      match contents.treemapItems with
      | .error e => (.error (.evaluation e), p)
      | .ok items =>
        match p.publishSnapshot .themeTreemap TREEMAP_PARAMS (itemsPayload items) now asOf
            contents.dataStatus with
        | (.error e, p) => (.error (.snapshot e), p)
        | (.ok treemap, p) => (.ok ⟨rankings, treemap⟩, p)

/-- Recompute and evaluate the themes, then publish their snapshots. -/
def publish (p : PublishingPipeline) (around : Surroundings) (contents : PublishedContents)
    (now : Datetime) : Except PublishError PublishedView × PublishingPipeline :=
  let (result, s) := p.toMarketDataPipeline.publish { around with rest := .ok () } now
  let p := { p with toMarketDataPipeline := s }
  match result with
  | .error e => (.error (.evaluation e), p)
  | .ok () => p.publishSnapshots contents now (p.lastAsOf.getD now)

end PublishingPipeline

/-- A call of the publishing pipeline. -/
inductive PublishingCall where
  | applyUpdate (update : StockRealtimeUpdate)
  | publish (around : Surroundings) (contents : PublishedContents) (now : Datetime)
  | closeMarket (around : Surroundings) (now : Datetime)

/-- The times of the publications. -/
def publishTimes (calls : List PublishingCall) : List Datetime :=
  calls.filterMap fun
    | .publish _ _ now => some now
    | _ => none

namespace PublishingPipeline

variable [Sha256]

def call (p : PublishingPipeline) : PublishingCall → PublishingPipeline
  | .applyUpdate update =>
    { p with toMarketDataPipeline := (p.toMarketDataPipeline.applyUpdate update).2 }
  | .publish around contents now => (p.publish around contents now).2
  | .closeMarket around now =>
    { p with toMarketDataPipeline := (p.toMarketDataPipeline.closeMarket around now).2 }

/-- The pipeline after some calls, each returned or raised. -/
def run (p : PublishingPipeline) (calls : List PublishingCall) : PublishingPipeline :=
  calls.foldl call p

theorem run_snoc (p : PublishingPipeline) (calls : List PublishingCall) (c : PublishingCall) :
    p.run (calls ++ [c]) = (p.run calls).call c := by
  simp only [run, List.foldl_append, List.foldl_cons, List.foldl_nil]

end PublishingPipeline

namespace MarketDataPipeline

/-- The times that the next publication may be dated by: the latest one so far and, while the market
is open, those of the marked themes and of the other calculations. -/
def dates (s : MarketDataPipeline) : List Datetime :=
  s.lastAsOf.toList ++ if s.marketClosed then [] else
    s.aggregator.pending.map (fun mark => mark.asOf) ++
      (s.latestMetrics.values.filter fun u =>
        (s.aggregator.dirty.get? (dirtyKey u.themeId s.marketDate)).isNone).map fun u => u.asOf

theorem mem_orderedMetrics {s : MarketDataPipeline} {u : ThemeMetricUpdate} :
    u ∈ s.orderedMetrics ↔ ∃ theme, s.latestMetrics.get? theme = some u := by
  rw [orderedMetrics, List.mem_map]
  constructor
  · rintro ⟨⟨theme, u⟩, hmem, rfl⟩
    exact ⟨theme, s.latestMetrics.mem_entries_iff.mp
      (s.latestMetrics.sortedEntries_perm.mem_iff.mp hmem)⟩
  · rintro ⟨theme, hget⟩
    exact ⟨(theme, u), s.latestMetrics.sortedEntries_perm.mem_iff.mpr
      (s.latestMetrics.mem_entries_iff.mpr hget), rfl⟩

theorem le_noteAll (s : MarketDataPipeline) (updates : List ThemeMetricUpdate) :
    ∀ t, (t ∈ s.lastAsOf ∨ ∃ u ∈ updates, u.asOf = t) →
      ∃ last ∈ (s.noteAll updates).lastAsOf, t ≤ last := by
  have hnote : ∀ (s : MarketDataPipeline) (asOf t : Datetime), (t ∈ s.lastAsOf ∨ asOf = t) →
      ∃ last ∈ (s.noteAsOf asOf).lastAsOf, t ≤ last := by
    intro s asOf t ht
    unfold noteAsOf
    split
    · next hlater =>
      refine ⟨asOf, rfl, ?_⟩
      rcases ht with ht | rfl
      · exact le_of_lt (hlater t ht)
      · exact le_refl _
    · next hkept =>
      push Not at hkept
      obtain ⟨last, hlast, hle⟩ := hkept
      refine ⟨last, hlast, ?_⟩
      rcases ht with ht | rfl
      · obtain rfl := Option.mem_unique ht hlast
        exact le_refl _
      · exact Int.not_lt.mp hle
  induction updates generalizing s with
  | nil =>
    rintro t (ht | ⟨u, hu, -⟩)
    · exact ⟨t, ht, le_refl _⟩
    · cases hu
  | cons update updates ih =>
    rintro t ht
    have hfirst : (t ∈ s.lastAsOf ∨ update.asOf = t) ∨ ∃ u ∈ updates, u.asOf = t := by
      rcases ht with ht | ⟨u, hu, htime⟩
      · exact .inl (.inl ht)
      · rcases List.mem_cons.mp hu with rfl | hu
        · exact .inl (.inr htime)
        · exact .inr ⟨u, hu, htime⟩
    rcases hfirst with hfirst | hlater
    · obtain ⟨last, hlast, hle⟩ := hnote s update.asOf t hfirst
      obtain ⟨final, hfinal, hle'⟩ := ih (s.noteAsOf update.asOf) last (.inl hlast)
      exact ⟨final, hfinal, le_trans hle hle'⟩
    · exact ih (s.noteAsOf update.asOf) t (.inr hlater)

theorem publish_dates [Sha256] {s : MarketDataPipeline} (h : s.Filed) {around : Surroundings}
    {now : Datetime} (hok : (s.publish around now).1 = .ok ()) :
    (∀ d ∈ s.dates, ∃ last ∈ (s.publish around now).2.lastAsOf, d ≤ last) ∧
      (s.dates = [] → (s.publish around now).2.lastAsOf = none) := by
  obtain ⟨treated, hsame, -, htreated⟩ := s.publish_data around now
  obtain ⟨hdrain, rfl⟩ := htreated hok
  rw [hsame.lastAsOf]
  rcases h.recalculate_cases with ⟨e, heq⟩ | ⟨drained, heq, hdrains⟩
  · rw [heq] at hdrain
    cases hdrain
  rw [heq]
  obtain ⟨_, _, hdrained, -⟩ := hdrains.same
  have hlast : drained.lastAsOf = s.lastAsOf := by rw [hdrained]
  have hnoted := le_noteAll drained (if s.marketClosed then [] else drained.orderedMetrics)
  constructor
  · intro d hd
    apply hnoted
    rcases List.mem_append.mp hd with hd | hd
    · exact .inl (hlast ▸ Option.mem_toList.mp hd)
    right
    by_cases hclosed : s.marketClosed = true
    · simp [hclosed] at hd
    simp only [hclosed, Bool.false_eq_true, if_false, List.mem_append, List.mem_map] at hd ⊢
    rcases hd with ⟨mark, hmark, rfl⟩ | ⟨u, hu, rfl⟩
    · obtain ⟨key, hkey⟩ := DirtyThemeAggregator.mem_pending.mp hmark
      have hown : s.aggregator.dirty.get? (dirtyKey mark.themeId s.marketDate) = some mark :=
        (h.mark_eq hkey).1 ▸ hkey
      rcases hdrains.stored mark.themeId with ⟨mark', u, hmark', hrecompute, hget⟩ | ⟨hnone, -⟩
      · obtain rfl : mark = mark' := Option.some.inj (hown.symm.trans hmark')
        exact ⟨u, mem_orderedMetrics.mpr ⟨_, hget⟩,
          (DirtyThemeAggregator.recompute_eq_ok hrecompute).2.2⟩
      · cases hown.symm.trans hnone
    · obtain ⟨hu, hunmarked⟩ := List.mem_filter.mp hu
      obtain ⟨theme, hget⟩ := s.latestMetrics.mem_values_iff.mp hu
      rw [(h.stored theme u hget).1, Option.isNone_iff_eq_none] at hunmarked
      rcases hdrains.stored theme with ⟨mark, _, hmark, -, -⟩ | ⟨-, hkept⟩
      · cases hmark.symm.trans hunmarked
      · exact ⟨u, mem_orderedMetrics.mpr ⟨theme, hkept.trans hget⟩, rfl⟩
  · intro hnone
    obtain ⟨hundated, hothers⟩ := List.append_eq_nil_iff.mp hnone
    have htreated : (if s.marketClosed then [] else drained.orderedMetrics) = [] := by
      by_cases hclosed : s.marketClosed = true
      · rw [if_pos hclosed]
      rw [if_neg hclosed] at hothers ⊢
      obtain ⟨hmarks, hmetrics⟩ := List.append_eq_nil_iff.mp hothers
      rw [List.map_eq_nil_iff] at hmarks hmetrics
      refine List.eq_nil_iff_forall_not_mem.mpr fun u hu => ?_
      obtain ⟨theme, hget⟩ := mem_orderedMetrics.mp hu
      rcases hdrains.stored theme with ⟨mark, _, hmark, -, -⟩ | ⟨hunmarked, hkept⟩
      · have hpending := DirtyThemeAggregator.mem_pending.mpr ⟨_, hmark⟩
        rw [hmarks] at hpending
        cases hpending
      · have hearlier : s.latestMetrics.get? theme = some u := hkept.symm.trans hget
        have hmem : u ∈ s.latestMetrics.values.filter fun u =>
            (s.aggregator.dirty.get? (dirtyKey u.themeId s.marketDate)).isNone := by
          refine List.mem_filter.mpr ⟨s.latestMetrics.mem_values_iff.mpr ⟨theme, hearlier⟩, ?_⟩
          rw [(h.stored theme u hearlier).1, hunmarked]
          rfl
        rw [hmetrics] at hmem
        cases hmem
    rw [htreated]
    exact hlast.trans (Option.toList_eq_nil_iff.mp hundated)

end MarketDataPipeline

theorem publicationId_injective (streamId : String) :
    Function.Injective (publicationId streamId) := by
  intro i j h
  have hrepr : i.repr = j.repr := by simpa [publicationId] using h
  exact natText_injective (String.ofList_injective hrepr)

namespace PublishingPipeline

/-- What is known of the repository: only numbered publications were answered. -/
def Numbered (p : PublishingPipeline) : Prop :=
  ∀ id receipt, p.snapshots.receipts.get? id = some receipt →
    ∃ i ≤ p.publicationIndex, id = publicationId p.streamId i

variable {asOf now : Datetime} {p : PublishingPipeline} {s : MarketDataPipeline} {items : Json}

theorem publication_eq_ok {topic : SnapshotTopic} {params payload : Json} {dataStatus : DataStatus}
    {publication : SnapshotPublication}
    (h : p.publication topic params payload now asOf dataStatus = .ok publication) :
    publication.publicationId = publicationId p.streamId (p.publicationIndex + 1) ∧
      publication.asOf = asOf ∧ publication.streamId = p.streamId ∧ publication.topic = topic ∧
      publication.params = params.sortKeys := by
  obtain ⟨versions, -, h⟩ := bind_eq_ok.mp h
  unfold SnapshotPublication.make at h
  split at h
  · next fields hfields =>
    cases h
    simp only [SnapshotPublication.Fields.postInit, check_bind_eq_ok] at hfields
    obtain ⟨-, -, -, -, hcopied⟩ := hfields
    obtain ⟨copied, hparams, hcopied⟩ := bind_eq_ok.mp hcopied
    obtain ⟨payload, -, hcopied⟩ := bind_eq_ok.mp hcopied
    cases hcopied
    refine ⟨rfl, rfl, rfl, rfl, ?_⟩
    obtain ⟨-, hparams⟩ := check_bind_eq_ok.mp hparams
    split at hparams
    · exact (Except.ok.inj hparams).symm
    · cases hparams
  · cases h

theorem notStale_publication (p : PublishingPipeline) (topic : SnapshotTopic)
    (params payload : Json) (now asOf : Datetime) (dataStatus : DataStatus) :
    SnapshotRepository.NotStale (p.publication topic params payload now asOf dataStatus) :=
  (SnapshotRepository.notStale_versions _).bind fun _ => SnapshotRepository.notStale_publication _

variable [Sha256]

/-- The scope of the snapshots of a topic. -/
def scopeOf (p : PublishingPipeline) (topic : SnapshotTopic) (params : Json) : SnapshotScope :=
  (p.streamId, topic, opaqueId "params" params.sortKeys.canonical)

theorem scope_publication {topic : SnapshotTopic} {params payload : Json} {dataStatus : DataStatus}
    {publication : SnapshotPublication}
    (h : p.publication topic params payload now asOf dataStatus = .ok publication) :
    publication.scope = p.scopeOf topic params := by
  obtain ⟨-, -, hstream, htopic, hparams⟩ := publication_eq_ok h
  rw [SnapshotPublication.scope, SnapshotPublication.paramsKey, hstream, htopic, hparams, scopeOf]

/-- What publishing a snapshot does: nothing but count it when it raises, and it calls the
publication stale only if a stored snapshot is later; otherwise it stores the snapshot. -/
inductive SnapshotStep (p p' : PublishingPipeline) (scope : SnapshotScope) (asOf : Datetime) :
    Except Error ReadSnapshot → Prop where
  | raised (e : Error) (hkept : p.snapshots.SameTables p'.snapshots)
      (hstale : e.kind = .staleSnapshotPublication →
        ∃ id latest, p.snapshots.snapshots.get? id = some latest ∧ asOf < latest.asOf) :
      SnapshotStep p p' scope asOf (.error e)
  | stored (s : ReadSnapshot) (hasOf : s.asOf = asOf)
      (hstored : p'.snapshots.snapshots = p.snapshots.snapshots.set s.snapshotId s)
      (hlatest : p'.snapshots.latestIds = p.snapshots.latestIds.set scope s.snapshotId) :
      SnapshotStep p p' scope asOf (.ok s)

omit [Sha256] in
theorem Numbered.receipt_none (h : p.Numbered) :
    p.snapshots.receipts.get? (publicationId p.streamId (p.publicationIndex + 1)) = none := by
  cases hget : p.snapshots.receipts.get? (publicationId p.streamId (p.publicationIndex + 1)) with
  | none => rfl
  | some receipt =>
    obtain ⟨i, hle, hsame⟩ := h _ receipt hget
    have hnumber := publicationId_injective _ hsame
    omega

theorem publishSnapshot_step (h : p.Numbered) (topic : SnapshotTopic) (params payload : Json)
    (now asOf : Datetime) (dataStatus : DataStatus) :
    let result := p.publishSnapshot topic params payload now asOf dataStatus
    result.2.toMarketDataPipeline = p.toMarketDataPipeline ∧ result.2.Numbered ∧
      SnapshotStep p result.2 (p.scopeOf topic params) asOf result.1 := by
  have hmono : ∀ id receipt, p.snapshots.receipts.get? id = some receipt →
      ∃ i ≤ p.publicationIndex + 1, id = publicationId p.streamId i := by
    intro id receipt hget
    obtain ⟨i, hle, hid⟩ := h id receipt hget
    exact ⟨i, Nat.le_succ_of_le hle, hid⟩
  intro result
  have hresult : result = p.publishSnapshot topic params payload now asOf dataStatus := rfl
  unfold publishSnapshot at hresult
  dsimp only at hresult
  split at hresult
  · next e he =>
    rw [hresult]
    refine ⟨rfl, hmono, .raised e ⟨rfl, rfl, rfl, rfl⟩ fun hkind => ?_⟩
    exact absurd hkind (p.notStale_publication _ _ _ _ _ _ e he)
  · next publication hpublication =>
    obtain ⟨hid, hasOf, -⟩ := publication_eq_ok hpublication
    rw [hresult]
    refine ⟨rfl, ?_, ?_⟩
    · rcases p.snapshots.publish_cases publication with hsame | ⟨s, r', hnew, hstore, hpublish⟩
      · intro id receipt hget
        exact hmono id receipt (hsame.2.2.2 ▸ hget)
      · intro id receipt hget
        obtain ⟨fingerprint, -, rfl⟩ := SnapshotRepository.store_eq_ok hstore
        dsimp only at hget
        rw [hpublish, Dict.get?_set] at hget
        split at hget
        · next heq => exact ⟨p.publicationIndex + 1, le_rfl, heq.trans hid⟩
        · exact hmono id receipt hget
    · have hnew := hid ▸ h.receipt_none
      cases hpublish : (p.snapshots.publish publication).1 with
      | error e =>
        refine .raised e (SnapshotRepository.sameTables_of_error hpublish) fun hkind => ?_
        rw [← hasOf]
        exact SnapshotRepository.stale_of_publish hpublish hkind
      | ok s =>
        obtain ⟨r', hstore, hafter⟩ := SnapshotRepository.publish_of_new hnew hpublish
        obtain ⟨fingerprint, hstores, rfl⟩ := SnapshotRepository.store_eq_ok hstore
        refine .stored s (hstores.asOf.trans hasOf) ?_ ?_
        · dsimp only
          rw [hafter]
        · dsimp only
          rw [hafter, scope_publication hpublication]

section

omit [Sha256]

/-- A snapshot that is no earlier than a time is stored. -/
def Reached (p : PublishingPipeline) (t : Datetime) : Prop :=
  ∃ id s, p.snapshots.snapshots.get? id = some s ∧ t ≤ s.asOf

/-- No stored snapshot is later than a time. -/
def Within (p : PublishingPipeline) (t : Datetime) : Prop :=
  ∀ id s, p.snapshots.snapshots.get? id = some s → s.asOf ≤ t

/-- The latest snapshot of a scope is dated by a time. -/
def LatestAt (p : PublishingPipeline) (scope : SnapshotScope) (t : Datetime) : Prop :=
  ∃ id latest, p.snapshots.latestIds.get? scope = some id ∧
    p.snapshots.snapshots.get? id = some latest ∧ latest.asOf = t

/-- What happens between two states while snapshots of one time are published. -/
structure PublishesAt (p p' : PublishingPipeline) (asOf : Datetime) : Prop where
  same : p'.toMarketDataPipeline = p.toMarketDataPipeline
  numbered : p'.Numbered
  stored : ∀ id s, p'.snapshots.snapshots.get? id = some s →
    p.snapshots.snapshots.get? id = some s ∨ s.asOf = asOf
  reached : ∀ t, p.Reached t → p'.Reached t
  latest : ∀ scope, p.LatestAt scope asOf → p'.LatestAt scope asOf

theorem PublishesAt.refl (h : p.Numbered) (asOf : Datetime) :
    PublishesAt p p asOf := ⟨rfl, h, fun _ _ => .inl, fun _ => id, fun _ => id⟩

theorem PublishesAt.trans {q r : PublishingPipeline} (h : PublishesAt p q asOf)
    (h' : PublishesAt q r asOf) : PublishesAt p r asOf where
  same := h'.same.trans h.same
  numbered := h'.numbered
  stored id s hget := (h'.stored id s hget).elim (h.stored id s) .inr
  reached t ht := h'.reached t (h.reached t ht)
  latest scope hlatest := h'.latest scope (h.latest scope hlatest)

theorem PublishesAt.within {p' : PublishingPipeline} (h : PublishesAt p p' asOf)
    (hwithin : p.Within asOf) : p'.Within asOf := by
  intro id s hget
  rcases h.stored id s hget with hearlier | hasOf
  · exact hwithin id s hearlier
  · rw [hasOf]

end

theorem publishSnapshot_at (h : p.Numbered) (hwithin : p.Within asOf) (topic : SnapshotTopic)
    (params payload : Json) (now : Datetime) (dataStatus : DataStatus) :
    let result := p.publishSnapshot topic params payload now asOf dataStatus
    PublishesAt p result.2 asOf ∧
      (∀ e, result.1 = .error e → e.kind ≠ .staleSnapshotPublication) ∧
      ∀ s, result.1 = .ok s →
        s.asOf = asOf ∧ result.2.LatestAt (p.scopeOf topic params) asOf := by
  obtain ⟨hsame, hnumbered, hstep⟩ :=
    publishSnapshot_step h topic params payload now asOf dataStatus
  intro result
  generalize hanswer : (p.publishSnapshot topic params payload now asOf dataStatus).1 =
    answer at hstep
  cases hstep with
  | raised e hkept hstale =>
    obtain ⟨-, hsnapshots, hids, -⟩ := hkept
    refine ⟨⟨hsame, hnumbered, fun id s hget => .inl (hsnapshots ▸ hget), ?_, ?_⟩, ?_, ?_⟩
    · rintro t ⟨id, s, hget, hle⟩
      exact ⟨id, s, hsnapshots.symm ▸ hget, hle⟩
    · intro scope hlatest
      rwa [LatestAt, hsnapshots, hids]
    · intro e' he' hkind
      cases he'
      obtain ⟨id, latest, hget, hlt⟩ := hstale hkind
      exact absurd hlt (not_lt_of_ge (hwithin id latest hget))
    · intro s hs
      cases hs
  | stored s hasOf hstored hids =>
    have hget : result.2.snapshots.snapshots.get? s.snapshotId = some s := by
      rw [hstored, Dict.get?_set_self]
    have hnow : result.2.LatestAt (p.scopeOf topic params) asOf :=
      ⟨s.snapshotId, s, by rw [hids, Dict.get?_set_self], hget, hasOf⟩
    refine ⟨⟨hsame, hnumbered, ?_, ?_, ?_⟩, ?_, ?_⟩
    · intro id s' hget
      rw [hstored, Dict.get?_set] at hget
      split at hget
      · cases hget
        exact .inr hasOf
      · exact .inl hget
    · rintro t ⟨id, s', hget', hle⟩
      exact ⟨s.snapshotId, s, hget, hasOf ▸ le_trans hle (hwithin id s' hget')⟩
    · rintro scope ⟨id, latest, hid, hlatest, hbefore⟩
      by_cases hscope : scope = p.scopeOf topic params
      · exact hscope ▸ hnow
      rw [LatestAt, hids, hstored, Dict.get?_set, if_neg hscope]
      -- a snapshot that was replaced had the same date
      by_cases hreplaced : id = s.snapshotId
      · exact ⟨id, s, hid, by rw [hreplaced, Dict.get?_set_self], hasOf⟩
      · exact ⟨id, latest, hid, by rw [Dict.get?_set, if_neg hreplaced, hlatest], hbefore⟩
    · intro e he
      cases he
    · intro s' hs
      cases hs
      exact ⟨hasOf, hnow⟩

theorem publishSnapshots_at (h : p.Numbered) (hwithin : p.Within asOf)
    (contents : PublishedContents) (now : Datetime) :
    let result := p.publishSnapshots contents now asOf
    PublishesAt p result.2 asOf ∧
      (∀ e, result.1 = .error (.snapshot e) → e.kind ≠ .staleSnapshotPublication) ∧
      ∀ view, result.1 = .ok view → view.rankings.asOf = asOf ∧ view.treemap.asOf = asOf ∧
        result.2.LatestAt (p.scopeOf .themeRank RANKINGS_PARAMS) asOf := by
  unfold publishSnapshots
  split
  · exact ⟨.refl h asOf, fun _ he => (by cases he), fun _ hview => (by cases hview)⟩
  · next items _ =>
    obtain ⟨hrankings, hfresh, hview⟩ := publishSnapshot_at h hwithin .themeRank RANKINGS_PARAMS
      (itemsPayload items) now contents.dataStatus
    split
    · next e q heq =>
      rw [heq] at hrankings hfresh
      refine ⟨hrankings, fun e' he' => ?_, fun _ hview => (by cases hview)⟩
      cases he'
      exact hfresh e rfl
    · next rankings q heq =>
      rw [heq] at hrankings hview
      obtain ⟨hasOf, hlatest⟩ := hview rankings rfl
      split
      · exact ⟨hrankings, fun _ he => (by cases he), fun _ hview => (by cases hview)⟩
      · next items _ =>
        obtain ⟨htreemap, hfresh', hview'⟩ := publishSnapshot_at hrankings.numbered
          (hrankings.within hwithin) .themeTreemap TREEMAP_PARAMS (itemsPayload items) now
          contents.dataStatus
        split
        · next e q' heq' =>
          rw [heq'] at htreemap hfresh'
          refine ⟨hrankings.trans htreemap, fun e' he' => ?_, fun _ hview => (by cases hview)⟩
          cases he'
          exact hfresh' e rfl
        · next treemap q' heq' =>
          rw [heq'] at htreemap hview'
          obtain ⟨hasOf', -⟩ := hview' treemap rfl
          refine ⟨hrankings.trans htreemap, fun _ he => (by cases he), fun view hv => ?_⟩
          cases hv
          exact ⟨hasOf, hasOf', htreemap.latest _ hlatest⟩

section

omit [Sha256]

/-- The next publication will not be dated behind a stored snapshot: if it has a date of its own,
one of its dates is no earlier. -/
def Fresh (p : PublishingPipeline) : Prop :=
  p.dates ≠ [] → ∀ id s, p.snapshots.snapshots.get? id = some s → ∃ d ∈ p.dates, s.asOf ≤ d

/-- What holds between two calls, after publications at some times. -/
structure Dated (p : PublishingPipeline) (times : List Datetime) : Prop where
  filed : p.toMarketDataPipeline.Filed
  numbered : p.Numbered
  undated : p.lastAsOf = none → ∀ id s, p.snapshots.snapshots.get? id = some s →
    ∃ now ∈ times, s.asOf ≤ now

theorem dated_start (settings : PipelineSettings) (catalog : VersionedThemeCatalog)
    (references : List StockReference) (schemaVersion membershipVersion : String) :
    Dated (start settings catalog references schemaVersion membershipVersion) [] where
  filed := MarketDataPipeline.filed_start settings catalog references
  numbered _ _ h := by cases h
  undated _ _ _ h := by cases h

theorem Numbered.of_settings (h : p.Numbered)
    (hsettings : s.toPipelineSettings = p.toPipelineSettings) :
    Numbered { p with toMarketDataPipeline := s } := by
  intro id receipt hget
  obtain ⟨i, hle, hid⟩ := h id receipt hget
  exact ⟨i, hle, hid.trans (by rw [← hsettings])⟩

end

theorem lastAsOf_of_publish {around : Surroundings} (h : (s.publish around now).2.lastAsOf = none) :
    s.lastAsOf = none := by
  obtain ⟨treated, hsame, -⟩ := s.publish_data around now
  have hrecalculated := s.recalculate_keeps.2
  rw [hsame.lastAsOf] at h
  by_contra hsome
  obtain ⟨last, hlast⟩ := Option.ne_none_iff_exists'.mp hsome
  obtain ⟨after, hafter, -⟩ :=
    MarketDataPipeline.le_noteAll s.recalculate.2 treated last (.inl (hrecalculated.trans hlast))
  rw [h] at hafter
  cases hafter

theorem Dated.publish {times : List Datetime} (h : p.Dated times) (htimes : ∀ t ∈ times, t ≤ now)
    (hfresh : p.Fresh) (around : Surroundings) (contents : PublishedContents) :
    let result := p.publish around contents now
    result.2.Dated (times ++ [now]) ∧
      (∀ e, result.1 = .error (.snapshot e) → e.kind ≠ .staleSnapshotPublication) ∧
      (∀ t, p.Reached t → result.2.Reached t) ∧
      ∀ view, result.1 = .ok view → ∃ asOf, p.Within asOf ∧ view.rankings.asOf = asOf ∧
        view.treemap.asOf = asOf ∧ result.2.Reached asOf := by
  have hfiled := h.filed.call (.publish { around with rest := .ok () } now)
  have hsettings := p.toMarketDataPipeline.settings_call
    (.publish { around with rest := .ok () } now)
  have hdates := @MarketDataPipeline.publish_dates _ p.toMarketDataPipeline h.filed
    { around with rest := .ok () } now
  have hforget := @lastAsOf_of_publish now p.toMarketDataPipeline _ { around with rest := .ok () }
  unfold PublishingPipeline.publish
  dsimp only [MarketDataPipeline.call] at hfiled hsettings
  cases hpublish : p.toMarketDataPipeline.publish { around with rest := .ok () } now with
  | mk result s =>
    rw [hpublish] at hfiled hsettings hdates hforget
    dsimp only at hfiled hsettings hdates hforget ⊢
    have hnumbered := h.numbered.of_settings hsettings
    cases result with
    | error e =>
      refine ⟨⟨hfiled, hnumbered, fun hnone id snapshot hget => ?_⟩, fun _ he => (by cases he),
        fun _ => id, fun _ hview => (by cases hview)⟩
      obtain ⟨t, ht, hle⟩ := h.undated (hforget hnone) id snapshot hget
      exact ⟨t, List.mem_append_left _ ht, hle⟩
    | ok =>
      obtain ⟨hdated, hundated⟩ := hdates rfl
      have hwithin : Within { p with toMarketDataPipeline := s } (s.lastAsOf.getD now) := by
        intro id snapshot hget
        by_cases hnone : p.dates = []
        · have hlast := hundated hnone
          obtain ⟨t, ht, hle⟩ := h.undated (hforget hlast) id snapshot hget
          rw [hlast]
          exact le_trans hle (htimes t ht)
        · obtain ⟨d, hd, hle⟩ := hfresh hnone id snapshot hget
          obtain ⟨last, hlast, hle'⟩ := hdated d hd
          rw [Option.mem_def.mp hlast]
          exact le_trans hle hle'
      obtain ⟨hat, hstale, hview⟩ := publishSnapshots_at hnumbered hwithin contents now
      refine ⟨⟨hat.same ▸ hfiled, hat.numbered, fun hnone id snapshot hget => ?_⟩, hstale,
        hat.reached, fun view hv => ?_⟩
      · have hlast : s.lastAsOf = none :=
          (congrArg MarketDataPipeline.lastAsOf hat.same).symm.trans hnone
        rcases hat.stored id snapshot hget with hearlier | hasOf
        · obtain ⟨t, ht, hle⟩ := h.undated (hforget hlast) id snapshot hearlier
          exact ⟨t, List.mem_append_left _ ht, hle⟩
        · refine ⟨now, by simp, ?_⟩
          rw [hasOf, hlast]
          exact le_refl _
      · obtain ⟨hrankings, htreemap, id, latest, -, hget, hlatest⟩ := hview view hv
        exact ⟨_, hwithin, hrankings, htreemap, id, latest, hget, hlatest ▸ le_refl _⟩

/-- The publications of some calls to a pipeline come in the order of their times, and all of them
are fresh. -/
structure FreshRun (p : PublishingPipeline) (calls : List PublishingCall) : Prop where
  times : (publishTimes calls).Pairwise (· ≤ ·)
  fresh : ∀ earlier around contents now later,
    calls = earlier ++ .publish around contents now :: later → (p.run earlier).Fresh

theorem FreshRun.shorter {earlier later : List PublishingCall} (h : FreshRun p (earlier ++ later)) :
    FreshRun p earlier where
  times := by
    have htimes := h.times
    rw [publishTimes, List.filterMap_append] at htimes
    exact (List.pairwise_append.mp htimes).1
  fresh := by
    rintro earlier' around contents now later' rfl
    exact h.fresh earlier' around contents now (later' ++ later) (by simp)

theorem Dated.call {calls : List PublishingCall} {c : PublishingCall}
    (h : (p.run calls).Dated (publishTimes calls)) (hrun : FreshRun p (calls ++ [c])) :
    ((p.run calls).call c).Dated (publishTimes (calls ++ [c])) ∧
      ∀ t, (p.run calls).Reached t → ((p.run calls).call c).Reached t := by
  have htimes : publishTimes (calls ++ [c]) = publishTimes calls ++ publishTimes [c] :=
    List.filterMap_append ..
  rw [htimes]
  cases c with
  | applyUpdate update =>
    have hsettings := (p.run calls).toMarketDataPipeline.settings_call (.applyUpdate update)
    have hlast := (p.run calls).toMarketDataPipeline.lastAsOf_applyUpdate update
    refine ⟨⟨h.filed.applyUpdate update, h.numbered.of_settings hsettings, fun hnone => ?_⟩,
      fun _ => id⟩
    rw [show publishTimes [.applyUpdate update] = [] from rfl, List.append_nil]
    exact h.undated (hlast.symm.trans hnone)
  | publish around contents now =>
    have hbefore : ∀ t ∈ publishTimes calls, t ≤ now := by
      have hpairs := hrun.times
      rw [htimes] at hpairs
      exact fun t ht => (List.pairwise_append.mp hpairs).2.2 t ht now (by simp [publishTimes])
    have hfresh := hrun.fresh calls around contents now [] rfl
    obtain ⟨hdated, -, hreached, -⟩ := h.publish hbefore hfresh around contents
    exact ⟨hdated, hreached⟩
  | closeMarket around now =>
    have hsettings := (p.run calls).toMarketDataPipeline.settings_call (.closeMarket around now)
    have hsame := (p.run calls).toMarketDataPipeline.closeMarket_data around now
    have hfiled := h.filed.call (.closeMarket around now)
    refine ⟨⟨hfiled, h.numbered.of_settings hsettings, fun hnone => ?_⟩, fun _ => id⟩
    rw [show publishTimes [.closeMarket around now] = [] from rfl, List.append_nil]
    exact h.undated (hsame.lastAsOf.symm.trans hnone)

theorem dated_run (hp : p.Dated []) (calls : List PublishingCall) (hrun : FreshRun p calls) :
    (p.run calls).Dated (publishTimes calls) := by
  induction calls using List.reverseRecOn with
  | nil => exact hp
  | append_singleton calls c ih =>
    rw [run_snoc]
    exact ((ih hrun.shorter).call hrun).1

theorem reached_run (hp : p.Dated []) (earlier later : List PublishingCall)
    (hrun : FreshRun p (earlier ++ later)) {t : Datetime} (h : (p.run earlier).Reached t) :
    (p.run (earlier ++ later)).Reached t := by
  induction later using List.reverseRecOn with
  | nil => simpa using h
  | append_singleton later c ih =>
    rw [← List.append_assoc] at hrun ⊢
    rw [run_snoc]
    exact ((dated_run hp _ hrun.shorter).call hrun).2 t (ih hrun.shorter)

/-- In a run whose publications come in order and are fresh, no publication is called stale, and the
snapshots of a publication are not earlier than those of a publication before. -/
theorem publish_in_order (settings : PipelineSettings) (catalog : VersionedThemeCatalog)
    (references : List StockReference) (schemaVersion membershipVersion : String)
    (calls : List PublishingCall)
    (hrun : FreshRun (start settings catalog references schemaVersion membershipVersion) calls) :
    let p := start settings catalog references schemaVersion membershipVersion
    ∀ earlier around contents now later,
      calls = earlier ++ .publish around contents now :: later →
      (∀ e, ((p.run earlier).publish around contents now).1 = .error (.snapshot e) →
        e.kind ≠ .staleSnapshotPublication) ∧
      ∀ view, ((p.run earlier).publish around contents now).1 = .ok view →
        ∀ first around' contents' now' between,
          earlier = first ++ .publish around' contents' now' :: between →
          ∀ before, ((p.run first).publish around' contents' now').1 = .ok before →
            before.rankings.asOf ≤ view.rankings.asOf ∧ before.treemap.asOf ≤
            view.treemap.asOf := by
  intro p earlier around contents now later hcalls
  have hp : p.Dated [] :=
    dated_start settings catalog references schemaVersion membershipVersion
  have hstep : ∀ earlier around contents now later,
      calls = earlier ++ .publish around contents now :: later →
      (∀ e, ((p.run earlier).publish around contents now).1 = .error (.snapshot e) →
        e.kind ≠ .staleSnapshotPublication) ∧
      ∀ view, ((p.run earlier).publish around contents now).1 = .ok view →
        ∃ asOf, (p.run earlier).Within asOf ∧ view.rankings.asOf = asOf ∧ view.treemap.asOf = asOf ∧
          (p.run (earlier ++ [.publish around contents now])).Reached asOf := by
    intro earlier around contents now later hcalls
    have hsplit : calls = (earlier ++ [.publish around contents now]) ++ later := by simp [hcalls]
    have hshort : FreshRun p (earlier ++ [.publish around contents now]) := (hsplit ▸ hrun).shorter
    have hbefore : ∀ t ∈ publishTimes earlier, t ≤ now := by
      have hpairs := hshort.times
      rw [publishTimes, List.filterMap_append] at hpairs
      exact fun t ht => (List.pairwise_append.mp hpairs).2.2 t ht now (by simp)
    have hdated := dated_run hp earlier hshort.shorter
    obtain ⟨-, hstale, -, hview⟩ := hdated.publish hbefore
      (hrun.fresh earlier around contents now later hcalls) around contents
    refine ⟨hstale, fun view hv => ?_⟩
    rw [run_snoc]
    exact hview view hv
  refine ⟨(hstep earlier around contents now later hcalls).1, ?_⟩
  rintro view hview first around' contents' now' between rfl before hbefore
  obtain ⟨asOf, hwithin, hrankings, htreemap, -⟩ :=
    (hstep _ around contents now later hcalls).2 view hview
  obtain ⟨asOf', -, hrankings', htreemap', hreached⟩ :=
    (hstep first around' contents' now' _ (hcalls.trans (List.append_assoc ..))).2 before hbefore
  have hsplit : first ++ .publish around' contents' now' :: between =
      (first ++ [.publish around' contents' now']) ++ between := by simp
  have hbegins : FreshRun p ((first ++ [.publish around' contents' now']) ++ between) := by
    rw [← hsplit]
    exact (hcalls ▸ hrun).shorter
  obtain ⟨id, s, hget, hle⟩ := reached_run hp _ between hbegins hreached
  rw [← hsplit] at hget
  have hlater := le_trans hle (hwithin id s hget)
  rw [hrankings, hrankings', htreemap, htreemap']
  exact ⟨hlater, hlater⟩

open HotStateStore (tick)
open MarketRun (laterTick tenPastNine)
open Dayjaview.Events (fivePastNine)

def emptyContents : PublishedContents := ⟨.ok (.arr []), .ok (.arr []), .live⟩

/-- An empty board that is published, and again after a later tick. -/
def twoBoards : List PublishingCall :=
  [.publish .calm emptyContents fivePastNine, .applyUpdate laterTick,
    .publish .calm emptyContents tenPastNine]

/-- After a first publication that was dated by the present time, an update from that time on leaves
the next one fresh. -/
theorem fresh_after_update (h : p.Numbered) (hnone : ∀ id, p.snapshots.snapshots.get? id = none)
    {around : Surroundings} {contents : PublishedContents} {update : StockRealtimeUpdate}
    (hundated : (p.toMarketDataPipeline.publish { around with rest := .ok () } now).2.lastAsOf =
      none)
    (hasOf : asOf ∈ (p.run [.publish around contents now, .applyUpdate update]).dates)
    (hle : now ≤ asOf) : (p.run [.publish around contents now, .applyUpdate update]).Fresh := by
  have hempty : ∀ s : MarketDataPipeline, Within { p with toMarketDataPipeline := s } now := by
    intro s id snapshot hget
    rw [hnone] at hget
    cases hget
  have hwithin : (p.publish around contents now).2.Within now := by
    have hsettings := p.toMarketDataPipeline.settings_call
      (.publish { around with rest := .ok () } now)
    unfold PublishingPipeline.publish
    dsimp only [MarketDataPipeline.call] at hsettings
    cases hpublish : p.toMarketDataPipeline.publish { around with rest := .ok () } now with
    | mk result s =>
      rw [hpublish] at hsettings hundated
      cases result with
      | error e => exact hempty s
      | ok =>
        dsimp only at hundated ⊢
        rw [hundated]
        exact (publishSnapshots_at (h.of_settings hsettings) (hempty s) contents now).1.within
          (hempty s)
  exact fun _ id s hget => ⟨asOf, hasOf, le_trans (hwithin id s hget) hle⟩

section

omit [Sha256]

theorem dates_twoBoards :
    letI : Sha256 := .ofTable []
    tenPastNine ∈ ((start tradingDay MarketRun.pairCatalog [] "1" "m1").run
      (twoBoards.take 2)).dates := by
  decide +kernel

theorem freshRun_twoBoards :
    letI : Sha256 := .ofTable []
    FreshRun (start tradingDay MarketRun.pairCatalog [] "1" "m1") twoBoards := by
  let _ : Sha256 := .ofTable []
  refine ⟨by decide, ?_⟩
  intro earlier around contents now later hcalls
  rcases earlier with _ | ⟨first, _ | ⟨second, _ | ⟨third, earlier⟩⟩⟩
  · intro _ id s hget
    cases hget
  · simp [twoBoards] at hcalls
  · simp only [twoBoards, List.cons_append, List.nil_append, List.cons.injEq] at hcalls
    obtain ⟨rfl, rfl, -⟩ := hcalls
    exact @fresh_after_update tenPastNine fivePastNine _ (.ofTable [])
      (fun _ _ hget => by cases hget) (fun _ => rfl) .calm emptyContents laterTick
      (by decide +kernel) dates_twoBoards (by decide)
  · simp [twoBoards] at hcalls

/-- The second board has a date of its own, and is neither stale nor dated behind the first one. -/
theorem publish_in_order_twoBoards :
    letI : Sha256 := .ofTable []
    let p := start tradingDay MarketRun.pairCatalog [] "1" "m1"
    (p.run (twoBoards.take 2)).dates ≠ [] ∧
      (∀ e, ((p.run (twoBoards.take 2)).publish .calm emptyContents tenPastNine).1 =
        .error (.snapshot e) → e.kind ≠ .staleSnapshotPublication) ∧
      ∃ before, ((p.run []).publish .calm emptyContents fivePastNine).1 = .ok before ∧
        ∀ view, ((p.run (twoBoards.take 2)).publish .calm emptyContents tenPastNine).1 = .ok view →
          before.rankings.asOf ≤ view.rankings.asOf ∧ before.treemap.asOf ≤ view.treemap.asOf := by
  obtain ⟨hstale, hinOrder⟩ := @publish_in_order (.ofTable []) tradingDay MarketRun.pairCatalog []
    "1" "m1" twoBoards freshRun_twoBoards (twoBoards.take 2) .calm emptyContents tenPastNine [] rfl
  have hfirst : ((@publish (.ofTable []) (@run (.ofTable [])
      (start tradingDay MarketRun.pairCatalog [] "1" "m1") []) .calm emptyContents
        fivePastNine).1.map fun _ => ()) = .ok () := by decide +kernel
  obtain ⟨before, hbefore, -⟩ := map_eq_ok.mp hfirst
  exact ⟨List.ne_nil_of_mem dates_twoBoards, hstale, before, hbefore, fun view hview =>
    hinOrder view hview [] .calm emptyContents fivePastNine [.applyUpdate laterTick] rfl before
      hbefore⟩

end

/-- Boards that are dated behind the latest ranking are called stale. -/
theorem publishSnapshots_stale (h : p.Numbered) {t : Datetime} {contents : PublishedContents}
    (hlatest : p.LatestAt (p.scopeOf .themeRank RANKINGS_PARAMS) t) (hlt : asOf < t)
    (hitems : contents.items = .ok items)
    (hbuilt : (p.publication .themeRank RANKINGS_PARAMS (itemsPayload items) now asOf
      contents.dataStatus).isOk = true) :
    ∃ e, (p.publishSnapshots contents now asOf).1 = .error (.snapshot e) ∧
      e.kind = .staleSnapshotPublication := by
  obtain ⟨id, latest, hid, hget, rfl⟩ := hlatest
  cases hpublication : p.publication .themeRank RANKINGS_PARAMS (itemsPayload items) now asOf
      contents.dataStatus with
  | error e => simp [hpublication, Except.isOk, Except.toBool] at hbuilt
  | ok publication =>
    obtain ⟨hnumber, rfl, -⟩ := publication_eq_ok hpublication
    rw [← scope_publication hpublication] at hid
    obtain ⟨e, he, hkind⟩ : ∃ e, p.snapshots.checkStale publication = .error e ∧
        e.kind = .staleSnapshotPublication := by
      unfold SnapshotRepository.checkStale
      rw [hid]
      refine ⟨_, bind_eq_error.mpr (.inr ⟨latest, ?_, if_pos hlt⟩), rfl⟩
      rw [SnapshotRepository.snapshotAt, hget]
    refine ⟨e, ?_, hkind⟩
    unfold publishSnapshots publishSnapshot SnapshotRepository.publish SnapshotRepository.store
    rw [hitems]
    dsimp only
    rw [hpublication]
    dsimp only
    rw [hnumber, h.receipt_none, he]
    rfl

/-- After a first publication that was dated by the present time, an update may date the next one of
the same minute behind it. -/
theorem publish_stale_of_undated (h : p.Numbered) (hwithin : p.Within now) {around : Surroundings}
    {contents : PublishedContents} {update : StockRealtimeUpdate} {s s' : MarketDataPipeline}
    {board : PublishingPipeline} (hitems : contents.items = .ok items)
    (hs : s = (p.toMarketDataPipeline.publish { around with rest := .ok () } now).2)
    (hs' : s' = ((s.applyUpdate update).2.publish { around with rest := .ok () } now).2)
    (hboard : board = (publishSnapshots { p with toMarketDataPipeline := s } contents now now).2)
    (hfirst : (p.toMarketDataPipeline.publish { around with rest := .ok () } now).1 = .ok ())
    (hnone : s.lastAsOf = none)
    (hstored : (publishSnapshots { p with toMarketDataPipeline := s } contents now now).1.isOk =
      true)
    (hsecond : ((s.applyUpdate update).2.publish { around with rest := .ok () } now).1 = .ok ())
    (hbehind : s'.lastAsOf.getD now < now)
    (hbuilt : (publication { board with toMarketDataPipeline := s' } .themeRank RANKINGS_PARAMS
      (itemsPayload items) now (s'.lastAsOf.getD now) contents.dataStatus).isOk = true) :
    ∃ e, ((p.run [.publish around contents now, .applyUpdate update]).publish around contents
      now).1 = .error (.snapshot e) ∧ e.kind = .staleSnapshotPublication := by
  replace hfirst : p.toMarketDataPipeline.publish { around with rest := .ok () } now =
      (.ok (), s) := Prod.ext hfirst hs.symm
  replace hsecond : (s.applyUpdate update).2.publish { around with rest := .ok () } now =
      (.ok (), s') := Prod.ext hsecond hs'.symm
  have hkept := p.toMarketDataPipeline.settings_call (.publish { around with rest := .ok () } now)
  have hkept' := ((s.applyUpdate update).2.settings_call
    (.publish { around with rest := .ok () } now)).trans (s.settings_call (.applyUpdate update))
  dsimp only [MarketDataPipeline.call] at hkept hkept'
  rw [hfirst] at hkept
  rw [hsecond] at hkept'
  obtain ⟨hat, -, hview⟩ := publishSnapshots_at (h.of_settings hkept) hwithin contents now
  cases hresult : (publishSnapshots { p with toMarketDataPipeline := s } contents now now).1 with
  | error e => simp [hresult, Except.isOk, Except.toBool] at hstored
  | ok view =>
    obtain ⟨-, -, hranked⟩ := hview view hresult
    rw [← hboard] at hat hranked
    have hlatest : LatestAt { board with toMarketDataPipeline := s' }
        (scopeOf { board with toMarketDataPipeline := s' } .themeRank RANKINGS_PARAMS) now := by
      rw [scopeOf, congrArg PipelineSettings.streamId hkept']
      exact hranked
    obtain ⟨e, he, hkind⟩ := publishSnapshots_stale
      (hat.numbered.of_settings (by rw [hat.same, hkept'])) hlatest hbehind hitems hbuilt
    refine ⟨e, ?_, hkind⟩
    have hrun : p.run [.publish around contents now, .applyUpdate update] =
        { board with toMarketDataPipeline := (s.applyUpdate update).2 } := by
      unfold run
      simp only [List.foldl_cons, List.foldl_nil, call, publish, hfirst, hnone, Option.getD_none,
        ← hboard, hat.same]
    rw [hrun, publish, hsecond]
    exact he

omit [Sha256] in
/-- An empty board is dated by the present time. When the first theme is then evaluated from an
earlier update, the next publication of the same minute is behind the board and called stale. -/
theorem publish_in_order_fails_emptyBoard :
    letI : Sha256 := .ofTable []
    let p := start tradingDay MarketRun.pairCatalog [] "1" "m1"
    ∃ e, ((p.run [.publish .calm emptyContents tenPastNine, .applyUpdate tick]).publish .calm
      emptyContents tenPastNine).1 = .error (.snapshot e) ∧ e.kind = .staleSnapshotPublication := by
  refine @publish_stale_of_undated tenPastNine (start tradingDay MarketRun.pairCatalog [] "1" "m1")
    (.arr []) (.ofTable []) (fun _ _ h => by cases h) (fun _ _ h => by cases h) .calm emptyContents
    tick _ _ _ rfl rfl rfl rfl ?_ ?_ ?_ ?_ ?_ ?_
  all_goals decide +kernel

end PublishingPipeline

end Dayjaview.Pipeline
