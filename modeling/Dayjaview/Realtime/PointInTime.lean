import Dayjaview.Realtime.Aggregation
import Dayjaview.Realtime.Redelivery

/-!
# The time of a drained calculation

The time of a calculation is the newest receipt among the marks since the last
drain. A run keeps a record of the marks and the drained calculations beside the
two stores, and the record says when a drain goes back behind what was drained
or observed before.
-/

namespace Dayjaview.Realtime

open Dayjaview.Domain Dayjaview.Calculations Dayjaview.Events HotStateStore

/-- An update that marked a theme. -/
structure Mark where
  themeId : String
  update : StockRealtimeUpdate

/-- The key under which the mark is kept. -/
def Mark.key (m : Mark) : DirtyKey := dirtyKey m.themeId m.update.marketDate

/-- The step of a run: an update arrives, or the marked themes are drained. -/
inductive MarketOp where
  | update (u : StockRealtimeUpdate)
  | drain

/-- The hot states and the aggregator, with a record of what happened. -/
structure MarketRun where
  hot : HotStateStore
  aggregator : DirtyThemeAggregator
  marks : List Mark
  drainedMarks : List Mark
  drained : List ThemeMetricUpdate

namespace MarketRun

def start (catalog : VersionedThemeCatalog) (references : List StockReference)
    (policy : ThemeCalculationPolicy) : MarketRun :=
  ⟨.empty, { catalog, references, policy }, [], [], []⟩

/-- The themes an applied update marks. -/
def markedThemes (a : DirtyThemeAggregator) (u : StockRealtimeUpdate) : List String :=
  match a.catalog.affectedThemes u.stockId u.marketDate u.receivedAt with
  | .error _ => []
  | .ok affected => affected.takeWhile fun themeId => !isBlank themeId

/-- Mark the themes of an applied update. -/
def mark (s : MarketRun) (u : StockRealtimeUpdate) : MarketRun :=
  { s with
    aggregator := (s.aggregator.markStock u.stockId u.marketDate u.receivedAt).2
    marks := s.marks ++ (markedThemes s.aggregator u).map fun themeId => ⟨themeId, u⟩ }

def drain (s : MarketRun) : MarketRun :=
  let (result, aggregator) := s.aggregator.drain s.hot
  match result with
  | .error _ => { s with aggregator }
  | .ok updates =>
    { s with
      aggregator
      marks := []
      drainedMarks := s.drainedMarks ++ s.marks
      drained := s.drained ++ updates }

variable [Sha256]

/-- Take an update; only an applied one marks its themes. -/
def update (s : MarketRun) (u : StockRealtimeUpdate) : MarketRun :=
  let (result, hot) := s.hot.apply u
  match result with
  | .error _ => { s with hot }
  | .ok r => if r.disposition = .applied then mark { s with hot } u else { s with hot }

def step (s : MarketRun) : MarketOp → MarketRun
  | .update u => s.update u
  | .drain => s.drain

def run (s : MarketRun) (ops : List MarketOp) : MarketRun := ops.foldl step s

section

omit [Sha256]

/-- What is required of a drained calculation: none of the hot states of its members occurred
later, and no calculation of the theme drained before was for a later time. -/
def InTime (s : MarketRun) (m : ThemeMetricUpdate) : Prop :=
  (∀ membership,
      s.aggregator.catalog.select m.themeId m.marketDate m.asOf = .ok (some membership) →
      ∀ member ∈ membership.members, ∀ state, s.hot.get m.marketDate member.stockId = some state →
        state.occurredAt ≤ m.asOf) ∧
    ∀ earlier ∈ s.drained, earlier.themeId = m.themeId → earlier.asOf ≤ m.asOf

/-- The newest update that marked a theme on a day since the last drain. -/
def IsNewest (s : MarketRun) (themeId : String) (marketDate : Date) (u : StockRealtimeUpdate) :
    Prop :=
  ⟨themeId, u⟩ ∈ s.marks ∧ u.marketDate = marketDate ∧
    ∀ mark ∈ s.marks, mark.themeId = themeId → mark.update.marketDate = marketDate →
      mark.update.receivedAt ≤ u.receivedAt

/-- When a drain is in time, by the receipts of the updates: the newest one that marked the theme
since the last drain was received no earlier than any that marked it before, nor did the current
observation of a member that did not mark the theme occur later. -/
def ReceivedInOrder (s : MarketRun) (themeId : String) (marketDate : Date) : Prop :=
  ∀ u, s.IsNewest themeId marketDate u →
    (∀ mark ∈ s.drainedMarks, mark.themeId = themeId → mark.update.receivedAt ≤ u.receivedAt) ∧
      ∀ membership,
        s.aggregator.catalog.select themeId marketDate u.receivedAt = .ok (some membership) →
        ∀ member ∈ membership.members, ∀ state, s.hot.get marketDate member.stockId = some state →
          (∀ mark ∈ s.marks ++ s.drainedMarks, mark.themeId = themeId →
            mark.update.messageId ≠ state.lastMessageId) →
          state.occurredAt ≤ u.receivedAt

end

end MarketRun

/-- The marked themes are those of the marks, each at its newest receipt. -/
structure Tracks (dirty : Dict DirtyKey DirtyTheme) (marks : List Mark) : Prop where
  own : ∀ key e, dirty.get? key = some e → dirtyKey e.themeId e.marketDate = key
  newest : ∀ key e, dirty.get? key = some e →
    ∃ mark ∈ marks, mark.key = key ∧ mark.update.receivedAt.instant = e.asOf.instant
  bounded : ∀ mark ∈ marks, ∃ e, dirty.get? mark.key = some e ∧ mark.update.receivedAt ≤ e.asOf

variable {dirty : Dict DirtyKey DirtyTheme}

theorem tracks_of_empty (h : ∀ key, dirty.get? key = none) :
    Tracks dirty [] where
  own key e he := by simp [h key] at he
  newest key e he := by simp [h key] at he
  bounded := by simp

/-- The time of a theme after one more mark. -/
def markedAsOf (dirty : Dict DirtyKey DirtyTheme) (mark : Mark) : Datetime :=
  match dirty.get? mark.key with
  | none => mark.update.receivedAt
  | some previous => Datetime.latest previous.asOf mark.update.receivedAt

private theorem markedAsOf_spec (dirty : Dict DirtyKey DirtyTheme) (mark : Mark) :
    mark.update.receivedAt ≤ markedAsOf dirty mark ∧
      (∀ e, dirty.get? mark.key = some e → e.asOf ≤ markedAsOf dirty mark) ∧
      (mark.update.receivedAt.instant = (markedAsOf dirty mark).instant ∨
        ∃ e, dirty.get? mark.key = some e ∧ e.asOf.instant = (markedAsOf dirty mark).instant) := by
  unfold markedAsOf
  cases hprevious : dirty.get? mark.key with
  | none => simp
  | some previous =>
    simp only [Datetime.le_def, Datetime.instant_latest, Option.some.injEq]
    refine ⟨le_max_right _ _, ?_, ?_⟩
    · rintro e rfl
      exact le_max_left _ _
    · rcases le_total previous.asOf.instant mark.update.receivedAt.instant with hle | hle
      · exact .inl (max_eq_right hle).symm
      · exact .inr ⟨previous, rfl, (max_eq_left hle).symm⟩

theorem Tracks.set {marks : List Mark} (h : Tracks dirty marks) {mark : Mark} {e : DirtyTheme}
    (htheme : e.themeId = mark.themeId) (hdate : e.marketDate = mark.update.marketDate)
    (hasOf : e.asOf = markedAsOf dirty mark) :
    Tracks (dirty.set mark.key e) (marks ++ [mark]) := by
  obtain ⟨hreceived, hprevious, hsource⟩ := markedAsOf_spec dirty mark
  have hkey : dirtyKey e.themeId e.marketDate = mark.key := by rw [htheme, hdate, Mark.key]
  constructor
  · intro key e' he'
    rw [Dict.get?_set] at he'
    split at he'
    · next heq =>
      cases he'
      rw [hkey, heq]
    · exact h.own key e' he'
  · intro key e' he'
    rw [Dict.get?_set] at he'
    split at he'
    · next heq =>
      cases he'
      rw [hasOf]
      rcases hsource with hmark | ⟨previous, hget, hinstant⟩
      · exact ⟨mark, by simp, heq.symm, hmark⟩
      · obtain ⟨source, hmem, hsourceKey, hreceived⟩ := h.newest _ _ hget
        exact ⟨source, by simp [hmem], hsourceKey.trans heq.symm, hreceived.trans hinstant⟩
    · obtain ⟨source, hmem, hrest⟩ := h.newest key e' he'
      exact ⟨source, by simp [hmem], hrest⟩
  · intro source hmem
    rcases List.mem_append.mp hmem with hmem | hmem
    · obtain ⟨e', he', hle⟩ := h.bounded source hmem
      by_cases heq : source.key = mark.key
      · refine ⟨e, by rw [heq, Dict.get?_set_self], ?_⟩
        rw [hasOf]
        exact le_trans hle (hprevious e' (heq ▸ he'))
      · exact ⟨e', by rw [Dict.get?_set_of_ne _ _ heq]; exact he', hle⟩
    · obtain rfl := List.mem_singleton.mp hmem
      exact ⟨e, Dict.get?_set_self _ _ _, hasOf ▸ hreceived⟩

theorem Tracks.markThemes {u : StockRealtimeUpdate} {themeIds : List String} {marks : List Mark}
    (h : Tracks dirty marks) :
    Tracks (DirtyThemeAggregator.markThemes u.marketDate u.receivedAt themeIds dirty).2
      (marks ++ (themeIds.takeWhile fun themeId => !isBlank themeId).map fun themeId =>
        ⟨themeId, u⟩) := by
  induction themeIds generalizing dirty marks with
  | nil => simpa [DirtyThemeAggregator.markThemes] using h
  | cons themeId themeIds ih =>
    unfold DirtyThemeAggregator.markThemes
    dsimp only
    split
    · next e he =>
      have hblank : isBlank themeId = true := by
        by_contra hb
        rw [DirtyTheme.make, checked_of_ok (by simpa [DirtyTheme.Fields.postInit] using hb)] at he
        cases he
      simpa [hblank] using h
    · next marked hmarked =>
      obtain ⟨hvalid, rfl⟩ := checked_eq_ok.mp hmarked
      have hblank : isBlank themeId = false := by
        simpa [DirtyTheme.Fields.postInit] using hvalid
      have htracked := h.set (e := ⟨_, hvalid⟩) (rfl : _ = Mark.themeId ⟨themeId, u⟩) rfl rfl
      have hset := ih htracked
      simpa [hblank, Mark.key] using hset

namespace MarketRun

/-- What the record of a run says about its stores. -/
structure Inv (s : MarketRun) : Prop where
  tracks : Tracks s.aggregator.dirty s.marks
  drained : ∀ m ∈ s.drained, ∃ mark ∈ s.drainedMarks, mark.themeId = m.themeId ∧
    mark.update.receivedAt.instant = m.asOf.instant
  bounded : ∀ mark ∈ s.drainedMarks, ∃ m ∈ s.drained, m.themeId = mark.themeId ∧
    mark.update.receivedAt ≤ m.asOf
  recognised : ∀ mark ∈ s.marks ++ s.drainedMarks,
    (s.hot.processedMessages.get? mark.update.messageId).isSome
  states : ∀ key state, s.hot.states.get? key = some state →
    (s.hot.processedMessages.get? state.lastMessageId).isSome
  marking : ∀ mark ∈ s.marks ++ s.drainedMarks, ∀ key state,
    s.hot.states.get? key = some state → mark.update.messageId = state.lastMessageId →
    mark.update.stateKey = key ∧ state.occurredAt ≤ mark.update.receivedAt

theorem inv_start (catalog : VersionedThemeCatalog) (references : List StockReference)
    (policy : ThemeCalculationPolicy) : (start catalog references policy).Inv where
  tracks := tracks_of_empty fun _ => rfl
  drained := by simp [start]
  bounded := by simp [start]
  recognised := by simp [start]
  states := by simp [start, HotStateStore.empty]
  marking := by simp [start]

variable {s : MarketRun} {updates : List ThemeMetricUpdate}

theorem tracks_mark (u : StockRealtimeUpdate) (h : Tracks s.aggregator.dirty s.marks) :
    Tracks (s.mark u).aggregator.dirty (s.mark u).marks := by
  unfold mark markedThemes DirtyThemeAggregator.markStock
  dsimp only
  cases s.aggregator.catalog.affectedThemes u.stockId u.marketDate u.receivedAt with
  | error e => simpa using h
  | ok affected => exact h.markThemes

private theorem mem_marks_mark {u : StockRealtimeUpdate} {m : Mark}
    (h : m ∈ (s.mark u).marks ++ (s.mark u).drainedMarks) :
    m ∈ s.marks ++ s.drainedMarks ∨ m.update = u := by
  simp only [mark, List.mem_append, List.mem_map] at h ⊢
  rcases h with (h | ⟨themeId, -, rfl⟩) | h
  · exact .inl (.inl h)
  · exact .inr rfl
  · exact .inl (.inr h)

private theorem occurredAt_le_receivedAt (u : StockRealtimeUpdate) :
    u.occurredAt ≤ u.receivedAt := by
  have hu := u.valid
  simp only [StockRealtimeUpdate.Fields.postInit, check_bind_eq_ok, ensure_eq_ok] at hu
  exact hu.2.2.1

theorem drain_of_ok (h : (s.aggregator.drain s.hot).1 = .ok updates) :
    s.drain = ⟨s.hot, (s.aggregator.drain s.hot).2, [], s.drainedMarks ++ s.marks,
      s.drained ++ updates⟩ := by
  unfold drain
  cases hdrain : s.aggregator.drain s.hot with
  | mk result aggregator =>
    rw [hdrain] at h
    obtain rfl : result = .ok updates := h
    rfl

theorem mem_updates_iff (hs : s.Inv) (h : (s.aggregator.drain s.hot).1 = .ok updates) :
    (∀ m ∈ updates, ∃ e, s.aggregator.dirty.get? (dirtyKey m.themeId m.marketDate) = some e ∧
        e.asOf = m.asOf) ∧
      ∀ key e, s.aggregator.dirty.get? key = some e →
        ∃ m ∈ updates, dirtyKey m.themeId m.marketDate = key ∧ m.asOf = e.asOf := by
  obtain ⟨hright, hleft, -⟩ := DirtyThemeAggregator.drain_eq_ok h hs.tracks.own
  constructor
  · intro m hm
    obtain ⟨e, he, hrecompute⟩ := hright m hm
    obtain ⟨htheme, hdate, hasOf⟩ := DirtyThemeAggregator.recompute_eq_ok hrecompute
    obtain ⟨key, hkey⟩ := DirtyThemeAggregator.mem_pending.mp he
    refine ⟨e, ?_, hasOf.symm⟩
    rw [htheme, hdate, hs.tracks.own key e hkey]
    exact hkey
  · intro key e hkey
    obtain ⟨m, hm, hrecompute⟩ := hleft e (DirtyThemeAggregator.mem_pending.mpr ⟨key, hkey⟩)
    obtain ⟨htheme, hdate, hasOf⟩ := DirtyThemeAggregator.recompute_eq_ok hrecompute
    exact ⟨m, hm, by rw [htheme, hdate, hs.tracks.own key e hkey], hasOf⟩

theorem Inv.drain (hs : s.Inv) : s.drain.Inv := by
  cases hdrain : (s.aggregator.drain s.hot).1 with
  | error e =>
    have hkept : s.drain = s := by
      have haggregator := DirtyThemeAggregator.drain_of_error hdrain
      unfold MarketRun.drain
      cases hpair : s.aggregator.drain s.hot with
      | mk result aggregator =>
        rw [hpair] at hdrain haggregator
        obtain rfl : result = .error e := hdrain
        obtain rfl : aggregator = s.aggregator := haggregator
        rfl
    rw [hkept]
    exact hs
  | ok updates =>
    obtain ⟨-, -, hempty, -⟩ := DirtyThemeAggregator.drain_eq_ok hdrain hs.tracks.own
    obtain ⟨hof, hall⟩ := mem_updates_iff hs hdrain
    rw [drain_of_ok hdrain]
    constructor
    · exact tracks_of_empty hempty
    · intro m hm
      rcases List.mem_append.mp hm with hm | hm
      · obtain ⟨source, hmem, hrest⟩ := hs.drained m hm
        exact ⟨source, List.mem_append_left _ hmem, hrest⟩
      · obtain ⟨e, he, hasOf⟩ := hof m hm
        obtain ⟨source, hmem, hkey, hinstant⟩ := hs.tracks.newest _ _ he
        refine ⟨source, List.mem_append_right _ hmem, ?_, hasOf ▸ hinstant⟩
        exact (Prod.mk.inj (toLex_inj.mp hkey)).1
    · intro source hmem
      rcases List.mem_append.mp hmem with hmem | hmem
      · obtain ⟨m, hm, hrest⟩ := hs.bounded source hmem
        exact ⟨m, List.mem_append_left _ hm, hrest⟩
      · obtain ⟨e, he, hle⟩ := hs.tracks.bounded source hmem
        obtain ⟨m, hm, hkey, hasOf⟩ := hall _ e he
        refine ⟨m, List.mem_append_right _ hm, ?_, hasOf ▸ hle⟩
        exact (Prod.mk.inj (toLex_inj.mp hkey)).1
    · intro source hmem
      exact hs.recognised source (by simpa [or_comm] using hmem)
    · exact hs.states
    · intro source hmem
      exact hs.marking source (by simpa [or_comm] using hmem)

section Update

variable [Sha256]

theorem Inv.update {s : MarketRun} (hs : s.Inv) (u : StockRealtimeUpdate) : (s.update u).Inv := by
  rcases s.hot.apply_cases u with
    ⟨hnew, r, version, hversion, hresult, happlied, hstates⟩ | ⟨hkept, hstates⟩
  · have hupdate : s.update u = mark { s with hot := (s.hot.apply u).2 } u := by
      simp only [MarketRun.update, hresult, if_pos happlied]
    have hfresh : ∀ messageId, (s.hot.processedMessages.get? messageId).isSome →
        messageId ≠ u.messageId := by
      rintro messageId hseen rfl
      simp [hnew] at hseen
    have hself := s.hot.isSome_processedMessages_self u
    rw [hupdate]
    constructor
    · exact tracks_mark u hs.tracks
    · exact hs.drained
    · exact hs.bounded
    · intro source hmem
      rcases mem_marks_mark hmem with hold | rfl
      · exact HotStateStore.isSome_processedMessages_apply u (hs.recognised source hold)
      · exact hself
    · intro key state hget
      simp only [mark, hstates, Dict.get?_set] at hget
      split at hget
      · cases hget
        exact hself
      · exact HotStateStore.isSome_processedMessages_apply u (hs.states key state hget)
    · intro source hmem key state hget hid
      simp only [mark, hstates, Dict.get?_set] at hget
      rcases mem_marks_mark hmem with hold | hsource
      · split at hget
        · cases hget
          exact absurd hid (hfresh _ (hs.recognised source hold))
        · exact hs.marking source hold key state hget hid
      · split at hget
        · next hkey =>
          cases hget
          rw [hsource]
          exact ⟨hkey.symm, occurredAt_le_receivedAt u⟩
        · rw [hsource] at hid
          exact absurd hid.symm (hfresh _ (hs.states key state hget))
  · have hupdate : s.update u = { s with hot := (s.hot.apply u).2 } := by
      unfold MarketRun.update
      cases hresult : s.hot.apply u with
      | mk result hot =>
        cases result with
        | error e => rfl
        | ok r =>
          have hne : r.disposition ≠ .applied := hkept r (by rw [hresult])
          simp only [if_neg hne]
    rw [hupdate]
    constructor
    · exact hs.tracks
    · exact hs.drained
    · exact hs.bounded
    · intro source hmem
      exact HotStateStore.isSome_processedMessages_apply u (hs.recognised source hmem)
    · intro key state hget
      rw [hstates] at hget
      exact HotStateStore.isSome_processedMessages_apply u (hs.states key state hget)
    · intro source hmem key state hget
      rw [hstates] at hget
      exact hs.marking source hmem key state hget

theorem Inv.run {s : MarketRun} (hs : s.Inv) (ops : List MarketOp) : (s.run ops).Inv := by
  induction ops generalizing s with
  | nil => exact hs
  | cons op ops ih =>
    apply ih
    cases op with
    | update u => exact hs.update u
    | drain => exact hs.drain

end Update

private theorem isNewest_iff (hs : s.Inv) {themeId : String} {marketDate : Date} {e : DirtyTheme}
    (he : s.aggregator.dirty.get? (dirtyKey themeId marketDate) = some e) :
    (∃ u, s.IsNewest themeId marketDate u) ∧
      ∀ u, s.IsNewest themeId marketDate u → u.receivedAt.instant = e.asOf.instant := by
  obtain ⟨source, hmem, hkey, hinstant⟩ := hs.tracks.newest _ _ he
  have hparts := Prod.mk.inj (toLex_inj.mp hkey)
  have hbound : ∀ m ∈ s.marks, m.themeId = themeId → m.update.marketDate = marketDate →
      m.update.receivedAt ≤ e.asOf := by
    rintro m hm rfl rfl
    obtain ⟨e', he', hle⟩ := hs.tracks.bounded m hm
    obtain rfl : e' = e := Option.some.inj (he'.symm.trans he)
    exact hle
  constructor
  · refine ⟨source.update, ?_, hparts.2, fun m hm htheme hdate => ?_⟩
    · rw [← hparts.1]
      exact hmem
    · rw [Datetime.le_def, hinstant]
      exact hbound m hm htheme hdate
  · rintro u ⟨hu, hdate, hnewest⟩
    apply le_antisymm
    · exact Datetime.le_def.mp (hbound ⟨themeId, u⟩ hu rfl hdate)
    · rw [← hinstant]
      exact Datetime.le_def.mp (hnewest source hmem hparts.1 hparts.2)

/-- A drained calculation is in time exactly when the updates of its theme were received in
order. -/
theorem inTime_iff (hs : s.Inv) (h : (s.aggregator.drain s.hot).1 = .ok updates)
    {m : ThemeMetricUpdate} (hm : m ∈ updates) :
    s.InTime m ↔ s.ReceivedInOrder m.themeId m.marketDate := by
  obtain ⟨e, he, hasOf⟩ := (mem_updates_iff hs h).1 m hm
  obtain ⟨⟨newest, hnewest⟩, hinstant⟩ := isNewest_iff hs he
  rw [hasOf] at hinstant
  have hselect : ∀ u, s.IsNewest m.themeId m.marketDate u →
      s.aggregator.catalog.select m.themeId m.marketDate u.receivedAt =
        s.aggregator.catalog.select m.themeId m.marketDate m.asOf := fun u hu =>
    selectMembershipSnapshot_instant _ _ _ (hinstant u hu)
  have hbehind : (∀ earlier ∈ s.drained, earlier.themeId = m.themeId → earlier.asOf ≤ m.asOf) ↔
      ∀ mark ∈ s.drainedMarks, mark.themeId = m.themeId → mark.update.receivedAt ≤ m.asOf := by
    constructor
    · intro hearlier mark hmark htheme
      obtain ⟨earlier, hmem, hsame, hle⟩ := hs.bounded mark hmark
      exact le_trans hle (hearlier earlier hmem (hsame.trans htheme))
    · intro hmarks earlier hmem htheme
      obtain ⟨mark, hmark, hsame, heq⟩ := hs.drained earlier hmem
      rw [Datetime.le_def, ← heq]
      exact hmarks mark hmark (hsame.trans htheme)
  constructor
  · rintro ⟨hmembers, hearlier⟩ u hu
    have hle : ∀ t : Datetime, t ≤ m.asOf → t ≤ u.receivedAt := fun t ht => by
      rw [Datetime.le_def, hinstant u hu]
      exact ht
    refine ⟨fun mark hmark htheme => hle _ (hbehind.mp hearlier mark hmark htheme), ?_⟩
    intro membership hmembership member hmember state hstate _
    rw [hselect u hu] at hmembership
    exact hle _ (hmembers membership hmembership member hmember state hstate)
  · intro horder
    obtain ⟨hmarks, hmembers⟩ := horder newest hnewest
    have hle : ∀ t : Datetime, t ≤ newest.receivedAt → t ≤ m.asOf := fun t ht => by
      rw [Datetime.le_def, ← hinstant newest hnewest]
      exact ht
    refine ⟨?_, hbehind.mpr fun mark hmark htheme => hle _ (hmarks mark hmark htheme)⟩
    intro membership hmembership member hmember state hstate
    rw [← hselect newest hnewest] at hmembership
    by_cases hmarked : ∃ mark ∈ s.marks ++ s.drainedMarks, mark.themeId = m.themeId ∧
        mark.update.messageId = state.lastMessageId
    · -- The observation marked the theme: its receipt is behind the newest one.
      obtain ⟨mark, hmark, htheme, hid⟩ := hmarked
      obtain ⟨hkey, hoccurred⟩ := hs.marking mark hmark _ state hstate hid
      apply hle
      refine le_trans hoccurred ?_
      rcases List.mem_append.mp hmark with hpending | hdrained
      · exact hnewest.2.2 mark hpending htheme (Prod.mk.inj (toLex_inj.mp hkey)).1
      · exact hmarks mark hdrained htheme
    · refine hle _ (hmembers membership hmembership member hmember state hstate ?_)
      exact fun mark hmark htheme hid => hmarked ⟨mark, hmark, htheme, hid⟩

section Runs

variable [Sha256]

/-- A condition holds at every drain of a run that returns, for every theme it drains. -/
def AtDrains (P : MarketRun → String → Date → Prop) (s : MarketRun) (ops : List MarketOp) : Prop :=
  ∀ before after, ops = before ++ .drain :: after →
    ∀ updates, ((s.run before).aggregator.drain (s.run before).hot).1 = .ok updates →
      ∀ mark ∈ (s.run before).marks, P (s.run before) mark.themeId mark.update.marketDate

/-- Everything a run drains is in time. -/
def DrainsInTime (s : MarketRun) (ops : List MarketOp) : Prop :=
  ∀ before after, ops = before ++ .drain :: after →
    ∀ updates, ((s.run before).aggregator.drain (s.run before).hot).1 = .ok updates →
      ∀ m ∈ updates, (s.run before).InTime m

/-- In every run of updates and drains, everything drained is in time if and only if at every drain
the updates behind the drained themes were received in order. -/
theorem drainsInTime_iff (catalog : VersionedThemeCatalog) (references : List StockReference)
    (policy : ThemeCalculationPolicy) (ops : List MarketOp) :
    DrainsInTime (start catalog references policy) ops ↔
      AtDrains ReceivedInOrder (start catalog references policy) ops := by
  constructor
  · intro h before after hops updates hdrain mark hmark
    have hs := (inv_start catalog references policy).run before
    obtain ⟨e, he, -⟩ := hs.tracks.bounded mark hmark
    obtain ⟨m, hm, hkey, -⟩ := (mem_updates_iff hs hdrain).2 _ e he
    obtain ⟨htheme, hdate⟩ := Prod.mk.inj (toLex_inj.mp hkey)
    rw [← htheme, ← hdate]
    exact (inTime_iff hs hdrain hm).mp (h before after hops updates hdrain m hm)
  · intro h before after hops updates hdrain m hm
    have hs := (inv_start catalog references policy).run before
    obtain ⟨e, he, -⟩ := (mem_updates_iff hs hdrain).1 m hm
    obtain ⟨mark, hmark, hkey, -⟩ := hs.tracks.newest _ e he
    obtain ⟨htheme, hdate⟩ := Prod.mk.inj (toLex_inj.mp hkey)
    rw [inTime_iff hs hdrain hm, ← htheme, ← hdate]
    exact h before after hops updates hdrain mark hmark

end Runs

def pairCatalog : VersionedThemeCatalog where
  snapshots := [⟨{ themeId := "theme-1", version := "m1", effectiveFrom := .august 1
                   knownAt := (Date.august 1).seoul 9 0
                   members := [⟨"KRX:005930", .core, stock005930_ne⟩,
                     ⟨"KRX:000660", .core, stock000660_ne⟩] }, by decide⟩]
  nodup := by decide

def fourPastNine : Datetime := Events.fivePastNine.date.seoul 9 4

/-- A tick of the other stock by another source, received before the first tick. -/
def earlierTick : StockRealtimeUpdate :=
  ⟨{ tick.toFields with messageId := "tick-3", stockId := "KRX:000660", source := "kiwoom:s2",
                        occurredAt := fourPastNine, receivedAt := fourPastNine }, by decide⟩

def tenPastNine : Datetime := Events.fivePastNine.date.seoul 9 10

/-- A tick of the other stock, received after the first tick. -/
def laterTick : StockRealtimeUpdate :=
  ⟨{ tick.toFields with messageId := "tick-2", stockId := "KRX:000660", sourceSequence := 2,
                        occurredAt := tenPastNine, receivedAt := tenPastNine }, by decide⟩

/-- The themes and times of some calculations. -/
def timesOf (updates : List ThemeMetricUpdate) : List (String × Datetime) :=
  updates.map fun m => (m.themeId, m.asOf)

/-- The second drain of the theme is for an earlier time than the first. -/
theorem drainsInTime_fails_earlierTick :
    letI : Sha256 := .ofTable []
    ¬ DrainsInTime (start pairCatalog [] THEME_CALCULATION_POLICY_V1)
      [.update tick, .drain, .update earlierTick, .drain] := by
  let s := @run (.ofTable []) (start pairCatalog [] THEME_CALCULATION_POLICY_V1)
    [.update tick, .drain, .update earlierTick]
  have htimes : (s.aggregator.drain s.hot).1.map timesOf = .ok [("theme-1", fourPastNine)] := by
    decide +kernel
  have hearlier : timesOf s.drained = [("theme-1", fivePastNine)] := by decide +kernel
  intro h
  cases hdrain : (s.aggregator.drain s.hot).1 with
  | error e =>
    rw [hdrain] at htimes
    cases htimes
  | ok updates =>
    rw [hdrain] at htimes
    obtain ⟨m, rfl, hm⟩ := List.map_eq_singleton_iff.mp (Except.ok.inj htimes)
    obtain ⟨first, hfirst, hfirstTime⟩ := List.map_eq_singleton_iff.mp hearlier
    have hsame : first.themeId = m.themeId :=
      (congrArg Prod.fst hfirstTime).trans (congrArg Prod.fst hm).symm
    have hle : first.asOf ≤ m.asOf :=
      (h _ [] rfl _ hdrain m (by simp)).2 first (by rw [hfirst]; simp) hsame
    rw [(Prod.mk.inj hfirstTime).2, (Prod.mk.inj hm).2] at hle
    exact absurd hle (by decide)

end MarketRun

end Dayjaview.Realtime
