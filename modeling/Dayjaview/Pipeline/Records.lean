import Dayjaview.Pipeline.Evaluation
import Dayjaview.Realtime.Convergence
import Dayjaview.Realtime.PointInTime

/-!
# The marks and the calculations of the day

What an update and a drain do to the marked themes and to the stored calculations.
Both are kept under their themes and belong to the trading day; a drain that
returns replaces the calculation of every marked theme and leaves no mark.
-/

namespace Dayjaview.Realtime

open Dayjaview.Domain

namespace DirtyThemeAggregator

theorem markStock_keeps (a : DirtyThemeAggregator) (stockId : String) (marketDate : Date)
    (decisionAt : Datetime) :
    (a.markStock stockId marketDate decisionAt).2.catalog = a.catalog ∧
      (a.markStock stockId marketDate decisionAt).2.references = a.references ∧
      (a.markStock stockId marketDate decisionAt).2.policy = a.policy := by
  unfold markStock
  split <;> exact ⟨rfl, rfl, rfl⟩

theorem drain_keeps (a : DirtyThemeAggregator) (hot : HotStateStore) :
    (a.drain hot).2.references = a.references ∧ (a.drain hot).2.policy = a.policy := by
  unfold drain
  dsimp only
  split <;> exact ⟨rfl, rfl⟩

end DirtyThemeAggregator

end Dayjaview.Realtime

namespace Dayjaview.Pipeline

open Dayjaview.Domain Dayjaview.Calculations Dayjaview.Realtime DirtyThemeAggregator

namespace MarketDataPipeline

/-- The base price of an update enters the references. -/
def Supplements (s : MarketDataPipeline) (update : StockRealtimeUpdate) : Prop :=
  update.basePrice.isSome ∧ update.stockId ∉ s.basePriceFilled ∧
    ¬ ∃ r ∈ s.references, r.stockId = update.stockId ∧ r.effectiveFor = s.marketDate ∧
      r.previousAdjustedClose.isSome

/-- An observation is new to the hot states: its message was not seen, its source did not go back,
and the state of the stock is older. -/
def Newer (hot : HotStateStore) (update : StockRealtimeUpdate) : Prop :=
  hot.processedMessages.get? update.messageId = none ∧ hot.Advances update ∧
    ∀ p ∈ hot.states.get? update.stateKey, p.order < update.order

theorem supplementBasePrice_cases (s : MarketDataPipeline) (update : StockRealtimeUpdate) :
    (∃ e, s.supplementBasePrice update = (.error e, s)) ∨
      (∃ filled, s.supplementBasePrice update = (.ok (), { s with basePriceFilled := filled })) ∨
      (s.Supplements update ∧ ∃ r filled, r.stockId = update.stockId ∧
        r.knownAt = update.receivedAt ∧ r.effectiveFor = s.marketDate ∧
        s.supplementBasePrice update = (.ok (), { s with
          references := s.references ++ [r]
          aggregator := s.aggregator.addReference r
          basePriceFilled := filled })) := by
  unfold supplementBasePrice
  split
  · exact .inr (.inl ⟨_, rfl⟩)
  · next basePrice hprice =>
    split
    · exact .inr (.inl ⟨_, rfl⟩)
    · next hfilled =>
      split
      · exact .inr (.inl ⟨_, rfl⟩)
      · next hclose =>
        split
        · exact .inl ⟨_, rfl⟩
        · next reference hmake =>
          obtain ⟨hvalid, rfl⟩ := checked_eq_ok.mp hmake
          refine .inr (.inr ⟨⟨?_, hfilled, ?_⟩, _, _, rfl, rfl, rfl, rfl⟩)
          · rw [hprice]
            rfl
          · simpa using hclose

variable {s : MarketDataPipeline}

theorem supplementBasePrice_keeps {filled : MarketDataPipeline} {update : StockRealtimeUpdate}
    (h : s.supplementBasePrice update = (.ok (), filled)) :
    filled.toPipelineSettings = s.toPipelineSettings ∧ filled.hot = s.hot ∧
      filled.latestMetrics = s.latestMetrics ∧ filled.aggregator.dirty = s.aggregator.dirty ∧
      filled.aggregator.catalog = s.aggregator.catalog ∧
      (s.aggregator.references = s.references → filled.aggregator.references =
        filled.references) := by
  rcases s.supplementBasePrice_cases update with
    ⟨e, hsame⟩ | ⟨_, hsame⟩ | ⟨-, r, _, -, -, -, hsame⟩
  · cases h.symm.trans hsame
  · obtain rfl := congrArg Prod.snd (h.symm.trans hsame)
    exact ⟨rfl, rfl, rfl, rfl, rfl, id⟩
  · obtain rfl := congrArg Prod.snd (h.symm.trans hsame)
    exact ⟨rfl, rfl, rfl, rfl, rfl, congrArg (· ++ [r])⟩

theorem lastAsOf_supplementBasePrice (s : MarketDataPipeline) (update : StockRealtimeUpdate) :
    (s.supplementBasePrice update).2.lastAsOf = s.lastAsOf := by
  rcases s.supplementBasePrice_cases update with ⟨_, hsame⟩ | ⟨_, hsame⟩ | ⟨-, _, _, -, -, -, hsame⟩
  all_goals rw [hsame]

section Updates

variable [Sha256]

theorem apply_applied_iff (hot : HotStateStore) (update : StockRealtimeUpdate) :
    (∃ r, (hot.apply update).1 = .ok r ∧ r.disposition = .applied) ↔ Newer hot update := by
  unfold HotStateStore.apply Newer
  cases hseen : hot.processedMessages.get? update.messageId with
  | some seen => by_cases hne : seen ≠ update.fingerprint <;> simp [hne]
  | none =>
    simp only [Except.ok.injEq, exists_eq_left', true_and]
    unfold HotStateStore.decideUpdate
    dsimp only
    constructor
    · intro happlied
      split_ifs at happlied with hsequence hreceived horder
      refine ⟨fun c hc => ⟨?_, ?_⟩, fun p hp => ?_⟩
      · exact not_le.mp fun hle => hsequence ⟨c, hc, hle⟩
      · exact Int.not_lt.mp fun hlt => hreceived ⟨c, hc, hlt⟩
      · exact not_le.mp fun hle => horder ⟨p, hp, hle⟩
    · rintro ⟨hadvances, hlater⟩
      have hsequence : ¬ ∃ c ∈ hot.sourceCursors.get? update.cursorKey,
          update.sourceSequence ≤ c.sourceSequence := by
        rintro ⟨c, hc, hle⟩
        exact absurd (hadvances c hc).1 (not_lt.mpr hle)
      have hreceived : ¬ ∃ c ∈ hot.sourceCursors.get? update.cursorKey,
          update.receivedAt < c.receivedAt := by
        rintro ⟨c, hc, hlt⟩
        exact absurd (hadvances c hc).2 (not_le_of_gt hlt)
      have horder : ¬ ∃ p ∈ hot.states.get? update.stateKey, update.order ≤ p.order := by
        rintro ⟨p, hp, hle⟩
        exact absurd (hlater p hp) (not_lt.mpr hle)
      rw [if_neg hsequence, if_neg hreceived, if_neg horder]

/-- What an update leaves: the pipeline as it was, or the hot states with the update applied after
its base price, and the themes marked if it is new. -/
theorem applyUpdate_cases (s : MarketDataPipeline) (update : StockRealtimeUpdate) :
    (s.applyUpdate update).2 = s ∨ update.marketDate = s.marketDate ∧
      ∃ filled, s.supplementBasePrice update = (.ok (), filled) ∧
        ((¬ Newer s.hot update ∧
            (s.applyUpdate update).2 = { filled with hot := (s.hot.apply update).2 } ∧
            (s.hot.apply update).2.states = s.hot.states) ∨
          (Newer s.hot update ∧
            (s.applyUpdate update).2 = { filled with
              hot := (s.hot.apply update).2
              aggregator :=
                (filled.aggregator.markStock update.stockId update.marketDate update.receivedAt).2
                } ∧
            ∃ state, (s.hot.apply update).2.states = s.hot.states.set update.stateKey state)) := by
  unfold applyUpdate
  by_cases hday : update.marketDate = s.marketDate
  · rw [if_neg (not_not.mpr hday)]
    rcases s.supplementBasePrice_cases update with hraised | hreturned
    · obtain ⟨e, hsame⟩ := hraised
      rw [hsame]
      exact .inl rfl
    · obtain ⟨filled, hfilled⟩ : ∃ filled, s.supplementBasePrice update = (.ok (), filled) := by
        rcases hreturned with ⟨_, hsame⟩ | ⟨-, _, _, -, -, -, hsame⟩
        · exact ⟨_, hsame⟩
        · exact ⟨_, hsame⟩
      obtain ⟨-, hhot, -⟩ := supplementBasePrice_keeps hfilled
      refine .inr ⟨hday, filled, hfilled, ?_⟩
      rw [hfilled]
      dsimp only
      rw [hhot]
      have happlied := apply_applied_iff s.hot update
      rcases s.hot.apply_cases update with
        ⟨-, r, version, hversion, hresult, hr, hstates⟩ | ⟨hkept, hstates⟩
      · refine .inr ⟨happlied.mp ⟨r, hresult, hr⟩, ?_, _, hstates⟩
        rw [hresult]
        dsimp only
        rw [if_pos hr]
        rfl
      · refine .inl ⟨fun hnewer => ?_, ?_, hstates⟩
        · obtain ⟨r, hresult, hr⟩ := happlied.mpr hnewer
          exact hkept r hresult hr
        · cases hresult : (s.hot.apply update).1 with
          | error e => rfl
          | ok r =>
            dsimp only
            rw [if_neg (hkept r hresult)]
  · rw [if_pos hday]
    exact .inl rfl

end Updates

/-- What holds of the marks and the calculations between two calls. -/
structure Filed (s : MarketDataPipeline) : Prop where
  references : s.aggregator.references = s.references
  marks : ∃ marks, Tracks s.aggregator.dirty marks ∧
    ∀ mark ∈ marks, mark.update.marketDate = s.marketDate
  stored : ∀ theme u, s.latestMetrics.get? theme = some u →
    u.themeId = theme ∧ u.marketDate = s.marketDate

theorem filed_start (settings : PipelineSettings) (catalog : VersionedThemeCatalog)
    (references : List StockReference) : Filed (start settings catalog references) where
  references := rfl
  marks := ⟨[], tracks_of_empty fun _ => rfl, by simp⟩
  stored theme u h := by cases h

theorem Filed.mark_eq (h : s.Filed) {key : DirtyKey} {mark : DirtyTheme}
    (hmark : s.aggregator.dirty.get? key = some mark) :
    key = dirtyKey mark.themeId s.marketDate ∧ mark.marketDate = s.marketDate := by
  obtain ⟨marks, htracks, hday⟩ := h.marks
  have hown := htracks.own key mark hmark
  obtain ⟨source, hsource, hkey, -⟩ := htracks.newest key mark hmark
  have hdate := (Prod.mk.inj (toLex_inj.mp (hown.trans hkey.symm))).2
  rw [hday source hsource] at hdate
  rw [← hdate]
  exact ⟨hown.symm, rfl⟩

theorem Filed.of_sameData {s' : MarketDataPipeline} (h : s.Filed) {last : Option Datetime}
    (hsame : SameData { s with lastAsOf := last } s') : s'.Filed := by
  have hdate : s'.marketDate = s.marketDate := congrArg PipelineSettings.marketDate hsame.settings
  have haggregator : s'.aggregator = s.aggregator := hsame.aggregator
  have hmetrics : s'.latestMetrics = s.latestMetrics := hsame.latestMetrics
  have hreferences : s'.references = s.references := hsame.references
  constructor
  · rw [haggregator, hreferences]
    exact h.references
  · rw [haggregator, hdate]
    exact h.marks
  · rw [hmetrics, hdate]
    exact h.stored

section Updates

variable [Sha256]

theorem Filed.applyUpdate {s : MarketDataPipeline} (h : s.Filed) (update : StockRealtimeUpdate) :
    (s.applyUpdate update).2.Filed := by
  rcases s.applyUpdate_cases update with
    hsame | ⟨hday, filled, hfilled, ⟨-, hsame, -⟩ | ⟨-, hsame, -⟩⟩
  · rw [hsame]
    exact h
  all_goals
    obtain ⟨hsettings, -, hmetrics, hdirty, -, hknown⟩ := supplementBasePrice_keeps hfilled
    have hdate : filled.marketDate = s.marketDate := congrArg PipelineSettings.marketDate hsettings
    have hstored : ∀ theme u, filled.latestMetrics.get? theme = some u →
        u.themeId = theme ∧ u.marketDate = filled.marketDate := by
      rw [hmetrics, hdate]
      exact h.stored
    obtain ⟨marks, htracks, hmarks⟩ := h.marks
    rw [← hdirty] at htracks
    rw [← hdate] at hmarks
    rw [hsame]
  · exact ⟨hknown h.references, ⟨marks, htracks, hmarks⟩, hstored⟩
  · obtain ⟨-, hkept, -⟩ :=
      filled.aggregator.markStock_keeps update.stockId update.marketDate update.receivedAt
    have hmark := MarketRun.tracks_mark (s := ⟨s.hot, filled.aggregator, marks, [], []⟩) update
      htracks
    refine ⟨hkept.trans (hknown h.references), ⟨_, hmark, fun mark hmem => ?_⟩, hstored⟩
    rcases List.mem_append.mp hmem with hmem | hmem
    · exact hmarks mark hmem
    · obtain ⟨_, -, rfl⟩ := List.mem_map.mp hmem
      exact hday.trans hdate.symm

theorem lastAsOf_applyUpdate (s : MarketDataPipeline) (update : StockRealtimeUpdate) :
    (s.applyUpdate update).2.lastAsOf = s.lastAsOf := by
  have hfilled := s.lastAsOf_supplementBasePrice update
  rcases s.applyUpdate_cases update with
    hsame | ⟨-, filled, heq, ⟨-, hsame, -⟩ | ⟨-, hsame, -⟩⟩
  · rw [hsame]
  · rw [heq] at hfilled
    rw [hsame]
    exact hfilled
  · rw [heq] at hfilled
    rw [hsame]
    exact hfilled

end Updates

theorem recalculate_of_error {e : Error} (h : (s.aggregator.drain s.hot).1 = .error e) :
    s.recalculate = (.error e, s) := by
  have hkept := drain_of_error h
  unfold recalculate
  cases hpair : s.aggregator.drain s.hot with
  | mk result aggregator =>
    rw [hpair] at h hkept
    obtain rfl : result = .error e := h
    obtain rfl : aggregator = s.aggregator := hkept
    rfl

/-- What a drain that returns leaves: no marks, the calculations of the marked themes made again and
the others as they were. -/
structure Drains (s s' : MarketDataPipeline) : Prop where
  same : ∃ aggregator metrics, s' = { s with aggregator, latestMetrics := metrics } ∧
    aggregator.catalog = s.aggregator.catalog ∧ aggregator.references = s.aggregator.references ∧
    aggregator.policy = s.aggregator.policy
  unmarked : ∀ key, s'.aggregator.dirty.get? key = none
  stored : ∀ theme, (∃ mark u,
      s.aggregator.dirty.get? (dirtyKey theme s.marketDate) = some mark ∧
        s.aggregator.recompute s.hot mark = .ok u ∧ s'.latestMetrics.get? theme = some u) ∨
    (s.aggregator.dirty.get? (dirtyKey theme s.marketDate) = none ∧
      s'.latestMetrics.get? theme = s.latestMetrics.get? theme)

theorem Filed.recalculate_cases (h : s.Filed) :
    (∃ e, s.recalculate = (.error e, s)) ∨ ∃ s', s.recalculate = (.ok (), s') ∧ Drains s s' := by
  cases hdrain : (s.aggregator.drain s.hot).1 with
  | error e => exact .inl ⟨e, recalculate_of_error hdrain⟩
  | ok updates =>
    obtain ⟨marks, htracks, hday⟩ := h.marks
    obtain ⟨hright, hleft, hempty, hcatalog⟩ := drain_eq_ok hdrain htracks.own
    obtain ⟨hreferences, hpolicy⟩ := s.aggregator.drain_keeps s.hot
    have heq : s.recalculate = (.ok (), { s with
        aggregator := (s.aggregator.drain s.hot).2
        latestMetrics := updates.foldl (fun d u => d.set u.themeId u) s.latestMetrics }) := by
      unfold recalculate
      cases hpair : s.aggregator.drain s.hot with
      | mk result aggregator =>
        rw [hpair] at hdrain
        obtain rfl : result = .ok updates := hdrain
        rfl
    refine .inr ⟨_, heq, ⟨_, _, rfl, hcatalog, hreferences, hpolicy⟩, hempty, fun theme => ?_⟩
    rcases Dict.get?_foldl_setBy ThemeMetricUpdate.themeId id updates s.latestMetrics theme with
      ⟨m, hm, htheme, hget⟩ | ⟨hother, hget⟩
    · obtain ⟨mark, hmark, hrecompute⟩ := hright m hm
      obtain ⟨hmarkTheme, -, -⟩ := recompute_eq_ok hrecompute
      obtain ⟨key, hkey⟩ := mem_pending.mp hmark
      refine .inl ⟨mark, m, ?_, hrecompute, hget⟩
      rw [← htheme, hmarkTheme, ← (h.mark_eq hkey).1]
      exact hkey
    · refine .inr ⟨?_, hget⟩
      cases hmark : s.aggregator.dirty.get? (dirtyKey theme s.marketDate) with
      | none => rfl
      | some mark =>
        obtain ⟨m, hm, hrecompute⟩ := hleft mark (mem_pending.mpr ⟨_, hmark⟩)
        have hsame := Prod.mk.inj (toLex_inj.mp (h.mark_eq hmark).1)
        obtain ⟨hmarkTheme, -, -⟩ := recompute_eq_ok hrecompute
        exact absurd (hmarkTheme.trans hsame.1.symm) (hother m hm)

theorem Filed.drains {s' : MarketDataPipeline} (h : s.Filed) (hdrains : Drains s s') :
    s'.Filed := by
  obtain ⟨aggregator, metrics, hsame, -, hreferences, -⟩ := hdrains.same
  have hstored := hdrains.stored
  have hunmarked := hdrains.unmarked
  subst hsame
  refine ⟨hreferences.trans h.references, ⟨[], tracks_of_empty hunmarked, by simp⟩, ?_⟩
  intro theme u hu
  rcases hstored theme with ⟨mark, m, hmark, hrecompute, hget⟩ | ⟨-, hget⟩
  · obtain rfl : m = u := Option.some.inj (hget.symm.trans hu)
    obtain ⟨htheme, hdate, -⟩ := recompute_eq_ok hrecompute
    obtain ⟨hkey, hday⟩ := h.mark_eq hmark
    exact ⟨htheme.trans (Prod.mk.inj (toLex_inj.mp hkey)).1.symm, hdate.trans hday⟩
  · exact h.stored theme u (hget.symm.trans hu)

theorem Filed.recalculate (h : s.Filed) : s.recalculate.2.Filed := by
  rcases h.recalculate_cases with ⟨e, heq⟩ | ⟨s', heq, hdrains⟩
  · rw [heq]
    exact h
  · rw [heq]
    exact h.drains hdrains

theorem Filed.call [Sha256] (h : s.Filed) (c : PipelineCall) :
    (s.call c).2.Filed := by
  cases c with
  | applyUpdate update => exact h.applyUpdate update
  | publish around now =>
    obtain ⟨treated, hsame, -, -⟩ := s.publish_data around now
    obtain ⟨last, hlast⟩ := s.recalculate.2.noteAll_eq treated
    exact h.recalculate.of_sameData (hlast ▸ hsame)
  | closeMarket around now =>
    have hopen : Filed { s with marketClosed := true } := ⟨h.references, h.marks, h.stored⟩
    exact hopen.of_sameData (s.closeMarket_data around now)

theorem recalculate_keeps (s : MarketDataPipeline) :
    s.recalculate.2.toPipelineSettings = s.toPipelineSettings ∧
      s.recalculate.2.lastAsOf = s.lastAsOf := by
  unfold recalculate
  dsimp only
  split <;> exact ⟨rfl, rfl⟩

theorem settings_call [Sha256] (s : MarketDataPipeline) (c : PipelineCall) :
    (s.call c).2.toPipelineSettings = s.toPipelineSettings := by
  cases c with
  | applyUpdate update =>
    have hsettings : (s.applyUpdate update).2.toPipelineSettings = s.toPipelineSettings := by
      rcases s.applyUpdate_cases update with
        hsame | ⟨-, filled, hfilled, ⟨-, hsame, -⟩ | ⟨-, hsame, -⟩⟩
      · rw [hsame]
      · rw [hsame]
        exact (supplementBasePrice_keeps hfilled).1
      · rw [hsame]
        exact (supplementBasePrice_keeps hfilled).1
    exact hsettings
  | publish around now =>
    obtain ⟨treated, hsame, -⟩ := s.publish_data around now
    obtain ⟨last, hlast⟩ := s.recalculate.2.noteAll_eq treated
    rw [hlast] at hsame
    exact hsame.settings.trans s.recalculate_keeps.1
  | closeMarket around now => exact (s.closeMarket_data around now).settings

end MarketDataPipeline

end Dayjaview.Pipeline
