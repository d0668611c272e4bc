import Dayjaview.Pipeline.Records

/-!
# Calculations and their recalculation

A stored calculation stays what a calculation from scratch gives as long as every
update marks the themes it affects. An update does not mark a theme when its stock
was no member at its receipt, and a base price that comes with an update that is
not applied enters the references without any mark.
-/

namespace Dayjaview.Realtime

open Dayjaview.Domain Dayjaview.Calculations

namespace DirtyThemeAggregator

/-- A reference may be selected for a stock. -/
def Eligible (marketDate : Date) (asOf : Datetime) (stockId : String) (r : StockReference) : Prop :=
  r.stockId = stockId ∧ r.effectiveFor = marketDate ∧ r.knownAt ≤ asOf

instance (marketDate : Date) (asOf : Datetime) (stockId : String) (r : StockReference) :
    Decidable (Eligible marketDate asOf stockId r) :=
  inferInstanceAs (Decidable (_ ∧ _ ∧ _))

/-- The latest of some references, unless two became known at that time. -/
def latestReference (stockId : String) (eligible : List StockReference) :
    Except Error (Option StockReference) :=
  match (ranked referenceRank eligible).getLast? with
  | none => .ok none
  | some latest =>
    if 1 < eligible.countP fun r => r.knownAt.instant = latest.knownAt.instant then
      .error ⟨.valueError, s!"같은 시점에 둘 이상의 reference version이 유효합니다: {stockId}"⟩
    else .ok (some latest)

theorem selectReference_eq (a : DirtyThemeAggregator) (marketDate : Date) (asOf : Datetime)
    (stockId : String) : a.selectReference marketDate asOf stockId =
      latestReference stockId (a.references.filter fun r => Eligible marketDate asOf stockId r) :=
  rfl

theorem latestReference_append {stockId : String} {eligible : List StockReference}
    {reference newer : StockReference} (hnewer : newer ∈ eligible)
    (hlater : reference.knownAt < newer.knownAt) :
    latestReference stockId (eligible ++ [reference]) = latestReference stockId eligible := by
  have hrank : referenceRank reference < referenceRank newer :=
    Prod.Lex.toLex_lt_toLex.mpr (.inl hlater)
  unfold latestReference
  rw [getLast?_ranked_append ⟨newer, hnewer, hrank⟩]
  cases hlatest : (ranked referenceRank eligible).getLast? with
  | none => rfl
  | some latest =>
    have hle : newer.knownAt.instant ≤ latest.knownAt.instant := by
      rw [getLast?_ranked] at hlatest
      have hgreatest := (isGreatestBy_of_latestOf hlatest).2 newer (List.mem_reverse.mpr hnewer)
      rcases Prod.Lex.toLex_le_toLex.mp hgreatest with hlt | ⟨heq, -⟩
      · exact le_of_lt hlt
      · exact le_of_eq heq
    have hother : reference.knownAt.instant ≠ latest.knownAt.instant := by
      have hlt : reference.knownAt.instant < newer.knownAt.instant := hlater
      omega
    simp [List.countP_append, hother]

/-- A new reference does not change the selection for a stock if it is one of another stock, if it
is not known yet or if another one of the stock became known later. -/
theorem selectReference_addReference (a : DirtyThemeAggregator) {reference : StockReference}
    {marketDate : Date} {asOf : Datetime} {stockId : String}
    (h : reference.stockId = stockId → asOf < reference.knownAt ∨
      ∃ newer ∈ a.references, Eligible marketDate asOf stockId newer ∧
        reference.knownAt < newer.knownAt) :
    (a.addReference reference).selectReference marketDate asOf stockId =
      a.selectReference marketDate asOf stockId := by
  rw [selectReference_eq, selectReference_eq, addReference, List.filter_append,
    List.filter_singleton]
  by_cases heligible : Eligible marketDate asOf stockId reference
  · simp only [heligible, decide_true, cond_true]
    rcases h heligible.1 with hunknown | ⟨newer, hmem, hnewer, hlater⟩
    · exact absurd heligible.2.2 (not_le_of_gt hunknown)
    · exact latestReference_append (List.mem_filter.mpr ⟨hmem, decide_eq_true hnewer⟩) hlater
  · simp only [heligible, decide_false, cond_false, List.append_nil]

end DirtyThemeAggregator

end Dayjaview.Realtime

namespace Dayjaview.Pipeline

open Dayjaview.Domain Dayjaview.Calculations Dayjaview.Realtime DirtyThemeAggregator

namespace MarketDataPipeline

/-- The metrics of a theme at a time from its membership then, the references selected then and the
present hot states of its members. -/
def fromScratch (s : MarketDataPipeline) (themeId : String) (marketDate : Date) (asOf : Datetime) :
    Except Error ThemeMetrics := do
  match ← s.aggregator.catalog.select themeId marketDate asOf with
  | none =>
    throw ⟨.valueError, s!"dirty theme 계산 시점에 유효한 membership이 없습니다: {themeId}"⟩
  | some membership =>
    let stockIds := membership.members.map ThemeMember.stockId
    let references ← s.aggregator.selectReferences stockIds marketDate asOf
    calculateThemeMetrics marketDate asOf membership references
      ((statesFor s.hot marketDate stockIds).map fun state => state.toObservation)
      s.aggregator.policy

/-- A calculation is what one from scratch gives now. -/
def Recomputed (s : MarketDataPipeline) (update : ThemeMetricUpdate) : Prop :=
  s.fromScratch update.themeId update.marketDate update.asOf = .ok update.metrics

instance (s : MarketDataPipeline) (update : ThemeMetricUpdate) : Decidable (s.Recomputed update) :=
  inferInstanceAs (Decidable (_ = _))

variable {s s' filled : MarketDataPipeline} {u : ThemeMetricUpdate}

theorem recomputed_of_recompute {mark : DirtyTheme}
    (h : s.aggregator.recompute s.hot mark = .ok u) : s.Recomputed u := by
  rw [recompute, bind_eq_ok] at h
  obtain ⟨selected, hselected, h⟩ := h
  cases selected with
  | none => cases h
  | some membership =>
    dsimp only at h
    rw [bind_eq_ok] at h
    obtain ⟨references, hreferences, h⟩ := h
    rw [bind_eq_ok] at h
    obtain ⟨metrics, hmetrics, h⟩ := h
    cases h
    refine bind_eq_ok.mpr ⟨some membership, hselected, ?_⟩
    exact bind_eq_ok.mpr ⟨references, hreferences, hmetrics⟩

theorem select_of_recomputed (h : s.Recomputed u) :
    ∃ membership,
      s.aggregator.catalog.select u.themeId u.marketDate u.asOf = .ok (some membership) := by
  obtain ⟨selected, hselected, h⟩ := bind_eq_ok.mp h
  cases selected with
  | none => cases h
  | some membership => exact ⟨membership, hselected⟩

theorem Recomputed.of_same (h : s.Recomputed u)
    (hcatalog : s'.aggregator.catalog = s.aggregator.catalog)
    (hpolicy : s'.aggregator.policy = s.aggregator.policy) (hmembers : ∀ membership,
      s.aggregator.catalog.select u.themeId u.marketDate u.asOf = .ok (some membership) →
      ∀ member ∈ membership.members,
        s'.aggregator.selectReference u.marketDate u.asOf member.stockId =
            s.aggregator.selectReference u.marketDate u.asOf member.stockId ∧
          s'.hot.get u.marketDate member.stockId = s.hot.get u.marketDate member.stockId) :
    s'.Recomputed u := by
  obtain ⟨membership, hselected⟩ := select_of_recomputed h
  have hsame : ∀ stockId ∈ sortedTexts (membership.members.map ThemeMember.stockId),
      s'.aggregator.selectReference u.marketDate u.asOf stockId =
          s.aggregator.selectReference u.marketDate u.asOf stockId ∧
        s'.hot.get u.marketDate stockId = s.hot.get u.marketDate stockId := by
    intro stockId hstock
    obtain ⟨member, hmember, rfl⟩ := List.mem_map.mp (mem_sortedTexts.mp hstock)
    exact hmembers membership hselected member hmember
  have hreferences :
      s'.aggregator.selectReferences (membership.members.map ThemeMember.stockId) u.marketDate
          u.asOf =
        s.aggregator.selectReferences (membership.members.map ThemeMember.stockId) u.marketDate
          u.asOf := by
    unfold selectReferences
    rw [mapM_congr fun stockId hstock => (hsame stockId hstock).1]
  have hstates :
      statesFor s'.hot u.marketDate (membership.members.map ThemeMember.stockId) =
        statesFor s.hot u.marketDate (membership.members.map ThemeMember.stockId) :=
    List.filterMap_congr fun stockId hstock => (hsame stockId hstock).2
  unfold Recomputed fromScratch at h ⊢
  rw [hselected] at h
  rw [hcatalog, hselected]
  dsimp only [bind, Except.bind] at h ⊢
  rw [hreferences, hstates, hpolicy]
  exact h

/-- An update does not leave a calculation behind: a new observation marks the theme, and a base
price that comes without one is not known at the time of the calculation, or another reference of
the stock became known after it. -/
structure Reaches (s : MarketDataPipeline) (update : StockRealtimeUpdate) (u : ThemeMetricUpdate) :
    Prop where
  observation : Newer s.hot update → u.themeId ∈ MarketRun.markedThemes s.aggregator update
  basePrice : ¬ Newer s.hot update → s.Supplements update → u.asOf < update.receivedAt ∨
    ∃ newer ∈ s.references, Eligible s.marketDate u.asOf update.stockId newer ∧
      update.receivedAt < newer.knownAt

/-- An update leaves no calculation behind whose theme has the stock and is not marked yet. -/
def LeavesNoneBehind (s : MarketDataPipeline) (update : StockRealtimeUpdate) : Prop :=
  update.marketDate = s.marketDate → ∀ theme u, s.latestMetrics.get? theme = some u →
    s.aggregator.dirty.get? (dirtyKey theme s.marketDate) = none →
    (∃ membership,
      s.aggregator.catalog.select u.themeId u.marketDate u.asOf = .ok (some membership) ∧
        membership.contains update.stockId) →
    s.Reaches update u

/-- The records of the day, with calculations that are as from scratch. -/
structure Current (s : MarketDataPipeline) : Prop extends Filed s where
  recomputed : ∀ theme u, s.latestMetrics.get? theme = some u →
    s.aggregator.dirty.get? (dirtyKey theme s.marketDate) = none → s.Recomputed u

theorem current_start (settings : PipelineSettings) (catalog : VersionedThemeCatalog)
    (references : List StockReference) : Current (start settings catalog references) where
  toFiled := filed_start settings catalog references
  recomputed theme u h := by cases h

theorem Current.of_sameData (h : s.Current) {last : Option Datetime}
    (hsame : SameData { s with lastAsOf := last } s') : s'.Current := by
  have hdate : s'.marketDate = s.marketDate := congrArg PipelineSettings.marketDate hsame.settings
  have haggregator : s'.aggregator = s.aggregator := hsame.aggregator
  have hhot : s'.hot = s.hot := hsame.hot
  have hmetrics : s'.latestMetrics = s.latestMetrics := hsame.latestMetrics
  refine ⟨h.toFiled.of_sameData hsame, ?_⟩
  rw [hmetrics, hdate, haggregator]
  intro theme u hu hclean
  refine (h.recomputed theme u hu hclean).of_same ?_ ?_ fun membership _ member _ => ?_
  · rw [haggregator]
  · rw [haggregator]
  · rw [haggregator, hhot]
    exact ⟨rfl, rfl⟩

theorem Current.drains (h : s.Current) (hdrains : Drains s s') :
    ∀ theme u, s'.latestMetrics.get? theme = some u → s'.Recomputed u := by
  obtain ⟨aggregator, metrics, hsame, hcatalog, hreferences, hpolicy⟩ := hdrains.same
  intro theme u hu
  have hbefore : s.Recomputed u := by
    rcases hdrains.stored theme with ⟨mark, m, -, hrecompute, hget⟩ | ⟨hunmarked, hget⟩
    · obtain rfl : m = u := Option.some.inj (hget.symm.trans hu)
      exact recomputed_of_recompute hrecompute
    · exact h.recomputed theme u (hget.symm.trans hu) hunmarked
  rw [hsame]
  refine hbefore.of_same hcatalog hpolicy fun membership _ member _ => ⟨?_, rfl⟩
  rw [selectReference_eq, selectReference_eq, hreferences]

theorem Current.recalculate (h : s.Current) : s.recalculate.2.Current := by
  refine ⟨h.toFiled.recalculate, ?_⟩
  rcases h.recalculate_cases with ⟨e, heq⟩ | ⟨s', heq, hdrains⟩
  · rw [heq]
    exact h.recomputed
  · rw [heq]
    exact fun theme u hu _ => h.drains hdrains theme u hu

variable [Sha256]

section

omit [Sha256]

theorem Recomputed.supplementBasePrice {update : StockRealtimeUpdate} (h : s.Recomputed u)
    (hfilled : s.supplementBasePrice update = (.ok (), filled))
    (hdate : u.marketDate = s.marketDate) (hreferences : s.aggregator.references = s.references)
    (hbase : s.Supplements update →
      (∃ membership,
        s.aggregator.catalog.select u.themeId u.marketDate u.asOf = .ok (some membership) ∧
          membership.contains update.stockId) →
      u.asOf < update.receivedAt ∨
        ∃ newer ∈ s.references, Eligible s.marketDate u.asOf update.stockId newer ∧
          update.receivedAt < newer.knownAt) :
    filled.Recomputed u := by
  rcases s.supplementBasePrice_cases update with
    ⟨e, hsame⟩ | ⟨_, hsame⟩ | ⟨hsupplements, r, _, hstock, hknown, -, hsame⟩
  · cases hfilled.symm.trans hsame
  · obtain rfl := congrArg Prod.snd (hfilled.symm.trans hsame)
    exact h
  · obtain rfl := congrArg Prod.snd (hfilled.symm.trans hsame)
    refine h.of_same rfl rfl fun membership hselected member hmember => ⟨?_, rfl⟩
    apply selectReference_addReference
    intro hown
    have hcontains : membership.contains update.stockId = true :=
      ThemeMembershipSnapshot.contains_iff.mpr ⟨member, hmember, hown.symm.trans hstock⟩
    rcases hbase hsupplements ⟨membership, hselected, hcontains⟩ with
      hunknown | ⟨newer, hmem, heligible, hlater⟩
    · exact .inl (hknown ▸ hunknown)
    · refine .inr ⟨newer, hreferences ▸ hmem, ?_, hknown ▸ hlater⟩
      rw [hdate, ← hown, hstock]
      exact heligible

theorem Current.recomputed_supplemented (h : s.Current) {update : StockRealtimeUpdate}
    (hbehind : s.LeavesNoneBehind update) (hday : update.marketDate = s.marketDate)
    (hfilled : s.supplementBasePrice update = (.ok (), filled)) (hold : ¬ Newer s.hot update)
    {hot : HotStateStore} (hstates : hot.states = s.hot.states) {theme : String}
    (hu : s.latestMetrics.get? theme = some u)
    (hunmarked : s.aggregator.dirty.get? (dirtyKey theme s.marketDate) = none) :
    Recomputed { filled with hot } u := by
  obtain ⟨-, hhot, -⟩ := supplementBasePrice_keeps hfilled
  have hrecomputed := (h.recomputed theme u hu hunmarked).supplementBasePrice hfilled
    (h.stored theme u hu).2 h.references fun hsupplements hmember =>
      (hbehind hday theme u hu hunmarked hmember).basePrice hold hsupplements
  refine hrecomputed.of_same rfl rfl fun _ _ member _ => ⟨rfl, ?_⟩
  rw [hhot]
  exact congrArg (Dict.get? · _) hstates

theorem Current.recomputed_marked (h : s.Current) {update : StockRealtimeUpdate}
    (hbehind : s.LeavesNoneBehind update) (hday : update.marketDate = s.marketDate)
    (hfilled : s.supplementBasePrice update = (.ok (), filled)) (hnewer : Newer s.hot update)
    {hot : HotStateStore} {state : HotStockState}
    (hstates : hot.states = s.hot.states.set update.stateKey state) {theme : String}
    (hu : s.latestMetrics.get? theme = some u)
    (hunmarked : (filled.aggregator.markStock update.stockId update.marketDate
      update.receivedAt).2.dirty.get? (dirtyKey theme s.marketDate) = none) :
    Recomputed { filled with
      hot
      aggregator :=
        (filled.aggregator.markStock update.stockId update.marketDate update.receivedAt).2 } u := by
  obtain ⟨-, hhot, -, hdirty, hcatalog, -⟩ := supplementBasePrice_keeps hfilled
  obtain ⟨hkeptCatalog, hkeptReferences, hkeptPolicy⟩ :=
    filled.aggregator.markStock_keeps update.stockId update.marketDate update.receivedAt
  obtain ⟨marks, htracks, -⟩ := h.marks
  obtain ⟨htheme, hdate⟩ := h.stored theme u hu
  have hmarked : MarketRun.markedThemes filled.aggregator update =
      MarketRun.markedThemes s.aggregator update := by
    unfold MarketRun.markedThemes
    rw [hcatalog]
  have hmark := MarketRun.tracks_mark (s := ⟨s.hot, filled.aggregator, marks, [], []⟩) update
    (hdirty ▸ htracks)
  -- a theme that is not marked now was not marked before, and the update did not mark it
  have hnone : ∀ mark ∈ marks ++ (MarketRun.markedThemes filled.aggregator update).map
      (fun themeId => (⟨themeId, update⟩ : Mark)), mark.key ≠ dirtyKey theme s.marketDate := by
    intro mark hmem hkey
    obtain ⟨e, he, -⟩ := hmark.bounded mark hmem
    rw [hkey] at he
    cases he.symm.trans hunmarked
  have hbefore : s.aggregator.dirty.get? (dirtyKey theme s.marketDate) = none := by
    cases hmarkBefore : s.aggregator.dirty.get? (dirtyKey theme s.marketDate) with
    | none => rfl
    | some e =>
      obtain ⟨mark, hmem, hkey, -⟩ := htracks.newest _ e hmarkBefore
      exact absurd hkey (hnone mark (List.mem_append_left _ hmem))
  have hout : ¬ ∃ membership,
      s.aggregator.catalog.select u.themeId u.marketDate u.asOf = .ok (some membership) ∧
        membership.contains update.stockId := by
    intro hmember
    have hown := (hbehind hday theme u hu hbefore hmember).observation hnewer
    refine hnone ⟨u.themeId, update⟩ (List.mem_append_right _ ?_) ?_
    · exact List.mem_map.mpr ⟨_, hmarked ▸ hown, rfl⟩
    · rw [Mark.key, htheme, hday]
  have hrecomputed := (h.recomputed theme u hu hbefore).supplementBasePrice hfilled hdate
    h.references fun _ hmember => absurd hmember hout
  refine hrecomputed.of_same hkeptCatalog hkeptPolicy fun membership hselected member hmember => ?_
  constructor
  · rw [selectReference_eq, selectReference_eq]
    dsimp only
    rw [hkeptReferences]
  · have hother : toLex (u.marketDate, member.stockId) ≠ update.stateKey := by
      intro hkey
      have hstock := (Prod.mk.inj (toLex_inj.mp hkey)).2
      have hcontains := ThemeMembershipSnapshot.contains_iff.mpr ⟨member, hmember, hstock⟩
      exact hout ⟨membership, hcatalog ▸ hselected, hcontains⟩
    rw [hhot]
    refine (congrArg (Dict.get? · _) hstates).trans ?_
    exact Dict.get?_set_of_ne _ _ hother

end

theorem Current.applyUpdate (h : s.Current) {update : StockRealtimeUpdate}
    (hbehind : s.LeavesNoneBehind update) : (s.applyUpdate update).2.Current := by
  refine ⟨h.toFiled.applyUpdate update, ?_⟩
  rcases s.applyUpdate_cases update with
    hsame | ⟨hday, filled, hfilled, ⟨hold, hsame, hstates⟩ | ⟨hnewer, hsame, state, hstates⟩⟩
  · rw [hsame]
    exact h.recomputed
  all_goals
    obtain ⟨hsettings, -, hmetrics, hdirty, -⟩ := supplementBasePrice_keeps hfilled
    have hdate : filled.marketDate = s.marketDate := congrArg PipelineSettings.marketDate hsettings
    rw [hsame]
    dsimp only
    rw [hmetrics, hdate]
    intro theme u hu hunmarked
  · exact h.recomputed_supplemented hbehind hday hfilled hold hstates hu (hdirty ▸ hunmarked)
  · exact h.recomputed_marked hbehind hday hfilled hnewer hstates hu hunmarked

theorem Current.call (h : s.Current) (c : PipelineCall)
    (hbehind : ∀ update, c = .applyUpdate update → s.LeavesNoneBehind update) :
    (s.call c).2.Current := by
  cases c with
  | applyUpdate update => exact h.applyUpdate (hbehind update rfl)
  | publish around now =>
    obtain ⟨treated, hsame, -, -⟩ := s.publish_data around now
    obtain ⟨last, hlast⟩ := s.recalculate.2.noteAll_eq treated
    exact h.recalculate.of_sameData (hlast ▸ hsame)
  | closeMarket around now =>
    have hopen : Current { s with marketClosed := true } :=
      ⟨⟨h.references, h.marks, h.stored⟩, h.recomputed⟩
    exact hopen.of_sameData (s.closeMarket_data around now)

theorem current_run (h : s.Current) (calls : List PipelineCall)
    (hbehind : ∀ earlier update later, calls = earlier ++ .applyUpdate update :: later →
      (s.run earlier).LeavesNoneBehind update) : (s.run calls).Current := by
  induction calls using List.reverseRecOn with
  | nil => exact h
  | append_singleton calls c ih =>
    have hbefore : (s.run calls).Current := by
      apply ih
      rintro earlier update later rfl
      exact hbehind earlier update (later ++ [c]) (by simp)
    have hstep : s.run (calls ++ [c]) = ((s.run calls).call c).2 := by
      simp only [run, List.foldl_append, List.foldl_cons, List.foldl_nil]
    rw [hstep]
    refine hbefore.call c ?_
    rintro update rfl
    exact hbehind calls update [] rfl

/-- In a run whose updates leave no calculation behind, every stored calculation is what one from
scratch gives after each publication that returns. -/
theorem publish_recomputed (settings : PipelineSettings) (catalog : VersionedThemeCatalog)
    (references : List StockReference) (calls : List PipelineCall)
    (hbehind : ∀ earlier update later, calls = earlier ++ .applyUpdate update :: later →
      ((start settings catalog references).run earlier).LeavesNoneBehind update)
    (around : Surroundings) (now : Datetime) :
    let s := (start settings catalog references).run calls
    (s.publish around now).1 = .ok () →
      ∀ theme u, (s.publish around now).2.latestMetrics.get? theme = some u →
        (s.publish around now).2.Recomputed u := by
  intro s hreturned theme u hu
  have hcurrent : s.Current := current_run (current_start settings catalog references) calls hbehind
  obtain ⟨treated, hsame, -, hdrained⟩ := s.publish_data around now
  obtain ⟨last, hlast⟩ := s.recalculate.2.noteAll_eq treated
  rw [hlast] at hsame
  have hdrain := (hdrained hreturned).1
  have hrecomputed : s.recalculate.2.Recomputed u := by
    rw [hsame.latestMetrics] at hu
    rcases hcurrent.recalculate_cases with ⟨e, heq⟩ | ⟨s', heq, hdrains⟩
    · rw [heq] at hdrain
      cases hdrain
    · rw [heq] at hu ⊢
      exact hcurrent.drains hdrains theme u hu
  refine hrecomputed.of_same ?_ ?_ fun membership _ member _ => ⟨?_, ?_⟩
  · exact congrArg DirtyThemeAggregator.catalog hsame.aggregator
  · exact congrArg DirtyThemeAggregator.policy hsame.aggregator
  · rw [hsame.aggregator]
  · rw [hsame.hot]

open HotStateStore (tick)
open Dayjaview.Events (fivePastNine)

/-- A later tick without a base price. -/
def baselessTick : StockRealtimeUpdate :=
  ⟨{ tick.toFields with messageId := "tick-4", sourceSequence := 2, basePrice := none }, by decide⟩

/-- The first tick, received a minute before. -/
def overtakenTick : StockRealtimeUpdate :=
  ⟨{ tick.toFields with occurredAt := MarketRun.fourPastNine,
                        receivedAt := MarketRun.fourPastNine }, by decide⟩

/-- A tick, the publication of its theme, and a tick of the other stock. -/
def twoTicks : List PipelineCall :=
  [.applyUpdate baselessTick, .publish .calm fivePastNine, .applyUpdate MarketRun.laterTick]

section

omit [Sha256]

theorem leavesNoneBehind_laterTick :
    letI : Sha256 := .ofTable []
    ((start tradingDay MarketRun.pairCatalog []).run (twoTicks.take 2)).LeavesNoneBehind
      MarketRun.laterTick := by
  have hnewer : Newer (@run (.ofTable []) (start tradingDay MarketRun.pairCatalog [])
      (twoTicks.take 2)).hot MarketRun.laterTick :=
    ⟨by decide +kernel, by unfold HotStateStore.Advances; decide +kernel, by decide +kernel⟩
  have hmarked : ∀ u ∈ (@run (.ofTable []) (start tradingDay MarketRun.pairCatalog [])
        (twoTicks.take 2)).latestMetrics.values,
      u.themeId ∈ MarketRun.markedThemes (@run (.ofTable [])
        (start tradingDay MarketRun.pairCatalog []) (twoTicks.take 2)).aggregator
          MarketRun.laterTick := by decide +kernel
  exact fun _ theme u hu _ _ => ⟨fun _ => hmarked u ((Dict.mem_values_iff _).mpr ⟨theme, hu⟩),
    fun hold => absurd hnewer hold⟩

/-- The second tick marks the theme that was calculated before, and the next publication calculates
it again. -/
theorem publish_recomputed_twoTicks :
    letI : Sha256 := .ofTable []
    let s := (start tradingDay MarketRun.pairCatalog []).run twoTicks
    (s.publish .calm MarketRun.tenPastNine).1 = .ok () ∧
      ∀ theme u, (s.publish .calm MarketRun.tenPastNine).2.latestMetrics.get? theme = some u →
        (s.publish .calm MarketRun.tenPastNine).2.Recomputed u := by
  have hreturned : (@publish (.ofTable []) (@run (.ofTable [])
      (start tradingDay MarketRun.pairCatalog []) twoTicks) .calm MarketRun.tenPastNine).1 =
        .ok () := by decide +kernel
  refine ⟨hreturned, @publish_recomputed (.ofTable []) tradingDay MarketRun.pairCatalog []
    twoTicks ?_ .calm MarketRun.tenPastNine hreturned⟩
  intro earlier update later hcalls
  rcases earlier with _ | ⟨first, _ | ⟨second, _ | ⟨third, earlier⟩⟩⟩
  · intro _ theme u hu
    cases hu
  · simp [twoTicks] at hcalls
  · simp only [twoTicks, List.cons_append, List.nil_append, List.cons.injEq,
      PipelineCall.applyUpdate.injEq] at hcalls
    obtain ⟨rfl, rfl, rfl, -⟩ := hcalls
    exact leavesNoneBehind_laterTick
  · simp [twoTicks] at hcalls

/-- The base price of a tick that comes late is known at the time of the calculation, which is not
made again. -/
theorem publish_recomputed_fails_overtakenTick :
    letI : Sha256 := .ofTable []
    let s := (start tradingDay MarketRun.pairCatalog []).run [.applyUpdate baselessTick,
      .publish .calm fivePastNine, .applyUpdate overtakenTick]
    (s.publish .calm fivePastNine).1 = .ok () ∧
      ∃ u, (s.publish .calm fivePastNine).2.latestMetrics.get? "theme-1" = some u ∧
        ¬ (s.publish .calm fivePastNine).2.Recomputed u := by
  have hreturned : (@publish (.ofTable []) (@run (.ofTable [])
      (start tradingDay MarketRun.pairCatalog [])
      [.applyUpdate baselessTick, .publish .calm fivePastNine, .applyUpdate overtakenTick])
      .calm fivePastNine).1 = .ok () := by decide +kernel
  have hbehind : ∃ u ∈ (@publish (.ofTable []) (@run (.ofTable [])
        (start tradingDay MarketRun.pairCatalog [])
        [.applyUpdate baselessTick, .publish .calm fivePastNine, .applyUpdate overtakenTick])
        .calm fivePastNine).2.latestMetrics.get? "theme-1",
      ¬ (@publish (.ofTable []) (@run (.ofTable [])
        (start tradingDay MarketRun.pairCatalog [])
        [.applyUpdate baselessTick, .publish .calm fivePastNine, .applyUpdate overtakenTick])
        .calm fivePastNine).2.Recomputed u := by decide +kernel
  exact ⟨hreturned, hbehind⟩

end

end MarketDataPipeline

end Dayjaview.Pipeline
