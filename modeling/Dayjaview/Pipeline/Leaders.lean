import Dayjaview.Calculations.MetricStages
import Dayjaview.Pipeline.References

/-!
# Leaders and their closes

The leaders of a theme are ranked by their returns over the close of the day before. Where a stock
has several references, the metrics take the one that became known last, the leaders the first one
that may be used.
-/

namespace Dayjaview.Realtime.DirtyThemeAggregator

open Dayjaview.Domain Dayjaview.Calculations

theorem selectReference_spec {a : DirtyThemeAggregator} {marketDate : Date} {asOf : Datetime}
    {stockId : String} {latest : StockReference}
    (h : a.selectReference marketDate asOf stockId = .ok (some latest)) :
    latest ∈ a.references ∧ Eligible marketDate asOf stockId latest := by
  rw [selectReference_eq, latestReference] at h
  split at h
  · cases h
  · next r hlatest =>
    split at h
    · cases h
    · cases h
      rw [getLast?_ranked] at hlatest
      have hmem := List.mem_reverse.mp (isGreatestBy_of_latestOf hlatest).1
      exact ⟨(List.mem_filter.mp hmem).1, of_decide_eq_true (List.mem_filter.mp hmem).2⟩

theorem selectReference_of_recompute {a : DirtyThemeAggregator} {hot : HotStateStore}
    {mark : DirtyTheme} {u : ThemeMetricUpdate} (h : a.recompute hot mark = .ok u)
    {w : CappedWeight} (hw : w ∈ u.metrics.cappedWeights) :
    ∃ latest, a.selectReference u.marketDate u.asOf w.stockId = .ok (some latest) ∧
      (latest.adjustedReturnReference u.marketDate u.asOf).isSome := by
  rw [recompute, bind_eq_ok] at h
  obtain ⟨membership, -, h⟩ := h
  cases membership with
  | none => cases h
  | some membership =>
    dsimp only at h
    obtain ⟨references, hreferences, h⟩ := bind_eq_ok.mp h
    obtain ⟨metrics, hmetrics, h⟩ := bind_eq_ok.mp h
    cases h
    obtain ⟨latest, hlatest, hstock, hclose⟩ := reference_of_cappedWeight hmetrics hw
    obtain ⟨selected, hselected, hfound⟩ := bind_eq_ok.mp hreferences
    cases hfound
    obtain ⟨found, hfound, hsome⟩ := List.mem_filterMap.mp hlatest
    obtain rfl : found = some latest := hsome
    obtain ⟨stockId, -, hselect⟩ := (mem_of_mapM_eq_ok hselected).1 _ hfound
    have hown := (selectReference_spec hselect).2.1
    refine ⟨latest, ?_, hclose⟩
    rw [← hstock, hown]
    exact hselect

end Dayjaview.Realtime.DirtyThemeAggregator

namespace Dayjaview.Pipeline

open Dayjaview.Domain Dayjaview.Calculations Dayjaview.Realtime DirtyThemeAggregator

namespace MarketDataPipeline

/-- The close that the return of a leader is over: the first one that may be used. -/
def referenceClose (s : MarketDataPipeline) (stockId : String) (update : ThemeMetricUpdate) :
    Option Decimal :=
  s.references.findSome? fun r =>
    if r.stockId ≠ stockId then none
    else r.adjustedReturnReference update.marketDate update.asOf

/-- A reference of a stock may be used for a calculation, with a close. -/
def Quotes (stockId : String) (update : ThemeMetricUpdate) (r : StockReference) (close : Decimal) :
    Prop :=
  r.stockId = stockId ∧ r.adjustedReturnReference update.marketDate update.asOf = some close

/-- Every reference of a stock that may be used with another close comes after one with that
close. -/
def ListedFirst (s : MarketDataPipeline) (stockId : String) (update : ThemeMetricUpdate)
    (close : Option Decimal) : Prop :=
  ∀ earlier r later other, s.references = earlier ++ r :: later → Quotes stockId update r other →
    sameValue (some other) close = false →
    ∃ r' ∈ earlier, ∃ same, Quotes stockId update r' same ∧ sameValue (some same) close = true

variable {s : MarketDataPipeline}

theorem referenceClose_eq_some {stockId : String} {update : ThemeMetricUpdate} {close : Decimal} :
    s.referenceClose stockId update = some close ↔ ∃ earlier r later,
      s.references = earlier ++ r :: later ∧ Quotes stockId update r close ∧
        ∀ r' ∈ earlier, ∀ other, ¬ Quotes stockId update r' other := by
  rw [referenceClose, List.findSome?_eq_some_iff]
  constructor
  · rintro ⟨earlier, r, later, hsplit, hquote, hearlier⟩
    refine ⟨earlier, r, later, hsplit, ?_, fun r' hr' other hother => ?_⟩
    · split at hquote
      · cases hquote
      · next hstock => exact ⟨not_not.mp hstock, hquote⟩
    · have hnone := hearlier r' hr'
      rw [if_neg (not_not.mpr hother.1), hother.2] at hnone
      cases hnone
  · rintro ⟨earlier, r, later, hsplit, ⟨hstock, hquote⟩, hearlier⟩
    refine ⟨earlier, r, later, hsplit, ?_, fun r' hr' => ?_⟩
    · rw [if_neg (not_not.mpr hstock), hquote]
    · split
      · rfl
      · next hstock' =>
        cases hother : r'.adjustedReturnReference update.marketDate update.asOf with
        | none => rfl
        | some other => exact absurd ⟨not_not.mp hstock', hother⟩ (hearlier r' hr' other)

/-- The close of a leader is a given one of its references exactly if no other close that may be
used is listed before it. -/
theorem referenceClose_same_iff {stockId : String} {update : ThemeMetricUpdate}
    {latest : StockReference} {close : Decimal} (hmem : latest ∈ s.references)
    (hquote : Quotes stockId update latest close) :
    sameValue (s.referenceClose stockId update) (some close) = true ↔
      s.ListedFirst stockId update (some close) := by
  obtain ⟨first, hfirst⟩ : ∃ first, s.referenceClose stockId update = some first := by
    rw [← Option.isSome_iff_exists, referenceClose, List.findSome?_isSome_iff]
    refine ⟨latest, hmem, ?_⟩
    rw [if_neg (not_not.mpr hquote.1), hquote.2]
    rfl
  obtain ⟨earlier, r, later, hsplit, hr, hearlier⟩ := referenceClose_eq_some.mp hfirst
  rw [hfirst]
  constructor
  · intro hsame before r' after other hsplit' hother hdiffers
    -- a reference that may be used is the first one or comes after it
    have hcases := List.append_eq_append_iff.mp (hsplit.symm.trans hsplit')
    rcases hcases with ⟨rest, hbefore, hafter⟩ | ⟨rest, hbefore, hafter⟩
    · cases rest with
      | nil =>
        obtain ⟨rfl, -⟩ := List.cons.inj (by simpa using hafter)
        rw [hr.2.symm.trans hother.2 |> Option.some.inj, hdiffers] at hsame
        cases hsame
      | cons c rest =>
        obtain ⟨rfl, -⟩ := List.cons.inj (by simpa using hafter)
        exact ⟨r, by simp [hbefore], first, hr, hsame⟩
    · cases rest with
      | nil =>
        obtain ⟨rfl, -⟩ := List.cons.inj (by simpa using hafter.symm)
        rw [hr.2.symm.trans hother.2 |> Option.some.inj, hdiffers] at hsame
        cases hsame
      | cons c rest =>
        obtain ⟨rfl, -⟩ := List.cons.inj (by simpa using hafter.symm)
        exact absurd hother (hearlier _ (by simp [hbefore]) other)
  · intro hlisted
    cases hsame : sameValue (some first) (some close) with
    | true => rfl
    | false =>
      obtain ⟨r', hr', same, hquotes, -⟩ := hlisted earlier r later first hsplit hr hsame
      exact absurd hquotes (hearlier r' hr' same)

/-- Every weighted stock of a stored calculation has a selected reference that may be used. -/
structure Referenced (s : MarketDataPipeline) : Prop extends Filed s where
  selected : ∀ theme u, s.latestMetrics.get? theme = some u → ∀ w ∈ u.metrics.cappedWeights,
    ∃ latest, s.aggregator.selectReference u.marketDate u.asOf w.stockId = .ok (some latest) ∧
      (latest.adjustedReturnReference u.marketDate u.asOf).isSome

theorem referenced_start (settings : PipelineSettings) (catalog : VersionedThemeCatalog)
    (references : List StockReference) : Referenced (start settings catalog references) where
  toFiled := filed_start settings catalog references
  selected theme u h := by cases h

theorem Referenced.of_same {s' : MarketDataPipeline} (h : s.Referenced) (hfiled : s'.Filed)
    (hreferences : s'.aggregator.references = s.aggregator.references)
    (hmetrics : s'.latestMetrics = s.latestMetrics) : s'.Referenced := by
  refine ⟨hfiled, fun theme u hu w hw => ?_⟩
  rw [hmetrics] at hu
  obtain ⟨latest, hlatest, hclose⟩ := h.selected theme u hu w hw
  refine ⟨latest, ?_, hclose⟩
  rw [selectReference_eq, hreferences, ← selectReference_eq]
  exact hlatest

theorem Referenced.recalculate (h : s.Referenced) :
    s.recalculate.2.Referenced := by
  rcases h.recalculate_cases with ⟨e, heq⟩ | ⟨s', heq, hdrains⟩
  · rw [heq]
    exact h
  · rw [heq]
    refine ⟨h.drains hdrains, fun theme u hu w hw => ?_⟩
    obtain ⟨aggregator, metrics, hsame, -, hreferences, -⟩ := hdrains.same
    have hselected : ∃ latest, s.aggregator.selectReference u.marketDate u.asOf w.stockId =
        .ok (some latest) ∧ (latest.adjustedReturnReference u.marketDate u.asOf).isSome := by
      rcases hdrains.stored theme with ⟨mark, m, -, hrecompute, hget⟩ | ⟨-, hget⟩
      · obtain rfl : m = u := Option.some.inj (hget.symm.trans hu)
        exact selectReference_of_recompute hrecompute hw
      · exact h.selected theme u (hget.symm.trans hu) w hw
    rw [hsame]
    dsimp only
    rw [selectReference_eq, hreferences, ← selectReference_eq]
    exact hselected

variable [Sha256]

omit [Sha256] in
theorem Referenced.not_supplements (h : s.Referenced) {update : StockRealtimeUpdate}
    (hsupplements : s.Supplements update) {theme : String} {u : ThemeMetricUpdate}
    (hu : s.latestMetrics.get? theme = some u) {w : CappedWeight}
    (hw : w ∈ u.metrics.cappedWeights) : update.stockId ≠ w.stockId := by
  rintro hstock
  obtain ⟨latest, hlatest, hclose⟩ := h.selected theme u hu w hw
  obtain ⟨hmem, hown, hdate, -⟩ := selectReference_spec hlatest
  refine hsupplements.2.2 ⟨latest, h.references ▸ hmem, hown.trans hstock.symm, ?_, ?_⟩
  · exact hdate.trans (h.stored theme u hu).2
  · unfold StockReference.adjustedReturnReference at hclose
    split at hclose
    · cases hclose
    · cases hprice : latest.previousAdjustedClose with
      | none =>
        rw [hprice] at hclose
        cases hclose
      | some price => rfl

theorem Referenced.call (h : s.Referenced) (c : PipelineCall) :
    (s.call c).2.Referenced := by
  have hfiled := h.toFiled.call c
  cases c with
  | applyUpdate update =>
    have hmetrics : (s.applyUpdate update).2.latestMetrics = s.latestMetrics := by
      rcases s.applyUpdate_cases update with
        hsame | ⟨-, filled, hfilled, ⟨-, hsame, -⟩ | ⟨-, hsame, -⟩⟩
      · rw [hsame]
      · rw [hsame]
        exact (supplementBasePrice_keeps hfilled).2.2.1
      · rw [hsame]
        exact (supplementBasePrice_keeps hfilled).2.2.1
    rcases s.references_call (.applyUpdate update) with
      heq | ⟨_, r, hupdate, -, hsupplements, hstock, -, -, heq⟩
    · exact h.of_same hfiled heq hmetrics
    · cases hupdate
      refine ⟨hfiled, fun theme u hu w hw => ?_⟩
      have hu' : s.latestMetrics.get? theme = some u := hmetrics ▸ hu
      obtain ⟨latest, hlatest, hclose⟩ := h.selected theme u hu' w hw
      refine ⟨latest, ?_, hclose⟩
      have hother := h.not_supplements hsupplements hu' hw
      have hadded : (s.aggregator.addReference r).selectReference u.marketDate u.asOf w.stockId =
          s.aggregator.selectReference u.marketDate u.asOf w.stockId :=
        s.aggregator.selectReference_addReference fun hsame =>
          absurd (hstock.symm.trans hsame) hother
      rw [selectReference_eq, heq]
      exact hadded.trans hlatest
  | publish around now =>
    obtain ⟨treated, hsame, -, -⟩ := s.publish_data around now
    obtain ⟨last, hlast⟩ := s.recalculate.2.noteAll_eq treated
    rw [hlast] at hsame
    refine h.recalculate.of_same hfiled ?_ hsame.latestMetrics
    exact congrArg DirtyThemeAggregator.references hsame.aggregator
  | closeMarket around now =>
    have hsame := s.closeMarket_data around now
    exact h.of_same hfiled (congrArg DirtyThemeAggregator.references hsame.aggregator)
      hsame.latestMetrics

theorem referenced_run (h : s.Referenced) (calls : List PipelineCall) :
    (s.run calls).Referenced := by
  induction calls generalizing s with
  | nil => exact h
  | cons c calls ih => exact ih (h.call c)

/-- In every run a leader has the close of the reference that the metrics use exactly if no
reference that may be used with another close is listed before all those with that close. -/
theorem referenceClose_same_run (settings : PipelineSettings) (catalog : VersionedThemeCatalog)
    (references : List StockReference) (calls : List PipelineCall) :
    let s := (start settings catalog references).run calls
    ∀ theme u, s.latestMetrics.get? theme = some u → ∀ w ∈ u.metrics.cappedWeights,
      ∃ latest, s.aggregator.selectReference u.marketDate u.asOf w.stockId = .ok (some latest) ∧
        (sameValue (s.referenceClose w.stockId u) latest.previousAdjustedClose = true ↔
          s.ListedFirst w.stockId u latest.previousAdjustedClose) := by
  intro s theme u hu w hw
  have hreferenced : s.Referenced :=
    referenced_run (referenced_start settings catalog references) calls
  obtain ⟨latest, hlatest, hclose⟩ := hreferenced.selected theme u hu w hw
  obtain ⟨hmem, hown, -⟩ := selectReference_spec hlatest
  obtain ⟨close, hquote⟩ := Option.isSome_iff_exists.mp hclose
  have hprice : latest.previousAdjustedClose = some close := by
    unfold StockReference.adjustedReturnReference at hquote
    split at hquote
    · cases hquote
    · exact (Option.filter_eq_some_iff.mp hquote).1
  refine ⟨latest, hlatest, ?_⟩
  rw [hprice]
  exact referenceClose_same_iff (hreferenced.references ▸ hmem) ⟨hown, hquote⟩

open HotStateStore (tick)
open MarketRun (pairCatalog earlierTick fourPastNine)
open Dayjaview.Events (fivePastNine)

/-- A reference of a stock with everything that a capitalisation needs. -/
def closeReference (stockId : String) (hour : Nat) (hhour : hour < 24) (close : Nat)
    (h : StockReference.Fields.postInit
      { stockId, effectiveFor := fivePastNine.date
        knownAt := { fourPastNine with hour, valid := ⟨hhour, fourPastNine.valid.2⟩ }
        previousAdjustedClose := some (.ofNat close), listedShares := some 1000
        freeFloatRatio := some (.ofNat 1), freeFloatValidated := true
        version := "r" } = .ok ()) : StockReference := ⟨_, h⟩

/-- The close of one stock is revised an hour later. -/
def revisedReferences : List StockReference :=
  [closeReference "KRX:005930" 7 (by decide) 69000 (by decide),
    closeReference "KRX:005930" 8 (by decide) 34500 (by decide),
    closeReference "KRX:000660" 7 (by decide) 50000 (by decide)]

omit [Sha256] in
/-- The leader's return is over the first close, the metrics are over the revised one. -/
theorem referenceClose_differs_revisedReferences :
    letI : Sha256 := .ofTable []
    let s := (start tradingDay pairCatalog revisedReferences).run
      [.applyUpdate tick, .applyUpdate earlierTick, .publish .calm fivePastNine]
    ∃ u ∈ s.latestMetrics.get? "theme-1", ∃ w ∈ u.metrics.cappedWeights,
      (s.aggregator.selectReference u.marketDate u.asOf w.stockId).map
          (Option.map fun r => r.previousAdjustedClose) = .ok (some (some (.ofNat 34500))) ∧
        s.referenceClose w.stockId u = some (.ofNat 69000) := by
  decide +kernel

end MarketDataPipeline

end Dayjaview.Pipeline
