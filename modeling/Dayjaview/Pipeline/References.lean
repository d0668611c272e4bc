import Dayjaview.Pipeline.Recalculation

/-!
# References of the day

A base price enters the references once for a stock, as known from the receipt of its
update on. As long as no reference of the stock became known at that very time, the
references of every stock can be told apart at every time.
-/

namespace Dayjaview.Realtime

open Dayjaview.Domain Dayjaview.Calculations

namespace DirtyThemeAggregator

/-- The references of a stock for a trading day. -/
def referencesOf (a : DirtyThemeAggregator) (stockId : String) (marketDate : Date) :
    List StockReference :=
  a.references.filter fun r => decide (r.stockId = stockId ∧ r.effectiveFor = marketDate)

/-- The references of some stocks can be selected, whatever the stocks and the time. -/
def Selectable (a : DirtyThemeAggregator) : Prop :=
  ∀ stockIds marketDate asOf, ∃ selected, a.selectReferences stockIds marketDate asOf = .ok selected

/-- No two references of a stock for a trading day became known at one time. -/
def Distinct (a : DirtyThemeAggregator) : Prop :=
  ∀ stockId marketDate, ((a.referencesOf stockId marketDate).map (·.knownAt.instant)).Nodup

variable {a : DirtyThemeAggregator} {stockId : String} {marketDate : Date} {asOf : Datetime}

theorem filter_eligible :
    a.references.filter (fun r => Eligible marketDate asOf stockId r) =
      (a.referencesOf stockId marketDate).filter fun r => decide (r.knownAt ≤ asOf) := by
  rw [referencesOf, List.filter_filter]
  refine List.filter_congr fun r _ => ?_
  by_cases hstock : r.stockId = stockId
  · by_cases hdate : r.effectiveFor = marketDate
    · simp [Eligible, hstock, hdate]
    · simp [Eligible, hdate]
  · simp [Eligible, hstock]

theorem countP_eligible {instant : Int} (h : instant ≤ asOf.instant) :
    (a.references.filter fun r => Eligible marketDate asOf stockId r).countP
        (fun r => r.knownAt.instant = instant) =
      ((a.referencesOf stockId marketDate).map (·.knownAt.instant)).count instant := by
  rw [filter_eligible, List.countP_filter, List.count, List.countP_map]
  refine List.countP_congr fun r _ => ?_
  simp only [Bool.and_eq_true, decide_eq_true_eq, Function.comp_apply, beq_iff_eq,
    and_iff_left_iff_imp]
  intro heq
  show r.knownAt.instant ≤ asOf.instant
  rw [heq]
  exact h

theorem latest_spec {latest : StockReference}
    (h : (ranked referenceRank
      (a.references.filter fun r => Eligible marketDate asOf stockId r)).getLast? = some latest) :
    Eligible marketDate asOf stockId latest ∧ ∀ r ∈ a.references,
    Eligible marketDate asOf stockId r →
      r.knownAt.instant ≤ latest.knownAt.instant := by
  rw [getLast?_ranked] at h
  obtain ⟨hmem, hgreatest⟩ := isGreatestBy_of_latestOf h
  refine ⟨of_decide_eq_true (List.mem_filter.mp (List.mem_reverse.mp hmem)).2,
    fun r hr heligible => ?_⟩
  have hle := hgreatest r (List.mem_reverse.mpr
    (List.mem_filter.mpr ⟨hr, decide_eq_true heligible⟩))
  rcases Prod.Lex.toLex_le_toLex.mp hle with hlt | ⟨heq, -⟩
  · exact le_of_lt hlt
  · exact le_of_eq heq

/-- A reference is selected for every stock at every time if no two of a stock became known at
one time. -/
theorem Distinct.selectable (h : a.Distinct) : a.Selectable := by
  intro stockIds marketDate asOf
  have hselect : ∀ stockId ∈ sortedTexts stockIds,
      ∃ r, a.selectReference marketDate asOf stockId = .ok r := by
    intro stockId _
    rw [selectReference_eq, latestReference]
    cases hlatest : (ranked referenceRank
        (a.references.filter fun r => Eligible marketDate asOf stockId r)).getLast? with
    | none => exact ⟨none, rfl⟩
    | some latest =>
      have hknown : latest.knownAt.instant ≤ asOf.instant := (latest_spec hlatest).1.2.2
      have hcount := List.nodup_iff_count_le_one.mp (h stockId marketDate) latest.knownAt.instant
      rw [← countP_eligible hknown] at hcount
      exact ⟨some latest, if_neg (not_lt.mpr hcount)⟩
  obtain ⟨selected, hselected⟩ := exists_mapM_eq_ok hselect
  refine ⟨selected.filterMap id, ?_⟩
  rw [selectReferences, hselected]
  rfl

theorem Selectable.distinct (h : a.Selectable) : a.Distinct := by
  intro stockId marketDate
  rw [List.nodup_iff_count_le_one]
  intro instant
  by_contra hmany
  have hpos : 0 < ((a.referencesOf stockId marketDate).map (·.knownAt.instant)).count instant := by
    omega
  obtain ⟨r, hr, rfl⟩ := List.mem_map.mp (List.count_pos_iff.mp hpos)
  obtain ⟨hmem, hdecide⟩ := List.mem_filter.mp hr
  have heligible : Eligible marketDate r.knownAt stockId r :=
    ⟨(of_decide_eq_true hdecide).1, (of_decide_eq_true hdecide).2, le_rfl⟩
  obtain ⟨selected, hselected⟩ := h [stockId] marketDate r.knownAt
  obtain ⟨found, hfound, -⟩ := bind_eq_ok.mp hselected
  obtain ⟨reference, -, hreference⟩ := (mem_of_mapM_eq_ok hfound).2 stockId
    (mem_sortedTexts.mpr (List.mem_singleton_self _))
  rw [selectReference_eq, latestReference] at hreference
  cases hlatest : (ranked referenceRank
      (a.references.filter fun q => Eligible marketDate r.knownAt stockId q)).getLast? with
  | none =>
    rw [getLast?_ranked, latestOf_eq_none, List.reverse_eq_nil_iff] at hlatest
    have hin : r ∈ a.references.filter fun q => Eligible marketDate r.knownAt stockId q :=
      List.mem_filter.mpr ⟨hmem, decide_eq_true heligible⟩
    rw [hlatest] at hin
    cases hin
  | some latest =>
    obtain ⟨hown, hgreatest⟩ := latest_spec hlatest
    have hsame : latest.knownAt.instant = r.knownAt.instant :=
      le_antisymm hown.2.2 (hgreatest r hmem heligible)
    rw [hlatest] at hreference
    dsimp only at hreference
    rw [hsame, countP_eligible le_rfl, if_pos (by omega)] at hreference
    cases hreference

theorem Distinct.addReference (h : a.Distinct) {reference : StockReference}
    (hfresh : ∀ r ∈ a.references, r.stockId = reference.stockId →
      r.effectiveFor = reference.effectiveFor → r.knownAt.instant ≠ reference.knownAt.instant) :
    (a.addReference reference).Distinct := by
  intro stockId marketDate
  rw [referencesOf, DirtyThemeAggregator.addReference, List.filter_append, List.map_append]
  refine List.nodup_append.mpr ⟨h stockId marketDate, ?_, ?_⟩
  · by_cases hown : reference.stockId = stockId ∧ reference.effectiveFor = marketDate
    · simp [hown]
    · simp [hown]
  · intro x hx y hy heq
    obtain ⟨r, hr, rfl⟩ := List.mem_map.mp hx
    obtain ⟨r', hr', rfl⟩ := List.mem_map.mp hy
    obtain ⟨hmem, hdecide⟩ := List.mem_filter.mp hr
    obtain ⟨hmem', hdecide'⟩ := List.mem_filter.mp hr'
    obtain rfl := List.mem_singleton.mp hmem'
    have hown := of_decide_eq_true hdecide
    have hown' := of_decide_eq_true hdecide'
    exact hfresh r hmem (hown.1.trans hown'.1.symm) (hown.2.trans hown'.2.symm) heq

end DirtyThemeAggregator

end Dayjaview.Realtime

namespace Dayjaview.Pipeline

open Dayjaview.Domain Dayjaview.Calculations Dayjaview.Realtime DirtyThemeAggregator

namespace MarketDataPipeline

/-- The base price of an update of the day, if it enters the references, does so at a time at which
no reference of its stock became known. -/
def FreshBasePrice (s : MarketDataPipeline) (update : StockRealtimeUpdate) : Prop :=
  update.marketDate = s.marketDate → s.Supplements update → ∀ r ∈ s.references,
    r.stockId = update.stockId → r.effectiveFor = s.marketDate →
      r.knownAt.instant ≠ update.receivedAt.instant

section Runs

variable [Sha256]

/-- The references are not poisoned by the calls of a run. -/
structure Unpoisoned (before : MarketDataPipeline) (calls : List PipelineCall) : Prop where
  drains : ∀ mark ∈ (before.run calls).aggregator.pending, ∀ membership,
    (before.run calls).aggregator.catalog.select mark.themeId mark.marketDate mark.asOf =
        .ok (some membership) →
      ∃ selected, (before.run calls).aggregator.selectReferences
        (membership.members.map ThemeMember.stockId) mark.marketDate mark.asOf = .ok selected
  selectable : (before.run calls).aggregator.Selectable
  kept : ∀ stockId marketDate asOf,
    (∀ update, .applyUpdate update ∈ calls → update.stockId = stockId → asOf < update.receivedAt) →
    (before.run calls).aggregator.selectReference marketDate asOf stockId =
      before.aggregator.selectReference marketDate asOf stockId

/-- A call keeps the references that the marked themes are calculated from, or it takes an update
whose base price enters them. -/
theorem references_call (s : MarketDataPipeline) (c : PipelineCall) :
    (s.call c).2.aggregator.references = s.aggregator.references ∨
      ∃ update r, c = .applyUpdate update ∧ update.marketDate = s.marketDate ∧
        s.Supplements update ∧ r.stockId = update.stockId ∧
        r.knownAt = update.receivedAt ∧ r.effectiveFor = s.marketDate ∧
        (s.call c).2.aggregator.references = s.aggregator.references ++ [r] := by
  cases c with
  | applyUpdate update =>
    have hsupplemented : ∀ filled, s.supplementBasePrice update = (.ok (), filled) →
        (s.applyUpdate update).2.aggregator.references = filled.aggregator.references →
        (s.applyUpdate update).2.aggregator.references = s.aggregator.references ∨
          ∃ r, s.Supplements update ∧ r.stockId = update.stockId ∧
            r.knownAt = update.receivedAt ∧ r.effectiveFor = s.marketDate ∧
            (s.applyUpdate update).2.aggregator.references = s.aggregator.references ++ [r] := by
      intro filled hfilled heq
      rw [heq]
      rcases s.supplementBasePrice_cases update with
        ⟨e, hsame⟩ | ⟨_, hsame⟩ | ⟨hsupplements, r, _, hstock, hknown, hdate, hsame⟩
      · cases h : hfilled.symm.trans hsame
      · obtain rfl := congrArg Prod.snd (hfilled.symm.trans hsame)
        exact .inl rfl
      · obtain rfl := congrArg Prod.snd (hfilled.symm.trans hsame)
        exact .inr ⟨r, hsupplements, hstock, hknown, hdate, rfl⟩
    rcases s.applyUpdate_cases update with hsame | ⟨hday, filled, hfilled, hafter⟩
    · exact .inl (congrArg (·.aggregator.references) hsame)
    have hreferences : (s.applyUpdate update).2.aggregator.references =
        filled.aggregator.references := by
      rcases hafter with ⟨-, hsame, -⟩ | ⟨-, hsame, -⟩
      · rw [hsame]
      · rw [hsame]
        exact (filled.aggregator.markStock_keeps update.stockId update.marketDate
          update.receivedAt).2.1
    rcases hsupplemented filled hfilled hreferences with
      heq | ⟨r, hsupplements, hstock, hknown, hdate, heq⟩
    · exact .inl heq
    · exact .inr ⟨update, r, rfl, hday, hsupplements, hstock, hknown, hdate, heq⟩
  | publish around now =>
    obtain ⟨treated, hsame, -, -⟩ := s.publish_data around now
    obtain ⟨last, hlast⟩ := s.recalculate.2.noteAll_eq treated
    rw [hlast] at hsame
    have hdrained : s.recalculate.2.aggregator.references = s.aggregator.references := by
      unfold recalculate
      dsimp only
      split
      · exact (s.aggregator.drain_keeps s.hot).1
      · exact (s.aggregator.drain_keeps s.hot).1
    exact .inl ((congrArg DirtyThemeAggregator.references hsame.aggregator).trans hdrained)
  | closeMarket around now =>
    exact .inl (congrArg DirtyThemeAggregator.references (s.closeMarket_data around now).aggregator)

theorem distinct_call {s : MarketDataPipeline} (h : s.aggregator.Distinct) (hfiled : s.Filed)
    (c : PipelineCall) (hfresh : ∀ update, c = .applyUpdate update → s.FreshBasePrice update) :
    (s.call c).2.aggregator.Distinct := by
  rcases s.references_call c with
    heq | ⟨update, r, rfl, hday, hsupplements, hstock, hknown, hdate, heq⟩
  · intro stockId marketDate
    rw [referencesOf, heq]
    exact h stockId marketDate
  · have hadded : (s.aggregator.addReference r).Distinct := by
      refine h.addReference fun q hq hsame hdate' => ?_
      rw [hfiled.references] at hq
      rw [hknown]
      exact hfresh update rfl hday hsupplements q hq (hsame.trans hstock) (hdate'.trans hdate)
    intro stockId marketDate
    rw [referencesOf, heq]
    exact hadded stockId marketDate

/-- What is selected for a stock at a time stays the same over a call unless it is an update of the
stock that was received by then. -/
theorem selectReference_call (s : MarketDataPipeline) (c : PipelineCall) {stockId : String}
    {marketDate : Date} {asOf : Datetime}
    (hearlier : ∀ update, c = .applyUpdate update → update.stockId = stockId →
      asOf < update.receivedAt) :
    (s.call c).2.aggregator.selectReference marketDate asOf stockId =
      s.aggregator.selectReference marketDate asOf stockId := by
  rcases s.references_call c with heq | ⟨update, r, rfl, -, -, hstock, hknown, -, heq⟩
  · rw [selectReference_eq, selectReference_eq, heq]
  · have hadded : (s.aggregator.addReference r).selectReference marketDate asOf stockId =
        s.aggregator.selectReference marketDate asOf stockId :=
      s.aggregator.selectReference_addReference fun hsame =>
        .inl (hknown ▸ hearlier update rfl (hstock.symm.trans hsame))
    rw [← hadded, selectReference_eq, selectReference_eq, heq]
    rfl

theorem distinct_run {s : MarketDataPipeline} (h : s.aggregator.Distinct) (hfiled : s.Filed)
    (calls : List PipelineCall)
    (hfresh : ∀ earlier update later, calls = earlier ++ .applyUpdate update :: later →
      (s.run earlier).FreshBasePrice update) :
    (s.run calls).aggregator.Distinct ∧ (s.run calls).Filed := by
  induction calls using List.reverseRecOn with
  | nil => exact ⟨h, hfiled⟩
  | append_singleton calls c ih =>
    obtain ⟨hdistinct, hkept⟩ := ih fun earlier update later heq =>
      hfresh earlier update (later ++ [c]) (by simp [heq])
    have hstep : s.run (calls ++ [c]) = ((s.run calls).call c).2 := by
      simp only [run, List.foldl_append, List.foldl_cons, List.foldl_nil]
    rw [hstep]
    refine ⟨distinct_call hdistinct hkept c ?_, hkept.call c⟩
    rintro update rfl
    exact hfresh calls update [] rfl

theorem selectReference_run (s : MarketDataPipeline) (calls : List PipelineCall) {stockId : String}
    {marketDate : Date} {asOf : Datetime}
    (hearlier : ∀ update, .applyUpdate update ∈ calls → update.stockId = stockId →
      asOf < update.receivedAt) :
    (s.run calls).aggregator.selectReference marketDate asOf stockId =
      s.aggregator.selectReference marketDate asOf stockId := by
  induction calls using List.reverseRecOn with
  | nil => rfl
  | append_singleton calls c ih =>
    have hstep : s.run (calls ++ [c]) = ((s.run calls).call c).2 := by
      simp only [run, List.foldl_append, List.foldl_cons, List.foldl_nil]
    rw [hstep, selectReference_call]
    · exact ih fun update hmem => hearlier update (List.mem_append_left _ hmem)
    · rintro update rfl
      exact hearlier update (by simp)

/-- In a run whose base prices enter the references at other times than those at which the
references of their stocks became known, no references are poisoned. -/
theorem references_unpoisoned (settings : PipelineSettings) (catalog : VersionedThemeCatalog)
    (references : List StockReference) (calls : List PipelineCall)
    (hselectable : (start settings catalog references).aggregator.Selectable)
    (hfresh : ∀ earlier update later, calls = earlier ++ .applyUpdate update :: later →
      ((start settings catalog references).run earlier).FreshBasePrice update) :
    Unpoisoned (start settings catalog references) calls := by
  have hafter := (distinct_run hselectable.distinct (filed_start settings catalog references) calls
    hfresh).1.selectable
  constructor
  · exact fun mark _ membership _ => hafter _ _ _
  · exact hafter
  · exact fun stockId marketDate asOf => selectReference_run _ calls

end Runs

open HotStateStore (tick)
open Dayjaview.Events (fivePastNine)

/-- The reference of the stock of the tick, without a close of the day before. -/
def closelessReference (knownAt : Datetime) : StockReference :=
  ⟨{ stockId := "KRX:005930", effectiveFor := fivePastNine.date, knownAt
     previousAdjustedClose := none, listedShares := none, freeFloatRatio := none
     freeFloatValidated := false, version := "r1" }, rfl⟩

theorem selectable_singleton (settings : PipelineSettings) (catalog : VersionedThemeCatalog)
    (r : StockReference) : (start settings catalog [r]).aggregator.Selectable := by
  apply Distinct.selectable
  intro stockId marketDate
  have hlength : (((start settings catalog [r]).aggregator.referencesOf stockId marketDate).map
      (·.knownAt.instant)).length ≤ 1 := by
    rw [List.length_map]
    exact List.length_filter_le _ [r]
  exact List.nodup_iff_count_le_one.mpr fun instant => (List.count_le_length ..).trans hlength

/-- A reference that became known a minute before the tick. -/
theorem references_unpoisoned_earlierReference :
    letI : Sha256 := .ofTable []
    Unpoisoned (start tradingDay MarketRun.pairCatalog [closelessReference MarketRun.fourPastNine])
      [.applyUpdate tick] := by
  refine @references_unpoisoned (.ofTable []) tradingDay MarketRun.pairCatalog
    [closelessReference MarketRun.fourPastNine] [.applyUpdate tick] (selectable_singleton _ _ _) ?_
  intro earlier update later hcalls _ _ r hr _ _
  cases earlier with
  | nil =>
    obtain ⟨rfl, rfl⟩ : tick = update ∧ [] = later := by simpa using hcalls
    obtain rfl := List.mem_singleton.mp hr
    decide
  | cons c earlier => simp at hcalls

/-- A reference that became known when the tick was received: the theme of the stock is not
calculated any more. -/
theorem references_poisoned_sameTime :
    letI : Sha256 := .ofTable []
    let s := start tradingDay MarketRun.pairCatalog [closelessReference fivePastNine]
    s.aggregator.Selectable ∧
      ((s.run [.applyUpdate tick]).publish .calm fivePastNine).1 =
        .error ⟨.valueError, "같은 시점에 둘 이상의 reference version이 유효합니다: KRX:005930"⟩ ∧
      ¬ Unpoisoned s [.applyUpdate tick] := by
  have hraised : (@publish (.ofTable []) (@run (.ofTable [])
      (start tradingDay MarketRun.pairCatalog [closelessReference fivePastNine])
      [.applyUpdate tick]) .calm fivePastNine).1 =
        .error ⟨.valueError, "같은 시점에 둘 이상의 reference version이 유효합니다: KRX:005930"⟩ := by
    decide +kernel
  have hpoisoned : ((@run (.ofTable [])
      (start tradingDay MarketRun.pairCatalog [closelessReference fivePastNine])
      [.applyUpdate tick]).aggregator.selectReferences ["KRX:005930"] fivePastNine.date
      fivePastNine).isOk = false := by
    decide +kernel
  refine ⟨selectable_singleton _ _ _, hraised, fun h => ?_⟩
  obtain ⟨selected, hselected⟩ := @Unpoisoned.selectable (.ofTable []) _ _ h
    ["KRX:005930"] fivePastNine.date fivePastNine
  rw [hselected] at hpoisoned
  cases hpoisoned

end MarketDataPipeline

end Dayjaview.Pipeline
