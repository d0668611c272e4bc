import Dayjaview.Calculations.MetricStages
import Dayjaview.Core.DecimalRounding

/-!
# The coverage of a theme

The observed share of the core's capitalisation lies between zero and one, whatever the
rounding of the two sums does: the numerator leaves out terms of the denominator and
rounding is monotone. So the coverage is always accepted.
-/

namespace Dayjaview.Calculations

open Dayjaview.Domain
open Decimal (OnlyOverflows)

section Policy

variable (policy : ThemeCalculationPolicy)

theorem ThemeCalculationPolicy.one_le : 1 ≤ policy.minimumCoreObservations ∧
    policy.minimumCoreObservations ≤ policy.minimumTotalObservations := by
  have hvalid := policy.valid
  rw [ThemeCalculationPolicy.Fields.postInit] at hvalid
  simp only [check_bind_eq_ok, ensure_eq_ok] at hvalid
  exact ⟨hvalid.2.2.2.2.1, hvalid.2.2.2.2.2⟩

end Policy

section Raised

variable {marketDate : Date} {asOf : Datetime}

theorem coefficient_ne_zero {d : Decimal} (h : ¬ d ≤ Decimal.zero) : d.coefficient ≠ 0 :=
  fun hzero => (Decimal.value_pos h).ne' (Decimal.value_eq_zero.mpr hzero)

theorem close_of_stockPrices {reference : Option StockReference}
    {observation : Option StockMarketObservation.Fields} {close price : Decimal}
    (h : stockPrices marketDate asOf reference observation = .inr (close, price)) :
    ¬ close ≤ Decimal.zero := by
  unfold stockPrices at h
  split at h
  · cases h
  split at h
  · cases h
  split at h
  · cases h
  split at h
  · cases h
  next hclose =>
  split at h
  · cases h
  repeat' split at h
  all_goals cases h
  simpa using (Option.filter_eq_some_iff.mp hclose).2

theorem onlyOverflows_memberStep (references : Dict String StockReference)
    (observations : Dict String StockMarketObservation.Fields)
    (acc : Dict String Decimal × Findings) (member : ThemeMember) :
    OnlyOverflows (memberStep marketDate asOf references observations acc member) := by
  unfold memberStep
  split
  · exact .ok _
  · next close price hprices =>
    refine .map _ (OnlyOverflows.bind ?_ fun quotient _ => Decimal.onlyOverflows_sub 60 _ _)
    exact Decimal.onlyOverflows_div 60 _ (coefficient_ne_zero (close_of_stockPrices hprices))

theorem onlyOverflows_memberReturns (members : List ThemeMember)
    (references : Dict String StockReference)
    (observations : Dict String StockMarketObservation.Fields) :
    OnlyOverflows (memberReturns members marketDate asOf references observations) := by
  rw [memberReturns_eq]
  exact .foldlM (onlyOverflows_memberStep references observations) members _

theorem onlyOverflows_memberCapitalization (references : Dict String StockReference)
    (member : ThemeMember) :
    OnlyOverflows (memberCapitalization marketDate asOf references member) := by
  unfold memberCapitalization
  split
  · exact .ok _
  · refine OnlyOverflows.bind ?_ fun value _ => .ok _
    unfold StockReference.freeFloatMarketCap
    split
    · split
      · exact .ok _
      · refine OnlyOverflows.bind (Decimal.onlyOverflows_mul _ _ _) fun value _ => ?_
        exact OnlyOverflows.bind (Decimal.onlyOverflows_mul _ _ _) fun value _ => .ok _
    · exact .ok _

theorem close_of_adjustedReturnReference {r : StockReference} {close : Decimal}
    (h : r.adjustedReturnReference marketDate asOf = some close) : ¬ close ≤ Decimal.zero := by
  unfold StockReference.adjustedReturnReference at h
  split at h
  · cases h
  · simpa using (Option.filter_eq_some_iff.mp h).2

theorem capitalization_nonneg {references : Dict String StockReference} {member : ThemeMember}
    {stockId : String} {capitalization : Decimal}
    (h : memberCapitalization marketDate asOf references member =
      .ok (stockId, some capitalization)) :
    0 ≤ capitalization.value := by
  unfold memberCapitalization at h
  split at h
  · cases h
  next r hr =>
  obtain ⟨found, hfound, h⟩ := bind_eq_ok.mp h
  cases h
  unfold StockReference.freeFloatMarketCap at hfound
  split at hfound
  · next close shares ratio hclose _ _ =>
    split at hfound
    · cases hfound
    next hpositive =>
    push Not at hpositive
    obtain ⟨value, hvalue, hfound⟩ := bind_eq_ok.mp hfound
    obtain ⟨product, hproduct, hfound⟩ := bind_eq_ok.mp hfound
    cases hfound
    have hclosed :
        0 ≤ close.value := (Decimal.value_pos (close_of_adjustedReturnReference hclose)).le
    have hshares : 0 ≤ (Decimal.ofInt shares).value := by
      have hnonneg : ¬ shares < 0 := by omega
      simp [Decimal.value, Decimal.signed, Decimal.ofInt, hnonneg]
    have hratio : 0 ≤ ratio.value := (Decimal.value_pos hpositive.2.1).le
    have hfloat : 0 ≤ value.value := by
      rw [Decimal.value_mul (by decide) hvalue, ← Decimal.roundedTo_zero Decimal.defaultPrec]
      exact Decimal.roundedTo_mono (by decide) (mul_nonneg hclosed hshares)
    rw [Decimal.value_mul (by decide) hproduct, ← Decimal.roundedTo_zero Decimal.defaultPrec]
    exact Decimal.roundedTo_mono (by decide) (mul_nonneg hfloat hratio)
  · cases hfound

end Raised

section Share

variable {known : List (String × Decimal)} {observed : List String} {ratio : Decimal}

theorem onlyOverflows_observedWeight : OnlyOverflows (observedWeight known observed) := by
  unfold observedWeight
  refine OnlyOverflows.bind (Decimal.onlyOverflows_sum _ _) fun total _ => ?_
  split
  · next hpositive =>
    refine OnlyOverflows.bind (Decimal.onlyOverflows_sum _ _) fun part _ => ?_
    refine OnlyOverflows.bind (Decimal.onlyOverflows_div _ _ fun hzero => ?_) fun ratio _ => .ok _
    rw [Decimal.lt_iff_value, Decimal.value_eq_zero.mpr hzero, Decimal.value_zero] at hpositive
    exact lt_irrefl _ hpositive
  · exact .ok _

theorem observedWeight_eq_ok (h : observedWeight known observed = .ok (some ratio)) :
    ∃ total part, Decimal.sum 60 (known.map Prod.snd) = .ok total ∧ 0 < total.value ∧
      Decimal.sum 60 ((known.filter fun e => e.1 ∈ observed).map Prod.snd) = .ok part ∧
      Decimal.div 60 part total = .ok ratio := by
  unfold observedWeight at h
  obtain ⟨total, htotal, h⟩ := bind_eq_ok.mp h
  split at h
  · next hpositive =>
    obtain ⟨part, hpart, h⟩ := bind_eq_ok.mp h
    obtain ⟨quotient, hquotient, h⟩ := bind_eq_ok.mp h
    cases h
    rw [Decimal.lt_iff_value, Decimal.value_zero] at hpositive
    exact ⟨total, part, htotal, hpositive, hpart, hquotient⟩
  · cases h

theorem observedWeight_between (hknown : ∀ e ∈ known, 0 ≤ e.2.value)
    (h : observedWeight known observed = .ok (some ratio)) : 0 ≤ ratio.value ∧ ratio.value ≤ 1 := by
  obtain ⟨total, part, htotal, -, hpart, hratio⟩ := observedWeight_eq_ok h
  have hsub : ((known.filter fun e => e.1 ∈ observed).map Prod.snd).Sublist (known.map Prod.snd) :=
    List.filter_sublist.map Prod.snd
  have hall : ∀ d ∈ known.map Prod.snd, 0 ≤ d.value := by
    intro d hd
    obtain ⟨e, he, rfl⟩ := List.mem_map.mp hd
    exact hknown e he
  obtain ⟨hnonneg, hle⟩ := Decimal.sum_le_of_sublist (by decide) hsub hall hpart htotal
  exact Decimal.div_between (by decide) hratio hnonneg hle

theorem observedWeight_of_all (hall : ∀ e ∈ known, e.1 ∈ observed)
    (h : observedWeight known observed = .ok (some ratio)) : ratio.value = 1 := by
  obtain ⟨total, part, htotal, hpositive, hpart, hratio⟩ := observedWeight_eq_ok h
  rw [List.filter_eq_self.mpr (by simpa using hall), htotal] at hpart
  cases hpart
  exact Decimal.value_div_self (by decide) hratio hpositive

end Share

section Counts

variable {observed total : ℕ} {ratio : Option Decimal}

theorem exists_ratio (h : observed ≤ total) : ∃ r, CoveragePart.ratio observed total = .ok r := by
  unfold CoveragePart.ratio
  split
  · exact ⟨_, rfl⟩
  · next hzero =>
    obtain ⟨r, hr⟩ := @Decimal.div_ok 50 (.ofNat observed) (.ofNat total) rfl rfl
      (Nat.pos_of_ne_zero hzero) h
    exact ⟨some r, by rw [hr]; rfl⟩

theorem exists_fromCounts (h : observed ≤ total)
    (hratio : ∀ w ∈ ratio, 0 ≤ w.value ∧ w.value ≤ 1) :
    ∃ part, CoveragePart.fromCounts observed total ratio = .ok part := by
  obtain ⟨r, hr⟩ := exists_ratio h
  have hpost : CoveragePart.Fields.postInit ⟨observed, total, r, ratio⟩ = .ok () := by
    rw [CoveragePart.Fields.postInit, check_bind_eq_ok, ensure_eq_ok]
    refine ⟨h, bind_eq_ok.mpr ⟨r, hr, ?_⟩⟩
    rw [check_bind_eq_ok, ensure_eq_ok, ensure_eq_ok]
    refine ⟨sameValue_self r, fun w hw => ?_⟩
    rw [Decimal.le_iff_value, Decimal.le_iff_value, Decimal.value_zero, Decimal.value_ofNat]
    simpa using hratio w hw
  exact ⟨⟨_, hpost⟩, bind_eq_ok.mpr ⟨r, hr, checked_of_ok hpost⟩⟩

theorem fromCounts_eq_ok {part : CoveragePart}
    (h : CoveragePart.fromCounts observed total ratio = .ok part) : part.observedCount = observed ∧
      part.totalCount = total ∧ part.observedWeightRatio = ratio ∧ observed ≤ total := by
  obtain ⟨r, hr, h⟩ := bind_eq_ok.mp h
  obtain ⟨hpost, rfl⟩ := checked_eq_ok.mp h
  rw [CoveragePart.Fields.postInit, check_bind_eq_ok, ensure_eq_ok] at hpost
  exact ⟨rfl, rfl, rfl, hpost.1⟩

end Counts

/-- What a theme is observed by: its core by capitalisation and all its members by return. -/
structure ObservedCore (membership : ThemeMembershipSnapshot) (returnsByStock : Dict String Decimal)
    (known : List (String × Decimal)) : Prop where
  members : ∀ k ∈ returnsByStock.keys, k ∈ (orderedMembers membership).map ThemeMember.stockId
  core : (known.map Prod.fst).Sublist ((coreMembers membership).map ThemeMember.stockId)
  nonneg : ∀ e ∈ known, 0 ≤ e.2.value

section Coverage

variable {membership : ThemeMembershipSnapshot} {returnsByStock : Dict String Decimal}
  {known : List (String × Decimal)} {missing : List String} {policy : ThemeCalculationPolicy}

theorem members_nodup (membership : ThemeMembershipSnapshot) :
    ((orderedMembers membership).map ThemeMember.stockId).Nodup := by
  have hvalid := membership.valid
  rw [ThemeMembershipSnapshot.Fields.postInit] at hvalid
  simp only [check_bind_eq_ok, ensure_eq_ok] at hvalid
  exact ((List.perm_insertionSort _ _).map ThemeMember.stockId).nodup_iff.mpr hvalid.2.2

namespace ObservedCore

/-- The core members that are observed. -/
def ids (returnsByStock : Dict String Decimal) (known : List (String × Decimal)) : List String :=
  (known.filter fun e => (returnsByStock.get? e.1).isSome).map Prod.fst

theorem known_nodup (h : ObservedCore membership returnsByStock known) :
    (known.map Prod.fst).Nodup := by
  refine h.core.nodup ?_
  exact (List.filter_sublist.map ThemeMember.stockId).nodup (members_nodup membership)

theorem ids_sublist (returnsByStock : Dict String Decimal) (known : List (String × Decimal)) :
    (ids returnsByStock known).Sublist (known.map Prod.fst) :=
  List.filter_sublist.map Prod.fst

theorem length_ids_le_core (h : ObservedCore membership returnsByStock known) :
    (ids returnsByStock known).length ≤ (coreMembers membership).length := by
  have hlength := ((ids_sublist returnsByStock known).trans h.core).length_le
  rwa [List.length_map] at hlength

theorem length_ids_le_returns (h : ObservedCore membership returnsByStock known) :
    (ids returnsByStock known).length ≤ returnsByStock.entries.length := by
  have hsub : ids returnsByStock known ⊆ returnsByStock.keys := by
    intro k hk
    obtain ⟨e, he, rfl⟩ := List.mem_map.mp hk
    exact (Dict.mem_keys_iff returnsByStock).mpr (List.mem_filter.mp he).2
  have hlength := (List.subperm_of_subset ((ids_sublist _ _).nodup h.known_nodup) hsub).length_le
  rwa [Dict.keys, List.length_map] at hlength

theorem length_returns_le (h : ObservedCore membership returnsByStock known) :
    returnsByStock.entries.length ≤ (orderedMembers membership).length := by
  have hlength := (List.subperm_of_subset returnsByStock.keys_nodup h.members).length_le
  rwa [Dict.keys, List.length_map, List.length_map] at hlength

theorem ratio_between (h : ObservedCore membership returnsByStock known)
    {observed : List String} {ratio : Option Decimal}
    (hratio : observedWeightRatioOf membership known observed missing = .ok ratio) :
    ∀ w ∈ ratio, 0 ≤ w.value ∧ w.value ≤ 1 := by
  intro w hw
  obtain rfl := Option.mem_def.mp hw
  unfold observedWeightRatioOf at hratio
  split at hratio
  · exact observedWeight_between h.nonneg hratio
  · cases hratio

theorem onlyOverflows_coverageOf (h : ObservedCore membership returnsByStock known) :
    OnlyOverflows (coverageOf membership returnsByStock known missing policy) := by
  unfold coverageOf
  refine OnlyOverflows.bind ?_ fun ratio hratio => ?_
  · unfold observedWeightRatioOf
    split
    · exact onlyOverflows_observedWeight
    · exact .ok _
  · obtain ⟨core, hcore⟩ := exists_fromCounts h.length_ids_le_core (h.ratio_between hratio)
    have hnone : ∀ w ∈ (none : Option Decimal), 0 ≤ w.value ∧ w.value ≤ 1 := fun w hw => by cases hw
    obtain ⟨related, hrelated⟩ := exists_fromCounts h.length_returns_le hnone
    rw [ids] at hcore
    rw [hcore, hrelated]
    exact .ok _

theorem coverageOf_eq_ok {coverage : Coverage}
    (h : coverageOf membership returnsByStock known missing policy = .ok coverage) :
    observedWeightRatioOf membership known (ids returnsByStock known) missing =
        .ok coverage.core.observedWeightRatio ∧
      coverage.core.observedCount = (ids returnsByStock known).length ∧
      coverage.core.totalCount = (coreMembers membership).length ∧
      coverage.related.observedCount = returnsByStock.entries.length ∧
      coverage.related.totalCount = (orderedMembers membership).length ∧
      coverage.status = determineCoverageStatus coverage.core coverage.related
        returnsByStock.entries.length policy := by
  unfold coverageOf at h
  obtain ⟨ratio, hratio, h⟩ := bind_eq_ok.mp h
  obtain ⟨core, hcore, h⟩ := bind_eq_ok.mp h
  obtain ⟨related, hrelated, h⟩ := bind_eq_ok.mp h
  cases h
  obtain ⟨hobserved, htotal, hweight, -⟩ := fromCounts_eq_ok hcore
  obtain ⟨hobserved', htotal', -, -⟩ := fromCounts_eq_ok hrelated
  refine ⟨?_, hobserved, htotal, hobserved', htotal', rfl⟩
  rw [hweight]
  exact hratio

end ObservedCore

end Coverage

section Observation

variable {marketDate : Date} {asOf : Datetime} {membership : ThemeMembershipSnapshot}
  {references : List StockReference} {observations : List StockMarketObservation.Fields}
  {policy : ThemeCalculationPolicy} {referenceByStock : Dict String StockReference}
  {observationByStock : Dict String StockMarketObservation.Fields} {findings : Findings}
  {capitalizations : List (String × Option Decimal)} {o : ObservedTheme} {m : ThemeMetrics}
  {returnsByStock : Dict String Decimal}

theorem observedCore_of_steps
    (hreturns : memberReturns (orderedMembers membership) marketDate asOf referenceByStock
      observationByStock = .ok (returnsByStock, findings))
    (hcapitalized : (coreMembers membership).mapM
      (memberCapitalization marketDate asOf referenceByStock) = .ok capitalizations) :
    ObservedCore membership returnsByStock
      (capitalizations.filterMap fun e => e.2.map (Prod.mk e.1)) where
  members k hk := by
    obtain ⟨member, hmember, hown⟩ :=
      member_of_memberReturns hreturns ((Dict.mem_keys_iff returnsByStock).mp hk)
    exact List.mem_map.mpr ⟨member, hmember, hown⟩
  core := by
    have hstocks : capitalizations.map Prod.fst =
        (coreMembers membership).map ThemeMember.stockId := by
      refine map_eq_of_mapM_eq_ok hcapitalized fun member e he => ?_
      unfold memberCapitalization at he
      split at he
      · cases he
        rfl
      · obtain ⟨value, -, he⟩ := bind_eq_ok.mp he
        cases he
        rfl
    rw [← hstocks]
    clear hcapitalized hstocks
    induction capitalizations with
    | nil => exact List.Sublist.slnil
    | cons e es ih =>
      obtain ⟨stockId, value⟩ := e
      cases value with
      | none => exact ih.cons stockId
      | some value => exact ih.cons_cons stockId
  nonneg e he := by
    obtain ⟨found, hfound, hknown⟩ := List.mem_filterMap.mp he
    obtain ⟨stockId, value⟩ := found
    obtain ⟨capitalization, rfl, rfl⟩ := Option.map_eq_some_iff.mp hknown
    obtain ⟨member, -, hmember⟩ := (mem_of_mapM_eq_ok hcapitalized).1 _ hfound
    exact capitalization_nonneg hmember

theorem Observes.core (h : Observes marketDate asOf membership references observations
    policy observationByStock findings capitalizations o) :
    ObservedCore membership o.returnsByStock
      (capitalizations.filterMap fun e => e.2.map (Prod.mk e.1)) :=
  observedCore_of_steps h.returns h.capitalized

theorem onlyOverflows_observeTheme {themeId : String}
    (husable : membership.Usable themeId marketDate asOf)
    (hreferences : (references.map fun r => r.stockId).Nodup)
    (hobservations : (observations.map fun o => o.stockId).Nodup) :
    OnlyOverflows (observeTheme marketDate asOf membership references observations policy) := by
  have hknown : ¬ (marketDate < membership.effectiveFrom ∨ asOf < membership.knownAt) := by
    rintro (hearly | hearly)
    · exact absurd husable.2.1 (not_le.mpr hearly)
    · exact absurd husable.2.2 (not_le_of_gt hearly)
  unfold observeTheme
  refine OnlyOverflows.bind (.of_ok ⟨(), ensure_eq_ok.mpr hknown⟩) fun _ _ => ?_
  refine OnlyOverflows.bind (.of_ok (exists_indexUnique hreferences fun r _ => Dict.get?_empty _))
    fun referenceByStock _ => ?_
  refine OnlyOverflows.bind (.of_ok (exists_indexUnique hobservations fun o _ => Dict.get?_empty _))
    fun observationByStock _ => ?_
  refine OnlyOverflows.bind (onlyOverflows_memberReturns _ _ _) fun returns hreturns => ?_
  refine OnlyOverflows.bind (.mapM (onlyOverflows_memberCapitalization _) _)
    fun capitalizations hcapitalized => ?_
  refine OnlyOverflows.bind ?_ fun coverage _ => .ok _
  exact (observedCore_of_steps hreturns hcapitalized).onlyOverflows_coverageOf

theorem Observes.coverage_bounds (h : Observes marketDate asOf membership references observations
    policy observationByStock findings capitalizations o) :
    o.coverage.core.observedCount ≤ o.coverage.core.totalCount ∧
      o.coverage.related.observedCount ≤ o.coverage.related.totalCount ∧
      o.coverage.core.observedCount ≤ o.coverage.related.observedCount ∧
      ∀ w ∈ o.coverage.core.observedWeightRatio, (0 ≤ w.value ∧ w.value ≤ 1) ∧
        ((∀ member ∈ coreMembers membership, (o.returnsByStock.get? member.stockId).isSome) →
          w.value = 1) := by
  obtain ⟨hratio, hcore, htotal, hrelated, htotal', -⟩ := ObservedCore.coverageOf_eq_ok h.coverage
  rw [hcore, htotal, hrelated, htotal']
  refine ⟨h.core.length_ids_le_core, h.core.length_returns_le, h.core.length_ids_le_returns,
    fun w hw => ⟨h.core.ratio_between hratio w hw, fun hall => ?_⟩⟩
  rw [Option.mem_def.mp hw] at hratio
  unfold observedWeightRatioOf at hratio
  split at hratio
  · refine observedWeight_of_all (fun e he => ?_) hratio
    have hstock : e.1 ∈ (coreMembers membership).map ThemeMember.stockId :=
      h.core.core.subset (List.mem_map_of_mem he)
    obtain ⟨member, hmember, hown⟩ := List.mem_map.mp hstock
    have hreturn := hall member hmember
    rw [hown] at hreturn
    exact List.mem_map.mpr ⟨e, List.mem_filter.mpr ⟨he, hreturn⟩, rfl⟩
  · cases hratio

theorem median_isSome {values : List Decimal} {middle : Option Decimal}
    (h : median values = .ok middle) (hne : values ≠ []) : middle.isSome = true := by
  unfold median at h
  have hlength : (values.insertionSort (· ≤ ·)).length = values.length :=
    List.length_insertionSort _ _
  have hpos : 0 < values.length := List.length_pos_iff.mpr hne
  generalize values.insertionSort (· ≤ ·) = ordered at h hlength
  dsimp only at h
  split at h
  · cases h
    rw [List.getElem?_eq_getElem (by omega)]
    rfl
  · split at h
    · obtain ⟨_, -, h⟩ := bind_eq_ok.mp h
      obtain ⟨_, -, h⟩ := bind_eq_ok.mp h
      cases h
      rfl
    · next hnone =>
      exact absurd (List.getElem?_eq_getElem (by omega))
        (hnone _ _ (List.getElem?_eq_getElem (by omega)))

theorem rankEligible_of_sufficient
    (hderived : deriveMetrics membership policy o = .ok m)
    (h : Observes marketDate asOf membership references observations policy observationByStock
      findings capitalizations o)
    (hsufficient : o.coverage.status = .sufficient) : m.rankEligible = true := by
  obtain ⟨hratio, hcore, -, hrelated, -, hstatus⟩ := ObservedCore.coverageOf_eq_ok h.coverage
  obtain ⟨hweights, hmedian, hcoverage, hvalid, hadvancing, -⟩ := deriveMetrics_eq_ok hderived
  rw [hsufficient] at hstatus
  unfold determineCoverageStatus at hstatus
  split at hstatus
  · next weightRatio countRatio hweight _ =>
    split at hstatus
    · cases hstatus
    next henough =>
    push Not at henough
    have hpolicy := ThemeCalculationPolicy.one_le policy
    have hcount : o.returnsByStock.entries.length ≠ 0 := by omega
    have hmissing : o.missing.isEmpty = true := by
      rw [hweight] at hratio
      unfold observedWeightRatioOf at hratio
      split at hratio
      · next hknown => exact hknown.2
      · cases hratio
    have hfew : policy.minimumCoreObservations ≤ (o.observedCore.length : Int) := by
      have hids : o.observedCore.length = o.coverage.core.observedCount := by
        rw [hcore, h.observedCore, ObservedCore.ids, List.length_map]
      omega
    have hweighted : m.weightedReturn.isSome = true := by
      rcases weightsOf_eq_ok hweights with ⟨-, hsome, -⟩ | ⟨hnot, -, -⟩
      · exact hsome
      · exact absurd ⟨hmissing, hfew⟩ hnot
    have hmiddle : m.medianReturn.isSome = true := by
      refine median_isSome hmedian fun hnil => hcount ?_
      rw [← List.length_map (f := Prod.snd)]
      exact congrArg List.length hnil
    unfold ThemeMetrics.rankEligible
    rw [hcoverage, hsufficient, hweighted, hmiddle, hvalid, hadvancing]
    have hvalidCount : o.validCount ≠ 0 := hcount
    rw [if_neg hvalidCount, if_neg hvalidCount]
    rfl
  · cases hstatus

/-- The coverage of a theme is computed whenever its membership may be used and no stock has two
references or observations: only numbers that are too large are signalled. The observed share of
the core lies between zero and one and is one when every core member is observed, no more members
are observed than there are, and a theme has sufficient coverage exactly if it may be ranked. -/
theorem coverage_sound {themeId : String}
    (husable : membership.Usable themeId marketDate asOf)
    (hreferences : (references.map fun r => r.stockId).Nodup)
    (hobservations : (observations.map fun o => o.stockId).Nodup) :
    calculateThemeMetrics marketDate asOf membership references observations policy =
        observeTheme marketDate asOf membership references observations policy >>=
          deriveMetrics membership policy ∧
      (∀ e, observeTheme marketDate asOf membership references observations policy = .error e →
        e = Decimal.signal "Overflow") ∧
      ∀ o, observeTheme marketDate asOf membership references observations policy = .ok o →
        (0 ≤ o.coverage.core.observedCount ∧
          o.coverage.core.observedCount ≤ o.coverage.core.totalCount) ∧
        (0 ≤ o.coverage.related.observedCount ∧
          o.coverage.related.observedCount ≤ o.coverage.related.totalCount) ∧
        o.coverage.core.observedCount ≤ o.coverage.related.observedCount ∧
        (∀ w ∈ o.coverage.core.observedWeightRatio, (0 ≤ w.value ∧ w.value ≤ 1) ∧
          ((∀ member ∈ coreMembers membership,
            (o.returnsByStock.get? member.stockId).isSome) → w.value = 1)) ∧
        ∀ m, deriveMetrics membership policy o = .ok m →
          m.coverage = o.coverage ∧ (m.coverage.status = .sufficient ↔ m.rankEligible = true) := by
  refine ⟨calculateThemeMetrics_eq _ _ _ _ _ _,
    onlyOverflows_observeTheme husable hreferences hobservations, fun o ho => ?_⟩
  obtain ⟨observationByStock, findings, capitalizations, hobserves⟩ := observes_of_ok ho
  obtain ⟨hcore, hrelated, hle, hratio⟩ := hobserves.coverage_bounds
  refine ⟨⟨Nat.zero_le _, hcore⟩, ⟨Nat.zero_le _, hrelated⟩, hle, hratio, fun m hderived => ?_⟩
  have hcoverage := (deriveMetrics_eq_ok hderived).2.2.1
  refine ⟨hcoverage, fun hsufficient => ?_, fun heligible => ?_⟩
  · exact rankEligible_of_sufficient hderived hobserves (hcoverage ▸ hsufficient)
  · unfold ThemeMetrics.rankEligible at heligible
    simp only [Bool.and_eq_true, beq_iff_eq] at heligible
    exact heligible.1.1.1.1

end Observation

/-- The time of the calculation. -/
def opening : Datetime := (Date.august 3).seoul 9 30

/-- A theme of two core stocks. -/
def pairMembership : ThemeMembershipSnapshot :=
  ⟨{ themeId := "theme-2", version := "m1", effectiveFrom := opening.date, knownAt := opening
     members := [⟨"KRX:000660", .core, by decide⟩, ⟨"KRX:005930", .core, by decide⟩] }, by decide⟩

/-- The reference of a stock with so many shares. -/
def pairReference (stockId : String) (hstock : stockId ≠ "") (shares : Nat) : StockReference :=
  ⟨{ stockId, effectiveFor := opening.date, knownAt := opening
     previousAdjustedClose := some (.ofNat 69000), listedShares := some shares
     freeFloatRatio := some ⟨false, 3, -1⟩, freeFloatValidated := true, version := "r1" }, by
    simp only [StockReference.Fields.postInit, check_bind_eq_ok, ensure_eq_ok]
    refine ⟨hstock, by decide, rfl, ?_, rfl⟩
    rintro n ⟨⟩
    exact Int.natCast_nonneg shares⟩

/-- The observation of a stock. -/
def pairObservation (stockId : String) : StockMarketObservation.Fields :=
  { stockId, marketDate := opening.date, observedAt := opening
    currentPrice := some (.ofNat 70000), cumulativeTradingValue := none }

/-- The share of a core that is observed in full is one. -/
theorem coverage_sound_pair : ∃ o w,
    observeTheme opening.date opening pairMembership
        [pairReference "KRX:000660" (by decide) 3, pairReference "KRX:005930" (by decide) 7]
        [pairObservation "KRX:000660", pairObservation "KRX:005930"] THEME_CALCULATION_POLICY_V1 =
      .ok o ∧ o.coverage.core.observedWeightRatio = some w ∧ w.value = 1 := by
  have hok : ((observeTheme opening.date opening pairMembership
      [pairReference "KRX:000660" (by decide) 3, pairReference "KRX:005930" (by decide) 7]
      [pairObservation "KRX:000660", pairObservation "KRX:005930"] THEME_CALCULATION_POLICY_V1).map
        fun o => (o.coverage.core.observedWeightRatio.isSome, (coreMembers pairMembership).all
          fun member => (o.returnsByStock.get? member.stockId).isSome)).toOption =
      some (true, true) := by
    decide +kernel
  cases h : observeTheme opening.date opening pairMembership
      [pairReference "KRX:000660" (by decide) 3, pairReference "KRX:005930" (by decide) 7]
      [pairObservation "KRX:000660", pairObservation "KRX:005930"] THEME_CALCULATION_POLICY_V1 with
  | error e =>
    rw [h] at hok
    cases hok
  | ok o =>
    rw [h] at hok
    obtain ⟨hsome, hall⟩ := Prod.mk.inj (Option.some.inj hok)
    obtain ⟨w, hw⟩ := Option.isSome_iff_exists.mp hsome
    have husable : pairMembership.Usable pairMembership.themeId opening.date opening := by
      decide +kernel
    have hbounds := (coverage_sound husable (by decide) (by decide)).2.2 o h
    exact ⟨o, w, rfl, hw, (hbounds.2.2.2.1 w hw).2 (List.all_eq_true.mp hall)⟩

end Dayjaview.Calculations
