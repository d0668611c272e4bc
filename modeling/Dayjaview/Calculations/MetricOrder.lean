import Dayjaview.Calculations.CoverageBounds
import Dayjaview.Core.Ranking

/-!
# The order of the inputs of a theme

The metrics of a theme read the members by stock, and references and observations through their
stocks. So none of them depends on the order in which members, references and observations are
given.
-/

namespace Dayjaview.Calculations

open Dayjaview.Domain

theorem ranked_perm_eq {α ρ : Type*} [LinearOrder ρ] {rank : α → ρ} {as bs : List α}
    (h : as.Perm bs) (hranks : (bs.map rank).Nodup) : ranked rank as = ranked rank bs := by
  refine (ranked_perm.trans (h.trans ranked_perm.symm)).eq_of_pairwise ?_ pairwise_ranked
    pairwise_ranked
  intro a b ha hb hab hba
  exact List.inj_on_of_nodup_map hranks (h.subset (mem_ranked.mp ha)) (mem_ranked.mp hb)
    (le_antisymm hab hba)

theorem orderedMembers_perm {membership membership' : ThemeMembershipSnapshot}
    (h : membership'.members.Perm membership.members) :
    orderedMembers membership' = orderedMembers membership := by
  have hnodup := members_nodup membership
  rw [orderedMembers, ((List.perm_insertionSort _ _).map _).nodup_iff] at hnodup
  exact ranked_perm_eq h hnodup

section Index

variable {α : Type} {stockId : α → String} {records records' : List α}

theorem find?_perm (h : records'.Perm records) (hunique : (records.map stockId).Nodup)
    (k : String) :
    (records'.find? fun r => stockId r = k) = records.find? fun r => stockId r = k := by
  have hiff : ∀ {rs : List α}, (rs.map stockId).Nodup → ∀ r,
      (rs.find? fun r => stockId r = k) = some r ↔ r ∈ rs ∧ stockId r = k := by
    intro rs hrs r
    constructor
    · intro hfind
      exact ⟨List.mem_of_find?_eq_some hfind, by simpa using List.find?_some hfind⟩
    · rintro ⟨hr, hk⟩
      cases hfind : rs.find? fun r => decide (stockId r = k) with
      | none => exact absurd (decide_eq_true hk) (List.find?_eq_none.mp hfind r hr)
      | some s =>
        have hs : stockId s = k := by simpa using List.find?_some hfind
        exact congrArg some
          (List.inj_on_of_nodup_map hrs (List.mem_of_find?_eq_some hfind) hr (hs.trans hk.symm))
  have hunique' : (records'.map stockId).Nodup := (h.map stockId).nodup_iff.mpr hunique
  ext r
  rw [hiff hunique', hiff hunique, h.mem_iff]

theorem exists_indexUnique_perm (label : String) (h : records'.Perm records)
    (hunique : (records.map stockId).Nodup) : ∃ index index',
    indexUnique stockId label records .empty = .ok index ∧
      indexUnique stockId label records' .empty = .ok index' ∧ ∀ k, index'.get? k =
      index.get? k := by
  have hunique' : (records'.map stockId).Nodup := (h.map stockId).nodup_iff.mpr hunique
  obtain ⟨index, hindex⟩ : ∃ index, indexUnique stockId label records .empty = .ok index :=
    exists_indexUnique hunique fun r _ => Dict.get?_empty _
  obtain ⟨index', hindex'⟩ : ∃ index', indexUnique stockId label records' .empty = .ok index' :=
    exists_indexUnique hunique' fun r _ => Dict.get?_empty _
  refine ⟨index, index', hindex, hindex', fun k => ?_⟩
  rw [(indexUnique_eq_ok hindex).2.2, (indexUnique_eq_ok hindex').2.2, find?_perm h hunique]

end Index

section Lookups

variable {references references' : Dict String StockReference}
  {observations observations' : Dict String StockMarketObservation.Fields}
  (hreferences : ∀ k, references'.get? k = references.get? k)
  (hobservations : ∀ k, observations'.get? k = observations.get? k)

include hreferences

theorem memberCapitalization_congr (marketDate : Date) (asOf : Datetime) :
    memberCapitalization marketDate asOf references' =
      memberCapitalization marketDate asOf references := by
  funext member
  unfold memberCapitalization
  rw [hreferences]

include hobservations

theorem memberReturns_congr (members : List ThemeMember) (marketDate : Date) (asOf : Datetime) :
    memberReturns members marketDate asOf references' observations' =
      memberReturns members marketDate asOf references observations := by
  unfold memberReturns stockReturn
  simp only [hreferences, hobservations]

end Lookups

theorem deriveMetrics_congr {membership membership' : ThemeMembershipSnapshot}
    {policy : ThemeCalculationPolicy} {o o' : ObservedTheme}
    (hversion : membership'.version = membership.version)
    (hreferences : ∀ k, o'.referenceByStock.get? k = o.referenceByStock.get? k)
    (hrest : o' = { o with referenceByStock := o'.referenceByStock }) :
    deriveMetrics membership' policy o' = deriveMetrics membership policy o := by
  generalize o'.referenceByStock = references at hreferences hrest
  obtain rfl := hrest
  unfold deriveMetrics
  simp only [hversion, hreferences]
  rfl

/-- The metrics of a theme do not depend on the order of its members, references and
observations. -/
theorem calculateThemeMetrics_perm {membership membership' : ThemeMembershipSnapshot}
    {references references' : List StockReference}
    {observations observations' : List StockMarketObservation.Fields}
    (hmembership : membership'.toFields =
      { membership.toFields with members := membership'.members })
    (hmembers : membership'.members.Perm membership.members)
    (hreferences : references'.Perm references) (hobservations : observations'.Perm observations)
    (huniqueReferences : (references.map fun r => r.stockId).Nodup)
    (huniqueObservations : (observations.map fun o => o.stockId).Nodup)
    (marketDate : Date) (asOf : Datetime) (policy : ThemeCalculationPolicy) :
    calculateThemeMetrics marketDate asOf membership' references' observations' policy =
      calculateThemeMetrics marketDate asOf membership references observations policy := by
  have hordered := orderedMembers_perm hmembers
  obtain ⟨refs, refs', hrefs, hrefs', hlookup⟩ := exists_indexUnique_perm "references" hreferences
    huniqueReferences
  obtain ⟨obs, obs', hobs, hobs', hlookup'⟩ := exists_indexUnique_perm "observations"
    hobservations huniqueObservations
  have heffective : membership'.effectiveFrom = membership.effectiveFrom :=
    congrArg (fun f => f.effectiveFrom) hmembership
  have hknown : membership'.knownAt = membership.knownAt :=
    congrArg (fun f => f.knownAt) hmembership
  have hversion : membership'.version = membership.version :=
    congrArg (fun f => f.version) hmembership
  rw [calculateThemeMetrics_eq, calculateThemeMetrics_eq]
  unfold observeTheme
  simp only [heffective, hknown, bind_assoc]
  refine bind_congr fun _ => ?_
  rw [hrefs, hrefs', hobs, hobs']
  have hcore : coreMembers membership' = coreMembers membership := by
    unfold coreMembers
    rw [hordered]
  have hcoverage : coverageOf membership' = coverageOf membership := by
    unfold coverageOf observedWeightRatioOf
    rw [hordered, hcore]
  simp only [hordered, hcore, hcoverage, pure_bind]
  show (memberReturns _ marketDate asOf refs' obs' >>= _) =
      (memberReturns _ marketDate asOf refs obs >>= _)
  rw [memberReturns_congr hlookup hlookup']
  refine bind_congr fun _ => ?_
  rw [memberCapitalization_congr hlookup]
  exact bind_congr fun _ => bind_congr fun _ => deriveMetrics_congr hversion hlookup rfl

/-- The references of two stocks. -/
def pairReferences : List StockReference :=
  [pairReference "KRX:000660" stock000660_ne 3, pairReference "KRX:005930" stock005930_ne 7]

/-- The observations of two stocks. -/
def pairObservations : List StockMarketObservation.Fields :=
  [pairObservation "KRX:000660", pairObservation "KRX:005930"]

/-- The theme of two stocks in the opposite order. -/
def reversedMembership : ThemeMembershipSnapshot :=
  ⟨{ pairMembership.toFields with members := pairMembership.members.reverse }, by decide⟩

/-- The metrics of a theme of two stocks, given in the opposite order. -/
theorem calculateThemeMetrics_perm_pair :
    calculateThemeMetrics opening.date opening reversedMembership pairReferences.reverse
        pairObservations.reverse THEME_CALCULATION_POLICY_V1 =
      calculateThemeMetrics opening.date opening pairMembership pairReferences pairObservations
        THEME_CALCULATION_POLICY_V1 := by
  have hreferences : (pairReferences.map fun r => r.stockId).Nodup := by decide
  have hobservations : (pairObservations.map fun o => o.stockId).Nodup := by decide
  have hmembers : reversedMembership.members.Perm pairMembership.members := List.reverse_perm _
  have hmembership : reversedMembership.toFields =
      { pairMembership.toFields with members := reversedMembership.members } := rfl
  exact calculateThemeMetrics_perm hmembership hmembers pairReferences.reverse_perm
    pairObservations.reverse_perm hreferences hobservations _ _ _

end Dayjaview.Calculations
