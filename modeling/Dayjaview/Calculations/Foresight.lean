import Dayjaview.Calculations.MetricStages

/-!
# What becomes known after a calculation

The metrics of a theme do not depend on what becomes known only after the time of the
calculation, up to one flag: whether a corporate action is resolved is looked at before it is
asked whether the reference is known.
-/

namespace Dayjaview.Calculations

open Dayjaview.Domain

/-- Two records of a stock are the same, or both become known only after a time. -/
def SameUntil {α : Type} (stockId : α → String) (time : α → Datetime) (asOf : Datetime) (a b : α) :
    Prop :=
  a = b ∨ (stockId a = stockId b ∧ asOf < time a ∧ asOf < time b)

section Records

variable {α : Type} {stockId : α → String} {time : α → Datetime} {asOf : Datetime} {as bs : List α}

theorem SameUntil.stockId_eq {a b : α} (h : SameUntil stockId time asOf a b) :
    stockId a = stockId b := by
  rcases h with rfl | ⟨heq, -⟩
  · rfl
  · exact heq

theorem SameUntil.symm {a b : α} (h : SameUntil stockId time asOf a b) :
    SameUntil stockId time asOf b a := by
  rcases h with rfl | ⟨heq, ha, hb⟩
  · exact .inl rfl
  · exact .inr ⟨heq.symm, hb, ha⟩

theorem sameUntil_symm (h : List.Forall₂ (SameUntil stockId time asOf) as bs) :
    List.Forall₂ (SameUntil stockId time asOf) bs as :=
  h.flip.imp fun _ _ hab => SameUntil.symm hab

theorem map_stockId_sameUntil (h : List.Forall₂ (SameUntil stockId time asOf) as bs) :
    as.map stockId = bs.map stockId := by
  induction h with
  | nil => rfl
  | cons hab _ ih => rw [List.map_cons, List.map_cons, hab.stockId_eq, ih]

theorem find?_sameUntil (h : List.Forall₂ (SameUntil stockId time asOf) as bs) (k : String) :
    (as.find? fun r => stockId r = k) = (bs.find? fun r => stockId r = k) ∨
      ∃ a b, (as.find? fun r => stockId r = k) = some a ∧ (bs.find? fun r => stockId r = k) =
      some b ∧
        asOf < time a ∧ asOf < time b := by
  induction h with
  | nil => exact .inl rfl
  | @cons a b as bs hab _ ih =>
    by_cases hk : stockId a = k
    · have hk' : stockId b = k := hab.stockId_eq ▸ hk
      rw [List.find?_cons_of_pos (by simpa using hk), List.find?_cons_of_pos (by simpa using hk')]
      rcases hab with rfl | ⟨-, ha, hb⟩
      · exact .inl rfl
      · exact .inr ⟨a, b, rfl, rfl, ha, hb⟩
    · have hk' : ¬ stockId b = k := hab.stockId_eq ▸ hk
      rw [List.find?_cons_of_neg (by simpa using hk), List.find?_cons_of_neg (by simpa using hk')]
      exact ih

theorem indexUnique_sameUntil {label : String} {index : Dict String α}
    (h : List.Forall₂ (SameUntil stockId time asOf) as bs)
    (hindex : indexUnique stockId label as .empty = .ok index) :
    ∃ index', indexUnique stockId label bs .empty = .ok index' ∧
      ∀ k, index.get? k = index'.get? k ∨ ∃ a b, index.get? k = some a ∧ index'.get? k = some b ∧
        asOf < time a ∧ asOf < time b := by
  obtain ⟨hnodup, -, hget⟩ := indexUnique_eq_ok hindex
  rw [map_stockId_sameUntil h] at hnodup
  obtain ⟨index', hindex'⟩ : ∃ index', indexUnique stockId label bs .empty = .ok index' :=
    exists_indexUnique hnodup fun r _ => Dict.get?_empty _
  refine ⟨index', hindex', fun k => ?_⟩
  rw [hget k, (indexUnique_eq_ok hindex').2.2 k, Dict.get?_empty, Option.or_none, Option.or_none]
  exact find?_sameUntil h k

end Records

section Member

variable {marketDate : Date} {asOf : Datetime}

variable {r : StockReference}

theorem stockPrices_of_later (hlater : asOf < r.knownAt)
    (observation : Option StockMarketObservation.Fields) :
    stockPrices marketDate asOf (some r) observation =
      .inl (if r.corporateActionResolved = false
        then (.corporateActionUnresolved, .corporateActionUnresolved)
        else (.pointInTimeViolation, .missingReferenceData)) := by
  unfold stockPrices
  dsimp only
  split
  · rfl
  · rw [if_pos (.inr hlater)]

theorem stockPrices_of_laterObservations (reference : Option StockReference)
    {o o' : StockMarketObservation.Fields} (ho : asOf < o.observedAt) (ho' : asOf < o'.observedAt) :
    stockPrices marketDate asOf reference (some o) =
      stockPrices marketDate asOf reference (some o') := by
  unfold stockPrices
  cases reference with
  | none => rfl
  | some r =>
    simp only [ho, ho', or_true, if_true]

theorem freeFloatMarketCap_of_later (hlater : asOf < r.knownAt) :
    r.freeFloatMarketCap marketDate asOf = .ok none := by
  have hnone : r.adjustedReturnReference marketDate asOf = none := if_pos (.inr (.inl hlater))
  unfold StockReference.freeFloatMarketCap
  rw [hnone]

/-- The corporate action of a known reference or of a usable observation is unresolved. -/
def ActionUnresolved (marketDate : Date) (asOf : Datetime) (r : StockReference)
    (observation : Option StockMarketObservation.Fields) : Prop :=
  r.corporateActionResolved = false ∨ (r.adjustedReturnReference marketDate asOf).isSome ∧
    ∃ o ∈ observation, o.marketDate = marketDate ∧ o.observedAt ≤ asOf ∧ o.tradingHalted = false ∧
      o.corporateActionUnresolved = true

/-- A known reference is for another day, or its observation is for another day or made later. -/
def OutOfTime (marketDate : Date) (asOf : Datetime) (r : StockReference)
    (observation : Option StockMarketObservation.Fields) : Prop :=
  r.corporateActionResolved = true ∧ (r.effectiveFor ≠ marketDate ∨
    (r.adjustedReturnReference marketDate asOf).isSome ∧
      ∃ o ∈ observation, o.marketDate ≠ marketDate ∨ asOf < o.observedAt)

theorem stockPrices_reports (hknown : r.knownAt ≤ asOf)
    (observation : Option StockMarketObservation.Fields) :
    ((∃ reason, stockPrices marketDate asOf (some r) observation =
        .inl (.corporateActionUnresolved, reason)) ↔
          ActionUnresolved marketDate asOf r observation) ∧
      ((∃ reason, stockPrices marketDate asOf (some r) observation =
        .inl (.pointInTimeViolation, reason)) ↔ OutOfTime marketDate asOf r observation) := by
  have hin : ¬ asOf < r.knownAt := not_lt_of_ge hknown
  unfold stockPrices ActionUnresolved OutOfTime
  dsimp only
  cases hresolved : r.corporateActionResolved with
  | false => simp
  | true =>
    by_cases hdate : r.effectiveFor = marketDate
    · have hclose : r.adjustedReturnReference marketDate asOf =
          r.previousAdjustedClose.filter fun close => ¬ close ≤ Decimal.zero := by
        unfold StockReference.adjustedReturnReference
        rw [if_neg]
        simp [hdate, hin, hresolved]
      rw [hclose]
      cases r.previousAdjustedClose.filter fun close => ¬ close ≤ Decimal.zero with
      | none => simp [hdate, hin]
      | some close =>
        cases observation with
        | none => simp [hdate, hin]
        | some o =>
          by_cases hday : o.marketDate = marketDate
          · by_cases hlate : asOf < o.observedAt
            · have hearly : ¬ o.observedAt ≤ asOf := not_le_of_gt hlate
              simp [hdate, hin, hday, hlate, hearly]
            · have hearly : o.observedAt ≤ asOf := Int.not_lt.mp hlate
              cases hhalted : o.tradingHalted with
              | true => simp [hdate, hin, hday, hlate, hhalted]
              | false =>
                cases haction : o.corporateActionUnresolved with
                | true => simp [hdate, hin, hday, hlate, hearly, hhalted, haction]
                | false =>
                  cases hfresh : o.fresh with
                  | false => simp [hdate, hin, hday, hlate, hhalted, haction, hfresh]
                  | true =>
                    simp only [hdate, hin, hday, hlate, hhalted, haction]
                    generalize o.currentPrice.filter _ = usable
                    cases usable <;> simp [hday, hlate, hhalted, haction, hfresh]
          · simp [hdate, hin, hday]
    · have hnone : r.adjustedReturnReference marketDate asOf = none := if_pos (.inl hdate)
      simp [hdate, hnone]

end Member

/-- Two members are both without a return, or they have the same close and price. -/
def SamePrices (p q : Sum (QualityFlag × UnavailableReason) (Decimal × Decimal)) : Prop :=
  p = q ∨ (p.isLeft ∧ q.isLeft)

section Members

variable {marketDate : Date} {asOf : Datetime} {references references' : Dict String StockReference}
  {observations observations' : Dict String StockMarketObservation.Fields}

private theorem foldlM_samePrices {members : List ThemeMember}
    (h : ∀ member ∈ members, SamePrices
      (memberPrices marketDate asOf references observations member)
      (memberPrices marketDate asOf references' observations' member))
    {acc acc' next : Dict String Decimal × Findings} (hacc : acc.1 = acc'.1)
    (hnext : members.foldlM (memberStep marketDate asOf references observations) acc = .ok next) :
    ∃ next', members.foldlM (memberStep marketDate asOf references' observations') acc' =
      .ok next' ∧ next.1 = next'.1 := by
  induction members generalizing acc acc' with
  | nil =>
    cases hnext
    exact ⟨acc', rfl, hacc⟩
  | cons member members ih =>
    rw [List.foldlM_cons] at hnext
    obtain ⟨between, hstep, hrest⟩ := bind_eq_ok.mp hnext
    have hsame := h member (List.mem_cons_self ..)
    have hlater := fun m hm => h m (List.mem_cons_of_mem _ hm)
    obtain ⟨between', hstep', hbetween⟩ : ∃ between',
        memberStep marketDate asOf references' observations' acc' member = .ok between' ∧
          between.1 = between'.1 := by
      rcases memberStep_eq_ok hstep with
        ⟨flag, reason, hprices, rfl⟩ | ⟨close, price, value, hprices, hvalue, rfl⟩
      · rw [hprices] at hsame
        cases hprices' : memberPrices marketDate asOf references' observations' member with
        | inl found =>
          obtain ⟨flag', reason'⟩ := found
          refine ⟨(acc'.1, (acc'.2.flag flag').issue reason' [member.stockId]), ?_, hacc⟩
          rw [memberStep, hprices']
        | inr found =>
          rw [hprices'] at hsame
          rcases hsame with heq | ⟨-, hleft⟩
          · cases heq
          · cases hleft
      · rw [hprices] at hsame
        rcases hsame with heq | ⟨hleft, -⟩
        · refine ⟨(acc'.1.set member.stockId value, acc'.2), ?_, ?_⟩
          · rw [memberStep, ← heq]
            dsimp only
            rw [hvalue]
            rfl
          · dsimp only
            rw [hacc]
        · cases hleft
    obtain ⟨next', hnext', hfinal⟩ := ih hlater hbetween hrest
    refine ⟨next', ?_, hfinal⟩
    rw [List.foldlM_cons, hstep']
    exact hnext'

theorem memberReturns_samePrices {members : List ThemeMember}
    (h : ∀ member ∈ members, SamePrices
      (memberPrices marketDate asOf references observations member)
      (memberPrices marketDate asOf references' observations' member))
    {returns : Dict String Decimal} {findings : Findings}
    (hreturns : memberReturns members marketDate asOf references observations =
      .ok (returns, findings)) :
    ∃ findings', memberReturns members marketDate asOf references' observations' =
      .ok (returns, findings') := by
  rw [memberReturns_eq] at hreturns ⊢
  have hsame : (Dict.empty : Dict String Decimal) = (Dict.empty, Findings.empty).1 := rfl
  obtain ⟨⟨returns', findings'⟩, hreturns', heq⟩ := foldlM_samePrices h hsame hreturns
  obtain rfl : returns = returns' := heq
  exact ⟨findings', hreturns'⟩

end Members

section Metrics

variable {marketDate : Date} {asOf : Datetime} {membership : ThemeMembershipSnapshot}
  {references references' : List StockReference}
  {observations observations' : List StockMarketObservation.Fields}
  {policy : ThemeCalculationPolicy}

/-- Two lists of references are the same until a time. -/
abbrev SameReferences (asOf : Datetime) : List StockReference → List StockReference → Prop :=
  List.Forall₂ (SameUntil (fun r => r.stockId) (fun r => r.knownAt) asOf)

/-- Two lists of observations are the same until a time. -/
abbrev SameObservations (asOf : Datetime) :
    List StockMarketObservation.Fields → List StockMarketObservation.Fields → Prop :=
  List.Forall₂ (SameUntil (fun o => o.stockId) (fun o => o.observedAt) asOf)

theorem memberPrices_sameUntil {referenceByStock referenceByStock' : Dict String StockReference}
    {observationByStock observationByStock' : Dict String StockMarketObservation.Fields}
    (hreferences : ∀ k, referenceByStock.get? k = referenceByStock'.get? k ∨
      ∃ r r', referenceByStock.get? k = some r ∧ referenceByStock'.get? k = some r' ∧
        asOf < r.knownAt ∧ asOf < r'.knownAt)
    (hobservations : ∀ k, observationByStock.get? k = observationByStock'.get? k ∨
      ∃ o o', observationByStock.get? k = some o ∧ observationByStock'.get? k = some o' ∧
        asOf < o.observedAt ∧ asOf < o'.observedAt) (member : ThemeMember) :
    memberPrices marketDate asOf referenceByStock observationByStock member =
        memberPrices marketDate asOf referenceByStock' observationByStock' member ∨
      ∃ r r', referenceByStock.get? member.stockId = some r ∧
        referenceByStock'.get? member.stockId = some r' ∧ asOf < r.knownAt ∧ asOf < r'.knownAt := by
  rcases hreferences member.stockId with hsame | hlater
  · refine .inl ?_
    unfold memberPrices
    rw [hsame]
    rcases hobservations member.stockId with hseen | ⟨o, o', ho, ho', hlater, hlater'⟩
    · rw [hseen]
    · rw [ho, ho']
      exact stockPrices_of_laterObservations _ hlater hlater'
  · exact .inr hlater

/-- What an observation of a theme sees besides the references and the findings. -/
structure SameObserved (o o' : ObservedTheme) : Prop where
  members : o.orderedMembers = o'.orderedMembers ∧ o.coreMembers = o'.coreMembers
  returns : o.returnsByStock = o'.returnsByStock
  capitalizations : o.missing = o'.missing ∧ o.observedCore = o'.observedCore
  coverage : o.coverage = o'.coverage

/-- The flags of an observation besides those of the members. -/
def themeFlags (policy : ThemeCalculationPolicy) (o : ObservedTheme) : List String :=
  (((Findings.empty.withoutCapitalization o.missing).withCoverage o.coverage.status
    ((o.observedCore.length : Int) < policy.minimumCoreObservations ∨
      (o.returnsByStock.entries.length : Int) < policy.minimumTotalObservations)).qualityFlags)

variable {t : String} {o : ObservedTheme} {member : ThemeMember}

theorem mem_withCoverage {findings : Findings} {missing : List String} {status : CoverageStatus}
    {few : Prop} [Decidable few] :
    t ∈ ((findings.withoutCapitalization missing).withCoverage status few).qualityFlags ↔
      t ∈ findings.qualityFlags ∨
        t ∈
        ((Findings.empty.withoutCapitalization missing).withCoverage status few).qualityFlags := by
  unfold Findings.withCoverage Findings.withoutCapitalization
  cases status <;> split_ifs <;>
    simp [Findings.flag, Findings.issue, Findings.empty, or_comm, or_left_comm, or_assoc]

theorem observeTheme_sameUntil (hreferences : SameReferences asOf references references')
    (hobservations : SameObservations asOf observations observations')
    (h : observeTheme marketDate asOf membership references observations policy = .ok o) :
    ∃ o', observeTheme marketDate asOf membership references' observations' policy = .ok o' ∧
      SameObserved o o' := by
  obtain ⟨observationByStock, findings, capitalizations, hobserves⟩ := observes_of_ok h
  obtain ⟨referenceByStock', hreferenced', hreference⟩ :=
    indexUnique_sameUntil hreferences hobserves.referenced
  obtain ⟨observationByStock', hobserved', hobservation⟩ :=
    indexUnique_sameUntil hobservations hobserves.observed
  have hprices := @memberPrices_sameUntil marketDate asOf _ _ _ _ hreference hobservation
  obtain ⟨findings', hreturns'⟩ := memberReturns_samePrices (fun member _ => by
    rcases hprices member with hsame | ⟨r, r', hr, hr', hlater, hlater'⟩
    · exact .inl hsame
    · refine .inr ⟨?_, ?_⟩
      · rw [memberPrices, hr, stockPrices_of_later hlater]
        rfl
      · rw [memberPrices, hr', stockPrices_of_later hlater']
        rfl) hobserves.returns
  have hcapitalized' : (coreMembers membership).mapM
      (memberCapitalization marketDate asOf referenceByStock') = .ok capitalizations := by
    rw [← hobserves.capitalized]
    refine mapM_congr fun member _ => ?_
    unfold memberCapitalization
    rcases hreference member.stockId with hsame | ⟨r, r', hr, hr', hlater, hlater'⟩
    · rw [hsame]
    · rw [hr, hr']
      dsimp only
      rw [freeFloatMarketCap_of_later hlater, freeFloatMarketCap_of_later hlater']
  refine ⟨{ o with
      referenceByStock := referenceByStock'
      findings := (findings'.withoutCapitalization o.missing).withCoverage o.coverage.status
        ((o.observedCore.length : Int) < policy.minimumCoreObservations ∨
          (o.returnsByStock.entries.length : Int) < policy.minimumTotalObservations) },
    @Observes.observeTheme_eq _ _ _ _ _ _ _ observationByStock' _ _
      ⟨hobserves.usable, hreferenced', hobserved', hreturns', hcapitalized', hobserves.missing,
        hobserves.observedCore, hobserves.coverage, hobserves.members, rfl⟩,
    ⟨⟨rfl, rfl⟩, rfl, ⟨rfl, rfl⟩, rfl⟩⟩

def Reports (marketDate : Date) (asOf : Datetime) (references : List StockReference)
    (observations : List StockMarketObservation.Fields) (member : ThemeMember)
    (flag : QualityFlag) : Prop :=
  ∃ reason, stockPrices marketDate asOf (references.find? fun r => r.stockId = member.stockId)
    (observations.find? fun o => o.stockId = member.stockId) = .inl (flag, reason)

theorem mem_findings
    (h : observeTheme marketDate asOf membership references observations policy = .ok o)
    (t : String) :
    t ∈ o.findings.qualityFlags ↔ (∃ member ∈ membership.members, ∃ flag,
      Reports marketDate asOf references observations member flag ∧ flag.value = t) ∨
        t ∈ themeFlags policy o := by
  obtain ⟨observationByStock, findings, capitalizations, hobserves⟩ := observes_of_ok h
  have hprices :
      ∀ member, memberPrices marketDate asOf o.referenceByStock observationByStock member =
      stockPrices marketDate asOf (references.find? fun r => r.stockId = member.stockId)
        (observations.find? fun o => o.stockId = member.stockId) := by
    intro member
    rw [memberPrices, (indexUnique_eq_ok hobserves.referenced).2.2,
      (indexUnique_eq_ok hobserves.observed).2.2, Dict.get?_empty, Dict.get?_empty, Option.or_none,
      Option.or_none]
  rw [hobserves.found, mem_withCoverage, mem_flags_of_memberReturns hobserves.returns]
  refine or_congr_left ⟨?_, ?_⟩
  · rintro ⟨member, hmember, flag, reason, hreport, rfl⟩
    refine ⟨member, (List.mem_insertionSort _).mp hmember, flag, ⟨reason, ?_⟩, rfl⟩
    rw [← hprices]
    exact hreport
  · rintro ⟨member, hmember, flag, ⟨reason, hreport⟩, rfl⟩
    refine ⟨member, (List.mem_insertionSort _).mpr hmember, flag, reason, ?_, rfl⟩
    rw [hprices]
    exact hreport

theorem sortedTexts_eq_iff {as bs : List String} :
    sortedTexts as = sortedTexts bs ↔ ∀ t, t ∈ as ↔ t ∈ bs := by
  constructor
  · intro h t
    rw [← mem_sortedTexts, h, mem_sortedTexts]
  · intro h
    have hperm : as.dedup.Perm bs.dedup := by
      rw [List.perm_ext_iff_of_nodup (List.nodup_dedup as) (List.nodup_dedup bs)]
      simpa using h
    refine List.Perm.eq_of_pairwise' (List.pairwise_insertionSort _ _)
      (List.pairwise_insertionSort _ _) ?_
    exact ((List.perm_insertionSort _ _).trans hperm).trans (List.perm_insertionSort _ _).symm

theorem not_mem_themeFlags (h : t ∈ themeFlags policy o) :
    t ≠ QualityFlag.corporateActionUnresolved.value ∧
      t ≠ QualityFlag.pointInTimeViolation.value := by
  unfold themeFlags Findings.withCoverage Findings.withoutCapitalization at h
  constructor
  all_goals
    rintro rfl
    revert h
    cases o.coverage.status <;> split_ifs <;>
      dsimp only [Findings.issue, Findings.flag, Findings.empty] <;> decide

theorem eq_of_value_eq {flag : QualityFlag} :
    (flag.value = QualityFlag.corporateActionUnresolved.value → flag = .corporateActionUnresolved) ∧
      (flag.value = QualityFlag.pointInTimeViolation.value → flag = .pointInTimeViolation) := by
  cases flag <;> decide

/-- A member reports the same until the time of the calculation, or its reference becomes known
later. -/
theorem reports_sameUntil (hreferences : SameReferences asOf references references')
    (hobservations : SameObservations asOf observations observations') (member : ThemeMember) :
    (∀ flag, Reports marketDate asOf references observations member flag ↔
        Reports marketDate asOf references' observations' member flag) ∨
      ∃ r r', (references.find? fun r => r.stockId = member.stockId) = some r ∧
        (references'.find? fun r => r.stockId = member.stockId) = some r' ∧
        asOf < r.knownAt ∧ asOf < r'.knownAt := by
  rcases find?_sameUntil hreferences member.stockId with hsame | hlater
  · refine .inl fun flag => ?_
    unfold Reports
    rw [hsame]
    rcases find?_sameUntil hobservations member.stockId with hseen |
        ⟨o, o', ho, ho', hlater, hlater'⟩
    · rw [hseen]
    · rw [ho, ho', stockPrices_of_laterObservations _ hlater hlater']
  · exact .inr hlater

theorem reports_of_later {r : StockReference} {flag : QualityFlag}
    (hr : (references.find? fun r => r.stockId = member.stockId) = some r)
    (hlater : asOf < r.knownAt) :
    Reports marketDate asOf references observations member flag ↔
      flag = if r.corporateActionResolved = false then .corporateActionUnresolved
        else .pointInTimeViolation := by
  unfold Reports
  rw [hr, stockPrices_of_later hlater]
  split <;> simp [eq_comm]

/-- A member whose reference is known reports something. -/
def KnownReports (asOf : Datetime) (references : List StockReference)
    (observations : List StockMarketObservation.Fields) (membership : ThemeMembershipSnapshot)
    (report : StockReference → Option StockMarketObservation.Fields → Prop) : Prop :=
  ∃ member ∈ membership.members, ∃ r,
    (references.find? fun r => r.stockId = member.stockId) = some r ∧ r.knownAt ≤ asOf ∧
      report r (observations.find? fun o => o.stockId = member.stockId)

theorem knownReports_of_reports (hmember : member ∈ membership.members)
    (hknown : ∀ r, (references.find? fun r => r.stockId = member.stockId) = some r →
      r.knownAt ≤ asOf) :
    (Reports marketDate asOf references observations member .corporateActionUnresolved →
        KnownReports asOf references observations membership (ActionUnresolved marketDate asOf)) ∧
      (Reports marketDate asOf references observations member .pointInTimeViolation →
        KnownReports asOf references observations membership (OutOfTime marketDate asOf)) := by
  cases hr : references.find? fun r => r.stockId = member.stockId with
  | none => simp [Reports, hr, stockPrices]
  | some r =>
    have hin := hknown r hr
    have hreports := @stockPrices_reports marketDate asOf r hin
      (observations.find? fun o => o.stockId = member.stockId)
    unfold Reports
    rw [hr]
    exact ⟨fun h => ⟨member, hmember, r, hr, hin, hreports.1.mp h⟩,
      fun h => ⟨member, hmember, r, hr, hin, hreports.2.mp h⟩⟩

/-- Two metrics agree in everything that is published of them but the flags. -/
structure SameMetrics (m m' : ThemeMetrics) : Prop where
  weightedReturn : m.weightedReturn = m'.weightedReturn
  medianReturn : m.medianReturn = m'.medianReturn
  advancingCount : m.advancingCount = m'.advancingCount
  validCount : m.validCount = m'.validCount
  coverage : m.coverage = m'.coverage
  cappedWeights : m.cappedWeights = m'.cappedWeights

theorem deriveMetrics_sameObserved {o' : ObservedTheme} (hsame : SameObserved o o')
    {m : ThemeMetrics} (h : deriveMetrics membership policy o = .ok m) :
    ∃ m', deriveMetrics membership policy o' = .ok m' ∧ SameMetrics m m' := by
  have hcount : o.validCount = o'.validCount := by
    rw [ObservedTheme.validCount, hsame.returns]
    rfl
  have hweigh : weightsOf o policy = weightsOf o' policy := by
    unfold weightsOf
    rw [hsame.capitalizations.1, hsame.capitalizations.2, hsame.returns]
  obtain ⟨⟨weights, weighted⟩, hweights, h⟩ := bind_eq_ok.mp h
  obtain ⟨middle, hmiddle, h⟩ := bind_eq_ok.mp h
  obtain ⟨ratio, hratio, h⟩ := bind_eq_ok.mp h
  cases h
  rw [hweigh] at hweights
  rw [hsame.returns] at hmiddle
  rw [hsame.returns, hcount] at hratio
  refine ⟨_, bind_eq_ok.mpr ⟨_, hweights, bind_eq_ok.mpr ⟨_, hmiddle,
    bind_eq_ok.mpr ⟨_, hratio, rfl⟩⟩⟩, ⟨rfl, rfl, ?_, ?_, hsame.coverage, rfl⟩⟩
  · dsimp only
    rw [hcount, hsame.returns]
  · dsimp only
    rw [hcount]

/-- A reference that becomes known later, with its corporate action resolved or not. -/
def settled (asOf : Datetime) (resolved : Bool) (r : StockReference) : StockReference :=
  if asOf < r.knownAt then ⟨{ r.toFields with corporateActionResolved := resolved }, r.valid⟩ else r

theorem settled_stockId (resolved : Bool) (r : StockReference) :
    (settled asOf resolved r).stockId = r.stockId := by
  unfold settled
  split <;> rfl

theorem sameReferences_settled (resolved : Bool) :
    SameReferences asOf references (references.map (settled asOf resolved)) := by
  unfold SameReferences
  rw [List.forall₂_map_right_iff, List.forall₂_same]
  intro r _
  unfold settled
  split
  · next hlater => exact .inr ⟨rfl, hlater, hlater⟩
  · exact .inl rfl

theorem find?_settled (resolved : Bool) (k : String) :
    ((references.map (settled asOf resolved)).find? fun r => r.stockId = k) =
      (references.find? fun r => r.stockId = k).map (settled asOf resolved) := by
  rw [List.find?_map]
  congr 2
  funext r
  simp [settled_stockId]

theorem reports_settled (resolved : Bool) (hmember : member ∈ membership.members)
    {flag : QualityFlag}
    (h : Reports marketDate asOf (references.map (settled asOf resolved)) observations
      member flag) :
    (flag = if resolved = false then .corporateActionUnresolved else .pointInTimeViolation) ∨
      (flag = .corporateActionUnresolved →
        KnownReports asOf references observations membership (ActionUnresolved marketDate asOf)) ∧
      (flag = .pointInTimeViolation →
        KnownReports asOf references observations membership (OutOfTime marketDate asOf)) := by
  by_cases hlater : ∃ r, (references.find? fun r => r.stockId = member.stockId) = some r ∧
      asOf < r.knownAt
  · obtain ⟨r, hr, hlater⟩ := hlater
    refine .inl ?_
    have hsettled := @find?_settled asOf references resolved member.stockId
    rw [hr, Option.map_some, settled, if_pos hlater] at hsettled
    exact (reports_of_later hsettled hlater).mp h
  · refine .inr ?_
    have hknown : ∀ r, (references.find? fun r => r.stockId = member.stockId) = some r →
        r.knownAt ≤ asOf := fun r hr => Int.not_lt.mp fun hlt => hlater ⟨r, hr, hlt⟩
    have hsame : Reports marketDate asOf references observations member flag := by
      unfold Reports at h ⊢
      rw [find?_settled] at h
      cases hr : references.find? fun r => r.stockId = member.stockId with
      | none =>
        rw [hr] at h
        exact h
      | some r =>
        rw [hr, Option.map_some, settled, if_neg fun hlt => hlater ⟨r, hr, hlt⟩] at h
        exact h
    obtain ⟨haction, htime⟩ :=
      @knownReports_of_reports marketDate asOf membership references observations member
      hmember hknown
    exact ⟨fun heq => haction (heq ▸ hsame), fun heq => htime (heq ▸ hsame)⟩

theorem exists_reports_of_known (hreferences : SameReferences asOf references references')
    (hobservations : SameObservations asOf observations observations')
    {report : StockReference → Option StockMarketObservation.Fields → Prop} {flag : QualityFlag}
    (hreport : ∀ r o, r.knownAt ≤ asOf → report r o →
      ∃ reason, stockPrices marketDate asOf (some r) o = .inl (flag, reason))
    (h : KnownReports asOf references observations membership report) :
    ∃ member ∈ membership.members,
      Reports marketDate asOf references observations member flag ∧
        Reports marketDate asOf references' observations' member flag := by
  obtain ⟨member, hmember, r, hr, hknown, hfound⟩ := h
  have hreports : Reports marketDate asOf references observations member flag := by
    unfold Reports
    rw [hr]
    exact hreport r _ hknown hfound
  refine ⟨member, hmember, hreports, ?_⟩
  rcases @reports_sameUntil marketDate asOf _ _ _ _ hreferences hobservations member with
    hsame | ⟨later, _, hlater, -, hafter, -⟩
  · exact (hsame flag).mp hreports
  · obtain rfl := Option.some.inj (hr.symm.trans hlater)
    exact absurd hknown (not_le_of_gt hafter)

theorem reported_of_reported (hreferences : SameReferences asOf references references')
    (hobservations : SameObservations asOf observations observations')
    (hboth : ∀ flag, flag = .corporateActionUnresolved ∨ flag = .pointInTimeViolation →
      ∃ member ∈ membership.members, Reports marketDate asOf references' observations' member flag)
    (h : ∃ member ∈ membership.members, ∃ flag,
      Reports marketDate asOf references observations member flag ∧ flag.value = t) :
    ∃ member ∈ membership.members, ∃ flag,
      Reports marketDate asOf references' observations' member flag ∧ flag.value = t := by
  obtain ⟨member, hmember, flag, hreport, rfl⟩ := h
  rcases @reports_sameUntil marketDate asOf _ _ _ _ hreferences hobservations member with
    hsame | ⟨r, _, hr, -, hlater, -⟩
  · exact ⟨member, hmember, flag, (hsame flag).mp hreport, rfl⟩
  · have hflag := (reports_of_later hr hlater).mp hreport
    have hone : flag = .corporateActionUnresolved ∨ flag = .pointInTimeViolation := by
      rw [hflag]
      split
      · exact .inl rfl
      · exact .inr rfl
    obtain ⟨member', hmember', hreport'⟩ := hboth flag hone
    exact ⟨member', hmember', flag, hreport', rfl⟩

/-- What a reference that becomes known later reports when it is settled. -/
def settledFlag (resolved : Bool) : QualityFlag :=
  if resolved = false then .corporateActionUnresolved else .pointInTimeViolation

theorem settledFlag_of_value_eq {flag : QualityFlag} {resolved : Bool}
    (h : flag.value = (settledFlag resolved).value) : flag = settledFlag resolved := by
  cases resolved with
  | false => exact eq_of_value_eq.1 h
  | true => exact eq_of_value_eq.2 h

theorem not_mem_themeFlags_settledFlag (resolved : Bool) (o : ObservedTheme) :
    (settledFlag resolved).value ∉ themeFlags policy o := by
  intro hmem
  cases resolved with
  | false => exact (not_mem_themeFlags hmem).1 rfl
  | true => exact (not_mem_themeFlags hmem).2 rfl

theorem reports_settledFlag (resolved : Bool) {r : StockReference}
    (hr : (references.find? fun r => r.stockId = member.stockId) = some r)
    (hlater : asOf < r.knownAt) :
    Reports marketDate asOf (references.map (settled asOf resolved)) observations member
      (settledFlag resolved) := by
  have hsettled := @find?_settled asOf references resolved member.stockId
  rw [hr, Option.map_some, settled, if_pos hlater] at hsettled
  exact (reports_of_later hsettled hlater).mpr rfl

/-- What becomes known after a calculation changes none of its values, and it changes none of its
flags exactly if every member's reference is known by then, or if an unresolved corporate action and
a time that is not respected are reported by members whose references are known. -/
theorem calculateThemeMetrics_foresight {m : ThemeMetrics}
    (h : calculateThemeMetrics marketDate asOf membership references observations policy = .ok m) :
    (∀ references' observations', SameReferences asOf references references' →
      SameObservations asOf observations observations' →
      ∃ m', calculateThemeMetrics marketDate asOf membership references' observations' policy =
        .ok m' ∧ SameMetrics m m') ∧
    ((∀ references' observations' m', SameReferences asOf references references' →
        SameObservations asOf observations observations' →
        calculateThemeMetrics marketDate asOf membership references' observations' policy = .ok m' →
        m'.qualityFlags = m.qualityFlags) ↔
      (∀ member ∈ membership.members, ∀ r,
        (references.find? fun r => r.stockId = member.stockId) = some r → r.knownAt ≤ asOf) ∨
      (KnownReports asOf references observations membership (ActionUnresolved marketDate asOf) ∧
        KnownReports asOf references observations membership (OutOfTime marketDate asOf))) := by
  obtain ⟨o, ho, hderived⟩ := calculateThemeMetrics_eq_ok h
  have hflags := (deriveMetrics_eq_ok hderived).2.2.2.2.2
  have hsame : ∀ references' observations', SameReferences asOf references references' →
      SameObservations asOf observations observations' →
      ∃ m', calculateThemeMetrics marketDate asOf membership references' observations' policy =
        .ok m' ∧ SameMetrics m m' ∧ (m'.qualityFlags = m.qualityFlags ↔
          ∀ t, ((∃ member ∈ membership.members, ∃ flag,
            Reports marketDate asOf references' observations' member flag ∧ flag.value = t) ∨
              t ∈ themeFlags policy o) ↔ ((∃ member ∈ membership.members, ∃ flag,
            Reports marketDate asOf references observations member flag ∧ flag.value = t) ∨
              t ∈ themeFlags policy o)) := by
    intro references' observations' hreferences hobservations
    obtain ⟨o', ho', hobserved⟩ := observeTheme_sameUntil hreferences hobservations ho
    obtain ⟨m', hderived', hmetrics⟩ := deriveMetrics_sameObserved hobserved hderived
    refine ⟨m', ?_, hmetrics, ?_⟩
    · rw [calculateThemeMetrics_eq]
      exact bind_eq_ok.mpr ⟨o', ho', hderived'⟩
    · have htheme : themeFlags policy o' = themeFlags policy o := by
        unfold themeFlags
        rw [hobserved.capitalizations.1, hobserved.capitalizations.2, hobserved.coverage,
          hobserved.returns]
      rw [hflags, (deriveMetrics_eq_ok hderived').2.2.2.2.2, sortedTexts_eq_iff]
      refine forall_congr' fun t => ?_
      rw [mem_findings ho, mem_findings ho', htheme]
  refine ⟨fun references' observations' hreferences hobservations => ?_,
    ⟨fun hall => ?_, fun hcases => ?_⟩⟩
  · obtain ⟨m', hok, hmetrics, -⟩ := hsame references' observations' hreferences hobservations
    exact ⟨m', hok, hmetrics⟩
  · rw [or_iff_not_imp_left]
    intro hlater
    push Not at hlater
    obtain ⟨member, hmember, r, hr, hafter⟩ := hlater
    have hafter' : asOf < r.knownAt := Int.not_le.mp hafter
    -- settling the later references one way or the other gives the same flags
    have hsettled : ∀ resolved t, ((∃ member ∈ membership.members, ∃ flag,
        Reports marketDate asOf (references.map (settled asOf resolved)) observations member flag ∧
          flag.value = t) ∨ t ∈ themeFlags policy o) ↔ ((∃ member ∈ membership.members, ∃ flag,
        Reports marketDate asOf references observations member flag ∧ flag.value = t) ∨
          t ∈ themeFlags policy o) := by
      intro resolved
      have hown : SameObservations asOf observations observations :=
        List.forall₂_same.mpr fun o _ => .inl rfl
      obtain ⟨m', hok, -, hiff⟩ := hsame _ _ (sameReferences_settled resolved) hown
      exact hiff.mp (hall _ _ m' (sameReferences_settled resolved) hown hok)
    have hother : ∀ resolved, ∃ member ∈ membership.members, Reports marketDate asOf
        (references.map (settled asOf (!resolved))) observations member (settledFlag resolved) := by
      intro resolved
      have hreport : Reports marketDate asOf (references.map (settled asOf resolved)) observations
          member (settledFlag resolved) := reports_settledFlag resolved hr hafter'
      have hmem := (hsettled (!resolved) _).mpr ((hsettled resolved (settledFlag resolved).value).mp
        (.inl ⟨member, hmember, _, hreport, rfl⟩))
      obtain ⟨other, hother, flag, hflag, hvalue⟩ :=
        hmem.resolve_right (not_mem_themeFlags_settledFlag resolved o)
      exact ⟨other, hother, settledFlag_of_value_eq hvalue ▸ hflag⟩
    obtain ⟨first, hfirst, haction⟩ := hother false
    obtain ⟨second, hsecond, htime⟩ := hother true
    constructor
    · rcases reports_settled true hfirst haction with heq | ⟨hknown, -⟩
      · cases heq
      · exact hknown rfl
    · rcases reports_settled false hsecond htime with heq | ⟨-, hknown⟩
      · cases heq
      · exact hknown rfl
  · intro references' observations' m' hreferences hobservations hok
    obtain ⟨m'', hok', -, hiff⟩ := hsame references' observations' hreferences hobservations
    obtain rfl := Except.ok.inj (hok.symm.trans hok')
    refine hiff.mpr fun t => or_congr_left ?_
    rcases hcases with hknown | ⟨haction, htime⟩
    · have hreports : ∀ member ∈ membership.members, ∀ flag,
          Reports marketDate asOf references observations member flag ↔
            Reports marketDate asOf references' observations' member flag := by
        intro member hmember
        rcases @reports_sameUntil marketDate asOf _ _ _ _ hreferences hobservations member with
          hsame | ⟨r, _, hr, -, hlater, -⟩
        · exact hsame
        · exact absurd (hknown member hmember r hr) (not_le_of_gt hlater)
      exact ⟨fun ⟨member, hmember, flag, hflag, heq⟩ =>
          ⟨member, hmember, flag, (hreports member hmember flag).mpr hflag, heq⟩,
        fun ⟨member, hmember, flag, hflag, heq⟩ =>
          ⟨member, hmember, flag, (hreports member hmember flag).mp hflag, heq⟩⟩
    · have hboth : ∀ flag, flag = .corporateActionUnresolved ∨ flag = .pointInTimeViolation →
          ∃ member ∈ membership.members,
            Reports marketDate asOf references observations member flag ∧
              Reports marketDate asOf references' observations' member flag := by
        rintro flag (rfl | rfl)
        · exact exists_reports_of_known hreferences hobservations
            (fun r o hknown hfound => (stockPrices_reports hknown o).1.mpr hfound) haction
        · exact exists_reports_of_known hreferences hobservations
            (fun r o hknown hfound => (stockPrices_reports hknown o).2.mpr hfound) htime
      constructor
      · refine reported_of_reported (sameUntil_symm hreferences) (sameUntil_symm hobservations)
          fun flag hflag => ?_
        obtain ⟨member, hmember, hreport, -⟩ := hboth flag hflag
        exact ⟨member, hmember, hreport⟩
      · refine reported_of_reported hreferences hobservations fun flag hflag => ?_
        obtain ⟨member, hmember, -, hreport⟩ := hboth flag hflag
        exact ⟨member, hmember, hreport⟩

end Metrics

/-- The time of the calculation. -/
def noon : Datetime := (Date.august 3).seoul 12 0

def singleMembership : ThemeMembershipSnapshot :=
  ⟨{ themeId := "theme-1", version := "m1", effectiveFrom := noon.date, knownAt := noon
     members := [⟨"KRX:005930", .core, stock005930_ne⟩] }, by decide⟩

/-- A reference of the stock, known from an hour on. -/
def hourlyReference (hour : Nat) (hhour : hour < 24) (resolved : Bool) : StockReference :=
  ⟨{ stockId := "KRX:005930", effectiveFor := noon.date
     knownAt := { noon with hour, valid := ⟨hhour, noon.valid.2⟩ }
     previousAdjustedClose := some (.ofNat 69000), listedShares := some 1000
     freeFloatRatio := some (.ofNat 1), freeFloatValidated := true, version := "r1"
     corporateActionResolved := resolved }, rfl⟩

/-- A price that is observed an hour after the calculation. -/
def laterObservation (price : Nat) : StockMarketObservation.Fields where
  stockId := "KRX:005930"
  marketDate := noon.date
  observedAt := (Date.august 3).seoul 13 0
  currentPrice := some (.ofNat price)
  cumulativeTradingValue := none

/-- Two prices that are observed after the calculation are not told apart. -/
theorem calculateThemeMetrics_foresight_laterObservation :
    ∃ m m', calculateThemeMetrics noon.date noon singleMembership
        [hourlyReference 8 (by decide) true] [laterObservation 70000]
        THEME_CALCULATION_POLICY_V1 = .ok m ∧
      calculateThemeMetrics noon.date noon singleMembership [hourlyReference 8 (by decide) true]
        [laterObservation 71000] THEME_CALCULATION_POLICY_V1 = .ok m' ∧
      SameMetrics m m' ∧ m'.qualityFlags = m.qualityFlags := by
  have hok : (calculateThemeMetrics noon.date noon singleMembership
      [hourlyReference 8 (by decide) true] [laterObservation 70000]
      THEME_CALCULATION_POLICY_V1).isOk = true := by
    decide +kernel
  have hreferences : SameReferences noon [hourlyReference 8 (by decide) true]
      [hourlyReference 8 (by decide) true] := .cons (.inl rfl) .nil
  have hobservations : SameObservations noon [laterObservation 70000] [laterObservation 71000] :=
    .cons (.inr ⟨rfl, by decide, by decide⟩) .nil
  cases h : calculateThemeMetrics noon.date noon singleMembership
      [hourlyReference 8 (by decide) true] [laterObservation 70000]
      THEME_CALCULATION_POLICY_V1 with
  | error e =>
    rw [h] at hok
    cases hok
  | ok m =>
    obtain ⟨hsame, hflags⟩ := calculateThemeMetrics_foresight h
    obtain ⟨m', hm', hmetrics⟩ := hsame _ _ hreferences hobservations
    refine ⟨m, m', rfl, hm', hmetrics, hflags.mpr (.inl fun member _ r hr => ?_) _ _ m'
      hreferences hobservations hm'⟩
    obtain rfl := List.mem_singleton.mp (List.mem_of_find?_eq_some hr)
    decide

/-- Two references that become known an hour after the calculation are told apart by a flag. -/
theorem qualityFlags_differ_laterReference :
    SameReferences noon [hourlyReference 13 (by decide) true]
      [hourlyReference 13 (by decide) false] ∧
      (calculateThemeMetrics noon.date noon singleMembership [hourlyReference 13 (by decide) true]
        [] THEME_CALCULATION_POLICY_V1).map (fun m => m.qualityFlags) =
          .ok ["FREE_FLOAT_UNAVAILABLE", "INSUFFICIENT_COVERAGE", "INSUFFICIENT_OBSERVATIONS",
            "POINT_IN_TIME_VIOLATION"] ∧
      (calculateThemeMetrics noon.date noon singleMembership [hourlyReference 13 (by decide) false]
        [] THEME_CALCULATION_POLICY_V1).map (fun m => m.qualityFlags) =
          .ok ["CORPORATE_ACTION_UNRESOLVED", "FREE_FLOAT_UNAVAILABLE", "INSUFFICIENT_COVERAGE",
            "INSUFFICIENT_OBSERVATIONS"] := by
  refine ⟨.cons (.inr ⟨rfl, by decide, by decide⟩) .nil, ?_, ?_⟩
  · decide +kernel
  · decide +kernel

end Dayjaview.Calculations
