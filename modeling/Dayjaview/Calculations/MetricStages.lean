import Dayjaview.Calculations.ThemeMetrics

/-!
# The stages of the metrics of a theme

The members are observed first: their returns, what stands in the way of the
others, the capitalisations of the core and the coverage. Weights, weighted return,
median and breadth are computed from that.
-/

namespace Dayjaview.Calculations

open Dayjaview.Domain

/-- What is known of a theme once its members are observed. -/
@[ext] structure ObservedTheme where
  referenceByStock : Dict String StockReference
  orderedMembers : List ThemeMember
  coreMembers : List ThemeMember
  returnsByStock : Dict String Decimal
  findings : Findings
  missing : List String
  observedCore : List (String × Decimal)
  coverage : Coverage

/-- The number of members with a return. -/
def ObservedTheme.validCount (o : ObservedTheme) : Nat := o.returnsByStock.entries.length

/-- The members of a theme by stock. -/
def orderedMembers (membership : ThemeMembershipSnapshot) : List ThemeMember :=
  membership.members.insertionSort fun a b => a.stockId ≤ b.stockId

/-- The core members of a theme by stock. -/
def coreMembers (membership : ThemeMembershipSnapshot) : List ThemeMember :=
  (orderedMembers membership).filter fun member => member.role == .core

/-- Record that some core members have no capitalisation. -/
def Findings.withoutCapitalization (findings : Findings) (missing : List String) : Findings :=
  if missing.isEmpty then findings
  else (findings.flag .freeFloatUnavailable).issue .missingReferenceData missing

/-- Record how far the members are observed. -/
def Findings.withCoverage (findings : Findings) (status : CoverageStatus) (few : Prop)
    [Decidable few] : Findings :=
  let findings := match status with
    | .partialCoverage => findings.flag .partialCoverage
    | .insufficient => findings.flag .insufficientCoverage
    | .sufficient => findings
  if few then (findings.flag .insufficientObservations).issue .insufficientObservations []
  else findings

/-- The share of the core's capitalisation that is observed, when all of it is known. -/
def observedWeightRatioOf (membership : ThemeMembershipSnapshot) (known : List (String × Decimal))
    (observed missing : List String) : Except Error (Option Decimal) :=
  if (coreMembers membership).isEmpty = false ∧ missing.isEmpty then observedWeight known observed
  else .ok none

/-- The share of advancing members among those with a return. -/
def advancingRatioOf (advancing validCount : Nat) : Except Error (Option Decimal) :=
  if validCount = 0 then .ok none
  else do return some (← Decimal.div 60 (.ofNat advancing) (.ofNat validCount))

/-- The coverage of a theme from the returns of its members and the capitalisations of its core. -/
def coverageOf (membership : ThemeMembershipSnapshot) (returnsByStock : Dict String Decimal)
    (known : List (String × Decimal)) (missing : List String) (policy : ThemeCalculationPolicy) :
    Except Error Coverage := do
  let observedCoreIds :=
    (known.filter fun e => (returnsByStock.get? e.1).isSome).map Prod.fst
  let observedWeightRatio ← observedWeightRatioOf membership known observedCoreIds missing
  let core ← CoveragePart.fromCounts observedCoreIds.length (coreMembers membership).length
    observedWeightRatio
  let related ← CoveragePart.fromCounts returnsByStock.entries.length
    (orderedMembers membership).length none
  return ⟨determineCoverageStatus core related returnsByStock.entries.length policy, core, related⟩

/-- Observe the members of a theme. -/
def observeTheme (marketDate : Date) (asOf : Datetime) (membership : ThemeMembershipSnapshot)
    (references : List StockReference) (observations : List StockMarketObservation.Fields)
    (policy : ThemeCalculationPolicy) : Except Error ObservedTheme := do
  ensure (¬ (marketDate < membership.effectiveFrom ∨ asOf < membership.knownAt))
    "계산 시점에 알려지지 않은 membership은 사용할 수 없습니다"
  let referenceByStock ← indexUnique (fun r => r.stockId) "references" references .empty
  let observationByStock ← indexUnique (fun o => o.stockId) "observations" observations .empty
  let (returnsByStock, findings) ← memberReturns (orderedMembers membership) marketDate asOf
    referenceByStock observationByStock
  let capitalizations ←
    (coreMembers membership).mapM (memberCapitalization marketDate asOf referenceByStock)
  let missing := (capitalizations.filter fun e => e.2.isNone).map Prod.fst
  let known := capitalizations.filterMap fun e => e.2.map (Prod.mk e.1)
  let observedCore := known.filter fun e => (returnsByStock.get? e.1).isSome
  let coverage ← coverageOf membership returnsByStock known missing policy
  return {
    referenceByStock
    orderedMembers := orderedMembers membership
    coreMembers := coreMembers membership
    returnsByStock
    findings := (findings.withoutCapitalization missing).withCoverage coverage.status
      ((observedCore.length : Int) < policy.minimumCoreObservations ∨
        (returnsByStock.entries.length : Int) < policy.minimumTotalObservations)
    missing
    observedCore
    coverage }

/-- The weights of the observed core and the return under them. -/
def weightsOf (o : ObservedTheme) (policy : ThemeCalculationPolicy) :
    Except Error (List CappedWeight × Option Decimal) :=
  let observedCoreIds := o.observedCore.map Prod.fst
  if o.missing.isEmpty ∧ policy.minimumCoreObservations ≤ (observedCoreIds.length : Int) then do
    let weights ← calculateCappedWeights
      (o.observedCore.map fun e => CapitalizationInput.mk e.1 e.2) policy.maximumConstituentWeight
    let returns := Dict.ofList (observedCoreIds.filterMap fun stockId =>
      (o.returnsByStock.get? stockId).map (Prod.mk stockId))
    pure (weights, some (← calculateWeightedReturn weights returns))
  else pure ([], none)

/-- The metrics of a theme whose members are observed. -/
def deriveMetrics (membership : ThemeMembershipSnapshot) (policy : ThemeCalculationPolicy)
    (o : ObservedTheme) : Except Error ThemeMetrics := do
  let (cappedWeights, weightedReturn) ← weightsOf o policy
  let medianReturn ← median o.returnsByStock.values
  let advancing := o.returnsByStock.values.countP fun r => Decimal.zero < r
  let advancingRatio ← advancingRatioOf advancing o.validCount
  let dataIssues := (o.findings.issueStockIds.entries.filter fun e => e.2 ≠ []).map fun e =>
    ({ metric := "constituentData", reason := e.1, stockIds := sortedTexts e.2 } : MetricIssue)
  let weightedIssues := if weightedReturn.isSome then [] else
    [({ metric := "weightedReturn"
        reason := if o.coreMembers.isEmpty then .emptyMembership else .insufficientCoverage } :
      MetricIssue)]
  let medianIssues := if medianReturn.isSome then [] else
    [({ metric := "medianReturn", reason := .insufficientObservations } : MetricIssue)]
  let versions := o.orderedMembers.filterMap fun member =>
    (o.referenceByStock.get? member.stockId).map fun r => r.version
  return {
    calculationVersion := policy.version
    policyMaturity := policy.maturity.value
    membershipVersion := membership.version
    weightedReturn
    medianReturn
    advancingCount := if o.validCount = 0 then none else some advancing
    validCount := if o.validCount = 0 then none else some o.validCount
    advancingRatio
    coverage := o.coverage
    cappedWeights
    qualityFlags := sortedTexts o.findings.qualityFlags
    issues := (dataIssues ++ weightedIssues ++ medianIssues).insertionSort fun a b =>
      a.rank ≤ b.rank
    referenceVersions := sortedTexts versions }

theorem calculateThemeMetrics_eq (marketDate : Date) (asOf : Datetime)
    (membership : ThemeMembershipSnapshot) (references : List StockReference)
    (observations : List StockMarketObservation.Fields) (policy : ThemeCalculationPolicy) :
    calculateThemeMetrics marketDate asOf membership references observations policy =
      observeTheme marketDate asOf membership references observations policy >>=
        deriveMetrics membership policy := by
  unfold calculateThemeMetrics observeTheme
  simp only [bind_assoc, pure_bind]
  refine bind_congr fun _ => bind_congr fun references => bind_congr fun observations =>
    bind_congr fun returns => bind_congr fun capitalizations => ?_
  unfold coverageOf deriveMetrics weightsOf observedWeightRatioOf advancingRatioOf coreMembers
    orderedMembers Findings.withCoverage Findings.withoutCapitalization
  dsimp only [ObservedTheme.validCount]
  generalize (capitalizations.filter fun e => e.2.isNone).map Prod.fst = missing
  generalize capitalizations.filterMap (fun e => e.2.map (Prod.mk e.1)) = known
  -- the stages are the same one by one, on either side of each condition
  by_cases hratio : ((membership.members.insertionSort fun a b => a.stockId ≤ b.stockId).filter
      fun member => member.role == .core).isEmpty = false ∧ missing.isEmpty = true
  · simp only [if_pos hratio, bind_assoc, pure_bind, List.length_map]
    refine bind_congr fun ratio => bind_congr fun core => bind_congr fun related => ?_
    by_cases hnone : returns.1.entries.length = 0
    · simp only [hnone, if_true]
      split
      · simp only [bind_assoc, pure_bind]
        rfl
      · simp only [pure_bind]
        rfl
    · simp only [hnone, if_false]
      cases determineCoverageStatus core related returns.1.entries.length policy
      all_goals
        split
        · simp only [bind_assoc, pure_bind]
        · simp only [bind_assoc, pure_bind]
  · simp only [if_neg hratio, bind_assoc, pure_bind, List.length_map]
    refine bind_congr fun core => bind_congr fun related => ?_
    by_cases hnone : returns.1.entries.length = 0
    · simp only [hnone, if_true]
      split
      · simp only [bind_assoc, pure_bind]
        rfl
      · simp only [pure_bind]
        rfl
    · simp only [hnone, if_false]
      cases determineCoverageStatus core related returns.1.entries.length policy
      all_goals
        split
        · simp only [bind_assoc, pure_bind]
        · simp only [bind_assoc, pure_bind]

section Index

variable {α : Type} {stockId : α → String} {label : String}

theorem indexUnique_eq_ok {records : List α} {index index' : Dict String α}
    (h : indexUnique stockId label records index = .ok index') :
    (records.map stockId).Nodup ∧ (∀ r ∈ records, index.get? (stockId r) = none) ∧
      ∀ k, index'.get? k = (records.find? fun r => stockId r = k).or (index.get? k) := by
  induction records generalizing index with
  | nil =>
    cases h
    exact ⟨List.nodup_nil, by simp, fun k => rfl⟩
  | cons record records ih =>
    rw [indexUnique] at h
    split at h
    · cases h
    · next hfresh =>
      have hnone : index.get? (stockId record) = none := by simpa using hfresh
      obtain ⟨hnodup, hother, hget⟩ := ih h
      have hne : ∀ r ∈ records, stockId r ≠ stockId record := by
        intro r hr heq
        have hset := hother r hr
        rw [heq, Dict.get?_set_self] at hset
        cases hset
      refine ⟨?_, ?_, fun k => ?_⟩
      · rw [List.map_cons, List.nodup_cons]
        refine ⟨fun hmem => ?_, hnodup⟩
        obtain ⟨r, hr, heq⟩ := List.mem_map.mp hmem
        exact hne r hr heq
      · intro r hr
        rcases List.mem_cons.mp hr with rfl | hr
        · exact hnone
        · have hset := hother r hr
          rw [Dict.get?_set_of_ne _ _ (hne r hr)] at hset
          exact hset
      · rw [hget k]
        by_cases hk : stockId record = k
        · have hfind : records.find? (fun r => decide (stockId r = k)) = none := by
            rw [List.find?_eq_none]
            intro r hr heq
            exact hne r hr ((of_decide_eq_true heq).trans hk.symm)
          rw [hfind, List.find?_cons_of_pos (by simpa using hk), ← hk, Dict.get?_set_self]
          rfl
        · rw [List.find?_cons_of_neg (by simpa using hk), Dict.get?_set_of_ne _ _ (Ne.symm hk)]

theorem exists_indexUnique {records : List α} {index : Dict String α}
    (hnodup : (records.map stockId).Nodup)
    (hfresh : ∀ r ∈ records, index.get? (stockId r) = none) :
    ∃ index', indexUnique stockId label records index = .ok index' := by
  induction records generalizing index with
  | nil => exact ⟨index, rfl⟩
  | cons record records ih =>
    rw [List.map_cons, List.nodup_cons] at hnodup
    rw [indexUnique, hfresh record (List.mem_cons_self ..)]
    refine ih hnodup.2 fun r hr => ?_
    rw [Dict.get?_set_of_ne]
    · exact hfresh r (List.mem_cons_of_mem _ hr)
    · intro heq
      exact hnodup.1 (heq ▸ List.mem_map_of_mem hr)

theorem mem_of_indexUnique {records : List α} {index : Dict String α} {k : String} {r : α}
    (h : indexUnique stockId label records .empty = .ok index) (hget : index.get? k = some r) :
    r ∈ records ∧ stockId r = k := by
  rw [(indexUnique_eq_ok h).2.2 k, Dict.get?_empty, Option.or_none] at hget
  exact ⟨List.mem_of_find?_eq_some hget, by simpa using List.find?_some hget⟩

end Index

section Returns

variable {marketDate : Date} {asOf : Datetime} {references : Dict String StockReference}
  {observations : Dict String StockMarketObservation.Fields}

/-- The close and the price of a member, or why it has no return. -/
def memberPrices (marketDate : Date) (asOf : Datetime) (references : Dict String StockReference)
    (observations : Dict String StockMarketObservation.Fields) (member : ThemeMember) :
    Sum (QualityFlag × UnavailableReason) (Decimal × Decimal) :=
  stockPrices marketDate asOf (references.get? member.stockId) (observations.get? member.stockId)

def returnOver (close price : Decimal) : Except Error Decimal := do
  let quotient ← Decimal.div 60 price close
  Decimal.sub 60 quotient (.ofNat 1)

/-- Add what a member contributes to the returns and findings. -/
def memberStep (marketDate : Date) (asOf : Datetime) (references : Dict String StockReference)
    (observations : Dict String StockMarketObservation.Fields)
    (acc : Dict String Decimal × Findings) (member : ThemeMember) :
    Except Error (Dict String Decimal × Findings) :=
  match memberPrices marketDate asOf references observations member with
  | .inl (flag, reason) => .ok (acc.1, (acc.2.flag flag).issue reason [member.stockId])
  | .inr (close, price) => (returnOver close price).map fun value =>
    (acc.1.set member.stockId value, acc.2)

theorem memberReturns_eq (members : List ThemeMember) :
    memberReturns members marketDate asOf references observations =
      members.foldlM (memberStep marketDate asOf references observations) (.empty, .empty) := by
  unfold memberReturns
  congr 1
  funext acc member
  unfold stockReturn memberStep memberPrices returnOver
  cases stockPrices marketDate asOf (references.get? member.stockId)
    (observations.get? member.stockId) with
  | inl finding => rfl
  | inr prices =>
    obtain ⟨close, price⟩ := prices
    dsimp only
    cases Decimal.div 60 price close with
    | error e => rfl
    | ok quotient =>
      dsimp only [bind, Except.bind]
      cases Decimal.sub 60 quotient (.ofNat 1) <;> rfl

variable {acc acc' : Dict String Decimal × Findings} {members : List ThemeMember}

theorem memberStep_eq_ok {member : ThemeMember}
    (h : memberStep marketDate asOf references observations acc member = .ok acc') :
    (∃ flag reason, memberPrices marketDate asOf references observations member =
        .inl (flag, reason) ∧
        acc' = (acc.1, (acc.2.flag flag).issue reason [member.stockId])) ∨
      ∃ close price value, memberPrices marketDate asOf references observations member =
        .inr (close, price) ∧ returnOver close price = .ok value ∧
        acc' = (acc.1.set member.stockId value, acc.2) := by
  unfold memberStep at h
  split at h
  · next flag reason heq => exact .inl ⟨flag, reason, heq, (Except.ok.inj h).symm⟩
  · next close price heq =>
    cases hvalue : returnOver close price with
    | error e =>
      rw [hvalue] at h
      cases h
    | ok value =>
      rw [hvalue] at h
      exact .inr ⟨close, price, value, heq, hvalue, (Except.ok.inj h).symm⟩

private theorem flags_foldlM
    (h : members.foldlM (memberStep marketDate asOf references observations) acc = .ok acc')
    (t : String) :
    t ∈ acc'.2.qualityFlags ↔ t ∈ acc.2.qualityFlags ∨ ∃ member ∈ members, ∃ flag reason,
      memberPrices marketDate asOf references observations member = .inl (flag, reason) ∧
        flag.value = t := by
  induction members generalizing acc with
  | nil =>
    cases h
    simp
  | cons member members ih =>
    rw [List.foldlM_cons] at h
    obtain ⟨next, hnext, h⟩ := bind_eq_ok.mp h
    rw [ih h]
    rcases memberStep_eq_ok hnext with ⟨flag, reason, hprices, rfl⟩ |
        ⟨close, price, value, hprices, -, rfl⟩
    · simp [hprices, Findings.flag, Findings.issue, or_assoc, or_left_comm, eq_comm]
    · simp [hprices]

theorem mem_flags_of_memberReturns {returns : Dict String Decimal} {findings : Findings}
    (h : memberReturns members marketDate asOf references observations = .ok (returns, findings))
    (t : String) :
    t ∈ findings.qualityFlags ↔ ∃ member ∈ members, ∃ flag reason,
      memberPrices marketDate asOf references observations member = .inl (flag, reason) ∧
        flag.value = t := by
  rw [memberReturns_eq] at h
  rw [flags_foldlM h]
  simp [Findings.empty]

private theorem keys_foldlM
    (h : members.foldlM (memberStep marketDate asOf references observations) acc = .ok acc')
    {k : String} (hk : (acc'.1.get? k).isSome) :
    (acc.1.get? k).isSome ∨ ∃ member ∈ members, member.stockId = k := by
  induction members generalizing acc with
  | nil =>
    cases h
    exact .inl hk
  | cons member members ih =>
    rw [List.foldlM_cons] at h
    obtain ⟨next, hnext, h⟩ := bind_eq_ok.mp h
    rcases ih h with hbefore | ⟨later, hlater, rfl⟩
    · rcases memberStep_eq_ok hnext with ⟨_, _, -, rfl⟩ | ⟨_, _, value, -, -, rfl⟩
      · exact .inl hbefore
      · by_cases hown : k = member.stockId
        · exact .inr ⟨member, List.mem_cons_self .., hown.symm⟩
        · rw [Dict.get?_set_of_ne _ _ hown] at hbefore
          exact .inl hbefore
    · exact .inr ⟨later, List.mem_cons_of_mem _ hlater, rfl⟩

theorem member_of_memberReturns {returns : Dict String Decimal} {findings : Findings}
    (h : memberReturns members marketDate asOf references observations = .ok (returns, findings))
    {k : String} (hk : (returns.get? k).isSome) : ∃ member ∈ members, member.stockId = k := by
  rw [memberReturns_eq] at h
  rcases keys_foldlM h hk with hnone | hmember
  · cases hnone
  · exact hmember

end Returns

/-- The steps of an observation of a theme that returns. -/
structure Observes (marketDate : Date) (asOf : Datetime) (membership : ThemeMembershipSnapshot)
    (references : List StockReference) (observations : List StockMarketObservation.Fields)
    (policy : ThemeCalculationPolicy)
    (observationByStock : Dict String StockMarketObservation.Fields)
    (findings : Findings) (capitalizations : List (String × Option Decimal))
    (o : ObservedTheme) : Prop where
  usable : ¬ (marketDate < membership.effectiveFrom ∨ asOf < membership.knownAt)
  referenced : indexUnique (fun r => r.stockId) "references" references .empty =
    .ok o.referenceByStock
  observed : indexUnique (fun o => o.stockId) "observations" observations .empty =
    .ok observationByStock
  returns : memberReturns (Dayjaview.Calculations.orderedMembers membership) marketDate asOf
    o.referenceByStock observationByStock = .ok (o.returnsByStock, findings)
  capitalized : (Dayjaview.Calculations.coreMembers membership).mapM
    (memberCapitalization marketDate asOf o.referenceByStock) = .ok capitalizations
  missing : o.missing = (capitalizations.filter fun e => e.2.isNone).map Prod.fst
  observedCore : o.observedCore =
    (capitalizations.filterMap fun e => e.2.map (Prod.mk e.1)).filter fun e =>
      (o.returnsByStock.get? e.1).isSome
  coverage : coverageOf membership o.returnsByStock
    (capitalizations.filterMap fun e => e.2.map (Prod.mk e.1)) o.missing policy = .ok o.coverage
  members : o.orderedMembers = Dayjaview.Calculations.orderedMembers membership ∧
    o.coreMembers = Dayjaview.Calculations.coreMembers membership
  found : o.findings = (findings.withoutCapitalization o.missing).withCoverage o.coverage.status
    ((o.observedCore.length : Int) < policy.minimumCoreObservations ∨
      (o.returnsByStock.entries.length : Int) < policy.minimumTotalObservations)

section Steps

variable {marketDate : Date} {asOf : Datetime} {membership : ThemeMembershipSnapshot}
  {references : List StockReference} {observations : List StockMarketObservation.Fields}
  {policy : ThemeCalculationPolicy} {o : ObservedTheme} {m : ThemeMetrics}

theorem observes_of_ok
    (h : observeTheme marketDate asOf membership references observations policy = .ok o) :
    ∃ observationByStock findings capitalizations, Observes marketDate asOf membership references
      observations policy observationByStock findings capitalizations o := by
  rw [observeTheme, check_bind_eq_ok, ensure_eq_ok] at h
  obtain ⟨husable, h⟩ := h
  obtain ⟨referenceByStock, hreferences, h⟩ := bind_eq_ok.mp h
  obtain ⟨observationByStock, hobservations, h⟩ := bind_eq_ok.mp h
  obtain ⟨⟨returns, findings⟩, hreturns, h⟩ := bind_eq_ok.mp h
  obtain ⟨capitalizations, hcapitalizations, h⟩ := bind_eq_ok.mp h
  obtain ⟨coverage, hcoverage, h⟩ := bind_eq_ok.mp h
  cases h
  exact ⟨observationByStock, findings, capitalizations, husable, hreferences, hobservations,
    hreturns, hcapitalizations, rfl, rfl, hcoverage, ⟨rfl, rfl⟩, rfl⟩

theorem Observes.observeTheme_eq {observationByStock : Dict String StockMarketObservation.Fields}
    {findings : Findings} {capitalizations : List (String × Option Decimal)}
    (h : Observes marketDate asOf membership references observations policy observationByStock
      findings capitalizations o) :
    observeTheme marketDate asOf membership references observations policy = .ok o := by
  have hcoverage := h.coverage
  rw [h.missing] at hcoverage
  rw [observeTheme, check_bind_eq_ok, ensure_eq_ok]
  refine ⟨h.usable, bind_eq_ok.mpr ⟨_, h.referenced, bind_eq_ok.mpr ⟨_, h.observed,
    bind_eq_ok.mpr ⟨_, h.returns, bind_eq_ok.mpr ⟨_, h.capitalized,
      bind_eq_ok.mpr ⟨_, hcoverage, ?_⟩⟩⟩⟩⟩⟩
  refine congrArg Except.ok (ObservedTheme.ext rfl h.members.1.symm h.members.2.symm rfl ?_
    h.missing.symm h.observedCore.symm rfl)
  rw [h.found, h.missing, h.observedCore]

theorem calculateThemeMetrics_eq_ok
    (h : calculateThemeMetrics marketDate asOf membership references observations policy = .ok m) :
    ∃ o, observeTheme marketDate asOf membership references observations policy = .ok o ∧
      deriveMetrics membership policy o = .ok m := by
  rw [calculateThemeMetrics_eq] at h
  exact bind_eq_ok.mp h

theorem deriveMetrics_eq_ok (h : deriveMetrics membership policy o = .ok m) :
    weightsOf o policy = .ok (m.cappedWeights, m.weightedReturn) ∧
      median o.returnsByStock.values = .ok m.medianReturn ∧ m.coverage = o.coverage ∧
      m.validCount = (if o.validCount = 0 then none else some o.validCount) ∧
      m.advancingCount = (if o.validCount = 0 then none
        else some (o.returnsByStock.values.countP fun r => Decimal.zero < r)) ∧
      m.qualityFlags = sortedTexts o.findings.qualityFlags := by
  rw [deriveMetrics, bind_eq_ok] at h
  obtain ⟨⟨weights, weightedReturn⟩, hweights, h⟩ := h
  obtain ⟨middle, hmiddle, h⟩ := bind_eq_ok.mp h
  obtain ⟨ratio, -, h⟩ := bind_eq_ok.mp h
  cases h
  exact ⟨hweights, hmiddle, rfl, rfl, rfl, rfl⟩

theorem weightsOf_eq_ok {weights : List CappedWeight} {weighted : Option Decimal}
    (h : weightsOf o policy = .ok (weights, weighted)) :
    ((o.missing.isEmpty ∧ policy.minimumCoreObservations ≤ (o.observedCore.length : Int)) ∧
        weighted.isSome ∧ calculateCappedWeights
          (o.observedCore.map fun e => CapitalizationInput.mk e.1 e.2)
          policy.maximumConstituentWeight = .ok weights) ∨
      (¬ (o.missing.isEmpty ∧ policy.minimumCoreObservations ≤ (o.observedCore.length : Int)) ∧
        weighted = none ∧ weights = []) := by
  unfold weightsOf at h
  simp only [List.length_map] at h
  split at h
  · next henough =>
    obtain ⟨capped, hcapped, h⟩ := bind_eq_ok.mp h
    obtain ⟨value, -, h⟩ := bind_eq_ok.mp h
    cases h
    exact .inl ⟨henough, rfl, hcapped⟩
  · next hfew =>
    cases h
    exact .inr ⟨hfew, rfl, rfl⟩

theorem mem_of_calculateCappedWeights {inputs : List CapitalizationInput} {cap : Decimal}
    {weights : List CappedWeight} (h : calculateCappedWeights inputs cap = .ok weights)
    {w : CappedWeight} (hw : w ∈ weights) : ∃ c ∈ inputs, c.stockId = w.stockId := by
  rw [calculateCappedWeights, check_bind_eq_ok, ensure_eq_ok] at h
  obtain ⟨-, h⟩ := h
  rw [check_bind_eq_ok] at h
  obtain ⟨-, h⟩ := h
  dsimp only at h
  split at h
  · cases h
    cases hw
  · rw [check_bind_eq_ok] at h
    obtain ⟨-, h⟩ := h
    obtain ⟨inverse, -, h⟩ := bind_eq_ok.mp h
    obtain ⟨fixed, -, h⟩ := bind_eq_ok.mp h
    obtain ⟨settled, -, h⟩ := bind_eq_ok.mp h
    cases h
    obtain ⟨c, hc, hweight⟩ := List.mem_filterMap.mp hw
    obtain ⟨weight, -, rfl⟩ := Option.map_eq_some_iff.mp hweight
    exact ⟨c, (List.mem_insertionSort _).mp hc, rfl⟩

theorem exists_of_memberCapitalization {references : Dict String StockReference}
    {member : ThemeMember} {stockId : String} {capitalization : Decimal}
    (h : memberCapitalization marketDate asOf references member =
      .ok (stockId, some capitalization)) :
    stockId = member.stockId ∧ ∃ r close, references.get? stockId = some r ∧
      r.adjustedReturnReference marketDate asOf = some close := by
  unfold memberCapitalization at h
  split at h
  · cases h
  · next r hr =>
    obtain ⟨value, hvalue, h⟩ := bind_eq_ok.mp h
    cases h
    unfold StockReference.freeFloatMarketCap at hvalue
    split at hvalue
    · next close _ _ hclose _ _ => exact ⟨rfl, r, close, hr, hclose⟩
    · cases hvalue

theorem reference_of_cappedWeight
    (h : calculateThemeMetrics marketDate asOf membership references observations policy = .ok m)
    {w : CappedWeight} (hw : w ∈ m.cappedWeights) :
    ∃ r ∈ references, r.stockId = w.stockId ∧
      (r.adjustedReturnReference marketDate asOf).isSome := by
  obtain ⟨o, ho, hderived⟩ := calculateThemeMetrics_eq_ok h
  obtain ⟨_, _, capitalizations, hobserves⟩ := observes_of_ok ho
  rcases weightsOf_eq_ok (deriveMetrics_eq_ok hderived).1 with ⟨-, -, hcapped⟩ | ⟨-, -, hnil⟩
  · obtain ⟨c, hc, hstock⟩ := mem_of_calculateCappedWeights hcapped hw
    obtain ⟨e, he, rfl⟩ := List.mem_map.mp hc
    rw [hobserves.observedCore] at he
    obtain ⟨found, hfound, hknown⟩ := List.mem_filterMap.mp (List.mem_of_mem_filter he)
    obtain ⟨capitalization, hsome, rfl⟩ := Option.map_eq_some_iff.mp hknown
    obtain ⟨member, -, hmember⟩ := (mem_of_mapM_eq_ok hobserves.capitalized).1 found hfound
    have hpair : found = (found.1, some capitalization) := Prod.ext rfl hsome
    rw [hpair] at hmember
    obtain ⟨-, r, close, hr, hclose⟩ := exists_of_memberCapitalization hmember
    obtain ⟨hmem, hown⟩ := mem_of_indexUnique hobserves.referenced hr
    exact ⟨r, hmem, hown.trans hstock, by rw [hclose]; rfl⟩
  · rw [hnil] at hw
    cases hw

end Steps

end Dayjaview.Calculations
