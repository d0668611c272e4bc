import Dayjaview.Reference.HoldingSelection

/-!
# Known holdings and the free float

A category is declared for its own date, but the holdings that count are those of the newest
disclosure of the stock. A holding that was declared for an older date is deducted exactly when
the newest disclosure still names its holder with the same number of shares.
-/

namespace Dayjaview.Reference

namespace FloatRequest

variable {q : FloatRequest} {order : SetOrder SourceDataset} {observations : List FieldObservation}
  {holdings : List NonFloatHolding} {declarations : List HoldingCoverageDeclaration}

theorem exists_value_of_verified
    (h : (q.resolveListedCommonShares observations).state = .verified) :
    ∃ v ∈ q.latestShares observations .opendartStockTotal,
      (q.resolveListedCommonShares observations).value = some v.value := by
  unfold resolveListedCommonShares at h ⊢
  dsimp only at h ⊢
  split at h
  · cases h
  · next hmissing =>
    rw [if_neg hmissing]
    split at h
    · cases h
    · next hstale =>
      rw [if_neg hstale]
      split at h
      · cases h
      · next hconflict =>
        rw [if_neg hconflict]
        have hne : q.latestShares observations .opendartStockTotal ≠ [] := by
          intro hnil
          exact hmissing (by simp [fieldSourcePriority, hnil])
        obtain ⟨v, rest, hv⟩ := List.exists_cons_of_ne_nil hne
        refine ⟨v, by rw [hv]; exact List.mem_cons_self, ?_⟩
        simp [fieldSourcePriority, hv]

theorem of_verified {r : FreeFloatResult}
    (h : q.calculateFreeFloat order observations holdings declarations = .ok r)
    (hverified : r.state = .verified) :
    ∃ issued ratio, (q.resolveListedCommonShares observations).value = some issued ∧
      (q.selectHoldings order holdings).conflict = false ∧
      ((q.selectHoldings order holdings).selected.map (·.shares)).sum ≤ issued ∧
      Decimal.div 60
        (.ofInt (issued - ((q.selectHoldings order holdings).selected.map (·.shares)).sum))
        (.ofInt issued) = .ok ratio ∧
      r.ratio = some ratio ∧ r.issuedCommonShares = some issued ∧
      r.deductedNonFloatShares =
        some ((q.selectHoldings order holdings).selected.map (·.shares)).sum ∧
      r.freeFloatShares =
        some (issued - ((q.selectHoldings order holdings).selected.map (·.shares)).sum) := by
  unfold calculateFreeFloat at h
  dsimp only at h
  split at h
  · next issued hstate hvalue =>
    split at h
    · cases h
      cases hverified
    · next hconflict =>
      split at h
      · cases h
        cases hverified
      · split at h
        · cases h
          cases hverified
        · split at h
          · cases h
            cases hverified
          · next hle =>
            obtain ⟨ratio, hratio, hr⟩ := bind_eq_ok.mp h
            cases hr
            have hnone : (q.selectHoldings order holdings).conflict = false := by
              rw [Bool.not_eq_true, Bool.or_eq_false_iff] at hconflict
              exact hconflict.2
            exact ⟨issued, ratio, hvalue, hnone, not_lt.mp hle, hratio, rfl, rfl, rfl, rfl⟩
  · next hother =>
    cases h
    obtain ⟨v, -, hv⟩ := exists_value_of_verified hverified
    exact absurd hv (hother v.value hverified)

/-- A holding of a category that was known for a date: the latest row of its holder, class of
shares and source. -/
def KnownFor (q : FloatRequest) (holdings : List NonFloatHolding) (category : NonFloatCategory)
    (effectiveOn : Date) (h : NonFloatHolding) : Prop :=
  h.category = category ∧
    h ∈ latestRows (fun r => r.metadata.rank) ((q.eligibleHoldings holdings).filter fun r =>
      decide (r.economicKey = h.economicKey) && decide (r.metadata.dataset = h.metadata.dataset) &&
        decide (r.effectiveOn = effectiveOn))

/-- A holding is deducted once, by a row of its holder and class with its number of shares. -/
def DeductedOnce (q : FloatRequest) (order : SetOrder SourceDataset)
    (holdings : List NonFloatHolding) (h : NonFloatHolding) : Prop :=
  ∃ g, (q.selectHoldings order holdings).selected.filter
    (fun r => decide (r.economicKey = h.economicKey)) = [g] ∧ g.shares = h.shares

/-- The newest disclosure names the holder with the same number of shares. -/
def StillDisclosed (q : FloatRequest) (holdings : List NonFloatHolding) (h : NonFloatHolding) :
    Prop :=
  ∃ r, q.NewestRow holdings r ∧ r.economicKey = h.economicKey ∧ r.shares = h.shares

theorem deductedOnce_iff (hconflict : (q.selectHoldings order holdings).conflict = false)
    {h : NonFloatHolding} : q.DeductedOnce order holdings h ↔ q.StillDisclosed holdings h := by
  constructor
  · rintro ⟨g, hg, hshares⟩
    have hmem : g ∈ (q.selectHoldings order holdings).selected.filter
        (fun r => decide (r.economicKey = h.economicKey)) := by
      rw [hg]
      exact List.mem_singleton_self g
    obtain ⟨hselected, hkey⟩ := List.mem_filter.mp hmem
    exact ⟨g, newestRow_of_selected hselected, of_decide_eq_true hkey, hshares⟩
  · rintro ⟨r, hr, hkey, hshares⟩
    obtain ⟨g, hg, hgkey, hcounted⟩ := exists_selected hconflict hr
    have hgshares : g.shares = r.shares := congrArg Prod.fst hcounted
    refine ⟨g, ?_, hgshares.trans hshares⟩
    rw [← hkey, ← hgkey]
    exact filter_key_eq_singleton (nodup_selected order holdings) hg

/-- In a free float that can be trusted, all holdings of the categories that are declared in full
are deducted once, exactly when the newest disclosure of the stock still names each of them. -/
theorem deducts_known_iff {r : FreeFloatResult}
    (h : q.calculateFreeFloat order observations holdings declarations = .ok r)
    (hverified : r.state = .verified) :
    r.deductedNonFloatShares =
        some ((q.selectHoldings order holdings).selected.map (·.shares)).sum ∧
      ((∀ category ∈ q.policy.requiredNonFloatCategories, ∀ d,
          selectedDeclaration order (q.declaredValues declarations category) = some d →
            d.status = .complete → ∀ known, q.KnownFor holdings category d.effectiveOn known →
              q.DeductedOnce order holdings known) ↔
        ∀ category ∈ q.policy.requiredNonFloatCategories, ∀ d,
          selectedDeclaration order (q.declaredValues declarations category) = some d →
            d.status = .complete → ∀ known, q.KnownFor holdings category d.effectiveOn known →
              q.StillDisclosed holdings known) := by
  obtain ⟨issued, ratio, -, hconflict, -, -, -, -, hdeducted, -⟩ := of_verified h hverified
  refine ⟨hdeducted, ?_⟩
  simp only [deductedOnce_iff hconflict]

def september : Date := ⟨2025, 9, 30, by decide⟩

def december : Date := ⟨2025, 12, 31, by decide⟩

/-- The day that is asked about. -/
def april : Date := ⟨2026, 4, 1, by decide⟩

/-- When everything was collected. -/
def gatheredAt : Datetime :=
  ⟨april, 8, 0, 0, 0, 0, by decide, by decide, by decide, by decide, by decide⟩

/-- The metadata of a collection. -/
def gathered (dataset : SourceDataset) : SourceMetadata.Fields where
  provider := .opendart
  dataset := dataset
  endpoint := "https://opendart.fss.or.kr/api"
  sourceKey := dataset.value
  asOf := gatheredAt
  collectedAt := gatheredAt
  parserVersion := "dart-1"
  revision := 1
  lineage := [dataset.value]

def hundredShares : FieldObservation :=
  ⟨⟨"005930", .listedCommonShares, 100, december, .common,
    ⟨gathered .opendartStockTotal, by decide⟩⟩, by decide +kernel⟩

/-- Treasury shares of September. -/
def treasuryOfSeptember : NonFloatHolding :=
  ⟨⟨"005930", "TREASURY", "treasury", .treasury, .common, 10, september,
    ⟨gathered .opendartTreasuryStatus, by decide⟩⟩, by decide +kernel⟩

def holderOfDecember : NonFloatHolding :=
  ⟨⟨"005930", "HOLDER", "holder", .controllingHolder, .common, 20, december,
    ⟨gathered .opendartLargestShareholder, by decide⟩⟩, by decide +kernel⟩

/-- The treasury shares are declared in full for September. -/
def treasuryDeclared : HoldingCoverageDeclaration :=
  ⟨⟨"005930", .treasury, .complete, september, ⟨gathered .opendartTreasuryStatus, by decide⟩⟩,
    by decide +kernel⟩

/-- The holders are declared in full for December. -/
def holdersDeclared : HoldingCoverageDeclaration :=
  ⟨⟨"005930", .controllingHolder, .complete, december,
    ⟨gathered .opendartLargestShareholder, by decide⟩⟩, by decide +kernel⟩

/-- Both categories are asked for. -/
def askedInApril : FloatRequest where
  stockCode := "005930"
  marketDate := april
  decisionAt := gatheredAt
  policy := ⟨⟨"float-1", 400 * dayMicros, ⟨false, 9, -1⟩, [.treasury, .controllingHolder]⟩,
    by decide +kernel⟩

/-- The sources are walked through as they came. -/
def asTheyCame : SetOrder SourceDataset := .insertion SourceDataset

def eightyFloat : FreeFloatResult where
  stockCode := "005930"
  effectiveOn := april
  ratio := some ⟨false, 8, -1⟩
  issuedCommonShares := some 100
  deductedNonFloatShares := some 20
  freeFloatShares := some 80
  state := .verified
  qualityFlags := []
  duplicateDeductionsPrevented := 0
  calculationVersion := "float-1"
  lineage := ["OPENDART_LARGEST_SHAREHOLDER", "OPENDART_STOCK_TOTAL", "OPENDART_TREASURY_STATUS"]

theorem eightyFloat_eq : askedInApril.calculateFreeFloat asTheyCame [hundredShares]
    [treasuryOfSeptember, holderOfDecember] [treasuryDeclared, holdersDeclared] =
      .ok eightyFloat := by
  decide +kernel

/-- Eighty of a hundred shares float. -/
theorem deducts_known_eighty :
    eightyFloat.deductedNonFloatShares = some ((askedInApril.selectHoldings asTheyCame
        [treasuryOfSeptember, holderOfDecember]).selected.map (·.shares)).sum ∧
      ((∀ category ∈ askedInApril.policy.requiredNonFloatCategories, ∀ d,
          selectedDeclaration asTheyCame (askedInApril.declaredValues
            [treasuryDeclared, holdersDeclared] category) = some d →
            d.status = .complete → ∀ known, askedInApril.KnownFor
              [treasuryOfSeptember, holderOfDecember] category d.effectiveOn known →
                askedInApril.DeductedOnce asTheyCame [treasuryOfSeptember, holderOfDecember]
                known) ↔
        ∀ category ∈ askedInApril.policy.requiredNonFloatCategories, ∀ d,
          selectedDeclaration asTheyCame (askedInApril.declaredValues
            [treasuryDeclared, holdersDeclared] category) = some d →
            d.status = .complete → ∀ known, askedInApril.KnownFor
              [treasuryOfSeptember, holderOfDecember] category d.effectiveOn known →
                askedInApril.StillDisclosed [treasuryOfSeptember, holderOfDecember] known) :=
  deducts_known_iff eightyFloat_eq rfl

/-- Treasury shares that were declared in full for an older date float. -/
theorem treasury_floats :
    askedInApril.calculateFreeFloat asTheyCame [hundredShares]
        [treasuryOfSeptember, holderOfDecember] [treasuryDeclared, holdersDeclared] =
      .ok eightyFloat ∧ eightyFloat.state = .verified ∧
      ¬ ∀ category ∈ askedInApril.policy.requiredNonFloatCategories, ∀ d,
        selectedDeclaration asTheyCame (askedInApril.declaredValues
          [treasuryDeclared, holdersDeclared] category) = some d →
          d.status = .complete → ∀ known, askedInApril.KnownFor
            [treasuryOfSeptember, holderOfDecember] category d.effectiveOn known →
              askedInApril.DeductedOnce asTheyCame [treasuryOfSeptember, holderOfDecember]
              known := by
  refine ⟨eightyFloat_eq, rfl, fun h => ?_⟩
  have hselected : selectedDeclaration asTheyCame (askedInApril.declaredValues
      [treasuryDeclared, holdersDeclared] .treasury) = some treasuryDeclared := by
    decide +kernel
  have hknown : askedInApril.KnownFor [treasuryOfSeptember, holderOfDecember] .treasury september
      treasuryOfSeptember := by
    refine ⟨rfl, ?_⟩
    decide +kernel
  have hnone : (askedInApril.selectHoldings asTheyCame
      [treasuryOfSeptember, holderOfDecember]).selected.filter (fun r =>
        decide (r.economicKey = treasuryOfSeptember.economicKey)) = [] := by
    decide +kernel
  obtain ⟨g, hg, -⟩ := h .treasury (by decide) treasuryDeclared hselected rfl _ hknown
  rw [hnone] at hg
  cases hg

end FloatRequest

end Dayjaview.Reference
