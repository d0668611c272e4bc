import Dayjaview.Core.Freshest
import Dayjaview.Core.Grouping
import Dayjaview.Reference.Observations

/-!
# The free float of a stock

The shares that float are the issued shares without those that are known not to. Every holder is
deducted once, however many sources name him, and nothing is counted unless each category of
holdings was declared.
-/

namespace Dayjaview.Reference

/-- The sources of the issued shares. -/
def fieldSourcePriority : List SourceDataset := [.opendartStockTotal]

/-- The sources of holdings, the most trusted first. -/
def holdingSourcePriority : List SourceDataset :=
  [.opendartTreasuryStatus, .opendartStockTotal, .opendartLargestShareholder,
    .opendartDisclosureClassification]

/-- What is asked about the free float. -/
structure FloatRequest where
  stockCode : String
  marketDate : Date
  decisionAt : Datetime
  policy : ReferencePolicy

def sortedFlags (flags : List QualityFlag) : List QualityFlag :=
  flags.dedup.insertionSort (fun a b => a.value ≤ b.value)

/-- How many shares were issued. -/
structure FieldResolution where
  value : Option Int
  state : QualityState
  qualityFlags : List QualityFlag
  selected : List FieldObservation
  lineage : List String

/-- The free float, or why there is none. -/
structure FreeFloatResult where
  stockCode : String
  effectiveOn : Date
  ratio : Option Decimal
  issuedCommonShares : Option Int
  deductedNonFloatShares : Option Int
  freeFloatShares : Option Int
  state : QualityState
  qualityFlags : List QualityFlag
  duplicateDeductionsPrevented : Nat
  calculationVersion : String
  lineage : List String
  deriving DecidableEq

def rowSources (values : List SourceMetadata) : List String := textSet (values.flatMap (·.sources))

/-- What the declarations of all categories amount to. -/
structure Coverage where
  missing : Bool
  stale : Bool
  conflict : Bool
  selected : List HoldingCoverageDeclaration

/-- The holdings that are deducted. -/
structure HoldingSelection where
  selected : List NonFloatHolding
  duplicateCount : Nat
  conflict : Bool
  considered : List NonFloatHolding

/-- How far a source is trusted, and then its newest revision. -/
def SourceMetadata.precedence (m : SourceMetadata) : ℕ ×ₗ ℤ ×ₗ String :=
  toLex (holdingSourcePriority.idxOf m.dataset, toLex (-(m.revision : ℤ), m.sourceKey))

/-- The date of a row, when it was known, and its revision. -/
def FieldObservation.rank (o : FieldObservation) : Date ×ₗ ℤ ×ₗ ℕ :=
  toLex (o.effectiveOn, o.metadata.rank)

/-- The date of a row, when it was known, and its revision. -/
def HoldingCoverageDeclaration.rank (d : HoldingCoverageDeclaration) : Date ×ₗ ℤ ×ₗ ℕ :=
  toLex (d.effectiveOn, d.metadata.rank)

namespace FloatRequest

variable (q : FloatRequest)

/-- A row is not later than the day, and was known at the time of the decision. -/
def pitEligible (effectiveOn : Date) (metadata : SourceMetadata) : Bool :=
  decide (effectiveOn ≤ q.marketDate) && decide (metadata.knownAt ≤ q.decisionAt)

def isStale (effectiveOn : Date) : Bool :=
  decide (q.policy.freeFloatStaleAfter <
    ((q.marketDate.toOrdinal : Int) - effectiveOn.toOrdinal) * dayMicros)

/-- The share counts that can be used. -/
def shareCandidates (observations : List FieldObservation) : List FieldObservation :=
  observations.filter fun v => decide (v.stockCode = q.stockCode) &&
    decide (v.field = .listedCommonShares) && q.pitEligible v.effectiveOn v.metadata

/-- The latest share counts of a source. -/
def latestShares (observations : List FieldObservation) (source : SourceDataset) :
    List FieldObservation :=
  latestRows FieldObservation.rank
    (rowsOf (·.metadata.dataset) (q.shareCandidates observations) source)

def resolveListedCommonShares (observations : List FieldObservation) : FieldResolution :=
  let latest := q.latestShares observations
  let internalConflict := fieldSourcePriority.any fun source =>
    decide (latest source ≠ [] ∧ ¬ Uniform (fun v => v.value) (latest source))
  let missing := fieldSourcePriority.filter fun source => decide (latest source = [])
  let selected := fieldSourcePriority.filterMap fun source => (latest source).head?
  let lineage := rowSources (selected.map (·.metadata))
  if missing ≠ [] then
    { value := none
      state := .missing
      qualityFlags := sortedFlags [.freeFloatUnavailable, .sourceMissing]
      selected
      lineage }
  else if selected.any fun v => q.isStale v.effectiveOn then
    { value := none
      state := .stale
      qualityFlags := sortedFlags [.freeFloatUnavailable, .freeFloatStale, .sourceStale]
      selected
      lineage }
  else if internalConflict = true ∨ ¬ Uniform (fun v => v.value) selected then
    { value := none
      state := .conflict
      qualityFlags := sortedFlags [.freeFloatUnavailable, .freeFloatSourceConflict]
      selected
      lineage }
  else
    { value := selected.head?.map (·.value)
      state := .verified
      qualityFlags := []
      selected
      lineage }

/-- The declarations of a category that can be used. -/
def declaredValues (declarations : List HoldingCoverageDeclaration) (category : NonFloatCategory) :
    List HoldingCoverageDeclaration :=
  (declarations.filter fun v => decide (v.stockCode = q.stockCode) &&
    q.pitEligible v.effectiveOn v.metadata).filter fun v => decide (v.category = category)

/-- The latest rows of each source. -/
def latestDeclarations (order : SetOrder SourceDataset) (values : List HoldingCoverageDeclaration) :
    List (List HoldingCoverageDeclaration) :=
  latestByKey order (·.metadata.dataset) HoldingCoverageDeclaration.rank values

/-- The declarations of the newest date, one for each source. -/
def comparableDeclarations (order : SetOrder SourceDataset)
    (values : List HoldingCoverageDeclaration) : List HoldingCoverageDeclaration :=
  latestRows (fun v => v.effectiveOn) ((latestDeclarations order values).filterMap List.head?)

/-- The declaration of a category that counts. -/
def selectedDeclaration (order : SetOrder SourceDataset)
    (values : List HoldingCoverageDeclaration) : Option HoldingCoverageDeclaration :=
  latestOf (fun v => OrderDual.toDual v.metadata.precedence) (comparableDeclarations order values)

/-- The sources of a category disagree. -/
def declarationConflict (order : SetOrder SourceDataset)
    (values : List HoldingCoverageDeclaration) : Bool :=
  (latestDeclarations order values).any (fun rows => decide (¬ Uniform (fun v => v.status) rows)) ||
    decide (¬ Uniform (fun v => v.status) (comparableDeclarations order values))

def coverCategory (order : SetOrder SourceDataset) (declarations : List HoldingCoverageDeclaration)
    (coverage : Coverage) (category : NonFloatCategory) : Coverage :=
  let values := q.declaredValues declarations category
  match selectedDeclaration order values with
  | none => { coverage with missing := true }
  | some latest =>
    { missing := coverage.missing || decide (latest.status = .incomplete)
      stale := coverage.stale || q.isStale latest.effectiveOn
      conflict := coverage.conflict || declarationConflict order values
      selected := coverage.selected ++ [latest] }

/-- What the declarations of all categories amount to. -/
def coverageForCategories (order : SetOrder SourceDataset)
    (declarations : List HoldingCoverageDeclaration) : Coverage :=
  q.policy.requiredNonFloatCategories.foldl (q.coverCategory order declarations)
    ⟨false, false, false, []⟩

/-- The holdings that can be used. -/
def eligibleHoldings (holdings : List NonFloatHolding) : List NonFloatHolding :=
  holdings.filter fun h => decide (h.stockCode = q.stockCode) &&
    q.pitEligible h.effectiveOn h.metadata

/-- The holdings of the newest disclosure. -/
def disclosedHoldings (holdings : List NonFloatHolding) : List NonFloatHolding :=
  latestRows (fun h => h.effectiveOn) (q.eligibleHoldings holdings)

/-- The latest rows of each source. -/
def latestHoldings (order : SetOrder SourceDataset) (group : List NonFloatHolding) :
    List (List NonFloatHolding) :=
  latestByKey order (·.metadata.dataset) (·.metadata.rank) group

/-- What the latest rows of a source have to agree on. -/
def counted (h : NonFloatHolding) : Int × NonFloatCategory := (h.shares, h.category)

/-- What the rows of one holder and class of shares amount to. -/
def selectGroup (order : SetOrder SourceDataset) (group : List NonFloatHolding) :
    HoldingSelection :=
  let sources := latestHoldings order group
  let settled := sources.filter fun rows => decide (Uniform counted rows)
  let latestBySource := settled.filterMap List.head?
  let within := (settled.map fun rows => rows.length - 1).sum
  let conflict := sources.any fun rows => decide (¬ Uniform counted rows)
  if latestBySource = [] then ⟨[], within, conflict, sources.flatten⟩
  else if ¬ Uniform (fun h => h.shares) latestBySource then ⟨[], within, true, sources.flatten⟩
  else if ¬ Uniform (fun h => h.category) latestBySource then ⟨[], within, true, sources.flatten⟩
  else
    let ordered := latestBySource.insertionSort fun a b =>
      a.metadata.precedence ≤ b.metadata.precedence
    ⟨ordered.head?.toList, within + (ordered.length - 1), conflict, sources.flatten⟩

/-- The order of the holdings that are deducted. -/
def holderKey (h : NonFloatHolding) : String ×ₗ String := toLex (h.holderId, h.shareClass.value)

/-- The holdings that are deducted. -/
def selectHoldings (order : SetOrder SourceDataset) (holdings : List NonFloatHolding) :
    HoldingSelection :=
  let groups := (grouped NonFloatHolding.economicKey (q.disclosedHoldings holdings)).values.map
    (selectGroup order)
  { selected := (groups.flatMap (·.selected)).insertionSort fun a b => holderKey a ≤ holderKey b
    duplicateCount := (groups.map (·.duplicateCount)).sum
    conflict := groups.any (·.conflict)
    considered := groups.flatMap (·.considered) }

/-- An answer without a free float. -/
def unavailable (state : QualityState) (flags : List QualityFlag) (issued : Option Int)
    (duplicateCount : Nat) (lineage : List String) : FreeFloatResult where
  stockCode := q.stockCode
  effectiveOn := q.marketDate
  ratio := none
  issuedCommonShares := issued
  deductedNonFloatShares := none
  freeFloatShares := none
  state := state
  qualityFlags := sortedFlags flags
  duplicateDeductionsPrevented := duplicateCount
  calculationVersion := q.policy.version
  lineage := lineage

def calculateFreeFloat (order : SetOrder SourceDataset) (shareObservations : List FieldObservation)
    (holdings : List NonFloatHolding) (coverageDeclarations : List HoldingCoverageDeclaration) :
    Except Error FreeFloatResult :=
  let shares := q.resolveListedCommonShares shareObservations
  match shares.state, shares.value with
  | .verified, some issued =>
    let coverage := q.coverageForCategories order coverageDeclarations
    let selection := q.selectHoldings order holdings
    let lineage := textSet (shares.lineage ++ rowSources (coverage.selected.map (·.metadata)) ++
      rowSources (selection.considered.map (·.metadata)))
    let duplicateFlags : List QualityFlag :=
      if selection.duplicateCount = 0 then [] else [.duplicateDeductionPrevented]
    if coverage.conflict || selection.conflict then
      .ok (q.unavailable .conflict
        ([.freeFloatUnavailable, .freeFloatSourceConflict] ++ duplicateFlags) (some issued)
        selection.duplicateCount lineage)
    else if coverage.missing then
      .ok (q.unavailable .missing ([.freeFloatUnavailable, .sourceMissing] ++ duplicateFlags)
        (some issued) selection.duplicateCount lineage)
    else if coverage.stale || selection.selected.any fun h => q.isStale h.effectiveOn then
      .ok (q.unavailable .stale
        ([.freeFloatUnavailable, .freeFloatStale, .sourceStale] ++ duplicateFlags) (some issued)
        selection.duplicateCount lineage)
    else
      let deducted := (selection.selected.map (·.shares)).sum
      if issued < deducted then
        .ok (q.unavailable .conflict
          ([.freeFloatUnavailable, .freeFloatSourceConflict] ++ duplicateFlags) (some issued)
          selection.duplicateCount lineage)
      else do
        let ratio ← Decimal.div 60 (.ofInt (issued - deducted)) (.ofInt issued)
        pure
          { stockCode := q.stockCode
            effectiveOn := q.marketDate
            ratio := some ratio
            issuedCommonShares := some issued
            deductedNonFloatShares := some deducted
            freeFloatShares := some (issued - deducted)
            state := .verified
            qualityFlags := duplicateFlags
            duplicateDeductionsPrevented := selection.duplicateCount
            calculationVersion := q.policy.version
            lineage }
  | _, _ =>
    .ok (q.unavailable shares.state shares.qualityFlags none 0 shares.lineage)

end FloatRequest

end Dayjaview.Reference
