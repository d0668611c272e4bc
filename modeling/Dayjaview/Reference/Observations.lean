import Dayjaview.Core.DecimalOverflow
import Dayjaview.Reference.Calendar

/-!
# What the sources observe about a stock

Prices, share counts, holdings that do not float and corporate actions are kept as they were
observed, each with the metadata of its collection. A later observation does not replace an
earlier one, so every reader selects by the time at which a decision is made.
-/

namespace Dayjaview.Reference

/-- What a share count is about. -/
inductive EconomicField where
  | listedCommonShares
  deriving DecidableEq

inductive ShareClass where
  | common
  deriving DecidableEq

inductive NonFloatCategory where
  | treasury
  | controllingHolder
  | strategicLockup
  deriving DecidableEq

/-- Whether the holdings of a category are listed in full. -/
inductive CoverageDeclarationStatus where
  | complete
  | completeZero
  | incomplete
  deriving DecidableEq

/-- What is known about the corporate actions of a day. -/
inductive CorporateActionStatus where
  | clear
  | adjusted
  | unresolved
  deriving DecidableEq

def ShareClass.value : ShareClass → String
  | .common => "COMMON"

def QualityFlag.value : QualityFlag → String
  | .freeFloatUnavailable => "FREE_FLOAT_UNAVAILABLE"
  | .freeFloatStale => "FREE_FLOAT_STALE"
  | .freeFloatSourceConflict => "FREE_FLOAT_SOURCE_CONFLICT"
  | .sourceMissing => "SOURCE_MISSING"
  | .sourceStale => "SOURCE_STALE"
  | .duplicateDeductionPrevented => "DUPLICATE_DEDUCTION_PREVENTED"
  | .corporateActionUnresolved => "CORPORATE_ACTION_UNRESOLVED"
  | .referencePriceUnavailable => "REFERENCE_PRICE_UNAVAILABLE"
  | .calendarUnavailable => "CALENDAR_UNAVAILABLE"
  | .pointInTimeFiltered => "POINT_IN_TIME_FILTERED"
  | .liveUnverified => "LIVE_UNVERIFIED"

/-- A code is six digits and capital letters. -/
def isStockCode (value : String) : Bool :=
  value.toList.length == 6 &&
    value.toList.all fun c => ('0' ≤ c && c ≤ '9') || ('A' ≤ c && c ≤ 'Z')

/-- Reject anything but a code. -/
def requireStockCode (value : String) : Except Error Unit :=
  ensure (isStockCode value = true) "stock_code는 6자리 영문 대문자 또는 숫자여야 합니다."

/-- Reject a number that is not positive. -/
def requirePositiveDecimal (value : Decimal) (fieldName : String) : Except Error Unit :=
  ensure (Decimal.zero < value) (fieldName ++ "은 0보다 큰 유한 Decimal이어야 합니다.")

/-- When a row of some collection was known, and its revision. -/
def SourceMetadata.rank (m : SourceMetadata) : ℤ ×ₗ ℕ := toLex (m.knownAt.instant, m.revision)

/-- What a row of some collection rests on. -/
def SourceMetadata.sources (m : SourceMetadata) : List String :=
  m.lineage ++ m.sourceDocumentIds.map ("document:" ++ ·)

/-- The fields of an observed share count. -/
structure FieldObservation.Fields where
  stockCode : String
  field : EconomicField
  value : Int
  effectiveOn : Date
  shareClass : ShareClass
  metadata : SourceMetadata
  deriving DecidableEq

/-- The checks of a share count, in order. -/
def FieldObservation.Fields.postInit (o : FieldObservation.Fields) : Except Error Unit := do
  requireStockCode o.stockCode
  ensure (0 < o.value) "주식수 관측값은 0보다 커야 합니다."

structure FieldObservation extends FieldObservation.Fields where
  valid : toFields.postInit = .ok ()
  deriving DecidableEq

/-- The fields of an observed price. -/
structure DailyPriceObservation.Fields where
  stockCode : String
  market : String
  marketDate : Date
  close : Decimal
  changeFromPrevious : Option Decimal
  listedShares : Int
  metadata : SourceMetadata
  deriving DecidableEq

/-- The checks of a price, in order. A change is a finite number by its type. -/
def DailyPriceObservation.Fields.postInit (o : DailyPriceObservation.Fields) : Except Error Unit :=
  do
  requireStockCode o.stockCode
  requirePositiveDecimal o.close "close"
  ensure (0 < o.listedShares) "listed_shares는 0보다 커야 합니다."

structure DailyPriceObservation extends DailyPriceObservation.Fields where
  valid : toFields.postInit = .ok ()
  deriving DecidableEq

/-- The price of the day before that the change of a day implies. -/
def DailyPriceObservation.impliedPreviousAdjustedClose (o : DailyPriceObservation) :
    Except Error (Option Decimal) :=
  match o.changeFromPrevious with
  | none => .ok none
  | some change => do
    let result ← Decimal.sub Decimal.defaultPrec o.close change
    pure (if Decimal.zero < result then some result else none)

/-- The fields of a holding that does not float. -/
structure NonFloatHolding.Fields where
  stockCode : String
  holderId : String
  holderName : String
  category : NonFloatCategory
  shareClass : ShareClass
  shares : Int
  effectiveOn : Date
  metadata : SourceMetadata
  deriving DecidableEq

/-- The checks of a holding, in order. -/
def NonFloatHolding.Fields.postInit (h : NonFloatHolding.Fields) : Except Error Unit := do
  requireStockCode h.stockCode
  ensure (h.holderId ≠ "" ∧ h.holderName ≠ "") "holder_id와 holder_name은 비어 있을 수 없습니다."
  ensure (0 ≤ h.shares) "비유동 주식수는 음수일 수 없습니다."

/-- A holding that does not float. -/
structure NonFloatHolding extends NonFloatHolding.Fields where
  valid : toFields.postInit = .ok ()
  deriving DecidableEq

/-- Whose shares a holding is about. -/
def NonFloatHolding.economicKey (h : NonFloatHolding) : String × String × ShareClass :=
  (h.stockCode, h.holderId, h.shareClass)

/-- The fields of a declaration of how far a category is listed. -/
structure HoldingCoverageDeclaration.Fields where
  stockCode : String
  category : NonFloatCategory
  status : CoverageDeclarationStatus
  effectiveOn : Date
  metadata : SourceMetadata
  deriving DecidableEq

/-- The checks of a declaration. -/
def HoldingCoverageDeclaration.Fields.postInit (d : HoldingCoverageDeclaration.Fields) :
    Except Error Unit :=
  requireStockCode d.stockCode

/-- A declaration of how far a category is listed. -/
structure HoldingCoverageDeclaration extends HoldingCoverageDeclaration.Fields where
  valid : toFields.postInit = .ok ()
  deriving DecidableEq

/-- The fields of what is known about the corporate actions of a day. -/
structure CorporateActionReference.Fields where
  stockCode : String
  effectiveOn : Date
  status : CorporateActionStatus
  adjustmentFactor : Option Decimal
  metadata : SourceMetadata

/-- The checks of a corporate action, in order. -/
def CorporateActionReference.Fields.postInit (a : CorporateActionReference.Fields) :
    Except Error Unit := do
  requireStockCode a.stockCode
  match a.status, a.adjustmentFactor with
  | .clear, factor =>
    ensure (factor.map Decimal.value = some 1) "CLEAR 기업행위의 adjustment_factor는 1이어야 합니다."
  | .adjusted, none => .error ⟨.valueError, "ADJUSTED 기업행위에는 adjustment_factor가 필요합니다."⟩
  | .adjusted, some factor => requirePositiveDecimal factor "adjustment_factor"
  | .unresolved, factor => ensure (factor = none) "UNRESOLVED 기업행위에는 factor를 둘 수 없습니다."

/-- What is known about the corporate actions of a day. -/
structure CorporateActionReference extends CorporateActionReference.Fields where
  valid : toFields.postInit = .ok ()

/-- The fields of the policy of the reference data. -/
structure ReferencePolicy.Fields where
  version : String
  freeFloatStaleAfter : Int
  sufficientCoverageRatio : Decimal
  requiredNonFloatCategories : List NonFloatCategory

/-- The checks of the policy, in order. -/
def ReferencePolicy.Fields.postInit (p : ReferencePolicy.Fields) : Except Error Unit := do
  ensure (p.version ≠ "") "policy version은 비어 있을 수 없습니다."
  ensure (0 < p.freeFloatStaleAfter) "free_float_stale_after는 양수여야 합니다."
  ensure (Decimal.zero < p.sufficientCoverageRatio ∧ p.sufficientCoverageRatio ≤ Decimal.ofNat 1)
    "sufficient_coverage_ratio는 0 초과 1 이하여야 합니다."
  ensure (p.requiredNonFloatCategories ≠ []) "하나 이상의 비유동 범주가 필요합니다."
  ensure p.requiredNonFloatCategories.Nodup "required_non_float_categories가 중복되었습니다."

/-- The policy of the reference data. -/
structure ReferencePolicy extends ReferencePolicy.Fields where
  valid : toFields.postInit = .ok ()

theorem CorporateActionReference.exists_adjustmentFactor (a : CorporateActionReference)
    (h : a.status ≠ .unresolved) : ∃ factor, a.adjustmentFactor = some factor := by
  obtain ⟨⟨stockCode, effectiveOn, status, adjustmentFactor, metadata⟩, hvalid⟩ := a
  obtain ⟨-, -, hvalid⟩ := bind_eq_ok.mp hvalid
  cases adjustmentFactor with
  | some factor => exact ⟨factor, rfl⟩
  | none =>
    cases status with
    | clear => simp [ensure] at hvalid
    | adjusted => simp at hvalid
    | unresolved => exact absurd rfl h

end Dayjaview.Reference
