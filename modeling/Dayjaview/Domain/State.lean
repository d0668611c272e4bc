import Dayjaview.Core.Error

/-!
# Status axes of an event and their permitted transitions

Lifecycle and reconciliation are separate axes with fixed tables of targets. A
requested transition outside its table is an error that names the axis and both
statuses.
-/

namespace Dayjaview.Domain

/-- The version of the transition tables. -/
def STATE_TRANSITION_VERSION : String := "event-state-2026.08.1"

inductive LifecycleStatus where
  | candidate
  | active
  | weakening
  | closed
  | discarded
  deriving DecidableEq, Repr

/-- The written form of a lifecycle status. -/
def LifecycleStatus.value : LifecycleStatus → String
  | candidate => "CANDIDATE"
  | active => "ACTIVE"
  | weakening => "WEAKENING"
  | closed => "CLOSED"
  | discarded => "DISCARDED"

theorem LifecycleStatus.value_injective : Function.Injective LifecycleStatus.value := by
  intro a b h
  cases a <;> cases b <;> simp_all [LifecycleStatus.value]

inductive ReconciliationStatus where
  | pending
  | matched
  | unmatched
  deriving DecidableEq, Repr

/-- The written form of a reconciliation status. -/
def ReconciliationStatus.value : ReconciliationStatus → String
  | pending => "PENDING"
  | matched => "MATCHED"
  | unmatched => "UNMATCHED"

theorem ReconciliationStatus.value_injective : Function.Injective ReconciliationStatus.value := by
  intro a b h
  cases a <;> cases b <;> simp_all [ReconciliationStatus.value]

/-- The axis a transition belongs to. -/
inductive StateAxis where
  | lifecycle
  | reconciliation
  | review
  deriving DecidableEq, Repr

/-- The written form of an axis. -/
def StateAxis.value : StateAxis → String
  | lifecycle => "lifecycleStatus"
  | reconciliation => "reconciliationStatus"
  | review => "reviewStatus"

/-- The lifecycle statuses reachable in one transition. -/
def allowedLifecycleTargets : LifecycleStatus → List LifecycleStatus
  | .candidate => [.active, .discarded]
  | .active => [.weakening, .closed]
  | .weakening => [.active, .closed]
  | .closed => []
  | .discarded => []

/-- The reconciliation statuses reachable in one transition. -/
def allowedReconciliationTargets : ReconciliationStatus → List ReconciliationStatus
  | .pending => [.matched, .unmatched]
  | .matched => []
  | .unmatched => [.matched]

/-- A permitted transition, in written form. -/
structure StateTransition where
  axis : StateAxis
  fromStatus : Option String
  toStatus : String
  policyVersion : String

/-- The transition to a target of the table, written out. -/
def requireTransition {σ : Type} [DecidableEq σ] (axis : StateAxis) (value : σ → String)
    (current : Option σ) (target : σ) (allowedTargets : List σ) (policyVersion : String) :
    Except Error StateTransition :=
  if target ∉ allowedTargets then
    let currentValue := (current.map value).getD "None"
    .error ⟨.invalidStateTransition,
      s!"허용되지 않은 {axis.value} 전이입니다: {currentValue} -> {value target}"⟩
  else do
    ensure (policyVersion ≠ "") "state transition policy version은 비어 있을 수 없습니다"
    return ⟨axis, current.map value, value target, policyVersion⟩

def transitionLifecycle (current target : LifecycleStatus)
    (policyVersion : String := STATE_TRANSITION_VERSION) : Except Error StateTransition :=
  requireTransition .lifecycle LifecycleStatus.value (some current) target
    (allowedLifecycleTargets current) policyVersion

/-- A reconciliation transition. -/
def transitionReconciliation (current target : ReconciliationStatus)
    (policyVersion : String := STATE_TRANSITION_VERSION) : Except Error StateTransition :=
  requireTransition .reconciliation ReconciliationStatus.value (some current) target
    (allowedReconciliationTargets current) policyVersion

theorem requireTransition_isOk {σ : Type} [DecidableEq σ] {axis : StateAxis} {value : σ → String}
    {current : Option σ} {target : σ} {allowedTargets : List σ} {policyVersion : String} :
    (∃ t, requireTransition axis value current target allowedTargets policyVersion = .ok t) ↔
      target ∈ allowedTargets ∧ policyVersion ≠ "" := by
  unfold requireTransition
  split
  · next h => simp [h]
  · next h =>
    rw [not_not] at h
    simp only [bind_eq_ok, h, true_and]
    constructor
    · rintro ⟨t, ⟨⟩, ht, -⟩
      exact ensure_eq_ok.mp ht
    · intro hp
      exact ⟨_, (), ensure_eq_ok.mpr hp, rfl⟩

end Dayjaview.Domain
