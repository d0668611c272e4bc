import Dayjaview.Core.Dict
import Dayjaview.Core.Ranking
import Dayjaview.Kiwoom.Contract
import Mathlib.Data.Prod.Lex

/-!
# Subscription admission

The best-ranked demands are subscribed up to a target. Stocks that fall out of
them keep their registration for a while, in the room that is left below the
hard limit. Durations are in microseconds and deadlines are instants.
-/

namespace Dayjaview.Kiwoom

/-- Why a stock is demanded, the most urgent reason first. -/
inductive DemandPriority where
  | activeLeader
  | activeCore
  | multiSignalCandidate
  | activeRelated
  | singleSignalCandidate
  deriving DecidableEq

def DemandPriority.value : DemandPriority → Int
  | activeLeader => 1
  | activeCore => 2
  | multiSignalCandidate => 3
  | activeRelated => 4
  | singleSignalCandidate => 5

/-- The more urgent of two priorities. -/
def DemandPriority.most (a b : DemandPriority) : DemandPriority :=
  if b.value < a.value then b else a

structure SubscriptionDemand.Fields where
  stockId : String
  priority : DemandPriority
  observedAt : Datetime
  signalCount : Int := 1
  themeIds : List String := []

/-- The checks of a demand, in order. -/
def SubscriptionDemand.Fields.postInit (d : SubscriptionDemand.Fields) : Except Error Unit := do
  requireStockId d.stockId
  ensure (1 ≤ d.signalCount) "signal_count는 1 이상이어야 합니다"
  ensure (sortedTuple d.themeIds = d.themeIds) "theme_ids는 중복 없이 정렬돼야 합니다"

/-- A demand that passed its checks. -/
structure SubscriptionDemand extends SubscriptionDemand.Fields where
  valid : toFields.postInit = .ok ()

namespace SubscriptionDemand

theorem postInit_eq_ok {d : SubscriptionDemand.Fields} :
    d.postInit = .ok () ↔
      isStockId d.stockId = true ∧ 1 ≤ d.signalCount ∧ sortedTuple d.themeIds = d.themeIds := by
  simp [SubscriptionDemand.Fields.postInit, requireStockId]

/-- Two demands for one stock as one demand. -/
def join (a b : SubscriptionDemand) : SubscriptionDemand where
  stockId := a.stockId
  priority := a.priority.most b.priority
  observedAt := Datetime.latest a.observedAt b.observedAt
  signalCount := a.signalCount + b.signalCount
  themeIds := sortedTuple (a.themeIds ++ b.themeIds)
  valid := by
    obtain ⟨hstock, hcount, -⟩ := postInit_eq_ok.mp a.valid
    obtain ⟨-, hcount', -⟩ := postInit_eq_ok.mp b.valid
    exact postInit_eq_ok.mpr ⟨hstock, by dsimp only; omega, sortedTuple_sortedTuple _⟩

end SubscriptionDemand

/-- Add a demand to what is demanded of its stock. -/
def addDemand (normalized : Dict String SubscriptionDemand) (demand : SubscriptionDemand) :
    Dict String SubscriptionDemand :=
  match normalized.get? demand.stockId with
  | none => normalized.set demand.stockId demand
  | some rows => normalized.set demand.stockId (rows.join demand)

/-- The demands of every stock as one. -/
def aggregateDemands (demands : List SubscriptionDemand) : Dict String SubscriptionDemand :=
  demands.foldl addDemand .empty

/-- The rank of a demand, the most urgent one first. -/
def rankKey (demand : SubscriptionDemand) : ℤ ×ₗ ℤ ×ₗ ℚ ×ₗ String :=
  toLex (demand.priority.value, toLex (-demand.signalCount,
    toLex (-demand.observedAt.timestamp, demand.stockId)))

/-- The rank of a stock that may be known, the unknown ones last. -/
def rankOf (demand : Option SubscriptionDemand) (stockId : String) : ℤ ×ₗ ℤ ×ₗ ℚ ×ₗ String :=
  match demand with
  | some demand => rankKey demand
  | none => toLex (6, toLex (0, toLex (0, stockId)))

structure SubscriptionPlan.Fields where
  generatedAt : Datetime
  subscriptions : List String
  added : List String
  removed : List String
  retainedForCooldown : List String
  snapshotSupplement : List String
  targetLimit : Nat
  hardLimit : Nat
  coalesced : Bool := false

/-- The checks of a plan, in order. -/
def SubscriptionPlan.Fields.postInit (p : SubscriptionPlan.Fields) : Except Error Unit := do
  ensure (p.subscriptions.length ≤ p.hardLimit) "구독 계획이 hard limit를 초과했습니다"
  ensure p.subscriptions.Nodup "구독 계획에 중복 stock_id가 있습니다"

/-- A plan that passed its checks. -/
structure SubscriptionPlan extends SubscriptionPlan.Fields where
  valid : toFields.postInit = .ok ()

/-- Build a plan, or report the first failed check. -/
def SubscriptionPlan.make (p : SubscriptionPlan.Fields) : Except Error SubscriptionPlan :=
  checked SubscriptionPlan.Fields.postInit SubscriptionPlan.mk p

theorem SubscriptionPlan.postInit_eq_ok {p : SubscriptionPlan.Fields} :
    p.postInit = .ok () ↔ p.subscriptions.length ≤ p.hardLimit ∧ p.subscriptions.Nodup := by
  simp [SubscriptionPlan.Fields.postInit]

/-- The limits and times of a manager. -/
structure SubscriptionSettings where
  targetLimit : Nat := 180
  hardLimit : Nat := 200
  cooldown : Int := 60000000
  coalesceInterval : Int := 1000000
  valid : 1 ≤ targetLimit ∧ targetLimit ≤ hardLimit ∧ 0 ≤ cooldown ∧ 0 ≤ coalesceInterval :=
    by decide

structure SubscriptionManager extends SubscriptionSettings where
  current : List String
  lastAppliedAt : Option Datetime
  retainedUntil : Dict String Int
  lastDemands : Dict String SubscriptionDemand
  pendingDemands : Dict String SubscriptionDemand

namespace SubscriptionManager

/-- A manager before its first plan. -/
def new (settings : SubscriptionSettings) : SubscriptionManager :=
  { settings with
    current := [], lastAppliedAt := none, retainedUntil := .empty, lastDemands := .empty
    pendingDemands := .empty }

/-- The rank of a stock by what is known of it. -/
def historicalRank (m : SubscriptionManager) (stockId : String) : ℤ ×ₗ ℤ ×ₗ ℚ ×ₗ String :=
  rankOf ((m.pendingDemands.get? stockId).or (m.lastDemands.get? stockId)) stockId

/-- The demanded stocks in the order of their ranks. -/
def rankedDemands (demands : Dict String SubscriptionDemand) : List String :=
  ranked (fun stockId => rankOf (demands.get? stockId) stockId) demands.keys

/-- The stocks with the best demands. -/
def desired (m : SubscriptionManager) (demands : Dict String SubscriptionDemand) : List String :=
  (rankedDemands demands).take m.targetLimit

/-- The plan of a call that came too early. -/
def coalescedPlan (m : SubscriptionManager) (demands : Dict String SubscriptionDemand)
    (now : Datetime) : Except Error SubscriptionPlan :=
  SubscriptionPlan.make {
    generatedAt := now, subscriptions := m.current, added := [], removed := []
    retainedForCooldown := m.current.filter fun stockId => m.retainedUntil.get? stockId ≠ none
    snapshotSupplement := (rankedDemands demands).filter fun stockId => stockId ∉ m.current
    targetLimit := m.targetLimit, hardLimit := m.hardLimit, coalesced := true }

/-- The stocks whose time is over. -/
def expiredCooldown (m : SubscriptionManager) (desired : List String) (now : Datetime) :
    List String :=
  m.retainedUntil.keys.filter fun stockId =>
    stockId ∉ desired ∧ ∃ deadline ∈ m.retainedUntil.get? stockId, deadline ≤ now.instant

/-- The deadlines that still run: not those of desired stocks nor the expired ones. -/
def runningDeadlines (m : SubscriptionManager) (desired : List String) (now : Datetime) :
    Dict String Int :=
  m.retainedUntil.keys.foldl (fun retained stockId =>
    if stockId ∈ desired ∨ ∃ deadline ∈ m.retainedUntil.get? stockId, deadline ≤ now.instant then
      retained.erase stockId
    else retained) m.retainedUntil

/-- The deadlines with new ones for the stocks that fell out now. -/
def nextDeadlines (m : SubscriptionManager) (desired : List String) (now : Datetime) :
    Dict String Int :=
  m.current.foldl (fun retained stockId =>
    if (retained.get? stockId).isNone ∧ stockId ∉ desired ∧
        stockId ∉ m.expiredCooldown desired now then
      -- the source raises an OverflowError here at the end of the calendar
      retained.set stockId (now.instant + m.cooldown)
    else retained) (m.runningDeadlines desired now)

/-- The stocks that are kept though they are not desired, as far as there is room. -/
def cooling (m : SubscriptionManager) (desired : List String) (now : Datetime) : List String :=
  best m.historicalRank (m.hardLimit - desired.length)
    (m.current.filter fun stockId => stockId ∉ desired ∧
      now.instant < ((m.nextDeadlines desired now).get? stockId).getD now.instant)

/-- Apply the demands of the last call. -/
def apply (m : SubscriptionManager) (demands : Dict String SubscriptionDemand) (now : Datetime) :
    Except Error SubscriptionPlan × SubscriptionManager :=
  let desired := m.desired demands
  let cooling := m.cooling desired now
  let stable := m.current.filter fun stockId => stockId ∈ desired ∨ stockId ∈ cooling
  let subscriptions := stable ++ desired.filter fun stockId => stockId ∉ stable
  let added := sortedTuple (subscriptions.filter fun stockId => stockId ∉ m.current)
  let removed := sortedTuple (m.current.filter fun stockId => stockId ∉ subscriptions)
  (SubscriptionPlan.make {
      generatedAt := now, subscriptions, added, removed
      retainedForCooldown := subscriptions.filter fun stockId => stockId ∈ cooling
      snapshotSupplement := (rankedDemands demands).filter fun stockId => stockId ∉ subscriptions
      targetLimit := m.targetLimit, hardLimit := m.hardLimit },
    { m with
      current := subscriptions
      lastAppliedAt := some now
      retainedUntil := removed.foldl Dict.erase (m.nextDeadlines desired now)
      lastDemands := demands.entries.foldl (fun d e => d.set e.1 e.2) m.lastDemands })

/-- The call comes too early after the last applied one. -/
def Coalesces (m : SubscriptionManager) (now : Datetime) (force : Bool) : Prop :=
  force = false ∧ ∃ last ∈ m.lastAppliedAt, now.instant - last.instant < m.coalesceInterval

instance (m : SubscriptionManager) (now : Datetime) (force : Bool) :
    Decidable (m.Coalesces now force) := inferInstanceAs (Decidable (_ ∧ _))

/-- Take the demands; unless forced, not more often than once in an interval. -/
def reconcile (m : SubscriptionManager) (demands : List SubscriptionDemand) (now : Datetime)
    (force : Bool) : Except Error SubscriptionPlan × SubscriptionManager :=
  let normalized := aggregateDemands demands
  let m := { m with pendingDemands := normalized }
  if m.Coalesces now force then
    (m.coalescedPlan normalized now, m)
  else m.apply normalized now

end SubscriptionManager

end Dayjaview.Kiwoom
