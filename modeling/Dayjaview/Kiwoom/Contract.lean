import Dayjaview.Core.Timedelta
import Mathlib.Data.List.Dedup
import Mathlib.Data.List.Sort
import Mathlib.Data.String.Basic

/-!
# Identifiers of the market source
-/

namespace Dayjaview.Kiwoom

/-- A short code of six digits and capital letters. -/
def isStockCode (code : List Char) : Bool :=
  code.length == 6 && code.all fun c => ('0' ≤ c && c ≤ '9') || ('A' ≤ c && c ≤ 'Z')

/-- A stock id is a short code of the exchange. -/
def isStockId (value : String) : Bool :=
  "KRX:".toList.isPrefixOf value.toList && isStockCode (value.toList.drop 4)

/-- Reject anything but a stock id. -/
def requireStockId (value : String) : Except Error Unit :=
  ensure (isStockId value = true) "stock_id는 KRX: 뒤에 6자리 종목코드가 와야 합니다"

def sortedTuple (texts : List String) : List String := texts.dedup.insertionSort (· ≤ ·)

theorem mem_sortedTuple {texts : List String} {t : String} : t ∈ sortedTuple texts ↔ t ∈ texts := by
  simp [sortedTuple]

theorem nodup_sortedTuple (texts : List String) : (sortedTuple texts).Nodup :=
  (List.perm_insertionSort _ _).nodup_iff.mpr texts.nodup_dedup

@[simp] theorem sortedTuple_sortedTuple (texts : List String) :
    sortedTuple (sortedTuple texts) = sortedTuple texts := by
  have hdedup : (sortedTuple texts).dedup = sortedTuple texts :=
    List.dedup_eq_self.mpr (nodup_sortedTuple texts)
  rw [sortedTuple, hdedup]
  exact List.Pairwise.insertionSort_eq (List.pairwise_insertionSort _ _)

/-- How long to wait before an attempt. -/
structure ReconnectPolicy where
  delayFor : Nat → String → Except Error Int

structure ReconnectSchedule where
  attempt : Nat
  reason : String
  scheduledAt : Datetime
  dueAt : Datetime
  delay : Int

structure ReconnectController where
  policy : ReconnectPolicy
  attempt : Nat
  schedule : Option ReconnectSchedule

namespace ReconnectController

/-- A controller without failures. -/
def new (policy : ReconnectPolicy) : ReconnectController := ⟨policy, 0, none⟩

/-- Schedule the next attempt after a failure. -/
def scheduleFailure (c : ReconnectController) (now : Datetime) (reason jitterKey : String) :
    Except Error ReconnectSchedule × ReconnectController :=
  if reason = "" then (.error ⟨.valueError, "reconnect reason은 비어 있을 수 없습니다"⟩, c)
  else
    let c := { c with attempt := c.attempt + 1 }
    let scheduled : Except Error ReconnectSchedule := do
      let delay ← c.policy.delayFor c.attempt jitterKey
      return ⟨c.attempt, reason, now, ← now.plus delay, delay⟩
    match scheduled with
    | .error e => (.error e, c)
    | .ok schedule => (.ok schedule, { c with schedule := some schedule })

def isDue (c : ReconnectController) (now : Datetime) : Bool :=
  match c.schedule with
  | none => false
  | some schedule => schedule.dueAt.instant ≤ now.instant

def markConnected (c : ReconnectController) : ReconnectController :=
  { c with attempt := 0, schedule := none }

end ReconnectController

end Dayjaview.Kiwoom
