import Dayjaview.Events.Fingerprint
import Dayjaview.Realtime.HotState

/-!
# Redelivered updates

Under a separating hash the fingerprint tells two updates apart in every field
except the reference price, which the written form leaves out. A message id is
bound to its first fingerprint for the rest of the run.
-/

namespace Dayjaview.Realtime

open Dayjaview.Domain Dayjaview.Events

/-- Two updates agree in every field except possibly the reference price. -/
def SameButBasePrice (u v : StockRealtimeUpdate) : Prop :=
  { u.toFields with basePrice := none } = { v.toFields with basePrice := none }

private theorem decimalJson_injective : Function.Injective decimalJson := by
  intro a b h
  cases a with
  | none => cases b <;> simp_all [decimalJson]
  | some d =>
    cases b with
    | none => simp [decimalJson] at h
    | some e =>
      simp only [decimalJson, Json.str.injEq] at h
      rw [Decimal.str_injective h]

private theorem sortKeys_decimalJson (d : Option Decimal) :
    (decimalJson d).sortKeys = decimalJson d := by cases d <;> rfl

theorem sameButBasePrice_iff_sortKeys_eq {u v : StockRealtimeUpdate} :
    SameButBasePrice u v ↔ u.toDict.sortKeys = v.toDict.sortKeys := by
  constructor
  · intro h
    have hdict : u.toDict = v.toDict := by
      simp only [SameButBasePrice, StockRealtimeUpdate.Fields.mk.injEq] at h
      simp only [StockRealtimeUpdate.toDict, h]
    rw [hdict]
  · intro h
    have hv := Json.values_eq_of_sortKeys_eq h rfl (by simp)
    simp only [List.map_cons, List.map_nil, List.cons.injEq, Json.sortKeys, sortKeys_decimalJson,
      Json.str.injEq, Json.int.injEq, Json.bool.injEq, Json.arr.injEq, and_true] at hv
    obtain ⟨hmessage, hstock, hdate, hsource, hsequence, hoccurred, hreceived, hprice, hvalue,
      hfresh, hhalted, haction, hlineage⟩ := hv
    simp only [SameButBasePrice, StockRealtimeUpdate.Fields.mk.injEq, true_and]
    exact ⟨hmessage, hstock, Date.isoformat_injective hdate, hsource, hsequence,
      Datetime.isoformat_injective hoccurred, Datetime.isoformat_injective hreceived,
      decimalJson_injective hprice, decimalJson_injective hvalue, hfresh, hhalted, haction,
      Json.eq_of_sortItems_eq (fun _ _ => LineageRef.eq_of_sortKeys_eq) hlineage⟩

variable [Sha256]

theorem fingerprint_eq_iff (hinj : Function.Injective (hexdigest : String → String))
    {u v : StockRealtimeUpdate} : u.fingerprint = v.fingerprint ↔ SameButBasePrice u v := by
  rw [sameButBasePrice_iff_sortKeys_eq]
  constructor
  · exact sortKeys_eq_of_jsonDigest_eq hinj
  · intro h
    rw [StockRealtimeUpdate.fingerprint, StockRealtimeUpdate.fingerprint, jsonDigest, jsonDigest,
      Json.canonical, Json.canonical, h]

namespace HotStateStore

variable {s : HotStateStore}

theorem run_processedMessages (updates : List StockRealtimeUpdate) {messageId fingerprint : String}
    (h : s.processedMessages.get? messageId = some fingerprint) :
    (s.run updates).processedMessages.get? messageId = some fingerprint := by
  induction updates generalizing s with
  | nil => exact h
  | cons u updates ih =>
    apply ih
    rw [apply_processedMessages]
    split
    · next hnone =>
      rw [Dict.get?_set_of_ne _ _ (by rintro rfl; simp [h] at hnone)]
      exact h
    · exact h

theorem fingerprint_of_apply {u : StockRealtimeUpdate} {r : HotApplyResult}
    (h : (s.apply u).1 = .ok r) :
    (s.apply u).2.processedMessages.get? u.messageId = some u.fingerprint := by
  rw [apply_processedMessages]
  cases hseen : s.processedMessages.get? u.messageId with
  | none => simp
  | some seen =>
    simp only [reduceCtorEq, if_false, hseen]
    unfold apply at h
    rw [hseen] at h
    by_cases hne : seen ≠ u.fingerprint
    · simp [hne] at h
    · rw [not_not.mp hne]

theorem apply_of_seen {v : StockRealtimeUpdate} {fingerprint : String}
    (h : s.processedMessages.get? v.messageId = some fingerprint) :
    s.apply v = if fingerprint = v.fingerprint then
        (.ok ⟨.duplicate, s.states.get? v.stateKey, s.states.get? v.stateKey⟩, s)
      else (.error hotStateIdempotencyConflict, s) := by
  unfold apply
  rw [h]
  by_cases heq : fingerprint = v.fingerprint <;> simp [heq]

/-- Whatever happened before and after an update was taken: an identical redelivery is a duplicate
and changes nothing, and an update under its message id that differs in any way is refused without
a change, if and only if the two updates do not differ in the reference price alone. -/
theorem redelivery_iff (hinj : Function.Injective (hexdigest : String → String))
    (before after : List StockRealtimeUpdate) (u v : StockRealtimeUpdate) (r : HotApplyResult)
    (hid : v.messageId = u.messageId) (hfirst : ((empty.run before).apply u).1 = .ok r) :
    let s := empty.run (before ++ u :: after)
    ((∃ state, s.apply u = (.ok ⟨.duplicate, state, state⟩, s)) ∧
        (v ≠ u → s.apply v = (.error hotStateIdempotencyConflict, s))) ↔
      ¬ (v ≠ u ∧ SameButBasePrice u v) := by
  intro s
  have hbound : s.processedMessages.get? u.messageId = some u.fingerprint := by
    have hrun : s = ((empty.run before).apply u).2.run after := by
      simp only [s, run, List.foldl_append, List.foldl_cons]
    rw [hrun]
    exact run_processedMessages after (fingerprint_of_apply hfirst)
  have hidentical : ∃ state, s.apply u = (.ok ⟨.duplicate, state, state⟩, s) :=
    ⟨_, by rw [apply_of_seen hbound, if_pos rfl]⟩
  have hother : s.apply v = (.error hotStateIdempotencyConflict, s) ↔ ¬ SameButBasePrice u v := by
    rw [apply_of_seen (hid ▸ hbound), ← fingerprint_eq_iff hinj]
    by_cases heq : u.fingerprint = v.fingerprint <;> simp [heq]
  rw [and_iff_right hidentical, hother, not_and]

/-- A tick of a stock with its reference price. -/
def tick : StockRealtimeUpdate where
  messageId := "tick-1"
  stockId := "KRX:005930"
  marketDate := Events.fivePastNine.date
  source := "kiwoom:s1"
  sourceSequence := 1
  occurredAt := fivePastNine
  receivedAt := fivePastNine
  currentPrice := some (.ofNat 70000)
  cumulativeTradingValue := some (.ofNat 1000000)
  basePrice := some (.ofNat 69000)
  valid := by decide

/-- The same tick at another price. -/
def repricedTick : StockRealtimeUpdate :=
  ⟨{ tick.toFields with currentPrice := some (.ofNat 70100) }, by decide⟩

/-- The same tick against another reference price. -/
def rebasedTick : StockRealtimeUpdate :=
  ⟨{ tick.toFields with basePrice := some (.ofNat 68000) }, by decide⟩

/-- The digests of the tick and of its repriced variant. -/
def tickDigests : List (String × String) :=
  [(tick.toDict.canonical, "8ea67ef967f5cfc08df5caaa5c1f637cca8adcd6e589081e8320398ce4e3c5ff"),
    (repricedTick.toDict.canonical,
      "c89811adb3a917e6016cd46b8f67e9f38338c54ec801b2e31ebe2bc6ea146d10")]

omit [Sha256] in
/-- A tick followed by its repriced variant under the same message id. -/
theorem redelivery_iff_repricedTick :
    letI : Sha256 := .ofTable tickDigests
    let s := empty.run [tick]
    ((∃ state, s.apply tick = (.ok ⟨.duplicate, state, state⟩, s)) ∧
        (repricedTick ≠ tick →
          s.apply repricedTick = (.error hotStateIdempotencyConflict, s))) ↔
      ¬ (repricedTick ≠ tick ∧ SameButBasePrice tick repricedTick) :=
  @redelivery_iff (.ofTable tickDigests) (hexdigest_ofTable_injective tickDigests) [] [] tick
    repricedTick _ rfl rfl

omit [Sha256] in
/-- A redelivery against another reference price passes for a duplicate. -/
theorem rebasedTick_passes_for_duplicate :
    letI : Sha256 := .ofTable tickDigests
    rebasedTick ≠ tick ∧ rebasedTick.messageId = tick.messageId ∧
      (∃ r, (empty.apply tick).1 = .ok r) ∧
      ∃ state, (empty.run [tick]).apply rebasedTick =
        (.ok ⟨.duplicate, state, state⟩, empty.run [tick]) := by
  generalize Sha256.ofTable tickDigests = sha
  refine ⟨by decide, rfl, ⟨_, rfl⟩, (empty.run [tick]).states.get? rebasedTick.stateKey, ?_⟩
  have hbound : (empty.run [tick]).processedMessages.get? rebasedTick.messageId =
      some tick.fingerprint := fingerprint_of_apply (s := empty) (u := tick) rfl
  have hfingerprint : tick.fingerprint = rebasedTick.fingerprint := rfl
  rw [apply_of_seen hbound, if_pos hfingerprint]

end HotStateStore

end Dayjaview.Realtime
