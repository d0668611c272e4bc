import Dayjaview.Core.Ranking
import Dayjaview.Realtime.Redelivery

/-!
# Convergence under any interleaving of the sources

While every source delivers in order, no update is fenced off, and the hot state
of a stock is a register that keeps the update of highest rank. Ranks end with
the message id, so the outcome does not depend on how the sources interleave.
-/

namespace Dayjaview.Realtime

open Dayjaview.Domain Dayjaview.Events

/-- A hot state without its version counter. -/
def HotStockState.withoutVersion (s : HotStockState) : HotStockState.Fields :=
  { s.toFields with version := 1 }

/-- The state an update becomes, without the version counter. -/
def StockRealtimeUpdate.asState (u : StockRealtimeUpdate) : HotStockState.Fields :=
  HotStockState.fieldsOf u.toFields 1

theorem fromUpdate_withoutVersion (u : StockRealtimeUpdate) {version : Int} (h : 1 ≤ version) :
    (HotStockState.fromUpdate u version h).withoutVersion = u.asState := rfl

theorem order_of_withoutVersion {s : HotStockState} {u : StockRealtimeUpdate}
    (h : s.withoutVersion = u.asState) : s.order = u.order := by
  simp only [HotStockState.withoutVersion, StockRealtimeUpdate.asState, HotStockState.fieldsOf,
    HotStockState.Fields.mk.injEq] at h
  simp only [HotStockState.order, StockRealtimeUpdate.order, h]

theorem messageId_of_order_eq {u v : StockRealtimeUpdate} (h : u.order = v.order) :
    u.messageId = v.messageId := by
  simp only [StockRealtimeUpdate.order, toLex_inj, Prod.mk.injEq] at h
  exact h.2.2.2.2

/-- Each source delivers the updates of a stock with increasing sequences and times of receipt
that do not decrease. -/
def DeliveredInOrder (updates : List StockRealtimeUpdate) : Prop :=
  updates.Pairwise fun u v => u.cursorKey = v.cursorKey →
    u.sourceSequence < v.sourceSequence ∧ u.receivedAt ≤ v.receivedAt

def updatesAt (updates : List StockRealtimeUpdate) (key : StateKey) : List StockRealtimeUpdate :=
  updates.filter fun u => u.stateKey == key

namespace HotStateStore

variable [Sha256]

/-- The cursor of its source lets the update pass. -/
def Advances (s : HotStateStore) (u : StockRealtimeUpdate) : Prop :=
  ∀ c ∈ s.sourceCursors.get? u.cursorKey,
    c.sourceSequence < u.sourceSequence ∧ c.receivedAt ≤ u.receivedAt

/-- A store holds exactly what a sequence of ordered updates leaves. -/
structure Holds (s : HotStateStore) (updates : List StockRealtimeUpdate) : Prop where
  messages : ∀ messageId, (s.processedMessages.get? messageId).isSome →
    ∃ u ∈ updates, u.messageId = messageId
  cursors : ∀ key c, s.sourceCursors.get? key = some c → ∃ u ∈ updates, u.cursorKey = key ∧
    c.sourceSequence = u.sourceSequence ∧ c.receivedAt.instant = u.receivedAt.instant
  states : ∀ key, (s.states.get? key).map HotStockState.withoutVersion =
    (latestOf StockRealtimeUpdate.order (updatesAt updates key)).map StockRealtimeUpdate.asState

omit [Sha256] in
theorem holds_empty : Holds .empty [] where
  messages _ h := by simp [empty] at h
  cursors _ _ h := by simp [empty] at h
  states _ := rfl

variable {s : HotStateStore} {u : StockRealtimeUpdate} {updates : List StockRealtimeUpdate}

omit [Sha256] in
private theorem recordCursor_get? (h : s.Advances u) (key : CursorKey) :
    ∃ c, (s.recordCursor u).sourceCursors.get? key =
        (if key = u.cursorKey then some c else s.sourceCursors.get? key) ∧
      c.sourceSequence = u.sourceSequence ∧ c.receivedAt.instant = u.receivedAt.instant := by
  simp only [recordCursor, Dict.get?_set]
  cases hc : s.sourceCursors.get? u.cursorKey with
  | none => exact ⟨_, rfl, rfl, rfl⟩
  | some c =>
    refine ⟨_, rfl, rfl, ?_⟩
    have hle := (h c hc).2
    simp only [SourceCursor.ofUpdate, Datetime.instant_latest]
    exact max_eq_right hle

theorem decideUpdate_of_advances (h : s.Advances u) :
    (s.decideUpdate u).2.sourceCursors = (s.recordCursor u).sourceCursors ∧
      ((∃ p, s.states.get? u.stateKey = some p ∧ u.order ≤ p.order ∧
          (s.decideUpdate u).2.states = s.states) ∨
        ∃ version hversion, (∀ p, s.states.get? u.stateKey = some p → p.order < u.order) ∧
          (s.decideUpdate u).2.states =
            s.states.set u.stateKey (HotStockState.fromUpdate u version hversion)) := by
  have hsequence : ¬ ∃ c ∈ s.sourceCursors.get? u.cursorKey,
      u.sourceSequence ≤ c.sourceSequence := by
    rintro ⟨c, hc, hle⟩
    exact absurd (h c hc).1 (not_lt.mpr hle)
  have hreceived : ¬ ∃ c ∈ s.sourceCursors.get? u.cursorKey, u.receivedAt < c.receivedAt := by
    rintro ⟨c, hc, hlt⟩
    exact absurd (h c hc).2 (not_le_of_gt hlt)
  simp only [decideUpdate, if_neg hsequence, if_neg hreceived]
  by_cases hrank : ∃ p ∈ s.states.get? u.stateKey, u.order ≤ p.order
  · obtain ⟨p, hp, hle⟩ := hrank
    rw [if_pos ⟨p, hp, hle⟩]
    exact ⟨rfl, .inl ⟨p, hp, hle, rfl⟩⟩
  · rw [if_neg hrank]
    refine ⟨rfl, .inr ⟨_, one_le_nextVersion _, fun p hp => ?_, rfl⟩⟩
    exact not_le.mp fun hle => hrank ⟨p, hp, hle⟩

omit [Sha256] in
private theorem updatesAt_append (updates : List StockRealtimeUpdate) (u : StockRealtimeUpdate)
    (key : StateKey) :
    updatesAt (updates ++ [u]) key =
      if u.stateKey = key then updatesAt updates key ++ [u] else updatesAt updates key := by
  rw [updatesAt, updatesAt, List.filter_append]
  by_cases h : u.stateKey = key <;> simp [h]

private theorem states_append (hs : s.Holds updates) (h : s.Advances u) (key : StateKey) :
    ((s.decideUpdate u).2.states.get? key).map HotStockState.withoutVersion =
      (latestOf StockRealtimeUpdate.order (updatesAt (updates ++ [u]) key)).map
        StockRealtimeUpdate.asState := by
  have hkey := hs.states u.stateKey
  obtain ⟨-, ⟨p, hp, hle, hstates⟩ | ⟨version, hversion, hlt, hstates⟩⟩ :=
    decideUpdate_of_advances h
  · rw [hstates, updatesAt_append]
    by_cases heq : u.stateKey = key
    · subst heq
      rw [if_pos rfl, latestOf_append_singleton, hkey]
      rw [hp] at hkey
      cases hlast : latestOf StockRealtimeUpdate.order (updatesAt updates u.stateKey) with
      | none => simp [hlast] at hkey
      | some v =>
        simp only [hlast, Option.map_some, Option.some.injEq] at hkey
        have hrank : u.order ≤ v.order := by rwa [← order_of_withoutVersion hkey]
        rw [keepLatest, if_pos hrank]
    · rw [if_neg heq, hs.states key]
  · rw [hstates, Dict.get?_set, updatesAt_append]
    by_cases heq : u.stateKey = key
    · subst heq
      rw [if_pos rfl, if_pos rfl, latestOf_append_singleton, Option.map_some,
        fromUpdate_withoutVersion]
      cases hlast : latestOf StockRealtimeUpdate.order (updatesAt updates u.stateKey) with
      | none => rfl
      | some v =>
        cases hp : s.states.get? u.stateKey with
        | none => simp [hp, hlast] at hkey
        | some p =>
          simp only [hp, hlast, Option.map_some, Option.some.injEq] at hkey
          have hrank := hlt p hp
          rw [order_of_withoutVersion hkey] at hrank
          rw [keepLatest, if_neg (not_le.mpr hrank), Option.map_some]
    · have hne : ¬ key = u.stateKey := fun h => heq h.symm
      rw [if_neg heq, if_neg hne, hs.states key]

theorem Holds.apply (hs : s.Holds updates) (hnew : ∀ v ∈ updates, v.messageId ≠ u.messageId)
    (hordered : ∀ v ∈ updates, v.cursorKey = u.cursorKey →
      v.sourceSequence < u.sourceSequence ∧ v.receivedAt ≤ u.receivedAt) :
    (∃ r, (s.apply u).1 = .ok r) ∧ (s.apply u).2.Holds (updates ++ [u]) := by
  have hunseen : s.processedMessages.get? u.messageId = none := by
    rw [← Option.not_isSome_iff_eq_none]
    intro hsome
    obtain ⟨v, hv, hid⟩ := hs.messages _ hsome
    exact hnew v hv hid
  have hadvances : s.Advances u := by
    intro c hc
    obtain ⟨v, hv, hkey, hsequence, hreceived⟩ := hs.cursors _ c hc
    obtain ⟨hlt, hle⟩ := hordered v hv hkey
    exact ⟨hsequence ▸ hlt, by rw [Datetime.le_def, hreceived]; exact hle⟩
  have happly : s.apply u = (.ok (s.decideUpdate u).1, (s.decideUpdate u).2) := by
    rw [HotStateStore.apply, hunseen]
  rw [happly]
  refine ⟨⟨_, rfl⟩, ?_, ?_, states_append hs hadvances⟩
  · intro messageId hsome
    dsimp only at hsome
    rw [admit_processedMessages, Dict.get?_set] at hsome
    by_cases heq : messageId = u.messageId
    · exact ⟨u, by simp, heq.symm⟩
    · rw [if_neg heq] at hsome
      obtain ⟨v, hv, hid⟩ := hs.messages _ hsome
      exact ⟨v, List.mem_append_left _ hv, hid⟩
  · intro key c hc
    dsimp only at hc
    rw [(decideUpdate_of_advances hadvances).1] at hc
    obtain ⟨c', hget, hsequence, hreceived⟩ := recordCursor_get? hadvances key
    rw [hget] at hc
    by_cases heq : key = u.cursorKey
    · rw [if_pos heq, Option.some.injEq] at hc
      subst hc
      exact ⟨u, by simp, heq.symm, hsequence, hreceived⟩
    · rw [if_neg heq] at hc
      obtain ⟨v, hv, hrest⟩ := hs.cursors key c hc
      exact ⟨v, List.mem_append_left _ hv, hrest⟩

theorem holds_run (hids : (updates.map fun u => u.messageId).Nodup)
    (hordered : DeliveredInOrder updates) :
    (empty.run updates).Holds updates := by
  induction updates using List.reverseRecOn with
  | nil => exact holds_empty
  | append_singleton updates u ih =>
    rw [List.map_append, List.nodup_append] at hids
    rw [DeliveredInOrder, List.pairwise_append] at hordered
    obtain ⟨hids, -, hnew⟩ := hids
    obtain ⟨hordered, -, hlast⟩ := hordered
    have hrun : empty.run (updates ++ [u]) = ((empty.run updates).apply u).2 := by
      rw [run, List.foldl_append]
      rfl
    rw [hrun]
    refine (Holds.apply (ih hids hordered) (fun v hv => ?_) fun v hv => ?_).2
    · exact hnew _ (List.mem_map_of_mem hv) _ (by simp)
    · exact hlast v hv u (by simp)

/-- For one stock, every two interleavings of sources that each deliver in order end with the same
current state apart from its version counter: that of the update of highest rank. -/
theorem run_converges {us vs : List StockRealtimeUpdate} {marketDate : Date} {stockId : String}
    (hstock : ∀ u ∈ us, u.marketDate = marketDate ∧ u.stockId = stockId)
    (hids : (us.map fun u => u.messageId).Nodup) (hperm : us.Perm vs)
    (hus : DeliveredInOrder us) (hvs : DeliveredInOrder vs) (hne : us ≠ []) :
    ∃ u, IsGreatestBy StockRealtimeUpdate.order us u ∧
      ((empty.run us).get marketDate stockId).map HotStockState.withoutVersion =
        some u.asState ∧
      ((empty.run vs).get marketDate stockId).map HotStockState.withoutVersion =
        some u.asState := by
  have hall : ∀ ws : List StockRealtimeUpdate, ws.Perm us →
      updatesAt ws (toLex (marketDate, stockId)) = ws := by
    intro ws hws
    rw [updatesAt, List.filter_eq_self]
    intro u hu
    obtain ⟨hdate, hid⟩ := hstock u (hws.mem_iff.mp hu)
    rw [beq_iff_eq, StockRealtimeUpdate.stateKey, hdate, hid]
  have hinj : ∀ u ∈ us, ∀ v ∈ us, u.order = v.order → u = v := fun u hu v hv h =>
    List.inj_on_of_nodup_map hids hu hv (messageId_of_order_eq h)
  obtain ⟨u, hu⟩ : ∃ u, latestOf StockRealtimeUpdate.order us = some u := exists_latestOf hne
  have hvs' := holds_run ((hperm.map _).nodup_iff.mp hids) hvs
  refine ⟨u, isGreatestBy_of_latestOf hu, ?_, ?_⟩
  · rw [get, (holds_run hids hus).states, hall us (.refl us), hu, Option.map_some]
  · rw [get, hvs'.states, hall vs hperm.symm, ← latestOf_perm hinj hperm, hu, Option.map_some]

/-- A tick of the same stock from another source. -/
def otherTick : StockRealtimeUpdate :=
  ⟨{ tick.toFields with messageId := "tick-2", source := "kiwoom:s2", sourceSequence := 7,
                        currentPrice := some (.ofNat 70200) }, by decide⟩

omit [Sha256] in
/-- Two sources tick once each, in either order. -/
theorem run_converges_otherTick :
    letI : Sha256 := .ofTable
      [(tick.toDict.canonical, "8ea67ef967f5cfc08df5caaa5c1f637cca8adcd6e589081e8320398ce4e3c5ff"),
        (otherTick.toDict.canonical,
          "0ed5891a26fee8b0c73023431d61e5534ed45aa4008fb52da850a3478e6e3dd5")]
    ∃ u, IsGreatestBy StockRealtimeUpdate.order [tick, otherTick] u ∧
      ((empty.run [tick, otherTick]).get tick.marketDate "KRX:005930").map
          HotStockState.withoutVersion = some u.asState ∧
      ((empty.run [otherTick, tick]).get tick.marketDate "KRX:005930").map
          HotStockState.withoutVersion = some u.asState := by
  generalize Sha256.ofTable _ = sha
  have hkey : tick.cursorKey ≠ otherTick.cursorKey := by decide
  refine run_converges ?_ (by decide) (.swap otherTick tick []) ?_ ?_ (by decide)
  · intro u hu
    obtain rfl | rfl := List.mem_pair.mp hu <;> exact ⟨rfl, rfl⟩
  · simp [DeliveredInOrder, hkey]
  · simp [DeliveredInOrder, hkey.symm]

end HotStateStore

end Dayjaview.Realtime
