import Dayjaview.Core.Dict
import Dayjaview.Realtime.Models

/-!
# The latest update of every stock

An update is recognised by its message id, fenced by the cursor of its source
and then compared with the current hot state: the later observation wins, ties
fall to the time of receipt, the source, its sequence and the message id.
-/

namespace Dayjaview.Realtime

open Dayjaview.Domain Dayjaview.Events

/-- The key of a hot state: the trading day and the stock. -/
abbrev StateKey := Date ×ₗ String

/-- The key of a cursor: the trading day, the stock and the source. -/
abbrev CursorKey := Date ×ₗ String ×ₗ String

/-- The rank of an observation. -/
abbrev ObservationOrder := Int ×ₗ Int ×ₗ String ×ₗ Int ×ₗ String

/-- The rank of an update: observation time, time of receipt, source, sequence, message id. -/
def StockRealtimeUpdate.order (u : StockRealtimeUpdate) : ObservationOrder :=
  toLex (u.occurredAt.instant, toLex (u.receivedAt.instant, toLex (u.source,
    toLex (u.sourceSequence, u.messageId))))

/-- The rank of a hot state, that of the update behind it. -/
def HotStockState.order (s : HotStockState) : ObservationOrder :=
  toLex (s.occurredAt.instant, toLex (s.receivedAt.instant, toLex (s.source,
    toLex (s.sourceSequence, s.lastMessageId))))

/-- The key of the hot state an update is about. -/
def StockRealtimeUpdate.stateKey (u : StockRealtimeUpdate) : StateKey :=
  toLex (u.marketDate, u.stockId)

/-- The key of the cursor an update moves. -/
def StockRealtimeUpdate.cursorKey (u : StockRealtimeUpdate) : CursorKey :=
  toLex (u.marketDate, toLex (u.stockId, u.source))

/-- The hot states, the recognised messages and the cursors of the sources. -/
structure HotStateStore where
  states : Dict StateKey HotStockState
  processedMessages : Dict String String
  sourceCursors : Dict CursorKey SourceCursor

/-- The answer to a different update under a used message id. -/
def hotStateIdempotencyConflict : Error :=
  ⟨.hotStateIdempotencyConflict, "같은 message_id에 서로 다른 realtime update가 있습니다"⟩

namespace HotStateStore

def empty : HotStateStore := ⟨.empty, .empty, .empty⟩

/-- Move the cursor of the source of an update. -/
def recordCursor (s : HotStateStore) (update : StockRealtimeUpdate) : HotStateStore :=
  let receivedAt := match s.sourceCursors.get? update.cursorKey with
    | none => update.receivedAt
    | some previous => Datetime.latest previous.receivedAt update.receivedAt
  { s with
    sourceCursors := s.sourceCursors.set update.cursorKey (.ofUpdate update receivedAt) }

/-- The version after the previous state. -/
def nextVersion : Option HotStockState → Int
  | none => 1
  | some previous => previous.version + 1

theorem one_le_nextVersion (previous : Option HotStockState) : 1 ≤ nextVersion previous := by
  cases previous with
  | none => simp [nextVersion]
  | some previous =>
    have hversion := previous.one_le_version
    simp only [nextVersion]
    omega

variable [Sha256]

/-- Remember the fingerprint of an update. -/
def recordMessage (s : HotStateStore) (update : StockRealtimeUpdate) : HotStateStore :=
  { s with
    processedMessages := s.processedMessages.set update.messageId update.fingerprint }

/-- Decide an update that was not seen before. -/
def decideUpdate (s : HotStateStore) (update : StockRealtimeUpdate) :
    HotApplyResult × HotStateStore :=
  let previous := s.states.get? update.stateKey
  let cursor := s.sourceCursors.get? update.cursorKey
  if ∃ c ∈ cursor, update.sourceSequence ≤ c.sourceSequence then
    (⟨.staleSourceSequence, previous, previous⟩, s.recordMessage update)
  else
    let recorded := (s.recordCursor update).recordMessage update
    if ∃ c ∈ cursor, update.receivedAt < c.receivedAt then
      (⟨.staleReceivedAt, previous, previous⟩, recorded)
    else if ∃ p ∈ previous, update.order ≤ p.order then
      (⟨.staleObservation, previous, previous⟩, recorded)
    else
      let current := HotStockState.fromUpdate update (nextVersion previous)
        (one_le_nextVersion previous)
      (⟨.applied, previous, some current⟩,
        { recorded with states := recorded.states.set update.stateKey current })

def apply (s : HotStateStore) (update : StockRealtimeUpdate) :
    Except Error HotApplyResult × HotStateStore :=
  match s.processedMessages.get? update.messageId with
  | some seen =>
    if seen ≠ update.fingerprint then (.error hotStateIdempotencyConflict, s)
    else
      let previous := s.states.get? update.stateKey
      (.ok ⟨.duplicate, previous, previous⟩, s)
  | none =>
    let (result, s) := s.decideUpdate update
    (.ok result, s)

/-- The store after a sequence of updates. -/
def run (s : HotStateStore) (updates : List StockRealtimeUpdate) : HotStateStore :=
  updates.foldl (fun s update => (s.apply update).2) s

theorem admit_processedMessages (s : HotStateStore) (u : StockRealtimeUpdate) :
    (s.decideUpdate u).2.processedMessages = s.processedMessages.set u.messageId u.fingerprint := by
  simp only [decideUpdate]
  split_ifs <;> rfl

theorem apply_processedMessages (s : HotStateStore) (u : StockRealtimeUpdate) :
    (s.apply u).2.processedMessages =
      if s.processedMessages.get? u.messageId = none then
        s.processedMessages.set u.messageId u.fingerprint
      else s.processedMessages := by
  unfold apply
  cases s.processedMessages.get? u.messageId with
  | none => simpa using admit_processedMessages s u
  | some seen => by_cases h : seen ≠ u.fingerprint <;> simp [h]

theorem admit_cases (s : HotStateStore) (u : StockRealtimeUpdate) :
    (∃ version hversion, (s.decideUpdate u).1.disposition = .applied ∧
        (s.decideUpdate u).2.states =
          s.states.set u.stateKey (HotStockState.fromUpdate u version hversion)) ∨
      ((s.decideUpdate u).1.disposition ≠ .applied ∧ (s.decideUpdate u).2.states = s.states) := by
  unfold decideUpdate
  dsimp only
  split_ifs
  · exact .inr ⟨by simp, rfl⟩
  · exact .inr ⟨by simp, rfl⟩
  · exact .inr ⟨by simp, rfl⟩
  · exact .inl ⟨_, one_le_nextVersion _, rfl, rfl⟩

theorem apply_cases (s : HotStateStore) (u : StockRealtimeUpdate) :
    (s.processedMessages.get? u.messageId = none ∧
        ∃ r version hversion, (s.apply u).1 = .ok r ∧ r.disposition = .applied ∧
          (s.apply u).2.states =
            s.states.set u.stateKey (HotStockState.fromUpdate u version hversion)) ∨
      ((∀ r, (s.apply u).1 = .ok r → r.disposition ≠ .applied) ∧
        (s.apply u).2.states = s.states) := by
  unfold apply
  cases hseen : s.processedMessages.get? u.messageId with
  | none =>
    rcases s.admit_cases u with ⟨version, hversion, happlied, hstates⟩ | ⟨hkept, hstates⟩
    · exact .inl ⟨rfl, _, version, hversion, rfl, happlied, hstates⟩
    · refine .inr ⟨fun r hr => ?_, hstates⟩
      cases hr
      exact hkept
  | some seen => by_cases hne : seen ≠ u.fingerprint <;> simp [hne]

theorem isSome_processedMessages_apply {s : HotStateStore} {messageId : String}
    (u : StockRealtimeUpdate) (h : (s.processedMessages.get? messageId).isSome) :
    ((s.apply u).2.processedMessages.get? messageId).isSome := by
  rw [apply_processedMessages]
  split
  · rw [Dict.get?_set]
    split <;> simp [h]
  · exact h

theorem isSome_processedMessages_self (s : HotStateStore) (u : StockRealtimeUpdate) :
    ((s.apply u).2.processedMessages.get? u.messageId).isSome := by
  rw [apply_processedMessages]
  split
  · simp
  · next h => exact Option.isSome_iff_ne_none.mpr h

omit [Sha256] in
def get (s : HotStateStore) (marketDate : Date) (stockId : String) : Option HotStockState :=
  s.states.get? (toLex (marketDate, stockId))

end HotStateStore

end Dayjaview.Realtime
