import Dayjaview.Core.Dict
import Dayjaview.Events.Models

/-!
# The transactional event store

The tables of the store and the operations a transaction has on them. An
operation that fails yields no tables: the transaction around it restores the
tables it started from. A store can be told to fail its next commit.
-/

namespace Dayjaview.Events

open Dayjaview.Domain

/-- The delivery state of an outbox record. -/
inductive OutboxStatus where
  | pending
  | claimed
  | published
  deriving DecidableEq

/-- The fields of a published message. -/
structure OutboxMessage.Fields where
  messageId : String
  eventType : String
  eventVersion : String
  aggregateId : String
  occurredAt : Datetime
  receivedAt : Datetime
  producer : String
  correlationId : String
  causationId : Option String
  payload : Json
  deriving DecidableEq

/-- The checks of a message, in order. -/
def OutboxMessage.Fields.postInit (m : OutboxMessage.Fields) : Except Error Unit := do
  requireTexts [("message_id", m.messageId), ("event_type", m.eventType),
    ("event_version", m.eventVersion), ("aggregate_id", m.aggregateId), ("producer", m.producer),
    ("correlation_id", m.correlationId)]
  requireOptionalText m.causationId "causation_id"
  ensure (m.occurredAt ≤ m.receivedAt) "occurred_at은 received_at 이후일 수 없습니다"

/-- Two messages compare equal: their timestamps denote the same instants. -/
def OutboxMessage.Fields.Same (a b : OutboxMessage.Fields) : Prop :=
  a.messageId = b.messageId ∧ a.eventType = b.eventType ∧ a.eventVersion = b.eventVersion ∧
    a.aggregateId = b.aggregateId ∧ a.occurredAt.instant = b.occurredAt.instant ∧
    a.receivedAt.instant = b.receivedAt.instant ∧ a.producer = b.producer ∧
    a.correlationId = b.correlationId ∧ a.causationId = b.causationId ∧ a.payload = b.payload

instance (a b : OutboxMessage.Fields) : Decidable (a.Same b) :=
  inferInstanceAs (Decidable (_ ∧ _))

structure OutboxMessage extends OutboxMessage.Fields where
  valid : toFields.postInit = .ok ()
  deriving DecidableEq

/-- Build a message with its own copy of the payload, or report the first failed check. -/
def OutboxMessage.make (f : OutboxMessage.Fields) : Except Error OutboxMessage :=
  checked OutboxMessage.Fields.postInit (fun f h => ⟨{ f with payload := f.payload.sortKeys }, h⟩) f

/-- A message with its delivery state. -/
structure OutboxRecord where
  message : OutboxMessage
  status : OutboxStatus
  attempts : Nat
  availableAt : Datetime
  claimedUntil : Option Datetime := none
  publishedAt : Option Datetime := none
  lastError : Option String := none
  deriving DecidableEq

/-- The tables that a transaction backs up. -/
structure Tables where
  events : Dict String CanonicalEvent
  identities : Dict String String
  receipts : Dict String CommandReceipt
  sourceSequences : Dict (String × String) Int
  stateLogs : List EventStateLog
  outbox : Dict String OutboxRecord

namespace Tables

def empty : Tables := ⟨.empty, .empty, .empty, .empty, [], .empty⟩

def getReceipt (t : Tables) (messageId : String) : Option CommandReceipt :=
  t.receipts.get? messageId

def getEvent (t : Tables) (eventId : String) : Option CanonicalEvent := t.events.get? eventId

/-- The event with an identity key. -/
def getEventByIdentity (t : Tables) (identityKey : String) :
    Except Error (Option CanonicalEvent) :=
  match t.identities.get? identityKey with
  | none => .ok none
  | some eventId =>
    match t.events.get? eventId with
    | some event => .ok (some event)
    | none => .error ⟨.keyError, eventId⟩

/-- The highest sequence of a source at an event. -/
def latestSourceSequence (t : Tables) (eventId source : String) : Option Int :=
  t.sourceSequences.get? (eventId, source)

/-- Store a new event under its id and its identity. -/
def insertEvent (t : Tables) (event : CanonicalEvent) : Except Error Tables :=
  if (t.events.get? event.eventId).isSome then
    .error ⟨.eventIdentityConflictError, "Event ID가 이미 존재합니다"⟩
  else if (t.identities.get? event.identityKey).isSome then
    .error ⟨.eventIdentityConflictError, "Event identity가 이미 존재합니다"⟩
  else
    .ok { t with
      events := t.events.set event.eventId event
      identities := t.identities.set event.identityKey event.eventId }

/-- Replace an event by its next state version. -/
def updateEvent (t : Tables) (event : CanonicalEvent) (expectedStateVersion : Nat) :
    Except Error Tables :=
  match t.events.get? event.eventId with
  | none =>
    .error ⟨.concurrentEventWriteError, "Event stateVersion optimistic write가 충돌했습니다"⟩
  | some current =>
    if current.stateVersion ≠ expectedStateVersion then
      .error ⟨.concurrentEventWriteError, "Event stateVersion optimistic write가 충돌했습니다"⟩
    else if event.stateVersion ≠ expectedStateVersion + 1 then
      .error ⟨.concurrentEventWriteError, "Event stateVersion은 한 번에 1씩 증가해야 합니다"⟩
    else .ok { t with events := t.events.set event.eventId event }

/-- Append a state change whose version is not logged yet. -/
def appendStateLog (t : Tables) (stateLog : EventStateLog) : Except Error Tables :=
  if t.stateLogs.any (fun item =>
      item.eventId == stateLog.eventId && item.stateVersion == stateLog.stateVersion) then
    .error ⟨.concurrentEventWriteError, "Event state log version이 중복되었습니다"⟩
  else .ok { t with stateLogs := t.stateLogs ++ [stateLog] }

/-- The highest sequences after a receipt. -/
def raiseSequence (sequences : Dict (String × String) Int) (receipt : CommandReceipt) :
    Dict (String × String) Int :=
  let key := (receipt.eventId, receipt.source)
  match sequences.get? key with
  | none => sequences.set key receipt.sourceSequence
  | some previous =>
    if previous < receipt.sourceSequence then sequences.set key receipt.sourceSequence
    else sequences

/-- Store a receipt and raise the sequence of its source. -/
def saveReceipt (t : Tables) (receipt : CommandReceipt) : Except Error Tables :=
  match t.receipts.get? receipt.messageId with
  | some existing =>
    if existing.commandFingerprint ≠ receipt.commandFingerprint then
      .error ⟨.idempotencyConflictError, "같은 message_id에 서로 다른 command receipt가 있습니다"⟩
    else .ok t
  | none =>
    .ok { t with
      receipts := t.receipts.set receipt.messageId receipt
      sourceSequences := raiseSequence t.sourceSequences receipt }

/-- The record a message is queued with. -/
def queued (message : OutboxMessage) : OutboxRecord :=
  { message, status := .pending, attempts := 0, availableAt := message.receivedAt }

def enqueueOutbox (t : Tables) (message : OutboxMessage) : Except Error Tables :=
  match t.outbox.get? message.messageId with
  | some existing =>
    if ¬ existing.message.Same message.toFields then
      .error ⟨.idempotencyConflictError, "같은 outbox message_id에 서로 다른 payload가 있습니다"⟩
    else .ok t
  | none => .ok { t with outbox := t.outbox.set message.messageId (queued message) }

/-- The state changes of an event, in the order they were made. -/
def eventLogs (t : Tables) (eventId : String) : List EventStateLog :=
  t.stateLogs.filter fun item => item.eventId == eventId

variable {t t' : Tables}

theorem getEventByIdentity_eq_none {key : String} :
    t.getEventByIdentity key = .ok none ↔ t.identities.get? key = none := by
  unfold getEventByIdentity
  cases t.identities.get? key with
  | none => simp
  | some id => cases h : t.events.get? id <;> simp [h]

theorem getEventByIdentity_eq_some {key : String} {event : CanonicalEvent} :
    t.getEventByIdentity key = .ok (some event) ↔
      ∃ id, t.identities.get? key = some id ∧ t.events.get? id = some event := by
  unfold getEventByIdentity
  cases t.identities.get? key with
  | none => simp
  | some id => cases h : t.events.get? id <;> simp [h]

theorem insertEvent_eq_ok {event : CanonicalEvent} :
    t.insertEvent event = .ok t' ↔
      t.events.get? event.eventId = none ∧ t.identities.get? event.identityKey = none ∧
        t' = { t with
          events := t.events.set event.eventId event
          identities := t.identities.set event.identityKey event.eventId } := by
  unfold insertEvent
  cases t.events.get? event.eventId with
  | some e => simp
  | none => cases t.identities.get? event.identityKey <;> simp [eq_comm]

theorem updateEvent_eq_ok {event : CanonicalEvent} {expected : Nat} :
    t.updateEvent event expected = .ok t' ↔
      (∃ current, t.events.get? event.eventId = some current ∧ current.stateVersion = expected) ∧
        event.stateVersion = expected + 1 ∧
        t' = { t with events := t.events.set event.eventId event } := by
  unfold updateEvent
  cases t.events.get? event.eventId with
  | none => simp
  | some current =>
    by_cases hc : current.stateVersion = expected
    · by_cases he : event.stateVersion = expected + 1 <;> simp [hc, he, eq_comm]
    · simp [hc]

theorem appendStateLog_eq_ok {log : EventStateLog} :
    t.appendStateLog log = .ok t' ↔
      (∀ item ∈ t.stateLogs, item.eventId = log.eventId → item.stateVersion ≠ log.stateVersion) ∧
        t' = { t with stateLogs := t.stateLogs ++ [log] } := by
  unfold appendStateLog
  split
  · next h =>
    simp only [List.any_eq_true, Bool.and_eq_true, beq_iff_eq] at h
    obtain ⟨item, hm, hi, hv⟩ := h
    simp only [reduceCtorEq, false_iff, not_and]
    exact fun hall => absurd hv (hall item hm hi)
  · next h =>
    simp only [List.any_eq_true, Bool.and_eq_true, beq_iff_eq, not_exists, not_and] at h
    simp only [Except.ok.injEq, eq_comm (a := t'), iff_and_self]
    exact fun _ item hm hi => h item hm hi

theorem enqueueOutbox_eq_ok {message : OutboxMessage} :
    t.enqueueOutbox message = .ok t' ↔
      (∃ existing, t.outbox.get? message.messageId = some existing ∧
        existing.message.Same message.toFields ∧ t' = t) ∨
      (t.outbox.get? message.messageId = none ∧
        t' = { t with outbox := t.outbox.set message.messageId (queued message) }) := by
  unfold enqueueOutbox
  cases t.outbox.get? message.messageId with
  | none => simp [eq_comm]
  | some existing =>
    by_cases h : existing.message.Same message.toFields <;> simp [h, eq_comm]

theorem saveReceipt_of_none {receipt : CommandReceipt}
    (h : t.receipts.get? receipt.messageId = none) :
    t.saveReceipt receipt = .ok { t with
      receipts := t.receipts.set receipt.messageId receipt
      sourceSequences := raiseSequence t.sourceSequences receipt } := by
  unfold saveReceipt
  rw [h]

end Tables

/-- The store: its tables and whether the next commit is to fail. -/
structure InMemoryEventStore extends Tables where
  failsNextCommit : Bool

namespace InMemoryEventStore

def empty : InMemoryEventStore := ⟨.empty, false⟩

def failNextCommit (s : InMemoryEventStore) : InMemoryEventStore :=
  { s with failsNextCommit := true }

/-- The failure of an armed commit. -/
def simulatedCommitFailure : Error :=
  ⟨.simulatedCommitFailure, "Event transaction commit 실패를 모의했습니다"⟩

/-- Run a body on the tables; an error in it or at commit restores them. -/
def transaction {α : Type} (s : InMemoryEventStore)
    (body : Tables → Except Error (α × Tables)) : Except Error α × InMemoryEventStore :=
  match body s.toTables with
  | .error e => (.error e, s)
  | .ok (a, t) =>
    if s.failsNextCommit then (.error simulatedCommitFailure, { s with failsNextCommit := false })
    else (.ok a, { s with toTables := t })

theorem transaction_toTables {α : Type} (s : InMemoryEventStore)
    (body : Tables → Except Error (α × Tables)) :
    (s.transaction body).2.toTables = s.toTables ∨
      ∃ a, body s.toTables = .ok (a, (s.transaction body).2.toTables) := by
  unfold transaction
  cases body s.toTables with
  | error e => exact .inl rfl
  | ok p =>
    obtain ⟨a, t⟩ := p
    by_cases h : s.failsNextCommit
    · simp [h]
    · exact .inr ⟨a, by simp [h]⟩

theorem transaction_eq_ok {α : Type} {s : InMemoryEventStore}
    {body : Tables → Except Error (α × Tables)} {a : α} (h : (s.transaction body).1 = .ok a) :
    body s.toTables = .ok (a, (s.transaction body).2.toTables) := by
  unfold transaction at h ⊢
  cases hb : body s.toTables with
  | error e => simp [hb] at h
  | ok p =>
    obtain ⟨b, t⟩ := p
    by_cases hf : s.failsNextCommit <;> simp_all

end InMemoryEventStore

end Dayjaview.Events
