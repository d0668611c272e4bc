import Dayjaview.Events.Store

/-!
# The event writer

The only component that creates or changes canonical events. A command is looked
up by its message id first; a new command is decided against the current event
and, when it applies, writes the event, one log entry and one outbox message in
the same transaction as its receipt. Lifecycle transitions and reconciliations
run the same steps on different axes.
-/

namespace Dayjaview.Events

open Dayjaview.Domain

namespace EventWriter

variable [Sha256]

/-- The message that publishes a change of an event. -/
def eventMessage (event : CanonicalEvent) (metadata : EventInputMetadata) (eventType : String)
    (payload : List (String × Json)) : Except Error OutboxMessage :=
  OutboxMessage.make
    { messageId := outboxMessageId metadata.messageId eventType
      eventType
      eventVersion := EVENT_DOMAIN_EVENT_VERSION
      aggregateId := event.eventId
      occurredAt := metadata.occurredAt
      receivedAt := metadata.receivedAt
      producer := EVENT_PRODUCER
      correlationId := metadata.correlationId
      causationId := metadata.causationId
      payload := .obj payload }

/-- The log entry of a creation. -/
def createdLog (event : CanonicalEvent) (metadata : EventInputMetadata) : EventStateLog where
  eventId := event.eventId
  stateVersion := event.stateVersion
  fromStatus := none
  toStatus := .lifecycle .candidate
  policyVersion := event.statePolicyVersion
  reason := "최초 후보 탐지"
  occurredAt := metadata.occurredAt
  receivedAt := metadata.receivedAt
  source := metadata.source
  sourceSequence := metadata.sourceSequence
  commandMessageId := metadata.messageId
  lineage := metadata.lineage

/-- The classification a creation starts with. -/
def initialClassification (command : CreateEventCommand) : EventClassification.Fields where
  classificationVersion := 1
  themeId := command.identity.canonicalThemeId
  displayName := command.displayName
  kind := command.classificationKind
  certainty := command.classificationCertainty
  source := command.classificationSource
  changedAt := command.metadata.occurredAt

/-- The event a creation starts with. -/
def initialEvent (command : CreateEventCommand) (classification : EventClassification) :
    CanonicalEvent.Fields where
  eventId := command.identity.eventId
  identityKey := command.identity.identityKey
  marketDate := command.identity.marketDate
  canonicalThemeId := command.identity.canonicalThemeId
  catalystKey := command.identity.catalystKey
  lifecycleStatus := .candidate
  reconciliationStatus := .pending
  stateVersion := 1
  statePolicyVersion := command.versions.rankingModelVersion
  classification
  firstDetectedAt := command.metadata.occurredAt
  changedAt := command.metadata.occurredAt
  lastSource := command.metadata.source
  lastSourceSequence := command.metadata.sourceSequence
  lastReceivedAt := command.metadata.receivedAt
  lineage := command.metadata.lineage
  versions := command.versions

def createdPayload (event : CanonicalEvent) : List (String × Json) :=
  [("eventId", .str event.eventId), ("lifecycleStatus", .str event.lifecycleStatus.value),
    ("stateVersion", .int event.stateVersion),
    ("classificationVersion", .int event.classification.classificationVersion),
    ("versions", event.versions.toDict)]

/-- Create the event of an identity, unless it exists. -/
def create (t : Tables) (command : CreateEventCommand) : Except Error (EventWriteResult × Tables) :=
  do
  match ← t.getEventByIdentity command.identity.identityKey with
  | some existing => return (⟨existing, .duplicateIdentity, none⟩, t)
  | none =>
    let classification ← EventClassification.make (initialClassification command)
    let event ← CanonicalEvent.make (initialEvent command classification)
    let t ← t.insertEvent event
    let t ← t.appendStateLog (createdLog event command.metadata)
    let message ← eventMessage event command.metadata "canonical_event.created"
      (createdPayload event)
    let t ← t.enqueueOutbox message
    return (⟨event, .applied, some message.messageId⟩, t)

/-- What a lifecycle transition and a reconciliation do differently. -/
structure StatusAxis (σ : Type) where
  axis : StateAxis
  status : σ → Status
  current : CanonicalEvent → σ
  transition : σ → σ → String → Except Error StateTransition
  change : CanonicalEvent → StatusCommand.Fields σ → Except Error CanonicalEvent.Fields
  eventType : String
  payload : CanonicalEvent → CanonicalEvent → StatusCommand.Fields σ → List (String × Json)

variable {σ : Type} [DecidableEq σ]

/-- Why a command changes nothing, if it does not. -/
def settled (a : StatusAxis σ) (t : Tables) (event : CanonicalEvent)
    (command : StatusCommand.Fields σ) : Except Error (Option EventWriteDisposition) :=
  if ∃ latest ∈ t.latestSourceSequence event.eventId command.metadata.source,
      command.metadata.sourceSequence ≤ latest then
    .ok (some .staleSourceSequence)
  else if command.expectedStateVersion < event.stateVersion then
    .ok (some .staleStateVersion)
  else if event.stateVersion < command.expectedStateVersion then
    .error ⟨.concurrentEventWriteError,
      "expected_state_version이 현재 Event stateVersion보다 큽니다"⟩
  else if command.metadata.occurredAt < event.changedAt then
    .ok (some .staleOccurredAt)
  else if command.target = a.current event then
    .ok (some .alreadyInState)
  else .ok none

/-- The changed event under its next state version. -/
def nextVersion (event : CanonicalEvent) (changed : CanonicalEvent.Fields)
    (metadata : EventInputMetadata) (policyVersion : String) : CanonicalEvent.Fields :=
  { changed with
    stateVersion := event.stateVersion + 1
    statePolicyVersion := policyVersion
    changedAt := metadata.occurredAt
    lastSource := metadata.source
    lastSourceSequence := metadata.sourceSequence
    lastReceivedAt := metadata.receivedAt
    lineage := metadata.lineage }

def changedLog (a : StatusAxis σ) (event updated : CanonicalEvent)
    (command : StatusCommand.Fields σ) : EventStateLog where
  eventId := updated.eventId
  stateVersion := updated.stateVersion
  fromStatus := some (a.status (a.current event))
  toStatus := a.status command.target
  policyVersion := command.policyVersion
  reason := command.reason
  occurredAt := command.metadata.occurredAt
  receivedAt := command.metadata.receivedAt
  source := command.metadata.source
  sourceSequence := command.metadata.sourceSequence
  commandMessageId := command.metadata.messageId
  lineage := command.metadata.lineage
  axis := a.axis

/-- Write the changed event, its log entry and its message. -/
def applyChange (a : StatusAxis σ) (t : Tables) (event : CanonicalEvent)
    (command : StatusCommand.Fields σ) : Except Error (EventWriteResult × Tables) := do
  let _ ← a.transition (a.current event) command.target command.policyVersion
  let changed ← a.change event command
  let updated ← CanonicalEvent.make
    (nextVersion event changed command.metadata command.policyVersion)
  let t ← t.updateEvent updated event.stateVersion
  let t ← t.appendStateLog (changedLog a event updated command)
  let message ← eventMessage updated command.metadata a.eventType (a.payload event updated command)
  let t ← t.enqueueOutbox message
  return (⟨updated, .applied, some message.messageId⟩, t)

/-- Decide a command on one axis against the stored event. -/
def changeStatus (a : StatusAxis σ) (t : Tables) (command : StatusCommand.Fields σ) :
    Except Error (EventWriteResult × Tables) :=
  match t.getEvent command.eventId with
  | none =>
    .error ⟨.eventNotFoundError, s!"Event를 찾을 수 없습니다: {command.eventId}"⟩
  | some event => do
    match ← settled a t event command with
    | some disposition => return (⟨event, disposition, none⟩, t)
    | none => applyChange a t event command

def lifecycleAxis : StatusAxis LifecycleStatus where
  axis := .lifecycle
  status := .lifecycle
  current event := event.lifecycleStatus
  transition current target policyVersion := transitionLifecycle current target policyVersion
  change event command := .ok { event.toFields with lifecycleStatus := command.target }
  eventType := "canonical_event.lifecycle_changed"
  payload event updated command :=
    [("eventId", .str updated.eventId),
      ("fromLifecycleStatus", .str event.lifecycleStatus.value),
      ("lifecycleStatus", .str updated.lifecycleStatus.value),
      ("stateVersion", .int updated.stateVersion), ("policyVersion", .str command.policyVersion),
      ("reason", .str command.reason)]

/-- Move an event along its lifecycle. -/
def transition (t : Tables) (command : TransitionLifecycleCommand) :
    Except Error (EventWriteResult × Tables) :=
  changeStatus lifecycleAxis t command.toFields

/-- The classification after a reconciliation; only a match confirms it. -/
def reconciledClassification (event : CanonicalEvent)
    (command : StatusCommand.Fields ReconciliationStatus) : Except Error EventClassification :=
  if command.target = .matched then
    EventClassification.make
      { event.classification.toFields with
        classificationVersion := event.classification.classificationVersion + 1
        certainty := .confirmed
        source := .infostock
        changedAt := command.metadata.occurredAt }
  else .ok event.classification

def reconciliationAxis : StatusAxis ReconciliationStatus where
  axis := .reconciliation
  status := .reconciliation
  current event := event.reconciliationStatus
  transition current target policyVersion := transitionReconciliation current target policyVersion
  change event command := do
    let classification ← reconciledClassification event command
    return { event.toFields with reconciliationStatus := command.target, classification }
  eventType := "canonical_event.reconciled"
  payload event updated command :=
    [("eventId", .str updated.eventId),
      ("fromReconciliationStatus", .str event.reconciliationStatus.value),
      ("reconciliationStatus", .str updated.reconciliationStatus.value),
      ("stateVersion", .int updated.stateVersion),
      ("classificationVersion", .int updated.classification.classificationVersion),
      ("policyVersion", .str command.policyVersion), ("reason", .str command.reason)]

/-- Record the after-close reconciliation of an event. -/
def reconcile (t : Tables) (command : ReconcileEventCommand) :
    Except Error (EventWriteResult × Tables) :=
  changeStatus reconciliationAxis t command.toFields

/-- Decide a command that has no receipt yet. -/
def decideCommand (t : Tables) : EventCommand → Except Error (EventWriteResult × Tables)
  | .create command => create t command
  | .transition command => transition t command
  | .reconcile command => reconcile t command

/-- The receipt of a decided command. -/
def receiptOf (command : EventCommand) (result : EventWriteResult) : CommandReceipt where
  messageId := command.metadata.messageId
  commandFingerprint := Events.commandFingerprint command
  eventId := result.event.eventId
  source := command.metadata.source
  sourceSequence := command.metadata.sourceSequence
  receivedAt := command.metadata.receivedAt
  result

/-- The answer to a different command under a used message id. -/
def idempotencyConflict : Error :=
  ⟨.idempotencyConflictError, "같은 message_id에 서로 다른 Event command가 제출되었습니다"⟩

/-- What a write does inside its transaction. -/
def writeBody (command : EventCommand) (t : Tables) :
    Except Error (EventWriteResult × Tables) :=
  match t.getReceipt command.metadata.messageId with
  | some receipt =>
    if receipt.commandFingerprint ≠ commandFingerprint command then .error idempotencyConflict
    else .ok (receipt.result, t)
  | none => do
    let (result, t) ← decideCommand t command
    let t ← t.saveReceipt (receiptOf command result)
    return (result, t)

def write (s : InMemoryEventStore) (command : EventCommand) :
    Except Error EventWriteResult × InMemoryEventStore :=
  s.transaction (writeBody command)

end EventWriter

/-- What happens to a store: a write, or the failpoint is armed. -/
inductive StoreOp where
  | write (command : EventCommand)
  /-- The next commit is to fail. -/
  | failNextCommit

namespace InMemoryEventStore

variable [Sha256]

/-- The store after an operation. -/
def step (s : InMemoryEventStore) : StoreOp → InMemoryEventStore
  | .write command => (EventWriter.write s command).2
  | .failNextCommit => s.failNextCommit

/-- The store after a sequence of operations. -/
def run (s : InMemoryEventStore) (ops : List StoreOp) : InMemoryEventStore := ops.foldl step s

end InMemoryEventStore

end Dayjaview.Events
