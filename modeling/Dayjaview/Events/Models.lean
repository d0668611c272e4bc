import Dayjaview.Core.Calendar
import Dayjaview.Core.Json
import Dayjaview.Domain.State

/-!
# Canonical events, their commands and what the writer records

Every record repeats the checks its constructor makes. A command is addressed by
its message id and recognised by the digest of its canonical form; opaque ids
are truncated digests under a prefix.
-/

namespace Dayjaview.Events

open Dayjaview.Domain

/-- The schema version written into commands. -/
def EVENT_COMMAND_SCHEMA_VERSION : String := "event-command-2026.08.1"

/-- The version of the published domain events. -/
def EVENT_DOMAIN_EVENT_VERSION : String := "1"

/-- The producer of the published domain events. -/
def EVENT_PRODUCER : String := "dayjaview.events"

/-- A prefixed, truncated digest. -/
def opaqueId [Sha256] (pre value : String) : String :=
  pre ++ "_" ++ takeText 32 (hexdigest value)

theorem isBlank_opaqueId [Sha256] {pre : String} (value : String) (h : isBlank pre = false) :
    isBlank (opaqueId pre value) = false := by
  simp [opaqueId, isBlank_append, h]

/-- An optional text as a value. -/
def optionalText : Option String → Json
  | none => .null
  | some s => .str s

/-- Run a check on every listed field. -/
def requireTexts : List (String × String) → Except Error Unit
  | [] => .ok ()
  | (fieldName, value) :: fields => do
    requireText value fieldName
    requireTexts fields

@[simp] theorem requireTexts_eq_ok {fields : List (String × String)} :
    requireTexts fields = .ok () ↔ ∀ f ∈ fields, isBlank f.2 = false := by
  induction fields with
  | nil => simp [requireTexts]
  | cons f fields ih => simp [requireTexts, ih]

/-- The fields of a reference to one input of a decision. -/
structure LineageRef.Fields where
  kind : String
  identifier : String
  version : Option String := none
  contentHash : Option String := none
  deriving DecidableEq

/-- No text of a reference is blank. -/
def LineageRef.Fields.postInit (r : LineageRef.Fields) : Except Error Unit := do
  requireText r.kind "lineage.kind"
  requireText r.identifier "lineage.identifier"
  requireOptionalText r.version "lineage.version"
  requireOptionalText r.contentHash "lineage.content_hash"

/-- One immutable input reference of a decision. -/
structure LineageRef extends LineageRef.Fields where
  valid : toFields.postInit = .ok ()
  deriving DecidableEq

/-- The written form of a reference. -/
def LineageRef.toDict (r : LineageRef) : Json :=
  .obj [("kind", .str r.kind), ("identifier", .str r.identifier),
    ("version", optionalText r.version), ("contentHash", optionalText r.contentHash)]

/-- The part of a reference that a command may mention only once. -/
def LineageRef.key (r : LineageRef) : String × String × Option String :=
  (r.kind, r.identifier, r.version)

/-- The fields of the metadata of a command. -/
structure EventInputMetadata.Fields where
  messageId : String
  source : String
  sourceSequence : Int
  occurredAt : Datetime
  receivedAt : Datetime
  correlationId : String
  causationId : Option String := none
  lineage : List LineageRef := []

/-- The checks of the metadata, in order. -/
def EventInputMetadata.Fields.postInit (m : EventInputMetadata.Fields) : Except Error Unit := do
  requireTexts [("message_id", m.messageId), ("source", m.source),
    ("correlation_id", m.correlationId)]
  requireOptionalText m.causationId "causation_id"
  ensure (0 ≤ m.sourceSequence) "source_sequence는 음수일 수 없습니다"
  ensure (m.occurredAt ≤ m.receivedAt) "occurred_at은 received_at 이후일 수 없습니다"
  ensure (m.lineage.map LineageRef.key).Nodup "lineage에 중복 참조가 있습니다"

/-- Idempotency, ordering, source-time and causal metadata of a command. -/
structure EventInputMetadata extends EventInputMetadata.Fields where
  valid : toFields.postInit = .ok ()

/-- Build the metadata, or report the first failed check. -/
def EventInputMetadata.make (f : EventInputMetadata.Fields) : Except Error EventInputMetadata :=
  checked EventInputMetadata.Fields.postInit EventInputMetadata.mk f

/-- The written form of the metadata. -/
def EventInputMetadata.toDict (m : EventInputMetadata) : Json :=
  .obj [("messageId", .str m.messageId), ("source", .str m.source),
    ("sourceSequence", .int m.sourceSequence), ("occurredAt", .str m.occurredAt.isoformat),
    ("receivedAt", .str m.receivedAt.isoformat), ("correlationId", .str m.correlationId),
    ("causationId", optionalText m.causationId),
    ("lineage", .arr (m.lineage.map LineageRef.toDict))]

/-- The natural identity of an event, used for idempotency only. -/
structure CanonicalEventIdentity where
  marketDate : Date
  canonicalThemeId : String
  catalystKey : String
  valid : (do
    requireText canonicalThemeId "canonical_theme_id"
    requireText catalystKey "catalyst_key") = Except.ok ()

/-- Build an identity, or report the first failed check. -/
def CanonicalEventIdentity.make (marketDate : Date) (canonicalThemeId catalystKey : String) :
    Except Error CanonicalEventIdentity :=
  checked (fun t : String × String => do
      requireText t.1 "canonical_theme_id"
      requireText t.2 "catalyst_key")
    (fun t h => ⟨marketDate, t.1, t.2, h⟩) (canonicalThemeId, catalystKey)

/-- The identity as the input of its key. -/
def CanonicalEventIdentity.naturalKey (i : CanonicalEventIdentity) : Json :=
  .obj [("marketDate", .str i.marketDate.isoformat),
    ("canonicalThemeId", .str i.canonicalThemeId), ("catalystKey", .str i.catalystKey)]

def CanonicalEventIdentity.identityKey [Sha256] (i : CanonicalEventIdentity) : String :=
  opaqueId "eventkey" i.naturalKey.canonical

/-- The id of the event with this identity. -/
def CanonicalEventIdentity.eventId [Sha256] (i : CanonicalEventIdentity) : String :=
  opaqueId "evt" i.identityKey

/-- The written form of the identity. -/
def CanonicalEventIdentity.toDict [Sha256] (i : CanonicalEventIdentity) : Json :=
  .obj [("marketDate", .str i.marketDate.isoformat),
    ("canonicalThemeId", .str i.canonicalThemeId), ("catalystKey", .str i.catalystKey),
    ("identityKey", .str i.identityKey)]

/-- The versions of the inputs an event was computed from. -/
structure EventVersions where
  calculationVersion : String
  rankingModelVersion : String
  membershipVersion : String
  baselineVersion : Option String
  valid : (do
    requireTexts [("calculation_version", calculationVersion),
      ("ranking_model_version", rankingModelVersion), ("membership_version", membershipVersion)]
    requireOptionalText baselineVersion "baseline_version") = Except.ok ()

/-- Build the versions, or report the first failed check. -/
def EventVersions.make (calculationVersion rankingModelVersion membershipVersion : String)
    (baselineVersion : Option String) : Except Error EventVersions :=
  checked (fun t : String × String × String × Option String => do
      requireTexts [("calculation_version", t.1), ("ranking_model_version", t.2.1),
        ("membership_version", t.2.2.1)]
      requireOptionalText t.2.2.2 "baseline_version")
    (fun t h => ⟨t.1, t.2.1, t.2.2.1, t.2.2.2, h⟩)
    (calculationVersion, rankingModelVersion, membershipVersion, baselineVersion)

/-- The written form of the versions. -/
def EventVersions.toDict (v : EventVersions) : Json :=
  .obj [("calculationVersion", .str v.calculationVersion),
    ("rankingModelVersion", .str v.rankingModelVersion),
    ("membershipVersion", .str v.membershipVersion),
    ("baselineVersion", optionalText v.baselineVersion)]

inductive ClassificationKind where
  | infostockTheme
  | unclassifiedCluster
  | temporaryTheme
  deriving DecidableEq

/-- The written form of a classification kind. -/
def ClassificationKind.value : ClassificationKind → String
  | infostockTheme => "INFOSTOCK_THEME"
  | unclassifiedCluster => "UNCLASSIFIED_CLUSTER"
  | temporaryTheme => "TEMPORARY_THEME"

/-- How certain a classification is. -/
inductive ClassificationCertainty where
  | provisional
  | confirmed
  deriving DecidableEq

/-- The written form of a certainty. -/
def ClassificationCertainty.value : ClassificationCertainty → String
  | provisional => "PROVISIONAL"
  | confirmed => "CONFIRMED"

inductive ClassificationSource where
  | liveEngine
  | operator
  | infostock
  deriving DecidableEq

/-- The written form of a classification source. -/
def ClassificationSource.value : ClassificationSource → String
  | liveEngine => "LIVE_ENGINE"
  | operator => "OPERATOR"
  | infostock => "INFOSTOCK"

/-- The fields of a classification. -/
structure EventClassification.Fields where
  classificationVersion : Nat
  themeId : String
  displayName : String
  kind : ClassificationKind
  certainty : ClassificationCertainty
  source : ClassificationSource
  changedAt : Datetime

/-- The checks of a classification, in order. -/
def EventClassification.Fields.postInit (c : EventClassification.Fields) : Except Error Unit := do
  ensure (1 ≤ c.classificationVersion) "classification_version은 1 이상이어야 합니다"
  requireText c.themeId "theme_id"
  requireText c.displayName "display_name"

/-- The public classification of an event. -/
structure EventClassification extends EventClassification.Fields where
  valid : toFields.postInit = .ok ()

/-- Build a classification, or report the first failed check. -/
def EventClassification.make (f : EventClassification.Fields) : Except Error EventClassification :=
  checked EventClassification.Fields.postInit EventClassification.mk f

/-- The fields of a canonical event. -/
structure CanonicalEvent.Fields where
  eventId : String
  identityKey : String
  marketDate : Date
  canonicalThemeId : String
  catalystKey : String
  lifecycleStatus : LifecycleStatus
  reconciliationStatus : ReconciliationStatus
  stateVersion : Nat
  statePolicyVersion : String
  classification : EventClassification
  firstDetectedAt : Datetime
  changedAt : Datetime
  lastSource : String
  lastSourceSequence : Int
  lastReceivedAt : Datetime
  lineage : List LineageRef
  versions : EventVersions

/-- The checks of an event, in order. -/
def CanonicalEvent.Fields.postInit (e : CanonicalEvent.Fields) : Except Error Unit := do
  requireTexts [("event_id", e.eventId), ("identity_key", e.identityKey),
    ("canonical_theme_id", e.canonicalThemeId), ("catalyst_key", e.catalystKey),
    ("state_policy_version", e.statePolicyVersion), ("last_source", e.lastSource)]
  ensure (1 ≤ e.stateVersion) "state_version은 1 이상이어야 합니다"
  ensure (0 ≤ e.lastSourceSequence) "last_source_sequence는 음수일 수 없습니다"
  ensure (e.firstDetectedAt ≤ e.changedAt)
    "changed_at은 first_detected_at보다 빠를 수 없습니다"

structure CanonicalEvent extends CanonicalEvent.Fields where
  valid : toFields.postInit = .ok ()

/-- Build an event, or report the first failed check. -/
def CanonicalEvent.make (f : CanonicalEvent.Fields) : Except Error CanonicalEvent :=
  checked CanonicalEvent.Fields.postInit CanonicalEvent.mk f

/-- Create the event of an identity. -/
structure CreateEventCommand where
  metadata : EventInputMetadata
  identity : CanonicalEventIdentity
  displayName : String
  versions : EventVersions
  classificationKind : ClassificationKind := .infostockTheme
  classificationCertainty : ClassificationCertainty := .provisional
  classificationSource : ClassificationSource := .liveEngine
  valid : requireText displayName "display_name" = .ok ()

/-- Build a creation, or report the failed check. -/
def CreateEventCommand.make (metadata : EventInputMetadata) (identity : CanonicalEventIdentity)
    (displayName : String) (versions : EventVersions) : Except Error CreateEventCommand :=
  checked (fun displayName => requireText displayName "display_name")
    (fun displayName valid => { metadata, identity, displayName, versions, valid }) displayName

/-- The written form of a creation. -/
def CreateEventCommand.toDict [Sha256] (c : CreateEventCommand) : Json :=
  .obj [("commandType", .str "CREATE_EVENT"),
    ("schemaVersion", .str EVENT_COMMAND_SCHEMA_VERSION), ("metadata", c.metadata.toDict),
    ("identity", c.identity.toDict), ("displayName", .str c.displayName),
    ("versions", c.versions.toDict), ("classificationKind", .str c.classificationKind.value),
    ("classificationCertainty", .str c.classificationCertainty.value),
    ("classificationSource", .str c.classificationSource.value)]

/-- The fields of a command that changes one status of an event. -/
structure StatusCommand.Fields (σ : Type) where
  metadata : EventInputMetadata
  eventId : String
  target : σ
  expectedStateVersion : Nat
  reason : String
  policyVersion : String

/-- The written form of a command that changes one status. -/
def StatusCommand.Fields.toDict {σ : Type} (commandType : String) (value : σ → String)
    (c : StatusCommand.Fields σ) : Json :=
  .obj [("commandType", .str commandType), ("schemaVersion", .str EVENT_COMMAND_SCHEMA_VERSION),
    ("metadata", c.metadata.toDict), ("eventId", .str c.eventId), ("target", .str (value c.target)),
    ("expectedStateVersion", .int c.expectedStateVersion), ("reason", .str c.reason),
    ("policyVersion", .str c.policyVersion)]

/-- The checks of a lifecycle transition, in order. -/
def TransitionLifecycleCommand.postInit (c : StatusCommand.Fields LifecycleStatus) :
    Except Error Unit := do
  requireText c.eventId "event_id"
  requireText c.reason "reason"
  requireText c.policyVersion "policy_version"
  ensure (1 ≤ c.expectedStateVersion) "expected_state_version은 1 이상이어야 합니다"

/-- Move an event along its lifecycle. -/
structure TransitionLifecycleCommand extends StatusCommand.Fields LifecycleStatus where
  valid : TransitionLifecycleCommand.postInit toFields = .ok ()

/-- Build a lifecycle transition, or report the first failed check. -/
def TransitionLifecycleCommand.make (f : StatusCommand.Fields LifecycleStatus) :
    Except Error TransitionLifecycleCommand :=
  checked TransitionLifecycleCommand.postInit TransitionLifecycleCommand.mk f

/-- The written form of a lifecycle transition. -/
def TransitionLifecycleCommand.toDict (c : TransitionLifecycleCommand) : Json :=
  c.toFields.toDict "TRANSITION_LIFECYCLE" LifecycleStatus.value

/-- The checks of a reconciliation, in order. -/
def ReconcileEventCommand.postInit (c : StatusCommand.Fields ReconciliationStatus) :
    Except Error Unit := do
  requireText c.eventId "event_id"
  requireText c.reason "reason"
  requireText c.policyVersion "policy_version"
  ensure (c.target ≠ .pending) "reconciliation target은 PENDING일 수 없습니다"
  ensure (1 ≤ c.expectedStateVersion) "expected_state_version은 1 이상이어야 합니다"

/-- Record the after-close reconciliation of an event. -/
structure ReconcileEventCommand extends StatusCommand.Fields ReconciliationStatus where
  valid : ReconcileEventCommand.postInit toFields = .ok ()

/-- The written form of a reconciliation. -/
def ReconcileEventCommand.toDict (c : ReconcileEventCommand) : Json :=
  c.toFields.toDict "RECONCILE_EVENT" ReconciliationStatus.value

inductive EventCommand where
  | create (command : CreateEventCommand)
  /-- Change its lifecycle status. -/
  | transition (command : TransitionLifecycleCommand)
  /-- Change its reconciliation status. -/
  | reconcile (command : ReconcileEventCommand)

def EventCommand.metadata : EventCommand → EventInputMetadata
  | create c => c.metadata
  | transition c => c.metadata
  | reconcile c => c.metadata

/-- The written form of a command. -/
def EventCommand.toDict [Sha256] : EventCommand → Json
  | create c => c.toDict
  | transition c => c.toDict
  | reconcile c => c.toDict

/-- The digest that recognises a command. -/
def commandFingerprint [Sha256] (command : EventCommand) : String := jsonDigest command.toDict

inductive EventWriteDisposition where
  | applied
  | duplicateIdentity
  | alreadyInState
  | staleSourceSequence
  | staleStateVersion
  | staleOccurredAt
  deriving DecidableEq

structure EventWriteResult where
  event : CanonicalEvent
  disposition : EventWriteDisposition
  outboxMessageId : Option String

/-- The record of a processed command. -/
structure CommandReceipt where
  messageId : String
  commandFingerprint : String
  eventId : String
  source : String
  sourceSequence : Int
  receivedAt : Datetime
  result : EventWriteResult

/-- A status of either logged axis. -/
inductive Status where
  | lifecycle (status : LifecycleStatus)
  | reconciliation (status : ReconciliationStatus)
  deriving DecidableEq

/-- One state change of an event. -/
structure EventStateLog where
  eventId : String
  stateVersion : Nat
  fromStatus : Option Status
  toStatus : Status
  policyVersion : String
  reason : String
  occurredAt : Datetime
  receivedAt : Datetime
  source : String
  sourceSequence : Int
  commandMessageId : String
  lineage : List LineageRef
  axis : StateAxis := .lifecycle

/-- The id of the message a command publishes. -/
def outboxMessageId [Sha256] (commandMessageId eventType : String) : String :=
  opaqueId "msg" s!"{commandMessageId}:{eventType}"

end Dayjaview.Events
