import Dayjaview.Events.Fingerprint
import Dayjaview.Events.Writer

/-!
# What one write can do to the tables

Every successful decision either leaves the tables alone or records one step: an
event, a log entry of a new state version and a message. These lemmas say so
once, so that no property of runs has to unfold the writer again.
-/

namespace Dayjaview.Events

open Dayjaview.Domain

/-- One step of an event: the event is stored, its change logged and published. -/
structure Recorded (t t' : Tables) (event : CanonicalEvent) (log : EventStateLog)
    (message : OutboxMessage) : Prop where
  events : t'.events = t.events.set event.eventId event
  fresh : ∀ item ∈ t.stateLogs, item.eventId = log.eventId → item.stateVersion ≠ log.stateVersion
  stateLogs : t'.stateLogs = t.stateLogs ++ [log]
  outbox : (∃ existing, t.outbox.get? message.messageId = some existing ∧
      existing.message.Same message.toFields ∧ t'.outbox = t.outbox) ∨
    (t.outbox.get? message.messageId = none ∧
      t'.outbox = t.outbox.set message.messageId (Tables.queued message))
  receipts : t'.receipts = t.receipts
  sourceSequences : t'.sourceSequences = t.sourceSequences

namespace EventWriter

variable [Sha256]

theorem eventMessage_eq_ok {event : CanonicalEvent} {metadata : EventInputMetadata}
    {eventType : String} {payload : List (String × Json)} {message : OutboxMessage}
    (h : eventMessage event metadata eventType payload = .ok message) :
    message.messageId = outboxMessageId metadata.messageId eventType ∧
      message.aggregateId = event.eventId ∧ message.payload = (Json.obj payload).sortKeys := by
  unfold eventMessage OutboxMessage.make at h
  obtain ⟨-, rfl⟩ := checked_eq_ok.mp h
  exact ⟨rfl, rfl, rfl⟩

theorem create_cases {t t' : Tables} {command : CreateEventCommand} {r : EventWriteResult}
    (h : create t command = .ok (r, t')) :
    (∃ existing, t.getEventByIdentity command.identity.identityKey = .ok (some existing) ∧
      r = ⟨existing, .duplicateIdentity, none⟩ ∧ t' = t) ∨
    ∃ classification event message,
      t.identities.get? command.identity.identityKey = none ∧
      t.events.get? command.identity.eventId = none ∧
      classification.toFields = initialClassification command ∧
      event.toFields = initialEvent command classification ∧
      eventMessage event command.metadata "canonical_event.created" (createdPayload event) =
        .ok message ∧
      Recorded t t' event (createdLog event command.metadata) message ∧
      t'.identities = t.identities.set event.identityKey event.eventId ∧
      r = ⟨event, .applied, some message.messageId⟩ := by
  simp only [create, bind_eq_ok] at h
  obtain ⟨found, hfound, h⟩ := h
  cases found with
  | some existing =>
    cases h
    exact .inl ⟨existing, hfound, rfl, rfl⟩
  | none =>
    right
    simp only [bind_eq_ok, Tables.insertEvent_eq_ok, Tables.appendStateLog_eq_ok] at h
    obtain ⟨classification, hclass, event, hevent, t₁, ⟨hid, hkey, rfl⟩, t₂, ⟨hfresh, rfl⟩,
      message, hmessage, t₃, ht₃, h⟩ := h
    cases h
    obtain ⟨_, rfl⟩ := checked_eq_ok.mp hclass
    obtain ⟨_, rfl⟩ := checked_eq_ok.mp hevent
    refine ⟨_, _, message, hkey, hid, rfl, rfl, hmessage, ?_, ?_, rfl⟩
    · obtain ⟨existing, hget, hsame, rfl⟩ | ⟨hget, rfl⟩ := Tables.enqueueOutbox_eq_ok.mp ht₃
      · exact ⟨rfl, hfresh, rfl, .inl ⟨existing, hget, hsame, rfl⟩, rfl, rfl⟩
      · exact ⟨rfl, hfresh, rfl, .inr ⟨hget, rfl⟩, rfl, rfl⟩
    · obtain ⟨existing, hget, hsame, rfl⟩ | ⟨hget, rfl⟩ := Tables.enqueueOutbox_eq_ok.mp ht₃ <;> rfl

omit [Sha256] in
theorem metadata_valid (m : EventInputMetadata) :
    (isBlank m.messageId = false ∧ isBlank m.source = false ∧ isBlank m.correlationId = false) ∧
      (∀ v ∈ m.causationId, isBlank v = false) ∧ 0 ≤ m.sourceSequence ∧
      m.occurredAt ≤ m.receivedAt ∧ (m.lineage.map LineageRef.key).Nodup := by
  have h := m.valid
  simpa [EventInputMetadata.Fields.postInit] using h

theorem eventMessage_ok (event : CanonicalEvent) (metadata : EventInputMetadata)
    (eventType : String) (payload : List (String × Json)) (h : isBlank eventType = false) :
    ∃ message, eventMessage event metadata eventType payload = .ok message := by
  obtain ⟨⟨-, -, hcorrelation⟩, hcausation, -, htime, -⟩ := metadata_valid metadata
  have hid : isBlank event.eventId = false := by
    have hv := event.valid
    simp only [CanonicalEvent.Fields.postInit, check_bind_eq_ok, requireTexts_eq_ok] at hv
    exact hv.1 _ (List.mem_cons_self ..)
  unfold eventMessage OutboxMessage.make
  refine ⟨_, checked_of_ok ?_⟩
  simp only [OutboxMessage.Fields.postInit, check_bind_eq_ok, requireTexts_eq_ok,
    requireOptionalText_eq_ok, ensure_eq_ok, List.forall_mem_cons]
  refine ⟨⟨isBlank_opaqueId _ (by decide), h, by decide, hid, by decide, hcorrelation, ?_⟩,
    hcausation, htime⟩
  simp

theorem initialEvent_ok (command : CreateEventCommand) :
    ∃ classification event, EventClassification.make (initialClassification command) =
        .ok classification ∧
      CanonicalEvent.make (initialEvent command classification) = .ok event := by
  obtain ⟨⟨-, hsource, -⟩, -, hsequence, -, -⟩ := metadata_valid command.metadata
  obtain ⟨htheme, hcatalyst⟩ : isBlank command.identity.canonicalThemeId = false ∧
      isBlank command.identity.catalystKey = false := by
    simpa using command.identity.valid
  have hname : isBlank command.displayName = false := by simpa using command.valid
  have hpolicy : isBlank command.versions.rankingModelVersion = false := by
    have hv := command.versions.valid
    simp only [check_bind_eq_ok, requireTexts_eq_ok] at hv
    exact hv.1 ("ranking_model_version", _) (by simp)
  have hclass : (initialClassification command).postInit = .ok () := by
    simp [EventClassification.Fields.postInit, initialClassification, htheme, hname]
  refine ⟨_, _, checked_of_ok hclass, checked_of_ok ?_⟩
  simp only [CanonicalEvent.Fields.postInit, check_bind_eq_ok, requireTexts_eq_ok, ensure_eq_ok,
    List.forall_mem_cons]
  exact
    ⟨⟨isBlank_opaqueId _ (by decide), isBlank_opaqueId _ (by decide), htheme, hcatalyst, hpolicy,
    hsource, by simp⟩, le_refl 1, hsequence, le_refl _⟩

variable {t t' : Tables} {r : EventWriteResult} {command : EventCommand}

omit [Sha256] in
theorem log_and_queue_ok {log : EventStateLog} {message : OutboxMessage}
    (hlog : ∀ item ∈ t.stateLogs, item.eventId = log.eventId →
      item.stateVersion ≠ log.stateVersion) (houtbox : t.outbox.get? message.messageId = none) :
    ∃ t₁ t₂, t.appendStateLog log = .ok t₁ ∧ t₁.enqueueOutbox message = .ok t₂ :=
  ⟨_, _, Tables.appendStateLog_eq_ok.mpr ⟨hlog, rfl⟩,
    Tables.enqueueOutbox_eq_ok.mpr (.inr ⟨houtbox, rfl⟩)⟩

theorem create_ok {t : Tables} {command : CreateEventCommand}
    (hkey : t.identities.get? command.identity.identityKey = none)
    (hid : t.events.get? command.identity.eventId = none)
    (hlogs : t.eventLogs command.identity.eventId = [])
    (houtbox : t.outbox.get?
      (outboxMessageId command.metadata.messageId "canonical_event.created") = none) :
    ∃ r t', create t command = .ok (r, t') ∧ r.disposition = .applied := by
  obtain ⟨classification, event, hclass, hevent⟩ := initialEvent_ok command
  obtain ⟨message, hmessage⟩ := eventMessage_ok event command.metadata
    "canonical_event.created" (createdPayload event) (by decide)
  have hfields : event.toFields = initialEvent command classification := by
    obtain ⟨_, rfl⟩ := checked_eq_ok.mp hevent
    rfl
  have heid : event.eventId = command.identity.eventId := by rw [hfields]; rfl
  have hekey : event.identityKey = command.identity.identityKey := by rw [hfields]; rfl
  obtain ⟨t₁, hinsert⟩ : ∃ t₁, t.insertEvent event = .ok t₁ :=
    ⟨_, Tables.insertEvent_eq_ok.mpr ⟨heid ▸ hid, hekey ▸ hkey, rfl⟩⟩
  obtain ⟨-, -, ht₁⟩ := Tables.insertEvent_eq_ok.mp hinsert
  obtain ⟨t₂, t₃, happend, hqueue⟩ : ∃ t₂ t₃,
      t₁.appendStateLog (createdLog event command.metadata) = .ok t₂ ∧
        t₂.enqueueOutbox message = .ok t₃ := by
    refine log_and_queue_ok ?_ ?_
    · intro item hm hi
      have hmem : item ∈ t.eventLogs command.identity.eventId := by
        rw [ht₁] at hm
        rw [Tables.eventLogs, List.mem_filter]
        exact ⟨hm, by simpa [createdLog, heid] using hi⟩
      simp [hlogs] at hmem
    · rw [ht₁, (eventMessage_eq_ok hmessage).1]
      exact houtbox
  refine ⟨⟨event, .applied, some message.messageId⟩, t₃, ?_, rfl⟩
  simp only [create, bind_eq_ok]
  refine ⟨none, Tables.getEventByIdentity_eq_none.mpr hkey, ?_⟩
  simp only [bind_eq_ok]
  exact ⟨classification, hclass, event, hevent, t₁, hinsert, t₂, happend, message, hmessage, t₃,
    hqueue, rfl⟩

variable {σ : Type} [DecidableEq σ] {a : StatusAxis σ}

theorem changeStatus_cases {command : StatusCommand.Fields σ}
    (h : changeStatus a t command = .ok (r, t')) :
    ∃ event, t.events.get? command.eventId = some event ∧
      ((∃ disposition, settled a t event command = .ok (some disposition) ∧
          r = ⟨event, disposition, none⟩ ∧ t' = t) ∨
        ∃ changed updated message,
          settled a t event command = .ok none ∧
          (∃ change, a.transition (a.current event) command.target command.policyVersion =
            .ok change) ∧
          a.change event command = .ok changed ∧
          updated.toFields = nextVersion event changed command.metadata command.policyVersion ∧
          (∃ current, t.events.get? updated.eventId = some current ∧
            current.stateVersion = event.stateVersion) ∧
          eventMessage updated command.metadata a.eventType (a.payload event updated command) =
            .ok message ∧
          Recorded t t' updated (changedLog a event updated command) message ∧
          t'.identities = t.identities ∧ r = ⟨updated, .applied, some message.messageId⟩) := by
  unfold changeStatus at h
  cases hget : t.getEvent command.eventId with
  | none => simp [hget] at h
  | some event =>
    refine ⟨event, hget, ?_⟩
    simp only [hget, bind_eq_ok] at h
    obtain ⟨found, hfound, h⟩ := h
    cases found with
    | some disposition =>
      cases h
      exact .inl ⟨disposition, hfound, rfl, rfl⟩
    | none =>
      right
      simp only [applyChange, bind_eq_ok, Tables.updateEvent_eq_ok,
        Tables.appendStateLog_eq_ok] at h
      obtain ⟨change, hchange, changed, hchanged, updated, hupdated, t₁, ⟨hcurrent, -, rfl⟩, t₂,
        ⟨hfresh, rfl⟩, message, hmessage, t₃, ht₃, h⟩ := h
      cases h
      obtain ⟨_, rfl⟩ := checked_eq_ok.mp hupdated
      refine ⟨changed, _, message, hfound, ⟨change, hchange⟩, hchanged, rfl, hcurrent, hmessage,
        ?_, ?_, rfl⟩
      · obtain ⟨existing, hget, hsame, rfl⟩ | ⟨hget, rfl⟩ := Tables.enqueueOutbox_eq_ok.mp ht₃
        · exact ⟨rfl, hfresh, rfl, .inl ⟨existing, hget, hsame, rfl⟩, rfl, rfl⟩
        · exact ⟨rfl, hfresh, rfl, .inr ⟨hget, rfl⟩, rfl, rfl⟩
      · obtain ⟨existing, hget, hsame, rfl⟩ | ⟨hget, rfl⟩ := Tables.enqueueOutbox_eq_ok.mp ht₃ <;>
          rfl

/-- The kind of domain event a command publishes when it applies. -/
def eventTypeOf : EventCommand → String
  | .create _ => "canonical_event.created"
  | .transition _ => lifecycleAxis.eventType
  | .reconcile _ => reconciliationAxis.eventType

theorem decideCommand_recorded (h : decideCommand t command = .ok (r, t')) :
    t' = t ∨ ∃ event log message, Recorded t t' event log message ∧
      message.messageId = outboxMessageId command.metadata.messageId (eventTypeOf command) := by
  cases command with
  | create command =>
    obtain ⟨_, -, -, rfl⟩ | ⟨_, _, _, -, -, -, -, hmessage, hrec, -, -⟩ := create_cases h
    · exact .inl rfl
    · exact .inr ⟨_, _, _, hrec, (eventMessage_eq_ok hmessage).1⟩
  | transition command =>
    obtain ⟨_, -, ⟨_, -, -, rfl⟩ | ⟨_, _, _, -, -, -, -, -, hmessage, hrec, -, -⟩⟩ :=
      changeStatus_cases h
    · exact .inl rfl
    · exact .inr ⟨_, _, _, hrec, (eventMessage_eq_ok hmessage).1⟩
  | reconcile command =>
    obtain ⟨_, -, ⟨_, -, -, rfl⟩ | ⟨_, _, _, -, -, -, -, -, hmessage, hrec, -, -⟩⟩ :=
      changeStatus_cases h
    · exact .inl rfl
    · exact .inr ⟨_, _, _, hrec, (eventMessage_eq_ok hmessage).1⟩

theorem decideCommand_receipts (h : decideCommand t command = .ok (r, t')) :
    t'.receipts = t.receipts := by
  obtain rfl | ⟨_, _, _, hrec, -⟩ := decideCommand_recorded h
  · rfl
  · exact hrec.receipts

/-- The tables after a decision, with its receipt. -/
def withReceipt (t : Tables) (command : EventCommand) (result : EventWriteResult) : Tables :=
  { t with
    receipts := t.receipts.set command.metadata.messageId (receiptOf command result)
    sourceSequences := Tables.raiseSequence t.sourceSequences (receiptOf command result) }

theorem writeBody_cases (h : writeBody command t = .ok (r, t')) :
    (∃ receipt, t.receipts.get? command.metadata.messageId = some receipt ∧
      receipt.commandFingerprint = commandFingerprint command ∧ r = receipt.result ∧ t' = t) ∨
    ∃ t₁, t.receipts.get? command.metadata.messageId = none ∧
      decideCommand t command = .ok (r, t₁) ∧ t' = withReceipt t₁ command r := by
  unfold writeBody at h
  cases hget : t.getReceipt command.metadata.messageId with
  | some receipt =>
    simp only [hget] at h
    split at h
    · cases h
    · next hfp =>
      cases h
      exact .inl ⟨receipt, hget, not_not.mp hfp, rfl, rfl⟩
  | none =>
    simp only [hget, bind_eq_ok] at h
    obtain ⟨⟨result, t₁⟩, hdecide, t₂, hsave, h⟩ := h
    cases h
    refine .inr ⟨t₁, hget, hdecide, ?_⟩
    have hnone : t₁.receipts.get? (receiptOf command result).messageId = none := by
      rw [decideCommand_receipts hdecide]
      exact hget
    rw [Tables.saveReceipt_of_none hnone] at hsave
    exact (Except.ok.inj hsave).symm

theorem write_cases (s : InMemoryEventStore) (command : EventCommand) :
    (∃ e, (write s command).1 = .error e ∧ (write s command).2.toTables = s.toTables) ∨
      ∃ r, (write s command).1 = .ok r ∧
        writeBody command s.toTables = .ok (r, (write s command).2.toTables) := by
  cases hwrite : (write s command).1 with
  | ok r => exact .inr ⟨r, rfl, InMemoryEventStore.transaction_eq_ok hwrite⟩
  | error e =>
    refine .inl ⟨e, rfl, ?_⟩
    rw [write, InMemoryEventStore.transaction] at hwrite ⊢
    cases hbody : writeBody command s.toTables with
    | error e => rfl
    | ok p =>
      rw [hbody] at hwrite
      by_cases hfails : s.failsNextCommit
      · simp only [hfails, if_true]
      · simp [hfails] at hwrite

theorem write_ok {s : InMemoryEventStore} (hcommit : s.failsNextCommit = false)
    (hnew : s.receipts.get? command.metadata.messageId = none)
    (hdecide : decideCommand s.toTables command = .ok (r, t)) :
    write s command = (.ok r, { s with toTables := withReceipt t command r }) := by
  have hnone : t.receipts.get? (receiptOf command r).messageId = none := by
    rw [decideCommand_receipts hdecide]
    exact hnew
  have hsave := Tables.saveReceipt_of_none hnone
  have hbody : writeBody command s.toTables = .ok (r, withReceipt t command r) := by
    simp only [writeBody, Tables.getReceipt, hnew, bind_eq_ok]
    exact ⟨(r, t), hdecide, _, hsave, rfl⟩
  rw [write, InMemoryEventStore.transaction, hbody]
  simp only [hcommit, Bool.false_eq_true, if_false]

theorem write_first_creation (command : CreateEventCommand) :
    ∃ r, (write .empty (.create command)).1 = .ok r ∧ r.disposition = .applied ∧
      (write .empty (.create command)).2.events.get? command.identity.eventId = some r.event := by
  obtain ⟨r, t, hcreate, happlied⟩ : ∃ r t, create .empty command = .ok (r, t) ∧
      r.disposition = .applied := create_ok rfl rfl rfl rfl
  have hdecide : decideCommand .empty (.create command) = .ok (r, t) := hcreate
  have hwrite := write_ok (s := .empty) rfl rfl hdecide
  refine ⟨r, by rw [hwrite], happlied, ?_⟩
  rw [hwrite]
  obtain ⟨_, hsome, -, -⟩ | ⟨_, event, _, -, -, -, hevent, -, hrec, -, rfl⟩ := create_cases hcreate
  · obtain ⟨_, hid, -⟩ := Tables.getEventByIdentity_eq_some.mp hsome
    simp [Tables.empty] at hid
  · have hid : event.eventId = command.identity.eventId := by rw [hevent]; rfl
    simp only [withReceipt, hrec.events, hid, Dict.get?_set_self]

end EventWriter

namespace EventWriter

variable [Sha256]

variable {command : EventCommand} {s : InMemoryEventStore}

theorem write_receipts {messageId : String} {receipt : CommandReceipt}
    (h : s.receipts.get? messageId = some receipt) :
    (write s command).2.receipts.get? messageId = some receipt := by
  obtain htables | ⟨r, hbody⟩ := s.transaction_toTables (writeBody command)
  · rw [write, htables, h]
  · obtain ⟨-, -, -, -, htables⟩ | ⟨t₁, hnone, hdecide, htables⟩ := writeBody_cases hbody
    · rw [write, htables, h]
    · rw [write, htables, withReceipt, Dict.get?_set, decideCommand_receipts hdecide]
      split
      · next heq => simp [← heq, h] at hnone
      · exact h

theorem run_receipts (ops : List StoreOp) {messageId : String} {receipt : CommandReceipt}
    (h : s.receipts.get? messageId = some receipt) :
    (s.run ops).receipts.get? messageId = some receipt := by
  induction ops generalizing s with
  | nil => exact h
  | cons op ops ih =>
    apply ih
    cases op with
    | write command => exact write_receipts h
    | failNextCommit => exact h

theorem receipt_of_write {r : EventWriteResult} (h : (write s command).1 = .ok r) :
    ∃ receipt, (write s command).2.receipts.get? command.metadata.messageId = some receipt ∧
      receipt.commandFingerprint = commandFingerprint command ∧ receipt.result = r := by
  have hbody := InMemoryEventStore.transaction_eq_ok h
  obtain ⟨receipt, hget, hfp, rfl, htables⟩ | ⟨t₁, hnone, hdecide, htables⟩ :=
    writeBody_cases hbody
  · exact ⟨receipt, by rw [write, htables, hget], hfp, rfl⟩
  · exact ⟨receiptOf command r, by rw [write, htables, withReceipt, Dict.get?_set_self], rfl, rfl⟩

theorem write_of_receipt {receipt : CommandReceipt}
    (hget : s.receipts.get? command.metadata.messageId = some receipt)
    (hfp : receipt.commandFingerprint = commandFingerprint command) :
    write s command =
      if s.failsNextCommit then
        (.error InMemoryEventStore.simulatedCommitFailure, { s with failsNextCommit := false })
      else (.ok receipt.result, s) := by
  have hbody : writeBody command s.toTables = .ok (receipt.result, s.toTables) := by
    simp [writeBody, Tables.getReceipt, hget, hfp]
  rw [write, InMemoryEventStore.transaction, hbody]

theorem write_of_conflict {receipt : CommandReceipt}
    (hget : s.receipts.get? command.metadata.messageId = some receipt)
    (hfp : receipt.commandFingerprint ≠ commandFingerprint command) :
    write s command = (.error idempotencyConflict, s) := by
  have hbody : writeBody command s.toTables = .error idempotencyConflict := by
    simp [writeBody, Tables.getReceipt, hget, hfp]
  rw [write, InMemoryEventStore.transaction, hbody]

/-- Writing is idempotent: at any later point of the run a command is answered with the result of
its first write, whatever that was, and nothing is written; a different command under its message
id is refused. An armed failpoint hits the replay like any other commit. -/
theorem write_idempotent (hinj : Function.Injective (commandFingerprint : EventCommand → String))
    (before after : List StoreOp) (command : EventCommand) (r : EventWriteResult)
    (hfirst : (write (InMemoryEventStore.empty.run before) command).1 = .ok r) :
    let s := InMemoryEventStore.empty.run (before ++ .write command :: after)
    (write s command).1 =
        (if s.failsNextCommit then .error InMemoryEventStore.simulatedCommitFailure else .ok r) ∧
      (write s command).2.toTables = s.toTables ∧
      ∀ other : EventCommand, other.metadata.messageId = command.metadata.messageId →
        other ≠ command → write s other = (.error idempotencyConflict, s) := by
  intro s
  obtain ⟨receipt, hget, hfp, rfl⟩ := receipt_of_write hfirst
  have hs : s.receipts.get? command.metadata.messageId = some receipt := by
    have hrun : s = (write (InMemoryEventStore.empty.run before) command).2.run after := by
      simp only [s, InMemoryEventStore.run, List.foldl_append, List.foldl_cons,
        InMemoryEventStore.step]
    rw [hrun]
    exact run_receipts after hget
  have hreplay := write_of_receipt hs hfp
  refine ⟨?_, ?_, fun other hid hne => ?_⟩
  · rw [hreplay]
    split <;> rfl
  · rw [hreplay]
    split <;> rfl
  · refine write_of_conflict (hid ▸ hs) fun heq => hne ?_
    exact (hinj (hfp.symm.trans heq)).symm

omit [Sha256] in
/-- A creation on a fresh store, redelivered after the failpoint was armed and hit once. -/
theorem write_idempotent_firstCreation :
    letI : Sha256 := .ofTable firstCreationDigests
    ∃ r, (write .empty (.create firstCreation)).1 = .ok r ∧
      let s := InMemoryEventStore.empty.run
        [.write (.create firstCreation), .failNextCommit, .write (.create firstCreation)]
      (write s (.create firstCreation)).1 =
          (if s.failsNextCommit then .error InMemoryEventStore.simulatedCommitFailure
            else .ok r) ∧
        (write s (.create firstCreation)).2.toTables = s.toTables ∧
        ∀ other : EventCommand, other.metadata.messageId = firstCreation.metadata.messageId →
          other ≠ .create firstCreation → write s other = (.error idempotencyConflict, s) := by
  have hinj := hexdigest_ofTable_injective firstCreationDigests
  revert hinj
  generalize Sha256.ofTable firstCreationDigests = sha
  intro hinj
  obtain ⟨r, hr, -, -⟩ := write_first_creation firstCreation
  have h := write_idempotent (commandFingerprint_injective hinj) []
    [.failNextCommit, .write (.create firstCreation)] (.create firstCreation) r hr
  rw [List.nil_append] at h
  exact ⟨r, hr, h⟩

end EventWriter

end Dayjaview.Events
