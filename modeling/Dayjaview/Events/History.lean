import Dayjaview.Events.WriterSteps

/-!
# The log of an event determines its state

Replaying the state changes of an event, each from the status the previous ones
left, gives its current statuses; the logged versions are consecutive; the outbox
holds one message per change, in the same order. This holds in every reachable
store, whatever was written, refused or rolled back on the way.
-/

namespace Dayjaview.Events

open Dayjaview.Domain

/-- The two logged statuses of an event. -/
structure Statuses where
  lifecycle : LifecycleStatus
  reconciliation : ReconciliationStatus

def CanonicalEvent.statuses (event : CanonicalEvent) : Statuses :=
  ⟨event.lifecycleStatus, event.reconciliationStatus⟩

/-- The statuses after one logged change, if it starts from the current status of its axis. -/
def replayLog (s : Statuses) (log : EventStateLog) : Option Statuses :=
  match log.axis, log.toStatus with
  | .lifecycle, .lifecycle target =>
    if log.fromStatus = some (.lifecycle s.lifecycle) then some { s with lifecycle := target }
    else none
  | .reconciliation, .reconciliation target =>
    if log.fromStatus = some (.reconciliation s.reconciliation) then
      some { s with reconciliation := target }
    else none
  | _, _ => none

/-- The statuses after a whole log: a creation, then one change after the other. -/
def replay : List EventStateLog → Option Statuses
  | [] => none
  | created :: changes =>
    if created.axis = .lifecycle ∧ created.fromStatus = none ∧
        created.toStatus = .lifecycle .candidate then
      changes.foldlM replayLog ⟨.candidate, .pending⟩
    else none

/-- The messages about an event, in the order they were queued. -/
def eventMessages (t : Tables) (eventId : String) : List OutboxMessage :=
  (t.outbox.values.map OutboxRecord.message).filter fun m => m.aggregateId == eventId

/-- A message publishes a logged change: its payload carries the state version of the change. -/
def Publishes (message : OutboxMessage) (log : EventStateLog) : Prop :=
  message.aggregateId = log.eventId ∧
    ∃ fields, message.payload = .obj fields ∧
      Json.field? fields "stateVersion" = some (.int log.stateVersion)

/-- Log and outbox of an event tell its whole history. -/
structure History (event : CanonicalEvent) (logs : List EventStateLog)
    (messages : List OutboxMessage) : Prop where
  versions : logs.map EventStateLog.stateVersion = List.range' 1 event.stateVersion
  statuses : replay logs = some event.statuses
  published : List.Forall₂ Publishes messages logs

/-- What holds of one event id in the tables. -/
def HistoryAt (t : Tables) (eventId : String) : Prop :=
  match t.events.get? eventId with
  | none => t.eventLogs eventId = [] ∧ eventMessages t eventId = []
  | some event =>
    event.eventId = eventId ∧ History event (t.eventLogs eventId) (eventMessages t eventId)

/-- Every event id has a consistent history. -/
def Consistent (t : Tables) : Prop := ∀ eventId, HistoryAt t eventId

theorem consistent_empty : Consistent .empty := fun _ => ⟨rfl, rfl⟩

variable {log : EventStateLog} {message : OutboxMessage} {t t' : Tables}

theorem replay_append {logs : List EventStateLog} {s : Statuses} (h : replay logs = some s) :
    replay (logs ++ [log]) = replayLog s log := by
  cases logs with
  | nil => simp [replay] at h
  | cons created changes =>
    simp only [replay, List.cons_append] at h ⊢
    split at h
    · next hc => rw [if_pos hc, List.foldlM_append, h]; simp
    · cases h

theorem History.snoc {event updated : CanonicalEvent} {logs : List EventStateLog}
    {messages : List OutboxMessage} (h : History event logs messages)
    (hversion : log.stateVersion = event.stateVersion + 1)
    (hupdated : updated.stateVersion = event.stateVersion + 1)
    (hreplay : replayLog event.statuses log = some updated.statuses)
    (hpublish : Publishes message log) :
    History updated (logs ++ [log]) (messages ++ [message]) where
  versions := by
    rw [List.map_append, h.versions, hupdated, List.range'_1_concat]
    simp [hversion, Nat.add_comm]
  statuses := by rw [replay_append h.statuses, hreplay]
  published := List.rel_append h.published (.cons hpublish .nil)

theorem HistoryAt.published {eventId : String} (h : HistoryAt t eventId) :
    List.Forall₂ Publishes (eventMessages t eventId) (t.eventLogs eventId) := by
  unfold HistoryAt at h
  split at h
  · rw [h.1, h.2]
    exact .nil
  · exact h.2.published

private theorem exists_of_forall₂_mem {α β : Type} {R : α → β → Prop} {as : List α} {bs : List β}
    (h : List.Forall₂ R as bs) {a : α} (ha : a ∈ as) : ∃ b ∈ bs, R a b := by
  induction h with
  | nil => simp at ha
  | cons hr _ ih =>
    obtain rfl | ha := List.mem_cons.mp ha
    · exact ⟨_, List.mem_cons_self .., hr⟩
    · obtain ⟨b, hb, hab⟩ := ih ha
      exact ⟨b, List.mem_cons_of_mem _ hb, hab⟩

theorem Recorded.queued {event : CanonicalEvent} (h : Recorded t t' event log message)
    (ht : Consistent t) (hpublish : Publishes message log) :
    t.outbox.get? message.messageId = none ∧
      t'.outbox = t.outbox.set message.messageId (Tables.queued message) := by
  obtain ⟨existing, hget, hsame, -⟩ | hnew := h.outbox
  · obtain ⟨-, -, -, haggregate, -, -, -, -, -, hpayload⟩ := hsame
    obtain ⟨hid, fields, hfields, hversion⟩ := hpublish
    have hmem : existing.message ∈ eventMessages t log.eventId := by
      rw [eventMessages, List.mem_filter, List.mem_map]
      refine ⟨⟨existing, ?_, rfl⟩, by simpa [haggregate] using hid⟩
      exact t.outbox.mem_values_iff.mpr ⟨_, hget⟩
    obtain ⟨item, hitem, -, fields', hfields', hversion'⟩ :=
      exists_of_forall₂_mem (ht log.eventId).published hmem
    rw [Tables.eventLogs, List.mem_filter, beq_iff_eq] at hitem
    obtain rfl : fields' = fields := by
      rw [hpayload, hfields] at hfields'
      exact (Json.obj.inj hfields').symm
    rw [hversion'] at hversion
    exact absurd (by simpa using hversion) (h.fresh item hitem.1 hitem.2)
  · exact hnew

theorem Recorded.eventLogs {event : CanonicalEvent} (h : Recorded t t' event log message)
    (eventId : String) :
    t'.eventLogs eventId =
      t.eventLogs eventId ++ if log.eventId = eventId then [log] else [] := by
  rw [Tables.eventLogs, Tables.eventLogs, h.stateLogs, List.filter_append]
  by_cases heq : log.eventId = eventId <;> simp [heq]

theorem Recorded.eventMessages {event : CanonicalEvent} (h : Recorded t t' event log message)
    (ht : Consistent t) (hpublish : Publishes message log) (eventId : String) :
    eventMessages t' eventId =
      eventMessages t eventId ++ if log.eventId = eventId then [message] else [] := by
  obtain ⟨hnone, hset⟩ := h.queued ht hpublish
  rw [Events.eventMessages, Events.eventMessages, hset, Dict.values, Dict.values,
    Dict.entries_set_of_get?_eq_none _ _ hnone, ← hpublish.1]
  by_cases heq : message.aggregateId = eventId <;> simp [heq, Tables.queued]

theorem Recorded.consistent {event : CanonicalEvent} (h : Recorded t t' event log message)
    (ht : Consistent t) (hlog : log.eventId = event.eventId) (hpublish : Publishes message log)
    (hhistory : History event (t.eventLogs event.eventId ++ [log])
      (Events.eventMessages t event.eventId ++ [message])) : Consistent t' := by
  intro eventId
  have hat := ht eventId
  unfold HistoryAt at hat ⊢
  rw [h.events, Dict.get?_set, h.eventLogs, h.eventMessages ht hpublish, hlog]
  by_cases heq : eventId = event.eventId
  · subst heq
    simpa using hhistory
  · have hne : ¬ event.eventId = eventId := fun h => heq h.symm
    simpa [heq, hne] using hat

namespace EventWriter

variable [Sha256]

private theorem publishes_of_field {event : CanonicalEvent} {metadata : EventInputMetadata}
    {eventType : String} {payload : List (String × Json)} {message : OutboxMessage}
    {log : EventStateLog} (h : eventMessage event metadata eventType payload = .ok message)
    (hid : log.eventId = event.eventId) (hn : (payload.map Prod.fst).Nodup)
    (hversion : Json.field? payload "stateVersion" = some (.int log.stateVersion)) :
    Publishes message log := by
  obtain ⟨-, haggregate, hpayload⟩ := eventMessage_eq_ok h
  refine ⟨haggregate.trans hid.symm, Json.sortedFields payload, ?_, ?_⟩
  · rw [hpayload, Json.sortKeys_obj]
  · rw [Json.field?_sortedFields hn, hversion]
    rfl

variable {r : EventWriteResult}

theorem create_consistent {t t' : Tables} {command : CreateEventCommand} (ht : Consistent t)
    (h : create t command = .ok (r, t')) : Consistent t' := by
  obtain ⟨_, -, -, rfl⟩ | ⟨classification, event, message, -, hnone, -, hevent, hmessage, hrec, -,
    -⟩ := create_cases h
  · exact ht
  · have hid : event.eventId = command.identity.eventId := by rw [hevent]; rfl
    have hversion : event.stateVersion = 1 := by rw [hevent]; rfl
    have hstatuses : event.statuses = ⟨.candidate, .pending⟩ := by
      rw [CanonicalEvent.statuses, hevent]
      rfl
    have hpublish : Publishes message (createdLog event command.metadata) :=
      publishes_of_field hmessage rfl (by simp [createdPayload]) rfl
    have hat := ht event.eventId
    rw [HistoryAt, hid, hnone] at hat
    refine hrec.consistent ht rfl hpublish ?_
    rw [hid, hat.1, hat.2, List.nil_append, List.nil_append]
    refine ⟨?_, ?_, .cons hpublish .nil⟩
    · rw [hversion]
      simp [createdLog, hversion]
    · rw [hstatuses]
      rfl

variable {σ : Type} [DecidableEq σ] {a : StatusAxis σ}

/-- What an axis has to satisfy for its changes to continue a history. -/
structure StatusAxis.Lawful (a : StatusAxis σ) : Prop where
  eventId : ∀ {event command changed}, a.change event command = .ok changed →
    changed.eventId = event.eventId
  replay : ∀ {event updated : CanonicalEvent} {command : StatusCommand.Fields σ}
    {changed : CanonicalEvent.Fields}, a.change event command = .ok changed →
    updated.toFields = nextVersion event changed command.metadata command.policyVersion →
    replayLog event.statuses (changedLog a event updated command) = some updated.statuses
  keys : ∀ event updated command, ((a.payload event updated command).map Prod.fst).Nodup
  version : ∀ event updated command,
    Json.field? (a.payload event updated command) "stateVersion" =
      some (.int (updated : CanonicalEvent).stateVersion)

theorem changeStatus_consistent (ha : a.Lawful) {t t' : Tables} {command : StatusCommand.Fields σ}
    (ht : Consistent t) (h : changeStatus a t command = .ok (r, t')) :
    Consistent t' := by
  obtain ⟨event, hget, ⟨_, -, -, rfl⟩ | ⟨changed, updated, message, -, -, hchanged, hupdated, -,
    hmessage, hrec, -, -⟩⟩ := changeStatus_cases h
  · exact ht
  · have hid : updated.eventId = event.eventId := by
      rw [hupdated]
      exact (ha.eventId hchanged : changed.eventId = event.eventId)
    have hversion : updated.stateVersion = event.stateVersion + 1 := by rw [hupdated]; rfl
    have hpublish : Publishes message (changedLog a event updated command) :=
      publishes_of_field hmessage rfl (ha.keys ..) (ha.version ..)
    have hat := ht command.eventId
    rw [HistoryAt, hget] at hat
    refine hrec.consistent ht rfl hpublish ?_
    rw [hid, hat.1]
    exact hat.2.snoc hversion hversion (ha.replay hchanged hupdated) hpublish

omit [Sha256] in
theorem lifecycleAxis_lawful : lifecycleAxis.Lawful where
  eventId h := by cases h; rfl
  replay h hupdated := by
    cases h
    rw [CanonicalEvent.statuses, CanonicalEvent.statuses, hupdated]
    simp [replayLog, changedLog, lifecycleAxis, nextVersion]
  keys _ _ _ := by simp [lifecycleAxis]
  version _ _ _ := rfl

omit [Sha256] in
theorem reconciliationAxis_lawful : reconciliationAxis.Lawful where
  eventId h := by
    simp only [reconciliationAxis, bind_eq_ok] at h
    obtain ⟨_, -, h⟩ := h
    cases h
    rfl
  replay h hupdated := by
    simp only [reconciliationAxis, bind_eq_ok] at h
    obtain ⟨_, -, h⟩ := h
    cases h
    rw [CanonicalEvent.statuses, CanonicalEvent.statuses, hupdated]
    simp [replayLog, changedLog, reconciliationAxis, nextVersion]
  keys _ _ _ := by simp [reconciliationAxis]
  version _ _ _ := rfl

theorem decideCommand_consistent {t t' : Tables} {command : EventCommand} (ht : Consistent t)
    (h : decideCommand t command = .ok (r, t')) : Consistent t' := by
  cases command with
  | create command => exact create_consistent ht h
  | transition command => exact changeStatus_consistent lifecycleAxis_lawful ht h
  | reconcile command => exact changeStatus_consistent reconciliationAxis_lawful ht h

theorem write_consistent {s : InMemoryEventStore} (command : EventCommand)
    (hs : Consistent s.toTables) : Consistent (write s command).2.toTables := by
  obtain htables | ⟨r, hbody⟩ := s.transaction_toTables (writeBody command)
  · rwa [write, htables]
  · rw [write]
    obtain ⟨-, -, -, -, htables⟩ | ⟨t₁, -, hdecide, htables⟩ := writeBody_cases hbody
    · rwa [htables]
    · rw [htables]
      have hdecided : Consistent t₁ := decideCommand_consistent hs hdecide
      exact hdecided

theorem consistent_run (ops : List StoreOp) {s : InMemoryEventStore}
    (hs : Consistent s.toTables) : Consistent (s.run ops).toTables := by
  induction ops generalizing s with
  | nil => exact hs
  | cons op ops ih =>
    apply ih
    cases op with
    | write command => exact write_consistent command hs
    | failNextCommit => exact hs

/-- In every reachable store the log and the outbox of a stored event tell its history: the state
versions are one up to the current one in order, replaying the changes gives the current statuses,
and the messages about the event publish the changes one by one. -/
theorem history_of_run (ops : List StoreOp) (eventId : String) (event : CanonicalEvent)
    (h : (InMemoryEventStore.empty.run ops).events.get? eventId = some event) :
    let t := (InMemoryEventStore.empty.run ops).toTables
    event.eventId = eventId ∧
      (t.eventLogs eventId).map EventStateLog.stateVersion = List.range' 1 event.stateVersion ∧
      replay (t.eventLogs eventId) = some ⟨event.lifecycleStatus, event.reconciliationStatus⟩ ∧
      List.Forall₂ Publishes (eventMessages t eventId) (t.eventLogs eventId) := by
  have hat := consistent_run ops (s := .empty) consistent_empty eventId
  rw [HistoryAt, h] at hat
  exact ⟨hat.1, hat.2.versions, hat.2.statuses, hat.2.published⟩

omit [Sha256] in
/-- The history of an event right after its creation. -/
theorem history_of_run_firstCreation :
    letI : Sha256 := .ofTable firstCreationDigests
    ∃ event, (InMemoryEventStore.empty.run [.write (.create firstCreation)]).events.get?
        firstCreation.identity.eventId = some event ∧
      let t := (InMemoryEventStore.empty.run [.write (.create firstCreation)]).toTables
      event.eventId = firstCreation.identity.eventId ∧
        (t.eventLogs firstCreation.identity.eventId).map EventStateLog.stateVersion =
          List.range' 1 event.stateVersion ∧
        replay (t.eventLogs firstCreation.identity.eventId) =
          some ⟨event.lifecycleStatus, event.reconciliationStatus⟩ ∧
        List.Forall₂ Publishes (eventMessages t firstCreation.identity.eventId)
          (t.eventLogs firstCreation.identity.eventId) := by
  have key : ∀ sha : Sha256, ∃ event,
      (InMemoryEventStore.empty.run [.write (.create firstCreation)]).events.get?
        firstCreation.identity.eventId = some event := by
    intro sha
    obtain ⟨r, -, -, hget⟩ := write_first_creation firstCreation
    refine ⟨r.event, ?_⟩
    simpa only [InMemoryEventStore.run, List.foldl_cons, List.foldl_nil,
      InMemoryEventStore.step] using hget
  obtain ⟨event, hrun⟩ := key (.ofTable firstCreationDigests)
  exact ⟨event, hrun, @history_of_run (.ofTable firstCreationDigests) _ _ event hrun⟩

end EventWriter

end Dayjaview.Events
