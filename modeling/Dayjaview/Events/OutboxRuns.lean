import Dayjaview.Events.Outbox
import Dayjaview.Events.WriterSteps

/-!
# Runs of the outbox

A step changes a record in one of four ways and a call in one of three. A message
that is queued stays, it is published only after the transport accepted it, and
until then it can be claimed again. A claim excludes the others until its lease
ends, as long as no failed delivery is written back that belongs to an older one.
-/

namespace Dayjaview.Events

namespace InMemoryEventStore

/-- Records are stored under the ids of their messages. -/
def Keyed (s : InMemoryEventStore) : Prop :=
  ∀ id record, s.outbox.get? id = some record → record.message.messageId = id

/-- What claiming hands out: due records, claimed until the end of the lease, and nothing else
changes. -/
theorem claimPending_cases (s : InMemoryEventStore) (now : Datetime) (limit lease : Int) :
    ((s.claimPending now limit lease).2 = s ∧
        ∀ records, (s.claimPending now limit lease).1 = .ok records → records = []) ∨
      ∃ claimedUntil, now.plus lease = .ok claimedUntil ∧
        let records := (best OutboxRecord.rank limit.toNat (s.eligible now)).map fun record =>
          record.claimed claimedUntil
        s.claimPending now limit lease = (.ok records, { s with
          outbox := records.foldl (fun outbox record =>
            outbox.set record.message.messageId record) s.outbox }) := by
  unfold claimPending
  split_ifs with hlimit
  · exact .inl ⟨rfl, fun _ h => (by cases h)⟩
  · split
    · exact .inl ⟨rfl, fun _ h => (Except.ok.inj h).symm⟩
    · rcases hplus : now.plus lease with e | claimedUntil
      · exact .inl ⟨rfl, fun _ h => (by cases h)⟩
      · exact .inr ⟨claimedUntil, rfl, rfl⟩

variable {now : Datetime} {s : InMemoryEventStore} {lease limit : Int}

theorem mem_eligible {record : OutboxRecord} :
    record ∈ s.eligible now ↔
      (∃ id, s.outbox.get? id = some record) ∧ record.Claimable now := by
  simp [eligible, Dict.mem_values_iff]

theorem claimPending_ok (h : s.Keyed) {records : List OutboxRecord}
    (hok : (s.claimPending now limit lease).1 = .ok records) {held : OutboxRecord}
    (hheld : held ∈ records) :
    ∃ record claimedUntil, s.outbox.get? held.message.messageId = some record ∧
      record.Claimable now ∧ now.plus lease = .ok claimedUntil ∧
      held = record.claimed claimedUntil ∧
      (s.claimPending now limit lease).2.outbox.get? held.message.messageId = some held := by
  rcases s.claimPending_cases now limit lease with ⟨-, hnone⟩ | ⟨claimedUntil, hlease, hclaimed⟩
  · rw [hnone records hok] at hheld
    cases hheld
  rw [hclaimed] at hok ⊢
  cases hok
  -- two records that are handed out under one id are the stored one
  have hstored : ∀ b ∈ (best OutboxRecord.rank limit.toNat (s.eligible now)).map fun record =>
      record.claimed claimedUntil, ∃ record, s.outbox.get? b.message.messageId = some record ∧
        record.Claimable now ∧ b = record.claimed claimedUntil := by
    intro b hb
    obtain ⟨record, hmem, rfl⟩ := List.mem_map.mp hb
    obtain ⟨⟨id, hget⟩, hclaimable⟩ := mem_eligible.mp (mem_of_mem_best hmem)
    obtain rfl := h id record hget
    exact ⟨record, hget, hclaimable, rfl⟩
  obtain ⟨record, hget, hclaimable, hclaim⟩ := hstored held hheld
  refine ⟨record, claimedUntil, hget, hclaimable, hlease, hclaim, ?_⟩
  rcases Dict.get?_foldl_setBy (fun record : OutboxRecord => record.message.messageId)
    (fun record => record) ((best OutboxRecord.rank limit.toNat (s.eligible now)).map fun record =>
      record.claimed claimedUntil) s.outbox held.message.messageId with
    ⟨b, hb, hid, hafter⟩ | ⟨hother, -⟩
  · obtain ⟨record', hget', -, hclaim'⟩ := hstored b hb
    have hid' : b.message.messageId = held.message.messageId := hid
    rw [hid', hget] at hget'
    cases hget'
    rw [hclaim, ← hclaim'] at hafter ⊢
    exact hafter
  · exact absurd rfl (hother held hheld)

theorem claimPending_nodup (h : s.Keyed) {records : List OutboxRecord}
    (hok : (s.claimPending now limit lease).1 = .ok records) :
    (records.map fun record => record.message.messageId).Nodup := by
  rcases s.claimPending_cases now limit lease with ⟨-, hnone⟩ | ⟨claimedUntil, hlease, hclaimed⟩
  · rw [hnone records hok]
    exact List.nodup_nil
  rw [hclaimed] at hok
  cases hok
  rw [List.map_map]
  have hvalues : (s.outbox.values.map fun record => record.message.messageId) = s.outbox.keys := by
    rw [Dict.values, Dict.keys, List.map_map]
    refine List.map_congr_left fun entry hentry => ?_
    exact h entry.1 entry.2 (s.outbox.mem_entries_iff.mp hentry)
  have hnodup : ((s.eligible now).map fun record => record.message.messageId).Nodup := by
    refine List.Nodup.sublist (List.Sublist.map _ List.filter_sublist) ?_
    rw [hvalues]
    exact s.outbox.keys_nodup
  have hperm : (ranked OutboxRecord.rank (s.eligible now)).Perm (s.eligible now) := ranked_perm
  have hranked := (hperm.map fun record => record.message.messageId).nodup_iff.mpr hnodup
  exact hranked.sublist (List.Sublist.map _ (List.take_sublist _ _))

theorem mem_claimPending {claimedUntil : Datetime} {record : OutboxRecord}
    (hdue : record ∈ s.eligible now) (hlimit : (s.eligible now).length ≤ limit)
    (hlease : now.plus lease = .ok claimedUntil) :
    ∃ records, (s.claimPending now limit lease).1 = .ok records ∧
      record.claimed claimedUntil ∈ records := by
  have hpos := List.length_pos_of_mem hdue
  have hbest : record ∈ best OutboxRecord.rank limit.toNat (s.eligible now) := by
    by_contra hout
    have hdrop := List.length_pos_of_mem (mem_drop_of_not_mem_best hdue hout)
    rw [List.length_drop, ranked_perm.length_eq] at hdrop
    omega
  unfold claimPending
  rw [if_neg (by omega)]
  split
  · next hnone =>
    rw [hnone] at hbest
    cases hbest
  · simp only [hlease]
    exact ⟨_, rfl, List.mem_map_of_mem hbest⟩

theorem updateUnpublished_cases (s : InMemoryEventStore) (messageId : String)
    (update : OutboxRecord → OutboxRecord) :
    (s.updateUnpublished messageId update).2 = s ∨
      ∃ record, s.outbox.get? messageId = some record ∧ record.status ≠ .published ∧
        s.updateUnpublished messageId update =
          (.ok (), { s with outbox := s.outbox.set messageId (update record) }) := by
  unfold updateUnpublished
  cases hget : s.outbox.get? messageId with
  | none => exact .inl rfl
  | some record =>
    by_cases hstatus : record.status = .published
    · simp [hstatus]
    · simp [hstatus]

end InMemoryEventStore

namespace PublisherCall

theorem writeBack_store (c : PublisherCall) (s : InMemoryEventStore) :
    (c.writeBack s).2 = s ∨ ∃ held record, c.records.head? = some held ∧
      s.outbox.get? held.message.messageId = some record ∧ record.status ≠ .published ∧
      (c.answer = some .accepted ∧
          (c.writeBack s).2 = { s with
            outbox := s.outbox.set held.message.messageId (record.published c.now) } ∨
        ∃ error retryAt, c.answer = some (.raised error) ∧
          c.now.plus c.publisher.retryDelay = .ok retryAt ∧
          (∃ c', (c.writeBack s).1 = .ok c' ∧ c.records = held :: c'.records) ∧
          (c.writeBack s).2 = { s with
            outbox := s.outbox.set held.message.messageId (record.released retryAt error) }) := by
  unfold writeBack
  split
  · next held rest hrecords hanswer =>
    rcases s.updateUnpublished_cases held.message.messageId
        (fun record => record.published c.now) with
      hsame | ⟨record, hget, hstatus, hset⟩
    · refine .inl ?_
      simp only [InMemoryEventStore.markPublished]
      split <;> simp_all
    · refine .inr ⟨held, record, by rw [hrecords]; rfl, hget, hstatus, .inl ⟨hanswer, ?_⟩⟩
      simp [InMemoryEventStore.markPublished, hset]
  · next held rest error hrecords hanswer =>
    rcases hretry : c.now.plus c.publisher.retryDelay with e | retryAt
    · exact .inl rfl
    rcases s.updateUnpublished_cases held.message.messageId
        (fun record => record.released retryAt error) with hsame | ⟨record, hget, hstatus, hset⟩
    · refine .inl ?_
      simp only [InMemoryEventStore.releaseAfterFailure]
      split <;> simp_all
    · refine .inr ⟨held, record, by rw [hrecords]; rfl, hget, hstatus,
        .inr ⟨error, retryAt, hanswer, rfl, ?_⟩⟩
      simp [InMemoryEventStore.releaseAfterFailure, hset, hrecords]
  · exact .inl rfl

theorem writeBack_call {c c' : PublisherCall} {s : InMemoryEventStore}
    (h : (c.writeBack s).1 = .ok c') :
    c' = c ∨ c'.publisher = c.publisher ∧ c'.now = c.now ∧ c'.answer = none ∧
      ∃ held, c.records = held :: c'.records := by
  unfold writeBack at h
  split at h
  · next held rest hrecords hanswer =>
    split at h
    · cases h
    · cases h
      exact .inr ⟨rfl, rfl, rfl, held, hrecords⟩
  · next held rest error hrecords hanswer =>
    split at h
    · cases h
    · split at h
      · cases h
      · cases h
        exact .inr ⟨rfl, rfl, rfl, held, hrecords⟩
  · exact .inl (Except.ok.inj h).symm

theorem publishPending_ok {publisher : OutboxPublisher} {s : InMemoryEventStore} {now : Datetime}
    {limit : Int} {c : PublisherCall} (h : (publishPending publisher s now limit).1 = .ok c) :
    c.publisher = publisher ∧ c.now = now ∧ c.answer = none ∧
      (s.claimPending now limit publisher.lease).1 = .ok c.records ∧
      (publishPending publisher s now limit).2 = (s.claimPending now limit publisher.lease).2 := by
  unfold publishPending at h ⊢
  split_ifs at h ⊢
  split at h
  · cases h
  · next records t hclaim =>
    cases h
    rw [hclaim]
    exact ⟨rfl, rfl, rfl, rfl, rfl⟩

theorem transport_cases (c : PublisherCall) (answer : TransportAnswer) :
    c.transport answer = c ∧ ¬ (c.answer = none ∧ c.records ≠ []) ∨
      c.transport answer = { c with answer := some answer } ∧ c.answer = none ∧ c.records ≠ [] := by
  unfold transport
  split
  · next held rest hrecords hanswer => exact .inr ⟨rfl, hanswer, by simp [hrecords]⟩
  · next hno =>
    refine .inl ⟨rfl, ?_⟩
    rintro ⟨hanswer, hrecords⟩
    obtain ⟨held, rest, hcons⟩ := List.exists_cons_of_ne_nil hrecords
    exact hno held rest hcons hanswer

end PublisherCall

namespace OutboxRun

variable [Sha256]

/-- The record of a message before and after a step. -/
inductive RecordStep (r : OutboxRun) (x : OutboxStep) (id : String) :
    Option OutboxRecord → Option OutboxRecord → Prop where
  | same (record : Option OutboxRecord) : RecordStep r x id record record
  | queued (message : OutboxMessage) (hid : message.messageId = id) :
      RecordStep r x id none (some (Tables.queued message))
  | claimed (record : OutboxRecord) (claimedUntil : Datetime) (hdue : record.Claimable x.time) :
      RecordStep r x id (some record) (some (record.claimed claimedUntil))
  /-- A delivery that succeeded is written back. -/
  | published (record held : OutboxRecord) (call : Nat) (c : PublisherCall)
      (hcall : r.calls[call]? = some c) (hheld : c.records.head? = some held)
      (hid : held.message.messageId = id) (hanswer : c.answer = some .accepted) :
      RecordStep r x id (some record) (some (record.published c.now))
  /-- A delivery that failed is written back. -/
  | released (record held : OutboxRecord) (call : Nat) (c : PublisherCall) (retryAt : Datetime)
      (error : String) (haction : x.action = .writeBack call) (hcall : r.calls[call]? = some c)
      (hheld : c.records.head? = some held) (hid : held.message.messageId = id)
      (hanswer : c.answer = some (.raised error))
      (hretry : c.now.plus c.publisher.retryDelay = .ok retryAt)
      (hnext : ∃ c', (r.step x).calls[call]? = some c' ∧ c.records = held :: c'.records)
      (hstatus : record.status ≠ .published) :
      RecordStep r x id (some record) (some (record.released retryAt error))

theorem get?_step_outbox (s : InMemoryEventStore) (op : StoreOp) (id : String) :
    (s.step op).outbox.get? id = s.outbox.get? id ∨
      s.outbox.get? id = none ∧ ∃ message : OutboxMessage, message.messageId = id ∧
        (s.step op).outbox.get? id = some (Tables.queued message) := by
  cases op with
  | failNextCommit => exact .inl rfl
  | write command =>
    have hsame : ∀ t : Tables, t = s.toTables → (EventWriter.write s command).2.toTables = t →
        (s.step (.write command)).outbox.get? id = s.outbox.get? id := by
      rintro t rfl hwrite
      have houtbox : (s.step (.write command)).outbox = s.outbox := congrArg Tables.outbox hwrite
      rw [houtbox]
    rcases EventWriter.write_cases s command with ⟨e, -, hkept⟩ | ⟨result, -, hbody⟩
    · exact .inl (hsame _ rfl hkept)
    rcases EventWriter.writeBody_cases hbody with ⟨_, -, -, -, hkept⟩ | ⟨t, -, hdecide, htables⟩
    · exact .inl (hsame _ rfl hkept)
    have houtbox : (s.step (.write command)).outbox = t.outbox :=
      calc (s.step (.write command)).outbox
        _ = (EventWriter.withReceipt t command result).outbox := congrArg Tables.outbox htables
        _ = t.outbox := rfl
    rw [houtbox]
    rcases EventWriter.decideCommand_recorded hdecide with rfl | ⟨_, _, message, hrec, -⟩
    · exact .inl rfl
    rcases hrec.outbox with ⟨_, -, -, hkept⟩ | ⟨hnone, hqueued⟩
    · exact .inl (by rw [hkept])
    · rw [hqueued]
      by_cases hid : id = message.messageId
      · subst hid
        exact .inr ⟨hnone, message, rfl, Dict.get?_set_self _ _ _⟩
      · exact .inl (Dict.get?_set_of_ne _ _ hid)

variable {r : OutboxRun}

theorem step_record (h : r.store.Keyed) (x : OutboxStep) (id : String) :
    RecordStep r x id (r.store.outbox.get? id) ((r.step x).store.outbox.get? id) := by
  obtain ⟨time, action⟩ := x
  cases action with
  | store op =>
    rcases get?_step_outbox r.store op id with hsame | ⟨hnone, message, hid, hqueued⟩
    · have hstep : (r.step ⟨time, .store op⟩).store.outbox.get? id = r.store.outbox.get? id := hsame
      rw [hstep]
      exact .same _
    · have hstep : (r.step ⟨time, .store op⟩).store.outbox.get? id = some (Tables.queued message) :=
        hqueued
      rw [hstep, hnone]
      exact .queued message hid
  | transport call answer =>
    have hstep : (r.step ⟨time, .transport call answer⟩).store = r.store := by
      simp only [step]
      split <;> rfl
    rw [hstep]
    exact .same _
  | publishPending publisher limit =>
    have hstep : (r.step ⟨time, .publishPending publisher limit⟩).store = r.store ∨
        (r.step ⟨time, .publishPending publisher limit⟩).store =
          (r.store.claimPending time limit publisher.lease).2 := by
      simp only [step, PublisherCall.publishPending]
      split_ifs
      · exact .inl rfl
      · rcases r.store.claimPending time limit publisher.lease with ⟨e | records, s⟩
        · exact .inr rfl
        · exact .inr rfl
    rcases hstep with hstep | hstep
    · rw [hstep]
      exact .same _
    · rw [hstep]
      rcases r.store.claimPending_cases time limit publisher.lease with
        ⟨hsame, -⟩ | ⟨claimedUntil, -, hclaimed⟩
      · rw [hsame]
        exact .same _
      · rw [hclaimed]
        rcases Dict.get?_foldl_setBy (fun record : OutboxRecord => record.message.messageId)
          (fun record => record) ((best OutboxRecord.rank limit.toNat (r.store.eligible time)).map
            fun record => record.claimed claimedUntil) r.store.outbox id with
          ⟨record, hmem, hid, hget⟩ | ⟨-, hget⟩
        · obtain ⟨due, hdue, rfl⟩ := List.mem_map.mp hmem
          obtain ⟨⟨id', hget'⟩, hclaimable⟩ :=
            InMemoryEventStore.mem_eligible.mp (mem_of_mem_best hdue)
          have hid' : due.message.messageId = id := hid
          obtain rfl := (h id' due hget').symm.trans hid'
          have hafter : (r.store.claimPending time limit publisher.lease).2.outbox.get? id' =
              some (due.claimed claimedUntil) := by
            rw [hclaimed]
            exact hget
          rw [hclaimed] at hafter
          rw [hget']
          exact hafter ▸ .claimed due claimedUntil hclaimable
        · have hafter : (r.store.claimPending time limit publisher.lease).2.outbox.get? id =
              r.store.outbox.get? id := by
            rw [hclaimed]
            exact hget
          rw [hclaimed] at hafter
          exact hafter ▸ .same _
  | writeBack call =>
    rcases hcall : r.calls[call]? with _ | c
    · have hstep : r.step ⟨time, .writeBack call⟩ = r := by simp only [step, hcall]
      rw [hstep]
      exact .same _
    have hstep : (r.step ⟨time, .writeBack call⟩).store = (c.writeBack r.store).2 := by
      simp only [step, hcall]
      rcases c.writeBack r.store with ⟨e | c', s⟩
      · rfl
      · rfl
    rw [hstep]
    rcases c.writeBack_store r.store with hsame | ⟨held, record, hheld, hget, hstatus, hset⟩
    · rw [hsame]
      exact .same _
    by_cases hid : id = held.message.messageId
    · subst hid
      rw [hget]
      rcases hset with ⟨hanswer, hset⟩ | ⟨error, retryAt, hanswer, hretry, ⟨c', hok, hnext⟩, hset⟩
      · rw [hset, Dict.get?_set_self]
        exact .published record held call c hcall hheld rfl hanswer
      · have hcalls : (r.step ⟨time, .writeBack call⟩).calls[call]? = some c' := by
          obtain ⟨hlt, -⟩ := List.getElem?_eq_some_iff.mp hcall
          rcases hwrite : c.writeBack r.store with ⟨answer, s⟩
          rw [hwrite] at hok
          obtain rfl : answer = .ok c' := hok
          simp only [step, hcall, hwrite, List.getElem?_set_self hlt]
        rw [hset, Dict.get?_set_self]
        exact .released record held call c retryAt error rfl hcall hheld rfl hanswer hretry
          ⟨c', hcalls, hnext⟩ hstatus
    · have hother : (c.writeBack r.store).2.outbox.get? id = r.store.outbox.get? id := by
        rcases hset with ⟨-, hset⟩ | ⟨_, _, -, -, -, hset⟩
        · rw [hset]
          exact Dict.get?_set_of_ne _ _ hid
        · rw [hset]
          exact Dict.get?_set_of_ne _ _ hid
      rw [hother]
      exact .same _

inductive CallStep (r : OutboxRun) (x : OutboxStep) (i : Nat) : PublisherCall → Prop where
  | same (c : PublisherCall) (hcall : r.calls[i]? = some c) : CallStep r x i c
  | started (c : PublisherCall) (publisher : OutboxPublisher) (limit : Int)
      (haction : x.action = .publishPending publisher limit)
      (hcall : (PublisherCall.publishPending publisher r.store x.time limit).1 = .ok c)
      (hstore : (r.step x).store =
        (r.store.claimPending x.time limit publisher.lease).2) : CallStep r x i c
  | answered (c : PublisherCall) (answer : TransportAnswer) (hcall : r.calls[i]? = some c)
      (haccepted : answer = .accepted → ∀ held ∈ c.records.head?,
        held.message ∈ (r.step x).accepted) : CallStep r x i { c with answer := some answer }
  | wroteBack (c c' : PublisherCall) (held : OutboxRecord) (hcall : r.calls[i]? = some c)
      (haction : x.action = .writeBack i) (hrecords : c.records = held :: c'.records)
      (hsame : c'.publisher = c.publisher ∧ c'.now = c.now) (hanswer : c'.answer = none) :
      CallStep r x i c'

theorem step_call (r : OutboxRun) (x : OutboxStep) {i : Nat} {c : PublisherCall}
    (h : (r.step x).calls[i]? = some c) : CallStep r x i c := by
  obtain ⟨time, action⟩ := x
  cases action with
  | store op => exact .same c h
  | publishPending publisher limit =>
    rcases hcall : PublisherCall.publishPending publisher r.store time limit with ⟨e | c', s⟩
    · simp only [step, hcall] at h
      exact .same c h
    · have hok : (PublisherCall.publishPending publisher r.store time limit).1 = .ok c' := by
        rw [hcall]
      have hstore := (PublisherCall.publishPending_ok hok).2.2.2.2
      have hstep : r.step ⟨time, .publishPending publisher limit⟩ =
          { r with store := s, calls := r.calls ++ [c'] } := by
        simp only [step, hcall]
      rw [hcall] at hstore
      rw [hstep] at h
      rcases Nat.lt_or_ge i r.calls.length with hlt | hge
      · rw [List.getElem?_append_left hlt] at h
        exact .same c h
      · rw [List.getElem?_append_right hge] at h
        have hc : c' = c := by
          cases hi : i - r.calls.length with
          | zero => simpa [hi] using h
          | succ n => simp [hi] at h
        subst hc
        exact .started c' publisher limit rfl hok (by rw [hstep]; exact hstore)
  | transport call answer =>
    rcases hcall : r.calls[call]? with _ | c'
    · simp only [step, hcall] at h
      exact .same c h
    · have hcalls : (r.step ⟨time, .transport call answer⟩).calls =
          r.calls.set call (c'.transport answer) := by
        simp only [step, hcall]
      rw [hcalls, List.getElem?_set] at h
      split_ifs at h with hi hlt
      · subst hi
        cases h
        rcases c'.transport_cases answer with ⟨hkept, -⟩ | ⟨hanswered, hasked, hne⟩
        · rw [hkept]
          exact .same c' hcall
        · rw [hanswered]
          refine .answered c' answer hcall ?_
          rintro rfl held hheld
          simp only [step, hcall, asked, hasked, Option.isNone_none, if_true]
          rw [Option.mem_def.mp hheld]
          simp
      · exact .same c h
  | writeBack call =>
    rcases hcall : r.calls[call]? with _ | c'
    · simp only [step, hcall] at h
      exact .same c h
    rcases hwrite : c'.writeBack r.store with ⟨e | c'', s⟩
    · simp only [step, hcall, hwrite] at h
      exact .same c h
    · have hcalls : (r.step ⟨time, .writeBack call⟩).calls = r.calls.set call c'' := by
        simp only [step, hcall, hwrite]
      rw [hcalls, List.getElem?_set] at h
      split_ifs at h with hi hlt
      · subst hi
        obtain rfl := Option.some.inj h
        have hok : (c'.writeBack r.store).1 = .ok c'' := by rw [hwrite]
        rcases PublisherCall.writeBack_call hok with rfl |
            ⟨hpublisher, hnow, hanswer, held, hrecords⟩
        · exact .same _ hcall
        · exact .wroteBack c' c'' held hcall rfl hrecords ⟨hpublisher, hnow⟩ hanswer
      · exact .same c h

theorem accepted_step (r : OutboxRun) (x : OutboxStep) : r.accepted ⊆ (r.step x).accepted := by
  unfold step
  split
  · exact List.Subset.refl _
  · split <;> exact List.Subset.refl _
  · split
    · exact List.Subset.refl _
    · split
      · exact List.subset_append_left _ _
      · exact List.Subset.refl _
  · split
    · exact List.Subset.refl _
    · split <;> exact List.Subset.refl _

theorem RecordStep.keeps {x : OutboxStep} {id : String} {record : OutboxRecord}
    {after : Option OutboxRecord} (h : RecordStep r x id (some record) after) :
    ∃ record', after = some record' ∧ record'.message = record.message ∧
      (record.status = .published → record'.status = .published) := by
  cases h with
  | same => exact ⟨record, rfl, rfl, fun hstatus => hstatus⟩
  | claimed _ claimedUntil hdue => exact ⟨_, rfl, rfl, fun hstatus => absurd hstatus hdue.1⟩
  | published => exact ⟨_, rfl, rfl, fun _ => rfl⟩
  | released _ _ _ _ _ _ _ _ _ _ _ _ _ hstatus => exact ⟨_, rfl, rfl, fun h => absurd h hstatus⟩

/-- What is known of the deliveries between two steps. -/
structure Delivered (r : OutboxRun) : Prop where
  keyed : r.store.Keyed
  held : ∀ c ∈ r.calls, ∀ held ∈ c.records, ∃ record,
    r.store.outbox.get? held.message.messageId = some record ∧ record.message = held.message
  answered : ∀ c ∈ r.calls, c.answer = some .accepted → ∀ held ∈ c.records.head?,
    held.message ∈ r.accepted
  published : ∀ id record, r.store.outbox.get? id = some record → record.status = .published →
    record.message ∈ r.accepted

omit [Sha256] in
theorem delivered_start : Delivered start where
  keyed := by
    intro id record hget
    cases hget
  held := by
    intro c hc
    cases hc
  answered := by
    intro c hc
    cases hc
  published := by
    intro id record hget
    cases hget

theorem Delivered.step (h : r.Delivered) (x : OutboxStep) : (r.step x).Delivered := by
  have hmessage : ∀ id record, r.store.outbox.get? id = some record → ∃ record',
      (r.step x).store.outbox.get? id = some record' ∧ record'.message = record.message := by
    intro id record hget
    have hstep := step_record h.keyed x id
    rw [hget] at hstep
    obtain ⟨record', hafter, hsame, -⟩ := hstep.keeps
    exact ⟨record', hafter, hsame⟩
  have hheld : ∀ c ∈ r.calls, ∀ held ∈ c.records, ∃ record,
      (r.step x).store.outbox.get? held.message.messageId = some record ∧
        record.message = held.message := by
    intro c hc held hmem
    obtain ⟨record, hget, hsame⟩ := h.held c hc held hmem
    obtain ⟨record', hget', hsame'⟩ := hmessage _ record hget
    exact ⟨record', hget', hsame'.trans hsame⟩
  constructor
  · intro id record hafter
    have hstep := step_record h.keyed x id
    rw [hafter] at hstep
    generalize hbefore : r.store.outbox.get? id = before at hstep
    cases hstep with
    | same => exact h.keyed id record hbefore
    | queued message hid => exact hid
    | claimed record => exact h.keyed id record hbefore
    | published record => exact h.keyed id record hbefore
    | released record => exact h.keyed id record hbefore
  · intro c hc held hmem
    obtain ⟨i, hi⟩ := List.getElem?_of_mem hc
    cases step_call r x hi with
    | same _ hcall => exact hheld c (List.mem_of_getElem? hcall) held hmem
    | started _ publisher limit haction hcall hstore =>
      obtain ⟨-, -, -, hclaim, -⟩ := PublisherCall.publishPending_ok hcall
      obtain ⟨record, claimedUntil, -, -, -, -, hget⟩ :=
        InMemoryEventStore.claimPending_ok h.keyed hclaim hmem
      exact ⟨held, by rw [hstore]; exact hget, rfl⟩
    | answered c answer hcall => exact hheld c (List.mem_of_getElem? hcall) held hmem
    | wroteBack c₀ _ first hcall haction hrecords =>
      refine hheld c₀ (List.mem_of_getElem? hcall) held ?_
      rw [hrecords]
      exact List.mem_cons_of_mem _ hmem
  · intro c hc hanswer held hfirst
    obtain ⟨i, hi⟩ := List.getElem?_of_mem hc
    cases step_call r x hi with
    | same _ hcall =>
      exact accepted_step r x (h.answered c (List.mem_of_getElem? hcall) hanswer held hfirst)
    | started _ publisher limit haction hcall hstore =>
      obtain ⟨-, -, hnone, -⟩ := PublisherCall.publishPending_ok hcall
      rw [hnone] at hanswer
      cases hanswer
    | answered c answer hcall haccepted => exact haccepted (Option.some.inj hanswer) held hfirst
    | wroteBack _ _ _ _ _ _ _ hnone =>
      rw [hnone] at hanswer
      cases hanswer
  · intro id record hafter hstatus
    have hstep := step_record h.keyed x id
    rw [hafter] at hstep
    generalize hbefore : r.store.outbox.get? id = before at hstep
    cases hstep with
    | same => exact accepted_step r x (h.published id record hbefore hstatus)
    | queued => cases hstatus
    | claimed => cases hstatus
    | released => cases hstatus
    | published record held call c hcall hfirst hid hanswer =>
      have hmem := List.mem_of_getElem? hcall
      have haccepted := h.answered c hmem hanswer held hfirst
      obtain ⟨stored, hget, hsame⟩ := h.held c hmem held (List.mem_of_mem_head? hfirst)
      rw [hid, hbefore] at hget
      cases hget
      apply accepted_step r x
      show record.message ∈ r.accepted
      rw [hsame]
      exact haccepted

theorem delivered_run (xs : List OutboxStep) : (run xs).Delivered := by
  induction xs using List.reverseRecOn with
  | nil => exact delivered_start
  | append_singleton xs x ih =>
    rw [run_snoc]
    exact ih.step x

theorem keeps_run (before after : List OutboxStep) {id : String} {record : OutboxRecord}
    (h : (run before).store.outbox.get? id = some record) :
    ∃ record', (run (before ++ after)).store.outbox.get? id = some record' ∧
      record'.message = record.message ∧
      (record.status = .published → record'.status = .published) := by
  induction after using List.reverseRecOn with
  | nil => exact ⟨record, by rw [List.append_nil]; exact h, rfl, fun hstatus => hstatus⟩
  | append_singleton after x ih =>
    obtain ⟨record', hget, hsame, hpublished⟩ := ih
    have hstep := step_record (delivered_run (before ++ after)).keyed x id
    rw [hget] at hstep
    obtain ⟨record'', hget', hsame', hpublished'⟩ := hstep.keeps
    rw [← List.append_assoc, run_snoc]
    exact ⟨record'', hget', hsame'.trans hsame, fun hstatus => hpublished' (hpublished hstatus)⟩

/-- Whatever is written, claimed, answered and written back: a queued message stays in the outbox as
it is; it is published only when the transport accepted it, and then for good; and until then it may
be claimed at every time that is not before it is available or its claim ends. -/
theorem run_delivers (before after : List OutboxStep) (id : String) (record : OutboxRecord)
    (hqueued : (run before).store.outbox.get? id = some record) :
    (∃ record', (run (before ++ after)).store.outbox.get? id = some record' ∧
        record'.message = record.message ∧
        (record.status = .published → record'.status = .published)) ∧
      (record.status = .published → record.message ∈ (run before).accepted) ∧
      (record.status ≠ .published → ∀ now, record.availableAt ≤ now →
        (∀ claimedUntil ∈ record.claimedUntil, claimedUntil ≤ now) →
        record ∈ (run before).store.eligible now ∧
          ∀ (limit lease : Int) claimedUntil,
            (((run before).store.eligible now).length : Int) ≤ limit →
            now.plus lease = .ok claimedUntil →
            ∃ records, ((run before).store.claimPending now limit lease).1 = .ok records ∧
              record.claimed claimedUntil ∈ records) := by
  refine ⟨keeps_run before after hqueued, (delivered_run before).published id record hqueued, ?_⟩
  intro hstatus now havailable hclaim
  have hdue : record ∈ (run before).store.eligible now :=
    InMemoryEventStore.mem_eligible.mpr ⟨⟨id, hqueued⟩, hstatus, havailable, .inr hclaim⟩
  exact ⟨hdue, fun _ _ _ hlimit hlease => InMemoryEventStore.mem_claimPending hdue hlimit hlease⟩

/-- A publisher with the lease and the delay of the source. -/
def publisher : OutboxPublisher := ⟨30000000, 1000000, by decide⟩

/-- A creation is written, claimed by the first call, accepted and written back. -/
def firstDelivery : List OutboxStep :=
  [⟨fivePastNine, .store (.write (.create firstCreation))⟩,
    ⟨fivePastNine, .publishPending publisher 100⟩, ⟨fivePastNine, .transport 0 .accepted⟩,
    ⟨fivePastNine, .writeBack 0⟩]

omit [Sha256] in
/-- The message of the first delivery is published, was accepted and stays. -/
theorem run_delivers_firstDelivery :
    letI : Sha256 := .ofTable []
    ∃ record, (run firstDelivery).store.outbox.get?
        (outboxMessageId "create-1" "canonical_event.created") = some record ∧
      record.status = .published ∧ record.message ∈ (run firstDelivery).accepted ∧
      ∃ record', (run (firstDelivery ++ firstDelivery)).store.outbox.get?
          (outboxMessageId "create-1" "canonical_event.created") = some record' ∧
        record'.message = record.message ∧ record'.status = .published := by
  have key : ∀ (sha : Sha256) (id : String),
      ((run firstDelivery).store.outbox.get? id).any (fun record => record.status == .published) →
      ∃ record, (run firstDelivery).store.outbox.get? id = some record ∧
        record.status = .published ∧ record.message ∈ (run firstDelivery).accepted ∧
        ∃ record', (run (firstDelivery ++ firstDelivery)).store.outbox.get? id = some record' ∧
          record'.message = record.message ∧ record'.status = .published := by
    intro sha id hpublished
    obtain ⟨record, hqueued, hstatus⟩ := (Option.any_eq_true _ _).mp hpublished
    have hstatus : record.status = .published := eq_of_beq hstatus
    obtain ⟨⟨record', hget, hsame, hkept⟩, haccepted, -⟩ :=
      run_delivers firstDelivery firstDelivery id record hqueued
    exact ⟨record, hqueued, hstatus, haccepted hstatus, record', hget, hsame, hkept hstatus⟩
  exact key (.ofTable []) _ (by decide +kernel)

end OutboxRun

end Dayjaview.Events
