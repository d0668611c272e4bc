import Dayjaview.Core.Ranking
import Dayjaview.Core.Timedelta
import Dayjaview.Events.Writer

/-!
# Publishing the outbox

A publisher claims due records for the length of its lease and hands them to the
transport one after the other; each answer is written back before the next record
is handed on. A call of a publisher is kept as the work it still has to do, so
that other calls and writes may come between any two of its steps.
-/

namespace Dayjaview.Events

namespace OutboxRecord

def Claimable (r : OutboxRecord) (now : Datetime) : Prop :=
  r.status ≠ .published ∧ r.availableAt ≤ now ∧
    (r.status = .pending ∨ ∀ claimedUntil ∈ r.claimedUntil, claimedUntil ≤ now)

instance (r : OutboxRecord) (now : Datetime) : Decidable (r.Claimable now) :=
  inferInstanceAs (Decidable (_ ∧ _))

/-- Records are claimed in the order they became available, then by message id. -/
def rank (r : OutboxRecord) : ℤ ×ₗ String := toLex (r.availableAt.instant, r.message.messageId)

/-- The record once it is claimed. -/
def claimed (r : OutboxRecord) (claimedUntil : Datetime) : OutboxRecord :=
  { r with
    status := .claimed
    attempts := r.attempts + 1
    claimedUntil := some claimedUntil
    lastError := none }

/-- The record once it is published. -/
def published (r : OutboxRecord) (publishedAt : Datetime) : OutboxRecord :=
  { r with
    status := .published
    claimedUntil := none
    publishedAt := some publishedAt
    lastError := none }

/-- The record once its delivery failed. -/
def released (r : OutboxRecord) (retryAt : Datetime) (error : String) : OutboxRecord :=
  { r with
    status := .pending
    availableAt := retryAt
    claimedUntil := none
    lastError := some error }

end OutboxRecord

namespace InMemoryEventStore

/-- The records that may be claimed. -/
def eligible (s : InMemoryEventStore) (now : Datetime) : List OutboxRecord :=
  s.outbox.values.filter fun record => record.Claimable now

def claimPending (s : InMemoryEventStore) (now : Datetime) (limit lease : Int) :
    Except Error (List OutboxRecord) × InMemoryEventStore :=
  if limit < 1 then (.error ⟨.valueError, "outbox claim limit은 1 이상이어야 합니다"⟩, s)
  else
    match best OutboxRecord.rank limit.toNat (s.eligible now) with
    | [] => (.ok [], s)
    | due =>
      match now.plus lease with
      | .error e => (.error e, s)
      | .ok claimedUntil =>
        let records := due.map fun record => record.claimed claimedUntil
        (.ok records, { s with
          outbox := records.foldl (fun outbox record =>
            outbox.set record.message.messageId record) s.outbox })

/-- The error for a message that is not in the outbox. -/
def outboxMessageMissing (messageId : String) : Error :=
  ⟨.keyError, s!"outbox message를 찾을 수 없습니다: {messageId}"⟩

/-- Change the record of a message unless it is published. -/
def updateUnpublished (s : InMemoryEventStore) (messageId : String)
    (update : OutboxRecord → OutboxRecord) : Except Error Unit × InMemoryEventStore :=
  match s.outbox.get? messageId with
  | none => (.error (outboxMessageMissing messageId), s)
  | some record =>
    if record.status = .published then (.ok (), s)
    else (.ok (), { s with outbox := s.outbox.set messageId (update record) })

/-- Note that a message was published. -/
def markPublished (s : InMemoryEventStore) (messageId : String) (publishedAt : Datetime) :
    Except Error Unit × InMemoryEventStore :=
  s.updateUnpublished messageId fun record => record.published publishedAt

/-- Make a message available again after a failure. -/
def releaseAfterFailure (s : InMemoryEventStore) (messageId : String) (retryAt : Datetime)
    (error : String) : Except Error Unit × InMemoryEventStore :=
  s.updateUnpublished messageId fun record => record.released retryAt error

end InMemoryEventStore

/-- How long a publisher claims records, and how long a failed one rests, in microseconds. -/
structure OutboxPublisher where
  lease : Int
  retryDelay : Int
  valid : 0 < lease ∧ 0 ≤ retryDelay

inductive TransportAnswer where
  | accepted
  /-- It raises; the text names the exception. -/
  | raised (error : String)

/-- A call of a publisher that claimed its records. -/
structure PublisherCall where
  publisher : OutboxPublisher
  now : Datetime
  records : List OutboxRecord
  answer : Option TransportAnswer
  claimed : Nat
  published : Nat
  failed : Nat

namespace PublisherCall

/-- Call a publisher: claim records. -/
def publishPending (publisher : OutboxPublisher) (s : InMemoryEventStore) (now : Datetime)
    (limit : Int) : Except Error PublisherCall × InMemoryEventStore :=
  if limit < 1 then (.error ⟨.valueError, "outbox publish limit은 1 이상이어야 합니다"⟩, s)
  else
    match s.claimPending now limit publisher.lease with
    | (.error e, s) => (.error e, s)
    | (.ok records, s) => (.ok ⟨publisher, now, records, none, records.length, 0, 0⟩, s)

/-- Hand the first record to the transport, which answers. -/
def transport (c : PublisherCall) (answer : TransportAnswer) : PublisherCall :=
  match c.records, c.answer with
  | _ :: _, none => { c with answer := some answer }
  | _, _ => c

/-- Write back what the transport said to the first record. -/
def writeBack (c : PublisherCall) (s : InMemoryEventStore) :
    Except Error PublisherCall × InMemoryEventStore :=
  match c.records, c.answer with
  | record :: records, some .accepted =>
    match s.markPublished record.message.messageId c.now with
    | (.error e, s) => (.error e, s)
    | (.ok (), s) => (.ok { c with records, answer := none, published := c.published + 1 }, s)
  | record :: records, some (.raised error) =>
    match c.now.plus c.publisher.retryDelay with
    | .error e => (.error e, s)
    | .ok retryAt =>
      match s.releaseAfterFailure record.message.messageId retryAt error with
      | (.error e, s) => (.error e, s)
      | (.ok (), s) => (.ok { c with records, answer := none, failed := c.failed + 1 }, s)
  | _, _ => (.ok c, s)

end PublisherCall

/-- What happens to the outbox. -/
inductive OutboxAction where
  /-- Something is written, or the failpoint is armed. -/
  | store (op : StoreOp)
  | publishPending (publisher : OutboxPublisher) (limit : Int)
  /-- The transport answers a call. -/
  | transport (call : Nat) (answer : TransportAnswer)
  /-- A call writes the answer back. -/
  | writeBack (call : Nat)

structure OutboxStep where
  time : Datetime
  action : OutboxAction

/-- The store with the calls of the publishers, and what the transport accepted. -/
structure OutboxRun where
  store : InMemoryEventStore
  calls : List PublisherCall
  accepted : List OutboxMessage

namespace OutboxRun

variable [Sha256]

def start : OutboxRun := ⟨.empty, [], []⟩

/-- The message the transport is asked about by a call. -/
def asked (c : PublisherCall) : Option OutboxMessage :=
  if c.answer.isNone then c.records.head?.map OutboxRecord.message else none

/-- The run after one more step. A call that raises goes no further. -/
def step (r : OutboxRun) (x : OutboxStep) : OutboxRun :=
  match x.action with
  | .store op => { r with store := r.store.step op }
  | .publishPending publisher limit =>
    match PublisherCall.publishPending publisher r.store x.time limit with
    | (.error _, store) => { r with store }
    | (.ok call, store) => { r with store, calls := r.calls ++ [call] }
  | .transport call answer =>
    match r.calls[call]? with
    | none => r
    | some c =>
      { r with
        calls := r.calls.set call (c.transport answer)
        accepted :=
          match answer with
          | .accepted => r.accepted ++ (asked c).toList
          | .raised _ => r.accepted }
  | .writeBack call =>
    match r.calls[call]? with
    | none => r
    | some c =>
      match c.writeBack r.store with
      | (.error _, store) => { r with store }
      | (.ok c, store) => { r with store, calls := r.calls.set call c }

def run (xs : List OutboxStep) : OutboxRun := xs.foldl step start

theorem run_snoc (xs : List OutboxStep) (x : OutboxStep) : run (xs ++ [x]) = (run xs).step x := by
  simp only [run, List.foldl_append, List.foldl_cons, List.foldl_nil]

end OutboxRun

end Dayjaview.Events
