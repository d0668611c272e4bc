import Dayjaview.Core.Calendar
import Dayjaview.Core.Dict
import Dayjaview.Core.Json
import Dayjaview.Core.Program
import Dayjaview.Core.Ranking
import Mathlib.Data.Prod.Lex

/-!
# Jobs, reviews and commands

An operator retries and resumes jobs and resolves reviews. Every command names the
version of its target; what an executed command did is an audit entry, kept with
its receipt.
-/

namespace Dayjaview.Operator

inductive JobStatus where
  | running
  | succeeded
  | partialSuccess
  | rateLimited
  | authRequired
  | failed
  deriving DecidableEq

inductive ReviewStatus where
  | pending
  | resolved
  deriving DecidableEq

/-- The jobs that start again from the beginning. -/
def retryableJobStatuses : List JobStatus := [.failed, .rateLimited, .authRequired]

/-- The jobs that go on where they stopped. -/
def resumableJobStatuses : List JobStatus := [.partialSuccess]

structure OperatorJob where
  runId : String
  jobType : String
  status : JobStatus
  version : Int
  lastChangedAt : Datetime
  errorCode : Option String
  internalContext : Dict String Json

structure OperatorReview where
  reviewId : String
  reviewType : String
  reviewStatus : ReviewStatus
  targetId : String
  reasonCode : String
  version : Int
  createdAt : Datetime
  resolvedAt : Option Datetime
  internalContext : Dict String Json

structure OperatorAuditEntry where
  auditId : String
  actorId : String
  occurredAt : Datetime
  action : String
  targetId : String
  reasonCode : String
  reason : String
  beforeRevision : Option Int
  afterRevision : Option Int
  deriving DecidableEq

structure OperatorCommand where
  actorId : String
  idempotencyKey : String
  action : String
  targetId : String
  reasonCode : String
  reason : String
  expectedVersion : Int
  resolution : Option (Dict String Json) := none

/-- The receipt of an executed command. -/
structure OperatorCommandReceipt where
  actorId : String
  idempotencyKey : String
  fingerprint : String
  audit : OperatorAuditEntry

structure OperatorCommandResult where
  audit : OperatorAuditEntry
  replayed : Bool
  deriving DecidableEq

structure OperatorPage (α : Type) where
  items : List α
  nextCursor : Option String
  hasMore : Bool
  limit : Int

/-- An optional mapping as a value. -/
def optionalMapping : Option (Dict String Json) → Json
  | none => .null
  | some mapping => .obj mapping.sortedEntries

/-- The digest by which a command is recognised. -/
def fingerprint [Sha256] (command : OperatorCommand) : String :=
  jsonDigest (.obj [("action", .str command.action),
    ("expectedVersion", .int command.expectedVersion), ("reason", .str command.reason),
    ("reasonCode", .str command.reasonCode), ("resolution", optionalMapping command.resolution),
    ("targetId", .str command.targetId)])

/-- The operations of a repository. -/
inductive OperatorOp : Type → Type where
  | listJobs (status : Option JobStatus) (cursor : Option String) (limit : Int) :
    OperatorOp (Except Error (OperatorPage OperatorJob))
  | getJob (runId : String) : OperatorOp (Option OperatorJob)
  | startJobAttempt (runId : String) (now : Datetime) : OperatorOp (Except Error OperatorJob)
  | listReviews (reviewType : Option String) (reviewStatus : Option ReviewStatus)
    (cursor : Option String) (limit : Int) :
    OperatorOp (Except Error (OperatorPage OperatorReview))
  | getReview (reviewId : String) : OperatorOp (Option OperatorReview)
  | openReview (review : OperatorReview) : OperatorOp Unit
  | resolveReview (reviewId : String) (resolution : Dict String Json) (now : Datetime) :
    OperatorOp (Except Error OperatorReview)
  | appendAudit (actorId : String) (occurredAt : Datetime)
    (action targetId reasonCode reason : String) (beforeRevision afterRevision : Option Int) :
    OperatorOp OperatorAuditEntry
  | listAudit (cursor : Option String) (limit : Int) :
    OperatorOp (Except Error (OperatorPage OperatorAuditEntry))
  | findReceipt (actorId idempotencyKey : String) : OperatorOp (Option OperatorCommandReceipt)
  | storeReceipt (receipt : OperatorCommandReceipt) : OperatorOp (Except Error Unit)

/-- The items from a place up to another one, which counts from the end if it is negative. -/
def slice {α : Type} (items : List α) (start : Nat) (stop : Int) : List α :=
  let stop := if stop < 0 then stop + items.length else stop
  (items.take stop.toNat).drop start

/-- The page of an ordered list behind the item that the cursor names. -/
def paginate {α : Type} (ordered : List α) (cursor : Option String) (limit : Int)
    (key : α → String) : Except Error (OperatorPage α) := do
  let start ← match cursor with
    | none => .ok 0
    | some cursor =>
      match (ordered.map key).findIdx? (· = cursor) with
      | none => .error ⟨.unknownOperatorCursor, ""⟩
      | some index => .ok (index + 1)
  let window := slice ordered start (start + limit)
  let hasMore := decide (start + limit < ordered.length)
  return ⟨window, if hasMore then window.getLast?.map key else none, hasMore, limit⟩

structure InMemoryOperatorRepository where
  jobs : Dict String OperatorJob
  reviews : Dict String OperatorReview
  audit : List OperatorAuditEntry
  receipts : Dict (String × String) OperatorCommandReceipt

/-- The name of an audit entry by its number. -/
def auditId (number : Nat) : String :=
  let digits := natText number
  "aud_" ++ String.ofList (List.replicate (8 - digits.length) '0' ++ digits)

def OperatorJob.started (job : OperatorJob) (now : Datetime) : OperatorJob :=
  { job with
    status := .running, version := job.version + 1, lastChangedAt := now, errorCode := none }

def OperatorReview.resolved (review : OperatorReview) (resolution : Dict String Json)
    (now : Datetime) : OperatorReview :=
  { review with
    reviewStatus := .resolved
    version := review.version + 1
    resolvedAt := some now
    internalContext := review.internalContext.set "resolution" (.obj resolution.entries) }

namespace InMemoryOperatorRepository

/-- A repository with some jobs and reviews. -/
def start (jobs : List OperatorJob) (reviews : List OperatorReview) :
    InMemoryOperatorRepository where
  jobs := .ofList (jobs.map fun job => (job.runId, job))
  reviews := .ofList (reviews.map fun review => (review.reviewId, review))
  audit := []
  receipts := .empty

/-- A page of the jobs, the last changed ones first. -/
def listJobs (r : InMemoryOperatorRepository) (status : Option JobStatus) (cursor : Option String)
    (limit : Int) : Except Error (OperatorPage OperatorJob) :=
  let listed := r.jobs.values.filter fun job => status.all (job.status = ·)
  let ordered := ranked (fun job => toLex (-job.lastChangedAt.timestamp, job.runId)) listed
  paginate ordered cursor limit (·.runId)

def startJobAttempt (r : InMemoryOperatorRepository) (runId : String) (now : Datetime) :
    Except Error OperatorJob × InMemoryOperatorRepository :=
  match r.jobs.get? runId with
  | none => (.error ⟨.keyError, runId⟩, r)
  | some job => (.ok (job.started now), { r with jobs := r.jobs.set runId (job.started now) })

/-- A page of the reviews, the oldest ones first. -/
def listReviews (r : InMemoryOperatorRepository) (reviewType : Option String)
    (reviewStatus : Option ReviewStatus) (cursor : Option String) (limit : Int) :
    Except Error (OperatorPage OperatorReview) :=
  let listed := r.reviews.values.filter fun review =>
    reviewType.all (review.reviewType = ·) && reviewStatus.all (review.reviewStatus = ·)
  let ordered := ranked (fun review => toLex (review.createdAt.instant, review.reviewId)) listed
  paginate ordered cursor limit (·.reviewId)

def resolveReview (r : InMemoryOperatorRepository) (reviewId : String)
    (resolution : Dict String Json)
    (now : Datetime) : Except Error OperatorReview × InMemoryOperatorRepository :=
  match r.reviews.get? reviewId with
  | none => (.error ⟨.keyError, reviewId⟩, r)
  | some review =>
    (.ok (review.resolved resolution now),
      { r with reviews := r.reviews.set reviewId (review.resolved resolution now) })

/-- A page of the audit, the newest entries first. -/
def listAudit (r : InMemoryOperatorRepository) (cursor : Option String) (limit : Int) :
    Except Error (OperatorPage OperatorAuditEntry) :=
  let ordered := ranked (fun entry => toLex (-entry.occurredAt.timestamp, entry.auditId)) r.audit
  paginate ordered cursor limit (·.auditId)

def perform (r : InMemoryOperatorRepository) :
    {α : Type} → OperatorOp α → α × InMemoryOperatorRepository
  | _, .listJobs status cursor limit => (r.listJobs status cursor limit, r)
  | _, .getJob runId => (r.jobs.get? runId, r)
  | _, .startJobAttempt runId now => r.startJobAttempt runId now
  | _, .listReviews reviewType reviewStatus cursor limit =>
    (r.listReviews reviewType reviewStatus cursor limit, r)
  | _, .getReview reviewId => (r.reviews.get? reviewId, r)
  | _, .openReview review => ((), { r with reviews := r.reviews.set review.reviewId review })
  | _, .resolveReview reviewId resolution now => r.resolveReview reviewId resolution now
  | _, .appendAudit actorId occurredAt action targetId reasonCode reason beforeRevision
      afterRevision =>
    let entry := ⟨auditId (r.audit.length + 1), actorId, occurredAt, action, targetId, reasonCode,
      reason, beforeRevision, afterRevision⟩
    (entry, { r with audit := r.audit ++ [entry] })
  | _, .listAudit cursor limit => (r.listAudit cursor limit, r)
  | _, .findReceipt actorId idempotencyKey => (r.receipts.get? (actorId, idempotencyKey), r)
  | _, .storeReceipt receipt =>
    (.ok (), { r with
      receipts := r.receipts.set (receipt.actorId, receipt.idempotencyKey) receipt })

end InMemoryOperatorRepository

/-- What the operations do in memory. -/
def memory : Handler OperatorOp InMemoryOperatorRepository := fun op r => r.perform op

abbrev Console (α : Type) : Type 1 := Program OperatorOp α

/-- An operation of the repository. -/
def repository {α : Type} (op : OperatorOp α) : Console α := .call op

def rejected (code : String) : Error := ⟨.operatorCommandRejected, code⟩

/-- The target of a command is missing. -/
def targetNotFound : Error := ⟨.operatorTargetNotFound, ""⟩

/-- Go on only if a condition holds. -/
def require (p : Prop) [Decidable p] (e : Error) : Console Unit := if p then pure () else .raise e

variable [Sha256]

/-- The stored result of a command. -/
def replay (command : OperatorCommand) : Console (Option OperatorCommandResult) := do
  let receipt ← repository (.findReceipt command.actorId command.idempotencyKey)
  match receipt with
  | none => return none
  | some receipt =>
    require (receipt.fingerprint = fingerprint command) (rejected "COMMAND_NOT_ALLOWED")
    return some ⟨receipt.audit, true⟩

/-- Write down what a command did. -/
def record (command : OperatorCommand) (now : Datetime)
    (beforeRevision afterRevision : Option Int) : Console OperatorCommandResult := do
  let audit ← repository (.appendAudit command.actorId now command.action command.targetId
    command.reasonCode command.reason beforeRevision afterRevision)
  let stored ← repository (.storeReceipt
    ⟨command.actorId, command.idempotencyKey, fingerprint command, audit⟩)
  .ofExcept stored
  return ⟨audit, false⟩

def runJobCommand (command : OperatorCommand) (now : Datetime) (allowed : List JobStatus) :
    Console OperatorCommandResult := do
  let replayed ← replay command
  match replayed with
  | some result => return result
  | none =>
    let found ← repository (.getJob command.targetId)
    match found with
    | none => .raise targetNotFound
    | some job =>
      require (job.version = command.expectedVersion) (rejected "STALE_VERSION")
      require (allowed.contains job.status = true) (rejected "COMMAND_NOT_ALLOWED")
      let started ← .ofExcept (← repository (.startJobAttempt job.runId now))
      record command now (some job.version) (some started.version)

def retryJob (command : OperatorCommand) (now : Datetime) : Console OperatorCommandResult :=
  runJobCommand command now retryableJobStatuses

/-- Go on with a job that succeeded in part. -/
def resumeJob (command : OperatorCommand) (now : Datetime) : Console OperatorCommandResult :=
  runJobCommand command now resumableJobStatuses

def resolveReview (command : OperatorCommand) (now : Datetime) : Console OperatorCommandResult := do
  let replayed ← replay command
  match replayed with
  | some result => return result
  | none =>
    match command.resolution with
    | none => .raise (rejected "COMMAND_NOT_ALLOWED")
    | some resolution =>
      let found ← repository (.getReview command.targetId)
      match found with
      | none => .raise targetNotFound
      | some review =>
        require (review.version = command.expectedVersion) (rejected "STALE_VERSION")
        require (review.reviewStatus = .pending) (rejected "COMMAND_NOT_ALLOWED")
        let resolved ← .ofExcept (← repository (.resolveReview review.reviewId resolution now))
        record command now (some review.version) (some resolved.version)

/-- The calls of the console that change something. -/
inductive CommandKind where
  | retryJob
  | resumeJob
  | resolveReview
  deriving DecidableEq

def CommandKind.program (kind : CommandKind) (command : OperatorCommand) (now : Datetime) :
    Console OperatorCommandResult :=
  match kind with
  | .retryJob => Operator.retryJob command now
  | .resumeJob => Operator.resumeJob command now
  | .resolveReview => Operator.resolveReview command now

end Dayjaview.Operator
