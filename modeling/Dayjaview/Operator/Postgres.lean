import Dayjaview.Operator.Service

/-!
# The operator repository in the database

The tables of the database with the statements on them: a conflicting insert does
nothing, an update returns the changed row, and lists are ordered by the database.
-/

namespace Dayjaview.Operator

structure ReviewRow where
  reviewId : String
  reviewType : String
  reviewStatus : ReviewStatus
  targetId : String
  reasonCode : String
  version : Int
  createdAt : Datetime
  resolvedAt : Option Datetime
  internalContext : Dict String Json
  resolution : Option (Dict String Json)

def ReviewRow.review (row : ReviewRow) : OperatorReview where
  reviewId := row.reviewId
  reviewType := row.reviewType
  reviewStatus := row.reviewStatus
  targetId := row.targetId
  reasonCode := row.reasonCode
  version := row.version
  createdAt := row.createdAt
  resolvedAt := row.resolvedAt
  internalContext :=
    match row.resolution with
    | none => row.internalContext
    | some resolution => row.internalContext.set "resolution" (.obj resolution.entries)

/-- The row of a review that is opened. -/
def OperatorReview.row (review : OperatorReview) : ReviewRow where
  reviewId := review.reviewId
  reviewType := review.reviewType
  reviewStatus := review.reviewStatus
  targetId := review.targetId
  reasonCode := review.reasonCode
  version := review.version
  createdAt := review.createdAt
  resolvedAt := review.resolvedAt
  internalContext := review.internalContext
  resolution := none

structure AuditRow where
  auditId : Nat
  actorId : String
  occurredAt : Datetime
  action : String
  targetId : String
  reasonCode : String
  reason : String
  beforeRevision : Option Int
  afterRevision : Option Int

def AuditRow.entry (row : AuditRow) : OperatorAuditEntry where
  auditId := Operator.auditId row.auditId
  actorId := row.actorId
  occurredAt := row.occurredAt
  action := row.action
  targetId := row.targetId
  reasonCode := row.reasonCode
  reason := row.reason
  beforeRevision := row.beforeRevision
  afterRevision := row.afterRevision

structure ReceiptRow where
  actorId : String
  idempotencyKey : String
  fingerprint : String
  auditId : Int

/-- The tables of the database. -/
structure PostgresOperatorRepository where
  jobs : Dict String OperatorJob
  reviews : Dict String ReviewRow
  auditEntries : List AuditRow
  commandReceipts : Dict (String × String) ReceiptRow

/-- The number in the name of an audit entry. -/
def auditNumber (auditId : String) : Except Error Int :=
  let digits := if "aud_".toList.isPrefixOf auditId.toList then
    String.ofList (auditId.toList.drop 4)
    else auditId
  match intOfStr digits with
  | some number => .ok number
  | none => .error ⟨.valueError, s!"invalid literal for int() with base 10: '{digits}'"⟩

namespace PostgresOperatorRepository

/-- A database with some jobs and reviews. -/
def start (jobs : List OperatorJob) (rows : List ReviewRow) : PostgresOperatorRepository where
  jobs := .ofList (jobs.map fun job => (job.runId, job))
  reviews := .ofList (rows.map fun row => (row.reviewId, row))
  auditEntries := []
  commandReceipts := .empty

/-- A page of the jobs, the last changed ones first. -/
def listJobs (r : PostgresOperatorRepository) (status : Option JobStatus) (cursor : Option String)
    (limit : Int) : Except Error (OperatorPage OperatorJob) :=
  let listed := r.jobs.values.filter fun job => status.all (job.status = ·)
  let ordered := ranked (fun job => toLex (-job.lastChangedAt.instant, job.runId)) listed
  paginate ordered cursor limit (·.runId)

def startJobAttempt (r : PostgresOperatorRepository) (runId : String) (now : Datetime) :
    Except Error OperatorJob × PostgresOperatorRepository :=
  match r.jobs.get? runId with
  | none => (.error ⟨.keyError, runId⟩, r)
  | some job =>
    let row := { job with
      status := .running, version := job.version + 1, lastChangedAt := now, errorCode := none }
    (.ok row, { r with jobs := r.jobs.set runId row })

/-- A page of the reviews, the oldest ones first. -/
def listReviews (r : PostgresOperatorRepository) (reviewType : Option String)
    (reviewStatus : Option ReviewStatus) (cursor : Option String) (limit : Int) :
    Except Error (OperatorPage OperatorReview) :=
  let listed := r.reviews.values.filter fun row =>
    reviewType.all (row.reviewType = ·) && reviewStatus.all (row.reviewStatus = ·)
  let ordered := ranked (fun row => toLex (row.createdAt.instant, row.reviewId)) listed
  paginate (ordered.map ReviewRow.review) cursor limit (·.reviewId)

/-- Store an opened review unless its id is taken. -/
def openReview (r : PostgresOperatorRepository) (review : OperatorReview) :
    PostgresOperatorRepository :=
  match r.reviews.get? review.reviewId with
  | some _ => r
  | none => { r with reviews := r.reviews.set review.reviewId review.row }

def resolveReview (r : PostgresOperatorRepository) (reviewId : String)
    (resolution : Dict String Json)
    (now : Datetime) : Except Error OperatorReview × PostgresOperatorRepository :=
  match r.reviews.get? reviewId with
  | none => (.error ⟨.keyError, reviewId⟩, r)
  | some row =>
    let row := { row with
      reviewStatus := .resolved, version := row.version + 1, resolvedAt := some now
      resolution := some resolution }
    (.ok row.review, { r with reviews := r.reviews.set reviewId row })

/-- A page of the audit, the newest entries first. -/
def listAudit (r : PostgresOperatorRepository) (cursor : Option String) (limit : Int) :
    Except Error (OperatorPage OperatorAuditEntry) :=
  let ordered := ranked (fun row => toLex (-row.occurredAt.instant, -(row.auditId : Int)))
    r.auditEntries
  paginate (ordered.map AuditRow.entry) cursor limit (·.auditId)

/-- The receipt of a command with its audit entry. -/
def findReceipt (r : PostgresOperatorRepository) (key : String × String) :
    Option OperatorCommandReceipt := do
  let row ← r.commandReceipts.get? key
  let audit ← r.auditEntries.find? fun entry => (entry.auditId : Int) = row.auditId
  return ⟨row.actorId, row.idempotencyKey, row.fingerprint, audit.entry⟩

/-- Store a receipt unless its key is taken. -/
def storeReceipt (r : PostgresOperatorRepository) (receipt : OperatorCommandReceipt) :
    Except Error Unit × PostgresOperatorRepository :=
  match auditNumber receipt.audit.auditId with
  | .error e => (.error e, r)
  | .ok number =>
    let key := (receipt.actorId, receipt.idempotencyKey)
    match r.commandReceipts.get? key with
    | some _ => (.ok (), r)
    | none => (.ok (), { r with
        commandReceipts := r.commandReceipts.set key
          ⟨receipt.actorId, receipt.idempotencyKey, receipt.fingerprint, number⟩ })

def perform (r : PostgresOperatorRepository) :
    {α : Type} → OperatorOp α → α × PostgresOperatorRepository
  | _, .listJobs status cursor limit => (r.listJobs status cursor limit, r)
  | _, .getJob runId => (r.jobs.get? runId, r)
  | _, .startJobAttempt runId now => r.startJobAttempt runId now
  | _, .listReviews reviewType reviewStatus cursor limit =>
    (r.listReviews reviewType reviewStatus cursor limit, r)
  | _, .getReview reviewId => ((r.reviews.get? reviewId).map ReviewRow.review, r)
  | _, .openReview review => ((), r.openReview review)
  | _, .resolveReview reviewId resolution now => r.resolveReview reviewId resolution now
  | _, .appendAudit actorId occurredAt action targetId reasonCode reason beforeRevision
      afterRevision =>
    let row : AuditRow := ⟨r.auditEntries.length + 1, actorId, occurredAt, action, targetId,
      reasonCode, reason, beforeRevision, afterRevision⟩
    (row.entry, { r with auditEntries := r.auditEntries ++ [row] })
  | _, .listAudit cursor limit => (r.listAudit cursor limit, r)
  | _, .findReceipt actorId idempotencyKey => (r.findReceipt (actorId, idempotencyKey), r)
  | _, .storeReceipt receipt => r.storeReceipt receipt

end PostgresOperatorRepository

end Dayjaview.Operator
