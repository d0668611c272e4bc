import Dayjaview.Operator.Service

/-!
# What a command does

In every state a command either stops after one or two reads or goes through five
operations: it looks for its receipt, reads its target, changes it, writes the audit
and stores its receipt.
-/

namespace Dayjaview.Operator

inductive TargetKind where
  | job
  | review
  deriving DecidableEq

/-- What a kind of command changes. -/
def CommandKind.target : CommandKind → TargetKind
  | .retryJob => .job
  | .resumeJob => .job
  | .resolveReview => .review

/-- The statuses of the jobs that a kind of command takes. -/
def CommandKind.allowed : CommandKind → List JobStatus
  | .retryJob => retryableJobStatuses
  | .resumeJob => resumableJobStatuses
  | .resolveReview => []

/-- The key of the receipt of a command. -/
def OperatorCommand.key (command : OperatorCommand) : String × String :=
  (command.actorId, command.idempotencyKey)

namespace InMemoryOperatorRepository

def version (s : InMemoryOperatorRepository) : TargetKind → String → Option Int
  | .job, id => (s.jobs.get? id).map (·.version)
  | .review, id => (s.reviews.get? id).map (·.version)

/-- Jobs and reviews are stored under their ids. -/
structure Keyed (s : InMemoryOperatorRepository) : Prop where
  jobs : ∀ key job, s.jobs.get? key = some job → job.runId = key
  reviews : ∀ key review, s.reviews.get? key = some review → review.reviewId = key

/-- The target of a command has the expected version and takes the command. -/
def Accepts (s : InMemoryOperatorRepository) (kind : CommandKind) (command : OperatorCommand) :
    Prop :=
  match kind with
  | .resolveReview => ∃ review resolution, s.reviews.get? command.targetId = some review ∧
      command.resolution = some resolution ∧ review.version = command.expectedVersion ∧
      review.reviewStatus = .pending
  | _ => ∃ job, s.jobs.get? command.targetId = some job ∧ job.version = command.expectedVersion ∧
      kind.allowed.contains job.status = true

/-- The target of a command after the change. -/
def changed (s : InMemoryOperatorRepository) (kind : CommandKind) (command : OperatorCommand)
    (now : Datetime) : InMemoryOperatorRepository :=
  match kind with
  | .resolveReview =>
    (s.resolveReview command.targetId (command.resolution.getD .empty) now).2
  | _ => (s.startJobAttempt command.targetId now).2

/-- The audit entry of a command. -/
def entryOf (s : InMemoryOperatorRepository) (command : OperatorCommand) (now : Datetime) :
    OperatorAuditEntry :=
  ⟨auditId (s.audit.length + 1), command.actorId, now, command.action, command.targetId,
    command.reasonCode, command.reason, some command.expectedVersion,
    some (command.expectedVersion + 1)⟩

/-- The audit with the entry of a command. -/
def audited (s : InMemoryOperatorRepository) (command : OperatorCommand) (now : Datetime) :
    InMemoryOperatorRepository :=
  { s with audit := s.audit ++ [s.entryOf command now] }

variable [Sha256]

/-- The receipts with the one of a command. -/
def receipted (s : InMemoryOperatorRepository) (command : OperatorCommand)
    (audit : OperatorAuditEntry) : InMemoryOperatorRepository :=
  (s.perform (.storeReceipt
    ⟨command.actorId, command.idempotencyKey, fingerprint command, audit⟩)).2

/-- The tables after a command that was executed. -/
def executed (s : InMemoryOperatorRepository) (kind : CommandKind) (command : OperatorCommand)
    (now : Datetime) : InMemoryOperatorRepository :=
  ((s.changed kind command now).audited command now).receipted command
    ((s.changed kind command now).entryOf command now)

end InMemoryOperatorRepository

inductive Plan where
  | stop (reads : Nat) (result : Except Error OperatorCommandResult)
  | execute

variable [Sha256]

/-- Where a command with a receipt ends. -/
def replayPlan (command : OperatorCommand) (receipt : OperatorCommandReceipt) : Plan :=
  if receipt.fingerprint = fingerprint command then .stop 1 (.ok ⟨receipt.audit, true⟩)
  else .stop 1 (.error (rejected "COMMAND_NOT_ALLOWED"))

/-- Where a command for a job ends, by the job. -/
def InMemoryOperatorRepository.jobPlan (s : InMemoryOperatorRepository) (allowed : List JobStatus)
    (command : OperatorCommand) : Plan :=
  match s.jobs.get? command.targetId with
  | none => .stop 2 (.error targetNotFound)
  | some job =>
    if job.version = command.expectedVersion then
      if allowed.contains job.status = true then .execute
      else .stop 2 (.error (rejected "COMMAND_NOT_ALLOWED"))
    else .stop 2 (.error (rejected "STALE_VERSION"))

/-- Where a command for a review ends, by the review. -/
def InMemoryOperatorRepository.reviewPlan (s : InMemoryOperatorRepository)
    (command : OperatorCommand) : Plan :=
  match command.resolution with
  | none => .stop 1 (.error (rejected "COMMAND_NOT_ALLOWED"))
  | some _ =>
    match s.reviews.get? command.targetId with
    | none => .stop 2 (.error targetNotFound)
    | some review =>
      if review.version = command.expectedVersion then
        if review.reviewStatus = .pending then .execute
        else .stop 2 (.error (rejected "COMMAND_NOT_ALLOWED"))
      else .stop 2 (.error (rejected "STALE_VERSION"))

/-- Where a command without a receipt ends. -/
def InMemoryOperatorRepository.targetPlan (s : InMemoryOperatorRepository) :
    CommandKind → OperatorCommand → Plan
  | .retryJob, command => s.jobPlan retryableJobStatuses command
  | .resumeJob, command => s.jobPlan resumableJobStatuses command
  | .resolveReview, command => s.reviewPlan command

/-- Where a command ends in a state. -/
def InMemoryOperatorRepository.plan (s : InMemoryOperatorRepository) (kind : CommandKind)
    (command : OperatorCommand) : Plan :=
  match s.receipts.get? command.key with
  | some receipt => replayPlan command receipt
  | none => s.targetPlan kind command

/-- How a command ends if the operation with some number raises an error. -/
def Plan.cut (plan : Plan) (s : InMemoryOperatorRepository) (kind : CommandKind)
    (command : OperatorCommand) (now : Datetime) (e : Error) (k : Nat) :
    Except Error OperatorCommandResult × InMemoryOperatorRepository :=
  match plan with
  | .stop reads result => (if k < reads then .error e else result, s)
  | .execute =>
    let changed := s.changed kind command now
    match k with
    | 0 | 1 | 2 => (.error e, s)
    | 3 => (.error e, changed)
    | 4 => (.error e, changed.audited command now)
    | _ => (.ok ⟨changed.entryOf command now, false⟩, s.executed kind command now)

/-- How a command ends without a failure. -/
def Plan.outcome (plan : Plan) (s : InMemoryOperatorRepository) (kind : CommandKind)
    (command : OperatorCommand) (now : Datetime) :
    Except Error OperatorCommandResult × InMemoryOperatorRepository :=
  match plan with
  | .stop _ result => (result, s)
  | .execute => (.ok ⟨s.entryOf command now, false⟩, s.executed kind command now)

def Plan.length : Plan → Nat
  | .stop reads _ => reads
  | .execute => 5

variable {s : InMemoryOperatorRepository}

theorem finishUntil_record (command : OperatorCommand) (now : Datetime) (e : Error) (k : Nat) :
    (record command now (some command.expectedVersion)
      (some (command.expectedVersion + 1))).finishUntil memory e k s =
      match k with
      | 0 => (.error e, s)
      | 1 => (.error e, s.audited command now)
      | _ => (.ok ⟨s.entryOf command now, false⟩,
          (s.audited command now).receipted command (s.entryOf command now)) := by
  unfold record repository
  rcases k with _ | _ | k
  · rfl
  · rfl
  · rw [Program.finishUntil_call_bind_succ, Program.finishUntil_call_bind_succ]
    exact Program.finishUntil_pure e k _ _

theorem plan_cut_zero (kind : CommandKind) (command : OperatorCommand) (now : Datetime)
    (e : Error) : (s.plan kind command).cut s kind command now e 0 = (.error e, s) := by
  unfold InMemoryOperatorRepository.plan replayPlan InMemoryOperatorRepository.targetPlan
    InMemoryOperatorRepository.jobPlan InMemoryOperatorRepository.reviewPlan
  repeat' split
  all_goals rfl

/-- A job command behind its receipt. -/
def jobRest (command : OperatorCommand) (now : Datetime) (allowed : List JobStatus) :
    Console OperatorCommandResult := do
  let found ← repository (.getJob command.targetId)
  match found with
  | none => .raise targetNotFound
  | some job =>
    require (job.version = command.expectedVersion) (rejected "STALE_VERSION")
    require (allowed.contains job.status = true) (rejected "COMMAND_NOT_ALLOWED")
    let started ← .ofExcept (← repository (.startJobAttempt job.runId now))
    record command now (some job.version) (some started.version)

/-- A review command behind its receipt. -/
def reviewRest (command : OperatorCommand) (now : Datetime) : Console OperatorCommandResult :=
  match command.resolution with
  | none => .raise (rejected "COMMAND_NOT_ALLOWED")
  | some resolution => do
    let found ← repository (.getReview command.targetId)
    match found with
    | none => .raise targetNotFound
    | some review =>
      require (review.version = command.expectedVersion) (rejected "STALE_VERSION")
      require (review.reviewStatus = .pending) (rejected "COMMAND_NOT_ALLOWED")
      let resolved ← .ofExcept (← repository (.resolveReview review.reviewId resolution now))
      record command now (some review.version) (some resolved.version)

/-- A command behind its receipt. -/
def CommandKind.rest (kind : CommandKind) (command : OperatorCommand) (now : Datetime) :
    Console OperatorCommandResult :=
  match kind with
  | .retryJob => jobRest command now retryableJobStatuses
  | .resumeJob => jobRest command now resumableJobStatuses
  | .resolveReview => reviewRest command now

/-- A command that goes on behind its receipt. -/
def afterReplay (rest : Console OperatorCommandResult) :
    Option OperatorCommandResult → Console OperatorCommandResult
  | some result => pure result
  | none => rest

theorem program_eq (kind : CommandKind) (command : OperatorCommand) (now : Datetime) :
    kind.program command now = replay command >>= afterReplay (kind.rest command now) := by
  cases kind <;> rfl

theorem finishUntil_replay (command : OperatorCommand)
    (rest : Console OperatorCommandResult) (e : Error) (k : Nat) :
    (replay command >>= afterReplay rest).finishUntil memory e k s =
      match k, s.receipts.get? command.key with
      | 0, _ => (.error e, s)
      | _ + 1, some receipt =>
        (if receipt.fingerprint = fingerprint command then .ok ⟨receipt.audit, true⟩
          else .error (rejected "COMMAND_NOT_ALLOWED"), s)
      | k + 1, none => rest.finishUntil memory e k s := by
  unfold replay repository require
  rcases k with _ | k
  · rfl
  rw [Program.bind_assoc, Program.finishUntil_call_bind_succ]
  rw [show memory (OperatorOp.findReceipt command.actorId command.idempotencyKey) s =
    (s.receipts.get? command.key, s) from rfl]
  cases hreceipt : s.receipts.get? command.key with
  | none => rfl
  | some receipt =>
    by_cases hsame : receipt.fingerprint = fingerprint command
    · simp [hsame, afterReplay]
    · simp [hsame]

theorem finishUntil_jobPlan (hkeyed : s.Keyed) {kind : CommandKind}
    (hkind : kind.target = .job) (command : OperatorCommand) (now : Datetime) (e : Error)
    (k : Nat) : (jobRest command now kind.allowed).finishUntil memory e k s =
      (s.jobPlan kind.allowed command).cut s kind command now e (k + 1) := by
  have hchanged : s.changed kind command now = (s.startJobAttempt command.targetId now).2 := by
    cases kind with
    | retryJob => rfl
    | resumeJob => rfl
    | resolveReview => cases hkind
  unfold jobRest repository require InMemoryOperatorRepository.jobPlan
  rcases k with _ | k
  · repeat' split
    all_goals rfl
  rw [Program.finishUntil_call_bind_succ]
  rw [show memory (OperatorOp.getJob command.targetId) s =
    (s.jobs.get? command.targetId, s) from rfl]
  cases hjob : s.jobs.get? command.targetId with
  | none => simp [Plan.cut]
  | some job =>
    have hid : job.runId = command.targetId := hkeyed.jobs _ job hjob
    by_cases hversion : job.version = command.expectedVersion
    · by_cases hstatus : kind.allowed.contains job.status = true
      · simp only [hversion, hstatus, if_true, Program.pure_bind]
        rcases k with _ | k
        · rfl
        have hwrite : s.startJobAttempt command.targetId now =
            (.ok (job.started now), s.changed kind command now) := by
          rw [hchanged, InMemoryOperatorRepository.startJobAttempt, hjob]
        rw [Program.finishUntil_call_bind_succ, hid]
        rw [show memory (OperatorOp.startJobAttempt command.targetId now) s =
          s.startJobAttempt command.targetId now from rfl, hwrite]
        have hafter : (job.started now).version = command.expectedVersion + 1 := by
          rw [← hversion]
          rfl
        simp only [Program.ofExcept_ok_bind, hafter]
        rw [finishUntil_record]
        rcases k with _ | _ | k <;> rfl
      · simp only [hversion, if_true, Program.pure_bind, if_neg hstatus, Program.raise_bind]
        exact Program.finishUntil_raise e _ k s
    · simp [hversion, Plan.cut]

theorem finishUntil_reviewPlan (hkeyed : s.Keyed) (command : OperatorCommand) (now : Datetime)
    (e : Error) (k : Nat) :
    (reviewRest command now).finishUntil memory e k s =
      (s.reviewPlan command).cut s .resolveReview command now e (k + 1) := by
  unfold reviewRest repository require InMemoryOperatorRepository.reviewPlan
  cases hresolution : command.resolution with
  | none => simp [Plan.cut]
  | some resolution =>
    have hchanged : s.changed .resolveReview command now =
        (s.resolveReview command.targetId resolution now).2 := by
      simp [InMemoryOperatorRepository.changed, hresolution]
    rcases k with _ | k
    · repeat' split
      all_goals rfl
    dsimp only
    rw [Program.finishUntil_call_bind_succ]
    rw [show memory (OperatorOp.getReview command.targetId) s =
      (s.reviews.get? command.targetId, s) from rfl]
    cases hreview : s.reviews.get? command.targetId with
    | none => simp [Plan.cut]
    | some review =>
      have hid : review.reviewId = command.targetId := hkeyed.reviews _ review hreview
      by_cases hversion : review.version = command.expectedVersion
      · by_cases hstatus : review.reviewStatus = .pending
        · simp only [hversion, hstatus, if_true, Program.pure_bind]
          rcases k with _ | k
          · rfl
          have hwrite : s.resolveReview command.targetId resolution now =
              (.ok (review.resolved resolution now), s.changed .resolveReview command now) := by
            rw [hchanged, InMemoryOperatorRepository.resolveReview, hreview]
          rw [Program.finishUntil_call_bind_succ, hid]
          rw [show memory (OperatorOp.resolveReview command.targetId resolution now) s =
            s.resolveReview command.targetId resolution now from rfl, hwrite]
          have hafter : (review.resolved resolution now).version = command.expectedVersion + 1 := by
            rw [← hversion]
            rfl
          simp only [Program.ofExcept_ok_bind, hafter]
          rw [finishUntil_record]
          rcases k with _ | _ | k <;> rfl
        · simp only [hversion, if_true, Program.pure_bind, if_neg hstatus, Program.raise_bind]
          exact Program.finishUntil_raise e _ k s
      · simp [hversion, Plan.cut]

theorem finishUntil_program (hkeyed : s.Keyed) (kind : CommandKind) (command : OperatorCommand)
    (now : Datetime) (e : Error) (k : Nat) :
    (kind.program command now).finishUntil memory e k s =
      (s.plan kind command).cut s kind command now e k := by
  have hrest : ∀ k, (kind.rest command now).finishUntil memory e k s =
      (s.targetPlan kind command).cut s kind command now e (k + 1) := by
    intro k
    cases kind with
    | retryJob =>
      exact finishUntil_jobPlan hkeyed (rfl : CommandKind.retryJob.target = .job) command now e k
    | resumeJob =>
      exact finishUntil_jobPlan hkeyed (rfl : CommandKind.resumeJob.target = .job) command now e k
    | resolveReview => exact finishUntil_reviewPlan hkeyed command now e k
  rw [program_eq, finishUntil_replay]
  rcases k with _ | k
  · rw [plan_cut_zero]
  unfold InMemoryOperatorRepository.plan
  cases hreceipt : s.receipts.get? command.key with
  | none => exact hrest k
  | some receipt =>
    unfold replayPlan
    by_cases hsame : receipt.fingerprint = fingerprint command
    · simp [hsame, Plan.cut]
    · simp [hsame, Plan.cut]

section

omit [Sha256]

@[simp] theorem audit_changed (kind : CommandKind) (command : OperatorCommand) (now : Datetime) :
    (s.changed kind command now).audit = s.audit := by
  cases kind with
  | retryJob | resumeJob =>
    simp only [InMemoryOperatorRepository.changed, InMemoryOperatorRepository.startJobAttempt]
    split <;> rfl
  | resolveReview =>
    simp only [InMemoryOperatorRepository.changed, InMemoryOperatorRepository.resolveReview]
    split <;> rfl

@[simp] theorem receipts_changed (kind : CommandKind) (command : OperatorCommand) (now : Datetime) :
    (s.changed kind command now).receipts = s.receipts := by
  cases kind with
  | retryJob | resumeJob =>
    simp only [InMemoryOperatorRepository.changed, InMemoryOperatorRepository.startJobAttempt]
    split <;> rfl
  | resolveReview =>
    simp only [InMemoryOperatorRepository.changed, InMemoryOperatorRepository.resolveReview]
    split <;> rfl

theorem entryOf_changed (kind : CommandKind) (command : OperatorCommand) (now : Datetime) :
    (s.changed kind command now).entryOf command now = s.entryOf command now := by
  rw [InMemoryOperatorRepository.entryOf, InMemoryOperatorRepository.entryOf, audit_changed]

end

theorem reaches_program (hkeyed : s.Keyed) (kind : CommandKind) (command : OperatorCommand)
    (now : Datetime) (k : Nat) :
    (kind.program command now).Reaches memory k s ↔ k < (s.plan kind command).length := by
  rw [Program.reaches_iff]
  simp only [finishUntil_program hkeyed kind command now]
  cases s.plan kind command with
  | stop reads result =>
    by_cases hk : k < reads
    · simp [Plan.cut, Plan.length, hk]
    · simp only [Plan.cut, Plan.length, hk, if_false, iff_false, not_forall]
      by_cases hresult : result = .error ⟨.keyError, ""⟩
      · exact ⟨⟨.valueError, ""⟩, by simp [hresult]⟩
      · exact ⟨_, hresult⟩
  | execute =>
    rcases k with _ | _ | _ | _ | _ | k
    case execute.succ.succ.succ.succ.succ =>
      constructor
      · intro hall
        cases hall ⟨.keyError, ""⟩
      · intro hk
        exact absurd hk (by show ¬ k + 5 < 5; omega)
    all_goals simp [Plan.cut, Plan.length]

theorem finish_program (hkeyed : s.Keyed) (kind : CommandKind) (command : OperatorCommand)
    (now : Datetime) :
    (kind.program command now).finish memory s =
      (s.plan kind command).outcome s kind command now := by
  have hnot : ¬ (kind.program command now).Reaches memory
      ((s.plan kind command).length + 5) s := by
    rw [reaches_program hkeyed]
    omega
  rw [← Program.finishUntil_of_not_reaches (e := ⟨.keyError, ""⟩) hnot, finishUntil_program hkeyed]
  cases s.plan kind command with
  | stop reads result =>
    have hlate : ¬ (Plan.stop reads result).length + 5 < reads := by
      show ¬ reads + 5 < reads
      omega
    simp [Plan.cut, Plan.outcome, hlate]
  | execute =>
    show (Except.ok (OperatorCommandResult.mk _ false), _) = _
    rw [entryOf_changed]
    rfl

omit [Sha256] in
theorem jobPlan_eq_execute (allowed : List JobStatus) (command : OperatorCommand) :
    s.jobPlan allowed command = .execute ↔
      ∃ job, s.jobs.get? command.targetId = some job ∧ job.version = command.expectedVersion ∧
        allowed.contains job.status = true := by
  unfold InMemoryOperatorRepository.jobPlan
  cases hjob : s.jobs.get? command.targetId with
  | none => simp
  | some job =>
    by_cases hversion : job.version = command.expectedVersion
    · simp [hversion]
    · simp [hversion]

omit [Sha256] in
theorem reviewPlan_eq_execute (command : OperatorCommand) :
    s.reviewPlan command = .execute ↔
      ∃ review resolution, s.reviews.get? command.targetId = some review ∧
        command.resolution = some resolution ∧ review.version = command.expectedVersion ∧
        review.reviewStatus = .pending := by
  unfold InMemoryOperatorRepository.reviewPlan
  cases command.resolution with
  | none => simp
  | some resolution =>
    cases hreview : s.reviews.get? command.targetId with
    | none => simp
    | some review =>
      by_cases hversion : review.version = command.expectedVersion
      · simp [hversion]
      · simp [hversion]

theorem plan_eq_execute (kind : CommandKind) (command : OperatorCommand) :
    s.plan kind command = .execute ↔
      s.receipts.get? command.key = none ∧ s.Accepts kind command := by
  unfold InMemoryOperatorRepository.plan
  cases hreceipt : s.receipts.get? command.key with
  | some receipt =>
    unfold replayPlan
    by_cases hsame : receipt.fingerprint = fingerprint command
    · simp [hsame]
    · simp [hsame]
  | none =>
    simp only [true_and]
    cases kind with
    | retryJob => exact jobPlan_eq_execute retryableJobStatuses command
    | resumeJob => exact jobPlan_eq_execute resumableJobStatuses command
    | resolveReview => exact reviewPlan_eq_execute command

variable {command : OperatorCommand}

omit [Sha256] in
theorem InMemoryOperatorRepository.Accepts.version {kind : CommandKind}
    (h : s.Accepts kind command) :
    s.version kind.target command.targetId = some command.expectedVersion := by
  cases kind with
  | retryJob | resumeJob =>
    obtain ⟨job, hjob, hversion, -⟩ := h
    simp [InMemoryOperatorRepository.version, CommandKind.target, hjob, hversion]
  | resolveReview =>
    obtain ⟨review, resolution, hreview, -, hversion, -⟩ := h
    simp [InMemoryOperatorRepository.version, CommandKind.target, hreview, hversion]

omit [Sha256] in
theorem version_changed {kind : CommandKind} (now : Datetime) (h : s.Accepts kind command)
    (target : TargetKind) (id : String) :
    (s.changed kind command now).version target id =
      if target = kind.target ∧ id = command.targetId then some (command.expectedVersion + 1)
      else s.version target id := by
  cases kind with
  | retryJob | resumeJob =>
    obtain ⟨job, hjob, hversion, -⟩ := h
    simp only [InMemoryOperatorRepository.changed, InMemoryOperatorRepository.startJobAttempt, hjob]
    cases target with
    | review => simp [InMemoryOperatorRepository.version, CommandKind.target]
    | job =>
      by_cases hid : id = command.targetId
      · simp [InMemoryOperatorRepository.version, CommandKind.target, hid, OperatorJob.started,
          hversion]
      · simp [InMemoryOperatorRepository.version, CommandKind.target, hid,
          Dict.get?_set_of_ne _ _ hid]
  | resolveReview =>
    obtain ⟨review, resolution, hreview, hresolution, hversion, -⟩ := h
    simp only [InMemoryOperatorRepository.changed, InMemoryOperatorRepository.resolveReview,
      hreview]
    cases target with
    | job => simp [InMemoryOperatorRepository.version, CommandKind.target]
    | review =>
      by_cases hid : id = command.targetId
      · simp [InMemoryOperatorRepository.version, CommandKind.target, hid, OperatorReview.resolved,
          hversion]
      · simp [InMemoryOperatorRepository.version, CommandKind.target, hid,
          Dict.get?_set_of_ne _ _ hid]

/-- The receipt of an executed command. -/
def receiptOf (command : OperatorCommand) (audit : OperatorAuditEntry) : OperatorCommandReceipt :=
  ⟨command.actorId, command.idempotencyKey, fingerprint command, audit⟩

@[simp] theorem audit_executed (kind : CommandKind) (command : OperatorCommand) (now : Datetime) :
    (s.executed kind command now).audit = s.audit ++ [s.entryOf command now] := by
  show (s.changed kind command now).audit ++ [(s.changed kind command now).entryOf command now] = _
  rw [audit_changed, entryOf_changed]

theorem receipts_executed (kind : CommandKind) (command : OperatorCommand) (now : Datetime)
    (key : String × String) :
    (s.executed kind command now).receipts.get? key =
      if key = command.key then some (receiptOf command (s.entryOf command now))
      else s.receipts.get? key := by
  show ((s.changed kind command now).receipts.set command.key
    (receiptOf command ((s.changed kind command now).entryOf command now))).get? key = _
  rw [Dict.get?_set, receipts_changed, entryOf_changed]

theorem version_executed {kind : CommandKind} (now : Datetime) (h : s.Accepts kind command)
    (target : TargetKind) (id : String) :
    (s.executed kind command now).version target id =
      if target = kind.target ∧ id = command.targetId then some (command.expectedVersion + 1)
      else s.version target id := by
  rw [← version_changed now h]
  cases target <;> rfl

omit [Sha256]

theorem InMemoryOperatorRepository.Keyed.perform (h : s.Keyed) {α : Type} (op : OperatorOp α) :
    (s.perform op).2.Keyed := by
  cases op with
  | listJobs | getJob | listReviews | getReview | listAudit | findReceipt => exact h
  | appendAudit | storeReceipt => exact ⟨h.jobs, h.reviews⟩
  | startJobAttempt runId now =>
    simp only [InMemoryOperatorRepository.perform, InMemoryOperatorRepository.startJobAttempt]
    split
    · exact h
    · next job hjob =>
      refine ⟨fun key other hkey => ?_, h.reviews⟩
      rw [Dict.get?_set] at hkey
      split at hkey
      · next hk =>
        cases hkey
        rw [hk]
        exact h.jobs runId job hjob
      · exact h.jobs key other hkey
  | openReview review =>
    refine ⟨h.jobs, fun key other hkey => ?_⟩
    simp only [InMemoryOperatorRepository.perform] at hkey
    rw [Dict.get?_set] at hkey
    split at hkey
    · next hk =>
      cases hkey
      exact hk.symm
    · exact h.reviews key other hkey
  | resolveReview reviewId resolution now =>
    simp only [InMemoryOperatorRepository.perform, InMemoryOperatorRepository.resolveReview]
    split
    · exact h
    · next review hreview =>
      refine ⟨h.jobs, fun key other hkey => ?_⟩
      rw [Dict.get?_set] at hkey
      split at hkey
      · next hk =>
        cases hkey
        rw [hk]
        exact h.reviews reviewId review hreview
      · exact h.reviews key other hkey

theorem keyed_start (jobs : List OperatorJob) (reviews : List OperatorReview) :
    (InMemoryOperatorRepository.start jobs reviews).Keyed where
  jobs key job hget := by
    obtain ⟨job', -, heq⟩ := List.mem_map.mp (Dict.mem_of_get?_ofList hget)
    cases heq
    rfl
  reviews key review hget := by
    obtain ⟨review', -, heq⟩ := List.mem_map.mp (Dict.mem_of_get?_ofList hget)
    cases heq
    rfl

/-- Nine in the morning after a trading day. -/
def nextMorning : Datetime := (Date.august 4).seoul 9 0

def failedJob : OperatorJob where
  runId := "run-1"
  jobType := "DAILY_REFERENCE"
  status := .failed
  version := 1
  lastChangedAt := nextMorning
  errorCode := some "SOURCE_TIMEOUT"
  internalContext := .empty

/-- Start the failed job again. -/
def retryCommand : OperatorCommand where
  actorId := "operator-1"
  idempotencyKey := "key-1"
  action := "RETRY_JOB"
  targetId := "run-1"
  reasonCode := "MANUAL"
  reason := "다시 실행"
  expectedVersion := 1

theorem accepts_retryCommand :
    (InMemoryOperatorRepository.start [failedJob] []).Accepts .retryJob retryCommand :=
  ⟨failedJob, rfl, rfl, rfl⟩

end Dayjaview.Operator
