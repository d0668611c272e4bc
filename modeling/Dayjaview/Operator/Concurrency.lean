import Dayjaview.Operator.Failures

/-!
# Commands that run at the same time

The operations of several commands take turns. A command reads its receipt and its
target first and writes later, so what it has read may not hold any more. As long as
every write finds what the command has read, a command is executed at most once.
-/

namespace Dayjaview.Operator

/-- What an operation of a command does. -/
inductive Effect where
  | read
  | change
  | audit
  | receipt
  deriving DecidableEq

def OperatorOp.effect {α : Type} : OperatorOp α → Effect
  | .startJobAttempt .. => .change
  | .resolveReview .. => .change
  | .appendAudit .. => .audit
  | .storeReceipt .. => .receipt
  | _ => .read

structure Running where
  kind : CommandKind
  command : OperatorCommand
  now : Datetime
  program : Console OperatorCommandResult

/-- What the next operation of a running command does. -/
def Running.effect (r : Running) : Effect :=
  match r.program with
  | .done _ => .read
  | .perform op _ => op.effect

/-- A running command is about to write down what it did. -/
def Running.Records (r : Running) : Prop := r.effect = .audit ∨ r.effect = .receipt

/-- The version of its target that a command asks for. -/
def consumed (kind : CommandKind) (command : OperatorCommand) : (TargetKind × String) × Int :=
  ((kind.target, command.targetId), command.expectedVersion)

/-- The console with its running commands. -/
structure Desk where
  tables : InMemoryOperatorRepository
  running : List Running
  executed : List (CommandKind × OperatorCommand)
  log : List Logged

inductive Turn where
  | call (kind : CommandKind) (command : OperatorCommand) (now : Datetime)
  /-- A running command performs its next operation. -/
  | advance (i : Nat)

/-- A console that nobody uses yet. -/
def Desk.start (jobs : List OperatorJob) (reviews : List OperatorReview) : Desk :=
  ⟨.start jobs reviews, [], [], []⟩

/-- Every command is executed at most once: no key has two executed commands or two audit
entries, no version of a target is consumed twice, and no review is resolved twice. -/
structure Desk.AtMostOnce (d : Desk) : Prop where
  keys : (d.executed.map (·.2.key)).Nodup
  entries : (d.log.map (·.command.key)).Nodup
  audit : d.log.map (·.entry) = d.tables.audit
  versions : (d.executed.map fun x => consumed x.1 x.2).Nodup
  reviews : ((d.executed.filter (·.1 = .resolveReview)).map (·.2.targetId)).Nodup

variable [Sha256]

/-- A running command performs its next operation. -/
def Running.advance (r : Running) (s : InMemoryOperatorRepository) :
    Running × InMemoryOperatorRepository :=
  ({ r with program := (r.program.advance memory s).1 }, (r.program.advance memory s).2)

def Desk.step (d : Desk) : Turn → Desk
  | .call kind command now =>
    { d with running := d.running ++ [⟨kind, command, now, kind.program command now⟩] }
  | .advance i =>
    match d.running[i]? with
    | none => d
    | some r =>
      let after := (r.advance d.tables).2
      { tables := after
        running := d.running.set i (r.advance d.tables).1
        executed := if r.effect = .change then d.executed ++ [(r.kind, r.command)]
          else d.executed
        log := d.log ++ (after.audit.drop d.tables.audit.length).map fun entry =>
          ⟨r.kind, r.command, entry⟩ }

/-- Some turns, one after the other. -/
def Desk.run (d : Desk) (turns : List Turn) : Desk := turns.foldl step d

/-- A turn in which a command changes its target finds what the command has read: the target
still takes the command, and no command with the same key has a receipt or is about to
write down that it was executed. -/
def Desk.Fresh (d : Desk) : Turn → Prop
  | .call .. => True
  | .advance i => ∀ r, d.running[i]? = some r → r.effect = .change →
    d.tables.Accepts r.kind r.command ∧ d.tables.receipts.get? r.command.key = none ∧
      ∀ r' ∈ d.running, r'.command.key = r.command.key → ¬ r'.Records

/-- Every write of a run finds what its command has read. -/
def Desk.AllFresh : Desk → List Turn → Prop
  | _, [] => True
  | d, turn :: turns => d.Fresh turn ∧ (d.step turn).AllFresh turns

/-- How far a command has come. -/
inductive Phase where
  | finding
  | reading
  | writing
  | auditing
  | storing (audit : OperatorAuditEntry)
  | ended (result : Except Error OperatorCommandResult)

/-- The part of a command that changes its target. -/
def CommandKind.write (kind : CommandKind) (command : OperatorCommand) (now : Datetime) :
    Console OperatorCommandResult :=
  match kind with
  | .resolveReview => do
    let resolved ← .ofExcept (← repository (.resolveReview command.targetId
      (command.resolution.getD .empty) now))
    record command now (some command.expectedVersion) (some resolved.version)
  | _ => do
    let started ← .ofExcept (← repository (.startJobAttempt command.targetId now))
    record command now (some command.expectedVersion) (some started.version)

/-- What is left of a command in a phase. -/
def Phase.program (kind : CommandKind) (command : OperatorCommand) (now : Datetime) :
    Phase → Console OperatorCommandResult
  | .finding => kind.program command now
  | .reading => kind.rest command now
  | .writing => kind.write command now
  | .auditing => record command now (some command.expectedVersion)
      (some (command.expectedVersion + 1))
  | .storing audit => do
    let stored ← repository (.storeReceipt (receiptOf command audit))
    .ofExcept stored
    return ⟨audit, false⟩
  | .ended result => .done result

variable {s : InMemoryOperatorRepository} {kind : CommandKind} {command : OperatorCommand}
  {now : Datetime}

theorem advance_finding (kind : CommandKind) (command : OperatorCommand) (now : Datetime) :
    ∃ phase : Phase, (phase = .reading ∨ ∃ result, phase = .ended result) ∧
      (kind.program command now).advance memory s = (phase.program kind command now, s) := by
  rw [program_eq]
  unfold replay repository require
  rw [Program.bind_assoc, Program.advance_call_bind]
  rw [show memory (OperatorOp.findReceipt command.actorId command.idempotencyKey) s =
    (s.receipts.get? command.key, s) from rfl]
  cases hreceipt : s.receipts.get? command.key with
  | none => exact ⟨.reading, .inl rfl, rfl⟩
  | some receipt =>
    by_cases hsame : receipt.fingerprint = fingerprint command
    · refine ⟨.ended (.ok ⟨receipt.audit, true⟩), .inr ⟨_, rfl⟩, ?_⟩
      simp only [hsame, if_true, Program.pure_bind]
      rfl
    · refine ⟨.ended (.error (rejected "COMMAND_NOT_ALLOWED")), .inr ⟨_, rfl⟩, ?_⟩
      simp only [hsame, if_false, Program.raise_bind]
      rfl

theorem advance_reading (hkeyed : s.Keyed) (kind : CommandKind) (command : OperatorCommand)
    (now : Datetime) :
    ∃ phase : Phase, (phase = .writing ∨ ∃ result, phase = .ended result) ∧
      (kind.rest command now).advance memory s = (phase.program kind command now, s) := by
  have hjob : ∀ allowed, kind.rest command now = jobRest command now allowed →
      kind.write command now = (do
        let started ← .ofExcept (← repository (.startJobAttempt command.targetId now))
        record command now (some command.expectedVersion) (some started.version)) →
      ∃ phase : Phase, (phase = .writing ∨ ∃ result, phase = .ended result) ∧
        (kind.rest command now).advance memory s = (phase.program kind command now, s) := by
    intro allowed hrest hwrite
    rw [hrest]
    unfold jobRest repository require
    rw [Program.advance_call_bind]
    rw [show memory (OperatorOp.getJob command.targetId) s =
      (s.jobs.get? command.targetId, s) from rfl]
    cases hget : s.jobs.get? command.targetId with
    | none => exact ⟨.ended (.error targetNotFound), .inr ⟨_, rfl⟩, rfl⟩
    | some job =>
      have hid : job.runId = command.targetId := hkeyed.jobs _ job hget
      by_cases hversion : job.version = command.expectedVersion
      · by_cases hstatus : allowed.contains job.status = true
        · refine ⟨.writing, .inl rfl, ?_⟩
          simp only [hversion, hstatus, if_true, Program.pure_bind, hid]
          exact congrArg (·, s) hwrite.symm
        · refine ⟨.ended (.error (rejected "COMMAND_NOT_ALLOWED")), .inr ⟨_, rfl⟩, ?_⟩
          simp only [hversion, if_true, Program.pure_bind, if_neg hstatus, Program.raise_bind]
          rfl
      · refine ⟨.ended (.error (rejected "STALE_VERSION")), .inr ⟨_, rfl⟩, ?_⟩
        simp only [hversion, if_false, Program.raise_bind]
        rfl
  cases kind with
  | retryJob => exact hjob _ rfl rfl
  | resumeJob => exact hjob _ rfl rfl
  | resolveReview =>
    show ∃ phase : Phase, _ ∧ (reviewRest command now).advance memory s = _
    unfold reviewRest repository require
    cases hresolution : command.resolution with
    | none => exact ⟨.ended (.error (rejected "COMMAND_NOT_ALLOWED")), .inr ⟨_, rfl⟩, rfl⟩
    | some resolution =>
      dsimp only
      rw [Program.advance_call_bind]
      rw [show memory (OperatorOp.getReview command.targetId) s =
        (s.reviews.get? command.targetId, s) from rfl]
      cases hget : s.reviews.get? command.targetId with
      | none => exact ⟨.ended (.error targetNotFound), .inr ⟨_, rfl⟩, rfl⟩
      | some review =>
        have hid : review.reviewId = command.targetId := hkeyed.reviews _ review hget
        by_cases hversion : review.version = command.expectedVersion
        · by_cases hstatus : review.reviewStatus = .pending
          · refine ⟨.writing, .inl rfl, ?_⟩
            simp only [hversion, hstatus, if_true, Program.pure_bind, hid, Phase.program,
              CommandKind.write, hresolution, Option.getD_some]
            rfl
          · refine ⟨.ended (.error (rejected "COMMAND_NOT_ALLOWED")), .inr ⟨_, rfl⟩, ?_⟩
            simp only [hversion, if_true, Program.pure_bind, if_neg hstatus, Program.raise_bind]
            rfl
        · refine ⟨.ended (.error (rejected "STALE_VERSION")), .inr ⟨_, rfl⟩, ?_⟩
          simp only [hversion, if_false, Program.raise_bind]
          rfl

theorem advance_writing (haccepts : s.Accepts kind command) :
    (kind.write command now).advance memory s =
      (Phase.auditing.program kind command now, s.changed kind command now) := by
  cases kind with
  | retryJob | resumeJob =>
    obtain ⟨job, hjob, hversion, -⟩ := haccepts
    have hwrite : s.startJobAttempt command.targetId now =
        (.ok (job.started now), (s.startJobAttempt command.targetId now).2) := by
      rw [InMemoryOperatorRepository.startJobAttempt, hjob]
    unfold CommandKind.write repository
    dsimp only
    rw [Program.advance_call_bind]
    rw [show memory (OperatorOp.startJobAttempt command.targetId now) s =
      s.startJobAttempt command.targetId now from rfl, hwrite]
    rw [Program.ofExcept_ok_bind, Phase.program, ← hversion]
    rfl
  | resolveReview =>
    obtain ⟨review, resolution, hreview, hresolution, hversion, -⟩ := haccepts
    have hwrite : s.resolveReview command.targetId (command.resolution.getD .empty) now =
        (.ok (review.resolved (command.resolution.getD .empty) now),
          (s.resolveReview command.targetId (command.resolution.getD .empty) now).2) := by
      rw [InMemoryOperatorRepository.resolveReview, hreview]
    unfold CommandKind.write repository
    dsimp only
    rw [Program.advance_call_bind]
    rw [show memory (OperatorOp.resolveReview command.targetId (command.resolution.getD .empty) now)
      s = s.resolveReview command.targetId (command.resolution.getD .empty) now from rfl, hwrite]
    rw [Program.ofExcept_ok_bind, Phase.program, ← hversion]
    rfl

theorem advance_auditing :
    (Phase.auditing.program kind command now).advance memory s =
      ((Phase.storing (s.entryOf command now)).program kind command now, s.audited command now) :=
  rfl

theorem advance_storing (audit : OperatorAuditEntry) :
    ((Phase.storing audit).program kind command now).advance memory s =
      ((Phase.ended (.ok ⟨audit, false⟩)).program kind command now, s.receipted command audit) :=
  rfl

/-- A running command is in a phase. -/
def Running.At (r : Running) (phase : Phase) : Prop :=
  r.program = phase.program r.kind r.command r.now

variable {r r' : Running} {phase : Phase} {d : Desk} {i : Nat}

/-- What the next operation in a phase does. -/
def Phase.effect : Phase → Effect
  | .writing => .change
  | .auditing => .audit
  | .storing _ => .receipt
  | _ => .read

theorem Running.At.effect (h : r.At phase) : r.effect = phase.effect := by
  obtain ⟨kind, command, now, program⟩ := r
  obtain rfl : program = phase.program kind command now := h
  cases phase with
  | finding =>
    unfold Running.effect Phase.program
    rw [program_eq]
    rfl
  | reading =>
    cases kind with
    | retryJob | resumeJob => rfl
    | resolveReview =>
      unfold Running.effect Phase.program CommandKind.rest reviewRest
      dsimp only
      cases command.resolution with
      | none => rfl
      | some resolution => rfl
  | writing => cases kind <;> rfl
  | auditing => rfl
  | storing audit => rfl
  | ended result => rfl

/-- Two commands that write down what they did have different keys. -/
def Apart (running : List Running) : Prop :=
  ∀ (i j : Nat) (r r' : Running), running[i]? = some r → running[j]? = some r' →
    r.Records → r'.Records →
    r.command.key = r'.command.key → i = j

/-- What holds of the console while every write finds what its command has read. -/
structure Desk.Orderly (d : Desk) : Prop where
  keyed : d.tables.Keyed
  phases : ∀ r ∈ d.running, ∃ phase, r.At phase
  apart : Apart d.running
  recorded : ∀ r ∈ d.running, r.Records →
    ∃ x ∈ d.executed, x.2.key = r.command.key
  settled : ∀ x ∈ d.executed, (d.tables.receipts.get? x.2.key).isSome ∨
    ∃ r ∈ d.running, r.Records ∧ r.command.key = x.2.key
  logged : ∀ x ∈ d.log, ∃ y ∈ d.executed, y.2.key = x.command.key
  unlogged : ∀ r ∈ d.running, r.effect = .audit →
    ∀ x ∈ d.log, x.command.key ≠ r.command.key
  passed : ∀ x ∈ d.executed, ∃ version,
    d.tables.version x.1.target x.2.targetId = some version ∧ x.2.expectedVersion < version
  resolved : ∀ x ∈ d.executed, x.1 = .resolveReview → ∃ review,
    d.tables.reviews.get? x.2.targetId = some review ∧ review.reviewStatus = .resolved
  once : d.AtMostOnce

theorem orderly_start (jobs : List OperatorJob) (reviews : List OperatorReview) :
    (Desk.start jobs reviews).Orderly where
  keyed := keyed_start jobs reviews
  phases := by simp [Desk.start]
  apart := by simp [Desk.start, Apart]
  recorded := by simp [Desk.start]
  settled := by simp [Desk.start]
  logged := by simp [Desk.start]
  unlogged := by simp [Desk.start]
  passed := by simp [Desk.start]
  resolved := by simp [Desk.start]
  once := ⟨List.nodup_nil, List.nodup_nil, rfl, List.nodup_nil, List.nodup_nil⟩

variable {running : List Running}

section

omit [Sha256]

theorem forall_set {P : Running → Prop} (h : ∀ q ∈ running, P q) (hr' : P r') :
    ∀ q ∈ running.set i r', P q := by
  intro q hq
  rcases List.mem_or_eq_of_mem_set hq with hq | rfl
  · exact h q hq
  · exact hr'

theorem exists_set {P : Running → Prop} (hi : running[i]? = some r) (hkeeps : P r → P r')
    (h : ∃ q ∈ running, P q) : ∃ q ∈ running.set i r', P q := by
  obtain ⟨q, hq, hP⟩ := h
  obtain ⟨j, hj⟩ := List.mem_iff_getElem?.mp hq
  by_cases hij : i = j
  · subst hij
    obtain rfl := Option.some.inj (hi.symm.trans hj)
    obtain ⟨hlt, -⟩ := List.getElem?_eq_some_iff.mp hi
    exact ⟨r', List.mem_set hlt r', hkeeps hP⟩
  · refine ⟨q, List.mem_iff_getElem?.mpr ⟨j, ?_⟩, hP⟩
    rw [List.getElem?_set_ne hij]
    exact hj

/-- Commands stay apart if the one that went on is not about to write down what it did, or
already was. -/
theorem apart_set (h : Apart running) (hnew : r'.Records → ∀ (j : Nat) (q : Running), j ≠ i →
      running[j]? = some q → q.Records →
      q.command.key ≠ r'.command.key) : Apart (running.set i r') := by
  intro j k q q' hj hk hq hq' hkey
  rw [List.getElem?_set] at hj hk
  by_cases hij : i = j
  · by_cases hik : i = k
    · omega
    · rw [if_neg hik] at hk
      rw [if_pos hij] at hj
      split at hj
      · cases hj
        exact absurd hkey.symm (hnew hq k q' (Ne.symm hik) hk hq')
      · cases hj
  · rw [if_neg hij] at hj
    by_cases hik : i = k
    · rw [if_pos hik] at hk
      split at hk
      · cases hk
        exact absurd hkey (hnew hq' j q (Ne.symm hij) hj hq)
      · cases hk
    · rw [if_neg hik] at hk
      exact h j k q q' hj hk hq hq' hkey

theorem mem_set_cases {q : Running} (h : q ∈ running.set i r') :
    q = r' ∨ ∃ j, j ≠ i ∧ running[j]? = some q := by
  obtain ⟨j, hj⟩ := List.mem_iff_getElem?.mp h
  rw [List.getElem?_set] at hj
  by_cases hij : i = j
  · rw [if_pos hij] at hj
    split at hj
    · exact .inl (Option.some.inj hj).symm
    · cases hj
  · rw [if_neg hij] at hj
    exact .inr ⟨j, Ne.symm hij, hj⟩

end

theorem step_advance {t : InMemoryOperatorRepository} (hi : d.running[i]? = some r)
    (h : r.program.advance memory d.tables = (phase.program r.kind r.command r.now, t)) :
    d.step (.advance i) =
      { tables := t
        running := d.running.set i { r with program := phase.program r.kind r.command r.now }
        executed := if r.effect = .change then d.executed ++ [(r.kind, r.command)] else d.executed
        log := d.log ++ (t.audit.drop d.tables.audit.length).map fun entry =>
          ⟨r.kind, r.command, entry⟩ } := by
  simp only [Desk.step, hi, Running.advance, h]

theorem Desk.Orderly.read (h : d.Orderly) (hi : d.running[i]? = some r) (hread : r.effect = .read)
    (hphase : phase.effect = .read ∨ phase.effect = .change)
    (hadvance : r.program.advance memory d.tables =
      (phase.program r.kind r.command r.now, d.tables)) : (d.step (.advance i)).Orderly := by
  have hstep := step_advance hi hadvance
  rw [hread, if_neg (by decide), List.drop_length, List.map_nil, List.append_nil] at hstep
  rw [hstep]
  set r' : Running := { r with program := phase.program r.kind r.command r.now }
  have hat : r'.At phase := rfl
  have hquiet : ¬ r'.Records := by
    rintro (heffect | heffect)
    all_goals
      rw [hat.effect] at heffect
      rw [heffect] at hphase
      simp at hphase
  have hr : ¬ r.Records := by
    rintro (heffect | heffect)
    all_goals
      rw [hread] at heffect
      cases heffect
  constructor
  case keyed => exact h.keyed
  case phases => exact forall_set h.phases ⟨phase, hat⟩
  case apart => exact apart_set h.apart fun hrecords => absurd hrecords hquiet
  case recorded => exact forall_set h.recorded fun hrecords => absurd hrecords hquiet
  case settled =>
    intro x hx
    refine (h.settled x hx).imp_right (exists_set hi ?_)
    rintro ⟨hrecords, -⟩
    exact absurd hrecords hr
  case logged => exact h.logged
  case unlogged => exact forall_set h.unlogged fun heffect => absurd (.inl heffect) hquiet
  case passed => exact h.passed
  case resolved => exact h.resolved
  case once => exact ⟨h.once.keys, h.once.entries, h.once.audit, h.once.versions, h.once.reviews⟩

theorem Desk.Orderly.audit (h : d.Orderly) (hi : d.running[i]? = some r) (hat : r.At .auditing) :
    (d.step (.advance i)).Orderly := by
  have hmem : r ∈ d.running := List.mem_of_getElem? hi
  have hstep := step_advance hi (hat ▸ advance_auditing (s := d.tables))
  rw [hat.effect, if_neg (by decide)] at hstep
  rw [hstep]
  set r' : Running :=
    { r with
      program := (Phase.storing (d.tables.entryOf r.command r.now)).program r.kind r.command r.now }
  have hat' : r'.At (.storing (d.tables.entryOf r.command r.now)) := rfl
  have hrecords' : r'.Records := .inr hat'.effect
  have hrecords : r.Records := .inl hat.effect
  have hlog : ((d.tables.audited r.command r.now).audit.drop d.tables.audit.length).map
      (fun entry => Logged.mk r.kind r.command entry) =
      [⟨r.kind, r.command, d.tables.entryOf r.command r.now⟩] := by
    simp [InMemoryOperatorRepository.audited]
  rw [hlog]
  constructor
  case keyed => exact ⟨h.keyed.jobs, h.keyed.reviews⟩
  case phases => exact forall_set h.phases ⟨_, hat'⟩
  case apart =>
    refine apart_set h.apart fun _ j q hne hj hq hkey => hne ?_
    exact h.apart j i q r hj hi hq hrecords hkey
  case recorded => exact forall_set h.recorded fun _ => h.recorded r hmem hrecords
  case settled =>
    intro x hx
    refine (h.settled x hx).imp_right (exists_set hi ?_)
    rintro ⟨-, hkey⟩
    exact ⟨hrecords', hkey⟩
  case logged =>
    intro x hx
    rcases List.mem_append.mp hx with hx | hx
    · exact h.logged x hx
    · obtain rfl := List.mem_singleton.mp hx
      exact h.recorded r hmem hrecords
  case unlogged =>
    intro q hq heffect x hx
    rcases mem_set_cases hq with rfl | ⟨j, hne, hj⟩
    · rw [hat'.effect] at heffect
      cases heffect
    · rcases List.mem_append.mp hx with hx | hx
      · exact h.unlogged q (List.mem_of_getElem? hj) heffect x hx
      · obtain rfl := List.mem_singleton.mp hx
        exact fun hkey => hne (h.apart j i q r hj hi (.inl heffect) hrecords hkey.symm)
  case passed => exact h.passed
  case resolved => exact h.resolved
  case once =>
    refine ⟨h.once.keys, ?_, ?_, h.once.versions, h.once.reviews⟩
    · rw [List.map_append]
      refine List.nodup_append.mpr ⟨h.once.entries, by simp, ?_⟩
      intro key hkey key' hkey' hsame
      obtain ⟨x, hx, rfl⟩ := List.mem_map.mp hkey
      rw [List.map_singleton, List.mem_singleton] at hkey'
      exact h.unlogged r hmem hat.effect x hx (hsame.trans hkey')
    · rw [List.map_append, h.once.audit]
      rfl

theorem Desk.Orderly.receipt (h : d.Orderly) (hi : d.running[i]? = some r)
    {audit : OperatorAuditEntry} (hat : r.At (.storing audit)) : (d.step (.advance i)).Orderly := by
  have hstep := step_advance hi (hat ▸ advance_storing (s := d.tables) audit)
  rw [hat.effect, if_neg (by simp [Phase.effect])] at hstep
  rw [hstep]
  set r' : Running :=
    { r with program := (Phase.ended (.ok ⟨audit, false⟩)).program r.kind r.command r.now }
  have hat' : r'.At (.ended (.ok ⟨audit, false⟩)) := rfl
  have hquiet : ¬ r'.Records := by
    rintro (heffect | heffect)
    all_goals
      rw [hat'.effect] at heffect
      cases heffect
  have hlog : ((d.tables.receipted r.command audit).audit.drop d.tables.audit.length).map
      (fun entry => Logged.mk r.kind r.command entry) = [] := by
    simp [InMemoryOperatorRepository.receipted, InMemoryOperatorRepository.perform]
  have hreceipts : ∀ key, (d.tables.receipted r.command audit).receipts.get? key =
      if key = r.command.key then
          some (receiptOf r.command audit) else d.tables.receipts.get? key :=
    fun key => Dict.get?_set ..
  rw [hlog, List.append_nil]
  constructor
  case keyed => exact ⟨h.keyed.jobs, h.keyed.reviews⟩
  case phases => exact forall_set h.phases ⟨_, hat'⟩
  case apart => exact apart_set h.apart fun hrecords => absurd hrecords hquiet
  case recorded => exact forall_set h.recorded fun hrecords => absurd hrecords hquiet
  case settled =>
    intro x hx
    show (Option.isSome ((d.tables.receipted r.command audit).receipts.get? x.2.key)) = true ∨ _
    rw [hreceipts]
    by_cases hkey : x.2.key = r.command.key
    · rw [if_pos hkey]
      exact .inl rfl
    · rw [if_neg hkey]
      refine (h.settled x hx).imp_right (exists_set hi ?_)
      rintro ⟨-, hsame⟩
      exact absurd hsame.symm hkey
  case logged => exact h.logged
  case unlogged => exact forall_set h.unlogged fun heffect => absurd (.inl heffect) hquiet
  case passed => exact h.passed
  case resolved => exact h.resolved
  case once => exact ⟨h.once.keys, h.once.entries, h.once.audit, h.once.versions, h.once.reviews⟩

theorem Desk.Orderly.unused (h : d.Orderly) (hnone : d.tables.receipts.get? command.key = none)
    (halone : ∀ r' ∈ d.running, r'.command.key = command.key → ¬ r'.Records) :
    ∀ x ∈ d.executed, x.2.key ≠ command.key := by
  intro x hx hkey
  rcases h.settled x hx with hreceipt | ⟨q, hq, hrecords, hsame⟩
  · rw [hkey, hnone] at hreceipt
    cases hreceipt
  · exact halone q hq (hsame.trans hkey) hrecords

theorem Desk.Orderly.unconsumed (h : d.Orderly) (haccepts : d.tables.Accepts kind command) :
    ∀ x ∈ d.executed, consumed x.1 x.2 ≠ consumed kind command := by
  intro x hx heq
  obtain ⟨htarget, hversion⟩ := Prod.mk.inj heq
  obtain ⟨hkind, hid⟩ := Prod.mk.inj htarget
  obtain ⟨version, hget, hlt⟩ := h.passed x hx
  rw [hkind, hid, haccepts.version] at hget
  cases hget
  omega

theorem Desk.Orderly.unresolved (h : d.Orderly)
    (haccepts : d.tables.Accepts .resolveReview command) :
    ∀ x ∈ d.executed, x.1 = .resolveReview → x.2.targetId ≠ command.targetId := by
  intro x hx hkind hid
  obtain ⟨review, hget, hresolved⟩ := h.resolved x hx hkind
  obtain ⟨review', resolution, hget', -, -, hpending⟩ := haccepts
  rw [hid, hget'] at hget
  cases hget
  rw [hpending] at hresolved
  cases hresolved

omit [Sha256] in
theorem resolved_changed (haccepts : s.Accepts kind command) {id : String}
    (h : (kind = .resolveReview ∧ id = command.targetId) ∨
      ∃ review, s.reviews.get? id = some review ∧ review.reviewStatus = .resolved) :
    ∃ review, (s.changed kind command now).reviews.get? id = some review ∧
      review.reviewStatus = .resolved := by
  cases kind with
  | retryJob | resumeJob =>
    obtain ⟨job, hjob, -⟩ := haccepts
    rcases h with ⟨hkind, -⟩ | h
    · cases hkind
    · simpa only [InMemoryOperatorRepository.changed, InMemoryOperatorRepository.startJobAttempt,
        hjob] using h
  | resolveReview =>
    obtain ⟨review, resolution, hreview, -⟩ := haccepts
    simp only [InMemoryOperatorRepository.changed, InMemoryOperatorRepository.resolveReview,
      hreview]
    by_cases hid : id = command.targetId
    · rw [hid, Dict.get?_set_self]
      exact ⟨_, rfl, rfl⟩
    · rw [Dict.get?_set_of_ne _ _ hid]
      rcases h with ⟨-, hsame⟩ | h
      · exact absurd hsame hid
      · exact h

omit [Sha256] in
theorem advance_keyed (h : s.Keyed) (program : Console OperatorCommandResult) :
    (program.advance memory s).2.Keyed :=
  Program.advance_keeps (fun op _ _ => h.perform op) h

theorem Desk.Orderly.change (h : d.Orderly) (hi : d.running[i]? = some r) (hat : r.At .writing)
    (haccepts : d.tables.Accepts r.kind r.command)
    (hnone : d.tables.receipts.get? r.command.key = none)
    (halone : ∀ r' ∈ d.running, r'.command.key = r.command.key → ¬ r'.Records) :
    (d.step (.advance i)).Orderly := by
  have hadvance : r.program.advance memory d.tables =
      (Phase.auditing.program r.kind r.command r.now,
        d.tables.changed r.kind r.command r.now) := by
    rw [hat]
    exact advance_writing haccepts
  have hkeyed : (d.tables.changed r.kind r.command r.now).Keyed := by
    have hkeeps := advance_keyed h.keyed r.program
    rw [hadvance] at hkeeps
    exact hkeeps
  have hstep := step_advance hi hadvance
  have hwriting : Phase.writing.effect = .change := rfl
  rw [hat.effect, hwriting, if_pos rfl, audit_changed, List.drop_length, List.map_nil,
    List.append_nil] at hstep
  rw [hstep]
  set r' : Running := { r with program := Phase.auditing.program r.kind r.command r.now }
  have hat' : r'.At .auditing := rfl
  have hr : ¬ r.Records := by
    rintro (heffect | heffect)
    all_goals
      rw [hat.effect] at heffect
      cases heffect
  have hunused := h.unused hnone halone
  obtain ⟨hlt, -⟩ := List.getElem?_eq_some_iff.mp hi
  constructor
  case keyed => exact hkeyed
  case phases => exact forall_set h.phases ⟨_, hat'⟩
  case apart =>
    refine apart_set h.apart fun _ j q _ hj hrecords hkey => ?_
    exact halone q (List.mem_of_getElem? hj) hkey hrecords
  case recorded =>
    refine forall_set (fun q hq hrecords => ?_) fun _ => ?_
    · obtain ⟨x, hx, hkey⟩ := h.recorded q hq hrecords
      exact ⟨x, List.mem_append_left _ hx, hkey⟩
    · exact ⟨_, List.mem_append_right _ (List.mem_singleton_self _), rfl⟩
  case settled =>
    intro x hx
    rcases List.mem_append.mp hx with hx | hx
    · rw [receipts_changed]
      refine (h.settled x hx).imp_right (exists_set hi ?_)
      rintro ⟨hrecords, -⟩
      exact absurd hrecords hr
    · obtain rfl := List.mem_singleton.mp hx
      exact .inr ⟨r', List.mem_set hlt r', .inl hat'.effect, rfl⟩
  case logged =>
    intro x hx
    obtain ⟨y, hy, hkey⟩ := h.logged x hx
    exact ⟨y, List.mem_append_left _ hy, hkey⟩
  case unlogged =>
    refine forall_set h.unlogged fun _ x hx hkey => ?_
    obtain ⟨y, hy, hsame⟩ := h.logged x hx
    exact hunused y hy (hsame.trans hkey)
  case passed =>
    intro x hx
    show ∃ version, (d.tables.changed r.kind r.command r.now).version _ _ = some version ∧ _
    rw [version_changed r.now haccepts]
    rcases List.mem_append.mp hx with hx | hx
    · obtain ⟨version, hget, hlt⟩ := h.passed x hx
      split
      · next hsame =>
        rw [hsame.1, hsame.2, haccepts.version] at hget
        cases hget
        exact ⟨_, rfl, by omega⟩
      · exact ⟨version, hget, hlt⟩
    · obtain rfl := List.mem_singleton.mp hx
      exact ⟨_, if_pos ⟨rfl, rfl⟩, by show r.command.expectedVersion < _; omega⟩
  case resolved =>
    intro x hx hkind
    refine resolved_changed haccepts ?_
    rcases List.mem_append.mp hx with hx | hx
    · exact .inr (h.resolved x hx hkind)
    · obtain rfl := List.mem_singleton.mp hx
      exact .inl ⟨hkind, rfl⟩
  case once =>
    constructor
    case keys =>
      rw [List.map_append]
      refine List.nodup_append.mpr ⟨h.once.keys, by simp, ?_⟩
      intro key hkey key' hkey' hsame
      obtain ⟨x, hx, rfl⟩ := List.mem_map.mp hkey
      rw [List.map_singleton, List.mem_singleton] at hkey'
      exact hunused x hx (hsame.trans hkey')
    case entries => exact h.once.entries
    case audit => rw [h.once.audit, audit_changed]
    case versions =>
      rw [List.map_append]
      refine List.nodup_append.mpr ⟨h.once.versions, by simp, ?_⟩
      intro version hversion version' hversion' hsame
      obtain ⟨x, hx, rfl⟩ := List.mem_map.mp hversion
      rw [List.map_singleton, List.mem_singleton] at hversion'
      exact h.unconsumed haccepts x hx (hsame.trans hversion')
    case reviews =>
      rw [List.filter_append]
      by_cases hkind : r.kind = .resolveReview
      · rw [List.filter_cons_of_pos (by simpa using hkind), List.filter_nil, List.map_append]
        refine List.nodup_append.mpr ⟨h.once.reviews, by simp, ?_⟩
        intro id hid id' hid' hsame
        obtain ⟨x, hx, rfl⟩ := List.mem_map.mp hid
        obtain ⟨hx, hxkind⟩ := List.mem_filter.mp hx
        rw [List.map_singleton, List.mem_singleton] at hid'
        rw [hkind] at haccepts
        exact h.unresolved haccepts x hx (by simpa using hxkind) (hsame.trans hid')
      · rw [List.filter_cons_of_neg (by simpa using hkind), List.filter_nil, List.append_nil]
        exact h.once.reviews

theorem Desk.Orderly.step (h : d.Orderly) {turn : Turn} (hfresh : d.Fresh turn) :
    (d.step turn).Orderly := by
  cases turn with
  | call kind command now =>
    set r' : Running := ⟨kind, command, now, kind.program command now⟩
    have hat : r'.At .finding := rfl
    have hquiet : ¬ r'.Records := by
      rintro (heffect | heffect)
      all_goals
        rw [hat.effect] at heffect
        cases heffect
    have hforall : ∀ {P : Running → Prop}, (∀ r ∈ d.running, P r) → P r' →
        ∀ r ∈ d.running ++ [r'], P r := by
      intro P hP hr' r hr
      rcases List.mem_append.mp hr with hr | hr
      · exact hP r hr
      · rw [List.mem_singleton.mp hr]
        exact hr'
    have hold : ∀ {j : Nat} {q : Running}, (d.running ++ [r'])[j]? = some q → q.Records →
        d.running[j]? = some q := by
      intro j q hj hrecords
      by_cases hlt : j < d.running.length
      · rwa [List.getElem?_append_left hlt] at hj
      · rw [List.getElem?_append_right (by omega)] at hj
        have hq := List.mem_singleton.mp (List.mem_of_getElem? hj)
        rw [hq] at hrecords
        exact absurd hrecords hquiet
    constructor
    case keyed => exact h.keyed
    case phases => exact hforall h.phases ⟨.finding, hat⟩
    case apart =>
      intro j k q q' hj hk hq hq' hkey
      exact h.apart j k q q' (hold hj hq) (hold hk hq') hq hq' hkey
    case recorded => exact hforall h.recorded fun hrecords => absurd hrecords hquiet
    case settled =>
      intro x hx
      refine (h.settled x hx).imp_right ?_
      rintro ⟨q, hq, hrest⟩
      exact ⟨q, List.mem_append_left _ hq, hrest⟩
    case logged => exact h.logged
    case unlogged => exact hforall h.unlogged fun heffect => absurd (.inl heffect) hquiet
    case passed => exact h.passed
    case resolved => exact h.resolved
    case once => exact ⟨h.once.keys, h.once.entries, h.once.audit, h.once.versions, h.once.reviews⟩
  | advance i =>
    cases hi : d.running[i]? with
    | none =>
      rw [show d.step (.advance i) = d by simp only [Desk.step, hi]]
      exact h
    | some r =>
      obtain ⟨phase, hat⟩ := h.phases r (List.mem_of_getElem? hi)
      cases phase with
      | finding =>
        obtain ⟨phase, hphase, hadvance⟩ := advance_finding (s := d.tables) r.kind r.command r.now
        refine h.read hi hat.effect ?_ (by rw [hat]; exact hadvance)
        rcases hphase with rfl | ⟨result, rfl⟩
        · exact .inl rfl
        · exact .inl rfl
      | reading =>
        obtain ⟨phase, hphase, hadvance⟩ := advance_reading h.keyed r.kind r.command r.now
        refine h.read hi hat.effect ?_ (by rw [hat]; exact hadvance)
        rcases hphase with rfl | ⟨result, rfl⟩
        · exact .inr rfl
        · exact .inl rfl
      | writing =>
        obtain ⟨haccepts, hnone, halone⟩ := hfresh r hi hat.effect
        exact h.change hi hat haccepts hnone halone
      | auditing => exact h.audit hi hat
      | storing audit => exact h.receipt hi hat
      | ended result =>
        refine h.read hi hat.effect (.inl rfl) (?_ : _ = ((Phase.ended result).program _ _ _, _))
        rw [hat]
        rfl

theorem Desk.Orderly.run {turns : List Turn} (h : d.Orderly) (hfresh : d.AllFresh turns) :
    (d.run turns).Orderly := by
  induction turns generalizing d with
  | nil => exact h
  | cons turn turns ih => exact ih (h.step hfresh.1) hfresh.2

/-- However the operations of commands take turns, every command is executed at most once
as long as every write finds what its command has read. -/
theorem run_at_most_once (jobs : List OperatorJob) (reviews : List OperatorReview)
    (turns : List Turn) (hfresh : (Desk.start jobs reviews).AllFresh turns) :
    ((Desk.start jobs reviews).run turns).AtMostOnce :=
  ((orderly_start jobs reviews).run hfresh).once

omit [Sha256]

/-- Two retries of the failed job with one key, one after the other. -/
theorem run_at_most_once_retry :
    letI : Sha256 := .ofTable []
    ((Desk.start [failedJob] []).run
      [.call .retryJob retryCommand nextMorning, .advance 0, .advance 0, .advance 0, .advance 0,
        .advance 0, .call .retryJob retryCommand nextMorning, .advance 1]).AtMostOnce := by
  let _ : Sha256 := .ofTable []
  refine run_at_most_once [failedJob] [] _ ⟨trivial, ?_, ?_, ?_, ?_, ?_, trivial, ?_, trivial⟩
  all_goals
    intro r hr heffect
    cases hr
  case refine_3 =>
    refine ⟨accepts_retryCommand, rfl, fun r' hr' _ => ?_⟩
    obtain rfl := List.mem_singleton.mp hr'
    rintro (heffect | heffect) <;> cases heffect
  all_goals cases heffect

/-- Two retries of the failed job with one key that read it before one of them starts it. -/
theorem run_more_than_once :
    letI : Sha256 := .ofTable []
    ¬ ∀ (jobs : List OperatorJob) (reviews : List OperatorReview) (turns : List Turn),
      ((Desk.start jobs reviews).run turns).AtMostOnce := by
  let _ : Sha256 := .ofTable []
  intro hall
  have hkeys := (hall [failedJob] [] [.call .retryJob retryCommand nextMorning,
    .call .retryJob retryCommand nextMorning, .advance 0, .advance 0, .advance 1, .advance 1,
    .advance 0, .advance 1]).keys
  have hexecuted : ((Desk.start [failedJob] []).run [.call .retryJob retryCommand nextMorning,
      .call .retryJob retryCommand nextMorning, .advance 0, .advance 0, .advance 1, .advance 1,
      .advance 0, .advance 1]).executed = [(.retryJob, retryCommand), (.retryJob, retryCommand)] :=
    rfl
  rw [hexecuted] at hkeys
  simp at hkeys

end Dayjaview.Operator
