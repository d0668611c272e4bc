import Dayjaview.Operator.Execution

/-!
# Commands whose operations fail

Every operation of a command is stored on its own, so a failure leaves what was done
before it. As long as neither the audit nor the receipt is what fails, a command can
be sent again: it is executed once, and the audit entries of every target are
connected.
-/

namespace Dayjaview.Operator

/-- A command that is sent, and the operation that fails, if one does. -/
structure Attempt where
  kind : CommandKind
  command : OperatorCommand
  now : Datetime
  failure : Option (Nat × Error)

/-- An audit entry with the command that wrote it. -/
structure Logged where
  kind : CommandKind
  command : OperatorCommand
  entry : OperatorAuditEntry

/-- What the command of an entry changed. -/
def Logged.target (x : Logged) : TargetKind × String := (x.kind.target, x.command.targetId)

/-- The tables in a run, with what is known about the audit. -/
structure Ledger where
  tables : InMemoryOperatorRepository
  log : List Logged

/-- The entries for one target. -/
def Ledger.entriesOf (l : Ledger) (target : TargetKind × String) : List Logged :=
  l.log.filter (·.target = target)

/-- The entries of the commands with one key. -/
def Ledger.entriesWith (l : Ledger) (key : String × String) : List Logged :=
  l.log.filter (·.command.key = key)

/-- Every entry goes on where the one before it ended. -/
def Chained (entries : List Logged) : Prop :=
  entries.IsChain fun x y => x.entry.afterRevision = y.entry.beforeRevision

/-- A run starts without commands. -/
def Ledger.start (jobs : List OperatorJob) (reviews : List OperatorReview) : Ledger :=
  ⟨.start jobs reviews, []⟩

variable [Sha256]

/-- What a command that is sent does. -/
def Attempt.perform (a : Attempt) (s : InMemoryOperatorRepository) :
    Except Error OperatorCommandResult × InMemoryOperatorRepository :=
  match a.failure with
  | none => (a.kind.program a.command a.now).finish memory s
  | some (k, e) => (a.kind.program a.command a.now).finishUntil memory e k s

/-- A command comes to the operation that fails. -/
def Attempt.Fails (a : Attempt) (s : InMemoryOperatorRepository) : Prop :=
  ∃ k e, a.failure = some (k, e) ∧ (a.kind.program a.command a.now).Reaches memory k s

/-- What fails is not the fourth operation of a command, which writes the audit, and
not the fifth, which stores the receipt. -/
def Attempt.Spares (a : Attempt) (s : InMemoryOperatorRepository) : Prop :=
  ∀ k e, a.failure = some (k, e) → (a.kind.program a.command a.now).Reaches memory k s → k < 3

/-- The same command, sent again without a failure. -/
def Attempt.again (a : Attempt) (now : Datetime) : Attempt := { a with now := now, failure := none }

def Ledger.send (l : Ledger) (a : Attempt) : Ledger :=
  let after := (a.perform l.tables).2
  ⟨after, l.log ++ (after.audit.drop l.tables.audit.length).map fun entry =>
    ⟨a.kind, a.command, entry⟩⟩

/-- Send some commands, one after the other. -/
def Ledger.run (l : Ledger) (attempts : List Attempt) : Ledger := attempts.foldl send l

/-- No command of a run fails at its audit or its receipt. -/
def Ledger.Spared : Ledger → List Attempt → Prop
  | _, [] => True
  | l, a :: attempts => a.Spares l.tables ∧ (l.send a).Spared attempts

/-- The command of an attempt is executed once: its target is one version further, there is
one entry for it, and its receipt is stored. -/
structure ExecutedOnce (l : Ledger) (a : Attempt) (audit : OperatorAuditEntry) : Prop where
  version : l.tables.version a.kind.target a.command.targetId =
    some (a.command.expectedVersion + 1)
  entry : l.entriesWith a.command.key = [⟨a.kind, a.command, audit⟩]
  revisions : audit.beforeRevision = some a.command.expectedVersion ∧
    audit.afterRevision = some (a.command.expectedVersion + 1)
  receipt : l.tables.receipts.get? a.command.key = some (receiptOf a.command audit)

/-- What is asked of a command that is sent, and sent again if an operation fails. -/
structure Survives (l : Ledger) (a : Attempt) : Prop where
  unchanged : ¬ a.Fails l.tables → ∀ e, (a.perform l.tables).1 = .error e → l.send a = l
  executed : a.Fails l.tables → l.tables.receipts.get? a.command.key = none →
    l.tables.Accepts a.kind a.command → ∀ now, ∃ audit,
      ((a.again now).perform (l.send a).tables).1 = .ok ⟨audit, false⟩ ∧
        ExecutedOnce ((l.send a).send (a.again now)) a audit
  replayed : a.Fails l.tables → ∀ receipt, l.tables.receipts.get? a.command.key = some receipt →
    receipt.fingerprint = fingerprint a.command → ∀ now,
      ((a.again now).perform (l.send a).tables).1 = .ok ⟨receipt.audit, true⟩ ∧
        (l.send a).send (a.again now) = l ∧
        ∃ x, l.entriesWith a.command.key = [x] ∧ x.entry = receipt.audit ∧
          ∃ before, receipt.audit.beforeRevision = some before ∧
            receipt.audit.afterRevision = some (before + 1)
  refused : a.Fails l.tables →
    (∀ receipt, l.tables.receipts.get? a.command.key = some receipt →
      receipt.fingerprint ≠ fingerprint a.command) →
    (l.tables.receipts.get? a.command.key = none → ¬ l.tables.Accepts a.kind a.command) →
    ∀ now, ∃ e ∈ [targetNotFound, rejected "STALE_VERSION", rejected "COMMAND_NOT_ALLOWED"],
      ((a.again now).perform (l.send a).tables).1 = .error e ∧ (l.send a).send (a.again now) = l
  chained : ∀ target, Chained ((l.send a).entriesOf target)

variable {s : InMemoryOperatorRepository} {l : Ledger} {a : Attempt}

theorem perform_keyed (hkeyed : s.Keyed) (a : Attempt) : (a.perform s).2.Keyed := by
  unfold Attempt.perform
  rcases a.failure with _ | ⟨k, e⟩
  · exact Program.finish_keeps (fun op s hs => hs.perform op) _ hkeyed
  · exact Program.finishUntil_keeps (fun op s hs => hs.perform op) e k _ hkeyed

theorem perform_of_not_fails (hkeyed : s.Keyed) (h : ¬ a.Fails s) :
    a.perform s = (s.plan a.kind a.command).outcome s a.kind a.command a.now := by
  rw [← finish_program hkeyed]
  unfold Attempt.perform
  rcases hfailure : a.failure with _ | ⟨k, e⟩
  · rfl
  · exact Program.finishUntil_of_not_reaches fun hreaches => h ⟨k, e, hfailure, hreaches⟩

theorem perform_again (hkeyed : s.Keyed) (a : Attempt) (now : Datetime) :
    (a.again now).perform s = (s.plan a.kind a.command).outcome s a.kind a.command now :=
  finish_program hkeyed a.kind a.command now

theorem perform_of_fails (hkeyed : s.Keyed) (hspares : a.Spares s) (h : a.Fails s) :
    (a.perform s).2 = s := by
  obtain ⟨k, e, hfailure, hreaches⟩ := h
  have hk : k < 3 := hspares k e hfailure hreaches
  have hcut : a.perform s = (s.plan a.kind a.command).cut s a.kind a.command a.now e k := by
    rw [← finishUntil_program hkeyed]
    unfold Attempt.perform
    rw [hfailure]
  rw [hcut]
  cases s.plan a.kind a.command with
  | stop reads result => rfl
  | execute =>
    have hcases : k = 0 ∨ k = 1 ∨ k = 2 := by omega
    rcases hcases with rfl | rfl | rfl <;> rfl

theorem perform_cases (hkeyed : s.Keyed) (hspares : a.Spares s) :
    (a.perform s).2 = s ∨
      ((s.receipts.get? a.command.key = none ∧ s.Accepts a.kind a.command) ∧
        a.perform s =
        (.ok ⟨s.entryOf a.command a.now, false⟩, s.executed a.kind a.command a.now)) := by
  by_cases hfails : a.Fails s
  · exact .inl (perform_of_fails hkeyed hspares hfails)
  · rw [perform_of_not_fails hkeyed hfails]
    cases hplan : s.plan a.kind a.command with
    | stop reads result => exact .inl rfl
    | execute => exact .inr ⟨(plan_eq_execute _ _).mp hplan, rfl⟩

theorem send_eq_self (h : (a.perform l.tables).2 = l.tables) : l.send a = l := by
  unfold Ledger.send
  rw [h]
  simp

theorem send_of_executed
    (h : (a.perform l.tables).2 = l.tables.executed a.kind a.command a.now) :
    l.send a = ⟨l.tables.executed a.kind a.command a.now,
      l.log ++ [⟨a.kind, a.command, l.tables.entryOf a.command a.now⟩]⟩ := by
  unfold Ledger.send
  rw [h]
  simp

/-- What holds of a run in which no audit and no receipt failed. -/
structure Sound (l : Ledger) : Prop where
  keyed : l.tables.Keyed
  revisions : ∀ x ∈ l.log, x.entry.beforeRevision = some x.command.expectedVersion ∧
    x.entry.afterRevision = some (x.command.expectedVersion + 1)
  receipts : ∀ key receipt, l.tables.receipts.get? key = some receipt ↔
    ∃ x ∈ l.log, x.command.key = key ∧ receiptOf x.command x.entry = receipt
  once : (l.log.map (·.command.key)).Nodup
  chained : ∀ target, Chained (l.entriesOf target)
  last : ∀ target, ∀ x ∈ (l.entriesOf target).getLast?,
    l.tables.version target.1 target.2 = x.entry.afterRevision

theorem sound_start (jobs : List OperatorJob) (reviews : List OperatorReview) :
    Sound (.start jobs reviews) where
  keyed := keyed_start jobs reviews
  revisions := by simp [Ledger.start]
  receipts := by simp [Ledger.start, InMemoryOperatorRepository.start]
  once := by simp [Ledger.start]
  chained := by simp [Ledger.start, Ledger.entriesOf, Chained]
  last := by simp [Ledger.start, Ledger.entriesOf]

theorem Sound.fresh (h : Sound l) {key : String × String}
    (hnone : l.tables.receipts.get? key = none) : ∀ x ∈ l.log, x.command.key ≠ key := by
  intro x hx heq
  have hreceipt := (h.receipts key (receiptOf x.command x.entry)).mpr ⟨x, hx, heq, rfl⟩
  rw [hnone] at hreceipt
  cases hreceipt

theorem Sound.executed (h : Sound l) (hnone : l.tables.receipts.get? a.command.key = none)
    (haccepts : l.tables.Accepts a.kind a.command) (hkeyed : (a.perform l.tables).2.Keyed)
    (heq : (a.perform l.tables).2 = l.tables.executed a.kind a.command a.now) :
    Sound (l.send a) := by
  have hlast : ∀ target, (l.send a).entriesOf target = l.entriesOf target ++
      if (a.kind.target, a.command.targetId) = target then
        [⟨a.kind, a.command, l.tables.entryOf a.command a.now⟩] else [] := by
    intro target
    rw [send_of_executed heq, Ledger.entriesOf, List.filter_append]
    congr 1
    by_cases htarget : (a.kind.target, a.command.targetId) = target
    · simp [Logged.target, htarget]
    · simp [Logged.target, htarget]
  have hversion := version_executed a.now haccepts
  have hbefore := haccepts.version
  rw [heq] at hkeyed
  constructor
  case keyed =>
    rw [send_of_executed heq]
    exact hkeyed
  case revisions =>
    rw [send_of_executed heq]
    intro x hx
    rcases List.mem_append.mp hx with hx | hx
    · exact h.revisions x hx
    · obtain rfl := List.mem_singleton.mp hx
      exact ⟨rfl, rfl⟩
  case receipts =>
    rw [send_of_executed heq]
    intro key receipt
    show (l.tables.executed a.kind a.command a.now).receipts.get? key = some receipt ↔ _
    rw [receipts_executed]
    by_cases hkey : key = a.command.key
    · subst hkey
      rw [if_pos rfl]
      constructor
      · intro hsome
        exact ⟨_, List.mem_append_right _ (List.mem_singleton_self _), rfl, Option.some.inj hsome⟩
      · rintro ⟨x, hx, hkeyx, rfl⟩
        rcases List.mem_append.mp hx with hx | hx
        · exact absurd hkeyx (h.fresh hnone x hx)
        · obtain rfl := List.mem_singleton.mp hx
          rfl
    · rw [if_neg hkey, h.receipts]
      constructor
      · rintro ⟨x, hx, hkeyx, hreceipt⟩
        exact ⟨x, List.mem_append_left _ hx, hkeyx, hreceipt⟩
      · rintro ⟨x, hx, hkeyx, hreceipt⟩
        rcases List.mem_append.mp hx with hx | hx
        · exact ⟨x, hx, hkeyx, hreceipt⟩
        · obtain rfl := List.mem_singleton.mp hx
          exact absurd hkeyx.symm hkey
  case once =>
    rw [send_of_executed heq, List.map_append]
    refine List.nodup_append.mpr ⟨h.once, by simp, ?_⟩
    intro key hkey key' hkey' hsame
    obtain ⟨x, hx, rfl⟩ := List.mem_map.mp hkey
    rw [List.map_singleton, List.mem_singleton] at hkey'
    exact h.fresh hnone x hx (hsame.trans hkey')
  case chained =>
    intro target
    rw [hlast]
    by_cases htarget : (a.kind.target, a.command.targetId) = target
    · subst htarget
      rw [if_pos rfl]
      refine List.isChain_append.mpr ⟨h.chained _, List.isChain_singleton _, ?_⟩
      intro x hx y hy
      have hx' := h.last _ x hx
      rw [hbefore] at hx'
      simp only [List.head?_cons, Option.mem_some_iff] at hy
      subst hy
      exact hx'.symm
    · rw [if_neg htarget, List.append_nil]
      exact h.chained target
  case last =>
    intro target x hx
    rw [hlast] at hx
    rw [send_of_executed heq]
    show (l.tables.executed a.kind a.command a.now).version target.1 target.2 = _
    rw [hversion]
    by_cases htarget : (a.kind.target, a.command.targetId) = target
    · subst htarget
      rw [if_pos rfl] at hx
      simp only [List.getLast?_append, List.getLast?_singleton, Option.some_or,
        Option.mem_some_iff] at hx
      subst hx
      simp [InMemoryOperatorRepository.entryOf]
    · rw [if_neg htarget, List.append_nil] at hx
      rw [if_neg, h.last target x hx]
      rintro ⟨hkind, hid⟩
      exact htarget (Prod.ext hkind.symm hid.symm)

theorem Sound.send (h : Sound l) (hspares : a.Spares l.tables) : Sound (l.send a) := by
  rcases perform_cases h.keyed hspares with hsame | ⟨⟨hnone, haccepts⟩, heq⟩
  · rw [send_eq_self hsame]
    exact h
  · exact h.executed hnone haccepts (perform_keyed h.keyed a) (by rw [heq])

theorem Sound.run {attempts : List Attempt} (h : Sound l) (hspared : l.Spared attempts) :
    Sound (l.run attempts) := by
  induction attempts generalizing l with
  | nil => exact h
  | cons a attempts ih => exact ih (h.send hspared.1) hspared.2

theorem Sound.entriesWith_of_receipt (h : Sound l) {key : String × String}
    {receipt : OperatorCommandReceipt} (hreceipt : l.tables.receipts.get? key = some receipt) :
    ∃ x, l.entriesWith key = [x] ∧ x.entry = receipt.audit ∧ x ∈ l.log := by
  obtain ⟨x, hx, hkey, rfl⟩ := (h.receipts key receipt).mp hreceipt
  refine ⟨x, ?_, rfl, hx⟩
  obtain ⟨before, after, hsplit⟩ := List.append_of_mem hx
  have honce := h.once
  rw [hsplit, List.map_append, List.map_cons] at honce
  have hbefore : ∀ y ∈ before, y.command.key ≠ key := by
    intro y hy heq
    have hne := (List.nodup_append.mp honce).2.2 y.command.key (List.mem_map_of_mem hy)
      x.command.key (List.mem_cons_self ..)
    exact hne (heq.trans hkey.symm)
  have hafter : ∀ y ∈ after, y.command.key ≠ key := by
    intro y hy heq
    have hnot := (List.nodup_cons.mp (List.nodup_append.mp honce).2.1).1
    exact hnot (hkey.trans heq.symm ▸ List.mem_map_of_mem hy)
  have hfilter : ∀ entries : List Logged, (∀ y ∈ entries, y.command.key ≠ key) →
      entries.filter (·.command.key = key) = [] := by
    intro entries hne
    exact List.filter_eq_nil_iff.mpr fun y hy => by simpa using hne y hy
  rw [Ledger.entriesWith, hsplit, List.filter_append, hfilter before hbefore,
    List.filter_cons_of_pos (by simpa using hkey), hfilter after hafter]
  rfl

omit [Sha256] in
theorem jobPlan_cases (allowed : List JobStatus) (command : OperatorCommand) :
    s.jobPlan allowed command = .execute ∨
      ∃ reads, ∃ e ∈ [targetNotFound, rejected "STALE_VERSION", rejected "COMMAND_NOT_ALLOWED"],
        s.jobPlan allowed command = .stop reads (.error e) := by
  unfold InMemoryOperatorRepository.jobPlan
  repeat' split
  all_goals simp

omit [Sha256] in
theorem reviewPlan_cases (command : OperatorCommand) :
    s.reviewPlan command = .execute ∨
      ∃ reads, ∃ e ∈ [targetNotFound, rejected "STALE_VERSION", rejected "COMMAND_NOT_ALLOWED"],
        s.reviewPlan command = .stop reads (.error e) := by
  unfold InMemoryOperatorRepository.reviewPlan
  repeat' split
  all_goals simp

theorem plan_of_refused {kind : CommandKind} {command : OperatorCommand}
    (hother : ∀ receipt, s.receipts.get? command.key = some receipt →
      receipt.fingerprint ≠ fingerprint command)
    (hrefuses : s.receipts.get? command.key = none → ¬ s.Accepts kind command) :
    ∃ reads, ∃ e ∈ [targetNotFound, rejected "STALE_VERSION", rejected "COMMAND_NOT_ALLOWED"],
      s.plan kind command = .stop reads (.error e) := by
  have hnot : s.plan kind command ≠ .execute := fun hplan =>
    hrefuses ((plan_eq_execute kind command).mp hplan).1 ((plan_eq_execute kind command).mp hplan).2
  unfold InMemoryOperatorRepository.plan at hnot ⊢
  cases hreceipt : s.receipts.get? command.key with
  | some receipt =>
    refine ⟨1, rejected "COMMAND_NOT_ALLOWED", by simp, ?_⟩
    exact if_neg (hother receipt hreceipt)
  | none =>
    rw [hreceipt] at hnot
    have hcases : s.targetPlan kind command = .execute ∨
        ∃ reads, ∃ e ∈ [targetNotFound, rejected "STALE_VERSION", rejected "COMMAND_NOT_ALLOWED"],
          s.targetPlan kind command = .stop reads (.error e) := by
      cases kind with
      | retryJob => exact jobPlan_cases _ command
      | resumeJob => exact jobPlan_cases _ command
      | resolveReview => exact reviewPlan_cases command
    rcases hcases with hexecute | hstop
    · exact absurd hexecute hnot
    · exact hstop

theorem Sound.survives (h : Sound l) (hspares : a.Spares l.tables) : Survives l a := by
  have hstart : a.Fails l.tables → l.send a = l := fun hfails =>
    send_eq_self (perform_of_fails h.keyed hspares hfails)
  constructor
  case unchanged =>
    intro _ e herror
    rcases perform_cases h.keyed hspares with hsame | ⟨-, heq⟩
    · exact send_eq_self hsame
    · rw [heq] at herror
      cases herror
  case executed =>
    intro hfails hnone haccepts now
    have hperform : (a.again now).perform l.tables =
        (.ok ⟨l.tables.entryOf a.command now, false⟩, l.tables.executed a.kind a.command now) := by
      rw [perform_again h.keyed, (plan_eq_execute _ _).mpr ⟨hnone, haccepts⟩]
      rfl
    have hsend : l.send (a.again now) = ⟨l.tables.executed a.kind a.command now,
        l.log ++ [⟨a.kind, a.command, l.tables.entryOf a.command now⟩]⟩ :=
      send_of_executed (by rw [hperform]; rfl)
    refine ⟨l.tables.entryOf a.command now, by rw [hstart hfails, hperform], ?_⟩
    rw [hstart hfails, hsend]
    constructor
    case version =>
      show (l.tables.executed a.kind a.command now).version _ _ = _
      rw [version_executed now haccepts, if_pos ⟨rfl, rfl⟩]
    case entry =>
      rw [Ledger.entriesWith, List.filter_append, List.filter_eq_nil_iff.mpr, List.nil_append]
      · simp
      · intro x hx
        simpa using h.fresh hnone x hx
    case revisions => exact ⟨rfl, rfl⟩
    case receipt =>
      show (l.tables.executed a.kind a.command now).receipts.get? _ = _
      rw [receipts_executed, if_pos rfl]
  case replayed =>
    intro hfails receipt hreceipt hsame now
    have hperform : (a.again now).perform l.tables = (.ok ⟨receipt.audit, true⟩, l.tables) := by
      rw [perform_again h.keyed]
      unfold InMemoryOperatorRepository.plan replayPlan
      rw [hreceipt]
      simp [hsame, Plan.outcome]
    rw [hstart hfails]
    refine ⟨by rw [hperform], send_eq_self (by rw [hperform]), ?_⟩
    obtain ⟨x, hentries, hentry, hx⟩ := h.entriesWith_of_receipt hreceipt
    obtain ⟨hbefore, hafter⟩ := h.revisions x hx
    rw [hentry] at hbefore hafter
    exact ⟨x, hentries, hentry, _, hbefore, hafter⟩
  case refused =>
    intro hfails hother hrefuses now
    obtain ⟨reads, e, he, hplan⟩ := plan_of_refused hother hrefuses
    have hperform : (a.again now).perform l.tables = (.error e, l.tables) := by
      rw [perform_again h.keyed, hplan]
      rfl
    rw [hstart hfails]
    exact ⟨e, he, by rw [hperform], send_eq_self (by rw [hperform])⟩
  case chained => exact (h.send hspares).chained

theorem Ledger.spared_append {attempts : List Attempt} (h : l.Spared (attempts ++ [a])) :
    l.Spared attempts ∧ a.Spares (l.run attempts).tables := by
  induction attempts generalizing l with
  | nil => exact ⟨trivial, h.1⟩
  | cons first attempts ih =>
    obtain ⟨hrest, hlast⟩ := ih h.2
    exact ⟨⟨h.1, hrest⟩, hlast⟩

/-- In a run in which neither an audit nor a receipt fails to be stored, every command can
be sent again after a failure: it is executed once, or answered from its receipt, or
rejected without an effect, and the audit entries of every target are connected. -/
theorem commands_survive (jobs : List OperatorJob) (reviews : List OperatorReview)
    (attempts : List Attempt) (a : Attempt)
    (hspared : (Ledger.start jobs reviews).Spared (attempts ++ [a])) :
    Survives ((Ledger.start jobs reviews).run attempts) a := by
  obtain ⟨hrun, hspares⟩ := Ledger.spared_append hspared
  exact ((sound_start jobs reviews).run hrun).survives hspares

/-- The retry of the failed job, with an operation that fails. -/
def interruptedRetry (k : Nat) : Attempt :=
  ⟨.retryJob, retryCommand, nextMorning, some (k, ⟨.runtimeError, "connection lost"⟩)⟩

theorem fails_interruptedRetry {k : Nat} (hk : k < 5) :
    (interruptedRetry k).Fails (Ledger.start [failedJob] []).tables := by
  refine ⟨k, _, rfl, (reaches_program (keyed_start [failedJob] []) _ _ _ k).mpr ?_⟩
  have hplan := (plan_eq_execute (s := .start [failedJob] []) .retryJob retryCommand).mpr
    ⟨rfl, accepts_retryCommand⟩
  rw [show (InMemoryOperatorRepository.start [failedJob] []).plan (interruptedRetry k).kind
    (interruptedRetry k).command = .execute from hplan]
  exact hk

omit [Sha256]

/-- A retry that fails before the job is started survives. -/
theorem commands_survive_retry :
    letI : Sha256 := .ofTable []
    (interruptedRetry 2).Fails (Ledger.start [failedJob] []).tables ∧
      Survives ((Ledger.start [failedJob] []).run []) (interruptedRetry 2) := by
  let _ : Sha256 := .ofTable []
  exact ⟨fails_interruptedRetry (by decide), commands_survive [failedJob] [] [] (interruptedRetry 2)
    ⟨by
      rintro k e hfailure -
      cases hfailure
      decide, trivial⟩⟩

/-- A retry whose audit is not stored has started the job and cannot be sent again. -/
theorem commands_do_not_survive :
    letI : Sha256 := .ofTable []
    ¬ ∀ (jobs : List OperatorJob) (reviews : List OperatorReview) (attempts : List Attempt)
      (a : Attempt), Survives ((Ledger.start jobs reviews).run attempts) a := by
  let _ : Sha256 := .ofTable []
  intro hall
  obtain ⟨audit, hresult, -⟩ := (hall [failedJob] [] [] (interruptedRetry 3)).executed
    (fails_interruptedRetry (by decide)) rfl accepts_retryCommand nextMorning
  have hrejected : (((interruptedRetry 3).again nextMorning).perform
      ((Ledger.start [failedJob] []).send (interruptedRetry 3)).tables).1 =
      .error (rejected "STALE_VERSION") := rfl
  rw [Ledger.run, List.foldl_nil, hrejected] at hresult
  cases hresult

end Dayjaview.Operator
