import Dayjaview.Operator.Postgres

/-!
# The two repositories

Memory and database answer every operation alike as long as no review is opened
under the id of another one, no receipt is stored under the key of another one, and
no audit is listed that has two entries of one time.
-/

namespace Dayjaview.Operator

theorem auditNumber_auditId (number : Nat) : auditNumber (auditId number) = .ok (number : Int) := by
  have hdigits : ∀ c ∈ List.replicate (8 - (natText number).length) '0' ++ natText number,
      c.isDigit = true := by
    intro c hc
    rcases List.mem_append.mp hc with hc | hc
    · rw [List.eq_of_mem_replicate hc]
      rfl
    · exact isDigit_of_mem_natText hc
  have hread := intOfStr_digits (by simp [natText_ne_nil]) hdigits
  rw [Nat.ofDigitChars_append, Nat.ofDigitChars_replicate_zero, Nat.mul_zero,
    ofDigitChars_natText, String.ofList_append] at hread
  simp [auditNumber, auditId, hread]

/-- The clock readings order the times as they are. -/
def ClockExact (times : List Datetime) : Prop :=
  ∀ a ∈ times, ∀ b ∈ times, a < b → a.timestamp < b.timestamp

theorem clockExact_singleton (t : Datetime) : ClockExact [t] := by
  intro a ha b hb hlt
  rw [List.mem_singleton.mp ha, List.mem_singleton.mp hb] at hlt
  exact absurd hlt (lt_irrefl t)

theorem timestamp_congr {a b : Datetime} (h : a.instant = b.instant) :
    a.timestamp = b.timestamp := by
  rw [Datetime.timestamp, Datetime.timestamp, h]

theorem lex_timestamp_iff {β : Type} [LinearOrder β] {times : List Datetime} (h : ClockExact times)
    {a b : Datetime} (ha : a ∈ times) (hb : b ∈ times) (x y : β) :
    toLex (-a.timestamp, x) ≤ toLex (-b.timestamp, y) ↔
      toLex (-a.instant, x) ≤ toLex (-b.instant, y) := by
  rw [Prod.Lex.toLex_le_toLex, Prod.Lex.toLex_le_toLex]
  rcases lt_trichotomy a.instant b.instant with hlt | heq | hgt
  · have hclock := h a ha b hb hlt
    constructor
    · rintro (hneg | ⟨hneg, -⟩)
      · exact absurd (neg_lt_neg_iff.mp hneg) (not_lt.mpr hclock.le)
      · exact absurd (neg_inj.mp hneg) hclock.ne
    · rintro (hneg | ⟨hneg, -⟩) <;> omega
  · rw [timestamp_congr heq, heq]
    simp
  · have hclock := h b hb a ha hgt
    constructor
    · intro _
      exact .inl (by omega)
    · intro _
      exact .inl (neg_lt_neg hclock)

/-- The tables in memory and in the database hold the same. -/
structure Agree (m : InMemoryOperatorRepository) (p : PostgresOperatorRepository) : Prop where
  jobs : m.jobs = p.jobs
  reviews : m.reviews = p.reviews.mapValues ReviewRow.review
  audit : m.audit = p.auditEntries.map AuditRow.entry
  numbered : p.auditEntries.map (·.auditId) = List.range' 1 p.auditEntries.length
  receipts : ∀ key, m.receipts.get? key = p.findReceipt key
  audited : ∀ key row, p.commandReceipts.get? key = some row →
    (p.auditEntries.find? fun entry => (entry.auditId : Int) = row.auditId).isSome

/-- An operation for which memory and database do the same. -/
def Conforms (m : InMemoryOperatorRepository) : {α : Type} → OperatorOp α → Prop
  | _, .listJobs _ _ _ => ClockExact (m.jobs.values.map (·.lastChangedAt))
  | _, .openReview review =>
    m.reviews.get? review.reviewId = none ∨ m.reviews.get? review.reviewId = some review
  | _, .listAudit _ _ => (m.audit.map (·.occurredAt.instant)).Nodup ∧
    ClockExact (m.audit.map (·.occurredAt))
  | _, .storeReceipt receipt => receipt.audit ∈ m.audit ∧
    (m.receipts.get? (receipt.actorId, receipt.idempotencyKey) = none ∨
      m.receipts.get? (receipt.actorId, receipt.idempotencyKey) = some receipt)
  | _, _ => True

variable {m : InMemoryOperatorRepository} {p : PostgresOperatorRepository}

theorem agree_start (jobs : List OperatorJob) (rows : List ReviewRow) :
    Agree (.start jobs (rows.map ReviewRow.review)) (.start jobs rows) where
  jobs := rfl
  reviews := by
    have hfold : ∀ (rows : List ReviewRow) (d : Dict String ReviewRow),
        ((rows.map fun row => (row.reviewId, row)).foldl (fun d e => d.set e.1 e.2) d).mapValues
            ReviewRow.review =
          (rows.map fun row => (row.reviewId, row.review)).foldl (fun d e => d.set e.1 e.2)
            (d.mapValues ReviewRow.review) := by
      intro rows
      induction rows with
      | nil => intro d; rfl
      | cons row rows ih =>
        intro d
        rw [List.map_cons, List.foldl_cons, ih, Dict.mapValues_set]
        rfl
    have hstart := hfold rows .empty
    simp only [InMemoryOperatorRepository.start, PostgresOperatorRepository.start, Dict.ofList,
      List.map_map]
    exact hstart.symm
  audit := rfl
  numbered := rfl
  receipts key := rfl
  audited key row h := by simp [PostgresOperatorRepository.start] at h

theorem Agree.find_entry (h : Agree m p) {row : AuditRow} (hrow : row ∈ p.auditEntries) :
    p.auditEntries.find? (fun entry => (entry.auditId : Int) = row.auditId) = some row := by
  cases hfind : p.auditEntries.find? fun entry => (entry.auditId : Int) = row.auditId with
  | none => simpa using List.find?_eq_none.mp hfind row hrow
  | some found =>
    have hid : found.auditId = row.auditId := by simpa using List.find?_some hfind
    have hnodup : (p.auditEntries.map (·.auditId)).Nodup := by
      rw [h.numbered]
      exact List.nodup_range'
    rw [List.inj_on_of_nodup_map hnodup (List.mem_of_find?_eq_some hfind) hrow hid]

theorem Agree.listJobs (h : Agree m p) (status : Option JobStatus) (cursor : Option String)
    (limit : Int) (hclock : ClockExact (m.jobs.values.map (·.lastChangedAt))) :
    m.listJobs status cursor limit = p.listJobs status cursor limit := by
  unfold InMemoryOperatorRepository.listJobs PostgresOperatorRepository.listJobs
  rw [← h.jobs]
  dsimp only
  congr 1
  refine ranked_congr fun a ha b hb => ?_
  exact lex_timestamp_iff hclock (List.mem_map_of_mem (List.mem_of_mem_filter ha))
    (List.mem_map_of_mem (List.mem_of_mem_filter hb)) a.runId b.runId

theorem Agree.listReviews (h : Agree m p) (reviewType : Option String)
    (reviewStatus : Option ReviewStatus) (cursor : Option String) (limit : Int) :
    m.listReviews reviewType reviewStatus cursor limit =
      p.listReviews reviewType reviewStatus cursor limit := by
  unfold InMemoryOperatorRepository.listReviews PostgresOperatorRepository.listReviews
  rw [h.reviews, Dict.values_mapValues, List.filter_map]
  dsimp only
  congr 1
  let rank (review : OperatorReview) := toLex (review.createdAt.instant, review.reviewId)
  exact (@map_ranked _ _ _ rank _ ReviewRow.review _).symm

theorem Agree.listAudit (h : Agree m p) (cursor : Option String) (limit : Int)
    (hdistinct : (m.audit.map (·.occurredAt.instant)).Nodup)
    (hclock : ClockExact (m.audit.map (·.occurredAt))) :
    m.listAudit cursor limit = p.listAudit cursor limit := by
  unfold InMemoryOperatorRepository.listAudit PostgresOperatorRepository.listAudit
  rw [h.audit, List.map_map] at hdistinct hclock
  rw [h.audit]
  dsimp only
  congr 1
  let rank (entry : OperatorAuditEntry) := toLex (-entry.occurredAt.timestamp, entry.auditId)
  rw [← @map_ranked _ _ _ rank _ AuditRow.entry]
  congr 1
  refine ranked_congr fun a ha b hb => ?_
  have hclocks := lex_timestamp_iff hclock (List.mem_map_of_mem ha) (List.mem_map_of_mem hb)
    a.entry.auditId b.entry.auditId
  by_cases hsame : a.occurredAt.instant = b.occurredAt.instant
  · obtain rfl := List.inj_on_of_nodup_map hdistinct ha hb hsame
    simp
  · refine hclocks.trans ?_
    rw [Prod.Lex.toLex_le_toLex, Prod.Lex.toLex_le_toLex]
    simp [AuditRow.entry, hsame]

theorem Agree.startJobAttempt (h : Agree m p) (runId : String) (now : Datetime) :
    (m.startJobAttempt runId now).1 = (p.startJobAttempt runId now).1 ∧
      Agree (m.startJobAttempt runId now).2 (p.startJobAttempt runId now).2 := by
  unfold InMemoryOperatorRepository.startJobAttempt PostgresOperatorRepository.startJobAttempt
  rw [← h.jobs]
  cases m.jobs.get? runId with
  | none => exact ⟨rfl, h⟩
  | some job => exact ⟨rfl, { h with jobs := rfl }⟩

theorem Agree.resolveReview (h : Agree m p) (reviewId : String) (resolution : Dict String Json)
    (now : Datetime) :
    (m.resolveReview reviewId resolution now).1 = (p.resolveReview reviewId resolution now).1 ∧
      Agree (m.resolveReview reviewId resolution now).2
      (p.resolveReview reviewId resolution now).2 := by
  unfold InMemoryOperatorRepository.resolveReview PostgresOperatorRepository.resolveReview
  have hget : m.reviews.get? reviewId = (p.reviews.get? reviewId).map ReviewRow.review := by
    rw [h.reviews, Dict.get?_mapValues]
  rw [hget]
  cases p.reviews.get? reviewId with
  | none => exact ⟨rfl, h⟩
  | some row =>
    have hrow : row.review.resolved resolution now = ({ row with
        reviewStatus := .resolved, version := row.version + 1, resolvedAt := some now
        resolution := some resolution } : ReviewRow).review := by
      unfold OperatorReview.resolved ReviewRow.review
      cases row.resolution with
      | none => rfl
      | some earlier => simp [Dict.set_set]
    refine ⟨by simp [hrow], { h with reviews := ?_ }⟩
    simp only [Option.map_some, hrow, h.reviews, Dict.mapValues_set]

theorem Agree.openReview (h : Agree m p) {review : OperatorReview}
    (hfree : m.reviews.get? review.reviewId = none ∨
      m.reviews.get? review.reviewId = some review) :
    Agree (m.perform (.openReview review)).2 (p.openReview review) := by
  have hget : m.reviews.get? review.reviewId =
      (p.reviews.get? review.reviewId).map ReviewRow.review := by
    rw [h.reviews, Dict.get?_mapValues]
  unfold PostgresOperatorRepository.openReview
  rcases hfree with hnone | hsome
  · rw [hnone] at hget
    rw [Option.map_eq_none_iff.mp hget.symm]
    refine { h with reviews := ?_ }
    simp only [InMemoryOperatorRepository.perform, h.reviews, Dict.mapValues_set]
    rfl
  · rw [hsome] at hget
    obtain ⟨row, hrow, -⟩ := Option.map_eq_some_iff.mp hget.symm
    rw [hrow]
    refine { h with reviews := ?_ }
    simp only [InMemoryOperatorRepository.perform]
    rw [Dict.set_of_get?_eq_some _ hsome, h.reviews]

theorem Agree.appendAudit (h : Agree m p) (actorId : String) (occurredAt : Datetime)
    (action targetId reasonCode reason : String) (beforeRevision afterRevision : Option Int) :
    let op : OperatorOp OperatorAuditEntry := .appendAudit actorId occurredAt action targetId
      reasonCode reason beforeRevision afterRevision
    (m.perform op).1 = (p.perform op).1 ∧ Agree (m.perform op).2 (p.perform op).2 := by
  have hlength : m.audit.length = p.auditEntries.length := by rw [h.audit, List.length_map]
  refine ⟨?_, ?_⟩
  · simp only [InMemoryOperatorRepository.perform, PostgresOperatorRepository.perform, hlength]
    rfl
  · refine { jobs := h.jobs, reviews := h.reviews, audit := ?_, numbered := ?_, receipts := ?_,
             audited := ?_ }
    · simp only [InMemoryOperatorRepository.perform, PostgresOperatorRepository.perform,
        List.map_append]
      rw [hlength, h.audit]
      rfl
    · simp [PostgresOperatorRepository.perform, h.numbered, List.range'_1_concat, Nat.add_comm]
    · -- the receipts that are there have their entries among the earlier ones
      intro key
      rw [show (m.perform _).2.receipts.get? key = m.receipts.get? key from rfl, h.receipts key]
      simp only [PostgresOperatorRepository.findReceipt, PostgresOperatorRepository.perform]
      cases hrow : p.commandReceipts.get? key with
      | none => rfl
      | some row =>
        obtain ⟨entry, hentry⟩ := Option.isSome_iff_exists.mp (h.audited key row hrow)
        simp [List.find?_append, hentry]
    · intro key row hrow
      obtain ⟨entry, hentry⟩ := Option.isSome_iff_exists.mp (h.audited key row hrow)
      simp [PostgresOperatorRepository.perform, List.find?_append, hentry]

theorem Agree.storeReceipt (h : Agree m p) {receipt : OperatorCommandReceipt}
    (haudit : receipt.audit ∈ m.audit)
    (hfree : m.receipts.get? (receipt.actorId, receipt.idempotencyKey) = none ∨
      m.receipts.get? (receipt.actorId, receipt.idempotencyKey) = some receipt) :
    (m.perform (.storeReceipt receipt)).1 = (p.storeReceipt receipt).1 ∧
      Agree (m.perform (.storeReceipt receipt)).2 (p.storeReceipt receipt).2 := by
  rw [h.audit] at haudit
  obtain ⟨row, hrow, hentry⟩ := List.mem_map.mp haudit
  have hnumber : auditNumber receipt.audit.auditId = .ok (row.auditId : Int) := by
    rw [← hentry]
    exact auditNumber_auditId row.auditId
  have hfound := h.find_entry hrow
  unfold PostgresOperatorRepository.storeReceipt
  rw [hnumber]
  dsimp only
  rcases hfree with hnone | hsome
  · have hfreeRow : p.commandReceipts.get? (receipt.actorId, receipt.idempotencyKey) = none := by
      rw [h.receipts] at hnone
      by_contra hne
      obtain ⟨stored, hstored⟩ := Option.ne_none_iff_exists'.mp hne
      obtain ⟨entry, hfind⟩ := Option.isSome_iff_exists.mp (h.audited _ stored hstored)
      simp [PostgresOperatorRepository.findReceipt, hstored, hfind] at hnone
    rw [hfreeRow]
    refine ⟨rfl, { h with receipts := ?_, audited := ?_ }⟩
    · intro key
      simp only [InMemoryOperatorRepository.perform, PostgresOperatorRepository.findReceipt]
      rw [Dict.get?_set, Dict.get?_set]
      by_cases hkey : key = (receipt.actorId, receipt.idempotencyKey)
      · simp only [if_pos hkey, Option.bind_eq_bind, Option.bind_some, hfound, hentry]
        rfl
      · rw [if_neg hkey, if_neg hkey]
        exact h.receipts key
    · intro key stored hstored
      dsimp only at hstored
      rw [Dict.get?_set] at hstored
      split at hstored
      · cases hstored
        rw [hfound]
        rfl
      · exact h.audited key stored hstored
  · have htaken : ∃ stored,
        p.commandReceipts.get? (receipt.actorId, receipt.idempotencyKey) = some stored := by
      rw [h.receipts] at hsome
      refine Option.ne_none_iff_exists'.mp fun hnone => ?_
      simp [PostgresOperatorRepository.findReceipt, hnone] at hsome
    obtain ⟨stored, hstored⟩ := htaken
    rw [hstored]
    refine ⟨rfl, ?_⟩
    rw [show (m.perform (.storeReceipt receipt)).2 = m by
      simp [InMemoryOperatorRepository.perform, Dict.set_of_get?_eq_some _ hsome]]
    exact h

theorem Agree.perform {α : Type} (h : Agree m p) (op : OperatorOp α) (hop : Conforms m op) :
    (m.perform op).1 = (p.perform op).1 ∧ Agree (m.perform op).2 (p.perform op).2 := by
  have hreview : ∀ reviewId,
      m.reviews.get? reviewId = (p.reviews.get? reviewId).map ReviewRow.review := by
    intro reviewId
    rw [h.reviews, Dict.get?_mapValues]
  cases op with
  | listJobs status cursor limit => exact ⟨h.listJobs status cursor limit hop, h⟩
  | getJob runId => exact ⟨congrArg (·.get? runId) h.jobs, h⟩
  | startJobAttempt runId now => exact h.startJobAttempt runId now
  | listReviews reviewType reviewStatus cursor limit =>
    exact ⟨h.listReviews reviewType reviewStatus cursor limit, h⟩
  | getReview reviewId => exact ⟨hreview reviewId, h⟩
  | openReview review => exact ⟨rfl, h.openReview hop⟩
  | resolveReview reviewId resolution now => exact h.resolveReview reviewId resolution now
  | appendAudit actorId occurredAt action targetId reasonCode reason beforeRevision afterRevision =>
    exact h.appendAudit actorId occurredAt action targetId reasonCode reason beforeRevision
      afterRevision
  | listAudit cursor limit => exact ⟨h.listAudit cursor limit hop.1 hop.2, h⟩
  | findReceipt actorId idempotencyKey => exact ⟨h.receipts (actorId, idempotencyKey), h⟩
  | storeReceipt receipt => exact h.storeReceipt hop.1 hop.2

/-- An operation with the type of its result. -/
abbrev RepositoryCall : Type 1 := Σ α : Type, OperatorOp α

/-- The tables in memory after some calls. -/
def InMemoryOperatorRepository.after (m : InMemoryOperatorRepository)
    (calls : List RepositoryCall) : InMemoryOperatorRepository :=
  calls.foldl (fun m call => (m.perform call.2).2) m

/-- The tables in the database after some calls. -/
def PostgresOperatorRepository.after (p : PostgresOperatorRepository)
    (calls : List RepositoryCall) : PostgresOperatorRepository :=
  calls.foldl (fun p call => (p.perform call.2).2) p

/-- Every call of a sequence conforms. -/
def AllConform : InMemoryOperatorRepository → List RepositoryCall → Prop
  | _, [] => True
  | m, call :: calls => Conforms m call.2 ∧ AllConform (m.perform call.2).2 calls

theorem Agree.after {calls : List RepositoryCall} (h : Agree m p) (hcalls : AllConform m calls) :
    Agree (m.after calls) (p.after calls) := by
  induction calls generalizing m p with
  | nil => exact h
  | cons call calls ih => exact ih (h.perform call.2 hcalls.1).2 hcalls.2

theorem allConform_append {earlier later : List RepositoryCall} :
    AllConform m (earlier ++ later) ↔ AllConform m earlier ∧ AllConform
      (m.after earlier) later := by
  induction earlier generalizing m with
  | nil => simp [AllConform, InMemoryOperatorRepository.after]
  | cons call earlier ih =>
    rw [List.cons_append, AllConform, AllConform, ih, and_assoc]
    rfl

/-- From the same jobs and reviews, and as long as every call conforms, memory and database answer
every call alike. -/
theorem run_answers_agree (jobs : List OperatorJob) (rows : List ReviewRow)
    (calls : List RepositoryCall)
    (hcalls : AllConform (.start jobs (rows.map ReviewRow.review)) calls) :
    ∀ earlier call later, calls = earlier ++ call :: later →
      (((InMemoryOperatorRepository.start jobs (rows.map ReviewRow.review)).after earlier).perform
        call.2).1 = (((PostgresOperatorRepository.start jobs rows).after earlier).perform
        call.2).1 := by
  rintro earlier call later rfl
  obtain ⟨hearlier, hcall, -⟩ := allConform_append.mp hcalls
  exact (((agree_start jobs rows).after hearlier).perform call.2 hcall).1

/-- Half past three on a trading day. -/
def afterClose : Datetime := (Date.august 3).seoul 15 30

/-- Write a retry into the audit. -/
def auditRetry (targetId : String) : RepositoryCall :=
  ⟨_, .appendAudit "operator-1" afterClose "RETRY_JOB" targetId "MANUAL" "다시 실행" (some 1) (some 2)⟩

/-- The receipt of the first retry. -/
def retryReceipt (fingerprint : String) : OperatorCommandReceipt where
  actorId := "operator-1"
  idempotencyKey := "key-1"
  fingerprint := fingerprint
  audit := ⟨auditId 1, "operator-1", afterClose, "RETRY_JOB", "run-1", "MANUAL", "다시 실행",
    some 1, some 2⟩

/-- An entry of the audit with its receipt is listed alike. -/
theorem run_answers_agree_retry :
    ((((InMemoryOperatorRepository.start [] []).after
        [auditRetry "run-1", ⟨_, .storeReceipt (retryReceipt "f")⟩]).perform
        (.listAudit none 20)).1) =
      (((PostgresOperatorRepository.start [] []).after
        [auditRetry "run-1", ⟨_, .storeReceipt (retryReceipt "f")⟩]).perform
        (.listAudit none 20)).1 :=
  run_answers_agree [] []
    [auditRetry "run-1", ⟨_, .storeReceipt (retryReceipt "f")⟩, ⟨_, .listAudit none 20⟩]
    ⟨trivial, ⟨List.mem_singleton.mpr rfl, .inl rfl⟩,
      ⟨List.nodup_singleton _, clockExact_singleton afterClose⟩, trivial⟩
    [auditRetry "run-1", ⟨_, .storeReceipt (retryReceipt "f")⟩] ⟨_, .listAudit none 20⟩ [] rfl

/-- Two entries of one time are listed in opposite orders. -/
theorem run_answers_differ :
    ¬ ∀ (jobs : List OperatorJob) (rows : List ReviewRow) (calls : List RepositoryCall),
      ∀ earlier call later, calls = earlier ++ call :: later →
        (((InMemoryOperatorRepository.start jobs (rows.map ReviewRow.review)).after earlier).perform
          call.2).1 = (((PostgresOperatorRepository.start jobs rows).after earlier).perform
          call.2).1 := by
  intro hall
  have hlisted := hall [] [] [auditRetry "run-1", auditRetry "run-2", ⟨_, .listAudit none 20⟩]
    [auditRetry "run-1", auditRetry "run-2"] ⟨_, .listAudit none 20⟩ [] rfl
  have hitems := congrArg (fun page : Except Error (OperatorPage OperatorAuditEntry) =>
    page.map fun page => page.items.map (·.auditId)) hlisted
  revert hitems
  decide +kernel

end Dayjaview.Operator
