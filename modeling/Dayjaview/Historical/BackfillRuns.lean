import Dayjaview.Historical.BackfillSteps

/-!
# Attempts at a backfill

An attempt stores some of the first answers that are missing, and all of them up to the
one that ends the run if it reports an end. Several attempts end as one does if the last
of them counts enough empty answers itself.
-/

namespace Dayjaview.Historical

open Program

theorem market_nodup : MARKETS.Nodup := by decide

theorem mem_daySlots {day : Date} {slot : Slot} {markets : List Market}
    (h : slot ∈ daySlots day markets) : slot.marketDate = day ∧ slot.market ∈ markets := by
  induction markets with
  | nil => simp [daySlots] at h
  | cons market markets ih =>
    unfold daySlots at h
    split at h
    · exact ⟨(ih h).1, List.mem_cons_of_mem _ (ih h).2⟩
    · rcases List.mem_cons.mp h with rfl | h
      · exact ⟨rfl, List.mem_cons_self⟩
      · exact ⟨(ih h).1, List.mem_cons_of_mem _ (ih h).2⟩

theorem daySlots_nodup (day : Date) {markets : List Market} (h : markets.Nodup) :
    (daySlots day markets).Nodup := by
  induction markets with
  | nil => exact List.nodup_nil
  | cons market markets ih =>
    obtain ⟨hnew, hnodup⟩ := List.nodup_cons.mp h
    unfold daySlots
    split
    · exact ih hnodup
    · exact List.nodup_cons.mpr ⟨fun hmem => hnew (mem_daySlots hmem).2, ih hnodup⟩

theorem mem_slotsOf {slot : Slot} {days : List Date} (h : slot ∈ slotsOf days) :
    slot.marketDate ∈ days := by
  induction days with
  | nil => simp [slotsOf] at h
  | cons day days ih =>
    rcases List.mem_append.mp h with h | h
    · split at h
      · simp at h
      · rw [(mem_daySlots h).1]
        exact List.mem_cons_self
    · exact List.mem_cons_of_mem _ (ih h)

theorem slotsOf_nodup {days : List Date} (h : days.Nodup) : (slotsOf days).Nodup := by
  induction days with
  | nil => exact List.nodup_nil
  | cons day days ih =>
    obtain ⟨hnew, hnodup⟩ := List.nodup_cons.mp h
    refine List.nodup_append.mpr ⟨?_, ih hnodup, ?_⟩
    · split
      · exact List.nodup_nil
      · exact daySlots_nodup day market_nodup
    · rintro slot hslot _ hmem rfl
      split at hslot
      · simp at hslot
      · rw [← (mem_daySlots hslot).1] at hnew
        exact hnew (mem_slotsOf hmem)

theorem days_nodup (b : Backfill) : b.days.Nodup := by
  refine List.Nodup.filterMap ?_ List.nodup_range
  intro n m day hn hm
  have hfirst := Date.toOrdinal_later hn
  have hsecond := Date.toOrdinal_later hm
  omega

/-- The slots of a task, in the order of the requests. -/
def BackfillTask.slots (t : BackfillTask) : List Slot :=
  slotsOf (Backfill.days ⟨t.startDate, t.endDate, 1, 1⟩)

theorem BackfillTask.slots_nodup (t : BackfillTask) : t.slots.Nodup := slotsOf_nodup (days_nodup _)

/-- The slots of a task without a file. -/
def BackfillTask.missing (t : BackfillTask) (files : Files) : List Slot := absent files t.slots

/-- What is reported of an outcome of a task. -/
def BackfillTask.ends (t : BackfillTask) : Outcome → Option (BackfillStatus × Option StopReason)
  | .complete => if t.startDate ≤ t.endDate ∧ t.endDate.tomorrow.isSome then some (.complete, none)
    else none
  | outcome => outcome.verdict

/-- How the requests of an attempt ended: some are stored, and nothing else is said of a run that
was cut short. -/
def BodyEnded (b : Backfill) (around : Surroundings) (files : Files) (missing : List Slot)
    (result : Except Error Unit) (s : Process) : Prop :=
  ∃ k, k ≤ (settle around.source [] missing).1 ∧
    Stored around.source files (missing.take k) s.files ∧
    match result with
    | .ok () => CutShort b around k s.progress ∨ k = (settle around.source [] missing).1 ∧
      BackfillTask.ends ⟨around.source, b.startDate, b.endDate⟩
      (settle around.source [] missing).2 =
        some (s.progress.status, s.progress.reason)
    | .error _ => 0 < b.maxCalls → k = (settle around.source [] missing).1 ∧
      BackfillTask.ends ⟨around.source, b.startDate, b.endDate⟩
        (settle around.source [] missing).2 = none

theorem contract_body (b : Backfill) (around : Surroundings) (files : Files) :
    b.body.Contract (backfillHandler around)
      (Reached around files [] (absent files (slotsOf b.days)))
      (BodyEnded b around files (absent files (slotsOf b.days)))
      ⟨files, .start b.startDate, 0, 0⟩ := by
  have hready : Ready around files [] ⟨files, .start b.startDate, 0, 0⟩ :=
    ⟨.refl, rfl, fun market => rfl, rfl, rfl⟩
  have hstart : Reached around files [] (absent files (slotsOf b.days))
      ⟨files, .start b.startDate, 0, 0⟩ := hready.stored.reached
  unfold Backfill.body
  cases hcheck : b.check with
  | error e =>
    rw [ofExcept_error_bind]
    refine Contract.raise hstart ⟨0, Nat.zero_le _, by simpa using hready.stored, ?_⟩
    intro hcalls
    have hlate : ¬ b.startDate ≤ b.endDate := by
      intro hle
      simp only [Backfill.check, ensure, hle, hcalls, if_true] at hcheck
      cases hcheck
    have hnone : b.days = [] := by
      have hzero : b.endDate.toOrdinal + 1 - b.startDate.toOrdinal = 0 := by
        rw [← Date.toOrdinal_le_iff] at hlate
        omega
      simp [Backfill.days, hzero]
    simp [hnone, slotsOf, absent, settle, BackfillTask.ends, hlate]
  | ok _ =>
    have hdates : b.startDate ≤ b.endDate := by
      by_contra hlate
      simp [Backfill.check, ensure, hlate] at hcheck
    rw [ofExcept_ok_bind]
    refine (collects_collectDays b around files b.days [] _ (slotsOf_nodup (days_nodup b))
      (fun _ _ => List.not_mem_nil) hready).bind ?_ ?_
    · rintro stopped s hs
      cases stopped with
      | true =>
        obtain ⟨k, hk, hstored, hended⟩ := hs
        refine Contract.pure ⟨k, hk, hstored⟩ ⟨k, hk, hstored, ?_⟩
        rcases hended with hcut | ⟨heq, hne, hverdict⟩
        · rw [List.length_nil, Nat.zero_add] at hcut
          exact .inl hcut
        · refine .inr ⟨heq, ?_⟩
          rw [← hverdict]
          unfold BackfillTask.ends
          split
          · rename_i hcomplete
            exact absurd hcomplete hne
          · rfl
      | false =>
        obtain ⟨hcomplete, hs⟩ := hs
        have hsettle := settle_eq_of_complete hcomplete
        have hstored : Stored around.source files
            ((absent files (slotsOf b.days)).take (absent files (slotsOf b.days)).length)
            s.files := by
          rw [List.take_length]
          exact hs.stored
        have hle : (absent files (slotsOf b.days)).length ≤
            (settle around.source [] (absent files (slotsOf b.days))).1 := by rw [hsettle]
        split
        · rename_i hlast
          have hnone : b.endDate.tomorrow = none := by simpa using hlast
          refine Contract.raise ⟨_, hle, hstored⟩ ⟨_, hle, hstored, fun _ => ?_⟩
          rw [hsettle]
          refine ⟨rfl, if_neg ?_⟩
          rintro ⟨-, hsome⟩
          rw [hnone] at hsome
          cases hsome
        · rename_i hlast
          have hsome : b.endDate.tomorrow.isSome = true := by
            simpa [Option.isSome_iff_ne_none] using hlast
          refine Contract.pure ⟨_, hle, hstored⟩ ⟨_, hle, hstored, .inr ?_⟩
          rw [hsettle, hs.status, hs.reason]
          exact ⟨rfl, if_pos ⟨hdates, hsome⟩⟩
    · rintro e s ⟨hraised, hstored⟩
      refine ⟨_, Nat.le_refl _, hstored, fun _ => ⟨rfl, ?_⟩⟩
      rw [hraised]
      rfl

theorem contract_conclude (b : Backfill) (around : Surroundings) (s : Process) :
    b.conclude.Contract (backfillHandler around) (Kept s) (fun result t => Kept s t ∧
      ∃ report, result = .ok report ∧ report.status = s.progress.status ∧
        report.reason = s.progress.reason) s := by
  refine Contract.call_bind Kept.refl (Contract.call_bind Kept.refl ?_)
  refine Contract.bind (contract_writeStatus true (Kept.mk (fun _ => rfl) rfl rfl rfl rfl)) ?_ ?_
  · rintro - t ⟨-, ht⟩
    exact Contract.pure ht ⟨ht, _, rfl, rfl, rfl⟩
  · rintro e t ⟨he, -⟩
    cases he

section Attempt

variable (t : BackfillTask) (a : Attempt) (files : Files)

/-- The arguments of an attempt. -/
def BackfillTask.backfill : Backfill := ⟨t.startDate, t.endDate, a.maxCalls, a.statusEveryCalls⟩

def BackfillTask.around : Surroundings := ⟨t.source, a.outage, a.clock⟩

/-- The process of an attempt at its start. -/
def BackfillTask.begin : Process := ⟨files, .start t.startDate, 0, 0⟩

theorem attempt_eq : t.attempt a files =
    match a.requests (t.backfill a) (t.around a) (t.begin files) with
    | (.error _, s) => (none, s.files)
    | (.ok (), s) =>
      match a.report (t.backfill a) (t.around a) s with
      | (.error _, s) => (none, s.files)
      | (.ok report, s) => (some report, s.files) := rfl

/-- Some of the first missing answers are stored, and all that the source has if the run ended. -/
def RequestsEnded (result : Except Error Unit) (s : Process) : Prop :=
  ∃ k, k ≤ (settle t.source [] (t.missing files)).1 ∧
    Stored t.source files ((t.missing files).take k) s.files ∧
    (result = .ok () → s.progress.status = .stopped ∨
      k = (settle t.source [] (t.missing files)).1 ∧
        t.ends (settle t.source [] (t.missing files)).2 =
        some (s.progress.status, s.progress.reason))

theorem requests_spec : RequestsEnded t files
    (a.requests (t.backfill a) (t.around a) (t.begin files)).1
    (a.requests (t.backfill a) (t.around a) (t.begin files)).2 := by
  have hbody := contract_body (t.backfill a) (t.around a) files
  have hfinal : ∀ result s, BodyEnded (t.backfill a) (t.around a) files (t.missing files) result s →
      RequestsEnded t files result s := by
    rintro result s ⟨k, hk, hstored, hresult⟩
    refine ⟨k, hk, hstored, ?_⟩
    rintro rfl
    exact hresult.imp_left And.left
  have hcut : ∀ e operation, RequestsEnded t files
      ((t.backfill a).body.finishUntil (backfillHandler (t.around a)) e operation (t.begin files)).1
      ((t.backfill a).body.finishUntil (backfillHandler (t.around a)) e operation
        (t.begin files)).2 := by
    intro e operation
    rcases hbody.finishUntil e operation with ⟨hresult, k, hk, hstored⟩ | hended
    · refine ⟨k, hk, hstored, fun hok => ?_⟩
      exact absurd (hresult.symm.trans hok) (by simp)
    · exact hfinal _ _ hended
  unfold Attempt.requests
  cases a.cut with
  | none => exact hfinal _ _ hbody.final
  | some cut =>
    cases cut with
    | crash operation => exact hcut crashed operation
    | keyboard operation =>
      have hended := hcut ⟨.keyboardInterrupt, ""⟩ operation
      simp only
      rcases hrun : (t.backfill a).body.finishUntil (backfillHandler (t.around a))
        ⟨.keyboardInterrupt, ""⟩ operation (t.begin files) with ⟨e | _, s⟩
      · rw [hrun] at hended
        obtain ⟨k, hk, hstored, -⟩ := hended
        dsimp only
        split
        · exact ⟨k, hk, hstored, fun _ => .inl rfl⟩
        · exact ⟨k, hk, hstored, fun hok => absurd hok (by simp)⟩
      · rw [hrun] at hended
        exact hended

/-- An attempt stores some of the first missing answers, and all that the source has if it reports
an end. -/
theorem attempt_spec : ∃ k, k ≤ (settle t.source [] (t.missing files)).1 ∧
    Stored t.source files ((t.missing files).take k) (t.attempt a files).2 ∧
    ∀ report, (t.attempt a files).1 = some report → report.status ≠ .stopped →
      k = (settle t.source [] (t.missing files)).1 ∧
        t.ends (settle t.source [] (t.missing files)).2 = some (report.status, report.reason) := by
  obtain ⟨k, hk, hstored, hended⟩ := requests_spec t a files
  rw [attempt_eq]
  rcases hrequests : a.requests (t.backfill a) (t.around a) (t.begin files) with ⟨e | _, s⟩
  · rw [hrequests] at hstored
    exact ⟨k, hk, hstored, fun report hreport => by simp at hreport⟩
  · rw [hrequests] at hstored hended
    have hconclude := contract_conclude (t.backfill a) (t.around a) s
    have hkept : Kept s (a.report (t.backfill a) (t.around a) s).2 := by
      unfold Attempt.report
      cases a.finalCut with
      | none => exact hconclude.final.1
      | some operation => exact hconclude.along.finishUntil crashed operation
    have hreported : ∀ report, (a.report (t.backfill a) (t.around a) s).1 = .ok report →
        report.status = s.progress.status ∧ report.reason = s.progress.reason := by
      intro report hok
      have hfinal : Kept s (a.report (t.backfill a) (t.around a) s).2 ∧ ∃ report',
          (a.report (t.backfill a) (t.around a) s).1 = .ok report' ∧
            report'.status = s.progress.status ∧ report'.reason = s.progress.reason := by
        unfold Attempt.report at hok ⊢
        cases hcut : a.finalCut with
        | none => exact hconclude.final
        | some operation =>
          rw [hcut] at hok
          rcases hconclude.finishUntil crashed operation with ⟨hcrashed, -⟩ | hfinal
          · rw [hcrashed] at hok
            cases hok
          · exact hfinal
      obtain ⟨-, report', hok', hstatus, hreason⟩ := hfinal
      obtain rfl := Except.ok.inj (hok'.symm.trans hok)
      exact ⟨hstatus, hreason⟩
    refine ⟨k, hk, ?_, ?_⟩
    · simp only
      rcases hreport : a.report (t.backfill a) (t.around a) s with ⟨e | report, u⟩
      · rw [hreport] at hkept
        exact hstored.congr hkept.files
      · rw [hreport] at hkept
        exact hstored.congr hkept.files
    · intro report hreport hstatus
      simp only at hreport
      rcases hrun : a.report (t.backfill a) (t.around a) s with ⟨e | report', u⟩
      · rw [hrun] at hreport
        cases hreport
      · rw [hrun] at hreport hreported
        obtain rfl := Option.some.inj hreport
        obtain ⟨hstatus', hreason'⟩ := hreported report' rfl
        rw [hstatus', hreason']
        refine (hended rfl).resolve_left fun hstopped => hstatus ?_
        rw [hstatus', hstopped]

/-- Nothing cuts an attempt off. -/
structure BackfillTask.Uninterrupted : Prop where
  cut : a.cut = none
  finalCut : a.finalCut = none
  network : ∀ i, a.outage i = false
  calls : t.slots.length < a.maxCalls

theorem uninterrupted_spec (h : t.Uninterrupted a) :
    Stored t.source files ((t.missing files).take (settle t.source [] (t.missing files)).1)
      (t.attempt a files).2 ∧
    (t.attempt a files).1.map (fun report => (report.status, report.reason)) =
      t.ends (settle t.source [] (t.missing files)).2 := by
  have hbody := (contract_body (t.backfill a) (t.around a) files).final
  have hcalls : 0 < a.maxCalls := by
    have hslots := h.calls
    omega
  have hrequests : a.requests (t.backfill a) (t.around a) (t.begin files) =
      (t.backfill a).body.finish (backfillHandler (t.around a)) (t.begin files) := by
    unfold Attempt.requests
    rw [h.cut]
  rw [attempt_eq, hrequests]
  rcases hrun : (t.backfill a).body.finish (backfillHandler (t.around a)) (t.begin files) with
      ⟨e | _, s⟩
  · have hended : BodyEnded (t.backfill a) (t.around a) files (t.missing files) (.error e) s := by
      have hsame := hbody
      rw [show (⟨files, .start (t.backfill a).startDate, 0, 0⟩ : Process) = t.begin files from rfl,
        hrun] at hsame
      exact hsame
    obtain ⟨k, -, hstored, hresult⟩ := hended
    obtain ⟨hk, hends⟩ := hresult hcalls
    rw [hk] at hstored
    exact ⟨hstored, hends.symm⟩
  · have hended : BodyEnded (t.backfill a) (t.around a) files (t.missing files) (.ok ()) s := by
      have hsame := hbody
      rw [show (⟨files, .start (t.backfill a).startDate, 0, 0⟩ : Process) = t.begin files from rfl,
        hrun] at hsame
      exact hsame
    obtain ⟨k, hk, hstored, hresult⟩ := hended
    have hnever : ¬ CutShort (t.backfill a) (t.around a) k s.progress := by
      rintro ⟨-, hbudget | ⟨i, hout⟩⟩
      · have hlength : (t.missing files).length ≤ t.slots.length := List.length_filter_le _ _
        have hsettle := settle_fst_le t.source [] (t.missing files)
        have hslots := h.calls
        have hbudget : a.maxCalls ≤ k := hbudget
        have hk : k ≤ (settle t.source [] (t.missing files)).1 := hk
        omega
      · have hnone := h.network i
        have hout : a.outage i = true := hout
        rw [hnone] at hout
        cases hout
    obtain ⟨hk, hends⟩ := hresult.resolve_left hnever
    obtain ⟨hkept, report, hreport, hstatus, hreason⟩ :=
      (contract_conclude (t.backfill a) (t.around a) s).final
    have hlast : a.report (t.backfill a) (t.around a) s =
        (t.backfill a).conclude.finish (backfillHandler (t.around a)) s := by
      unfold Attempt.report
      rw [h.finalCut]
    rw [hk] at hstored
    simp only [hlast]
    rcases hconclude :
        (t.backfill a).conclude.finish (backfillHandler (t.around a)) s with ⟨e | report', u⟩
    · rw [hconclude] at hreport
      cases hreport
    · rw [hconclude] at hreport hkept
      cases hreport
      refine ⟨hstored.congr hkept.files, ?_⟩
      rw [Option.map_some, hstatus, hreason]
      exact hends.symm

end Attempt

section Attempts

variable {t : BackfillTask} {files before : Files}

theorem attempts_spec (t : BackfillTask) (as : List Attempt) (files : Files) :
    ∃ k, k ≤ (t.missing files).length ∧
      Stored t.source files ((t.missing files).take k) (t.attempts as files) ∧
      ∀ slot ∈ (t.missing files).take k, (t.source slot).payload?.isSome = true := by
  induction as generalizing files with
  | nil => exact ⟨0, Nat.zero_le _, .refl, by simp⟩
  | cons a as ih =>
    obtain ⟨k, hk, hstored, -⟩ := attempt_spec t a files
    obtain ⟨l, hl, hstored', hanswered⟩ := ih (t.attempt a files).2
    have hlength := hk.trans (settle_fst_le t.source [] (t.missing files))
    have hmissing : t.missing (t.attempt a files).2 = (t.missing files).drop k :=
      absent_slots_of_stored t.slots_nodup hstored
    rw [hmissing] at hl hstored' hanswered
    rw [List.length_drop] at hl
    refine ⟨k + l, by omega, ?_, ?_⟩
    · rw [List.take_add]
      exact hstored.trans hstored'
    · intro slot hslot
      rw [List.take_add, List.mem_append] at hslot
      rcases hslot with hslot | hslot
      · exact isSome_payload_of_mem_take hk hslot
      · exact hanswered slot hslot

/-- The same is stored for every slot. -/
def SameStored (files files' : Files) : Prop := ∀ slot, storedAt files slot = storedAt files' slot

theorem sameStored_iff {k l : Nat} {now now' : Files} (hk : k ≤ (t.missing files).length)
    (hl : l ≤ (t.missing files).length)
    (h : Stored t.source files ((t.missing files).take k) now)
    (h' : Stored t.source files ((t.missing files).take l) now') : SameStored now now' ↔ k = l := by
  constructor
  · intro hsame
    have hmissing : absent now t.slots = absent now' t.slots := by
      refine List.filter_congr fun slot _ => ?_
      have hslot := congrArg Option.isNone (hsame slot)
      simpa [storedAt] using hslot
    rw [absent_slots_of_stored t.slots_nodup h, absent_slots_of_stored t.slots_nodup h'] at hmissing
    have hlength := congrArg List.length hmissing
    rw [List.length_drop, List.length_drop] at hlength
    have hsame : absent files t.slots = t.missing files := rfl
    rw [hsame] at hlength
    omega
  · rintro rfl slot
    rw [h slot, h' slot]

/-- A run in parts ends as a run in one go. -/
structure BackfillTask.Transparent (t : BackfillTask) (files : Files) (whole : Attempt)
    (report : BackfillReport) (after : Files) : Prop where
  stored : SameStored after (t.attempt whole files).2
  reported : (t.attempt whole files).1.map (fun report => (report.status, report.reason)) =
    some (report.status, report.reason)
  unavailable : report.reason = some .dataUnavailable ↔ ∃ made slot rest,
    t.missing files = made ++ slot :: rest ∧ Quiet t.source made ∧ Served t.source slot ∧
      EMPTY_STREAK_LIMIT ≤ emptyStreak t.source slot.market (made ++ [slot])

/-- At the first answer that ends the run the rows can be counted, and if it is one empty answer too
many, those that were missing before the last attempt are too many already. -/
def BackfillTask.CountsAnew (t : BackfillTask) (files before : Files) : Prop :=
  ∀ made slot rest fields, t.missing files = made ++ slot :: rest → Quiet t.source made →
    t.source slot = .payload fields →
      (∃ rows, rowCount fields = .ok rows) ∧
      (EMPTY_STREAK_LIMIT ≤ emptyStreak t.source slot.market (made ++ [slot]) →
        EMPTY_STREAK_LIMIT ≤ emptyStreak t.source slot.market (absent before (made ++ [slot])))

theorem ends_of_ne {o : Outcome} (h : o ≠ .complete) : t.ends o = o.verdict := by
  unfold BackfillTask.ends
  split
  · exact absurd rfl h
  · rfl

theorem reason_unavailable_iff {o : Outcome} {status : BackfillStatus} {reason : Option StopReason}
    (h : t.ends o = some (status, reason)) : reason = some .dataUnavailable ↔ o = .unavailable := by
  cases o with
  | complete =>
    unfold BackfillTask.ends at h
    split at h
    · split at h
      · cases h
        simp
      · cases h
    · rename_i hne
      exact absurd rfl hne
  | transport | refused | unavailable | raised =>
    rw [ends_of_ne (by simp)] at h
    cases h
    try simp

variable {j : Nat}

theorem ends_of_reported {last : Attempt} {report : BackfillReport}
    (hbefore : Stored t.source files ((t.missing files).take j) before)
    (hlast : (t.attempt last before).1 = some report) (hended : report.status ≠ .stopped) :
    Stored t.source before (((t.missing files).drop j).take
        (settle t.source [] ((t.missing files).drop j)).1) (t.attempt last before).2 ∧
      t.ends (settle t.source [] ((t.missing files).drop j)).2 =
        some (report.status, report.reason) := by
  have hmissing : t.missing before = (t.missing files).drop j :=
    absent_slots_of_stored t.slots_nodup hbefore
  obtain ⟨k, -, hstored, hreported⟩ := attempt_spec t last before
  obtain ⟨rfl, hends⟩ := hreported report hlast hended
  rw [hmissing] at hstored hends
  exact ⟨hstored, hends⟩

theorem transparent_iff {last whole : Attempt} {report : BackfillReport}
    (hwhole : t.Uninterrupted whole) (hj : j ≤ (t.missing files).length)
    (hbefore : Stored t.source files ((t.missing files).take j) before)
    (hlast : (t.attempt last before).1 = some report) (hended : report.status ≠ .stopped) :
    t.Transparent files whole report (t.attempt last before).2 ↔
      (j + (settle t.source [] ((t.missing files).drop j)).1 =
        (settle t.source [] (t.missing files)).1 ∧ t.ends (settle t.source [] (t.missing files)).2 =
          t.ends (settle t.source [] ((t.missing files).drop j)).2) ∧
      ((settle t.source [] ((t.missing files).drop j)).2 = .unavailable ↔ ∃ made slot rest,
        t.missing files = made ++ slot :: rest ∧ Quiet t.source made ∧ Served t.source slot ∧
          EMPTY_STREAK_LIMIT ≤ emptyStreak t.source slot.market (made ++ [slot])) := by
  obtain ⟨hstored, hends⟩ := ends_of_reported hbefore hlast hended
  obtain ⟨hstored', hends'⟩ := uninterrupted_spec t whole files hwhole
  have hafter := hbefore.trans hstored
  rw [← List.take_add] at hafter
  have hlength := settle_fst_le t.source [] ((t.missing files).drop j)
  rw [List.length_drop] at hlength
  have hsame := sameStored_iff (by omega) (settle_fst_le t.source [] (t.missing files)) hafter
    hstored'
  constructor
  · rintro ⟨hfiles, hreport, hunavailable⟩
    rw [hends', ← hends] at hreport
    exact ⟨⟨hsame.mp hfiles, hreport⟩, by rwa [← reason_unavailable_iff hends]⟩
  · rintro ⟨⟨hfiles, hreport⟩, hunavailable⟩
    refine ⟨hsame.mpr hfiles, ?_, by rwa [reason_unavailable_iff hends]⟩
    rw [hends', hreport, hends]

theorem countsAnew_iff {made rest : List Slot} {slot : Slot} {ended : Nat × Outcome}
    (hmissing : t.missing files = made ++ slot :: rest) (hquiet : Quiet t.source made)
    (hhalt : halt t.source made slot = some ended) :
    t.CountsAnew files before ↔ ∀ fields, t.source slot = .payload fields →
      (∃ rows, rowCount fields = .ok rows) ∧
        EMPTY_STREAK_LIMIT ≤ emptyStreak t.source slot.market (absent before (made ++ [slot])) := by
  constructor
  · intro h fields hanswer
    obtain ⟨⟨rows, hrows⟩, hlimit⟩ := h made slot rest fields hmissing hquiet hanswer
    refine ⟨⟨rows, hrows⟩, hlimit ?_⟩
    by_contra hstreak
    have hnone := halt_eq_none_iff.mpr ⟨⟨fields, rows, hanswer, hrows⟩, Nat.not_le.mp hstreak⟩
    rw [hnone] at hhalt
    cases hhalt
  · intro h made' slot' rest' fields hmissing' hquiet' hanswer
    rcases halt_unique hhalt hquiet' (hmissing.symm.trans hmissing') hquiet with hnone | ⟨rfl, rfl⟩
    · obtain ⟨⟨fields', rows, hanswer', hrows⟩, hstreak⟩ := halt_eq_none_iff.mp hnone
      obtain rfl := SourceAnswer.payload.inj (hanswer.symm.trans hanswer')
      exact ⟨⟨rows, hrows⟩, fun hlimit => absurd hlimit (Nat.not_le.mpr hstreak)⟩
    · obtain ⟨hrows, hlimit⟩ := h fields hanswer
      exact ⟨hrows, fun _ => hlimit⟩

theorem unavailable_iff {made rest : List Slot} {slot : Slot} {ended : Nat × Outcome}
    (hmissing : t.missing files = made ++ slot :: rest) (hquiet : Quiet t.source made)
    (hhalt : halt t.source made slot = some ended) :
    (∃ made slot rest, t.missing files = made ++ slot :: rest ∧ Quiet t.source made ∧
      Served t.source slot ∧ EMPTY_STREAK_LIMIT ≤ emptyStreak t.source slot.market
      (made ++ [slot])) ↔
    ended.2 = .unavailable := by
  constructor
  · rintro ⟨made', slot', rest', hmissing', hquiet', hserved, hlimit⟩
    rcases halt_unique hhalt hquiet' (hmissing.symm.trans hmissing') hquiet with hnone | ⟨rfl, rfl⟩
    · exact absurd hlimit (Nat.not_le.mpr (halt_eq_none_iff.mp hnone).2)
    · rcases halt_cases hhalt with ⟨fields, e, hanswer, hrows, -⟩ | ⟨-, -, rfl⟩ | ⟨hnone, -⟩
      · obtain ⟨fields', rows, hanswer', hrows'⟩ := hserved
        obtain rfl := SourceAnswer.payload.inj (hanswer.symm.trans hanswer')
        rw [hrows] at hrows'
        cases hrows'
      · rfl
      · obtain ⟨fields', rows, hanswer', hrows'⟩ := hserved
        rw [hanswer'] at hnone
        cases hnone
  · intro hended
    rcases halt_cases hhalt with ⟨_, _, _, _, rfl⟩ | ⟨hserved, hlimit, -⟩ | ⟨-, -, -, hne, -⟩
    · cases hended
    · exact ⟨made, slot, rest, hmissing, hquiet, hserved, hlimit⟩
    · exact absurd hended hne

/-- Attempts that end as a run in one go when the last of them comes to the answer that ends the run
and counts it as the run does. -/
theorem transparent_iff_countsAnew {last whole : Attempt} {report : BackfillReport}
    (hwhole : t.Uninterrupted whole) (hj : j ≤ (t.missing files).length)
    (hbefore : Stored t.source files ((t.missing files).take j) before)
    (hanswered : ∀ slot ∈ (t.missing files).take j, (t.source slot).payload?.isSome = true)
    (hlast : (t.attempt last before).1 = some report) (hended : report.status ≠ .stopped) :
    t.Transparent files whole report (t.attempt last before).2 ↔ t.CountsAnew files before := by
  rw [transparent_iff hwhole hj hbefore hlast hended]
  have habsent : ∀ first last, t.missing files = first ++ last → absent before first =
      first.drop j :=
    fun first last hfirst => absent_of_stored t.slots_nodup hfirst hbefore
  rcases quiet_or_halt t.source (t.missing files) with hquiet |
    ⟨made, slot, rest, ended, hmissing, hquiet, hhalt, hsettle⟩
  · -- no answer ends the run
    have hdrop := hquiet.drop j
    have hnone : ∀ made slot rest, t.missing files = made ++ slot :: rest →
        emptyStreak t.source slot.market (made ++ [slot]) < EMPTY_STREAK_LIMIT :=
      fun made slot rest h => (hquiet made slot rest h).2
    rw [hquiet.settle_eq, hdrop.settle_eq, List.length_drop]
    constructor
    · intro _ made slot rest fields hrest _ hanswer
      obtain ⟨⟨fields', rows, hanswer', hrows⟩, hstreak⟩ := hquiet made slot rest hrest
      obtain rfl := SourceAnswer.payload.inj (hanswer.symm.trans hanswer')
      exact ⟨⟨rows, hrows⟩, fun hlimit => absurd hlimit (Nat.not_le.mpr hstreak)⟩
    · intro _
      refine ⟨⟨by show j + ((t.missing files).length - j) = _; omega, rfl⟩, ?_⟩
      constructor
      · rintro ⟨⟩
      · rintro ⟨made, slot, rest, hrest, -, -, hlimit⟩
        exact absurd hlimit (Nat.not_le.mpr (hnone made slot rest hrest))
  · -- the answer for a slot is the first one to end the run
    rw [countsAnew_iff hmissing hquiet hhalt, unavailable_iff hmissing hquiet hhalt,
      habsent (made ++ [slot]) rest (by simpa using hmissing), hsettle]
    rcases halt_cases hhalt with ⟨fields, e, hanswer, hrows, rfl⟩ | ⟨hserved, hlimit, rfl⟩ |
      ⟨hnone, hzero, hne, hne', hall⟩
    · -- its rows cannot be counted, and a run in one go reports nothing
      constructor
      · rintro ⟨⟨-, hends⟩, -⟩
        rw [(ends_of_reported hbefore hlast hended).2] at hends
        cases hends
      · intro h
        obtain ⟨⟨rows, hrows'⟩, -⟩ := h fields hanswer
        rw [hrows] at hrows'
        cases hrows'
    · -- it is one empty answer too many, and the last attempt has to count as far as that
      obtain ⟨fields, rows, hanswer, hrows⟩ := hserved
      have hdrop := hquiet.drop j
      constructor
      · rintro ⟨⟨hcount, -⟩, hfound⟩ fields' hanswer'
        obtain rfl := SourceAnswer.payload.inj (hanswer.symm.trans hanswer')
        refine ⟨⟨rows, hrows⟩, ?_⟩
        have hpos := settle_fst_pos (hfound.mpr rfl)
        have hle : j ≤ made.length := by
          have hcount : j + (settle t.source [] ((t.missing files).drop j)).1 = made.length +
              1 := hcount
          omega
        rw [List.drop_append_of_le_length hle]
        by_contra hstreak
        have hgoes := halt_eq_none_iff.mpr ⟨⟨fields, rows, hanswer, hrows⟩, Nat.not_le.mp hstreak⟩
        rw [hmissing, List.drop_append_of_le_length hle, settle_quiet_append hdrop,
          settle_cons_of_none hgoes] at hcount hfound
        have hmore := settle_fst_pos (hfound.mpr rfl)
        have hcount : j + ((made.drop j).length +
          ((settle t.source (made.drop j ++ [slot]) rest).1 + 1)) = made.length + 1 := hcount
        rw [List.length_drop] at hcount
        omega
      · intro h
        obtain ⟨-, hstreak⟩ := h fields hanswer
        have hle : j ≤ made.length := by
          by_contra hlt
          have hnil : (made ++ [slot]).drop j = [] := by
            rw [List.drop_eq_nil_iff, List.length_append, List.length_singleton]
            omega
          rw [hnil] at hstreak
          exact absurd hstreak (by simp [emptyStreak, EMPTY_STREAK_LIMIT])
        rw [List.drop_append_of_le_length hle] at hstreak
        have hends : halt t.source (made.drop j) slot = some (1, .unavailable) := by
          simp only [halt, hanswer, hrows, if_pos hstreak]
        rw [hmissing, List.drop_append_of_le_length hle, settle_quiet_append hdrop,
          settle_cons_of_halt hends, List.length_drop]
        refine ⟨⟨?_, rfl⟩, Iff.rfl⟩
        show j + (made.length - j + 1) = made.length + 1
        omega
    · -- it is no answer, and no attempt has gone beyond it
      have hle : j ≤ made.length := by
        by_contra hlt
        have hmem : slot ∈ (t.missing files).take j := by
          rw [hmissing, List.take_append, List.mem_append]
          refine .inr ?_
          rw [show j - made.length = (j - made.length - 1) + 1 by omega, List.take_succ_cons]
          exact List.mem_cons_self
        have hsome := hanswered slot hmem
        rw [hnone] at hsome
        cases hsome
      have hdrop := hquiet.drop j
      rw [hmissing, List.drop_append_of_le_length hle, settle_quiet_append hdrop,
        settle_cons_of_halt (hall _), List.length_drop]
      constructor
      · intro _ fields hanswer
        rw [hanswer] at hnone
        cases hnone
      · intro _
        refine ⟨⟨?_, rfl⟩, Iff.rfl⟩
        show j + (made.length - j + ended.1) = made.length + ended.1
        omega

/-- Attempts end as a run in one go exactly if the rows of the first answer that ends the run can
be counted and, if it is one empty answer too many, so many were missing before the last attempt. -/
theorem attempts_transparent_iff (t : BackfillTask) (files : Files) (as : List Attempt)
    (last whole : Attempt) (report : BackfillReport) (hwhole : t.Uninterrupted whole)
    (hlast : (t.attempt last (t.attempts as files)).1 = some report)
    (hended : report.status = .complete ∨ report.status = .failed) :
    t.Transparent files whole report (t.attempt last (t.attempts as files)).2 ↔
      t.CountsAnew files (t.attempts as files) := by
  obtain ⟨j, hj, hstored, hanswered⟩ := attempts_spec t as files
  refine transparent_iff_countsAnew hwhole hj hstored hanswered hlast ?_
  rcases hended with h | h <;> simp [h]

end Attempts

/-- Fifteen weekdays on which one market has no rows. -/
def januaryTask : BackfillTask where
  source slot := match slot.market with
    | .kospi => .payload [("OutBlock_1", .arr [])]
    | .kosdaq | .konex => .payload [("OutBlock_1", .arr [.obj []])]
  startDate := .january 24 1
  endDate := .january 24 19

/-- An attempt that nothing cuts off. -/
def calmAttempt : Attempt where
  maxCalls := 100
  statusEveryCalls := 50
  outage _ := false
  clock _ := ⟨.january 24 20, 12, 0, 0, 0, 0, by decide⟩
  cut := none
  finalCut := none

/-- An attempt that ends after the first answer was stored. -/
def shortAttempt : Attempt := { calmAttempt with cut := some (.crash 8) }

theorem januaryTask_counts : januaryTask.slots.length = 45 ∧
    (absent (januaryTask.attempts [shortAttempt] .empty) januaryTask.slots).length = 44 ∧
    (settle januaryTask.source [] januaryTask.slots).1 = 43 ∧
    (settle januaryTask.source [] (januaryTask.slots.drop 1)).1 = 44 ∧
    januaryTask.ends (settle januaryTask.source [] (januaryTask.slots.drop 1)).2 =
      some (.complete, none) := by
  decide +kernel

theorem calmAttempt_uninterrupted : januaryTask.Uninterrupted calmAttempt where
  cut := rfl
  finalCut := rfl
  network _ := rfl
  calls := by
    rw [januaryTask_counts.1]
    decide

theorem missing_empty (t : BackfillTask) : t.missing .empty = t.slots :=
  List.filter_eq_self.mpr fun _ _ => rfl

theorem stored_shortAttempt : Stored januaryTask.source .empty (januaryTask.slots.take 1)
    (januaryTask.attempts [shortAttempt] .empty) := by
  obtain ⟨j, hj, hstored, -⟩ := attempts_spec januaryTask [shortAttempt] .empty
  have hlength := congrArg List.length (absent_slots_of_stored januaryTask.slots_nodup hstored)
  rw [januaryTask_counts.2.1, List.length_drop] at hlength
  have hmissing : absent .empty januaryTask.slots = januaryTask.slots := missing_empty januaryTask
  rw [missing_empty] at hj hstored
  rw [hmissing, januaryTask_counts.1] at hlength
  obtain rfl : j = 1 := by omega
  exact hstored

theorem exists_report_calmAttempt : ∃ report,
    (januaryTask.attempt calmAttempt (januaryTask.attempts [shortAttempt] .empty)).1 = some report ∧
      report.status = .complete := by
  have hreport := (uninterrupted_spec januaryTask calmAttempt
    (januaryTask.attempts [shortAttempt] .empty) calmAttempt_uninterrupted).2
  have hmissing : januaryTask.missing (januaryTask.attempts [shortAttempt] .empty) =
      januaryTask.slots.drop 1 := by
    have hstored := stored_shortAttempt
    rw [← missing_empty] at hstored
    have habsent := absent_slots_of_stored januaryTask.slots_nodup hstored
    rwa [show absent .empty januaryTask.slots = januaryTask.slots from missing_empty _] at habsent
  rw [hmissing, januaryTask_counts.2.2.2.2, Option.map_eq_some_iff] at hreport
  obtain ⟨report, hreport, hstatus⟩ := hreport
  exact ⟨report, hreport, congrArg Prod.fst hstatus⟩

/-- The condition of the theorem at two attempts of which the first one is cut off. -/
theorem attempts_transparent_iff_january : ∃ report,
    (januaryTask.attempt calmAttempt (januaryTask.attempts [shortAttempt] .empty)).1 = some report ∧
      (januaryTask.Transparent .empty calmAttempt report
        (januaryTask.attempt calmAttempt (januaryTask.attempts [shortAttempt] .empty)).2 ↔
          januaryTask.CountsAnew .empty (januaryTask.attempts [shortAttempt] .empty)) := by
  obtain ⟨report, hreport, hstatus⟩ := exists_report_calmAttempt
  exact ⟨report, hreport, attempts_transparent_iff januaryTask .empty [shortAttempt] calmAttempt
    calmAttempt report calmAttempt_uninterrupted hreport (.inl hstatus)⟩

/-- After a first attempt that stored one answer the second one finds fourteen empty answers and
completes the month, where a run in one go finds fifteen and fails. -/
theorem not_attempts_transparent : ¬ ∀ (t : BackfillTask) (files : Files) (as : List Attempt)
    (last whole : Attempt) (report : BackfillReport), t.Uninterrupted whole →
      (t.attempt last (t.attempts as files)).1 = some report →
      report.status = .complete ∨ report.status = .failed →
      t.Transparent files whole report (t.attempt last (t.attempts as files)).2 := by
  intro h
  obtain ⟨report, hreport, hstatus⟩ := exists_report_calmAttempt
  have htransparent := h januaryTask .empty [shortAttempt] calmAttempt calmAttempt report
    calmAttempt_uninterrupted hreport (.inl hstatus)
  have hstored := stored_shortAttempt
  rw [← missing_empty] at hstored
  have hlength : 1 ≤ (januaryTask.missing .empty).length := by
    rw [missing_empty, januaryTask_counts.1]
    decide
  rw [transparent_iff calmAttempt_uninterrupted hlength hstored hreport (by simp [hstatus]),
    missing_empty] at htransparent
  have hcount := htransparent.1.1
  rw [januaryTask_counts.2.2.1, januaryTask_counts.2.2.2.1] at hcount
  cases hcount

end Dayjaview.Historical
