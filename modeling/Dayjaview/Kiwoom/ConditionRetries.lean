import Dayjaview.Core.Streaks
import Dayjaview.Kiwoom.Live

/-!
# Registrations that are sent again

A registration that is refused for its rate is sent again after a while. The registrations of a
session that are sent again are spaced. Nothing but a success ends them: an entry stays when the
adapter gives up on it or another error comes, and the loop does not ask how often it was sent.
-/

namespace Dayjaview.Kiwoom

/-- The answer that says that requests came too fast. -/
def CONDITION_RATE_LIMIT_CODE : Int := 105110

/-- A decoded value equals a small integer. -/
def equalsInt (value : JsonValue) (n : Int) : Bool :=
  match value with
  | .int m => m = n
  | .bool b => (if b then 1 else 0) = n
  | .float x => x = .finite n ∨ (n = 0 ∧ x = .negativeZero)
  | _ => false

/-- The code of an answer that reports no error. -/
def isSuccessCode (returnCode : JsonValue) : Bool :=
  returnCode = .null ∨ equalsInt returnCode 0 = true

/-- How fast the adapter sends registrations, in seconds. -/
structure LiveKiwoomAdapter where
  conditionRequestInterval : ℚ := 7 / 20
  conditionRetryInterval : ℚ := 1

/-- The registration of a condition. -/
def conditionRequest (sequence : List CodePoint) : JsonValue :=
  .obj [("trnm", .str "CNSRREQ"), ("seq", .str sequence), ("search_type", .str "1"),
    ("stex_tp", .str "K")]

/-- How often the registration of a condition was sent again. -/
def LiveSession.attempts (s : LiveSession) (sequence : List CodePoint) : Nat :=
  match s.conditionRetries.get? sequence with
  | none => 0
  | some retry => retry.attempts

namespace LiveKiwoomAdapter

/-- Take in the answer to a registration. -/
def handleConditionResponse [JsonValue.Printer] [UnicodeTable] (adapter : LiveKiwoomAdapter)
    (s : LiveSession) (payload : JsonValue.Fields) (now : ℚ) (receivedAt : Datetime) :
    Except Error Unit × LiveSession :=
  let sequence := stripPoints (textOrEmpty ((JsonValue.obj payload).getOr "seq"))
  let returnCode := (JsonValue.obj payload).getOr "return_code"
  if equalsInt returnCode CONDITION_RATE_LIMIT_CODE then
    let attempts := s.attempts sequence
    if sequence = [] ∨ 3 ≤ attempts then (.ok (), { s with controlErrors := s.controlErrors + 1 })
    else
      (.ok (), { s with
        conditionRetries := s.conditionRetries.set sequence
          ⟨attempts, now + adapter.conditionRetryInterval⟩ })
  else if isSuccessCode returnCode = false then
    (.ok (), { s with controlErrors := s.controlErrors + 1 })
  else
    let sanitized := sanitizeConditionRows ((JsonValue.obj payload).getOr "data")
    let s := { s with
      conditionRetries := s.conditionRetries.erase sequence
      droppedItems := s.droppedItems + sanitized.2 }
    if sanitized.1 ≠ [] ∧ sequence ≠ [] then
      s.enqueue (LiveSession.conditionPayload sequence sanitized.1) receivedAt
    else (.ok (), s)

/-- The registration that is sent again now: the first in order that is due, unless the last one was
sent just before. -/
def dueRetry (adapter : LiveKiwoomAdapter) (s : LiveSession) (now : ℚ) :
    Option (List CodePoint × ConditionRetry) :=
  if now - s.lastConditionSend < adapter.conditionRequestInterval then none
  else
    let inOrder := s.conditionRetries.entries.insertionSort fun a b => JsonValue.keyLe a.1 b.1
    inOrder.find? fun entry => entry.2.dueAt ≤ now

/-- Send a registration again, if one is due. A message that cannot be sent closes the session. -/
def flushConditionRetries (adapter : LiveKiwoomAdapter) (s : LiveSession) (now : ℚ)
    (send : JsonValue → Except Error Unit) : Option JsonValue × LiveSession :=
  match adapter.dueRetry s now with
  | none => (none, s)
  | some (sequence, retry) =>
    let s := { s with
      conditionRetries := s.conditionRetries.set sequence
        ⟨retry.attempts + 1, now + adapter.conditionRetryInterval⟩
      lastConditionSend := now }
    match send (conditionRequest sequence) with
    | .ok () => (some (conditionRequest sequence), s)
    | .error e =>
      (some (conditionRequest sequence), s.markClosed ("조건검색 재시도 전송 실패: " ++ e.message))

end LiveKiwoomAdapter

/-- What happens to the registration of a condition. -/
inductive ConditionEvent where
  | requested (at' : ℚ) (message : JsonValue)
  | postponed (sequence : List CodePoint)
  /-- The adapter gives up on it. -/
  | gaveUp (sequence : List CodePoint)
  | refused (sequence : List CodePoint)
  | registered (sequence : List CodePoint)
  deriving DecidableEq

namespace ConditionEvent

/-- The registration of a condition is sent again. -/
def Requests (sequence : List CodePoint) : ConditionEvent → Prop
  | requested _ message => message = conditionRequest sequence
  | _ => False

instance (sequence : List CodePoint) : DecidablePred (Requests sequence) := fun e => by
  cases e <;> unfold Requests <;> infer_instance

/-- The registration of a condition ended without success. -/
def Ends (sequence : List CodePoint) (e : ConditionEvent) : Prop :=
  e = gaveUp sequence ∨ e = refused sequence

instance (sequence : List CodePoint) : DecidablePred (Ends sequence) := fun _ =>
  inferInstanceAs (Decidable (_ ∨ _))

@[simp] theorem requests_requested {at' : ℚ} {sequence sequence' : List CodePoint} :
    (requested at' (conditionRequest sequence)).Requests sequence' ↔ sequence' = sequence := by
  simp [Requests, conditionRequest, eq_comm]

/-- When something is sent again. -/
def sentAt : ConditionEvent → Option ℚ
  | requested at' _ => some at'
  | _ => none

end ConditionEvent

/-- What an answer means for its condition. -/
def LiveSession.responseEvent [JsonValue.Printer] (s : LiveSession) (payload : JsonValue.Fields) :
    ConditionEvent :=
  let sequence := stripPoints (textOrEmpty ((JsonValue.obj payload).getOr "seq"))
  let returnCode := (JsonValue.obj payload).getOr "return_code"
  if equalsInt returnCode CONDITION_RATE_LIMIT_CODE then
    if sequence = [] ∨ 3 ≤ s.attempts sequence then .gaveUp sequence else .postponed sequence
  else if isSuccessCode returnCode = false then .refused sequence
  else .registered sequence

/-- What the adapter does next. -/
inductive ConditionCall where
  | response (payload : JsonValue.Fields) (receivedAt : Datetime)
  /-- It looks for a registration to send again. -/
  | flush (send : JsonValue → Except Error Unit)

variable [JsonValue.Printer] [UnicodeTable]

namespace LiveKiwoomAdapter

def step (adapter : LiveKiwoomAdapter) (s : LiveSession) (now : ℚ) :
    ConditionCall → List ConditionEvent × LiveSession
  | .response payload receivedAt =>
    ([s.responseEvent payload], (adapter.handleConditionResponse s payload now receivedAt).2)
  | .flush send =>
    let flushed := adapter.flushConditionRetries s now send
    (flushed.1.toList.map (.requested now), flushed.2)

/-- Several calls, one after the other. -/
def run (adapter : LiveKiwoomAdapter) (s : LiveSession) :
    List (ℚ × ConditionCall) → List ConditionEvent × LiveSession
  | [] => ([], s)
  | (now, call) :: calls =>
    let stepped := adapter.step s now call
    let rest := adapter.run stepped.2 calls
    (stepped.1 ++ rest.1, rest.2)

/-- A call is sound: what it sends again was sent fewer than three times, and its condition did not
end without success before. -/
def SoundCall (adapter : LiveKiwoomAdapter) (events : List ConditionEvent) (s : LiveSession)
    (now : ℚ) : ConditionCall → Prop
  | .response _ _ => True
  | .flush _ => ∀ sequence retry, adapter.dueRetry s now = some (sequence, retry) →
      retry.attempts < 3 ∧ ∀ e ∈ events, ¬ e.Ends sequence

/-- The bounds on sending again. -/
structure Bounded (adapter : LiveKiwoomAdapter) (events : List ConditionEvent) : Prop where
  few : ∀ sequence,
    Streak.AtMost (fun e => e = .registered sequence) (ConditionEvent.Requests sequence) 3 events
  final : events.Pairwise fun e e' => ∀ sequence, e'.Requests sequence → ¬ e.Ends sequence
  spaced : events.Pairwise fun e e' =>
    ∀ t ∈ e.sentAt, ∀ t' ∈ e'.sentAt, adapter.conditionRequestInterval ≤ t' - t

variable {adapter : LiveKiwoomAdapter} {s : LiveSession} {now : ℚ}

section

omit [JsonValue.Printer] [UnicodeTable]

theorem attempts_set {s s' : LiveSession} {sequence : List CodePoint} {retry : ConditionRetry}
    (h : s'.conditionRetries = s.conditionRetries.set sequence retry) (sequence' : List CodePoint) :
    s'.attempts sequence' =
      if sequence' = sequence then retry.attempts else s.attempts sequence' := by
  unfold LiveSession.attempts
  rw [h, Dict.get?_set]
  by_cases h : sequence' = sequence
  · rw [if_pos h, if_pos h]
  · rw [if_neg h, if_neg h]

theorem dueRetry_eq_some {sequence : List CodePoint} {retry : ConditionRetry}
    (h : adapter.dueRetry s now = some (sequence, retry)) :
    s.attempts sequence = retry.attempts ∧
      adapter.conditionRequestInterval ≤ now - s.lastConditionSend := by
  unfold dueRetry at h
  split at h
  · cases h
  · next hspaced =>
    refine ⟨?_, not_lt.mp hspaced⟩
    have hmem := (List.perm_insertionSort _ _).mem_iff.mp (List.mem_of_find?_eq_some h)
    rw [LiveSession.attempts, s.conditionRetries.mem_entries_iff.mp hmem]

theorem attempts_congr {s s' : LiveSession} (h : s'.conditionRetries = s.conditionRetries)
    (sequence : List CodePoint) : s'.attempts sequence = s.attempts sequence := by
  unfold LiveSession.attempts
  rw [h]

end

theorem enqueue_keeps (s : LiveSession) (payload : JsonValue.Fields) (receivedAt : Datetime) :
    (s.enqueue payload receivedAt).2.conditionRetries = s.conditionRetries ∧
      (s.enqueue payload receivedAt).2.lastConditionSend = s.lastConditionSend := by
  unfold LiveSession.enqueue
  dsimp only
  split <;> exact ⟨rfl, rfl⟩

theorem response_cases (adapter : LiveKiwoomAdapter) (s : LiveSession) (now : ℚ)
    (payload : JsonValue.Fields) (receivedAt : Datetime) :
    let s' := (adapter.handleConditionResponse s payload now receivedAt).2
    s'.lastConditionSend = s.lastConditionSend ∧ ∃ sequence,
      (s.responseEvent payload = .gaveUp sequence ∧ s'.conditionRetries = s.conditionRetries) ∨
      (s.responseEvent payload = .refused sequence ∧ s'.conditionRetries = s.conditionRetries) ∨
      (s.responseEvent payload = .postponed sequence ∧
        s'.conditionRetries = s.conditionRetries.set sequence
          ⟨s.attempts sequence, now + adapter.conditionRetryInterval⟩) ∨
      (s.responseEvent payload = .registered sequence ∧
        s'.conditionRetries = s.conditionRetries.erase sequence) := by
  unfold LiveSession.responseEvent handleConditionResponse
  dsimp only
  split
  · split
    · exact ⟨rfl, _, .inl ⟨rfl, rfl⟩⟩
    · exact ⟨rfl, _, .inr (.inr (.inl ⟨rfl, rfl⟩))⟩
  · split
    · exact ⟨rfl, _, .inr (.inl ⟨rfl, rfl⟩)⟩
    · split
      · have hkeeps := enqueue_keeps { s with
          conditionRetries := s.conditionRetries.erase
            (stripPoints (textOrEmpty ((JsonValue.obj payload).getOr "seq")))
          droppedItems := s.droppedItems +
            (sanitizeConditionRows ((JsonValue.obj payload).getOr "data")).2 }
          (LiveSession.conditionPayload
            (stripPoints (textOrEmpty ((JsonValue.obj payload).getOr "seq")))
            (sanitizeConditionRows ((JsonValue.obj payload).getOr "data")).1)
          receivedAt
        exact ⟨hkeeps.2, _, .inr (.inr (.inr ⟨rfl, hkeeps.1⟩))⟩
      · exact ⟨rfl, _, .inr (.inr (.inr ⟨rfl, rfl⟩))⟩

/-- The attempts after some events are counted on from those before. -/
def Counts (s : LiveSession) (events : List ConditionEvent) (s' : LiveSession) : Prop :=
  ∀ sequence, s'.attempts sequence = events.foldl
    (Streak.advance (fun e => e = .registered sequence) (ConditionEvent.Requests sequence))
      (s.attempts sequence)

theorem step_response (adapter : LiveKiwoomAdapter) (s : LiveSession) (now : ℚ)
    (payload : JsonValue.Fields) (receivedAt : Datetime) :
    let s' := (adapter.handleConditionResponse s payload now receivedAt).2
    Counts s [s.responseEvent payload] s' ∧ s'.lastConditionSend = s.lastConditionSend ∧
      (s.responseEvent payload).sentAt = none ∧
      ∀ sequence, ¬ (s.responseEvent payload).Requests sequence := by
  obtain ⟨hlast, sequence, h | h | h | h⟩ := adapter.response_cases s now payload receivedAt
  · obtain ⟨hevent, hretries⟩ := h
    rw [hevent]
    exact ⟨fun sequence' => attempts_congr hretries sequence', hlast, rfl, fun _ => id⟩
  · obtain ⟨hevent, hretries⟩ := h
    rw [hevent]
    exact ⟨fun sequence' => attempts_congr hretries sequence', hlast, rfl, fun _ => id⟩
  · obtain ⟨hevent, hretries⟩ := h
    rw [hevent]
    refine ⟨fun sequence' => ?_, hlast, rfl, fun _ => id⟩
    show _ = s.attempts sequence'
    rw [attempts_set hretries]
    split
    · next hsame => rw [hsame]
    · rfl
  · obtain ⟨hevent, hretries⟩ := h
    rw [hevent]
    refine ⟨fun sequence' => ?_, hlast, rfl, fun _ => id⟩
    rw [LiveSession.attempts, hretries, Dict.get?_erase, List.foldl_cons, List.foldl_nil,
      Streak.advance]
    by_cases hsame : sequence' = sequence
    · rw [if_pos hsame, if_pos (by rw [hsame])]
    · have hother : ¬ ConditionEvent.registered sequence = .registered sequence' :=
        fun h => hsame (ConditionEvent.registered.inj h).symm
      have hrequests : ¬ (ConditionEvent.registered sequence).Requests sequence' := id
      rw [if_neg hsame, if_neg hother, if_neg hrequests]
      rfl

theorem step_flush (adapter : LiveKiwoomAdapter) (s : LiveSession) (now : ℚ)
    (send : JsonValue → Except Error Unit) :
    (adapter.dueRetry s now = none ∧ adapter.step s now (.flush send) = ([], s)) ∨
      ∃ sequence retry s', adapter.dueRetry s now = some (sequence, retry) ∧
        adapter.step s now (.flush send) = ([.requested now (conditionRequest sequence)], s') ∧
        Counts s [.requested now (conditionRequest sequence)] s' ∧ s'.lastConditionSend = now := by
  dsimp only [step]
  unfold flushConditionRetries
  rcases hdue : adapter.dueRetry s now with _ | ⟨sequence, retry⟩
  · exact .inl ⟨rfl, rfl⟩
  · have hattempts := (dueRetry_eq_some hdue).1
    have hcounts : ∀ s' : LiveSession, s'.conditionRetries = s.conditionRetries.set sequence
        ⟨retry.attempts + 1, now + adapter.conditionRetryInterval⟩ →
        Counts s [.requested now (conditionRequest sequence)] s' := by
      intro s' hretries sequence'
      have hother : ¬ ConditionEvent.requested now (conditionRequest sequence) =
          .registered sequence' := fun h => by cases h
      rw [attempts_set hretries, List.foldl_cons, List.foldl_nil, Streak.advance, if_neg hother]
      simp only [ConditionEvent.requests_requested]
      split
      · next hsame => rw [hsame, hattempts]
      · rfl
    dsimp only
    rcases send (conditionRequest sequence) with e | _
    · exact .inr ⟨sequence, retry, _, rfl, rfl, hcounts _ rfl, rfl⟩
    · exact .inr ⟨sequence, retry, _, rfl, rfl, hcounts _ rfl, rfl⟩

/-- What a session knows of the events so far. -/
structure Tracks (adapter : LiveKiwoomAdapter) (events : List ConditionEvent) (since : ℚ)
    (s : LiveSession) : Prop where
  attempts : ∀ sequence, s.attempts sequence =
    Streak.since (fun e => e = .registered sequence) (ConditionEvent.Requests sequence) events
  sent : ∀ e ∈ events, ∀ t ∈ e.sentAt, t ≤ s.lastConditionSend ∧ s.lastConditionSend ≤ since
  spaced : events.Pairwise fun e e' =>
    ∀ t ∈ e.sentAt, ∀ t' ∈ e'.sentAt, adapter.conditionRequestInterval ≤ t' - t

variable {events : List ConditionEvent} {last : ℚ} {call : ConditionCall}

omit [JsonValue.Printer] [UnicodeTable] in
theorem Counts.attempts_eq {s' : LiveSession} {more : List ConditionEvent} (h : Counts s more s')
    (htracks : ∀ sequence, s.attempts sequence = Streak.since (fun e => e = .registered sequence)
      (ConditionEvent.Requests sequence) events) (sequence : List CodePoint) :
    s'.attempts sequence = Streak.since (fun e => e = .registered sequence)
      (ConditionEvent.Requests sequence) (events ++ more) := by
  rw [h sequence, htracks sequence, Streak.since, Streak.since, List.foldl_append]

theorem Tracks.step (h : adapter.Tracks events last s) (hle : last ≤ now) (call : ConditionCall) :
    adapter.Tracks (events ++ (adapter.step s now call).1) now (adapter.step s now call).2 := by
  cases call with
  | response payload receivedAt =>
    obtain ⟨hcounts, hlast, hsent, -⟩ := adapter.step_response s now payload receivedAt
    refine ⟨hcounts.attempts_eq h.attempts, fun e he t ht => ?_, ?_⟩
    · rcases List.mem_append.mp he with he | he
      · obtain ⟨hbefore, hpast⟩ := h.sent e he t ht
        refine ⟨hbefore.trans hlast.ge, ?_⟩
        exact (hlast.le.trans hpast).trans hle
      · rw [List.mem_singleton.mp he, hsent] at ht
        cases ht
    · refine List.pairwise_append.mpr ⟨h.spaced, List.pairwise_singleton _ _, ?_⟩
      intro e _ e' he' t _ t' ht'
      rw [List.mem_singleton.mp he', hsent] at ht'
      cases ht'
  | flush send =>
    rcases adapter.step_flush s now send with
      ⟨-, hstep⟩ | ⟨sequence, retry, s', hdue, hstep, hcounts, hlast⟩
    · rw [hstep, List.append_nil]
      refine { h with sent := fun e he t ht => ?_ }
      exact ⟨(h.sent e he t ht).1, (h.sent e he t ht).2.trans hle⟩
    · have hspaced := (dueRetry_eq_some hdue).2
      rw [hstep]
      refine ⟨hcounts.attempts_eq h.attempts, fun e he t ht => ?_, ?_⟩
      · rw [hlast]
        rcases List.mem_append.mp he with he | he
        · obtain ⟨hbefore, hpast⟩ := h.sent e he t ht
          exact ⟨(hbefore.trans hpast).trans hle, le_rfl⟩
        · rw [List.mem_singleton.mp he] at ht
          obtain rfl : now = t := Option.some.inj ht
          exact ⟨le_rfl, le_rfl⟩
      · refine List.pairwise_append.mpr ⟨h.spaced, List.pairwise_singleton _ _, ?_⟩
        intro e he e' he' t ht t' ht'
        rw [List.mem_singleton.mp he'] at ht'
        obtain rfl : now = t' := Option.some.inj ht'
        have hbefore := (h.sent e he t ht).1
        linarith

section

omit [JsonValue.Printer] [UnicodeTable]

theorem tracks_start (sessionId : String) (named : sessionId ≠ "") (last : ℚ) :
    adapter.Tracks [] last { sessionId, named } :=
  ⟨fun _ => rfl, nofun, .nil⟩

/-- One more event keeps the bounds if it is spaced and sends nothing that was sent three times or
has ended. -/
theorem bounded_snoc {event : ConditionEvent} (hspaced : (events ++ [event]).Pairwise fun e e' =>
      ∀ t ∈ e.sentAt, ∀ t' ∈ e'.sentAt, adapter.conditionRequestInterval ≤ t' - t) :
    adapter.Bounded (events ++ [event]) ↔ adapter.Bounded events ∧
      ∀ sequence, event.Requests sequence →
        Streak.since (fun e => e = .registered sequence) (ConditionEvent.Requests sequence) events <
            3 ∧
          ∀ e ∈ events, ¬ e.Ends sequence := by
  have hfew : ∀ sequence, event.Requests sequence →
      let starts := fun e => e = ConditionEvent.registered sequence
      let hits := ConditionEvent.Requests sequence
      (Streak.AtMost starts hits 3 (events ++ [event]) ↔
        Streak.AtMost starts hits 3 events ∧ Streak.since starts hits events < 3) := by
    intro sequence hrequest
    refine Streak.atMost_snoc_of_hit ?_ hrequest
    rintro rfl
    exact hrequest
  constructor
  · intro h
    obtain ⟨hfinal, -, hacross⟩ := List.pairwise_append.mp h.final
    refine ⟨⟨fun sequence => (Streak.atMost_snoc.mp (h.few sequence)).1, hfinal,
      (List.pairwise_append.mp hspaced).1⟩, fun sequence hrequest => ⟨?_, fun e he => ?_⟩⟩
    · exact ((hfew sequence hrequest).mp (h.few sequence)).2
    · exact hacross e he event (List.mem_singleton_self _) sequence hrequest
  · rintro ⟨h, hevent⟩
    refine ⟨fun sequence => ?_, ?_, hspaced⟩
    · by_cases hrequest : event.Requests sequence
      · exact (hfew sequence hrequest).mpr ⟨h.few sequence, (hevent sequence hrequest).1⟩
      · exact (Streak.atMost_snoc_of_not_hit hrequest).mpr (h.few sequence)
    · refine List.pairwise_append.mpr ⟨h.final, List.pairwise_singleton _ _, ?_⟩
      intro e he e' he' sequence hrequest
      rw [List.mem_singleton.mp he'] at hrequest
      exact (hevent sequence hrequest).2 e he

end

theorem bounded_step (h : adapter.Tracks events last s) (hle : last ≤ now) :
    adapter.Bounded (events ++ (adapter.step s now call).1) ↔
      adapter.Bounded events ∧ adapter.SoundCall events s now call := by
  have hspaced := (h.step hle call).spaced
  cases call with
  | response payload receivedAt =>
    obtain ⟨-, -, -, hrequests⟩ := adapter.step_response s now payload receivedAt
    refine (bounded_snoc hspaced).trans (and_congr_right fun _ => iff_of_true ?_ trivial)
    exact fun sequence hrequest => absurd hrequest (hrequests sequence)
  | flush send =>
    rcases adapter.step_flush s now send with
      ⟨hdue, hstep⟩ | ⟨sequence, retry, s', hdue, hstep, -, -⟩
    · rw [hstep, List.append_nil]
      refine (and_iff_left fun sequence retry hsome => ?_).symm
      rw [hdue] at hsome
      cases hsome
    · rw [hstep] at hspaced ⊢
      refine (bounded_snoc hspaced).trans (and_congr_right fun _ => ?_)
      have hattempts := (dueRetry_eq_some hdue).1
      rw [h.attempts] at hattempts
      unfold SoundCall
      rw [hdue]
      simp only [ConditionEvent.requests_requested]
      constructor
      · rintro hevent _ _ ⟨⟩
        rw [← hattempts]
        exact hevent _ rfl
      · rintro hsound _ rfl
        rw [hattempts]
        exact hsound _ _ rfl

theorem run_append (adapter : LiveKiwoomAdapter) (s : LiveSession)
    (calls later : List (ℚ × ConditionCall)) :
    adapter.run s (calls ++ later) =
      ((adapter.run s calls).1 ++ (adapter.run (adapter.run s calls).2 later).1,
        (adapter.run (adapter.run s calls).2 later).2) := by
  induction calls generalizing s with
  | nil => rfl
  | cons call calls ih =>
    rw [List.cons_append, run, ih, run, List.append_assoc]

def InOrder (calls : List (ℚ × ConditionCall)) : Prop :=
  (calls.map Prod.fst).Pairwise (· ≤ ·)

/-- Every call of a run is sound. -/
def Sound (adapter : LiveKiwoomAdapter) (s : LiveSession) (calls : List (ℚ × ConditionCall)) :
    Prop :=
  ∀ before now call after, calls = before ++ (now, call) :: after →
    adapter.SoundCall (adapter.run s before).1 (adapter.run s before).2 now call

theorem sound_snoc {calls : List (ℚ × ConditionCall)} :
    adapter.Sound s (calls ++ [(now, call)]) ↔ adapter.Sound s calls ∧
      adapter.SoundCall (adapter.run s calls).1 (adapter.run s calls).2 now call := by
  constructor
  · refine fun h => ⟨fun before now' call' after hsplit => ?_, h calls now call [] rfl⟩
    exact h before now' call' (after ++ [(now, call)]) (by rw [hsplit, List.append_assoc]; rfl)
  · rintro ⟨h, hlast⟩ before now' call' after hsplit
    rcases List.eq_nil_or_concat after with rfl | ⟨after, final, rfl⟩
    · obtain ⟨rfl, hcall⟩ := List.append_inj' hsplit rfl
      obtain ⟨rfl, rfl⟩ := Prod.mk.inj (List.singleton_inj.mp hcall)
      exact hlast
    · rw [List.concat_eq_append, ← List.cons_append, ← List.append_assoc] at hsplit
      exact h before now' call' after (List.append_inj_left' hsplit rfl)

theorem run_tracks {calls : List (ℚ × ConditionCall)} (sessionId : String) (named : sessionId ≠ "")
    (last : ℚ) (horder : InOrder calls) (hlast : ∀ call ∈ calls, call.1 ≤ last) :
    adapter.Tracks (adapter.run { sessionId, named } calls).1 last
        (adapter.run { sessionId, named } calls).2 ∧
      (adapter.Bounded (adapter.run { sessionId, named } calls).1 ↔
        adapter.Sound { sessionId, named } calls) := by
  induction calls using List.reverseRecOn generalizing last with
  | nil =>
    refine ⟨tracks_start sessionId named last, iff_of_true ⟨fun _ => ?_, .nil, .nil⟩ ?_⟩
    · exact Streak.atMost_nil
    · intro before now call after hsplit
      exact absurd hsplit.symm (List.append_ne_nil_of_right_ne_nil _ (List.cons_ne_nil _ _))
  | append_singleton calls call ih =>
    obtain ⟨now, call⟩ := call
    unfold InOrder at horder
    rw [List.map_append] at horder
    obtain ⟨hcalls, -, hacross⟩ := List.pairwise_append.mp horder
    have hnow : now ≤ last :=
      hlast (now, call) (List.mem_append_right _ (List.mem_singleton_self _))
    obtain ⟨htracks, hiff⟩ := ih now hcalls fun earlier hearlier =>
      hacross _ (List.mem_map_of_mem hearlier) now (List.mem_singleton_self _)
    rw [run_append, run, run, List.append_nil]
    have hafter := htracks.step le_rfl call
    refine ⟨{ hafter with sent := fun e he t ht => ?_ }, ?_⟩
    · exact ⟨(hafter.sent e he t ht).1, (hafter.sent e he t ht).2.trans hnow⟩
    · rw [sound_snoc, ← hiff]
      exact bounded_step htracks le_rfl

/-- In every run of a session, registrations are sent again at most three times between two
successes, never after their condition ended, and spaced, exactly when every flush finds as the
first one due neither a registration that was sent three times nor one whose condition has ended. -/
theorem condition_retries_bounded_iff (adapter : LiveKiwoomAdapter) (sessionId : String)
    (named : sessionId ≠ "") (calls : List (ℚ × ConditionCall)) (horder : InOrder calls) :
    adapter.Bounded (adapter.run { sessionId, named } calls).1 ↔
      adapter.Sound { sessionId, named } calls := by
  obtain ⟨last, hlast⟩ := (calls.map Prod.fst).finite_toSet.bddAbove
  exact (run_tracks sessionId named last horder fun call hcall =>
    hlast (List.mem_map_of_mem hcall)).2

/-- A condition that is refused for its rate once, and is not heard of again. -/
def silentCalls (flushes : List ℚ) : List (ℚ × ConditionCall) :=
  (0, .response [("seq", .str "1"), ("return_code", .int 105110)]
    ((Date.august 14).seoul 9 0)) ::
    flushes.map fun now => (now, .flush fun _ => .ok ())

section

omit [JsonValue.Printer] [UnicodeTable]

/-- A condition that is never answered. -/
theorem condition_retries_bounded_iff_silent :
    letI := JsonValue.Printer.plain
    letI : UnicodeTable := .ascii
    Bounded {} (run {} { sessionId := "live" } (silentCalls [1, 2, 3])).1 ↔
      Sound {} { sessionId := "live" } (silentCalls [1, 2, 3]) :=
  letI := JsonValue.Printer.plain
  letI : UnicodeTable := .ascii
  condition_retries_bounded_iff {} "live" (by decide) (silentCalls [1, 2, 3]) (by
    unfold InOrder silentCalls
    norm_num)

/-- Without an answer the registration is sent a fourth time. -/
theorem condition_retries_unbounded :
    letI := JsonValue.Printer.plain
    letI : UnicodeTable := .ascii
    ¬ Bounded {} (run {} { sessionId := "live" } (silentCalls [1, 2, 3, 4])).1 := by
  intro h
  have hrun : (@run .plain .ascii {} { sessionId := "live" } (silentCalls [1, 2, 3, 4])).1 =
      [.postponed "1"] ++
        [1, 2, 3, 4].map (fun now => .requested now (conditionRequest "1")) ++ [] := by
    decide +kernel
  have hfew := h.few "1" _ _ _ hrun (by decide)
  exact absurd hfew (by decide)

end

end LiveKiwoomAdapter

end Dayjaview.Kiwoom
