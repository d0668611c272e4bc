import Dayjaview.Domain.Models
import Dayjaview.Events.Models

/-!
# Lifecycle hysteresis

A reducer takes one evaluation of a theme after the other and answers with the
next state and, when one is due, a lifecycle transition. Inputs that were seen
before or arrive out of order change nothing. Missing coverage is no negative
signal: it stops the clock that is running and decides nothing.
-/

namespace Dayjaview.Realtime

open Dayjaview.Domain Dayjaview.Events

def HYSTERESIS_POLICY_VERSION : String := "theme-hysteresis-2026.08.1"

/-- How long a signal has to last; durations are in microseconds. -/
structure HysteresisPolicy.Fields where
  version : String
  maturity : String
  activateAfter : Int
  weakenAfter : Int
  recoverWithin : Int
  closeAfter : Int

/-- Every duration is positive. -/
def requirePositive : List (String × Int) → Except Error Unit
  | [] => .ok ()
  | (fieldName, value) :: fields => do
    ensure (0 < value) s!"{fieldName}는 0보다 커야 합니다"
    requirePositive fields

@[simp] theorem requirePositive_eq_ok {fields : List (String × Int)} :
    requirePositive fields = .ok () ↔ ∀ f ∈ fields, 0 < f.2 := by
  induction fields with
  | nil => simp [requirePositive]
  | cons f fields ih => simp [requirePositive, ih]

/-- The checks of a policy, in order. -/
def HysteresisPolicy.Fields.postInit (p : HysteresisPolicy.Fields) : Except Error Unit := do
  ensure (isBlank p.version = false) "hysteresis policy version은 비어 있을 수 없습니다"
  ensure (isBlank p.maturity = false) "hysteresis policy maturity는 비어 있을 수 없습니다"
  requirePositive [("activate_after", p.activateAfter), ("weaken_after", p.weakenAfter),
    ("recover_within", p.recoverWithin), ("close_after", p.closeAfter)]

/-- A policy that passed its checks. -/
structure HysteresisPolicy extends HysteresisPolicy.Fields where
  valid : toFields.postInit = .ok ()

theorem HysteresisPolicy.checks (p : HysteresisPolicy) :
    isBlank p.version = false ∧ isBlank p.maturity = false ∧ 0 < p.activateAfter ∧
      0 < p.weakenAfter ∧ 0 < p.recoverWithin ∧ 0 < p.closeAfter := by
  have hp := p.valid
  simpa [HysteresisPolicy.Fields.postInit] using hp

def HYSTERESIS_POLICY_V1 : HysteresisPolicy where
  version := HYSTERESIS_POLICY_VERSION
  maturity := "BACKTEST_PENDING"
  activateAfter := 10000000
  weakenAfter := 60000000
  recoverWithin := 600000000
  closeAfter := 600000000
  valid := by decide

/-- The fields of an evaluation of a theme. -/
structure ActivationEvaluation.Fields where
  inputId : String
  sequence : Int
  evaluatedAt : Datetime
  policyVersion : String
  coverageStatus : CoverageStatus
  qualifies : Option Bool
  marketClosed : Bool := false
  candidateExpired : Bool := false

/-- The checks of an evaluation, in order. -/
def ActivationEvaluation.Fields.postInit (e : ActivationEvaluation.Fields) : Except Error Unit := do
  ensure (isBlank e.inputId = false) "input_id는 비어 있을 수 없습니다"
  ensure (1 ≤ e.sequence) "activation sequence는 1 이상이어야 합니다"
  ensure (isBlank e.policyVersion = false) "policy_version은 비어 있을 수 없습니다"
  ensure (¬ (e.marketClosed = true ∧ e.candidateExpired = true))
    "market_closed와 candidate_expired를 함께 지정할 수 없습니다"

structure ActivationEvaluation extends ActivationEvaluation.Fields where
  valid : toFields.postInit = .ok ()

namespace ActivationEvaluation

/-- Build an evaluation, or report the first failed check. -/
def make (f : ActivationEvaluation.Fields) : Except Error ActivationEvaluation :=
  checked ActivationEvaluation.Fields.postInit ActivationEvaluation.mk f

theorem one_le_sequence (e : ActivationEvaluation) : 1 ≤ e.sequence := by
  have he := e.valid
  simp only [ActivationEvaluation.Fields.postInit, check_bind_eq_ok, ensure_eq_ok] at he
  exact he.2.1

/-- The written form of an evaluation. -/
def toDict (e : ActivationEvaluation) : Json :=
  .obj [("inputId", .str e.inputId), ("sequence", .int e.sequence),
    ("evaluatedAt", .str e.evaluatedAt.isoformat), ("policyVersion", .str e.policyVersion),
    ("coverageStatus", .str e.coverageStatus.value),
    ("qualifies", match e.qualifies with
      | none => .null
      | some qualifies => .bool qualifies),
    ("marketClosed", .bool e.marketClosed), ("candidateExpired", .bool e.candidateExpired)]

/-- The digest that recognises an evaluation. -/
def fingerprint [Sha256] (e : ActivationEvaluation) : String := hexdigest e.toDict.asciiCanonical

end ActivationEvaluation

/-- The checks of a state, in order. -/
def HysteresisState.postInit (themeId policyVersion : String) (lastSequence : Int) :
    Except Error Unit := do
  ensure (isBlank themeId = false) "theme_id는 비어 있을 수 없습니다"
  ensure (isBlank policyVersion = false) "policy_version은 비어 있을 수 없습니다"
  ensure (0 ≤ lastSequence) "last_sequence는 음수일 수 없습니다"

/-- What the reducer knows of a theme: its status, the last input and the running clocks. -/
structure HysteresisState where
  themeId : String
  lifecycleStatus : LifecycleStatus
  policyVersion : String
  lastSequence : Int
  lastEvaluatedAt : Option Datetime := none
  lastInputId : Option String := none
  lastInputFingerprint : Option String := none
  candidateSince : Option Datetime := none
  belowSince : Option Datetime := none
  weakeningSince : Option Datetime := none
  weakeningBelowSince : Option Datetime := none
  valid : HysteresisState.postInit themeId policyVersion lastSequence = .ok ()

namespace HysteresisState

/-- The state a theme starts with. -/
def candidate (themeId : String) (policy : HysteresisPolicy) : Except Error HysteresisState :=
  checked (fun themeId => postInit themeId policy.version 0)
    (fun themeId valid =>
      { themeId, lifecycleStatus := .candidate, policyVersion := policy.version, lastSequence := 0,
        valid })
    themeId

theorem candidate_eq_ok {themeId : String} {policy : HysteresisPolicy} {s : HysteresisState}
    (h : candidate themeId policy = .ok s) :
    s.lifecycleStatus = .candidate ∧ s.lastSequence = 0 ∧ s.lastInputId = none ∧
      s.lastEvaluatedAt = none ∧ s.candidateSince = none ∧ s.themeId = themeId ∧
      s.policyVersion = policy.version := by
  obtain ⟨_, rfl⟩ := checked_eq_ok.mp h
  exact ⟨rfl, rfl, rfl, rfl, rfl, rfl, rfl⟩

/-- The state that remembers an input as its last one. -/
def advance [Sha256] (s : HysteresisState) (e : ActivationEvaluation) : HysteresisState :=
  { s with
    lastSequence := e.sequence
    lastEvaluatedAt := some e.evaluatedAt
    lastInputId := some e.inputId
    lastInputFingerprint := some e.fingerprint
    valid := by
      have hs := s.valid
      have he := e.one_le_sequence
      simp only [postInit, check_bind_eq_ok, ensure_eq_ok] at hs ⊢
      refine ⟨hs.1, hs.2.1, ?_⟩
      omega }

end HysteresisState

/-- A lifecycle transition the reducer calls for. -/
structure HysteresisTransition where
  fromStatus : LifecycleStatus
  toStatus : LifecycleStatus
  policyVersion : String
  inputId : String
  reason : String

inductive HysteresisDisposition where
  | transitioned
  | noTransition
  | duplicate
  | staleSequence
  | staleTime
  | terminal
  deriving DecidableEq

/-- The input was seen before or is out of order. -/
def HysteresisDisposition.Ignored (d : HysteresisDisposition) : Prop :=
  d = .duplicate ∨ d = .staleSequence ∨ d = .staleTime

instance (d : HysteresisDisposition) : Decidable d.Ignored := inferInstanceAs (Decidable (_ ∨ _))

structure HysteresisDecision where
  state : HysteresisState
  disposition : HysteresisDisposition
  transition : Option HysteresisTransition

/-- No transition, and the given state. -/
def HysteresisDecision.stay (state : HysteresisState) : HysteresisDecision :=
  ⟨state, .noTransition, none⟩

@[simp] theorem HysteresisDecision.stay_state (s : HysteresisState) : (stay s).state = s := rfl
@[simp] theorem HysteresisDecision.stay_transition (s : HysteresisState) :
    (stay s).transition = none := rfl

/-- The state in another status, with all clocks stopped. -/
def HysteresisState.moved (s : HysteresisState) (target : LifecycleStatus) : HysteresisState :=
  { s with
    lifecycleStatus := target
    candidateSince := none
    belowSince := none
    weakeningSince := none
    weakeningBelowSince := none }

/-- The transition of a state to another status. -/
def HysteresisState.transitionTo (s : HysteresisState) (target : LifecycleStatus)
    (e : ActivationEvaluation) (reason : String) : HysteresisTransition where
  fromStatus := s.lifecycleStatus
  toStatus := target
  policyVersion := s.policyVersion
  inputId := e.inputId
  reason

/-- The answer that calls for a transition. -/
def HysteresisState.moveTo (s : HysteresisState) (target : LifecycleStatus)
    (e : ActivationEvaluation) (reason : String) : HysteresisDecision :=
  ⟨s.moved target, .transitioned, some (s.transitionTo target e reason)⟩

def hysteresisTransition (state : HysteresisState) (target : LifecycleStatus)
    (evaluation : ActivationEvaluation) (reason : String) : Except Error HysteresisDecision := do
  let _ ← transitionLifecycle state.lifecycleStatus target state.policyVersion
  return state.moveTo target evaluation reason

/-- The signal of an evaluation; without sufficient coverage there is none. -/
def ActivationEvaluation.Fields.signal (e : ActivationEvaluation.Fields) : Option Bool :=
  if e.coverageStatus = .sufficient then e.qualifies else none

/-- Without a signal the clock of the current status stops. -/
def stopClock (s : HysteresisState) : HysteresisState :=
  match s.lifecycleStatus with
  | .candidate => { s with candidateSince := none }
  | .active => { s with belowSince := none }
  | .weakening => { s with weakeningBelowSince := none }
  | .closed | .discarded => s

/-- The microseconds from one time to a later one. -/
def microsBetween (since now : Datetime) : Int := now.instant - since.instant

/-- Judge a signal by the current status and its clocks. -/
def judge (advanced : HysteresisState) (evaluation : ActivationEvaluation)
    (policy : HysteresisPolicy) (qualifies : Bool) : Except Error HysteresisDecision :=
  let now := evaluation.evaluatedAt
  match advanced.lifecycleStatus with
  | .candidate =>
    if qualifies = false then .ok (.stay { advanced with candidateSince := none })
    else
      let candidateSince := advanced.candidateSince.getD now
      let advanced := { advanced with candidateSince := some candidateSince }
      if policy.activateAfter ≤ microsBetween candidateSince now then
        hysteresisTransition advanced .active evaluation "활성 기준 지속 충족"
      else .ok (.stay advanced)
  | .active =>
    if qualifies then .ok (.stay { advanced with belowSince := none })
    else
      let belowSince := advanced.belowSince.getD now
      let advanced := { advanced with belowSince := some belowSince }
      if policy.weakenAfter ≤ microsBetween belowSince now then do
        let transitioned ← hysteresisTransition advanced .weakening evaluation "활성 기준 미달 지속"
        return { transitioned with
          state := { transitioned.state with
            weakeningSince := some now
            weakeningBelowSince := some now
            belowSince := none } }
      else .ok (.stay advanced)
  | .weakening =>
    match advanced.weakeningSince with
    | none => .error ⟨.valueError, "WEAKENING state에 weakening_since가 없습니다"⟩
    | some weakeningSince =>
      if qualifies then
        if microsBetween weakeningSince now ≤ policy.recoverWithin then
          hysteresisTransition advanced .active evaluation "같은 Event 재강화"
        else hysteresisTransition advanced .closed evaluation "재강화 허용 시간 경과"
      else
        let weakeningBelowSince := advanced.weakeningBelowSince.getD now
        let advanced := { advanced with weakeningBelowSince := some weakeningBelowSince }
        if policy.closeAfter ≤ microsBetween weakeningBelowSince now then
          hysteresisTransition advanced .closed evaluation "약화 지속"
        else .ok (.stay advanced)
  | .closed | .discarded => .ok (.stay advanced)

/-- Reduce an input that is new and in order. -/
def reduceInput (advanced : HysteresisState) (evaluation : ActivationEvaluation)
    (policy : HysteresisPolicy) : Except Error HysteresisDecision :=
  if advanced.lifecycleStatus = .closed ∨ advanced.lifecycleStatus = .discarded then
    .ok ⟨advanced, .terminal, none⟩
  else if evaluation.marketClosed then
    let target := if advanced.lifecycleStatus = .candidate then .discarded else .closed
    hysteresisTransition advanced target evaluation "장 마감"
  else if evaluation.candidateExpired = true ∧ advanced.lifecycleStatus = .candidate then
    hysteresisTransition advanced .discarded evaluation "후보 신호 소멸"
  else
    match evaluation.signal with
    | none => .ok (.stay (stopClock advanced))
    | some qualifies => judge advanced evaluation policy qualifies

/-- Reduce one ordered input without treating missing coverage as false. -/
def evaluateHysteresis [Sha256] (state : HysteresisState) (evaluation : ActivationEvaluation)
    (policy : HysteresisPolicy := HYSTERESIS_POLICY_V1) : Except Error HysteresisDecision :=
  if state.policyVersion ≠ policy.version then
    .error ⟨.valueError, "hysteresis state와 policy version이 일치하지 않습니다"⟩
  else if evaluation.policyVersion ≠ policy.version then
    .error ⟨.valueError, "activation input과 policy version이 일치하지 않습니다"⟩
  else if some evaluation.inputId = state.lastInputId then
    if some evaluation.fingerprint ≠ state.lastInputFingerprint then
      .error ⟨.hysteresisInputConflict, "같은 input_id에 서로 다른 hysteresis input이 있습니다"⟩
    else .ok ⟨state, .duplicate, none⟩
  else if evaluation.sequence ≤ state.lastSequence then .ok ⟨state, .staleSequence, none⟩
  else if ∃ last ∈ state.lastEvaluatedAt, evaluation.evaluatedAt < last then
    .ok ⟨state, .staleTime, none⟩
  else reduceInput (state.advance evaluation) evaluation policy

/-- A clock has been running for a duration. -/
def Lasted (duration : Int) (since : Option Datetime) (now : Datetime) : Prop :=
  ∃ start ∈ since, duration ≤ microsBetween start now

instance (duration : Int) (since : Option Datetime) (now : Datetime) :
    Decidable (Lasted duration since now) :=
  inferInstanceAs (Decidable (∃ start ∈ since, duration ≤ microsBetween start now))

theorem lasted_getD {duration : Int} {since : Option Datetime} {now : Datetime}
    (h : 0 < duration) : duration ≤ microsBetween (since.getD now) now ↔
    Lasted duration since now := by
  cases since with
  | none =>
    simp only [Lasted, microsBetween, Option.getD_none, Option.mem_def, reduceCtorEq, false_and,
      exists_false, iff_false]
    omega
  | some start => simp [Lasted]

/-- The status that a signal calls for. -/
def HysteresisState.judgedTarget (s : HysteresisState) (policy : HysteresisPolicy)
    (now : Datetime) (qualifies : Bool) : Option LifecycleStatus :=
  match s.lifecycleStatus, qualifies with
  | .candidate, true =>
    if Lasted policy.activateAfter s.candidateSince now then some .active else none
  | .active, false => if Lasted policy.weakenAfter s.belowSince now then some .weakening else none
  | .weakening, true =>
    if ∃ since ∈ s.weakeningSince, microsBetween since now ≤ policy.recoverWithin then some .active
    else some .closed
  | .weakening, false =>
    if Lasted policy.closeAfter s.weakeningBelowSince now then some .closed else none
  | _, _ => none

/-- The status that an input calls for when it is new and in order. -/
def HysteresisState.dueTarget (s : HysteresisState) (policy : HysteresisPolicy)
    (e : ActivationEvaluation.Fields) : Option LifecycleStatus :=
  if s.lifecycleStatus = .closed ∨ s.lifecycleStatus = .discarded then none
  else if e.marketClosed then
    some (if s.lifecycleStatus = .candidate then .discarded else .closed)
  else if e.candidateExpired = true ∧ s.lifecycleStatus = .candidate then some .discarded
  else e.signal.bind (s.judgedTarget policy e.evaluatedAt)

/-- The ways in which an input that is new and in order is answered. -/
inductive Reduces (policy : HysteresisPolicy) (s : HysteresisState) (e : ActivationEvaluation) :
    HysteresisDecision → Prop
  /-- A theme that ended stays as it is. -/
  | terminal (h : s.lifecycleStatus = .closed ∨ s.lifecycleStatus = .discarded) :
      Reduces policy s e ⟨s, .terminal, none⟩
  /-- The close of the market discards a candidate. -/
  | discards (hstatus : s.lifecycleStatus = .candidate) (hclosed : e.marketClosed = true) :
      Reduces policy s e (s.moveTo .discarded e "장 마감")
  /-- It closes an active or weakening theme. -/
  | closes (hstatus : s.lifecycleStatus = .active ∨ s.lifecycleStatus = .weakening)
      (hclosed : e.marketClosed = true) :
      Reduces policy s e (s.moveTo .closed e "장 마감")
  | expires (hstatus : s.lifecycleStatus = .candidate) (hclosed : e.marketClosed = false)
      (hexpired : e.candidateExpired = true) :
      Reduces policy s e (s.moveTo .discarded e "후보 신호 소멸")
  /-- Without a signal the running clock stops. -/
  | noSignal (hclosed : e.marketClosed = false)
      (hexpired : ¬ (e.candidateExpired = true ∧ s.lifecycleStatus = .candidate))
      (hsignal : e.signal = none) :
      Reduces policy s e (.stay (stopClock s))
  | candidateMisses (hstatus : s.lifecycleStatus = .candidate) (hclosed : e.marketClosed = false)
      (hexpired : e.candidateExpired = false) (hsignal : e.signal = some false) :
      Reduces policy s e (.stay { s with candidateSince := none })
  /-- A candidate qualifies, not yet for long enough. -/
  | candidateQualifies (hstatus : s.lifecycleStatus = .candidate) (hclosed : e.marketClosed = false)
      (hexpired : e.candidateExpired = false) (hsignal : e.signal = some true)
      (hlasted : ¬ Lasted policy.activateAfter s.candidateSince e.evaluatedAt) :
      Reduces policy s e
        (.stay { s with candidateSince := some (s.candidateSince.getD e.evaluatedAt) })
  /-- A candidate qualifies for long enough. -/
  | activates (hstatus : s.lifecycleStatus = .candidate) (hclosed : e.marketClosed = false)
      (hexpired : e.candidateExpired = false) (hsignal : e.signal = some true)
      (hlasted : Lasted policy.activateAfter s.candidateSince e.evaluatedAt) :
      Reduces policy s e (s.moveTo .active e "활성 기준 지속 충족")
  | activeQualifies (hstatus : s.lifecycleStatus = .active) (hclosed : e.marketClosed = false)
      (hsignal : e.signal = some true) : Reduces policy s e (.stay { s with belowSince := none })
  /-- An active theme misses, not yet for long enough. -/
  | activeMisses (hstatus : s.lifecycleStatus = .active) (hclosed : e.marketClosed = false)
      (hsignal : e.signal = some false)
      (hlasted : ¬ Lasted policy.weakenAfter s.belowSince e.evaluatedAt) :
      Reduces policy s e (.stay { s with belowSince := some (s.belowSince.getD e.evaluatedAt) })
  /-- An active theme misses for long enough. -/
  | weakens (hstatus : s.lifecycleStatus = .active) (hclosed : e.marketClosed = false)
      (hsignal : e.signal = some false)
      (hlasted : Lasted policy.weakenAfter s.belowSince e.evaluatedAt) :
      Reduces policy s e
        { s.moveTo .weakening e "활성 기준 미달 지속" with
          state := { s.moved .weakening with
            weakeningSince := some e.evaluatedAt
            weakeningBelowSince := some e.evaluatedAt } }
  /-- A weakening theme qualifies in time. -/
  | recovers (since : Datetime) (hstatus : s.lifecycleStatus = .weakening)
      (hclosed : e.marketClosed = false) (hsince : s.weakeningSince = some since)
      (hsignal : e.signal = some true)
      (hwithin : microsBetween since e.evaluatedAt ≤ policy.recoverWithin) :
      Reduces policy s e (s.moveTo .active e "같은 Event 재강화")
  /-- A weakening theme qualifies too late. -/
  | recoversLate (since : Datetime) (hstatus : s.lifecycleStatus = .weakening)
      (hclosed : e.marketClosed = false) (hsince : s.weakeningSince = some since)
      (hsignal : e.signal = some true)
      (hwithin : policy.recoverWithin < microsBetween since e.evaluatedAt) :
      Reduces policy s e (s.moveTo .closed e "재강화 허용 시간 경과")
  /-- A weakening theme misses, not yet for long enough. -/
  | weakeningMisses (hstatus : s.lifecycleStatus = .weakening) (hclosed : e.marketClosed = false)
      (hsignal : e.signal = some false)
      (hlasted : ¬ Lasted policy.closeAfter s.weakeningBelowSince e.evaluatedAt) :
      Reduces policy s e
        (.stay { s with weakeningBelowSince := some (s.weakeningBelowSince.getD e.evaluatedAt) })
  /-- A weakening theme misses for long enough. -/
  | fades (hstatus : s.lifecycleStatus = .weakening) (hclosed : e.marketClosed = false)
      (hsignal : e.signal = some false)
      (hlasted : Lasted policy.closeAfter s.weakeningBelowSince e.evaluatedAt) :
      Reduces policy s e (s.moveTo .closed e "약화 지속")

variable {d : HysteresisDecision} {e : ActivationEvaluation} {s : HysteresisState}
  {policy : HysteresisPolicy}

theorem hysteresisTransition_eq_ok {target : LifecycleStatus} {reason : String}
    (h : hysteresisTransition s target e reason = .ok d) :
    d = s.moveTo target e reason := by
  rw [hysteresisTransition, bind_eq_ok] at h
  obtain ⟨_, -, h⟩ := h
  exact (Except.ok.inj h).symm

theorem judge_eq_ok {qualifies : Bool} (hclosed : e.marketClosed = false)
    (hexpired : ¬ (e.candidateExpired = true ∧ s.lifecycleStatus = .candidate))
    (hsignal : e.signal = some qualifies) (h : judge s e policy qualifies = .ok d)
    (hrunning : s.lifecycleStatus ≠ .closed ∧ s.lifecycleStatus ≠ .discarded) :
    Reduces policy s e d := by
  obtain ⟨-, -, hactivate, hweaken, -, hclose⟩ := policy.checks
  unfold judge at h
  cases hstatus : s.lifecycleStatus with
  | candidate =>
    have hnotExpired : e.candidateExpired = false := by simpa [hstatus] using hexpired
    simp only [hstatus, lasted_getD hactivate] at h
    cases qualifies with
    | false =>
      cases h
      rw [← hstatus]
      exact .candidateMisses hstatus hclosed hnotExpired hsignal
    | true =>
      simp only [Bool.true_eq_false, if_false] at h
      split_ifs at h with hlasted
      · rw [hysteresisTransition_eq_ok h, ← hstatus]
        exact .activates hstatus hclosed hnotExpired hsignal hlasted
      · cases h
        rw [← hstatus]
        exact .candidateQualifies hstatus hclosed hnotExpired hsignal hlasted
  | active =>
    simp only [hstatus, lasted_getD hweaken] at h
    cases qualifies with
    | true =>
      cases h
      rw [← hstatus]
      exact .activeQualifies hstatus hclosed hsignal
    | false =>
      simp only [Bool.false_eq_true, if_false] at h
      split_ifs at h with hlasted
      · obtain ⟨transitioned, htransitioned, h⟩ := bind_eq_ok.mp h
        cases h
        rw [hysteresisTransition_eq_ok htransitioned, ← hstatus]
        exact .weakens hstatus hclosed hsignal hlasted
      · cases h
        rw [← hstatus]
        exact .activeMisses hstatus hclosed hsignal hlasted
  | weakening =>
    simp only [hstatus, lasted_getD hclose] at h
    cases hsince : s.weakeningSince with
    | none => simp [hsince] at h
    | some since =>
      rw [hsince] at h
      cases qualifies with
      | true =>
        simp only [if_true] at h
        split_ifs at h with hwithin
        · obtain rfl := hysteresisTransition_eq_ok h
          exact .recovers since hstatus hclosed hsince hsignal hwithin
        · obtain rfl := hysteresisTransition_eq_ok h
          exact .recoversLate since hstatus hclosed hsince hsignal (not_le.mp hwithin)
      | false =>
        simp only [Bool.false_eq_true, if_false] at h
        split_ifs at h with hlasted
        · rw [hysteresisTransition_eq_ok h, ← hstatus]
          exact .fades hstatus hclosed hsignal hlasted
        · cases h
          rw [← hstatus, ← hsince]
          exact .weakeningMisses hstatus hclosed hsignal hlasted
  | closed => exact absurd hstatus hrunning.1
  | discarded => exact absurd hstatus hrunning.2

theorem reduceInput_eq_ok (h : reduceInput s e policy = .ok d) :
    Reduces policy s e d := by
  unfold reduceInput at h
  split_ifs at h with hterminal hclosed hcandidate hexpired
  · cases h
    exact .terminal hterminal
  · obtain rfl := hysteresisTransition_eq_ok h
    exact .discards hcandidate hclosed
  · obtain rfl := hysteresisTransition_eq_ok h
    refine .closes ?_ hclosed
    rw [not_or] at hterminal
    cases hstatus : s.lifecycleStatus <;> simp_all
  · obtain rfl := hysteresisTransition_eq_ok h
    exact .expires hexpired.2 (Bool.not_eq_true _ ▸ hclosed) hexpired.1
  · have hopen : e.marketClosed = false := by simpa using hclosed
    cases hsignal : e.signal with
    | none =>
      simp only [hsignal] at h
      cases h
      exact .noSignal hopen hexpired hsignal
    | some qualifies =>
      simp only [hsignal] at h
      exact judge_eq_ok hopen hexpired hsignal h (not_or.mp hterminal)

/-- A state differs from another one in its status and its clocks only. -/
def HysteresisState.SameInputs (s s' : HysteresisState) : Prop :=
  s'.lastEvaluatedAt = s.lastEvaluatedAt ∧ s'.lastSequence = s.lastSequence ∧
    s'.lastInputId = s.lastInputId ∧ s'.lastInputFingerprint = s.lastInputFingerprint ∧
    s'.policyVersion = s.policyVersion ∧ s'.themeId = s.themeId

/-- The answer to an input that was reduced: it goes to the target, if there is one. -/
structure Reduction (before : HysteresisState) (target : Option LifecycleStatus)
    (d : HysteresisDecision) : Prop where
  leads : d.transition.map HysteresisTransition.toStatus = target
  status : d.state.lifecycleStatus = target.getD before.lifecycleStatus
  allowed : ∀ t ∈ target, t ∈ allowedLifecycleTargets before.lifecycleStatus
  reason : ∀ t ∈ d.transition, isBlank t.reason = false
  inputs : before.SameInputs d.state
  disposition : ¬ d.disposition.Ignored

theorem Reduction.ofMove {target : LifecycleStatus} (e : ActivationEvaluation) {reason : String}
    (hallowed : target ∈ allowedLifecycleTargets s.lifecycleStatus)
    (hreason : isBlank reason = false) :
    Reduction s (some target) (s.moveTo target e reason) where
  leads := rfl
  status := rfl
  allowed := by simpa using hallowed
  reason := by simpa [HysteresisState.moveTo, HysteresisState.transitionTo] using hreason
  inputs := ⟨rfl, rfl, rfl, rfl, rfl, rfl⟩
  disposition := by simp [HysteresisDisposition.Ignored, HysteresisState.moveTo]

theorem Reduction.ofStay {s' : HysteresisState} (hstatus : s'.lifecycleStatus = s.lifecycleStatus)
    (hinputs : s.SameInputs s') : Reduction s none (.stay s') where
  leads := rfl
  status := hstatus
  allowed := by simp
  reason := by simp [HysteresisDecision.stay]
  inputs := hinputs
  disposition := by simp [HysteresisDisposition.Ignored, HysteresisDecision.stay]

theorem stopClock_kept (s : HysteresisState) :
    (stopClock s).lifecycleStatus = s.lifecycleStatus ∧ s.SameInputs (stopClock s) := by
  unfold stopClock
  split <;> exact ⟨rfl, rfl, rfl, rfl, rfl, rfl, rfl⟩

theorem Reduces.reduction (h : Reduces policy s e d) :
    Reduction s (s.dueTarget policy e.toFields) d := by
  unfold HysteresisState.dueTarget
  cases h with
  | terminal hterminal =>
    rw [if_pos hterminal]
    exact ⟨rfl, rfl, by simp, by simp, ⟨rfl, rfl, rfl, rfl, rfl, rfl⟩,
      by simp [HysteresisDisposition.Ignored]⟩
  | discards hstatus hclosed =>
    simp only [hstatus, hclosed, reduceCtorEq, or_self, if_false, if_true]
    exact .ofMove e (by simp [hstatus, allowedLifecycleTargets]) (by decide)
  | closes hstatus hclosed =>
    rcases hstatus with hstatus | hstatus
    · simp only [hstatus, hclosed, reduceCtorEq, or_self, if_false, if_true]
      exact .ofMove e (by simp [hstatus, allowedLifecycleTargets]) (by decide)
    · simp only [hstatus, hclosed, reduceCtorEq, or_self, if_false, if_true]
      exact .ofMove e (by simp [hstatus, allowedLifecycleTargets]) (by decide)
  | expires hstatus hclosed hexpired =>
    simp only [hstatus, hclosed, hexpired, reduceCtorEq, or_self, if_false, and_self, if_true,
      Bool.false_eq_true]
    exact .ofMove e (by simp [hstatus, allowedLifecycleTargets]) (by decide)
  | noSignal hclosed hexpired hsignal =>
    obtain ⟨hstatus, hinputs⟩ := stopClock_kept s
    have hdue : e.signal.bind (s.judgedTarget policy e.evaluatedAt) = none := by rw [hsignal]; rfl
    simp only [hclosed, hdue, if_neg hexpired, Bool.false_eq_true, if_false, ite_self]
    exact .ofStay hstatus hinputs
  | candidateMisses hstatus hclosed hexpired hsignal =>
    simp only [hstatus, hclosed, hexpired, hsignal, HysteresisState.judgedTarget, reduceCtorEq,
      or_self, false_and, if_false, Bool.false_eq_true, Option.bind_some]
    exact .ofStay hstatus.symm ⟨rfl, rfl, rfl, rfl, rfl, rfl⟩
  | candidateQualifies hstatus hclosed hexpired hsignal hlasted =>
    simp only [hstatus, hclosed, hexpired, hsignal, HysteresisState.judgedTarget, reduceCtorEq,
      or_self, false_and, if_false, Bool.false_eq_true, Option.bind_some, hlasted]
    exact .ofStay hstatus.symm ⟨rfl, rfl, rfl, rfl, rfl, rfl⟩
  | activates hstatus hclosed hexpired hsignal hlasted =>
    simp only [hstatus, hclosed, hexpired, hsignal, HysteresisState.judgedTarget, reduceCtorEq,
      or_self, false_and, if_false, Bool.false_eq_true, Option.bind_some, hlasted, if_true]
    exact .ofMove e (by simp [hstatus, allowedLifecycleTargets]) (by decide)
  | activeQualifies hstatus hclosed hsignal =>
    simp only [hstatus, hclosed, hsignal, HysteresisState.judgedTarget, reduceCtorEq, or_self,
      and_false, if_false, Bool.false_eq_true, Option.bind_some]
    exact .ofStay hstatus.symm ⟨rfl, rfl, rfl, rfl, rfl, rfl⟩
  | activeMisses hstatus hclosed hsignal hlasted =>
    simp only [hstatus, hclosed, hsignal, HysteresisState.judgedTarget, reduceCtorEq, or_self,
      and_false, if_false, Bool.false_eq_true, Option.bind_some, hlasted]
    exact .ofStay hstatus.symm ⟨rfl, rfl, rfl, rfl, rfl, rfl⟩
  | weakens hstatus hclosed hsignal hlasted =>
    simp only [hstatus, hclosed, hsignal, HysteresisState.judgedTarget, reduceCtorEq, or_self,
      and_false, if_false, Bool.false_eq_true, Option.bind_some, hlasted, if_true]
    have hallowed : .weakening ∈ allowedLifecycleTargets s.lifecycleStatus := by
      simp [hstatus, allowedLifecycleTargets]
    have hreason : isBlank "활성 기준 미달 지속" = false := by decide
    have hmove := Reduction.ofMove e hallowed hreason
    exact ⟨rfl, rfl, hmove.allowed, hmove.reason, ⟨rfl, rfl, rfl, rfl, rfl, rfl⟩,
      hmove.disposition⟩
  | recovers since hstatus hclosed hsince hsignal hwithin =>
    simp only [hstatus, hclosed, hsignal, hsince, HysteresisState.judgedTarget, reduceCtorEq,
      or_self, and_false, if_false, Bool.false_eq_true, Option.bind_some, Option.mem_def,
      Option.some.injEq, exists_eq_left', hwithin, if_true]
    exact .ofMove e (by simp [hstatus, allowedLifecycleTargets]) (by decide)
  | recoversLate since hstatus hclosed hsince hsignal hwithin =>
    simp only [hstatus, hclosed, hsignal, hsince, HysteresisState.judgedTarget, reduceCtorEq,
      or_self, and_false, if_false, Bool.false_eq_true, Option.bind_some, Option.mem_def,
      Option.some.injEq, exists_eq_left', not_le.mpr hwithin]
    exact .ofMove e (by simp [hstatus, allowedLifecycleTargets]) (by decide)
  | weakeningMisses hstatus hclosed hsignal hlasted =>
    simp only [hstatus, hclosed, hsignal, HysteresisState.judgedTarget, reduceCtorEq, or_self,
      and_false, if_false, Bool.false_eq_true, Option.bind_some, hlasted]
    exact .ofStay hstatus.symm ⟨rfl, rfl, rfl, rfl, rfl, rfl⟩
  | fades hstatus hclosed hsignal hlasted =>
    simp only [hstatus, hclosed, hsignal, HysteresisState.judgedTarget, reduceCtorEq, or_self,
      and_false, if_false, Bool.false_eq_true, Option.bind_some, hlasted, if_true]
    exact .ofMove e (by simp [hstatus, allowedLifecycleTargets]) (by decide)

theorem hysteresisTransition_ok {target : LifecycleStatus} (e : ActivationEvaluation)
    (reason : String) (h : target ∈ allowedLifecycleTargets s.lifecycleStatus) :
    ∃ d, hysteresisTransition s target e reason = .ok d := by
  have hversion : s.policyVersion ≠ "" := by
    have hs := s.valid
    simp only [HysteresisState.postInit, check_bind_eq_ok, ensure_eq_ok] at hs
    intro heq
    rw [heq] at hs
    exact absurd hs.2.1 (by decide)
  obtain ⟨change, hchange⟩ : ∃ change, transitionLifecycle s.lifecycleStatus target
      s.policyVersion = .ok change := requireTransition_isOk.mpr ⟨h, hversion⟩
  exact ⟨_, bind_eq_ok.mpr ⟨change, hchange, rfl⟩⟩

theorem judge_ok (e : ActivationEvaluation) (policy : HysteresisPolicy) (qualifies : Bool)
    (h : s.lifecycleStatus = .weakening → s.weakeningSince ≠ none) :
    ∃ d, judge s e policy qualifies = .ok d := by
  unfold judge
  cases hstatus : s.lifecycleStatus with
  | candidate =>
    dsimp only
    split_ifs
    · exact ⟨_, rfl⟩
    · exact hysteresisTransition_ok e _ (by simp [allowedLifecycleTargets])
    · exact ⟨_, rfl⟩
  | active =>
    dsimp only
    split_ifs
    · exact ⟨_, rfl⟩
    · have hallowed : LifecycleStatus.weakening ∈ allowedLifecycleTargets .active := by
        simp [allowedLifecycleTargets]
      obtain ⟨d, hd⟩ := hysteresisTransition_ok
        (s := { s with lifecycleStatus := .active,
                       belowSince := some (s.belowSince.getD e.evaluatedAt) })
        e "활성 기준 미달 지속" hallowed
      exact ⟨_, bind_eq_ok.mpr ⟨d, hd, rfl⟩⟩
    · exact ⟨_, rfl⟩
  | weakening =>
    dsimp only
    cases hsince : s.weakeningSince with
    | none => exact absurd hsince (h hstatus)
    | some since =>
      dsimp only
      split_ifs
      · exact hysteresisTransition_ok e _ (by simp [hstatus, allowedLifecycleTargets])
      · exact hysteresisTransition_ok e _ (by simp [hstatus, allowedLifecycleTargets])
      · exact hysteresisTransition_ok e _ (by simp [allowedLifecycleTargets])
      · exact ⟨_, rfl⟩
  | closed | discarded => exact ⟨_, rfl⟩

theorem reduceInput_ok (e : ActivationEvaluation) (policy : HysteresisPolicy)
    (h : s.lifecycleStatus = .weakening → s.weakeningSince ≠ none) :
    ∃ d, reduceInput s e policy = .ok d := by
  unfold reduceInput
  split_ifs with hterminal hclosed hcandidate hexpired
  · exact ⟨_, rfl⟩
  · exact hysteresisTransition_ok e _ (by simp [hcandidate, allowedLifecycleTargets])
  · refine hysteresisTransition_ok e _ ?_
    rw [not_or] at hterminal
    cases hstatus : s.lifecycleStatus <;> simp_all [allowedLifecycleTargets]
  · exact hysteresisTransition_ok e _ (by simp [hexpired.2, allowedLifecycleTargets])
  · cases e.signal with
    | none => exact ⟨_, rfl⟩
    | some qualifies => exact judge_ok e policy qualifies h

/-- Why an input is not reduced. -/
def HysteresisState.Ignores (s : HysteresisState) (e : ActivationEvaluation.Fields) : Prop :=
  some e.inputId = s.lastInputId ∨ e.sequence ≤ s.lastSequence ∨
    ∃ last ∈ s.lastEvaluatedAt, e.evaluatedAt < last

theorem evaluateHysteresis_eq_reduceInput [Sha256] (hstate : s.policyVersion = policy.version)
    (hinput : e.policyVersion = policy.version) (h : ¬ s.Ignores e.toFields) :
    evaluateHysteresis s e policy = reduceInput (s.advance e) e policy := by
  unfold HysteresisState.Ignores at h
  rw [not_or, not_or] at h
  unfold evaluateHysteresis
  rw [if_neg (not_not.mpr hstate), if_neg (not_not.mpr hinput), if_neg h.1, if_neg h.2.1,
    if_neg h.2.2]

theorem evaluateHysteresis_eq_ok [Sha256] (h : evaluateHysteresis s e policy = .ok d) :
    (s.Ignores e.toFields ∧ d.disposition.Ignored ∧ d.state = s ∧ d.transition = none) ∨
      (¬ s.Ignores e.toFields ∧ Reduces policy (s.advance e) e d) := by
  unfold evaluateHysteresis at h
  split_ifs at h with hstate hinput hseen hconflict hsequence htime
  · cases h
    exact .inl ⟨.inl hseen, .inl rfl, rfl, rfl⟩
  · cases h
    exact .inl ⟨.inr (.inl hsequence), .inr (.inl rfl), rfl, rfl⟩
  · cases h
    exact .inl ⟨.inr (.inr htime), .inr (.inr rfl), rfl, rfl⟩
  · refine .inr ⟨?_, reduceInput_eq_ok h⟩
    rintro (hseen' | hsequence' | htime')
    · exact hseen hseen'
    · exact hsequence hsequence'
    · exact htime htime'

end Dayjaview.Realtime
