import Dayjaview.Events.Fingerprint
import Dayjaview.Realtime.Hysteresis

/-!
# Runs of the hysteresis reducer

In every reachable state exactly the clocks of its status may run, and the branch
for a weakening theme without a start is dead. A run that keeps the accepted
inputs beside the state shows what each clock stands for: an unbroken block of
inputs with one signal that began when the clock was started.
-/

namespace Dayjaview.Realtime

open Dayjaview.Domain Dayjaview.Events

namespace HysteresisState

/-- The theme was closed or discarded. -/
def Ended (s : HysteresisState) : Prop :=
  s.lifecycleStatus = .closed ∨ s.lifecycleStatus = .discarded

/-- No clock but the ones of the current status is set, and none after the last input. -/
structure WellFormed (s : HysteresisState) : Prop where
  candidate : s.lifecycleStatus = .candidate →
    s.belowSince = none ∧ s.weakeningSince = none ∧ s.weakeningBelowSince = none
  active : s.lifecycleStatus = .active →
    s.candidateSince = none ∧ s.weakeningSince = none ∧ s.weakeningBelowSince = none
  weakening : s.lifecycleStatus = .weakening →
    s.weakeningSince ≠ none ∧ s.candidateSince = none ∧ s.belowSince = none
  ended : s.Ended → s.candidateSince = none ∧ s.belowSince = none ∧ s.weakeningSince = none ∧
    s.weakeningBelowSince = none
  times : ∀ clock ∈ [s.candidateSince, s.belowSince, s.weakeningSince, s.weakeningBelowSince],
    ∀ t ∈ clock, ∃ last ∈ s.lastEvaluatedAt, t ≤ last

variable {s : HysteresisState}

theorem wellFormed_candidate {themeId : String} {policy : HysteresisPolicy}
    (h : candidate themeId policy = .ok s) : s.WellFormed := by
  obtain ⟨_, rfl⟩ := checked_eq_ok.mp h
  exact ⟨by simp, by simp, by simp, by simp [Ended], by simp⟩

theorem wellFormed_moved (s : HysteresisState) {target : LifecycleStatus}
    (h : target ≠ .weakening) : (s.moved target).WellFormed :=
  ⟨fun _ => ⟨rfl, rfl, rfl⟩, fun _ => ⟨rfl, rfl, rfl⟩, fun hstatus => absurd hstatus h,
    fun _ => ⟨rfl, rfl, rfl, rfl⟩, by simp [moved]⟩

theorem wellFormed_of_candidate (hstatus : s.lifecycleStatus = .candidate)
    (hbelow : s.belowSince = none) (hweakening : s.weakeningSince = none)
    (hweakeningBelow : s.weakeningBelowSince = none)
    (htimes : ∀ t ∈ s.candidateSince, ∃ last ∈ s.lastEvaluatedAt, t ≤ last) : s.WellFormed where
  candidate _ := ⟨hbelow, hweakening, hweakeningBelow⟩
  active h := by simp [hstatus] at h
  weakening h := by simp [hstatus] at h
  ended h := by simp [Ended, hstatus] at h
  times := by simpa [hbelow, hweakening, hweakeningBelow] using htimes

theorem wellFormed_of_active (hstatus : s.lifecycleStatus = .active)
    (hcandidate : s.candidateSince = none) (hweakening : s.weakeningSince = none)
    (hweakeningBelow : s.weakeningBelowSince = none)
    (htimes : ∀ t ∈ s.belowSince, ∃ last ∈ s.lastEvaluatedAt, t ≤ last) : s.WellFormed where
  candidate h := by simp [hstatus] at h
  active _ := ⟨hcandidate, hweakening, hweakeningBelow⟩
  weakening h := by simp [hstatus] at h
  ended h := by simp [Ended, hstatus] at h
  times := by simpa [hcandidate, hweakening, hweakeningBelow] using htimes

theorem wellFormed_of_weakening (hstatus : s.lifecycleStatus = .weakening)
    (hcandidate : s.candidateSince = none) (hbelow : s.belowSince = none)
    (hweakening : s.weakeningSince ≠ none)
    (hsince : ∀ t ∈ s.weakeningSince, ∃ last ∈ s.lastEvaluatedAt, t ≤ last)
    (htimes : ∀ t ∈ s.weakeningBelowSince, ∃ last ∈ s.lastEvaluatedAt, t ≤ last) :
    s.WellFormed where
  candidate h := by simp [hstatus] at h
  active h := by simp [hstatus] at h
  weakening _ := ⟨hweakening, hcandidate, hbelow⟩
  ended h := by simp [Ended, hstatus] at h
  times clock hclock t ht := by
    simp only [hcandidate, hbelow, List.mem_cons, List.not_mem_nil, or_false] at hclock
    rcases hclock with rfl | rfl | rfl | rfl
    · cases ht
    · cases ht
    · exact hsince t ht
    · exact htimes t ht

variable [Sha256]

theorem WellFormed.advance (h : s.WellFormed) {e : ActivationEvaluation}
    (he : ¬ s.Ignores e.toFields) : (s.advance e).WellFormed where
  candidate := h.candidate
  active := h.active
  weakening := h.weakening
  ended := h.ended
  times clock hclock t ht := by
    obtain ⟨last, hlast, hle⟩ := h.times clock hclock t ht
    refine ⟨e.evaluatedAt, rfl, le_trans hle ?_⟩
    rw [Datetime.le_def]
    by_contra hlt
    exact he (.inr (.inr ⟨last, hlast, Datetime.lt_def.mpr (not_le.mp hlt)⟩))

end HysteresisState

open HysteresisState

variable [Sha256]

omit [Sha256] in
theorem Reduces.wellFormed {policy : HysteresisPolicy} {s : HysteresisState}
    {e : ActivationEvaluation} {d : HysteresisDecision} (h : Reduces policy s e d)
    (hs : s.WellFormed) (hlast : s.lastEvaluatedAt = some e.evaluatedAt) : d.state.WellFormed := by
  have htimes := hs.times
  simp only [List.forall_mem_cons, List.not_mem_nil, false_implies, implies_true, and_true]
    at htimes
  obtain ⟨hcandidateTimes, hbelowTimes, hweakeningTimes, hweakeningBelowTimes⟩ := htimes
  -- a clock that goes on or starts now was not started after the last input
  have hgetD : ∀ clock : Option Datetime, (∀ t ∈ clock, ∃ last ∈ s.lastEvaluatedAt, t ≤ last) →
      ∃ last ∈ s.lastEvaluatedAt, clock.getD e.evaluatedAt ≤ last := by
    intro clock hclock
    cases clock with
    | none => exact ⟨e.evaluatedAt, hlast, le_rfl⟩
    | some t => exact hclock t rfl
  cases h with
  | terminal => exact hs
  | discards | closes | expires | activates | recovers | recoversLate | fades =>
    exact wellFormed_moved s (by decide)
  | noSignal =>
    simp only [HysteresisDecision.stay, stopClock]
    split
    · next hstatus =>
      obtain ⟨hbelow, hweakening, hweakeningBelow⟩ := hs.candidate hstatus
      exact wellFormed_of_candidate hstatus hbelow hweakening hweakeningBelow (by simp)
    · next hstatus =>
      obtain ⟨hcandidate, hweakening, hweakeningBelow⟩ := hs.active hstatus
      exact wellFormed_of_active hstatus hcandidate hweakening hweakeningBelow (by simp)
    · next hstatus =>
      obtain ⟨hweakening, hcandidate, hbelow⟩ := hs.weakening hstatus
      exact wellFormed_of_weakening hstatus hcandidate hbelow hweakening hweakeningTimes (by simp)
    · exact hs
    · exact hs
  | candidateMisses hstatus =>
    obtain ⟨hbelow, hweakening, hweakeningBelow⟩ := hs.candidate hstatus
    exact wellFormed_of_candidate hstatus hbelow hweakening hweakeningBelow (by simp)
  | candidateQualifies hstatus =>
    obtain ⟨hbelow, hweakening, hweakeningBelow⟩ := hs.candidate hstatus
    exact wellFormed_of_candidate hstatus hbelow hweakening hweakeningBelow
      (by simpa using hgetD _ hcandidateTimes)
  | activeQualifies hstatus =>
    obtain ⟨hcandidate, hweakening, hweakeningBelow⟩ := hs.active hstatus
    exact wellFormed_of_active hstatus hcandidate hweakening hweakeningBelow (by simp)
  | activeMisses hstatus =>
    obtain ⟨hcandidate, hweakening, hweakeningBelow⟩ := hs.active hstatus
    exact wellFormed_of_active hstatus hcandidate hweakening hweakeningBelow
      (by simpa using hgetD _ hbelowTimes)
  | weakens =>
    exact wellFormed_of_weakening rfl rfl rfl (by simp)
      (by simpa [moved] using ⟨_, hlast, le_rfl⟩) (by simpa [moved] using ⟨_, hlast, le_rfl⟩)
  | weakeningMisses hstatus =>
    obtain ⟨hweakening, hcandidate, hbelow⟩ := hs.weakening hstatus
    exact wellFormed_of_weakening hstatus hcandidate hbelow hweakening hweakeningTimes
      (by simpa using hgetD _ hweakeningBelowTimes)

namespace HysteresisState

/-- The state after an input; one that raises changes nothing. -/
def step (policy : HysteresisPolicy) (s : HysteresisState) (e : ActivationEvaluation) :
    HysteresisState :=
  match evaluateHysteresis s e policy with
  | .ok d => d.state
  | .error _ => s

/-- The state after some inputs. -/
def run (policy : HysteresisPolicy) (s : HysteresisState) (es : List ActivationEvaluation) :
    HysteresisState := es.foldl (step policy) s

theorem step_cases (policy : HysteresisPolicy) (s : HysteresisState) (e : ActivationEvaluation) :
    s.step policy e = s ∨
      ∃ d, ¬ s.Ignores e.toFields ∧ Reduces policy (s.advance e) e d ∧ s.step policy e =
      d.state := by
  unfold step
  cases heval : evaluateHysteresis s e policy with
  | error err => exact .inl rfl
  | ok d =>
    obtain ⟨-, -, hstate, -⟩ | ⟨hnew, hreduces⟩ := evaluateHysteresis_eq_ok heval
    · exact .inl hstate
    · exact .inr ⟨d, hnew, hreduces, rfl⟩

variable {policy : HysteresisPolicy} {s : HysteresisState}

theorem WellFormed.step (h : s.WellFormed) (e : ActivationEvaluation) :
    (s.step policy e).WellFormed := by
  obtain hsame | ⟨d, hnew, hreduces, hstate⟩ := s.step_cases policy e
  · rwa [hsame]
  · rw [hstate]
    exact hreduces.wellFormed (h.advance hnew) rfl

theorem WellFormed.run (h : s.WellFormed) (es : List ActivationEvaluation) :
    (s.run policy es).WellFormed := by
  induction es generalizing s with
  | nil => exact h
  | cons e es ih => exact ih (h.step e)

theorem policyVersion_step (policy : HysteresisPolicy) (s : HysteresisState)
    (e : ActivationEvaluation) : (s.step policy e).policyVersion = s.policyVersion := by
  obtain hsame | ⟨d, -, hreduces, hstate⟩ := s.step_cases policy e
  · rw [hsame]
  · rw [hstate]
    exact hreduces.reduction.inputs.2.2.2.2.1

theorem policyVersion_run (policy : HysteresisPolicy) (s : HysteresisState)
    (es : List ActivationEvaluation) : (s.run policy es).policyVersion = s.policyVersion := by
  induction es generalizing s with
  | nil => rfl
  | cons e es ih => exact (ih (s.step policy e)).trans (s.policyVersion_step policy e)

theorem last_le_step (policy : HysteresisPolicy) (s : HysteresisState) (e : ActivationEvaluation) :
    s.lastSequence ≤ (s.step policy e).lastSequence ∧
      ∀ last ∈ s.lastEvaluatedAt, ∃ next ∈ (s.step policy e).lastEvaluatedAt, last ≤ next := by
  obtain hsame | ⟨d, hnew, hreduces, hstate⟩ := s.step_cases policy e
  · rw [hsame]
    exact ⟨le_rfl, fun last hlast => ⟨last, hlast, le_rfl⟩⟩
  · obtain ⟨htime, hsequence, -⟩ := hreduces.reduction.inputs
    rw [Ignores, not_or, not_or] at hnew
    obtain ⟨-, hsequence', htime'⟩ := hnew
    rw [hstate, hsequence, htime]
    constructor
    · exact le_of_not_ge hsequence'
    · intro last hlast
      refine ⟨e.evaluatedAt, rfl, ?_⟩
      rw [Datetime.le_def]
      by_contra hlt
      exact htime' ⟨last, hlast, Datetime.lt_def.mpr (not_le.mp hlt)⟩

theorem step_of_ended (h : s.Ended) (e : ActivationEvaluation) :
    (s.step policy e).lifecycleStatus = s.lifecycleStatus := by
  obtain hsame | ⟨d, -, hreduces, hstate⟩ := s.step_cases policy e
  · rw [hsame]
  · have hdue : (s.advance e).dueTarget policy e.toFields = none := if_pos h
    rw [hstate, hreduces.reduction.status, hdue]
    rfl

theorem kind_of_error {e : ActivationEvaluation} (h : s.WellFormed)
    (hstate : s.policyVersion = policy.version) (hinput : e.policyVersion = policy.version)
    {error : Error} (herror : evaluateHysteresis s e policy = .error error) :
    error.kind = .hysteresisInputConflict := by
  by_cases hnew : s.Ignores e.toFields
  · unfold evaluateHysteresis at herror
    rw [if_neg (not_not.mpr hstate), if_neg (not_not.mpr hinput)] at herror
    split_ifs at herror with hseen hconflict hsequence htime
    · cases herror
      rfl
    · rcases hnew with h' | h' | h'
      · exact absurd h' hseen
      · exact absurd h' hsequence
      · exact absurd h' htime
  · obtain ⟨d, hd⟩ := reduceInput_ok (s := s.advance e) e policy fun hstatus =>
      (h.weakening hstatus).1
    rw [evaluateHysteresis_eq_reduceInput hstate hinput hnew, hd] at herror
    cases herror

/-- In every run of inputs from a new theme: the state is well-formed, the next input of the policy
raises a conflict of inputs at most, sequence and time of the last input do not decrease, and a
theme that ended keeps its status. -/
theorem run_wellFormed (policy : HysteresisPolicy) (themeId : String) (start : HysteresisState)
    (hstart : candidate themeId policy = .ok start) (es : List ActivationEvaluation)
    (e : ActivationEvaluation) (he : e.policyVersion = policy.version) :
    let s := start.run policy es
    s.WellFormed ∧
      (∀ error, evaluateHysteresis s e policy = .error error →
        error.kind = .hysteresisInputConflict) ∧
      s.lastSequence ≤ (s.step policy e).lastSequence ∧
      (∀ last ∈ s.lastEvaluatedAt, ∃ next ∈ (s.step policy e).lastEvaluatedAt, last ≤ next) ∧
      (s.Ended → (s.step policy e).lifecycleStatus = s.lifecycleStatus) := by
  intro s
  have hwell : s.WellFormed := (wellFormed_candidate hstart).run es
  obtain ⟨hsequence, htime⟩ := s.last_le_step policy e
  refine ⟨hwell, fun error herror => ?_, hsequence, htime, fun h => step_of_ended h e⟩
  have hpolicy : s.policyVersion = policy.version := by
    rw [policyVersion_run]
    exact (candidate_eq_ok hstart).2.2.2.2.2.2
  exact kind_of_error hwell hpolicy he herror

/-- A theme before its first input. -/
def newTheme : HysteresisState where
  themeId := "theme-1"
  lifecycleStatus := .candidate
  policyVersion := HYSTERESIS_POLICY_VERSION
  lastSequence := 0
  valid := by decide

def firstInput : ActivationEvaluation :=
  ⟨{ inputId := "stream-1:theme-1:1", sequence := 1, evaluatedAt := fivePastNine
     policyVersion := HYSTERESIS_POLICY_VERSION, coverageStatus := .sufficient
     qualifies := some true }, by decide⟩

omit [Sha256] in
/-- A new theme with its first input. -/
theorem run_wellFormed_firstInput :
    letI : Sha256 := .ofTable []
    let s := newTheme.run HYSTERESIS_POLICY_V1 []
    s.WellFormed ∧
      (∀ error, evaluateHysteresis s firstInput HYSTERESIS_POLICY_V1 = .error error →
        error.kind = .hysteresisInputConflict) ∧
      s.lastSequence ≤ (s.step HYSTERESIS_POLICY_V1 firstInput).lastSequence ∧
      (∀ last ∈ s.lastEvaluatedAt,
        ∃ next ∈ (s.step HYSTERESIS_POLICY_V1 firstInput).lastEvaluatedAt, last ≤ next) ∧
      (s.Ended →
        (s.step HYSTERESIS_POLICY_V1 firstInput).lifecycleStatus = s.lifecycleStatus) :=
  @run_wellFormed (.ofTable []) HYSTERESIS_POLICY_V1 "theme-1" newTheme rfl [] firstInput rfl

end HysteresisState

/-- An accepted input, with the status of the theme before and after it. -/
structure Accepted where
  evaluation : ActivationEvaluation
  before : LifecycleStatus
  after : LifecycleStatus

/-- The input shows with sufficient coverage that the theme qualifies or misses. -/
def Accepted.Shows (a : Accepted) (qualifies : Bool) : Prop :=
  a.evaluation.coverageStatus = .sufficient ∧ a.evaluation.qualifies = some qualifies

omit [Sha256] in
theorem signal_eq_some {e : ActivationEvaluation.Fields} {qualifies : Bool} :
    e.signal = some qualifies ↔ e.coverageStatus = .sufficient ∧ e.qualifies = some qualifies := by
  unfold ActivationEvaluation.Fields.signal
  split
  · next h => simp [h]
  · next h => simp [h]

omit [Sha256] in
theorem signal_eq_none {e : ActivationEvaluation.Fields} :
    e.signal = none ↔ e.coverageStatus ≠ .sufficient ∨ e.qualifies = none := by
  unfold ActivationEvaluation.Fields.signal
  split
  · next h => simp [h]
  · next h => simp [h]

/-- The accepted inputs end with an unbroken block of some kind, which began at a time. -/
def EndsWith (kind : Accepted → Prop) (start : Datetime) (accepted : List Accepted) : Prop :=
  ∃ earlier first later, accepted = earlier ++ first :: later ∧
    (∀ a ∈ first :: later, kind a) ∧ first.evaluation.evaluatedAt = start

variable {a : Accepted}

section

omit [Sha256]

theorem EndsWith.snoc {kind : Accepted → Prop} {start : Datetime} {accepted : List Accepted}
    (h : EndsWith kind start accepted) (ha : kind a) :
    EndsWith kind start (accepted ++ [a]) := by
  obtain ⟨earlier, first, later, rfl, hkind, htime⟩ := h
  refine ⟨earlier, first, later ++ [a], by simp, ?_, htime⟩
  intro b hb
  rw [← List.cons_append, List.mem_append, List.mem_singleton] at hb
  rcases hb with hb | rfl
  · exact hkind b hb
  · exact ha

theorem EndsWith.single {kind : Accepted → Prop} (accepted : List Accepted) (ha : kind a) :
    EndsWith kind a.evaluation.evaluatedAt (accepted ++ [a]) :=
  ⟨accepted, a, [], rfl, by simpa using ha, rfl⟩

theorem EndsWith.getD {kind : Accepted → Prop} {clock : Option Datetime} {accepted : List Accepted}
    (h : ∀ t ∈ clock, EndsWith kind t accepted) (ha : kind a) :
    EndsWith kind (clock.getD a.evaluation.evaluatedAt) (accepted ++ [a]) := by
  cases clock with
  | none => exact .single accepted ha
  | some t => exact (h t rfl).snoc ha

theorem EndsWith.mono {kind kind' : Accepted → Prop} {start : Datetime} {accepted : List Accepted}
    (h : EndsWith kind start accepted) (himp : ∀ a, kind a → kind' a) :
    EndsWith kind' start accepted := by
  obtain ⟨earlier, first, later, haccepted, hkind, htime⟩ := h
  exact ⟨earlier, first, later, haccepted, fun a ha => himp a (hkind a ha), htime⟩

end

/-- A run of the reducer with the inputs it accepted. -/
structure HysteresisRun where
  state : HysteresisState
  accepted : List Accepted

namespace HysteresisRun

/-- Take an input; one that is ignored or raises is not recorded. -/
def step (policy : HysteresisPolicy) (r : HysteresisRun) (e : ActivationEvaluation) :
    HysteresisRun :=
  match evaluateHysteresis r.state e policy with
  | .error _ => r
  | .ok d =>
    if d.disposition.Ignored then { r with state := d.state }
    else ⟨d.state, r.accepted ++ [⟨e, r.state.lifecycleStatus, d.state.lifecycleStatus⟩]⟩

def run (policy : HysteresisPolicy) (start : HysteresisState) (es : List ActivationEvaluation) :
    HysteresisRun := es.foldl (step policy) ⟨start, []⟩

section

omit [Sha256]

/-- The theme weakened at a time and has been weakening since. -/
def WeakenedAt (start : Datetime) (accepted : List Accepted) : Prop :=
  ∃ earlier weakened later, accepted = earlier ++ weakened :: later ∧
    (weakened.before = .active ∧ weakened.after = .weakening) ∧
    (∀ a ∈ later, a.before = .weakening ∧ a.after = .weakening) ∧
    weakened.evaluation.evaluatedAt = start

/-- Each clock of the current status stands for a block of accepted inputs. -/
structure Clocked (r : HysteresisRun) : Prop where
  candidate : r.state.lifecycleStatus = .candidate → ∀ t ∈ r.state.candidateSince,
    EndsWith (fun a => a.before = .candidate ∧ a.Shows true) t r.accepted
  active : r.state.lifecycleStatus = .active → ∀ t ∈ r.state.belowSince,
    EndsWith (fun a => a.before = .active ∧ a.Shows false) t r.accepted
  weakening : r.state.lifecycleStatus = .weakening → ∀ t ∈ r.state.weakeningSince,
    WeakenedAt t r.accepted
  weakeningBelow : r.state.lifecycleStatus = .weakening → ∀ t ∈ r.state.weakeningBelowSince,
    EndsWith (fun a => a.after = .weakening ∧ a.Shows false) t r.accepted

theorem clocked_moved (s : HysteresisState) (target : LifecycleStatus) (accepted : List Accepted) :
    Clocked ⟨s.moved target, accepted⟩ :=
  ⟨by simp [moved], by simp [moved], by simp [moved], by simp [moved]⟩

end

variable {s : HysteresisState} {policy : HysteresisPolicy}

section

omit [Sha256]

theorem clocked_of_candidate {accepted : List Accepted} (hstatus : s.lifecycleStatus = .candidate)
    (h : ∀ t ∈ s.candidateSince,
      EndsWith (fun a => a.before = .candidate ∧ a.Shows true) t accepted) :
    Clocked ⟨s, accepted⟩ :=
  ⟨fun _ => h, by simp [hstatus], by simp [hstatus], by simp [hstatus]⟩

theorem clocked_of_active {accepted : List Accepted} (hstatus : s.lifecycleStatus = .active)
    (h : ∀ t ∈ s.belowSince, EndsWith (fun a => a.before = .active ∧ a.Shows false) t accepted) :
    Clocked ⟨s, accepted⟩ :=
  ⟨by simp [hstatus], fun _ => h, by simp [hstatus], by simp [hstatus]⟩

theorem clocked_of_weakening {accepted : List Accepted} (hstatus : s.lifecycleStatus = .weakening)
    (hsince : ∀ t ∈ s.weakeningSince, WeakenedAt t accepted) (h : ∀ t ∈ s.weakeningBelowSince,
      EndsWith (fun a => a.after = .weakening ∧ a.Shows false) t accepted) :
    Clocked ⟨s, accepted⟩ :=
  ⟨by simp [hstatus], by simp [hstatus], fun _ => hsince, fun _ => h⟩

theorem WeakenedAt.snoc {start : Datetime} {accepted : List Accepted}
    (h : WeakenedAt start accepted)
    {a : Accepted} (hbefore : a.before = .weakening) (hafter : a.after = .weakening) :
    WeakenedAt start (accepted ++ [a]) := by
  obtain ⟨earlier, weakened, later, rfl, hweakened, hlater, htime⟩ := h
  refine ⟨earlier, weakened, later ++ [a], by simp, hweakened, ?_, htime⟩
  intro b hb
  rw [List.mem_append, List.mem_singleton] at hb
  rcases hb with hb | rfl
  · exact hlater b hb
  · exact ⟨hbefore, hafter⟩

theorem Clocked.reduces {accepted : List Accepted} {e : ActivationEvaluation}
    {d : HysteresisDecision} (h : Clocked ⟨s, accepted⟩) (hreduces : Reduces policy s e d) :
    Clocked ⟨d.state, accepted ++ [⟨e, s.lifecycleStatus, d.state.lifecycleStatus⟩]⟩ := by
  cases hreduces with
  | terminal hterminal =>
    rcases hterminal with hstatus | hstatus
    · exact ⟨by simp [hstatus], by simp [hstatus], by simp [hstatus], by simp [hstatus]⟩
    · exact ⟨by simp [hstatus], by simp [hstatus], by simp [hstatus], by simp [hstatus]⟩
  | discards | closes | expires | activates | recovers | recoversLate | fades =>
    exact clocked_moved s _ _
  | noSignal =>
    simp only [HysteresisDecision.stay_state, stopClock]
    split
    · next hstatus => exact clocked_of_candidate hstatus (by simp)
    · next hstatus => exact clocked_of_active hstatus (by simp)
    · next hstatus =>
      exact clocked_of_weakening hstatus
        (fun t ht => (h.weakening hstatus t ht).snoc hstatus hstatus) (by simp)
    · next hstatus => exact ⟨by simp [hstatus], by simp [hstatus], by simp [hstatus], by
        simp [hstatus]⟩
    · next hstatus => exact ⟨by simp [hstatus], by simp [hstatus], by simp [hstatus], by
        simp [hstatus]⟩
  | candidateMisses hstatus => exact clocked_of_candidate hstatus (by simp)
  | candidateQualifies hstatus hclosed hexpired hsignal =>
    refine clocked_of_candidate hstatus ?_
    rintro t ⟨⟩
    exact EndsWith.getD (a := ⟨e, s.lifecycleStatus, _⟩) (h.candidate hstatus)
      ⟨hstatus, signal_eq_some.mp hsignal⟩
  | activeQualifies hstatus => exact clocked_of_active hstatus (by simp)
  | activeMisses hstatus hclosed hsignal =>
    refine clocked_of_active hstatus ?_
    rintro t ⟨⟩
    exact EndsWith.getD (a := ⟨e, s.lifecycleStatus, _⟩) (h.active hstatus)
      ⟨hstatus, signal_eq_some.mp hsignal⟩
  | weakens hstatus hclosed hsignal =>
    refine clocked_of_weakening rfl ?_ ?_
    · rintro t ⟨⟩
      exact ⟨accepted, ⟨e, s.lifecycleStatus, _⟩, [], rfl, ⟨hstatus, rfl⟩, by simp, rfl⟩
    · rintro t ⟨⟩
      exact EndsWith.single (a := ⟨e, s.lifecycleStatus, _⟩) accepted
        ⟨rfl, signal_eq_some.mp hsignal⟩
  | weakeningMisses hstatus hclosed hsignal =>
    refine clocked_of_weakening hstatus ?_ ?_
    · intro t ht
      exact (h.weakening hstatus t ht).snoc hstatus hstatus
    · rintro t ⟨⟩
      exact EndsWith.getD (a := ⟨e, s.lifecycleStatus, _⟩) (h.weakeningBelow hstatus)
        ⟨hstatus, signal_eq_some.mp hsignal⟩

end

theorem Clocked.step {r : HysteresisRun} (h : r.Clocked) (e : ActivationEvaluation) :
    (r.step policy e).Clocked := by
  unfold HysteresisRun.step
  cases heval : evaluateHysteresis r.state e policy with
  | error err => exact h
  | ok d =>
    obtain ⟨-, hignored, hstate, -⟩ | ⟨-, hreduces⟩ := evaluateHysteresis_eq_ok heval
    · dsimp only
      rw [if_pos hignored, hstate]
      exact h
    · dsimp only
      rw [if_neg hreduces.reduction.disposition]
      have hadvanced : Clocked ⟨r.state.advance e, r.accepted⟩ :=
        ⟨h.candidate, h.active, h.weakening, h.weakeningBelow⟩
      exact hadvanced.reduces hreduces

theorem Clocked.run {r : HysteresisRun} (h : r.Clocked) (es : List ActivationEvaluation) :
    (es.foldl (HysteresisRun.step policy) r).Clocked := by
  induction es generalizing r with
  | nil => exact h
  | cons e es ih => exact ih (h.step e)

/-- In every run from a new theme, with the next input and the transition it causes: a candidate
becomes active only at the end of an unbroken block of qualifying inputs that lasted long enough; a
theme weakens only at the end of such a block of misses while it was active; it closes during
trading only from weakening, at the end of a long enough block of misses that does not reach behind
the input at which it weakened, or when it qualifies too late after that input; and an input without
sufficient coverage or without a result causes no transition of its own. -/
theorem transition_justified (policy : HysteresisPolicy) (themeId : String)
    (start : HysteresisState) (hstart : HysteresisState.candidate themeId policy = .ok start)
    (es : List ActivationEvaluation) (e : ActivationEvaluation) (d : HysteresisDecision)
    (he : evaluateHysteresis (run policy start es).state e policy = .ok d) :
    let r := run policy start es
    let last : Accepted := ⟨e, r.state.lifecycleStatus, d.state.lifecycleStatus⟩
    (∀ transition ∈ d.transition,
      (transition.fromStatus = .candidate → transition.toStatus = .active →
        ∃ t, EndsWith (fun a => a.before = .candidate ∧ a.Shows true) t (r.accepted ++ [last]) ∧
          policy.activateAfter ≤ microsBetween t e.evaluatedAt) ∧
      (transition.toStatus = .weakening →
        transition.fromStatus = .active ∧
        ∃ t, EndsWith (fun a => a.before = .active ∧ a.Shows false) t (r.accepted ++ [last]) ∧
          policy.weakenAfter ≤ microsBetween t e.evaluatedAt) ∧
      (transition.toStatus = .closed → e.marketClosed = false →
        transition.fromStatus = .weakening ∧
        ((∃ t, EndsWith (fun a => (a.before = .weakening ∨ a.after = .weakening) ∧ a.Shows false) t
              (r.accepted ++ [last]) ∧
            policy.closeAfter ≤ microsBetween t e.evaluatedAt) ∨
          (last.Shows true ∧
            ∃ t, WeakenedAt t r.accepted ∧
              policy.recoverWithin < microsBetween t e.evaluatedAt)))) ∧
    (e.coverageStatus ≠ .sufficient ∨ e.qualifies = none → e.marketClosed = false →
      e.candidateExpired = false → d.transition = none) := by
  intro r last
  have hclocked : r.Clocked := by
    refine Clocked.run ?_ es
    obtain ⟨hstatus, -, -, -, hsince, -⟩ := HysteresisState.candidate_eq_ok hstart
    exact clocked_of_candidate hstatus (by simp [hsince])
  obtain ⟨-, -, -, hnone⟩ | ⟨-, hreduces⟩ := evaluateHysteresis_eq_ok he
  · exact ⟨by simp [hnone], fun _ _ _ => hnone⟩
  -- an input without a signal meets none of the transitions below
  have hsilent : ∀ qualifies, e.signal = some qualifies →
      ¬ (e.coverageStatus ≠ .sufficient ∨ e.qualifies = none) := by
    intro qualifies hsignal hsilent
    rw [signal_eq_none.mpr hsilent] at hsignal
    cases hsignal
  cases hreduces with
  | terminal | noSignal | candidateMisses | candidateQualifies | activeQualifies | activeMisses
  | weakeningMisses => exact ⟨by simp, fun _ _ _ => rfl⟩
  | discards hstatus hclosed =>
    refine ⟨?_, fun _ hopen => absurd hclosed (by simp [hopen])⟩
    rintro transition ⟨⟩
    exact ⟨by rintro - ⟨⟩, by rintro ⟨⟩, by rintro ⟨⟩⟩
  | closes hstatus hclosed =>
    refine ⟨?_, fun _ hopen => absurd hclosed (by simp [hopen])⟩
    rintro transition ⟨⟩
    exact ⟨by rintro - ⟨⟩, by rintro ⟨⟩, fun _ hopen => absurd hclosed (by simp [hopen])⟩
  | expires hstatus hclosed hexpired =>
    refine ⟨?_, fun _ _ hnotExpired => absurd hexpired (by simp [hnotExpired])⟩
    rintro transition ⟨⟩
    exact ⟨by rintro - ⟨⟩, by rintro ⟨⟩, by rintro ⟨⟩⟩
  | activates hstatus hclosed hexpired hsignal hlasted =>
    refine ⟨?_, fun hnone => absurd hnone (hsilent _ hsignal)⟩
    rintro transition ⟨⟩
    refine ⟨fun _ _ => ?_, by rintro ⟨⟩, by rintro ⟨⟩⟩
    obtain ⟨t, ht, hspan⟩ := hlasted
    exact ⟨t, (hclocked.candidate hstatus t ht).snoc ⟨hstatus, signal_eq_some.mp hsignal⟩, hspan⟩
  | weakens hstatus hclosed hsignal hlasted =>
    refine ⟨?_, fun hnone => absurd hnone (hsilent _ hsignal)⟩
    rintro transition ⟨⟩
    refine ⟨by rintro - ⟨⟩, fun _ => ⟨hstatus, ?_⟩, by rintro ⟨⟩⟩
    obtain ⟨t, ht, hspan⟩ := hlasted
    exact ⟨t, (hclocked.active hstatus t ht).snoc ⟨hstatus, signal_eq_some.mp hsignal⟩, hspan⟩
  | recovers since hstatus hclosed hsince hsignal =>
    refine ⟨?_, fun hnone => absurd hnone (hsilent _ hsignal)⟩
    rintro transition ⟨⟩
    refine ⟨fun hfrom => ?_, by rintro ⟨⟩, by rintro ⟨⟩⟩
    cases hfrom.symm.trans hstatus
  | recoversLate since hstatus hclosed hsince hsignal hwithin =>
    refine ⟨?_, fun hnone => absurd hnone (hsilent _ hsignal)⟩
    rintro transition ⟨⟩
    refine
      ⟨by rintro - ⟨⟩, by rintro ⟨⟩, fun _ _ => ⟨hstatus, .inr ⟨signal_eq_some.mp hsignal, ?_⟩⟩⟩
    exact ⟨since, hclocked.weakening hstatus since hsince, hwithin⟩
  | fades hstatus hclosed hsignal hlasted =>
    refine ⟨?_, fun hnone => absurd hnone (hsilent _ hsignal)⟩
    rintro transition ⟨⟩
    refine ⟨by rintro - ⟨⟩, by rintro ⟨⟩, fun _ _ => ⟨hstatus, .inl ?_⟩⟩
    obtain ⟨t, ht, hspan⟩ := hlasted
    have hblock :
        EndsWith (fun a => (a.before = .weakening ∨ a.after = .weakening) ∧ a.Shows false) t
        r.accepted :=
      (hclocked.weakeningBelow hstatus t ht).mono fun a ha => ⟨.inr ha.1, ha.2⟩
    exact ⟨t, hblock.snoc ⟨.inl hstatus, signal_eq_some.mp hsignal⟩, hspan⟩

/-- Ten seconds past five past nine, in Seoul. -/
def tenSecondsLater : Datetime := ⟨Events.fivePastNine.date, 9, 5, 10, 0, 32400000000, by decide⟩

/-- An input that qualifies, ten seconds after the first. -/
def secondInput : ActivationEvaluation :=
  ⟨{ inputId := "stream-1:theme-1:2", sequence := 2, evaluatedAt := tenSecondsLater
     policyVersion := HYSTERESIS_POLICY_VERSION, coverageStatus := .sufficient
     qualifies := some true }, by decide⟩

omit [Sha256] in
/-- A new theme qualifies for ten seconds and becomes active. -/
theorem transition_justified_secondInput :
    letI : Sha256 := .ofTable []
    let r := run HYSTERESIS_POLICY_V1 newTheme [firstInput]
    ∃ d, evaluateHysteresis r.state secondInput HYSTERESIS_POLICY_V1 = .ok d ∧
      d.transition.map HysteresisTransition.toStatus = some .active ∧
      ∃ t, EndsWith (fun a => a.before = .candidate ∧ a.Shows true) t
          (r.accepted ++ [⟨secondInput, r.state.lifecycleStatus, d.state.lifecycleStatus⟩]) ∧
        HYSTERESIS_POLICY_V1.activateAfter ≤ microsBetween t secondInput.evaluatedAt := by
  have hactivates :
      ∃ d ∈ (@evaluateHysteresis (.ofTable [])
          (@run (.ofTable []) HYSTERESIS_POLICY_V1 newTheme [firstInput]).state secondInput
          HYSTERESIS_POLICY_V1).toOption,
        ∃ transition ∈ d.transition,
          transition.fromStatus = .candidate ∧ transition.toStatus = .active := by
    decide +kernel
  obtain ⟨d, hsome, transition, htransition, hfrom, hto⟩ := hactivates
  have hd := toOption_eq_some.mp hsome
  have hjustified := @transition_justified (.ofTable []) HYSTERESIS_POLICY_V1 "theme-1" newTheme rfl
    [firstInput] secondInput d hd
  refine ⟨d, hd, ?_, (hjustified.1 transition htransition).1 hfrom hto⟩
  rw [htransition, Option.map_some, hto]

end HysteresisRun

end Dayjaview.Realtime
