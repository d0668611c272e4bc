import Dayjaview.Realtime.HysteresisRuns

/-!
# Redelivered inputs of the reducer

The reducer remembers its last input only. An input that was delivered before is
absorbed all the same: it is the last one, or its sequence or its time is behind
the last one, and so it stays in every later state. Redelivering inputs therefore
changes neither the state nor the transitions, and conflicts with nothing.
-/

namespace Dayjaview.Realtime

/-- Deliver inputs in order, with inputs that were already delivered again in between. -/
inductive Redelivers : List ActivationEvaluation → List ActivationEvaluation → Prop
  | nil : Redelivers [] []
  /-- The next input is delivered. -/
  | deliver {es ds : List ActivationEvaluation} (h : Redelivers es ds) (e : ActivationEvaluation) :
      Redelivers (es ++ [e]) (ds ++ [e])
  /-- An input is delivered again. -/
  | redeliver {es ds : List ActivationEvaluation} (h : Redelivers es ds) {e : ActivationEvaluation}
      (he : e ∈ es) : Redelivers es (ds ++ [e])

/-- A state of the reducer with the transitions that led to it. -/
structure HysteresisTrace where
  state : HysteresisState
  transitions : List HysteresisTransition

namespace HysteresisTrace

variable [Sha256]

/-- Take an input; one that raises changes nothing. -/
def step (policy : HysteresisPolicy) (t : HysteresisTrace) (e : ActivationEvaluation) :
    HysteresisTrace :=
  match evaluateHysteresis t.state e policy with
  | .ok d => ⟨d.state, t.transitions ++ d.transition.toList⟩
  | .error _ => t

def run (policy : HysteresisPolicy) (start : HysteresisState) (es : List ActivationEvaluation) :
    HysteresisTrace := es.foldl (step policy) ⟨start, []⟩

theorem run_snoc (policy : HysteresisPolicy) (start : HysteresisState)
    (es : List ActivationEvaluation) (e : ActivationEvaluation) :
    run policy start (es ++ [e]) = (run policy start es).step policy e := by
  rw [run, List.foldl_append]
  rfl

theorem step_state (policy : HysteresisPolicy) (t : HysteresisTrace) (e : ActivationEvaluation) :
    (t.step policy e).state = t.state.step policy e := by
  unfold HysteresisTrace.step HysteresisState.step
  cases evaluateHysteresis t.state e policy <;> rfl

/-- No input of a run conflicts with the last input. -/
def ConflictFree (policy : HysteresisPolicy) (start : HysteresisState)
    (es : List ActivationEvaluation) : Prop :=
  ∀ earlier e later, es = earlier ++ e :: later → ∀ error,
    evaluateHysteresis (run policy start earlier).state e policy = .error error →
      error.kind ≠ .hysteresisInputConflict

theorem ConflictFree.snoc {policy : HysteresisPolicy} {start : HysteresisState}
    {es : List ActivationEvaluation} {e : ActivationEvaluation} (h : ConflictFree policy start es)
    (he : ∀ error, evaluateHysteresis (run policy start es).state e policy = .error error →
      error.kind ≠ .hysteresisInputConflict) : ConflictFree policy start (es ++ [e]) := by
  intro earlier e' later heq
  rcases List.eq_nil_or_concat later with rfl | ⟨later', last, rfl⟩
  · obtain ⟨rfl, hlast⟩ := List.append_inj' heq rfl
    obtain rfl := List.singleton_inj.mp hlast
    exact he
  · rw [List.concat_eq_append, ← List.cons_append, ← List.append_assoc] at heq
    obtain ⟨rfl, -⟩ := List.append_inj' heq rfl
    exact h earlier e' later' rfl

end HysteresisTrace

variable [Sha256]

/-- Why an input that was delivered before does nothing any more. -/
inductive Absorbed (policy : HysteresisPolicy) (s : HysteresisState) (e : ActivationEvaluation) :
    Prop
  | otherPolicy (h : e.policyVersion ≠ policy.version)
  | last (hid : s.lastInputId = some e.inputId)
      (hfingerprint : s.lastInputFingerprint = some e.fingerprint)
      (hsequence : e.sequence ≤ s.lastSequence)
  /-- It is behind the last input. -/
  | behind (hid : s.lastInputId ≠ some e.inputId)
      (h : e.sequence ≤ s.lastSequence ∨ ∃ last ∈ s.lastEvaluatedAt, e.evaluatedAt < last)

variable {e : ActivationEvaluation} {policy : HysteresisPolicy} {s : HysteresisState}

theorem Absorbed.evaluate (h : Absorbed policy s e) (hpolicy : s.policyVersion = policy.version) :
    (∃ error, evaluateHysteresis s e policy = .error error ∧
        error.kind ≠ .hysteresisInputConflict) ∨
      ∃ disposition, evaluateHysteresis s e policy = .ok ⟨s, disposition, none⟩ := by
  unfold evaluateHysteresis
  rw [if_neg (not_not.mpr hpolicy)]
  by_cases hother : e.policyVersion ≠ policy.version
  · rw [if_pos hother]
    exact .inl ⟨_, rfl, by simp⟩
  rw [if_neg hother]
  right
  cases h with
  | otherPolicy h => exact absurd h hother
  | last hid hfingerprint =>
    rw [if_pos hid.symm, if_neg (not_not.mpr hfingerprint.symm)]
    exact ⟨_, rfl⟩
  | behind hid hbehind =>
    rw [if_neg (Ne.symm hid)]
    by_cases hsequence : e.sequence ≤ s.lastSequence
    · rw [if_pos hsequence]
      exact ⟨_, rfl⟩
    · rw [if_neg hsequence, if_pos (hbehind.resolve_left hsequence)]
      exact ⟨_, rfl⟩

theorem Absorbed.step_eq {t : HysteresisTrace} (h : Absorbed policy t.state e)
    (hpolicy : t.state.policyVersion = policy.version) :
    t.step policy e = t := by
  unfold HysteresisTrace.step
  obtain ⟨error, herror, -⟩ | ⟨disposition, hok⟩ := h.evaluate hpolicy
  · rw [herror]
  · rw [hok]
    simp

theorem Absorbed.step (h : Absorbed policy s e) {e' : ActivationEvaluation}
    (hne : e'.inputId ≠ e.inputId) :
    Absorbed policy (s.step policy e') e := by
  obtain hsame | ⟨d, hnew, hreduces, hstate⟩ := s.step_cases policy e'
  · rwa [hsame]
  obtain ⟨hsequence, htime⟩ := s.last_le_step policy e'
  have hid : (s.step policy e').lastInputId = some e'.inputId := by
    rw [hstate]
    exact hreduces.reduction.inputs.2.2.1
  have hother : (s.step policy e').lastInputId ≠ some e.inputId := by
    rw [hid]
    simpa using hne
  cases h with
  | otherPolicy h => exact .otherPolicy h
  | last hlast hfingerprint hle => exact .behind hother (.inl (hle.trans hsequence))
  | behind hbefore hbehind =>
    refine .behind hother ?_
    rcases hbehind with hle | ⟨last, hlast, hlt⟩
    · exact .inl (hle.trans hsequence)
    · obtain ⟨next, hnext, hle⟩ := htime last hlast
      exact .inr ⟨next, hnext, hlt.trans_le hle⟩

theorem absorbed_step_self (hwell : s.WellFormed) (hpolicy : s.policyVersion = policy.version)
    (hid : s.lastInputId ≠ some e.inputId) :
    Absorbed policy (s.step policy e) e ∧
      (∀ error, evaluateHysteresis s e policy = .error error →
        error.kind ≠ .hysteresisInputConflict) ∧
      ((s.step policy e).lastInputId = s.lastInputId ∨
        (s.step policy e).lastInputId = some e.inputId) := by
  by_cases hbehind : Absorbed policy s e
  · have hstep : s.step policy e = s := by
      rw [← HysteresisTrace.step_state policy ⟨s, []⟩ e, hbehind.step_eq hpolicy]
    refine ⟨by rwa [hstep], fun error herror => ?_, .inl (by rw [hstep])⟩
    obtain ⟨error', herror', hkind⟩ | ⟨disposition, hok⟩ := hbehind.evaluate hpolicy
    · rw [herror'] at herror
      rwa [← Except.error.inj herror]
    · rw [hok] at herror
      cases herror
  -- otherwise the input is new, in order and for the policy, so it is reduced
  have hinput : e.policyVersion = policy.version := by
    by_contra hother
    exact hbehind (.otherPolicy hother)
  have hnew : ¬ s.Ignores e.toFields := by
    rintro (hsame | hignored)
    · exact hid hsame.symm
    · exact hbehind (.behind hid hignored)
  obtain ⟨d, hd⟩ := reduceInput_ok (s := s.advance e) e policy fun hstatus =>
    (hwell.weakening hstatus).1
  have heval : evaluateHysteresis s e policy = .ok d := by
    rw [evaluateHysteresis_eq_reduceInput hpolicy hinput hnew, hd]
  have hstep : s.step policy e = d.state := by
    unfold HysteresisState.step
    rw [heval]
  obtain ⟨-, hsequence, hlastId, hfingerprint, -, -⟩ := (reduceInput_eq_ok hd).reduction.inputs
  rw [hstep]
  refine ⟨.last hlastId hfingerprint hsequence.ge, fun error herror => ?_, .inr hlastId⟩
  rw [heval] at herror
  cases herror

namespace HysteresisTrace

/-- What holds of a run with redeliveries: it ends where the run without them ends, conflicts with
nothing, and everything delivered is absorbed. -/
structure Insensitive (policy : HysteresisPolicy) (start : HysteresisState)
    (es ds : List ActivationEvaluation) : Prop where
  same : run policy start ds = run policy start es
  conflictFree : ConflictFree policy start ds
  wellFormed : (run policy start es).state.WellFormed
  policyVersion : (run policy start es).state.policyVersion = policy.version
  absorbed : ∀ e ∈ es, Absorbed policy (run policy start es).state e
  lastInputId : ∀ id ∈ (run policy start es).state.lastInputId, id ∈ es.map (·.inputId)

theorem Insensitive.deliver {policy : HysteresisPolicy} {start : HysteresisState}
    {es ds : List ActivationEvaluation} (h : Insensitive policy start es ds)
    {e : ActivationEvaluation} (he : e.inputId ∉ es.map (·.inputId)) :
    Insensitive policy start (es ++ [e]) (ds ++ [e]) := by
  have hid : (run policy start es).state.lastInputId ≠ some e.inputId := by
    intro hlast
    exact he (h.lastInputId _ hlast)
  obtain ⟨hself, hconflict, hlast⟩ := absorbed_step_self h.wellFormed h.policyVersion hid
  rw [← step_state] at hself hlast
  rw [← run_snoc] at hself hlast
  constructor
  · rw [run_snoc, run_snoc, h.same]
  · exact h.conflictFree.snoc (by rwa [h.same])
  · rw [run_snoc, step_state]
    exact h.wellFormed.step e
  · rw [run_snoc, step_state, HysteresisState.policyVersion_step, h.policyVersion]
  · intro e' he'
    rcases List.mem_append.mp he' with he' | he'
    · rw [run_snoc, step_state]
      refine (h.absorbed e' he').step fun heq => he ?_
      rw [heq]
      exact List.mem_map_of_mem he'
    · obtain rfl := List.mem_singleton.mp he'
      exact hself
  · intro id hmem
    rw [List.map_append, List.mem_append]
    rcases hlast with hlast | hlast
    · rw [hlast] at hmem
      exact .inl (h.lastInputId id hmem)
    · rw [hlast] at hmem
      obtain rfl := Option.mem_some.mp hmem
      exact .inr (by simp)

theorem Insensitive.redeliver {policy : HysteresisPolicy} {start : HysteresisState}
    {es ds : List ActivationEvaluation} (h : Insensitive policy start es ds)
    {e : ActivationEvaluation} (he : e ∈ es) : Insensitive policy start es (ds ++ [e]) where
  same := by
    rw [run_snoc, h.same]
    exact (h.absorbed e he).step_eq h.policyVersion
  conflictFree := by
    refine h.conflictFree.snoc fun error herror => ?_
    rw [h.same] at herror
    obtain ⟨error', herror', hkind⟩ | ⟨disposition, hok⟩ :=
      (h.absorbed e he).evaluate h.policyVersion
    · rw [herror'] at herror
      rwa [← Except.error.inj herror]
    · rw [hok] at herror
      cases herror
  wellFormed := h.wellFormed
  policyVersion := h.policyVersion
  absorbed := h.absorbed
  lastInputId := h.lastInputId

/-- Inputs with distinct ids that are taken from a new theme, with any of them again later on, lead
to the same state and the same transitions as without the redeliveries, and no input conflicts. -/
theorem redelivery_insensitive (policy : HysteresisPolicy) (themeId : String)
    (start : HysteresisState) (hstart : HysteresisState.candidate themeId policy = .ok start)
    (es ds : List ActivationEvaluation) (hdistinct : (es.map (·.inputId)).Nodup)
    (h : Redelivers es ds) :
    run policy start ds = run policy start es ∧ ConflictFree policy start ds := by
  obtain ⟨-, -, hid, -, -, -, hpolicy⟩ := HysteresisState.candidate_eq_ok hstart
  have hinsensitive : Insensitive policy start es ds := by
    induction h with
    | nil =>
      exact ⟨rfl, fun earlier e later heq => by simp at heq,
        HysteresisState.wellFormed_candidate hstart, hpolicy, by simp, by simp [run, hid]⟩
    | @deliver es ds _ e ih =>
      rw [List.map_append, List.map_singleton, List.nodup_append] at hdistinct
      refine (ih hdistinct.1).deliver fun hmem => ?_
      exact hdistinct.2.2 _ hmem _ (List.mem_singleton.mpr rfl) rfl
    | redeliver _ he ih => exact (ih hdistinct).redeliver he
  exact ⟨hinsensitive.same, hinsensitive.conflictFree⟩

omit [Sha256] in
/-- The first input of a theme that becomes active comes again afterwards. -/
theorem redelivery_insensitive_firstInput :
    letI : Sha256 := .ofTable []
    let ds := [HysteresisState.firstInput, HysteresisRun.secondInput, HysteresisState.firstInput]
    run HYSTERESIS_POLICY_V1 HysteresisState.newTheme ds =
        run HYSTERESIS_POLICY_V1 HysteresisState.newTheme
          [HysteresisState.firstInput, HysteresisRun.secondInput] ∧
      ConflictFree HYSTERESIS_POLICY_V1 HysteresisState.newTheme ds :=
  @redelivery_insensitive (.ofTable []) HYSTERESIS_POLICY_V1 "theme-1" HysteresisState.newTheme rfl
    [HysteresisState.firstInput, HysteresisRun.secondInput] _ (by decide)
    (.redeliver (.deliver (.deliver .nil _) _) (List.mem_cons_self ..))

end HysteresisTrace

end Dayjaview.Realtime
