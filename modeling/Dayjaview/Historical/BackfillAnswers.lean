import Dayjaview.Historical.Backfill

/-!
# What the answers of a source say

The answers decide alone how many of some requests are stored and how they end. A
request ends a run with the first answer that is none, that cannot be counted, or that is
one empty answer too many.
-/

namespace Dayjaview.Historical

def SourceAnswer.payload? : SourceAnswer → Option (List (String × Json))
  | .payload fields => some fields
  | .transportError _ | .contractError _ | .raised _ => none

/-- The source answers with rows that can be counted. -/
def Served (source : Slot → SourceAnswer) (slot : Slot) : Prop :=
  ∃ fields rows, source slot = .payload fields ∧ rowCount fields = .ok rows

/-- The source answers without rows. -/
def answersEmpty (source : Slot → SourceAnswer) (slot : Slot) : Bool :=
  match source slot with
  | .payload fields =>
    match rowCount fields with
    | .ok rows => rows == 0
    | .error _ => false
  | .transportError _ | .contractError _ | .raised _ => false

/-- The empty answers for a market at the end of some requests. -/
def emptyStreak (source : Slot → SourceAnswer) (market : Market) (made : List Slot) : Nat :=
  ((made.filter (·.market = market)).reverse.takeWhile (answersEmpty source)).length

/-- How the requests end when nothing cuts them off. -/
inductive Outcome where
  | complete
  | transport
  | refused
  | unavailable
  | raised (error : Error)

/-- What is reported of an outcome. -/
def Outcome.verdict : Outcome → Option (BackfillStatus × Option StopReason)
  | complete => some (.complete, none)
  | transport => some (.stopped, some .transportFailure)
  | refused => some (.failed, some .sourceContractFailure)
  | unavailable => some (.failed, some .dataUnavailable)
  | raised _ => none

/-- How a request ends the run after some others, and how many files it leaves. -/
def halt (source : Slot → SourceAnswer) (made : List Slot) (slot : Slot) : Option (Nat × Outcome) :=
  match source slot with
  | .payload fields =>
    match rowCount fields with
    | .error e => some (1, .raised e)
    | .ok _ =>
      if EMPTY_STREAK_LIMIT ≤ emptyStreak source slot.market (made ++ [slot]) then
        some (1, .unavailable)
      else none
  | .transportError _ => some (0, .transport)
  | .contractError _ => some (0, .refused)
  | .raised e => some (0, .raised e)

/-- How many of some requests are stored after others were made, and how they end. -/
def settle (source : Slot → SourceAnswer) : List Slot → List Slot → Nat × Outcome
  | _, [] => (0, .complete)
  | made, slot :: rest =>
    match halt source made slot with
    | some ended => ended
    | none => ((settle source (made ++ [slot]) rest).1 + 1, (settle source (made ++ [slot]) rest).2)

def Quiet (source : Slot → SourceAnswer) (made : List Slot) : Prop :=
  ∀ before slot after, made = before ++ slot :: after →
    Served source slot ∧ emptyStreak source slot.market (before ++ [slot]) < EMPTY_STREAK_LIMIT

section Answers

variable {source : Slot → SourceAnswer} {made : List Slot} {slot : Slot}

theorem emptyStreak_concat (market : Market) (made : List Slot) (slot : Slot) :
    emptyStreak source market (made ++ [slot]) =
      if slot.market = market then
        if answersEmpty source slot then emptyStreak source market made + 1 else 0
      else emptyStreak source market made := by
  by_cases hmarket : slot.market = market
  · by_cases hempty : answersEmpty source slot = true
    · simp [emptyStreak, List.filter_append, hmarket, hempty]
    · simp [emptyStreak, List.filter_append, hmarket, hempty]
  · simp [emptyStreak, List.filter_append, hmarket]

theorem emptyStreak_le_append (market : Market) (first made : List Slot) :
    emptyStreak source market made ≤ emptyStreak source market (first ++ made) := by
  simp only [emptyStreak, List.filter_append, List.reverse_append]
  rw [List.takeWhile_append]
  split
  · rw [List.length_append]
    have hle := (List.takeWhile_sublist (answersEmpty source)
      (l := (made.filter (·.market = market)).reverse)).length_le
    omega
  · exact Nat.le_refl _

theorem halt_eq_none_iff : halt source made slot = none ↔
    Served source slot ∧ emptyStreak source slot.market (made ++ [slot]) < EMPTY_STREAK_LIMIT := by
  unfold halt Served
  cases hanswer : source slot with
  | payload fields =>
    cases hrows : rowCount fields with
    | error e => simp [hrows]
    | ok rows => simp [hrows]
  | transportError messageKo => simp
  | contractError messageKo => simp
  | raised e => simp

theorem settle_cons_of_halt {rest : List Slot} {ended : Nat × Outcome}
    (h : halt source made slot = some ended) : settle source made (slot :: rest) = ended := by
  simp only [settle, h]

theorem settle_cons_of_none {rest : List Slot} (h : halt source made slot = none) :
    settle source made (slot :: rest) =
      ((settle source (made ++ [slot]) rest).1 + 1, (settle source (made ++ [slot]) rest).2) := by
  simp only [settle, h]

theorem settle_cases (source : Slot → SourceAnswer) (made rest : List Slot) :
    (settle source made rest = (rest.length, .complete) ∧
      ∀ before slot after, rest = before ++ slot :: after →
      halt source (made ++ before) slot = none) ∨
    ∃ before slot after ended, rest = before ++ slot :: after ∧
      (∀ first s last, before = first ++ s :: last → halt source (made ++ first) s = none) ∧
      halt source (made ++ before) slot = some ended ∧
      settle source made rest = (before.length + ended.1, ended.2) := by
  induction rest generalizing made with
  | nil =>
    refine .inl ⟨rfl, ?_⟩
    intro before slot after h
    simp at h
  | cons slot rest ih =>
    cases hhalt : halt source made slot with
    | some ended =>
      refine .inr ⟨[], slot, rest, ended, rfl, ?_, by rwa [List.append_nil], ?_⟩
      · intro first s last h
        simp at h
      · rw [settle_cons_of_halt hhalt, List.length_nil, Nat.zero_add]
    | none =>
      have hconcat : ∀ before : List Slot, made ++ [slot] ++ before = made ++ slot :: before := by
        simp
      have hquiet : ∀ before : List Slot,
          (∀ first s last, before = first ++ s :: last →
            halt source (made ++ [slot] ++ first) s = none) →
          ∀ first s last, slot :: before = first ++ s :: last →
            halt source (made ++ first) s = none := by
        intro before hbefore first s last h
        cases first with
        | nil =>
          rw [List.nil_append, List.cons.injEq] at h
          rwa [List.append_nil, ← h.1]
        | cons s' first =>
          rw [List.cons_append, List.cons.injEq] at h
          rw [← h.1, ← hconcat]
          exact hbefore first s last h.2
      rw [settle_cons_of_none hhalt]
      rcases ih (made ++ [slot]) with ⟨hsettle, hnone⟩ |
          ⟨before, s, after, ended, hrest, hnone, hs, hsettle⟩
      · exact .inl ⟨by rw [hsettle, List.length_cons], hquiet rest hnone⟩
      · refine .inr ⟨slot :: before, s, after, ended, by rw [hrest, List.cons_append],
          hquiet before hnone, by rwa [← hconcat], ?_⟩
        rw [hsettle, List.length_cons]
        simp only [Prod.mk.injEq, and_true]
        omega

theorem halt_cases {ended : Nat × Outcome} (h : halt source made slot = some ended) :
    (∃ fields e, source slot = .payload fields ∧ rowCount fields = .error e ∧
      ended = (1, .raised e)) ∨
    (Served source slot ∧ EMPTY_STREAK_LIMIT ≤ emptyStreak source slot.market (made ++ [slot]) ∧
      ended = (1, .unavailable)) ∨
    ((source slot).payload? = none ∧ ended.1 = 0 ∧ ended.2 ≠ .complete ∧ ended.2 ≠ .unavailable ∧
      ∀ others, halt source others slot = some ended) := by
  unfold halt at h ⊢
  cases hanswer : source slot with
  | payload fields =>
    rw [hanswer] at h
    cases hrows : rowCount fields with
    | error e =>
      simp only [hrows, Option.some.injEq] at h
      exact .inl ⟨fields, e, rfl, hrows, h.symm⟩
    | ok rows =>
      simp only [hrows] at h
      split at h
      · rename_i hstreak
        exact .inr (.inl ⟨⟨fields, rows, hanswer, hrows⟩, hstreak, (Option.some.inj h).symm⟩)
      · cases h
  | transportError messageKo | contractError messageKo | raised e =>
    simp only [hanswer, Option.some.injEq] at h
    simp [SourceAnswer.payload?, ← h]

theorem bounds_of_halt {ended : Nat × Outcome} (h : halt source made slot = some ended) :
    ended.1 ≤ 1 ∧ ended.2 ≠ .complete := by
  rcases halt_cases h with ⟨_, _, _, _, rfl⟩ | ⟨_, _, rfl⟩ | ⟨_, hzero, hne, _⟩
  · simp
  · simp
  · exact ⟨by omega, hne⟩

theorem settle_fst_le (source : Slot → SourceAnswer) (made rest : List Slot) :
    (settle source made rest).1 ≤ rest.length := by
  rcases settle_cases source made rest with ⟨hsettle, -⟩ |
      ⟨before, slot, after, ended, hrest, -, hhalt, hsettle⟩
  · rw [hsettle]
  · have hone := (bounds_of_halt hhalt).1
    rw [hsettle, hrest, List.length_append, List.length_cons]
    show before.length + ended.1 ≤ before.length + (after.length + 1)
    omega

theorem settle_eq_of_complete {rest : List Slot} (h : (settle source made rest).2 = .complete) :
    settle source made rest = (rest.length, .complete) := by
  rcases settle_cases source made rest with ⟨hsettle, -⟩ |
      ⟨before, slot, after, ended, -, -, hhalt, hsettle⟩
  · exact hsettle
  · rw [hsettle] at h
    exact absurd h (bounds_of_halt hhalt).2

theorem settle_append_of_complete {xs : List Slot} (h : (settle source made xs).2 = .complete)
    (ys : List Slot) : settle source made (xs ++ ys) =
      (xs.length + (settle source (made ++ xs) ys).1, (settle source (made ++ xs) ys).2) := by
  induction xs generalizing made with
  | nil => simp
  | cons slot xs ih =>
    cases hhalt : halt source made slot with
    | some ended =>
      rw [settle_cons_of_halt hhalt] at h
      exact absurd h (bounds_of_halt hhalt).2
    | none =>
      rw [settle_cons_of_none hhalt] at h
      rw [List.cons_append, settle_cons_of_none hhalt, ih h, List.append_assoc]
      simp only [List.singleton_append, List.length_cons, Prod.mk.injEq, and_true]
      omega

theorem settle_append_of_ne {xs : List Slot} (h : (settle source made xs).2 ≠ .complete)
    (ys : List Slot) : settle source made (xs ++ ys) = settle source made xs := by
  induction xs generalizing made with
  | nil => exact absurd rfl h
  | cons slot xs ih =>
    cases hhalt : halt source made slot with
    | some ended => rw [List.cons_append, settle_cons_of_halt hhalt, settle_cons_of_halt hhalt]
    | none =>
      rw [settle_cons_of_none hhalt] at h
      rw [List.cons_append, settle_cons_of_none hhalt, settle_cons_of_none hhalt, ih h]

theorem settle_fst_le_append (source : Slot → SourceAnswer) (made xs ys : List Slot) :
    (settle source made xs).1 ≤ (settle source made (xs ++ ys)).1 := by
  by_cases h : (settle source made xs).2 = .complete
  · rw [settle_append_of_complete h, settle_eq_of_complete h]
    exact Nat.le_add_right _ _
  · rw [settle_append_of_ne h]

theorem isSome_payload_of_mem_take {rest : List Slot} {k : Nat}
    (hk : k ≤ (settle source made rest).1)
    (hslot : slot ∈ rest.take k) : (source slot).payload?.isSome = true := by
  induction rest generalizing made k with
  | nil => simp at hslot
  | cons s rest ih =>
    cases k with
    | zero => simp at hslot
    | succ k =>
      cases hhalt : halt source made s with
      | some ended =>
        rw [settle_cons_of_halt hhalt] at hk
        rcases halt_cases hhalt with ⟨fields, _, hanswer, _, rfl⟩ |
            ⟨⟨fields, _, hanswer, _⟩, _, rfl⟩ |
          ⟨_, hzero, _⟩
        · obtain rfl : k = 0 := by simpa using hk
          obtain rfl : slot = s := by simpa using hslot
          rw [hanswer]
          rfl
        · obtain rfl : k = 0 := by simpa using hk
          obtain rfl : slot = s := by simpa using hslot
          rw [hanswer]
          rfl
        · omega
      | none =>
        rw [settle_cons_of_none hhalt] at hk
        rw [List.take_succ_cons, List.mem_cons] at hslot
        rcases hslot with rfl | hslot
        · obtain ⟨⟨fields, _, hanswer, _⟩, -⟩ := halt_eq_none_iff.mp hhalt
          rw [hanswer]
          rfl
        · exact ih (Nat.le_of_succ_le_succ hk) hslot

theorem settle_fst_pos {rest : List Slot} (h : (settle source made rest).2 = .unavailable) :
    0 < (settle source made rest).1 := by
  rcases settle_cases source made rest with ⟨hsettle, -⟩ |
      ⟨before, s, after, ended, -, -, hhalt, hsettle⟩
  · rw [hsettle] at h
    cases h
  · rw [hsettle] at h ⊢
    have hended : ended.2 = .unavailable := h
    rcases halt_cases hhalt with ⟨_, _, _, _, rfl⟩ | ⟨_, _, rfl⟩ | ⟨_, _, _, hne, _⟩
    · cases hended
    · exact Nat.succ_pos _
    · exact absurd hended hne

theorem quiet_iff : Quiet source made ↔
    ∀ first s last, made = first ++ s :: last → halt source first s = none := by
  simp only [Quiet, halt_eq_none_iff]

theorem Quiet.settle_eq (h : Quiet source made) :
    settle source [] made = (made.length, .complete) := by
  rcases settle_cases source [] made with ⟨hsettle, -⟩ |
    ⟨before, s, after, ended, hmade, -, hhalt, -⟩
  · exact hsettle
  · have hnone := quiet_iff.mp h before s after hmade
    rw [List.nil_append, hnone] at hhalt
    cases hhalt

theorem Quiet.of_append {first : List Slot} (h : Quiet source (first ++ made)) :
    Quiet source made := by
  intro before s after hmade
  obtain ⟨hserved, hstreak⟩ := h (first ++ before) s after (by rw [hmade, List.append_assoc])
  rw [List.append_assoc] at hstreak
  exact ⟨hserved, (emptyStreak_le_append s.market first (before ++ [s])).trans_lt hstreak⟩

theorem Quiet.drop (h : Quiet source made) (k : Nat) : Quiet source (made.drop k) := by
  rw [← List.take_append_drop k made] at h
  exact h.of_append

theorem quiet_or_halt (source : Slot → SourceAnswer) (rest : List Slot) : Quiet source rest ∨
    ∃ before s after ended, rest = before ++ s :: after ∧ Quiet source before ∧
      halt source before s = some ended ∧
        settle source [] rest = (before.length + ended.1, ended.2) := by
  rcases settle_cases source [] rest with ⟨-, hnone⟩ |
    ⟨before, s, after, ended, hrest, hnone, hhalt, hsettle⟩
  · exact .inl (quiet_iff.mpr hnone)
  · exact .inr ⟨before, s, after, ended, hrest, quiet_iff.mpr hnone, hhalt, hsettle⟩

theorem halt_unique {before after before' after' : List Slot} {s s' : Slot} {ended : Nat × Outcome}
    (hhalt : halt source before s = some ended) (hquiet : Quiet source before')
    (hsame : before ++ s :: after = before' ++ s' :: after') (hquiet' : Quiet source before) :
    halt source before' s' = none ∨ before' = before ∧ s' = s := by
  rcases List.append_eq_append_iff.mp hsame with ⟨between, hbetween, hrest⟩ |
      ⟨between, hbetween, hrest⟩
  · cases between with
    | nil =>
      rw [List.nil_append, List.cons.injEq] at hrest
      exact .inr ⟨by rw [hbetween, List.append_nil], hrest.1.symm⟩
    | cons first between =>
      rw [List.cons_append, List.cons.injEq] at hrest
      obtain ⟨rfl, -⟩ := hrest
      rw [quiet_iff.mp hquiet before s between hbetween] at hhalt
      cases hhalt
  · cases between with
    | nil =>
      rw [List.nil_append, List.cons.injEq] at hrest
      exact .inr ⟨by rw [hbetween, List.append_nil], hrest.1⟩
    | cons first between =>
      rw [List.cons_append, List.cons.injEq] at hrest
      obtain ⟨rfl, -⟩ := hrest
      exact .inl (quiet_iff.mp hquiet' before' s' between hbetween)

theorem settle_quiet_append {rest : List Slot} (h : Quiet source made) :
    settle source [] (made ++ rest) =
      (made.length + (settle source made rest).1, (settle source made rest).2) := by
  have hcomplete : (settle source [] made).2 = .complete := by rw [h.settle_eq]
  have happend := settle_append_of_complete hcomplete rest
  rwa [List.nil_append] at happend

end Answers

end Dayjaview.Historical
