import Mathlib.Data.List.Range
import Mathlib.Tactic

/-!
# Scanning a text from the left

A pattern says where its match ends that begins at a place. The matches of a text are found from the
left, and none begins within another one. A scan goes on behind a match as if it began there. Two
scans are compared where one has a further condition on its matches: dropping the matches that fail
afterwards gives the same as never finding them, exactly if no other match begins within one that
fails.
-/

namespace Dayjaview.Scanning

/-- The matches that begin at some places, as long as these lie behind the last match. -/
def collect (fits : Nat → Option Nat) (next : Nat) : List Nat → List (Nat × Nat)
  | [] => []
  | place :: places =>
    if place < next then collect fits next places
    else
      match fits place with
      | none => collect fits next places
      | some stop => (place, stop) :: collect fits (max stop (place + 1)) places

/-- The matches that begin from one place up to another one. -/
def finditer (fits : Nat → Option Nat) (start stop : Nat) : List (Nat × Nat) :=
  collect fits start (List.range' start (stop + 1 - start))

/-- Where a scan goes on behind a match. -/
def resume (m : Nat × Nat) : Nat := max m.2 (m.1 + 1)

variable {fits : Nat → Option Nat} {start stop : Nat}

theorem collect_skip {place next : Nat} (h : place ≤ next) (n : Nat) :
    collect fits next (List.range' place n) = collect fits next
      (List.range' next (place + n - next)) := by
  induction n generalizing place with
  | zero =>
    have hzero : place + 0 - next = 0 := by omega
    rw [hzero]
    rfl
  | succ n ih =>
    rcases h.lt_or_eq with hlt | rfl
    · rw [List.range'_succ, collect, if_pos hlt, ih hlt]
      congr 2
      omega
    · rw [Nat.add_sub_cancel_left]

theorem collect_of_le {place next : Nat} (h : next ≤ place) (n : Nat) :
    collect fits next (List.range' place n) = collect fits place (List.range' place n) := by
  induction n generalizing place next with
  | zero => rfl
  | succ n ih =>
    rw [List.range'_succ, collect, collect, if_neg h.not_gt, if_neg (lt_irrefl place)]
    cases fits place with
    | none =>
      show collect fits next _ = collect fits place _
      rw [ih (h.trans (Nat.le_succ place)), ih (Nat.le_succ place)]
    | some e => rfl

theorem finditer_of_lt (h : stop < start) : finditer fits start stop = [] := by
  have hzero : stop + 1 - start = 0 := by omega
  rw [finditer, hzero]
  rfl

theorem finditer_none (hle : start ≤ stop) (h : fits start = none) :
    finditer fits start stop = finditer fits (start + 1) stop := by
  have hsucc : stop + 1 - start = (stop + 1 - (start + 1)) + 1 := by omega
  rw [finditer, hsucc, List.range'_succ, collect, if_neg (lt_irrefl start), h]
  exact collect_of_le (Nat.le_succ start) _

theorem finditer_some {e : Nat} (hle : start ≤ stop) (h : fits start = some e) :
    finditer fits start stop = (start, e) :: finditer fits (resume (start, e)) stop := by
  have hsucc : stop + 1 - start = (stop + 1 - (start + 1)) + 1 := by omega
  have hnext : start + 1 ≤ resume (start, e) := le_max_right _ _
  rw [finditer, hsucc, List.range'_succ, collect, if_neg (lt_irrefl start), h]
  show (start, e) :: collect fits (resume (start, e)) _ = _
  rw [collect_skip hnext, finditer]
  congr 3
  omega

theorem finditer_induction {motive : Nat → List (Nat × Nat) → Prop}
    (done : ∀ start, stop < start → motive start [])
    (skip : ∀ start, start ≤ stop → fits start = none →
      motive (start + 1) (finditer fits (start + 1) stop) →
      motive start (finditer fits (start + 1) stop))
    (take : ∀ start e, start ≤ stop → fits start = some e →
      motive (resume (start, e)) (finditer fits (resume (start, e)) stop) →
        motive start ((start, e) :: finditer fits (resume (start, e)) stop))
    (start : Nat) : motive start (finditer fits start stop) := by
  induction hn : stop + 1 - start using Nat.strong_induction_on generalizing start with
  | h n ih =>
    rcases lt_or_ge stop start with hlt | hle
    · rw [finditer_of_lt hlt]
      exact done start hlt
    · cases hfits : fits start with
      | none =>
        rw [finditer_none hle hfits]
        exact skip start hle hfits (ih _ (by omega) (start + 1) rfl)
      | some e =>
        have hnext : start + 1 ≤ resume (start, e) := le_max_right _ _
        rw [finditer_some hle hfits]
        exact take start e hle hfits (ih _ (by omega) (resume (start, e)) rfl)

theorem mem_finditer {m : Nat × Nat} (h : m ∈ finditer fits start stop) :
    start ≤ m.1 ∧ m.1 ≤ stop ∧ fits m.1 = some m.2 := by
  revert h
  refine finditer_induction (motive := fun start ms => m ∈ ms → start ≤ m.1 ∧ m.1 ≤ stop ∧
    fits m.1 = some m.2) (fun _ _ h => by cases h) ?_ ?_ start
  · intro start hle hfits ih h
    obtain ⟨hstart, hrest⟩ := ih h
    exact ⟨by omega, hrest⟩
  · intro start e hle hfits ih h
    rcases List.mem_cons.mp h with rfl | h
    · exact ⟨le_rfl, hle, hfits⟩
    · obtain ⟨hstart, hrest⟩ := ih h
      have hnext : start + 1 ≤ resume (start, e) := le_max_right _ _
      exact ⟨by omega, hrest⟩

theorem pairwise_finditer (fits : Nat → Option Nat) (start stop : Nat) :
    (finditer fits start stop).Pairwise fun m n => resume m ≤ n.1 := by
  refine finditer_induction (motive := fun _ ms => ms.Pairwise fun m n => resume m ≤ n.1)
    (fun _ _ => .nil) (fun _ _ _ ih => ih) ?_ start
  intro start e hle hfits ih
  exact .cons (fun n hn => (mem_finditer hn).1) ih

theorem finditer_split {earlier later : List (Nat × Nat)} {m : Nat × Nat}
    (h : finditer fits start stop = earlier ++ m :: later) :
    later = finditer fits (resume m) stop := by
  suffices hall : ∀ earlier, finditer fits start stop = earlier ++ m :: later →
      later = finditer fits (resume m) stop from hall earlier h
  refine finditer_induction (motive := fun _ ms => ∀ earlier, ms = earlier ++ m :: later →
    later = finditer fits (resume m) stop) ?_ (fun _ _ _ ih => ih) ?_ start
  · intro start hlt earlier h
    cases earlier <;> cases h
  · intro start e hle hfits ih earlier h
    cases earlier with
    | nil =>
      cases h
      rfl
    | cons first earlier => exact ih earlier (List.cons.inj h).2

theorem exists_match {place : Nat} (hstart : start ≤ place) (hstop : place ≤ stop)
    (hfits : fits place ≠ none) : ∃ m ∈ finditer fits start stop, m.1 ≤ place ∧
    place < resume m := by
  revert hstart
  refine finditer_induction (motive := fun start ms => start ≤ place →
    ∃ m ∈ ms, m.1 ≤ place ∧ place < resume m) ?_ ?_ ?_ start
  · intro start hlt hstart
    omega
  · intro start hle hnone ih hstart
    have hne : start ≠ place := fun h => hfits (h ▸ hnone)
    exact ih (by omega)
  · intro start e hle hsome ih hstart
    rcases lt_or_ge place (resume (start, e)) with hlt | hge
    · exact ⟨_, List.mem_cons_self, hstart, hlt⟩
    · obtain ⟨m, hm, hbetween⟩ := ih hge
      exact ⟨m, List.mem_cons_of_mem _ hm, hbetween⟩

theorem finditer_past {next : Nat} (hle : start ≤ next)
    (hnone : ∀ place, start ≤ place → place < next → place ≤ stop → fits place = none) :
    finditer fits start stop = finditer fits next stop := by
  induction hn : next - start generalizing start with
  | zero =>
    obtain rfl : start = next := by omega
    rfl
  | succ n ih =>
    rcases lt_or_ge stop start with hlt | hge
    · rw [finditer_of_lt hlt, finditer_of_lt (by omega)]
    · rw [finditer_none hge (hnone start le_rfl (by omega) hge)]
      refine ih (by omega) (fun place hplace => hnone place (by omega)) (by omega)

/-- The matches of one pattern that have a property are those of another one: both begin alike where
the property holds, and the second one fits nowhere else. -/
structure Refines (fits fits' : Nat → Option Nat) (good : Nat × Nat → Bool) : Prop where
  keep : ∀ place e, fits place = some e → good (place, e) = true → fits' place = some e
  only : ∀ place, fits' place ≠ none → fits place ≠ none

/-- Dropping the bad matches gives the matches of the second pattern, exactly if that one fits at no
place within a bad match. -/
theorem filter_finditer_eq_iff {fits' : Nat → Option Nat} {good : Nat × Nat → Bool}
    (h : Refines fits fits' good) (start stop : Nat) :
    (finditer fits start stop).filter good = finditer fits' start stop ↔
      ∀ m ∈ finditer fits start stop, good m = false →
        ∀ place, m.1 ≤ place → place < resume m → place ≤ stop → fits' place = none := by
  refine finditer_induction (motive := fun start ms => ms.filter good = finditer fits' start stop ↔
    ∀ m ∈ ms, good m = false →
      ∀ place, m.1 ≤ place → place < resume m → place ≤ stop → fits' place = none) ?_ ?_ ?_ start
  · intro start hlt
    rw [finditer_of_lt hlt]
    simp
  · intro start hle hnone ih
    have hnone' : fits' start = none := by_contra fun hne => h.only start hne hnone
    rw [finditer_none hle hnone']
    exact ih
  · intro start e hle hsome ih
    rw [List.forall_mem_cons, ← ih]
    cases hgood : good (start, e) with
    | true =>
      rw [List.filter_cons_of_pos hgood, finditer_some hle (h.keep start e hsome hgood)]
      simp
    | false =>
      rw [List.filter_cons_of_neg (by simp [hgood])]
      have hnext : start + 1 ≤ resume (start, e) := le_max_right _ _
      by_cases hclear : ∀ place, start ≤ place → place < resume (start, e) → place ≤ stop →
          fits' place = none
      · rw [finditer_past (by omega) hclear]
        exact (and_iff_right fun _ => hclear).symm
      · -- the second scan has a match within the bad one, the first scan goes on behind it
        refine iff_of_false (fun hsame => hclear fun place hstart hplace hstop => ?_)
          fun hboth => hclear (hboth.1 rfl)
        by_contra hne
        obtain ⟨m, hm, hbegin, -⟩ := exists_match hstart hstop hne
        rw [← hsame] at hm
        have hbehind := (mem_finditer (List.mem_of_mem_filter hm)).1
        omega

section Names

variable (same : Char → Char → Bool)

/-- A text begins with a name, up to a likeness of the characters. -/
def startsAs : List Char → List Char → Bool
  | [], _ => true
  | _ :: _, [] => false
  | c :: name, d :: text => same c d && startsAs name text

/-- The end of the first of some names that begins at a place. -/
def nameAt (names : List (List Char)) (text : List Char) (place : Nat) : Option Nat :=
  (names.find? fun name => startsAs same name (text.drop place)).map fun name => place + name.length

/-- The end of the longest good name that begins at a place. -/
def longestAt (good : Nat × Nat → Bool) (names : List (List Char)) (text : List Char)
    (place : Nat) : Option Nat :=
  (((names.filter fun name => startsAs same name (text.drop place)).map fun name =>
    place + name.length).filter fun e => good (place, e)).max?

variable {same} {good : Nat × Nat → Bool} {names names' : List (List Char)} {text : List Char}
  {place : Nat}

theorem longestAt_eq_some {e : Nat} : longestAt same good names text place = some e ↔
    (∃ name ∈ names, startsAs same name (text.drop place) = true ∧ place + name.length = e) ∧
      good (place, e) = true ∧
      ∀ name ∈ names, startsAs same name (text.drop place) = true →
        good (place, place + name.length) = true → place + name.length ≤ e := by
  unfold longestAt
  rw [List.max?_eq_some_iff]
  simp only [List.mem_filter, List.mem_map, forall_exists_index, and_imp, and_assoc]
  constructor
  · rintro ⟨hname, hgood, hmax⟩
    exact
      ⟨hname, hgood, fun other hother hstarts' hgood' => hmax _ other hother hstarts' rfl hgood'⟩
  · rintro ⟨hname, hgood, hmax⟩
    refine ⟨hname, hgood, ?_⟩
    rintro _ other hother hstarts' rfl hgood'
    exact hmax other hother hstarts' hgood'

theorem longestAt_eq_none : longestAt same good names text place = none ↔
    ∀ name ∈ names, startsAs same name (text.drop place) = true →
      good (place, place + name.length) = false := by
  unfold longestAt
  rw [List.max?_eq_none_iff, List.filter_eq_nil_iff]
  simp only [List.mem_map, List.mem_filter, forall_exists_index, and_imp, Bool.not_eq_true]
  constructor
  · exact fun h name hname hstarts => h _ name hname hstarts rfl
  · rintro h _ name hname hstarts rfl
    exact h name hname hstarts

theorem nameAt_eq_longestAt (hmem : ∀ name, name ∈ names ↔ name ∈ names')
    (hsorted : names.Pairwise fun a b => b.length ≤ a.length) :
    nameAt same names text place = longestAt same (fun _ => true) names' text place := by
  unfold nameAt
  cases hfind : names.find? fun name => startsAs same name (text.drop place) with
  | none =>
    rw [List.find?_eq_none] at hfind
    exact (longestAt_eq_none.mpr fun name hname hstarts =>
      absurd hstarts (hfind name ((hmem name).mpr hname))).symm
  | some name =>
    obtain ⟨hstarts, earlier, later, hsplit, hearlier⟩ := List.find?_eq_some_iff_append.mp hfind
    have hname : name ∈ names := List.mem_of_find?_eq_some hfind
    refine (longestAt_eq_some.mpr ⟨⟨name, (hmem name).mp hname, hstarts, rfl⟩, rfl, ?_⟩).symm
    intro other hother hstarts' _
    have hlater : other ∈ name :: later := by
      have hin := (hmem other).mpr hother
      rw [hsplit] at hin
      rcases List.mem_append.mp hin with hin | hin
      · have hnot := hearlier other hin
        rw [hstarts'] at hnot
        cases hnot
      · exact hin
    rw [hsplit] at hsorted
    obtain ⟨hfirst, -⟩ := List.pairwise_cons.mp (List.pairwise_append.mp hsorted).2.1
    rcases List.mem_cons.mp hlater with rfl | hlater
    · exact le_rfl
    · exact Nat.add_le_add_left (hfirst other hlater) place

theorem refines_longestAt (same : Char → Char → Bool) (good : Nat × Nat → Bool)
    (names : List (List Char)) (text : List Char) :
    Refines (longestAt same (fun _ => true) names text) (longestAt same good names text) good where
  keep place e h hgood := by
    obtain ⟨hname, -, hmax⟩ := longestAt_eq_some.mp h
    exact longestAt_eq_some.mpr ⟨hname, hgood, fun name hin hstarts _ => hmax name hin hstarts rfl⟩
  only place h hnone := by
    refine h (longestAt_eq_none.mpr fun name hname hstarts => ?_)
    exact absurd (longestAt_eq_none.mp hnone name hname hstarts) (by decide)

end Names

end Dayjaview.Scanning
