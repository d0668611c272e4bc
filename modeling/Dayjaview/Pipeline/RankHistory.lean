import Dayjaview.Core.Decimal
import Dayjaview.Core.Dict
import Dayjaview.Core.Timedelta

/-!
# The ranks of earlier publications

Each publication leaves the ranks of its themes in a history. What is too old for the longest look
back is dropped, but for one publication. A look back within that window finds what it would find in
the whole history.
-/

namespace Dayjaview.Pipeline

/-- The rank and the return of each event. -/
abbrev Ranks := Dict String (Int × Option Decimal)

/-- The publications that are kept, the oldest first. -/
abbrev RankHistory := List (Datetime × Ranks)

/-- The longest look back, of five minutes. -/
def RISING_RETURN_WINDOW : Int := 300000000

/-- Drop the oldest publications as long as the next one is old enough. -/
def dropOld (cutoff : Datetime) : RankHistory → RankHistory
  | [] => []
  | [first] => [first]
  | first :: second :: rest =>
    if second.1 ≤ cutoff then dropOld cutoff (second :: rest) else first :: second :: rest

/-- Remember the ranks of a publication. -/
def rememberRanks (history : RankHistory) (ranks : Ranks) (now : Datetime) :
    Except Error Unit × RankHistory :=
  let history := history ++ [(now, ranks)]
  match now.plus (-RISING_RETURN_WINDOW) with
  | .error e => (.error e, history)
  | .ok cutoff => (.ok (), dropOld cutoff history)

/-- What was found, or what is found in the rest of a history, up to a time. -/
def ranksFrom (found : Option Ranks) (time : Datetime) : RankHistory → Option Ranks
  | [] => found
  | (stamp, ranks) :: rest => if time < stamp then found else ranksFrom (some ranks) time rest

/-- The ranks of the last publication up to a time. -/
def ranksAt (history : RankHistory) (time : Datetime) : Option Ranks := ranksFrom none time history

/-- The history after some publications. -/
def historyAfter (calls : RankHistory) : RankHistory :=
  calls.foldl (fun history call => (rememberRanks history call.2 call.1).2) []

variable {history calls : RankHistory} {cutoff time now : Datetime} {found : Option Ranks}

theorem dropOld_suffix (cutoff : Datetime) (history : RankHistory) :
    dropOld cutoff history <:+ history := by
  fun_induction dropOld cutoff history with
  | case1 => exact List.suffix_rfl
  | case2 first => exact List.suffix_rfl
  | case3 first second rest hold ih => exact ih.trans (List.suffix_cons first (second :: rest))
  | case4 first second rest hold => exact List.suffix_rfl

/-- What is dropped lies behind the next publication, which is old enough as well. -/
theorem ranksAt_dropOld (hsorted : history.Pairwise fun a b => a.1 ≤ b.1)
    (hcutoff : cutoff ≤ time) : ranksAt (dropOld cutoff history) time = ranksAt history time := by
  fun_induction dropOld cutoff history with
  | case1 => rfl
  | case2 first => rfl
  | case3 first second rest hold ih =>
    obtain ⟨hfirst, hrest⟩ := List.pairwise_cons.mp hsorted
    have hsecond : second.1 ≤ time := le_trans hold hcutoff
    have hbefore : first.1 ≤ time := le_trans (hfirst second List.mem_cons_self) hsecond
    rw [ih hrest]
    unfold ranksAt
    rw [ranksFrom, ranksFrom, ranksFrom, if_neg (not_lt_of_ge hsecond),
      if_neg (not_lt_of_ge hbefore), if_neg (not_lt_of_ge hsecond)]
  | case4 first second rest hold => rfl

/-- A publication at the end is found if it is not too late, and nothing else changes. -/
theorem ranksFrom_concat {ranks : Ranks} (hlast : ∀ call ∈ history, call.1 ≤ now) :
    ranksFrom found time (history ++ [(now, ranks)]) =
      if time < now then ranksFrom found time history else some ranks := by
  induction history generalizing found with
  | nil => rfl
  | cons call history ih =>
    obtain ⟨hcall, hrest⟩ := List.forall_mem_cons.mp hlast
    rw [List.cons_append, ranksFrom, ranksFrom, ih hrest]
    by_cases hlate : time < call.1
    · rw [if_pos hlate, if_pos hlate, if_pos (lt_of_lt_of_le hlate hcall)]
    · rw [if_neg hlate, if_neg hlate]

/-- What holds after some publications: the end of the whole history is kept, and answers as the
whole does. -/
structure Answers (history calls : RankHistory) : Prop where
  kept : history <:+ calls
  alike :
    ∀ time : Datetime, (∀ call ∈ calls, call.1.instant - RISING_RETURN_WINDOW ≤ time.instant) →
    ranksAt history time = ranksAt calls time

theorem Answers.remember (h : Answers history calls) {ranks : Ranks}
    (hsorted : (calls ++ [(now, ranks)]).Pairwise fun a b => a.1 ≤ b.1) :
    Answers (rememberRanks history ranks now).2 (calls ++ [(now, ranks)]) := by
  obtain ⟨earlier, rfl⟩ := h.kept
  have hlast : ∀ call ∈ earlier ++ history, call.1 ≤ now := fun call hcall =>
    (List.pairwise_append.mp hsorted).2.2 call hcall (now, ranks) (List.mem_singleton.mpr rfl)
  have hkept : history ++ [(now, ranks)] <:+ earlier ++ history ++ [(now, ranks)] :=
    ⟨earlier, by rw [List.append_assoc]⟩
  have halike : ∀ time : Datetime,
      (∀ call ∈ earlier ++ history ++ [(now, ranks)], call.1.instant - RISING_RETURN_WINDOW ≤
        time.instant) →
      ranksAt (history ++ [(now, ranks)]) time = ranksAt (earlier ++ history ++ [(now, ranks)])
      time := by
    intro time htime
    have hearlier := h.alike time fun call hcall => htime call (List.mem_append_left _ hcall)
    unfold ranksAt at hearlier ⊢
    rw [ranksFrom_concat hlast, ranksFrom_concat fun call hcall =>
      hlast call (List.mem_append_right _ hcall), hearlier]
  unfold rememberRanks
  dsimp only
  split
  · exact ⟨hkept, halike⟩
  · next cutoff hcutoff =>
    refine ⟨(dropOld_suffix cutoff _).trans hkept, fun time htime => ?_⟩
    have hlatest : now.instant - RISING_RETURN_WINDOW ≤ time.instant :=
      htime (now, ranks) (List.mem_append_right _ (List.mem_singleton.mpr rfl))
    have hle : cutoff ≤ time := by
      have hinstant := Datetime.instant_plus hcutoff
      show cutoff.instant ≤ time.instant
      omega
    rw [ranksAt_dropOld (hsorted.sublist hkept.sublist) hle]
    exact halike time htime

theorem answers_historyAfter (hsorted : calls.Pairwise fun a b => a.1 ≤ b.1) :
    Answers (historyAfter calls) calls := by
  induction calls using List.reverseRecOn with
  | nil => exact ⟨List.suffix_rfl, fun time _ => rfl⟩
  | append_singleton calls call ih =>
    rw [historyAfter, List.foldl_append]
    exact (ih (List.pairwise_append.mp hsorted).1).remember hsorted

/-- A look back within the window finds what it would find in the whole history. -/
theorem ranksAt_historyAfter (hsorted : calls.Pairwise fun a b => a.1 ≤ b.1)
    (hnow : ∀ call ∈ calls, call.1 ≤ now)
    {window : Int} (hwindow : window ≤ RISING_RETURN_WINDOW)
    (htime : now.plus (-window) = .ok time) :
    ranksAt (historyAfter calls) time = ranksAt calls time := by
  refine (answers_historyAfter hsorted).alike time fun call hcall => ?_
  have hlast : call.1.instant ≤ now.instant := hnow call hcall
  have hinstant := Datetime.instant_plus htime
  omega

def pastTen (minute : Nat) : Datetime :=
  (Date.august 3).seoul 10 minute

/-- Publications at ten, one minute later and six minutes later. -/
def threeRanks : RankHistory :=
  [(pastTen 0, .empty), (pastTen 1, .ofList [("theme-1", 1, none)]),
    (pastTen 6, .ofList [("theme-1", 2, none)])]

/-- The first one is dropped, and five minutes back is the second one. -/
theorem ranksAt_historyAfter_three :
    (historyAfter threeRanks).length = 2 ∧
      ranksAt (historyAfter threeRanks) (pastTen 1) = ranksAt threeRanks (pastTen 1) := by
  refine ⟨by decide +kernel, ranksAt_historyAfter (by decide +kernel) ?_ le_rfl (?_ :
    (pastTen 6).plus (-RISING_RETURN_WINDOW) = .ok (pastTen 1))⟩
  · decide +kernel
  · decide +kernel

end Dayjaview.Pipeline
