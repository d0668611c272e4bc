import Mathlib.Data.List.Sort
import Mathlib.Data.Set.Card
import Mathlib.Tactic

/-!
# Walking a changing list page by page

A list in strict order is shown in pages: the first elements behind a position, which is that of the
last element shown before. The list may change between the pages. What was shown is in strict order,
and an element that is always there is shown or still behind the position, so that it was shown once
when nothing is left.
-/

namespace Dayjaview.Paging

variable {α ρ : Type*} [LinearOrder ρ] (rank : α → ρ)

/-- The elements behind a position. -/
def behind (position : Option ρ) (as : List α) : List α :=
  match position with
  | none => as
  | some p => as.filter fun a => decide (p < rank a)

/-- The page behind a position. -/
def page (n : Nat) (position : Option ρ) (as : List α) : List α := (behind rank position as).take n

/-- More stands behind the page. -/
def more (n : Nat) (position : Option ρ) (as : List α) : Bool :=
  decide (n < (behind rank position as).length)

/-- Some pages of a changing list were shown, each behind the last element of the one before. -/
inductive Walk (n : Nat) (lists : Nat → List α) : Nat → List α → Option ρ → Prop where
  | start : Walk n lists 0 [] none
  | next {k : Nat} {seen : List α} {position : Option ρ} {last : α}
      (walk : Walk n lists k seen position) (hmore : more rank n position (lists k) = true)
      (hlast : (page rank n position (lists k)).getLast? = some last) :
      Walk n lists (k + 1) (seen ++ page rank n position (lists k)) (some (rank last))

variable {rank} {n : Nat} {position : Option ρ} {as : List α}

theorem mem_behind {a : α} : a ∈ behind rank position as ↔ a ∈ as ∧ ∀ p ∈ position, p < rank a := by
  cases position with
  | none => simp [behind]
  | some p => simp [behind]

theorem pairwise_behind (h : as.Pairwise fun a b => rank a < rank b) :
    (behind rank position as).Pairwise fun a b => rank a < rank b := by
  cases position with
  | none => exact h
  | some p => exact h.filter _

theorem mem_of_mem_page {a : α} (h : a ∈ page rank n position as) :
    a ∈ as ∧ ∀ p ∈ position, p < rank a :=
  mem_behind.mp (List.mem_of_mem_take h)

theorem pairwise_page (h : as.Pairwise fun a b => rank a < rank b) :
    (page rank n position as).Pairwise fun a b => rank a < rank b :=
  (pairwise_behind h).sublist (List.take_sublist _ _)

theorem rank_le_of_getLast? {last : α} (h : as.Pairwise fun a b => rank a < rank b)
    (hlast : (page rank n position as).getLast? = some last) {a : α}
    (ha : a ∈ page rank n position as) : rank a ≤ rank last := by
  obtain ⟨front, hfront⟩ := List.getLast?_eq_some_iff.mp hlast
  have hsorted : (page rank n position as).Pairwise fun a b => rank a < rank b := pairwise_page h
  rw [hfront] at ha hsorted
  rcases List.mem_append.mp ha with ha | ha
  · exact (List.pairwise_append.mp hsorted).2.2 a ha last (List.mem_singleton.mpr rfl) |>.le
  · rw [List.mem_singleton.mp ha]

theorem mem_page_or_lt {last : α} (h : as.Pairwise fun a b => rank a < rank b)
    (hlast : (page rank n position as).getLast? = some last) {a : α}
    (ha : a ∈ behind rank position as) : a ∈ page rank n position as ∨ rank last < rank a := by
  have hsorted : (behind rank position as).Pairwise fun a b => rank a < rank b := pairwise_behind h
  rw [← List.take_append_drop n (behind rank position as)] at ha hsorted
  rcases List.mem_append.mp ha with ha | ha
  · exact .inl ha
  · exact .inr ((List.pairwise_append.mp hsorted).2.2 last (List.mem_of_getLast? hlast) a ha)

theorem pairwise_append_page {seen : List α} (hseen : seen.Pairwise fun a b => rank a < rank b)
    (hbound : ∀ a ∈ seen, ∃ p ∈ position, rank a ≤ p) (h : as.Pairwise fun a b => rank a < rank b) :
    (seen ++ page rank n position as).Pairwise fun a b => rank a < rank b := by
  rw [List.pairwise_append]
  refine ⟨hseen, pairwise_page h, fun a ha b hb => ?_⟩
  obtain ⟨p, hp, hle⟩ := hbound a ha
  exact lt_of_le_of_lt hle ((mem_of_mem_page hb).2 p hp)

variable {lists : Nat → List α} {k : Nat} {seen : List α}

/-- What holds after some pages. -/
structure Walk.Holds (rank : α → ρ) (lists : Nat → List α) (k : Nat) (seen : List α)
    (position : Option ρ) : Prop where
  sorted : seen.Pairwise fun a b => rank a < rank b
  bound : ∀ a ∈ seen, ∃ p ∈ position, rank a ≤ p
  kept : ∀ a, (∀ j < k, a ∈ lists j) → a ∈ seen ∨ ∀ p ∈ position, p < rank a
  there : ∀ a ∈ seen, ∃ j < k, a ∈ lists j

theorem Walk.holds (h : ∀ k, (lists k).Pairwise fun a b => rank a < rank b)
    (walk : Walk rank n lists k seen position) : Holds rank lists k seen position := by
  induction walk with
  | start =>
    exact ⟨List.Pairwise.nil, fun a ha => (by cases ha), fun a _ => .inr fun p hp => (by cases hp),
      fun a ha => (by cases ha)⟩
  | @next k seen position last walk hmore hlast ih =>
    refine ⟨pairwise_append_page ih.sorted ih.bound (h k), fun a ha => ⟨rank last, rfl, ?_⟩,
      fun a ha => ?_, fun a ha => ?_⟩
    · rcases List.mem_append.mp ha with ha | ha
      · obtain ⟨p, hp, hle⟩ := ih.bound a ha
        exact hle.trans ((mem_of_mem_page (List.mem_of_getLast? hlast)).2 p hp).le
      · exact rank_le_of_getLast? (h k) hlast ha
    · rcases ih.kept a fun j hj => ha j (hj.trans (Nat.lt_succ_self k)) with hseen | hbehind
      · exact .inl (List.mem_append_left _ hseen)
      · have hmem : a ∈ behind rank position (lists k) :=
          mem_behind.mpr ⟨ha k (Nat.lt_succ_self k), hbehind⟩
        rcases mem_page_or_lt (h k) hlast hmem with hpage | hlt
        · exact .inl (List.mem_append_right _ hpage)
        · refine .inr fun p hp => ?_
          cases hp
          exact hlt
    · rcases List.mem_append.mp ha with ha | ha
      · obtain ⟨j, hj, hmem⟩ := ih.there a ha
        exact ⟨j, hj.trans (Nat.lt_succ_self k), hmem⟩
      · exact ⟨k, Nat.lt_succ_self k, (mem_of_mem_page ha).1⟩

theorem Walk.there (h : ∀ k, (lists k).Pairwise fun a b => rank a < rank b)
    (walk : Walk rank n lists k seen position) {a : α}
    (ha : a ∈ seen ++ page rank n position (lists k)) : ∃ j ≤ k, a ∈ lists j := by
  rcases List.mem_append.mp ha with ha | ha
  · obtain ⟨j, hj, hmem⟩ := (walk.holds h).there a ha
    exact ⟨j, hj.le, hmem⟩
  · exact ⟨k, le_rfl, (mem_of_mem_page ha).1⟩

theorem Walk.congr {lists' : Nat → List α} (walk : Walk rank n lists k seen position)
    (h : ∀ j < k, lists j = lists' j) : Walk rank n lists' k seen position := by
  induction walk with
  | start => exact .start
  | @next k seen position last walk hmore hlast ih =>
    have hprevious := ih fun j hj => h j (hj.trans (Nat.lt_succ_self k))
    rw [h k (Nat.lt_succ_self k)] at hmore hlast ⊢
    exact .next hprevious hmore hlast

theorem Walk.complete (h : ∀ k, (lists k).Pairwise fun a b => rank a < rank b)
    (walk : Walk rank n lists k seen position) (hmore : more rank n position (lists k) = false)
    {a : α} (ha : ∀ j ≤ k, a ∈ lists j) : a ∈ seen ++ page rank n position (lists k) := by
  rcases (walk.holds h).kept a fun j hj => ha j hj.le with hseen | hbehind
  · exact List.mem_append_left _ hseen
  · have hmem : a ∈ behind rank position (lists k) := mem_behind.mpr ⟨ha k le_rfl, hbehind⟩
    have hall : page rank n position (lists k) = behind rank position (lists k) :=
      List.take_of_length_le (Nat.not_lt.mp (of_decide_eq_false hmore))
    exact List.mem_append_right _ (hall ▸ hmem)

theorem Walk.sorted (h : ∀ k, (lists k).Pairwise fun a b => rank a < rank b)
    (walk : Walk rank n lists k seen position) :
    (seen ++ page rank n position (lists k)).Pairwise fun a b => rank a < rank b :=
  pairwise_append_page (walk.holds h).sorted (walk.holds h).bound (h k)

theorem length_page_of_more (hmore : more rank n position as = true) :
    (page rank n position as).length = n :=
  List.length_take_of_le (of_decide_eq_true hmore).le

theorem Walk.le_length (hn : 0 < n) (walk : Walk rank n lists k seen position) :
    k ≤ seen.length := by
  induction walk with
  | start => exact le_rfl
  | next walk hmore hlast ih =>
    rw [List.length_append, length_page_of_more hmore]
    omega

theorem Walk.le_ncard (hn : 0 < n) (h : ∀ k, (lists k).Pairwise fun a b => rank a < rank b)
    {places : Set ρ} (hfinite : places.Finite) (hplaces : ∀ k, ∀ a ∈ lists k, rank a ∈ places)
    (walk : Walk rank n lists k seen position) : k ≤ places.ncard := by
  have hholds := walk.holds h
  have hnodup : (seen.map rank).Nodup := List.pairwise_map.mpr (hholds.sorted.imp fun hlt => hlt.ne)
  have hsubset : (↑(seen.map rank).toFinset : Set ρ) ⊆ places := by
    intro p hp
    rw [List.coe_toFinset] at hp
    obtain ⟨a, ha, rfl⟩ := List.mem_map.mp hp
    obtain ⟨j, -, hmem⟩ := hholds.there a ha
    exact hplaces j a hmem
  have hcard := Set.ncard_le_ncard hsubset hfinite
  rw [Set.ncard_coe_finset, List.toFinset_card_of_nodup hnodup, List.length_map] at hcard
  exact (walk.le_length hn).trans hcard

theorem pairwise_insertionSort_stable {r s : α → α → Prop} [DecidableRel r] [Std.Total r]
    [IsTrans α r]
    (h : as.Pairwise s) : (as.insertionSort r).Pairwise fun a b => r a b ∧ (r b a → s a b) := by
  induction as with
  | nil => exact List.Pairwise.nil
  | cons a as ih =>
    obtain ⟨hfirst, hrest⟩ := List.pairwise_cons.mp h
    have hsorted := ih hrest
    have hbehind :
        ∀ b ∈ as.insertionSort r, s a b := fun b hb => hfirst b ((List.mem_insertionSort r).mp hb)
    rw [List.insertionSort_cons]
    generalize as.insertionSort r = sorted at hsorted hbehind
    clear ih h hfirst hrest
    induction sorted with
    | nil => exact List.pairwise_singleton _ _
    | cons b sorted ih =>
      obtain ⟨hb, hsorted'⟩ := List.pairwise_cons.mp hsorted
      obtain ⟨hab, hbehind'⟩ := List.forall_mem_cons.mp hbehind
      rw [List.orderedInsert]
      split
      · next hr =>
        refine List.pairwise_cons.mpr ⟨fun c hc => ?_, hsorted⟩
        rcases List.mem_cons.mp hc with rfl | hc
        · exact ⟨hr, fun _ => hab⟩
        · exact ⟨IsTrans.trans _ _ _ hr (hb c hc).1, fun _ => hbehind' c hc⟩
      · next hr =>
        refine List.pairwise_cons.mpr ⟨fun c hc => ?_, ih hsorted' hbehind'⟩
        rcases (List.mem_orderedInsert r).mp hc with rfl | hc
        · exact ⟨(Std.Total.total c b).resolve_left hr, fun hcb => absurd hcb hr⟩
        · exact hb c hc

theorem filter_eq_singleton {p : α → Bool} (h : as.Pairwise fun a b => rank a < rank b) {a : α}
    (ha : a ∈ as)
    (hp : p a = true) (hunique : ∀ b ∈ as, p b = true → b = a) : as.filter p = [a] := by
  obtain ⟨front, back, rfl⟩ := List.append_of_mem ha
  obtain ⟨-, hback, hacross⟩ := List.pairwise_append.mp h
  have hnone : ∀ b, b ∈ front ∨ b ∈ back → ¬ p b = true := by
    intro b hb hpb
    have hsame := hunique b (by simp only [List.mem_append, List.mem_cons]; tauto) hpb
    rcases hb with hb | hb
    · exact (hacross b hb a List.mem_cons_self).ne (congrArg rank hsame)
    · exact ((List.pairwise_cons.mp hback).1 b hb).ne' (congrArg rank hsame)
  have hfront : front.filter p = [] := List.filter_eq_nil_iff.mpr fun b hb => hnone b (.inl hb)
  have hrest : back.filter p = [] := List.filter_eq_nil_iff.mpr fun b hb => hnone b (.inr hb)
  rw [List.filter_append, List.filter_cons_of_pos hp, hfront, hrest, List.nil_append]

end Dayjaview.Paging
