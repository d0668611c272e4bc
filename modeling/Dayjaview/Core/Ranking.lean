import Mathlib.Data.List.Induction
import Mathlib.Data.List.Perm.Basic
import Mathlib.Data.List.Sort
import Mathlib.Order.Lattice

/-!
# Keeping the value of highest rank

A register that replaces its value only by values of strictly higher rank holds
the greatest value it was offered. When ranks tell the values apart, the order
of the offers does not matter.
-/

namespace Dayjaview

section

universe u v

variable {α : Type u} {ρ : Type v} [LinearOrder ρ] {rank : α → ρ}

/-- The value of higher rank, the present one in a tie. -/
def keepLatest (rank : α → ρ) (current : Option α) (a : α) : Option α :=
  match current with
  | none => some a
  | some b => if rank a ≤ rank b then some b else some a

/-- The value kept after a sequence of offers. -/
def latestOf (rank : α → ρ) (as : List α) : Option α := as.foldl (keepLatest rank) none

/-- A value of a list that no other one outranks. -/
def IsGreatestBy (rank : α → ρ) (as : List α) (a : α) : Prop :=
  a ∈ as ∧ ∀ b ∈ as, rank b ≤ rank a

theorem latestOf_append_singleton (as : List α) (a : α) :
    latestOf rank (as ++ [a]) = keepLatest rank (latestOf rank as) a := by
  rw [latestOf, List.foldl_append]
  rfl

theorem latestOf_eq_none {as : List α} : latestOf rank as = none ↔ as = [] := by
  induction as using List.reverseRecOn with
  | nil => simp [latestOf]
  | append_singleton as a ih =>
    rw [latestOf_append_singleton]
    cases latestOf rank as with
    | none => simp [keepLatest]
    | some b => by_cases h : rank a ≤ rank b <;> simp [keepLatest, h]

/-- The latest element has the greatest rank. -/
theorem isGreatestBy_of_latestOf {as : List α} {a : α} (h : latestOf rank as = some a) :
    IsGreatestBy rank as a := by
  induction as using List.reverseRecOn generalizing a with
  | nil => simp [latestOf] at h
  | append_singleton as b ih =>
    rw [latestOf_append_singleton] at h
    cases hlast : latestOf rank as with
    | none =>
      rw [hlast, keepLatest, Option.some.injEq] at h
      subst h
      rw [latestOf_eq_none.mp hlast]
      exact ⟨by simp, by simp⟩
    | some c =>
      obtain ⟨hmem, hall⟩ := ih hlast
      rw [hlast, keepLatest] at h
      split at h
      · next hle =>
        cases h
        refine ⟨List.mem_append_left _ hmem, fun d hd => ?_⟩
        obtain hd | hd := List.mem_append.mp hd
        · exact hall d hd
        · rwa [List.mem_singleton.mp hd]
      · next hlt =>
        cases h
        refine ⟨by simp, fun d hd => ?_⟩
        obtain hd | hd := List.mem_append.mp hd
        · exact (hall d hd).trans (le_of_not_ge hlt)
        · rw [List.mem_singleton.mp hd]

theorem latestOf_cons_of_forall_le {a : α} {as : List α} (h : ∀ c ∈ as, rank c ≤ rank a) :
    latestOf rank (a :: as) = some a := by
  induction as using List.reverseRecOn with
  | nil => rfl
  | append_singleton as c ih =>
    rw [← List.cons_append, latestOf_append_singleton,
      ih fun c hc => h c (List.mem_append_left _ hc)]
    exact if_pos (h c (by simp))

theorem latestOf_cons {a : α} {as : List α} (h : ∃ b ∈ as, rank a < rank b) :
    latestOf rank (a :: as) = latestOf rank as := by
  induction as using List.reverseRecOn with
  | nil => simp at h
  | append_singleton as c ih =>
    rw [← List.cons_append, latestOf_append_singleton, latestOf_append_singleton]
    by_cases hearlier : ∃ b ∈ as, rank a < rank b
    · rw [ih hearlier]
    · push Not at hearlier
      obtain ⟨b, hb, hlt⟩ := h
      obtain rfl : b = c := by
        rcases List.mem_append.mp hb with hb | hb
        · exact absurd hlt (not_lt.mpr (hearlier b hb))
        · exact List.mem_singleton.mp hb
      rw [latestOf_cons_of_forall_le hearlier, keepLatest, if_neg (not_le.mpr hlt)]
      cases hlast : latestOf rank as with
      | none => rfl
      | some d =>
        have hle := hearlier d (isGreatestBy_of_latestOf hlast).1
        rw [keepLatest, if_neg (not_le.mpr (hle.trans_lt hlt))]

/-- There is a latest element unless there is none at all. -/
theorem exists_latestOf {as : List α} (h : as ≠ []) : ∃ a, latestOf rank as = some a := by
  cases hlast : latestOf rank as with
  | none => exact absurd (latestOf_eq_none.mp hlast) h
  | some a => exact ⟨a, rfl⟩

/-- The order does not matter where ranks differ. -/
theorem latestOf_perm {as bs : List α} (hinj : ∀ a ∈ as, ∀ b ∈ as, rank a = rank b → a = b)
    (h : as.Perm bs) : latestOf rank as = latestOf rank bs := by
  cases ha : latestOf rank as with
  | none =>
    rw [latestOf_eq_none.mp ha] at h
    rw [List.nil_perm.mp h]
    rfl
  | some a =>
    have hbs : bs ≠ [] := by
      rintro rfl
      rw [List.perm_nil.mp h] at ha
      simp [latestOf] at ha
    obtain ⟨b, hb⟩ : ∃ b, latestOf rank bs = some b := exists_latestOf hbs
    obtain ⟨ha', hmax⟩ := isGreatestBy_of_latestOf ha
    obtain ⟨hb', hmax'⟩ := isGreatestBy_of_latestOf hb
    have hb'' := h.mem_iff.mpr hb'
    have heq : rank a = rank b := le_antisymm (hmax' a (h.mem_iff.mp ha')) (hmax b hb'')
    rw [hb, hinj a ha' b hb'' heq]

end

universe u v

variable {α : Type u} {ρ : Type v} [LinearOrder ρ]

/-- The elements in increasing order of their ranks. -/
def ranked (rank : α → ρ) (as : List α) : List α := as.insertionSort fun a b => rank a ≤ rank b

/-- The elements of the smallest ranks. -/
def best (rank : α → ρ) (n : Nat) (as : List α) : List α := (ranked rank as).take n

variable {rank : α → ρ} {n : Nat} {as : List α}

theorem ranked_perm : (ranked rank as).Perm as := List.perm_insertionSort _ _

theorem mem_ranked {a : α} : a ∈ ranked rank as ↔ a ∈ as := ranked_perm.mem_iff

/-- Ranked elements come in the order of their ranks. -/
theorem pairwise_ranked : (ranked rank as).Pairwise fun a b => rank a ≤ rank b :=
  haveI : Std.Total (fun a b : α => rank a ≤ rank b) := ⟨fun a b => le_total (rank a) (rank b)⟩
  haveI : IsTrans α (fun a b => rank a ≤ rank b) := ⟨fun _ _ _ h h' => le_trans h h'⟩
  List.pairwise_insertionSort _ _

theorem mem_of_mem_best {a : α} (h : a ∈ best rank n as) : a ∈ as :=
  mem_ranked.mp (List.mem_of_mem_take h)

theorem nodup_best (h : as.Nodup) : (best rank n as).Nodup :=
  (ranked_perm.nodup_iff.mpr h).sublist (List.take_sublist _ _)

/-- The best are not more than asked for. -/
theorem length_best_le : (best rank n as).length ≤ n := by
  rw [best, List.length_take]
  exact min_le_left _ _

theorem mem_drop_of_not_mem_best {a : α} (ha : a ∈ as) (h : a ∉ best rank n as) :
    a ∈ (ranked rank as).drop n := by
  have hmem : a ∈ (ranked rank as).take n ++ (ranked rank as).drop n := by
    rw [List.take_append_drop]
    exact mem_ranked.mpr ha
  exact (List.mem_append.mp hmem).resolve_left h

theorem length_best {a : α} (ha : a ∈ as) (h : a ∉ best rank n as) :
    (best rank n as).length = n := by
  have hpos := List.length_pos_of_mem (mem_drop_of_not_mem_best ha h)
  rw [List.length_drop] at hpos
  rw [best, List.length_take]
  omega

theorem rank_le_of_mem_best {a b : α} (ha : a ∈ best rank n as) (hb : b ∈ as)
    (h : b ∉ best rank n as) : rank a ≤ rank b := by
  have hsorted : (ranked rank as).Pairwise fun a b => rank a ≤ rank b := pairwise_ranked
  rw [← List.take_append_drop n (ranked rank as)] at hsorted
  exact (List.pairwise_append.mp hsorted).2.2 a ha b (mem_drop_of_not_mem_best hb h)

/-- The best are those with less than `n` before them. -/
theorem mem_best_iff (hrank : ∀ a ∈ as, ∀ b ∈ as, rank a = rank b → a = b) {a : α} :
    a ∈ best rank n as ↔ a ∈ as ∧ (as.filter fun b => rank b < rank a).length < n := by
  have hcount : (as.filter fun b => rank b < rank a).length =
      ((ranked rank as).filter fun b => rank b < rank a).length :=
    (ranked_perm.symm.filter _).length_eq
  have hsplit : (ranked rank as).filter (fun b => rank b < rank a) =
      (best rank n as).filter (fun b => rank b < rank a) ++
        ((ranked rank as).drop n).filter fun b => rank b < rank a := by
    rw [best, ← List.filter_append, List.take_append_drop]
  rw [hcount, hsplit, List.length_append]
  constructor
  · intro ha
    refine ⟨mem_of_mem_best ha, ?_⟩
    have hfew : ((best rank n as).filter fun b => rank b < rank a).length <
        (best rank n as).length :=
      List.length_filter_lt_length_iff_exists.mpr ⟨a, ha, by simp⟩
    have hnone : ((ranked rank as).drop n).filter (fun b => rank b < rank a) = [] := by
      rw [List.filter_eq_nil_iff]
      intro b hb
      have hsorted : (ranked rank as).Pairwise fun a b => rank a ≤ rank b := pairwise_ranked
      rw [← List.take_append_drop n (ranked rank as)] at hsorted
      simpa using (List.pairwise_append.mp hsorted).2.2 a ha b hb
    have hle : (best rank n as).length ≤ n := length_best_le
    rw [hnone, List.length_nil]
    omega
  · rintro ⟨ha, hfew⟩
    by_contra hout
    have hall : (best rank n as).filter (fun b => rank b < rank a) = best rank n as := by
      rw [List.filter_eq_self]
      intro b hb
      refine decide_eq_true (lt_of_le_of_ne (rank_le_of_mem_best hb ha hout) fun hsame => hout ?_)
      rwa [← hrank b (mem_of_mem_best hb) a ha hsame]
    rw [hall, length_best ha hout] at hfew
    omega

theorem getLast?_orderedInsert {a : α} {as : List α} (h : as.Pairwise fun a b => rank a ≤ rank b) :
    (as.orderedInsert (fun a b => rank a ≤ rank b) a).getLast? = keepLatest rank as.getLast? a := by
  induction as with
  | nil => rfl
  | cons b as ih =>
    obtain ⟨hb, has⟩ := List.pairwise_cons.mp h
    rw [List.orderedInsert_cons]
    split
    · next hle =>
      have hlast : rank a ≤ rank ((b :: as).getLast (by simp)) := by
        rcases List.mem_cons.mp (List.getLast_mem (l := b :: as) (by simp)) with hlast | hlast
        · rw [hlast]
          exact hle
        · exact hle.trans (hb _ hlast)
      rw [List.getLast?_cons_cons, List.getLast?_eq_some_getLast (by simp), keepLatest,
        if_pos hlast]
    · next hnot =>
      cases as with
      | nil => simp [keepLatest, hnot]
      | cons c as =>
        have hne : (c :: as).orderedInsert (fun a b => rank a ≤ rank b) a ≠ [] := by
          rw [List.orderedInsert_cons]
          split <;> simp
        rw [List.getLast?_cons_of_ne_nil hne, ih has, List.getLast?_cons_cons]

/-- The last of the ranked is the latest from behind. -/
theorem getLast?_ranked : (ranked rank as).getLast? = latestOf rank as.reverse := by
  induction as with
  | nil => rfl
  | cons a as ih =>
    rw [List.reverse_cons, latestOf_append_singleton, ← ih]
    exact getLast?_orderedInsert pairwise_ranked

theorem getLast?_ranked_append {a : α} (h : ∃ b ∈ as, rank a < rank b) :
    (ranked rank (as ++ [a])).getLast? = (ranked rank as).getLast? := by
  rw [getLast?_ranked, getLast?_ranked, List.reverse_append]
  apply latestOf_cons
  simpa using h

theorem ranked_congr {σ : Type v} [LinearOrder σ] {rank' : α → σ}
    (h : ∀ a ∈ as, ∀ b ∈ as, rank a ≤ rank b ↔ rank' a ≤ rank' b) :
    ranked rank as = ranked rank' as := by
  have hinsert : ∀ (a : α) (bs : List α), (∀ b ∈ bs, rank a ≤ rank b ↔ rank' a ≤ rank' b) →
      bs.orderedInsert (fun a b => rank a ≤ rank b) a =
        bs.orderedInsert (fun a b => rank' a ≤ rank' b) a := by
    intro a bs hbs
    induction bs with
    | nil => rfl
    | cons b bs ih =>
      rw [List.orderedInsert_cons, List.orderedInsert_cons,
        ih fun c hc => hbs c (List.mem_cons_of_mem _ hc)]
      simp only [hbs b (List.mem_cons_self ..)]
  induction as with
  | nil => rfl
  | cons a as ih =>
    have hrest := ih fun b hb c hc =>
      h b (List.mem_cons_of_mem _ hb) c (List.mem_cons_of_mem _ hc)
    unfold ranked at hrest ⊢
    rw [List.insertionSort_cons, List.insertionSort_cons, hrest]
    refine hinsert a _ fun b hb => h a (List.mem_cons_self ..) b (List.mem_cons_of_mem _ ?_)
    exact (List.perm_insertionSort _ _).mem_iff.mp hb

theorem map_ranked {β : Type u} (f : β → α) (bs : List β) :
    (ranked (fun b => rank (f b)) bs).map f = ranked rank (bs.map f) := by
  have hinsert : ∀ (b : β) (cs : List β),
      (cs.orderedInsert (fun a b => rank (f a) ≤ rank (f b)) b).map f =
        (cs.map f).orderedInsert (fun a b => rank a ≤ rank b) (f b) := by
    intro b cs
    induction cs with
    | nil => rfl
    | cons c cs ih =>
      rw [List.map_cons, List.orderedInsert_cons, List.orderedInsert_cons]
      split
      · rfl
      · rw [List.map_cons, ih]
  induction bs with
  | nil => rfl
  | cons b bs ih =>
    unfold ranked at ih ⊢
    rw [List.map_cons, List.insertionSort_cons, List.insertionSort_cons, hinsert, ih]

end Dayjaview
