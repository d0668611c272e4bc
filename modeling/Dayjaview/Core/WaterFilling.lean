import Mathlib.Algebra.BigOperators.Group.List.Basic
import Mathlib.Algebra.Order.BigOperators.Group.List
import Mathlib.Algebra.Order.Field.Basic
import Mathlib.Tactic.FieldSimp
import Mathlib.Tactic.Linarith
import Mathlib.Tactic.Positivity
import Mathlib.Tactic.Ring

/-!
# Water filling

A total is distributed in proportion to some amounts, but none gets more than a cap. What each
one gets is determined by the total, and the scale is, too, as long as one of them stays below
the cap. Distributing anew after some reached the cap only raises the scale.
-/

namespace Dayjaview.WaterFilling

variable {K : Type*} [Field K] [LinearOrder K] [IsStrictOrderedRing K]

/-- What an amount gets at a scale. -/
def fill (cap scale amount : K) : K := min cap (scale * amount)

/-- The amounts get a total at a scale. -/
def Fills (cap total scale : K) (amounts : List K) : Prop :=
  (amounts.map (fill cap scale)).sum = total

section Fill

variable {cap total scale scale' amount amount' : K} {amounts : List K}

theorem fill_mono_scale (h : scale ≤ scale') (hamount : 0 ≤ amount) :
    fill cap scale amount ≤ fill cap scale' amount :=
  min_le_min le_rfl (mul_le_mul_of_nonneg_right h hamount)

theorem fill_mono_amount (h : amount ≤ amount') (hscale : 0 ≤ scale) :
    fill cap scale amount ≤ fill cap scale amount' :=
  min_le_min le_rfl (mul_le_mul_of_nonneg_left h hscale)

theorem eq_of_sum_eq {α : Type*} {f g : α → K} {as : List α} (h : ∀ a ∈ as, f a ≤ g a)
    (hsum : (as.map f).sum = (as.map g).sum) : ∀ a ∈ as, f a = g a := by
  intro a ha
  refine le_antisymm (h a ha) ?_
  by_contra hlt
  exact (List.sum_lt_sum f g h ⟨a, ha, not_le.mp hlt⟩).ne hsum

theorem fill_eq_of_fills (hpos : ∀ a ∈ amounts, 0 < a) (h : Fills cap total scale amounts)
    (h' : Fills cap total scale' amounts) :
    ∀ a ∈ amounts, fill cap scale a = fill cap scale' a := by
  rcases le_total scale scale' with hle | hle
  · exact eq_of_sum_eq (fun a ha => fill_mono_scale hle (hpos a ha).le) (h.trans h'.symm)
  · intro a ha
    exact
      (eq_of_sum_eq (fun a ha => fill_mono_scale hle (hpos a ha).le) (h'.trans h.symm) a ha).symm

theorem fill_eq_cap_of_fills (hfull : amounts.length * cap = total)
    (h : Fills cap total scale amounts) : ∀ a ∈ amounts, fill cap scale a = cap := by
  refine eq_of_sum_eq (fun a _ => min_le_left cap (scale * a)) ?_
  rw [List.map_const', List.sum_replicate, nsmul_eq_mul, hfull]
  exact h

theorem fill_eq_cap_mono (h : fill cap scale amount = cap) (hle : scale ≤ scale')
    (hamount : 0 ≤ amount) : fill cap scale' amount = cap :=
  le_antisymm (min_le_left _ _) (h.symm.trans_le (fill_mono_scale hle hamount))

theorem scale_unique (hpos : ∀ a ∈ amounts, 0 < a) (hroom : total < amounts.length * cap)
    (h : Fills cap total scale amounts) (h' : Fills cap total scale' amounts) : scale = scale' := by
  obtain ⟨a, ha, hbelow⟩ : ∃ a ∈ amounts, fill cap scale a < cap := by
    by_contra hnone
    push Not at hnone
    have hall : amounts.map (fill cap scale) = amounts.map fun _ => cap :=
      List.map_congr_left fun a ha => le_antisymm (min_le_left _ _) (hnone a ha)
    rw [Fills, hall, List.map_const', List.sum_replicate, nsmul_eq_mul] at h
    exact hroom.ne' h
  have hbelow' : fill cap scale' a < cap := fill_eq_of_fills hpos h h' a ha ▸ hbelow
  have hown : ∀ s : K, fill cap s a < cap → fill cap s a = s * a := by
    intro s hs
    rcases min_choice cap (s * a) with hmin | hmin
    · rw [fill, hmin] at hs
      exact absurd hs (lt_irrefl cap)
    · exact hmin
  have heq := fill_eq_of_fills hpos h h' a ha
  rw [hown scale hbelow, hown scale' hbelow'] at heq
  exact mul_right_cancel₀ (hpos a ha).ne' heq

theorem scale_pos (hpos : ∀ a ∈ amounts, 0 < a) (htotal : 0 < total)
    (h : Fills cap total scale amounts) : 0 < scale := by
  by_contra hneg
  have hle : ∀ x ∈ amounts.map (fill cap scale), x ≤ 0 := by
    intro x hx
    obtain ⟨a, ha, rfl⟩ := List.mem_map.mp hx
    exact (min_le_right _ _).trans (mul_nonpos_of_nonpos_of_nonneg (not_lt.mp hneg) (hpos a ha).le)
  have hsum := List.sum_le_card_nsmul _ 0 hle
  rw [nsmul_zero] at hsum
  rw [Fills] at h
  linarith

end Fill

section Rounds

variable {cap mass total : K} {capped amounts : List K}

theorem length_mul_cap_le (h : ∀ a ∈ capped, cap < mass / total * a) :
    capped.length * cap ≤ mass / total * capped.sum := by
  induction capped with
  | nil => simp
  | cons a as ih =>
    have ha := h a List.mem_cons_self
    have has := ih fun b hb => h b (List.mem_cons_of_mem a hb)
    rw [List.length_cons, List.sum_cons]
    push_cast
    linarith

theorem scale_le_of_capped (htotal : 0 < total) (hrest : capped.sum < total)
    (h : ∀ a ∈ capped, cap < mass / total * a) :
    mass / total ≤ (mass - capped.length * cap) / (total - capped.sum) := by
  rw [le_div_iff₀ (by linarith)]
  have hcapped := length_mul_cap_le h
  have hmass : mass / total * total = mass := div_mul_cancel₀ mass htotal.ne'
  linarith

theorem exists_not_capped (hne : amounts ≠ []) (hpos : ∀ a ∈ amounts, 0 < a)
    (hroom : mass ≤ amounts.length * cap) : ∃ a ∈ amounts, ¬ cap < mass / amounts.sum * a := by
  by_contra hall
  push Not at hall
  have hsum : 0 < amounts.sum := List.sum_pos amounts hpos hne
  obtain ⟨a, as, rfl⟩ := List.exists_cons_of_ne_nil hne
  have ha := hall a List.mem_cons_self
  have has := length_mul_cap_le fun b hb => hall b (List.mem_cons_of_mem a hb)
  have hmass : mass / (a :: as).sum * (a :: as).sum = mass := div_mul_cancel₀ mass hsum.ne'
  rw [List.length_cons] at hroom
  push_cast at hroom
  rw [List.sum_cons] at hmass ha has
  linarith

end Rounds

end Dayjaview.WaterFilling
