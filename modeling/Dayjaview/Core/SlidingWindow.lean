import Mathlib.Algebra.Order.Group.Defs
import Mathlib.Data.List.Basic
import Mathlib.Order.Interval.Set.Basic
import Mathlib.Tactic.Abel

/-!
# Sliding windows

Times are recorded one after the other. A time is admitted while fewer than a quota of the earlier
ones are less than a window away. Then no stretch shorter than the window holds more than the quota,
wherever it begins. A record that forgets times a window away answers as the whole record does, as
long as time does not go back.
-/

namespace Dayjaview.SlidingWindow

variable {T : Type*} [AddCommGroup T] [LinearOrder T]

/-- The times that are less than a window before a time. -/
def recent (window now : T) (times : List T) : List T := times.filter fun t => now - t < window

/-- Each time came while fewer than a quota were recent. -/
inductive Admitted (window : T) (quota : Nat) : List T → Prop where
  | nil : Admitted window quota []
  | snoc {times : List T} {now : T} (h : Admitted window quota times)
      (hroom : (recent window now times).length < quota) : Admitted window quota (times ++ [now])

variable {window : T} {quota : Nat} {times : List T}

theorem Admitted.length_filter_le (h : Admitted window quota times) {p : T → Bool}
    (hp : ∀ s t, p s = true → p t = true → t - s < window) : (times.filter p).length ≤ quota := by
  induction h with
  | nil => exact Nat.zero_le _
  | @snoc times now _ hroom ih =>
    rw [List.filter_append, List.length_append]
    by_cases hnow : p now = true
    · -- those with the property are recent when the last one comes
      have hsub : (times.filter p).length ≤ (recent window now times).length := by
        refine (List.monotone_filter_right times fun t ht => ?_).length_le
        exact decide_eq_true (hp t now ht hnow)
      rw [List.filter_cons_of_pos hnow, List.filter_nil, List.length_singleton]
      omega
    · rw [List.filter_cons_of_neg hnow, List.filter_nil, List.length_nil]
      omega

/-- Two records answer alike from a time on. -/
def Alike (window since : T) (times times' : List T) : Prop :=
  ∀ now, since ≤ now → recent window now times = recent window now times'

variable {since now : T} {times' : List T}

theorem Alike.refl (window since : T) (times : List T) : Alike window since times times :=
  fun _ _ => rfl

theorem Alike.symm (h : Alike window since times times') : Alike window since times' times :=
  fun now hnow => (h now hnow).symm

theorem Alike.trans {times'' : List T} (h : Alike window since times times')
    (h' : Alike window since times' times'') : Alike window since times times'' :=
  fun now hnow => (h now hnow).trans (h' now hnow)

theorem Alike.later (h : Alike window since times times') (hle : since ≤ now) :
    Alike window now times times' :=
  fun later hlater => h later (hle.trans hlater)

theorem Alike.snoc (h : Alike window since times times') (t : T) :
    Alike window since (times ++ [t]) (times' ++ [t]) := by
  intro now hnow
  unfold recent
  rw [List.filter_append, List.filter_append]
  exact congrArg (· ++ _) (h now hnow)

section Ordered

variable [IsOrderedAddMonoid T]

theorem alike_recent (window now : T) (times : List T) :
    Alike window now (recent window now times) times := by
  intro later hlater
  unfold recent
  rw [List.filter_filter]
  refine List.filter_congr fun t _ => ?_
  rw [Bool.and_eq_left_iff_imp]
  intro hlt
  have hlt := of_decide_eq_true hlt
  exact decide_eq_true ((sub_le_sub_right hlater t).trans_lt hlt)

theorem Admitted.window_le (h : Admitted window quota times) (start : T) :
    (times.filter fun t => start ≤ t ∧ t < start + window).length ≤ quota := by
  refine h.length_filter_le fun s t hs ht => ?_
  obtain ⟨hs, -⟩ := of_decide_eq_true hs
  obtain ⟨-, ht⟩ := of_decide_eq_true ht
  exact sub_lt_iff_lt_add'.mpr (ht.trans_le (add_le_add_left hs window))

theorem Admitted.window_le' (h : Admitted window quota times) (start : T) :
    (times.filter fun t => start < t ∧ t ≤ start + window).length ≤ quota := by
  refine h.length_filter_le fun s t hs ht => ?_
  obtain ⟨hs, -⟩ := of_decide_eq_true hs
  obtain ⟨-, ht⟩ := of_decide_eq_true ht
  exact sub_lt_iff_lt_add'.mpr (ht.trans_lt (add_lt_add_left hs window))

end Ordered

end Dayjaview.SlidingWindow
