import Dayjaview.Core.Calendar
import Dayjaview.Core.Dict

/-!
# Vouchers

A table of things that can be used once and for a limited time. What was stored in
it and what was used from it is kept beside it. As long as no key is stored twice,
nothing is used twice, whatever else is removed from the table.
-/

namespace Dayjaview

/-- A kind of record that is used once. -/
structure Voucher (R : Type) where
  key : R → String
  expiresAt : R → Datetime
  consumedAt : R → Option Datetime
  consume : Datetime → R → R
  key_consume : ∀ now r, key (consume now r) = key r
  consumedAt_consume : ∀ now r, consumedAt (consume now r) = some now

namespace Voucher

variable {R : Type} {v : Voucher R} {timely timely' : Datetime → Prop} {table : Dict String R}
  {stored used : List R}

/-- The used records of a table were stored and used once, in time. -/
structure UsedOnce (v : Voucher R) (timely : Datetime → Prop) (table : Dict String R)
    (stored used : List R) : Prop where
  keyed : ∀ k r, table.get? k = some r →
    v.key r = k ∧ k ∈ stored.map v.key ∧ (v.consumedAt r = none → r ∈ stored)
  spent : ∀ r ∈ used, ∀ r', table.get? (v.key r) = some r' → v.consumedAt r' ≠ none
  once : (used.map v.key).Nodup
  inTime : ∀ r ∈ used, ∃ r₀ ∈ stored, ∃ now, r = v.consume now r₀ ∧ timely now ∧
    now < v.expiresAt r₀

theorem usedOnce_empty : v.UsedOnce timely .empty [] [] where
  keyed := by simp
  spent := by simp
  once := List.nodup_nil
  inTime := by simp

theorem UsedOnce.mono (h : v.UsedOnce timely table stored used)
    (htimely : ∀ now, timely now → timely' now) : v.UsedOnce timely' table stored used := by
  refine ⟨h.keyed, h.spent, h.once, fun r hr => ?_⟩
  obtain ⟨r₀, hr₀, now, heq, hnow, hlt⟩ := h.inTime r hr
  exact ⟨r₀, hr₀, now, heq, htimely now hnow, hlt⟩

theorem UsedOnce.mem_keys (h : v.UsedOnce timely table stored used) {r : R} (hr : r ∈ used) :
    v.key r ∈ stored.map v.key := by
  obtain ⟨r₀, hr₀, now, rfl, -, -⟩ := h.inTime r hr
  rw [v.key_consume]
  exact List.mem_map_of_mem hr₀

theorem UsedOnce.store (h : v.UsedOnce timely table stored used) {r : R}
    (hfresh : v.key r ∉ stored.map v.key) :
    v.UsedOnce timely (table.set (v.key r) r) (stored ++ [r]) used where
  keyed k r' hget := by
    rw [Dict.get?_set] at hget
    rw [List.map_append]
    split at hget
    · next hk =>
      cases hget
      exact ⟨hk.symm, by simp [hk], fun _ => by simp⟩
    · obtain ⟨hkey, hmem, hunused⟩ := h.keyed k r' hget
      exact ⟨hkey, List.mem_append_left _ hmem, fun hnone => List.mem_append_left _ (hunused hnone)⟩
  spent r' hr' r'' hget := by
    have hne : v.key r' ≠ v.key r := fun heq => hfresh (heq ▸ h.mem_keys hr')
    rw [Dict.get?_set_of_ne _ _ hne] at hget
    exact h.spent r' hr' r'' hget
  once := h.once
  inTime r' hr' := by
    obtain ⟨r₀, hr₀, hrest⟩ := h.inTime r' hr'
    exact ⟨r₀, List.mem_append_left _ hr₀, hrest⟩

theorem UsedOnce.use (h : v.UsedOnce timely table stored used) {k : String} {r : R} {now : Datetime}
    (hget : table.get? k = some r) (hunused : v.consumedAt r = none) (hnow : timely now)
    (hlt : now < v.expiresAt r) :
    v.UsedOnce timely (table.set k (v.consume now r)) stored (used ++ [v.consume now r]) := by
  obtain ⟨hkey, hmem, hstored⟩ := h.keyed k r hget
  refine ⟨fun k' r' hget' => ?_, fun r' hr' r'' hget' => ?_, ?_, fun r' hr' => ?_⟩
  · rw [Dict.get?_set] at hget'
    split at hget'
    · next hk =>
      cases hget'
      subst hk
      exact ⟨(v.key_consume now r).trans hkey, hmem, by simp [v.consumedAt_consume]⟩
    · exact h.keyed k' r' hget'
  · rw [Dict.get?_set] at hget'
    split at hget'
    · cases hget'
      simp [v.consumedAt_consume]
    · next hne =>
      rcases List.mem_append.mp hr' with hr' | hr'
      · exact h.spent r' hr' r'' hget'
      · obtain rfl := List.mem_singleton.mp hr'
        rw [v.key_consume] at hne
        exact absurd hkey hne
  · rw [List.map_append, List.nodup_append]
    refine ⟨h.once, by simp, ?_⟩
    intro a ha b hb hab
    obtain ⟨r', hr', rfl⟩ := List.mem_map.mp ha
    simp only [List.map_cons, List.map_nil, List.mem_singleton, v.key_consume] at hb
    exact h.spent r' hr' r (by rw [hab, hb, hkey, hget]) hunused
  · rcases List.mem_append.mp hr' with hr' | hr'
    · exact h.inTime r' hr'
    · obtain rfl := List.mem_singleton.mp hr'
      exact ⟨r, hstored hunused, now, rfl, hnow, hlt⟩

theorem UsedOnce.remove {table' : Dict String R} (h : v.UsedOnce timely table stored used)
    (hsub : ∀ k r, table'.get? k = some r → table.get? k = some r) :
    v.UsedOnce timely table' stored used where
  keyed k r hget := h.keyed k r (hsub k r hget)
  spent r hr r' hget := h.spent r hr r' (hsub _ r' hget)
  once := h.once
  inTime := h.inTime

end Voucher

end Dayjaview
