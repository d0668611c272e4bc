import Mathlib.Data.List.Basic
import Mathlib.Data.List.Induction

/-!
# Streaks

A record holds hits and resets. The hits since the last reset are counted along the record, and no
stretch without a reset has more hits than that count ever reaches.
-/

namespace Dayjaview.Streak

variable {α : Type*} (reset hit : α → Prop) [DecidablePred reset] [DecidablePred hit]

/-- The count after one more entry. -/
def advance (n : Nat) (a : α) : Nat := if reset a then 0 else if hit a then n + 1 else n

/-- The hits since the last reset. -/
def since (record : List α) : Nat := record.foldl (advance reset hit) 0

/-- No stretch without a reset has more than some number of hits. -/
def AtMost (k : Nat) (record : List α) : Prop :=
  ∀ before stretch after, record = before ++ stretch ++ after → (∀ a ∈ stretch, ¬ reset a) →
    stretch.countP (fun a => decide (hit a)) ≤ k

variable {reset hit} {record : List α} {a : α} {k : Nat}

theorem since_snoc (record : List α) (a : α) :
    since reset hit (record ++ [a]) = advance reset hit (since reset hit record) a := by
  rw [since, List.foldl_append]
  rfl

theorem since_append {stretch : List α} (h : ∀ a ∈ stretch, ¬ reset a) (record : List α) :
    since reset hit (record ++ stretch) =
      since reset hit record + stretch.countP (fun a => decide (hit a)) := by
  induction stretch generalizing record with
  | nil => rw [List.append_nil, List.countP_nil, Nat.add_zero]
  | cons a stretch ih =>
    have hstep : since reset hit (record ++ [a]) =
        since reset hit record + if hit a then 1 else 0 := by
      rw [since_snoc, advance, if_neg (h a List.mem_cons_self)]
      split <;> rfl
    rw [← List.singleton_append, ← List.append_assoc,
      ih (fun b hb => h b (List.mem_cons_of_mem _ hb)), hstep, List.singleton_append,
      List.countP_cons]
    simp only [decide_eq_true_eq]
    omega

theorem exists_stretch (record : List α) : ∃ before stretch, record = before ++ stretch ∧
    (∀ a ∈ stretch, ¬ reset a) ∧
      stretch.countP (fun a => decide (hit a)) = since reset hit record := by
  induction record using List.reverseRecOn with
  | nil => exact ⟨[], [], rfl, nofun, rfl⟩
  | append_singleton record a ih =>
    by_cases hreset : reset a
    · refine ⟨record ++ [a], [], (List.append_nil _).symm, nofun, ?_⟩
      rw [since_snoc, advance, if_pos hreset]
      rfl
    · obtain ⟨before, stretch, rfl, hstretch, hcount⟩ := ih
      have hall : ∀ b ∈ stretch ++ [a], ¬ reset b := by
        intro b hb
        rcases List.mem_append.mp hb with hb | hb
        · exact hstretch b hb
        · rwa [List.mem_singleton.mp hb]
      refine ⟨before, stretch ++ [a], List.append_assoc _ _ _, hall, ?_⟩
      have hsince : since reset hit (before ++ stretch) = _ := since_append hstretch before
      have hafter : since reset hit (before ++ (stretch ++ [a])) = _ := since_append hall before
      rw [List.countP_append] at hafter ⊢
      rw [List.append_assoc, hafter]
      omega

omit [DecidablePred reset] in
theorem atMost_nil : AtMost reset hit k [] := by
  intro before stretch after hsplit _
  obtain ⟨hstretch, -⟩ := List.append_eq_nil_iff.mp hsplit.symm
  rw [(List.append_eq_nil_iff.mp hstretch).2]
  exact Nat.zero_le _

theorem AtMost.since_le (h : AtMost reset hit k record) : since reset hit record ≤ k := by
  obtain ⟨before, stretch, hsplit, hstretch, hcount⟩ : ∃ before stretch,
      record = before ++ stretch ∧ (∀ b ∈ stretch, ¬ reset b) ∧
        stretch.countP (fun b => decide (hit b)) = since reset hit record := exists_stretch _
  rw [← hcount]
  exact h before stretch [] (by rw [hsplit, List.append_nil]) hstretch

theorem atMost_snoc : AtMost reset hit k (record ++ [a]) ↔
    AtMost reset hit k record ∧ since reset hit (record ++ [a]) ≤ k := by
  constructor
  · intro h
    refine ⟨fun before stretch after hsplit hstretch => ?_, ?_⟩
    · refine h before stretch (after ++ [a]) ?_ hstretch
      rw [hsplit, List.append_assoc]
    · exact h.since_le
  · rintro ⟨h, hle⟩ before stretch after hsplit hstretch
    rcases List.eq_nil_or_concat after with rfl | ⟨after, b, rfl⟩
    · rw [List.append_nil] at hsplit
      rw [hsplit, since_append hstretch] at hle
      omega
    · rw [List.concat_eq_append, ← List.append_assoc] at hsplit
      exact h before stretch after (List.append_inj_left' hsplit rfl) hstretch

theorem atMost_snoc_of_not_hit (h : ¬ hit a) :
    AtMost reset hit k (record ++ [a]) ↔ AtMost reset hit k record := by
  rw [atMost_snoc, since_snoc, advance, if_neg h]
  refine and_iff_left_of_imp fun hbound => ?_
  split
  · exact Nat.zero_le _
  · exact hbound.since_le

theorem atMost_snoc_of_hit (hreset : ¬ reset a) (h : hit a) :
    AtMost reset hit k (record ++ [a]) ↔ AtMost reset hit k record ∧
    since reset hit record < k := by
  rw [atMost_snoc, since_snoc, advance, if_neg hreset, if_pos h]
  exact Iff.rfl

end Dayjaview.Streak

namespace Dayjaview

variable {σ α : Type} {r : σ → α → σ → Prop}

/-- Some steps, one after the other. -/
inductive Steps (r : σ → α → σ → Prop) : σ → List α → σ → Prop where
  | nil (s : σ) : Steps r s [] s
  | cons {s t u : σ} {a : α} {as : List α} (head : r s a t) (tail : Steps r t as u) :
      Steps r s (a :: as) u

namespace Steps

theorem append {s t u : σ} {as bs : List α} (h : Steps r s as t) (h' : Steps r t bs u) :
    Steps r s (as ++ bs) u := by
  induction h with
  | nil => exact h'
  | cons head _ ih => exact .cons head (ih h')

theorem of_append {s u : σ} {as bs : List α} (h : Steps r s (as ++ bs) u) :
    ∃ t, Steps r s as t ∧ Steps r t bs u := by
  induction as generalizing s with
  | nil => exact ⟨s, .nil s, h⟩
  | cons a as ih =>
    rw [List.cons_append] at h
    cases h with
    | cons head tail =>
      obtain ⟨t, hleft, hright⟩ := ih tail
      exact ⟨t, .cons head hleft, hright⟩

theorem one {s t : σ} {a : α} (h : r s a t) : Steps r s [a] t := .cons h (.nil t)

theorem of_mem {s u : σ} {as : List α} (h : Steps r s as u) {a : α} (ha : a ∈ as) :
    ∃ t t', r t a t' := by
  obtain ⟨before, after, rfl⟩ := List.append_of_mem ha
  obtain ⟨t, -, hright⟩ := h.of_append
  cases hright with
  | cons head _ => exact ⟨t, _, head⟩

end Steps

end Dayjaview
