import Mathlib.Order.Basic
import Mathlib.Data.List.Chain

/-!
# Chronicles

A chronicle lists values, each valid from one time up to another, that follow one
another without gap; only the last one is open. At every time at most one of them
is valid. Closing the last one at some time, with a successor from then on, changes
nothing before that time.
-/

namespace Dayjaview

universe u v

/-- From when and until when a value is valid. -/
structure Validity (α : Type u) (τ : Type v) where
  start : α → τ
  stop : α → Option τ

namespace Validity

variable {α : Type u} {τ : Type v} [Preorder τ] (c : Validity α τ)

/-- A value is valid at a time. -/
def Holds (t : τ) (a : α) : Prop := c.start a ≤ t ∧ ∀ u, c.stop a = some u → t < u

/-- A value is valid for some time, and the next one from then on. -/
def Follows (a b : α) : Prop := c.stop a = some (c.start b) ∧ c.start a < c.start b

/-- The values follow one another, and only the last one is open. -/
structure Chronicle (as : List α) : Prop where
  chain : as.IsChain c.Follows
  lastOpen : ∀ a, as.getLast? = some a → c.stop a = none

/-- A value is no longer valid when another one starts. -/
def Before (a b : α) : Prop := ∃ u, c.stop a = some u ∧ c.start a < u ∧ u ≤ c.start b

variable {c}

theorem Before.trans {a b d : α} (h : c.Before a b) (h' : c.Before b d) : c.Before a d := by
  obtain ⟨u, hu, hstart, hle⟩ := h
  obtain ⟨u', -, hstart', hle'⟩ := h'
  exact ⟨u, hu, hstart, hle.trans (hstart'.le.trans hle')⟩

theorem pairwise_before {as : List α} (h : as.IsChain c.Follows) : as.Pairwise c.Before := by
  have : IsTrans α c.Before := ⟨fun _ _ _ => Before.trans⟩
  refine (h.imp ?_).pairwise
  rintro a b ⟨hstop, hlt⟩
  exact ⟨c.start b, hstop, hlt, le_rfl⟩

theorem not_holds_of_before {a b : α} {t : τ} (h : c.Before a b) (ha : c.Holds t a)
    (hb : c.Holds t b) : False := by
  obtain ⟨u, hu, -, hle⟩ := h
  have hlt := ha.2 u hu
  have hge := hb.1
  exact absurd (hlt.trans_le (hle.trans hge)) (lt_irrefl t)

theorem holds_unique {as : List α} (h : as.IsChain c.Follows) {t : τ} {a b : α} (ha : a ∈ as)
    (hb : b ∈ as) (hta : c.Holds t a) (htb : c.Holds t b) : a = b := by
  have hpair := pairwise_before h
  induction as with
  | nil => cases ha
  | cons d as ih =>
    obtain ⟨hd, hrest⟩ := List.pairwise_cons.mp hpair
    rcases List.mem_cons.mp ha with rfl | ha'
    · rcases List.mem_cons.mp hb with rfl | hb'
      · rfl
      · exact (not_holds_of_before (hd b hb') hta htb).elim
    · rcases List.mem_cons.mp hb with rfl | hb'
      · exact (not_holds_of_before (hd a ha') htb hta).elim
      · exact ih h.tail ha' hb' hrest

theorem chronicle_singleton {a : α} (h : c.stop a = none) : c.Chronicle [a] where
  chain := .singleton a
  lastOpen b hb := by
    obtain rfl : a = b := by simpa using hb
    exact h

theorem Chronicle.close {as : List α} {a a' b : α} (h : c.Chronicle (as ++ [a]))
    (hstart : c.start a' = c.start a) (hfollows : c.Follows a' b) (hopen : c.stop b = none) :
    c.Chronicle (as ++ [a', b]) where
  chain := by
    have hchain := List.isChain_append.mp h.chain
    refine List.isChain_append.mpr ⟨hchain.1, ?_, ?_⟩
    · exact .cons_cons hfollows (.singleton b)
    · intro x hx y hy
      obtain rfl : a' = y := by simpa using hy
      have hxa := hchain.2.2 x hx a (by simp)
      exact ⟨hstart ▸ hxa.1, hstart ▸ hxa.2⟩
  lastOpen d hd := by
    obtain rfl : b = d := by simpa using hd
    exact hopen

theorem holds_close {a a' b : α} {t : τ} (hopen : c.stop a = none) (hstart : c.start a' = c.start a)
    (hfollows : c.Follows a' b) (ht : t < c.start b) :
    (c.Holds t a' ↔ c.Holds t a) ∧ ¬ c.Holds t b := by
  constructor
  · constructor
    · intro h
      refine ⟨hstart ▸ h.1, fun u hu => ?_⟩
      rw [hopen] at hu
      cases hu
    · intro h
      refine ⟨hstart ▸ h.1, fun u hu => ?_⟩
      rw [hfollows.1] at hu
      cases hu
      exact ht
  · intro h
    exact absurd (lt_of_lt_of_le ht h.1) (lt_irrefl t)

end Validity

end Dayjaview
