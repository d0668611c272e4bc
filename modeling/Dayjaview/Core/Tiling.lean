import Mathlib.Data.List.Basic
import Mathlib.Tactic

/-!
# Ranges with gaps between them

Ranges follow each other from one place to another one. Between two of them, and nowhere else, lies
a gap. A range can be replaced by ranges that go from its start to its end.
-/

namespace Dayjaview

theorem separate_of_ordered {ranges : List (Nat × Nat)} (h : ranges.Pairwise fun r s => r.2 ≤ s.1)
    {r s : Nat × Nat} (hr : r ∈ ranges) (hs : s ∈ ranges) (hne : r ≠ s) :
    r.2 ≤ s.1 ∨ s.2 ≤ r.1 := by
  induction h with
  | nil => cases hr
  | @cons t ranges hfirst _ ih =>
    rcases List.mem_cons.mp hr with rfl | hin <;> rcases List.mem_cons.mp hs with rfl | hin'
    · exact absurd rfl hne
    · exact .inl (hfirst s hin')
    · exact .inr (hfirst r hin)
    · exact ih hin hin'

/-- The ranges and the gaps make up what lies between two places. A range begins at the first place
or behind a gap, and ends at the last one or before a gap. -/
structure Tiles (gap : Nat × Nat → Prop) (first last : Nat) (ranges : List (Nat × Nat)) : Prop where
  within : ∀ r ∈ ranges, first ≤ r.1 ∧ r.1 ≤ r.2 ∧ r.2 ≤ last
  ordered : ranges.Pairwise fun r s => r.2 ≤ s.1
  gaps : ∀ m, gap m → first ≤ m.1 ∧ m.1 < m.2 ∧ m.2 ≤ last
  apart : ∀ r ∈ ranges, ∀ m, gap m → r.2 ≤ m.1 ∨ m.2 ≤ r.1
  left : ∀ r ∈ ranges, r.1 = first ∨ ∃ m, gap m ∧ m.2 = r.1
  right : ∀ r ∈ ranges, r.2 = last ∨ ∃ m, gap m ∧ m.1 = r.2
  covered : ∀ place, first ≤ place → place < last →
    (∃ r ∈ ranges, r.1 ≤ place ∧ place < r.2) ∨ ∃ m, gap m ∧ m.1 ≤ place ∧ place < m.2

namespace Tiles

variable {gap gap' : Nat × Nat → Prop} {first last : Nat} {ranges : List (Nat × Nat)}

theorem congr (h : Tiles gap first last ranges) (hgap : ∀ m, gap' m ↔ gap m) :
    Tiles gap' first last ranges := by
  obtain rfl : gap' = gap := funext fun m => propext (hgap m)
  exact h

theorem nil (h : last ≤ first) : Tiles (fun _ => False) first last [] where
  within := nofun
  ordered := .nil
  gaps := nofun
  apart := nofun
  left := nofun
  right := nofun
  covered place hfirst hlast := by omega

theorem single (h : first ≤ last) : Tiles (fun _ => False) first last [(first, last)] where
  within := by
    rintro r hr
    obtain rfl := List.mem_singleton.mp hr
    exact ⟨le_rfl, h, le_rfl⟩
  ordered := List.pairwise_singleton _ _
  gaps := nofun
  apart := nofun
  left := by
    rintro r hr
    obtain rfl := List.mem_singleton.mp hr
    exact .inl rfl
  right := by
    rintro r hr
    obtain rfl := List.mem_singleton.mp hr
    exact .inl rfl
  covered place hfirst hlast := .inl ⟨_, List.mem_singleton_self _, hfirst, hlast⟩

theorem cons {m : Nat × Nat} (hfirst : first ≤ m.1) (hgap : m.1 < m.2) (hlast : m.2 ≤ last)
    (h : Tiles gap m.2 last ranges) :
    Tiles (fun n => n = m ∨ gap n) first last ((first, m.1) :: ranges) where
  within := by
    rintro r hr
    rcases List.mem_cons.mp hr with rfl | hr
    · exact ⟨le_rfl, hfirst, hgap.le.trans hlast⟩
    · obtain ⟨hstart, hrest⟩ := h.within r hr
      exact ⟨hfirst.trans (hgap.le.trans hstart), hrest⟩
  ordered := .cons (fun r hr => hgap.le.trans (h.within r hr).1) h.ordered
  gaps := by
    rintro n (rfl | hn)
    · exact ⟨hfirst, hgap, hlast⟩
    · have hrest := h.gaps n hn
      omega
  apart := by
    rintro r hr n hn
    rcases List.mem_cons.mp hr with rfl | hin <;> rcases hn with rfl | hn
    · exact .inl le_rfl
    · exact .inl (hgap.le.trans (h.gaps n hn).1)
    · exact .inr (h.within r hin).1
    · exact h.apart r hin n hn
  left := by
    rintro r hr
    rcases List.mem_cons.mp hr with rfl | hr
    · exact .inl rfl
    · rcases h.left r hr with hstart | ⟨n, hn, hends⟩
      · exact .inr ⟨m, .inl rfl, hstart.symm⟩
      · exact .inr ⟨n, .inr hn, hends⟩
  right := by
    rintro r hr
    rcases List.mem_cons.mp hr with rfl | hr
    · exact .inr ⟨m, .inl rfl, rfl⟩
    · exact (h.right r hr).imp_right fun ⟨n, hn, hbegins⟩ => ⟨n, .inr hn, hbegins⟩
  covered place hstart hstop := by
    rcases lt_or_ge place m.1 with hbefore | hbehind
    · exact .inl ⟨_, List.mem_cons_self, hstart, hbefore⟩
    · rcases lt_or_ge place m.2 with hwithin | hbehind
      · exact .inr ⟨m, .inl rfl, ‹_›, hwithin⟩
      · rcases h.covered place hbehind hstop with ⟨r, hr, hplace⟩ | ⟨n, hn, hplace⟩
        · exact .inl ⟨r, List.mem_cons_of_mem _ hr, hplace⟩
        · exact .inr ⟨n, .inr hn, hplace⟩

theorem flatMap {f : Nat × Nat → List (Nat × Nat)} {inner : Nat × Nat → Nat × Nat → Prop}
    (h : Tiles gap first last ranges) (hf : ∀ r ∈ ranges, Tiles (inner r) r.1 r.2 (f r)) :
    Tiles (fun m => gap m ∨ ∃ r ∈ ranges, inner r m) first last (ranges.flatMap f) where
  within := by
    intro s hs
    obtain ⟨r, hr, hs⟩ := List.mem_flatMap.mp hs
    have hin := (hf r hr).within s hs
    have hout := h.within r hr
    omega
  ordered := by
    rw [List.pairwise_flatMap]
    refine
      ⟨fun r hr => (hf r hr).ordered, h.ordered.imp_of_mem fun {r r'} hr hr' hle s hs s' hs' => ?_⟩
    have hin := (hf r hr).within s hs
    have hin' := (hf r' hr').within s' hs'
    omega
  gaps := by
    rintro m (hm | ⟨r, hr, hm⟩)
    · exact h.gaps m hm
    · have hin := (hf r hr).gaps m hm
      have hout := h.within r hr
      omega
  apart := by
    rintro s hs m hm
    obtain ⟨r, hr, hs⟩ := List.mem_flatMap.mp hs
    have hin := (hf r hr).within s hs
    rcases hm with hm | ⟨r', hr', hm⟩
    · have hout := h.apart r hr m hm
      omega
    · rcases eq_or_ne r r' with rfl | hne
      · exact (hf r hr).apart s hs m hm
      · have hin' := (hf r' hr').gaps m hm
        have hout := separate_of_ordered h.ordered hr hr' hne
        omega
  left := by
    intro s hs
    obtain ⟨r, hr, hs⟩ := List.mem_flatMap.mp hs
    rcases (hf r hr).left s hs with hstart | ⟨m, hm, hends⟩
    · rw [hstart]
      exact (h.left r hr).imp_right fun ⟨m, hm, hends⟩ => ⟨m, .inl hm, hends⟩
    · exact .inr ⟨m, .inr ⟨r, hr, hm⟩, hends⟩
  right := by
    intro s hs
    obtain ⟨r, hr, hs⟩ := List.mem_flatMap.mp hs
    rcases (hf r hr).right s hs with hstop | ⟨m, hm, hbegins⟩
    · rw [hstop]
      exact (h.right r hr).imp_right fun ⟨m, hm, hbegins⟩ => ⟨m, .inl hm, hbegins⟩
    · exact .inr ⟨m, .inr ⟨r, hr, hm⟩, hbegins⟩
  covered place hfirst hlast := by
    rcases h.covered place hfirst hlast with ⟨r, hr, hstart, hstop⟩ | ⟨m, hm, hplace⟩
    · rcases (hf r hr).covered place hstart hstop with ⟨s, hs, hplace⟩ | ⟨m, hm, hplace⟩
      · exact .inl ⟨s, List.mem_flatMap.mpr ⟨r, hr, hs⟩, hplace⟩
      · exact .inr ⟨m, .inr ⟨r, hr, hm⟩, hplace⟩
    · exact .inr ⟨m, .inl hm, hplace⟩

end Tiles

end Dayjaview
