import Mathlib.Data.List.TakeWhile
import Mathlib.Tactic

/-!
# Patterns that are tried with backtracking

A pattern takes characters from the beginning of a text. It has the list of the lengths that it can
take, in the order in which they are tried: the first one is the match. What is said of all texts
that a pattern takes is said part by part.
-/

namespace Dayjaview

inductive Pattern
  | empty
  /-- Takes one character of a class. -/
  | one (p : Char → Bool)
  /-- Takes as many characters of a class as possible. -/
  | many (p : Char → Bool)
  /-- Takes the texts of two patterns one behind the other. -/
  | seq (first second : Pattern)
  /-- Takes the text of the first pattern, or else that of the second one. -/
  | either (first second : Pattern)
  /-- Takes nothing where no character of a class follows. -/
  | notNext (p : Char → Bool)

namespace Pattern

/-- The lengths that a pattern can take from a text. -/
def lengths : Pattern → List Char → List Nat
  | empty, _ => [0]
  | one p, text => if text.head?.any p then [1] else []
  | many p, text => (List.range ((text.takeWhile p).length + 1)).reverse
  | seq first second, text =>
    (first.lengths text).flatMap fun n => (second.lengths (text.drop n)).map (n + ·)
  | either first second, text => first.lengths text ++ second.lengths text
  | notNext p, text => if text.head?.any p then [] else [0]

/-- Takes the text of a pattern if possible. -/
def optional (r : Pattern) : Pattern := either r empty

def sign (c : Char) : Pattern := one (· == c)

/-- Takes the texts of some patterns one behind the other. -/
def sequence (rs : List Pattern) : Pattern := rs.foldr seq empty

def word (s : String) : Pattern := sequence (s.toList.map sign)

/-- Every text that the pattern takes has the property. -/
def Reads (r : Pattern) (Q : List Char → Prop) : Prop :=
  ∀ text, ∀ n ∈ r.lengths text, n ≤ text.length ∧ Q (text.take n)

variable {r s : Pattern} {rs : List Pattern} {p : Char → Bool} {Q Q' Q'' : List Char → Prop}

namespace Reads

theorem mono (h : Reads r Q) (himp : ∀ w, Q w → Q' w) : Reads r Q' := fun text n hn =>
  ⟨(h text n hn).1, himp _ (h text n hn).2⟩

theorem and (h : Reads r Q) (h' : Reads r Q') : Reads r fun w => Q w ∧ Q' w := fun text n hn =>
  ⟨(h text n hn).1, (h text n hn).2, (h' text n hn).2⟩

theorem empty (h : Q []) : Reads .empty Q := by
  intro text n hn
  obtain rfl := List.mem_singleton.mp hn
  exact ⟨Nat.zero_le _, h⟩

theorem one (h : ∀ c, p c = true → Q [c]) : Reads (.one p) Q := by
  intro text n hn
  unfold lengths at hn
  split at hn
  · next hp =>
    obtain rfl := List.mem_singleton.mp hn
    cases text with
    | nil => cases hp
    | cons c cs => exact ⟨Nat.succ_pos _, h c hp⟩
  · cases hn

theorem many (h : ∀ w, (∀ c ∈ w, p c = true) → Q w) : Reads (.many p) Q := by
  intro text n hn
  have hle : n ≤ (text.takeWhile p).length := by
    have hlt := List.mem_range.mp (List.mem_reverse.mp hn)
    omega
  refine ⟨hle.trans (List.takeWhile_prefix p).length_le, h _ fun c hc => ?_⟩
  rw [← List.takeWhile_append_dropWhile (p := p) (l := text),
    List.take_append_of_le_length hle] at hc
  exact List.mem_takeWhile_imp (List.mem_of_mem_take hc)

theorem notNext (h : Q []) : Reads (.notNext p) Q := by
  intro text n hn
  unfold lengths at hn
  split at hn
  · cases hn
  · obtain rfl := List.mem_singleton.mp hn
    exact ⟨Nat.zero_le _, h⟩

theorem seq (hr : Reads r Q) (hs : Reads s Q') (h : ∀ u v, Q u → Q' v → Q'' (u ++ v)) :
    Reads (.seq r s) Q'' := by
  intro text n hn
  obtain ⟨k, hk, hn⟩ := List.mem_flatMap.mp hn
  obtain ⟨l, hl, rfl⟩ := List.mem_map.mp hn
  obtain ⟨hkle, hk⟩ := hr text k hk
  obtain ⟨hlle, hl⟩ := hs _ l hl
  rw [List.length_drop] at hlle
  refine ⟨by omega, ?_⟩
  rw [List.take_add]
  exact h _ _ hk hl

theorem either (hr : Reads r Q) (hs : Reads s Q) : Reads (.either r s) Q := fun text n hn =>
  (List.mem_append.mp hn).elim (hr text n) (hs text n)

theorem optional (hr : Reads r Q) (h : Q []) : Reads r.optional Q := hr.either (.empty h)

theorem sign {c : Char} (h : Q [c]) : Reads (.sign c) Q := by
  refine Reads.one fun d hd => ?_
  obtain rfl := eq_of_beq hd
  exact h

theorem sequence (h : ∀ r ∈ rs, Reads r Q) (hnil : Q []) (happend : ∀ u v, Q u → Q v → Q (u ++ v)) :
    Reads (.sequence rs) Q := by
  induction rs with
  | nil => exact .empty hnil
  | cons r rs ih =>
    exact (h r List.mem_cons_self).seq (ih fun s hs => h s (List.mem_cons_of_mem _ hs)) happend

theorem word {w : String} (h : ∀ c ∈ w.toList, Q [c]) (hnil : Q [])
    (happend : ∀ u v, Q u → Q v → Q (u ++ v)) : Reads (.word w) Q := by
  refine sequence (fun r hr => ?_) hnil happend
  obtain ⟨c, hc, rfl⟩ := List.mem_map.mp hr
  exact .sign (h c hc)

theorem head (hr : Reads r fun w => w.head?.any p = true) (hs : Reads s fun _ => True) :
    Reads (.seq r s) fun w => w.head?.any p = true := by
  refine hr.seq hs fun u v hu _ => ?_
  cases u with
  | nil => cases hu
  | cons c cs => exact hu

theorem last (hr : Reads r fun w => w.getLast?.any p = true)
    (hs : Reads s fun w => w = [] ∨ w.getLast?.any p = true) :
    Reads (.seq r s) fun w => w.getLast?.any p = true := by
  refine hr.seq hs fun u v hu hv => ?_
  rcases hv with rfl | hv
  · rwa [List.append_nil]
  · cases hlast : v.getLast? with
    | none =>
      rw [hlast] at hv
      cases hv
    | some c =>
      rw [hlast] at hv
      rwa [List.getLast?_append, hlast]

theorem behind (hr : Reads r fun _ => True) (hs : Reads s fun w => w.getLast?.any p = true) :
    Reads (.seq r s) fun w => w.getLast?.any p = true := by
  refine hr.seq hs fun u v _ hv => ?_
  cases hlast : v.getLast? with
  | none =>
    rw [hlast] at hv
    cases hv
  | some c =>
    rw [hlast] at hv
    rwa [List.getLast?_append, hlast]

theorem any (r : Pattern) : Reads r fun _ => True := by
  induction r with
  | empty => exact .empty trivial
  | one p => exact .one fun _ _ => trivial
  | many p => exact .many fun _ _ => trivial
  | seq r s hr hs => exact hr.seq hs fun _ _ _ _ => trivial
  | either r s hr hs => exact hr.either hs
  | notNext p => exact .notNext trivial

end Reads

end Pattern

end Dayjaview
