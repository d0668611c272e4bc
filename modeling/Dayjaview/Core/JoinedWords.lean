import Mathlib.Data.List.Infix
import Mathlib.Data.List.TakeWhile
import Mathlib.Tactic

/-!
# Words of joined texts

A text is split at its blanks, and its words are joined again with one separator. Texts that are
joined with a blank have the words of all of them, so what is part of one of them with single
separators is part of all of them joined.
-/

namespace Dayjaview.JoinedWords

variable {α : Type*} (blank : α → Bool)

/-- The runs of elements between blanks. -/
def wordsOf (cs : List α) : List (List α) := (cs.splitOnP blank).filter fun word => !word.isEmpty

/-- The words of a text with one separator between them. -/
def compact (separator : α) (cs : List α) : List α := [separator].intercalate (wordsOf blank cs)

variable {blank} {separator : α}

@[simp] theorem wordsOf_nil : wordsOf blank [] = [] := by
  rw [wordsOf, List.splitOnP_nil]
  rfl

theorem wordsOf_append_cons (cs ds : List α) {c : α} (h : blank c = true) :
    wordsOf blank (cs ++ c :: ds) = wordsOf blank cs ++ wordsOf blank ds := by
  rw [wordsOf, List.splitOnP_append_cons cs ds h, List.filter_append]
  rfl

theorem wordsOf_cons {c : α} (h : blank c = true) (cs : List α) :
    wordsOf blank (c :: cs) = wordsOf blank cs :=
  (wordsOf_append_cons [] cs h).trans (by rw [wordsOf_nil, List.nil_append])

theorem wordsOf_dropWhile (cs : List α) :
    wordsOf blank (cs.dropWhile blank) = wordsOf blank cs := by
  induction cs with
  | nil => rfl
  | cons c cs ih =>
    cases hc : blank c with
    | true => rw [List.dropWhile_cons_of_pos hc, ih, wordsOf_cons hc]
    | false => rw [List.dropWhile_cons_of_neg (by simp [hc])]

theorem wordsOf_append_blanks (cs : List α) {ds : List α} (h : ∀ d ∈ ds, blank d = true) :
    wordsOf blank (cs ++ ds) = wordsOf blank cs := by
  have hnone : wordsOf blank ds = [] := by
    have hdrop : wordsOf blank (ds.dropWhile blank) = wordsOf blank ds := wordsOf_dropWhile ds
    rw [List.dropWhile_eq_nil_iff.mpr h, wordsOf_nil] at hdrop
    exact hdrop.symm
  cases ds with
  | nil => rw [List.append_nil]
  | cons d ds =>
    have hd := h d List.mem_cons_self
    rw [wordsOf_append_cons cs ds hd]
    rw [wordsOf_cons hd] at hnone
    rw [hnone, List.append_nil]

theorem wordsOf_strip (cs : List α) :
    wordsOf blank ((cs.dropWhile blank).reverse.dropWhile blank).reverse = wordsOf blank cs := by
  have hsplit : cs.dropWhile blank = ((cs.dropWhile blank).reverse.dropWhile blank).reverse ++
      ((cs.dropWhile blank).reverse.takeWhile blank).reverse := by
    rw [← List.reverse_append, List.takeWhile_append_dropWhile, List.reverse_reverse]
  have hblanks : ∀ c ∈ ((cs.dropWhile blank).reverse.takeWhile blank).reverse, blank c = true :=
    fun c hc =>
    List.mem_takeWhile_imp (List.mem_reverse.mp hc)
  rw [← wordsOf_append_blanks _ hblanks, ← hsplit, wordsOf_dropWhile]

theorem isInfix_intercalate {s : List α} {xs ys : List (List α)} (h : xs <:+: ys) :
    s.intercalate xs <:+: s.intercalate ys := by
  obtain ⟨front, back, rfl⟩ := h
  have hback : s.intercalate xs <+: s.intercalate (xs ++ back) := by
    induction xs with
    | nil => exact List.nil_prefix
    | cons x xs ih =>
      rcases eq_or_ne xs [] with rfl | hne
      · rcases eq_or_ne back [] with rfl | hback
        · exact List.prefix_rfl
        · rw [List.singleton_append, List.intercalate_singleton,
            List.intercalate_cons_of_ne_nil hback]
          exact ⟨s ++ s.intercalate back, by simp⟩
      · rw [List.cons_append, List.intercalate_cons_of_ne_nil hne,
          List.intercalate_cons_of_ne_nil (by simp [hne])]
        obtain ⟨rest, hrest⟩ := ih
        exact ⟨rest, by rw [← hrest]; simp⟩
  have hfront : s.intercalate (xs ++ back) <:+ s.intercalate (front ++ (xs ++ back)) := by
    induction front with
    | nil => exact List.suffix_rfl
    | cons x front ih =>
      rcases eq_or_ne (front ++ (xs ++ back)) [] with hnil | hne
      · have hrest : xs ++ back = [] := (List.append_eq_nil_iff.mp hnil).2
        rw [hrest]
        exact List.nil_suffix
      · rw [List.cons_append, List.intercalate_cons_of_ne_nil hne]
        exact ih.trans ⟨x ++ s, by simp⟩
  rw [List.append_assoc]
  exact hback.isInfix.trans hfront.isInfix

theorem wordsOf_intercalate {c : α} (h : blank c = true) (texts : List (List α)) :
    wordsOf blank ([c].intercalate texts) = texts.flatMap (wordsOf blank) := by
  induction texts with
  | nil => exact wordsOf_nil
  | cons text texts ih =>
    rcases eq_or_ne texts [] with rfl | hne
    · rw [List.intercalate_singleton, List.flatMap_singleton]
    · rw [List.intercalate_cons_of_ne_nil hne, List.append_assoc, List.singleton_append,
        wordsOf_append_cons _ _ h, ih, List.flatMap_cons]

theorem compact_infix {c : α} (h : blank c = true) {text : List α} {texts : List (List α)}
    (hmem : text ∈ texts) :
    compact blank separator text <:+: compact blank separator ([c].intercalate texts) := by
  refine isInfix_intercalate ?_
  rw [wordsOf_intercalate h]
  obtain ⟨front, back, rfl⟩ := List.append_of_mem hmem
  rw [List.flatMap_append, List.flatMap_cons]
  exact ⟨_, _, List.append_assoc ..⟩

/-- A text starts in one of the joined texts and ends in a later one. -/
def Straddles (separator : α) (texts : List (List α)) (part : List α) : Prop :=
  ∃ front left between right back first last, texts = front ++ left :: (between ++ right :: back) ∧
    first <:+ left ∧ last <+: right ∧ part = [separator].intercalate (first :: (between ++ [last]))

theorem intercalate_cons_append_singleton (first last : List α) (between : List (List α)) :
    [separator].intercalate (first :: (between ++ [last])) =
      first ++ separator :: [separator].intercalate (between ++ [last]) := by
  rw [List.intercalate_cons_of_ne_nil (by simp), List.append_assoc, List.singleton_append]

theorem prefix_intercalate_cons {part text : List α} {texts : List (List α)}
    (h : part <+: [separator].intercalate (text :: texts)) : part <+: text ∨
      ∃ between right back last, texts = between ++ right :: back ∧ last <+: right ∧
        part = [separator].intercalate (text :: (between ++ [last])) := by
  induction texts generalizing text part with
  | nil => exact .inl (by rwa [List.intercalate_singleton] at h)
  | cons next texts ih =>
    rw [List.intercalate_cons_cons, List.append_assoc] at h
    obtain ⟨rest, hrest⟩ := h
    rcases List.append_eq_append_iff.mp hrest with ⟨more, htext, -⟩ | ⟨more, rfl, hmore⟩
    · exact .inl ⟨more, htext.symm⟩
    · cases more with
      | nil => exact .inl (by rw [List.append_nil])
      | cons d more =>
        obtain ⟨rfl, hafter⟩ := List.cons.inj hmore
        rcases ih ⟨rest, hafter.symm⟩ with hnext | ⟨between, right, back, last, rfl, hlast, rfl⟩
        · exact .inr ⟨[], next, texts, more, rfl, hnext, by simp⟩
        · refine .inr ⟨next :: between, right, back, last, rfl, hlast, ?_⟩
          rw [List.cons_append, List.intercalate_cons_cons, List.append_assoc]
          rfl

theorem Straddles.infix {texts : List (List α)} {part : List α}
    (h : Straddles separator texts part) : part <:+: [separator].intercalate texts := by
  obtain ⟨front, left, between, right, back, first, last, rfl, ⟨start, rfl⟩, ⟨rest, rfl⟩, rfl⟩ := h
  have hright : [separator].intercalate (between ++ [last]) <+: [separator].intercalate
      (between ++ [last ++ rest]) := by
    induction between with
    | nil => exact ⟨rest, by simp⟩
    | cons text between ih =>
      obtain ⟨more, hmore⟩ := ih
      rw [List.cons_append, intercalate_cons_append_singleton, List.cons_append,
        intercalate_cons_append_singleton, ← hmore]
      exact ⟨more, by simp⟩
  have hwhole : (start ++ first) :: (between ++ [last ++ rest]) <:+:
      front ++ (start ++ first) :: (between ++ (last ++ rest) :: back) :=
    ⟨front, back, by simp⟩
  refine List.IsInfix.trans ?_ (isInfix_intercalate hwhole)
  obtain ⟨more, hmore⟩ := hright
  rw [intercalate_cons_append_singleton, intercalate_cons_append_singleton, ← hmore]
  exact ⟨start, more, by simp⟩

theorem infix_intercalate_iff {texts : List (List α)} {part : List α} (hne : part ≠ []) :
    part <:+: [separator].intercalate texts ↔ (∃ text ∈ texts, part <:+: text) ∨
    Straddles separator texts part := by
  constructor
  · intro h
    induction texts with
    | nil => exact absurd (List.infix_nil.mp h) hne
    | cons text texts ih =>
      cases texts with
      | nil =>
        exact .inl ⟨text, List.mem_singleton.mpr rfl, by rwa [List.intercalate_singleton] at h⟩
      | cons next texts =>
        -- an occurrence across the first join starts in the first text, maybe at its end
        have hacross : ∀ first last, part = first ++ last → first <:+ text →
            last <+: separator :: [separator].intercalate (next :: texts) →
            (∃ other ∈ text :: next :: texts, part <:+: other) ∨
            Straddles separator (text :: next :: texts) part := by
          intro first last hpart hfirst hlast
          rcases List.prefix_cons_iff.mp hlast with rfl | ⟨after, rfl, hafter⟩
          · rw [List.append_nil] at hpart
            exact .inl ⟨text, List.mem_cons_self, hpart ▸ hfirst.isInfix⟩
          · rcases prefix_intercalate_cons hafter with hnext |
                ⟨between, right, back, last, rfl, hend, rfl⟩
            · exact .inr ⟨[], text, [], next, texts, first, after, rfl, hfirst, hnext, by
                simpa using hpart⟩
            · exact .inr ⟨[], text, next :: between, right, back, first, last, rfl, hfirst, hend,
                hpart.trans (intercalate_cons_append_singleton first last (next :: between)).symm⟩
        rw [List.intercalate_cons_cons, List.append_assoc, List.singleton_append,
          List.infix_append_iff] at h
        rcases h with htext | hrest | ⟨first, last, hpart, hfirst, hlast⟩
        · exact .inl ⟨text, List.mem_cons_self, htext⟩
        · rcases List.infix_cons_iff.mp hrest with hbegins | hrest
          · exact hacross [] part rfl List.nil_suffix hbegins
          · rcases ih hrest with ⟨other, hother, hpart⟩ | ⟨front, hstraddles⟩
            · exact .inl ⟨other, List.mem_cons_of_mem _ hother, hpart⟩
            · obtain ⟨left, between, right, back, first, last, htexts, hends⟩ := hstraddles
              exact .inr ⟨text :: front, left, between, right, back, first, last,
                by rw [htexts, List.cons_append], hends⟩
        · exact hacross first last hpart hfirst hlast
  · rintro (⟨text, htext, hpart⟩ | hstraddles)
    · have hsingle : [text] <:+: texts := by
        obtain ⟨front, back, rfl⟩ := List.append_of_mem htext
        exact ⟨front, back, by simp⟩
      have hinfix := isInfix_intercalate (s := [separator]) hsingle
      rw [List.intercalate_singleton] at hinfix
      exact hpart.trans hinfix
    · exact hstraddles.infix

theorem intercalate_map_pair {β : Type*} (first second : β → List α) (as : List β) :
    [separator].intercalate (as.map fun a => first a ++ separator :: second a) =
      [separator].intercalate (as.flatMap fun a => [first a, second a]) := by
  induction as with
  | nil => rfl
  | cons a as ih =>
    cases as with
    | nil => simp
    | cons b as =>
      have hrest : ((b :: as).flatMap fun a => [first a, second a]) ≠ [] := by simp
      have hpair : ((a :: b :: as).flatMap fun a => [first a, second a]) =
          first a :: second a :: (b :: as).flatMap fun a => [first a, second a] := rfl
      rw [List.map_cons, List.intercalate_cons_of_ne_nil (by simp), ih, hpair,
        List.intercalate_cons_cons, List.intercalate_cons_of_ne_nil hrest]
      simp only [List.append_assoc, List.cons_append, List.nil_append]

/-- Some elements stand one behind the other in a text. -/
def occursIn [DecidableEq α] (part whole : List α) : Bool := whole.tails.any part.isPrefixOf

theorem occursIn_iff [DecidableEq α] {part whole : List α} :
    occursIn part whole = true ↔ part <:+: whole := by
  rw [occursIn, List.any_eq_true]
  simp only [List.mem_tails, List.isPrefixOf_iff_prefix]
  constructor
  · rintro ⟨tail, htail, hpart⟩
    exact hpart.isInfix.trans htail.isInfix
  · rintro ⟨front, back, rfl⟩
    exact ⟨part ++ back, ⟨front, (List.append_assoc ..).symm⟩, List.prefix_append ..⟩

end Dayjaview.JoinedWords
