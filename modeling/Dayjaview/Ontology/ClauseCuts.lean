import Dayjaview.Ontology.ClauseCoverage

/-!
# Where a range is cut

A word for an action and a soft break never overlap. So a range is cut at a soft break exactly if an
action stands between it and the soft break before, and another one behind it.
-/

namespace Dayjaview.Ontology

open Scanning

/-- A character within a separator. -/
def isSeparatorChar (c : Char) : Bool := isSpace c || [';', '；', ',', '·', '및'].elem c

variable {k : Nat}

theorem any_of_lt_runEnd {p : Char → Bool} {text : List Char} {place : Nat} (hle : place ≤ k)
    (hlt : k < runEnd p text place) : text[k]?.any p = true := by
  obtain ⟨n, rfl⟩ := Nat.exists_eq_add_of_le hle
  have hn : n < ((text.drop place).takeWhile p).length := Nat.lt_of_add_lt_add_left hlt
  have hget : (text.drop place)[n]? = some ((text.drop place).takeWhile p)[n] :=
    List.getElem?_eq_some_iff.mpr ⟨_, ((List.takeWhile_prefix p).getElem hn).symm⟩
  rw [List.getElem?_drop] at hget
  rw [hget]
  show p _ = true
  exact List.mem_takeWhile_imp (List.getElem_mem hn)

theorem any_mono {p q : Char → Bool} {o : Option Char} (h : o.any p = true)
    (himp : ∀ c, p c = true → q c = true) : o.any q = true := by
  cases o with
  | none => cases h
  | some c => exact himp c h

theorem isSeparatorChar_of_isSpace {c : Char} (h : isSpace c = true) :
    isSeparatorChar c = true := by
  rw [isSeparatorChar, h, Bool.true_or]

theorem separates_of_runEnd {text : List Char} {place : Nat} {c : Char} (hc : text[place]? = some c)
    (hsep : isSeparatorChar c = true) (hle : place ≤ k)
    (hlt : k < runEnd isSpace text (place + 1)) :
    text[k]?.any isSeparatorChar = true := by
  rcases hle.eq_or_lt with rfl | hbehind
  · rw [hc]
    exact hsep
  · exact any_mono (any_of_lt_runEnd hbehind hlt) fun _ => isSeparatorChar_of_isSpace

theorem hardBreakAt_chars {core : List Char} {place e : Nat} (h : hardBreakAt core place = some e)
    (hle : place ≤ k) (hlt : k < e) : core[k]?.any isSeparatorChar = true := by
  unfold hardBreakAt at h
  split at h
  · cases h
  · next c hc =>
    split_ifs at h with hsemicolon hline hsentence hnews
    · cases h
      refine separates_of_runEnd hc ?_ hle hlt
      rcases Bool.or_eq_true_iff.mp hsemicolon with h | h <;> obtain rfl := eq_of_beq h <;> decide
    · cases h
      refine any_mono (any_of_lt_runEnd hle hlt) fun c hc => ?_
      obtain rfl := eq_of_beq hc
      decide
    · cases h
      exact any_mono (any_of_lt_runEnd hle hlt) fun _ => isSeparatorChar_of_isSpace
    · cases h
      refine separates_of_runEnd hc ?_ hle hlt
      simp only [Bool.and_eq_true] at hnews
      rcases Bool.or_eq_true_iff.mp hnews.1.1 with h | h <;> obtain rfl := eq_of_beq h <;> decide

theorem softBreakAt_cases {text : List Char} {place e : Nat} (h : softBreakAt text place = some e) :
    (text[place]?.any isSpace = true ∧ text[runEnd isSpace text place]? = some '및' ∧
      e = runEnd isSpace text (runEnd isSpace text place + 1)) ∨
    (∃ c, text[place]? = some c ∧ (c = '·' ∨ c = ',') ∧ e ≤ runEnd isSpace text (place + 1)) := by
  unfold softBreakAt at h
  split at h
  · cases h
  · next c hc =>
    dsimp only at h
    split_ifs at h with hspace hand hdot hcomma hfree hblank
    · cases h
      simp only [Bool.and_eq_true, decide_eq_true_eq] at hand
      exact .inl ⟨by rw [hc]; exact hspace, hand.1, rfl⟩
    · cases h
      exact .inr ⟨c, hc, .inl (eq_of_beq hdot), le_rfl⟩
    · cases h
      exact .inr ⟨c, hc, .inr (eq_of_beq hcomma), le_rfl⟩
    · cases h
      exact .inr ⟨c, hc, .inr (eq_of_beq hcomma), Nat.sub_le _ _⟩

theorem softBreakAt_chars {text : List Char} {place e : Nat} (h : softBreakAt text place = some e)
    (hle : place ≤ k) (hlt : k < e) : text[k]?.any isSeparatorChar = true := by
  rcases softBreakAt_cases h with ⟨-, hand, rfl⟩ | ⟨c, hc, hsign, hend⟩
  · rcases lt_or_ge k (runEnd isSpace text place) with hbefore | hfrom
    · exact any_mono (any_of_lt_runEnd hle hbefore) fun _ => isSeparatorChar_of_isSpace
    · exact separates_of_runEnd hand (by decide) hfrom hlt
  · refine separates_of_runEnd hc ?_ hle (hlt.trans_le hend)
    rcases hsign with rfl | rfl <;> decide

theorem Separator.chars {core : List Char} {m : Nat × Nat} (h : Separator core m) (hle : m.1 ≤ k)
    (hlt : k < m.2) : core[k]?.any isSeparatorChar = true := by
  rcases h with hhard | ⟨range, -, -, hstop, hsoft⟩
  · exact hardBreakAt_chars hhard hle hlt
  · have hchar := softBreakAt_chars hsoft hle hlt
    rwa [List.getElem?_take_of_lt (hlt.trans_le hstop)] at hchar

/-- A word for an action begins at a place and ends at another one. -/
def ActionAt (core : List Char) (x y : Nat) : Prop :=
  ∃ marker ∈ ACTION_MARKERS, marker.toList.isPrefixOf (core.drop x) = true ∧
  x + marker.toList.length = y

/-- A character at the edges of a word for an action. -/
def isSolid (c : Char) : Bool := !isEdge c && !isSeparatorChar c

theorem actionMarkers_chars :
    ∀ marker ∈ ACTION_MARKERS, (∀ c ∈ marker.toList, c ≠ '·' ∧ c ≠ ',' ∧ c ≠ '및') ∧
    marker.toList.head?.any isSolid = true ∧ marker.toList.getLast?.any isSolid = true := by
  decide +kernel

theorem ActionAt.spec {core : List Char} {x y : Nat} (h : ActionAt core x y) :
    x < y ∧ y ≤ core.length ∧ core[x]?.any isSolid = true ∧ core[y - 1]?.any isSolid = true ∧
      ∀ k, x ≤ k → k < y → ∀ c, core[k]? = some c → c ≠ '·' ∧ c ≠ ',' ∧ c ≠ '및' := by
  obtain ⟨marker, hmarker, hbegins, rfl⟩ := h
  obtain ⟨hchars, hhead, hlast⟩ := actionMarkers_chars marker hmarker
  obtain ⟨rest, hrest⟩ := List.isPrefixOf_iff_prefix.mp hbegins
  have hpos : 0 < marker.toList.length := by
    refine List.length_pos_iff.mpr fun hnil => ?_
    rw [hnil] at hhead
    cases hhead
  have hlength := congrArg List.length hrest
  rw [List.length_append, List.length_drop] at hlength
  have hget : ∀ k, k < marker.toList.length → core[x + k]? = marker.toList[k]? := by
    intro k hk
    rw [← List.getElem?_drop, ← hrest, List.getElem?_append_left hk]
  refine ⟨by omega, by omega, ?_, ?_, fun k hxk hky c hc => ?_⟩
  · rw [← Nat.add_zero x, hget 0 hpos, ← List.head?_eq_getElem?]
    exact hhead
  · rw [Nat.add_sub_assoc hpos, hget _ (by omega), ← List.getLast?_eq_getElem?]
    exact hlast
  · obtain ⟨n, rfl⟩ := Nat.exists_eq_add_of_le hxk
    rw [hget n (by omega)] at hc
    exact hchars c (List.mem_of_getElem? hc)

theorem drop_piece (core : List Char) (s e k : Nat) :
    (piece core (s, e)).drop k = (core.drop (s + k)).take (e - (s + k)) := by
  rw [piece, List.drop_drop, List.drop_take]

theorem containsAction_piece {core : List Char} {s e : Nat} :
    containsAction (piece core (s, e)) = true ↔ ∃ x y, ActionAt core x y ∧ s ≤ x ∧ y ≤ e := by
  unfold containsAction
  simp only [List.any_eq_true, List.mem_tails]
  constructor
  · rintro ⟨marker, hmarker, t, ht, hbegins⟩
    rw [List.suffix_iff_eq_drop.mp ht, drop_piece, List.isPrefixOf_iff_prefix, List.prefix_take_iff]
      at hbegins
    obtain ⟨hbegins, hlength⟩ := hbegins
    have haction := List.isPrefixOf_iff_prefix.mpr hbegins
    obtain ⟨hlt, -⟩ := ActionAt.spec ⟨marker, hmarker, haction, rfl⟩
    exact ⟨_, _, ⟨marker, hmarker, haction, rfl⟩, Nat.le_add_right _ _, by omega⟩
  · rintro ⟨x, y, ⟨marker, hmarker, hbegins, rfl⟩, hs, he⟩
    obtain ⟨k, rfl⟩ := Nat.exists_eq_add_of_le hs
    refine ⟨marker, hmarker, (piece core (s, e)).drop k, List.drop_suffix _ _, ?_⟩
    rw [drop_piece, List.isPrefixOf_iff_prefix, List.prefix_take_iff]
    exact ⟨List.isPrefixOf_iff_prefix.mp hbegins, by omega⟩

theorem ActionAt.apart {core : List Char} {stop x y : Nat} {m : Nat × Nat} (h : ActionAt core x y)
    (hsoft : softBreakAt (core.take stop) m.1 = some m.2) (hy : y ≤ stop) : y ≤ m.1 ∨ m.2 ≤ x := by
  obtain ⟨hlt, -, hfirst, hlast, hchars⟩ := h.spec
  by_contra hoverlap
  obtain ⟨hbegin, hend⟩ : m.1 < y ∧ x < m.2 := by omega
  have hget : ∀ {k}, k < y → (core.take stop)[k]? = core[k]? := fun hk =>
    List.getElem?_take_of_lt (hk.trans_le hy)
  have hsolid : ∀ {k}, k < y → core[k]?.any isSolid = true →
      (core.take stop)[k]?.any isSeparatorChar = true → False := by
    intro k hk hsolid hsep
    rw [hget hk] at hsep
    cases hc : core[k]? with
    | none =>
      rw [hc] at hsep
      cases hsep
    | some c =>
      rw [hc] at hsolid hsep
      have hnot : isSeparatorChar c = false := by simpa using (Bool.and_eq_true_iff.mp hsolid).2
      exact absurd (hnot.symm.trans hsep) (by decide)
  rcases le_or_gt m.1 x with hle | hgt
  · exact hsolid hlt hfirst (softBreakAt_chars hsoft hle hend)
  · rcases softBreakAt_cases hsoft with ⟨-, hand, -⟩ | ⟨c, hc, hsign, -⟩
    · rcases lt_or_ge (runEnd isSpace (core.take stop) m.1) y with hwithin | hbehind
      · rw [hget hwithin] at hand
        have hfrom := le_runEnd isSpace (core.take stop) m.1
        exact (hchars _ (by omega) hwithin _ hand).2.2 rfl
      · have hblank : (core.take stop)[y - 1]?.any isSpace = true :=
          any_of_lt_runEnd (show m.1 ≤ y - 1 by omega) (by omega)
        exact hsolid (by omega) hlast (any_mono hblank fun _ => isSeparatorChar_of_isSpace)
    · rw [hget hbegin] at hc
      obtain ⟨hdot, hcomma, -⟩ := hchars _ hgt.le hbegin _ hc
      exact hsign.elim hdot hcomma

/-- Within a range, an action stands before a place with no soft break between, and an action stands
behind it. -/
def ActsAround (core : List Char) (start stop k : Nat) : Prop :=
  (∃ x y, ActionAt core x y ∧ start ≤ x ∧ y ≤ k ∧
    ∀ place, y ≤ place → place < k → softBreakAt (core.take stop) place = none) ∧
  ∃ x y, ActionAt core x y ∧ k < x ∧ y ≤ stop

section Cuts

variable {core : List Char} {stop cursor : Nat} {m m' : Nat × Nat}

theorem resume_softBreak (h : m ∈ softBreaks core cursor stop) : resume m = m.2 :=
  max_eq_left (mem_softBreaks h).2.1

theorem containsAction_of_actsAround (hm : m ∈ softBreaks core cursor stop)
    (h : ActsAround core cursor stop m.1) : (containsAction (piece core (cursor, m.1)) &&
      containsAction (piece core (m.2, stop))) = true := by
  obtain ⟨⟨x, y, hbefore, hx, hy, -⟩, x', y', hbehind, hx', hy'⟩ := h
  obtain ⟨-, -, -, hsoft⟩ := mem_softBreaks hm
  rw [Bool.and_eq_true, containsAction_piece, containsAction_piece]
  refine ⟨⟨x, y, hbefore, hx, hy⟩, x', y', hbehind, ?_, hy'⟩
  have hlt := hbehind.spec.1
  exact (hbehind.apart hsoft hy').resolve_left (by omega)

theorem cut_iff_actsAround : Cut core stop cursor m ↔
    m ∈ softBreaks core cursor stop ∧ ActsAround core cursor stop m.1 := by
  induction hn : stop - cursor using Nat.strong_induction_on generalizing cursor with
  | h n ih =>
    cases hchosen : chosenBreak core cursor stop with
    | none =>
      refine iff_of_false (not_cut hchosen) ?_
      rintro ⟨hm, hacts⟩
      exact List.find?_eq_none.mp hchosen m hm (containsAction_of_actsAround hm hacts)
    | some first =>
      obtain ⟨hboth, earlier, later, hsplit, hearlier⟩ := List.find?_eq_some_iff_append.mp hchosen
      have hmem : ∀ {n}, n ∈ earlier ++ first :: later → n ∈ softBreaks core cursor stop :=
        fun hn => hsplit ▸ hn
      have hfirst : first ∈ softBreaks core cursor stop := mem_softBreaks_of_chosenBreak hchosen
      obtain ⟨hbegin, hends, hstop, hsoft⟩ := mem_softBreaks hfirst
      have hlater : later = softBreaks core first.2 stop := by
        rw [← resume_softBreak hfirst]
        exact finditer_split hsplit
      have hordered := pairwise_finditer (softBreakAt (core.take stop)) cursor stop
      rw [show finditer (softBreakAt (core.take stop)) cursor stop = _ from hsplit,
        List.pairwise_append] at hordered
      obtain ⟨-, hbehind, hbefore⟩ := hordered
      have hnext := (List.pairwise_cons.mp hbehind).1
      rw [Bool.and_eq_true, containsAction_piece, containsAction_piece] at hboth
      obtain ⟨⟨x, y, haction, hx, hy⟩, x', y', haction', hx', hy'⟩ := hboth
      rw [cut_iff hchosen, ih _ (by omega) rfl, ← hlater]
      constructor
      · rintro (rfl | ⟨hm, ⟨z, w, hacts, hz, hrest⟩, hacts'⟩)
        · refine ⟨hfirst, ⟨x, y, haction, hx, hy, fun place hplace hlt => ?_⟩, x', y', haction',
            hends.trans_le hx', hy'⟩
          -- a soft break between the action and the chosen one would have been chosen before
          by_contra hsome
          have hxy := haction.spec.1
          obtain ⟨n, hn, hfrom, hwithin⟩ := exists_match (show cursor ≤ place by omega)
            (show place ≤ stop by omega) hsome
          have hn : n ∈ softBreaks core cursor stop := hn
          rw [resume_softBreak hn] at hwithin
          have hin := hn
          rw [hsplit] at hin
          rcases List.mem_append.mp hin with hin | hin
          · have hbefore := hbefore n hin m List.mem_cons_self
            rw [resume_softBreak hn] at hbefore
            have hnot := hearlier n hin
            rw [Bool.not_eq_true', Bool.and_eq_false_iff, ← Bool.not_eq_true, ← Bool.not_eq_true,
              containsAction_piece, containsAction_piece] at hnot
            rcases hnot with hnot | hnot
            · refine hnot ⟨x, y, haction, hx, ?_⟩
              exact (haction.apart (mem_softBreaks hn).2.2.2 (by omega)).resolve_right (by omega)
            · exact hnot ⟨x', y', haction', by omega, hy'⟩
          · rcases List.mem_cons.mp hin with rfl | hin
            · omega
            · have hbehind := hnext n hin
              rw [resume_softBreak hfirst] at hbehind
              omega
        · exact ⟨hmem (List.mem_append_right _ (List.mem_cons_of_mem _ hm)),
            ⟨z, w, hacts, by omega, hrest⟩, hacts'⟩
      · rintro ⟨hm, hacts⟩
        have hin := hm
        rw [hsplit] at hin
        rcases List.mem_append.mp hin with hin | hin
        · have hnot := hearlier m hin
          rw [containsAction_of_actsAround hm hacts] at hnot
          cases hnot
        · rcases List.mem_cons.mp hin with rfl | hin
          · exact .inl rfl
          · obtain ⟨⟨z, w, hact, hz, hw, hnone⟩, hrest⟩ := hacts
            refine .inr ⟨hin, ⟨z, w, hact, ?_, hw, hnone⟩, hrest⟩
            have hbehind := hnext m hin
            rw [resume_softBreak hfirst] at hbehind
            have hlt : first.1 < w := by
              by_contra hge
              rw [hnone first.1 (not_lt.mp hge) (by omega)] at hsoft
              cases hsoft
            have hmstop := (mem_softBreaks hm).2.2.1
            have hmlt := (mem_softBreaks hm).2.1
            exact (hact.apart hsoft (by omega)).resolve_left (by omega)

end Cuts

end Dayjaview.Ontology
