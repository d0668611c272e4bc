import Dayjaview.Ontology.ClauseCuts
import Dayjaview.Ontology.MoneyPatterns

/-!
# Boundaries of clauses within amounts of money

A boundary lies within an amount of money exactly if a line break does that has something behind it
within the amount, or a comma that is a soft break and has actions around it.
-/

namespace Dayjaview.Ontology

open Scanning

/-- A place between two clauses of a cause that follow each other. -/
def Boundary (rawText : String) (place : Nat) : Prop :=
  ∃ earlier c d later, splitEventClauses rawText = earlier ++ c :: d :: later ∧
    c.stop ≤ place ∧ place ≤ d.start

variable {c : Char}

theorem isDecimal_of_isDigit (h : c.isDigit = true) : isDecimal c = true := by
  unfold isDecimal decimalValue
  rw [if_pos h]
  rfl

theorem isSolid_of_isDecimal (h : isDecimal c = true) : isSolid c = true := by
  have hspace := isSpace_of_isDecimal h
  have hne : ∀ d, isDecimal d = false → c ≠ d := by
    rintro _ hd rfl
    rw [h] at hd
    cases hd
  have hsigns : ∀ d ∈ [',', '·', ':', '：', '-', ';', '；', '및'], c ≠ d := fun d hd =>
    hne d (by revert d; decide)
  simp only [List.forall_mem_cons] at hsigns
  obtain ⟨h₁, h₂, h₃, h₄, h₅, h₆, h₇, h₈, -⟩ := hsigns
  simp [isSolid, isEdge, isSeparatorChar, hspace, h₁, h₂, h₃, h₄, h₅, h₆, h₇, h₈]

theorem isSolid_of_endsMoney (h : endsMoney c = true) : isSolid c = true := by
  have hall : ∀ d ∈ ['원', '러', '로', '엔', '대'], isSolid d = true := by decide
  exact hall c (List.elem_iff.mp h)

theorem isSolid_of_isMoneyChar (h : isMoneyChar c = true) (hedge : isEdge c = false) :
    isSolid c = true := by
  rw [isSolid, hedge, Bool.not_false, Bool.true_and, Bool.not_eq_true']
  by_contra hsep
  rw [Bool.not_eq_false, isSeparatorChar, Bool.or_eq_true] at hsep
  rcases hsep with hspace | hsign
  · rw [isEdge, hspace] at hedge
    cases hedge
  · have hall : ∀ d ∈ [';', '；', ',', '·', '및'], isMoneyChar d = true → isEdge d = true := by decide
    rw [hall c (List.elem_iff.mp hsign) h] at hedge
    cases hedge

section Clauses

variable {core : List Char}

/-- The clauses of the pieces of a reason. -/
def pieceClauses (core : List Char) : List ClauseSpan := clausesOf core 0 (rawRanges core)

theorem splitEventClauses_of_ne_nil {rawText : String} (h : pieceClauses (coreOf rawText) ≠ []) :
    splitEventClauses rawText = pieceClauses (coreOf rawText) := by
  unfold splitEventClauses
  dsimp only
  split
  · next hnil => exact absurd hnil h
  · rfl

theorem any_and_not {p q : Char → Bool} {o : Option Char} (h : o.any p = true) (h' : o.any q = true)
    (hnot : ∀ c, p c = true → q c = false) : False := by
  cases o with
  | none => cases h
  | some c => exact absurd ((hnot c h).symm.trans h') (by decide)

theorem lt_of_any {p : Char → Bool} {place : Nat} (h : core[place]?.any p = true) :
    place < core.length := by
  by_contra hge
  rw [List.getElem?_eq_none (not_lt.mp hge)] at h
  cases h

theorem isEdge_of_isSolid {c : Char} (h : isSolid c = true) : isEdge c = false := by
  simpa using (Bool.and_eq_true_iff.mp h).1

theorem isSeparatorChar_of_isSolid {c : Char} (h : isSolid c = true) :
    isSeparatorChar c = false := by
  simpa using (Bool.and_eq_true_iff.mp h).2

theorem clause_of_isSolid {place : Nat} (h : core[place]?.any isSolid = true) :
    ∃ c ∈ pieceClauses core, c.start ≤ place ∧ place < c.stop := by
  have htiles := tiles_rawRanges core
  have hnot : core[place]?.any isEdge = true → False := fun hedge =>
    any_and_not h hedge fun _ => isEdge_of_isSolid
  rcases htiles.covered place (Nat.zero_le _) (lt_of_any h) with ⟨r, hr, hstart, hstop⟩ |
      ⟨m, hm, hfrom, hto⟩
  · rcases clause_of_mem_ranges (rawRanges_le core) 0 hr with hnil | ⟨c, hc, hof⟩
    · exact (hnot (edges_of_trimEdges_nil (rawRanges_le core r hr).2 hnil place hstart hstop)).elim
    · refine ⟨c, hc, ?_, ?_⟩
      · by_contra hlt
        exact hnot (hof.before place hstart (not_le.mp hlt))
      · by_contra hge
        exact hnot (hof.after place (not_lt.mp hge) hstop)
  · exact (any_and_not h (hm.separator.chars hfrom hto) fun _ => isSeparatorChar_of_isSolid).elim

theorem pairwise_pieceClauses (core : List Char) :
    (pieceClauses core).Pairwise fun c d => c.stop ≤ d.start :=
  (pairwise_clausesOf (rawRanges_le core) (tiles_rawRanges core).ordered 0).imp
    fun ⟨_, _, _, _, hc, hd, hle⟩ => hc.stop_le.trans (hle.trans hd.start_le)

variable {c : ClauseSpan}

theorem clause_apart (h : c ∈ pieceClauses core) {m : Nat × Nat} (hm : Break core m) :
    c.stop ≤ m.1 ∨ m.2 ≤ c.start := by
  obtain ⟨r, hr, hof⟩ := of_mem_clausesOf (rawRanges_le core) h
  exact ((tiles_rawRanges core).apart r hr m hm).imp hof.stop_le.trans fun hle =>
    hle.trans hof.start_le

theorem exists_break {earlier later : List ClauseSpan} {d : ClauseSpan}
    (h : pieceClauses core = earlier ++ c :: d :: later) :
    ∃ m, Break core m ∧ c.stop ≤ m.1 ∧ m.2 ≤ d.start := by
  have htiles := tiles_rawRanges core
  have hordered := pairwise_clausesOf (rawRanges_le core) htiles.ordered 0
  rw [show clausesOf core 0 (rawRanges core) = _ from h, List.pairwise_append] at hordered
  obtain ⟨r, hr, s, hs, hc, hd, hle⟩ :=
    (List.pairwise_cons.mp hordered.2.1).1 d List.mem_cons_self
  have hstart := hd.start_le
  have hstop := hd.stop_le
  have hne := d.nonempty
  have hend := (htiles.within s hs).2.2
  rcases htiles.right r hr with hlast | ⟨m, hm, hbegin⟩
  · omega
  · have hafter := hc.stop_le
    have hapart := htiles.apart s hs m hm
    exact ⟨m, hm, by omega, by omega⟩

theorem not_isSolid_between {earlier later : List ClauseSpan} {d : ClauseSpan}
    (h : pieceClauses core = earlier ++ c :: d :: later) {k : Nat} (hfrom : c.stop ≤ k)
    (hto : k < d.start) :
    core[k]?.any isSolid = false := by
  by_contra hsolid
  obtain ⟨e, he, hstart, hstop⟩ := clause_of_isSolid (Bool.not_eq_false _ ▸ hsolid)
  have hordered := pairwise_pieceClauses core
  have hc := c.nonempty
  have hd := d.nonempty
  rw [h] at he hordered
  obtain ⟨-, hbehind, hbefore⟩ := List.pairwise_append.mp hordered
  have hnext := (List.pairwise_cons.mp (List.pairwise_cons.mp hbehind).2).1
  rcases List.mem_append.mp he with he | he
  · have hle := hbefore e he c List.mem_cons_self
    omega
  · rcases List.mem_cons.mp he with rfl | he
    · omega
    · rcases List.mem_cons.mp he with rfl | he
      · omega
      · have hle := hnext e he
        omega

/-- A place that lies in no clause lies between two that follow each other, if there are clauses
before and behind it. -/
theorem exists_between {clauses : List ClauseSpan} {place : Nat}
    (hordered : clauses.Pairwise fun c d => c.stop ≤ d.start)
    (hapart : ∀ e ∈ clauses, e.stop ≤ place ∨ place ≤ e.start) {d : ClauseSpan} (hc : c ∈ clauses)
    (hd : d ∈ clauses) (hbefore : c.stop ≤ place) (hbehind : place ≤ d.start) :
    ∃ earlier c d later, clauses = earlier ++ c :: d :: later ∧ c.stop ≤ place ∧
    place ≤ d.start := by
  induction hordered generalizing c with
  | nil => cases hc
  | @cons first clauses hfirst hordered ih =>
    have hcne := c.nonempty
    have hdne := d.nonempty
    have hfirstBefore : first.stop ≤ place := by
      rcases List.mem_cons.mp hc with rfl | hin
      · exact hbefore
      · have hle := hfirst c hin
        omega
    have hin : d ∈ clauses := by
      rcases List.mem_cons.mp hd with rfl | hin
      · omega
      · exact hin
    have hrest := fun e he => hapart e (List.mem_cons_of_mem _ he)
    cases clauses with
    | nil => cases hin
    | cons second clauses =>
      rcases hrest second List.mem_cons_self with hsecond | hsecond
      · obtain ⟨earlier, c, d, later, hsplit, hplace⟩ := ih hrest List.mem_cons_self hin hsecond
        exact ⟨first :: earlier, c, d, later, congrArg (first :: ·) hsplit, hplace⟩
      · exact ⟨[], first, second, clauses, rfl, hfirstBefore, hsecond⟩

end Clauses

section Boundaries

variable {rawText : String} {a b : Nat}

theorem pieceClauses_of_boundary {place : Nat} (h : Boundary rawText place) :
    ∃ earlier c d later, pieceClauses (coreOf rawText) = earlier ++ c :: d :: later ∧
      c.stop ≤ place ∧ place ≤ d.start := by
  obtain ⟨earlier, c, d, later, hsplit, hplace⟩ := h
  have hne : pieceClauses (coreOf rawText) ≠ [] := by
    intro hnil
    have hlength := congrArg List.length hsplit
    unfold splitEventClauses at hlength
    dsimp only at hlength
    rw [show clausesOf (coreOf rawText) 0 (rawRanges (coreOf rawText)) = [] from hnil] at hlength
    dsimp only at hlength
    rw [List.length_append, List.length_cons, List.length_cons] at hlength
    split at hlength
    · rw [List.length_nil] at hlength
      omega
    · rw [List.length_singleton] at hlength
      omega
  exact ⟨earlier, c, d, later, (splitEventClauses_of_ne_nil hne).symm.trans hsplit, hplace⟩

theorem getElem?_coreOf {k : Nat} (h : k < (coreOf rawText).length) :
    (coreOf rawText)[k]? = rawText.toList[k]? := by
  rw [length_coreOf] at h
  rw [coreOf, List.getElem?_take_of_lt h]

theorem boundary_within_iff (h : MoneySpan rawText.toList a b) :
    (∃ place, Boundary rawText place ∧ a < place ∧ place < b) ↔
      ∃ m, Break (coreOf rawText) m ∧ a < m.1 ∧ m.1 < b ∧ ∃ d ∈ pieceClauses (coreOf rawText), m.2 ≤
      d.start := by
  obtain ⟨hlt, -, hfirst, hlast, -, -⟩ := h.spec
  have htiles := tiles_rawRanges (coreOf rawText)
  have hsolidFirst := any_mono hfirst fun _ => isSolid_of_isDecimal
  have hsolidLast := any_mono hlast fun _ => isSolid_of_endsMoney
  constructor
  · rintro ⟨place, hboundary, hfrom, hto⟩
    obtain ⟨earlier, c, d, later, hsplit, hstop, hstart⟩ := pieceClauses_of_boundary hboundary
    obtain ⟨m, hm, hcm, hmd⟩ := exists_break hsplit
    have hmlt := (htiles.gaps m hm).2.1
    have hd : d ∈ pieceClauses (coreOf rawText) := by rw [hsplit]; simp
    obtain ⟨r, hr, hof⟩ := of_mem_clausesOf (rawRanges_le _) hd
    have hlength := hof.stop_le.trans (rawRanges_le _ r hr).2
    have hne := d.nonempty
    have hnone : ∀ k, c.stop ≤ k → k < d.start → rawText.toList[k]?.any isSolid = true → False := by
      intro k hfrom hto hsolid
      have hnot := not_isSolid_between hsplit hfrom hto
      rw [getElem?_coreOf (by omega), hsolid] at hnot
      cases hnot
    refine ⟨m, hm, ?_, ?_, d, hd, hmd⟩
    · by_contra hle
      exact hnone a (by omega) (by omega) hsolidFirst
    · by_contra hle
      exact hnone (b - 1) (by omega) (by omega) hsolidLast
  · rintro ⟨m, hm, hfrom, hto, d, hd, hmd⟩
    obtain ⟨-, hmlt, hmle⟩ := htiles.gaps m hm
    have hinside : a < (coreOf rawText).length := by omega
    rw [← getElem?_coreOf hinside] at hsolidFirst
    obtain ⟨c, hc, hstart, hstop⟩ := clause_of_isSolid hsolidFirst
    have hcm := (clause_apart hc hm).resolve_right (by omega)
    obtain ⟨earlier, c, d, later, hsplit, hplace⟩ := exists_between (pairwise_pieceClauses _)
      (fun e he => (clause_apart he hm).imp_right hmlt.le.trans) hc hd hcm (hmlt.le.trans hmd)
    have hne : pieceClauses (coreOf rawText) ≠ [] := List.ne_nil_of_mem hc
    exact ⟨m.1, ⟨earlier, c, d, later, (splitEventClauses_of_ne_nil hne).trans hsplit, hplace⟩,
      hfrom, hto⟩

end Boundaries

theorem softBreakAt_comma {text : List Char} {k : Nat} (h : text[k]? = some ',') :
    softBreakAt text k = none ↔
    (previous text k).any joinsNumber = true ∧ text[k + 1]?.any Char.isDigit = true := by
  have hrun := le_runEnd isSpace text (k + 1)
  unfold softBreakAt
  rw [h]
  dsimp only
  rw [if_neg (by decide), if_neg (by decide), if_pos (by decide)]
  constructor
  · intro hnone
    split_ifs at hnone with hfree hblank
    have hstop : runEnd isSpace text (k + 1) = k + 1 := by omega
    rw [hstop] at hfree
    simpa using hfree
  · rintro ⟨hjoins, hdigit⟩
    have hstop : runEnd isSpace text (k + 1) = k + 1 := by
      by_contra hne
      have hblank : text[k + 1]?.any isSpace = true := any_of_lt_runEnd le_rfl (by omega)
      exact any_and_not hdigit hblank fun _ => isSpace_of_isDigit
    rw [hstop, hjoins, hdigit]
    simp

/-- How an amount is cut at a place: by a line break with something behind it within the amount, or
by a comma with actions around it that does not stand directly between a number and a digit. -/
def CutsMoney (core : List Char) (b k : Nat) : Prop :=
  (core[k]? = some '\n' ∧ ∃ p, k < p ∧ p < b ∧ core[p]?.any (fun c => !isEdge c) = true) ∨
  (core[k]? = some ',' ∧
    ¬((previous core k).any joinsNumber = true ∧ core[k + 1]?.any Char.isDigit = true) ∧
    ∃ range ∈ hardRanges core, ActsAround core range.1 range.2 k)

section Cuts

variable {rawText : String} {a b : Nat}

theorem line_of_hardBreakAt (h : MoneySpan rawText.toList a b) {place e : Nat} (hfrom : a < place)
    (hto : place < b) (hbreak : hardBreakAt (coreOf rawText) place = some e) :
    (coreOf rawText)[place]? = some '\n' := by
  obtain ⟨-, -, -, -, hchars, hpoints⟩ := h.spec
  have hlength : place < (coreOf rawText).length := by
    have hbounds := hardBreakAt_bounds hbreak
    omega
  have hchar := hchars place hfrom.le hto
  have hprevious := hchars (place - 1) (by omega) (by omega)
  have hpoint := hpoints (place - 1) (by omega) (by omega)
  rw [Nat.sub_add_cancel (by omega)] at hpoint
  rw [← getElem?_coreOf hlength] at hchar hpoint
  rw [← getElem?_coreOf (by omega)] at hprevious hpoint
  unfold hardBreakAt at hbreak
  split at hbreak
  · cases hbreak
  · next c hc =>
    rw [hc] at hchar hpoint ⊢
    have hchar : isMoneyChar c = true := hchar
    split_ifs at hbreak with hsemicolon hline hsentence hnews
    · exfalso
      rcases Bool.or_eq_true_iff.mp hsemicolon with h | h <;>
      · obtain rfl := eq_of_beq h
        revert hchar
        decide
    · rw [eq_of_beq hline]
    · -- the sentence would end with a point, and a digit follows that
      exfalso
      obtain ⟨hspace, hends⟩ := Bool.and_eq_true_iff.mp hsentence
      rw [previous, if_neg (by omega)] at hends
      cases hlast : (coreOf rawText)[place - 1]? with
      | none =>
        rw [hlast] at hends
        cases hends
      | some d =>
        rw [hlast] at hends hprevious hpoint
        have hpointChar : d = '.' := by
          have hprevious : isMoneyChar d = true := hprevious
          have hends : isSentenceEnd d = true := hends
          simp only [isSentenceEnd, Bool.or_eq_true, beq_iff_eq] at hends
          rcases hends with ((rfl | rfl) | rfl) | rfl
          · rfl
          all_goals
            revert hprevious
            decide
        rw [hpointChar] at hpoint
        have hdigit : isDecimal c = true := hpoint rfl
        rw [isSpace_of_isDecimal hdigit] at hspace
        cases hspace
    · -- no amount has the word before the comma
      exfalso
      simp only [Bool.and_eq_true] at hnews
      obtain ⟨rest, hrest⟩ := List.isSuffixOf_iff_suffix.mp hnews.1.2
      have hword : (coreOf rawText)[place - 1]? = some '식' := by
        have hsuffix := congrArg List.length hrest
        rw [List.length_append, List.length_take, min_eq_left hlength.le] at hsuffix
        have htwo : "소식".toList.length = 2 := rfl
        have hget := congrArg (fun l => l[place - 1]?) hrest
        rw [List.getElem?_take_of_lt (by omega), List.getElem?_append_right (by omega)] at hget
        rw [← hget]
        have hone : place - 1 - rest.length = 1 := by omega
        rw [hone]
        rfl
      rw [hword] at hprevious
      revert hprevious
      decide

theorem comma_of_softBreakAt (h : MoneySpan rawText.toList a b) {stop place e : Nat}
    (hfrom : a < place)
    (hto : place < b) (hbreak : softBreakAt ((coreOf rawText).take stop) place = some e) :
    ((coreOf rawText).take stop)[place]? = some ',' := by
  obtain ⟨-, -, -, hlast, hchars, -⟩ := h.spec
  have hget : ∀ {k : Nat} {c : Char}, ((coreOf rawText).take stop)[k]? = some c →
      rawText.toList[k]? = some c := by
    intro k c hk
    have hlt := lt_of_getElem? hk
    rw [List.length_take] at hlt
    rw [← getElem?_coreOf (hlt.trans_le (min_le_right _ _))]
    rwa [List.getElem?_take_of_lt (hlt.trans_le (min_le_left _ _))] at hk
  have hmoney : ∀ {k : Nat} {c : Char}, a ≤ k → k < b → ((coreOf rawText).take stop)[k]? = some c →
      isMoneyChar c = true := by
    intro k c hfrom hto hk
    have hchar := hchars k hfrom hto
    rwa [hget hk] at hchar
  rcases softBreakAt_cases hbreak with ⟨-, hand, -⟩ | ⟨c, hc, hsign, -⟩
  · exfalso
    have hrun := le_runEnd isSpace ((coreOf rawText).take stop) place
    rcases lt_or_ge (runEnd isSpace ((coreOf rawText).take stop) place) b with hlt | hge
    · have hchar := hmoney (by omega) hlt hand
      revert hchar
      decide
    · have hblank : ((coreOf rawText).take stop)[b - 1]?.any isSpace = true :=
        any_of_lt_runEnd (show place ≤ b - 1 by omega) (by omega)
      cases hc : ((coreOf rawText).take stop)[b - 1]? with
      | none =>
        rw [hc] at hblank
        cases hblank
      | some c =>
        rw [hc] at hblank
        rw [hget hc] at hlast
        have hsep := isSeparatorChar_of_isSolid (isSolid_of_endsMoney hlast)
        rw [isSeparatorChar_of_isSpace hblank] at hsep
        cases hsep
  · rcases hsign with rfl | rfl
    · exfalso
      have hchar := hmoney hfrom.le hto hc
      revert hchar
      decide
    · exact hc

theorem previous_take {core : List Char} {stop k : Nat} (h : k < stop) :
    previous (core.take stop) k = previous core k := by
  unfold previous
  split
  · rfl
  · rw [List.getElem?_take_of_lt (by omega)]

theorem digit_take {core : List Char} {range : Nat × Nat} (hrange : range ∈ hardRanges core)
    {k : Nat}
    (h : k < range.2) :
    (core.take range.2)[k + 1]?.any Char.isDigit = core[k + 1]?.any Char.isDigit := by
  have htiles := tiles_hardRanges core
  rcases (Nat.succ_le_of_lt h).lt_or_eq with hlt | heq
  · rw [List.getElem?_take_of_lt hlt]
  · rw [List.getElem?_eq_none (by rw [List.length_take]; omega)]
    symm
    rcases htiles.right range hrange with hend | ⟨m, hm, hbegin⟩
    · rw [List.getElem?_eq_none (by omega)]
    · have hsep := hardBreakAt_chars (mem_hardBreaks hm) le_rfl (htiles.gaps m hm).2.1
      by_contra hne
      have hdigit : core[m.1]?.any Char.isDigit = true := by
        rw [hbegin, ← heq]
        simpa using hne
      exact any_and_not hdigit hsep fun c hc =>
        isSeparatorChar_of_isSolid (isSolid_of_isDecimal (isDecimal_of_isDigit hc))

theorem break_within_iff (h : MoneySpan rawText.toList a b) :
    (∃ m, Break (coreOf rawText) m ∧ a < m.1 ∧ m.1 < b ∧ ∃ d ∈ pieceClauses (coreOf rawText), m.2 ≤
      d.start) ↔ ∃ k, a < k ∧ k < b ∧ CutsMoney (coreOf rawText) b k := by
  obtain ⟨hlt, -, hfirst, hlast, hchars, -⟩ := h.spec
  have htiles := tiles_rawRanges (coreOf rawText)
  have hsolidFirst := any_mono hfirst fun _ => isSolid_of_isDecimal
  have hsolidLast := any_mono hlast fun _ => isSolid_of_endsMoney
  constructor
  · rintro ⟨m, hm, hfrom, hto, d, hd, hmd⟩
    have hmlt := (htiles.gaps m hm).2.1
    refine ⟨m.1, hfrom, hto, ?_⟩
    rcases hm with hhard | ⟨range, hrange, hcut⟩
    · have hline := line_of_hardBreakAt h hfrom hto (mem_hardBreaks hhard)
      obtain ⟨r, hr, hof⟩ := of_mem_clausesOf (rawRanges_le _) hd
      have hlength := hof.stop_le.trans (rawRanges_le _ r hr).2
      have hne := d.nonempty
      refine .inl ⟨hline, ?_⟩
      rcases lt_or_ge d.start b with hwithin | hbehind
      · refine ⟨d.start, by omega, hwithin, ?_⟩
        have hedge := hof.first
        rw [List.getElem?_eq_getElem (by omega)] at hedge ⊢
        show (!isEdge _) = true
        rw [show isEdge _ = false from hedge]
        rfl
      · have hbehindLine : m.1 ≠ b - 1 := by
          intro heq
          rw [← heq, ← getElem?_coreOf (by omega), hline] at hsolidLast
          revert hsolidLast
          decide
        rw [← getElem?_coreOf (by omega)] at hsolidLast
        exact ⟨b - 1, by omega, by omega, any_mono hsolidLast fun _ hc => by
          rw [isEdge_of_isSolid hc]; rfl⟩
    · obtain ⟨hsoft, hacts⟩ := cut_iff_actsAround.mp hcut
      obtain ⟨-, hends, hstop, hfits⟩ := mem_softBreaks hsoft
      have hcomma := comma_of_softBreakAt h hfrom hto hfits
      have hnone := (softBreakAt_comma hcomma).not.mp (by rw [hfits]; nofun)
      rw [previous_take (by omega), digit_take hrange (by omega)] at hnone
      rw [List.getElem?_take_of_lt (by omega)] at hcomma
      exact .inr ⟨hcomma, hnone, range, hrange, hacts⟩
  · rintro ⟨k, hfrom, hto, ⟨hline, p, hp, hpto, hpedge⟩ | ⟨hcomma, hnone, range, hrange, hacts⟩⟩
    · have hfits : hardBreakAt (coreOf rawText) k ≠ none := by
        unfold hardBreakAt
        rw [hline]
        simp
      have hlength := lt_of_getElem? hline
      obtain ⟨m, hm, hmk, hkm⟩ := exists_match (Nat.zero_le k) hlength.le hfits
      have hm : m ∈ hardBreaks (coreOf rawText) := hm
      obtain ⟨-, hmlt, -⟩ := htiles.gaps m (.inl hm)
      have hresume : resume m = m.2 := max_eq_left hmlt
      rw [hresume] at hkm
      refine ⟨m, .inl hm, ?_, by omega, ?_⟩
      · by_contra hle
        rw [← getElem?_coreOf (by omega)] at hsolidFirst
        exact any_and_not hsolidFirst
          (hardBreakAt_chars (mem_hardBreaks hm) (not_lt.mp hle) (by omega))
          fun _ => isSeparatorChar_of_isSolid
      · have hplength := lt_of_any hpedge
        have hpsolid : (coreOf rawText)[p]?.any isSolid = true := by
          have hpchar := hchars p (by omega) hpto
          rw [← getElem?_coreOf hplength] at hpchar
          cases hc : (coreOf rawText)[p]? with
          | none =>
            rw [hc] at hpchar
            cases hpchar
          | some c =>
            rw [hc] at hpchar hpedge
            exact isSolid_of_isMoneyChar hpchar (by simpa using hpedge)
        obtain ⟨d, hd, hstart, hstop⟩ := clause_of_isSolid hpsolid
        exact ⟨d, hd, (clause_apart hd (.inl hm)).resolve_left (by omega)⟩
    · obtain ⟨⟨x, y, haction, hx, hy, hclear⟩, x', y', haction', hx', hy'⟩ := hacts
      have hxy := haction.spec.1
      have hxy' := haction'.spec.1
      have hk : ((coreOf rawText).take range.2)[k]? = some ',' := by
        rw [List.getElem?_take_of_lt (by omega), hcomma]
      have hfits : softBreakAt ((coreOf rawText).take range.2) k ≠ none := by
        rw [Ne, softBreakAt_comma hk, previous_take (by omega), digit_take hrange (by omega)]
        exact hnone
      obtain ⟨m, hm, hmk, hkm⟩ := exists_match (show range.1 ≤ k by omega)
        (show k ≤ range.2 by omega) hfits
      have hm : m ∈ softBreaks (coreOf rawText) range.1 range.2 := hm
      obtain ⟨-, -, -, hsoft⟩ := mem_softBreaks hm
      rw [resume_softBreak hm] at hkm
      have heq : m.1 = k := by
        -- an earlier break would stand between the action and the comma
        by_contra hne
        have hbefore := hclear m.1
        have hapart := haction.apart hsoft (by omega)
        have hle : m.1 < y := by
          by_contra hge
          rw [hbefore (not_lt.mp hge) (by omega)] at hsoft
          cases hsoft
        omega
      have hcut : Cut (coreOf rawText) range.2 range.1 m :=
        cut_iff_actsAround.mpr
        ⟨hm, heq ▸ ⟨⟨x, y, haction, hx, hy, hclear⟩, x', y', haction', hx', hy'⟩⟩
      obtain ⟨d, hd, hstart, hstop⟩ := clause_of_isSolid haction'.spec.2.2.1
      have hbreak : Break (coreOf rawText) m := .inr ⟨range, hrange, hcut⟩
      exact ⟨m, hbreak, by omega, by omega, d, hd, (clause_apart hd hbreak).resolve_left (by omega)⟩

end Cuts

/-- No boundary of clauses lies within an amount of money exactly if no amount is cut by a line
break or by a comma that does not join digits. -/
theorem clauses_keep_money_iff (rawText : String) :
    (∀ place, Boundary rawText place → ∀ a b, MoneySpan rawText.toList a b →
      ¬(a < place ∧ place < b)) ↔
      ∀ a b, MoneySpan rawText.toList a b → ∀ k, a < k → k < b →
      ¬CutsMoney (coreOf rawText) b k := by
  constructor
  · intro hkeeps a b hmoney k hfrom hto hcuts
    obtain ⟨place, hboundary, hplace⟩ :=
      (boundary_within_iff hmoney).mpr ((break_within_iff hmoney).mpr ⟨k, hfrom, hto, hcuts⟩)
    exact hkeeps place hboundary a b hmoney hplace
  · intro hnone place hboundary a b hmoney hplace
    obtain ⟨k, hfrom, hto, hcuts⟩ :=
      (break_within_iff hmoney).mp ((boundary_within_iff hmoney).mp ⟨place, hboundary, hplace⟩)
    exact hnone a b hmoney k hfrom hto hcuts

/-- The comma with a blank behind it between two units of one amount is a boundary. -/
theorem boundary_within_money : ¬∀ place, Boundary "A사 수주 1조, 2000억 달러 투자 등에 상승" place →
    ∀ a b, MoneySpan "A사 수주 1조, 2000억 달러 투자 등에 상승".toList a b → ¬(a < place ∧ place < b) := by
  intro hkeeps
  have hclauses :
      (splitEventClauses "A사 수주 1조, 2000억 달러 투자 등에 상승").map (fun c => (c.start, c.stop)) =
      [(0, 8), (10, 21)] := by
    decide +kernel
  obtain ⟨c, rest, hsplit, hc, hrest⟩ := List.map_eq_cons_iff.mp hclauses
  obtain ⟨d, rest', rfl, hd, hrest'⟩ := List.map_eq_cons_iff.mp hrest
  have hstop : c.stop = 8 := congrArg Prod.snd hc
  have hstart : d.start = 10 := congrArg Prod.fst hd
  have hmoney : MoneySpan "A사 수주 1조, 2000억 달러 투자 등에 상승".toList 6 18 :=
    ⟨COMPOUND_JO_FOREIGN_RE, .tail _ (.head _), 12, by decide +kernel, rfl⟩
  exact hkeeps 8 ⟨[], c, d, rest', hsplit, hstop.le, by omega⟩ 6 18 hmoney (by decide)

end Dayjaview.Ontology
