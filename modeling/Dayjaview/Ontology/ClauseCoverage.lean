import Dayjaview.Core.Tiling
import Dayjaview.Ontology.EventClauses
import Mathlib.Data.List.TakeWhile

/-!
# Nothing of a cause is lost

The pieces between the breaks make up the reason of a cause together with the breaks. Only
characters at the edges of a piece do not belong to its clause.
-/

namespace Dayjaview.Ontology

open Scanning

section Ends

variable {core text : List Char} {place e : Nat}

theorem le_runEnd (p : Char → Bool) (text : List Char) (place : Nat) :
    place ≤ runEnd p text place :=
  Nat.le_add_right _ _

theorem runEnd_le {p : Char → Bool} (h : place ≤ text.length) :
    runEnd p text place ≤ text.length := by
  have hlength := (List.takeWhile_prefix (l := text.drop place) p).length_le
  rw [List.length_drop] at hlength
  unfold runEnd
  omega

theorem lt_of_getElem? {c : Char} (h : text[place]? = some c) : place < text.length :=
  (List.getElem?_eq_some_iff.mp h).1

theorem hardBreakAt_bounds (h : hardBreakAt core place = some e) : place < e ∧ e ≤ core.length := by
  unfold hardBreakAt at h
  split at h
  · cases h
  · next c hc =>
    have hlt := lt_of_getElem? hc
    have hnext : runEnd isSpace core (place + 1) ≤ core.length := runEnd_le hlt
    have hafter := le_runEnd isSpace core (place + 1)
    have hrun : ∀ p : Char → Bool, p c = true →
        place < runEnd p core place ∧ runEnd p core place ≤ core.length := by
      intro p hp
      refine ⟨?_, runEnd_le hlt.le⟩
      have hdrop : core.drop place = c :: core.drop (place + 1) := by
        rw [List.drop_eq_getElem_cons hlt, (List.getElem?_eq_some_iff.mp hc).2]
      unfold runEnd
      rw [hdrop, List.takeWhile_cons_of_pos hp, List.length_cons]
      omega
    split_ifs at h with hsemicolon hline hsentence hnews
    · cases h
      exact ⟨hafter, hnext⟩
    · cases h
      exact hrun _ hline
    · cases h
      exact hrun _ (Bool.and_eq_true_iff.mp hsentence).1
    · cases h
      exact ⟨hafter, hnext⟩

theorem softBreakAt_le (h : softBreakAt text place = some e) : e ≤ text.length := by
  unfold softBreakAt at h
  split at h
  · cases h
  · next c hc =>
    have hnext : runEnd isSpace text (place + 1) ≤ text.length := runEnd_le (lt_of_getElem? hc)
    dsimp only at h
    split_ifs at h with hspace hand hdot hcomma hfree hblank
    · cases h
      simp only [Bool.and_eq_true, decide_eq_true_eq] at hand
      exact runEnd_le (lt_of_getElem? hand.1)
    · cases h
      exact hnext
    · cases h
      exact hnext
    · cases h
      omega

end Ends

/-- A match of a hard separator, or of a soft one within a range between these. -/
def Separator (core : List Char) (m : Nat × Nat) : Prop :=
  hardBreakAt core m.1 = some m.2 ∨ ∃ range ∈ hardRanges core, range.1 ≤ m.1 ∧ m.2 ≤ range.2 ∧
    softBreakAt (core.take range.2) m.1 = some m.2

/-- A soft break at which a range is cut. -/
inductive Cut (core : List Char) (stop : Nat) : Nat → Nat × Nat → Prop
  | here {cursor : Nat} {m : Nat × Nat} (h : chosenBreak core cursor stop = some m) :
      Cut core stop cursor m
  | later {cursor : Nat} {m n : Nat × Nat} (h : chosenBreak core cursor stop = some m)
      (hlater : Cut core stop m.2 n) : Cut core stop cursor n

/-- A break between two pieces. -/
def Break (core : List Char) (m : Nat × Nat) : Prop :=
  m ∈ hardBreaks core ∨ ∃ range ∈ hardRanges core, Cut core range.2 range.1 m

section Ranges

variable {core : List Char}

variable {m : Nat × Nat}

theorem cut_iff {stop cursor : Nat} {n : Nat × Nat} (h : chosenBreak core cursor stop = some m) :
    Cut core stop cursor n ↔ n = m ∨ Cut core stop m.2 n := by
  constructor
  · rintro (hhere | ⟨hfirst, hlater⟩)
    · exact .inl (Option.some.inj (hhere.symm.trans h))
    · obtain rfl := Option.some.inj (hfirst.symm.trans h)
      exact .inr hlater
  · rintro (rfl | hlater)
    · exact .here h
    · exact .later h hlater

theorem not_cut {stop cursor : Nat} (h : chosenBreak core cursor stop = none) :
    ¬Cut core stop cursor m := by
  rintro (hhere | ⟨hfirst, -⟩)
  · rw [h] at hhere
    cases hhere
  · rw [h] at hfirst
    cases hfirst

theorem tiles_pairs {ms : List (Nat × Nat)} {first last : Nat}
    (hms : ∀ m ∈ ms, m.1 < m.2 ∧ m.2 ≤ last)
    (hfirst : ∀ m ∈ ms, first ≤ m.1) (hle : first ≤ last)
    (hordered : ms.Pairwise fun m n => resume m ≤ n.1) :
    Tiles (· ∈ ms) first last (pairs (first :: ms.flatMap (fun m => [m.1, m.2]) ++ [last])) := by
  induction ms generalizing first with
  | nil => exact (Tiles.single hle).congr fun m => by simp
  | cons m ms ih =>
    obtain ⟨hm, hrest⟩ := List.pairwise_cons.mp hordered
    obtain ⟨hlt, hlast⟩ := hms m List.mem_cons_self
    have htail := ih (fun n hn => hms n (List.mem_cons_of_mem _ hn))
      (fun n hn => (le_max_left _ _).trans (hm n hn)) hlast hrest
    exact (htail.cons (hfirst m List.mem_cons_self) hlt hlast).congr fun n => List.mem_cons

theorem mem_hardBreaks (h : m ∈ hardBreaks core) : hardBreakAt core m.1 = some m.2 :=
  (mem_finditer h).2.2

theorem tiles_hardRanges (core : List Char) :
    Tiles (· ∈ hardBreaks core) 0 core.length (hardRanges core) :=
  tiles_pairs (fun _ hm => hardBreakAt_bounds (mem_hardBreaks hm)) (fun _ _ => Nat.zero_le _)
    (Nat.zero_le _) (pairwise_finditer _ _ _)

theorem mem_softBreaks {cursor stop : Nat} (h : m ∈ softBreaks core cursor stop) :
    cursor ≤ m.1 ∧ m.1 < m.2 ∧ m.2 ≤ stop ∧ softBreakAt (core.take stop) m.1 = some m.2 := by
  obtain ⟨hcursor, -, hfits⟩ := mem_finditer h
  have hend := softBreakAt_le hfits
  rw [List.length_take] at hend
  exact ⟨hcursor, lt_of_softBreakAt hfits, hend.trans (min_le_left _ _), hfits⟩

theorem mem_softBreaks_of_chosenBreak {cursor stop : Nat}
    (h : chosenBreak core cursor stop = some m) : m ∈ softBreaks core cursor stop :=
  List.mem_of_find?_eq_some h

theorem tiles_splitSoftRange (core : List Char) {stop cursor : Nat} (hle : cursor ≤ stop) :
    Tiles (Cut core stop cursor) cursor stop (splitSoftRange core stop cursor) := by
  induction hn : stop - cursor using Nat.strong_induction_on generalizing cursor with
  | h n ih =>
    rw [splitSoftRange]
    split
    · next hlt =>
      split
      · next hnone => exact (Tiles.single hle).congr fun m => iff_false_intro (not_cut hnone)
      · next m hm =>
        obtain ⟨hbegin, hends, hstop, -⟩ := mem_softBreaks (mem_softBreaks_of_chosenBreak hm)
        have htail := ih _ (by omega) hstop rfl
        exact (htail.cons hbegin hends hstop).congr fun n => cut_iff hm
    · next hge =>
      refine (Tiles.nil (not_lt.mp hge)).congr fun m => iff_false_intro fun hcut => ?_
      have hnone : chosenBreak core cursor stop = none := by
        rw [Option.eq_none_iff_forall_ne_some]
        intro m hm
        obtain ⟨hbegin, hends, hstop, -⟩ := mem_softBreaks (mem_softBreaks_of_chosenBreak hm)
        omega
      exact not_cut hnone hcut

theorem tiles_rawRanges (core : List Char) : Tiles (Break core) 0 core.length (rawRanges core) :=
  (tiles_hardRanges core).flatMap fun r hr =>
    tiles_splitSoftRange core ((tiles_hardRanges core).within r hr).2.1

theorem Break.separator (h : Break core m) : Separator core m := by
  rcases h with hm | ⟨range, hrange, hcut⟩
  · exact .inl (mem_hardBreaks hm)
  · refine .inr ⟨range, hrange, ?_⟩
    suffices hall : ∀ {cursor}, Cut core range.2 cursor m → range.1 ≤ cursor → range.1 ≤ m.1 ∧
        m.2 ≤ range.2 ∧ softBreakAt (core.take range.2) m.1 = some m.2 from hall hcut le_rfl
    intro cursor hcut hcursor
    induction hcut with
    | here h =>
      obtain ⟨hbegin, -, hstop, hfits⟩ := mem_softBreaks (mem_softBreaks_of_chosenBreak h)
      exact ⟨hcursor.trans hbegin, hstop, hfits⟩
    | later h _ ih =>
      obtain ⟨hbegin, hends, -, -⟩ := mem_softBreaks (mem_softBreaks_of_chosenBreak h)
      exact ih hcut (by omega)

end Ranges

section Edges

variable {text : List Char}

theorem trimEdges_append (text : List Char) : ∃ before after,
    text = before ++ (trimEdges text ++ after) ∧ before = text.takeWhile isEdge ∧
      (∀ c ∈ before, isEdge c = true) ∧ ∀ c ∈ after, isEdge c = true := by
  refine ⟨text.takeWhile isEdge, ((text.dropWhile isEdge).reverse.takeWhile isEdge).reverse,
    ?_, rfl, fun c hc => List.mem_takeWhile_imp hc, fun c hc => ?_⟩
  · rw [trimEdges, ← List.reverse_append, List.takeWhile_append_dropWhile, List.reverse_reverse,
      List.takeWhile_append_dropWhile]
  · exact List.mem_takeWhile_imp (List.mem_reverse.mp hc)

theorem head_trimEdges {c : Char} (h : (trimEdges text).head? = some c) : isEdge c = false := by
  obtain ⟨before, after, htext, hbefore, -, -⟩ := trimEdges_append text
  obtain ⟨rest, hrest⟩ := List.head?_eq_some_iff.mp h
  have hdrop : text.dropWhile isEdge = trimEdges text ++ after := by
    have hsplit := List.takeWhile_append_dropWhile (p := isEdge) (l := text)
    rw [← hbefore] at hsplit
    exact List.append_cancel_left (hsplit.trans htext)
  rw [hrest, List.cons_append] at hdrop
  have hhead := List.head?_dropWhile_not isEdge text
  rw [hdrop] at hhead
  simpa using hhead

theorem findText_trimEdges (h : trimEdges text ≠ []) :
    findText text (trimEdges text) = some (text.takeWhile isEdge).length := by
  obtain ⟨c, cs, hcs⟩ := List.exists_cons_of_ne_nil h
  have hedge : isEdge c = false := head_trimEdges (by rw [hcs]; rfl)
  obtain ⟨before, after, htext, hbefore, hedges, -⟩ := trimEdges_append text
  rw [← hbefore]
  unfold findText
  have hlength : before.length < text.length + 1 := by
    rw [htext, List.length_append]
    omega
  have hfound : (trimEdges text).isPrefixOf (text.drop before.length) = true := by
    rw [List.isPrefixOf_iff_prefix]
    refine ⟨after, ?_⟩
    nth_rewrite 2 [htext]
    rw [List.drop_left]
  have hnone : ∀ place < before.length, (trimEdges text).isPrefixOf (text.drop place) = false := by
    intro place hplace
    by_contra hbegins
    rw [Bool.not_eq_false, List.isPrefixOf_iff_prefix] at hbegins
    obtain ⟨rest, hrest⟩ := hbegins
    have hget : text[place]? = some c := by
      have hhead : (text.drop place)[0]? = some c := by
        rw [← hrest, hcs]
        rfl
      rwa [List.getElem?_drop, Nat.add_zero] at hhead
    rw [htext, List.getElem?_append_left hplace] at hget
    rw [hedges c (List.mem_of_getElem? hget)] at hedge
    cases hedge
  rw [List.find?_eq_some_iff_append]
  refine ⟨hfound, List.range before.length,
    (List.range (text.length - before.length)).map (fun k => before.length + 1 + k), ?_,
    fun place hplace => ?_⟩
  · have hsum : text.length + 1 = before.length + (1 + (text.length - before.length)) := by omega
    rw [hsum, List.range_add, List.range_add, List.map_append, List.map_map]
    simp [Nat.add_assoc, Function.comp_def]
  · rw [hnone place (List.mem_range.mp hplace)]
    rfl

end Edges

section Pieces

variable {core : List Char} {r : Nat × Nat}

theorem piece_eq (text : List Char) (m : Nat × Nat) :
    piece text m = (text.drop m.1).take (m.2 - m.1) :=
  List.drop_take ..

theorem length_piece (h : r.2 ≤ core.length) : (piece core r).length = r.2 - r.1 := by
  rw [piece_eq, List.length_take, List.length_drop]
  omega

theorem piece_of_append {before middle after : List Char}
    (h : piece core r = before ++ (middle ++ after)) (hle : r.1 ≤ r.2)
    (hlength : r.2 ≤ core.length) :
    piece core (r.1 + before.length, r.1 + before.length + middle.length) = middle := by
  have htotal := length_piece hlength
  rw [h, List.length_append, List.length_append] at htotal
  rw [piece_eq] at h ⊢
  have hmiddle : r.1 + before.length + middle.length - (r.1 + before.length) = middle.length :=
    by omega
  have htake : ((core.drop r.1).drop before.length).take middle.length =
      (((core.drop r.1).take (r.2 - r.1)).drop before.length).take middle.length := by
    rw [List.drop_take, List.take_take]
    congr 1
    omega
  show (core.drop (r.1 + before.length)).take _ = middle
  rw [hmiddle, ← List.drop_drop, htake, h, List.drop_left, List.take_left]

theorem getElem?_piece {k : Nat} (h : r.1 + k < r.2) : (piece core r)[k]? = core[r.1 + k]? := by
  rw [piece_eq, List.getElem?_take_of_lt (by omega), List.getElem?_drop]

/-- A clause of a piece: only characters at the edges do not belong to it. -/
structure ClauseSpan.Of (core : List Char) (r : Nat × Nat) (c : ClauseSpan) : Prop where
  start_le : r.1 ≤ c.start
  stop_le : c.stop ≤ r.2
  text_eq : c.text = String.ofList (piece core (c.start, c.stop))
  before : ∀ place, r.1 ≤ place → place < c.start → core[place]?.any isEdge = true
  after : ∀ place, c.stop ≤ place → place < r.2 → core[place]?.any isEdge = true
  first : core[c.start]?.any isEdge = false

theorem clauseAt_of (hle : r.1 ≤ r.2) (hlength : r.2 ≤ core.length) (sourceOrder : Nat)
    (h : trimEdges (piece core r) ≠ []) :
    (clauseAt sourceOrder (r.1 + (findText (piece core r) (trimEdges (piece core r))).getD 0)
      (trimEdges (piece core r)) h).Of core r := by
  obtain ⟨before, after, htext, hbefore, hedgesBefore, hedgesAfter⟩ :=
    trimEdges_append (piece core r)
  have htotal := length_piece hlength
  rw [htext, List.length_append, List.length_append] at htotal
  have hget : ∀ k, r.1 + k < r.2 → core[r.1 + k]? =
      (before ++ (trimEdges (piece core r) ++ after))[k]? := by
    intro k hk
    rw [← htext, getElem?_piece hk]
  have hedge : ∀ {cs : List Char} {k : Nat}, (∀ c ∈ cs, isEdge c = true) → k < cs.length →
      cs[k]?.any isEdge = true := by
    intro cs k hcs hk
    rw [List.getElem?_eq_getElem hk]
    exact hcs _ (List.getElem_mem hk)
  rw [findText_trimEdges h, ← hbefore, Option.getD_some]
  refine ⟨Nat.le_add_right _ _, ?_, ?_, fun place hstart hstop => ?_,
    fun place hstart hstop => ?_, ?_⟩
  · show r.1 + before.length + (trimEdges (piece core r)).length ≤ r.2
    omega
  · exact congrArg String.ofList (piece_of_append htext hle hlength).symm
  · obtain ⟨k, rfl⟩ := Nat.exists_eq_add_of_le hstart
    have hk : k < before.length := by
      have hstop : r.1 + k < r.1 + before.length := hstop
      omega
    rw [hget k (by omega), List.getElem?_append_left hk]
    exact hedge hedgesBefore hk
  · obtain ⟨k, rfl⟩ := Nat.exists_eq_add_of_le
      (show r.1 + (before.length + (trimEdges (piece core r)).length) ≤ place from by
        have hstart : r.1 + before.length + (trimEdges (piece core r)).length ≤ place := hstart
        omega)
    rw [Nat.add_assoc, hget _ (by omega), Nat.add_assoc, List.getElem?_append_right (by omega),
      Nat.add_sub_cancel_left, List.getElem?_append_right (by omega), Nat.add_sub_cancel_left]
    exact hedge hedgesAfter (by omega)
  · show core[r.1 + before.length]?.any isEdge = false
    have hpos := List.length_pos_of_ne_nil h
    rw [hget _ (by omega), List.getElem?_append_right le_rfl, Nat.sub_self,
      List.getElem?_append_left hpos, ← List.head?_eq_getElem?]
    cases hhead : (trimEdges (piece core r)).head? with
    | none => rfl
    | some c => exact head_trimEdges hhead

theorem piece_whole (text : List Char) : piece text (0, text.length) = text := by
  rw [piece, List.take_length, List.drop_zero]

theorem clauseAt_whole (h : trimEdges core ≠ []) :
    (clauseAt 0 ((findText core (trimEdges core)).getD 0) (trimEdges core) h).Of core
      (0, core.length) := by
  have hof := clauseAt_of (r := (0, core.length)) (Nat.zero_le _) le_rfl 0
    ((piece_whole core).symm ▸ h)
  simpa only [piece_whole, Nat.zero_add] using hof

theorem edges_of_trimEdges_nil (hlength : r.2 ≤ core.length) (h : trimEdges (piece core r) = []) :
    ∀ place, r.1 ≤ place → place < r.2 → core[place]?.any isEdge = true := by
  intro place hstart hstop
  obtain ⟨k, rfl⟩ := Nat.exists_eq_add_of_le hstart
  obtain ⟨before, after, htext, -, hedgesBefore, hedgesAfter⟩ := trimEdges_append (piece core r)
  rw [h, List.nil_append] at htext
  have htotal := length_piece hlength
  have hk : k < (piece core r).length := by omega
  rw [← getElem?_piece hstop, List.getElem?_eq_getElem hk]
  have hmem : (piece core r)[k] ∈ before ++ after := htext ▸ List.getElem_mem hk
  exact (List.mem_append.mp hmem).elim (hedgesBefore _) (hedgesAfter _)

variable {ranges : List (Nat × Nat)} (hranges : ∀ r ∈ ranges, r.1 ≤ r.2 ∧ r.2 ≤ core.length)

include hranges

theorem of_mem_clausesOf {sourceOrder : Nat} {c : ClauseSpan}
    (h : c ∈ clausesOf core sourceOrder ranges) : ∃ r ∈ ranges, c.Of core r := by
  induction ranges generalizing sourceOrder with
  | nil => cases h
  | cons r ranges ih =>
    have hrest := fun s hs => hranges s (List.mem_cons_of_mem _ hs)
    rw [clausesOf] at h
    split at h
    · obtain ⟨s, hs, hof⟩ := ih hrest h
      exact ⟨s, List.mem_cons_of_mem _ hs, hof⟩
    · next hne =>
      rcases List.mem_cons.mp h with rfl | h
      · obtain ⟨hle, hlength⟩ := hranges r List.mem_cons_self
        exact ⟨r, List.mem_cons_self, clauseAt_of hle hlength sourceOrder hne⟩
      · obtain ⟨s, hs, hof⟩ := ih hrest h
        exact ⟨s, List.mem_cons_of_mem _ hs, hof⟩

theorem clause_of_mem_ranges (sourceOrder : Nat) (h : r ∈ ranges) : trimEdges (piece core r) = [] ∨
    ∃ c ∈ clausesOf core sourceOrder ranges, c.Of core r := by
  induction ranges generalizing sourceOrder with
  | nil => cases h
  | cons s ranges ih =>
    have hrest := fun s hs => hranges s (List.mem_cons_of_mem _ hs)
    rw [clausesOf]
    rcases List.mem_cons.mp h with rfl | h
    · by_cases hnil : trimEdges (piece core r) = []
      · exact .inl hnil
      · rw [dif_neg hnil]
        obtain ⟨hle, hlength⟩ := hranges r List.mem_cons_self
        exact .inr ⟨_, List.mem_cons_self, clauseAt_of hle hlength sourceOrder hnil⟩
    · split
      · exact ih hrest sourceOrder h
      · rcases ih hrest (sourceOrder + 1) h with hnil | ⟨c, hc, hof⟩
        · exact .inl hnil
        · exact .inr ⟨c, List.mem_cons_of_mem _ hc, hof⟩

theorem pairwise_clausesOf (hordered : ranges.Pairwise fun r s => r.2 ≤ s.1) (sourceOrder : Nat) :
    (clausesOf core sourceOrder ranges).Pairwise fun c d =>
      ∃ r ∈ ranges, ∃ s ∈ ranges, c.Of core r ∧ d.Of core s ∧ r.2 ≤ s.1 := by
  induction ranges generalizing sourceOrder with
  | nil => exact .nil
  | cons r ranges ih =>
    have hrest := fun s hs => hranges s (List.mem_cons_of_mem _ hs)
    obtain ⟨hfirst, hordered⟩ := List.pairwise_cons.mp hordered
    have htail : ∀ n, (clausesOf core n ranges).Pairwise fun c d =>
        ∃ s ∈ r :: ranges, ∃ t ∈ r :: ranges, c.Of core s ∧ d.Of core t ∧ s.2 ≤ t.1 := fun n =>
      (ih hrest hordered n).imp fun ⟨s, hs, t, ht, h⟩ =>
        ⟨s, List.mem_cons_of_mem r hs, t, List.mem_cons_of_mem r ht, h⟩
    rw [clausesOf]
    split
    · exact htail sourceOrder
    · next hne =>
      refine .cons (fun d hd => ?_) (htail _)
      obtain ⟨s, hs, hof⟩ := of_mem_clausesOf hrest hd
      obtain ⟨hle, hlength⟩ := hranges r List.mem_cons_self
      exact ⟨r, List.mem_cons_self, s, List.mem_cons_of_mem _ hs,
        clauseAt_of hle hlength sourceOrder hne, hof, hfirst s hs⟩

omit hranges in
theorem sourceOrder_clausesOf (core : List Char) (ranges : List (Nat × Nat)) (sourceOrder : Nat) :
    (clausesOf core sourceOrder ranges).map (fun c => c.sourceOrder) =
      List.range' sourceOrder (clausesOf core sourceOrder ranges).length := by
  induction ranges generalizing sourceOrder with
  | nil => rfl
  | cons r ranges ih =>
    rw [clausesOf]
    split
    · exact ih sourceOrder
    · rw [List.map_cons, ih, List.length_cons, List.range'_succ]
      rfl

end Pieces

/-- A character at an edge that only such characters separate from a separator or an end of the
reason. -/
def AtEdge (core : List Char) (place : Nat) : Prop :=
  (∃ start ≤ place, (start = 0 ∨ ∃ m, Separator core m ∧ m.2 = start) ∧
    ∀ k, start ≤ k → k ≤ place → core[k]?.any isEdge = true) ∨
  ∃ stop > place, (stop = core.length ∨ ∃ m, Separator core m ∧ m.1 = stop) ∧
    ∀ k, place ≤ k → k < stop → core[k]?.any isEdge = true

theorem ClauseSpan.Of.atEdge {core : List Char} {r : Nat × Nat} {c : ClauseSpan} (h : c.Of core r)
    (hleft : r.1 = 0 ∨ ∃ m, Separator core m ∧ m.2 = r.1)
    (hright : r.2 = core.length ∨ ∃ m, Separator core m ∧ m.1 = r.2) {place : Nat}
    (hstart : r.1 ≤ place)
    (hstop : place < r.2) : c.start ≤ place ∧ place < c.stop ∨ AtEdge core place := by
  rcases lt_or_ge place c.start with hbefore | hfrom
  · exact .inr (.inl ⟨r.1, hstart, hleft, fun k hk hle => h.before k hk (hle.trans_lt hbefore)⟩)
  · rcases lt_or_ge place c.stop with hwithin | hbehind
    · exact .inl ⟨hfrom, hwithin⟩
    · exact .inr (.inr ⟨r.2, hstop, hright, fun k hk hlt => h.after k (hbehind.trans hk) hlt⟩)

theorem length_coreOf (rawText : String) :
    (coreOf rawText).length = (parseCauseSentence rawText).coreEnd := by
  have hle := (parseCauseSentence rawText).coreEnd_le
  rw [parseCauseSentence_rawText, ← String.length_toList] at hle
  rw [coreOf, List.length_take, min_eq_left hle]

theorem piece_coreOf {rawText : String} {m : Nat × Nat} (h : m.2 ≤ (coreOf rawText).length) :
    piece (coreOf rawText) m = piece rawText.toList m := by
  rw [length_coreOf] at h
  rw [piece, piece, coreOf, List.take_take, min_eq_left h]

theorem rawRanges_le (core : List Char) : ∀ r ∈ rawRanges core, r.1 ≤ r.2 ∧ r.2 ≤ core.length :=
  fun r hr => ((tiles_rawRanges core).within r hr).2

/-- The clauses of a cause are numbered in the order of the text, they are disjoint parts of its
reason, and every other character of the reason belongs to a separator or is at an edge. -/
theorem splitEventClauses_cover (rawText : String) :
    (splitEventClauses rawText).map (fun c => c.sourceOrder) =
        List.range (splitEventClauses rawText).length ∧
      (splitEventClauses rawText).Pairwise (fun c d => c.stop ≤ d.start) ∧
      (∀ c ∈ splitEventClauses rawText, c.stop ≤ (parseCauseSentence rawText).coreEnd ∧
        c.text = String.ofList (piece rawText.toList (c.start, c.stop))) ∧
      ∀ place < (parseCauseSentence rawText).coreEnd,
        (∃ c ∈ splitEventClauses rawText, c.start ≤ place ∧ place < c.stop) ∨
        (∃ m, Separator (coreOf rawText) m ∧ m.1 ≤ place ∧ place < m.2) ∨
        AtEdge (coreOf rawText) place := by
  have htiles := tiles_rawRanges (coreOf rawText)
  have hranges := rawRanges_le (coreOf rawText)
  have hcoreEnd := length_coreOf rawText
  rw [← hcoreEnd]
  have hplaces : ∀ {r : Nat × Nat} {c : ClauseSpan}, r.2 ≤ (coreOf rawText).length →
      c.Of (coreOf rawText) r → c.stop ≤ (coreOf rawText).length ∧
        c.text = String.ofList (piece rawText.toList (c.start, c.stop)) := by
    intro r c hr hof
    have hstop := hof.stop_le.trans hr
    exact ⟨hstop, hof.text_eq.trans (congrArg String.ofList (piece_coreOf hstop))⟩
  unfold splitEventClauses
  dsimp only
  split
  · -- no piece has a clause, and all of the reason is one piece
    split
    · next hnil =>
      refine
        ⟨rfl, .nil, nofun, fun place hplace => .inr (.inr (.inl ⟨0, Nat.zero_le _, .inl rfl, ?_⟩))⟩
      intro k hk hle
      exact edges_of_trimEdges_nil (r := (0, (coreOf rawText).length)) le_rfl
        ((congrArg trimEdges (piece_whole _)).trans hnil) k hk (hle.trans_lt hplace)
    · next hne =>
      have hof := clauseAt_whole hne
      refine ⟨rfl, List.pairwise_singleton _ _, fun c hc => ?_, fun place hplace => ?_⟩
      · obtain rfl := List.mem_singleton.mp hc
        exact hplaces le_rfl hof
      · rcases hof.atEdge (.inl rfl) (.inl rfl) (Nat.zero_le place) hplace with hwithin | hedge
        · exact .inl ⟨_, List.mem_singleton_self _, hwithin⟩
        · exact .inr (.inr hedge)
  · have hordered :=
      (pairwise_clausesOf hranges htiles.ordered 0).imp fun ⟨_, _, _, _, hc, hd, hle⟩ =>
      hc.stop_le.trans (hle.trans hd.start_le)
    refine ⟨?_, hordered, fun c hc => ?_, fun place hplace => ?_⟩
    · rw [sourceOrder_clausesOf, List.range_eq_range']
    · obtain ⟨r, hr, hof⟩ := of_mem_clausesOf hranges hc
      exact hplaces (hranges r hr).2 hof
    · rcases htiles.covered place (Nat.zero_le _) hplace with ⟨r, hr, hstart, hstop⟩ | ⟨m, hm, hgap⟩
      · have hleft : r.1 = 0 ∨ ∃ m, Separator (coreOf rawText) m ∧ m.2 = r.1 :=
          (htiles.left r hr).imp_right fun ⟨m, hm, hends⟩ => ⟨m, hm.separator, hends⟩
        have hright : r.2 = (coreOf rawText).length ∨ ∃ m, Separator (coreOf rawText) m ∧
            m.1 = r.2 :=
          (htiles.right r hr).imp_right fun ⟨m, hm, hbegins⟩ => ⟨m, hm.separator, hbegins⟩
        rcases clause_of_mem_ranges hranges 0 hr with hnil | ⟨c, hc, hof⟩
        · refine .inr (.inr (.inl ⟨r.1, hstart, hleft, fun k hk hle => ?_⟩))
          exact edges_of_trimEdges_nil (hranges r hr).2 hnil k hk (hle.trans_lt hstop)
        · rcases hof.atEdge hleft hright hstart hstop with hwithin | hedge
          · exact .inl ⟨c, hc, hwithin⟩
          · exact .inr (.inr hedge)
      · exact .inr (.inl ⟨m, hm.separator, hgap⟩)

end Dayjaview.Ontology
