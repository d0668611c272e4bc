import Dayjaview.Ontology.EventClauses
import Dayjaview.Ontology.QueryPlans

/-!
# The direction of a question

A question asks for what rose or for what fell, by the words that stand in it. When both kinds stand
in it, the code compares where each kind stands first, which is where the last word stands only if
the kind that comes first does not come last as well.
-/

namespace Dayjaview.Ontology

def UP_MARKERS : List String :=
  ["올랐", "올랏", "올라", "오른", "오르", "오름", "상승", "강세", "급등", "뛴", "뛰었", "뛰엇", "셌", "셋노", "강했",
    "강햇", "상한가", "폭등", "반등"]

def DOWN_MARKERS : List String :=
  ["빠졌", "빠젓", "빠졋", "빠져", "빠진", "빠짐", "떨어", "하락", "약세", "급락", "내린", "내려", "내렸", "내렷", "내림",
    "약했", "약햇", "하한가", "폭락"]

/-- What stands for all, not for a direction. -/
def DIRECTION_NOISE : List String := ["빠짐없"]

/-- Blanks in place of a word, wherever it stands; the number says how much of it is left. -/
def blankOut (noise : List Char) : Nat → List Char → List Char
  | _, [] => []
  | left + 1, _ :: text => ' ' :: blankOut noise left text
  | 0, c :: text =>
    if noise.isPrefixOf (c :: text) then ' ' :: blankOut noise (noise.length - 1) text
    else c :: blankOut noise 0 text

/-- A question without the words that stand for no direction. -/
def withoutNoise (text : String) : List Char :=
  DIRECTION_NOISE.foldl (fun text noise => blankOut noise.toList 0 text) text.toList

/-- The first place where a marker stands. -/
def firstMarker (markers : List String) (text : List Char) : Option Nat :=
  (markers.filterMap fun marker => findText text marker.toList).min?

/-- The direction of a question. -/
def direction (text : String) : Option QueryDirection :=
  let text := withoutNoise text
  match firstMarker UP_MARKERS text, firstMarker DOWN_MARKERS text with
  | none, none => none
  | none, some _ => some .down
  | some _, none => some .up
  | some up, some down => if up < down then some .down else some .up

/-- The markers of a direction. -/
def markersOf : QueryDirection → List String
  | .up => UP_MARKERS
  | .down => DOWN_MARKERS

/-- A marker of a direction stands between two places. -/
def StandsAt (text : List Char) (d : QueryDirection) (i e : Nat) : Prop :=
  ∃ marker ∈ markersOf d, marker.toList <+: text.drop i ∧ i + marker.toList.length = e

/-- A direction has the marker that begins first. -/
def BeginsFirst (text : List Char) (d : QueryDirection) : Prop :=
  ∃ i e, StandsAt text d i e ∧ ∀ d' i' e', StandsAt text d' i' e' → i ≤ i'

/-- A direction has the marker that ends last. -/
def EndsLast (text : List Char) (d : QueryDirection) : Prop :=
  ∃ i e, StandsAt text d i e ∧ ∀ d' i' e', StandsAt text d' i' e' → e' ≤ e

/-- The direction is that of the marker that ends last, and there is none without markers. -/
def DirectionRight (text : String) : Prop :=
  (∀ d, direction text = some d ↔ EndsLast (withoutNoise text) d) ∧
    (direction text = none ↔ ∀ d i e, ¬StandsAt (withoutNoise text) d i e)

variable {text : List Char} {d : QueryDirection} {i e : Nat}

theorem marker_ne_nil {marker : String} (h : marker ∈ markersOf d) : marker.toList ≠ [] := by
  revert marker
  cases d <;> decide

variable {d' : QueryDirection}

/-- No marker begins or ends with a marker of the other direction. -/
theorem markers_apart (hne : d ≠ d') {marker marker' : String} (h : marker ∈ markersOf d)
    (h' : marker' ∈ markersOf d') :
    ¬marker.toList <+: marker'.toList ∧ ¬marker.toList <:+ marker'.toList := by
  have hall : ∀ d d' : QueryDirection, d ≠ d' → ∀ marker ∈ markersOf d, ∀ marker' ∈ markersOf d',
      ¬marker.toList <+: marker'.toList ∧ ¬marker.toList <:+ marker'.toList := by
    rintro (_ | _) (_ | _) hne
    · exact absurd rfl hne
    · decide +kernel
    · decide +kernel
    · exact absurd rfl hne
  exact hall d d' hne marker h marker' h'

theorem StandsAt.le_length (h : StandsAt text d i e) : i < e ∧ e ≤ text.length := by
  obtain ⟨marker, hmarker, hbegins, rfl⟩ := h
  have hlength := hbegins.length_le
  have hpos := List.length_pos_of_ne_nil (marker_ne_nil hmarker)
  rw [List.length_drop] at hlength
  omega

/-- Markers of both directions do not begin at one place. -/
theorem StandsAt.begin_ne {e' : Nat} (h : StandsAt text d i e) (hne : d ≠ d') :
    ¬StandsAt text d' i e' := by
  rintro ⟨marker', hmarker', hbegins', -⟩
  obtain ⟨marker, hmarker, hbegins, -⟩ := h
  rcases List.prefix_or_prefix_of_prefix hbegins hbegins' with hpre | hpre
  · exact (markers_apart hne hmarker hmarker').1 hpre
  · exact (markers_apart hne.symm hmarker' hmarker).1 hpre

/-- What stands before a place ends there. -/
theorem StandsAt.suffix_take (h : StandsAt text d i e) :
    ∃ marker ∈ markersOf d, marker.toList <:+ text.take e := by
  obtain ⟨marker, hmarker, ⟨rest, hrest⟩, rfl⟩ := h
  refine ⟨marker, hmarker, text.take i, ?_⟩
  rw [List.take_add, ← hrest, List.take_left]

/-- Markers of both directions do not end at one place. -/
theorem StandsAt.end_ne {i' : Nat} (h : StandsAt text d i e) (hne : d ≠ d') :
    ¬StandsAt text d' i' e := by
  intro h'
  obtain ⟨marker, hmarker, hends⟩ := h.suffix_take
  obtain ⟨marker', hmarker', hends'⟩ := h'.suffix_take
  rcases List.suffix_or_suffix_of_suffix hends hends' with hsuf | hsuf
  · exact (markers_apart hne hmarker hmarker').2 hsuf
  · exact (markers_apart hne.symm hmarker' hmarker).2 hsuf

/-- Some marker ends last if there is any. -/
theorem exists_endsLast (h : StandsAt text d i e) : ∃ d, EndsLast text d := by
  classical
  have hlast := Nat.findGreatest_spec (P := fun e => ∃ d i, StandsAt text d i e) h.le_length.2
    ⟨d, i, h⟩
  obtain ⟨d', i', h'⟩ := hlast
  exact ⟨d', i', _, h', fun d'' i'' e'' h'' => Nat.le_findGreatest h''.le_length.2 ⟨d'', i'', h''⟩⟩

/-- No more than one direction has the marker that ends last. -/
theorem EndsLast.unique (h : EndsLast text d) (h' : EndsLast text d') : d = d' := by
  obtain ⟨i, e, hstands, hlast⟩ := h
  obtain ⟨i', e', hstands', hlast'⟩ := h'
  obtain rfl := le_antisymm (hlast' d i e hstands) (hlast d' i' e' hstands')
  by_contra hne
  exact hstands.end_ne hne hstands'

theorem findText_eq_some {needle : List Char} (hne : needle ≠ []) : findText text needle = some i ↔
    needle <+: text.drop i ∧ ∀ j, needle <+: text.drop j → i ≤ j := by
  rw [findText, List.find?_range_eq_some]
  simp only [List.isPrefixOf_iff_prefix, List.mem_range, Bool.not_eq_true', ← Bool.not_eq_true]
  constructor
  · rintro ⟨hbegins, -, hfirst⟩
    exact ⟨hbegins, fun j hj => Nat.not_lt.mp fun hlt => hfirst j hlt hj⟩
  · rintro ⟨hbegins, hfirst⟩
    have hlength := hbegins.length_le
    have hpos := List.length_pos_of_ne_nil hne
    rw [List.length_drop] at hlength
    exact ⟨hbegins, by omega, fun j hlt hj => Nat.not_lt.mpr (hfirst j hj) hlt⟩

theorem findText_isSome {needle : List Char} (hne : needle ≠ []) (h : needle <+: text.drop i) :
    ∃ j, findText text needle = some j := by
  refine Option.isSome_iff_exists.mp ?_
  have hlength := h.length_le
  have hpos := List.length_pos_of_ne_nil hne
  rw [List.length_drop] at hlength
  rw [findText, List.find?_isSome]
  exact ⟨i, List.mem_range.mpr (by omega), List.isPrefixOf_iff_prefix.mpr h⟩

/-- The first place of the markers of a direction. -/
theorem firstMarker_eq_some : firstMarker (markersOf d) text = some i ↔
    (∃ e, StandsAt text d i e) ∧ ∀ i' e', StandsAt text d i' e' → i ≤ i' := by
  have hmem : ∀ j, j ∈ (markersOf d).filterMap (fun marker => findText text marker.toList) ↔
      ∃ marker ∈ markersOf d, findText text marker.toList = some j := fun j => List.mem_filterMap
  rw [firstMarker, List.min?_eq_some_iff]
  simp only [hmem]
  constructor
  · rintro ⟨⟨marker, hmarker, hfound⟩, hfirst⟩
    have hbegins := ((findText_eq_some (marker_ne_nil hmarker)).mp hfound).1
    refine ⟨⟨_, marker, hmarker, hbegins, rfl⟩, ?_⟩
    rintro i' e' ⟨marker', hmarker', hbegins', -⟩
    obtain ⟨j, hj⟩ := findText_isSome (marker_ne_nil hmarker') hbegins'
    exact (hfirst j ⟨marker', hmarker', hj⟩).trans
      (((findText_eq_some (marker_ne_nil hmarker')).mp hj).2 i' hbegins')
  · rintro ⟨⟨e, marker, hmarker, hbegins, -⟩, hfirst⟩
    refine ⟨⟨marker, hmarker, (findText_eq_some (marker_ne_nil hmarker)).mpr
      ⟨hbegins, fun j hj => hfirst j _ ⟨marker, hmarker, hj, rfl⟩⟩⟩, ?_⟩
    rintro j ⟨marker', hmarker', hj⟩
    exact hfirst j _ ⟨marker', hmarker', ((findText_eq_some (marker_ne_nil hmarker')).mp hj).1, rfl⟩

theorem firstMarker_eq_none :
    firstMarker (markersOf d) text = none ↔ ∀ i e, ¬StandsAt text d i e := by
  rw [firstMarker, List.min?_eq_none_iff, List.filterMap_eq_nil_iff]
  constructor
  · rintro hnone i e ⟨marker, hmarker, hbegins, -⟩
    obtain ⟨j, hj⟩ := findText_isSome (marker_ne_nil hmarker) hbegins
    rw [hnone marker hmarker] at hj
    cases hj
  · intro hnone marker hmarker
    rw [Option.eq_none_iff_forall_ne_some]
    intro j hj
    exact hnone j _ ⟨marker, hmarker, ((findText_eq_some (marker_ne_nil hmarker)).mp hj).1, rfl⟩

/-- What the direction is: that of the only markers, or the one whose markers do not begin first. -/
theorem direction_cases (text : String) :
    (direction text = none ∧ ∀ d i e, ¬StandsAt (withoutNoise text) d i e) ∨
    (∃ d, direction text = some d ∧ (∃ i e, StandsAt (withoutNoise text) d i e) ∧
      ∀ d' i e, StandsAt (withoutNoise text) d' i e → d' = d) ∨
    ∃ d d', d ≠ d' ∧ direction text = some d' ∧ BeginsFirst (withoutNoise text) d ∧
      ∃ i e, StandsAt (withoutNoise text) d' i e := by
  unfold direction
  dsimp only
  cases hup : firstMarker UP_MARKERS (withoutNoise text) with
  | none =>
    have hnoUp := firstMarker_eq_none (d := .up).mp hup
    cases hdown : firstMarker DOWN_MARKERS (withoutNoise text) with
    | none =>
      have hnoDown := firstMarker_eq_none (d := .down).mp hdown
      exact .inl ⟨rfl, fun d => match d with | .up => hnoUp | .down => hnoDown⟩
    | some down =>
      obtain ⟨⟨e, hstands⟩, -⟩ := firstMarker_eq_some (d := .down).mp hdown
      refine .inr (.inl ⟨.down, rfl, ⟨down, e, hstands⟩, fun d' i e h => ?_⟩)
      cases d' with
      | up => exact absurd h (hnoUp i e)
      | down => rfl
  | some up =>
    obtain ⟨⟨e, hstands⟩, hfirst⟩ := firstMarker_eq_some (d := .up).mp hup
    cases hdown : firstMarker DOWN_MARKERS (withoutNoise text) with
    | none =>
      have hnoDown := firstMarker_eq_none (d := .down).mp hdown
      refine .inr (.inl ⟨.up, rfl, ⟨up, e, hstands⟩, fun d' i e h => ?_⟩)
      cases d' with
      | up => rfl
      | down => exact absurd h (hnoDown i e)
    | some down =>
      obtain ⟨⟨e', hstands'⟩, hfirst'⟩ := firstMarker_eq_some (d := .down).mp hdown
      refine .inr (.inr ?_)
      by_cases hlt : up < down
      · refine ⟨.up, .down, nofun, if_pos hlt, ⟨up, e, hstands, fun d' i' e'' h => ?_⟩, down, e',
          hstands'⟩
        cases d' with
        | up => exact hfirst i' e'' h
        | down => exact hlt.le.trans (hfirst' i' e'' h)
      · refine ⟨.down, .up, nofun, if_neg hlt, ⟨down, e', hstands', fun d' i' e'' h => ?_⟩, up, e,
          hstands⟩
        cases d' with
        | up => exact (not_lt.mp hlt).trans (hfirst i' e'' h)
        | down => exact hfirst' i' e'' h

/-- No more than one direction has the marker that begins first. -/
theorem BeginsFirst.unique (h : BeginsFirst text d) (h' : BeginsFirst text d') : d = d' := by
  obtain ⟨i, e, hstands, hfirst⟩ := h
  obtain ⟨i', e', hstands', hfirst'⟩ := h'
  obtain rfl := le_antisymm (hfirst d' i' e' hstands') (hfirst' d i e hstands)
  by_contra hne
  exact hstands.begin_ne hne hstands'

theorem EndsLast.stands (h : EndsLast text d) : ∃ i e, StandsAt text d i e :=
  let ⟨i, e, hstands, _⟩ := h
  ⟨i, e, hstands⟩

theorem directionRight_of_endsLast {text : String} (h : direction text = some d)
    (hends : EndsLast (withoutNoise text) d) : DirectionRight text := by
  refine ⟨fun d' => ⟨fun h' => ?_, fun hends' => ?_⟩, fun hnone => ?_, fun hnone => ?_⟩
  · obtain rfl := Option.some.inj (h.symm.trans h')
    exact hends
  · rw [h, hends.unique hends']
  · rw [h] at hnone
    cases hnone
  · obtain ⟨i, e, hstands⟩ := hends.stands
    exact absurd hstands (hnone d i e)

/-- The direction is right unless markers of both directions stand in the question and the direction
of the one that begins first also has the one that ends last. -/
theorem directionRight_iff (text : String) : DirectionRight text ↔
    ∀ d d', d ≠ d' → BeginsFirst (withoutNoise text) d →
    (∃ i e, StandsAt (withoutNoise text) d' i e) →
      ¬EndsLast (withoutNoise text) d := by
  constructor
  · rintro ⟨hright, -⟩ d d' hne hbegins ⟨i, e, hstands⟩ hends
    have hdirection := (hright d).mpr hends
    rcases direction_cases text with ⟨hnone, -⟩ | ⟨d₀, hsome, -, honly⟩ |
        ⟨d₀, d₀', hne₀, hsome, hbegins₀, -⟩
    · rw [hnone] at hdirection
      cases hdirection
    · obtain ⟨i', e', hstands'⟩ := hends.stands
      exact hne ((honly d i' e' hstands').trans (honly d' i e hstands).symm)
    · obtain rfl := Option.some.inj (hsome.symm.trans hdirection)
      exact hne₀ (hbegins₀.unique hbegins)
  · intro hcondition
    rcases direction_cases text with ⟨hnone, hall⟩ | ⟨d₀, hsome, ⟨i, e, hstands⟩, honly⟩ |
      ⟨d₀, d₀', hne, hsome, hbegins, i, e, hstands⟩
    · rw [DirectionRight, hnone]
      refine ⟨fun d => ⟨nofun, fun hends => ?_⟩, fun _ => hall, fun _ => rfl⟩
      obtain ⟨i, e, hstands⟩ := hends.stands
      exact absurd hstands (hall d i e)
    · obtain ⟨d₁, hends⟩ := exists_endsLast hstands
      obtain ⟨i', e', hstands'⟩ := hends.stands
      obtain rfl := honly d₁ i' e' hstands'
      exact directionRight_of_endsLast hsome hends
    · obtain ⟨d₁, hends⟩ := exists_endsLast hstands
      have hother : d₁ ≠ d₀ := by
        rintro rfl
        exact hcondition d₁ d₀' hne hbegins ⟨i, e, hstands⟩ hends
      have hsame : d₁ = d₀' := by
        cases d₁ <;> cases d₀ <;> cases d₀' <;>
          first | rfl | exact absurd rfl hne | exact absurd rfl hother
      exact directionRight_of_endsLast hsome (hsame ▸ hends)

/-- A question that names both directions and ends with what rose asks for what fell. -/
theorem directionRight_fails : direction "상승 하락 상승" = some .down ∧ ¬DirectionRight "상승 하락 상승" := by
  have hdown : direction "상승 하락 상승" = some .down := by decide +kernel
  refine ⟨hdown, fun hright => ?_⟩
  have hends : EndsLast (withoutNoise "상승 하락 상승") .up :=
    ⟨6, 8, ⟨"상승", by decide, by decide, rfl⟩, fun d' i' e' h => h.le_length.2⟩
  have hup := (hright.1 .up).mpr hends
  rw [hdown] at hup
  cases hup

end Dayjaview.Ontology
