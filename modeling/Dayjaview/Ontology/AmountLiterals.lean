import Dayjaview.Core.DecimalDigits
import Dayjaview.Core.DecimalOverflow
import Dayjaview.Core.Scanning
import Dayjaview.Ontology.QueryPlans

/-!
# Amounts in a question

A question may ask for amounts above or below a bound. The pattern takes digits with at most one
separator, one unit, and perhaps a marker behind it; the first match gives the condition. Wherever
the pattern fits, there is only one way to read it, so it is a function on the rest of the text.
-/

namespace Dayjaview.Ontology

open Scanning

/-- The units of amounts with the wons of each. -/
def AMOUNT_UNITS : List (String × Decimal) :=
  [("조원", .ofNat 1000000000000), ("조", .ofNat 1000000000000), ("억원", .ofNat 100000000),
    ("억", .ofNat 100000000), ("만원", .ofNat 10000), ("천만원", .ofNat 10000000),
    ("백만원", .ofNat 1000000), ("원", .ofNat 1)]

/-- The units in the order in which the pattern tries them. -/
def AMOUNT_UNIT_NAMES : List String := ["조원", "조", "억원", "억", "천만원", "백만원", "만원", "원"]

/-- The markers behind an amount, in the order in which the pattern tries them. -/
def COMPARATOR_BY_MARKER : List (String × Comparator) :=
  [("이상", .gte), ("초과", .gt), ("넘는", .gt), ("넘은", .gt), ("넘게", .gt), ("이하", .lte),
    ("미만", .lt)]

/-- A character between the digits of an amount. -/
def isSeparator (c : Char) : Bool := c == '.' || c == ','

/-- The digits a text begins with, and more digits behind a separator. -/
def readDigits (cs : List Char) : List Char :=
  let whole := cs.takeWhile isDecimal
  match cs.dropWhile isDecimal with
  | c :: ds =>
    let more := ds.takeWhile isDecimal
    if isSeparator c && !more.isEmpty then whole ++ c :: more else whole
  | [] => whole

/-- What the pattern takes from a text. -/
structure AmountMatch where
  raw : List Char
  unit : String
  marker : Option String
  length : Nat

/-- The text begins with a word. -/
def beginsWith (cs : List Char) (word : String) : Bool := word.toList.isPrefixOf cs

/-- The marker a text begins with. -/
def readMarker (cs : List Char) : Option String :=
  (COMPARATOR_BY_MARKER.map Prod.fst).find? (beginsWith cs)

/-- The amount a text begins with. -/
def readAmount (cs : List Char) : Option AmountMatch :=
  if (cs.takeWhile isDecimal).isEmpty then none
  else
    let raw := readDigits cs
    let behind := (cs.drop raw.length).dropWhile isSpace
    (AMOUNT_UNIT_NAMES.find? (beginsWith behind)).map fun unit =>
      let tail := (behind.drop unit.length).dropWhile isSpace
      let marker := readMarker tail
      let rest := tail.drop ((marker.map String.length).getD 0)
      ⟨raw, unit, marker, cs.length - rest.length⟩

/-- The comparator of a marker, at least the amount if there is none. -/
def comparatorOf (marker : Option String) : Comparator :=
  (COMPARATOR_BY_MARKER.lookup (marker.getD "")).getD .gte

/-- Where the amount ends that begins at a place. -/
def amountAt (text : List Char) (place : Nat) : Option Nat :=
  (readAmount (text.drop place)).map fun m => place + m.length

/-- Where the amounts of a text stand. -/
def amountSpans (text : List Char) : List (Nat × Nat) := finditer (amountAt text) 0 text.length

def conversionSyntax : Error := ⟨.decimalSignal, "[<class 'decimal.ConversionSyntax'>]"⟩

/-- The condition of an amount. -/
def amountCondition (text : List Char) (place : Nat) (m : AmountMatch) :
    Except Error AmountCondition := do
  let multiplier := (AMOUNT_UNITS.lookup m.unit).getD .zero
  match Decimal.ofStr (String.ofList (m.raw.filter (· ≠ ','))) with
  | some (.finite number) => do
    let amount ← Decimal.mul Decimal.defaultPrec number multiplier
    return { comparator := comparatorOf m.marker, normalizedValue := amount, currency := "KRW",
             literal := strip (String.ofList ((text.drop place).take m.length)) }
  | _ => .error conversionSyntax

/-- The condition of the first amount of a text, and where its amounts stand. -/
def findAmount (text : String) : Except Error (Option AmountCondition × List (Nat × Nat)) := do
  let spans := amountSpans text.toList
  match spans.head?.bind fun span => (readAmount (text.toList.drop span.1)).map fun m =>
    (span.1, m) with
  | none => return (none, spans)
  | some (place, m) => return (some (← amountCondition text.toList place m), spans)

/-- A number with commas between its thousands and perhaps digits behind a point. -/
structure AmountNumber where
  head : List Char
  thousands : List (List Char)
  fraction : List Char
  head_ne : head ≠ []
  digits : ∀ c ∈ head ++ thousands.flatten ++ fraction, isDecimal c = true
  three : ∀ group ∈ thousands, group.length = 3
  head_short : thousands ≠ [] → head.length ≤ 3

namespace AmountNumber

/-- The number as it is written. -/
def text (number : AmountNumber) : List Char :=
  number.head ++ number.thousands.flatMap (fun group => ',' :: group) ++ pointed number.fraction

def value (number : AmountNumber) : ℚ :=
  digitsValue (number.head ++ number.thousands.flatten ++ number.fraction) / 10 ^
  number.fraction.length

/-- The separators of a number. -/
def separators (number : AmountNumber) : Nat :=
  number.thousands.length + if number.fraction = [] then 0 else 1

end AmountNumber

inductive AmountUnit where
  | jo
  | eok
  | cheonman
  | baekman
  | man
  | won
  deriving DecidableEq

namespace AmountUnit

def text : AmountUnit → String
  | jo => "조"
  | eok => "억"
  | cheonman => "천만"
  | baekman => "백만"
  | man => "만"
  | won => "원"

def scale : AmountUnit → Nat
  | jo => 1000000000000
  | eok => 100000000
  | cheonman => 10000000
  | baekman => 1000000
  | man => 10000
  | won => 1

/-- The pattern has the unit by itself. -/
def Plain (unit : AmountUnit) : Prop := unit = jo ∨ unit = eok ∨ unit = won

instance : DecidablePred Plain := fun unit => by unfold Plain; infer_instance

end AmountUnit

/-- A number with its unit, perhaps behind blanks. -/
structure AmountGroup where
  number : AmountNumber
  gap : List Char
  unit : AmountUnit
  gap_blank : ∀ c ∈ gap, isSpace c = true

def AmountGroup.text (group : AmountGroup) : List Char :=
  group.number.text ++ group.gap ++ group.unit.text.toList

def AmountGroup.value (group : AmountGroup) : ℚ := group.number.value * group.unit.scale

/-- An amount of wons. The currency may stand behind the last group. -/
structure AmountLiteral where
  first : AmountGroup
  rest : List (List Char × AmountGroup)
  currency : Option (List Char)
  descending : (first :: rest.map Prod.snd).Pairwise fun a b => b.unit.scale < a.unit.scale
  rest_blank : ∀ e ∈ rest, ∀ c ∈ e.1, isSpace c = true
  currency_blank : ∀ c ∈ currency.getD [], isSpace c = true
  currency_once : currency ≠ none → ∀ group ∈ first :: rest.map Prod.snd, group.unit ≠ .won

namespace AmountLiteral

/-- The amount as it is written behind its first group. -/
def behindFirst (literal : AmountLiteral) : List Char :=
  literal.rest.flatMap (fun e => e.1 ++ e.2.text) ++
    (literal.currency.map fun gap => gap ++ ['원']).getD []

/-- The amount as it is written. -/
def text (literal : AmountLiteral) : List Char := literal.first.text ++ literal.behindFirst

def amount (literal : AmountLiteral) : ℚ :=
  literal.first.value + (literal.rest.map fun e => e.2.value).sum

/-- The amount ends with a unit that the currency could follow. -/
def Open (literal : AmountLiteral) : Prop :=
  literal.currency = none ∧ ∀ group ∈ literal.first :: literal.rest.map Prod.snd, group.unit ≠ .won

/-- The pattern fits the first group: its number has at most one separator, and its unit is one of
the pattern by itself or together with the currency. -/
def Readable (literal : AmountLiteral) : Prop :=
  literal.first.number.separators ≤ 1 ∧
    (literal.first.unit.Plain ∨ literal.rest = [] ∧ literal.currency = some [])

/-- Nothing is left behind what the pattern takes. -/
def Direct (literal : AmountLiteral) : Prop :=
  literal.rest = [] ∧ (literal.currency = none ∨ literal.currency = some [])

end AmountLiteral

/-- The comparator of the marker behind an amount. -/
def comparatorAfter (after : List Char) : Comparator :=
  comparatorOf (readMarker (after.dropWhile isSpace))

section Digits

variable {ds tail : List Char}

/-- The text goes on with no digit. -/
def NoDecimalHead (cs : List Char) : Prop := ∀ c ∈ cs.head?, isDecimal c = false

theorem takeWhile_isDecimal (hds : ∀ c ∈ ds, isDecimal c = true) (htail : NoDecimalHead tail) :
    (ds ++ tail).takeWhile isDecimal = ds ∧ (ds ++ tail).dropWhile isDecimal = tail := by
  have htake : tail.takeWhile isDecimal = [] := by
    cases tail with
    | nil => rfl
    | cons c cs =>
      have hc : isDecimal c = false := htail c rfl
      rw [List.takeWhile_cons_of_neg (by simp [hc])]
  have hdrop : tail.dropWhile isDecimal = tail := by
    have hsplit := List.takeWhile_append_dropWhile (p := isDecimal) (l := tail)
    rwa [htake] at hsplit
  rw [List.takeWhile_append_of_pos hds, List.dropWhile_append_of_pos hds, htake, hdrop,
    List.append_nil]
  exact ⟨rfl, rfl⟩

theorem not_isDecimal_separator {c : Char} (h : isSeparator c = true) : isDecimal c = false := by
  have hc : c = '.' ∨ c = ',' := by simpa [isSeparator] using h
  rcases hc with rfl | rfl <;> decide +kernel

theorem readDigits_plain (hds : ∀ c ∈ ds, isDecimal c = true) (htail : NoDecimalHead tail)
    (hseparator : ∀ c ∈ tail.head?, isSeparator c = false) : readDigits (ds ++ tail) = ds := by
  obtain ⟨htake, hdrop⟩ := takeWhile_isDecimal hds htail
  unfold readDigits
  rw [htake, hdrop]
  cases tail with
  | nil => rfl
  | cons c cs =>
    have hc : isSeparator c = false := hseparator c rfl
    simp [hc]

theorem readDigits_separated {separator : Char} {more : List Char}
    (hds : ∀ c ∈ ds, isDecimal c = true)
    (hseparator : isSeparator separator = true) (hne : more ≠ [])
    (hmore : ∀ c ∈ more, isDecimal c = true) (htail : NoDecimalHead tail) :
    readDigits (ds ++ separator :: (more ++ tail)) = ds ++ separator :: more := by
  have hhead : NoDecimalHead (separator :: (more ++ tail)) := by
    rintro c ⟨⟩
    exact not_isDecimal_separator hseparator
  obtain ⟨htake, hdrop⟩ := takeWhile_isDecimal hds hhead
  obtain ⟨hmoreTake, -⟩ := takeWhile_isDecimal hmore htail
  unfold readDigits
  rw [htake, hdrop]
  simp [hmoreTake, hseparator, hne]

end Digits

namespace AmountNumber

variable (number : AmountNumber)

theorem isDecimal_head : ∀ c ∈ number.head, isDecimal c = true := fun c hc =>
  number.digits c (List.mem_append_left _ (List.mem_append_left _ hc))

theorem isDecimal_thousands {group : List Char} (h : group ∈ number.thousands) :
    ∀ c ∈ group, isDecimal c = true := fun c hc =>
  number.digits c
  (List.mem_append_left _ (List.mem_append_right _ (List.mem_flatten.mpr ⟨group, h, hc⟩)))

theorem isDecimal_fraction : ∀ c ∈ number.fraction, isDecimal c = true := fun c hc =>
  number.digits c (List.mem_append_right _ hc)

theorem exists_text : ∃ c cs, number.text = c :: cs ∧ isDecimal c = true := by
  obtain ⟨c, cs, hhead⟩ := List.exists_cons_of_ne_nil number.head_ne
  refine ⟨c, cs ++ number.thousands.flatMap (fun group => ',' :: group) ++
    pointed number.fraction, ?_, ?_⟩
  · rw [text, hhead]
    rfl
  · exact number.isDecimal_head c (hhead ▸ List.mem_cons_self)

variable {number} {tail : List Char}

theorem readDigits_text (h : number.separators ≤ 1) (htail : NoDecimalHead tail)
    (hseparator : ∀ c ∈ tail.head?, isSeparator c = false) :
    readDigits (number.text ++ tail) = number.text := by
  unfold separators at h
  unfold text
  cases hthousands : number.thousands with
  | nil =>
    rw [List.flatMap_nil, List.append_nil]
    cases hfraction : number.fraction with
    | nil =>
      rw [pointed, List.append_nil]
      exact readDigits_plain number.isDecimal_head htail hseparator
    | cons d ds =>
      rw [pointed, List.append_assoc, List.cons_append]
      exact readDigits_separated number.isDecimal_head (by decide) (List.cons_ne_nil d ds)
        (hfraction ▸ number.isDecimal_fraction) htail
  | cons group groups =>
    have hmem : group ∈ number.thousands := hthousands ▸ List.mem_cons_self
    have hgroup : group ≠ [] := by
      rintro rfl
      exact absurd (number.three _ hmem) (by decide)
    have hgroups : groups = [] := by
      rw [hthousands, List.length_cons] at h
      exact List.length_eq_zero_iff.mp (by omega)
    have hfraction : number.fraction = [] := by
      by_contra hne
      rw [hthousands, List.length_cons, if_neg hne] at h
      omega
    rw [hgroups, hfraction, pointed, List.append_nil, List.flatMap_singleton, List.append_assoc,
      List.cons_append]
    exact readDigits_separated number.isDecimal_head (by decide) hgroup
      (number.isDecimal_thousands hmem) htail

theorem readDigits_text_of_lt (h : 1 < number.separators) (tail : List Char) :
    ∃ c cs, number.text ++ tail = readDigits (number.text ++ tail) ++ c :: cs ∧ isSeparator c =
      true := by
  unfold separators at h
  unfold text
  cases hthousands : number.thousands with
  | nil =>
    rw [hthousands] at h
    split at h <;> simp at h
  | cons group groups =>
    have hmem : group ∈ number.thousands := hthousands ▸ List.mem_cons_self
    have hgroup : group ≠ [] := by
      rintro rfl
      exact absurd (number.three _ hmem) (by decide)
    obtain ⟨c, cs, hmore, hc⟩ : ∃ c cs,
        groups.flatMap (fun group => ',' :: group) ++ pointed number.fraction = c :: cs ∧
          isSeparator c = true := by
      cases groups with
      | cons next groups => exact ⟨',', _, rfl, by decide⟩
      | nil =>
        cases hfraction : number.fraction with
        | cons d ds => exact ⟨'.', d :: ds, rfl, by decide⟩
        | nil =>
          rw [hthousands, hfraction] at h
          simp at h
    have htail : NoDecimalHead (c :: (cs ++ tail)) := by
      rintro c' ⟨⟩
      exact not_isDecimal_separator hc
    have htext : number.head ++ (group :: groups).flatMap (fun group => ',' :: group) ++
        pointed number.fraction ++ tail = number.head ++ ',' :: (group ++ c :: (cs ++ tail)) := by
      rw [List.flatMap_cons, List.append_assoc number.head, List.append_assoc (',' :: group), hmore]
      simp
    rw [htext, readDigits_separated number.isDecimal_head (by decide) hgroup
      (number.isDecimal_thousands hmem) htail]
    exact ⟨c, cs ++ tail, by simp, hc⟩

theorem exists_ofStr (number : AmountNumber) :
    ∃ d, Decimal.ofStr (String.ofList (number.text.filter (· ≠ ','))) = some (.finite d) ∧
      d.value = number.value := by
  have hkeep : ∀ cs : List Char, (∀ c ∈ cs, isDecimal c = true) → cs.filter (· ≠ ',') = cs := by
    intro cs h
    refine List.filter_eq_self.mpr fun c hc => ?_
    simpa using ne_of_isDecimal (h c hc) (by decide) (by decide)
  have hthousands :
      ∀ groups : List (List Char), (∀ group ∈ groups, ∀ c ∈ group, isDecimal c = true) →
      (groups.flatMap fun group => ',' :: group).filter (· ≠ ',') = groups.flatten := by
    intro groups h
    induction groups with
    | nil => rfl
    | cons group groups ih =>
      rw [List.flatMap_cons, List.filter_append, List.filter_cons_of_neg (by decide),
        hkeep group (h group List.mem_cons_self), ih fun g hg => h g (List.mem_cons_of_mem _ hg),
        List.flatten_cons]
  have hpointed : (pointed number.fraction).filter (· ≠ ',') = pointed number.fraction := by
    have hfraction := number.isDecimal_fraction
    cases hcases : number.fraction with
    | nil => rfl
    | cons d ds =>
      rw [hcases] at hfraction
      rw [pointed, List.filter_cons_of_pos (by decide), hkeep _ hfraction]
  have hfilter : number.text.filter (· ≠ ',') =
      (number.head ++ number.thousands.flatten) ++ pointed number.fraction := by
    rw [text, List.filter_append, List.filter_append, hkeep _ number.isDecimal_head,
      hthousands _ fun group hgroup => number.isDecimal_thousands hgroup, hpointed]
  have hne : number.head ++ number.thousands.flatten ≠ [] := by simp [number.head_ne]
  have hread := ofStr_digits hne (fun c hc => number.digits c (List.mem_append_left _ hc))
    number.isDecimal_fraction
  refine ⟨_, hfilter ▸ hread, ?_⟩
  rw [Decimal.value_mk, value, zpow_neg, zpow_natCast]
  simp [div_eq_mul_inv]

end AmountNumber

theorem find_unit (unit : AmountUnit) (more : List Char) :
    AMOUNT_UNIT_NAMES.find? (beginsWith (unit.text.toList ++ more)) =
      if more.head? = some '원' ∧ unit ≠ .won then some (unit.text ++ "원")
      else if unit.Plain then some unit.text else none := by
  cases more with
  | nil => cases unit <;> decide
  | cons c cs =>
    by_cases hc : c = '원'
    · subst hc
      cases unit <;>
        simp [AMOUNT_UNIT_NAMES, AmountUnit.text, beginsWith, AmountUnit.Plain]
    · have hc' : ¬ '원' = c := fun h => hc h.symm
      cases unit <;>
        simp [AMOUNT_UNIT_NAMES, AmountUnit.text, beginsWith, AmountUnit.Plain, hc, hc']

theorem lookup_unit (unit : AmountUnit) : (unit ≠ .won →
    AMOUNT_UNITS.lookup (unit.text ++ "원") = some (.ofNat unit.scale)) ∧
    (unit.Plain → AMOUNT_UNITS.lookup unit.text = some (.ofNat unit.scale)) := by
  cases unit <;> decide

theorem exists_unit_text (unit : AmountUnit) : ∃ c cs, unit.text.toList = c :: cs ∧
    isDecimal c = false ∧ isSeparator c = false ∧ isSpace c = false := by
  cases unit with
  | jo => exact ⟨'조', [], rfl, by decide +kernel⟩
  | eok => exact ⟨'억', [], rfl, by decide +kernel⟩
  | cheonman => exact ⟨'천', ['만'], rfl, by decide +kernel⟩
  | baekman => exact ⟨'백', ['만'], rfl, by decide +kernel⟩
  | man => exact ⟨'만', [], rfl, by decide +kernel⟩
  | won => exact ⟨'원', [], rfl, by decide +kernel⟩

theorem not_isDecimal_of_isSpace {c : Char} (h : isSpace c = true) :
    isDecimal c = false ∧ isSeparator c = false := by
  constructor
  · by_contra hdecimal
    rw [Bool.not_eq_false] at hdecimal
    rw [isSpace_of_isDecimal hdecimal] at h
    cases h
  · by_contra hseparator
    rw [Bool.not_eq_false, isSeparator, Bool.or_eq_true, beq_iff_eq, beq_iff_eq] at hseparator
    rcases hseparator with rfl | rfl <;> exact absurd h (by decide)

theorem dropWhile_isSpace {gap cs : List Char} (hgap : ∀ c ∈ gap, isSpace c = true)
    (hcs : ∀ c ∈ cs.head?, isSpace c = false) : (gap ++ cs).dropWhile isSpace = cs := by
  rw [List.dropWhile_append_of_pos hgap]
  cases cs with
  | nil => rfl
  | cons c cs => rw [List.dropWhile_cons_of_neg (by simp [hcs c rfl])]

theorem readAmount_number (number : AmountNumber) (tail : List Char) :
    ∃ length : AmountMatch → Nat, readAmount (number.text ++ tail) =
      (AMOUNT_UNIT_NAMES.find? (beginsWith
        (((number.text ++ tail).drop (readDigits (number.text ++ tail)).length).dropWhile
          isSpace))).map
      fun unit =>
        let behind :=
          ((number.text ++ tail).drop (readDigits (number.text ++ tail)).length).dropWhile isSpace
        let m : AmountMatch := ⟨readDigits (number.text ++ tail), unit,
          readMarker ((behind.drop unit.length).dropWhile isSpace), 0⟩
        { m with length := length m } := by
  obtain ⟨c, cs, htext, hc⟩ := number.exists_text
  have hne : ((number.text ++ tail).takeWhile isDecimal).isEmpty = false := by
    rw [htext, List.cons_append, List.takeWhile_cons_of_pos hc]
    rfl
  refine ⟨fun m => (number.text ++ tail).length -
    (((((number.text ++ tail).drop (readDigits (number.text ++ tail)).length).dropWhile
      isSpace).drop
      m.unit.length).dropWhile isSpace |>.drop ((m.marker.map String.length).getD 0)).length, ?_⟩
  unfold readAmount
  rw [hne]
  rfl

namespace AmountLiteral

variable {literal : AmountLiteral} {after : List Char}

theorem head_behindFirst (hdirect : ¬ literal.Direct) :
    (literal.behindFirst ++ after).head? ≠ some '원' ∧
      readMarker ((literal.behindFirst ++ after).dropWhile isSpace) = none := by
  have hmarker : ∀ c cs, c = '원' ∨ isDecimal c = true → readMarker (c :: cs) = none := by
    intro c cs hc
    unfold readMarker
    rw [List.find?_eq_none]
    intro word hword
    have hfirst : ∀ word ∈ COMPARATOR_BY_MARKER.map Prod.fst, ∃ d ds, word.toList = d :: ds ∧
        d ≠ '원' ∧ isDecimal d = false := by
      simp only [COMPARATOR_BY_MARKER, List.map_cons, List.map_nil, List.forall_mem_cons]
      refine ⟨⟨'이', ['상'], rfl, ?_⟩, ⟨'초', ['과'], rfl, ?_⟩, ⟨'넘', ['는'], rfl, ?_⟩,
        ⟨'넘', ['은'], rfl, ?_⟩, ⟨'넘', ['게'], rfl, ?_⟩, ⟨'이', ['하'], rfl, ?_⟩,
        ⟨'미', ['만'], rfl, ?_⟩, nofun⟩ <;> decide +kernel
    obtain ⟨d, ds, hword, hwon, hdecimal⟩ := hfirst word hword
    unfold beginsWith
    rw [hword]
    have hne : d ≠ c := by
      rintro rfl
      rcases hc with hc | hc
      · exact hwon hc
      · rw [hdecimal] at hc
        cases hc
    simp [hne]
  have hspaceWon : isSpace '원' = false := by decide
  unfold behindFirst
  cases hrest : literal.rest with
  | cons e rest =>
    have hblank := literal.rest_blank e (hrest ▸ List.mem_cons_self)
    obtain ⟨c, cs, htext, hc⟩ := e.2.number.exists_text
    have hgroup : e.2.text = c :: (cs ++ e.2.gap ++ e.2.unit.text.toList) := by
      rw [AmountGroup.text, htext]
      rfl
    rw [List.flatMap_cons, hgroup, List.append_assoc e.1, List.append_assoc, List.append_assoc e.1]
    constructor
    · cases hgap : e.1 with
      | nil =>
        rintro ⟨⟩
        exact absurd hc (by decide +kernel)
      | cons d ds =>
        rintro ⟨⟩
        have hd := hblank '원' (hgap ▸ List.mem_cons_self)
        rw [hspaceWon] at hd
        cases hd
    · rw [List.cons_append, dropWhile_isSpace hblank
        (by rintro c' ⟨⟩; exact isSpace_of_isDecimal hc)]
      exact hmarker _ _ (.inr hc)
  | nil =>
    rw [List.flatMap_nil, List.nil_append]
    cases hcurrency : literal.currency with
    | none => exact absurd ⟨hrest, .inl hcurrency⟩ hdirect
    | some gap =>
      have hblank : ∀ c ∈ gap, isSpace c = true := by
        have hblank := literal.currency_blank
        rwa [hcurrency] at hblank
      rw [Option.map_some, Option.getD_some, List.append_assoc]
      constructor
      · cases gap with
        | nil => exact absurd ⟨hrest, .inr hcurrency⟩ hdirect
        | cons d ds =>
          rintro ⟨⟩
          have hd := hblank '원' List.mem_cons_self
          rw [hspaceWon] at hd
          cases hd
      · rw [List.cons_append, dropWhile_isSpace hblank (by rintro c' ⟨⟩; exact hspaceWon)]
        exact hmarker _ _ (.inl rfl)

/-- The text behind the number of the first group. -/
def behindNumber (literal : AmountLiteral) (after : List Char) : List Char :=
  literal.first.gap ++ (literal.first.unit.text.toList ++ (literal.behindFirst ++ after))

theorem text_append (literal : AmountLiteral) (after : List Char) :
    literal.text ++ after = literal.first.number.text ++ literal.behindNumber after := by
  rw [text, AmountGroup.text, behindNumber]
  simp only [List.append_assoc]

theorem head_behindNumber (literal : AmountLiteral) (after : List Char) :
    ∀ c ∈ (literal.behindNumber after).head?, isDecimal c = false ∧ isSeparator c = false := by
  have hblank := literal.first.gap_blank
  obtain ⟨u, us, hunitText, hdecimal, hseparator, -⟩ := exists_unit_text literal.first.unit
  unfold behindNumber
  cases hgap : literal.first.gap with
  | nil =>
    rw [hunitText]
    rintro c ⟨⟩
    exact ⟨hdecimal, hseparator⟩
  | cons d ds =>
    rintro c ⟨⟩
    exact not_isDecimal_of_isSpace (hblank d (hgap ▸ List.mem_cons_self))

theorem dropWhile_behindNumber (literal : AmountLiteral) (after : List Char) :
    (literal.behindNumber after).dropWhile isSpace =
      literal.first.unit.text.toList ++ (literal.behindFirst ++ after) := by
  obtain ⟨u, us, hunitText, -, -, hspace⟩ := exists_unit_text literal.first.unit
  refine dropWhile_isSpace literal.first.gap_blank ?_
  rw [hunitText]
  rintro c ⟨⟩
  exact hspace

theorem currency_of_head (hopen : literal.Open → after.head? ≠ some '원')
    (hwon : (literal.behindFirst ++ after).head? = some '원' ∧ literal.first.unit ≠ .won) :
    literal.rest = [] ∧ literal.currency = some [] := by
  have hdirect : literal.Direct := by_contra fun hdirect => (head_behindFirst hdirect).1 hwon.1
  refine ⟨hdirect.1, hdirect.2.resolve_left fun hnone => ?_⟩
  have hbehindFirst : literal.behindFirst = [] := by
    rw [behindFirst, hdirect.1, hnone]
    rfl
  rw [hbehindFirst, List.nil_append] at hwon
  refine hopen ⟨hnone, ?_⟩ hwon.1
  rw [hdirect.1]
  simpa using hwon.2

theorem head_of_currency (h : literal.rest = [] ∧ literal.currency = some []) :
    (literal.behindFirst ++ after).head? = some '원' ∧ literal.first.unit ≠ .won := by
  have hne : literal.currency ≠ none := by simp [h.2]
  refine ⟨?_, literal.currency_once hne _ List.mem_cons_self⟩
  rw [behindFirst, h.1, h.2]
  rfl

theorem readAmount_of_readable (hopen : literal.Open → after.head? ≠ some '원')
    (h : literal.Readable) :
    ∃ m, readAmount (literal.text ++ after) = some m ∧ m.raw = literal.first.number.text ∧
      AMOUNT_UNITS.lookup m.unit = some (.ofNat literal.first.unit.scale) ∧
      (literal.Direct → comparatorOf m.marker = comparatorAfter after) ∧
      (¬ literal.Direct → comparatorOf m.marker = .gte) := by
  obtain ⟨hseparators, hunit⟩ := h
  have hhead := literal.head_behindNumber after
  have hdigits := AmountNumber.readDigits_text hseparators (fun c hc => (hhead c hc).1)
    fun c hc => (hhead c hc).2
  obtain ⟨length, hread⟩ := readAmount_number literal.first.number (literal.behindNumber after)
  rw [hdigits, List.drop_left, dropWhile_behindNumber, find_unit] at hread
  rw [text_append]
  by_cases hwon : (literal.behindFirst ++ after).head? = some '원' ∧ literal.first.unit ≠ .won
  · -- the currency belongs to the unit
    have hcurrency := currency_of_head hopen hwon
    have hdirect : literal.Direct := ⟨hcurrency.1, .inr hcurrency.2⟩
    have hbehindFirst : literal.behindFirst = ['원'] := by
      rw [behindFirst, hcurrency.1, hcurrency.2]
      rfl
    have htail : (literal.first.unit.text.toList ++ (literal.behindFirst ++ after)).drop
        (literal.first.unit.text ++ "원").length = after := by
      have hlength : (literal.first.unit.text ++ "원").length =
          (literal.first.unit.text.toList ++ ['원']).length := by
        rw [String.length_append, List.length_append, String.length_toList]
        rfl
      rw [hbehindFirst, hlength, ← List.append_assoc, List.drop_left]
    rw [if_pos hwon] at hread
    refine ⟨_, hread, rfl, (lookup_unit _).1 hwon.2, fun _ => ?_, fun hnot => absurd hdirect hnot⟩
    show comparatorOf (readMarker ((List.drop _ _).dropWhile isSpace)) = _
    rw [htail]
    rfl
  · have hplain : literal.first.unit.Plain := hunit.resolve_right fun hcurrency =>
      hwon (head_of_currency hcurrency)
    have htail : (literal.first.unit.text.toList ++ (literal.behindFirst ++ after)).drop
        literal.first.unit.text.length = literal.behindFirst ++ after := by
      rw [← String.length_toList, List.drop_left]
    rw [if_neg hwon, if_pos hplain] at hread
    refine ⟨_, hread, rfl, (lookup_unit _).2 hplain, fun hdirect => ?_, fun hdirect => ?_⟩
    · have hnone : literal.currency = none := hdirect.2.resolve_right fun hcurrency =>
        hwon (head_of_currency ⟨hdirect.1, hcurrency⟩)
      have hbehindFirst : literal.behindFirst = [] := by
        rw [behindFirst, hdirect.1, hnone]
        rfl
      show comparatorOf (readMarker ((List.drop _ _).dropWhile isSpace)) = _
      rw [htail, hbehindFirst]
      rfl
    · show comparatorOf (readMarker ((List.drop _ _).dropWhile isSpace)) = _
      rw [htail, (head_behindFirst hdirect).2]
      rfl

theorem readable_of_readAmount (hopen : literal.Open → after.head? ≠ some '원')
    (h : readAmount (literal.text ++ after) ≠ none) : literal.Readable := by
  by_contra hnot
  refine h ?_
  obtain ⟨length, hread⟩ := readAmount_number literal.first.number (literal.behindNumber after)
  rw [text_append, hread, Option.map_eq_none_iff]
  rcases Nat.lt_or_ge 1 literal.first.number.separators with hmany | hfew
  · -- the pattern stops at the second separator
    obtain ⟨c, cs, hrest, hc⟩ := AmountNumber.readDigits_text_of_lt hmany
      (literal.behindNumber after)
    rw [isSeparator, Bool.or_eq_true, beq_iff_eq, beq_iff_eq] at hc
    have hdrop : ∀ text read : List Char, text = read ++ c :: cs → text.drop read.length = c ::
        cs := by
      rintro text read rfl
      exact List.drop_left
    rw [hdrop _ _ hrest]
    rcases hc with rfl | rfl <;> simp [isSpace, AMOUNT_UNIT_NAMES, beginsWith]
  · have hhead := literal.head_behindNumber after
    rw [AmountNumber.readDigits_text hfew (fun c hc => (hhead c hc).1) fun c hc => (hhead c hc).2,
      List.drop_left, dropWhile_behindNumber, find_unit]
    have hneither := not_or.mp fun hunit => hnot ⟨hfew, hunit⟩
    rw [if_neg fun hwon => hneither.2 (currency_of_head hopen hwon), if_neg hneither.1]

end AmountLiteral

theorem amountAt_eq_none {text : List Char} {place : Nat} :
    amountAt text place = none ↔ readAmount (text.drop place) = none := Option.map_eq_none_iff

theorem head_amountSpans (text : List Char) {place : Nat} (hplace : place ≤ text.length) :
    (∃ stop, (amountSpans text).head? = some (place, stop)) ↔
      (∀ earlier < place, readAmount (text.drop earlier) = none) ∧ readAmount (text.drop place) ≠
      none := by
  unfold amountSpans
  constructor
  · rintro ⟨stop, hhead⟩
    obtain ⟨rest, hspans⟩ := List.head?_eq_some_iff.mp hhead
    obtain ⟨-, -, hfound⟩ := mem_finditer (hspans ▸ List.mem_cons_self)
    refine ⟨fun earlier hearlier => ?_, fun hnone => ?_⟩
    · by_contra hne
      obtain ⟨m, hm, hbegin, -⟩ := exists_match (Nat.zero_le earlier) (hearlier.le.trans hplace)
        (mt amountAt_eq_none.mp hne)
      have hordered := pairwise_finditer (amountAt text) 0 text.length
      rw [hspans] at hm hordered
      rcases List.mem_cons.mp hm with rfl | hm
      · exact absurd hbegin hearlier.not_ge
      · have hle := (List.pairwise_cons.mp hordered).1 m hm
        have hresume : place + 1 ≤ resume (place, stop) := le_max_right _ _
        omega
    · rw [amountAt_eq_none.mpr hnone] at hfound
      cases hfound
  · rintro ⟨hbefore, hhere⟩
    obtain ⟨e, he⟩ := Option.ne_none_iff_exists'.mp (mt amountAt_eq_none.mp hhere)
    have hpast :
        finditer (amountAt text) 0 text.length = finditer (amountAt text) place text.length :=
      finditer_past (Nat.zero_le place) fun earlier _ hearlier _ =>
        amountAt_eq_none.mpr (hbefore earlier hearlier)
    refine ⟨e, ?_⟩
    rw [hpast, finditer_some hplace he]
    rfl

theorem spans_of_findAmount {text : String} {condition : Option AmountCondition}
    {spans : List (Nat × Nat)}
    (h : findAmount text = .ok (condition, spans)) : spans = amountSpans text.toList := by
  unfold findAmount at h
  dsimp only at h
  split at h
  · exact (Prod.mk.inj (Except.ok.inj h)).2.symm
  · obtain ⟨condition', -, h⟩ := bind_eq_ok.mp h
    exact (Prod.mk.inj (Except.ok.inj h)).2.symm

theorem findAmount_eq {text : String} {place stop : Nat} {m : AmountMatch}
    (hhead : (amountSpans text.toList).head? = some (place, stop))
    (hm : readAmount (text.toList.drop place) = some m) : findAmount text =
      (amountCondition text.toList place m).map fun condition =>
        (some condition, amountSpans text.toList) := by
  unfold findAmount
  dsimp only
  rw [hhead]
  dsimp only [Option.bind_some]
  rw [hm]
  dsimp only [Option.map_some]
  cases amountCondition text.toList place m <;> rfl

theorem map_amountCondition {text : List Char} {place : Nat} {m : AmountMatch}
    {number : AmountNumber} {scale : Nat} (hraw : m.raw = number.text)
    (hunit : AMOUNT_UNITS.lookup m.unit = some (.ofNat scale)) :
    (amountCondition text place m).map (fun condition =>
        (condition.normalizedValue.value, condition.comparator, condition.currency)) =
      (Decimal.roundedOr Decimal.defaultPrec (number.value * scale)).map fun value =>
        (value, comparatorOf m.marker, "KRW") := by
  obtain ⟨d, hread, hvalue⟩ := number.exists_ofStr
  have hprec : 0 < Decimal.defaultPrec := by decide
  have hmul := Decimal.map_value_mul hprec d (.ofNat scale)
  rw [hvalue, Decimal.value_ofNat] at hmul
  unfold amountCondition
  rw [hraw, hread, hunit, ← hmul]
  dsimp only [Option.getD_some]
  cases Decimal.mul Decimal.defaultPrec d (.ofNat scale) <;> rfl

/-- The condition is that of an amount in a question exactly if nothing in front of it reads as an
amount, the pattern fits its first group, this group alone has the rounded value of the whole
amount, and the marker stands directly behind it or asks for at least the amount. -/
theorem findAmount_literal_iff (before : List Char) (literal : AmountLiteral) (after : List Char)
    (hopen : literal.Open → after.head? ≠ some '원') :
    (∃ condition spans, findAmount (String.ofList (before ++ (literal.text ++ after))) =
        .ok (some condition, spans) ∧ (∃ stop, spans.head? = some (before.length, stop)) ∧
        condition.normalizedValue.value = literal.amount ∧
        condition.comparator = comparatorAfter after ∧ condition.currency = "KRW") ↔
      (∀ place < before.length, readAmount ((before ++ (literal.text ++ after)).drop place) =
        none) ∧ literal.Readable ∧
        Decimal.roundedOr Decimal.defaultPrec literal.first.value = .ok literal.amount ∧
        (literal.Direct ∨ comparatorAfter after = .gte) := by
  have htext : (String.ofList (before ++ (literal.text ++ after))).toList = _ :=
    String.toList_ofList
  have hhere : (before ++ (literal.text ++ after)).drop before.length = literal.text ++ after :=
    List.drop_left
  have hlength : before.length ≤ (before ++ (literal.text ++ after)).length := by simp
  have hhead := head_amountSpans (before ++ (literal.text ++ after)) hlength
  rw [hhere] at hhead
  -- what the pattern takes at the amount, and the condition it gives
  have hcondition : ∀ stop, (amountSpans (before ++ (literal.text ++ after))).head? =
      some (before.length, stop) → literal.Readable →
      ∃ m, findAmount (String.ofList (before ++ (literal.text ++ after))) =
          (amountCondition (before ++ (literal.text ++ after)) before.length m).map
          (fun condition =>
            (some condition, amountSpans (before ++ (literal.text ++ after)))) ∧
        (amountCondition (before ++ (literal.text ++ after)) before.length m).map (fun condition =>
            (condition.normalizedValue.value, condition.comparator, condition.currency)) =
          (Decimal.roundedOr Decimal.defaultPrec literal.first.value).map (fun value =>
            (value, comparatorOf m.marker, "KRW")) ∧
        (literal.Direct → comparatorOf m.marker = comparatorAfter after) ∧
        (¬ literal.Direct → comparatorOf m.marker = .gte) := by
    intro stop hspan hreadable
    obtain ⟨m, hm, hraw, hunit, hdirect, hindirect⟩ :=
      AmountLiteral.readAmount_of_readable hopen hreadable
    rw [← hhere] at hm
    rw [← htext] at hspan hm
    have hfind := findAmount_eq hspan hm
    rw [htext] at hfind
    exact ⟨m, hfind, map_amountCondition hraw hunit, hdirect, hindirect⟩
  constructor
  · rintro ⟨condition, spans, hfind, ⟨stop, hspan⟩, hvalue, hcomparator, -⟩
    have hspans := spans_of_findAmount hfind
    rw [htext] at hspans
    rw [hspans] at hspan
    obtain ⟨hbefore, hsome⟩ := hhead.mp ⟨stop, hspan⟩
    have hreadable := AmountLiteral.readable_of_readAmount hopen hsome
    obtain ⟨m, hfind', hmap, hdirect, hindirect⟩ := hcondition stop hspan hreadable
    rw [hfind'] at hfind
    cases hmade : amountCondition (before ++ (literal.text ++ after)) before.length m with
    | error e =>
      rw [hmade] at hfind
      cases hfind
    | ok condition' =>
      rw [hmade] at hfind hmap
      obtain rfl := Option.some.inj (Prod.mk.inj (Except.ok.inj hfind)).1
      cases hrounded : Decimal.roundedOr Decimal.defaultPrec literal.first.value with
      | error e =>
        rw [hrounded] at hmap
        cases hmap
      | ok value =>
        rw [hrounded] at hmap
        obtain ⟨hvalue', hrest⟩ := Prod.mk.inj (Except.ok.inj hmap)
        have hcomparator' := (Prod.mk.inj hrest).1
        refine ⟨hbefore, hreadable, by rw [← hvalue, hvalue'], ?_⟩
        by_cases hd : literal.Direct
        · exact .inl hd
        · exact .inr (by rw [← hcomparator, hcomparator', hindirect hd])
  · rintro ⟨hbefore, hreadable, hrounded, hmarker⟩
    have hsome : readAmount (literal.text ++ after) ≠ none := by
      obtain ⟨m, hm, -⟩ := AmountLiteral.readAmount_of_readable hopen hreadable
      rw [hm]
      simp
    obtain ⟨stop, hspan⟩ := hhead.mpr ⟨hbefore, hsome⟩
    obtain ⟨m, hfind, hmap, hdirect, hindirect⟩ := hcondition stop hspan hreadable
    rw [hrounded] at hmap
    cases hmade : amountCondition (before ++ (literal.text ++ after)) before.length m with
    | error e =>
      rw [hmade] at hmap
      cases hmap
    | ok condition =>
      rw [hmade] at hmap hfind
      obtain ⟨hvalue, hrest⟩ := Prod.mk.inj (Except.ok.inj hmap)
      obtain ⟨hcomparator, hcurrency⟩ := Prod.mk.inj hrest
      refine ⟨condition, _, hfind, ⟨stop, hspan⟩, hvalue, ?_, hcurrency⟩
      rw [hcomparator]
      by_cases hd : literal.Direct
      · exact hdirect hd
      · rw [hindirect hd, hmarker.resolve_left hd]

/-- A number of one digit in front of a unit. -/
def digitGroup (c : Char) (h : isDecimal c = true) (unit : AmountUnit) : AmountGroup where
  number := ⟨[c], [], [], by simp, by simpa using h, nofun, nofun⟩
  gap := []
  unit := unit
  gap_blank := nofun

/-- One group with the currency behind it. -/
def fiveEok : AmountLiteral where
  first := digitGroup '5' (by decide +kernel) .eok
  rest := []
  currency := some []
  descending := by decide
  rest_blank := nofun
  currency_blank := nofun
  currency_once _ := by decide

/-- Two groups with the currency behind them. -/
def twoGroups : AmountLiteral where
  first := digitGroup '1' (by decide +kernel) .jo
  rest := [([' '], digitGroup '5' (by decide +kernel) .eok)]
  currency := some []
  descending := by decide
  rest_blank := by decide
  currency_blank := nofun
  currency_once _ := by decide

/-- At least five hundred million won. -/
theorem findAmount_fiveEok :
    ∃ condition spans, findAmount
      (String.ofList ("수주액 ".toList ++ (fiveEok.text ++ " 이상".toList))) =
      .ok (some condition, spans) ∧ (∃ stop, spans.head? = some (4, stop)) ∧
      condition.normalizedValue.value = fiveEok.amount ∧
      condition.comparator = comparatorAfter " 이상".toList ∧ condition.currency = "KRW" :=
  (findAmount_literal_iff "수주액 ".toList fiveEok " 이상".toList (fun _ => by decide)).mpr
    ⟨by decide +kernel, ⟨by decide, .inr ⟨rfl, rfl⟩⟩, by decide +kernel, .inl ⟨rfl, .inr rfl⟩⟩

/-- The second group of an amount is left out. -/
theorem findAmount_twoGroups : ∃ condition spans,
    findAmount (String.ofList ("수주액 ".toList ++ (twoGroups.text ++ " 이하".toList))) =
      .ok (some condition, spans) ∧
    condition.normalizedValue.value = 1000000000000 ∧ twoGroups.amount = 1000500000000 ∧
    condition.comparator = .gte ∧ comparatorAfter " 이하".toList = .lte := by
  have hfind : (findAmount (String.ofList ("수주액 ".toList ++ (twoGroups.text ++ " 이하".toList)))).map
      (fun found => found.1.map fun condition =>
        (condition.normalizedValue, condition.comparator)) =
        .ok (some (.ofNat 1000000000000, .gte)) := by decide +kernel
  cases hfound : findAmount (String.ofList ("수주액 ".toList ++ (twoGroups.text ++ " 이하".toList))) with
  | error e =>
    rw [hfound] at hfind
    cases hfind
  | ok found =>
    rw [hfound] at hfind
    obtain ⟨condition, spans⟩ := found
    obtain ⟨condition', rfl, hcondition⟩ := Option.map_eq_some_iff.mp (Except.ok.inj hfind)
    obtain ⟨hvalue, hcomparator⟩ := Prod.mk.inj hcondition
    refine ⟨condition', spans, rfl, ?_, by decide +kernel, hcomparator, by decide +kernel⟩
    rw [hvalue, Decimal.value_ofNat]
    rfl

end Dayjaview.Ontology
