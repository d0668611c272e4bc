import Dayjaview.Core.Builtins
import Dayjaview.Core.JsonValue
import Mathlib.Data.List.TakeWhile

/-!
# Reading values that were read from outside

A value from outside is read through its text, which may hold lone surrogates as the strings of the
value may. A lone surrogate is no digit, no letter and no blank. A value has a digest exactly if it
can be written and holds no lone surrogate.
-/

namespace Dayjaview

instance : Coe String (List CodePoint) := ⟨codePoints⟩

namespace CodePoint

/-- The code point is half of a surrogate pair. -/
def isSurrogate : CodePoint → Bool
  | char _ => false
  | surrogate _ => true

/-- The character of a code point, if it is one. -/
def char? : CodePoint → Option Char
  | char c => some c
  | surrogate _ => none

variable [UnicodeTable]

/-- The capital letters of a code point. -/
def upper : CodePoint → List CodePoint
  | char c => (UnicodeTable.upper c).map char
  | surrogate n => [surrogate n]

def isdigit : CodePoint → Bool
  | char c => UnicodeTable.isdigit c
  | surrogate _ => false

end CodePoint

/-- The characters among some code points. -/
def charsOf (cs : List CodePoint) : List Char := cs.filterMap CodePoint.char?

/-- The characters of a text are its characters. -/
@[simp] theorem charsOf_codePoints (s : String) : charsOf (codePoints s) = s.toList := by
  rw [charsOf, codePoints, List.filterMap_map]
  exact List.filterMap_some

/-- A text is told by its code points. -/
theorem codePoints_injective : Function.Injective codePoints := by
  intro s t h
  have hchars := congrArg charsOf h
  rw [charsOf_codePoints, charsOf_codePoints] at hchars
  exact String.toList_injective hchars

/-- The code points of two texts, one after the other. -/
theorem codePoints_append (s t : String) :
    codePoints (s ++ t) = codePoints s ++ codePoints t := by
  rw [codePoints, String.toList_append, List.map_append]
  rfl

variable {cs : List CodePoint}

/-- Only a lone surrogate keeps a text from being encoded. -/
theorem encodable_error {e : Error} (h : encodable cs = .error e) :
    e = surrogatesNotAllowed := by
  have hpoints : ∀ cs : List CodePoint, cs.mapM CodePoint.character = .error e →
      e = surrogatesNotAllowed := by
    intro cs h
    induction cs with
    | nil => cases h
    | cons c cs ih =>
      rw [List.mapM_cons] at h
      rcases bind_eq_error.mp h with h | ⟨d, -, h⟩
      · cases c with
        | char c => cases h
        | surrogate n => exact (Except.error.inj h).symm
      · rcases bind_eq_error.mp h with h | ⟨l, -, h⟩
        · exact ih h
        · cases h
  exact hpoints cs (map_eq_error.mp h)

/-- Code points without a lone surrogate are a text. -/
theorem any_isSurrogate_eq_false :
    cs.any CodePoint.isSurrogate = false ↔ ∃ s, cs = codePoints s := by
  have hany : cs.any CodePoint.isSurrogate = false ↔ ∀ n, CodePoint.surrogate n ∉ cs := by
    rw [List.any_eq_false]
    constructor
    · exact fun h n hn => h _ hn rfl
    · rintro h (c | n) hc
      · exact Bool.false_ne_true
      · exact absurd hc (h n)
  rw [hany, ← encodable_isOk]
  simp only [encodable_eq_ok]

section

variable [UnicodeTable]

/-- The text in capital letters. -/
def upperPoints (cs : List CodePoint) : List CodePoint := cs.flatMap CodePoint.upper

def isDigitPoints (cs : List CodePoint) : Bool := !cs.isEmpty && cs.all CodePoint.isdigit

/-- Capital letters of a text. -/
theorem upperPoints_codePoints (s : String) :
    upperPoints (codePoints s) = codePoints (upperText s) := by
  rw [upperPoints, codePoints, codePoints, upperText, String.toList_ofList, List.flatMap_map,
    List.map_flatMap]
  rfl

/-- Digits of a text. -/
theorem isDigitPoints_codePoints (s : String) : isDigitPoints (codePoints s) = isDigitText s := by
  rw [isDigitPoints, isDigitText, codePoints, List.all_map, List.isEmpty_map]
  rfl

/-- What consists of digits is a text. -/
theorem eq_codePoints_of_isDigitPoints {cs : List CodePoint} (h : isDigitPoints cs = true) :
    ∃ s, cs = codePoints s := by
  refine any_isSurrogate_eq_false.mp (List.any_eq_false.mpr fun c hc => ?_)
  have hdigit := List.all_eq_true.mp (Bool.and_eq_true_iff.mp h).2 c hc
  cases c with
  | char c => exact Bool.false_ne_true
  | surrogate n => cases hdigit

end

/-- Stripping a text. -/
theorem stripPoints_codePoints (s : String) :
    stripPoints (codePoints s) = codePoints (strip s) := by
  rw [stripPoints, codePoints, codePoints, strip, stripChars, String.toList_ofList]
  simp only [List.dropWhile_map, ← List.map_reverse]
  rfl

/-- Nothing but whitespace is stripped to nothing. -/
theorem stripPoints_eq_nil_iff :
    stripPoints cs = [] ↔ ∀ c ∈ cs, c.isSpace = true := by
  rw [stripPoints, List.reverse_eq_nil_iff, List.dropWhile_eq_nil_iff]
  constructor
  · intro h
    rw [← List.dropWhile_eq_nil_iff]
    by_contra hdrop
    have hhead := List.head_dropWhile_not CodePoint.isSpace hdrop
    rw [h _ (List.mem_reverse.mpr (List.head_mem hdrop))] at hhead
    cases hhead
  · exact fun h c hc => h c ((List.dropWhile_suffix _).subset (List.mem_reverse.mp hc))

/-- Stripping keeps whatever is no whitespace. -/
theorem mem_stripPoints {c : CodePoint} (hspace : c.isSpace = false) :
    c ∈ stripPoints cs ↔ c ∈ cs := by
  have hdrop : ∀ ds : List CodePoint, c ∈ ds.dropWhile CodePoint.isSpace ↔ c ∈ ds := by
    intro ds
    refine ⟨fun h => (List.dropWhile_suffix _).subset h, fun h => ?_⟩
    rw [← List.takeWhile_append_dropWhile (p := CodePoint.isSpace) (l := ds), List.mem_append] at h
    refine h.resolve_left fun htaken => ?_
    rw [List.mem_takeWhile_imp htaken] at hspace
    cases hspace
  rw [stripPoints, List.mem_reverse, hdrop, List.mem_reverse, hdrop]

/-- Stripping takes no lone surrogate away. -/
theorem any_isSurrogate_stripPoints (cs : List CodePoint) :
    (stripPoints cs).any CodePoint.isSurrogate = cs.any CodePoint.isSurrogate := by
  rw [Bool.eq_iff_iff, List.any_eq_true, List.any_eq_true]
  refine exists_congr fun c => and_congr_left fun hlone => mem_stripPoints ?_
  cases c with
  | char c => cases hlone
  | surrogate n => rfl

namespace JsonValue

/-- The fields of an object. -/
abbrev Fields := List (List CodePoint × JsonValue)

mutual

/-- Decide equality of two values. -/
def decEq (a b : JsonValue) : Decidable (a = b) :=
  if h : a.ctorIdx = b.ctorIdx then
    match a, b, h with
    | .null, .null, _ => isTrue rfl
    | .bool a, .bool b, _ => decidable_of_iff (a = b) (by simp)
    | .int a, .int b, _ => decidable_of_iff (a = b) (by simp)
    | .float a, .float b, _ => decidable_of_iff (a = b) (by simp)
    | .str a, .str b, _ => decidable_of_iff (a = b) (by simp)
    | .arr a, .arr b, _ => @decidable_of_iff _ (a = b) (by simp) (decEqItems a b)
    | .obj a, .obj b, _ => @decidable_of_iff _ (a = b) (by simp) (decEqFields a b)
  else isFalse fun heq => h (congrArg JsonValue.ctorIdx heq)

/-- Decide equality of two arrays. -/
def decEqItems : (a b : List JsonValue) → Decidable (a = b)
  | [], [] => isTrue rfl
  | [], _ :: _ | _ :: _, [] => isFalse (by simp)
  | x :: a, y :: b =>
    @decidable_of_iff _ (x = y ∧ a = b) (by simp)
      (@instDecidableAnd _ _ (decEq x y) (decEqItems a b))

/-- Decide equality of two field lists. -/
def decEqFields : (a b : Fields) → Decidable (a = b)
  | [], [] => isTrue rfl
  | [], _ :: _ | _ :: _, [] => isFalse (by simp)
  | (k, x) :: a, (l, y) :: b =>
    @decidable_of_iff _ (k = l ∧ x = y ∧ a = b) (by simp [and_assoc])
      (@instDecidableAnd _ _ _ (@instDecidableAnd _ _ (decEq x y) (decEqFields a b)))

end

instance : DecidableEq JsonValue := decEq

/-- What showing a value takes from the running program. -/
class Printer extends CharTable, Encoder

/-- A program that prints every character; the only floating-point number it shows is zero. -/
@[reducible] def Printer.plain : Printer where
  isPrintable _ := true
  nesting := 1000
  deep := by decide
  doubleText _ := "0.0".toList

/-- A code point of a quoted text. -/
def reprPoint [CharTable] (quote : Char) : CodePoint → List Char
  | .char c => Json.reprChar quote c
  | .surrogate n => '\\' :: 'u' :: Json.hexPadded 4 (0xD800 + n)

/-- A quoted text; double quotes are used when only single ones occur in it. -/
def reprText [CharTable] (cs : List CodePoint) : List Char :=
  let quote := if .char '\'' ∈ cs ∧ .char '"' ∉ cs then '"' else '\''
  quote :: cs.flatMap (reprPoint quote) ++ [quote]

/-- The text of a floating-point number. -/
def floatText [Encoder] : Double → List Char
  | .nan => "nan".toList
  | .infinite negative => if negative then "-inf".toList else "inf".toList
  | x => Encoder.doubleText x

mutual

/-- The representation of a value inside a container. -/
def repr [Printer] : JsonValue → List Char
  | .null => "None".toList
  | .bool true => "True".toList
  | .bool false => "False".toList
  | .int n => Json.intChars n
  | .float x => floatText x
  | .str cs => reprText cs
  | .arr [] => ['[', ']']
  | .arr (item :: items) => '[' :: (repr item ++ reprItems items)
  | .obj [] => ['\x7b', '\x7d']
  | .obj ((key, value) :: fields) =>
    '\x7b' :: (reprText key ++ ':' :: ' ' :: (repr value ++ reprFields fields))

/-- The further elements of a list. -/
def reprItems [Printer] : List JsonValue → List Char
  | [] => [']']
  | item :: items => ',' :: ' ' :: (repr item ++ reprItems items)

/-- The further fields of a dictionary. -/
def reprFields [Printer] : Fields → List Char
  | [] => ['\x7d']
  | (key, value) :: fields =>
    ',' :: ' ' :: (reprText key ++ ':' :: ' ' :: (repr value ++ reprFields fields))

end

/-- The text of a value: that of a string is the string itself. No integer has more digits than can
be read. -/
def text [Printer] : JsonValue → List CodePoint
  | .str cs => cs
  | v => v.repr.map .char

def truth : JsonValue → Bool
  | .null => false
  | .bool b => b
  | .int n => n != 0
  | .float x => x != .finite 0 && x != .negativeZero
  | .str cs => !cs.isEmpty
  | .arr items => !items.isEmpty
  | .obj fields => !fields.isEmpty

/-- The value of a field. -/
def field? (fields : Fields) (key : String) : Option JsonValue :=
  fields.lookup (codePoints key)

@[simp] theorem field?_cons_self (key : String) (value : JsonValue) (fields : Fields) :
    field? ((codePoints key, value) :: fields) key = some value := by
  simp [field?]

theorem field?_cons_of_ne {key : String} {name : List CodePoint} (value : JsonValue)
    (fields : Fields) (h : name ≠ codePoints key) :
    field? ((name, value) :: fields) key = field? fields key := by
  have hne : (codePoints key == name) = false := beq_eq_false_iff_ne.mpr h.symm
  rw [field?, List.lookup_cons, hne]
  rfl

/-- The item of a dictionary under a key, nothing when it is missing. -/
def getOr (v : JsonValue) (key : String) : JsonValue :=
  match v with
  | .obj fields => (field? fields key).getD .null
  | _ => .null

/-- What stands in a field stands in the value. -/
theorem mem_points_of_getOr {v : JsonValue} {key : String} {c : CodePoint}
    (h : c ∈ (v.getOr key).points) : c ∈ v.points := by
  unfold getOr at h
  split at h
  · next fields =>
    cases hfield : field? fields key with
    | none =>
      rw [hfield] at h
      cases h
    | some value =>
      rw [hfield] at h
      obtain ⟨l, r, hsplit, -⟩ := List.lookup_eq_some_iff.mp hfield
      refine mem_fieldsPoints.mpr ⟨(codePoints key, value), ?_, .inr h⟩
      rw [hsplit]
      exact List.mem_append_right _ List.mem_cons_self
  · cases h

/-- The text of a value has no lone surrogate that the value does not have. -/
theorem mem_points_of_text [Printer] {v : JsonValue} {c : CodePoint} (hlone : c.isSurrogate = true)
    (h : c ∈ v.text) : c ∈ v.points := by
  cases v with
  | str cs => exact h
  | _ =>
    obtain ⟨d, -, rfl⟩ := List.mem_map.mp h
    cases hlone

section

variable [Encoder]

mutual

/-- Writing a value fails at a long integer or at deep containers only. -/
theorem encode_error (left : Nat) : ∀ (v : JsonValue) {e : Error}, encode left v = .error e →
    e = tooLong ∨ e = tooDeep
  | .null, _, h | .bool true, _, h | .bool false, _, h | .float _, _, h | .str _, _, h => by cases h
  | .int n, e, h => by
    rw [encode, intText] at h
    split at h
    · cases h
    · exact .inl (Except.error.inj h).symm
  | .arr items, e, h => by
    rw [encode] at h
    split at h
    · exact .inr (Except.error.inj h).symm
    · rcases bind_eq_error.mp h with h | ⟨texts, -, h⟩
      · exact encodeItems_error (left - 1) items h
      · cases h
  | .obj fields, e, h => by
    rw [encode] at h
    split at h
    · exact .inr (Except.error.inj h).symm
    · rcases bind_eq_error.mp h with h | ⟨texts, -, h⟩
      · exact encodeFields_error (left - 1) fields h
      · cases h

/-- Writing the elements of an array fails as writing one of them. -/
theorem encodeItems_error (left : Nat) : ∀ (items : List JsonValue) {e : Error},
    encodeItems left items = .error e → e = tooLong ∨ e = tooDeep
  | [], _, h => by cases h
  | item :: items, e, h => by
    rw [encodeItems] at h
    rcases bind_eq_error.mp h with h | ⟨text, -, h⟩
    · exact encode_error left item h
    · rcases bind_eq_error.mp h with h | ⟨texts, -, h⟩
      · exact encodeItems_error left items h
      · cases h

/-- Writing the fields of an object fails as writing one of their values. -/
theorem encodeFields_error (left : Nat) : ∀ (fields : Fields) {e : Error},
    encodeFields left fields = .error e → e = tooLong ∨ e = tooDeep
  | [], _, h => by cases h
  | (key, value) :: fields, e, h => by
    rw [encodeFields] at h
    rcases bind_eq_error.mp h with h | ⟨text, -, h⟩
    · exact encode_error left value h
    · rcases bind_eq_error.mp h with h | ⟨texts, -, h⟩
      · exact encodeFields_error left fields h
      · cases h

end

end

/-- The digest of a value with sorted keys. -/
def digest [Encoder] [Sha256] (v : JsonValue) : Except Error String := do
  let text ← v.dumps
  return hexdigest (← encodable text)

/-- The value can be written, and no lone surrogate stands in it. -/
structure Encodable [Encoder] (v : JsonValue) : Prop where
  writable : v.Writable Encoder.nesting
  paired : v.points.any CodePoint.isSurrogate = false

section

variable [Encoder] {v : JsonValue}

/-- A value has a text that can be encoded exactly if it is encodable. -/
theorem encodable_iff : v.Encodable ↔ ∃ text s, v.dumps = .ok text ∧ encodable text = .ok s := by
  have hpaired : v.points.any CodePoint.isSurrogate = false ↔
      ∀ n, CodePoint.surrogate n ∉ v.points := by
    rw [any_isSurrogate_eq_false, ← encodable_isOk]
    simp only [encodable_eq_ok]
  constructor
  · intro h
    obtain ⟨text, htext⟩ := dumps_isOk.mpr h.writable
    obtain ⟨s, hs⟩ := encodable_isOk.mpr fun n hn =>
      hpaired.mp h.paired n ((surrogate_mem_dumps htext).mp hn)
    exact ⟨text, s, htext, hs⟩
  · rintro ⟨text, s, htext, hs⟩
    refine ⟨dumps_isOk.mp ⟨text, htext⟩, hpaired.mpr fun n hn => ?_⟩
    exact encodable_isOk.mp ⟨s, hs⟩ n ((surrogate_mem_dumps htext).mpr hn)

instance : Decidable v.Encodable :=
  decidable_of_iff ((v.dumps >>= encodable).toOption.isSome = true) <| by
    rw [encodable_iff]
    cases hdumps : v.dumps with
    | error e => simp [bind, Except.bind, Except.toOption]
    | ok text =>
      cases hencodable : encodable text with
      | error e => simp [bind, Except.bind, Except.toOption, hencodable]
      | ok s => simp [bind, Except.bind, Except.toOption, hencodable]

variable [Sha256]

/-- An encodable value has a digest. -/
theorem Encodable.digest (h : v.Encodable) : ∃ s, v.digest = .ok (hexdigest s) := by
  obtain ⟨text, s, htext, hs⟩ := encodable_iff.mp h
  exact ⟨s, bind_eq_ok.mpr ⟨text, htext, bind_eq_ok.mpr ⟨s, hs, rfl⟩⟩⟩

/-- A value without a digest is too long, too deep, or holds a lone surrogate. -/
theorem digest_error {e : Error} (h : v.digest = .error e) :
    e = tooLong ∨ e = tooDeep ∨ e = surrogatesNotAllowed := by
  rcases bind_eq_error.mp h with h | ⟨text, -, h⟩
  · exact (encode_error _ _ h).imp_right .inl
  · rcases bind_eq_error.mp h with h | ⟨s, -, h⟩
    · exact .inr (.inr (encodable_error h))
    · cases h

/-- Only an encodable value has a digest. -/
theorem encodable_of_digest {digest : String} (h : v.digest = .ok digest) : v.Encodable := by
  obtain ⟨text, htext, h⟩ := bind_eq_ok.mp h
  obtain ⟨s, hs, -⟩ := bind_eq_ok.mp h
  exact encodable_iff.mpr ⟨text, s, htext, hs⟩

end

end JsonValue

end Dayjaview
