import Dayjaview.Core.HalfEven
import Dayjaview.Core.CodePoints
import Dayjaview.Core.Json

/-!
# Writing values that were read from outside

A JSON text from outside may hold halves of surrogate pairs, undefined and infinite numbers. Such a
value is written with sorted keys and without blanks, unless an integer is too long or too many
containers stand in each other. The text holds a lone surrogate exactly if one of the value's
strings does.
-/

namespace Dayjaview

inductive Double where
  /-- The result of an undefined operation. -/
  | nan
  /-- A number that is too large. -/
  | infinite (negative : Bool)
  | negativeZero
  | finite (x : ℚ)
  deriving DecidableEq

namespace Double

/-- The place of a number in the order of numbers. -/
def extended : Double → Option (WithBot (WithTop ℚ))
  | nan => none
  | infinite true => some ⊥
  | infinite false => some ((⊤ : WithTop ℚ) : WithBot (WithTop ℚ))
  | negativeZero => some ((0 : ℚ) : WithTop ℚ)
  | finite x => some ((x : ℚ) : WithTop ℚ)

/-- One number is at most another one; the undefined number is not compared. -/
def le (a b : Double) : Bool :=
  match a.extended, b.extended with
  | some x, some y => decide (x ≤ y)
  | _, _ => false

/-- One number is less than another one. -/
def lt (a b : Double) : Bool :=
  match a.extended, b.extended with
  | some x, some y => decide (x < y)
  | _, _ => false

/-- An integer is too large for a floating-point number. -/
def tooLarge : Error := ⟨.overflowError, "int too large to convert to float"⟩

/-- The floating-point number nearest to an integer. -/
def ofInt (n : Int) : Except Error Double :=
  if |binary64 n| < 2 ^ 1024 then .ok (finite (binary64 n)) else .error tooLarge

end Double

/-- A JSON value; objects keep their fields in insertion order. -/
inductive JsonValue where
  | null
  | bool (b : Bool)
  | int (n : Int)
  | float (x : Double)
  | str (cs : List CodePoint)
  | arr (items : List JsonValue)
  | obj (fields : List (List CodePoint × JsonValue))

namespace JsonValue

/-- One key stands before another one. -/
def keyLe (a b : List CodePoint) : Prop := a.map CodePoint.toNat ≤ b.map CodePoint.toNat

instance (a b : List CodePoint) : Decidable (keyLe a b) :=
  inferInstanceAs (Decidable (a.map CodePoint.toNat ≤ b.map CodePoint.toNat))

mutual

/-- The value with the fields of every object in the order of their keys. -/
def sortKeys : JsonValue → JsonValue
  | .arr items => .arr (sortItems items)
  | .obj fields => .obj ((sortFields fields).insertionSort fun a b => keyLe a.1 b.1)
  | .null => .null
  | .bool b => .bool b
  | .int n => .int n
  | .float x => .float x
  | .str cs => .str cs

/-- The elements of an array with sorted keys. -/
def sortItems : List JsonValue → List JsonValue
  | [] => []
  | item :: items => sortKeys item :: sortItems items

/-- The fields of an object, each with sorted keys. -/
def sortFields : List (List CodePoint × JsonValue) → List (List CodePoint × JsonValue)
  | [] => []
  | (key, value) :: fields => (key, sortKeys value) :: sortFields fields

end

/-- A code point inside a string. -/
def escapePoint : CodePoint → List CodePoint
  | .char c => (Json.escapeChar c).map .char
  | .surrogate n => [.surrogate n]

def quoted (cs : List CodePoint) : List CodePoint := .char '"' :: cs.flatMap escapePoint ++
  [.char '"']

/-- An integer has too many digits. -/
def tooLong : Error :=
  ⟨.valueError, "Exceeds the limit (4300 digits) for integer string conversion; " ++
    "use sys.set_int_max_str_digits() to increase the limit"⟩

/-- Too many containers stand in each other. -/
def tooDeep : Error :=
  ⟨.recursionError, "maximum recursion depth exceeded while encoding a JSON object"⟩

/-- The decimal notation of an integer. -/
def intText (n : Int) : Except Error (List CodePoint) :=
  if (natText n.natAbs).length ≤ 4300 then .ok ((Json.intChars n).map .char) else .error tooLong

/-- What the writer takes from the running program. -/
class Encoder where
  nesting : Nat
  deep : 3 ≤ nesting
  doubleText : Double → List Char

section Encode

variable [Encoder]

mutual

/-- The text of a value without blanks, within some more containers. -/
def encode (left : Nat) : JsonValue → Except Error (List CodePoint)
  | .null => .ok (codePoints "null")
  | .bool true => .ok (codePoints "true")
  | .bool false => .ok (codePoints "false")
  | .int n => intText n
  | .float x => .ok ((Encoder.doubleText x).map .char)
  | .str cs => .ok (quoted cs)
  | .arr items =>
    if left = 0 then .error tooDeep else do
      let texts ← encodeItems (left - 1) items
      .ok (.char '[' :: [CodePoint.char ','].intercalate texts ++ [.char ']'])
  | .obj fields =>
    if left = 0 then .error tooDeep else do
      let texts ← encodeFields (left - 1) fields
      .ok (.char '\x7b' :: [CodePoint.char ','].intercalate texts ++ [.char '\x7d'])

/-- The texts of the elements of an array. -/
def encodeItems (left : Nat) : List JsonValue → Except Error (List (List CodePoint))
  | [] => .ok []
  | item :: items => do
    let text ← encode left item
    let texts ← encodeItems left items
    .ok (text :: texts)

/-- The texts of the fields of an object. -/
def encodeFields (left : Nat) : List (List CodePoint × JsonValue) → Except Error
    (List (List CodePoint))
  | [] => .ok []
  | (key, value) :: fields => do
    let text ← encode left value
    let texts ← encodeFields left fields
    .ok ((quoted key ++ .char ':' :: text) :: texts)

end

/-- The text of a value with sorted keys. -/
def dumps (v : JsonValue) : Except Error (List CodePoint) := encode Encoder.nesting v.sortKeys

end Encode

mutual

/-- The value can be written within some more containers. -/
def Writable (left : Nat) : JsonValue → Prop
  | .null | .bool _ | .float _ | .str _ => True
  | .int n => (natText n.natAbs).length ≤ 4300
  | .arr items => left ≠ 0 ∧ ItemsWritable (left - 1) items
  | .obj fields => left ≠ 0 ∧ FieldsWritable (left - 1) fields

/-- The elements of an array can be written. -/
def ItemsWritable (left : Nat) : List JsonValue → Prop
  | [] => True
  | item :: items => Writable left item ∧ ItemsWritable left items

/-- The fields of an object can be written. -/
def FieldsWritable (left : Nat) : List (List CodePoint × JsonValue) → Prop
  | [] => True
  | (_, value) :: fields => Writable left value ∧ FieldsWritable left fields

end

theorem fieldsWritable_iff {left : Nat} {fields : List (List CodePoint × JsonValue)} :
    FieldsWritable left fields ↔ ∀ field ∈ fields, field.2.Writable left := by
  induction fields with
  | nil => simp [FieldsWritable]
  | cons field fields ih => simp [FieldsWritable, ih]

theorem intText_isOk {n : Int} : (∃ cs, intText n = .ok cs) ↔ (natText n.natAbs).length ≤ 4300 := by
  unfold intText
  split
  · next h => exact ⟨fun _ => h, fun _ => ⟨_, rfl⟩⟩
  · next h => exact ⟨fun ⟨_, hcs⟩ => (by cases hcs), fun hfit => absurd hfit h⟩

section Encode

variable [Encoder]

mutual

theorem encode_isOk (left : Nat) : ∀ v : JsonValue, (∃ cs, encode left v = .ok cs) ↔ v.Writable left
  | .null => ⟨fun _ => trivial, fun _ => ⟨_, rfl⟩⟩
  | .bool true => ⟨fun _ => trivial, fun _ => ⟨_, rfl⟩⟩
  | .bool false => ⟨fun _ => trivial, fun _ => ⟨_, rfl⟩⟩
  | .int n => intText_isOk
  | .float x => ⟨fun _ => trivial, fun _ => ⟨_, rfl⟩⟩
  | .str cs => ⟨fun _ => trivial, fun _ => ⟨_, rfl⟩⟩
  | .arr items => by
    rw [encode, Writable]
    rcases eq_or_ne left 0 with rfl | hleft
    · simp
    · rw [if_neg hleft, ← encodeItems_isOk (left - 1) items]
      simp only [bind_eq_ok, Except.ok.injEq, ne_eq, hleft, not_false_eq_true, true_and]
      exact ⟨fun ⟨_, texts, htexts, _⟩ => ⟨texts, htexts⟩, fun ⟨texts, htexts⟩ =>
        ⟨_, texts, htexts, rfl⟩⟩
  | .obj fields => by
    rw [encode, Writable]
    rcases eq_or_ne left 0 with rfl | hleft
    · simp
    · rw [if_neg hleft, ← encodeFields_isOk (left - 1) fields]
      simp only [bind_eq_ok, Except.ok.injEq, ne_eq, hleft, not_false_eq_true, true_and]
      exact ⟨fun ⟨_, texts, htexts, _⟩ => ⟨texts, htexts⟩, fun ⟨texts, htexts⟩ =>
        ⟨_, texts, htexts, rfl⟩⟩

theorem encodeItems_isOk (left : Nat) : ∀ items : List JsonValue,
    (∃ texts, encodeItems left items = .ok texts) ↔ ItemsWritable left items
  | [] => ⟨fun _ => trivial, fun _ => ⟨_, rfl⟩⟩
  | item :: items => by
    rw [encodeItems, ItemsWritable, ← encode_isOk left item, ← encodeItems_isOk left items]
    simp only [bind_eq_ok, Except.ok.injEq]
    constructor
    · rintro ⟨_, text, htext, texts, htexts, -⟩
      exact ⟨⟨text, htext⟩, texts, htexts⟩
    · rintro ⟨⟨text, htext⟩, texts, htexts⟩
      exact ⟨_, text, htext, texts, htexts, rfl⟩

theorem encodeFields_isOk (left : Nat) : ∀ fields : List (List CodePoint × JsonValue),
    (∃ texts, encodeFields left fields = .ok texts) ↔ FieldsWritable left fields
  | [] => ⟨fun _ => trivial, fun _ => ⟨_, rfl⟩⟩
  | (key, value) :: fields => by
    rw [encodeFields, FieldsWritable, ← encode_isOk left value, ← encodeFields_isOk left fields]
    simp only [bind_eq_ok, Except.ok.injEq]
    constructor
    · rintro ⟨_, text, htext, texts, htexts, -⟩
      exact ⟨⟨text, htext⟩, texts, htexts⟩
    · rintro ⟨⟨text, htext⟩, texts, htexts⟩
      exact ⟨_, text, htext, texts, htexts, rfl⟩

end

omit [Encoder]

theorem fieldsWritable_sort {left : Nat} {fields : List (List CodePoint × JsonValue)} :
    FieldsWritable left (fields.insertionSort fun a b => keyLe a.1 b.1) ↔
    FieldsWritable left fields := by
  rw [fieldsWritable_iff, fieldsWritable_iff]
  simp only
    [(List.perm_insertionSort (fun a b : List CodePoint × JsonValue => keyLe a.1 b.1)
      fields).mem_iff]

mutual

theorem writable_sortKeys : ∀ (left : Nat) (v : JsonValue), v.sortKeys.Writable left ↔
    v.Writable left
  | _, .null | _, .bool _ | _, .int _ | _, .float _ | _, .str _ => Iff.rfl
  | left, .arr items =>
    by rw [sortKeys, Writable, Writable, itemsWritable_sortItems (left - 1) items]
  | left, .obj fields => by
    rw [sortKeys, Writable, Writable, fieldsWritable_sort, fieldsWritable_sortFields
      (left - 1) fields]

theorem itemsWritable_sortItems : ∀ (left : Nat) (items : List JsonValue),
    ItemsWritable left (sortItems items) ↔ ItemsWritable left items
  | _, [] => Iff.rfl
  | left, item :: items => by
    rw [sortItems, ItemsWritable, ItemsWritable, writable_sortKeys left item,
      itemsWritable_sortItems left items]

theorem fieldsWritable_sortFields : ∀ (left : Nat) (fields : List (List CodePoint × JsonValue)),
    FieldsWritable left (sortFields fields) ↔ FieldsWritable left fields
  | _, [] => Iff.rfl
  | left, (key, value) :: fields => by
    rw [sortFields, FieldsWritable, FieldsWritable, writable_sortKeys left value,
      fieldsWritable_sortFields left fields]

end

end Encode

theorem dumps_isOk [Encoder] {v : JsonValue} :
    (∃ cs, v.dumps = .ok cs) ↔ v.Writable Encoder.nesting := by
  rw [dumps, encode_isOk, writable_sortKeys]

mutual

/-- The code points of the strings of a value. -/
def points : JsonValue → List CodePoint
  | .null | .bool _ | .int _ | .float _ => []
  | .str cs => cs
  | .arr items => itemsPoints items
  | .obj fields => fieldsPoints fields

/-- The code points of the strings of the elements of an array. -/
def itemsPoints : List JsonValue → List CodePoint
  | [] => []
  | item :: items => points item ++ itemsPoints items

/-- The code points of the keys of an object and of the strings of its fields. -/
def fieldsPoints : List (List CodePoint × JsonValue) → List CodePoint
  | [] => []
  | (key, value) :: fields => key ++ points value ++ fieldsPoints fields

end

theorem mem_fieldsPoints {c : CodePoint} {fields : List (List CodePoint × JsonValue)} :
    c ∈ fieldsPoints fields ↔ ∃ field ∈ fields, c ∈ field.1 ∨ c ∈ field.2.points := by
  induction fields with
  | nil => simp [fieldsPoints]
  | cons field fields ih => simp [fieldsPoints, ih, or_assoc]

mutual

variable {c : CodePoint}

theorem mem_points_sortKeys : ∀ v : JsonValue, c ∈ v.sortKeys.points ↔ c ∈ v.points
  | .null | .bool _ | .int _ | .float _ | .str _ => Iff.rfl
  | .arr items => by rw [sortKeys, points, points, mem_itemsPoints_sortItems items]
  | .obj fields => by
    rw [sortKeys, points, points, ← mem_fieldsPoints_sortFields fields, mem_fieldsPoints,
      mem_fieldsPoints]
    simp only
      [(List.perm_insertionSort (fun a b : List CodePoint × JsonValue => keyLe a.1 b.1) _).mem_iff]

theorem mem_itemsPoints_sortItems : ∀ items : List JsonValue,
    c ∈ itemsPoints (sortItems items) ↔ c ∈ itemsPoints items
  | [] => Iff.rfl
  | item :: items => by
    rw [sortItems, itemsPoints, itemsPoints, List.mem_append, List.mem_append,
      mem_points_sortKeys item, mem_itemsPoints_sortItems items]

theorem mem_fieldsPoints_sortFields : ∀ fields : List (List CodePoint × JsonValue),
    c ∈ fieldsPoints (sortFields fields) ↔ c ∈ fieldsPoints fields
  | [] => Iff.rfl
  | (key, value) :: fields => by
    rw [sortFields, fieldsPoints, fieldsPoints, List.mem_append, List.mem_append, List.mem_append,
      List.mem_append, mem_points_sortKeys value, mem_fieldsPoints_sortFields fields]

end

theorem surrogate_notMem_map_char {n : Fin 2048} {cs : List Char} :
    CodePoint.surrogate n ∉ cs.map .char := by
  simp

theorem surrogate_mem_quoted {n : Fin 2048} {cs : List CodePoint} :
    .surrogate n ∈ quoted cs ↔ .surrogate n ∈ cs := by
  have hescape : .surrogate n ∈ cs.flatMap escapePoint ↔ .surrogate n ∈ cs := by
    rw [List.mem_flatMap]
    constructor
    · rintro ⟨c, hc, hn⟩
      cases c with
      | char d => exact absurd hn surrogate_notMem_map_char
      | surrogate m =>
        obtain rfl : n = m := by simpa [escapePoint] using hn
        exact hc
    · exact fun hc => ⟨_, hc, List.mem_singleton.mpr rfl⟩
  simpa [quoted] using hescape

theorem mem_intercalate {c d : CodePoint} (h : c ≠ d) {texts : List (List CodePoint)} :
    c ∈ [d].intercalate texts ↔ ∃ text ∈ texts, c ∈ text := by
  induction texts with
  | nil => simp
  | cons text texts ih =>
    rcases eq_or_ne texts [] with rfl | hne
    · simp
    · rw [List.intercalate_cons_of_ne_nil hne]
      simp [ih, h]

section Encode

variable [Encoder]

mutual

variable {n : Fin 2048}

theorem surrogate_mem_encode (left : Nat) : ∀ (v : JsonValue) {cs : List CodePoint},
    encode left v = .ok cs → (.surrogate n ∈ cs ↔ .surrogate n ∈ v.points)
  | .null, cs, h => by
    cases h
    exact iff_of_false surrogate_notMem_map_char List.not_mem_nil
  | .bool true, cs, h => by
    cases h
    exact iff_of_false surrogate_notMem_map_char List.not_mem_nil
  | .bool false, cs, h => by
    cases h
    exact iff_of_false surrogate_notMem_map_char List.not_mem_nil
  | .int m, cs, h => by
    rw [encode, intText] at h
    split at h
    · cases h
      exact iff_of_false surrogate_notMem_map_char List.not_mem_nil
    · cases h
  | .float x, cs, h => by
    cases h
    exact iff_of_false surrogate_notMem_map_char List.not_mem_nil
  | .str text, cs, h => by
    cases h
    exact surrogate_mem_quoted
  | .arr items, cs, h => by
    rw [encode] at h
    split at h
    · cases h
    · obtain ⟨texts, htexts, h⟩ := bind_eq_ok.mp h
      cases h
      rw [points, ← surrogate_mem_encodeItems (left - 1) items htexts]
      simp [mem_intercalate]
  | .obj fields, cs, h => by
    rw [encode] at h
    split at h
    · cases h
    · obtain ⟨texts, htexts, h⟩ := bind_eq_ok.mp h
      cases h
      rw [points, ← surrogate_mem_encodeFields (left - 1) fields htexts]
      simp [mem_intercalate]

theorem surrogate_mem_encodeItems (left : Nat) : ∀ (items : List JsonValue)
    {texts : List (List CodePoint)}, encodeItems left items = .ok texts →
    ((∃ text ∈ texts, .surrogate n ∈ text) ↔ .surrogate n ∈ itemsPoints items)
  | [], texts, h => by
    cases h
    simp [itemsPoints]
  | item :: items, texts, h => by
    rw [encodeItems] at h
    obtain ⟨text, htext, h⟩ := bind_eq_ok.mp h
    obtain ⟨rest, hrest, h⟩ := bind_eq_ok.mp h
    cases h
    rw [itemsPoints, List.mem_append, ← surrogate_mem_encode left item htext,
      ← surrogate_mem_encodeItems left items hrest, List.exists_mem_cons_iff]

theorem surrogate_mem_encodeFields (left : Nat) : ∀ (fields : List (List CodePoint × JsonValue))
    {texts : List (List CodePoint)}, encodeFields left fields = .ok texts →
    ((∃ text ∈ texts, .surrogate n ∈ text) ↔ .surrogate n ∈ fieldsPoints fields)
  | [], texts, h => by
    cases h
    simp [fieldsPoints]
  | (key, value) :: fields, texts, h => by
    rw [encodeFields] at h
    obtain ⟨text, htext, h⟩ := bind_eq_ok.mp h
    obtain ⟨rest, hrest, h⟩ := bind_eq_ok.mp h
    cases h
    rw [fieldsPoints, List.mem_append, List.mem_append, ← surrogate_mem_encode left value htext,
      ← surrogate_mem_encodeFields left fields hrest, List.exists_mem_cons_iff, List.mem_append,
      surrogate_mem_quoted]
    simp

end

theorem surrogate_mem_dumps {n : Fin 2048} {v : JsonValue} {cs : List CodePoint}
    (h : v.dumps = .ok cs) : .surrogate n ∈ cs ↔ .surrogate n ∈ v.points :=
  (surrogate_mem_encode Encoder.nesting v.sortKeys h).trans (mem_points_sortKeys v)

end Encode

end JsonValue

theorem encodable_isOk {cs : List CodePoint} :
    (∃ s, encodable cs = .ok s) ↔ ∀ n, CodePoint.surrogate n ∉ cs := by
  simp only [encodable_eq_ok]
  constructor
  · rintro ⟨s, rfl⟩ n
    exact JsonValue.surrogate_notMem_map_char
  · intro h
    have hchars : ∃ l : List Char, cs = l.map .char := by
      induction cs with
      | nil => exact ⟨[], rfl⟩
      | cons c cs ih =>
        obtain ⟨l, rfl⟩ := ih fun n hn => h n (List.mem_cons_of_mem _ hn)
        cases c with
        | char c => exact ⟨c :: l, rfl⟩
        | surrogate n => exact absurd List.mem_cons_self (h n)
    obtain ⟨l, rfl⟩ := hchars
    exact ⟨String.ofList l, by rw [codePoints, String.toList_ofList]⟩

end Dayjaview
