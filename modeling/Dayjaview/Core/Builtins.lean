import Dayjaview.Core.Calendar
import Dayjaview.Core.Decimal
import Dayjaview.Core.Error
import Dayjaview.Core.Json

/-!
# Built-in conversions of decoded values

A decoded value is read through its text: numbers, dates and timestamps are
parsed from the text of whatever value stands in the field. Texts written by the
records of this development are read back by these conversions.
-/

namespace Dayjaview

/-- The character tables that quoting a text consults. -/
class CharTable where
  isPrintable : Char → Bool

namespace Json

/-- The last `width` hexadecimal digits of a code point. -/
def hexPadded : Nat → Nat → List Char
  | 0, _ => []
  | width + 1, n => Nat.digitChar (n / 16 ^ width % 16) :: hexPadded width n

/-- A character of a quoted text. -/
def reprChar [CharTable] (quote c : Char) : List Char :=
  if c = quote ∨ c = '\\' then ['\\', c]
  else if c = '\t' then ['\\', 't']
  else if c = '\n' then ['\\', 'n']
  else if c = '\r' then ['\\', 'r']
  else if c.toNat < 32 ∨ c.toNat = 127 then '\\' :: 'x' :: hexPadded 2 c.toNat
  else if c.toNat < 127 ∨ CharTable.isPrintable c then [c]
  else if c.toNat < 256 then '\\' :: 'x' :: hexPadded 2 c.toNat
  else if c.toNat < 65536 then '\\' :: 'u' :: hexPadded 4 c.toNat
  else '\\' :: 'U' :: hexPadded 8 c.toNat

/-- A quoted text; double quotes are used when only single ones occur in it. -/
def reprText [CharTable] (s : String) : List Char :=
  let quote := if '\'' ∈ s.toList ∧ '"' ∉ s.toList then '"' else '\''
  quote :: s.toList.flatMap (reprChar quote) ++ [quote]

/-- The text of a floating-point number. -/
def floatText (x : FloatText) : List Char :=
  if x.chars = "NaN".toList then "nan".toList
  else if x.chars = "Infinity".toList then "inf".toList
  else if x.chars = "-Infinity".toList then "-inf".toList
  else x.chars

mutual

/-- The representation of a value inside a container. -/
def repr [CharTable] : Json → List Char
  | .null => "None".toList
  | .bool true => "True".toList
  | .bool false => "False".toList
  | .int n => intChars n
  | .float x => floatText x
  | .str s => reprText s
  | .arr [] => ['[', ']']
  | .arr (item :: items) => '[' :: (repr item ++ reprItems items)
  | .obj [] => ['{', '}']
  | .obj ((key, value) :: fields) =>
    '{' :: (reprText key ++ ':' :: ' ' :: (repr value ++ reprFields fields))

/-- The further elements of a list. -/
def reprItems [CharTable] : List Json → List Char
  | [] => [']']
  | item :: items => ',' :: ' ' :: (repr item ++ reprItems items)

/-- The further fields of a dictionary. -/
def reprFields [CharTable] : List (String × Json) → List Char
  | [] => ['}']
  | (key, value) :: fields =>
    ',' :: ' ' :: (reprText key ++ ':' :: ' ' :: (repr value ++ reprFields fields))

end

/-- The text of a value: that of a string is the string itself. -/
def text [CharTable] : Json → String
  | .str s => s
  | v => String.ofList v.repr

def truth : Json → Bool
  | .null => false
  | .bool b => b
  | .int n => n != 0
  | .float x => x.chars != "0.0".toList && x.chars != "-0.0".toList
  | .str s => s != ""
  | .arr items => !items.isEmpty
  | .obj fields => !fields.isEmpty

/-- Why an item of a value that is no dictionary cannot be read by name. -/
def subscriptMessage : Json → String
  | .null => "'NoneType' object is not subscriptable"
  | .bool _ => "'bool' object is not subscriptable"
  | .int _ => "'int' object is not subscriptable"
  | .float _ => "'float' object is not subscriptable"
  | .str _ => "string indices must be integers, not 'str'"
  | .arr _ => "list indices must be integers or slices, not str"
  | .obj _ => ""

/-- The item of a dictionary under a key that has to be there. -/
def getItem [CharTable] (v : Json) (key : String) : Except Error Json :=
  match v with
  | .obj fields =>
    match field? fields key with
    | some item => .ok item
    | none => .error ⟨.keyError, String.ofList (reprText key)⟩
  | v => .error ⟨.typeError, v.subscriptMessage⟩

/-- The item of a dictionary under a key, nothing when it is missing. -/
def getOr (v : Json) (key : String) : Json :=
  match v with
  | .obj fields => (field? fields key).getD .null
  | _ => .null

def requireList (v : Json) (message : String) : Except Error (List Json) :=
  match v with
  | .arr items => .ok items
  | _ => .error ⟨.typeError, message⟩

variable [CharTable]

def getText (v : Json) (key : String) : Except Error String := do
  let item ← v.getItem key
  return item.text

/-- Read an item with a reader of texts, or report the text that was refused. -/
def getVia {α : Type} (read : String → Option α) (message : String → Error) (v : Json)
    (key : String) : Except Error α := do
  let item ← v.getText key
  match read item with
  | some a => return a
  | none => throw (message item)

/-- The complaint about a text that is no date or timestamp. -/
def invalidIso (s : String) : Error :=
  ⟨.valueError, "Invalid isoformat string: " ++ String.ofList (reprText s)⟩

def getDate : Json → String → Except Error Date := getVia Date.fromisoformat invalidIso

def getDatetime : Json → String → Except Error Datetime :=
  getVia Datetime.fromisoformat invalidIso

def getInt : Json → String → Except Error Int :=
  getVia intOfStr fun s =>
    ⟨.valueError, "invalid literal for int() with base 10: " ++ String.ofList (reprText s)⟩

/-- The truth value of an item. -/
def getTruth (v : Json) (key : String) : Except Error Bool := do
  let item ← v.getItem key
  return item.truth

/-- The optional number of an item. A number that is not finite is refused here, with the words of
the observation that would refuse it next. -/
def getDecimal (v : Json) (key fieldName : String) : Except Error (Option Decimal) :=
  match v.getOr key with
  | .null => .ok none
  | item =>
    match Decimal.ofStr item.text with
    | some (.finite d) => .ok (some d)
    | some .special => .error ⟨.valueError, s!"{fieldName}은 유한한 Decimal이어야 합니다"⟩
    | none => .error ⟨.decimalSignal, "[<class 'decimal.ConversionSyntax'>]"⟩

omit [CharTable] in
@[simp] theorem field?_cons_self (key : String) (value : Json) (fields : List (String × Json)) :
    field? ((key, value) :: fields) key = some value := by
  simp [field?]

omit [CharTable] in
@[simp] theorem field?_cons_of_ne {key name : String} (value : Json)
    (fields : List (String × Json)) (h : name ≠ key) :
    field? ((name, value) :: fields) key = field? fields key := by
  have hne : (key == name) = false := beq_eq_false_iff_ne.mpr fun h' => h h'.symm
  rw [field?, List.lookup_cons, hne]
  rfl

variable {fields : List (String × Json)}

theorem getItem_obj {key : String} {item : Json} (h : field? fields key = some item) :
    (Json.obj fields).getItem key = .ok item := by
  simp [getItem, h]

@[simp] theorem text_str (s : String) : (Json.str s).text = s := rfl

theorem getText_obj {key s : String} (h : field? fields key = some (.str s)) :
    (Json.obj fields).getText key = .ok s := by
  rw [getText, getItem_obj h]
  rfl

theorem getVia_obj {α : Type} {read : String → Option α} {message : String → Error} {key : String}
    {item : Json} {a : α} (h : field? fields key = some item) (hread : read item.text = some a) :
    getVia read message (Json.obj fields) key = .ok a := by
  have htext : (Json.obj fields).getText key = .ok item.text := by
    rw [getText, getItem_obj h]
    rfl
  rw [getVia, htext]
  show (match read item.text with | some a => Except.ok a | none => _) = _
  rw [hread]

theorem getDate_obj {key : String} {d : Date} (h : field? fields key = some (.str d.isoformat)) :
    (Json.obj fields).getDate key = .ok d :=
  getVia_obj h (Date.fromisoformat_isoformat d)

theorem getDatetime_obj {key : String} {t : Datetime}
    (h : field? fields key = some (.str t.isoformat)) :
    (Json.obj fields).getDatetime key = .ok t :=
  getVia_obj h (Datetime.fromisoformat_isoformat t)

theorem getInt_obj {key : String} {n : Int} (h : field? fields key = some (.int n)) (hn : 0 ≤ n) :
    (Json.obj fields).getInt key = .ok n := by
  obtain ⟨m, rfl⟩ := Int.eq_ofNat_of_zero_le hn
  exact getVia_obj h (intOfStr_natText m)

theorem getTruth_obj {key : String} {b : Bool} (h : field? fields key = some (.bool b)) :
    (Json.obj fields).getTruth key = .ok b := by
  rw [getTruth, getItem_obj h]
  rfl

end Json

theorem mapM_map_eq_ok {α β : Type} {write : α → β} {read : β → Except Error α}
    (h : ∀ a, read (write a) = .ok a) (as : List α) : (as.map write).mapM read = .ok as := by
  induction as with
  | nil => rfl
  | cons a as ih =>
    rw [List.map_cons, List.mapM_cons, h a]
    show ((as.map write).mapM read >>= fun bs => pure (a :: bs)) = _
    rw [ih]
    rfl

end Dayjaview
