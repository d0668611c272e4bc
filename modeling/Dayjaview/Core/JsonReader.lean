import Dayjaview.Core.Builtins
import Dayjaview.Core.Dict

/-!
# Reading JSON

A text is read character by character. The open arrays and objects are a stack; the
mode says what may come next. A text that is no JSON, an integer with too many
digits and too many open containers are three different errors.
-/

namespace Dayjaview

/-- What the reader takes from the running program. -/
class JsonRuntime where
  recursionLimit : Nat
  readFloat : List Char → FloatText

namespace JsonReader

/-- A container that waits for a value. -/
inductive Frame where
  /-- An array with its items so far. -/
  | arr (items : List Json)
  /-- An object with its fields so far and the key of the value. -/
  | pair (fields : List (String × Json)) (key : String)

inductive Role where
  | value
  /-- A key of an object with some fields. -/
  | key (fields : List (String × Json))

inductive Mode where
  | value
  /-- The first item of an array or its end. -/
  | firstItem
  /-- A comma or the end of an array. -/
  | nextItem (items : List Json)
  /-- The first key of an object or its end. -/
  | firstKey
  | key (fields : List (String × Json))
  | colon (fields : List (String × Json)) (key : String)
  /-- A comma or the end of an object. -/
  | nextPair (fields : List (String × Json))
  /-- A character of a string, maybe behind the first half of a surrogate pair. -/
  | string (role : Role) (chars : List Char) (high : Option Nat)
  /-- The character behind a backslash. -/
  | escape (role : Role) (chars : List Char) (high : Option Nat)
  /-- A hexadecimal digit behind those of a code so far. -/
  | hex (role : Role) (chars : List Char) (high : Option Nat) (digits : List Char)
  | number (chars : List Char)
  /-- The rest of a literal name. -/
  | literal (rest : List Char) (v : Json)
  | ended (v : Json)

/-- How far the reader has come. -/
structure State where
  stack : List Frame
  mode : Mode

def decodeError : Error := ⟨.jsonDecodeError, ""⟩

/-- An integer has too many digits. -/
def digitsError (digits : Nat) : Error :=
  ⟨.valueError, "Exceeds the limit (4300 digits) for integer string conversion: value has " ++
    String.ofList (natText digits) ++
    " digits; use sys.set_int_max_str_digits() to increase the limit"⟩

/-- Too many containers are open. -/
def recursionError : Error := ⟨.recursionError, ""⟩

/-- The blanks between the parts of a text. -/
def isBlankChar (c : Char) : Bool := c == ' ' || c == '\t' || c == '\n' || c == '\r'

def isNumberChar (c : Char) : Bool :=
  c.isDigit || c == '-' || c == '+' || c == '.' || c == 'e' || c == 'E'

def complete (stack : List Frame) (v : Json) : State :=
  match stack with
  | [] => ⟨[], .ended v⟩
  | .arr items :: stack => ⟨stack, .nextItem (items ++ [v])⟩
  | .pair fields key :: stack => ⟨stack, .nextPair (fields ++ [(key, v)])⟩

/-- An object is complete; the last field with a key counts. -/
def completeObject (stack : List Frame) (fields : List (String × Json)) : State :=
  complete stack (.obj (Dict.ofList fields).entries)

def completeString (stack : List Frame) (role : Role) (chars : List Char) : State :=
  match role with
  | .value => complete stack (.str (String.ofList chars))
  | .key fields => ⟨stack, .colon fields (String.ofList chars)⟩

/-- The digits in front of a text. -/
def takeDigits (cs : List Char) : List Char × List Char :=
  (cs.takeWhile (·.isDigit), cs.dropWhile (·.isDigit))

/-- The integer part of a number and what follows it. -/
def readInteger (cs : List Char) : Option (List Char × List Char) :=
  match cs with
  | [] => none
  | c :: rest =>
    if c = '0' then some (['0'], rest)
    else if c.isDigit then some (takeDigits cs)
    else none

/-- The fraction of a number and what follows it. -/
def readFraction (cs : List Char) : List Char × List Char :=
  match cs with
  | '.' :: rest =>
    if (takeDigits rest).1 = [] then ([], cs)
    else ('.' :: (takeDigits rest).1, (takeDigits rest).2)
  | cs => ([], cs)

/-- The power of a number and what follows it. -/
def readPower (cs : List Char) : List Char × List Char :=
  match cs with
  | [] => ([], [])
  | c :: rest =>
    if c = 'e' ∨ c = 'E' then
      let sign := rest.takeWhile (fun c => c == '+' || c == '-') |>.take 1
      let digits := takeDigits (rest.drop sign.length)
      if digits.1 = [] then ([], cs) else (c :: sign ++ digits.1, digits.2)
    else ([], cs)

variable [JsonRuntime]

/-- The longest number in front of some characters; nothing else may follow it. -/
def readNumber (cs : List Char) : Except Error Json :=
  let sign := cs.takeWhile (· == '-') |>.take 1
  match readInteger (cs.drop sign.length) with
  | none => .error decodeError
  | some (digits, rest) =>
    let fraction := readFraction rest
    let power := readPower fraction.2
    if fraction.1 = [] ∧ power.1 = [] then
      if 4300 < digits.length then .error (digitsError digits.length)
      else if power.2 = [] then
        let n : Int := Nat.ofDigitChars 10 digits 0
        .ok (.int (if sign = [] then n else -n))
      else .error decodeError
    else if power.2 = [] then
      .ok (.float (JsonRuntime.readFloat (sign ++ digits ++ fraction.1 ++ power.1)))
    else .error decodeError

def enter (stack : List Frame) (mode : Mode) : Except Error State :=
  if stack.length < JsonRuntime.recursionLimit then .ok ⟨stack, mode⟩ else .error recursionError

/-- The first character of a value. -/
def startValue (stack : List Frame) (c : Char) : Except Error State :=
  if c = '"' then .ok ⟨stack, .string .value [] none⟩
  else if c = '[' then enter stack .firstItem
  else if c = '{' then enter stack .firstKey
  else if c = 'n' then .ok ⟨stack, .literal "ull".toList .null⟩
  else if c = 't' then .ok ⟨stack, .literal "rue".toList (.bool true)⟩
  else if c = 'f' then .ok ⟨stack, .literal "alse".toList (.bool false)⟩
  else if c = 'N' then .ok ⟨stack, .literal "aN".toList (.float ⟨"NaN".toList, by decide⟩)⟩
  else if c = 'I' then
    .ok ⟨stack, .literal "nfinity".toList (.float ⟨"Infinity".toList, by decide⟩)⟩
  else if c.isDigit ∨ c = '-' then .ok ⟨stack, .number [c]⟩
  else .error decodeError

/-- Half of a surrogate pair without the other one. -/
def loneSurrogate : Char := '\uFFFD'

/-- The characters of a string with a first half that nothing follows. -/
def flush (chars : List Char) : Option Nat → List Char
  | none => chars
  | some _ => chars ++ [loneSurrogate]

/-- A string with a further code. -/
def addCode (role : Role) (chars : List Char) (high : Option Nat) (code : Nat) : Mode :=
  if 0xD800 ≤ code ∧ code < 0xDC00 then .string role (flush chars high) (some code)
  else if 0xDC00 ≤ code ∧ code < 0xE000 then
    match high with
    | some first =>
      .string role (chars ++ [Char.ofNat (0x10000 + (first - 0xD800) * 0x400 + (code - 0xDC00))])
      none
    | none => .string role (chars ++ [loneSurrogate]) none
  else .string role (flush chars high ++ [Char.ofNat code]) none

/-- The character that a backslash in front of another one stands for. -/
def escaped (c : Char) : Option Char :=
  ['"', '\\', '/'].find? (· == c) <|>
    [('b', '\u0008'), ('f', '\u000C'), ('n', '\n'), ('r', '\r'), ('t', '\t')].lookup c

/-- The value of a hexadecimal digit. -/
def hexValue (c : Char) : Option Nat := "0123456789abcdef".toList.findIdx? (· == c.toLower)

def stepString (stack : List Frame) (role : Role) (chars : List Char) (high : Option Nat)
    (c : Char) : Except Error State :=
  if c = '"' then .ok (completeString stack role (flush chars high))
  else if c = '\\' then .ok ⟨stack, .escape role chars high⟩
  else if c.toNat < 32 then .error decodeError
  else .ok ⟨stack, .string role (flush chars high ++ [c]) none⟩

/-- The character behind a backslash. -/
def stepEscape (stack : List Frame) (role : Role) (chars : List Char) (high : Option Nat)
    (c : Char) : Except Error State :=
  if c = 'u' then .ok ⟨stack, .hex role chars high []⟩
  else match escaped c with
    | some e => .ok ⟨stack, .string role (flush chars high ++ [e]) none⟩
    | none => .error decodeError

def stepHex (stack : List Frame) (role : Role) (chars : List Char) (high : Option Nat)
    (digits : List Char) (c : Char) : Except Error State :=
  match hexValue c with
  | none => .error decodeError
  | some _ =>
    let digits := digits ++ [c]
    if digits.length < 4 then .ok ⟨stack, .hex role chars high digits⟩
    else
      let code := digits.foldl (fun code d => 16 * code + (hexValue d).getD 0) 0
      .ok ⟨stack, addCode role chars high code⟩

/-- A character that is no part of a number. -/
def stepPlain (s : State) (c : Char) : Except Error State :=
  match s.mode with
  | .string role chars high => stepString s.stack role chars high c
  | .escape role chars high => stepEscape s.stack role chars high c
  | .hex role chars high digits => stepHex s.stack role chars high digits c
  | .literal [] _ => .error decodeError
  | .literal (next :: rest) v =>
    if c ≠ next then .error decodeError
    else if rest = [] then .ok (complete s.stack v)
    else .ok ⟨s.stack, .literal rest v⟩
  | mode =>
    if isBlankChar c then .ok s
    else match mode with
    | .value => startValue s.stack c
    | .firstItem =>
      if c = ']' then .ok (complete s.stack (.arr [])) else startValue (.arr [] :: s.stack) c
    | .nextItem items =>
      if c = ',' then .ok ⟨.arr items :: s.stack, .value⟩
      else if c = ']' then .ok (complete s.stack (.arr items))
      else .error decodeError
    | .firstKey =>
      if c = '"' then .ok ⟨s.stack, .string (.key []) [] none⟩
      else if c = '}' then .ok (completeObject s.stack [])
      else .error decodeError
    | .key fields =>
      if c = '"' then .ok ⟨s.stack, .string (.key fields) [] none⟩ else .error decodeError
    | .colon fields key =>
      if c = ':' then .ok ⟨.pair fields key :: s.stack, .value⟩ else .error decodeError
    | .nextPair fields =>
      if c = ',' then .ok ⟨s.stack, .key fields⟩
      else if c = '}' then .ok (completeObject s.stack fields)
      else .error decodeError
    | _ => .error decodeError

def step (s : State) (c : Char) : Except Error State :=
  match s.mode with
  | .number chars =>
    if isNumberChar c then .ok ⟨s.stack, .number (chars ++ [c])⟩
    else if chars = ['-'] ∧ c = 'I' then
      .ok ⟨s.stack, .literal "nfinity".toList (.float ⟨"-Infinity".toList, by decide⟩)⟩
    else do
      let v ← readNumber chars
      stepPlain (complete s.stack v) c
  | _ => stepPlain s c

def finish (s : State) : Except Error Json :=
  match s.mode with
  | .number chars => do
    let v ← readNumber chars
    if s.stack.isEmpty then return v else throw decodeError
  | .ended v => .ok v
  | _ => .error decodeError

end JsonReader

open JsonReader in
def loads [JsonRuntime] (text : String) : Except Error Json :=
  if text.toList.head? = some '\uFEFF' then .error decodeError
  else text.toList.foldlM step ⟨[], .value⟩ >>= finish

end Dayjaview
