import Dayjaview.Core.Error

/-!
# Texts that need not be encodable

A text from outside may hold halves of surrogate pairs, which no encoding takes. Such
a text is a list of code points; what can be encoded is a text again. Bytes are read
back with one replacement character for each broken sequence.
-/

namespace Dayjaview

inductive CodePoint where
  | char (c : Char)
  /-- Half of a surrogate pair that stands alone. -/
  | surrogate (n : Fin 2048)
  deriving DecidableEq

instance : Coe Char CodePoint := ⟨.char⟩

def codePoints (s : String) : List CodePoint := s.toList.map .char

namespace CodePoint

/-- The number of a code point. -/
def toNat : CodePoint → Nat
  | char c => c.toNat
  | surrogate n => 0xD800 + n

/-- Stripping removes the code point. -/
def isSpace : CodePoint → Bool
  | char c => Dayjaview.isSpace c
  | surrogate _ => false

/-- The code point is below 128. -/
def isAscii (c : CodePoint) : Bool := decide (c.toNat < 128)

/-- The character of a code point within ASCII fulfils a test. -/
def asciiIs (p : Char → Bool) : CodePoint → Bool
  | char c => decide (c.toNat < 128) && p c
  | surrogate _ => false

end CodePoint

/-- The code points without surrounding whitespace. -/
def stripPoints (cs : List CodePoint) : List CodePoint :=
  ((cs.dropWhile CodePoint.isSpace).reverse.dropWhile CodePoint.isSpace).reverse

/-- A text that no encoding takes. -/
def surrogatesNotAllowed : Error := ⟨.unicodeEncodeError, "surrogates not allowed"⟩

/-- The character of a code point. -/
def CodePoint.character : CodePoint → Except Error Char
  | char c => .ok c
  | surrogate _ => .error surrogatesNotAllowed

/-- The text of some code points, if it can be encoded. -/
def encodable (cs : List CodePoint) : Except Error String :=
  (cs.mapM CodePoint.character).map String.ofList

theorem mapM_character_eq_ok {cs : List CodePoint} {l : List Char} :
    cs.mapM CodePoint.character = .ok l ↔ cs = l.map .char := by
  induction cs generalizing l with
  | nil => cases l <;> simp [pure, Except.pure]
  | cons c cs ih =>
    cases c with
    | char c =>
      cases l with
      | nil => simp [CodePoint.character, bind_eq_ok, pure, Except.pure]
      | cons d l =>
        simp only [List.mapM_cons, CodePoint.character, bind_eq_ok, ih, pure, Except.pure,
          Except.ok.injEq, List.cons.injEq, List.map_cons, CodePoint.char.injEq]
        constructor
        · rintro ⟨_, rfl, _, rfl, rfl, rfl⟩
          exact ⟨rfl, rfl⟩
        · rintro ⟨rfl, rfl⟩
          exact ⟨_, rfl, _, rfl, rfl, rfl⟩
    | surrogate n => cases l <;> simp [CodePoint.character, bind_eq_ok]

theorem encodable_eq_ok {cs : List CodePoint} {s : String} :
    encodable cs = .ok s ↔ cs = codePoints s := by
  unfold encodable codePoints
  constructor
  · intro h
    cases hl : cs.mapM CodePoint.character with
    | error e =>
      rw [hl] at h
      cases h
    | ok l =>
      rw [hl] at h
      obtain rfl : String.ofList l = s := Except.ok.inj h
      rw [String.toList_ofList]
      exact mapM_character_eq_ok.mp hl
  · intro h
    rw [mapM_character_eq_ok.mpr h]
    simp [Except.map]

/-- The Unicode tables behind what is done to a text as a whole. -/
class TextTables where
  lower : List CodePoint → List CodePoint
  nfkc : List CodePoint → List CodePoint

/-- A small letter within ASCII. -/
def CodePoint.lowerAscii : CodePoint → CodePoint
  | char c => .char c.toLower
  | surrogate n => .surrogate n

@[reducible] def TextTables.ascii : TextTables where
  lower cs := cs.map CodePoint.lowerAscii
  nfkc cs := cs

/-- A character that is being read: what was read of it, how many bytes follow, and what the next
one lies between. -/
structure PartialChar where
  value : Nat
  remaining : Nat
  low : Nat
  high : Nat

/-- The character in the place of a broken sequence. -/
def replacement : Char := Char.ofNat 0xFFFD

/-- The first byte of a character. -/
def startChar (b : Nat) : List Char × Option PartialChar :=
  if b < 0x80 then ([Char.ofNat b], none)
  else if 0xC2 ≤ b ∧ b ≤ 0xDF then ([], some ⟨b - 0xC0, 1, 0x80, 0xBF⟩)
  else if b = 0xE0 then ([], some ⟨0, 2, 0xA0, 0xBF⟩)
  else if b = 0xED then ([], some ⟨0xD, 2, 0x80, 0x9F⟩)
  else if 0xE1 ≤ b ∧ b ≤ 0xEF then ([], some ⟨b - 0xE0, 2, 0x80, 0xBF⟩)
  else if b = 0xF0 then ([], some ⟨0, 3, 0x90, 0xBF⟩)
  else if 0xF1 ≤ b ∧ b ≤ 0xF3 then ([], some ⟨b - 0xF0, 3, 0x80, 0xBF⟩)
  else if b = 0xF4 then ([], some ⟨4, 3, 0x80, 0x8F⟩)
  else ([replacement], none)

def nextByte (b : Nat) : Option PartialChar → List Char × Option PartialChar
  | none => startChar b
  | some p =>
    if p.low ≤ b ∧ b ≤ p.high then
      let value := 64 * p.value + (b - 0x80)
      if p.remaining = 1 then ([Char.ofNat value], none)
      else ([], some ⟨value, p.remaining - 1, 0x80, 0xBF⟩)
    else
      let (cs, q) := startChar b
      (replacement :: cs, q)

/-- Read bytes behind the ones that were read of a character. -/
def decodeFrom : Option PartialChar → List Nat → List Char
  | none, [] => []
  | some _, [] => [replacement]
  | p, b :: bs =>
    let (cs, q) := nextByte b p
    cs ++ decodeFrom q bs

/-- The text of some bytes, with a replacement character for each broken sequence. -/
def decodeReplacing (bs : List Nat) : List Char := decodeFrom none bs

def utf8Bytes (s : String) : List Nat :=
  s.toList.flatMap fun c => (String.utf8EncodeChar c).map (·.toNat)

example : decodeReplacing [0xED, 0x8A, 0xB9, 0xED, 0xA0] = ['특', replacement, replacement] := by
  decide

end Dayjaview
