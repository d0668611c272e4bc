import Dayjaview.Core.Text
import Mathlib.Algebra.Group.End
import Mathlib.Data.List.Sort
import Mathlib.Data.String.Basic

/-!
# JSON values and their canonical text

The canonical text sorts the fields of every object by key and writes no
blanks. Scalars other than strings are runs of token characters, so a text
determines its value: two values with equal canonical texts agree after
sorting, and two objects then agree field by field.
-/

namespace Dayjaview

/-- The characters of numbers and of the literal names. -/
def isTokenChar (c : Char) : Bool := c.isAlphanum || c == '-' || c == '+' || c == '.'

/-- The written forms of a floating-point number. -/
def isFloatText (cs : List Char) : Bool :=
  cs == "NaN".toList || cs == "Infinity".toList || cs == "-Infinity".toList ||
    (cs.head?.any (fun c => c.isDigit || c == '-') && cs.all isTokenChar &&
      cs.any (fun c => c == '.' || c == 'e'))

/-- A floating-point number, kept as it is written. -/
structure FloatText where
  chars : List Char
  valid : isFloatText chars = true
  deriving DecidableEq

/-- A JSON value; objects keep their fields in insertion order. -/
inductive Json where
  | null
  | bool (b : Bool)
  | int (n : Int)
  | float (x : FloatText)
  | str (s : String)
  | arr (items : List Json)
  | obj (fields : List (String × Json))

namespace Json

mutual

/-- Decide equality of two values. -/
def decEq (a b : Json) : Decidable (a = b) :=
  if h : a.ctorIdx = b.ctorIdx then
    match a, b, h with
    | .null, .null, _ => isTrue rfl
    | .bool a, .bool b, _ => decidable_of_iff (a = b) (by simp)
    | .int a, .int b, _ => decidable_of_iff (a = b) (by simp)
    | .float a, .float b, _ => decidable_of_iff (a = b) (by simp)
    | .str a, .str b, _ => decidable_of_iff (a = b) (by simp)
    | .arr a, .arr b, _ => @decidable_of_iff _ (a = b) (by simp) (decEqItems a b)
    | .obj a, .obj b, _ => @decidable_of_iff _ (a = b) (by simp) (decEqFields a b)
  else isFalse fun heq => h (congrArg Json.ctorIdx heq)

/-- Decide equality of two arrays. -/
def decEqItems : (a b : List Json) → Decidable (a = b)
  | [], [] => isTrue rfl
  | [], _ :: _ | _ :: _, [] => isFalse (by simp)
  | x :: a, y :: b =>
    @decidable_of_iff _ (x = y ∧ a = b) (by simp)
    (@instDecidableAnd _ _ (decEq x y) (decEqItems a b))

/-- Decide equality of two field lists. -/
def decEqFields : (a b : List (String × Json)) → Decidable (a = b)
  | [], [] => isTrue rfl
  | [], _ :: _ | _ :: _, [] => isFalse (by simp)
  | (k, x) :: a, (l, y) :: b =>
    @decidable_of_iff _ (k = l ∧ x = y ∧ a = b) (by simp [and_assoc])
      (@instDecidableAnd _ _ _ (@instDecidableAnd _ _ (decEq x y) (decEqFields a b)))

end

instance : DecidableEq Json := decEq

/-- The four hexadecimal digits of a code point below 65536. -/
def hexChars (n : Nat) : List Char :=
  [Nat.digitChar (n / 4096 % 16), Nat.digitChar (n / 256 % 16), Nat.digitChar (n / 16 % 16),
    Nat.digitChar (n % 16)]

/-- A character inside a string; only quotes, backslashes and control characters are escaped. -/
def escapeChar (c : Char) : List Char :=
  if c = '"' then ['\\', '"']
  else if c = '\\' then ['\\', '\\']
  else if c = '\n' then ['\\', 'n']
  else if c = '\r' then ['\\', 'r']
  else if c = '\t' then ['\\', 't']
  else if c.toNat = 12 then ['\\', 'f']
  else if c.toNat = 8 then ['\\', 'b']
  else if c.toNat < 32 then '\\' :: 'u' :: hexChars c.toNat
  else [c]

/-- The characters of a string between its quotes. -/
def escape (cs : List Char) : List Char := cs.flatMap escapeChar

def quoted (s : String) : List Char := '"' :: escape s.toList ++ ['"']

/-- The decimal notation of an integer. -/
def intChars : Int → List Char
  | .ofNat n => natText n
  | .negSucc n => '-' :: natText (n + 1)

mutual

/-- The text of a value without blanks. -/
def chars : Json → List Char
  | .null => ['n', 'u', 'l', 'l']
  | .bool true => ['t', 'r', 'u', 'e']
  | .bool false => ['f', 'a', 'l', 's', 'e']
  | .int n => intChars n
  | .float x => x.chars
  | .str s => quoted s
  | .arr [] => ['[', ']']
  | .arr (item :: items) => '[' :: (chars item ++ itemsChars items)
  | .obj [] => ['{', '}']
  | .obj ((key, value) :: fields) =>
    '{' :: (quoted key ++ ':' :: (chars value ++ fieldsChars fields))

/-- The further elements of an array and its closing bracket. -/
def itemsChars : List Json → List Char
  | [] => [']']
  | item :: items => ',' :: (chars item ++ itemsChars items)

/-- The further fields of an object and its closing brace. -/
def fieldsChars : List (String × Json) → List Char
  | [] => ['}']
  | (key, value) :: fields => ',' :: (quoted key ++ ':' :: (chars value ++ fieldsChars fields))

end

/-- The text does not go on with a token character. -/
def NoTokenHead (cs : List Char) : Prop := ∀ c ∈ cs.head?, isTokenChar c = false

variable {cs : List Char} {v : Json} {fs gs : List (String × Json)}

private theorem takeWhile_isTokenChar_append {ds : List Char} (hd : ∀ c ∈ ds, isTokenChar c = true)
    (hc : NoTokenHead cs) :
    (ds ++ cs).takeWhile isTokenChar = ds := by
  rw [List.takeWhile_append_of_pos hd]
  cases cs with
  | nil => simp
  | cons c cs => simp [hc c rfl]

private def hexValue (c : Char) : Nat :=
  if c.isDigit then c.toNat - 48 else c.toNat - 87

private def unescape : List Char → Option (Char × List Char)
  | '\\' :: 'u' :: a :: b :: c :: d :: cs =>
    some (Char.ofNat (((hexValue a * 16 + hexValue b) * 16 + hexValue c) * 16 + hexValue d), cs)
  | '\\' :: 'n' :: cs => some ('\n', cs)
  | '\\' :: 'r' :: cs => some ('\r', cs)
  | '\\' :: 't' :: cs => some ('\t', cs)
  | '\\' :: 'f' :: cs => some (Char.ofNat 12, cs)
  | '\\' :: 'b' :: cs => some (Char.ofNat 8, cs)
  | '\\' :: c :: cs => some (c, cs)
  | c :: cs => some (c, cs)
  | [] => none

private theorem unescape_hexChars (cs : List Char) (n : Nat) (h : n < 32) :
    unescape ('\\' :: 'u' :: hexChars n ++ cs) = some (Char.ofNat n, cs) := by
  interval_cases n <;> rfl

private theorem unescape_escapeChar (c : Char) (cs : List Char) :
    unescape (escapeChar c ++ cs) = some (c, cs) := by
  have hc : Char.ofNat c.toNat = c := Char.ofNat_toNat c
  unfold escapeChar
  split_ifs with hq hb hn hr ht hf hbs hx
  · simp [hq, unescape]
  · simp [hb, unescape]
  · simp [hn, unescape]
  · simp [hr, unescape]
  · simp [ht, unescape]
  · rw [← hc, hf]
    rfl
  · rw [← hc, hbs]
    rfl
  · rw [List.cons_append, List.cons_append]
    exact (unescape_hexChars cs _ hx).trans (by rw [hc])
  · cases cs <;> simp [unescape, hb]

private theorem escapeChar_append_ne (c : Char) (cs ds : List Char) :
    escapeChar c ++ cs ≠ '"' :: ds := by
  unfold escapeChar
  split_ifs <;> simp_all

private theorem escape_append_inj {cs ds s t : List Char}
    (h : escape cs ++ '"' :: s = escape ds ++ '"' :: t) : cs = ds ∧ s = t := by
  induction cs generalizing ds with
  | nil =>
    cases ds with
    | nil => exact ⟨rfl, List.tail_eq_of_cons_eq h⟩
    | cons d ds =>
      rw [escape, escape, List.flatMap_nil, List.flatMap_cons, List.nil_append,
        List.append_assoc] at h
      exact absurd h.symm (escapeChar_append_ne d _ _)
  | cons c cs ih =>
    cases ds with
    | nil =>
      rw [escape, escape, List.flatMap_nil, List.flatMap_cons, List.nil_append,
        List.append_assoc] at h
      exact absurd h (escapeChar_append_ne c _ _)
    | cons d ds =>
      rw [escape, escape, List.flatMap_cons, List.flatMap_cons, List.append_assoc,
        List.append_assoc] at h
      have hu := congrArg unescape h
      rw [unescape_escapeChar, unescape_escapeChar, Option.some.injEq, Prod.mk.injEq] at hu
      obtain ⟨rfl, htail⟩ := hu
      obtain ⟨rfl, hst⟩ := ih htail
      exact ⟨rfl, hst⟩

theorem quoted_append_inj {k l : String} {s t : List Char}
    (h : quoted k ++ s = quoted l ++ t) : k = l ∧ s = t := by
  simp only [quoted, List.cons_append, List.append_assoc, List.nil_append] at h
  obtain ⟨hkl, hst⟩ := escape_append_inj (List.tail_eq_of_cons_eq h)
  exact ⟨String.toList_injective hkl, hst⟩

/-- The text of a scalar that is not a string. -/
def token? : Json → Option (List Char)
  | .str _ | .arr _ | .obj _ => none
  | v => some v.chars

private def intOfToken : List Char → Int
  | '-' :: ds => -(Nat.ofDigitChars 10 ds 0 : Nat)
  | ds => (Nat.ofDigitChars 10 ds 0 : Nat)

private theorem intOfToken_intChars (n : Int) : intOfToken (intChars n) = n := by
  cases n with
  | ofNat n =>
    rw [intChars, intOfToken.eq_def]
    split
    · next ds hds =>
      have := isDigit_of_mem_natText (n := n) (c := '-') (by rw [hds]; exact List.mem_cons_self ..)
      exact absurd this (by decide)
    · rw [ofDigitChars_natText]
      rfl
  | negSucc n =>
    rw [intChars, intOfToken, ofDigitChars_natText]
    rfl

private def ofToken (cs : List Char) : Json :=
  if cs = ['n', 'u', 'l', 'l'] then .null
  else if cs = ['t', 'r', 'u', 'e'] then .bool true
  else if cs = ['f', 'a', 'l', 's', 'e'] then .bool false
  else if h : isFloatText cs then .float ⟨cs, h⟩
  else .int (intOfToken cs)

private theorem isTokenChar_of_isDigit {c : Char} (h : c.isDigit = true) :
    isTokenChar c = true := by
  simp [isTokenChar, Char.isAlphanum, h]

private theorem isFloatText_cases {cs : List Char} (h : isFloatText cs = true) :
    cs = "NaN".toList ∨ cs = "Infinity".toList ∨ cs = "-Infinity".toList ∨
      ((∃ c ds, cs = c :: ds ∧ (c.isDigit = true ∨ c = '-')) ∧ (∀ c ∈ cs, isTokenChar c = true) ∧
        ∃ c ∈ cs, c = '.' ∨ c = 'e') := by
  simp only [isFloatText, Bool.or_eq_true, Bool.and_eq_true, beq_iff_eq, List.all_eq_true,
    List.any_eq_true] at h
  obtain ((h | h) | h) | ⟨⟨hh, ha⟩, he⟩ := h
  · exact .inl h
  · exact .inr (.inl h)
  · exact .inr (.inr (.inl h))
  · refine .inr (.inr (.inr ⟨?_, ha, he⟩))
    cases cs with
    | nil => simp at hh
    | cons c ds => exact ⟨c, ds, rfl, by simpa using hh⟩

private theorem ofToken_float (x : FloatText) : ofToken x.chars = .float x := by
  obtain ⟨cs, h⟩ := x
  obtain rfl | rfl | rfl | ⟨⟨c, ds, rfl, hc⟩, -, -⟩ := isFloatText_cases h
  · rfl
  · rfl
  · rfl
  · have hne : ∀ d, d.isDigit = false → d ≠ '-' → c ≠ d := by
      rintro d hd hm rfl
      simp_all
    have hn := hne 'n' (by decide) (by decide)
    have ht := hne 't' (by decide) (by decide)
    have hf := hne 'f' (by decide) (by decide)
    simp [ofToken, hn, ht, hf, h]

private theorem isFloatText_digits (h : ∀ c ∈ cs, c.isDigit = true ∨ c = '-') :
    isFloatText cs = false := by
  have hne : ∀ d ∈ cs, d ≠ '.' ∧ d ≠ 'e' ∧ d ≠ 'N' ∧ d ≠ 'I' := by
    intro d hd
    obtain h | rfl := h d hd
    · refine ⟨?_, ?_, ?_, ?_⟩ <;> (rintro rfl; exact absurd h (by decide))
    · decide
  by_contra hf
  obtain rfl | rfl | rfl | ⟨-, -, c, hc, he⟩ := isFloatText_cases (Bool.eq_true_of_not_eq_false hf)
  · exact (hne 'N' (by decide)).2.2.1 rfl
  · exact (hne 'I' (by decide)).2.2.2 rfl
  · exact (hne 'I' (by decide)).2.2.2 rfl
  · obtain rfl | rfl := he
    · exact (hne _ hc).1 rfl
    · exact (hne _ hc).2.1 rfl

private theorem intChars_digits (n : Int) : ∀ c ∈ intChars n, c.isDigit = true ∨ c = '-' := by
  cases n with
  | ofNat n => exact fun c hc => .inl (isDigit_of_mem_natText hc)
  | negSucc n =>
    intro c hc
    obtain rfl | hc := List.mem_cons.mp hc
    · exact .inr rfl
    · exact .inl (isDigit_of_mem_natText hc)

private theorem ofToken_intChars (n : Int) : ofToken (intChars n) = .int n := by
  have hd := intChars_digits n
  have hne : ∀ c cs, c.isDigit = false → c ≠ '-' → intChars n ≠ c :: cs := by
    intro c cs hc hm he
    have := hd c (by rw [he]; exact List.mem_cons_self ..)
    simp_all
  have hn := hne 'n' ['u', 'l', 'l'] (by decide) (by decide)
  have ht := hne 't' ['r', 'u', 'e'] (by decide) (by decide)
  have hf := hne 'f' ['a', 'l', 's', 'e'] (by decide) (by decide)
  simp [ofToken, hn, ht, hf, isFloatText_digits hd, intOfToken_intChars]

private theorem ofToken_token? (h : token? v = some cs) :
    ofToken cs = v := by
  cases v with
  | null => cases h; rfl
  | bool b => cases b <;> cases h <;> rfl
  | int n => cases h; exact ofToken_intChars n
  | float x => cases h; exact ofToken_float x
  | str s => cases h
  | arr items => cases h
  | obj fields => cases h

private theorem token?_all (h : token? v = some cs) :
    v.chars = cs ∧ cs ≠ [] ∧ cs.all isTokenChar = true := by
  cases v with
  | null => cases h; decide
  | bool b => cases b <;> cases h <;> decide
  | int n =>
    cases h
    refine ⟨rfl, ?_, ?_⟩
    · cases n <;> simp [chars, intChars, natText_ne_nil]
    · rw [List.all_eq_true]
      intro c hc
      obtain h | rfl := intChars_digits n c hc
      · exact isTokenChar_of_isDigit h
      · decide
  | float x =>
    cases h
    obtain ⟨cs, hx⟩ := x
    refine ⟨rfl, ?_⟩
    simp only [chars]
    obtain rfl | rfl | rfl | ⟨⟨c, ds, rfl, -⟩, ha, -⟩ := isFloatText_cases hx
    · clear hx; decide
    · clear hx; decide
    · clear hx; decide
    · exact ⟨by simp, List.all_eq_true.mpr ha⟩
  | str s => cases h
  | arr items => cases h
  | obj fields => cases h

private theorem token?_chars (h : token? v = some cs) :
    v.chars = cs ∧ cs ≠ [] ∧ ∀ c ∈ cs, isTokenChar c = true := by
  obtain ⟨hv, hne, hall⟩ := token?_all h
  exact ⟨hv, hne, List.all_eq_true.mp hall⟩

private theorem token?_append_inj {a b : Json} {s t : List Char} (ha : token? a = some cs)
    (hs : NoTokenHead s) (ht : NoTokenHead t) (h : a.chars ++ s = b.chars ++ t) :
    a = b ∧ s = t := by
  obtain ⟨hac, hne, htok⟩ := token?_chars ha
  rw [hac] at h
  cases hb : token? b with
  | some ds =>
    obtain ⟨hbc, -, htokb⟩ := token?_chars hb
    rw [hbc] at h
    have hd := congrArg (List.takeWhile isTokenChar) h
    rw [takeWhile_isTokenChar_append htok hs, takeWhile_isTokenChar_append htokb ht] at hd
    subst hd
    exact ⟨(ofToken_token? ha).symm.trans (ofToken_token? hb), List.append_cancel_left h⟩
  | none =>
    -- A string, an array and an object start with a character no token contains.
    obtain ⟨c, cs, rfl⟩ := List.exists_cons_of_ne_nil hne
    have hc := htok c (List.mem_cons_self ..)
    have hhead := congrArg List.head? h
    exfalso
    match b, hb with
    | .str s, _ => simp_all [chars, quoted, isTokenChar]
    | .arr [], _ => simp_all [chars, isTokenChar]
    | .arr (_ :: _), _ => simp_all [chars, isTokenChar]
    | .obj [], _ => simp_all [chars, isTokenChar]
    | .obj (_ :: _), _ => simp_all [chars, isTokenChar]

private theorem noTokenHead_itemsChars (xs : List Json) (s : List Char) :
    NoTokenHead (itemsChars xs ++ s) := by
  cases xs <;> (rintro c ⟨⟩; decide)

private theorem noTokenHead_fieldsChars (fs : List (String × Json)) (s : List Char) :
    NoTokenHead (fieldsChars fs ++ s) := by
  cases fs <;> (rintro c ⟨⟩; decide)

private theorem chars_append_ne_bracket (v : Json) (s t : List Char) :
    v.chars ++ s ≠ ']' :: t := by
  cases h : token? v with
  | some cs =>
    obtain ⟨hv, hne, htok⟩ := token?_chars h
    rw [hv]
    obtain ⟨c, cs, rfl⟩ := List.exists_cons_of_ne_nil hne
    have hc := htok c (List.mem_cons_self ..)
    rintro ⟨⟩
    exact absurd hc (by decide)
  | none =>
    match v, h with
    | .str s, _ => simp [chars, quoted]
    | .arr [], _ => simp [chars]
    | .arr (_ :: _), _ => simp [chars]
    | .obj [], _ => simp [chars]
    | .obj (_ :: _), _ => simp [chars]

mutual

theorem chars_append_inj (a b : Json) {s t : List Char} (hs : NoTokenHead s)
    (ht : NoTokenHead t) (h : a.chars ++ s = b.chars ++ t) : a = b ∧ s = t := by
  cases hb : token? b with
  | some cs =>
    obtain ⟨hba, hts⟩ := token?_append_inj hb ht hs h.symm
    exact ⟨hba.symm, hts.symm⟩
  | none =>
    match a, b, hb with
    | .null, b, _ => exact token?_append_inj rfl hs ht h
    | .bool b', b, _ => exact token?_append_inj rfl hs ht h
    | .int n, b, _ => exact token?_append_inj rfl hs ht h
    | .float x, b, _ => exact token?_append_inj rfl hs ht h
    | .str k, .str l, _ =>
      obtain ⟨rfl, hst⟩ := quoted_append_inj h
      exact ⟨rfl, hst⟩
    | .arr [], .arr [], _ => exact ⟨rfl, by simpa [chars] using h⟩
    | .arr [], .arr (y :: ys), _ =>
      simp only [chars, List.cons_append, List.cons.injEq, true_and, List.append_assoc] at h
      exact absurd h.symm (chars_append_ne_bracket y _ _)
    | .arr (x :: xs), .arr [], _ =>
      simp only [chars, List.cons_append, List.cons.injEq, true_and, List.append_assoc] at h
      exact absurd h (chars_append_ne_bracket x _ _)
    | .arr (x :: xs), .arr (y :: ys), _ =>
      simp only [chars, List.cons_append, List.cons.injEq, true_and, List.append_assoc] at h
      obtain ⟨rfl, hxs⟩ := chars_append_inj x y (noTokenHead_itemsChars _ _)
        (noTokenHead_itemsChars _ _) h
      obtain ⟨rfl, hst⟩ := itemsChars_append_inj xs ys hxs
      exact ⟨rfl, hst⟩
    | .obj [], .obj [], _ => exact ⟨rfl, by simpa [chars] using h⟩
    | .obj [], .obj (_ :: _), _ => simp [chars, quoted] at h
    | .obj (_ :: _), .obj [], _ => simp [chars, quoted] at h
    | .obj ((k, x) :: fs), .obj ((l, y) :: gs), _ =>
      simp only [chars, List.cons_append, List.cons.injEq, true_and, List.append_assoc] at h
      obtain ⟨rfl, hvs⟩ := quoted_append_inj h
      obtain ⟨rfl, hfs⟩ := chars_append_inj x y (noTokenHead_fieldsChars _ _)
        (noTokenHead_fieldsChars _ _) (List.tail_eq_of_cons_eq hvs)
      obtain ⟨rfl, hst⟩ := fieldsChars_append_inj fs gs hfs
      exact ⟨rfl, hst⟩
    | .str _, .arr [], _ | .str _, .arr (_ :: _), _ => simp [chars, quoted] at h
    | .str _, .obj [], _ | .str _, .obj (_ :: _), _ => simp [chars, quoted] at h
    | .arr [], .str _, _ | .arr (_ :: _), .str _, _ => simp [chars, quoted] at h
    | .arr [], .obj [], _ | .arr [], .obj (_ :: _), _ => simp [chars] at h
    | .arr (_ :: _), .obj [], _ | .arr (_ :: _), .obj (_ :: _), _ => simp [chars] at h
    | .obj [], .str _, _ | .obj (_ :: _), .str _, _ => simp [chars, quoted] at h
    | .obj [], .arr [], _ | .obj [], .arr (_ :: _), _ => simp [chars] at h
    | .obj (_ :: _), .arr [], _ | .obj (_ :: _), .arr (_ :: _), _ => simp [chars] at h

theorem itemsChars_append_inj (xs ys : List Json) {s t : List Char}
    (h : itemsChars xs ++ s = itemsChars ys ++ t) : xs = ys ∧ s = t := by
  match xs, ys with
  | [], [] => exact ⟨rfl, by simpa [itemsChars] using h⟩
  | [], _ :: _ => simp [itemsChars] at h
  | _ :: _, [] => simp [itemsChars] at h
  | x :: xs, y :: ys =>
    simp only [itemsChars, List.cons_append, List.cons.injEq, true_and, List.append_assoc] at h
    obtain ⟨rfl, hxs⟩ := chars_append_inj x y (noTokenHead_itemsChars _ _)
      (noTokenHead_itemsChars _ _) h
    obtain ⟨rfl, hst⟩ := itemsChars_append_inj xs ys hxs
    exact ⟨rfl, hst⟩

theorem fieldsChars_append_inj (fs gs : List (String × Json)) {s t : List Char}
    (h : fieldsChars fs ++ s = fieldsChars gs ++ t) : fs = gs ∧ s = t := by
  match fs, gs with
  | [], [] => exact ⟨rfl, by simpa [fieldsChars] using h⟩
  | [], _ :: _ => simp [fieldsChars] at h
  | _ :: _, [] => simp [fieldsChars] at h
  | (k, x) :: fs, (l, y) :: gs =>
    simp only [fieldsChars, List.cons_append, List.cons.injEq, true_and, List.append_assoc] at h
    obtain ⟨rfl, hvs⟩ := quoted_append_inj h
    obtain ⟨rfl, hfs⟩ := chars_append_inj x y (noTokenHead_fieldsChars _ _)
      (noTokenHead_fieldsChars _ _) (List.tail_eq_of_cons_eq hvs)
    obtain ⟨rfl, hst⟩ := fieldsChars_append_inj fs gs hfs
    exact ⟨rfl, hst⟩

end

theorem chars_injective : Function.Injective chars := by
  intro a b h
  have hnil : NoTokenHead [] := by rintro c ⟨⟩
  exact (chars_append_inj a b hnil hnil (by rw [h])).1

mutual

/-- The value with the fields of every object in the order of their keys. -/
def sortKeys : Json → Json
  | .arr items => .arr (sortItems items)
  | .obj fields => .obj ((sortFields fields).insertionSort (fun a b => a.1 ≤ b.1))
  | v => v

/-- The elements of an array with sorted keys. -/
def sortItems : List Json → List Json
  | [] => []
  | item :: items => sortKeys item :: sortItems items

/-- The fields of an object, each with sorted keys. -/
def sortFields : List (String × Json) → List (String × Json)
  | [] => []
  | (key, value) :: fields => (key, sortKeys value) :: sortFields fields

end

theorem sortItems_eq_map (items : List Json) : sortItems items = items.map sortKeys := by
  induction items with
  | nil => rfl
  | cons item items ih => rw [sortItems, ih, List.map_cons]

/-- Arrays that agree up to the order of keys are the same where their elements are. -/
theorem eq_of_sortItems_eq {α : Type} {toJson : α → Json}
    (hinj : Function.Injective fun a => (toJson a).sortKeys) {as bs : List α}
    (h : sortItems (as.map toJson) = sortItems (bs.map toJson)) : as = bs := by
  rw [sortItems_eq_map, sortItems_eq_map, List.map_map, List.map_map] at h
  exact List.map_injective_iff.mpr hinj h

/-- The text with sorted keys and without blanks. -/
def canonical (v : Json) : String := String.ofList v.sortKeys.chars

theorem sortKeys_eq_of_canonical_eq {a b : Json} (h : a.canonical = b.canonical) :
    a.sortKeys = b.sortKeys :=
  chars_injective (String.ofList_injective h)

/-- A character of a text that is kept within ASCII: beyond it stand one or two escapes. -/
def asciiChar (c : Char) : List Char :=
  if c.toNat < 127 then [c]
  else if c.toNat < 65536 then '\\' :: 'u' :: hexChars c.toNat
  else
    let n := c.toNat - 65536
    '\\' :: 'u' :: hexChars (0xD800 + n / 1024) ++ '\\' :: 'u' :: hexChars (0xDC00 + n % 1024)

/-- The canonical text within ASCII. -/
def asciiCanonical (v : Json) : String := String.ofList (v.sortKeys.chars.flatMap asciiChar)

mutual

/-- No number of the value is infinite or undefined. -/
def isFinite : Json → Bool
  | .float x => !(x.chars == "NaN".toList || x.chars == "Infinity".toList ||
      x.chars == "-Infinity".toList)
  | .arr items => itemsFinite items
  | .obj fields => fieldsFinite fields
  | _ => true

/-- No number of the elements is infinite or undefined. -/
def itemsFinite : List Json → Bool
  | [] => true
  | item :: items => isFinite item && itemsFinite items

/-- No number of the fields is infinite or undefined. -/
def fieldsFinite : List (String × Json) → Bool
  | [] => true
  | (_, value) :: fields => isFinite value && fieldsFinite fields

end

/-- The value of a field of an object. -/
def field? (fields : List (String × Json)) (key : String) : Option Json := fields.lookup key

private theorem sortFields_eq_map (fs : List (String × Json)) :
    sortFields fs = fs.map fun e => (e.1, e.2.sortKeys) := by
  induction fs with
  | nil => rfl
  | cons e fs ih => rw [sortFields, List.map_cons, ih]

private theorem lookup_eq_of_perm {α : Type} {fs gs : List (String × α)} (h : fs.Perm gs)
    (hn : (fs.map Prod.fst).Nodup) (k : String) : fs.lookup k = gs.lookup k := by
  induction h with
  | nil => rfl
  | cons e _ ih =>
    rw [List.lookup_cons, List.lookup_cons, ih (List.nodup_cons.mp hn).2]
  | swap e e' l =>
    have hne : e'.1 ≠ e.1 := fun h => (List.nodup_cons.mp hn).1 (by simp [h])
    obtain ⟨a, x⟩ := e
    obtain ⟨b, y⟩ := e'
    simp only [List.lookup_cons]
    by_cases h : k = a
    · subst h
      simp [beq_eq_false_iff_ne.mpr (Ne.symm hne)]
    · simp [beq_eq_false_iff_ne.mpr h]
  | trans h _ ih ih' =>
    rw [ih hn, ih' ((h.map Prod.fst).nodup_iff.mp hn)]

/-- The fields of an object in canonical form. -/
def sortedFields (fields : List (String × Json)) : List (String × Json) :=
  (sortFields fields).insertionSort (fun a b => a.1 ≤ b.1)

theorem sortKeys_obj (fields : List (String × Json)) :
    sortKeys (.obj fields) = .obj (sortedFields fields) := by rw [sortKeys, sortedFields]

private theorem lookup_map_sortKeys (fs : List (String × Json)) (k : String) :
    (fs.map fun e => (e.1, e.2.sortKeys)).lookup k = (fs.lookup k).map sortKeys := by
  induction fs with
  | nil => rfl
  | cons e fs ih =>
    rw [List.map_cons, List.lookup_cons, List.lookup_cons, ih]
    cases k == e.1 <;> rfl

theorem field?_sortedFields (hn : (fs.map Prod.fst).Nodup) (k : String) :
    field? (sortedFields fs) k = (field? fs k).map sortKeys := by
  have hp : (sortedFields fs).Perm (fs.map fun e => (e.1, e.2.sortKeys)) := by
    rw [sortedFields, sortFields_eq_map]
    exact List.perm_insertionSort _ _
  have hnodup : ((fs.map fun e => (e.1, e.2.sortKeys)).map Prod.fst).Nodup := by
    simpa [List.map_map, Function.comp_def] using hn
  rw [field?, lookup_eq_of_perm hp ((hp.map Prod.fst).nodup_iff.mpr hnodup), lookup_map_sortKeys,
    field?]

theorem field?_eq_of_sortKeys_eq (hf : (fs.map Prod.fst).Nodup) (hg : (gs.map Prod.fst).Nodup)
    (h : sortKeys (.obj fs) = sortKeys (.obj gs)) (k : String) :
    (field? fs k).map sortKeys = (field? gs k).map sortKeys := by
  rw [sortKeys_obj, sortKeys_obj, obj.injEq] at h
  rw [← field?_sortedFields hf, ← field?_sortedFields hg, h]

private theorem lookup_eq_none_of_not_mem {k : String} (h : k ∉ fs.map Prod.fst) :
    fs.lookup k = none := by
  rw [List.lookup_eq_none_iff]
  intro p hp
  have hne : p.1 ≠ k := fun he => h (he ▸ List.mem_map_of_mem hp)
  exact bne_iff_ne.mpr hne.symm

private theorem values_eq_of_field?_eq {α : Type} (f : Json → α)
    (hk : fs.map Prod.fst = gs.map Prod.fst) (hn : (fs.map Prod.fst).Nodup)
    (h : ∀ k, (field? fs k).map f = (field? gs k).map f) :
    fs.map (fun e => f e.2) = gs.map (fun e => f e.2) := by
  induction fs generalizing gs with
  | nil => simp_all
  | cons e fs ih =>
    cases gs with
    | nil => simp at hk
    | cons e' gs =>
      obtain ⟨k, v⟩ := e
      obtain ⟨k', v'⟩ := e'
      simp only [List.map_cons, List.cons.injEq] at hk
      obtain ⟨rfl, hk⟩ := hk
      obtain ⟨hne, hn⟩ := List.nodup_cons.mp hn
      have hv : f v = f v' := by simpa [field?, List.lookup_cons] using h k
      have htail := ih hk hn fun l => by
        by_cases hl : l = k
        · subst hl
          rw [field?, field?, lookup_eq_none_of_not_mem hne, lookup_eq_none_of_not_mem (hk ▸ hne)]
        · have hb : (l == k) = false := beq_eq_false_iff_ne.mpr hl
          simpa [field?, List.lookup_cons, hb] using h l
      rw [List.map_cons, List.map_cons, hv, htail]

theorem values_eq_of_sortKeys_eq (h : sortKeys (.obj fs) = sortKeys (.obj gs))
    (hk : fs.map Prod.fst = gs.map Prod.fst) (hn : (fs.map Prod.fst).Nodup) :
    fs.map (fun e => e.2.sortKeys) = gs.map (fun e => e.2.sortKeys) :=
  values_eq_of_field?_eq sortKeys hk hn (field?_eq_of_sortKeys_eq hn (hk ▸ hn) h)

end Json

/-- The SHA-256 function in hexadecimal notation. -/
class Sha256 where
  hexdigest : String → String

def hexdigest [Sha256] (value : String) : String := Sha256.hexdigest value

/-- The first characters of a text. -/
def takeText (n : Nat) (s : String) : String := String.ofList (s.toList.take n)

/-- The digest of a value in canonical form. -/
def jsonDigest [Sha256] (value : Json) : String := hexdigest value.canonical

theorem sortKeys_eq_of_jsonDigest_eq [Sha256]
    (hinj : Function.Injective (hexdigest : String → String)) {a b : Json}
    (h : jsonDigest a = jsonDigest b) : a.sortKeys = b.sortKeys :=
  Json.sortKeys_eq_of_canonical_eq (hinj h)

/-- A separating hash with the given digests of the given texts: each pair is exchanged. -/
@[reducible] def Sha256.ofTable (table : List (String × String)) : Sha256 where
  hexdigest := (table.map fun e => Equiv.swap e.1 e.2).prod

theorem hexdigest_ofTable_injective (table : List (String × String)) :
    Function.Injective (@hexdigest (Sha256.ofTable table)) :=
  (table.map fun e : String × String => Equiv.swap e.1 e.2).prod.injective

end Dayjaview
