import Dayjaview.Core.Error

/-!
# Bytes in letters

Three bytes are written as four characters of an alphabet of sixty-four, and one or two bytes at the
end as two or three. Reading skips what is no character of the alphabet and stops at enough padding;
what was written is read back.
-/

namespace Dayjaview.Base64

/-- The character of a digit: letters, figures, a hyphen and a low line. -/
def digit (n : Nat) : Char :=
  if n < 26 then Char.ofNat (65 + n)
  else if n < 52 then Char.ofNat (71 + n)
  else if n < 62 then Char.ofNat (n - 4)
  else if n = 62 then '-'
  else '_'

/-- The digit of a character; the last two have another character too. -/
def value? (c : Char) : Option Nat :=
  let n := c.toNat
  if 65 ≤ n ∧ n ≤ 90 then some (n - 65)
  else if 97 ≤ n ∧ n ≤ 122 then some (n - 71)
  else if 48 ≤ n ∧ n ≤ 57 then some (n + 4)
  else if c = '-' ∨ c = '+' then some 62
  else if c = '_' ∨ c = '/' then some 63
  else none

/-- The characters of some bytes, without padding. -/
def encode : List UInt8 → List Char
  | a :: b :: c :: rest =>
    digit (a.toNat / 4) :: digit (a.toNat % 4 * 16 + b.toNat / 16) ::
      digit (b.toNat % 16 * 4 + c.toNat / 64) :: digit (c.toNat % 64) :: encode rest
  | [a, b] =>
    [digit (a.toNat / 4), digit (a.toNat % 4 * 16 + b.toNat / 16), digit (b.toNat % 16 * 4)]
  | [a] => [digit (a.toNat / 4), digit (a.toNat % 4 * 16)]
  | [] => []

/-- Read characters behind some digits of a group of four. -/
def decodeFrom (quad left pads : Nat) : List Char → Except Error (List UInt8)
  | [] =>
    if quad = 0 then .ok []
    else if quad = 1 then
      .error ⟨.valueError, "Invalid base64-encoded string: number of data characters " ++
        "cannot be 1 more than a multiple of 4"⟩
    else .error ⟨.valueError, "Incorrect padding"⟩
  | c :: cs =>
    if c = '=' then
      if quad < 2 then decodeFrom quad left pads cs
      else if 4 ≤ quad + (pads + 1) then .ok []
      else decodeFrom quad left (pads + 1) cs
    else match value? c with
      | none => decodeFrom quad left pads cs
      | some v =>
        if quad = 0 then decodeFrom 1 v 0 cs
        else if quad = 1 then (decodeFrom 2 (v % 16) 0 cs).map
          (UInt8.ofNat (left * 4 + v / 16) :: ·)
        else if quad = 2 then (decodeFrom 3 (v % 4) 0 cs).map (UInt8.ofNat (left * 16 + v / 4) :: ·)
        else (decodeFrom 0 0 0 cs).map (UInt8.ofNat (left * 64 + v) :: ·)

/-- The bytes of some characters. -/
def decode (cs : List Char) : Except Error (List UInt8) :=
  if cs.all fun c => decide (c.toNat < 128) then decodeFrom 0 0 0 cs
  else .error ⟨.valueError, "string argument should contain only ASCII characters"⟩

theorem value?_digit : ∀ n < 64, value? (digit n) = some n := by decide

theorem digit_ne_pad : ∀ n < 64, digit n ≠ '=' := by decide

theorem digit_plain : ∀ n < 64, (digit n).toNat < 128 ∧ digit n ≠ '.' := by decide +kernel

theorem decodeFrom_digit {quad left pads n : Nat} (h : n < 64) (cs : List Char) :
    decodeFrom quad left pads (digit n :: cs) =
      if quad = 0 then decodeFrom 1 n 0 cs
      else if quad = 1 then (decodeFrom 2 (n % 16) 0 cs).map (UInt8.ofNat (left * 4 + n / 16) :: ·)
      else if quad = 2 then (decodeFrom 3 (n % 4) 0 cs).map (UInt8.ofNat (left * 16 + n / 4) :: ·)
      else (decodeFrom 0 0 0 cs).map (UInt8.ofNat (left * 64 + n) :: ·) := by
  rw [decodeFrom, if_neg (digit_ne_pad n h), value?_digit n h]

theorem ofNat_eq {b : UInt8} {n : Nat} (h : n = b.toNat) : UInt8.ofNat n = b := by
  rw [h, UInt8.ofNat_toNat]

/-- The padding behind some characters. -/
def padding (length : Nat) : List Char := List.replicate ((4 - length % 4) % 4) '='

theorem decodeFrom_encode (bs : List UInt8) :
    decodeFrom 0 0 0 (encode bs ++ padding (encode bs).length) = .ok bs := by
  induction bs using encode.induct with
  | case1 a b c rest ih =>
    have ha := a.toNat_lt
    have hb := b.toNat_lt
    have hc := c.toNat_lt
    have hpad : padding (encode (a :: b :: c :: rest)).length = padding (encode rest).length := by
      simp only [encode, List.length_cons, padding, Nat.add_assoc, Nat.add_mod_right]
    rw [hpad, encode]
    simp only [List.cons_append]
    rw [decodeFrom_digit (by omega), if_pos rfl, decodeFrom_digit (by omega), if_neg (by decide),
      if_pos rfl, decodeFrom_digit (by omega), if_neg (by decide), if_neg (by decide), if_pos rfl,
      decodeFrom_digit (by omega), if_neg (by decide), if_neg (by decide), if_neg (by decide), ih]
    simp only [Except.map, Except.ok.injEq, List.cons.injEq, and_true]
    exact ⟨ofNat_eq (by omega), ofNat_eq (by omega), ofNat_eq (by omega)⟩
  | case2 a b =>
    have ha := a.toNat_lt
    have hb := b.toNat_lt
    have hpad : decodeFrom 3 (b.toNat % 16 * 4 % 4) 0 ['='] = .ok [] := rfl
    show decodeFrom 0 0 0 (digit _ :: digit _ :: digit _ :: ['=']) = _
    rw [decodeFrom_digit (by omega), if_pos rfl, decodeFrom_digit (by omega), if_neg (by decide),
      if_pos rfl,
      decodeFrom_digit (by omega), if_neg (by decide), if_neg (by decide), if_pos rfl, hpad]
    simp only [Except.map, Except.ok.injEq, List.cons.injEq, and_true]
    exact ⟨ofNat_eq (by omega), ofNat_eq (by omega)⟩
  | case3 a =>
    have ha := a.toNat_lt
    have hpad : decodeFrom 2 (a.toNat % 4 * 16 % 16) 0 ['=', '='] = .ok [] := rfl
    show decodeFrom 0 0 0 (digit _ :: digit _ :: ['=', '=']) = _
    rw [decodeFrom_digit (by omega), if_pos rfl, decodeFrom_digit (by omega), if_neg (by decide),
      if_pos rfl, hpad]
    simp only [Except.map, Except.ok.injEq, List.cons.injEq, and_true]
    exact ofNat_eq (by omega)
  | case4 => rfl

theorem length_encode (bs : List UInt8) : (encode bs).length = (4 * bs.length + 2) / 3 := by
  induction bs using encode.induct with
  | case1 a b c rest ih =>
    simp only [encode, List.length_cons, ih]
    omega
  | case2 a b => simp [encode]
  | case3 a => simp [encode]
  | case4 => rfl

theorem encode_plain (bs : List UInt8) : ∀ c ∈ encode bs, c.toNat < 128 ∧ c ≠ '.' := by
  induction bs using encode.induct with
  | case1 a b c rest ih =>
    have ha := a.toNat_lt
    have hb := b.toNat_lt
    have hc := c.toNat_lt
    simp only [encode, List.forall_mem_cons]
    exact ⟨digit_plain _ (by omega), digit_plain _ (by omega), digit_plain _ (by omega),
      digit_plain _ (by omega), ih⟩
  | case2 a b =>
    have ha := a.toNat_lt
    have hb := b.toNat_lt
    simp only [encode, List.forall_mem_cons]
    exact ⟨digit_plain _ (by omega), digit_plain _ (by omega), digit_plain _ (by omega), fun c hc =>
      by cases hc⟩
  | case3 a =>
    have ha := a.toNat_lt
    simp only [encode, List.forall_mem_cons]
    exact ⟨digit_plain _ (by omega), digit_plain _ (by omega), fun c hc => by cases hc⟩
  | case4 => exact fun c hc => by cases hc

theorem decode_encode (bs : List UInt8) :
    decode (encode bs ++ padding (encode bs).length) = .ok bs := by
  have hascii : ((encode bs ++ padding (encode bs).length).all fun c => decide (c.toNat < 128)) =
      true := by
    rw [List.all_append, Bool.and_eq_true, List.all_eq_true, List.all_eq_true]
    refine ⟨fun c hc => decide_eq_true (encode_plain bs c hc).1, fun c hc => ?_⟩
    rw [List.eq_of_mem_replicate hc]
    rfl
  rw [decode, if_pos hascii, decodeFrom_encode]

end Dayjaview.Base64
