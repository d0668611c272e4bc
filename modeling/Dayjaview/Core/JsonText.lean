import Dayjaview.Core.JsonReader
import Mathlib.Data.List.TakeWhile

/-!
# Written JSON read back

A value without fractions is written with a blank behind each comma and colon and read
back as it was. A text that breaks off before its last bracket is not read at all.
-/

namespace Dayjaview

namespace Json

mutual

/-- The text of a value with a blank behind each comma and colon. -/
def spacedChars : Json → List Char
  | .null => chars .null
  | .bool b => chars (.bool b)
  | .int n => chars (.int n)
  | .float x => chars (.float x)
  | .str s => chars (.str s)
  | .arr [] => ['[', ']']
  | .arr (item :: items) => '[' :: (spacedChars item ++ spacedItems items)
  | .obj [] => ['{', '}']
  | .obj ((key, value) :: fields) =>
    '{' :: (quoted key ++ ':' :: ' ' :: (spacedChars value ++ spacedFields fields))

/-- The further elements of an array and its closing bracket. -/
def spacedItems : List Json → List Char
  | [] => [']']
  | item :: items => ',' :: ' ' :: (spacedChars item ++ spacedItems items)

/-- The further fields of an object and its closing brace. -/
def spacedFields : List (String × Json) → List Char
  | [] => ['}']
  | (key, value) :: fields =>
    ',' :: ' ' :: (quoted key ++ ':' :: ' ' :: (spacedChars value ++ spacedFields fields))

end

/-- The text of a value with sorted keys. -/
def dumps (v : Json) : String := String.ofList v.sortKeys.spacedChars

mutual

/-- The containers that are open at once while a value is read. -/
def depth : Json → Nat
  | .null | .bool _ | .int _ | .float _ | .str _ => 0
  | .arr items => depthItems items + 1
  | .obj fields => depthFields fields + 1

def depthItems : List Json → Nat
  | [] => 0
  | item :: items => max (depth item) (depthItems items)

def depthFields : List (String × Json) → Nat
  | [] => 0
  | (_, value) :: fields => max (depth value) (depthFields fields)

end

mutual

/-- No integer has too many digits to be written. -/
def intsFit : Json → Bool
  | .null | .bool _ | .float _ | .str _ => true
  | .int n => decide ((natText n.natAbs).length ≤ 4300)
  | .arr items => itemsFit items
  | .obj fields => fieldsFit fields

/-- None of the items' integers has. -/
def itemsFit : List Json → Bool
  | [] => true
  | item :: items => intsFit item && itemsFit items

/-- None of the fields' integers has. -/
def fieldsFit : List (String × Json) → Bool
  | [] => true
  | (_, value) :: fields => intsFit value && fieldsFit fields

end

/-- The text of a value, unless an integer is too long. -/
def dumpText (v : Json) : Except Error String :=
  if v.intsFit then .ok v.dumps
  else .error ⟨.valueError, "Exceeds the limit (4300 digits) for integer string conversion; " ++
    "use sys.set_int_max_str_digits() to increase the limit"⟩

mutual

/-- A value without fractions and repeated keys. -/
def Plain : Json → Prop
  | .null | .bool _ | .str _ | .int _ => True
  | .float _ => False
  | .arr items => PlainItems items
  | .obj fields => (fields.map Prod.fst).Nodup ∧ PlainFields fields

def PlainItems : List Json → Prop
  | [] => True
  | item :: items => Plain item ∧ PlainItems items

def PlainFields : List (String × Json) → Prop
  | [] => True
  | (_, value) :: fields => Plain value ∧ PlainFields fields

end

mutual

/-- A value without fractions, long integers and repeated keys. -/
def Readable : Json → Prop
  | .null | .bool _ | .str _ => True
  | .int n => (natText n.natAbs).length ≤ 4300
  | .float _ => False
  | .arr items => ReadableItems items
  | .obj fields => (fields.map Prod.fst).Nodup ∧ ReadableFields fields

def ReadableItems : List Json → Prop
  | [] => True
  | item :: items => Readable item ∧ ReadableItems items

def ReadableFields : List (String × Json) → Prop
  | [] => True
  | (_, value) :: fields => Readable value ∧ ReadableFields fields

end

mutual

theorem readable_of_plain : ∀ v : Json, v.Plain → v.intsFit = true → v.Readable
  | .null, _, _ => trivial
  | .bool _, _, _ => trivial
  | .str _, _, _ => trivial
  | .int n, _, hfit =>
    show (natText n.natAbs).length ≤ 4300 from of_decide_eq_true hfit
  | .float _, h, _ => h
  | .arr items, h, hfit => readableItems_of_plain items h hfit
  | .obj fields, h, hfit => ⟨h.1, readableFields_of_plain fields h.2 hfit⟩

theorem readableItems_of_plain : ∀ items : List Json, PlainItems items → itemsFit items = true →
    ReadableItems items
  | [], _, _ => trivial
  | item :: items, h, hfit =>
    have hboth := Bool.and_eq_true_iff.mp hfit
    ⟨readable_of_plain item h.1 hboth.1, readableItems_of_plain items h.2 hboth.2⟩

theorem readableFields_of_plain : ∀ fields : List (String × Json), PlainFields fields →
    fieldsFit fields = true → ReadableFields fields
  | [], _, _ => trivial
  | (_, value) :: fields, h, hfit =>
    have hboth := Bool.and_eq_true_iff.mp hfit
    ⟨readable_of_plain value h.1 hboth.1, readableFields_of_plain fields h.2 hboth.2⟩

end

theorem plainItems_iff {items : List Json} : PlainItems items ↔ ∀ item ∈ items, item.Plain := by
  induction items with
  | nil => simp [PlainItems]
  | cons item items ih => simp [PlainItems, ih]

variable {fields : List (String × Json)}

theorem plainFields_iff :
    PlainFields fields ↔ ∀ field ∈ fields, field.2.Plain := by
  induction fields with
  | nil => simp [PlainFields]
  | cons field fields ih => simp [PlainFields, ih]

theorem readableFields_iff :
    ReadableFields fields ↔ ∀ field ∈ fields, field.2.Readable := by
  induction fields with
  | nil => simp [ReadableFields]
  | cons field fields ih => simp [ReadableFields, ih]

theorem depthItems_le_iff {items : List Json} {n : Nat} :
    depthItems items ≤ n ↔ ∀ item ∈ items, item.depth ≤ n := by
  induction items with
  | nil => simp [depthItems]
  | cons item items ih => simp [depthItems, ih]

theorem depthFields_le_iff {n : Nat} :
    depthFields fields ≤ n ↔ ∀ field ∈ fields, field.2.depth ≤ n := by
  induction fields with
  | nil => simp [depthFields]
  | cons field fields ih => simp [depthFields, ih]

theorem map_fst_sortFields (fields : List (String × Json)) :
    (sortFields fields).map Prod.fst = fields.map Prod.fst := by
  induction fields with
  | nil => rfl
  | cons field fields ih => rw [sortFields, List.map_cons, ih, List.map_cons]

mutual

theorem readable_sortKeys : ∀ v : Json, v.Readable → v.sortKeys.Readable
  | .null, h => h
  | .bool _, h => h
  | .str _, h => h
  | .int _, h => h
  | .float _, h => h
  | .arr items, h => readableItems_sortItems items h
  | .obj fields, h => by
    have hsorted := readableFields_sortFields fields h.2
    have hperm := List.perm_insertionSort (fun a b : String × Json => a.1 ≤ b.1) (sortFields fields)
    rw [readableFields_iff] at hsorted
    refine ⟨?_, readableFields_iff.mpr fun field hfield => hsorted field (hperm.mem_iff.mp hfield)⟩
    rw [(hperm.map Prod.fst).nodup_iff, map_fst_sortFields]
    exact h.1

theorem readableItems_sortItems : ∀ items : List Json, ReadableItems items →
    ReadableItems (sortItems items)
  | [], h => h
  | item :: items, h => ⟨readable_sortKeys item h.1, readableItems_sortItems items h.2⟩

theorem readableFields_sortFields : ∀ fields : List (String × Json), ReadableFields fields →
    ReadableFields (sortFields fields)
  | [], h => h
  | (_, value) :: fields, h => ⟨readable_sortKeys value h.1, readableFields_sortFields fields h.2⟩

end

mutual

theorem depth_sortKeys_le : ∀ v : Json, v.sortKeys.depth ≤ v.depth
  | .null | .bool _ | .str _ | .int _ | .float _ => Nat.le_refl _
  | .arr items => Nat.succ_le_succ (depthItems_sortItems_le items)
  | .obj fields => by
    have hperm := List.perm_insertionSort (fun a b : String × Json => a.1 ≤ b.1) (sortFields fields)
    have hsorted := depthFields_le_iff.mp (depthFields_sortFields_le fields)
    refine Nat.succ_le_succ (depthFields_le_iff.mpr fun field hfield => ?_)
    exact hsorted field (hperm.mem_iff.mp hfield)

theorem depthItems_sortItems_le :
    ∀ items : List Json, depthItems (sortItems items) ≤ depthItems items
  | [] => Nat.le_refl _
  | item :: items => by
    have hitem := depth_sortKeys_le item
    have hitems := depthItems_sortItems_le items
    simp only [sortItems, depthItems]
    omega

theorem depthFields_sortFields_le : ∀ fields : List (String × Json),
    depthFields (sortFields fields) ≤ depthFields fields
  | [] => Nat.le_refl _
  | (_, value) :: fields => by
    have hvalue := depth_sortKeys_le value
    have hfields := depthFields_sortFields_le fields
    simp only [sortFields, depthFields]
    omega

end

end Json

theorem head?_natText {n : Nat} (h : 0 < n) : (natText n).head? ≠ some '0' := by
  induction n using Nat.strong_induction_on with
  | _ n ih =>
    unfold natText at ih ⊢
    rcases Nat.lt_or_ge n 10 with hlt | hge
    · rw [Nat.toDigits_of_lt_base hlt]
      interval_cases n <;> decide
    · rw [Nat.toDigits_of_base_le (by decide) hge, List.head?_append]
      have hdiv := ih (n / 10) (by omega) (by omega)
      cases hdigits : Nat.toDigits 10 (n / 10) with
      | nil => exact absurd hdigits Nat.toDigits_ne_nil
      | cons c cs =>
        rw [hdigits] at hdiv
        simpa using hdiv

namespace JsonReader

theorem hexValue_digitChar : ∀ n < 16, hexValue (Nat.digitChar n) = some n := by decide

variable [JsonRuntime]

theorem foldlM_code (stack : List Frame) (role : Role) (cs : List Char) (high : Option Nat)
    {n : Nat}
    (h : n < 65536) : ('\\' :: 'u' :: Json.hexChars n).foldlM step ⟨stack, .string role cs high⟩ =
      .ok ⟨stack, addCode role cs high n⟩ := by
  have hopen : ['\\', 'u'].foldlM step ⟨stack, .string role cs high⟩ =
      .ok ⟨stack, .hex role cs high []⟩ := rfl
  have hdigit : ∀ (digits : List Char) (k : Nat), digits.length < 3 → k < 16 →
      step ⟨stack, .hex role cs high digits⟩ (Nat.digitChar k) =
        .ok ⟨stack, .hex role cs high (digits ++ [Nat.digitChar k])⟩ := by
    intro digits k hlength hk
    simp [step, stepPlain, stepHex, hexValue_digitChar k hk, hlength]
  have hcode : [n / 4096 % 16, n / 256 % 16, n / 16 % 16, n % 16].foldl
      (fun code d => 16 * code + d) 0 = n := by
    simp only [List.foldl_cons, List.foldl_nil]
    omega
  generalize hd₁ : n / 4096 % 16 = d₁ at hcode
  generalize hd₂ : n / 256 % 16 = d₂ at hcode
  generalize hd₃ : n / 16 % 16 = d₃ at hcode
  generalize hd₄ : n % 16 = d₄ at hcode
  have h₁ : d₁ < 16 := by omega
  have h₂ : d₂ < 16 := by omega
  have h₃ : d₃ < 16 := by omega
  have h₄ : d₄ < 16 := by omega
  have hlast :
      step ⟨stack, .hex role cs high [Nat.digitChar d₁, Nat.digitChar d₂, Nat.digitChar d₃]⟩
      (Nat.digitChar d₄) = .ok ⟨stack, addCode role cs high n⟩ := by
    rw [← hcode]
    simp [step, stepPlain, stepHex, hexValue_digitChar _ h₁, hexValue_digitChar _ h₂,
      hexValue_digitChar _ h₃, hexValue_digitChar _ h₄]
  have hchars : Json.hexChars n =
      [Nat.digitChar d₁, Nat.digitChar d₂, Nat.digitChar d₃, Nat.digitChar d₄] := by
    rw [Json.hexChars, hd₁, hd₂, hd₃, hd₄]
  show (['\\', 'u'] ++ Json.hexChars n).foldlM step _ = _
  rw [List.foldlM_append, hopen, hchars]
  show [Nat.digitChar d₁, Nat.digitChar d₂, Nat.digitChar d₃, Nat.digitChar d₄].foldlM step
    ⟨stack, .hex role cs high []⟩ = _
  rw [List.foldlM_cons, hdigit [] d₁ (by decide) h₁]
  show [Nat.digitChar d₂, Nat.digitChar d₃, Nat.digitChar d₄].foldlM step
    ⟨stack, .hex role cs high [Nat.digitChar d₁]⟩ = _
  rw [List.foldlM_cons, hdigit _ d₂ (by simp) h₂]
  show [Nat.digitChar d₃, Nat.digitChar d₄].foldlM step
    ⟨stack, .hex role cs high [Nat.digitChar d₁, Nat.digitChar d₂]⟩ = _
  rw [List.foldlM_cons, hdigit _ d₃ (by simp) h₃]
  show [Nat.digitChar d₄].foldlM step
    ⟨stack, .hex role cs high [Nat.digitChar d₁, Nat.digitChar d₂, Nat.digitChar d₃]⟩ = _
  rw [List.foldlM_cons, hlast]
  rfl

omit [JsonRuntime] in
theorem addCode_plain (role : Role) (cs : List Char) {n : Nat} (h : n < 0xD800 ∨ 0xDFFF < n) :
    addCode role cs none n = .string role (cs ++ [Char.ofNat n]) none := by
  rw [addCode, if_neg (by omega), if_neg (by omega), flush]

theorem foldlM_escapeChar (stack : List Frame) (role : Role) (cs : List Char) (c : Char) :
    (Json.escapeChar c).foldlM step ⟨stack, .string role cs none⟩ =
      .ok ⟨stack, .string role (cs ++ [c]) none⟩ := by
  have hchar := Char.ofNat_toNat c
  unfold Json.escapeChar
  split_ifs with hquote hback hline hreturn htab hfeed hbell hcontrol
  · subst hquote
    rfl
  · subst hback
    rfl
  · subst hline
    rfl
  · subst hreturn
    rfl
  · subst htab
    rfl
  · rw [hfeed] at hchar
    subst hchar
    rfl
  · rw [hbell] at hchar
    subst hchar
    rfl
  · rw [foldlM_code stack role cs none (by omega), addCode_plain role cs (by omega), hchar]
  · simp [step, stepPlain, stepString, hquote, hback, hcontrol, flush]

theorem foldlM_escape (stack : List Frame) (role : Role) (cs ds : List Char) :
    (Json.escape ds).foldlM step ⟨stack, .string role cs none⟩ =
      .ok ⟨stack, .string role (cs ++ ds) none⟩ := by
  induction ds generalizing cs with
  | nil => simp [Json.escape]; rfl
  | cons d ds ih =>
    have hcons : Json.escape (d :: ds) = Json.escapeChar d ++ Json.escape ds := rfl
    rw [hcons, List.foldlM_append, foldlM_escapeChar]
    show (Json.escape ds).foldlM step ⟨stack, .string role (cs ++ [d]) none⟩ = _
    rw [ih, List.append_assoc]
    rfl

theorem foldlM_quoted {stack : List Frame} {role : Role} (text : String) {s : State}
    (hs : step s '"' = .ok ⟨stack, .string role [] none⟩) :
    (Json.quoted text).foldlM step s = .ok (completeString stack role text.toList) := by
  unfold Json.quoted
  rw [List.cons_append, List.foldlM_cons, hs]
  show (Json.escape text.toList ++ ['"']).foldlM step ⟨stack, .string role [] none⟩ = _
  rw [List.foldlM_append, foldlM_escape]
  rfl

theorem foldlM_number (stack : List Frame) (cs ds : List Char)
    (h : ∀ d ∈ ds, isNumberChar d = true) :
    ds.foldlM step ⟨stack, .number cs⟩ = .ok ⟨stack, .number (cs ++ ds)⟩ := by
  induction ds generalizing cs with
  | nil => simp; rfl
  | cons d ds ih =>
    have hstep : step ⟨stack, .number cs⟩ d = .ok ⟨stack, .number (cs ++ [d])⟩ := by
      simp only [step, h d List.mem_cons_self, if_true]
    rw [List.foldlM_cons, hstep]
    show ds.foldlM step ⟨stack, .number (cs ++ [d])⟩ = _
    rw [ih _ fun d hd => h d (List.mem_cons_of_mem _ hd), List.append_assoc]
    rfl

variable {c : Char} {s : State} {v : Json}

section

omit [JsonRuntime]

theorem isNumberChar_of_isDigit (h : c.isDigit = true) : isNumberChar c = true := by
  simp [isNumberChar, h]

theorem intChars_cons (n : Int) : ∃ c cs, Json.intChars n = c :: cs ∧
    (c.isDigit = true ∨ c = '-') ∧ ∀ d ∈ cs, isNumberChar d = true := by
  cases n with
  | ofNat n =>
    cases h : natText n with
    | nil => exact absurd h (natText_ne_nil n)
    | cons c cs =>
      have hdigits : ∀ d ∈ c :: cs, d.isDigit = true := by
        intro d hd
        rw [← h] at hd
        exact isDigit_of_mem_natText hd
      exact ⟨c, cs, h, .inl (hdigits c List.mem_cons_self), fun d hd =>
        isNumberChar_of_isDigit (hdigits d (List.mem_cons_of_mem _ hd))⟩
  | negSucc n =>
    exact ⟨'-', natText (n + 1), rfl, .inr rfl, fun d hd =>
      isNumberChar_of_isDigit (isDigit_of_mem_natText hd)⟩

theorem readInteger_natText (n : Nat) : readInteger (natText n) = some (natText n, []) := by
  have hdigits : ∀ c ∈ natText n, c.isDigit = true := fun c hc => isDigit_of_mem_natText hc
  cases h : natText n with
  | nil => exact absurd h (natText_ne_nil n)
  | cons c cs =>
    rw [h] at hdigits
    by_cases hzero : c = '0'
    · rcases Nat.eq_zero_or_pos n with rfl | hpos
      · have htext : natText 0 = ['0'] := rfl
        rw [htext, List.cons.injEq] at h
        obtain ⟨rfl, rfl⟩ := h
        rfl
      · have hhead := head?_natText hpos
        rw [h, hzero] at hhead
        exact absurd rfl hhead
    · have htake : (c :: cs).takeWhile (·.isDigit) = c :: cs :=
        List.takeWhile_eq_self_iff.mpr hdigits
      have hdrop : (c :: cs).dropWhile (·.isDigit) = [] := List.dropWhile_eq_nil_iff.mpr hdigits
      simp only [readInteger, if_neg hzero, hdigits c List.mem_cons_self, if_true, takeDigits,
        htake, hdrop]

end

theorem readNumber_intChars {n : Int} (h : (natText n.natAbs).length ≤ 4300) :
    readNumber (Json.intChars n) = .ok (.int n) := by
  have hsign : ∀ m : Nat, ((natText m).takeWhile (· == '-')).take 1 = [] := by
    intro m
    cases hm : natText m with
    | nil => rfl
    | cons c cs =>
      have hc : c.isDigit = true := isDigit_of_mem_natText (hm ▸ List.mem_cons_self)
      have hne : (c == '-') = false := by
        rw [beq_eq_false_iff_ne]
        rintro rfl
        exact absurd hc (by decide)
      simp [hne]
  cases n with
  | ofNat n =>
    have hlength : ¬ 4300 < (natText n).length := Nat.not_lt.mpr h
    simp [readNumber, Json.intChars, hsign, readInteger_natText, readFraction, readPower, hlength,
      ofDigitChars_natText]
  | negSucc n =>
    have hlength : ¬ 4300 < (natText (n + 1)).length := Nat.not_lt.mpr h
    have hfirst : (('-' :: natText (n + 1)).takeWhile (· == '-')).take 1 = ['-'] := by simp
    simp [readNumber, Json.intChars, readInteger_natText, readFraction, readPower, hlength,
      ofDigitChars_natText, Int.negSucc_eq]

/-- A value was read, up to the character that ends it if it is a number. -/
def Read (stack : List Frame) (v : Json) (s : State) : Prop :=
  s = complete stack v ∨
    ∃ cs, s = ⟨stack, .number cs⟩ ∧ cs ≠ ['-'] ∧ readNumber cs = .ok v

theorem step_of_read {stack : List Frame} (hs : Read stack v s) (hc : isNumberChar c = false) :
    step s c = stepPlain (complete stack v) c := by
  rcases hs with rfl | ⟨cs, rfl, hne, hread⟩
  · unfold complete
    split <;> rfl
  · simp [step, hc, hne, hread]
    rfl

omit [JsonRuntime] in
theorem spacedChars_cons (hv : v.Readable) : ∃ c cs, v.spacedChars = c :: cs ∧
    isBlankChar c = false ∧ c ≠ ']' ∧ c ≠ '\uFEFF' := by
  cases v with
  | null => exact ⟨'n', _, rfl, rfl, by decide, by decide⟩
  | bool b =>
    cases b with
    | true => exact ⟨'t', _, rfl, rfl, by decide, by decide⟩
    | false => exact ⟨'f', _, rfl, rfl, by decide, by decide⟩
  | int n =>
    obtain ⟨c, cs, hcs, hc, -⟩ := intChars_cons n
    refine ⟨c, cs, hcs, ?_⟩
    rcases hc with hdigit | rfl
    · refine ⟨?_, ?_, ?_⟩
      · by_contra hblank
        simp only [isBlankChar, Bool.not_eq_false, Bool.or_eq_true, beq_iff_eq] at hblank
        rcases hblank with ((rfl | rfl) | rfl) | rfl <;> exact absurd hdigit (by decide)
      · rintro rfl
        exact absurd hdigit (by decide)
      · rintro rfl
        exact absurd hdigit (by decide)
    · exact ⟨rfl, by decide, by decide⟩
  | float x => exact hv.elim
  | str text => exact ⟨'"', _, rfl, rfl, by decide, by decide⟩
  | arr items =>
    cases items with
    | nil => exact ⟨'[', _, rfl, rfl, by decide, by decide⟩
    | cons item items => exact ⟨'[', _, rfl, rfl, by decide, by decide⟩
  | obj fields =>
    cases fields with
    | nil => exact ⟨'{', _, rfl, rfl, by decide, by decide⟩
    | cons field fields => exact ⟨'{', _, rfl, rfl, by decide, by decide⟩

theorem foldlM_firstItem (hv : v.Readable) (stack : List Frame) (rest : List Char) :
    (v.spacedChars ++ rest).foldlM step ⟨stack, .firstItem⟩ =
      (v.spacedChars ++ rest).foldlM step ⟨.arr [] :: stack, .value⟩ := by
  obtain ⟨c, cs, hcs, hblank, hclose, -⟩ := spacedChars_cons hv
  have hstep : step ⟨stack, .firstItem⟩ c = step ⟨.arr [] :: stack, .value⟩ c := by
    simp [step, stepPlain, hblank, hclose]
  rw [hcs, List.cons_append, List.foldlM_cons, List.foldlM_cons, hstep]

theorem step_bracket (stack : List Frame) (h : stack.length < JsonRuntime.recursionLimit) :
    step ⟨stack, .value⟩ '[' = .ok ⟨stack, .firstItem⟩ := if_pos h

theorem step_brace (stack : List Frame) (h : stack.length < JsonRuntime.recursionLimit) :
    step ⟨stack, .value⟩ '{' = .ok ⟨stack, .firstKey⟩ := if_pos h

theorem step_digit (stack : List Frame) (h : c.isDigit = true) :
    step ⟨stack, .value⟩ c = .ok ⟨stack, .number [c]⟩ := by
  have hne : ∀ d : Char, d.isDigit = false → c ≠ d := by
    rintro d hd rfl
    rw [h] at hd
    cases hd
  simp [step, stepPlain, isBlankChar, startValue, h, hne ' ' rfl, hne '\t' rfl, hne '\n' rfl,
    hne '\r' rfl, hne '"' rfl, hne '[' rfl, hne '{' rfl, hne 'n' rfl, hne 't' rfl, hne 'f' rfl,
    hne 'N' rfl, hne 'I' rfl]

theorem foldlM_key {stack : List Frame} {fields : List (String × Json)} (key : String) {s : State}
    (hs : step s '"' = .ok ⟨stack, .string (.key fields) [] none⟩) (rest : List Char) :
    (Json.quoted key ++ ':' :: ' ' :: rest).foldlM step s =
      rest.foldlM step ⟨.pair fields key :: stack, .value⟩ := by
  rw [List.foldlM_append, foldlM_quoted key hs]
  show (':' :: ' ' :: rest).foldlM step ⟨stack, .colon fields (String.ofList key.toList)⟩ = _
  rw [String.ofList_toList]
  rfl

mutual

theorem read_spacedChars : ∀ (v : Json), v.Readable → ∀ (stack : List Frame),
    stack.length + v.depth ≤ JsonRuntime.recursionLimit →
    ∃ s, v.spacedChars.foldlM step ⟨stack, .value⟩ = .ok s ∧ Read stack v s
  | .null, _, stack, _ => ⟨_, rfl, .inl rfl⟩
  | .bool true, _, stack, _ => ⟨_, rfl, .inl rfl⟩
  | .bool false, _, stack, _ => ⟨_, rfl, .inl rfl⟩
  | .int n, hv, stack, _ => by
    obtain ⟨c, cs, hcs, hc, hrest⟩ := intChars_cons n
    have hstart : step ⟨stack, .value⟩ c = .ok ⟨stack, .number [c]⟩ := by
      rcases hc with hdigit | rfl
      · exact step_digit stack hdigit
      · rfl
    refine ⟨⟨stack, .number (Json.intChars n)⟩, ?_, .inr ⟨_, rfl, ?_, readNumber_intChars hv⟩⟩
    · show (Json.intChars n).foldlM step ⟨stack, .value⟩ = _
      rw [hcs, List.foldlM_cons, hstart]
      exact foldlM_number stack [c] cs hrest
    · intro h
      have hread := readNumber_intChars hv
      rw [h] at hread
      cases hread
  | .float _, hv, _, _ => hv.elim
  | .str text, _, stack, _ => by
    refine ⟨complete stack (.str text), ?_, .inl rfl⟩
    have hread : (Json.quoted text).foldlM step ⟨stack, .value⟩ =
        .ok (completeString stack .value text.toList) := foldlM_quoted text rfl
    rw [completeString, String.ofList_toList] at hread
    exact hread
  | .arr [], _, stack, hdepth => by
    have henter := step_bracket stack (by
      simp only [Json.depth, Json.depthItems] at hdepth
      omega)
    refine ⟨complete stack (.arr []), ?_, .inl rfl⟩
    show ['[', ']'].foldlM step ⟨stack, .value⟩ = _
    rw [List.foldlM_cons, henter]
    rfl
  | .arr (item :: items), hv, stack, hdepth => by
    obtain ⟨hitem, hitems⟩ := hv
    simp only [Json.depth, Json.depthItems] at hdepth
    have henter := step_bracket stack (by omega)
    obtain ⟨s, hs, hread⟩ := read_spacedChars item hitem (.arr [] :: stack) (by
      rw [List.length_cons]
      omega)
    refine ⟨complete stack (.arr (item :: items)), ?_, .inl rfl⟩
    show ('[' :: (item.spacedChars ++ Json.spacedItems items)).foldlM step ⟨stack, .value⟩ = _
    rw [List.foldlM_cons, henter]
    show (item.spacedChars ++ Json.spacedItems items).foldlM step ⟨stack, .firstItem⟩ = _
    rw [foldlM_firstItem hitem, List.foldlM_append, hs]
    exact read_spacedItems items hitems stack [] item s (by omega) hread
  | .obj [], _, stack, hdepth => by
    have henter := step_brace stack (by
      simp only [Json.depth, Json.depthFields] at hdepth
      omega)
    refine ⟨complete stack (.obj []), ?_, .inl rfl⟩
    show ['{', '}'].foldlM step ⟨stack, .value⟩ = _
    rw [List.foldlM_cons, henter]
    rfl
  | .obj ((key, value) :: fields), hv, stack, hdepth => by
    obtain ⟨hnodup, hvalue, hfields⟩ := hv
    simp only [Json.depth, Json.depthFields] at hdepth
    have henter := step_brace stack (by omega)
    obtain ⟨s, hs, hread⟩ := read_spacedChars value hvalue (.pair [] key :: stack) (by
      rw [List.length_cons]
      omega)
    refine ⟨complete stack (.obj ((key, value) :: fields)), ?_, .inl rfl⟩
    show ('{' :: (Json.quoted key ++ ':' :: ' ' :: (value.spacedChars ++
      Json.spacedFields fields))).foldlM step ⟨stack, .value⟩ = _
    rw [List.foldlM_cons, henter]
    show (Json.quoted key ++ ':' :: ' ' :: (value.spacedChars ++
      Json.spacedFields fields)).foldlM step ⟨stack, .firstKey⟩ = _
    rw [foldlM_key key rfl, List.foldlM_append, hs]
    have hrest := read_spacedFields fields hfields stack [] key value s (by omega) hread
    rw [List.nil_append, completeObject, Dict.entries_ofList hnodup] at hrest
    exact hrest

theorem read_spacedItems : ∀ (items : List Json), Json.ReadableItems items →
    ∀ (stack : List Frame) (first : List Json) (v : Json) (s : State),
    stack.length + 1 + Json.depthItems items ≤ JsonRuntime.recursionLimit →
    Read (.arr first :: stack) v s →
    (Json.spacedItems items).foldlM step s = .ok (complete stack (.arr (first ++ v :: items)))
  | [], _, stack, first, v, s, _, hs => by
    show [']'].foldlM step s = _
    rw [List.foldlM_cons, step_of_read hs rfl]
    rfl
  | item :: items, hv, stack, first, v, s, hdepth, hs => by
    obtain ⟨hitem, hitems⟩ := hv
    simp only [Json.depthItems] at hdepth
    obtain ⟨t, ht, hread⟩ := read_spacedChars item hitem (.arr (first ++ [v]) :: stack) (by
      rw [List.length_cons]
      omega)
    show (',' :: ' ' :: (item.spacedChars ++ Json.spacedItems items)).foldlM step s = _
    rw [List.foldlM_cons, step_of_read hs rfl]
    show (item.spacedChars ++ Json.spacedItems items).foldlM step
      ⟨.arr (first ++ [v]) :: stack, .value⟩ = _
    rw [List.foldlM_append, ht]
    have hrest := read_spacedItems items hitems stack (first ++ [v]) item t (by omega) hread
    rw [List.append_assoc, List.singleton_append] at hrest
    exact hrest

theorem read_spacedFields : ∀ (fields : List (String × Json)), Json.ReadableFields fields →
    ∀ (stack : List Frame) (first : List (String × Json)) (key : String) (v : Json) (s : State),
    stack.length + 1 + Json.depthFields fields ≤ JsonRuntime.recursionLimit →
    Read (.pair first key :: stack) v s →
    (Json.spacedFields fields).foldlM step s =
      .ok (completeObject stack (first ++ (key, v) :: fields))
  | [], _, stack, first, key, v, s, _, hs => by
    show ['}'].foldlM step s = _
    rw [List.foldlM_cons, step_of_read hs rfl]
    rfl
  | (name, value) :: fields, hv, stack, first, key, v, s, hdepth, hs => by
    obtain ⟨hvalue, hfields⟩ := hv
    simp only [Json.depthFields] at hdepth
    obtain ⟨t, ht, hread⟩ := read_spacedChars value hvalue
      (.pair (first ++ [(key, v)]) name :: stack) (by
        rw [List.length_cons]
        omega)
    show (',' :: ' ' :: (Json.quoted name ++ ':' :: ' ' :: (value.spacedChars ++
      Json.spacedFields fields))).foldlM step s = _
    rw [List.foldlM_cons, step_of_read hs rfl]
    show (Json.quoted name ++ ':' :: ' ' :: (value.spacedChars ++
      Json.spacedFields fields)).foldlM step ⟨stack, .key (first ++ [(key, v)])⟩ = _
    rw [foldlM_key name rfl, List.foldlM_append, ht]
    have hrest := read_spacedFields fields hfields stack (first ++ [(key, v)]) name value t
      (by omega) hread
    rw [List.append_assoc, List.singleton_append] at hrest
    exact hrest

end

/-- A number, a name or nothing is left to read, and no bracket. -/
def Outside (s : State) : Prop :=
  (∃ v, s.mode = .ended v) ∨ s.stack = [] ∧ ((∃ cs, s.mode = .number cs) ∨
    ∃ rest v, s.mode = .literal rest v ∧ ']' ∉ rest ∧ '}' ∉ rest)

theorem outside_of_finish (h : finish s = .ok v) : Outside s := by
  obtain ⟨stack, mode⟩ := s
  cases mode with
  | ended v => exact .inl ⟨v, rfl⟩
  | number cs =>
    simp only [finish] at h
    cases hread : readNumber cs with
    | error e =>
      rw [hread] at h
      cases h
    | ok n =>
      rw [hread] at h
      cases stack with
      | nil => exact .inr ⟨rfl, .inl ⟨cs, rfl⟩⟩
      | cons frame stack => cases h
  | _ => cases h

theorem step_ended {stack : List Frame} (h : stepPlain ⟨stack, .ended v⟩ c = .ok s) :
    isBlankChar c = true ∧ s = ⟨stack, .ended v⟩ := by
  by_cases hblank : isBlankChar c = true
  · simp only [stepPlain, if_pos hblank, Except.ok.injEq] at h
    exact ⟨hblank, h.symm⟩
  · simp only [stepPlain, if_neg hblank] at h
    cases h

omit [JsonRuntime] in
theorem ne_bracket_of_isBlankChar (h : isBlankChar c = true) : c ≠ ']' ∧ c ≠ '}' := by
  constructor
  · rintro rfl
    cases h
  · rintro rfl
    cases h

theorem outside_step {s' : State} (hs : Outside s) (h : step s c = .ok s') :
    (c ≠ ']' ∧ c ≠ '}') ∧ Outside s' := by
  obtain ⟨stack, mode⟩ := s
  rcases hs with ⟨v, hmode⟩ | ⟨hstack, ⟨cs, hmode⟩ | ⟨rest, v, hmode, hsquare, hcurly⟩⟩
  · obtain rfl : mode = .ended v := hmode
    obtain ⟨hblank, rfl⟩ := step_ended h
    exact ⟨ne_bracket_of_isBlankChar hblank, .inl ⟨v, rfl⟩⟩
  · obtain rfl : mode = .number cs := hmode
    obtain rfl : stack = [] := hstack
    simp only [step] at h
    split at h
    · rename_i hnumber
      cases h
      refine ⟨⟨?_, ?_⟩, .inr ⟨rfl, .inl ⟨_, rfl⟩⟩⟩
      · rintro rfl
        cases hnumber
      · rintro rfl
        cases hnumber
    · split at h
      · rename_i hinfinity
        obtain ⟨-, rfl⟩ := hinfinity
        cases h
        exact ⟨⟨by decide, by decide⟩, .inr ⟨rfl, .inr ⟨_, _, rfl, by decide, by decide⟩⟩⟩
      · cases hread : readNumber cs with
        | error e =>
          rw [hread] at h
          cases h
        | ok v =>
          rw [hread] at h
          obtain ⟨hblank, rfl⟩ := step_ended h
          exact ⟨ne_bracket_of_isBlankChar hblank, .inl ⟨v, rfl⟩⟩
  · obtain rfl : mode = .literal rest v := hmode
    obtain rfl : stack = [] := hstack
    cases rest with
    | nil => cases h
    | cons next rest =>
      have hchars : c = next ∧ s' = if rest = [] then complete [] v else ⟨[], .literal rest v⟩ := by
        simp only [step, stepPlain] at h
        split at h
        · cases h
        · rename_i hnext
          refine ⟨not_not.mp hnext, ?_⟩
          split at h <;> rename_i hrest
          · rw [if_pos hrest]
            exact (Except.ok.inj h).symm
          · rw [if_neg hrest]
            exact (Except.ok.inj h).symm
      obtain ⟨rfl, rfl⟩ := hchars
      simp only [List.mem_cons, not_or] at hsquare hcurly
      refine ⟨⟨Ne.symm hsquare.1, Ne.symm hcurly.1⟩, ?_⟩
      split
      · exact .inl ⟨v, rfl⟩
      · exact .inr ⟨rfl, .inr ⟨rest, v, rfl, hsquare.2, hcurly.2⟩⟩

theorem outside_foldlM {cs : List Char} {s' : State} (hs : Outside s)
    (h : cs.foldlM step s = .ok s') : ']' ∉ cs ∧ '}' ∉ cs := by
  induction cs generalizing s with
  | nil => simp
  | cons c cs ih =>
    rw [List.foldlM_cons] at h
    cases hstep : step s c with
    | error e =>
      rw [hstep] at h
      cases h
    | ok t =>
      rw [hstep] at h
      obtain ⟨⟨hsquare, hcurly⟩, ht⟩ := outside_step hs hstep
      obtain ⟨hsquare', hcurly'⟩ := ih ht h
      simp only [List.mem_cons, not_or]
      exact ⟨⟨Ne.symm hsquare, hsquare'⟩, ⟨Ne.symm hcurly, hcurly'⟩⟩

end JsonReader

variable [JsonRuntime]

open JsonReader

variable {v : Json}

theorem loads_dumps (h : v.Readable) (hdepth : v.depth ≤ JsonRuntime.recursionLimit) :
    loads v.dumps = .ok v.sortKeys := by
  have hsorted := Json.readable_sortKeys v h
  obtain ⟨s, hs, hread⟩ := read_spacedChars v.sortKeys hsorted [] (by
    rw [List.length_nil, Nat.zero_add]
    exact (Json.depth_sortKeys_le v).trans hdepth)
  obtain ⟨c, cs, hcs, -, -, hmark⟩ := spacedChars_cons hsorted
  have hhead : v.dumps.toList.head? ≠ some '\uFEFF' := by
    rw [Json.dumps, String.toList_ofList, hcs]
    simpa using hmark
  rw [loads, if_neg hhead, Json.dumps, String.toList_ofList, hs]
  show finish s = _
  rcases hread with rfl | ⟨cs, rfl, -, hnumber⟩
  · rfl
  · simp only [finish, hnumber]
    rfl

omit [JsonRuntime] in
theorem getLast?_spacedChars (h : (∃ items, v = .arr items) ∨ ∃ fields, v = .obj fields) :
    v.spacedChars.getLast? = some ']' ∨ v.spacedChars.getLast? = some '}' := by
  have hitems : ∀ items, (Json.spacedItems items).getLast? = some ']' := by
    intro items
    induction items with
    | nil => rfl
    | cons item items ih =>
      rw [Json.spacedItems, List.getLast?_cons, List.getLast?_cons, List.getLast?_append, ih]
      rfl
  have hfields : ∀ fields, (Json.spacedFields fields).getLast? = some '}' := by
    intro fields
    induction fields with
    | nil => rfl
    | cons field fields ih =>
      rw [Json.spacedFields, List.getLast?_cons, List.getLast?_cons, List.getLast?_append,
        List.getLast?_cons, List.getLast?_cons, List.getLast?_append, ih]
      rfl
  rcases h with ⟨items, rfl⟩ | ⟨fields, rfl⟩
  · refine .inl ?_
    cases items with
    | nil => rfl
    | cons item items =>
      rw [Json.spacedChars, List.getLast?_cons, List.getLast?_append, hitems]
      rfl
  · refine .inr ?_
    cases fields with
    | nil => rfl
    | cons field fields =>
      rw [Json.spacedChars, List.getLast?_cons, List.getLast?_append, List.getLast?_cons,
        List.getLast?_cons, List.getLast?_append, hfields]
      rfl

theorem loads_truncated {text : String} {v : Json} {first rest : List Char}
    (hok : loads text = .ok v) (htext : text.toList = first ++ rest)
    (hbracket : ']' ∈ rest ∨ '}' ∈ rest) : ∃ e, loads (String.ofList first) = .error e := by
  cases hfirst : loads (String.ofList first) with
  | error e => exact ⟨e, rfl⟩
  | ok w =>
    unfold loads at hok hfirst
    split at hfirst
    · cases hfirst
    · split at hok
      · cases hok
      · rw [String.toList_ofList] at hfirst
        rw [htext, List.foldlM_append] at hok
        cases hs : first.foldlM step ⟨[], .value⟩ with
        | error e =>
          rw [hs] at hfirst
          cases hfirst
        | ok s =>
          rw [hs] at hok hfirst
          have houtside := outside_of_finish (s := s) hfirst
          cases ht : rest.foldlM step s with
          | error e =>
            have hok : (rest.foldlM step s >>= finish) = .ok v := hok
            rw [ht] at hok
            cases hok
          | ok t =>
            obtain ⟨hsquare, hcurly⟩ := outside_foldlM houtside ht
            rcases hbracket with h | h
            · exact absurd h hsquare
            · exact absurd h hcurly

theorem loads_take_dumps (h : v.Readable) (hdepth : v.depth ≤ JsonRuntime.recursionLimit)
    (hcontainer : (∃ items, v = .arr items) ∨ ∃ fields, v = .obj fields) {n : Nat}
    (hn : n < v.dumps.toList.length) :
    ∃ e, loads (String.ofList (v.dumps.toList.take n)) = .error e := by
  have hsorted : (∃ items, v.sortKeys = .arr items) ∨ ∃ fields, v.sortKeys = .obj fields := by
    rcases hcontainer with ⟨items, rfl⟩ | ⟨fields, rfl⟩
    · exact .inl ⟨_, rfl⟩
    · exact .inr ⟨_, rfl⟩
  have hlast := getLast?_spacedChars hsorted
  have htext : v.dumps.toList = v.sortKeys.spacedChars := by
    rw [Json.dumps, String.toList_ofList]
  rw [← htext] at hlast
  have hrest : v.dumps.toList.drop n ≠ [] := by
    rw [Ne, List.drop_eq_nil_iff]
    omega
  have hdrop : (v.dumps.toList.drop n).getLast? = v.dumps.toList.getLast? := by
    conv_rhs => rw [← List.take_append_drop n v.dumps.toList]
    rw [List.getLast?_append]
    cases hl : (v.dumps.toList.drop n).getLast? with
    | none => exact absurd (List.getLast?_eq_none_iff.mp hl) hrest
    | some c => rfl
  rw [← hdrop] at hlast
  exact loads_truncated (loads_dumps h hdepth) (List.take_append_drop n _).symm
    (hlast.imp List.mem_of_getLast? List.mem_of_getLast?)

end Dayjaview
