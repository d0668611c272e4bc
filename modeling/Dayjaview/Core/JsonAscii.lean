import Dayjaview.Core.JsonText

/-!
# Written JSON within ASCII read back

Beyond ASCII a character of a string is written as one code, or as the two halves of a surrogate
pair. An object of texts and integers that is written so, with sorted keys and without blanks, is
read back as it was.
-/

namespace Dayjaview

namespace Json

/-- The characters kept within ASCII. -/
def ascii (cs : List Char) : List Char := cs.flatMap asciiChar

theorem ascii_append (cs ds : List Char) : ascii (cs ++ ds) = ascii cs ++ ascii ds :=
  List.flatMap_append

variable {c : Char}

theorem ascii_cons (h : c.toNat < 127) (cs : List Char) : ascii (c :: cs) = c :: ascii cs := by
  rw [ascii, List.flatMap_cons, asciiChar, if_pos h]
  rfl

theorem ascii_eq_self {cs : List Char} (h : ∀ c ∈ cs, c.toNat < 127) : ascii cs = cs := by
  induction cs with
  | nil => rfl
  | cons c cs ih =>
    rw [ascii_cons (h c List.mem_cons_self), ih fun d hd => h d (List.mem_cons_of_mem _ hd)]

/-- A character that is neither a control character nor beyond ASCII. -/
def Printed (c : Char) : Prop := 32 ≤ c.toNat ∧ c.toNat < 127

instance (c : Char) : Decidable (Printed c) := inferInstanceAs (Decidable (_ ∧ _))

theorem digitChar_printed : ∀ n < 16, Printed (Nat.digitChar n) := by decide

theorem code_printed (n : Nat) : ∀ d ∈ '\\' :: 'u' :: hexChars n, Printed d := by
  simp only [hexChars, List.forall_mem_cons]
  exact ⟨by decide, by decide, digitChar_printed _ (Nat.mod_lt _ (by decide)),
    digitChar_printed _ (Nat.mod_lt _ (by decide)), digitChar_printed _ (Nat.mod_lt _ (by decide)),
    digitChar_printed _ (Nat.mod_lt _ (by decide)), fun d hd => by cases hd⟩

theorem escapeChar_ge (c : Char) : ∀ d ∈ escapeChar c, 32 ≤ d.toNat := by
  unfold escapeChar
  split_ifs with hquote hback hline hreturn htab hfeed hbell hcontrol
  · decide
  · decide
  · decide
  · decide
  · decide
  · decide
  · decide
  · exact fun d hd => (code_printed _ d hd).1
  · exact List.forall_mem_singleton.mpr (Nat.not_lt.mp hcontrol)

theorem escapeChar_lt (h : c.toNat < 127) : ∀ d ∈ escapeChar c, d.toNat < 127 := by
  unfold escapeChar
  split_ifs
  · decide
  · decide
  · decide
  · decide
  · decide
  · decide
  · decide
  · exact fun d hd => (code_printed _ d hd).2
  · exact List.forall_mem_singleton.mpr h

theorem escapeChar_of_le (h : 127 ≤ c.toNat) : escapeChar c = [c] := by
  have hne : ∀ d : Char, d.toNat < 127 → c ≠ d := by
    rintro d hd rfl
    omega
  simp only [escapeChar, if_neg (hne '"' (by decide)), if_neg (hne '\\' (by decide)),
    if_neg (hne '\n' (by decide)), if_neg (hne '\r' (by decide)), if_neg (hne '\t' (by decide))]
  rw [if_neg (by omega), if_neg (by omega), if_neg (by omega)]

theorem ascii_printed {cs : List Char} (h : ∀ c ∈ cs, 32 ≤ c.toNat) :
    ∀ d ∈ ascii cs, Printed d := by
  intro d hd
  obtain ⟨c, hc, hd⟩ := List.mem_flatMap.mp hd
  unfold asciiChar at hd
  split_ifs at hd with hlow hplane
  · rw [List.mem_singleton.mp hd]
    exact ⟨h c hc, hlow⟩
  · exact code_printed _ d hd
  · rcases List.mem_append.mp hd with hd | hd
    · exact code_printed _ d hd
    · exact code_printed _ d hd

theorem length_ascii_escapeChar_le (c : Char) : (ascii (escapeChar c)).length ≤ 12 := by
  rcases Nat.lt_or_ge c.toNat 127 with hlow | hhigh
  · rw [ascii_eq_self (escapeChar_lt hlow)]
    unfold escapeChar
    split_ifs <;> simp [hexChars]
  · rw [escapeChar_of_le hhigh, ascii, List.flatMap_singleton, asciiChar]
    split_ifs <;> simp [hexChars]

theorem length_ascii_quoted_le (s : String) : (ascii (quoted s)).length ≤ 12 * s.length + 2 := by
  have hescape : ∀ cs : List Char, (ascii (escape cs)).length ≤ 12 * cs.length := by
    intro cs
    induction cs with
    | nil => exact Nat.le_refl 0
    | cons c cs ih =>
      have hcons : ascii (escape (c :: cs)) = ascii (escapeChar c) ++ ascii (escape cs) :=
        ascii_append _ _
      have hchar := length_ascii_escapeChar_le c
      rw [hcons, List.length_append, List.length_cons]
      omega
  have htext := hescape s.toList
  have hquoted : ascii (quoted s) = '"' :: ascii (escape s.toList) ++ ['"'] := by
    rw [quoted, ascii_append, ascii_cons (by decide)]
    rfl
  rw [String.length_toList] at htext
  rw [hquoted, List.length_append, List.length_cons, List.length_singleton]
  omega

theorem quoted_ge (s : String) : ∀ d ∈ quoted s, 32 ≤ d.toNat := by
  have hescape : ∀ d ∈ escape s.toList, 32 ≤ d.toNat := by
    intro d hd
    obtain ⟨c, -, hd⟩ := List.mem_flatMap.mp hd
    exact escapeChar_ge c d hd
  intro d hd
  rcases List.mem_append.mp hd with hd | hd
  · rcases List.mem_cons.mp hd with rfl | hd
    · decide
    · exact hescape d hd
  · rw [List.mem_singleton.mp hd]
    decide

end Json

namespace JsonReader

variable [JsonRuntime]

omit [JsonRuntime] in
theorem addCode_high (role : Role) (cs : List Char) {n : Nat} (h : 0xD800 ≤ n ∧ n < 0xDC00) :
    addCode role cs none n = .string role cs (some n) := by
  rw [addCode, if_pos h, flush]

omit [JsonRuntime] in
theorem addCode_low (role : Role) (cs : List Char) {first n : Nat} (h : 0xDC00 ≤ n ∧ n < 0xE000) :
    addCode role cs (some first) n =
      .string role (cs ++ [Char.ofNat (0x10000 + (first - 0xD800) * 0x400 + (n - 0xDC00))])
      none := by
  rw [addCode, if_neg (by omega), if_pos h]

theorem foldlM_pair (stack : List Frame) (role : Role) (cs : List Char) {n : Nat}
    (h : n < 0x100000) : ('\\' :: 'u' :: Json.hexChars (0xD800 + n / 1024) ++
        '\\' :: 'u' :: Json.hexChars (0xDC00 + n % 1024)).foldlM step ⟨stack,
        .string role cs none⟩ =
      .ok ⟨stack, .string role (cs ++ [Char.ofNat (n + 0x10000)]) none⟩ := by
  have hhigh : 0xD800 ≤ 0xD800 + n / 1024 ∧ 0xD800 + n / 1024 < 0xDC00 := by omega
  have hlow : 0xDC00 ≤ 0xDC00 + n % 1024 ∧ 0xDC00 + n % 1024 < 0xE000 := by omega
  have hcode : 0x10000 + (0xD800 + n / 1024 - 0xD800) * 0x400 + (0xDC00 + n % 1024 - 0xDC00) = n +
      0x10000 := by
    omega
  have hsecond := foldlM_code stack role cs (some (0xD800 + n / 1024)) (n := 0xDC00 + n % 1024)
    (by omega)
  rw [addCode_low role cs hlow, hcode] at hsecond
  rw [List.foldlM_append, foldlM_code stack role cs none (by omega), addCode_high role cs hhigh]
  exact hsecond

theorem foldlM_ascii_escapeChar (stack : List Frame) (role : Role) (cs : List Char) (c : Char) :
    (Json.ascii (Json.escapeChar c)).foldlM step ⟨stack, .string role cs none⟩ =
      .ok ⟨stack, .string role (cs ++ [c]) none⟩ := by
  have hchar := Char.ofNat_toNat c
  rcases Nat.lt_or_ge c.toNat 127 with hlow | hhigh
  · rw [Json.ascii_eq_self (Json.escapeChar_lt hlow)]
    exact foldlM_escapeChar stack role cs c
  · have hsingle : Json.ascii (Json.escapeChar c) = Json.asciiChar c := by
      rw [Json.escapeChar_of_le hhigh, Json.ascii, List.flatMap_singleton]
    have hvalid : c.toNat < 0xD800 ∨ 0xDFFF < c.toNat ∧ c.toNat < 0x110000 := c.valid
    rw [hsingle, Json.asciiChar, if_neg (by omega)]
    split
    · next hplane =>
      rw [foldlM_code stack role cs none hplane, addCode_plain role cs (by omega), hchar]
    · next hplane =>
      have hpair := foldlM_pair stack role cs (n := c.toNat - 65536) (by omega)
      have hback : c.toNat - 65536 + 0x10000 = c.toNat := by omega
      rw [hback, hchar] at hpair
      exact hpair

theorem foldlM_ascii_escape (stack : List Frame) (role : Role) (cs ds : List Char) :
    (Json.ascii (Json.escape ds)).foldlM step ⟨stack, .string role cs none⟩ =
      .ok ⟨stack, .string role (cs ++ ds) none⟩ := by
  induction ds generalizing cs with
  | nil => simp [Json.escape, Json.ascii]; rfl
  | cons d ds ih =>
    have hcons : Json.ascii (Json.escape (d :: ds)) =
        Json.ascii (Json.escapeChar d) ++ Json.ascii (Json.escape ds) := Json.ascii_append _ _
    rw [hcons, List.foldlM_append, foldlM_ascii_escapeChar]
    show (Json.ascii (Json.escape ds)).foldlM step ⟨stack, .string role (cs ++ [d]) none⟩ = _
    rw [ih, List.append_assoc]
    rfl

theorem foldlM_ascii_quoted {stack : List Frame} {role : Role} (text : String) {s : State}
    (hs : step s '"' = .ok ⟨stack, .string role [] none⟩) (rest : List Char) :
    (Json.ascii (Json.quoted text) ++ rest).foldlM step s =
      rest.foldlM step (completeString stack role text.toList) := by
  have hquoted : Json.ascii (Json.quoted text) = '"' :: Json.ascii (Json.escape text.toList) ++
      ['"'] := by
    rw [Json.quoted, Json.ascii_append, Json.ascii_cons (by decide)]
    rfl
  rw [hquoted, List.cons_append, List.cons_append, List.foldlM_cons, hs]
  show (Json.ascii (Json.escape text.toList) ++ ['"'] ++ rest).foldlM step
      ⟨stack, .string role [] none⟩ = _
  rw [List.append_assoc, List.foldlM_append, foldlM_ascii_escape]
  rfl

end JsonReader

namespace Json

/-- A text, or an integer that is not too long. -/
def Flat : Json → Prop
  | .str _ => True
  | .int n => (natText n.natAbs).length ≤ 4300
  | _ => False

theorem Flat.sortKeys_eq {v : Json} (h : v.Flat) : v.sortKeys = v := by
  cases v with
  | str s => rfl
  | int n => rfl
  | null | bool | float | arr | obj => exact h.elim

theorem sortFields_eq_self {fields : List (String × Json)} (h : ∀ field ∈ fields, field.2.Flat) :
    sortFields fields = fields := by
  induction fields with
  | nil => rfl
  | cons field fields ih =>
    obtain ⟨hfield, hfields⟩ := List.forall_mem_cons.mp h
    rw [sortFields, hfield.sortKeys_eq, ih hfields]

theorem intChars_printed (n : Int) : ∀ d ∈ intChars n, Printed d := by
  have hdigit : ∀ (m : Nat), ∀ d ∈ natText m, Printed d := by
    intro m d hd
    have hdigit := isDigit_of_mem_natText hd
    simp only [Char.isDigit, Bool.and_eq_true, decide_eq_true_eq] at hdigit
    have hge : '0'.toNat ≤ d.toNat := hdigit.1
    have hle : d.toNat ≤ '9'.toNat := hdigit.2
    exact ⟨le_trans (by decide) hge, lt_of_le_of_lt hle (by decide)⟩
  cases n with
  | ofNat n => exact hdigit n
  | negSucc n => exact List.forall_mem_cons.mpr ⟨by decide, hdigit (n + 1)⟩

theorem Flat.chars_ge {v : Json} (h : v.Flat) : ∀ d ∈ v.chars, 32 ≤ d.toNat := by
  cases v with
  | str s => exact quoted_ge s
  | int n => exact fun d hd => (intChars_printed n d hd).1
  | null | bool | float | arr | obj => exact h.elim

theorem fieldsChars_ge {fields : List (String × Json)} (h : ∀ field ∈ fields, field.2.Flat) :
    ∀ d ∈ fieldsChars fields, 32 ≤ d.toNat := by
  induction fields with
  | nil => exact List.forall_mem_singleton.mpr (by decide)
  | cons field fields ih =>
    obtain ⟨key, value⟩ := field
    obtain ⟨hvalue, hfields⟩ := List.forall_mem_cons.mp h
    rw [fieldsChars]
    simp only [List.forall_mem_cons, List.forall_mem_append]
    exact ⟨by decide, quoted_ge key, by decide, hvalue.chars_ge, ih hfields⟩

end Json

namespace JsonReader

variable [JsonRuntime]

theorem read_flat {v : Json} (hv : v.Flat) {stack : List Frame}
    (hstack : stack.length ≤ JsonRuntime.recursionLimit)
    (rest : List Char) : ∃ s, (Json.ascii v.chars ++ rest).foldlM step ⟨stack, .value⟩ =
    rest.foldlM step s ∧
      Read stack v s := by
  cases v with
  | str text =>
    refine ⟨complete stack (.str text), ?_, .inl rfl⟩
    have hread := @foldlM_ascii_quoted _ stack .value text ⟨stack, .value⟩ rfl rest
    rw [completeString, String.ofList_toList] at hread
    exact hread
  | int n =>
    obtain ⟨s, hs, hread⟩ := read_spacedChars (.int n) hv stack hstack
    refine ⟨s, ?_, hread⟩
    have hchars : Json.ascii (Json.int n).chars = (Json.int n).spacedChars :=
      Json.ascii_eq_self fun d hd => (Json.intChars_printed n d hd).2
    rw [List.foldlM_append, hchars, hs]
    rfl
  | null | bool | float | arr | obj => exact hv.elim

theorem foldlM_ascii_key {stack : List Frame} {fields : List (String × Json)} (key : String)
    {s : State} (hs : step s '"' = .ok ⟨stack, .string (.key fields) [] none⟩) (rest : List Char) :
    (Json.ascii (Json.quoted key) ++ ':' :: rest).foldlM step s =
      rest.foldlM step ⟨.pair fields key :: stack, .value⟩ := by
  rw [foldlM_ascii_quoted key hs]
  show (':' :: rest).foldlM step ⟨stack, .colon fields (String.ofList key.toList)⟩ = _
  rw [String.ofList_toList]
  rfl

theorem read_flatFields {fields : List (String × Json)} (hflat : ∀ field ∈ fields, field.2.Flat)
    {stack : List Frame} (hstack : stack.length + 1 ≤ JsonRuntime.recursionLimit)
    {first : List (String × Json)} {key : String} {v : Json} {s : State}
    (hs : Read (.pair first key :: stack) v s) :
    (Json.ascii (Json.fieldsChars fields)).foldlM step s =
      .ok (completeObject stack (first ++ (key, v) :: fields)) := by
  induction fields generalizing first key v s with
  | nil =>
    show ['}'].foldlM step s = _
    rw [List.foldlM_cons, step_of_read hs rfl]
    rfl
  | cons field fields ih =>
    obtain ⟨name, value⟩ := field
    obtain ⟨hvalue, hfields⟩ := List.forall_mem_cons.mp hflat
    have hchars : Json.ascii (Json.fieldsChars ((name, value) :: fields)) =
        ',' :: (Json.ascii (Json.quoted name) ++ ':' :: (Json.ascii value.chars ++
          Json.ascii (Json.fieldsChars fields))) := by
      rw [Json.fieldsChars, Json.ascii_cons (by decide), Json.ascii_append,
        Json.ascii_cons (by decide), Json.ascii_append]
    obtain ⟨t, ht, hread⟩ :=
      @read_flat _ value hvalue (.pair (first ++ [(key, v)]) name :: stack) hstack
      (Json.ascii (Json.fieldsChars fields))
    rw [hchars, List.foldlM_cons, step_of_read hs rfl]
    show (Json.ascii (Json.quoted name) ++ ':' :: (Json.ascii value.chars ++
      Json.ascii (Json.fieldsChars fields))).foldlM step ⟨stack, .key (first ++ [(key, v)])⟩ = _
    rw [foldlM_ascii_key name rfl, ht, ih hfields hread, List.append_assoc, List.singleton_append]

end JsonReader

namespace Json

theorem flat_sortedFields {fields : List (String × Json)} (h : ∀ field ∈ fields, field.2.Flat) :
    ∀ field ∈ sortedFields fields, field.2.Flat := by
  intro field hfield
  rw [sortedFields, List.mem_insertionSort, sortFields_eq_self h] at hfield
  exact h field hfield

theorem toList_asciiCanonical (fields : List (String × Json)) :
    (asciiCanonical (.obj fields)).toList = ascii (obj (sortedFields fields)).chars := by
  rw [asciiCanonical, String.toList_ofList, sortKeys_obj, ascii]

theorem asciiCanonical_printed {fields : List (String × Json)}
    (h : ∀ field ∈ fields, field.2.Flat) :
    ∀ c ∈ (asciiCanonical (.obj fields)).toList, Printed c := by
  rw [toList_asciiCanonical]
  refine ascii_printed ?_
  have hflat := flat_sortedFields h
  cases hsorted : sortedFields fields with
  | nil => decide
  | cons field sorted =>
    rw [hsorted] at hflat
    obtain ⟨key, value⟩ := field
    obtain ⟨hvalue, hfields⟩ := List.forall_mem_cons.mp hflat
    rw [chars]
    simp only [List.forall_mem_cons, List.forall_mem_append]
    exact ⟨by decide, quoted_ge key, by decide, hvalue.chars_ge, fieldsChars_ge hfields⟩

end Json

open JsonReader in
theorem loads_asciiCanonical [JsonRuntime] {fields : List (String × Json)}
    (hflat : ∀ field ∈ fields, field.2.Flat) (hnodup : (fields.map Prod.fst).Nodup)
    (hlimit : 0 < JsonRuntime.recursionLimit) :
    loads (Json.asciiCanonical (.obj fields)) = .ok (.obj (Json.sortedFields fields)) := by
  have hnodup' : ((Json.sortedFields fields).map Prod.fst).Nodup := by
    have hperm := (List.perm_insertionSort (fun a b : String × Json => a.1 ≤ b.1)
      (Json.sortFields fields)).map Prod.fst
    rw [Json.sortedFields, hperm.nodup_iff, Json.map_fst_sortFields]
    exact hnodup
  have hflat' := Json.flat_sortedFields hflat
  rw [loads, Json.toList_asciiCanonical]
  generalize Json.sortedFields fields = sorted at hnodup' hflat' ⊢
  cases sorted with
  | nil =>
    show (if _ then _ else ['{', '}'].foldlM step ⟨[], .value⟩ >>= finish) = _
    rw [if_neg (by decide), List.foldlM_cons, step_brace [] hlimit]
    rfl
  | cons field sorted =>
    obtain ⟨key, value⟩ := field
    obtain ⟨hvalue, hsorted⟩ := List.forall_mem_cons.mp hflat'
    have hchars : Json.ascii (Json.obj ((key, value) :: sorted)).chars =
        '{' :: (Json.ascii (Json.quoted key) ++ ':' :: (Json.ascii value.chars ++
          Json.ascii (Json.fieldsChars sorted))) := by
      rw [Json.chars, Json.ascii_cons (by decide), Json.ascii_append, Json.ascii_cons (by decide),
        Json.ascii_append]
    obtain ⟨t, ht, hread⟩ := @read_flat _ value hvalue [.pair [] key] hlimit
      (Json.ascii (Json.fieldsChars sorted))
    rw [hchars, if_neg (by simp), List.foldlM_cons, step_brace [] hlimit]
    show ((Json.ascii (Json.quoted key) ++ ':' :: (Json.ascii value.chars ++
      Json.ascii (Json.fieldsChars sorted))).foldlM step ⟨[], .firstKey⟩ >>= finish) = _
    rw [foldlM_ascii_key key rfl, ht, @read_flatFields _ sorted hsorted [] hlimit [] key value t
      hread, List.nil_append, completeObject, Dict.entries_ofList hnodup']
    rfl

end Dayjaview
