import Dayjaview.Core.Urls

/-!
# Where a login returns to

A login returns to a path of the own site. A value is taken as it is if it and its third decoding
are such a path. A path stays one however often it is decoded, exactly if it is one when it is
decoded to the end.
-/

namespace Dayjaview.Identity

def isControlPoint (c : CodePoint) : Bool := decide (c.toNat < 0x20) || decide (c.toNat = 0x7F)

/-- The value decoded until nothing changes, at most so many times. -/
def decodeRounds : Nat → List CodePoint → List CodePoint
  | 0, candidate => candidate
  | rounds + 1, candidate =>
    let decoded := unquote candidate
    if decoded = candidate then candidate else decodeRounds rounds decoded

/-- The text begins with a word. -/
def startsWith (cs : List CodePoint) (word : String) : Bool := (codePoints word).isPrefixOf cs

/-- The parts are those of a path of the own site. -/
def isInternal (parts : SplitResult) : Bool :=
  parts.scheme.isEmpty && parts.netloc.isEmpty && startsWith parts.path "/" &&
  !startsWith parts.path "//"

/-- The place of a login without another one. -/
def TODAY : List CodePoint := codePoints "/today"

def MAXIMUM_LENGTH : Nat := 2048

section Validation

variable [TextTables]

/-- The value if it is a path of the own site, and else the fallback. -/
def validateInternalReturnTo (value : Option (List CodePoint)) (fallback : List CodePoint)
    (maximumLength : Nat) : Except Error (List CodePoint) :=
  match value with
  | none => .ok fallback
  | some value =>
    if value = [] then .ok fallback
    else if maximumLength < value.length ∨ value ≠ stripPoints value then .ok fallback
    else if value.any isControlPoint then .ok fallback
    else
      let candidate := decodeRounds 3 value
      if startsWith candidate "//" ∨ candidate.contains '\\' then .ok fallback
      else if candidate.any isControlPoint then .ok fallback
      else do
        let parsed ← urlsplit candidate
        if !isInternal parsed then return fallback
        let original ← urlsplit value
        if !isInternal original then return fallback
        return value

/-- A path of the own site, without characters that a browser or a header would read otherwise. -/
structure Safe (cs : List CodePoint) : Prop where
  path : startsWith cs "/" = true
  relative : startsWith cs "//" = false
  backslash : .char '\\' ∉ cs
  control : ∀ c ∈ cs, isControlPoint c = false
  splits : ∃ parts, urlsplit cs = .ok parts ∧ parts.scheme = [] ∧ parts.netloc = []

end Validation

/-- A text without a second slash behind the first one, backslashes and control characters. -/
structure Clean (cs : List CodePoint) : Prop where
  relative : startsWith cs "//" = false
  backslash : .char '\\' ∉ cs
  control : ∀ c ∈ cs, isControlPoint c = false

theorem separates_of_isControlPoint {c : CodePoint} (h : isControlPoint c = true) :
    Separates c := by
  simp only [isControlPoint, Bool.or_eq_true, decide_eq_true_eq] at h
  have hlt : c.toNat < 0x80 := by omega
  refine ⟨hlt, ?_, ?_⟩
  · rintro rfl
    revert h
    decide
  · cases c with
    | surrogate n => rfl
    | char c =>
      have hcode : c.toNat < 0x20 ∨ c.toNat = 0x7F := h
      have hzero : '0'.toNat = 48 ∧ '9'.toNat = 57 ∧ 'a'.toNat = 97 ∧ 'f'.toNat = 102 ∧
          'A'.toNat = 65 ∧ 'F'.toNat = 70 := by decide
      have hdigit : c.isDigit = false := by
        simp only [Char.isDigit, Bool.and_eq_false_iff, decide_eq_false_iff_not,
          UInt32.le_iff_toNat_le]
        show ¬48 ≤ c.toNat ∨ ¬c.toNat ≤ 57
        omega
      have hsmall : ¬('a' ≤ c ∧ c ≤ 'f') := by
        rw [Char.le_def, Char.le_def, UInt32.le_iff_toNat_le, UInt32.le_iff_toNat_le]
        show ¬(97 ≤ c.toNat ∧ c.toNat ≤ 102)
        omega
      have hlarge : ¬('A' ≤ c ∧ c ≤ 'F') := by
        rw [Char.le_def, Char.le_def, UInt32.le_iff_toNat_le, UInt32.le_iff_toNat_le]
        show ¬(65 ≤ c.toNat ∧ c.toNat ≤ 70)
        omega
      rw [hexValue, hdigit, if_neg (by decide), if_neg hsmall, if_neg hlarge]

variable {cs : List CodePoint}

theorem startsWith_iff {word : String} :
    startsWith cs word = true ↔ ∃ rest, cs = codePoints word ++ rest := by
  rw [startsWith, List.isPrefixOf_iff_prefix]
  exact ⟨fun ⟨rest, h⟩ => ⟨rest, h.symm⟩, fun ⟨rest, h⟩ => ⟨rest, h.symm⟩⟩

theorem separates_slash : Separates (.char '/') := ⟨by decide, by decide, by decide⟩

theorem separates_backslash : Separates (.char '\\') := ⟨by decide, by decide, by decide⟩

theorem mem_unquote {c : CodePoint} (h : Separates c) (hc : c ∈ cs) : c ∈ unquote cs := by
  obtain ⟨front, back, rfl⟩ := List.append_of_mem hc
  rw [unquote_cons h]
  exact List.mem_append_right _ List.mem_cons_self

theorem unquote_slash (cs : List CodePoint) : unquote (.char '/' :: cs) = .char '/' :: unquote cs :=
  unquote_cons separates_slash [] cs

theorem startsWith_unquote {cs : List CodePoint} (h : startsWith cs "/" = true) :
    startsWith (unquote cs) "/" = true := by
  obtain ⟨rest, rfl⟩ := startsWith_iff.mp h
  exact startsWith_iff.mpr ⟨unquote rest, unquote_slash rest⟩

theorem Clean.of_unquote (h : Clean (unquote cs)) : Clean cs where
  relative := by
    by_contra hbegins
    obtain ⟨rest, rfl⟩ := startsWith_iff.mp (by simpa using hbegins)
    have hstays : startsWith (unquote (codePoints "//" ++ rest)) "//" = true :=
      startsWith_iff.mpr ⟨unquote rest, (unquote_slash _).trans (congrArg _ (unquote_slash rest))⟩
    rw [h.relative] at hstays
    cases hstays
  backslash hmem := h.backslash (mem_unquote separates_backslash hmem)
  control c hc := by
    by_contra hcontrol
    have hcontrol : isControlPoint c = true := by simpa using hcontrol
    have hclear := h.control c (mem_unquote (separates_of_isControlPoint hcontrol) hc)
    rw [hcontrol] at hclear
    cases hclear

section Splitting

variable [TextTables]

omit [TextTables] in
theorem filter_eq_self_of_control {cs : List CodePoint} (h : ∀ c ∈ cs, isControlPoint c = false) :
    (cs.filter fun c => !(['\t', '\r', '\n'] : List CodePoint).contains c) = cs := by
  refine List.filter_eq_self.mpr fun c hc => ?_
  have hcontrol := h c hc
  by_contra hmark
  have hmem : c = .char '\t' ∨ c = .char '\r' ∨ c = .char '\n' := by
    simp at hmark
    tauto
  rcases hmem with rfl | rfl | rfl <;>
  · revert hcontrol
    decide

theorem urlsplit_path {rest : List CodePoint} (h : Clean (.char '/' :: rest)) :
    ∃ parts, urlsplit (.char '/' :: rest) = .ok parts ∧ parts.scheme = [] ∧ parts.netloc = [] := by
  have hfront : (((.char '/') :: rest).dropWhile fun c : CodePoint => decide (c.toNat ≤ 0x20)) =
      .char '/' :: rest := List.dropWhile_cons_of_neg (by decide)
  have hscheme : splitScheme (.char '/' :: rest) = ([], .char '/' :: rest) := by
    refine if_neg fun hscheme => ?_
    have hfirst : (List.takeWhile (· ≠ .char ':') (.char '/' :: rest)).head? =
        some (.char '/') := by
      rw [List.takeWhile_cons_of_pos (by decide)]
      rfl
    have halpha : (List.takeWhile (· ≠ .char ':') (.char '/' :: rest)).head?.any
        (·.asciiIs Char.isAlpha) = true := hscheme.2.1
    rw [hfirst] at halpha
    revert halpha
    decide
  have hnetloc : splitNetloc (.char '/' :: rest) = ([], .char '/' :: rest) := by
    refine if_neg fun htake => ?_
    have hbegins : startsWith (.char '/' :: rest) "//" = true := by
      rw [startsWith, List.isPrefixOf_iff_prefix, ← htake]
      exact List.take_prefix _ _
    rw [h.relative] at hbegins
    cases hbegins
  unfold urlsplit
  rw [hfront, filter_eq_self_of_control h.control]
  dsimp only
  rw [hscheme, hnetloc]
  exact ⟨_, rfl, rfl, rfl⟩

theorem safe_iff_clean {cs : List CodePoint} (h : startsWith cs "/" = true) :
    Safe cs ↔ Clean cs := by
  constructor
  · exact fun hsafe => ⟨hsafe.relative, hsafe.backslash, hsafe.control⟩
  · intro hclean
    obtain ⟨rest, rfl⟩ := startsWith_iff.mp h
    exact ⟨h, hclean.relative, hclean.backslash, hclean.control, urlsplit_path hclean⟩

omit [TextTables] in
theorem isSpace_head_of_stripPoints {c : CodePoint} {cs : List CodePoint}
    (h : c :: cs = stripPoints (c :: cs)) : c.isSpace = false := by
  by_contra hspace
  have hspace : c.isSpace = true := by simpa using hspace
  have hlength := congrArg List.length h
  rw [stripPoints, List.length_reverse, List.dropWhile_cons_of_pos hspace, List.length_cons]
    at hlength
  have hsuffix := (List.dropWhile_suffix (l := cs) CodePoint.isSpace).length_le
  have hreverse := (List.dropWhile_suffix (l := (cs.dropWhile CodePoint.isSpace).reverse)
    CodePoint.isSpace).length_le
  rw [List.length_reverse] at hreverse
  omega

omit [TextTables] in
theorem splitScheme_of_nil {url : List CodePoint} (h : (splitScheme url).1 = []) :
    (splitScheme url).2 = url := by
  unfold splitScheme at h ⊢
  dsimp only at h ⊢
  split at h
  · next hcond =>
    -- the scheme would have a first letter
    have halpha := hcond.2.1
    rw [List.map_eq_nil_iff.mp h] at halpha
    cases halpha
  · next hcond => rw [if_neg hcond]

theorem startsWith_of_isInternal {value : List CodePoint} {parts : SplitResult}
    (hcontrol : ∀ c ∈ value, isControlPoint c = false) (hstrip : value = stripPoints value)
    (hparts : urlsplit value = .ok parts) (hinternal : isInternal parts = true) :
    startsWith value "/" = true := by
  simp only [isInternal, Bool.and_eq_true, List.isEmpty_iff] at hinternal
  obtain ⟨⟨⟨hscheme, -⟩, hpath⟩, -⟩ := hinternal
  have hfront : (value.dropWhile fun c : CodePoint => decide (c.toNat ≤ 0x20)) = value := by
    cases value with
    | nil => rfl
    | cons c cs =>
      have hhead := hcontrol c List.mem_cons_self
      have hblank := isSpace_head_of_stripPoints hstrip
      refine List.dropWhile_cons_of_neg ?_
      rw [decide_eq_true_eq]
      intro hle
      simp only [isControlPoint, Bool.or_eq_false_iff, decide_eq_false_iff_not] at hhead
      have hcode : c.toNat = 0x20 := by omega
      cases c with
      | char c =>
        have hspace : isSpace c = true := by
          have hcode : c.toNat = 0x20 := hcode
          rw [isSpace, hcode]
          rfl
        exact absurd (hspace.symm.trans hblank) (by decide)
      | surrogate n =>
        simp only [CodePoint.toNat] at hcode
        omega
  unfold urlsplit at hparts
  rw [hfront, filter_eq_self_of_control hcontrol] at hparts
  simp only [bind_eq_ok] at hparts
  obtain ⟨-, -, -, -, hparts⟩ := hparts
  cases hparts
  have hrest := splitScheme_of_nil hscheme
  dsimp only at hpath
  rw [hrest] at hpath
  unfold splitNetloc at hpath
  split at hpath
  · next htake =>
    have hbegins := List.take_prefix 2 value
    rw [htake] at hbegins
    obtain ⟨rest, hrest⟩ := hbegins
    exact startsWith_iff.mpr ⟨.char '/' :: rest, hrest.symm⟩
  · obtain ⟨rest, hrest⟩ := startsWith_iff.mp hpath
    have hbegins : (cutAt '?' (cutAt '#' value).1).1 <+: value :=
      (List.takeWhile_prefix _).trans (List.takeWhile_prefix _)
    dsimp only at hrest
    rw [hrest] at hbegins
    obtain ⟨more, hmore⟩ := hbegins
    exact startsWith_iff.mpr ⟨rest ++ more, by rw [← hmore, List.append_assoc]⟩

end Splitting

theorem decodeRounds_eq (rounds : Nat) (cs : List CodePoint) :
    decodeRounds rounds cs = unquote^[rounds] cs := by
  induction rounds generalizing cs with
  | zero => rfl
  | succ rounds ih =>
    rw [decodeRounds]
    split
    · next hfixed => exact (Function.iterate_fixed hfixed (rounds + 1)).symm
    · exact ih _

theorem startsWith_iterate {cs : List CodePoint} (h : startsWith cs "/" = true) (n : Nat) :
    startsWith (unquote^[n] cs) "/" = true := by
  induction n with
  | zero => exact h
  | succ n ih =>
    rw [Function.iterate_succ_apply']
    exact startsWith_unquote ih

theorem Clean.of_iterate {m n : Nat} (hle : m ≤ n) (h : Clean (unquote^[n] cs)) :
    Clean (unquote^[m] cs) := by
  induction hle with
  | refl => exact h
  | step _ ih =>
    rw [Function.iterate_succ_apply'] at h
    exact ih h.of_unquote

section Returned

variable [TextTables]

theorem returned_spec {value : List CodePoint} {maximumLength : Nat}
    (h : validateInternalReturnTo (some value) TODAY maximumLength = .ok value) :
    startsWith value "/" = true ∧ Clean (unquote^[3] value) := by
  by_cases htoday : value = TODAY
  · subst htoday
    have hfixed : unquote^[3] TODAY = TODAY := by decide
    exact ⟨by decide, hfixed.symm ▸ ⟨by decide, by decide, by decide⟩⟩
  · have hfallback : ∀ {p : Prop}, (Except.ok TODAY : Except Error _) = .ok value → p := fun heq =>
      absurd (Except.ok.inj heq).symm htoday
    unfold validateInternalReturnTo at h
    dsimp only at h
    rw [decodeRounds_eq] at h
    split_ifs at h with hnil hlength hcontrol hdirty hcontrol'
    · exact hfallback h
    · exact hfallback h
    · exact hfallback h
    · exact hfallback h
    · exact hfallback h
    · obtain ⟨parsed, hparsed, h⟩ := bind_eq_ok.mp h
      split at h
      · exact hfallback h
      · obtain ⟨original, horiginal, h⟩ := bind_eq_ok.mp h
        split at h
        · exact hfallback h
        · next hinternal =>
          have hvalue : ∀ c ∈ value, isControlPoint c = false := by simpa using hcontrol
          have hcandidate : ∀ c ∈ unquote^[3] value, isControlPoint c = false := by
            simpa using hcontrol'
          have hstrip : value = stripPoints value := by
            by_contra hne
            exact hlength (.inr hne)
          refine
            ⟨startsWith_of_isInternal hvalue hstrip horiginal (by simpa using hinternal), ?_, ?_,
            hcandidate⟩
          · by_contra hbegins
            exact hdirty (.inl (by simpa using hbegins))
          · intro hmem
            exact hdirty (.inr (List.contains_iff_mem.mpr hmem))

/-- A value that is returned as it is stays a path of the own site however often it is decoded,
exactly if it is one when it is decoded to the end. -/
theorem returned_safe_iff {value : List CodePoint} {maximumLength : Nat}
    (h : validateInternalReturnTo (some value) TODAY maximumLength = .ok value) :
    (∀ n, Safe (unquote^[n] value)) ↔ Clean (fullyResolved value) := by
  have hpath := startsWith_iterate (returned_spec h).1
  constructor
  · intro hsafe
    exact (safe_iff_clean (hpath _)).mp (hsafe value.length)
  · intro hclean n
    refine (safe_iff_clean (hpath n)).mpr ?_
    rcases le_total n value.length with hle | hge
    · exact Clean.of_iterate hle hclean
    · rwa [iterate_unquote_of_le hge]

end Returned

/-- The name of a theme that is encoded twice. -/
theorem returned_safe_theme : letI : TextTables := .ascii
    unquote^[2] (codePoints "/themes?name=%25EB%25B0%2598") = codePoints "/themes?name=반" ∧
      ((∀ n, Safe (unquote^[n] (codePoints "/themes?name=%25EB%25B0%2598"))) ↔
        Clean (fullyResolved (codePoints "/themes?name=%25EB%25B0%2598"))) := by
  let tables : TextTables := .ascii
  have hreturned :
      validateInternalReturnTo (some (codePoints "/themes?name=%25EB%25B0%2598")) TODAY
      MAXIMUM_LENGTH = .ok (codePoints "/themes?name=%25EB%25B0%2598") := by
    decide +kernel
  exact ⟨by decide +kernel, returned_safe_iff hreturned⟩

/-- A slash that is encoded four times stands behind the first one in the end. -/
theorem returned_not_safe : letI : TextTables := .ascii
    validateInternalReturnTo (some (codePoints "/%2525252Fevil.example")) TODAY MAXIMUM_LENGTH =
      .ok (codePoints "/%2525252Fevil.example") ∧
    ¬∀ n, Safe (unquote^[n] (codePoints "/%2525252Fevil.example")) := by
  let tables : TextTables := .ascii
  refine ⟨by decide +kernel, fun hsafe => ?_⟩
  have hslashes : startsWith (unquote^[4] (codePoints "/%2525252Fevil.example")) "//" = true := by
    decide +kernel
  have hrelative := (hsafe 4).relative
  rw [hslashes] at hrelative
  cases hrelative

end Dayjaview.Identity
