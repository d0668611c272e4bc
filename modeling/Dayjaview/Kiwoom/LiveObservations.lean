import Dayjaview.Core.DecimalDigits
import Dayjaview.Kiwoom.LiveMessages
import Mathlib.Data.List.ReduceOption

/-!
# Observations of subscribed stocks

A stock whose code has six digits of ASCII is observed: the feed may write a letter A before the
code or the mark of a venue after it, the adapter takes it away, and a row with well-formed numbers
becomes one event of the stock.
-/

namespace Dayjaview.Kiwoom

/-- A code of six digits of ASCII. -/
def AsciiCode (code : String) : Prop := code.toList.length = 6 ∧ ∀ c ∈ code.toList, c.isDigit = true

/-- How the feed writes a code. -/
def spellings (code : String) : List String := [code, "A" ++ code, code ++ "_AL", code ++ "_NX"]

theorem AsciiCode.contract {code : String} (h : AsciiCode code) :
    isStockCode code.toList = true := by
  unfold isStockCode
  rw [h.1, Bool.and_eq_true, List.all_eq_true]
  refine ⟨rfl, fun c hc => ?_⟩
  have hdigit := h.2 c hc
  have hrange : '0' ≤ c ∧ c ≤ '9' := by
    simpa [Char.isDigit, Char.le_def] using hdigit
  simp [hrange.1, hrange.2]

section

variable [UnicodeTable]

theorem isDigitText_digits (hlaw : LawfulTable) {cs : List Char} (hne : cs ≠ [])
    (h : ∀ c ∈ cs, c.isDigit = true) : isDigitText (String.ofList cs) = true := by
  unfold isDigitText
  rw [String.toList_ofList, Bool.and_eq_true]
  constructor
  · simpa using hne
  · refine List.all_eq_true.mpr fun c hc => ?_
    have hdigit := h c hc
    have hsmall : c.toNat < 128 := by
      have hd : 48 ≤ c.toNat ∧ c.toNat ≤ 57 := by
        simpa [Char.isDigit, UInt32.le_iff_toNat_le] using hdigit
      omega
    rw [hlaw.ascii c hsmall, hdigit]

omit [UnicodeTable] in
theorem withoutSuffix_append (suffix : String) (text : List CodePoint) :
    withoutSuffix suffix (text ++ codePoints suffix) = text := by
  have hsuffix : (codePoints suffix).isSuffixOf (text ++ codePoints suffix) = true :=
    List.isSuffixOf_iff_suffix.mpr (List.suffix_append _ _)
  unfold withoutSuffix
  rw [if_pos hsuffix, List.length_append, Nat.add_sub_cancel, List.take_left']
  rfl

omit [UnicodeTable] in
theorem withoutSuffix_of_not_mem {suffix : String} {text : List CodePoint} {c : CodePoint}
    (hc : c ∈ codePoints suffix) (h : c ∉ text) : withoutSuffix suffix text = text := by
  unfold withoutSuffix
  rw [if_neg]
  exact fun hsuffix => h ((List.isSuffixOf_iff_suffix.mp hsuffix).subset hc)

theorem withoutFeedLetter_of_head {text : List CodePoint} {c : Char}
    (hhead : text.head? = some (.char c)) (hc : c ≠ 'A') : withoutFeedLetter text = text := by
  unfold withoutFeedLetter
  split
  · exact absurd (CodePoint.char.inj (Option.some.inj hhead)).symm hc
  · rfl

omit [UnicodeTable] in
theorem not_mem_digits {code : String} (h : ∀ c ∈ code.toList, c.isDigit = true) {c : Char}
    (hc : c.isDigit = false) : CodePoint.char c ∉ codePoints code := by
  intro hmem
  obtain ⟨d, hd, hsame⟩ := List.mem_map.mp hmem
  obtain rfl := CodePoint.char.inj hsame
  rw [h d hd] at hc
  cases hc

omit [UnicodeTable] in
theorem mem_spelling {code spelled : String} (hcode : AsciiCode code)
    (hspelled : spelled ∈ spellings code) :
    ∀ c ∈ spelled.toList, c.isDigit = true ∨ c ∈ ['A', '_', 'L', 'N', 'X'] := by
  have hmarks : ∀ mark ∈ ["A", "_AL", "_NX"], ∀ c ∈ mark.toList, c ∈ ['A', '_', 'L', 'N', 'X'] := by
    decide
  simp only [spellings, List.mem_cons, List.not_mem_nil, or_false] at hspelled
  intro c hc
  rcases hspelled with rfl | rfl | rfl | rfl
  · exact .inl (hcode.2 c hc)
  · rcases List.mem_append.mp (String.toList_append ▸ hc) with hc | hc
    · exact .inr (hmarks "A" (by decide) c hc)
    · exact .inl (hcode.2 c hc)
  · rcases List.mem_append.mp (String.toList_append ▸ hc) with hc | hc
    · exact .inl (hcode.2 c hc)
    · exact .inr (hmarks "_AL" (by decide) c hc)
  · rcases List.mem_append.mp (String.toList_append ▸ hc) with hc | hc
    · exact .inl (hcode.2 c hc)
    · exact .inr (hmarks "_NX" (by decide) c hc)

theorem normalizeLiveStockCode_spelling [JsonValue.Printer] (hlaw : LawfulTable)
    {code spelled : String} (hcode : AsciiCode code) (hspelled : spelled ∈ spellings code) :
    normalizeLiveStockCode (.str (codePoints spelled)) = some code := by
  have hmarks : ∀ c ∈ ['A', '_', 'L', 'N', 'X'],
      c.toNat < 128 ∧ c.toUpper = c ∧ isSpace c = false := by decide
  have hchars := mem_spelling hcode hspelled
  have hstrip : strip spelled = spelled := by
    unfold strip
    rw [stripChars_eq_self, String.ofList_toList]
    intro c hc
    rcases hchars c hc with hdigit | hmark
    · exact isSpace_of_isDigit hdigit
    · exact (hmarks c hmark).2.2
  have hupper : upperText spelled = spelled := by
    refine upperText_eq_self fun c hc => ?_
    rcases hchars c hc with hdigit | hmark
    · have hd : 48 ≤ c.toNat ∧ c.toNat ≤ 57 := by
        simpa [Char.isDigit, UInt32.le_iff_toNat_le] using hdigit
      rw [hlaw.asciiUpper c (by omega), toUpper_eq_self (.inr hdigit)]
    · rw [hlaw.asciiUpper c (hmarks c hmark).1, (hmarks c hmark).2.1]
  have hne : code.toList ≠ [] := by
    intro hnil
    have hlength := hcode.1
    rw [hnil] at hlength
    cases hlength
  have hsix : (codePoints code).length = 6 := (List.length_map _).trans hcode.1
  have hdigits : isDigitPoints (codePoints code) = true := by
    rw [isDigitPoints_codePoints, ← String.ofList_toList (s := code)]
    exact isDigitText_digits hlaw hne hcode.2
  obtain ⟨first, rest, hfirst⟩ := List.exists_cons_of_ne_nil hne
  have hletter : first ≠ 'A' := by
    rintro rfl
    have hA := hcode.2 'A' (by rw [hfirst]; exact List.mem_cons_self)
    exact absurd hA (by decide)
  have hkept : ∀ tail : List CodePoint,
      withoutFeedLetter (codePoints code ++ tail) = codePoints code ++ tail :=
    fun tail => withoutFeedLetter_of_head (by rw [codePoints, hfirst]; rfl) hletter
  have hnoL := not_mem_digits hcode.2 (c := 'L') (by decide)
  have hnoX := not_mem_digits hcode.2 (c := 'X') (by decide)
  have hplain : withoutSuffix "_NX" (withoutSuffix "_AL" (codePoints code)) = codePoints code := by
    rw [withoutSuffix_of_not_mem (c := .char 'L') (by decide) hnoL,
      withoutSuffix_of_not_mem (c := .char 'X') (by decide) hnoX]
  have hread : withoutSuffix "_NX" (withoutSuffix "_AL" (withoutFeedLetter (codePoints spelled))) =
      codePoints code := by
    simp only [spellings, List.mem_cons, List.not_mem_nil, or_false] at hspelled
    rcases hspelled with rfl | rfl | rfl | rfl
    · have hsame := hkept []
      rw [List.append_nil] at hsame
      rw [hsame, hplain]
    · have hseven : withoutFeedLetter (codePoints ("A" ++ code)) = codePoints code := by
        rw [codePoints_append]
        show (if (CodePoint.char 'A' :: codePoints code).length = 7 ∧
          isDigitPoints (codePoints code) = true then codePoints code else _) = _
        rw [if_pos ⟨by rw [List.length_cons, hsix], hdigits⟩]
      rw [hseven, hplain]
    · rw [codePoints_append, hkept, withoutSuffix_append,
        withoutSuffix_of_not_mem (c := .char 'X') (by decide) hnoX]
    · have hlast : CodePoint.char 'L' ∉ codePoints code ++ codePoints "_NX" := by
        intro hmem
        rcases List.mem_append.mp hmem with hmem | hmem
        · exact hnoL hmem
        · exact absurd hmem (by decide)
      rw [codePoints_append, hkept, withoutSuffix_of_not_mem (c := .char 'L') (by decide) hlast,
        withoutSuffix_append]
  unfold normalizeLiveStockCode
  dsimp only
  rw [textOrEmpty_str, stripPoints_codePoints, hstrip, upperPoints_codePoints, hupper, hread,
    if_pos ⟨hsix, hdigits⟩, charsOf_codePoints, String.ofList_toList]

end

theorem roundedTo_multiple {n : ℤ} (hn : |n| ≤ 10 ^ Decimal.defaultPrec) :
    Decimal.roundedTo Decimal.defaultPrec (n * 10 ^ Decimal.eMax) = n * 10 ^ Decimal.eMax := by
  have hleast : Decimal.eTiny Decimal.defaultPrec ≤ Decimal.eMax := by decide
  have hmultiple := HalfEven.rounded_multiple (K := ℚ) defaultPrec_pos hn hleast
  rw [Decimal.roundedTo]
  exact hmultiple

theorem not_tooLarge {x : ℚ} (h : |x| ≤ 2 * 10 ^ Decimal.eMax) : ¬ TooLarge x := by
  have hkept : Decimal.roundedTo Decimal.defaultPrec (2 * 10 ^ Decimal.eMax) =
      2 * 10 ^ Decimal.eMax := by
    exact_mod_cast roundedTo_multiple (n := 2) (by decide)
  have hround := Decimal.roundedTo_mono defaultPrec_pos h
  rw [hkept, ← Decimal.abs_roundedTo] at hround
  have hpow : (0 : ℚ) < 10 ^ Decimal.eMax := by positivity
  have hnext : (10 : ℚ) ^ (Decimal.eMax + 1) = 10 * 10 ^ Decimal.eMax := by
    rw [zpow_add_one₀ (by norm_num), mul_comm]
  unfold TooLarge
  rw [hnext, not_le]
  linarith

theorem magnitude_le {d : Decimal} (h : |d.value| ≤ 10 ^ Decimal.eMax) :
    magnitude d ≤ 10 ^ Decimal.eMax := by
  have hkept : Decimal.roundedTo Decimal.defaultPrec (10 ^ Decimal.eMax) = 10 ^ Decimal.eMax := by
    have hmultiple := roundedTo_multiple (n := 1) (by decide)
    rwa [Int.cast_one, one_mul] at hmultiple
  rw [← hkept]
  exact Decimal.roundedTo_mono defaultPrec_pos h

theorem magnitude_whole {d : Decimal} (h : d.value.den = 1) : (magnitude d).den = 1 := by
  obtain ⟨n, hn⟩ := den_eq_one_iff.mp h
  rw [den_eq_one_iff, magnitude, hn, ← Int.cast_abs, Decimal.roundedTo, HalfEven.rounded]
  generalize HalfEven.lastPlace Decimal.defaultPrec (Decimal.eTiny Decimal.defaultPrec)
    ((|n| : ℤ) : ℚ) = place
  rcases le_total place 0 with hplace | hplace
  · have hmultiple := HalfEven.roundAt_multiple (K := ℚ) hplace |n|
    rw [zpow_zero, mul_one] at hmultiple
    exact ⟨|n|, hmultiple⟩
  · obtain ⟨k, rfl⟩ := Int.eq_ofNat_of_zero_le hplace
    refine ⟨HalfEven.roundEven (((|n| : ℤ) : ℚ) / 10 ^ (k : ℤ)) * 10 ^ k, ?_⟩
    rw [HalfEven.roundAt]
    push_cast
    rfl

section

variable [JsonValue.Printer]

/-- A value writes a number that is not too large, or nothing. -/
def WritesNumber (value : JsonValue) : Prop :=
  ∃ number, writtenNumber value = .ok number ∧ ∀ d ∈ number, |d.value| ≤ 10 ^ Decimal.eMax

/-- A value writes a whole number that is not too large, or nothing. -/
def WritesCount (value : JsonValue) : Prop :=
  ∃ number, writtenNumber value = .ok number ∧
    ∀ d ∈ number, |d.value| ≤ 10 ^ Decimal.eMax ∧ d.value.den = 1

variable {value : JsonValue}

theorem WritesNumber.numberFailure (h : WritesNumber value) (absolute : Bool) :
    numberFailure value absolute = none := by
  obtain ⟨number, hnumber, hsmall⟩ := h
  unfold Kiwoom.numberFailure
  rw [hnumber]
  cases number with
  | none => rfl
  | some d =>
    have hle := hsmall d rfl
    have hpow : (0 : ℚ) < 10 ^ Decimal.eMax := by positivity
    exact if_neg fun hlarge => not_tooLarge (by linarith) hlarge.2

theorem WritesCount.integerFailure (h : WritesCount value) : integerFailure value = none := by
  obtain ⟨number, hnumber, hsmall⟩ := h
  unfold Kiwoom.integerFailure
  rw [hnumber]
  cases number with
  | none => rfl
  | some d =>
    obtain ⟨hle, hwhole⟩ := hsmall d rfl
    have hpow : (0 : ℚ) < 10 ^ Decimal.eMax := by positivity
    dsimp only
    rw [if_neg (not_tooLarge (by linarith)), if_neg (not_not.mpr (magnitude_whole hwhole))]

theorem WritesNumber.baseFailure {price change : JsonValue} (hprice : WritesNumber price)
    (hchange : WritesNumber change) : baseFailure price change = none := by
  obtain ⟨p, hp, hpsmall⟩ := hprice
  obtain ⟨c, hc, hcsmall⟩ := hchange
  unfold Kiwoom.baseFailure
  rw [hp, hc]
  cases p with
  | none => rfl
  | some p =>
    cases c with
    | none => rfl
    | some c =>
      have hmagnitude := magnitude_le (hpsmall p rfl)
      have hnonneg := magnitude_nonneg p
      have hlow := neg_le_of_abs_le (hcsmall c rfl)
      have hhigh := le_of_abs_le (hcsmall c rfl)
      exact if_neg (not_tooLarge (abs_le.mpr ⟨by linarith, by linarith⟩))

end

theorem hourOf_lt {tens ones : Char} {hour : Nat} (h : hourOf tens ones = some hour) :
    hour < 24 := by
  unfold hourOf at h
  split_ifs at h with hzero hone htwo
  · have := decimalValue_lt h
    omega
  · obtain ⟨n, hn, rfl⟩ := Option.map_eq_some_iff.mp h
    have := decimalValue_lt hn
    omega
  · obtain ⟨n, hn, rfl⟩ := Option.map_eq_some_iff.mp h
    have hsmall : ∀ ones ∈ ['0', '1', '2', '3'], ∀ n ∈ decimalValue ones, n < 4 := by decide
    have := hsmall ones htwo.2 n hn
    omega

theorem sixtiethOf_lt {tens ones : Char} {n : Nat} (h : sixtiethOf tens ones = some n) :
    n < 60 := by
  unfold sixtiethOf at h
  split_ifs at h with htens
  obtain ⟨k, hk, rfl⟩ := Option.map_eq_some_iff.mp h
  have hsmall : ∀ tens ∈ ['0', '1', '2', '3', '4', '5'], tens.toNat - '0'.toNat ≤ 5 := by decide
  have := hsmall tens htens
  have := decimalValue_lt hk
  omega

theorem clockOf_lt {digits : List Char} {hour minute second : Nat}
    (h : clockOf digits = some (hour, minute, second)) : hour < 24 ∧ minute < 60 ∧ second < 60 := by
  unfold clockOf at h
  split at h
  · obtain ⟨hour', hhour, h⟩ := Option.bind_eq_some_iff.mp h
    obtain ⟨minute', hminute, h⟩ := Option.bind_eq_some_iff.mp h
    obtain ⟨second', hsecond, h⟩ := Option.bind_eq_some_iff.mp h
    obtain ⟨rfl, rfl, rfl⟩ : hour' = hour ∧ minute' = minute ∧ second' = second := by
      simpa using Option.some.inj h
    exact ⟨hourOf_lt hhour, sixtiethOf_lt hminute, sixtiethOf_lt hsecond⟩
  · cases h

theorem ofDigitChars_lt {cs : List Char} (h : ∀ c ∈ cs, c.isDigit = true) (acc : Nat) :
    Nat.ofDigitChars 10 cs acc < (acc + 1) * 10 ^ cs.length := by
  induction cs generalizing acc with
  | nil => simp
  | cons c cs ih =>
    have hdigit := h c List.mem_cons_self
    have hd : 48 ≤ c.toNat ∧ c.toNat ≤ 57 := by
      simpa [Char.isDigit, UInt32.le_iff_toNat_le] using hdigit
    rw [Nat.ofDigitChars_cons]
    refine (ih (fun d hd => h d (List.mem_cons_of_mem _ hd)) _).trans_le ?_
    rw [List.length_cons, Nat.pow_succ', ← mul_assoc]
    refine Nat.mul_le_mul_right _ ?_
    show 10 * acc + (c.toNat - 48) + 1 ≤ (acc + 1) * 10
    omega

theorem intOfStr_digits {cs : List Char} (hne : cs ≠ []) (h : ∀ c ∈ cs, c.isDigit = true) :
    intOfStr (String.ofList cs) = some (Nat.ofDigitChars 10 cs 0 : Nat) := by
  have hstrip : stripChars cs = cs := stripChars_eq_self fun c hc => isSpace_of_isDigit (h c hc)
  unfold intOfStr
  rw [String.toList_ofList, hstrip]
  split
  · exact absurd (h '-' List.mem_cons_self) (by decide)
  · exact absurd (h '+' List.mem_cons_self) (by decide)
  · rw [readNat_digits hne h]
    rfl

section

variable [JsonValue.Printer]

theorem microsecondOf_ok {digits : List Char} (h : ∀ c ∈ digits, c.isDigit = true) :
    ∃ microsecond, microsecondOf digits = .ok microsecond ∧ microsecond < 1000000 := by
  unfold microsecondOf
  split
  · next hlength =>
    have htaken : ((digits.drop 6).take 3).length = 3 := by
      rw [List.length_take, List.length_drop]
      omega
    have hne : (digits.drop 6).take 3 ≠ [] := by
      intro hnil
      rw [hnil] at htaken
      cases htaken
    have hdigits : ∀ c ∈ (digits.drop 6).take 3, c.isDigit = true :=
      fun c hc => h c (List.mem_of_mem_drop (List.mem_of_mem_take hc))
    have hlt := ofDigitChars_lt hdigits 0
    rw [htaken] at hlt
    dsimp only
    rw [intOfStr_digits hne hdigits]
    exact ⟨_, rfl, by rw [Int.toNat_natCast]; omega⟩
  · exact ⟨0, rfl, by decide⟩

variable [UnicodeTable]

/-- The digits of a value are those of ASCII. -/
def WritesClock (value : JsonValue) : Prop :=
  ∀ c ∈ charsOf (textOrEmpty value), UnicodeTable.isdigit c = true → c.isDigit = true

theorem WritesClock.sourceClock_ok {value : JsonValue} (h : WritesClock value)
    {receivedAt : Datetime} (hcentral : receivedAt.date.Central) :
    ∃ occurred, sourceClockToDatetime value receivedAt = .ok occurred := by
  have hdigits : ∀ c ∈ (charsOf (textOrEmpty value)).filter UnicodeTable.isdigit,
      c.isDigit = true :=
    fun c hc => h c (List.mem_filter.mp hc).1 (List.mem_filter.mp hc).2
  obtain ⟨received, hreceived⟩ :=
    Datetime.astimezone_ok hcentral (show KST.natAbs < dayMicros by decide)
  obtain ⟨microsecond, hmicrosecond, hsmall⟩ := microsecondOf_ok hdigits
  unfold sourceClockToDatetime
  dsimp only
  split
  · exact ⟨_, rfl⟩
  · next hour minute second hclock =>
    obtain ⟨hhour, hminute, hsecond⟩ := clockOf_lt hclock
    have hfields : (Datetime.ofFields received.date hour minute second microsecond KST).isSome := by
      unfold Datetime.ofFields
      rw [dif_pos ⟨hhour, hminute, hsecond, hsmall, by decide⟩]
      rfl
    obtain ⟨occurred, hoccurred⟩ := Option.isSome_iff_exists.mp hfields
    rw [hreceived, hmicrosecond, ok_bind_apply, ok_bind_apply, hoccurred]
    exact ⟨occurred, rfl⟩

theorem firstSourceClock_ok {payload : JsonValue} {items : List JsonValue}
    (hdata : payload.getOr "data" = .arr items)
    (h : ∀ item ∈ items, WritesClock ((item.getOr "values").getOr "20")) {receivedAt : Datetime}
    (hcentral : receivedAt.date.Central) :
    ∃ sourceTimestamp, firstSourceClock payload receivedAt = .ok sourceTimestamp := by
  unfold firstSourceClock
  rw [hdata]
  dsimp only
  split
  · next item hitem => exact (h item (List.mem_of_find?_eq_some hitem)).sourceClock_ok hcentral
  · exact ⟨_, rfl⟩

theorem enqueue_ok (s : LiveSession) {payload : JsonValue.Fields} {items : List JsonValue}
    (hdata : (JsonValue.obj payload).getOr "data" = .arr items)
    (h : ∀ item ∈ items, WritesClock ((item.getOr "values").getOr "20")) {receivedAt : Datetime}
    (hcentral : receivedAt.date.Central) :
    ∃ sourceTimestamp, firstSourceClock (.obj payload) receivedAt = .ok sourceTimestamp ∧
      (s.enqueue payload receivedAt).1 = .ok () ∧ (s.enqueue payload receivedAt).2.queue =
        s.queue ++ [s.realtimeEnvelope (s.sequence + 1) payload sourceTimestamp receivedAt] := by
  obtain ⟨sourceTimestamp, hclock⟩ := firstSourceClock_ok hdata h hcentral
  obtain ⟨received, hreceived⟩ :=
    Datetime.astimezone_ok hcentral (show KST.natAbs < dayMicros by decide)
  refine ⟨sourceTimestamp, hclock, ?_⟩
  unfold LiveSession.enqueue
  dsimp only
  rw [hclock, hreceived]
  exact ⟨rfl, rfl⟩

end

section

variable [JsonValue.Printer] [Sha256] {envelope : KiwoomSourceEnvelope} {code : String}
  {event : CanonicalMarketEvent}

theorem makeEvent_stockId {rawItem : JsonValue} {itemIndex : Nat} {eventType : CanonicalEventType}
    {data : EventData} (h : makeEvent envelope rawItem itemIndex eventType code data = .ok event) :
    event.stockId = "KRX:" ++ code := by
  unfold makeEvent at h
  obtain ⟨rawHash, -, h⟩ := bind_eq_ok.mp h
  obtain ⟨utc, -, h⟩ := bind_eq_ok.mp h
  obtain ⟨condition, -, h⟩ := bind_eq_ok.mp h
  obtain ⟨lineage, -, h⟩ := bind_eq_ok.mp h
  obtain ⟨-, rfl⟩ := checked_eq_ok.mp h
  rfl

variable [UnicodeTable]

theorem tradeEvent_stockId {item values : JsonValue} {itemIndex : Nat}
    (hcode : stockCode (firstTrue [item.getOr "item", values.getOr "9001"]) = .ok code)
    (h : tradeEvent envelope item values itemIndex = .ok event) :
    event.stockId = "KRX:" ++ code := by
  unfold tradeEvent at h
  obtain ⟨code', hcode', h⟩ := bind_eq_ok.mp h
  obtain rfl : code = code' := Except.ok.inj (hcode.symm.trans hcode')
  iterate 13 obtain ⟨_, -, h⟩ := bind_eq_ok.mp h
  exact makeEvent_stockId h

theorem candidateEvent_stockId {row : JsonValue} {itemIndex : Nat} {conditionId : List CodePoint}
    {action : CandidateAction} (hcode : stockCode (firstTrue
      [row.getOr "item", (row.getOr "values").getOr "9001", row.getOr "stk_cd"]) = .ok code)
    (h : candidateEvent envelope row itemIndex conditionId action = .ok event) :
    event.stockId = "KRX:" ++ code := by
  unfold candidateEvent at h
  obtain ⟨code', hcode', h⟩ := bind_eq_ok.mp h
  obtain rfl : code = code' := Except.ok.inj (hcode.symm.trans hcode')
  dsimp only at h
  split at h
  · obtain ⟨_, hrefused, -⟩ := bind_eq_ok.mp h
    cases hrefused
  · obtain ⟨data, -, h⟩ := bind_eq_ok.mp h
    exact makeEvent_stockId h

theorem snapshotEvent_stockId {row : JsonValue} {itemIndex : Nat}
    (hcode : stockCode (firstTrue [row.getOr "stk_cd", row.getOr "code"]) = .ok code)
    (h : snapshotEvent envelope row itemIndex = .ok event) : event.stockId = "KRX:" ++ code := by
  unfold snapshotEvent at h
  obtain ⟨code', hcode', h⟩ := bind_eq_ok.mp h
  obtain rfl : code = code' := Except.ok.inj (hcode.symm.trans hcode')
  iterate 3 obtain ⟨_, -, h⟩ := bind_eq_ok.mp h
  dsimp only at h
  split at h
  · iterate 10 obtain ⟨_, -, h⟩ := bind_eq_ok.mp h
    exact makeEvent_stockId h
  · iterate 12 obtain ⟨_, -, h⟩ := bind_eq_ok.mp h
    exact makeEvent_stockId h

end

section

variable [JsonValue.Printer]

/-- The values of a trade are numbers and counts. -/
structure TradeValues (values : JsonValue) : Prop where
  numbers : ∀ key ∈ ["10", "12", "11", "14", "16", "17", "18", "228", "311"],
    WritesNumber (values.getOr key)
  counts : ∀ key ∈ ["15", "13"], WritesCount (values.getOr key)

variable [UnicodeTable]

/-- The values of a candidate name a condition and an action. -/
structure CandidateValues (values : JsonValue) : Prop where
  action : upperPoints (textOrEmpty (values.getOr "843")) ∈ [codePoints "I", codePoints "D"]
  condition : stripPoints (textOrEmpty (values.getOr "841")) ≠ []

omit [UnicodeTable] in
/-- A row with a code in one of its fields, if it has fields. -/
def codedRow (key code : String) : JsonValue → JsonValue
  | .obj fields => withCode fields key code
  | row => row

/-- A well-formed item of a realtime message about a stock. -/
structure WellFormedItem (code : String) (item : JsonValue) : Prop where
  fields : ∃ fields, item = .obj fields
  values : ∃ values, item.getOr "values" = .obj values
  spelled : ∃ spelled ∈ spellings code,
    firstTrue [item.getOr "item", (item.getOr "values").getOr "9001"] = .str (codePoints spelled)
  clock : WritesClock ((item.getOr "values").getOr "20")
  body : textOrEmpty (item.getOr "type") = "0B" ∧ TradeValues (item.getOr "values") ∨
    textOrEmpty (item.getOr "type") = "02" ∧ CandidateValues (item.getOr "values")
  encodable : (codedRow "item" code item).Encodable

omit [UnicodeTable] in
/-- The values of a row of a snapshot are numbers and counts. -/
structure RowValues (row : JsonValue) : Prop where
  numbers : ∀ key ∈ ["cur_prc", "flu_rt", "base_pric", "pred_pre", "acc_trde_prica", "open_pric",
    "high_pric", "low_pric", "cntr_str", "mac"], WritesNumber (row.getOr key)
  counts : ∀ key ∈ ["trde_qty", "acc_trde_qty"], WritesCount (row.getOr key)

omit [UnicodeTable] in
/-- A well-formed row of a snapshot about a stock. -/
structure WellFormedRow (code : String) (row : JsonValue) : Prop where
  fields : ∃ fields, row = .obj fields
  spelled : ∃ spelled ∈ spellings code,
    firstTrue [row.getOr "stk_cd", row.getOr "code"] = .str (codePoints spelled)
  values : RowValues row
  encodable : (codedRow "stk_cd" code row).Encodable

variable {code : String}

omit [JsonValue.Printer] [UnicodeTable] in
theorem codeFailure_ascii (hcode : AsciiCode code) : codeFailure code = none :=
  if_pos hcode.contract

section

omit [UnicodeTable]

theorem digestFailure_encodable {row : JsonValue} (h : row.Encodable) : digestFailure row = none :=
  if_pos h

/-- The condition that a row with a digest names can be encoded. -/
theorem conditionFailure_encodable {row : JsonValue} (h : row.Encodable) :
    conditionFailure (stripPoints (textOrEmpty ((row.getOr "values").getOr "841"))) = none := by
  rw [conditionFailure, any_isSurrogate_stripPoints, if_neg]
  intro hlone
  obtain ⟨c, hc, hsurrogate⟩ := List.any_eq_true.mp hlone
  unfold textOrEmpty at hc
  split at hc
  · have hpoints := JsonValue.mem_points_of_text hsurrogate hc
    exact List.any_eq_false.mp h.paired c
      (JsonValue.mem_points_of_getOr (JsonValue.mem_points_of_getOr hpoints)) hsurrogate
  · cases hc

theorem TradeValues.tradeFailures {item values : JsonValue} (h : TradeValues values)
    (hcode : AsciiCode code) (hrow : item.Encodable) :
    firstFailure (tradeFailures code item values) = none := by
  have hnumber : ∀ key ∈ ["10", "12", "11", "14", "16", "17", "18", "228", "311"], ∀ absolute,
      numberFailure (values.getOr key) absolute = none :=
    fun key hkey absolute => (h.numbers key hkey).numberFailure absolute
  have hcount : ∀ key ∈ ["15", "13"], integerFailure (values.getOr key) = none :=
    fun key hkey => (h.counts key hkey).integerFailure
  have hbase : baseFailure (values.getOr "10") (values.getOr "11") = none :=
    (h.numbers "10" (by decide)).baseFailure (h.numbers "11" (by decide))
  simp only [List.forall_mem_cons] at hnumber hcount
  simp [Kiwoom.tradeFailures, hnumber, hcount, hbase, codeFailure_ascii hcode,
    digestFailure_encodable hrow]

theorem RowValues.snapshotFailures {row : JsonValue} (h : RowValues row) (hcode : AsciiCode code)
    (hrow : row.Encodable) : firstFailure (snapshotFailures code row) = none := by
  have hnumber :
      ∀ key ∈ ["cur_prc", "flu_rt", "base_pric", "pred_pre", "acc_trde_prica", "open_pric",
      "high_pric", "low_pric", "cntr_str", "mac"], ∀ absolute,
      numberFailure (row.getOr key) absolute = none :=
    fun key hkey absolute => (h.numbers key hkey).numberFailure absolute
  have hcount : ∀ key ∈ ["trde_qty", "acc_trde_qty"], integerFailure (row.getOr key) = none :=
    fun key hkey => (h.counts key hkey).integerFailure
  have hbase : baseFailure (row.getOr "cur_prc") (row.getOr "pred_pre") = none :=
    (h.numbers "cur_prc" (by decide)).baseFailure (h.numbers "pred_pre" (by decide))
  simp only [List.forall_mem_cons] at hnumber hcount
  unfold Kiwoom.snapshotFailures
  split <;>
    simp [hnumber, hcount, hbase, codeFailure_ascii hcode, digestFailure_encodable hrow]

end

theorem AsciiCode.sixDigits (hlaw : LawfulTable) (hcode : AsciiCode code) : SixDigits code :=
  sixDigits_of_normalize (normalizeLiveStockCode_spelling hlaw hcode List.mem_cons_self)

theorem WellFormedItem.kept (hlaw : LawfulTable) {item : JsonValue} (h : WellFormedItem code item)
    (hcode : AsciiCode code) :
    ∃ fields, item = .obj fields ∧
      sanitizeRealItem item = .kept (withCode fields "item" code) := by
  obtain ⟨fields, rfl⟩ := h.fields
  obtain ⟨spelled, hmem, hspelled⟩ := h.spelled
  refine ⟨fields, rfl, ?_⟩
  have hread := normalizeLiveStockCode_spelling hlaw hcode hmem
  unfold sanitizeRealItem
  dsimp only
  rw [hspelled, hread]
  rcases h.body with ⟨htype, -⟩ | ⟨htype, hbody⟩
  · rw [if_neg (by rw [htype]; decide)]
    dsimp only
    rw [if_neg (by rw [htype]; exact fun hcandidate => absurd hcandidate.1 (by decide))]
  · have haction := hbody.action
    rw [List.mem_cons, List.mem_singleton] at haction
    rw [if_neg (by rw [htype]; decide)]
    dsimp only
    rw [if_neg]
    rintro ⟨-, ⟨henter, hexit⟩ | hblank⟩
    · exact haction.elim henter hexit
    · exact hbody.condition hblank

theorem WellFormedRow.kept (hlaw : LawfulTable) {row : JsonValue} (h : WellFormedRow code row)
    (hcode : AsciiCode code) {requestedCodes : List String} (hrequested : code ∈ requestedCodes) :
    ∃ fields, row = .obj fields ∧ sanitizeSnapshotRow requestedCodes row =
      .kept (withCode fields "stk_cd" code) := by
  obtain ⟨fields, rfl⟩ := h.fields
  obtain ⟨spelled, hmem, hspelled⟩ := h.spelled
  refine ⟨fields, rfl, ?_⟩
  have hread := normalizeLiveStockCode_spelling hlaw hcode hmem
  unfold sanitizeSnapshotRow
  dsimp only
  rw [hspelled, hread]
  dsimp only
  rw [if_pos hrequested]

section

variable [Sha256] {envelope : KiwoomSourceEnvelope} {utc : Datetime}

theorem WellFormedItem.event (hlaw : LawfulTable)
    (hdigest : ∀ text, (hexdigest text).toList.length = 64)
    (hutc : envelope.sourceTimestamp.astimezoneUtc = .ok utc) {fields : JsonValue.Fields}
    (h : WellFormedItem code (.obj fields)) (hcode : AsciiCode code) (itemIndex : Nat) :
    ∃ event, realtimeEvent envelope (withCode fields "item" code) itemIndex = .ok (some event) ∧
      event.stockId = "KRX:" ++ code := by
  obtain ⟨fields', hfields', hkept⟩ := h.kept hlaw hcode
  obtain rfl : fields = fields' := JsonValue.obj.inj hfields'
  obtain ⟨values, hvalues⟩ := h.values
  have hverdict := verdict_realtimeEvent hlaw hdigest hutc hkept itemIndex
  have hencodable : (withCode fields "item" code).Encodable := h.encodable
  have hitem := getOr_withCode_self fields "item" code
  have htypes := getOr_withCode_of_ne fields code (show "item" ≠ "type" by decide)
  have hmapping := getOr_withCode_of_ne fields code (show "item" ≠ "values" by decide)
  have hbody := h.body
  rw [← htypes, ← hmapping] at hbody
  rw [hvalues] at hmapping
  rw [hmapping] at hbody
  have hstock : ∀ others : List JsonValue, others ≠ [] → stockCode (firstTrue
      ((withCode fields "item" code).getOr "item" :: others)) = .ok code := by
    intro others hothers
    rw [hitem]
    exact stockCode_kept hlaw (hcode.sixDigits hlaw) others hothers
  unfold realFailures at hverdict
  rw [keptCode_withCode, hmapping] at hverdict
  dsimp only at hverdict
  rcases hbody with ⟨htype, hbody⟩ | ⟨htype, hbody⟩
  · rw [if_pos htype, hbody.tradeFailures hcode hencodable] at hverdict
    obtain ⟨outcome, hevent⟩ := verdict_eq_none.mp hverdict
    have hbound := hevent
    rw [realtimeEvent_trade hmapping htype] at hbound
    obtain ⟨event, htrade, houtcome⟩ := bind_eq_ok.mp hbound
    cases houtcome
    have hread := hstock [(JsonValue.obj values).getOr "9001"] (List.cons_ne_nil _ _)
    exact ⟨event, hevent, tradeEvent_stockId hread htrade⟩
  · have haction := hbody.action
    rw [List.mem_cons, List.mem_singleton] at haction
    have hnamed := conditionFailure_encodable hencodable
    rw [hmapping] at hnamed
    rw [if_neg (by rw [htype]; decide), candidateFailures, codeFailure_ascii hcode,
      digestFailure_encodable hencodable, hnamed] at hverdict
    obtain ⟨outcome, hevent⟩ := verdict_eq_none.mp hverdict
    have hbound := hevent
    obtain ⟨action, haction⟩ := realtimeEvent_candidate hmapping htype haction itemIndex
    rw [haction] at hbound
    obtain ⟨event, hcandidate, houtcome⟩ := bind_eq_ok.mp hbound
    cases houtcome
    have hread := hstock [((withCode fields "item" code).getOr "values").getOr "9001",
      (withCode fields "item" code).getOr "stk_cd"] (List.cons_ne_nil _ _)
    exact ⟨event, hevent, candidateEvent_stockId hread hcandidate⟩

theorem WellFormedRow.event (hlaw : LawfulTable)
    (hdigest : ∀ text, (hexdigest text).toList.length = 64)
    (hutc : envelope.sourceTimestamp.astimezoneUtc = .ok utc) {fields : JsonValue.Fields}
    (h : WellFormedRow code (.obj fields)) (hcode : AsciiCode code) (itemIndex : Nat) :
    ∃ event, snapshotEvent envelope (withCode fields "stk_cd" code) itemIndex = .ok event ∧
      event.stockId = "KRX:" ++ code := by
  have hstock : stockCode (firstTrue [(withCode fields "stk_cd" code).getOr "stk_cd",
      (withCode fields "stk_cd" code).getOr "code"]) = .ok code := by
    rw [getOr_withCode_self]
    exact stockCode_kept hlaw (hcode.sixDigits hlaw) _ (List.cons_ne_nil _ _)
  have hsame : ∀ key, "stk_cd" ≠ key →
      (withCode fields "stk_cd" code).getOr key = (JsonValue.obj fields).getOr key :=
    fun key hkey => getOr_withCode_of_ne fields code hkey
  have hkept : RowValues (withCode fields "stk_cd" code) := by
    refine ⟨fun key hkey => ?_, fun key hkey => ?_⟩
    · rw [hsame key (by rintro rfl; exact absurd hkey (by decide))]
      exact h.values.numbers key hkey
    · rw [hsame key (by rintro rfl; exact absurd hkey (by decide))]
      exact h.values.counts key hkey
  have hverdict := verdict_snapshotEvent hdigest hutc hstock itemIndex
  rw [hkept.snapshotFailures hcode h.encodable] at hverdict
  obtain ⟨event, hevent⟩ := verdict_eq_none.mp hverdict
  exact ⟨event, hevent, snapshotEvent_stockId hstock hevent⟩

end

end

/-- What is kept of a row that names a stock. -/
def keptRow (key : String) (row : JsonValue × Option String) : Option (JsonValue × String) :=
  row.2.map fun code => (codedRow key code row.1, code)

theorem sifted_rows {key : String} {sanitize : JsonValue → ItemVerdict}
    {rows : List (JsonValue × Option String)}
    (hkept : ∀ row ∈ rows, ∀ code ∈ row.2, sanitize row.1 = .kept (codedRow key code row.1))
    (hother : ∀ row ∈ rows, row.2 = none → ∀ kept, sanitize row.1 ≠ .kept kept) :
    (sifted ((rows.map Prod.fst).map sanitize)).1 =
      (rows.filterMap (keptRow key)).map Prod.fst := by
  unfold sifted
  dsimp only
  rw [List.filterMap_map, List.filterMap_map, List.map_filterMap]
  refine List.filterMap_congr fun row hrow => ?_
  obtain ⟨json, tag⟩ := row
  cases tag with
  | none =>
    have hpassed := hother (json, none) hrow rfl
    dsimp only [Function.comp_apply]
    cases hverdict : sanitize json with
    | kept kept => exact absurd hverdict (hpassed kept)
    | _ => rfl
  | some code =>
    have hverdict := hkept (json, some code) hrow code rfl
    dsimp only [Function.comp_apply]
    dsimp only at hverdict
    rw [hverdict]
    rfl

theorem codes_keptRow (key : String) (rows : List (JsonValue × Option String)) :
    (rows.filterMap (keptRow key)).map Prod.snd = rows.filterMap Prod.snd := by
  rw [List.map_filterMap]
  refine List.filterMap_congr fun row _ => ?_
  unfold keptRow
  rw [Option.map_map]
  exact Option.map_id'

theorem mapM_rows {α γ : Type} {f : JsonValue → Nat → Except Error α} {stockOf : α → γ}
    {g : String → γ} {rows : List (JsonValue × String)}
    (h : ∀ row ∈ rows, ∀ index, ∃ a, f row.1 index = .ok a ∧ stockOf a = g row.2) :
    ∃ as, ((rows.map Prod.fst).zipIdx.mapM fun (row, index) => f row index) = .ok as ∧
      as.map stockOf = (rows.map Prod.snd).map g := by
  have hindexed : ∀ (rows : List (JsonValue × String)) (start : Nat),
      (∀ row ∈ rows, ∀ index, ∃ a, f row.1 index = .ok a ∧ stockOf a = g row.2) →
      ∃ as, (((rows.map Prod.fst).zipIdx start).mapM fun (row, index) => f row index) = .ok as ∧
        as.map stockOf = (rows.map Prod.snd).map g := by
    intro rows
    induction rows with
    | nil => exact fun _ _ => ⟨[], rfl, rfl⟩
    | cons row rows ih =>
      intro start hrows
      obtain ⟨a, ha, hstock⟩ := hrows row List.mem_cons_self start
      obtain ⟨as, has, hstocks⟩ := ih (start + 1) fun row hrow =>
        hrows row (List.mem_cons_of_mem _ hrow)
      refine ⟨a :: as, ?_, ?_⟩
      · rw [List.map_cons, List.zipIdx_cons, List.mapM_cons]
        dsimp only
        rw [ha, has]
        rfl
      · rw [List.map_cons, List.map_cons, List.map_cons, hstock, hstocks]
  exact hindexed rows 0 h

section

variable [JsonValue.Printer] [UnicodeTable]

/-- Each row is well formed and names its stock, or is not kept. -/
structure NamedRows (wellFormed : String → JsonValue → Prop) (sanitize : JsonValue → ItemVerdict)
    (rows : List (JsonValue × Option String)) : Prop where
  named : ∀ row ∈ rows, ∀ code ∈ row.2, AsciiCode code ∧ wellFormed code row.1
  others : ∀ row ∈ rows, row.2 = none → ∀ kept, sanitize row.1 ≠ .kept kept
  nonempty : ∃ row ∈ rows, row.2 ≠ none

variable {wellFormed : String → JsonValue → Prop} {sanitize : JsonValue → ItemVerdict}
  {rows : List (JsonValue × Option String)} {key : String}

section

omit [JsonValue.Printer] [UnicodeTable]

theorem NamedRows.of_mem (h : NamedRows wellFormed sanitize rows) {kept : JsonValue × String}
    (hkept : kept ∈ rows.filterMap (keptRow key)) :
    ∃ row, AsciiCode kept.2 ∧ wellFormed kept.2 row ∧ kept.1 = codedRow key kept.2 row := by
  obtain ⟨row, hrow, hkept⟩ := List.mem_filterMap.mp hkept
  obtain ⟨code, hcode, rfl⟩ := Option.map_eq_some_iff.mp hkept
  obtain ⟨hascii, hformed⟩ := h.named row hrow code hcode
  exact ⟨row.1, hascii, hformed, rfl⟩

theorem NamedRows.kept_ne_nil (h : NamedRows wellFormed sanitize rows) (key : String) :
    (rows.filterMap (keptRow key)).map Prod.fst ≠ [] := by
  obtain ⟨row, hrow, hne⟩ := h.nonempty
  obtain ⟨code, hcode⟩ := Option.ne_none_iff_exists'.mp hne
  have hmem : (codedRow key code row.1, code) ∈ rows.filterMap (keptRow key) :=
    List.mem_filterMap.mpr ⟨row, hrow, by rw [keptRow, hcode]; rfl⟩
  exact List.ne_nil_of_mem (List.mem_map_of_mem hmem)

end

variable [Sha256] {receivedAt : Datetime}

section

omit [Sha256]

theorem NamedRows.keptItems (hlaw : LawfulTable)
    (h : NamedRows WellFormedItem sanitizeRealItem rows) :
    (sanitizeRealItems (.arr (rows.map Prod.fst))).1 =
      (rows.filterMap (keptRow "item")).map Prod.fst := by
  refine sifted_rows (fun row hrow code hcode => ?_) h.others
  obtain ⟨hascii, hformed⟩ := h.named row hrow code hcode
  obtain ⟨fields, hfields, hverdict⟩ := hformed.kept hlaw hascii
  rw [hverdict, hfields]
  rfl

theorem NamedRows.keptSnapshotRows (hlaw : LawfulTable) {requestedCodes : List String}
    (h : NamedRows (fun code row => code ∈ requestedCodes ∧ WellFormedRow code row)
      (sanitizeSnapshotRow requestedCodes) rows) :
    (sanitizeSnapshotRows requestedCodes (.arr (rows.map Prod.fst))).1 =
      (rows.filterMap (keptRow "stk_cd")).map Prod.fst := by
  refine sifted_rows (fun row hrow code hcode => ?_) h.others
  obtain ⟨hascii, hrequested, hformed⟩ := h.named row hrow code hcode
  obtain ⟨fields, hfields, hverdict⟩ := hformed.kept hlaw hascii hrequested
  rw [hverdict, hfields]
  rfl

theorem NamedRows.clocks (h : NamedRows WellFormedItem sanitizeRealItem rows) :
    ∀ item ∈ (rows.filterMap (keptRow "item")).map Prod.fst,
      WritesClock ((item.getOr "values").getOr "20") := by
  intro item hitem
  obtain ⟨kept, hmem, rfl⟩ := List.mem_map.mp hitem
  obtain ⟨row, -, hformed, hrow⟩ := h.of_mem hmem
  obtain ⟨fields, rfl⟩ := hformed.fields
  rw [hrow, codedRow, getOr_withCode_of_ne _ _ (by decide)]
  exact hformed.clock

end

/-- A realtime message with well-formed items is put into an envelope that gives one event of its
stock for every one of them. -/
theorem handleRealMessage_observed (hlaw : LawfulTable)
    (hdigest : ∀ text, (hexdigest text).toList.length = 64) (hcentral : receivedAt.date.Central)
    (s : LiveSession) {payload : JsonValue.Fields}
    (htrnm : upperPoints (textOrEmpty ((JsonValue.obj payload).getOr "trnm")) = "REAL")
    (hdata : (JsonValue.obj payload).getOr "data" = .arr (rows.map Prod.fst))
    (hrows : NamedRows WellFormedItem sanitizeRealItem rows) :
    ∃ envelope events, (s.handleRealMessage payload receivedAt).1 = .ok () ∧
      (s.handleRealMessage payload receivedAt).2.queue = s.queue ++ [envelope] ∧
      normalize envelope = .ok events ∧
      events.map (fun event => event.stockId) =
        (rows.filterMap Prod.snd).map fun code => "KRX:" ++ code := by
  have hkept := hrows.keptItems hlaw
  have hclocks := hrows.clocks
  have hne := hrows.kept_ne_nil "item"
  have hobjects := sanitizeRealItems_objects (.arr (rows.map Prod.fst))
  rw [hkept] at hobjects
  obtain ⟨items, hitems⟩ : ∃ items, items = (rows.filterMap (keptRow "item")).map Prod.fst :=
    ⟨_, rfl⟩
  rw [← hitems] at hkept hclocks hne hobjects
  obtain ⟨counted, hcounted⟩ : ∃ counted : LiveSession, counted = { s with droppedItems :=
      s.droppedItems + (sanitizeRealItems (.arr (rows.map Prod.fst))).2 } := ⟨_, rfl⟩
  have hhandled : s.handleRealMessage payload receivedAt =
      counted.enqueue (withField payload "data" (.arr items)) receivedAt := by
    unfold LiveSession.handleRealMessage
    dsimp only
    rw [hdata, hkept, if_neg hne, hcounted]
  obtain ⟨sourceTimestamp, hclock, hok, hqueue⟩ :=
    enqueue_ok counted (getOr_withField_self payload "data" (.arr items)) hclocks hcentral
  obtain ⟨utc, hutc⟩ := firstSourceClock_utc hclock hcentral
  obtain ⟨envelope, henvelope⟩ :
      ∃ envelope, envelope = counted.realtimeEnvelope (counted.sequence + 1)
    (withField payload "data" (.arr items)) sourceTimestamp receivedAt := ⟨_, rfl⟩
  rw [← henvelope] at hqueue
  have hpayload : envelope.payload = withField payload "data" (.arr items) := by rw [henvelope]; rfl
  have hstamp : envelope.sourceTimestamp = sourceTimestamp := by rw [henvelope]; rfl
  rw [← hstamp] at hutc
  have hloop : ∃ outcomes,
      (items.zipIdx.mapM fun (item, index) => realtimeEvent envelope item index) = .ok outcomes ∧
      outcomes.map (Option.map fun event => event.stockId) =
        ((rows.filterMap (keptRow "item")).map Prod.snd).map fun code => some ("KRX:" ++ code) := by
    rw [hitems]
    refine mapM_rows fun kept hmem index => ?_
    obtain ⟨row, hascii, hformed, hrow⟩ := hrows.of_mem hmem
    obtain ⟨fields, rfl⟩ := hformed.fields
    obtain ⟨event, hevent, hstock⟩ := hformed.event hlaw hdigest hutc hascii index
    rw [hrow]
    exact ⟨some event, hevent, congrArg some hstock⟩
  obtain ⟨outcomes, houtcomes, hstocks⟩ := hloop
  rw [codes_keptRow] at hstocks
  refine ⟨envelope, outcomes.reduceOption, ?_, ?_, ?_, ?_⟩
  · rw [hhandled, hok]
  · rw [hhandled, hqueue, hcounted]
  · have hnormalize : normalize envelope = normalizeWebsocket envelope := by
      unfold normalize
      rw [henvelope]
      exact if_neg (not_not.mpr rfl)
    rw [hnormalize, normalizeWebsocket_real htrnm hobjects hpayload, houtcomes, ok_bind_apply]
  · rw [← List.reduceOption_map, hstocks, List.reduceOption, List.filterMap_map]
    exact congrFun List.filterMap_eq_map _

/-- A snapshot with well-formed rows of requested stocks is put into an envelope that gives one
event of its stock for every one of them. -/
theorem handleSnapshot_observed (hlaw : LawfulTable)
    (hdigest : ∀ text, (hexdigest text).toList.length = 64) (hcentral : receivedAt.date.Central)
    (s : LiveSession) {payload : JsonValue.Fields} {requestedCodes : List String}
    (hdata : (JsonValue.obj payload).getOr "atn_stk_infr" = .arr (rows.map Prod.fst))
    (hrows : NamedRows (fun code row => code ∈ requestedCodes ∧ WellFormedRow code row)
      (sanitizeSnapshotRow requestedCodes) rows) :
    ∃ envelope events, (s.handleSnapshot requestedCodes payload receivedAt).1 = .ok
      (some envelope) ∧ normalize envelope = .ok events ∧
      events.map (fun event => event.stockId) =
        (rows.filterMap Prod.snd).map fun code => "KRX:" ++ code := by
  have hkept := hrows.keptSnapshotRows hlaw
  have hne := hrows.kept_ne_nil "stk_cd"
  have hobjects := sanitizeSnapshotRows_objects requestedCodes (.arr (rows.map Prod.fst))
  rw [hkept] at hobjects
  obtain ⟨kepts, hkepts⟩ : ∃ kepts, kepts = (rows.filterMap (keptRow "stk_cd")).map Prod.fst :=
    ⟨_, rfl⟩
  rw [← hkepts] at hkept hne hobjects
  obtain ⟨counted, hcounted⟩ : ∃ counted : LiveSession, counted = { s with droppedItems :=
      s.droppedItems + (sanitizeSnapshotRows requestedCodes (.arr (rows.map Prod.fst))).2 } := ⟨_,
      rfl⟩
  obtain ⟨envelope, henvelope⟩ : ∃ envelope,
    envelope = counted.snapshotEnvelope (counted.sequence + 1) kepts receivedAt := ⟨_, rfl⟩
  obtain ⟨received, hreceived⟩ :=
    Datetime.astimezone_ok hcentral (show KST.natAbs < dayMicros by decide)
  obtain ⟨hfirst, hlast⟩ := hcentral.toOrdinal
  obtain ⟨utc, hutc⟩ := receivedAt.astimezoneUtc_ok (by omega) (by omega)
  have hstamp : envelope.sourceTimestamp = receivedAt := by rw [henvelope]; rfl
  rw [← hstamp] at hutc
  have hpayload : envelope.payload = LiveSession.snapshotPayload kepts := by
    rw [henvelope]
    rfl
  have hloop : ∃ events,
      (kepts.zipIdx.mapM fun (row, index) => snapshotEvent envelope row index) = .ok events ∧
      events.map (fun event => event.stockId) =
        ((rows.filterMap (keptRow "stk_cd")).map Prod.snd).map fun code => "KRX:" ++ code := by
    rw [hkepts]
    refine mapM_rows fun kept hmem index => ?_
    obtain ⟨row, hascii, hformed, hrow⟩ := hrows.of_mem hmem
    obtain ⟨fields, rfl⟩ := hformed.2.fields
    rw [hrow]
    exact hformed.2.event hlaw hdigest hutc hascii index
  obtain ⟨events, hevents, hstocks⟩ := hloop
  rw [codes_keptRow] at hstocks
  refine ⟨envelope, events, ?_, ?_, hstocks⟩
  · unfold LiveSession.handleSnapshot
    dsimp only
    rw [hdata, hkept, if_neg hne, hreceived, henvelope, hcounted]
  · have hnormalize : normalize envelope = normalizeSnapshot envelope := by
      unfold normalize
      rw [henvelope]
      exact if_neg (not_not.mpr rfl)
    rw [hnormalize, normalizeSnapshot_rows hobjects hpayload, hevents]

omit [Sha256] in
theorem handleMessage_real (adapter : LiveKiwoomAdapter) (s : LiveSession)
    {payload : JsonValue.Fields}
    (htrnm : upperPoints (textOrEmpty ((JsonValue.obj payload).getOr "trnm")) = "REAL") (now : ℚ)
    (heardAt receivedAt : Datetime) (send : JsonValue → Except Error Unit) :
    adapter.handleMessage s payload now heardAt receivedAt send =
      LiveSession.handleRealMessage { s with lastMessageAt := some heardAt } payload
      receivedAt := by
  unfold LiveKiwoomAdapter.handleMessage
  dsimp only
  rw [htrnm, if_neg (by decide), if_pos rfl]

/-- A stock whose code has six digits of ASCII is observed: its well-formed items and rows, in which
the code may have a mark of the feed, are kept and give one event of the stock each. -/
theorem observed_live (hlaw : LawfulTable)
    (hdigest : ∀ text, (hexdigest text).toList.length = 64) (s : LiveSession)
    (payload : JsonValue.Fields) (receivedAt : Datetime) (hcentral : receivedAt.date.Central)
    (rows : List (JsonValue × Option String)) :
    (∀ (adapter : LiveKiwoomAdapter) (now : ℚ) (heardAt : Datetime)
      (send : JsonValue → Except Error Unit),
      upperPoints (textOrEmpty ((JsonValue.obj payload).getOr "trnm")) = "REAL" →
      (JsonValue.obj payload).getOr "data" = .arr (rows.map Prod.fst) →
      NamedRows WellFormedItem sanitizeRealItem rows →
        ∃ envelope events, (adapter.handleMessage s payload now heardAt receivedAt send).1 =
        .ok () ∧
          (adapter.handleMessage s payload now heardAt receivedAt send).2.queue = s.queue ++
          [envelope] ∧ normalize envelope = .ok events ∧
          events.map (fun event => event.stockId) =
            (rows.filterMap Prod.snd).map fun code => "KRX:" ++ code) ∧
    ∀ requestedCodes : List String,
      (JsonValue.obj payload).getOr "atn_stk_infr" = .arr (rows.map Prod.fst) →
      NamedRows (fun code row => code ∈ requestedCodes ∧ WellFormedRow code row)
        (sanitizeSnapshotRow requestedCodes) rows →
        ∃ envelope events,
          (s.handleSnapshot requestedCodes payload receivedAt).1 = .ok (some envelope) ∧
          normalize envelope = .ok events ∧
          events.map (fun event => event.stockId) =
            (rows.filterMap Prod.snd).map fun code => "KRX:" ++ code := by
  constructor
  · intro adapter now heardAt send htrnm hdata hrows
    rw [handleMessage_real adapter s htrnm]
    exact handleRealMessage_observed hlaw hdigest hcentral _ htrnm hdata hrows
  · intro requestedCodes hdata hrows
    exact handleSnapshot_observed hlaw hdigest hcentral s hdata hrows

end

/-- The values of a trade: its time, price and volume. -/
def tradeValues : JsonValue :=
  .obj [("20", .str "090000"), ("10", .str "-71500"), ("15", .str "+20")]

/-- A trade of a stock. -/
def tradeItem (code : String) : JsonValue :=
  .obj [("type", .str "0B"), ("item", .str code), ("values", tradeValues)]

/-- A message with a trade of a stock. -/
def tradePayload (code : String) : JsonValue.Fields :=
  [("trnm", .str "REAL"), ("data", .arr [tradeItem code])]

/-- A row of a snapshot: a stock and its price. -/
def snapshotRow (code : String) : JsonValue :=
  .obj [("stk_cd", .str code), ("cur_prc", .str "-71500")]

/-- The digests of the trade and the row of a stock, and of what identifies them. -/
@[reducible] def observedSha256 : Sha256 where
  hexdigest text :=
    if text = "\x7b\"item\":\"005930\",\"type\":\"0B\"," ++
        "\"values\":\x7b\"10\":\"-71500\",\"15\":\"+20\",\"20\":\"090000\"\x7d\x7d" then
      "ab5e761b5cfe042f07ef596ba83b9fe4b9d7ecd71ddb90071881cd3ad3725684"
    else if text = "\x7b\"cur_prc\":\"-71500\",\"stk_cd\":\"005930\"\x7d" then
      "e34ce25d79f1cbe2c9db67dc770c5f633795c6d99308b53864c7f903d89ea9b7"
    else if text = "\x7b\"sessionId\":\"live\",\"sourceItemIndex\":0,\"sourceSequence\":1," ++
        "\"sourceTimestamp\":\"2026-08-14T00:00:00+00:00\"," ++
        "\"stockId\":\"KRX:005930\",\"type\":\"market.trade\"\x7d" then
      "b4bc15330247ca6e1a0bcda300ee96198b0a1cb384d098bd8c5caa96ed14158d"
    else "e8dda03faa7f51dacb5d50b7d68eee23f0afe32cc50540927b65df3bcc4817f8"

theorem writesNumber_price [JsonValue.Printer] : WritesNumber (.str (codePoints "-71500")) := by
  have hwritten : writtenNumber (.str (codePoints "-71500")) = .ok (some ⟨true, 71500, 0⟩) := by
    unfold writtenNumber numberPoints
    rw [textOrEmpty_str]
    decide +kernel
  refine ⟨_, hwritten, ?_⟩
  rintro _ ⟨⟩
  have hlarge : (10 : ℚ) ^ (5 : ℤ) ≤ 10 ^ Decimal.eMax :=
    zpow_le_zpow_right₀ (by norm_num) (by decide)
  refine le_trans ?_ hlarge
  rw [Decimal.abs_value]
  norm_num

theorem writesCount_volume [JsonValue.Printer] : WritesCount (.str (codePoints "+20")) := by
  have hwritten : writtenNumber (.str (codePoints "+20")) = .ok (some ⟨false, 20, 0⟩) := by
    unfold writtenNumber numberPoints
    rw [textOrEmpty_str]
    decide +kernel
  refine ⟨_, hwritten, ?_⟩
  rintro _ ⟨⟩
  have hlarge : (10 : ℚ) ^ (2 : ℤ) ≤ 10 ^ Decimal.eMax :=
    zpow_le_zpow_right₀ (by norm_num) (by decide)
  refine ⟨le_trans ?_ hlarge, den_eq_one_iff.mpr ⟨20, ?_⟩⟩
  · rw [Decimal.abs_value]
    norm_num
  · rw [Decimal.value_mk]
    norm_num

theorem writesNumber_missing [JsonValue.Printer] : WritesNumber .null := ⟨none, rfl, nofun⟩

theorem writesCount_missing [JsonValue.Printer] : WritesCount .null := ⟨none, rfl, nofun⟩

theorem tradeValues_tradeItem [JsonValue.Printer] (code : String) :
    TradeValues ((tradeItem code).getOr "values") := by
  have hnumbers : ∀ key ∈ ["10", "12", "11", "14", "16", "17", "18", "228", "311"],
      ((tradeItem code).getOr "values").getOr key ∈ [.str (codePoints "-71500"), .null] := by
    show ∀ key ∈ _, tradeValues.getOr key ∈ _
    decide
  have hcounts : ∀ key ∈ ["15", "13"],
      ((tradeItem code).getOr "values").getOr key ∈ [.str (codePoints "+20"), .null] := by
    show ∀ key ∈ _, tradeValues.getOr key ∈ _
    decide
  refine ⟨fun key hkey => ?_, fun key hkey => ?_⟩
  · have hvalue := hnumbers key hkey
    rw [List.mem_cons, List.mem_singleton] at hvalue
    rcases hvalue with hvalue | hvalue
    · rw [hvalue]
      exact writesNumber_price
    · rw [hvalue]
      exact writesNumber_missing
  · have hvalue := hcounts key hkey
    rw [List.mem_cons, List.mem_singleton] at hvalue
    rcases hvalue with hvalue | hvalue
    · rw [hvalue]
      exact writesCount_volume
    · rw [hvalue]
      exact writesCount_missing

theorem rowValues_snapshotRow [JsonValue.Printer] (code : String) :
    RowValues (snapshotRow code) := by
  have hnumbers :
      ∀ key ∈ ["cur_prc", "flu_rt", "base_pric", "pred_pre", "acc_trde_prica", "open_pric",
      "high_pric", "low_pric", "cntr_str", "mac"],
      (snapshotRow code).getOr key = .str (codePoints "-71500") ∨
        (snapshotRow code).getOr key = .null := by
    simp only [List.forall_mem_cons]
    exact ⟨.inl rfl, .inr rfl, .inr rfl, .inr rfl, .inr rfl, .inr rfl, .inr rfl, .inr rfl, .inr rfl,
      .inr rfl, nofun⟩
  have hcounts : ∀ key ∈ ["trde_qty", "acc_trde_qty"], (snapshotRow code).getOr key = .null := by
    simp only [List.forall_mem_cons]
    exact ⟨rfl, rfl, nofun⟩
  refine ⟨fun key hkey => ?_, fun key hkey => ?_⟩
  · rcases hnumbers key hkey with hvalue | hvalue
    · rw [hvalue]
      exact writesNumber_price
    · rw [hvalue]
      exact writesNumber_missing
  · rw [hcounts key hkey]
    exact writesCount_missing

/-- A trade and a snapshot row are observed under the id of their stock. -/
theorem observed_live_trade :
    letI := JsonValue.Printer.plain
    letI : UnicodeTable := decimalTable
    letI : Sha256 := observedSha256
    (∃ envelope events, (LiveKiwoomAdapter.handleMessage {} { sessionId := "live" }
        (tradePayload "A005930") 0 fridayMorning fridayMorning fun _ => .ok ()).2.queue =
          LiveSession.queue { sessionId := "live" } ++ [envelope] ∧
      normalize envelope = .ok events ∧ events.map (fun event => event.stockId) = ["KRX:005930"]) ∧
    ∃ envelope events, (LiveSession.handleSnapshot { sessionId := "live" } ["005930"]
        [("atn_stk_infr", .arr [snapshotRow "005930_AL"])] fridayMorning).1 = .ok (some envelope) ∧
      normalize envelope = .ok events ∧ events.map (fun event => event.stockId) =
      ["KRX:005930"] := by
  let _ := JsonValue.Printer.plain
  let _ := decimalTable
  let _ := observedSha256
  have hascii : AsciiCode "005930" := by
    unfold AsciiCode
    decide
  have hdigest : ∀ text, (hexdigest text).toList.length = 64 := by
    intro text
    unfold hexdigest
    show (if _ then _ else if _ then _ else if _ then _ else _ : String).toList.length = 64
    split_ifs <;> decide
  have hcentral : fridayMorning.date.Central := ⟨by decide, by decide⟩
  have hitem :
      NamedRows WellFormedItem sanitizeRealItem [(tradeItem "A005930", some "005930")] := by
    refine ⟨fun row hrow code hcode => ?_, fun row hrow hnone => ?_, ⟨_, List.mem_cons_self, nofun⟩⟩
    · obtain rfl := List.mem_singleton.mp hrow
      cases hcode
      refine ⟨hascii, ⟨_, rfl⟩, ⟨_, rfl⟩, ⟨"A005930", by decide, rfl⟩, ?_,
        .inl ⟨by decide +kernel, tradeValues_tradeItem "A005930"⟩, by decide +kernel⟩
      unfold WritesClock
      decide +kernel
    · obtain rfl := List.mem_singleton.mp hrow
      cases hnone
  have hrow : NamedRows (fun code row => code ∈ ["005930"] ∧ WellFormedRow code row)
      (sanitizeSnapshotRow ["005930"]) [(snapshotRow "005930_AL", some "005930")] := by
    refine ⟨fun row hrow code hcode => ?_, fun row hrow hnone => ?_, ⟨_, List.mem_cons_self, nofun⟩⟩
    · obtain rfl := List.mem_singleton.mp hrow
      cases hcode
      exact ⟨hascii, List.mem_cons_self, ⟨_, rfl⟩, ⟨"005930_AL", by decide, rfl⟩,
        rowValues_snapshotRow _, by decide +kernel⟩
    · obtain rfl := List.mem_singleton.mp hrow
      cases hnone
  constructor
  · obtain ⟨envelope, events, -, hqueue, hnormalize, hstocks⟩ :=
      (@observed_live .plain decimalTable observedSha256 lawfulTable_decimal hdigest
        { sessionId := "live" } (tradePayload "A005930") fridayMorning hcentral _).1
        {} 0 fridayMorning (fun _ => .ok ()) (by decide +kernel) rfl hitem
    exact ⟨envelope, events, hqueue, hnormalize, hstocks.trans (by decide)⟩
  · obtain ⟨envelope, events, hsnapshot, hnormalize, hstocks⟩ :=
      (@observed_live .plain decimalTable observedSha256 lawfulTable_decimal hdigest
        { sessionId := "live" } [("atn_stk_infr", .arr [snapshotRow "005930_AL"])] fridayMorning
        hcentral _).2 ["005930"] rfl hrow
    exact ⟨envelope, events, hsnapshot, hnormalize, hstocks.trans (by decide)⟩

/-- A stock whose code has a letter can be subscribed, but its trades are dropped, and so are those
of a stock whose code has two marks of the feed. -/
theorem not_observed_live_letters :
    letI := JsonValue.Printer.plain
    letI : UnicodeTable := decimalTable
    requireStockId "KRX:0004V0" = .ok () ∧ TradeValues ((tradeItem "0004V0").getOr "values") ∧
      sanitizeRealItem (tradeItem "0004V0") = .dropped ∧
      requireStockId "KRX:005930" = .ok () ∧ TradeValues ((tradeItem "A005930_AL").getOr "values") ∧
      sanitizeRealItem (tradeItem "A005930_AL") = .dropped := by
  let _ := JsonValue.Printer.plain
  let _ := decimalTable
  exact ⟨by decide, tradeValues_tradeItem _, by decide +kernel, by decide, tradeValues_tradeItem _,
    by decide +kernel⟩

end Dayjaview.Kiwoom
