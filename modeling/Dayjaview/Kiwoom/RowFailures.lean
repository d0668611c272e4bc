import Dayjaview.Core.DecimalOverflow
import Dayjaview.Kiwoom.Live

/-!
# Why a row gives no event

A row of a message is refused with a normalization error, or another error escapes. Which of them
happens is read off its values in the order in which the normalizer takes them: a malformed number
is refused, a number that rounds to one above the largest escapes, and so do, at the end, a code
with digits outside ASCII and a row that has no digest.
-/

namespace Dayjaview.Kiwoom

inductive RowFailure where
  /-- A normalization error refuses it. -/
  | refused
  | escaped
  deriving DecidableEq

def RowFailure.ofError (e : Error) : RowFailure :=
  if e.kind = .normalizationError then .refused else .escaped

variable [JsonValue.Printer]

/-- The number that a value writes, if it is not empty. -/
def writtenNumber (value : JsonValue) : Except RowFailure (Option Decimal) :=
  if numberPoints value = [] then .ok none
  else
    match decimalLiteral (numberPoints value) with
    | some (.finite d) => if isExact d then .ok (some d) else .error .refused
    | _ => .error .refused

section

omit [JsonValue.Printer]

/-- A number rounds to one above the largest. -/
def TooLarge (x : ℚ) : Prop := 10 ^ (Decimal.eMax + 1) ≤ |Decimal.roundedTo Decimal.defaultPrec x|

instance (x : ℚ) : Decidable (TooLarge x) := inferInstanceAs (Decidable (_ ≤ _))

/-- The magnitude of a number after rounding. -/
def magnitude (d : Decimal) : ℚ := Decimal.roundedTo Decimal.defaultPrec |d.value|

end

def numberFailure (value : JsonValue) (absolute : Bool) : Option RowFailure :=
  match writtenNumber value with
  | .error failure => some failure
  | .ok none => none
  | .ok (some d) => if absolute = true ∧ TooLarge d.value then some .escaped else none

def integerFailure (value : JsonValue) : Option RowFailure :=
  match writtenNumber value with
  | .error failure => some failure
  | .ok none => none
  | .ok (some d) =>
    if TooLarge d.value then some .escaped
    else if (magnitude d).den ≠ 1 then some .refused else none

/-- Why a price and its change give no reference price. -/
def baseFailure (price change : JsonValue) : Option RowFailure :=
  match writtenNumber price, writtenNumber change with
  | .ok (some p), .ok (some c) => if TooLarge (magnitude p - c.value) then some .escaped else none
  | _, _ => none

omit [JsonValue.Printer] in
/-- Why a code is none of the contract. -/
def codeFailure (code : String) : Option RowFailure :=
  if isStockCode code.toList = true then none else some .escaped

/-- Why a condition names no event: a lone surrogate stands in it. -/
def conditionFailure (conditionId : List CodePoint) : Option RowFailure :=
  if conditionId.any CodePoint.isSurrogate then some .escaped else none

/-- Why the data of an event do not name it. -/
def EventData.nameFailure : EventData → Option RowFailure
  | .candidate data => conditionFailure data.conditionId
  | .observation _ => none

/-- Why a row has no digest: it cannot be written, or a lone surrogate stands in it. -/
def digestFailure (row : JsonValue) : Option RowFailure :=
  if row.Encodable then none else some .escaped

section

omit [JsonValue.Printer]

theorem defaultPrec_pos : 0 < Decimal.defaultPrec := by decide

@[simp] theorem ofError_normalizationError (message : String) :
    RowFailure.ofError (normalizationError message) = .refused := rfl

@[simp] theorem ofError_overflow : RowFailure.ofError (Decimal.signal "Overflow") = .escaped := rfl

end

theorem decimal_eq (value : JsonValue) (absolute : Bool) :
    (∃ message, writtenNumber value = .error .refused ∧
      decimal value absolute = .error (normalizationError message)) ∨
    (writtenNumber value = .ok none ∧ decimal value absolute = .ok none) ∨
    ∃ d, writtenNumber value = .ok (some d) ∧ decimal value absolute =
      if absolute then
          (Decimal.finish .halfEven Decimal.defaultPrec { d with negative := false }) >>=
        fun m => .ok (some m) else .ok (some d) := by
  unfold writtenNumber decimal
  dsimp only
  split
  · exact .inr (.inl ⟨rfl, rfl⟩)
  · cases decimalLiteral (numberPoints value) with
    | none => exact .inl ⟨_, rfl, rfl⟩
    | some literal =>
      cases literal with
      | special => exact .inl ⟨_, rfl, rfl⟩
      | finite d =>
        dsimp only
        cases hexact : isExact d with
        | false => exact .inl ⟨_, rfl, rfl⟩
        | true =>
          refine .inr (.inr ⟨d, rfl, ?_⟩)
          cases absolute <;> rfl

section

omit [JsonValue.Printer]

theorem outcome_of_map_value {x : Except Error Decimal} {q : ℚ}
    (h : x.map Decimal.value = Decimal.roundedOr Decimal.defaultPrec q) :
    (TooLarge q ∧ x = .error (Decimal.signal "Overflow")) ∨
      (¬ TooLarge q ∧ ∃ m, x = .ok m ∧ m.value = Decimal.roundedTo Decimal.defaultPrec q) := by
  unfold Decimal.roundedOr at h
  split at h
  · next hlarge =>
    cases x with
    | ok m => cases h
    | error e => exact .inl ⟨hlarge, congrArg _ (Except.error.inj h)⟩
  · next hfits =>
    cases x with
    | ok m => exact .inr ⟨hfits, m, rfl, Except.ok.inj h⟩
    | error e => cases h

theorem finish_magnitude (d : Decimal) :
    (TooLarge d.value ∧ Decimal.finish .halfEven Decimal.defaultPrec { d with negative := false } =
        .error (Decimal.signal "Overflow")) ∨
      (¬ TooLarge d.value ∧ ∃ m : Decimal,
        Decimal.finish .halfEven Decimal.defaultPrec { d with negative := false } = .ok m ∧
          m.value = magnitude d) := by
  have habs : Decimal.value { d with negative := false } = |d.value| := by
    rw [Decimal.value_mk, Decimal.abs_value]
    simp
  have hlarge : TooLarge |d.value| ↔ TooLarge d.value := by
    unfold TooLarge
    rw [← Decimal.abs_roundedTo, abs_abs]
  have hvalue := Decimal.map_value_finish defaultPrec_pos { d with negative := false }
  rw [habs] at hvalue
  rw [← hlarge]
  exact outcome_of_map_value hvalue

theorem magnitude_nonneg (d : Decimal) : 0 ≤ magnitude d := by
  rw [magnitude, ← Decimal.abs_roundedTo]
  exact abs_nonneg _

end

theorem verdict_decimal (value : JsonValue) (absolute : Bool) :
    verdict RowFailure.ofError (decimal value absolute) = numberFailure value absolute := by
  unfold numberFailure
  rcases decimal_eq value absolute with ⟨_, hwritten, hread⟩ | ⟨hwritten, hread⟩ |
      ⟨d, hwritten, hread⟩
  · rw [hwritten, hread]
    rfl
  · rw [hwritten, hread]
    rfl
  · rw [hwritten, hread]
    cases absolute with
    | false => rfl
    | true =>
      rcases finish_magnitude d with ⟨hlarge, hfinish⟩ | ⟨hfits, m, hfinish, -⟩
      · rw [hfinish]
        simp only [hlarge, and_true]
        rfl
      · rw [hfinish]
        simp only [hfits, and_false]
        rfl

variable {number : Option Decimal}

theorem decimal_absolute {value : JsonValue} (h : decimal value true = .ok number) :
    (writtenNumber value = .ok none ∧ number = none) ∨
      ∃ d m, writtenNumber value = .ok (some d) ∧ ¬ TooLarge d.value ∧ number = some m ∧
        m.value = magnitude d := by
  rcases decimal_eq value true with ⟨_, hwritten, hread⟩ | ⟨hwritten, hread⟩ | ⟨d, hwritten, hread⟩
  · rw [hread] at h
    cases h
  · rw [hread] at h
    exact .inl ⟨hwritten, (Except.ok.inj h).symm⟩
  · rw [hread] at h
    rcases finish_magnitude d with ⟨-, hfinish⟩ | ⟨hfits, m, hfinish, hvalue⟩
    · rw [hfinish] at h
      cases h
    · rw [hfinish] at h
      exact .inr ⟨d, m, hwritten, hfits, (Except.ok.inj h).symm, hvalue⟩

theorem decimal_signed {value : JsonValue} (h : decimal value false = .ok number) :
    writtenNumber value = .ok number := by
  rcases decimal_eq value false with ⟨_, hwritten, hread⟩ | ⟨hwritten, hread⟩ | ⟨d, hwritten, hread⟩
  · rw [hread] at h
    cases h
  · rw [hread] at h
    exact hwritten.trans (congrArg _ (Except.ok.inj h))
  · rw [hread, if_neg Bool.false_ne_true] at h
    exact hwritten.trans (congrArg _ (Except.ok.inj h))

section

omit [JsonValue.Printer]

theorem den_eq_one_iff {x : ℚ} : x.den = 1 ↔ ∃ n : ℤ, x = n := by
  constructor
  · exact fun h => ⟨x.num, (Rat.coe_int_num_of_den_eq_one h).symm⟩
  · rintro ⟨n, rfl⟩
    rfl

theorem toInteger_eq_none {d : Decimal} : toInteger d = none ↔ d.value.den ≠ 1 := by
  rw [ne_eq, den_eq_one_iff]
  unfold toInteger Decimal.value
  split
  · next hnonneg =>
    refine iff_of_false nofun (not_not.mpr ⟨d.signed * 10 ^ d.exponent.toNat, ?_⟩)
    obtain ⟨n, hn⟩ := Int.eq_ofNat_of_zero_le hnonneg
    rw [hn]
    push_cast
    simp
  · next hneg =>
    obtain ⟨n, hn⟩ : ∃ n : Nat, d.exponent = -n := ⟨(-d.exponent).toNat, by omega⟩
    have hsigned : d.signed.natAbs = d.coefficient := by
      unfold Decimal.signed
      split <;> simp
    have hpow : (10 : ℚ) ^ n ≠ 0 := by positivity
    have hwhole : (∃ k : ℤ, (d.signed : ℚ) * 10 ^ d.exponent = k) ↔
        d.coefficient % 10 ^ (-d.exponent).toNat = 0 := by
      rw [hn, neg_neg, Int.toNat_natCast, ← Nat.dvd_iff_mod_eq_zero, ← hsigned,
        ← Int.natCast_dvd, zpow_neg, zpow_natCast]
      push_cast
      constructor
      · rintro ⟨k, hk⟩
        refine ⟨k, ?_⟩
        rw [← div_eq_mul_inv, div_eq_iff hpow] at hk
        rw [mul_comm]
        exact_mod_cast hk
      · rintro ⟨k, hk⟩
        refine ⟨k, ?_⟩
        rw [hk]
        push_cast
        field_simp
    rw [hwhole]
    split
    · next hmod => exact iff_of_false nofun (not_not.mpr hmod)
    · next hmod => exact iff_of_true rfl hmod

end

theorem verdict_integer (value : JsonValue) :
    verdict RowFailure.ofError (integer value true) = integerFailure value := by
  unfold integerFailure integer
  rcases decimal_eq value true with ⟨_, hwritten, hread⟩ | ⟨hwritten, hread⟩ | ⟨d, hwritten, hread⟩
  · rw [hwritten, hread]
    rfl
  · rw [hwritten, hread]
    rfl
  · rw [hwritten, hread, if_pos rfl]
    dsimp only
    rcases finish_magnitude d with ⟨hlarge, hfinish⟩ | ⟨hfits, m, hfinish, hvalue⟩
    · rw [hfinish, if_pos hlarge]
      rfl
    · rw [hfinish, if_neg hfits, ← hvalue]
      dsimp only [bind, Except.bind]
      cases hinteger : toInteger m with
      | none => rw [if_pos (toInteger_eq_none.mp hinteger)]; rfl
      | some n =>
        rw [if_neg fun hden => ?_]
        · rfl
        · rw [toInteger_eq_none.mpr hden] at hinteger
          cases hinteger

theorem integer_nonneg {value : JsonValue} {count : Option Int}
    (h : integer value true = .ok count) : ∀ n ∈ count, 0 ≤ n := by
  unfold integer at h
  obtain ⟨number, hnumber, h⟩ := bind_eq_ok.mp h
  rcases decimal_absolute hnumber with ⟨-, rfl⟩ | ⟨d, m, -, -, rfl, hvalue⟩
  · cases h
    nofun
  · have hnonneg : 0 ≤ m.signed := by
      have hm : 0 ≤ m.value := hvalue ▸ magnitude_nonneg d
      unfold Decimal.value at hm
      have hpow : (0 : ℚ) < 10 ^ m.exponent := by positivity
      exact_mod_cast (mul_nonneg_iff_of_pos_right hpow).mp hm
    dsimp only at h
    cases hinteger : toInteger m with
    | none =>
      rw [hinteger] at h
      cases h
    | some n =>
      rw [hinteger] at h
      cases h
      rintro _ ⟨⟩
      unfold toInteger at hinteger
      split at hinteger
      · cases hinteger
        positivity
      · split at hinteger
        · cases hinteger
          positivity
        · cases hinteger

theorem verdict_basePriceOf {price change : JsonValue}
    {currentPrice changeFromPrevious : Option Decimal}
    (hprice : decimal price true = .ok currentPrice)
    (hchange : decimal change false = .ok changeFromPrevious) :
    verdict RowFailure.ofError (basePriceOf currentPrice changeFromPrevious) =
      baseFailure price change := by
  unfold baseFailure
  rw [decimal_signed hchange]
  rcases decimal_absolute hprice with ⟨hwritten, rfl⟩ | ⟨p, m, hwritten, -, rfl, hvalue⟩
  · rw [hwritten]
    rfl
  · rw [hwritten]
    cases changeFromPrevious with
    | none => rfl
    | some c =>
      have hsub := Decimal.map_value_sub defaultPrec_pos m c
      rw [hvalue] at hsub
      unfold basePriceOf
      dsimp only
      rcases outcome_of_map_value hsub with ⟨hlarge, hout⟩ | ⟨hfits, base, hout, -⟩
      · rw [hout, if_pos hlarge]
        rfl
      · rw [hout, if_neg hfits]
        rfl

omit [JsonValue.Printer] in
theorem basePriceOf_nonneg {currentPrice changeFromPrevious base : Option Decimal}
    (h : basePriceOf currentPrice changeFromPrevious = .ok base) :
    ∀ b ∈ base, Decimal.zero ≤ b := by
  unfold basePriceOf at h
  split at h
  · obtain ⟨difference, -, hbase⟩ := bind_eq_ok.mp h
    cases hbase
    intro b hb
    split at hb
    · next hpos =>
      cases hb
      exact Decimal.le_iff_value.mpr (Decimal.lt_iff_value.mp hpos).le
    · cases hb
  · cases h
    nofun

theorem decimal_nonneg {value : JsonValue} (h : decimal value true = .ok number) :
    ∀ m ∈ number, Decimal.zero ≤ m := by
  rcases decimal_absolute h with ⟨-, rfl⟩ | ⟨d, m, -, -, rfl, hvalue⟩
  · nofun
  · rintro _ ⟨⟩
    rw [Decimal.le_iff_value, Decimal.value_zero, hvalue]
    exact magnitude_nonneg d

section

omit [JsonValue.Printer]

/-- The numbers of an observation are not negative. -/
structure NotNegative (o : MarketObservation.Fields) : Prop where
  currentPrice : ∀ v ∈ o.currentPrice, Decimal.zero ≤ v
  basePrice : ∀ v ∈ o.basePrice, Decimal.zero ≤ v
  cumulativeTradingValue : ∀ v ∈ o.cumulativeTradingValue, Decimal.zero ≤ v
  openPrice : ∀ v ∈ o.openPrice, Decimal.zero ≤ v
  highPrice : ∀ v ∈ o.highPrice, Decimal.zero ≤ v
  lowPrice : ∀ v ∈ o.lowPrice, Decimal.zero ≤ v
  marketCap : ∀ v ∈ o.marketCap, Decimal.zero ≤ v
  tradeVolume : ∀ n ∈ o.tradeVolume, 0 ≤ n
  cumulativeVolume : ∀ n ∈ o.cumulativeVolume, 0 ≤ n

theorem observationOf_ok {o : MarketObservation.Fields} (h : NotNegative o)
    (hcode : isStockCode o.sourceStockCode.toList = true) : ∃ data, observationOf o = .ok data := by
  unfold observationOf MarketObservation.make
  refine ⟨_, checked_of_ok ?_⟩
  have hmissing : ∀ a b : Bool,
      sortedTuple ((if a then ["cumulativeTradingValue"] else []) ++ if b then
        ["currentPrice"] else []) =
        (if a then ["cumulativeTradingValue"] else []) ++ if b then ["currentPrice"] else [] := by
    decide
  simp only [MarketObservation.Fields.postInit, requireSourceStockCode, requireNotNegative,
    requireNotNegativeCount, check_bind_eq_ok, ensure_eq_ok]
  exact ⟨hcode, h.currentPrice, h.basePrice, h.cumulativeTradingValue, h.openPrice, h.highPrice,
    h.lowPrice, h.marketCap, h.tradeVolume, h.cumulativeVolume, hmissing _ _⟩

theorem observationOf_error {o : MarketObservation.Fields}
    (hcode : isStockCode o.sourceStockCode.toList = false) :
    observationOf o = .error ⟨.valueError, "source_stock_code는 6자리 종목코드여야 합니다"⟩ := by
  unfold observationOf MarketObservation.make
  refine checked_of_error ?_
  simp only [MarketObservation.Fields.postInit, requireSourceStockCode, ensure, hcode,
    Bool.false_eq_true, if_false]
  rfl

theorem isStockId_append {code : String} (h : isStockCode code.toList = true) :
    isStockId ("KRX:" ++ code) = true := by
  unfold isStockId
  rw [String.toList_append]
  simpa using h

theorem verdict_conditionKey (data : EventData) :
    verdict RowFailure.ofError (conditionKey data) = data.nameFailure := by
  cases data with
  | observation o => rfl
  | candidate data =>
    unfold conditionKey EventData.nameFailure conditionFailure
    dsimp only
    cases hname : encodable data.conditionId with
    | ok id =>
      have hpaired := any_isSurrogate_eq_false.mpr ⟨id, encodable_eq_ok.mp hname⟩
      rw [hpaired]
      rfl
    | error e =>
      have hlone : data.conditionId.any CodePoint.isSurrogate = true := by
        by_contra hpaired
        obtain ⟨id, hid⟩ := any_isSurrogate_eq_false.mp (Bool.eq_false_of_not_eq_true hpaired)
        rw [encodable_eq_ok.mpr hid] at hname
        cases hname
      rw [hlone, encodable_error hname]
      rfl

end

theorem verdict_digest [Sha256] (row : JsonValue) :
    verdict RowFailure.ofError row.digest = digestFailure row := by
  unfold digestFailure
  split
  · next hencodable =>
    obtain ⟨text, htext⟩ := hencodable.digest
    rw [htext]
    rfl
  · next hnot =>
    cases hdigest : row.digest with
    | ok text => exact absurd (JsonValue.encodable_of_digest hdigest) hnot
    | error e => rcases JsonValue.digest_error hdigest with rfl | rfl | rfl <;> rfl

/-- With a code of the contract, an event fails only where its digests do. -/
theorem verdict_makeEvent [Sha256] (hdigest : ∀ text, (hexdigest text).toList.length = 64)
    (envelope : KiwoomSourceEnvelope) {utc : Datetime}
    (hutc : envelope.sourceTimestamp.astimezoneUtc = .ok utc) (rawItem : JsonValue)
    (itemIndex : Nat) {eventType : CanonicalEventType} {code : String}
    (hcode : isStockCode code.toList = true) {data : EventData}
    (hdata : eventType.isCandidate = true ↔ data.observation? = none) :
    verdict RowFailure.ofError (makeEvent envelope rawItem itemIndex eventType code data) =
      firstFailure [digestFailure rawItem, data.nameFailure] := by
  unfold makeEvent
  refine verdict_bind (verdict_digest rawItem) fun rawHash hraw => ?_
  obtain ⟨text, htext⟩ := (JsonValue.encodable_of_digest hraw).digest
  obtain rfl : hexdigest text = rawHash := Except.ok.inj (htext.symm.trans hraw)
  rw [hutc, ok_bind_apply]
  refine verdict_bind (verdict_conditionKey data) fun condition _ => ?_
  have hlineage : (EventLineage.Fields.mk "KIWOOM" ADAPTER_VERSION envelope.sourceSchemaVersion
      envelope.channel envelope.sessionId envelope.sourceMessageId itemIndex envelope.requestId
      (hexdigest text)).postInit = .ok () := by
    simp only [EventLineage.Fields.postInit, check_bind_eq_ok, ensure_eq_ok]
    exact ⟨trivial, hdigest _⟩
  have hbegins : ∀ start rest : String,
      start.toList.isPrefixOf (start ++ rest).toList = true := by
    intro start rest
    rw [String.toList_append]
    exact List.isPrefixOf_iff_prefix.mpr (List.prefix_append _ _)
  obtain ⟨digest, hname⟩ : ∃ digest, digest = jsonDigest
      (naturalKey envelope itemIndex eventType code utc.isoformat condition) := ⟨_, rfl⟩
  have hevent : (CanonicalMarketEvent.Fields.mk CANONICAL_EVENT_SCHEMA_VERSION
      ("mkt_" ++ takeText 26 digest) ("kiwoom:" ++ digest) eventType ("KRX:" ++ code)
      envelope.sourceSequence envelope.sourceTimestamp envelope.receivedAt ⟨_, hlineage⟩
      data).postInit = .ok () := by
    simp only [CanonicalMarketEvent.Fields.postInit, requireStockId, check_bind_eq_ok,
      ensure_eq_ok]
    refine ⟨trivial, hbegins _ _, hbegins _ _, isStockId_append hcode, envelope.valid.2.2.2,
      hdata.mp, fun hobserved hnone => ?_⟩
    rw [hdata.mpr hnone] at hobserved
    cases hobserved
  refine verdict_eq_none.mpr ⟨⟨_, hevent⟩, ?_⟩
  dsimp only
  rw [show EventLineage.make _ = .ok ⟨_, hlineage⟩ from checked_of_ok hlineage, ok_bind_apply]
  subst hname
  exact checked_of_ok hevent

/-- What can go wrong with a trade, in order. -/
def tradeFailures (code : String) (item values : JsonValue) : List (Option RowFailure) :=
  [numberFailure (values.getOr "10") true, numberFailure (values.getOr "12") false,
    numberFailure (values.getOr "11") false, baseFailure (values.getOr "10") (values.getOr "11"),
    integerFailure (values.getOr "15"), integerFailure (values.getOr "13"),
    numberFailure (values.getOr "14") true, numberFailure (values.getOr "16") true,
    numberFailure (values.getOr "17") true, numberFailure (values.getOr "18") true,
    numberFailure (values.getOr "228") true, numberFailure (values.getOr "311") true,
    codeFailure code, digestFailure item]

/-- A row of a snapshot gives a reference price that does not round to zero. -/
def GivesBase (row : JsonValue) : Prop :=
  ∃ d, writtenNumber (row.getOr "base_pric") = .ok (some d) ∧ magnitude d ≠ 0

instance (row : JsonValue) : Decidable (GivesBase row) :=
  match h : writtenNumber (row.getOr "base_pric") with
  | .ok (some d) => decidable_of_iff (magnitude d ≠ 0) (by
      constructor
      · exact fun hd => ⟨d, h, hd⟩
      · rintro ⟨d', hd', hmagnitude⟩
        rw [h] at hd'
        cases hd'
        exact hmagnitude)
  | .ok none => .isFalse (by rintro ⟨d, hd, -⟩; rw [h] at hd; cases hd)
  | .error _ => .isFalse (by rintro ⟨d, hd, -⟩; rw [h] at hd; cases hd)

/-- What can go wrong with a row of a snapshot, in order. -/
def snapshotFailures (code : String) (row : JsonValue) : List (Option RowFailure) :=
  [numberFailure (row.getOr "cur_prc") true, numberFailure (row.getOr "flu_rt") false,
    numberFailure (row.getOr "base_pric") true] ++
  (if GivesBase row then []
  else [numberFailure (row.getOr "pred_pre") false,
    baseFailure (row.getOr "cur_prc") (row.getOr "pred_pre")]) ++
  [integerFailure (row.getOr "trde_qty"), integerFailure (row.getOr "acc_trde_qty"),
    numberFailure (row.getOr "acc_trde_prica") true, numberFailure (row.getOr "open_pric") true,
    numberFailure (row.getOr "high_pric") true, numberFailure (row.getOr "low_pric") true,
    numberFailure (row.getOr "cntr_str") true, numberFailure (row.getOr "mac") true,
    codeFailure code, digestFailure row]

section

variable [UnicodeTable] [Sha256] {envelope : KiwoomSourceEnvelope} {utc : Datetime} {code : String}

omit [UnicodeTable] in
theorem verdict_observation (hdigest : ∀ text, (hexdigest text).toList.length = 64)
    (hutc : envelope.sourceTimestamp.astimezoneUtc = .ok utc) {o : MarketObservation.Fields}
    (h : NotNegative o) (rawItem : JsonValue) (itemIndex : Nat) {eventType : CanonicalEventType}
    (htype : eventType.isCandidate = false) :
    verdict RowFailure.ofError (observationOf o >>= fun data =>
        makeEvent envelope rawItem itemIndex eventType o.sourceStockCode (.observation data)) =
      firstFailure [codeFailure o.sourceStockCode, digestFailure rawItem] := by
  unfold codeFailure
  cases hcode : isStockCode o.sourceStockCode.toList with
  | true =>
    obtain ⟨data, hdata⟩ := observationOf_ok h hcode
    have hkind : eventType.isCandidate = true ↔
        (EventData.observation data).observation? = none := by
      rw [htype]
      exact iff_of_false nofun nofun
    have hnamed : firstFailure [digestFailure rawItem, (EventData.observation data).nameFailure] =
        firstFailure [digestFailure rawItem] := by
      cases digestFailure rawItem <;> rfl
    rw [hdata, ok_bind_apply, if_pos rfl, firstFailure_none, ← hnamed]
    exact verdict_makeEvent hdigest envelope hutc rawItem itemIndex hcode hkind
  | false =>
    rw [observationOf_error hcode]
    rfl

omit [UnicodeTable] in
theorem verdict_quantities (hdigest : ∀ text, (hexdigest text).toList.length = 64)
    (hutc : envelope.sourceTimestamp.astimezoneUtc = .ok utc)
    {observationSource : ObservationSource}
    {eventType : CanonicalEventType} (htype : eventType.isCandidate = false) (rawItem : JsonValue)
    (itemIndex : Nat) {currentPrice basePrice : Option Decimal} (changeRate : Option Decimal)
    (hprice : ∀ v ∈ currentPrice, Decimal.zero ≤ v) (hbase : ∀ v ∈ basePrice, Decimal.zero ≤ v)
    (trade cumulative value first highest lowest strength cap : JsonValue) :
    verdict RowFailure.ofError (do
        let tradeVolume ← integer trade true
        let cumulativeVolume ← integer cumulative true
        let cumulativeTradingValue ← decimal value true
        let openPrice ← decimal first true
        let highPrice ← decimal highest true
        let lowPrice ← decimal lowest true
        let executionStrength ← decimal strength true
        let marketCap ← decimal cap true
        let data ← observationOf {
          observationSource, sourceStockCode := code, currentPrice, changeRate, basePrice
          tradeVolume, cumulativeVolume, cumulativeTradingValue, openPrice, highPrice, lowPrice
          executionStrength, marketCap, missingFields := [] }
        makeEvent envelope rawItem itemIndex eventType code (.observation data)) =
      firstFailure [integerFailure trade, integerFailure cumulative, numberFailure value true,
        numberFailure first true, numberFailure highest true, numberFailure lowest true,
        numberFailure strength true, numberFailure cap true, codeFailure code,
        digestFailure rawItem] := by
  refine verdict_bind (verdict_integer _) fun tradeVolume htrade => ?_
  refine verdict_bind (verdict_integer _) fun cumulativeVolume hcumulative => ?_
  refine verdict_bind (verdict_decimal _ _) fun cumulativeTradingValue hvalue => ?_
  refine verdict_bind (verdict_decimal _ _) fun openPrice hopen => ?_
  refine verdict_bind (verdict_decimal _ _) fun highPrice hhigh => ?_
  refine verdict_bind (verdict_decimal _ _) fun lowPrice hlow => ?_
  refine verdict_bind (verdict_decimal _ _) fun executionStrength _ => ?_
  refine verdict_bind (verdict_decimal _ _) fun marketCap hcap => ?_
  have hnonneg : NotNegative {
      observationSource, sourceStockCode := code, currentPrice, changeRate, basePrice, tradeVolume
      cumulativeVolume, cumulativeTradingValue, openPrice, highPrice, lowPrice, executionStrength
      marketCap, missingFields := [] } :=
    ⟨hprice, hbase, decimal_nonneg hvalue, decimal_nonneg hopen, decimal_nonneg hhigh,
      decimal_nonneg hlow, decimal_nonneg hcap, integer_nonneg htrade, integer_nonneg hcumulative⟩
  exact verdict_observation hdigest hutc hnonneg rawItem itemIndex htype

theorem verdict_tradeEvent (hdigest : ∀ text, (hexdigest text).toList.length = 64)
    (hutc : envelope.sourceTimestamp.astimezoneUtc = .ok utc) {item values : JsonValue}
    (hcode : stockCode (firstTrue [item.getOr "item", values.getOr "9001"]) = .ok code)
    (itemIndex : Nat) :
    verdict RowFailure.ofError (tradeEvent envelope item values itemIndex) =
      firstFailure (tradeFailures code item values) := by
  unfold tradeEvent
  rw [← firstFailure_none]
  refine verdict_bind (verdict_eq_none.mpr ⟨code, hcode⟩) fun code' hcode' => ?_
  obtain rfl : code = code' := Except.ok.inj (hcode.symm.trans hcode')
  refine verdict_bind (verdict_decimal _ _) fun currentPrice hprice => ?_
  refine verdict_bind (verdict_decimal _ _) fun changeRate _ => ?_
  refine verdict_bind (verdict_decimal _ _) fun change hchange => ?_
  refine verdict_bind (verdict_basePriceOf hprice hchange) fun basePrice hbase => ?_
  exact verdict_quantities hdigest hutc rfl item itemIndex changeRate (decimal_nonneg hprice)
    (basePriceOf_nonneg hbase) _ _ _ _ _ _ _ _

omit [UnicodeTable] [Sha256] in
theorem givesBase_iff {row : JsonValue} {given : Option Decimal}
    (h : decimal (row.getOr "base_pric") true = .ok given) :
    GivesBase row ↔ given.filter (fun d => d.coefficient != 0) ≠ none := by
  rcases decimal_absolute h with ⟨hwritten, rfl⟩ | ⟨d, m, hwritten, -, rfl, hvalue⟩
  · refine iff_of_false ?_ (not_not.mpr rfl)
    rintro ⟨d, hd, -⟩
    rw [hwritten] at hd
    cases hd
  · have hzero : m.coefficient = 0 ↔ magnitude d = 0 := by
      rw [← hvalue]
      exact Decimal.value_eq_zero.symm
    by_cases hm : m.coefficient = 0
    · refine iff_of_false ?_ (by simp [hm])
      rintro ⟨d', hd', hmagnitude⟩
      rw [hwritten] at hd'
      cases hd'
      exact hmagnitude (hzero.mp hm)
    · exact iff_of_true ⟨d, hwritten, fun hmagnitude => hm (hzero.mpr hmagnitude)⟩ (by simp [hm])

theorem verdict_snapshotEvent (hdigest : ∀ text, (hexdigest text).toList.length = 64)
    (hutc : envelope.sourceTimestamp.astimezoneUtc = .ok utc) {row : JsonValue}
    (hcode : stockCode (firstTrue [row.getOr "stk_cd", row.getOr "code"]) = .ok code)
    (itemIndex : Nat) :
    verdict RowFailure.ofError (snapshotEvent envelope row itemIndex) =
      firstFailure (snapshotFailures code row) := by
  unfold snapshotEvent
  rw [← firstFailure_none]
  refine verdict_bind (verdict_eq_none.mpr ⟨code, hcode⟩) fun code' hcode' => ?_
  obtain rfl : code = code' := Except.ok.inj (hcode.symm.trans hcode')
  refine verdict_bind (verdict_decimal _ _) fun currentPrice hprice => ?_
  refine verdict_bind (verdict_decimal _ _) fun changeRate _ => ?_
  refine verdict_bind (verdict_decimal _ _) fun given hgiven => ?_
  have hgives := givesBase_iff hgiven
  cases hfilter : given.filter fun d => d.coefficient != 0 with
  | some base =>
    rw [if_pos (hgives.mpr (by rw [hfilter]; exact nofun))]
    have hbase : ∀ b ∈ some base, Decimal.zero ≤ b :=
      fun b hb => decimal_nonneg hgiven b (Option.filter_eq_some_iff.mp (hfilter.trans hb)).1
    dsimp only
    rw [pure_bind]
    exact verdict_quantities hdigest hutc rfl row itemIndex changeRate (decimal_nonneg hprice) hbase
      _ _ _ _ _ _ _ _
  | none =>
    rw [if_neg fun h => hgives.mp h hfilter, ← firstFailure_none]
    dsimp only
    refine verdict_bind (verdict_eq_none.mpr ⟨currentPrice, hprice⟩) fun price hprice' => ?_
    refine verdict_bind (verdict_decimal _ _) fun change hchange => ?_
    refine verdict_bind (verdict_basePriceOf hprice' hchange) fun basePrice hbase => ?_
    exact verdict_quantities hdigest hutc rfl row itemIndex changeRate (decimal_nonneg hprice)
      (basePriceOf_nonneg hbase) _ _ _ _ _ _ _ _

end

end Dayjaview.Kiwoom
