import Dayjaview.Core.DecimalDigits
import Dayjaview.Core.Patterns
import Dayjaview.Ontology.EventClauses

/-!
# Amounts of money in a text

Four patterns take an amount of money. Each of them begins with a digit and ends with a currency,
and between them stand digits, blanks, units, commas, and points before digits.
-/

namespace Dayjaview.Ontology

open Pattern

def digits : Pattern := seq (one isDecimal) (many isDecimal)

/-- A digit, and more digits and commas. -/
def groupedDigits : Pattern := seq (one isDecimal) (many fun c => isDecimal c || c == ',')

/-- Perhaps a point and digits. -/
def fraction : Pattern := optional (seq (sign '.') digits)

def blanks : Pattern := many isSpace

def foreignCurrency : Pattern := either (word "달러") (either (word "유로") (sign '엔'))

/-- A currency and what may follow it. -/
def priced (currency : Pattern) : Pattern :=
  seq currency (seq (optional (sign '대')) (notNext isNameChar))

/-- Trillions and hundred millions of wons. -/
def COMPOUND_KRW_RE : Pattern := seq digits (sequence
  [fraction, blanks, sign '조', blanks, groupedDigits, blanks, sign '억', blanks, priced (sign '원')])

/-- Hundred millions and ten thousands of a foreign currency. -/
def COMPOUND_FOREIGN_MONEY_RE : Pattern := seq groupedDigits (sequence
  [fraction, blanks, sign '억', blanks, groupedDigits, fraction, blanks, sign '만', blanks,
    priced foreignCurrency])

/-- Trillions and hundred millions of a foreign currency, perhaps with a comma between them. -/
def COMPOUND_JO_FOREIGN_RE : Pattern := seq digits (sequence
  [fraction, blanks, sign '조', blanks, optional (sign ','), blanks, groupedDigits, blanks,
    sign '억', blanks, priced foreignCurrency])

/-- An amount with one unit, or with none. -/
def MONEY_RE : Pattern := seq groupedDigits (sequence
  [fraction, blanks, optional (either (sign '조') (either (sign '억') (sign '만'))), blanks,
    priced (either (sign '원') foreignCurrency)])

def MONEY_PATTERNS : List Pattern :=
  [COMPOUND_KRW_RE, COMPOUND_JO_FOREIGN_RE, COMPOUND_FOREIGN_MONEY_RE, MONEY_RE]

/-- An amount of money begins at a place and ends at another one. -/
def MoneySpan (text : List Char) (a b : Nat) : Prop :=
  ∃ r ∈ MONEY_PATTERNS, ∃ n ∈ r.lengths (text.drop a), a + n = b

/-- A character within an amount of money. -/
def isMoneyChar (c : Char) : Bool :=
  isDecimal c || isSpace c || [',', '.', '조', '억', '만', '원', '달', '러', '유', '로', '엔', '대'].elem c

/-- The last character of an amount of money. -/
def endsMoney (c : Char) : Bool := ['원', '러', '로', '엔', '대'].elem c

/-- What is known of a text within an amount of money. -/
structure MoneyText (w : List Char) : Prop where
  chars : ∀ c ∈ w, isMoneyChar c = true
  points : ∀ i, w[i]? = some '.' → w[i + 1]?.any isDecimal = true

namespace MoneyText

theorem nil : MoneyText [] := ⟨nofun, nofun⟩

theorem append {u v : List Char} (hu : MoneyText u) (hv : MoneyText v) : MoneyText (u ++ v) where
  chars c hc := (List.mem_append.mp hc).elim (hu.chars c) (hv.chars c)
  points i hi := by
    rcases lt_or_ge i u.length with hlt | hge
    · rw [List.getElem?_append_left hlt] at hi
      have hnext := hu.points i hi
      have hlt' : i + 1 < u.length := by
        by_contra hge
        rw [List.getElem?_eq_none (not_lt.mp hge)] at hnext
        cases hnext
      rwa [List.getElem?_append_left hlt']
    · rw [List.getElem?_append_right hge] at hi
      have hnext := hv.points _ hi
      rw [List.getElem?_append_right (by omega)]
      have hsub : i + 1 - u.length = i - u.length + 1 := by omega
      rwa [hsub]

theorem of_chars {w : List Char} (h : ∀ c ∈ w, isMoneyChar c = true ∧ c ≠ '.') : MoneyText w where
  chars c hc := (h c hc).1
  points _ hi := absurd rfl (h '.' (List.mem_of_getElem? hi)).2

theorem singleton {c : Char} (h : isMoneyChar c = true ∧ c ≠ '.') : MoneyText [c] :=
  of_chars fun d hd => by
    obtain rfl := List.mem_singleton.mp hd
    exact h

end MoneyText

variable {c : Char} {currency : Pattern}

theorem isMoneyChar_of_isDecimal (h : isDecimal c = true) : isMoneyChar c = true ∧ c ≠ '.' := by
  refine ⟨by rw [isMoneyChar, h]; rfl, ?_⟩
  rintro rfl
  revert h
  decide

theorem isMoneyChar_of_isSpace (h : isSpace c = true) : isMoneyChar c = true ∧ c ≠ '.' := by
  refine ⟨by rw [isMoneyChar, h, Bool.or_true]; rfl, ?_⟩
  rintro rfl
  revert h
  decide

theorem reads_digits : Reads digits MoneyText :=
  (Reads.one fun _ h => .singleton (isMoneyChar_of_isDecimal h)).seq
    (.many fun _ h => .of_chars fun c hc => isMoneyChar_of_isDecimal (h c hc)) fun _ _ => .append

theorem reads_groupedDigits : Reads groupedDigits MoneyText := by
  refine (Reads.one fun _ h => .singleton (isMoneyChar_of_isDecimal h)).seq
    (.many fun w h => .of_chars fun c hc => ?_) fun _ _ => .append
  rcases Bool.or_eq_true_iff.mp (h c hc) with hdigit | hcomma
  · exact isMoneyChar_of_isDecimal hdigit
  · obtain rfl := eq_of_beq hcomma
    exact ⟨by decide, by decide⟩

theorem head_digits : Reads digits fun w => w.head?.any isDecimal = true :=
  (Reads.one fun _ h => h).head (.any _)

theorem head_groupedDigits : Reads groupedDigits fun w => w.head?.any isDecimal = true :=
  (Reads.one fun _ h => h).head (.any _)

theorem reads_fraction : Reads fraction MoneyText := by
  refine .optional
    ((Reads.sign (Q := fun w => w = ['.']) rfl).seq (reads_digits.and head_digits) ?_) .nil
  rintro _ v rfl ⟨hv, hhead⟩
  constructor
  · rintro c (_ | ⟨_, hc⟩)
    · decide
    · exact hv.chars c hc
  · intro i hi
    cases i with
    | zero =>
      rw [List.head?_eq_getElem?] at hhead
      exact hhead
    | succ i => exact hv.points i hi

theorem reads_blanks : Reads blanks MoneyText :=
  .many fun _ h => .of_chars fun c hc => isMoneyChar_of_isSpace (h c hc)

theorem reads_sign (h : isMoneyChar c = true ∧ c ≠ '.' := by decide) : Reads (sign c) MoneyText :=
  .sign (.singleton h)

theorem reads_word {w : String} (h : ∀ c ∈ w.toList, isMoneyChar c = true ∧ c ≠ '.') :
    Reads (word w) MoneyText :=
  .word (fun c hc => .singleton (h c hc)) .nil fun _ _ => .append

theorem reads_foreignCurrency : Reads foreignCurrency MoneyText :=
  (reads_word (by decide)).either ((reads_word (by decide)).either reads_sign)

theorem ends_foreignCurrency : Reads foreignCurrency fun w => w.getLast?.any endsMoney = true := by
  have hword : ∀ {c d : Char}, endsMoney d = true →
      Reads (seq (sign c) (seq (sign d) empty)) fun w => w.getLast?.any endsMoney = true := by
    intro c d hd
    exact (Reads.any _).behind (.last (.sign hd) (.empty (.inl rfl)))
  exact (hword (by decide)).either ((hword (by decide)).either (.sign (by decide)))

theorem reads_priced (h : Reads currency MoneyText) : Reads (priced currency) MoneyText :=
  h.seq ((Reads.optional reads_sign .nil).seq (.notNext .nil) fun _ _ => .append) fun _ _ => .append

theorem ends_priced (h : Reads currency fun w => w.getLast?.any endsMoney = true) :
    Reads (priced currency) fun w => w.getLast?.any endsMoney = true := by
  refine h.last
    ((Reads.optional (Q := fun w => w = [] ∨ w = ['대']) (.sign (.inr rfl)) (.inl rfl)).seq
    (.notNext (Q := fun w => w = []) rfl) ?_)
  rintro u _ hu rfl
  rw [List.append_nil]
  exact hu.imp_right fun h => by rw [h]; decide

/-- What is known of the text of an amount of money. -/
structure WholeMoney (w : List Char) : Prop extends MoneyText w where
  first : w.head?.any isDecimal = true
  last : w.getLast?.any endsMoney = true

theorem reads_whole {first : Pattern} (rest : List Pattern) (hfirst : Reads first MoneyText)
    (hhead : Reads first fun w => w.head?.any isDecimal = true)
    (hrest : ∀ r ∈ rest, Reads r MoneyText) (hcurrency : Reads currency MoneyText)
    (hends : Reads currency fun w => w.getLast?.any endsMoney = true) :
    Reads (seq first (sequence (rest ++ [priced currency]))) WholeMoney := by
  have hparts : Reads (sequence (rest ++ [priced currency])) MoneyText := by
    refine .sequence (fun r hr => ?_) .nil fun _ _ => .append
    rcases List.mem_append.mp hr with hr | hr
    · exact hrest r hr
    · obtain rfl := List.mem_singleton.mp hr
      exact reads_priced hcurrency
  have hlast : Reads (sequence (rest ++ [priced currency])) fun w => w.getLast?.any endsMoney =
      true := by
    clear hparts hrest
    induction rest with
    | nil => exact (ends_priced hends).last (.empty (.inl rfl))
    | cons r rest ih => exact (Reads.any r).behind ih
  have htext : Reads (seq first (sequence (rest ++ [priced currency]))) MoneyText :=
    hfirst.seq hparts fun _ _ => .append
  exact ((htext.and (hhead.head (.any _))).and ((Reads.any first).behind hlast)).mono
    fun _ h => ⟨h.1.1, h.1.2, h.2⟩

theorem reads_of_mem_moneyPatterns {r : Pattern} (h : r ∈ MONEY_PATTERNS) : Reads r WholeMoney := by
  have hforeign := ends_foreignCurrency
  have hunit : Reads (optional (either (sign '조') (either (sign '억') (sign '만')))) MoneyText :=
    .optional (.either reads_sign (.either reads_sign reads_sign)) .nil
  have hcomma : Reads (optional (sign ',')) MoneyText := .optional reads_sign .nil
  have hparts :
      ∀ r ∈ [fraction, blanks, groupedDigits, sign '조', sign '억', sign '만', optional (sign ','),
      optional (either (sign '조') (either (sign '억') (sign '만')))], Reads r MoneyText := by
    intro r hr
    simp only [List.mem_cons, List.not_mem_nil, or_false] at hr
    rcases hr with rfl | rfl | rfl | rfl | rfl | rfl | rfl | rfl
    exacts [reads_fraction, reads_blanks, reads_groupedDigits, reads_sign, reads_sign,
      reads_sign, hcomma, hunit]
  simp only [MONEY_PATTERNS, List.mem_cons, List.not_mem_nil, or_false] at h
  rcases h with rfl | rfl | rfl | rfl
  · exact reads_whole [fraction, blanks, sign '조', blanks, groupedDigits, blanks, sign '억', blanks]
      reads_digits head_digits (fun r hr => hparts r (by revert hr; simp; tauto)) reads_sign
      (.sign (by decide))
  · exact reads_whole [fraction, blanks, sign '조', blanks, optional (sign ','), blanks,
      groupedDigits,
      blanks, sign '억', blanks] reads_digits head_digits (fun r hr =>
      hparts r (by revert hr; simp; tauto)) reads_foreignCurrency hforeign
  · exact reads_whole [fraction, blanks, sign '억', blanks, groupedDigits, fraction, blanks,
      sign '만',
      blanks] reads_groupedDigits head_groupedDigits (fun r hr =>
      hparts r (by revert hr; simp; tauto)) reads_foreignCurrency hforeign
  · exact reads_whole
      [fraction, blanks, optional (either (sign '조') (either (sign '억') (sign '만'))),
      blanks] reads_groupedDigits head_groupedDigits (fun r hr =>
      hparts r (by revert hr; simp; tauto))
      (.either reads_sign reads_foreignCurrency) (Reads.either (.sign (by decide)) hforeign)

theorem MoneySpan.spec {text : List Char} {a b : Nat} (h : MoneySpan text a b) :
    a < b ∧ b ≤ text.length ∧ text[a]?.any isDecimal = true ∧ text[b - 1]?.any endsMoney = true ∧
      (∀ k, a ≤ k → k < b → text[k]?.any isMoneyChar = true) ∧
      ∀ k, a ≤ k → k < b → text[k]? = some '.' → text[k + 1]?.any isDecimal = true := by
  obtain ⟨r, hr, n, hn, rfl⟩ := h
  obtain ⟨hle, htext⟩ := reads_of_mem_moneyPatterns hr _ n hn
  have hlength : ((text.drop a).take n).length = n := List.length_take_of_le hle
  have hget : ∀ i, i < n → ((text.drop a).take n)[i]? = text[a + i]? := by
    intro i hi
    rw [List.getElem?_take_of_lt hi, List.getElem?_drop]
  have hpos : 0 < n := by
    by_contra hzero
    have hfirst := htext.first
    rw [Nat.eq_zero_of_not_pos hzero, List.take_zero] at hfirst
    cases hfirst
  rw [List.length_drop] at hle
  refine ⟨by omega, by omega, ?_, ?_, fun k hk hlt => ?_, fun k hk hlt hpoint => ?_⟩
  · have hfirst := htext.first
    rwa [List.head?_eq_getElem?, hget 0 hpos] at hfirst
  · have hlast := htext.last
    rwa [List.getLast?_eq_getElem?, hlength, hget _ (by omega), ← Nat.add_sub_assoc hpos] at hlast
  · obtain ⟨i, rfl⟩ := Nat.exists_eq_add_of_le hk
    rw [← hget i (by omega), List.getElem?_eq_getElem (by omega)]
    exact htext.chars _ (List.getElem_mem _)
  · obtain ⟨i, rfl⟩ := Nat.exists_eq_add_of_le hk
    rw [← hget i (by omega)] at hpoint
    have hnext := htext.points i hpoint
    have hlt' : i + 1 < n := by
      by_contra hge
      rw [List.getElem?_eq_none (by omega)] at hnext
      cases hnext
    rwa [hget _ hlt'] at hnext

end Dayjaview.Ontology
