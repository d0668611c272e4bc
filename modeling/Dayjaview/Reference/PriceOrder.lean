import Dayjaview.Reference.AdjustedPrice
import Dayjaview.Reference.Parsers

/-!
# What the order of the observations decides

Equally late prices of a day have to agree on the closing price and the listed shares, but the
change of the first of them is what the answer goes on with. So the order of the rows matters
exactly when two of them lead to different prices. What became known after the decision never
matters.
-/

namespace Dayjaview.Reference

/-- The price, the trading day and the state of an answer. -/
abbrev PriceOutcome := Option ℚ × Option Date × QualityState

/-- The price, the trading day and the state of an answer. -/
def AdjustedPriceResolution.outcome (r : AdjustedPriceResolution) : PriceOutcome :=
  (r.previousAdjustedClose.map Decimal.value, r.previousTradingDay, r.state)

/-- The value that the change of a day implies for the day before. -/
def DailyPriceObservation.impliedValue (o : DailyPriceObservation) : Except Error (Option ℚ) :=
  o.impliedPreviousAdjustedClose.map (Option.map Decimal.value)

theorem DailyPriceObservation.impliedValue_eq (o : DailyPriceObservation) :
    o.impliedValue = match o.changeFromPrevious with
      | none => .ok none
      | some change => (Decimal.roundedOr Decimal.defaultPrec (o.close.value - change.value)).map
          fun x => if 0 < x then some x else none := by
  unfold impliedValue impliedPreviousAdjustedClose
  cases o.changeFromPrevious with
  | none => rfl
  | some change =>
    have hvalue := Decimal.map_value_sub (by decide : 0 < Decimal.defaultPrec) o.close change
    dsimp only
    rw [← hvalue]
    cases Decimal.sub Decimal.defaultPrec o.close change with
    | error e => rfl
    | ok d =>
      have hpos : Decimal.zero < d ↔ 0 < d.value := by
        rw [Decimal.lt_iff_value, Decimal.value_zero]
      change Except.ok ((if Decimal.zero < d then some d else none).map Decimal.value) =
        .ok (if 0 < d.value then some d.value else none)
      by_cases h : 0 < d.value
      · rw [if_pos h, if_pos (hpos.mpr h)]
        rfl
      · rw [if_neg h, if_neg (hpos.not.mpr h)]
        rfl

theorem DailyPriceObservation.impliedValue_error {o : DailyPriceObservation} {e : Error}
    (h : o.impliedValue = .error e) : e = Decimal.signal "Overflow" := by
  rw [impliedValue_eq] at h
  cases hchange : o.changeFromPrevious with
  | none => simp [hchange] at h
  | some change =>
    simp only [hchange, map_eq_error] at h
    unfold Decimal.roundedOr at h
    split at h
    · exact (Except.error.inj h).symm
    · cases h

theorem TradingCalendar.lookBack_error {c : TradingCalendar} {marketDate : Date}
    {decisionAt : Datetime} {left offset : Nat} {e : Error}
    (h : c.lookBack marketDate decisionAt left offset = .error e) : e.kind = .overflowError := by
  induction left generalizing offset with
  | zero => simp [lookBack] at h
  | succ left ih =>
    rw [lookBack] at h
    split at h
    · cases h
      rfl
    · dsimp only at h
      split at h
      · cases h
      · split at h
        · cases h
        · exact ih h

theorem TradingCalendar.previousTradingDay_error {c : TradingCalendar} {marketDate : Date}
    {decisionAt : Datetime} {e : Error}
    (h : c.previousTradingDay marketDate decisionAt = .error e) :
    e ≠ Decimal.signal "Overflow" := by
  unfold previousTradingDay at h
  rw [if_neg (by decide)] at h
  intro he
  have hkind := lookBack_error h
  rw [he] at hkind
  cases hkind

namespace PriceRequest

variable (q : PriceRequest)

/-- What is returned, or the exception. -/
def outcome : Except Error PriceOutcome :=
  q.resolvePreviousAdjustedClose.map AdjustedPriceResolution.outcome

/-- What the day before leads to, by what equally late rows have in common. -/
def dayBeforeOutcome (day : Date) :
    Option (ℚ × Int) × Bool → Option (CorporateActionStatus × Option ℚ) × Bool →
      Except Error PriceOutcome
  | (_, true), _ => .ok (none, some day, .conflict)
  | (none, false), _ => .ok (none, some day, .missing)
  | (some _, false), (_, true) => .ok (none, some day, .conflict)
  | (some _, false), (none, false) => .ok (none, some day, .corporateActionUnresolved)
  | (some _, false), (some (.unresolved, _), false) =>
    .ok (none, some day, .corporateActionUnresolved)
  | (some _, false), (some (_, none), false) => .error ⟨.assertionError, ""⟩
  | (some (close, _), false), (some (_, some factor), false) =>
    (Decimal.roundedOr Decimal.defaultPrec (close * factor)).map fun x =>
      (some x, some day, .verified)

theorem outcome_fromDayBefore (day : Date) (resolution : CalendarResolution) :
    (q.fromDayBefore day resolution).map AdjustedPriceResolution.outcome =
      dayBeforeOutcome day
        ((latestPrice q.dailyPrices q.stockCode day q.decisionAt).1.map
            DailyPriceObservation.quoted,
          (latestPrice q.dailyPrices q.stockCode day q.decisionAt).2)
        ((latestAction q.corporateActions q.stockCode q.marketDate q.decisionAt).1.map
            CorporateActionReference.stated,
          (latestAction q.corporateActions q.stockCode q.marketDate q.decisionAt).2) := by
  unfold fromDayBefore
  rcases latestPrice q.dailyPrices q.stockCode day q.decisionAt with ⟨_ | previous, _ | _⟩
  · rfl
  · rfl
  · rcases latestAction q.corporateActions q.stockCode q.marketDate q.decisionAt with
      ⟨_ | action, _ | _⟩
    · rfl
    · rfl
    · have hproduct : ∀ factor : Decimal,
          (Decimal.mul Decimal.defaultPrec previous.close factor).map Decimal.value =
            Decimal.roundedOr Decimal.defaultPrec (previous.close.value * factor.value) :=
        Decimal.map_value_mul (by decide) previous.close
      simp only [Option.map_some, CorporateActionReference.stated, DailyPriceObservation.quoted]
      cases action.status with
      | unresolved =>
        rw [if_pos rfl]
        rfl
      | clear | adjusted =>
        rw [if_neg (by decide)]
        cases action.adjustmentFactor with
        | none => rfl
        | some factor =>
          change _ = (Decimal.roundedOr Decimal.defaultPrec
            (previous.close.value * factor.value)).map _
          rw [← hproduct]
          dsimp only
          generalize Decimal.mul Decimal.defaultPrec previous.close factor = product
          cases product <;> rfl
    · rfl
  · rfl

/-- The same question about other rows. -/
def withRows (prices : List DailyPriceObservation) (actions : List CorporateActionReference) :
    PriceRequest :=
  { q with dailyPrices := prices, corporateActions := actions }

variable {q}

variable {prices : List DailyPriceObservation}

theorem outcome_fromPreviousDay_withRows {actions : List CorporateActionReference}
    (hprices : q.dailyPrices.Perm prices) (hactions : q.corporateActions.Perm actions) :
    (q.withRows prices actions).fromPreviousDay.map AdjustedPriceResolution.outcome =
      q.fromPreviousDay.map AdjustedPriceResolution.outcome := by
  unfold fromPreviousDay
  change Except.map _ (Except.bind (q.calendar.previousTradingDay q.marketDate q.decisionAt) _) =
    Except.map _ (Except.bind (q.calendar.previousTradingDay q.marketDate q.decisionAt) _)
  rcases q.calendar.previousTradingDay q.marketDate q.decisionAt with e | ⟨_ | day, resolution⟩
  · rfl
  · rfl
  · change ((q.withRows prices actions).fromDayBefore day resolution).map _ =
      (q.fromDayBefore day resolution).map _
    rw [outcome_fromDayBefore, outcome_fromDayBefore]
    exact congrArg₂ (dayBeforeOutcome day) (latestAgreeing_perm (hprices.symm.filter _))
      (latestAgreeing_perm (hactions.symm.filter _))

/-- There is no trading day before. -/
def NoDayBefore (q : PriceRequest) : Prop :=
  ∀ day resolution,
    q.calendar.previousTradingDay q.marketDate q.decisionAt ≠ .ok (some day, resolution)

/-- The price of the trading day before and the corporate actions of the day give a value. -/
def DayBeforeGives (q : PriceRequest) (x : Except Error (Option ℚ)) : Prop :=
  ∃ day resolution previous action factor,
    q.calendar.previousTradingDay q.marketDate q.decisionAt = .ok (some day, resolution) ∧
      latestPrice q.dailyPrices q.stockCode day q.decisionAt = (some previous, false) ∧
      latestAction q.corporateActions q.stockCode q.marketDate q.decisionAt = (some action, false) ∧
      action.status ≠ .unresolved ∧ action.adjustmentFactor = some factor ∧
      (Decimal.mul Decimal.defaultPrec previous.close factor).map (fun d => some d.value) = x

theorem fromDayBefore_iff {day : Date} {resolution : CalendarResolution}
    (hday : q.calendar.previousTradingDay q.marketDate q.decisionAt = .ok (some day, resolution))
    (x : Except Error (Option ℚ)) :
    (q.fromDayBefore day resolution).map AdjustedPriceResolution.outcome =
        x.map (fun v => (v, some day, .verified)) ↔ q.DayBeforeGives x := by
  have hgives : q.DayBeforeGives x ↔ ∃ previous action factor,
      latestPrice q.dailyPrices q.stockCode day q.decisionAt = (some previous, false) ∧
        latestAction q.corporateActions q.stockCode q.marketDate q.decisionAt =
          (some action, false) ∧ action.status ≠ .unresolved ∧ action.adjustmentFactor =
          some factor ∧
        (Decimal.mul Decimal.defaultPrec previous.close factor).map (fun d => some d.value) =
        x := by
    unfold DayBeforeGives
    rw [hday]
    simp
  -- an answer without a price is not verified
  have hmissed : ∀ state : QualityState, state ≠ .verified →
      (Except.ok (none, some day, state) : Except Error PriceOutcome) ≠
        x.map (fun v => (v, some day, .verified)) := by
    intro state hstate h
    cases x with
    | error e => cases h
    | ok v => exact hstate (congrArg (fun o : PriceOutcome => o.2.2) (Except.ok.inj h))
  rw [hgives]
  unfold fromDayBefore
  rcases latestPrice q.dailyPrices q.stockCode day q.decisionAt with ⟨_ | previous, _ | _⟩
  · exact iff_of_false (hmissed .missing (by decide)) (by simp)
  · exact iff_of_false (hmissed .conflict (by decide)) (by simp)
  · rcases latestAction q.corporateActions q.stockCode q.marketDate q.decisionAt with
      ⟨_ | action, _ | _⟩
    · exact iff_of_false (hmissed .corporateActionUnresolved (by decide)) (by simp)
    · exact iff_of_false (hmissed .conflict (by decide)) (by simp)
    · dsimp only
      by_cases hstatus : action.status = .unresolved
      · rw [if_pos hstatus]
        refine iff_of_false (hmissed .corporateActionUnresolved (by decide)) ?_
        rintro ⟨_, _, _, hprevious, haction, hresolved, -⟩
        cases haction
        exact hresolved hstatus
      · rw [if_neg hstatus]
        obtain ⟨factor, hfactor⟩ := action.exists_adjustmentFactor hstatus
        rw [hfactor]
        dsimp only
        have hright :
            (∃ previous' action' factor', (some previous, false) = (some previous', false) ∧
            (some action, false) = (some action', false) ∧ action'.status ≠ .unresolved ∧
            action'.adjustmentFactor = some factor' ∧
            (Decimal.mul Decimal.defaultPrec previous'.close factor').map
              (fun d => some d.value) = x) ↔
            (Decimal.mul Decimal.defaultPrec previous.close factor).map
              (fun d => some d.value) = x := by
          constructor
          · rintro ⟨_, _, factor', hprevious, haction, -, hfactor', hx⟩
            cases hprevious
            cases haction
            obtain rfl := Option.some.inj (hfactor.symm.trans hfactor')
            exact hx
          · exact fun hx => ⟨previous, action, factor, rfl, rfl, hstatus, hfactor, hx⟩
        rw [hright]
        generalize Decimal.mul Decimal.defaultPrec previous.close factor = product
        cases product with
        | error e =>
          cases x with
          | error e' => exact ⟨fun h => congrArg _ (Except.error.inj h),
              fun h => congrArg _ (Except.error.inj h)⟩
          | ok v => exact iff_of_false nofun nofun
        | ok d =>
          cases x with
          | error e' => exact iff_of_false nofun nofun
          | ok v =>
            constructor
            · intro h
              exact congrArg Except.ok (congrArg (fun o : PriceOutcome => o.1) (Except.ok.inj h))
            · intro h
              cases h
              rfl
    · exact iff_of_false (hmissed .conflict (by decide)) (by simp)
  · exact iff_of_false (hmissed .conflict (by decide)) (by simp)

/-- Where a price of the day leads to. -/
def rowOutcome (q : PriceRequest) (a : DailyPriceObservation) : Except Error PriceOutcome :=
  match a.impliedValue with
  | .error e => .error e
  | .ok (some x) =>
    (q.calendar.previousTradingDay q.marketDate q.decisionAt).map fun before =>
      match before.1 with
      | none => (none, none, before.2.state)
      | some day => (some x, some day, .verified)
  | .ok none => q.fromPreviousDay.map AdjustedPriceResolution.outcome

theorem outcome_of_found (hversion : q.version ≠ "") {a : DailyPriceObservation}
    (h : latestPrice q.dailyPrices q.stockCode q.marketDate q.decisionAt = (some a, false)) :
    q.outcome = q.rowOutcome a := by
  unfold outcome resolvePreviousAdjustedClose rowOutcome DailyPriceObservation.impliedValue
  rw [if_neg hversion, h]
  dsimp only
  rcases a.impliedPreviousAdjustedClose with e | _ | implied
  · rfl
  · rfl
  · change Except.map _ (q.fromChange a implied) = _
    unfold fromChange
    rcases q.calendar.previousTradingDay q.marketDate q.decisionAt with e | ⟨_ | day, resolution⟩
    · rfl
    · rfl
    · rfl

/-- Two prices of the day can stand for each other. -/
def Interchangeable (q : PriceRequest) (a b : DailyPriceObservation) : Prop :=
  a.impliedValue = b.impliedValue ∨
    (a.impliedValue = .ok none ∧ q.DayBeforeGives b.impliedValue) ∨
    (b.impliedValue = .ok none ∧ q.DayBeforeGives a.impliedValue) ∨
    (q.NoDayBefore ∧ ∃ x y, a.impliedValue = .ok x ∧ b.impliedValue = .ok y)

theorem rowOutcome_of_noDayBefore (h : q.NoDayBefore) {a : DailyPriceObservation} {x : Option ℚ}
    (ha : a.impliedValue = .ok x) :
    q.rowOutcome a = (q.calendar.previousTradingDay q.marketDate q.decisionAt).map
      fun before => (none, none, before.2.state) := by
  unfold rowOutcome fromPreviousDay
  rw [ha]
  cases hday : q.calendar.previousTradingDay q.marketDate q.decisionAt with
  | error e =>
    cases x with
    | none => rfl
    | some x => rfl
  | ok before =>
    obtain ⟨before, resolution⟩ := before
    cases before with
    | some day => exact absurd hday (h day resolution)
    | none =>
      cases x with
      | none => rfl
      | some x => rfl

theorem rowOutcome_of_dayBefore {day : Date} {resolution : CalendarResolution}
    (hday : q.calendar.previousTradingDay q.marketDate q.decisionAt = .ok (some day, resolution))
    (a : DailyPriceObservation) :
    q.rowOutcome a = if a.impliedValue = .ok none then
        (q.fromDayBefore day resolution).map AdjustedPriceResolution.outcome
      else a.impliedValue.map fun v => (v, some day, .verified) := by
  unfold rowOutcome fromPreviousDay
  rw [hday]
  rcases a.impliedValue with e | _ | x
  · rw [if_neg nofun]
    rfl
  · rw [if_pos rfl]
    rfl
  · rw [if_neg (by simp)]
    rfl

theorem rowOutcome_eq_iff (a b : DailyPriceObservation) :
    q.rowOutcome a = q.rowOutcome b ↔ q.Interchangeable a b := by
  by_cases hnone : q.NoDayBefore
  · have hgives : ∀ x, ¬ q.DayBeforeGives x := by
      rintro x ⟨day, resolution, _, _, _, hday, -⟩
      exact hnone day resolution hday
    have hmissed : ∀ c : DailyPriceObservation, ∀ e, c.impliedValue = .error e → ∀ f : _ →
        PriceOutcome,
        q.rowOutcome c ≠ (q.calendar.previousTradingDay q.marketDate q.decisionAt).map f := by
      intro c e hc f h
      have herror : q.rowOutcome c = .error e := by
        unfold rowOutcome
        rw [hc]
      rw [herror, eq_comm, map_eq_error] at h
      exact TradingCalendar.previousTradingDay_error h (DailyPriceObservation.impliedValue_error hc)
    cases ha : a.impliedValue with
    | error e =>
      cases hb : b.impliedValue with
      | error e' =>
        obtain rfl := DailyPriceObservation.impliedValue_error ha
        obtain rfl := DailyPriceObservation.impliedValue_error hb
        refine iff_of_true ?_ (.inl (ha.trans hb.symm))
        unfold rowOutcome
        rw [ha, hb]
      | ok y =>
        refine iff_of_false ?_ ?_
        · rw [rowOutcome_of_noDayBefore hnone hb]
          exact hmissed a e ha _
        · simp [Interchangeable, ha, hb, hgives]
    | ok x =>
      cases hb : b.impliedValue with
      | error e' =>
        refine iff_of_false ?_ ?_
        · rw [rowOutcome_of_noDayBefore hnone ha]
          exact (hmissed b e' hb _).symm
        · simp [Interchangeable, ha, hb, hgives]
      | ok y =>
        refine iff_of_true ?_ (.inr (.inr (.inr ⟨hnone, x, y, ha, hb⟩)))
        rw [rowOutcome_of_noDayBefore hnone ha, rowOutcome_of_noDayBefore hnone hb]
  · obtain ⟨day, resolution, hday⟩ : ∃ day resolution,
        q.calendar.previousTradingDay q.marketDate q.decisionAt = .ok (some day, resolution) := by
      simpa [NoDayBefore] using hnone
    have hinjective : ∀ x y : Except Error (Option ℚ),
        x.map (fun v => ((v, some day, .verified) : PriceOutcome)) =
          y.map (fun v => (v, some day, .verified)) ↔ x = y := by
      rintro (e | x) (e' | y) <;> simp [Except.map]
    rw [rowOutcome_of_dayBefore hday, rowOutcome_of_dayBefore hday]
    unfold Interchangeable
    by_cases ha : a.impliedValue = .ok none
    · rw [if_pos ha]
      by_cases hb : b.impliedValue = .ok none
      · rw [if_pos hb]
        exact iff_of_true rfl (.inl (ha.trans hb.symm))
      · rw [if_neg hb, fromDayBefore_iff hday]
        have hne : a.impliedValue ≠ b.impliedValue := fun h => hb (h.symm.trans ha)
        simp [ha, hb, hnone, Ne.symm hb]
    · rw [if_neg ha]
      by_cases hb : b.impliedValue = .ok none
      · rw [if_pos hb, eq_comm, fromDayBefore_iff hday]
        simp [ha, hb, hnone]
      · rw [if_neg hb, hinjective]
        simp [ha, hb, hnone]

/-- The latest prices of the day. -/
def latestOfDay (q : PriceRequest) : List DailyPriceObservation :=
  latestRows (·.metadata.rank) (eligiblePrices q.dailyPrices q.stockCode q.marketDate q.decisionAt)

theorem latestOfDay_withRows (actions : List CorporateActionReference)
    (h : q.dailyPrices.Perm prices) :
    (q.withRows prices actions).latestOfDay.Perm q.latestOfDay :=
  latestRows_perm (h.symm.filter _)

theorem rowOutcome_withRows {actions : List CorporateActionReference}
    (hprices : q.dailyPrices.Perm prices) (hactions : q.corporateActions.Perm actions)
    (a : DailyPriceObservation) :
    (q.withRows prices actions).rowOutcome a = q.rowOutcome a := by
  have hbefore := outcome_fromPreviousDay_withRows hprices hactions
  unfold rowOutcome
  rcases a.impliedValue with e | _ | x
  · rfl
  · exact hbefore
  · rfl

theorem outcome_of_conflict (hversion : q.version ≠ "") {a b : DailyPriceObservation}
    (ha : a ∈ q.latestOfDay) (hb : b ∈ q.latestOfDay) (hne : a.quoted ≠ b.quoted) :
    q.outcome = .ok (none, none, .conflict) := by
  unfold outcome resolvePreviousAdjustedClose
  rw [if_neg hversion]
  rcases hfound : latestPrice q.dailyPrices q.stockCode q.marketDate q.decisionAt with
    ⟨_ | c, _ | _⟩
  · have hempty := latestAgreeing_eq_none hfound
    rw [if_neg (by simp)] at hempty
    rw [latestOfDay, hempty] at ha
    cases ha
  · rfl
  all_goals
    obtain ⟨-, -, hall⟩ := latestAgreeing_eq_some hfound
    exact absurd ((hall a ha).trans (hall b hb).symm) hne

theorem outcome_of_empty (hversion : q.version ≠ "") (h : q.latestOfDay = []) :
    q.outcome = q.fromPreviousDay.map AdjustedPriceResolution.outcome := by
  have hfound : latestPrice q.dailyPrices q.stockCode q.marketDate q.decisionAt =
      (none, false) := by
    unfold latestPrice latestAgreeing
    rw [show latestRows _ _ = [] from h]
  unfold outcome resolvePreviousAdjustedClose
  rw [if_neg hversion, hfound]

theorem outcome_of_agreeing (hversion : q.version ≠ "") (hne : q.latestOfDay ≠ [])
    (hall : ∀ a ∈ q.latestOfDay, ∀ b ∈ q.latestOfDay, a.quoted = b.quoted) :
    ∃ a ∈ q.latestOfDay, q.outcome = q.rowOutcome a := by
  obtain ⟨a, ha⟩ := latestAgreeing_of_uniform (uniform_iff.mpr ⟨hne, hall⟩)
  exact ⟨a, (latestAgreeing_eq_some ha).2.1, outcome_of_found hversion ha⟩

theorem exists_perm_outcome (hversion : q.version ≠ "")
    (hall : ∀ a ∈ q.latestOfDay, ∀ b ∈ q.latestOfDay, a.quoted = b.quoted)
    {a : DailyPriceObservation} (ha : a ∈ q.latestOfDay) :
    ∃ prices, q.dailyPrices.Perm prices ∧
      (q.withRows prices q.corporateActions).outcome = q.rowOutcome a := by
  have hmem := (mem_latestRows.mp ha).1
  obtain ⟨hprices, hkeep⟩ := List.mem_filter.mp hmem
  have hperm := List.perm_cons_erase hprices
  refine ⟨a :: q.dailyPrices.erase a, hperm, ?_⟩
  have hrows := latestOfDay_withRows q.corporateActions hperm
  have hfirst : eligiblePrices (a :: q.dailyPrices.erase a) q.stockCode q.marketDate q.decisionAt =
      a :: eligiblePrices (q.dailyPrices.erase a) q.stockCode q.marketDate q.decisionAt :=
    List.filter_cons_of_pos hkeep
  have huniform : Uniform DailyPriceObservation.quoted
      (q.withRows (a :: q.dailyPrices.erase a) q.corporateActions).latestOfDay := by
    refine uniform_iff.mpr ⟨List.ne_nil_of_mem (hrows.mem_iff.mpr ha), fun b hb c hc => ?_⟩
    exact hall b (hrows.mem_iff.mp hb) c (hrows.mem_iff.mp hc)
  have hlatest := hrows.mem_iff.mpr ha
  unfold latestOfDay at huniform hlatest
  have hfound : latestPrice (a :: q.dailyPrices.erase a) q.stockCode q.marketDate q.decisionAt =
      (some a, false) := by
    unfold latestPrice
    change a ∈ latestRows _ (eligiblePrices (a :: _) q.stockCode q.marketDate q.decisionAt)
      at hlatest
    change Uniform _ (latestRows _
      (eligiblePrices (a :: _) q.stockCode q.marketDate q.decisionAt)) at huniform
    rw [hfirst] at hlatest huniform ⊢
    exact latestAgreeing_cons hlatest huniform
  have hout : (q.withRows (a :: q.dailyPrices.erase a) q.corporateActions).outcome =
      (q.withRows (a :: q.dailyPrices.erase a) q.corporateActions).rowOutcome a :=
    outcome_of_found (q := q.withRows (a :: q.dailyPrices.erase a) q.corporateActions)
    hversion hfound
  rw [hout, rowOutcome_withRows hperm (List.Perm.refl _)]

/-- The order of the rows never matters exactly when the first check fails, the latest prices of
the day disagree, or any two of them can stand for each other. -/
theorem forall_perm_outcome_iff :
    (∀ prices actions, q.dailyPrices.Perm prices → q.corporateActions.Perm actions →
        (q.withRows prices actions).outcome = q.outcome) ↔
      q.version = "" ∨ (∃ a ∈ q.latestOfDay, ∃ b ∈ q.latestOfDay, a.quoted ≠ b.quoted) ∨
        ∀ a ∈ q.latestOfDay, ∀ b ∈ q.latestOfDay, q.Interchangeable a b := by
  by_cases hversion : q.version = ""
  · refine iff_of_true (fun prices actions _ _ => ?_) (.inl hversion)
    have hother : (q.withRows prices actions).version = "" := hversion
    unfold outcome resolvePreviousAdjustedClose
    rw [if_pos hversion, if_pos hother]
  by_cases hagree : ∀ a ∈ q.latestOfDay, ∀ b ∈ q.latestOfDay, a.quoted = b.quoted
  · have hright : (q.version = "" ∨
        (∃ a ∈ q.latestOfDay, ∃ b ∈ q.latestOfDay, a.quoted ≠ b.quoted) ∨
        ∀ a ∈ q.latestOfDay, ∀ b ∈ q.latestOfDay, q.Interchangeable a b) ↔
        ∀ a ∈ q.latestOfDay, ∀ b ∈ q.latestOfDay, q.Interchangeable a b := by
      constructor
      · rintro (h | ⟨a, ha, b, hb, hne⟩ | h)
        · exact absurd h hversion
        · exact absurd (hagree a ha b hb) hne
        · exact h
      · exact fun h => .inr (.inr h)
    rw [hright]
    constructor
    · intro hsame a ha b hb
      obtain ⟨prices, hperm, hout⟩ := exists_perm_outcome hversion hagree ha
      obtain ⟨prices', hperm', hout'⟩ := exists_perm_outcome hversion hagree hb
      rw [← rowOutcome_eq_iff, ← hout, ← hout', hsame _ _ hperm (List.Perm.refl _),
        hsame _ _ hperm' (List.Perm.refl _)]
    · intro hinterchangeable prices actions hprices hactions
      have hrows := latestOfDay_withRows actions hprices
      by_cases hempty : q.latestOfDay = []
      · have hempty' : (q.withRows prices actions).latestOfDay = [] :=
          List.perm_nil.mp (hempty ▸ hrows)
        rw [outcome_of_empty hversion hempty]
        have hout : (q.withRows prices actions).outcome =
            (q.withRows prices actions).fromPreviousDay.map AdjustedPriceResolution.outcome :=
          outcome_of_empty hversion hempty'
        rw [hout, outcome_fromPreviousDay_withRows hprices hactions]
      · have hne' : (q.withRows prices actions).latestOfDay ≠ [] := by
          intro h
          rw [h] at hrows
          exact hempty (List.nil_perm.mp hrows)
        obtain ⟨a, ha, hout⟩ := outcome_of_agreeing hversion hempty hagree
        obtain ⟨b, hb, hout'⟩ := outcome_of_agreeing (q := q.withRows prices actions) hversion hne'
          fun c hc d hd => hagree c (hrows.mem_iff.mp hc) d (hrows.mem_iff.mp hd)
        rw [hout, hout', rowOutcome_withRows hprices hactions]
        exact rowOutcome_eq_iff b a |>.mpr (hinterchangeable b (hrows.mem_iff.mp hb) a ha)
  · push Not at hagree
    obtain ⟨a, ha, b, hb, hne⟩ := hagree
    refine iff_of_true (fun prices actions hprices _ => ?_) (.inr (.inl ⟨a, ha, b, hb, hne⟩))
    have hrows := latestOfDay_withRows actions hprices
    rw [outcome_of_conflict hversion ha hb hne]
    exact outcome_of_conflict (q := q.withRows prices actions) hversion (hrows.mem_iff.mpr ha)
      (hrows.mem_iff.mpr hb) hne

/-- The observations that were known at the time of the decision. -/
def knownOnly (q : PriceRequest) : PriceRequest :=
  { q with
    calendar := q.calendar.filter fun o => decide (o.metadata.knownAt ≤ q.decisionAt)
    dailyPrices := q.dailyPrices.filter fun v => decide (v.metadata.knownAt ≤ q.decisionAt)
    corporateActions :=
    q.corporateActions.filter fun v => decide (v.metadata.knownAt ≤ q.decisionAt) }

theorem lookBack_filter (c : TradingCalendar) (marketDate : Date) (decisionAt : Datetime)
    (left offset : Nat) :
    TradingCalendar.lookBack (c.filter fun o => decide (o.metadata.knownAt ≤ decisionAt)) marketDate
      decisionAt left offset = c.lookBack marketDate decisionAt left offset := by
  have hresolve : ∀ d, TradingCalendar.resolve
      (c.filter fun o => decide (o.metadata.knownAt ≤ decisionAt)) d decisionAt =
        c.resolve d decisionAt := by
    intro d
    have heligible : TradingCalendar.eligible
        (c.filter fun o => decide (o.metadata.knownAt ≤ decisionAt)) d decisionAt =
          c.eligible d decisionAt := by
      unfold TradingCalendar.eligible
      rw [List.filter_filter]
      exact List.filter_congr fun o _ => by rw [Bool.and_assoc, Bool.and_self]
    unfold TradingCalendar.resolve
    rw [heligible]
  induction left generalizing offset with
  | zero => rfl
  | succ left ih =>
    unfold TradingCalendar.lookBack
    simp only [hresolve, ih]

theorem resolve_knownOnly (q : PriceRequest) :
    q.knownOnly.resolvePreviousAdjustedClose = q.resolvePreviousAdjustedClose := by
  have hprice : ∀ d, latestPrice q.knownOnly.dailyPrices q.knownOnly.stockCode d
      q.knownOnly.decisionAt = latestPrice q.dailyPrices q.stockCode d q.decisionAt := by
    intro d
    unfold latestPrice eligiblePrices knownOnly
    rw [List.filter_filter]
    exact congrArg _ (List.filter_congr fun v _ => by rw [Bool.and_assoc, Bool.and_self])
  have haction : latestAction q.knownOnly.corporateActions q.knownOnly.stockCode
      q.knownOnly.marketDate q.knownOnly.decisionAt =
        latestAction q.corporateActions q.stockCode q.marketDate q.decisionAt := by
    unfold latestAction eligibleActions knownOnly
    rw [List.filter_filter]
    exact congrArg _ (List.filter_congr fun v _ => by rw [Bool.and_assoc, Bool.and_self])
  have hcalendar : q.knownOnly.calendar.previousTradingDay q.knownOnly.marketDate
      q.knownOnly.decisionAt = q.calendar.previousTradingDay q.marketDate q.decisionAt := by
    unfold TradingCalendar.previousTradingDay
    rw [knownOnly, lookBack_filter]
  unfold resolvePreviousAdjustedClose fromChange fromPreviousDay fromDayBefore
  simp only [hprice, haction, hcalendar]
  rfl

/-- The order of the rows and what became known later change nothing, exactly when the first check
fails, the latest prices of the day disagree, or any two of them can stand for each other. -/
theorem order_free_iff (q : PriceRequest) :
    ((∀ prices actions, q.dailyPrices.Perm prices → q.corporateActions.Perm actions →
        (q.withRows prices actions).outcome = q.outcome) ∧
      q.knownOnly.resolvePreviousAdjustedClose = q.resolvePreviousAdjustedClose) ↔
      q.version = "" ∨ (∃ a ∈ q.latestOfDay, ∃ b ∈ q.latestOfDay, a.quoted ≠ b.quoted) ∨
        ∀ a ∈ q.latestOfDay, ∀ b ∈ q.latestOfDay, q.Interchangeable a b := by
  rw [and_iff_left (resolve_knownOnly q)]
  exact forall_perm_outcome_iff

def marketDay : Date := .january 26 6

def dayBefore : Date := .january 26 5

theorem validTime_collectedAt :
    8 < 24 ∧ 0 < 60 ∧ 0 < 60 ∧ 0 < 1000000 ∧ (0 : Int).natAbs < dayMicros := by
  decide

/-- When everything was collected. -/
def collectedAt : Datetime :=
  ⟨marketDay, 8, 0, 0, 0, 0, validTime_collectedAt⟩

/-- The metadata of a collection of a market. -/
def collectedFrom (market : String) : SourceMetadata.Fields where
  provider := .krxOpenApi
  dataset := .krxStockDaily
  endpoint := "https://data-dbg.krx.co.kr/svc/apis/sto"
  sourceKey := market
  asOf := collectedAt
  collectedAt := collectedAt
  parserVersion := "krx-daily-1"
  revision := 1
  lineage := [market]

/-- A price of the day, collected with or without a change. -/
def collectedPrice (change : Option Decimal) : DailyPriceObservation.Fields where
  stockCode := "005930"
  market := "KOSPI"
  marketDate := marketDay
  close := .ofNat 100
  changeFromPrevious := change
  listedShares := 1000
  metadata := ⟨collectedFrom "KOSPI", by decide⟩

def priceWithChange : DailyPriceObservation :=
  ⟨collectedPrice (some (.ofNat 10)), by decide +kernel⟩

def priceWithoutChange : DailyPriceObservation := ⟨collectedPrice none, by decide +kernel⟩

/-- One collection has the change of the day and an equally late one has not. -/
def collectedTwice : PriceRequest where
  stockCode := "005930"
  marketDate := marketDay
  decisionAt := collectedAt
  calendar := [⟨⟨dayBefore, true, some nineOClock, some halfPastThree, "krx-1",
    ⟨collectedFrom "calendar", by decide⟩⟩, by decide⟩]
  dailyPrices := [priceWithChange, priceWithoutChange]
  corporateActions := []
  version := "adjusted-1"

/-- The order of two equally late prices decides whether there is a price of the day before. -/
theorem not_order_free :
    ¬ ((∀ prices actions, collectedTwice.dailyPrices.Perm prices →
        collectedTwice.corporateActions.Perm actions →
          (collectedTwice.withRows prices actions).outcome = collectedTwice.outcome) ∧
      collectedTwice.knownOnly.resolvePreviousAdjustedClose =
        collectedTwice.resolvePreviousAdjustedClose) := by
  rintro ⟨h, -⟩
  have hfirst : collectedTwice.outcome = .ok (some 90, some dayBefore, .verified) := by
    decide +kernel
  have hother : (collectedTwice.withRows [priceWithoutChange, priceWithChange] []).outcome =
      .ok (none, some dayBefore, .missing) := by
    decide +kernel
  have hsame := h _ [] (List.Perm.swap priceWithoutChange priceWithChange []) (List.Perm.refl _)
  rw [hfirst, hother] at hsame
  cases hsame

end PriceRequest

end Dayjaview.Reference
