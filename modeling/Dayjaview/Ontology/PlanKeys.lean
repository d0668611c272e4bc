import Dayjaview.Ontology.QueryPlans

/-!
# What the key of a plan determines

Under a hash that separates texts, plans with one key have the same slots. Only the
topic is not part of the key, and of an amount it is the written form.
-/

namespace Dayjaview.Ontology

theorem injective_of_find {α : Type} (members : List α) {text : α → String}
    (h : ∀ a, members.find? (fun b => text b = text a) = some a) : Function.Injective text := by
  intro a b hab
  have ha := h a
  rw [hab, h b] at ha
  exact (Option.some.inj ha).symm

theorem QueryType.text_injective : Function.Injective QueryType.text :=
  injective_of_find queryTypes fun a => by cases a <;> decide

theorem CountUnit.text_injective : Function.Injective CountUnit.text :=
  injective_of_find [.dailySection, .dailyStockRow, .currentThemeMembership, .sourceRecord,
    .themeReaction, .catalyst, .valueFact, .outcomeObservation] fun a => by cases a <;> decide

theorem QueryDirection.text_injective : Function.Injective QueryDirection.text :=
  injective_of_find [.up, .down] fun a => by cases a <;> decide

theorem RelativeExpression.text_injective : Function.Injective RelativeExpression.text :=
  injective_of_find [.today, .yesterday, .dayBeforeYesterday, .previousTradingDay, .lastMonday,
    .lastTuesday, .lastWednesday, .lastThursday, .lastFriday, .thisWeek, .lastWeek, .thisMonth,
    .lastMonth, .thisYear, .lastYear, .last7Days, .last3Months, .last12Months, .recent,
    .allTime] fun a => by cases a <;> decide

theorem CompanyBasis.text_injective : Function.Injective CompanyBasis.text :=
  injective_of_find [.stockCode, .currentName, .pastAlias] fun a => by cases a <;> decide

theorem Comparator.text_injective : Function.Injective Comparator.text :=
  injective_of_find [.gte, .gt, .lte, .lt] fun a => by cases a <;> decide

theorem sortKeys_optionalText (s : Option String) : (optionalText s).sortKeys = optionalText s := by
  cases s <;> rfl

theorem optionalText_map_injective {α : Type} {text : α → String}
    (htext : Function.Injective text) : Function.Injective fun a : Option α =>
      optionalText (a.map text) := by
  intro a b h
  cases a <;> cases b <;> simp only [optionalText, Option.map_some, Option.map_none, Json.str.injEq,
    reduceCtorEq] at h
  · rfl
  · rw [htext h]

theorem DateSlot.eq_of_sortKeys_eq {a b : DateSlot} (h : a.asDict.sortKeys = b.asDict.sortKeys) :
    a = b := by
  have hv := Json.values_eq_of_sortKeys_eq h rfl (by simp)
  simp only [List.map_cons, List.map_nil, List.cons.injEq, Json.sortKeys, sortKeys_optionalText,
    Json.str.injEq, and_true] at hv
  obtain ⟨value, literal, expression⟩ := a
  obtain ⟨value', literal', expression'⟩ := b
  obtain ⟨hvalue, rfl, hexpression⟩ := hv
  obtain rfl := Date.isoformat_injective hvalue
  obtain rfl := optionalText_map_injective RelativeExpression.text_injective hexpression
  rfl

theorem PeriodSlot.eq_of_sortKeys_eq {a b : PeriodSlot}
    (h : a.asDict.sortKeys = b.asDict.sortKeys) : a = b := by
  have hv := Json.values_eq_of_sortKeys_eq h rfl (by simp)
  simp only [List.map_cons, List.map_nil, List.cons.injEq, Json.sortKeys, sortKeys_optionalText,
    Json.str.injEq, and_true] at hv
  obtain ⟨start, finish, literal, expression, ha⟩ := a
  obtain ⟨start', finish', literal', expression', hb⟩ := b
  obtain ⟨hstart, hfinish, rfl, hexpression⟩ := hv
  obtain rfl := Date.isoformat_injective hstart
  obtain rfl := Date.isoformat_injective hfinish
  obtain rfl := optionalText_map_injective RelativeExpression.text_injective hexpression
  rfl

theorem CompanyRef.eq_of_sortKeys_eq {a b : CompanyRef}
    (h : a.asDict.sortKeys = b.asDict.sortKeys) : a = b := by
  have hv := Json.values_eq_of_sortKeys_eq h rfl (by simp)
  simp only [List.map_cons, List.map_nil, List.cons.injEq, Json.sortKeys, Json.str.injEq,
    and_true] at hv
  obtain ⟨code, name, matched, basis⟩ := a
  obtain ⟨code', name', matched', basis'⟩ := b
  obtain ⟨rfl, rfl, rfl, hbasis⟩ := hv
  obtain rfl := CompanyBasis.text_injective hbasis
  rfl

theorem ThemeRef.eq_of_sortKeys_eq {a b : ThemeRef} (h : a.asDict.sortKeys = b.asDict.sortKeys) :
    a = b := by
  have hv := Json.values_eq_of_sortKeys_eq h rfl (by simp)
  simp only [List.map_cons, List.map_nil, List.cons.injEq, Json.sortKeys, Json.str.injEq,
    and_true] at hv
  obtain ⟨id, name, matched⟩ := a
  obtain ⟨id', name', matched'⟩ := b
  obtain ⟨rfl, rfl, rfl⟩ := hv
  rfl

theorem CatalystTypeRef.eq_of_sortKeys_eq {a b : CatalystTypeRef}
    (h : a.asDict.sortKeys = b.asDict.sortKeys) : a = b := by
  have hv := Json.values_eq_of_sortKeys_eq h rfl (by simp)
  simp only [List.map_cons, List.map_nil, List.cons.injEq, Json.sortKeys, Json.str.injEq,
    and_true] at hv
  obtain ⟨id, name, matched⟩ := a
  obtain ⟨id', name', matched'⟩ := b
  obtain ⟨rfl, rfl, rfl⟩ := hv
  rfl

/-- Two amounts are asked for alike: only the forms of one number may differ. -/
def AmountCondition.Alike (a b : AmountCondition) : Prop :=
  a.asDict = b.asDict ∧ a.comparator = b.comparator ∧
    a.normalizedValue.value = b.normalizedValue.value ∧ a.literal = b.literal

theorem AmountCondition.alike_of_sortKeys_eq {a b : AmountCondition}
    (h : a.asDict.sortKeys = b.asDict.sortKeys) : a.Alike b := by
  have hv := Json.values_eq_of_sortKeys_eq h rfl (by simp)
  simp only [List.map_cons, List.map_nil, List.cons.injEq, Json.sortKeys, Json.str.injEq,
    and_true] at hv
  obtain ⟨hcomparator, hvalue, hcurrency, hliteral⟩ := hv
  refine ⟨?_, Comparator.text_injective hcomparator, Decimal.value_eq_of_fixedText hvalue, hliteral⟩
  rw [AmountCondition.asDict, AmountCondition.asDict, hcomparator, hvalue, hcurrency, hliteral]

theorem optionalDict_rel {α : Type} {asDict : α → Json} {rel : α → α → Prop}
    (hnull : ∀ a, (asDict a).sortKeys ≠ .null)
    (hrel : ∀ a b, (asDict a).sortKeys = (asDict b).sortKeys → rel a b) {a b : Option α}
    (h : (QueryPlan.optionalDict asDict a).sortKeys = (QueryPlan.optionalDict asDict b).sortKeys) :
    Option.Rel rel a b := by
  cases a with
  | none => cases b with
    | none => exact .none
    | some b => exact absurd h.symm (hnull b)
  | some a => cases b with
    | none => exact absurd h (hnull a)
    | some b => exact .some (hrel a b h)

theorem sortKeys_obj_ne_null (fields : List (String × Json)) :
    (Json.obj fields).sortKeys ≠ .null := by
  rw [Json.sortKeys]
  simp

theorem eq_of_rel_eq {α : Type} {a b : Option α} (h : Option.Rel (· = ·) a b) : a = b := by
  cases h with
  | none => rfl
  | some h => rw [h]

/-- Two plans have the same slots, apart from the topic and the form of an amount. -/
structure Alike (p q : QueryPlan) : Prop where
  queryType : p.queryType = q.queryType
  countUnit : p.countUnit = q.countUnit
  direction : p.direction = q.direction
  date : p.date = q.date
  period : p.period = q.period
  company : p.company = q.company
  themes : p.themes = q.themes
  catalystType : p.catalystType = q.catalystType
  amountCondition : Option.Rel AmountCondition.Alike p.amountCondition q.amountCondition
  outcomeHorizon : p.outcomeHorizon = q.outcomeHorizon
  plannerVersion : p.plannerVersion = q.plannerVersion
  contractVersion : p.contractVersion = q.contractVersion

variable [Sha256]

theorem alike_of_cacheKey_eq (hinj : Function.Injective (hexdigest : String → String))
    {p q : QueryPlan} {versions : Dict String String}
    (h : p.cacheKey versions = q.cacheKey versions) : Alike p q := by
  have hkeys := Json.values_eq_of_sortKeys_eq (sortKeys_eq_of_jsonDigest_eq hinj h) rfl (by simp)
  simp only [List.map_cons, List.map_nil, List.cons.injEq, and_true] at hkeys
  have hplan := Json.values_eq_of_sortKeys_eq hkeys rfl (by simp)
  simp only [List.map_cons, List.map_nil, List.cons.injEq, and_true] at hplan
  obtain ⟨htype, hunit, hdirection, hdate, hperiod, hcompany, hthemes, hcatalyst, hamount, hhorizon,
    hplanner, hcontract⟩ := hplan
  simp only [Json.sortKeys, Json.str.injEq] at htype hunit hplanner hcontract
  rw [sortKeys_optionalText, sortKeys_optionalText] at hdirection
  rw [Json.sortKeys, Json.sortKeys, Json.arr.injEq] at hthemes
  exact
    { queryType := QueryType.text_injective htype
      countUnit := CountUnit.text_injective hunit
      direction := optionalText_map_injective QueryDirection.text_injective hdirection
      date := eq_of_rel_eq (optionalDict_rel (fun _ => sortKeys_obj_ne_null _)
        (fun _ _ => DateSlot.eq_of_sortKeys_eq) hdate)
      period := eq_of_rel_eq (optionalDict_rel (fun _ => sortKeys_obj_ne_null _)
        (fun _ _ => PeriodSlot.eq_of_sortKeys_eq) hperiod)
      company := eq_of_rel_eq (optionalDict_rel (fun _ => sortKeys_obj_ne_null _)
        (fun _ _ => CompanyRef.eq_of_sortKeys_eq) hcompany)
      themes := Json.eq_of_sortItems_eq (fun _ _ => ThemeRef.eq_of_sortKeys_eq) hthemes
      catalystType := eq_of_rel_eq (optionalDict_rel (fun _ => sortKeys_obj_ne_null _)
        (fun _ _ => CatalystTypeRef.eq_of_sortKeys_eq) hcatalyst)
      amountCondition := optionalDict_rel (fun _ => sortKeys_obj_ne_null _)
        (fun _ _ => AmountCondition.alike_of_sortKeys_eq) hamount
      outcomeHorizon := eq_of_rel_eq (optionalDict_rel (by simp [Json.sortKeys])
        (fun a b hab => by simpa [Json.sortKeys] using hab) hhorizon)
      plannerVersion := hplanner
      contractVersion := hcontract }

end Dayjaview.Ontology
