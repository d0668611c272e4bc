import Dayjaview.Calculations.ThemeMetrics
import Dayjaview.Realtime.HotState

/-!
# Dirty themes

An applied update marks the themes its stock belonged to when it was received. A
drain recomputes every marked theme at the latest time it was marked with and
forgets the marks once all of them are computed.
-/

namespace Dayjaview.Realtime

open Dayjaview.Domain Dayjaview.Calculations

/-- What two memberships of a catalog may not share. -/
def catalogKey (m : ThemeMembershipSnapshot) : String × Date × Int × String :=
  (m.themeId, m.effectiveFrom, m.knownAt.instant, m.version)

/-- The memberships of all themes. -/
structure VersionedThemeCatalog where
  snapshots : List ThemeMembershipSnapshot
  nodup : (snapshots.map catalogKey).Nodup

namespace VersionedThemeCatalog

def themeIds (c : VersionedThemeCatalog) : List String :=
  sortedTexts (c.snapshots.map fun m => m.themeId)

/-- The membership of a theme at a decision time. -/
def select (c : VersionedThemeCatalog) (themeId : String) (marketDate : Date)
    (decisionAt : Datetime) : Except Error (Option ThemeMembershipSnapshot) :=
  selectMembershipSnapshot c.snapshots themeId marketDate decisionAt

/-- The themes a stock belonged to at a decision time. -/
def affectedThemes (c : VersionedThemeCatalog) (stockId : String) (marketDate : Date)
    (decisionAt : Datetime) : Except Error (List String) :=
  c.themeIds.filterM fun themeId => do
    let membership ← c.select themeId marketDate decisionAt
    return membership.any fun m => m.contains stockId

end VersionedThemeCatalog

/-- The fields of a marked theme. -/
structure DirtyTheme.Fields where
  themeId : String
  marketDate : Date
  asOf : Datetime

/-- The check of a marked theme. -/
def DirtyTheme.Fields.postInit (d : DirtyTheme.Fields) : Except Error Unit :=
  ensure (isBlank d.themeId = false) "theme_id는 비어 있을 수 없습니다"

structure DirtyTheme extends DirtyTheme.Fields where
  valid : toFields.postInit = .ok ()

/-- Build a marked theme, or report the failed check. -/
def DirtyTheme.make (f : DirtyTheme.Fields) : Except Error DirtyTheme :=
  checked DirtyTheme.Fields.postInit DirtyTheme.mk f

/-- The key of a marked theme: the theme and the trading day. -/
abbrev DirtyKey := String ×ₗ Date

/-- The key of a theme on a trading day. -/
def dirtyKey (themeId : String) (marketDate : Date) : DirtyKey := toLex (themeId, marketDate)

/-- The metrics of a theme at the time they were computed for. -/
structure ThemeMetricUpdate where
  themeId : String
  marketDate : Date
  asOf : Datetime
  membershipVersion : String
  metrics : ThemeMetrics

/-- The catalog, the references, the policy and the marked themes. -/
structure DirtyThemeAggregator where
  catalog : VersionedThemeCatalog
  references : List StockReference
  policy : ThemeCalculationPolicy := THEME_CALCULATION_POLICY_V1
  dirty : Dict DirtyKey DirtyTheme := .empty

namespace DirtyThemeAggregator

/-- Append a reference that became known during the day. -/
def addReference (a : DirtyThemeAggregator) (reference : StockReference) :
    DirtyThemeAggregator :=
  { a with references := a.references ++ [reference] }

/-- Mark some themes one by one; a theme without a name stops the marking. -/
def markThemes (marketDate : Date) (decisionAt : Datetime) :
    List String → Dict DirtyKey DirtyTheme → Except Error Unit × Dict DirtyKey DirtyTheme
  | [], dirty => (.ok (), dirty)
  | themeId :: themeIds, dirty =>
    let key := dirtyKey themeId marketDate
    let asOf := match dirty.get? key with
      | none => decisionAt
      | some previous => Datetime.latest previous.asOf decisionAt
    match DirtyTheme.make { themeId, marketDate, asOf } with
    | .error e => (.error e, dirty)
    | .ok marked => markThemes marketDate decisionAt themeIds (dirty.set key marked)

/-- Mark the themes a stock belonged to at a decision time. -/
def markStock (a : DirtyThemeAggregator) (stockId : String) (marketDate : Date)
    (decisionAt : Datetime) : Except Error (List String) × DirtyThemeAggregator :=
  match a.catalog.affectedThemes stockId marketDate decisionAt with
  | .error e => (.error e, a)
  | .ok affected =>
    let (result, dirty) := markThemes marketDate decisionAt affected a.dirty
    (result.map fun () => affected, { a with dirty })

/-- The marked themes in the order of their keys. -/
def pending (a : DirtyThemeAggregator) : List DirtyTheme := a.dirty.sortedEntries.map Prod.snd

/-- The order in which later references win. -/
def referenceRank (r : StockReference) : Int ×ₗ String := toLex (r.knownAt.instant, r.version)

/-- The latest reference of a stock that was known at a time. -/
def selectReference (a : DirtyThemeAggregator) (marketDate : Date) (asOf : Datetime)
    (stockId : String) : Except Error (Option StockReference) :=
  let eligible := a.references.filter fun r =>
    decide (r.stockId = stockId ∧ r.effectiveFor = marketDate ∧ r.knownAt ≤ asOf)
  match (eligible.insertionSort fun x y => referenceRank x ≤ referenceRank y).getLast? with
  | none => .ok none
  | some latest =>
    if 1 < eligible.countP fun r => r.knownAt.instant = latest.knownAt.instant then
      .error ⟨.valueError, s!"같은 시점에 둘 이상의 reference version이 유효합니다: {stockId}"⟩
    else .ok (some latest)

/-- The references of some stocks at a time. -/
def selectReferences (a : DirtyThemeAggregator) (stockIds : List String) (marketDate : Date)
    (asOf : Datetime) : Except Error (List StockReference) := do
  let selected ← (sortedTexts stockIds).mapM (a.selectReference marketDate asOf)
  return selected.filterMap id

/-- The hot states of some stocks. -/
def statesFor (hot : HotStateStore) (marketDate : Date) (stockIds : List String) :
    List HotStockState :=
  (sortedTexts stockIds).filterMap (hot.get marketDate)

def recompute (a : DirtyThemeAggregator) (hot : HotStateStore) (dirty : DirtyTheme) :
    Except Error ThemeMetricUpdate := do
  match ← a.catalog.select dirty.themeId dirty.marketDate dirty.asOf with
  | none =>
    throw ⟨.valueError,
      s!"dirty theme 계산 시점에 유효한 membership이 없습니다: {dirty.themeId}"⟩
  | some membership =>
    let stockIds := membership.members.map ThemeMember.stockId
    let states := statesFor hot dirty.marketDate stockIds
    let references ← a.selectReferences stockIds dirty.marketDate dirty.asOf
    let metrics ← calculateThemeMetrics dirty.marketDate dirty.asOf membership references
      (states.map fun state => state.toObservation) a.policy
    return {
      themeId := dirty.themeId
      marketDate := dirty.marketDate
      asOf := dirty.asOf
      membershipVersion := membership.version
      metrics }

/-- Recompute all marked themes and forget the marks; a failure keeps all of them. -/
def drain (a : DirtyThemeAggregator) (hot : HotStateStore) :
    Except Error (List ThemeMetricUpdate) × DirtyThemeAggregator :=
  let batch := a.pending
  match batch.mapM (a.recompute hot) with
  | .error e => (.error e, a)
  | .ok updates =>
    (.ok updates,
      { a with
        dirty := batch.foldl (fun d e => d.erase (dirtyKey e.themeId e.marketDate)) a.dirty })

variable {a : DirtyThemeAggregator} {hot : HotStateStore}

theorem recompute_eq_ok {e : DirtyTheme} {m : ThemeMetricUpdate} (h : a.recompute hot e = .ok m) :
    m.themeId = e.themeId ∧ m.marketDate = e.marketDate ∧ m.asOf = e.asOf := by
  rw [recompute, bind_eq_ok] at h
  obtain ⟨membership, -, h⟩ := h
  cases membership with
  | none => cases h
  | some membership =>
    dsimp only at h
    rw [bind_eq_ok] at h
    obtain ⟨references, -, h⟩ := h
    rw [bind_eq_ok] at h
    obtain ⟨metrics, -, h⟩ := h
    cases h
    exact ⟨rfl, rfl, rfl⟩

theorem mem_pending {e : DirtyTheme} :
    e ∈ a.pending ↔ ∃ key, a.dirty.get? key = some e := by
  rw [pending, List.mem_map]
  constructor
  · rintro ⟨⟨key, e⟩, hmem, rfl⟩
    exact ⟨key, a.dirty.mem_entries_iff.mp (a.dirty.sortedEntries_perm.mem_iff.mp hmem)⟩
  · rintro ⟨key, hkey⟩
    exact ⟨(key, e), a.dirty.sortedEntries_perm.mem_iff.mpr (a.dirty.mem_entries_iff.mpr hkey), rfl⟩

private theorem get?_foldl_erase (batch : List DirtyTheme) (d : Dict DirtyKey DirtyTheme)
    (key : DirtyKey) :
    (batch.foldl (fun d e => d.erase (dirtyKey e.themeId e.marketDate)) d).get? key =
      if ∃ e ∈ batch, dirtyKey e.themeId e.marketDate = key then none else d.get? key := by
  induction batch generalizing d with
  | nil => simp
  | cons e batch ih =>
    rw [List.foldl_cons, ih, Dict.get?_erase]
    by_cases hlater : ∃ e ∈ batch, dirtyKey e.themeId e.marketDate = key
    · rw [if_pos hlater, if_pos]
      obtain ⟨e', he', hkey⟩ := hlater
      exact ⟨e', List.mem_cons_of_mem _ he', hkey⟩
    · rw [if_neg hlater]
      by_cases hkey : key = dirtyKey e.themeId e.marketDate
      · rw [if_pos hkey, if_pos ⟨e, List.mem_cons_self .., hkey.symm⟩]
      · rw [if_neg hkey, if_neg]
        rintro ⟨e', he', hkey'⟩
        rcases List.mem_cons.mp he' with rfl | he'
        · exact hkey hkey'.symm
        · exact hlater ⟨e', he', hkey'⟩

theorem drain_eq_ok {updates : List ThemeMetricUpdate} (h : (a.drain hot).1 = .ok updates)
    (hown : ∀ key e, a.dirty.get? key = some e → dirtyKey e.themeId e.marketDate = key) :
    (∀ m ∈ updates, ∃ e ∈ a.pending, a.recompute hot e = .ok m) ∧
      (∀ e ∈ a.pending, ∃ m ∈ updates, a.recompute hot e = .ok m) ∧
      (∀ key, (a.drain hot).2.dirty.get? key = none) ∧
      (a.drain hot).2.catalog = a.catalog := by
  unfold drain at h ⊢
  dsimp only at h ⊢
  cases hbatch : a.pending.mapM (a.recompute hot) with
  | error e => simp [hbatch] at h
  | ok updates' =>
    rw [hbatch] at h
    cases h
    obtain ⟨hright, hleft⟩ := mem_of_mapM_eq_ok hbatch
    refine ⟨hright, hleft, fun key => ?_, rfl⟩
    dsimp only
    rw [get?_foldl_erase]
    split
    · rfl
    · next hnone =>
      cases hkey : a.dirty.get? key with
      | none => rfl
      | some e => exact absurd ⟨e, mem_pending.mpr ⟨key, hkey⟩, hown key e hkey⟩ hnone

theorem drain_of_error {e : Error} (h : (a.drain hot).1 = .error e) : (a.drain hot).2 = a := by
  unfold drain at h ⊢
  dsimp only at h ⊢
  cases hbatch : a.pending.mapM (a.recompute hot) with
  | error e => rfl
  | ok updates =>
    rw [hbatch] at h
    cases h

end DirtyThemeAggregator

end Dayjaview.Realtime
