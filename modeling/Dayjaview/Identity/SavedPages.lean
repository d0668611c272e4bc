import Dayjaview.Core.JsonValue
import Dayjaview.Core.Paging
import Dayjaview.Identity.Cursors
import Dayjaview.Identity.Service

/-!
# Pages of saved targets

The saved targets of a user are listed newest first, those of one instant by target and kind. A page
ends with a cursor if more stands behind it, and the next page begins behind that cursor.
-/

namespace Dayjaview.Identity

open Paging

/-- What is known of an event by now. -/
structure SavedCurrentState where
  eventId : String
  eventState : String
  weightedReturn : Option Double
  dataStatus : String
  asOf : Datetime

/-- A target of the catalog with what is shown of it. -/
structure CatalogTarget extends TargetRecord where
  unavailableReason : Option String := none
  currentState : Option SavedCurrentState := none

/-- A saved target as it is shown. -/
structure SavedItem where
  savedType : SavedType
  targetId : String
  displayName : String
  savedAt : Datetime
  availability : Availability
  unavailableReason : Option String
  currentState : Option SavedCurrentState

structure SavedPage where
  items : List SavedItem
  nextCursor : Option String
  hasMore : Bool
  limit : Int

/-- What can be looked up in the catalog. -/
abbrev TargetCatalog := SavedType → String → Option CatalogTarget

/-- The order of the saved targets of one instant. -/
def tieKey (targetId : String) (savedType : SavedType) : String ×ₗ String :=
  toLex (targetId, savedType.value)

namespace InMemoryIdentityRepository

/-- The saved targets of a user, newest first. -/
def listSaved (r : InMemoryIdentityRepository) (userId : String) (savedType : Option SavedType) :
    List SavedRecord :=
  let records := r.saved.values.filter fun record =>
    decide (record.userId = userId) && savedType.all fun savedType =>
      decide (record.savedType = savedType)
  let records := records.insertionSort fun a b =>
    tieKey a.targetId a.savedType ≤ tieKey b.targetId b.savedType
  records.insertionSort fun a b => b.savedAt ≤ a.savedAt

end InMemoryIdentityRepository

/-- A saved target stands behind a place. -/
def isAfter (record : SavedRecord) (position : CursorPosition) : Bool :=
  if record.savedAt.instant ≠ position.savedAt.instant then
      decide (record.savedAt < position.savedAt)
  else decide
    (tieKey position.targetId position.savedType < tieKey record.targetId record.savedType)

/-- A saved target as a user with some roles sees it. -/
def projectSaved (catalog : TargetCatalog) (record : SavedRecord) (roles : Finset Role) :
    SavedItem :=
  match catalog record.savedType record.targetId with
  | none =>
    ⟨record.savedType, record.targetId, record.displayNameSnapshot, record.savedAt, .unavailable,
      some "RESOURCE_NOT_FOUND", none⟩
  | some target =>
    if ∃ role ∈ target.requiredRole, role ∉ roles then
      ⟨record.savedType, record.targetId, record.displayNameSnapshot, record.savedAt, .unavailable,
        some "FEATURE_NOT_ENTITLED", none⟩
    else if target.availability = .unavailable then
      ⟨record.savedType, record.targetId, target.displayName, record.savedAt, .unavailable,
        some ((target.unavailableReason.filter (· ≠ "")).getD "RESOURCE_NOT_FOUND"), none⟩
    else ⟨record.savedType, record.targetId, target.displayName, record.savedAt, .available, none,
      target.currentState⟩

/-- The filter as it is written in a cursor. -/
def filterName (savedType : Option SavedType) : String := (savedType.map SavedType.value).getD "ALL"

section Pages

variable [HmacSha256] [JsonRuntime] [WideText]

/-- The place that a cursor asks to go on from. -/
def startPosition (codec : SignedCursorCodec) (userId savedFilter : String) :
    Option String → Except Error (Option CursorPosition)
  | none => .ok none
  | some cursor =>
    if cursor = "" ∨ 4096 < cursor.length then .error invalidCursor
    else (codec.decode cursor userId savedFilter).map some

/-- The first of the records, with a cursor if there are more. -/
def cutPage (codec : SignedCursorCodec) (catalog : TargetCatalog) (principal : SessionPrincipal)
    (savedType : Option SavedType) (limit : Int) (records : List SavedRecord) : SavedPage :=
  let selected := records.take (limit.toNat + 1)
  let hasMore := decide (limit.toNat < selected.length)
  let visible := selected.take limit.toNat
  let nextCursor :=
    if hasMore then visible.getLast?.map fun last =>
      codec.encode principal.user.userId (filterName savedType)
      ⟨last.savedAt, last.targetId, last.savedType⟩
    else none
  ⟨visible.map fun record => projectSaved catalog record principal.roles, nextCursor,
    hasMore, limit⟩

/-- A page for a user who is logged in. -/
def listPage (codec : SignedCursorCodec) (catalog : TargetCatalog) (r : InMemoryIdentityRepository)
    (principal : SessionPrincipal) (savedType : Option SavedType) (cursor : Option String)
    (limit : Int) : Except Error SavedPage :=
  if ¬(1 ≤ limit ∧ limit ≤ 100) then
    .error (invalidRequest "관심 목록은 한 번에 1개에서 100개까지 조회할 수 있습니다.")
  else do
    let position ← startPosition codec principal.user.userId (filterName savedType) cursor
    let records := r.listSaved principal.user.userId savedType
    let records := match position with
      | none => records
      | some position => records.filter (isAfter · position)
    return cutPage codec catalog principal savedType limit records

/-- A call for a page, with the state after it. -/
def listSavedItems [Sha256] (x : Surroundings) (codec : SignedCursorCodec) (catalog : TargetCatalog)
    (s : IdentityState) (sessionToken : Option String) (savedType : Option SavedType)
    (cursor : Option String) (limit : Int) : Except Error SavedPage × IdentityState :=
  match (requireAuthenticated sessionToken).finish (handler x) s with
  | (.error e, t) => (.error e, t)
  | (.ok principal, t) => (listPage codec catalog t.repository principal savedType cursor limit, t)

end Pages

/-- The place of a saved target in a list. -/
def placeOf (savedAt : Datetime) (targetId : String) (savedType : SavedType) :
    ℤᵒᵈ ×ₗ String ×ₗ String :=
  toLex (OrderDual.toDual savedAt.instant, tieKey targetId savedType)

def SavedRecord.place (record : SavedRecord) : ℤᵒᵈ ×ₗ String ×ₗ String :=
  placeOf record.savedAt record.targetId record.savedType

def CursorPosition.place (position : CursorPosition) : ℤᵒᵈ ×ₗ String ×ₗ String :=
  placeOf position.savedAt position.targetId position.savedType

/-- The place of a shown target. -/
def SavedItem.place (item : SavedItem) : ℤᵒᵈ ×ₗ String ×ₗ String :=
  placeOf item.savedAt item.targetId item.savedType

theorem SavedType.value_injective : Function.Injective SavedType.value := by
  intro a b h
  have hvalue := congrArg SavedType.ofValue h
  rw [ofValue_value, ofValue_value] at hvalue
  exact Option.some.inj hvalue

theorem placeOf_eq_iff {savedAt savedAt' : Datetime} {targetId targetId' : String}
    {savedType savedType' : SavedType} :
    placeOf savedAt targetId savedType = placeOf savedAt' targetId' savedType' ↔
      savedAt.instant = savedAt'.instant ∧ targetId = targetId' ∧ savedType = savedType' := by
  simp only [placeOf, tieKey, toLex_inj, Prod.mk.injEq, OrderDual.toDual_inj,
    SavedType.value_injective.eq_iff]

/-- A record stands behind a cursor if it is older, or of the same instant and later in the order of
targets. -/
theorem isAfter_iff {record : SavedRecord} {position : CursorPosition} :
    isAfter record position = true ↔ position.place < record.place := by
  rw [isAfter, CursorPosition.place, SavedRecord.place, placeOf, placeOf, Prod.Lex.toLex_lt_toLex,
    OrderDual.toDual_lt_toDual, OrderDual.toDual_inj]
  split
  · next hne =>
    rw [decide_eq_true_iff, Datetime.lt_def]
    exact ⟨.inl, fun h => h.resolve_right fun heq => hne heq.1.symm⟩
  · next heq =>
    rw [not_not] at heq
    rw [decide_eq_true_iff]
    exact ⟨fun h => .inr ⟨heq.symm, h⟩, fun h => (h.resolve_left fun hlt => hlt.ne heq).2⟩

/-- Saved targets are stored by user, kind and target, and their targets have valid ids. -/
structure SavedTidy (r : InMemoryIdentityRepository) : Prop where
  key : ∀ key record, r.saved.get? key = some record →
    key = (record.userId, record.savedType, record.targetId)
  target : ∀ key record, r.saved.get? key = some record → validTargetId record.targetId

namespace InMemoryIdentityRepository

variable {r : InMemoryIdentityRepository} {userId : String} {savedType : Option SavedType}

def Lists (r : InMemoryIdentityRepository) (userId : String) (savedType : Option SavedType)
    (record : SavedRecord) : Prop :=
  record ∈ r.saved.values ∧ record.userId = userId ∧ ∀ kind ∈ savedType, record.savedType = kind

theorem mem_listSaved {record : SavedRecord} : record ∈ r.listSaved userId savedType ↔
    r.Lists userId savedType record := by
  simp only [listSaved, List.mem_insertionSort, List.mem_filter, Lists]
  cases savedType <;> simp

theorem pairwise_key_listSaved (h : SavedTidy r) (userId : String) (savedType : Option SavedType) :
    (r.listSaved userId savedType).Pairwise fun a b =>
      (a.userId, a.savedType, a.targetId) ≠ (b.userId, b.savedType, b.targetId) := by
  have hvalues : r.saved.values.Pairwise fun a b =>
      (a.userId, a.savedType, a.targetId) ≠ (b.userId, b.savedType, b.targetId) := by
    refine List.pairwise_map.mpr
      ((List.pairwise_map.mp r.saved.nodup).imp_of_mem fun {a b} ha hb hne => ?_)
    rw [← h.key a.1 a.2 (r.saved.mem_entries_iff.mp ha),
      ← h.key b.1 b.2 (r.saved.mem_entries_iff.mp hb)]
    exact hne
  have hperm : (r.listSaved userId savedType).Perm (r.saved.values.filter fun record =>
      decide (record.userId = userId) && savedType.all fun savedType =>
        decide (record.savedType = savedType)) :=
    (List.perm_insertionSort _ _).trans (List.perm_insertionSort _ _)
  exact (hperm.pairwise_iff fun hne => hne.symm).mpr (hvalues.filter _)

theorem pairwise_listSaved (h : SavedTidy r) :
    (r.listSaved userId savedType).Pairwise fun a b => a.place < b.place := by
  have : Std.Total fun a b : SavedRecord => b.savedAt ≤ a.savedAt :=
    ⟨fun a b => le_total b.savedAt.instant a.savedAt.instant⟩
  have : IsTrans SavedRecord fun a b => b.savedAt ≤ a.savedAt := ⟨fun _ _ _ h h' => le_trans h' h⟩
  have : Std.Total fun a b : SavedRecord => tieKey a.targetId a.savedType ≤
      tieKey b.targetId b.savedType :=
    ⟨fun a b => le_total _ _⟩
  have : IsTrans SavedRecord fun a b => tieKey a.targetId a.savedType ≤
      tieKey b.targetId b.savedType :=
    ⟨fun _ _ _ h h' => le_trans h h'⟩
  have hle : (r.listSaved userId savedType).Pairwise fun a b => a.place ≤ b.place := by
    refine (pairwise_insertionSort_stable (List.pairwise_insertionSort _ _)).imp fun {a b} hab => ?_
    rw [SavedRecord.place, SavedRecord.place, placeOf, placeOf, Prod.Lex.toLex_le_toLex,
      OrderDual.toDual_lt_toDual, OrderDual.toDual_inj]
    have hinstant : b.savedAt.instant ≤ a.savedAt.instant := hab.1
    rcases lt_or_eq_of_le hinstant with hlt | heq
    · exact .inl hlt
    · exact .inr ⟨heq.symm, hab.2 heq.ge⟩
  have hne : (r.listSaved userId savedType).Pairwise fun a b => a.place ≠ b.place := by
    have hkeys := pairwise_key_listSaved h userId savedType
    refine hkeys.imp_of_mem fun {a b} ha hb hkey hplace => hkey ?_
    obtain ⟨-, htarget, htype⟩ := placeOf_eq_iff.mp hplace
    rw [(mem_listSaved.mp ha).2.1, (mem_listSaved.mp hb).2.1, htarget, htype]
  exact (hle.and hne).imp fun h => lt_of_le_of_ne h.1 h.2

end InMemoryIdentityRepository

end Dayjaview.Identity
