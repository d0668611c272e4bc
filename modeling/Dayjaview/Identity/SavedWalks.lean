import Dayjaview.Core.Clocks
import Dayjaview.Identity.Openings
import Dayjaview.Identity.SavedPages
import Mathlib.Data.Set.Finite.List

/-!
# The saved targets of a running service

A target is saved under its user, kind and id, and only with a valid id, whatever calls are made.
-/

namespace Dayjaview.Identity

section

/-- An operation that saves a target only with a valid id. -/
def SavesValid : {α : Type} → ServiceOp α → Prop
  | _, .inl (.upsertSaved record) => validTargetId record.targetId
  | _, _ => True

namespace SavedTidy

variable {r t : InMemoryIdentityRepository}

theorem empty : SavedTidy .empty := by
  constructor <;> intro key record hget <;> simp [InMemoryIdentityRepository.empty] at hget

theorem of_sub (h : SavedTidy r)
    (hsaved : ∀ key record, t.saved.get? key = some record → r.saved.get? key = some record) :
    SavedTidy t :=
  ⟨fun key record hget => h.key key record (hsaved key record hget),
    fun key record hget => h.target key record (hsaved key record hget)⟩

theorem of_eq (h : SavedTidy r) (hsaved : t.saved = r.saved) : SavedTidy t :=
  h.of_sub fun _ _ hget => hsaved ▸ hget

theorem upsertSaved (h : SavedTidy r) {record : SavedRecord}
    (hvalid : validTargetId record.targetId) : SavedTidy (r.upsertSaved record).2 := by
  unfold InMemoryIdentityRepository.upsertSaved
  dsimp only
  split
  · exact h
  · constructor <;> intro key other hget <;> dsimp only at hget <;>
      rw [Dict.get?_set] at hget <;> split at hget
    · next heq => rw [heq, Option.some.inj hget]
    · exact h.key key other hget
    · rwa [← Option.some.inj hget]
    · exact h.target key other hget

theorem deleteAccount (h : SavedTidy r) (userId : String) :
    SavedTidy (r.deleteAccount userId).2 := by
  unfold InMemoryIdentityRepository.deleteAccount
  cases r.users.get? userId with
  | none => exact h
  | some user =>
    exact h.of_sub fun key record hget => (InMemoryIdentityRepository.get?_filterValues_sub hget).1

theorem perform (h : SavedTidy r) {α : Type} {op : RepositoryOp α}
    (hop : SavesValid (.inl op : ServiceOp α)) : SavedTidy (r.perform op).2 := by
  cases op with
  | upsertSaved record => exact h.upsertSaved hop
  | deleteAccount userId => exact h.deleteAccount userId
  | deleteSaved userId savedType targetId =>
    refine h.of_sub fun key record hget => ?_
    simp only [InMemoryIdentityRepository.perform, Dict.get?_erase] at hget
    split at hget
    · cases hget
    · exact hget
  | _ => exact h.of_eq (InMemoryIdentityRepository.perform_saved trivial)

end SavedTidy

variable {α : Type}

theorem onlySavesValid_of_grant {p : Service α} (h : p.Only GrantOp) : p.Only SavesValid := by
  refine h.mono fun op hop => ?_
  cases op with
  | inl op =>
    cases op with
    | upsertSaved => exact hop.elim
    | _ => trivial
  | inr op => trivial

theorem onlySavesValid_of_session {p : Service α} (h : p.Only SessionOp) : p.Only SavesValid :=
  onlySavesValid_of_grant (h.mono fun _ => grantOp_of_sessionOp)

variable [Sha256] (policy : IdentityPolicy)

theorem savesValid_openSession (user : User) (now : Datetime) (returnTo : String) :
    (openSession policy user now returnTo).Only SavesValid :=
  (Program.only_call trivial).bind fun _ => (Program.only_call trivial).bind fun _ =>
    (Program.only_ofExcept _).bind fun _ => (Program.only_call trivial).bind fun _ =>
    (Program.only_call trivial).bind fun _ => Program.only_pure _

theorem savesValid_saveItem (secrets : RequestSecrets) (savedType : SavedType) (targetId : String)
    (target : Option TargetRecord) :
    (saveItem policy secrets savedType targetId target).Only SavesValid := by
  refine (onlySavesValid_of_session (only_authorizeMutation policy secrets)).bind fun principal =>
    ?_
  rw [require]
  split
  · next hvalid =>
    rw [Program.pure_bind]
    cases target with
    | none => exact Program.only_raise _
    | some target =>
      exact (only_require _ _).bind fun _ => (only_require _ _).bind fun _ =>
        (Program.only_call trivial).bind fun now => (Program.only_call hvalid).bind fun record =>
        Program.only_pure _
  · rw [Program.raise_bind]
    exact Program.only_raise _

theorem savesValid_unsaveItem (secrets : RequestSecrets) (savedType : SavedType)
    (targetId : String) : (unsaveItem policy secrets savedType targetId).Only SavesValid :=
  (onlySavesValid_of_session (only_authorizeMutation policy secrets)).bind fun _ =>
    (only_require _ _).bind fun _ => (Program.only_call trivial).bind fun _ => Program.only_pure _

theorem savesValid_deleteAccount (secrets : RequestSecrets) :
    (deleteAccount policy secrets).Only SavesValid :=
  (onlySavesValid_of_session (only_authorizeMutation policy secrets)).bind fun _ =>
    (Program.only_call trivial).bind fun _ => (only_require _ _).bind fun _ =>
    (Program.only_call trivial).bind fun _ => only_require _ _

variable [UnicodeTable]

theorem savesValid_completeGoogleLogin (code state browserNonce : String)
    (currentSessionToken : Option String) (exchanged : Except Error GoogleIdentity) :
    (completeGoogleLogin policy code state browserNonce currentSessionToken exchanged).Only
      SavesValid := by
  refine (only_require _ _).bind fun _ => (Program.only_call trivial).bind fun now =>
    (Program.only_call trivial).bind fun oauthState => ?_
  cases oauthState with
  | none => exact Program.only_raise _
  | some oauthState =>
    have hopen : ∀ user : User, (do
        revokeToken currentSessionToken now
        openSession policy user now oauthState.returnTo :
        Service LoginCompletion).Only SavesValid :=
      fun user => (onlySavesValid_of_session (only_revokeToken _ _)).bind fun _ =>
      savesValid_openSession _ _ _ _
    refine (Program.only_ofExcept _).bind fun identity => (only_require _ _).bind fun _ =>
      (Program.only_call trivial).bind fun userToken =>
      (Program.only_call trivial).bind fun upserted =>
      (Program.only_ofExcept _).bind fun user => (Program.only_call trivial).bind fun added =>
      (Program.only_ofExcept _).bind fun _ => ?_
    dsimp only
    split
    · exact (Program.only_call trivial).bind fun added => (Program.only_ofExcept _).bind fun _ =>
        hopen user
    · exact hopen user

theorem savesValid_program (call : ServiceCall) : (call.program policy).Only SavesValid := by
  have hsession : ∀ {β : Type} {p : Service β} {f : β → Service ServiceAnswer}, p.Only SessionOp →
      (∀ b, (f b).Only SavesValid) → (p >>= f).Only SavesValid :=
    fun hp hf => (onlySavesValid_of_session hp).bind hf
  cases call with
  | beginGoogleLogin returnTo authorizationUrl =>
    exact (onlySavesValid_of_grant (only_beginGoogleLogin policy _ _)).bind fun _ =>
      Program.only_pure _
  | completeGoogleLogin code state browserNonce currentSessionToken exchanged =>
    exact (savesValid_completeGoogleLogin policy _ _ _ _ _).bind fun _ => Program.only_pure _
  | authenticate sessionToken => exact hsession (only_authenticate _) fun _ => Program.only_pure _
  | refreshPrincipal principal =>
    exact hsession (only_refreshPrincipal _) fun _ => Program.only_pure _
  | authorizeQuestion secrets =>
    exact hsession (only_authorizeMutation policy _) fun _ => Program.only_pure _
  | logout secrets => exact hsession (only_logout policy _) fun _ => Program.only_pure _
  | issueRealtimeTicket secrets =>
    exact (onlySavesValid_of_grant (only_issueRealtimeTicket policy _)).bind fun _ =>
      Program.only_pure _
  | consumeRealtimeTicket ticket origin =>
    exact (onlySavesValid_of_grant (only_consumeRealtimeTicket policy _ _)).bind fun _ =>
      Program.only_pure _
  | saveItem secrets savedType targetId target =>
    exact (savesValid_saveItem policy _ _ _ _).bind fun _ => Program.only_pure _
  | unsaveItem secrets savedType targetId =>
    exact (savesValid_unsaveItem policy _ _ _).bind fun _ => Program.only_pure _
  | deleteAccount secrets =>
    exact (savesValid_deleteAccount policy _).bind fun _ => Program.only_pure _

variable {x : Surroundings} {s : IdentityState}

omit [Sha256] [UnicodeTable] in
theorem keeps_savedTidy {p : Service α} (hp : p.Only SavesValid) :
    p.Keeps (handler x) fun s => SavedTidy s.repository := by
  refine hp.keeps fun op t hop ht => ?_
  cases op with
  | inl op => exact ht.perform hop
  | inr op =>
    cases op with
    | now => exact ht
    | createToken n => exact ht

theorem savedTidy_afterCall (h : SavedTidy s.repository) (call : ServiceCall) :
    SavedTidy (afterCall x policy s call).repository :=
  keeps_savedTidy (savesValid_program policy call) s h

theorem savedTidy_afterCalls (calls : List ServiceCall) :
    SavedTidy (afterCalls x policy calls).repository := by
  induction calls using List.reverseRecOn with
  | nil => exact .empty
  | append_singleton calls call ih =>
    rw [afterCalls_append]
    exact savedTidy_afterCall policy ih call

end

open Paging

/-- The places of targets with valid ids. -/
def places : Set (ℤᵒᵈ ×ₗ String ×ₗ String) :=
  { place | ∃ savedAt targetId savedType, targetId.length ≤ 128 ∧
    place = placeOf savedAt targetId savedType }

theorem instant_mem_Icc (t : Datetime) :
    t.instant ∈ Set.Icc (-86400000000) (((Date.lastOrdinal + 2) * 86400000000 : ℕ) : ℤ) := by
  obtain ⟨hhour, hminute, hsecond, hmicros, hoffset⟩ := t.valid
  have hdate := t.date.toOrdinal_le_lastOrdinal
  rw [Set.mem_Icc, Datetime.instant]
  unfold dayMicros at hoffset
  omega

theorem finite_chars : Finite Char := by
  refine Finite.of_injective (fun c : Char => c.val.toBitVec.toFin) fun c d h => ?_
  exact Char.ext (UInt32.toBitVec_inj.mp (BitVec.toFin_inj.mp h))

theorem finite_strings (n : Nat) : {s : String | s.length ≤ n}.Finite := by
  have := finite_chars
  refine ((List.finite_length_le Char n).image String.ofList).subset fun s hs => ?_
  exact ⟨s.toList, hs, String.ofList_toList⟩

theorem finite_places : places.Finite := by
  have hkinds : (Set.univ : Set SavedType).Finite :=
    (Set.toFinite {SavedType.theme, .stock, .event}).subset fun kind _ => by cases kind <;> simp
  have hparts :=
    (Set.finite_Icc (-86400000000) (((Date.lastOrdinal + 2) * 86400000000 : ℕ) : ℤ)).prod
    ((finite_strings 128).prod hkinds)
  refine (hparts.image fun p => toLex (OrderDual.toDual p.1, tieKey p.2.1 p.2.2)).subset ?_
  rintro _ ⟨savedAt, targetId, savedType, hlength, rfl⟩
  exact ⟨(savedAt.instant, targetId, savedType), ⟨instant_mem_Icc savedAt, hlength, Set.mem_univ _⟩,
    rfl⟩

/-- The cursor position of a record. -/
def SavedRecord.position (record : SavedRecord) : CursorPosition :=
  ⟨record.savedAt, record.targetId, record.savedType⟩

@[simp] theorem place_position (record : SavedRecord) : record.position.place = record.place := rfl

/-- What a shown target has of its record. -/
def SavedItem.position (item : SavedItem) : CursorPosition :=
  ⟨item.savedAt, item.targetId, item.savedType⟩

@[simp] theorem position_projectSaved (catalog : TargetCatalog) (record : SavedRecord)
    (roles : Finset Role) : (projectSaved catalog record roles).position = record.position := by
  unfold projectSaved
  split
  · rfl
  · split
    · rfl
    · split <;> rfl

theorem length_filterName (savedType : Option SavedType) : (filterName savedType).length ≤ 5 := by
  rcases savedType with - | - | - | - <;> decide

theorem filter_isAfter (position : CursorPosition) (records : List SavedRecord) :
    records.filter (isAfter · position) = behind SavedRecord.place
      (some position.place) records := by
  refine List.filter_congr fun record _ => ?_
  rw [Bool.eq_iff_iff, isAfter_iff, decide_eq_true_iff]

section Pages

variable [HmacSha256] [JsonRuntime] [WideText] {codec : SignedCursorCodec} {catalog : TargetCatalog}
variable {r : InMemoryIdentityRepository} {principal : SessionPrincipal}
  {savedType : Option SavedType} {limit : Int}

omit [JsonRuntime] [WideText] in
theorem cutPage_behind (position : Option CursorPosition) (records : List SavedRecord) :
    let place := position.map CursorPosition.place
    cutPage codec catalog principal savedType limit (behind SavedRecord.place place records) =
      ⟨(page SavedRecord.place limit.toNat place records).map fun record =>
          projectSaved catalog record principal.roles,
        if more SavedRecord.place limit.toNat place records then
          (page SavedRecord.place limit.toNat place records).getLast?.map fun last =>
            codec.encode principal.user.userId (filterName savedType) last.position
        else none,
        more SavedRecord.place limit.toNat place records, limit⟩ := by
  intro place
  have hvisible :
      ((behind SavedRecord.place place records).take (limit.toNat + 1)).take limit.toNat =
      page SavedRecord.place limit.toNat place records := by
    rw [List.take_take, min_eq_left (Nat.le_succ _), page]
  have hmore : decide
      (limit.toNat < ((behind SavedRecord.place place records).take (limit.toNat + 1)).length) =
      more SavedRecord.place limit.toNat place records := by
    rw [more, List.length_take, Bool.eq_iff_iff, decide_eq_true_iff, decide_eq_true_iff]
    omega
  unfold cutPage
  simp only [hvisible, hmore]
  rfl

theorem listPage_eq (hlimit : 1 ≤ limit ∧ limit ≤ 100) {cursor : Option String}
    {position : Option CursorPosition}
    (hstart : startPosition codec principal.user.userId (filterName savedType) cursor =
      .ok position) :
    listPage codec catalog r principal savedType cursor limit =
      .ok (cutPage codec catalog principal savedType limit (behind SavedRecord.place
        (position.map CursorPosition.place) (r.listSaved principal.user.userId savedType))) := by
  rw [listPage, if_neg (not_not.mpr hlimit), hstart]
  cases position with
  | none => rfl
  | some position =>
    show Except.ok (cutPage codec catalog principal savedType limit
      ((r.listSaved principal.user.userId savedType).filter (isAfter · position))) = _
    rw [filter_isAfter]
    rfl

theorem startPosition_encode (hruntime : 0 < JsonRuntime.recursionLimit) (userId : String)
    {position : CursorPosition} (htarget : position.targetId.length ≤ 128) :
    startPosition codec userId (filterName savedType)
      (some (codec.encode userId (filterName savedType) position)) = .ok (some position) := by
  have hlength := codec.length_encode_le userId (filterName savedType) position
    (length_filterName savedType) htarget
  have hne : codec.encode userId (filterName savedType) position ≠ "" := by
    intro h
    have htoList := congrArg String.toList h
    simp [SignedCursorCodec.encode] at htoList
  rw [startPosition, if_neg (not_or.mpr ⟨hne, Nat.not_lt.mpr hlength⟩),
    codec.decode_encode userId (filterName savedType) position hruntime]
  rfl

end Pages

section Lists

variable (userId : String) (savedType : Option SavedType)

/-- The list of a user in each of some tables. -/
def listsOf (tables : List InMemoryIdentityRepository) (k : Nat) : List SavedRecord :=
  ((tables[k]?).map fun r => r.listSaved userId savedType).getD []

variable {userId} {savedType} {tables : List InMemoryIdentityRepository}

theorem listsOf_append_of_lt (r : InMemoryIdentityRepository) {k : Nat} (h : k < tables.length) :
    listsOf userId savedType tables k = listsOf userId savedType (tables ++ [r]) k := by
  rw [listsOf, listsOf, List.getElem?_append_left h]

theorem listsOf_append_self (r : InMemoryIdentityRepository) :
    listsOf userId savedType (tables ++ [r]) tables.length = r.listSaved userId savedType := by
  rw [listsOf, List.getElem?_concat_length]
  rfl

theorem mem_listsOf {k : Nat} {record : SavedRecord}
    (h : record ∈ listsOf userId savedType tables k) :
    ∃ r ∈ tables, r.Lists userId savedType record := by
  rw [listsOf] at h
  cases hget : tables[k]? with
  | none => simp [hget] at h
  | some r =>
    rw [hget] at h
    exact ⟨r, List.mem_of_getElem? hget, InMemoryIdentityRepository.mem_listSaved.mp h⟩

theorem pairwise_listsOf (h : ∀ r ∈ tables, SavedTidy r) (k : Nat) :
    (listsOf userId savedType tables k).Pairwise fun a b => a.place < b.place := by
  rw [listsOf]
  cases hget : tables[k]? with
  | none => exact List.Pairwise.nil
  | some r => exact InMemoryIdentityRepository.pairwise_listSaved (h r (List.mem_of_getElem? hget))

theorem SavedTidy.length_targetId_le {r : InMemoryIdentityRepository} (h : SavedTidy r)
    {record : SavedRecord}
    (hrecord : r.Lists userId savedType record) : record.targetId.length ≤ 128 := by
  obtain ⟨key, hget⟩ := r.saved.mem_values_iff.mp hrecord.1
  exact (h.target key record hget).1.2

theorem SavedTidy.eq_of_lists {r : InMemoryIdentityRepository} (h : SavedTidy r) {a b : SavedRecord}
    (ha : r.Lists userId savedType a) (hb : r.Lists userId savedType b)
    (htype : a.savedType = b.savedType) (htarget : a.targetId = b.targetId) : a = b := by
  obtain ⟨key, hget⟩ := r.saved.mem_values_iff.mp ha.1
  obtain ⟨key', hget'⟩ := r.saved.mem_values_iff.mp hb.1
  have hsame : key = key' := by
    rw [h.key key a hget, h.key key' b hget', ha.2.1, hb.2.1, htype, htarget]
  rw [hsame, hget'] at hget
  exact (Option.some.inj hget).symm

theorem place_mem_places (h : ∀ r ∈ tables, SavedTidy r) (k : Nat) :
    ∀ record ∈ listsOf userId savedType tables k, record.place ∈ places := by
  intro record hrecord
  obtain ⟨r, hr, hlists⟩ := mem_listsOf hrecord
  exact ⟨_, _, _, (h r hr).length_targetId_le hlists, rfl⟩

end Lists

/-- What is shown on some pages. -/
def shownItems (shown : List SavedPage) : List SavedItem := shown.flatMap SavedPage.items

section Progress

variable [HmacSha256] (codec : SignedCursorCodec) (userId : String) (savedType : Option SavedType)
  (limit : Int)

/-- A cursor says a place, the missing one that nothing was shown. -/
inductive CursorAt : Option String → Option CursorPosition → Prop where
  | first : CursorAt none none
  | next (position : CursorPosition) (htarget : position.targetId.length ≤ 128) :
      CursorAt (some (codec.encode userId (filterName savedType) position)) (some position)

inductive Progress (shown : List SavedPage) (tables : List InMemoryIdentityRepository)
    (cursor : Option String) : Prop where
  | going {seen : List SavedRecord} {position : Option CursorPosition}
      (walk : Walk SavedRecord.place limit.toNat (listsOf userId savedType tables)
        tables.length seen (position.map CursorPosition.place))
      (hcursor : CursorAt codec userId savedType cursor position)
      (hshown : (shownItems shown).map SavedItem.position = seen.map SavedRecord.position)
  | ended {k : Nat} {seen : List SavedRecord} {place : Option (ℤᵒᵈ ×ₗ String ×ₗ String)}
      (walk : Walk SavedRecord.place limit.toNat (listsOf userId savedType tables) k seen place)
      (hlength : tables.length = k + 1)
      (hmore : more SavedRecord.place limit.toNat place (listsOf userId savedType tables k) = false)
      (hcursor : cursor = none)
      (hshown : (shownItems shown).map SavedItem.position =
        (seen ++ page SavedRecord.place limit.toNat place (listsOf userId savedType tables k)).map
          SavedRecord.position)

structure WalkHolds (s : IdentityState) (shown : List SavedPage)
    (tables : List InMemoryIdentityRepository) (cursor : Option String) : Prop where
  tidy : SavedTidy s.repository
  tidyTables : ∀ r ∈ tables, SavedTidy r
  length : shown.length = tables.length
  progress : Progress codec userId savedType limit shown tables cursor

variable {codec} {userId} {savedType} {limit} {tables : List InMemoryIdentityRepository}
variable {s : IdentityState} {shown : List SavedPage} {cursor : Option String}
  {position : Option CursorPosition}

theorem CursorAt.startPosition_eq [JsonRuntime] [WideText]
    (hruntime : 0 < JsonRuntime.recursionLimit)
    (h : CursorAt codec userId savedType cursor position) :
    startPosition codec userId (filterName savedType) cursor = .ok position := by
  cases h with
  | first => rfl
  | next position htarget => exact startPosition_encode hruntime userId htarget

theorem WalkHolds.going (h : WalkHolds codec userId savedType limit s shown tables cursor)
    (hopen : shown = [] ∨ cursor ≠ none) :
    ∃ seen position, Walk SavedRecord.place limit.toNat
      (listsOf userId savedType tables) tables.length seen
        (position.map CursorPosition.place) ∧
      CursorAt codec userId savedType cursor position ∧
      (shownItems shown).map SavedItem.position = seen.map SavedRecord.position := by
  rcases h.progress with ⟨walk, hcursor, hshown⟩ | ⟨walk, hlength, hmore, hcursor, hshown⟩
  · exact ⟨_, _, walk, hcursor, hshown⟩
  · rcases hopen with rfl | hne
    · have hzero := h.length
      rw [List.length_nil] at hzero
      omega
    · exact absurd hcursor hne

theorem WalkHolds.ended (h : WalkHolds codec userId savedType limit s shown tables none)
    (hshown : shown ≠ []) :
    ∃ k seen place, Walk SavedRecord.place limit.toNat
      (listsOf userId savedType tables) k seen place ∧ tables.length = k + 1 ∧
      more SavedRecord.place limit.toNat place (listsOf userId savedType tables k) = false ∧
      (shownItems shown).map SavedItem.position =
        (seen ++ page SavedRecord.place limit.toNat place (listsOf userId savedType tables k)).map
          SavedRecord.position := by
  rcases h.progress with ⟨walk, hcursor, -⟩ | ⟨walk, hlength, hmore, -, hitems⟩
  · cases hcursor
    have hzero : tables.length = 0 := by
      generalize tables.length = n at walk
      cases walk
      rfl
    exact absurd (List.length_eq_zero_iff.mp (h.length.trans hzero)) hshown
  · exact ⟨_, _, _, walk, hlength, hmore, hitems⟩

theorem WalkHolds.sorted (h : WalkHolds codec userId savedType limit s shown tables cursor) :
    ∃ seen : List SavedRecord, (shownItems shown).map SavedItem.position =
      seen.map SavedRecord.position ∧ (seen.Pairwise fun a b => a.place < b.place) ∧
      ∀ record ∈ seen, ∃ r ∈ tables, r.Lists userId savedType record := by
  have hsorted : ∀ k, (listsOf userId savedType tables k).Pairwise fun a b => a.place < b.place :=
    pairwise_listsOf h.tidyTables
  rcases h.progress with ⟨walk, -, hshown⟩ | ⟨walk, -, -, -, hshown⟩
  · refine ⟨_, hshown, (walk.holds hsorted).sorted, fun record hrecord => ?_⟩
    obtain ⟨j, -, hmem⟩ := (walk.holds hsorted).there record hrecord
    exact mem_listsOf hmem
  · refine ⟨_, hshown, walk.sorted hsorted, fun record hrecord => ?_⟩
    obtain ⟨j, -, hmem⟩ := walk.there hsorted hrecord
    exact mem_listsOf hmem

theorem WalkHolds.length_le (h : WalkHolds codec userId savedType limit s shown tables cursor)
    (hlimit : 1 ≤ limit) : shown.length ≤ places.ncard + 1 := by
  have hsorted : ∀ k, (listsOf userId savedType tables k).Pairwise fun a b => a.place < b.place :=
    pairwise_listsOf h.tidyTables
  have hplaces : ∀ k, ∀ record ∈ listsOf userId savedType tables k, record.place ∈ places :=
    place_mem_places h.tidyTables
  rw [h.length]
  rcases h.progress with ⟨walk, -, -⟩ | ⟨walk, hlength, -, -, -⟩
  · have hle := walk.le_ncard (by omega) hsorted finite_places hplaces
    omega
  · have hle := walk.le_ncard (by omega) hsorted finite_places hplaces
    omega

theorem WalkHolds.shows_once (h : WalkHolds codec userId savedType limit s shown tables none)
    (hshown : shown ≠ [])
    {record : SavedRecord} (hrecord : ∀ r ∈ tables, r.Lists userId savedType record) :
    ((shownItems shown).filter fun item =>
      decide (item.savedType = record.savedType ∧ item.targetId = record.targetId)).map
        SavedItem.savedAt =
      [record.savedAt] := by
  obtain ⟨k, seen, place, walk, hlength, hmore, hitems⟩ := h.ended hshown
  have hsorted : ∀ k, (listsOf userId savedType tables k).Pairwise fun a b => a.place < b.place :=
    pairwise_listsOf h.tidyTables
  have hall : ∀ j ≤ k, record ∈ listsOf userId savedType tables j := by
    intro j hj
    have hlt : j < tables.length := by omega
    rw [listsOf, List.getElem?_eq_getElem hlt]
    exact InMemoryIdentityRepository.mem_listSaved.mpr (hrecord _ (List.getElem_mem hlt))
  have hmem := walk.complete hsorted hmore hall
  have hunique : ∀ other ∈ seen ++ Paging.page SavedRecord.place limit.toNat place
      (listsOf userId savedType tables k),
      decide (other.savedType = record.savedType ∧ other.targetId = record.targetId) = true →
        other = record := by
    intro other hother hsame
    obtain ⟨htype, htarget⟩ := of_decide_eq_true hsame
    obtain ⟨j, -, hlisted⟩ := walk.there hsorted hother
    obtain ⟨r, hr, hlists⟩ := mem_listsOf hlisted
    exact (h.tidyTables r hr).eq_of_lists hlists (hrecord r hr) htype htarget
  have hsingle := filter_eq_singleton (walk.sorted hsorted) hmem (by simp) hunique
  have hpositions :=
    congrArg (fun positions : List CursorPosition => (positions.filter fun position =>
    decide (position.savedType = record.savedType ∧ position.targetId = record.targetId)).map
      CursorPosition.savedAt) hitems
  simp only [List.filter_map, List.map_map] at hpositions
  refine hpositions.trans ?_
  show List.map _
      (List.filter (fun other : SavedRecord => decide (other.savedType = record.savedType ∧
    other.targetId = record.targetId)) _) = _
  rw [hsingle]
  rfl

theorem WalkHolds.page [JsonRuntime] [WideText] (catalog : TargetCatalog)
    {principal : SessionPrincipal}
    {t : IdentityState}
    (h : WalkHolds codec principal.user.userId savedType limit s shown tables cursor)
    (hlimit : 1 ≤ limit ∧ limit ≤ 100) (hruntime : 0 < JsonRuntime.recursionLimit)
    (hopen : shown = [] ∨ cursor ≠ none) (htidy : SavedTidy t.repository) :
    ∃ page, listPage codec catalog t.repository principal savedType cursor limit = .ok page ∧
      WalkHolds codec principal.user.userId savedType limit t (shown ++ [page])
      (tables ++ [t.repository])
        page.nextCursor := by
  obtain ⟨seen, position, walk, hcursor, hshown⟩ := h.going hopen
  refine ⟨_, listPage_eq hlimit (hcursor.startPosition_eq hruntime), ?_⟩
  have hwalk := walk.congr fun j hj => listsOf_append_of_lt t.repository hj
  have htidyTables : ∀ r ∈ tables ++ [t.repository], SavedTidy r := by
    intro r hr
    rcases List.mem_append.mp hr with hr | hr
    · exact h.tidyTables r hr
    · exact List.mem_singleton.mp hr ▸ htidy
  have hlength :
      ∀ page : SavedPage, (shown ++ [page]).length = (tables ++ [t.repository]).length := by
    intro page
    rw [List.length_append, List.length_append, h.length, List.length_singleton,
      List.length_singleton]
  refine ⟨htidy, htidyTables, hlength _, ?_⟩
  have hlist : t.repository.listSaved principal.user.userId savedType =
      listsOf principal.user.userId savedType (tables ++ [t.repository]) tables.length :=
    (listsOf_append_self t.repository).symm
  rw [hlist, cutPage_behind]
  have hitems : ∀ (records : List SavedRecord) (next : Option String) (hasMore : Bool),
      (shownItems (shown ++
        [⟨records.map fun record => projectSaved catalog record principal.roles, next, hasMore,
        limit⟩])).map SavedItem.position = (seen ++ records).map SavedRecord.position := by
    intro records next hasMore
    rw [shownItems, List.flatMap_append, List.map_append, ← shownItems, hshown, List.map_append,
      List.flatMap_singleton, List.map_map]
    congr 1
    exact List.map_congr_left fun record _ => position_projectSaved catalog record principal.roles
  cases hmore : more SavedRecord.place limit.toNat (position.map CursorPosition.place)
      (listsOf principal.user.userId savedType (tables ++ [t.repository]) tables.length) with
  | false =>
    exact .ended hwalk (by rw [List.length_append, List.length_singleton]) hmore rfl (hitems _ _ _)
  | true =>
    have hfull := length_page_of_more hmore
    obtain ⟨last, hlast⟩ :
        ∃ last, (Paging.page SavedRecord.place limit.toNat (position.map CursorPosition.place)
        (listsOf principal.user.userId savedType (tables ++ [t.repository]) tables.length)).getLast?
        = some last := by
      refine Option.isSome_iff_exists.mp (List.getLast?_isSome.mpr fun hnil => ?_)
      rw [hnil, List.length_nil] at hfull
      omega
    have hmem := mem_of_mem_page (List.mem_of_getLast? hlast)
    rw [← hlist] at hmem
    have htarget := htidy.length_targetId_le (InMemoryIdentityRepository.mem_listSaved.mp hmem.1)
    have hnext := hwalk.next hmore hlast
    simp only [hlast, if_true, Option.map_some]
    refine .going ?_ (.next last.position htarget) (hitems _ _ _)
    rw [List.length_append, List.length_singleton]
    exact hnext

end Progress

section Walks

variable [Sha256] [UnicodeTable] [HmacSha256] [JsonRuntime] [WideText]
variable (x : Surroundings) (policy : IdentityPolicy) (codec : SignedCursorCodec)
variable (userId : String) (savedType : Option SavedType) (limit : Int)

/-- A user walks the pages of a list: the state, the pages so far, the tables they were read from,
and the cursor that the last one ended with. -/
inductive SavedWalk :
    IdentityState → List SavedPage → List InMemoryIdentityRepository → Option String → Prop where
  | start (calls : List ServiceCall) : SavedWalk (afterCalls x policy calls) [] [] none
  /-- Any call is made, by anyone. -/
  | call {s : IdentityState} {shown : List SavedPage} {tables : List InMemoryIdentityRepository}
      {cursor : Option String} (walk : SavedWalk s shown tables cursor) (call : ServiceCall) :
      SavedWalk (afterCall x policy s call) shown tables cursor
  /-- The user takes the first page, or the next one. -/
  | page {s t : IdentityState} {shown : List SavedPage} {tables : List InMemoryIdentityRepository}
      {cursor sessionToken : Option String} {principal : SessionPrincipal} {catalog : TargetCatalog}
      {page : SavedPage} (walk : SavedWalk s shown tables cursor)
      (hopen : shown = [] ∨ cursor ≠ none)
      (hlogged : (requireAuthenticated sessionToken).finish (handler x) s = (.ok principal, t))
      (huser : principal.user.userId = userId)
      (hpage : listSavedItems x codec catalog s sessionToken savedType cursor limit =
        (.ok page, t)) :
      SavedWalk t (shown ++ [page]) (tables ++ [t.repository]) page.nextCursor

variable {x} {policy} {codec} {userId} {savedType} {limit} {s t : IdentityState}
  {shown : List SavedPage}
variable {tables : List InMemoryIdentityRepository} {cursor sessionToken : Option String}
variable {principal : SessionPrincipal} {catalog : TargetCatalog}

omit [UnicodeTable] [HmacSha256] [JsonRuntime] [WideText] in
theorem savedTidy_requireAuthenticated (h : SavedTidy s.repository)
    (hlogged : (requireAuthenticated sessionToken).finish (handler x) s = (.ok principal, t)) :
    SavedTidy t.repository := by
  have honly : (requireAuthenticated sessionToken).Only SavesValid := by
    refine (onlySavesValid_of_session (only_authenticate sessionToken)).bind fun principal => ?_
    cases principal with
    | none => exact Program.only_raise _
    | some principal => exact Program.only_pure _
  have hkept := keeps_savedTidy (x := x) honly s h
  rwa [hlogged] at hkept

omit [UnicodeTable] in
theorem listSavedItems_of_logged
    (hlogged : (requireAuthenticated sessionToken).finish (handler x) s = (.ok principal, t)) :
    listSavedItems x codec catalog s sessionToken savedType cursor limit =
      (listPage codec catalog t.repository principal savedType cursor limit, t) := by
  rw [listSavedItems, hlogged]

theorem SavedWalk.holds (walk : SavedWalk x policy codec userId savedType limit s shown
      tables cursor)
    (hlimit : 1 ≤ limit ∧ limit ≤ 100) (hruntime : 0 < JsonRuntime.recursionLimit) :
    WalkHolds codec userId savedType limit s shown tables cursor := by
  induction walk with
  | start calls =>
    refine ⟨savedTidy_afterCalls policy calls, fun r hr => (by cases hr), rfl, ?_⟩
    exact @Progress.going _ _ _ _ _ _ _ _ [] none .start .first rfl
  | call walk call ih =>
    exact ⟨savedTidy_afterCall policy ih.tidy call, ih.tidyTables, ih.length, ih.progress⟩
  | page walk hopen hlogged huser hpage ih =>
    subst huser
    obtain ⟨page, heq, hholds⟩ :=
      ih.page _ hlimit hruntime hopen (savedTidy_requireAuthenticated ih.tidy hlogged)
    rw [listSavedItems_of_logged hlogged, heq] at hpage
    obtain rfl := Except.ok.inj (Prod.mk.inj hpage).1
    exact hholds

/-- Whatever is called between the pages, every cursor is taken back, the pages come to an end, they
show what was saved in the order of the places, and what was always saved exactly once. -/
theorem savedWalk_lossless (x : Surroundings) (policy : IdentityPolicy) (codec : SignedCursorCodec)
    (userId : String) (savedType : Option SavedType) (limit : Int)
    (hlimit : 1 ≤ limit ∧ limit ≤ 100) (hruntime : 0 < JsonRuntime.recursionLimit) :
    (∀ s shown tables cursor,
      SavedWalk x policy codec userId savedType limit s shown tables cursor →
      shown = [] ∨ cursor ≠ none → ∀ sessionToken catalog principal t,
      (requireAuthenticated sessionToken).finish (handler x) s = (.ok principal, t) →
      principal.user.userId = userId →
      ∃ page, listSavedItems x codec catalog s sessionToken savedType cursor limit =
      (.ok page, t)) ∧
    (∃ bound, ∀ s shown tables cursor,
      SavedWalk x policy codec userId savedType limit s shown tables cursor →
      shown.length ≤ bound) ∧
    (∀ s shown tables cursor,
      SavedWalk x policy codec userId savedType limit s shown tables cursor →
      ((shownItems shown).Pairwise fun a b => a.place < b.place) ∧
      ∀ item ∈ shownItems shown, ∃ r ∈ tables, ∃ record, r.Lists userId savedType record ∧
        item.position = record.position) ∧
    ∀ s shown tables, SavedWalk x policy codec userId savedType limit s shown tables none →
    shown ≠ [] →
      ∀ record, (∀ r ∈ tables, r.Lists userId savedType record) →
      ((shownItems shown).filter fun item =>
        decide (item.savedType = record.savedType ∧ item.targetId = record.targetId)).map
          SavedItem.savedAt =
        [record.savedAt] := by
  refine ⟨fun s shown tables cursor walk hopen sessionToken catalog principal t hlogged huser => ?_,
    ⟨places.ncard + 1, fun s shown tables cursor walk => (walk.holds hlimit hruntime).length_le
      hlimit.1⟩,
    fun s shown tables cursor walk => ?_, fun s shown tables walk hshown record hrecord =>
      (walk.holds hlimit hruntime).shows_once hshown hrecord⟩
  · subst huser
    have hholds := walk.holds hlimit hruntime
    obtain ⟨page, heq, -⟩ := hholds.page catalog hlimit hruntime hopen
      (savedTidy_requireAuthenticated hholds.tidy hlogged)
    exact ⟨page, by rw [listSavedItems_of_logged hlogged, heq]⟩
  · obtain ⟨seen, hshown, hsorted, hthere⟩ := (walk.holds hlimit hruntime).sorted
    have hplaces : (shownItems shown).map SavedItem.place = seen.map SavedRecord.place := by
      have hmap := congrArg (List.map CursorPosition.place) hshown
      rwa [List.map_map, List.map_map] at hmap
    refine ⟨List.pairwise_map.mp (hplaces ▸ List.pairwise_map.mpr hsorted), fun item hitem => ?_⟩
    have hmem := List.mem_map_of_mem (f := SavedItem.position) hitem
    rw [hshown] at hmem
    obtain ⟨record, hrecord, hsame⟩ := List.mem_map.mp hmem
    obtain ⟨r, hr, hlists⟩ := hthere record hrecord
    exact ⟨r, hr, record, hlists, hsame.symm⟩

end Walks

def zeroCodec : SignedCursorCodec := ⟨List.replicate 32 0, by decide⟩

/-- Someone who logged in walks in pages of twenty. -/
theorem savedWalk_lossless_firstLogin :
    letI : Sha256 := .ofTable []
    letI : UnicodeTable := .ascii
    letI : HmacSha256 := ⟨fun _ _ => Vector.replicate 32 0⟩
    letI : JsonRuntime := ⟨1000, fun _ => ⟨"NaN".toList, by decide⟩⟩
    letI : WideText := ⟨fun _ => .error ⟨.unicodeDecodeError, ""⟩⟩
    (∃ bound, ∀ s shown tables cursor,
      SavedWalk stillSurroundings publicPolicy zeroCodec "usr_aaa" none 20 s shown tables cursor →
      shown.length ≤ bound) ∧
    ∀ s shown tables,
      SavedWalk stillSurroundings publicPolicy zeroCodec "usr_aaa" none 20 s shown tables none →
      ((shownItems shown).Pairwise fun a b => a.place < b.place) ∧
      (shown ≠ [] → ∀ record, (∀ r ∈ tables, r.Lists "usr_aaa" none record) →
        ((shownItems shown).filter fun item =>
          decide (item.savedType = record.savedType ∧ item.targetId = record.targetId)).map
            SavedItem.savedAt =
          [record.savedAt]) := by
  let _ : Sha256 := .ofTable []
  let _ : UnicodeTable := .ascii
  let _ : HmacSha256 := ⟨fun _ _ => Vector.replicate 32 0⟩
  let _ : JsonRuntime := ⟨1000, fun _ => ⟨"NaN".toList, by decide⟩⟩
  let _ : WideText := ⟨fun _ => .error ⟨.unicodeDecodeError, ""⟩⟩
  have hlimit : (1 : Int) ≤ 20 ∧ (20 : Int) ≤ 100 := by decide
  have hruntime : 0 < JsonRuntime.recursionLimit := by show 0 < 1000; decide
  obtain ⟨-, hbound, hordered, honce⟩ := savedWalk_lossless stillSurroundings publicPolicy
    zeroCodec "usr_aaa" none 20 hlimit hruntime
  exact ⟨hbound, fun s shown tables walk =>
    ⟨(hordered s shown tables none walk).1, honce s shown tables walk⟩⟩

end Dayjaview.Identity
