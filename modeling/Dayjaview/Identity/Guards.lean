import Dayjaview.Identity.Deletion

/-!
# What a guarded call changes

A call that has to come from the session's own user either leaves the tables as they are, but for a
session that had expired and is marked as revoked, or it has been shown the session, the origin and
the token against forged requests, and it changes only what belongs to the session's user.
-/

namespace Dayjaview.Identity

namespace InMemoryIdentityRepository

/-- Nothing changed but that a session that had expired may be marked as revoked. -/
def Lapsed (now : Datetime) (r t : InMemoryIdentityRepository) : Prop :=
  t = r ∨ ∃ key record, r.sessions.get? key = some record ∧ record.revokedAt = none ∧
    record.expiresAt ≤ now ∧
    t = { r with sessions := r.sessions.set key { record with revokedAt := some now } }

/-- No user, role, ticket or saved target changed, and no session that was in time was revoked or
removed. -/
structure Untouched (now : Datetime) (r t : InMemoryIdentityRepository) : Prop where
  users : t.users = r.users
  roles : t.roles = r.roles
  tickets : t.tickets = r.tickets
  saved : t.saved = r.saved
  sessions : ∀ key record, r.sessions.get? key = some record → record.revokedAt = none →
    now < record.expiresAt → t.sessions.get? key = some record

/-- Only what belongs to a user changed. -/
structure OnlyOf (userId : String) (r t : InMemoryIdentityRepository) : Prop where
  oauthStates : t.oauthStates = r.oauthStates
  users : ∀ id, id ≠ userId → t.users.get? id = r.users.get? id
  subjects : ∀ subject id, id ≠ userId →
    (t.userIdsBySubject.get? subject = some id ↔ r.userIdsBySubject.get? subject = some id)
  roles : ∀ id, id ≠ userId → t.roles.get? id = r.roles.get? id
  sessions : ∀ key record, record.userId ≠ userId →
    (t.sessions.get? key = some record ↔ r.sessions.get? key = some record)
  tickets : ∀ key record, record.userId ≠ userId →
    (t.tickets.get? key = some record ↔ r.tickets.get? key = some record)
  saved : ∀ key record, record.userId ≠ userId →
    (t.saved.get? key = some record ↔ r.saved.get? key = some record)

variable {now : Datetime} {r t : InMemoryIdentityRepository} {userId : String}

theorem Lapsed.untouched (h : Lapsed now r t) : Untouched now r t := by
  rcases h with rfl | ⟨key, record, hget, -, hexpired, rfl⟩
  · exact ⟨rfl, rfl, rfl, rfl, fun _ _ hget _ _ => hget⟩
  · refine ⟨rfl, rfl, rfl, rfl, fun key' record' hget' _ hlive => ?_⟩
    rw [Dict.get?_set, if_neg]
    · exact hget'
    · rintro rfl
      obtain rfl := Option.some.inj (hget.symm.trans hget')
      exact absurd hexpired (Int.not_le.mpr hlive)

theorem OnlyOf.refl (userId : String) (r : InMemoryIdentityRepository) : OnlyOf userId r r :=
  ⟨rfl, fun _ _ => rfl, fun _ _ _ => Iff.rfl, fun _ _ => rfl, fun _ _ _ => Iff.rfl,
    fun _ _ _ => Iff.rfl, fun _ _ _ => Iff.rfl⟩

theorem get?_set_iff {κ R : Type} [DecidableEq κ] {table : Dict κ R} {owner : R → String} {key : κ}
    {new : R} (hnew : owner new = userId)
    (hold : ∀ old, table.get? key = some old → owner old = userId)
    (key' : κ) (record : R) (hother : owner record ≠ userId) :
    (table.set key new).get? key' = some record ↔ table.get? key' = some record := by
  rw [Dict.get?_set]
  split
  · next heq =>
    subst heq
    refine ⟨fun hsome => ?_, fun hsome => absurd (hold record hsome) hother⟩
    cases hsome
    exact absurd hnew hother
  · exact Iff.rfl

theorem get?_filterValues_iff {κ R : Type} [DecidableEq κ] {table : Dict κ R} {owner : R → String}
    (key : κ) (record : R) (hother : owner record ≠ userId) :
    (table.filterValues fun r => owner r ≠ userId).get? key = some record ↔
      table.get? key = some record := by
  rw [Dict.get?_filterValues, Option.filter_eq_some_iff]
  exact and_iff_left (decide_eq_true hother)

/-- The ids at the provider lead to the users that have them, and to no others. -/
structure Indexed (r : InMemoryIdentityRepository) : Prop where
  found : ∀ subject id, r.userIdsBySubject.get? subject = some id →
    ∃ user, r.users.get? id = some user ∧ user.googleSubject = subject
  finds : ∀ id user, r.users.get? id = some user →
    r.userIdsBySubject.get? user.googleSubject = some id

theorem indexed_empty : empty.Indexed := ⟨by simp [empty], by simp [empty]⟩

theorem Indexed.of_eq (h : r.Indexed) (husers : t.users = r.users)
    (hsubjects : t.userIdsBySubject = r.userIdsBySubject) : t.Indexed :=
  ⟨by rw [husers, hsubjects]; exact h.found, by rw [husers, hsubjects]; exact h.finds⟩

theorem Indexed.upsertUser (h : r.Indexed) (proposedUserId : String) (identity : GoogleIdentity)
    (now : Datetime) : (r.upsertUser proposedUserId identity now).2.Indexed := by
  unfold InMemoryIdentityRepository.upsertUser
  cases hsubject : r.userIdsBySubject.get? identity.subject with
  | some existingId =>
    obtain ⟨user, huser, hown⟩ := h.found _ _ hsubject
    dsimp only
    rw [huser]
    dsimp only
    refine ⟨fun subject id hid => ?_, fun id other hother => ?_⟩
    · obtain ⟨found, hfound, hsame⟩ := h.found subject id hid
      dsimp only
      rw [Dict.get?_set]
      split
      · next heq =>
        subst heq
        obtain rfl := Option.some.inj (huser.symm.trans hfound)
        exact ⟨_, rfl, hsame⟩
      · exact ⟨found, hfound, hsame⟩
    · dsimp only at hother ⊢
      rw [Dict.get?_set] at hother
      split at hother
      · next heq =>
        subst heq
        cases hother
        exact h.finds _ user huser
      · exact h.finds id other hother
  | none =>
    dsimp only
    split
    · exact h
    · next hnew =>
      have hfree : r.users.get? proposedUserId = none := Option.not_isSome_iff_eq_none.mp hnew
      refine ⟨fun subject id hid => ?_, fun id other hother => ?_⟩
      · dsimp only at hid ⊢
        rw [Dict.get?_set] at hid ⊢
        split at hid
        · next heq =>
          cases hid
          exact ⟨_, if_pos rfl, heq.symm⟩
        · obtain ⟨found, hfound, hsame⟩ := h.found subject id hid
          refine ⟨found, ?_, hsame⟩
          rw [if_neg]
          · exact hfound
          · rintro rfl
            rw [hfree] at hfound
            cases hfound
      · dsimp only at hother ⊢
        rw [Dict.get?_set] at hother ⊢
        split at hother
        · next heq =>
          cases hother
          rw [heq]
          exact if_pos rfl
        · have hfinds := h.finds id other hother
          rw [if_neg]
          · exact hfinds
          · intro heq
            rw [heq, hsubject] at hfinds
            cases hfinds

theorem Indexed.deleteAccount (h : r.Indexed) (userId : String) :
    (r.deleteAccount userId).2.Indexed := by
  unfold InMemoryIdentityRepository.deleteAccount
  cases hget : r.users.get? userId with
  | none => exact h
  | some user =>
    dsimp only
    refine ⟨fun subject id hid => ?_, fun id other hother => ?_⟩
    · dsimp only at hid ⊢
      rw [Dict.get?_erase] at hid
      split at hid
      · cases hid
      · next hne =>
        obtain ⟨found, hfound, hsame⟩ := h.found subject id hid
        refine ⟨found, ?_, hsame⟩
        rw [Dict.get?_erase, if_neg]
        · exact hfound
        · rintro rfl
          obtain rfl := Option.some.inj (hget.symm.trans hfound)
          exact hne hsame.symm
    · dsimp only at hother ⊢
      rw [Dict.get?_erase] at hother
      split at hother
      · cases hother
      · next hne =>
        have hfinds := h.finds id other hother
        rw [Dict.get?_erase, if_neg]
        · exact hfinds
        · intro heq
          rw [heq, h.finds userId user hget] at hfinds
          exact hne (Option.some.inj hfinds).symm

theorem Indexed.perform {α : Type} (h : r.Indexed) (op : RepositoryOp α) :
    (r.perform op).2.Indexed := by
  cases op with
  | upsertUser proposedUserId identity now => exact h.upsertUser proposedUserId identity now
  | deleteAccount userId => exact h.deleteAccount userId
  | _ => exact h.of_eq (perform_users trivial) (perform_subjects trivial)

theorem onlyOf_deleteAccount (h : r.Indexed) (userId : String) :
    OnlyOf userId r (r.deleteAccount userId).2 := by
  unfold InMemoryIdentityRepository.deleteAccount
  cases hget : r.users.get? userId with
  | none => exact .refl userId r
  | some user =>
    refine ⟨rfl, fun id hne => ?_, fun subject id hne => ?_, fun id hne => ?_,
      get?_filterValues_iff, get?_filterValues_iff, get?_filterValues_iff⟩
    · exact (Dict.get?_erase _ _ _).trans (if_neg hne)
    · dsimp only
      rw [Dict.get?_erase]
      split
      · next heq =>
        subst heq
        rw [h.finds userId user hget]
        simpa using Ne.symm hne
      · exact Iff.rfl
    · exact (Dict.get?_erase _ _ _).trans (if_neg hne)

theorem onlyOf_upsertSaved (r : InMemoryIdentityRepository) (record : SavedRecord) :
    OnlyOf record.userId r (r.upsertSaved record).2 := by
  unfold InMemoryIdentityRepository.upsertSaved
  dsimp only
  split
  · exact .refl _ r
  · next hnone =>
    refine ⟨rfl, fun _ _ => rfl, fun _ _ _ => Iff.rfl, fun _ _ => rfl, fun _ _ _ => Iff.rfl,
      fun _ _ _ => Iff.rfl, get?_set_iff rfl fun old hold => ?_⟩
    rw [hnone] at hold
    cases hold

theorem onlyOf_deleteSaved (h : r.Keyed) (userId : String) (savedType : SavedType)
    (targetId : String) :
    OnlyOf userId r { r with saved := r.saved.erase (userId, savedType, targetId) } := by
  refine ⟨rfl, fun _ _ => rfl, fun _ _ _ => Iff.rfl, fun _ _ => rfl, fun _ _ _ => Iff.rfl,
    fun _ _ _ => Iff.rfl, fun key record hne => ?_⟩
  dsimp only
  rw [Dict.get?_erase]
  split
  · next heq =>
    constructor
    · intro hnone
      cases hnone
    · intro hsome
      refine absurd ?_ hne
      rw [h.saved key record hsome, heq]
  · exact Iff.rfl

theorem onlyOf_storeRealtimeTicket {record : RealtimeTicketRecord}
    (hfree : r.tickets.get? record.ticketHash = none) :
    OnlyOf record.userId r { r with tickets := r.tickets.set record.ticketHash record } := by
  refine ⟨rfl, fun _ _ => rfl, fun _ _ _ => Iff.rfl, fun _ _ => rfl, fun _ _ _ => Iff.rfl,
    get?_set_iff rfl fun old hold => ?_, fun _ _ _ => Iff.rfl⟩
  rw [hfree] at hold
  cases hold

theorem onlyOf_revokeSession {key : String} {record : SessionRecord}
    (hget : r.sessions.get? key = some record) (now : Datetime) :
    OnlyOf record.userId r (r.revokeSession key now) := by
  unfold InMemoryIdentityRepository.revokeSession
  rw [hget]
  dsimp only
  split
  · exact .refl _ r
  · refine ⟨rfl, fun _ _ => rfl, fun _ _ _ => Iff.rfl, fun _ _ => rfl,
      get?_set_iff rfl fun old hold => ?_, fun _ _ _ => Iff.rfl, fun _ _ _ => Iff.rfl⟩
    exact congrArg SessionRecord.userId (Option.some.inj (hold.symm.trans hget))

end InMemoryIdentityRepository

end Dayjaview.Identity
