import Dayjaview.Core.Calendar
import Dayjaview.Core.Dict
import Dayjaview.Core.Error
import Dayjaview.Core.Json

/-!
# Users, sessions and tickets

The records of the identity service and the errors it answers with. Secrets are
kept as digests only.
-/

namespace Dayjaview.Identity

inductive Role where
  | user
  | historicalPilot
  | operator
  deriving DecidableEq

/-- The kinds of things that can be saved. -/
inductive SavedType where
  | theme
  | stock
  | event
  deriving DecidableEq

/-- Whether a target can be shown. -/
inductive Availability where
  | available
  | unavailable
  deriving DecidableEq

/-- Who the provider says a person is. -/
structure GoogleIdentity where
  subject : String
  displayName : String
  email : Option String := none
  emailVerified : Bool := false

structure User where
  userId : String
  googleSubject : String
  displayName : String
  email : Option String
  emailVerified : Bool
  createdAt : Datetime
  lastAuthenticatedAt : Datetime
  deriving DecidableEq

structure OAuthStateRecord where
  stateHash : String
  browserNonceHash : String
  returnTo : String
  createdAt : Datetime
  expiresAt : Datetime
  consumedAt : Option Datetime := none
  deriving DecidableEq

structure SessionRecord where
  tokenHash : String
  userId : String
  csrfTokenHash : String
  createdAt : Datetime
  expiresAt : Datetime
  authenticatedAt : Datetime
  revokedAt : Option Datetime := none
  deriving DecidableEq

/-- A ticket for the realtime connection. -/
structure RealtimeTicketRecord where
  ticketHash : String
  sessionTokenHash : String
  userId : String
  origin : String
  createdAt : Datetime
  expiresAt : Datetime
  consumedAt : Option Datetime := none
  deriving DecidableEq

structure SavedRecord where
  userId : String
  savedType : SavedType
  targetId : String
  displayNameSnapshot : String
  savedAt : Datetime

structure TargetRecord where
  displayName : String
  availability : Availability := .available
  requiredRole : Option Role := none

structure SessionPrincipal where
  sessionTokenHash : String
  user : User
  roles : Finset Role
  authenticatedAt : Datetime
  expiresAt : Datetime
  deriving DecidableEq

/-- A login that was begun, for the browser. -/
structure OAuthLoginStart where
  authorizationUrl : String
  browserNonce : String
  expiresAt : Datetime
  deriving DecidableEq

/-- A login that was completed. -/
structure LoginCompletion where
  sessionToken : String
  csrfToken : String
  expiresAt : Datetime
  returnTo : String
  user : User
  roles : Finset Role
  deriving DecidableEq

structure RealtimeTicket where
  ticket : String
  expiresAt : Datetime
  deriving DecidableEq

/-- The answer to saving or removing a target. -/
structure SavedMutation where
  savedType : SavedType
  targetId : String
  saved : Bool
  savedAt : Option Datetime
  deriving DecidableEq

/-- A request that is not well formed. -/
def invalidRequest (message : String) : Error := ⟨.invalidRequest, message⟩

/-- A request without a session. -/
def authenticationRequired : Error := ⟨.authenticationRequired, "로그인이 필요합니다."⟩

/-- A request beyond the user's roles. -/
def featureNotEntitled : Error := ⟨.featureNotEntitled, "이 기능을 사용할 권한이 없습니다."⟩

/-- A request that may be forged. -/
def csrfValidationFailed : Error :=
  ⟨.csrfValidationFailed, "요청의 보안 정보를 확인할 수 없습니다."⟩

/-- A deletion long after the login. -/
def recentAuthenticationRequired : Error :=
  ⟨.recentAuthenticationRequired, "계정 삭제를 계속하려면 최근 로그인이 필요합니다."⟩

/-- A target that is not there. -/
def resourceNotFound : Error := ⟨.resourceNotFound, "요청한 항목을 찾을 수 없습니다."⟩

/-- A login that cannot be completed. -/
def oauthCallbackRejected : Error :=
  ⟨.oauthCallbackRejected, "로그인 요청을 확인할 수 없습니다. 다시 로그인해 주세요."⟩

/-- The digest a secret is kept as. -/
def tokenHash [Sha256] (value : String) : String := hexdigest value

structure InMemoryIdentityRepository where
  oauthStates : Dict String OAuthStateRecord
  users : Dict String User
  userIdsBySubject : Dict String String
  roles : Dict String (Finset Role)
  sessions : Dict String SessionRecord
  tickets : Dict String RealtimeTicketRecord
  saved : Dict (String × SavedType × String) SavedRecord

/-- An operation of the repository, with the type of its result. -/
inductive RepositoryOp : Type → Type where
  /-- Remember a login that was begun. -/
  | storeOauthState (record : OAuthStateRecord) : RepositoryOp Unit
  /-- Use a login that was begun. -/
  | consumeOauthState (stateHash browserNonceHash : String) (now : Datetime) :
      RepositoryOp (Option OAuthStateRecord)
  | getUser (userId : String) : RepositoryOp (Option User)
  /-- Find or create the user of an identity. -/
  | upsertUser (proposedUserId : String) (identity : GoogleIdentity) (now : Datetime) :
      RepositoryOp (Except Error User)
  | addRole (userId : String) (role : Role) : RepositoryOp (Except Error Unit)
  | getRoles (userId : String) : RepositoryOp (Finset Role)
  | storeSession (record : SessionRecord) : RepositoryOp Unit
  | getSession (tokenHash : String) : RepositoryOp (Option SessionRecord)
  | revokeSession (tokenHash : String) (now : Datetime) : RepositoryOp Unit
  | storeRealtimeTicket (record : RealtimeTicketRecord) : RepositoryOp Unit
  | consumeRealtimeTicket (ticketHash origin : String) (now : Datetime) :
      RepositoryOp (Option RealtimeTicketRecord)
  | upsertSaved (record : SavedRecord) : RepositoryOp SavedRecord
  | deleteSaved (userId : String) (savedType : SavedType) (targetId : String) :
      RepositoryOp (Option SavedRecord)
  /-- Delete the account of a user. -/
  | deleteAccount (userId : String) : RepositoryOp Bool
  | purgeExpired (now : Datetime) : RepositoryOp Int

namespace InMemoryIdentityRepository

def empty : InMemoryIdentityRepository := ⟨.empty, .empty, .empty, .empty, .empty, .empty, .empty⟩

/-- Delete what has expired; the result counts it. -/
def purgeExpired (r : InMemoryIdentityRepository) (now : Datetime) :
    Int × InMemoryIdentityRepository :=
  let oauthStates := r.oauthStates.filterValues fun record => now < record.expiresAt
  let sessions := r.sessions.filterValues fun record => now < record.expiresAt
  let tickets := r.tickets.filterValues fun record => now < record.expiresAt
  let before : Int := r.oauthStates.keys.length + r.sessions.keys.length + r.tickets.keys.length
  (before - oauthStates.keys.length - sessions.keys.length - tickets.keys.length,
    { r with oauthStates, sessions, tickets })

/-- Use a login that was begun, once, in time and from the browser it was begun in. -/
def consumeOauthState (r : InMemoryIdentityRepository) (stateHash browserNonceHash : String)
    (now : Datetime) : Option OAuthStateRecord × InMemoryIdentityRepository :=
  match r.oauthStates.get? stateHash with
  | none => (none, r)
  | some record =>
    if record.consumedAt.isSome ∨ record.expiresAt ≤ now then (none, r)
    else if record.browserNonceHash ≠ browserNonceHash then (none, r)
    else
      let consumed := { record with consumedAt := some now }
      (some consumed, { r with oauthStates := r.oauthStates.set stateHash consumed })

/-- The user of an identity, brought up to date, or a new one under the proposed id. -/
def upsertUser (r : InMemoryIdentityRepository) (proposedUserId : String)
    (identity : GoogleIdentity) (now : Datetime) : Except Error User × InMemoryIdentityRepository :=
  match r.userIdsBySubject.get? identity.subject with
  | some existingId =>
    match r.users.get? existingId with
    | none => (.error ⟨.keyError, existingId⟩, r)
    | some existing =>
      let updated := { existing with
        displayName := identity.displayName
        email := identity.email
        emailVerified := identity.emailVerified
        lastAuthenticatedAt := now }
      (.ok updated, { r with users := r.users.set existingId updated })
  | none =>
    if (r.users.get? proposedUserId).isSome then
      (.error ⟨.valueError, "proposed user ID already exists"⟩, r)
    else
      let user := ⟨proposedUserId, identity.subject, identity.displayName, identity.email,
        identity.emailVerified, now, now⟩
      (.ok user, { r with
        users := r.users.set proposedUserId user
        userIdsBySubject := r.userIdsBySubject.set identity.subject proposedUserId
        roles := r.roles.set proposedUserId {.user} })

def addRole (r : InMemoryIdentityRepository) (userId : String) (role : Role) :
    Except Error Unit × InMemoryIdentityRepository :=
  if (r.users.get? userId).isNone then (.error ⟨.keyError, userId⟩, r)
  else
    let roles := (r.roles.get? userId).getD {.user}
    (.ok (), { r with roles := r.roles.set userId (insert role roles) })

def revokeSession (r : InMemoryIdentityRepository) (tokenHash : String) (now : Datetime) :
    InMemoryIdentityRepository :=
  match r.sessions.get? tokenHash with
  | none => r
  | some record =>
    if record.revokedAt.isSome then r
    else { r with sessions := r.sessions.set tokenHash { record with revokedAt := some now } }

/-- Use a ticket, once, in time and from its origin. -/
def consumeRealtimeTicket (r : InMemoryIdentityRepository) (ticketHash origin : String)
    (now : Datetime) : Option RealtimeTicketRecord × InMemoryIdentityRepository :=
  match r.tickets.get? ticketHash with
  | none => (none, r)
  | some record =>
    if record.consumedAt.isSome ∨ record.expiresAt ≤ now then (none, r)
    else if record.origin ≠ origin then (none, r)
    else
      let consumed := { record with consumedAt := some now }
      (some consumed, { r with tickets := r.tickets.set ticketHash consumed })

/-- Save a target unless it is saved. -/
def upsertSaved (r : InMemoryIdentityRepository) (record : SavedRecord) :
    SavedRecord × InMemoryIdentityRepository :=
  let key := (record.userId, record.savedType, record.targetId)
  match r.saved.get? key with
  | some existing => (existing, r)
  | none => (record, { r with saved := r.saved.set key record })

/-- Delete a user with everything that is theirs. -/
def deleteAccount (r : InMemoryIdentityRepository) (userId : String) :
    Bool × InMemoryIdentityRepository :=
  match r.users.get? userId with
  | none => (false, r)
  | some user =>
    (true, { r with
      users := r.users.erase userId
      userIdsBySubject := r.userIdsBySubject.erase user.googleSubject
      roles := r.roles.erase userId
      sessions := r.sessions.filterValues fun record => record.userId ≠ userId
      tickets := r.tickets.filterValues fun record => record.userId ≠ userId
      saved := r.saved.filterValues fun record => record.userId ≠ userId })

def perform (r : InMemoryIdentityRepository) :
    {α : Type} → RepositoryOp α → α × InMemoryIdentityRepository
  | _, .storeOauthState record =>
    ((), { r with oauthStates := r.oauthStates.set record.stateHash record })
  | _, .consumeOauthState stateHash nonceHash now => r.consumeOauthState stateHash nonceHash now
  | _, .getUser userId => (r.users.get? userId, r)
  | _, .upsertUser proposedUserId identity now => r.upsertUser proposedUserId identity now
  | _, .addRole userId role => r.addRole userId role
  | _, .getRoles userId => ((r.roles.get? userId).getD ∅, r)
  | _, .storeSession record => ((), { r with sessions := r.sessions.set record.tokenHash record })
  | _, .getSession tokenHash => (r.sessions.get? tokenHash, r)
  | _, .revokeSession tokenHash now => ((), r.revokeSession tokenHash now)
  | _, .storeRealtimeTicket record =>
    ((), { r with tickets := r.tickets.set record.ticketHash record })
  | _, .consumeRealtimeTicket ticketHash origin now => r.consumeRealtimeTicket ticketHash origin now
  | _, .upsertSaved record => r.upsertSaved record
  | _, .deleteSaved userId savedType targetId =>
    (r.saved.get? (userId, savedType, targetId),
      { r with saved := r.saved.erase (userId, savedType, targetId) })
  | _, .deleteAccount userId => r.deleteAccount userId
  | _, .purgeExpired now => r.purgeExpired now

theorem consumeOauthState_cases (r : InMemoryIdentityRepository) (stateHash nonceHash : String)
    (now : Datetime) : r.consumeOauthState stateHash nonceHash now = (none, r) ∨
      ∃ record, r.oauthStates.get? stateHash = some record ∧ record.consumedAt = none ∧
        now < record.expiresAt ∧ r.consumeOauthState stateHash nonceHash now =
          (some { record with consumedAt := some now },
            { r with oauthStates :=
                r.oauthStates.set stateHash { record with consumedAt := some now } }) := by
  unfold consumeOauthState
  cases hget : r.oauthStates.get? stateHash with
  | none => exact .inl rfl
  | some record =>
    dsimp only
    split
    · exact .inl rfl
    · next hgood =>
      obtain ⟨hunused, hintime⟩ := not_or.mp hgood
      split
      · exact .inl rfl
      · exact .inr ⟨record, rfl, Option.not_isSome_iff_eq_none.mp hunused,
          Datetime.lt_def.mpr (Int.not_le.mp hintime), rfl⟩

theorem consumeRealtimeTicket_cases (r : InMemoryIdentityRepository) (ticketHash origin : String)
    (now : Datetime) : r.consumeRealtimeTicket ticketHash origin now = (none, r) ∨
      ∃ record, r.tickets.get? ticketHash = some record ∧ record.consumedAt = none ∧
        now < record.expiresAt ∧ r.consumeRealtimeTicket ticketHash origin now =
          (some { record with consumedAt := some now },
            { r with tickets :=
                r.tickets.set ticketHash { record with consumedAt := some now } }) := by
  unfold consumeRealtimeTicket
  cases hget : r.tickets.get? ticketHash with
  | none => exact .inl rfl
  | some record =>
    dsimp only
    split
    · exact .inl rfl
    · next hgood =>
      obtain ⟨hunused, hintime⟩ := not_or.mp hgood
      split
      · exact .inl rfl
      · exact .inr ⟨record, rfl, Option.not_isSome_iff_eq_none.mp hunused,
          Datetime.lt_def.mpr (Int.not_le.mp hintime), rfl⟩

theorem upsertUser_cases (r : InMemoryIdentityRepository) (proposedUserId : String)
    (identity : GoogleIdentity) (now : Datetime) :
    (∃ e, r.upsertUser proposedUserId identity now = (.error e, r)) ∨
      (∃ userId existing updated, r.userIdsBySubject.get? identity.subject = some userId ∧
        r.users.get? userId = some existing ∧ updated.userId = existing.userId ∧
        r.upsertUser proposedUserId identity now =
          (.ok updated, { r with users := r.users.set userId updated })) ∨
      ∃ user, r.userIdsBySubject.get? identity.subject = none ∧
        r.users.get? proposedUserId = none ∧ user.userId = proposedUserId ∧
        r.upsertUser proposedUserId identity now = (.ok user, { r with
          users := r.users.set proposedUserId user
          userIdsBySubject := r.userIdsBySubject.set identity.subject proposedUserId
          roles := r.roles.set proposedUserId {.user} }) := by
  unfold upsertUser
  cases hsubject : r.userIdsBySubject.get? identity.subject with
  | some userId =>
    dsimp only
    cases hget : r.users.get? userId with
    | none => exact .inl ⟨_, rfl⟩
    | some existing =>
      exact .inr (.inl ⟨userId, existing, { existing with
        displayName := identity.displayName
        email := identity.email
        emailVerified := identity.emailVerified
        lastAuthenticatedAt := now }, rfl, hget, rfl, rfl⟩)
  | none =>
    dsimp only
    split
    · exact .inl ⟨_, rfl⟩
    · next hnew =>
      exact .inr (.inr ⟨⟨proposedUserId, identity.subject, identity.displayName, identity.email,
        identity.emailVerified, now, now⟩, rfl, Option.not_isSome_iff_eq_none.mp hnew, rfl, rfl⟩)

end InMemoryIdentityRepository

end Dayjaview.Identity
