import Dayjaview.Core.Program
import Dayjaview.Core.Timedelta
import Dayjaview.Identity.Repository

/-!
# The identity service

Each call of the service is a program over the operations of the repository, the
clock and the source of random tokens, so that it can run to its end or give way
to other calls between two operations. What the login provider and the catalog of
targets answer is an argument of the call.
-/

namespace Dayjaview.Identity

section

/-- What the service asks of its surroundings. -/
inductive SurroundingOp : Type → Type where
  | now : SurroundingOp Datetime
  | createToken (numberOfBytes : Nat) : SurroundingOp String

/-- An operation of the service. -/
abbrev ServiceOp (α : Type) : Type := RepositoryOp α ⊕ SurroundingOp α

abbrev Service (α : Type) : Type 1 := Program ServiceOp α

/-- An operation of the repository. -/
def repository {α : Type} (op : RepositoryOp α) : Service α := .call (.inl op)

def readClock : Service Datetime := .call (.inr .now)

def createToken (numberOfBytes : Nat) : Service String := .call (.inr (.createToken numberOfBytes))

/-- Go on only if a condition holds. -/
def require (p : Prop) [Decidable p] (e : Error) : Service Unit := if p then pure () else .raise e

/-- The settings of the service; durations are in microseconds. -/
structure IdentityPolicy where
  allowedOrigin : String
  validateInternalReturnTo : Option String → String
  sessionTtl : Int
  oauthStateTtl : Int
  realtimeTicketTtl : Int
  recentAuthenticationWindow : Int
  operatorBootstrapEmails : List String
  valid : 0 < sessionTtl ∧ 0 < oauthStateTtl ∧ 0 < realtimeTicketTtl ∧
    0 < recentAuthenticationWindow

variable [Sha256] [UnicodeTable]

/-- A mail address regardless of blanks and case. -/
def normalizeEmail (value : String) : String := casefoldText (strip value)

/-- A text has a length within bounds. -/
def lengthWithin (lower upper : Nat) (value : String) : Prop :=
  lower ≤ value.length ∧ value.length ≤ upper

instance (lower upper : Nat) (value : String) : Decidable (lengthWithin lower upper value) :=
  inferInstanceAs (Decidable (_ ∧ _))

/-- A character that no name may have. -/
def isControl (c : Char) : Bool := c.toNat < 0x20 || c.toNat == 0x7F

def validGoogleIdentity (identity : GoogleIdentity) : Prop :=
  lengthWithin 1 255 identity.subject ∧ identity.subject = strip identity.subject ∧
    lengthWithin 1 200 (strip identity.displayName) ∧
    (∀ email ∈ identity.email, lengthWithin 1 320 (normalizeEmail email) ∧
      (normalizeEmail email).toList.contains '@' = true ∧
      (normalizeEmail email).toList.any isSpace = false) ∧
    ([identity.subject, identity.displayName] ++ identity.email.toList).any (fun value =>
      value.toList.any isControl) = false

instance (identity : GoogleIdentity) : Decidable (validGoogleIdentity identity) :=
  inferInstanceAs (Decidable (_ ∧ _))

/-- An identity as it is stored. -/
def normalizedIdentity (identity : GoogleIdentity) : GoogleIdentity :=
  { identity with
    displayName := strip identity.displayName
    email := identity.email.map normalizeEmail }

/-- A person is an operator from the start. -/
def isBootstrapOperator (policy : IdentityPolicy) (identity : GoogleIdentity) : Bool :=
  identity.emailVerified && identity.email.any fun email =>
    policy.operatorBootstrapEmails.contains (normalizeEmail email)

/-- The checks of a target's id. -/
def validTargetId (targetId : String) : Prop :=
  lengthWithin 1 128 targetId ∧
    targetId.toList.any (fun c => c.toNat < 0x20 || c == '/' || c == '\\') = false

instance (targetId : String) : Decidable (validTargetId targetId) :=
  inferInstanceAs (Decidable (_ ∧ _))

/-- What a browser sends along with a request. -/
structure RequestSecrets where
  sessionToken : Option String
  origin : Option String
  csrfToken : Option String
  csrfCookie : Option String

def beginGoogleLogin (policy : IdentityPolicy) (returnTo : Option String)
    (authorizationUrl : String → Except Error String) : Service OAuthLoginStart := do
  let now ← readClock
  let safeReturnTo := policy.validateInternalReturnTo returnTo
  let _ ← repository (.purgeExpired now)
  let rawState ← createToken 32
  let browserNonce ← createToken 32
  let expiresAt ← .ofExcept (now.plus policy.oauthStateTtl)
  repository (.storeOauthState ⟨tokenHash rawState, tokenHash browserNonce, safeReturnTo, now,
    expiresAt, none⟩)
  let url ← .ofExcept (authorizationUrl rawState)
  return ⟨url, browserNonce, expiresAt⟩

/-- What the exchange of a code gives, its failures turned into a rejection. -/
def exchangeCode (exchanged : Except Error GoogleIdentity) : Except Error GoogleIdentity :=
  match exchanged with
  | .ok identity => .ok identity
  | .error e => .error (if e.kind = .oauthProviderError then oauthCallbackRejected else e)

/-- Store a new session of a user. -/
def openSession (policy : IdentityPolicy) (user : User) (now : Datetime) (returnTo : String) :
    Service LoginCompletion := do
  let rawSessionToken ← createToken 48
  let rawCsrfToken ← createToken 32
  let expiresAt ← .ofExcept (now.plus policy.sessionTtl)
  repository (.storeSession ⟨tokenHash rawSessionToken, user.userId, tokenHash rawCsrfToken, now,
    expiresAt, now, none⟩)
  let roles ← repository (.getRoles user.userId)
  return ⟨rawSessionToken, rawCsrfToken, expiresAt, returnTo, user, roles⟩

/-- Revoke the session of a token, when there is a token. -/
def revokeToken (sessionToken : Option String) (now : Datetime) : Service Unit :=
  match sessionToken with
  | none => pure ()
  | some token => if token = "" then pure () else repository (.revokeSession (tokenHash token) now)

def completeGoogleLogin (policy : IdentityPolicy) (code state browserNonce : String)
    (currentSessionToken : Option String) (exchanged : Except Error GoogleIdentity) :
    Service LoginCompletion := do
  require (lengthWithin 1 2048 code ∧ lengthWithin 1 512 state ∧ lengthWithin 1 512 browserNonce)
    oauthCallbackRejected
  let now ← readClock
  let oauthState ← repository (.consumeOauthState (tokenHash state) (tokenHash browserNonce) now)
  match oauthState with
  | none => .raise oauthCallbackRejected
  | some oauthState => do
    let identity ← .ofExcept (exchangeCode exchanged)
    require (validGoogleIdentity identity) oauthCallbackRejected
    let identity := normalizedIdentity identity
    let userToken ← createToken 18
    let upserted ← repository (.upsertUser ("usr_" ++ userToken) identity now)
    let user ← .ofExcept upserted
    let added ← repository (.addRole user.userId .user)
    .ofExcept added
    if isBootstrapOperator policy identity then
      let added ← repository (.addRole user.userId .operator)
      .ofExcept added
    revokeToken currentSessionToken now
    openSession policy user now oauthState.returnTo

/-- The principal of a session, if it is good. -/
def authenticateSessionHash (sessionTokenHash : String) : Service (Option SessionPrincipal) := do
  let now ← readClock
  let record ← repository (.getSession sessionTokenHash)
  match record with
  | none => return none
  | some record =>
    if record.revokedAt.isSome then return none
    else if record.expiresAt ≤ now then do
      repository (.revokeSession sessionTokenHash now)
      return none
    else do
      let user ← repository (.getUser record.userId)
      match user with
      | none => return none
      | some user => do
        let roles ← repository (.getRoles user.userId)
        if Role.user ∉ roles then return none
        else return some ⟨sessionTokenHash, user, roles, record.authenticatedAt, record.expiresAt⟩

/-- The principal of a session token. -/
def authenticate (sessionToken : Option String) : Service (Option SessionPrincipal) :=
  match sessionToken with
  | none => return none
  | some token =>
    if token = "" ∨ 512 < token.length then return none
    else authenticateSessionHash (tokenHash token)

/-- The principal as it is by now. -/
def refreshPrincipal (principal : SessionPrincipal) : Service (Option SessionPrincipal) := do
  let refreshed ← authenticateSessionHash principal.sessionTokenHash
  match refreshed with
  | none => return none
  | some refreshed =>
    if refreshed.user.userId ≠ principal.user.userId then return none else return some refreshed

/-- The principal of a session token, or an error. -/
def requireAuthenticated (sessionToken : Option String) : Service SessionPrincipal := do
  let principal ← authenticate sessionToken
  match principal with
  | none => .raise authenticationRequired
  | some principal => return principal

/-- Reject a request that may be forged. -/
def validateOriginAndCsrf (policy : IdentityPolicy) (principal : Option SessionPrincipal)
    (secrets : RequestSecrets) (allowWithoutSession : Bool) : Service Unit := do
  require (secrets.origin = some policy.allowedOrigin) csrfValidationFailed
  match secrets.csrfToken with
  | none => .raise csrfValidationFailed
  | some csrfToken => do
    require (csrfToken ≠ "" ∧ csrfToken.length ≤ 512) csrfValidationFailed
    require (∀ cookie ∈ secrets.csrfCookie, csrfToken = cookie) csrfValidationFailed
    match principal with
    | none => if allowWithoutSession then pure () else .raise authenticationRequired
    | some principal => do
      require (secrets.csrfCookie.isSome = true) csrfValidationFailed
      let record ← repository (.getSession principal.sessionTokenHash)
      match record with
      | none => .raise csrfValidationFailed
      | some record => do
        require (record.revokedAt = none) csrfValidationFailed
        let now ← readClock
        require (now < record.expiresAt ∧ record.csrfTokenHash = tokenHash csrfToken)
          csrfValidationFailed

/-- The principal of a request that changes something. -/
def authorizeMutation (policy : IdentityPolicy) (secrets : RequestSecrets) :
    Service SessionPrincipal := do
  let principal ← requireAuthenticated secrets.sessionToken
  validateOriginAndCsrf policy (some principal) secrets false
  return principal

def logout (policy : IdentityPolicy) (secrets : RequestSecrets) : Service Unit := do
  let principal ← authenticate secrets.sessionToken
  validateOriginAndCsrf policy principal secrets true
  match secrets.sessionToken with
  | none => pure ()
  | some token =>
    if token = "" then pure ()
    else do
      let now ← readClock
      repository (.revokeSession (tokenHash token) now)

def issueRealtimeTicket (policy : IdentityPolicy) (secrets : RequestSecrets) :
    Service RealtimeTicket := do
  let principal ← authorizeMutation policy secrets
  let now ← readClock
  let rawTicket ← createToken 32
  let expiresAt ← .ofExcept (now.plus policy.realtimeTicketTtl)
  repository (.storeRealtimeTicket ⟨tokenHash rawTicket, principal.sessionTokenHash,
    principal.user.userId, policy.allowedOrigin, now, expiresAt, none⟩)
  return ⟨rawTicket, expiresAt⟩

def consumeRealtimeTicket (policy : IdentityPolicy) (ticket origin : String) :
    Service SessionPrincipal := do
  require (origin = policy.allowedOrigin) authenticationRequired
  let now ← readClock
  let consumed ← repository (.consumeRealtimeTicket (tokenHash ticket) origin now)
  match consumed with
  | none => .raise authenticationRequired
  | some consumed => do
    let principal ← authenticateSessionHash consumed.sessionTokenHash
    match principal with
    | none => .raise authenticationRequired
    | some principal => do
      require (principal.user.userId = consumed.userId) authenticationRequired
      return principal

def saveItem (policy : IdentityPolicy) (secrets : RequestSecrets) (savedType : SavedType)
    (targetId : String) (target : Option TargetRecord) : Service SavedMutation := do
  let principal ← authorizeMutation policy secrets
  require (validTargetId targetId) (invalidRequest "저장 대상 식별자가 올바르지 않습니다.")
  match target with
  | none => .raise resourceNotFound
  | some target => do
    require (target.availability = .available) resourceNotFound
    require (∀ role ∈ target.requiredRole, role ∈ principal.roles) featureNotEntitled
    let now ← readClock
    let record ← repository (.upsertSaved ⟨principal.user.userId, savedType, targetId,
      target.displayName, now⟩)
    return ⟨savedType, targetId, true, some record.savedAt⟩

def unsaveItem (policy : IdentityPolicy) (secrets : RequestSecrets) (savedType : SavedType)
    (targetId : String) : Service SavedMutation := do
  let principal ← authorizeMutation policy secrets
  require (validTargetId targetId) (invalidRequest "저장 대상 식별자가 올바르지 않습니다.")
  let _ ← repository (.deleteSaved principal.user.userId savedType targetId)
  return ⟨savedType, targetId, false, none⟩

/-- Delete the account of the session's user. -/
def deleteAccount (policy : IdentityPolicy) (secrets : RequestSecrets) : Service Unit := do
  let principal ← authorizeMutation policy secrets
  let now ← readClock
  require (now.instant - principal.authenticatedAt.instant ≤ policy.recentAuthenticationWindow)
    recentAuthenticationRequired
  let deleted ← repository (.deleteAccount principal.user.userId)
  require (deleted = true) authenticationRequired

/-- A call of the service, with what the login provider and the catalog answer. -/
inductive ServiceCall where
  | beginGoogleLogin (returnTo : Option String) (authorizationUrl : String → Except Error String)
  | completeGoogleLogin (code state browserNonce : String) (currentSessionToken : Option String)
      (exchanged : Except Error GoogleIdentity)
  | authenticate (sessionToken : Option String)
  | refreshPrincipal (principal : SessionPrincipal)
  | authorizeQuestion (secrets : RequestSecrets)
  | logout (secrets : RequestSecrets)
  | issueRealtimeTicket (secrets : RequestSecrets)
  | consumeRealtimeTicket (ticket origin : String)
  | saveItem (secrets : RequestSecrets) (savedType : SavedType) (targetId : String)
      (target : Option TargetRecord)
  | unsaveItem (secrets : RequestSecrets) (savedType : SavedType) (targetId : String)
  | deleteAccount (secrets : RequestSecrets)

inductive ServiceAnswer where
  | loginStart (start : OAuthLoginStart)
  | login (completion : LoginCompletion)
  | principal (principal : Option SessionPrincipal)
  | ticket (ticket : RealtimeTicket)
  | saved (mutation : SavedMutation)
  | done
  deriving DecidableEq

def ServiceCall.program (policy : IdentityPolicy) : ServiceCall → Service ServiceAnswer
  | .beginGoogleLogin returnTo authorizationUrl => do
    return .loginStart (← Identity.beginGoogleLogin policy returnTo authorizationUrl)
  | .completeGoogleLogin code state browserNonce currentSessionToken exchanged => do
    return .login (← Identity.completeGoogleLogin policy code state browserNonce
      currentSessionToken exchanged)
  | .authenticate sessionToken => do return .principal (← Identity.authenticate sessionToken)
  | .refreshPrincipal principal => do return .principal (← Identity.refreshPrincipal principal)
  | .authorizeQuestion secrets => do return .principal (some (← authorizeMutation policy secrets))
  | .logout secrets => do
    Identity.logout policy secrets
    return .done
  | .issueRealtimeTicket secrets => do
    return .ticket (← Identity.issueRealtimeTicket policy secrets)
  | .consumeRealtimeTicket ticket origin => do
    return .principal (some (← Identity.consumeRealtimeTicket policy ticket origin))
  | .saveItem secrets savedType targetId target => do
    return .saved (← Identity.saveItem policy secrets savedType targetId target)
  | .unsaveItem secrets savedType targetId => do
    return .saved (← Identity.unsaveItem policy secrets savedType targetId)
  | .deleteAccount secrets => do
    Identity.deleteAccount policy secrets
    return .done

end

/-- What the clock shows at each reading, and the tokens as they are drawn. -/
structure Surroundings where
  clock : Nat → Datetime
  tokens : Nat → String

/-- Something an operation did. -/
inductive IdentityEvent where
  | stateStored (record : OAuthStateRecord)
  | stateUsed (record : OAuthStateRecord)
  | ticketStored (record : RealtimeTicketRecord)
  | ticketUsed (record : RealtimeTicketRecord)
  | sessionStored (record : SessionRecord)
  | sessionRevoked (tokenHash : String)
  | userCreated (userId : String)
  | accountDeleted (userId : String)
  deriving DecidableEq

/-- What an operation with this result did. -/
def observe : {α : Type} → RepositoryOp α → α → List IdentityEvent
  | _, .storeOauthState record => fun _ => [.stateStored record]
  | _, .consumeOauthState _ _ _ => fun used => used.toList.map .stateUsed
  | _, .upsertUser proposedUserId _ _ => fun
    | .ok user => if user.userId = proposedUserId then [.userCreated proposedUserId] else []
    | .error _ => []
  | _, .storeSession record => fun _ => [.sessionStored record]
  | _, .revokeSession tokenHash _ => fun _ => [.sessionRevoked tokenHash]
  | _, .storeRealtimeTicket record => fun _ => [.ticketStored record]
  | _, .consumeRealtimeTicket _ _ _ => fun used => used.toList.map .ticketUsed
  | _, .deleteAccount userId => fun deleted => if deleted then [.accountDeleted userId] else []
  | _, _ => fun _ => []

/-- The state of the service and what happened so far. -/
structure IdentityState where
  repository : InMemoryIdentityRepository
  readings : Nat
  drawn : Nat
  log : List IdentityEvent

/-- The state of a new service. -/
def IdentityState.initial : IdentityState := ⟨.empty, 0, 0, []⟩

/-- Perform an operation of the repository. -/
def IdentityState.perform {α : Type} (s : IdentityState) (op : RepositoryOp α) :
    α × IdentityState :=
  ((s.repository.perform op).1,
    { s with
      repository := (s.repository.perform op).2
      log := s.log ++ observe op (s.repository.perform op).1 })

/-- What the operations of the service do. -/
def handler (x : Surroundings) : Handler ServiceOp IdentityState
  | _, .inl op, s => s.perform op
  | _, .inr .now, s => (x.clock s.readings, { s with readings := s.readings + 1 })
  | _, .inr (.createToken _), s => (x.tokens s.drawn, { s with drawn := s.drawn + 1 })

@[simp] theorem perform_getSession (s : IdentityState) (key : String) :
    s.perform (.getSession key) = (s.repository.sessions.get? key, s) := by
  simp [IdentityState.perform, InMemoryIdentityRepository.perform, observe]

@[simp] theorem perform_getUser (s : IdentityState) (userId : String) :
    s.perform (.getUser userId) = (s.repository.users.get? userId, s) := by
  simp [IdentityState.perform, InMemoryIdentityRepository.perform, observe]

@[simp] theorem perform_getRoles (s : IdentityState) (userId : String) :
    s.perform (.getRoles userId) = ((s.repository.roles.get? userId).getD ∅, s) := by
  simp [IdentityState.perform, InMemoryIdentityRepository.perform, observe]

variable (x : Surroundings)

@[simp] theorem handler_inl {α : Type} (op : RepositoryOp α) (s : IdentityState) :
    handler x (.inl op) s = s.perform op := rfl

@[simp] theorem finish_repository {α : Type} (op : RepositoryOp α) (s : IdentityState) :
    (repository op).finish (handler x) s = (.ok (s.perform op).1, (s.perform op).2) := rfl

@[simp] theorem finish_repository_bind {α β : Type} (op : RepositoryOp α) (f : α → Service β)
    (s : IdentityState) : (repository op >>= f).finish (handler x) s =
      (f (s.perform op).1).finish (handler x) (s.perform op).2 := rfl

@[simp] theorem finish_readClock_bind {β : Type} (f : Datetime → Service β) (s : IdentityState) :
    (readClock >>= f).finish (handler x) s =
      (f (x.clock s.readings)).finish (handler x) { s with readings := s.readings + 1 } := rfl

@[simp] theorem finish_createToken_bind {β : Type} (n : Nat) (f : String → Service β)
    (s : IdentityState) : (createToken n >>= f).finish (handler x) s =
      (f (x.tokens s.drawn)).finish (handler x) { s with drawn := s.drawn + 1 } := rfl

theorem log_prefix {α : Type} (p : Service α) (s : IdentityState) :
    s.log <+: (p.finish (handler x) s).2.log := by
  refine Program.finish_keeps (P := fun t : IdentityState => s.log <+: t.log) ?_ p
    (List.prefix_refl _)
  intro γ op t ht
  cases op with
  | inl op => exact ht.trans (List.prefix_append _ _)
  | inr op =>
    cases op with
    | now => exact ht
    | createToken n => exact ht

variable [Sha256] [UnicodeTable] (policy : IdentityPolicy)

def answer (s : IdentityState) (call : ServiceCall) : Except Error ServiceAnswer :=
  ((call.program policy).finish (handler x) s).1

def afterCall (s : IdentityState) (call : ServiceCall) : IdentityState :=
  ((call.program policy).finish (handler x) s).2

/-- The state after some calls of a new service. -/
def afterCalls (calls : List ServiceCall) : IdentityState :=
  calls.foldl (afterCall x policy) .initial

theorem afterCalls_append (calls more : List ServiceCall) :
    afterCalls x policy (calls ++ more) = more.foldl (afterCall x policy)
      (afterCalls x policy calls) :=
  List.foldl_append

end Dayjaview.Identity
