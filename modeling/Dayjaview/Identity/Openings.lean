import Dayjaview.Identity.Deletion

/-!
# Where sessions come from

Only a login that returns stores a session. It answers the tokens whose digests the session keeps,
and the user of the session is there as long as the session is.
-/

namespace Dayjaview.Identity

namespace InMemoryIdentityRepository

/-- The user of every session is there. -/
def HaveUsers (r : InMemoryIdentityRepository) : Prop :=
  ∀ key record, r.sessions.get? key = some record → (r.users.get? record.userId).isSome

variable {r t : InMemoryIdentityRepository}

theorem haveUsers_empty : empty.HaveUsers := by
  intro key record hget
  simp [empty] at hget

theorem HaveUsers.of_sub (h : r.HaveUsers)
    (hsessions : ∀ key record, t.sessions.get? key = some record →
      ∃ old, r.sessions.get? key = some old ∧ old.userId = record.userId)
    (husers : ∀ id, (r.users.get? id).isSome → (t.users.get? id).isSome) : t.HaveUsers := by
  intro key record hget
  obtain ⟨old, hold, huser⟩ := hsessions key record hget
  rw [← huser]
  exact husers _ (h key old hold)

theorem HaveUsers.of_eq (h : r.HaveUsers) (hsessions : t.sessions = r.sessions)
    (husers : ∀ id, (r.users.get? id).isSome → (t.users.get? id).isSome) : t.HaveUsers :=
  h.of_sub (fun _ record hget => ⟨record, hsessions ▸ hget, rfl⟩) husers

theorem isSome_get?_set {κ R : Type} [DecidableEq κ] (table : Dict κ R) (key : κ) (new : R)
    (key' : κ) (h : (table.get? key').isSome) : ((table.set key new).get? key').isSome := by
  rw [Dict.get?_set]
  split
  · rfl
  · exact h

theorem HaveUsers.upsertUser (h : r.HaveUsers) (proposedUserId : String) (identity : GoogleIdentity)
    (now : Datetime) : (r.upsertUser proposedUserId identity now).2.HaveUsers := by
  rcases r.upsertUser_cases proposedUserId identity now with
    ⟨e, heq⟩ | ⟨userId, existing, updated, -, -, -, heq⟩ | ⟨user, -, -, -, heq⟩
  · rw [heq]
    exact h
  · rw [heq]
    exact h.of_eq rfl fun id => isSome_get?_set _ _ _ id
  · rw [heq]
    exact h.of_eq rfl fun id => isSome_get?_set _ _ _ id

theorem Keyed.isSome_upsertUser (h : r.Keyed) {proposedUserId : String} {identity : GoogleIdentity}
    {now : Datetime} {user : User}
    (hok : (r.upsertUser proposedUserId identity now).1 = .ok user) :
    ((r.upsertUser proposedUserId identity now).2.users.get? user.userId).isSome := by
  rcases r.upsertUser_cases proposedUserId identity now with
    ⟨e, heq⟩ | ⟨userId, existing, updated, -, hget, hid, heq⟩ | ⟨created, -, -, hid, heq⟩
  · rw [heq] at hok
    cases hok
  · rw [heq] at hok ⊢
    cases hok
    rw [hid, h.users _ existing hget, Dict.get?_set_self]
    rfl
  · rw [heq] at hok ⊢
    cases hok
    rw [hid, Dict.get?_set_self]
    rfl

theorem HaveUsers.revokeSession (h : r.HaveUsers) (key : String) (now : Datetime) :
    (r.revokeSession key now).HaveUsers := by
  unfold InMemoryIdentityRepository.revokeSession
  cases hold : r.sessions.get? key with
  | none => exact h
  | some old =>
    dsimp only
    split
    · exact h
    · refine h.of_sub (fun key' record hget => ?_) fun _ => id
      rw [Dict.get?_set] at hget
      split at hget
      · next heq =>
        cases hget
        exact ⟨old, heq ▸ hold, rfl⟩
      · exact ⟨record, hget, rfl⟩

theorem HaveUsers.deleteAccount (h : r.HaveUsers) (userId : String) :
    (r.deleteAccount userId).2.HaveUsers := by
  unfold InMemoryIdentityRepository.deleteAccount
  cases r.users.get? userId with
  | none => exact h
  | some user =>
    intro key record hget
    obtain ⟨hold, hother⟩ := get?_filterValues_sub hget
    dsimp only
    rw [Dict.get?_erase, if_neg (of_decide_eq_true hother)]
    exact h key record hold

theorem HaveUsers.purgeExpired (h : r.HaveUsers) (now : Datetime) :
    (r.purgeExpired now).2.HaveUsers :=
  h.of_sub (fun _ record hget => ⟨record, (get?_filterValues_sub hget).1, rfl⟩) fun _ => id

theorem HaveUsers.storeSession (h : r.HaveUsers) {record : SessionRecord}
    (huser : (r.users.get? record.userId).isSome) :
    { r with sessions := r.sessions.set record.tokenHash record }.HaveUsers := by
  intro key other hget
  rw [Dict.get?_set] at hget
  split at hget
  · cases hget
    exact huser
  · exact h key other hget

end InMemoryIdentityRepository

/-- An operation that stores no session. -/
def OpensNone : {α : Type} → ServiceOp α → Prop
  | _, .inl (.storeSession _) => False
  | _, _ => True

theorem InMemoryIdentityRepository.HaveUsers.perform {r : InMemoryIdentityRepository} {α : Type}
    (h : r.HaveUsers) {op : RepositoryOp α} (hop : OpensNone (.inl op : ServiceOp α)) :
    (r.perform op).2.HaveUsers := by
  cases op with
  | storeSession => exact hop.elim
  | upsertUser proposedUserId identity now => exact h.upsertUser proposedUserId identity now
  | revokeSession key now => exact h.revokeSession key now
  | deleteAccount userId => exact h.deleteAccount userId
  | purgeExpired now => exact h.purgeExpired now
  | _ =>
    refine h.of_eq (perform_sessions trivial) fun id hid => ?_
    rw [perform_users]
    · exact hid
    · trivial

theorem storedSessions_observe {α : Type} {op : RepositoryOp α}
    (hop : OpensNone (.inl op : ServiceOp α)) (result : α) :
    storedSessions (observe op result) = [] := by
  cases op with
  | storeSession => exact hop.elim
  | consumeOauthState => cases result <;> rfl
  | consumeRealtimeTicket => cases result <;> rfl
  | deleteAccount => cases result <;> rfl
  | upsertUser proposedUserId identity now =>
    cases result with
    | error e => rfl
    | ok user =>
      simp only [observe]
      split <;> rfl
  | _ => rfl

/-- No session was stored since a state. -/
structure Unopened (s t : IdentityState) : Prop where
  stored : storedSessions t.log = storedSessions s.log
  drawn : s.drawn ≤ t.drawn
  users : t.repository.HaveUsers
  keyed : t.repository.Keyed

variable {x : Surroundings} {s t : IdentityState} {α : Type}

theorem Unopened.refl (husers : s.repository.HaveUsers) (hkeyed : s.repository.Keyed) :
    Unopened s s := ⟨rfl, le_rfl, husers, hkeyed⟩

theorem keeps_unopened {p : Service α} (hp : p.Only OpensNone) :
    p.Keeps (handler x) (Unopened s) := by
  refine hp.keeps fun op t hop ht => ?_
  cases op with
  | inl op =>
    refine ⟨?_, ht.drawn, ht.users.perform hop, ht.keyed.perform op⟩
    show storedSessions (t.log ++ observe op _) = _
    rw [storedSessions_append, storedSessions_observe hop, List.append_nil]
    exact ht.stored
  | inr op =>
    cases op with
    | now => exact ⟨ht.stored, ht.drawn, ht.users, ht.keyed⟩
    | createToken n => exact ⟨ht.stored, ht.drawn.trans (Nat.le_succ _), ht.users, ht.keyed⟩

theorem opensNone_of_plainOp {op : ServiceOp α} (h : PlainOp op) : OpensNone op := by
  cases op with
  | inl op =>
    cases op with
    | storeSession => exact h.elim
    | _ => trivial
  | inr op => trivial

theorem onlyOpensNone_of_plain {p : Service α} (h : p.Only PlainOp) : p.Only OpensNone :=
  h.mono fun _ => opensNone_of_plainOp

theorem onlyOpensNone_of_session {p : Service α} (h : p.Only SessionOp) : p.Only OpensNone :=
  onlyOpensNone_of_plain (onlyPlain_of_session h)

/-- An operation that neither stores a session nor saves a target. -/
def GrantOp : {α : Type} → ServiceOp α → Prop
  | _, .inl (.storeSession _) => False
  | _, .inl (.upsertSaved _) => False
  | _, _ => True

theorem grantOp_of_sessionOp {op : ServiceOp α} (h : SessionOp op) : GrantOp op := by
  cases op with
  | inl op =>
    cases op with
    | storeSession | upsertSaved => exact h.elim
    | _ => trivial
  | inr op => trivial

theorem onlyOpensNone_of_grant {p : Service α} (h : p.Only GrantOp) : p.Only OpensNone := by
  refine h.mono fun op hop => ?_
  cases op with
  | inl op =>
    cases op with
    | storeSession => exact hop.elim
    | _ => trivial
  | inr op => trivial

variable [Sha256] (policy : IdentityPolicy)

theorem only_beginGoogleLogin (returnTo : Option String)
    (authorizationUrl : String → Except Error String) :
    (beginGoogleLogin policy returnTo authorizationUrl).Only GrantOp :=
  (Program.only_call trivial).bind fun _ => (Program.only_call trivial).bind fun _ =>
    (Program.only_call trivial).bind fun _ => (Program.only_call trivial).bind fun _ =>
    (Program.only_ofExcept _).bind fun _ => (Program.only_call trivial).bind fun _ =>
    (Program.only_ofExcept _).bind fun _ => Program.only_pure _

theorem only_issueRealtimeTicket (secrets : RequestSecrets) :
    (issueRealtimeTicket policy secrets).Only GrantOp :=
  ((only_authorizeMutation policy secrets).mono fun _ => grantOp_of_sessionOp).bind fun _ =>
    (Program.only_call trivial).bind fun _ => (Program.only_call trivial).bind fun _ =>
    (Program.only_ofExcept _).bind fun _ => (Program.only_call trivial).bind fun _ =>
    Program.only_pure _

theorem only_consumeRealtimeTicket (ticket origin : String) :
    (consumeRealtimeTicket policy ticket origin).Only GrantOp := by
  refine (only_require _ _).bind fun _ => (Program.only_call trivial).bind fun _ =>
    (Program.only_call trivial).bind fun consumed => ?_
  cases consumed with
  | none => exact Program.only_raise _
  | some consumed =>
    refine ((only_authenticateSessionHash _).mono fun _ => grantOp_of_sessionOp).bind
      fun principal => ?_
    cases principal with
    | none => exact Program.only_raise _
    | some principal => exact (only_require _ _).bind fun _ => Program.only_pure _

/-- A login stored a session of its user, with the digests of the tokens it answers. -/
structure Opened (x : Surroundings) (s t : IdentityState) (record : SessionRecord)
    (completion : LoginCompletion) : Prop where
  stored : storedSessions t.log = storedSessions s.log ++ [record]
  found : t.repository.sessions.get? record.tokenHash = some record
  token : record.tokenHash = tokenHash completion.sessionToken
  csrf : record.csrfTokenHash = tokenHash completion.csrfToken
  user : record.userId = completion.user.userId
  drawn : ∃ i, s.drawn ≤ i ∧ completion.sessionToken = x.tokens i
  users : t.repository.HaveUsers
  keyed : t.repository.Keyed

/-- What a login ends with: no session was stored, or it returns the tokens of one that was. -/
def Opening (x : Surroundings) (s : IdentityState) (result : Except Error LoginCompletion)
    (t : IdentityState) : Prop :=
  Unopened s t ∨ ∃ record completion, result = .ok completion ∧ Opened x s t record completion

theorem opening_openSession {user : User} (h : Unopened s t)
    (huser : (t.repository.users.get? user.userId).isSome) (now : Datetime) (returnTo : String) :
    (openSession policy user now returnTo).Ends (handler x) (Opening x s) t := by
  unfold Program.Ends openSession
  rw [finish_createToken_bind, finish_createToken_bind]
  cases now.plus policy.sessionTtl with
  | error e =>
    exact .inl ⟨h.stored, h.drawn.trans (Nat.le_add_right t.drawn 2), h.users, h.keyed⟩
  | ok expiresAt =>
    refine .inr
      ⟨⟨tokenHash (x.tokens t.drawn), user.userId, tokenHash (x.tokens (t.drawn + 1)), now,
      expiresAt, now, none⟩, _, rfl, ?_, Dict.get?_set_self _ _ _, rfl, rfl, rfl,
      ⟨t.drawn, h.drawn, rfl⟩, h.users.storeSession huser, h.keyed.users, h.keyed.saved⟩
    show storedSessions ((t.log ++ [_]) ++ []) = _
    rw [List.append_nil, storedSessions_append, h.stored]
    rfl

omit [Sha256] in
theorem users_addRole (userId : String) (role : Role) (t : IdentityState) :
    ((repository (.addRole userId role)).finish (handler x) t).2.repository.users =
      t.repository.users := by
  show (t.repository.addRole userId role).2.users = _
  unfold InMemoryIdentityRepository.addRole
  split <;> rfl

theorem users_revokeToken (sessionToken : Option String) (now : Datetime) (t : IdentityState) :
    ((revokeToken sessionToken now).finish (handler x) t).2.repository.users =
      t.repository.users := by
  unfold revokeToken
  cases sessionToken with
  | none => rfl
  | some token =>
    dsimp only
    split
    · rfl
    · show (t.repository.revokeSession (tokenHash token) now).users = _
      unfold InMemoryIdentityRepository.revokeSession
      split
      · rfl
      · split <;> rfl

omit [Sha256] in
theorem keeps_withUser {p : Service α} (hp : p.Only OpensNone)
    (husers : ∀ t, (p.finish (handler x) t).2.repository.users = t.repository.users)
    (userId : String) : p.Keeps (handler x) fun t =>
      Unopened s t ∧ (t.repository.users.get? userId).isSome := by
  rintro t ⟨ht, huser⟩
  refine ⟨keeps_unopened hp t ht, ?_⟩
  rw [husers]
  exact huser

theorem opening_completeGoogleLogin [UnicodeTable] (code state browserNonce : String)
    (currentSessionToken : Option String) (exchanged : Except Error GoogleIdentity)
    (husers : s.repository.HaveUsers) (hkeyed : s.repository.Keyed) :
    (completeGoogleLogin policy code state browserNonce currentSessionToken exchanged).Ends
      (handler x) (Opening x s) s := by
  have herror : ∀ (e : Error) (t : IdentityState), Unopened s t → Opening x s (.error e) t :=
    fun _ _ ht => .inl ht
  refine (keeps_unopened (only_require _ _)).ends_bind (.refl husers hkeyed) herror fun _ t ht => ?_
  refine (keeps_unopened (Program.only_call (by trivial))).ends_bind ht herror fun now t ht => ?_
  refine (keeps_unopened (Program.only_call (by trivial))).ends_bind ht
    herror fun oauthState t ht => ?_
  cases oauthState with
  | none => exact .inl ht
  | some oauthState =>
    refine (keeps_unopened (Program.only_ofExcept _)).ends_bind ht herror fun identity t ht => ?_
    refine (keeps_unopened (only_require _ _)).ends_bind ht herror fun _ t ht => ?_
    refine (keeps_unopened (Program.only_call (by trivial))).ends_bind ht
      herror fun userToken t ht => ?_
    have hupserted := keeps_unopened (x := x) (Program.only_call (by trivial) :
      (repository (.upsertUser ("usr_" ++ userToken) (normalizedIdentity identity) now)).Only
      OpensNone) t ht
    unfold Program.Ends
    rw [finish_repository_bind]
    cases hresult : (t.perform (.upsertUser ("usr_" ++ userToken) (normalizedIdentity identity)
        now)).1 with
    | error e => exact .inl hupserted
    | ok user =>
      rw [Program.ofExcept_ok_bind]
      have huser := ht.keyed.isSome_upsertUser hresult
      have herror' : ∀ (e : Error) (t : IdentityState), Unopened s t ∧
          (t.repository.users.get? user.userId).isSome → Opening x s (.error e) t :=
        fun _ _ ht => .inl ht.1
      have hsession : ∀ t, Unopened s t ∧ (t.repository.users.get? user.userId).isSome →
          (revokeToken currentSessionToken now >>= fun _ =>
            openSession policy user now oauthState.returnTo).Ends (handler x) (Opening x s) t :=
        fun t ht => (keeps_withUser (onlyOpensNone_of_session (only_revokeToken _ _))
          (users_revokeToken _ _) user.userId).ends_bind ht herror' fun _ t ht =>
            opening_openSession policy ht.1 ht.2 now oauthState.returnTo
      refine (keeps_withUser (Program.only_call (by trivial)) (users_addRole _ _)
        user.userId).ends_bind ⟨hupserted, huser⟩ herror' fun added t ht => ?_
      refine (keeps_withUser (Program.only_ofExcept _) (fun _ => rfl) user.userId).ends_bind ht
        herror' fun _ t ht => ?_
      split
      · refine (keeps_withUser (Program.only_call (by trivial)) (users_addRole _ _)
          user.userId).ends_bind ht herror' fun added t ht => ?_
        exact (keeps_withUser (Program.only_ofExcept _) (fun _ => rfl) user.userId).ends_bind ht
          herror' fun _ t ht => hsession t ht
      · exact hsession t ht

variable [UnicodeTable]

/-- After a call no session was stored, or the call is a login that answers the tokens of the one
that was. -/
theorem afterCall_cases (husers : s.repository.HaveUsers) (hkeyed : s.repository.Keyed)
    (call : ServiceCall) : Unopened s (afterCall x policy s call) ∨
      ∃ code state browserNonce currentSessionToken exchanged record completion,
        call = .completeGoogleLogin code state browserNonce currentSessionToken exchanged ∧
        answer x policy s call = .ok (.login completion) ∧
        Opened x s (afterCall x policy s call) record completion := by
  have hnone : (call.program policy).Only OpensNone → Unopened s (afterCall x policy s call) :=
    fun hp => keeps_unopened hp s (.refl husers hkeyed)
  have hplain : (call.program policy).Only PlainOp → Unopened s (afterCall x policy s call) :=
    fun hp => hnone (onlyOpensNone_of_plain hp)
  have hsession : (call.program policy).Only SessionOp → Unopened s (afterCall x policy s call) :=
    fun hp => hnone (onlyOpensNone_of_session hp)
  cases call with
  | completeGoogleLogin code state browserNonce currentSessionToken exchanged =>
    have hcases := opening_completeGoogleLogin (x := x) policy code state browserNonce
      currentSessionToken exchanged husers hkeyed
    unfold answer afterCall
    rw [ServiceCall.program, Program.finish_bind_pure]
    rcases hcases with hnone | ⟨record, completion, hresult, hopened⟩
    · exact .inl hnone
    · refine .inr ⟨_, _, _, _, _, record, completion, rfl, ?_, hopened⟩
      rw [hresult]
      rfl
  | beginGoogleLogin returnTo authorizationUrl =>
    exact .inl (hnone ((onlyOpensNone_of_grant (only_beginGoogleLogin policy _ _)).bind fun _ =>
      Program.only_pure _))
  | issueRealtimeTicket secrets =>
    exact .inl (hnone ((onlyOpensNone_of_grant (only_issueRealtimeTicket policy _)).bind fun _ =>
      Program.only_pure _))
  | consumeRealtimeTicket ticket origin =>
    exact .inl
      (hnone ((onlyOpensNone_of_grant (only_consumeRealtimeTicket policy _ _)).bind fun _ =>
        Program.only_pure _))
  | authenticate sessionToken =>
    exact .inl (hsession ((only_authenticate _).bind fun _ => Program.only_pure _))
  | refreshPrincipal principal =>
    exact .inl (hsession ((only_refreshPrincipal _).bind fun _ => Program.only_pure _))
  | authorizeQuestion secrets =>
    exact .inl (hsession ((only_authorizeMutation policy _).bind fun _ => Program.only_pure _))
  | logout secrets =>
    exact .inl (hsession ((only_logout policy _).bind fun _ => Program.only_pure _))
  | saveItem secrets savedType targetId target =>
    exact .inl (hplain ((only_saveItem policy _ _ _ _).bind fun _ => Program.only_pure _))
  | unsaveItem secrets savedType targetId =>
    exact .inl (hplain ((only_unsaveItem policy _ _ _).bind fun _ => Program.only_pure _))
  | deleteAccount secrets =>
    exact .inl (hplain ((only_deleteAccount policy _).bind fun _ => Program.only_pure _))

/-- A login among some calls stored a session under a new digest and answered its tokens. -/
def IssuedBy (x : Surroundings) (policy : IdentityPolicy) (calls : List ServiceCall)
    (record : SessionRecord) (completion : LoginCompletion) : Prop :=
  ∃ before login after code state browserNonce currentSessionToken exchanged,
    calls = before ++ login :: after ∧
    login = .completeGoogleLogin code state browserNonce currentSessionToken exchanged ∧
    answer x policy (afterCalls x policy before) login = .ok (.login completion) ∧
    (afterCalls x policy before).repository.sessions.get? record.tokenHash = none ∧
    Opened x (afterCalls x policy before) (afterCalls x policy (before ++ [login])) record
    completion

variable {policy}

theorem IssuedBy.append {calls : List ServiceCall} {record : SessionRecord}
    {completion : LoginCompletion} (h : IssuedBy x policy calls record completion)
    (more : List ServiceCall) : IssuedBy x policy (calls ++ more) record completion := by
  obtain ⟨before, login, after, code, state, browserNonce, current, exchanged, rfl, hrest⟩ := h
  exact ⟨before, login, after ++ more, code, state, browserNonce, current, exchanged, by
    simp, hrest⟩

theorem IssuedBy.opened {calls : List ServiceCall} {record : SessionRecord}
    {completion : LoginCompletion} (h : IssuedBy x policy calls record completion) :
    ∃ before after, Opened x before after record completion := by
  obtain ⟨before, login, after, code, state, browserNonce, current, exchanged, -, -, -, -, h⟩ := h
  exact ⟨_, _, h⟩

/-- After any calls the users of the sessions are there, and every session that was stored was
issued by a login. -/
theorem issued_afterCalls (htokens : Function.Injective x.tokens)
    (hhash : Function.Injective tokenHash) (policy : IdentityPolicy) (calls : List ServiceCall) :
    (afterCalls x policy calls).repository.HaveUsers ∧
      (afterCalls x policy calls).repository.Keyed ∧
      ∀ record ∈ storedSessions (afterCalls x policy calls).log,
        ∃ completion, IssuedBy x policy calls record completion := by
  induction calls using List.reverseRecOn with
  | nil =>
    exact ⟨InMemoryIdentityRepository.haveUsers_empty, InMemoryIdentityRepository.keyed_empty,
      fun record hmem => absurd hmem List.not_mem_nil⟩
  | append_singleton calls call ih =>
    obtain ⟨husers, hkeyed, hissued⟩ := ih
    have hafter : afterCalls x policy (calls ++ [call]) =
        afterCall x policy (afterCalls x policy calls) call :=
        afterCalls_append x policy calls [call]
    have hold : ∀ record ∈ storedSessions (afterCalls x policy calls).log,
        ∃ completion, IssuedBy x policy (calls ++ [call]) record completion := by
      intro record hmem
      obtain ⟨completion, hby⟩ := hissued record hmem
      exact ⟨completion, hby.append [call]⟩
    rcases afterCall_cases policy husers hkeyed call with
      hnone | ⟨code, state, browserNonce, current, exchanged, record, completion, hlogin, hanswer,
        hopened⟩
    · rw [hafter, hnone.stored]
      exact ⟨hnone.users, hnone.keyed, hold⟩
    · rw [← hafter] at hopened
      refine ⟨hopened.users, hopened.keyed, fun record' hmem => ?_⟩
      rw [hopened.stored, List.mem_append, List.mem_singleton] at hmem
      rcases hmem with hmem | rfl
      · exact hold record' hmem
      · refine ⟨completion, calls, call, [], code, state, browserNonce, current, exchanged,
          rfl, hlogin, hanswer, ?_, hopened⟩
        -- what was stored before has the digest of a token that was drawn before
        by_contra hsome
        obtain ⟨other, hget⟩ := Option.ne_none_iff_exists'.mp hsome
        have hsound := ((sound_initial x).calls htokens hhash policy calls).sound
        obtain ⟨-, hkey, -⟩ := hsound.sessions _ other hget
        obtain ⟨i, hi, hsame⟩ := hsound.keys _ hkey
        obtain ⟨j, hj, htoken⟩ := hopened.drawn
        rw [hopened.token, htoken] at hsame
        have heq := htokens (hhash hsame)
        have hi' : i < (afterCalls x policy calls).drawn := hi
        omega

end Dayjaview.Identity
