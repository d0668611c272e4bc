import Dayjaview.Identity.Guards
import Dayjaview.Identity.Openings

/-!
# No mutation without the session's own proof

The guard of the calls that change something, and what the calls do behind it. A request that passes
has shown the token of a session that is in time, the allowed origin, and twice the token against
forged requests that was answered with the session.
-/

namespace Dayjaview.Identity

open InMemoryIdentityRepository

variable [Sha256] {x : Surroundings} {policy : IdentityPolicy} {s t : IdentityState} {α : Type}

/-- A request has shown what its session asks for. -/
structure Proved (policy : IdentityPolicy) (secrets : RequestSecrets) (now : Datetime)
    (r : InMemoryIdentityRepository) (record : SessionRecord) : Prop where
  origin : secrets.origin = some policy.allowedOrigin
  session : ∃ token, secrets.sessionToken = some token ∧
    r.sessions.get? (tokenHash token) = some record
  live : record.revokedAt = none
  inTime : now < record.expiresAt
  csrf : ∃ csrfToken, secrets.csrfToken = some csrfToken ∧ secrets.csrfCookie = some csrfToken ∧
    record.csrfTokenHash = tokenHash csrfToken

omit [Sha256] in
theorem lapsed_authenticateSessionHash (key : String) (s : IdentityState) :
    Lapsed (x.clock s.readings) s.repository
      ((authenticateSessionHash key).finish (handler x) s).2.repository := by
  unfold authenticateSessionHash
  rw [finish_readClock_bind, finish_repository_bind, perform_getSession]
  dsimp only
  cases hget : s.repository.sessions.get? key with
  | none => exact .inl rfl
  | some record =>
    dsimp only
    split
    · exact .inl rfl
    · next hrevoked =>
      have hlive := Option.not_isSome_iff_eq_none.mp hrevoked
      split
      · next hexpired =>
        refine .inr ⟨key, record, hget, hlive, hexpired, ?_⟩
        show s.repository.revokeSession key (x.clock s.readings) = _
        simp [InMemoryIdentityRepository.revokeSession, hget, hlive]
      · rw [finish_repository_bind, perform_getUser]
        dsimp only
        split
        · exact .inl rfl
        · rw [finish_repository_bind, perform_getRoles]
          dsimp only
          split <;> exact .inl rfl

/-- What the states of a run have in common. -/
structure Guarded (x : Surroundings) (s : IdentityState) : Prop where
  sound : Sound x s
  keyed : s.repository.Keyed
  indexed : s.repository.Indexed
  users : s.repository.HaveUsers
  short : ∀ i < s.drawn, (x.tokens i).length ≤ 512

/-- What the session of a token is found to be. -/
inductive Authenticated (x : Surroundings) (sessionToken : Option String) (s : IdentityState) :
    Option SessionPrincipal → IdentityState → Prop where
  /-- The token has no session that is good; one that expired may be marked. -/
  | rejected {t : IdentityState} (lapsed : Lapsed (x.clock s.readings) s.repository t.repository)
    (revoked : ∀ token ∈ sessionToken, token ≠ "" → ∀ record,
      t.repository.sessions.get? (tokenHash token) = some record → record.revokedAt ≠ none) :
    Authenticated x sessionToken s none t
  /-- The token has a session that is in time. -/
  | accepted {token : String} {record : SessionRecord} {principal : SessionPrincipal}
    (htoken : sessionToken = some token)
    (found : s.repository.sessions.get? (tokenHash token) = some record)
    (live : record.revokedAt = none) (inTime : x.clock s.readings < record.expiresAt)
    (key : principal.sessionTokenHash = tokenHash token)
    (user : principal.user.userId = record.userId) :
    Authenticated x sessionToken s (some principal) { s with readings := s.readings + 1 }

theorem Guarded.authenticate (h : Guarded x s) (hhash : Function.Injective tokenHash)
    (sessionToken : Option String) :
    ∃ principal t, (authenticate sessionToken).finish (handler x) s = (.ok principal, t) ∧
      Authenticated x sessionToken s principal t := by
  unfold Identity.authenticate
  cases sessionToken with
  | none => exact ⟨none, s, rfl, .rejected (.inl rfl) (by simp)⟩
  | some token =>
    dsimp only
    split
    · next hbad =>
      refine ⟨none, s, rfl, .rejected (.inl rfl) ?_⟩
      rintro _ ⟨⟩ hne record hget
      -- a token that is too long was never drawn
      obtain ⟨-, hkey, -⟩ := h.sound.sessions _ record hget
      obtain ⟨i, hi, hsame⟩ := h.sound.keys _ hkey
      have hshort := h.short i hi
      rw [← hhash hsame] at hshort
      rcases hbad with hempty | hlong
      · exact absurd hempty hne
      · omega
    · rcases authenticateSessionHash_spec h.sound (tokenHash token) with
        ⟨t, hrun, hgone⟩ | ⟨principal, hrun, hkey, record, hget, hlive, huser, -, i, hi, hi', hlt⟩
      · have hlapsed := lapsed_authenticateSessionHash (x := x) (tokenHash token) s
        have husers := keeps_unopened (x := x) (onlyOpensNone_of_session
          (only_authenticateSessionHash (tokenHash token))) s (.refl h.users h.keyed)
        rw [hrun] at hlapsed husers
        refine ⟨none, t, hrun, .rejected hlapsed ?_⟩
        rintro _ ⟨⟩ - record hget
        rcases hgone record hget with hrevoked | hnone
        · exact hrevoked
        · have hsome := husers.users _ record hget
          rw [hnone] at hsome
          cases hsome
      · rw [hkey] at hget
        obtain rfl : i = s.readings := by
          have hi'' : i < s.readings + 1 := hi'
          omega
        exact ⟨some principal, _, hrun, .accepted rfl hget hlive hlt hkey
          (h.sound.users _ _ huser).1⟩

omit [Sha256] in
theorem finish_require_bind (p : Prop) [Decidable p] (e : Error) (f : Unit → Service α)
    (s : IdentityState) : (require p e >>= f).finish (handler x) s =
      if p then (f ()).finish (handler x) s else (.error e, s) := by
  unfold require
  split <;> rfl

/-- What the checks of a request end with: they only read, and those that pass were shown the origin
and, when there is a session, its token against forged requests twice. -/
def Validated (policy : IdentityPolicy) (principal : Option SessionPrincipal)
    (secrets : RequestSecrets) (s : IdentityState) (result : Except Error Unit)
    (t : IdentityState) : Prop :=
  t.repository = s.repository ∧ (result = .ok () → secrets.origin = some policy.allowedOrigin ∧
    ∀ p ∈ principal, ∃ csrfToken record, secrets.csrfToken = some csrfToken ∧
      secrets.csrfCookie = some csrfToken ∧
      s.repository.sessions.get? p.sessionTokenHash = some record ∧
      record.csrfTokenHash = tokenHash csrfToken)

theorem validateOriginAndCsrf_spec (policy : IdentityPolicy) (principal : Option SessionPrincipal)
    (secrets : RequestSecrets) (allowWithoutSession : Bool) (s : IdentityState) :
    (validateOriginAndCsrf policy principal secrets allowWithoutSession).Ends (handler x)
      (Validated policy principal secrets s) s := by
  have herror : ∀ (e : Error) (t : IdentityState), t.repository = s.repository →
      Validated policy principal secrets s (.error e) t := fun _ _ ht => ⟨ht, fun h => by cases h⟩
  unfold validateOriginAndCsrf Program.Ends
  rw [finish_require_bind]
  split
  · next horigin =>
    cases hcsrf : secrets.csrfToken with
    | none => exact herror _ _ rfl
    | some csrfToken =>
      dsimp only
      rw [finish_require_bind]
      split
      · rw [finish_require_bind]
        split
        · next hcookie =>
          cases principal with
          | none =>
            dsimp only
            split
            · exact ⟨rfl, fun _ => ⟨horigin, fun p hp => by cases hp⟩⟩
            · exact herror _ _ rfl
          | some principal =>
            dsimp only
            rw [finish_require_bind]
            split
            · next hsome =>
              rw [finish_repository_bind, perform_getSession]
              dsimp only
              cases hget : s.repository.sessions.get? principal.sessionTokenHash with
              | none => exact herror _ _ rfl
              | some record =>
                dsimp only
                rw [finish_require_bind]
                split
                · rw [finish_readClock_bind]
                  unfold require
                  split
                  · next hgood =>
                    obtain ⟨cookie, hcookie'⟩ := Option.isSome_iff_exists.mp hsome
                    refine ⟨rfl, fun _ => ⟨horigin, ?_⟩⟩
                    rintro _ ⟨⟩
                    refine ⟨csrfToken, record, hcsrf, ?_, hget, hgood.2⟩
                    rw [hcookie', hcookie cookie hcookie']
                  · exact herror _ _ rfl
                · exact herror _ _ rfl
            · exact herror _ _ rfl
        · exact herror _ _ rfl
      · exact herror _ _ rfl
  · exact herror _ _ rfl

/-- What a guarded call ends with: nothing changed but that a session may be marked as expired, or
the call returns, has been shown what its session asks for, and changed only what belongs to the
user of the session. -/
def Authorized (x : Surroundings) (policy : IdentityPolicy) (secrets : RequestSecrets)
    (s : IdentityState) (result : Except Error α) (t : IdentityState) : Prop :=
  Lapsed (x.clock s.readings) s.repository t.repository ∨
    (∃ a, result = .ok a) ∧ ∃ record, Proved policy secrets (x.clock s.readings) s.repository
    record ∧
      OnlyOf record.userId s.repository t.repository

/-- What the rest of a guarded call ends with: nothing changed, or it returns and changed only what
belongs to a user. -/
def Writes (userId : String) (r : InMemoryIdentityRepository) (result : Except Error α)
    (t : IdentityState) : Prop :=
  t.repository = r ∨ (∃ a, result = .ok a) ∧ OnlyOf userId r t.repository

variable {secrets : RequestSecrets}

theorem Validated.proved {token : String} {record : SessionRecord} {principal : SessionPrincipal}
    {now : Datetime} (hvalid : Validated policy (some principal) secrets s (.ok ()) t)
    (htoken : secrets.sessionToken = some token)
    (hget : s.repository.sessions.get? (tokenHash token) = some record)
    (hlive : record.revokedAt = none) (hintime : now < record.expiresAt)
    (hkey : principal.sessionTokenHash = tokenHash token) :
    Proved policy secrets now s.repository record := by
  obtain ⟨horigin, hshown⟩ := hvalid.2 rfl
  obtain ⟨csrfToken, record', hcsrf, hcookie, hget', hhashed⟩ := hshown principal rfl
  rw [hkey] at hget'
  obtain rfl := Option.some.inj (hget.symm.trans hget')
  exact ⟨horigin, ⟨token, htoken, hget⟩, hlive, hintime, csrfToken, hcsrf, hcookie, hhashed⟩

theorem authorized_bind (h : Guarded x s) (hhash : Function.Injective tokenHash)
    {f : SessionPrincipal → Service α}
    (hrest : ∀ principal t, Sound x t → t.repository = s.repository →
      (f principal).Ends (handler x) (Writes principal.user.userId s.repository) t) :
    (authorizeMutation policy secrets >>= f).Ends (handler x)
      (Authorized x policy secrets s) s := by
  obtain ⟨principal, s₁, hrun, hauthenticated⟩ := h.authenticate hhash secrets.sessionToken
  unfold authorizeMutation requireAuthenticated Program.Ends
  rw [Program.bind_assoc, Program.bind_assoc, Program.finish_bind, hrun]
  cases hauthenticated with
  | rejected hlapsed => exact .inl hlapsed
  | @accepted token record principal htoken hget hlive hintime hkey huser =>
    dsimp only
    rw [Program.pure_bind, Program.bind_assoc, Program.finish_bind]
    have hvalid := validateOriginAndCsrf_spec (x := x) policy (some principal) secrets false
      { s with readings := s.readings + 1 }
    have hsound := keeps_plain (onlyPlain_of_session
      (only_validateOriginAndCsrf policy (some principal) secrets false)) _
      (.refl h.sound.read.sound)
    unfold Program.Ends at hvalid
    rcases hrun : (validateOriginAndCsrf policy (some principal) secrets false).finish (handler x)
      { s with readings := s.readings + 1 } with ⟨e | u, t⟩
    · rw [hrun] at hvalid
      exact .inl (.inl hvalid.1)
    · rw [hrun] at hvalid hsound
      rcases hrest principal t hsound.sound hvalid.1 with hsame | ⟨hok, honly⟩
      · exact .inl (.inl hsame)
      · rw [huser] at honly
        exact .inr ⟨hok, record, hvalid.proved htoken hget hlive hintime hkey, honly⟩

theorem Sound.ticket_free (h : Sound x s) (htokens : Function.Injective x.tokens)
    (hhash : Function.Injective tokenHash) :
    s.repository.tickets.get? (tokenHash (x.tokens s.drawn)) = none := by
  by_contra hsome
  obtain ⟨record, hget⟩ := Option.ne_none_iff_exists'.mp hsome
  obtain ⟨-, hmem, -⟩ := h.tickets.keyed _ record hget
  obtain ⟨i, hi, hsame⟩ := h.keys _ (List.mem_append_left _ (List.mem_append_right _ hmem))
  have heq := htokens (hhash hsame)
  omega

theorem authorized_issueRealtimeTicket (h : Guarded x s) (htokens : Function.Injective x.tokens)
    (hhash : Function.Injective tokenHash) (secrets : RequestSecrets) :
    (issueRealtimeTicket policy secrets).Ends (handler x) (Authorized x policy secrets s) s := by
  refine authorized_bind h hhash fun principal t ht hsame => ?_
  unfold Program.Ends
  rw [finish_readClock_bind, finish_createToken_bind]
  cases (x.clock t.readings).plus policy.realtimeTicketTtl with
  | error e => exact .inl hsame
  | ok expiresAt =>
    refine .inr ⟨⟨_, rfl⟩, ?_⟩
    rw [← hsame]
    exact @onlyOf_storeRealtimeTicket t.repository ⟨tokenHash (x.tokens t.drawn),
      principal.sessionTokenHash, principal.user.userId, policy.allowedOrigin, x.clock t.readings,
      expiresAt, none⟩ (ht.ticket_free htokens hhash)

theorem authorized_saveItem (h : Guarded x s) (hhash : Function.Injective tokenHash)
    (secrets : RequestSecrets) (savedType : SavedType) (targetId : String)
    (target : Option TargetRecord) :
    (saveItem policy secrets savedType targetId target).Ends (handler x)
      (Authorized x policy secrets s) s := by
  refine authorized_bind h hhash fun principal t _ hsame => ?_
  unfold Program.Ends
  rw [finish_require_bind]
  split
  · cases target with
    | none => exact .inl hsame
    | some target =>
      dsimp only
      rw [finish_require_bind]
      split
      · rw [finish_require_bind]
        split
        · rw [finish_readClock_bind, finish_repository_bind]
          refine .inr ⟨⟨_, rfl⟩, ?_⟩
          rw [← hsame]
          exact onlyOf_upsertSaved t.repository ⟨principal.user.userId, savedType, targetId,
            target.displayName, x.clock t.readings⟩
        · exact .inl hsame
      · exact .inl hsame
  · exact .inl hsame

theorem authorized_unsaveItem (h : Guarded x s) (hhash : Function.Injective tokenHash)
    (secrets : RequestSecrets) (savedType : SavedType) (targetId : String) :
    (unsaveItem policy secrets savedType targetId).Ends (handler x)
      (Authorized x policy secrets s) s := by
  refine authorized_bind h hhash fun principal t _ hsame => ?_
  unfold Program.Ends
  rw [finish_require_bind]
  split
  · rw [finish_repository_bind]
    refine .inr ⟨⟨_, rfl⟩, ?_⟩
    have hkeyed := h.keyed
    rw [← hsame] at hkeyed ⊢
    exact onlyOf_deleteSaved hkeyed _ savedType targetId
  · exact .inl hsame

theorem authorized_deleteAccount (h : Guarded x s) (hhash : Function.Injective tokenHash)
    (secrets : RequestSecrets) :
    (deleteAccount policy secrets).Ends (handler x) (Authorized x policy secrets s) s := by
  refine authorized_bind h hhash fun principal t _ hsame => ?_
  unfold Program.Ends
  rw [finish_readClock_bind, finish_require_bind]
  split
  · rw [finish_repository_bind]
    have hindexed := h.indexed
    rw [← hsame] at hindexed ⊢
    have honly := onlyOf_deleteAccount hindexed principal.user.userId
    unfold require
    split
    · exact .inr ⟨⟨_, rfl⟩, honly⟩
    · next hfailed =>
      -- the account was gone already
      refine .inl ?_
      show (t.repository.deleteAccount principal.user.userId).2 = t.repository
      have hfailed' : (t.repository.deleteAccount principal.user.userId).1 ≠ true := hfailed
      unfold InMemoryIdentityRepository.deleteAccount at hfailed' ⊢
      split
      · rfl
      · next heq =>
        rw [heq] at hfailed'
        exact absurd rfl hfailed'
  · exact .inl hsame

omit [Sha256] in
theorem revokeSession_eq_self {r : InMemoryIdentityRepository} {key : String}
    (h : ∀ record, r.sessions.get? key = some record → record.revokedAt ≠ none) (now : Datetime) :
    r.revokeSession key now = r := by
  unfold InMemoryIdentityRepository.revokeSession
  split
  · rfl
  · next record hget => rw [if_pos (Option.isSome_iff_ne_none.mpr (h record hget))]

theorem authorized_logout (h : Guarded x s) (hhash : Function.Injective tokenHash)
    (secrets : RequestSecrets) :
    (logout policy secrets).Ends (handler x) (Authorized x policy secrets s) s := by
  obtain ⟨principal, s₁, hrun, hauthenticated⟩ := h.authenticate hhash secrets.sessionToken
  unfold logout Program.Ends
  rw [Program.finish_bind, hrun]
  dsimp only
  rw [Program.finish_bind]
  have hvalid := validateOriginAndCsrf_spec (x := x) policy principal secrets true s₁
  unfold Program.Ends at hvalid
  rcases hrun : (validateOriginAndCsrf policy principal secrets true).finish (handler x) s₁ with
    ⟨e | u, t⟩
  · rw [hrun] at hvalid
    have hsame : t.repository = s₁.repository := hvalid.1
    dsimp only
    cases hauthenticated with
    | rejected hlapsed =>
      rw [← hsame] at hlapsed
      exact .inl hlapsed
    | accepted => exact .inl (.inl hsame)
  · rw [hrun] at hvalid
    have hsame : t.repository = s₁.repository := hvalid.1
    dsimp only
    cases hauthenticated with
    | rejected hlapsed hrevoked =>
      rw [← hsame] at hlapsed hrevoked
      refine .inl ?_
      split
      · exact hlapsed
      · next token htoken =>
        split
        · exact hlapsed
        · next hne =>
          rw [finish_readClock_bind, finish_repository]
          show Lapsed _ _ (t.repository.revokeSession (tokenHash token) (x.clock t.readings))
          rw [revokeSession_eq_self (hrevoked token htoken hne)]
          exact hlapsed
    | @accepted token record principal htoken hget hlive hintime hkey huser =>
      rw [htoken]
      dsimp only
      split
      · exact .inl (.inl hsame)
      · rw [finish_readClock_bind, finish_repository]
        refine .inr ⟨⟨_, rfl⟩, record, hvalid.proved htoken hget hlive hintime hkey, ?_⟩
        show OnlyOf _ _ (t.repository.revokeSession (tokenHash token) (x.clock t.readings))
        rw [hsame]
        exact onlyOf_revokeSession hget _

variable [UnicodeTable]

/-- What a browser sends along with a call that changes something for its user. -/
def ServiceCall.mutation? : ServiceCall → Option RequestSecrets
  | .logout secrets | .issueRealtimeTicket secrets | .saveItem secrets _ _ _
  | .unsaveItem secrets _ _ | .deleteAccount secrets => some secrets
  | _ => none

omit [UnicodeTable] in
theorem Authorized.bind_pure {β : Type} {p : Service α}
    (h : p.Ends (handler x) (Authorized x policy secrets s) s) (g : α → β) :
    (p >>= fun a => pure (g a)).Ends (handler x) (Authorized x policy secrets s) s := by
  unfold Program.Ends
  rw [Program.finish_bind_pure]
  rcases h with hlapsed | ⟨⟨a, ha⟩, hrest⟩
  · exact .inl hlapsed
  · refine .inr ⟨⟨g a, ?_⟩, hrest⟩
    rw [ha]
    rfl

theorem authorized_call (h : Guarded x s) (htokens : Function.Injective x.tokens)
    (hhash : Function.Injective tokenHash) {call : ServiceCall}
    (hcall : call.mutation? = some secrets) :
    Authorized x policy secrets s (answer x policy s call) (afterCall x policy s call) := by
  cases call with
  | logout secrets' =>
    cases hcall
    exact Authorized.bind_pure (authorized_logout h hhash _) _
  | issueRealtimeTicket secrets' =>
    cases hcall
    exact Authorized.bind_pure (authorized_issueRealtimeTicket h htokens hhash _) _
  | saveItem secrets' savedType targetId target =>
    cases hcall
    exact Authorized.bind_pure (authorized_saveItem h hhash _ _ _ _) _
  | unsaveItem secrets' savedType targetId =>
    cases hcall
    exact Authorized.bind_pure (authorized_unsaveItem h hhash _ _ _) _
  | deleteAccount secrets' =>
    cases hcall
    exact Authorized.bind_pure (authorized_deleteAccount h hhash _) _
  | _ => cases hcall

omit [Sha256] [UnicodeTable] in
theorem indexed_finish {α : Type} (p : Service α) {s : IdentityState} (h : s.repository.Indexed) :
    (p.finish (handler x) s).2.repository.Indexed := by
  refine Program.finish_keeps (P := fun t : IdentityState => t.repository.Indexed) ?_ p h
  intro γ op t ht
  cases op with
  | inl op => exact ht.perform op
  | inr op =>
    cases op with
    | now => exact ht
    | createToken n => exact ht

theorem guarded_afterCalls (htokens : Function.Injective x.tokens)
    (hhash : Function.Injective tokenHash) (policy : IdentityPolicy) (calls : List ServiceCall)
    (hshort : ∀ i < (afterCalls x policy calls).drawn, (x.tokens i).length ≤ 512) :
    Guarded x (afterCalls x policy calls) := by
  obtain ⟨husers, hkeyed, -⟩ := issued_afterCalls htokens hhash policy calls
  refine ⟨((sound_initial x).calls htokens hhash policy calls).sound, hkeyed, ?_, husers, hshort⟩
  clear hshort husers hkeyed
  induction calls using List.reverseRecOn with
  | nil => exact indexed_empty
  | append_singleton calls call ih =>
    rw [afterCalls_append]
    exact indexed_finish _ ih

theorem exists_issuedBy (htokens : Function.Injective x.tokens)
    (hhash : Function.Injective tokenHash) {calls : List ServiceCall} {key : String}
    {record : SessionRecord}
    (hget : (afterCalls x policy calls).repository.sessions.get? key = some record)
    (hlive : record.revokedAt = none) :
    record.tokenHash = key ∧ ∃ completion, IssuedBy x policy calls record completion := by
  have hsound := ((sound_initial x).calls htokens hhash policy calls).sound
  obtain ⟨earlier, later, hlog, -, -⟩ := hsound.standing key record hget hlive
  refine ⟨(hsound.sessions key record hget).1, ?_⟩
  refine (issued_afterCalls htokens hhash policy calls).2.2 record ?_
  have hlog' : (afterCalls x policy calls).log = earlier ++ .sessionStored record :: later := hlog
  rw [hlog', storedSessions_append]
  exact List.mem_append_right _ List.mem_cons_self

/-- A request has shown what a login answered: it comes from the allowed origin, with the tokens of
a session that is in time. -/
def ShownOwn (x : Surroundings) (policy : IdentityPolicy) (calls : List ServiceCall)
    (secrets : RequestSecrets) (record : SessionRecord) : Prop :=
  secrets.origin = some policy.allowedOrigin ∧
    (afterCalls x policy calls).repository.sessions.get? record.tokenHash = some record ∧
    record.revokedAt = none ∧ x.clock (afterCalls x policy calls).readings < record.expiresAt ∧
    ∃ completion, IssuedBy x policy calls record completion ∧
      secrets.sessionToken = some completion.sessionToken ∧
      secrets.csrfToken = some completion.csrfToken ∧
      secrets.csrfCookie = some completion.csrfToken

/-- A call that changes a user, role, ticket or saved target, or ends a session that was in time,
has shown what the login of its session answered and changes only what belongs to the session's
user. A call that raises changes nothing, but it may mark a session that had expired. -/
theorem mutation_shownOwn (htokens : Function.Injective x.tokens)
    (hhash : Function.Injective tokenHash) (policy : IdentityPolicy) (calls : List ServiceCall)
    (hshort : ∀ i < (afterCalls x policy calls).drawn, (x.tokens i).length ≤ 512)
    {call : ServiceCall} {secrets : RequestSecrets} (hcall : call.mutation? = some secrets) :
    (¬ Untouched (x.clock (afterCalls x policy calls).readings)
        (afterCalls x policy calls).repository (afterCalls x policy (calls ++ [call])).repository →
      ∃ record, ShownOwn x policy calls secrets record ∧
        OnlyOf record.userId (afterCalls x policy calls).repository
          (afterCalls x policy (calls ++ [call])).repository) ∧
      ∀ e, answer x policy (afterCalls x policy calls) call = .error e →
        Lapsed (x.clock (afterCalls x policy calls).readings)
          (afterCalls x policy calls).repository
          (afterCalls x policy (calls ++ [call])).repository := by
  have hguarded := guarded_afterCalls htokens hhash policy calls hshort
  have hafter : afterCalls x policy (calls ++ [call]) =
      afterCall x policy (afterCalls x policy calls) call := afterCalls_append x policy calls [call]
  rw [hafter]
  have hauthorized : Authorized x policy secrets (afterCalls x policy calls) _ _ :=
    authorized_call hguarded htokens hhash hcall
  rcases hauthorized with hlapsed | ⟨⟨a, hok⟩, record, hproved, honly⟩
  · exact ⟨fun hchanged => absurd hlapsed.untouched hchanged, fun _ _ => hlapsed⟩
  · constructor
    · intro _
      obtain ⟨token, htoken, hget⟩ := hproved.session
      obtain ⟨csrfToken, hcsrf, hcookie, hhashed⟩ := hproved.csrf
      obtain ⟨hkey, completion, hissued⟩ := exists_issuedBy htokens hhash hget hproved.live
      obtain ⟨before, after, hopened⟩ := hissued.opened
      rw [hopened.token] at hkey
      rw [hopened.csrf] at hhashed
      obtain rfl := hhash hkey
      obtain rfl := hhash hhashed
      rw [← hopened.token] at hget
      exact ⟨record, ⟨hproved.origin, hget, hproved.live, hproved.inTime, completion, hissued,
        htoken, hcsrf, hcookie⟩, honly⟩
    · intro e herror
      rw [hok] at herror
      cases herror

/-- A save after the first login. -/
def firstSave : RequestSecrets :=
  ⟨some "aaaa", some "https://dayjaview.vercel.app", some "aaaaa", some "aaaaa"⟩

omit [Sha256] [UnicodeTable] in
/-- A save after the first login changes what is saved, so it was shown what the login answered. -/
theorem mutation_shownOwn_firstSave :
    letI : Sha256 := .ofTable []
    letI : UnicodeTable := .ascii
    ∃ record, ShownOwn stillSurroundings publicPolicy firstLogin firstSave record ∧
      OnlyOf record.userId (afterCalls stillSurroundings publicPolicy firstLogin).repository
        (afterCalls stillSurroundings publicPolicy (firstLogin ++
          [.saveItem firstSave .theme "t1" (some { displayName := "T" })])).repository := by
  have key : ∀ [Sha256] [UnicodeTable], Function.Injective tokenHash →
      (afterCalls stillSurroundings publicPolicy firstLogin).drawn = 5 →
      (afterCalls stillSurroundings publicPolicy firstLogin).repository.saved.keys ≠
        (afterCalls stillSurroundings publicPolicy (firstLogin ++
          [.saveItem firstSave .theme "t1" (some { displayName := "T" })])).repository.saved.keys →
      ∃ record, ShownOwn stillSurroundings publicPolicy firstLogin firstSave record ∧
        OnlyOf record.userId (afterCalls stillSurroundings publicPolicy firstLogin).repository
          (afterCalls stillSurroundings publicPolicy (firstLogin ++
            [.saveItem firstSave .theme "t1" (some { displayName := "T" })])).repository := by
    intro _ _ hhash hdrawn hsaved
    refine (mutation_shownOwn stillSurroundings_tokens_injective hhash publicPolicy firstLogin ?_
      rfl).1 fun hsame => ?_
    · rw [hdrawn]
      decide
    · rw [hsame.saved] at hsaved
      exact hsaved rfl
  exact @key (.ofTable []) .ascii (hexdigest_ofTable_injective []) (by decide +kernel)
    (by decide +kernel)

end Dayjaview.Identity
