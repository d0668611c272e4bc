import Dayjaview.Events.Fingerprint
import Dayjaview.Identity.Safety

/-!
# What the answers of the identity service promise

The invariant of the runs read off the answers of the calls.
-/

namespace Dayjaview.Identity

variable [Sha256] {x : Surroundings} {s t u : IdentityState} {α : Type}

/-- A principal whose session is stored, in time, stands, and belongs to a user who is there. -/
def Genuine (x : Surroundings) (s t : IdentityState) (principal : SessionPrincipal) : Prop :=
  ∃ record, t.repository.sessions.get? principal.sessionTokenHash = some record ∧
    record.revokedAt = none ∧ t.repository.users.get? record.userId = some principal.user ∧
    Standing t.log record ∧ ∃ i, s.readings ≤ i ∧ i < t.readings ∧ x.clock i < record.expiresAt

theorem authenticateSessionHash_spec (h : Sound x s) (key : String) :
    (∃ t, (authenticateSessionHash key).finish (handler x) s = (.ok none, t) ∧
        ∀ record, t.repository.sessions.get? key = some record →
          record.revokedAt ≠ none ∨ t.repository.users.get? record.userId = none) ∨
      ∃ principal, (authenticateSessionHash key).finish (handler x) s =
        (.ok (some principal), { s with readings := s.readings + 1 }) ∧
        principal.sessionTokenHash = key ∧
        Genuine x s { s with readings := s.readings + 1 } principal := by
  unfold authenticateSessionHash
  rw [finish_readClock_bind, finish_repository_bind, perform_getSession]
  dsimp only
  cases hget : s.repository.sessions.get? key with
  | none => exact .inl ⟨_, rfl, by simp [hget]⟩
  | some record =>
    dsimp only
    by_cases hrevoked : record.revokedAt.isSome
    · rw [if_pos hrevoked]
      refine .inl ⟨_, rfl, fun other hother => .inl ?_⟩
      obtain rfl := Option.some.inj (hget.symm.trans hother)
      exact Option.isSome_iff_ne_none.mp hrevoked
    rw [if_neg hrevoked]
    have hlive := Option.not_isSome_iff_eq_none.mp hrevoked
    by_cases hexpired : record.expiresAt ≤ x.clock s.readings
    · rw [if_pos hexpired, finish_repository_bind]
      refine .inl ⟨_, rfl, fun other hother => ?_⟩
      obtain ⟨-, -, -, -, hother | ⟨-, hmem, -⟩⟩ :=
        (narrows_revokeSession { s with readings := s.readings + 1 } key
          (x.clock s.readings)).sessions key other hother
      · exact .inl hother
      · simp at hmem
    rw [if_neg hexpired, finish_repository_bind, perform_getUser]
    dsimp only
    cases huser : s.repository.users.get? record.userId with
    | none =>
      refine .inl ⟨_, rfl, fun other hother => .inr ?_⟩
      obtain rfl := Option.some.inj (hget.symm.trans hother)
      exact huser
    | some user =>
      obtain ⟨hid, -, hrole⟩ := h.users _ user huser
      dsimp only
      rw [finish_repository_bind, perform_getRoles, hid]
      dsimp only
      rw [if_neg (not_not.mpr hrole)]
      exact .inr ⟨_, rfl, rfl, record, hget, hlive, huser, h.standing key record hget hlive,
        s.readings, le_rfl, Nat.lt_succ_self _, Datetime.lt_def.mpr (Int.not_le.mp hexpired)⟩

theorem authenticateSessionHash_of_dead (h : Sound x s) {key : String} (hdead : Dead s key) :
    ∃ t, (authenticateSessionHash key).finish (handler x) s = (.ok none, t) := by
  rcases authenticateSessionHash_spec h key with ⟨t, hrun, -⟩ | ⟨principal, -, rfl, hgenuine⟩
  · exact ⟨t, hrun⟩
  · obtain ⟨record, hget, hlive, huser, -⟩ := hgenuine
    rcases hdead.2 record hget with hrevoked | hgone
    · exact absurd hlive hrevoked
    · rw [hgone] at huser
      cases huser

/-- Something happened between two states. -/
def Happened (s t : IdentityState) (event : IdentityEvent) : Prop :=
  ∃ events, t.log = s.log ++ events ∧ event ∈ events

section

omit [Sha256]

theorem Happened.after {event : IdentityEvent} (h : Happened t u event) (hlog : s.log <+: t.log) :
    Happened s u event := by
  obtain ⟨before, hbefore⟩ := hlog
  obtain ⟨events, hevents, hmem⟩ := h
  exact ⟨before ++ events, by rw [hevents, ← hbefore, List.append_assoc],
    List.mem_append_right _ hmem⟩

theorem Happened.before {event : IdentityEvent} (h : Happened s t event) (hlog : t.log <+: u.log) :
    Happened s u event := by
  obtain ⟨after, hafter⟩ := hlog
  obtain ⟨events, hevents, hmem⟩ := h
  exact ⟨events ++ after, by rw [← hafter, hevents, List.append_assoc],
    List.mem_append_left _ hmem⟩

theorem happened_revokeSession (s : IdentityState) (key : String) (now : Datetime) :
    Happened s (s.perform (.revokeSession key now)).2 (.sessionRevoked key) :=
  ⟨[.sessionRevoked key], rfl, List.mem_singleton_self _⟩

theorem log_prefix_of_finish {p : Service α} {a : Except Error α}
    (h : p.finish (handler x) s = (a, t)) : s.log <+: t.log := by
  have hlog := log_prefix x p s
  rw [h] at hlog
  exact hlog

end

theorem happened_logout {policy : IdentityPolicy} {secrets : RequestSecrets} {token : String}
    (htoken : secrets.sessionToken = some token) (hne : token ≠ "")
    (hrun : (logout policy secrets).finish (handler x) s = (.ok (), t)) :
    Happened s t (.sessionRevoked (tokenHash token)) := by
  obtain ⟨principal, s₁, hfirst, hrun⟩ := Program.finish_bind_eq_ok _ hrun
  obtain ⟨_, s₂, hsecond, hrun⟩ := Program.finish_bind_eq_ok _ hrun
  rw [htoken] at hrun
  dsimp only at hrun
  rw [if_neg hne, finish_readClock_bind, finish_repository] at hrun
  cases hrun
  have hlog := (log_prefix_of_finish hfirst).trans (log_prefix_of_finish hsecond)
  exact (happened_revokeSession { s₂ with readings := s₂.readings + 1 } _ _).after hlog

omit [Sha256] in
theorem happened_bind {β : Type} {p : Service β} {f : β → Service α} {a : α} {event : IdentityEvent}
    (hrun : (p >>= f).finish (handler x) s = (.ok a, t))
    (hrest : ∀ b s', (f b).finish (handler x) s' = (.ok a, t) → Happened s' t event) :
    Happened s t event := by
  obtain ⟨b, s', hfirst, hrun⟩ := Program.finish_bind_eq_ok _ hrun
  exact (hrest b s' hrun).after (log_prefix_of_finish hfirst)

theorem happened_revokeToken {token : String} (hne : token ≠ "") {now : Datetime}
    {f : Unit → Service α} {a : α}
    (hrun : (revokeToken (some token) now >>= f).finish (handler x) s = (.ok a, t)) :
    Happened s t (.sessionRevoked (tokenHash token)) := by
  unfold revokeToken at hrun
  dsimp only at hrun
  rw [if_neg hne, finish_repository_bind] at hrun
  exact (happened_revokeSession s _ _).before (log_prefix_of_finish hrun)

theorem happened_completeGoogleLogin [UnicodeTable] {policy : IdentityPolicy}
    {code state browserNonce token : String} {exchanged : Except Error GoogleIdentity}
    {completion : LoginCompletion} (hne : token ≠ "")
    (hrun : (completeGoogleLogin policy code state browserNonce (some token) exchanged).finish
      (handler x) s = (.ok completion, t)) :
    Happened s t (.sessionRevoked (tokenHash token)) := by
  refine happened_bind hrun fun _ s₁ hrun => happened_bind hrun fun now s₂ hrun =>
    happened_bind hrun fun used s₃ hrun => ?_
  cases used with
  | none => cases hrun
  | some oauthState =>
    refine happened_bind hrun fun identity s₄ hrun => happened_bind hrun fun _ s₅ hrun =>
      happened_bind hrun fun userToken s₆ hrun => happened_bind hrun fun upserted s₇ hrun =>
      happened_bind hrun fun user s₈ hrun => happened_bind hrun fun added s₉ hrun =>
      happened_bind hrun fun _ s₁₀ hrun => ?_
    split at hrun
    · exact happened_bind hrun fun added s₁₁ hrun => happened_bind hrun fun _ s₁₂ hrun =>
        happened_revokeToken hne hrun
    · exact happened_revokeToken hne hrun

/-- A deletion that returns was asked for with a good session, and has deleted the account of its
user. -/
theorem happened_deleteAccount {policy : IdentityPolicy} {secrets : RequestSecrets}
    (hrun : (deleteAccount policy secrets).finish (handler x) s = (.ok (), t)) :
    ∃ principal s', (authenticate secrets.sessionToken).finish (handler x) s =
      (.ok (some principal), s') ∧ Happened s t (.accountDeleted principal.user.userId) := by
  obtain ⟨principal, s₁, hfirst, hrun⟩ := Program.finish_bind_eq_ok _ hrun
  have hlog := log_prefix_of_finish hfirst
  obtain ⟨principal', s₂, hsecond, hfirst⟩ := Program.finish_bind_eq_ok _ hfirst
  obtain ⟨answered, s₃, hthird, hsecond⟩ := Program.finish_bind_eq_ok _ hsecond
  cases answered with
  | none => cases hsecond
  | some answered =>
    obtain ⟨hsame, -⟩ := Prod.mk.inj hsecond
    obtain rfl := Except.ok.inj hsame
    obtain ⟨_, s₄, -, hfirst⟩ := Program.finish_bind_eq_ok _ hfirst
    obtain ⟨hsame, -⟩ := Prod.mk.inj hfirst
    obtain rfl := Except.ok.inj hsame
    refine ⟨answered, s₃, hthird, Happened.after ?_ hlog⟩
    refine happened_bind hrun fun now s₅ hrun => happened_bind hrun fun _ s₆ hrun => ?_
    rw [finish_repository_bind] at hrun
    unfold require at hrun
    split at hrun
    · next hdeleted =>
      cases hrun
      refine ⟨_, rfl, ?_⟩
      have hresult : (s₆.repository.perform (.deleteAccount answered.user.userId)).1 = true :=
        hdeleted
      simp [observe, hresult]
    · cases hrun

variable {principal : SessionPrincipal}

omit [Sha256] in
theorem Genuine.mono (h : Genuine x t u principal) (hreadings : s.readings ≤ t.readings) :
    Genuine x s u principal := by
  obtain ⟨record, hget, hlive, huser, hstanding, i, hi, hrest⟩ := h
  exact ⟨record, hget, hlive, huser, hstanding, i, hreadings.trans hi, hrest⟩

omit [Sha256] in
theorem Genuine.not_dead (h : Genuine x s t principal) :
    ¬ Dead t principal.sessionTokenHash := by
  obtain ⟨record, hget, hlive, huser, -⟩ := h
  rintro ⟨-, hdead⟩
  rcases hdead record hget with hrevoked | hgone
  · exact hrevoked hlive
  · rw [hgone] at huser
    cases huser

theorem consumeRealtimeTicket_spec (h : Sound x s) {policy : IdentityPolicy}
    {ticket origin : String}
    (hrun : (consumeRealtimeTicket policy ticket origin).finish (handler x) s =
      (.ok principal, t)) :
    Genuine x s t principal ∧ ∃ used ∈ usedTickets t.log, used.ticketHash = tokenHash ticket ∧
      used.sessionTokenHash = principal.sessionTokenHash ∧ used.userId = principal.user.userId := by
  obtain ⟨_, s₁, hrequired, hrest⟩ := Program.finish_bind_eq_ok _ hrun
  obtain rfl : s₁ = s := by
    unfold require at hrequired
    split at hrequired
    · exact (Prod.mk.inj hrequired).2.symm
    · cases hrequired
  clear hrun
  rw [finish_readClock_bind, finish_repository_bind] at hrest
  have hread := h.read
  have hsound := (hread.sound.consumeRealtimeTicket (tokenHash ticket) origin
    ⟨s₁.readings, Nat.lt_succ_self _, rfl⟩).sound
  simp only [IdentityState.perform, InMemoryIdentityRepository.perform, observe] at hrest hsound
  rcases s₁.repository.consumeRealtimeTicket_cases (tokenHash ticket) origin
      (x.clock s₁.readings) with
    heq | ⟨record, hget, -, -, heq⟩
  · rw [heq] at hrest
    cases hrest
  · rw [heq] at hrest hsound
    obtain ⟨answered, s₂, hanswered, hrest⟩ := Program.finish_bind_eq_ok _ hrest
    cases answered with
    | none => cases hrest
    | some answered =>
      obtain ⟨_, s₃, hrequired, hrest⟩ := Program.finish_bind_eq_ok _ hrest
      obtain ⟨hsame, rfl⟩ := Prod.mk.inj hrest
      cases hsame
      unfold require at hrequired
      split at hrequired
      · next huser =>
        cases hrequired
        rcases authenticateSessionHash_spec hsound record.sessionTokenHash with
          ⟨s₄, hnone, -⟩ | ⟨other, hsome, hkey, hgenuine⟩
        · rw [hanswered] at hnone
          cases hnone
        · rw [hanswered] at hsome
          obtain ⟨hother, rfl⟩ := Prod.mk.inj hsome
          cases hother
          refine ⟨hgenuine.mono (Nat.le_succ _), { record with consumedAt := some _ }, ?_,
            (h.tickets.keyed _ record hget).1, hkey.symm, huser.symm⟩
          simp [usedTickets]
      · cases hrequired

variable [UnicodeTable] {policy : IdentityPolicy}

theorem answer_authenticate (s : IdentityState) (token : Option String) :
    answer x policy s (.authenticate token) =
      ((authenticate token).finish (handler x) s).1.map .principal := by
  show (Program.finish _ (authenticate token >>= fun p => pure (ServiceAnswer.principal p)) s).1 = _
  rw [Program.finish_bind_pure]

theorem afterCall_authenticate (s : IdentityState) (token : Option String) :
    afterCall x policy s (.authenticate token) = ((authenticate token).finish (handler x) s).2 := by
  show (Program.finish _ (authenticate token >>= fun p => pure (ServiceAnswer.principal p)) s).2 = _
  rw [Program.finish_bind_pure]

theorem authenticate_eq_some (h : Sound x s) {token : Option String} {principal : SessionPrincipal}
    (hanswer : answer x policy s (.authenticate token) = .ok (.principal (some principal))) :
    ∃ text, token = some text ∧ text ≠ "" ∧ text.length ≤ 512 ∧
      principal.sessionTokenHash = tokenHash text ∧
      afterCall x policy s (.authenticate token) = { s with readings := s.readings + 1 } ∧
      (authenticate token).finish (handler x) s =
        (.ok (some principal), { s with readings := s.readings + 1 }) ∧
      Genuine x s { s with readings := s.readings + 1 } principal := by
  rw [answer_authenticate] at hanswer
  rw [afterCall_authenticate]
  cases token with
  | none => cases hanswer
  | some text =>
    unfold authenticate at hanswer ⊢
    dsimp only at hanswer ⊢
    split at hanswer
    · cases hanswer
    · next hgood =>
      obtain ⟨hne, hlength⟩ := not_or.mp hgood
      rw [if_neg hgood]
      rcases authenticateSessionHash_spec h (tokenHash text) with
        ⟨t, hnone, -⟩ | ⟨other, hsome, hkey, hgenuine⟩
      · rw [hnone] at hanswer
        cases hanswer
      · rw [hsome] at hanswer ⊢
        obtain rfl : other = principal := by simpa [Except.map] using hanswer
        exact ⟨text, rfl, hne, by omega, hkey, rfl, rfl, hgenuine⟩

theorem dead_of_authenticate (h : Sound x s) {text : String} (hne : text ≠ "")
    (hlength : text.length ≤ 512) (hkey : tokenHash text ∈ storedKeys s.log)
    (hanswer : answer x policy s (.authenticate (some text)) = .ok (.principal none)) :
    Dead (afterCall x policy s (.authenticate (some text))) (tokenHash text) := by
  rw [answer_authenticate] at hanswer
  rw [afterCall_authenticate]
  unfold authenticate at hanswer ⊢
  have hgood : ¬ (text = "" ∨ 512 < text.length) := by
    rintro (heq | hlong)
    · exact hne heq
    · omega
  dsimp only at hanswer ⊢
  rw [if_neg hgood] at hanswer ⊢
  have hsince := keeps_plain (onlyPlain_of_session (only_authenticateSessionHash (tokenHash text)))
    s (.refl h)
  rcases authenticateSessionHash_spec h (tokenHash text) with
    ⟨t, hnone, hgone⟩ | ⟨other, hsome, -⟩
  · rw [hnone] at hsince ⊢
    exact ⟨hsince.mem_storedKeys hkey, hgone⟩
  · rw [hsome] at hanswer
    cases hanswer

theorem authenticate_of_dead (h : Sound x s) {text : String} (hdead : Dead s (tokenHash text)) :
    answer x policy s (.authenticate (some text)) = .ok (.principal none) := by
  rw [answer_authenticate]
  unfold authenticate
  dsimp only
  split
  · rfl
  · obtain ⟨t, hrun⟩ := authenticateSessionHash_of_dead h hdead
    rw [hrun]
    rfl

/-- A call that ends the session of a token: a logout with it, a login that replaces it, or a
deletion of the account of its user. -/
def Ends (x : Surroundings) (policy : IdentityPolicy) (s : IdentityState) (token : String)
    (principal : SessionPrincipal) (call : ServiceCall) : Prop :=
  match call with
  | .logout secrets => secrets.sessionToken = some token ∧ answer x policy s call = .ok .done
  | .completeGoogleLogin _ _ _ currentSessionToken _ =>
    currentSessionToken = some token ∧ ∃ completion, answer x policy s call =
    .ok (.login completion)
  | .deleteAccount secrets => answer x policy s call = .ok .done ∧ ∃ other,
    answer x policy s (.authenticate secrets.sessionToken) = .ok (.principal (some other)) ∧
      other.user.userId = principal.user.userId
  | _ => False

theorem Ends.dead (htokens : Function.Injective x.tokens) (hhash : Function.Injective tokenHash)
    (h : Sound x s) {token : String} {call : ServiceCall}
    (hanswer : answer x policy s (.authenticate (some token)) = .ok (.principal (some principal)))
    (hends : Ends x policy s token principal call) :
    Dead (afterCall x policy s call) (tokenHash token) := by
  have hcall := h.call htokens hhash policy call
  obtain ⟨text, heq, hne, -, hhashed, -, -, record, hget, -, huser, -⟩ :=
    authenticate_eq_some h hanswer
  cases heq
  rw [hhashed] at hget
  have hkey := (h.sessions _ record hget).2.1
  cases call with
  | logout secrets =>
    obtain ⟨htoken, hdone⟩ := hends
    obtain ⟨_, t, hrun, hrest⟩ := Program.finish_bind_eq_ok _ (Prod.ext hdone rfl :
      (ServiceCall.program policy (.logout secrets)).finish (handler x) s = (_, _))
    obtain ⟨events, hlog, hmem⟩ := happened_logout htoken hne hrun
    exact hcall.ended events ((congrArg IdentityState.log (Prod.mk.inj hrest).2).symm.trans hlog) _
      hkey (.inl hmem)
  | completeGoogleLogin code state browserNonce currentSessionToken exchanged =>
    obtain ⟨rfl, completion, hdone⟩ := hends
    obtain ⟨_, t, hrun, hrest⟩ := Program.finish_bind_eq_ok _ (Prod.ext hdone rfl :
      (ServiceCall.program policy (.completeGoogleLogin code state browserNonce (some token)
        exchanged)).finish (handler x) s = (_, _))
    obtain ⟨events, hlog, hmem⟩ := happened_completeGoogleLogin hne hrun
    exact hcall.ended events ((congrArg IdentityState.log (Prod.mk.inj hrest).2).symm.trans hlog) _
      hkey (.inl hmem)
  | deleteAccount secrets =>
    obtain ⟨hdone, other, hother, hsame⟩ := hends
    obtain ⟨-, -, -, -, -, -, hfinish, -⟩ := authenticate_eq_some h hother
    obtain ⟨_, t, hrun, hrest⟩ := Program.finish_bind_eq_ok _ (Prod.ext hdone rfl :
      (ServiceCall.program policy (.deleteAccount secrets)).finish (handler x) s = (_, _))
    obtain ⟨answered, s', hanswered, events, hlog, hmem⟩ := happened_deleteAccount hrun
    rw [hfinish] at hanswered
    obtain rfl := Option.some.inj (Except.ok.inj (Prod.mk.inj hanswered).1)
    refine hcall.ended events ((congrArg IdentityState.log (Prod.mk.inj hrest).2).symm.trans hlog) _
      hkey (.inr ⟨record, hget, ?_⟩)
    rw [← (h.users _ _ huser).1, ← hsame]
    exact hmem
  | _ => exact hends.elim

/-- What the answers promise after some calls. -/
structure Secure (x : Surroundings) (policy : IdentityPolicy) (calls : List ServiceCall) :
    Prop where
  statesOnce : ((usedStates (afterCalls x policy calls).log).map (·.stateHash)).Nodup
  statesInTime : ∀ used ∈ usedStates (afterCalls x policy calls).log,
    ∃ stored ∈ storedStates (afterCalls x policy calls).log,
      ∃ i < (afterCalls x policy calls).readings,
        used = { stored with consumedAt := some (x.clock i) } ∧ x.clock i < stored.expiresAt
  ticketsOnce : ((usedTickets (afterCalls x policy calls).log).map (·.ticketHash)).Nodup
  ticketsInTime : ∀ used ∈ usedTickets (afterCalls x policy calls).log,
    ∃ stored ∈ storedTickets (afterCalls x policy calls).log,
      ∃ i < (afterCalls x policy calls).readings,
        used = { stored with consumedAt := some (x.clock i) } ∧ x.clock i < stored.expiresAt
  authenticates : ∀ token principal,
    answer x policy (afterCalls x policy calls) (.authenticate token) =
      .ok (.principal (some principal)) →
    (∃ text, token = some text ∧ principal.sessionTokenHash = tokenHash text) ∧
      Genuine x (afterCalls x policy calls) (afterCalls x policy (calls ++ [.authenticate token]))
        principal
  consumes : ∀ ticket origin principal,
    answer x policy (afterCalls x policy calls) (.consumeRealtimeTicket ticket origin) =
      .ok (.principal (some principal)) →
    (∃ used ∈ usedTickets
      (afterCalls x policy (calls ++ [.consumeRealtimeTicket ticket origin])).log,
      used.ticketHash = tokenHash ticket ∧ used.sessionTokenHash = principal.sessionTokenHash ∧
        used.userId = principal.user.userId) ∧
      Genuine x (afterCalls x policy calls)
        (afterCalls x policy (calls ++ [.consumeRealtimeTicket ticket origin])) principal
  ends : ∀ token principal call,
    answer x policy (afterCalls x policy calls) (.authenticate (some token)) =
      .ok (.principal (some principal)) →
    Ends x policy (afterCalls x policy calls) token principal call → ∀ more,
      answer x policy (afterCalls x policy (calls ++ call :: more)) (.authenticate (some token)) =
          .ok (.principal none) ∧
        ∀ ticket origin other,
          answer x policy (afterCalls x policy (calls ++ call :: more))
            (.consumeRealtimeTicket ticket origin) = .ok (.principal (some other)) →
          other.sessionTokenHash ≠ tokenHash token
  stops : ∀ token principal more,
    answer x policy (afterCalls x policy calls) (.authenticate (some token)) =
      .ok (.principal (some principal)) →
    answer x policy (afterCalls x policy (calls ++ .authenticate (some token) :: more))
      (.authenticate (some token)) = .ok (.principal none) → ∀ further,
      answer x policy (afterCalls x policy (calls ++ .authenticate (some token) :: more ++
        .authenticate (some token) :: further)) (.authenticate (some token)) = .ok (.principal none)

/-- Logins and tickets are used once and in time, and sessions are answered only while they are
good, in every run with distinct tokens and a separating hash. -/
theorem run_secure (htokens : Function.Injective x.tokens)
    (hhash : Function.Injective tokenHash) (policy : IdentityPolicy) (calls : List ServiceCall) :
    Secure x policy calls := by
  have hsound : ∀ calls, Sound x (afterCalls x policy calls) := fun calls =>
    ((sound_initial x).calls htokens hhash policy calls).sound
  have hsince : ∀ more call, Since x (afterCall x policy (afterCalls x policy calls) call)
      (afterCalls x policy (calls ++ call :: more)) := by
    intro more call
    rw [afterCalls_append]
    exact ((hsound calls).call htokens hhash policy call).sound.calls htokens hhash policy more
  have h := hsound calls
  refine ⟨h.states.once, ?_, h.tickets.once, ?_, ?_, ?_, ?_, ?_⟩
  · intro used hused
    obtain ⟨stored, hstored, now, rfl, ⟨i, hi, rfl⟩, hlt⟩ := h.states.inTime used hused
    exact ⟨stored, hstored, i, hi, rfl, hlt⟩
  · intro used hused
    obtain ⟨stored, hstored, now, rfl, ⟨i, hi, rfl⟩, hlt⟩ := h.tickets.inTime used hused
    exact ⟨stored, hstored, i, hi, rfl, hlt⟩
  · intro token principal hanswer
    obtain ⟨text, htext, -, -, hkey, hafter, -, hgenuine⟩ := authenticate_eq_some h hanswer
    rw [afterCalls_append, List.foldl_cons, List.foldl_nil, hafter]
    exact ⟨⟨text, htext, hkey⟩, hgenuine⟩
  · intro ticket origin principal hanswer
    obtain ⟨answered, t, hrun, hrest⟩ := Program.finish_bind_eq_ok _ (Prod.ext hanswer rfl :
      (ServiceCall.program policy (.consumeRealtimeTicket ticket origin)).finish (handler x)
        (afterCalls x policy calls) = (_, _))
    obtain ⟨hsame, hafter⟩ := Prod.mk.inj hrest
    obtain rfl : answered = principal := by simpa using hsame
    rw [afterCalls_append, List.foldl_cons, List.foldl_nil]
    obtain ⟨hgenuine, hused⟩ := consumeRealtimeTicket_spec h hrun
    have heq :
        afterCall x policy (afterCalls x policy calls) (.consumeRealtimeTicket ticket origin) = t :=
      hafter.symm
    rw [heq]
    exact ⟨hused, hgenuine⟩
  · intro token principal call hanswer hends more
    have hdead := (hsince more call).dead _ (hends.dead htokens hhash h hanswer)
    refine ⟨authenticate_of_dead (hsound _) hdead, ?_⟩
    rintro ticket origin other hother heq
    obtain ⟨answered, t, hrun, hrest⟩ := Program.finish_bind_eq_ok _ (Prod.ext hother rfl :
      (ServiceCall.program policy (.consumeRealtimeTicket ticket origin)).finish (handler x)
        (afterCalls x policy (calls ++ call :: more)) = (_, _))
    obtain ⟨hsame, -⟩ := Prod.mk.inj hrest
    obtain rfl : answered = other := by simpa using hsame
    have hlater := keeps_consumeRealtimeTicket policy ticket origin _
      (.refl (hsound (calls ++ call :: more)))
    rw [hrun] at hlater
    refine (consumeRealtimeTicket_spec (hsound _) hrun).1.not_dead ?_
    rw [heq]
    exact hlater.dead _ hdead
  · intro token principal more hanswer hnone further
    obtain ⟨text, htext, hne, hlength, hkey, hafter, -, record, hget, -⟩ :=
      authenticate_eq_some h hanswer
    cases htext
    rw [hkey] at hget
    have hstored := (h.sessions _ record hget).2.1
    have hmem := (hsince more (.authenticate (some token))).mem_storedKeys
      (((h.call htokens hhash policy _).mem_storedKeys hstored))
    have hdead := dead_of_authenticate (hsound _) hne hlength hmem hnone
    rw [afterCalls_append]
    have hlater := (((hsound _).call htokens hhash policy _).sound.calls htokens hhash policy
      further).dead _ hdead
    exact authenticate_of_dead (((hsound _).call htokens hhash policy _).sound.calls htokens hhash
      policy further).sound hlater

/-- The settings of the public site. -/
def publicPolicy : IdentityPolicy where
  allowedOrigin := "https://dayjaview.vercel.app"
  validateInternalReturnTo _ := "/today"
  sessionTtl := 28800000000
  oauthStateTtl := 600000000
  realtimeTicketTtl := 30000000
  recentAuthenticationWindow := 600000000
  operatorBootstrapEmails := []
  valid := ⟨by decide, by decide, by decide, by decide⟩

/-- The clock stands still and the tokens grow. -/
def stillSurroundings : Surroundings where
  clock _ := Events.fivePastNine
  tokens n := String.ofList (List.replicate (n + 1) 'a')

omit [Sha256] [UnicodeTable]

theorem stillSurroundings_tokens_injective : Function.Injective stillSurroundings.tokens := by
  intro m n heq
  have hlength := congrArg (fun text => text.toList.length) heq
  simpa [stillSurroundings] using hlength

def somebody : GoogleIdentity := { subject := "1", displayName := "A" }

/-- A login is begun and completed. -/
def firstLogin : List ServiceCall :=
  [.beginGoogleLogin none .ok, .completeGoogleLogin "code" "a" "aa" none (.ok somebody)]

/-- The first login uses its state once, and everything is as promised after it. -/
theorem run_secure_firstLogin :
    letI : Sha256 := .ofTable []
    letI : UnicodeTable := .ascii
    Secure stillSurroundings publicPolicy firstLogin ∧
      (usedStates (afterCalls stillSurroundings publicPolicy firstLogin).log).length = 1 := by
  have key : ∀ [Sha256] [UnicodeTable], Function.Injective tokenHash →
      (usedStates (afterCalls stillSurroundings publicPolicy firstLogin).log).length = 1 →
      Secure stillSurroundings publicPolicy firstLogin ∧
        (usedStates (afterCalls stillSurroundings publicPolicy firstLogin).log).length = 1 :=
    fun hhash hused =>
      ⟨run_secure stillSurroundings_tokens_injective hhash publicPolicy firstLogin, hused⟩
  exact @key (.ofTable []) .ascii (hexdigest_ofTable_injective []) (by decide +kernel)

end Dayjaview.Identity
