import Dayjaview.Core.Voucher
import Dayjaview.Identity.Service

/-!
# Sessions and tickets are safe

In every run of the service, one call after the other, a login and a ticket are used
once and in time. A session is good only if it was stored for a user who is still
there and was not revoked since, and once it is no longer good it stays so.
-/

namespace Dayjaview.Identity

/-- The logins that were begun. -/
def storedStates (log : List IdentityEvent) : List OAuthStateRecord :=
  log.filterMap fun | .stateStored record => some record | _ => none

def usedStates (log : List IdentityEvent) : List OAuthStateRecord :=
  log.filterMap fun | .stateUsed record => some record | _ => none

/-- The tickets that were issued. -/
def storedTickets (log : List IdentityEvent) : List RealtimeTicketRecord :=
  log.filterMap fun | .ticketStored record => some record | _ => none

/-- The tickets that were used. -/
def usedTickets (log : List IdentityEvent) : List RealtimeTicketRecord :=
  log.filterMap fun | .ticketUsed record => some record | _ => none

/-- The sessions that were stored. -/
def storedSessions (log : List IdentityEvent) : List SessionRecord :=
  log.filterMap fun | .sessionStored record => some record | _ => none

/-- The ids of the users that were created. -/
def createdUsers (log : List IdentityEvent) : List String :=
  log.filterMap fun | .userCreated userId => some userId | _ => none

/-- The digests under which something was stored. -/
def storedKeys (log : List IdentityEvent) : List String :=
  (storedStates log).map (·.stateHash) ++ (storedTickets log).map (·.ticketHash) ++
    (storedSessions log).map (·.tokenHash)

variable (log events : List IdentityEvent)

@[simp] theorem storedStates_append :
    storedStates (log ++ events) = storedStates log ++ storedStates events := List.filterMap_append

@[simp] theorem usedStates_append :
    usedStates (log ++ events) = usedStates log ++ usedStates events := List.filterMap_append

@[simp] theorem storedTickets_append :
    storedTickets (log ++ events) = storedTickets log ++ storedTickets events :=
  List.filterMap_append

@[simp] theorem usedTickets_append :
    usedTickets (log ++ events) = usedTickets log ++ usedTickets events := List.filterMap_append

@[simp] theorem storedSessions_append :
    storedSessions (log ++ events) = storedSessions log ++ storedSessions events :=
  List.filterMap_append

@[simp] theorem createdUsers_append :
    createdUsers (log ++ events) = createdUsers log ++ createdUsers events := List.filterMap_append

theorem mem_storedKeys_append {key : String} :
    key ∈ storedKeys (log ++ events) ↔ key ∈ storedKeys log ∨ key ∈ storedKeys events := by
  simp only [storedKeys, storedStates_append, storedTickets_append, storedSessions_append,
    List.map_append, List.mem_append]
  tauto

/-- A session was stored, and since then neither revoked nor deleted with its user. -/
def Standing (log : List IdentityEvent) (record : SessionRecord) : Prop :=
  ∃ earlier later, log = earlier ++ .sessionStored record :: later ∧
    .sessionRevoked record.tokenHash ∉ later ∧ .accountDeleted record.userId ∉ later

theorem Standing.append {record : SessionRecord} (h : Standing log record)
    (hrevoked : .sessionRevoked record.tokenHash ∉ events)
    (hdeleted : .accountDeleted record.userId ∉ events) : Standing (log ++ events) record := by
  obtain ⟨earlier, later, rfl, hnot, hnot'⟩ := h
  refine ⟨earlier, later ++ events, by simp, ?_, ?_⟩
  · rw [List.mem_append]
    exact fun hmem => hmem.elim hnot hrevoked
  · rw [List.mem_append]
    exact fun hmem => hmem.elim hnot' hdeleted

def stateVoucher : Voucher OAuthStateRecord where
  key := (·.stateHash)
  expiresAt := (·.expiresAt)
  consumedAt := (·.consumedAt)
  consume now record := { record with consumedAt := some now }
  key_consume _ _ := rfl
  consumedAt_consume _ _ := rfl

def ticketVoucher : Voucher RealtimeTicketRecord where
  key := (·.ticketHash)
  expiresAt := (·.expiresAt)
  consumedAt := (·.consumedAt)
  consume now record := { record with consumedAt := some now }
  key_consume _ _ := rfl
  consumedAt_consume _ _ := rfl

/-- The clock showed this time. -/
def Surroundings.Shown (x : Surroundings) (s : IdentityState) (now : Datetime) : Prop :=
  ∃ i < s.readings, x.clock i = now

variable [Sha256]

/-- What holds of the state between two operations. -/
structure Sound (x : Surroundings) (s : IdentityState) : Prop where
  states : stateVoucher.UsedOnce (x.Shown s) s.repository.oauthStates (storedStates s.log)
    (usedStates s.log)
  tickets : ticketVoucher.UsedOnce (x.Shown s) s.repository.tickets (storedTickets s.log)
    (usedTickets s.log)
  keys : ∀ key ∈ storedKeys s.log, ∃ i < s.drawn, key = tokenHash (x.tokens i)
  created : ∀ userId ∈ createdUsers s.log, ∃ i < s.drawn, userId = "usr_" ++ x.tokens i
  users : ∀ userId user, s.repository.users.get? userId = some user →
    user.userId = userId ∧ userId ∈ createdUsers s.log ∧
      Role.user ∈ (s.repository.roles.get? userId).getD ∅
  sessions : ∀ key record, s.repository.sessions.get? key = some record →
    record.tokenHash = key ∧ key ∈ storedKeys s.log ∧ record.userId ∈ createdUsers s.log
  standing : ∀ key record, s.repository.sessions.get? key = some record →
    record.revokedAt = none → Standing s.log record

/-- A session that was stored and is no longer good. -/
def Dead (s : IdentityState) (key : String) : Prop :=
  key ∈ storedKeys s.log ∧ ∀ record, s.repository.sessions.get? key = some record →
    record.revokedAt ≠ none ∨ s.repository.users.get? record.userId = none

/-- What holds of a state after another one. -/
structure Since (x : Surroundings) (s t : IdentityState) : Prop where
  sound : Sound x t
  log : s.log <+: t.log
  readings : s.readings ≤ t.readings
  dead : ∀ key, Dead s key → Dead t key
  kept : ∀ key ∈ storedKeys s.log, ∀ record, t.repository.sessions.get? key = some record →
    ∃ old, s.repository.sessions.get? key = some old ∧ record.userId = old.userId
  ended : ∀ events, t.log = s.log ++ events → ∀ key ∈ storedKeys s.log,
    (.sessionRevoked key ∈ events ∨ ∃ record, s.repository.sessions.get? key = some record ∧
      .accountDeleted record.userId ∈ events) → Dead t key

variable {x : Surroundings} {s t u : IdentityState}

theorem Since.refl (h : Sound x s) : Since x s s := by
  refine ⟨h, List.prefix_refl _, le_refl _, fun _ hdead => hdead, ?_, ?_⟩
  · exact fun key _ record hget => ⟨record, hget, rfl⟩
  · intro events hlog key _ hended
    obtain rfl := List.append_right_eq_self.mp hlog.symm
    simp at hended

theorem Since.mem_storedKeys (h : Since x s t) {key : String} (hkey : key ∈ storedKeys s.log) :
    key ∈ storedKeys t.log := by
  obtain ⟨events, hlog⟩ := h.log
  rw [← hlog, mem_storedKeys_append]
  exact .inl hkey

theorem Since.trans (h : Since x s t) (h' : Since x t u) : Since x s u := by
  refine ⟨h'.sound, h.log.trans h'.log, h.readings.trans h'.readings,
    fun key hdead => h'.dead key (h.dead key hdead), ?_, ?_⟩
  · intro key hkey record hget
    obtain ⟨mid, hmid, huser'⟩ := h'.kept key (h.mem_storedKeys hkey) record hget
    obtain ⟨old, hold, huser⟩ := h.kept key hkey mid hmid
    exact ⟨old, hold, huser'.trans huser⟩
  · intro events hlog key hkey hended
    obtain ⟨before, hbefore⟩ := h.log
    obtain ⟨after, hafter⟩ := h'.log
    obtain rfl : before ++ after = events := by
      rw [← hafter, ← hbefore, List.append_assoc] at hlog
      exact List.append_cancel_left hlog
    have hkey' := h.mem_storedKeys hkey
    simp only [List.mem_append] at hended
    rcases hended with (hearly | hlate) | ⟨record, hget, hearly | hlate⟩
    · exact h'.dead key (h.ended before hbefore.symm key hkey (.inl hearly))
    · exact h'.ended after hafter.symm key hkey' (.inl hlate)
    · exact h'.dead key (h.ended before hbefore.symm key hkey (.inr ⟨record, hget, hearly⟩))
    · -- the session is gone in between, or it is still one of that user
      cases hmid : t.repository.sessions.get? key with
      | none => exact h'.dead key ⟨hkey', by simp [hmid]⟩
      | some mid =>
        obtain ⟨old, hold, huser⟩ := h.kept key hkey mid hmid
        obtain rfl := Option.some.inj (hget.symm.trans hold)
        exact h'.ended after hafter.symm key hkey' (.inr ⟨mid, hmid, huser ▸ hlate⟩)

omit [Sha256] in
theorem not_ended {events events' : List IdentityEvent} (hlog : t.log = s.log ++ events)
    (hrevoked : ∀ key, .sessionRevoked key ∉ events)
    (hdeleted : ∀ userId, .accountDeleted userId ∉ events) (hlog' : t.log = s.log ++ events')
    {key : String} (hended : .sessionRevoked key ∈ events' ∨
      ∃ record, s.repository.sessions.get? key = some record ∧
        .accountDeleted record.userId ∈ events') : False := by
  obtain rfl := List.append_cancel_left (hlog.symm.trans hlog')
  rcases hended with hmem | ⟨record, -, hmem⟩
  · exact hrevoked key hmem
  · exact hdeleted _ hmem

/-- What an operation does that stores and uses nothing: records are removed or revoked. -/
structure Narrows (s t : IdentityState) (events : List IdentityEvent) : Prop where
  log : t.log = s.log ++ events
  quiet : ∀ event ∈ events,
    (∃ key, event = .sessionRevoked key) ∨ ∃ userId, event = .accountDeleted userId
  readings : s.readings ≤ t.readings
  drawn : s.drawn ≤ t.drawn
  states : ∀ key record, t.repository.oauthStates.get? key = some record →
    s.repository.oauthStates.get? key = some record
  tickets : ∀ key record, t.repository.tickets.get? key = some record →
    s.repository.tickets.get? key = some record
  users : ∀ userId user, t.repository.users.get? userId = some user →
    s.repository.users.get? userId = some user
  roles : ∀ userId user, t.repository.users.get? userId = some user →
    Role.user ∈ (s.repository.roles.get? userId).getD ∅ →
    Role.user ∈ (t.repository.roles.get? userId).getD ∅
  sessions : ∀ key record, t.repository.sessions.get? key = some record →
    ∃ old, s.repository.sessions.get? key = some old ∧ record.tokenHash = old.tokenHash ∧
      record.userId = old.userId ∧ (record.revokedAt ≠ none ∨
        record = old ∧ .sessionRevoked key ∉ events ∧ .accountDeleted record.userId ∉ events)

theorem Narrows.since {events : List IdentityEvent} (h : Narrows s t events) (hs : Sound x s) :
    Since x s t := by
  have hshown : ∀ now, x.Shown s now → x.Shown t now := by
    rintro now ⟨i, hi, rfl⟩
    exact ⟨i, hi.trans_le h.readings, rfl⟩
  have hnone :
      ∀ {α : Type} (f : IdentityEvent → Option α), (∀ key, f (.sessionRevoked key) = none) →
      (∀ userId, f (.accountDeleted userId) = none) → events.filterMap f = [] := by
    intro α f hrevoked hdeleted
    refine List.filterMap_eq_nil_iff.mpr fun event hevent => ?_
    rcases h.quiet event hevent with ⟨key, rfl⟩ | ⟨userId, rfl⟩
    · exact hrevoked key
    · exact hdeleted userId
  have hstates : storedStates t.log = storedStates s.log := by
    have hnil : storedStates events = [] := hnone _ (fun _ => rfl) fun _ => rfl
    rw [h.log, storedStates_append, hnil, List.append_nil]
  have husedStates : usedStates t.log = usedStates s.log := by
    have hnil : usedStates events = [] := hnone _ (fun _ => rfl) fun _ => rfl
    rw [h.log, usedStates_append, hnil, List.append_nil]
  have htickets : storedTickets t.log = storedTickets s.log := by
    have hnil : storedTickets events = [] := hnone _ (fun _ => rfl) fun _ => rfl
    rw [h.log, storedTickets_append, hnil, List.append_nil]
  have husedTickets : usedTickets t.log = usedTickets s.log := by
    have hnil : usedTickets events = [] := hnone _ (fun _ => rfl) fun _ => rfl
    rw [h.log, usedTickets_append, hnil, List.append_nil]
  have hsessions : storedSessions t.log = storedSessions s.log := by
    have hnil : storedSessions events = [] := hnone _ (fun _ => rfl) fun _ => rfl
    rw [h.log, storedSessions_append, hnil, List.append_nil]
  have hcreated : createdUsers t.log = createdUsers s.log := by
    have hnil : createdUsers events = [] := hnone _ (fun _ => rfl) fun _ => rfl
    rw [h.log, createdUsers_append, hnil, List.append_nil]
  have hkeys : storedKeys t.log = storedKeys s.log := by
    rw [storedKeys, hstates, htickets, hsessions, storedKeys]
  refine ⟨⟨?_, ?_, ?_, ?_, ?_, ?_, ?_⟩, ⟨events, h.log.symm⟩, h.readings, ?_, ?_, ?_⟩
  · rw [hstates, husedStates]
    exact (hs.states.mono hshown).remove h.states
  · rw [htickets, husedTickets]
    exact (hs.tickets.mono hshown).remove h.tickets
  · intro key hkey
    obtain ⟨i, hi, rfl⟩ := hs.keys key (hkeys ▸ hkey)
    exact ⟨i, hi.trans_le h.drawn, rfl⟩
  · intro userId hmem
    obtain ⟨i, hi, rfl⟩ := hs.created userId (hcreated ▸ hmem)
    exact ⟨i, hi.trans_le h.drawn, rfl⟩
  · intro userId user hget
    obtain ⟨hid, hmem, hrole⟩ := hs.users userId user (h.users userId user hget)
    exact ⟨hid, hcreated ▸ hmem, h.roles userId user hget hrole⟩
  · intro key record hget
    obtain ⟨old, hold, htoken, huser, -⟩ := h.sessions key record hget
    rw [hkeys, hcreated, htoken, huser]
    exact hs.sessions key old hold
  · intro key record hget hlive
    obtain ⟨old, hold, -, -, hrevoked | ⟨rfl, hrevoked, hdeleted⟩⟩ := h.sessions key record hget
    · exact absurd hlive hrevoked
    · rw [h.log]
      rw [← (hs.sessions key record hold).1] at hrevoked
      exact (hs.standing key record hold hlive).append _ _ hrevoked hdeleted
  · rintro key ⟨hmem, hgone⟩
    refine ⟨hkeys ▸ hmem, fun record hget => ?_⟩
    obtain ⟨old, hold, -, huser, hrevoked | ⟨rfl, -, -⟩⟩ := h.sessions key record hget
    · exact .inl hrevoked
    · refine (hgone record hold).imp_right fun hnouser => ?_
      by_contra hsome
      obtain ⟨user, huser'⟩ := Option.ne_none_iff_exists'.mp hsome
      rw [h.users _ user huser'] at hnouser
      cases hnouser
  · intro key _ record hget
    obtain ⟨old, hold, -, huser, -⟩ := h.sessions key record hget
    exact ⟨old, hold, huser⟩
  · intro events' hlog key hkey hended
    obtain rfl := List.append_cancel_left (h.log.symm.trans hlog)
    refine ⟨hkeys ▸ hkey, fun record hget => ?_⟩
    obtain ⟨old, hold, -, huser, hrevoked | ⟨rfl, hrevoked, hdeleted⟩⟩ := h.sessions key record hget
    · exact .inl hrevoked
    · rcases hended with hmem | ⟨record', hold', hmem⟩
      · exact absurd hmem hrevoked
      · obtain rfl := Option.some.inj (hold.symm.trans hold')
        exact absurd hmem hdeleted

omit [Sha256] in
theorem Narrows.of_same (hlog : t.log = s.log) (hreadings : s.readings ≤ t.readings)
    (hdrawn : s.drawn ≤ t.drawn) (hstates : t.repository.oauthStates = s.repository.oauthStates)
    (htickets : t.repository.tickets = s.repository.tickets)
    (husers : t.repository.users = s.repository.users)
    (hsessions : t.repository.sessions = s.repository.sessions)
    (hroles : ∀ userId, Role.user ∈ (s.repository.roles.get? userId).getD ∅ →
      Role.user ∈ (t.repository.roles.get? userId).getD ∅) : Narrows s t [] := by
  refine ⟨by simp [hlog], by simp, hreadings, hdrawn, ?_, ?_, ?_, ?_, ?_⟩
  · simp [hstates]
  · simp [htickets]
  · simp [husers]
  · exact fun userId _ _ => hroles userId
  · intro key record hget
    exact ⟨record, hsessions ▸ hget, rfl, rfl, .inr ⟨rfl, by simp, by simp⟩⟩

theorem Sound.read (h : Sound x s) : Since x s { s with readings := s.readings + 1 } :=
  Narrows.since (.of_same rfl (Nat.le_succ _) le_rfl rfl rfl rfl rfl fun _ hrole => hrole) h

theorem Sound.draw (h : Sound x s) : Since x s { s with drawn := s.drawn + 1 } :=
  Narrows.since (.of_same rfl le_rfl (Nat.le_succ _) rfl rfl rfl rfl fun _ hrole => hrole) h

section

omit [Sha256]

theorem narrows_revokeSession (s : IdentityState) (key : String) (now : Datetime) :
    Narrows s (s.perform (.revokeSession key now)).2 [.sessionRevoked key] := by
  have hquiet : ∀ event ∈ [IdentityEvent.sessionRevoked key],
      (∃ key, event = .sessionRevoked key) ∨ ∃ userId, event = .accountDeleted userId :=
    fun event hevent => .inl ⟨key, List.mem_singleton.mp hevent⟩
  have huntouched : ∀ k record, s.repository.sessions.get? k = some record →
      (k = key → record.revokedAt ≠ none) → ∃ old, s.repository.sessions.get? k = some old ∧
        record.tokenHash = old.tokenHash ∧ record.userId = old.userId ∧
        (record.revokedAt ≠ none ∨ record = old ∧ IdentityEvent.sessionRevoked k ∉
          [.sessionRevoked key] ∧
          .accountDeleted record.userId ∉ [IdentityEvent.sessionRevoked key]) := by
    intro k record hget hkey
    refine ⟨record, hget, rfl, rfl, ?_⟩
    by_cases heq : k = key
    · exact .inl (hkey heq)
    · exact .inr ⟨rfl, by simpa using heq, by simp⟩
  simp only [IdentityState.perform, InMemoryIdentityRepository.perform, observe,
    InMemoryIdentityRepository.revokeSession]
  cases hget : s.repository.sessions.get? key with
  | none =>
    refine ⟨rfl, hquiet, le_rfl, le_rfl, fun _ _ => id, fun _ _ => id, fun _ _ => id,
      fun _ _ _ => id, fun k record hk => huntouched k record hk ?_⟩
    rintro rfl
    rw [hget] at hk
    cases hk
  | some old =>
    dsimp only
    split
    · next hrevoked =>
      refine ⟨rfl, hquiet, le_rfl, le_rfl, fun _ _ => id, fun _ _ => id, fun _ _ => id,
        fun _ _ _ => id, fun k record hk => huntouched k record hk ?_⟩
      rintro rfl hnone
      rw [hget] at hk
      cases hk
      rw [hnone] at hrevoked
      cases hrevoked
    · refine ⟨rfl, hquiet, le_rfl, le_rfl, fun _ _ => id, fun _ _ => id, fun _ _ => id,
        fun _ _ _ => id, fun k record hk => ?_⟩
      rw [Dict.get?_set] at hk
      split at hk
      · next heq =>
        cases hk
        exact ⟨old, heq ▸ hget, rfl, rfl, .inl (by simp)⟩
      · next hne => exact huntouched k record hk fun heq => absurd heq hne

theorem narrows_deleteAccount (s : IdentityState) (userId : String) :
    Narrows s (s.perform (.deleteAccount userId)).2
      (observe (.deleteAccount userId) (s.repository.deleteAccount userId).1) := by
  cases hget : s.repository.users.get? userId with
  | none =>
    simp only [IdentityState.perform, InMemoryIdentityRepository.perform, observe,
      InMemoryIdentityRepository.deleteAccount, hget]
    exact .of_same (by simp) le_rfl le_rfl rfl rfl rfl rfl fun _ => id
  | some user =>
    simp only [IdentityState.perform, InMemoryIdentityRepository.perform, observe,
      InMemoryIdentityRepository.deleteAccount, hget]
    refine ⟨rfl, by simp, le_rfl, le_rfl, fun _ _ => id, ?_, ?_, ?_, ?_⟩
    · intro key record hticket
      rw [Dict.get?_filterValues, Option.filter_eq_some_iff] at hticket
      exact hticket.1
    · intro id other hother
      rw [Dict.get?_erase] at hother
      split at hother
      · cases hother
      · exact hother
    · intro id other hother hrole
      rw [Dict.get?_erase] at hother ⊢
      split at hother
      · cases hother
      · next hne =>
        rw [if_neg hne]
        exact hrole
    · intro key record hsession
      rw [Dict.get?_filterValues, Option.filter_eq_some_iff] at hsession
      refine ⟨record, hsession.1, rfl, rfl, .inr ⟨rfl, by simp, ?_⟩⟩
      simpa using hsession.2

theorem narrows_purgeExpired (s : IdentityState) (now : Datetime) :
    Narrows s (s.perform (.purgeExpired now)).2 [] := by
  have hsub : ∀ {R : Type} (table : Dict String R) (p : R → Bool) key record,
      (table.filterValues p).get? key = some record → table.get? key = some record := by
    intro R table p key record hget
    rw [Dict.get?_filterValues, Option.filter_eq_some_iff] at hget
    exact hget.1
  simp only [IdentityState.perform, InMemoryIdentityRepository.perform, observe,
    InMemoryIdentityRepository.purgeExpired]
  exact ⟨rfl, by simp, le_rfl, le_rfl, hsub _ _, hsub _ _, fun _ _ => id, fun _ _ _ => id,
    fun key record hget => ⟨record, hsub _ _ key record hget, rfl, rfl, .inr (by simp)⟩⟩

end

/-- An operation that stores, uses and creates nothing. -/
def Plain : {α : Type} → RepositoryOp α → Prop
  | _, .storeOauthState _ | _, .consumeOauthState _ _ _ | _, .upsertUser _ _ _ | _, .storeSession _
  | _, .storeRealtimeTicket _ | _, .consumeRealtimeTicket _ _ _ => False
  | _, _ => True

theorem Sound.plain {α : Type} {op : RepositoryOp α} (h : Sound x s) (hop : Plain op) :
    Since x s (s.perform op).2 := by
  cases op with
  | storeOauthState | consumeOauthState | upsertUser | storeSession | storeRealtimeTicket
  | consumeRealtimeTicket => exact hop.elim
  | getUser | getRoles | getSession | upsertSaved | deleteSaved =>
    refine Narrows.since (.of_same ?_ le_rfl le_rfl ?_ ?_ ?_ ?_ ?_) h
    all_goals
      simp only [IdentityState.perform, InMemoryIdentityRepository.perform, observe,
        InMemoryIdentityRepository.upsertSaved, List.append_nil]
      try split
      all_goals simp
  | addRole userId role =>
    refine Narrows.since (.of_same ?_ le_rfl le_rfl ?_ ?_ ?_ ?_ ?_) h
    all_goals
      simp only [IdentityState.perform, InMemoryIdentityRepository.perform, observe,
        InMemoryIdentityRepository.addRole, List.append_nil]
      try split
      all_goals try rfl
    · exact fun _ hrole => hrole
    · intro id hrole
      rw [Dict.get?_set]
      split
      · next heq =>
        subst heq
        cases hget : s.repository.roles.get? id with
        | none => simp
        | some roles =>
          rw [hget] at hrole
          exact Finset.mem_insert_of_mem hrole
      · exact hrole
  | revokeSession key now => exact (narrows_revokeSession s key now).since h
  | deleteAccount userId => exact (narrows_deleteAccount s userId).since h
  | purgeExpired now => exact (narrows_purgeExpired s now).since h

theorem Sound.vouchers (h : Sound x s) {events : List IdentityEvent}
    {r : InMemoryIdentityRepository}
    (husers : r.users = s.repository.users) (hroles : r.roles = s.repository.roles)
    (hsessions : r.sessions = s.repository.sessions)
    (hstates : stateVoucher.UsedOnce (x.Shown s) r.oauthStates
      (storedStates s.log ++ storedStates events) (usedStates s.log ++ usedStates events))
    (htickets : ticketVoucher.UsedOnce (x.Shown s) r.tickets
      (storedTickets s.log ++ storedTickets events) (usedTickets s.log ++ usedTickets events))
    (hkeys : ∀ key ∈ storedKeys events, ∃ i < s.drawn, key = tokenHash (x.tokens i))
    (hcreated : createdUsers events = [])
    (hrevoked : ∀ key, .sessionRevoked key ∉ events)
    (hdeleted : ∀ userId, .accountDeleted userId ∉ events) :
    Since x s { s with repository := r, log := s.log ++ events } := by
  refine ⟨⟨?_, ?_, ?_, ?_, ?_, ?_, ?_⟩, List.prefix_append _ _, le_rfl, ?_, ?_,
    fun _ hlog _ _ hended => (not_ended rfl hrevoked hdeleted hlog hended).elim⟩
  · rw [storedStates_append, usedStates_append]
    exact hstates
  · rw [storedTickets_append, usedTickets_append]
    exact htickets
  · intro key hkey
    rcases (mem_storedKeys_append _ _).mp hkey with hold | hnew
    · exact h.keys key hold
    · exact hkeys key hnew
  · simpa [hcreated] using h.created
  · simpa [hcreated, husers, hroles] using h.users
  · intro key record hget
    obtain ⟨hkey, hmem, huser⟩ := h.sessions key record (hsessions ▸ hget)
    exact ⟨hkey, (mem_storedKeys_append _ _).mpr (.inl hmem), by simpa [hcreated] using huser⟩
  · intro key record hget hlive
    exact (h.standing key record (hsessions ▸ hget) hlive).append _ _ (hrevoked _) (hdeleted _)
  · rintro key ⟨hmem, hgone⟩
    refine ⟨(mem_storedKeys_append _ _).mpr (.inl hmem), ?_⟩
    simpa [husers, hsessions] using hgone
  · exact fun key _ record hget => ⟨record, hsessions ▸ hget, rfl⟩

/-- A key is the digest of a token and nothing was stored under it. -/
def Fresh (x : Surroundings) (s : IdentityState) (key : String) : Prop :=
  key ∉ storedKeys s.log ∧ ∃ i < s.drawn, key = tokenHash (x.tokens i)

theorem Sound.storeOauthState (h : Sound x s) {record : OAuthStateRecord}
    (hfresh : Fresh x s record.stateHash) : Since x s (s.perform (.storeOauthState record)).2 := by
  have hnew : stateVoucher.key record ∉ (storedStates s.log).map stateVoucher.key :=
    fun hmem => hfresh.1 (List.mem_append_left _ (List.mem_append_left _ hmem))
  have hstates := h.states.store hnew
  have htickets := h.tickets
  rw [← List.append_nil (usedStates s.log)] at hstates
  rw [← List.append_nil (usedTickets s.log), ← List.append_nil (storedTickets s.log)] at htickets
  refine h.vouchers rfl rfl rfl hstates htickets ?_ rfl (by simp [observe]) (by simp [observe])
  intro key hkey
  obtain rfl : key = record.stateHash := List.mem_singleton.mp hkey
  exact hfresh.2

theorem Sound.storeRealtimeTicket (h : Sound x s) {record : RealtimeTicketRecord}
    (hfresh : Fresh x s record.ticketHash) :
    Since x s (s.perform (.storeRealtimeTicket record)).2 := by
  have hnew : ticketVoucher.key record ∉ (storedTickets s.log).map ticketVoucher.key :=
    fun hmem => hfresh.1 (List.mem_append_left _ (List.mem_append_right _ hmem))
  have hstates := h.states
  have htickets := h.tickets.store hnew
  rw [← List.append_nil (usedStates s.log), ← List.append_nil (storedStates s.log)] at hstates
  rw [← List.append_nil (usedTickets s.log)] at htickets
  refine h.vouchers rfl rfl rfl hstates htickets ?_ rfl (by simp [observe]) (by simp [observe])
  intro key hkey
  obtain rfl : key = record.ticketHash := List.mem_singleton.mp hkey
  exact hfresh.2

theorem Sound.consumeOauthState (h : Sound x s) (stateHash nonceHash : String) {now : Datetime}
    (hnow : x.Shown s now) :
    Since x s (s.perform (.consumeOauthState stateHash nonceHash now)).2 := by
  simp only [IdentityState.perform, InMemoryIdentityRepository.perform, observe]
  rcases s.repository.consumeOauthState_cases stateHash nonceHash now with
    heq | ⟨record, hget, hunused, hintime, heq⟩
  · rw [heq]
    simpa using Since.refl h
  · rw [heq]
    have hstates := h.states.use hget hunused hnow hintime
    have htickets := h.tickets
    rw [← List.append_nil (storedStates s.log)] at hstates
    rw [← List.append_nil (usedTickets s.log), ← List.append_nil (storedTickets s.log)] at htickets
    exact h.vouchers rfl rfl rfl hstates htickets
      (by simp [storedKeys, storedStates, storedTickets, storedSessions]) rfl (by simp) (by simp)

theorem Sound.consumeRealtimeTicket (h : Sound x s) (ticketHash origin : String) {now : Datetime}
    (hnow : x.Shown s now) :
    Since x s (s.perform (.consumeRealtimeTicket ticketHash origin now)).2 := by
  simp only [IdentityState.perform, InMemoryIdentityRepository.perform, observe]
  rcases s.repository.consumeRealtimeTicket_cases ticketHash origin now with
    heq | ⟨record, hget, hunused, hintime, heq⟩
  · rw [heq]
    simpa using Since.refl h
  · rw [heq]
    have hstates := h.states
    have htickets := h.tickets.use hget hunused hnow hintime
    rw [← List.append_nil (usedStates s.log), ← List.append_nil (storedStates s.log)] at hstates
    rw [← List.append_nil (storedTickets s.log)] at htickets
    exact h.vouchers rfl rfl rfl hstates htickets
      (by simp [storedKeys, storedStates, storedTickets, storedSessions]) rfl (by simp) (by simp)

theorem Sound.storeSession (h : Sound x s) {record : SessionRecord}
    (hfresh : Fresh x s record.tokenHash) (huser : record.userId ∈ createdUsers s.log) :
    Since x s (s.perform (.storeSession record)).2 := by
  have hkeys : ∀ key, key ∈ storedKeys (s.log ++ [.sessionStored record]) ↔
      key ∈ storedKeys s.log ∨ key = record.tokenHash := by
    intro key
    rw [mem_storedKeys_append]
    simp [storedKeys, storedStates, storedTickets, storedSessions]
  have hcreated : createdUsers (s.log ++ [.sessionStored record]) = createdUsers s.log := by
    rw [createdUsers_append]
    exact List.append_nil _
  have hother : ∀ key ∈ storedKeys s.log, key ≠ record.tokenHash := by
    rintro key hmem rfl
    exact hfresh.1 hmem
  simp only [IdentityState.perform, InMemoryIdentityRepository.perform, observe]
  refine ⟨⟨?_, ?_, ?_, ?_, ?_, ?_, ?_⟩, List.prefix_append _ _, le_rfl, ?_, ?_,
    fun _ hlog _ _ hended => (not_ended rfl (by simp) (by simp) hlog hended).elim⟩
  · have hstates := h.states
    rw [← List.append_nil (storedStates s.log), ← List.append_nil (usedStates s.log)] at hstates
    rw [storedStates_append, usedStates_append]
    exact hstates
  · have htickets := h.tickets
    rw [← List.append_nil (storedTickets s.log), ← List.append_nil (usedTickets s.log)] at htickets
    rw [storedTickets_append, usedTickets_append]
    exact htickets
  · intro key hkey
    rcases (hkeys key).mp hkey with hold | rfl
    · exact h.keys key hold
    · exact hfresh.2
  · rw [hcreated]
    exact h.created
  · rw [hcreated]
    exact h.users
  · intro key other hget
    rw [hcreated, hkeys]
    rw [Dict.get?_set] at hget
    split at hget
    · next heq =>
      cases hget
      exact ⟨heq.symm, .inr heq, huser⟩
    · obtain ⟨hkey, hmem, hother⟩ := h.sessions key other hget
      exact ⟨hkey, .inl hmem, hother⟩
  · intro key other hget hlive
    rw [Dict.get?_set] at hget
    split at hget
    · cases hget
      exact ⟨s.log, [], rfl, by simp, by simp⟩
    · exact (h.standing key other hget hlive).append _ _ (by simp) (by simp)
  · rintro key ⟨hmem, hgone⟩
    refine ⟨(hkeys key).mpr (.inl hmem), fun other hget => ?_⟩
    rw [Dict.get?_set_of_ne _ _ (hother key hmem)] at hget
    exact hgone other hget
  · intro key hmem other hget
    rw [Dict.get?_set_of_ne _ _ (hother key hmem)] at hget
    exact ⟨other, hget, rfl⟩

theorem Sound.upsertUser (h : Sound x s) {proposedUserId : String} (identity : GoogleIdentity)
    (now : Datetime) (hnew : proposedUserId ∉ createdUsers s.log)
    (hdrawn : ∃ i < s.drawn, proposedUserId = "usr_" ++ x.tokens i) :
    Since x s (s.perform (.upsertUser proposedUserId identity now)).2 ∧
      ∀ user, (s.perform (.upsertUser proposedUserId identity now)).1 = .ok user →
        user.userId ∈ createdUsers (s.perform (.upsertUser proposedUserId identity now)).2.log := by
  simp only [IdentityState.perform, InMemoryIdentityRepository.perform]
  rcases s.repository.upsertUser_cases proposedUserId identity now with
    ⟨e, heq⟩ | ⟨userId, existing, updated, -, hget, hid, heq⟩ | ⟨user, -, hnone, hid, heq⟩
  · rw [heq]
    simp only [observe, List.append_nil]
    exact ⟨Since.refl h, by simp⟩
  · obtain ⟨hexisting, hmem, hrole⟩ := h.users userId existing hget
    have hother : updated.userId ≠ proposedUserId := by
      rw [hid, hexisting]
      rintro rfl
      exact hnew hmem
    rw [heq]
    simp only [observe, if_neg hother, List.append_nil]
    refine ⟨⟨⟨h.states, h.tickets, h.keys, h.created, ?_, h.sessions, h.standing⟩,
      List.prefix_refl _, le_rfl, ?_, fun key _ record hget => ⟨record, hget, rfl⟩,
      fun _ hlog _ _ hended =>
        (not_ended (List.append_nil _).symm (by simp) (by simp) hlog hended).elim⟩, ?_⟩
    · intro id user huser
      rw [Dict.get?_set] at huser
      split at huser
      · next hk =>
        cases huser
        subst hk
        exact ⟨hid.trans hexisting, hmem, hrole⟩
      · exact h.users id user huser
    · rintro key ⟨hkey, hgone⟩
      refine ⟨hkey, fun record hsession => (hgone record hsession).imp_right fun hnouser => ?_⟩
      rw [Dict.get?_set]
      split
      · next hk =>
        rw [hk, hget] at hnouser
        cases hnouser
      · exact hnouser
    · rintro user huser
      cases huser
      rw [hid, hexisting]
      exact hmem
  · rw [heq]
    simp only [observe, if_pos hid]
    have hcreated : createdUsers (s.log ++ [.userCreated proposedUserId]) =
        createdUsers s.log ++ [proposedUserId] := createdUsers_append _ _
    have hkeys : storedKeys (s.log ++ [.userCreated proposedUserId]) = storedKeys s.log := by
      simp [storedKeys, storedStates, storedTickets, storedSessions]
    refine ⟨⟨⟨?_, ?_, ?_, ?_, ?_, ?_, ?_⟩, List.prefix_append _ _, le_rfl, ?_,
      fun key _ record hget => ⟨record, hget, rfl⟩,
      fun _ hlog _ _ hended => (not_ended rfl (by simp) (by simp) hlog hended).elim⟩, ?_⟩
    · have hstates := h.states
      rw [← List.append_nil (storedStates s.log), ← List.append_nil (usedStates s.log)] at hstates
      rw [storedStates_append, usedStates_append]
      exact hstates
    · have htickets := h.tickets
      rw [← List.append_nil (storedTickets s.log),
        ← List.append_nil (usedTickets s.log)] at htickets
      rw [storedTickets_append, usedTickets_append]
      exact htickets
    · rw [hkeys]
      exact h.keys
    · intro id hmem
      rw [hcreated, List.mem_append, List.mem_singleton] at hmem
      rcases hmem with hold | rfl
      · exact h.created id hold
      · exact hdrawn
    · intro id other hother
      rw [hcreated, Dict.get?_set, List.mem_append, List.mem_singleton]
      rw [Dict.get?_set] at hother
      split at hother
      · next hk =>
        cases hother
        exact ⟨hid.trans hk.symm, .inr hk, by simp [hk]⟩
      · next hk =>
        obtain ⟨hother, hmem, hrole⟩ := h.users id other hother
        rw [if_neg hk]
        exact ⟨hother, .inl hmem, hrole⟩
    · rw [hkeys, hcreated]
      intro key record hsession
      obtain ⟨hkey, hmem, huser⟩ := h.sessions key record hsession
      exact ⟨hkey, hmem, List.mem_append_left _ huser⟩
    · intro key record hsession hlive
      exact (h.standing key record hsession hlive).append _ _ (by simp) (by simp)
    · rintro key ⟨hkey, hgone⟩
      refine
        ⟨hkeys ▸ hkey, fun record hsession => (hgone record hsession).imp_right fun hnouser => ?_⟩
      have hne : record.userId ≠ proposedUserId := by
        rintro hsame
        exact hnew (hsame ▸ (h.sessions key record hsession).2.2)
      rw [Dict.get?_set_of_ne _ _ hne]
      exact hnouser
    · rintro other hother
      cases hother
      rw [hcreated, hid]
      simp

variable {α : Type}

/-- An operation of the service that stores, uses and creates nothing. -/
def PlainOp : {α : Type} → ServiceOp α → Prop
  | _, .inl op => Plain op
  | _, .inr _ => True

/-- An operation that finds the user of a session, or ends one. -/
def SessionOp : {α : Type} → ServiceOp α → Prop
  | _, .inl (.getSession _) | _, .inl (.getUser _) | _, .inl (.getRoles _) | _,
      .inl (.revokeSession _ _) => True
  | _, .inl _ => False
  | _, .inr _ => True

section

omit [Sha256]

theorem plainOp_of_sessionOp {op : ServiceOp α} (h : SessionOp op) : PlainOp op := by
  cases op with
  | inl op =>
    cases op with
    | getSession | getUser | getRoles | revokeSession => trivial
    | _ => exact h.elim
  | inr op => trivial

theorem onlyPlain_of_session {p : Service α} (h : p.Only SessionOp) : p.Only PlainOp :=
  h.mono fun _ => plainOp_of_sessionOp

theorem only_repository {op : RepositoryOp α} {allowed : ∀ {β : Type}, ServiceOp β → Prop}
    (hop : allowed (.inl op : ServiceOp α)) : (repository op).Only allowed := Program.only_call hop

theorem only_readClock {allowed : ∀ {β : Type}, ServiceOp β → Prop}
    (hop : allowed (.inr .now : ServiceOp Datetime)) : readClock.Only allowed :=
  Program.only_call hop

theorem only_require (p : Prop) [Decidable p] (e : Error)
    {allowed : ∀ {β : Type}, ServiceOp β → Prop} : (require p e).Only allowed := by
  unfold require
  split
  · exact Program.only_pure _
  · exact Program.only_raise _

theorem only_authenticateSessionHash (key : String) :
    (authenticateSessionHash key).Only SessionOp := by
  refine (only_readClock (by trivial)).bind fun now =>
    (only_repository (by trivial)).bind fun record => ?_
  cases record with
  | none => exact Program.only_pure _
  | some record =>
    dsimp only
    split
    · exact Program.only_pure _
    · split
      · exact (only_repository (by trivial)).bind fun _ => Program.only_pure _
      · refine (only_repository (by trivial)).bind fun user => ?_
        cases user with
        | none => exact Program.only_pure _
        | some user =>
          refine (only_repository (by trivial)).bind fun roles => ?_
          split <;> exact Program.only_pure _

end

theorem only_authenticate (sessionToken : Option String) :
    (authenticate sessionToken).Only SessionOp := by
  unfold authenticate
  cases sessionToken with
  | none => exact Program.only_pure _
  | some token =>
    dsimp only
    split
    · exact Program.only_pure _
    · exact only_authenticateSessionHash _

omit [Sha256] in
theorem only_refreshPrincipal (principal : SessionPrincipal) :
    (refreshPrincipal principal).Only SessionOp := by
  refine (only_authenticateSessionHash _).bind fun refreshed => ?_
  cases refreshed with
  | none => exact Program.only_pure _
  | some refreshed =>
    dsimp only
    split <;> exact Program.only_pure _

theorem only_validateOriginAndCsrf (policy : IdentityPolicy) (principal : Option SessionPrincipal)
    (secrets : RequestSecrets) (allowWithoutSession : Bool) :
    (validateOriginAndCsrf policy principal secrets allowWithoutSession).Only SessionOp := by
  refine (only_require _ _).bind fun _ => ?_
  cases secrets.csrfToken with
  | none => exact Program.only_raise _
  | some csrfToken =>
    refine (only_require _ _).bind fun _ => (only_require _ _).bind fun _ => ?_
    cases principal with
    | none =>
      dsimp only
      split
      · exact Program.only_pure _
      · exact Program.only_raise _
    | some principal =>
      refine (only_require _ _).bind fun _ => (only_repository (by trivial)).bind fun record => ?_
      cases record with
      | none => exact Program.only_raise _
      | some record =>
        exact (only_require _ _).bind fun _ => (only_readClock (by trivial)).bind fun now =>
          only_require _ _

theorem only_authorizeMutation (policy : IdentityPolicy) (secrets : RequestSecrets) :
    (authorizeMutation policy secrets).Only SessionOp := by
  refine Program.Only.bind ?_ fun principal =>
    (only_validateOriginAndCsrf policy _ secrets false).bind fun _ => Program.only_pure _
  refine (only_authenticate _).bind fun principal => ?_
  cases principal with
  | none => exact Program.only_raise _
  | some principal => exact Program.only_pure _

theorem only_logout (policy : IdentityPolicy) (secrets : RequestSecrets) :
    (logout policy secrets).Only SessionOp := by
  refine (only_authenticate _).bind fun principal =>
    (only_validateOriginAndCsrf policy _ secrets true).bind fun _ => ?_
  cases secrets.sessionToken with
  | none => exact Program.only_pure _
  | some token =>
    dsimp only
    split
    · exact Program.only_pure _
    · exact (only_readClock (by trivial)).bind fun now => only_repository (by trivial)

theorem only_saveItem (policy : IdentityPolicy) (secrets : RequestSecrets) (savedType : SavedType)
    (targetId : String) (target : Option TargetRecord) :
    (saveItem policy secrets savedType targetId target).Only PlainOp := by
  refine (onlyPlain_of_session (only_authorizeMutation policy secrets)).bind fun principal =>
    (only_require _ _).bind fun _ => ?_
  cases target with
  | none => exact Program.only_raise _
  | some target =>
    exact (only_require _ _).bind fun _ => (only_require _ _).bind fun _ =>
      (only_readClock (by trivial)).bind fun now =>
      (only_repository (by trivial)).bind fun record =>
        Program.only_pure _

theorem only_unsaveItem (policy : IdentityPolicy) (secrets : RequestSecrets)
    (savedType : SavedType) (targetId : String) :
    (unsaveItem policy secrets savedType targetId).Only PlainOp :=
  (onlyPlain_of_session (only_authorizeMutation policy secrets)).bind fun _ =>
  (only_require _ _).bind fun _ =>
    (only_repository (by trivial)).bind fun _ => Program.only_pure _

theorem only_deleteAccount (policy : IdentityPolicy) (secrets : RequestSecrets) :
    (deleteAccount policy secrets).Only PlainOp :=
  (onlyPlain_of_session (only_authorizeMutation policy secrets)).bind fun _ =>
    (only_readClock (by trivial)).bind fun _ => (only_require _ _).bind fun _ =>
    (only_repository (by trivial)).bind fun _ => only_require _ _

theorem only_revokeToken (sessionToken : Option String) (now : Datetime) :
    (revokeToken sessionToken now).Only SessionOp := by
  unfold revokeToken
  cases sessionToken with
  | none => exact Program.only_pure _
  | some token =>
    dsimp only
    split
    · exact Program.only_pure _
    · exact only_repository (by trivial)

theorem keeps_plain {p : Service α} (hp : p.Only PlainOp) : p.Keeps (handler x) (Since x s) := by
  refine hp.keeps fun op t hop ht => ?_
  cases op with
  | inl op => exact ht.trans (ht.sound.plain hop)
  | inr op =>
    cases op with
    | now => exact ht.trans ht.sound.read
    | createToken n => exact ht.trans ht.sound.draw

theorem keeps_repository {op : RepositoryOp α} (hop : Plain op) :
    (repository op).Keeps (handler x) (Since x s) := keeps_plain (only_repository hop)

omit [Sha256] in
theorem keeps_require (p : Prop) [Decidable p] (e : Error) {P : IdentityState → Prop} :
    (require p e).Keeps (handler x) P := by
  unfold require
  split
  · exact Program.keeps_pure _
  · exact Program.keeps_raise _

theorem keeps_consumeRealtimeTicket (policy : IdentityPolicy) (ticket origin : String) :
    (consumeRealtimeTicket policy ticket origin).Keeps (handler x) (Since x s) := by
  refine (keeps_require _ _).bind fun _ => fun t ht => ?_
  rw [finish_readClock_bind, finish_repository_bind]
  have hread := ht.sound.read
  have hused := hread.sound.consumeRealtimeTicket (tokenHash ticket) origin
    ⟨t.readings, Nat.lt_succ_self _, rfl⟩
  have hafter := (ht.trans hread).trans hused
  cases (IdentityState.perform { t with readings := t.readings + 1 }
      (.consumeRealtimeTicket (tokenHash ticket) origin (x.clock t.readings))).1 with
  | none => exact hafter
  | some consumed =>
    refine ((keeps_plain (onlyPlain_of_session (only_authenticateSessionHash _))).bind
      fun principal => ?_ :
      Program.Keeps _ _ _) _ hafter
    cases principal with
    | none => exact Program.keeps_raise _
    | some principal => exact (keeps_require _ _).bind fun _ => Program.keeps_pure _

section Tokens

variable (htokens : Function.Injective x.tokens) (hhash : Function.Injective tokenHash)

include htokens hhash

theorem Sound.fresh (h : Sound x s) (hlog : storedKeys t.log = storedKeys s.log)
    (hdrawn : s.drawn < t.drawn) : Fresh x t (tokenHash (x.tokens s.drawn)) := by
  refine ⟨fun hmem => ?_, s.drawn, hdrawn, rfl⟩
  obtain ⟨i, hi, heq⟩ := h.keys _ (hlog ▸ hmem)
  have hsame := htokens (hhash heq)
  omega

theorem keeps_beginGoogleLogin (policy : IdentityPolicy) (returnTo : Option String)
    (authorizationUrl : String → Except Error String) :
    (beginGoogleLogin policy returnTo authorizationUrl).Keeps (handler x) (Since x s) := by
  refine (keeps_plain (only_readClock (by trivial))).bind fun now =>
    (keeps_repository (by trivial)).bind fun _ =>
    fun t ht => ?_
  rw [finish_createToken_bind, finish_createToken_bind]
  have hdrawn := ht.sound.draw
  have hdrawn' := hdrawn.trans hdrawn.sound.draw
  cases now.plus policy.oauthStateTtl with
  | error e => exact ht.trans hdrawn'
  | ok expiresAt =>
    rw [Program.ofExcept_ok_bind, finish_repository_bind]
    have hfresh := ht.sound.fresh htokens hhash (t := { t with drawn := t.drawn + 1 + 1 }) rfl
      (by simp only; omega)
    exact ((Program.keeps_ofExcept _).bind fun _ => Program.keeps_pure _ : Program.Keeps _ _ _) _
      ((ht.trans hdrawn').trans (hdrawn'.sound.storeOauthState hfresh))

theorem keeps_issueRealtimeTicket (policy : IdentityPolicy) (secrets : RequestSecrets) :
    (issueRealtimeTicket policy secrets).Keeps (handler x) (Since x s) := by
  refine (keeps_plain (onlyPlain_of_session (only_authorizeMutation policy secrets))).bind
    fun principal =>
    (keeps_plain (only_readClock (by trivial))).bind fun now => fun t ht => ?_
  rw [finish_createToken_bind]
  have hdrawn := ht.sound.draw
  cases now.plus policy.realtimeTicketTtl with
  | error e => exact ht.trans hdrawn
  | ok expiresAt =>
    rw [Program.ofExcept_ok_bind, finish_repository_bind]
    have hfresh := ht.sound.fresh htokens hhash (t := { t with drawn := t.drawn + 1 }) rfl
      (Nat.lt_succ_self _)
    exact (ht.trans hdrawn).trans (hdrawn.sound.storeRealtimeTicket hfresh)

theorem keeps_openSession (policy : IdentityPolicy) {user : User} (now : Datetime)
    (returnTo : String) (huser : user.userId ∈ createdUsers s.log) :
    (openSession policy user now returnTo).Keeps (handler x) (Since x s) := by
  intro t ht
  unfold openSession
  rw [finish_createToken_bind, finish_createToken_bind]
  have hdrawn := ht.sound.draw
  have hdrawn' := hdrawn.trans hdrawn.sound.draw
  cases now.plus policy.sessionTtl with
  | error e => exact ht.trans hdrawn'
  | ok expiresAt =>
    rw [Program.ofExcept_ok_bind, finish_repository_bind]
    have hfresh := ht.sound.fresh htokens hhash (t := { t with drawn := t.drawn + 1 + 1 }) rfl
      (by simp only; omega)
    obtain ⟨events, hlog⟩ := ht.log
    have hcreated : user.userId ∈ createdUsers t.log := by
      rw [← hlog, createdUsers_append]
      exact List.mem_append_left _ huser
    exact ((keeps_repository (by trivial)).bind fun _ => Program.keeps_pure _ : Program.Keeps _ _ _)
      _ ((ht.trans hdrawn').trans (hdrawn'.sound.storeSession hfresh hcreated))

theorem keeps_completeGoogleLogin [UnicodeTable] (policy : IdentityPolicy)
    (code state browserNonce : String) (currentSessionToken : Option String)
    (exchanged : Except Error GoogleIdentity) :
    (completeGoogleLogin policy code state browserNonce currentSessionToken exchanged).Keeps
      (handler x) (Since x s) := by
  refine (keeps_require _ _).bind fun _ => fun t ht => ?_
  rw [finish_readClock_bind, finish_repository_bind]
  have hread := ht.sound.read
  have hused := hread.sound.consumeOauthState (tokenHash state) (tokenHash browserNonce)
    ⟨t.readings, Nat.lt_succ_self _, rfl⟩
  have hafter := (ht.trans hread).trans hused
  cases (IdentityState.perform { t with readings := t.readings + 1 } (.consumeOauthState
      (tokenHash state) (tokenHash browserNonce) (x.clock t.readings))).1 with
  | none => exact hafter
  | some oauthState =>
    refine ((Program.keeps_ofExcept _).bind fun identity => (keeps_require _ _).bind fun _ =>
      fun u hu => ?_ : Program.Keeps _ _ _) _ hafter
    dsimp only
    rw [finish_createToken_bind, finish_repository_bind]
    have hdrawn := hu.sound.draw
    have hnew : "usr_" ++ x.tokens u.drawn ∉ createdUsers u.log := by
      intro hmem
      obtain ⟨i, hi, heq⟩ := hu.sound.created _ hmem
      have hsame := htokens (String.append_right_inj _ |>.mp heq)
      omega
    obtain ⟨hupserted, hcreated⟩ := hdrawn.sound.upsertUser (normalizedIdentity identity)
      (x.clock t.readings) hnew ⟨u.drawn, Nat.lt_succ_self _, rfl⟩
    have hdone := (hu.trans hdrawn).trans hupserted
    cases hresult : (IdentityState.perform { u with drawn := u.drawn + 1 }
        (.upsertUser ("usr_" ++ x.tokens u.drawn) (normalizedIdentity identity)
          (x.clock t.readings))).1 with
    | error e => exact hdone
    | ok user =>
      rw [Program.ofExcept_ok_bind]
      have hsession := keeps_openSession htokens hhash policy (x.clock t.readings)
        oauthState.returnTo (hcreated user hresult)
      have hrevoke := (keeps_plain (onlyPlain_of_session
        (only_revokeToken currentSessionToken (x.clock t.readings)))).bind fun _ => hsession
      refine hdone.trans (((keeps_repository (by trivial)).bind fun added =>
        (Program.keeps_ofExcept added).bind fun _ => ?_ : Program.Keeps _ _ _) _
        (.refl hupserted.sound))
      split
      · exact (keeps_repository (by trivial)).bind fun added =>
          (Program.keeps_ofExcept added).bind fun _ => hrevoke
      · exact hrevoke

variable [UnicodeTable] (policy : IdentityPolicy)

theorem keeps_program (call : ServiceCall) :
    (call.program policy).Keeps (handler x) (Since x s) := by
  cases call with
  | beginGoogleLogin returnTo authorizationUrl =>
    exact (keeps_beginGoogleLogin htokens hhash policy _ _).bind fun _ => Program.keeps_pure _
  | completeGoogleLogin code state browserNonce currentSessionToken exchanged =>
    exact (keeps_completeGoogleLogin htokens hhash policy _ _ _ _ _).bind fun _ =>
      Program.keeps_pure _
  | authenticate sessionToken =>
    exact (keeps_plain (onlyPlain_of_session (only_authenticate _))).bind fun _ =>
      Program.keeps_pure _
  | refreshPrincipal principal =>
    exact (keeps_plain (onlyPlain_of_session (only_refreshPrincipal _))).bind fun _ =>
      Program.keeps_pure _
  | authorizeQuestion secrets =>
    exact (keeps_plain (onlyPlain_of_session (only_authorizeMutation policy _))).bind fun _ =>
      Program.keeps_pure _
  | logout secrets =>
    exact (keeps_plain (onlyPlain_of_session (only_logout policy _))).bind fun _ =>
      Program.keeps_pure _
  | issueRealtimeTicket secrets =>
    exact (keeps_issueRealtimeTicket htokens hhash policy _).bind fun _ => Program.keeps_pure _
  | consumeRealtimeTicket ticket origin =>
    exact (keeps_consumeRealtimeTicket policy _ _).bind fun _ => Program.keeps_pure _
  | saveItem secrets savedType targetId target =>
    exact (keeps_plain (only_saveItem policy _ _ _ _)).bind fun _ => Program.keeps_pure _
  | unsaveItem secrets savedType targetId =>
    exact (keeps_plain (only_unsaveItem policy _ _ _)).bind fun _ => Program.keeps_pure _
  | deleteAccount secrets =>
    exact (keeps_plain (only_deleteAccount policy _)).bind fun _ => Program.keeps_pure _

theorem Sound.call (h : Sound x s) (call : ServiceCall) : Since x s (afterCall x policy s call) :=
  keeps_program htokens hhash policy call s (.refl h)

theorem Sound.calls (h : Sound x s) (calls : List ServiceCall) :
    Since x s (calls.foldl (afterCall x policy) s) := by
  induction calls generalizing s with
  | nil => exact .refl h
  | cons call calls ih =>
    have hcall := h.call htokens hhash policy call
    exact hcall.trans (ih hcall.sound)

end Tokens

theorem sound_initial (x : Surroundings) : Sound x .initial where
  states := Voucher.usedOnce_empty
  tickets := Voucher.usedOnce_empty
  keys := by simp [IdentityState.initial, storedKeys, storedStates, storedTickets, storedSessions]
  created := by simp [IdentityState.initial, createdUsers]
  users := by simp [IdentityState.initial, InMemoryIdentityRepository.empty]
  sessions := by simp [IdentityState.initial, InMemoryIdentityRepository.empty]
  standing := by simp [IdentityState.initial, InMemoryIdentityRepository.empty]

end Dayjaview.Identity
