import Dayjaview.Identity.SafetyRuns

/-!
# Deleting an account while other calls run

The calls of several clients take turns, one operation at a time. A call checks the
session first and writes later, so a write may come after the account is deleted. As
long as no operation writes for an account that was deleted, nothing of a deleted
account comes back.
-/

namespace Dayjaview.Identity

namespace InMemoryIdentityRepository

/-- Something is stored with this user id. -/
def Holds (r : InMemoryIdentityRepository) (userId : String) : Prop :=
  (∃ key user, r.users.get? key = some user ∧ user.userId = userId) ∨
    (r.roles.get? userId).isSome ∨
    (∃ key record, r.sessions.get? key = some record ∧ record.userId = userId) ∨
    (∃ key record, r.tickets.get? key = some record ∧ record.userId = userId) ∨
    ∃ key record, r.saved.get? key = some record ∧ record.userId = userId

/-- Users and saved targets are stored under their ids. -/
structure Keyed (r : InMemoryIdentityRepository) : Prop where
  users : ∀ key user, r.users.get? key = some user → user.userId = key
  saved : ∀ key record, r.saved.get? key = some record → record.userId = key.1

/-- The user an operation writes for without looking whether there is such a user. -/
def writesFor (r : InMemoryIdentityRepository) : {α : Type} → RepositoryOp α → Option String
  | _, .storeSession record => some record.userId
  | _, .storeRealtimeTicket record => some record.userId
  | _, .upsertSaved record => some record.userId
  | _, .upsertUser proposedUserId identity _ =>
    if r.userIdsBySubject.get? identity.subject = none then some proposedUserId else none
  | _, _ => none

variable {α : Type} {r : InMemoryIdentityRepository}

theorem keyed_empty : empty.Keyed := ⟨by simp [empty], by simp [empty]⟩

theorem get?_filterValues_sub {κ R : Type} [DecidableEq κ] {table : Dict κ R} {p : R → Bool}
    {key : κ} {record : R} (h : (table.filterValues p).get? key = some record) :
    table.get? key = some record ∧ p record = true := by
  rw [Dict.get?_filterValues, Option.filter_eq_some_iff] at h
  exact h

/-- Operations that write no user. -/
def LeavesUsers : RepositoryOp α → Prop
  | .upsertUser _ _ _ | .deleteAccount _ => False
  | _ => True

/-- Operations that write nothing saved. -/
def LeavesSaved : RepositoryOp α → Prop
  | .upsertSaved _ | .deleteSaved _ _ _ | .deleteAccount _ => False
  | _ => True

/-- Operations that write no session. -/
def LeavesSessions : RepositoryOp α → Prop
  | .storeSession _ | .revokeSession _ _ | .deleteAccount _ | .purgeExpired _ => False
  | _ => True

/-- An operation writes only the tables it is about. -/
theorem perform_frame (r : InMemoryIdentityRepository) (op : RepositoryOp α) :
    (LeavesUsers op → (r.perform op).2.users = r.users ∧
      (r.perform op).2.userIdsBySubject = r.userIdsBySubject) ∧
    (LeavesSaved op → (r.perform op).2.saved = r.saved) ∧
    (LeavesSessions op → (r.perform op).2.sessions = r.sessions) := by
  cases op with
  | consumeOauthState stateHash nonceHash now =>
    rcases r.consumeOauthState_cases stateHash nonceHash now with heq | ⟨_, -, -, -, heq⟩ <;>
      simp [perform, heq]
  | consumeRealtimeTicket ticketHash origin now =>
    rcases r.consumeRealtimeTicket_cases ticketHash origin now with heq | ⟨_, -, -, -, heq⟩ <;>
      simp [perform, heq]
  | upsertUser proposedUserId identity now =>
    rcases r.upsertUser_cases proposedUserId identity now with
      ⟨_, heq⟩ | ⟨_, _, _, -, -, -, heq⟩ | ⟨_, -, -, -, heq⟩ <;>
      simp [perform, heq, LeavesUsers]
  | addRole userId role =>
    simp only [perform, addRole]
    split <;> simp
  | revokeSession key now =>
    simp only [perform, revokeSession]
    split
    · simp
    · split <;> simp [LeavesSessions]
  | upsertSaved record =>
    simp only [perform, upsertSaved]
    split <;> simp [LeavesSaved]
  | deleteAccount userId => exact ⟨False.elim, False.elim, False.elim⟩
  | deleteSaved | storeSession | purgeExpired =>
    simp [perform, LeavesSaved, LeavesSessions, purgeExpired]
  | _ => simp [perform]

section

variable {op : RepositoryOp α}

theorem perform_users (hop : LeavesUsers op) : (r.perform op).2.users = r.users :=
  ((r.perform_frame op).1 hop).1

theorem perform_subjects (hop : LeavesUsers op) :
    (r.perform op).2.userIdsBySubject = r.userIdsBySubject :=
  ((r.perform_frame op).1 hop).2

theorem perform_saved (hop : LeavesSaved op) : (r.perform op).2.saved = r.saved :=
  (r.perform_frame op).2.1 hop

theorem perform_sessions (hop : LeavesSessions op) : (r.perform op).2.sessions = r.sessions :=
  (r.perform_frame op).2.2 hop

end

theorem Keyed.of_eq (h : r.Keyed) {t : InMemoryIdentityRepository} (husers : t.users = r.users)
    (hsaved : t.saved = r.saved) : t.Keyed := ⟨husers ▸ h.users, hsaved ▸ h.saved⟩

theorem Keyed.perform (h : r.Keyed) (op : RepositoryOp α) : (r.perform op).2.Keyed := by
  cases op with
  | upsertUser proposedUserId identity now =>
    simp only [InMemoryIdentityRepository.perform]
    rcases r.upsertUser_cases proposedUserId identity now with
      ⟨e, heq⟩ | ⟨userId, existing, updated, -, hget, hid, heq⟩ | ⟨user, -, -, hid, heq⟩
    · rw [heq]
      exact h
    · rw [heq]
      refine ⟨fun key user hkey => ?_, h.saved⟩
      rw [Dict.get?_set] at hkey
      split at hkey
      · next hk =>
        cases hkey
        rw [hid, h.users _ existing hget, hk]
      · exact h.users key user hkey
    · rw [heq]
      refine ⟨fun key user hkey => ?_, h.saved⟩
      rw [Dict.get?_set] at hkey
      split at hkey
      · next hk =>
        cases hkey
        rw [hid, hk]
      · exact h.users key user hkey
  | upsertSaved record =>
    simp only [InMemoryIdentityRepository.perform, InMemoryIdentityRepository.upsertSaved]
    split
    · exact h
    · refine ⟨h.users, fun key other hkey => ?_⟩
      rw [Dict.get?_set] at hkey
      split at hkey
      · next hk =>
        cases hkey
        rw [hk]
      · exact h.saved key other hkey
  | deleteSaved userId savedType targetId =>
    refine ⟨h.users, fun key other hkey => ?_⟩
    simp only [InMemoryIdentityRepository.perform] at hkey
    rw [Dict.get?_erase] at hkey
    split at hkey
    · cases hkey
    · exact h.saved key other hkey
  | deleteAccount userId =>
    simp only [InMemoryIdentityRepository.perform, InMemoryIdentityRepository.deleteAccount]
    split
    · exact h
    · refine ⟨fun key user hkey => ?_, fun key record hkey => ?_⟩
      · rw [Dict.get?_erase] at hkey
        split at hkey
        · cases hkey
        · exact h.users key user hkey
      · exact h.saved key record (get?_filterValues_sub hkey).1
  | _ => exact h.of_eq (perform_users trivial) (perform_saved trivial)

variable {userId : String}

theorem holds_of_perform (h : r.Keyed) (op : RepositoryOp α)
    (hholds : (r.perform op).2.Holds userId) : r.Holds userId ∨ r.writesFor op = some userId := by
  cases op with
  | storeOauthState | getUser | getRoles | getSession => exact .inl hholds
  | consumeOauthState stateHash nonceHash now =>
    simp only [InMemoryIdentityRepository.perform] at hholds
    rcases r.consumeOauthState_cases stateHash nonceHash now with heq | ⟨_, -, -, -, heq⟩
    all_goals
      rw [heq] at hholds
      exact .inl hholds
  | purgeExpired now =>
    rcases hholds with huser | hrole | ⟨key, record, hget, hid⟩ | ⟨key, record, hget, hid⟩ | hsaved
    · exact .inl (.inl huser)
    · exact .inl (.inr (.inl hrole))
    · exact .inl (.inr (.inr (.inl ⟨key, record, (get?_filterValues_sub hget).1, hid⟩)))
    · exact .inl (.inr (.inr (.inr (.inl ⟨key, record, (get?_filterValues_sub hget).1, hid⟩))))
    · exact .inl (.inr (.inr (.inr (.inr hsaved))))
  | consumeRealtimeTicket ticketHash origin now =>
    simp only [InMemoryIdentityRepository.perform] at hholds
    rcases r.consumeRealtimeTicket_cases ticketHash origin now with heq | ⟨old, hold, -, -, heq⟩
    · rw [heq] at hholds
      exact .inl hholds
    · rw [heq] at hholds
      rcases hholds with huser | hrole | hsession | ⟨key, record, hget, hid⟩ | hsaved
      · exact .inl (.inl huser)
      · exact .inl (.inr (.inl hrole))
      · exact .inl (.inr (.inr (.inl hsession)))
      · refine .inl (.inr (.inr (.inr (.inl ?_))))
        rw [Dict.get?_set] at hget
        split at hget
        · cases hget
          exact ⟨_, old, hold, hid⟩
        · exact ⟨key, record, hget, hid⟩
      · exact .inl (.inr (.inr (.inr (.inr hsaved))))
  | upsertUser proposedUserId identity now =>
    simp only [InMemoryIdentityRepository.perform] at hholds
    rcases r.upsertUser_cases proposedUserId identity now with
      ⟨e, heq⟩ | ⟨existingId, existing, updated, -, hexisting, hsame, heq⟩ |
      ⟨user, hsubject, -, hnew, heq⟩
    · rw [heq] at hholds
      exact .inl hholds
    · rw [heq] at hholds
      rcases hholds with ⟨key, user, hget, hid⟩ | hrest
      · rw [Dict.get?_set] at hget
        split at hget
        · cases hget
          exact .inl (.inl ⟨existingId, existing, hexisting, hsame.symm.trans hid⟩)
        · exact .inl (.inl ⟨key, user, hget, hid⟩)
      · exact .inl (.inr hrest)
    · rw [heq] at hholds
      have hwrites : r.writesFor (.upsertUser proposedUserId identity now) =
          some proposedUserId := by
        simp [writesFor, hsubject]
      rcases hholds with ⟨key, other, hget, hid⟩ | hrole | hrest
      · rw [Dict.get?_set] at hget
        split at hget
        · cases hget
          exact .inr (by rw [hwrites, ← hid, hnew])
        · exact .inl (.inl ⟨key, other, hget, hid⟩)
      · rw [Dict.get?_set] at hrole
        split at hrole
        · next heq => exact .inr (by rw [hwrites, heq])
        · exact .inl (.inr (.inl hrole))
      · exact .inl (.inr (.inr hrest))
  | addRole roleUserId role =>
    simp only [InMemoryIdentityRepository.perform, InMemoryIdentityRepository.addRole] at hholds
    split at hholds
    · exact .inl hholds
    · next hknown =>
      rcases hholds with huser | hrole | hrest
      · exact .inl (.inl huser)
      · rw [Dict.get?_set] at hrole
        split at hrole
        · next heq =>
          obtain ⟨user, huser⟩ := Option.ne_none_iff_exists'.mp
            (fun hnone => hknown (Option.isNone_iff_eq_none.mpr hnone))
          exact .inl (.inl ⟨roleUserId, user, huser, (h.users _ user huser).trans heq.symm⟩)
        · exact .inl (.inr (.inl hrole))
      · exact .inl (.inr (.inr hrest))
  | storeSession record =>
    rcases hholds with huser | hrole | ⟨key, other, hget, hid⟩ | hrest
    · exact .inl (.inl huser)
    · exact .inl (.inr (.inl hrole))
    · simp only [InMemoryIdentityRepository.perform] at hget
      rw [Dict.get?_set] at hget
      split at hget
      · cases hget
        exact .inr (congrArg some hid)
      · exact .inl (.inr (.inr (.inl ⟨key, other, hget, hid⟩)))
    · exact .inl (.inr (.inr (.inr hrest)))
  | revokeSession tokenHash now =>
    simp only [InMemoryIdentityRepository.perform, InMemoryIdentityRepository.revokeSession]
      at hholds
    split at hholds
    · exact .inl hholds
    · next old hold =>
      split at hholds
      · exact .inl hholds
      · rcases hholds with huser | hrole | ⟨key, other, hget, hid⟩ | hrest
        · exact .inl (.inl huser)
        · exact .inl (.inr (.inl hrole))
        · refine .inl (.inr (.inr (.inl ?_)))
          rw [Dict.get?_set] at hget
          split at hget
          · cases hget
            exact ⟨_, old, hold, hid⟩
          · exact ⟨key, other, hget, hid⟩
        · exact .inl (.inr (.inr (.inr hrest)))
  | storeRealtimeTicket record =>
    rcases hholds with huser | hrole | hsession | ⟨key, other, hget, hid⟩ | hsaved
    · exact .inl (.inl huser)
    · exact .inl (.inr (.inl hrole))
    · exact .inl (.inr (.inr (.inl hsession)))
    · simp only [InMemoryIdentityRepository.perform] at hget
      rw [Dict.get?_set] at hget
      split at hget
      · cases hget
        exact .inr (congrArg some hid)
      · exact .inl (.inr (.inr (.inr (.inl ⟨key, other, hget, hid⟩))))
    · exact .inl (.inr (.inr (.inr (.inr hsaved))))
  | upsertSaved record =>
    simp only [InMemoryIdentityRepository.perform, InMemoryIdentityRepository.upsertSaved] at hholds
    split at hholds
    · exact .inl hholds
    · rcases hholds with huser | hrole | hsession | hticket | ⟨key, other, hget, hid⟩
      · exact .inl (.inl huser)
      · exact .inl (.inr (.inl hrole))
      · exact .inl (.inr (.inr (.inl hsession)))
      · exact .inl (.inr (.inr (.inr (.inl hticket))))
      · rw [Dict.get?_set] at hget
        split at hget
        · cases hget
          exact .inr (congrArg some hid)
        · exact .inl (.inr (.inr (.inr (.inr ⟨key, other, hget, hid⟩))))
  | deleteSaved savedUserId savedType targetId =>
    rcases hholds with huser | hrole | hsession | hticket | ⟨key, other, hget, hid⟩
    · exact .inl (.inl huser)
    · exact .inl (.inr (.inl hrole))
    · exact .inl (.inr (.inr (.inl hsession)))
    · exact .inl (.inr (.inr (.inr (.inl hticket))))
    · simp only [InMemoryIdentityRepository.perform] at hget
      rw [Dict.get?_erase] at hget
      split at hget
      · cases hget
      · exact .inl (.inr (.inr (.inr (.inr ⟨key, other, hget, hid⟩))))
  | deleteAccount deletedUserId =>
    simp only [InMemoryIdentityRepository.perform, InMemoryIdentityRepository.deleteAccount]
      at hholds
    split at hholds
    · exact .inl hholds
    · rcases hholds with ⟨key, user, hget, hid⟩ | hrole | ⟨key, record, hget, hid⟩ |
        ⟨key, record, hget, hid⟩ | ⟨key, record, hget, hid⟩
      · rw [Dict.get?_erase] at hget
        split at hget
        · cases hget
        · exact .inl (.inl ⟨key, user, hget, hid⟩)
      · rw [Dict.get?_erase] at hrole
        split at hrole
        · cases hrole
        · exact .inl (.inr (.inl hrole))
      · exact .inl (.inr (.inr (.inl ⟨key, record, (get?_filterValues_sub hget).1, hid⟩)))
      · exact .inl (.inr (.inr (.inr (.inl ⟨key, record, (get?_filterValues_sub hget).1, hid⟩))))
      · exact .inl (.inr (.inr (.inr (.inr ⟨key, record, (get?_filterValues_sub hget).1, hid⟩))))

theorem not_holds_deleteAccount (h : r.Keyed) (hdeleted : (r.deleteAccount userId).1 = true) :
    ¬ (r.deleteAccount userId).2.Holds userId := by
  unfold deleteAccount at hdeleted ⊢
  split at hdeleted
  · cases hdeleted
  · rintro (⟨key, user, hget, hid⟩ | hrole | ⟨key, record, hget, hid⟩ | ⟨key, record, hget, hid⟩ |
      ⟨key, record, hget, hid⟩)
    · dsimp only at hget
      rw [Dict.get?_erase] at hget
      split at hget
      · cases hget
      · next hne => exact hne ((h.users key user hget).symm.trans hid)
    · dsimp only at hrole
      rw [Dict.get?_erase, if_pos rfl] at hrole
      cases hrole
    all_goals exact absurd hid (by simpa using (get?_filterValues_sub hget).2)

theorem holds_of_writesFor (h : r.Keyed) {op : RepositoryOp α}
    (hwrites : r.writesFor op = some userId) (hnone : ¬ r.Holds userId) :
    (r.perform op).2.Holds userId := by
  cases op with
  | storeSession record =>
    cases hwrites
    exact .inr (.inr (.inl ⟨record.tokenHash, record, Dict.get?_set_self _ _ _, rfl⟩))
  | storeRealtimeTicket record =>
    cases hwrites
    exact .inr (.inr (.inr (.inl ⟨record.ticketHash, record, Dict.get?_set_self _ _ _, rfl⟩)))
  | upsertSaved record =>
    cases hwrites
    simp only [InMemoryIdentityRepository.perform, InMemoryIdentityRepository.upsertSaved]
    split
    · next existing hget =>
      exact absurd (.inr (.inr (.inr (.inr ⟨_, existing, hget, h.saved _ existing hget⟩)))) hnone
    · exact .inr (.inr (.inr (.inr ⟨_, record, Dict.get?_set_self _ _ _, rfl⟩)))
  | upsertUser proposedUserId identity now =>
    simp only [writesFor] at hwrites
    split at hwrites
    · next hsubject =>
      obtain rfl := Option.some.inj hwrites
      have hfree : r.users.get? proposedUserId = none := by
        by_contra hsome
        obtain ⟨user, huser⟩ := Option.ne_none_iff_exists'.mp hsome
        exact hnone (.inl ⟨proposedUserId, user, huser, h.users _ user huser⟩)
      simp only [InMemoryIdentityRepository.perform, InMemoryIdentityRepository.upsertUser,
        hsubject, hfree]
      exact .inl ⟨proposedUserId, _, Dict.get?_set_self _ _ _, rfl⟩
    · cases hwrites
  | _ => cases hwrites

end InMemoryIdentityRepository

theorem not_holds_of_observe {s : IdentityState} (h : s.repository.Keyed) {α : Type}
    {op : RepositoryOp α} {userId : String}
    (hmem : .accountDeleted userId ∈ observe op (s.repository.perform op).1) :
    ¬ (s.repository.perform op).2.Holds userId := by
  cases op with
  | deleteAccount other =>
    simp only [observe] at hmem
    split at hmem
    · next hdeleted =>
      simp only [List.mem_singleton, IdentityEvent.accountDeleted.injEq] at hmem
      subst hmem
      exact InMemoryIdentityRepository.not_holds_deleteAccount h hdeleted
    · cases hmem
  | consumeOauthState => simp [observe] at hmem
  | consumeRealtimeTicket => simp [observe] at hmem
  | upsertUser =>
    simp only [observe] at hmem
    split at hmem
    · split at hmem <;> simp at hmem
    · cases hmem
  | _ => simp [observe] at hmem

/-- The calls of several clients and the state they share. -/
structure Clients where
  state : IdentityState
  running : List (Service ServiceAnswer)

inductive Turn where
  | begin (call : ServiceCall)
  /-- A call performs its next operation. -/
  | advance (index : Nat)

namespace Clients

def initial : Clients := ⟨.initial, []⟩

variable [Sha256] [UnicodeTable] (x : Surroundings) (policy : IdentityPolicy)

def turn (w : Clients) : Turn → Clients
  | .begin call => { w with running := w.running ++ [call.program policy] }
  | .advance index =>
    match w.running[index]? with
    | none => w
    | some program =>
      let after := program.advance (handler x) w.state
      ⟨after.2, w.running.set index after.1⟩

/-- The clients after some turns. -/
def run (turns : List Turn) : Clients := turns.foldl (turn x policy) initial

section

omit [Sha256] [UnicodeTable]

/-- Nothing is stored of the users whose accounts were deleted. -/
def Erased (w : Clients) : Prop :=
  ∀ userId, .accountDeleted userId ∈ w.state.log → ¬ w.state.repository.Holds userId

/-- The next operation of a call does not write for a user whose account was deleted. -/
def Careful (w : Clients) : Turn → Prop
  | .begin _ => True
  | .advance index => ∀ {β : Type} (op : RepositoryOp β) (next : β → Service ServiceAnswer),
    w.running[index]? = some (.perform (.inl op) next) →
    ∀ userId, w.state.repository.writesFor op = some userId →
      .accountDeleted userId ∉ w.state.log

end

variable {x policy} {w : Clients}

omit [Sha256] [UnicodeTable] in
theorem erased_perform {s : IdentityState} (hkeyed : s.repository.Keyed)
    (herased : ∀ userId, .accountDeleted userId ∈ s.log → ¬ s.repository.Holds userId) {α : Type}
    {op : RepositoryOp α} (hcareful : ∀ userId, s.repository.writesFor op = some userId →
      .accountDeleted userId ∉ s.log) (userId : String)
    (hmem : .accountDeleted userId ∈ (s.perform op).2.log) :
    ¬ (s.perform op).2.repository.Holds userId := by
  rcases List.mem_append.mp hmem with hbefore | hnow
  · intro hholds
    rcases InMemoryIdentityRepository.holds_of_perform hkeyed op hholds with hold | hwrites
    · exact herased userId hbefore hold
    · exact hcareful userId hwrites hbefore
  · exact not_holds_of_observe hkeyed hnow

theorem keyed_turn (h : w.state.repository.Keyed) (t : Turn) :
    (turn x policy w t).state.repository.Keyed := by
  cases t with
  | begin call => exact h
  | advance index =>
    unfold turn
    dsimp only
    split
    · exact h
    · next program hprogram =>
      refine Program.advance_keeps
        (P := fun s : IdentityState => s.repository.Keyed) ?_ h
      rintro γ (op | op) next -
      · exact h.perform op
      · cases op <;> exact h

theorem erased_turn (hkeyed : w.state.repository.Keyed) (h : w.Erased) {t : Turn}
    (hcareful : w.Careful t) : (turn x policy w t).Erased := by
  cases t with
  | begin call => exact h
  | advance index =>
    unfold turn
    dsimp only
    split
    · exact h
    · next program hprogram =>
      refine Program.advance_keeps (P := fun s : IdentityState =>
        ∀ userId, IdentityEvent.accountDeleted userId ∈ s.log → ¬ s.repository.Holds userId) ?_ h
      rintro γ (op | op) next rfl
      · exact erased_perform hkeyed h (hcareful op next hprogram)
      · cases op <;> exact h

theorem careful_of_erased (hkeyed : w.state.repository.Keyed) (h : w.Erased) {t : Turn}
    (hafter : (turn x policy w t).Erased) : w.Careful t := by
  cases t with
  | begin call => trivial
  | advance index =>
    intro β op next hprogram userId hwrites hmem
    refine hafter userId ?_ ?_
    · simp only [turn, hprogram, Program.advance]
      exact List.mem_append_left _ hmem
    · simp only [turn, hprogram, Program.advance]
      exact InMemoryIdentityRepository.holds_of_writesFor hkeyed hwrites (h userId hmem)

theorem run_snoc (turns : List Turn) (t : Turn) :
    run x policy (turns ++ [t]) = turn x policy (run x policy turns) t := by
  simp [run, List.foldl_append]

theorem keyed_run (turns : List Turn) : (run x policy turns).state.repository.Keyed := by
  induction turns using List.reverseRecOn with
  | nil => exact InMemoryIdentityRepository.keyed_empty
  | append_singleton turns t ih =>
    rw [run_snoc]
    exact keyed_turn ih t

/-- In every run of calls that take turns, nothing of a deleted account is ever back if and only if
no operation writes for a deleted account. -/
theorem run_erases (x : Surroundings) (policy : IdentityPolicy) (turns : List Turn) :
    (∀ k ≤ turns.length, (run x policy (turns.take k)).Erased) ↔
      ∀ k t, turns[k]? = some t → (run x policy (turns.take k)).Careful t := by
  constructor
  · intro h k t ht
    obtain ⟨hlt, rfl⟩ := List.getElem?_eq_some_iff.mp ht
    have hafter := h (k + 1) hlt
    rw [List.take_succ_eq_append_getElem hlt, run_snoc] at hafter
    exact careful_of_erased (keyed_run _) (h k (Nat.le_of_lt hlt)) hafter
  · intro h k hk
    induction k with
    | zero => exact fun userId hmem => by cases hmem
    | succ k ih =>
      rw [List.take_succ_eq_append_getElem hk, run_snoc]
      exact erased_turn (keyed_run _) (ih (Nat.le_of_lt hk))
        (h k _ (List.getElem?_eq_getElem hk))

omit [Sha256] [UnicodeTable] in
/-- What a call has returned, when it is over. -/
def returned : Service ServiceAnswer → Option (Except Error ServiceAnswer)
  | .done result => some result
  | .perform _ _ => none

/-- What the browser of the first login sends along. -/
def firstSecrets : RequestSecrets :=
  ⟨some "aaaa", some publicPolicy.allowedOrigin, some "aaaaa", some "aaaaa"⟩

/-- Somebody logs in and saves a theme; before it is written, the account is deleted. -/
def lateSave : List Turn :=
  (.begin (.beginGoogleLogin none .ok) :: List.replicate 5 (.advance 0)) ++
    (.begin (.completeGoogleLogin "code" "a" "aa" none (.ok somebody)) ::
      List.replicate 9 (.advance 1)) ++
    (.begin (.saveItem firstSecrets .theme "T1" (some { displayName := "Theme" })) ::
      List.replicate 7 (.advance 2)) ++
    (.begin (.deleteAccount firstSecrets) :: List.replicate 8 (.advance 3)) ++ [.advance 2]

omit [Sha256] [UnicodeTable] in
/-- The deletion has returned, and the theme is saved for the deleted account. -/
theorem run_erases_fails_lateSave :
    letI : Sha256 := .ofTable []
    letI : UnicodeTable := .ascii
    let w := run stillSurroundings publicPolicy lateSave
    (w.running.map returned)[3]? = some (some (.ok .done)) ∧
      .accountDeleted "usr_aaa" ∈ w.state.log ∧ w.state.repository.Holds "usr_aaa" := by
  have key : ∀ [Sha256] [UnicodeTable],
      ((run stillSurroundings publicPolicy lateSave).running.map returned)[3]? =
          some (some (.ok .done)) ∧
        .accountDeleted "usr_aaa" ∈ (run stillSurroundings publicPolicy lateSave).state.log ∧
        ((run stillSurroundings publicPolicy lateSave).state.repository.saved.get?
          ("usr_aaa", .theme, "T1")).map (·.userId) = some "usr_aaa" →
      ((run stillSurroundings publicPolicy lateSave).running.map returned)[3]? =
          some (some (.ok .done)) ∧
        .accountDeleted "usr_aaa" ∈ (run stillSurroundings publicPolicy lateSave).state.log ∧
        (run stillSurroundings publicPolicy lateSave).state.repository.Holds "usr_aaa" := by
    rintro _ _ ⟨hreturned, hdeleted, hsaved⟩
    obtain ⟨record, hget, huser⟩ := Option.map_eq_some_iff.mp hsaved
    exact ⟨hreturned, hdeleted, .inr (.inr (.inr (.inr ⟨_, record, hget, huser⟩)))⟩
  exact @key (.ofTable []) .ascii (by decide +kernel)

end Clients

end Dayjaview.Identity
