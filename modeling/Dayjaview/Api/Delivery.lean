import Dayjaview.Api.HubRuns

/-!
# What a connection catches up with

A listener has one bit that says that one of its topics changed, not a queue of
what changed. Nothing is lost by that: while the bit is not set, what was sent
last for each topic of each subscription is the latest snapshot. Under a
subscription that was cancelled nothing is ever sent again.
-/

namespace Dayjaview.Api

namespace RealtimeSession

/-- A scope has a listener. -/
def listens (s : RealtimeSession) (scope : ScopeKey) : Bool :=
  s.connection.subscriptions.entries.any fun e => e.2.any fun topic => topic.scopeKey = scope

/-- One of the snapshots that were applied in between has a listener. -/
def notifies (s after : RealtimeSession) : Bool :=
  (after.applied.drop s.applied.length).any fun e => s.listens e.1

/-- The transport takes every message; one that raises ends the connection. -/
def delivered (_ : Json) : Except Error Unit := .ok ()

/-- A session with the bit of its listener. -/
structure Listening where
  session : RealtimeSession
  changed : Bool

/-- What happens between two waits of the server. -/
inductive Turn where
  | publish (publication : Publication)
  | subscribe (topicsValue : Json) (meanwhile : List (List Publication))
  | unsubscribe (rawSubscriptionId : Json)
  | wake (meanwhile : List (List Publication))

/-- What is published in a turn. -/
def Turn.publications : Turn → List Publication
  | .publish publication => [publication]
  | .unsubscribe _ => []
  | .subscribe _ meanwhile | .wake meanwhile => meanwhile.flatten

section Turns

variable [Sha256] [UnicodeTable]

/-- The session after a turn. A new subscription is sent what is there; a set bit is cleared before
all is sent. -/
def turn (token : Nat → String) (schemaVersion : String) (l : Listening) : Turn → Listening
  | .publish publication =>
    let after := l.session.publish publication
    ⟨after, l.changed || l.session.notifies after⟩
  | .subscribe topicsValue meanwhile =>
    let id := subscriptionId token l.session.drawn
    match l.session.connection.subscribe id topicsValue with
    | .ok connection =>
      let s := { l.session with connection, drawn := l.session.drawn + 1 }
      let after := s.sendPending schemaVersion delivered (connection.pending (some id)) meanwhile
      ⟨after, l.changed || s.notifies after⟩
    | .error _ => l
  | .unsubscribe rawSubscriptionId =>
    match l.session.connection.unsubscribe rawSubscriptionId with
    | .ok connection => { l with session := { l.session with connection } }
    | .error _ => l
  | .wake meanwhile =>
    if l.changed then
      let after := l.session.sendPending schemaVersion delivered (l.session.connection.pending none)
        meanwhile
      ⟨after, l.session.notifies after⟩
    else l

/-- The session after some turns. -/
def turns (token : Nat → String) (schemaVersion : String) (ts : List Turn) : Listening :=
  ts.foldl (turn token schemaVersion) ⟨start, false⟩

end Turns

def board : HubSnapshot where
  snapshotId := "snap_1"
  streamId := "stream-1"
  topic := "theme_rank_snapshot"
  paramsKey := "params_\x7b\"limit\":50\x7d"
  sequence := 1
  schemaVersion := "2026-08-14.1"
  contentHash := "hash-1"
  toWsMessage id := .ok (.obj [("subscriptionId", .str id)])

/-- The topic of the board. -/
def boardTopic : NormalizedTopic := ⟨.themeRank, .obj [("limit", .int 50)], "\x7b\"limit\":50\x7d"⟩

/-- What a client asks for to see the board. -/
def boardTopics : Json :=
  .arr [.obj [("name", .str "theme_rank_snapshot"), ("params", .obj [("limit", .int 50)])]]

/-- The board is published after it was subscribed to. -/
def boardTurns : List Turn :=
  [.subscribe boardTopics [], .publish (board, [("limit", .int 50)]), .wake []]

/-- A connection with numbered subscriptions after these turns. -/
def boardListening : Listening :=
  @turns (.ofTable []) .ascii (fun n => String.ofList (natText n)) "2026-08-14.1" boardTurns

/-- What was sent last is the last of the snapshots up to some point, not before the given one. -/
def CaughtUp (applied : List HubSnapshot) (s : RealtimeSession) (key : SentKey) : Prop :=
  ∃ seen, applied <+: seen ∧ seen <+: s.appliedTo key.2 ∧
    (s.sentTo key).getLast? = (seen.map HubSnapshot.version).getLast?

/-- What was sent last for every topic is its latest snapshot. -/
def UpToDate (s : RealtimeSession) : Prop :=
  ∀ id topics, s.connection.subscriptions.get? id = some topics → ∀ topic ∈ topics,
    (s.sentTo (id, topic.scopeKey)).getLast? =
      ((s.appliedTo topic.scopeKey).map HubSnapshot.version).getLast?

variable {s : RealtimeSession}

theorem appliedTo_grows {s' : RealtimeSession} (h : s.applied <+: s'.applied) (scope : ScopeKey) :
    s.appliedTo scope <+: s'.appliedTo scope :=
  (h.filter _).map _

theorem sentTo_with {c : Connection} (h : c.sent = s.connection.sent) (key : SentKey) :
    sentTo { s with connection := c } key = s.sentTo key := by
  rw [sentTo, sentTo, h]

theorem listens_of_get? {id : String} {topics : List NormalizedTopic}
    (hid : s.connection.subscriptions.get? id = some topics) {topic : NormalizedTopic}
    (htopic : topic ∈ topics) : s.listens topic.scopeKey = true := by
  refine List.any_eq_true.mpr ⟨(id, topics), s.connection.subscriptions.mem_entries_iff.mpr hid, ?_⟩
  exact List.any_eq_true.mpr ⟨topic, htopic, decide_eq_true rfl⟩

/-- The bit stays unset only when nothing of the topics changed. -/
theorem appliedTo_eq_of_not_notifies {s' : RealtimeSession} (hgrows : s.applied <+: s'.applied)
    (hquiet : s.notifies s' = false) {scope : ScopeKey} (hscope : s.listens scope = true) :
    s'.appliedTo scope = s.appliedTo scope := by
  obtain ⟨more, hmore⟩ := hgrows
  rw [notifies, ← hmore, List.drop_left] at hquiet
  rw [appliedTo, ← hmore, List.filter_append, List.map_append]
  have hnone : more.filter (fun e => e.1 = scope) = [] := by
    refine List.filter_eq_nil_iff.mpr fun e he hsame => ?_
    have hlistens := List.any_eq_false.mp hquiet e he
    rw [of_decide_eq_true hsame] at hlistens
    exact hlistens hscope
  rw [hnone, List.map_nil, List.append_nil]
  rfl

theorem pending_of_get? {c : Connection} {only : Option String} {id : String}
    {topics : List NormalizedTopic} (hid : c.subscriptions.get? id = some topics)
    (honly : only.all (· = id) = true) {topic : NormalizedTopic} (htopic : topic ∈ topics) :
    (id, topic) ∈ c.pending only := by
  refine List.mem_flatMap.mpr ⟨(id, topics), ?_, List.mem_map_of_mem htopic⟩
  exact List.mem_filter.mpr ⟨c.subscriptions.mem_entries_iff.mpr hid, honly⟩

/-- The id of a subscription is never blank. -/
theorem Drawn.isBlank_eq_false {token : Nat → String} {id : String} (h : Drawn token s id) :
    isBlank id = false := by
  obtain ⟨n, -, rfl⟩ := h
  rw [subscriptionId, isBlank_append]
  rfl

section Rounds

variable [UnicodeTable]

/-- The message of a snapshot can be sent under every id that is not blank. -/
def Deliverable (schemaVersion : String) (snapshot : HubSnapshot) : Prop :=
  snapshot.schemaVersion = schemaVersion ∧ ∀ id, isBlank id = false →
    ∃ message, snapshot.toWsMessage id = .ok message ∧
      ensurePublicProjection message = .ok () ∧ message.isFinite = true

variable {s : RealtimeSession} {schemaVersion : String} {token : Nat → String} {c' : Connection}

/-- After a topic was looked at, the latest snapshot is what was sent last. -/
theorem Ordered.sendTopic_delivered (h : Ordered token s) {id : String} (topic : NormalizedTopic)
    (hid : s.connection.subscriptions.get? id ≠ none)
    (hdeliverable : ∀ e ∈ s.applied, Deliverable schemaVersion e.2) :
    ∃ c, s.connection.sendTopic schemaVersion delivered s.hub id topic = .ok c ∧
      (sentTo { s with connection := c } (id, topic.scopeKey)).getLast? =
        ((s.appliedTo topic.scopeKey).map HubSnapshot.version).getLast? ∧
      ∀ key ≠ (id, topic.scopeKey), sentTo { s with connection := c } key = s.sentTo key := by
  have hlatest := (h.tracks topic.scopeKey).latest
  unfold Connection.sendTopic RealtimeSnapshotHub.latest
  rw [List.getLast?_map, ← hlatest]
  cases hcurrent : s.hub.latestByScope.get? topic.scopeKey with
  | none =>
    refine ⟨_, rfl, ?_, fun _ _ => rfl⟩
    have hnil : s.appliedTo topic.scopeKey = [] := by
      rw [hcurrent] at hlatest
      exact List.getLast?_eq_none_iff.mp hlatest.symm
    have hfollows := h.follows (id, topic.scopeKey)
    dsimp only at hfollows
    rw [hnil] at hfollows
    change (s.sentTo (id, topic.scopeKey)).getLast? = none
    rw [List.sublist_nil.mp hfollows]
    rfl
  | some snapshot =>
    dsimp only
    by_cases hsent : s.connection.lastSent.get? (id, topic.scopeKey) = some snapshot.version
    · rw [if_pos hsent]
      refine ⟨_, rfl, ?_, fun _ _ => rfl⟩
      rw [Option.map_some, ← hsent, h.lastSent _ hid]
    · obtain ⟨e, he, rfl⟩ : ∃ e ∈ s.applied, e.2 = snapshot := by
        have hmem := List.mem_of_getLast? (hlatest.symm.trans hcurrent)
        obtain ⟨e, he, hsnapshot⟩ := List.mem_map.mp hmem
        exact ⟨e, List.mem_of_mem_filter he, hsnapshot⟩
      obtain ⟨hschema, hmessage⟩ := hdeliverable e he
      obtain ⟨message, hmessage, hpublic, hfinite⟩ :=
        hmessage id (h.subscribed id hid).isBlank_eq_false
      have hsend : Connection.sendJson delivered message = .ok () :=
        check_bind_eq_ok.mpr ⟨ensure_eq_ok.mpr hfinite, rfl⟩
      rw [if_neg hsent, if_neg (not_not.mpr hschema), hmessage]
      refine ⟨_, check_bind_eq_ok.mpr ⟨hpublic, check_bind_eq_ok.mpr ⟨hsend, rfl⟩⟩, ?_, ?_⟩
      · simp [sentTo]
      · intro key hkey
        simp [sentTo, Ne.symm hkey]

variable [Sha256]

/-- Every snapshot that was applied can be sent. -/
def AllDeliverable (schemaVersion : String) (s : RealtimeSession) : Prop :=
  ∀ e ∈ s.applied, Deliverable schemaVersion e.2

theorem AllDeliverable.publishAll (h : AllDeliverable schemaVersion s) {ps : List Publication}
    (hps : ∀ p ∈ ps, Deliverable schemaVersion p.1) :
    AllDeliverable schemaVersion (ps.foldl RealtimeSession.publish s) := by
  induction ps generalizing s with
  | nil => exact h
  | cons p ps ih =>
    refine ih ?_ fun q hq => hps q (List.mem_cons_of_mem _ hq)
    obtain hsame | ⟨scope, ⟨-, heq⟩ | ⟨-, heq⟩⟩ := s.publish_cases p
    · rwa [hsame]
    · rw [heq]
      intro e he
      rcases List.mem_append.mp he with he | he
      · exact h e he
      · obtain rfl := List.mem_singleton.mp he
        exact hps p (List.mem_cons_self ..)
    · rwa [heq]

/-- A round catches up with every topic it looks at, and falls behind with none. -/
theorem Ordered.sendPending_delivered (h : Ordered token s)
    (pending : List (String × NormalizedTopic)) (meanwhile : List (List Publication))
    (hpending : ∀ e ∈ pending, s.connection.subscriptions.get? e.1 ≠ none)
    (hdeliverable : AllDeliverable schemaVersion s)
    (hmeanwhile : ∀ p ∈ meanwhile.flatten, Deliverable schemaVersion p.1)
    (base : ScopeKey → List HubSnapshot) (hbase : ∀ scope, base scope <+: s.appliedTo scope) :
    let s' := s.sendPending schemaVersion delivered pending meanwhile
    AllDeliverable schemaVersion s' ∧
      s'.connection.subscriptions = s.connection.subscriptions ∧
      ∀ key, CaughtUp (base key.2) s key ∨ (∃ e ∈ pending, (e.1, e.2.scopeKey) = key) →
        CaughtUp (base key.2) s' key := by
  induction pending generalizing s meanwhile with
  | nil =>
    refine ⟨hdeliverable, rfl, fun key hkey => ?_⟩
    obtain hkey | ⟨e, he, -⟩ := hkey
    · exact hkey
    · cases he
  | cons e pending ih =>
    obtain ⟨id, topic⟩ := e
    have hpublished := h.publishAll (meanwhile.headD [])
    have hconnection := s.connection_publishAll (meanwhile.headD [])
    have happlied := s.applied_publishAll (meanwhile.headD [])
    have hid := hpending (id, topic) (List.mem_cons_self ..)
    have hknown :
        AllDeliverable schemaVersion ((meanwhile.headD []).foldl RealtimeSession.publish s) := by
      refine hdeliverable.publishAll fun p hp => hmeanwhile p ?_
      cases meanwhile with
      | nil => cases hp
      | cons ps rest => exact List.mem_append_left _ hp
    have hrest : ∀ p ∈ meanwhile.tail.flatten, Deliverable schemaVersion p.1 := by
      intro p hp
      cases meanwhile with
      | nil => cases hp
      | cons ps rest => exact hmeanwhile p (List.mem_append_right _ hp)
    rw [RealtimeSession.sendPending]
    generalize (meanwhile.headD []).foldl RealtimeSession.publish s = t at *
    rw [← hconnection] at hid
    obtain ⟨c, hok, hlast, hothers⟩ := hpublished.sendTopic_delivered topic hid hknown
    obtain ⟨hordered, hsubscriptions⟩ := hpublished.sendTopic hid hok
    rw [hok]
    have hgrown : ∀ scope, base scope <+: t.appliedTo scope :=
      fun scope => (hbase scope).trans (appliedTo_grows happlied scope)
    obtain ⟨hall, hkept, hcaught⟩ := ih hordered meanwhile.tail
      (fun e he => by
        change c.subscriptions.get? e.1 ≠ none
        rw [hsubscriptions, hconnection]
        exact hpending e (List.mem_cons_of_mem _ he)) hknown hrest hgrown
    refine ⟨hall, hkept.trans (hsubscriptions.trans (congrArg _ hconnection)), fun key hkey =>
      hcaught key ?_⟩
    by_cases hsame : key = (id, topic.scopeKey)
    · subst hsame
      exact .inl ⟨_, hgrown _, List.prefix_refl _, hlast⟩
    · obtain ⟨seen, hold, hseen, hsent⟩ | ⟨e, he, hkey⟩ := hkey
      · refine .inl ⟨seen, hold, hseen.trans (appliedTo_grows happlied key.2), ?_⟩
        rw [hothers key hsame, ← hsent, sentTo, sentTo, hconnection]
      · rcases List.mem_cons.mp he with rfl | he
        · exact absurd hkey.symm hsame
        · exact .inr ⟨e, he, hkey⟩

section

omit [UnicodeTable] [Sha256]

/-- When no topic changed during a round that caught up, everything is up to date. -/
theorem upToDate_of_caughtUp {s' : RealtimeSession} (hgrows : s.applied <+: s'.applied)
    (hquiet : s.notifies s' = false)
    (hkept : s'.connection.subscriptions = s.connection.subscriptions)
    (hcaught : ∀ id topics, s.connection.subscriptions.get? id = some topics → ∀ topic ∈ topics,
      CaughtUp (s.appliedTo topic.scopeKey) s' (id, topic.scopeKey)) : UpToDate s' := by
  intro id topics hid topic htopic
  rw [hkept] at hid
  obtain ⟨seen, hold, hseen, hsent⟩ := hcaught id topics hid topic htopic
  have hsame := appliedTo_eq_of_not_notifies hgrows hquiet (listens_of_get? hid htopic)
  dsimp only at hseen
  rw [hsame] at hseen ⊢
  rw [hsent, hseen.eq_of_length (Nat.le_antisymm hseen.length_le hold.length_le)]

theorem subscribe_keeps {c : Connection} {id : String} {topicsValue : Json}
    (hok : c.subscribe id topicsValue = .ok c') : c'.sent = c.sent ∧
      ∀ other ≠ id, c'.subscriptions.get? other = c.subscriptions.get? other := by
  unfold Connection.subscribe at hok
  split at hok
  · split at hok
    · obtain ⟨topics, -, hok⟩ := bind_eq_ok.mp hok
      split at hok
      · cases hok
        exact ⟨rfl, fun other hother => Dict.get?_set_of_ne _ _ hother⟩
      · cases hok
    · cases hok
  · cases hok

theorem unsubscribe_keeps {c : Connection} {raw : Json} (hok : c.unsubscribe raw = .ok c') :
    c'.sent = c.sent ∧ ∃ id, raw = .str id ∧ c.subscriptions.get? id ≠ none ∧
      ∀ other, c'.subscriptions.get? other =
        if other = id then none else c.subscriptions.get? other := by
  unfold Connection.unsubscribe at hok
  split at hok
  · next id =>
    split_ifs at hok with hvalid hnone
    · cases hok
    · cases hok
    · cases hok
      exact ⟨rfl, id, rfl, hnone, fun other => Dict.get?_erase _ _ _⟩
  · cases hok

end

/-- What holds between two turns. -/
structure Attentive (token : Nat → String) (schemaVersion : String) (l : Listening) : Prop where
  ordered : Ordered token l.session
  deliverable : AllDeliverable schemaVersion l.session
  upToDate : l.changed = false → UpToDate l.session

theorem Attentive.turn (htoken : Function.Injective token) {l : Listening}
    (h : Attentive token schemaVersion l) (t : Turn)
    (hdeliverable : ∀ p ∈ t.publications, Deliverable schemaVersion p.1) :
    Attentive token schemaVersion (turn token schemaVersion l t) := by
  cases t with
  | publish publication =>
    refine ⟨h.ordered.publish publication, h.deliverable.publishAll hdeliverable, fun hquiet => ?_⟩
    obtain ⟨hunset, hquiet⟩ := Bool.or_eq_false_iff.mp hquiet
    have hconnection := l.session.connection_publish publication
    have hgrows := l.session.applied_publishAll [publication]
    refine upToDate_of_caughtUp hgrows hquiet (congrArg _ hconnection) fun id topics hid topic ht =>
      ?_
    refine ⟨_, List.prefix_refl _, appliedTo_grows hgrows _, ?_⟩
    rw [← h.upToDate hunset id topics hid topic ht, sentTo, sentTo, RealtimeSession.turn,
      hconnection]
  | subscribe topicsValue meanwhile =>
    unfold RealtimeSession.turn
    dsimp only
    split
    · next c hok =>
      obtain ⟨hsent, hothers⟩ := subscribe_keeps hok
      have hordered := h.ordered.subscribe htoken hok
      have hpending : ∀ e ∈ c.pending (some (subscriptionId token l.session.drawn)),
          c.subscriptions.get? e.1 ≠ none := fun e he => subscribed_of_mem_pending he
      obtain ⟨hall, hkept, hcaught⟩ := hordered.sendPending_delivered _ meanwhile hpending
        h.deliverable hdeliverable _ fun _ => List.prefix_refl _
      refine ⟨hordered.sendPending _ _ _ _ hpending, hall, fun hquiet => ?_⟩
      obtain ⟨hunset, hquiet⟩ := Bool.or_eq_false_iff.mp hquiet
      refine upToDate_of_caughtUp (applied_sendPending _ _ _ _ _) hquiet hkept
        fun id topics hid topic ht => hcaught (id, topic.scopeKey) ?_
      by_cases hnew : id = subscriptionId token l.session.drawn
      · have honly : (some (subscriptionId token l.session.drawn)).all (· = id) = true :=
          decide_eq_true hnew.symm
        exact .inr ⟨_, pending_of_get? hid honly ht, rfl⟩
      · dsimp only at hid
        rw [hothers id hnew] at hid
        refine .inl ⟨_, List.prefix_refl _, List.prefix_refl _, ?_⟩
        exact (congrArg _ (sentTo_with hsent _)).trans (h.upToDate hunset id topics hid topic ht)
    · exact h
  | unsubscribe raw =>
    unfold RealtimeSession.turn
    dsimp only
    split
    · next c hok =>
      refine ⟨h.ordered.unsubscribe hok, h.deliverable, fun hunset id topics hid topic ht => ?_⟩
      obtain ⟨hsent, gone, -, -, hothers⟩ := unsubscribe_keeps hok
      dsimp only at hid
      rw [hothers] at hid
      split at hid
      · cases hid
      · exact (congrArg _ (sentTo_with hsent _)).trans (h.upToDate hunset id topics hid topic ht)
    · exact h
  | wake meanwhile =>
    by_cases hset : l.changed = true
    · rw [RealtimeSession.turn, if_pos hset]
      have hpending : ∀ e ∈ l.session.connection.pending none,
          l.session.connection.subscriptions.get? e.1 ≠ none :=
        fun e he => subscribed_of_mem_pending he
      obtain ⟨hall, hkept, hcaught⟩ := h.ordered.sendPending_delivered _ meanwhile hpending
        h.deliverable hdeliverable _ fun _ => List.prefix_refl _
      refine ⟨h.ordered.sendPending _ _ _ _ hpending, hall, fun hquiet => ?_⟩
      exact upToDate_of_caughtUp (applied_sendPending _ _ _ _ _) hquiet hkept
        fun id topics hid topic ht =>
          hcaught (id, topic.scopeKey) (.inr ⟨_, pending_of_get? hid rfl ht, rfl⟩)
    · rw [RealtimeSession.turn, if_neg hset]
      exact h

theorem attentive_turns (htoken : Function.Injective token) (ts : List Turn)
    (hdeliverable : ∀ t ∈ ts, ∀ p ∈ t.publications, Deliverable schemaVersion p.1) :
    Attentive token schemaVersion (turns token schemaVersion ts) := by
  unfold turns
  induction ts using List.reverseRecOn with
  | nil =>
    refine ⟨ordered_start token, fun e he => ?_, fun _ id topics hid => ?_⟩
    · cases he
    · cases hid
  | append_singleton ts t ih =>
    rw [List.foldl_concat]
    refine (ih fun t ht => hdeliverable t (List.mem_append_left _ ht)).turn htoken t ?_
    exact hdeliverable t (List.mem_append_right _ (List.mem_singleton.mpr rfl))

/-- A round in which nothing is published leaves the hub as it is. -/
theorem hub_sendPending_nil (schemaVersion : String) (s : RealtimeSession)
    (pending : List (String × NormalizedTopic)) :
    (s.sendPending schemaVersion delivered pending []).hub = s.hub ∧
      (s.sendPending schemaVersion delivered pending []).applied = s.applied := by
  induction pending generalizing s with
  | nil => exact ⟨rfl, rfl⟩
  | cons e pending ih =>
    obtain ⟨id, topic⟩ := e
    rw [RealtimeSession.sendPending]
    split
    · next c _ => exact ih { s with connection := c }
    · exact ⟨rfl, rfl⟩

/-- While the bit of its listener is not set, a connection whose subscription ids are never drawn
twice has sent the latest snapshot of every topic of every subscription last, in whatever order
snapshots are published, also between two messages of a round, topics are subscribed to and
cancelled, and the server wakes; and waking once while nothing is published leaves the bit unset. -/
theorem quiet_upToDate (token : Nat → String) (htoken : Function.Injective token)
    (schemaVersion : String) (ts : List Turn)
    (hdeliverable : ∀ t ∈ ts, ∀ p ∈ t.publications, Deliverable schemaVersion p.1) :
    let l := turns token schemaVersion ts
    (l.changed = false → ∀ id topics, l.session.connection.subscriptions.get? id = some topics →
      ∀ topic ∈ topics, (l.session.sentTo (id, topic.scopeKey)).getLast? =
        (l.session.hub.latest topic).map HubSnapshot.version) ∧
      (turns token schemaVersion (ts ++ [.wake []])).changed = false ∧
      (turns token schemaVersion (ts ++ [.wake []])).session.hub = l.session.hub := by
  intro l
  refine ⟨fun hquiet id topics hid topic htopic => ?_, ?_⟩
  · have hattentive := attentive_turns htoken ts hdeliverable
    rw [hattentive.upToDate hquiet id topics hid topic htopic, List.getLast?_map]
    exact congrArg _ (hattentive.ordered.tracks topic.scopeKey).latest.symm
  · have hnext : turns token schemaVersion (ts ++ [.wake []]) = turn token schemaVersion l
        (.wake []) :=
      List.foldl_concat ..
    rw [hnext, RealtimeSession.turn]
    split
    · obtain ⟨hhub, happlied⟩ := hub_sendPending_nil schemaVersion l.session
        (l.session.connection.pending none)
      refine ⟨?_, hhub⟩
      dsimp only
      rw [notifies, happlied, List.drop_length]
      rfl
    · next hunset => exact ⟨Bool.eq_false_iff.mpr hunset, rfl⟩

section

omit [Sha256] [UnicodeTable]

theorem deliverable_board : @Deliverable .ascii "2026-08-14.1" board := by
  let table : UnicodeTable := .ascii
  refine ⟨rfl, fun id _ => ⟨.obj [("subscriptionId", .str id)], rfl, ?_, rfl⟩⟩
  unfold ensurePublicProjection
  refine check_bind_eq_ok.mpr ⟨ensure_eq_ok.mpr ?_, rfl⟩
  change ["subscriptionId"].filter (@isPrivateField .ascii) = []
  decide +kernel

/-- A board that is published after it was subscribed to is sent when the server wakes. -/
theorem quiet_upToDate_board :
    boardListening.session.sentTo ("sub_0", boardTopic.scopeKey) = [board.version] ∧
      (boardListening.session.sentTo ("sub_0", boardTopic.scopeKey)).getLast? =
        (boardListening.session.hub.latest boardTopic).map HubSnapshot.version := by
  have htoken : Function.Injective fun n => String.ofList (natText n) :=
    fun m n h => natText_injective (String.ofList_injective h)
  have hboard : ∀ t ∈ boardTurns, ∀ p ∈ t.publications, p.1 = board := by
    intro t ht p hp
    rcases List.mem_cons.mp ht with rfl | ht
    · cases hp
    rcases List.mem_cons.mp ht with rfl | ht
    · exact congrArg _ (List.mem_singleton.mp hp)
    · rw [List.mem_singleton.mp ht] at hp
      cases hp
  have hquiet : boardListening.changed = false := by decide +kernel
  have hid : boardListening.session.connection.subscriptions.get? "sub_0" = some [boardTopic] := by
    decide +kernel
  refine ⟨by decide +kernel, ?_⟩
  refine (@quiet_upToDate .ascii (.ofTable []) _ htoken "2026-08-14.1" boardTurns
    fun t ht p hp => ?_).1 hquiet "sub_0" [boardTopic] hid boardTopic (List.mem_singleton.mpr rfl)
  rw [hboard t ht p hp]
  exact deliverable_board

end

omit [UnicodeTable] in
theorem drawn_publishAll (s : RealtimeSession) (ps : List Publication) :
    (ps.foldl RealtimeSession.publish s).drawn = s.drawn := by
  induction ps generalizing s with
  | nil => rfl
  | cons p ps ih =>
    refine (ih _).trans ?_
    obtain hsame | ⟨scope, ⟨-, heq⟩ | ⟨-, heq⟩⟩ := s.publish_cases p
    · rw [hsame]
    · rw [heq]
    · rw [heq]

/-- The id was drawn and is not subscribed. -/
structure Cancelled (token : Nat → String) (id : String) (s : RealtimeSession) : Prop where
  drawn : Drawn token s id
  gone : s.connection.subscriptions.get? id = none

omit [Sha256] in
theorem sendTopic_other {send : Json → Except Error Unit} {h : RealtimeSnapshotHub}
    {id other : String} {topic : NormalizedTopic} {c : Connection} (hother : other ≠ id)
    (hok : c.sendTopic schemaVersion send h other topic = .ok c') :
    c'.subscriptions = c.subscriptions ∧ ∀ scope : ScopeKey,
      c'.sent.filter (fun e => e.1 = (id, scope)) = c.sent.filter fun e => e.1 = (id, scope) := by
  obtain rfl | ⟨snapshot, -, -, rfl⟩ := sendTopic_eq_ok hok
  · exact ⟨rfl, fun _ => rfl⟩
  · refine ⟨rfl, fun scope => ?_⟩
    simp [hother]

/-- A round sends nothing under an id that is not pending. -/
theorem sendPending_other (schemaVersion : String) (send : Json → Except Error Unit) {id : String}
    (s : RealtimeSession) (pending : List (String × NormalizedTopic))
    (meanwhile : List (List Publication)) (hpending : ∀ e ∈ pending, e.1 ≠ id) :
    let s' := s.sendPending schemaVersion send pending meanwhile
    s'.drawn = s.drawn ∧ s'.connection.subscriptions = s.connection.subscriptions ∧
      ∀ scope, s'.sentTo (id, scope) = s.sentTo (id, scope) := by
  induction pending generalizing s meanwhile with
  | nil => exact ⟨rfl, rfl, fun _ => rfl⟩
  | cons e pending ih =>
    obtain ⟨other, topic⟩ := e
    have hconnection := s.connection_publishAll (meanwhile.headD [])
    have hdrawn := s.drawn_publishAll (meanwhile.headD [])
    rw [RealtimeSession.sendPending]
    generalize (meanwhile.headD []).foldl RealtimeSession.publish s = t at *
    dsimp only
    split
    · next c hok =>
      obtain ⟨hsubscriptions, hsent⟩ := sendTopic_other (hpending _ (List.mem_cons_self ..)) hok
      obtain ⟨hcount, hkept, hsame⟩ := ih { t with connection := c } meanwhile.tail
        fun e he => hpending e (List.mem_cons_of_mem _ he)
      refine ⟨hcount.trans hdrawn, hkept.trans (hsubscriptions.trans (congrArg _ hconnection)),
        fun scope => ?_⟩
      rw [hsame, sentTo, sentTo, hsent, hconnection]
    · exact ⟨hdrawn, congrArg _ hconnection, fun scope => by rw [sentTo, sentTo, hconnection]⟩

theorem Cancelled.step (htoken : Function.Injective token) {id : String} (h : Cancelled token id s)
    (schemaVersion : String) (action : Action) :
    Cancelled token id (s.step token schemaVersion action) ∧
      ∀ scope, (s.step token schemaVersion action).sentTo (id, scope) = s.sentTo (id, scope) := by
  cases action with
  | publish publication =>
    have hconnection := s.connection_publish publication
    refine ⟨⟨h.drawn.mono (s.drawn_publishAll [publication]).ge, ?_⟩, fun scope => ?_⟩
    · exact (congrArg (fun c : Connection => c.subscriptions.get? id) hconnection).trans h.gone
    · rw [RealtimeSession.step, sentTo, hconnection]
      rfl
  | subscribe topicsValue =>
    rw [RealtimeSession.step]
    split
    · next c hok =>
      obtain ⟨hsent, hothers⟩ := subscribe_keeps hok
      have hne : id ≠ subscriptionId token s.drawn := by
        rintro rfl
        exact not_drawn htoken s h.drawn
      exact ⟨⟨h.drawn.mono (Nat.le_succ _), (hothers id hne).trans h.gone⟩,
        fun _ => sentTo_with hsent _⟩
    · exact ⟨h, fun _ => rfl⟩
  | unsubscribe raw =>
    rw [RealtimeSession.step]
    split
    · next c hok =>
      obtain ⟨hsent, gone, -, -, hothers⟩ := unsubscribe_keeps hok
      refine ⟨⟨h.drawn, ?_⟩, fun _ => sentTo_with hsent _⟩
      rw [hothers, h.gone, ite_self]
    · exact ⟨h, fun _ => rfl⟩
  | sendPending only meanwhile send =>
    have hpending : ∀ e ∈ s.connection.pending only, e.1 ≠ id := by
      rintro e he rfl
      exact subscribed_of_mem_pending he h.gone
    obtain ⟨hdrawn, hkept, hsame⟩ := s.sendPending_other schemaVersion send _ meanwhile hpending
    refine ⟨⟨h.drawn.mono hdrawn.ge, ?_⟩, hsame⟩
    exact (congrArg (fun d => d.get? id) hkept).trans h.gone

/-- Once a subscription was cancelled, nothing more is sent under its id: not in any later order of
publications, subscriptions, cancellations and rounds, with any transport, as long as no id is drawn
twice. -/
theorem cancelled_silent (token : Nat → String) (htoken : Function.Injective token)
    (schemaVersion : String) (earlier later : List Action) (id : String) (c : Connection)
    (hok : (run token schemaVersion earlier).connection.unsubscribe (.str id) = .ok c)
    (scope : ScopeKey) :
    (run token schemaVersion (earlier ++ .unsubscribe (.str id) :: later)).sentTo (id, scope) =
      (run token schemaVersion earlier).sentTo (id, scope) := by
  have hordered := ordered_run htoken schemaVersion earlier
  rw [run, List.foldl_append, List.foldl_cons, ← run]
  generalize run token schemaVersion earlier = s at *
  obtain ⟨hsent, gone, hid, hsubscribed, hothers⟩ := unsubscribe_keeps hok
  cases hid
  have hstep : s.step token schemaVersion (.unsubscribe (.str id)) =
      { s with connection := c } := by
    rw [RealtimeSession.step, hok]
  have hcancelled : Cancelled token id { s with connection := c } :=
    ⟨hordered.subscribed id hsubscribed, (hothers id).trans (if_pos rfl)⟩
  have hsame := sentTo_with hsent (id, scope)
  rw [hstep, ← hsame]
  generalize { s with connection := c } = t at hcancelled
  induction later generalizing t with
  | nil => rfl
  | cons action later ih =>
    obtain ⟨hnext, hkept⟩ := hcancelled.step htoken schemaVersion action
    exact (ih _ hnext).trans (hkept scope)

end Rounds

/-- A board that is published after its subscription was cancelled is not sent. -/
theorem cancelled_silent_board :
    letI : Sha256 := .ofTable []
    letI : UnicodeTable := .ascii
    (run (fun n => String.ofList (natText n)) "2026-08-14.1"
      [.subscribe boardTopics, .unsubscribe (.str "sub_0"), .publish (board, [("limit", .int 50)]),
        .sendPending none [] fun _ => .ok ()]).sentTo ("sub_0", boardTopic.scopeKey) = [] := by
  have htoken : Function.Injective fun n => String.ofList (natText n) :=
    fun m n h => natText_injective (String.ofList_injective h)
  refine (@cancelled_silent .ascii (.ofTable []) _ htoken "2026-08-14.1" [.subscribe boardTopics]
    [.publish (board, [("limit", .int 50)]), .sendPending none [] fun _ => .ok ()] "sub_0" .empty ?_
    boardTopic.scopeKey).trans rfl
  rfl

end RealtimeSession

namespace RealtimeSnapshotHub

open RealtimeSession (board boardTopic)

/-- The snapshot of a publication with its scope, unless it is rejected. -/
def accepted [Sha256] (p : Publication) : Option (ScopeKey × HubSnapshot) :=
  match scopeOf p.1 p.2 with
  | .ok scope => some (scope, p.1)
  | .error _ => none

/-- The hub after a snapshot was handed in; one that is rejected is dropped. -/
def handIn [Sha256] (h : RealtimeSnapshotHub) (p : Publication) : RealtimeSnapshotHub :=
  match h.publish p.1 p.2 with
  | .ok (_, hub) => hub
  | .error _ => h

/-- What was handed in is of a replaced stream, or not newer than the latest of its stream. -/
structure Foremost (handed : List (ScopeKey × HubSnapshot)) (h : RealtimeSnapshotHub) : Prop where
  own : ∀ scope, ∀ x ∈ h.latestByScope.get? scope, (scope, x) ∈ handed
  fresh : ∀ scope, ∀ id ∈ h.retired scope, ∃ x ∈ h.latestByScope.get? scope, x.streamId ≠ id
  covered : ∀ p ∈ handed, p.2.streamId ∈ h.retired p.1 ∨
    ∃ x ∈ h.latestByScope.get? p.1, p.2.streamId = x.streamId ∧ p.2.sequence ≤ x.sequence

/-- A snapshot is passed over, goes on in the latest stream, or replaces it. -/
theorem apply_cases (h : RealtimeSnapshotHub) (scope : ScopeKey) (s : HubSnapshot) :
    let h' := (h.apply scope s).2
    (h'.latestByScope.get? scope = h.latestByScope.get? scope ∧ h'.retired scope = h.retired scope ∧
        (s.streamId ∈ h.retired scope ∨ ∃ x ∈ h.latestByScope.get? scope,
          s.streamId = x.streamId ∧ s.sequence ≤ x.sequence)) ∨
      (h'.latestByScope.get? scope = some s ∧ h'.retired scope = h.retired scope ∧
        ∀ x ∈ h.latestByScope.get? scope, s.streamId = x.streamId ∧ x.sequence < s.sequence) ∨
      (h'.latestByScope.get? scope = some s ∧ s.streamId ∉ h.retired scope ∧
        ∃ x ∈ h.latestByScope.get? scope, s.streamId ≠ x.streamId ∧
          h'.retired scope = x.streamId :: h.retired scope) := by
  unfold apply
  dsimp only
  split
  · next hnone => exact .inr (.inl ⟨Dict.get?_set_self .., rfl, by simp [hnone]⟩)
  · next x hx =>
    rw [hx]
    split_ifs with hstream hbehind hsame hidentical hretired
    · exact .inl ⟨hx, rfl, .inr ⟨x, rfl, hstream, hbehind.le⟩⟩
    · exact .inl ⟨hx, rfl, .inr ⟨x, rfl, hstream, hsame.le⟩⟩
    · exact .inl ⟨hx, rfl, .inr ⟨x, rfl, hstream, hsame.le⟩⟩
    · refine .inr (.inl ⟨Dict.get?_set_self .., rfl, ?_⟩)
      rintro _ ⟨⟩
      exact ⟨hstream, by omega⟩
    · exact .inl ⟨hx, by simp [retired], .inl hretired⟩
    · exact .inr (.inr ⟨Dict.get?_set_self .., hretired, x, rfl, hstream, by simp [retired]⟩)

theorem Foremost.apply {handed : List (ScopeKey × HubSnapshot)} {h : RealtimeSnapshotHub}
    (hbefore : Foremost handed h) (scope : ScopeKey) (s : HubSnapshot) :
    Foremost (handed ++ [(scope, s)]) (h.apply scope s).2 := by
  have hcases := h.apply_cases scope s
  have hother := fun {scope'} (hne : scope' ≠ scope) => h.apply_other s hne
  generalize (h.apply scope s).2 = h' at hcases hother
  refine ⟨fun scope' x hx => ?_, fun scope' id hid => ?_, fun p hp => ?_⟩
  · by_cases hscope : scope' = scope
    · subst hscope
      obtain ⟨hlatest, -, -⟩ | ⟨hlatest, -, -⟩ | ⟨hlatest, -, -⟩ := hcases
      · rw [hlatest] at hx
        exact List.mem_append_left _ (hbefore.own scope' x hx)
      · obtain rfl := Option.mem_unique hlatest hx
        exact List.mem_append_right _ (List.mem_singleton.mpr rfl)
      · obtain rfl := Option.mem_unique hlatest hx
        exact List.mem_append_right _ (List.mem_singleton.mpr rfl)
    · rw [(hother hscope).1] at hx
      exact List.mem_append_left _ (hbefore.own scope' x hx)
  · by_cases hscope : scope' = scope
    · subst hscope
      obtain ⟨hlatest, hretired, -⟩ | ⟨hlatest, hretired, hforward⟩ |
        ⟨hlatest, hnew, x, hx, hne, hretired⟩ := hcases
      · rw [hretired] at hid
        rw [hlatest]
        exact hbefore.fresh scope' id hid
      · rw [hretired] at hid
        obtain ⟨x, hx, hne⟩ := hbefore.fresh scope' id hid
        exact ⟨s, hlatest, (hforward x hx).1 ▸ hne⟩
      · rw [hretired] at hid
        refine ⟨s, hlatest, ?_⟩
        rcases List.mem_cons.mp hid with rfl | hid
        · exact hne
        · rintro rfl
          exact hnew hid
    · rw [(hother hscope).2] at hid
      rw [(hother hscope).1]
      exact hbefore.fresh scope' id hid
  · obtain ⟨scope', q⟩ := p
    by_cases hscope : scope' = scope
    · subst hscope
      rcases List.mem_append.mp hp with hp | hp
      · have hq := hbefore.covered _ hp
        obtain ⟨hlatest, hretired, -⟩ | ⟨hlatest, hretired, hforward⟩ |
          ⟨hlatest, -, x, hx, -, hretired⟩ := hcases
        · rwa [hlatest, hretired]
        · rw [hretired, hlatest]
          refine hq.imp_right ?_
          rintro ⟨x, hx, hstream, hle⟩
          obtain ⟨hsame, hlt⟩ := hforward x hx
          exact ⟨s, rfl, hstream.trans hsame.symm, hle.trans hlt.le⟩
        · rw [hretired]
          obtain hq | ⟨x', hx', hstream, -⟩ := hq
          · exact .inl (List.mem_cons_of_mem _ hq)
          · obtain rfl := Option.mem_unique hx hx'
            exact .inl (hstream ▸ List.mem_cons_self ..)
      · obtain rfl := (Prod.mk.inj (List.mem_singleton.mp hp)).2
        obtain ⟨hlatest, hretired, hover⟩ | ⟨hlatest, -, -⟩ | ⟨hlatest, -, -⟩ := hcases
        · rwa [hlatest, hretired]
        · exact .inr ⟨q, hlatest, rfl, le_rfl⟩
        · exact .inr ⟨q, hlatest, rfl, le_rfl⟩
    · have hq : (scope', q) ∈ handed := by
        rcases List.mem_append.mp hp with hp | hp
        · exact hp
        · exact absurd (Prod.mk.inj (List.mem_singleton.mp hp)).1 hscope
      rw [(hother hscope).1, (hother hscope).2]
      exact hbefore.covered _ hq

theorem foremost_handIn [Sha256] (ps : List Publication) :
    Foremost (ps.filterMap accepted) (ps.foldl handIn empty) := by
  induction ps using List.reverseRecOn with
  | nil => exact ⟨fun _ _ h => (by cases h), fun _ _ h => (by cases h), fun _ h => (by cases h)⟩
  | append_singleton ps q ih =>
    rw [List.foldl_concat, List.filterMap_append]
    generalize ps.foldl handIn empty = h at ih
    rw [List.filterMap_cons, List.filterMap_nil, accepted, handIn, publish]
    cases scopeOf q.1 q.2 with
    | error e =>
      change Foremost (_ ++ []) h
      rwa [List.append_nil]
    | ok scope => exact ih.apply scope q.1

/-- Whatever was handed to the hub in whatever order, by publishers of any streams and again and
again, the latest snapshot of a scope is not older than any snapshot of its stream that was handed
in for this scope. -/
theorem latest_foremost [Sha256] (ps : List Publication) (topic : NormalizedTopic) (x : HubSnapshot)
    (hx : (ps.foldl handIn empty).latest topic = some x) (p : Publication) (hp : p ∈ ps)
    (hscope : scopeOf p.1 p.2 = .ok topic.scopeKey) (hstream : p.1.streamId = x.streamId) :
    p.1.sequence ≤ x.sequence := by
  have hforemost := foremost_handIn ps
  have hmem : (topic.scopeKey, p.1) ∈ ps.filterMap accepted :=
    List.mem_filterMap.mpr ⟨p, hp, by rw [accepted, hscope]⟩
  obtain hretired | ⟨y, hy, -, hle⟩ := hforemost.covered _ hmem
  · obtain ⟨y, hy, hne⟩ := hforemost.fresh _ _ hretired
    obtain rfl := Option.mem_unique hx hy
    exact absurd hstream.symm hne
  · obtain rfl := Option.mem_unique hx hy
    exact hle

/-- A board that comes late does not take the place of the one after it. -/
theorem latest_foremost_board :
    letI : Sha256 := .ofTable []
    board.sequence ≤
    ({ board with snapshotId := "snap_2", sequence := 2 } : HubSnapshot).sequence :=
  @latest_foremost (.ofTable []) [({ board with snapshotId := "snap_2", sequence := 2 },
    [("limit", .int 50)]), (board, [("limit", .int 50)])] boardTopic _ rfl (board,
    [("limit", .int 50)]) (List.mem_cons_of_mem _ (List.mem_cons_self ..)) rfl rfl

end RealtimeSnapshotHub

end Dayjaview.Api
