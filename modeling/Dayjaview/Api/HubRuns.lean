import Dayjaview.Api.Hub

/-!
# Runs of the hub

A snapshot becomes the latest of its scope only if it goes on in the stream of
the latest one or opens a stream that was never there. What a connection sends
for a topic follows the latest snapshots in their order and never repeats a
version.
-/

namespace Dayjaview.Api

open Dayjaview.Realtime

/-- The later snapshot of a stream has the larger sequence. -/
def Forward (a b : HubSnapshot) : Prop := a.streamId = b.streamId → a.sequence < b.sequence

/-- A stream that comes again was not replaced in between. -/
def NoReturn (applied : List HubSnapshot) : Prop :=
  ∀ earlier b later, applied = earlier ++ b :: later → ∀ a ∈ earlier, a.streamId = b.streamId →
    ∀ last ∈ earlier.getLast?, last.streamId = b.streamId

/-- What the hub knows of the snapshots that became the latest of a scope. -/
structure Tracks (latest : Option HubSnapshot) (retired : List String)
    (applied : List HubSnapshot) : Prop where
  latest : latest = applied.getLast?
  retired : ∀ a ∈ applied, ∀ last ∈ applied.getLast?, a.streamId ≠ last.streamId →
    a.streamId ∈ retired
  forward : applied.Pairwise Forward
  noReturn : NoReturn applied

theorem tracks_nil : Tracks none [] [] := by
  refine ⟨rfl, by simp, .nil, ?_⟩
  rintro earlier b later h
  simp at h

theorem nodup_versions {applied : List HubSnapshot} (h : applied.Pairwise Forward) :
    (applied.map HubSnapshot.version).Nodup := by
  rw [List.nodup_iff_pairwise_ne, List.pairwise_map]
  refine h.imp fun {a b} hforward hversion => ?_
  obtain ⟨hstream, hsequence, -⟩ := Prod.mk.inj hversion |>.imp_right Prod.mk.inj
  have hlt := hforward hstream
  omega

theorem Tracks.append {latest : Option HubSnapshot} {retired retired' : List String}
    {applied : List HubSnapshot} (h : Tracks latest retired applied) {b : HubSnapshot}
    (hsequence : ∀ last ∈ latest, b.streamId = last.streamId → last.sequence < b.sequence)
    (hnew : ∀ last ∈ latest, b.streamId ≠ last.streamId → b.streamId ∉ retired)
    (hretired : retired ⊆ retired')
    (hreplaced : ∀ last ∈ latest, b.streamId ≠ last.streamId → last.streamId ∈ retired') :
    Tracks (some b) retired' (applied ++ [b]) := by
  -- an earlier snapshot of the stream of `b` makes that stream the latest one
  have hcurrent : ∀ a ∈ applied, a.streamId = b.streamId → ∀ last ∈ applied.getLast?,
      last.streamId = b.streamId := by
    intro a ha hstream last hlast
    by_contra hne
    have hmem :
        a.streamId ∈ retired := h.retired a ha last hlast (by rw [hstream]; exact Ne.symm hne)
    rw [hstream] at hmem
    exact hnew last (h.latest ▸ hlast) (Ne.symm hne) hmem
  constructor
  · rw [List.getLast?_concat]
  · intro a ha last hlast hne
    rw [List.getLast?_concat] at hlast
    obtain rfl := Option.mem_some.mp hlast
    rcases List.mem_append.mp ha with ha | ha
    · obtain ⟨current, hcurrent'⟩ : ∃ current, applied.getLast? = some current :=
        Option.isSome_iff_exists.mp (by rw [List.getLast?_isSome]; exact List.ne_nil_of_mem ha)
      by_cases hstream : a.streamId = current.streamId
      · rw [hstream] at hne ⊢
        exact hreplaced current (h.latest ▸ hcurrent') (Ne.symm hne)
      · exact hretired (h.retired a ha current hcurrent' hstream)
    · obtain rfl := List.mem_singleton.mp ha
      exact absurd rfl hne
  · refine List.pairwise_append.mpr ⟨h.forward, List.pairwise_singleton _ _, ?_⟩
    intro a ha b' hb hstream
    obtain rfl := List.mem_singleton.mp hb
    obtain ⟨earlier, current, rfl⟩ := List.eq_nil_or_concat applied |>.resolve_left
      (List.ne_nil_of_mem ha)
    rw [List.concat_eq_append] at *
    have hlast : (earlier ++ [current]).getLast? = some current := List.getLast?_concat
    have hcurrentStream := hcurrent a ha hstream current hlast
    have hlt := hsequence current (h.latest ▸ hlast) hcurrentStream.symm
    rcases List.mem_append.mp ha with ha | ha
    · obtain ⟨-, -, hbefore⟩ := List.pairwise_append.mp h.forward
      have hforward := hbefore a ha current (List.mem_singleton.mpr rfl)
      exact (hforward (hstream.trans hcurrentStream.symm)).trans hlt
    · obtain rfl := List.mem_singleton.mp ha
      exact hlt
  · intro earlier b' later heq a ha hstream last hlast
    rcases List.eq_nil_or_concat later with rfl | ⟨later', c, rfl⟩
    · obtain ⟨rfl, hb⟩ := List.append_inj' heq rfl
      obtain rfl := List.singleton_inj.mp hb
      exact hcurrent a ha hstream last hlast
    · rw [List.concat_eq_append, ← List.cons_append, ← List.append_assoc] at heq
      obtain ⟨rfl, -⟩ := List.append_inj' heq rfl
      exact h.noReturn earlier b' later' rfl a ha hstream last hlast

namespace RealtimeSnapshotHub

theorem apply_other (h : RealtimeSnapshotHub) {scope scope' : ScopeKey} (snapshot : HubSnapshot)
    (hne : scope' ≠ scope) :
    (h.apply scope snapshot).2.latestByScope.get? scope' = h.latestByScope.get? scope' ∧
      (h.apply scope snapshot).2.retired scope' = h.retired scope' := by
  unfold apply retired
  dsimp only
  split
  · simp [Dict.get?_set_of_ne _ _ hne]
  · split_ifs <;> simp [Dict.get?_set_of_ne _ _ hne]

theorem apply_ignored (h : RealtimeSnapshotHub) {scope : ScopeKey} {snapshot : HubSnapshot}
    (hignored : (h.apply scope snapshot).1 ≠ .applied) :
    (h.apply scope snapshot).2.latestByScope.get? scope = h.latestByScope.get? scope ∧
      (h.apply scope snapshot).2.retired scope = h.retired scope := by
  unfold apply at hignored ⊢
  dsimp only at hignored ⊢
  split at hignored
  · exact absurd rfl hignored
  · next current hcurrent =>
    rw [hcurrent]
    split_ifs at hignored ⊢
    · exact ⟨hcurrent, rfl⟩
    · exact ⟨hcurrent, rfl⟩
    · exact ⟨hcurrent, rfl⟩
    · exact absurd rfl hignored
    · exact ⟨hcurrent, by simp [retired]⟩
    · exact absurd rfl hignored

theorem apply_applied {h : RealtimeSnapshotHub} {scope : ScopeKey} {snapshot : HubSnapshot}
    {applied : List HubSnapshot}
    (htracks : Tracks (h.latestByScope.get? scope) (h.retired scope) applied)
    (happlied : (h.apply scope snapshot).1 = .applied) :
    Tracks ((h.apply scope snapshot).2.latestByScope.get? scope)
      ((h.apply scope snapshot).2.retired scope) (applied ++ [snapshot]) := by
  unfold apply at happlied ⊢
  dsimp only at happlied ⊢
  split at happlied
  · next hnone =>
    rw [hnone] at htracks
    rw [Dict.get?_set_self]
    exact htracks.append (by simp) (by simp) (List.Subset.refl _) (by simp)
  · next current hcurrent =>
    rw [hcurrent] at htracks
    split_ifs at happlied ⊢ with hstream hbehind hsame hidentical hretired
    · rw [Dict.get?_set_self]
      refine htracks.append ?_ ?_ (List.Subset.refl _) ?_
      · rintro last ⟨⟩ -
        omega
      · rintro last ⟨⟩ hne
        exact absurd hstream hne
      · rintro last ⟨⟩ hne
        exact absurd hstream hne
    · rw [Dict.get?_set_self, retired, Dict.get?_set_self, Option.getD_some]
      refine htracks.append ?_ ?_ (List.subset_cons_self _ _) ?_
      · rintro last ⟨⟩ hsame
        exact absurd hsame hstream
      · rintro last ⟨⟩ -
        exact hretired
      · rintro last ⟨⟩ -
        exact List.mem_cons_self ..

end RealtimeSnapshotHub

namespace RealtimeSession

/-- The snapshots that became the latest of a scope, in order. -/
def appliedTo (s : RealtimeSession) (scope : ScopeKey) : List HubSnapshot :=
  (s.applied.filter fun e => e.1 = scope).map Prod.snd

/-- The versions sent under a key, in order. -/
def sentTo (s : RealtimeSession) (key : SentKey) : List (String × Int × String) :=
  (s.connection.sent.filter fun e => e.1 = key).map Prod.snd

def subscriptionId (token : Nat → String) (n : Nat) : String := s!"sub_{token n}"

def Drawn (token : Nat → String) (s : RealtimeSession) (id : String) : Prop :=
  ∃ n < s.drawn, id = subscriptionId token n

/-- What holds of a hub and a connection. -/
structure Ordered (token : Nat → String) (s : RealtimeSession) : Prop where
  tracks : ∀ scope,
    Tracks (s.hub.latestByScope.get? scope) (s.hub.retired scope) (s.appliedTo scope)
  follows : ∀ key, (s.sentTo key).Sublist ((s.appliedTo key.2).map HubSnapshot.version)
  lastSent : ∀ key, s.connection.subscriptions.get? key.1 ≠ none →
    s.connection.lastSent.get? key = (s.sentTo key).getLast?
  subscribed : ∀ id, s.connection.subscriptions.get? id ≠ none → Drawn token s id
  sentDrawn : ∀ e ∈ s.connection.sent, Drawn token s e.1.1
  lastSentDrawn : ∀ key, s.connection.lastSent.get? key ≠ none → Drawn token s key.1

theorem ordered_start (token : Nat → String) : Ordered token start where
  tracks scope := tracks_nil
  follows key := List.Sublist.slnil
  lastSent key h := absurd rfl h
  subscribed id h := absurd rfl h
  sentDrawn e h := by cases h
  lastSentDrawn key h := absurd rfl h

variable [Sha256]

theorem publish_cases (s : RealtimeSession) (p : Publication) :
    s.publish p = s ∨ ∃ scope,
      ((s.hub.apply scope p.1).1 = .applied ∧
        s.publish p = { s with
          hub := (s.hub.apply scope p.1).2, applied := s.applied ++ [(scope, p.1)] }) ∨
      ((s.hub.apply scope p.1).1 ≠ .applied ∧
        s.publish p = { s with hub := (s.hub.apply scope p.1).2 }) := by
  unfold publish RealtimeSnapshotHub.publish
  cases hscope : RealtimeSnapshotHub.scopeOf p.1 p.2 with
  | error e => exact .inl rfl
  | ok scope =>
    refine .inr ⟨scope, ?_⟩
    simp only [bind, Except.bind, pure, Except.pure]
    cases happly : s.hub.apply scope p.1 with
    | mk disposition hub =>
      cases disposition with
      | applied => exact .inl ⟨rfl, rfl⟩
      | duplicate | outOfOrder | retiredStream => exact .inr ⟨by simp, rfl⟩

variable {s : RealtimeSession} {token : Nat → String} {c : Connection}

theorem Ordered.publish (h : Ordered token s) (p : Publication) : Ordered token (s.publish p) := by
  obtain hsame | ⟨scope, ⟨happlied, heq⟩ | ⟨hignored, heq⟩⟩ := s.publish_cases p
  · rwa [hsame]
  · have hto : ∀ scope', (s.publish p).appliedTo scope' =
        if scope = scope' then s.appliedTo scope' ++ [p.1] else s.appliedTo scope' := by
      intro scope'
      rw [heq, appliedTo, List.filter_append, appliedTo]
      split
      · next hscope => simp [hscope]
      · next hscope => simp [hscope]
    refine ⟨fun scope' => ?_, fun key => ?_, ?_, ?_, ?_, ?_⟩
    · rw [hto]
      split
      · next hscope =>
        subst hscope
        rw [heq]
        exact RealtimeSnapshotHub.apply_applied (h.tracks scope) happlied
      · next hscope =>
        obtain ⟨hlatest, hretired⟩ := s.hub.apply_other p.1 (Ne.symm hscope)
        rw [heq]
        dsimp only
        rw [hlatest, hretired]
        exact h.tracks scope'
    · have hsent : (s.publish p).sentTo key = s.sentTo key := by rw [heq]; rfl
      rw [hsent, hto]
      refine (h.follows key).trans ?_
      split
      · rw [List.map_append]
        exact List.sublist_append_left _ _
      · exact List.Sublist.refl _
    · rw [heq]
      exact h.lastSent
    · rw [heq]
      exact h.subscribed
    · rw [heq]
      exact h.sentDrawn
    · rw [heq]
      exact h.lastSentDrawn
  · refine ⟨fun scope' => ?_, ?_, ?_, ?_, ?_, ?_⟩
    · have hkept : (s.publish p).hub.latestByScope.get? scope' = s.hub.latestByScope.get? scope' ∧
          (s.publish p).hub.retired scope' = s.hub.retired scope' := by
        rw [heq]
        by_cases hscope : scope' = scope
        · subst hscope
          exact s.hub.apply_ignored hignored
        · exact s.hub.apply_other p.1 hscope
      rw [hkept.1, hkept.2, heq]
      exact h.tracks scope'
    · rw [heq]
      exact h.follows
    · rw [heq]
      exact h.lastSent
    · rw [heq]
      exact h.subscribed
    · rw [heq]
      exact h.sentDrawn
    · rw [heq]
      exact h.lastSentDrawn

theorem Ordered.publishAll (h : Ordered token s) (ps : List Publication) :
    Ordered token (ps.foldl RealtimeSession.publish s) := by
  induction ps generalizing s with
  | nil => exact h
  | cons p ps ih => exact ih (h.publish p)

theorem connection_publish (s : RealtimeSession) (p : Publication) :
    (s.publish p).connection = s.connection := by
  obtain hsame | ⟨scope, ⟨-, heq⟩ | ⟨-, heq⟩⟩ := s.publish_cases p
  · rw [hsame]
  · rw [heq]
  · rw [heq]

theorem connection_publishAll (s : RealtimeSession) (ps : List Publication) :
    (ps.foldl RealtimeSession.publish s).connection = s.connection := by
  induction ps generalizing s with
  | nil => rfl
  | cons p ps ih => exact (ih _).trans (s.connection_publish p)

omit [Sha256] in
theorem sublist_of_getLast?_ne {α : Type} {l m : List α} {a : α} (h : l.Sublist (m ++ [a]))
    (hlast : l.getLast? ≠ some a) : l.Sublist m := by
  obtain ⟨front, back, rfl, hfront, hback⟩ := List.sublist_append_iff.mp h
  rcases List.sublist_singleton.mp hback with rfl | rfl
  · rwa [List.append_nil]
  · rw [List.getLast?_concat] at hlast
    exact absurd rfl hlast

variable [UnicodeTable]

omit [Sha256] in
theorem sendTopic_eq_ok {schemaVersion : String} {send : Json → Except Error Unit}
    {h : RealtimeSnapshotHub} {id : String} {topic : NormalizedTopic} {c' : Connection}
    (hok : c.sendTopic schemaVersion send h id topic = .ok c') :
    c' = c ∨ ∃ snapshot, h.latest topic = some snapshot ∧
      c.lastSent.get? (id, topic.scopeKey) ≠ some snapshot.version ∧
      c' = { c with
        lastSent := c.lastSent.set (id, topic.scopeKey) snapshot.version
        sent := c.sent ++ [((id, topic.scopeKey), snapshot.version)] } := by
  unfold Connection.sendTopic at hok
  split at hok
  · exact .inl (Except.ok.inj hok).symm
  · next snapshot hlatest =>
    dsimp only at hok
    split_ifs at hok with hsent hschema
    · exact .inl (Except.ok.inj hok).symm
    · obtain ⟨-, hok⟩ := check_bind_eq_ok.mp hok
      exact .inl (Except.ok.inj hok).symm
    · obtain ⟨message, -, hok⟩ := bind_eq_ok.mp hok
      obtain ⟨-, hok⟩ := check_bind_eq_ok.mp hok
      obtain ⟨-, hok⟩ := check_bind_eq_ok.mp hok
      exact .inr ⟨snapshot, hlatest, hsent, (Except.ok.inj hok).symm⟩

omit [Sha256] in
theorem Ordered.sendTopic (h : Ordered token s) {schemaVersion : String}
    {send : Json → Except Error Unit} {id : String} {topic : NormalizedTopic}
    (hid : s.connection.subscriptions.get? id ≠ none)
    (hok : s.connection.sendTopic schemaVersion send s.hub id topic = .ok c) :
    Ordered token { s with connection := c } ∧ c.subscriptions = s.connection.subscriptions := by
  obtain rfl | ⟨snapshot, hlatest, hnew, rfl⟩ := sendTopic_eq_ok hok
  · exact ⟨h, rfl⟩
  have hto : ∀ key, RealtimeSession.sentTo { s with connection := { s.connection with
      lastSent := s.connection.lastSent.set (id, topic.scopeKey) snapshot.version
      sent := s.connection.sent ++ [((id, topic.scopeKey), snapshot.version)] } } key =
      if (id, topic.scopeKey) = key then s.sentTo key ++ [snapshot.version] else s.sentTo key := by
    intro key
    rw [sentTo, List.filter_append, sentTo]
    split
    · next hkey => simp [hkey]
    · next hkey => simp [hkey]
  refine ⟨⟨h.tracks, fun key => ?_, fun key hkey => ?_, h.subscribed, fun e he => ?_,
    fun key hkey => ?_⟩,
    rfl⟩
  · rw [hto]
    split
    · next hkey =>
      subst hkey
      -- the latest snapshot is the last one applied, and it was not sent last
      have hlast : (s.appliedTo topic.scopeKey).getLast? = some snapshot := by
        rw [← (h.tracks topic.scopeKey).latest]
        exact hlatest
      obtain ⟨earlier, happlied⟩ := List.getLast?_eq_some_iff.mp hlast
      have hfollows := h.follows (id, topic.scopeKey)
      have happliedTo : ∀ c, RealtimeSession.appliedTo { s with connection := c } topic.scopeKey =
          earlier ++ [snapshot] := fun _ => happlied
      dsimp only at hfollows ⊢
      rw [happlied, List.map_append, List.map_singleton] at hfollows
      rw [happliedTo, List.map_append, List.map_singleton]
      refine List.Sublist.append (sublist_of_getLast?_ne hfollows ?_) (List.Sublist.refl _)
      rwa [← h.lastSent _ hid]
    · exact h.follows key
  · rw [hto, Dict.get?_set]
    split
    · next hsame =>
      rw [if_pos hsame.symm, List.getLast?_concat]
    · next hother =>
      rw [if_neg fun hsame => hother hsame.symm]
      exact h.lastSent key hkey
  · rcases List.mem_append.mp he with he | he
    · exact h.sentDrawn e he
    · obtain rfl := List.mem_singleton.mp he
      exact h.subscribed id hid
  · rw [Dict.get?_set] at hkey
    split at hkey
    · next hsame =>
      rw [hsame]
      exact h.subscribed id hid
    · exact h.lastSentDrawn key hkey

omit [Sha256] [UnicodeTable] in
theorem subscribed_of_mem_pending {only : Option String} {e : String × NormalizedTopic}
    (h : e ∈ c.pending only) : c.subscriptions.get? e.1 ≠ none := by
  obtain ⟨entry, hentry, he⟩ := List.mem_flatMap.mp h
  obtain ⟨topic, -, rfl⟩ := List.mem_map.mp he
  obtain ⟨id, topics⟩ := entry
  rw [c.subscriptions.mem_entries_iff.mp (List.mem_of_mem_filter hentry)]
  exact Option.some_ne_none topics

theorem Ordered.sendPending (h : Ordered token s) (schemaVersion : String)
    (send : Json → Except Error Unit) (pending : List (String × NormalizedTopic))
    (meanwhile : List (List Publication))
    (hpending : ∀ e ∈ pending, s.connection.subscriptions.get? e.1 ≠ none) :
    Ordered token (s.sendPending schemaVersion send pending meanwhile) := by
  induction pending generalizing s meanwhile with
  | nil => exact h
  | cons e pending ih =>
    obtain ⟨id, topic⟩ := e
    have hpublished := h.publishAll (meanwhile.headD [])
    have hconnection := s.connection_publishAll (meanwhile.headD [])
    have hid := hpending (id, topic) (List.mem_cons_self ..)
    rw [RealtimeSession.sendPending]
    split
    · next c hok =>
      rw [← hconnection] at hid
      obtain ⟨hordered, hsubscriptions⟩ := hpublished.sendTopic hid hok
      refine ih hordered meanwhile.tail fun e he => ?_
      dsimp only
      rw [hsubscriptions, hconnection]
      exact hpending e (List.mem_cons_of_mem _ he)
    · exact hpublished

section

omit [Sha256] [UnicodeTable]

theorem Drawn.mono {s' : RealtimeSession} {id : String} (h : Drawn token s id)
    (hle : s.drawn ≤ s'.drawn) : Drawn token s' id := by
  obtain ⟨n, hn, hid⟩ := h
  exact ⟨n, by omega, hid⟩

theorem not_drawn (htoken : Function.Injective token) (s : RealtimeSession) :
    ¬ Drawn token s (subscriptionId token s.drawn) := by
  rintro ⟨n, hn, hid⟩
  simp only [subscriptionId, toString, String.append_right_inj] at hid
  have hsame := htoken hid
  omega

theorem Ordered.subscribe (htoken : Function.Injective token) (h : Ordered token s)
    {topicsValue : Json}
    (hok : s.connection.subscribe (subscriptionId token s.drawn) topicsValue = .ok c) :
    Ordered token { s with connection := c, drawn := s.drawn + 1 } := by
  obtain ⟨topics, rfl⟩ : ∃ topics, c = { s.connection with
      subscriptions := s.connection.subscriptions.set (subscriptionId token s.drawn) topics } := by
    unfold Connection.subscribe at hok
    split at hok
    · split at hok
      · obtain ⟨topics, -, hok⟩ := bind_eq_ok.mp hok
        split at hok
        · exact ⟨topics, (Except.ok.inj hok).symm⟩
        · cases hok
      · cases hok
    · cases hok
  have hmono : ∀ {id c}, Drawn token s id →
      Drawn token { s with connection := c, drawn := s.drawn + 1 } id :=
    fun hid => hid.mono (Nat.le_succ _)
  refine ⟨h.tracks, h.follows, fun key hkey => ?_, fun id hid => ?_,
    fun e he => hmono (h.sentDrawn e he), fun key hkey => hmono (h.lastSentDrawn key hkey)⟩
  · rw [Dict.get?_set] at hkey
    split at hkey
    · next hnew =>
      -- nothing was sent under an id that was not drawn
      have hnone : s.connection.lastSent.get? key = none := by
        by_contra hsome
        exact not_drawn htoken s (hnew ▸ h.lastSentDrawn key hsome)
      have hnil : s.sentTo key = [] := by
        rw [sentTo, List.map_eq_nil_iff, List.filter_eq_nil_iff]
        intro e he hkey'
        refine not_drawn htoken s ?_
        rw [← hnew, ← of_decide_eq_true hkey']
        exact h.sentDrawn e he
      change s.connection.lastSent.get? key = (s.sentTo key).getLast?
      rw [hnone, hnil]
      rfl
    · exact h.lastSent key hkey
  · rw [Dict.get?_set] at hid
    split at hid
    · next hnew => exact ⟨s.drawn, Nat.lt_succ_self _, hnew⟩
    · exact hmono (h.subscribed id hid)

theorem get?_forget (id : String) (lastSent : Dict SentKey (String × Int × String))
    (key : SentKey) : (Connection.forget id lastSent).get? key = lastSent.get? key ∨
      ((Connection.forget id lastSent).get? key = none ∧ key.1 = id) := by
  unfold Connection.forget
  generalize lastSent.keys = keys
  induction keys generalizing lastSent with
  | nil => exact .inl rfl
  | cons k keys ih =>
    rw [List.foldl_cons]
    split
    · next hk =>
      rcases ih (lastSent.erase k) with hsame | hnone
      · rw [hsame, Dict.get?_erase]
        split
        · next hkey => exact .inr ⟨rfl, hkey ▸ hk⟩
        · exact .inl rfl
      · exact .inr hnone
    · exact ih lastSent

theorem Ordered.unsubscribe (h : Ordered token s) {raw : Json}
    (hok : s.connection.unsubscribe raw = .ok c) :
    Ordered token { s with connection := c } := by
  obtain ⟨id, rfl⟩ : ∃ id, c = { s.connection with
      subscriptions := s.connection.subscriptions.erase id
      lastSent := Connection.forget id s.connection.lastSent } := by
    unfold Connection.unsubscribe at hok
    split at hok
    · split_ifs at hok
      · cases hok
      · cases hok
      · exact ⟨_, (Except.ok.inj hok).symm⟩
    · cases hok
  refine ⟨h.tracks, h.follows, fun key hkey => ?_, fun id' hid => ?_, h.sentDrawn,
    fun key hkey => ?_⟩
  · rw [Dict.get?_erase] at hkey
    split at hkey
    · exact absurd rfl hkey
    · next hother =>
      rcases get?_forget id s.connection.lastSent key with hsame | ⟨-, hid⟩
      · rw [hsame]
        exact h.lastSent key hkey
      · exact absurd hid hother
  · rw [Dict.get?_erase] at hid
    split at hid
    · exact absurd rfl hid
    · exact h.subscribed id' hid
  · rcases get?_forget id s.connection.lastSent key with hsame | ⟨hnone, -⟩
    · rw [hsame] at hkey
      exact h.lastSentDrawn key hkey
    · exact absurd hnone hkey

end

theorem Ordered.step (htoken : Function.Injective token) (h : Ordered token s)
    (schemaVersion : String) (action : Action) :
    Ordered token (s.step token schemaVersion action) := by
  cases action with
  | publish publication => exact h.publish publication
  | subscribe topicsValue =>
    rw [RealtimeSession.step]
    split
    · next hok => exact h.subscribe htoken hok
    · exact h
  | unsubscribe raw =>
    rw [RealtimeSession.step]
    split
    · next hok => exact h.unsubscribe hok
    · exact h
  | sendPending only meanwhile send =>
    exact h.sendPending schemaVersion send _ meanwhile fun e he => subscribed_of_mem_pending he

theorem ordered_run (htoken : Function.Injective token) (schemaVersion : String)
    (actions : List Action) :
    Ordered token (run token schemaVersion actions) := by
  have hfrom : ∀ s, Ordered token s →
      Ordered token (actions.foldl (RealtimeSession.step token schemaVersion) s) := by
    induction actions with
    | nil => exact fun s hs => hs
    | cons action actions ih => exact fun s hs => ih _ (hs.step htoken schemaVersion action)
  exact hfrom _ (ordered_start token)

omit [UnicodeTable] in
theorem applied_publishAll (s : RealtimeSession) (ps : List Publication) :
    s.applied <+: (ps.foldl RealtimeSession.publish s).applied := by
  induction ps generalizing s with
  | nil => exact List.prefix_refl _
  | cons p ps ih =>
    refine List.IsPrefix.trans ?_ (ih (s.publish p))
    obtain hsame | ⟨scope, ⟨-, heq⟩ | ⟨-, heq⟩⟩ := s.publish_cases p
    · rw [hsame]
    · rw [heq]
      exact List.prefix_append _ _
    · rw [heq]

theorem applied_sendPending (schemaVersion : String) (send : Json → Except Error Unit)
    (s : RealtimeSession) (pending : List (String × NormalizedTopic))
    (meanwhile : List (List Publication)) :
    s.applied <+: (s.sendPending schemaVersion send pending meanwhile).applied := by
  induction pending generalizing s meanwhile with
  | nil => exact List.prefix_refl _
  | cons e pending ih =>
    obtain ⟨id, topic⟩ := e
    have hpublished := s.applied_publishAll (meanwhile.headD [])
    rw [RealtimeSession.sendPending]
    split
    · next connection hok =>
      exact hpublished.trans
        (ih { (meanwhile.headD []).foldl RealtimeSession.publish s with connection } meanwhile.tail)
    · exact hpublished

theorem applied_step (token : Nat → String) (schemaVersion : String) (s : RealtimeSession)
    (action : Action) : s.applied <+: (s.step token schemaVersion action).applied := by
  cases action with
  | publish publication => exact s.applied_publishAll [publication]
  | subscribe topicsValue =>
    rw [RealtimeSession.step]
    split <;> exact List.prefix_refl _
  | unsubscribe raw =>
    rw [RealtimeSession.step]
    split <;> exact List.prefix_refl _
  | sendPending only meanwhile send => exact s.applied_sendPending schemaVersion send _ meanwhile

theorem applied_run (token : Nat → String) (schemaVersion : String) (earlier later : List Action) :
    (run token schemaVersion earlier).applied <+:
      (run token schemaVersion (earlier ++ later)).applied := by
  rw [run, run, List.foldl_append]
  generalize List.foldl (RealtimeSession.step token schemaVersion) start earlier = s
  induction later generalizing s with
  | nil => exact List.prefix_refl _
  | cons action later ih => exact (s.applied_step token schemaVersion action).trans (ih _)

/-- In every run of publications, subscriptions and sends, where no subscription id is drawn twice:
the latest snapshot of a scope is the last one of a list that only grows, in which the sequences of
a stream increase and a stream that was replaced never comes again; and the versions sent for a
subscription and a topic follow these snapshots in their order and never repeat. -/
theorem run_ordered (token : Nat → String) (htoken : Function.Injective token)
    (schemaVersion : String) (actions : List Action) (id : String) (topic : NormalizedTopic) :
    let s := run token schemaVersion actions
    let applied := s.appliedTo topic.scopeKey
    s.hub.latest topic = applied.getLast? ∧
      (∀ earlier later, actions = earlier ++ later →
        (run token schemaVersion earlier).appliedTo topic.scopeKey <+: applied) ∧
      applied.Pairwise Forward ∧ NoReturn applied ∧
      (s.sentTo (id, topic.scopeKey)).Sublist (applied.map HubSnapshot.version) ∧
      (s.sentTo (id, topic.scopeKey)).Nodup := by
  intro s applied
  have hordered : Ordered token s := ordered_run htoken schemaVersion actions
  have htracks := hordered.tracks topic.scopeKey
  have hfollows := hordered.follows (id, topic.scopeKey)
  refine ⟨htracks.latest, ?_, htracks.forward, htracks.noReturn, hfollows,
    hfollows.nodup (nodup_versions htracks.forward)⟩
  rintro earlier later rfl
  exact ((applied_run token schemaVersion earlier later).filter _).map _

omit [Sha256] [UnicodeTable] in
/-- Numbered subscriptions, one board that is published, subscribed to and sent. -/
theorem run_ordered_numbered :
    letI : Sha256 := .ofTable []
    letI : UnicodeTable := .ascii
    let board : HubSnapshot :=
      { snapshotId := "snap_1", streamId := "stream-1", topic := "theme_rank_snapshot"
        paramsKey := "params_\x7b\"limit\":50\x7d", sequence := 1, schemaVersion := "2026-08-14.1"
        contentHash := "hash-1", toWsMessage := fun id => .ok (.obj [("subscriptionId", .str id)]) }
    let topic : NormalizedTopic :=
      ⟨.themeRank, .obj [("limit", .int 50)], "\x7b\"limit\":50\x7d"⟩
    let s := run (fun n => String.ofList (natText n)) "2026-08-14.1"
      [.subscribe (.arr [.obj [("name", .str "theme_rank_snapshot"),
          ("params", .obj [("limit", .int 50)])]]),
        .publish (board, [("limit", .int 50)]), .sendPending none [] fun _ => .ok ()]
    s.sentTo ("sub_0", topic.scopeKey) = [board.version] ∧
      (s.sentTo ("sub_0", topic.scopeKey)).Sublist
        ((s.appliedTo topic.scopeKey).map HubSnapshot.version) := by
  have htoken : Function.Injective fun n => String.ofList (natText n) :=
    fun m n h => natText_injective (String.ofList_injective h)
  refine ⟨by decide +kernel, ?_⟩
  exact (@run_ordered (.ofTable []) .ascii _ htoken _ _ "sub_0" _).2.2.2.2.1

end RealtimeSession

end Dayjaview.Api
