import Dayjaview.Api.Delivery
import Dayjaview.Realtime.SnapshotRuns

/-!
# The hub shows what is stored

The repository stores snapshots and the hub is handed what was stored, late, again
and in any order. Once it was handed the latest stored snapshot of a topic, it
shows that one.
-/

namespace Dayjaview

namespace Realtime.ReadSnapshot

/-- The payload of a message. A board names its snapshot there. -/
def wirePayload (s : ReadSnapshot) : Except Error Json :=
  match s.topic, s.payload with
  | .eventStateChanged, payload => copyJsonObject payload
  | _, .obj fields => do
    ensure ((Json.field? fields "snapshotId").isNone = true) "payload에 snapshotId를 직접 넣을 수 없습니다"
    match ← copyJsonObject (.obj fields) with
    | .obj copied => return .obj (("snapshotId", .str s.snapshotId) :: copied)
    | copied => return copied
  | _, payload => copyJsonObject payload

/-- The message to a client. -/
def toWsMessage (s : ReadSnapshot) (subscriptionId : String) : Except Error Json := do
  requireText subscriptionId "subscription_id"
  let payload ← s.wirePayload
  let generatedAt ← s.generatedAt.utcIso
  let asOf ← s.asOf.utcIso
  return .obj [("type", .str s.topic.value), ("schemaVersion", .str s.versions.schemaVersion),
    ("subscriptionId", .str subscriptionId), ("streamId", .str s.streamId),
    ("topic", .str s.topic.value), ("sequence", .int s.sequence), ("generatedAt", .str generatedAt),
    ("asOf", .str asOf), ("marketDate", .str s.marketDate.isoformat),
    ("dataStatus", .str s.dataStatus.value), ("qualityFlags", .arr (s.qualityFlags.map .str)),
    ("payload", payload)]

end Realtime.ReadSnapshot

namespace Realtime.SnapshotRepository

variable [Sha256]

variable {r : SnapshotRepository} {s : ReadSnapshot}

/-- No snapshot of a scope has the number of the last one or a later number. -/
theorem Consistent.eq_last {published : List SnapshotPublication} (h : Consistent published r)
    {scope : SnapshotScope} {last : ReadSnapshot} (hlast : (r.history scope).getLast? = some last)
    (hs : s ∈ r.history scope) (hle : last.sequence ≤ s.sequence) : s = last := by
  obtain ⟨earlier, hhistory⟩ := List.getLast?_eq_some_iff.mp hlast
  have hnumbered := h.numbered scope
  rw [hhistory, List.length_append, List.length_singleton, List.range_succ, List.map_append,
    List.map_append] at hnumbered
  obtain ⟨hearlier, hend⟩ := List.append_inj' hnumbered rfl
  rw [hhistory] at hs
  rcases List.mem_append.mp hs with hs | hs
  · have hnumber := List.mem_map_of_mem (f := (·.sequence)) hs
    rw [hearlier] at hnumber
    obtain ⟨i, hi, hnumber⟩ := List.mem_map.mp hnumber
    have hlt := List.mem_range.mp hi
    have hlength : last.sequence = earlier.length + 1 := List.singleton_inj.mp hend
    omega
  · exact List.mem_singleton.mp hs

omit [Sha256] in
theorem of_snapshotAt {id : String} (h : r.snapshotAt id = .ok s) :
    r.snapshots.get? id = some s := by
  unfold snapshotAt at h
  split at h
  · next hget =>
    cases h
    exact hget
  · cases h

theorem of_latest {r : SnapshotRepository} {streamId : String} {topic : SnapshotTopic}
    {params : Json} {s : ReadSnapshot} (h : r.latest streamId topic params = .ok (some s)) :
    ∃ id, r.latestIds.get? (streamId, topic, opaqueId "params" params.canonical) = some id ∧
      r.snapshots.get? id = some s := by
  obtain ⟨-, h⟩ := check_bind_eq_ok.mp h
  split at h
  · cases h
  · next id hid =>
    obtain ⟨s', hs, h⟩ := bind_eq_ok.mp h
    cases h
    exact ⟨id, hid, of_snapshotAt hs⟩

/-- A publication that is stored is the latest of its scope. -/
theorem latest_publish {p : SnapshotPublication} (hnew : r.receipts.get? p.publicationId = none)
    (hfinite : p.params.isFinite = true) (h : (r.publish p).1 = .ok s) :
    (r.publish p).2.latest p.streamId p.topic p.params = .ok (some s) := by
  obtain ⟨r', hstore, heq⟩ := publish_of_new hnew h
  obtain ⟨_, -, rfl⟩ := store_eq_ok hstore
  rw [heq]
  refine check_bind_eq_ok.mpr ⟨ensure_eq_ok.mpr hfinite, ?_⟩
  have hid : (r.latestIds.set p.scope s.snapshotId).get? (p.streamId, p.topic,
      opaqueId "params" p.params.canonical) = some s.snapshotId := Dict.get?_set_self ..
  rw [hid]
  refine bind_eq_ok.mpr ⟨s, ?_, rfl⟩
  rw [snapshotAt, Dict.get?_set_self]

end Realtime.SnapshotRepository

namespace Api

open Realtime
open RealtimeSnapshotHub (scopeOf handIn accepted)

/-- A stored snapshot as the hub sees it. -/
def hubSnapshot (s : ReadSnapshot) : HubSnapshot where
  snapshotId := s.snapshotId
  streamId := s.streamId
  topic := s.topic.value
  paramsKey := s.paramsKey
  sequence := s.sequence
  schemaVersion := s.versions.schemaVersion
  contentHash := s.contentHash
  toWsMessage := s.toWsMessage

/-- A stored snapshot whose message can be sent under one id can be sent under every id of a
subscription. -/
theorem deliverable_hubSnapshot [UnicodeTable] {s : ReadSnapshot} {id : String} {message : Json}
    (hmessage : s.toWsMessage id = .ok message) (hpublic : ensurePublicProjection message = .ok ())
    (hfinite : message.isFinite = true) :
    RealtimeSession.Deliverable s.versions.schemaVersion (hubSnapshot s) := by
  refine ⟨rfl, fun other hother => ?_⟩
  obtain ⟨-, hrest⟩ := check_bind_eq_ok.mp hmessage
  obtain ⟨payload, hpayload, hrest⟩ := bind_eq_ok.mp hrest
  obtain ⟨generatedAt, hgenerated, hrest⟩ := bind_eq_ok.mp hrest
  obtain ⟨asOf, hasOf, hrest⟩ := bind_eq_ok.mp hrest
  cases hrest
  refine ⟨_, check_bind_eq_ok.mpr ⟨ensure_eq_ok.mpr hother, bind_eq_ok.mpr ⟨payload, hpayload,
    bind_eq_ok.mpr ⟨generatedAt, hgenerated, bind_eq_ok.mpr ⟨asOf, hasOf, rfl⟩⟩⟩⟩, ?_, ?_⟩
  -- the id stands in the message as a text
  · exact hpublic
  · exact hfinite

theorem topicOf_value (topic : SnapshotTopic) : topicOf topic.value = some topic := by
  cases topic <;> rfl

theorem normalizeTopicRequest_topic {topic : SnapshotTopic} {params : List (String × Json)}
    {t : NormalizedTopic}
    (h : normalizeTopicRequest (.obj [("name", .str topic.value), ("params", .obj params)]) =
      .ok t) :
    t.topic = topic ∧ t.canonicalParams = t.params.canonical := by
  unfold normalizeTopicRequest at h
  dsimp only at h
  split at h
  · cases h
  split at h
  · next name params' hname hparams =>
    cases hname
    split at h
    · next topic' htopic =>
      obtain rfl := Option.some.inj ((topicOf_value topic).symm.trans htopic)
      obtain ⟨normalized, -, h⟩ := bind_eq_ok.mp h
      cases h
      exact ⟨rfl, rfl⟩
    · cases h
  · cases h

variable [Sha256]

/-- The scope under which a stored snapshot is shown tells its topic and its parameters. -/
theorem of_scopeOf_hubSnapshot {s : ReadSnapshot} {params : List (String × Json)} {scope : ScopeKey}
    (h : scopeOf (hubSnapshot s) params = .ok scope) :
    s.topic = scope.1 ∧ s.paramsKey = opaqueId "params" scope.2 := by
  obtain ⟨-, h⟩ := check_bind_eq_ok.mp h
  split at h
  · cases h
  · next topic htopic =>
    obtain rfl := Option.some.inj ((topicOf_value s.topic).symm.trans htopic)
    obtain ⟨t, ht, h⟩ := bind_eq_ok.mp h
    obtain ⟨hparams, h⟩ := check_bind_eq_ok.mp h
    cases h
    obtain ⟨hname, hcanonical⟩ := normalizeTopicRequest_topic ht
    refine ⟨hname.symm, (ensure_eq_ok.mp hparams).trans ?_⟩
    rw [NormalizedTopic.scopeKey, hcanonical]

namespace RealtimeSnapshotHub

open SnapshotRepository (Call SeparateIds publications consistent_run of_latest latest_publish
  publish_of_new store_eq_ok emptyBoardFields)

theorem of_accepted {p : Publication} {scope : ScopeKey} {x : HubSnapshot}
    (h : accepted p = some (scope, x)) : scopeOf p.1 p.2 = .ok scope ∧ p.1 = x := by
  unfold accepted at h
  split at h
  · next hscope =>
    cases h
    exact ⟨hscope, rfl⟩
  · cases h

/-- After any calls of the repository, provided that the ids of its snapshots separate the
publications, and whatever stored snapshots of one stream the hub was handed, late or again, of any
topics and in any order: once it was handed the latest stored snapshot of a topic, it shows that
one. -/
theorem latest_stored (calls : List Call) (hids : SeparateIds (publications calls))
    (streamId : String) (topic : SnapshotTopic) (params : Json) (last : ReadSnapshot)
    (hlast : (SnapshotRepository.run calls).latest streamId topic params = .ok (some last))
    (ps : List Publication)
    (hstored : ∀ p ∈ ps, ∃ id s, (SnapshotRepository.run calls).snapshots.get? id = some s ∧
      s.streamId = streamId ∧ p.1 = hubSnapshot s)
    (p : Publication) (hp : p ∈ ps) (hshown : p.1 = hubSnapshot last) (t : NormalizedTopic)
    (hscope : scopeOf p.1 p.2 = .ok t.scopeKey) :
    (ps.foldl handIn empty).latest t = some (hubSnapshot last) := by
  have hconsistent := consistent_run hids (List.Subset.refl _)
  generalize SnapshotRepository.run calls = r at *
  have hforemost := foremost_handIn ps
  generalize ps.foldl handIn empty = h at *
  -- the latest snapshot is the last one stored in its scope
  obtain ⟨id, hid, hget⟩ := of_latest hlast
  have hend : (r.history (streamId, topic, opaqueId "params" params.canonical)).getLast? =
      some last := by
    rw [hconsistent.latestIds] at hid
    obtain ⟨s, hend, rfl⟩ := Option.map_eq_some_iff.mp hid
    rw [hend, ← hget, hconsistent.get?_snapshotId (List.mem_of_getLast? hend)]
  have hmem := List.mem_of_getLast? hend
  obtain ⟨-, hplace⟩ := SnapshotRepository.mem_history.mp hmem
  rw [hshown] at hscope
  obtain ⟨htopic, hparams⟩ := of_scopeOf_hubSnapshot hscope
  -- what is shown for the topic is stored in this scope
  have hown : ∀ x ∈ h.latestByScope.get? t.scopeKey,
      ∃ s ∈ r.history (streamId, topic, opaqueId "params" params.canonical), x = hubSnapshot s := by
    intro x hx
    obtain ⟨q, hq, haccepted⟩ := List.mem_filterMap.mp (hforemost.own _ x hx)
    obtain ⟨id, s, hs, hstream, hsame⟩ := hstored q hq
    obtain ⟨hqscope, rfl⟩ := of_accepted haccepted
    rw [hsame] at hqscope
    obtain ⟨hstopic, hsparams⟩ := of_scopeOf_hubSnapshot hqscope
    refine ⟨s, SnapshotRepository.mem_history.mpr ⟨⟨id, hs⟩, ?_⟩, hsame⟩
    rw [← hplace, ReadSnapshot.scope, ReadSnapshot.scope, hstopic, hsparams, htopic, hparams,
      hstream, (Prod.mk.inj hplace).1]
  have hhanded : (t.scopeKey, hubSnapshot last) ∈ ps.filterMap accepted :=
    List.mem_filterMap.mpr ⟨p, hp, by rw [accepted, hshown, hscope]⟩
  obtain hretired | ⟨x, hx, -, hle⟩ := hforemost.covered _ hhanded
  · obtain ⟨x, hx, hne⟩ := hforemost.fresh _ _ hretired
    obtain ⟨s, hs, rfl⟩ := hown x hx
    obtain ⟨-, hsplace⟩ := SnapshotRepository.mem_history.mp hs
    exact absurd (Prod.mk.inj (hsplace.trans hplace.symm)).1 hne
  · obtain ⟨s, hs, rfl⟩ := hown x hx
    obtain rfl := hconsistent.eq_last hend hs hle
    exact hx

/-- A board whose publication has a long id. -/
def longBoard : SnapshotPublication :=
  let fields :=
    { emptyBoardFields with publicationId := "stream-1:theme_rank_snapshot:2026-08-14:1" }
  ⟨fields, fields, by decide⟩

/-- The stored board can be sent. -/
example : (@SnapshotRepository.publish (.ofTable []) .empty longBoard).1.toOption.any (fun s =>
    (s.toWsMessage "sub_0").toOption.any fun message =>
      (@ensurePublicProjection .ascii message).toOption.isSome && message.isFinite) = true := by
  decide +kernel

omit [Sha256] in
/-- A board that is stored and handed in twice. -/
theorem latest_stored_longBoard :
    letI : Sha256 := .ofTable []
    ∃ last, (SnapshotRepository.run [.publish longBoard]).latest "stream-1" .themeRank
        longBoard.params = .ok (some last) ∧
      ([(hubSnapshot last, [("limit", .int 50)]), (hubSnapshot last, [("limit", .int 50)])].foldl
        handIn empty).latest RealtimeSession.boardTopic = some (hubSnapshot last) := by
  have hscopes : (@SnapshotRepository.publish (.ofTable []) .empty longBoard).1.toOption.any
      (fun s =>
      (@scopeOf (.ofTable []) { hubSnapshot s with snapshotId := "snap_1" }
        [("limit", .int 50)]).toOption =
        some RealtimeSession.boardTopic.scopeKey) = true := by decide +kernel
  let hash : Sha256 := .ofTable []
  obtain ⟨last, hpublish, hscope⟩ := (Option.any_eq_true _ _).mp hscopes
  have hpublish := toOption_eq_some.mp hpublish
  obtain ⟨_, hstore, -⟩ := publish_of_new rfl hpublish
  obtain ⟨_, hstores, -⟩ := store_eq_ok hstore
  have hlast : (SnapshotRepository.run [.publish longBoard]).latest "stream-1" .themeRank
      longBoard.params = .ok (some last) := latest_publish rfl rfl hpublish
  -- the id of the snapshot begins like the id of the publication
  have hvalid : validOpaqueId last.snapshotId = true := by
    obtain ⟨fingerprint, -, hid⟩ := bind_eq_ok.mp hstores.snapshotId
    rw [← Except.ok.inj hid]
    change validOpaqueId ("snap_" ++ String.ofList
      ((longBoard.publicationId ++ ":" ++ fingerprint).toList.take 32)) = true
    rw [String.append_assoc, String.toList_append, List.take_append_of_le_length (by decide)]
    decide +kernel
  obtain ⟨hchecks, hrest⟩ := check_bind_eq_ok.mp (toOption_eq_some.mp (of_decide_eq_true hscope))
  have hscope : scopeOf (hubSnapshot last) [("limit", .int 50)] =
      .ok RealtimeSession.boardTopic.scopeKey :=
    check_bind_eq_ok.mpr ⟨ensure_eq_ok.mpr ⟨hvalid, (ensure_eq_ok.mp hchecks).2⟩, hrest⟩
  have hids : SeparateIds (publications [.publish longBoard]) := by
    intro p hp q hq _ _ _
    rw [List.mem_singleton.mp hp, List.mem_singleton.mp hq]
  obtain ⟨id, -, hget⟩ := of_latest hlast
  refine ⟨last, hlast, latest_stored _ hids "stream-1" .themeRank longBoard.params last hlast
    _ (fun p hp => ⟨id, last, hget, (Prod.mk.inj hstores.scope).1, ?_⟩)
    (hubSnapshot last, [("limit", .int 50)]) (List.mem_cons_self ..) rfl RealtimeSession.boardTopic
    hscope⟩
  rcases List.mem_cons.mp hp with rfl | hp
  · rfl
  · rw [List.mem_singleton.mp hp]

end RealtimeSnapshotHub

end Api

end Dayjaview
