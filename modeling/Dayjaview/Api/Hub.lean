import Dayjaview.Realtime.Snapshots

/-!
# Topic requests

A client names a topic and its parameters. Requests that mean the same are
normalised to one form, whose text is the scope under which snapshots are kept.
-/

namespace Dayjaview.Api

open Dayjaview.Realtime

/-- Reject a subscription. -/
def invalidSubscription {α : Type} (message : String) : Except Error α :=
  .error ⟨.invalidSubscription, message⟩

/-- The topic with a written form. -/
def topicOf (name : String) : Option SnapshotTopic :=
  [SnapshotTopic.themeRank, .themeTreemap, .eventStateChanged].find? fun topic => topic.value = name

/-- An opaque id is short, trimmed and free of control characters. -/
def validOpaqueId (value : String) : Bool :=
  1 ≤ value.length && value.length ≤ 128 && value == strip value &&
    !value.toList.any fun character => character.toNat < 0x20 || character.toNat == 0x7F

/-- The object has exactly the given keys. -/
def hasKeys (fields : List (String × Json)) (keys : List String) : Bool :=
  fields.all (fun e => keys.contains e.1) && keys.all fun key => fields.any fun e => e.1 == key

/-- A topic with its parameters in normal form. -/
structure NormalizedTopic where
  topic : SnapshotTopic
  params : Json
  canonicalParams : String
  deriving DecidableEq

/-- Where the snapshots of a topic are kept. -/
abbrev ScopeKey := SnapshotTopic × String

/-- The scope of a topic. -/
def NormalizedTopic.scopeKey (t : NormalizedTopic) : ScopeKey := (t.topic, t.canonicalParams)

def normalizeLimit (params : List (String × Json)) (maximum : Int) : Except Error Json :=
  if hasKeys params ["limit"] = false then invalidSubscription "topic parameter를 확인해 주세요."
  else
    match Json.field? params "limit" with
    | some (.int limit) =>
      if 1 ≤ limit ∧ limit ≤ maximum then .ok (.obj [("limit", .int limit)])
      else invalidSubscription "topic limit 범위를 확인해 주세요."
    | _ => invalidSubscription "topic limit 범위를 확인해 주세요."

/-- Read the ids of some events. -/
def readEventIds : List Json → Except Error (List String)
  | [] => .ok []
  | .str eventId :: rest =>
    if validOpaqueId eventId then do
      let eventIds ← readEventIds rest
      return eventId :: eventIds
    else invalidSubscription "eventId 형식을 확인해 주세요."
  | _ :: _ => invalidSubscription "eventId 형식을 확인해 주세요."

/-- Normalise the ids of some events. -/
def normalizeEventIds (params : List (String × Json)) : Except Error Json :=
  if hasKeys params ["eventIds"] = false then invalidSubscription "topic parameter를 확인해 주세요."
  else
    match Json.field? params "eventIds" with
    | some (.arr rawIds) =>
      if 1 ≤ rawIds.length ∧ rawIds.length ≤ 50 then do
        let eventIds ← readEventIds rawIds
        if eventIds.Nodup then
          return .obj [("eventIds", .arr ((eventIds.insertionSort (· ≤ ·)).map .str))]
        else invalidSubscription "eventIds에는 중복 값을 사용할 수 없습니다."
      else invalidSubscription "eventIds 범위를 확인해 주세요."
    | _ => invalidSubscription "eventIds 범위를 확인해 주세요."

/-- Normalise the parameters of a topic. -/
def normalizeParams (topic : SnapshotTopic) (params : List (String × Json)) : Except Error Json :=
  match topic with
  | .themeRank => normalizeLimit params 50
  | .themeTreemap => normalizeLimit params 12
  | .eventStateChanged => normalizeEventIds params

/-- Normalise a topic request. -/
def normalizeTopicRequest : Json → Except Error NormalizedTopic
  | .obj fields =>
    if hasKeys fields ["name", "params"] = false then
      invalidSubscription "topic 형식을 확인해 주세요."
    else
      match Json.field? fields "name", Json.field? fields "params" with
      | some (.str name), some (.obj params) =>
        match topicOf name with
        | some topic => do
          let normalized ← normalizeParams topic params
          return ⟨topic, normalized, normalized.canonical⟩
        | none => invalidSubscription "지원하지 않는 topic입니다."
      | _, _ => invalidSubscription "topic 형식을 확인해 주세요."
  | _ => invalidSubscription "topic 형식을 확인해 주세요."

/-- Names of fields that never leave the service. -/
def privateProductFields : List String :=
  ["assignee", "cookie", "credential", "diagnosticContext", "internalContext", "internalNote",
    "internalReason", "operatorReason", "reviewStatus", "secret", "token"]

/-- A field that must not be shown. -/
def isPrivateField [UnicodeTable] (name : String) : Bool :=
  let normalized := (casefoldText name).toList.filter UnicodeTable.isalnum
  privateProductFields.contains name || "token".toList.isSuffixOf normalized ||
    "internal".toList.isPrefixOf normalized || "operator".toList.isPrefixOf normalized ||
    ["cookie", "credential", "password", "secret"].any (fun marker =>
      normalized.tails.any marker.toList.isPrefixOf) ||
    normalized == "reviewstatus".toList

mutual

/-- Raise when a private field stands anywhere in a value. -/
def ensurePublicProjection [UnicodeTable] : Json → Except Error Unit
  | .arr items => ensurePublicItems items
  | .obj fields => do
    let forbidden := (fields.map Prod.fst).filter isPrivateField
    let names := ", ".intercalate (forbidden.dedup.insertionSort (· ≤ ·))
    ensure (forbidden = []) s!"private product fields are not allowed: {names}"
    ensurePublicFields fields
  | _ => .ok ()

/-- Raise when a private field stands in one of the elements. -/
def ensurePublicItems [UnicodeTable] : List Json → Except Error Unit
  | [] => .ok ()
  | item :: items => do
    ensurePublicProjection item
    ensurePublicItems items

/-- Raise when a private field stands in the value of a field. -/
def ensurePublicFields [UnicodeTable] : List (String × Json) → Except Error Unit
  | [] => .ok ()
  | (_, value) :: fields => do
    ensurePublicProjection value
    ensurePublicFields fields

end

/-- What the hub sees of a snapshot. -/
structure HubSnapshot where
  snapshotId : String
  streamId : String
  topic : String
  paramsKey : String
  sequence : Int
  schemaVersion : String
  contentHash : String
  toWsMessage : String → Except Error Json

/-- What identifies a version of a snapshot for a client. -/
def HubSnapshot.version (s : HubSnapshot) : String × Int × String :=
  (s.streamId, s.sequence, s.snapshotId)

/-- What became of a snapshot. -/
inductive SnapshotIngressDisposition where
  | applied
  | duplicate
  | outOfOrder
  | retiredStream
  deriving DecidableEq

/-- The latest snapshots and the streams that were replaced. -/
structure RealtimeSnapshotHub where
  latestByScope : Dict ScopeKey HubSnapshot
  retiredStreams : Dict ScopeKey (List String)

namespace RealtimeSnapshotHub

/-- Nothing was published. -/
def empty : RealtimeSnapshotHub := ⟨.empty, .empty⟩

/-- The latest snapshot of a topic. -/
def latest (h : RealtimeSnapshotHub) (topic : NormalizedTopic) : Option HubSnapshot :=
  h.latestByScope.get? topic.scopeKey

/-- The streams of a scope that were replaced. -/
def retired (h : RealtimeSnapshotHub) (scope : ScopeKey) : List String :=
  (h.retiredStreams.get? scope).getD []

/-- The scope of a snapshot whose identity is well formed. -/
def scopeOf [Sha256] (snapshot : HubSnapshot) (params : List (String × Json)) :
    Except Error ScopeKey := do
  ensure (validOpaqueId snapshot.snapshotId = true ∧ validOpaqueId snapshot.streamId = true ∧
    1 ≤ snapshot.sequence ∧ snapshot.contentHash ≠ "") "snapshot ordering identity is invalid"
  match topicOf snapshot.topic with
  | none => .error ⟨.valueError, "snapshot topic is unsupported"⟩
  | some topic => do
    let normalized ← normalizeTopicRequest
        (.obj [("name", .str topic.value), ("params", .obj params)])
    ensure (snapshot.paramsKey = opaqueId "params" normalized.params.canonical)
      "snapshot params_key does not match normalized params"
    return normalized.scopeKey

/-- Take a snapshot of a scope. -/
def apply (h : RealtimeSnapshotHub) (scope : ScopeKey) (snapshot : HubSnapshot) :
    SnapshotIngressDisposition × RealtimeSnapshotHub :=
  let replace (h : RealtimeSnapshotHub) : SnapshotIngressDisposition × RealtimeSnapshotHub :=
    (.applied, { h with latestByScope := h.latestByScope.set scope snapshot })
  match h.latestByScope.get? scope with
  | none => replace h
  | some current =>
    if snapshot.streamId = current.streamId then
      if snapshot.sequence < current.sequence then (.outOfOrder, h)
      else if snapshot.sequence = current.sequence then
        if snapshot.snapshotId = current.snapshotId ∧ snapshot.contentHash =
            current.contentHash then
          (.duplicate, h)
        else (.outOfOrder, h)
      else replace h
    else
      let retired := h.retired scope
      if snapshot.streamId ∈ retired then
        (.retiredStream, { h with retiredStreams := h.retiredStreams.set scope retired })
      else
        replace { h with
          retiredStreams := h.retiredStreams.set scope (current.streamId :: retired) }

def publish [Sha256] (h : RealtimeSnapshotHub) (snapshot : HubSnapshot)
    (params : List (String × Json)) :
    Except Error (SnapshotIngressDisposition × RealtimeSnapshotHub) := do
  let scope ← scopeOf snapshot params
  return h.apply scope snapshot

end RealtimeSnapshotHub

/-- What a connection remembers a version under. -/
abbrev SentKey := String × ScopeKey

/-- A connection of a client. -/
structure Connection where
  subscriptions : Dict String (List NormalizedTopic)
  lastSent : Dict SentKey (String × Int × String)
  sent : List (SentKey × String × Int × String)

namespace Connection

/-- Nothing was subscribed. -/
def empty : Connection := ⟨.empty, .empty, []⟩

/-- The error message to a client. -/
def errorMessage (requestId : Option String) (code message : String) : Json :=
  .obj [("type", .str "error"),
    ("requestId", match requestId with
      | none => .null
      | some requestId => .str requestId),
    ("code", .str code), ("message", .str message), ("retryable", .bool false)]

/-- Send a message; infinite numbers cannot be written. -/
def sendJson (send : Json → Except Error Unit) (payload : Json) : Except Error Unit := do
  ensure (payload.isFinite = true) "Out of range float values are not JSON compliant"
  send payload

/-- Send the latest snapshot of a topic, unless it was sent last. -/
def sendTopic [UnicodeTable] (schemaVersion : String) (send : Json → Except Error Unit)
    (h : RealtimeSnapshotHub) (subscriptionId : String) (topic : NormalizedTopic) (c : Connection) :
    Except Error Connection :=
  match h.latest topic with
  | none => .ok c
  | some snapshot =>
    let key := (subscriptionId, topic.scopeKey)
    if c.lastSent.get? key = some snapshot.version then .ok c
    else if snapshot.schemaVersion ≠ schemaVersion then do
      sendJson send (errorMessage none "SCHEMA_VERSION_UNSUPPORTED"
        "지원하지 않는 실시간 schema version입니다.")
      return c
    else do
      let message ← snapshot.toWsMessage subscriptionId
      ensurePublicProjection message
      sendJson send message
      return { c with
        lastSent := c.lastSent.set key snapshot.version
        sent := c.sent ++ [(key, snapshot.version)] }

/-- The topics to look at, with their subscriptions. -/
def pending (c : Connection) (onlySubscription : Option String) : List (String × NormalizedTopic) :=
  (c.subscriptions.entries.filter fun e => onlySubscription.all (· = e.1)).flatMap fun e =>
    e.2.map fun topic => (e.1, topic)

/-- Read the topics of a subscription. -/
def readTopics : List Json → Except Error (List NormalizedTopic)
  | [] => .ok []
  | item :: items => do
    let topic ← normalizeTopicRequest item
    let topics ← readTopics items
    return topic :: topics

/-- Subscribe to up to three different topics. -/
def subscribe (subscriptionId : String) (topicsValue : Json) (c : Connection) :
    Except Error Connection :=
  match topicsValue with
  | .arr items =>
    if 1 ≤ items.length ∧ items.length ≤ 3 then do
      let topics ← readTopics items
      if (topics.map NormalizedTopic.scopeKey).Nodup then
        return { c with subscriptions := c.subscriptions.set subscriptionId topics }
      else invalidSubscription "같은 topic을 중복 구독할 수 없습니다."
    else invalidSubscription "구독 topic 수를 확인해 주세요."
  | _ => invalidSubscription "구독 topic 수를 확인해 주세요."

/-- Forget what was sent for a subscription. -/
def forget (subscriptionId : String) (lastSent : Dict SentKey (String × Int × String)) :
    Dict SentKey (String × Int × String) :=
  lastSent.keys.foldl (fun d key => if key.1 = subscriptionId then d.erase key else d) lastSent

/-- Cancel a subscription. -/
def unsubscribe (rawSubscriptionId : Json) (c : Connection) : Except Error Connection :=
  match rawSubscriptionId with
  | .str subscriptionId =>
    if validOpaqueId subscriptionId = false then
      invalidSubscription "subscriptionId를 확인해 주세요."
    else if c.subscriptions.get? subscriptionId = none then
      invalidSubscription "구독을 찾을 수 없습니다."
    else .ok { c with
      subscriptions := c.subscriptions.erase subscriptionId
      lastSent := forget subscriptionId c.lastSent }
  | _ => invalidSubscription "subscriptionId를 확인해 주세요."

end Connection

/-- A snapshot with the parameters it is published under. -/
abbrev Publication := HubSnapshot × List (String × Json)

/-- The hub, a connection, and what the hub applied so far. -/
structure RealtimeSession where
  hub : RealtimeSnapshotHub
  connection : Connection
  drawn : Nat
  applied : List (ScopeKey × HubSnapshot)

namespace RealtimeSession

/-- A new hub with a new connection. -/
def start : RealtimeSession := ⟨.empty, .empty, 0, []⟩

/-- A publisher hands a snapshot to the hub; one that raises is dropped. -/
def publish [Sha256] (s : RealtimeSession) (p : Publication) : RealtimeSession :=
  match s.hub.publish p.1 p.2, RealtimeSnapshotHub.scopeOf p.1 p.2 with
  | .ok (.applied, hub), .ok scope => { s with hub, applied := s.applied ++ [(scope, p.1)] }
  | .ok (_, hub), _ => { s with hub }
  | .error _, _ => s

variable [Sha256] [UnicodeTable]

/-- Send what is pending; before each topic is looked at, publishers may have handed in more. What
was sent before something raises stays sent. -/
def sendPending (schemaVersion : String) (send : Json → Except Error Unit) (s : RealtimeSession) :
    List (String × NormalizedTopic) → List (List Publication) → RealtimeSession
  | [], _ => s
  | (subscriptionId, topic) :: pending, meanwhile =>
    let s := (meanwhile.headD []).foldl publish s
    match s.connection.sendTopic schemaVersion send s.hub subscriptionId topic with
    | .ok connection => sendPending schemaVersion send { s with connection } pending meanwhile.tail
    | .error _ => s

/-- What happens to a hub and a connection. -/
inductive Action where
  | publish (publication : Publication)
  | subscribe (topicsValue : Json)
  /-- The client cancels a subscription. -/
  | unsubscribe (rawSubscriptionId : Json)
  /-- The server sends what is pending. -/
  | sendPending (onlySubscription : Option String) (meanwhile : List (List Publication))
    (send : Json → Except Error Unit)

/-- The session after an action, with the subscription ids in the order they are drawn. -/
def step (token : Nat → String) (schemaVersion : String) (s : RealtimeSession) :
    Action → RealtimeSession
  | .publish publication => s.publish publication
  | .subscribe topicsValue =>
    match s.connection.subscribe s!"sub_{token s.drawn}" topicsValue with
    | .ok connection => { s with connection, drawn := s.drawn + 1 }
    | .error _ => s
  | .unsubscribe rawSubscriptionId =>
    match s.connection.unsubscribe rawSubscriptionId with
    | .ok connection => { s with connection }
    | .error _ => s
  | .sendPending onlySubscription meanwhile send =>
    s.sendPending schemaVersion send (s.connection.pending onlySubscription) meanwhile

/-- The session after some actions. -/
def run (token : Nat → String) (schemaVersion : String) (actions : List Action) : RealtimeSession :=
  actions.foldl (step token schemaVersion) start

end RealtimeSession

end Dayjaview.Api
