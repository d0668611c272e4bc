import Dayjaview.Kiwoom.Fence
import Dayjaview.Kiwoom.Normalizer
import Dayjaview.Kiwoom.SubscriptionRuns

/-!
# The market gateway

The gateway opens sessions at a port, takes in the envelopes of the session and
keeps the subscriptions. Any call of the port may raise. What the port answers
during an operation is a parameter of the operation.
-/

namespace Dayjaview.Kiwoom

/-- What the port answers during an operation. -/
structure ReadOnlyKiwoomPort where
  connect : Datetime → Except Error KiwoomConnection
  read : String → Except Error (Option KiwoomSourceEnvelope)
  replaceTradeSubscriptions : String → List String → Except Error Unit
  fetchWatchlistSnapshots :
    String → List String → Datetime → Except Error (List KiwoomSourceEnvelope)
  closeSession : String → Except Error Unit

/-- The connection to the source is lost. -/
def kiwoomConnectionLost (message : String) : Error := ⟨.kiwoomConnectionLost, message⟩

/-- The error is one of the connection; a lost connection is one of them. -/
def isConnectionError (e : Error) : Bool :=
  e.kind = .kiwoomConnectionError ∨ e.kind = .kiwoomConnectionLost

/-- Why snapshots are asked for. -/
inductive SupplementReason where
  | reconnect
  | gap
  | coverage
  | unsubscribedRelated
  deriving DecidableEq

structure SupplementOutcome where
  reason : SupplementReason
  requestedStockIds : List String
  ingestResults : List IngestResult
  coverage : CoverageReport

/-- What came of an attempt to connect again. -/
structure ReconnectOutcome where
  connected : Bool
  connection : Option KiwoomConnection
  subscriptionPlan : Option SubscriptionPlan
  supplement : Option SupplementOutcome
  nextSchedule : Option ReconnectSchedule

structure MarketGateway where
  subscriptions : SubscriptionManager
  reconnect : ReconnectController
  heartbeatTimeout : Int
  orderFence : EventOrderFence
  state : MarketState
  phase : ConnectionPhase
  connection : Option KiwoomConnection
  lastHeartbeatAt : Option Datetime
  acceptedEvents : List CanonicalMarketEvent
  timeoutPos : 0 < heartbeatTimeout

namespace MarketGateway

theorem defaultTimeout_pos : (0 : Int) < 10000000 := by omega

theorem defaultFreshness_ordered : (0 : Int) ≤ 30000000 ∧ (30000000 : Int) ≤ 60000000 := by
  decide

/-- A gateway before its first connection. -/
def new (settings : SubscriptionSettings) (policy : ReconnectPolicy) : MarketGateway where
  subscriptions := .new settings
  reconnect := .new policy
  heartbeatTimeout := 10000000
  orderFence := .empty
  state := { valid := defaultFreshness_ordered }
  phase := .disconnected
  connection := none
  lastHeartbeatAt := none
  acceptedEvents := []
  timeoutPos := defaultTimeout_pos

/-- Take over an opened session and forget the failures. -/
def openSession (g : MarketGateway) (connection : KiwoomConnection) (phase : ConnectionPhase) :
    Except Error Unit × MarketGateway :=
  match g.orderFence.beginSession connection.sessionId with
  | (.error e, orderFence) => (.error e, { g with connection := some connection, orderFence })
  | (.ok (), orderFence) =>
    (.ok (), { g with
      connection := some connection, orderFence, phase
      lastHeartbeatAt := some connection.connectedAt
      reconnect := g.reconnect.markConnected })

def connect (g : MarketGateway) (port : ReadOnlyKiwoomPort) (now : Datetime) :
    Except Error KiwoomConnection × MarketGateway :=
  match port.connect now with
  | .error e => (.error e, g)
  | .ok connection =>
    match g.openSession connection .connected with
    | (.error e, g) => (.error e, g)
    | (.ok (), g) => (.ok connection, g)

def ingestEvent (g : MarketGateway) (event : CanonicalMarketEvent) : IngestResult × MarketGateway :=
  let (result, orderFence) := g.orderFence.evaluate event
  if result.disposition = .accepted then
    (result, { g with
      orderFence, acceptedEvents := g.acceptedEvents ++ [event], state := g.state.apply event })
  else (result, { g with orderFence })

def ingestEvents (g : MarketGateway) :
    List CanonicalMarketEvent → List IngestResult × MarketGateway
  | [] => ([], g)
  | event :: events =>
    let (result, g) := g.ingestEvent event
    let (results, g) := g.ingestEvents events
    (result :: results, g)

/-- Notice that the source was heard of. -/
def hear (g : MarketGateway) (at' : Datetime) : MarketGateway :=
  if ∀ last ∈ g.lastHeartbeatAt, last < at' then { g with lastHeartbeatAt := some at' } else g

variable [JsonValue.Printer] [UnicodeTable] [Sha256]

def ingest (g : MarketGateway) (envelope : KiwoomSourceEnvelope) :
    Except Error (List IngestResult) × MarketGateway :=
  match normalize envelope with
  | .error e => (.error e, g)
  | .ok events =>
    let (results, g) := g.ingestEvents events
    if some envelope.sessionId = g.orderFence.currentSessionId then
      (.ok results, g.hear envelope.receivedAt)
    else (.ok results, g)

/-- Take in some envelopes, up to the first that is refused. -/
def ingestAll (g : MarketGateway) :
    List KiwoomSourceEnvelope → Except Error (List IngestResult) × MarketGateway
  | [] => (.ok [], g)
  | response :: responses =>
    match g.ingest response with
    | (.error e, g) => (.error e, g)
    | (.ok results, g) =>
      match g.ingestAll responses with
      | (.error e, g) => (.error e, g)
      | (.ok more, g) => (.ok (results ++ more), g)

omit [JsonValue.Printer] [UnicodeTable] [Sha256] in
/-- Close the session and schedule the next attempt. -/
def markDisconnected (g : MarketGateway) (port : ReadOnlyKiwoomPort) (now : Datetime)
    (reason : String) : Except Error ReconnectSchedule × MarketGateway :=
  let sessionId := match g.connection with
    | some connection => connection.sessionId
    | none => "initial"
  let closed := match g.connection with
    | some connection => port.closeSession connection.sessionId
    | none => .ok ()
  match closed with
  | .error e => (.error e, g)
  | .ok () =>
    let (schedule, reconnect) := g.reconnect.scheduleFailure now reason sessionId
    (schedule, { g with connection := none, phase := .reconnecting, reconnect })

/-- Take in the next message; a lost connection is closed. -/
def pollOnce (g : MarketGateway) (port : ReadOnlyKiwoomPort) (now : Datetime) :
    Except Error (List IngestResult) × MarketGateway :=
  match g.connection with
  | none => (.error (kiwoomConnectionLost "현재 연결된 Kiwoom session이 없습니다"), g)
  | some connection =>
    match port.read connection.sessionId with
    | .error e =>
      if e.kind = .kiwoomConnectionLost then
        match g.markDisconnected port now e.message with
        | (.error e, g) => (.error e, g)
        | (.ok _, g) => (.ok [], g)
      else (.error e, g)
    | .ok none => (.ok [], g)
    | .ok (some envelope) => g.ingest envelope

section

omit [JsonValue.Printer] [UnicodeTable] [Sha256]

/-- Plan the subscriptions and apply the plan if it changes anything or is forced. -/
def reconcileSubscriptions (g : MarketGateway) (port : ReadOnlyKiwoomPort)
    (demands : List SubscriptionDemand) (now : Datetime) (force : Bool) :
    Except Error SubscriptionPlan × MarketGateway :=
  match g.connection with
  | none => (.error (kiwoomConnectionLost "구독을 적용할 Kiwoom session이 없습니다"), g)
  | some connection =>
    match g.subscriptions.reconcile demands now force with
    | (.error e, subscriptions) => (.error e, { g with subscriptions })
    | (.ok plan, subscriptions) =>
      let g := { g with subscriptions }
      if force = true ∨ plan.added ≠ [] ∨ plan.removed ≠ [] then
        match port.replaceTradeSubscriptions connection.sessionId plan.subscriptions with
        | .error e => (.error e, g)
        | .ok () => (.ok plan, g)
      else (.ok plan, g)

/-- The source was heard of lately. -/
def heartbeatFresh (g : MarketGateway) (now : Datetime) : Bool :=
  match g.lastHeartbeatAt with
  | none => false
  | some last =>
    let age := now.instant - last.instant
    0 ≤ age ∧ age ≤ g.heartbeatTimeout

def coverage (g : MarketGateway) (stockIds : List String) (now : Datetime) :
    Except Error CoverageReport :=
  g.state.coverage stockIds {
    now, phase := g.phase, currentSessionId := g.orderFence.currentSessionId
    heartbeatFresh := g.heartbeatFresh now, subscriptions := g.subscriptions.current }

end

/-- Ask for snapshots of some stocks and take them in. -/
def supplement (g : MarketGateway) (port : ReadOnlyKiwoomPort) (stockIds : List String)
    (reason : SupplementReason) (now : Datetime) : Except Error SupplementOutcome × MarketGateway :=
  match g.connection with
  | none => (.error (kiwoomConnectionLost "snapshot을 요청할 Kiwoom session이 없습니다"), g)
  | some connection =>
    let requested := sortedTuple stockIds
    match requested.forM requireStockId with
    | .error e => (.error e, g)
    | .ok () =>
      match port.fetchWatchlistSnapshots connection.sessionId requested now with
      | .error e => (.error e, g)
      | .ok responses =>
        match g.ingestAll responses with
        | (.error e, g) => (.error e, g)
        | (.ok results, g) =>
          match g.coverage requested now with
          | .error e => (.error e, g)
          | .ok coverage => (.ok ⟨reason, requested, results, coverage⟩, g)

/-- Restore the subscriptions of a new session and the observations missed in between. -/
def restore (g : MarketGateway) (port : ReadOnlyKiwoomPort) (demands : List SubscriptionDemand)
    (supplementStockIds : List String) (now : Datetime) :
    Except Error (SubscriptionPlan × SupplementOutcome) × MarketGateway :=
  match g.reconcileSubscriptions port demands now true with
  | (.error e, g) => (.error e, g)
  | (.ok plan, g) =>
    match g.supplement port (plan.subscriptions ++ supplementStockIds) .reconnect now with
    | (.error e, g) => (.error e, g)
    | (.ok supplement, g) => (.ok (plan, supplement), { g with phase := .connected })

/-- Connect again when it is due, and restore the session. -/
def recover (g : MarketGateway) (port : ReadOnlyKiwoomPort) (demands : List SubscriptionDemand)
    (supplementStockIds : List String) (now : Datetime) :
    Except Error ReconnectOutcome × MarketGateway :=
  if g.reconnect.isDue now = false then
    (.error ⟨.reconnectNotDue, "아직 reconnect backoff 시간이 지나지 않았습니다"⟩, g)
  else
    match port.connect now with
    | .error e =>
      if isConnectionError e then
        let (scheduled, reconnect) := g.reconnect.scheduleFailure now e.message "kiwoom-reconnect"
        (scheduled.map fun schedule => ⟨false, none, none, none, some schedule⟩,
          { g with reconnect })
      else (.error e, g)
    | .ok connection =>
      match g.openSession connection .recovering with
      | (.error e, g) => (.error e, g)
      | (.ok (), g) =>
        match g.restore port demands supplementStockIds now with
        | (.error e, g) => (.error e, g)
        | (.ok (plan, supplement), g) =>
          (.ok ⟨true, some connection, some plan, some supplement, none⟩, g)

end MarketGateway

end Dayjaview.Kiwoom
