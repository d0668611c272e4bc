import Dayjaview.Events.Fingerprint
import Dayjaview.Kiwoom.Gateway

/-!
# Runs of the gateway

Between its operations the gateway should have no connection or a connected one.
Restoring a session is what can leave it in between: the connection is taken over
before the port is asked for the rest.
-/

namespace Dayjaview.Kiwoom

namespace SubscriptionManager

/-- The subscriptions are stocks, each once and not too many. -/
structure Lawful (m : SubscriptionManager) : Prop where
  nodup : m.current.Nodup
  bounded : m.current.length ≤ m.hardLimit
  ids : ∀ stockId ∈ m.current, isStockId stockId = true

theorem isStockId_of_mem_keys {demands : List SubscriptionDemand} {stockId : String}
    (h : stockId ∈ (aggregateDemands demands).keys) : isStockId stockId = true := by
  obtain ⟨d, -, rfl⟩ := ((aggregateDemands_spec demands).2 stockId).mp h
  exact (SubscriptionDemand.postInit_eq_ok.mp d.valid).1

theorem Lawful.reconcile {m : SubscriptionManager} (h : m.Lawful)
    (demands : List SubscriptionDemand) (now : Datetime) (force : Bool) :
    (m.reconcile demands now force).2.Lawful ∧
      ∃ plan, (m.reconcile demands now force).1 = .ok plan ∧
        plan.subscriptions = (m.reconcile demands now force).2.current ∧
        ∀ stockId ∈ plan.snapshotSupplement, isStockId stockId = true := by
  unfold SubscriptionManager.reconcile
  dsimp only
  split
  · obtain ⟨plan, hplan, -⟩ := coalescedPlan_ok (m := { m with
      pendingDemands := aggregateDemands demands }) h.nodup h.bounded (aggregateDemands demands) now
    refine ⟨⟨h.nodup, h.bounded, h.ids⟩, plan, hplan, ?_⟩
    obtain ⟨_, rfl⟩ := checked_eq_ok.mp hplan
    refine ⟨rfl, fun stockId hmem => ?_⟩
    have hkey := (List.mem_filter.mp hmem).1
    rw [rankedDemands, mem_ranked] at hkey
    exact isStockId_of_mem_keys hkey
  · obtain ⟨plan, hplan, -, hdecides⟩ := apply_admits (m := { m with
      pendingDemands := aggregateDemands demands }) h.nodup (aggregateDemands demands) now
    have hids : ∀ stockId ∈ plan.subscriptions, isStockId stockId = true := by
      intro stockId hmem
      rw [hdecides.subscriptions] at hmem
      rcases mem_nextSubscriptions.mp hmem with hdesired | hcooling
      · exact isStockId_of_mem_keys (((mem_desired_iff _ demands stockId).mp hdesired).1.elim
          fun d hd => hd.2 ▸ ((aggregateDemands_spec demands).2 _).mpr ⟨d, hd.1, rfl⟩)
      · exact h.ids stockId (mem_cooling_current hcooling).1
    refine ⟨⟨?_, ?_, ?_⟩, plan, hplan, hdecides.current.symm, fun stockId hmem => ?_⟩
    · rw [hdecides.current, hdecides.subscriptions]
      exact nodup_nextSubscriptions (m := { m with
        pendingDemands := aggregateDemands demands }) h.nodup _ _
    · rw [hdecides.current, hdecides.subscriptions, hdecides.settings]
      exact length_nextSubscriptions_le (m := { m with
        pendingDemands := aggregateDemands demands }) h.nodup _ _
    · rw [hdecides.current]
      exact hids
    · exact isStockId_of_mem_keys ((hdecides.supplement stockId).mp hmem).1

end SubscriptionManager

namespace MarketGateway

/-- The connection and what belongs to it stay. -/
structure SameSession (g g' : MarketGateway) : Prop where
  connection : g'.connection = g.connection
  phase : g'.phase = g.phase
  subscriptions : g'.subscriptions = g.subscriptions
  reconnect : g'.reconnect = g.reconnect

theorem SameSession.refl (g : MarketGateway) : SameSession g g := ⟨rfl, rfl, rfl, rfl⟩

variable {g : MarketGateway}

theorem SameSession.trans {g' g'' : MarketGateway} (h : SameSession g g')
    (h' : SameSession g' g'') : SameSession g g'' where
  connection := h'.connection.trans h.connection
  phase := h'.phase.trans h.phase
  subscriptions := h'.subscriptions.trans h.subscriptions
  reconnect := h'.reconnect.trans h.reconnect

variable [JsonValue.Printer] [UnicodeTable] [Sha256]

omit [JsonValue.Printer] [UnicodeTable] [Sha256] in
/-- The gateway has no connection, or a connected one. -/
def Settled (g : MarketGateway) : Prop := g.connection = none ∨ g.phase = .connected

instance (g : MarketGateway) : Decidable g.Settled := inferInstanceAs (Decidable (_ ∨ _))

section

omit [JsonValue.Printer] [UnicodeTable] [Sha256]

theorem SameSession.settled {g' : MarketGateway} (h : SameSession g g') (hsettled : g.Settled) :
    g'.Settled := by
  rw [Settled, h.connection, h.phase]
  exact hsettled

end

/-- The port and the call let a session be restored: the port takes the planned subscriptions,
stocks are asked for, the port answers with snapshots, and all of them can be normalized. -/
structure Restores (g : MarketGateway) (port : ReadOnlyKiwoomPort)
    (demands : List SubscriptionDemand)
    (supplementStockIds : List String) (now : Datetime) (connection : KiwoomConnection) : Prop where
  subscribes : port.replaceTradeSubscriptions connection.sessionId
    (g.subscriptions.reconcile demands now true).2.current = .ok ()
  ids : ∀ stockId ∈ supplementStockIds, isStockId stockId = true
  answers : ∃ responses, port.fetchWatchlistSnapshots connection.sessionId
      (sortedTuple ((g.subscriptions.reconcile demands now true).2.current ++ supplementStockIds))
        now = .ok responses ∧
    ∀ response ∈ responses, ∃ events, normalize response = .ok events

omit [JsonValue.Printer] [UnicodeTable] [Sha256] in
/-- A call of the gateway, with what the port answers during it. -/
inductive Call where
  | connect (port : ReadOnlyKiwoomPort) (now : Datetime)
  | pollOnce (port : ReadOnlyKiwoomPort) (now : Datetime)
  | reconcileSubscriptions (port : ReadOnlyKiwoomPort) (demands : List SubscriptionDemand)
    (now : Datetime) (force : Bool)
  | recover (port : ReadOnlyKiwoomPort) (demands : List SubscriptionDemand)
    (supplementStockIds : List String) (now : Datetime)
  | supplement (port : ReadOnlyKiwoomPort) (stockIds : List String) (reason : SupplementReason)
    (now : Datetime)
  | markDisconnected (port : ReadOnlyKiwoomPort) (now : Datetime) (reason : String)

/-- The gateway after a call, which returned or raised. -/
def call (g : MarketGateway) : Call → MarketGateway
  | .connect port now => (g.connect port now).2
  | .pollOnce port now => (g.pollOnce port now).2
  | .reconcileSubscriptions port demands now force =>
    (g.reconcileSubscriptions port demands now force).2
  | .recover port demands supplementStockIds now =>
    (g.recover port demands supplementStockIds now).2
  | .supplement port stockIds reason now => (g.supplement port stockIds reason now).2
  | .markDisconnected port now reason => (g.markDisconnected port now reason).2

/-- The gateway after some calls. -/
def run (g : MarketGateway) (calls : List Call) : MarketGateway := calls.foldl call g

/-- An attempt to connect again that is due and reaches the port can restore the session. -/
def Undisturbed (g : MarketGateway) : Call → Prop
  | .recover port demands supplementStockIds now =>
    g.reconnect.isDue now = true → ∀ connection, port.connect now = .ok connection →
      Restores g port demands supplementStockIds now connection
  | _ => True

section

omit [JsonValue.Printer] [UnicodeTable] [Sha256]

/-- Nine o'clock on a trading day. -/
def nineOClock : Datetime := { Events.fivePastNine with minute := 0, valid := by decide }

end

end MarketGateway

end Dayjaview.Kiwoom
