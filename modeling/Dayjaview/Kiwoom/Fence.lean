import Dayjaview.Kiwoom.MarketState

/-!
# The ordering fence

The fence accepts an event of the current session that it has not seen, that
moves the cursor of its lane forward and, for an observation, that is not older
than the latest one of the stock. What it accepts it remembers.
-/

namespace Dayjaview.Kiwoom

inductive IngestDisposition where
  | accepted
  | duplicate
  | conflict
  | outOfOrder
  | oldSession
  | oldObservation
  deriving DecidableEq

structure IngestResult where
  event : CanonicalMarketEvent
  disposition : IngestDisposition
  detail : String

/-- The last accepted place of a lane. -/
structure OrderingCursor where
  sourceSequence : Int
  sourceItemIndex : Nat
  sourceTimestamp : Datetime
  receivedAt : Datetime

/-- A lane: the session, the channel, the stock, and observations or a condition. -/
abbrev OrderingKey := String × SourceChannel × String × List CodePoint

namespace CanonicalMarketEvent

/-- What is ordered together with an event. -/
def orderingLane (e : CanonicalMarketEvent) : List CodePoint :=
  match e.data with
  | .candidate data => codePoints "candidate:" ++ data.conditionId
  | .observation _ => "market-observation"

def orderingKey (e : CanonicalMarketEvent) : OrderingKey :=
  (e.lineage.sessionId, e.lineage.sourceChannel, e.stockId, e.orderingLane)

/-- The place of an event in its lane. -/
def cursor (e : CanonicalMarketEvent) : OrderingCursor :=
  ⟨e.sourceSequence, e.lineage.sourceItemIndex, e.sourceTimestamp, e.receivedAt⟩

/-- An event does not move a cursor forward. -/
def Lags (e : CanonicalMarketEvent) (c : OrderingCursor) : Prop :=
  (e.sourceSequence < c.sourceSequence ∨
    (e.sourceSequence = c.sourceSequence ∧ e.lineage.sourceItemIndex ≤ c.sourceItemIndex)) ∨
    e.receivedAt < c.receivedAt

instance (e : CanonicalMarketEvent) (c : OrderingCursor) : Decidable (e.Lags c) :=
  inferInstanceAs (Decidable ((_ ∨ _) ∨ _))

/-- An observation is older than the latest one of its stock. At one time of the source, the
realtime price counts as the later one. -/
def isOldObservation (incoming latest : CanonicalMarketEvent) : Bool :=
  if incoming.sourceTimestamp < latest.sourceTimestamp then true
  else if latest.sourceTimestamp < incoming.sourceTimestamp then false
  else
    match incoming.observation?, latest.observation? with
    | some observed, some before =>
      match observed.observationSource, before.observationSource with
      | .restKa10095, .realtime0B => true
      | .realtime0B, .restKa10095 => false
      | _, _ => decide (incoming.receivedAt < latest.receivedAt)
    | _, _ => false

end CanonicalMarketEvent

structure EventOrderFence where
  currentSessionId : Option String
  seenHashes : Dict String String
  ordering : Dict OrderingKey OrderingCursor
  latestObservation : Dict String CanonicalMarketEvent

namespace EventOrderFence

/-- A fence that has seen nothing. -/
def empty : EventOrderFence := ⟨none, .empty, .empty, .empty⟩

def beginSession (fence : EventOrderFence) (sessionId : String) :
    Except Error Unit × EventOrderFence :=
  if sessionId = "" then (.error ⟨.valueError, "session_id는 비어 있을 수 없습니다"⟩, fence)
  else (.ok (), { fence with currentSessionId := some sessionId })

/-- Remember an accepted event. -/
def accept (fence : EventOrderFence) (event : CanonicalMarketEvent) : EventOrderFence :=
  { fence with
    seenHashes := fence.seenHashes.set event.idempotencyKey event.lineage.rawPayloadSha256
    ordering := fence.ordering.set event.orderingKey event.cursor
    latestObservation :=
      if event.isObservation then fence.latestObservation.set event.stockId event
      else fence.latestObservation }

def evaluate (fence : EventOrderFence) (event : CanonicalMarketEvent) :
    IngestResult × EventOrderFence :=
  if some event.lineage.sessionId ≠ fence.currentSessionId then
    (⟨event, .oldSession, "현재 session 이전 입력입니다"⟩, fence)
  else
    match fence.seenHashes.get? event.idempotencyKey with
    | some seenHash =>
      if seenHash = event.lineage.rawPayloadSha256 then
        (⟨event, .duplicate, "동일 idempotency 입력입니다"⟩, fence)
      else
        (⟨event, .conflict, "동일 idempotency key의 source payload hash가 다릅니다"⟩, fence)
    | none =>
      if ∃ c ∈ fence.ordering.get? event.orderingKey, event.Lags c then
        (⟨event, .outOfOrder, "source sequence/item index 또는 receivedAt이 역행했습니다"⟩, fence)
      else if event.isObservation = true ∧
          ∃ latest ∈ fence.latestObservation.get? event.stockId,
            event.isOldObservation latest = true then
        (⟨event, .oldObservation, "더 최신인 종목 관측값을 덮을 수 없습니다"⟩, fence)
      else (⟨event, .accepted, "canonical event 수용"⟩, fence.accept event)

/-- An event passes all four checks. -/
structure Passes (fence : EventOrderFence) (event : CanonicalMarketEvent) : Prop where
  session : some event.lineage.sessionId = fence.currentSessionId
  unseen : fence.seenHashes.get? event.idempotencyKey = none
  forward : ∀ c, fence.ordering.get? event.orderingKey = some c → ¬ event.Lags c
  current : event.isObservation = true → ∀ latest,
    fence.latestObservation.get? event.stockId = some latest → event.isOldObservation latest = false

theorem evaluate_cases (fence : EventOrderFence) (event : CanonicalMarketEvent) :
    (fence.evaluate event).1.event = event ∧
      ((fence.evaluate event).1.disposition ≠ .accepted ∧ (fence.evaluate event).2 = fence ∨
        (fence.evaluate event).1.disposition = .accepted ∧
          (fence.evaluate event).2 = fence.accept event ∧ fence.Passes event) := by
  have hkept : ∀ disposition detail, disposition ≠ IngestDisposition.accepted →
      IngestResult.event ⟨event, disposition, detail⟩ = event ∧
        (disposition ≠ .accepted ∧ fence = fence ∨ disposition = .accepted ∧
          fence = fence.accept event ∧ fence.Passes event) :=
    fun _ _ hother => ⟨rfl, .inl ⟨hother, rfl⟩⟩
  unfold evaluate
  split
  · exact hkept _ _ (by decide)
  · next hsession =>
    split
    · split
      · exact hkept _ _ (by decide)
      · exact hkept _ _ (by decide)
    · next hunseen =>
      split
      · exact hkept _ _ (by decide)
      · next hforward =>
        split
        · exact hkept _ _ (by decide)
        · next hcurrent =>
          refine ⟨rfl, .inr ⟨rfl, rfl, not_not.mp hsession, hunseen, ?_, ?_⟩⟩
          · exact fun c hc hlags => hforward ⟨c, hc, hlags⟩
          · intro hobservation latest hlatest
            by_contra hold
            exact hcurrent ⟨hobservation, latest, hlatest, by simpa using hold⟩

end EventOrderFence

/-- The last element of a list with a property. -/
def lastWith {α : Type} (p : α → Bool) (as : List α) : Option α := (as.filter p).getLast?

theorem lastWith_snoc {α : Type} (p : α → Bool) (as : List α) (a : α) :
    lastWith p (as ++ [a]) = if p a then some a else lastWith p as := by
  unfold lastWith
  rw [List.filter_append]
  cases h : p a with
  | true => simp [h]
  | false => simp [h]

/-- An order that holds along a list and up to a new element from the last one of its kind holds up
to the new element. -/
theorem pairwise_snoc_of_lastWith {α : Type} {r : α → α → Prop} {p : α → Bool} {as : List α} {a : α}
    (hpairwise : as.Pairwise fun x y => p x = true → p y = true → r x y)
    (hlast : ∀ x, lastWith p as = some x → r x a) (htrans : ∀ x y, r x y → r y a → r x a) :
    ∀ x ∈ as, p x = true → r x a := by
  induction as using List.reverseRecOn with
  | nil => exact fun x hx => (by cases hx)
  | append_singleton as b ih =>
    obtain ⟨hinit, -, hb⟩ := List.pairwise_append.mp hpairwise
    have hb : ∀ x ∈ as, p x = true → p b = true → r x b :=
      fun x hx => hb x hx b (List.mem_singleton.mpr rfl)
    rw [lastWith_snoc] at hlast
    intro x hx hpx
    cases hpb : p b with
    | true =>
      have hnew := hlast b (by rw [hpb]; rfl)
      rcases List.mem_append.mp hx with hx | hx
      · exact htrans x b (hb x hx hpx hpb) hnew
      · rwa [List.mem_singleton.mp hx]
    | false =>
      rcases List.mem_append.mp hx with hx | hx
      · refine ih hinit (fun y hy => hlast y ?_) x hx hpx
        rw [hpb]
        exact hy
      · rw [List.mem_singleton.mp hx, hpb] at hpx
        cases hpx

inductive FenceCall where
  | beginSession (sessionId : String)
  | evaluate (event : CanonicalMarketEvent)

/-- The fence and the state with everything that was accepted. -/
structure FenceRun where
  fence : EventOrderFence
  state : MarketState
  accepted : List CanonicalMarketEvent

namespace FenceRun

def start : FenceRun := ⟨.empty, {}, []⟩

/-- Make a call; the state applies what is accepted. -/
def call (r : FenceRun) : FenceCall → FenceRun
  | .beginSession sessionId => { r with fence := (r.fence.beginSession sessionId).2 }
  | .evaluate event =>
    let (result, fence) := r.fence.evaluate event
    if result.disposition = .accepted then ⟨fence, r.state.apply event, r.accepted ++ [event]⟩
    else { r with fence }

def run (calls : List FenceCall) : FenceRun := calls.foldl call start

theorem run_snoc (calls : List FenceCall) (c : FenceCall) :
    run (calls ++ [c]) = (run calls).call c := by
  simp only [run, List.foldl_append, List.foldl_cons, List.foldl_nil]

/-- An event is an observation of a stock. -/
def observes (stockId : String) (e : CanonicalMarketEvent) : Bool :=
  e.isObservation && e.stockId == stockId

def inLane (key : OrderingKey) (e : CanonicalMarketEvent) : Bool := e.orderingKey == key

/-- The later event of a lane has a later place and was not received before. -/
def Follows (a b : CanonicalMarketEvent) : Prop :=
  (a.sourceSequence < b.sourceSequence ∨
    (a.sourceSequence = b.sourceSequence ∧ a.lineage.sourceItemIndex < b.lineage.sourceItemIndex)) ∧
    a.receivedAt ≤ b.receivedAt

theorem Follows.trans {a b c : CanonicalMarketEvent} (h : Follows a b) (h' : Follows b c) :
    Follows a c := by
  refine ⟨?_, le_trans h.2 h'.2⟩
  have hplace := h.1
  have hplace' := h'.1
  omega

theorem follows_of_not_lags {a b : CanonicalMarketEvent} (h : ¬ b.Lags a.cursor) : Follows a b := by
  unfold CanonicalMarketEvent.Lags at h
  push Not at h
  obtain ⟨⟨hsequence, hindex⟩, hreceived⟩ := h
  refine ⟨?_, Int.not_lt.mp hreceived⟩
  rcases lt_or_eq_of_le hsequence with hlt | heq
  · exact .inl hlt
  · exact .inr ⟨heq, hindex heq.symm⟩

/-- What holds of the fence, the state and what was accepted. -/
structure Ordered (r : FenceRun) : Prop where
  seen : ∀ key, (r.fence.seenHashes.get? key).isSome = true ↔
    ∃ e ∈ r.accepted, e.idempotencyKey = key
  cursors : ∀ key, r.fence.ordering.get? key =
    (lastWith (inLane key) r.accepted).map CanonicalMarketEvent.cursor
  latest : ∀ stockId, r.fence.latestObservation.get? stockId =
    lastWith (observes stockId) r.accepted
  observations : ∀ stockId, r.state.eventFor stockId = lastWith (observes stockId) r.accepted
  lanes : r.accepted.Pairwise fun a b => a.orderingKey = b.orderingKey → Follows a b
  keys : (r.accepted.map fun e => e.idempotencyKey).Nodup
  times : r.accepted.Pairwise fun a b => a.isObservation = true → b.isObservation = true →
    a.stockId = b.stockId → a.sourceTimestamp ≤ b.sourceTimestamp

theorem ordered_start : start.Ordered where
  seen key := by simp [start, EventOrderFence.empty]
  cursors key := by simp [start, EventOrderFence.empty, lastWith]
  latest stockId := by simp [start, EventOrderFence.empty, lastWith]
  observations stockId := by simp [start, MarketState.eventFor, lastWith]
  lanes := List.Pairwise.nil
  keys := List.nodup_nil
  times := List.Pairwise.nil

theorem le_of_not_isOldObservation {incoming latest : CanonicalMarketEvent}
    (h : incoming.isOldObservation latest = false) :
    latest.sourceTimestamp ≤ incoming.sourceTimestamp := by
  unfold CanonicalMarketEvent.isOldObservation at h
  split at h
  · cases h
  · next hlt => exact Int.not_lt.mp hlt

theorem Ordered.accept {r : FenceRun} (h : r.Ordered) {event : CanonicalMarketEvent}
    (hpasses : r.fence.Passes event) :
    Ordered ⟨r.fence.accept event, r.state.apply event, r.accepted ++ [event]⟩ where
  seen key := by
    simp only [EventOrderFence.accept, Dict.get?_set, List.mem_append, List.mem_singleton]
    by_cases hkey : key = event.idempotencyKey
    · rw [if_pos hkey]
      exact ⟨fun _ => ⟨event, .inr rfl, hkey.symm⟩, fun _ => rfl⟩
    · rw [if_neg hkey, h.seen key]
      constructor
      · rintro ⟨e, he, hsame⟩
        exact ⟨e, .inl he, hsame⟩
      · rintro ⟨e, he | rfl, hsame⟩
        · exact ⟨e, he, hsame⟩
        · exact absurd hsame.symm hkey
  cursors key := by
    simp only [EventOrderFence.accept, Dict.get?_set, lastWith_snoc, inLane, beq_iff_eq]
    by_cases hkey : key = event.orderingKey
    · rw [if_pos hkey, if_pos hkey.symm]
      rfl
    · rw [if_neg hkey, if_neg fun hsame => hkey hsame.symm]
      exact h.cursors key
  latest stockId := by
    simp only [EventOrderFence.accept, lastWith_snoc, observes, Bool.and_eq_true, beq_iff_eq]
    cases hobservation : event.isObservation with
    | false =>
      simp only [Bool.false_eq_true, if_false, false_and]
      exact h.latest stockId
    | true =>
      simp only [if_true, true_and, Dict.get?_set, eq_comm (a := stockId)]
      split
      · rfl
      · exact h.latest stockId
  observations stockId := by
    simp only [MarketState.eventFor, MarketState.apply, lastWith_snoc, observes, Bool.and_eq_true,
      beq_iff_eq]
    cases hobservation : event.isObservation with
    | false =>
      simp only [Bool.false_eq_true, if_false, false_and]
      exact h.observations stockId
    | true =>
      simp only [if_true, true_and, Dict.get?_set, eq_comm (a := stockId)]
      split
      · rfl
      · exact h.observations stockId
  lanes := by
    refine List.pairwise_append.mpr ⟨h.lanes, List.pairwise_singleton _ _, fun a ha b hb hkey => ?_⟩
    rw [List.mem_singleton.mp hb] at hkey ⊢
    refine pairwise_snoc_of_lastWith (p := inLane event.orderingKey) (h.lanes.imp ?_) ?_ ?_ a ha ?_
    · intro x y hfollows hx hy
      rw [inLane, beq_iff_eq] at hx hy
      exact hfollows (hx.trans hy.symm)
    · intro x hx
      have hcursor := h.cursors event.orderingKey
      rw [hx] at hcursor
      exact follows_of_not_lags (hpasses.forward _ hcursor)
    · exact fun x y hxy hy => hxy.trans hy
    · rw [inLane, beq_iff_eq]
      exact hkey
  keys := by
    rw [List.map_append, List.map_singleton]
    refine List.nodup_append.mpr ⟨h.keys, List.nodup_singleton _, ?_⟩
    rintro key hmem _ hsingle rfl
    obtain ⟨e, he, hkey⟩ := List.mem_map.mp hmem
    have hseen :=
      (h.seen event.idempotencyKey).mpr ⟨e, he, hkey.trans (List.mem_singleton.mp hsingle)⟩
    rw [hpasses.unseen] at hseen
    cases hseen
  times := by
    refine List.pairwise_append.mpr
      ⟨h.times, List.pairwise_singleton _ _, fun a ha b hb hobserved hobservation hstock => ?_⟩
    rw [List.mem_singleton.mp hb] at hobservation hstock ⊢
    refine pairwise_snoc_of_lastWith (p := observes event.stockId)
      (r := fun x y => x.sourceTimestamp ≤ y.sourceTimestamp) (h.times.imp ?_) ?_ ?_ a ha ?_
    · intro x y hle hx hy
      simp only [observes, Bool.and_eq_true, beq_iff_eq] at hx hy
      exact hle hx.1 hy.1 (hx.2.trans hy.2.symm)
    · intro x hx
      exact le_of_not_isOldObservation
        (hpasses.current hobservation x ((h.latest event.stockId).trans hx))
    · exact fun x y hxy hy => le_trans hxy hy
    · simp only [observes, Bool.and_eq_true, beq_iff_eq]
      exact ⟨hobserved, hstock⟩

theorem Ordered.call {r : FenceRun} (h : r.Ordered) (c : FenceCall) : (r.call c).Ordered := by
  cases c with
  | beginSession sessionId =>
    unfold FenceRun.call EventOrderFence.beginSession
    dsimp only
    split
    · exact h
    · exact ⟨h.seen, h.cursors, h.latest, h.observations, h.lanes, h.keys, h.times⟩
  | evaluate event =>
    unfold FenceRun.call
    dsimp only
    obtain ⟨-, ⟨hother, hkept⟩ | ⟨haccepted, hfence, hpasses⟩⟩ := r.fence.evaluate_cases event
    · rw [if_neg hother, hkept]
      exact h
    · rw [if_pos haccepted, hfence]
      exact h.accept hpasses

theorem ordered_run (calls : List FenceCall) : (run calls).Ordered := by
  induction calls using List.reverseRecOn with
  | nil => exact ordered_start
  | append_singleton calls c ih =>
    rw [run_snoc]
    exact ih.call c

/-- After every run of calls: in each lane the accepted places strictly increase and the times of
receipt do not go back; no key was accepted twice; the accepted observations of a stock do not go
back in the time of the source; the state holds exactly the last of them. The next event is accepted
only if it is of the current session, and otherwise the fence stays as it is. -/
theorem run_keeps_order (calls : List FenceCall) :
    let r := run calls
    (r.accepted.Pairwise fun a b => a.orderingKey = b.orderingKey → Follows a b) ∧
      (r.accepted.map fun e => e.idempotencyKey).Nodup ∧
      (r.accepted.Pairwise fun a b => a.isObservation = true → b.isObservation = true →
        a.stockId = b.stockId → a.sourceTimestamp ≤ b.sourceTimestamp) ∧
      (∀ stockId, r.state.eventFor stockId =
        (r.accepted.filter fun e => e.isObservation && e.stockId == stockId).getLast?) ∧
      ∀ event, ((r.fence.evaluate event).1.disposition = .accepted →
          some event.lineage.sessionId = r.fence.currentSessionId) ∧
        ((r.fence.evaluate event).1.disposition ≠ .accepted → (r.fence.evaluate event).2 =
          r.fence) := by
  intro r
  have h := ordered_run calls
  refine ⟨h.lanes, h.keys, h.times, h.observations, fun event => ?_⟩
  obtain ⟨-, ⟨hother, hkept⟩ | ⟨haccepted, -, hpasses⟩⟩ := r.fence.evaluate_cases event
  · exact ⟨fun haccepted => absurd haccepted hother, fun _ => hkept⟩
  · exact ⟨fun _ => hpasses.session, fun hother => absurd haccepted hother⟩

end FenceRun

end Dayjaview.Kiwoom
