import Dayjaview.Events.Fingerprint
import Dayjaview.Events.Writer
import Dayjaview.Realtime.Aggregation
import Dayjaview.Realtime.Hysteresis

/-!
# The market data pipeline

One trading day: updates go to the hot states and mark themes, a publication
recomputes the marked themes and evaluates the lifecycle of every theme, and the
close of the market ends what is left. The reducer state of a theme is stored
before its event is written. What the pipeline only reads from here on, the
rankings, snapshots and histories, enters as the outcome they have.
-/

namespace Dayjaview.Pipeline

open Dayjaview.Domain Dayjaview.Events Dayjaview.Calculations Dayjaview.Realtime

/-- The ranking model written into events. -/
def RANKING_MODEL_VERSION : String := "theme-rank-2026.08.1"

/-- What moves a theme during the day. -/
def INTRADAY_CATALYST_KEY : String := "INTRADAY_STRENGTH"

/-- What stays the same over a trading day. -/
structure PipelineSettings where
  marketDate : Date
  streamId : String
  themeNames : Dict String String
  hysteresisPolicy : HysteresisPolicy
  valid : isBlank streamId = false

/-- The settings of a trading day. -/
def tradingDay : PipelineSettings where
  marketDate := Events.fivePastNine.date
  streamId := "stream-1"
  themeNames := .empty
  hysteresisPolicy := HYSTERESIS_POLICY_V1
  valid := by decide

/-- The pipeline of a trading day. -/
structure MarketDataPipeline extends PipelineSettings where
  hot : HotStateStore
  references : List StockReference
  basePriceFilled : List String
  aggregator : DirtyThemeAggregator
  eventStore : InMemoryEventStore
  hysteresis : Dict String HysteresisState
  eventIds : Dict String String
  themeByEvent : Dict String String
  activatedAt : Dict String Datetime
  latestMetrics : Dict String ThemeMetricUpdate
  inputSequence : Nat
  commandSequence : Nat
  lastAsOf : Option Datetime
  marketClosed : Bool

/-- What the surroundings of a call decide: which writes fail at commit, and how the part of the
call ends that only reads the state of the pipeline. -/
structure Surroundings where
  creationFails : String → Bool
  transitionFails : String → Bool
  rest : Except Error Unit

def Surroundings.calm : Surroundings := ⟨fun _ => false, fun _ => false, .ok ()⟩

namespace MarketDataPipeline

/-- The pipeline at the start of a trading day, on a fresh event store. -/
def start (settings : PipelineSettings) (catalog : VersionedThemeCatalog)
    (references : List StockReference) : MarketDataPipeline where
  toPipelineSettings := settings
  hot := .empty
  references
  basePriceFilled := []
  aggregator := { catalog, references }
  eventStore := .empty
  hysteresis := .empty
  eventIds := .empty
  themeByEvent := .empty
  activatedAt := .empty
  latestMetrics := .empty
  inputSequence := 0
  commandSequence := 0
  lastAsOf := none
  marketClosed := false

/-- The reference of a stock for the trading day, the first one. -/
def currentReference (s : MarketDataPipeline) (stockId : String) : Option StockReference :=
  s.references.find? fun r => r.stockId = stockId ∧ r.effectiveFor = s.marketDate

/-- The reference that a base price supplements. -/
def supplementedReference (s : MarketDataPipeline) (update : StockRealtimeUpdate)
    (basePrice : Decimal) : StockReference.Fields :=
  let current := s.currentReference update.stockId
  let version := (current.map fun r => r.version).getD "reference"
  { stockId := update.stockId
    effectiveFor := s.marketDate
    knownAt := update.receivedAt
    previousAdjustedClose := some basePrice
    listedShares := current.bind fun r => r.listedShares
    freeFloatRatio := current.bind fun r => r.freeFloatRatio
    freeFloatValidated := (current.map fun r => r.freeFloatValidated).getD false
    version := s!"{version}+base-price" }

/-- Supplement the references of a stock by the base price of an update, once and only where no
close of the day before is known. -/
def supplementBasePrice (s : MarketDataPipeline) (update : StockRealtimeUpdate) :
    Except Error Unit × MarketDataPipeline :=
  match update.basePrice with
  | none => (.ok (), s)
  | some basePrice =>
    if update.stockId ∈ s.basePriceFilled then (.ok (), s)
    else if s.references.any fun r =>
        r.stockId = update.stockId ∧ r.effectiveFor = s.marketDate ∧
          r.previousAdjustedClose.isSome then
      (.ok (), { s with basePriceFilled := update.stockId :: s.basePriceFilled })
    else
      match StockReference.make (s.supplementedReference update basePrice) with
      | .error e => (.error e, s)
      | .ok supplemented =>
        (.ok (), { s with
          references := s.references ++ [supplemented]
          aggregator := s.aggregator.addReference supplemented
          basePriceFilled := update.stockId :: s.basePriceFilled })

/-- Mark the themes of an applied update. -/
def markUpdate (s : MarketDataPipeline) (update : StockRealtimeUpdate) (result : HotApplyResult) :
    Except Error HotApplyResult × MarketDataPipeline :=
  let (marked, aggregator) :=
    s.aggregator.markStock update.stockId update.marketDate update.receivedAt
  (marked.map fun _ => result, { s with aggregator })

/-- An update was accepted from another day. -/
def otherMarketDate : Error :=
  ⟨.valueError, "pipeline의 market_date와 다른 관측은 적용할 수 없습니다"⟩

variable [Sha256]

def applyUpdate (s : MarketDataPipeline) (update : StockRealtimeUpdate) :
    Except Error HotApplyResult × MarketDataPipeline :=
  if update.marketDate ≠ s.marketDate then (.error otherMarketDate, s)
  else
    match s.supplementBasePrice update with
    | (.error e, s) => (.error e, s)
    | (.ok (), s) =>
      let (result, hot) := s.hot.apply update
      let s := { s with hot }
      match result with
      | .error e => (.error e, s)
      | .ok result =>
        if result.disposition = .applied then s.markUpdate update result else (.ok result, s)

/-- The message id of the command with a number. -/
def commandId (streamId : String) (number : Nat) : String := s!"{streamId}:cmd:{number}"

omit [Sha256] in
/-- The metadata of the next command. -/
def commandMetadata (s : MarketDataPipeline) (update : ThemeMetricUpdate) (now : Datetime) :
    Except Error EventInputMetadata × MarketDataPipeline :=
  let s := { s with commandSequence := s.commandSequence + 1 }
  (EventInputMetadata.make {
      messageId := commandId s.streamId s.commandSequence
      source := s.streamId
      sourceSequence := s.commandSequence
      occurredAt := Datetime.earliest update.asOf now
      receivedAt := now
      correlationId := s.streamId }, s)

/-- Write a command in a transaction whose commit may fail. -/
def write (s : MarketDataPipeline) (command : EventCommand) (commitFails : Bool) :
    Except Error EventWriteResult × MarketDataPipeline :=
  let (result, eventStore) :=
    EventWriter.write { s.eventStore with failsNextCommit := commitFails } command
  (result, { s with eventStore })

/-- Create the event of a theme. -/
def createEvent (s : MarketDataPipeline) (around : Surroundings) (update : ThemeMetricUpdate)
    (now : Datetime) : Except Error String × MarketDataPipeline :=
  match CanonicalEventIdentity.make s.marketDate update.themeId INTRADAY_CATALYST_KEY with
  | .error e => (.error e, s)
  | .ok identity =>
    let (metadata, s) := s.commandMetadata update now
    let command := do
      let metadata ← metadata
      let versions ← EventVersions.make update.metrics.calculationVersion RANKING_MODEL_VERSION
        update.membershipVersion none
      CreateEventCommand.make metadata identity
        ((s.themeNames.get? update.themeId).getD update.themeId) versions
    match command with
    | .error e => (.error e, s)
    | .ok command =>
      let (result, s) := s.write (.create command) (around.creationFails update.themeId)
      (result.map fun r => r.event.eventId, s)

/-- Write a transition of the event of a theme. What becomes of the command is not looked at. -/
def transitionEvent (s : MarketDataPipeline) (around : Surroundings) (eventId : String)
    (transition : HysteresisTransition) (update : ThemeMetricUpdate) (now : Datetime) :
    Except Error Unit × MarketDataPipeline :=
  match s.eventStore.getEvent eventId with
  | none => (.error ⟨.runtimeError, s!"등록된 Event를 찾을 수 없습니다: {eventId}"⟩, s)
  | some event =>
    let (metadata, s) := s.commandMetadata update now
    let command := do
      let metadata ← metadata
      TransitionLifecycleCommand.make {
        metadata
        eventId
        target := transition.toStatus
        expectedStateVersion := event.stateVersion
        reason := transition.reason
        policyVersion := s.hysteresisPolicy.version }
    match command with
    | .error e => (.error e, s)
    | .ok command =>
      let (result, s) := s.write (.transition command) (around.transitionFails update.themeId)
      (result.map fun _ => (), s)

section

omit [Sha256]

/-- The id of the input of a theme with a number. -/
def inputId (streamId themeId : String) (number : Nat) : String := s!"{streamId}:{themeId}:{number}"

/-- The next input of a theme while the market is open: a positive return qualifies. -/
def openInput (s : MarketDataPipeline) (update : ThemeMetricUpdate) (now : Datetime) :
    ActivationEvaluation.Fields where
  inputId := inputId s.streamId update.themeId (s.inputSequence + 1)
  sequence := (s.inputSequence + 1 : Nat)
  evaluatedAt := now
  policyVersion := s.hysteresisPolicy.version
  coverageStatus := update.metrics.coverage.status
  qualifies := update.metrics.weightedReturn.map fun r => decide (Decimal.zero < r)

/-- The next input of a theme at the close of the market. -/
def closingInput (s : MarketDataPipeline) (update : ThemeMetricUpdate) (now : Datetime) :
    ActivationEvaluation.Fields where
  inputId := inputId s.streamId update.themeId (s.inputSequence + 1)
  sequence := (s.inputSequence + 1 : Nat)
  evaluatedAt := now
  policyVersion := s.hysteresisPolicy.version
  coverageStatus := update.metrics.coverage.status
  qualifies := none
  marketClosed := true

end

/-- Reduce the next input of a theme and keep the state it leaves. -/
def reduce (s : MarketDataPipeline) (themeId : String) (state : HysteresisState)
    (input : ActivationEvaluation.Fields) :
    Except Error (Option HysteresisTransition) × MarketDataPipeline :=
  let s := { s with inputSequence := s.inputSequence + 1 }
  match ActivationEvaluation.make input with
  | .error e => (.error e, s)
  | .ok evaluation =>
    match evaluateHysteresis state evaluation s.hysteresisPolicy with
    | .error e => (.error e, s)
    | .ok decision =>
      (.ok decision.transition, { s with hysteresis := s.hysteresis.set themeId decision.state })

omit [Sha256] in
/-- Remember the latest time of an evaluated calculation. -/
def noteAsOf (s : MarketDataPipeline) (asOf : Datetime) : MarketDataPipeline :=
  if ∀ last ∈ s.lastAsOf, last < asOf then { s with lastAsOf := some asOf } else s

/-- The event of a theme, created if there is none yet. -/
def ensureEvent (s : MarketDataPipeline) (around : Surroundings) (update : ThemeMetricUpdate)
    (now : Datetime) : Except Error String × MarketDataPipeline :=
  match s.eventIds.get? update.themeId with
  | some eventId => (.ok eventId, s)
  | none =>
    match s.createEvent around update now with
    | (.error e, s) => (.error e, s)
    | (.ok eventId, s) =>
      (.ok eventId, { s with
        eventIds := s.eventIds.set update.themeId eventId
        themeByEvent := s.themeByEvent.set eventId update.themeId })

omit [Sha256] in
/-- Remember when a theme was first activated. -/
def noteActivation (s : MarketDataPipeline) (themeId : String) (transition : HysteresisTransition)
    (now : Datetime) : MarketDataPipeline :=
  if transition.toStatus = .active ∧ s.activatedAt.get? themeId = none then
    { s with activatedAt := s.activatedAt.set themeId now }
  else s

/-- The state of a theme, that of a new candidate if there is none yet. -/
def stateOf (s : MarketDataPipeline) (themeId : String) : Except Error HysteresisState :=
  match s.hysteresis.get? themeId with
  | some state => .ok state
  | none => HysteresisState.candidate themeId s.hysteresisPolicy

/-- Evaluate the lifecycle of a theme while the market is open. -/
def evaluateTheme (s : MarketDataPipeline) (around : Surroundings) (update : ThemeMetricUpdate)
    (now : Datetime) : Except Error Unit × MarketDataPipeline :=
  match (s.noteAsOf update.asOf).ensureEvent around update now with
  | (.error e, s) => (.error e, s)
  | (.ok eventId, s) =>
    match s.stateOf update.themeId with
    | .error e => (.error e, s)
    | .ok state =>
      match s.reduce update.themeId state (s.openInput update now) with
      | (.error e, s) => (.error e, s)
      | (.ok none, s) => (.ok (), s)
      | (.ok (some transition), s) =>
        (s.noteActivation update.themeId transition now).transitionEvent around eventId transition
          update now

/-- Close a theme at the close of the market, unless it ended before. -/
def closeTheme (s : MarketDataPipeline) (around : Surroundings) (update : ThemeMetricUpdate)
    (now : Datetime) : Except Error Unit × MarketDataPipeline :=
  match s.hysteresis.get? update.themeId with
  | none => (.ok (), s)
  | some state =>
    if state.lifecycleStatus = .closed ∨ state.lifecycleStatus = .discarded then (.ok (), s)
    else
      match s.reduce update.themeId state (s.closingInput update now) with
      | (.error e, s) => (.error e, s)
      | (.ok none, s) => (.ok (), s)
      | (.ok (some transition), s) =>
        match s.eventIds.get? update.themeId with
        | none => (.ok (), s)
        | some eventId => s.transitionEvent around eventId transition update now

/-- Treat calculations one by one; the first failure ends the loop where it is. -/
def forUpdates (treat : MarketDataPipeline → ThemeMetricUpdate → Except Error Unit ×
      MarketDataPipeline) :
    List ThemeMetricUpdate → MarketDataPipeline → Except Error Unit × MarketDataPipeline
  | [], s => (.ok (), s)
  | update :: updates, s =>
    match treat s update with
    | (.error e, s) => (.error e, s)
    | (.ok (), s) => forUpdates treat updates s

omit [Sha256] in
/-- The latest calculations in the order of their themes. -/
def orderedMetrics (s : MarketDataPipeline) : List ThemeMetricUpdate :=
  s.latestMetrics.sortedEntries.map Prod.snd

omit [Sha256] in
/-- Drain the marked themes into the latest calculations. -/
def recalculate (s : MarketDataPipeline) : Except Error Unit × MarketDataPipeline :=
  let (updates, aggregator) := s.aggregator.drain s.hot
  match updates with
  | .error e => (.error e, { s with aggregator })
  | .ok updates =>
    (.ok (), { s with
      aggregator
      latestMetrics := updates.foldl (fun d u => d.set u.themeId u) s.latestMetrics })

/-- Recompute the marked themes and evaluate all of them; after the close nothing is evaluated. -/
def publish (s : MarketDataPipeline) (around : Surroundings) (now : Datetime) :
    Except Error Unit × MarketDataPipeline :=
  match s.recalculate with
  | (.error e, s) => (.error e, s)
  | (.ok (), s) =>
    if s.marketClosed then (around.rest, s)
    else
      match forUpdates (fun s update => s.evaluateTheme around update now) s.orderedMetrics s with
      | (.error e, s) => (.error e, s)
      | (.ok (), s) => (around.rest, s)

/-- Close the themes that are left. -/
def closeMarket (s : MarketDataPipeline) (around : Surroundings) (now : Datetime) :
    Except Error Unit × MarketDataPipeline :=
  let s := { s with marketClosed := true }
  match forUpdates (fun s update => s.closeTheme around update now) s.orderedMetrics s with
  | (.error e, s) => (.error e, s)
  | (.ok (), s) => (around.rest, s)

end MarketDataPipeline

inductive PipelineCall where
  | applyUpdate (update : StockRealtimeUpdate)
  | publish (around : Surroundings) (now : Datetime)
  | closeMarket (around : Surroundings) (now : Datetime)

namespace MarketDataPipeline

variable [Sha256]

def call (s : MarketDataPipeline) : PipelineCall → Except Error Unit × MarketDataPipeline
  | .applyUpdate update =>
    let (result, s) := s.applyUpdate update
    (result.map fun _ => (), s)
  | .publish around now => s.publish around now
  | .closeMarket around now => s.closeMarket around now

/-- The pipeline after some calls, each returned or raised. -/
def run (s : MarketDataPipeline) (calls : List PipelineCall) : MarketDataPipeline :=
  calls.foldl (fun s c => (s.call c).2) s

end MarketDataPipeline

end Dayjaview.Pipeline
