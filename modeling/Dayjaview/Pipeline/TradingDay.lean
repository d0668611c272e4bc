import Dayjaview.Core.Streaks
import Dayjaview.Core.Timedelta
import Dayjaview.Domain.Models
import Dayjaview.Events.Fingerprint

/-!
# Trading days one after the other

A publication loop serves one trading day. The loop around it closes the session
of a day that is over and builds the next one, again after a while when that
failed. What clocks, pipelines and callbacks answer during a tick enters as a
parameter of the tick; the calls it makes are written down in their order.
-/

namespace Dayjaview.Pipeline

open Dayjaview.Domain

/-- The offset of the exchange's clock. -/
def KST : Int := 32400000000

/-- The number of the weekday that begins the weekend. -/
def SATURDAY : Nat := 5

/-- The day of the week, Monday being 0. -/
def weekday (d : Date) : Nat := (d.toOrdinal + 6) % 7

def marketDateFor (now : Datetime) : Except Error Date := do
  let moved ← now.astimezone KST
  return moved.date

/-- A date is a Saturday or a Sunday. -/
def isWeekend (marketDate : Date) : Bool := SATURDAY ≤ weekday marketDate

/-- A date is a trading day: no weekend, and what the calendar says when it knows. -/
def isTradingDay (marketDate : Date)
    (knownTradingDays : Option (Date → Except Error (Option Bool))) : Except Error Bool :=
  if isWeekend marketDate then .ok false
  else
    match knownTradingDays with
    | none => .ok true
    | some knownTradingDays => (knownTradingDays marketDate).map fun known => known.getD true

theorem marketDateFor_mono {a b : Datetime} (h : a ≤ b) {d e : Date}
    (ha : marketDateFor a = .ok d) (hb : marketDateFor b = .ok e) : d ≤ e := by
  obtain ⟨a', hmoved, ha⟩ := bind_eq_ok.mp ha
  obtain ⟨b', hmoved', hb⟩ := bind_eq_ok.mp hb
  cases ha
  cases hb
  obtain ⟨hinstant, hoffset⟩ := Datetime.instant_astimezone hmoved
  obtain ⟨hinstant', hoffset'⟩ := Datetime.instant_astimezone hmoved'
  apply Datetime.date_le_of_instant_le (hoffset.trans hoffset'.symm)
  rw [Datetime.le_def, hinstant, hinstant']
  exact h

/-- The publication loop of a trading day. -/
structure MarketPublishLoop where
  marketOpenAt : Option Datetime
  marketCloseAt : Option Datetime
  marketCloseApplied : Bool

/-- What a publication loop meets during a tick. -/
structure PublishSurroundings (View : Type) where
  now : Datetime
  pollUpdates : Except Error Unit
  closeMarket : Except Error Unit
  beforePublish : Except Error Unit
  dataStatus : Except Error DataStatus
  publish : DataStatus → Except Error View
  onPublished : View → Except Error Unit

namespace MarketPublishLoop

/-- The published state: that of the gateway while the market is open. -/
def sessionDataStatus (l : MarketPublishLoop) (now : Datetime)
    (dataStatus : Except Error DataStatus) : Except Error DataStatus :=
  if l.marketOpenAt.any fun opens => now < opens then .ok .preopen
  else if l.marketCloseAt.any fun closes => closes ≤ now then .ok .closed
  else dataStatus

def publishView {View : Type} (l : MarketPublishLoop) (x : PublishSurroundings View) :
    Except Error View := do
  x.beforePublish
  let status ← l.sessionDataStatus x.now x.dataStatus
  let view ← x.publish status
  x.onPublished view
  return view

/-- Apply what is new, evaluate the close once it is due, and publish. -/
def tick {View : Type} (l : MarketPublishLoop) (x : PublishSurroundings View) :
    Except Error View × MarketPublishLoop :=
  match x.pollUpdates with
  | .error e => (.error e, l)
  | .ok () =>
    if !l.marketCloseApplied && l.marketCloseAt.any fun closes => closes ≤ x.now then
      match x.closeMarket with
      | .error e => (.error e, l)
      | .ok () =>
        let l := { l with marketCloseApplied := true }
        (l.publishView x, l)
    else (l.publishView x, l)

/-- Evaluate the close unless that was done. -/
def close (l : MarketPublishLoop) (closeMarket : Except Error Unit) : Except Error Unit :=
  if l.marketCloseApplied || l.marketCloseAt.isNone then .ok () else closeMarket

end MarketPublishLoop

/-- The time from an attempt to prepare a session to the next one, in microseconds. -/
def SESSION_RETRY_INTERVAL : Int := 300000000

/-- A session with the date it was built for. -/
structure TradingSession where
  builtFor : Date
  publishLoop : MarketPublishLoop

/-- The loop over the trading days. -/
structure TradingDayLoop where
  marketDate : Option Date
  session : Option TradingSession
  retryAt : Option Datetime

/-- What the loop meets during a tick. -/
structure TickSurroundings (View : Type) where
  now : Datetime
  knownTradingDays : Option (Date → Except Error (Option Bool))
  buildSession : Date → Except Error (Option MarketPublishLoop)
  closeMarket : Except Error Unit
  session : PublishSurroundings View

/-- A call that the loop makes. -/
inductive LoopCall where
  /-- A session is asked for at some time, for a date; there was one or not. -/
  | build (now : Datetime) (date : Date) (made : Bool)
  /-- The session of a date is closed, which returns or not. -/
  | close (date : Date) (returned : Bool)
  /-- The session of a date is ticked at some time. -/
  | tick (date : Date) (now : Datetime)
  deriving DecidableEq

namespace TradingDayLoop

def start : TradingDayLoop := ⟨none, none, none⟩

/-- Ask for a session, after the next attempt is scheduled. -/
def build {View : Type} (l : TradingDayLoop) (today : Date) (x : TickSurroundings View) :
    Except Error Unit × TradingDayLoop × List LoopCall :=
  match x.now.plus SESSION_RETRY_INTERVAL with
  | .error e => (.error e, l, [])
  | .ok retryAt =>
    let l := { l with retryAt := some retryAt }
    match x.buildSession today with
    | .error e => (.error e, l, [.build x.now today false])
    | .ok built =>
      (.ok (), { l with session := built.map fun publishLoop => ⟨today, publishLoop⟩ },
        [.build x.now today built.isSome])

/-- Close the session there is. -/
def closeSession {View : Type} (l : TradingDayLoop) (x : TickSurroundings View) :
    Except Error Unit × List LoopCall :=
  match l.session with
  | none => (.ok (), [])
  | some session =>
    match session.publishLoop.close x.closeMarket with
    | .error e => (.error e, [.close session.builtFor false])
    | .ok () => (.ok (), [.close session.builtFor true])

def rollOver {View : Type} (l : TradingDayLoop) (today : Date) (x : TickSurroundings View) :
    Except Error Unit × TradingDayLoop × List LoopCall :=
  match l.closeSession x with
  | (.error e, calls) => (.error e, l, calls)
  | (.ok (), calls) =>
    -- nothing of the day before is left, however the rest ends
    let l := ⟨some today, none, none⟩
    match isTradingDay today x.knownTradingDays with
    | .error e => (.error e, l, calls)
    | .ok false => (.ok (), l, calls)
    | .ok true =>
      let (prepared, l, built) := l.build today x
      (prepared, l, calls ++ built)

def retryDue (l : TradingDayLoop) (now : Datetime) : Bool :=
  l.session.isNone && l.retryAt.any fun retryAt => retryAt ≤ now

/-- See to the session of the date. -/
def prepare {View : Type} (l : TradingDayLoop) (today : Date) (x : TickSurroundings View) :
    Except Error Unit × TradingDayLoop × List LoopCall :=
  if some today ≠ l.marketDate then l.rollOver today x
  else if l.retryDue x.now then l.build today x
  else (.ok (), l, [])

/-- See to the session of the date and tick it. -/
def tick {View : Type} (l : TradingDayLoop) (x : TickSurroundings View) :
    Except Error (Option View) × TradingDayLoop × List LoopCall :=
  match marketDateFor x.now with
  | .error e => (.error e, l, [])
  | .ok today =>
    match l.prepare today x with
    | (.error e, l, calls) => (.error e, l, calls)
    | (.ok (), l, calls) =>
      match l.session with
      | none => (.ok none, l, calls)
      | some session =>
        let (view, publishLoop) := session.publishLoop.tick x.session
        (view.map some, { l with session := some { session with publishLoop } },
          calls ++ [.tick session.builtFor x.now])

end TradingDayLoop

/-- What a call means for the date of the session that is there. -/
inductive Moves : Option Date → LoopCall → Option Date → Prop where
  /-- A session is built while there is none. -/
  | built (now : Datetime) (date : Date) : Moves none (.build now date true) (some date)
  | notBuilt (now : Datetime) (date : Date) : Moves none (.build now date false) none
  /-- The session that is there is closed. -/
  | closed (date : Date) : Moves (some date) (.close date true) none
  | notClosed (date : Date) : Moves (some date) (.close date false) (some date)
  /-- The session that is there is ticked on its date. -/
  | ticked {date : Date} {now : Datetime} (hdate : marketDateFor now = .ok date) :
      Moves (some date) (.tick date now) (some date)

variable {date : Date}

theorem mem_closed_of_gone {calls : List LoopCall} {last : Option Date}
    (h : Steps Moves (some date) calls last) (hgone : last ≠ some date) :
    .close date true ∈ calls := by
  induction calls with
  | nil =>
    cases h
    exact absurd rfl hgone
  | cons call calls ih =>
    cases h with
    | cons head tail =>
      cases head with
      | closed => exact List.mem_cons_self ..
      | notClosed => exact List.mem_cons_of_mem _ (ih tail)
      | ticked => exact List.mem_cons_of_mem _ (ih tail)

theorem gone_of_built {before after : List LoopCall} {now : Datetime} {last : Option Date}
    (h : Steps Moves none (before ++ .build now date true :: after) last) :
    last = some date ∨ .close date true ∈ after := by
  obtain ⟨there, -, hbuild⟩ := h.of_append
  cases hbuild with
  | cons head tail =>
    cases head with
    | built =>
      by_cases hlast : last = some date
      · exact .inl hlast
      · exact .inr (mem_closed_of_gone tail hlast)

theorem mem_closed_of_next {before between after : List LoopCall} {now now' : Datetime}
    {date' : Date} {made : Bool} {last : Option Date} (h : Steps Moves none
      (before ++ .build now date true :: between ++ .build now' date' made :: after) last) :
    .close date true ∈ between := by
  obtain ⟨there, hbefore, hnext⟩ := h.of_append
  have hthere : there = none := by
    cases hnext with
    | cons head _ => cases head <;> rfl
  rcases gone_of_built hbefore with hlast | hclosed
  · rw [hthere] at hlast
    cases hlast
  · exact hclosed

/-- An attempt fails before the builder is asked, or the builder is asked and the next attempt put
off. -/
theorem TradingDayLoop.build_cases {View : Type} (l : TradingDayLoop) (today : Date)
    (x : TickSurroundings View) (hnone : l.session = none) :
    ((l.build today x).2.1 = l ∧ (l.build today x).2.2 = []) ∨
      ∃ retryAt session, x.now.plus SESSION_RETRY_INTERVAL = .ok retryAt ∧
        (∀ s, session = some s → s.builtFor = today) ∧
        (l.build today x).2.1 = ⟨l.marketDate, session, some retryAt⟩ ∧
        (l.build today x).2.2 = [.build x.now today session.isSome] := by
  rcases hplus : x.now.plus SESSION_RETRY_INTERVAL with e | retryAt
  · simp [build, hplus]
  · rcases hbuilder : x.buildSession today with e | built
    · simp [build, hplus, hbuilder, hnone]
    · refine .inr ⟨retryAt, built.map fun publishLoop => ⟨today, publishLoop⟩, rfl, ?_, ?_⟩
      · intro s hs
        obtain ⟨publishLoop, -, rfl⟩ := Option.map_eq_some_iff.mp hs
        rfl
      · simp [build, hplus, hbuilder]

theorem TradingDayLoop.marketDate_build {View : Type} (l : TradingDayLoop) (today : Date)
    (x : TickSurroundings View) (hnone : l.session = none) :
    (l.build today x).2.1.marketDate = l.marketDate := by
  rcases l.build_cases today x hnone with ⟨hloop, -⟩ | ⟨retryAt, session, -, -, hloop, -⟩
  · rw [hloop]
  · rw [hloop]

/-- Two attempts for one date: the first one failed and the second one waited. -/
def Spaced : LoopCall → LoopCall → Prop
  | .build now date made, .build now' date' _ =>
    date = date' → made = false ∧ now.instant + SESSION_RETRY_INTERVAL ≤ now'.instant
  | _, _ => True

/-- The loop with the calls it made. -/
structure DayRun where
  loop : TradingDayLoop
  calls : List LoopCall

namespace DayRun

variable {View : Type}

def tick (r : DayRun) (x : TickSurroundings View) : DayRun :=
  let (_, loop, calls) := r.loop.tick x
  ⟨loop, r.calls ++ calls⟩

def run (xs : List (TickSurroundings View)) : DayRun := xs.foldl tick ⟨.start, []⟩

theorem run_snoc (xs : List (TickSurroundings View)) (x : TickSurroundings View) :
    run (xs ++ [x]) = (run xs).tick x := by
  simp only [run, List.foldl_append, List.foldl_cons, List.foldl_nil]

/-- The date of the session that is there. -/
def current (r : DayRun) : Option Date := r.loop.session.map TradingSession.builtFor

/-- What is known between two calls, the loop having seen the date `marketDate` last. -/
structure Kept (r : DayRun) : Prop where
  dated : ∀ session, r.loop.session = some session → r.loop.marketDate = some session.builtFor
  steps : Steps Moves none r.calls r.current
  spaced : r.calls.Pairwise Spaced
  past : ∀ now date made, .build now date made ∈ r.calls →
    ∃ marketDate, r.loop.marketDate = some marketDate ∧ date ≤ marketDate
  waits : ∀ now date made, .build now date made ∈ r.calls → r.loop.marketDate = some date →
    (made = true → r.loop.session.isSome) ∧
      ∃ retryAt, r.loop.retryAt = some retryAt ∧
        now.instant + SESSION_RETRY_INTERVAL ≤ retryAt.instant

theorem kept_start : Kept ⟨.start, []⟩ where
  dated := by
    intro session hsession
    cases hsession
  steps := .nil none
  spaced := .nil
  past := by
    intro now date made hmem
    cases hmem
  waits := by
    intro now date made hmem
    cases hmem

/-- An attempt that is allowed: there is no session, and the attempts for the date failed and are
long enough ago. -/
structure MayBuild (r : DayRun) (today : Date) (now : Datetime) : Prop where
  date : r.loop.marketDate = some today
  session : r.loop.session = none
  spaced : ∀ earlier made, .build earlier today made ∈ r.calls →
    made = false ∧ earlier.instant + SESSION_RETRY_INTERVAL ≤ now.instant

variable {r : DayRun}

theorem Kept.build (h : r.Kept) {today : Date} {x : TickSurroundings View}
    (hmay : r.MayBuild today x.now) :
    Kept ⟨(r.loop.build today x).2.1, r.calls ++ (r.loop.build today x).2.2⟩ := by
  have hnone : r.current = none := by simp [current, hmay.session]
  -- whatever the builder answers, the attempt is written down and the next one is put off
  have hattempt : ∀ (retryAt : Datetime) (session : Option TradingSession),
      x.now.plus SESSION_RETRY_INTERVAL = .ok retryAt →
      (∀ s, session = some s → s.builtFor = today) →
      Kept
      ⟨⟨some today, session, some retryAt⟩, r.calls ++ [.build x.now today session.isSome]⟩ := by
    intro retryAt session hretry hbuilt
    have hinstant := Datetime.instant_plus hretry
    constructor
    · intro s hs
      simp only at hs ⊢
      rw [hbuilt s hs]
    · refine h.steps.append (hnone ▸ .one ?_)
      cases session with
      | none => exact .notBuilt x.now today
      | some s =>
        have hs : s.builtFor = today := hbuilt s rfl
        simp only [current, Option.map_some, Option.isSome_some, hs]
        exact .built x.now today
    · refine List.pairwise_append.mpr ⟨h.spaced, List.pairwise_singleton _ _, ?_⟩
      intro call hcall next hnext
      obtain rfl := List.mem_singleton.mp hnext
      cases call with
      | build now date made =>
        intro hdate
        subst hdate
        exact hmay.spaced now made hcall
      | close => trivial
      | tick => trivial
    · intro now date made hmem
      refine ⟨today, rfl, ?_⟩
      rcases List.mem_append.mp hmem with hmem | hmem
      · obtain ⟨marketDate, hmarket, hle⟩ := h.past now date made hmem
        rw [hmay.date] at hmarket
        cases hmarket
        exact hle
      · obtain ⟨-, rfl, -⟩ := LoopCall.build.inj (List.mem_singleton.mp hmem)
        exact le_rfl
    · intro now date made hmem hdate
      cases hdate
      rcases List.mem_append.mp hmem with hmem | hmem
      · obtain ⟨hfailed, hle⟩ := hmay.spaced now made hmem
        refine ⟨fun hmade => ?_, retryAt, rfl, ?_⟩
        · rw [hfailed] at hmade
          cases hmade
        · have hpos : 0 ≤ SESSION_RETRY_INTERVAL := by decide
          omega
      · obtain ⟨rfl, -, rfl⟩ := LoopCall.build.inj (List.mem_singleton.mp hmem)
        exact ⟨id, retryAt, rfl, hinstant.ge⟩
  rcases r.loop.build_cases today x hmay.session with hraised |
      ⟨retryAt, session, hretry, hbuilt, hcalls⟩
  · rw [hraised.1, hraised.2, List.append_nil]
    exact h
  · rw [hcalls.1, hcalls.2, hmay.date]
    exact hattempt retryAt session hretry hbuilt

theorem attempts_concat (calls : List LoopCall) {call : LoopCall}
    (hcall : ∀ now date made, call ≠ .build now date made) :
    (calls.Pairwise Spaced → (calls ++ [call]).Pairwise Spaced) ∧
      ∀ now date made, .build now date made ∈ calls ++ [call] → .build now date made ∈ calls := by
  constructor
  · intro h
    refine List.pairwise_append.mpr ⟨h, List.pairwise_singleton _ _, ?_⟩
    intro earlier _ next hnext
    obtain rfl := List.mem_singleton.mp hnext
    cases next with
    | build now date made => exact absurd rfl (hcall now date made)
    | close => cases earlier <;> trivial
    | tick => cases earlier <;> trivial
  · intro now date made hmem
    rcases List.mem_append.mp hmem with hmem | hmem
    · exact hmem
    · exact absurd (List.mem_singleton.mp hmem).symm (hcall now date made)

theorem Kept.notClosed (h : r.Kept) {session : TradingSession}
    (hsession : r.loop.session = some session) :
    Kept ⟨r.loop, r.calls ++ [.close session.builtFor false]⟩ := by
  obtain ⟨hspaced, hmem⟩ := attempts_concat r.calls
    (fun _ _ _ => (by simp) : ∀ now date made, LoopCall.close session.builtFor false ≠
      .build now date made)
  have hcurrent : r.current = some session.builtFor := by simp [current, hsession]
  refine ⟨h.dated, h.steps.append ?_, hspaced h.spaced, ?_, ?_⟩
  · rw [hcurrent]
    simp only [current, hsession, Option.map_some]
    exact .one (.notClosed session.builtFor)
  · exact fun now date made hbuild => h.past now date made (hmem now date made hbuild)
  · exact fun now date made hbuild => h.waits now date made (hmem now date made hbuild)

/-- Going on to a later date, with the session closed if there was one, keeps what is known and
allows an attempt. -/
theorem Kept.gone (h : r.Kept) {today : Date} (now : Datetime)
    (hnew : r.loop.marketDate ≠ some today)
    (hlater : ∀ marketDate, r.loop.marketDate = some marketDate → marketDate ≤ today)
    {closed : List LoopCall} (hclosed : r.loop.session = none ∧ closed = [] ∨
      ∃ session, r.loop.session = some session ∧ closed = [.close session.builtFor true]) :
    Kept ⟨⟨some today, none, none⟩, r.calls ++ closed⟩ ∧
      MayBuild ⟨⟨some today, none, none⟩, r.calls ++ closed⟩ today now := by
  have hbuilds : ∀ earlier date made, .build earlier date made ∈ r.calls ++ closed →
      .build earlier date made ∈ r.calls := by
    rcases hclosed with ⟨-, rfl⟩ | ⟨session, -, rfl⟩
    · simp
    · simp
  have hearlier : ∀ earlier date made, .build earlier date made ∈ r.calls ++ closed →
      date ≤ today ∧ date ≠ today := by
    intro earlier date made hbuild
    obtain ⟨marketDate, hmarket, hle⟩ := h.past earlier date made (hbuilds earlier date made hbuild)
    have hle' := hlater marketDate hmarket
    refine ⟨le_trans hle hle', ?_⟩
    rintro rfl
    exact hnew (by rw [hmarket, le_antisymm hle' hle])
  refine ⟨⟨?_, ?_, ?_, ?_, ?_⟩, ⟨rfl, rfl, ?_⟩⟩
  · intro session hsession
    cases hsession
  · rcases hclosed with ⟨hnone, rfl⟩ | ⟨session, hsession, rfl⟩
    · have hcurrent : r.current = none := by simp [current, hnone]
      have hsteps := h.steps
      rw [hcurrent] at hsteps
      rw [List.append_nil]
      exact hsteps
    · have hcurrent : r.current = some session.builtFor := by simp [current, hsession]
      exact h.steps.append (hcurrent ▸ .one (.closed session.builtFor))
  · rcases hclosed with ⟨-, rfl⟩ | ⟨session, -, rfl⟩
    · rw [List.append_nil]
      exact h.spaced
    · exact (attempts_concat _ (fun _ _ _ => (by simp))).1 h.spaced
  · exact fun earlier date made hbuild => ⟨today, rfl, (hearlier earlier date made hbuild).1⟩
  · intro earlier date made hbuild hdate
    exact absurd (Option.some.inj hdate).symm (hearlier earlier date made hbuild).2
  · intro earlier made hbuild
    exact absurd rfl (hearlier earlier today made hbuild).2

end DayRun

theorem TradingDayLoop.closeSession_cases {View : Type} (l : TradingDayLoop)
    (x : TickSurroundings View) :
    (∃ session e, l.session = some session ∧
        l.closeSession x = (.error e, [.close session.builtFor false])) ∨
      ∃ closed, l.closeSession x = (.ok (), closed) ∧
        (l.session = none ∧ closed = [] ∨
          ∃ session, l.session = some session ∧ closed = [.close session.builtFor true]) := by
  unfold closeSession
  cases hsession : l.session with
  | none => exact .inr ⟨[], rfl, .inl ⟨rfl, rfl⟩⟩
  | some session =>
    cases hclose : session.publishLoop.close x.closeMarket with
    | error e => exact .inl ⟨session, e, rfl, by simp [hclose]⟩
    | ok u =>
      exact .inr ⟨[.close session.builtFor true], by simp [hclose], .inr ⟨session, rfl, rfl⟩⟩

/-- Going on to another date stops at the close of the session, or leaves nothing of the day before
and perhaps asks for a session. -/
theorem TradingDayLoop.rollOver_cases {View : Type} (l : TradingDayLoop) (today : Date)
    (x : TickSurroundings View) :
    (∃ session e, l.session = some session ∧
        l.rollOver today x = (.error e, l, [.close session.builtFor false])) ∨
      ∃ closed, (l.session = none ∧ closed = [] ∨
          ∃ session, l.session = some session ∧ closed = [.close session.builtFor true]) ∧
        ((∃ answer, l.rollOver today x = (answer, ⟨some today, none, none⟩, closed)) ∨
          ∃ answer loop calls, build ⟨some today, none, none⟩ today x = (answer, loop, calls) ∧
            l.rollOver today x = (answer, loop, closed ++ calls)) := by
  rcases l.closeSession_cases x with ⟨session, e, hsession, hraised⟩ | ⟨closed, hreturned, hclosed⟩
  · exact .inl ⟨session, e, hsession, by simp [rollOver, hraised]⟩
  · refine .inr ⟨closed, hclosed, ?_⟩
    rcases hday : isTradingDay today x.knownTradingDays with e | _ | _
    · exact .inl ⟨.error e, by simp [rollOver, hreturned, hday]⟩
    · exact .inl ⟨.ok (), by simp [rollOver, hreturned, hday]⟩
    · rcases hbuild : build ⟨some today, none, none⟩ today x with ⟨answer, loop, calls⟩
      exact .inr ⟨answer, loop, calls, rfl, by simp only [rollOver, hreturned, hday, hbuild]⟩

namespace DayRun

open TradingDayLoop

variable {r : DayRun}

theorem Kept.prepare {View : Type} (h : r.Kept) {today : Date} {x : TickSurroundings View}
    (hlater : ∀ marketDate, r.loop.marketDate = some marketDate → marketDate ≤ today) :
    Kept ⟨(r.loop.prepare today x).2.1, r.calls ++ (r.loop.prepare today x).2.2⟩ ∧
      ((r.loop.prepare today x).2.1.marketDate = r.loop.marketDate ∨
        (r.loop.prepare today x).2.1.marketDate = some today) ∧
      ((r.loop.prepare today x).1 = .ok () →
        (r.loop.prepare today x).2.1.marketDate = some today) := by
  by_cases hnew : some today ≠ r.loop.marketDate
  · have hprepare : r.loop.prepare today x = r.loop.rollOver today x := by
      simp [TradingDayLoop.prepare, hnew]
    rw [hprepare]
    rcases r.loop.rollOver_cases today x with ⟨session, e, hsession, hraised⟩ |
      ⟨closed, hclosed, ⟨answer, hgone⟩ | ⟨answer, loop, calls, hbuild, hbuilt⟩⟩
    · rw [hraised]
      exact ⟨h.notClosed hsession, .inl rfl, fun hok => (by cases hok)⟩
    · rw [hgone]
      exact ⟨(h.gone x.now (Ne.symm hnew) hlater hclosed).1, .inr rfl, fun _ => rfl⟩
    · obtain ⟨hkept, hmay⟩ := h.gone x.now (Ne.symm hnew) hlater hclosed
      have hdate := marketDate_build ⟨some today, none, none⟩ today x rfl
      have hkept' := hkept.build hmay
      rw [hbuild] at hkept' hdate
      rw [hbuilt]
      exact ⟨by rw [← List.append_assoc]; exact hkept', .inr hdate, fun _ => hdate⟩
  · have hsame : r.loop.marketDate = some today := (not_not.mp hnew).symm
    by_cases hdue : r.loop.retryDue x.now = true
    · have hprepare : r.loop.prepare today x = r.loop.build today x := by
        simp [TradingDayLoop.prepare, hsame, hdue]
      obtain ⟨hnone, hretry⟩ : r.loop.session = none ∧
          ∃ retryAt, r.loop.retryAt = some retryAt ∧ retryAt ≤ x.now := by
        simpa [retryDue, Option.any_eq_true] using hdue
      obtain ⟨retryAt, hretryAt, hle⟩ := hretry
      have hmay : r.MayBuild today x.now := by
        refine ⟨hsame, hnone, ?_⟩
        intro earlier made hbuild
        obtain ⟨hmade, retryAt', hretryAt', hwaits⟩ := h.waits earlier today made hbuild hsame
        obtain rfl := Option.some.inj (hretryAt.symm.trans hretryAt')
        constructor
        · cases made with
          | false => rfl
          | true => simp [hnone] at hmade
        · exact le_trans hwaits hle
      have hdate := marketDate_build r.loop today x hnone
      rw [hprepare]
      exact ⟨h.build hmay, .inl hdate, fun _ => hdate.trans hsame⟩
    · have hprepare : r.loop.prepare today x = (.ok (), r.loop, []) := by
        simp [TradingDayLoop.prepare, hsame, hdue]
      rw [hprepare, List.append_nil]
      exact ⟨h, .inl rfl, fun _ => hsame⟩

theorem Kept.ticked (h : r.Kept) {session : TradingSession} {now : Datetime}
    (hsession : r.loop.session = some session) (hdate : marketDateFor now = .ok session.builtFor)
    (publishLoop : MarketPublishLoop) :
    Kept ⟨{ r.loop with session := some { session with publishLoop } },
      r.calls ++ [.tick session.builtFor now]⟩ := by
  obtain ⟨hspaced, hmem⟩ := attempts_concat r.calls
    (fun _ _ _ => (by simp) : ∀ t date made, LoopCall.tick session.builtFor now ≠
      .build t date made)
  have hcurrent : r.current = some session.builtFor := by simp [current, hsession]
  refine ⟨?_, h.steps.append ?_, hspaced h.spaced, ?_, ?_⟩
  · intro s hs
    cases hs
    exact h.dated session hsession
  · rw [hcurrent]
    exact .one (.ticked hdate)
  · exact fun t date made hbuild => h.past t date made (hmem t date made hbuild)
  · intro t date made hbuild hmarket
    exact ⟨fun _ => rfl, (h.waits t date made (hmem t date made hbuild) hmarket).2⟩

theorem Kept.tick (h : r.Kept) {x : TickSurroundings View}
    (hlater : ∀ today, marketDateFor x.now = .ok today →
      ∀ marketDate, r.loop.marketDate = some marketDate → marketDate ≤ today) :
    (r.tick x).Kept ∧ ((r.tick x).loop.marketDate = r.loop.marketDate ∨
      ∃ today, marketDateFor x.now = .ok today ∧ (r.tick x).loop.marketDate = some today) := by
  rcases htoday : marketDateFor x.now with e | today
  · have htick : r.tick x = r := by simp [DayRun.tick, TradingDayLoop.tick, htoday]
    rw [htick]
    exact ⟨h, .inl rfl⟩
  · obtain ⟨hkept, hdate, hready⟩ := h.prepare (x := x) (hlater today htoday)
    rcases hprepare : r.loop.prepare today x with ⟨prepared, loop, calls⟩
    rw [hprepare] at hkept hdate hready
    have hdate' : loop.marketDate = r.loop.marketDate ∨
        ∃ day, (.ok today : Except Error Date) = .ok day ∧ loop.marketDate = some day :=
      hdate.imp_right fun hdate => ⟨today, rfl, hdate⟩
    cases prepared with
    | error e =>
      have htick : r.tick x = ⟨loop, r.calls ++ calls⟩ := by
        simp [DayRun.tick, TradingDayLoop.tick, htoday, hprepare]
      rw [htick]
      exact ⟨hkept, hdate'⟩
    | ok _ =>
      rcases hsession : loop.session with _ | session
      · have htick : r.tick x = ⟨loop, r.calls ++ calls⟩ := by
          simp [DayRun.tick, TradingDayLoop.tick, htoday, hprepare, hsession]
        rw [htick]
        exact ⟨hkept, hdate'⟩
      · have htick : r.tick x =
            ⟨{ loop with session := some { session with
                publishLoop := (session.publishLoop.tick x.session).2 } },
              (r.calls ++ calls) ++ [.tick session.builtFor x.now]⟩ := by
          simp [DayRun.tick, TradingDayLoop.tick, htoday, hprepare, hsession]
        have hbuilt : some today = some session.builtFor :=
          (hready rfl).symm.trans (hkept.dated session hsession)
        rw [htick]
        refine ⟨hkept.ticked hsession ?_ _, hdate'⟩
        rw [htoday, Option.some.inj hbuilt]

theorem kept_run (xs : List (TickSurroundings View))
    (hclock : xs.Pairwise fun a b => a.now ≤ b.now) :
    (run xs).Kept ∧ ∀ marketDate, (run xs).loop.marketDate = some marketDate →
      ∃ x ∈ xs, marketDateFor x.now = .ok marketDate := by
  induction xs using List.reverseRecOn with
  | nil => exact ⟨kept_start, fun _ hdate => (by cases hdate)⟩
  | append_singleton xs x ih =>
    obtain ⟨hbefore, -, hlast⟩ := List.pairwise_append.mp hclock
    obtain ⟨hkept, hseen⟩ := ih hbefore
    have hlater : ∀ today, marketDateFor x.now = .ok today →
        ∀ marketDate, (run xs).loop.marketDate = some marketDate → marketDate ≤ today := by
      intro today htoday marketDate hdate
      obtain ⟨y, hy, hy'⟩ := hseen marketDate hdate
      exact marketDateFor_mono (hlast y hy x (List.mem_singleton.mpr rfl)) hy' htoday
    obtain ⟨hkept', hdate'⟩ := hkept.tick hlater
    rw [run_snoc]
    refine ⟨hkept', fun marketDate hdate => ?_⟩
    rcases hdate' with hsame | ⟨today, htoday, hnew⟩
    · obtain ⟨y, hy, hy'⟩ := hseen marketDate (hsame ▸ hdate)
      exact ⟨y, List.mem_append_left _ hy, hy'⟩
    · obtain rfl := Option.some.inj (hnew.symm.trans hdate)
      exact ⟨x, List.mem_append_right _ (List.mem_singleton.mpr rfl), htoday⟩

/-- Over any ticks of a clock that does not go back: a session is ticked on the date it was built
for only; a session that was built is there until its close returned, and no other one is asked for
before that; the attempts for a date are spaced, and none follows the one that succeeded. -/
theorem run_keeps_days (xs : List (TickSurroundings View))
    (hclock : xs.Pairwise fun a b => a.now ≤ b.now) :
    (∀ date now, .tick date now ∈ (run xs).calls → marketDateFor now = .ok date) ∧
      (∀ before now date after, (run xs).calls = before ++ .build now date true :: after →
        ((run xs).current = some date ∨ .close date true ∈ after) ∧
        ∀ between now' date' made next, after = between ++ .build now' date' made :: next →
          .close date true ∈ between) ∧
      (run xs).calls.Pairwise Spaced := by
  obtain ⟨hkept, -⟩ := kept_run xs hclock
  refine ⟨?_, ?_, hkept.spaced⟩
  · intro date now htick
    obtain ⟨there, there', hmove⟩ := hkept.steps.of_mem htick
    cases hmove with
    | ticked hdate => exact hdate
  · intro before now date after hcalls
    have hsteps := hkept.steps
    rw [hcalls] at hsteps
    refine ⟨gone_of_built hsteps, ?_⟩
    rintro between now' date' made next rfl
    rw [← List.cons_append, ← List.append_assoc] at hsteps
    exact mem_closed_of_next hsteps

/-- A tick at which nothing fails. -/
def calmTick (now : Datetime) : TickSurroundings Unit where
  now
  knownTradingDays := none
  buildSession := fun _ => .ok (some ⟨none, none, false⟩)
  closeMarket := .ok ()
  session := ⟨now, .ok (), .ok (), .ok (), .ok .live, fun _ => .ok (), fun _ => .ok ()⟩


/-- The same time on the day after. -/
def fivePastNineTuesday : Datetime :=
  { Events.fivePastNine with date := .august 4 }

/-- Over two trading days the first session is closed before the second one is asked for. -/
theorem run_keeps_days_monday_tuesday :
    let r := run [calmTick Events.fivePastNine, calmTick fivePastNineTuesday]
    r.calls = [.build Events.fivePastNine Events.fivePastNine.date true,
      .tick Events.fivePastNine.date Events.fivePastNine, .close Events.fivePastNine.date true,
      .build fivePastNineTuesday fivePastNineTuesday.date true,
      .tick fivePastNineTuesday.date fivePastNineTuesday] ∧
      (∀ date now, .tick date now ∈ r.calls → marketDateFor now = .ok date) ∧
      (∀ before now date after, r.calls = before ++ .build now date true :: after →
        (r.current = some date ∨ .close date true ∈ after) ∧
        ∀ between now' date' made next, after = between ++ .build now' date' made :: next →
          .close date true ∈ between) ∧
      r.calls.Pairwise Spaced :=
  ⟨by decide +kernel, run_keeps_days [calmTick Events.fivePastNine, calmTick fivePastNineTuesday]
    (by decide +kernel)⟩

end DayRun

end Dayjaview.Pipeline
