import Dayjaview.Core.Crashes
import Dayjaview.Core.Dict
import Dayjaview.Core.Json
import Dayjaview.Core.Timedelta

/-!
# The backfill of daily prices

One request asks one market for one day. Every answer is stored in a file of its own,
and what is stored is not asked for again, so that a run goes on where another one
stopped. A source that has nothing for a market on many days in a row ends the run.
-/

namespace Dayjaview.Historical

inductive Market where
  | kospi
  | kosdaq
  | konex
  deriving DecidableEq

def Market.value : Market → String
  | kospi => "KOSPI"
  | kosdaq => "KOSDAQ"
  | konex => "KONEX"

/-- The markets in the order of the requests. -/
def MARKETS : List Market := [.kospi, .kosdaq, .konex]

theorem validDate_konex : ValidDate 2013 7 1 := by decide

/-- The day the last market opened. -/
def KONEX_OPENED : Date := ⟨2013, 7, 1, validDate_konex⟩

/-- So many empty answers in a row are no holidays. -/
def EMPTY_STREAK_LIMIT : Nat := 15

/-- The pauses before a request is made again, in milliseconds. -/
def RETRY_BACKOFF : List Nat := [5000, 30000, 120000]

/-- The file with the state of a run. -/
def STATUS_FILENAME : String := "backfill_status.json"

/-- The weekday, beginning with Monday. -/
def weekday (d : Date) : Nat := (d.toOrdinal + 6) % 7

structure Slot where
  market : Market
  marketDate : Date
  deriving DecidableEq

/-- The file for one market on one day. -/
def envelopePath (slot : Slot) : String :=
  slot.market.value ++ ("/" ++ (String.ofList (natText slot.marketDate.year) ++
    ("/KRX_STOCK_DAILY." ++
      (slot.market.value ++ ("_" ++ (slot.marketDate.isoformat ++ ".json"))))))

/-- The file that is written first. -/
def tempPath (path : String) : String := path ++ ".tmp"

/-- What comes back from a request. -/
inductive SourceAnswer where
  | payload (fields : List (String × Json))
  | transportError (messageKo : String)
  | contractError (messageKo : String)
  | raised (error : Error)

/-- The number of rows of an answer. -/
def rowCount (fields : List (String × Json)) : Except Error Nat :=
  match (Json.field? fields "OutBlock_1").getD .null with
  | .null | .bool false => .ok 0
  | .int n => if n = 0 then .ok 0 else .error ⟨.typeError, "object of type 'int' has no len()"⟩
  | .bool true => .error ⟨.typeError, "object of type 'bool' has no len()"⟩
  | .float x =>
    if x.chars.all (fun c => !c.isDigit || c == '0') && x.chars.any (·.isDigit) then .ok 0
    else .error ⟨.typeError, "object of type 'float' has no len()"⟩
  | .str s => .ok s.length
  | .arr items => .ok items.length
  | .obj fields => .ok fields.length

inductive BackfillStatus where
  | running
  | complete
  | stopped
  | failed
  deriving DecidableEq

inductive StopReason where
  | callBudgetExhausted
  | transportFailure
  | sourceContractFailure
  | dataUnavailable
  | interrupted
  deriving DecidableEq

structure BackfillFailure where
  market : Market
  date : Date
  consecutiveEmptyWeekdays : Option Nat
  messageKo : String

structure Progress where
  callsMade : Nat
  callsSinceStatus : Nat
  filesWritten : Nat
  filesSkipped : Nat
  emptyResponses : Nat
  emptyStreak : Market → Nat
  failure : Option BackfillFailure
  status : BackfillStatus
  reason : Option StopReason
  lastCompleted : Option Date
  nextDate : Option Date
  day : Date

/-- A run that begins on a day. -/
def Progress.start (startDate : Date) : Progress where
  callsMade := 0
  callsSinceStatus := 0
  filesWritten := 0
  filesSkipped := 0
  emptyResponses := 0
  emptyStreak := fun _ => 0
  failure := none
  status := .complete
  reason := none
  lastCompleted := none
  nextDate := none
  day := startDate

/-- What is reported about a run. -/
structure BackfillReport where
  status : BackfillStatus
  reason : Option StopReason
  startDate : Date
  endDate : Date
  callsMade : Nat
  filesWritten : Nat
  filesSkipped : Nat
  emptyResponses : Nat
  lastCompletedDate : Option Date
  nextDate : Option Date
  failure : Option BackfillFailure
  updatedAt : Datetime

structure Envelope where
  payload : List (String × Json)
  collectedAt : Datetime

inductive FileContent where
  | envelope (envelope : Envelope)
  | status (report : BackfillReport)

abbrev Files := Dict String FileContent

inductive BackfillOp : Type → Type where
  | isFile (path : String) : BackfillOp Bool
  | writeText (path : String) (content : FileContent) : BackfillOp Unit
  /-- Give a file the name of another one. -/
  | replace (path target : String) : BackfillOp Unit
  | request (slot : Slot) : BackfillOp SourceAnswer
  | now : BackfillOp Datetime
  | read : BackfillOp Progress
  | update (change : Progress → Progress) : BackfillOp Unit

structure Process where
  files : Files
  progress : Progress
  requests : Nat
  readings : Nat

/-- What a process runs in: the source, the requests that fail on the way, and the clock. -/
structure Surroundings where
  source : Slot → SourceAnswer
  outage : Nat → Bool
  clock : Nat → Datetime

def backfillHandler (around : Surroundings) : Handler BackfillOp Process
  | _, .isFile path, s => ((s.files.get? path).isSome, s)
  | _, .writeText path content, s => ((), { s with files := s.files.set path content })
  | _, .replace path target, s =>
    match s.files.get? path with
    | none => ((), s)
    | some content => ((), { s with files := (s.files.erase path).set target content })
  | _, .request slot, s =>
    (if around.outage s.requests then .transportError "네트워크 조회에 실패했습니다."
      else around.source slot, { s with requests := s.requests + 1 })
  | _, .now, s => (around.clock s.readings, { s with readings := s.readings + 1 })
  | _, .read, s => (s.progress, s)
  | _, .update change, s => ((), { s with progress := change s.progress })

structure Backfill where
  startDate : Date
  endDate : Date
  maxCalls : Int
  statusEveryCalls : Int

namespace Backfill

open Program

def report (b : Backfill) (final : Bool) (p : Progress) (updatedAt : Datetime) :
    BackfillReport where
  status := if final then p.status else .running
  reason := p.reason
  startDate := b.startDate
  endDate := b.endDate
  callsMade := p.callsMade
  filesWritten := p.filesWritten
  filesSkipped := p.filesSkipped
  emptyResponses := p.emptyResponses
  lastCompletedDate := p.lastCompleted
  nextDate := p.nextDate
  failure := p.failure
  updatedAt := updatedAt

/-- Write a file under another name first. -/
def writeAtomic (path : String) (content : FileContent) : Program BackfillOp Unit := do
  call (.writeText (tempPath path) content)
  call (.replace (tempPath path) path)

/-- Report the state of the run in its file. -/
def writeStatus (b : Backfill) (final : Bool) : Program BackfillOp Unit := do
  let progress ← call .read
  let updatedAt ← call .now
  writeAtomic STATUS_FILENAME (.status (b.report final progress updatedAt))

/-- What is left of a request after it was made again. -/
inductive Fetched where
  | envelope (envelope : Envelope)
  | transportError (messageKo : String)
  | contractError (messageKo : String)

def fetchOnce (slot : Slot) : Program BackfillOp Fetched := do
  let collectedAt ← call .now
  let answer ← call (.request slot)
  match answer with
  | .payload fields => return .envelope ⟨fields, collectedAt⟩
  | .transportError messageKo => return .transportError messageKo
  | .contractError messageKo => return .contractError messageKo
  | .raised error => raise error

/-- Make a request, and make it again after each pause if it failed. -/
def fetch (slot : Slot) : List Nat → Program BackfillOp Fetched
  | [] => fetchOnce slot
  | _ :: backoff => do
    let fetched ← fetchOnce slot
    match fetched with
    | .envelope envelope => return .envelope envelope
    | .transportError _ | .contractError _ => fetch slot backoff

def stop (status : BackfillStatus) (reason : StopReason) (failure : Option BackfillFailure)
    (slot : Slot) : Program BackfillOp Bool := do
  call (.update fun p => { p with
    status := status
    reason := some reason
    nextDate := some slot.marketDate
    failure := failure })
  return true

/-- Count an answer without rows; the run stops when there are too many in a row. -/
def noteEmpty (slot : Slot) : Program BackfillOp Bool := do
  call (.update fun p => { p with
    emptyResponses := p.emptyResponses + 1
    emptyStreak := Function.update p.emptyStreak slot.market (p.emptyStreak slot.market + 1) })
  let progress ← call .read
  if EMPTY_STREAK_LIMIT ≤ progress.emptyStreak slot.market then
    stop .failed .dataUnavailable (some {
      market := slot.market
      date := slot.marketDate
      consecutiveEmptyWeekdays := some (progress.emptyStreak slot.market)
      messageKo := "주중 빈 응답이 휴장으로 설명할 수 없게 이어집니다. " ++
        "원천이 이 구간을 제공하지 않는 것으로 보입니다." }) slot
  else return false

/-- An answer with rows ends the empty ones. -/
def noteRows (slot : Slot) : Program BackfillOp Bool := do
  call (.update fun p => { p with emptyStreak := Function.update p.emptyStreak slot.market 0 })
  return false

/-- Look at the rows of an answer. -/
def note (slot : Slot) (rows : Nat) : Program BackfillOp Bool :=
  if rows = 0 then noteEmpty slot else noteRows slot

/-- Report the state of the run now and then. -/
def offerStatus (b : Backfill) : Program BackfillOp Unit := do
  let progress ← call .read
  if b.statusEveryCalls ≤ progress.callsSinceStatus then do
    call (.update fun p => { p with callsSinceStatus := 0 })
    b.writeStatus false
  else return ()

/-- Store an answer and look at its rows. -/
def keep (b : Backfill) (slot : Slot) (envelope : Envelope) : Program BackfillOp Bool := do
  call (.update fun p => { p with
    callsMade := p.callsMade + 1
    callsSinceStatus := p.callsSinceStatus + 1 })
  writeAtomic (envelopePath slot) (.envelope envelope)
  call (.update fun p => { p with filesWritten := p.filesWritten + 1 })
  let rows ← ofExcept (rowCount envelope.payload)
  let stopped ← note slot rows
  if stopped then return true
  else do
    b.offerStatus
    return false

/-- Ask for what is missing and store it. -/
def collectSlot (b : Backfill) (slot : Slot) : Program BackfillOp Bool := do
  let stored ← call (.isFile (envelopePath slot))
  if stored then do
    call (.update fun p => { p with filesSkipped := p.filesSkipped + 1 })
    return false
  else do
    let progress ← call .read
    if b.maxCalls ≤ progress.callsMade then stop .stopped .callBudgetExhausted none slot
    else do
      let fetched ← fetch slot RETRY_BACKOFF
      match fetched with
      | .envelope envelope => b.keep slot envelope
      | .transportError messageKo =>
        stop .stopped .transportFailure (some ⟨slot.market, slot.marketDate, none, messageKo⟩) slot
      | .contractError messageKo =>
        stop .failed .sourceContractFailure
          (some ⟨slot.market, slot.marketDate, none, messageKo⟩) slot

/-- Ask one market after the other. -/
def collectMarkets (b : Backfill) (day : Date) : List Market → Program BackfillOp Bool
  | [] => return false
  | market :: markets =>
    if market = .konex ∧ day < KONEX_OPENED then collectMarkets b day markets
    else do
      let stopped ← b.collectSlot ⟨market, day⟩
      if stopped then return true else collectMarkets b day markets

def days (b : Backfill) : List Date :=
  (List.range (b.endDate.toOrdinal + 1 - b.startDate.toOrdinal)).filterMap b.startDate.later

/-- Ask for one day after the other, without the weekends. -/
def collectDays (b : Backfill) : List Date → Program BackfillOp Bool
  | [] => return false
  | day :: days => do
    call (.update fun p => { p with day := day })
    if 5 ≤ weekday day then collectDays b days
    else do
      let stopped ← b.collectMarkets day MARKETS
      if stopped then return true
      else do
        call (.update fun p => { p with lastCompleted := some day })
        collectDays b days

/-- The checks of the arguments, in order. -/
def check (b : Backfill) : Except Error Unit := do
  ensure (b.startDate ≤ b.endDate) "start_date는 end_date보다 늦을 수 없습니다."
  ensure (0 < b.maxCalls) "max_calls는 0보다 커야 합니다."

/-- Ask for every day; the calendar has no day after the last one. -/
def body (b : Backfill) : Program BackfillOp Unit := do
  ofExcept b.check
  let stopped ← b.collectDays b.days
  if !stopped && b.endDate.tomorrow.isNone then raise ⟨.overflowError, "date value out of range"⟩
  else return ()

/-- The run is interrupted from the keyboard. -/
def noteInterrupt (p : Progress) : Progress :=
  { p with status := .stopped, reason := some .interrupted, nextDate := some p.day }

def conclude (b : Backfill) : Program BackfillOp BackfillReport := do
  let progress ← call .read
  let updatedAt ← call .now
  b.writeStatus true
  return b.report true progress updatedAt

end Backfill

inductive Cut where
  /-- The process ends before an operation. -/
  | crash (operation : Nat)
  /-- The process is interrupted before an operation and reports it. -/
  | keyboard (operation : Nat)

structure Attempt where
  maxCalls : Int
  statusEveryCalls : Int
  outage : Nat → Bool
  clock : Nat → Datetime
  cut : Option Cut
  finalCut : Option Nat

def crashed : Error := ⟨.runtimeError, "crashed"⟩

/-- The requests of an attempt. -/
def Attempt.requests (a : Attempt) (b : Backfill) (around : Surroundings) (s : Process) :
    Except Error Unit × Process :=
  match a.cut with
  | none => b.body.finish (backfillHandler around) s
  | some (.crash k) => b.body.finishUntil (backfillHandler around) crashed k s
  | some (.keyboard k) =>
    match b.body.finishUntil (backfillHandler around) ⟨.keyboardInterrupt, ""⟩ k s with
    | (.error e, s) =>
      if e.kind = .keyboardInterrupt then
        (.ok (), { s with progress := Backfill.noteInterrupt s.progress })
      else (.error e, s)
    | (.ok (), s) => (.ok (), s)

/-- The last report of an attempt. -/
def Attempt.report (a : Attempt) (b : Backfill) (around : Surroundings) (s : Process) :
    Except Error BackfillReport × Process :=
  match a.finalCut with
  | none => b.conclude.finish (backfillHandler around) s
  | some k => b.conclude.finishUntil (backfillHandler around) crashed k s

/-- What a source has, and which days are asked for. -/
structure BackfillTask where
  source : Slot → SourceAnswer
  startDate : Date
  endDate : Date

/-- Make an attempt: its report, if there is one, and the files it leaves. -/
def BackfillTask.attempt (t : BackfillTask) (a : Attempt) (files : Files) :
    Option BackfillReport × Files :=
  let b : Backfill := ⟨t.startDate, t.endDate, a.maxCalls, a.statusEveryCalls⟩
  let around : Surroundings := ⟨t.source, a.outage, a.clock⟩
  match a.requests b around ⟨files, .start t.startDate, 0, 0⟩ with
  | (.error _, s) => (none, s.files)
  | (.ok (), s) =>
    match a.report b around s with
    | (.error _, s) => (none, s.files)
    | (.ok report, s) => (some report, s.files)

/-- The files after some attempts. -/
def BackfillTask.attempts (t : BackfillTask) (as : List Attempt) (files : Files) : Files :=
  as.foldl (fun files a => (t.attempt a files).2) files

end Dayjaview.Historical
