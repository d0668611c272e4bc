import Dayjaview.Core.HalfEven
import Dayjaview.Core.DecimalRange
import Dayjaview.Core.Grouping
import Dayjaview.Ontology.Transform

/-!
# Matching past events

Past events of the same theme whose causes share a type with the one of today are ranked by how much
they have in common; the reactions to each type are put together in groups. An index keeps what it
has looked up. The prices after an event, which are shown beside it, are left out.
-/

namespace Dayjaview.HistoricalMatching

open Ontology

/-- A stock that a record names. -/
structure StockReference where
  name : String
  stockCode : Option String

/-- A record of the history of a theme. -/
structure ThemeHistory where
  sourceHistoryKey : String
  eventDate : Option Date
  rawText : String
  leaders : List StockReference
  memberStocks : List StockReference

structure ThemeDetail where
  sourceThemeId : String
  themeName : String
  history : List ThemeHistory

/-- A past event with its labels. -/
structure PastCase where
  matchedEventId : String
  themeId : String
  displayNameAtEvent : String
  marketDate : Date
  catalystSummary : String
  orderedTypeIds : List CatalystType
  direction : Direction
  certainty : Certainty
  leaders : List (String × String)
  members : List (String × String)
  typed : orderedTypeIds ≠ []

/-- The first type of a past event. -/
def PastCase.primaryTypeId (c : PastCase) : CatalystType := c.orderedTypeIds.head c.typed

def PastCase.leaderCodes (c : PastCase) : Finset String := (c.leaders.map Prod.fst).toFinset

/-- The stocks whose prices are measured. -/
def PastCase.basket (c : PastCase) : List (String × String) :=
  if c.members = [] then c.leaders else c.members

/-- The beginnings of a list of stocks. -/
def referenceMarkers : List String := ["(주도주", "(관련주"]

/-- The characters around a reason that are not part of it. -/
def isReasonEdge (c : Char) : Bool := c == ' ' || c == '.' || c == '…'

/-- The text without some characters around it. -/
def stripOf (p : Char → Bool) (cs : List Char) : List Char :=
  ((cs.dropWhile p).reverse.dropWhile p).reverse

/-- The cause without the list of stocks at its end. -/
def catalystSummary (rawText : String) : String :=
  let text := stripChars rawText.toList
  let cuts := referenceMarkers.filterMap fun marker =>
    ((findAll text marker.toList text.length).getLast?).filter fun cut => cut != 0
  let reason : List Char := match cuts with
    | [] => text
    | cut :: _ => stripOf isReasonEdge (text.take cut)
  String.ofList (if reason = [] then text else reason)

/-- The stocks of a record that have a code and a name. -/
def namedStocks (references : List StockReference) : List (String × String) :=
  references.filterMap fun reference =>
    match reference.stockCode with
    | none => none
    | some code => if code ≠ "" ∧ reference.name ≠ "" then some (code, reference.name) else none

section Ids

variable [Sha256]

/-- What the digest of an event is taken of. -/
def eventSeed (sourceThemeId sourceHistoryKey : String) : String :=
  sourceThemeId ++ "|" ++ sourceHistoryKey

def matchedEventId (sourceThemeId sourceHistoryKey : String) : String :=
  "evt_hist_" ++ sourceThemeId ++ "_" ++
    takeText 16 (hexdigest (eventSeed sourceThemeId sourceHistoryKey))

/-- The past event of a record, when it has a date, a cause and a type. -/
def pastCase (detail : ThemeDetail) (themeId : String) (history : ThemeHistory) : Option PastCase :=
  match history.eventDate with
  | none => none
  | some marketDate =>
    if isBlank history.rawText then none
    else
      let classification := classifyCatalyst history.rawText
      if typed : classification.typeIds ≠ [] then
        some
          { matchedEventId := matchedEventId detail.sourceThemeId history.sourceHistoryKey
            themeId
            displayNameAtEvent := detail.themeName
            marketDate
            catalystSummary := catalystSummary history.rawText
            orderedTypeIds := classification.typeIds
            direction := classification.direction
            certainty := classification.certainty
            leaders := namedStocks history.leaders
            members := namedStocks history.memberStocks
            typed }
      else none

end Ids

/-- The number of the theme in the id of an event. -/
def themeNumber (matchedEventId : String) : Option String :=
  match (matchedEventId.toList.splitOn '_').map String.ofList with
  | ["evt", "hist", number, _] => if number = "" then none else some number
  | _ => none

/-- A text without its beginning. -/
def removePrefix (start text : String) : String :=
  if start.toList.isPrefixOf text.toList then
      String.ofList (text.toList.drop start.length) else text

/-- The themes, and the past events of those that were looked up. -/
structure HistoricalCaseIndex where
  details : Dict String ThemeDetail
  cached : Dict String (List PastCase)

namespace HistoricalCaseIndex

def ofDetails (details : List ThemeDetail) : HistoricalCaseIndex :=
  ⟨.ofList (details.map fun detail => (detail.sourceThemeId, detail)), .empty⟩

def themeIds (index : HistoricalCaseIndex) : List String := index.details.keys.map ("thm_" ++ ·)

variable [Sha256]

/-- The past events of a theme, looked up once. -/
def cases (index : HistoricalCaseIndex) (themeId : String) : List PastCase × HistoricalCaseIndex :=
  match index.cached.get? themeId with
  | some cached => (cached, index)
  | none =>
    let found := match index.details.get? (removePrefix "thm_" themeId) with
      | none => []
      | some detail => detail.history.filterMap (pastCase detail themeId)
    (found, { index with cached := index.cached.set themeId found })

def caseOf (index : HistoricalCaseIndex) (matchedEventId : String) :
    Option PastCase × HistoricalCaseIndex :=
  match themeNumber matchedEventId with
  | none => (none, index)
  | some number =>
    if (index.details.get? number).isNone then (none, index)
    else
      let found := index.cases ("thm_" ++ number)
      (found.1.find? fun c => c.matchedEventId = matchedEventId, found.2)

end HistoricalCaseIndex

/-- The labels of the event of today. -/
structure TodayContext where
  orderedTypeIds : List CatalystType
  direction : Direction
  certainty : Certainty
  leaderCodes : Finset String
  typed : orderedTypeIds ≠ []

def TodayContext.primaryTypeId (today : TodayContext) : CatalystType :=
  today.orderedTypeIds.head today.typed

def maxItems : Nat := 20

/-- The least score that is shown. -/
def minScore : ℚ := binary64 (35 / 100)

/-- The weight of the primary type. -/
def primaryWeight : ℚ := binary64 (45 / 100)

/-- The weight of the common types. -/
def overlapWeight : ℚ := binary64 (25 / 100)

/-- The weight of the direction. -/
def directionWeight : ℚ := binary64 (15 / 100)

/-- The weight of the certainty. -/
def certaintyWeight : ℚ := binary64 (5 / 100)

def leaderWeight : ℚ := binary64 (10 / 100)

/-- A past event with its score. -/
structure ScoredCase where
  case : PastCase
  score : ℚ
  reasons : List String

/-- Part of a weight, in floating point. -/
def weighted (weight : ℚ) (part whole : Nat) : ℚ :=
  binary64 (weight * binary64 ((part : ℚ) / (whole : ℚ)))

/-- More of a score, in floating point, under a condition. -/
def raise (score weight : ℚ) (p : Prop) [Decidable p] : ℚ :=
  if p then binary64 (score + weight) else score

/-- How much a past event has in common with today. -/
def scoreOf (today : TodayContext) (c : PastCase) : Option ScoredCase :=
  let todayTypes := today.orderedTypeIds.toFinset
  let caseTypes := c.orderedTypeIds.toFinset
  let shared := todayTypes ∩ caseTypes
  if shared = ∅ then none
  else
    let samePrimary := today.primaryTypeId = c.primaryTypeId
    let sameDirection := today.direction = c.direction ∧ c.direction ≠ .unknown
    let sameCertainty := today.certainty = c.certainty ∧ c.certainty ≠ .unspecified
    let overlap := today.leaderCodes ∩ c.leaderCodes
    let score := weighted overlapWeight shared.card (todayTypes ∪ caseTypes).card
    let score := raise score primaryWeight samePrimary
    let score := raise score directionWeight sameDirection
    let score := raise score certaintyWeight sameCertainty
    let score := raise score (weighted leaderWeight overlap.card today.leaderCodes.card)
      (overlap ≠ ∅)
    let names := (today.orderedTypeIds.filter (· ∈ shared)).map CatalystType.nameKo
    some ⟨c, score, (if samePrimary then ["같은 주 소재"] else []) ++ names ++
      (if sameDirection then ["같은 방향"] else []) ++
      (if overlap ≠ ∅ then ["주도주 중첩"] else [])⟩

/-- The order of the events: by score, the later ones first. -/
def ScoredCase.key (scored : ScoredCase) : ℚ ×ₗ ℤ ×ₗ String :=
  toLex (-scored.score, toLex (-(scored.case.marketDate.toOrdinal : ℤ), scored.case.matchedEventId))

/-- The past events before a date that are most like today. -/
def rankCases (today : TodayContext) (cases : List PastCase) (before : Date) (limit : Nat) :
    List ScoredCase :=
  let scored := (cases.filter fun c => c.marketDate < before).filterMap (scoreOf today)
  (ranked ScoredCase.key (scored.filter fun s => minScore ≤ s.score)).take limit

/-- A past event as it is shown. -/
structure SimilarEventItem where
  matchedEventId : String
  marketDate : String
  displayNameAtEvent : String
  normalizedCatalystSummary : String
  similarityReasons : List String

/-- A past event as it is shown. -/
def ScoredCase.item (scored : ScoredCase) : SimilarEventItem :=
  ⟨scored.case.matchedEventId, scored.case.marketDate.isoformat, scored.case.displayNameAtEvent,
    scored.case.catalystSummary, scored.reasons⟩

/-- The past events that are shown, and whether there are more. -/
structure SimilarEvents where
  availability : String
  items : List SimilarEventItem
  hasMore : Bool
  limit : Nat

/-- The past events like one of today. -/
def similarEventsData [Sha256] (index : HistoricalCaseIndex) (themeId : String)
    (today : Option TodayContext) (marketDate : Date) (limit : Nat) :
    SimilarEvents × HistoricalCaseIndex :=
  match today with
  | none => (⟨"UNAVAILABLE", [], false, limit⟩, index)
  | some today =>
    let found := index.cases themeId
    let shown := rankCases today found.1 marketDate (limit + 1)
    (⟨"AVAILABLE", (shown.take limit).map ScoredCase.item, decide (limit < shown.length), limit⟩,
      found.2)

/-- How many reactions a group needs. -/
def minGroupEvents : Nat := 5

def topGroups : Nat := 3

/-- What the prices say of a day: the return of a basket in per cent. -/
structure SameDaySource where
  basketDailyReturn : List String → Date → Option Decimal

/-- A past event with the reaction of the day. -/
abbrev Reaction : Type := PastCase × Option ℚ

/-- The past events of one type and the reactions to them. -/
structure CatalystGroup where
  catalystId : String
  themeId : String
  typeId : CatalystType
  nameKo : String
  eligibleCount : Nat
  observedCount : Nat
  positiveCount : Nat
  medianSameDay : ℚ
  p25SameDay : Option ℚ
  events : List Reaction

/-- The median of some numbers, in floating point. -/
def median (values : List ℚ) : ℚ :=
  let sorted := ranked id values
  let middle := sorted.length / 2
  if sorted.length % 2 = 1 then sorted.getD middle 0
  else binary64 (binary64 (sorted.getD (middle - 1) 0 + sorted.getD middle 0) / 2)

/-- The number below which a quarter of the numbers are. -/
def lowerQuartile (values : List ℚ) : Option ℚ :=
  let position := ⌊binary64 (25 / 100 * values.length)⌋.toNat
  (ranked id values)[min position (values.length - 1)]?

def catalystId (themeId typeId : String) : String := "ctl_" ++ themeId ++ "_" ++ typeId

def typeOf? (typeId : String) : Option CatalystType := vocabulary.find? fun t => t.typeId = typeId

/-- The theme and the type in the id of a group. -/
def splitCatalystId [UnicodeTable] (catalystId : String) : Option (String × CatalystType) :=
  if "ctl_thm_".toList.isPrefixOf catalystId.toList then
    let rest := catalystId.toList.drop "ctl_thm_".length
    let number := String.ofList (rest.takeWhile (· != '_'))
    match rest.dropWhile (· != '_') with
    | [] => none
    | _ :: typeId =>
      if isDigitText number then (typeOf? (String.ofList typeId)).map fun t => ("thm_" ++ number, t)
      else none
  else none

/-- The reaction to a past event. -/
def reaction (sameDay : SameDaySource) (c : PastCase) : Reaction :=
  (c, (sameDay.basketDailyReturn (c.basket.map Prod.fst) c.marketDate).map fun value =>
    roundDigits 6 (binary64 (binary64 value.value / 100)))

/-- The group of some reactions to one type, when enough of them are known. -/
def catalystGroup (themeId : String) (type : CatalystType) (rows : List Reaction) :
    Option CatalystGroup :=
  let observed := rows.filterMap Prod.snd
  if observed.length < minGroupEvents then none
  else some
    { catalystId := catalystId themeId type.typeId
      themeId
      typeId := type
      nameKo := type.nameKo
      eligibleCount := rows.length
      observedCount := observed.length
      positiveCount := (observed.filter fun value => 0 < value).length
      medianSameDay := roundDigits 6 (median observed)
      p25SameDay := lowerQuartile observed
      events := ranked (fun row => OrderDual.toDual row.1.marketDate) rows }

/-- The order of the groups: by median, quartile and number of reactions. -/
def CatalystGroup.key (group : CatalystGroup) : ℚ ×ₗ ℚ ×ₗ ℤ ×ₗ String :=
  toLex (-group.medianSameDay, toLex (-group.p25SameDay.getD 0,
    toLex (-(group.observedCount : ℤ), group.typeId.typeId)))

/-- The index of past events with the groups of the themes that were looked up. -/
structure CatalystGroupIndex where
  index : HistoricalCaseIndex
  sameDay : Option SameDaySource
  cached : Dict String (List CatalystGroup)

namespace CatalystGroupIndex

/-- The groups of an index of past events. -/
def ofIndex (index : HistoricalCaseIndex) (sameDay : Option SameDaySource) : CatalystGroupIndex :=
  ⟨index, sameDay, .empty⟩

variable [Sha256]

/-- The groups of a theme, looked up once. -/
def groups (groupIndex : CatalystGroupIndex) (themeId : String) :
    List CatalystGroup × CatalystGroupIndex :=
  match groupIndex.cached.get? themeId with
  | some cached => (cached, groupIndex)
  | none =>
    match groupIndex.sameDay with
    | none => ([], { groupIndex with cached := groupIndex.cached.set themeId [] })
    | some sameDay =>
      let found := groupIndex.index.cases themeId
      let buckets := grouped (fun row : Reaction => row.1.primaryTypeId)
        (found.1.map (reaction sameDay))
      let built := ranked CatalystGroup.key
        (buckets.entries.filterMap fun (type, rows) => catalystGroup themeId type rows)
      (built, { groupIndex with index := found.2, cached := groupIndex.cached.set themeId built })

variable [UnicodeTable]

def groupOf (groupIndex : CatalystGroupIndex) (catalystId : String) :
    Option CatalystGroup × CatalystGroupIndex :=
  match splitCatalystId catalystId with
  | none => (none, groupIndex)
  | some (themeId, type) =>
    let found := groupIndex.groups themeId
    (found.1.find? fun group => group.typeId = type, found.2)

end CatalystGroupIndex

structure CatalystItem where
  catalystId : String
  catalystName : String
  eligibleCount : Nat
  observedCount : Nat
  medianSameDayReturn : ℚ
  matchesToday : Bool

def CatalystGroup.item (today : Option TodayContext) (group : CatalystGroup) : CatalystItem :=
  ⟨group.catalystId, group.nameKo, group.eligibleCount, group.observedCount, group.medianSameDay,
    today.any fun context => context.orderedTypeIds.contains group.typeId⟩

structure CatalystTop3 where
  items : List CatalystItem
  qualityNote : Option String

/-- The first groups of a theme. -/
def catalystTop3Data [Sha256] (groupIndex : CatalystGroupIndex) (themeId : String)
    (today : Option TodayContext) : CatalystTop3 × CatalystGroupIndex :=
  let found := groupIndex.groups themeId
  let shown := found.1.take topGroups
  (⟨shown.map (CatalystGroup.item today),
    if shown = [] then some "표본이 모자라 과거 반응을 요약하지 못했습니다." else none⟩, found.2)

end Dayjaview.HistoricalMatching
