import Dayjaview.Core.Builtins
import Dayjaview.Core.Dict
import Dayjaview.Core.Ranking
import Dayjaview.Ontology.Names

/-!
# The company master

References to stocks are collected by stock code and name. Each code is a company,
except that a preferred share belongs to the company of the common share when name and
code both say so. The names of a company are valid while the exchange lists them, or
else while they were observed.
-/

namespace Dayjaview.Ontology

/-- How a name belongs to its company. -/
inductive AliasType where
  | currentName
  | pastName
  | shareClassName
  deriving DecidableEq

inductive ShareClass where
  | common
  | preferred
  | unknown
  deriving DecidableEq

/-- Why an instrument belongs to a company. -/
inductive LinkBasis where
  | stockCode
  | shareClassNameAndCode
  deriving DecidableEq

inductive SourceAuthority where
  | currentMembership
  | historicalReference
  | dailyReference
  | krxListing
  deriving DecidableEq

/-- Where the name of a company comes from, if it has one. -/
inductive NameBasis where
  | source (authority : SourceAuthority)
  | unknown
  deriving DecidableEq

/-- What the days of a name rest on. -/
inductive ValidityBasis where
  | observedMention
  | krxListing
  deriving DecidableEq

/-- What happened to a company. -/
inductive ChangeType where
  | created
  | nameChanged
  | instrumentLinked
  deriving DecidableEq

/-- Where a reference stands, in the order of the names of the places. -/
inductive ReviewSourceKind where
  | historyLeader
  | historyMember
  | themeMembership
  deriving DecidableEq

/-- Why a reference belongs to no company. -/
inductive ReviewReason where
  | sourceCodeMissing
  | codeInvalid
  deriving DecidableEq

/-- How good a reference of the source is. -/
inductive ReferenceQualityStatus where
  | ok
  | sourceCodeMissing
  | codeInvalid
  deriving DecidableEq

/-- A stock that a history names. -/
structure StockReference where
  name : String
  stockCode : Option String
  qualityStatus : ReferenceQualityStatus

structure ThemeMembership where
  stockCode : Option String
  stockName : String
  qualityStatus : ReferenceQualityStatus

/-- What happened to a theme on a day. -/
structure ThemeHistory where
  eventDate : Option Date
  leaders : List StockReference
  memberStocks : List StockReference

structure ThemeDetail where
  sourceThemeId : String
  history : List ThemeHistory
  memberships : List ThemeMembership

/-- The days on which an exchange listed a stock under a name. -/
structure KrxNameWindow where
  stockCode : String
  name : String
  market : String
  firstDate : Date
  lastDate : Date

/-- The listed names, and the last trading day of each market. -/
structure KrxNameIndex where
  marketLastDates : Dict String Date
  windows : List KrxNameWindow

def KrxNameIndex.isOpen (index : KrxNameIndex) (window : KrxNameWindow) : Bool :=
  index.marketLastDates.get? window.market == some window.lastDate

/-- The names of a stock in the order of their days. -/
def KrxNameIndex.byCode (index : KrxNameIndex) (code : String) : List KrxNameWindow :=
  ranked (fun window => toLex (window.firstDate, window.name))
    (index.windows.filter (·.stockCode = code))

/-- A name of a company and the days it was seen on. -/
structure CompanyAliasDraft where
  aliasName : String
  normalizedAlias : String
  aliasType : AliasType
  validityBasis : ValidityBasis
  sourceAuthority : SourceAuthority
  validFrom : Option Date
  validTo : Option Date
  mentionCount : Nat
  deriving DecidableEq

/-- The name was in use on a day. A missing bound is open, and so is a missing day. -/
def CompanyAliasDraft.covers (draft : CompanyAliasDraft) : Option Date → Bool
  | none => true
  | some asOf => draft.validFrom.all (· ≤ asOf) && draft.validTo.all (asOf ≤ ·)

structure CompanyInstrumentDraft where
  stockCode : String
  shareClass : ShareClass
  linkBasis : LinkBasis
  validFrom : Option Date
  validTo : Option Date
  deriving DecidableEq

structure CompanyRevisionDraft where
  changeType : ChangeType
  effectiveOn : Option Date
  previousValue : Option String
  newValue : Option String
  deriving DecidableEq

structure CompanyDraft where
  seedStockCode : String
  canonicalName : String
  nameBasis : NameBasis
  dartCorpCode : Option String
  aliases : List CompanyAliasDraft
  instruments : List CompanyInstrumentDraft
  revisions : List CompanyRevisionDraft
  deriving DecidableEq

/-- A reference that belongs to no company. -/
structure UnresolvedReferenceDraft where
  sourceKind : ReviewSourceKind
  sourceName : String
  normalizedName : String
  reason : ReviewReason
  mentionCount : Nat
  firstEventDate : Option Date
  lastEventDate : Option Date
  deriving DecidableEq

structure CompanyMaster where
  companies : List CompanyDraft
  unresolved : List UnresolvedReferenceDraft
  deriving DecidableEq

/-- How far a source is trusted. -/
def authorityRank : SourceAuthority → Nat
  | .currentMembership => 30
  | .historicalReference => 20
  | .dailyReference => 10
  | .krxListing => 0

/-- The earlier of two dates, if there are any. -/
def earlierDate (known : Option Date) (day : Option Date) : Option Date :=
  match day, known with
  | none, known => known
  | some day, none => some day
  | some day, some known => if day < known then some day else some known

/-- The later of two dates, if there are any. -/
def laterDate (known : Option Date) (day : Option Date) : Option Date :=
  match day, known with
  | none, known => known
  | some day, none => some day
  | some day, some known => if known < day then some day else some known

/-- What was observed of a code under a name. -/
structure NameObservation where
  name : String
  authority : SourceAuthority
  rank : Nat
  sequence : Nat
  mentionCount : Nat
  firstEventDate : Option Date
  lastEventDate : Option Date

def NameObservation.observe (entry : NameObservation) (authority : SourceAuthority)
    (rank sequence : Nat) (eventDate : Option Date) : NameObservation :=
  let better := rank > entry.rank ∨ (rank = entry.rank ∧ sequence < entry.sequence)
  { entry with
    mentionCount := entry.mentionCount + 1
    authority := if better then authority else entry.authority
    rank := if better then rank else entry.rank
    sequence := if better then sequence else entry.sequence
    firstEventDate := earlierDate entry.firstEventDate eventDate
    lastEventDate := laterDate entry.lastEventDate eventDate }

/-- What was observed of a name that belongs to no company. -/
structure UnresolvedAccumulator where
  reason : ReviewReason
  mentionCount : Nat
  firstEventDate : Option Date
  lastEventDate : Option Date
  names : Dict String Nat

def UnresolvedAccumulator.observe (accumulator : UnresolvedAccumulator) (name : String)
    (eventDate : Option Date) : UnresolvedAccumulator :=
  { accumulator with
    mentionCount := accumulator.mentionCount + 1
    names := accumulator.names.set name ((accumulator.names.get? name).getD 0 + 1)
    firstEventDate := earlierDate accumulator.firstEventDate eventDate
    lastEventDate := laterDate accumulator.lastEventDate eventDate }

/-- The most frequent of the names. -/
def UnresolvedAccumulator.representativeName (accumulator : UnresolvedAccumulator) : String :=
  match (ranked (fun item => toLex (-(item.2 : Int), item.1)) accumulator.names.entries).head? with
  | some item => item.1
  | none => ""

/-- Where a reference stands, as the keys of the unresolved ones are ordered. -/
def ReviewSourceKind.place : ReviewSourceKind → Nat
  | .historyLeader => 0
  | .historyMember => 1
  | .themeMembership => 2

structure Sighting where
  code : Option String
  name : String
  authority : SourceAuthority
  eventDate : Option Date
  kind : ReviewSourceKind
  qualityStatus : ReferenceQualityStatus

structure Observations where
  sequence : Nat
  byCode : Dict String (Dict String NameObservation)
  unresolved : Dict (ReviewSourceKind × String) UnresolvedAccumulator

variable [UnicodeTable] [Compatibility]

def Observations.observe (s : Observations) (x : Sighting) : Observations :=
  let sequence := s.sequence + 1
  match x.code.filter isStockCode with
  | some code =>
    let byName := (s.byCode.get? code).getD .empty
    let rank := authorityRank x.authority
    let entry := (byName.get? x.name).getD ⟨x.name, x.authority, rank, sequence, 0, none, none⟩
    { s with
      sequence
      byCode := s.byCode.set code
        (byName.set x.name (entry.observe x.authority rank sequence x.eventDate)) }
  | none =>
    let reason := if x.code.isSome || x.qualityStatus == .codeInvalid then ReviewReason.codeInvalid
      else .sourceCodeMissing
    let key := (x.kind, normalizeCompanyName x.name)
    let accumulator := (s.unresolved.get? key).getD ⟨reason, 0, none, none, .empty⟩
    { s with sequence, unresolved := s.unresolved.set key (accumulator.observe x.name x.eventDate) }

/-- The references of the stocks of a theme. -/
def ThemeDetail.membershipSightings (detail : ThemeDetail) : List Sighting :=
  detail.memberships.map fun membership =>
    ⟨membership.stockCode, membership.stockName, .currentMembership, none, .themeMembership,
      membership.qualityStatus⟩

/-- The references of a history. -/
def ThemeHistory.sightings (history : ThemeHistory) : List Sighting :=
  let sighting := fun kind (reference : StockReference) =>
    (⟨reference.stockCode, reference.name, .historicalReference, history.eventDate, kind,
      reference.qualityStatus⟩ : Sighting)
  history.leaders.map (sighting .historyLeader) ++ history.memberStocks.map
  (sighting .historyMember)

/-- The themes in the order of their numbers. -/
def orderedDetails [CharTable] (details : List ThemeDetail) : Except Error (List ThemeDetail) := do
  let numbered ← details.mapM fun detail =>
    match intOfStr detail.sourceThemeId with
    | some number => .ok (number, detail)
    | none => .error ⟨.valueError, "invalid literal for int() with base 10: " ++
        String.ofList (Json.reprText detail.sourceThemeId)⟩
  return (ranked Prod.fst numbered).map Prod.snd

/-- All references in the order they are read. -/
def sightings [CharTable] (details : List ThemeDetail) : Except Error (List Sighting) := do
  let details ← orderedDetails details
  return details.flatMap ThemeDetail.membershipSightings ++
    details.flatMap fun detail => detail.history.flatMap ThemeHistory.sightings

def observations (xs : List Sighting) : Observations :=
  xs.foldl Observations.observe ⟨0, .empty, .empty⟩

/-- The order in which the present name is chosen. -/
def currentNameKey (entry : NameObservation) : ℤ ×ₗ ℤ ×ₗ ℤ ×ₗ ℕ :=
  let lastSeen : Nat := match entry.lastEventDate with
    | none => 0
    | some day => day.toOrdinal
  toLex (-(entry.rank : Int), toLex (-(lastSeen : Int),
    toLex (-(entry.mentionCount : Int), entry.sequence)))

/-- The present name of a code. -/
def currentName (byName : Dict String NameObservation) : String :=
  match (ranked currentNameKey byName.values).head? with
  | some entry => entry.name
  | none => ""

/-- The code of the common share that goes with a code. -/
def baseCode (code : String) : String := String.ofList (code.toList.take 5 ++ ['0'])

/-- The common share that a preferred share belongs to. -/
def mergeTarget (byCode : Dict String (Dict String NameObservation)) (code : String)
    (byName : Dict String NameObservation) : Option String :=
  let (baseName, hasSuffix) := splitShareClass (currentName byName)
  let base := baseCode code
  if !hasSuffix || baseName == "" || base == code then none
  else
    match byCode.get? base with
    | none => none
    | some names =>
      if (names.keys.map normalizeCompanyName).contains (normalizeCompanyName baseName) then
          some base
      else none

/-- The preferred shares with the common shares they belong to. -/
def mergedInto (byCode : Dict String (Dict String NameObservation)) : Dict String String :=
  .ofList (byCode.sortedEntries.filterMap fun (code, byName) =>
    (mergeTarget byCode code byName).map fun base => (code, base))

/-- The names that the exchange lists. -/
def listedAliases (aliasTypeForCurrent : AliasType) (windows : List KrxNameWindow)
    (index : Option KrxNameIndex) : Dict String CompanyAliasDraft :=
  windows.foldl (fun drafts window =>
    let isOpen := index.any (·.isOpen window)
    let normalized := normalizeCompanyName window.name
    drafts.set normalized
      { aliasName := window.name
        normalizedAlias := normalized
        aliasType := if isOpen then aliasTypeForCurrent else .pastName
        validityBasis := .krxListing
        sourceAuthority := .krxListing
        validFrom := some window.firstDate
        validTo := if isOpen then none else some window.lastDate
        mentionCount := 0 }) .empty

/-- The first of the listed names. -/
def earliestKey (windows : List KrxNameWindow) : Option String :=
  ((ranked (fun window => toLex (window.firstDate, window.name)) windows).head?).map fun window =>
    normalizeCompanyName window.name

/-- An observed name is put on top of the listed ones. -/
def observeAlias (current : String) (aliasTypeForCurrent : AliasType) (krxHasOpen : Bool)
    (earliest : Option String) (drafts : Dict String CompanyAliasDraft) (entry : NameObservation) :
    Dict String CompanyAliasDraft :=
  if isCodeDisplay entry.name then drafts
  else
    let normalized := normalizeCompanyName entry.name
    match drafts.get? normalized with
    | some found =>
      let validFrom :=
        match entry.firstEventDate, found.validFrom with
        | some first, some start =>
          if earliest == some normalized ∧ first < start then some first else some start
        | _, start => start
      drafts.set normalized
        { found with mentionCount := found.mentionCount + entry.mentionCount, validFrom }
    | none =>
      let isCurrent := entry.name == current && !krxHasOpen
      drafts.set normalized
        { aliasName := entry.name
          normalizedAlias := normalized
          aliasType := if isCurrent then aliasTypeForCurrent else .pastName
          validityBasis := .observedMention
          sourceAuthority := entry.authority
          validFrom := entry.firstEventDate
          validTo := if isCurrent then none else entry.lastEventDate
          mentionCount := entry.mentionCount }

def aliasDrafts (entries : List NameObservation) (current : String)
    (aliasTypeForCurrent : AliasType) (windows : List KrxNameWindow)
    (index : Option KrxNameIndex) : List CompanyAliasDraft :=
  let krxHasOpen := windows.any fun window => index.any (·.isOpen window)
  let drafts := entries.foldl
    (observeAlias current aliasTypeForCurrent krxHasOpen (earliestKey windows))
    (listedAliases aliasTypeForCurrent windows index)
  drafts.sortedEntries.map Prod.snd

/-- The names of a code that belongs to a company. -/
def codeAliases (byName : Dict String NameObservation) (aliasTypeForCurrent : AliasType)
    (index : Option KrxNameIndex) (code : String) : List CompanyAliasDraft :=
  aliasDrafts (byName.sortedEntries.map Prod.snd) (currentName byName) aliasTypeForCurrent
    ((index.map (·.byCode code)).getD []) index

/-- Further names, without those that are there under the same form and type. -/
def addAliases (aliases more : List CompanyAliasDraft) : List CompanyAliasDraft :=
  more.foldl (fun aliases draft =>
    if aliases.any fun seen => seen.normalizedAlias == draft.normalizedAlias &&
        seen.aliasType == draft.aliasType then aliases
    else aliases ++ [draft]) aliases

/-- The class of the share that a company is named after. -/
def seedShareClass (byCode : Dict String (Dict String NameObservation)) (seed name : String) :
    ShareClass :=
  let (_, hasSuffix) := splitShareClass name
  if hasSuffix && baseCode seed != seed && (byCode.get? (baseCode seed)).isSome then .unknown
  else .common

/-- The first day on which a code was seen. -/
def earliest (byName : Dict String NameObservation) : Option Date :=
  byName.values.foldl (fun known entry => earlierDate known entry.firstEventDate) none

/-- The name that stands for a company. -/
def canonicalName (aliases : List CompanyAliasDraft) (seed fallback : String)
    (fallbackBasis : NameBasis) : String × NameBasis :=
  match aliases.find? fun draft => draft.aliasType == .currentName &&
    draft.validityBasis == .krxListing with
  | some draft => (draft.aliasName, .source .krxListing)
  | none =>
    match aliases.find? fun draft => draft.aliasType == .currentName with
    | some draft => (draft.aliasName, .source draft.sourceAuthority)
    | none =>
      let listed := aliases.filterMap fun draft =>
        if draft.validityBasis = .krxListing then draft.validFrom.map fun start =>
            (start, draft.aliasName)
        else none
      match latestOf (fun item : Date × String => toLex item) listed with
      | some item => (item.2, .source .krxListing)
      | none => if isCodeDisplay fallback then (seed, .unknown) else (fallback, fallbackBasis)

/-- What the observations say about the history of a company. -/
def revisionDrafts (aliases : List CompanyAliasDraft) (extra : List (String × Option Date))
    (canonical : String) : List CompanyRevisionDraft :=
  let dated := ranked (fun item : Date × CompanyAliasDraft => toLex (item.1, item.2.aliasName))
    (aliases.filterMap fun draft =>
      if draft.aliasType = .shareClassName then none
      else draft.validFrom.map fun start => (start, draft))
  let created : CompanyRevisionDraft :=
    { changeType := .created
      effectiveOn := dated.head?.map (·.1)
      previousValue := none
      newValue := some ((dated.head?.map (·.2.aliasName)).getD canonical) }
  let renamed := (dated.zip dated.tail).filterMap fun ((_, previous), (startedOn, current)) =>
    if previous.validTo.any (· < startedOn) then
      some ⟨.nameChanged, some startedOn, some previous.aliasName, some current.aliasName⟩
    else none
  let linked := extra.map fun (code, linkedOn) =>
    (⟨.instrumentLinked, linkedOn, none, some code⟩ : CompanyRevisionDraft)
  created :: (renamed ++ linked)

/-- The company of a code, with the preferred shares that belong to it. -/
def buildCompany (byCode : Dict String (Dict String NameObservation))
    (corpCodes : Dict String String) (index : Option KrxNameIndex) (seed : String)
    (byName : Dict String NameObservation) (extra : List (String × Dict String NameObservation)) :
    CompanyDraft :=
  let current := currentName byName
  let aliases := extra.foldl
    (fun aliases e => addAliases aliases (codeAliases e.2 .shareClassName index e.1))
    (codeAliases byName .currentName index seed)
  let instruments := ⟨seed, seedShareClass byCode seed current, .stockCode, none, none⟩ ::
    extra.map fun e => ⟨e.1, .preferred, .shareClassNameAndCode, none, none⟩
  let fallbackBasis := match byName.get? current with
    | some entry => NameBasis.source entry.authority
    | none => .unknown
  let (canonical, nameBasis) := canonicalName aliases seed current fallbackBasis
  { seedStockCode := seed
    canonicalName := canonical
    nameBasis
    dartCorpCode := (corpCodes.get? seed).filter isCorpCode
    aliases
    instruments
    revisions := revisionDrafts aliases (extra.map fun e => (e.1, earliest e.2)) canonical }

/-- The companies of the codes. -/
def buildCompanies (byCode : Dict String (Dict String NameObservation))
    (corpCodes : Dict String String) (index : Option KrxNameIndex) : List CompanyDraft :=
  let merged := mergedInto byCode
  (byCode.sortedEntries.filter fun e => (merged.get? e.1).isNone).map fun (seed, byName) =>
    let extra := byCode.sortedEntries.filter fun e => merged.get? e.1 == some seed
    buildCompany byCode corpCodes index seed byName extra

/-- The references that wait for a review. -/
def reviews (unresolved : Dict (ReviewSourceKind × String) UnresolvedAccumulator) :
    List UnresolvedReferenceDraft :=
  (ranked (fun e => toLex (e.1.1.place, e.1.2)) unresolved.entries).map
    fun ((kind, normalized), accumulator) =>
      { sourceKind := kind
        sourceName := accumulator.representativeName
        normalizedName := normalized
        reason := accumulator.reason
        mentionCount := accumulator.mentionCount
        firstEventDate := accumulator.firstEventDate
        lastEventDate := accumulator.lastEventDate }

/-- The master of a collection. -/
def buildCompanyMaster [CharTable] (details : List ThemeDetail) (corpCodes : Dict String String)
    (krxNames : Option KrxNameIndex) : Except Error CompanyMaster := do
  let xs ← sightings details
  let s := observations xs
  return ⟨buildCompanies s.byCode corpCodes krxNames, reviews s.unresolved⟩

end Dayjaview.Ontology
