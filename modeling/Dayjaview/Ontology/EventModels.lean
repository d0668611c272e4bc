import Dayjaview.Core.Ranking
import Dayjaview.Ontology.Names
import Dayjaview.Ontology.QueryPlans

/-!
# Drafts of catalysts

What is read from a clause of a history: the stage, the companies, the amounts and the
evidence for each of them, with the reaction of the theme. A draft is identified by a
digest of what tells one event from another.
-/

namespace Dayjaview.Ontology

inductive EventStage where
  | rumor
  | review
  | discussion
  | bid
  | shortlist
  | preferredBidder
  | signed
  | executing
  | completed
  | delayed
  | cancelled
  | unspecified
  deriving DecidableEq

def EventStage.value : EventStage → String
  | rumor => "RUMOR"
  | review => "REVIEW"
  | discussion => "DISCUSSION"
  | bid => "BID"
  | shortlist => "SHORTLIST"
  | preferredBidder => "PREFERRED_BIDDER"
  | signed => "SIGNED"
  | executing => "EXECUTING"
  | completed => "COMPLETED"
  | delayed => "DELAYED"
  | cancelled => "CANCELLED"
  | unspecified => "UNSPECIFIED"

def eventStageRank : EventStage → Nat
  | .rumor => 10
  | .review => 20
  | .discussion => 30
  | .bid => 40
  | .shortlist => 50
  | .preferredBidder => 60
  | .signed => 70
  | .executing => 80
  | .completed => 90
  | .delayed => 95
  | .cancelled => 100
  | .unspecified => 0

inductive Officiality where
  | official
  | reported
  | unspecified
  deriving DecidableEq

inductive NoveltyType where
  | new
  | reemergence
  | unspecified
  deriving DecidableEq

/-- What an event means for a company. -/
inductive CompanyImpact where
  | positive
  | negative
  | mixed
  | unknown
  deriving DecidableEq

inductive ValueFactType where
  | contractValue
  | investmentValue
  | capacity
  | quantity
  | stakePercent
  deriving DecidableEq

/-- The text of a type of value. -/
def ValueFactType.value : ValueFactType → String
  | contractValue => "CONTRACT_VALUE"
  | investmentValue => "INVESTMENT_VALUE"
  | capacity => "CAPACITY"
  | quantity => "QUANTITY"
  | stakePercent => "STAKE_PERCENT"

inductive ValueBasis where
  | exact
  | estimate
  | upTo
  | lowerBound
  | range
  | totalProject
  | companyShare
  deriving DecidableEq

def ValueBasis.value : ValueBasis → String
  | exact => "EXACT"
  | estimate => "ESTIMATE"
  | upTo => "UP_TO"
  | lowerBound => "LOWER_BOUND"
  | range => "RANGE"
  | totalProject => "TOTAL_PROJECT"
  | companyShare => "COMPANY_SHARE"

inductive Certainty where
  | confirmed
  | anticipation
  | unspecified
  deriving DecidableEq

def Certainty.value : Certainty → String
  | confirmed => "CONFIRMED"
  | anticipation => "ANTICIPATION"
  | unspecified => "UNSPECIFIED"

inductive Direction where
  | up
  | down
  | mixed
  | unknown
  deriving DecidableEq

def Direction.value : Direction → String
  | up => "UP"
  | down => "DOWN"
  | mixed => "MIXED"
  | unknown => "UNKNOWN"

/-- What a company does in an event. -/
inductive CompanyRole where
  | actor
  | issuer
  | contractor
  | counterparty
  | target
  | beneficiary
  | adverselyAffected
  | leader
  | related
  deriving DecidableEq

inductive ActorKind where
  | company
  | government
  | publicInstitution
  | person
  | internationalOrganization
  | country
  | other
  deriving DecidableEq

/-- What a participant does in an event. -/
inductive ParticipantRole where
  | counterparty
  | location
  | participant
  deriving DecidableEq

/-- The words behind the stage of an event. -/
structure EventStageEvidence where
  stage : EventStage
  keyword : Option String
  start : Option Nat
  finish : Option Nat
  deriving DecidableEq

/-- A government or a country that a text names. -/
structure ActorMention where
  actorKey : String
  identityHash : String
  canonicalName : String
  actorKind : ActorKind
  geographyCode : Option String
  start : Nat
  finish : Nat
  evidenceText : String
  deriving DecidableEq

/-- A word behind the classification of an event. -/
structure CatalystEvidenceDraft where
  sourceOrder : Nat
  field : String
  value : String
  keyword : String
  start : Nat
  finish : Nat
  deriving DecidableEq

structure CatalystCompanyRoleDraft where
  seedStockCode : String
  role : CompanyRole
  impact : CompanyImpact
  evidenceStart : Nat
  evidenceEnd : Nat
  deriving DecidableEq

structure CatalystParticipantDraft where
  actor : ActorMention
  participantRole : ParticipantRole
  deriving DecidableEq

structure CatalystValueDraft where
  factType : ValueFactType
  reportedValue : String
  normalizedValue : Decimal
  unit : String
  currency : Option String
  valueBasis : ValueBasis
  eligibleForSum : Bool
  evidenceStart : Nat
  evidenceEnd : Nat
  deriving DecidableEq

structure SourceMentionDraft where
  sourceThemeId : String
  sourceHistoryKey : String
  clauseOrder : Nat
  sourceRevisionHash : String
  sourceTextHash : String
  start : Nat
  finish : Nat
  transformVersion : String
  outputHash : String
  deriving DecidableEq

structure ThemeReactionDraft where
  reactionKey : String
  sourceThemeId : String
  themeName : String
  sourceHistoryKey : String
  occurredOn : Option Date
  direction : Direction
  leaderStockCodes : List String
  relatedStockCodes : List String
  deriving DecidableEq

/-- What is read from a clause. -/
structure CatalystDraft where
  sourceMention : SourceMentionDraft
  rawText : String
  occurredOn : Option Date
  knownOn : Option Date
  primaryCatalystType : Option String
  catalystTypes : List String
  eventStage : EventStage
  stageEvidence : EventStageEvidence
  certainty : Certainty
  noveltyType : NoveltyType
  action : Option String
  objectText : Option String
  projectReference : Option String
  projectFingerprint : Option String
  projectId : Option String
  participants : List CatalystParticipantDraft
  companyRoles : List CatalystCompanyRoleDraft
  geographyCodes : List String
  values : List CatalystValueDraft
  officiality : Officiality
  continuation : Bool
  evidence : List CatalystEvidenceDraft
  reaction : ThemeReactionDraft
  ontologyVersion : String
  classificationTransformVersion : String
  companyMasterVersion : String
  transformVersion : String
  datasetHash : String
  contentHash : String
  dedupKey : String
  deriving DecidableEq

/-- What the digest of a mention is made of. -/
def SourceMentionDraft.payload (m : SourceMentionDraft) : Json :=
  .obj [("sourceThemeId", .str m.sourceThemeId), ("sourceHistoryKey", .str m.sourceHistoryKey),
    ("clauseOrder", .int m.clauseOrder), ("sourceRevisionHash", .str m.sourceRevisionHash),
    ("sourceTextHash", .str m.sourceTextHash), ("start", .int m.start), ("end", .int m.finish),
    ("transformVersion", .str m.transformVersion)]

/-- A list of texts without repetitions, sorted. -/
def sortedSet (texts : List String) : List String := ranked id texts.dedup

namespace CatalystDraft

def companyCodes (d : CatalystDraft) : List String :=
  sortedSet (d.companyRoles.map (·.seedStockCode))

/-- The participants of a draft. -/
def participantKeys (d : CatalystDraft) : List String :=
  ranked id (d.participants.map (·.actor.actorKey))

section
variable [Compatibility] [UnicodeTable]

/-- The digits, small letters and syllables of a text. -/
def normalizedClause (text : String) : String :=
  String.ofList (((Compatibility.nfkc text.toList).flatMap UnicodeTable.casefold).filter fun c =>
    ('0' ≤ c && c ≤ '9') || ('a' ≤ c && c ≤ 'z') || ('가' ≤ c && c ≤ '힣'))

/-- What tells one event from another. -/
def identity (d : CatalystDraft) : Json :=
  let participants := ("participants", Json.arr (d.participantKeys.map .str))
  .obj ([("occurredOn", optionalDate d.occurredOn), ("stage", .str d.eventStage.value),
    ("primaryType", optionalText d.primaryCatalystType),
    ("companyCodes", .arr (d.companyCodes.map .str)),
    ("values", .arr (d.values.map fun v => .arr [.str v.factType.value, .str v.normalizedValue.str,
      .str v.unit, optionalText v.currency, .str v.valueBasis.value])),
    ("missingDateSource", optionalText (match d.occurredOn with
      | none => some d.sourceMention.sourceHistoryKey
      | some _ => none))] ++
    match d.projectId with
    | none => [("normalizedClause", .str (normalizedClause d.rawText)), participants]
    | some projectId =>
      ("projectId", .str projectId) :: if d.companyCodes = [] then [participants] else [])

variable [Sha256]

/-- The digests of a draft are those of what they stand for, and a draft of a project names it. -/
structure Structured (d : CatalystDraft) : Prop where
  mention_hash : d.sourceMention.outputHash = jsonDigest d.sourceMention.payload
  dedup_key : d.dedupKey = jsonDigest d.identity
  project_named : d.projectId.isSome → d.projectFingerprint.isSome ∧ d.projectReference.isSome

end

/-- The dataset and the versions behind a draft. -/
def versions (d : CatalystDraft) : List String :=
  [d.datasetHash, d.ontologyVersion, d.classificationTransformVersion, d.companyMasterVersion,
    d.transformVersion]

end CatalystDraft

section
variable [Compatibility] [UnicodeTable] [Sha256]

theorem sourceMention_eq_of_outputHash (hinj : Function.Injective (hexdigest : String → String))
    {a b : CatalystDraft} (ha : a.Structured) (hb : b.Structured)
    (h : a.sourceMention.outputHash = b.sourceMention.outputHash) :
    a.sourceMention = b.sourceMention := by
  have hdigest := h
  rw [ha.mention_hash, hb.mention_hash] at hdigest
  have hsorted := sortKeys_eq_of_jsonDigest_eq hinj hdigest
  unfold SourceMentionDraft.payload at hsorted
  have hvalues := Json.values_eq_of_sortKeys_eq hsorted rfl (by simp)
  simp only [List.map_cons, List.map_nil, Json.sortKeys, List.cons.injEq, Json.str.injEq,
    Json.int.injEq, Nat.cast_inj, and_true] at hvalues
  obtain ⟨htheme, hhistory, hclause, hrevision, htext, hstart, hfinish, htransform⟩ := hvalues
  cases hma : a.sourceMention
  cases hmb : b.sourceMention
  rw [hma, hmb] at h htheme hhistory hclause hrevision htext hstart hfinish htransform
  simp_all

omit [Sha256] in
theorem identity_keys_nodup (d : CatalystDraft) : ∃ fields, d.identity = .obj fields ∧
    (fields.map Prod.fst).Nodup ∧ Json.field? fields "projectId" = d.projectId.map .str := by
  refine ⟨_, rfl, ?_, ?_⟩
  · cases d.projectId with
    | none => simp
    | some projectId => by_cases hcodes : d.companyCodes = [] <;> simp [hcodes]
  · cases d.projectId with
    | none => rfl
    | some projectId =>
      by_cases hcodes : d.companyCodes = [] <;> simp [hcodes, Json.field?, List.lookup_cons]

theorem projectId_eq_of_dedupKey (hinj : Function.Injective (hexdigest : String → String))
    {a b : CatalystDraft} (ha : a.Structured) (hb : b.Structured) (h : a.dedupKey = b.dedupKey) :
    a.projectId = b.projectId := by
  rw [ha.dedup_key, hb.dedup_key] at h
  have hsorted := sortKeys_eq_of_jsonDigest_eq hinj h
  obtain ⟨fs, hfs, hnodup, hfield⟩ := identity_keys_nodup a
  obtain ⟨gs, hgs, hnodup', hfield'⟩ := identity_keys_nodup b
  rw [hfs, hgs] at hsorted
  have hvalue := Json.field?_eq_of_sortKeys_eq hnodup hnodup' hsorted "projectId"
  rw [hfield, hfield'] at hvalue
  cases hpa : a.projectId <;> cases hpb : b.projectId <;>
    simp_all [Json.sortKeys]

end

end Dayjaview.Ontology
