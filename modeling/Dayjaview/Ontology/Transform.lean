import Dayjaview.Ontology.CauseSentence
import Dayjaview.Ontology.EventModels
import Dayjaview.Ontology.Vocabulary
import Mathlib.Data.Prod.Lex

/-!
# From a cause to its labels

A cause is labelled with types, a direction, how certain it is and whether it goes on, each with the
words that say so. The type of the first word comes first, but a measure of policy or a market index
may take its place.
-/

namespace Dayjaview.Ontology

/-- What a piece of evidence is for. -/
inductive EvidenceField where
  | catalystType
  | direction
  | certainty
  | continuation
  deriving DecidableEq

/-- A word of the text that says something. -/
structure EvidenceSpan where
  field : EvidenceField
  value : String
  keyword : String
  start : Nat
  stop : Nat

structure CatalystClassification where
  typeIds : List CatalystType
  direction : Direction
  certainty : Certainty
  continuation : Bool
  evidenceSpans : List EvidenceSpan

abbrev Occurrence : Type := Nat × String

/-- The words of a list in the first characters of a text. -/
def occurrences (text : List Char) (words : List String) (stop : Nat) : List Occurrence :=
  words.flatMap fun word => (findAll text word.toList stop).map fun position => (position, word)

def spanOf (field : EvidenceField) (value : String) (found : Occurrence) : EvidenceSpan :=
  ⟨field, value, found.2, found.1, found.1 + found.2.length⟩

/-- The first word of a text, the smaller one of two at one place. -/
def firstOccurrence (found : List Occurrence) : Option Occurrence :=
  (ranked (fun o : Occurrence => toLex (o.1, o.2)) found).head?

/-- The last word of a text, the larger one of two at one place. -/
def lastOccurrence (found : List Occurrence) : Option Occurrence :=
  (ranked (fun o : Occurrence => toLex (o.1, o.2)) found).getLast?

def directionOf (token : String) : Direction :=
  if token ∈ upDirectionTokens then .up else if token ∈ downDirectionTokens then .down else .mixed

/-- Up to where words for both directions are looked for. -/
def directionScanEnd (parsed : ParsedCauseSentence) : Nat :=
  match parsed.tailText with
  | none => parsed.coreEnd
  | some tail => parsed.coreEnd + tail.length + 8

def classifyDirection (parsed : ParsedCauseSentence) : Direction × List EvidenceSpan :=
  let text := parsed.rawText.toList
  match firstOccurrence (occurrences text mixedDirectionTokens (directionScanEnd parsed)) with
  | some found => (.mixed, [spanOf .direction Direction.mixed.value found])
  | none =>
    match parsed.directionVerb with
    | some (verb, start) =>
      (directionOf verb, [spanOf .direction (directionOf verb).value (start, verb)])
    | none =>
      match lastOccurrence
        (occurrences text (upDirectionTokens ++ downDirectionTokens) text.length) with
      | some found => (directionOf found.2, [spanOf .direction (directionOf found.2).value found])
      | none => (.unknown, [])

/-- A word for the certainty of a cause that ends farther to the right, or is longer, wins. -/
def laterMarker (chosen candidate : Certainty × Occurrence) : Certainty × Occurrence :=
  let rank (c : Certainty × Occurrence) : ℕ ×ₗ ℕ := toLex (c.2.1 + c.2.2.length, c.2.2.length)
  if rank chosen < rank candidate then candidate else chosen

def classifyCertainty (parsed : ParsedCauseSentence) : Certainty × List EvidenceSpan :=
  let text := parsed.rawText.toList
  let candidates :=
    (occurrences text anticipationMarkers parsed.coreEnd).map
    (fun o => (Certainty.anticipation, o)) ++
      (occurrences text confirmedMarkers parsed.coreEnd).map fun o => (Certainty.confirmed, o)
  match candidates with
  | [] => (.unspecified, [])
  | first :: rest =>
    let chosen := rest.foldl laterMarker first
    (chosen.1, [spanOf .certainty chosen.1.value chosen.2])

def classifyContinuation (parsed : ParsedCauseSentence) : Bool × List EvidenceSpan :=
  let text := parsed.rawText.toList
  let found := continuationMarkers.filterMap fun marker =>
    (findAll text marker.toList parsed.coreEnd).head?.map fun position => (position, marker)
  match firstOccurrence found with
  | none => (false, [])
  | some first => (true, [spanOf .continuation "CONTINUATION" first])

/-- A word of the vocabulary at its place. -/
structure TypeMatch where
  position : Nat
  rank : Nat
  type : CatalystType
  keyword : String

/-- The order of the words: by place, the longer ones first. -/
def TypeMatch.key (found : TypeMatch) : ℕ ×ₗ ℤ ×ₗ ℕ ×ₗ String ×ₗ String :=
  toLex (found.position, toLex (-(found.keyword.length : ℤ), toLex (found.rank,
    toLex (found.type.typeId, found.keyword))))

def TypeMatch.span (found : TypeMatch) : EvidenceSpan :=
  spanOf .catalystType found.type.typeId (found.position, found.keyword)

/-- The words of the vocabulary in order. -/
def typeMatches (text : List Char) (coreEnd : Nat) : List TypeMatch :=
  ranked TypeMatch.key (vocabulary.zipIdx.flatMap fun (type, rank) =>
    (occurrences text type.keywords coreEnd).map fun (position, keyword) =>
      ⟨position, rank, type, keyword⟩)

/-- The words that do not begin within an earlier one. -/
def acceptMatches : Nat → List TypeMatch → List TypeMatch
  | _, [] => []
  | claimedEnd, found :: rest =>
    if found.position < claimedEnd then acceptMatches claimedEnd rest
    else found :: acceptMatches (found.position + found.keyword.length) rest

/-- The words for subjects in order. -/
def fallbackMatches (text : List Char) (coreEnd : Nat) : List TypeMatch :=
  ranked TypeMatch.key (fallbackVocabulary.flatMap fun (type, keywords) =>
    (occurrences text keywords coreEnd).map fun (position, keyword) => ⟨position, 0, type, keyword⟩)

/-- A word for a type that was not found before. -/
def addFallback (found : List CatalystType × List EvidenceSpan) (subject : TypeMatch) :
    List CatalystType × List EvidenceSpan :=
  if subject.type ∈ found.1 then found
  else (found.1 ++ [subject.type], found.2 ++ [subject.span])

/-- Where nothing else was found, a word for a direction tells of a market. -/
def marketFallback (text : List Char) (coreEnd : Nat) : List CatalystType × List EvidenceSpan :=
  match firstOccurrence
    (occurrences text (upDirectionTokens ++ downDirectionTokens) coreEnd) with
  | none => ([], [])
  | some found =>
    ([.marketSync], [spanOf .catalystType CatalystType.marketSync.typeId found])

/-- The types that were found, in the order of the text. -/
def foundTypes (text : List Char) (coreEnd : Nat) : List CatalystType × List EvidenceSpan :=
  let accepted := acceptMatches 0 (typeMatches text coreEnd)
  let found := (fallbackMatches text coreEnd).foldl addFallback
    ((accepted.map TypeMatch.type).eraseDups, accepted.map TypeMatch.span)
  if found.1 = [] then marketFallback text coreEnd else found

/-- Words for a measure of policy. -/
def strongPolicyMarkers : List String :=
  ["대책", "방안", "지원", "예산", "법안", "개정안", "법제화", "규제", "보조금", "세액공제", "세제",
    "감세", "비과세", "추경", "행정명령", "의무화", "시행령", "특별법", "국정과제", "시범사업",
    "금지", "불허", "육성", "법사위"]

/-- The types that a measure of policy may come before. -/
def policyContextTypes : List CatalystType :=
  [.politicsElection, .flowTechnical, .clinicalRegulatory, .investmentCapacity, .analystOpinion,
    .disasterIncident, .legalRisk, .mnaStake, .epidemicDisease]

def marketIndexMarkers : List String :=
  ["필라델피아", "반도체지수", "반도체 지수", "나스닥", "다우", "증시", "코스피", "코스닥"]

/-- A measure of policy belongs to the event of the primary type. -/
def policyIsSameEvent (core : List Char) (primary : CatalystType) (spans : List EvidenceSpan) :
    Bool :=
  let primaryStarts := (spans.filter fun span => span.value = primary.typeId).map EvidenceSpan.start
  let policyStarts := (occurrences core strongPolicyMarkers core.length).map Prod.fst
  match primaryStarts.min? with
  | none => false
  | some first => policyStarts.any fun position => sameCauseEvent core first position

def promote (type : CatalystType) (types : List CatalystType) : List CatalystType :=
  type :: types.erase type

def orderedTypes (core : List Char) (types : List CatalystType) (spans : List EvidenceSpan) :
    List CatalystType :=
  match types with
  | [] => []
  | primary :: _ =>
    if primary ∈ policyContextTypes ∧ .policyMeasure ∈ types ∧
        policyIsSameEvent core primary spans = true then promote .policyMeasure types
    else if primary = .flowTechnical ∧ .marketSync ∈ types ∧
        marketIndexMarkers.any (fun marker => (findAll core marker.toList core.length) ≠ []) =
        true then
      promote .marketSync types
    else types

def classifyTypes (parsed : ParsedCauseSentence) : List CatalystType × List EvidenceSpan :=
  let text := parsed.rawText.toList
  let found := foundTypes text parsed.coreEnd
  (orderedTypes (text.take parsed.coreEnd) found.1 found.2, found.2)

def classifyCatalyst (rawText : String) : CatalystClassification :=
  let parsed := parseCauseSentence rawText
  let types := classifyTypes parsed
  let direction := classifyDirection parsed
  let certainty := classifyCertainty parsed
  let continuation := classifyContinuation parsed
  ⟨types.1, direction.1, certainty.1, continuation.1,
    types.2 ++ direction.2 ++ certainty.2 ++ continuation.2⟩

theorem orderedTypes_perm (core : List Char) (types : List CatalystType)
    (spans : List EvidenceSpan) : (orderedTypes core types spans).Perm types := by
  unfold orderedTypes
  split
  · exact .refl _
  · split
    · next h => exact (List.perm_cons_erase h.2.1).symm
    · split
      · next h => exact (List.perm_cons_erase h.2.1).symm
      · exact .refl _

theorem typeIds_perm (rawText : String) : (classifyCatalyst rawText).typeIds.Perm
    (foundTypes rawText.toList (coreEndOf rawText.toList)).1 := by
  simp only [classifyCatalyst, classifyTypes, parseCauseSentence_rawText,
    parseCauseSentence_coreEnd]
  exact orderedTypes_perm _ _ _

theorem foundTypes_ne_nil {text : List Char} {coreEnd : Nat}
    (h : occurrences text (upDirectionTokens ++ downDirectionTokens) coreEnd ≠ []) :
    (foundTypes text coreEnd).1 ≠ [] := by
  unfold foundTypes
  dsimp only
  split
  · unfold marketFallback
    split
    · next hnone =>
      rw [firstOccurrence, List.head?_eq_none_iff] at hnone
      exact absurd (List.Perm.eq_nil (hnone ▸ ranked_perm.symm)) h
    · exact List.cons_ne_nil _ _
  · next hsome => exact hsome

end Dayjaview.Ontology
