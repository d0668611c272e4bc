import Dayjaview.Core.Scanning
import Dayjaview.Ontology.CauseSentence

/-!
# The clauses of a cause

The reason of a cause is cut at its hard breaks. Each range between them is cut again at a soft
break if an action stands on both sides of it. What is left of a piece without the characters at its
edges is a clause.
-/

namespace Dayjaview.Ontology

open Scanning

/-- The characters between two places. -/
def piece (text : List Char) (m : Nat × Nat) : List Char := (text.take m.2).drop m.1

/-- The character before a place. -/
def previous (text : List Char) (place : Nat) : Option Char :=
  if place = 0 then none else text[place - 1]?

/-- Where the run of some characters ends that begins at a place. -/
def runEnd (p : Char → Bool) (text : List Char) (place : Nat) : Nat :=
  place + ((text.drop place).takeWhile p).length

/-- A mark at the end of a sentence. -/
def isSentenceEnd (c : Char) : Bool := c == '.' || c == '!' || c == '?' || c == '。'

/-- A syllable, a letter or a digit. -/
def isNameChar (c : Char) : Bool := ('가' ≤ c && c ≤ '힣') || c.isAlphanum

/-- Where the hard break ends that begins at a place. -/
def hardBreakAt (core : List Char) (place : Nat) : Option Nat :=
  match core[place]? with
  | none => none
  | some c =>
    if c == ';' || c == '；' then some (runEnd isSpace core (place + 1))
    else if c == '\n' then some (runEnd (· == '\n') core place)
    else if isSpace c && (previous core place).any isSentenceEnd then
      some (runEnd isSpace core place)
    else if (c == ',' || c == '·') && "소식".toList.isSuffixOf (core.take place) &&
        core[runEnd isSpace core (place + 1)]?.any isNameChar then
      some (runEnd isSpace core (place + 1))
    else none

/-- A character before a comma within a number. -/
def joinsNumber (c : Char) : Bool := c.isDigit || c == '조' || c == '억' || c == '만'

/-- Where the soft break ends that begins at a place. A comma behind a number is none if a digit
follows it, and it leaves a blank before a digit that follows blanks. -/
def softBreakAt (text : List Char) (place : Nat) : Option Nat :=
  match text[place]? with
  | none => none
  | some c =>
    if isSpace c then
      let middle := runEnd isSpace text place
      if text[middle]? = some '및' && text[middle + 1]?.any isSpace then
        some (runEnd isSpace text (middle + 1))
      else none
    else if c == '·' then some (runEnd isSpace text (place + 1))
    else if c == ',' then
      let stop := runEnd isSpace text (place + 1)
      if !(previous text place).any joinsNumber || !text[stop]?.any Char.isDigit then some stop
      else if place + 1 < stop then some (stop - 1)
      else none
    else none

def ACTION_MARKERS : List String :=
  ["공급계약 체결", "수주계약 체결", "본계약 체결", "계약 체결", "우선협상대상자 선정", "입찰 참여", "승인 신청",
    "허가 신청", "투자 결정", "합병 결정", "인수 추진", "납품 완료", "공급 개시", "생산 개시", "개발 성공",
    "업무협약 체결", "양해각서 체결", "계약 해지", "수주 취소", "수주", "투자", "개발", "승인", "허가", "발표",
    "공급", "납품", "인수", "합병", "제재", "규제", "출시", "공개", "생산", "착공", "완공", "취소", "해지"]

/-- A word for an action stands in the text. -/
def containsAction (text : List Char) : Bool :=
  ACTION_MARKERS.any fun marker => text.tails.any marker.toList.isPrefixOf

/-- The hard breaks of the reason. -/
def hardBreaks (core : List Char) : List (Nat × Nat) := finditer (hardBreakAt core) 0 core.length

/-- Each even place with the odd one behind it. -/
def pairs : List Nat → List (Nat × Nat)
  | start :: stop :: rest => (start, stop) :: pairs rest
  | _ => []

/-- The ranges between the hard breaks. -/
def hardRanges (core : List Char) : List (Nat × Nat) :=
  pairs (0 :: (hardBreaks core).flatMap (fun m => [m.1, m.2]) ++ [core.length])

/-- The soft breaks from a place up to another one. -/
def softBreaks (core : List Char) (cursor stop : Nat) : List (Nat × Nat) :=
  finditer (softBreakAt (core.take stop)) cursor stop

/-- The first soft break with an action on both sides. -/
def chosenBreak (core : List Char) (cursor stop : Nat) : Option (Nat × Nat) :=
  (softBreaks core cursor stop).find? fun m =>
    containsAction (piece core (cursor, m.1)) && containsAction (piece core (m.2, stop))

theorem lt_of_softBreakAt {text : List Char} {place e : Nat} (h : softBreakAt text place = some e) :
    place < e := by
  have hrun : ∀ p n, n ≤ runEnd p text n := fun p n => Nat.le_add_right _ _
  have hfirst := hrun isSpace (place + 1)
  have hmiddle := hrun isSpace place
  have hlast := hrun isSpace (runEnd isSpace text place + 1)
  unfold softBreakAt at h
  split at h
  · cases h
  · dsimp only at h
    split_ifs at h <;>
    · cases h
      omega

theorem chosenBreak_lt {core : List Char} {cursor stop : Nat} {m : Nat × Nat}
    (h : chosenBreak core cursor stop = some m) : cursor < m.2 := by
  obtain ⟨hcursor, -, hfits⟩ := mem_finditer (List.mem_of_find?_eq_some h)
  exact hcursor.trans_lt (lt_of_softBreakAt hfits)

/-- The pieces of a range, cut at the chosen breaks. -/
def splitSoftRange (core : List Char) (stop cursor : Nat) : List (Nat × Nat) :=
  if cursor < stop then
    match _h : chosenBreak core cursor stop with
    | none => [(cursor, stop)]
    | some m => (cursor, m.1) :: splitSoftRange core stop m.2
  else []
termination_by stop - cursor
decreasing_by
  have hlt := chosenBreak_lt _h
  omega

/-- A character at the edge of a clause. -/
def isEdge (c : Char) : Bool :=
  isSpace c || c == ',' || c == '·' || c == ':' || c == '：' || c == '-'

/-- The text without the characters at its edges. -/
def trimEdges (text : List Char) : List Char :=
  ((text.dropWhile isEdge).reverse.dropWhile isEdge).reverse

/-- Where a needle is found first. -/
def findText (text needle : List Char) : Option Nat :=
  (List.range (text.length + 1)).find? fun place => needle.isPrefixOf (text.drop place)

structure ClauseSpan where
  sourceOrder : Nat
  text : String
  start : Nat
  stop : Nat
  nonempty : start < stop

/-- The clause of some characters. -/
def clauseAt (sourceOrder start : Nat) (stripped : List Char) (h : stripped ≠ []) : ClauseSpan where
  sourceOrder := sourceOrder
  text := String.ofList stripped
  start := start
  stop := start + stripped.length
  nonempty := Nat.lt_add_of_pos_right (List.length_pos_of_ne_nil h)

/-- The clauses of some pieces, numbered on. -/
def clausesOf (core : List Char) : Nat → List (Nat × Nat) → List ClauseSpan
  | _, [] => []
  | sourceOrder, m :: ms =>
    let value := piece core m
    let stripped := trimEdges value
    if h : stripped = [] then clausesOf core sourceOrder ms
    else
      clauseAt sourceOrder (m.1 + (findText value stripped).getD 0) stripped h ::
        clausesOf core (sourceOrder + 1) ms

/-- The pieces between the breaks. -/
def rawRanges (core : List Char) : List (Nat × Nat) :=
  (hardRanges core).flatMap fun range => splitSoftRange core range.2 range.1

def coreOf (rawText : String) : List Char :=
  rawText.toList.take (parseCauseSentence rawText).coreEnd

/-- The clauses of a cause. If there is none, all of the reason is one. -/
def splitEventClauses (rawText : String) : List ClauseSpan :=
  let core := coreOf rawText
  match clausesOf core 0 (rawRanges core) with
  | [] =>
    let stripped := trimEdges core
    if h : stripped = [] then [] else [clauseAt 0 ((findText core stripped).getD 0) stripped h]
  | clauses => clauses

end Dayjaview.Ontology
