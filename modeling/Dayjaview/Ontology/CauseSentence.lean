import Dayjaview.Core.Text

/-!
# The parts of a cause

A cause is one sentence: the reason, the reaction at its tail, and a list of stocks in parentheses.
The patterns of the source are read as functions on the characters; they are tied to the end of the
text, so the first place where one fits is the match.
-/

namespace Dayjaview.Ontology

/-- Where a needle begins within the first characters of a text. -/
def findAll (text needle : List Char) (stop : Nat) : List Nat :=
  (List.range (min stop text.length + 1)).filter fun position =>
    position + needle.length ≤ min stop text.length && needle.isPrefixOf (text.drop position)

/-- Whether the text goes on with a blank. -/
def blankAhead (cs : List Char) : Bool := cs.head?.any isSpace

/-- The words that separate two events of one sentence, each between blanks. -/
def causeEventSeparators : List String := ["및", "또는", "그리고", "반면", "속에", "속", "가운데"]

/-- The particles that separate two events of one sentence, each with the word behind it. -/
def causeEventParticles : List (String × String) := [("에", "따른"), ("로", "인한")]

/-- A separator of two events is here. -/
def separatesHere (cs : List Char) : Bool :=
  blankAhead cs && causeEventSeparators.any (fun word =>
    word.toList.isPrefixOf (cs.drop 1) && blankAhead (cs.drop (1 + word.length))) ||
  causeEventParticles.any fun (particle, word) =>
    let rest := cs.drop particle.length
    particle.toList.isPrefixOf cs && blankAhead rest &&
      (let behind := rest.dropWhile isSpace
       word.toList.isPrefixOf behind && blankAhead (behind.drop word.length))

/-- Two places of a text tell of the same event. -/
def sameCauseEvent (text : List Char) (first second : Nat) : Bool :=
  let start := min first second
  let stop := max first second
  !((text.take stop).drop start).tails.any separatesHere

/-- Only blanks and a full stop or an ellipsis follow. -/
def endsSentence (cs : List Char) : Bool :=
  match cs.dropWhile isSpace with
  | [] => true
  | c :: rest => (c == '.' || c == '…') && rest.all isSpace

/-- The text in parentheses that ends a sentence begins here. -/
def trailingReferenceHere : List Char → Bool
  | '(' :: rest =>
    match rest.dropWhile fun c => c != '(' && c != ')' with
    | ')' :: behind => endsSentence behind
    | _ => false
  | _ => false

/-- Where the text in parentheses begins that ends a sentence. -/
def trailingReference (text : List Char) : Option Nat :=
  (List.range text.length).find? fun start => trailingReferenceHere (text.drop start)

/-- What may stand before the verb of the tail, in the order it is tried. -/
def tailConnectives (afterBlank : Bool) : List String :=
  (if afterBlank then ["등에", "등으로", "등"] else []) ++
    ["에", "으로", "속에", "속", "가운데", "하며", "하면서", "받으며", "힘입어", "따라", ""]

def tailVerbs : List String :=
  ["급등", "급락", "급반등", "급반락", "상승", "하락", "강세", "약세", "폭등", "폭락", "상한가",
    "하한가", "등락", "혼조", "반등", "오름세", "내림세"]

/-- The sentence ends behind a verb, which may have a suffix. -/
def endsAfterVerb (cs : List Char) : Bool :=
  "세".toList.isPrefixOf cs && endsSentence (cs.drop 1) || endsSentence cs

/-- The verb of a tail that begins here, and how far away it is. -/
def tailHere (afterBlank : Bool) (cs : List Char) : Option (String × Nat) :=
  (tailConnectives afterBlank).findSome? fun connective =>
    if connective.toList.isPrefixOf cs then
      let rest := cs.drop connective.length
      let offset := connective.length + (rest.takeWhile isSpace).length
      (tailVerbs.find? fun verb =>
        verb.toList.isPrefixOf (cs.drop offset) &&
          endsAfterVerb (cs.drop (offset + verb.length))).map fun verb => (verb, offset)
    else none

/-- Where the tail begins in the first characters of a text, its verb, and where the verb begins. -/
def tailMatch (text : List Char) (bodyEnd : Nat) : Option (Nat × String × Nat) :=
  let body := text.take bodyEnd
  (List.range (body.length + 1)).findSome? fun start =>
    (tailHere (start != 0 && blankAhead (body.drop (start - 1))) (body.drop start)).map
      fun (verb, offset) => (start, verb, start + offset)

structure ParsedCauseSentence where
  rawText : String
  coreText : String
  coreEnd : Nat
  tailText : Option String
  trailingReferenceText : Option String
  directionVerb : Option (String × Nat)
  coreEnd_le : coreEnd ≤ rawText.length

/-- The first characters of a text without surrounding blanks. -/
def strippedSlice (text : List Char) (start stop : Nat) : String :=
  String.ofList (stripChars ((text.take stop).drop start))

/-- Where the list of stocks begins, or the end of the text. -/
def bodyEnd (text : List Char) : Nat := (trailingReference text).getD text.length

theorem bodyEnd_le (text : List Char) : bodyEnd text ≤ text.length := by
  unfold bodyEnd
  cases hfound : trailingReference text with
  | none => exact le_rfl
  | some start => exact (List.mem_range.mp (List.mem_of_find?_eq_some hfound)).le

/-- The tail, unless it is the whole text. -/
def sentenceTail (text : List Char) : Option (Nat × String × Nat) :=
  (tailMatch text (bodyEnd text)).filter fun found => found.1 != 0

def coreEndOf (text : List Char) : Nat := ((sentenceTail text).map Prod.fst).getD (bodyEnd text)

theorem coreEndOf_le (text : List Char) : coreEndOf text ≤ text.length := by
  unfold coreEndOf
  cases hfound : sentenceTail text with
  | none => exact bodyEnd_le text
  | some found =>
    obtain ⟨hmatch, -⟩ := Option.filter_eq_some_iff.mp hfound
    obtain ⟨start, hstart, hsome⟩ := List.exists_of_findSome?_eq_some hmatch
    obtain ⟨_, -, rfl⟩ := Option.map_eq_some_iff.mp hsome
    have hlt := List.mem_range.mp hstart
    rw [List.length_take] at hlt
    have hbody := bodyEnd_le text
    simp only [Option.map_some, Option.getD_some]
    omega

def parseCauseSentence (rawText : String) : ParsedCauseSentence :=
  let text := rawText.toList
  { rawText
    coreText := strippedSlice text 0 (coreEndOf text)
    coreEnd := coreEndOf text
    tailText := (sentenceTail text).map fun found => strippedSlice text found.1 (bodyEnd text)
    trailingReferenceText := (trailingReference text).map fun start =>
      strippedSlice text start text.length
    directionVerb := (sentenceTail text).map Prod.snd
    coreEnd_le := by
      rw [← String.length_toList]
      exact coreEndOf_le text }

@[simp] theorem parseCauseSentence_rawText (rawText : String) :
    (parseCauseSentence rawText).rawText = rawText := rfl

@[simp] theorem parseCauseSentence_coreEnd (rawText : String) :
    (parseCauseSentence rawText).coreEnd = coreEndOf rawText.toList := rfl

end Dayjaview.Ontology
