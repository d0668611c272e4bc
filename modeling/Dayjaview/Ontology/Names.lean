import Dayjaview.Core.Text

/-!
# Names of companies

Names are compared by a form without blanks, corporate forms and letter case. Blanks
around a name do not change that form.
-/

namespace Dayjaview

/-- The compatibility composition of a text. Blanks around a text stay blanks around it. -/
class Compatibility where
  nfkc : List Char → List Char
  nfkc_padded : ∀ before cs after, before.all isSpace = true → after.all isSpace = true →
    ∃ before' after', before'.all isSpace = true ∧ after'.all isSpace = true ∧
      nfkc (before ++ cs ++ after) = before' ++ nfkc cs ++ after'

/-- The composition of texts within ASCII. -/
@[reducible] def Compatibility.ascii : Compatibility where
  nfkc cs := cs
  nfkc_padded before _ after hbefore hafter := ⟨before, after, hbefore, hafter, rfl⟩

theorem stripChars_padded {before after : List Char} (cs : List Char)
    (hbefore : before.all isSpace = true) (hafter : after.all isSpace = true) :
    stripChars (before ++ cs ++ after) = stripChars cs := by
  have hdrop : ∀ {pad : List Char} (ds : List Char), pad.all isSpace = true →
      (pad ++ ds).dropWhile isSpace = ds.dropWhile isSpace := by
    intro pad ds hpad
    exact List.dropWhile_append_of_pos (by simpa using hpad)
  have hblank : ∀ {ds : List Char}, ds.all isSpace = true → ds.dropWhile isSpace = [] := by
    intro ds hds
    rw [← List.append_nil ds, hdrop [] hds, List.dropWhile_nil]
  unfold stripChars
  rw [List.append_assoc, hdrop _ hbefore, List.dropWhile_append]
  split
  · next hempty =>
    have hcs : cs.dropWhile isSpace = [] := by simpa using hempty
    rw [hblank hafter, hcs]
  · rw [List.reverse_append, hdrop _ (by simpa using hafter)]

theorem exists_padding (cs : List Char) :
    ∃ before after, before.all isSpace = true ∧ after.all isSpace = true ∧
      cs = before ++ stripChars cs ++ after := by
  refine ⟨cs.takeWhile isSpace,
    ((cs.dropWhile isSpace).reverse.takeWhile isSpace).reverse, ?_, ?_, ?_⟩
  · simp
  · simp
  · rw [stripChars, List.append_assoc, ← List.reverse_append, List.takeWhile_append_dropWhile,
      List.reverse_reverse, List.takeWhile_append_dropWhile]

namespace Ontology

/-- Six digits or capital letters. -/
def isStockCode (text : String) : Bool :=
  text.length == 6 && text.toList.all fun c => c.isDigit || c.isUpper

def isCorpCode (text : String) : Bool := text.length == 8 && text.toList.all Char.isDigit

/-- A stock code with a hyphen, which stands where a name is missing. -/
def isCodeDisplay (text : String) : Bool :=
  text.length == 7 && (text.toList.take 6).all (fun c => c.isDigit || c.isUpper) &&
    text.toList.getLast? == some '-'

/-- The text goes on with the end of a preferred share's name. -/
def startsShareClass (cs : List Char) : Bool :=
  match cs.dropWhile Char.isDigit with
  | '우' :: rest => rest == [] || rest == ['\n'] || rest == ['B'] || rest == ['B', '\n']
  | _ => false

/-- The name without the suffix of a preferred share, and whether it had one. -/
def splitShareClass (name : String) : String × Bool :=
  match (List.range name.length).find? fun i => startsShareClass (name.toList.drop i) with
  | none => (name, false)
  | some start =>
    if start < 2 then (name, false) else (String.ofList (name.toList.take start), true)

/-- The corporate forms that are no part of a name. -/
def corporateForms : List String := ["주식회사", "(주)", "(유)", "(재)", "(사)", "(합)"]

/-- A text without the occurrences of another one, some characters of which are still to be passed
over. -/
def removeFrom (form : List Char) : Nat → List Char → List Char
  | _, [] => []
  | skip + 1, _ :: cs => removeFrom form skip cs
  | 0, c :: cs =>
    if form.isPrefixOf (c :: cs) then removeFrom form (form.length - 1) cs
    else c :: removeFrom form 0 cs

variable [UnicodeTable] [Compatibility]

/-- The form of a name that comparisons use. -/
def normalizeCompanyName (name : String) : String :=
  let text := stripChars (Compatibility.nfkc name.toList)
  let text := corporateForms.foldl (fun text form => removeFrom form.toList 0 text) text
  casefoldText (String.ofList (text.filter fun c => !isSpace c))

theorem normalizeCompanyName_strip (name : String) :
    normalizeCompanyName (strip name) = normalizeCompanyName name := by
  obtain ⟨before, after, hbefore, hafter, hname⟩ := exists_padding name.toList
  obtain ⟨before', after', hbefore', hafter', hnfkc⟩ :=
    Compatibility.nfkc_padded before (stripChars name.toList) after hbefore hafter
  have hsame : stripChars (Compatibility.nfkc name.toList) =
      stripChars (Compatibility.nfkc (stripChars name.toList)) := by
    conv_lhs => rw [hname, hnfkc]
    exact stripChars_padded _ hbefore' hafter'
  unfold normalizeCompanyName strip
  rw [String.toList_ofList, hsame]

end Ontology

end Dayjaview
