import Dayjaview.Core.Scanning
import Dayjaview.Ontology.Companies
import Dayjaview.Ontology.Vocabulary

/-!
# The names in a question

A catalog knows the names of companies, themes and catalysts. The longer names come first in its
pattern; what the pattern finds in a question counts as a name if it stands by itself. The companies
that are named in the body of a text are found in the same way, regardless of case.
-/

namespace Dayjaview.Ontology

open Scanning

structure ThemeEntry where
  sourceThemeId : String
  themeName : String
  deriving DecidableEq

inductive NameKind where
  | company
  | theme
  | catalyst
  deriving DecidableEq

/-- What a name is resolved to. -/
inductive NamePayload where
  | company (name : String)
  | theme (entry : ThemeEntry)
  | catalyst (definition : CatalystType)
  deriving DecidableEq

structure NameMatch where
  kind : NameKind
  text : String
  start : Nat
  stop : Nat
  payload : NamePayload
  deriving DecidableEq

def NameMatch.span (m : NameMatch) : Nat × Nat := (m.start, m.stop)

/-- The words of questions that do not name a theme. -/
def THEME_ALIAS_STOPWORDS : List String :=
  ["소재", "테마", "종목", "관련주", "대표주", "산업", "그룹", "기타", "장비", "재료", "생산"]

/-- The text without what stands in parentheses, from within them or not. -/
def dropParentheses : Bool → List Char → List Char
  | _, [] => []
  | true, c :: cs => dropParentheses (c != ')') cs
  | false, c :: cs =>
    if c == '(' && cs.contains ')' then dropParentheses true cs else c :: dropParentheses false cs

/-- What stands in parentheses, from within them or not. -/
def inParentheses : Option (List Char) → List Char → List (List Char)
  | _, [] => []
  | some inner, c :: cs =>
    if c == ')' then inner :: inParentheses none cs else inParentheses (some (inner ++ [c])) cs
  | none, c :: cs => inParentheses (if c == '(' && cs.contains ')' then some [] else none) cs

/-- The text without blanks at its end. -/
def stripRight (cs : List Char) : List Char := (cs.reverse.dropWhile isSpace).reverse

/-- A piece of the name of a theme without "and others". -/
def dropOthers (piece : List Char) : List Char :=
  let stripped := stripRight piece
  if stripped.getLast? = some '등' then stripRight stripped.dropLast else piece

/-- A character between two pieces of the name of a theme. -/
def separatesPieces (c : Char) : Bool := c == '/' || c == '·' || c == ','

/-- The parts of the name of a theme by which it may be called. -/
def themeAliasParts (themeName : String) : List String :=
  let base := strip (String.ofList (dropParentheses false themeName.toList))
  let sources := base.toList :: inParentheses none themeName.toList
  let pieces := sources.flatMap fun source => (source.splitOnP separatesPieces).map fun piece =>
    strip (String.ofList (dropOthers piece))
  let kept := pieces.filter fun piece =>
    decide (2 ≤ piece.length) && piece != themeName && !THEME_ALIAS_STOPWORDS.contains piece
  ranked id ((if base ≠ "" ∧ base ≠ themeName then base :: kept else kept).dedup)

/-- The names that can be recognised in a question. -/
structure QuestionCatalog where
  themeByName : Dict String ThemeEntry
  catalystByName : Dict String CatalystType
  themeAlias : Dict String String
  companyNames : List String
  alias_known : ∀ name themeName, themeAlias.get? name = some themeName →
    (themeByName.get? themeName).isSome = true

/-- The value is written unless the key has one. -/
def setDefault {α : Type} (d : Dict String α) (key : String) (value : α) : Dict String α :=
  if (d.get? key).isSome then d else d.set key value

def themesByName (themes : List ThemeEntry) : Dict String ThemeEntry :=
  themes.foldl (fun d theme => d.set theme.themeName theme) .empty

/-- The catalysts by name and by the parts of their names. -/
def catalystsByName (catalystTypes : List CatalystType) : Dict String CatalystType :=
  catalystTypes.foldl (fun d definition =>
    let parts := (definition.nameKo.toList.splitOnP fun c => c == '·' || c == '/').map String.ofList
    (parts.filter fun part => 2 ≤ part.length).foldl (fun d part => setDefault d part definition)
      (setDefault d definition.nameKo definition)) .empty

/-- The names of the companies of a master. -/
def namesOfCompanies (master : CompanyMaster) : List String :=
  ((master.companies.flatMap fun company =>
    (company.aliases.map fun draft => draft.aliasName).filter (· ≠ "")) ++
      master.companies.map fun company => company.canonicalName).dedup

/-- The names of themes that a part belongs to. -/
def aliasCandidates (themes : List ThemeEntry) (part : String) : List String :=
  ((themes.filter fun theme => (themeAliasParts theme.themeName).contains part).map
    fun theme => theme.themeName).dedup

/-- A part is an alias of a theme if it belongs to that one only. -/
def addAlias (themes : List ThemeEntry) (d : Dict String String) (part : String) :
    Dict String String :=
  match aliasCandidates themes part with
  | [themeName] => d.set part themeName
  | _ => d

/-- The parts that belong to one theme only and name nothing else. -/
def themeAliases (themes : List ThemeEntry) (reserved : List String) : Dict String String :=
  let parts := themes.flatMap fun theme => themeAliasParts theme.themeName
  (parts.filter fun part => !reserved.contains part).foldl (addAlias themes) .empty

variable {themeName : String} {themes : List ThemeEntry}

theorem isSome_themesByName (h : themeName ∈ themes.map fun theme => theme.themeName) :
    ((themesByName themes).get? themeName).isSome = true := by
  suffices hall : ∀ d : Dict String ThemeEntry,
      (d.get? themeName).isSome = true ∨ themeName ∈ themes.map (fun theme => theme.themeName) →
        ((themes.foldl (fun d theme => d.set theme.themeName theme) d).get? themeName).isSome =
        true from
    hall .empty (.inr h)
  clear h
  induction themes with
  | nil => exact fun d h => h.resolve_right nofun
  | cons theme themes ih =>
    intro d h
    refine ih _ ?_
    rw [Dict.get?_set]
    split
    · exact .inl rfl
    · next hne =>
      rcases h with h | h
      · exact .inl h
      · exact .inr ((List.mem_cons.mp h).resolve_left hne)

theorem get?_addAlias {d : Dict String String} {part name : String}
    (h : (addAlias themes d part).get? name = some themeName) :
    d.get? name = some themeName ∨ themeName ∈ themes.map fun theme => theme.themeName := by
  unfold addAlias at h
  split at h
  · next candidate hcandidates =>
    rw [Dict.get?_set] at h
    split at h
    · obtain rfl := Option.some.inj h
      have hmem : candidate ∈ aliasCandidates themes part := hcandidates ▸ List.mem_cons_self
      obtain ⟨theme, htheme, hname⟩ := List.mem_map.mp (List.mem_dedup.mp hmem)
      exact .inr (List.mem_map.mpr ⟨theme, (List.mem_filter.mp htheme).1, hname⟩)
    · exact .inl h
  · exact .inl h

theorem themeAliases_known {reserved : List String} {name : String}
    (h : (themeAliases themes reserved).get? name = some themeName) :
    themeName ∈ themes.map fun theme => theme.themeName := by
  suffices hall : ∀ (parts : List String) (d : Dict String String),
      (parts.foldl (addAlias themes) d).get? name = some themeName →
      d.get? name = some themeName ∨ themeName ∈ themes.map fun theme => theme.themeName from
    (hall _ .empty h).resolve_left nofun
  intro parts
  induction parts with
  | nil => exact fun d h => .inl h
  | cons part parts ih =>
    intro d h
    rcases ih _ h with h | h
    · exact get?_addAlias h
    · exact .inr h

/-- The catalog of a master, some themes and the types of catalysts. -/
def QuestionCatalog.build (master : CompanyMaster) (themes : List ThemeEntry)
    (catalystTypes : List CatalystType) : QuestionCatalog where
  themeByName := themesByName themes
  catalystByName := catalystsByName catalystTypes
  themeAlias := themeAliases themes
    ((themesByName themes).keys ++ (catalystsByName catalystTypes).keys ++ namesOfCompanies master)
  companyNames := namesOfCompanies master
  alias_known _ _ h := isSome_themesByName (themeAliases_known h)

/-- The particles that may follow a name. -/
def PARTICLE_SUFFIXES : List Char := "은는이가을를와과의도에서로랑만".toList

namespace QuestionCatalog

/-- All names, the longer ones first. -/
def pattern (catalog : QuestionCatalog) : List String :=
  ranked (fun value => toLex (-(value.length : ℤ), value))
    (catalog.companyNames ++ (catalog.themeByName.keys ++ catalog.themeAlias.keys) ++
      catalog.catalystByName.keys).dedup

/-- What a name stands for. Themes and catalysts come before companies. -/
def kind (catalog : QuestionCatalog) (value : String) : Option NameKind :=
  if (catalog.themeByName.get? value).isSome ∨ (catalog.themeAlias.get? value).isSome then
      some .theme
  else if (catalog.catalystByName.get? value).isSome then some .catalyst
  else if value ∈ catalog.companyNames then some .company
  else none

/-- The value under a key, or a key error. -/
def lookUp {α : Type} (d : Dict String α) (key : String) : Except Error α :=
  match d.get? key with
  | some value => .ok value
  | none => .error ⟨.keyError, key⟩

/-- What a name of a kind is resolved to. -/
def payload (catalog : QuestionCatalog) (kind : NameKind) (value : String) :
    Except Error NamePayload :=
  match kind with
  | .theme =>
    match catalog.themeByName.get? value with
    | some found => .ok (.theme found)
    | none => do
      let themeName ← lookUp catalog.themeAlias value
      return .theme (← lookUp catalog.themeByName themeName)
  | .catalyst => return .catalyst (← lookUp catalog.catalystByName value)
  | .company => .ok (.company value)

end QuestionCatalog

/-- The characters of a text between two places. -/
def between (text : List Char) (m : Nat × Nat) : String :=
  String.ofList ((text.take m.2).drop m.1)

/-- Two spans have a character in common. -/
def overlaps (m n : Nat × Nat) : Bool := decide (m.1 < n.2) && decide (n.1 < m.2)

section Boundaries

variable [UnicodeTable]

/-- The name stands by itself, perhaps with a particle. -/
def hasBoundary (text : List Char) (m : Nat × Nat) : Bool :=
  (m.1 == 0 || !(text[m.1 - 1]?.any fun c => UnicodeTable.isalnum c || c == '·')) &&
    match text[m.2]? with
    | none => true
    | some following => !UnicodeTable.isalnum following || PARTICLE_SUFFIXES.contains following

/-- The matches of a pattern that are names, unless they overlap with the used spans. -/
def QuestionCatalog.nameMatches (catalog : QuestionCatalog) (text : List Char) :
    List (Nat × Nat) → List (Nat × Nat) → Except Error (List NameMatch)
  | _, [] => .ok []
  | used, m :: ms =>
    if !hasBoundary text m then catalog.nameMatches text used ms
    else if used.any (overlaps m) then catalog.nameMatches text used ms
    else
      let value := between text m
      match catalog.kind value with
      | none => catalog.nameMatches text used ms
      | some kind => do
        let payload ← catalog.payload kind value
        let rest ← catalog.nameMatches text (used ++ [m]) ms
        return ⟨kind, value, m.1, m.2, payload⟩ :: rest

/-- The names in a text outside the masked spans. -/
def QuestionCatalog.scan (catalog : QuestionCatalog) (text : String) (masked : List (Nat × Nat)) :
    Except Error (List NameMatch) := do
  let names := catalog.pattern.map String.toList
  let found ← catalog.nameMatches text.toList masked
    (finditer (nameAt (· == ·) names text.toList) 0 text.length)
  return ranked (fun m => m.start) found

end Boundaries

/-- The characters that are the same regardless of case. -/
class IgnoreCase where
  same : Char → Char → Bool

/-- The particles that may follow the name of a company. -/
def NAME_PARTICLES : List Char := "은는이가을를와과의도에로".toList

section Body

variable [UnicodeTable]

/-- The names of the companies, the longer ones first. -/
def aliasMatcher (master : CompanyMaster) : List String :=
  ranked (fun value => toLex (-(value.length : ℤ), toLex (casefoldText value, value)))
  (namesOfCompanies master)

/-- The name of a company stands by itself, perhaps with a particle. -/
def hasNameBoundary (text : List Char) (m : Nat × Nat) : Bool :=
  (m.1 == 0 || !(text[m.1 - 1]?.any UnicodeTable.isalnum)) &&
    match text[m.2]? with
    | none => true
    | some following => !UnicodeTable.isalnum following || NAME_PARTICLES.contains following

/-- The names of companies in a text, before they are resolved. -/
def bodyCandidates [IgnoreCase] (master : CompanyMaster) (text : String) :
    List (Nat × Nat × String) :=
  let names := (aliasMatcher master).map String.toList
  ((finditer (nameAt IgnoreCase.same names text.toList) 0 text.length).filter
    (hasNameBoundary text.toList)).map fun m => (m.1, m.2, between text.toList m)

end Body

theorem startsAs_beq {name text : List Char} :
    startsAs (· == ·) name text = true ↔ ∃ rest, text = name ++ rest := by
  induction name generalizing text with
  | nil => simp [startsAs]
  | cons c name ih =>
    cases text with
    | nil => simp [startsAs]
    | cons d text =>
      simp only [startsAs, Bool.and_eq_true, beq_iff_eq, ih, List.cons_append, List.cons.injEq]
      constructor
      · rintro ⟨rfl, rest, rfl⟩
        exact ⟨rest, rfl, rfl⟩
      · rintro ⟨rest, rfl, rfl⟩
        exact ⟨rfl, rest, rfl⟩

def QuestionCatalog.names (catalog : QuestionCatalog) : List String :=
  (catalog.companyNames ++ (catalog.themeByName.keys ++ catalog.themeAlias.keys) ++
    catalog.catalystByName.keys).dedup

theorem nameAt_ranked {ρ : Type} [LinearOrder ρ] (rank : String → ℤ ×ₗ ρ)
    (hrank : ∀ name, (ofLex (rank name)).1 = -(name.length : ℤ)) (same : Char → Char → Bool)
    (names : List String) (text : List Char) :
    nameAt same ((ranked rank names).map String.toList) text =
      longestAt same (fun _ => true) (names.map String.toList) text := by
  funext place
  refine nameAt_eq_longestAt (fun name => ?_) ?_
  · simp only [List.mem_map, mem_ranked]
  · refine List.pairwise_map.mpr (pairwise_ranked.imp fun {a b} hle => ?_)
    have hlength : (ofLex (rank a)).1 ≤ (ofLex (rank b)).1 := Prod.Lex.monotone_fst _ _ hle
    rw [hrank, hrank] at hlength
    rw [String.length_toList, String.length_toList]
    omega

theorem mem_of_longestAt {names : List String} {text : List Char} {place stop : Nat}
    (h : longestAt (· == ·) (fun _ => true) (names.map String.toList) text place = some stop) :
    between text (place, stop) ∈ names := by
  obtain ⟨⟨cs, hcs, hstarts, rfl⟩, -⟩ := longestAt_eq_some.mp h
  obtain ⟨name, hname, rfl⟩ := List.mem_map.mp hcs
  obtain ⟨rest, hrest⟩ := startsAs_beq.mp hstarts
  have htext : (text.take (place + name.toList.length)).drop place = name.toList := by
    rw [List.drop_take, Nat.add_sub_cancel_left, hrest, List.take_left]
  rw [between, htext, String.ofList_toList]
  exact hname

theorem QuestionCatalog.lookUp_eq {α : Type} {d : Dict String α} {key : String} {value : α}
    (h : d.get? key = some value) : QuestionCatalog.lookUp d key = .ok value := by
  rw [QuestionCatalog.lookUp, h]

theorem QuestionCatalog.exists_payload (catalog : QuestionCatalog) {value : String}
    (h : value ∈ catalog.names) : ∃ kind payload, catalog.kind value = some kind ∧
      catalog.payload kind value = .ok payload := by
  unfold QuestionCatalog.kind
  split_ifs with htheme hcatalyst hcompany
  · refine ⟨.theme, ?_⟩
    unfold QuestionCatalog.payload
    cases hname : catalog.themeByName.get? value with
    | some entry => exact ⟨_, rfl, rfl⟩
    | none =>
      have halias : (catalog.themeAlias.get? value).isSome = true :=
        htheme.resolve_left (by simp [hname])
      obtain ⟨themeName, hthemeName⟩ := Option.isSome_iff_exists.mp halias
      obtain ⟨entry, hentry⟩ := Option.isSome_iff_exists.mp (catalog.alias_known _ _ hthemeName)
      refine ⟨.theme entry, rfl, ?_⟩
      dsimp only
      rw [QuestionCatalog.lookUp_eq hthemeName]
      show (QuestionCatalog.lookUp catalog.themeByName themeName >>= _) = _
      rw [QuestionCatalog.lookUp_eq hentry]
      rfl
  · obtain ⟨definition, hdefinition⟩ := Option.isSome_iff_exists.mp hcatalyst
    refine ⟨.catalyst, .catalyst definition, rfl, ?_⟩
    unfold QuestionCatalog.payload
    dsimp only
    rw [QuestionCatalog.lookUp_eq hdefinition]
    rfl
  · exact ⟨.company, .company value, rfl, rfl⟩
  · exfalso
    rw [QuestionCatalog.names, List.mem_dedup, List.mem_append, List.mem_append, List.mem_append,
      Dict.mem_keys_iff, Dict.mem_keys_iff, Dict.mem_keys_iff] at h
    tauto

section

variable [UnicodeTable]

/-- What is known of a name that was found. -/
structure NameMatch.Of (catalog : QuestionCatalog) (text : List Char) (m : NameMatch) : Prop where
  text_eq : m.text = between text m.span
  kind_eq : catalog.kind m.text = some m.kind
  payload_eq : catalog.payload m.kind m.text = .ok m.payload

theorem nameMatches_eq (catalog : QuestionCatalog) (text : List Char) {ms used : List (Nat × Nat)}
    (hordered : ms.Pairwise fun m n => resume m ≤ n.1)
    (hused : ∀ u ∈ used, ∀ m ∈ ms, u.2 ≤ m.1)
    (hnames : ∀ m ∈ ms, between text m ∈ catalog.names) :
    ∃ found, catalog.nameMatches text used ms = .ok found ∧
      found.map NameMatch.span = ms.filter (hasBoundary text) ∧ ∀ m ∈ found, m.Of catalog text := by
  induction ms generalizing used with
  | nil => exact ⟨[], rfl, rfl, nofun⟩
  | cons m ms ih =>
    obtain ⟨hfirst, hrest⟩ := List.pairwise_cons.mp hordered
    have husedRest : ∀ u ∈ used, ∀ n ∈ ms, u.2 ≤ n.1 := fun u hu n hn =>
      hused u hu n (List.mem_cons_of_mem _ hn)
    have hnamesRest : ∀ n ∈ ms, between text n ∈ catalog.names := fun n hn =>
      hnames n (List.mem_cons_of_mem _ hn)
    rw [QuestionCatalog.nameMatches]
    cases hgood : hasBoundary text m with
    | false =>
      rw [List.filter_cons_of_neg (by simp [hgood])]
      exact ih hrest husedRest hnamesRest
    | true =>
      have hfree : used.any (overlaps m) = false := by
        rw [List.any_eq_false]
        intro u hu
        have hle := hused u hu m List.mem_cons_self
        simp only [overlaps, Bool.and_eq_true, decide_eq_true_eq]
        omega
      obtain ⟨kind, payload, hkind, hpayload⟩ :=
        catalog.exists_payload (hnames m List.mem_cons_self)
      have husedNext : ∀ u ∈ used ++ [m], ∀ n ∈ ms, u.2 ≤ n.1 := by
        intro u hu n hn
        rcases List.mem_append.mp hu with hu | hu
        · exact husedRest u hu n hn
        · obtain rfl := List.mem_singleton.mp hu
          exact (le_max_left _ _).trans (hfirst n hn)
      obtain ⟨found, hfound, hspans, hof⟩ := ih hrest husedNext hnamesRest
      refine ⟨⟨kind, between text m, m.1, m.2, payload⟩ :: found, ?_, ?_, ?_⟩
      · simp only [Bool.not_true, Bool.false_eq_true, if_false, hfree, hkind, hpayload, hfound]
        rfl
      · rw [List.map_cons, hspans, List.filter_cons_of_pos hgood]
        rfl
      · rintro n hn
        rcases List.mem_cons.mp hn with rfl | hn
        · exact ⟨rfl, hkind, hpayload⟩
        · exact hof n hn

theorem scan_eq (catalog : QuestionCatalog) (text : String) :
    ∃ found, catalog.scan text [] = .ok found ∧
      found.map NameMatch.span = (finditer (longestAt (· == ·) (fun _ => true)
        (catalog.names.map String.toList) text.toList) 0 text.length).filter
        (hasBoundary text.toList) ∧
      ∀ m ∈ found, m.Of catalog text.toList := by
  have hpattern : nameAt (· == ·) (catalog.pattern.map String.toList) text.toList = _ :=
    nameAt_ranked _ (fun _ => rfl) _ catalog.names text.toList
  obtain ⟨found, hfound, hspans, hof⟩ := nameMatches_eq catalog text.toList
    (pairwise_finditer
      (longestAt (· == ·) (fun _ => true) (catalog.names.map String.toList) text.toList)
      0 text.length)
    (show ∀ u ∈ [], _ from nofun) fun m hm => mem_of_longestAt (mem_finditer hm).2.2
  have hsorted : found.Pairwise fun m n => m.start ≤ n.start := by
    have hspansSorted := (pairwise_finditer (longestAt (· == ·) (fun _ => true)
      (catalog.names.map String.toList) text.toList) 0 text.length).filter (hasBoundary text.toList)
    rw [← hspans, List.pairwise_map] at hspansSorted
    refine hspansSorted.imp fun {m n} hle => ?_
    exact (Nat.le_succ m.start).trans ((le_max_right _ _).trans hle)
  refine ⟨found, ?_, hspans, hof⟩
  have hranked : ranked (fun m : NameMatch => m.start) found = found := hsorted.insertionSort_eq
  unfold QuestionCatalog.scan
  dsimp only
  rw [hpattern, hfound]
  show Except.ok (ranked (fun m : NameMatch => m.start) found) = _
  rw [hranked]

/-- No name that stands by itself begins within a match that does not. -/
def NoneHidden (same : Char → Char → Bool) (good : Nat × Nat → Bool) (names : List (List Char))
    (text : List Char) : Prop :=
  ∀ m ∈ finditer (longestAt same (fun _ => true) names text) 0 text.length, good m = false →
    ∀ place, m.1 ≤ place → place < resume m → place ≤ text.length →
      longestAt same good names text place = none

/-- The longest names that stand by themselves, from the left. -/
def longestNames (same : Char → Char → Bool) (good : Nat × Nat → Bool) (names : List (List Char))
    (text : List Char) : List (Nat × Nat) :=
  finditer (longestAt same good names text) 0 text.length

/-- A scan and the body of a text give the longest names that stand by themselves, exactly if none
of these begins within a match that does not stand by itself. -/
theorem names_recognised_iff [IgnoreCase] (catalog : QuestionCatalog) (master : CompanyMaster)
    (text : String) :
    ((∃ found, catalog.scan text [] = .ok found ∧ (∀ m ∈ found, m.Of catalog text.toList) ∧
        found.map NameMatch.span = longestNames (· == ·) (hasBoundary text.toList)
          (catalog.names.map String.toList) text.toList) ↔
      NoneHidden (· == ·) (hasBoundary text.toList) (catalog.names.map String.toList) text.toList) ∧
    ((bodyCandidates master text).map (fun m => (m.1, m.2.1)) =
        longestNames IgnoreCase.same (hasNameBoundary text.toList)
          ((namesOfCompanies master).map String.toList) text.toList ↔
      NoneHidden IgnoreCase.same (hasNameBoundary text.toList)
        ((namesOfCompanies master).map String.toList) text.toList) := by
  constructor
  · obtain ⟨found, hfound, hspans, hof⟩ := scan_eq catalog text
    have hiff := filter_finditer_eq_iff (refines_longestAt (· == ·) (hasBoundary text.toList)
      (catalog.names.map String.toList) text.toList) 0 text.toList.length
    rw [String.length_toList, ← hspans] at hiff
    unfold NoneHidden longestNames
    rw [String.length_toList, ← hiff]
    constructor
    · rintro ⟨found', hfound', -, hspans'⟩
      obtain rfl := Except.ok.inj (hfound.symm.trans hfound')
      exact hspans'
    · exact fun hsame => ⟨found, hfound, hof, hsame⟩
  · have hmatcher :
        nameAt IgnoreCase.same ((aliasMatcher master).map String.toList) text.toList = _ :=
      nameAt_ranked _ (fun _ => rfl) _ (namesOfCompanies master) text.toList
    have hiff :=
      filter_finditer_eq_iff (refines_longestAt IgnoreCase.same (hasNameBoundary text.toList)
      ((namesOfCompanies master).map String.toList) text.toList) 0 text.toList.length
    have hcandidates : (bodyCandidates master text).map (fun m => (m.1, m.2.1)) =
        (finditer
          (longestAt IgnoreCase.same (fun _ => true) ((namesOfCompanies master).map String.toList)
          text.toList) 0 text.toList.length).filter (hasNameBoundary text.toList) := by
      unfold bodyCandidates
      dsimp only
      rw [hmatcher, List.map_map, String.length_toList]
      exact List.map_id _
    rw [hcandidates]
    exact hiff

end

def namedCompany (code name : String) : CompanyDraft where
  seedStockCode := code
  canonicalName := name
  nameBasis := .source .currentMembership
  dartCorpCode := none
  aliases := []
  instruments := []
  revisions := []

/-- Two companies, where one name begins with the other. -/
def twoCompanies : CompanyMaster where
  companies := [namedCompany "003550" "LG", namedCompany "011070" "LG 이노텍"]
  unresolved := []

/-- The tables of letters and syllables. -/
@[reducible] def syllableTable : UnicodeTable where
  upper c := [c.toUpper]
  casefold c := [c.toLower]
  isalnum c := c.isAlphanum || (0xAC00 ≤ c.toNat && c.toNat ≤ 0xD7A3)
  isdigit := Char.isDigit

/-- A longer name that does not stand by itself hides the shorter one within it. -/
theorem hidden_name :
    letI : UnicodeTable := syllableTable
    letI : IgnoreCase := ⟨fun c d => c.toLower == d.toLower⟩
    let catalog := QuestionCatalog.build twoCompanies [] []
    let text := "LG 이노텍스 소식"
    catalog.scan text [] = .ok [] ∧ bodyCandidates twoCompanies text = [] ∧
      longestNames (· == ·) (hasBoundary text.toList) (catalog.names.map String.toList)
      text.toList =
        [(0, 2)] ∧
      longestNames IgnoreCase.same (hasNameBoundary text.toList)
        ((namesOfCompanies twoCompanies).map String.toList) text.toList = [(0, 2)] := by
  decide +kernel

end Dayjaview.Ontology
