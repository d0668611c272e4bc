import Dayjaview.Ontology.Companies

/-!
# Which company a name means

A text that looks like a stock code is only looked up among the codes. Any other text
is compared with the names of the companies. So a name of a company leads to it, or to
a choice between all companies of that name, exactly when the name has a comparable
form and does not look like a code, or when it is a code of the company itself.
-/

namespace Dayjaview.Ontology

/-- How a company was looked for. -/
inductive ResolutionStatus where
  | resolved
  | ambiguous
  | outOfValidity
  | unknown
  deriving DecidableEq

/-- What a company was found by. -/
inductive MatchedBy where
  | stockCode
  | aliasName
  | none
  deriving DecidableEq

/-- A company that a text may mean. -/
structure CompanyCandidate where
  seedStockCode : String
  canonicalName : String
  matchedAlias : String
  validFrom : Option Date
  validTo : Option Date
  deriving DecidableEq

structure CompanyResolution where
  status : ResolutionStatus
  matchedBy : MatchedBy
  candidates : List CompanyCandidate
  deriving DecidableEq

/-- The company that was found. -/
def CompanyResolution.seedStockCode (r : CompanyResolution) : Option String :=
  if r.status = .resolved then r.candidates.head?.map (·.seedStockCode) else none

def CompanyResolution.unknown : CompanyResolution := ⟨.unknown, .none, []⟩

/-- The company of a stock code. -/
def resolveCode (master : CompanyMaster) (code : String) : CompanyResolution :=
  let pairs := master.companies.flatMap fun company =>
    company.instruments.map fun instrument => (company, instrument)
  match pairs.find? fun pair => pair.2.stockCode == code with
  | some (company, instrument) =>
    ⟨.resolved, .stockCode, [⟨company.seedStockCode, company.canonicalName, code,
      instrument.validFrom, instrument.validTo⟩]⟩
  | none => .unknown

variable [UnicodeTable] [Compatibility]

/-- The companies with a name of some form. -/
def matchingAliases (master : CompanyMaster) (normalized : String) :
    List (CompanyDraft × CompanyAliasDraft) :=
  master.companies.flatMap fun company =>
    (company.aliases.filter (·.normalizedAlias = normalized)).map fun draft => (company, draft)

/-- The candidates of some names. -/
def candidatesOf (pairs : List (CompanyDraft × CompanyAliasDraft)) : List CompanyCandidate :=
  (ranked (fun pair => toLex (pair.1.seedStockCode, pair.2.aliasName)) pairs).map fun pair =>
    ⟨pair.1.seedStockCode, pair.1.canonicalName, pair.2.aliasName, pair.2.validFrom,
      pair.2.validTo⟩

def resolveAlias (master : CompanyMaster) (normalized : String) (asOf : Option Date) :
    CompanyResolution :=
  let found := matchingAliases master normalized
  if found.isEmpty then .unknown
  else
    let valid := found.filter fun pair => pair.2.covers asOf
    let candidates := candidatesOf (if valid.isEmpty then found else valid)
    if valid.isEmpty then ⟨.outOfValidity, .aliasName, candidates⟩
    else if (candidates.map (·.seedStockCode)).dedup.length > 1 then
      ⟨.ambiguous, .aliasName, candidates⟩
    else ⟨.resolved, .aliasName, candidates⟩

/-- Look for the company that a text means. -/
def resolveCompany (master : CompanyMaster) (query : String) (asOf : Option Date) :
    CompanyResolution :=
  let text := strip query
  if isStockCode text then resolveCode master text
  else
    let normalized := normalizeCompanyName text
    if normalized = "" then .unknown else resolveAlias master normalized asOf

/-- The names of a company go by their comparable form. -/
def NamedBy (aliases : List CompanyAliasDraft) : Prop :=
  ∀ draft ∈ aliases, draft.normalizedAlias = normalizeCompanyName draft.aliasName

/-- A master whose companies can be told apart. -/
structure CompanyMaster.WellFormed (master : CompanyMaster) : Prop where
  seeds_nodup : (master.companies.map (·.seedStockCode)).Nodup
  codes_disjoint : ∀ c ∈ master.companies, ∀ d ∈ master.companies, ∀ i ∈ c.instruments,
    ∀ j ∈ d.instruments, i.stockCode = j.stockCode → c = d
  named : ∀ c ∈ master.companies, NamedBy c.aliases

theorem namedBy_values_set {drafts : Dict String CompanyAliasDraft} (h : NamedBy drafts.values)
    {draft : CompanyAliasDraft}
    (hdraft : draft.normalizedAlias = normalizeCompanyName draft.aliasName)
    (key : String) : NamedBy (drafts.set key draft).values := by
  intro other hother
  obtain ⟨k, hk⟩ := (Dict.mem_values_iff _).mp hother
  rw [Dict.get?_set] at hk
  split at hk
  · cases hk
    exact hdraft
  · exact h other ((Dict.mem_values_iff _).mpr ⟨k, hk⟩)

theorem namedBy_listedAliases (aliasTypeForCurrent : AliasType) (windows : List KrxNameWindow)
    (index : Option KrxNameIndex) :
    NamedBy (listedAliases aliasTypeForCurrent windows index).values := by
  unfold listedAliases
  refine List.foldlRecOn
    (motive := fun drafts : Dict String CompanyAliasDraft => NamedBy drafts.values) windows _ ?_ ?_
  · exact fun _ h => absurd h List.not_mem_nil
  · intro drafts h window _
    apply namedBy_values_set h
    rfl

theorem namedBy_observeAlias {drafts : Dict String CompanyAliasDraft} (h : NamedBy drafts.values)
    (current : String) (aliasTypeForCurrent : AliasType) (krxHasOpen : Bool)
    (earliest : Option String) (entry : NameObservation) :
    NamedBy (observeAlias current aliasTypeForCurrent krxHasOpen earliest drafts entry).values := by
  unfold observeAlias
  split
  · exact h
  · dsimp only
    cases hfound : drafts.get? (normalizeCompanyName entry.name) with
    | some found =>
      have hnamed := h found ((Dict.mem_values_iff _).mpr ⟨_, hfound⟩)
      apply namedBy_values_set h
      exact hnamed
    | none =>
      apply namedBy_values_set h
      rfl

theorem namedBy_aliasDrafts (entries : List NameObservation) (current : String)
    (aliasTypeForCurrent : AliasType) (windows : List KrxNameWindow) (index : Option KrxNameIndex) :
    NamedBy (aliasDrafts entries current aliasTypeForCurrent windows index) := by
  intro draft hdraft
  obtain ⟨e, he, rfl⟩ := List.mem_map.mp hdraft
  have hvalue := List.mem_map_of_mem (f := Prod.snd) ((Dict.sortedEntries_perm _).mem_iff.mp he)
  refine List.foldlRecOn
    (motive := fun drafts : Dict String CompanyAliasDraft => NamedBy drafts.values)
    entries _ ?_ ?_ e.2 hvalue
  · exact namedBy_listedAliases _ _ _
  · exact fun drafts h entry _ => namedBy_observeAlias h _ _ _ _ _

omit [UnicodeTable] [Compatibility] in
theorem mem_addAliases {aliases more : List CompanyAliasDraft} {draft : CompanyAliasDraft}
    (h : draft ∈ addAliases aliases more) : draft ∈ aliases ∨ draft ∈ more := by
  unfold addAliases at h
  refine List.foldlRecOn (motive := fun seen => draft ∈ seen → draft ∈ aliases ∨ draft ∈ more)
    more _ .inl ?_ h
  intro seen ih next hnext hdraft
  split at hdraft
  · exact ih hdraft
  · rcases List.mem_append.mp hdraft with hdraft | hdraft
    · exact ih hdraft
    · rw [List.mem_singleton.mp hdraft]
      exact .inr hnext

theorem namedBy_buildCompany (byCode : Dict String (Dict String NameObservation))
    (corpCodes : Dict String String) (index : Option KrxNameIndex) (seed : String)
    (byName : Dict String NameObservation) (extra : List (String × Dict String NameObservation)) :
    NamedBy (buildCompany byCode corpCodes index seed byName extra).aliases := by
  refine List.foldlRecOn (motive := NamedBy) extra _ ?_ ?_
  · exact namedBy_aliasDrafts _ _ _ _ _
  · intro aliases h e _ draft hdraft
    rcases mem_addAliases hdraft with hdraft | hdraft
    · exact h draft hdraft
    · exact namedBy_aliasDrafts _ _ _ _ _ draft hdraft

theorem mem_instruments_iff {byCode : Dict String (Dict String NameObservation)}
    {corpCodes : Dict String String} {index : Option KrxNameIndex} {c : CompanyDraft}
    (h : c ∈ buildCompanies byCode corpCodes index) :
    (mergedInto byCode).get? c.seedStockCode = none ∧ NamedBy c.aliases ∧
      ∀ i ∈ c.instruments, i.stockCode = c.seedStockCode ∨
        (mergedInto byCode).get? i.stockCode = some c.seedStockCode := by
  obtain ⟨⟨seed, byName⟩, he, rfl⟩ := List.mem_map.mp h
  obtain ⟨-, hseed⟩ := List.mem_filter.mp he
  refine ⟨Option.isNone_iff_eq_none.mp hseed, namedBy_buildCompany _ _ _ _ _ _, fun i hi => ?_⟩
  rcases List.mem_cons.mp hi with rfl | hi
  · exact .inl rfl
  · obtain ⟨e, he, rfl⟩ := List.mem_map.mp hi
    exact .inr (beq_iff_eq.mp (List.mem_filter.mp he).2)

theorem wellFormed_buildCompanyMaster [CharTable] {details : List ThemeDetail}
    {corpCodes : Dict String String} {krxNames : Option KrxNameIndex} {master : CompanyMaster}
    (h : buildCompanyMaster details corpCodes krxNames = .ok master) : master.WellFormed := by
  unfold buildCompanyMaster at h
  obtain ⟨xs, -, h⟩ := bind_eq_ok.mp h
  cases h
  set byCode := (observations xs).byCode
  have hseeds : ((buildCompanies byCode corpCodes krxNames).map (·.seedStockCode)).Nodup := by
    unfold buildCompanies
    rw [List.map_map]
    exact byCode.sortedEntries_nodup.sublist (List.filter_sublist.map Prod.fst)
  refine { seeds_nodup := hseeds, codes_disjoint := ?_, named := ?_ }
  · intro c hc d hd i hi j hj hcode
    obtain ⟨hcown, -, hcodes⟩ := mem_instruments_iff hc
    obtain ⟨hdown, -, hdodes⟩ := mem_instruments_iff hd
    refine List.inj_on_of_nodup_map hseeds hc hd ?_
    rcases hcodes i hi with hic | hic <;> rcases hdodes j hj with hjd | hjd
    · rw [← hic, ← hjd, hcode]
    · rw [← hcode, hic, hcown] at hjd
      cases hjd
    · rw [hcode, hjd, hdown] at hic
      cases hic
    · rw [hcode, hjd] at hic
      exact (Option.some.inj hic).symm
  · exact fun c hc => (mem_instruments_iff hc).2.1

omit [UnicodeTable] [Compatibility] in
theorem one_lt_length_dedup {α : Type} [DecidableEq α] {l : List α} {x : α} (hx : x ∈ l) :
    1 < l.dedup.length ↔ ∃ y ∈ l, y ≠ x := by
  constructor
  · intro hlong
    by_contra! hall
    have hsub : l.dedup ⊆ [x] := fun y hy => List.mem_singleton.mpr (hall y (List.mem_dedup.mp hy))
    have hshort := (l.nodup_dedup.subperm hsub).length_le
    rw [List.length_singleton] at hshort
    omega
  · rintro ⟨y, hy, hne⟩
    have hnodup : [y, x].Nodup := by simpa using hne
    have hsub : [y, x] ⊆ l.dedup := by
      intro z hz
      rcases List.mem_cons.mp hz with rfl | hz
      · exact List.mem_dedup.mpr hy
      · rw [List.mem_singleton.mp hz]
        exact List.mem_dedup.mpr hx
    exact (hnodup.subperm hsub).length_le

section Search

variable {master : CompanyMaster} {c : CompanyDraft} {draft : CompanyAliasDraft}
  {asOf : Option Date}

/-- Another company has a name of the same form that was in use. -/
def CompanyMaster.Shared (master : CompanyMaster) (c : CompanyDraft) (draft : CompanyAliasDraft)
    (asOf : Option Date) : Prop :=
  ∃ d ∈ master.companies, d ≠ c ∧
    ∃ other ∈ d.aliases, other.normalizedAlias = draft.normalizedAlias ∧ other.covers asOf = true

/-- A name leads to its company, or to a choice when another company has it too. -/
def NameResolves (master : CompanyMaster) (c : CompanyDraft) (draft : CompanyAliasDraft)
    (asOf : Option Date) : Prop :=
  let r := resolveCompany master draft.aliasName asOf
  (¬ master.Shared c draft asOf → r.status = .resolved ∧ r.seedStockCode = some c.seedStockCode) ∧
    (master.Shared c draft asOf → r.status = .ambiguous)

/-- A name does not look like a code and has a comparable form, or it is a code of its company that
no other company has as a name. -/
def Findable (master : CompanyMaster) (c : CompanyDraft) (draft : CompanyAliasDraft)
    (asOf : Option Date) : Prop :=
  (isStockCode (strip draft.aliasName) = false ∧ normalizeCompanyName draft.aliasName ≠ "") ∨
    (isStockCode (strip draft.aliasName) = true ∧ ¬ master.Shared c draft asOf ∧
      ∃ i ∈ c.instruments, i.stockCode = strip draft.aliasName)

omit [UnicodeTable] [Compatibility] in
theorem resolveCode_cases (master : CompanyMaster) (code : String) :
    (∃ d ∈ master.companies, (∃ i ∈ d.instruments, i.stockCode = code) ∧
      (resolveCode master code).status = .resolved ∧
      (resolveCode master code).seedStockCode = some d.seedStockCode) ∨
    ((∀ d ∈ master.companies, ∀ i ∈ d.instruments, i.stockCode ≠ code) ∧
      resolveCode master code = .unknown) := by
  unfold resolveCode
  dsimp only
  split
  · next d i hfound =>
    obtain ⟨d', hd, hpair⟩ := List.mem_flatMap.mp (List.mem_of_find?_eq_some hfound)
    obtain ⟨i', hi, hpair⟩ := List.mem_map.mp hpair
    cases hpair
    have hcode := List.find?_some hfound
    exact .inl ⟨_, hd, ⟨_, hi, beq_iff_eq.mp hcode⟩, rfl, rfl⟩
  · next hnone =>
    refine .inr ⟨fun d hd i hi hcode => ?_, rfl⟩
    have hpair : (d, i) ∈ d.instruments.map fun i => (d, i) := List.mem_map_of_mem hi
    have hno := List.find?_eq_none.mp hnone _ (List.mem_flatMap.mpr ⟨d, hd, hpair⟩)
    simp [hcode] at hno

theorem resolveCode_iff (h : master.WellFormed) (hc : c ∈ master.companies) (code : String) :
    (resolveCode master code).status = .resolved ∧
        (resolveCode master code).seedStockCode = some c.seedStockCode ↔
      ∃ i ∈ c.instruments, i.stockCode = code := by
  rcases resolveCode_cases master code with ⟨d, hd, ⟨i, hi, hcode⟩, hstatus, hseed⟩ | ⟨hnone, hr⟩
  · rw [hstatus, hseed]
    constructor
    · rintro ⟨-, hsame⟩
      obtain rfl := List.inj_on_of_nodup_map h.seeds_nodup hd hc (Option.some.inj hsame)
      exact ⟨i, hi, hcode⟩
    · rintro ⟨j, hj, hcode'⟩
      rw [h.codes_disjoint d hd c hc i hi j hj (hcode.trans hcode'.symm)]
      exact ⟨rfl, rfl⟩
  · rw [hr]
    constructor
    · rintro ⟨hstatus, -⟩
      cases hstatus
    · rintro ⟨i, hi, hcode⟩
      exact absurd hcode (hnone c hc i hi)

section

omit [UnicodeTable] [Compatibility]

theorem resolveCode_not_ambiguous (master : CompanyMaster) (code : String) :
    (resolveCode master code).status ≠ .ambiguous := by
  rcases resolveCode_cases master code with ⟨_, -, -, hstatus, -⟩ | ⟨-, hr⟩
  · rw [hstatus]
    decide
  · rw [hr]
    decide

theorem mem_matchingAliases {normalized : String} {pair : CompanyDraft × CompanyAliasDraft} :
    pair ∈ matchingAliases master normalized ↔
      pair.1 ∈ master.companies ∧ pair.2 ∈ pair.1.aliases ∧ pair.2.normalizedAlias =
      normalized := by
  obtain ⟨d, other⟩ := pair
  simp only [matchingAliases, List.mem_flatMap, List.mem_map, List.mem_filter, decide_eq_true_iff,
    Prod.mk.injEq]
  constructor
  · rintro ⟨_, hd, _, ⟨hother, hsame⟩, rfl, rfl⟩
    exact ⟨hd, hother, hsame⟩
  · rintro ⟨hd, hother, hsame⟩
    exact ⟨_, hd, _, ⟨hother, hsame⟩, rfl, rfl⟩

theorem mem_seeds_candidatesOf {pairs : List (CompanyDraft × CompanyAliasDraft)} {seed : String} :
    seed ∈ (candidatesOf pairs).map (·.seedStockCode) ↔
      ∃ pair ∈ pairs, pair.1.seedStockCode = seed := by
  simp [candidatesOf, mem_ranked]

end

theorem resolveAlias_of_covers (h : master.WellFormed) (hc : c ∈ master.companies)
    (hdraft : draft ∈ c.aliases) (hcovers : draft.covers asOf = true) :
    let r := resolveAlias master draft.normalizedAlias asOf
    (¬ master.Shared c draft asOf →
        r.status = .resolved ∧ r.seedStockCode = some c.seedStockCode) ∧
      (master.Shared c draft asOf → r.status = .ambiguous) := by
  set found := matchingAliases master draft.normalizedAlias with hfound
  set valid := found.filter fun pair => pair.2.covers asOf with hvalid
  have hmem : ∀ d other, (d, other) ∈ valid ↔ d ∈ master.companies ∧ other ∈ d.aliases ∧
      other.normalizedAlias = draft.normalizedAlias ∧ other.covers asOf = true := by
    intro d other
    rw [hvalid, List.mem_filter, hfound, mem_matchingAliases]
    tauto
  have hin : (c, draft) ∈ valid := (hmem c draft).mpr ⟨hc, hdraft, rfl, hcovers⟩
  have hne : valid.isEmpty = false := by
    rw [List.isEmpty_eq_false_iff]
    exact List.ne_nil_of_mem hin
  have hany : found.isEmpty = false := by
    rw [List.isEmpty_eq_false_iff]
    exact List.ne_nil_of_mem (List.mem_of_mem_filter hin)
  have hseed : c.seedStockCode ∈ (candidatesOf valid).map (·.seedStockCode) :=
    mem_seeds_candidatesOf.mpr ⟨_, hin, rfl⟩
  have hshared : 1 < ((candidatesOf valid).map (·.seedStockCode)).dedup.length ↔
      master.Shared c draft asOf := by
    rw [one_lt_length_dedup hseed]
    constructor
    · rintro ⟨seed, hseed, hne⟩
      obtain ⟨⟨d, other⟩, hpair, rfl⟩ := mem_seeds_candidatesOf.mp hseed
      obtain ⟨hd, hother⟩ := (hmem d other).mp hpair
      exact ⟨d, hd, fun hsame => hne (by rw [hsame]), other, hother⟩
    · rintro ⟨d, hd, hne, other, hother⟩
      refine ⟨d.seedStockCode, mem_seeds_candidatesOf.mpr ⟨(d, other), ?_, rfl⟩,
        fun hsame => hne ?_⟩
      · exact (hmem d other).mpr ⟨hd, hother⟩
      · exact List.inj_on_of_nodup_map h.seeds_nodup hd hc hsame
  unfold resolveAlias
  simp only [← hfound, ← hvalid, hne, hany, Bool.false_eq_true, if_false]
  constructor
  · intro hown
    rw [if_neg (fun hlong => hown (hshared.mp hlong))]
    refine ⟨rfl, ?_⟩
    rw [CompanyResolution.seedStockCode, if_pos rfl]
    cases hcandidates : candidatesOf valid with
    | nil => simp [hcandidates] at hseed
    | cons first rest =>
      rw [List.head?_cons, Option.map_some, Option.some.injEq]
      by_contra hother
      refine hown (hshared.mp ((one_lt_length_dedup hseed).mpr ⟨first.seedStockCode, ?_, hother⟩))
      simp [hcandidates]
  · intro hother
    rw [if_pos (hshared.mpr hother)]

/-- A name of a company leads to it exactly when it can be found. -/
theorem nameResolves_iff [CharTable] {details : List ThemeDetail} {corpCodes : Dict String String}
    {krxNames : Option KrxNameIndex}
    (hmaster : buildCompanyMaster details corpCodes krxNames = .ok master)
    (hc : c ∈ master.companies) (hdraft : draft ∈ c.aliases) (hcovers : draft.covers asOf = true) :
    NameResolves master c draft asOf ↔ Findable master c draft asOf := by
  have h := wellFormed_buildCompanyMaster hmaster
  unfold NameResolves Findable resolveCompany
  dsimp only
  cases hcode : isStockCode (strip draft.aliasName) with
  | true =>
    simp only [if_true, Bool.true_eq_false, false_and, true_and, false_or]
    rw [← resolveCode_iff h hc]
    constructor
    · rintro ⟨hown, hother⟩
      have hnot : ¬ master.Shared c draft asOf := fun hshared =>
        resolveCode_not_ambiguous master _ (hother hshared)
      exact ⟨hnot, hown hnot⟩
    · rintro ⟨hnot, hown⟩
      exact ⟨fun _ => hown, fun hshared => absurd hshared hnot⟩
  | false =>
    simp only [Bool.false_eq_true, if_false, true_and, false_and, or_false]
    rw [normalizeCompanyName_strip]
    by_cases hblank : normalizeCompanyName draft.aliasName = ""
    · simp only [hblank, if_true, ne_eq, not_true_eq_false, iff_false, not_and]
      intro hown hother
      by_cases hshared : master.Shared c draft asOf
      · cases hother hshared
      · cases (hown hshared).1
    · simp only [hblank, if_false, ne_eq, not_false_eq_true, iff_true]
      rw [← h.named c hc draft hdraft]
      exact resolveAlias_of_covers h hc hdraft hcovers

end Search

/-- A theme of two stocks, the name of one of which is written like a code. -/
def capitalsTheme : ThemeDetail :=
  ⟨"1", [], [⟨some "009160", "SIMPAC", .ok⟩, ⟨some "005930", "삼성전자", .ok⟩]⟩

/-- The company of a stock that has one name. -/
def oneName (code name normalized : String) : CompanyDraft where
  seedStockCode := code
  canonicalName := name
  nameBasis := .source .currentMembership
  dartCorpCode := none
  aliases := [⟨name, normalized, .currentName, .observedMention, .currentMembership, none, none, 1⟩]
  instruments := [⟨code, .common, .stockCode, none, none⟩]
  revisions := [⟨.created, none, none, some name⟩]

def capitalsMaster : CompanyMaster :=
  ⟨[oneName "005930" "삼성전자" "삼성전자", oneName "009160" "SIMPAC" "simpac"], []⟩

omit [UnicodeTable] [Compatibility]

theorem buildCompanyMaster_capitals :
    letI : UnicodeTable := .ascii
    letI : Compatibility := .ascii
    letI : CharTable := ⟨fun _ => true⟩
    buildCompanyMaster [capitalsTheme] .empty none = .ok capitalsMaster := by
  decide +kernel

/-- A name that is no code leads to its company. -/
theorem nameResolves_samsung :
    letI : UnicodeTable := .ascii
    letI : Compatibility := .ascii
    let c := oneName "005930" "삼성전자" "삼성전자"
    NameResolves capitalsMaster c ⟨"삼성전자", "삼성전자", .currentName, .observedMention,
      .currentMembership, none, none, 1⟩ none := by
  let _ : UnicodeTable := .ascii
  let _ : Compatibility := .ascii
  let _ : CharTable := ⟨fun _ => true⟩
  refine
    (nameResolves_iff buildCompanyMaster_capitals (by simp [capitalsMaster]) (by simp [oneName])
    (by rfl)).mpr (.inl ⟨by decide +kernel, by decide +kernel⟩)

/-- The name in capital letters leads nowhere, though no other company has it. -/
theorem simpac_unknown :
    letI : UnicodeTable := .ascii
    letI : Compatibility := .ascii
    letI : CharTable := ⟨fun _ => true⟩
    ∃ master, buildCompanyMaster [capitalsTheme] .empty none = .ok master ∧
      ∃ c ∈ master.companies, ∃ draft ∈ c.aliases, draft.covers none = true ∧
        ¬ master.Shared c draft none ∧
        resolveCompany master draft.aliasName none = .unknown ∧
        ¬ NameResolves master c draft none := by
  let _ : UnicodeTable := .ascii
  let _ : Compatibility := .ascii
  have hunknown : resolveCompany capitalsMaster "SIMPAC" none = .unknown := by decide +kernel
  have hown : ¬ capitalsMaster.Shared (oneName "009160" "SIMPAC" "simpac")
      ⟨"SIMPAC", "simpac", .currentName, .observedMention, .currentMembership, none, none, 1⟩
      none := by
    rintro ⟨d, hd, hne, other, hother, hsame, -⟩
    rcases List.mem_cons.mp hd with rfl | hd
    · rw [List.mem_singleton.mp hother] at hsame
      exact absurd hsame (by decide)
    · exact hne (List.mem_singleton.mp hd)
  refine
    ⟨capitalsMaster, buildCompanyMaster_capitals, _, List.mem_cons_of_mem _ (List.mem_cons_self ..),
    _, List.mem_cons_self .., rfl, hown, hunknown, fun h => ?_⟩
  have hresolved := (h.1 hown).1
  dsimp only [oneName] at hresolved
  rw [hunknown] at hresolved
  cases hresolved

end Dayjaview.Ontology
