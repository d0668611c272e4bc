import Dayjaview.HistoricalMatching.Lookups

/-!
# Events and groups by id

The themes that the importer accepts may have letters, underscores and hyphens in their ids. The id
of an event finds that event when the id of its theme has no underscore, the id of a group finds
that group when the id of its theme is a number, and otherwise nothing is found. What is found has
the id that was asked for.
-/

namespace Dayjaview.HistoricalMatching

open Ontology

variable [Sha256]

/-- An id of letters, digits, underscores and hyphens. -/
def SafeThemeId (id : String) : Prop :=
  id ≠ "" ∧ ∀ c ∈ id.toList, c.isAlphanum = true ∨ c = '_' ∨ c = '-'

/-- The themes of a collection that the importer accepts. -/
structure Accepted (details : List ThemeDetail) : Prop where
  ids : (details.map ThemeDetail.sourceThemeId).Nodup
  safe : ∀ detail ∈ details, SafeThemeId detail.sourceThemeId
  keys : ∀ detail ∈ details, (detail.history.map ThemeHistory.sourceHistoryKey).Nodup

/-- The first digits of the digests tell the records of a theme apart. -/
def DigestsApart (details : List ThemeDetail) : Prop :=
  ∀ detail ∈ details, Set.InjOn (fun seed => takeText 16 (hexdigest seed))
    {seed | ∃ history ∈ detail.history,
      seed = eventSeed detail.sourceThemeId history.sourceHistoryKey}

/-- The past events of a theme. -/
def ThemeDetail.cases (detail : ThemeDetail) : List PastCase :=
  detail.history.filterMap (pastCase detail ("thm_" ++ detail.sourceThemeId))

variable {details : List ThemeDetail} {detail : ThemeDetail}

omit [Sha256] in
theorem Accepted.get?_details (h : Accepted details) {number : String} {detail : ThemeDetail} :
    (HistoricalCaseIndex.ofDetails details).details.get? number = some detail ↔
      detail ∈ details ∧ detail.sourceThemeId = number := by
  have hkeys : ((details.map fun detail => (detail.sourceThemeId, detail)).map Prod.fst).Nodup := by
    rw [List.map_map]
    exact h.ids
  rw [← Dict.mem_entries_iff, HistoricalCaseIndex.ofDetails, Dict.entries_ofList hkeys,
    List.mem_map]
  constructor
  · rintro ⟨other, hmem, heq⟩
    cases heq
    exact ⟨hmem, rfl⟩
  · rintro ⟨hmem, rfl⟩
    exact ⟨detail, hmem, rfl⟩

omit [Sha256] in
theorem removePrefix_append (number : String) :
    removePrefix "thm_" ("thm_" ++ number) = number := by
  have hlength : "thm_".length = "thm_".toList.length := by decide
  unfold removePrefix
  rw [String.toList_append, if_pos, hlength, List.drop_left, String.ofList_toList]
  exact List.isPrefixOf_iff_prefix.mpr (List.prefix_append _ _)

theorem Accepted.casesOf_eq (h : Accepted details) (hmem : detail ∈ details) :
    casesOf (HistoricalCaseIndex.ofDetails details).details ("thm_" ++ detail.sourceThemeId) =
      detail.cases := by
  unfold casesOf
  rw [removePrefix_append, h.get?_details.mpr ⟨hmem, rfl⟩]
  rfl

variable {themeId : String}

theorem pastCase_eq_some {history : ThemeHistory} {c : PastCase}
    (h : pastCase detail themeId history = some c) :
    c.matchedEventId = matchedEventId detail.sourceThemeId history.sourceHistoryKey ∧
      isBlank history.rawText = false ∧
      c.orderedTypeIds = (classifyCatalyst history.rawText).typeIds ∧
      c.direction = (classifyCatalyst history.rawText).direction ∧
      c.certainty = (classifyCatalyst history.rawText).certainty := by
  unfold pastCase at h
  generalize classifyCatalyst history.rawText = classification at h ⊢
  split at h
  · cases h
  · split at h
    · cases h
    · next hblank =>
      dsimp only at h
      split at h
      · cases h
        exact ⟨rfl, Bool.not_eq_true _ ▸ hblank, rfl, rfl, rfl⟩
      · cases h

theorem exists_pastCase {history : ThemeHistory} {marketDate : Date}
    (hdate : history.eventDate = some marketDate) (hblank : isBlank history.rawText = false)
    (hword : occurrences history.rawText.toList (upDirectionTokens ++ downDirectionTokens)
      (coreEndOf history.rawText.toList) ≠ []) :
    ∃ c, pastCase detail themeId history = some c ∧ c.marketDate = marketDate ∧
      c.orderedTypeIds = (classifyCatalyst history.rawText).typeIds := by
  have htyped : (classifyCatalyst history.rawText).typeIds ≠ [] := by
    intro hnil
    exact foundTypes_ne_nil hword (List.Perm.eq_nil (hnil ▸ (typeIds_perm history.rawText).symm))
  unfold pastCase
  generalize classifyCatalyst history.rawText = classification at htyped ⊢
  rw [hdate]
  dsimp only
  rw [if_neg (by simp [hblank]), dif_pos htyped]
  exact ⟨_, rfl, rfl, rfl⟩

theorem Accepted.case_unique (h : Accepted details) (hapart : DigestsApart details)
    (hmem : detail ∈ details) {c c' : PastCase} (hc : c ∈ detail.cases) (hc' : c' ∈ detail.cases)
    (hsame : c.matchedEventId = c'.matchedEventId) : c = c' := by
  obtain ⟨history, hhistory, hcase⟩ := List.mem_filterMap.mp hc
  obtain ⟨history', hhistory', hcase'⟩ := List.mem_filterMap.mp hc'
  rw [(pastCase_eq_some hcase).1, (pastCase_eq_some hcase').1] at hsame
  have hlists := congrArg String.toList hsame
  rw [toList_matchedEventId, toList_matchedEventId] at hlists
  have hdigest : eventDigest detail.sourceThemeId history.sourceHistoryKey =
      eventDigest detail.sourceThemeId history'.sourceHistoryKey := by simpa using hlists
  have hseed := hapart detail hmem ⟨history, hhistory, rfl⟩ ⟨history', hhistory', rfl⟩
    (congrArg String.ofList hdigest)
  have hkey : history.sourceHistoryKey = history'.sourceHistoryKey :=
    (String.append_right_inj _).mp hseed
  obtain rfl := List.inj_on_of_nodup_map (h.keys detail hmem) hhistory hhistory' hkey
  exact Option.some.inj (hcase.symm.trans hcase')

/-- The digests are in lower-case hexadecimal notation. -/
def HexDigests : Prop := ∀ seed : String, ∀ c ∈ (hexdigest seed).toList,
  c ∈ "0123456789abcdef".toList

theorem HexDigests.plain (hhex : HexDigests) (sourceThemeId sourceHistoryKey : String) :
    '_' ∉ eventDigest sourceThemeId sourceHistoryKey := fun hmem =>
  absurd (hhex _ _ (List.mem_of_mem_take hmem)) (by decide)

omit [Sha256] in
theorem find?_eq_some_of_unique {α : Type} {p : α → Bool} {as : List α} {a : α} (ha : a ∈ as)
    (hp : p a = true) (hunique : ∀ b ∈ as, p b = true → b = a) : as.find? p = some a := by
  obtain ⟨b, hb⟩ := Option.isSome_iff_exists.mp (List.find?_isSome.mpr ⟨a, ha, hp⟩)
  rw [hb, hunique b (List.mem_of_find?_eq_some hb) (List.find?_some hb)]

section Cases

variable {sameDay : Option SameDaySource} {g : CatalystGroupIndex} {c : PastCase}

theorem matchedEventId_of_mem_cases (hc : c ∈ detail.cases) : ∃ sourceHistoryKey,
    c.matchedEventId = matchedEventId detail.sourceThemeId sourceHistoryKey := by
  obtain ⟨history, _, hcase⟩ := List.mem_filterMap.mp hc
  exact ⟨history.sourceHistoryKey, (pastCase_eq_some hcase).1⟩

theorem Accepted.caseOf_eq (h : Accepted details) (hapart : DigestsApart details)
    (hhex : HexDigests) (hg : Coherent (HistoricalCaseIndex.ofDetails details).details sameDay g)
    (hmem : detail ∈ details) (hc : c ∈ detail.cases) (hplain : '_' ∉ detail.sourceThemeId.toList) :
    (g.index.caseOf c.matchedEventId).1 = some c := by
  obtain ⟨key, hkey⟩ := matchedEventId_of_mem_cases hc
  have hnumber : themeNumber c.matchedEventId = some detail.sourceThemeId := by
    rw [hkey]
    exact themeNumber_matchedEventId (hhex.plain _ _) (h.safe detail hmem).1 hplain
  have hdetail := h.get?_details.mpr ⟨hmem, rfl⟩
  rw [(hg.caseOf_spec _).1, hnumber]
  dsimp only
  rw [hdetail, h.casesOf_eq hmem]
  exact find?_eq_some_of_unique hc (decide_eq_true rfl) fun other hother hsame =>
    h.case_unique hapart hmem hother hc (of_decide_eq_true hsame)

theorem caseOf_eq_none (hhex : HexDigests)
    (hg : Coherent (HistoricalCaseIndex.ofDetails details).details sameDay g)
    (hc : c ∈ detail.cases) (hmem : '_' ∈ detail.sourceThemeId.toList) :
    (g.index.caseOf c.matchedEventId).1 = none := by
  obtain ⟨key, hkey⟩ := matchedEventId_of_mem_cases hc
  rw [(hg.caseOf_spec _).1, hkey, themeNumber_eq_none (hhex.plain _ _) hmem]

theorem Accepted.mem_of_caseOf (h : Accepted details)
    (hg : Coherent (HistoricalCaseIndex.ofDetails details).details sameDay g) {id : String}
    (hfound : (g.index.caseOf id).1 = some c) :
    ∃ detail ∈ details, c ∈ detail.cases ∧ c.matchedEventId = id := by
  rw [(hg.caseOf_spec id).1] at hfound
  split at hfound
  · cases hfound
  · next number _ =>
    split at hfound
    · cases hfound
    · next hknown =>
      obtain ⟨detail, hdetail⟩ := Option.ne_none_iff_exists'.mp
        fun hnone => hknown (Option.isNone_iff_eq_none.mpr hnone)
      obtain ⟨hmem, rfl⟩ := h.get?_details.mp hdetail
      rw [h.casesOf_eq hmem] at hfound
      have hsame := List.find?_some hfound
      exact ⟨detail, hmem, List.mem_of_find?_eq_some hfound, of_decide_eq_true hsame⟩

end Cases

/-- The reactions to the past events of one type. -/
def ThemeDetail.reactions (detail : ThemeDetail) (source : SameDaySource) (type : CatalystType) :
    List Reaction :=
  (detail.cases.map (reaction source)).filter fun row => row.1.primaryTypeId = type

/-- How many of the reactions to one type are known. -/
def ThemeDetail.observedCount (detail : ThemeDetail) (source : SameDaySource)
    (type : CatalystType) : Nat :=
  ((detail.reactions source type).filterMap Prod.snd).length

omit [Sha256] in
theorem catalystGroup_eq_some {type : CatalystType} {rows : List Reaction} {group : CatalystGroup}
    (h : catalystGroup themeId type rows = some group) :
    minGroupEvents ≤ (rows.filterMap Prod.snd).length ∧
      group.catalystId = catalystId themeId type.typeId ∧ group.typeId = type ∧
      ∀ row, row ∈ group.events ↔ row ∈ rows := by
  unfold catalystGroup at h
  dsimp only at h
  split at h
  · cases h
  · next hmany =>
    cases h
    exact ⟨not_lt.mp hmany, rfl, rfl, fun row => mem_ranked⟩

section GroupIds

variable {source : SameDaySource} {g : CatalystGroupIndex} {group : CatalystGroup}
  {type : CatalystType}

theorem Accepted.mem_groupsOf (h : Accepted details) (hmem : detail ∈ details) :
    group ∈ groupsOf (HistoricalCaseIndex.ofDetails details).details (some source)
        ("thm_" ++ detail.sourceThemeId) ↔
      ∃ type, catalystGroup ("thm_" ++ detail.sourceThemeId) type (detail.reactions source type) =
        some group := by
  rw [groupsOf, mem_ranked, bucketsOf, h.casesOf_eq hmem, List.mem_filterMap]
  constructor
  · rintro ⟨⟨type, rows⟩, hrows, hgroup⟩
    obtain ⟨_, rfl⟩ := (mem_grouped _).mp hrows
    exact ⟨type, hgroup⟩
  · rintro ⟨type, hgroup⟩
    refine ⟨(type, detail.reactions source type), (mem_grouped _).mpr ⟨?_, rfl⟩, hgroup⟩
    -- a type with enough reactions has an event
    have hmany := (catalystGroup_eq_some hgroup).1
    obtain ⟨value, hvalue⟩ := List.exists_mem_of_length_pos (lt_of_lt_of_le (by decide) hmany)
    obtain ⟨row, hrow, _⟩ := List.mem_filterMap.mp hvalue
    obtain ⟨hrow, htype⟩ := List.mem_filter.mp hrow
    exact List.mem_map.mpr ⟨row, hrow, of_decide_eq_true htype⟩

theorem Accepted.group_spec (h : Accepted details) (hmem : detail ∈ details)
    (hgroup : group ∈ groupsOf (HistoricalCaseIndex.ofDetails details).details (some source)
      ("thm_" ++ detail.sourceThemeId)) :
    minGroupEvents ≤ detail.observedCount source group.typeId ∧
      group.catalystId = catalystId ("thm_" ++ detail.sourceThemeId) group.typeId.typeId ∧
      ∀ row ∈ group.events, row.1 ∈ detail.cases := by
  obtain ⟨type, hbuilt⟩ := (h.mem_groupsOf hmem).mp hgroup
  obtain ⟨hmany, hid, rfl, hevents⟩ := catalystGroup_eq_some hbuilt
  refine ⟨hmany, hid, fun row hrow => ?_⟩
  obtain ⟨c, hc, rfl⟩ := List.mem_map.mp (List.mem_of_mem_filter ((hevents row).mp hrow))
  exact hc

theorem Accepted.group_unique (h : Accepted details) (hmem : detail ∈ details)
    {other : CatalystGroup}
    (hgroup : group ∈ groupsOf (HistoricalCaseIndex.ofDetails details).details (some source)
      ("thm_" ++ detail.sourceThemeId))
    (hother : other ∈ groupsOf (HistoricalCaseIndex.ofDetails details).details (some source)
      ("thm_" ++ detail.sourceThemeId)) (hsame : other.typeId = group.typeId) : other = group := by
  obtain ⟨type, hbuilt⟩ := (h.mem_groupsOf hmem).mp hgroup
  obtain ⟨type', hbuilt'⟩ := (h.mem_groupsOf hmem).mp hother
  rw [(catalystGroup_eq_some hbuilt).2.2.1, (catalystGroup_eq_some hbuilt').2.2.1] at hsame
  obtain rfl := hsame
  exact Option.some.inj (hbuilt'.symm.trans hbuilt)

variable [UnicodeTable]

theorem Accepted.groupOf_eq (h : Accepted details)
    (hg : Coherent (HistoricalCaseIndex.ofDetails details).details (some source) g)
    (hmem : detail ∈ details)
    (hgroup : group ∈ groupsOf (HistoricalCaseIndex.ofDetails details).details (some source)
      ("thm_" ++ detail.sourceThemeId)) (hdigits : isDigitText detail.sourceThemeId = true)
    (hplain : '_' ∉ detail.sourceThemeId.toList) : (g.groupOf group.catalystId).1 = some group := by
  rw [(hg.groupOf_spec _).1, (h.group_spec hmem hgroup).2.1,
    splitCatalystId_catalystId hdigits hplain]
  exact find?_eq_some_of_unique hgroup (decide_eq_true rfl) fun other hother hsame =>
    h.group_unique hmem hgroup hother (of_decide_eq_true hsame)

theorem Accepted.groupOf_eq_none (h : Accepted details)
    (hg : Coherent (HistoricalCaseIndex.ofDetails details).details (some source) g)
    (hmem : detail ∈ details)
    (hgroup : group ∈ groupsOf (HistoricalCaseIndex.ofDetails details).details (some source)
      ("thm_" ++ detail.sourceThemeId)) (hdigits : isDigitText detail.sourceThemeId = false) :
    (g.groupOf group.catalystId).1 = none := by
  rw [(hg.groupOf_spec _).1, (h.group_spec hmem hgroup).2.1, splitCatalystId_eq_none hdigits]

omit [UnicodeTable] in
theorem Accepted.of_mem_groupsOf (h : Accepted details) {number : String}
    (hgroup : group ∈ groupsOf (HistoricalCaseIndex.ofDetails details).details (some source)
      ("thm_" ++ number)) : ∃ detail ∈ details, detail.sourceThemeId = number := by
  by_contra hunknown
  have hnone : (HistoricalCaseIndex.ofDetails details).details.get? number = none := by
    by_contra hsome
    obtain ⟨detail, hdetail⟩ := Option.ne_none_iff_exists'.mp hsome
    exact hunknown ⟨detail, (h.get?_details.mp hdetail).1, (h.get?_details.mp hdetail).2⟩
  rw [groupsOf, mem_ranked, bucketsOf, casesOf, removePrefix_append, hnone] at hgroup
  cases hgroup

omit [Sha256] in
theorem exists_of_splitCatalystId {text themeId : String}
    (h : splitCatalystId text = some (themeId, type)) : ∃ number, themeId = "thm_" ++ number := by
  unfold splitCatalystId at h
  split at h
  · dsimp only at h
    split at h
    · cases h
    · split at h
      · obtain ⟨_, _, heq⟩ := Option.map_eq_some_iff.mp h
        exact ⟨_, (Prod.mk.inj heq).1.symm⟩
      · cases h
  · cases h

theorem Accepted.mem_of_groupOf (h : Accepted details)
    (hg : Coherent (HistoricalCaseIndex.ofDetails details).details (some source) g) {id : String}
    (hfound : (g.groupOf id).1 = some group) :
    ∃ detail ∈ details, group ∈ groupsOf (HistoricalCaseIndex.ofDetails details).details
      (some source) ("thm_" ++ detail.sourceThemeId) ∧ group.catalystId = id := by
  rw [(hg.groupOf_spec id).1] at hfound
  split at hfound
  · cases hfound
  · next themeId type hsplit =>
    obtain ⟨number, rfl⟩ := exists_of_splitCatalystId hsplit
    have hgroup := List.mem_of_find?_eq_some hfound
    have htype := List.find?_some hfound
    obtain ⟨detail, hmem, rfl⟩ := h.of_mem_groupsOf hgroup
    refine ⟨detail, hmem, hgroup, ?_⟩
    rw [(h.group_spec hmem hgroup).2.1, of_decide_eq_true htype,
      catalystId_of_splitCatalystId hsplit]

end GroupIds

end Dayjaview.HistoricalMatching
