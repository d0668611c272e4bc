import Dayjaview.HistoricalMatching.Resolution

/-!
# The ids that are handed out

The ids of events and groups that one index hands out are found in another index of the same themes,
whatever was looked up in either, exactly when no theme with an event has an underscore in its id
and every theme with a group has a number for its id.
-/

namespace Dayjaview.HistoricalMatching

open Ontology

variable [Sha256] [UnicodeTable]

/-- The ids that one index hands out are found in another one, and no others are. -/
structure Resolves (g g' : CatalystGroupIndex) : Prop where
  events : ∀ themeId ∈ g.index.themeIds, ∀ today marketDate limit,
    ∀ item ∈ (similarEventsData g.index themeId today marketDate limit).1.items,
      ∃ scored : ScoredCase, item = scored.item ∧ scored.case ∈ (g.index.cases themeId).1 ∧
        (g'.index.caseOf item.matchedEventId).1 = some scored.case
  groupEvents : ∀ themeId ∈ g.index.themeIds, ∀ group ∈ (g.groups themeId).1,
    ∀ row ∈ group.events, (g'.index.caseOf row.1.matchedEventId).1 = some row.1
  groups : ∀ themeId ∈ g.index.themeIds, ∀ today,
    ∀ item ∈ (catalystTop3Data g themeId today).1.items,
      ∃ group, (g'.groupOf item.catalystId).1 = some group ∧ group.item today = item
  unknownCase : ∀ id, (∀ themeId ∈ g.index.themeIds, ∀ c ∈ (g.index.cases themeId).1,
    c.matchedEventId ≠ id) → (g'.index.caseOf id).1 = none
  unknownGroup : ∀ id, (∀ themeId ∈ g.index.themeIds, ∀ group ∈ (g.groups themeId).1,
    group.catalystId ≠ id) → (g'.groupOf id).1 = none

omit [UnicodeTable] in
/-- The ids of the themes can be read in the ids of their events and groups. -/
structure Resolvable (details : List ThemeDetail) (sameDay : Option SameDaySource) : Prop where
  plain : ∀ detail ∈ details, ∀ c ∈ detail.cases, ∀ marketDate, c.marketDate < marketDate →
    '_' ∉ detail.sourceThemeId.toList
  digits : ∀ source ∈ sameDay, ∀ detail ∈ details, ∀ type,
    minGroupEvents ≤ detail.observedCount source type →
      ∀ c ∈ detail.sourceThemeId.toList, c.isDigit = true

omit [Sha256] in
/-- Within ASCII the digits are those from zero to nine. -/
def AsciiDigits : Prop := ∀ c : Char, c.toNat < 128 → UnicodeTable.isdigit c = c.isDigit

omit [Sha256] in
theorem SafeThemeId.isDigitText_iff {id : String} (hsafe : SafeThemeId id) (hascii : AsciiDigits) :
    isDigitText id = true ↔ ∀ c ∈ id.toList, c.isDigit = true := by
  have hsmall : ∀ c ∈ id.toList, c.toNat < 128 := by
    intro c hc
    rcases hsafe.2 c hc with halnum | rfl | rfl
    · change (decide (c.val ≥ 'A'.val ∧ c.val ≤ 'Z'.val) || (c.val ≥ 'a'.val && c.val ≤ 'z'.val) ||
        (c.val ≥ '0'.val && c.val ≤ '9'.val)) = true at halnum
      simp only [Bool.or_eq_true, Bool.and_eq_true, decide_eq_true_eq] at halnum
      rw [UInt32.le_iff_toNat_le, UInt32.le_iff_toNat_le, UInt32.le_iff_toNat_le] at halnum
      have hupper : 'Z'.val.toNat = 90 := rfl
      have hlower : 'z'.val.toNat = 122 := rfl
      have hnine : '9'.val.toNat = 57 := rfl
      change c.val.toNat < 128
      omega
    · decide
    · decide
  have hne : id.toList ≠ [] := fun hnil => hsafe.1 (String.toList_eq_nil_iff.mp hnil)
  rw [isDigitText, Bool.and_eq_true, List.all_eq_true]
  constructor
  · rintro ⟨_, hall⟩ c hc
    rw [← hascii c (hsmall c hc)]
    exact hall c hc
  · intro hall
    refine ⟨by simpa using hne, fun c hc => ?_⟩
    rw [hascii c (hsmall c hc)]
    exact hall c hc

section Handed

variable {details : List ThemeDetail} {sameDay : Option SameDaySource} {g g' : CatalystGroupIndex}
  {detail : ThemeDetail}

omit [UnicodeTable] in
theorem Accepted.mem_themeIds (h : Accepted details)
    (hg : Coherent (HistoricalCaseIndex.ofDetails details).details sameDay g) {themeId : String} :
    themeId ∈ g.index.themeIds ↔ ∃ detail ∈ details, "thm_" ++ detail.sourceThemeId = themeId := by
  rw [HistoricalCaseIndex.themeIds, hg.themes, List.mem_map]
  constructor
  · rintro ⟨number, hnumber, rfl⟩
    obtain ⟨detail, hdetail⟩ := Option.isSome_iff_exists.mp ((Dict.mem_keys_iff _).mp hnumber)
    obtain ⟨hmem, rfl⟩ := h.get?_details.mp hdetail
    exact ⟨detail, hmem, rfl⟩
  · rintro ⟨detail, hmem, rfl⟩
    refine ⟨detail.sourceThemeId, (Dict.mem_keys_iff _).mpr ?_, rfl⟩
    rw [h.get?_details.mpr ⟨hmem, rfl⟩]
    rfl

omit [Sha256] [UnicodeTable] in
theorem mem_rankCases {today : TodayContext} {cases : List PastCase} {before : Date} {limit : Nat}
    {scored : ScoredCase} (hmem : scored ∈ rankCases today cases before limit) :
    scored.case ∈ cases ∧ scored.case.marketDate < before := by
  have hmem := List.mem_of_mem_filter (mem_ranked.mp (List.mem_of_mem_take hmem))
  obtain ⟨c, hc, hscore⟩ := List.mem_filterMap.mp hmem
  obtain ⟨hc, hbefore⟩ := List.mem_filter.mp hc
  have hcase : scored.case = c := by
    unfold scoreOf at hscore
    dsimp only at hscore
    split at hscore
    · cases hscore
    · cases hscore
      rfl
  rw [hcase]
  exact ⟨hc, of_decide_eq_true hbefore⟩

omit [UnicodeTable] in
theorem Accepted.mem_items (h : Accepted details)
    (hg : Coherent (HistoricalCaseIndex.ofDetails details).details sameDay g)
    (hmem : detail ∈ details) {today : Option TodayContext} {marketDate : Date} {limit : Nat}
    {item : SimilarEventItem} (hitem : item ∈ (similarEventsData g.index
      ("thm_" ++ detail.sourceThemeId) today marketDate limit).1.items) :
    ∃ scored : ScoredCase, item = scored.item ∧ scored.case ∈ detail.cases ∧
      scored.case.marketDate < marketDate := by
  rw [(hg.similarEvents_spec _ today marketDate limit).1, h.casesOf_eq hmem] at hitem
  cases today with
  | none => cases hitem
  | some today =>
    obtain ⟨scored, hscored, rfl⟩ := List.mem_map.mp hitem
    exact ⟨scored, rfl, mem_rankCases (List.mem_of_mem_take hscored)⟩

omit [UnicodeTable] in
theorem mem_top3 (hg : Coherent (HistoricalCaseIndex.ofDetails details).details sameDay g)
    {themeId : String} {today : Option TodayContext} {item : CatalystItem}
    (hitem : item ∈ (catalystTop3Data g themeId today).1.items) :
    ∃ group ∈ groupsOf (HistoricalCaseIndex.ofDetails details).details sameDay themeId,
      group.item today = item := by
  unfold catalystTop3Data at hitem
  obtain ⟨group, hgroup, rfl⟩ := List.mem_map.mp hitem
  rw [(hg.groups_spec themeId).1] at hgroup
  exact ⟨group, List.mem_of_mem_take hgroup, rfl⟩

theorem Accepted.resolves (h : Accepted details) (hapart : DigestsApart details)
    (hhex : HexDigests) (hascii : AsciiDigits) (hread : Resolvable details sameDay)
    (hg : Coherent (HistoricalCaseIndex.ofDetails details).details sameDay g)
    (hg' : Coherent (HistoricalCaseIndex.ofDetails details).details sameDay g') :
    Resolves g g' := by
  -- a theme with a group has a number for its id
  have hgroup : ∀ detail ∈ details, ∀ source ∈ sameDay,
      ∀ group ∈ groupsOf (HistoricalCaseIndex.ofDetails details).details (some source)
        ("thm_" ++ detail.sourceThemeId),
      isDigitText detail.sourceThemeId = true ∧ '_' ∉ detail.sourceThemeId.toList := by
    intro detail hmem source hsource group hgroup
    have hdigits := hread.digits source hsource detail hmem _ (h.group_spec hmem hgroup).1
    exact ⟨((h.safe detail hmem).isDigitText_iff hascii).mpr hdigits,
      fun hunderscore => absurd (hdigits '_' hunderscore) (by decide)⟩
  refine ⟨?events, ?groupEvents, ?groups, ?unknownCase, ?unknownGroup⟩
  case events =>
    intro themeId htheme today marketDate limit item hitem
    obtain ⟨detail, hmem, rfl⟩ := (h.mem_themeIds hg).mp htheme
    obtain ⟨scored, rfl, hcase, hbefore⟩ := h.mem_items hg hmem hitem
    rw [(hg.cases_spec _).1, h.casesOf_eq hmem]
    have hplain := hread.plain detail hmem _ hcase marketDate hbefore
    exact ⟨scored, rfl, hcase, h.caseOf_eq hapart hhex hg' hmem hcase hplain⟩
  case groupEvents =>
    intro themeId htheme group hfound row hrow
    obtain ⟨detail, hmem, rfl⟩ := (h.mem_themeIds hg).mp htheme
    rw [(hg.groups_spec _).1] at hfound
    cases sameDay with
    | none => cases hfound
    | some source =>
      have hplain := (hgroup detail hmem source rfl group hfound).2
      have hcase := (h.group_spec hmem hfound).2.2 row hrow
      exact h.caseOf_eq hapart hhex hg' hmem hcase hplain
  case groups =>
    intro themeId htheme today item hitem
    obtain ⟨detail, hmem, rfl⟩ := (h.mem_themeIds hg).mp htheme
    obtain ⟨group, hfound, rfl⟩ := mem_top3 hg hitem
    cases sameDay with
    | none => cases hfound
    | some source =>
      obtain ⟨hdigits, hplain⟩ := hgroup detail hmem source rfl group hfound
      exact ⟨group, h.groupOf_eq hg' hmem hfound hdigits hplain, rfl⟩
  case unknownCase =>
    intro id hunknown
    by_contra hsome
    obtain ⟨c, hc⟩ := Option.ne_none_iff_exists'.mp hsome
    obtain ⟨detail, hmem, hcase, hid⟩ := h.mem_of_caseOf hg' hc
    refine hunknown _ ((h.mem_themeIds hg).mpr ⟨detail, hmem, rfl⟩) c ?_ hid
    rw [(hg.cases_spec _).1, h.casesOf_eq hmem]
    exact hcase
  case unknownGroup =>
    intro id hunknown
    by_contra hsome
    obtain ⟨group, hfound⟩ := Option.ne_none_iff_exists'.mp hsome
    cases sameDay with
    | none =>
      rw [(hg'.groupOf_spec id).1] at hfound
      split at hfound <;> cases hfound
    | some source =>
      obtain ⟨detail, hmem, hgroup, hid⟩ := h.mem_of_groupOf hg' hfound
      refine hunknown _ ((h.mem_themeIds hg).mpr ⟨detail, hmem, rfl⟩) group ?_ hid
      rw [(hg.groups_spec _).1]
      exact hgroup

section

omit [Sha256] [UnicodeTable]

/-- The labels of a past event, without leaders. -/
def PastCase.context (c : PastCase) : TodayContext :=
  ⟨c.orderedTypeIds, c.direction, c.certainty, ∅, c.typed⟩

theorem exists_scoreOf_context (c : PastCase) :
    ∃ scored, scoreOf c.context c = some scored ∧ minScore ≤ scored.score := by
  have htypes : c.orderedTypeIds.toFinset ≠ ∅ := fun hnone =>
    c.typed (List.toFinset_eq_empty_iff _ |>.mp hnone)
  have hcard : ((c.orderedTypeIds.toFinset.card : ℕ) : ℚ) ≠ 0 :=
    Nat.cast_ne_zero.mpr (Finset.card_ne_zero.mpr (Finset.nonempty_iff_ne_empty.mpr htypes))
  have hoverlap : weighted overlapWeight c.orderedTypeIds.toFinset.card
      c.orderedTypeIds.toFinset.card = binary64 (overlapWeight * binary64 1) := by
    rw [weighted, div_self hcard]
  have hleaders : (∅ : Finset String) ∩ c.leaderCodes = ∅ := Finset.empty_inter _
  unfold scoreOf PastCase.context
  dsimp only
  rw [if_neg (by rwa [Finset.inter_self])]
  refine ⟨_, rfl, ?_⟩
  dsimp only
  rw [Finset.inter_self, Finset.union_self, hoverlap, hleaders]
  simp only [TodayContext.primaryTypeId, PastCase.primaryTypeId, raise, ne_eq, not_true_eq_false,
    if_true, if_false, true_and]
  split <;> split <;> decide +kernel

end

omit [UnicodeTable] in
theorem Accepted.items_ne_nil (h : Accepted details)
    (hg : Coherent (HistoricalCaseIndex.ofDetails details).details sameDay g)
    (hmem : detail ∈ details) {c : PastCase} (hc : c ∈ detail.cases) {marketDate : Date}
    (hbefore : c.marketDate < marketDate) :
    (similarEventsData g.index ("thm_" ++ detail.sourceThemeId) (some c.context) marketDate
      maxItems).1.items ≠ [] := by
  obtain ⟨scored, hscored, hscore⟩ := exists_scoreOf_context c
  have hranked : rankCases c.context detail.cases marketDate (maxItems + 1) ≠ [] := by
    have hscores : scored ∈ ((detail.cases.filter fun c => c.marketDate < marketDate).filterMap
        (scoreOf c.context)).filter fun s => minScore ≤ s.score :=
      List.mem_filter.mpr ⟨List.mem_filterMap.mpr
        ⟨c, List.mem_filter.mpr ⟨hc, decide_eq_true hbefore⟩, hscored⟩, decide_eq_true hscore⟩
    have hmem : scored ∈ ranked ScoredCase.key _ := mem_ranked.mpr hscores
    simpa [rankCases] using List.ne_nil_of_mem hmem
  rw [(hg.similarEvents_spec _ _ marketDate maxItems).1, h.casesOf_eq hmem]
  simpa [maxItems] using hranked

theorem Resolves.plain (hresolves : Resolves g g') (h : Accepted details) (hhex : HexDigests)
    (hg : Coherent (HistoricalCaseIndex.ofDetails details).details sameDay g)
    (hg' : Coherent (HistoricalCaseIndex.ofDetails details).details sameDay g')
    (hmem : detail ∈ details) {c : PastCase} (hc : c ∈ detail.cases) {marketDate : Date}
    (hbefore : c.marketDate < marketDate) : '_' ∉ detail.sourceThemeId.toList := by
  intro hunderscore
  obtain ⟨item, hitem⟩ := List.exists_mem_of_ne_nil _ (h.items_ne_nil hg hmem hc hbefore)
  have htheme := (h.mem_themeIds hg).mpr ⟨detail, hmem, rfl⟩
  obtain ⟨scored, rfl, hcase, hfound⟩ := hresolves.events _ htheme _ _ _ item hitem
  rw [(hg.cases_spec _).1, h.casesOf_eq hmem] at hcase
  rw [ScoredCase.item, caseOf_eq_none hhex hg' hcase hunderscore] at hfound
  cases hfound

theorem Resolves.digits {source : SameDaySource} (hresolves : Resolves g g') (h : Accepted details)
    (hascii : AsciiDigits)
    (hg : Coherent (HistoricalCaseIndex.ofDetails details).details (some source) g)
    (hg' : Coherent (HistoricalCaseIndex.ofDetails details).details (some source) g')
    (hmem : detail ∈ details) {type : CatalystType}
    (hmany : minGroupEvents ≤ detail.observedCount source type) :
    ∀ c ∈ detail.sourceThemeId.toList, c.isDigit = true := by
  refine ((h.safe detail hmem).isDigitText_iff hascii).mp ?_
  by_contra hdigits
  have hshown : (catalystTop3Data g ("thm_" ++ detail.sourceThemeId) none).1.items ≠ [] := by
    obtain ⟨group, hgroup⟩ : ∃ group, catalystGroup ("thm_" ++ detail.sourceThemeId) type
        (detail.reactions source type) = some group :=
      ⟨_, if_neg (not_lt.mpr hmany)⟩
    have hfound := List.ne_nil_of_mem ((h.mem_groupsOf hmem).mpr ⟨type, hgroup⟩)
    unfold catalystTop3Data
    dsimp only
    rw [(hg.groups_spec _).1]
    simpa [topGroups] using hfound
  obtain ⟨item, hitem⟩ := List.exists_mem_of_ne_nil _ hshown
  have htheme := (h.mem_themeIds hg).mpr ⟨detail, hmem, rfl⟩
  obtain ⟨group, hgroup, heq⟩ := mem_top3 hg hitem
  obtain ⟨other, hfound, _⟩ := hresolves.groups _ htheme none item hitem
  rw [← heq, CatalystGroup.item, h.groupOf_eq_none hg' hmem hgroup (by simpa using hdigits)]
    at hfound
  cases hfound

end Handed

omit [Sha256] [UnicodeTable]

def riseHistory (sourceHistoryKey : String) : ThemeHistory :=
  { sourceHistoryKey
    eventDate := some ⟨2024, 5, 2, by decide⟩
    rawText := "급등 소식"
    leaders := []
    memberStocks := [] }

/-- A theme that rose some times. -/
def riseTheme (sourceThemeId : String) (keys : List String) : ThemeDetail :=
  ⟨sourceThemeId, "테마", keys.map riseHistory⟩

/-- The digests of the records of two themes. -/
def riseTable : List (String × String) :=
  [("a_b|source:1", "05a86e01d58c47d4635d611ed8c8d824884037807eea179b9cc2767d213ea90f"),
    ("12|source:1", "8108f96b0ed596cbb399b81c54c16ec1e772802fc20bc8a0ba8e9b5bed11b251"),
    ("12|source:2", "2b7ce6e7c9dee1b5f6dd4ac1453d519e2b02b805a839ee4b9366697701460a26"),
    ("12|source:3", "0c72d0b8f7ec2677083fafcfb94ab63dea0a51feea52a629226cf518741f2fca"),
    ("12|source:4", "76a20a0205c64701e49e0c1349c37d5487763a9940ddbfc4b821aa72640061b3"),
    ("12|source:5", "eec888a52b22eb7afdb6ef53ad6f1f9dee9ba01d286d36a3c8100736d5b6cf4b")]

@[reducible] def riseDigests : Sha256 where
  hexdigest seed := (riseTable.lookup seed).getD ""

theorem hexDigests_rise : @HexDigests riseDigests := by
  have htable : ∀ e ∈ riseTable, ∀ c ∈ e.2.toList, c ∈ "0123456789abcdef".toList := by decide
  intro seed c hc
  unfold hexdigest Sha256.hexdigest at hc
  dsimp only at hc
  cases hfound : riseTable.lookup seed with
  | none =>
    rw [hfound] at hc
    cases hc
  | some digest =>
    rw [hfound] at hc
    obtain ⟨before, later, hsplit, -⟩ := List.lookup_eq_some_iff.mp hfound
    exact htable _ (hsplit ▸ List.mem_append_right before List.mem_cons_self) c hc

theorem accepted_rise {sourceThemeId : String} (hsafe : SafeThemeId sourceThemeId)
    {keys : List String} (hkeys : keys.Nodup) :
    Accepted [riseTheme sourceThemeId keys] where
  ids := List.nodup_singleton _
  safe detail hmem := by
    obtain rfl := List.mem_singleton.mp hmem
    exact hsafe
  keys detail hmem := by
    obtain rfl := List.mem_singleton.mp hmem
    rw [riseTheme, List.map_map]
    exact (List.map_id keys).symm ▸ hkeys

theorem digestsApart_rise [Sha256] {sourceThemeId : String} {keys : List String}
    (hapart : ((keys.map fun key => eventSeed sourceThemeId
      (riseHistory key).sourceHistoryKey).map fun seed => takeText 16 (hexdigest seed)).Nodup) :
    DigestsApart [riseTheme sourceThemeId keys] := by
  intro detail hmem
  obtain rfl := List.mem_singleton.mp hmem
  rintro _ ⟨history, hhistory, rfl⟩ _ ⟨history', hhistory', rfl⟩ heq
  obtain ⟨key, hkey, rfl⟩ := List.mem_map.mp hhistory
  obtain ⟨key', hkey', rfl⟩ := List.mem_map.mp hhistory'
  exact List.inj_on_of_nodup_map hapart (List.mem_map_of_mem hkey)
    (List.mem_map_of_mem hkey') heq

/-- The ids that are handed out are found, whatever was looked up before, exactly when the ids of
the themes can be read. -/
theorem resolves_iff [Sha256] [UnicodeTable] {details : List ThemeDetail}
    (h : Accepted details) (hapart : DigestsApart details) (hhex : HexDigests)
    (hascii : AsciiDigits) (sameDay : Option SameDaySource) (lookups lookups' : List Lookup) :
    Resolves (lookedUp details sameDay lookups) (lookedUp details sameDay lookups') ↔
      Resolvable details sameDay := by
  have hg := coherent_lookedUp details sameDay lookups
  have hg' := coherent_lookedUp details sameDay lookups'
  constructor
  · intro hresolves
    refine ⟨?_, ?_⟩
    · intro detail hmem c hc marketDate hbefore
      exact hresolves.plain h hhex hg hg' hmem hc hbefore
    · rintro source rfl detail hmem type hmany
      exact hresolves.digits h hascii hg hg' hmem hmany
  · intro hread
    exact h.resolves hapart hhex hascii hread hg hg'

/-- Every day gains three percent. -/
def threePercent : SameDaySource := ⟨fun _ _ => some (.ofNat 3)⟩

theorem rawText_rise (key : String) : (riseHistory key).rawText = "급등 소식" := rfl

theorem exists_pastCase_rise [Sha256] (detail : ThemeDetail) (themeId key : String) :
    ∃ c, pastCase detail themeId (riseHistory key) = some c ∧
      c.marketDate = ⟨2024, 5, 2, by decide⟩ ∧
      c.orderedTypeIds = (classifyCatalyst "급등 소식").typeIds := by
  have hblank : isBlank "급등 소식" = false := by decide +kernel
  have hword : occurrences "급등 소식".toList (upDirectionTokens ++ downDirectionTokens)
      (coreEndOf "급등 소식".toList) ≠ [] := by decide +kernel
  rw [← rawText_rise key] at hblank hword ⊢
  exact exists_pastCase rfl hblank hword

theorem primaryTypeId_eq_head {c : PastCase} {types : List CatalystType}
    (h : c.orderedTypeIds = types) (hne : types ≠ []) : c.primaryTypeId = types.head hne := by
  subst h
  rfl

/-- All events of the theme are of one type and have a price. -/
theorem exists_observedCount_rise [Sha256] (sourceThemeId : String) (keys : List String) :
    ∃ type, (riseTheme sourceThemeId keys).observedCount threePercent type =
      keys.length := by
  choose c hcase _ htypes using exists_pastCase_rise (riseTheme sourceThemeId keys)
    ("thm_" ++ sourceThemeId)
  have htyped : (classifyCatalyst "급등 소식").typeIds ≠ [] := htypes "" ▸ (c "").typed
  have hcases : (riseTheme sourceThemeId keys).cases = keys.map c := by
    unfold ThemeDetail.cases riseTheme
    rw [List.filterMap_map]
    exact (List.filterMap_congr fun key _ => hcase key).trans
      (congrFun List.filterMap_eq_map' keys)
  refine ⟨List.head _ htyped, ?_⟩
  rw [ThemeDetail.observedCount, ThemeDetail.reactions, hcases, List.map_map,
    List.filter_eq_self.mpr]
  · rw [List.filterMap_map]
    exact (congrArg List.length (congrFun List.filterMap_eq_map keys)).trans (List.length_map _)
  · intro row hrow
    obtain ⟨key, -, rfl⟩ := List.mem_map.mp hrow
    exact decide_eq_true (primaryTypeId_eq_head (htypes key) htyped)

/-- A theme with a number for its id. -/
def numbered : ThemeDetail :=
  riseTheme "12" ["source:1", "source:2", "source:3", "source:4", "source:5"]

theorem digestsApart_numbered : @DigestsApart riseDigests [numbered] := by
  let := riseDigests
  have hshort : (["12|source:1", "12|source:2", "12|source:3", "12|source:4", "12|source:5"].map
      fun seed => takeText 16 ((riseTable.lookup seed).getD "")) = ["8108f96b0ed596cb",
        "2b7ce6e7c9dee1b5", "0c72d0b8f7ec2677", "76a20a0205c64701", "eec888a52b22eb7a"] := by
    simp [riseTable, List.lookup_cons, takeText]
  refine digestsApart_rise ?_
  simp only [List.map_cons, List.map_nil, eventSeed, riseHistory, String.reduceAppend]
  change List.Nodup (["12|source:1", "12|source:2", "12|source:3", "12|source:4",
    "12|source:5"].map fun seed => takeText 16 ((riseTable.lookup seed).getD ""))
  rw [hshort]
  decide

/-- The five events of the theme are of one type and have a price. -/
theorem resolves_iff_number :
    (∃ type, minGroupEvents ≤ @ThemeDetail.observedCount riseDigests numbered threePercent type) ∧
    @Resolves riseDigests .ascii
      (@lookedUp riseDigests .ascii [numbered] (some threePercent) [])
      (@lookedUp riseDigests .ascii [numbered] (some threePercent) []) := by
  let := riseDigests
  let := UnicodeTable.ascii
  obtain ⟨type, hcount⟩ := exists_observedCount_rise "12"
    ["source:1", "source:2", "source:3", "source:4", "source:5"]
  refine ⟨⟨type, hcount.ge⟩, (resolves_iff (accepted_rise ⟨by decide, by decide⟩ (by decide))
    digestsApart_numbered hexDigests_rise (fun _ _ => rfl) _ [] []).mpr ⟨?_, ?_⟩⟩
  · intro detail hmem _ _ _ _
    obtain rfl := List.mem_singleton.mp hmem
    decide
  · intro _ _ detail hmem _ _
    obtain rfl := List.mem_singleton.mp hmem
    decide

/-- A theme with an underscore in its id. -/
def underscored : ThemeDetail := riseTheme "a_b" ["source:1"]

/-- The id of an event of the theme is handed out and not found. -/
theorem not_resolves_rise :
    Accepted [underscored] ∧ @DigestsApart riseDigests [underscored] ∧
      @HexDigests riseDigests ∧ @AsciiDigits .ascii ∧
      ¬ @Resolves riseDigests .ascii (@lookedUp riseDigests .ascii [underscored] none [])
        (@lookedUp riseDigests .ascii [underscored] none []) := by
  let := riseDigests
  let := UnicodeTable.ascii
  have haccepted : Accepted [underscored] := accepted_rise ⟨by decide, by decide⟩ (by decide)
  refine ⟨haccepted, digestsApart_rise (List.nodup_singleton _), hexDigests_rise, fun _ _ => rfl,
    fun hresolves => ?_⟩
  obtain ⟨c, hcase, hdate, -⟩ := exists_pastCase_rise underscored "thm_a_b" "source:1"
  have hg := coherent_lookedUp [underscored] none []
  have hbefore : c.marketDate < ⟨2024, 5, 3, by decide⟩ := by
    rw [hdate]
    decide
  have hc : c ∈ underscored.cases :=
    List.mem_filterMap.mpr ⟨riseHistory "source:1", List.mem_singleton.mpr rfl, hcase⟩
  exact hresolves.plain haccepted hexDigests_rise hg hg (List.mem_singleton_self _) hc hbefore
    (by decide)

end Dayjaview.HistoricalMatching
