import Dayjaview.HistoricalMatching.Engine

/-!
# The ids of past events and groups

An id is put together with underscores and taken apart at them. The id of an event gives its theme
back exactly when the id of the theme has no underscore, and that of a group exactly when it is a
number.
-/

namespace Dayjaview.HistoricalMatching

open Ontology

theorem mem_vocabulary (type : CatalystType) : type ∈ vocabulary := by cases type <;> decide

theorem typeOf?_typeId (type : CatalystType) : typeOf? type.typeId = some type := by
  cases type <;> decide +kernel

theorem not_suffix_typeId (type other : CatalystType) :
    ¬ '_' :: other.typeId.toList <:+ type.typeId.toList := by
  have hall : ∀ type ∈ vocabulary, ∀ other ∈ vocabulary,
      ('_' :: other.typeId.toList).isSuffixOf type.typeId.toList = false := by decide +kernel
  intro hsuffix
  have hfalse := hall type (mem_vocabulary type) other (mem_vocabulary other)
  rw [List.isSuffixOf_iff_suffix.mpr hsuffix] at hfalse
  cases hfalse

theorem typeOf?_eq_some {typeId : String} {type : CatalystType} (h : typeOf? typeId = some type) :
    type.typeId = typeId := by
  have hfound := List.find?_some h
  exact of_decide_eq_true hfound

section Events

variable [Sha256]

/-- The digest in the id of an event. -/
def eventDigest (sourceThemeId sourceHistoryKey : String) : List Char :=
  (hexdigest (eventSeed sourceThemeId sourceHistoryKey)).toList.take 16

theorem toList_matchedEventId (sourceThemeId sourceHistoryKey : String) :
    (matchedEventId sourceThemeId sourceHistoryKey).toList =
      "evt".toList ++ '_' :: ("hist".toList ++ '_' ::
        (sourceThemeId.toList ++ '_' :: eventDigest sourceThemeId sourceHistoryKey)) := by
  simp [matchedEventId, eventDigest, takeText]

variable {sourceThemeId sourceHistoryKey : String}

theorem splitOn_matchedEventId (hhex : '_' ∉ eventDigest sourceThemeId sourceHistoryKey) :
    (matchedEventId sourceThemeId sourceHistoryKey).toList.splitOn '_' =
      "evt".toList :: "hist".toList :: (sourceThemeId.toList.splitOn '_' ++
        [eventDigest sourceThemeId sourceHistoryKey]) := by
  rw [toList_matchedEventId, List.splitOn_append_cons_self_of_not_mem (by decide),
    List.splitOn_append_cons_self_of_not_mem (by decide), List.splitOn_append_cons_self,
    List.splitOn_eq_singleton hhex]

theorem themeNumber_matchedEventId (hhex : '_' ∉ eventDigest sourceThemeId sourceHistoryKey)
    (hne : sourceThemeId ≠ "") (hplain : '_' ∉ sourceThemeId.toList) :
    themeNumber (matchedEventId sourceThemeId sourceHistoryKey) = some sourceThemeId := by
  unfold themeNumber
  rw [splitOn_matchedEventId hhex, List.splitOn_eq_singleton hplain]
  simp [hne]

theorem themeNumber_eq_none (hhex : '_' ∉ eventDigest sourceThemeId sourceHistoryKey)
    (hmem : '_' ∈ sourceThemeId.toList) :
    themeNumber (matchedEventId sourceThemeId sourceHistoryKey) = none := by
  obtain ⟨before, after, hsplit⟩ := List.append_of_mem hmem
  unfold themeNumber
  rw [splitOn_matchedEventId hhex, hsplit, List.splitOn_append_cons_self]
  obtain ⟨part, parts, hparts⟩ := List.exists_cons_of_ne_nil (List.splitOn_ne_nil '_' before)
  obtain ⟨part', parts', hparts'⟩ := List.exists_cons_of_ne_nil (List.splitOn_ne_nil '_' after)
  rw [hparts, hparts']
  cases parts <;> simp

end Events

section Groups

variable [UnicodeTable]

omit [UnicodeTable] in
theorem toList_catalystId (number typeId : String) :
    (catalystId ("thm_" ++ number) typeId).toList =
      "ctl_thm_".toList ++ (number.toList ++ '_' :: typeId.toList) := by
  simp [catalystId]

omit [UnicodeTable] in
theorem takeWhile_ne_append {before : List Char} (hplain : '_' ∉ before) (after : List Char) :
    (before ++ '_' :: after).takeWhile (· != '_') = before ∧
      (before ++ '_' :: after).dropWhile (· != '_') = '_' :: after := by
  have hall : ∀ c ∈ before, (c != '_') = true := by
    intro c hc
    rw [bne_iff_ne]
    rintro rfl
    exact hplain hc
  rw [List.takeWhile_append_of_pos hall, List.dropWhile_append_of_pos hall]
  simp

theorem splitCatalystId_of_append {before after : List Char} (hplain : '_' ∉ before)
    {text : String} (htext : text.toList = "ctl_thm_".toList ++ (before ++ '_' :: after)) :
    splitCatalystId text = if isDigitText (String.ofList before) then
      (typeOf? (String.ofList after)).map fun t => ("thm_" ++ String.ofList before, t) else
      none := by
  have hlength : "ctl_thm_".length = "ctl_thm_".toList.length := by decide
  unfold splitCatalystId
  rw [if_pos, htext, hlength, List.drop_left]
  · dsimp only
    rw [(takeWhile_ne_append hplain after).1, (takeWhile_ne_append hplain after).2]
  · rw [htext]
    exact List.isPrefixOf_iff_prefix.mpr (List.prefix_append _ _)

theorem splitCatalystId_catalystId {number : String} (hdigits : isDigitText number = true)
    (hplain : '_' ∉ number.toList) (type : CatalystType) :
    splitCatalystId (catalystId ("thm_" ++ number) type.typeId) = some
      ("thm_" ++ number, type) := by
  rw [splitCatalystId_of_append hplain (toList_catalystId number type.typeId), String.ofList_toList,
    if_pos hdigits, String.ofList_toList, typeOf?_typeId]
  rfl

theorem splitCatalystId_eq_none {number : String} (hdigits : isDigitText number = false)
    (type : CatalystType) : splitCatalystId (catalystId ("thm_" ++ number) type.typeId) = none := by
  by_cases hplain : '_' ∈ number.toList
  · -- the id is cut at the underscore of the theme, and what is left is no type
    obtain ⟨before, after, hsplit, hfirst⟩ := List.eq_append_cons_of_mem hplain
    have htext : (catalystId ("thm_" ++ number) type.typeId).toList =
        "ctl_thm_".toList ++ (before ++ '_' :: (after ++ '_' :: type.typeId.toList)) := by
      rw [toList_catalystId, hsplit, List.append_assoc, List.cons_append]
    rw [splitCatalystId_of_append hfirst htext]
    have hnone : typeOf? (String.ofList (after ++ '_' :: type.typeId.toList)) = none := by
      by_contra hsome
      obtain ⟨other, hother⟩ := Option.ne_none_iff_exists'.mp hsome
      refine not_suffix_typeId other type ?_
      rw [typeOf?_eq_some hother, String.toList_ofList]
      exact List.suffix_append _ _
    rw [hnone]
    split <;> rfl
  · rw [splitCatalystId_of_append hplain (toList_catalystId number type.typeId),
      String.ofList_toList, if_neg (by simp [hdigits])]

theorem catalystId_of_splitCatalystId {text themeId : String} {type : CatalystType}
    (h : splitCatalystId text = some (themeId, type)) : catalystId themeId type.typeId = text := by
  unfold splitCatalystId at h
  split at h
  · next hbegins =>
    obtain ⟨rest, hrest⟩ := List.isPrefixOf_iff_prefix.mp hbegins
    have hlength : "ctl_thm_".length = "ctl_thm_".toList.length := by decide
    rw [← hrest, hlength, List.drop_left] at h
    dsimp only at h
    split at h
    · cases h
    · next sep typeId hdrop =>
      split at h
      · obtain ⟨found, hfound, heq⟩ := Option.map_eq_some_iff.mp h
        cases heq
        obtain rfl : sep = '_' := by
          have hhead := List.head?_dropWhile_not (· != '_') rest
          rw [hdrop] at hhead
          simpa using hhead
        have hparts : rest.takeWhile (· != '_') ++ '_' :: typeId = rest := by
          rw [← hdrop, List.takeWhile_append_dropWhile]
        have hback : ∀ cs : List Char, (String.ofList cs).toList = cs :=
          fun _ => String.toList_ofList
        refine String.toList_injective ?_
        rw [toList_catalystId, typeOf?_eq_some hfound, hback (rest.takeWhile _),
          hback typeId, hparts, hrest]
      · cases h
  · cases h

end Groups

section Lookups

variable [Sha256]

/-- The past events of a theme. -/
def casesOf (details : Dict String ThemeDetail) (themeId : String) : List PastCase :=
  match details.get? (removePrefix "thm_" themeId) with
  | none => []
  | some detail => detail.history.filterMap (pastCase detail themeId)

/-- The past events of a theme with the reactions to them, by type. -/
def bucketsOf (details : Dict String ThemeDetail) (sameDay : SameDaySource) (themeId : String) :
    Dict CatalystType (List Reaction) :=
  grouped (fun row : Reaction => row.1.primaryTypeId)
  ((casesOf details themeId).map (reaction sameDay))

def groupsOf (details : Dict String ThemeDetail) (sameDay : Option SameDaySource)
    (themeId : String) : List CatalystGroup :=
  match sameDay with
  | none => []
  | some sameDay => ranked CatalystGroup.key
    ((bucketsOf details sameDay themeId).entries.filterMap fun (type, rows) =>
      catalystGroup themeId type rows)

/-- What was looked up is what the themes say. -/
structure Coherent (details : Dict String ThemeDetail) (sameDay : Option SameDaySource)
    (g : CatalystGroupIndex) : Prop where
  themes : g.index.details = details
  prices : g.sameDay = sameDay
  cases : ∀ themeId found, g.index.cached.get? themeId = some found →
    found = casesOf details themeId
  groups : ∀ themeId found, g.cached.get? themeId = some found →
    found = groupsOf details sameDay themeId

variable {details : Dict String ThemeDetail} {sameDay : Option SameDaySource}
  {g : CatalystGroupIndex}

omit [Sha256] in
theorem agrees_set {κ α : Type} [DecidableEq κ] {table : Dict κ α} {f : κ → α}
    (h : ∀ key found, table.get? key = some found → found = f key) (key : κ) :
    ∀ key' found, (table.set key (f key)).get? key' = some found → found = f key' := by
  intro key' found hget
  rw [Dict.get?_set] at hget
  split at hget
  · next heq =>
    rw [heq]
    exact (Option.some.inj hget).symm
  · exact h key' found hget

theorem Coherent.cases_spec (h : Coherent details sameDay g) (themeId : String) :
    (g.index.cases themeId).1 = casesOf details themeId ∧
      Coherent details sameDay { g with index := (g.index.cases themeId).2 } := by
  unfold HistoricalCaseIndex.cases
  split
  · next cached hget => exact ⟨h.cases themeId cached hget, h⟩
  · rw [h.themes]
    exact ⟨rfl, rfl, h.prices, agrees_set h.cases themeId, h.groups⟩

theorem Coherent.groups_spec (h : Coherent details sameDay g) (themeId : String) :
    (g.groups themeId).1 = groupsOf details sameDay themeId ∧
      Coherent details sameDay (g.groups themeId).2 := by
  unfold CatalystGroupIndex.groups
  split
  · next cached hget => exact ⟨h.groups themeId cached hget, h⟩
  · split
    · next hnone =>
      obtain rfl : sameDay = none := h.prices.symm.trans hnone
      exact ⟨rfl, h.themes, h.prices, h.cases, agrees_set h.groups themeId⟩
    · next source hsome =>
      obtain rfl : sameDay = some source := h.prices.symm.trans hsome
      obtain ⟨hfound, hafter⟩ := h.cases_spec themeId
      dsimp only
      rw [hfound]
      exact ⟨rfl, hafter.themes, h.prices, hafter.cases, agrees_set h.groups themeId⟩

theorem Coherent.caseOf_spec (h : Coherent details sameDay g) (id : String) :
    (g.index.caseOf id).1 = (match themeNumber id with
      | none => none
      | some number => if (details.get? number).isNone then none
        else (casesOf details ("thm_" ++ number)).find? fun c => c.matchedEventId = id) ∧
      Coherent details sameDay { g with index := (g.index.caseOf id).2 } := by
  unfold HistoricalCaseIndex.caseOf
  cases themeNumber id with
  | none => exact ⟨rfl, h⟩
  | some number =>
    dsimp only
    rw [h.themes]
    split
    · exact ⟨rfl, h⟩
    · obtain ⟨hfound, hafter⟩ := h.cases_spec ("thm_" ++ number)
      rw [← hfound]
      exact ⟨rfl, hafter⟩

theorem Coherent.similarEvents_spec (h : Coherent details sameDay g) (themeId : String)
    (today : Option TodayContext) (marketDate : Date) (limit : Nat) :
    (similarEventsData g.index themeId today marketDate limit).1.items = (match today with
      | none => []
      | some today => ((rankCases today (casesOf details themeId) marketDate (limit + 1)).take
        limit).map ScoredCase.item) ∧
      Coherent details sameDay
        { g with index := (similarEventsData g.index themeId today marketDate limit).2 } := by
  unfold similarEventsData
  cases today with
  | none => exact ⟨rfl, h⟩
  | some today =>
    obtain ⟨hfound, hafter⟩ := h.cases_spec themeId
    dsimp only
    rw [hfound]
    exact ⟨rfl, hafter⟩

variable [UnicodeTable]

theorem Coherent.groupOf_spec (h : Coherent details sameDay g) (id : String) :
    (g.groupOf id).1 = (match splitCatalystId id with
      | none => none
      | some (themeId, type) =>
        (groupsOf details sameDay themeId).find? fun group => group.typeId = type) ∧
      Coherent details sameDay (g.groupOf id).2 := by
  unfold CatalystGroupIndex.groupOf
  cases splitCatalystId id with
  | none => exact ⟨rfl, h⟩
  | some parts =>
    obtain ⟨hfound, hafter⟩ := h.groups_spec parts.1
    dsimp only
    rw [← hfound]
    exact ⟨rfl, hafter⟩

inductive Lookup where
  | cases (themeId : String)
  | caseOf (matchedEventId : String)
  | similarEvents (themeId : String) (today : Option TodayContext) (marketDate : Date) (limit : Nat)
  | groups (themeId : String)
  | groupOf (catalystId : String)
  | top3 (themeId : String) (today : Option TodayContext)

def Lookup.run (g : CatalystGroupIndex) : Lookup → CatalystGroupIndex
  | .cases themeId => { g with index := (g.index.cases themeId).2 }
  | .caseOf matchedEventId => { g with index := (g.index.caseOf matchedEventId).2 }
  | .similarEvents themeId today marketDate limit =>
    { g with index := (similarEventsData g.index themeId today marketDate limit).2 }
  | .groups themeId => (g.groups themeId).2
  | .groupOf catalystId => (g.groupOf catalystId).2
  | .top3 themeId today => (catalystTop3Data g themeId today).2

theorem Coherent.run (h : Coherent details sameDay g) (lookup : Lookup) :
    Coherent details sameDay (lookup.run g) := by
  cases lookup with
  | cases themeId => exact (h.cases_spec themeId).2
  | caseOf matchedEventId => exact (h.caseOf_spec matchedEventId).2
  | similarEvents themeId today marketDate limit =>
    exact (h.similarEvents_spec themeId today marketDate limit).2
  | groups themeId => exact (h.groups_spec themeId).2
  | groupOf catalystId => exact (h.groupOf_spec catalystId).2
  | top3 themeId today => exact (h.groups_spec themeId).2

/-- The index of some themes after some lookups. -/
def lookedUp (details : List ThemeDetail) (sameDay : Option SameDaySource) (lookups : List Lookup) :
    CatalystGroupIndex :=
  lookups.foldl Lookup.run (.ofIndex (.ofDetails details) sameDay)

theorem coherent_lookedUp (details : List ThemeDetail) (sameDay : Option SameDaySource)
    (lookups : List Lookup) :
    Coherent (HistoricalCaseIndex.ofDetails details).details sameDay
      (lookedUp details sameDay lookups) := by
  unfold lookedUp
  have hstart : Coherent (HistoricalCaseIndex.ofDetails details).details sameDay
      (.ofIndex (.ofDetails details) sameDay) := ⟨rfl, rfl, nofun, nofun⟩
  induction lookups using List.reverseRecOn with
  | nil => exact hstart
  | append_singleton lookups lookup ih =>
    rw [List.foldl_append]
    exact ih.run lookup

omit [UnicodeTable] in
/-- All that could be shown of the past events like one of today. -/
def allItems (details : Dict String ThemeDetail) (themeId : String) (today : Option TodayContext)
    (marketDate : Date) : List SimilarEventItem :=
  match today with
  | none => []
  | some today =>
    let earlier := (casesOf details themeId).filter fun c => c.marketDate < marketDate
    (ranked ScoredCase.key ((earlier.filterMap (scoreOf today)).filter fun s =>
      minScore ≤ s.score)).map ScoredCase.item

omit [UnicodeTable] in
/-- What is shown is the beginning of that, whatever was looked up before. -/
theorem Coherent.similarEvents_eq (h : Coherent details sameDay g) (themeId : String)
    (today : Option TodayContext) (marketDate : Date) (limit : Nat) :
    (similarEventsData g.index themeId today marketDate limit).1 =
      ⟨if today.isSome then "AVAILABLE" else "UNAVAILABLE",
        (allItems details themeId today marketDate).take limit,
        decide (limit < (allItems details themeId today marketDate).length), limit⟩ := by
  cases today with
  | none => simp [similarEventsData, allItems]
  | some today =>
    have hcases := (h.cases_spec themeId).1
    unfold similarEventsData rankCases allItems
    dsimp only
    rw [hcases, List.take_take, Nat.min_eq_left (Nat.le_succ limit), List.map_take,
      List.length_take, List.length_map]
    simp

/-- A shorter list of past events is the beginning of a longer one and says truly whether there are
more, whatever was looked up before either of them. -/
theorem similarEvents_cut (details : List ThemeDetail) (sameDay : Option SameDaySource)
    (lookups lookups' : List Lookup) (themeId : String) (today : Option TodayContext)
    (marketDate : Date) (limit further : Nat) :
    let shorter :=
  (similarEventsData (lookedUp details sameDay lookups).index themeId today marketDate
      limit).1
    let longer :=
      (similarEventsData (lookedUp details sameDay lookups').index themeId today marketDate
      (limit + further + 1)).1
    shorter.items = longer.items.take limit ∧
      (shorter.hasMore = true ↔ limit < longer.items.length) := by
  intro shorter longer
  have hshorter :
      shorter = _ := (coherent_lookedUp details sameDay lookups).similarEvents_eq themeId today
    marketDate limit
  have hlonger :
      longer = _ := (coherent_lookedUp details sameDay lookups').similarEvents_eq themeId today
    marketDate (limit + further + 1)
  constructor
  · rw [hshorter, hlonger, List.take_take, Nat.min_eq_left (by omega)]
  · rw [hshorter, hlonger, List.length_take, decide_eq_true_iff]
    omega

section

omit [Sha256] [UnicodeTable]

/-- The theme as it was known before a day. -/
def ThemeDetail.before (day : Date) (detail : ThemeDetail) : ThemeDetail :=
  { detail with history := detail.history.filter fun history => history.eventDate.any (· < day) }

theorem details_before (day : Date) (details : List ThemeDetail) :
    (HistoricalCaseIndex.ofDetails (details.map (ThemeDetail.before day))).details =
      (HistoricalCaseIndex.ofDetails details).details.mapValues (ThemeDetail.before day) := by
  have hfold : ∀ d : Dict String ThemeDetail,
      ((details.map (ThemeDetail.before day)).map fun t => (t.sourceThemeId, t)).foldl
          (fun d e => d.set e.1 e.2) (d.mapValues (ThemeDetail.before day)) =
        ((details.map fun t => (t.sourceThemeId, t)).foldl (fun d e => d.set e.1 e.2) d).mapValues
          (ThemeDetail.before day) := by
    induction details with
    | nil => exact fun _ => rfl
    | cons detail details ih =>
      intro d
      rw [List.map_cons, List.map_cons, List.map_cons, List.foldl_cons, List.foldl_cons, ← ih,
        Dict.mapValues_set]
      rfl
  exact hfold .empty

end

omit [UnicodeTable] in
theorem eventDate_of_pastCase {detail : ThemeDetail} {themeId : String} {history : ThemeHistory}
    {c : PastCase} (h : pastCase detail themeId history = some c) :
    history.eventDate = some c.marketDate := by
  unfold pastCase at h
  split at h
  · cases h
  · next marketDate hdate =>
    dsimp only at h
    split_ifs at h
    cases h
    exact hdate

omit [UnicodeTable] in
theorem casesOf_before (day : Date) (details : List ThemeDetail) (themeId : String) :
    casesOf (HistoricalCaseIndex.ofDetails (details.map (ThemeDetail.before day))).details themeId =
      (casesOf (HistoricalCaseIndex.ofDetails details).details themeId).filter fun c =>
        c.marketDate < day := by
  unfold casesOf
  rw [details_before, Dict.get?_mapValues]
  cases (HistoricalCaseIndex.ofDetails details).details.get? (removePrefix "thm_" themeId) with
  | none => rfl
  | some detail =>
    dsimp only [Option.map_some, ThemeDetail.before]
    rw [List.filterMap_filter, List.filter_filterMap]
    refine List.filterMap_congr fun history _ => ?_
    change (if history.eventDate.any (· < day) then pastCase detail themeId history else none) = _
    cases hcase : pastCase detail themeId history with
    | none => simp
    | some c =>
      rw [eventDate_of_pastCase hcase]
      by_cases hbefore : c.marketDate < day
      · simp [hbefore, Option.filter]
      · simp [hbefore, Option.filter]

/-- Nothing of the market date or later, and no record without a date, has a part in what is shown
for the market date. -/
theorem similarEvents_foresight (details : List ThemeDetail) (sameDay : Option SameDaySource)
    (lookups lookups' : List Lookup) (themeId : String) (today : Option TodayContext)
    (marketDate : Date) (limit : Nat) :
    (similarEventsData (lookedUp details sameDay lookups).index themeId today marketDate limit).1 =
      (similarEventsData
        (lookedUp (details.map (ThemeDetail.before marketDate)) sameDay lookups').index
        themeId today marketDate limit).1 := by
  rw [(coherent_lookedUp details sameDay lookups).similarEvents_eq,
    (coherent_lookedUp (details.map (ThemeDetail.before marketDate)) sameDay
      lookups').similarEvents_eq]
  have hitems : allItems (HistoricalCaseIndex.ofDetails details).details themeId today marketDate =
      allItems (HistoricalCaseIndex.ofDetails (details.map (ThemeDetail.before marketDate))).details
        themeId today marketDate := by
    unfold allItems
    rw [casesOf_before, List.filter_filter]
    simp only [Bool.and_self]
  rw [hitems]

end Lookups

end Dayjaview.HistoricalMatching
