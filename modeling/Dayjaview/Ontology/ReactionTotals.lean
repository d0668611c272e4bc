import Dayjaview.Ontology.Displayed

/-!
# The reactions to the same catalysts in two answers

One answer counts the reactions to a type of catalyst theme by theme, another one
catalyst by catalyst. The first counts a catalyst once for each of its themes, and one
for a theme without a counted reaction. The two totals are compared.
-/

namespace Dayjaview.Ontology

variable {plan : QueryPlan} {repository : ResearchRepository} {availability : QueryAvailability}
  {limit : Int} {block : AnswerBlock}

theorem QueryPlan.countUnit_eq (plan : QueryPlan) :
    plan.countUnit = (queryContract plan.queryType).countUnit := by
  have hvalid := plan.valid
  unfold QueryPlan.Fields.postInit at hvalid
  rw [check_bind_eq_ok, ensure_eq_ok] at hvalid
  exact hvalid.1

/-- The catalysts that match a plan. -/
def matchedCatalysts (plan : QueryPlan) (repository : ResearchRepository) : List CatalystSummary :=
  repository.catalysts (catalystFilterOf plan (plan.catalystType.map (·.typeId)))

theorem matchedCatalysts_of_type {catalystType : CatalystTypeRef}
    (h : plan.catalystType = some catalystType) (repository : ResearchRepository) :
    matchedCatalysts plan repository =
      repository.catalysts (catalystFilterOf plan (some catalystType.typeId)) := by
  rw [matchedCatalysts, h, Option.map_some]

/-- The reactions of each theme to some catalysts, the largest numbers first. -/
def themeReactions (items : List CatalystSummary) : List (String × Nat) :=
  mostFrequent (tallyOf (themeWeights reactionWeight items))

theorem answerCatalystThemeReaction_answered (hunit : plan.countUnit = .themeReaction)
    (h : answerCatalystThemeReaction plan repository availability limit = .ok (.answered block)) :
    block.totalIn .themeReaction = some
        (totalOf (tallyOf (themeWeights reactionWeight (matchedCatalysts plan repository)))).repr ∧
      block.rows = evidencedRows plan "reactionCount"
        (themeEvidence (matchedCatalysts plan repository))
        (slice limit (themeReactions (matchedCatalysts plan repository))) ∧
      block.exclusions = displayLimitExclusions
        (themeReactions (matchedCatalysts plan repository)).length limit := by
  unfold answerCatalystThemeReaction at h
  obtain ⟨catalystType, htype, h⟩ := bind_eq_ok.mp h
  have hmatched := matchedCatalysts_of_type (asserted_eq_ok.mp htype) repository
  dsimp only at h
  rw [← hmatched] at h
  split at h
  · cases h
  · split at h
    · cases h
      exact ⟨by simp [AnswerBlock.totalIn, hunit], rfl, rfl⟩
    · cases h

theorem answerCatalystFrequency_answered
    (h : answerCatalystFrequency plan repository availability limit = .ok (.answered block)) :
    block.totalIn .themeReaction = some
      (Nat.repr ((matchedCatalysts plan repository).map (·.themeReactionCount)).sum) := by
  unfold answerCatalystFrequency at h
  obtain ⟨catalystType, htype, h⟩ := bind_eq_ok.mp h
  obtain ⟨_, -, h⟩ := bind_eq_ok.mp h
  have hmatched := matchedCatalysts_of_type (asserted_eq_ok.mp htype) repository
  dsimp only at h
  rw [← hmatched] at h
  split at h
  · cases h
  · split at h
    · cases h
    · cases h
      simp [AnswerBlock.totalIn, catalystMetrics, catalystCounts]

/-- The reactions that are counted again: those of a catalyst for each theme after the first
one, and one for each theme of a catalyst without reactions. -/
def countedAgain (items : List CatalystSummary) : Nat :=
  (items.map fun item =>
    if item.themeReactionCount = 0 then item.themeNames.eraseDups.length
    else (item.themeNames.eraseDups.length - 1) * item.themeReactionCount).sum

/-- The reactions of the catalysts without a theme. -/
def countedNowhere (items : List CatalystSummary) : Nat :=
  ((items.filter (·.themeNames = [])).map (·.themeReactionCount)).sum

theorem sum_themeWeights (item : CatalystSummary) :
    ((themeWeights reactionWeight [item]).map Prod.snd).sum =
      item.themeNames.eraseDups.length * reactionWeight item := by
  simp [themeWeights, Function.comp_def]

theorem totalOf_themeWeights (items : List CatalystSummary) :
    totalOf (tallyOf (themeWeights reactionWeight items)) + countedNowhere items =
      (items.map (·.themeReactionCount)).sum + countedAgain items := by
  rw [totalOf_tallyOf]
  induction items with
  | nil => rfl
  | cons item items ih =>
    have hweights : themeWeights reactionWeight (item :: items) =
        themeWeights reactionWeight [item] ++ themeWeights reactionWeight items := by
      simp [themeWeights]
    have hone := sum_themeWeights item
    rw [hweights, List.map_append, List.sum_append, hone]
    simp only [countedNowhere, countedAgain, List.map_cons, List.sum_cons] at ih ⊢
    cases hthemes : item.themeNames with
    | nil =>
      rw [List.filter_cons_of_pos (by simpa using hthemes), List.map_cons, List.sum_cons]
      simp only [List.eraseDups_nil, List.length_nil, Nat.zero_mul, Nat.zero_sub, ite_self]
      omega
    | cons name names =>
      rw [List.filter_cons_of_neg (by simp [hthemes])]
      obtain ⟨k, hk⟩ : ∃ k, (name :: names).eraseDups.length = k + 1 :=
        ⟨_, by rw [List.eraseDups_cons, List.length_cons]⟩
      rw [hk, reactionWeight]
      split
      · omega
      · have hproduct : (k + 1) * item.themeReactionCount =
            (k + 1 - 1) * item.themeReactionCount + item.themeReactionCount := by
          rw [Nat.add_sub_cancel, Nat.succ_mul]
        omega

theorem catalystEvidence_ne_nil {item : CatalystSummary} :
    catalystEvidence item ≠ [] ↔ item.evidenceText ≠ "" := by
  unfold catalystEvidence
  split
  · next hempty => simp [hempty]
  · next hempty => simp [hempty]

theorem themeEvidence_ne_nil {items : List CatalystSummary} {name : String} :
    ((themeEvidence items).get? name).getD [] ≠ [] ↔
      ∃ item ∈ items, name ∈ item.themeNames ∧ item.evidenceText ≠ "" := by
  rw [themeEvidence, bucketsOf_ne_nil (by decide)]
  simp only [List.mem_flatMap, List.mem_map, List.mem_eraseDups]
  constructor
  · rintro ⟨_, ⟨item, hitem, theme, htheme, rfl⟩, rfl, hevidence⟩
    exact ⟨item, hitem, htheme, catalystEvidence_ne_nil.mp hevidence⟩
  · rintro ⟨item, hitem, hname, hevidence⟩
    exact ⟨_, ⟨item, hitem, name, hname, rfl⟩, rfl, catalystEvidence_ne_nil.mpr hevidence⟩

variable {items : List CatalystSummary}

theorem mem_keys_themeWeights {weight : CatalystSummary → Nat} {name : String} :
    name ∈ (themeWeights weight items).map Prod.fst ↔ ∃ item ∈ items, name ∈ item.themeNames := by
  simp [themeWeights]

theorem length_mostFrequent_themeWeights (weight : CatalystSummary → Nat)
    (items : List CatalystSummary) :
    (mostFrequent (tallyOf (themeWeights weight items))).length =
      (items.flatMap (·.themeNames)).dedup.length := by
  rw [mostFrequent, ranked_perm.length_eq, length_entries_tallyOf]
  refine List.Perm.length_eq ?_
  rw [List.perm_ext_iff_of_nodup (List.nodup_dedup _) (List.nodup_dedup _)]
  intro name
  rw [List.mem_dedup, List.mem_dedup, mem_keys_themeWeights, List.mem_flatMap]

theorem mem_keys_mostFrequent {entries : List (String × Nat)} {name : String} :
    (∃ n, (name, n) ∈ mostFrequent (tallyOf entries)) ↔ name ∈ entries.map Prod.fst := by
  rw [← mem_keys_tallyOf, Dict.keys, List.mem_map]
  simp [mostFrequent, mem_ranked]

/-- Every theme of some catalysts is one of a catalyst with evidence. -/
def ThemesEvidenced (items : List CatalystSummary) : Prop :=
  ∀ item ∈ items, ∀ name ∈ item.themeNames,
    ∃ other ∈ items, name ∈ other.themeNames ∧ other.evidenceText ≠ ""

theorem evidenced_iff (weight : CatalystSummary → Nat) :
    (∀ e ∈ mostFrequent (tallyOf (themeWeights weight items)),
        ((themeEvidence items).get? e.1).getD [] ≠ []) ↔ ThemesEvidenced items := by
  constructor
  · intro h item hitem name hname
    have hkey : name ∈ (themeWeights weight items).map Prod.fst :=
      mem_keys_themeWeights.mpr ⟨item, hitem, hname⟩
    obtain ⟨n, hn⟩ := mem_keys_mostFrequent.mpr hkey
    exact themeEvidence_ne_nil.mp (h _ hn)
  · intro h e he
    obtain ⟨item, hitem, hname⟩ := mem_keys_themeWeights.mp (mem_keys_mostFrequent.mp ⟨e.2, he⟩)
    exact themeEvidence_ne_nil.mpr (h item hitem e.1 hname)

theorem sum_mostFrequent (counter : Dict String Nat) :
    ((mostFrequent counter).map Prod.snd).sum = totalOf counter :=
  (ranked_perm.map Prod.snd).sum_eq

theorem pos_of_mem_themeReactions {e : String × Nat} (he : e ∈ themeReactions items) : 0 < e.2 := by
  have hweights : ∀ e ∈ themeWeights reactionWeight items, 0 < e.2 := by
    intro e he
    simp only [themeWeights, List.mem_flatMap, List.mem_map] at he
    obtain ⟨item, -, name, -, rfl⟩ := he
    unfold reactionWeight
    split
    · exact Nat.one_pos
    · next hcount => exact Nat.pos_of_ne_zero hcount
  have hentry : e ∈ (tallyOf (themeWeights reactionWeight items)).entries := mem_ranked.mp he
  exact pos_of_get?_tallyOf hweights ((Dict.mem_entries_iff _).mp hentry)

theorem sum_rows_eq_total_iff (plan : QueryPlan) (items : List CatalystSummary) :
    ((evidencedRows plan "reactionCount" (themeEvidence items) (themeReactions items)).map
        (·.numberOf "reactionCount")).sum =
      totalOf (tallyOf (themeWeights reactionWeight items)) ↔ ThemesEvidenced items := by
  rw [sum_evidencedRows, ← sum_mostFrequent, Nat.cast_inj, ← themeReactions,
    sum_filter_eq_iff (fun e he => pos_of_mem_themeReactions he),
    ← evidenced_iff reactionWeight]
  simp [themeReactions]

/-- Two answers about the same catalysts agree on the reactions to them. -/
structure ReactionsAgree (items : List CatalystSummary) (byTheme byCatalyst : AnswerBlock) :
    Prop where
  counted : byCatalyst.totalIn .themeReaction =
    some (Nat.repr (items.map (·.themeReactionCount)).sum)
  totals : byTheme.totalIn .themeReaction = byCatalyst.totalIn .themeReaction
  rows : byTheme.Uncut → byTheme.totalIn .themeReaction =
    some (toString (byTheme.rows.map (·.numberOf "reactionCount")).sum)

theorem repr_inj {m n : Nat} : m.repr = n.repr ↔ m = n := by
  constructor
  · intro h
    have hchars : natText m = natText n := String.ofList_inj.mp h
    rw [← ofDigitChars_natText m, ← ofDigitChars_natText n, hchars]
  · exact congrArg Nat.repr

variable [SetOrder]

/-- The two answers agree exactly if what the one counts again is what it counts nowhere, and
every theme has evidence unless the limit cuts one off. -/
theorem reactionsAgree_iff {p q : QueryPlan} {availability' : QueryAvailability}
    {today today' : Date} {limit' : Int} {byTheme byCatalyst : AnswerBlock}
    (hp : p.queryType = .catalystThemeReaction) (hq : q.queryType = .catalystFrequency)
    (hsame : catalystFilterOf p (p.catalystType.map (·.typeId)) =
      catalystFilterOf q (q.catalystType.map (·.typeId)))
    (hbyTheme : answerPlan p repository availability today limit = .ok (.answered byTheme))
    (hbyCatalyst : answerPlan q repository availability' today' limit' =
      .ok (.answered byCatalyst)) :
    ReactionsAgree (matchedCatalysts p repository) byTheme byCatalyst ↔
      countedAgain (matchedCatalysts p repository) =
      countedNowhere (matchedCatalysts p repository) ∧
        ((((matchedCatalysts p repository).flatMap (·.themeNames)).dedup.length : Int) ≤ limit →
          ThemesEvidenced (matchedCatalysts p repository)) := by
  have hmatched : matchedCatalysts q repository = matchedCatalysts p repository := by
    rw [matchedCatalysts, ← hsame, ← matchedCatalysts]
  have hunit : p.countUnit = .themeReaction := by
    rw [p.countUnit_eq, hp]
    rfl
  have hhandler := (answerPlan_answered hbyTheme).1
  have hhandler' := (answerPlan_answered hbyCatalyst).1
  rw [hp] at hhandler
  rw [hq] at hhandler'
  obtain ⟨htotal, hrows, hexclusions⟩ := answerCatalystThemeReaction_answered hunit hhandler
  have htotal' := @answerCatalystFrequency_answered _ _ _ limit' _ hhandler'
  rw [hmatched] at htotal'
  generalize matchedCatalysts p repository = items at htotal hrows hexclusions htotal' ⊢
  have hbalance := totalOf_themeWeights items
  have hsum := sum_rows_eq_total_iff p items
  have hcut : byTheme.Uncut ↔ ((items.flatMap (·.themeNames)).dedup.length : Int) ≤ limit := by
    rw [AnswerBlock.Uncut, hexclusions, displayLimitExclusions_uncut, themeReactions,
      length_mostFrequent_themeWeights]
  have hshown : byTheme.Uncut → byTheme.rows =
      evidencedRows p "reactionCount" (themeEvidence items) (themeReactions items) := by
    intro huncut
    rw [hrows, slice_eq_self]
    rw [themeReactions, length_mostFrequent_themeWeights]
    exact hcut.mp huncut
  have hreported : byTheme.Uncut → (byTheme.totalIn .themeReaction =
      some (toString (byTheme.rows.map (·.numberOf "reactionCount")).sum) ↔
        ThemesEvidenced items) := by
    intro huncut
    rw [htotal, hshown huncut, ← hsum, sum_evidencedRows, Option.some_inj, Nat.cast_inj, eq_comm,
      ← repr_inj]
    rfl
  constructor
  · intro h
    refine ⟨?_, fun hfits => (hreported (hcut.mpr hfits)).mp (h.rows (hcut.mpr hfits))⟩
    have htotals := h.totals
    rw [htotal, htotal', Option.some_inj, repr_inj] at htotals
    omega
  · rintro ⟨hcounted, hevidenced⟩
    refine ⟨htotal', ?_, fun huncut => (hreported huncut).mpr (hevidenced (hcut.mp huncut))⟩
    rw [htotal, htotal', Option.some_inj, repr_inj]
    omega

omit [SetOrder] in
theorem postInit_reactionFields : (supplyFields .catalystThemeReaction).postInit = .ok () :=
  postInit_supplyFields _ (by simp)

omit [SetOrder] in
theorem postInit_frequencyFields : (supplyFields .catalystFrequency).postInit = .ok () :=
  postInit_supplyFields _ (by simp)

/-- Which themes did contracts move? -/
def reactionPlan : QueryPlan := ⟨supplyFields .catalystThemeReaction, postInit_reactionFields⟩

/-- How many contracts were there? -/
def frequencyPlan : QueryPlan := ⟨supplyFields .catalystFrequency, postInit_frequencyFields⟩

/-- The answer to a plan from some catalysts. -/
def supplyAnswer (plan : QueryPlan) (items : List CatalystSummary) (limit : Int) :
    Option AnswerBlock :=
  match answerPlan plan (catalystRepository items []) everythingOpen supplyDay limit with
  | .ok (.answered block) => some block
  | _ => none

theorem supplyAnswer_eq_some (plan : QueryPlan) (items : List CatalystSummary) (limit : Int)
    (total : Option String)
    (h : (supplyAnswer plan items limit).map (·.totalIn .themeReaction) = some total) :
    ∃ block, answerPlan plan (catalystRepository items []) everythingOpen supplyDay limit =
      .ok (.answered block) ∧ block.totalIn .themeReaction = total := by
  obtain ⟨block, hblock, htotal⟩ := Option.map_eq_some_iff.mp h
  refine ⟨block, ?_, htotal⟩
  unfold supplyAnswer at hblock
  split at hblock
  · next found hfound =>
    cases hblock
    exact hfound
  · cases hblock

omit [SetOrder]

/-- The answers agree about contracts that moved one theme each, whether both themes are shown or
one of them is cut off. -/
theorem reactionsAgree_twoThemes :
    letI : SetOrder := .plain
    let items := [supplyCatalyst "1" ["조선"] 1 "선박 수주", supplyCatalyst "2" ["LNG"] 2 "가스 수주"]
    ∀ limit ∈ [20, 1], ∃ byTheme byCatalyst,
      answerPlan reactionPlan (catalystRepository items []) everythingOpen supplyDay limit =
        .ok (.answered byTheme) ∧
      answerPlan frequencyPlan (catalystRepository items []) everythingOpen supplyDay 20 =
        .ok (.answered byCatalyst) ∧
      ReactionsAgree items byTheme byCatalyst := by
  let _ : SetOrder := .plain
  intro items limit hlimit
  have htotals : ∀ limit ∈ [(20 : Int), 1],
      (supplyAnswer reactionPlan items limit).map (·.totalIn .themeReaction) = some (some "3") := by
    decide
  have hevidenced : ThemesEvidenced items := by
    unfold ThemesEvidenced
    decide
  obtain ⟨byTheme, hbyTheme, -⟩ := supplyAnswer_eq_some _ _ _ _ (htotals limit hlimit)
  obtain ⟨byCatalyst, hbyCatalyst, -⟩ :=
    supplyAnswer_eq_some frequencyPlan items 20 (some "3") (by decide)
  exact ⟨byTheme, byCatalyst, hbyTheme, hbyCatalyst, (reactionsAgree_iff (p := reactionPlan)
    (q := frequencyPlan) rfl rfl rfl hbyTheme hbyCatalyst).mpr ⟨by decide, fun _ => hevidenced⟩⟩

/-- A contract that moved two themes counts four reactions in one answer and two in the other. -/
theorem reactions_of_two_themes :
    letI : SetOrder := .plain
    let items := [supplyCatalyst "1" ["조선", "LNG"] 2 "선박 수주"]
    ∃ byTheme byCatalyst,
      answerPlan reactionPlan (catalystRepository items []) everythingOpen supplyDay 20 =
        .ok (.answered byTheme) ∧
      answerPlan frequencyPlan (catalystRepository items []) everythingOpen supplyDay 20 =
        .ok (.answered byCatalyst) ∧
      ¬ReactionsAgree items byTheme byCatalyst := by
  let _ : SetOrder := .plain
  intro items
  obtain ⟨byTheme, hbyTheme, htotal⟩ :=
    supplyAnswer_eq_some reactionPlan items 20 (some "4") (by decide)
  obtain ⟨byCatalyst, hbyCatalyst, htotal'⟩ :=
    supplyAnswer_eq_some frequencyPlan items 20 (some "2") (by decide)
  refine ⟨byTheme, byCatalyst, hbyTheme, hbyCatalyst, fun h => ?_⟩
  have htotals := h.totals
  rw [htotal, htotal'] at htotals
  exact absurd htotals (by decide)

end Dayjaview.Ontology
