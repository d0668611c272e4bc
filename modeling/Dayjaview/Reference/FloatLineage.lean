import Dayjaview.Reference.FloatOrder

/-!
# What the free float rests on

Of equally late share counts, and of equally late declarations of a category, the first one is
named as what the answer rests on. So the order of the rows is seen exactly when these rows do not
rest on the same.
-/

namespace Dayjaview.Reference

namespace FloatRequest

variable {q : FloatRequest} {order : SetOrder SourceDataset}
  {observations observations' : List FieldObservation} {holdings holdings' : List NonFloatHolding}
  {declarations declarations' : List HoldingCoverageDeclaration}

section Declarations

variable {values values' : List HoldingCoverageDeclaration} {d e : HoldingCoverageDeclaration}

/-- Some order of the rows and sources makes a declaration the one that counts: it is one of the
latest of its source and of the newest date, and no other source has only more trusted ones. -/
def CanBeTaken (values : List HoldingCoverageDeclaration) (d : HoldingCoverageDeclaration) : Prop :=
  NewestDeclaration values d ∧ OfNewestDate values d ∧
    ∀ e ∈ values, NewestDeclaration values e → OfNewestDate values e →
      e.metadata.dataset ≠ d.metadata.dataset →
        ∃ c ∈ values, NewestDeclaration values c ∧ c.metadata.dataset = e.metadata.dataset ∧
          d.metadata.precedence ≤ c.metadata.precedence

instance : Decidable (CanBeTaken values d) := inferInstanceAs (Decidable (_ ∧ _ ∧ ∀ e ∈ values, _))

theorem canBeTaken_perm (h : values.Perm values') : CanBeTaken values' d ↔ CanBeTaken values d := by
  simp only [CanBeTaken, newestDeclaration_perm h, ofNewestDate_perm h, h.mem_iff]

theorem canBeTaken_of_selected (h : selectedDeclaration order values = some d) :
    CanBeTaken values d := by
  have hmem := selectedDeclaration_mem h
  obtain ⟨hnewest, hdate⟩ := newestDeclaration_of_comparable hmem
  refine ⟨hnewest, hdate, fun e _ henewest hedate _ => ?_⟩
  obtain ⟨c, hc, hsource, hcnewest⟩ := exists_comparable order henewest hedate
  exact ⟨c, hcnewest.mem, hcnewest, hsource, (isGreatestBy_of_latestOf h).2 c hc⟩

theorem selectedDeclaration_cons
    (hsorted : values.Pairwise fun a b => b.metadata.precedence ≤ a.metadata.precedence)
    (h : CanBeTaken (d :: values) d) :
    selectedDeclaration (.insertion SourceDataset) (d :: values) = some d := by
  obtain ⟨hnewest, hdate, hothers⟩ := h
  obtain ⟨rest, hwalk⟩ := SetOrder.exists_insertion_cons d.metadata.dataset
    (values.map fun v => v.metadata.dataset)
  -- the rows of the source of the first one start with it
  have hrows : rowsOf (fun v => v.metadata.dataset) (d :: values) d.metadata.dataset =
      d :: rowsOf (fun v => v.metadata.dataset) values d.metadata.dataset :=
    List.filter_cons_of_pos (by simp)
  have hhead : (latestRows HoldingCoverageDeclaration.rank (rowsOf (fun v => v.metadata.dataset)
      (d :: values) d.metadata.dataset)).head? = some d := by
    unfold NewestDeclaration at hnewest
    rw [hrows] at hnewest ⊢
    rw [latestRows_cons (mem_latestRows.mp hnewest)]
    rfl
  obtain ⟨firsts, hfirsts⟩ : ∃ firsts, (latestDeclarations (.insertion SourceDataset)
      (d :: values)).filterMap List.head? = d :: firsts := by
    unfold latestDeclarations latestByKey
    rw [List.map_cons, hwalk, List.map_cons, List.filterMap_cons_some hhead]
    exact ⟨_, rfl⟩
  have hcomparable : d ∈ comparableDeclarations (.insertion SourceDataset) (d :: values) :=
    mem_comparable.mpr ⟨by rw [hfirsts]; exact List.mem_cons_self, hdate⟩
  -- every other one that is compared is the most trusted of its source
  have htrusted : ∀ c ∈ comparableDeclarations (.insertion SourceDataset) (d :: values),
      d.metadata.precedence ≤ c.metadata.precedence := by
    intro c hc
    have hcfirst := mem_firstDeclarations.mp (mem_comparable.mp hc).1
    obtain ⟨hcnewest, hcdate⟩ := newestDeclaration_of_comparable hc
    by_cases hsource : c.metadata.dataset = d.metadata.dataset
    · rw [hsource, hhead] at hcfirst
      rw [Option.some.inj hcfirst]
    · obtain ⟨e, -, henewest, hesource, hle⟩ :=
        hothers c hcnewest.mem hcnewest hcdate hsource
      refine hle.trans ?_
      have hcrows : rowsOf (fun v => v.metadata.dataset) (d :: values) c.metadata.dataset =
          rowsOf (fun v => v.metadata.dataset) values c.metadata.dataset :=
        List.filter_cons_of_neg (by simpa using Ne.symm hsource)
      unfold NewestDeclaration at henewest
      rw [hesource, hcrows] at henewest
      rw [hcrows] at hcfirst
      have hordered : (latestRows HoldingCoverageDeclaration.rank (rowsOf
          (fun v => v.metadata.dataset) values c.metadata.dataset)).Pairwise
            fun a b => b.metadata.precedence ≤ a.metadata.precedence := by
        rw [latestRows_eq_filter]
        exact (hsorted.sublist List.filter_sublist).sublist List.filter_sublist
      obtain ⟨tail, htail⟩ := List.head?_eq_some_iff.mp hcfirst
      rw [htail] at henewest hordered
      rcases List.mem_cons.mp henewest with rfl | hin
      · exact le_refl _
      · exact (List.pairwise_cons.mp hordered).1 e hin
  unfold selectedDeclaration
  have hshape : comparableDeclarations (.insertion SourceDataset) (d :: values) =
      d :: firsts.filter fun b => decide (∀ c ∈ d :: firsts, c.effectiveOn ≤ b.effectiveOn) := by
    unfold comparableDeclarations at hcomparable ⊢
    rw [hfirsts] at hcomparable ⊢
    exact latestRows_cons (mem_latestRows.mp hcomparable)
  rw [hshape] at htrusted ⊢
  exact latestOf_cons_of_forall_le fun c hc => htrusted c (List.mem_cons_of_mem _ hc)

theorem exists_canBeTaken (h : values ≠ []) : ∃ d ∈ values, CanBeTaken values d := by
  obtain ⟨d, hd⟩ : ∃ d, selectedDeclaration (.insertion SourceDataset) values = some d :=
    Option.ne_none_iff_exists'.mp (mt selectedDeclaration_eq_none.mp h)
  exact ⟨d, (newestDeclaration_of_comparable (selectedDeclaration_mem hd)).1.mem,
    canBeTaken_of_selected hd⟩

end Declarations

/-- The declarations of a category that can count. -/
def takeable (q : FloatRequest) (declarations : List HoldingCoverageDeclaration)
    (category : NonFloatCategory) : List HoldingCoverageDeclaration :=
  (q.declaredValues declarations category).filter fun d =>
    decide (CanBeTaken (q.declaredValues declarations category) d)

/-- The choices between equally late declarations, for the categories that are declared. -/
def declarationChoices (q : FloatRequest) (declarations : List HoldingCoverageDeclaration) :
    List (List HoldingCoverageDeclaration) :=
  q.policy.requiredNonFloatCategories.filterMap fun category =>
    if q.declaredValues declarations category = [] then none
    else some (q.takeable declarations category)

/-- The choices between equally late rows. -/
def lineageChoices (q : FloatRequest) (observations : List FieldObservation)
    (declarations : List HoldingCoverageDeclaration) : List (List SourceMetadata) :=
  if q.latestShares observations .opendartStockTotal = [] then []
  else
    (q.latestShares observations .opendartStockTotal).map (·.metadata) ::
      if (q.resolveListedCommonShares observations).state = .verified then
        (q.declarationChoices declarations).map (List.map (·.metadata))
      else []

instance {h : NonFloatHolding} : Decidable (q.NewestRow holdings h) :=
  List.instDecidableMemOfLawfulBEq _ _

/-- What the answer rests on in any case: all holdings that are compared. -/
def fixedLineage (q : FloatRequest) (observations : List FieldObservation)
    (holdings : List NonFloatHolding) : List String :=
  if (q.resolveListedCommonShares observations).state = .verified then
    ((q.disclosedHoldings holdings).filter fun h => decide (q.NewestRow holdings h)).flatMap
      (·.metadata.sources)
  else []

def taken (q : FloatRequest) (order : SetOrder SourceDataset) (observations : List FieldObservation)
    (declarations : List HoldingCoverageDeclaration) : List SourceMetadata :=
  (q.latestShares observations .opendartStockTotal).head?.toList.map (·.metadata) ++
    if (q.resolveListedCommonShares observations).state = .verified then
      (q.coverageForCategories order declarations).selected.map (·.metadata)
    else []

theorem selected_coverage (q : FloatRequest) (order : SetOrder SourceDataset)
    (declarations : List HoldingCoverageDeclaration) :
    (q.coverageForCategories order declarations).selected =
      q.policy.requiredNonFloatCategories.filterMap fun category =>
        selectedDeclaration order (q.declaredValues declarations category) := by
  unfold coverageForCategories
  rw [foldl_coverCategory]
  rfl

variable {x : String}

theorem mem_rowSources {rows : List SourceMetadata} :
    x ∈ rowSources rows ↔ ∃ m ∈ rows, x ∈ m.sources := by
  rw [rowSources, mem_textSet, List.mem_flatMap]

theorem mem_fixedLineage (hstate : (q.resolveListedCommonShares observations).state = .verified) :
    x ∈ q.fixedLineage observations holdings ↔
      x ∈ rowSources ((q.selectHoldings order holdings).considered.map (·.metadata)) := by
  unfold fixedLineage
  rw [if_pos hstate, mem_rowSources, List.mem_flatMap]
  constructor
  · rintro ⟨h, hh, hx⟩
    have hnewest : q.NewestRow holdings h := of_decide_eq_true (List.mem_filter.mp hh).2
    exact ⟨h.metadata, List.mem_map_of_mem (mem_considered.mpr hnewest), hx⟩
  · rintro ⟨_, hm, hx⟩
    obtain ⟨h, hh, rfl⟩ := List.mem_map.mp hm
    have hnewest := mem_considered.mp hh
    have hrow := (mem_rowsOf.mp (mem_rowsOf.mp (mem_latestRows.mp hnewest).1).1).1
    exact ⟨h, List.mem_filter.mpr ⟨hrow, decide_eq_true hnewest⟩, hx⟩

theorem exists_ratio {issued deducted : Int} (hissued : 0 < issued) (hdeducted : 0 ≤ deducted)
    (hle : deducted ≤ issued) :
    ∃ ratio, Decimal.div 60 (.ofInt (issued - deducted)) (.ofInt issued) = .ok ratio := by
  refine Decimal.exists_div_between (by decide) ?_ ?_ ?_
  · rw [Decimal.value_ofInt]
    exact_mod_cast sub_nonneg.mpr hle
  · rw [Decimal.value_ofInt, Decimal.value_ofInt]
    exact_mod_cast sub_le_self issued hdeducted
  · exact Int.natAbs_ne_zero.mpr hissued.ne'

theorem sum_shares_nonneg (holdings : List NonFloatHolding) :
    0 ≤ (holdings.map (·.shares)).sum := by
  refine List.sum_nonneg fun n hn => ?_
  obtain ⟨h, -, rfl⟩ := List.mem_map.mp hn
  obtain ⟨-, -, hvalid⟩ := bind_eq_ok.mp h.valid
  obtain ⟨-, -, hvalid⟩ := bind_eq_ok.mp hvalid
  by_contra hneg
  rw [ensure, if_neg hneg] at hvalid
  cases hvalid

theorem value_pos (v : FieldObservation) : 0 < v.value := by
  obtain ⟨-, -, hvalid⟩ := bind_eq_ok.mp v.valid
  by_contra hneg
  rw [ensure, if_neg hneg] at hvalid
  cases hvalid

theorem exists_answer (q : FloatRequest) (order : SetOrder SourceDataset)
    (observations : List FieldObservation) (holdings : List NonFloatHolding)
    (declarations : List HoldingCoverageDeclaration) :
    ∃ r texts, q.calculateFreeFloat order observations holdings declarations = .ok r ∧
      r.lineage = textSet texts ∧ ∀ x, x ∈ texts ↔ Collected SourceMetadata.sources
        (q.fixedLineage observations holdings) (q.taken order observations declarations) x := by
  by_cases hstate : (q.resolveListedCommonShares observations).state = .verified
  · obtain ⟨v, -, hvalue⟩ := exists_value_of_verified hstate
    have hanswer : ∃ r, q.calculateFreeFloat order observations holdings declarations = .ok r ∧
        r.lineage = textSet ((q.resolveListedCommonShares observations).lineage ++
          rowSources ((q.coverageForCategories order declarations).selected.map (·.metadata)) ++
          rowSources ((q.selectHoldings order holdings).considered.map (·.metadata))) := by
      unfold calculateFreeFloat
      dsimp only
      rw [hstate, hvalue]
      dsimp only
      split
      · exact ⟨_, rfl, rfl⟩
      · split
        · exact ⟨_, rfl, rfl⟩
        · split
          · exact ⟨_, rfl, rfl⟩
          · split
            · exact ⟨_, rfl, rfl⟩
            · next hle =>
              obtain ⟨ratio, hratio⟩ := exists_ratio (value_pos v) (sum_shares_nonneg _)
                (not_lt.mp hle)
              rw [hratio]
              exact ⟨_, rfl, rfl⟩
    obtain ⟨r, hr, hlineage⟩ := hanswer
    refine ⟨r, _, hr, hlineage, fun x => ?_⟩
    unfold Collected taken
    have hfixed : x ∈ q.fixedLineage observations holdings ↔
        x ∈ rowSources ((q.selectHoldings order holdings).considered.map (·.metadata)) :=
      mem_fixedLineage hstate
    rw [if_pos hstate, hfixed, List.mem_append, List.mem_append, lineage_shares, mem_rowSources,
      mem_rowSources]
    simp only [List.mem_append, or_and_right, exists_or]
    exact or_comm
  · refine ⟨q.unavailable (q.resolveListedCommonShares observations).state
      (q.resolveListedCommonShares observations).qualityFlags none 0
      (q.resolveListedCommonShares observations).lineage, _, ?_, lineage_shares q observations,
      fun x => ?_⟩
    · unfold calculateFreeFloat
      dsimp only
      generalize (q.resolveListedCommonShares observations).state = state at hstate ⊢
      cases state with
      | verified => exact absurd rfl hstate
      | _ => rfl
    · unfold Collected taken fixedLineage
      rw [if_neg hstate, if_neg hstate, List.append_nil, List.mem_flatMap]
      simp

theorem isPick_selected (h : declarations.Perm declarations') :
    IsPick (q.declarationChoices declarations)
      (q.coverageForCategories order declarations').selected := by
  rw [selected_coverage]
  refine isPick_filterMap fun category _ => ?_
  have hperm := declaredValues_perm (q := q) h category
  by_cases hnil : q.declaredValues declarations category = []
  · rw [hnil] at hperm
    exact .inl ⟨selectedDeclaration_eq_none.mpr hperm.nil_eq.symm, if_pos hnil⟩
  · have hnil' : q.declaredValues declarations' category ≠ [] := fun hnone => by
      rw [hnone] at hperm
      exact hnil hperm.eq_nil
    obtain ⟨d, hd⟩ : ∃ d, selectedDeclaration order (q.declaredValues declarations' category) =
        some d := Option.ne_none_iff_exists'.mp (mt selectedDeclaration_eq_none.mp hnil')
    have htaken := (canBeTaken_perm hperm).mp (canBeTaken_of_selected hd)
    exact .inr ⟨d, _, hd, if_neg hnil,
      List.mem_filter.mpr ⟨htaken.1.mem, decide_eq_true htaken⟩⟩

theorem isPick_taken (hobservations : observations.Perm observations')
    (hdeclarations : declarations.Perm declarations') :
    IsPick (q.lineageChoices observations declarations)
      (q.taken order observations' declarations') := by
  have hrows := latestShares_perm (q := q) hobservations
  have hstate := (resolveListedCommonShares_perm (q := q) hobservations).2.1
  unfold lineageChoices taken
  rw [hstate]
  cases hlatest : q.latestShares observations .opendartStockTotal with
  | nil =>
    rw [hlatest] at hrows
    have hmissing : (q.resolveListedCommonShares observations).state ≠ .verified := by
      rw [resolveListedCommonShares_eq, hlatest]
      exact nofun
    rw [if_pos rfl, if_neg hmissing, hrows.eq_nil]
    exact List.Forall₂.nil
  | cons v rest =>
    rw [if_neg nofun, ← hlatest]
    cases hlatest' : q.latestShares observations' .opendartStockTotal with
    | nil =>
      rw [hlatest, hlatest'] at hrows
      exact absurd hrows.nil_eq nofun
    | cons v' rest' =>
      refine List.Forall₂.cons (List.mem_map_of_mem (hrows.mem_iff.mp ?_)) ?_
      · rw [hlatest']
        exact List.mem_cons_self
      · split
        · exact (isPick_selected hdeclarations).map _
        · exact List.Forall₂.nil

theorem takeable_category {category : NonFloatCategory} {d : HoldingCoverageDeclaration}
    (h : d ∈ q.takeable declarations category) :
    d ∈ q.declaredValues declarations category ∧
      CanBeTaken (q.declaredValues declarations category) d ∧ d.category = category := by
  obtain ⟨hmem, htaken⟩ := List.mem_filter.mp h
  exact ⟨hmem, of_decide_eq_true htaken, of_decide_eq_true (List.mem_filter.mp hmem).2⟩

theorem exists_arrangement {picked : List HoldingCoverageDeclaration}
    (h : IsPick (q.declarationChoices declarations) picked) :
    ∃ declarations', declarations.Perm declarations' ∧
      ∀ d, d ∈ (q.coverageForCategories (.insertion SourceDataset) declarations').selected ↔
        d ∈ picked := by
  have hcategories : q.policy.requiredNonFloatCategories.Nodup := by
    obtain ⟨-, -, hvalid⟩ := bind_eq_ok.mp q.policy.valid
    obtain ⟨-, -, hvalid⟩ := bind_eq_ok.mp hvalid
    obtain ⟨-, -, hvalid⟩ := bind_eq_ok.mp hvalid
    obtain ⟨-, -, hvalid⟩ := bind_eq_ok.mp hvalid
    by_contra hnot
    rw [ensure, if_neg hnot] at hvalid
    cases hvalid
  have hchoice : ∀ category alternatives,
      (if q.declaredValues declarations category = [] then none
        else some (q.takeable declarations category)) = some alternatives →
        q.declaredValues declarations category ≠ [] ∧
          alternatives = q.takeable declarations category := by
    intro category alternatives hsome
    split at hsome
    · cases hsome
    · next hne => exact ⟨hne, (Option.some.inj hsome).symm⟩
  -- one declaration of each declared category
  have hsublist : (picked.map (·.category)).Sublist q.policy.requiredNonFloatCategories := by
    refine h.map_sublist fun category alternatives hsome d hd => ?_
    obtain ⟨-, rfl⟩ := hchoice category alternatives hsome
    exact (takeable_category hd).2.2
  have hnodup : (picked.map (·.category)).Nodup := hcategories.sublist hsublist
  have htakeable : ∀ d ∈ picked, d.category ∈ q.policy.requiredNonFloatCategories ∧
      d ∈ q.takeable declarations d.category := by
    intro d hd
    obtain ⟨alternatives, hmem, hin⟩ := h.exists_mem hd
    obtain ⟨category, hcategory, hsome⟩ := List.mem_filterMap.mp hmem
    obtain ⟨-, rfl⟩ := hchoice category alternatives hsome
    have hsame := (takeable_category hin).2.2
    exact ⟨by rwa [hsame], by rwa [hsame]⟩
  have hall : ∀ category ∈ q.policy.requiredNonFloatCategories,
      q.declaredValues declarations category ≠ [] → ∃ d ∈ picked, d.category = category := by
    intro category hcategory hne
    have hmem : q.takeable declarations category ∈ q.declarationChoices declarations :=
      List.mem_filterMap.mpr ⟨category, hcategory, if_neg hne⟩
    obtain ⟨d, hd, hin⟩ := h.exists_of_mem hmem
    exact ⟨d, hd, (takeable_category hin).2.2⟩
  have hpickedmem : ∀ d ∈ picked, d ∈ declarations.filter fun v =>
      decide (v.stockCode = q.stockCode) && q.pitEligible v.effectiveOn v.metadata :=
    fun d hd => (List.mem_filter.mp (takeable_category (htakeable d hd).2).1).1
  -- the chosen ones first, the others in descending order
  have hsubperm : picked.Subperm declarations :=
    List.subperm_of_subset hnodup.of_map fun d hd => (List.mem_filter.mp (hpickedmem d hd)).1
  have hperm : declarations.Perm (picked ++ (declarations.diff picked).insertionSort fun a b =>
      b.metadata.precedence ≤ a.metadata.precedence) := by
    refine (List.Perm.symm ?_)
    exact (List.Perm.append_left _ (List.perm_insertionSort _ _)).trans
      (List.subperm_append_diff_self_of_count_le (List.subperm_ext_iff.mp hsubperm))
  generalize hothers : (declarations.diff picked).insertionSort (fun a b =>
    b.metadata.precedence ≤ a.metadata.precedence) = others at hperm
  have hsorted : others.Pairwise fun a b => b.metadata.precedence ≤ a.metadata.precedence := by
    rw [← hothers]
    have : Std.Total fun a b : HoldingCoverageDeclaration =>
      b.metadata.precedence ≤ a.metadata.precedence := ⟨fun a b => le_total _ _⟩
    have : IsTrans HoldingCoverageDeclaration fun a b =>
      b.metadata.precedence ≤ a.metadata.precedence := ⟨fun a b c hab hbc => hbc.trans hab⟩
    exact List.pairwise_insertionSort _ _
  refine ⟨picked ++ others, hperm, ?_⟩
  -- what was chosen of a category stands first in it
  have hfirst : ∀ d ∈ picked, selectedDeclaration (.insertion SourceDataset)
      (q.declaredValues (picked ++ others) d.category) = some d := by
    intro d hd
    have hvalues : q.declaredValues (picked ++ others) d.category =
        d :: q.declaredValues others d.category := by
      unfold declaredValues
      rw [List.filter_append, List.filter_append,
        List.filter_eq_self.mpr fun e he => (List.mem_filter.mp (hpickedmem e he)).2,
        filter_key_eq_singleton hnodup hd]
      rfl
    have htaken := (canBeTaken_perm (declaredValues_perm (q := q) hperm d.category)).mpr
      (takeable_category (htakeable d hd).2).2.1
    rw [hvalues] at htaken ⊢
    exact selectedDeclaration_cons
      ((hsorted.sublist List.filter_sublist).sublist List.filter_sublist) htaken
  intro d
  rw [selected_coverage, List.mem_filterMap]
  constructor
  · rintro ⟨category, hcategory, hd⟩
    have hne : q.declaredValues declarations category ≠ [] := by
      intro hnil
      have hnone : selectedDeclaration (.insertion SourceDataset)
          (q.declaredValues declarations category) = none := selectedDeclaration_eq_none.mpr hnil
      rw [(selectedDeclaration_perm_none hperm category).mpr hnone] at hd
      cases hd
    obtain ⟨e, he, rfl⟩ := hall category hcategory hne
    rw [hfirst e he] at hd
    rwa [← Option.some.inj hd]
  · intro hd
    exact ⟨d.category, (htakeable d hd).1, hfirst d hd⟩

theorem exists_taken {picked : List SourceMetadata}
    (h : IsPick (q.lineageChoices observations declarations) picked) :
    ∃ observations' declarations', observations.Perm observations' ∧
      declarations.Perm declarations' ∧
      ∀ m, m ∈ q.taken (.insertion SourceDataset) observations' declarations' ↔ m ∈ picked := by
  unfold lineageChoices at h
  split at h
  · next hnil =>
    cases h
    have hmissing : (q.resolveListedCommonShares observations).state ≠ .verified := by
      rw [resolveListedCommonShares_eq, hnil]
      exact nofun
    refine ⟨observations, declarations, List.Perm.refl _, List.Perm.refl _, fun m => ?_⟩
    rw [taken, hnil, if_neg hmissing]
    rfl
  · cases h with
    | @cons m₀ _ rest _ hhead htail =>
      obtain ⟨v, hv, rfl⟩ := List.mem_map.mp hhead
      obtain ⟨hcandidate, hsource⟩ := mem_rowsOf.mp (mem_latestRows.mp hv).1
      obtain ⟨hobserved, hkeep⟩ := List.mem_filter.mp hcandidate
      have hperm := List.perm_cons_erase hobserved
      have hstate := (resolveListedCommonShares_perm (q := q) hperm).2.1
      have hfirst : (q.latestShares (v :: observations.erase v) .opendartStockTotal).head? =
          some v := by
        have hlatest := (latestShares_perm (q := q) hperm).mem_iff.mpr hv
        have hrows : rowsOf (fun w : FieldObservation => w.metadata.dataset)
            (q.shareCandidates (v :: observations.erase v)) .opendartStockTotal =
            v :: rowsOf (fun w : FieldObservation => w.metadata.dataset)
              (q.shareCandidates (observations.erase v)) .opendartStockTotal := by
          have hcandidates : q.shareCandidates (v :: observations.erase v) =
              v :: q.shareCandidates (observations.erase v) := List.filter_cons_of_pos hkeep
          rw [hcandidates]
          exact List.filter_cons_of_pos (decide_eq_true hsource)
        unfold latestShares at hlatest ⊢
        rw [hrows] at hlatest ⊢
        rw [latestRows_cons (mem_latestRows.mp hlatest)]
        rfl
      split at htail
      · next hverified =>
        obtain ⟨ds, hds, rfl⟩ := exists_pick_map htail
        obtain ⟨declarations', hdeclarations, hmem⟩ := exists_arrangement hds
        refine ⟨_, declarations', hperm, hdeclarations, fun m => ?_⟩
        rw [taken, hfirst, hstate, if_pos hverified]
        simp only [Option.toList_some, List.map_cons, List.map_nil, List.cons_append,
          List.nil_append, List.mem_cons, List.mem_map, hmem]
      · next hverified =>
        cases htail
        refine ⟨_, declarations, hperm, List.Perm.refl _, fun m => ?_⟩
        rw [taken, hfirst, hstate, if_neg hverified]
        simp

theorem lineageChoices_ne_nil :
    ∀ alternatives ∈ q.lineageChoices observations declarations, alternatives ≠ [] := by
  unfold lineageChoices
  intro alternatives hmem
  split at hmem
  · cases hmem
  · next hne =>
    rcases List.mem_cons.mp hmem with rfl | hmem
    · rwa [ne_eq, List.map_eq_nil_iff]
    · split at hmem
      · obtain ⟨rows, hrows, rfl⟩ := List.mem_map.mp hmem
        obtain ⟨category, -, hsome⟩ := List.mem_filterMap.mp hrows
        split at hsome
        · cases hsome
        · next hvalues =>
          cases hsome
          obtain ⟨d, hd, htaken⟩ := exists_canBeTaken hvalues
          rw [ne_eq, List.map_eq_nil_iff]
          exact List.ne_nil_of_mem (List.mem_filter.mpr ⟨hd, decide_eq_true htaken⟩)
      · cases hmem

theorem mem_fixedLineage_perm (hobservations : observations.Perm observations')
    (hholdings : holdings.Perm holdings') :
    x ∈ q.fixedLineage observations' holdings' ↔ x ∈ q.fixedLineage observations holdings := by
  have hstate := (resolveListedCommonShares_perm (q := q) hobservations).2.1
  unfold fixedLineage
  rw [hstate]
  split
  · simp only [List.mem_flatMap, List.mem_filter, decide_eq_true_eq, newestRow_perm hholdings,
      (disclosedHoldings_perm hholdings).mem_iff]
  · rfl

/-- The sums of a free float add up, and every holder and class of shares is deducted once. -/
def Conservative (q : FloatRequest) (order : SetOrder SourceDataset)
    (holdings : List NonFloatHolding) (r : FreeFloatResult) : Prop :=
  ∃ issued deducted free ratio, r.issuedCommonShares = some issued ∧
    r.deductedNonFloatShares = some deducted ∧ r.freeFloatShares = some free ∧
    r.ratio = some ratio ∧ free + deducted = issued ∧ 0 ≤ ratio.value ∧ ratio.value ≤ 1 ∧
    deducted = ((q.selectHoldings order holdings).selected.map (·.shares)).sum ∧
    ((q.selectHoldings order holdings).selected.map NonFloatHolding.economicKey).Nodup

theorem conservative_of_verified {r : FreeFloatResult}
    (h : q.calculateFreeFloat order observations holdings declarations = .ok r)
    (hverified : r.state = .verified) : q.Conservative order holdings r := by
  obtain ⟨issued, ratio, -, -, hle, hdiv, hratio, hissued, hdeducted, hfree⟩ :=
    of_verified h hverified
  have hnonneg := sum_shares_nonneg (q.selectHoldings order holdings).selected
  have hbetween := Decimal.div_between (by decide) hdiv
    (by rw [Decimal.value_ofInt]; exact_mod_cast sub_nonneg.mpr hle)
    (by rw [Decimal.value_ofInt, Decimal.value_ofInt]; exact_mod_cast sub_le_self issued hnonneg)
  exact ⟨issued, _, _, ratio, hissued, hdeducted, hfree, hratio, sub_add_cancel _ _, hbetween.1,
    hbetween.2, rfl, nodup_selected order holdings⟩

/-- The order of the rows changes nothing, and free floats that can be trusted are conservative,
exactly when equally late rows rest on the same, or on what the answer rests on in any case. -/
theorem permutation_free_iff (q : FloatRequest) (observations : List FieldObservation)
    (holdings : List NonFloatHolding) (declarations : List HoldingCoverageDeclaration) :
    ((∀ order observations' holdings' declarations', observations.Perm observations' →
        holdings.Perm holdings' → declarations.Perm declarations' →
          q.calculateFreeFloat order observations' holdings' declarations' =
            q.calculateFreeFloat order observations holdings declarations) ∧
      ∀ order r, q.calculateFreeFloat order observations holdings declarations = .ok r →
        r.state = .verified → q.Conservative order holdings r) ↔
      Settled SourceMetadata.sources (q.fixedLineage observations holdings)
        (q.lineageChoices observations declarations) := by
  rw [and_iff_left fun order r h hverified => conservative_of_verified h hverified,
    ← collected_iff_settled _ _ lineageChoices_ne_nil]
  constructor
  · intro hsame
    have hcollected : ∀ p, IsPick (q.lineageChoices observations declarations) p →
        ∃ r, q.calculateFreeFloat (.insertion SourceDataset) observations holdings declarations =
          .ok r ∧ ∀ x, x ∈ r.lineage ↔
            Collected SourceMetadata.sources (q.fixedLineage observations holdings) p x := by
      intro p hp
      obtain ⟨observations', declarations', hobservations, hdeclarations, hmem⟩ := exists_taken hp
      obtain ⟨r, texts, hr, hlineage, htexts⟩ :=
        exists_answer q (.insertion SourceDataset) observations' holdings declarations'
      refine ⟨r, ?_, fun x => ?_⟩
      · rw [← hr]
        exact (hsame _ _ _ _ hobservations (List.Perm.refl _) hdeclarations).symm
      · rw [hlineage, mem_textSet, htexts]
        unfold Collected
        rw [mem_fixedLineage_perm hobservations (List.Perm.refl _)]
        simp only [hmem]
    intro p p' hp hp' x
    obtain ⟨r, hr, hx⟩ := hcollected p hp
    obtain ⟨r', hr', hx'⟩ := hcollected p' hp'
    obtain rfl := Except.ok.inj (hr.symm.trans hr')
    exact (hx x).symm.trans (hx' x)
  · intro hfixed order observations' holdings' declarations' hobservations hholdings hdeclarations
    obtain ⟨r, texts, hr, hlineage, htexts⟩ :=
      exists_answer q order observations holdings declarations
    obtain ⟨r', texts', hr', hlineage', htexts'⟩ :=
      exists_answer q order observations' holdings' declarations'
    have hrest : (q.calculateFreeFloat order observations' holdings' declarations').map
        FreeFloatResult.withoutLineage =
          (q.calculateFreeFloat order observations holdings declarations).map
            FreeFloatResult.withoutLineage :=
      withoutLineage_perm hobservations hholdings hdeclarations
    have hsame : r'.lineage = r.lineage := by
      rw [hlineage, hlineage', textSet_eq_iff]
      intro x
      have hpick : IsPick (q.lineageChoices observations declarations)
          (q.taken order observations' declarations') := isPick_taken hobservations hdeclarations
      have hbase : IsPick (q.lineageChoices observations declarations)
          (q.taken order observations declarations) :=
        isPick_taken (List.Perm.refl _) (List.Perm.refl _)
      rw [htexts, htexts', ← hfixed _ _ hpick hbase x]
      unfold Collected
      rw [mem_fixedLineage_perm hobservations hholdings]
    rw [hr, hr'] at hrest ⊢
    have hfields := Except.ok.inj hrest
    cases r
    cases r'
    simp only [FreeFloatResult.withoutLineage, FreeFloatResult.mk.injEq] at hfields hsame
    simp [hfields, hsame]

/-- The issued shares, from another collection of the same time. -/
def hundredSharesAgain : FieldObservation :=
  ⟨⟨"005930", .listedCommonShares, 100, december, .common,
    ⟨{ gathered .opendartStockTotal with lineage := ["second-request"] }, by decide⟩⟩,
    by decide +kernel⟩

/-- The order of two equally late share counts decides what the answer says it rests on. -/
theorem permutation_not_free :
    ¬ ((∀ order observations' holdings' declarations',
        [hundredShares, hundredSharesAgain].Perm observations' →
          [treasuryOfSeptember, holderOfDecember].Perm holdings' →
            [treasuryDeclared, holdersDeclared].Perm declarations' →
              askedInApril.calculateFreeFloat order observations' holdings' declarations' =
                askedInApril.calculateFreeFloat order [hundredShares, hundredSharesAgain]
                  [treasuryOfSeptember, holderOfDecember] [treasuryDeclared, holdersDeclared]) ∧
      ∀ order r, askedInApril.calculateFreeFloat order [hundredShares, hundredSharesAgain]
          [treasuryOfSeptember, holderOfDecember] [treasuryDeclared, holdersDeclared] = .ok r →
        r.state = .verified →
          askedInApril.Conservative order [treasuryOfSeptember, holderOfDecember] r) := by
  rintro ⟨h, -⟩
  have hsame := h asTheyCame _ _ _ (List.Perm.swap hundredSharesAgain hundredShares [])
    (List.Perm.refl _) (List.Perm.refl _)
  have hne : askedInApril.calculateFreeFloat asTheyCame [hundredSharesAgain, hundredShares]
        [treasuryOfSeptember, holderOfDecember] [treasuryDeclared, holdersDeclared] ≠
      askedInApril.calculateFreeFloat asTheyCame [hundredShares, hundredSharesAgain]
        [treasuryOfSeptember, holderOfDecember] [treasuryDeclared, holdersDeclared] := by
    decide +kernel
  exact hne hsame

end FloatRequest

end Dayjaview.Reference
