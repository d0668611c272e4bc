import Dayjaview.Core.Choices
import Dayjaview.Reference.LockedShares

/-!
# The free float and the order of the rows

Neither the order of the rows nor that of the sources decides about the free float, the shares, the
state and the flags. What the answer says it rests on names one of several equally late rows, so it
is the same in every order exactly when these rows rest on the same.
-/

namespace Dayjaview

theorem mem_textSet {texts : List String} {t : String} : t ∈ textSet texts ↔ t ∈ texts := by
  simp [textSet]

theorem textSet_eq_iff {as bs : List String} : textSet as = textSet bs ↔ ∀ t, t ∈ as ↔ t ∈ bs := by
  constructor
  · intro h t
    rw [← mem_textSet, h, mem_textSet]
  · intro h
    have hperm : as.dedup.Perm bs.dedup :=
      (List.perm_ext_iff_of_nodup as.nodup_dedup bs.nodup_dedup).mpr fun t => by simp [h]
    refine List.Perm.eq_of_pairwise (fun a b _ _ => le_antisymm)
      (List.pairwise_insertionSort _ _) (List.pairwise_insertionSort _ _) ?_
    exact (List.perm_insertionSort _ _).trans (hperm.trans (List.perm_insertionSort _ _).symm)

theorem any_congr_mem {α : Type*} {f g : α → Bool} {as : List α} (h : ∀ a ∈ as, f a = g a) :
    as.any f = as.any g := by
  rw [Bool.eq_iff_iff, List.any_eq_true, List.any_eq_true]
  exact exists_congr fun a => and_congr_right fun ha => by rw [h a ha]

namespace Reference

/-- An answer without what it rests on. -/
def FreeFloatResult.withoutLineage (r : FreeFloatResult) : FreeFloatResult :=
  { r with lineage := [] }

namespace FloatRequest

variable {q : FloatRequest} {order order' : SetOrder SourceDataset}
  {observations observations' : List FieldObservation} {holdings holdings' : List NonFloatHolding}
  {declarations declarations' : List HoldingCoverageDeclaration}

theorem latestShares_perm (h : observations.Perm observations') :
    (q.latestShares observations' .opendartStockTotal).Perm
      (q.latestShares observations .opendartStockTotal) :=
  latestRows_perm ((h.symm.filter _).filter _)

theorem resolveListedCommonShares_eq (q : FloatRequest) (observations : List FieldObservation) :
    q.resolveListedCommonShares observations =
      match q.latestShares observations .opendartStockTotal with
      | [] =>
        ⟨none, .missing, sortedFlags [.freeFloatUnavailable, .sourceMissing], [], rowSources []⟩
      | first :: rest =>
        if q.isStale first.effectiveOn then
          ⟨none, .stale, sortedFlags [.freeFloatUnavailable, .freeFloatStale, .sourceStale],
            [first], rowSources [first.metadata]⟩
        else if ¬ Uniform (fun v => v.value) (first :: rest) then
          ⟨none, .conflict, sortedFlags [.freeFloatUnavailable, .freeFloatSourceConflict], [first],
            rowSources [first.metadata]⟩
        else ⟨some first.value, .verified, [], [first], rowSources [first.metadata]⟩ := by
  unfold resolveListedCommonShares
  cases hrows : q.latestShares observations .opendartStockTotal with
  | nil => simp [fieldSourcePriority, hrows]
  | cons first rest =>
    have hone : Uniform (fun v : FieldObservation => v.value) [first] := by simp [Uniform]
    have hstale : ([first].any fun v => q.isStale v.effectiveOn) = q.isStale first.effectiveOn := by
      simp
    have hconflict : (fieldSourcePriority.any (fun source =>
        decide (q.latestShares observations source ≠ [] ∧
          ¬ Uniform (fun v => v.value) (q.latestShares observations source))) = true ∨
            ¬ Uniform (fun v : FieldObservation => v.value) [first]) ↔
        ¬ Uniform (fun v => v.value) (first :: rest) := by
      simp [fieldSourcePriority, hrows, hone]
    have hselected : fieldSourcePriority.filterMap
        (fun source => (q.latestShares observations source).head?) = [first] := by
      simp [fieldSourcePriority, hrows]
    have hmissing : fieldSourcePriority.filter
        (fun source => decide (q.latestShares observations source = [])) = [] := by
      simp [fieldSourcePriority, hrows]
    dsimp only
    rw [hselected, hmissing, if_neg (not_not.mpr rfl), hstale]
    simp only [hconflict]
    rfl

theorem resolveListedCommonShares_perm (h : observations.Perm observations') :
    (q.resolveListedCommonShares observations').value =
        (q.resolveListedCommonShares observations).value ∧
      (q.resolveListedCommonShares observations').state =
        (q.resolveListedCommonShares observations).state ∧
      (q.resolveListedCommonShares observations').qualityFlags =
        (q.resolveListedCommonShares observations).qualityFlags := by
  have hperm := latestShares_perm (q := q) h
  rw [resolveListedCommonShares_eq, resolveListedCommonShares_eq]
  cases hrows : q.latestShares observations .opendartStockTotal with
  | nil =>
    rw [hrows] at hperm
    rw [hperm.eq_nil]
    exact ⟨rfl, rfl, rfl⟩
  | cons first rest =>
    cases hrows' : q.latestShares observations' .opendartStockTotal with
    | nil =>
      rw [hrows, hrows'] at hperm
      exact absurd hperm.nil_eq nofun
    | cons first' rest' =>
      have hmem : first ∈ q.latestShares observations .opendartStockTotal := by simp [hrows]
      have hmem' : first' ∈ q.latestShares observations .opendartStockTotal :=
        hperm.mem_iff.mp (by simp [hrows'])
      have hrank := rank_eq_of_mem_latestRows hmem' hmem
      have hdate : first'.effectiveOn = first.effectiveOn :=
        congrArg (fun r : Date ×ₗ ℤ ×ₗ ℕ => (ofLex r).1) hrank
      rw [hrows, hrows'] at hperm
      have huniform : Uniform (fun v => v.value) (first' :: rest') ↔
          Uniform (fun v : FieldObservation => v.value) (first :: rest) :=
        uniform_congr fun _ => hperm.mem_iff
      dsimp only
      rw [hdate]
      simp only [huniform]
      split
      · exact ⟨rfl, rfl, rfl⟩
      · split
        · exact ⟨rfl, rfl, rfl⟩
        · next hagree =>
          rw [hrows] at hmem'
          have hvalue : first'.value = first.value :=
            (uniform_iff.mp (not_not.mp hagree)).2 first' hmem' first List.mem_cons_self
          exact ⟨congrArg some hvalue, rfl, rfl⟩

theorem lineage_shares (q : FloatRequest) (observations : List FieldObservation) :
    (q.resolveListedCommonShares observations).lineage =
      rowSources
      ((q.latestShares observations .opendartStockTotal).head?.toList.map (·.metadata)) := by
  rw [resolveListedCommonShares_eq]
  cases q.latestShares observations .opendartStockTotal with
  | nil => rfl
  | cons first rest =>
    dsimp only
    split
    · rfl
    · split <;> rfl

theorem summary_selectGroup_perm {as bs : List NonFloatHolding} (h : as.Perm bs) :
    ((selectGroup order as).duplicateCount, (selectGroup order as).conflict,
        (selectGroup order as).selected.head?.map counted) =
      ((selectGroup order' bs).duplicateCount, (selectGroup order' bs).conflict,
        (selectGroup order' bs).selected.head?.map counted) := by
  rw [summary_selectGroup, summary_selectGroup]
  refine groupSummary_perm (map_latestByKey_perm (fun xs ys hperm => ?_) h)
  unfold sourceSummary
  have huniform : Uniform counted xs ↔ Uniform counted ys := uniform_congr fun _ => hperm.mem_iff
  simp only [huniform, hperm.length_eq]
  split
  · next hagree =>
    obtain ⟨y, rest, hy⟩ := List.exists_cons_of_ne_nil (uniform_iff.mp hagree).1
    obtain ⟨x, rest', hx⟩ := List.exists_cons_of_ne_nil (uniform_iff.mp (huniform.mpr hagree)).1
    have hsame : counted x = counted y := (uniform_iff.mp hagree).2 x
      (hperm.mem_iff.mp (by rw [hx]; exact List.mem_cons_self)) y
      (by rw [hy]; exact List.mem_cons_self)
    rw [hx, hy, List.head?_cons, List.head?_cons, Option.map_some, Option.map_some, hsame]
  · rfl

theorem disclosedHoldings_perm (h : holdings.Perm holdings') :
    (q.disclosedHoldings holdings').Perm (q.disclosedHoldings holdings) :=
  latestRows_perm (h.symm.filter _)

theorem newestRow_perm (h : holdings.Perm holdings') {r : NonFloatHolding} :
    q.NewestRow holdings' r ↔ q.NewestRow holdings r :=
  (latestRows_perm (((disclosedHoldings_perm h).filter _).filter _)).mem_iff

theorem selectHoldings_perm (h : holdings.Perm holdings') :
    (q.selectHoldings order' holdings').duplicateCount =
        (q.selectHoldings order holdings).duplicateCount ∧
      (q.selectHoldings order' holdings').conflict = (q.selectHoldings order holdings).conflict ∧
      ((q.selectHoldings order' holdings').selected.map counted).Perm
        ((q.selectHoldings order holdings).selected.map counted) := by
  have hsummaries :
      ((grouped NonFloatHolding.economicKey (q.disclosedHoldings holdings')).values.map
      fun group => ((selectGroup order' group).duplicateCount, (selectGroup order' group).conflict,
        (selectGroup order' group).selected.head?.map counted)).Perm
      ((grouped NonFloatHolding.economicKey (q.disclosedHoldings holdings)).values.map
      fun group => ((selectGroup order group).duplicateCount, (selectGroup order group).conflict,
        (selectGroup order group).selected.head?.map counted)) := by
    refine (map_values_grouped_perm _ (fun xs ys hperm => summary_selectGroup_perm hperm)
      (disclosedHoldings_perm h)).trans (List.Perm.of_eq (List.map_congr_left fun group _ => ?_))
    exact summary_selectGroup_perm (List.Perm.refl _)
  have hcounted : ∀ order hs, ((q.selectHoldings order hs).selected.map counted).Perm
      (((grouped NonFloatHolding.economicKey (q.disclosedHoldings hs)).values.map
        fun group => ((selectGroup order group).duplicateCount, (selectGroup order group).conflict,
          (selectGroup order group).selected.head?.map counted)).flatMap fun s =>
          s.2.2.toList) := by
    intro order hs
    refine ((List.perm_insertionSort _ _).map _).trans (List.Perm.of_eq ?_)
    rw [List.map_flatMap, List.flatMap_map, List.flatMap_map]
    refine congrArg (List.flatMap · _) (funext fun group => ?_)
    obtain hnone | ⟨g, -, hone⟩ := selected_selectGroup order group
    · rw [hnone]
      rfl
    · rw [hone]
      rfl
  refine ⟨?_, ?_, ?_⟩
  · have hsum := (hsummaries.map Prod.fst).sum_eq
    rw [List.map_map, List.map_map] at hsum
    unfold selectHoldings
    dsimp only
    rw [List.map_map, List.map_map]
    exact hsum
  · have hany := hsummaries.any_eq (f := fun s => s.2.1)
    rw [List.any_map, List.any_map] at hany
    unfold selectHoldings
    dsimp only
    rw [List.any_map, List.any_map]
    exact hany
  · exact (hcounted order' holdings').trans
      ((hsummaries.flatMap_right _).trans (hcounted order holdings).symm)

theorem any_stale_selected (q : FloatRequest) (order : SetOrder SourceDataset)
    (holdings : List NonFloatHolding) :
    ((q.selectHoldings order holdings).selected.any fun h => q.isStale h.effectiveOn) = true ↔
      (q.selectHoldings order holdings).selected ≠ [] ∧
        ∃ h ∈ q.disclosedHoldings holdings, q.isStale h.effectiveOn = true := by
  have hdisclosed : ∀ h ∈ (q.selectHoldings order holdings).selected,
      h ∈ q.disclosedHoldings holdings := by
    intro h hh
    have hnewest := newestRow_of_selected hh
    exact (mem_rowsOf.mp (mem_rowsOf.mp (mem_latestRows.mp hnewest).1).1).1
  rw [List.any_eq_true]
  constructor
  · rintro ⟨h, hh, hstale⟩
    exact ⟨List.ne_nil_of_mem hh, h, hdisclosed h hh, hstale⟩
  · rintro ⟨hne, h, hh, hstale⟩
    obtain ⟨g, hg⟩ := List.exists_mem_of_ne_nil _ hne
    have hdate : g.effectiveOn = h.effectiveOn :=
      @rank_eq_of_mem_latestRows _ _ _ (fun r : NonFloatHolding => r.effectiveOn) _ _ _
        (hdisclosed g hg) hh
    exact ⟨g, hg, by rw [hdate]; exact hstale⟩

theorem any_stale_selected_perm (h : holdings.Perm holdings') :
    ((q.selectHoldings order' holdings').selected.any fun h => q.isStale h.effectiveOn) =
      (q.selectHoldings order holdings).selected.any fun h => q.isStale h.effectiveOn := by
  have hcounted : ((q.selectHoldings order' holdings').selected.map counted).Perm
      ((q.selectHoldings order holdings).selected.map counted) := (selectHoldings_perm h).2.2
  have hlength := hcounted.length_eq
  rw [List.length_map, List.length_map] at hlength
  rw [Bool.eq_iff_iff, any_stale_selected, any_stale_selected]
  simp only [← List.length_pos_iff, hlength, (disclosedHoldings_perm h).mem_iff]

section Declarations

variable {values values' : List HoldingCoverageDeclaration} {d e : HoldingCoverageDeclaration}

/-- A declaration is one of the latest of its source. -/
def NewestDeclaration (values : List HoldingCoverageDeclaration) (d : HoldingCoverageDeclaration) :
    Prop :=
  d ∈ latestRows HoldingCoverageDeclaration.rank
    (rowsOf (fun v => v.metadata.dataset) values d.metadata.dataset)

/-- A declaration is of the newest date. -/
def OfNewestDate (values : List HoldingCoverageDeclaration) (d : HoldingCoverageDeclaration) :
    Prop :=
  d ∈ latestRows (fun v => v.effectiveOn) values

instance : Decidable (NewestDeclaration values d) := List.instDecidableMemOfLawfulBEq _ _
instance : Decidable (OfNewestDate values d) := List.instDecidableMemOfLawfulBEq _ _

theorem newestDeclaration_perm (h : values.Perm values') :
    NewestDeclaration values' d ↔ NewestDeclaration values d :=
  (latestRows_perm (h.symm.filter _)).mem_iff

theorem ofNewestDate_perm (h : values.Perm values') :
    OfNewestDate values' d ↔ OfNewestDate values d :=
  (latestRows_perm h.symm).mem_iff

theorem NewestDeclaration.mem (h : NewestDeclaration values d) : d ∈ values :=
  (mem_rowsOf.mp (mem_latestRows.mp h).1).1

theorem NewestDeclaration.effectiveOn_eq (hd : NewestDeclaration values d)
    (he : NewestDeclaration values e) (hsource : e.metadata.dataset = d.metadata.dataset) :
    e.effectiveOn = d.effectiveOn := by
  unfold NewestDeclaration at hd he
  rw [hsource] at he
  exact congrArg (fun r : Date ×ₗ ℤ ×ₗ ℕ => (ofLex r).1) (rank_eq_of_mem_latestRows he hd)

theorem mem_firstDeclarations :
    d ∈ (latestDeclarations order values).filterMap List.head? ↔
      (latestRows HoldingCoverageDeclaration.rank
        (rowsOf (fun v => v.metadata.dataset) values d.metadata.dataset)).head? = some d := by
  unfold latestDeclarations
  rw [List.mem_filterMap]
  constructor
  · rintro ⟨rows, hrows, hhead⟩
    obtain ⟨first, -, rfl⟩ := mem_latestByKey.mp hrows
    have hsource : d.metadata.dataset = first.metadata.dataset :=
      (mem_rowsOf.mp (mem_latestRows.mp (List.mem_of_head? hhead)).1).2
    rwa [hsource]
  · intro hhead
    have hmem : d ∈ values := (mem_rowsOf.mp (mem_latestRows.mp (List.mem_of_head? hhead)).1).1
    exact ⟨_, mem_latestByKey.mpr ⟨d, hmem, rfl⟩, hhead⟩

theorem exists_firstDeclaration (order : SetOrder SourceDataset) (h : NewestDeclaration values d) :
    ∃ e ∈ (latestDeclarations order values).filterMap List.head?,
      e.metadata.dataset = d.metadata.dataset ∧ NewestDeclaration values e := by
  obtain ⟨e, rest, he⟩ := List.exists_cons_of_ne_nil (List.ne_nil_of_mem h)
  have hmem : e ∈ latestRows HoldingCoverageDeclaration.rank
      (rowsOf (fun v => v.metadata.dataset) values d.metadata.dataset) := by
    rw [he]
    exact List.mem_cons_self
  have hsource : e.metadata.dataset = d.metadata.dataset :=
    (mem_rowsOf.mp (mem_latestRows.mp hmem).1).2
  have hhead : (latestRows HoldingCoverageDeclaration.rank
      (rowsOf (fun v => v.metadata.dataset) values e.metadata.dataset)).head? = some e := by
    rw [hsource, he]
    rfl
  exact ⟨e, mem_firstDeclarations.mpr hhead, hsource, by rwa [NewestDeclaration, hsource]⟩

theorem exists_newest_le (hd : d ∈ values) :
    ∃ e, NewestDeclaration values e ∧ d.effectiveOn ≤ e.effectiveOn := by
  have hrow : d ∈ rowsOf (fun v => v.metadata.dataset) values d.metadata.dataset :=
    mem_rowsOf.mpr ⟨hd, rfl⟩
  obtain ⟨e, he⟩ : ∃ e, latestOf HoldingCoverageDeclaration.rank
      (rowsOf (fun v => v.metadata.dataset) values d.metadata.dataset) = some e :=
    exists_latestOf (List.ne_nil_of_mem hrow)
  have hgreatest := isGreatestBy_of_latestOf he
  have hsource := (mem_rowsOf.mp hgreatest.1).2
  refine ⟨e, by rw [NewestDeclaration, hsource]; exact mem_latestRows.mpr hgreatest, ?_⟩
  have hle : toLex (d.effectiveOn, d.metadata.rank) ≤ toLex (e.effectiveOn, e.metadata.rank) :=
    hgreatest.2 d hrow
  rcases Prod.Lex.le_iff.mp hle with hlt | ⟨heq, -⟩
  · exact le_of_lt hlt
  · exact le_of_eq heq

theorem mem_comparable :
    d ∈ comparableDeclarations order values ↔
      d ∈ (latestDeclarations order values).filterMap List.head? ∧ OfNewestDate values d := by
  unfold comparableDeclarations OfNewestDate
  rw [mem_latestRows, mem_latestRows]
  constructor
  · rintro ⟨hfirst, hmax⟩
    have hmem : d ∈ values := by
      have hhead := List.mem_of_head? (mem_firstDeclarations.mp hfirst)
      exact (mem_rowsOf.mp (mem_latestRows.mp hhead).1).1
    refine ⟨hfirst, hmem, fun v hv => ?_⟩
    obtain ⟨e, he, hle⟩ := exists_newest_le hv
    obtain ⟨c, hc, hsource, hnewest⟩ := exists_firstDeclaration order he
    rw [← he.effectiveOn_eq hnewest hsource] at hle
    exact hle.trans (hmax c hc)
  · rintro ⟨hfirst, -, hmax⟩
    refine ⟨hfirst, fun c hc => hmax c ?_⟩
    have hhead := List.mem_of_head? (mem_firstDeclarations.mp hc)
    exact (mem_rowsOf.mp (mem_latestRows.mp hhead).1).1

theorem newestDeclaration_of_comparable (h : d ∈ comparableDeclarations order values) :
    NewestDeclaration values d ∧ OfNewestDate values d := by
  obtain ⟨hfirst, hdate⟩ := mem_comparable.mp h
  exact ⟨List.mem_of_head? (mem_firstDeclarations.mp hfirst), hdate⟩

theorem exists_comparable (order : SetOrder SourceDataset) (h : NewestDeclaration values d)
    (hdate : OfNewestDate values d) :
    ∃ e ∈ comparableDeclarations order values, e.metadata.dataset = d.metadata.dataset ∧
      NewestDeclaration values e := by
  obtain ⟨e, he, hsource, hnewest⟩ := exists_firstDeclaration order h
  refine ⟨e, mem_comparable.mpr ⟨he, ?_⟩, hsource, hnewest⟩
  unfold OfNewestDate at hdate ⊢
  rw [mem_latestRows] at hdate ⊢
  have hsame : e.effectiveOn = d.effectiveOn := h.effectiveOn_eq hnewest hsource
  exact ⟨hnewest.mem, fun v hv => (hdate.2 v hv).trans hsame.ge⟩

theorem selectedDeclaration_eq_none : selectedDeclaration order values = none ↔ values = [] := by
  unfold selectedDeclaration
  rw [latestOf_eq_none]
  constructor
  · intro hnone
    by_contra hne
    obtain ⟨v, hv⟩ : ∃ v, latestOf (fun v : HoldingCoverageDeclaration => v.effectiveOn) values =
        some v := exists_latestOf hne
    have hdate : OfNewestDate values v := mem_latestRows.mpr (isGreatestBy_of_latestOf hv)
    obtain ⟨e, he, hle⟩ := exists_newest_le (isGreatestBy_of_latestOf hv).1
    have hedate : OfNewestDate values e := mem_latestRows.mpr
      ⟨he.mem, fun w hw => ((mem_latestRows.mp hdate).2 w hw).trans hle⟩
    obtain ⟨c, hc, -⟩ := exists_comparable order he hedate
    rw [hnone] at hc
    cases hc
  · rintro rfl
    rw [List.eq_nil_iff_forall_not_mem]
    intro c hc
    exact absurd (newestDeclaration_of_comparable hc).1.mem List.not_mem_nil

theorem selectedDeclaration_mem (h : selectedDeclaration order values = some d) :
    d ∈ comparableDeclarations order values :=
  (isGreatestBy_of_latestOf h).1

/-- Two declarations that have to agree do not. -/
def Disagree (values : List HoldingCoverageDeclaration) : Prop :=
  ∃ d e, NewestDeclaration values d ∧ NewestDeclaration values e ∧
    (e.metadata.dataset = d.metadata.dataset ∨ (OfNewestDate values d ∧ OfNewestDate values e)) ∧
    d.status ≠ e.status

theorem disagree_perm (h : values.Perm values') : Disagree values' ↔ Disagree values := by
  simp only [Disagree, newestDeclaration_perm h, ofNewestDate_perm h]

theorem declarationConflict_iff (hne : values ≠ []) :
    declarationConflict order values = true ↔ Disagree values := by
  have hsomething : comparableDeclarations order values ≠ [] := by
    intro hnil
    have hnone : selectedDeclaration order values = none := by
      unfold selectedDeclaration
      rw [hnil]
      rfl
    exact hne (selectedDeclaration_eq_none.mp hnone)
  unfold declarationConflict
  rw [Bool.or_eq_true, List.any_eq_true, decide_eq_true_eq]
  constructor
  · rintro (⟨rows, hrows, hnot⟩ | hnot)
    · rw [decide_eq_true_eq, uniform_iff] at hnot
      obtain ⟨first, hfirst, rfl⟩ := mem_latestByKey.mp hrows
      push Not at hnot
      obtain ⟨d, hd, e, he, hstatus⟩ := hnot (ne_nil_of_mem_latestByKey hrows)
      have hdsource := (mem_rowsOf.mp (mem_latestRows.mp hd).1).2
      have hesource := (mem_rowsOf.mp (mem_latestRows.mp he).1).2
      refine ⟨d, e, ?_, ?_, .inl (hesource.trans hdsource.symm), hstatus⟩
      · rwa [NewestDeclaration, hdsource]
      · rwa [NewestDeclaration, hesource]
    · rw [uniform_iff] at hnot
      push Not at hnot
      obtain ⟨d, hd, e, he, hstatus⟩ := hnot hsomething
      obtain ⟨hdnewest, hddate⟩ := newestDeclaration_of_comparable hd
      obtain ⟨henewest, hedate⟩ := newestDeclaration_of_comparable he
      exact ⟨d, e, hdnewest, henewest, .inr ⟨hddate, hedate⟩, hstatus⟩
  · rintro ⟨d, e, hd, he, hboth, hstatus⟩
    by_contra hagree
    push Not at hagree
    obtain ⟨hsources, huniform⟩ := hagree
    -- the latest declarations of one source agree
    have hsource : ∀ a b : HoldingCoverageDeclaration, NewestDeclaration values a →
        NewestDeclaration values b → b.metadata.dataset = a.metadata.dataset →
          b.status = a.status := by
      intro a b ha hb hsame
      have hrows := hsources _ (mem_latestByKey.mpr ⟨a, ha.mem, rfl⟩)
      rw [ne_eq, decide_eq_true_eq, not_not, uniform_iff] at hrows
      unfold NewestDeclaration at hb
      rw [hsame] at hb
      exact hrows.2 b hb a ha
    rcases hboth with hsame | ⟨hddate, hedate⟩
    · exact hstatus (hsource d e hd he hsame).symm
    · obtain ⟨c, hc, hcsource, hcnewest⟩ := exists_comparable order hd hddate
      obtain ⟨c', hc', hcsource', hcnewest'⟩ := exists_comparable order he hedate
      have hequal := (uniform_iff.mp huniform).2 c hc c' hc'
      exact hstatus (((hsource d c hd hcnewest hcsource).symm.trans hequal).trans
        (hsource e c' he hcnewest' hcsource'))

/-- Without a disagreement the declaration that counts is of the same status and date in every
order. -/
theorem selectedDeclaration_agree (h : values.Perm values') (hagree : ¬ Disagree values)
    (hd : selectedDeclaration order values = some d)
    (he : selectedDeclaration order' values' = some e) :
    e.status = d.status ∧ e.effectiveOn = d.effectiveOn := by
  obtain ⟨hdnewest, hddate⟩ := newestDeclaration_of_comparable (selectedDeclaration_mem hd)
  obtain ⟨henewest, hedate⟩ := newestDeclaration_of_comparable (selectedDeclaration_mem he)
  rw [newestDeclaration_perm h] at henewest
  rw [ofNewestDate_perm h] at hedate
  constructor
  · by_contra hne
    exact hagree ⟨e, d, henewest, hdnewest, .inr ⟨hedate, hddate⟩, hne⟩
  · exact le_antisymm ((mem_latestRows.mp hddate).2 e henewest.mem)
      ((mem_latestRows.mp hedate).2 d hdnewest.mem)

end Declarations

theorem foldl_coverCategory (order : SetOrder SourceDataset)
    (declarations : List HoldingCoverageDeclaration) (categories : List NonFloatCategory)
    (coverage : Coverage) :
    let selected category := selectedDeclaration order (q.declaredValues declarations category)
    categories.foldl (q.coverCategory order declarations) coverage =
      { missing := coverage.missing || categories.any fun category =>
          ((selected category).map fun d => decide (d.status = .incomplete)).getD true
        stale := coverage.stale || categories.any fun category =>
          ((selected category).map fun d => q.isStale d.effectiveOn).getD false
        conflict := coverage.conflict || categories.any fun category =>
          ((selected category).map fun _ =>
            declarationConflict order (q.declaredValues declarations category)).getD false
        selected := coverage.selected ++ categories.filterMap selected } := by
  intro selected
  induction categories generalizing coverage with
  | nil => simp
  | cons category categories ih =>
    rw [List.foldl_cons, ih]
    have hselected : selected category =
        selectedDeclaration order (q.declaredValues declarations category) := rfl
    unfold coverCategory
    dsimp only
    cases hcategory : selectedDeclaration order (q.declaredValues declarations category) with
    | none =>
      rw [List.filterMap_cons_none (hselected.trans hcategory)]
      simp [hselected, hcategory]
    | some d =>
      rw [List.filterMap_cons_some (hselected.trans hcategory)]
      simp [hselected, hcategory, Bool.or_assoc]

theorem declaredValues_perm (h : declarations.Perm declarations') (category : NonFloatCategory) :
    (q.declaredValues declarations category).Perm (q.declaredValues declarations' category) :=
  (h.filter _).filter _

theorem selectedDeclaration_perm_none (h : declarations.Perm declarations')
    (category : NonFloatCategory) :
    selectedDeclaration order' (q.declaredValues declarations' category) = none ↔
      selectedDeclaration order (q.declaredValues declarations category) = none := by
  rw [selectedDeclaration_eq_none, selectedDeclaration_eq_none, ← List.length_eq_zero_iff,
    ← List.length_eq_zero_iff, (declaredValues_perm h category).length_eq]

theorem coverage_conflict_perm (h : declarations.Perm declarations') :
    (q.coverageForCategories order' declarations').conflict =
      (q.coverageForCategories order declarations).conflict := by
  unfold coverageForCategories
  rw [foldl_coverCategory, foldl_coverCategory]
  dsimp only
  refine congrArg (false || ·) (any_congr_mem fun category _ => ?_)
  have hperm := declaredValues_perm (q := q) h category
  cases hnone : selectedDeclaration order (q.declaredValues declarations category) with
  | none =>
    rw [(selectedDeclaration_perm_none h category).mpr hnone]
    rfl
  | some d =>
    have hne : q.declaredValues declarations category ≠ [] := fun hnil => by
      rw [selectedDeclaration_eq_none.mpr hnil] at hnone
      cases hnone
    have hne' : q.declaredValues declarations' category ≠ [] := fun hnil => by
      rw [hnil] at hperm
      exact hne hperm.eq_nil
    have hsome : selectedDeclaration order' (q.declaredValues declarations' category) ≠ none :=
      fun he => by rw [(selectedDeclaration_perm_none h category).mp he] at hnone; cases hnone
    obtain ⟨e, he⟩ := Option.ne_none_iff_exists'.mp hsome
    rw [he, Option.map_some, Option.map_some, Option.getD_some, Option.getD_some, Bool.eq_iff_iff,
      declarationConflict_iff hne, declarationConflict_iff hne', disagree_perm hperm]

theorem coverage_perm (h : declarations.Perm declarations')
    (hconflict : (q.coverageForCategories order declarations).conflict = false) :
    (q.coverageForCategories order' declarations').missing =
        (q.coverageForCategories order declarations).missing ∧
      (q.coverageForCategories order' declarations').stale =
        (q.coverageForCategories order declarations).stale := by
  unfold coverageForCategories at hconflict ⊢
  rw [foldl_coverCategory] at hconflict
  rw [foldl_coverCategory, foldl_coverCategory]
  simp only [Bool.false_or] at hconflict ⊢
  have hall := List.any_eq_false.mp hconflict
  have hsame : ∀ category ∈ q.policy.requiredNonFloatCategories,
      (selectedDeclaration order' (q.declaredValues declarations' category)).map
          (fun d => (d.status, d.effectiveOn)) =
        (selectedDeclaration order (q.declaredValues declarations category)).map
          (fun d => (d.status, d.effectiveOn)) := by
    intro category hcategory
    have hquiet := hall category hcategory
    cases hd : selectedDeclaration order (q.declaredValues declarations category) with
    | none => rw [(selectedDeclaration_perm_none h category).mpr hd]
    | some d =>
      cases he : selectedDeclaration order' (q.declaredValues declarations' category) with
      | none =>
        rw [(selectedDeclaration_perm_none h category).mp he] at hd
        cases hd
      | some e =>
        have hne : q.declaredValues declarations category ≠ [] := fun hnil => by
          rw [selectedDeclaration_eq_none.mpr hnil] at hd
          cases hd
        have hagree : ¬ Disagree (q.declaredValues declarations category) := by
          rw [hd, Option.map_some, Option.getD_some, declarationConflict_iff hne] at hquiet
          exact hquiet
        obtain ⟨hstatus, hdate⟩ :=
          selectedDeclaration_agree (declaredValues_perm h category) hagree hd he
        rw [Option.map_some, Option.map_some, hstatus, hdate]
  have hfield : ∀ {β : Type} (f : CoverageDeclarationStatus × Date → β),
      ∀ category ∈ q.policy.requiredNonFloatCategories,
        (selectedDeclaration order' (q.declaredValues declarations' category)).map
            (fun d => f (d.status, d.effectiveOn)) =
          (selectedDeclaration order (q.declaredValues declarations category)).map
            (fun d => f (d.status, d.effectiveOn)) := by
    intro β f category hcategory
    have hmapped := congrArg (Option.map f) (hsame category hcategory)
    rwa [Option.map_map, Option.map_map] at hmapped
  constructor
  · refine any_congr_mem fun category hcategory => ?_
    rw [hfield (fun p => decide (p.1 = .incomplete)) category hcategory]
  · refine any_congr_mem fun category hcategory => ?_
    rw [hfield (fun p => q.isStale p.2) category hcategory]

theorem withoutLineage_perm (hobservations : observations.Perm observations')
    (hholdings : holdings.Perm holdings') (hdeclarations : declarations.Perm declarations') :
    (q.calculateFreeFloat order' observations' holdings' declarations').map
        FreeFloatResult.withoutLineage =
      (q.calculateFreeFloat order observations holdings declarations).map
        FreeFloatResult.withoutLineage := by
  obtain ⟨hvalue, hstate, hflags⟩ := resolveListedCommonShares_perm (q := q) hobservations
  have hcount : (q.selectHoldings order' holdings').duplicateCount =
      (q.selectHoldings order holdings).duplicateCount := (selectHoldings_perm hholdings).1
  have hholders : (q.selectHoldings order' holdings').conflict =
      (q.selectHoldings order holdings).conflict := (selectHoldings_perm hholdings).2.1
  have hsum : ((q.selectHoldings order' holdings').selected.map (·.shares)).sum =
      ((q.selectHoldings order holdings).selected.map (·.shares)).sum := by
    have hcounted : ((q.selectHoldings order' holdings').selected.map counted).Perm
        ((q.selectHoldings order holdings).selected.map counted) :=
      (selectHoldings_perm hholdings).2.2
    have hshares := (hcounted.map Prod.fst).sum_eq
    rwa [List.map_map, List.map_map] at hshares
  have hold : ((q.selectHoldings order' holdings').selected.any fun h => q.isStale h.effectiveOn) =
      (q.selectHoldings order holdings).selected.any fun h => q.isStale h.effectiveOn :=
    any_stale_selected_perm hholdings
  have hdeclared : (q.coverageForCategories order' declarations').conflict =
      (q.coverageForCategories order declarations).conflict := coverage_conflict_perm hdeclarations
  unfold calculateFreeFloat
  dsimp only
  rw [hvalue, hstate, hflags, hcount, hholders, hsum, hold, hdeclared]
  generalize (q.resolveListedCommonShares observations).value = value
  generalize (q.resolveListedCommonShares observations).state = state
  cases value with
  | none => cases state <;> rfl
  | some issued =>
    cases state with
    | verified =>
      dsimp only
      by_cases hconflict : ((q.coverageForCategories order declarations).conflict ||
          (q.selectHoldings order holdings).conflict) = true
      · rw [if_pos hconflict, if_pos hconflict]
        rfl
      · rw [if_neg hconflict, if_neg hconflict]
        have hquiet : (q.coverageForCategories order declarations).conflict = false := by
          rw [Bool.not_eq_true, Bool.or_eq_false_iff] at hconflict
          exact hconflict.1
        have hmissing : (q.coverageForCategories order' declarations').missing =
            (q.coverageForCategories order declarations).missing :=
          (coverage_perm hdeclarations hquiet).1
        have hstale : (q.coverageForCategories order' declarations').stale =
            (q.coverageForCategories order declarations).stale :=
          (coverage_perm hdeclarations hquiet).2
        rw [hmissing, hstale]
        split
        · rfl
        · split
          · rfl
          · split
            · rfl
            · generalize Decimal.div 60 _ _ = ratio
              cases ratio <;> rfl
    | _ => rfl

end FloatRequest

end Reference

end Dayjaview
