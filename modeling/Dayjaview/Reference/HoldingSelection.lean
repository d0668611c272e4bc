import Dayjaview.Reference.FreeFloat

/-!
# Which holdings are deducted

All holdings of a stock that are not from the newest disclosure are left out, whatever their
category. Of the others, the latest rows of each source are compared, and one row is deducted for
each holder and class of shares.
-/

namespace Dayjaview.Reference

namespace FloatRequest

variable {q : FloatRequest} {order : SetOrder SourceDataset} {group : List NonFloatHolding}

theorem considered_selectGroup (order : SetOrder SourceDataset) (group : List NonFloatHolding) :
    (selectGroup order group).considered = (latestHoldings order group).flatten := by
  unfold selectGroup
  dsimp only
  split
  · rfl
  · split
    · rfl
    · split <;> rfl

theorem selected_selectGroup (order : SetOrder SourceDataset) (group : List NonFloatHolding) :
    (selectGroup order group).selected = [] ∨
      ∃ h ∈ (latestHoldings order group).flatten, (selectGroup order group).selected = [h] := by
  unfold selectGroup
  dsimp only
  split
  · exact .inl rfl
  · split
    · exact .inl rfl
    · split
      · exact .inl rfl
      · next hne _ _ =>
        right
        dsimp only
        cases hordered : (((latestHoldings order group).filter fun rows =>
            decide (Uniform counted rows)).filterMap List.head?).insertionSort
              (fun a b => a.metadata.precedence ≤ b.metadata.precedence) with
        | nil =>
          exact absurd ((List.perm_insertionSort _ _).symm.trans (.of_eq hordered)).eq_nil hne
        | cons h rest =>
          refine ⟨h, ?_, rfl⟩
          have hmem : h ∈ ((latestHoldings order group).filter fun rows =>
              decide (Uniform counted rows)).filterMap List.head? := by
            rw [← List.mem_insertionSort (fun a b => a.metadata.precedence ≤ b.metadata.precedence),
              hordered]
            exact List.mem_cons_self
          obtain ⟨rows, hrows, hhead⟩ := List.mem_filterMap.mp hmem
          exact List.mem_flatten.mpr
            ⟨rows, (List.mem_filter.mp hrows).1, List.mem_of_head? hhead⟩

/-- What the latest rows of a source amount to, when they agree. -/
def sourceSummary (rows : List NonFloatHolding) : Option (ℕ × Int × NonFloatCategory) :=
  if Uniform counted rows then rows.head?.map fun h => (rows.length - 1, counted h) else none

/-- What the sources of a holder amount to: the duplicates, a conflict, and what is deducted. -/
def groupSummary (sources : List (Option (ℕ × Int × NonFloatCategory))) :
    ℕ × Bool × Option (Int × NonFloatCategory) :=
  let within := ((sources.filterMap id).map Prod.fst).sum
  let values := (sources.filterMap id).map Prod.snd
  if values = [] then (within, sources.any (·.isNone), none)
  else if ¬ Uniform Prod.fst values then (within, true, none)
  else if ¬ Uniform Prod.snd values then (within, true, none)
  else (within + (values.length - 1), sources.any (·.isNone), values.head?)

theorem filterMap_sourceSummary {sources : List (List NonFloatHolding)}
    (hne : ∀ rows ∈ sources, rows ≠ []) :
    (sources.filterMap sourceSummary).map Prod.fst =
        (sources.filter fun rows => decide (Uniform counted rows)).map
        (fun rows => rows.length - 1) ∧
      (sources.filterMap sourceSummary).map Prod.snd =
        ((sources.filter fun rows => decide (Uniform counted rows)).filterMap List.head?).map
          counted ∧
      ((sources.map sourceSummary).any fun s => s.isNone) =
        sources.any fun rows => decide (¬ Uniform counted rows) := by
  induction sources with
  | nil => exact ⟨rfl, rfl, rfl⟩
  | cons rows sources ih =>
    obtain ⟨hfst, hsnd, hany⟩ := ih fun r hr => hne r (List.mem_cons_of_mem _ hr)
    obtain ⟨h, rest, rfl⟩ := List.exists_cons_of_ne_nil (hne rows List.mem_cons_self)
    by_cases huniform : Uniform counted (h :: rest)
    · have hsummary : sourceSummary (h :: rest) = some ((h :: rest).length - 1, counted h) :=
        if_pos huniform
      have hkeep := List.filter_cons_of_pos (p := fun rows => decide (Uniform counted rows))
        (l := sources) (decide_eq_true huniform)
      rw [List.filterMap_cons_some hsummary, hkeep]
      refine ⟨by rw [List.map_cons, List.map_cons, hfst], ?_, ?_⟩
      · have hhead : List.head? (h :: rest) = some h := rfl
        rw [List.filterMap_cons_some hhead, List.map_cons, List.map_cons, hsnd]
      · simpa [hsummary, huniform] using hany
    · have hsummary : sourceSummary (h :: rest) = none := if_neg huniform
      have hdrop := List.filter_cons_of_neg (p := fun rows => decide (Uniform counted rows))
        (l := sources) (a := h :: rest) (by simpa using huniform)
      rw [List.filterMap_cons_none hsummary, hdrop]
      exact ⟨hfst, hsnd, by simp [hsummary, huniform]⟩

theorem summary_selectGroup (order : SetOrder SourceDataset) (group : List NonFloatHolding) :
    ((selectGroup order group).duplicateCount, (selectGroup order group).conflict,
        (selectGroup order group).selected.head?.map counted) =
      groupSummary ((latestHoldings order group).map sourceSummary) := by
  have hne : ∀ rows ∈ latestHoldings order group, rows ≠ [] := fun _ hrows =>
    ne_nil_of_mem_latestByKey hrows
  obtain ⟨hfst, hsnd, hany⟩ := filterMap_sourceSummary hne
  have hid : ((latestHoldings order group).map sourceSummary).filterMap id =
      (latestHoldings order group).filterMap sourceSummary := by
    rw [List.filterMap_map]
    rfl
  unfold selectGroup groupSummary
  dsimp only
  rw [hid, hfst, hsnd, hany]
  generalize (latestHoldings order group).filter (fun rows => decide (Uniform counted rows)) =
    settled
  have huniform : ∀ {κ : Type} [DecidableEq κ] (f : Int × NonFloatCategory → κ),
      Uniform f ((settled.filterMap List.head?).map counted) ↔
        Uniform (fun h => f (counted h)) (settled.filterMap List.head?) := by
    intro κ _ f
    unfold Uniform
    rw [List.map_map]
    rfl
  have hshares := huniform Prod.fst
  have hcategory := huniform Prod.snd
  simp only [hshares, hcategory, List.map_eq_nil_iff, List.length_map]
  generalize settled.filterMap List.head? = firsts
  change _ = (if firsts = [] then _ else if ¬ Uniform (fun h => h.shares) firsts then _
    else if ¬ Uniform (fun h => h.category) firsts then _ else _)
  by_cases hnil : firsts = []
  · rw [if_pos hnil, if_pos hnil]
    rfl
  rw [if_neg hnil, if_neg hnil]
  by_cases hs : Uniform (fun h => h.shares) firsts
  · rw [if_neg (not_not.mpr hs), if_neg (not_not.mpr hs)]
    by_cases hc : Uniform (fun h => h.category) firsts
    · rw [if_neg (not_not.mpr hc), if_neg (not_not.mpr hc)]
      obtain ⟨first, rest, rfl⟩ := List.exists_cons_of_ne_nil hnil
      have hperm := List.perm_insertionSort (fun a b : NonFloatHolding =>
        a.metadata.precedence ≤ b.metadata.precedence) (first :: rest)
      cases hordered : (first :: rest).insertionSort
          (fun a b => a.metadata.precedence ≤ b.metadata.precedence) with
      | nil =>
        rw [hordered] at hperm
        exact absurd (List.nil_perm.mp hperm) (List.cons_ne_nil _ _)
      | cons g others =>
        rw [hordered] at hperm
        have hg : g ∈ first :: rest := hperm.mem_iff.mp List.mem_cons_self
        have hcounted : counted g = counted first :=
          Prod.ext ((uniform_iff.mp hs).2 g hg first List.mem_cons_self)
            ((uniform_iff.mp hc).2 g hg first List.mem_cons_self)
        have hlength := hperm.length_eq
        simp only [List.head?_cons, Option.toList_some, Option.map_some, List.map_cons, hcounted,
          hlength]
    · rw [if_pos hc, if_pos hc]
      rfl
  · rw [if_pos hs, if_pos hs]
    rfl

theorem groupSummary_perm {as bs : List (Option (ℕ × Int × NonFloatCategory))} (h : as.Perm bs) :
    groupSummary as = groupSummary bs := by
  have hsettled := h.filterMap id
  have hwithin := (hsettled.map Prod.fst).sum_eq
  have hvalues := hsettled.map Prod.snd
  have hany : as.any (·.isNone) = bs.any (·.isNone) := by
    rw [Bool.eq_iff_iff]
    simp only [List.any_eq_true, h.mem_iff]
  have hnil : (as.filterMap id).map Prod.snd = [] ↔ (bs.filterMap id).map Prod.snd = [] := by
    constructor
    · intro hnil
      exact (hnil ▸ hvalues).nil_eq.symm
    · intro hnil
      exact (hnil ▸ hvalues).eq_nil
  have huniform : ∀ {κ : Type} [DecidableEq κ] (f : Int × NonFloatCategory → κ),
      Uniform f ((as.filterMap id).map Prod.snd) ↔ Uniform f ((bs.filterMap id).map Prod.snd) :=
    fun f => uniform_congr fun _ => hvalues.mem_iff
  unfold groupSummary
  dsimp only
  rw [hwithin, hany, hvalues.length_eq]
  simp only [hnil, huniform]
  by_cases hbs : (bs.filterMap id).map Prod.snd = []
  · rw [if_pos hbs, if_pos hbs]
  rw [if_neg hbs, if_neg hbs]
  by_cases hs : Uniform Prod.fst ((bs.filterMap id).map Prod.snd)
  · rw [if_neg (not_not.mpr hs), if_neg (not_not.mpr hs)]
    by_cases hc : Uniform Prod.snd ((bs.filterMap id).map Prod.snd)
    · rw [if_neg (not_not.mpr hc), if_neg (not_not.mpr hc)]
      obtain ⟨b, rest, hb⟩ := List.exists_cons_of_ne_nil hbs
      obtain ⟨a, rest', ha⟩ := List.exists_cons_of_ne_nil (mt hnil.mp hbs)
      have hamem : a ∈ (bs.filterMap id).map Prod.snd := by
        rw [← hvalues.mem_iff, ha]
        exact List.mem_cons_self
      have hbmem : b ∈ (bs.filterMap id).map Prod.snd := by
        rw [hb]
        exact List.mem_cons_self
      have heq : a = b := Prod.ext ((uniform_iff.mp hs).2 a hamem b hbmem)
        ((uniform_iff.mp hc).2 a hamem b hbmem)
      rw [ha, hb, heq]
      rfl
    · rw [if_pos hc, if_pos hc]
  · rw [if_pos hs, if_pos hs]

theorem groupSummary_settled {sources : List (Option (ℕ × Int × NonFloatCategory))}
    (hne : sources ≠ []) (h : (groupSummary sources).2.1 = false) :
    ∃ c, (groupSummary sources).2.2 = some c ∧ ∀ s ∈ sources, ∃ n, s = some (n, c) := by
  have hmem : ∀ n c, some (n, c) ∈ sources → c ∈ (sources.filterMap id).map Prod.snd := by
    intro n c hs
    exact List.mem_map.mpr ⟨(n, c), List.mem_filterMap.mpr ⟨_, hs, rfl⟩, rfl⟩
  have hall : sources.any (·.isNone) = false → ∀ s ∈ sources, ∃ n c, s = some (n, c) := by
    intro hany s hs
    have hsome := List.any_eq_false.mp hany s hs
    obtain ⟨⟨n, c⟩, rfl⟩ := Option.ne_none_iff_exists'.mp (by simpa using hsome)
    exact ⟨n, c, rfl⟩
  unfold groupSummary at h ⊢
  dsimp only at h ⊢
  split at h
  · next hnil =>
    obtain ⟨s, hs⟩ := List.exists_mem_of_ne_nil _ hne
    obtain ⟨n, c, rfl⟩ := hall h s hs
    have hvalue := hmem n c hs
    rw [hnil] at hvalue
    cases hvalue
  · next hvalues =>
    rw [if_neg hvalues]
    split at h
    · cases h
    · next hshares =>
      rw [if_neg hshares]
      split at h
      · cases h
      · next hcategory =>
        rw [if_neg hcategory]
        obtain ⟨c, rest, hc⟩ := List.exists_cons_of_ne_nil hvalues
        have hcmem : c ∈ (sources.filterMap id).map Prod.snd := by
          rw [hc]
          exact List.mem_cons_self
        refine ⟨c, by rw [hc]; rfl, fun s hs => ?_⟩
        obtain ⟨n, c', rfl⟩ := hall h s hs
        have hsame : c' = c := Prod.ext
          ((uniform_iff.mp (not_not.mp hshares)).2 c' (hmem n c' hs) c hcmem)
          ((uniform_iff.mp (not_not.mp hcategory)).2 c' (hmem n c' hs) c hcmem)
        exact ⟨n, by rw [hsame]⟩

/-- When the sources of a holder agree, one row is deducted, and all rows that were compared have
its number of shares and its category. -/
theorem agree_of_selectGroup (hne : group ≠ []) (h : (selectGroup order group).conflict = false) :
    ∃ g ∈ (latestHoldings order group).flatten, (selectGroup order group).selected = [g] ∧
      ∀ h ∈ (latestHoldings order group).flatten, counted h = counted g := by
  have hsummary := summary_selectGroup order group
  have hsources : (latestHoldings order group).map sourceSummary ≠ [] := by
    rw [ne_eq, List.map_eq_nil_iff]
    exact mt latestByKey_eq_nil.mp hne
  obtain ⟨c, hc, hall⟩ := groupSummary_settled hsources (by rw [← hsummary]; exact h)
  rw [← hsummary] at hc
  obtain hnone | ⟨g, hg, hselected⟩ := selected_selectGroup order group
  · rw [hnone] at hc
    cases hc
  · refine ⟨g, hg, hselected, fun k hk => ?_⟩
    rw [hselected] at hc
    have hcounted : counted g = c := Option.some.inj hc
    obtain ⟨rows, hrows, hkrows⟩ := List.mem_flatten.mp hk
    obtain ⟨n, hn⟩ := hall _ (List.mem_map_of_mem hrows)
    unfold sourceSummary at hn
    split at hn
    · next huniform =>
      obtain ⟨first, hfirst, heq⟩ := Option.map_eq_some_iff.mp hn
      have hvalue : counted first = c := congrArg Prod.snd heq
      rw [hcounted, ← hvalue]
      exact (uniform_iff.mp huniform).2 k hkrows first (List.mem_of_head? hfirst)
    · cases hn

section
variable {α β κ : Type} {as : List α} {key : α → κ}

theorem flatMap_sublist_map {f : α → List β} {g : α → β} (h : ∀ a ∈ as, (f a).Sublist [g a]) :
    (as.flatMap f).Sublist (as.map g) := by
  induction as with
  | nil => exact List.Sublist.refl _
  | cons a as ih =>
    rw [List.flatMap_cons, List.map_cons, ← List.singleton_append]
    exact (h a List.mem_cons_self).append (ih fun b hb => h b (List.mem_cons_of_mem _ hb))

theorem filter_key_eq_singleton [DecidableEq κ] (hnodup : (as.map key).Nodup) {a : α}
    (ha : a ∈ as) : as.filter (fun b => decide (key b = key a)) = [a] := by
  induction as with
  | nil => cases ha
  | cons b as ih =>
    rw [List.map_cons, List.nodup_cons] at hnodup
    rcases List.mem_cons.mp ha with rfl | ha
    · rw [List.filter_cons_of_pos (by simp), List.filter_eq_nil_iff.mpr]
      intro c hc heq
      exact hnodup.1 (List.mem_map.mpr ⟨c, hc, of_decide_eq_true heq⟩)
    · rw [List.filter_cons_of_neg, ih hnodup.2 ha]
      intro heq
      exact hnodup.1 (List.mem_map.mpr ⟨a, ha, (of_decide_eq_true heq).symm⟩)

end

variable {holdings : List NonFloatHolding} {h : NonFloatHolding}

theorem mem_holders :
    group ∈ (grouped NonFloatHolding.economicKey (q.disclosedHoldings holdings)).values ↔
      ∃ h ∈ q.disclosedHoldings holdings,
        group = rowsOf NonFloatHolding.economicKey (q.disclosedHoldings holdings)
        h.economicKey := by
  rw [Dict.mem_values_iff]
  constructor
  · rintro ⟨k, hk⟩
    rw [get?_grouped] at hk
    split at hk
    · next hmem =>
      obtain ⟨h, hh, rfl⟩ := List.mem_map.mp hmem
      exact ⟨h, hh, (Option.some.inj hk).symm⟩
    · cases hk
  · rintro ⟨h, hh, rfl⟩
    refine ⟨h.economicKey, ?_⟩
    rw [get?_grouped, if_pos (List.mem_map_of_mem hh)]
    rfl

/-- A row is one of the latest of its source at the newest disclosure of the stock. -/
def NewestRow (q : FloatRequest) (holdings : List NonFloatHolding) (h : NonFloatHolding) : Prop :=
  h ∈ latestRows (fun r => r.metadata.rank) (rowsOf (fun r => r.metadata.dataset)
    (rowsOf NonFloatHolding.economicKey (q.disclosedHoldings holdings) h.economicKey)
    h.metadata.dataset)

theorem mem_considered :
    h ∈ (q.selectHoldings order holdings).considered ↔ q.NewestRow holdings h := by
  unfold selectHoldings NewestRow
  simp only [List.mem_flatMap, List.mem_map]
  constructor
  · rintro ⟨_, ⟨group, hgroup, rfl⟩, hh⟩
    obtain ⟨first, hfirst, rfl⟩ := mem_holders.mp hgroup
    rw [considered_selectGroup, latestHoldings, mem_flatten_latestByKey] at hh
    have hkey : h.economicKey = first.economicKey :=
      (mem_rowsOf.mp (mem_rowsOf.mp (mem_latestRows.mp hh).1).1).2
    rwa [hkey]
  · intro hh
    have hrow := (mem_rowsOf.mp (mem_rowsOf.mp (mem_latestRows.mp hh).1).1).1
    refine ⟨_, ⟨_, mem_holders.mpr ⟨h, hrow, rfl⟩, rfl⟩, ?_⟩
    rw [considered_selectGroup, latestHoldings, mem_flatten_latestByKey]
    exact hh

theorem newestRow_of_selected (hh : h ∈ (q.selectHoldings order holdings).selected) :
    q.NewestRow holdings h := by
  suffices hmem : h ∈ (q.selectHoldings order holdings).considered from mem_considered.mp hmem
  unfold selectHoldings at hh ⊢
  simp only [List.mem_insertionSort, List.mem_flatMap] at hh ⊢
  obtain ⟨s, hs, hh⟩ := hh
  refine ⟨s, hs, ?_⟩
  obtain ⟨group, -, rfl⟩ := List.mem_map.mp hs
  rw [considered_selectGroup]
  obtain hnone | ⟨g, hg, hselected⟩ := selected_selectGroup order group
  · rw [hnone] at hh
    cases hh
  · rw [hselected, List.mem_singleton] at hh
    rwa [hh]

theorem nodup_selected (order : SetOrder SourceDataset) (holdings : List NonFloatHolding) :
    ((q.selectHoldings order holdings).selected.map NonFloatHolding.economicKey).Nodup := by
  have hperm : (q.selectHoldings order holdings).selected.Perm
      ((grouped NonFloatHolding.economicKey (q.disclosedHoldings holdings)).entries.flatMap
        fun e => (selectGroup order e.2).selected) := by
    refine (List.perm_insertionSort _ _).trans (List.Perm.of_eq ?_)
    rw [Dict.values, List.map_map, List.flatMap_map]
    rfl
  rw [(hperm.map _).nodup_iff, List.map_flatMap]
  have hkeys := (grouped NonFloatHolding.economicKey (q.disclosedHoldings holdings)).keys_nodup
  refine hkeys.sublist (flatMap_sublist_map (g := Prod.fst) fun e he => ?_)
  obtain ⟨k, group⟩ := e
  obtain ⟨-, rfl⟩ := (mem_grouped _).mp he
  obtain hnone | ⟨g, hg, hselected⟩ := selected_selectGroup order
    ((q.disclosedHoldings holdings).filter fun h => h.economicKey = k)
  · rw [hnone]
    exact List.nil_sublist _
  · rw [hselected]
    have hkey : g.economicKey = k := by
      rw [latestHoldings, mem_flatten_latestByKey] at hg
      exact (mem_rowsOf.mp (mem_rowsOf.mp (mem_latestRows.mp hg).1).1).2
    rw [List.map_singleton, hkey]

/-- Without a conflict, each of the rows that are compared is deducted, by itself or by one with
the same number of shares. -/
theorem exists_selected (hconflict : (q.selectHoldings order holdings).conflict = false)
    (hh : q.NewestRow holdings h) :
    ∃ g ∈ (q.selectHoldings order holdings).selected,
      g.economicKey = h.economicKey ∧ counted g = counted h := by
  have hrow := (mem_rowsOf.mp (mem_rowsOf.mp (mem_latestRows.mp hh).1).1).1
  have hgroup := mem_holders.mpr ⟨h, hrow, rfl⟩
  have hsettled : (selectGroup order (rowsOf NonFloatHolding.economicKey
      (q.disclosedHoldings holdings) h.economicKey)).conflict = false := by
    have hany : ((grouped NonFloatHolding.economicKey (q.disclosedHoldings holdings)).values.map
        (selectGroup order)).any (fun s => s.conflict) = false := hconflict
    simpa using List.any_eq_false.mp hany _ (List.mem_map_of_mem hgroup)
  obtain ⟨g, hg, hselected, hall⟩ := agree_of_selectGroup
    (List.ne_nil_of_mem (mem_rowsOf.mpr ⟨hrow, rfl⟩)) hsettled
  refine ⟨g, ?_, ?_, (hall h ?_).symm⟩
  · unfold selectHoldings
    simp only [List.mem_insertionSort, List.mem_flatMap]
    exact ⟨_, List.mem_map_of_mem hgroup, by rw [hselected]; exact List.mem_singleton_self g⟩
  · rw [latestHoldings, mem_flatten_latestByKey] at hg
    exact (mem_rowsOf.mp (mem_rowsOf.mp (mem_latestRows.mp hg).1).1).2
  · rw [latestHoldings, mem_flatten_latestByKey]
    exact hh

end FloatRequest

end Dayjaview.Reference
