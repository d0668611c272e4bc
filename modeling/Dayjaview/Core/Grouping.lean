import Dayjaview.Core.Dict
import Dayjaview.Core.Ranking
import Mathlib.Algebra.BigOperators.Group.Finset.Basic
import Mathlib.Algebra.BigOperators.Group.List.Basic
import Mathlib.Algebra.GroupWithZero.Nat

/-!
# Tallies and buckets

A tally adds up weights by key, a bucket keeps the first few items of each key. The
total of a tally is the sum of the weights, and a bucket is empty only if no item with
its key had anything to put into it. Of items with one key the first is kept.
-/

namespace Dayjaview

section

universe u v

variable {κ : Type u} {α : Type v} [DecidableEq κ]

/-- One weight more under a key. -/
def addWeight (tally : Dict κ Nat) (key : κ) (weight : Nat) : Dict κ Nat :=
  tally.set key ((tally.get? key).getD 0 + weight)

/-- The weights added up by key. -/
def tallyOf (entries : List (κ × Nat)) : Dict κ Nat :=
  entries.foldl (fun tally e => addWeight tally e.1 e.2) .empty

/-- The values of a list of keys that occur with some items. -/
def totalOf (tally : Dict κ Nat) : Nat := tally.values.sum

/-- Some items more for the bucket of a key, unless it has enough. -/
def addItems (enough : Nat) (buckets : Dict κ (List α)) (key : κ) (items : List α) :
    Dict κ (List α) :=
  let bucket := (buckets.get? key).getD []
  buckets.set key (if bucket.length < enough then bucket ++ items else bucket)

def bucketsOf (enough : Nat) (entries : List (κ × List α)) : Dict κ (List α) :=
  entries.foldl (fun buckets e => addItems enough buckets e.1 e.2) .empty

theorem Dict.sum_values_set {d : Dict κ Nat} {k : κ} {n : Nat} (h : d.get? k = some n) (m : Nat) :
    (d.set k m).values.sum + n = d.values.sum + m := by
  obtain ⟨before, after, hold, hnew⟩ := d.exists_entries_set m h
  rw [Dict.values, Dict.values, hold, hnew]
  simp only [List.map_append, List.map_cons, List.sum_append, List.sum_cons]
  omega

theorem totalOf_addWeight (tally : Dict κ Nat) (key : κ) (weight : Nat) :
    totalOf (addWeight tally key weight) = totalOf tally + weight := by
  unfold totalOf addWeight
  cases hget : tally.get? key with
  | none =>
    rw [Dict.values_set_of_get?_eq_none _ _ hget]
    simp
  | some n =>
    have hsum := Dict.sum_values_set hget (n + weight)
    rw [Option.getD_some]
    omega

/-- A tally counts everything once. -/
theorem totalOf_tallyOf (entries : List (κ × Nat)) :
    totalOf (tallyOf entries) = (entries.map Prod.snd).sum := by
  induction entries using List.reverseRecOn with
  | nil => rfl
  | append_singleton entries e ih =>
    rw [tallyOf, List.foldl_append, List.foldl_cons, List.foldl_nil, ← tallyOf,
      totalOf_addWeight, ih, List.map_append, List.sum_append]
    simp

theorem get?_tallyOf_isSome {entries : List (κ × Nat)} {key : κ} :
    ((tallyOf entries).get? key).isSome = true ↔ key ∈ entries.map Prod.fst := by
  induction entries using List.reverseRecOn with
  | nil => simp [tallyOf]
  | append_singleton entries e ih =>
    rw [tallyOf, List.foldl_append, List.foldl_cons, List.foldl_nil, ← tallyOf, addWeight,
      Dict.get?_set]
    by_cases hkey : key = e.1
    · simp [hkey]
    · simp [hkey, ih]

/-- A tally has the keys that were counted. -/
theorem mem_keys_tallyOf {entries : List (κ × Nat)} {key : κ} :
    key ∈ (tallyOf entries).keys ↔ key ∈ entries.map Prod.fst := by
  rw [Dict.mem_keys_iff, get?_tallyOf_isSome]

theorem Dict.length_entries {d : Dict κ α} {keys : List κ} (h : ∀ key, key ∈ d.keys ↔ key ∈ keys) :
    d.entries.length = keys.dedup.length := by
  have hperm : d.keys.Perm keys.dedup := by
    rw [List.perm_ext_iff_of_nodup d.keys_nodup (List.nodup_dedup _)]
    intro key
    rw [h, List.mem_dedup]
  rw [← hperm.length_eq, Dict.keys, List.length_map]

theorem length_entries_tallyOf (entries : List (κ × Nat)) :
    (tallyOf entries).entries.length = (entries.map Prod.fst).dedup.length :=
  Dict.length_entries fun _ => mem_keys_tallyOf

theorem pos_of_get?_tallyOf {entries : List (κ × Nat)} (hpos : ∀ e ∈ entries, 0 < e.2) {key : κ}
    {n : Nat} (hget : (tallyOf entries).get? key = some n) : 0 < n := by
  induction entries using List.reverseRecOn with
  | nil => simp [tallyOf] at hget
  | append_singleton entries e ih =>
    rw [tallyOf, List.foldl_append, List.foldl_cons, List.foldl_nil, ← tallyOf, addWeight,
      Dict.get?_set] at hget
    split at hget
    · have hweight : 0 < e.2 := hpos e (by simp)
      cases hget
      omega
    · exact ih (fun e he => hpos e (List.mem_append_left _ he)) hget

section
variable {β : Type*} (key : β → κ)

theorem get?_foldl_first (items : List β) (k : κ) :
    (items.foldl (fun found b => if (found.get? (key b)).isSome then found else found.set (key b) b)
      (Dict.empty : Dict κ β)).get? k = items.find? fun b => key b = k := by
  induction items using List.reverseRecOn with
  | nil => rfl
  | append_singleton items b ih =>
    rw [List.foldl_append, List.foldl_cons, List.foldl_nil, List.find?_append, ← ih]
    generalize items.foldl _ Dict.empty = found at ih ⊢
    by_cases hk : key b = k
    · subst hk
      cases hfound : found.get? (key b) with
      | none => simp
      | some first => simp [hfound]
    · split
      · simp [hk]
      · rw [Dict.get?_set_of_ne _ _ fun h => hk h.symm]
        simp [hk]

theorem mem_keys_foldl_first (items : List β) {k : κ} :
    k ∈
      (items.foldl
        (fun found b => if (found.get? (key b)).isSome then found else found.set (key b) b)
      (Dict.empty : Dict κ β)).keys ↔ k ∈ items.map key := by
  rw [Dict.mem_keys_iff, get?_foldl_first, List.find?_isSome]
  simp

theorem mem_keys_foldl_set (value : Dict κ α → β → α) (items : List β) {k : κ} :
    k ∈ (items.foldl (fun grouped b => grouped.set (key b) (value grouped b))
      (Dict.empty : Dict κ α)).keys ↔ k ∈ items.map key := by
  induction items using List.reverseRecOn with
  | nil => simp
  | append_singleton items b ih =>
    rw [List.foldl_append, List.foldl_cons, List.foldl_nil, Dict.mem_keys_iff, Dict.get?_set,
      List.map_append, List.mem_append, ← ih, Dict.mem_keys_iff]
    by_cases hk : k = key b
    · simp [hk]
    · simp [hk]

end

theorem bucketsOf_ne_nil {enough : Nat} (henough : 0 < enough) {entries : List (κ × List α)}
    {key : κ} :
    ((bucketsOf enough entries).get? key).getD [] ≠ [] ↔ ∃ e ∈ entries, e.1 = key ∧ e.2 ≠ [] := by
  induction entries using List.reverseRecOn with
  | nil => simp [bucketsOf]
  | append_singleton entries e ih =>
    rw [bucketsOf, List.foldl_append, List.foldl_cons, List.foldl_nil, ← bucketsOf, addItems,
      Dict.get?_set]
    simp only [List.mem_append, List.mem_singleton, or_and_right, exists_or, exists_eq_left, ← ih]
    by_cases hkey : key = e.1
    · subst hkey
      simp only [if_true, Option.getD_some, true_and]
      by_cases hempty : ((bucketsOf enough entries).get? e.1).getD [] = []
      · simp [hempty, henough]
      · simp only [hempty, ne_eq, not_false_eq_true, true_or, iff_true]
        split
        · simp [hempty]
        · exact hempty
    · have hother : e.1 ≠ key := fun h => hkey h.symm
      simp [hkey, hother]

end

universe u v

theorem filter_notMem_take {α : Type u} [DecidableEq α] {xs ys : List α} (h : (xs ++ ys).Nodup)
    (k : Nat) : xs.filter (fun x => decide (x ∉ (xs ++ ys).take k)) = xs.drop k := by
  have hxs := (List.nodup_append.mp h).1
  have hys := List.disjoint_of_nodup_append h
  have hparts : (xs.take k ++ xs.drop k).Nodup := by rwa [List.take_append_drop]
  have hdisjoint := List.disjoint_of_nodup_append hparts
  conv_lhs => rw [← List.take_append_drop k xs]
  rw [List.filter_append, List.take_append_drop, List.take_append]
  have htake : (xs.take k).filter
      (fun x => decide (x ∉ xs.take k ++ ys.take (k - xs.length))) = [] := by
    rw [List.filter_eq_nil_iff]
    intro x hx
    simp [hx]
  have hdrop : (xs.drop k).filter
      (fun x => decide (x ∉ xs.take k ++ ys.take (k - xs.length))) = xs.drop k := by
    rw [List.filter_eq_self]
    intro x hx
    have hfirst : x ∉ xs.take k := fun h => hdisjoint h hx
    have hsecond : x ∉ ys.take (k - xs.length) := fun h =>
      hys (List.mem_of_mem_drop hx) (List.mem_of_mem_take h)
    simp [hfirst, hsecond]
  rw [htake, hdrop, List.nil_append]

theorem dedup_eq_singleton {α : Type u} [DecidableEq α] {l : List α} {x : α} :
    l.dedup = [x] ↔ l ≠ [] ∧ ∀ a ∈ l, a = x := by
  constructor
  · intro h
    have hmem : ∀ a, a ∈ l ↔ a = x := fun a => by rw [← List.mem_dedup, h, List.mem_singleton]
    exact ⟨by rintro rfl; simp at h, fun a ha => (hmem a).mp ha⟩
  · rintro ⟨hne, hall⟩
    have hreplicate : l = List.replicate l.length x := List.eq_replicate_iff.mpr ⟨rfl, hall⟩
    rw [hreplicate, List.replicate_dedup]
    simpa using hne

theorem map_getD_filter_isSome {α : Type u} {β : Type v} (f : α → Option β) (x : β) (as : List α) :
    (as.filter fun a => (f a).isSome).map (fun a => (f a).getD x) = as.filterMap f := by
  induction as with
  | nil => rfl
  | cons a as ih =>
    cases ha : f a with
    | none => simpa [ha] using ih
    | some b => simpa [ha] using ih

theorem eq_of_flatMap_eq {α : Type u} {β : Type v} {f g : α → List β} {as : List α}
    (hlength : ∀ a ∈ as, (f a).length = (g a).length) (h : as.flatMap f = as.flatMap g) :
    ∀ a ∈ as, f a = g a := by
  induction as with
  | nil => simp
  | cons a as ih =>
    rw [List.flatMap_cons, List.flatMap_cons] at h
    obtain ⟨hhead, htail⟩ := List.append_inj h (hlength a List.mem_cons_self)
    intro b hb
    rcases List.mem_cons.mp hb with rfl | hb
    · exact hhead
    · exact ih (fun c hc => hlength c (List.mem_cons_of_mem _ hc)) htail b hb

section
variable {κ : Type u} {α : Type v} [DecidableEq κ] (key : α → κ)

/-- One more item for the group of its key. -/
def addToGroup (groups : Dict κ (List α)) (a : α) : Dict κ (List α) :=
  groups.set (key a) ((groups.get? (key a)).getD [] ++ [a])

def grouped (as : List α) : Dict κ (List α) := as.foldl (addToGroup key) .empty

theorem grouped_append_singleton (as : List α) (a : α) :
    grouped key (as ++ [a]) = addToGroup key (grouped key as) a := by
  rw [grouped, List.foldl_append]
  rfl

/-- A group has the elements of its key, in their order. -/
theorem get?_grouped (as : List α) (k : κ) :
    (grouped key as).get? k =
      if k ∈ as.map key then some (as.filter fun a => key a = k) else none := by
  induction as using List.reverseRecOn with
  | nil => rfl
  | append_singleton as a ih =>
    rw [grouped_append_singleton, addToGroup, Dict.get?_set, ih]
    by_cases hk : k = key a
    · subst hk
      rw [if_pos rfl, if_pos (by simp), List.filter_append]
      by_cases hmem : key a ∈ as.map key
      · rw [ih, if_pos hmem]
        simp
      · have hnone : as.filter (fun b => key b = key a) = [] := by
          rw [List.filter_eq_nil_iff]
          intro b hb hkey
          exact hmem (List.mem_map.mpr ⟨b, hb, of_decide_eq_true hkey⟩)
        rw [ih, if_neg hmem, hnone]
        simp
    · have hmem : k ∈ (as ++ [a]).map key ↔ k ∈ as.map key := by simp [hk]
      rw [if_neg hk, List.filter_append]
      by_cases hin : k ∈ as.map key
      · rw [if_pos hin, if_pos (hmem.mpr hin)]
        simp [Ne.symm hk]
      · rw [if_neg hin, if_neg fun h => hin (hmem.mp h)]

theorem mem_keys_grouped {as : List α} {k : κ} : k ∈ (grouped key as).keys ↔ k ∈ as.map key := by
  rw [Dict.mem_keys_iff, get?_grouped]
  by_cases hk : k ∈ as.map key <;> simp [hk]

/-- The groups are the elements of one key each. -/
theorem mem_grouped {as : List α} {k : κ} {group : List α} :
    (k, group) ∈ (grouped key as).entries ↔
      k ∈ as.map key ∧ group = as.filter fun a => key a = k := by
  rw [Dict.mem_entries_iff, get?_grouped]
  by_cases hk : k ∈ as.map key
  · simp [hk, eq_comm]
  · simp [hk]

theorem map_values_grouped_perm {β : Type*} {f : List α → β} {as bs : List α}
    (hf : ∀ xs ys : List α, xs.Perm ys → f xs = f ys) (h : as.Perm bs) :
    ((grouped key as).values.map f).Perm ((grouped key bs).values.map f) := by
  have hvalues : ∀ cs : List α, (grouped key cs).values =
      (grouped key cs).keys.map fun k => cs.filter fun a => key a = k := by
    intro cs
    rw [Dict.values, Dict.keys, List.map_map]
    exact List.map_congr_left fun e he => ((mem_grouped key).mp he).2
  have hkeys : (grouped key as).keys.Perm (grouped key bs).keys := by
    refine (List.perm_ext_iff_of_nodup (Dict.keys_nodup _) (Dict.keys_nodup _)).mpr fun k => ?_
    rw [mem_keys_grouped, mem_keys_grouped, (h.map key).mem_iff]
  rw [hvalues, hvalues, List.map_map, List.map_map]
  exact (hkeys.map _).trans (List.Perm.of_eq (List.map_congr_left fun k _ => hf _ _ (h.filter _)))

theorem length_grouped (as : List α) :
    (grouped key as).entries.length = (as.map key).dedup.length :=
  Dict.length_entries fun _ => mem_keys_grouped key

/-- The groups in increasing order of their keys. -/
def sortedGroups [LinearOrder κ] (as : List α) : List (κ × List α) := (grouped key as).sortedEntries

/-- The sorted groups are the elements of one key each. -/
theorem mem_sortedGroups [LinearOrder κ] {as : List α} {k : κ} {group : List α} :
    (k, group) ∈ sortedGroups key as ↔ k ∈ as.map key ∧ group = as.filter fun a => key a = k := by
  rw [sortedGroups, (Dict.sortedEntries_perm _).mem_iff, ← mem_grouped]

theorem nodup_sortedGroups [LinearOrder κ] (as : List α) :
    ((sortedGroups key as).map Prod.fst).Nodup :=
  Dict.sortedEntries_nodup _

theorem length_sortedGroups [LinearOrder κ] (as : List α) :
    (sortedGroups key as).length = (as.map key).dedup.length := by
  rw [sortedGroups, (Dict.sortedEntries_perm _).length_eq, length_grouped]

end

section
variable {α : Type u} {R : α → α → Prop}

/-- The pairs of two items in their order. -/
def pairsOf : List α → List (α × α)
  | [] => []
  | a :: as => as.map (a, ·) ++ pairsOf as

theorem rel_of_mem_pairsOf {as : List α} (h : as.Pairwise R) {a b : α}
    (hmem : (a, b) ∈ pairsOf as) : a ∈ as ∧ b ∈ as ∧ R a b := by
  induction h with
  | nil => cases hmem
  | cons hhead _ ih =>
    rcases List.mem_append.mp hmem with hmem | hmem
    · obtain ⟨c, hc, heq⟩ := List.mem_map.mp hmem
      cases heq
      exact ⟨List.mem_cons_self .., List.mem_cons_of_mem _ hc, hhead _ hc⟩
    · obtain ⟨ha, hb, hrel⟩ := ih hmem
      exact ⟨List.mem_cons_of_mem _ ha, List.mem_cons_of_mem _ hb, hrel⟩

def neighbours (as : List α) : List (α × α) := as.zip as.tail

theorem rel_of_mem_neighbours {as : List α} (h : as.Pairwise R) {a b : α}
    (hmem : (a, b) ∈ neighbours as) : a ∈ as ∧ b ∈ as ∧ R a b := by
  induction h with
  | nil => cases hmem
  | @cons c as hhead htail ih =>
    cases as with
    | nil => cases hmem
    | cons d as =>
      rcases List.mem_cons.mp hmem with heq | hmem
      · cases heq
        exact ⟨by simp, by simp, hhead _ (List.mem_cons_self ..)⟩
      · obtain ⟨ha, hb, hrel⟩ := ih hmem
        exact ⟨List.mem_cons_of_mem _ ha, List.mem_cons_of_mem _ hb, hrel⟩

end

section
variable {α : Type u} {ρ : Type v} [LinearOrder ρ] {rank : α → ρ} {as bs : List α}

/-- The ranks tell the items of a list apart. -/
def RanksApart (rank : α → ρ) (as : List α) : Prop := ∀ a ∈ as, ∀ b ∈ as, rank a = rank b → a = b

/-- Where ranks differ they decide the order. -/
theorem ranked_eq_of_perm (hperm : as.Perm bs) (happart : RanksApart rank as) :
    ranked rank as = ranked rank bs := by
  have hranked : (ranked rank as).Perm (ranked rank bs) :=
    ranked_perm.trans (hperm.trans ranked_perm.symm)
  refine hranked.eq_of_pairwise ?_ pairwise_ranked pairwise_ranked
  intro a b ha hb hab hba
  exact happart a (mem_ranked.mp ha) b (hperm.mem_iff.mpr (mem_ranked.mp hb)) (le_antisymm hab hba)

theorem ranked_of_pairwise (h : as.Pairwise fun a b => rank a ≤ rank b) : ranked rank as = as := by
  induction h with
  | nil => rfl
  | @cons a as hhead _ ih =>
    unfold ranked at ih ⊢
    rw [List.insertionSort_cons, ih]
    cases as with
    | nil => rfl
    | cons b as => rw [List.orderedInsert_cons, if_pos (hhead b (List.mem_cons_self ..))]

theorem pairwise_lt_ranked (hnodup : as.Nodup) (happart : RanksApart rank as) :
    (ranked rank as).Pairwise fun a b => rank a < rank b := by
  have hne : (ranked rank as).Nodup := ranked_perm.nodup_iff.mpr hnodup
  refine (pairwise_ranked.and hne).imp_of_mem fun {a b} ha hb h => ?_
  exact lt_of_le_of_ne h.1 fun heq =>
    h.2 (happart a (mem_ranked.mp ha) b (mem_ranked.mp hb) heq)

end

end Dayjaview
