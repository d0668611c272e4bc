import Mathlib.Data.List.Nodup
import Mathlib.Data.List.Sort

/-!
# Insertion-ordered dictionaries

A dictionary keeps each key once, in the order of first insertion; writing an
existing key keeps its place. Lookup determines a dictionary up to the order of
its entries, and reading the entries sorted by key forgets that order, so two
dictionaries with equal lookups have equal sorted entries.
-/

namespace Dayjaview

universe u v

/-- Entries in insertion order, each key at most once. -/
structure Dict (κ : Type u) (α : Type v) where
  entries : List (κ × α)
  nodup : (entries.map Prod.fst).Nodup

namespace Dict

variable {κ : Type u} {α : Type v}

/-- The dictionary without entries. -/
def empty : Dict κ α := ⟨[], List.nodup_nil⟩

instance : Inhabited (Dict κ α) := ⟨empty⟩

/-- The keys in insertion order. -/
def keys (d : Dict κ α) : List κ := d.entries.map Prod.fst

/-- The values in insertion order of their keys. -/
def values (d : Dict κ α) : List α := d.entries.map Prod.snd

@[simp] theorem keys_empty : (empty : Dict κ α).keys = [] := rfl
@[simp] theorem entries_empty : (empty : Dict κ α).entries = [] := rfl

/-- No key occurs twice. -/
theorem keys_nodup (d : Dict κ α) : d.keys.Nodup := d.nodup

variable [DecidableEq κ]

/-- The value stored under a key. -/
def get? (d : Dict κ α) (k : κ) : Option α := d.entries.lookup k

private theorem lookup_cons_ite (k : κ) (e : κ × α) (es : List (κ × α)) :
    (e :: es).lookup k = if k = e.1 then some e.2 else es.lookup k := by
  obtain ⟨k', a⟩ := e
  rw [List.lookup_cons]
  by_cases h : k = k'
  · simp [h]
  · simp [h, beq_eq_false_iff_ne.mpr h]

private def put (k : κ) (a : α) : List (κ × α) → List (κ × α)
  | [] => [(k, a)]
  | e :: es => if e.1 = k then (k, a) :: es else e :: put k a es

private theorem map_fst_put (k : κ) (a : α) (es : List (κ × α)) :
    (put k a es).map Prod.fst =
      if k ∈ es.map Prod.fst then es.map Prod.fst else es.map Prod.fst ++ [k] := by
  induction es with
  | nil => simp [put]
  | cons e es ih =>
    by_cases he : e.1 = k
    · simp [put, he]
    · have hk : ¬ k = e.1 := fun h => he h.symm
      by_cases hm : k ∈ es.map Prod.fst <;> simp [put, he, hk, ih, hm]

private theorem nodup_put (k : κ) (a : α) {es : List (κ × α)}
    (h : (es.map Prod.fst).Nodup) : ((put k a es).map Prod.fst).Nodup := by
  rw [map_fst_put]
  split
  · exact h
  · next hk =>
    rw [List.nodup_append]
    exact ⟨h, List.nodup_singleton k, by rintro x hx y hy rfl; simp_all⟩

/-- Write a key: an existing key keeps its place, a new one goes last. -/
def set (d : Dict κ α) (k : κ) (a : α) : Dict κ α :=
  ⟨put k a d.entries, nodup_put k a d.nodup⟩

/-- Remove a key, if it is there. -/
def erase (d : Dict κ α) (k : κ) : Dict κ α :=
  ⟨d.entries.filter (fun e => decide (e.1 ≠ k)),
    List.Nodup.sublist (List.Sublist.map _ List.filter_sublist) d.nodup⟩

@[simp] theorem get?_empty (k : κ) : (empty : Dict κ α).get? k = none := rfl

private theorem lookup_put (k k' : κ) (a : α) (es : List (κ × α)) :
    (put k a es).lookup k' = if k' = k then some a else es.lookup k' := by
  induction es with
  | nil => simp [put, lookup_cons_ite]
  | cons e es ih =>
    by_cases he : e.1 = k
    · by_cases h : k' = k <;> simp [put, lookup_cons_ite, he, h]
    · by_cases h : k' = e.1
      · simp [put, lookup_cons_ite, he, h]
      · simp [put, lookup_cons_ite, he, h, ih]

/-- What a key has after one key was set. -/
theorem get?_set (d : Dict κ α) (k k' : κ) (a : α) :
    (d.set k a).get? k' = if k' = k then some a else d.get? k' :=
  lookup_put k k' a d.entries

@[simp] theorem get?_set_self (d : Dict κ α) (k : κ) (a : α) :
    (d.set k a).get? k = some a := by simp [get?_set]

theorem get?_set_of_ne (d : Dict κ α) {k k' : κ} (a : α) (h : k' ≠ k) :
    (d.set k a).get? k' = d.get? k' := by simp [get?_set, h]

private theorem lookup_filter (k k' : κ) (es : List (κ × α)) :
    (es.filter (fun e => decide (e.1 ≠ k))).lookup k' =
      if k' = k then none else es.lookup k' := by
  induction es with
  | nil => simp
  | cons e es ih =>
    by_cases he : e.1 = k
    · by_cases h : k' = k <;> simpa [lookup_cons_ite, he, h] using ih
    · by_cases h : k' = e.1
      · simp [lookup_cons_ite, he, h]
      · simpa [lookup_cons_ite, he, h] using ih

/-- What a key has after one key was erased. -/
theorem get?_erase (d : Dict κ α) (k k' : κ) :
    (d.erase k).get? k' = if k' = k then none else d.get? k' :=
  lookup_filter k k' d.entries

theorem get?_foldl_erase (p : κ → Prop) [DecidablePred p] (ks : List κ) (d : Dict κ α) (k : κ) :
    (ks.foldl (fun d k => if p k then d.erase k else d) d).get? k =
      if k ∈ ks ∧ p k then none else d.get? k := by
  induction ks generalizing d with
  | nil => simp
  | cons k' ks ih =>
    rw [List.foldl_cons, ih]
    by_cases hp : p k'
    · by_cases hk : k = k'
      · subst hk
        simp [hp, get?_erase]
      · simp [hp, hk, get?_erase]
    · by_cases hk : k = k'
      · subst hk
        simp [hp]
      · simp [hp, hk]

theorem get?_foldl_setBy {β : Type*} (key : β → κ) (value : β → α) (bs : List β) (d : Dict κ α)
    (k : κ) : (∃ b ∈ bs, key b = k ∧
        (bs.foldl (fun d b => d.set (key b) (value b)) d).get? k = some (value b)) ∨
      ((∀ b ∈ bs, key b ≠ k) ∧
        (bs.foldl (fun d b => d.set (key b) (value b)) d).get? k = d.get? k) := by
  induction bs generalizing d with
  | nil => exact .inr ⟨by simp, rfl⟩
  | cons b bs ih =>
    rw [List.foldl_cons]
    rcases ih (d.set (key b) (value b)) with ⟨b', hmem, hrest⟩ | ⟨hother, hsame⟩
    · exact .inl ⟨b', List.mem_cons_of_mem _ hmem, hrest⟩
    · by_cases hkey : key b = k
      · refine .inl ⟨b, List.mem_cons_self .., hkey, ?_⟩
        rw [hsame, hkey, get?_set_self]
      · refine .inr ⟨fun b' hb' => ?_, ?_⟩
        · rcases List.mem_cons.mp hb' with rfl | hb'
          · exact hkey
          · exact hother b' hb'
        · rw [hsame, get?_set_of_ne _ _ (Ne.symm hkey)]

theorem get?_foldl_setMissing (p : κ → Prop) [DecidablePred p] (a : α) (ks : List κ)
    (d : Dict κ α) (k : κ) :
    (ks.foldl (fun d k => if (d.get? k).isNone ∧ p k then d.set k a else d) d).get? k =
      if k ∈ ks ∧ d.get? k = none ∧ p k then some a else d.get? k := by
  induction ks generalizing d with
  | nil => simp
  | cons k' ks ih =>
    rw [List.foldl_cons, ih]
    by_cases hk : k = k'
    · subst hk
      by_cases hadds : d.get? k = none ∧ p k
      · simp [hadds.1, hadds.2]
      · have hkeeps : ¬ ((d.get? k).isNone ∧ p k) := by
          simpa [Option.isNone_iff_eq_none] using hadds
        rw [if_neg hkeeps]
        simp [hadds]
    · have hsame : ∀ q : Prop, [Decidable q] → (if q then d.set k' a else d).get? k = d.get? k := by
        intro q _
        split
        · exact get?_set_of_ne d a hk
        · rfl
      rw [hsame]
      simp [hk]

/-- The entries are what the keys have. -/
theorem mem_entries_iff (d : Dict κ α) {k : κ} {a : α} :
    (k, a) ∈ d.entries ↔ d.get? k = some a := by
  obtain ⟨es, hes⟩ := d
  induction es with
  | nil => simp [get?]
  | cons e es ih =>
    obtain ⟨hne, htail⟩ := List.nodup_cons.mp hes
    have ih := ih htail
    simp only [get?] at ih ⊢
    rw [List.mem_cons, lookup_cons_ite]
    by_cases h : k = e.1
    · subst h
      simp only [if_true, Option.some.injEq]
      constructor
      · rintro (h | h)
        · exact (congrArg Prod.snd h).symm
        · exact absurd (List.mem_map_of_mem h) hne
      · intro h
        exact Or.inl (Prod.ext rfl h.symm)
    · have hp : (k, a) ≠ e := fun h' => h (congrArg Prod.fst h')
      simp [h, hp, ih]

theorem mem_keys_iff (d : Dict κ α) {k : κ} : k ∈ d.keys ↔ (d.get? k).isSome := by
  rw [keys, List.mem_map]
  constructor
  · rintro ⟨⟨k', a⟩, hm, rfl⟩
    simp [d.mem_entries_iff.mp hm]
  · intro h
    obtain ⟨a, ha⟩ := Option.isSome_iff_exists.mp h
    exact ⟨(k, a), d.mem_entries_iff.mpr ha, rfl⟩

/-- The values are what some key has. -/
theorem mem_values_iff (d : Dict κ α) {a : α} : a ∈ d.values ↔ ∃ k, d.get? k = some a := by
  rw [values, List.mem_map]
  constructor
  · rintro ⟨⟨k, b⟩, hm, rfl⟩
    exact ⟨k, d.mem_entries_iff.mp hm⟩
  · rintro ⟨k, hk⟩
    exact ⟨(k, a), d.mem_entries_iff.mpr hk, rfl⟩

/-- The entries whose values have a property. -/
def filterValues (d : Dict κ α) (p : α → Bool) : Dict κ α :=
  ⟨d.entries.filter fun e => p e.2, d.nodup.sublist (List.filter_sublist.map Prod.fst)⟩

@[simp] theorem get?_filterValues (d : Dict κ α) (p : α → Bool) (k : κ) :
    (d.filterValues p).get? k = (d.get? k).filter p := by
  ext a
  rw [← mem_entries_iff, Option.filter_eq_some_iff, ← mem_entries_iff, filterValues,
    List.mem_filter]

/-- A new key goes to the end. -/
theorem entries_set_of_get?_eq_none (d : Dict κ α) {k : κ} (a : α) (h : d.get? k = none) :
    (d.set k a).entries = d.entries ++ [(k, a)] := by
  have hes : ∀ es : List (κ × α), es.lookup k = none → put k a es = es ++ [(k, a)] := by
    intro es
    induction es with
    | nil => intro _; rfl
    | cons e es ih =>
      intro hl
      rw [lookup_cons_ite] at hl
      by_cases he : e.1 = k
      · simp [he] at hl
      · have hk : ¬ k = e.1 := fun h => he h.symm
        simp only [hk, if_false] at hl
        simp [put, he, ih hl]
  exact hes d.entries h

theorem values_set_of_get?_eq_none (d : Dict κ α) {k : κ} (a : α) (h : d.get? k = none) :
    (d.set k a).values = d.values ++ [a] := by
  rw [values, entries_set_of_get?_eq_none d a h, List.map_append]
  rfl

theorem exists_entries_set (d : Dict κ α) {k : κ} {a : α} (b : α) (h : d.get? k = some a) :
    ∃ before after, d.entries = before ++ (k, a) :: after ∧
      (d.set k b).entries = before ++ (k, b) :: after := by
  have hes : ∀ es : List (κ × α), es.lookup k = some a →
      ∃ before after, es = before ++ (k, a) :: after ∧ put k b es = before ++ (k, b) :: after := by
    intro es
    induction es with
    | nil => simp
    | cons e es ih =>
      intro hl
      rw [lookup_cons_ite] at hl
      by_cases he : e.1 = k
      · obtain ⟨k', a'⟩ := e
        obtain rfl : k' = k := he
        rw [if_pos rfl] at hl
        cases hl
        exact ⟨[], es, rfl, by simp [put]⟩
      · have hk : ¬ k = e.1 := fun h => he h.symm
        rw [if_neg hk] at hl
        obtain ⟨before, after, hes, hput⟩ := ih hl
        exact ⟨e :: before, after, by rw [hes]; rfl, by rw [put, if_neg he, hput]; rfl⟩
  exact hes d.entries h

theorem set_set (d : Dict κ α) (k : κ) (a b : α) : (d.set k a).set k b = d.set k b := by
  have hes : ∀ es : List (κ × α), put k b (put k a es) = put k b es := by
    intro es
    induction es with
    | nil => simp [put]
    | cons e es ih => by_cases he : e.1 = k <;> simp [put, he, ih]
  unfold set
  simp only [hes]

/-- The dictionary with every value mapped. -/
def mapValues {β : Type v} (f : α → β) (d : Dict κ α) : Dict κ β :=
  ⟨d.entries.map fun e => (e.1, f e.2), by simpa [Function.comp_def] using d.nodup⟩

omit [DecidableEq κ] in
@[simp] theorem values_mapValues {β : Type v} (f : α → β) (d : Dict κ α) :
    (d.mapValues f).values = d.values.map f := by
  simp [mapValues, values, Function.comp_def]

/-- Mapping the values maps what each key has. -/
@[simp] theorem get?_mapValues {β : Type v} (f : α → β) (d : Dict κ α) (k : κ) :
    (d.mapValues f).get? k = (d.get? k).map f := by
  have hes : ∀ es : List (κ × α),
      (es.map fun e => (e.1, f e.2)).lookup k = (es.lookup k).map f := by
    intro es
    induction es with
    | nil => rfl
    | cons e es ih =>
      rw [List.map_cons, lookup_cons_ite, lookup_cons_ite, ih]
      split <;> rfl
  exact hes d.entries

theorem mapValues_set {β : Type v} (f : α → β) (d : Dict κ α) (k : κ) (a : α) :
    (d.set k a).mapValues f = (d.mapValues f).set k (f a) := by
  have hes : ∀ es : List (κ × α), (put k a es).map (fun e => (e.1, f e.2)) =
      put k (f a) (es.map fun e => (e.1, f e.2)) := by
    intro es
    induction es with
    | nil => rfl
    | cons e es ih => by_cases he : e.1 = k <;> simp [put, he, ih]
  unfold set mapValues
  simp only [hes]

theorem set_of_get?_eq_some (d : Dict κ α) {k : κ} {a : α} (h : d.get? k = some a) :
    d.set k a = d := by
  have hes : ∀ es : List (κ × α), es.lookup k = some a → put k a es = es := by
    intro es
    induction es with
    | nil => simp
    | cons e es ih =>
      intro hl
      rw [lookup_cons_ite] at hl
      by_cases he : e.1 = k
      · obtain ⟨k', a'⟩ := e
        simp_all [put]
      · have hk : ¬ k = e.1 := fun h => he h.symm
        simp only [hk, if_false] at hl
        simp [put, he, ih hl]
  unfold set
  simp only [hes d.entries h]

/-- Two dictionaries that answer every lookup alike. -/
def Same (d e : Dict κ α) : Prop := ∀ k, d.get? k = e.get? k

theorem Same.refl (d : Dict κ α) : d.Same d := fun _ => rfl

/-- Setting a key keeps two dictionaries the same. -/
theorem Same.set {d e : Dict κ α} (h : d.Same e) (k : κ) (a : α) :
    (d.set k a).Same (e.set k a) := by
  intro k'
  rw [get?_set, get?_set, h k']

theorem Same.perm {d e : Dict κ α} (h : d.Same e) : d.entries.Perm e.entries := by
  have hd : d.entries.Nodup := List.Nodup.of_map _ d.nodup
  have he : e.entries.Nodup := List.Nodup.of_map _ e.nodup
  rw [List.perm_ext_iff_of_nodup hd he]
  rintro ⟨k, a⟩
  rw [mem_entries_iff, mem_entries_iff, h k]

/-- A dictionary built by writing the given items one after the other. -/
def ofList (items : List (κ × α)) : Dict κ α :=
  items.foldl (fun d e => d.set e.1 e.2) empty

private theorem get?_foldl_set (items : List (κ × α)) (d : Dict κ α)
    (hn : (items.map Prod.fst).Nodup) (k : κ) :
    (items.foldl (fun d e => d.set e.1 e.2) d).get? k =
      (items.lookup k).or (d.get? k) := by
  induction items generalizing d with
  | nil => simp
  | cons e items ih =>
    obtain ⟨hne, htail⟩ := List.nodup_cons.mp hn
    rw [List.foldl_cons, ih _ htail, get?_set, lookup_cons_ite]
    by_cases h : k = e.1
    · have hnone : items.lookup k = none := by
        rw [List.lookup_eq_none_iff]
        intro p hp
        have hpk : p.1 ≠ k := fun h' => hne (h ▸ h' ▸ List.mem_map_of_mem hp)
        simpa using fun h' : k = p.1 => hpk h'.symm
      subst h
      rw [hnone]
      simp
    · simp [h]

theorem get?_ofList {items : List (κ × α)} (hn : (items.map Prod.fst).Nodup) (k : κ) :
    (ofList items).get? k = items.lookup k := by
  rw [ofList, get?_foldl_set _ _ hn]
  simp

theorem entries_foldl_set {items : List (κ × α)} {d : Dict κ α}
    (hn : (items.map Prod.fst).Nodup) (hd : ∀ e ∈ items, d.get? e.1 = none) :
    (items.foldl (fun d e => d.set e.1 e.2) d).entries = d.entries ++ items := by
  induction items generalizing d with
  | nil => simp
  | cons e items ih =>
    obtain ⟨hne, htail⟩ := List.nodup_cons.mp hn
    rw [List.foldl_cons, ih htail, entries_set_of_get?_eq_none _ _ (hd e List.mem_cons_self),
      List.append_assoc, List.singleton_append]
    intro e' he'
    have hkey : e'.1 ≠ e.1 := fun h => hne (h ▸ List.mem_map_of_mem he')
    rw [get?_set_of_ne _ _ hkey]
    exact hd e' (List.mem_cons_of_mem _ he')

/-- A list without repeated keys is kept as it is. -/
theorem entries_ofList {items : List (κ × α)} (hn : (items.map Prod.fst).Nodup) :
    (ofList items).entries = items :=
  entries_foldl_set hn fun e _ => get?_empty e.1

theorem mem_of_get?_ofList {items : List (κ × α)} {k : κ} {a : α}
    (h : (ofList items).get? k = some a) : (k, a) ∈ items := by
  rcases get?_foldl_setBy Prod.fst Prod.snd items empty k with ⟨e, he, rfl, hget⟩ | ⟨-, hget⟩
  · rw [ofList, hget] at h
    cases h
    exact he
  · rw [ofList, hget] at h
    simp at h

section Sorted

variable [LinearOrder κ]

/-- The entries in increasing order of their keys. -/
def sortedEntries (d : Dict κ α) : List (κ × α) :=
  d.entries.insertionSort (fun a b => a.1 ≤ b.1)

section

omit [DecidableEq κ]

theorem sortedEntries_perm (d : Dict κ α) : d.sortedEntries.Perm d.entries :=
  List.perm_insertionSort _ _

theorem sortedEntries_nodup (d : Dict κ α) : (d.sortedEntries.map Prod.fst).Nodup :=
  (d.sortedEntries_perm.map _).nodup_iff.mpr d.nodup

private theorem pairwise_sortedEntries (d : Dict κ α) :
    d.sortedEntries.Pairwise (fun a b => a.1 ≤ b.1) :=
  haveI : Std.Total (fun a b : κ × α => a.1 ≤ b.1) := ⟨fun a b => le_total a.1 b.1⟩
  haveI : IsTrans (κ × α) (fun a b => a.1 ≤ b.1) := ⟨fun _ _ _ h h' => le_trans h h'⟩
  List.pairwise_insertionSort _ _

end

/-- Sorted entries do not show in which order keys came. -/
theorem Same.sortedEntries {d e : Dict κ α} (h : d.Same e) :
    d.sortedEntries = e.sortedEntries := by
  have hp : d.sortedEntries.Perm e.sortedEntries :=
    d.sortedEntries_perm.trans (h.perm.trans e.sortedEntries_perm.symm)
  apply hp.eq_of_pairwise ?_ d.pairwise_sortedEntries e.pairwise_sortedEntries
  rintro ⟨k, a⟩ ⟨k', b⟩ ha hb hab hba
  obtain rfl : k = k' := le_antisymm hab hba
  have ha' := d.mem_entries_iff.mp (d.sortedEntries_perm.mem_iff.mp ha)
  have hb' := e.mem_entries_iff.mp (e.sortedEntries_perm.mem_iff.mp hb)
  rw [h k, hb'] at ha'
  exact congrArg _ (Option.some.inj ha').symm

theorem ofList_sortedEntries (d : Dict κ α) : (ofList d.sortedEntries).Same d := by
  intro k
  rw [get?_ofList d.sortedEntries_nodup]
  have hs : (⟨d.sortedEntries, d.sortedEntries_nodup⟩ : Dict κ α).Same d := by
    intro k
    apply Option.ext
    intro a
    rw [← mem_entries_iff, ← mem_entries_iff]
    exact d.sortedEntries_perm.mem_iff
  exact hs k

end Sorted

end Dict

end Dayjaview
