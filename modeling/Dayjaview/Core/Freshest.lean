import Dayjaview.Core.Ranking
import Mathlib.Data.List.Dedup
import Mathlib.Order.MinMax

/-!
# The rows of the greatest rank

Several rows can share the greatest rank. A reader that goes on with the first of them depends
on the order of the rows, except for what all of them have in common.
-/

namespace Dayjaview

universe u v w

variable {α : Type u} {ρ : Type v} {κ : Type w} [LinearOrder ρ] {rank : α → ρ}

/-- The rows that no other one outranks. -/
def latestRows (rank : α → ρ) (rows : List α) : List α :=
  match (rows.map rank).max? with
  | none => []
  | some latestKey => rows.filter (rank · = latestKey)

theorem mem_latestRows {rows : List α} {a : α} :
    a ∈ latestRows rank rows ↔ IsGreatestBy rank rows a := by
  unfold latestRows
  cases hmax : (rows.map rank).max? with
  | none =>
    obtain rfl : rows = [] := by simpa using List.max?_eq_none_iff.mp hmax
    simp [IsGreatestBy]
  | some latestKey =>
    obtain ⟨hmem, hle⟩ := List.max?_eq_some_iff.mp hmax
    simp only [List.mem_filter, decide_eq_true_iff]
    constructor
    · rintro ⟨ha, rfl⟩
      exact ⟨ha, fun b hb => hle _ (List.mem_map_of_mem hb)⟩
    · rintro ⟨ha, hgreatest⟩
      obtain ⟨b, hb, rfl⟩ := List.mem_map.mp hmem
      exact ⟨ha, le_antisymm (hle _ (List.mem_map_of_mem ha)) (hgreatest b hb)⟩

theorem latestRows_eq_filter (rows : List α) :
    latestRows rank rows = rows.filter fun a => decide (∀ b ∈ rows, rank b ≤ rank a) := by
  have hfilter : ∃ p : α → Bool, latestRows rank rows = rows.filter p := by
    unfold latestRows
    cases (rows.map rank).max? with
    | none => exact ⟨fun _ => false, by simp⟩
    | some latestKey => exact ⟨fun a => decide (rank a = latestKey), rfl⟩
  obtain ⟨p, hp⟩ := hfilter
  rw [hp]
  refine List.filter_congr fun a ha => ?_
  have hmem : a ∈ rows.filter p ↔ IsGreatestBy rank rows a := by
    rw [← hp]
    exact mem_latestRows
  rw [Bool.eq_iff_iff, decide_eq_true_iff]
  simpa [ha, IsGreatestBy] using hmem

theorem latestRows_eq_nil {rows : List α} : latestRows rank rows = [] ↔ rows = [] := by
  constructor
  · intro h
    by_contra hne
    obtain ⟨a, ha⟩ : ∃ a, latestOf rank rows = some a := exists_latestOf hne
    have hmem := mem_latestRows.mpr (isGreatestBy_of_latestOf ha)
    rw [h] at hmem
    cases hmem
  · rintro rfl
    rfl

theorem latestRows_perm {as bs : List α} (h : as.Perm bs) :
    (latestRows rank as).Perm (latestRows rank bs) := by
  rw [latestRows_eq_filter, latestRows_eq_filter]
  refine (h.filter _).trans (List.Perm.of_eq (List.filter_congr fun a _ => ?_))
  simp [h.mem_iff]

theorem rank_eq_of_mem_latestRows {rows : List α} {a b : α} (ha : a ∈ latestRows rank rows)
    (hb : b ∈ latestRows rank rows) : rank a = rank b := by
  obtain ⟨ha, hamax⟩ := mem_latestRows.mp ha
  obtain ⟨hb, hbmax⟩ := mem_latestRows.mp hb
  exact le_antisymm (hbmax a ha) (hamax b hb)

theorem latestRows_cons {rows : List α} {a : α} (h : IsGreatestBy rank (a :: rows) a) :
    latestRows rank (a :: rows) =
      a :: rows.filter fun b => decide (∀ c ∈ a :: rows, rank c ≤ rank b) := by
  rw [latestRows_eq_filter, List.filter_cons_of_pos (by simpa using h.2)]

variable [DecidableEq κ] {fields : α → κ}

/-- The rows have one value in common. -/
def Uniform (fields : α → κ) (rows : List α) : Prop := (rows.map fields).dedup.length = 1

instance (rows : List α) : Decidable (Uniform fields rows) :=
  inferInstanceAs (Decidable ((rows.map fields).dedup.length = 1))

theorem uniform_iff {rows : List α} :
    Uniform fields rows ↔ rows ≠ [] ∧ ∀ a ∈ rows, ∀ b ∈ rows, fields a = fields b := by
  unfold Uniform
  rw [List.length_eq_one_iff]
  constructor
  · rintro ⟨k, hk⟩
    have hall : ∀ a ∈ rows, fields a = k := by
      intro a ha
      have hmem : fields a ∈ (rows.map fields).dedup :=
        List.mem_dedup.mpr (List.mem_map_of_mem ha)
      simpa [hk] using hmem
    refine ⟨?_, fun a ha b hb => (hall a ha).trans (hall b hb).symm⟩
    rintro rfl
    simp at hk
  · rintro ⟨hne, hall⟩
    obtain ⟨a, rest, rfl⟩ := List.exists_cons_of_ne_nil hne
    refine ⟨fields a, ?_⟩
    have hconst : (a :: rest).map fields = List.replicate (rest.length + 1) (fields a) := by
      refine List.eq_replicate_iff.mpr ⟨by simp, fun k hk => ?_⟩
      obtain ⟨b, hb, rfl⟩ := List.mem_map.mp hk
      exact hall b hb a (by simp)
    rw [hconst, List.replicate_dedup (by omega)]

theorem uniform_congr {as bs : List α} (h : ∀ a, a ∈ as ↔ a ∈ bs) :
    Uniform fields as ↔ Uniform fields bs := by
  have hne : as ≠ [] ↔ bs ≠ [] := by
    simp only [ne_eq, List.eq_nil_iff_forall_not_mem, h]
  rw [uniform_iff, uniform_iff, hne]
  simp only [h]

/-- The first of the rows of the greatest rank, or that they disagree. -/
def latestAgreeing (rank : α → ρ) (fields : α → κ) (rows : List α) : Option α × Bool :=
  match latestRows rank rows with
  | [] => (none, false)
  | first :: rest => if Uniform fields (first :: rest) then (some first, false) else (none, true)

theorem latestAgreeing_eq_some {rows : List α} {a : α} {conflict : Bool}
    (h : latestAgreeing rank fields rows = (some a, conflict)) :
    conflict = false ∧ a ∈ latestRows rank rows ∧
      ∀ b ∈ latestRows rank rows, fields b = fields a := by
  unfold latestAgreeing at h
  split at h
  · cases h
  · next first rest hrows =>
    split at h
    · next huniform =>
      cases h
      rw [hrows]
      exact ⟨rfl, by simp, fun b hb => (uniform_iff.mp huniform).2 b hb _ (by simp)⟩
    · cases h

theorem latestAgreeing_eq_none {rows : List α} {conflict : Bool}
    (h : latestAgreeing rank fields rows = (none, conflict)) :
    if conflict then ¬ Uniform fields (latestRows rank rows) else rows = [] := by
  unfold latestAgreeing at h
  split at h
  · next hrows =>
    cases h
    exact latestRows_eq_nil.mp hrows
  · next first rest hrows =>
    split at h
    · cases h
    · next huniform =>
      cases h
      rw [hrows]
      exact huniform

theorem latestAgreeing_of_uniform {rows : List α} (h : Uniform fields (latestRows rank rows)) :
    ∃ a, latestAgreeing rank fields rows = (some a, false) := by
  unfold latestAgreeing
  split
  · next hrows =>
    rw [hrows] at h
    exact absurd rfl (uniform_iff.mp h).1
  · next first rest hrows =>
    rw [hrows] at h
    exact ⟨first, if_pos h⟩

theorem latestAgreeing_cons {rows : List α} {a : α} (ha : a ∈ latestRows rank (a :: rows))
    (h : Uniform fields (latestRows rank (a :: rows))) :
    latestAgreeing rank fields (a :: rows) = (some a, false) := by
  have hrows := latestRows_cons (mem_latestRows.mp ha)
  unfold latestAgreeing
  rw [hrows] at h ⊢
  exact if_pos h

theorem latestAgreeing_perm {as bs : List α} (h : as.Perm bs) :
    ((latestAgreeing rank fields as).1.map fields, (latestAgreeing rank fields as).2) =
      ((latestAgreeing rank fields bs).1.map fields, (latestAgreeing rank fields bs).2) := by
  have hrows : (latestRows rank as).Perm (latestRows rank bs) := latestRows_perm h
  have hsame : Uniform fields (latestRows rank as) ↔ Uniform fields (latestRows rank bs) :=
    uniform_congr fun a => hrows.mem_iff
  rcases ha : latestAgreeing rank fields as with ⟨_ | a, conflict⟩
  · have hnone := latestAgreeing_eq_none ha
    rcases hb : latestAgreeing rank fields bs with ⟨_ | b, conflict'⟩
    · have hnone' := latestAgreeing_eq_none hb
      cases conflict <;> cases conflict'
      · rfl
      · obtain rfl := (hnone : as = [])
        obtain rfl := List.nil_perm.mp h
        cases hb
      · obtain rfl := (hnone' : bs = [])
        obtain rfl := List.perm_nil.mp h
        cases ha
      · rfl
    · obtain ⟨-, hmem, hall⟩ := latestAgreeing_eq_some hb
      have huniform : Uniform fields (latestRows rank bs) :=
        uniform_iff.mpr
        ⟨List.ne_nil_of_mem hmem, fun c hc d hd => (hall c hc).trans (hall d hd).symm⟩
      obtain ⟨c, hc⟩ := latestAgreeing_of_uniform (hsame.mpr huniform)
      rw [hc] at ha
      cases ha
  · obtain ⟨rfl, hmem, hall⟩ := latestAgreeing_eq_some ha
    have huniform : Uniform fields (latestRows rank as) :=
      uniform_iff.mpr ⟨List.ne_nil_of_mem hmem, fun c hc d hd => (hall c hc).trans (hall d hd).symm⟩
    obtain ⟨b, hb⟩ := latestAgreeing_of_uniform (hsame.mp huniform)
    have hbmem := (latestAgreeing_eq_some hb).2.1
    rw [hb]
    simp [hall b (hrows.mem_iff.mpr hbmem)]

/-- The order in which a set is walked through. It is not specified. -/
structure SetOrder (κ : Type w) [DecidableEq κ] where
  walk : List κ → List κ
  perm : ∀ keys, (walk keys).Perm keys.dedup

/-- A set can be walked through in the order in which it was filled. -/
def SetOrder.insertion (κ : Type w) [DecidableEq κ] : SetOrder κ where
  walk keys := keys.reverse.dedup.reverse
  perm keys := (List.reverse_perm _).trans (List.reverse_perm keys).dedup

theorem SetOrder.mem_walk (order : SetOrder κ) {keys : List κ} {k : κ} :
    k ∈ order.walk keys ↔ k ∈ keys := by
  rw [(order.perm keys).mem_iff, List.mem_dedup]

theorem SetOrder.exists_insertion_cons (k : κ) (keys : List κ) :
    ∃ rest, (SetOrder.insertion κ).walk (k :: keys) = k :: rest := by
  obtain ⟨front, hfront⟩ : [k] <:+ (keys.reverse ++ [k]).dedup := by
    rw [List.dedup_append]
    exact List.suffix_union_right _ _
  refine ⟨front.reverse, ?_⟩
  change (k :: keys).reverse.dedup.reverse = _
  rw [List.reverse_cons, ← hfront, List.reverse_append]
  rfl

theorem SetOrder.walk_eq_nil (order : SetOrder κ) {keys : List κ} :
    order.walk keys = [] ↔ keys = [] := by
  simp only [List.eq_nil_iff_forall_not_mem, order.mem_walk]

def rowsOf (key : α → κ) (rows : List α) (k : κ) : List α := rows.filter fun a => decide (key a = k)

theorem mem_rowsOf {key : α → κ} {rows : List α} {k : κ} {a : α} :
    a ∈ rowsOf key rows k ↔ a ∈ rows ∧ key a = k := by
  simp [rowsOf]

/-- The rows of the greatest rank, for each key. -/
def latestByKey (order : SetOrder κ) (key : α → κ) (rank : α → ρ) (rows : List α) :
    List (List α) :=
  (order.walk (rows.map key)).map fun k => latestRows rank (rowsOf key rows k)

section ByKey

variable {order order' : SetOrder κ} {key : α → κ} {rows as bs : List α}

theorem mem_latestByKey {group : List α} :
    group ∈ latestByKey order key rank rows ↔
      ∃ a ∈ rows, group = latestRows rank (rowsOf key rows (key a)) := by
  unfold latestByKey
  simp only [List.mem_map, order.mem_walk]
  constructor
  · rintro ⟨k, ⟨a, ha, rfl⟩, rfl⟩
    exact ⟨a, ha, rfl⟩
  · rintro ⟨a, ha, rfl⟩
    exact ⟨key a, ⟨a, ha, rfl⟩, rfl⟩

theorem ne_nil_of_mem_latestByKey {group : List α} (h : group ∈ latestByKey order key rank rows) :
    group ≠ [] := by
  obtain ⟨a, ha, rfl⟩ := mem_latestByKey.mp h
  rw [ne_eq, latestRows_eq_nil]
  exact List.ne_nil_of_mem (mem_rowsOf.mpr ⟨ha, rfl⟩)

theorem mem_flatten_latestByKey {a : α} :
    a ∈ (latestByKey order key rank rows).flatten ↔
      a ∈ latestRows rank (rowsOf key rows (key a)) := by
  rw [List.mem_flatten]
  constructor
  · rintro ⟨group, hgroup, ha⟩
    obtain ⟨b, hb, rfl⟩ := mem_latestByKey.mp hgroup
    have hkey := (mem_rowsOf.mp (mem_latestRows.mp ha).1).2
    rwa [hkey]
  · intro ha
    have hrow := (mem_rowsOf.mp (mem_latestRows.mp ha).1).1
    exact ⟨_, mem_latestByKey.mpr ⟨a, hrow, rfl⟩, ha⟩

theorem latestByKey_eq_nil : latestByKey order key rank rows = [] ↔ rows = [] := by
  unfold latestByKey
  rw [List.map_eq_nil_iff, order.walk_eq_nil, List.map_eq_nil_iff]

theorem map_latestByKey_perm {β : Type*} {f : List α → β}
    (hf : ∀ xs ys : List α, xs.Perm ys → f xs = f ys) (h : as.Perm bs) :
    ((latestByKey order key rank as).map f).Perm ((latestByKey order' key rank bs).map f) := by
  unfold latestByKey
  rw [List.map_map, List.map_map]
  have hkeys : (order.walk (as.map key)).Perm (order'.walk (bs.map key)) :=
    (order.perm _).trans ((h.map key).dedup.trans (order'.perm _).symm)
  refine (hkeys.map _).trans (List.Perm.of_eq (List.map_congr_left fun k _ => ?_))
  exact hf _ _ (latestRows_perm (h.filter _))

end ByKey

end Dayjaview
