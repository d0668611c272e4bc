import Dayjaview.Calculations.Weights
import Dayjaview.Core.WaterFilling

/-!
# The capping loop over any arithmetic

The loop that caps and redistributes uses its numbers only through their operations. With decimal
numbers it is the loop of the capped weights, and it can be run with exact rational numbers.
-/

namespace Dayjaview.Calculations

/-- The operations of the loop. -/
structure Arithmetic (α : Type) where
  zero : α
  one : α
  add : α → α → Except Error α
  sub : α → α → Except Error α
  mul : α → α → Except Error α
  div : α → α → Except Error α
  less : α → α → Bool

/-- The sum of some numbers, added one by one. -/
def Arithmetic.sum {α : Type} (A : Arithmetic α) (as : List α) : Except Error α :=
  as.foldlM A.add A.zero

/-- Rational numbers without rounding. -/
def exactArithmetic : Arithmetic ℚ where
  zero := 0
  one := 1
  add a b := .ok (a + b)
  sub a b := .ok (a - b)
  mul a b := .ok (a * b)
  div a b := if b = 0 then .error ⟨.arithmeticError, "division by zero"⟩ else .ok (a / b)
  less a b := decide (a < b)

/-- The constituents that remain, and the weights that are fixed. -/
abbrev CapState (α : Type) := List (String × α) × Dict String α

section Loop

variable {α : Type} (A : Arithmetic α) (cap : α)

/-- The weight proposed for a constituent. -/
def proposeWeight (mass total : α) (c : String × α) : Except Error ((String × α) × α) := do
  let share ← A.mul mass c.2
  let weight ← A.div share total
  return (c, weight)

/-- A round of the loop. The round that caps nothing is the last one, so nothing remains. -/
def capRound (s : CapState α) : Except Error (CapState α) := do
  let used ← A.sum s.2.values
  let remainingMass ← A.sub A.one used
  let remainingCapitalization ← A.sum (s.1.map Prod.snd)
  let proposed ← s.1.mapM (proposeWeight A remainingMass remainingCapitalization)
  let newlyCapped := proposed.filter fun e => A.less cap e.2
  if newlyCapped.isEmpty then
    return ([], proposed.foldl (fun fixed e => fixed.set e.1.1 e.2) s.2)
  else
    let fixed := newlyCapped.foldl (fun fixed e => fixed.set e.1.1 cap) s.2
    let capped := newlyCapped.map fun e => e.1.1
    return (s.1.filter fun c => c.1 ∉ capped, fixed)

/-- The loop, for a number of rounds at most. -/
def capLoop : Nat → CapState α → Except Error (CapState α)
  | 0, s => .ok s
  | rounds + 1, s => if s.1.isEmpty then .ok s else capRound A cap s >>= capLoop rounds

end Loop

theorem capLoop_nil {α : Type} (A : Arithmetic α) (cap : α) (rounds : Nat) (fixed : Dict String α) :
    capLoop A cap rounds ([], fixed) = .ok ([], fixed) := by
  cases rounds <;> rfl

/-- The decimal numbers that the weights are computed with. -/
def decimalArithmetic : Arithmetic Decimal where
  zero := .zero
  one := .ofNat 1
  add := Decimal.add 60
  sub := Decimal.sub 60
  mul := Decimal.mul 60
  div := Decimal.div 60
  less a b := decide (a < b)

def CapitalizationInput.pair (c : CapitalizationInput) : String × Decimal :=
  (c.stockId, c.freeFloatMarketCap)

theorem mapM_proposeWeight (mass total : Decimal) (remaining : List CapitalizationInput) :
    (remaining.map CapitalizationInput.pair).mapM (proposeWeight decimalArithmetic mass total) =
      (remaining.mapM fun c => do
        let share ← Decimal.mul 60 mass c.freeFloatMarketCap
        let weight ← Decimal.div 60 share total
        return (c, weight) : Except Error (List (CapitalizationInput × Decimal))).map
          fun proposed => proposed.map fun e => (e.1.pair, e.2) := by
  induction remaining with
  | nil => rfl
  | cons c remaining ih =>
    rw [List.map_cons, List.mapM_cons, List.mapM_cons, ih]
    unfold proposeWeight decimalArithmetic CapitalizationInput.pair
    dsimp only
    cases Decimal.mul 60 mass c.freeFloatMarketCap with
    | error e => rfl
    | ok share =>
      dsimp only [bind, Except.bind]
      cases Decimal.div 60 share total with
      | error e => rfl
      | ok weight =>
        dsimp only [bind, Except.bind, pure, Except.pure]
        generalize List.mapM (m := Except Error) _ remaining = proposed
        cases proposed <;> rfl

theorem map_bind_snd {α β γ : Type} (x : Except Error α) (f : α → Except Error (β × γ)) :
    (x >>= f).map Prod.snd = x >>= fun a => (f a).map Prod.snd := by
  cases x <;> rfl

/-- With decimal numbers the loop is the one of the capped weights. -/
theorem capLoop_decimal (cap : Decimal) (rounds : Nat) (remaining : List CapitalizationInput)
    (fixed : Dict String Decimal) :
    (capLoop decimalArithmetic cap rounds (remaining.map CapitalizationInput.pair, fixed)).map
      Prod.snd = capRounds cap rounds remaining fixed := by
  induction rounds generalizing remaining fixed with
  | zero => rfl
  | succ rounds ih =>
    cases remaining with
    | nil => rfl
    | cons c remaining =>
      have hopen : ((c :: remaining).map CapitalizationInput.pair).isEmpty = false := rfl
      rw [capLoop, hopen, if_neg Bool.false_ne_true, capRounds]
      · generalize c :: remaining = all
        have hshares : (all.map CapitalizationInput.pair).map Prod.snd =
            all.map CapitalizationInput.freeFloatMarketCap := by
          rw [List.map_map]
          rfl
        unfold capRound
        rw [hshares]
        simp only [bind_assoc, map_bind_snd]
        refine bind_congr fun used => bind_congr fun mass => bind_congr fun total => ?_
        rw [mapM_proposeWeight]
        generalize List.mapM (m := Except Error) _ all = proposal
        cases proposal with
        | error e => rfl
        | ok proposed =>
          have hcapped : (proposed.map fun e => (e.1.pair, e.2)).filter
              (fun e => decimalArithmetic.less cap e.2) =
                (proposed.filter fun e => decide (cap < e.2)).map fun e => (e.1.pair, e.2) := by
            rw [List.filter_map]
            rfl
          rw [Except.map, ok_bind_apply, ok_bind_apply, hcapped, List.isEmpty_map]
          by_cases hnone : (proposed.filter fun e => decide (cap < e.2)).isEmpty = true
          · rw [if_pos hnone, if_pos hnone, pure_bind, capLoop_nil, List.foldl_map]
            rfl
          · rw [if_neg hnone, if_neg hnone, pure_bind, List.filter_map, List.map_map,
              List.foldl_map]
            exact ih _ _
      · exact nofun

open WaterFilling

theorem exact_sum (as : List ℚ) : exactArithmetic.sum as = .ok as.sum := by
  have hfrom : ∀ x : ℚ, as.foldlM exactArithmetic.add x = .ok (x + as.sum) := by
    induction as with
    | nil =>
      intro x
      rw [List.sum_nil, add_zero]
      rfl
    | cons a as ih =>
      intro x
      rw [List.foldlM_cons, List.sum_cons, ← add_assoc]
      exact ih (x + a)
  rw [Arithmetic.sum, hfrom]
  exact congrArg Except.ok (zero_add _)

theorem exact_propose {mass total : ℚ} (htotal : total ≠ 0) (cs : List (String × ℚ)) :
    cs.mapM (proposeWeight exactArithmetic mass total) =
      .ok (cs.map fun c => (c, mass / total * c.2)) := by
  refine mapM_eq_ok_map fun c _ => ?_
  have hshare : mass * c.2 / total = mass / total * c.2 := by ring
  unfold proposeWeight exactArithmetic
  dsimp only [bind, Except.bind]
  rw [if_neg htotal, hshare]
  rfl

theorem capRound_exact {cap : ℚ} {remaining : List (String × ℚ)} {fixed : Dict String ℚ} {scale : ℚ}
    (htotal : (remaining.map Prod.snd).sum ≠ 0)
    (hscale : scale = (1 - fixed.values.sum) / (remaining.map Prod.snd).sum) :
    capRound exactArithmetic cap (remaining, fixed) =
      if (remaining.filter fun c => decide (cap < scale * c.2)).isEmpty then
        .ok ([], remaining.foldl (fun fixed c => fixed.set c.1 (scale * c.2)) fixed)
      else
        .ok (remaining.filter fun c =>
            c.1 ∉ (remaining.filter fun c => decide (cap < scale * c.2)).map Prod.fst,
          (remaining.filter fun c => decide (cap < scale * c.2)).foldl
            (fun fixed c => fixed.set c.1 cap) fixed) := by
  have hcapped : (remaining.map fun c => (c, scale * c.2)).filter
        (fun e => exactArithmetic.less cap e.2) =
      (remaining.filter fun c => decide (cap < scale * c.2)).map fun c => (c, scale * c.2) := by
    rw [List.filter_map]
    rfl
  have hround : capRound exactArithmetic cap (remaining, fixed) = (do
      let proposed ← remaining.mapM
        (proposeWeight exactArithmetic (1 - fixed.values.sum) (remaining.map Prod.snd).sum)
      let newlyCapped := proposed.filter fun e => exactArithmetic.less cap e.2
      if newlyCapped.isEmpty then
        return ([], proposed.foldl (fun fixed e => fixed.set e.1.1 e.2) fixed)
      else
        let fixed := newlyCapped.foldl (fun fixed e => fixed.set e.1.1 cap) fixed
        let capped := newlyCapped.map fun e => e.1.1
        return (remaining.filter fun c => c.1 ∉ capped, fixed)) := by
    unfold capRound
    rw [exact_sum, exact_sum]
    rfl
  rw [hround, exact_propose htotal, ← hscale]
  change (if ((remaining.map fun c => (c, scale * c.2)).filter
    fun e => exactArithmetic.less cap e.2).isEmpty = true then _ else _) = _
  rw [hcapped, List.isEmpty_map, List.foldl_map, List.foldl_map, List.map_map]
  split <;> rfl

theorem filter_notMem_filter {cs : List (String × ℚ)} (hids : (cs.map Prod.fst).Nodup)
    (p : String × ℚ → Bool) : (cs.filter fun c => c.1 ∉ (cs.filter p).map Prod.fst) =
      cs.filter fun c => !p c := by
  refine List.filter_congr fun c hc => ?_
  have hiff : c.1 ∈ (cs.filter p).map Prod.fst ↔ p c = true := by
    constructor
    · intro hmem
      obtain ⟨d, hd, heq⟩ := List.mem_map.mp hmem
      obtain ⟨hd, hpass⟩ := List.mem_filter.mp hd
      obtain rfl := List.inj_on_of_nodup_map hids hd hc heq
      exact hpass
    · exact fun hpass => List.mem_map_of_mem (List.mem_filter.mpr ⟨hc, hpass⟩)
  rw [decide_not, decide_eq_decide.mpr hiff, Bool.decide_coe]

/-- The scale at which what is not fixed is distributed over what remains. -/
def scaleOf (cap : ℚ) (capped remaining : List (String × ℚ)) : ℚ :=
  (1 - capped.length * cap) / (remaining.map Prod.snd).sum

/-- Between two rounds some constituents are fixed at the cap, which they would reach at the
present scale, too, and others remain. -/
structure Between (inputs : List (String × ℚ)) (cap : ℚ) (capped : List (String × ℚ))
    (s : CapState ℚ) : Prop where
  parts : (capped ++ s.1).Perm inputs
  fixed : s.2.entries = capped.map fun c => (c.1, cap)
  reached : ∀ c ∈ capped, cap ≤ scaleOf cap capped s.1 * c.2
  remains : s.1 ≠ []

/-- The weights are those of water filling at a scale. -/
def FilledAt (inputs : List (String × ℚ)) (cap scale : ℚ) (weights : Dict String ℚ) : Prop :=
  weights.entries.Perm (inputs.map fun c => (c.1, fill cap scale c.2)) ∧
    Fills cap 1 scale (inputs.map Prod.snd)

section Rounds

variable {inputs : List (String × ℚ)} {cap : ℚ} {capped : List (String × ℚ)} {s : CapState ℚ}

namespace Between

theorem ids_nodup (h : Between inputs cap capped s) (hids : (inputs.map Prod.fst).Nodup) :
    (capped.map Prod.fst ++ s.1.map Prod.fst).Nodup := by
  rw [← List.map_append]
  exact (h.parts.map Prod.fst).nodup_iff.mpr hids

theorem get?_eq_none (h : Between inputs cap capped s) (hids : (inputs.map Prod.fst).Nodup)
    {c : String × ℚ} (hc : c ∈ s.1) : s.2.get? c.1 = none := by
  by_contra hsome
  have hkey : c.1 ∈ s.2.keys :=
    s.2.mem_keys_iff.mpr (Option.isSome_iff_ne_none.mpr hsome)
  rw [Dict.keys, h.fixed, List.map_map] at hkey
  exact List.disjoint_of_nodup_append (h.ids_nodup hids) hkey (List.mem_map_of_mem hc)

theorem values_sum (h : Between inputs cap capped s) : s.2.values.sum = capped.length * cap := by
  rw [Dict.values, h.fixed, List.map_map]
  change (capped.map fun _ => cap).sum = _
  rw [List.map_const', List.sum_replicate, nsmul_eq_mul]

theorem pos (h : Between inputs cap capped s) (hpos : ∀ c ∈ inputs, 0 < c.2) :
    ∀ a ∈ s.1.map Prod.snd, 0 < a := by
  intro a ha
  obtain ⟨c, hc, rfl⟩ := List.mem_map.mp ha
  exact hpos c (h.parts.subset (List.mem_append_right _ hc))

theorem total_pos (h : Between inputs cap capped s) (hpos : ∀ c ∈ inputs, 0 < c.2) :
    0 < (s.1.map Prod.snd).sum :=
  List.sum_pos _ (h.pos hpos) (by rw [ne_eq, List.map_eq_nil_iff]; exact h.remains)

theorem last (h : Between inputs cap capped s) (hids : (inputs.map Prod.fst).Nodup)
    (hpos : ∀ c ∈ inputs, 0 < c.2)
    (hnone : ∀ c ∈ s.1, ¬ cap < scaleOf cap capped s.1 * c.2) :
    FilledAt inputs cap (scaleOf cap capped s.1)
      (s.1.foldl (fun fixed c => fixed.set c.1 (scaleOf cap capped s.1 * c.2)) s.2) := by
  generalize hscale : scaleOf cap capped s.1 = scale at hnone ⊢
  have hcapped : capped.map (fun c => (c.1, cap)) = capped.map fun c => (c.1, fill cap scale c.2) :=
    List.map_congr_left fun c hc =>
      congrArg (Prod.mk c.1) (min_eq_left (hscale ▸ h.reached c hc)).symm
  have hremaining : s.1.map (fun c => (c.1, scale * c.2)) =
      s.1.map fun c => (c.1, fill cap scale c.2) :=
    List.map_congr_left fun c hc =>
      congrArg (Prod.mk c.1) (min_eq_right (not_lt.mp (hnone c hc))).symm
  have hentries : (s.1.foldl (fun fixed c => fixed.set c.1 (scale * c.2)) s.2).entries =
      s.2.entries ++ s.1.map fun c => (c.1, scale * c.2) := by
    rw [← Dict.entries_foldl_set, List.foldl_map]
    · rw [List.map_map]
      exact (List.nodup_append.mp (h.ids_nodup hids)).2.1
    · intro e he
      obtain ⟨c, hc, rfl⟩ := List.mem_map.mp he
      exact h.get?_eq_none hids (c := c) hc
  constructor
  · rw [hentries, h.fixed, hcapped, hremaining, ← List.map_append]
    exact h.parts.map _
  · have hsum : ((capped ++ s.1).map fun c => fill cap scale c.2).sum = 1 := by
      have hfirst : (capped.map fun c => fill cap scale c.2).sum = capped.length * cap := by
        have hall : (capped.map fun c => fill cap scale c.2) = capped.map fun _ => cap :=
          List.map_congr_left fun c hc => min_eq_left (hscale ▸ h.reached c hc)
        rw [hall, List.map_const', List.sum_replicate, nsmul_eq_mul]
      have hsecond :
          (s.1.map fun c => fill cap scale c.2).sum = scale * (s.1.map Prod.snd).sum := by
        have hall : (s.1.map fun c => fill cap scale c.2) = s.1.map fun c => scale * c.2 :=
          List.map_congr_left fun c hc => min_eq_right (not_lt.mp (hnone c hc))
        rw [hall, List.sum_map_mul_left]
      rw [List.map_append, List.sum_append, hfirst, hsecond, ← hscale, scaleOf,
        div_mul_cancel₀ _ (h.total_pos hpos).ne']
      ring
    rw [Fills, List.map_map, ← hsum]
    exact ((h.parts.map _).sum_eq).symm

section Next

variable {above rest : List (String × ℚ)}

theorem rest_ne_nil (h : Between inputs cap capped s) (hpos : ∀ c ∈ inputs, 0 < c.2)
    (hroom : 1 ≤ inputs.length * cap)
    (hrest : ∀ c ∈ s.1, ¬ cap < scaleOf cap capped s.1 * c.2 → c ∈ rest) : rest ≠ [] := by
  have hcount : capped.length + s.1.length = inputs.length := by
    rw [← List.length_append]
    exact h.parts.length_eq
  have hmass : (1 : ℚ) - capped.length * cap ≤ (s.1.map Prod.snd).length * cap := by
    rw [List.length_map]
    rw [← hcount] at hroom
    push_cast at hroom
    linarith
  have hopen : s.1.map Prod.snd ≠ [] := by
    rw [ne_eq, List.map_eq_nil_iff]
    exact h.remains
  obtain ⟨a, ha, hbelow⟩ := exists_not_capped hopen (h.pos hpos) hmass
  obtain ⟨c, hc, rfl⟩ := List.mem_map.mp ha
  exact List.ne_nil_of_mem (hrest c hc hbelow)

theorem scale_grows (h : Between inputs cap capped s) (hpos : ∀ c ∈ inputs, 0 < c.2)
    (hsplit : (above ++ rest).Perm s.1) (hne : rest ≠ [])
    (habove : ∀ c ∈ above, cap < scaleOf cap capped s.1 * c.2) :
    scaleOf cap capped s.1 ≤ scaleOf cap (capped ++ above) rest := by
  have hsum : (above.map Prod.snd).sum + (rest.map Prod.snd).sum = (s.1.map Prod.snd).sum := by
    rw [← List.sum_append, ← List.map_append]
    exact (hsplit.map Prod.snd).sum_eq
  have hrestpos : 0 < (rest.map Prod.snd).sum := by
    refine List.sum_pos _ (fun a ha => ?_) (by rw [ne_eq, List.map_eq_nil_iff]; exact hne)
    obtain ⟨c, hc, rfl⟩ := List.mem_map.mp ha
    exact h.pos hpos _ (List.mem_map_of_mem (hsplit.subset (List.mem_append_right _ hc)))
  have hcapped : ∀ a ∈ above.map Prod.snd, cap < scaleOf cap capped s.1 * a := by
    intro a ha
    obtain ⟨c, hc, rfl⟩ := List.mem_map.mp ha
    exact habove c hc
  have hgrow := scale_le_of_capped (h.total_pos hpos) (by linarith) hcapped
  have hleft : (s.1.map Prod.snd).sum - (above.map Prod.snd).sum = (rest.map Prod.snd).sum := by
    linarith
  have hmass : (1 : ℚ) - capped.length * cap - above.length * cap =
      1 - (capped ++ above).length * cap := by
    rw [List.length_append]
    push_cast
    ring
  rw [List.length_map, hleft, hmass] at hgrow
  exact hgrow

theorem next (h : Between inputs cap capped s) (hids : (inputs.map Prod.fst).Nodup)
    (hpos : ∀ c ∈ inputs, 0 < c.2) (hsplit : (above ++ rest).Perm s.1) (hne : rest ≠ [])
    (habove : ∀ c ∈ above, cap < scaleOf cap capped s.1 * c.2) :
    Between inputs cap (capped ++ above)
      (rest, above.foldl (fun fixed c => fixed.set c.1 cap) s.2) where
  parts := by
    rw [List.append_assoc]
    exact (hsplit.append_left capped).trans h.parts
  fixed := by
    have hnodup : (s.1.map Prod.fst).Nodup := (List.nodup_append.mp (h.ids_nodup hids)).2.1
    have hset : above.foldl (fun fixed c => fixed.set c.1 cap) s.2 =
        (above.map fun c => (c.1, cap)).foldl (fun fixed e => fixed.set e.1 e.2) s.2 := by
      rw [List.foldl_map]
    rw [hset, Dict.entries_foldl_set, h.fixed, List.map_append]
    · rw [List.map_map]
      have hparts := (hsplit.map Prod.fst).nodup_iff.mpr hnodup
      rw [List.map_append] at hparts
      exact (List.nodup_append.mp hparts).1
    · intro e he
      obtain ⟨c, hc, rfl⟩ := List.mem_map.mp he
      exact h.get?_eq_none hids (c := c) (hsplit.subset (List.mem_append_left _ hc))
  reached c hc := by
    have hmem : c ∈ inputs := by
      refine h.parts.subset (List.mem_append.mpr ?_)
      rcases List.mem_append.mp hc with hc | hc
      · exact .inl hc
      · exact .inr (hsplit.subset (List.mem_append_left _ hc))
    refine le_trans ?_ (mul_le_mul_of_nonneg_right (h.scale_grows hpos hsplit hne habove)
      (hpos c hmem).le)
    rcases List.mem_append.mp hc with hc | hc
    · exact h.reached c hc
    · exact (habove c hc).le
  remains := hne

end Next

end Between

/-- The loop ends with the weights of water filling when it has a round for each constituent that
remains. -/
theorem capLoop_exact (h : Between inputs cap capped s) (hids : (inputs.map Prod.fst).Nodup)
    (hpos : ∀ c ∈ inputs, 0 < c.2) (hroom : 1 ≤ inputs.length * cap) :
    ∃ scale weights, FilledAt inputs cap scale weights ∧
      ∀ rounds, s.1.length ≤ rounds →
        capLoop exactArithmetic cap rounds s = .ok ([], weights) := by
  induction hlength : s.1.length using Nat.strong_induction_on generalizing capped s with
  | _ n ih =>
    obtain ⟨remaining, fixed⟩ := s
    have hround := @capRound_exact cap remaining fixed (scaleOf cap capped remaining)
      (h.total_pos hpos).ne' (by rw [h.values_sum]; rfl)
    have hopen : remaining.isEmpty = false := List.isEmpty_eq_false_iff.mpr h.remains
    by_cases hnone : (remaining.filter fun c =>
        decide (cap < scaleOf cap capped remaining * c.2)).isEmpty = true
    · rw [if_pos hnone] at hround
      refine ⟨_, _, h.last hids hpos fun c hc hlt => ?_, fun rounds hrounds => ?_⟩
      · rw [List.isEmpty_iff] at hnone
        have hmem : c ∈ remaining.filter fun c =>
            decide (cap < scaleOf cap capped remaining * c.2) :=
          List.mem_filter.mpr ⟨hc, decide_eq_true hlt⟩
        rw [hnone] at hmem
        cases hmem
      · obtain ⟨rounds, rfl⟩ : ∃ k, rounds = k + 1 := by
          have := List.length_pos_iff.mpr h.remains
          exact ⟨rounds - 1, by dsimp only at hlength this; omega⟩
        rw [capLoop, if_neg (by rw [hopen]; decide), hround]
        exact capLoop_nil _ _ _ _
    · rw [if_neg hnone] at hround
      have hnodup : (remaining.map Prod.fst).Nodup := (List.nodup_append.mp (h.ids_nodup hids)).2.1
      rw [filter_notMem_filter hnodup] at hround
      have hsplit := List.filter_append_perm
        (fun c : String × ℚ => decide (cap < scaleOf cap capped remaining * c.2)) remaining
      have hrest : (remaining.filter fun c =>
          !decide (cap < scaleOf cap capped remaining * c.2)) ≠ [] := by
        refine h.rest_ne_nil hpos hroom fun c hc hbelow => List.mem_filter.mpr ⟨hc, ?_⟩
        rw [decide_eq_false hbelow]
        rfl
      have hnext := h.next hids hpos hsplit hrest fun c hc =>
        of_decide_eq_true (List.mem_filter.mp hc).2
      have hfewer := hsplit.length_eq
      rw [List.length_append] at hfewer
      have habove := List.length_pos_iff.mpr fun hnil => hnone (List.isEmpty_iff.mpr hnil)
      obtain ⟨scale, weights, hfilled, hrun⟩ := ih _ (by dsimp only at hlength ⊢; omega) hnext rfl
      refine ⟨scale, weights, hfilled, fun rounds hrounds => ?_⟩
      obtain ⟨rounds, rfl⟩ : ∃ k, rounds = k + 1 := by
        have := List.length_pos_iff.mpr h.remains
        exact ⟨rounds - 1, by dsimp only at hlength this; omega⟩
      rw [capLoop, if_neg (by rw [hopen]; decide), hround]
      exact hrun rounds (by dsimp only at hlength ⊢; omega)

end Rounds

section Weights

variable {inputs inputs' : List (String × ℚ)} {cap scale scale' : ℚ}
  {weights weights' : Dict String ℚ}

theorem between_start (hne : inputs ≠ []) : Between inputs cap [] (inputs, .empty) where
  parts := List.Perm.refl _
  fixed := rfl
  reached c hc := by cases hc
  remains := hne

namespace FilledAt

theorem get? (h : FilledAt inputs cap scale weights) {c : String × ℚ} (hc : c ∈ inputs) :
    weights.get? c.1 = some (min cap (scale * c.2)) :=
  weights.mem_entries_iff.mp (h.1.symm.subset (List.mem_map.mpr ⟨c, hc, rfl⟩))

theorem get?_eq_none (h : FilledAt inputs cap scale weights) {k : String}
    (hk : k ∉ inputs.map Prod.fst) : weights.get? k = none := by
  by_contra hsome
  have hkey := weights.mem_keys_iff.mpr (Option.isSome_iff_ne_none.mpr hsome)
  obtain ⟨e, he, rfl⟩ := List.mem_map.mp hkey
  obtain ⟨c, hc, rfl⟩ := List.mem_map.mp (h.1.subset he)
  exact hk (List.mem_map.mpr ⟨c, hc, rfl⟩)

theorem sum (h : FilledAt inputs cap scale weights) : weights.values.sum = 1 := by
  rw [Dict.values, (h.1.map Prod.snd).sum_eq, List.map_map]
  have hfills := h.2
  rw [Fills, List.map_map] at hfills
  exact hfills

theorem perm (h : FilledAt inputs' cap scale weights) (hperm : inputs'.Perm inputs) :
    FilledAt inputs cap scale weights :=
  ⟨h.1.trans (hperm.map _), ((hperm.map Prod.snd).map _).sum_eq.symm.trans h.2⟩

theorem weights_eq (h : FilledAt inputs cap scale weights) (hpos : ∀ c ∈ inputs, 0 < c.2)
    (h' : Fills cap 1 scale' (inputs.map Prod.snd)) {c : String × ℚ} (hc : c ∈ inputs) :
    weights.get? c.1 = some (min cap (scale' * c.2)) := by
  have hpos' : ∀ a ∈ inputs.map Prod.snd, 0 < a := by
    intro a ha
    obtain ⟨d, hd, rfl⟩ := List.mem_map.mp ha
    exact hpos d hd
  rw [h.get? hc]
  exact congrArg some (fill_eq_of_fills hpos' h.2 h' c.2 (List.mem_map_of_mem hc))

theorem same (h : FilledAt inputs cap scale weights) (hpos : ∀ c ∈ inputs, 0 < c.2)
    (h' : FilledAt inputs cap scale' weights') : weights'.Same weights := by
  intro k
  by_cases hk : k ∈ inputs.map Prod.fst
  · obtain ⟨c, hc, rfl⟩ := List.mem_map.mp hk
    rw [h'.get? hc, h.weights_eq hpos h'.2 hc]
  · rw [h.get?_eq_none hk, h'.get?_eq_none hk]

end FilledAt

theorem fills_of_get? (h : FilledAt inputs cap scale weights)
    (hscale : ∀ c ∈ inputs, weights.get? c.1 = some (min cap (scale' * c.2))) :
    Fills cap 1 scale' (inputs.map Prod.snd) := by
  refine Eq.trans ?_ h.2
  rw [List.map_map, List.map_map]
  refine congrArg List.sum (List.map_congr_left fun c hc => ?_)
  exact Option.some.inj ((hscale c hc).symm.trans (h.get? hc))

/-- Without rounding the loop ends after no more rounds than there are constituents. The weights sum
to one and are those of water filling: there is a scale at which every weight is the capitalisation
times the scale, or the cap if that is less, and every scale at which these sum to one gives the
same weights. There is only one such scale unless as many caps are just the whole mass; then every
weight is the cap, at every scale from some on. The weights do not depend on the order of the
constituents, and a larger capitalisation has no smaller weight. -/
theorem capLoop_waterFilling (hne : inputs ≠ []) (hids : (inputs.map Prod.fst).Nodup)
    (hpos : ∀ c ∈ inputs, 0 < c.2) (hroom : 1 ≤ inputs.length * cap) :
    ∃ weights : Dict String ℚ,
      (∀ rounds, inputs.length ≤ rounds →
        capLoop exactArithmetic cap rounds (inputs, .empty) = .ok ([], weights)) ∧
      weights.keys.Perm (inputs.map Prod.fst) ∧ weights.values.sum = 1 ∧
      (∃ scale, ∀ c ∈ inputs, weights.get? c.1 = some (min cap (scale * c.2))) ∧
      (∀ scale, (inputs.map fun c => min cap (scale * c.2)).sum = 1 →
        ∀ c ∈ inputs, weights.get? c.1 = some (min cap (scale * c.2))) ∧
      (1 < inputs.length * cap →
        ∃! scale, ∀ c ∈ inputs, weights.get? c.1 = some (min cap (scale * c.2))) ∧
      (inputs.length * cap = 1 → (∀ c ∈ inputs, weights.get? c.1 = some cap) ∧
        ∃ least, ∀ scale, least ≤ scale → ∀ c ∈ inputs, min cap (scale * c.2) = cap) ∧
      (∀ inputs' rounds, inputs'.Perm inputs → inputs.length ≤ rounds →
        ∃ weights', capLoop exactArithmetic cap rounds (inputs', .empty) = .ok ([], weights') ∧
          weights'.Same weights) ∧
      ∀ c ∈ inputs, ∀ d ∈ inputs, c.2 ≤ d.2 →
        ∃ v w, weights.get? c.1 = some v ∧ weights.get? d.1 = some w ∧ v ≤ w := by
  have hpos' : ∀ a ∈ inputs.map Prod.snd, 0 < a := by
    intro a ha
    obtain ⟨d, hd, rfl⟩ := List.mem_map.mp ha
    exact hpos d hd
  obtain ⟨scale, weights, hfilled, hrun⟩ := capLoop_exact (between_start hne) hids hpos hroom
  refine ⟨weights, hrun, ?_, hfilled.sum, ⟨scale, fun c hc => hfilled.get? hc⟩, ?_, ?_, ?_, ?_, ?_⟩
  · have hkeys := hfilled.1.map Prod.fst
    rw [List.map_map] at hkeys
    exact hkeys
  · intro scale' hsum c hc
    refine hfilled.weights_eq hpos ?_ hc
    rw [Fills, List.map_map]
    exact hsum
  · intro hmore
    refine ⟨scale, fun c hc => hfilled.get? hc, fun scale' hscale' => ?_⟩
    refine scale_unique hpos' ?_ (fills_of_get? hfilled hscale') hfilled.2
    rw [List.length_map]
    exact hmore
  · intro hfull
    have hcap : ∀ c ∈ inputs, fill cap scale c.2 = cap := by
      intro c hc
      refine fill_eq_cap_of_fills ?_ hfilled.2 c.2 (List.mem_map_of_mem hc)
      rw [List.length_map]
      exact hfull
    refine ⟨fun c hc => ?_, scale, fun scale' hle c hc => ?_⟩
    · rw [hfilled.get? hc]
      exact congrArg some (hcap c hc)
    · exact fill_eq_cap_mono (hcap c hc) hle (hpos c hc).le
  · intro inputs' rounds hperm hrounds
    have hstart : Between inputs' cap [] (inputs', .empty) :=
      between_start fun hnil => hne (hnil ▸ hperm).nil_eq.symm
    obtain ⟨scale', weights', hfilled', hrun'⟩ := capLoop_exact hstart
      ((hperm.map Prod.fst).nodup_iff.mpr hids) (fun c hc => hpos c (hperm.subset hc))
      (by rw [hperm.length_eq]; exact hroom)
    exact ⟨weights', hrun' rounds (by rw [hperm.length_eq]; exact hrounds),
      hfilled.same hpos (hfilled'.perm hperm)⟩
  · intro c hc d hd hle
    have hscale : 0 < scale := scale_pos hpos' one_pos hfilled.2
    exact ⟨_, _, hfilled.get? hc, hfilled.get? hd, fill_mono_amount hle hscale.le⟩

/-- Three constituents under a cap of a half. -/
theorem capLoop_waterFilling_three : ∃ weights : Dict String ℚ,
    capLoop exactArithmetic (1 / 2) 3
      ([("KRX:000660", 6), ("KRX:005930", 3), ("KRX:035420", 1)], .empty) = .ok ([], weights) ∧
    weights.values.sum = 1 := by
  obtain ⟨weights, hrun, -, hsum, -⟩ := @capLoop_waterFilling
    [("KRX:000660", 6), ("KRX:005930", 3), ("KRX:035420", 1)] (1 / 2) (by decide) (by decide)
    (by decide +kernel) (by norm_num)
  exact ⟨weights, hrun 3 le_rfl, hsum⟩

/-- A single constituent under a cap of one has its weight at more than one scale. -/
theorem waterFilling_scale_not_unique : ∃ weights : Dict String ℚ,
    capLoop exactArithmetic 1 1 ([("KRX:005930", 1)], .empty) = .ok ([], weights) ∧
    weights.values.sum = 1 ∧
    ¬ ∃! scale : ℚ, ∀ c ∈ [("KRX:005930", (1 : ℚ))],
      weights.get? c.1 = some (min 1 (scale * c.2)) := by
  have hpos : ∀ c ∈ [("KRX:005930", (1 : ℚ))], 0 < c.2 := by decide +kernel
  have hstart : Between [("KRX:005930", (1 : ℚ))] 1 [] ([("KRX:005930", 1)], .empty) :=
    between_start (List.cons_ne_nil _ _)
  obtain ⟨scale, weights, hfilled, hrun⟩ := capLoop_exact hstart (by decide) hpos (by norm_num)
  refine ⟨weights, hrun 1 le_rfl, hfilled.sum, ?_⟩
  rintro ⟨scale', -, hunique⟩
  have hat : ∀ s : ℚ, 1 ≤ s → s = scale' := by
    intro s hs
    refine hunique s fun c hc => hfilled.weights_eq hpos ?_ hc
    have hsum : min 1 (s * 1) + 0 = 1 := by rw [mul_one, add_zero, min_eq_left hs]
    exact hsum
  have hone := hat 1 le_rfl
  have htwo := hat 2 (by norm_num)
  rw [← hone] at htwo
  norm_num at htwo

end Weights

end Dayjaview.Calculations
