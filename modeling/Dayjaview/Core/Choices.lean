import Mathlib.Data.List.Forall2

/-!
# What no choice changes

One alternative is taken of each of several choices, and what is collected are the items of the
alternatives that were taken. The collection is always the same exactly when each item of an
alternative is there anyway, or is an item of all alternatives of some choice.
-/

namespace Dayjaview

universe u v

variable {α : Type u} {τ : Type v}

/-- One alternative of each choice. -/
def IsPick (choices : List (List α)) (picked : List α) : Prop :=
  List.Forall₂ (fun a alternatives => a ∈ alternatives) picked choices

theorem exists_pick {choices : List (List α)} {P : α → Prop}
    (h : ∀ alternatives ∈ choices, ∃ a ∈ alternatives, P a) :
    ∃ picked, IsPick choices picked ∧ ∀ a ∈ picked, P a := by
  induction choices with
  | nil => exact ⟨[], List.Forall₂.nil, by simp⟩
  | cons alternatives choices ih =>
    obtain ⟨a, ha, hP⟩ := h alternatives List.mem_cons_self
    obtain ⟨picked, hpicked, hall⟩ := ih fun others hothers =>
      h others (List.mem_cons_of_mem _ hothers)
    refine ⟨a :: picked, List.Forall₂.cons ha hpicked, fun b hb => ?_⟩
    rcases List.mem_cons.mp hb with rfl | hb
    · exact hP
    · exact hall b hb

theorem IsPick.exists_mem {choices : List (List α)} {picked : List α} (h : IsPick choices picked)
    {a : α} (ha : a ∈ picked) : ∃ alternatives ∈ choices, a ∈ alternatives := by
  induction h with
  | nil => cases ha
  | cons hhead _ ih =>
    rcases List.mem_cons.mp ha with rfl | ha
    · exact ⟨_, List.mem_cons_self, hhead⟩
    · obtain ⟨alternatives, hmem, ha⟩ := ih ha
      exact ⟨alternatives, List.mem_cons_of_mem _ hmem, ha⟩

theorem IsPick.exists_of_mem {choices : List (List α)} {picked : List α} (h : IsPick choices picked)
    {alternatives : List α} (hmem : alternatives ∈ choices) : ∃ a ∈ picked, a ∈ alternatives := by
  induction h with
  | nil => cases hmem
  | cons hhead _ ih =>
    rcases List.mem_cons.mp hmem with rfl | hmem
    · exact ⟨_, List.mem_cons_self, hhead⟩
    · obtain ⟨a, ha, hin⟩ := ih hmem
      exact ⟨a, List.mem_cons_of_mem _ ha, hin⟩

theorem exists_pick_mem {choices : List (List α)}
    (hne : ∀ alternatives ∈ choices, alternatives ≠ [])
    {alternatives : List α} (hmem : alternatives ∈ choices) {a : α} (ha : a ∈ alternatives) :
    ∃ picked, IsPick choices picked ∧ a ∈ picked := by
  induction choices with
  | nil => cases hmem
  | cons first choices ih =>
    have hrest : ∀ others ∈ choices, ∃ b ∈ others, True := fun others hothers => by
      obtain ⟨b, hb⟩ := List.exists_mem_of_ne_nil _ (hne others (List.mem_cons_of_mem _ hothers))
      exact ⟨b, hb, trivial⟩
    rcases List.mem_cons.mp hmem with rfl | hmem
    · obtain ⟨picked, hpicked, -⟩ := exists_pick hrest
      exact ⟨a :: picked, List.Forall₂.cons ha hpicked, List.mem_cons_self⟩
    · obtain ⟨b, hb⟩ := List.exists_mem_of_ne_nil _ (hne first List.mem_cons_self)
      obtain ⟨picked, hpicked, hin⟩ := ih (fun others hothers =>
        hne others (List.mem_cons_of_mem _ hothers)) hmem
      exact ⟨b :: picked, List.Forall₂.cons hb hpicked, List.mem_cons_of_mem _ hin⟩

theorem exists_pick_map {β : Type*} {f : α → β} {choices : List (List α)} {picked : List β}
    (h : IsPick (choices.map (List.map f)) picked) :
    ∃ originals, IsPick choices originals ∧ picked = originals.map f := by
  induction choices generalizing picked with
  | nil =>
    cases h
    exact ⟨[], List.Forall₂.nil, rfl⟩
  | cons alternatives choices ih =>
    cases h with
    | cons hhead htail =>
      obtain ⟨a, ha, rfl⟩ := List.mem_map.mp hhead
      obtain ⟨originals, horiginals, rfl⟩ := ih htail
      exact ⟨a :: originals, List.Forall₂.cons ha horiginals, rfl⟩

theorem IsPick.map {β : Type*} (f : α → β) {choices : List (List α)} {picked : List α}
    (h : IsPick choices picked) : IsPick (choices.map (List.map f)) (picked.map f) := by
  induction h with
  | nil => exact List.Forall₂.nil
  | cons hhead _ ih => exact List.Forall₂.cons (List.mem_map_of_mem hhead) ih

theorem IsPick.map_sublist {γ : Type*} {key : α → γ} {g : γ → Option (List α)} {cs : List γ}
    (hkey : ∀ c alternatives, g c = some alternatives → ∀ a ∈ alternatives, key a = c)
    {picked : List α} (h : IsPick (cs.filterMap g) picked) : (picked.map key).Sublist cs := by
  induction cs generalizing picked with
  | nil =>
    cases h
    exact List.Sublist.refl _
  | cons c cs ih =>
    cases hc : g c with
    | none =>
      rw [List.filterMap_cons_none hc] at h
      exact (ih h).cons c
    | some alternatives =>
      rw [List.filterMap_cons_some hc] at h
      cases h with
      | cons hhead htail =>
        rw [List.map_cons, hkey c alternatives hc _ hhead]
        exact (ih htail).cons_cons c

theorem isPick_filterMap {γ : Type*} {f : γ → Option α} {g : γ → Option (List α)} {cs : List γ}
    (h : ∀ c ∈ cs, (f c = none ∧ g c = none) ∨ ∃ a alternatives, f c = some a ∧
      g c = some alternatives ∧ a ∈ alternatives) :
    IsPick (cs.filterMap g) (cs.filterMap f) := by
  induction cs with
  | nil => exact List.Forall₂.nil
  | cons c cs ih =>
    have hrest := ih fun d hd => h d (List.mem_cons_of_mem _ hd)
    obtain ⟨hf, hg⟩ | ⟨a, alternatives, hf, hg, ha⟩ := h c List.mem_cons_self
    · rwa [List.filterMap_cons_none hf, List.filterMap_cons_none hg]
    · rw [List.filterMap_cons_some hf, List.filterMap_cons_some hg]
      exact List.Forall₂.cons ha hrest

variable (items : α → List τ) (fixed : List τ)

/-- An item is there anyway, or with some alternative that was taken. -/
def Collected (picked : List α) (x : τ) : Prop := x ∈ fixed ∨ ∃ a ∈ picked, x ∈ items a

/-- Each item of an alternative is there anyway, or with all alternatives of some choice. -/
def Settled (choices : List (List α)) : Prop :=
  ∀ alternatives ∈ choices, ∀ a ∈ alternatives, ∀ x ∈ items a,
    x ∈ fixed ∨ ∃ others ∈ choices, ∀ b ∈ others, x ∈ items b

theorem collected_iff_settled {choices : List (List α)}
    (hne : ∀ alternatives ∈ choices, alternatives ≠ []) :
    (∀ p p', IsPick choices p → IsPick choices p' →
        ∀ x, Collected items fixed p x ↔ Collected items fixed p' x) ↔
      Settled items fixed choices := by
  constructor
  · intro hsame alternatives hmem a ha x hx
    by_contra hnot
    push Not at hnot
    obtain ⟨hfixed, hothers⟩ := hnot
    obtain ⟨p, hp, hap⟩ := exists_pick_mem hne hmem ha
    obtain ⟨p', hp', hwithout⟩ := exists_pick hothers
    obtain h | ⟨b, hb, hxb⟩ := (hsame p p' hp hp' x).mp (.inr ⟨a, hap, hx⟩)
    · exact hfixed h
    · exact hwithout b hb hxb
  · intro hsettled
    have hle : ∀ p p', IsPick choices p → IsPick choices p' →
        ∀ x, Collected items fixed p x → Collected items fixed p' x := by
      rintro p p' hp hp' x (hx | ⟨a, ha, hx⟩)
      · exact .inl hx
      · obtain ⟨alternatives, hmem, ha⟩ := hp.exists_mem ha
        obtain hx | ⟨others, hothers, hall⟩ := hsettled alternatives hmem a ha x hx
        · exact .inl hx
        · obtain ⟨b, hb, hin⟩ := hp'.exists_of_mem hothers
          exact .inr ⟨b, hb, hall b hin⟩
    exact fun p p' hp hp' x => ⟨hle p p' hp hp' x, hle p' p hp' hp x⟩

end Dayjaview
