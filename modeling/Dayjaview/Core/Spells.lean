import Mathlib.Data.List.Basic
import Mathlib.Order.Lattice
import Mathlib.Data.List.Infix
import Mathlib.Tactic.Common

/-!
# Spells

Days in increasing order are marked, known to be unmarked, or unknown. A spell begins
with a marked day and is closed by the first of so many unmarked days in a row; an
unknown day proves nothing. The scan that finds the spells day by day finds exactly
the ones that this describes.
-/

namespace Dayjaview

variable {α : Type} [LinearOrder α]

structure Spell (α : Type) where
  first : α
  last : α
  closed : Option α
  gap : Option Nat
  deriving DecidableEq

variable {days : List α} {known : α → Option Bool} {K : Nat} {gap : α → α → Option Nat}

namespace Spell

/-- Some days lie after another day and are all known to be unmarked. -/
def Unmarked (known : α → Option Bool) (after : α) (run : List α) : Prop :=
  ∀ d ∈ run, after < d ∧ known d = some false

/-- So many days ending with a day lie after another day and are all known to be unmarked. -/
def Confirms (days : List α) (known : α → Option Bool) (K : Nat) (after day : α) : Prop :=
  ∃ before run, before ++ run <+: days ∧ run.length = K ∧ run.getLast? = some day ∧
    Unmarked known after run

def IsFirst (p : α → Prop) (day : α) : Prop := p day ∧ ∀ d, p d → day ≤ d

/-- A spell begins and ends with marked days, no so many unmarked days in a row are inside it, and
the first so many after it close it. -/
structure Fits (days : List α) (known : α → Option Bool) (K : Nat) (s : Spell α) : Prop where
  first : s.first ∈ days ∧ known s.first = some true
  last : s.last ∈ days ∧ known s.last = some true
  first_le_last : s.first ≤ s.last
  unbroken : ∀ d ≤ s.last, ¬ Confirms days known K s.first d
  closes : ∀ d, s.closed = some d ↔ IsFirst (Confirms days known K s.last) d

/-- A spell is over before another one begins. -/
def Before (s t : Spell α) : Prop := s.last < t.first ∧ ∃ d, s.closed = some d ∧ d < t.first

/-- The gap of every spell is counted from the spell before it. -/
def Gaps (gap : α → α → Option Nat) (spells : List (Spell α)) : Prop :=
  ∀ before s after, spells = before ++ s :: after →
    s.gap = before.getLast?.bind fun p => gap p.last s.first

structure Describes (days : List α) (known : α → Option Bool) (K : Nat)
    (gap : α → α → Option Nat) (spells : List (Spell α)) : Prop where
  fits : ∀ s ∈ spells, s.Fits days known K
  ordered : spells.Pairwise Before
  covers : ∀ d ∈ days, known d = some true → ∃ s ∈ spells, s.first ≤ d ∧ d ≤ s.last
  gaps : Gaps gap spells

theorem Confirms.day {after day : α} (h : Confirms days known K after day) :
    day ∈ days ∧ after < day ∧ known day = some false := by
  obtain ⟨before, run, hbegins, -, hlast, hrun⟩ := h
  have hmem := List.mem_of_getLast? hlast
  exact ⟨hbegins.subset (List.mem_append_right _ hmem), hrun day hmem⟩

theorem Confirms.mono {after after' day : α} (h : Confirms days known K after day)
    (hle : after' ≤ after) : Confirms days known K after' day := by
  obtain ⟨before, run, hbegins, hlength, hlast, hrun⟩ := h
  exact ⟨before, run, hbegins, hlength, hlast, fun d hd =>
    ⟨hle.trans_lt (hrun d hd).1, (hrun d hd).2⟩⟩

theorem confirms_concat {after day e : α} :
    Confirms (days ++ [e]) known K after day ↔ Confirms days known K after day ∨
      (day = e ∧ after < e ∧ known e = some false ∧
        ∃ run, run <:+ days ∧ run.length + 1 = K ∧ Unmarked known after run) := by
  constructor
  · rintro ⟨before, run, hbegins, hlength, hlast, hrun⟩
    rcases List.prefix_concat_iff.mp hbegins with heq | hbegins
    · right
      obtain ⟨run, rfl⟩ := List.getLast?_eq_some_iff.mp hlast
      rw [← List.append_assoc] at heq
      obtain ⟨rfl, he⟩ := List.append_inj' heq rfl
      obtain rfl := List.singleton_inj.mp he
      have hday := hrun day (by simp)
      refine ⟨rfl, hday.1, hday.2, run, List.suffix_append _ _, by simpa using hlength, ?_⟩
      intro d hd
      exact hrun d (List.mem_append_left _ hd)
    · exact .inl ⟨before, run, hbegins, hlength, hlast, hrun⟩
  · rintro
      (⟨before, run, hbegins, hrest⟩ | ⟨rfl, hafter, hknown, run, ⟨before, rfl⟩, hlength, hrun⟩)
    · exact ⟨before, run, hbegins.trans (List.prefix_append _ _), hrest⟩
    · refine ⟨before, run ++ [day], by simp, by simpa using hlength, by simp, ?_⟩
      intro d hd
      rcases List.mem_append.mp hd with hd | hd
      · exact hrun d hd
      · obtain rfl := List.mem_singleton.mp hd
        exact ⟨hafter, hknown⟩

theorem Confirms.skip (hdays : days.Pairwise (· < ·)) {after marked day : α}
    (h : Confirms days known K after day) (hmem : marked ∈ days)
    (hmarked : known marked = some true)
    (hlt : marked < day) : Confirms days known K marked day := by
  obtain ⟨before, run, ⟨rest, rfl⟩, hlength, hlast, hrun⟩ := h
  refine ⟨before, run, List.prefix_append _ _, hlength, hlast, fun d hd => ⟨?_, (hrun d hd).2⟩⟩
  obtain ⟨hfront, -, hrest⟩ := List.pairwise_append.mp hdays
  have hbefore : marked ∈ before := by
    rcases List.mem_append.mp hmem with hmem | hmem
    · refine (List.mem_append.mp hmem).resolve_right fun hmem => ?_
      have hunmarked := (hrun marked hmem).2
      rw [hmarked] at hunmarked
      cases hunmarked
    · have hday := List.mem_append_right before (List.mem_of_getLast? hlast)
      exact absurd (hrest day hday marked hmem) (not_lt.mpr hlt.le)
  exact (List.pairwise_append.mp hfront).2.2 marked hbefore d hd

omit [LinearOrder α] in
theorem gaps_concat {spells : List (Spell α)} {s : Spell α} :
    Gaps gap (spells ++ [s]) ↔
      Gaps gap spells ∧ s.gap = spells.getLast?.bind fun p => gap p.last s.first := by
  constructor
  · intro h
    refine ⟨fun before t after heq => h before t (after ++ [s]) (by simp [heq]), h spells s [] rfl⟩
  · rintro ⟨h, hs⟩ before t after heq
    rcases List.eq_nil_or_concat after with rfl | ⟨after, u, rfl⟩
    · obtain ⟨rfl, ht⟩ := List.append_inj' heq rfl
      obtain rfl := List.singleton_inj.mp ht
      exact hs
    · rw [List.concat_eq_append, ← List.cons_append, ← List.append_assoc] at heq
      exact h before t after (List.append_inj' heq rfl).1

theorem Confirms.le_length_filter {after day later : α} (h : Confirms days known K after day)
    (hdays : days.Pairwise (· < ·)) (hlt : day < later) :
    K ≤ (days.filter fun d => after < d ∧ d < later).length := by
  obtain ⟨before, run, hbegins, rfl, hlast, hrun⟩ := h
  have hsorted := (List.pairwise_append.mp (hdays.sublist hbegins.sublist)).2.1
  obtain ⟨front, rfl⟩ := List.getLast?_eq_some_iff.mp hlast
  have hself : (front ++ [day]).filter (fun d => decide (after < d ∧ d < later)) = front ++
      [day] := by
    refine List.filter_eq_self.mpr fun d hd => decide_eq_true ⟨(hrun d hd).1, ?_⟩
    rcases List.mem_append.mp hd with hmem | hmem
    · exact ((List.pairwise_append.mp hsorted).2.2 d hmem day (List.mem_singleton_self day)).trans
        hlt
    · exact List.mem_singleton.mp hmem ▸ hlt
  rw [← hself]
  exact (((List.suffix_append before _).sublist.trans hbegins.sublist).filter _).length_le

/-- Marked days of a kind are covered by some spells. -/
private def Covered (days : List α) (known : α → Option Bool) (later : α → Prop)
    (spells : List (Spell α)) : Prop :=
  (∀ s ∈ spells, later s.first) ∧
    ∀ d ∈ days, known d = some true → later d → ∃ s ∈ spells, s.first ≤ d ∧ d ≤ s.last

private theorem first_le {later : α → Prop} {s : Spell α} {spells : List (Spell α)} {t : Spell α}
    (hcovered : Covered days known later (s :: spells))
    (hordered : (s :: spells).Pairwise Before)
    (hfits : ∀ s' ∈ s :: spells, s'.Fits days known K) (ht : t.Fits days known K)
    (hlater : later t.first) : s.first ≤ t.first := by
  obtain ⟨u, hu, hfirst, -⟩ := hcovered.2 t.first ht.first.1 ht.first.2 hlater
  rcases List.mem_cons.mp hu with rfl | hu
  · exact hfirst
  · have hlt := ((List.pairwise_cons.mp hordered).1 u hu).1
    exact ((hfits s (List.mem_cons_self ..)).first_le_last.trans hlt.le).trans hfirst

private theorem last_le {later : α → Prop} {s : Spell α} {spells : List (Spell α)} {t : Spell α}
    (hcovered : Covered days known later (s :: spells))
    (hordered : (s :: spells).Pairwise Before)
    (hfits : ∀ s' ∈ s :: spells, s'.Fits days known K) (ht : t.Fits days known K)
    (hlater : later t.last) (hfirst : s.first = t.first) : t.last ≤ s.last := by
  by_contra hlt
  obtain ⟨u, hu, hle, hge⟩ := hcovered.2 t.last ht.last.1 ht.last.2 hlater
  rcases List.mem_cons.mp hu with rfl | hu
  · exact hlt hge
  · obtain ⟨-, c, hclosed, hc⟩ := (List.pairwise_cons.mp hordered).1 u hu
    have hs := hfits s (List.mem_cons_self ..)
    have hconfirms := ((hs.closes c).mp hclosed).1.mono hs.first_le_last
    rw [hfirst] at hconfirms
    exact ht.unbroken c (hc.le.trans hle) hconfirms

private theorem Covered.tail {later : α → Prop} (hup : ∀ x y, later x → x ≤ y → later y)
    {s : Spell α} {spells : List (Spell α)} (hcovered : Covered days known later (s :: spells))
    (hordered : (s :: spells).Pairwise Before)
    (hs : s.Fits days known K) : Covered days known (s.last < ·) spells := by
  refine ⟨fun t ht => ((List.pairwise_cons.mp hordered).1 t ht).1, fun d hd hknown hlater => ?_⟩
  have hfirst := hcovered.1 s (List.mem_cons_self ..)
  obtain ⟨t, ht, hle, hge⟩ := hcovered.2 d hd hknown
    (hup _ _ hfirst (hs.first_le_last.trans hlater.le))
  rcases List.mem_cons.mp ht with rfl | ht
  · exact absurd hge (not_le.mpr hlater)
  · exact ⟨t, ht, hle, hge⟩

private theorem unique_of_covered (before : List (Spell α)) (later : α → Prop)
    {spells spells' : List (Spell α)} (hup : ∀ x y, later x → x ≤ y → later y)
    (hfits : ∀ s ∈ spells, s.Fits days known K) (hfits' : ∀ s ∈ spells', s.Fits days known K)
    (hordered : spells.Pairwise Before)
    (hordered' : spells'.Pairwise Before)
    (hcovered : Covered days known later spells) (hcovered' : Covered days known later spells')
    (hgaps : Gaps gap (before ++ spells)) (hgaps' : Gaps gap (before ++ spells')) :
    spells = spells' := by
  -- the induction goes spell by spell; what is still to be covered lies after the last one
  induction spells generalizing spells' before later with
  | nil =>
    cases spells' with
    | nil => rfl
    | cons t spells' =>
      have ht := hfits' t (List.mem_cons_self ..)
      obtain ⟨s, hs, -⟩ := hcovered.2 t.first ht.first.1 ht.first.2
        (hcovered'.1 t (List.mem_cons_self ..))
      cases hs
  | cons s spells ih =>
    have hs := hfits s (List.mem_cons_self ..)
    have hslater := hcovered.1 s (List.mem_cons_self ..)
    cases spells' with
    | nil =>
      obtain ⟨t, ht, -⟩ := hcovered'.2 s.first hs.first.1 hs.first.2 hslater
      cases ht
    | cons t spells' =>
      have ht := hfits' t (List.mem_cons_self ..)
      have htlater := hcovered'.1 t (List.mem_cons_self ..)
      have hfirst : s.first = t.first := le_antisymm
        (first_le hcovered hordered hfits ht htlater)
        (first_le hcovered' hordered' hfits' hs hslater)
      have hlast : s.last = t.last := le_antisymm
        (last_le hcovered' hordered' hfits' hs (hup _ _ hslater hs.first_le_last) hfirst.symm)
        (last_le hcovered hordered hfits ht (hup _ _ htlater ht.first_le_last) hfirst)
      have hclosed : s.closed = t.closed := by
        refine Option.ext fun d => ?_
        rw [hs.closes, ht.closes, hlast]
      have hgap : s.gap = t.gap := by
        rw [hgaps before s spells rfl, hgaps' before t spells' rfl, hfirst]
      obtain rfl : s = t := by
        cases s
        cases t
        simp only at hfirst hlast hclosed hgap
        rw [hfirst, hlast, hclosed, hgap]
      refine congrArg _ (ih (before ++ [s]) (s.last < ·) (fun x y hx hxy => hx.trans_le hxy)
        (fun u hu => hfits u (List.mem_cons_of_mem _ hu))
        (fun u hu => hfits' u (List.mem_cons_of_mem _ hu))
        (List.pairwise_cons.mp hordered).2 (List.pairwise_cons.mp hordered').2
        (hcovered.tail hup hordered hs) (hcovered'.tail hup hordered' hs) ?_ ?_)
      · rw [List.append_assoc]
        exact hgaps
      · rw [List.append_assoc]
        exact hgaps'

theorem Describes.closed {spells : List (Spell α)} {s : Spell α}
    (h : Describes days known K gap (spells ++ [s])) {p : Spell α} (hp : p ∈ spells) :
    ∃ d, p.closed = some d ∧ d < s.first :=
  ((List.pairwise_append.mp h.ordered).2.2 p hp s (List.mem_singleton_self s)).2

theorem Describes.le_length_between {front back : List (Spell α)} {p s : Spell α}
    (h : Describes days known K gap (front ++ s :: back)) (hp : front.getLast? = some p)
    (hdays : days.Pairwise (· < ·)) :
    K ≤ (days.filter fun d => p.last < d ∧ d < s.first).length := by
  have hmem := List.mem_of_getLast? hp
  obtain ⟨-, d, hd, hlt⟩ := (List.pairwise_append.mp h.ordered).2.2 p hmem s (List.mem_cons_self ..)
  have hfits := h.fits p (List.mem_append_left _ hmem)
  exact ((hfits.closes d).mp hd).1.le_length_filter hdays hlt

theorem Describes.unique {spells spells' : List (Spell α)} (h : Describes days known K gap spells)
    (h' : Describes days known K gap spells') : spells = spells' :=
  unique_of_covered [] (fun _ => True) (fun _ _ _ _ => trivial) h.fits h'.fits h.ordered
    h'.ordered ⟨fun _ _ => trivial, fun d hd hknown _ => h.covers d hd hknown⟩
    ⟨fun _ _ => trivial, fun d hd hknown _ => h'.covers d hd hknown⟩ h.gaps h'.gaps

end Spell

structure SpellScan (α : Type) where
  completed : List (Spell α)
  active : Option (Spell α)
  streak : Nat

namespace SpellScan

def start : SpellScan α := ⟨[], none, 0⟩

/-- The spells, the open one last. -/
def spells (s : SpellScan α) : List (Spell α) := s.completed ++ s.active.toList

def step (known : α → Option Bool) (gap : α → α → Option Nat) (K : Nat) (s : SpellScan α)
    (day : α) : SpellScan α :=
  match s.active with
  | none =>
    if known day = some true then
      { s with
        active := some ⟨day, day, none, s.completed.getLast?.bind fun p => gap p.last day⟩
        streak := 0 }
    else s
  | some active =>
    match known day with
    | some true => { s with active := some { active with last := day }, streak := 0 }
    | some false =>
      if K ≤ s.streak + 1 then ⟨s.completed ++ [{ active with closed := some day }], none, 0⟩
      else { s with streak := s.streak + 1 }
    | none => { s with streak := 0 }

def run (known : α → Option Bool) (gap : α → α → Option Nat) (K : Nat) (days : List α) :
    SpellScan α :=
  days.foldl (step known gap K) start

/-- The scan has found the spells of the days so far. -/
structure Tracks (days : List α) (known : α → Option Bool) (K : Nat) (gap : α → α → Option Nat)
    (s : SpellScan α) : Prop where
  describes : Spell.Describes days known K gap s.spells
  completed : ∀ p ∈ s.completed, ∃ d, p.closed = some d
  active : ∀ a ∈ s.active, a.closed = none
  unconfirmed : ∀ a ∈ s.active, ∀ d, ¬ Spell.Confirms days known K a.last d
  streak : ∀ a ∈ s.active, s.streak < K ∧
    (∃ run, run <:+ days ∧ run.length = s.streak ∧ Spell.Unmarked known a.last run) ∧
      ∀ run, run <:+ days → Spell.Unmarked known a.last run → run.length ≤ s.streak

end SpellScan

namespace Spell

variable {e : α} {s : Spell α}

theorem none_eq_some_iff_isFirst {p : α → Prop} (hp : ∀ d, ¬ p d) (d : α) :
    none = some d ↔ IsFirst p d :=
  ⟨fun h => (by cases h), fun h => absurd h.1 (hp d)⟩

theorem Fits.concat (h : s.Fits days known K) (he : ∀ d ∈ days, d < e) {closed : Option α}
    (hcloses : ∀ d, closed = some d ↔ IsFirst (Confirms (days ++ [e]) known K s.last) d) :
    ({ s with closed } : Spell α).Fits (days ++ [e]) known K where
  first := ⟨List.mem_append_left _ h.first.1, h.first.2⟩
  last := ⟨List.mem_append_left _ h.last.1, h.last.2⟩
  first_le_last := h.first_le_last
  unbroken d hd hconfirms := by
    rcases confirms_concat.mp hconfirms with hconfirms | ⟨rfl, -⟩
    · exact h.unbroken d hd hconfirms
    · exact absurd (he _ h.last.1) (not_lt.mpr hd)
  closes := hcloses

theorem Fits.concat_closed (h : s.Fits days known K) (he : ∀ d ∈ days, d < e) {c : α}
    (hc : s.closed = some c) : s.Fits (days ++ [e]) known K := by
  have hfirst := (h.closes c).mp hc
  refine h.concat he fun d => ?_
  rw [h.closes]
  constructor
  · rintro ⟨hconfirms, hleast⟩
    refine ⟨confirms_concat.mpr (.inl hconfirms), fun d' hd' => ?_⟩
    rcases confirms_concat.mp hd' with hd' | ⟨rfl, -⟩
    · exact hleast d' hd'
    · exact (he d hconfirms.day.1).le
  · rintro ⟨hconfirms, hleast⟩
    rcases confirms_concat.mp hconfirms with hconfirms | ⟨rfl, -⟩
    · exact ⟨hconfirms, fun d' hd' => hleast d' (confirms_concat.mpr (.inl hd'))⟩
    · exact absurd (hleast c (confirms_concat.mpr (.inl hfirst.1)))
        (not_le.mpr (he c hfirst.1.day.1))

theorem Fits.concat_open (h : s.Fits days known K) (he : ∀ d ∈ days, d < e)
    (hopen : s.closed = none)
    (hconfirms : ∀ d, ¬ Confirms (days ++ [e]) known K s.last d) :
    s.Fits (days ++ [e]) known K := by
  refine h.concat he fun d => ?_
  rw [hopen]
  exact none_eq_some_iff_isFirst hconfirms d

theorem not_confirms_of_lt (he : ∀ d ∈ days, d < e) (d : α) :
    ¬ Confirms (days ++ [e]) known K e d := by
  intro hconfirms
  have hday := hconfirms.day
  rcases List.mem_append.mp hday.1 with hmem | hmem
  · exact absurd (he d hmem) (not_lt.mpr hday.2.1.le)
  · exact absurd (List.mem_singleton.mp hmem) hday.2.1.ne'

theorem Fits.extend (hdays : days.Pairwise (· < ·)) (h : s.Fits days known K)
    (he : ∀ d ∈ days, d < e)
    (hopen : s.closed = none) (hunconfirmed : ∀ d, ¬ Confirms days known K s.last d)
    (hknown : known e = some true) :
    ({ s with last := e } : Spell α).Fits (days ++ [e]) known K where
  first := ⟨List.mem_append_left _ h.first.1, h.first.2⟩
  last := ⟨by simp, hknown⟩
  first_le_last := (he _ h.first.1).le
  unbroken d _ hconfirms := by
    rcases confirms_concat.mp hconfirms with hconfirms | ⟨rfl, -, hunmarked, -⟩
    · by_cases hd : d ≤ s.last
      · exact h.unbroken d hd hconfirms
      · exact hunconfirmed d (hconfirms.skip hdays h.last.1 h.last.2 (not_le.mp hd))
    · rw [hknown] at hunmarked
      cases hunmarked
  closes d := by
    show s.closed = some d ↔ _
    rw [hopen]
    exact none_eq_some_iff_isFirst (not_confirms_of_lt he) d

theorem fits_new (he : ∀ d ∈ days, d < e) (hknown : known e = some true) (gap : Option Nat) :
    (⟨e, e, none, gap⟩ : Spell α).Fits (days ++ [e]) known K where
  first := ⟨by simp, hknown⟩
  last := ⟨by simp, hknown⟩
  first_le_last := le_refl e
  unbroken d _ := not_confirms_of_lt he d
  closes d := none_eq_some_iff_isFirst (not_confirms_of_lt he) d

theorem Fits.close (h : s.Fits days known K) (he : ∀ d ∈ days, d < e)
    (hunconfirmed : ∀ d, ¬ Confirms days known K s.last d)
    (hconfirms : Confirms (days ++ [e]) known K s.last e) :
    ({ s with closed := some e } : Spell α).Fits (days ++ [e]) known K := by
  refine h.concat he fun d => ?_
  constructor
  · rintro ⟨⟩
    refine ⟨hconfirms, fun d hd => ?_⟩
    rcases confirms_concat.mp hd with hd | ⟨rfl, -⟩
    · exact absurd hd (hunconfirmed d)
    · exact le_refl d
  · rintro ⟨hd, -⟩
    rcases confirms_concat.mp hd with hd | ⟨rfl, -⟩
    · exact absurd hd (hunconfirmed d)
    · rfl

variable {spells : List (Spell α)} {a a' : Spell α}

theorem Describes.keep (h : Describes days known K gap spells) (he : ∀ d ∈ days, d < e)
    (hclosed : ∀ p ∈ spells, ∃ d, p.closed = some d) (hknown : known e ≠ some true) :
    Describes (days ++ [e]) known K gap spells where
  fits p hp := (h.fits p hp).concat_closed he (hclosed p hp).choose_spec
  ordered := h.ordered
  covers d hd hmarked := by
    rcases List.mem_append.mp hd with hd | hd
    · exact h.covers d hd hmarked
    · obtain rfl := List.mem_singleton.mp hd
      exact absurd hmarked hknown
  gaps := h.gaps

theorem Describes.begin (h : Describes days known K gap spells) (he : ∀ d ∈ days, d < e)
    (hclosed : ∀ p ∈ spells, ∃ d, p.closed = some d) (hknown : known e = some true) :
    Describes (days ++ [e]) known K gap
      (spells ++ [⟨e, e, none, spells.getLast?.bind fun p => gap p.last e⟩]) where
  fits p hp := by
    rcases List.mem_append.mp hp with hp | hp
    · exact (h.fits p hp).concat_closed he (hclosed p hp).choose_spec
    · obtain rfl := List.mem_singleton.mp hp
      exact fits_new he hknown _
  ordered := by
    refine List.pairwise_append.mpr ⟨h.ordered, List.pairwise_singleton _ _, fun p hp q hq => ?_⟩
    obtain rfl := List.mem_singleton.mp hq
    obtain ⟨d, hd⟩ := hclosed p hp
    exact ⟨he _ (h.fits p hp).last.1, d, hd, he d (((h.fits p hp).closes d).mp hd).1.day.1⟩
  covers d hd hmarked := by
    rcases List.mem_append.mp hd with hd | hd
    · obtain ⟨p, hp, hcover⟩ := h.covers d hd hmarked
      exact ⟨p, List.mem_append_left _ hp, hcover⟩
    · obtain rfl := List.mem_singleton.mp hd
      exact ⟨_, List.mem_append_right _ (List.mem_singleton_self _), le_refl _, le_refl _⟩
  gaps := gaps_concat.mpr ⟨h.gaps, rfl⟩

theorem Describes.replace (h : Describes days known K gap (spells ++ [a])) (he : ∀ d ∈ days, d < e)
    (hclosed : ∀ p ∈ spells, ∃ d, p.closed = some d) (hfits : a'.Fits (days ++ [e]) known K)
    (hfirst : a'.first = a.first) (hgap : a'.gap = a.gap) (hlast : a.last ≤ a'.last)
    (hmarked : known e = some true → e ≤ a'.last) :
    Describes (days ++ [e]) known K gap (spells ++ [a']) where
  fits p hp := by
    rcases List.mem_append.mp hp with hmem | hmem
    · exact (h.fits p (List.mem_append_left _ hmem)).concat_closed he (hclosed p hmem).choose_spec
    · obtain rfl := List.mem_singleton.mp hmem
      exact hfits
  ordered := by
    obtain ⟨hspells, -, hbefore⟩ := List.pairwise_append.mp h.ordered
    refine List.pairwise_append.mpr ⟨hspells, List.pairwise_singleton _ _, fun p hp q hq => ?_⟩
    obtain rfl := List.mem_singleton.mp hq
    have hpa := hbefore p hp a (List.mem_singleton_self _)
    rwa [Before, ← hfirst] at hpa
  covers d hd hknown := by
    rcases List.mem_append.mp hd with hd | hd
    · obtain ⟨p, hp, hle, hge⟩ := h.covers d hd hknown
      rcases List.mem_append.mp hp with hp | hp
      · exact ⟨p, List.mem_append_left _ hp, hle, hge⟩
      · obtain rfl := List.mem_singleton.mp hp
        exact ⟨a', by simp, hfirst ▸ hle, hge.trans hlast⟩
    · obtain rfl := List.mem_singleton.mp hd
      refine ⟨a', by simp, ?_, hmarked hknown⟩
      rw [hfirst]
      exact (he _ (h.fits a (by simp)).first.1).le
  gaps := by
    obtain ⟨hgaps, ha⟩ := gaps_concat.mp h.gaps
    exact gaps_concat.mpr ⟨hgaps, by rw [hgap, hfirst, ha]⟩

end Spell

namespace SpellScan

open Spell

variable {s : SpellScan α} {e : α}

theorem tracks_start : (start : SpellScan α).Tracks [] known K gap where
  describes := ⟨by simp [spells, start], by simp [spells, start], by simp, by
    intro before s after heq
    simp [spells, start] at heq⟩
  completed := by simp [start]
  active := by simp [start]
  unconfirmed := by simp [start]
  streak := by simp [start]

theorem unmarked_suffix {after : α} {run : List α} (hsuffix : run <:+ days ++ [e])
    (hrun : Unmarked known after run) : run = [] ∨ ∃ front, run = front ++ [e] ∧ front <:+ days ∧
      Unmarked known after front ∧ after < e ∧ known e = some false := by
  rcases List.suffix_concat_iff.mp hsuffix with rfl | ⟨front, rfl, hfront⟩
  · exact .inl rfl
  · have hlast := hrun e (by simp)
    exact .inr ⟨front, rfl, hfront, fun d hd => hrun d (by simp [hd]), hlast⟩

theorem streak_zero (hK : 1 ≤ K) {after : α} (he : known e = some false → e ≤ after) :
    0 < K ∧ (∃ run, run <:+ days ++ [e] ∧ run.length = 0 ∧ Unmarked known after run) ∧
      ∀ run, run <:+ days ++ [e] → Unmarked known after run → run.length ≤ 0 := by
  refine ⟨hK, ⟨[], List.nil_suffix, rfl, by simp [Unmarked]⟩, fun run hsuffix hrun => ?_⟩
  rcases unmarked_suffix hsuffix hrun with rfl | ⟨front, rfl, -, -, hlt, hknown⟩
  · rfl
  · exact absurd (he hknown) (not_le.mpr hlt)

theorem Tracks.step (hK : 1 ≤ K) (h : s.Tracks days known K gap)
    (hdays : (days ++ [e]).Pairwise (· < ·)) :
    (s.step known gap K e).Tracks (days ++ [e]) known K gap := by
  obtain ⟨completed, active, streak⟩ := s
  obtain ⟨hbefore, -, hlater⟩ := List.pairwise_append.mp hdays
  have he : ∀ d ∈ days, d < e := fun d hd => hlater d hd e (List.mem_singleton_self e)
  obtain ⟨hdescribes, hcompleted, hactive, hunconfirmed, hstreak⟩ := h
  cases active with
  | none =>
    simp only [spells, Option.toList_none, List.append_nil] at hdescribes
    unfold SpellScan.step
    dsimp only
    split
    · next hknown =>
      refine ⟨hdescribes.begin he hcompleted hknown, hcompleted, by simp, ?_, ?_⟩
      · rintro a ⟨⟩
        exact not_confirms_of_lt he
      · rintro a ⟨⟩
        exact streak_zero hK fun _ => le_refl e
    · next hknown =>
      exact ⟨by simpa [spells] using hdescribes.keep he hcompleted hknown, hcompleted, by
        simp, by simp, by simp⟩
  | some a =>
    have hopen := hactive a rfl
    have hnone := hunconfirmed a rfl
    obtain ⟨hlt, ⟨run, hsuffix, hlength, hrun⟩, hmost⟩ := hstreak a rfl
    dsimp only at hlt hlength hmost
    simp only [spells, Option.toList_some] at hdescribes
    have hfits := hdescribes.fits a (by simp)
    have hlast := he _ hfits.last.1
    unfold SpellScan.step
    dsimp only
    split
    · next hknown =>
      refine ⟨hdescribes.replace he hcompleted (hfits.extend hbefore he hopen hnone hknown) rfl rfl
        hlast.le fun _ => le_refl e, hcompleted, ?_, ?_, ?_⟩
      · rintro _ ⟨⟩
        exact hopen
      · rintro _ ⟨⟩
        exact not_confirms_of_lt he
      · rintro _ ⟨⟩
        exact streak_zero hK fun _ => le_refl e
    · next hknown =>
      have hmarked : known e ≠ some true := by simp [hknown]
      split
      · next hclose =>
        -- the streak and this day are enough; what is needed of them closes the spell
        have hconfirms : Confirms (days ++ [e]) known K a.last e := by
          refine confirms_concat.mpr (.inr ⟨rfl, hlast, hknown, run, hsuffix, ?_, hrun⟩)
          omega
        have hreplaced : Describes (days ++ [e]) known K gap (_ ++ [{ a with closed := some e }]) :=
          hdescribes.replace he hcompleted (hfits.close he hnone hconfirms) rfl rfl (le_refl _)
            fun h => absurd h hmarked
        refine ⟨by simpa [spells] using hreplaced, fun p hp => ?_, by simp, by simp, by simp⟩
        rcases List.mem_append.mp hp with hp | hp
        · exact hcompleted p hp
        · obtain rfl := List.mem_singleton.mp hp
          exact ⟨e, rfl⟩
      · next hclose =>
        have hstill : ∀ d, ¬ Confirms (days ++ [e]) known K a.last d := by
          intro d hd
          rcases confirms_concat.mp hd with hd | ⟨-, -, -, run', hsuffix', hlength', hrun'⟩
          · exact hnone d hd
          · have hle := hmost run' hsuffix' hrun'
            omega
        refine ⟨hdescribes.replace he hcompleted (hfits.concat_open he hopen hstill) rfl rfl
          (le_refl _) fun h => absurd h hmarked, hcompleted, hactive, ?_, ?_⟩
        · rintro _ ⟨⟩
          exact hstill
        · rintro _ ⟨⟩
          refine ⟨by dsimp only; omega, ⟨run ++ [e], ?_, by simp [hlength], ?_⟩,
            fun run' hsuffix' hrun' => ?_⟩
          · obtain ⟨front, rfl⟩ := hsuffix
            exact ⟨front, by simp⟩
          · intro d hd
            rcases List.mem_append.mp hd with hd | hd
            · exact hrun d hd
            · obtain rfl := List.mem_singleton.mp hd
              exact ⟨hlast, hknown⟩
          · rcases unmarked_suffix hsuffix' hrun' with rfl | ⟨front, rfl, hfront, hunmarked, -⟩
            · simp
            · have hle := hmost front hfront hunmarked
              simpa using hle
    · next hknown =>
      have hstill : ∀ d, ¬ Confirms (days ++ [e]) known K a.last d := by
        intro d hd
        rcases confirms_concat.mp hd with hd | ⟨-, -, hunmarked, -⟩
        · exact hnone d hd
        · rw [hknown] at hunmarked
          cases hunmarked
      refine ⟨hdescribes.replace he hcompleted (hfits.concat_open he hopen hstill) rfl rfl
        (le_refl _) fun h => by simp [hknown] at h, hcompleted, hactive, ?_, ?_⟩
      · rintro _ ⟨⟩
        exact hstill
      · rintro _ ⟨⟩
        exact streak_zero hK fun h => by simp [hknown] at h

theorem tracks_run (hK : 1 ≤ K) (hdays : days.Pairwise (· < ·)) :
    (run known gap K days).Tracks days known K gap := by
  induction days using List.reverseRecOn with
  | nil => exact tracks_start
  | append_singleton days e ih =>
    rw [run, List.foldl_append, List.foldl_cons, List.foldl_nil]
    exact (ih (List.pairwise_append.mp hdays).1).step hK hdays

theorem describes_iff (hK : 1 ≤ K) (hdays : days.Pairwise (· < ·)) {list : List (Spell α)} :
    Describes days known K gap list ↔ list = (run known gap K days).spells := by
  have hrun : Describes days known K gap (run known gap K days).spells :=
    (tracks_run hK hdays).describes
  exact ⟨fun h => h.unique hrun, fun h => h ▸ hrun⟩

/-- A scan of later days only, and one of all days. What the first one knows of the spell before the
next one, the second one knows as well. -/
inductive Synchronised : SpellScan α → SpellScan α → Prop where
  /-- The first scan has found nothing yet. -/
  | nothing (t : SpellScan α) : Synchronised ⟨[], none, 0⟩ t
  /-- Both are in a spell with the same end, and the first scan does not know another gap. -/
  | inside {completed completed' : List (Spell α)} {a a' : Spell α} {streak : Nat}
      (hlast : a.last = a'.last) (hgap : a.gap = none ∨ a.gap = a'.gap) :
      Synchronised ⟨completed, some a, streak⟩ ⟨completed', some a', streak⟩
  /-- Both are after a spell with the same end. -/
  | after {completed completed' : List (Spell α)} {p p' : Spell α} {streak streak' : Nat}
      (hlast : p.last = p'.last) :
      Synchronised ⟨completed ++ [p], none, streak⟩ ⟨completed' ++ [p'], none, streak'⟩

variable {known' : α → Option Bool} {gap' : α → α → Option Nat} {t : SpellScan α}

omit [LinearOrder α] in
theorem Synchronised.step (h : Synchronised s t) (hknown : known' e = known e)
    (hgap : ∀ p ∈ s.completed, gap' p.last e = gap p.last e) :
    Synchronised (s.step known' gap' K e) (t.step known gap K e) := by
  unfold SpellScan.step
  rw [hknown]
  cases h with
  | nothing t =>
    obtain ⟨completed', active', streak'⟩ := t
    by_cases hmarked : known e = some true
    · cases active' with
      | none =>
        simp only [hmarked, if_true]
        exact .inside rfl (.inl rfl)
      | some a' =>
        simp only [hmarked, if_true]
        exact .inside rfl (.inl rfl)
    · simp only [hmarked, if_false]
      exact .nothing _
  | inside hlast hsame =>
    dsimp only
    split
    · exact .inside rfl hsame
    · split
      · exact .after hlast
      · exact .inside hlast hsame
    · exact .inside hlast hsame
  | @after completed completed' p p' streak streak' hlast =>
    dsimp only
    split
    · refine .inside rfl (.inr ?_)
      have hp : gap' p'.last e = gap p'.last e := hlast ▸ hgap p (by simp)
      simp [hp, hlast]
    · exact .after hlast

theorem synchronised_run {earlier : List α} (hK : 1 ≤ K) (hdays : days.Pairwise (· < ·))
    (hknown : ∀ d ∈ days, known' d = known d)
    (hgap : ∀ d ∈ days, ∀ d' ∈ days, gap' d d' = gap d d') :
    Synchronised (run known' gap' K days) (run known gap K (earlier ++ days)) := by
  induction days using List.reverseRecOn with
  | nil => exact .nothing _
  | append_singleton days e ih =>
    have hbefore := (List.pairwise_append.mp hdays).1
    have hwithin : ∀ d ∈ days, d ∈ days ++ [e] := fun d hd => List.mem_append_left _ hd
    have hsync := ih hbefore (fun d hd => hknown d (hwithin d hd))
      fun d hd d' hd' => hgap d (hwithin d hd) d' (hwithin d' hd')
    have htracks : (run known' gap' K days).Tracks days known' K gap' := tracks_run hK hbefore
    rw [← List.append_assoc, run, run, List.foldl_append, List.foldl_append (l := earlier ++ days)]
    refine hsync.step (hknown e (by simp)) fun p hp => ?_
    exact hgap _ (hwithin _ (htracks.describes.fits p (List.mem_append_left _ hp)).last.1) e
      (by simp)

def currentGap (s : SpellScan α) : Option Nat := s.active.bind Spell.gap

omit [LinearOrder α] in
theorem Synchronised.currentGap (h : Synchronised s t) {g : Nat} (hg : s.currentGap = some g) :
    t.currentGap = some g := by
  cases h with
  | nothing t => cases hg
  | inside hlast hgap =>
    simp only [SpellScan.currentGap, Option.bind_some] at hg ⊢
    rcases hgap with hnone | hgap
    · rw [hnone] at hg
      cases hg
    · rw [← hgap, hg]
  | after hlast => cases hg

end SpellScan

end Dayjaview
