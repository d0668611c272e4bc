import Dayjaview.Catalyst.Models
import Dayjaview.Core.Dict
import Dayjaview.Core.SlidingWindow

/-!
# Supplemental searches

A search for more news is granted only without local evidence, a while after the last one for the
same event, and while few enough were granted lately. The grants of a run keep all of these bounds,
although the gate forgets the grants that are long ago.
-/

namespace Dayjaview.Catalyst

open SlidingWindow

def SUPPLEMENTAL_COOLDOWN : Int := 600000000

inductive SupplementalDenial where
  | localEvidenceExists
  | cooldown
  | quotaExhausted
  deriving DecidableEq

/-- What is settled about an event, with the names to search for. -/
structure SupplementalContext extends ThemeContext where
  displayName : String
  synonyms : List String
  leaderNames : List String

structure SupplementalSearchRequest where
  eventId : String
  themeId : String
  queryTerms : List String
  requestedAt : Datetime

structure SupplementalDecision where
  request : Option SupplementalSearchRequest
  denial : Option SupplementalDenial

/-- The gate: its bounds, the last grant of each event, and the grants that were not forgotten. -/
structure SupplementalSearchGate where
  cooldown : Int := SUPPLEMENTAL_COOLDOWN
  quota : Int := 30
  window : Int := 3600000000
  lastRequest : Dict String Datetime := .empty
  calls : List Datetime := []

/-- The names to search for, each once. -/
def queryTerms (context : SupplementalContext) : List String :=
  (((context.displayName :: context.synonyms ++ context.leaderNames).map strip).filter
    (· ≠ "")).eraseDups

/-- Something asked of the gate. -/
structure SearchCall where
  context : SupplementalContext
  now : Datetime
  hasLocalEvidence : Bool

namespace SupplementalSearchGate

def request (g : SupplementalSearchGate) (call : SearchCall) :
    SupplementalDecision × SupplementalSearchGate :=
  if call.hasLocalEvidence then (⟨none, some .localEvidenceExists⟩, g)
  else if ∃ previous ∈ g.lastRequest.get? call.context.eventId,
      call.now.instant - previous.instant < g.cooldown then (⟨none, some .cooldown⟩, g)
  else
    let calls := g.calls.filter fun called => call.now.instant - called.instant < g.window
    if g.quota ≤ calls.length then (⟨none, some .quotaExhausted⟩, { g with calls })
    else
      (⟨some ⟨call.context.eventId, call.context.themeId, queryTerms call.context, call.now⟩, none⟩,
        { g with
          lastRequest := g.lastRequest.set call.context.eventId call.now
          calls := calls ++ [call.now] })

/-- Ask the gate several times. -/
def run (g : SupplementalSearchGate) :
    List SearchCall → List SupplementalDecision × SupplementalSearchGate
  | [] => ([], g)
  | call :: calls =>
    let answered := g.request call
    let rest := answered.2.run calls
    (answered.1 :: rest.1, rest.2)

def granted (g : SupplementalSearchGate) (calls : List SearchCall) :
    List SupplementalSearchRequest :=
  (g.run calls).1.filterMap SupplementalDecision.request

/-- How much of the quota is used at an instant. -/
def quotaUsed (g : SupplementalSearchGate) (now : Int) : Nat :=
  (recent g.window now (g.calls.map Datetime.instant)).length

variable {g g' : SupplementalSearchGate} {call : SearchCall}

theorem recent_calls (g : SupplementalSearchGate) (now : Datetime) :
    (g.calls.filter fun called => now.instant - called.instant < g.window).map Datetime.instant =
      recent g.window now.instant (g.calls.map Datetime.instant) := by
  rw [recent, List.filter_map]
  rfl

/-- A search may be granted as far as its event is concerned. -/
def Waited (g : SupplementalSearchGate) (call : SearchCall) : Prop :=
  ∀ previous ∈ g.lastRequest.get? call.context.eventId,
    g.cooldown ≤ call.now.instant - previous.instant

def grant (g : SupplementalSearchGate) (call : SearchCall) : SupplementalSearchGate :=
  { g with
    lastRequest := g.lastRequest.set call.context.eventId call.now
    calls := (g.calls.filter fun called => call.now.instant - called.instant < g.window) ++
      [call.now] }

/-- The search that is granted. -/
def searchOf (call : SearchCall) : SupplementalSearchRequest :=
  ⟨call.context.eventId, call.context.themeId, queryTerms call.context, call.now⟩

/-- Two gates answer alike from an instant on. -/
structure Alike (since : Int) (g g' : SupplementalSearchGate) : Prop where
  bounds : g.cooldown = g'.cooldown ∧ g.quota = g'.quota ∧ g.window = g'.window
  last : g.lastRequest = g'.lastRequest
  calls : SlidingWindow.Alike g.window since (g.calls.map Datetime.instant)
    (g'.calls.map Datetime.instant)

theorem Alike.refl (since : Int) (g : SupplementalSearchGate) : Alike since g g :=
  ⟨⟨rfl, rfl, rfl⟩, rfl, .refl _ _ _⟩

theorem Alike.later {since now : Int} (h : Alike since g g') (hle : since ≤ now) : Alike now g g' :=
  ⟨h.bounds, h.last, h.calls.later hle⟩

theorem Alike.quotaUsed {since now : Int} (h : Alike since g g') (hle : since ≤ now) :
    g.quotaUsed now = g'.quotaUsed now := by
  unfold SupplementalSearchGate.quotaUsed
  rw [h.calls now hle, h.bounds.2.2]

theorem request_cases (g : SupplementalSearchGate) (call : SearchCall) :
    (∃ denial g', g.request call = (⟨none, some denial⟩, g') ∧ Alike call.now.instant g g' ∧
        (denial = .quotaExhausted → g.quota ≤ g.quotaUsed call.now.instant)) ∨
      (g.Waited call ∧ (g.quotaUsed call.now.instant : Int) < g.quota ∧
        g.request call = (⟨some (searchOf call), none⟩, g.grant call)) := by
  have hused : g.quotaUsed call.now.instant =
      (g.calls.filter fun called => call.now.instant - called.instant < g.window).length := by
    rw [quotaUsed, ← recent_calls, List.length_map]
  unfold request
  split
  · exact .inl ⟨_, _, rfl, .refl _ _, fun h => by cases h⟩
  · split
    · exact .inl ⟨_, _, rfl, .refl _ _, fun h => by cases h⟩
    · next hwaited =>
      dsimp only
      split
      · next hfull =>
        refine .inl ⟨_, _, rfl, ⟨⟨rfl, rfl, rfl⟩, rfl, ?_⟩, fun _ => by rw [hused]; exact hfull⟩
        dsimp only
        rw [recent_calls]
        exact (alike_recent _ _ _).symm
      · next hroom =>
        refine .inr ⟨fun previous hprevious => ?_, by rw [hused]; exact not_le.mp hroom, rfl⟩
        exact not_lt.mp fun hlt => hwaited ⟨previous, hprevious, hlt⟩

theorem Alike.request {since : Int} (h : Alike since g g') (hle : since ≤ call.now.instant) :
    (g.request call).1 = (g'.request call).1 ∧
      Alike call.now.instant (g.request call).2 (g'.request call).2 := by
  have hcalls : (g.calls.filter fun called => call.now.instant - called.instant < g.window).map
        Datetime.instant =
      (g'.calls.filter fun called => call.now.instant - called.instant < g'.window).map
        Datetime.instant := by
    rw [recent_calls, recent_calls, ← h.bounds.2.2]
    exact h.calls _ hle
  have hlength := congrArg List.length hcalls
  rw [List.length_map, List.length_map] at hlength
  unfold SupplementalSearchGate.request
  rw [← h.last, ← h.bounds.1, ← h.bounds.2.1]
  split
  · exact ⟨rfl, h.later hle⟩
  · split
    · exact ⟨rfl, h.later hle⟩
    · dsimp only
      rw [← hlength]
      split
      · exact ⟨rfl, ⟨rfl, rfl, h.bounds.2.2⟩, rfl, fun later _ =>
          congrArg (recent g.window later) hcalls⟩
      · refine
          ⟨rfl, ⟨rfl, rfl, h.bounds.2.2⟩, rfl, fun later _ => congrArg (recent g.window later) ?_⟩
        rw [List.map_append, List.map_append, hcalls]

/-- The calls come in order, none before an instant. -/
def InOrder (since : Int) (calls : List SearchCall) : Prop :=
  (since :: calls.map fun call => call.now.instant).Pairwise (· ≤ ·)

theorem InOrder.head {since : Int} {calls : List SearchCall} (h : InOrder since (call :: calls)) :
    since ≤ call.now.instant ∧ InOrder call.now.instant calls := by
  obtain ⟨hfirst, hrest⟩ := List.pairwise_cons.mp h
  exact ⟨hfirst _ (List.mem_map_of_mem List.mem_cons_self), hrest⟩

theorem Alike.run {since : Int} {calls : List SearchCall} (h : Alike since g g')
    (horder : InOrder since calls) : (g.run calls).1 = (g'.run calls).1 := by
  induction calls generalizing since g g' with
  | nil => rfl
  | cons call calls ih =>
    obtain ⟨hle, horder⟩ := horder.head
    obtain ⟨hanswer, hafter⟩ := h.request hle
    exact congrArg₂ List.cons hanswer (ih hafter horder)

/-- What the gate knows of the grants so far. -/
structure Tracks (granted : List SupplementalSearchRequest) (since : Int)
    (g : SupplementalSearchGate) : Prop where
  past : ∀ r ∈ granted, r.requestedAt.instant ≤ since
  last : ∀ r ∈ granted, ∃ previous, g.lastRequest.get? r.eventId = some previous ∧
    r.requestedAt.instant ≤ previous.instant
  calls : SlidingWindow.Alike g.window since (g.calls.map Datetime.instant)
    (granted.map fun r => r.requestedAt.instant)
  admitted : Admitted g.window g.quota.toNat (granted.map fun r => r.requestedAt.instant)
  spaced : granted.Pairwise fun r r' =>
    r.eventId = r'.eventId → g.cooldown ≤ r'.requestedAt.instant - r.requestedAt.instant

theorem Alike.tracks {granted : List SupplementalSearchRequest} {since : Int} (h : Alike since g g')
    (htracks : Tracks granted since g) : Tracks granted since g' where
  past := htracks.past
  last r hr := h.last ▸ htracks.last r hr
  calls := by
    rw [← h.bounds.2.2]
    exact h.calls.symm.trans htracks.calls
  admitted := by
    rw [← h.bounds.2.2, ← h.bounds.2.1]
    exact htracks.admitted
  spaced := by
    rw [← h.bounds.1]
    exact htracks.spaced

theorem Tracks.later {granted : List SupplementalSearchRequest} {since now : Int}
    (h : Tracks granted since g) (hle : since ≤ now) : Tracks granted now g :=
  { h with
    past := fun r hr => (h.past r hr).trans hle
    calls := h.calls.later hle }

theorem Tracks.quotaUsed_eq {granted : List SupplementalSearchRequest} {since now : Int}
    (h : Tracks granted since g) (hle : since ≤ now) :
    g.quotaUsed now =
      (recent g.window now (granted.map fun r => r.requestedAt.instant)).length := by
  unfold quotaUsed
  rw [h.calls now hle]

theorem Tracks.grant {granted : List SupplementalSearchRequest}
    (h : Tracks granted call.now.instant g) (hwaited : g.Waited call)
    (hroom : (g.quotaUsed call.now.instant : Int) < g.quota) :
    Tracks (granted ++ [searchOf call]) call.now.instant (g.grant call) where
  past r hr := by
    rcases List.mem_append.mp hr with hr | hr
    · exact h.past r hr
    · rw [List.mem_singleton.mp hr]
      exact le_rfl
  last r hr := by
    rw [SupplementalSearchGate.grant, Dict.get?_set]
    by_cases hsame : r.eventId = call.context.eventId
    · rw [if_pos hsame]
      refine ⟨call.now, rfl, ?_⟩
      rcases List.mem_append.mp hr with hr | hr
      · exact h.past r hr
      · rw [List.mem_singleton.mp hr]
        exact le_rfl
    · rw [if_neg hsame]
      rcases List.mem_append.mp hr with hr | hr
      · exact h.last r hr
      · rw [List.mem_singleton.mp hr] at hsame
        exact absurd rfl hsame
  calls := by
    rw [SupplementalSearchGate.grant, List.map_append, List.map_append, recent_calls]
    exact ((alike_recent _ _ _).trans h.calls).snoc _
  admitted := by
    have hrecent := h.quotaUsed_eq le_rfl
    rw [List.map_append]
    refine .snoc h.admitted ?_
    change (recent g.window call.now.instant _).length < g.quota.toNat
    rw [← hrecent]
    exact Int.lt_toNat.mpr hroom
  spaced := by
    refine List.pairwise_append.mpr
      ⟨h.spaced, List.pairwise_singleton _ _, fun r hr r' hr' hsame => ?_⟩
    rw [List.mem_singleton.mp hr'] at hsame ⊢
    obtain ⟨previous, hprevious, hle⟩ := h.last r hr
    have hsame : r.eventId = call.context.eventId := hsame
    rw [hsame] at hprevious
    exact (hwaited previous hprevious).trans (sub_le_sub_left hle _)

theorem granted_cons (g : SupplementalSearchGate) (call : SearchCall) (calls : List SearchCall) :
    g.granted (call :: calls) =
      (g.request call).1.request.toList ++ (g.request call).2.granted calls := by
  unfold granted
  rw [run, List.filterMap_cons]
  cases (g.request call).1.request <;> rfl

theorem Tracks.request {granted : List SupplementalSearchRequest}
    (h : Tracks granted call.now.instant g) :
    Tracks (granted ++ (g.request call).1.request.toList) call.now.instant (g.request call).2 := by
  rcases g.request_cases call with ⟨_, g', hanswer, halike, _⟩ | ⟨hwaited, hroom, hanswer⟩
  · rw [hanswer]
    exact (List.append_nil granted).symm ▸ halike.tracks h
  · rw [hanswer]
    exact h.grant hwaited hroom

theorem run_params (g : SupplementalSearchGate) (calls : List SearchCall) :
    (g.run calls).2.cooldown = g.cooldown ∧ (g.run calls).2.quota = g.quota ∧
      (g.run calls).2.window = g.window := by
  induction calls generalizing g with
  | nil => exact ⟨rfl, rfl, rfl⟩
  | cons call calls ih =>
    obtain ⟨hcooldown, hquota, hwindow⟩ := ih (g.request call).2
    rw [run]
    dsimp only
    rw [hcooldown, hquota, hwindow]
    rcases g.request_cases call with ⟨_, g', hanswer, halike, _⟩ | ⟨_, _, hanswer⟩
    · rw [hanswer]
      exact ⟨halike.bounds.1.symm, halike.bounds.2.1.symm, halike.bounds.2.2.symm⟩
    · rw [hanswer]
      exact ⟨rfl, rfl, rfl⟩

theorem Tracks.run {granted : List SupplementalSearchRequest} {since till : Int}
    {calls : List SearchCall} (h : Tracks granted since g) (horder : InOrder since calls)
    (hsince : since ≤ till) (htill : ∀ call ∈ calls, call.now.instant ≤ till) :
    Tracks (granted ++ g.granted calls) till (g.run calls).2 := by
  induction calls generalizing granted since g with
  | nil => exact (List.append_nil granted).symm ▸ h.later hsince
  | cons call calls ih =>
    obtain ⟨hle, horder⟩ := horder.head
    rw [granted_cons, ← List.append_assoc]
    exact ih (h.later hle).request horder (htill call List.mem_cons_self)
      fun call hcall => htill call (List.mem_cons_of_mem _ hcall)

theorem tracks_start (cooldown quota window since : Int) : Tracks [] since
    { cooldown, quota, window : SupplementalSearchGate } :=
  ⟨nofun, nofun, .refl _ _ _, .nil, .nil⟩

/-- Every window holds at most the quota of grants, grants for an event are at least the cooldown
apart, a denial changes no later answer and uses no quota, and the quota is only exhausted by as
many grants in the window before. -/
theorem run_bounds (cooldown quota window : Int) {calls : List SearchCall}
    (horder : calls.Pairwise fun call call' => call.now ≤ call'.now) :
    let g : SupplementalSearchGate := { cooldown, quota, window }
    (∀ start : Int,
      ((g.granted calls).filter fun r => start ≤ r.requestedAt.instant ∧
        r.requestedAt.instant < start + window).length ≤ quota.toNat ∧
      ((g.granted calls).filter fun r => start < r.requestedAt.instant ∧
        r.requestedAt.instant ≤ start + window).length ≤ quota.toNat) ∧
    ((g.granted calls).Pairwise fun r r' => r.eventId = r'.eventId →
      cooldown ≤ r'.requestedAt.instant - r.requestedAt.instant) ∧
    ∀ before call after, calls = before ++ call :: after →
      (((g.run before).2.request call).1.request = none →
        (∀ later, InOrder call.now.instant later →
          (((g.run before).2.request call).2.run later).1 = ((g.run before).2.run later).1) ∧
        ∀ now, call.now.instant ≤ now →
          ((g.run before).2.request call).2.quotaUsed now = (g.run before).2.quotaUsed now) ∧
      (((g.run before).2.request call).1.denial = some .quotaExhausted →
        quota ≤ ((g.granted before).filter fun r =>
          call.now.instant - window < r.requestedAt.instant ∧
            r.requestedAt.instant ≤ call.now.instant).length) := by
  intro g
  obtain ⟨since, hsince⟩ := (calls.map fun call => call.now.instant).finite_toSet.bddBelow
  obtain ⟨till, htill⟩ := (since :: calls.map fun call => call.now.instant).finite_toSet.bddAbove
  have hordered : InOrder since calls :=
    List.pairwise_cons.mpr ⟨fun now hnow => hsince hnow, List.pairwise_map.mpr horder⟩
  have hall : Tracks (g.granted calls) till (g.run calls).2 :=
    (tracks_start cooldown quota window since).run hordered (htill List.mem_cons_self)
      fun call hcall => htill (List.mem_cons_of_mem _ (List.mem_map_of_mem hcall))
  obtain ⟨hcooldown, hquota, hwindow⟩ := g.run_params calls
  have hadmitted := hall.admitted
  have hspaced := hall.spaced
  rw [hquota, hwindow] at hadmitted
  rw [hcooldown] at hspaced
  refine ⟨fun start => ⟨?_, ?_⟩, hspaced, ?_⟩
  · have hle := hadmitted.window_le start
    rwa [List.filter_map, List.length_map] at hle
  · have hle := hadmitted.window_le' start
    rwa [List.filter_map, List.length_map] at hle
  · rintro before call after rfl
    obtain ⟨hbefore, -, hacross⟩ := List.pairwise_append.mp horder
    have hle : ∀ earlier ∈ before, earlier.now.instant ≤ call.now.instant :=
      fun earlier hearlier => hacross earlier hearlier call List.mem_cons_self
    have hfirst : ∀ call' ∈ before ++ call :: after, since ≤ call'.now.instant :=
      fun call' hcall' => hsince (List.mem_map.mpr ⟨call', hcall', rfl⟩)
    have hordered : InOrder since before := by
      refine List.pairwise_cons.mpr ⟨fun now hnow => ?_, List.pairwise_map.mpr hbefore⟩
      obtain ⟨earlier, hearlier, rfl⟩ := List.mem_map.mp hnow
      exact hfirst earlier (List.mem_append_left _ hearlier)
    have hstart : since ≤ call.now.instant :=
      hfirst call (List.mem_append_right _ List.mem_cons_self)
    have htracks : Tracks (g.granted before) call.now.instant (g.run before).2 :=
      (tracks_start cooldown quota window since).run hordered hstart hle
    obtain ⟨-, hquota, hwindow⟩ := g.run_params before
    rcases (g.run before).2.request_cases call with
      ⟨denial, g', hanswer, halike, hexhausted⟩ | ⟨-, -, hanswer⟩
    · rw [hanswer]
      refine ⟨fun _ => ⟨fun later hlater => (halike.run hlater).symm, fun now hnow =>
        (halike.quotaUsed hnow).symm⟩, fun hdenial => ?_⟩
      have hused := hexhausted (Option.some.inj hdenial)
      rw [hquota, htracks.quotaUsed_eq le_rfl, hwindow, recent, List.filter_map,
        List.length_map] at hused
      refine hused.trans (le_of_eq (congrArg (fun rs => (List.length rs : Int)) ?_))
      refine List.filter_congr fun r hr => decide_eq_decide.mpr ?_
      have hpast := htracks.past r hr
      constructor
      · exact fun hlt => ⟨sub_lt_comm.mp hlt, hpast⟩
      · exact fun hlt => sub_lt_comm.mp hlt.1
    · rw [hanswer]
      exact ⟨nofun, nofun⟩

/-- A search for an event at a minute past nine. -/
def morningCall (eventId : String) (minute : Nat) (h : minute < 60) : SearchCall where
  context := ⟨⟨eventId, "thm_12", ⟨.august 14, 9, 0, 0, 0, 0, by decide⟩, []⟩, "테마", [], []⟩
  now := ⟨.august 14, 9, minute, 0, 0, 0, ⟨by decide, h, by decide, by decide, by decide⟩⟩
  hasLocalEvidence := false

/-- Of three searches within the hour a quota of two lets at most two through. -/
theorem run_bounds_three :
    let g : SupplementalSearchGate := { quota := 2 }
    let nine := (morningCall "evt_1" 0 (by decide)).now.instant
    ((g.granted [morningCall "evt_1" 0 (by decide), morningCall "evt_2" 5 (by decide),
      morningCall "evt_3" 30 (by decide)]).filter fun r => nine ≤ r.requestedAt.instant ∧
        r.requestedAt.instant < nine + 3600000000).length ≤ 2 :=
  ((run_bounds SUPPLEMENTAL_COOLDOWN 2 3600000000 (by decide)).1 _).1

end SupplementalSearchGate

end Dayjaview.Catalyst
