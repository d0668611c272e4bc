import Dayjaview.Api.Hub

/-!
# Topics in normal form

Publishers and clients meet where their topics have one normal form. Two requests
for events have one form exactly when they name the same events.
-/

namespace Dayjaview.Api

open Dayjaview.Realtime

theorem of_readEventIds {raw : List Json} {ids : List String} (h : readEventIds raw = .ok ids) :
    raw = ids.map .str := by
  fun_induction readEventIds raw generalizing ids with
  | case1 =>
    cases h
    rfl
  | case2 id raw _ ih =>
    obtain ⟨rest, hrest, h⟩ := bind_eq_ok.mp h
    cases h
    rw [ih hrest]
    rfl
  | case3 => cases h
  | case4 => cases h

/-- The parameters of a topic for some events. -/
def eventParams (ids : List String) : Json := .obj [("eventIds", .arr (ids.map .str))]

theorem sortKeys_eventParams (ids : List String) :
    (eventParams ids).sortKeys = eventParams ids := by
  have hitems : ∀ ids : List String, Json.sortItems (ids.map .str) = ids.map .str := by
    intro ids
    induction ids with
    | nil => rfl
    | cons id ids ih => simp [Json.sortItems, Json.sortKeys, ih]
  simp [eventParams, Json.sortKeys, Json.sortFields, hitems]

/-- What a normalised request for events says. -/
theorem of_normalizeEventIds {params : List (String × Json)} {normalized : Json}
    (h : normalizeEventIds params = .ok normalized) : ∃ ids : List String,
      Json.field? params "eventIds" = some (.arr (ids.map .str)) ∧
        normalized = eventParams (ids.insertionSort (· ≤ ·)) := by
  unfold normalizeEventIds at h
  split at h
  · cases h
  split at h
  · next raw hraw =>
    split at h
    · obtain ⟨ids, hids, h⟩ := bind_eq_ok.mp h
      split at h
      · cases h
        obtain rfl := of_readEventIds hids
        exact ⟨ids, hraw, rfl⟩
      · cases h
    · cases h
  · cases h

/-- The request for the states of some events. -/
def eventRequest (raw : List Json) : Json :=
  .obj [("name", .str "event_state_changed"), ("params", .obj [("eventIds", .arr raw)])]

/-- Two requests for events that are both accepted have one scope, in which their snapshots are
published and looked up, exactly when they name the same events in some order. -/
theorem eventScope_eq_iff {raw raw' : List Json} {t t' : NormalizedTopic}
    (h : normalizeTopicRequest (eventRequest raw) = .ok t)
    (h' : normalizeTopicRequest (eventRequest raw') = .ok t') :
    t.scopeKey = t'.scopeKey ↔ raw.Perm raw' := by
  have hspec : ∀ {raw t}, normalizeTopicRequest (eventRequest raw) = .ok t → ∃ ids : List String,
      raw = ids.map .str ∧ t.scopeKey = (.eventStateChanged,
        (eventParams (ids.insertionSort (· ≤ ·))).canonical) := by
    intro raw t h
    obtain ⟨normalized, hnormalized, h⟩ := bind_eq_ok.mp (show
      (normalizeEventIds [("eventIds", .arr raw)]).bind _ = _ from h)
    cases h
    obtain ⟨ids, hids, rfl⟩ := of_normalizeEventIds hnormalized
    exact ⟨ids, Json.arr.inj (Option.some.inj hids), rfl⟩
  obtain ⟨ids, rfl, hscope⟩ := hspec h
  obtain ⟨ids', rfl, hscope'⟩ := hspec h'
  rw [hscope, hscope']
  constructor
  · intro hsame
    have hparams := Json.sortKeys_eq_of_canonical_eq (Prod.mk.inj hsame).2
    rw [sortKeys_eventParams, sortKeys_eventParams] at hparams
    have hmap :
        (ids.insertionSort (· ≤ ·)).map Json.str = (ids'.insertionSort (· ≤ ·)).map .str := by
      simpa [eventParams] using hparams
    have hids := List.map_injective_iff.mpr (fun a b hab => Json.str.inj hab) hmap
    refine List.Perm.map _ ?_
    exact (List.perm_insertionSort _ ids).symm.trans
      ((List.Perm.of_eq hids).trans (List.perm_insertionSort _ ids'))
  · intro hperm
    have hids : ids.Perm ids' := (List.map_perm_map_iff fun a b hab => Json.str.inj hab).mp hperm
    have hsorted : ids.insertionSort (· ≤ ·) = ids'.insertionSort (· ≤ ·) :=
      ((List.perm_insertionSort _ ids).trans
        (hids.trans (List.perm_insertionSort _ ids').symm)).eq_of_pairwise
        (fun _ _ _ _ => le_antisymm) (List.pairwise_insertionSort _ ids)
        (List.pairwise_insertionSort _ ids')
    rw [hsorted]

/-- The order in which two events are named makes no difference. -/
theorem eventScope_eq_iff_two :
    ∃ t t', normalizeTopicRequest (eventRequest [.str "evt_1", .str "evt_2"]) = .ok t ∧
      normalizeTopicRequest (eventRequest [.str "evt_2", .str "evt_1"]) = .ok t' ∧
      t.scopeKey = t'.scopeKey := by
  refine ⟨_, _, rfl, rfl, (@eventScope_eq_iff [.str "evt_1", .str "evt_2"]
    [.str "evt_2", .str "evt_1"] _ _ rfl rfl).mpr (List.Perm.swap _ _ _)⟩

end Dayjaview.Api
