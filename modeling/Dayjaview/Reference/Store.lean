import Dayjaview.Core.Chronicle
import Dayjaview.Core.Dict
import Dayjaview.Core.Ranking
import Dayjaview.Reference.Models
import Mathlib.Data.Prod.Lex

/-!
# The revision store

The store keeps the revisions of each record of each date, the current one last. A
changed content is appended as a new revision and closes the current one; the same
content changes nothing. A query sees what was known at its time.
-/

namespace Dayjaview.Reference

section

/-- A revision of a record of a date. -/
structure ReferenceRevision (V : Type) where
  recordType : String
  entityKey : String
  effectiveOn : Date
  knownFrom : Datetime
  knownTo : Option Datetime
  revision : Nat
  contentHash : String
  value : V
  deriving DecidableEq

variable {V : Type}

/-- A revision was known at a time. -/
def ReferenceRevision.contains (r : ReferenceRevision V) (decisionAt : Datetime) : Bool :=
  decide (r.knownFrom ≤ decisionAt) &&
    match r.knownTo with
    | none => true
    | some knownTo => decide (decisionAt < knownTo)

/-- The place of a revision among those of a record. -/
def ReferenceRevision.rank (r : ReferenceRevision V) : Date ×ₗ Int ×ₗ Nat :=
  toLex (r.effectiveOn, toLex (r.knownFrom.instant, r.revision))

/-- What a call stored or found stored. -/
structure ApplyRevisionResult (V : Type) where
  revision : ReferenceRevision V
  created : Bool

/-- A type of record, a record and a date. -/
abbrev RevisionKey := String × String × Date

structure InMemoryReferenceStore (V : Type) where
  values : Dict RevisionKey (List (ReferenceRevision V))

namespace InMemoryReferenceStore

def empty : InMemoryReferenceStore V := ⟨.empty⟩

/-- The revisions under a key, with an empty list put there if nothing is. -/
def setdefault (s : InMemoryReferenceStore V) (key : RevisionKey) :
    List (ReferenceRevision V) × InMemoryReferenceStore V :=
  match s.values.get? key with
  | some versions => (versions, s)
  | none => ([], ⟨s.values.set key []⟩)

/-- The revisions of a record of a date. -/
def versions (s : InMemoryReferenceStore V) (key : RevisionKey) : List (ReferenceRevision V) :=
  (s.values.get? key).getD []

/-- The revisions of a record up to a date that were known at a time. -/
def candidates (s : InMemoryReferenceStore V) (recordType entityKey : String)
    (effectiveOnOrBefore : Date) (decisionAt : Datetime) : List (ReferenceRevision V) :=
  s.values.entries.flatMap fun e =>
    if e.1.1 = recordType ∧ e.1.2.1 = entityKey ∧ e.1.2.2 ≤ effectiveOnOrBefore then
      e.2.filter fun r => r.contains decisionAt
    else []

/-- The latest revision of a record up to a date that was known at a time. -/
def pointInTime (s : InMemoryReferenceStore V) (recordType entityKey : String)
    (effectiveOnOrBefore : Date) (decisionAt : Datetime) : Option (ReferenceRevision V) :=
  latestOf ReferenceRevision.rank (s.candidates recordType entityKey effectiveOnOrBefore decisionAt)

end InMemoryReferenceStore

/-- Objects that the store can keep. -/
class ReferenceValue [Sha256] (V : Type) where
  jsonDefault : V → Except Error Json
  ofSnapshot : SourceSnapshot → V

/-- A plain value or a snapshot. -/
inductive StoredObject [Sha256] where
  | plain (value : Json)
  | snapshot (snapshot : SourceSnapshot)
  deriving DecidableEq

instance [Sha256] : ReferenceValue StoredObject where
  jsonDefault
    | .plain value => .ok value
    | .snapshot snapshot => .ok snapshot.asdict
  ofSnapshot := .snapshot

structure ApplyCall (V : Type) where
  recordType : String
  entityKey : String
  effectiveOn : Date
  knownAt : Datetime
  value : V
  contentHash : Option String := none

namespace ApplyCall

def key (c : ApplyCall V) : RevisionKey := (c.recordType, c.entityKey, c.effectiveOn)

/-- The open revision that a call asks for. -/
def newRevision (c : ApplyCall V) (number : Nat) (valueHash : String) : ReferenceRevision V :=
  ⟨c.recordType, c.entityKey, c.effectiveOn, c.knownAt, none, number, valueHash, c.value⟩

end ApplyCall

variable [Sha256] [ReferenceValue V]

/-- The canonical text of an object. -/
def canonicalJson (value : V) : Except Error String := do
  let plain ← ReferenceValue.jsonDefault value
  ensure (plain.isFinite = true) "Out of range float values are not JSON compliant"
  return plain.canonical

def sha256Json (value : V) : Except Error String := do
  return hexdigest (← canonicalJson value)

/-- The digest of the content of a call. -/
def ApplyCall.valueHash (c : ApplyCall V) : Except Error String :=
  match c.contentHash with
  | some contentHash => if contentHash ≠ "" then .ok contentHash else sha256Json c.value
  | none => sha256Json c.value

/-- The call that stores a snapshot. -/
def snapshotCall (snapshot : SourceSnapshot) : ApplyCall V where
  recordType := "SOURCE_SNAPSHOT"
  entityKey := snapshot.metadata.provider.value ++ ":" ++ snapshot.metadata.dataset.value ++ ":" ++
    snapshot.metadata.sourceKey
  effectiveOn := snapshot.metadata.asOf.date
  knownAt := snapshot.metadata.collectedAt
  value := ReferenceValue.ofSnapshot snapshot
  contentHash := some snapshot.rawHash

namespace InMemoryReferenceStore

/-- Store a content unless it is the current one. -/
def apply (s : InMemoryReferenceStore V) (c : ApplyCall V) :
    Except Error (ApplyRevisionResult V) × InMemoryReferenceStore V :=
  if c.recordType = "" ∨ c.entityKey = "" then
    (.error ⟨.valueError, "record_type과 entity_key는 비어 있을 수 없습니다."⟩, s)
  else
    match c.valueHash with
    | .error e => (.error e, s)
    | .ok valueHash =>
      let (versions, s) := s.setdefault c.key
      match versions.getLast? with
      | none =>
        let revision := c.newRevision 1 valueHash
        (.ok ⟨revision, true⟩, ⟨s.values.set c.key (versions ++ [revision])⟩)
      | some current =>
        if current.contentHash = valueHash then (.ok ⟨current, false⟩, s)
        else if c.knownAt ≤ current.knownFrom then
          (.error ⟨.temporalConflictError,
            "변경 revision의 known_at은 현재 revision보다 늦어야 합니다."⟩, s)
        else
          let closed := { current with knownTo := some c.knownAt }
          let revision := c.newRevision (current.revision + 1) valueHash
          (.ok ⟨revision, true⟩, ⟨s.values.set c.key (versions.dropLast ++ [closed, revision])⟩)

/-- The number that the next revision with a content has. -/
def expectedRevision (s : InMemoryReferenceStore V) (key : RevisionKey) (rawHash : String) : Nat :=
  match (s.versions key).getLast? with
  | some current =>
    if current.contentHash = rawHash then current.revision else current.revision + 1
  | none => 1

/-- Store a snapshot that has the right revision. -/
def applySnapshot (s : InMemoryReferenceStore V) (snapshot : SourceSnapshot) :
    Except Error (ApplyRevisionResult V) × InMemoryReferenceStore V :=
  let call : ApplyCall V := snapshotCall snapshot
  if snapshot.metadata.revision ≠ s.expectedRevision call.key snapshot.rawHash then
    (.error ⟨.temporalConflictError,
      "source metadata revision과 예상 저장 revision이 일치하지 않습니다."⟩, s)
  else s.apply call

end InMemoryReferenceStore

end

variable {V : Type}

def known : Validity (ReferenceRevision V) Datetime := ⟨(·.knownFrom), (·.knownTo)⟩

theorem contains_iff {r : ReferenceRevision V} {t : Datetime} :
    r.contains t = true ↔ known.Holds t r := by
  obtain ⟨_, _, _, _, knownTo, _, _, _⟩ := r
  cases knownTo <;> simp [ReferenceRevision.contains, Validity.Holds, known]

/-- The revisions of a record of a date. -/
structure RevisionHistory (key : RevisionKey) (versions : List (ReferenceRevision V)) : Prop where
  keyed : ∀ r ∈ versions, (r.recordType, r.entityKey, r.effectiveOn) = key
  numbered : versions.map (·.revision) = List.range' 1 versions.length
  chronicle : known.Chronicle versions
  changed : versions.IsChain fun a b => a.contentHash ≠ b.contentHash

theorem revisionHistory_nil (key : RevisionKey) :
    RevisionHistory key ([] : List (ReferenceRevision V)) where
  keyed r hr := by cases hr
  numbered := rfl
  chronicle := ⟨.nil, fun a ha => by cases ha⟩
  changed := .nil

theorem revisionHistory_first (c : ApplyCall V) (valueHash : String) :
    RevisionHistory c.key [c.newRevision 1 valueHash] where
  keyed r hr := by
    obtain rfl := List.mem_singleton.mp hr
    rfl
  numbered := rfl
  chronicle := Validity.chronicle_singleton rfl
  changed := .singleton _

theorem RevisionHistory.close {key : RevisionKey} {earlier : List (ReferenceRevision V)}
    {current : ReferenceRevision V} (h : RevisionHistory key (earlier ++ [current]))
    {c : ApplyCall V} (hkey : c.key = key) {valueHash : String}
    (hchanged : current.contentHash ≠ valueHash) (hlater : current.knownFrom < c.knownAt) :
    RevisionHistory key (earlier ++ [{ current with knownTo := some c.knownAt },
      c.newRevision (current.revision + 1) valueHash]) where
  keyed r hr := by
    have hcurrent := h.keyed current (by simp)
    simp only [List.mem_append, List.mem_cons, List.not_mem_nil, or_false] at hr
    rcases hr with hr | rfl | rfl
    · exact h.keyed r (List.mem_append_left _ hr)
    · exact hcurrent
    · exact hkey
  numbered := by
    have hnumbered := h.numbered
    rw [List.map_append, List.length_append, List.length_singleton,
      List.range'_1_concat] at hnumbered
    obtain ⟨hearlier, hlast⟩ := List.append_inj' hnumbered rfl
    have hrevision : current.revision = 1 + earlier.length := by simpa using hlast
    have hlength : (earlier ++ [({ current with knownTo := some c.knownAt } : ReferenceRevision V),
        c.newRevision (current.revision + 1) valueHash]).length = earlier.length + 1 + 1 := by simp
    rw [hlength, List.range'_1_concat, List.range'_1_concat, List.map_append, hearlier]
    simp [ApplyCall.newRevision, hrevision, Nat.add_assoc]
  chronicle := h.chronicle.close rfl ⟨rfl, hlater⟩ rfl
  changed := by
    have hchain := List.isChain_append.mp h.changed
    refine List.isChain_append.mpr ⟨hchain.1, ?_, ?_⟩
    · exact .cons_cons hchanged (.singleton _)
    · intro x hx y hy
      obtain rfl : { current with knownTo := some c.knownAt } = y := by simpa using hy
      exact hchain.2.2 x hx current (by simp)

namespace InMemoryReferenceStore

/-- The revisions of every record of every date are as they should be. -/
def WellKept (s : InMemoryReferenceStore V) : Prop := ∀ key, RevisionHistory key (s.versions key)

variable {date : Date} {entityKey recordType : String} {t : Datetime}

theorem mem_candidates {s : InMemoryReferenceStore V} {r : ReferenceRevision V} :
    r ∈ s.candidates recordType entityKey date t ↔
      ∃ effectiveOn ≤ date, r ∈ s.versions (recordType, entityKey, effectiveOn) ∧
      known.Holds t r := by
  unfold candidates versions
  constructor
  · intro h
    obtain ⟨⟨⟨type, key, effectiveOn⟩, versions⟩, hentry, hr⟩ := List.mem_flatMap.mp h
    dsimp only at hr
    split at hr
    · next hmatch =>
      obtain ⟨rfl, rfl, hle⟩ := hmatch
      obtain ⟨hr, hknown⟩ := List.mem_filter.mp hr
      refine ⟨effectiveOn, hle, ?_, contains_iff.mp hknown⟩
      rwa [s.values.mem_entries_iff.mp hentry]
    · cases hr
  · rintro ⟨effectiveOn, hle, hr, hknown⟩
    cases hget : s.values.get? (recordType, entityKey, effectiveOn) with
    | none => simp [hget] at hr
    | some versions =>
      rw [hget] at hr
      refine List.mem_flatMap.mpr ⟨_, s.values.mem_entries_iff.mpr hget, ?_⟩
      dsimp only
      rw [if_pos ⟨rfl, rfl, hle⟩]
      exact List.mem_filter.mpr ⟨hr, contains_iff.mpr hknown⟩

theorem WellKept.eq_of_rank {s : InMemoryReferenceStore V} (h : s.WellKept)
    {a b : ReferenceRevision V} (ha : a ∈ s.candidates recordType entityKey date t)
    (hb : b ∈ s.candidates recordType entityKey date t) (hrank : a.rank = b.rank) : a = b := by
  obtain ⟨da, -, hma, hta⟩ := mem_candidates.mp ha
  obtain ⟨db, -, hmb, htb⟩ := mem_candidates.mp hb
  have hdates : a.effectiveOn = b.effectiveOn := congrArg (fun p => (ofLex p).1) hrank
  have hka := (h _).keyed a hma
  have hkb := (h _).keyed b hmb
  have hda : a.effectiveOn = da := congrArg (fun k : RevisionKey => k.2.2) hka
  have hdb : b.effectiveOn = db := congrArg (fun k : RevisionKey => k.2.2) hkb
  obtain rfl : da = db := by rw [← hda, ← hdb, hdates]
  exact Validity.holds_unique (h _).chronicle.chain hma hmb hta htb

theorem WellKept.pointInTime_eq_some {s : InMemoryReferenceStore V} (h : s.WellKept)
    {r : ReferenceRevision V} :
    s.pointInTime recordType entityKey date t = some r ↔
      IsGreatestBy ReferenceRevision.rank (s.candidates recordType entityKey date t) r := by
  constructor
  · exact isGreatestBy_of_latestOf
  · intro hr
    obtain ⟨a, ha⟩ :
        ∃ a, latestOf ReferenceRevision.rank (s.candidates recordType entityKey date t) =
        some a := exists_latestOf (List.ne_nil_of_mem hr.1)
    obtain ⟨hmem, hgreatest⟩ := isGreatestBy_of_latestOf ha
    have hrank := le_antisymm (hr.2 a hmem) (hgreatest r hr.1)
    rw [pointInTime, ha, h.eq_of_rank hmem hr.1 hrank]

theorem pointInTime_eq_none {s : InMemoryReferenceStore V} :
    s.pointInTime recordType entityKey date t = none ↔
      s.candidates recordType entityKey date t = [] :=
  latestOf_eq_none

theorem versions_set (s : InMemoryReferenceStore V) (key key' : RevisionKey)
    (versions : List (ReferenceRevision V)) :
    (⟨s.values.set key versions⟩ : InMemoryReferenceStore V).versions key' =
      if key' = key then versions else s.versions key' := by
  unfold InMemoryReferenceStore.versions
  rw [Dict.get?_set]
  split <;> rfl

/-- A query selects the same revision as before, or the one that a call at a time has closed. -/
def SameKnowledge (knownAt : Datetime) (before after : Option (ReferenceRevision V)) : Prop :=
  after = before ∨
    ∃ r, before = some r ∧ r.knownTo = none ∧ after = some { r with knownTo := some knownAt }

variable [Sha256] [ReferenceValue V]

inductive ApplyOutcome (s : InMemoryReferenceStore V) (c : ApplyCall V) :
    Except Error (ApplyRevisionResult V) × InMemoryReferenceStore V → Prop where
  | rejected (e : Error) : ApplyOutcome s c (.error e, s)
  /-- Its content is the current one. -/
  | repeated (current : ReferenceRevision V) (hcurrent : (s.versions c.key).getLast? = some current)
      (hhash : c.valueHash = .ok current.contentHash) : ApplyOutcome s c (.ok ⟨current, false⟩, s)
  /-- Its content is the first one. -/
  | first (valueHash : String) (hhash : c.valueHash = .ok valueHash) (hnone : s.versions c.key = [])
      (s' : InMemoryReferenceStore V)
      (hs' : ∀ key, s'.versions key =
        if key = c.key then [c.newRevision 1 valueHash] else s.versions key) :
      ApplyOutcome s c (.ok ⟨c.newRevision 1 valueHash, true⟩, s')
  /-- Its content is new and was known later. -/
  | changed (valueHash : String) (hhash : c.valueHash = .ok valueHash)
      (earlier : List (ReferenceRevision V)) (current : ReferenceRevision V)
      (hcurrent : s.versions c.key = earlier ++ [current])
      (hchanged : current.contentHash ≠ valueHash)
      (hlater : current.knownFrom < c.knownAt) (s' : InMemoryReferenceStore V)
      (hs' : ∀ key, s'.versions key =
        if key = c.key then earlier ++ [{ current with knownTo := some c.knownAt },
          c.newRevision (current.revision + 1) valueHash]
        else s.versions key) :
      ApplyOutcome s c (.ok ⟨c.newRevision (current.revision + 1) valueHash, true⟩, s')

theorem apply_outcome (s : InMemoryReferenceStore V) (c : ApplyCall V) :
    ApplyOutcome s c (s.apply c) := by
  unfold apply
  by_cases hempty : c.recordType = "" ∨ c.entityKey = ""
  · rw [if_pos hempty]
    exact .rejected _
  rw [if_neg hempty]
  cases hhash : c.valueHash with
  | error e => exact .rejected e
  | ok valueHash =>
    cases hget : s.values.get? c.key with
    | none =>
      have hversions : s.versions c.key = [] := by simp [versions, hget]
      simp only [setdefault, hget, List.getLast?_nil, List.nil_append]
      refine .first valueHash hhash hversions _ fun key => ?_
      rw [versions_set, versions_set]
      split <;> rfl
    | some stored =>
      have hversions : s.versions c.key = stored := by simp [versions, hget]
      simp only [setdefault, hget]
      cases hlast : stored.getLast? with
      | none =>
        rw [List.getLast?_eq_none_iff] at hlast
        subst hlast
        exact .first valueHash hhash hversions _ fun key => versions_set s c.key key _
      | some current =>
        obtain ⟨earlier, rfl⟩ := List.getLast?_eq_some_iff.mp hlast
        by_cases hsame : current.contentHash = valueHash
        · simp only [if_pos hsame]
          refine .repeated current ?_ (hsame ▸ hhash)
          rw [hversions, hlast]
        by_cases hold : c.knownAt ≤ current.knownFrom
        · simp only [if_neg hsame, if_pos hold]
          exact .rejected _
        · simp only [if_neg hsame, if_neg hold, List.dropLast_concat]
          refine .changed valueHash hhash earlier current hversions hsame ?_ _
            fun key => versions_set s c.key key _
          rw [Datetime.le_def] at hold
          rw [Datetime.lt_def]
          omega

theorem WellKept.apply {s : InMemoryReferenceStore V} (h : s.WellKept) (c : ApplyCall V) :
    (s.apply c).2.WellKept := by
  have houtcome := s.apply_outcome c
  generalize s.apply c = outcome at houtcome
  cases houtcome with
  | rejected e => exact h
  | repeated current hcurrent hhash => exact h
  | first valueHash hhash hnone s' hs' =>
    intro key
    rw [hs' key]
    split
    · next hkey => exact hkey ▸ revisionHistory_first c valueHash
    · exact h key
  | changed valueHash hhash earlier current hcurrent hchanged hlater s' hs' =>
    intro key
    rw [hs' key]
    split
    · next hkey =>
      have hhistory := h c.key
      rw [hcurrent, ← hkey] at hhistory
      exact hhistory.close hkey.symm hchanged hlater
    · exact h key

theorem WellKept.pointInTime_apply {s : InMemoryReferenceStore V} (h : s.WellKept) (c : ApplyCall V)
    (ht : t < c.knownAt) (recordType entityKey : String) (date : Date) :
    SameKnowledge c.knownAt (s.pointInTime recordType entityKey date t)
      ((s.apply c).2.pointInTime recordType entityKey date t) := by
  have h' := h.apply c
  have houtcome := s.apply_outcome c
  generalize s.apply c = outcome at houtcome h'
  cases houtcome with
  | rejected e => exact .inl rfl
  | repeated current hcurrent hhash => exact .inl rfl
  | first valueHash hhash hnone s' hs' =>
    -- the new revision is not known yet at the time of the query
    have hmem : ∀ r, r ∈ s'.candidates recordType entityKey date t ↔
        r ∈ s.candidates recordType entityKey date t := by
      intro r
      simp only [mem_candidates, hs']
      refine exists_congr fun effectiveOn => and_congr_right fun hle => ?_
      split
      · next hkey =>
        rw [hkey, hnone]
        constructor
        · rintro ⟨hr, hknown⟩
          obtain rfl := List.mem_singleton.mp hr
          exact absurd (ht.trans_le hknown.1) (lt_irrefl _)
        · rintro ⟨hr, -⟩
          cases hr
      · rfl
    refine .inl ?_
    ext r
    rw [h'.pointInTime_eq_some, h.pointInTime_eq_some]
    simp only [IsGreatestBy, hmem]
  | changed valueHash hhash earlier current hcurrent hchanged hlater s' hs' =>
    have hopen : current.knownTo = none :=
      (hcurrent ▸ (h c.key).chronicle).lastOpen current (by simp)
    have hclose := @Validity.holds_close _ _ _ known current
      { current with knownTo := some c.knownAt }
      (c.newRevision (current.revision + 1) valueHash) t hopen rfl ⟨rfl, hlater⟩ ht
    -- a revision known at the time of the query is still there, closed if it was the current one
    have hthere : ∀ r ∈ s.candidates recordType entityKey date t,
        ∃ r' ∈ s'.candidates recordType entityKey date t, r'.rank = r.rank ∧
          (r' = r ∨ r = current ∧ r' = { current with knownTo := some c.knownAt }) := by
      intro r hr
      obtain ⟨effectiveOn, hle, hr, hknown⟩ := mem_candidates.mp hr
      by_cases hkey : (recordType, entityKey, effectiveOn) = c.key
      · have hversions := hs' c.key
        rw [if_pos rfl, ← hkey] at hversions
        rw [hkey, hcurrent] at hr
        rcases List.mem_append.mp hr with hr | hr
        · refine ⟨r, mem_candidates.mpr ⟨effectiveOn, hle, ?_, hknown⟩, rfl, .inl rfl⟩
          rw [hversions]
          exact List.mem_append_left _ hr
        · obtain rfl := List.mem_singleton.mp hr
          refine ⟨_, mem_candidates.mpr ⟨effectiveOn, hle, ?_, hclose.1.mpr hknown⟩, rfl,
            .inr ⟨rfl, rfl⟩⟩
          rw [hversions]
          simp
      · refine ⟨r, mem_candidates.mpr ⟨effectiveOn, hle, ?_, hknown⟩, rfl, .inl rfl⟩
        rwa [hs' _, if_neg hkey]
    -- and nothing else is known then
    have hback : ∀ r' ∈ s'.candidates recordType entityKey date t,
        ∃ r ∈ s.candidates recordType entityKey date t, r'.rank = r.rank := by
      intro r' hr'
      obtain ⟨effectiveOn, hle, hr', hknown⟩ := mem_candidates.mp hr'
      rw [hs' _] at hr'
      split at hr'
      · next hkey =>
        simp only [List.mem_append, List.mem_cons, List.not_mem_nil, or_false] at hr'
        rcases hr' with hr' | rfl | rfl
        · refine ⟨r', mem_candidates.mpr ⟨effectiveOn, hle, ?_, hknown⟩, rfl⟩
          rw [hkey, hcurrent]
          exact List.mem_append_left _ hr'
        · refine ⟨current, mem_candidates.mpr ⟨effectiveOn, hle, ?_, hclose.1.mp hknown⟩, rfl⟩
          rw [hkey, hcurrent]
          simp
        · exact absurd hknown hclose.2
      · exact ⟨r', mem_candidates.mpr ⟨effectiveOn, hle, hr', hknown⟩, rfl⟩
    cases hbefore : s.pointInTime recordType entityKey date t with
    | none =>
      refine .inl (pointInTime_eq_none.mpr (List.eq_nil_iff_forall_not_mem.mpr fun r' hr' => ?_))
      obtain ⟨r, hr, -⟩ := hback r' hr'
      rw [pointInTime_eq_none.mp hbefore] at hr
      cases hr
    | some r =>
      obtain ⟨hr, hgreatest⟩ := h.pointInTime_eq_some.mp hbefore
      obtain ⟨r', hr', hrank, hsame⟩ := hthere r hr
      have hafter : s'.pointInTime recordType entityKey date t = some r' := by
        refine h'.pointInTime_eq_some.mpr ⟨hr', fun b' hb' => ?_⟩
        obtain ⟨b, hb, hrankb⟩ := hback b' hb'
        rw [hrankb, hrank]
        exact hgreatest b hb
      dsimp only
      rw [hafter]
      rcases hsame with rfl | ⟨rfl, rfl⟩
      · exact .inl rfl
      · exact .inr ⟨r, rfl, hopen, rfl⟩

theorem apply_ok {s : InMemoryReferenceStore V} {c : ApplyCall V} {result : ApplyRevisionResult V}
    (h : (s.apply c).1 = .ok result) :
    c.valueHash = .ok result.revision.contentHash ∧
      ((s.apply c).2.versions c.key).getLast? = some result.revision ∧
      result.revision.revision = s.expectedRevision c.key result.revision.contentHash := by
  have houtcome := s.apply_outcome c
  generalize s.apply c = outcome at houtcome h
  cases houtcome with
  | rejected e => cases h
  | repeated current hcurrent hhash =>
    cases h
    exact ⟨hhash, hcurrent, by simp [expectedRevision, hcurrent]⟩
  | first valueHash hhash hnone s' hs' =>
    cases h
    exact ⟨hhash, by simp [hs'], by simp [expectedRevision, hnone, ApplyCall.newRevision]⟩
  | changed valueHash hhash earlier current hcurrent hchanged hlater s' hs' =>
    cases h
    refine ⟨hhash, by simp [hs'], ?_⟩
    simp [expectedRevision, hcurrent, ApplyCall.newRevision, hchanged]

theorem apply_error {s : InMemoryReferenceStore V} {c : ApplyCall V} {e : Error}
    (h : (s.apply c).1 = .error e) : (s.apply c).2 = s := by
  have houtcome := s.apply_outcome c
  generalize s.apply c = outcome at houtcome h
  cases houtcome with
  | rejected e => rfl
  | repeated current hcurrent hhash => rfl
  | first valueHash hhash hnone s' hs' => cases h
  | changed valueHash hhash earlier current hcurrent hchanged hlater s' hs' => cases h

theorem apply_current {s : InMemoryReferenceStore V} {c : ApplyCall V}
    {current : ReferenceRevision V} (hcurrent : (s.versions c.key).getLast? = some current)
    (hhash : c.valueHash = .ok current.contentHash) : (s.apply c).2 = s := by
  have houtcome := s.apply_outcome c
  generalize s.apply c = outcome at houtcome
  cases houtcome with
  | rejected e => rfl
  | repeated current' hcurrent' hhash' => rfl
  | first valueHash hhash' hnone s' hs' =>
    rw [hnone] at hcurrent
    cases hcurrent
  | changed valueHash hhash' earlier current' hcurrent' hchanged hlater s' hs' =>
    rw [hcurrent', List.getLast?_concat] at hcurrent
    cases hcurrent
    rw [hhash] at hhash'
    exact absurd (Except.ok.inj hhash') hchanged

theorem apply_again {s : InMemoryReferenceStore V} {c : ApplyCall V}
    {result : ApplyRevisionResult V} (h : (s.apply c).1 = .ok result) :
    (s.apply c).2.apply c = (.ok ⟨result.revision, false⟩, (s.apply c).2) := by
  obtain ⟨hhash, hlast, -⟩ := apply_ok h
  have hnonempty : ¬ (c.recordType = "" ∨ c.entityKey = "") := by
    intro hempty
    rw [apply, if_pos hempty] at h
    cases h
  generalize (s.apply c).2 = t at hlast ⊢
  unfold versions at hlast
  cases hget : t.values.get? c.key with
  | none => simp [hget] at hlast
  | some stored =>
    rw [hget, Option.getD_some] at hlast
    unfold apply
    rw [if_neg hnonempty, hhash]
    simp only [setdefault, hget, hlast, if_true]

theorem applySnapshot_of_eq {s : InMemoryReferenceStore V} {snapshot : SourceSnapshot}
    (h : snapshot.metadata.revision =
      s.expectedRevision (snapshotCall snapshot : ApplyCall V).key snapshot.rawHash) :
    s.applySnapshot snapshot = s.apply (snapshotCall snapshot) := by
  unfold applySnapshot
  dsimp only
  rw [if_neg (not_not.mpr h)]

end InMemoryReferenceStore

open InMemoryReferenceStore (SameKnowledge)

inductive StoreCall [Sha256] (V : Type) where
  | apply (call : ApplyCall V)
  | applySnapshot (snapshot : SourceSnapshot)

variable [Sha256] [ReferenceValue V]

/-- What a call asks to be stored. -/
def StoreCall.request : StoreCall V → ApplyCall V
  | .apply call => call
  | .applySnapshot snapshot => snapshotCall snapshot

def StoreCall.perform (s : InMemoryReferenceStore V) :
    StoreCall V → Except Error (ApplyRevisionResult V) × InMemoryReferenceStore V
  | .apply call => s.apply call
  | .applySnapshot snapshot => s.applySnapshot snapshot

def InMemoryReferenceStore.run (calls : List (StoreCall V)) : InMemoryReferenceStore V :=
  calls.foldl (fun s call => (call.perform s).2) .empty

theorem StoreCall.perform_cases (s : InMemoryReferenceStore V) (call : StoreCall V) :
    (∃ e, call.perform s = (.error e, s)) ∨ call.perform s = s.apply call.request := by
  cases call with
  | apply call => exact .inr rfl
  | applySnapshot snapshot =>
    unfold perform InMemoryReferenceStore.applySnapshot
    dsimp only
    split
    · exact .inl ⟨_, rfl⟩
    · exact .inr rfl

theorem StoreCall.perform_again {s : InMemoryReferenceStore V} {call : StoreCall V}
    {result : ApplyRevisionResult V} (h : (call.perform s).1 = .ok result) :
    call.perform (call.perform s).2 = (.ok ⟨result.revision, false⟩, (call.perform s).2) := by
  cases call with
  | apply call => exact InMemoryReferenceStore.apply_again h
  | applySnapshot snapshot =>
    have hnumber : snapshot.metadata.revision =
        s.expectedRevision (snapshotCall snapshot : ApplyCall V).key snapshot.rawHash := by
      by_contra hne
      simp [perform, InMemoryReferenceStore.applySnapshot, hne] at h
    have hperform :
        (StoreCall.applySnapshot snapshot).perform s = s.apply (snapshotCall snapshot) :=
      InMemoryReferenceStore.applySnapshot_of_eq hnumber
    rw [hperform] at h ⊢
    obtain ⟨hhash, hlast, hrevision⟩ := InMemoryReferenceStore.apply_ok h
    have hraw : result.revision.contentHash = snapshot.rawHash := by
      simp only [ApplyCall.valueHash, snapshotCall, ne_eq, snapshot.rawHash_ne_empty,
        not_false_eq_true, if_true] at hhash
      exact (Except.ok.inj hhash).symm
    have hagain : snapshot.metadata.revision = (s.apply (snapshotCall snapshot)).2.expectedRevision
        (snapshotCall snapshot : ApplyCall V).key snapshot.rawHash := by
      rw [hnumber, ← hraw, ← hrevision, InMemoryReferenceStore.expectedRevision, hlast]
      simp
    exact (InMemoryReferenceStore.applySnapshot_of_eq hagain).trans
      (InMemoryReferenceStore.apply_again h)

theorem wellKept_run (calls : List (StoreCall V)) :
    (InMemoryReferenceStore.run calls).WellKept := by
  induction calls using List.reverseRecOn with
  | nil => exact fun key => revisionHistory_nil key
  | append_singleton calls call ih =>
    rw [InMemoryReferenceStore.run, List.foldl_append]
    show ((call.perform (InMemoryReferenceStore.run calls)).2).WellKept
    rcases call.perform_cases (InMemoryReferenceStore.run calls) with ⟨e, h⟩ | h
    · rw [h]
      exact ih
    · rw [h]
      exact ih.apply call.request

/-- After any calls the revisions of every record of every date are numbered from one and follow
one another in time, each with another content. A call about a later time leaves the selection of
a query as it is and at most closes the selected revision; a call with the current content, one
that was made before it, or one that raises changes nothing. -/
theorem run_bitemporal (calls : List (StoreCall V)) :
    let s := InMemoryReferenceStore.run calls
    (∀ key, RevisionHistory key (s.versions key)) ∧
    (∀ (call : StoreCall V) (t : Datetime), t < call.request.knownAt →
      ∀ recordType entityKey date, SameKnowledge call.request.knownAt
        (s.pointInTime recordType entityKey date t)
        ((call.perform s).2.pointInTime recordType entityKey date t)) ∧
    (∀ (call : StoreCall V) current, (s.versions call.request.key).getLast? = some current →
      call.request.valueHash = .ok current.contentHash → (call.perform s).2 = s) ∧
    (∀ (call : StoreCall V) result, (call.perform s).1 = .ok result →
      call.perform (call.perform s).2 = (.ok ⟨result.revision, false⟩, (call.perform s).2)) ∧
    ∀ (call : StoreCall V) e, (call.perform s).1 = .error e → (call.perform s).2 = s := by
  intro s
  have hkept : s.WellKept := wellKept_run calls
  refine ⟨hkept, ?_, ?_, fun call result => StoreCall.perform_again, ?_⟩
  · intro call t ht recordType entityKey date
    rcases call.perform_cases s with ⟨e, h⟩ | h
    · rw [h]
      exact .inl rfl
    · rw [h]
      exact hkept.pointInTime_apply call.request ht recordType entityKey date
  · intro call current hcurrent hhash
    rcases call.perform_cases s with ⟨e, h⟩ | h
    · rw [h]
    · rw [h]
      exact InMemoryReferenceStore.apply_current hcurrent hhash
  · intro call e he
    rcases call.perform_cases s with ⟨e', h⟩ | h
    · rw [h]
    · rw [h] at he ⊢
      exact InMemoryReferenceStore.apply_error he

/-- The content of a record as it was known from an hour on. -/
def contentFrom (hour : Nat) (content : String) : ApplyCall StoredObject where
  recordType := "SECURITY_NAME"
  entityKey := "005930"
  effectiveOn := .august 3
  knownAt := (Date.august 3).seoul hour 0
  value := .plain (.str content)
  contentHash := some content

omit [Sha256] in
/-- The revision that a query at ten o'clock finds is closed by a call about eleven o'clock: the
query answers with another end of its validity. -/
theorem pointInTime_closed_later :
    letI : Sha256 := .ofTable []
    ¬ ∀ (calls : List (StoreCall StoredObject)) (call : StoreCall StoredObject) (t : Datetime),
      t < call.request.knownAt → ∀ recordType entityKey date,
        (call.perform (InMemoryReferenceStore.run calls)).2.pointInTime recordType entityKey
        date t =
          (InMemoryReferenceStore.run calls).pointInTime recordType entityKey date t := by
  have key : ∀ [Sha256],
      ((StoreCall.apply (contentFrom 11 "new")).perform
        (InMemoryReferenceStore.run [.apply (contentFrom 9 "old")])).2.pointInTime
          "SECURITY_NAME" "005930" (.august 3)
          (contentFrom 10 "").knownAt ≠
      (InMemoryReferenceStore.run [.apply (contentFrom 9 "old")]).pointInTime
        "SECURITY_NAME" "005930" (.august 3) (contentFrom 10 "").knownAt →
      (contentFrom 10 "").knownAt <
        (StoreCall.apply (contentFrom 11 "new")).request.knownAt →
      ¬ ∀ (calls : List (StoreCall StoredObject)) (call : StoreCall StoredObject) (t : Datetime),
        t < call.request.knownAt → ∀ recordType entityKey date,
          (call.perform (InMemoryReferenceStore.run calls)).2.pointInTime recordType entityKey date
            t = (InMemoryReferenceStore.run calls).pointInTime recordType entityKey date t :=
    fun hchanged hlater hall => hchanged (hall _ _ _ hlater _ _ _)
  exact @key (.ofTable []) (by decide +kernel) (by decide +kernel)

end Dayjaview.Reference
