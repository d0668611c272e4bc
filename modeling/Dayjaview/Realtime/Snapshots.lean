import Dayjaview.Core.Dict
import Dayjaview.Core.Json
import Dayjaview.Core.Utc
import Dayjaview.Domain.Models

/-!
# Read snapshots and their repository

A publication becomes a snapshot with the next sequence of its scope. The
repository recognises a publication by its id and its digest, keeps the latest
snapshot of every scope, and changes either all of its four tables or none.
-/

namespace Dayjaview.Realtime

open Dayjaview.Domain

/-- A JSON object that was written and read again. -/
def copyJsonObject (value : Json) : Except Error Json := do
  ensure (value.isFinite = true) "snapshot 값은 유효한 JSON이어야 합니다"
  match value with
  | .obj _ => return value.sortKeys
  | _ => .error ⟨.typeError, "snapshot payload는 JSON object여야 합니다"⟩

def opaqueId [Sha256] (label value : String) : String := s!"{label}_{takeText 32 (hexdigest value)}"

inductive SnapshotTopic where
  | themeRank
  | themeTreemap
  | eventStateChanged
  deriving DecidableEq

/-- The written form of a topic. -/
def SnapshotTopic.value : SnapshotTopic → String
  | themeRank => "theme_rank_snapshot"
  | themeTreemap => "theme_treemap_snapshot"
  | eventStateChanged => "event_state_changed"

/-- The versions of what a snapshot was computed with. -/
structure SnapshotVersions.Fields where
  schemaVersion : String
  calculationVersion : String
  rankingModelVersion : String
  membershipVersion : String
  baselineVersion : Option String := none
  deriving DecidableEq

/-- The checks of the versions, in order. -/
def SnapshotVersions.Fields.postInit (v : SnapshotVersions.Fields) : Except Error Unit := do
  requireText v.schemaVersion "schema_version"
  requireText v.calculationVersion "calculation_version"
  requireText v.rankingModelVersion "ranking_model_version"
  requireText v.membershipVersion "membership_version"
  requireOptionalText v.baselineVersion "baseline_version"

/-- Versions that passed their checks. -/
structure SnapshotVersions extends SnapshotVersions.Fields where
  valid : toFields.postInit = .ok ()
  deriving DecidableEq

/-- Build versions, or report the first failed check. -/
def SnapshotVersions.make (f : SnapshotVersions.Fields) : Except Error SnapshotVersions :=
  checked SnapshotVersions.Fields.postInit SnapshotVersions.mk f

/-- The written form of the versions. -/
def SnapshotVersions.toDict (v : SnapshotVersions) : Json :=
  .obj [("schemaVersion", .str v.schemaVersion), ("calculationVersion", .str v.calculationVersion),
    ("rankingModelVersion", .str v.rankingModelVersion),
    ("membershipVersion", .str v.membershipVersion),
    ("baselineVersion", match v.baselineVersion with
      | none => .null
      | some version => .str version)]

/-- The fields of a publication. -/
structure SnapshotPublication.Fields where
  publicationId : String
  streamId : String
  topic : SnapshotTopic
  params : Json
  marketDate : Date
  generatedAt : Datetime
  asOf : Datetime
  dataStatus : DataStatus
  qualityFlags : List String
  payload : Json
  versions : SnapshotVersions
  deriving DecidableEq

/-- Check a publication and copy its objects. -/
def SnapshotPublication.Fields.postInit (p : SnapshotPublication.Fields) :
    Except Error SnapshotPublication.Fields := do
  requireText p.publicationId "publication_id"
  requireText p.streamId "stream_id"
  ensure (p.asOf ≤ p.generatedAt) "snapshot as_of는 generated_at 이후일 수 없습니다"
  ensure p.qualityFlags.Nodup "snapshot quality_flags에 중복 값이 있습니다"
  let params ← copyJsonObject p.params
  let payload ← copyJsonObject p.payload
  return { p with params, payload, qualityFlags := p.qualityFlags.insertionSort (· ≤ ·) }

/-- A publication as its constructor leaves it. -/
structure SnapshotPublication extends SnapshotPublication.Fields where
  valid : ∃ given : SnapshotPublication.Fields, given.postInit = .ok toFields

namespace SnapshotPublication

/-- Build a publication, or report the first failed check. -/
def make (given : SnapshotPublication.Fields) : Except Error SnapshotPublication :=
  match h : given.postInit with
  | .ok fields => .ok ⟨fields, given, h⟩
  | .error e => .error e

variable [Sha256]

def paramsKey (p : SnapshotPublication) : String := opaqueId "params" p.params.canonical

/-- The digest that recognises a publication. -/
def fingerprint (p : SnapshotPublication) : Except Error String := do
  let generatedAt ← p.generatedAt.utcIso
  let asOf ← p.asOf.utcIso
  return jsonDigest (.obj [("streamId", .str p.streamId), ("topic", .str p.topic.value),
    ("params", p.params), ("marketDate", .str p.marketDate.isoformat),
    ("generatedAt", .str generatedAt), ("asOf", .str asOf), ("dataStatus", .str p.dataStatus.value),
    ("qualityFlags", .arr ((p.qualityFlags.insertionSort (· ≤ ·)).map .str)),
    ("payload", p.payload), ("versions", p.versions.toDict)])

/-- The id of the snapshot of a publication. -/
def snapshotId (p : SnapshotPublication) : Except Error String := do
  let fingerprint ← p.fingerprint
  return opaqueId "snap" s!"{p.publicationId}:{fingerprint}"

end SnapshotPublication

/-- Where a snapshot belongs: its stream, its topic and the id of its parameters. -/
abbrev SnapshotScope := String × SnapshotTopic × String

/-- The scope of a publication. -/
def SnapshotPublication.scope [Sha256] (p : SnapshotPublication) : SnapshotScope :=
  (p.streamId, p.topic, p.paramsKey)

structure ReadSnapshot.Fields where
  snapshotId : String
  publicationId : String
  streamId : String
  topic : SnapshotTopic
  paramsKey : String
  sequence : Int
  marketDate : Date
  generatedAt : Datetime
  asOf : Datetime
  dataStatus : DataStatus
  qualityFlags : List String
  payload : Json
  versions : SnapshotVersions
  contentHash : String

/-- Check a snapshot and copy its contents. -/
def ReadSnapshot.Fields.postInit (s : ReadSnapshot.Fields) : Except Error ReadSnapshot.Fields := do
  ensure (1 ≤ s.sequence) "snapshot sequence는 1 이상이어야 합니다"
  ensure (s.asOf ≤ s.generatedAt) "snapshot as_of는 generated_at 이후일 수 없습니다"
  let payload ← copyJsonObject s.payload
  return { s with payload, qualityFlags := s.qualityFlags.insertionSort (· ≤ ·) }

/-- A snapshot as its constructor leaves it. -/
structure ReadSnapshot extends ReadSnapshot.Fields where
  valid : ∃ given : ReadSnapshot.Fields, given.postInit = .ok toFields

namespace ReadSnapshot

/-- Build a snapshot, or report the first failed check. -/
def make (given : ReadSnapshot.Fields) : Except Error ReadSnapshot :=
  match h : given.postInit with
  | .ok fields => .ok ⟨fields, given, h⟩
  | .error e => .error e

def scope (s : ReadSnapshot) : SnapshotScope := (s.streamId, s.topic, s.paramsKey)

theorem make_eq_ok {given : ReadSnapshot.Fields} {s : ReadSnapshot} (h : make given = .ok s) :
    s.snapshotId = given.snapshotId ∧ s.publicationId = given.publicationId ∧
      s.scope = (given.streamId, given.topic, given.paramsKey) ∧ s.sequence = given.sequence ∧
      s.asOf = given.asOf := by
  unfold make at h
  split at h
  · next fields hfields =>
    cases h
    simp only [Fields.postInit, check_bind_eq_ok] at hfields
    obtain ⟨payload, -, hfields⟩ := bind_eq_ok.mp hfields.2.2
    cases hfields
    exact ⟨rfl, rfl, rfl, rfl, rfl⟩
  · cases h

end ReadSnapshot

/-- The tables of the repository. -/
structure SnapshotRepository where
  sequences : Dict SnapshotScope Int
  snapshots : Dict String ReadSnapshot
  latestIds : Dict SnapshotScope String
  receipts : Dict String (String × String)
  failsNextCommit : Bool

namespace SnapshotRepository

def empty : SnapshotRepository := ⟨.empty, .empty, .empty, .empty, false⟩

def failNextCommit (r : SnapshotRepository) : SnapshotRepository :=
  { r with failsNextCommit := true }

/-- The snapshot under an id that has to be there. -/
def snapshotAt (r : SnapshotRepository) (snapshotId : String) : Except Error ReadSnapshot :=
  match r.snapshots.get? snapshotId with
  | some snapshot => .ok snapshot
  | none => .error ⟨.keyError, snapshotId⟩

variable [Sha256]

/-- Answer a publication whose id is known. -/
def replay (r : SnapshotRepository) (publication : SnapshotPublication)
    (fingerprint snapshotId : String) : Except Error ReadSnapshot := do
  let given ← publication.fingerprint
  if fingerprint ≠ given then
    .error ⟨.snapshotIdempotencyConflict, "같은 publication_id에 서로 다른 snapshot이 있습니다"⟩
  else r.snapshotAt snapshotId

/-- A publication is not behind the latest snapshot of its scope. -/
def checkStale (r : SnapshotRepository) (publication : SnapshotPublication) : Except Error Unit :=
  match r.latestIds.get? publication.scope with
  | none => .ok ()
  | some latestId => do
    let latest ← r.snapshotAt latestId
    if publication.asOf < latest.asOf then
      .error ⟨.staleSnapshotPublication, "snapshot as_of가 현재 full snapshot보다 과거입니다"⟩
    else .ok ()

/-- Make the next snapshot of the scope and enter it into the tables. -/
def store (r : SnapshotRepository) (publication : SnapshotPublication) :
    Except Error (ReadSnapshot × SnapshotRepository) := do
  r.checkStale publication
  let scope := publication.scope
  let sequence := (r.sequences.get? scope).getD 0 + 1
  let fingerprint ← publication.fingerprint
  let snapshotId ← publication.snapshotId
  let payload ← copyJsonObject publication.payload
  let contentHash := jsonDigest (.obj [
    ("scope", .arr [.str publication.streamId, .str publication.topic.value,
      .str publication.paramsKey]),
    ("sequence", .int sequence), ("payload", payload), ("versions", publication.versions.toDict)])
  let snapshot ← ReadSnapshot.make
    { snapshotId, publicationId := publication.publicationId, streamId := publication.streamId
      topic := publication.topic, paramsKey := publication.paramsKey, sequence
      marketDate := publication.marketDate, generatedAt := publication.generatedAt
      asOf := publication.asOf, dataStatus := publication.dataStatus
      qualityFlags := publication.qualityFlags.insertionSort (· ≤ ·), payload
      versions := publication.versions, contentHash }
  return (snapshot, { r with
    sequences := r.sequences.set scope sequence
    snapshots := r.snapshots.set snapshotId snapshot
    latestIds := r.latestIds.set scope snapshotId
    receipts := r.receipts.set publication.publicationId (fingerprint, snapshotId) })

/-- Publish: answer a known publication again, or store its snapshot; whatever raises restores the
tables. -/
def publish (r : SnapshotRepository) (publication : SnapshotPublication) :
    Except Error ReadSnapshot × SnapshotRepository :=
  match r.receipts.get? publication.publicationId with
  | some (fingerprint, snapshotId) => (r.replay publication fingerprint snapshotId, r)
  | none =>
    match r.store publication with
    | .error e => (.error e, r)
    | .ok (snapshot, stored) =>
      if r.failsNextCommit then
        (.error ⟨.snapshotCommitFailure, "snapshot commit 실패를 모의했습니다"⟩,
          { r with failsNextCommit := false })
      else (.ok snapshot, stored)

/-- The latest snapshot of a stream, a topic and its parameters. -/
def latest (r : SnapshotRepository) (streamId : String) (topic : SnapshotTopic) (params : Json) :
    Except Error (Option ReadSnapshot) := do
  ensure (params.isFinite = true) "snapshot 값은 유효한 JSON이어야 합니다"
  match r.latestIds.get? (streamId, topic, opaqueId "params" params.canonical) with
  | none => return none
  | some snapshotId =>
    let snapshot ← r.snapshotAt snapshotId
    return some snapshot

end SnapshotRepository

end Dayjaview.Realtime
