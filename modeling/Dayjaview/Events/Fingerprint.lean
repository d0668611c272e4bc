import Dayjaview.Events.Models

/-!
# Fingerprints recognise commands

The canonical form of a command contains all of its fields, so under a hash that
separates texts a fingerprint belongs to one command only.
-/

namespace Dayjaview.Events

open Dayjaview.Domain

theorem sortKeys_optionalText (s : Option String) : (optionalText s).sortKeys = optionalText s := by
  cases s <;> rfl

theorem optionalText_injective : Function.Injective optionalText := by
  intro a b h
  cases a <;> cases b <;> simp_all [optionalText]

theorem LineageRef.eq_of_sortKeys_eq {a b : LineageRef}
    (h : a.toDict.sortKeys = b.toDict.sortKeys) : a = b := by
  have hv := Json.values_eq_of_sortKeys_eq h rfl (by simp)
  simp only [List.map_cons, List.map_nil, List.cons.injEq, Json.sortKeys, sortKeys_optionalText,
    Json.str.injEq, and_true] at hv
  obtain ⟨⟨kind, identifier, version, contentHash⟩, ha⟩ := a
  obtain ⟨⟨kind', identifier', version', contentHash'⟩, hb⟩ := b
  obtain ⟨rfl, rfl, hversion, hcontent⟩ := hv
  obtain rfl := optionalText_injective hversion
  obtain rfl := optionalText_injective hcontent
  rfl

theorem EventInputMetadata.eq_of_sortKeys_eq {a b : EventInputMetadata}
    (h : a.toDict.sortKeys = b.toDict.sortKeys) : a = b := by
  have hv := Json.values_eq_of_sortKeys_eq h rfl (by simp)
  simp only [List.map_cons, List.map_nil, List.cons.injEq, Json.sortKeys, sortKeys_optionalText,
    Json.str.injEq, Json.int.injEq, Json.arr.injEq, and_true] at hv
  obtain ⟨⟨messageId, source, sequence, occurredAt, receivedAt, correlationId, causationId,
    lineage⟩, ha⟩ := a
  obtain ⟨⟨messageId', source', sequence', occurredAt', receivedAt', correlationId', causationId',
    lineage'⟩, hb⟩ := b
  obtain ⟨rfl, rfl, rfl, hoccurred, hreceived, rfl, hcausation, hlineage⟩ := hv
  obtain rfl := Datetime.isoformat_injective hoccurred
  obtain rfl := Datetime.isoformat_injective hreceived
  obtain rfl := optionalText_injective hcausation
  obtain rfl := Json.eq_of_sortItems_eq (fun _ _ => LineageRef.eq_of_sortKeys_eq) hlineage
  rfl

theorem CanonicalEventIdentity.eq_of_sortKeys_eq [Sha256] {a b : CanonicalEventIdentity}
    (h : a.toDict.sortKeys = b.toDict.sortKeys) : a = b := by
  have hv := Json.values_eq_of_sortKeys_eq h rfl (by simp)
  simp only [List.map_cons, List.map_nil, List.cons.injEq, Json.sortKeys, Json.str.injEq,
    and_true] at hv
  obtain ⟨marketDate, theme, catalyst, ha⟩ := a
  obtain ⟨marketDate', theme', catalyst', hb⟩ := b
  obtain ⟨hdate, rfl, rfl, -⟩ := hv
  obtain rfl := Date.isoformat_injective hdate
  rfl

theorem EventVersions.eq_of_sortKeys_eq {a b : EventVersions}
    (h : a.toDict.sortKeys = b.toDict.sortKeys) : a = b := by
  have hv := Json.values_eq_of_sortKeys_eq h rfl (by simp)
  simp only [List.map_cons, List.map_nil, List.cons.injEq, Json.sortKeys, sortKeys_optionalText,
    Json.str.injEq, and_true] at hv
  obtain ⟨calculation, ranking, membership, baseline, ha⟩ := a
  obtain ⟨calculation', ranking', membership', baseline', hb⟩ := b
  obtain ⟨rfl, rfl, rfl, hbaseline⟩ := hv
  obtain rfl := optionalText_injective hbaseline
  rfl

private theorem kind_value_injective : Function.Injective ClassificationKind.value := by
  intro a b h
  cases a <;> cases b <;> simp_all [ClassificationKind.value]

private theorem certainty_value_injective : Function.Injective ClassificationCertainty.value := by
  intro a b h
  cases a <;> cases b <;> simp_all [ClassificationCertainty.value]

private theorem source_value_injective : Function.Injective ClassificationSource.value := by
  intro a b h
  cases a <;> cases b <;> simp_all [ClassificationSource.value]

theorem CreateEventCommand.eq_of_sortKeys_eq [Sha256] {a b : CreateEventCommand}
    (h : a.toDict.sortKeys = b.toDict.sortKeys) : a = b := by
  have hv := Json.values_eq_of_sortKeys_eq h rfl (by simp)
  simp only [List.map_cons, List.map_nil, List.cons.injEq, Json.sortKeys, Json.str.injEq,
    and_true, true_and] at hv
  obtain ⟨metadata, identity, name, versions, kind, certainty, source, ha⟩ := a
  obtain ⟨metadata', identity', name', versions', kind', certainty', source', hb⟩ := b
  obtain ⟨hmetadata, hidentity, rfl, hversions, hkind, hcertainty, hsource⟩ := hv
  obtain rfl := EventInputMetadata.eq_of_sortKeys_eq hmetadata
  obtain rfl := CanonicalEventIdentity.eq_of_sortKeys_eq hidentity
  obtain rfl := EventVersions.eq_of_sortKeys_eq hversions
  obtain rfl := kind_value_injective hkind
  obtain rfl := certainty_value_injective hcertainty
  obtain rfl := source_value_injective hsource
  rfl

theorem StatusCommand.eq_of_sortKeys_eq {σ : Type} {value : σ → String}
    (hvalue : Function.Injective value) {commandType commandType' : String}
    {a b : StatusCommand.Fields σ}
    (h : (a.toDict commandType value).sortKeys = (b.toDict commandType' value).sortKeys) :
    a = b := by
  have hv := Json.values_eq_of_sortKeys_eq h rfl (by simp)
  simp only [List.map_cons, List.map_nil, List.cons.injEq, Json.sortKeys, Json.str.injEq,
    Json.int.injEq, Int.natCast_inj, and_true, true_and] at hv
  obtain ⟨metadata, eventId, target, expected, reason, policy⟩ := a
  obtain ⟨metadata', eventId', target', expected', reason', policy'⟩ := b
  obtain ⟨-, hmetadata, rfl, htarget, rfl, rfl, rfl⟩ := hv
  obtain rfl := EventInputMetadata.eq_of_sortKeys_eq hmetadata
  obtain rfl := hvalue htarget
  rfl

/-- Every command writes its type. -/
private def EventCommand.commandType : EventCommand → String
  | create _ => "CREATE_EVENT"
  | transition _ => "TRANSITION_LIFECYCLE"
  | reconcile _ => "RECONCILE_EVENT"

private theorem toDict_commandType [Sha256] (command : EventCommand) :
    ∃ fields, command.toDict = .obj fields ∧ (fields.map Prod.fst).Nodup ∧
      Json.field? fields "commandType" = some (.str command.commandType) := by
  cases command with
  | create command => exact ⟨_, rfl, by simp, rfl⟩
  | transition command => exact ⟨_, rfl, by simp, rfl⟩
  | reconcile command => exact ⟨_, rfl, by simp, rfl⟩

private theorem commandType_eq_of_sortKeys_eq [Sha256] {a b : EventCommand}
    (h : a.toDict.sortKeys = b.toDict.sortKeys) : a.commandType = b.commandType := by
  obtain ⟨fs, hfs, hnf, hf⟩ := toDict_commandType a
  obtain ⟨gs, hgs, hng, hg⟩ := toDict_commandType b
  rw [hfs, hgs] at h
  have hfield := Json.field?_eq_of_sortKeys_eq hnf hng h "commandType"
  rw [hf, hg] at hfield
  simpa [Json.sortKeys] using hfield

theorem EventCommand.eq_of_sortKeys_eq [Sha256] {a b : EventCommand}
    (h : a.toDict.sortKeys = b.toDict.sortKeys) : a = b := by
  have htype := commandType_eq_of_sortKeys_eq h
  cases a with
  | create c =>
    cases b with
    | create c' => rw [CreateEventCommand.eq_of_sortKeys_eq h]
    | transition c' => simp [commandType] at htype
    | reconcile c' => simp [commandType] at htype
  | transition c =>
    cases b with
    | create c' => simp [commandType] at htype
    | transition c' =>
      obtain ⟨fields, hc⟩ := c
      obtain ⟨fields', hc'⟩ := c'
      obtain rfl : fields = fields' :=
        StatusCommand.eq_of_sortKeys_eq LifecycleStatus.value_injective h
      rfl
    | reconcile c' => simp [commandType] at htype
  | reconcile c =>
    cases b with
    | create c' => simp [commandType] at htype
    | transition c' => simp [commandType] at htype
    | reconcile c' =>
      obtain ⟨fields, hc⟩ := c
      obtain ⟨fields', hc'⟩ := c'
      obtain rfl : fields = fields' :=
        StatusCommand.eq_of_sortKeys_eq ReconciliationStatus.value_injective h
      rfl

theorem commandFingerprint_injective [Sha256]
    (hinj : Function.Injective (hexdigest : String → String)) :
    Function.Injective (commandFingerprint : EventCommand → String) :=
  fun _ _ h => EventCommand.eq_of_sortKeys_eq (sortKeys_eq_of_jsonDigest_eq hinj h)


/-- Five past nine on a trading day. -/
def fivePastNine : Datetime := (Date.august 3).seoul 9 5

/-- A creation as the pipeline sends it. -/
def firstCreation : CreateEventCommand where
  metadata := ⟨{ messageId := "create-1", source := "pipeline", sourceSequence := 1,
                 occurredAt := fivePastNine, receivedAt := fivePastNine,
                 correlationId := "run-1" }, by decide⟩
  identity := ⟨.august 3, "theme-1", "price-flow", by decide⟩
  displayName := "반도체"
  versions := ⟨"calc-1", "rank-1", "members-1", none, by decide⟩
  valid := by decide

/-- The digests behind the identity of the creation. -/
def firstCreationIds : List (String × String) :=
  [(firstCreation.identity.naturalKey.canonical,
      "c29ff0b3ef692036c5972053b7d92d4fe930329061654f5d12a14c013db80092"),
    ("eventkey_c29ff0b3ef692036c5972053b7d92d4f",
      "da6876d98bd569b93f891d944310118dc9a022b97db51fc902c6461754d63ec3")]

/-- The digests of every text that writing the creation hashes. -/
def firstCreationDigests : List (String × String) :=
  firstCreationIds ++
    [((@CreateEventCommand.toDict (.ofTable firstCreationIds) firstCreation).canonical,
        "d28653e302061ff498f95ac85f7a303a0031c44a35d0e4e6ee2ae802d3964fa6"),
      ("create-1:canonical_event.created",
        "2c213b8a2d3f95c0d454833ddc4a51e296a312a4db45eb639814ed20dae8dd68")]

end Dayjaview.Events
