import Dayjaview.Core.Calendar
import Dayjaview.Core.Json
import Dayjaview.Core.Error

/-!
# Reference data

A snapshot is the raw answer of a source with the metadata of its collection: what
it is about, when it was collected and the revision it is stored as.
-/

namespace Dayjaview.Reference

inductive SourceProvider where
  | krxOpenApi
  | opendart
  deriving DecidableEq

inductive SourceDataset where
  | krxStockDaily
  | krxCalendarDerived
  | krxCorporateActionReference
  | opendartCorpCode
  | opendartStockTotal
  | opendartLargestShareholder
  | opendartTreasuryStatus
  | opendartDisclosureClassification
  deriving DecidableEq

/-- Whether the source was checked against the live service. -/
inductive LiveValidationStatus where
  | unverified
  | verified
  deriving DecidableEq

def SourceProvider.value : SourceProvider → String
  | .krxOpenApi => "KRX_OPEN_API"
  | .opendart => "OPENDART"

def SourceDataset.value : SourceDataset → String
  | .krxStockDaily => "KRX_STOCK_DAILY"
  | .krxCalendarDerived => "KRX_CALENDAR_DERIVED"
  | .krxCorporateActionReference => "KRX_CORPORATE_ACTION_REFERENCE"
  | .opendartCorpCode => "OPENDART_CORP_CODE"
  | .opendartStockTotal => "OPENDART_STOCK_TOTAL"
  | .opendartLargestShareholder => "OPENDART_LARGEST_SHAREHOLDER"
  | .opendartTreasuryStatus => "OPENDART_TREASURY_STATUS"
  | .opendartDisclosureClassification => "OPENDART_DISCLOSURE_CLASSIFICATION"

/-- The text of a validation status. -/
def LiveValidationStatus.value : LiveValidationStatus → String
  | .unverified => "UNVERIFIED"
  | .verified => "VERIFIED"

/-- The fields of the metadata of a collection. -/
structure SourceMetadata.Fields where
  provider : SourceProvider
  dataset : SourceDataset
  endpoint : String
  sourceKey : String
  asOf : Datetime
  collectedAt : Datetime
  parserVersion : String
  revision : Nat
  lineage : List String
  sourceDocumentIds : List String := []
  liveValidationStatus : LiveValidationStatus := .unverified
  deriving DecidableEq

/-- The checks of the metadata, in order. -/
def SourceMetadata.Fields.postInit (m : SourceMetadata.Fields) : Except Error Unit := do
  ensure (¬ m.collectedAt < m.asOf) "as_of는 collected_at보다 늦을 수 없습니다."
  ensure ("https://".toList.isPrefixOf m.endpoint.toList = true) "endpoint는 HTTPS URI여야 합니다."
  ensure (m.sourceKey ≠ "" ∧ m.parserVersion ≠ "")
    "source_key와 parser_version은 비어 있을 수 없습니다."
  ensure (0 < m.revision) "revision은 1 이상이어야 합니다."
  ensure (m.lineage ≠ [] ∧ m.lineage.contains "" = false)
    "lineage에는 하나 이상의 비어 있지 않은 항목이 필요합니다."
  ensure m.lineage.Nodup "lineage 항목은 중복될 수 없습니다."
  ensure (m.sourceDocumentIds.contains "" = false)
    "source_document_ids에는 빈 항목을 둘 수 없습니다."
  ensure m.sourceDocumentIds.Nodup "source_document_ids 항목은 중복될 수 없습니다."

/-- The metadata of a collection. -/
structure SourceMetadata extends SourceMetadata.Fields where
  valid : toFields.postInit = .ok ()
  deriving DecidableEq

/-- Build the metadata, or report the first failed check. -/
def SourceMetadata.make (m : SourceMetadata.Fields) : Except Error SourceMetadata :=
  checked SourceMetadata.Fields.postInit SourceMetadata.mk m

def SourceMetadata.knownAt (m : SourceMetadata) : Datetime := m.collectedAt

/-- A text is a SHA-256 digest in lower case. -/
def isSha256Text (s : String) : Bool :=
  s.toList.length == 64 && s.toList.all "0123456789abcdef".toList.contains

/-- A raw answer with the metadata of its collection. -/
structure SourceSnapshot [Sha256] where
  metadata : SourceMetadata
  rawPayloadText : String
  rawHash : String
  hashText : isSha256Text rawHash = true
  hashed : hexdigest rawPayloadText = rawHash
  deriving DecidableEq

theorem SourceSnapshot.rawHash_ne_empty [Sha256] (s : SourceSnapshot) : s.rawHash ≠ "" := by
  intro h
  have htext := s.hashText
  rw [h] at htext
  simp [isSha256Text] at htext

/-- The plain value of the metadata. -/
def SourceMetadata.asdict (m : SourceMetadata) : Json :=
  .obj [("provider", .str m.provider.value), ("dataset", .str m.dataset.value),
    ("endpoint", .str m.endpoint), ("source_key", .str m.sourceKey),
    ("as_of", .str m.asOf.isoformat), ("collected_at", .str m.collectedAt.isoformat),
    ("parser_version", .str m.parserVersion), ("revision", .int m.revision),
    ("lineage", .arr (m.lineage.map .str)),
    ("source_document_ids", .arr (m.sourceDocumentIds.map .str)),
    ("live_validation_status", .str m.liveValidationStatus.value)]

/-- The plain value of a snapshot. -/
def SourceSnapshot.asdict [Sha256] (s : SourceSnapshot) : Json :=
  .obj [("metadata", s.metadata.asdict), ("raw_payload_text", .str s.rawPayloadText),
    ("raw_hash", .str s.rawHash)]

end Dayjaview.Reference
