/-
Uploaded artifacts: their records, the rows that keep them, and the failures.

A record can only be built from values that pass the checks of its constructor.
What is on file is a row of plain columns, bound together by a digest over all of
them; it is read back through the constructor, and only if the digest is right.
-/
import Evleda.ImportApproval.Ledger

namespace Evleda.InterchangeArtifacts

open Outcome ImportApproval

/-- The hexadecimal SHA-256 of some bytes. -/
class ByteHashing where
  sha256 : List UInt8 → String

/-- No two byte strings have the same digest. -/
def ByteHashing.CollisionFree [ByteHashing] : Prop := Function.Injective ByteHashing.sha256

/-- Digests of texts are sixty-four hexadecimal digits. -/
def HexDigests [Hashing] : Prop := ∀ text, Text.isSha256 (Hashing.sha256 text) = true

/-! ### Failures -/

inductive ArtifactErrorClass where
  | invalidArtifactRequest
  | artifactTooLarge
  | unsupportedArtifactMediaType
  | artifactDigestMismatch
  | artifactIntegrityError
  | unsafeArtifactStorage
  | artifactNotFound
  | artifactIdempotencyConflict
  | artifactStoreUnavailable
  | kicadArtifactSyntaxError
  | kicadArtifactVersionUnsupported
  deriving DecidableEq, Repr

structure ArtifactFailure where
  errorClass : ArtifactErrorClass
  message : String
  deriving DecidableEq, Repr

def invalid (message : String) : ArtifactFailure := ⟨.invalidArtifactRequest, message⟩

def integrity (message : String) : ArtifactFailure := ⟨.artifactIntegrityError, message⟩

def unavailable (message : String) : ArtifactFailure := ⟨.artifactStoreUnavailable, message⟩

/-! ### Values -/

def maxArtifactBytes : Int := 32 * 1024 * 1024

inductive ArtifactKind where
  | kicadPcb
  | kicadProjectBundle
  deriving DecidableEq, Repr

def ArtifactKind.value : ArtifactKind → String
  | kicadPcb => "kicad_pcb"
  | kicadProjectBundle => "kicad_project_bundle"

def ArtifactKind.mediaType : ArtifactKind → String
  | kicadPcb => "application/x-kicad-pcb"
  | kicadProjectBundle => "application/zip"

def ArtifactKind.ofValue? (value : String) : Option ArtifactKind :=
  if value = kicadPcb.value then some kicadPcb
  else if value = kicadProjectBundle.value then some kicadProjectBundle
  else none

/-- The one member of `ArtifactSource`. -/
def userUpload : String := "user-upload"

/-- The one member of `QuarantineStatus`. -/
def storedUninspected : String := "stored-uninspected"

/-- `require_public_id` -/
def requirePublicId (value label : String) : Except ArtifactFailure Unit :=
  require (isPublicId value = true) (invalid (label ++ " must be a canonical public identifier"))

/-- `_ARTIFACT_ID` -/
def isArtifactId (value : String) : Bool :=
  let digits := value.toList.drop 9
  value.toList.take 9 == "artifact_".toList && digits.length == 32 && digits.all Text.isLowerHex

/-- `require_artifact_id` -/
def requireArtifactId (value : String) : Except ArtifactFailure Unit :=
  require (isArtifactId value = true) (invalid "artifact ID is invalid")

/-- `require_sha256` -/
def requireSha256 (value label : String) : Except ArtifactFailure Unit :=
  require (Text.isSha256 value = true) (invalid (label ++ " must be a lowercase SHA-256 digest"))

/-! ### Records -/

/-- What is kept about one artifact.  Its status and its source have one value only. -/
structure ArtifactRecord where
  artifactId : String
  kind : ArtifactKind
  sizeBytes : Int
  sha256 : String
  actorId : String
  idempotencyKey : String
  createdAt : DateTime
  validId : isArtifactId artifactId = true
  validSize : 1 ≤ sizeBytes ∧ sizeBytes ≤ maxArtifactBytes
  validDigest : Text.isSha256 sha256 = true
  validActor : isPublicId actorId = true
  validKey : isPublicId idempotencyKey = true
  deriving DecidableEq

/-- The constructor of `ArtifactRecord`. -/
def ArtifactRecord.make (artifactId : String) (kind : ArtifactKind) (mediaType : String)
    (sizeBytes : Int) (sha256 actorId idempotencyKey : String) (createdAt : DateTime) :
    Except ArtifactFailure ArtifactRecord :=
  if hid : isArtifactId artifactId = true then
    if mediaType ≠ kind.mediaType then
      .error ⟨.unsupportedArtifactMediaType,
        "artifact kind and media type do not form a supported KiCad upload"⟩
    else if hsize : 1 ≤ sizeBytes ∧ sizeBytes ≤ maxArtifactBytes then
      if hdigest : Text.isSha256 sha256 = true then
        if hactor : isPublicId actorId = true then
          if hkey : isPublicId idempotencyKey = true then
            .ok ⟨artifactId, kind, sizeBytes, sha256, actorId, idempotencyKey, createdAt, hid, hsize,
              hdigest, hactor, hkey⟩
          else .error (invalid "idempotency key must be a canonical public identifier")
        else .error (invalid "actor ID must be a canonical public identifier")
      else .error (invalid "SHA-256 must be a lowercase SHA-256 digest")
    else .error (invalid "artifact byte length is outside the contract bounds")
  else .error (invalid "artifact ID is invalid")

namespace ArtifactRecord

/-- The constructor passes the fields on. -/
theorem make_ok {artifactId mediaType sha256 actorId idempotencyKey : String} {kind : ArtifactKind}
    {sizeBytes : Int} {createdAt : DateTime} {record : ArtifactRecord}
    (h : make artifactId kind mediaType sizeBytes sha256 actorId idempotencyKey createdAt =
      .ok record) :
    record.artifactId = artifactId ∧ record.kind = kind ∧ record.sizeBytes = sizeBytes ∧
      record.sha256 = sha256 ∧ record.actorId = actorId ∧
      record.idempotencyKey = idempotencyKey ∧ record.createdAt = createdAt ∧
      mediaType = kind.mediaType := by
  unfold make at h
  repeat' split at h
  all_goals cases h
  rename_i hmedia _ _ _ _
  exact ⟨rfl, rfl, rfl, rfl, rfl, rfl, rfl, not_not.mp hmedia⟩

/-- `_datetime_text` -/
def createdText (record : ArtifactRecord) : String := timeText record.createdAt

/-- `_metadata_sha256` -/
def metadataSha256 [Hashing] (record : ArtifactRecord) (createdText : String) : String :=
  Hashing.ofJson (.object [("actorId", .str record.actorId), ("artifactId", .str record.artifactId),
    ("createdAt", .str createdText), ("domain", .str "flux-clone.quarantine-artifact.v1"),
    ("idempotencyKey", .str record.idempotencyKey), ("kind", .str record.kind.value),
    ("mediaType", .str record.kind.mediaType), ("quarantineStatus", .str storedUninspected),
    ("sha256", .str record.sha256), ("sizeBytes", .int record.sizeBytes),
    ("source", .str userUpload)])

end ArtifactRecord

/-! ### Rows -/

/-- A row of `quarantine_artifacts`. -/
structure ArtifactRow where
  artifactId : String
  sha256 : String
  kind : String
  mediaType : String
  sizeBytes : Int
  quarantineStatus : String
  actorId : String
  source : String
  idempotencyKey : String
  createdAt : String
  metadataSha256 : String
  deriving DecidableEq, Repr

namespace ArtifactRow

/-- The columns that are unique together. -/
def key (row : ArtifactRow) : String × String × String :=
  (row.actorId, row.source, row.idempotencyKey)

def ofRecord [Hashing] (record : ArtifactRecord) : ArtifactRow where
  artifactId := record.artifactId
  sha256 := record.sha256
  kind := record.kind.value
  mediaType := record.kind.mediaType
  sizeBytes := record.sizeBytes
  quarantineStatus := storedUninspected
  actorId := record.actorId
  source := userUpload
  idempotencyKey := record.idempotencyKey
  createdAt := record.createdText
  metadataSha256 := record.metadataSha256 record.createdText

def unreadable : ArtifactFailure :=
  integrity "managed artifact metadata failed integrity verification"

/-- `_record_from_row` -/
def record [Hashing] (row : ArtifactRow) : Except ArtifactFailure ArtifactRecord :=
  match zuluTime row.createdAt, ArtifactKind.ofValue? row.kind with
  | some createdAt, some kind =>
      if row.quarantineStatus = storedUninspected ∧ row.source = userUpload then
        match ArtifactRecord.make row.artifactId kind row.mediaType row.sizeBytes row.sha256
            row.actorId row.idempotencyKey createdAt with
        | .ok record =>
            if Text.isSha256 row.metadataSha256 = true ∧
                record.metadataSha256 row.createdAt = row.metadataSha256 then .ok record
            else .error unreadable
        | .error _ => .error unreadable
      else .error unreadable
  | _, _ => .error unreadable

/-- The `CHECK` constraints of the table. -/
def Admissible (row : ArtifactRow) : Prop :=
  (row.kind = ArtifactKind.kicadPcb.value ∧ row.mediaType = ArtifactKind.kicadPcb.mediaType ∨
    row.kind = ArtifactKind.kicadProjectBundle.value ∧
      row.mediaType = ArtifactKind.kicadProjectBundle.mediaType) ∧
    1 ≤ row.sizeBytes ∧ row.sizeBytes ≤ maxArtifactBytes ∧
    row.quarantineStatus = storedUninspected ∧ row.source = userUpload

instance (row : ArtifactRow) : Decidable row.Admissible := inferInstanceAs (Decidable (_ ∧ _))

variable [Hashing]

theorem record_ok {row : ArtifactRow} {record : ArtifactRecord} (h : row.record = .ok record) :
    record.artifactId = row.artifactId ∧ record.sha256 = row.sha256 ∧
      record.sizeBytes = row.sizeBytes ∧ record.actorId = row.actorId ∧
      record.idempotencyKey = row.idempotencyKey ∧ row.source = userUpload ∧
      row.kind = record.kind.value ∧ row.mediaType = record.kind.mediaType := by
  unfold ArtifactRow.record at h
  split at h
  · rename_i createdAt kind _ hkind
    split at h
    · rename_i hfixed
      split at h
      · rename_i made hmade
        split at h
        · obtain rfl := Except.ok.inj h
          obtain ⟨hid, hkind', hsize, hdigest, hactor, hkey, -, hmedia⟩ :=
            ArtifactRecord.make_ok hmade
          have hvalue : row.kind = kind.value := by
            unfold ArtifactKind.ofValue? at hkind
            split at hkind
            · rename_i hpcb
              obtain rfl := Option.some.inj hkind
              exact hpcb
            · split at hkind
              · rename_i hbundle
                obtain rfl := Option.some.inj hkind
                exact hbundle
              · cases hkind
          rw [hkind']
          exact ⟨hid, hdigest, hsize, hactor, hkey, hfixed.2, hvalue, hmedia⟩
        · cases h
      · cases h
    · cases h
  · cases h

end ArtifactRow

end Evleda.InterchangeArtifacts
