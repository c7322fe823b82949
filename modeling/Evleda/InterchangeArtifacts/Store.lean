/-
The quarantine store: blobs under their digests, and a table of what was uploaded.

An upload begins a transaction that writes, which keeps every other upload out.
Inside of it the bytes go to a new file, which is then linked to the name of their
digest; a name that is taken is only checked.  The row is shown when the
transaction commits.  A read looks the row up and reads the file, and takes no lock.

Whether a payload is a KiCad board or bundle is asked of a function given from
outside, and so are the time, the random names and how many bytes one write takes.
-/
import Evleda.InterchangeArtifacts.Models
import Evleda.Lib.FileSystem

namespace Evleda.InterchangeArtifacts

open Effect Outcome ImportApproval

/-! ### What is shared -/

/-- The names below the root of the store. -/
inductive Path where
  | shard (name : String)
  | blob (digest : String)
  | upload (name : String)
  deriving DecidableEq, Repr

/-- The directory of a digest. -/
def shardOf (digest : String) : Path := .shard (String.ofList (digest.toList.take 2))

/-- What a step of a call is about. -/
inductive Place where
  | begin
  | rollback
  | commit
  | select
  | file
  deriving DecidableEq, Repr

/-- What the calls `ι` share: the files, the committed rows, and who has a transaction that writes. -/
structure Storage (ι : Type) where
  files : FileSystem Path
  rows : List ArtifactRow
  writer : Option ι

abbrev ArtifactSteps (ι α : Type) := Steps Place (Storage ι) ArtifactFailure α

def found {α : Type} (x : Option α) (failure : ArtifactFailure) : Except ArtifactFailure α :=
  match x with
  | some a => .ok a
  | none => .error failure

section Programs

variable {ι : Type} [Hashing] [ByteHashing]

def look {α : Type} (place : Place) (f : Storage ι → α) : ArtifactSteps ι α :=
  .atomic place (read f)

/-! ### Files -/

/-- `os.read` until there is nothing more, or as much as was asked for. -/
def readChunks (descriptor : Node) : Nat → Nat → List UInt8 → ArtifactSteps ι (List UInt8)
  | 0, _, payload => pure payload
  | fuel + 1, remaining, payload =>
      if remaining = 0 then pure payload
      else do
        let chunk ← look .file fun s =>
          s.files.read descriptor payload.length (min 1048576 remaining)
        if chunk = [] then pure payload
        else readChunks descriptor fuel (remaining - chunk.length) (payload ++ chunk)

/-- `_verify_object`.  Every chunk has a byte, so that as many rounds as bytes are enough. -/
def verifyObject (path : Path) (digest : String) (sizeBytes : Int) :
    ArtifactSteps ι (List UInt8) := do
  let before ← look .file fun s => s.files.stat path
  let before ← .check (found before (integrity "managed artifact object is missing"))
  .check (require (before.regular = true ∧ (before.size : Int) = sizeBytes)
    (integrity "managed artifact object length or type is invalid"))
  let descriptor ← look .file fun s => s.files.entry path
  let descriptor ← .check
    (found descriptor (integrity "managed artifact object could not be read safely"))
  let opened ← look .file fun s => s.files.fstat descriptor
  .check (require (opened.regular = true ∧ (opened.size : Int) = sizeBytes)
    (integrity "managed artifact object changed before read"))
  let payload ← readChunks descriptor (sizeBytes + 1).toNat (sizeBytes + 1).toNat []
  let after ← look .file fun s => s.files.fstat descriptor
  .check (require ((payload.length : Int) = sizeBytes ∧ (after.size : Int) = sizeBytes ∧
      opened.number = before.number)
    (integrity "managed artifact object changed during read"))
  .check (require (ByteHashing.sha256 payload = digest)
    (integrity "managed artifact object digest is invalid"))
  return payload

/-- `_read_verified_payload` -/
def readVerifiedPayload (record : ArtifactRecord) : ArtifactSteps ι (List UInt8) := do
  let shard ← look .file fun s => s.files.entry (shardOf record.sha256)
  .check (require (shard = some .directory)
    ⟨.unsafeArtifactStorage, "managed artifact shard is not an owned directory"⟩)
  verifyObject (.blob record.sha256) record.sha256 record.sizeBytes

/-- `_ensure_owned_directory` -/
def ensureDirectory (path : Path) : Effect (Storage ι) ArtifactFailure Unit := fun s =>
  match s.files.mkdir path with
  | some files => (.ok (), { s with files := files })
  | none => (.error (unavailable "managed artifact directory could not be prepared"), s)

def installationFailed : ArtifactFailure :=
  unavailable "managed artifact object installation failed"

/-- `os.open` of a new upload. -/
def openUpload (upload : String) : Effect (Storage ι) ArtifactFailure Nat := fun s =>
  match s.files.create (.upload upload) with
  | some (number, files) => (.ok number, { s with files := files })
  | none => (.error installationFailed, s)

/-- `os.write`, given the number of bytes that each call takes; the last one takes what is left. -/
def writeChunks (number : Nat) : List Nat → List UInt8 → Nat → ArtifactSteps ι Unit
  | [], bytes, offset =>
      if bytes = [] then pure ()
      else .atomic .file (write fun s => { s with files := s.files.write number offset bytes })
  | count :: counts, bytes, offset =>
      if bytes = [] then pure ()
      else if count = 0 then
        .check (.error (unavailable "managed artifact object write was incomplete"))
      else do
        .atomic .file (write fun s =>
          { s with files := s.files.write number offset (bytes.take count) })
        writeChunks number counts (bytes.drop count) (offset + (bytes.take count).length)

/-- `os.link`; whether the name of the digest was free. -/
def linkObject (upload digest : String) : Effect (Storage ι) ArtifactFailure Bool := fun s =>
  match s.files.link (.upload upload) (.blob digest) with
  | .ok files => (.ok true, { s with files := files })
  | .error .taken => (.ok false, s)
  | .error .missing => (.error installationFailed, s)

/-- `temporary.unlink(missing_ok=True)` -/
def removeUpload (upload : String) : ArtifactSteps ι Unit :=
  .atomic .file (write fun s => { s with files := s.files.unlink (.upload upload) })

/-- Write the payload to a new file and give it the name of its digest. -/
def placeObject (digest : String) (payload : List UInt8) (upload : String) (counts : List Nat) :
    ArtifactSteps ι Unit := do
  let number ← .atomic .file (openUpload upload)
  writeChunks number counts payload 0
  let linked ← .atomic .file (linkObject upload digest)
  if linked then pure ()
  else do
    let _ ← verifyObject (.blob digest) digest payload.length
    pure ()

/-- `_install_object` -/
def installObject (digest : String) (payload : List UInt8) (upload : String) (counts : List Nat) :
    ArtifactSteps ι Unit := do
  .atomic .file (ensureDirectory (shardOf digest))
  let present ← look .file fun s => (s.files.entry (.blob digest)).isSome
  if present then do
    let _ ← verifyObject (.blob digest) digest payload.length
    pure ()
  else do
    (placeObject digest payload upload counts).handling fun failure => do
      removeUpload upload
      .check (.error failure)
    removeUpload upload
    let _ ← verifyObject (.blob digest) digest payload.length
    pure ()

/-! ### Transactions -/

variable [DecidableEq ι]

/-- `BEGIN IMMEDIATE`, and what the transaction finds.  A call that has waited long enough for
another writer gives up. -/
def beginImmediate (i : ι) : Effect (Storage ι) ArtifactFailure (List ArtifactRow) := do
  let writer ← read fun s => s.writer
  check (require (writer = none) (unavailable "managed artifact metadata write failed"))
  write fun s => { s with writer := some i }
  read fun s => s.rows

/-- End a transaction that writes without its work. -/
def giveUp (i : ι) (s : Storage ι) : Storage ι :=
  if s.writer = some i then { s with writer := none } else s

/-- End a transaction that writes with its work. -/
def commitWork (rows : List ArtifactRow) (s : Storage ι) : Storage ι :=
  { s with rows := rows, writer := none }

/-- `_transaction(write=True)`, around work that returns the rows it leaves. -/
def transaction {α : Type} (i : ι) (work : List ArtifactRow → ArtifactSteps ι (α × List ArtifactRow)) :
    ArtifactSteps ι α := do
  let view ← .atomic .begin (beginImmediate i)
  let worked ← (work view).handling fun failure => do
    .atomic .rollback (write (giveUp i))
    .check (.error failure)
  .atomic .commit (write (commitWork worked.2))
  return worked.1

/-! ### Uploads -/

/-- The arguments of `put`, its store, and what it takes from the outside. -/
structure PutCall where
  payload : List UInt8
  actorId : String
  sourceSha256 : String
  declaredLength : Int
  idempotencyKey : String
  kind : String
  mediaType : String
  source : String
  maximumBytes : Option Int
  storeLimit : Int
  closed : Bool
  createdAt : DateTime
  uuid : String
  upload : String
  counts : List Nat

/-- `_effective_limit` -/
def effectiveLimit (storeLimit : Int) : Option Int → Except ArtifactFailure Int
  | none => .ok storeLimit
  | some requested => do
      require (1 ≤ requested ∧ requested ≤ storeLimit)
        (invalid "per-request byte limit must be positive and no greater than the store limit")
      return requested

/-- `_require_open` -/
def requireOpen (closed : Bool) : Except ArtifactFailure Unit :=
  require (closed = false) (unavailable "managed artifact store is closed")

/-- What `put` checks before its transaction: the kind of what is uploaded. -/
def PutCall.checked (validate : ArtifactKind → List UInt8 → Except ArtifactFailure Unit)
    (call : PutCall) : Except ArtifactFailure ArtifactKind := do
  requireOpen call.closed
  requirePublicId call.actorId "actor ID"
  requirePublicId call.idempotencyKey "idempotency key"
  requireSha256 call.sourceSha256 "source SHA-256"
  let kind ← found (ArtifactKind.ofValue? call.kind)
    ⟨.unsupportedArtifactMediaType, "artifact kind is not a supported KiCad upload"⟩
  require (call.source = userUpload) (invalid "artifact source must be user-upload")
  require (call.mediaType = kind.mediaType)
    ⟨.unsupportedArtifactMediaType,
      "artifact kind and media type do not form a supported KiCad upload"⟩
  require (1 ≤ call.declaredLength) (invalid "Content-Length must be a positive integer")
  let limit ← effectiveLimit call.storeLimit call.maximumBytes
  require (call.declaredLength ≤ limit ∧ (call.payload.length : Int) ≤ limit)
    ⟨.artifactTooLarge, "artifact exceeds the configured upload byte limit"⟩
  require ((call.payload.length : Int) = call.declaredLength)
    (invalid "received byte length does not match Content-Length")
  require (ByteHashing.sha256 call.payload = call.sourceSha256)
    ⟨.artifactDigestMismatch, "received bytes do not match the supplied SHA-256"⟩
  validate kind call.payload
  return kind

/-- What makes a retry the same request. -/
def SameRequest (record : ArtifactRecord) (call : PutCall) (kind : ArtifactKind) : Prop :=
  record.sha256 = call.sourceSha256 ∧ record.sizeBytes = call.payload.length ∧ record.kind = kind

instance (record : ArtifactRecord) (call : PutCall) (kind : ArtifactKind) :
    Decidable (SameRequest record call kind) := inferInstanceAs (Decidable (_ ∧ _))

def differentRequest : ArtifactFailure :=
  ⟨.artifactIdempotencyConflict,
    "idempotency key was already used for a different artifact input"⟩

/-- `INSERT INTO quarantine_artifacts` -/
def insertRow (rows : List ArtifactRow) (row : ArtifactRow) :
    Except ArtifactFailure (List ArtifactRow) := do
  require (row.Admissible ∧ row.artifactId ∉ rows.map (·.artifactId) ∧
      row.key ∉ rows.map ArtifactRow.key)
    (integrity "artifact metadata violated an immutable constraint")
  return rows ++ [row]

/-- The body of the transaction of `put`. -/
def putLocked (call : PutCall) (kind : ArtifactKind) (rows : List ArtifactRow) :
    ArtifactSteps ι (ArtifactRecord × List ArtifactRow) :=
  match rows.find? fun row => row.key = (call.actorId, userUpload, call.idempotencyKey) with
  | some row => do
      let record ← .check row.record
      .check (require (SameRequest record call kind) differentRequest)
      let _ ← readVerifiedPayload record
      return (record, rows)
  | none => do
      installObject call.sourceSha256 call.payload call.upload call.counts
      let record ← .check (ArtifactRecord.make ("artifact_" ++ call.uuid) kind call.mediaType
        call.payload.length call.sourceSha256 call.actorId call.idempotencyKey call.createdAt)
      let rows ← .check (insertRow rows (ArtifactRow.ofRecord record))
      return (record, rows)

/-- What a call returns. -/
inductive Answer where
  | stored (record : ArtifactRecord)
  | content (record : ArtifactRecord) (payload : List UInt8)

/-- `put` -/
def put (validate : ArtifactKind → List UInt8 → Except ArtifactFailure Unit) (i : ι)
    (call : PutCall) : ArtifactSteps ι Answer := do
  let kind ← .check (call.checked validate)
  let record ← transaction i (putLocked call kind)
  return .stored record

/-! ### Reads -/

structure ReadCall where
  artifactId : String
  sha256 : String
  actorId : String
  closed : Bool

/-- What `read` checks before its transaction. -/
def ReadCall.checked (call : ReadCall) : Except ArtifactFailure Unit := do
  requireOpen call.closed
  requireArtifactId call.artifactId
  requireSha256 call.sha256 "artifact SHA-256"
  requirePublicId call.actorId "actor ID"

def notFound : ArtifactFailure := ⟨.artifactNotFound, "managed artifact was not found"⟩

omit [DecidableEq ι] in
/-- `read` -/
def readArtifact (call : ReadCall) : ArtifactSteps ι Answer := do
  .check call.checked
  let row ← look .select fun s => s.rows.find? fun row => row.artifactId = call.artifactId
  let row ← .check (found row notFound)
  let record ← .check row.record
  .check (require (record.actorId = call.actorId) notFound)
  .check (require (record.sha256 = call.sha256)
    ⟨.artifactDigestMismatch, "artifact ID is not bound to the supplied SHA-256"⟩)
  let payload ← readVerifiedPayload record
  .check (require ((payload.length : Int) = record.sizeBytes)
    (integrity "managed artifact byte length no longer matches metadata"))
  .check (require (ByteHashing.sha256 payload = record.sha256)
    (integrity "managed artifact digest no longer matches metadata"))
  return .content record payload

/-- A call of the store. -/
inductive Call where
  | put (call : PutCall)
  | read (call : ReadCall)

def Call.steps (validate : ArtifactKind → List UInt8 → Except ArtifactFailure Unit) (i : ι) :
    Call → ArtifactSteps ι Answer
  | .put call => InterchangeArtifacts.put validate i call
  | .read call => readArtifact call

end Programs

end Evleda.InterchangeArtifacts
