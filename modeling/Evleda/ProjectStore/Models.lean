/-
What the project store raises, and the records it keeps beside the design.

A revision is stored with the transaction that made it, the approval that
released it and a signed attestation that binds the three.  The approval and the
attestation are records of the store; a record is a `Checked` one, so none of
them is held that its constructor would have refused.  Their times are moments of
the interpreter's calendar, already in UTC.
-/
import Evleda.Kernel.Engine
import Evleda.Lib.Calendar

namespace Evleda.ProjectStore

open Kernel

/-! ### What the store raises -/

/-- The exception classes of the store; what the kernel raises goes through it unchanged. -/
inductive StoreErrorClass where
  | projectStoreError | projectNotFound | projectAlreadyExists | concurrencyConflict
  | integrityError | storeUnavailable | unsupportedStoreSchema | anchorAheadOfSnapshot | valueError
  | kernel (errorClass : ErrorClass)
  deriving DecidableEq, Repr

structure StoreFailure where
  errorClass : StoreErrorClass
  message : String
  deriving DecidableEq, Repr

/-- `IntegrityError(message)` -/
def integrity (message : String) : StoreFailure := ⟨.integrityError, message⟩

/-- `ConcurrencyConflict(message)` -/
def conflict (message : String) : StoreFailure := ⟨.concurrencyConflict, message⟩

/-- `ValueError(message)` -/
def valueError (message : String) : StoreFailure := ⟨.valueError, message⟩

/-- A call of the kernel, with what it raises. -/
def fromKernel {α : Type} : Except Failure α → Except StoreFailure α
  | .ok a => .ok a
  | .error e => .error ⟨.kernel e.errorClass, e.message⟩

def StoreErrorClass.isValueError : StoreErrorClass → Bool
  | .valueError => true
  | .kernel .valueError => true
  | .kernel .invariantViolation => true
  | .kernel .importMappingInvariant => true
  | _ => false

/-- `except ValueError as exc: raise IntegrityError(message) from exc` -/
def refusing {α : Type} (message : String) : Except StoreFailure α → Except StoreFailure α
  | .ok a => .ok a
  | .error e => .error (if e.errorClass.isValueError then integrity message else e)

def located {α : Type} (failure : StoreFailure) : Option α → Except StoreFailure α
  | some a => .ok a
  | none => .error failure

theorem located_ok {α : Type} {failure : StoreFailure} {value : Option α} {a : α} :
    located failure value = .ok a ↔ value = some a := by
  cases value with
  | none => simp [located]
  | some b => simp [located]

theorem fromKernel_ok {α : Type} {x : Except Failure α} {a : α} :
    fromKernel x = .ok a ↔ x = .ok a := by
  cases x with
  | error e => simp [fromKernel]
  | ok b => simp [fromKernel]

theorem refusing_ok {α : Type} {message : String} {x : Except StoreFailure α} {a : α} :
    refusing message x = .ok a ↔ x = .ok a := by
  cases x with
  | error e => simp [refusing]
  | ok b => simp [refusing]

/-! ### Approvals and attestations -/

section Records

variable [UnicodeData]

def requirePublicId (value label : String) : Except StoreFailure Unit :=
  require (IsId value) (valueError (label ++ " must be a non-empty canonical identifier"))

def requireDigest (value label : String) : Except StoreFailure Unit :=
  require (Text.isSha256 value) (valueError (label ++ " must be a lowercase SHA-256 digest"))

inductive ApprovalDecision where
  | approved | rejected
  deriving DecidableEq, Repr

def ApprovalDecision.value : ApprovalDecision → String
  | .approved => "approved"
  | .rejected => "rejected"

structure ApprovalEvidence where
  approvalId : String
  approvalDigest : String
  transactionId : String
  previewDigest : String
  releaseSubjectDigest : String
  verificationReportHash : String
  decision : ApprovalDecision
  actor : String
  decidedAt : DateTime
  reason : Option String := none
  deriving DecidableEq

def ApprovalEvidence.checks (a : ApprovalEvidence) : Except StoreFailure Unit := do
  requirePublicId a.approvalId "approval ID"
  requireDigest a.approvalDigest "approval digest"
  requirePublicId a.transactionId "approval transaction ID"
  requireDigest a.previewDigest "approval preview digest"
  requireDigest a.releaseSubjectDigest "approval release subject digest"
  requireDigest a.verificationReportHash "approval verification report hash"
  requirePublicId a.actor "approval actor"
  a.reason.toList.forM fun reason => do
    require (Text.isBlank reason = false)
      (valueError "approval reason must be non-empty text when present")
    require (reason.toList.any UnicodeData.isControl = false)
      (valueError "approval reason cannot contain control characters")

abbrev Approval := Checked (checking ApprovalEvidence.checks)

structure DurableCommitAttestation where
  schemaVersion : Int
  scope : String
  algorithm : String
  attestationKeyId : String
  projectId : String
  baseRevision : String
  headRevision : String
  parentRevision : String
  revisionHash : String
  sequence : Int
  transactionId : String
  commandHashes : List String
  commandHashesDigest : String
  previewDigest : String
  verifiedPreviewDigest : String
  prospectiveGraphSha256 : String
  verificationReportHash : String
  verificationInputHash : String
  verificationRuleSetHash : String
  commitGatePassed : Bool
  releaseSubjectDigest : String
  approvalId : String
  approvalRunId : String
  approvalKind : String
  approvalDigest : String
  approvalPrincipal : String
  approvalDecidedAt : DateTime
  approvalExpiresAt : Option DateTime
  authorizationKeyId : String
  authorizationId : String
  authorizationDigest : String
  authorizationNonce : String
  authorizationIssuedAt : DateTime
  authorizationExpiresAt : DateTime
  authorizationConsumedAt : DateTime
  signature : String
  deriving DecidableEq

/-- One hundred and twenty-eight lower-case hexadecimal digits. -/
def IsSignature (value : String) : Prop :=
  value.length = 128 ∧ value.toList.all Text.isLowerHex = true

instance (value : String) : Decidable (IsSignature value) := inferInstanceAs (Decidable (_ ∧ _))

def DurableCommitAttestation.checks (a : DurableCommitAttestation) : Except StoreFailure Unit := do
  let apostrophe := String.ofList [Char.ofNat 39]
  require (a.schemaVersion = 1)
    (valueError "durable commit attestation schema version must be 1")
  [(a.scope, "canonical-design-durable-commit", "attestation scope"),
    (a.algorithm, "ed25519", "attestation algorithm"),
    (a.approvalKind, "release", "approval kind")].forM fun (value, expected, label) =>
      require (value = expected)
        (valueError (label ++ " must be " ++ apostrophe ++ expected ++ apostrophe))
  [(a.attestationKeyId, "attestation key ID"),
    (a.projectId, "attestation project ID"),
    (a.transactionId, "attestation transaction ID"),
    (a.approvalId, "attestation approval ID"),
    (a.approvalRunId, "attestation approval run ID"),
    (a.approvalPrincipal, "attestation approval principal"),
    (a.authorizationKeyId, "attestation authorization key ID"),
    (a.authorizationId, "attestation authorization ID")].forM fun (value, label) =>
      requirePublicId value label
  [(a.baseRevision, "attestation base revision"),
    (a.headRevision, "attestation head revision"),
    (a.parentRevision, "attestation parent revision"),
    (a.revisionHash, "attestation revision hash"),
    (a.commandHashesDigest, "attestation ordered command digest"),
    (a.previewDigest, "attestation preview digest"),
    (a.verifiedPreviewDigest, "attestation verified preview digest"),
    (a.prospectiveGraphSha256, "attestation graph digest"),
    (a.verificationReportHash, "attestation verification report hash"),
    (a.verificationInputHash, "attestation verification input hash"),
    (a.verificationRuleSetHash, "attestation verification rule-set hash"),
    (a.releaseSubjectDigest, "attestation release subject digest"),
    (a.approvalDigest, "attestation approval digest"),
    (a.authorizationDigest, "attestation authorization digest"),
    (a.authorizationNonce, "attestation authorization nonce")].forM fun (value, label) =>
      requireDigest value label
  require (a.commandHashes ≠ [])
    (valueError "attestation command hashes must be a non-empty exact tuple")
  a.commandHashes.forM (requireDigest · "attestation command hash")
  require (0 < a.sequence) (valueError "attestation sequence must be a positive exact integer")
  require a.commitGatePassed
    (valueError "durable commit attestation requires an exact passing gate")
  require (a.authorizationIssuedAt ≤ a.authorizationConsumedAt ∧
      a.authorizationConsumedAt < a.authorizationExpiresAt)
    (valueError "attestation authorization consumption time is outside its lifetime")
  require (a.approvalDecidedAt ≤ a.authorizationConsumedAt)
    (valueError "attestation approval was decided after authorization consumption")
  require (∀ expiry ∈ a.approvalExpiresAt, a.authorizationConsumedAt < expiry)
    (valueError "attestation approval expired before authorization consumption")
  require (IsSignature a.signature)
    (valueError "attestation signature must be a lowercase Ed25519 signature")

abbrev Attestation := Checked (checking DurableCommitAttestation.checks)

end Records

end Evleda.ProjectStore
