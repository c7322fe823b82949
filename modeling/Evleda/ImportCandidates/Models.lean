/-
Import candidates and the events of their lifecycle.

A candidate has an identity that never changes: the artifact, the project and run
it was inspected for, the inspection with its diagnostics and blockers.  Its
identifier derives from a digest of all that.  On top of the identity comes where
the candidate stands: a state, a generation, and the receipts and the reason that
the state needs.  Every step of the lifecycle is an event, which carries the digest
of the event before it and a digest of itself.

What an inspection payload may say is a policy given from outside.
-/
import Evleda.ImportApproval.Ledger

namespace Evleda.ImportCandidates

open Outcome

/-! ### What is raised -/

inductive CandidateErrorClass
  | repositoryError
  | invalid
  | notFound
  | concurrencyConflict
  | illegalTransition
  | integrityError
  | storeUnavailable
  | overflowError
  deriving DecidableEq, Repr

structure CandidateFailure where
  errorClass : CandidateErrorClass
  message : String
  deriving DecidableEq, Repr

/-- `InvalidCandidate(message)` -/
def invalid (message : String) : CandidateFailure := ⟨.invalid, message⟩

/-- `CandidateIntegrityError(message)` -/
def integrity (message : String) : CandidateFailure := ⟨.integrityError, message⟩

/-! ### States and events -/

inductive CandidateState
  | pending
  | resolved
  | staged
  | rejected
  | invalidated
  deriving DecidableEq, Repr

namespace CandidateState

def value : CandidateState → String
  | pending => "pending"
  | resolved => "resolved"
  | staged => "staged"
  | rejected => "rejected"
  | invalidated => "invalidated"

def all : List CandidateState := [pending, resolved, staged, rejected, invalidated]

/-- `CandidateState(value)` -/
def ofValue (text : String) : Option CandidateState := all.find? (·.value == text)

theorem ofValue_value (state : CandidateState) : ofValue state.value = some state := by
  cases state <;> rfl

/-- `LEGAL_TRANSITIONS` -/
def legalTransitions : CandidateState → List CandidateState
  | pending => [resolved, rejected, invalidated]
  | resolved => [staged, rejected, invalidated]
  | staged => [invalidated]
  | rejected => []
  | invalidated => []

end CandidateState

inductive CandidateIdentityScheme
  | legacyV2
  | current
  deriving DecidableEq, Repr

namespace CandidateIdentityScheme

def value : CandidateIdentityScheme → String
  | legacyV2 => "legacy-v2-domain-payload-digest"
  | current => "v3-plain-payload-sha256"

def all : List CandidateIdentityScheme := [legacyV2, current]

def ofValue (text : String) : Option CandidateIdentityScheme := all.find? (·.value == text)

theorem ofValue_value (scheme : CandidateIdentityScheme) : ofValue scheme.value = some scheme := by
  cases scheme <;> rfl

end CandidateIdentityScheme

inductive ArtifactKind
  | kicadPcb
  | kicadProjectBundle
  deriving DecidableEq, Repr

namespace ArtifactKind

def value : ArtifactKind → String
  | kicadPcb => "kicad_pcb"
  | kicadProjectBundle => "kicad_project_bundle"

def all : List ArtifactKind := [kicadPcb, kicadProjectBundle]

def ofValue (text : String) : Option ArtifactKind := all.find? (·.value == text)

theorem ofValue_value (kind : ArtifactKind) : ofValue kind.value = some kind := by
  cases kind <;> rfl

end ArtifactKind

inductive DiagnosticSeverity
  | info
  | warning
  | error
  | blocker
  deriving DecidableEq, Repr

namespace DiagnosticSeverity

def value : DiagnosticSeverity → String
  | info => "info"
  | warning => "warning"
  | error => "error"
  | blocker => "blocker"

def all : List DiagnosticSeverity := [info, warning, error, blocker]

def ofValue (text : String) : Option DiagnosticSeverity := all.find? (·.value == text)

theorem ofValue_value (severity : DiagnosticSeverity) : ofValue severity.value = some severity := by
  cases severity <;> rfl

end DiagnosticSeverity

inductive CandidateEventKind
  | created
  | transitioned
  | migrated
  deriving DecidableEq, Repr

namespace CandidateEventKind

def value : CandidateEventKind → String
  | created => "created"
  | transitioned => "transitioned"
  | migrated => "migrated"

def all : List CandidateEventKind := [created, transitioned, migrated]

def ofValue (text : String) : Option CandidateEventKind := all.find? (·.value == text)

theorem ofValue_value (kind : CandidateEventKind) : ofValue kind.value = some kind := by
  cases kind <;> rfl

end CandidateEventKind

/-! ### Texts, identifiers and times -/

/-- `_require_public_id` -/
def requirePublicId (value label : String) : Except CandidateFailure Unit :=
  require (ImportApproval.isPublicId value = true)
    (invalid (label ++ " must be a canonical public identifier"))

/-- `prefix` and thirty-two lowercase hexadecimal digits. -/
def isMarkedId (mark value : String) : Bool :=
  mark.toList.isPrefixOf value.toList &&
    ((value.toList.drop mark.length).length == 32 &&
      (value.toList.drop mark.length).all Text.isLowerHex)

/-- `_require_artifact_id` -/
def requireArtifactId (value : String) : Except CandidateFailure Unit :=
  require (isMarkedId "artifact_" value = true) (invalid "managed artifact ID is invalid")

/-- `_require_candidate_id`, and `_validate_candidate_lookup` -/
def requireCandidateId (value : String) : Except CandidateFailure Unit :=
  require (isMarkedId "import_candidate_" value = true) (invalid "import candidate ID is invalid")

/-- `_require_sha256` -/
def requireSha256 (value label : String) : Except CandidateFailure Unit :=
  require (Text.isSha256 value = true) (invalid (label ++ " must be a lowercase SHA-256 digest"))

/-- `_require_revision` -/
def requireRevision (value label : String) : Except CandidateFailure Unit :=
  require (Text.isSha256 value = true)
    (invalid (label ++ " must be an exact lowercase SHA-256 revision"))

/-- `_require_nonnegative_int` -/
def requireNonnegative (value : Int) (label : String) : Except CandidateFailure Unit :=
  require (0 ≤ value) (invalid (label ++ " must be a non-negative integer"))

/-- `_require_text` -/
def requireText [UnicodeData] (value label : String) : Except CandidateFailure Unit :=
  require (value ≠ "" ∧ value = Text.strip value ∧ UnicodeData.nfc value = value ∧
      value.toList.any UnicodeData.isControl = false)
    (invalid (label ++ " must be non-empty canonical text"))

/-- A check of a value that may be missing. -/
def requireGiven {α : Type} (check : α → Except CandidateFailure Unit) :
    Option α → Except CandidateFailure Unit
  | none => .ok ()
  | some value => check value

/-- `encode_time` -/
def encodeTime (t : DateTime) : String := ImportApproval.timeText t

/-- `decode_time` -/
def decodeTime (text : String) : Except CandidateFailure DateTime := do
  require (text.toList.getLast? = some 'Z')
    (integrity "persisted timestamp is not canonical UTC text")
  match ImportApproval.zuluTime text with
  | none => .error (integrity "persisted timestamp is invalid")
  | some t => do
      require (encodeTime t = text) (integrity "persisted timestamp is not canonical")
      return t

theorem decodeTime_encodeTime (t : DateTime) : decodeTime (encodeTime t) = .ok t := by
  have hlast : (encodeTime t).toList.getLast? = some 'Z' := by
    unfold encodeTime ImportApproval.timeText
    rw [String.toList_append]
    exact List.getLast?_concat
  have hread : ImportApproval.zuluTime (encodeTime t) = some t := by
    have hledger := ImportApproval.decodeTime_timeText t
    unfold ImportApproval.decodeTime at hledger
    unfold encodeTime
    cases hzulu : ImportApproval.zuluTime (ImportApproval.timeText t) with
    | none =>
        rw [hzulu] at hledger
        cases hledger
    | some t' =>
        rw [hzulu] at hledger
        obtain ⟨_, -, heq⟩ := bind_ok.mp hledger
        exact congrArg some (pure_ok.mp heq)
  unfold decodeTime
  refine bind_ok.mpr ⟨(), require_ok.mpr hlast, ?_⟩
  rw [hread]
  exact bind_ok.mpr ⟨(), require_ok.mpr rfl, rfl⟩

/-! ### Diagnostics and blockers -/

/-- `_digest(value, domain=domain)` -/
def digest [Hashing] (domain : String) (value : Json) : String :=
  Hashing.ofJson (.object [("domain", .str domain), ("value", value)])

def optionalText (value : Option String) : Json := (value.map Json.str).getD .null

structure CandidateDiagnostic where
  diagnosticId : String
  code : String
  severity : DiagnosticSeverity
  scope : String
  message : String
  evidenceDigest : String
  entityId : Option String := none
  deriving DecidableEq

def CandidateDiagnostic.checks [UnicodeData] (item : CandidateDiagnostic) :
    Except CandidateFailure Unit := do
  requirePublicId item.diagnosticId "diagnostic ID"
  requirePublicId item.code "diagnostic code"
  requireText item.scope "diagnostic scope"
  requireText item.message "diagnostic message"
  requireSha256 item.evidenceDigest "diagnostic evidence digest"
  requireGiven (requirePublicId · "diagnostic entity ID") item.entityId

def CandidateDiagnostic.payload (item : CandidateDiagnostic) : Json := .object [
  ("code", .str item.code),
  ("diagnostic_id", .str item.diagnosticId),
  ("entity_id", optionalText item.entityId),
  ("evidence_digest", .str item.evidenceDigest),
  ("message", .str item.message),
  ("scope", .str item.scope),
  ("severity", .str item.severity.value)]

structure CandidateBlocker where
  blockerId : String
  code : String
  message : String
  evidenceDigest : String
  entityIds : List String := []
  deriving DecidableEq

def CandidateBlocker.checks [UnicodeData] (item : CandidateBlocker) :
    Except CandidateFailure Unit := do
  requirePublicId item.blockerId "blocker ID"
  requirePublicId item.code "blocker code"
  requireText item.message "blocker message"
  requireSha256 item.evidenceDigest "blocker evidence digest"
  require (item.entityIds.Pairwise (· < ·))
    (invalid "blocker entity IDs must be a sorted unique tuple")
  item.entityIds.forM (requirePublicId · "blocker entity ID")

def CandidateBlocker.payload (item : CandidateBlocker) : Json := .object [
  ("blocker_id", .str item.blockerId),
  ("code", .str item.code),
  ("entity_ids", .arr (item.entityIds.map .str)),
  ("evidence_digest", .str item.evidenceDigest),
  ("message", .str item.message)]

/-- `_validate_diagnostics`; the items went through their own checks. -/
def validateDiagnostics [UnicodeData] (items : List CandidateDiagnostic) :
    Except CandidateFailure Unit := do
  items.forM (·.checks)
  require ((items.map (·.diagnosticId)).Pairwise (· < ·))
    (invalid "candidate diagnostics must be sorted and unique by ID")

/-- `_validate_blockers`; the items went through their own checks. -/
def validateBlockers [UnicodeData] (items : List CandidateBlocker) :
    Except CandidateFailure Unit := do
  items.forM (·.checks)
  require ((items.map (·.blockerId)).Pairwise (· < ·))
    (invalid "candidate blockers must be sorted and unique by ID")

def diagnosticsJson (items : List CandidateDiagnostic) : Json := .arr (items.map (·.payload))

def blockersJson (items : List CandidateBlocker) : Json := .arr (items.map (·.payload))

def diagnosticsDigest [Hashing] (items : List CandidateDiagnostic) : String :=
  digest "flux-clone.kicad-import-candidate.diagnostics.v1" (diagnosticsJson items)

def blockersDigest [Hashing] (items : List CandidateBlocker) : String :=
  digest "flux-clone.kicad-import-candidate.blockers.v1" (blockersJson items)

/-! ### The identity of a candidate -/

/-- `_validate_inspection_payload_safety`: what it refuses a payload for, if it does. -/
class InspectionPolicy where
  refusal : Json → Option String

structure ImportCandidateDraft where
  artifactId : String
  artifactSha256 : String
  artifactKind : ArtifactKind
  projectId : String
  expectedProjectRevision : String
  runId : String
  expectedRunRevision : Int
  inspectionPayloadJson : String
  inspectionReceiptDigest : String
  diagnostics : List CandidateDiagnostic
  blockers : List CandidateBlocker
  createdBy : String
  identityScheme : CandidateIdentityScheme := .current
  deriving DecidableEq

namespace ImportCandidateDraft

variable (draft : ImportCandidateDraft)

/-- The part of the checks that is about the payload. -/
def payloadChecks [InspectionPolicy] : Except CandidateFailure Unit :=
  match Json.loads draft.inspectionPayloadJson with
  | none => .error (invalid "inspection payload is not valid JSON")
  | some (.obj []) => .error (invalid "inspection payload must be a non-empty JSON object")
  | some (.obj members) =>
      let canonical := (Json.obj members).canonical
      match InspectionPolicy.refusal canonical with
      | some message => .error (invalid message)
      | none => require (String.ofList canonical.render = draft.inspectionPayloadJson)
          (invalid "inspection payload must use canonical JSON encoding")
  | some _ => .error (invalid "inspection payload must be a non-empty JSON object")

/-- `__post_init__` -/
def checks [UnicodeData] [InspectionPolicy] : Except CandidateFailure Unit := do
  requireArtifactId draft.artifactId
  requireSha256 draft.artifactSha256 "managed artifact SHA-256"
  requirePublicId draft.projectId "project ID"
  requireRevision draft.expectedProjectRevision "expected project revision"
  requirePublicId draft.runId "run ID"
  requireNonnegative draft.expectedRunRevision "expected run revision"
  draft.payloadChecks
  requireSha256 draft.inspectionReceiptDigest "inspection receipt digest"
  validateDiagnostics draft.diagnostics
  validateBlockers draft.blockers
  requirePublicId draft.createdBy "candidate creator"

variable [Hashing]

def inspectionPayloadSha256 : String := Hashing.sha256 draft.inspectionPayloadJson.toList

/-- The digest of the payload that the identity is taken over. -/
def inspectionPayloadDigest : String :=
  match draft.identityScheme with
  | .legacyV2 => digest "flux-clone.kicad-import-candidate.inspection-payload.v1"
      (((Json.loads draft.inspectionPayloadJson).map Json.canonical).getD .null)
  | .current => draft.inspectionPayloadSha256

def identityPayload : Json := .object [
  ("artifact", .object [
    ("artifact_id", .str draft.artifactId),
    ("kind", .str draft.artifactKind.value),
    ("sha256", .str draft.artifactSha256)]),
  ("blockers", blockersJson draft.blockers),
  ("diagnostics", diagnosticsJson draft.diagnostics),
  ("inspection_payload_digest", .str draft.inspectionPayloadDigest),
  ("inspection_receipt_digest", .str draft.inspectionReceiptDigest),
  ("project", .object [
    ("expected_revision", .str draft.expectedProjectRevision),
    ("project_id", .str draft.projectId)]),
  ("run", .object [
    ("expected_revision", .int draft.expectedRunRevision),
    ("run_id", .str draft.runId)])]

def candidateDigest : String :=
  digest "flux-clone.kicad-import-candidate.identity.v1" draft.identityPayload

def candidateId : String :=
  "import_candidate_" ++ String.ofList (draft.candidateDigest.toList.take 32)

end ImportCandidateDraft

/-! ### Candidates -/

/-- A candidate: its identity, with the digests that are stored beside it, and where it stands. -/
structure ImportCandidate where
  candidateId : String
  candidateDigest : String
  draft : ImportCandidateDraft
  inspectionPayloadDigest : String
  state : CandidateState
  generation : Int
  resolutionReceiptDigest : Option String
  stageReceiptDigest : Option String
  terminalReason : Option String
  createdAt : DateTime
  updatedAt : DateTime
  lastEventDigest : String
  deriving DecidableEq

namespace ImportCandidate

variable (candidate : ImportCandidate)

/-- What a state has to have, and must not have. -/
def evidenceChecks : Except CandidateFailure Unit := do
  require (candidate.state = .pending → candidate.resolutionReceiptDigest = none ∧
      candidate.stageReceiptDigest = none ∧ candidate.terminalReason = none)
    (integrity "pending candidate has transition-only evidence")
  require (candidate.state = .resolved → candidate.resolutionReceiptDigest ≠ none ∧
      candidate.stageReceiptDigest = none ∧ candidate.terminalReason = none)
    (integrity "resolved candidate evidence is inconsistent")
  require (candidate.state = .staged → candidate.resolutionReceiptDigest ≠ none ∧
      candidate.stageReceiptDigest ≠ none ∧ candidate.terminalReason = none)
    (integrity "staged candidate evidence is inconsistent")
  require (candidate.state = .rejected →
      candidate.stageReceiptDigest = none ∧ candidate.terminalReason ≠ none)
    (integrity "rejected candidate evidence is inconsistent")
  require (candidate.state = .invalidated → candidate.terminalReason ≠ none)
    (integrity "invalidated candidate requires a reason")

/-- `__post_init__` -/
def checks [UnicodeData] [InspectionPolicy] [Hashing] : Except CandidateFailure Unit := do
  requireCandidateId candidate.candidateId
  requireSha256 candidate.candidateDigest "candidate digest"
  candidate.draft.checks
  require (candidate.inspectionPayloadDigest = candidate.draft.inspectionPayloadDigest)
    (integrity "inspection payload digest does not match its body")
  require (candidate.candidateDigest = candidate.draft.candidateDigest)
    (integrity "candidate digest does not match immutable identity")
  require (candidate.candidateId = candidate.draft.candidateId)
    (integrity "candidate ID does not derive from candidate digest")
  requireNonnegative candidate.generation "candidate generation"
  requireGiven (requireSha256 · "resolution receipt digest") candidate.resolutionReceiptDigest
  requireGiven (requireSha256 · "stage receipt digest") candidate.stageReceiptDigest
  requireGiven (requireText · "terminal reason") candidate.terminalReason
  require (candidate.createdAt ≤ candidate.updatedAt)
    (integrity "candidate update time predates creation")
  requireSha256 candidate.lastEventDigest "last event digest"
  candidate.evidenceChecks

/-- `with_transition` -/
def withTransition (state : CandidateState) (generation : Int) (updatedAt : DateTime)
    (lastEventDigest : String) (resolutionReceiptDigest stageReceiptDigest terminalReason :
      Option String) : ImportCandidate :=
  { candidate with
    state := state
    generation := generation
    updatedAt := updatedAt
    lastEventDigest := lastEventDigest
    resolutionReceiptDigest := resolutionReceiptDigest <|> candidate.resolutionReceiptDigest
    stageReceiptDigest := stageReceiptDigest <|> candidate.stageReceiptDigest
    terminalReason := terminalReason }

end ImportCandidate

/-! ### Events -/

structure CandidateTransitionEvent where
  candidateId : String
  sequence : Int
  kind : CandidateEventKind
  previousState : Option CandidateState
  state : CandidateState
  actorId : String
  receiptDigest : Option String
  reason : Option String
  transitionedAt : DateTime
  previousEventDigest : String
  eventDigest : String
  deriving DecidableEq

namespace CandidateTransitionEvent

variable (event : CandidateTransitionEvent)

/-- `ZERO_DIGEST` -/
def zeroDigest : String := ImportApproval.zeroDigest

/-- `_event_material` -/
def material : Json := .object [
  ("actor_id", .str event.actorId),
  ("candidate_id", .str event.candidateId),
  ("kind", .str event.kind.value),
  ("previous_event_digest", .str event.previousEventDigest),
  ("previous_state", optionalText (event.previousState.map (·.value))),
  ("reason", optionalText event.reason),
  ("receipt_digest", optionalText event.receiptDigest),
  ("sequence", .int event.sequence),
  ("state", .str event.state.value),
  ("transitioned_at", .str (encodeTime event.transitionedAt))]

def computedDigest [Hashing] : String :=
  digest "flux-clone.kicad-import-candidate.event.v1" event.material

/-- What an event of a kind has to have. -/
def kindChecks : Except CandidateFailure Unit := do
  require (event.kind = .created → event.sequence = 0 ∧ event.previousState = none ∧
      event.state = .pending ∧ event.previousEventDigest = zeroDigest ∧
      event.receiptDigest ≠ none ∧ event.reason = none)
    (integrity "candidate creation event is malformed")
  require (event.kind = .transitioned →
      ∃ previous ∈ event.previousState, event.state ∈ previous.legalTransitions)
    (integrity "candidate transition event is illegal")
  require (event.kind = .transitioned → event.state = .resolved ∨ event.state = .staged →
      event.receiptDigest ≠ none ∧ event.reason = none)
    (integrity "resolution/stage event must contain only its receipt digest")
  require (event.kind = .transitioned → event.state = .rejected ∨ event.state = .invalidated →
      event.receiptDigest = none ∧ event.reason ≠ none)
    (integrity "terminal event must contain only its explicit reason")
  require (event.kind = .migrated → event.previousState = none)
    (integrity "candidate migration event cannot invent history")

/-- `__post_init__` -/
def checks [UnicodeData] [Hashing] : Except CandidateFailure Unit := do
  requireCandidateId event.candidateId
  requireNonnegative event.sequence "event sequence"
  requirePublicId event.actorId "event actor ID"
  requireGiven (requireSha256 · "event receipt digest") event.receiptDigest
  requireGiven (requireText · "event reason") event.reason
  requireSha256 event.previousEventDigest "previous event digest"
  requireSha256 event.eventDigest "event digest"
  event.kindChecks
  require (event.eventDigest = event.computedDigest)
    (integrity "candidate event digest does not match event body")

/-- `CandidateTransitionEvent.build`: the event with its digest, if it passes its checks. -/
def build [UnicodeData] [Hashing] : Except CandidateFailure CandidateTransitionEvent := do
  let built := { event with eventDigest := event.computedDigest }
  built.checks
  return built

end CandidateTransitionEvent

end Evleda.ImportCandidates
