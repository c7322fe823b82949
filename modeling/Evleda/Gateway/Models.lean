/-
The records of the capability gateway.

A host authenticates a principal and passes it with a typed request, so a caller
cannot name a stronger profile in the arguments of a tool.  The records follow
the dataclasses of the source field by field, with their canonical JSON, because
every identifier, digest and result of the gateway is taken over that JSON.

The constructors of the requests check the shape of identifiers and revisions
before the gateway sees a request.  Nothing here depends on those shapes, and a
request of the model is any record of its type.
-/
import Evleda.Lib.Hashing
import Evleda.Lib.Text

namespace Evleda.Gateway

/-- Microseconds from 1970-01-01 in UTC. -/
abbrev Instant := Int

/-! ### Failures -/

inductive ErrorClass where
  | invalidRequest | capabilityDenied | revisionConflict | idempotencyConflict | notFound
  | coordinationRequired | approvalRequired | verificationFailed | transactionConflict
  | stateConflict | stateIntegrityError | stateUnavailable
  /-- Any other exception of an adapter, a clock or a store. -/
  | other
  deriving DecidableEq, Repr

structure Failure where
  errorClass : ErrorClass
  message : String
  deriving DecidableEq, Repr

/-! ### Enumerations -/

inductive CapabilityTier where
  | read | stage | release
  deriving DecidableEq, Repr

def CapabilityTier.value : CapabilityTier → Nat
  | .read => 10
  | .stage => 20
  | .release => 30

/-- `name.lower()` -/
def CapabilityTier.lowerName : CapabilityTier → String
  | .read => "read"
  | .stage => "stage"
  | .release => "release"

inductive ProfileName where
  | observer | designer | releaseManager
  deriving DecidableEq, Repr

def ProfileName.value : ProfileName → String
  | .observer => "observer"
  | .designer => "designer"
  | .releaseManager => "release_manager"

def ProfileName.maximumTier : ProfileName → CapabilityTier
  | .observer => .read
  | .designer => .stage
  | .releaseManager => .release

inductive ActorKind where
  | user | agent | service
  deriving DecidableEq, Repr

inductive ToolName where
  | inspectProject | createAgentRun | answerQuestion | decideApproval | previewPatch
  | stageDesignPatch | runVerification | commitTransaction | rollbackTransaction | exportProject
  deriving DecidableEq, Repr

def ToolName.value : ToolName → String
  | .inspectProject => "inspect_project"
  | .createAgentRun => "create_agent_run"
  | .answerQuestion => "answer_question"
  | .decideApproval => "decide_approval"
  | .previewPatch => "preview_patch"
  | .stageDesignPatch => "stage_design_patch"
  | .runVerification => "run_verification"
  | .commitTransaction => "commit_transaction"
  | .rollbackTransaction => "rollback_transaction"
  | .exportProject => "export_project"

inductive PatchAction where
  | addComponent | removeComponent | connectNet | disconnectNet | setProperty | setConstraint
  | placeComponent | routeNet
  deriving DecidableEq, Repr

def PatchAction.value : PatchAction → String
  | .addComponent => "add_component"
  | .removeComponent => "remove_component"
  | .connectNet => "connect_net"
  | .disconnectNet => "disconnect_net"
  | .setProperty => "set_property"
  | .setConstraint => "set_constraint"
  | .placeComponent => "place_component"
  | .routeNet => "route_net"

inductive RunState where
  | clarifying | planning | awaitingStageApproval | staged | verifying | awaitingReleaseApproval
  | complete | rolledBack
  deriving DecidableEq, Repr

def RunState.value : RunState → String
  | .clarifying => "clarifying"
  | .planning => "planning"
  | .awaitingStageApproval => "awaiting_stage_approval"
  | .staged => "staged"
  | .verifying => "verifying"
  | .awaitingReleaseApproval => "awaiting_release_approval"
  | .complete => "complete"
  | .rolledBack => "rolled_back"

inductive ApprovalKind where
  | stage | release
  deriving DecidableEq, Repr

def ApprovalKind.value : ApprovalKind → String
  | .stage => "stage"
  | .release => "release"

inductive ApprovalDecision where
  | pending | approved | rejected
  deriving DecidableEq, Repr

def ApprovalDecision.value : ApprovalDecision → String
  | .pending => "pending"
  | .approved => "approved"
  | .rejected => "rejected"

inductive ExportFormat where
  | kicadArchive | gerberBundle | ipc2581
  deriving DecidableEq, Repr

def ExportFormat.value : ExportFormat → String
  | .kicadArchive => "kicad_archive"
  | .gerberBundle => "gerber_bundle"
  | .ipc2581 => "ipc2581"

/-! ### Canonical JSON -/

def optionalJson {α : Type} (encode : α → Json) : Option α → Json
  | none => .null
  | some a => encode a

def textsJson (texts : List String) : Json := .arr (texts.map .str)

/-- A timestamp as `canonical_data` writes it. -/
def instantJson (instant : Instant) : Json :=
  .str (Text.dateTime instant ++
    (if Text.fraction instant = 0 then "" else "." ++ Text.padded 6 (Text.fraction instant)) ++ "Z")

def canonicalJson (value : Json) : String := String.ofList value.canonical.render

def stableDigest [Hashing] (value : Json) : String := Hashing.sha256 value.canonical.render

/-- An identifier derived from a digest: `f"{kind}_{stable_digest(material)[:32]}"`. -/
def derivedId [Hashing] (kind : String) (material : List (String × Json)) : String :=
  kind ++ "_" ++ String.ofList ((stableDigest (.object material)).toList.take 32)

/-! ### Principals and patches -/

structure Principal where
  actorId : String
  actorKind : ActorKind
  profile : ProfileName
  deriving DecidableEq, Repr

structure Invocation where
  principal : Principal
  idempotencyKey : String
  deriving DecidableEq, Repr

structure QuestionSpec where
  prompt : String
  rationale : String
  blocking : Bool := true
  options : List String := []

def QuestionSpec.json (q : QuestionSpec) : Json :=
  .object [("prompt", .str q.prompt), ("rationale", .str q.rationale),
    ("blocking", .bool q.blocking), ("options", textsJson q.options)]

structure Parameter where
  name : String
  value : Json

structure PatchOperation where
  operationId : String
  action : PatchAction
  targetId : String
  parameters : List Parameter := []

def PatchOperation.json (o : PatchOperation) : Json :=
  .object [("operation_id", .str o.operationId), ("action", .str o.action.value),
    ("target_id", .str o.targetId),
    ("parameters", .arr (o.parameters.map fun p =>
      .object [("name", .str p.name), ("value", p.value)]))]

structure DesignPatch where
  patchId : String
  baseRevision : String
  rationale : String
  operations : List PatchOperation
  evidenceIds : List String := []

def DesignPatch.json (p : DesignPatch) : Json :=
  .object [("patch_id", .str p.patchId), ("base_revision", .str p.baseRevision),
    ("rationale", .str p.rationale), ("operations", .arr (p.operations.map PatchOperation.json)),
    ("evidence_ids", textsJson p.evidenceIds)]

def DesignPatch.digest [Hashing] (p : DesignPatch) : String := stableDigest p.json

/-! ### Requests -/

structure InspectProjectRequest where
  projectId : String
  expectedProjectRevision : Option String := none

structure CreateAgentRunRequest where
  projectId : String
  expectedProjectRevision : String
  objective : String
  initialQuestions : List QuestionSpec := []
  maxParallelAgents : Option Int := none
  tokenBudget : Option Int := none

structure AnswerQuestionRequest where
  projectId : String
  expectedProjectRevision : String
  runId : String
  expectedRunRevision : Int
  questionId : String
  answer : String

structure DecideApprovalRequest where
  projectId : String
  expectedProjectRevision : String
  runId : String
  expectedRunRevision : Int
  approvalId : String
  approve : Bool
  reason : String

structure PreviewPatchRequest where
  projectId : String
  expectedProjectRevision : String
  runId : String
  expectedRunRevision : Int
  patch : DesignPatch

structure StageDesignPatchRequest where
  projectId : String
  expectedProjectRevision : String
  runId : String
  expectedRunRevision : Int
  patch : DesignPatch
  previewDigest : String
  approvalReceiptId : String

structure RunVerificationRequest where
  projectId : String
  expectedProjectRevision : String
  expectedStagedRevision : String
  runId : String
  expectedRunRevision : Int

structure CommitTransactionRequest where
  projectId : String
  expectedProjectRevision : String
  expectedStagedRevision : String
  runId : String
  expectedRunRevision : Int
  verificationReportDigest : String
  approvalReceiptId : String

structure RollbackTransactionRequest where
  projectId : String
  expectedProjectRevision : String
  expectedStagedRevision : String
  runId : String
  expectedRunRevision : Int
  reason : String

structure ExportProjectRequest where
  projectId : String
  expectedProjectRevision : String
  format : ExportFormat

/-- The request of one tool. -/
inductive Request where
  | inspectProject (request : InspectProjectRequest)
  | createAgentRun (request : CreateAgentRunRequest)
  | answerQuestion (request : AnswerQuestionRequest)
  | decideApproval (request : DecideApprovalRequest)
  | previewPatch (request : PreviewPatchRequest)
  | stageDesignPatch (request : StageDesignPatchRequest)
  | runVerification (request : RunVerificationRequest)
  | commitTransaction (request : CommitTransactionRequest)
  | rollbackTransaction (request : RollbackTransactionRequest)
  | exportProject (request : ExportProjectRequest)

def Request.tool : Request → ToolName
  | .inspectProject _ => .inspectProject
  | .createAgentRun _ => .createAgentRun
  | .answerQuestion _ => .answerQuestion
  | .decideApproval _ => .decideApproval
  | .previewPatch _ => .previewPatch
  | .stageDesignPatch _ => .stageDesignPatch
  | .runVerification _ => .runVerification
  | .commitTransaction _ => .commitTransaction
  | .rollbackTransaction _ => .rollbackTransaction
  | .exportProject _ => .exportProject

def Request.projectId : Request → String
  | .inspectProject r => r.projectId
  | .createAgentRun r => r.projectId
  | .answerQuestion r => r.projectId
  | .decideApproval r => r.projectId
  | .previewPatch r => r.projectId
  | .stageDesignPatch r => r.projectId
  | .runVerification r => r.projectId
  | .commitTransaction r => r.projectId
  | .rollbackTransaction r => r.projectId
  | .exportProject r => r.projectId

/-- The members that name a run and the revisions a request was made against. -/
def runMembers (projectId projectRevision runId : String) (runRevision : Int) :
    List (String × Json) :=
  [("project_id", .str projectId), ("expected_project_revision", .str projectRevision),
    ("run_id", .str runId), ("expected_run_revision", .int runRevision)]

def Request.json : Request → Json
  | .inspectProject r => .object [("project_id", .str r.projectId),
      ("expected_project_revision", optionalJson .str r.expectedProjectRevision)]
  | .createAgentRun r => .object [("project_id", .str r.projectId),
      ("expected_project_revision", .str r.expectedProjectRevision),
      ("objective", .str r.objective),
      ("initial_questions", .arr (r.initialQuestions.map QuestionSpec.json)),
      ("max_parallel_agents", optionalJson .int r.maxParallelAgents),
      ("token_budget", optionalJson .int r.tokenBudget)]
  | .answerQuestion r => .object (runMembers r.projectId r.expectedProjectRevision r.runId
      r.expectedRunRevision ++ [("question_id", .str r.questionId), ("answer", .str r.answer)])
  | .decideApproval r => .object (runMembers r.projectId r.expectedProjectRevision r.runId
      r.expectedRunRevision ++ [("approval_id", .str r.approvalId), ("approve", .bool r.approve),
        ("reason", .str r.reason)])
  | .previewPatch r => .object (runMembers r.projectId r.expectedProjectRevision r.runId
      r.expectedRunRevision ++ [("patch", r.patch.json)])
  | .stageDesignPatch r => .object (runMembers r.projectId r.expectedProjectRevision r.runId
      r.expectedRunRevision ++ [("patch", r.patch.json), ("preview_digest", .str r.previewDigest),
        ("approval_receipt_id", .str r.approvalReceiptId)])
  | .runVerification r => .object (runMembers r.projectId r.expectedProjectRevision r.runId
      r.expectedRunRevision ++ [("expected_staged_revision", .str r.expectedStagedRevision)])
  | .commitTransaction r => .object (runMembers r.projectId r.expectedProjectRevision r.runId
      r.expectedRunRevision ++ [("expected_staged_revision", .str r.expectedStagedRevision),
        ("verification_report_digest", .str r.verificationReportDigest),
        ("approval_receipt_id", .str r.approvalReceiptId)])
  | .rollbackTransaction r => .object (runMembers r.projectId r.expectedProjectRevision r.runId
      r.expectedRunRevision ++ [("expected_staged_revision", .str r.expectedStagedRevision),
        ("reason", .str r.reason)])
  | .exportProject r => .object [("project_id", .str r.projectId),
      ("expected_project_revision", .str r.expectedProjectRevision),
      ("format", .str r.format.value)]

/-! ### Records of the adapter and of the coordination -/

structure ProjectSnapshot where
  projectId : String
  projectRevision : String
  componentCount : Int
  netCount : Int
  operationCount : Int
  activeStagedRevision : Option String

def ProjectSnapshot.json (s : ProjectSnapshot) : Json :=
  .object [("project_id", .str s.projectId), ("project_revision", .str s.projectRevision),
    ("component_count", .int s.componentCount), ("net_count", .int s.netCount),
    ("operation_count", .int s.operationCount),
    ("active_staged_revision", optionalJson .str s.activeStagedRevision)]

structure AgentRun where
  runId : String
  projectId : String
  objective : String
  projectRevision : String
  runRevision : Int
  state : RunState
  strictUserCoordination : Bool
  maxParallelAgents : Option Int
  tokenBudget : Option Int
  questionIds : List String := []
  approvalIds : List String := []
  stagedRevision : Option String := none
  verificationReportDigest : Option String := none

def AgentRun.json (r : AgentRun) : Json :=
  .object [("run_id", .str r.runId), ("project_id", .str r.projectId),
    ("objective", .str r.objective), ("project_revision", .str r.projectRevision),
    ("run_revision", .int r.runRevision), ("state", .str r.state.value),
    ("strict_user_coordination", .bool r.strictUserCoordination),
    ("max_parallel_agents", optionalJson .int r.maxParallelAgents),
    ("token_budget", optionalJson .int r.tokenBudget), ("question_ids", textsJson r.questionIds),
    ("approval_ids", textsJson r.approvalIds),
    ("staged_revision", optionalJson .str r.stagedRevision),
    ("verification_report_digest", optionalJson .str r.verificationReportDigest)]

structure QuestionRecord where
  questionId : String
  runId : String
  prompt : String
  rationale : String
  blocking : Bool
  options : List String
  answer : Option String := none
  answeredBy : Option String := none
  answeredAt : Option Instant := none

def QuestionRecord.json (q : QuestionRecord) : Json :=
  .object [("question_id", .str q.questionId), ("run_id", .str q.runId), ("prompt", .str q.prompt),
    ("rationale", .str q.rationale), ("blocking", .bool q.blocking),
    ("options", textsJson q.options), ("answer", optionalJson .str q.answer),
    ("answered_by", optionalJson .str q.answeredBy),
    ("answered_at", optionalJson instantJson q.answeredAt)]

structure ApprovalRequestRecord where
  approvalId : String
  runId : String
  kind : ApprovalKind
  subjectDigest : String
  summary : String
  decision : ApprovalDecision
  requestedAt : Instant

def ApprovalRequestRecord.json (a : ApprovalRequestRecord) : Json :=
  .object [("approval_id", .str a.approvalId), ("run_id", .str a.runId),
    ("kind", .str a.kind.value), ("subject_digest", .str a.subjectDigest),
    ("summary", .str a.summary), ("decision", .str a.decision.value),
    ("requested_at", instantJson a.requestedAt)]

structure ApprovalReceipt where
  receiptId : String
  approvalId : String
  runId : String
  kind : ApprovalKind
  subjectDigest : String
  decision : ApprovalDecision
  decidedBy : String
  decidedAt : Instant
  reason : String
  receiptDigest : String

/-- The members of a receipt that its digest is taken over. -/
def ApprovalReceipt.material (r : ApprovalReceipt) : List (String × Json) :=
  [("receipt_id", .str r.receiptId), ("approval_id", .str r.approvalId), ("run_id", .str r.runId),
    ("kind", .str r.kind.value), ("subject_digest", .str r.subjectDigest),
    ("decision", .str r.decision.value), ("decided_by", .str r.decidedBy),
    ("decided_at", instantJson r.decidedAt), ("reason", .str r.reason)]

def ApprovalReceipt.json (r : ApprovalReceipt) : Json :=
  .object (r.material ++ [("receipt_digest", .str r.receiptDigest)])

structure PatchPreview where
  projectId : String
  baseRevision : String
  prospectiveRevision : String
  patchDigest : String
  previewDigest : String
  operationSummaries : List String
  added : List String := []
  removed : List String := []
  modified : List String := []

def PatchPreview.json (p : PatchPreview) : Json :=
  .object [("project_id", .str p.projectId), ("base_revision", .str p.baseRevision),
    ("prospective_revision", .str p.prospectiveRevision), ("patch_digest", .str p.patchDigest),
    ("preview_digest", .str p.previewDigest),
    ("operation_summaries", textsJson p.operationSummaries), ("added", textsJson p.added),
    ("removed", textsJson p.removed), ("modified", textsJson p.modified)]

structure StageRecord where
  transactionId : String
  projectId : String
  baseRevision : String
  stagedRevision : String
  patchDigest : String
  previewDigest : String

def StageRecord.json (s : StageRecord) : Json :=
  .object [("transaction_id", .str s.transactionId), ("project_id", .str s.projectId),
    ("base_revision", .str s.baseRevision), ("staged_revision", .str s.stagedRevision),
    ("patch_digest", .str s.patchDigest), ("preview_digest", .str s.previewDigest)]

structure VerificationFinding where
  findingId : String
  ruleId : String
  severity : String
  message : String
  operationIds : List String

def VerificationFinding.json (f : VerificationFinding) : Json :=
  .object [("finding_id", .str f.findingId), ("rule_id", .str f.ruleId),
    ("severity", .str f.severity), ("message", .str f.message),
    ("operation_ids", textsJson f.operationIds)]

structure VerificationReport where
  reportId : String
  projectId : String
  baseRevision : String
  stagedRevision : String
  engineVersion : String
  passed : Bool
  findings : List VerificationFinding
  reportDigest : String
  inputHash : Option String := none
  ruleSetHash : Option String := none
  compilerManifestDigest : Option String := none
  compilerBundleDigest : Option String := none
  manufacturingReleaseEligible : Bool := false

def VerificationReport.json (r : VerificationReport) : Json :=
  .object [("report_id", .str r.reportId), ("project_id", .str r.projectId),
    ("base_revision", .str r.baseRevision), ("staged_revision", .str r.stagedRevision),
    ("engine_version", .str r.engineVersion), ("passed", .bool r.passed),
    ("findings", .arr (r.findings.map VerificationFinding.json)),
    ("report_digest", .str r.reportDigest), ("input_hash", optionalJson .str r.inputHash),
    ("rule_set_hash", optionalJson .str r.ruleSetHash),
    ("compiler_manifest_digest", optionalJson .str r.compilerManifestDigest),
    ("compiler_bundle_digest", optionalJson .str r.compilerBundleDigest),
    ("manufacturing_release_eligible", .bool r.manufacturingReleaseEligible)]

structure ExportArtifact where
  artifactId : String
  projectId : String
  projectRevision : String
  format : ExportFormat
  mediaType : String
  contentDigest : String
  sizeBytes : Int
  managedPath : Option String := none

def ExportArtifact.json (a : ExportArtifact) : Json :=
  .object [("artifact_id", .str a.artifactId), ("project_id", .str a.projectId),
    ("project_revision", .str a.projectRevision), ("format", .str a.format.value),
    ("media_type", .str a.mediaType), ("content_digest", .str a.contentDigest),
    ("size_bytes", .int a.sizeBytes), ("managed_path", optionalJson .str a.managedPath)]

structure EvidenceRecord where
  evidenceId : String
  toolName : ToolName
  actorId : String
  projectId : String
  projectRevision : String
  inputDigest : String
  outputDigest : String
  capturedAt : Instant
  manifestDigest : String

structure ToolResult where
  toolName : ToolName
  payloadJson : String
  evidence : EvidenceRecord
  manifestDigest : String

end Evleda.Gateway
