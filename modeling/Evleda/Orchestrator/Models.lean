/-
The records of the orchestration core.

An instant is an integer count of microseconds: every timestamp of the program
is a timezone-aware `datetime`, and aware timestamps are compared as instants.
Identifiers and digests are texts.  Each record has the fields that the state
machine reads or writes.

Two records are built by the operations modelled here, a question and an
approval receipt, and their constructors' checks are kept in the order in which
the source makes them, since they decide which operation is refused.
-/
import Evleda.Lib.Hashing
import Evleda.Lib.Outcome
import Evleda.Lib.Text

namespace Evleda.Orchestrator

abbrev Instant := Int

/-- What the orchestration core raises. -/
inductive Failure where
  | domainError (message : String)
  | transitionRejected (message : String)
  deriving DecidableEq, Repr

/-! ### Enumerations -/

inductive RunPhase where
  | draft | clarifying | awaitingPlanApproval | ready | executing | awaitingChangeApproval
  | verifying | completed | failed | cancelled
  deriving DecidableEq, Repr

def RunPhase.value : RunPhase → String
  | .draft => "draft"
  | .clarifying => "clarifying"
  | .awaitingPlanApproval => "awaiting_plan_approval"
  | .ready => "ready"
  | .executing => "executing"
  | .awaitingChangeApproval => "awaiting_change_approval"
  | .verifying => "verifying"
  | .completed => "completed"
  | .failed => "failed"
  | .cancelled => "cancelled"

/-- The phases nothing leaves. -/
def RunPhase.isTerminal : RunPhase → Bool
  | .completed | .failed | .cancelled => true
  | _ => false

/-- The stages of the user-visible workflow. -/
inductive CoordinationStage where
  | questioning | awaitingBriefApproval | research | awaitingArchitectureBomApproval
  | schematicStage | awaitingSchematicApproval | awaitingLayoutConstraintApproval
  | placementStage | awaitingPlacementApproval | routingStage | awaitingRoutingApproval
  | releaseCheck | awaitingReleaseApproval | released
  deriving DecidableEq, Repr

def CoordinationStage.value : CoordinationStage → String
  | .questioning => "questioning"
  | .awaitingBriefApproval => "awaiting_brief_approval"
  | .research => "research"
  | .awaitingArchitectureBomApproval => "awaiting_architecture_bom_approval"
  | .schematicStage => "schematic_stage"
  | .awaitingSchematicApproval => "awaiting_schematic_approval"
  | .awaitingLayoutConstraintApproval => "awaiting_layout_constraint_approval"
  | .placementStage => "placement_stage"
  | .awaitingPlacementApproval => "awaiting_placement_approval"
  | .routingStage => "routing_stage"
  | .awaitingRoutingApproval => "awaiting_routing_approval"
  | .releaseCheck => "release_check"
  | .awaitingReleaseApproval => "awaiting_release_approval"
  | .released => "released"

inductive AgentClass where
  | coordinator | interviewer | researcher | domainDesigner | critic | deterministicExecutor
  | verificationWorker | releaseReviewer
  deriving DecidableEq, Repr

def AgentClass.value : AgentClass → String
  | .coordinator => "coordinator"
  | .interviewer => "interviewer"
  | .researcher => "researcher"
  | .domainDesigner => "domain_designer"
  | .critic => "critic"
  | .deterministicExecutor => "deterministic_executor"
  | .verificationWorker => "verification_worker"
  | .releaseReviewer => "release_reviewer"

inductive RiskClass where
  | low | medium | high | critical
  deriving DecidableEq, Repr

def RiskClass.value : RiskClass → String
  | .low => "low"
  | .medium => "medium"
  | .high => "high"
  | .critical => "critical"

inductive TaskState where
  | queued | blocked | leased | running | retryWait | succeeded | failed | cancelled
  deriving DecidableEq, Repr

inductive TaskKind where
  | research | design | implement | verify | review | synthesize
  deriving DecidableEq, Repr

def TaskKind.value : TaskKind → String
  | .research => "research"
  | .design => "design"
  | .implement => "implement"
  | .verify => "verify"
  | .review => "review"
  | .synthesize => "synthesize"

inductive QuestionState where
  | opened | answered | withdrawn
  deriving DecidableEq, Repr

inductive ApprovalKind where
  | brief | architectureBom | schematic | layoutConstraints | placement | routing | release
  | plan | changeset | exception
  deriving DecidableEq, Repr

def ApprovalKind.value : ApprovalKind → String
  | .brief => "brief"
  | .architectureBom => "architecture_bom"
  | .schematic => "schematic"
  | .layoutConstraints => "layout_constraints"
  | .placement => "placement"
  | .routing => "routing"
  | .release => "release"
  | .plan => "plan"
  | .changeset => "changeset"
  | .exception => "exception"

inductive ApprovalState where
  | requested | approved | rejected | expired | revoked
  deriving DecidableEq, Repr

inductive EvidenceKind where
  | userResponse | toolOutput | artifact | designCheck | testResult | modelTrace
  | approvalReceipt
  deriving DecidableEq, Repr

def EvidenceKind.value : EvidenceKind → String
  | .userResponse => "user_response"
  | .toolOutput => "tool_output"
  | .artifact => "artifact"
  | .designCheck => "design_check"
  | .testResult => "test_result"
  | .modelTrace => "model_trace"
  | .approvalReceipt => "approval_receipt"

/-! ### Records -/

/-- A run of the workflow. -/
structure Run where
  id : String
  phase : RunPhase
  coordinationStage : CoordinationStage
  checkpointDigest : Option String
  coordinationRevision : Nat
  strictUserCoordination : Bool
  requirePlanApproval : Bool
  requireIndependentCritic : Bool
  taskInventoryDigest : Option String
  planDigest : Option String
  revision : Nat
  deriving DecidableEq, Repr

/-- A check a task's result must carry evidence for. -/
structure CheckRequirement where
  checkId : String
  source : String
  policyDigest : String
  deriving DecidableEq, Repr

structure RetryPolicy where
  maxAttempts : Int
  initialBackoffSeconds : Int
  multiplier : Int
  maxBackoffSeconds : Int
  deriving DecidableEq, Repr

/-- The result digest a review was made against. -/
structure ReviewedTaskResultBinding where
  taskId : String
  resultDigest : String
  deriving DecidableEq, Repr

structure Task where
  id : String
  runId : String
  title : String
  instructions : String
  kind : TaskKind
  createdSeq : Int
  priority : Int
  wave : Int
  dependencies : List String
  requiredCapabilities : List String
  requiredAgentClass : Option AgentClass
  excludedAgentIds : List String
  riskClass : RiskClass
  inputRevision : Option String
  outputSchemaDigest : Option String
  idempotencyKey : Option String
  requiredChecks : List CheckRequirement
  reviewedTaskIds : List String
  reviewedResultBindings : List ReviewedTaskResultBinding
  estimatedTokens : Int
  retryPolicy : RetryPolicy
  state : TaskState
  resultEvidenceIds : List String
  completedByAgentId : Option String
  deriving DecidableEq, Repr

structure Agent where
  id : String
  runId : String
  agentClass : AgentClass
  deriving DecidableEq, Repr

structure Evidence where
  id : String
  runId : String
  kind : EvidenceKind
  source : String
  contentDigest : String
  summary : String
  capturedAt : Instant
  taskId : Option String
  checkId : Option String
  policyDigest : Option String
  passed : Option Bool
  metadataJson : String
  deriving DecidableEq, Repr

/-! ### Questions -/

structure Question where
  id : String
  runId : String
  prompt : String
  rationale : String
  askedAt : Instant
  blocking : Bool
  options : List String
  recommendation : Option String
  confidenceBasisPoints : Option Int
  allowCustomAnswer : Bool
  boundRevision : Option String
  affectedArtifactIds : List String
  dependentDecisionIds : List String
  state : QuestionState
  answer : Option String
  answeredBy : Option String
  answeredAt : Option Instant
  deriving DecidableEq, Repr

/-- A text that is absent or empty: `not value`. -/
def isFalsy (value : Option String) : Bool := value.getD "" == ""

/-- The checks a question's constructor makes. -/
def Question.postInit (q : Question) : Except Failure Question := do
  require (∀ value ∈ q.options, value ≠ "")
    (.domainError "question options must be exact non-empty strings")
  require (∀ value ∈ q.affectedArtifactIds, value ≠ "")
    (.domainError "question affected artifact IDs must be exact non-empty strings")
  require (∀ value ∈ q.dependentDecisionIds, value ≠ "")
    (.domainError "question dependent decision IDs must be exact non-empty strings")
  require (q.id ≠ "" ∧ q.runId ≠ "" ∧ Text.isBlank q.prompt = false)
    (.domainError "question ID, run ID, and prompt are required")
  requireWhen (q.blocking) do
    require (2 ≤ q.options.length)
      (.domainError "blocking questions require at least two explicit options")
    require (∃ value ∈ q.options, q.recommendation = some value)
      (.domainError "blocking questions require a recommended declared option")
    require (q.confidenceBasisPoints.isSome)
      (.domainError "blocking questions require recommendation confidence")
    require (isFalsy q.boundRevision = false)
      (.domainError "blocking questions must bind to an exact revision")
  require (∀ points ∈ q.confidenceBasisPoints, 0 ≤ points ∧ points ≤ 10000)
    (.domainError "question confidence must be from 0 to 10,000 basis points")
  require (q.state = .answered → isFalsy q.answer = false ∧ isFalsy q.answeredBy = false)
    (.domainError "answered questions require an answer and actor")
  return q

/-! ### Approval receipts -/

structure Approval where
  id : String
  runId : String
  kind : ApprovalKind
  subjectDigest : String
  summary : String
  requestedAt : Instant
  expiresAt : Option Instant
  state : ApprovalState
  decidedBy : Option String
  decidedAt : Option Instant
  reason : Option String
  deriving DecidableEq, Repr

/-- The checks an approval's constructor makes. -/
def Approval.postInit (a : Approval) : Except Failure Approval := do
  require (a.id ≠ "" ∧ a.runId ≠ "" ∧ a.subjectDigest ≠ "")
    (.domainError "approval ID, run ID, and subject digest are required")
  require (∀ expiry ∈ a.expiresAt, a.requestedAt < expiry)
    (.domainError "approval expiry must follow its request")
  require (a.state ≠ .requested → a.decidedAt.isSome)
    (.domainError "decided approvals require a decision timestamp")
  return a

/-- Approved, bound to the digest and not expired. -/
def Approval.isValidFor (a : Approval) (digest : String) (at' : Instant) : Bool :=
  a.state = .approved && a.subjectDigest == digest && a.expiresAt.all (fun expiry => at' < expiry)

/-! ### Digests of tasks -/

section Digests

variable [Hashing]

def optionalText : Option String → Json
  | some value => .str value
  | none => .null

def sortedTexts (values : List String) : Json :=
  .arr ((values.insertionSort (· ≤ ·)).map .str)

/-- The immutable scheduling and review contract of one task. -/
def taskContract (task : Task) : Json :=
  Json.object [
    ("scope", .str "flux-clone-orchestrator-task-contract-v1"),
    ("run_id", .str task.runId),
    ("task_id", .str task.id),
    ("title", .str task.title),
    ("instructions", .str task.instructions),
    ("kind", .str task.kind.value),
    ("created_seq", .int task.createdSeq),
    ("priority", .int task.priority),
    ("wave", .int task.wave),
    ("dependencies", sortedTexts task.dependencies),
    ("required_capabilities", sortedTexts task.requiredCapabilities),
    ("required_agent_class", optionalText (task.requiredAgentClass.map AgentClass.value)),
    ("excluded_agent_ids", sortedTexts task.excludedAgentIds),
    ("risk_class", .str task.riskClass.value),
    ("input_revision", optionalText task.inputRevision),
    ("output_schema_digest", optionalText task.outputSchemaDigest),
    ("idempotency_key", optionalText task.idempotencyKey),
    ("required_checks", .arr
      ((task.requiredChecks.insertionSort (fun a b => a.checkId ≤ b.checkId)).map
        (fun item => Json.object [
          ("check_id", .str item.checkId),
          ("source", .str item.source),
          ("policy_digest", .str item.policyDigest)]))),
    ("reviewed_task_ids", sortedTexts task.reviewedTaskIds),
    ("reviewed_result_bindings", .arr
      ((task.reviewedResultBindings.insertionSort (fun a b => a.taskId ≤ b.taskId)).map
        (fun binding => Json.object [
          ("task_id", .str binding.taskId),
          ("result_digest", .str binding.resultDigest)]))),
    ("estimated_tokens", .int task.estimatedTokens),
    ("retry_policy", Json.object [
      ("max_attempts", .int task.retryPolicy.maxAttempts),
      ("initial_backoff_seconds", .int task.retryPolicy.initialBackoffSeconds),
      ("multiplier", .int task.retryPolicy.multiplier),
      ("max_backoff_seconds", .int task.retryPolicy.maxBackoffSeconds)])]

def taskContractDigest (task : Task) : String := Hashing.ofJson (taskContract task)

/-- The digest binding a run to the complete set of its tasks' contracts. -/
def taskInventoryDigest (runId : String) (tasks : List Task) : Except Failure String := do
  require (runId ≠ "") (.domainError "task inventory requires an exact run ID")
  require (∀ task ∈ tasks, task.runId = runId)
    (.domainError "task inventory contains a task from another run")
  require ((tasks.map Task.id).Nodup) (.domainError "task inventory IDs must be unique")
  return Hashing.ofJson (Json.object [
    ("scope", .str "flux-clone-orchestrator-task-inventory-v1"),
    ("run_id", .str runId),
    ("tasks", .arr ((tasks.insertionSort (fun a b => a.id ≤ b.id)).map
      (fun task => Json.object [
        ("task_id", .str task.id),
        ("contract_digest", .str (taskContractDigest task))])))])

/-- The digest binding one completed task to its exact evidence records. -/
def taskResultDigest (task : Task) (evidence : List Evidence) : Except Failure String := do
  require (task.state = .succeeded)
    (.domainError "task result hashing requires an exact succeeded Task")
  let missing := Failure.domainError "task result requires its completing agent and evidence IDs"
  require (task.resultEvidenceIds ≠ []) missing
  match task.completedByAgentId with
  | none => .error missing
  | some completedBy => do
      require ((evidence.map Evidence.id).Nodup ∧
          (∀ item ∈ evidence, item.id ∈ task.resultEvidenceIds) ∧
          (∀ id ∈ task.resultEvidenceIds, id ∈ evidence.map Evidence.id))
        (.domainError "task result evidence set does not match its declared IDs")
      require (∀ item ∈ evidence, item.runId = task.runId ∧ item.taskId = some task.id)
        (.domainError "task result evidence is bound to another run or task")
      return Hashing.ofJson (Json.object [
        ("scope", .str "flux-clone-orchestrator-task-result-v1"),
        ("task_contract_digest", .str (taskContractDigest task)),
        ("completed_by_agent_id", .str completedBy),
        ("evidence", .arr ((evidence.insertionSort (fun a b => a.id ≤ b.id)).map
          (fun item => Json.object [
            ("id", .str item.id),
            ("kind", .str item.kind.value),
            ("source", .str item.source),
            ("content_digest", .str item.contentDigest),
            ("summary", .str item.summary),
            ("captured_at", .str (Text.isoformat item.capturedAt)),
            ("check_id", optionalText item.checkId),
            ("policy_digest", optionalText item.policyDigest),
            ("passed", match item.passed with | some passed => .bool passed | none => .null),
            ("metadata_json", .str item.metadataJson)])))])

end Digests

end Evleda.Orchestrator
