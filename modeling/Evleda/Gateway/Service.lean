/-
The capability gateway.

A call of a tool is one transaction: the gateway looks the idempotency key up,
runs the tool's action on its records, and either publishes what the action did
together with the result under that key, or puts its records back as they were
and raises.

What is outside the gateway comes with the call: the answers of the adapter, the
two readings of the clock, and whether a durable store, where there is one, could
be read and written.  An adapter is not put back.
-/
import Evleda.Gateway.Models
import Evleda.Lib.Asking
import Evleda.Lib.Collections

namespace Evleda.Gateway

open Asking

/-! ### What is outside -/

/-- How an adapter answers during a call. -/
structure Adapter where
  inspectProject : String → Option String → Except Failure ProjectSnapshot
  previewPatch : String → String → DesignPatch → Except Failure PatchPreview
  stagePatch : String → String → DesignPatch → String → Except Failure StageRecord
  runVerification : String → String → String → Except Failure VerificationReport
  commit : String → String → String → Except Failure String
  /-- Present in an adapter that binds a commit to its evidence. -/
  commitWithEvidence : Option (String → String → String → AgentRun → VerificationReport →
    ApprovalReceipt → Except Failure String)
  rollback : String → String → String → Except Failure String
  exportProject : String → String → ExportFormat → Except Failure ExportArtifact

/-- What the adapter was asked, and its answer. -/
inductive Asked where
  | inspectProject (projectId : String) (revision : Option String)
      (answer : Except Failure ProjectSnapshot)
  | previewPatch (projectId revision : String) (patch : DesignPatch)
      (answer : Except Failure PatchPreview)
  | stagePatch (projectId revision : String) (patch : DesignPatch) (previewDigest : String)
      (answer : Except Failure StageRecord)
  | runVerification (projectId revision stagedRevision : String)
      (answer : Except Failure VerificationReport)
  | commit (projectId revision stagedRevision : String)
      (evidence : Option (AgentRun × VerificationReport × ApprovalReceipt))
      (answer : Except Failure String)
  | rollback (projectId revision stagedRevision : String) (answer : Except Failure String)
  | exportProject (projectId revision : String) (format : ExportFormat)
      (answer : Except Failure ExportArtifact)

/-- Whether the durable store could be read at the start of a call and written at its end. -/
structure StoreTurn where
  load : Except Failure Unit
  save : Except Failure Unit

/-- The outside of the gateway during one call. -/
structure Turn where
  adapter : Adapter
  /-- The clock as it is read before the action, and as the action reads it. -/
  capturedAt : Except Failure Instant
  actedAt : Except Failure Instant
  store : Option StoreTurn := none

/-! ### The records -/

structure GatewayState where
  runs : Dict String AgentRun := Dict.empty
  questions : Dict String QuestionRecord := Dict.empty
  approvals : Dict String ApprovalRequestRecord := Dict.empty
  receipts : Dict String ApprovalReceipt := Dict.empty
  previews : Dict String PatchPreview := Dict.empty
  reports : Dict String VerificationReport := Dict.empty
  /-- The digest of the input and the result under an actor, a tool and a key. -/
  idempotency : Dict (String × ToolName × String) (String × ToolResult) := Dict.empty
  evidence : List EvidenceRecord := []

structure Limits where
  maxParallelAgents : Option Int := none
  tokenBudget : Option Int := none

/-- The digests of the tool manifests, which are fixed texts. -/
structure Manifests where
  digest : ToolName → String

def requiredTier : ToolName → CapabilityTier
  | .inspectProject => .read
  | .decideApproval | .commitTransaction | .exportProject => .release
  | .createAgentRun | .answerQuestion | .previewPatch | .stageDesignPatch | .runVerification
  | .rollbackTransaction => .stage

/-- Raise unless a condition holds. -/
def demand (c : Prop) [Decidable c] (errorClass : ErrorClass) (message : String) :
    Asking Asked Failure Unit :=
  check (if c then .ok () else .error ⟨errorClass, message⟩)

/-- A record that has to be there. -/
def lookup {α : Type} (found : Option α) (errorClass : ErrorClass) (message : String) :
    Asking Asked Failure α :=
  check (match found with
    | some a => .ok a
    | none => .error ⟨errorClass, message⟩)

/-- What an action leaves behind: the records, the payload and a project revision. -/
structure Applied where
  gateway : GatewayState
  payload : Json
  projectRevision : String

section Service

variable [Hashing]

/-! ### Preconditions -/

def requireHuman (invocation : Invocation) (operation : String) : Asking Asked Failure Unit :=
  demand (invocation.principal.actorKind = .user) .capabilityDenied
    ("only an authenticated user may decide " ++ operation)

def requireRunPreconditions (s : GatewayState) (turn : Turn) (runId projectId projectRevision : String)
    (runRevision : Int) : Asking Asked Failure AgentRun := do
  let _ ← ask (.inspectProject projectId (some projectRevision))
    (turn.adapter.inspectProject projectId (some projectRevision))
  let run ← lookup (s.runs runId) .notFound ("run not found: " ++ runId)
  demand (run.projectId = projectId) .invalidRequest "run belongs to a different project"
  demand (run.projectRevision = projectRevision) .revisionConflict
    "run is pinned to another project revision"
  demand (run.runRevision = runRevision) .revisionConflict
    ("run revision mismatch: expected " ++ toString runRevision ++ ", current " ++
      toString run.runRevision)
  return run

/-- A run names a question that the gateway does not hold. -/
def questionMissing (questionId : String) : Failure := ⟨.other, questionId⟩

def openBlockingQuestions (s : GatewayState) (run : AgentRun) :
    Except Failure (List QuestionRecord) := do
  let questions ← run.questionIds.mapM fun questionId =>
    match s.questions questionId with
    | some question => Except.ok question
    | none => .error (questionMissing questionId)
  return questions.filter fun question => question.blocking && question.answer.isNone

def requireApprovedReceipt (s : GatewayState) (receiptId : String) (run : AgentRun)
    (kind : ApprovalKind) (subjectDigest : String) : Asking Asked Failure ApprovalReceipt := do
  let receipt ← lookup (s.receipts receiptId) .approvalRequired
    ("approval receipt not found: " ++ receiptId)
  demand (receipt.runId = run.runId ∧ receipt.kind = kind ∧ receipt.subjectDigest = subjectDigest ∧
      receipt.decision = .approved) .approvalRequired
    "approval receipt does not authorize this exact digest and action"
  return receipt

def releaseSubject (runId projectRevision stagedRevision reportDigest : String) : String :=
  stableDigest (.object [("kind", .str ApprovalKind.release.value), ("run_id", .str runId),
    ("project_revision", .str projectRevision), ("staged_revision", .str stagedRevision),
    ("verification_report_digest", .str reportDigest)])

/-! ### The tools -/

section

omit [Hashing]

def inspectProject (s : GatewayState) (turn : Turn) (request : InspectProjectRequest) :
    Asking Asked Failure Applied := do
  let snapshot ← ask (.inspectProject request.projectId request.expectedProjectRevision)
    (turn.adapter.inspectProject request.projectId request.expectedProjectRevision)
  return ⟨s, .object [("snapshot", snapshot.json)], snapshot.projectRevision⟩

/-- The question asked first, second and so on of a new run. -/
def openedQuestion (runId : String) (index : Nat) (spec : QuestionSpec) : QuestionRecord where
  questionId := derivedId "question"
    [("run", .str runId), ("index", .int index), ("spec", spec.json)]
  runId := runId
  prompt := spec.prompt
  rationale := spec.rationale
  blocking := spec.blocking
  options := spec.options

/-- A requested amount within the host's limit, which is also the default. -/
def limited (limit requested : Option Int) (message : String) :
    Asking Asked Failure (Option Int) := do
  match limit with
  | none => return requested
  | some bound =>
      demand (∀ amount ∈ requested, amount ≤ bound) .invalidRequest message
      return some (requested.getD bound)

def createAgentRun (limits : Limits) (s : GatewayState) (invocation : Invocation) (turn : Turn)
    (request : CreateAgentRunRequest) : Asking Asked Failure Applied := do
  let _ ← ask (.inspectProject request.projectId (some request.expectedProjectRevision))
    (turn.adapter.inspectProject request.projectId (some request.expectedProjectRevision))
  let runId := derivedId "run" [("tool", .str ToolName.createAgentRun.value),
    ("actor", .str invocation.principal.actorId),
    ("idempotency_key", .str invocation.idempotencyKey), ("discriminator", .str request.projectId)]
  demand (s.runs runId = none) .invalidRequest ("run already exists: " ++ runId)
  let questions := request.initialQuestions.zipIdx.map fun (spec, index) =>
    openedQuestion runId index spec
  let maxParallelAgents ← limited limits.maxParallelAgents request.maxParallelAgents
    "max_parallel_agents exceeds the trusted host limit"
  let tokenBudget ← limited limits.tokenBudget request.tokenBudget
    "token_budget exceeds the trusted host limit"
  let run : AgentRun :=
    { runId := runId
      projectId := request.projectId
      objective := request.objective
      projectRevision := request.expectedProjectRevision
      runRevision := 0
      state := if questions.any (·.blocking) then .clarifying else .planning
      strictUserCoordination := true
      maxParallelAgents := maxParallelAgents
      tokenBudget := tokenBudget
      questionIds := questions.map (·.questionId) }
  return ⟨{ s with
      questions := s.questions.update (questions.map fun question => (question.questionId, question))
      runs := s.runs.set runId run },
    .object [("run", run.json), ("questions", .arr (questions.map QuestionRecord.json))],
    run.projectRevision⟩

def answerQuestion (s : GatewayState) (invocation : Invocation) (turn : Turn)
    (request : AnswerQuestionRequest) : Asking Asked Failure Applied := do
  requireHuman invocation "coordination questions"
  let run ← requireRunPreconditions s turn request.runId request.projectId
    request.expectedProjectRevision request.expectedRunRevision
  let question ← lookup (s.questions request.questionId) .notFound
    ("question not found: " ++ request.questionId)
  demand (question.runId = run.runId) .invalidRequest "question belongs to a different run"
  demand (question.answer = none) .coordinationRequired "question has already been answered"
  demand (question.options ≠ [] → request.answer ∈ question.options) .invalidRequest
    "answer must exactly match a declared option"
  let answeredAt ← check turn.actedAt
  let answered := { question with
    answer := some request.answer
    answeredBy := some invocation.principal.actorId
    answeredAt := some answeredAt }
  let s := { s with questions := s.questions.set question.questionId answered }
  let remaining ← check (openBlockingQuestions s run)
  -- whatever the run was doing, it is clarifying or planning again
  let updated := { run with
    runRevision := run.runRevision + 1
    state := if remaining = [] then .planning else .clarifying }
  return ⟨{ s with runs := s.runs.set run.runId updated },
    .object [("question", answered.json), ("run", updated.json),
      ("open_blocking_question_ids", textsJson (remaining.map (·.questionId)))],
    run.projectRevision⟩

def decidedReceipt (invocation : Invocation) (run : AgentRun) (approval : ApprovalRequestRecord)
    (decision : ApprovalDecision) (decidedAt : Instant) (reason : String) : ApprovalReceipt :=
  let receipt : ApprovalReceipt :=
    { receiptId := derivedId "receipt" [("approval", .str approval.approvalId),
        ("decision", .str decision.value), ("actor", .str invocation.principal.actorId),
        ("key", .str invocation.idempotencyKey)]
      approvalId := approval.approvalId
      runId := run.runId
      kind := approval.kind
      subjectDigest := approval.subjectDigest
      decision := decision
      decidedBy := invocation.principal.actorId
      decidedAt := decidedAt
      reason := reason
      receiptDigest := "" }
  { receipt with receiptDigest := stableDigest (.object receipt.material) }

def decideApproval (s : GatewayState) (invocation : Invocation) (turn : Turn)
    (request : DecideApprovalRequest) : Asking Asked Failure Applied := do
  requireHuman invocation "approval decisions"
  let run ← requireRunPreconditions s turn request.runId request.projectId
    request.expectedProjectRevision request.expectedRunRevision
  let approval ← lookup (s.approvals request.approvalId) .notFound
    ("approval not found: " ++ request.approvalId)
  demand (approval.runId = run.runId) .invalidRequest "approval belongs to a different run"
  demand (approval.decision = .pending) .coordinationRequired "approval has already been decided"
  let decision := if request.approve then ApprovalDecision.approved else .rejected
  let decidedAt ← check turn.actedAt
  let receipt := decidedReceipt invocation run approval decision decidedAt request.reason
  let updated := { run with
    runRevision := run.runRevision + 1
    state := if request.approve then run.state
      else if approval.kind = .stage then .planning else .staged }
  return ⟨{ s with
      approvals := s.approvals.set approval.approvalId { approval with decision := decision }
      receipts := s.receipts.set receipt.receiptId receipt
      runs := s.runs.set run.runId updated },
    .object [("receipt", receipt.json), ("run", updated.json)], run.projectRevision⟩

/-- An approval is asked for unless it was refused before. -/
def requestedApproval (s : GatewayState) (turn : Turn) (approvalId : String) (run : AgentRun)
    (kind : ApprovalKind) (subjectDigest summary refused : String) :
    Asking Asked Failure ApprovalRequestRecord := do
  demand (∀ existing ∈ s.approvals approvalId, existing.decision ≠ .rejected)
    .coordinationRequired refused
  let requestedAt ← check turn.actedAt
  return ⟨approvalId, run.runId, kind, subjectDigest, summary, .pending, requestedAt⟩

def previewPatch (s : GatewayState) (turn : Turn) (request : PreviewPatchRequest) :
    Asking Asked Failure Applied := do
  let run ← requireRunPreconditions s turn request.runId request.projectId
    request.expectedProjectRevision request.expectedRunRevision
  let remaining ← check (openBlockingQuestions s run)
  demand (remaining = []) .coordinationRequired
    "all blocking questions must be answered before preview"
  demand (run.state = .planning) .coordinationRequired
    ("patch preview is not allowed while run is " ++ run.state.value)
  let preview ← ask (.previewPatch request.projectId request.expectedProjectRevision request.patch)
    (turn.adapter.previewPatch request.projectId request.expectedProjectRevision request.patch)
  let approval ← requestedApproval s turn
    (derivedId "approval" [("run", .str run.runId), ("kind", .str "stage"),
      ("preview", .str preview.previewDigest)]) run .stage preview.previewDigest
    ("Stage " ++ toString request.patch.operations.length ++ " typed design operations")
    "this exact preview was rejected; revise the patch before requesting approval again"
  let updated := { run with
    runRevision := run.runRevision + 1
    state := .awaitingStageApproval
    approvalIds := run.approvalIds ++ [approval.approvalId] }
  return ⟨{ s with
      previews := s.previews.set preview.previewDigest preview
      approvals := s.approvals.set approval.approvalId approval
      runs := s.runs.set run.runId updated },
    .object [("preview", preview.json), ("approval", approval.json), ("run", updated.json)],
    run.projectRevision⟩

def stageDesignPatch (s : GatewayState) (turn : Turn) (request : StageDesignPatchRequest) :
    Asking Asked Failure Applied := do
  let run ← requireRunPreconditions s turn request.runId request.projectId
    request.expectedProjectRevision request.expectedRunRevision
  demand (run.state = .awaitingStageApproval) .coordinationRequired
    "run is not awaiting an approved stage"
  demand (∃ preview ∈ s.previews request.previewDigest, preview.patchDigest = request.patch.digest)
    .revisionConflict "preview does not match this exact patch"
  let _ ← requireApprovedReceipt s request.approvalReceiptId run .stage request.previewDigest
  let stage ← ask (.stagePatch request.projectId request.expectedProjectRevision request.patch
      request.previewDigest)
    (turn.adapter.stagePatch request.projectId request.expectedProjectRevision request.patch
      request.previewDigest)
  let updated := { run with
    runRevision := run.runRevision + 1
    state := .staged
    stagedRevision := some stage.stagedRevision }
  return ⟨{ s with runs := s.runs.set run.runId updated },
    .object [("stage", stage.json), ("run", updated.json)], run.projectRevision⟩

def runVerification (s : GatewayState) (turn : Turn) (request : RunVerificationRequest) :
    Asking Asked Failure Applied := do
  let run ← requireRunPreconditions s turn request.runId request.projectId
    request.expectedProjectRevision request.expectedRunRevision
  demand (run.state = .staged) .coordinationRequired "run must have an exact staged revision"
  demand (run.stagedRevision = some request.expectedStagedRevision) .revisionConflict
    "run staged revision does not match precondition"
  let report ← ask (.runVerification request.projectId request.expectedProjectRevision
      request.expectedStagedRevision)
    (turn.adapter.runVerification request.projectId request.expectedProjectRevision
      request.expectedStagedRevision)
  let verified := { s with reports := s.reports.set report.reportDigest report }
  let updated := { run with
    runRevision := run.runRevision + 1
    verificationReportDigest := some report.reportDigest }
  if report.passed then
    let subject := releaseSubject run.runId request.expectedProjectRevision
      request.expectedStagedRevision report.reportDigest
    let approval ← requestedApproval s turn
      (derivedId "approval" [("run", .str run.runId), ("kind", .str "release"),
        ("subject", .str subject)]) run .release subject
      "Commit the exact staged revision after deterministic verification"
      "release was rejected for this exact verified stage; revise or roll back the stage"
    let updated := { updated with
      state := .awaitingReleaseApproval
      approvalIds := run.approvalIds ++ [approval.approvalId] }
    return ⟨{ verified with
        approvals := s.approvals.set approval.approvalId approval
        runs := s.runs.set run.runId updated },
      .object [("report", report.json), ("approval", approval.json), ("run", updated.json)],
      run.projectRevision⟩
  else
    let updated := { updated with state := .staged }
    return ⟨{ verified with runs := s.runs.set run.runId updated },
      .object [("report", report.json), ("approval", .null), ("run", updated.json)],
      run.projectRevision⟩

/-- Ask the adapter to commit, with the evidence where it takes it. -/
def askCommit (turn : Turn) (request : CommitTransactionRequest) (run : AgentRun)
    (report : VerificationReport) (receipt : ApprovalReceipt) : Asking Asked Failure String :=
  match turn.adapter.commitWithEvidence with
  | some commitWithEvidence =>
      ask (.commit request.projectId request.expectedProjectRevision request.expectedStagedRevision
          (some (run, report, receipt)))
        (commitWithEvidence request.projectId request.expectedProjectRevision
          request.expectedStagedRevision run report receipt)
  | none =>
      ask (.commit request.projectId request.expectedProjectRevision request.expectedStagedRevision
          none)
        (turn.adapter.commit request.projectId request.expectedProjectRevision
          request.expectedStagedRevision)

def commitTransaction (s : GatewayState) (turn : Turn) (request : CommitTransactionRequest) :
    Asking Asked Failure Applied := do
  let run ← requireRunPreconditions s turn request.runId request.projectId
    request.expectedProjectRevision request.expectedRunRevision
  demand (run.state = .awaitingReleaseApproval) .coordinationRequired
    "run is not awaiting release approval"
  demand (run.stagedRevision = some request.expectedStagedRevision) .revisionConflict
    "run staged revision does not match precondition"
  let report ← lookup ((s.reports request.verificationReportDigest).filter (·.passed))
    .verificationFailed "a passing deterministic report is required"
  demand (report.baseRevision = request.expectedProjectRevision ∧
      report.stagedRevision = request.expectedStagedRevision) .verificationFailed
    "verification report is for another revision"
  let receipt ← requireApprovedReceipt s request.approvalReceiptId run .release
    (releaseSubject run.runId request.expectedProjectRevision request.expectedStagedRevision
      request.verificationReportDigest)
  let newRevision ← askCommit turn request run report receipt
  let updated := { run with
    projectRevision := newRevision
    runRevision := run.runRevision + 1
    state := .complete }
  return ⟨{ s with runs := s.runs.set run.runId updated },
    .object [("committed_revision", .str newRevision),
      ("approval_receipt_digest", .str receipt.receiptDigest),
      ("verification_report_digest", .str report.reportDigest), ("run", updated.json)],
    newRevision⟩

def rollbackTransaction (s : GatewayState) (turn : Turn) (request : RollbackTransactionRequest) :
    Asking Asked Failure Applied := do
  let run ← requireRunPreconditions s turn request.runId request.projectId
    request.expectedProjectRevision request.expectedRunRevision
  demand (run.stagedRevision = some request.expectedStagedRevision) .revisionConflict
    "run staged revision does not match precondition"
  demand (run.state = .staged ∨ run.state = .awaitingReleaseApproval) .coordinationRequired
    "run has no rollback-eligible stage"
  let current ← ask (.rollback request.projectId request.expectedProjectRevision
      request.expectedStagedRevision)
    (turn.adapter.rollback request.projectId request.expectedProjectRevision
      request.expectedStagedRevision)
  let updated := { run with runRevision := run.runRevision + 1, state := .rolledBack }
  return ⟨{ s with runs := s.runs.set run.runId updated },
    .object [("rolled_back_staged_revision", .str request.expectedStagedRevision),
      ("current_project_revision", .str current), ("reason", .str request.reason),
      ("run", updated.json)], current⟩

def exportProject (s : GatewayState) (turn : Turn) (request : ExportProjectRequest) :
    Asking Asked Failure Applied := do
  let artifact ← ask (.exportProject request.projectId request.expectedProjectRevision
      request.format)
    (turn.adapter.exportProject request.projectId request.expectedProjectRevision request.format)
  return ⟨s, .object [("artifact", artifact.json)], artifact.projectRevision⟩

end

def action (limits : Limits) (s : GatewayState) (invocation : Invocation) (turn : Turn) :
    Request → Asking Asked Failure Applied
  | .inspectProject request => inspectProject s turn request
  | .createAgentRun request => createAgentRun limits s invocation turn request
  | .answerQuestion request => answerQuestion s invocation turn request
  | .decideApproval request => decideApproval s invocation turn request
  | .previewPatch request => previewPatch s turn request
  | .stageDesignPatch request => stageDesignPatch s turn request
  | .runVerification request => runVerification s turn request
  | .commitTransaction request => commitTransaction s turn request
  | .rollbackTransaction request => rollbackTransaction s turn request
  | .exportProject request => exportProject s turn request

/-! ### One call -/

/-- The checks of a snapshot: no evidence identifier occurs twice.  The other records are kept under
their own identifiers. -/
def snapshotChecks (s : GatewayState) : Except Failure Unit :=
  if (s.evidence.map (·.evidenceId)).Nodup then .ok ()
  else .error ⟨.stateIntegrityError, "gateway snapshot contains duplicate evidence identity"⟩

structure Call where
  invocation : Invocation
  request : Request
  turn : Turn

def Call.key (c : Call) : String × ToolName × String :=
  (c.invocation.principal.actorId, c.request.tool, c.invocation.idempotencyKey)

def Call.inputDigest (c : Call) : String := stableDigest c.request.json

/-- The evidence and the result of an applied action. -/
def toolResult (manifests : Manifests) (c : Call) (capturedAt : Instant) (applied : Applied) :
    ToolResult :=
  let outputDigest := stableDigest applied.payload
  { toolName := c.request.tool
    payloadJson := canonicalJson applied.payload
    evidence :=
      { evidenceId := derivedId "evidence" [("actor", .str c.invocation.principal.actorId),
          ("tool", .str c.request.tool.value), ("key", .str c.invocation.idempotencyKey),
          ("input", .str c.inputDigest), ("output", .str outputDigest)]
        toolName := c.request.tool
        actorId := c.invocation.principal.actorId
        projectId := c.request.projectId
        projectRevision := applied.projectRevision
        inputDigest := c.inputDigest
        outputDigest := outputDigest
        capturedAt := capturedAt
        manifestDigest := manifests.digest c.request.tool }
    manifestDigest := manifests.digest c.request.tool }

/-- Keep the result under the key of the call. -/
def GatewayState.publish (s : GatewayState) (c : Call) (result : ToolResult) : GatewayState :=
  { s with
    idempotency := s.idempotency.set c.key (c.inputDigest, result)
    evidence := s.evidence ++ [result.evidence] }

/-- The action of a call, published and saved. -/
def apply (limits : Limits) (manifests : Manifests) (s : GatewayState) (c : Call)
    (capturedAt : Instant) : Asking Asked Failure (GatewayState × ToolResult) := do
  let applied ← action limits s c.invocation c.turn c.request
  let result := toolResult manifests c capturedAt applied
  let s := applied.gateway.publish c result
  match c.turn.store with
  | none => return (s, result)
  | some store =>
      check (snapshotChecks s)
      check store.save
      return (s, result)

/-- What a call that got past the idempotency table starts from: the time, if a snapshot of the
records could be taken. -/
def captured (s : GatewayState) (turn : Turn) : Except Failure Instant := do
  let capturedAt ← turn.capturedAt
  snapshotChecks s
  return capturedAt

/-- The outcome of a call: the records after it, what it returned or raised, and what it asked. -/
structure Reply where
  gateway : GatewayState
  outcome : Except Failure ToolResult
  asked : List Asked

def refused (s : GatewayState) (failure : Failure) : Reply := ⟨s, .error failure, []⟩

/-- `_invoke_locked` -/
def invoke (limits : Limits) (manifests : Manifests) (s : GatewayState) (c : Call) : Reply :=
  match (c.turn.store.elim (.ok ()) StoreTurn.load : Except Failure Unit) with
  | .error failure => refused s failure
  | .ok () =>
      let profile := c.invocation.principal.profile
      let tier := requiredTier c.request.tool
      if profile.maximumTier.value < tier.value then
        refused s ⟨.capabilityDenied, profile.value ++ " cannot invoke " ++ c.request.tool.value ++
          "; " ++ tier.lowerName ++ " capability is required"⟩
      else
        match s.idempotency c.key with
        | some (previousDigest, result) =>
            if previousDigest ≠ c.inputDigest then
              refused s ⟨.idempotencyConflict,
                "idempotency key was already used with different canonical input"⟩
            else ⟨s, .ok result, []⟩
        | none =>
            match captured s c.turn with
            | .error failure => refused s failure
            | .ok capturedAt =>
                let ⟨outcome, asked⟩ := apply limits manifests s c capturedAt
                match outcome with
                | .ok (next, result) => ⟨next, .ok result, asked⟩
                -- the snapshot taken before the action is put back
                | .error failure => ⟨s, .error failure, asked⟩

end Service

end Evleda.Gateway
