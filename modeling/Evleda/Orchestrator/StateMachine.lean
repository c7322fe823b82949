/-
The coordination state machine: run phases, workflow stages, questions and
approval receipts.

Every operation is a pure function from a run to a run that may raise.  The
tables of the source, which phase may follow which, which stage is next, which
approval a checkpoint needs and which phase a stage shows, are functions on the
enumerations.  The facts the guards read, the questions, approvals, tasks,
agents and evidence held for the run, come with each call as a
`TransitionContext`.

Operations that mint an identifier take the fresh one as an argument.
-/
import Evleda.Orchestrator.Models

namespace Evleda.Orchestrator

/-! ### The facts a guard reads -/

structure TransitionContext where
  questions : List Question := []
  approvals : List Approval := []
  tasks : List Task := []
  agents : List Agent := []
  evidence : List Evidence := []
  requiredApprovalKind : Option ApprovalKind := none
  requiredSubjectDigest : Option String := none
  verificationPassed : Bool := false

namespace TransitionContext

variable (context : TransitionContext)

def openBlockingQuestions (run : Run) : List Question :=
  context.questions.filter
    (fun question => question.runId == run.id && question.blocking && question.state = .opened)

def hasValidApproval (run : Run) (kind : ApprovalKind) (subjectDigest : String) (at' : Instant) :
    Bool :=
  context.approvals.any
    (fun approval => approval.runId == run.id && approval.kind = kind &&
      approval.isValidFor subjectDigest at')

def allRequiredTasksSucceeded (run : Run) : Bool :=
  let relevant := context.tasks.filter (fun task => task.runId == run.id)
  !relevant.isEmpty && relevant.all (fun task => task.state = .succeeded || task.state = .cancelled)

variable [Hashing]

def matchesTaskInventory (run : Run) : Bool :=
  match run.taskInventoryDigest with
  | none => false
  | some sealed =>
      if context.tasks.any (fun task => task.runId != run.id) then false
      else match taskInventoryDigest run.id context.tasks with
        | .error _ => false
        | .ok actual => actual == sealed

/-- The records of a collection under an identifier; a later record replaces an earlier one. -/
def byId {α : Type} (id : α → String) (records : List α) (key : String) : Option α :=
  records.reverse.find? (fun record => id record == key)

/-- The review names exactly the reviewed tasks and the target's present result. -/
def bindsExactTargetResult (evidenceById : String → Option Evidence) (review target : Task) :
    Bool :=
  let bound := review.reviewedResultBindings.map ReviewedTaskResultBinding.taskId
  if bound.all (· ∈ review.reviewedTaskIds) && review.reviewedTaskIds.all (· ∈ bound) then
    match target.resultEvidenceIds.mapM evidenceById with
    | none => false
    | some targetEvidence =>
        match taskResultDigest target targetEvidence with
        | .error _ => false
        | .ok actual =>
            (review.reviewedResultBindings.reverse.find? (fun b => b.taskId == target.id)).map
              ReviewedTaskResultBinding.resultDigest == some actual
  else false

/-- Every design mutation has a completed review by a distinct critic. -/
def hasRequiredIndependentCriticReviews (run : Run) : Bool :=
  let relevant := context.tasks.filter (fun task => task.runId == run.id)
  let reviewTargets := relevant.filter
    (fun task => (task.kind = .design || task.kind = .implement) && task.state ≠ .cancelled)
  if reviewTargets.isEmpty then true
  else
    let reviews := relevant.filter (fun task => task.kind = .review &&
      task.requiredAgentClass = some .critic && task.state = .succeeded &&
      task.completedByAgentId.isSome && !task.resultEvidenceIds.isEmpty)
    let agents := context.agents.filter (fun agent => agent.runId == run.id)
    let evidence := context.evidence.filter (fun item => item.runId == run.id)
    -- the dictionaries by identifier are as large as the unfiltered collections
    if (agents.map Agent.id).dedup.length != context.agents.length ||
        (evidence.map Evidence.id).dedup.length != context.evidence.length then false
    else
      let agentById := byId Agent.id agents
      let evidenceById := byId Evidence.id evidence
      reviewTargets.all (fun target =>
        (target.completedByAgentId.bind agentById).isSome &&
        reviews.any (fun review =>
          target.id ∈ review.reviewedTaskIds &&
          review.completedByAgentId != target.completedByAgentId &&
          (review.completedByAgentId.bind agentById).any (fun a => a.agentClass = .critic) &&
          bindsExactTargetResult evidenceById review target &&
          review.resultEvidenceIds.all (fun id =>
            (evidenceById id).any (fun item => item.taskId = some review.id))))

end TransitionContext

/-! ### Tables -/

/-- The phases a run may move to from a phase. -/
def allowed : RunPhase → List RunPhase
  | .draft => [.clarifying, .awaitingPlanApproval, .ready, .cancelled]
  | .clarifying => [.awaitingPlanApproval, .ready, .executing, .verifying, .cancelled]
  | .awaitingPlanApproval => [.clarifying, .ready, .cancelled]
  | .ready => [.clarifying, .executing, .cancelled]
  | .executing => [.clarifying, .awaitingChangeApproval, .verifying, .failed, .cancelled]
  | .awaitingChangeApproval => [.clarifying, .executing, .failed, .cancelled]
  | .verifying =>
      [.clarifying, .awaitingChangeApproval, .executing, .completed, .failed, .cancelled]
  | .completed => []
  | .failed => []
  | .cancelled => []

def stageNext : CoordinationStage → Option CoordinationStage
  | .questioning => some .awaitingBriefApproval
  | .awaitingBriefApproval => some .research
  | .research => some .awaitingArchitectureBomApproval
  | .awaitingArchitectureBomApproval => some .schematicStage
  | .schematicStage => some .awaitingSchematicApproval
  | .awaitingSchematicApproval => some .awaitingLayoutConstraintApproval
  | .awaitingLayoutConstraintApproval => some .placementStage
  | .placementStage => some .awaitingPlacementApproval
  | .awaitingPlacementApproval => some .routingStage
  | .routingStage => some .awaitingRoutingApproval
  | .awaitingRoutingApproval => some .releaseCheck
  | .releaseCheck => some .awaitingReleaseApproval
  | .awaitingReleaseApproval => some .released
  | .released => none

/-- The checkpoint stages with the kind of approval each of them waits for. -/
def checkpointKinds : List (CoordinationStage × ApprovalKind) :=
  [(.awaitingBriefApproval, .brief),
   (.awaitingArchitectureBomApproval, .architectureBom),
   (.awaitingSchematicApproval, .schematic),
   (.awaitingLayoutConstraintApproval, .layoutConstraints),
   (.awaitingPlacementApproval, .placement),
   (.awaitingRoutingApproval, .routing),
   (.awaitingReleaseApproval, .release)]

def checkpointKind (stage : CoordinationStage) : Option ApprovalKind :=
  checkpointKinds.lookup stage

def stagePhase : CoordinationStage → RunPhase
  | .questioning => .clarifying
  | .awaitingBriefApproval => .awaitingPlanApproval
  | .research => .executing
  | .awaitingArchitectureBomApproval => .awaitingChangeApproval
  | .schematicStage => .executing
  | .awaitingSchematicApproval => .awaitingChangeApproval
  | .awaitingLayoutConstraintApproval => .awaitingChangeApproval
  | .placementStage => .executing
  | .awaitingPlacementApproval => .awaitingChangeApproval
  | .routingStage => .executing
  | .awaitingRoutingApproval => .awaitingChangeApproval
  | .releaseCheck => .verifying
  | .awaitingReleaseApproval => .awaitingChangeApproval
  | .released => .completed

/-! ### Phases -/

section Transitions

variable [Hashing]

def requirePlanApproval (run : Run) (context : TransitionContext) (at' : Instant) :
    Except Failure Unit :=
  if run.requirePlanApproval then do
    require (isFalsy run.planDigest = false)
      (.transitionRejected "approved execution requires a plan digest")
    let digest := run.planDigest.getD ""
    require (context.hasValidApproval run .plan digest at')
      (.transitionRejected ("no valid plan approval for digest " ++ digest))
  else .ok ()

/-- `RunStateMachine.transition` -/
def transition (run : Run) (target : RunPhase) (at' : Instant) (context : TransitionContext) :
    Except Failure Run := do
  require (run.phase.isTerminal = false)
    (.transitionRejected ("terminal run " ++ run.id ++ " cannot transition"))
  require (target ≠ run.phase) (.transitionRejected "no-op run transitions are not allowed")
  require (target ∈ allowed run.phase)
    (.transitionRejected ("transition " ++ run.phase.value ++ " -> " ++ target.value ++
      " is not allowed"))
  requireWhen (run.strictUserCoordination ∧
      target ∈ [.ready, .executing, .verifying, .completed]) do
    let openQuestions := context.openBlockingQuestions run
    require (openQuestions = [])
      (.transitionRejected ("blocking questions remain open: " ++
        ", ".intercalate (openQuestions.map Question.id)))
  requireWhen (target = .ready ∨ target = .executing) (requirePlanApproval run context at')
  requireWhen (run.phase = .awaitingChangeApproval ∧ target = .executing) do
    let kind := context.requiredApprovalKind.getD .changeset
    require (isFalsy context.requiredSubjectDigest = false)
      (.transitionRejected "changeset approval requires an exact digest")
    let digest := context.requiredSubjectDigest.getD ""
    require (context.hasValidApproval run kind digest at')
      (.transitionRejected ("no valid " ++ kind.value ++ " approval for digest " ++ digest))
  requireWhen (target = .completed) do
    require (context.verificationPassed)
      (.transitionRejected "run cannot complete without passed verification")
    require (context.matchesTaskInventory run)
      (.transitionRejected "run cannot complete without its exact sealed task inventory")
    require (context.allRequiredTasksSucceeded run)
      (.transitionRejected "run cannot complete before all tasks are terminal-success")
    require (run.requireIndependentCritic → context.hasRequiredIndependentCriticReviews run)
      (.transitionRejected "run cannot complete without independent critic review")
  return { run with phase := target, revision := run.revision + 1 }

/-! ### Stages -/

/-- Move a run to a stage, with the checkpoint digest it carries there. -/
def enterStage (run : Run) (target : CoordinationStage) (checkpointDigest : Option String) : Run :=
  { run with
    phase := stagePhase target
    coordinationStage := target
    checkpointDigest := checkpointDigest
    coordinationRevision := run.coordinationRevision + 1
    revision := run.revision + 1 }

/-- The approval a checkpoint demands before it is left. -/
def requireCheckpointApproval (run : Run) (context : TransitionContext) (at' : Instant) :
    Except Failure Unit :=
  match checkpointKind run.coordinationStage with
  | none => .ok ()
  | some kind => do
      require (isFalsy run.checkpointDigest = false)
        (.transitionRejected (run.coordinationStage.value ++ " has no immutable checkpoint digest"))
      let digest := run.checkpointDigest.getD ""
      require (context.hasValidApproval run kind digest at')
        (.transitionRejected ("no valid " ++ kind.value ++ " approval for checkpoint " ++ digest))

/-- `CoordinationStageMachine.advance` -/
def advance (run : Run) (target : CoordinationStage) (at' : Instant)
    (context : TransitionContext) : Except Failure Run :=
  match stageNext run.coordinationStage with
  | none => .error (.transitionRejected "released runs cannot advance")
  | some expected => do
      require (target = expected)
        (.transitionRejected ("coordination stage " ++ run.coordinationStage.value ++
          " must advance to " ++ expected.value))
      require (context.openBlockingQuestions run = [])
        (.transitionRejected "blocking questions must be answered before stage advance")
      requireCheckpointApproval run context at'
      requireWhen (target = .released) do
        require (context.verificationPassed)
          (.transitionRejected "release requires passed deterministic verification")
        require (context.matchesTaskInventory run)
          (.transitionRejected "release requires the exact sealed task inventory")
        require (context.allRequiredTasksSucceeded run)
          (.transitionRejected "release requires all workflow tasks to succeed")
        require (run.requireIndependentCritic → context.hasRequiredIndependentCriticReviews run)
          (.transitionRejected "release requires independent critic review")
      return enterStage run target none

end Transitions

/-- `CoordinationStageMachine.restart_questioning` -/
def restartQuestioning (run : Run) : Except Failure Run := do
  require (run.coordinationStage ≠ .released)
    (.transitionRejected "a released run needs a new revision, not silent steering")
  return enterStage run .questioning none

/-! ### Questions and approvals -/

/-- The caller's identifier, or the fresh one when it gave none. -/
def orFresh (given : Option String) (fresh : String) : String :=
  if isFalsy given then fresh else given.getD ""

/-- What a caller of `open_question` supplies. -/
structure QuestionRequest where
  prompt : String
  rationale : String
  blocking : Bool
  options : List String
  recommendation : Option String
  confidenceBasisPoints : Option Int
  allowCustomAnswer : Bool
  boundRevision : Option String
  affectedArtifactIds : List String
  dependentDecisionIds : List String
  questionId : Option String

/-- `CoordinationService.open_question` -/
def openQuestion (run : Run) (request : QuestionRequest) (at' : Instant) (fresh : String) :
    Except Failure (Run × Question) := do
  require (run.phase.isTerminal = false)
    (.transitionRejected "cannot ask a question on a terminal run")
  let options := request.options.map Text.strip
  require (∀ option ∈ options, option ≠ "") (.domainError "question options cannot be blank")
  require (options.Nodup) (.domainError "question options must be unique")
  let question ← Question.postInit {
    id := orFresh request.questionId fresh
    runId := run.id
    prompt := request.prompt
    rationale := request.rationale
    askedAt := at'
    blocking := request.blocking
    options := options
    recommendation := request.recommendation
    confidenceBasisPoints := request.confidenceBasisPoints
    allowCustomAnswer := request.allowCustomAnswer
    boundRevision := request.boundRevision
    affectedArtifactIds := request.affectedArtifactIds
    dependentDecisionIds := request.dependentDecisionIds
    state := .opened
    answer := none
    answeredBy := none
    answeredAt := none }
  let nextRun :=
    if request.blocking ∧ (run.phase ≠ .clarifying ∨ run.coordinationStage ≠ .questioning) then
      enterStage run .questioning none
    else run
  return (nextRun, question)

/-- What a caller of the two approval requests supplies. -/
structure ApprovalRequest where
  kind : ApprovalKind
  subjectDigest : String
  summary : String
  expiresAt : Option Instant
  approvalId : Option String

/-- The receipt a request asks a user to decide. -/
def ApprovalRequest.receipt (request : ApprovalRequest) (run : Run) (at' : Instant)
    (fresh : String) : Except Failure Approval :=
  Approval.postInit {
    id := orFresh request.approvalId fresh
    runId := run.id
    kind := request.kind
    subjectDigest := request.subjectDigest
    summary := request.summary
    requestedAt := at'
    expiresAt := request.expiresAt
    state := .requested
    decidedBy := none
    decidedAt := none
    reason := none }

/-- `CoordinationService.request_checkpoint_approval` -/
def requestCheckpointApproval (run : Run) (request : ApprovalRequest) (at' : Instant)
    (fresh : String) : Except Failure (Run × Approval) :=
  match (checkpointKinds.filter (fun entry => entry.2 = request.kind)).map Prod.fst with
  | [target] => do
      require (run.coordinationStage = target ∨ stageNext run.coordinationStage = some target)
        (.transitionRejected (request.kind.value ++ " approval is not valid during " ++
          run.coordinationStage.value))
      require (request.subjectDigest ≠ "")
        (.domainError "checkpoint approval requires an immutable subject digest")
      let nextRun := enterStage run target (some request.subjectDigest)
      let approval ← request.receipt run at' fresh
      return (nextRun, approval)
  | _ => .error (.domainError (request.kind.value ++ " is not a product checkpoint approval kind"))

def awaitApproval (run : Run) (request : ApprovalRequest) : Except Failure Run :=
  if request.kind = .plan then
    .ok { run with
      phase := .awaitingPlanApproval
      planDigest := some request.subjectDigest
      revision := run.revision + 1 }
  else do
    require (.awaitingChangeApproval ∈ allowed run.phase ∨ run.phase = .awaitingChangeApproval)
      (.transitionRejected ("cannot request " ++ request.kind.value ++ " approval during " ++
        run.phase.value))
    return if run.phase ≠ .awaitingChangeApproval then
      { run with phase := .awaitingChangeApproval, revision := run.revision + 1 }
    else run

/-- `CoordinationService.request_approval` -/
def requestApproval (run : Run) (request : ApprovalRequest) (at' : Instant) (fresh : String) :
    Except Failure (Run × Approval) := do
  require (run.phase.isTerminal = false)
    (.transitionRejected "cannot request approval on a terminal run")
  let nextRun ← awaitApproval run request
  let approval ← request.receipt run at' fresh
  return (nextRun, approval)

end Evleda.Orchestrator
