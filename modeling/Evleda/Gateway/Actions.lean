/-
What the action of a tool does.

One relation says when an action returns: what it finds in the records and what the
adapter answers, and with that the records it leaves, its answer and what it asks
the adapter to do.  Every fact about actions that returned is a case analysis of
it.  Two facts are about the others as well: an adapter is asked to commit by one
tool only, after every check of it, and once the adapter has staged, committed,
rolled back or exported, the action returns.
-/
import Evleda.Gateway.Service

namespace Evleda.Gateway

open Asking

/-! ### The constructs of an action -/

variable {message : String} {errorClass : ErrorClass}

@[simp] theorem demand_ok {c : Prop} [Decidable c]
    {u : Unit} : (demand c errorClass message).outcome = .ok u ↔ c := by
  unfold demand
  rw [check_outcome]
  split <;> simp_all

@[simp] theorem demand_asked {c : Prop} [Decidable c]
    : (demand c errorClass message).asked = [] := rfl

@[simp] theorem lookup_ok {α : Type} {found : Option α}
    {a : α} : (lookup found errorClass message).outcome = .ok a ↔
      found = some a := by
  unfold lookup
  rw [check_outcome]
  cases found <;> simp

@[simp] theorem lookup_asked {α : Type} {found : Option α}
    : (lookup found errorClass message).asked = [] := rfl

section Actions

variable [Hashing] {s : GatewayState} {invocation : Invocation} {turn : Turn}

variable {q : Asked} {run : AgentRun}

section

omit [Hashing]

@[simp] theorem requireHuman_ok {operation : String} {u : Unit} :
    (requireHuman invocation operation).outcome = .ok u ↔
      invocation.principal.actorKind = .user := by
  unfold requireHuman
  rw [demand_ok]

@[simp] theorem requireHuman_asked {operation : String} :
    (requireHuman invocation operation).asked = [] := rfl

/-- The run that a request was made against. -/
structure Pinned (s : GatewayState) (runId projectId projectRevision : String) (run : AgentRun) :
    Prop where
  held : s.runs runId = some run
  project : run.projectId = projectId
  revision : run.projectRevision = projectRevision

/-- The same with the adapter at the revision of the project, and the run at its own. -/
structure Addressed (s : GatewayState) (turn : Turn) (runId projectId projectRevision : String)
    (runRevision : Int) (run : AgentRun) : Prop
    extends Pinned s runId projectId projectRevision run where
  inspected : ∃ snapshot, turn.adapter.inspectProject projectId (some projectRevision) = .ok snapshot
  current : run.runRevision = runRevision

variable {runId projectId projectRevision : String}

variable {runRevision : Int}

@[simp] theorem requireRunPreconditions_ok
    :
    (requireRunPreconditions s turn runId projectId projectRevision runRevision).outcome =
      .ok run ↔ Addressed s turn runId projectId projectRevision runRevision run := by
  unfold requireRunPreconditions
  simp only [bind_ok, ask_outcome, lookup_ok, demand_ok, pure_outcome, Except.ok.injEq]
  constructor
  · rintro ⟨snapshot, hsnapshot, run, hrun, -, hproject, -, hrevision, -, hcurrent, rfl⟩
    exact ⟨⟨hrun, hproject, hrevision⟩, ⟨snapshot, hsnapshot⟩, hcurrent⟩
  · rintro ⟨⟨hrun, hproject, hrevision⟩, ⟨snapshot, hsnapshot⟩, hcurrent⟩
    exact ⟨snapshot, hsnapshot, run, hrun, (), hproject, (), hrevision, (), hcurrent, rfl⟩

theorem requireRunPreconditions_asked
    (h : q ∈ (requireRunPreconditions s turn runId projectId projectRevision runRevision).asked) :
    q = .inspectProject projectId (some projectRevision)
      (turn.adapter.inspectProject projectId (some projectRevision)) := by
  unfold requireRunPreconditions at h
  simpa [mem_bind_asked] using h

/-- The receipt approves a subject for a run. -/
structure Approves (receipt : ApprovalReceipt) (run : AgentRun) (kind : ApprovalKind)
    (subjectDigest : String) : Prop where
  run : receipt.runId = run.runId
  kind : receipt.kind = kind
  subject : receipt.subjectDigest = subjectDigest
  decision : receipt.decision = .approved

variable {kind : ApprovalKind}

@[simp] theorem requireApprovedReceipt_ok {receiptId : String}
    {subjectDigest : String} {receipt : ApprovalReceipt} :
    (requireApprovedReceipt s receiptId run kind subjectDigest).outcome = .ok receipt ↔
      s.receipts receiptId = some receipt ∧ Approves receipt run kind subjectDigest := by
  unfold requireApprovedReceipt
  simp only [bind_ok, lookup_ok, demand_ok, pure_outcome, Except.ok.injEq]
  constructor
  · rintro ⟨receipt, hreceipt, -, ⟨hrun, hkind, hsubject, hdecision⟩, rfl⟩
    exact ⟨hreceipt, hrun, hkind, hsubject, hdecision⟩
  · rintro ⟨hreceipt, happroves⟩
    exact ⟨receipt, hreceipt, (), ⟨happroves.run, happroves.kind, happroves.subject,
      happroves.decision⟩, rfl⟩

@[simp] theorem requireApprovedReceipt_asked {receiptId : String}
    {subjectDigest : String} :
    (requireApprovedReceipt s receiptId run kind subjectDigest).asked = [] := by
  refine List.eq_nil_iff_forall_not_mem.mpr fun q hq => ?_
  unfold requireApprovedReceipt at hq
  simp [mem_bind_asked] at hq

/-- An approval may be asked for, and is pending then. -/
structure Requested (s : GatewayState) (turn : Turn) (approvalId : String) (run : AgentRun)
    (kind : ApprovalKind) (subjectDigest summary : String) (approval : ApprovalRequestRecord) :
    Prop where
  unrejected : ∀ existing ∈ s.approvals approvalId, existing.decision ≠ .rejected
  record : ∃ requestedAt, turn.actedAt = .ok requestedAt ∧ approval =
    ⟨approvalId, run.runId, kind, subjectDigest, summary, .pending, requestedAt⟩

@[simp] theorem requestedApproval_ok {approvalId : String}
    {subjectDigest summary refused : String} {approval : ApprovalRequestRecord} :
    (requestedApproval s turn approvalId run kind subjectDigest summary refused).outcome =
      .ok approval ↔ Requested s turn approvalId run kind subjectDigest summary approval := by
  unfold requestedApproval
  simp only [bind_ok, demand_ok, check_outcome, pure_outcome, Except.ok.injEq]
  constructor
  · rintro ⟨-, hunrejected, requestedAt, hclock, rfl⟩
    exact ⟨hunrejected, requestedAt, hclock, rfl⟩
  · rintro ⟨hunrejected, requestedAt, hclock, rfl⟩
    exact ⟨(), hunrejected, requestedAt, hclock, rfl⟩

@[simp] theorem requestedApproval_asked {approvalId : String}
    {subjectDigest summary refused : String} :
    (requestedApproval s turn approvalId run kind subjectDigest summary refused).asked = [] := by
  refine List.eq_nil_iff_forall_not_mem.mpr fun q hq => ?_
  unfold requestedApproval at hq
  simp [mem_bind_asked] at hq

/-- An amount within the host's limit, which is also the default. -/
def Limited (limit requested amount : Option Int) : Prop :=
  (∀ bound ∈ limit, ∀ n ∈ requested, n ≤ bound) ∧
    amount = limit.elim requested fun bound => some (requested.getD bound)

@[simp] theorem limited_ok {limit requested amount : Option Int} :
    (limited limit requested message).outcome = .ok amount ↔ Limited limit requested amount := by
  unfold limited Limited
  cases limit with
  | none => simp [eq_comm]
  | some bound =>
      simp only [bind_ok, demand_ok, pure_outcome, Except.ok.injEq]
      simp [eq_comm]

@[simp] theorem limited_asked {limit requested : Option Int} :
    (limited limit requested message).asked = [] := by
  refine List.eq_nil_iff_forall_not_mem.mpr fun q hq => ?_
  unfold limited at hq
  cases limit with
  | none => simp at hq
  | some bound => simp [mem_bind_asked] at hq

/-! ### What an action asks -/

/-- The adapter changed something: it staged, committed, rolled back or exported. -/
def Asked.changes : Asked → Bool
  | .stagePatch _ _ _ _ (.ok _) => true
  | .commit _ _ _ _ (.ok _) => true
  | .rollback _ _ _ (.ok _) => true
  | .exportProject _ _ _ (.ok _) => true
  | _ => false

/-- A request to stage, commit, roll back or export. -/
def Request.acts : Request → Bool
  | .stageDesignPatch _ | .commitTransaction _ | .rollbackTransaction _ | .exportProject _ => true
  | _ => false

def Asked.isCommit : Asked → Bool
  | .commit .. => true
  | _ => false

/-- The adapter was only looked at. -/
def Asked.reads : Asked → Bool
  | .inspectProject .. => true
  | .previewPatch .. => true
  | .runVerification .. => true
  | _ => false

theorem Asked.changes_nothing (h : q.reads = true) :
    q.changes = false ∧ q.isCommit = false := by
  cases q with
  | inspectProject projectId revision answer => exact ⟨rfl, rfl⟩
  | previewPatch projectId revision patch answer => exact ⟨rfl, rfl⟩
  | runVerification projectId revision stagedRevision answer => exact ⟨rfl, rfl⟩
  | _ => cases h

theorem preconditions_read
    (h : q ∈ (requireRunPreconditions s turn runId projectId projectRevision runRevision).asked) :
    q.reads = true := by
  rw [requireRunPreconditions_asked h]
  exact rfl

theorem preconditions_ask_nothing
    (h : q ∈ (requireRunPreconditions s turn runId projectId projectRevision runRevision).asked) :
    q.changes = false ∧ q.isCommit = false :=
  Asked.changes_nothing (preconditions_read h)

end

/-! ### What an action does -/

/-- The identifier of the run that a request creates. -/
def newRunId (invocation : Invocation) (r : CreateAgentRunRequest) : String :=
  derivedId "run" [("tool", .str ToolName.createAgentRun.value),
    ("actor", .str invocation.principal.actorId),
    ("idempotency_key", .str invocation.idempotencyKey), ("discriminator", .str r.projectId)]

/-- The identifier of the approval of a preview. -/
def stageApprovalId (runId previewDigest : String) : String :=
  derivedId "approval" [("run", .str runId), ("kind", .str "stage"), ("preview", .str previewDigest)]

def releaseApprovalId (runId subject : String) : String :=
  derivedId "approval" [("run", .str runId), ("kind", .str "release"), ("subject", .str subject)]

section

variable (limits : Limits) (s : GatewayState) (invocation : Invocation) (turn : Turn)

/-- An action returned: what it found, the records it left and its answer, and what the adapter did
for it besides being looked at. -/
inductive Done : Request → Applied → List Asked → Prop
  | inspected {r : InspectProjectRequest} {snapshot : ProjectSnapshot}
      (hsnapshot : turn.adapter.inspectProject r.projectId r.expectedProjectRevision = .ok snapshot) :
      Done (.inspectProject r)
        ⟨s, .object [("snapshot", snapshot.json)], snapshot.projectRevision⟩ []
  | created {r : CreateAgentRunRequest} {snapshot : ProjectSnapshot} {questions : List QuestionRecord}
      {maxParallelAgents tokenBudget : Option Int} {run : AgentRun}
      (hsnapshot : turn.adapter.inspectProject r.projectId (some r.expectedProjectRevision) =
        .ok snapshot)
      (hnew : s.runs (newRunId invocation r) = none)
      (hquestions : questions = r.initialQuestions.zipIdx.map fun asked =>
        openedQuestion (newRunId invocation r) asked.2 asked.1)
      (hparallel : Limited limits.maxParallelAgents r.maxParallelAgents maxParallelAgents)
      (hbudget : Limited limits.tokenBudget r.tokenBudget tokenBudget)
      (hrun : run = {
        runId := newRunId invocation r
        projectId := r.projectId
        objective := r.objective
        projectRevision := r.expectedProjectRevision
        runRevision := 0
        state := if questions.any (·.blocking) then .clarifying else .planning
        strictUserCoordination := true
        maxParallelAgents := maxParallelAgents
        tokenBudget := tokenBudget
        questionIds := questions.map (·.questionId) }) :
      Done (.createAgentRun r) ⟨{ s with
          questions := s.questions.update (questions.map fun q => (q.questionId, q))
          runs := s.runs.set (newRunId invocation r) run },
        .object [("run", run.json), ("questions", .arr (questions.map QuestionRecord.json))],
        run.projectRevision⟩ []
  | answered {r : AnswerQuestionRequest} {run updated : AgentRun} {question answered : QuestionRecord}
      {answeredAt : Instant} {remaining : List QuestionRecord}
      (hhuman : invocation.principal.actorKind = .user)
      (hrun : Addressed s turn r.runId r.projectId r.expectedProjectRevision r.expectedRunRevision run)
      (hquestion : s.questions r.questionId = some question) (hown : question.runId = run.runId)
      (hopen : question.answer = none) (hoption : question.options ≠ [] → r.answer ∈ question.options)
      (hclock : turn.actedAt = .ok answeredAt)
      (hanswered : answered = { question with
        answer := some r.answer
        answeredBy := some invocation.principal.actorId
        answeredAt := some answeredAt })
      (hremaining : openBlockingQuestions
        { s with questions := s.questions.set question.questionId answered } run = .ok remaining)
      (hupdated : updated = { run with
        runRevision := run.runRevision + 1
        state := if remaining = [] then .planning else .clarifying }) :
      Done (.answerQuestion r) ⟨{ s with
          questions := s.questions.set question.questionId answered
          runs := s.runs.set run.runId updated },
        .object [("question", answered.json), ("run", updated.json),
          ("open_blocking_question_ids", textsJson (remaining.map (·.questionId)))],
        run.projectRevision⟩ []
  | decided {r : DecideApprovalRequest} {run updated : AgentRun} {approval : ApprovalRequestRecord}
      {decision : ApprovalDecision} {decidedAt : Instant} {receipt : ApprovalReceipt}
      (hhuman : invocation.principal.actorKind = .user)
      (hrun : Addressed s turn r.runId r.projectId r.expectedProjectRevision r.expectedRunRevision run)
      (happroval : s.approvals r.approvalId = some approval) (hown : approval.runId = run.runId)
      (hpending : approval.decision = .pending) (hclock : turn.actedAt = .ok decidedAt)
      (hdecision : decision = if r.approve then .approved else .rejected)
      (hreceipt : receipt = decidedReceipt invocation run approval decision decidedAt r.reason)
      (hupdated : updated = { run with
        runRevision := run.runRevision + 1
        state := if r.approve then run.state
          else if approval.kind = .stage then .planning else .staged }) :
      Done (.decideApproval r) ⟨{ s with
          approvals := s.approvals.set approval.approvalId { approval with decision := decision }
          receipts := s.receipts.set receipt.receiptId receipt
          runs := s.runs.set run.runId updated },
        .object [("receipt", receipt.json), ("run", updated.json)], run.projectRevision⟩ []
  | previewed {r : PreviewPatchRequest} {run updated : AgentRun} {preview : PatchPreview}
      {approval : ApprovalRequestRecord}
      (hrun : Addressed s turn r.runId r.projectId r.expectedProjectRevision r.expectedRunRevision run)
      (hremaining : openBlockingQuestions s run = .ok []) (hstate : run.state = .planning)
      (hpreview : turn.adapter.previewPatch r.projectId r.expectedProjectRevision r.patch =
        .ok preview)
      (happroval : Requested s turn (stageApprovalId run.runId preview.previewDigest) run .stage
        preview.previewDigest
        ("Stage " ++ toString r.patch.operations.length ++ " typed design operations") approval)
      (hupdated : updated = { run with
        runRevision := run.runRevision + 1
        state := .awaitingStageApproval
        approvalIds := run.approvalIds ++ [approval.approvalId] }) :
      Done (.previewPatch r) ⟨{ s with
          previews := s.previews.set preview.previewDigest preview
          approvals := s.approvals.set approval.approvalId approval
          runs := s.runs.set run.runId updated },
        .object [("preview", preview.json), ("approval", approval.json), ("run", updated.json)],
        run.projectRevision⟩ []
  | staged {r : StageDesignPatchRequest} {run updated : AgentRun} {preview : PatchPreview}
      {receipt : ApprovalReceipt} {stage : StageRecord}
      (hrun : Addressed s turn r.runId r.projectId r.expectedProjectRevision r.expectedRunRevision run)
      (hstate : run.state = .awaitingStageApproval)
      (hpreview : s.previews r.previewDigest = some preview)
      (hpatch : preview.patchDigest = r.patch.digest)
      (hreceipt : s.receipts r.approvalReceiptId = some receipt)
      (happroves : Approves receipt run .stage r.previewDigest)
      (hstage : turn.adapter.stagePatch r.projectId r.expectedProjectRevision r.patch
        r.previewDigest = .ok stage)
      (hupdated : updated = { run with
        runRevision := run.runRevision + 1
        state := .staged
        stagedRevision := some stage.stagedRevision }) :
      Done (.stageDesignPatch r) ⟨{ s with runs := s.runs.set run.runId updated },
        .object [("stage", stage.json), ("run", updated.json)], run.projectRevision⟩
        [.stagePatch r.projectId r.expectedProjectRevision r.patch r.previewDigest (.ok stage)]
  | verified {r : RunVerificationRequest} {run updated : AgentRun} {report : VerificationReport}
      {approval : ApprovalRequestRecord}
      (hrun : Addressed s turn r.runId r.projectId r.expectedProjectRevision r.expectedRunRevision run)
      (hstate : run.state = .staged) (hstaged : run.stagedRevision = some r.expectedStagedRevision)
      (hreport : turn.adapter.runVerification r.projectId r.expectedProjectRevision
        r.expectedStagedRevision = .ok report) (hpassed : report.passed = true) {subject : String}
      (hsubject : subject = releaseSubject run.runId r.expectedProjectRevision
        r.expectedStagedRevision report.reportDigest)
      (happroval : Requested s turn (releaseApprovalId run.runId subject) run .release subject
        "Commit the exact staged revision after deterministic verification" approval)
      (hupdated : updated = { run with
        runRevision := run.runRevision + 1
        verificationReportDigest := some report.reportDigest
        state := .awaitingReleaseApproval
        approvalIds := run.approvalIds ++ [approval.approvalId] }) :
      Done (.runVerification r) ⟨{ s with
          reports := s.reports.set report.reportDigest report
          approvals := s.approvals.set approval.approvalId approval
          runs := s.runs.set run.runId updated },
        .object [("report", report.json), ("approval", approval.json), ("run", updated.json)],
        run.projectRevision⟩ []
  | failed {r : RunVerificationRequest} {run updated : AgentRun} {report : VerificationReport}
      (hrun : Addressed s turn r.runId r.projectId r.expectedProjectRevision r.expectedRunRevision run)
      (hstate : run.state = .staged) (hstaged : run.stagedRevision = some r.expectedStagedRevision)
      (hreport : turn.adapter.runVerification r.projectId r.expectedProjectRevision
        r.expectedStagedRevision = .ok report) (hfailed : ¬ report.passed = true)
      (hupdated : updated = { run with
        runRevision := run.runRevision + 1
        verificationReportDigest := some report.reportDigest
        state := .staged }) :
      Done (.runVerification r) ⟨{ s with
          reports := s.reports.set report.reportDigest report
          runs := s.runs.set run.runId updated },
        .object [("report", report.json), ("approval", .null), ("run", updated.json)],
        run.projectRevision⟩ []
  | committed {r : CommitTransactionRequest} {run updated : AgentRun} {report : VerificationReport}
      {receipt : ApprovalReceipt} {newRevision : String}
      (hrun : Addressed s turn r.runId r.projectId r.expectedProjectRevision r.expectedRunRevision run)
      (hstate : run.state = .awaitingReleaseApproval)
      (hstaged : run.stagedRevision = some r.expectedStagedRevision)
      (hreport : s.reports r.verificationReportDigest = some report) (hpassed : report.passed = true)
      (hrevisions : report.baseRevision = r.expectedProjectRevision ∧
        report.stagedRevision = r.expectedStagedRevision)
      (hreceipt : s.receipts r.approvalReceiptId = some receipt)
      (happroves : Approves receipt run .release (releaseSubject run.runId r.expectedProjectRevision
        r.expectedStagedRevision r.verificationReportDigest))
      (hcommit : (askCommit turn r run report receipt).outcome = .ok newRevision)
      (hupdated : updated = { run with
        projectRevision := newRevision
        runRevision := run.runRevision + 1
        state := .complete }) :
      Done (.commitTransaction r) ⟨{ s with runs := s.runs.set run.runId updated },
        .object [("committed_revision", .str newRevision),
          ("approval_receipt_digest", .str receipt.receiptDigest),
          ("verification_report_digest", .str report.reportDigest), ("run", updated.json)],
        newRevision⟩ (askCommit turn r run report receipt).asked
  | rolledBack {r : RollbackTransactionRequest} {run updated : AgentRun} {current : String}
      (hrun : Addressed s turn r.runId r.projectId r.expectedProjectRevision r.expectedRunRevision run)
      (hstaged : run.stagedRevision = some r.expectedStagedRevision)
      (hstate : run.state = .staged ∨ run.state = .awaitingReleaseApproval)
      (hrollback : turn.adapter.rollback r.projectId r.expectedProjectRevision
        r.expectedStagedRevision = .ok current)
      (hupdated : updated = { run with
        runRevision := run.runRevision + 1
        state := .rolledBack }) :
      Done (.rollbackTransaction r) ⟨{ s with runs := s.runs.set run.runId updated },
        .object [("rolled_back_staged_revision", .str r.expectedStagedRevision),
          ("current_project_revision", .str current), ("reason", .str r.reason),
          ("run", updated.json)], current⟩
        [.rollback r.projectId r.expectedProjectRevision r.expectedStagedRevision (.ok current)]
  | exported {r : ExportProjectRequest} {artifact : ExportArtifact}
      (hartifact : turn.adapter.exportProject r.projectId r.expectedProjectRevision r.format =
        .ok artifact) :
      Done (.exportProject r) ⟨s, .object [("artifact", artifact.json)], artifact.projectRevision⟩
        [.exportProject r.projectId r.expectedProjectRevision r.format (.ok artifact)]

end

section

variable {limits : Limits} {request : Request} {applied : Applied} {effects : List Asked}

theorem action_done (h : (action limits s invocation turn request).outcome = .ok applied) :
    ∃ effects, Done limits s invocation turn request applied effects := by
  cases request with
  | inspectProject r =>
      simp only [action, inspectProject, bind_ok, ask_outcome, pure_outcome, Except.ok.injEq] at h
      obtain ⟨snapshot, hsnapshot, rfl⟩ := h
      exact ⟨_, .inspected hsnapshot⟩
  | createAgentRun r =>
      simp only [action, createAgentRun, bind_ok, ask_outcome, demand_ok, limited_ok, pure_outcome,
        Except.ok.injEq] at h
      obtain ⟨snapshot, hsnapshot, -, hnew, _, hparallel, _, hbudget, rfl⟩ := h
      exact ⟨_, .created hsnapshot hnew rfl hparallel hbudget rfl⟩
  | answerQuestion r =>
      simp only [action, answerQuestion, bind_ok, requireHuman_ok, requireRunPreconditions_ok,
        lookup_ok, demand_ok, check_outcome, pure_outcome, Except.ok.injEq] at h
      obtain ⟨-, hhuman, run, hrun, question, hquestion, -, hown, -, hopen, -, hoption, answeredAt,
        hclock, remaining, hremaining, rfl⟩ := h
      exact ⟨_, .answered hhuman hrun hquestion hown hopen hoption hclock rfl hremaining rfl⟩
  | decideApproval r =>
      simp only [action, decideApproval, bind_ok, requireHuman_ok, requireRunPreconditions_ok,
        lookup_ok, demand_ok, check_outcome, pure_outcome, Except.ok.injEq] at h
      obtain ⟨-, hhuman, run, hrun, approval, happroval, -, hown, -, hpending, decidedAt, hclock,
        rfl⟩ := h
      exact ⟨_, .decided hhuman hrun happroval hown hpending hclock rfl rfl rfl⟩
  | previewPatch r =>
      simp only [action, previewPatch, bind_ok, requireRunPreconditions_ok, ask_outcome, demand_ok,
        check_outcome, requestedApproval_ok, pure_outcome, Except.ok.injEq] at h
      obtain ⟨run, hrun, remaining, hremaining, -, rfl, -, hstate, preview, hpreview, approval,
        happroval, rfl⟩ := h
      exact ⟨_, .previewed hrun hremaining hstate hpreview happroval rfl⟩
  | stageDesignPatch r =>
      simp only [action, stageDesignPatch, bind_ok, requireRunPreconditions_ok, ask_outcome,
        demand_ok, requireApprovedReceipt_ok, pure_outcome, Except.ok.injEq] at h
      obtain ⟨run, hrun, -, hstate, -, ⟨preview, hpreview, hpatch⟩, receipt, ⟨hreceipt, happroves⟩,
        stage, hstage, rfl⟩ := h
      exact ⟨_, .staged hrun hstate hpreview hpatch hreceipt happroves hstage rfl⟩
  | runVerification r =>
      simp only [action, runVerification, bind_ok, requireRunPreconditions_ok, ask_outcome,
        demand_ok] at h
      obtain ⟨run, hrun, -, hstate, -, hstaged, report, hreport, h⟩ := h
      split at h
      · rename_i hpassed
        simp only [bind_ok, requestedApproval_ok, pure_outcome, Except.ok.injEq] at h
        obtain ⟨approval, happroval, rfl⟩ := h
        exact ⟨_, .verified hrun hstate hstaged hreport hpassed rfl happroval rfl⟩
      · rename_i hfailed
        rw [pure_outcome, Except.ok.injEq] at h
        subst h
        exact ⟨_, .failed hrun hstate hstaged hreport hfailed rfl⟩
  | commitTransaction r =>
      simp only [action, commitTransaction, bind_ok, requireRunPreconditions_ok, demand_ok, lookup_ok,
        requireApprovedReceipt_ok, pure_outcome, Except.ok.injEq] at h
      obtain ⟨run, hrun, -, hstate, -, hstaged, report, hreport, -, hrevisions, receipt,
        ⟨hreceipt, happroves⟩, newRevision, hcommit, rfl⟩ := h
      obtain ⟨hreport, hpassed⟩ := Option.filter_eq_some_iff.mp hreport
      exact ⟨_, .committed hrun hstate hstaged hreport hpassed hrevisions hreceipt happroves hcommit
        rfl⟩
  | rollbackTransaction r =>
      simp only [action, rollbackTransaction, bind_ok, requireRunPreconditions_ok, ask_outcome,
        demand_ok, pure_outcome, Except.ok.injEq] at h
      obtain ⟨run, hrun, -, hstaged, -, hstate, current, hrollback, rfl⟩ := h
      exact ⟨_, .rolledBack hrun hstaged hstate hrollback rfl⟩
  | exportProject r =>
      simp only [action, exportProject, bind_ok, ask_outcome, pure_outcome, Except.ok.injEq] at h
      obtain ⟨artifact, hartifact, rfl⟩ := h
      exact ⟨_, .exported hartifact⟩

/-- And the other way round. -/
theorem Done.returns (h : Done limits s invocation turn request applied effects) :
    (action limits s invocation turn request).outcome = .ok applied := by
  cases h with
  | inspected hsnapshot =>
      simp only [action, inspectProject, bind_ok, ask_outcome]
      exact ⟨_, hsnapshot, rfl⟩
  | created hsnapshot hnew hquestions hparallel hbudget hrun =>
      subst hquestions hrun
      simp only [action, createAgentRun, bind_ok, ask_outcome, demand_ok, limited_ok]
      exact ⟨_, hsnapshot, (), hnew, _, hparallel, _, hbudget, rfl⟩
  | answered hhuman hrun hquestion hown hopen hoption hclock hanswered hremaining hupdated =>
      subst hanswered hupdated
      simp only [action, answerQuestion, bind_ok, requireHuman_ok, requireRunPreconditions_ok,
        lookup_ok, demand_ok, check_outcome]
      exact ⟨(), hhuman, _, hrun, _, hquestion, (), hown, (), hopen, (), hoption, _, hclock, _,
        hremaining, rfl⟩
  | decided hhuman hrun happroval hown hpending hclock hdecision hreceipt hupdated =>
      subst hdecision hreceipt hupdated
      simp only [action, decideApproval, bind_ok, requireHuman_ok, requireRunPreconditions_ok,
        lookup_ok, demand_ok, check_outcome]
      exact ⟨(), hhuman, _, hrun, _, happroval, (), hown, (), hpending, _, hclock, rfl⟩
  | previewed hrun hremaining hstate hpreview happroval hupdated =>
      subst hupdated
      simp only [action, previewPatch, bind_ok, requireRunPreconditions_ok, ask_outcome, demand_ok,
        check_outcome, requestedApproval_ok]
      exact ⟨_, hrun, _, hremaining, (), rfl, (), hstate, _, hpreview, _, happroval, rfl⟩
  | staged hrun hstate hpreview hpatch hreceipt happroves hstage hupdated =>
      subst hupdated
      simp only [action, stageDesignPatch, bind_ok, requireRunPreconditions_ok, ask_outcome,
        demand_ok, requireApprovedReceipt_ok]
      exact ⟨_, hrun, (), hstate, (), ⟨_, hpreview, hpatch⟩, _, ⟨hreceipt, happroves⟩, _, hstage,
        rfl⟩
  | verified hrun hstate hstaged hreport hpassed hsubject happroval hupdated =>
      subst hsubject hupdated
      simp only [action, runVerification, bind_ok, requireRunPreconditions_ok, ask_outcome,
        demand_ok]
      refine ⟨_, hrun, (), hstate, (), hstaged, _, hreport, ?_⟩
      rw [if_pos hpassed]
      simp only [bind_ok, requestedApproval_ok]
      exact ⟨_, happroval, rfl⟩
  | failed hrun hstate hstaged hreport hfailed hupdated =>
      subst hupdated
      simp only [action, runVerification, bind_ok, requireRunPreconditions_ok, ask_outcome,
        demand_ok]
      refine ⟨_, hrun, (), hstate, (), hstaged, _, hreport, ?_⟩
      rw [if_neg hfailed]
      rfl
  | committed hrun hstate hstaged hreport hpassed hrevisions hreceipt happroves hcommit hupdated =>
      subst hupdated
      simp only [action, commitTransaction, bind_ok, requireRunPreconditions_ok, demand_ok, lookup_ok,
        requireApprovedReceipt_ok]
      exact ⟨_, hrun, (), hstate, (), hstaged, _,
        Option.filter_eq_some_iff.mpr ⟨hreport, hpassed⟩, (), hrevisions, _,
        ⟨hreceipt, happroves⟩, _, hcommit, rfl⟩
  | rolledBack hrun hstaged hstate hrollback hupdated =>
      subst hupdated
      simp only [action, rollbackTransaction, bind_ok, requireRunPreconditions_ok, ask_outcome,
        demand_ok]
      exact ⟨_, hrun, (), hstaged, (), hstate, _, hrollback, rfl⟩
  | exported hartifact =>
      simp only [action, exportProject, bind_ok, ask_outcome]
      exact ⟨_, hartifact, rfl⟩

end

section

omit [Hashing]

/-! ### The records after an action -/

/-- The records are held under their own identifiers, and a run names records that are held. -/
structure Sound (s : GatewayState) : Prop where
  runs : Dict.Owned AgentRun.runId s.runs
  questions : Dict.Owned QuestionRecord.questionId s.questions
  approvals : Dict.Owned ApprovalRequestRecord.approvalId s.approvals
  receipts : Dict.Owned ApprovalReceipt.receiptId s.receipts
  previews : Dict.Owned PatchPreview.previewDigest s.previews
  reports : Dict.Owned VerificationReport.reportDigest s.reports
  questionIds : ∀ runId run, s.runs runId = some run →
    ∀ questionId ∈ run.questionIds, s.questions questionId ≠ none
  approvalIds : ∀ runId run, s.runs runId = some run →
    ∀ approvalId ∈ run.approvalIds, s.approvals approvalId ≠ none

/-- A decision of the caller. -/
structure Decides (invocation : Invocation) (request : DecideApprovalRequest)
    (receipt : ApprovalReceipt) : Prop where
  human : invocation.principal.actorKind = .user
  decidedBy : receipt.decidedBy = invocation.principal.actorId
  decision : receipt.decision = if request.approve then .approved else .rejected
  run : receipt.runId = request.runId
  approval : receipt.approvalId = request.approvalId

/-- What a patch was staged under. -/
structure Stages (s : GatewayState) (turn : Turn) (request : StageDesignPatchRequest)
    (run : AgentRun) (preview : PatchPreview) (receipt : ApprovalReceipt) (stage : StageRecord) :
    Prop where
  pinned : Pinned s request.runId request.projectId request.expectedProjectRevision run
  previewed : s.previews request.previewDigest = some preview
  patch : preview.patchDigest = request.patch.digest
  held : s.receipts request.approvalReceiptId = some receipt
  approves : Approves receipt run .stage request.previewDigest
  answer : turn.adapter.stagePatch request.projectId request.expectedProjectRevision request.patch
    request.previewDigest = .ok stage

/-- What an action may do to the records. -/
structure Change (invocation : Invocation) (turn : Turn) (request : Request)
    (s s' : GatewayState) : Prop where
  sound : Sound s'
  idempotency : s'.idempotency = s.idempotency
  evidence : s'.evidence = s.evidence
  receipts : ∀ receiptId receipt, s'.receipts receiptId = some receipt →
    s.receipts receiptId = some receipt ∨
      ∃ r, request = .decideApproval r ∧ Decides invocation r receipt
  staged : ∀ runId run staged, s'.runs runId = some run → run.stagedRevision = some staged →
    (∃ run, s.runs runId = some run ∧ run.stagedRevision = some staged) ∨
      ∃ r run preview receipt stage, request = .stageDesignPatch r ∧ r.runId = runId ∧
        Stages s turn r run preview receipt stage ∧ stage.stagedRevision = staged

/-- A new version of a run keeps what does not belong to the step. -/
structure Revises (s' : GatewayState) (run updated : AgentRun) : Prop where
  runId : updated.runId = run.runId
  questionIds : updated.questionIds = run.questionIds
  approvalIds : ∀ approvalId ∈ updated.approvalIds,
    approvalId ∈ run.approvalIds ∨ s'.approvals approvalId ≠ none

/-- The records stay sound when a run is revised and the other records are held under their own
identifiers and not dropped. -/
theorem Sound.revise {s s' : GatewayState} (h : Sound s) {runId : String} {run updated : AgentRun}
    (hrun : s.runs runId = some run) (hruns : s'.runs = s.runs.set run.runId updated)
    (hrevises : Revises s' run updated)
    (hquestions : Dict.Owned QuestionRecord.questionId s'.questions ∧
      Dict.Within s.questions s'.questions)
    (happrovals : Dict.Owned ApprovalRequestRecord.approvalId s'.approvals ∧
      Dict.Within s.approvals s'.approvals)
    (hreceipts : Dict.Owned ApprovalReceipt.receiptId s'.receipts)
    (hpreviews : Dict.Owned PatchPreview.previewDigest s'.previews)
    (hreports : Dict.Owned VerificationReport.reportDigest s'.reports) : Sound s' := by
  have hown : run.runId = runId := h.runs runId run hrun
  refine ⟨?_, hquestions.1, happrovals.1, hreceipts, hpreviews, hreports, ?_, ?_⟩
  · rw [hruns, ← hrevises.runId]
    exact h.runs.set updated
  · intro runId' run' hrun' questionId hmem
    rw [hruns] at hrun'
    refine hquestions.2 questionId ?_
    obtain ⟨-, rfl⟩ | ⟨-, hold⟩ := Dict.set_eq_some hrun'
    · rw [hrevises.questionIds] at hmem
      exact h.questionIds runId run hrun questionId hmem
    · exact h.questionIds runId' run' hold questionId hmem
  · intro runId' run' hrun' approvalId hmem
    rw [hruns] at hrun'
    obtain ⟨-, rfl⟩ | ⟨-, hold⟩ := Dict.set_eq_some hrun'
    · obtain hmem | hheld := hrevises.approvalIds approvalId hmem
      · exact happrovals.2 approvalId (h.approvalIds runId run hrun approvalId hmem)
      · exact hheld
    · exact happrovals.2 approvalId (h.approvalIds runId' run' hold approvalId hmem)

end

theorem Change.revised {s s' : GatewayState} (hs : Sound s) {request : Request} {runId : String}
    {run updated : AgentRun} (hrun : s.runs runId = some run) (hsound : Sound s')
    (hruns : s'.runs = s.runs.set run.runId updated) (hidempotency : s'.idempotency = s.idempotency)
    (hevidence : s'.evidence = s.evidence)
    (hreceipts : ∀ receiptId receipt, s'.receipts receiptId = some receipt →
      s.receipts receiptId = some receipt ∨
        ∃ r, request = .decideApproval r ∧ Decides invocation r receipt)
    (hstaged : ∀ staged, updated.stagedRevision = some staged →
      run.stagedRevision = some staged ∨ ∃ r run preview receipt stage,
        request = .stageDesignPatch r ∧ r.runId = runId ∧
          Stages s turn r run preview receipt stage ∧ stage.stagedRevision = staged) :
    Change invocation turn request s s' := by
  refine ⟨hsound, hidempotency, hevidence, hreceipts, ?_⟩
  intro runId' run' staged hrun' hrevision
  have hown : run.runId = runId := hs.runs runId run hrun
  rw [hruns, hown] at hrun'
  obtain ⟨rfl, rfl⟩ | ⟨-, hold⟩ := Dict.set_eq_some hrun'
  · obtain hsame | hnew := hstaged staged hrevision
    · exact Or.inl ⟨run, hrun, hsame⟩
    · exact Or.inr hnew
  · exact Or.inl ⟨run', hold, hrevision⟩

/-- An action that leaves the records alone. -/
theorem Change.refl (h : Sound s) (request : Request) : Change invocation turn request s s :=
  ⟨h, rfl, rfl, fun _ _ hreceipt => Or.inl hreceipt,
    fun _ run _ hrun hstaged => Or.inl ⟨run, hrun, hstaged⟩⟩

theorem Change.create (hs : Sound s) {questions : List QuestionRecord} {runId : String}
    (hrunId : run.runId = runId)
    (hquestionIds : run.questionIds = questions.map QuestionRecord.questionId)
    (happrovalIds : run.approvalIds = []) (hstaged : run.stagedRevision = none)
    (request : Request) : Change invocation turn request s { s with
      questions := s.questions.update (questions.map fun q => (q.questionId, q))
      runs := s.runs.set runId run } := by
  subst hrunId
  have hkeys : (questions.map fun q => (q.questionId, q)).map Prod.fst =
      questions.map QuestionRecord.questionId := by
    rw [List.map_map]
    rfl
  refine ⟨⟨hs.runs.set run, hs.questions.update questions, hs.approvals, hs.receipts, hs.previews,
    hs.reports, ?_, ?_⟩, rfl, rfl, fun _ _ hreceipt => Or.inl hreceipt, ?_⟩
  · intro runId run' hrun' questionId hmem
    refine Dict.update_ne_none ?_
    rw [hkeys, ← hquestionIds]
    obtain ⟨-, rfl⟩ | ⟨-, hold⟩ := Dict.set_eq_some hrun'
    · exact Or.inr hmem
    · exact Or.inl (hs.questionIds runId run' hold questionId hmem)
  · intro runId run' hrun' approvalId hmem
    obtain ⟨-, rfl⟩ | ⟨-, hold⟩ := Dict.set_eq_some hrun'
    · rw [happrovalIds] at hmem
      cases hmem
    · exact hs.approvalIds runId run' hold approvalId hmem
  · intro runId run' staged hrun' hrevision
    obtain ⟨-, rfl⟩ | ⟨-, hold⟩ := Dict.set_eq_some hrun'
    · rw [hstaged] at hrevision
      cases hrevision
    · exact Or.inl ⟨run', hold, hrevision⟩

omit [Hashing] in
/-- The identifiers of a run's approvals after one more was asked for. -/
theorem mem_snoc_approvals {approvals : Dict String ApprovalRequestRecord}
    {approval : ApprovalRequestRecord} {approvalIds : List String} {approvalId : String}
    (h : approvalId ∈ approvalIds ++ [approval.approvalId]) :
    approvalId ∈ approvalIds ∨ approvals.set approval.approvalId approval approvalId ≠ none := by
  rw [List.mem_append, List.mem_singleton] at h
  exact h.imp_right fun heq => Dict.set_ne_none (Or.inr heq)

theorem Change.moved (hs : Sound s) {request : Request} {runId : String} {run updated : AgentRun}
    (hheld : s.runs runId = some run) (hrunId : updated.runId = run.runId)
    (hquestionIds : updated.questionIds = run.questionIds)
    (happrovalIds : updated.approvalIds = run.approvalIds)
    (hstaged : updated.stagedRevision = run.stagedRevision) :
    Change invocation turn request s { s with runs := s.runs.set run.runId updated } := by
  refine Change.revised hs hheld (hs.revise hheld rfl ⟨hrunId, hquestionIds, ?_⟩
    ⟨hs.questions, Dict.Within.refl _⟩ ⟨hs.approvals, Dict.Within.refl _⟩ hs.receipts hs.previews
    hs.reports) rfl rfl rfl (fun _ _ hreceipt => Or.inl hreceipt) ?_
  · intro approvalId hmem
    exact Or.inl (happrovalIds ▸ hmem)
  · intro staged hrevision
    exact Or.inl (hstaged ▸ hrevision)

theorem action_change {limits : Limits} (hs : Sound s) {request : Request} {applied : Applied}
    (h : (action limits s invocation turn request).outcome = .ok applied) :
    Change invocation turn request s applied.gateway := by
  obtain ⟨effects, hdone⟩ := action_done h
  cases hdone with
  | inspected _ => exact Change.refl hs _
  | created _ _ _ _ _ hrun =>
      subst hrun
      refine Change.create hs ?_ ?_ ?_ ?_ _
      all_goals rfl
  | @answered _ _ _ question answered _ _ _ hrun _ _ _ _ _ hanswered _ hupdated =>
      have hid : answered.questionId = question.questionId := by rw [hanswered]
      have howned := hs.questions.set answered
      rw [hid] at howned
      subst hupdated
      dsimp only
      exact Change.revised hs hrun.held (hs.revise hrun.held rfl
        ⟨rfl, rfl, fun _ hmem => Or.inl hmem⟩ ⟨howned, Dict.within_set _ _ _⟩
        ⟨hs.approvals, Dict.Within.refl _⟩ hs.receipts hs.previews hs.reports) rfl rfl rfl
        (fun _ _ hreceipt => Or.inl hreceipt) (fun _ hsame => Or.inl hsame)
  | @decided r run _ approval _ _ _ hhuman hrun happroval _ _ _ hdecision hreceipt hupdated =>
      subst hdecision hreceipt hupdated
      have howned := hs.approvals.set { approval with
        decision := if r.approve then .approved else .rejected }
      dsimp only
      refine Change.revised hs hrun.held (hs.revise hrun.held rfl
        ⟨rfl, rfl, fun _ hmem => Or.inl hmem⟩ ⟨hs.questions, Dict.Within.refl _⟩
        ⟨howned, Dict.within_set _ _ _⟩ (hs.receipts.set _) hs.previews hs.reports) rfl
        rfl rfl ?_ (fun _ hsame => Or.inl hsame)
      intro receiptId receipt hreceipt
      obtain ⟨-, rfl⟩ | ⟨-, hold⟩ := Dict.set_eq_some hreceipt
      · exact Or.inr ⟨r, rfl, hhuman, rfl, rfl, hs.runs _ _ hrun.held, hs.approvals _ _ happroval⟩
      · exact Or.inl hold
  | previewed hrun _ _ _ _ hupdated =>
      subst hupdated
      dsimp only
      exact Change.revised hs hrun.held (hs.revise hrun.held rfl
        ⟨rfl, rfl, fun _ hmem => mem_snoc_approvals hmem⟩ ⟨hs.questions, Dict.Within.refl _⟩
        ⟨hs.approvals.set _, Dict.within_set _ _ _⟩ hs.receipts (hs.previews.set _) hs.reports) rfl
        rfl rfl (fun _ _ hreceipt => Or.inl hreceipt) (fun _ hsame => Or.inl hsame)
  | @staged r run _ preview receipt stage hrun _ hpreview hpatch hreceipt happroves hstage hupdated =>
      subst hupdated
      refine Change.revised hs hrun.held (hs.revise hrun.held rfl
        ⟨rfl, rfl, fun _ hmem => Or.inl hmem⟩ ⟨hs.questions, Dict.Within.refl _⟩
        ⟨hs.approvals, Dict.Within.refl _⟩ hs.receipts hs.previews hs.reports) rfl rfl rfl
        (fun _ _ hreceipt => Or.inl hreceipt) ?_
      intro staged hstaged
      exact Or.inr ⟨r, run, preview, receipt, stage, rfl, rfl,
        ⟨hrun.toPinned, hpreview, hpatch, hreceipt, happroves, hstage⟩, Option.some.inj hstaged⟩
  | verified hrun _ _ _ _ _ _ hupdated =>
      subst hupdated
      dsimp only
      exact Change.revised hs hrun.held (hs.revise hrun.held rfl
        ⟨rfl, rfl, fun _ hmem => mem_snoc_approvals hmem⟩ ⟨hs.questions, Dict.Within.refl _⟩
        ⟨hs.approvals.set _, Dict.within_set _ _ _⟩ hs.receipts hs.previews (hs.reports.set _)) rfl
        rfl rfl (fun _ _ hreceipt => Or.inl hreceipt) (fun _ hsame => Or.inl hsame)
  | failed hrun _ _ _ _ hupdated =>
      subst hupdated
      dsimp only
      exact Change.revised hs hrun.held (hs.revise hrun.held rfl
        ⟨rfl, rfl, fun _ hmem => Or.inl hmem⟩ ⟨hs.questions, Dict.Within.refl _⟩
        ⟨hs.approvals, Dict.Within.refl _⟩ hs.receipts hs.previews (hs.reports.set _)) rfl rfl rfl
        (fun _ _ hreceipt => Or.inl hreceipt) (fun _ hsame => Or.inl hsame)
  | committed hrun _ _ _ _ _ _ _ _ hupdated =>
      subst hupdated
      exact Change.moved hs hrun.held rfl rfl rfl rfl
  | rolledBack hrun _ _ _ hupdated =>
      subst hupdated
      exact Change.moved hs hrun.held rfl rfl rfl rfl
  | exported _ => exact Change.refl hs _

/-- Whatever it did, it kept the results of earlier calls. -/
theorem Done.kept {limits : Limits} {request : Request} {applied : Applied} {effects : List Asked}
    (h : Done limits s invocation turn request applied effects) :
    applied.gateway.idempotency = s.idempotency ∧ applied.gateway.evidence = s.evidence := by
  cases h <;> exact ⟨rfl, rfl⟩

/-! ### What an action asks -/

section

omit [Hashing]

/-- What a commit has checked before the adapter is asked. -/
structure Commits (s : GatewayState) (request : CommitTransactionRequest) (run : AgentRun)
    (report : VerificationReport) (receipt : ApprovalReceipt) : Prop where
  pinned : Pinned s request.runId request.projectId request.expectedProjectRevision run
  staged : run.stagedRevision = some request.expectedStagedRevision
  stored : s.reports request.verificationReportDigest = some report
  passed : report.passed = true
  revisions : report.baseRevision = request.expectedProjectRevision ∧
    report.stagedRevision = request.expectedStagedRevision
  held : s.receipts request.approvalReceiptId = some receipt
  approves : Approves receipt run .release (releaseSubject run.runId
    request.expectedProjectRevision request.expectedStagedRevision
    request.verificationReportDigest)

theorem askCommit_asked {request : CommitTransactionRequest}
    {report : VerificationReport} {receipt : ApprovalReceipt}
    (h : q ∈ (askCommit turn request run report receipt).asked) :
    ∃ evidence answer, q = .commit request.projectId request.expectedProjectRevision
      request.expectedStagedRevision evidence answer ∧
      (askCommit turn request run report receipt).outcome = answer := by
  unfold askCommit at h ⊢
  split at h
  · rw [ask_asked, List.mem_singleton] at h
    exact ⟨_, _, h, rfl⟩
  · rw [ask_asked, List.mem_singleton] at h
    exact ⟨_, _, h, rfl⟩

end

/-- The adapter is asked to commit after every check, and when it has committed the action
returns. -/
theorem commitTransaction_asked (limits : Limits) (invocation : Invocation)
    {request : CommitTransactionRequest}
    (h : q ∈ (commitTransaction s turn request).asked)
    (hq : q.changes = true ∨ q.isCommit = true) :
    ∃ run report receipt evidence answer, Commits s request run report receipt ∧
      q = .commit request.projectId request.expectedProjectRevision
        request.expectedStagedRevision evidence answer ∧
      ∀ newRevision, answer = .ok newRevision → ∃ applied,
        (action limits s invocation turn (.commitTransaction request)).outcome = .ok applied := by
  have hasked := h
  unfold commitTransaction at hasked
  simp only [mem_bind_asked, requireRunPreconditions_ok, demand_ok, demand_asked, lookup_ok,
    lookup_asked, requireApprovedReceipt_ok, requireApprovedReceipt_asked, pure_asked,
    List.not_mem_nil, false_or, and_false, exists_false, or_false, Outcome.exists_unit] at hasked
  obtain hpre | ⟨run, hrun, hstate, hstaged, report, hreport, hrevisions, receipt,
    ⟨hreceipt, happroves⟩, hcommit⟩ := hasked
  · have hnothing := preconditions_ask_nothing hpre
    rw [hnothing.1, hnothing.2] at hq
    simp at hq
  · obtain ⟨hstored, hpassed⟩ := Option.filter_eq_some_iff.mp hreport
    obtain ⟨evidence, answer, rfl, hanswer⟩ := askCommit_asked hcommit
    refine ⟨run, report, receipt, evidence, answer, ⟨hrun.toPinned, hstaged, hstored, hpassed,
      hrevisions, hreceipt, happroves⟩, rfl, ?_⟩
    intro newRevision hok
    exact ⟨_, (Done.committed hrun hstate hstaged hstored hpassed hrevisions hreceipt happroves
      (hanswer.trans hok) rfl).returns⟩

theorem stageDesignPatch_asked (limits : Limits) (invocation : Invocation)
    {request : StageDesignPatchRequest}
    (h : q ∈ (stageDesignPatch s turn request).asked)
    (hq : q.changes = true ∨ q.isCommit = true) :
    q.isCommit = false ∧ ∃ applied,
      (action limits s invocation turn (.stageDesignPatch request)).outcome = .ok applied := by
  unfold stageDesignPatch at h
  simp only [mem_bind_asked, requireRunPreconditions_ok, demand_ok, demand_asked, ask_asked,
    List.mem_singleton, requireApprovedReceipt_ok, requireApprovedReceipt_asked, pure_asked,
    List.not_mem_nil, false_or, and_false, exists_false, or_false, Outcome.exists_unit] at h
  obtain hpre | ⟨run, hrun, hstate, ⟨preview, hpreview, hpatch⟩, receipt, ⟨hreceipt, happroves⟩,
    rfl⟩ := h
  · have hnothing := preconditions_ask_nothing hpre
    rw [hnothing.1, hnothing.2] at hq
    simp at hq
  · refine ⟨rfl, ?_⟩
    cases hstage : turn.adapter.stagePatch request.projectId request.expectedProjectRevision
      request.patch request.previewDigest with
    | ok stage =>
        exact ⟨_, (Done.staged hrun hstate hpreview hpatch hreceipt happroves hstage rfl).returns⟩
    | error failure =>
        rw [hstage] at hq
        simp [Asked.changes, Asked.isCommit] at hq

theorem rollbackTransaction_asked (limits : Limits) (invocation : Invocation)
    {request : RollbackTransactionRequest}
    (h : q ∈ (rollbackTransaction s turn request).asked)
    (hq : q.changes = true ∨ q.isCommit = true) :
    q.isCommit = false ∧ ∃ applied,
      (action limits s invocation turn (.rollbackTransaction request)).outcome = .ok applied := by
  unfold rollbackTransaction at h
  simp only [mem_bind_asked, requireRunPreconditions_ok, demand_ok, demand_asked, ask_asked,
    List.mem_singleton, pure_asked, List.not_mem_nil, false_or, and_false, exists_false, or_false,
    Outcome.exists_unit] at h
  obtain hpre | ⟨run, hrun, hstaged, hstate, rfl⟩ := h
  · have hnothing := preconditions_ask_nothing hpre
    rw [hnothing.1, hnothing.2] at hq
    simp at hq
  · refine ⟨rfl, ?_⟩
    cases hrollback : turn.adapter.rollback request.projectId request.expectedProjectRevision
      request.expectedStagedRevision with
    | ok current => exact ⟨_, (Done.rolledBack hrun hstaged hstate hrollback rfl).returns⟩
    | error failure =>
        rw [hrollback] at hq
        simp [Asked.changes, Asked.isCommit] at hq

theorem exportProject_asked (limits : Limits) (invocation : Invocation)
    {request : ExportProjectRequest}
    (h : q ∈ (exportProject s turn request).asked) (hq : q.changes = true ∨ q.isCommit = true) :
    q.isCommit = false ∧ ∃ applied,
      (action limits s invocation turn (.exportProject request)).outcome = .ok applied := by
  unfold exportProject at h
  simp only [mem_bind_asked, ask_asked, List.mem_singleton, pure_asked, List.not_mem_nil, and_false,
    exists_false, or_false] at h
  subst h
  refine ⟨rfl, ?_⟩
  cases hartifact : turn.adapter.exportProject request.projectId request.expectedProjectRevision
    request.format with
  | ok artifact => exact ⟨_, (Done.exported hartifact).returns⟩
  | error failure =>
      rw [hartifact] at hq
      simp [Asked.changes, Asked.isCommit] at hq

theorem other_reads {limits : Limits} {request : Request} (hother : request.acts = false)
    (h : q ∈ (action limits s invocation turn request).asked) :
    q.reads = true := by
  cases request with
  | inspectProject request =>
      simp only [action, inspectProject, mem_bind_asked, ask_asked, List.mem_singleton, pure_asked,
        List.not_mem_nil, and_false, exists_false, or_false] at h
      rw [h]
      exact rfl
  | createAgentRun request =>
      simp only [action, createAgentRun, mem_bind_asked, ask_asked, List.mem_singleton,
        demand_asked, limited_asked, pure_asked, List.not_mem_nil, and_false, exists_false,
        or_false] at h
      rw [h]
      exact rfl
  | answerQuestion request =>
      simp only [action, answerQuestion, mem_bind_asked, requireHuman_asked, lookup_asked,
        demand_asked, check_asked, pure_asked, List.not_mem_nil, false_or, and_false, exists_false,
        or_false] at h
      obtain ⟨-, -, hpre⟩ := h
      exact preconditions_read hpre
  | decideApproval request =>
      simp only [action, decideApproval, mem_bind_asked, requireHuman_asked, lookup_asked,
        demand_asked, check_asked, pure_asked, List.not_mem_nil, false_or, and_false, exists_false,
        or_false] at h
      obtain ⟨-, -, hpre⟩ := h
      exact preconditions_read hpre
  | previewPatch request =>
      simp only [action, previewPatch, mem_bind_asked, ask_asked, List.mem_singleton,
        demand_asked, check_asked, requestedApproval_asked, pure_asked, List.not_mem_nil, false_or,
        and_false, exists_false, or_false] at h
      obtain hpre | ⟨-, -, -, -, -, -, -, -, rfl⟩ := h
      · exact preconditions_read hpre
      · exact rfl
  | runVerification request =>
      simp only [action, runVerification, mem_bind_asked, ask_asked, List.mem_singleton,
        demand_asked, List.not_mem_nil, false_or] at h
      obtain hpre | ⟨_, -, _, -, _, -, rfl | ⟨report, -, h⟩⟩ := h
      · exact preconditions_read hpre
      · exact rfl
      · split at h
        · simp only [mem_bind_asked, requestedApproval_asked, pure_asked, List.not_mem_nil,
            and_false, exists_false, or_false] at h
        · simp only [pure_asked, List.not_mem_nil] at h
  | _ => cases hother

theorem other_asked {limits : Limits} {request : Request} (hother : request.acts = false)
    (h : q ∈ (action limits s invocation turn request).asked) :
    q.changes = false ∧ q.isCommit = false :=
  Asked.changes_nothing (other_reads hother h)

theorem action_completes {limits : Limits} {request : Request}
    (h : q ∈ (action limits s invocation turn request).asked) (hq : q.changes = true) :
    ∃ applied, (action limits s invocation turn request).outcome = .ok applied := by
  cases request with
  | stageDesignPatch request => exact (stageDesignPatch_asked limits invocation h (Or.inl hq)).2
  | commitTransaction request =>
      obtain ⟨_, _, _, _, answer, -, rfl, hreturns⟩ :=
        commitTransaction_asked limits invocation h (Or.inl hq)
      cases answer with
      | ok newRevision => exact hreturns newRevision rfl
      | error failure => cases hq
  | rollbackTransaction request =>
      exact (rollbackTransaction_asked limits invocation h (Or.inl hq)).2
  | exportProject request => exact (exportProject_asked limits invocation h (Or.inl hq)).2
  | _ =>
      have hnothing := (other_asked rfl h).1
      exact absurd (hq.symm.trans hnothing) (by decide)

theorem action_commits {limits : Limits} {request : Request} {projectId base staged : String}
    {evidence : Option (AgentRun × VerificationReport × ApprovalReceipt)}
    {answer : Except Failure String}
    (h : .commit projectId base staged evidence answer ∈
      (action limits s invocation turn request).asked) :
    ∃ r run report receipt, request = .commitTransaction r ∧ Commits s r run report receipt ∧
      projectId = r.projectId ∧ base = r.expectedProjectRevision ∧
      staged = r.expectedStagedRevision := by
  cases request with
  | stageDesignPatch request => cases (stageDesignPatch_asked limits invocation h (Or.inr rfl)).1
  | commitTransaction request =>
      obtain ⟨run, report, receipt, _, _, hcommits, heq, -⟩ :=
        commitTransaction_asked limits invocation h (Or.inr rfl)
      injection heq with hproject hbase hstaged
      exact ⟨request, run, report, receipt, rfl, hcommits, hproject, hbase, hstaged⟩
  | rollbackTransaction request =>
      cases (rollbackTransaction_asked limits invocation h (Or.inr rfl)).1
  | exportProject request => cases (exportProject_asked limits invocation h (Or.inr rfl)).1
  | _ =>
      cases (other_asked rfl h).2

/-- Besides looking at the project, this was asked. -/
def Looks (asked effects : List Asked) : Prop :=
  ∃ reads, asked = reads ++ effects ∧ ∀ q ∈ reads, q.reads = true

omit [Hashing] in
theorem Looks.bind {α β : Type} {x : Asking Asked Failure α} {f : α → Asking Asked Failure β} {a : α}
    {effects : List Asked} (hx : x.outcome = .ok a) (hreads : ∀ q ∈ x.asked, q.reads = true)
    (h : Looks (f a).asked effects) : Looks (x >>= f).asked effects := by
  obtain ⟨reads, heq, hmore⟩ := h
  refine ⟨x.asked ++ reads, by rw [bind_asked hx, heq, List.append_assoc], fun q hq => ?_⟩
  exact (List.mem_append.mp hq).elim (hreads q) (hmore q)

omit [Hashing] in
theorem Looks.demand {c : Prop} [Decidable c]
    {β : Type} {f : Unit → Asking Asked Failure β} {effects : List Asked} (hc : c)
    (h : Looks (f ()).asked effects) :
    Looks (Gateway.demand c errorClass message >>= f).asked effects :=
  .bind (demand_ok.mpr hc) (by simp) h

omit [Hashing] in
theorem Looks.last {α β : Type} {x : Asking Asked Failure α} {f : α → Asking Asked Failure β} {a : α}
    (hx : x.outcome = .ok a) (h : (f a).asked = []) : Looks (x >>= f).asked x.asked :=
  ⟨[], by rw [bind_asked hx, h, List.append_nil, List.nil_append], by simp⟩

theorem Done.asked {limits : Limits} {request : Request} {applied : Applied} {effects : List Asked}
    (h : Done limits s invocation turn request applied effects) :
    Looks (action limits s invocation turn request).asked effects := by
  cases h with
  | staged hrun hstate hpreview hpatch hreceipt happroves hstage =>
      refine .bind (requireRunPreconditions_ok.mpr hrun) (fun _ => preconditions_read) ?_
      refine .demand hstate ?_
      refine .demand ⟨_, hpreview, hpatch⟩ ?_
      refine .bind (requireApprovedReceipt_ok.mpr ⟨hreceipt, happroves⟩) (by simp) ?_
      rw [← hstage]
      exact .last hstage rfl
  | committed hrun hstate hstaged hreport hpassed hrevisions hreceipt happroves hcommit =>
      refine .bind (requireRunPreconditions_ok.mpr hrun) (fun _ => preconditions_read) ?_
      refine .demand hstate ?_
      refine .demand hstaged ?_
      refine .bind (lookup_ok.mpr (Option.filter_eq_some_iff.mpr ⟨hreport, hpassed⟩)) (by simp) ?_
      refine .demand hrevisions ?_
      refine .bind (requireApprovedReceipt_ok.mpr ⟨hreceipt, happroves⟩) (by simp) ?_
      exact .last hcommit rfl
  | rolledBack hrun hstaged hstate hrollback =>
      refine .bind (requireRunPreconditions_ok.mpr hrun) (fun _ => preconditions_read) ?_
      refine .demand hstaged ?_
      refine .demand hstate ?_
      rw [← hrollback]
      exact .last hrollback rfl
  | exported hartifact =>
      rw [← hartifact]
      exact .last hartifact rfl
  | _ => exact ⟨_, (List.append_nil _).symm, fun _ => other_reads rfl⟩

end Actions

end Evleda.Gateway
