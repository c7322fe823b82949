/-
What a released run went through.

The workflow is a line of fourteen stages, seven of which wait for a user's
approval.  The law of the workflow is that no checkpoint is skipped: in a run that
ends released, the last time a checkpoint was left forward, the run held an approved,
unexpired approval of that checkpoint's kind, bound to the digest it carried.

`advance` keeps the law, because it asks for that approval.  The other forward move,
`request_checkpoint_approval`, asks for nothing.  It is harmless where the stage it
leaves is not a checkpoint; in the table of stages the layout-constraint checkpoint
alone follows another checkpoint directly.  The law therefore holds of every run in
which that request is not made there, and fails of a run in which it is.

The proof carries, for each stage the run has come past, the last moment it was
left; one event adds at most one such moment.
-/
import Evleda.Lib.Replay
import Evleda.Orchestrator.StateMachine

namespace Evleda.Orchestrator

open Outcome

/-- The operations that may be applied to a run. -/
inductive Operation where
  | transition (target : RunPhase)
  | advance (target : CoordinationStage)
  | restartQuestioning
  | openQuestion (request : QuestionRequest)
  | requestCheckpointApproval (request : ApprovalRequest)
  | requestApproval (request : ApprovalRequest)

/-- One call: the instant, the records held for the run at that instant and a fresh identifier. -/
structure Event where
  instant : Instant
  records : TransitionContext := {}
  fresh : String := "id"
  operation : Operation

section Workflow

variable [Hashing]

/-- The run an operation returns, or what it raises. -/
def step (run : Run) (event : Event) : Except Failure Run :=
  match event.operation with
  | .transition target => transition run target event.instant event.records
  | .advance target => advance run target event.instant event.records
  | .restartQuestioning => restartQuestioning run
  | .openQuestion request => Prod.fst <$> openQuestion run request event.instant event.fresh
  | .requestCheckpointApproval request =>
      Prod.fst <$> requestCheckpointApproval run request event.instant event.fresh
  | .requestApproval request => Prod.fst <$> requestApproval run request event.instant event.fresh

/-- The run after a call; a refused call leaves it as it was. -/
def next (run : Run) (event : Event) : Run :=
  match step run event with
  | .ok run' => run'
  | .error _ => run

/-- The call moves the run from a stage to the stage after it. -/
def LeavesForward (stage : CoordinationStage) (run : Run) (event : Event) : Prop :=
  run.coordinationStage = stage ∧ stageNext stage = some (next run event).coordinationStage

/-- An approved, unexpired approval of the kind, bound to the run's checkpoint digest, is among the
records held for the run. -/
def HoldsApproval (kind : ApprovalKind) (run : Run) (event : Event) : Prop :=
  ∃ approval ∈ event.records.approvals, approval.runId = run.id ∧ approval.kind = kind ∧
    approval.state = .approved ∧ (∀ expiry ∈ approval.expiresAt, event.instant < expiry) ∧
    run.checkpointDigest = some approval.subjectDigest

/-- Every checkpoint was last left forward with its approval held. -/
def CheckpointsHeld (run : Run) (events : List Event) : Prop :=
  ∀ stage kind, checkpointKind stage = some kind →
    ∃ before event, LastMoment next run events (LeavesForward stage) before event ∧
      HoldsApproval kind (replay next run before) event

/-- A request for the layout-constraint approval, made at the schematic checkpoint and accepted
there: it has a subject digest and its receipt can be built. -/
def skipsSchematic (run : Run) (event : Event) : Bool :=
  match run.coordinationStage, event.operation with
  | .awaitingSchematicApproval, .requestCheckpointApproval request =>
      request.kind = .layoutConstraints ∧ request.subjectDigest ≠ "" ∧
        (request.receipt run event.instant event.fresh).isOk
  | _, _ => false

/-! ### What one call does to the stage -/

/-- The place of a stage in the line. -/
def CoordinationStage.index : CoordinationStage → Nat
  | .questioning => 0
  | .awaitingBriefApproval => 1
  | .research => 2
  | .awaitingArchitectureBomApproval => 3
  | .schematicStage => 4
  | .awaitingSchematicApproval => 5
  | .awaitingLayoutConstraintApproval => 6
  | .placementStage => 7
  | .awaitingPlacementApproval => 8
  | .routingStage => 9
  | .awaitingRoutingApproval => 10
  | .releaseCheck => 11
  | .awaitingReleaseApproval => 12
  | .released => 13

variable {kind : ApprovalKind} {at' : Instant}

section

omit [Hashing]

theorem stageNext_index {stage stage' : CoordinationStage} (h : stageNext stage = some stage') :
    stage'.index = stage.index + 1 := by
  cases stage <;> simp only [stageNext, Option.some.injEq, reduceCtorEq] at h <;> subst h <;> rfl

theorem index_injective {stage stage' : CoordinationStage} (h : stage.index = stage'.index) :
    stage = stage' := by
  cases stage <;> cases stage' <;> first | rfl | exact absurd h (by decide)

theorem hasValidApproval_iff {context : TransitionContext} {run : Run}
    {digest : String} :
    context.hasValidApproval run kind digest at' = true ↔
      ∃ approval ∈ context.approvals, approval.runId = run.id ∧ approval.kind = kind ∧
        approval.state = .approved ∧ approval.subjectDigest = digest ∧
        ∀ expiry ∈ approval.expiresAt, at' < expiry := by
  simp only [TransitionContext.hasValidApproval, Approval.isValidFor, List.any_eq_true,
    Bool.and_eq_true, beq_iff_eq, decide_eq_true_eq, Option.all_eq_true, and_assoc, Option.mem_def]

theorem requireCheckpointApproval_holds {run : Run} {event : Event}
    (hkind : checkpointKind run.coordinationStage = some kind)
    (h : requireCheckpointApproval run event.records event.instant = .ok ()) :
    HoldsApproval kind run event := by
  unfold requireCheckpointApproval at h
  rw [hkind] at h
  simp only [bind_ok, require_ok, exists_const] at h
  obtain ⟨hdigest, happroval⟩ := h
  obtain ⟨approval, hmem, hrun, hk, hstate, hsubject, hexpiry⟩ := hasValidApproval_iff.mp happroval
  refine ⟨approval, hmem, hrun, hk, hstate, hexpiry, ?_⟩
  cases hcarried : run.checkpointDigest with
  | none => rw [hcarried] at hdigest; exact absurd hdigest (by decide)
  | some digest => rw [hsubject, hcarried]; rfl

end

theorem advance_ok {run run' : Run} {target : CoordinationStage} {event : Event}
    (h : advance run target event.instant event.records = .ok run') :
    stageNext run.coordinationStage = some run'.coordinationStage ∧
      requireCheckpointApproval run event.records event.instant = .ok () := by
  unfold advance at h
  split at h
  · cases h
  · rename_i expected hnext
    simp only [bind_ok, require_ok, exists_const] at h
    obtain ⟨rfl, -, _, happroval, _, -, h⟩ := h
    cases h
    exact ⟨hnext, happroval⟩

section

omit [Hashing]

theorem checkpointKind_of_target {target : CoordinationStage}
    (h : (checkpointKinds.filter (fun entry => entry.2 = kind)).map Prod.fst = [target]) :
    checkpointKind target = some kind := by
  cases kind <;> simp [checkpointKinds] at h <;> subst h <;> rfl

/-- Two checkpoints follow each other in one place only. -/
theorem consecutive_checkpoints {stage stage' : CoordinationStage} {kind kind' : ApprovalKind}
    (hnext : stageNext stage = some stage') (hkind : checkpointKind stage = some kind)
    (hkind' : checkpointKind stage' = some kind') :
    stage = .awaitingSchematicApproval ∧ kind' = .layoutConstraints := by
  cases stage <;> simp only [stageNext, Option.some.injEq, reduceCtorEq] at hnext <;> subst hnext
  case awaitingSchematicApproval =>
    cases hkind'
    exact ⟨rfl, rfl⟩
  all_goals first | (cases hkind; done) | cases hkind'

theorem requestCheckpointApproval_ok {run : Run} {request : ApprovalRequest}
    {fresh : String} {result : Run × Approval}
    (h : requestCheckpointApproval run request at' fresh = .ok result) :
    checkpointKind result.1.coordinationStage = some request.kind ∧
      request.subjectDigest ≠ "" ∧ (request.receipt run at' fresh).isOk ∧
      (result.1.coordinationStage = run.coordinationStage ∨
        stageNext run.coordinationStage = some result.1.coordinationStage) := by
  unfold requestCheckpointApproval at h
  split at h
  · rename_i target htarget
    simp only [bind_ok, require_ok, exists_const, pure_ok] at h
    obtain ⟨hstage, hdigest, approval, hreceipt, rfl⟩ := h
    refine ⟨checkpointKind_of_target htarget, hdigest, ?_, hstage.imp_left Eq.symm⟩
    rw [hreceipt]
    rfl
  · cases h

theorem openQuestion_ok {run : Run} {request : QuestionRequest} {fresh : String}
    {result : Run × Question} (h : openQuestion run request at' fresh = .ok result) :
    result.1.coordinationStage = run.coordinationStage ∨
      result.1.coordinationStage = .questioning := by
  unfold openQuestion at h
  simp only [bind_ok, require_ok, exists_const, pure_ok] at h
  obtain ⟨-, -, -, question, -, rfl⟩ := h
  by_cases hblock : request.blocking = true ∧
      (run.phase ≠ .clarifying ∨ run.coordinationStage ≠ .questioning)
  · right
    simp only [if_pos hblock, enterStage]
  · left
    simp only [if_neg hblock]

theorem requestApproval_ok {run : Run} {request : ApprovalRequest} {fresh : String}
    {result : Run × Approval} (h : requestApproval run request at' fresh = .ok result) :
    result.1.coordinationStage = run.coordinationStage := by
  unfold requestApproval at h
  simp only [bind_ok, require_ok, exists_const, pure_ok] at h
  obtain ⟨-, next, hnext, approval, -, rfl⟩ := h
  unfold awaitApproval at hnext
  split at hnext
  · cases hnext
    rfl
  · simp only [bind_ok, require_ok, exists_const, pure_ok] at hnext
    obtain ⟨-, rfl⟩ := hnext
    split <;> rfl

end

theorem transition_ok {run run' : Run} {target : RunPhase}
    {context : TransitionContext} (h : transition run target at' context = .ok run') :
    run'.coordinationStage = run.coordinationStage := by
  unfold transition at h
  simp only [bind_ok, require_ok, exists_const, pure_ok] at h
  obtain ⟨-, -, -, _, -, _, -, _, -, _, -, rfl⟩ := h
  rfl

/-- **What one call does to the stage**: nothing, a return to questioning, or one stage forward; and
it leaves a checkpoint forward only with its approval, but for the one request that skips. -/
theorem step_stage {run run' : Run} {event : Event} (h : step run event = .ok run') :
    run'.coordinationStage = run.coordinationStage ∨ run'.coordinationStage = .questioning ∨
      (stageNext run.coordinationStage = some run'.coordinationStage ∧
        ∀ kind, checkpointKind run.coordinationStage = some kind →
          HoldsApproval kind run event ∨ skipsSchematic run event = true) := by
  unfold step at h
  split at h
  case h_1 => exact Or.inl (transition_ok h)
  case h_2 =>
    obtain ⟨hnext, happroval⟩ := advance_ok h
    exact Or.inr (Or.inr ⟨hnext, fun kind hkind =>
      Or.inl (requireCheckpointApproval_holds hkind happroval)⟩)
  case h_3 =>
    unfold restartQuestioning at h
    simp only [bind_ok, require_ok, exists_const, pure_ok] at h
    obtain ⟨-, rfl⟩ := h
    exact Or.inr (Or.inl rfl)
  case h_4 =>
    obtain ⟨result, hresult, rfl⟩ := map_ok.mp h
    rcases openQuestion_ok hresult with hstage | hstage
    · exact Or.inl hstage
    · exact Or.inr (Or.inl hstage)
  case h_5 request hrequest =>
    obtain ⟨result, hresult, rfl⟩ := map_ok.mp h
    obtain ⟨hkind', hdigest, hreceipt, hstage | hnext⟩ := requestCheckpointApproval_ok hresult
    · exact Or.inl hstage
    · refine Or.inr (Or.inr ⟨hnext, fun kind hkind => Or.inr ?_⟩)
      obtain ⟨hstage, hlayout⟩ := consecutive_checkpoints hnext hkind hkind'
      simp [skipsSchematic, hstage, hrequest, hlayout, hdigest, hreceipt]
  case h_6 =>
    obtain ⟨result, hresult, rfl⟩ := map_ok.mp h
    exact Or.inl (requestApproval_ok hresult)

theorem next_stage (run : Run) (event : Event) :
    (next run event).coordinationStage = run.coordinationStage ∨
      (next run event).coordinationStage = .questioning ∨
      (stageNext run.coordinationStage = some (next run event).coordinationStage ∧
        ∀ kind, checkpointKind run.coordinationStage = some kind →
          HoldsApproval kind run event ∨ skipsSchematic run event = true) := by
  unfold next
  cases h : step run event with
  | error e => exact Or.inl rfl
  | ok run' => exact step_stage h

/-! ### What a whole run keeps -/

/-- Every checkpoint the run has come past was last left forward with its approval held. -/
def PassedHeld (start : Run) (events : List Event) (run : Run) : Prop :=
  ∀ stage kind, checkpointKind stage = some kind → stage.index < run.coordinationStage.index →
    ∃ before event, LastMoment next start events (LeavesForward stage) before event ∧
      HoldsApproval kind (replay next start before) event

/-- A call that does not leave a checkpoint forward keeps what is known of it. -/
theorem passed_later {start : Run} {events : List Event} {e : Event} {stage : CoordinationStage}
    (hnot : ¬ LeavesForward stage (replay next start events) e)
    (h : ∃ before event, LastMoment next start events (LeavesForward stage) before event ∧
      HoldsApproval kind (replay next start before) event) :
    ∃ before event, LastMoment next start (events ++ [e]) (LeavesForward stage) before event ∧
      HoldsApproval kind (replay next start before) event := by
  obtain ⟨before, event, hlast, hheld⟩ := h
  exact ⟨before, event, hlast.later hnot, hheld⟩

theorem next_passedHeld {start : Run} {events : List Event} {e : Event}
    (h : PassedHeld start events (replay next start events))
    (hskip : skipsSchematic (replay next start events) e = false) :
    PassedHeld start (events ++ [e]) (next (replay next start events) e) := by
  intro stage kind hkind hpassed
  have hmove := next_stage (replay next start events) e
  generalize hrun : replay next start events = run at *
  rcases hmove with hsame | hback | ⟨hforward, hheld⟩
  · -- the stage stays: nothing is left
    rw [hsame] at hpassed
    have hnot : ¬ LeavesForward stage run e := by
      rintro ⟨rfl, -⟩
      exact Nat.lt_irrefl _ hpassed
    rw [← hrun] at hnot
    exact passed_later hnot (h stage kind hkind hpassed)
  · -- back to questioning: no checkpoint is behind
    rw [hback] at hpassed
    exact absurd hpassed (Nat.not_lt_zero _)
  · rw [stageNext_index hforward, Nat.lt_succ_iff_lt_or_eq] at hpassed
    rcases hpassed with hearlier | hhere
    · have hnot : ¬ LeavesForward stage run e := by
        rintro ⟨rfl, -⟩
        exact Nat.lt_irrefl _ hearlier
      rw [← hrun] at hnot
      exact passed_later hnot (h stage kind hkind hearlier)
    · obtain rfl := index_injective hhere
      have hleaves : LeavesForward run.coordinationStage (replay next start events) e := by
        rw [hrun]
        exact ⟨rfl, hforward⟩
      refine ⟨events, e, LastMoment.now hleaves, ?_⟩
      rw [hrun]
      exact (hheld kind hkind).resolve_right (by rw [hskip]; decide)

/-- **No checkpoint is skipped**: a run from questioning to released, in which no request for the
layout-constraint approval is accepted at the schematic checkpoint, last left every checkpoint with
its approval. -/
theorem released_checkpointsHeld (run : Run) (events : List Event)
    (hstart : run.coordinationStage = .questioning)
    (hend : (replay next run events).coordinationStage = .released)
    (hskip : Replay.Throughout next (fun run e => skipsSchematic run e = false) run events) :
    CheckpointsHeld run events := by
  have hpassed : PassedHeld run events (replay next run events) := by
    refine Replay.history_induction (PassedHeld run) ?_ (fun events e => next_passedHeld) events
      hskip
    intro stage kind _ hlt
    rw [hstart] at hlt
    exact absurd hlt (Nat.not_lt_zero _)
  intro stage kind hkind
  refine hpassed stage kind hkind ?_
  rw [hend]
  cases stage <;> first | decide | cases hkind

end Workflow

/-! ### A run that skips the schematic approval -/

/-- A finished task, the whole inventory of the runs below. -/
def sampleTask : Task where
  id := "task_1"
  runId := "run_1"
  title := "Lay out the board"
  instructions := ""
  kind := .verify
  createdSeq := 0
  priority := 50
  wave := 0
  dependencies := []
  requiredCapabilities := []
  requiredAgentClass := none
  excludedAgentIds := []
  riskClass := .medium
  inputRevision := none
  outputSchemaDigest := none
  idempotencyKey := none
  requiredChecks := []
  reviewedTaskIds := []
  reviewedResultBindings := []
  estimatedTokens := 0
  retryPolicy := ⟨3, 5, 2, 300⟩
  state := .succeeded
  resultEvidenceIds := []
  completedByAgentId := none

/-- SHA-256 on the two texts these runs hash: the task's contract, whose first key is `created_seq`,
and the inventory. -/
@[reducible] def sampleHashing : Hashing where
  sha256 text :=
    if text.take 3 = ['{', '"', 'c'] then
      "95a30f02e36b689176a494bf7f72a49c82237f65527fee2459b27e41ee73afac"
    else "51869ead83b9d60052f4e6d1a1d954ba47f87ccd46efe88513e12d0407d9829a"

def sampleRun : Run where
  id := "run_1"
  phase := .draft
  coordinationStage := .questioning
  checkpointDigest := none
  coordinationRevision := 0
  strictUserCoordination := true
  requirePlanApproval := true
  requireIndependentCritic := false
  taskInventoryDigest := some "51869ead83b9d60052f4e6d1a1d954ba47f87ccd46efe88513e12d0407d9829a"
  planDigest := none
  revision := 0

/-- Ask for a checkpoint's approval. -/
def sampleRequest (kind : ApprovalKind) : Event where
  instant := 1
  operation := .requestCheckpointApproval ⟨kind, "subject", "", none, none⟩

/-- Advance while holding the approval of a kind and the finished task. -/
def sampleAdvance (kind : ApprovalKind) (target : CoordinationStage) : Event where
  instant := 2
  records := {
    approvals := [⟨"approval_1", "run_1", kind, "subject", "", 1, none, .approved, some "user",
      some 2, some ""⟩]
    tasks := [sampleTask]
    verificationPassed := true }
  operation := .advance target

def beforeSchematic : List Event :=
  [sampleRequest .brief, sampleAdvance .brief .research,
   sampleRequest .architectureBom, sampleAdvance .architectureBom .schematicStage,
   sampleRequest .schematic]

def afterSchematic : List Event :=
  [sampleRequest .layoutConstraints, sampleAdvance .layoutConstraints .placementStage,
   sampleRequest .placement, sampleAdvance .placement .routingStage,
   sampleRequest .routing, sampleAdvance .routing .releaseCheck,
   sampleRequest .release, sampleAdvance .release .released]

/-- A request for the layout-constraint approval that names no subject. -/
def refusedRequest : Event where
  instant := 1
  operation := .requestCheckpointApproval ⟨.layoutConstraints, "", "", none, none⟩

theorem released_checkpointsHeld_sample :
    letI := sampleHashing
    CheckpointsHeld sampleRun (beforeSchematic ++ refusedRequest ::
      sampleAdvance .schematic .awaitingLayoutConstraintApproval :: afterSchematic) :=
  letI := sampleHashing
  released_checkpointsHeld _ _ (by decide) (by decide +kernel) (by decide +kernel)

/-- The run is released and never held a schematic approval. -/
theorem skipped_schematic_released :
    letI := sampleHashing
    sampleRun.coordinationStage = .questioning ∧
      (replay next sampleRun (beforeSchematic ++ afterSchematic)).coordinationStage = .released ∧
      ¬ CheckpointsHeld sampleRun (beforeSchematic ++ afterSchematic) := by
  refine ⟨by decide, by decide +kernel, ?_⟩
  intro hheld
  obtain ⟨before, event, hlast, approval, hmem, -, hkind, -⟩ :=
    hheld .awaitingSchematicApproval .schematic rfl
  have hnone : ∀ e ∈ beforeSchematic ++ afterSchematic, ∀ a ∈ e.records.approvals,
      a.kind ≠ .schematic := by decide
  exact hnone event hlast.mem approval hmem hkind

end Evleda.Orchestrator
