/-
Terminal phases, and what leaves them.

A run has two fields that say where it stands, its phase and its stage, and two
tables that move them.  `transition` writes the phase alone; entering a stage
writes both, the phase being the one the stage shows.  One call does one of four
things to a run, and that is said once, in `step_moves`.

A run in a terminal phase should be over.  Three operations look at the phase
and refuse.  The other three look at the stage only, and refuse a released run;
a run that was cancelled, failed or completed by `transition` has kept the stage
it was in, and for them it is as open as any other.  So a terminal run is over
exactly when its stage is `released`.
-/
import Evleda.Orchestrator.Checkpoints

namespace Evleda.Orchestrator

open Outcome

section Workflow

variable [Hashing]

/-! ### What one call does to a run -/

/-- The phases in which work is done or has been. -/
def RunPhase.isWorking : RunPhase → Bool
  | .ready | .executing | .verifying | .completed => true
  | _ => false

/-- What an accepted call makes of a run. -/
inductive Moves (run : Run) (event : Event) : Run → Prop
  /-- the phase alone -/
  | transitions (target : RunPhase) (hoperation : event.operation = .transition target)
      (hlive : run.phase.isTerminal = false)
      (hquestions : run.strictUserCoordination = true → target.isWorking = true →
        event.records.openBlockingQuestions run = []) :
      Moves run event { run with phase := target, revision := run.revision + 1 }
  /-- a stage, with the phase it shows -/
  | enters (target : CoordinationStage) (digest : Option String)
      (hquestions : (stagePhase target).isWorking = true →
        event.records.openBlockingQuestions run = []) :
      Moves run event (enterStage run target digest)
  /-- to wait for an approval that is not a checkpoint's -/
  | waits (phase : RunPhase) (planDigest : Option String)
      (hphase : phase = .awaitingPlanApproval ∨ phase = .awaitingChangeApproval)
      (hlive : run.phase.isTerminal = false) :
      Moves run event { run with
        phase := phase, planDigest := planDigest, revision := run.revision + 1 }
  | stays (hlive : run.phase.isTerminal = false) : Moves run event run

variable {event : Event}

theorem transition_moves {run run' : Run} {target : RunPhase}
    (hoperation : event.operation = .transition target)
    (h : transition run target event.instant event.records = .ok run') : Moves run event run' := by
  unfold transition at h
  simp only [bind_ok, require_ok, requireWhen_ok, exists_const,
    pure_ok] at h
  obtain ⟨hlive, -, -, hquestions, -, -, -, rfl⟩ := h
  refine .transitions target hoperation hlive ?_
  intro hstrict hworking
  refine hquestions ⟨hstrict, ?_⟩
  cases target <;> first | decide | cases hworking

theorem transition_live {run run' : Run} {target : RunPhase} {at' : Instant}
    {context : TransitionContext} (h : transition run target at' context = .ok run') :
    run.phase.isTerminal = false := by
  unfold transition at h
  simp only [bind_ok, require_ok, exists_const, pure_ok] at h
  exact h.1

theorem advance_moves {run run' : Run} {target : CoordinationStage}
    (h : advance run target event.instant event.records = .ok run') : Moves run event run' := by
  unfold advance at h
  split at h
  · cases h
  · simp only [bind_ok, require_ok, exists_const] at h
    obtain ⟨-, hquestions, _, -, _, -, h⟩ := h
    cases h
    exact .enters target none (fun _ => hquestions)

variable {run : Run}

section

omit [Hashing]

theorem not_working_of_checkpoint {stage : CoordinationStage} {kind : ApprovalKind}
    (h : checkpointKind stage = some kind) : (stagePhase stage).isWorking = false := by
  cases stage <;> first | rfl | cases h

variable {fresh : String}

theorem requestCheckpointApproval_moves {request : ApprovalRequest}
    {result : Run × Approval}
    (h : requestCheckpointApproval run request event.instant fresh = .ok result) :
    Moves run event result.1 := by
  unfold requestCheckpointApproval at h
  split at h
  · rename_i target htarget
    simp only [bind_ok, require_ok, exists_const, pure_ok] at h
    obtain ⟨-, -, approval, -, rfl⟩ := h
    have hwaits := not_working_of_checkpoint (checkpointKind_of_target htarget)
    refine .enters target (some request.subjectDigest) ?_
    intro hworking
    rw [hwaits] at hworking
    cases hworking
  · cases h

theorem questioning_moves :
    Moves run event (enterStage run .questioning none) :=
  .enters .questioning none (fun hworking => by cases hworking)

theorem openQuestion_live {request : QuestionRequest} {at' : Instant}
    {result : Run × Question} (h : openQuestion run request at' fresh = .ok result) :
    run.phase.isTerminal = false := by
  unfold openQuestion at h
  simp only [bind_ok, require_ok, exists_const, pure_ok] at h
  exact h.1

theorem openQuestion_run {request : QuestionRequest} {at' : Instant}
    {result : Run × Question} (h : openQuestion run request at' fresh = .ok result) :
    result.1 = enterStage run .questioning none ∨
      (result.1 = run ∧ (request.blocking = true → run.phase = .clarifying)) := by
  unfold openQuestion at h
  simp only [bind_ok, require_ok, exists_const, pure_ok] at h
  obtain ⟨-, -, -, question, -, rfl⟩ := h
  by_cases hblock : request.blocking = true ∧
      (run.phase ≠ .clarifying ∨ run.coordinationStage ≠ .questioning)
  · left
    rw [if_pos hblock]
  · right
    rw [if_neg hblock]
    refine ⟨rfl, ?_⟩
    intro hblocking
    by_contra hphase
    exact hblock ⟨hblocking, Or.inl hphase⟩

theorem openQuestion_moves {request : QuestionRequest}
    {result : Run × Question} (h : openQuestion run request event.instant fresh = .ok result) :
    Moves run event result.1 := by
  have hlive := openQuestion_live h
  rcases openQuestion_run h with hrun | ⟨hrun, -⟩
  · rw [hrun]
    exact questioning_moves
  · rw [hrun]
    exact .stays hlive

theorem requestApproval_moves {request : ApprovalRequest}
    {result : Run × Approval}
    (h : requestApproval run request event.instant fresh = .ok result) :
    Moves run event result.1 := by
  unfold requestApproval at h
  simp only [bind_ok, require_ok, exists_const, pure_ok] at h
  obtain ⟨hlive, next, hnext, approval, -, rfl⟩ := h
  unfold awaitApproval at hnext
  split at hnext
  · cases hnext
    exact .waits .awaitingPlanApproval _ (Or.inl rfl) hlive
  · simp only [bind_ok, require_ok, exists_const, pure_ok] at hnext
    obtain ⟨-, rfl⟩ := hnext
    by_cases hphase : run.phase ≠ .awaitingChangeApproval
    · rw [if_pos hphase]
      exact .waits .awaitingChangeApproval run.planDigest (Or.inr rfl) hlive
    · rw [if_neg hphase]
      exact .stays hlive

end

/-- **What one call does to a run**: it writes the phase, enters a stage, waits for an approval or
leaves the run as it is. -/
theorem step_moves {run run' : Run} (h : step run event = .ok run') :
    Moves run event run' := by
  unfold step at h
  split at h
  case h_1 target hoperation => exact transition_moves hoperation h
  case h_2 => exact advance_moves h
  case h_3 =>
    unfold restartQuestioning at h
    simp only [bind_ok, require_ok, exists_const, pure_ok] at h
    obtain ⟨-, rfl⟩ := h
    exact questioning_moves
  case h_4 =>
    obtain ⟨result, hresult, rfl⟩ := map_ok.mp h
    exact openQuestion_moves hresult
  case h_5 =>
    obtain ⟨result, hresult, rfl⟩ := map_ok.mp h
    exact requestCheckpointApproval_moves hresult
  case h_6 =>
    obtain ⟨result, hresult, rfl⟩ := map_ok.mp h
    exact requestApproval_moves hresult

theorem next_of_ok {run run' : Run} (h : step run event = .ok run') :
    next run event = run' := by
  unfold next
  rw [h]

theorem next_of_error {e : Failure} (h : step run event = .error e) :
    next run event = run := by
  unfold next
  rw [h]

/-! ### A run that is over -/

/-- Every call is refused, and the phase and the stage stay what they are. -/
structure Absorbed (run : Run) : Prop where
  refused : ∀ event, ∃ e, step run event = .error e
  unchanged : ∀ events, (replay next run events).phase = run.phase ∧
    (replay next run events).coordinationStage = run.coordinationStage

theorem released_refuses (hterminal : run.phase.isTerminal = true)
    (hreleased : run.coordinationStage = .released) (event : Event) :
    ∃ e, step run event = .error e := by
  cases hstep : step run event with
  | error e => exact ⟨e, rfl⟩
  | ok run' =>
      exfalso
      have hlive : run.phase.isTerminal ≠ false := by rw [hterminal]; decide
      unfold step at hstep
      split at hstep
      case h_1 => exact hlive (transition_live hstep)
      case h_2 =>
        have hnext := (advance_ok hstep).1
        rw [hreleased] at hnext
        cases hnext
      case h_3 =>
        unfold restartQuestioning at hstep
        simp only [bind_ok, require_ok, exists_const, pure_ok] at hstep
        exact hstep.1 hreleased
      case h_4 =>
        obtain ⟨result, hresult, -⟩ := map_ok.mp hstep
        exact hlive (openQuestion_live hresult)
      case h_5 =>
        obtain ⟨result, hresult, -⟩ := map_ok.mp hstep
        obtain ⟨hkind, -, -, hstays | hnext⟩ := requestCheckpointApproval_ok hresult
        · rw [hstays, hreleased] at hkind
          cases hkind
        · rw [hreleased] at hnext
          cases hnext
      case h_6 =>
        obtain ⟨result, hresult, -⟩ := map_ok.mp hstep
        unfold requestApproval at hresult
        simp only [bind_ok, require_ok, exists_const, pure_ok] at hresult
        exact hlive hresult.1

theorem restartQuestioning_accepted (h : run.coordinationStage ≠ .released)
    (event : Event) (hoperation : event.operation = .restartQuestioning) :
    step run event = .ok (enterStage run .questioning none) := by
  unfold step
  rw [hoperation]
  show restartQuestioning run = _
  unfold restartQuestioning require
  rw [if_pos h]
  rfl

theorem replay_of_refused (h : ∀ event, ∃ e, step run event = .error e)
    (events : List Event) : replay next run events = run := by
  induction events with
  | nil => rfl
  | cons event events ih =>
      obtain ⟨e, he⟩ := h event
      rw [Replay.cons (next_of_error he)]
      exact ih

theorem absorbed_iff (hterminal : run.phase.isTerminal = true) :
    Absorbed run ↔ run.coordinationStage = .released := by
  constructor
  · intro h
    by_contra hstage
    obtain ⟨e, he⟩ := h.refused { instant := 0, operation := .restartQuestioning }
    rw [restartQuestioning_accepted hstage _ rfl] at he
    cases he
  · intro hstage
    have hrefused := released_refuses hterminal hstage
    refine ⟨hrefused, ?_⟩
    intro events
    rw [replay_of_refused hrefused events]
    exact ⟨rfl, rfl⟩

/-- **Terminal phases are absorbing exactly where they are reached by release**: along a run, every
terminal state is over just when the stage of every terminal state is `released`. -/
theorem terminal_absorbed_iff (start : Run) (events : List Event) :
    (∀ before, before <+: events → (replay next start before).phase.isTerminal = true →
        Absorbed (replay next start before)) ↔
      ∀ before, before <+: events → (replay next start before).phase.isTerminal = true →
        (replay next start before).coordinationStage = .released := by
  constructor
  · intro h before hbefore hterminal
    exact (absorbed_iff hterminal).mp (h before hbefore hterminal)
  · intro h before hbefore hterminal
    exact (absorbed_iff hterminal).mpr (h before hbefore hterminal)

end Workflow

/-! ### A cancelled run that goes on -/

def sampleCancel : Event where
  instant := 1
  operation := .transition .cancelled

def sampleRestart : Event where
  instant := 2
  operation := .restartQuestioning

/-- The run is cancelled, and its questioning is restarted. -/
theorem cancelled_restarts :
    letI := sampleHashing
    (replay next sampleRun [sampleCancel]).phase = .cancelled ∧
      (replay next sampleRun [sampleCancel, sampleRestart]).phase = .clarifying ∧
      ¬ Absorbed (replay next sampleRun [sampleCancel]) := by
  let _ := sampleHashing
  have hcancelled : (replay next sampleRun [sampleCancel]).phase = .cancelled := by decide
  have hrestarted : (replay next sampleRun [sampleCancel, sampleRestart]).phase = .clarifying := by
    decide
  refine ⟨hcancelled, hrestarted, ?_⟩
  intro habsorbed
  have hphase := (habsorbed.unchanged [sampleRestart]).1
  rw [← Replay.append] at hphase
  rw [show [sampleCancel] ++ [sampleRestart] = [sampleCancel, sampleRestart] from rfl,
    hrestarted, hcancelled] at hphase
  cases hphase

end Evleda.Orchestrator
