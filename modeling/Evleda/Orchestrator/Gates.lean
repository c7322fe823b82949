/-
When nothing is dispatched.

The scheduler looks at one thing of the coordination, the phase: outside
`executing` it raises.

Where coordination is strict, an open blocking question keeps a run out of the
four phases in which work is done or has been.  Opening such a question sends
the run back to questioning, and both ways into these phases, a `transition` and
a stage, look at the questions first.

A checkpoint's approval has no such guard: `transition` moves the phase on without
a look at the stage.  It asks for the approvals of the phase, and where a run needs
no plan approval, for none.
-/
import Evleda.Orchestrator.Calls
import Evleda.Orchestrator.Phases

namespace Evleda.Orchestrator

open Outcome

/-! ### The scheduler's guard -/

section Guard

variable [Hashing] [KeyedHashing]

/-- Whatever it is given, `schedule` raises for the run. -/
def RefusesDispatch (run : Run) : Prop :=
  ∀ (record : RunRecord), record.toRun = run → ∀ signingKey tasks agents budget at' leaseSeconds,
    ∃ e, schedule signingKey record tasks agents budget at' leaseSeconds = .error e

theorem refusesDispatch {run : Run} (h : run.phase ≠ .executing) : RefusesDispatch run := by
  rintro record rfl signingKey tasks agents budget at' leaseSeconds
  cases hschedule : schedule signingKey record tasks agents budget at' leaseSeconds with
  | error e => exact ⟨e, rfl⟩
  | ok result =>
      exfalso
      unfold schedule requireSchedulable at hschedule
      simp only [bind_ok, require_ok, exists_const] at hschedule
      obtain ⟨_, ⟨_, -, hphase, -⟩, -⟩ := hschedule
      exact h hphase

end Guard

/-! ### Blocking questions -/

/-- `CoordinationService.answer_question` -/
def answerQuestion (question : Question) (answer answeredBy : String) (at' : Instant) :
    Except Failure Question := do
  require (question.state = .opened) (.domainError "only open questions can be answered")
  let normalized := Text.strip answer
  require (normalized ≠ "" ∧ Text.isBlank answeredBy = false)
    (.domainError "answer and answering user are required")
  require (question.options = [] ∨ normalized ∈ question.options ∨ question.allowCustomAnswer)
    (.domainError "answer must exactly match one of the declared options")
  Question.postInit { question with
    state := .answered
    answer := some normalized
    answeredBy := some answeredBy
    answeredAt := some at' }

/-- A run and all its questions. -/
structure Coordination where
  run : Run
  questions : List Question

/-- A call on the run, or the answer to one of its questions. -/
inductive CoordinationCall where
  | operate (event : Event)
  | answer (questionId text answeredBy : String) (at' : Instant)

/-- Keep a question under its identifier. -/
def putQuestion (questions : List Question) (question : Question) : List Question :=
  if question.id ∈ questions.map Question.id then
    Keyed.put Question.id questions question
  else questions ++ [question]

/-- The call with all questions of the run as its context. -/
def Coordination.informed (state : Coordination) (event : Event) : Event :=
  { event with records := { event.records with questions := state.questions } }

/-- The blocking questions of the run that are open. -/
def Coordination.openQuestions (state : Coordination) : List Question :=
  ({ questions := state.questions } : TransitionContext).openBlockingQuestions state.run

section Questions

variable [Hashing]

/-- The run and its questions after a call; a refused call leaves them as they were. -/
def Coordination.next (state : Coordination) : CoordinationCall → Coordination
  | .operate event =>
      match event.operation with
      | .openQuestion request =>
          match openQuestion state.run request event.instant event.fresh with
          | .ok (run, question) => ⟨run, putQuestion state.questions question⟩
          | .error _ => state
      | _ => ⟨Orchestrator.next state.run (state.informed event), state.questions⟩
  | .answer questionId text answeredBy at' =>
      match state.questions.find? (fun question => question.id == questionId) with
      | none => state
      | some question =>
          match answerQuestion question text answeredBy at' with
          | .ok answered => ⟨state.run, putQuestion state.questions answered⟩
          | .error _ => state

variable {state : Coordination}

section

omit [Hashing]

theorem mem_openQuestions {question : Question} :
    question ∈ state.openQuestions ↔ question ∈ state.questions ∧
      question.runId = state.run.id ∧ question.blocking = true ∧ question.state = .opened := by
  unfold Coordination.openQuestions TransitionContext.openBlockingQuestions
  rw [List.mem_filter]
  simp only [Bool.and_eq_true, beq_iff_eq, decide_eq_true_eq, and_assoc]

theorem mem_putQuestion {questions : List Question} {question other : Question}
    (h : other ∈ putQuestion questions question) : other ∈ questions ∨ other = question := by
  unfold putQuestion at h
  by_cases hid : question.id ∈ questions.map Question.id
  · rw [if_pos hid] at h
    rcases Keyed.mem_put.mp h with ⟨hold, -⟩ | ⟨hnew, -⟩
    · exact Or.inl hold
    · exact Or.inr hnew
  · rw [if_neg hid] at h
    rcases List.mem_append.mp h with hold | hnew
    · exact Or.inl hold
    · exact Or.inr (List.mem_singleton.mp hnew)

/-- What a move leaves of the identity of a run. -/
theorem Moves.kept {run run' : Run} {event : Event} (h : Moves run event run') :
    run'.id = run.id ∧ run'.strictUserCoordination = run.strictUserCoordination := by
  cases h <;> exact ⟨rfl, rfl⟩

/-- Strict coordination, and no work while a blocking question is open. -/
structure HeldBack (state : Coordination) : Prop where
  strict : state.run.strictUserCoordination = true
  held : state.openQuestions ≠ [] → state.run.phase.isWorking = false

theorem HeldBack.put {question : Question} (h : HeldBack state)
    (hclosed : ¬ (question.blocking = true ∧ question.state = .opened)) :
    HeldBack ⟨state.run, putQuestion state.questions question⟩ := by
  refine ⟨h.strict, ?_⟩
  intro hopen
  refine h.held ?_
  obtain ⟨other, hother⟩ := List.exists_mem_of_ne_nil _ hopen
  obtain ⟨hmem, hrun, hblocking, hstate⟩ := mem_openQuestions.mp hother
  rcases mem_putQuestion hmem with hold | rfl
  · exact List.ne_nil_of_mem (mem_openQuestions.mpr ⟨hold, hrun, hblocking, hstate⟩)
  · exact absurd ⟨hblocking, hstate⟩ hclosed

theorem HeldBack.moves {event : Event} {run' : Run} (h : HeldBack state)
    (hmoves : Moves state.run (state.informed event) run') : HeldBack ⟨run', state.questions⟩ := by
  obtain ⟨hid, hstrict⟩ := hmoves.kept
  refine ⟨hstrict.trans h.strict, ?_⟩
  intro hopen
  have hsame : (Coordination.mk run' state.questions).openQuestions = state.openQuestions := by
    unfold Coordination.openQuestions TransitionContext.openBlockingQuestions
    rw [hid]
  rw [hsame] at hopen
  rw [← Bool.not_eq_true]
  intro hworking
  cases hmoves with
  | transitions target hoperation hlive hquestions =>
      exact hopen (hquestions h.strict hworking)
  | enters target digest hquestions => exact hopen (hquestions hworking)
  | waits phase planDigest hphase hlive =>
      change phase.isWorking = true at hworking
      rcases hphase with rfl | rfl <;> cases hworking
  | stays =>
      rw [h.held hopen] at hworking
      cases hworking

theorem openQuestion_question {run : Run} {request : QuestionRequest} {at' : Instant}
    {fresh : String} {result : Run × Question}
    (h : openQuestion run request at' fresh = .ok result) :
    result.2.blocking = request.blocking := by
  unfold openQuestion at h
  simp only [bind_ok, require_ok, exists_const, pure_ok] at h
  obtain ⟨-, -, -, question, hquestion, rfl⟩ := h
  unfold Question.postInit at hquestion
  simp only [bind_ok, require_ok, exists_const, pure_ok] at hquestion
  obtain ⟨-, -, -, -, _, -, -, -, rfl⟩ := hquestion
  rfl

theorem HeldBack.opens {state : Coordination} {request : QuestionRequest} {at' : Instant}
    {fresh : String} {result : Run × Question} (h : HeldBack state)
    (hresult : openQuestion state.run request at' fresh = .ok result) :
    HeldBack ⟨result.1, putQuestion state.questions result.2⟩ := by
  have hblocking := openQuestion_question hresult
  rcases openQuestion_run hresult with hrun | ⟨hrun, hclarifying⟩
  · rw [hrun]
    exact ⟨h.strict, fun _ => rfl⟩
  · rw [hrun]
    by_cases hblocks : request.blocking = true
    · refine ⟨h.strict, ?_⟩
      intro _
      show state.run.phase.isWorking = false
      rw [hclarifying hblocks]
      rfl
    · refine h.put ?_
      rintro ⟨hopened, -⟩
      rw [hblocking] at hopened
      exact hblocks hopened

theorem answerQuestion_state {question answered : Question} {answer answeredBy : String}
    {at' : Instant} (h : answerQuestion question answer answeredBy at' = .ok answered) :
    answered.state = .answered := by
  unfold answerQuestion Question.postInit at h
  simp only [bind_ok, require_ok, exists_const, pure_ok] at h
  obtain ⟨-, -, -, -, -, -, -, _, -, -, -, rfl⟩ := h
  rfl

end

theorem next_heldBack (h : HeldBack state) (call : CoordinationCall) :
    HeldBack (state.next call) := by
  have hmoved : ∀ event : Event,
      HeldBack ⟨next state.run (state.informed event), state.questions⟩ := by
    intro event
    cases hstep : step state.run (state.informed event) with
    | error e =>
        rw [next_of_error hstep]
        exact h
    | ok run' =>
        rw [next_of_ok hstep]
        exact h.moves (step_moves hstep)
  cases call with
  | operate event =>
      unfold Coordination.next
      dsimp only
      split
      · rename_i request hoperation
        cases hopen : openQuestion state.run request event.instant event.fresh with
        | error e => exact h
        | ok result => exact h.opens hopen
      · exact hmoved event
  | answer questionId text answeredBy at' =>
      unfold Coordination.next
      dsimp only
      split
      · exact h
      · rename_i question hfound
        cases hanswer : answerQuestion question text answeredBy at' with
        | error e => exact h
        | ok answered =>
            refine h.put ?_
            rintro ⟨-, hopened⟩
            rw [answerQuestion_state hanswer] at hopened
            cases hopened

/-- **While a blocking question is open nothing is dispatched**: under strict coordination, after any
calls, a run with an open blocking question is in none of the four working phases, and `schedule`
raises for it. -/
theorem blocked_not_working [KeyedHashing] (run : Run) (hstrict : run.strictUserCoordination = true)
    (calls : List CoordinationCall)
    (hopen : (replay Coordination.next ⟨run, []⟩ calls).openQuestions ≠ []) :
    (replay Coordination.next ⟨run, []⟩ calls).run.phase ∉
        [.ready, .executing, .verifying, .completed] ∧
      RefusesDispatch (replay Coordination.next ⟨run, []⟩ calls).run := by
  have hheld : HeldBack (replay Coordination.next ⟨run, []⟩ calls) := by
    refine Replay.invariant (P := HeldBack) ?_ (fun state call h => next_heldBack h call) calls
    exact ⟨hstrict, fun h => absurd rfl h⟩
  have hphase := hheld.held hopen
  generalize (replay Coordination.next ⟨run, []⟩ calls).run = run' at hphase
  have hnot : run'.phase ∉ [.ready, .executing, .verifying, .completed] := by
    intro hmem
    simp only [List.mem_cons, List.not_mem_nil, or_false] at hmem
    rcases hmem with hmem | hmem | hmem | hmem <;> rw [hmem] at hphase <;> cases hphase
  refine ⟨hnot, refusesDispatch ?_⟩
  intro hexecuting
  rw [hexecuting] at hnot
  exact hnot (by decide)

end Questions

/-- A question that blocks. -/
def sampleQuestion : Event where
  instant := 1
  operation := .openQuestion {
    prompt := "Which?"
    rationale := ""
    blocking := true
    options := ["a", "b"]
    recommendation := some "a"
    confidenceBasisPoints := some 5000
    allowCustomAnswer := false
    boundRevision := some "r"
    affectedArtifactIds := []
    dependentDecisionIds := []
    questionId := none }

/-- Ask to enter a phase. -/
def sampleMove (target : RunPhase) : CoordinationCall :=
  .operate { instant := 2, operation := .transition target }

/-- Two questions; the run tries to get ready and to execute while both, and then one of them, are
open, the second being answered with none of its options. -/
def sampleCalls : List CoordinationCall :=
  [.operate sampleQuestion, .operate { sampleQuestion with fresh := "id_2" }, sampleMove .ready,
    .answer "id" "a" "user" 3, sampleMove .executing, .answer "id_2" "c" "user" 4, sampleMove .ready]

theorem blocked_not_working_sample :
    letI := plainHashing
    letI := plainSigning
    let start : Run := { sampleRun with requirePlanApproval := false }
    (replay Coordination.next ⟨start, []⟩ sampleCalls).run.phase ∉
        [.ready, .executing, .verifying, .completed] ∧
      RefusesDispatch (replay Coordination.next ⟨start, []⟩ sampleCalls).run :=
  letI := plainHashing
  letI := plainSigning
  blocked_not_working { sampleRun with requirePlanApproval := false } rfl sampleCalls
    (by decide +kernel)

/-! ### Checkpoints -/

section Checkpoints

variable [Hashing]

/-- The stage waits for the user's approval. -/
def AwaitsCheckpoint (run : Run) : Prop := (checkpointKind run.coordinationStage).isSome = true

/-- The gates of `transition` on the way to the executing phase are open. -/
def gatesOpen (run : Run) (event : Event) : Prop :=
  .executing ∈ allowed run.phase ∧
    (run.strictUserCoordination = true → event.records.openBlockingQuestions run = []) ∧
    requirePlanApproval run event.records event.instant = .ok () ∧
    (run.phase = .awaitingChangeApproval →
      isFalsy event.records.requiredSubjectDigest = false ∧
        event.records.hasValidApproval run (event.records.requiredApprovalKind.getD .changeset)
          (event.records.requiredSubjectDigest.getD "") event.instant = true)

omit [Hashing] in
theorem not_terminal_of_allowed {phase target : RunPhase} (h : target ∈ allowed phase) :
    phase.isTerminal = false := by
  cases phase <;> first | rfl | cases h

omit [Hashing] in
theorem executing_ne_of_allowed {phase : RunPhase} (h : .executing ∈ allowed phase) :
    RunPhase.executing ≠ phase := by
  rintro rfl
  exact absurd h (by decide)

/-- `transition` to the executing phase is accepted exactly when its gates are open. -/
theorem transition_executing {run : Run} {event : Event} :
    transition run .executing event.instant event.records =
        .ok { run with phase := .executing, revision := run.revision + 1 } ↔
      gatesOpen run event := by
  unfold transition gatesOpen
  simp only [bind_ok, require_ok, requireWhen_ok, exists_const,
    pure_ok, and_true]
  constructor
  · rintro ⟨-, -, hallowed, hquestions, hplan, hchange, -⟩
    refine ⟨hallowed, ?_, hplan (Or.inr trivial), fun hphase => hchange hphase⟩
    intro hstrict
    exact hquestions ⟨hstrict, by decide⟩
  · rintro ⟨hallowed, hquestions, hplan, hchange⟩
    refine ⟨not_terminal_of_allowed hallowed, executing_ne_of_allowed hallowed, hallowed,
      fun h => hquestions h.1, fun _ => hplan, fun hphase => hchange hphase, ?_⟩
    intro hcompleted
    cases hcompleted

/-- A call that lets work start while a checkpoint waits. -/
def StartsWaiting (run : Run) (event : Event) : Prop :=
  AwaitsCheckpoint run ∧ event.operation = .transition .executing ∧ gatesOpen run event

omit [Hashing] in
/-- A stage that waits shows no work. -/
theorem awaits_not_executing {stage : CoordinationStage}
    (h : (checkpointKind stage).isSome = true) : stagePhase stage ≠ .executing := by
  obtain ⟨kind, hkind⟩ := Option.isSome_iff_exists.mp h
  have hwaits := not_working_of_checkpoint hkind
  intro hexecuting
  rw [hexecuting] at hwaits
  cases hwaits

theorem next_not_executing {run : Run} {event : Event} (hstarts : ¬ StartsWaiting run event)
    (h : AwaitsCheckpoint run → run.phase ≠ .executing) :
    AwaitsCheckpoint (next run event) → (next run event).phase ≠ .executing := by
  cases hstep : step run event with
  | error e =>
      rw [next_of_error hstep]
      exact h
  | ok run' =>
      rw [next_of_ok hstep]
      intro hawaits
      cases step_moves hstep with
      | transitions target hoperation hlive hquestions =>
          rintro rfl
          refine hstarts ⟨hawaits, hoperation, transition_executing.mp ?_⟩
          unfold step at hstep
          rw [hoperation] at hstep
          exact hstep
      | enters target digest hquestions => exact awaits_not_executing hawaits
      | waits phase planDigest hphase hlive =>
          show phase ≠ .executing
          rcases hphase with rfl | rfl <;> decide
      | stays => exact h hawaits

/-- **Work starts while a checkpoint waits only by `transition`**: along a run, no state that waits
for a checkpoint's approval is executing, and `schedule` raises for it, just when the start is not,
and no `transition` to the executing phase is called in such a state with its gates open. -/
theorem awaiting_not_executing_iff [KeyedHashing] (start : Run) (events : List Event) :
    (∀ before, before <+: events → AwaitsCheckpoint (replay next start before) →
        (replay next start before).phase ≠ .executing ∧
          RefusesDispatch (replay next start before)) ↔
      (AwaitsCheckpoint start → start.phase ≠ .executing) ∧
        ∀ before event, before ++ [event] <+: events →
          ¬ StartsWaiting (replay next start before) event := by
  constructor
  · intro h
    refine ⟨fun hawaits => (h [] List.nil_prefix hawaits).1, ?_⟩
    rintro before event hprefix ⟨hawaits, hoperation, hgates⟩
    have hstep : step (replay next start before) event = .ok { replay next start before with
        phase := .executing, revision := (replay next start before).revision + 1 } := by
      unfold step
      rw [hoperation]
      exact transition_executing.mpr hgates
    have hnext := h _ hprefix
    rw [Replay.snoc, next_of_ok hstep] at hnext
    exact (hnext hawaits).1 rfl
  · rintro ⟨hstart, hevents⟩
    have hphase : ∀ before, before <+: events → AwaitsCheckpoint (replay next start before) →
        (replay next start before).phase ≠ .executing := by
      intro before
      induction before using List.reverseRecOn with
      | nil => intro _; exact hstart
      | append_singleton before event ih =>
          intro hprefix
          rw [Replay.snoc]
          exact next_not_executing (hevents before event hprefix)
            (ih ((List.prefix_append _ _).trans hprefix))
    intro before hbefore hawaits
    have hnot := hphase before hbefore hawaits
    exact ⟨hnot, refusesDispatch hnot⟩

end Checkpoints

/-- A run that needs no plan approval. -/
def sampleUnplanned : Run := { sampleRun with requirePlanApproval := false }

def sampleTransition (target : RunPhase) : Event where
  instant := 2
  operation := .transition target

/-- The brief's approval is requested and never given, and the run executes. -/
theorem brief_awaited_executing :
    letI := plainHashing
    AwaitsCheckpoint (replay next sampleUnplanned
        [sampleRequest .brief, sampleTransition .ready, sampleTransition .executing]) ∧
      (replay next sampleUnplanned [sampleRequest .brief, sampleTransition .ready,
        sampleTransition .executing]).phase = .executing ∧
      ∀ event ∈ [sampleRequest .brief, sampleTransition .ready, sampleTransition .executing],
        event.records.approvals = [] := by
  refine ⟨?_, ?_, ?_⟩
  · unfold AwaitsCheckpoint
    decide +kernel
  · decide +kernel
  · decide

end Evleda.Orchestrator
