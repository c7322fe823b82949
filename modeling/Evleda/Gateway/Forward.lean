/-
Lifecycles that move forward.

A run moves forward as long as no answer and no rejection comes too late.  The
invariant is that the gateway is on track: the runs on a stage are those that hold
the active stages of the adapter, one for each project, and a run whose release
was asked for is on its stage or over.

A late answer is enough to leave the track: the run plans again while the adapter
still holds its stage.  The history at the end of this file is such a one.
-/
import Evleda.Gateway.Lifecycle
import Evleda.Gateway.Returns

namespace Evleda.Gateway

open Asking

/-! ### Histories of calls in time -/

section Histories

variable [Hashing] {limits : Limits} {manifests : Manifests} {hook : VerificationHook}
  {h : Hosted} {c : HostCall}

def HostCall.key (c : HostCall) : String × ToolName × String :=
  (c.invocation.principal.actorId, c.request.tool, c.invocation.idempotencyKey)

/-- A call that returns is answered from the table and changes nothing, or its action ran. -/
theorem Hosted.accepted (haccepts : h.Accepts limits manifests hook c) :
    (h.gateway.idempotency c.key ≠ none ∧ h.step limits manifests hook c = h) ∨
      (h.gateway.idempotency c.key = none ∧ ∃ done effects result,
        Done limits h.gateway c.invocation (c.over hook h.adapter).turn c.request done effects ∧
        h.step limits manifests hook c = ⟨done.gateway.publish (c.over hook h.adapter) result,
          h.adapter.afterAll effects⟩) := by
  obtain ⟨result, hresult⟩ := haccepts
  unfold Hosted.step
  unfold Hosted.reply at hresult ⊢
  cases @invoke_course _ limits manifests h.gateway (c.over hook h.adapter) with
  | refused failure heq =>
      rw [heq] at hresult
      cases hresult
  | repeated digest held hcapable hheld hdigest heq =>
      rw [heq]
      refine Or.inl ⟨fun hnew => ?_, rfl⟩
      have hnone : h.gateway.idempotency (c.over hook h.adapter).key = none := hnew
      rw [hheld] at hnone
      cases hnone
  | failed hnew failure haction heq =>
      rw [heq] at hresult
      cases hresult
  | applied done effects hacts hsaves capturedAt heq =>
      rw [heq]
      refine Or.inr ⟨hacts.new, done, effects,
        toolResult manifests (c.over hook h.adapter) capturedAt done, hacts.done, ?_⟩
      exact congrArg (Hosted.mk _) (InMemory.afterAll_looks hacts.done.asked)
  | dropped done effects hacts hunsaved failure heq =>
      rw [heq] at hresult
      cases hresult

variable {calls : List HostCall}

theorem hostedAfter_snoc {adapter : InMemory} :
    hostedAfter limits manifests hook adapter (calls ++ [c]) =
      (hostedAfter limits manifests hook adapter calls).step limits manifests hook c :=
  Replay.snoc _ _ _

theorem hostedAfter_throughout {adapter : InMemory}
    {Allowed : Hosted → HostCall → Prop} :
    Replay.Throughout (Hosted.step limits manifests hook) Allowed { adapter } (calls ++ [c]) ↔
      Replay.Throughout (Hosted.step limits manifests hook) Allowed { adapter } calls ∧
        Allowed (hostedAfter limits manifests hook adapter calls) c :=
  Replay.throughout_snoc

/-- The gateway and its adapter agree. -/
structure OnTrack (h : Hosted) : Prop where
  sound : Sound h.gateway
  tracked : Tracked h.gateway.runs h.adapter
  released : Released h.gateway

/-- The call returns, and what is not answered from the table comes in time. -/
structure Timely (limits : Limits) (manifests : Manifests) (hook : VerificationHook) (h : Hosted)
    (c : HostCall) : Prop where
  accepts : h.Accepts limits manifests hook c
  inTime : h.gateway.idempotency c.key = none → InTime h.gateway c.request

theorem OnTrack.moves (htrack : OnTrack h) (htimely : Timely limits manifests hook h c) :
    (h.gateway.idempotency c.key ≠ none ∧ h.step limits manifests hook c = h) ∨
      (h.gateway.idempotency c.key = none ∧ InTime h.gateway c.request ∧
        OnTrack (h.step limits manifests hook c) ∧
        Moved h.adapter h.gateway (h.step limits manifests hook c).gateway.runs
          (h.step limits manifests hook c).adapter c.request) := by
  obtain hsame | ⟨hnew, done, effects, result, hdone, hstep⟩ := Hosted.accepted htimely.accepts
  · exact Or.inl hsame
  · have hintime := htimely.inTime hnew
    have hmoved : Moved h.adapter h.gateway done.gateway.runs (h.adapter.afterAll effects)
        c.request := hdone.moved htrack.sound rfl
    rw [hstep]
    refine Or.inr ⟨hnew, hintime, ⟨?_, ?_, ?_⟩, hmoved⟩
    · exact (action_change htrack.sound hdone.returns).sound.publish _ _
    · exact hmoved.tracked hintime htrack.released htrack.tracked
    · exact hmoved.released hintime htrack.released htrack.sound hdone

theorem OnTrack.step (htrack : OnTrack h) (htimely : Timely limits manifests hook h c) :
    OnTrack (h.step limits manifests hook c) := by
  obtain ⟨-, hsame⟩ | ⟨-, -, hnext, -⟩ := htrack.moves htimely
  · rw [hsame]
    exact htrack
  · exact hnext

omit [Hashing] in
theorem onTrack_init (adapter : InMemory) : OnTrack { adapter } := by
  refine ⟨sound_empty, ⟨?_, ?_⟩, ?_⟩
  · intro runId run hrun
    cases hrun
  · intro runId run runId' run' hrun
    cases hrun
  · intro approvalId approval happroval
    cases happroval

/-- The action of the call stages a patch of the project. -/
def Hosted.Stages (limits : Limits) (manifests : Manifests) (hook : VerificationHook)
    (projectId : String) (h : Hosted) (c : HostCall) : Prop :=
  h.gateway.idempotency c.key = none ∧ h.Accepts limits manifests hook c ∧
    ∃ r, c.request = .stageDesignPatch r ∧ r.projectId = projectId

/-- The active stage of the project was created by the run: its call of `stage_design_patch` was the
last one for the project. -/
def CreatedBy (limits : Limits) (manifests : Manifests) (hook : VerificationHook)
    (adapter : InMemory) (calls : List HostCall) (projectId runId : String) : Prop :=
  ∃ before c r, LastMoment (Hosted.step limits manifests hook) { adapter } calls
    (Hosted.Stages limits manifests hook projectId) before c ∧
    c.request = .stageDesignPatch r ∧ r.runId = runId

theorem stager_onStage {adapter : InMemory}
    (h : Replay.Throughout (Hosted.step limits manifests hook) (Timely limits manifests hook)
      { adapter } calls) :
    OnTrack (hostedAfter limits manifests hook adapter calls) ∧
      ∀ projectId runId, CreatedBy limits manifests hook adapter calls projectId runId →
        (hostedAfter limits manifests hook adapter calls).adapter.active projectId ≠ none →
        ∃ run, (hostedAfter limits manifests hook adapter calls).gateway.runs runId = some run ∧
          run.projectId = projectId ∧ run.state.OnStage := by
  refine Replay.history_induction (fun calls hosted => OnTrack hosted ∧
    ∀ projectId runId, CreatedBy limits manifests hook adapter calls projectId runId →
      hosted.adapter.active projectId ≠ none →
      ∃ run, hosted.gateway.runs runId = some run ∧ run.projectId = projectId ∧
        run.state.OnStage) ⟨onTrack_init adapter, ?_⟩ ?_ calls h
  · rintro projectId runId ⟨before, c, r, ⟨after, hsplit, -⟩, -⟩
    simp at hsplit
  · rintro calls c ⟨htrack, hstager⟩ htimely
    refine ⟨htrack.step htimely, ?_⟩
    rintro projectId runId ⟨before, c', r, hlast, hrequest, hrunId⟩ hactive
    obtain ⟨hheld, hsame⟩ | ⟨hnew, hintime, -, hmoved⟩ := htrack.moves htimely
    · -- nothing happened
      rw [hsame] at hactive ⊢
      obtain ⟨rfl, rfl⟩ | ⟨hlast, -⟩ := hlast.snoc_cases
      · exact absurd hlast.holds.1 hheld
      · exact hstager projectId runId ⟨before, c', r, hlast, hrequest, hrunId⟩ hactive
    · obtain ⟨-, rfl⟩ | ⟨hlast, hnot⟩ := hlast.snoc_cases
      · -- the stage is a new one
        obtain ⟨-, -, r', hrequest', hproject⟩ := hlast.holds
        rw [hrequest, Request.stageDesignPatch.injEq] at hrequest'
        subst hrequest'
        rw [hrequest] at hmoved
        rw [← hrunId, ← hproject]
        exact hmoved.stager
      · -- it is the one that was there
        have hother : ∀ r, c.request = .stageDesignPatch r → r.projectId ≠ projectId := by
          intro r' hr' hproject
          exact hnot ⟨hnew, htimely.accepts, r', hr', hproject⟩
        have hbefore := hmoved.active hother hactive
        obtain ⟨run, hrun, hproject, hon⟩ :=
          hstager projectId runId ⟨before, c', r, hlast, hrequest, hrunId⟩ hbefore
        obtain ⟨run', hrun', hkept⟩ := hmoved.keeps hintime htrack.released hrun
        refine ⟨run', hrun', hkept.project.trans hproject, ?_⟩
        obtain hon' | ⟨-, hnone⟩ := hkept.onStage hon
        · exact hon'
        · rw [hproject] at hnone
          exact absurd hnone hactive

theorem over_stays {hosted : Hosted} (htrack : OnTrack hosted)
    (h : Replay.Throughout (Hosted.step limits manifests hook) (Timely limits manifests hook)
      hosted calls) {runId : String} {run : AgentRun}
    (hrun : hosted.gateway.runs runId = some run) (hover : run.state.Over) :
    ∃ run', (replay (Hosted.step limits manifests hook) hosted calls).gateway.runs runId =
      some run' ∧ run'.state = run.state := by
  have hboth := Replay.history_induction (fun _ after => OnTrack after ∧
    ∃ run', after.gateway.runs runId = some run' ∧ run'.state = run.state) ⟨htrack, run, hrun, rfl⟩
    (fun calls c hbefore htimely => by
      obtain ⟨htrack, run₁, hrun₁, hstate₁⟩ := hbefore
      refine ⟨htrack.step htimely, ?_⟩
      obtain ⟨-, hsame⟩ | ⟨-, hintime, -, hmoved⟩ := htrack.moves htimely
      · rw [hsame]
        exact ⟨run₁, hrun₁, hstate₁⟩
      · obtain ⟨run₂, hrun₂, hkept⟩ := hmoved.keeps hintime htrack.released hrun₁
        refine ⟨run₂, hrun₂, (hkept.ended ?_).trans hstate₁⟩
        rw [hstate₁]
        exact hover) calls h
  exact hboth.2

/-- A run that is over keeps its state, and as long as the adapter holds an active stage, the run
that created it is staged or awaits its release, on that stage and on the committed revision under
it. -/
structure MovesForward (limits : Limits) (manifests : Manifests) (hook : VerificationHook)
    (adapter : InMemory) (calls : List HostCall) : Prop where
  ended : ∀ before after runId run, calls = before ++ after →
    (hostedAfter limits manifests hook adapter before).gateway.runs runId = some run →
    run.state = .complete ∨ run.state = .rolledBack →
    ∃ run', (hostedAfter limits manifests hook adapter calls).gateway.runs runId = some run' ∧
      run'.state = run.state
  staged : ∀ projectId runId stage,
    (hostedAfter limits manifests hook adapter calls).adapter.active projectId = some stage →
    CreatedBy limits manifests hook adapter calls projectId runId →
    ∃ run, (hostedAfter limits manifests hook adapter calls).gateway.runs runId = some run ∧
      (run.state = .staged ∨ run.state = .awaitingReleaseApproval) ∧
      run.projectId = projectId ∧ run.stagedRevision = some stage.stagedRevision ∧
      (hostedAfter limits manifests hook adapter calls).adapter.revision projectId =
        some run.projectRevision

/-- **Where no answer and no rejection comes too late, the lifecycle only moves forward.** -/
theorem lifecycle_forward (limits : Limits) (manifests : Manifests) (hook : VerificationHook)
    (adapter : InMemory) (calls : List HostCall)
    (h : Replay.Throughout (Hosted.step limits manifests hook) (Timely limits manifests hook)
      { adapter } calls) :
    MovesForward limits manifests hook adapter calls := by
  constructor
  · rintro before after runId run rfl hrun hover
    obtain ⟨hbefore, hafter⟩ := Replay.throughout_append.mp h
    obtain ⟨htrack, -⟩ := stager_onStage hbefore
    unfold hostedAfter
    rw [Replay.append]
    exact over_stays htrack hafter hrun hover
  · intro projectId runId stage hactive hcreated
    obtain ⟨htrack, hstager⟩ := stager_onStage h
    have hstaged := hactive.trans_ne (Option.some_ne_none stage)
    obtain ⟨run, hrun, hproject, hon⟩ := hstager projectId runId hcreated hstaged
    obtain ⟨stage', hactive', hstage', hrevision⟩ := htrack.tracked.holds runId run hrun hon
    rw [hproject, hactive, Option.some.injEq] at hactive'
    subst hactive'
    rw [hproject] at hrevision
    exact ⟨run, hrun, hon, hproject, hstage', hrevision⟩

end Histories

/-! ### A late answer

A run with a question that does not block it is created, previewed, approved and staged.  Then the
question is answered. -/

section Demo

attribute [local instance] plainHashing

theorem Attended.serves {limits : Limits} {manifests : Manifests} {hook : VerificationHook}
    {h : Hosted} {c : HostCall} {actors : List String} (hattended : Attended h.gateway actors)
    {done : Applied} {effects : List Asked} {capturedAt : Instant}
    (hactor : c.invocation.principal.actorId ∉ actors)
    (hlength : (Json.str c.invocation.principal.actorId).render.length = 4)
    (hstore : ∀ store ∈ c.store, store.load = .ok () ∧ store.save = .ok ())
    (htier : (requiredTier c.request.tool).value ≤
      c.invocation.principal.profile.maximumTier.value)
    (hclock : c.capturedAt = .ok capturedAt)
    (hdone : Done limits h.gateway c.invocation (c.over hook h.adapter).turn c.request done
      effects) :
    h.Accepts limits manifests hook c ∧
      ∃ result, h.step limits manifests hook c =
          ⟨done.gateway.publish (c.over hook h.adapter) result, h.adapter.afterAll effects⟩ ∧
        Attended (done.gateway.publish (c.over hook h.adapter) result)
          (actors ++ [c.invocation.principal.actorId]) := by
  obtain ⟨result, hreply, hnext⟩ := @Attended.invoke limits manifests _ _ hattended
    (c.over hook h.adapter) _ _ _ hactor hlength hstore htier hclock hdone
  refine ⟨⟨result, ?_⟩, result, ?_, hnext⟩
  · unfold Hosted.reply
    rw [hreply]
  · unfold Hosted.step Hosted.reply
    rw [hreply]
    exact congrArg (Hosted.mk _) (InMemory.afterAll_looks hdone.asked)

def demoDesign : List (String × Json) :=
  [("applied_operations", .arr []), ("components", .obj []), ("nets", .obj [])]

@[irreducible] def demoRevision : String := revisionDigest demoDesign

def demoProject : ProjectState := ⟨"demo", demoDesign, demoRevision, none⟩

def demoAdapter : InMemory where
  projects := Dict.empty.set "demo" demoProject

def demoOperation : PatchOperation :=
  { operationId := "o1", action := .setProperty, targetId := "U1" }

def demoPatch : DesignPatch :=
  { patchId := "p1", baseRevision := demoRevision, rationale := "rate"
    operations := [demoOperation] }

/-- The design after the patch. -/
def demoPatched : List (String × Json) :=
  canonicalDesign [("components", .obj []), ("nets", .obj []),
    ("applied_operations", .arr [demoOperation.json.canonical])]

theorem demo_applies : applyPatch demoDesign demoPatch = .ok demoPatched := by
  simp [applyPatch, demoDesign, demoPatch, demoOperation, demoPatched, applyOperation, appendItem,
    designMember, withMember, Json.get?, bind, Except.bind, pure, Except.pure]

@[irreducible] def demoPreview : PatchPreview :=
  InMemory.previewOf "demo" demoRevision demoPatch demoPatched

theorem demoPreview_eq :
    demoPreview = InMemory.previewOf "demo" demoRevision demoPatch demoPatched := by
  unfold demoPreview
  rfl

/-- The adapter with the patch staged. -/
def demoStaged : InMemory :=
  demoAdapter.put "demo" { demoProject with
    staging := some ⟨demoPatched, demoPatch, InMemory.stageOf "demo" demoPreview⟩ }

theorem demo_project : demoAdapter.projects "demo" = some demoProject :=
  Dict.set_self Dict.empty "demo" demoProject

theorem demo_stages : demoAdapter.stagePatch "demo" demoRevision demoPatch
    demoPreview.previewDigest = .ok (InMemory.stageOf "demo" demoPreview, demoStaged) :=
  InMemory.stagePatch_returns demo_project rfl rfl rfl demo_applies demoPreview_eq

def demoCall (store : Option StoreTurn) (actorId : String) (request : Request) : HostCall :=
  ⟨⟨⟨actorId, .user, .releaseManager⟩, "k1"⟩, request, .ok 0, .ok 0, store⟩

@[irreducible] def demoRunId : String :=
  derivedId "run" [("tool", .str ToolName.createAgentRun.value), ("actor", .str "u1"),
    ("idempotency_key", .str "k1"), ("discriminator", .str "demo")]

def demoSpec : QuestionSpec :=
  { prompt := "Prefer small parts?", rationale := "cost", blocking := false }

@[irreducible] def demoQuestion : QuestionRecord := openedQuestion demoRunId 0 demoSpec

@[irreducible] def demoApprovalId : String := stageApprovalId demoRunId demoPreview.previewDigest

def demoRun (runRevision : Int) (state : RunState) (approvalIds : List String)
    (stagedRevision : Option String) : AgentRun where
  runId := demoRunId
  projectId := "demo"
  objective := "blink"
  projectRevision := demoRevision
  runRevision := runRevision
  state := state
  strictUserCoordination := true
  maxParallelAgents := none
  tokenBudget := none
  questionIds := [demoQuestion.questionId]
  approvalIds := approvalIds
  stagedRevision := stagedRevision

def demoApproval : ApprovalRequestRecord :=
  ⟨demoApprovalId, demoRunId, .stage, demoPreview.previewDigest,
    "Stage " ++ toString demoPatch.operations.length ++ " typed design operations", .pending, 0⟩

@[irreducible] def demoReceipt : ApprovalReceipt :=
  decidedReceipt ⟨⟨"u3", .user, .releaseManager⟩, "k1"⟩
    (demoRun 1 .awaitingStageApproval [demoApprovalId] none) demoApproval .approved 0 "fits"

theorem demoRunId_eq : demoRunId = derivedId "run"
    [("tool", .str ToolName.createAgentRun.value), ("actor", .str "u1"),
      ("idempotency_key", .str "k1"), ("discriminator", .str "demo")] := by
  unfold demoRunId
  rfl

theorem demoQuestion_eq : demoQuestion = openedQuestion demoRunId 0 demoSpec := by
  unfold demoQuestion
  rfl

theorem demo_question : demoQuestion.blocking = false ∧ demoQuestion.runId = demoRunId ∧
    demoQuestion.answer = none ∧ demoQuestion.options = [] := by
  rw [demoQuestion_eq]
  exact ⟨rfl, rfl, rfl, rfl⟩

theorem demoApprovalId_eq :
    demoApprovalId = stageApprovalId demoRunId demoPreview.previewDigest := by
  unfold demoApprovalId
  rfl

theorem demoReceipt_eq : demoReceipt = decidedReceipt ⟨⟨"u3", .user, .releaseManager⟩, "k1"⟩
    (demoRun 1 .awaitingStageApproval [demoApprovalId] none) demoApproval .approved 0 "fits" := by
  unfold demoReceipt
  rfl

def demoCreate : CreateAgentRunRequest where
  projectId := "demo"
  expectedProjectRevision := demoRevision
  objective := "blink"
  initialQuestions := [demoSpec]

def demoPreviews : PreviewPatchRequest where
  projectId := "demo"
  expectedProjectRevision := demoRevision
  runId := demoRunId
  expectedRunRevision := 0
  patch := demoPatch

def demoApproves : DecideApprovalRequest where
  projectId := "demo"
  expectedProjectRevision := demoRevision
  runId := demoRunId
  expectedRunRevision := 1
  approvalId := demoApprovalId
  approve := true
  reason := "fits"

def demoStages : StageDesignPatchRequest where
  projectId := "demo"
  expectedProjectRevision := demoRevision
  runId := demoRunId
  expectedRunRevision := 2
  patch := demoPatch
  previewDigest := demoPreview.previewDigest
  approvalReceiptId := demoReceipt.receiptId

def demoAnswers : AnswerQuestionRequest where
  projectId := "demo"
  expectedProjectRevision := demoRevision
  runId := demoRunId
  expectedRunRevision := 3
  questionId := demoQuestion.questionId
  answer := "yes"

/-- What the calls look at. -/
structure DemoAt (h : Hosted) (actors : List String) (adapter : InMemory) (run : AgentRun)
    (preview : Option PatchPreview) (approval : Option ApprovalRequestRecord)
    (receipt : Option ApprovalReceipt) : Prop where
  track : OnTrack h
  attended : Attended h.gateway actors
  adapter : h.adapter = adapter
  run : h.gateway.runs demoRunId = some run
  question : h.gateway.questions demoQuestion.questionId = some demoQuestion
  preview : h.gateway.previews demoPreview.previewDigest = preview
  approval : h.gateway.approvals demoApprovalId = approval
  receipt : h.gateway.receipts demoReceipt.receiptId = receipt

variable {manifests : Manifests} {hook : VerificationHook} {h : Hosted} {store : Option StoreTurn}

theorem demo_inspects {a : InMemory} {state : ProjectState}
    (hstate : a.projects "demo" = some state)
    (hrevision : state.projectRevision = demoRevision) :
    ∃ snapshot, (a.answers hook).inspectProject "demo" (some demoRevision) = .ok snapshot :=
  InMemory.inspectProject_returns hstate hrevision

theorem actor_length : ∀ actorId ∈ ["u1", "u2", "u3", "u4", "u5"],
    (Json.str actorId).render.length = 4 := by
  decide

/-- A call of the demonstration that its action lets pass. -/
theorem demo_serves {actors : List String} (hattended : Attended h.gateway actors)
    {actorId : String} {request : Request} {done : Applied} {effects : List Asked}
    (hactor : actorId ∉ actors) (hknown : actorId ∈ ["u1", "u2", "u3", "u4", "u5"])
    (hstore : ∀ s ∈ store, s.load = .ok () ∧ s.save = .ok ())
    (hdone : Done {} h.gateway ⟨⟨actorId, .user, .releaseManager⟩, "k1"⟩
      ⟨h.adapter.answers hook, .ok 0, .ok 0, store⟩ request done effects) :
    h.Accepts {} manifests hook (demoCall store actorId request) ∧
      ∃ result, h.step {} manifests hook (demoCall store actorId request) =
          ⟨done.gateway.publish ((demoCall store actorId request).over hook h.adapter) result,
            h.adapter.afterAll effects⟩ ∧
        Attended (done.gateway.publish ((demoCall store actorId request).over hook h.adapter)
          result) (actors ++ [actorId]) := by
  refine Attended.serves hattended hactor (actor_length actorId hknown) hstore ?_ rfl hdone
  show (requiredTier request.tool).value ≤ 30
  cases request.tool <;> decide

theorem demo_created (hstore : ∀ s ∈ store, s.load = .ok () ∧ s.save = .ok ()) :
    Timely {} manifests hook { adapter := demoAdapter }
        (demoCall store "u1" (.createAgentRun demoCreate)) ∧
      DemoAt (Hosted.step {} manifests hook { adapter := demoAdapter }
        (demoCall store "u1" (.createAgentRun demoCreate))) ["u1"]
        demoAdapter (demoRun 0 .planning [] none) none none none := by
  obtain ⟨snapshot, hsnapshot⟩ := @demo_inspects hook _ _ demo_project rfl
  have hid : newRunId ⟨⟨"u1", .user, .releaseManager⟩, "k1"⟩ demoCreate = demoRunId :=
    demoRunId_eq.symm
  have hquestions : [demoQuestion] = demoCreate.initialQuestions.zipIdx.map
      fun asked => openedQuestion demoRunId asked.2 asked.1 := by
    rw [demoQuestion_eq]
    rfl
  have hblocking : [demoQuestion].any (·.blocking) = false := by
    simp [demo_question.1]
  have hunlimited : Limited none none none := ⟨by simp, rfl⟩
  have hdone := @Done.created _ {} {} ⟨⟨"u1", .user, .releaseManager⟩, "k1"⟩
    ⟨demoAdapter.answers hook, .ok 0, .ok 0, store⟩ demoCreate snapshot [demoQuestion] none none
    (demoRun 0 .planning [] none) hsnapshot rfl (hid.symm ▸ hquestions) hunlimited hunlimited (by
      rw [hid, hblocking]
      rfl)
  obtain ⟨haccepts, result, hstep, hattended⟩ := @demo_serves manifests hook
    { adapter := demoAdapter } store [] attended_init "u1" (.createAgentRun demoCreate) _ _
    List.not_mem_nil (by decide) hstore hdone
  have htimely : Timely {} manifests hook { adapter := demoAdapter }
      (demoCall store "u1" (.createAgentRun demoCreate)) := ⟨haccepts, fun _ => trivial⟩
  have htrack := (onTrack_init demoAdapter).step htimely
  rw [hstep] at htrack ⊢
  refine ⟨htimely, htrack, hattended, rfl, ?_, ?_, rfl, rfl, rfl⟩
  · simp only [GatewayState.publish, hid, Dict.set_self]
  · simp only [GatewayState.publish, List.map_cons, List.map_nil, Dict.update, List.foldl_cons,
      List.foldl_nil, Dict.set_self]

theorem DemoAt.preconditions {actors : List String} {a : InMemory} {state : ProjectState}
    {run : AgentRun} {preview : Option PatchPreview} {approval : Option ApprovalRequestRecord}
    {receipt : Option ApprovalReceipt} (hat : DemoAt h actors a run preview approval receipt)
    (hstate : a.projects "demo" = some state) (hrevision : state.projectRevision = demoRevision)
    (hproject : run.projectId = "demo") (hpinned : run.projectRevision = demoRevision) :
    Addressed h.gateway ⟨h.adapter.answers hook, .ok 0, .ok 0, store⟩ demoRunId "demo" demoRevision
      run.runRevision run := by
  rw [hat.adapter]
  exact ⟨⟨hat.run, hproject, hpinned⟩, demo_inspects hstate hrevision, rfl⟩

theorem demo_open {s : GatewayState} {question : QuestionRecord} {run : AgentRun}
    (hquestion : s.questions demoQuestion.questionId = some question)
    (hblocking : question.blocking = false) (hrun : run.questionIds = [demoQuestion.questionId]) :
    openBlockingQuestions s run = .ok [] := by
  unfold openBlockingQuestions
  rw [hrun]
  simp [hquestion, hblocking, bind, Except.bind, pure, Except.pure]

theorem demo_previewed (hstore : ∀ s ∈ store, s.load = .ok () ∧ s.save = .ok ())
    (hat : DemoAt h ["u1"] demoAdapter (demoRun 0 .planning [] none) none none none) :
    Timely {} manifests hook h (demoCall store "u2" (.previewPatch demoPreviews)) ∧
      DemoAt (h.step {} manifests hook (demoCall store "u2" (.previewPatch demoPreviews)))
        ["u1", "u2"] demoAdapter (demoRun 1 .awaitingStageApproval [demoApprovalId] none)
        (some demoPreview) (some demoApproval) none := by
  have hrun := @DemoAt.preconditions hook _ store _ _ _ _ _ _ _ hat demo_project rfl rfl rfl
  have hpreview : (h.adapter.answers hook).previewPatch "demo" demoRevision demoPatch =
      .ok demoPreview := by
    rw [hat.adapter, demoPreview_eq]
    exact InMemory.previewPatch_returns demo_project rfl rfl demo_applies
  have hopen : ∀ existing ∈ h.gateway.approvals demoApprovalId, existing.decision ≠ .rejected := by
    rw [hat.approval]
    intro existing hexisting
    cases hexisting
  have hasked : Requested h.gateway ⟨h.adapter.answers hook, .ok 0, .ok 0, store⟩
      (stageApprovalId demoRunId demoPreview.previewDigest) (demoRun 0 .planning [] none) .stage
      demoPreview.previewDigest demoApproval.summary demoApproval := by
    rw [← demoApprovalId_eq]
    exact ⟨hopen, 0, rfl, rfl⟩
  have hdone := @Done.previewed _ {} h.gateway ⟨⟨"u2", .user, .releaseManager⟩, "k1"⟩
    ⟨h.adapter.answers hook, .ok 0, .ok 0, store⟩ demoPreviews _ _ _ _ hrun
    (demo_open hat.question demo_question.1 rfl) rfl hpreview hasked rfl
  obtain ⟨haccepts, result, hstep, hattended⟩ := @demo_serves manifests hook h store _
    hat.attended "u2" (.previewPatch demoPreviews) _ _ (by decide) (by decide) hstore hdone
  have htimely : Timely {} manifests hook h (demoCall store "u2" (.previewPatch demoPreviews)) :=
    ⟨haccepts, fun _ => trivial⟩
  have htrack := hat.track.step htimely
  rw [hstep] at htrack ⊢
  refine ⟨htimely, htrack, hattended, hat.adapter, ?_, hat.question, ?_, ?_, hat.receipt⟩
  · exact Dict.set_self h.gateway.runs demoRunId _
  · simp only [GatewayState.publish, Dict.set_self]
  · exact Dict.set_self h.gateway.approvals demoApprovalId _

theorem demo_approved (hstore : ∀ s ∈ store, s.load = .ok () ∧ s.save = .ok ())
    (hat : DemoAt h ["u1", "u2"] demoAdapter
      (demoRun 1 .awaitingStageApproval [demoApprovalId] none) (some demoPreview) (some demoApproval)
      none) :
    Timely {} manifests hook h (demoCall store "u3" (.decideApproval demoApproves)) ∧
      DemoAt (h.step {} manifests hook (demoCall store "u3" (.decideApproval demoApproves)))
        ["u1", "u2", "u3"] demoAdapter (demoRun 2 .awaitingStageApproval [demoApprovalId] none)
        (some demoPreview) (some { demoApproval with decision := .approved })
        (some demoReceipt) := by
  have hrun := @DemoAt.preconditions hook _ store _ _ _ _ _ _ _ hat demo_project rfl rfl rfl
  have hdone := @Done.decided _ {} h.gateway ⟨⟨"u3", .user, .releaseManager⟩, "k1"⟩
    ⟨h.adapter.answers hook, .ok 0, .ok 0, store⟩ demoApproves _ _ demoApproval .approved 0
    demoReceipt rfl hrun hat.approval rfl rfl rfl rfl demoReceipt_eq rfl
  obtain ⟨haccepts, result, hstep, hattended⟩ := @demo_serves manifests hook h store _
    hat.attended "u3" (.decideApproval demoApproves) _ _ (by decide) (by decide) hstore hdone
  have htimely : Timely {} manifests hook h
      (demoCall store "u3" (.decideApproval demoApproves)) := by
    refine ⟨haccepts, fun _ hreject => ?_⟩
    cases hreject
  have htrack := hat.track.step htimely
  rw [hstep] at htrack ⊢
  refine ⟨htimely, htrack, hattended, hat.adapter, ?_, hat.question, hat.preview, ?_, ?_⟩
  · exact Dict.set_self h.gateway.runs demoRunId _
  · have hid : demoApproval.approvalId = demoApprovalId := rfl
    simp only [GatewayState.publish, hid, Dict.set_self]
  · simp only [GatewayState.publish, Dict.set_self]

theorem demo_stage_done
    (hat : DemoAt h ["u1", "u2", "u3"] demoAdapter
      (demoRun 2 .awaitingStageApproval [demoApprovalId] none) (some demoPreview)
      (some { demoApproval with decision := .approved }) (some demoReceipt)) :
    ∃ payload effects, Done {} h.gateway ⟨⟨"u4", .user, .releaseManager⟩, "k1"⟩
      ⟨h.adapter.answers hook, .ok 0, .ok 0, store⟩ (.stageDesignPatch demoStages)
      ⟨{ h.gateway with
        runs := h.gateway.runs.set demoRunId
          (demoRun 3 .staged [demoApprovalId] (some demoPreview.prospectiveRevision)) },
        payload, demoRevision⟩ effects := by
  have hrun := @DemoAt.preconditions hook _ store _ _ _ _ _ _ _ hat demo_project rfl rfl rfl
  have hpatch : demoPreview.patchDigest = demoPatch.digest := by
    rw [demoPreview_eq]
    rfl
  have happroves : Approves demoReceipt
      (demoRun 2 .awaitingStageApproval [demoApprovalId] none) .stage
      demoPreview.previewDigest := by
    rw [demoReceipt_eq]
    exact ⟨rfl, rfl, rfl, rfl⟩
  have hstage : (h.adapter.answers hook).stagePatch "demo" demoRevision demoPatch
      demoPreview.previewDigest = .ok (InMemory.stageOf "demo" demoPreview) := by
    have hanswer : (demoAdapter.answers hook).stagePatch "demo" demoRevision demoPatch
        demoPreview.previewDigest = (demoAdapter.stagePatch "demo" demoRevision demoPatch
          demoPreview.previewDigest).map Prod.fst := rfl
    rw [hat.adapter, hanswer, demo_stages]
    rfl
  exact ⟨_, _, @Done.staged _ {} h.gateway _ ⟨h.adapter.answers hook, .ok 0, .ok 0, store⟩
    demoStages _ _ demoPreview demoReceipt (InMemory.stageOf "demo" demoPreview) hrun rfl
    hat.preview hpatch hat.receipt happroves hstage rfl⟩

theorem demo_staged (hstore : ∀ s ∈ store, s.load = .ok () ∧ s.save = .ok ())
    (hat : DemoAt h ["u1", "u2", "u3"] demoAdapter
      (demoRun 2 .awaitingStageApproval [demoApprovalId] none) (some demoPreview)
      (some { demoApproval with decision := .approved }) (some demoReceipt)) :
    Timely {} manifests hook h (demoCall store "u4" (.stageDesignPatch demoStages)) ∧
      DemoAt (h.step {} manifests hook (demoCall store "u4" (.stageDesignPatch demoStages)))
        ["u1", "u2", "u3", "u4"] demoStaged
        (demoRun 3 .staged [demoApprovalId] (some demoPreview.prospectiveRevision))
        (some demoPreview) (some { demoApproval with decision := .approved })
        (some demoReceipt) := by
  obtain ⟨payload, effects, hdone⟩ := @demo_stage_done hook h store hat
  obtain ⟨haccepts, result, hstep, hattended⟩ := @demo_serves manifests hook h store _
    hat.attended "u4" (.stageDesignPatch demoStages) _ _ (by decide) (by decide) hstore hdone
  have htimely : Timely {} manifests hook h
      (demoCall store "u4" (.stageDesignPatch demoStages)) := ⟨haccepts, fun _ => trivial⟩
  have hadapter : (h.step {} manifests hook
      (demoCall store "u4" (.stageDesignPatch demoStages))).adapter = demoStaged := by
    obtain ⟨hheld, -⟩ | ⟨-, -, -, hmoved⟩ := hat.track.moves htimely
    · exact absurd (hat.attended.keys _ hheld) (show "u4" ∉ ["u1", "u2", "u3"] by decide)
    · obtain ⟨stage, hstaged⟩ := hmoved.stages
      have hboth := hat.adapter ▸ hstaged
      have hsame := hboth.symm.trans demo_stages
      exact (Prod.mk.inj (Except.ok.inj hsame)).2
  have htrack := hat.track.step htimely
  rw [hstep] at htrack hadapter ⊢
  refine ⟨htimely, htrack, hattended, hadapter, ?_, hat.question, hat.preview, hat.approval,
    hat.receipt⟩
  exact Dict.set_self h.gateway.runs demoRunId _

theorem demo_answered (hstore : ∀ s ∈ store, s.load = .ok () ∧ s.save = .ok ())
    (hat : DemoAt h ["u1", "u2", "u3", "u4"] demoStaged
      (demoRun 3 .staged [demoApprovalId] (some demoPreview.prospectiveRevision))
      (some demoPreview) (some { demoApproval with decision := .approved }) (some demoReceipt)) :
    h.Accepts {} manifests hook (demoCall store "u5" (.answerQuestion demoAnswers)) ∧
      (h.step {} manifests hook (demoCall store "u5" (.answerQuestion demoAnswers))).adapter =
        demoStaged ∧
      (h.step {} manifests hook (demoCall store "u5" (.answerQuestion demoAnswers))).gateway.runs
        demoRunId =
          some (demoRun 4 .planning [demoApprovalId] (some demoPreview.prospectiveRevision)) := by
  have hproject : demoStaged.projects "demo" = some _ := InMemory.put_projects ..
  have hrun := @DemoAt.preconditions hook _ store _ _ _ _ _ _ _ hat hproject rfl rfl rfl
  obtain ⟨hblocking, hown, hunanswered, hoptions⟩ := demo_question
  have hopen := @demo_open { h.gateway with
    questions := h.gateway.questions.set demoQuestion.questionId { demoQuestion with
      answer := some "yes", answeredBy := some "u5", answeredAt := some 0 } } _
    (demoRun 3 .staged [demoApprovalId] (some demoPreview.prospectiveRevision))
    (Dict.set_self ..) hblocking rfl
  have hdone := @Done.answered _ {} h.gateway ⟨⟨"u5", .user, .releaseManager⟩, "k1"⟩
    ⟨h.adapter.answers hook, .ok 0, .ok 0, store⟩ demoAnswers _ _ demoQuestion _ 0 []
    rfl hrun hat.question hown hunanswered (fun hsome => absurd hoptions hsome) rfl rfl hopen rfl
  obtain ⟨haccepts, result, hstep, hattended⟩ := @demo_serves manifests hook h store _
    hat.attended "u5" (.answerQuestion demoAnswers) _ _ (by decide) (by decide) hstore hdone
  refine ⟨haccepts, ?_⟩
  rw [hstep]
  exact ⟨hat.adapter, Dict.set_self h.gateway.runs demoRunId _⟩

/-- The calls up to the approval of the patch. -/
def demoCalls (store : Option StoreTurn) : List HostCall :=
  [demoCall store "u1" (.createAgentRun demoCreate),
    demoCall store "u2" (.previewPatch demoPreviews),
    demoCall store "u3" (.decideApproval demoApproves)]

theorem demo_calls (hstore : ∀ s ∈ store, s.load = .ok () ∧ s.save = .ok ()) :
    Replay.Throughout (Hosted.step {} manifests hook) (Timely {} manifests hook)
        { adapter := demoAdapter } (demoCalls store) ∧
      DemoAt (hostedAfter {} manifests hook demoAdapter (demoCalls store)) ["u1", "u2", "u3"]
        demoAdapter (demoRun 2 .awaitingStageApproval [demoApprovalId] none) (some demoPreview)
        (some { demoApproval with decision := .approved }) (some demoReceipt) := by
  obtain ⟨hcreate, hcreated⟩ := @demo_created manifests hook store hstore
  obtain ⟨hpreview, hpreviewed⟩ := demo_previewed hstore hcreated
  obtain ⟨happrove, happroved⟩ := demo_approved hstore hpreviewed
  exact ⟨⟨hcreate, hpreview, happrove, trivial⟩, happroved⟩

def demoStageCall (store : Option StoreTurn) : HostCall :=
  demoCall store "u4" (.stageDesignPatch demoStages)

theorem demo_calls_staged (hstore : ∀ s ∈ store, s.load = .ok () ∧ s.save = .ok ()) :
    Replay.Throughout (Hosted.step {} manifests hook) (Timely {} manifests hook)
        { adapter := demoAdapter } (demoCalls store ++ [demoStageCall store]) ∧
      DemoAt (hostedAfter {} manifests hook demoAdapter (demoCalls store ++ [demoStageCall store]))
        ["u1", "u2", "u3", "u4"] demoStaged
        (demoRun 3 .staged [demoApprovalId] (some demoPreview.prospectiveRevision))
        (some demoPreview) (some { demoApproval with decision := .approved })
        (some demoReceipt) := by
  obtain ⟨hcalls, happroved⟩ := @demo_calls manifests hook store hstore
  obtain ⟨hstage, hstaged⟩ := demo_staged hstore happroved
  refine ⟨Replay.throughout_snoc.mpr ⟨hcalls, hstage⟩, ?_⟩
  rw [hostedAfter_snoc]
  exact hstaged

theorem lifecycle_forward_staged : MovesForward {} ⟨fun _ => "m"⟩ (fun _ _ _ _ => .ok [])
    demoAdapter (demoCalls none ++ [demoStageCall none]) :=
  lifecycle_forward _ _ _ _ _ (demo_calls_staged (by simp)).1

theorem demo_createdBy {c : HostCall} {r : AnswerQuestionRequest}
    (hc : c.request = .answerQuestion r) :
    CreatedBy {} manifests hook demoAdapter
      (demoCalls none ++ [demoStageCall none] ++ [c]) "demo" demoRunId := by
  obtain ⟨-, happroved⟩ := @demo_calls manifests hook none (by simp)
  obtain ⟨hstage, -⟩ := @demo_staged _ _ _ none (by simp) happroved
  have hnew : (hostedAfter {} manifests hook demoAdapter (demoCalls none)).gateway.idempotency
      (demoStageCall none).key = none := by
    by_contra hheld
    exact absurd (happroved.attended.keys _ hheld) (show "u4" ∉ ["u1", "u2", "u3"] by decide)
  have hstages : Hosted.Stages {} manifests hook "demo"
      (hostedAfter {} manifests hook demoAdapter (demoCalls none)) (demoStageCall none) :=
    ⟨hnew, hstage.accepts, demoStages, rfl, rfl⟩
  have hlater : ∀ h : Hosted, ¬ Hosted.Stages {} manifests hook "demo" h c := by
    rintro h ⟨-, -, r', hr', -⟩
    rw [hc] at hr'
    cases hr'
  exact ⟨demoCalls none, demoStageCall none, demoStages,
    (LastMoment.now hstages).later (hlater _), rfl, rfl⟩

def demoAnswerCall : HostCall := demoCall none "u5" (.answerQuestion demoAnswers)

def demoLate : List HostCall := demoCalls none ++ [demoStageCall none] ++ [demoAnswerCall]

theorem demo_late : Replay.Throughout (Hosted.step {} manifests hook)
      (Hosted.Accepts {} manifests hook) { adapter := demoAdapter } demoLate ∧
    (hostedAfter {} manifests hook demoAdapter demoLate).adapter = demoStaged ∧
    (hostedAfter {} manifests hook demoAdapter demoLate).gateway.runs demoRunId =
      some (demoRun 4 .planning [demoApprovalId] (some demoPreview.prospectiveRevision)) := by
  obtain ⟨hcalls, hstaged⟩ := @demo_calls_staged manifests hook none (by simp)
  obtain ⟨haccepts, hanswered⟩ := @demo_answered _ _ _ none (by simp) hstaged
  have haccepted := hcalls.mono fun h c (htimely : Timely {} manifests hook h c) => htimely.accepts
  refine ⟨hostedAfter_throughout.mpr ⟨haccepted, haccepts⟩, ?_⟩
  unfold demoLate
  rw [hostedAfter_snoc]
  exact hanswered

/-- A question that did not block the run is answered after a patch was staged: every call returns,
and the run plans again while the adapter holds the stage it created. -/
theorem late_answer_backward :
    Replay.Throughout (Hosted.step {} ⟨fun _ => "m"⟩ fun _ _ _ _ => .ok [])
        (Hosted.Accepts {} ⟨fun _ => "m"⟩ fun _ _ _ _ => .ok []) { adapter := demoAdapter }
        demoLate ∧
      ¬ MovesForward {} ⟨fun _ => "m"⟩ (fun _ _ _ _ => .ok []) demoAdapter demoLate := by
  obtain ⟨haccepts, hadapter, hrun⟩ := @demo_late ⟨fun _ => "m"⟩ fun _ _ _ _ => .ok []
  have hcreated : CreatedBy {} ⟨fun _ => "m"⟩ (fun _ _ _ _ => .ok []) demoAdapter demoLate "demo"
      demoRunId := @demo_createdBy ⟨fun _ => "m"⟩ (fun _ _ _ _ => .ok []) demoAnswerCall
        demoAnswers rfl
  refine ⟨haccepts, fun hforward => ?_⟩
  have hactive : (hostedAfter {} ⟨fun _ => "m"⟩ (fun _ _ _ _ => .ok []) demoAdapter
      demoLate).adapter.active "demo" = some (InMemory.stageOf "demo" demoPreview) := by
    rw [hadapter]
    exact InMemory.put_active ..
  obtain ⟨run, hheld, hon, -⟩ := hforward.staged "demo" demoRunId _ hactive hcreated
  rw [hrun, Option.some.injEq] at hheld
  subst hheld
  obtain hon | hon := hon
  · cases hon
  · cases hon

end Demo

end Evleda.Gateway
