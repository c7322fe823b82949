/-
The lifecycle of a run over the in-memory adapter.

The gateway moves a run along its states, and the adapter keeps what is staged.
They agree as long as every call comes in time: a run that is staged, or awaits
its release, holds the active stage of its project, and it is the only such run
of the project.

Two tools do not look at the state of the run.  An answer sends it back to
planning, and a rejection to planning or to staged, wherever it was.  Calls of
these that come late are all that stands between the code and a lifecycle that
only moves forward.
-/
import Evleda.Gateway.Approvals
import Evleda.Gateway.InMemory

namespace Evleda.Gateway

open Asking

/-! ### A gateway with its adapter -/

/-- A call as the host passes it on. -/
structure HostCall where
  invocation : Invocation
  request : Request
  capturedAt : Except Failure Instant
  actedAt : Except Failure Instant
  store : Option StoreTurn := none

/-- A gateway and the adapter it works on. -/
structure Hosted where
  gateway : GatewayState := {}
  adapter : InMemory

/-- What the adapter was asked, one question after the other. -/
def InMemory.afterAll [Hashing] (a : InMemory) (asked : List Asked) : InMemory :=
  asked.foldl InMemory.after a

section Hosting

variable [Hashing] (limits : Limits) (manifests : Manifests) (hook : VerificationHook)

/-- The call with what the adapter answers to it. -/
def HostCall.over (c : HostCall) (a : InMemory) : Call :=
  ⟨c.invocation, c.request, ⟨a.answers hook, c.capturedAt, c.actedAt, c.store⟩⟩

def Hosted.reply (h : Hosted) (c : HostCall) : Reply :=
  invoke limits manifests h.gateway (c.over hook h.adapter)

/-- The gateway and the adapter after a call. -/
def Hosted.step (h : Hosted) (c : HostCall) : Hosted :=
  ⟨(h.reply limits manifests hook c).gateway,
    h.adapter.afterAll (h.reply limits manifests hook c).asked⟩

/-- The call returns. -/
def Hosted.Accepts (h : Hosted) (c : HostCall) : Prop :=
  ∃ result, (h.reply limits manifests hook c).outcome = .ok result

/-- After calls, from a gateway without records. -/
def hostedAfter (adapter : InMemory) (calls : List HostCall) : Hosted :=
  replay (Hosted.step limits manifests hook) { adapter } calls

end Hosting

/-! ### What a call does to a run -/

namespace InMemory

variable [Hashing] {a : InMemory}

theorem afterAll_reads {asked : List Asked} (h : ∀ q ∈ asked, q.reads = true) :
    a.afterAll asked = a := by
  unfold afterAll
  induction asked with
  | nil => rfl
  | cons q asked ih =>
      have hq : a.after q = a := by
        have hreads := h q List.mem_cons_self
        cases q with
        | inspectProject projectId revision answer => rfl
        | previewPatch projectId revision patch answer => rfl
        | runVerification projectId revision stagedRevision answer => rfl
        | _ => cases hreads
      rw [List.foldl_cons, hq]
      exact ih fun q' hq' => h q' (List.mem_cons_of_mem _ hq')

theorem afterAll_looks {asked effects : List Asked} (h : Looks asked effects) :
    a.afterAll asked = a.afterAll effects := by
  obtain ⟨reads, rfl, hreads⟩ := h
  have hsame := @afterAll_reads _ a _ hreads
  unfold afterAll at hsame ⊢
  rw [List.foldl_append, hsame]

end InMemory

section Moves

variable [Hashing] {hook : VerificationHook} {a : InMemory} {s : GatewayState}
  {invocation : Invocation} {turn : Turn}

/-- A run is on a stage of its project: it can be verified, committed or rolled back. -/
def RunState.OnStage (state : RunState) : Prop := state = .staged ∨ state = .awaitingReleaseApproval

def RunState.Over (state : RunState) : Prop := state = .complete ∨ state = .rolledBack

/-- A run is replaced by a new version of it. -/
structure Revised (s : GatewayState) (runs' : Dict String AgentRun) (a : InMemory)
    (runId projectId : String) (run updated : AgentRun) : Prop where
  held : s.runs runId = some run
  project : run.projectId = projectId
  revision : a.revision projectId = some run.projectRevision
  runs : runs' = s.runs.set runId updated
  sameProject : updated.projectId = projectId

/-- The version still has the stage that the run had. -/
structure SameStage (run updated : AgentRun) : Prop where
  revision : updated.projectRevision = run.projectRevision
  staged : updated.stagedRevision = run.stagedRevision

/-- What an action that returned did to the runs and to the projects. -/
inductive Moved (a : InMemory) (s : GatewayState) (runs' : Dict String AgentRun) (a' : InMemory) :
    Request → Prop
  | looked {request : Request} (hruns : runs' = s.runs) (hprojects : a'.projects = a.projects)
      (htool : request.tool = .inspectProject ∨ request.tool = .exportProject) :
      Moved a s runs' a' request
  | created {r : CreateAgentRunRequest} (runId : String) (run : AgentRun)
      (hnew : s.runs runId = none) (hstate : run.state = .clarifying ∨ run.state = .planning)
      (hruns : runs' = s.runs.set runId run) (hadapter : a' = a) :
      Moved a s runs' a' (.createAgentRun r)
  | answered {r : AnswerQuestionRequest} (run updated : AgentRun)
      (hrevised : Revised s runs' a r.runId r.projectId run updated)
      (hstate : updated.state = .clarifying ∨ updated.state = .planning)
      (hadapter : a' = a) : Moved a s runs' a' (.answerQuestion r)
  | decided {r : DecideApprovalRequest} (run updated : AgentRun) (approval : ApprovalRequestRecord)
      (happroval : s.approvals r.approvalId = some approval) (howner : approval.runId = r.runId)
      (hrevised : Revised s runs' a r.runId r.projectId run updated) (hsame : SameStage run updated)
      (hstate : updated.state = if r.approve then run.state
        else if approval.kind = .stage then .planning else .staged)
      (hadapter : a' = a) : Moved a s runs' a' (.decideApproval r)
  | previewed {r : PreviewPatchRequest} (run updated : AgentRun)
      (hrevised : Revised s runs' a r.runId r.projectId run updated)
      (hbefore : run.state = .planning) (hstate : updated.state = .awaitingStageApproval)
      (hadapter : a' = a) : Moved a s runs' a' (.previewPatch r)
  | staged {r : StageDesignPatchRequest} (run updated : AgentRun) (stage : StageRecord)
      (hrevised : Revised s runs' a r.runId r.projectId run updated)
      (hbefore : run.state = .awaitingStageApproval) (hstate : updated.state = .staged)
      (hrevision : updated.projectRevision = run.projectRevision)
      (hstaged : updated.stagedRevision = some stage.stagedRevision)
      (hadapter : a.stagePatch r.projectId r.expectedProjectRevision r.patch r.previewDigest =
        .ok (stage, a')) : Moved a s runs' a' (.stageDesignPatch r)
  | verified {r : RunVerificationRequest} (run updated : AgentRun)
      (hrevised : Revised s runs' a r.runId r.projectId run updated) (hsame : SameStage run updated)
      (hbefore : run.state = .staged) (hstate : updated.state.OnStage)
      (hadapter : a' = a) : Moved a s runs' a' (.runVerification r)
  | committed {r : CommitTransactionRequest} (run updated : AgentRun) (newRevision : String)
      (hrevised : Revised s runs' a r.runId r.projectId run updated)
      (hbefore : run.state = .awaitingReleaseApproval)
      (hstate : updated.state = .complete)
      (hadapter : a.commit r.projectId r.expectedProjectRevision r.expectedStagedRevision =
        .ok (newRevision, a')) : Moved a s runs' a' (.commitTransaction r)
  | rolledBack {r : RollbackTransactionRequest} (run updated : AgentRun) (current : String)
      (hrevised : Revised s runs' a r.runId r.projectId run updated)
      (hbefore : run.state.OnStage) (hstate : updated.state = .rolledBack)
      (hadapter : a.rollback r.projectId r.expectedProjectRevision r.expectedStagedRevision =
        .ok (current, a')) : Moved a s runs' a' (.rollbackTransaction r)

omit [Hashing] in
/-- What an adapter operation answered, it did. -/
theorem map_fst_ok {α β : Type} {x : Except Failure (α × β)} {v : α} (h : x.map Prod.fst = .ok v) :
    ∃ b, x = .ok (v, b) := by
  cases x with
  | error e => cases h
  | ok pair =>
      obtain ⟨w, b⟩ := pair
      obtain rfl := Except.ok.inj h
      exact ⟨b, rfl⟩

theorem Addressed.revised {runId projectId expected : String} {runRevision : Int}
    {run updated : AgentRun} {runs' : Dict String AgentRun}
    (h : Addressed s turn runId projectId expected runRevision run) (hs : Sound s)
    (hadapter : turn.adapter = a.answers hook) (hruns : runs' = s.runs.set run.runId updated)
    (hproject : updated.projectId = run.projectId) :
    Revised s runs' a runId projectId run updated := by
  have hown := hs.runs _ _ h.held
  obtain ⟨snapshot, hsnapshot⟩ := h.inspected
  rw [hadapter] at hsnapshot
  refine ⟨h.held, h.project, ?_, ?_, hproject.trans h.project⟩
  · rw [h.revision]
    exact InMemory.inspectProject_revision hsnapshot
  · rw [← hown]
    exact hruns

theorem askCommit_plain (hadapter : turn.adapter = a.answers hook)
    (request : CommitTransactionRequest) (run : AgentRun) (report : VerificationReport)
    (receipt : ApprovalReceipt) : askCommit turn request run report receipt =
      ask (.commit request.projectId request.expectedProjectRevision request.expectedStagedRevision
        none) ((a.commit request.projectId request.expectedProjectRevision
          request.expectedStagedRevision).map Prod.fst) := by
  unfold askCommit
  rw [hadapter]
  rfl

/-- What an action that returned did. -/
theorem Done.moved {limits : Limits} (hs : Sound s) (hadapter : turn.adapter = a.answers hook)
    {request : Request} {applied : Applied} {effects : List Asked}
    (h : Done limits s invocation turn request applied effects) :
    Moved a s applied.gateway.runs (a.afterAll effects) request := by
  cases h with
  | inspected _ => exact .looked rfl rfl (Or.inl rfl)
  | created _ hnew _ _ _ hrun =>
      subst hrun
      refine .created _ _ hnew ?_ rfl rfl
      dsimp only
      split
      · exact Or.inl rfl
      · exact Or.inr rfl
  | answered _ hrun _ _ _ _ _ _ _ hupdated =>
      subst hupdated
      refine .answered _ _ (hrun.revised hs hadapter rfl rfl) ?_ rfl
      dsimp only
      split
      · exact Or.inr rfl
      · exact Or.inl rfl
  | decided _ hrun happroval hown _ _ _ _ hupdated =>
      subst hupdated
      exact .decided _ _ _ happroval (hown.trans (hs.runs _ _ hrun.held))
        (hrun.revised hs hadapter rfl rfl) ⟨rfl, rfl⟩ rfl rfl
  | previewed hrun _ hbefore _ _ hupdated =>
      subst hupdated
      exact .previewed _ _ (hrun.revised hs hadapter rfl rfl) hbefore rfl rfl
  | staged hrun hbefore _ _ _ _ hstage hupdated =>
      subst hupdated
      rw [hadapter] at hstage
      obtain ⟨a', ha'⟩ := map_fst_ok hstage
      refine .staged _ _ _ (hrun.revised hs hadapter rfl rfl) hbefore rfl rfl rfl (ha'.trans ?_)
      show _ = Except.ok (_, a.changed (a.stagePatch _ _ _ _))
      rw [ha']
      rfl
  | verified hrun hbefore _ _ _ _ _ hupdated =>
      subst hupdated
      exact .verified _ _ (hrun.revised hs hadapter rfl rfl) ⟨rfl, rfl⟩ hbefore (Or.inr rfl) rfl
  | failed hrun hbefore _ _ _ hupdated =>
      subst hupdated
      exact .verified _ _ (hrun.revised hs hadapter rfl rfl) ⟨rfl, rfl⟩ hbefore (Or.inl rfl) rfl
  | committed hrun hbefore _ _ _ _ _ _ hcommit hupdated =>
      subst hupdated
      rw [askCommit_plain hadapter] at hcommit ⊢
      obtain ⟨a', ha'⟩ := map_fst_ok hcommit
      have hafter : a.changed (a.commit _ _ _) = a' := congrArg a.changed ha'
      exact .committed _ _ _ (hrun.revised hs hadapter rfl rfl) hbefore rfl (hafter ▸ ha')
  | rolledBack hrun _ hbefore hrollback hupdated =>
      subst hupdated
      rw [hadapter] at hrollback
      obtain ⟨a', ha'⟩ := map_fst_ok hrollback
      have hafter : a.changed (a.rollback _ _ _) = a' := congrArg a.changed ha'
      exact .rolledBack _ _ _ (hrun.revised hs hadapter rfl rfl) hbefore rfl (hafter ▸ ha')
  | exported hartifact =>
      rw [hadapter] at hartifact
      obtain ⟨a', ha'⟩ := map_fst_ok hartifact
      refine .looked rfl ?_ (Or.inr rfl)
      show (a.changed (a.exportProject _ _ _)).projects = a.projects
      rw [ha']
      exact InMemory.exportProject_projects ha'

end Moves

/-! ### Calls in time -/

/-- The request does not come too late: no answer for a run that is on a stage or over, no rejection
for one that is over, and no rejection of a preview for one that is on a stage. -/
def InTime (s : GatewayState) : Request → Prop
  | .answerQuestion r => ∀ run, s.runs r.runId = some run → ¬ run.state.OnStage ∧ ¬ run.state.Over
  | .decideApproval r => r.approve = false → ∀ run approval, s.runs r.runId = some run →
      s.approvals r.approvalId = some approval →
        ¬ run.state.Over ∧ (approval.kind = .stage → ¬ run.state.OnStage)
  | _ => True

/-- The runs on a stage hold the active stages, no two of them one. -/
structure Tracked (runs : Dict String AgentRun) (a : InMemory) : Prop where
  holds : ∀ runId run, runs runId = some run → run.state.OnStage →
    ∃ stage, a.active run.projectId = some stage ∧ run.stagedRevision = some stage.stagedRevision ∧
      a.revision run.projectId = some run.projectRevision
  alone : ∀ runId run runId' run', runs runId = some run → runs runId' = some run' →
    run.state.OnStage → run'.state.OnStage → run.projectId = run'.projectId → runId = runId'

section Tracking

variable {a a' : InMemory} {runs : Dict String AgentRun} {runId projectId : String}
  {run updated : AgentRun}

namespace Tracked

theorem congr (h : Tracked runs a) (hprojects : a'.projects = a.projects) : Tracked runs a' := by
  refine ⟨fun runId run hrun hstate => ?_, h.alone⟩
  unfold InMemory.active InMemory.revision
  rw [hprojects]
  exact h.holds runId run hrun hstate

theorem set_off (h : Tracked runs a) (hoff : ¬ updated.state.OnStage) :
    Tracked (runs.set runId updated) a := by
  have hold : ∀ {id found}, runs.set runId updated id = some found → found.state.OnStage →
      runs id = some found := by
    intro id found hfound hstate
    obtain ⟨-, rfl⟩ | ⟨-, hold⟩ := Dict.set_eq_some hfound
    · exact absurd hstate hoff
    · exact hold
  constructor
  · intro id found hfound hstate
    exact h.holds id found (hold hfound hstate) hstate
  · intro id found id' found' hfound hfound' hstate hstate'
    exact h.alone id found id' found' (hold hfound hstate) (hold hfound' hstate') hstate hstate'

theorem set_on (h : Tracked runs a) (hrun : runs runId = some run) (hon : run.state.OnStage)
    (hsame : SameStage run updated) (hproject : updated.projectId = run.projectId) :
    Tracked (runs.set runId updated) a := by
  have hold : ∀ {id found}, runs.set runId updated id = some found → found.state.OnStage →
      ∃ old, runs id = some old ∧ old.state.OnStage ∧ old.projectId = found.projectId ∧
        old.stagedRevision = found.stagedRevision ∧
        old.projectRevision = found.projectRevision := by
    intro id found hfound hstate
    obtain ⟨rfl, rfl⟩ | ⟨-, hold⟩ := Dict.set_eq_some hfound
    · exact ⟨run, hrun, hon, hproject.symm, hsame.staged.symm, hsame.revision.symm⟩
    · exact ⟨found, hold, hstate, rfl, rfl, rfl⟩
  constructor
  · intro id found hfound hstate
    obtain ⟨old, hold, holdState, hsameProject, hstaged, hrevision⟩ := hold hfound hstate
    obtain ⟨stage, hactive, hstage, hcommitted⟩ := h.holds id old hold holdState
    refine ⟨stage, ?_, hstaged ▸ hstage, ?_⟩
    · rw [← hsameProject]
      exact hactive
    · rw [← hsameProject, ← hrevision]
      exact hcommitted
  · intro id found id' found' hfound hfound' hstate hstate' hprojects
    obtain ⟨old, hrun₁, hstate₁, hsameProject, -⟩ := hold hfound hstate
    obtain ⟨old', hrun₂, hstate₂, hsameProject', -⟩ := hold hfound' hstate'
    exact h.alone id old id' old' hrun₁ hrun₂ hstate₁ hstate₂
      (hsameProject.trans (hprojects.trans hsameProject'.symm))

theorem stage (h : Tracked runs a) {stage : StageRecord} (hnone : a.active projectId = none)
    (hactive : a'.active projectId = some stage) (hrevision : a'.revision projectId =
      a.revision projectId) (hothers : InMemory.Others projectId a a')
    (hproject : updated.projectId = projectId)
    (hstaged : updated.stagedRevision = some stage.stagedRevision)
    (hcommitted : a.revision projectId = some updated.projectRevision) :
    Tracked (runs.set runId updated) a' := by
  -- no run was on a stage of the project
  have hfree : ∀ {id found}, runs id = some found → found.state.OnStage →
      found.projectId ≠ projectId := by
    intro id found hfound hstate hsame
    obtain ⟨_, hactive, -⟩ := h.holds id found hfound hstate
    rw [hsame, hnone] at hactive
    cases hactive
  constructor
  · intro id found hfound hstate
    obtain ⟨rfl, rfl⟩ | ⟨-, hold⟩ := Dict.set_eq_some hfound
    · rw [hproject, hactive, hrevision]
      exact ⟨stage, rfl, hstaged, hcommitted⟩
    · have hne := hfree hold hstate
      rw [hothers.active hne, hothers.revision hne]
      exact h.holds id found hold hstate
  · intro id found id' found' hfound hfound' hstate hstate' hprojects
    obtain ⟨rfl, rfl⟩ | ⟨-, hold⟩ := Dict.set_eq_some hfound
    · obtain ⟨rfl, -⟩ | ⟨-, hold'⟩ := Dict.set_eq_some hfound'
      · rfl
      · exact absurd (hprojects.symm.trans hproject) (hfree hold' hstate')
    · obtain ⟨rfl, rfl⟩ | ⟨-, hold'⟩ := Dict.set_eq_some hfound'
      · exact absurd (hprojects.trans hproject) (hfree hold hstate)
      · exact h.alone id found id' found' hold hold' hstate hstate' hprojects

theorem unstage (h : Tracked runs a) (hrun : runs runId = some run) (hon : run.state.OnStage)
    (hproject : run.projectId = projectId) (hothers : InMemory.Others projectId a a')
    (hoff : ¬ updated.state.OnStage) : Tracked (runs.set runId updated) a' := by
  have hold : ∀ {id found}, runs.set runId updated id = some found → found.state.OnStage →
      runs id = some found ∧ found.projectId ≠ projectId := by
    intro id found hfound hstate
    obtain ⟨-, rfl⟩ | ⟨hne, hold⟩ := Dict.set_eq_some hfound
    · exact absurd hstate hoff
    · refine ⟨hold, fun hsame => hne ?_⟩
      exact h.alone id found runId run hold hrun hstate hon (hsame.trans hproject.symm)
  constructor
  · intro id found hfound hstate
    obtain ⟨hfound, hne⟩ := hold hfound hstate
    rw [hothers.active hne, hothers.revision hne]
    exact h.holds id found hfound hstate
  · intro id found id' found' hfound hfound' hstate hstate'
    exact h.alone id found id' found' (hold hfound hstate).1 (hold hfound' hstate').1 hstate hstate'

end Tracked

end Tracking

section Forward

variable [Hashing] {a a' : InMemory} {s : GatewayState} {runs' : Dict String AgentRun}
  {request : Request}

namespace RunState

section

omit [Hashing]

theorem OnStage.not_over {state : RunState} (h : state.OnStage) : ¬ state.Over := by
  rintro (rfl | rfl) <;> rcases h with h | h <;> cases h

theorem not_onStage {state : RunState} (h : state = .clarifying ∨ state = .planning ∨
    state = .awaitingStageApproval ∨ state = .complete ∨ state = .rolledBack) :
    ¬ state.OnStage := by
  rintro (hstate | hstate) <;> rw [hstate] at h <;> simp at h

theorem not_over {state : RunState} (h : state = .clarifying ∨ state = .planning ∨
    state = .awaitingStageApproval ∨ state = .staged ∨ state = .awaitingReleaseApproval) :
    ¬ state.Over := by
  rintro (hstate | hstate) <;> rw [hstate] at h <;> simp at h

end

end RunState

/-- The approval of a release that the records hold after an action was held before, for the same
run, or was asked for by its verification. -/
theorem Done.releases {limits : Limits} {invocation : Invocation} {turn : Turn} (hs : Sound s)
    {applied : Applied} {effects : List Asked}
    (h : Done limits s invocation turn request applied effects)
    {approvalId : String} {approval : ApprovalRequestRecord}
    (happroval : applied.gateway.approvals approvalId = some approval)
    (hkind : approval.kind = .release) :
    (∃ id old, s.approvals id = some old ∧ old.kind = .release ∧ old.runId = approval.runId) ∨
      ∃ r, request = .runVerification r ∧ approval.runId = r.runId := by
  have hsame : s.approvals approvalId = some approval →
      ∃ id old, s.approvals id = some old ∧ old.kind = .release ∧ old.runId = approval.runId :=
    fun hold => ⟨approvalId, approval, hold, hkind, rfl⟩
  cases h with
  | previewed _ _ _ _ hrequested _ =>
      obtain ⟨requestedAt, -, rfl⟩ := hrequested.record
      obtain ⟨-, rfl⟩ | ⟨-, hold⟩ := Dict.set_eq_some happroval
      · cases hkind
      · exact Or.inl (hsame hold)
  | decided _ _ hdecided _ _ _ _ _ _ =>
      obtain ⟨-, rfl⟩ | ⟨-, hold⟩ := Dict.set_eq_some happroval
      · exact Or.inl ⟨_, _, hdecided, hkind, rfl⟩
      · exact Or.inl (hsame hold)
  | verified hrun _ _ _ _ _ hrequested _ =>
      obtain ⟨requestedAt, -, rfl⟩ := hrequested.record
      obtain ⟨-, rfl⟩ | ⟨-, hold⟩ := Dict.set_eq_some happroval
      · exact Or.inr ⟨_, rfl, hs.runs _ _ hrun.held⟩
      · exact Or.inl (hsame hold)
  | _ => exact Or.inl (hsame happroval)

/-- A run whose release was asked for is on its stage, or over. -/
def Released (s : GatewayState) : Prop :=
  ∀ approvalId approval, s.approvals approvalId = some approval → approval.kind = .release →
    ∃ run, s.runs approval.runId = some run ∧ (run.state.OnStage ∨ run.state.Over)

omit [Hashing] in
/-- A decision in time changes the state of a run only where it rejects a preview of a run that is
not on a stage, or the release of one that is. -/
theorem decided_state (hreleased : Released s) {r : DecideApprovalRequest} {run updated : AgentRun}
    {approval : ApprovalRequestRecord} (hintime : InTime s (.decideApproval r))
    (hrun : s.runs r.runId = some run) (happroval : s.approvals r.approvalId = some approval)
    (howner : approval.runId = r.runId)
    (hstate : updated.state = if r.approve then run.state
      else if approval.kind = .stage then .planning else .staged) :
    updated.state = run.state ∨ (¬ run.state.OnStage ∧ ¬ run.state.Over ∧
      ¬ updated.state.OnStage ∧ ¬ updated.state.Over) ∨
      (run.state.OnStage ∧ updated.state.OnStage) := by
  by_cases happrove : r.approve = true
  · rw [if_pos happrove] at hstate
    exact Or.inl hstate
  · rw [if_neg happrove] at hstate
    obtain ⟨hover, hstage⟩ :=
      hintime (Bool.eq_false_iff.mpr happrove) run approval hrun happroval
    refine Or.inr ?_
    cases hkind : approval.kind with
    | stage =>
        rw [if_pos hkind] at hstate
        refine Or.inl ⟨hstage hkind, hover, ?_, ?_⟩
        · exact RunState.not_onStage (Or.inr (Or.inl hstate))
        · exact RunState.not_over (Or.inr (Or.inl hstate))
    | release =>
        have hnot : approval.kind ≠ .stage := by
          rw [hkind]
          decide
        rw [if_neg hnot] at hstate
        obtain ⟨run', hrun', hheld⟩ := hreleased _ _ happroval hkind
        rw [howner, hrun, Option.some.injEq] at hrun'
        subst hrun'
        exact Or.inr ⟨hheld.resolve_right hover, Or.inl hstate⟩

omit [Hashing] in
theorem Moved.tracked [Hashing] (h : Moved a s runs' a' request) (hintime : InTime s request)
    (hreleased : Released s) (htracked : Tracked s.runs a) : Tracked runs' a' := by
  cases h with
  | looked hruns hprojects htool =>
      rw [hruns]
      exact htracked.congr hprojects
  | created runId run hnew hstate hruns hadapter =>
      rw [hruns, hadapter]
      refine htracked.set_off (RunState.not_onStage ?_)
      exact hstate.imp_right Or.inl
  | answered run updated hrevised hstate hadapter =>
      rw [hrevised.runs, hadapter]
      refine htracked.set_off (RunState.not_onStage ?_)
      exact hstate.imp_right Or.inl
  | decided run updated approval happroval howner hrevised hsame hstate hadapter =>
      rw [hrevised.runs, hadapter]
      have hproject := hrevised.sameProject.trans hrevised.project.symm
      obtain hkept | ⟨-, -, hoff, -⟩ | ⟨hon, -⟩ :=
        decided_state hreleased hintime hrevised.held happroval howner hstate
      · by_cases hon : run.state.OnStage
        · exact htracked.set_on hrevised.held hon hsame hproject
        · refine htracked.set_off ?_
          rw [hkept]
          exact hon
      · exact htracked.set_off hoff
      · exact htracked.set_on hrevised.held hon hsame hproject
  | previewed run updated hrevised hbefore hstate hadapter =>
      rw [hrevised.runs, hadapter]
      exact htracked.set_off (RunState.not_onStage (Or.inr (Or.inr (Or.inl hstate))))
  | staged run updated stage hrevised hbefore hstate hrevision hstaged hadapter =>
      obtain ⟨hnone, hactive, hsame, hothers⟩ := InMemory.stagePatch_ok hadapter
      rw [hrevised.runs]
      refine htracked.stage hnone hactive hsame hothers hrevised.sameProject hstaged ?_
      rw [hrevision]
      exact hrevised.revision
  | verified run updated hrevised hsame hbefore hstate hadapter =>
      rw [hrevised.runs, hadapter]
      exact htracked.set_on hrevised.held (Or.inl hbefore) hsame
        (hrevised.sameProject.trans hrevised.project.symm)
  | committed run updated newRevision hrevised hbefore hstate hadapter =>
      obtain ⟨-, -, -, -, hothers⟩ := InMemory.commit_ok hadapter
      rw [hrevised.runs]
      refine htracked.unstage hrevised.held (Or.inr hbefore) hrevised.project hothers ?_
      exact RunState.not_onStage (Or.inr (Or.inr (Or.inr (Or.inl hstate))))
  | rolledBack run updated current hrevised hbefore hstate hadapter =>
      obtain ⟨-, -, -, hothers⟩ := InMemory.rollback_ok hadapter
      rw [hrevised.runs]
      refine htracked.unstage hrevised.held hbefore hrevised.project hothers ?_
      exact RunState.not_onStage (Or.inr (Or.inr (Or.inr (Or.inr hstate))))

/-- What becomes of a run by a move in time: one that is over stays as it is, and one that is on its
stage stays there, or is over and its project without a stage. -/
structure Kept (a' : InMemory) (run run' : AgentRun) : Prop where
  project : run'.projectId = run.projectId
  ended : run.state.Over → run'.state = run.state
  onStage : run.state.OnStage →
    run'.state.OnStage ∨ (run'.state.Over ∧ a'.active run.projectId = none)

theorem Moved.keeps (h : Moved a s runs' a' request) (hintime : InTime s request)
    (hreleased : Released s) {runId : String} {run : AgentRun} (hrun : s.runs runId = some run) :
    ∃ run', runs' runId = some run' ∧ Kept a' run run' := by
  have hsame : Kept a' run run := ⟨rfl, fun _ => rfl, Or.inl⟩
  -- a run that is replaced is another one, or is kept by its new version
  have hset : ∀ {id projectId : String} {found updated : AgentRun},
      Revised s runs' a id projectId found updated →
      (found.state.Over → updated.state = found.state) →
      (found.state.OnStage →
        updated.state.OnStage ∨ (updated.state.Over ∧ a'.active projectId = none)) →
      ∃ run', runs' runId = some run' ∧ Kept a' run run' := by
    intro id projectId found updated hrevised hover honStage
    rw [hrevised.runs]
    by_cases hid : runId = id
    · subst hid
      have hfound := hrevised.held
      rw [hrun, Option.some.injEq] at hfound
      subst hfound
      refine ⟨updated, Dict.set_self .., ?_, hover, ?_⟩
      · exact hrevised.sameProject.trans hrevised.project.symm
      · rw [hrevised.project]
        exact honStage
    · rw [Dict.set_of_ne _ _ hid]
      exact ⟨run, hrun, hsame⟩
  cases h with
  | looked hruns hprojects htool =>
      rw [hruns]
      exact ⟨run, hrun, hsame⟩
  | created id created hnew hstate hruns hadapter =>
      rw [hruns]
      have hne : runId ≠ id := by
        rintro rfl
        rw [hnew] at hrun
        cases hrun
      rw [Dict.set_of_ne _ _ hne]
      exact ⟨run, hrun, hsame⟩
  | answered found updated hrevised hstate hadapter =>
      obtain ⟨hoff, hnot⟩ := hintime found hrevised.held
      exact hset hrevised (fun hover => absurd hover hnot) (fun hon => absurd hon hoff)
  | decided found updated approval happroval howner hrevised hstage hstate hadapter =>
      obtain hkept | ⟨hoff, hnot, -⟩ | ⟨hon, hon'⟩ :=
        decided_state hreleased hintime hrevised.held happroval howner hstate
      · exact hset hrevised (fun _ => hkept) (fun hon => Or.inl (hkept ▸ hon))
      · exact hset hrevised (fun hover => absurd hover hnot) (fun hon => absurd hon hoff)
      · exact hset hrevised (fun hover => absurd hover hon.not_over) (fun _ => Or.inl hon')
  | previewed found updated hrevised hbefore hstate hadapter =>
      refine hset hrevised (fun hover => absurd hover ?_) (fun hon => absurd hon ?_)
      · exact RunState.not_over (Or.inr (Or.inl hbefore))
      · exact RunState.not_onStage (Or.inr (Or.inl hbefore))
  | staged found updated stage hrevised hbefore hstate hrevision hstaged hadapter =>
      refine hset hrevised (fun hover => absurd hover ?_) (fun hon => absurd hon ?_)
      · exact RunState.not_over (Or.inr (Or.inr (Or.inl hbefore)))
      · exact RunState.not_onStage (Or.inr (Or.inr (Or.inl hbefore)))
  | verified found updated hrevised hstage hbefore hstate hadapter =>
      refine hset hrevised (fun hover => absurd hover ?_) (fun _ => Or.inl hstate)
      exact RunState.OnStage.not_over (Or.inl hbefore)
  | committed found updated newRevision hrevised hbefore hstate hadapter =>
      obtain ⟨-, -, hnone, -⟩ := InMemory.commit_ok hadapter
      refine hset hrevised (fun hover => absurd hover ?_) (fun _ => Or.inr ⟨Or.inl hstate, hnone⟩)
      exact RunState.OnStage.not_over (Or.inr hbefore)
  | rolledBack found updated current hrevised hbefore hstate hadapter =>
      obtain ⟨-, hnone, -⟩ := InMemory.rollback_ok hadapter
      refine hset hrevised (fun hover => absurd hover ?_) (fun _ => Or.inr ⟨Or.inr hstate, hnone⟩)
      exact hbefore.not_over

theorem Moved.active (h : Moved a s runs' a' request) {projectId : String}
    (hother : ∀ r, request = .stageDesignPatch r → r.projectId ≠ projectId)
    (hactive : a'.active projectId ≠ none) : a.active projectId ≠ none := by
  have hothers : ∀ {id : String}, InMemory.Others id a a' → a'.active id = none →
      a.active projectId ≠ none := by
    intro id hothers hnone
    have hne : projectId ≠ id := by
      rintro rfl
      exact hactive hnone
    rw [← hothers.active hne]
    exact hactive
  cases h with
  | looked hruns hprojects htool =>
      unfold InMemory.active at hactive ⊢
      rw [← hprojects]
      exact hactive
  | staged found updated stage hrevised hbefore hstate hrevision hstaged hadapter =>
      obtain ⟨-, -, -, hothers⟩ := InMemory.stagePatch_ok hadapter
      rw [← hothers.active (hother _ rfl).symm]
      exact hactive
  | committed found updated newRevision hrevised hbefore hstate hadapter =>
      obtain ⟨-, -, hnone, -, hsame⟩ := InMemory.commit_ok hadapter
      exact hothers hsame hnone
  | rolledBack found updated current hrevised hbefore hstate hadapter =>
      obtain ⟨-, hnone, -, hsame⟩ := InMemory.rollback_ok hadapter
      exact hothers hsame hnone
  | created id created hnew hstate hruns hadapter => exact hadapter ▸ hactive
  | answered found updated hrevised hstate hadapter => exact hadapter ▸ hactive
  | decided found updated approval happroval howner hrevised hsame hstate hadapter =>
      exact hadapter ▸ hactive
  | previewed found updated hrevised hbefore hstate hadapter => exact hadapter ▸ hactive
  | verified found updated hrevised hsame hbefore hstate hadapter => exact hadapter ▸ hactive

theorem Moved.stager {r : StageDesignPatchRequest} (h : Moved a s runs' a' (.stageDesignPatch r)) :
    ∃ run, runs' r.runId = some run ∧ run.projectId = r.projectId ∧ run.state.OnStage := by
  cases h with
  | looked hruns hprojects htool => simp [Request.tool] at htool
  | staged found updated stage hrevised hbefore hstate hrevision hstaged hadapter =>
      refine ⟨updated, ?_, hrevised.sameProject, Or.inl hstate⟩
      rw [hrevised.runs]
      exact Dict.set_self ..

/-- A stage call does what the adapter does. -/
theorem Moved.stages {r : StageDesignPatchRequest} (h : Moved a s runs' a' (.stageDesignPatch r)) :
    ∃ stage, a.stagePatch r.projectId r.expectedProjectRevision r.patch r.previewDigest =
      .ok (stage, a') := by
  cases h with
  | looked hruns hprojects htool => simp [Request.tool] at htool
  | staged found updated stage hrevised hbefore hstate hrevision hstaged hadapter =>
      exact ⟨stage, hadapter⟩

theorem Moved.verifier {r : RunVerificationRequest} (h : Moved a s runs' a' (.runVerification r)) :
    ∃ run, runs' r.runId = some run ∧ run.state.OnStage := by
  cases h with
  | looked hruns hprojects htool => simp [Request.tool] at htool
  | verified found updated hrevised hsame hbefore hstate hadapter =>
      refine ⟨updated, ?_, hstate⟩
      rw [hrevised.runs]
      exact Dict.set_self ..

theorem Moved.released {limits : Limits} {invocation : Invocation} {turn : Turn}
    {applied : Applied} {effects : List Asked} (h : Moved a s applied.gateway.runs a' request)
    (hintime : InTime s request) (hreleased : Released s) (hs : Sound s)
    (hdone : Done limits s invocation turn request applied effects) :
    Released applied.gateway := by
  intro approvalId approval happroval hkind
  obtain ⟨id, old, hold, hkind', hrunId⟩ | ⟨r, rfl, hrunId⟩ :=
    hdone.releases hs happroval hkind
  · obtain ⟨run, hrun, hstate⟩ := hreleased id old hold hkind'
    obtain ⟨run', hrun', hkept⟩ := h.keeps hintime hreleased hrun
    rw [← hrunId]
    refine ⟨run', hrun', ?_⟩
    obtain hon | hover := hstate
    · exact (hkept.onStage hon).imp_right And.left
    · exact Or.inr (hkept.ended hover ▸ hover)
  · obtain ⟨run, hrun, hon⟩ := h.verifier
    rw [hrunId]
    exact ⟨run, hrun, Or.inl hon⟩

end Forward

end Evleda.Gateway
