/-
Whether a preview that was rejected can still be staged.

A decision leaves two traces.  The approval record of the preview is decided, and a
receipt is made that a stage can be asked for with.  The receipt stays; the record
does not, because a preview that is made once more asks for its approval once more,
unless the record says that it was rejected.

As long as no preview is made again that the run holds an approving receipt for, the
two traces agree: an approving receipt then means that the last decision on the
preview was to approve it.
-/
import Evleda.Gateway.Returns

namespace Evleda.Gateway

open Asking

section Rejections

variable [Hashing] {limits : Limits} {manifests : Manifests} {s s' : GatewayState}
  {invocation : Invocation} {turn : Turn} {calls : List Call} {c : Call}

/-! ### The decisions of a history -/

/-- A decision of a user on an approval of a run. -/
structure Verdict where
  runId : String
  kind : ApprovalKind
  subjectDigest : String
  decision : ApprovalDecision

/-- The decision on a preview of a run. -/
def Verdict.on (v : Verdict) (runId previewDigest : String) : Bool :=
  v.runId = runId ∧ v.kind = .stage ∧ v.subjectDigest = previewDigest

def decisionOf (approve : Bool) : ApprovalDecision := if approve then .approved else .rejected

/-- What a call decides: it is a decision that was applied. -/
def verdictOf (limits : Limits) (manifests : Manifests) (s : GatewayState) (c : Call) :
    Option Verdict :=
  match c.request with
  | .decideApproval request => do
      let _ ← freshResult limits manifests s c
      let approval ← s.approvals request.approvalId
      return ⟨request.runId, approval.kind, approval.subjectDigest, decisionOf request.approve⟩
  | _ => none

/-- The decisions of a history, one after another. -/
def verdicts (limits : Limits) (manifests : Manifests) (calls : List Call) : List Verdict :=
  Replay.observed (step limits manifests) (verdictOf limits manifests) {} calls

/-- The most recent decision on a preview of a run. -/
def lastDecision (limits : Limits) (manifests : Manifests) (calls : List Call)
    (runId previewDigest : String) : Option ApprovalDecision :=
  (((verdicts limits manifests calls).filter (·.on runId previewDigest)).getLast?).map
    Verdict.decision

theorem lastDecision_snoc (calls : List Call) (c : Call) (runId previewDigest : String) :
    lastDecision limits manifests (calls ++ [c]) runId previewDigest =
      match verdictOf limits manifests (recordsAfter limits manifests calls) c with
      | none => lastDecision limits manifests calls runId previewDigest
      | some v => if v.on runId previewDigest then some v.decision
          else lastDecision limits manifests calls runId previewDigest := by
  have hsnoc : verdicts limits manifests (calls ++ [c]) = verdicts limits manifests calls ++
      (verdictOf limits manifests (recordsAfter limits manifests calls) c).toList :=
    Replay.observed_snoc
  unfold lastDecision
  rw [hsnoc]
  cases verdictOf limits manifests (recordsAfter limits manifests calls) c with
  | none => rw [Option.toList_none, List.append_nil]
  | some v =>
      rw [Option.toList_some, List.filter_append]
      by_cases hon : v.on runId previewDigest
      · simp [hon]
      · simp [hon]

/-! ### What a call does to approvals and receipts -/

def ApprovesStage (receipt : ApprovalReceipt) (runId previewDigest : String) : Prop :=
  receipt.runId = runId ∧ receipt.kind = .stage ∧ receipt.subjectDigest = previewDigest ∧
    receipt.decision = .approved

/-- The run holds an approving receipt for the preview. -/
def Approved (s : GatewayState) (runId previewDigest : String) : Prop :=
  ∃ receiptId receipt, s.receipts receiptId = some receipt ∧
    ApprovesStage receipt runId previewDigest

/-- What an action that returned did to the approvals and the receipts. -/
inductive Proceeds (s s' : GatewayState) (turn : Turn) : Request → Prop
  | keeps {request : Request} (hrequest : request.tool ≠ .decideApproval)
      (happrovals : s'.approvals = s.approvals) (hreceipts : s'.receipts = s.receipts) :
      Proceeds s s' turn request
  | asks {request : Request} (hrequest : request.tool ≠ .decideApproval) {approvalId : String}
      {approval : ApprovalRequestRecord} (hkind : approval.kind ≠ .stage)
      (happrovals : s'.approvals = s.approvals.set approvalId approval)
      (hreceipts : s'.receipts = s.receipts) : Proceeds s s' turn request
  | previews {r : PreviewPatchRequest} {preview : PatchPreview} {approval : ApprovalRequestRecord}
      (hpreview : turn.adapter.previewPatch r.projectId r.expectedProjectRevision r.patch =
        .ok preview) (hrun : approval.runId = r.runId)
      (hsubject : approval.subjectDigest = preview.previewDigest)
      (happrovals : s'.approvals =
        s.approvals.set (stageApprovalId r.runId preview.previewDigest) approval)
      (hreceipts : s'.receipts = s.receipts) : Proceeds s s' turn (.previewPatch r)
  | decides {r : DecideApprovalRequest} {approval : ApprovalRequestRecord}
      {receipt : ApprovalReceipt} (hheld : s.approvals r.approvalId = some approval)
      (hpending : approval.decision = .pending) (hrun : approval.runId = r.runId)
      (happrovals : s'.approvals =
        s.approvals.set r.approvalId { approval with decision := decisionOf r.approve })
      (hreceipts : s'.receipts = s.receipts.set receipt.receiptId receipt)
      (hreceiptRun : receipt.runId = r.runId) (hreceiptKind : receipt.kind = approval.kind)
      (hreceiptSubject : receipt.subjectDigest = approval.subjectDigest)
      (hreceiptDecision : receipt.decision = decisionOf r.approve) :
      Proceeds s s' turn (.decideApproval r)

theorem Done.proceeds (hs : Sound s) {request : Request} {done : Applied} {effects : List Asked}
    (h : Done limits s invocation turn request done effects) :
    Proceeds s done.gateway turn request := by
  cases h with
  | @previewed _ _ _ _ approval hrun _ _ hpreview hrequested _ =>
      have hrunId := hs.runs _ _ hrun.held
      obtain ⟨requestedAt, -, hrecord⟩ := hrequested.record
      refine @Proceeds.previews _ _ _ _ _ _ approval hpreview ?_ ?_ ?_ rfl
      · rw [hrecord]
        exact hrunId
      · rw [hrecord]
      · show s.approvals.set approval.approvalId approval = _
        rw [hrecord, ← hrunId]
  | @decided r run _ approval _ _ _ _ hrun happroval hown hpending _ hdecision hreceipt _ =>
      subst hdecision hreceipt
      have hrunId := hs.runs _ _ hrun.held
      have hid := hs.approvals _ _ happroval
      refine .decides happroval hpending (hown.trans hrunId) ?_ rfl hrunId rfl rfl rfl
      show s.approvals.set approval.approvalId _ = _
      rw [hid]
      rfl
  | verified _ _ _ _ _ _ hrequested _ =>
      obtain ⟨requestedAt, -, rfl⟩ := hrequested.record
      exact .asks (by simp [Request.tool]) (by simp) rfl rfl
  | _ => exact .keeps (by simp [Request.tool]) rfl rfl

/-! ### Decisions that stand -/

/-- The call is applied and makes a preview again that the run holds an approving receipt for. -/
def PreviewedAgain (limits : Limits) (manifests : Manifests) (s : GatewayState) (c : Call) : Prop :=
  freshResult limits manifests s c ≠ none ∧ ∃ r preview, c.request = .previewPatch r ∧
    c.turn.adapter.previewPatch r.projectId r.expectedProjectRevision r.patch = .ok preview ∧
    Approved s r.runId preview.previewDigest

/-- What an approving receipt says of the decisions. -/
structure Standing (limits : Limits) (manifests : Manifests) (calls : List Call)
    (s : GatewayState) : Prop where
  places : ∀ approvalId a, s.approvals approvalId = some a → a.kind = .stage →
    approvalId = stageApprovalId a.runId a.subjectDigest
  decided : ∀ runId previewDigest, Approved s runId previewDigest →
    lastDecision limits manifests calls runId previewDigest = some .approved
  settled : ∀ approvalId a, s.approvals approvalId = some a → a.kind = .stage →
    Approved s a.runId a.subjectDigest → a.decision ≠ .pending

theorem Standing.other (h : Standing limits manifests calls s)
    (hreceipts : s'.receipts = s.receipts)
    (hlast : ∀ runId previewDigest,
      lastDecision limits manifests (calls ++ [c]) runId previewDigest =
        lastDecision limits manifests calls runId previewDigest)
    (happrovals : ∀ approvalId a, s'.approvals approvalId = some a → a.kind = .stage →
      s.approvals approvalId = some a ∨ (approvalId = stageApprovalId a.runId a.subjectDigest ∧
        ¬ Approved s a.runId a.subjectDigest)) :
    Standing limits manifests (calls ++ [c]) s' := by
  have happroved : ∀ {runId previewDigest}, Approved s' runId previewDigest →
      Approved s runId previewDigest := by
    rintro runId previewDigest ⟨receiptId, receipt, hheld, hof⟩
    rw [hreceipts] at hheld
    exact ⟨receiptId, receipt, hheld, hof⟩
  refine ⟨?_, ?_, ?_⟩
  · intro approvalId a ha hkind
    obtain hold | ⟨hid, -⟩ := happrovals approvalId a ha hkind
    · exact h.places approvalId a hold hkind
    · exact hid
  · intro runId previewDigest hof
    rw [hlast]
    exact h.decided runId previewDigest (happroved hof)
  · intro approvalId a ha hkind hof
    obtain hold | ⟨-, hnot⟩ := happrovals approvalId a ha hkind
    · exact h.settled approvalId a hold hkind (happroved hof)
    · exact absurd (happroved hof) hnot

theorem Standing.decides (h : Standing limits manifests calls s) {r : DecideApprovalRequest}
    {approval : ApprovalRequestRecord} {receipt : ApprovalReceipt}
    (hheld : s.approvals r.approvalId = some approval) (hpending : approval.decision = .pending)
    (hrun : approval.runId = r.runId)
    (happrovals : s'.approvals =
      s.approvals.set r.approvalId { approval with decision := decisionOf r.approve })
    (hreceipts : s'.receipts = s.receipts.set receipt.receiptId receipt)
    (hreceiptRun : receipt.runId = r.runId) (hreceiptKind : receipt.kind = approval.kind)
    (hreceiptSubject : receipt.subjectDigest = approval.subjectDigest)
    (hreceiptDecision : receipt.decision = decisionOf r.approve)
    (hlast : ∀ runId previewDigest,
      lastDecision limits manifests (calls ++ [c]) runId previewDigest =
        if Verdict.on ⟨r.runId, approval.kind, approval.subjectDigest, decisionOf r.approve⟩ runId
          previewDigest then some (decisionOf r.approve)
        else lastDecision limits manifests calls runId previewDigest) :
    Standing limits manifests (calls ++ [c]) s' := by
  -- a stage approval that was pending was not approved before
  have hopen : approval.kind = .stage → ¬ Approved s approval.runId approval.subjectDigest :=
    fun hkind hof => h.settled _ _ hheld hkind hof hpending
  have hcases : ∀ {runId previewDigest}, Approved s' runId previewDigest →
      Approved s runId previewDigest ∨ ApprovesStage receipt runId previewDigest := by
    rintro runId previewDigest ⟨receiptId, found, hfound, hof⟩
    rw [hreceipts] at hfound
    obtain ⟨-, rfl⟩ | ⟨-, hold⟩ := Dict.set_eq_some hfound
    · exact Or.inr hof
    · exact Or.inl ⟨receiptId, found, hold, hof⟩
  refine ⟨?_, ?_, ?_⟩
  · intro approvalId a ha hkind
    rw [happrovals] at ha
    obtain ⟨rfl, rfl⟩ | ⟨-, hold⟩ := Dict.set_eq_some ha
    · exact h.places _ approval hheld hkind
    · exact h.places approvalId a hold hkind
  · intro runId previewDigest hof
    rw [hlast]
    by_cases hon : Verdict.on ⟨r.runId, approval.kind, approval.subjectDigest,
      decisionOf r.approve⟩ runId previewDigest = true
    · rw [if_pos hon]
      have hsame : r.runId = runId ∧ approval.kind = .stage ∧
          approval.subjectDigest = previewDigest := by simpa [Verdict.on] using hon
      obtain hold | hnew := hcases hof
      · refine absurd hold ?_
        rw [← hsame.1, ← hsame.2.2, ← hrun]
        exact hopen hsame.2.1
      · rw [← hreceiptDecision, hnew.2.2.2]
    · rw [if_neg hon]
      obtain hold | hnew := hcases hof
      · exact h.decided runId previewDigest hold
      · refine absurd ?_ hon
        have hsame : r.runId = runId ∧ approval.kind = .stage ∧
            approval.subjectDigest = previewDigest :=
          ⟨hreceiptRun.symm.trans hnew.1, hreceiptKind.symm.trans hnew.2.1,
            hreceiptSubject.symm.trans hnew.2.2.1⟩
        simpa [Verdict.on] using hsame
  · intro approvalId a ha hkind hof
    rw [happrovals] at ha
    obtain ⟨-, rfl⟩ | ⟨hne, hold⟩ := Dict.set_eq_some ha
    · have hnot : ∀ approve : Bool, decisionOf approve ≠ .pending := by decide
      exact hnot r.approve
    · obtain happroved | hnew := hcases hof
      · exact h.settled approvalId a hold hkind happroved
      · -- the record of a preview has one place, and that one was just decided
        refine absurd ?_ hne
        have hkind' : approval.kind = .stage := hreceiptKind.symm.trans hnew.2.1
        rw [h.places approvalId a hold hkind, h.places _ approval hheld hkind', ← hnew.1,
          ← hnew.2.2.1, hreceiptRun, hreceiptSubject, hrun]

theorem Standing.step (h : Standing limits manifests calls (recordsAfter limits manifests calls))
    (hnot : ¬ PreviewedAgain limits manifests (recordsAfter limits manifests calls) c) :
    Standing limits manifests (calls ++ [c]) (recordsAfter limits manifests (calls ++ [c])) := by
  rw [recordsAfter_snoc]
  cases hresult : freshResult limits manifests (recordsAfter limits manifests calls) c with
  | none =>
      have hnone : verdictOf limits manifests (recordsAfter limits manifests calls) c = none := by
        unfold verdictOf
        rw [hresult]
        split <;> rfl
      rw [step_of_stale hresult]
      refine h.other rfl ?_ fun approvalId a ha _ => Or.inl ha
      intro runId previewDigest
      rw [lastDecision_snoc, hnone]
  | some result =>
      obtain ⟨done, effects, capturedAt, hacts, -, -, hstep, -⟩ := applied_of_fresh hresult
      have hsound := (@joint_of_calls _ limits manifests calls).sound
      have happlied : freshResult limits manifests (recordsAfter limits manifests calls) c ≠ none :=
        hresult.trans_ne (Option.some_ne_none result)
      have hproceeds := hacts.done.proceeds hsound
      rw [hstep]
      have hquiet : c.request.tool ≠ .decideApproval → ∀ runId previewDigest,
          lastDecision limits manifests (calls ++ [c]) runId previewDigest =
            lastDecision limits manifests calls runId previewDigest := by
        intro htool runId previewDigest
        have hnone : verdictOf limits manifests (recordsAfter limits manifests calls) c = none := by
          unfold verdictOf
          split
          · rename_i hrequest
            rw [hrequest] at htool
            exact absurd rfl htool
          · rfl
        rw [lastDecision_snoc, hnone]
      generalize hrequest : c.request = request at hproceeds hquiet
      cases hproceeds with
      | keeps htool happrovals hreceipts =>
          refine h.other hreceipts (hquiet htool) fun approvalId a ha _ => Or.inl ?_
          rw [← happrovals]
          exact ha
      | @asks _ htool _ approval hkind happrovals hreceipts =>
          refine h.other hreceipts (hquiet htool) fun approvalId a ha hstage => Or.inl ?_
          have hset : (done.gateway.publish c result).approvals = _ := happrovals
          rw [hset] at ha
          obtain ⟨-, rfl⟩ | ⟨-, hold⟩ := Dict.set_eq_some ha
          · exact absurd hstage hkind
          · exact hold
      | @previews r preview approval hpreview hrun hsubject happrovals hreceipts =>
          refine h.other hreceipts (hquiet (by simp [Request.tool])) fun approvalId a ha hstage => ?_
          have hset : (done.gateway.publish c result).approvals = _ := happrovals
          rw [hset] at ha
          obtain ⟨rfl, rfl⟩ | ⟨-, hold⟩ := Dict.set_eq_some ha
          · rw [hrun, hsubject]
            exact Or.inr ⟨rfl, fun hof => hnot ⟨happlied, r, preview, hrequest, hpreview, hof⟩⟩
          · exact Or.inl hold
      | @decides r approval receipt hheld hpending hrun happrovals hreceipts hreceiptRun hreceiptKind
          hreceiptSubject hreceiptDecision =>
          refine @Standing.decides _ _ _ _ (done.gateway.publish c result) _ _ h _ _ _ hheld hpending
            hrun happrovals hreceipts hreceiptRun hreceiptKind hreceiptSubject hreceiptDecision ?_
          intro runId previewDigest
          have hverdict : verdictOf limits manifests (recordsAfter limits manifests calls) c =
              some ⟨r.runId, approval.kind, approval.subjectDigest, decisionOf r.approve⟩ := by
            unfold verdictOf
            rw [hrequest]
            dsimp only
            rw [hresult, hheld]
            rfl
          rw [lastDecision_snoc, hverdict]

/-- No preview of the history is made again that its run holds an approving receipt for. -/
def NonePreviewedAgain (limits : Limits) (manifests : Manifests) (calls : List Call) : Prop :=
  Replay.Throughout (step limits manifests) (fun s c => ¬ PreviewedAgain limits manifests s c)
    {} calls

theorem standing_of_calls (hcalls : NonePreviewedAgain limits manifests calls) :
    Standing limits manifests calls (recordsAfter limits manifests calls) := by
  induction calls using List.reverseRecOn with
  | nil =>
      refine ⟨?_, ?_, ?_⟩
      · intro approvalId a ha
        cases ha
      · rintro runId previewDigest ⟨receiptId, receipt, hheld, -⟩
        cases hheld
      · intro approvalId a ha
        cases ha
  | append_singleton calls c ih =>
      obtain ⟨hbefore, hlast⟩ := Replay.throughout_snoc.mp hcalls
      exact (ih hbefore).step hlast

/-- **After calls that make no approved preview again, a preview is only staged if the last decision
of the run on it was to approve it.** -/
theorem staged_last_approved (limits : Limits) (manifests : Manifests) (calls : List Call)
    (hcalls : NonePreviewedAgain limits manifests calls) {c : Call}
    {request : StageDesignPatchRequest} {result : ToolResult}
    (hrequest : c.request = .stageDesignPatch request)
    (hresult : freshResult limits manifests (recordsAfter limits manifests calls) c = some result) :
    lastDecision limits manifests calls request.runId request.previewDigest = some .approved := by
  obtain ⟨done, effects, capturedAt, hacts, -⟩ := applied_of_fresh hresult
  have hsound := (@joint_of_calls _ limits manifests calls).sound
  have hdone := hacts.done
  rw [hrequest] at hdone
  cases hdone with
  | staged hrun _ _ _ hreceipt happroves _ _ =>
      have hrunId := hsound.runs _ _ hrun.held
      refine (standing_of_calls hcalls).decided _ _ ⟨_, _, hreceipt, ?_⟩
      exact ⟨happroves.run.trans hrunId, happroves.kind, happroves.subject, happroves.decision⟩

end Rejections

/-! ### A rejected preview that is staged -/

section Sample

attribute [local instance] plainHashing

def patchOf (patchId : String) : DesignPatch :=
  { patchId := patchId, baseRevision := "rev1", rationale := "rate"
    operations := [{ operationId := "o1", action := .setProperty, targetId := patchId }] }

/-- The preview of a patch, under a digest of its own. -/
def previewFor (patch : DesignPatch) : PatchPreview where
  projectId := "demo"
  baseRevision := "rev1"
  prospectiveRevision := "rev2"
  patchDigest := patch.digest
  previewDigest := String.ofList (List.replicate 64 (if patch.patchId = "p1" then 'a' else 'b'))
  operationSummaries := []

def stageFor (patch : DesignPatch) : StageRecord where
  transactionId := "t1"
  projectId := "demo"
  baseRevision := "rev1"
  stagedRevision := "rev2"
  patchDigest := patch.digest
  previewDigest := (previewFor patch).previewDigest

/-- An adapter with one project, which previews and stages what it is asked to. -/
def openAdapter : Adapter where
  inspectProject projectId _ := .ok ⟨projectId, "rev1", 0, 0, 0, none⟩
  previewPatch _ _ patch := .ok (previewFor patch)
  stagePatch _ _ patch _ := .ok (stageFor patch)
  runVerification _ _ _ := .error ⟨.other, ""⟩
  commit _ _ _ := .error ⟨.other, ""⟩
  commitWithEvidence := none
  rollback _ _ _ := .error ⟨.other, ""⟩
  exportProject _ _ _ := .error ⟨.other, ""⟩

def callOf (actorId : String) (request : Request) : Call :=
  ⟨⟨⟨actorId, .user, .releaseManager⟩, "k1"⟩, request, ⟨openAdapter, .ok 0, .ok 0, none⟩⟩

@[irreducible] def sampleRunId : String :=
  derivedId "run" [("tool", .str ToolName.createAgentRun.value), ("actor", .str "u1"),
    ("idempotency_key", .str "k1"), ("discriminator", .str "demo")]

def sampleSpec : QuestionSpec :=
  { prompt := "Prefer small parts?", rationale := "cost", blocking := false }

@[irreducible] def sampleQuestion : QuestionRecord := openedQuestion sampleRunId 0 sampleSpec

def sampleRun (runRevision : Int) (state : RunState) (approvalIds : List String) : AgentRun where
  runId := sampleRunId
  projectId := "demo"
  objective := "blink"
  projectRevision := "rev1"
  runRevision := runRevision
  state := state
  strictUserCoordination := true
  maxParallelAgents := none
  tokenBudget := none
  questionIds := [sampleQuestion.questionId]
  approvalIds := approvalIds

theorem derivedId_head (kind : String) {material : List (String × Json)} {front rest : List Char}
    (hrender : (Json.object material).canonical.render = front ++ rest) (hshort : front.length ≤ 32) :
    (derivedId kind material).toList.take (kind.toList.length + 1 + front.length) =
      kind.toList ++ '_' :: front := by
  have hdigest : ∀ text : List Char, (Hashing.sha256 text).toList = text :=
    fun text => String.toList_ofList
  have hunderscore : "_".toList = ['_'] := rfl
  unfold derivedId stableDigest
  simp only [String.toList_append, String.toList_ofList, hdigest, hunderscore]
  rw [hrender, List.append_assoc, Nat.add_assoc, List.take_length_add_append, Nat.add_comm 1,
    List.singleton_append, List.take_succ_cons, List.take_take, Nat.min_eq_left hshort,
    List.take_left]

@[irreducible] def firstApprovalId : String :=
  stageApprovalId sampleRunId (previewFor (patchOf "p1")).previewDigest

@[irreducible] def secondApprovalId : String :=
  stageApprovalId sampleRunId (previewFor (patchOf "p2")).previewDigest

/-- The beginning of the material of an approval, up to the first letter of the preview. -/
def approvalMark (c : Char) : List Char :=
  '\x7b' :: (Json.renderString "kind" ++ ':' :: ((Json.str "stage").render ++
    ',' :: (Json.renderString "preview" ++ [':', '"', c])))

theorem stageApprovalId_head {c : Char} (hc : c = 'a' ∨ c = 'b') (runId : String) :
    (stageApprovalId runId (String.ofList (List.replicate 64 c))).toList.take 37 =
      "approval".toList ++ '_' :: approvalMark c := by
  have hcanonical : (Json.object [("run", .str runId), ("kind", .str "stage"),
      ("preview", .str (String.ofList (List.replicate 64 c)))]).canonical =
      .obj [("kind", .str "stage"), ("preview", .str (String.ofList (List.replicate 64 c))),
        ("run", .str runId)] := by
    simp [Json.object, Json.canonical, Json.canonicalMembers]
  have hlength : (approvalMark c).length = 28 := by
    obtain rfl | rfl := hc <;> decide
  have hchar : Json.escapeChar c = [c] := by
    obtain rfl | rfl := hc <;> decide
  have hrender : ∃ rest, (Json.object [("run", .str runId), ("kind", .str "stage"),
      ("preview", .str (String.ofList (List.replicate 64 c)))]).canonical.render =
      approvalMark c ++ rest := by
    rw [hcanonical]
    have htext : Json.renderString (String.ofList (List.replicate 64 c)) =
        '"' :: c :: (Json.escapeChars (List.replicate 63 c) ++ ['"']) := by
      unfold Json.renderString
      rw [String.toList_ofList]
      show '"' :: ((c :: List.replicate 63 c).flatMap Json.escapeChar ++ _) = _
      rw [List.flatMap_cons, hchar]
      rfl
    refine ⟨Json.escapeChars (List.replicate 63 c) ++ '"' ::
      Json.renderMembers [("run", .str runId)], ?_⟩
    simp only [Json.render, Json.renderMembers, htext, approvalMark, List.cons_append,
      List.append_assoc, List.nil_append]
  obtain ⟨rest, hrender⟩ := hrender
  have hhead := derivedId_head "approval" hrender (by omega)
  rw [hlength] at hhead
  exact hhead

/-- The approvals of the two previews are different records. -/
theorem approvalIds_ne : secondApprovalId ≠ firstApprovalId := by
  have hfirst := stageApprovalId_head (Or.inl rfl : 'a' = 'a' ∨ 'a' = 'b') sampleRunId
  have hsecond := stageApprovalId_head (Or.inr rfl : 'b' = 'a' ∨ 'b' = 'b') sampleRunId
  intro h
  unfold firstApprovalId secondApprovalId at h
  have hsame := congrArg (fun id : String => id.toList.take 37) h
  have hpreviews : (previewFor (patchOf "p1")).previewDigest =
      String.ofList (List.replicate 64 'a') ∧ (previewFor (patchOf "p2")).previewDigest =
      String.ofList (List.replicate 64 'b') := ⟨rfl, rfl⟩
  rw [hpreviews.1, hpreviews.2] at hsame
  rw [hfirst, hsecond] at hsame
  exact absurd hsame (by decide)

def firstApproval (decision : ApprovalDecision) : ApprovalRequestRecord :=
  ⟨firstApprovalId, sampleRunId, .stage, (previewFor (patchOf "p1")).previewDigest,
    "Stage " ++ toString (patchOf "p1").operations.length ++ " typed design operations", decision, 0⟩

/-- The receipt of the decision that a user took at a revision of the run. -/
@[irreducible] def receiptOf (actorId : String) (runRevision : Int) (approvalIds : List String)
    (decision : ApprovalDecision) : ApprovalReceipt :=
  decidedReceipt ⟨⟨actorId, .user, .releaseManager⟩, "k1"⟩
    (sampleRun runRevision .awaitingStageApproval approvalIds) (firstApproval .pending) decision 0
    "reason"

/-- The receipts of two users are different records. -/
theorem receiptIds_ne {n n' : Int} {ids ids' : List String} {d d' : ApprovalDecision} :
    (receiptOf "u3" n ids d).receiptId ≠ (receiptOf "u6" n' ids' d').receiptId := by
  have hhead : ∀ (actorId : String) (n : Int) (ids : List String) (d : ApprovalDecision),
      (Json.str actorId).render.length = 4 →
      (receiptOf actorId n ids d).receiptId.toList.take 21 =
        "receipt".toList ++ '_' :: ('\x7b' :: (Json.renderString "actor" ++ ':' ::
          (Json.str actorId).render)) := by
    intro actorId n ids d hlength
    have hcanonical : (Json.object [("approval", .str firstApprovalId), ("decision", .str d.value),
        ("actor", .str actorId), ("key", .str "k1")]).canonical =
        .obj [("actor", .str actorId), ("approval", .str firstApprovalId),
          ("decision", .str d.value), ("key", .str "k1")] := by
      simp [Json.object, Json.canonical, Json.canonicalMembers]
    have hrender : (Json.object [("approval", .str firstApprovalId), ("decision", .str d.value),
        ("actor", .str actorId), ("key", .str "k1")]).canonical.render =
        ('\x7b' :: (Json.renderString "actor" ++ ':' :: (Json.str actorId).render)) ++
          Json.renderMembers [("approval", .str firstApprovalId), ("decision", .str d.value),
            ("key", .str "k1")] := by
      rw [hcanonical]
      simp only [Json.render, List.cons_append, List.append_assoc]
    have hkey : (Json.renderString "actor").length = 7 := by decide
    have hfront : ('\x7b' :: (Json.renderString "actor" ++ ':' ::
        (Json.str actorId).render)).length = 13 := by
      rw [List.length_cons, List.length_append, hkey, List.length_cons, hlength]
    have hderived := derivedId_head "receipt" hrender (by omega)
    rw [hfront] at hderived
    unfold receiptOf
    exact hderived
  intro h
  have hsame := congrArg (fun id : String => id.toList.take 21) h
  rw [hhead "u3" n ids d (by decide), hhead "u6" n' ids' d' (by decide)] at hsame
  exact absurd hsame (by decide)

/-! The calls: the run is created with a question that does not block it, a patch is previewed and
approved, the question is answered late, the patch is previewed again and rejected, another patch is
previewed, and the first one is staged. -/

def createRequest : Request := .createAgentRun
  { projectId := "demo", expectedProjectRevision := "rev1", objective := "blink"
    initialQuestions := [sampleSpec] }

def previewRequest (patchId : String) (runRevision : Int) : Request := .previewPatch
  { projectId := "demo", expectedProjectRevision := "rev1", runId := sampleRunId
    expectedRunRevision := runRevision, patch := patchOf patchId }

def decideRequest (runRevision : Int) (approve : Bool) : Request := .decideApproval
  { projectId := "demo", expectedProjectRevision := "rev1", runId := sampleRunId
    expectedRunRevision := runRevision, approvalId := firstApprovalId, approve := approve
    reason := "reason" }

def answerRequest : Request := .answerQuestion
  { projectId := "demo", expectedProjectRevision := "rev1", runId := sampleRunId
    expectedRunRevision := 2, questionId := sampleQuestion.questionId, answer := "yes" }

def stageRequest (runRevision : Int) : StageDesignPatchRequest where
  projectId := "demo"
  expectedProjectRevision := "rev1"
  runId := sampleRunId
  expectedRunRevision := runRevision
  patch := patchOf "p1"
  previewDigest := (previewFor (patchOf "p1")).previewDigest
  approvalReceiptId := (receiptOf "u3" 1 [firstApprovalId] .approved).receiptId

def reconsidered : List Call :=
  [callOf "u1" createRequest, callOf "u2" (previewRequest "p1" 0),
    callOf "u3" (decideRequest 1 true), callOf "u4" answerRequest,
    callOf "u5" (previewRequest "p1" 3), callOf "u6" (decideRequest 4 false),
    callOf "u7" (previewRequest "p2" 5)]

def sampleManifests : Manifests := ⟨fun _ => "m"⟩

/-- What the calls look at, after some of them. -/
structure SampleAt (calls : List Call) (actors : List String) (run : AgentRun) (answered : Bool)
    (preview : Option PatchPreview) (approval : Option ApprovalDecision)
    (other : Option ApprovalRequestRecord) (receipt : Option ApprovalReceipt)
    (last : Option ApprovalDecision) : Prop where
  attended : Attended (recordsAfter {} sampleManifests calls) actors
  run : (recordsAfter {} sampleManifests calls).runs sampleRunId = some run
  question : ∃ question, (recordsAfter {} sampleManifests calls).questions
    sampleQuestion.questionId = some question ∧ question.blocking = false ∧
      (answered = false → question = sampleQuestion)
  preview : (recordsAfter {} sampleManifests calls).previews
    (previewFor (patchOf "p1")).previewDigest = preview
  approval : (recordsAfter {} sampleManifests calls).approvals firstApprovalId =
    approval.map firstApproval
  other : (recordsAfter {} sampleManifests calls).approvals secondApprovalId = other
  receipt : (recordsAfter {} sampleManifests calls).receipts
    (receiptOf "u3" 1 [firstApprovalId] .approved).receiptId = receipt
  last : lastDecision {} sampleManifests calls sampleRunId
    (previewFor (patchOf "p1")).previewDigest = last

section Steps

variable {calls : List Call} {actors : List String} {run : AgentRun} {answered : Bool}
  {preview : Option PatchPreview} {approval : Option ApprovalDecision}
  {other : Option ApprovalRequestRecord} {receipt : Option ApprovalReceipt}
  {last : Option ApprovalDecision}

/-- A call by an actor who has not made one yet, whose action returns. -/
theorem callOf_step (hattended : Attended (recordsAfter {} sampleManifests calls) actors)
    {actorId : String} (request : Request) {done : Applied} {effects : List Asked}
    (hactor : actorId ∉ actors) (hlength : (Json.str actorId).render.length = 4)
    (hdone : Done {} (recordsAfter {} sampleManifests calls)
      ⟨⟨actorId, .user, .releaseManager⟩, "k1"⟩ ⟨openAdapter, .ok 0, .ok 0, none⟩ request done
      effects) :
    ∃ result, freshResult {} sampleManifests (recordsAfter {} sampleManifests calls)
        (callOf actorId request) = some result ∧
      recordsAfter {} sampleManifests (calls ++ [callOf actorId request]) =
        done.gateway.publish (callOf actorId request) result ∧
      Attended (done.gateway.publish (callOf actorId request) result) (actors ++ [actorId]) := by
  have htier : (requiredTier request.tool).value ≤ 30 := by
    cases request.tool <;> decide
  obtain ⟨result, hinvoke, hnext⟩ := @Attended.invoke {} sampleManifests _ _ hattended
    (callOf actorId request) _ _ _ hactor hlength (by simp [callOf]) htier rfl hdone
  refine ⟨result, ?_, ?_, hnext⟩
  · have hnew : (recordsAfter {} sampleManifests calls).idempotency (callOf actorId request).key =
        none := by
      by_contra hheld
      exact hactor (hattended.keys _ hheld)
    unfold freshResult
    rw [hnew]
    dsimp only
    rw [hinvoke]
    rfl
  · rw [recordsAfter_snoc]
    unfold step
    rw [hinvoke]

theorem SampleAt.preconditions
    (hat : SampleAt calls actors run answered preview approval other receipt last) {n : Int}
    {state : RunState} {ids : List String} (hrun : run = sampleRun n state ids) :
    Addressed (recordsAfter {} sampleManifests calls) ⟨openAdapter, .ok 0, .ok 0, none⟩ sampleRunId
      "demo" "rev1" n (sampleRun n state ids) := by
  have hheld := hat.run
  rw [hrun] at hheld
  exact ⟨⟨hheld, rfl, rfl⟩, ⟨_, rfl⟩, rfl⟩

theorem sample_created : SampleAt [callOf "u1" createRequest] ["u1"] (sampleRun 0 .planning [])
    false none none none none none := by
  have hquestions : [sampleQuestion] = [sampleSpec].zipIdx.map
      fun asked => openedQuestion sampleRunId asked.2 asked.1 := by
    unfold sampleQuestion
    rfl
  have hblocking : sampleQuestion.blocking = false := by
    unfold sampleQuestion
    rfl
  have hid : newRunId ⟨⟨"u1", .user, .releaseManager⟩, "k1"⟩
      { projectId := "demo", expectedProjectRevision := "rev1", objective := "blink"
        initialQuestions := [sampleSpec] } = sampleRunId := by
    unfold sampleRunId
    rfl
  have hunlimited : Limited none none none := ⟨by simp, rfl⟩
  have hdone := @Done.created _ {} {} ⟨⟨"u1", .user, .releaseManager⟩, "k1"⟩
    ⟨openAdapter, .ok 0, .ok 0, none⟩ _ ⟨"demo", "rev1", 0, 0, 0, none⟩ [sampleQuestion] none none
    (sampleRun 0 .planning []) rfl rfl (hid.symm ▸ hquestions) hunlimited hunlimited (by
      rw [hid]
      simp [hblocking]
      rfl)
  obtain ⟨result, -, hrecords, hattended⟩ := @callOf_step [] [] attended_init "u1"
    createRequest _ _ List.not_mem_nil (by decide) hdone
  rw [List.nil_append] at hrecords
  refine ⟨?_, ?_, ⟨sampleQuestion, ?_, hblocking, fun _ => rfl⟩, ?_, ?_, ?_, ?_, rfl⟩
  all_goals rw [hrecords]
  · exact hattended
  · simp only [GatewayState.publish, hid, Dict.set_self]
  · simp only [GatewayState.publish, List.map_cons, List.map_nil, Dict.update, List.foldl_cons,
      List.foldl_nil, Dict.set_self]
  · rfl
  · rfl
  · rfl
  · rfl

theorem SampleAt.open (hat : SampleAt calls actors run answered preview approval other receipt last)
    {run' : AgentRun} (hrun : run'.questionIds = [sampleQuestion.questionId]) :
    openBlockingQuestions (recordsAfter {} sampleManifests calls) run' = .ok [] := by
  obtain ⟨question, hquestion, hblocking, -⟩ := hat.question
  unfold openBlockingQuestions
  rw [hrun]
  simp [hquestion, hblocking, bind, Except.bind, pure, Except.pure]

theorem sample_previewed {n : Int} {ids : List String}
    (hat : SampleAt calls actors (sampleRun n .planning ids) answered preview approval other receipt
      last)
    (hopen : approval ≠ some .rejected) {actorId : String} (hactor : actorId ∉ actors)
    (hlength : (Json.str actorId).render.length = 4) :
    SampleAt (calls ++ [callOf actorId (previewRequest "p1" n)]) (actors ++ [actorId])
      (sampleRun (n + 1) .awaitingStageApproval (ids ++ [firstApprovalId])) answered
      (some (previewFor (patchOf "p1"))) (some .pending) other receipt last := by
  have hunrejected : ∀ existing ∈ (recordsAfter {} sampleManifests calls).approvals
      firstApprovalId, existing.decision ≠ .rejected := by
    rw [hat.approval]
    intro existing hexisting
    obtain ⟨decision, hdecision, rfl⟩ := Option.map_eq_some_iff.mp hexisting
    rintro rfl
    exact hopen hdecision
  have hasked : Requested (recordsAfter {} sampleManifests calls) ⟨openAdapter, .ok 0, .ok 0, none⟩
      (stageApprovalId sampleRunId (previewFor (patchOf "p1")).previewDigest)
      (sampleRun n .planning ids) .stage (previewFor (patchOf "p1")).previewDigest
      (firstApproval .pending).summary (firstApproval .pending) := by
    unfold firstApproval firstApprovalId at *
    exact ⟨hunrejected, 0, rfl, rfl⟩
  have hdone := @Done.previewed _ {} _ ⟨⟨actorId, .user, .releaseManager⟩, "k1"⟩ _
    { projectId := "demo", expectedProjectRevision := "rev1", runId := sampleRunId
      expectedRunRevision := n, patch := patchOf "p1" } _ _ (previewFor (patchOf "p1")) _
    (hat.preconditions rfl) (hat.open rfl) rfl rfl hasked rfl
  obtain ⟨result, -, hrecords, hattended⟩ := callOf_step hat.attended
    (previewRequest "p1" n) hactor hlength hdone
  refine ⟨?_, ?_, ?_, ?_, ?_, ?_, ?_, ?_⟩
  · rw [hrecords]
    exact hattended
  · rw [hrecords]
    exact Dict.set_self (recordsAfter {} sampleManifests calls).runs sampleRunId _
  · rw [hrecords]
    exact hat.question
  · rw [hrecords]
    exact Dict.set_self (recordsAfter {} sampleManifests calls).previews
      (previewFor (patchOf "p1")).previewDigest _
  · rw [hrecords]
    exact Dict.set_self (recordsAfter {} sampleManifests calls).approvals firstApprovalId _
  · rw [hrecords]
    exact (Dict.set_of_ne _ _ approvalIds_ne).trans hat.other
  · rw [hrecords]
    exact hat.receipt
  · rw [lastDecision_snoc]
    exact hat.last

theorem sample_decided {n : Int} {ids : List String}
    (hat : SampleAt calls actors (sampleRun n .awaitingStageApproval ids) answered preview
      (some .pending) other receipt last) (approve : Bool) {actorId : String} (hactor : actorId ∉ actors)
    (hlength : (Json.str actorId).render.length = 4) :
    SampleAt (calls ++ [callOf actorId (decideRequest n approve)]) (actors ++ [actorId])
      (sampleRun (n + 1) (if approve then .awaitingStageApproval else .planning) ids) answered
      preview (some (decisionOf approve)) other
      ((recordsAfter {} sampleManifests calls).receipts.set
        (receiptOf actorId n ids (decisionOf approve)).receiptId
        (receiptOf actorId n ids (decisionOf approve))
        (receiptOf "u3" 1 [firstApprovalId] .approved).receiptId)
      (some (decisionOf approve)) := by
  have hheld := hat.approval
  rw [Option.map_some] at hheld
  have hdone := @Done.decided _ {} (recordsAfter {} sampleManifests calls)
    ⟨⟨actorId, .user, .releaseManager⟩, "k1"⟩ ⟨openAdapter, .ok 0, .ok 0, none⟩
    { projectId := "demo", expectedProjectRevision := "rev1", runId := sampleRunId
      expectedRunRevision := n, approvalId := firstApprovalId, approve := approve
      reason := "reason" } _ _ (firstApproval .pending) (decisionOf approve) 0
    (receiptOf actorId n ids (decisionOf approve)) rfl (hat.preconditions rfl) hheld rfl rfl rfl rfl
    (by unfold receiptOf; rfl) rfl
  obtain ⟨result, hresult, hrecords, hattended⟩ := callOf_step hat.attended
    (decideRequest n approve) hactor hlength hdone
  have hid : (firstApproval .pending).approvalId = firstApprovalId := rfl
  refine ⟨?_, ?_, ?_, ?_, ?_, ?_, ?_, ?_⟩
  · rw [hrecords]
    exact hattended
  · rw [hrecords]
    exact Dict.set_self (recordsAfter {} sampleManifests calls).runs sampleRunId _
  · rw [hrecords]
    exact hat.question
  · rw [hrecords]
    exact hat.preview
  · rw [hrecords]
    exact Dict.set_self (recordsAfter {} sampleManifests calls).approvals firstApprovalId _
  · rw [hrecords]
    exact (Dict.set_of_ne _ _ approvalIds_ne).trans hat.other
  · rw [hrecords]
    rfl
  · have hverdict : verdictOf {} sampleManifests (recordsAfter {} sampleManifests calls)
        (callOf actorId (decideRequest n approve)) = some ⟨sampleRunId, .stage,
          (previewFor (patchOf "p1")).previewDigest, decisionOf approve⟩ := by
      unfold verdictOf callOf decideRequest at *
      dsimp only
      rw [hresult, hheld]
      rfl
    rw [lastDecision_snoc, hverdict]
    exact if_pos (by simp [Verdict.on])

theorem openBlockingQuestions_single {s : GatewayState} {run : AgentRun} {question : QuestionRecord}
    (hids : run.questionIds = [question.questionId]) (hblocking : question.blocking = false) :
    openBlockingQuestions
      { s with questions := s.questions.set question.questionId question } run = .ok [] := by
  unfold openBlockingQuestions
  rw [hids]
  simp [hblocking, bind, Except.bind, pure, Except.pure]

theorem sample_answered {ids : List String}
    (hat : SampleAt calls actors (sampleRun 2 .awaitingStageApproval ids) false preview approval
      other receipt last) {actorId : String} (hactor : actorId ∉ actors)
    (hlength : (Json.str actorId).render.length = 4) :
    SampleAt (calls ++ [callOf actorId answerRequest]) (actors ++ [actorId])
      (sampleRun 3 .planning ids) true preview approval other receipt last := by
  obtain ⟨question, hquestion, hblocking, hsame⟩ := hat.question
  obtain rfl := hsame rfl
  have hown : sampleQuestion.runId = sampleRunId ∧ sampleQuestion.answer = none ∧
      sampleQuestion.options = [] := by
    unfold sampleQuestion
    exact ⟨rfl, rfl, rfl⟩
  let answered : QuestionRecord := { sampleQuestion with
    answer := some "yes", answeredBy := some actorId, answeredAt := some 0 }
  have hremaining : openBlockingQuestions { recordsAfter {} sampleManifests calls with
      questions := (recordsAfter {} sampleManifests calls).questions.set
        sampleQuestion.questionId answered } (sampleRun 2 .awaitingStageApproval ids) = .ok [] :=
    @openBlockingQuestions_single (recordsAfter {} sampleManifests calls)
      (sampleRun 2 .awaitingStageApproval ids) answered rfl hblocking
  have hdone := @Done.answered _ {} (recordsAfter {} sampleManifests calls)
    ⟨⟨actorId, .user, .releaseManager⟩, "k1"⟩ ⟨openAdapter, .ok 0, .ok 0, none⟩
    { projectId := "demo", expectedProjectRevision := "rev1", runId := sampleRunId
      expectedRunRevision := 2, questionId := sampleQuestion.questionId, answer := "yes" } _ _
    sampleQuestion answered 0 [] rfl (hat.preconditions rfl) hquestion hown.1 hown.2.1
    (fun hsome => absurd hown.2.2 hsome) rfl rfl hremaining rfl
  obtain ⟨result, -, hrecords, hattended⟩ := callOf_step hat.attended
    answerRequest hactor hlength hdone
  refine ⟨?_, ?_, ⟨answered, ?_, hblocking, fun h => by cases h⟩, ?_, ?_, ?_, ?_, ?_⟩
  · rw [hrecords]
    exact hattended
  · rw [hrecords]
    exact Dict.set_self (recordsAfter {} sampleManifests calls).runs sampleRunId _
  · rw [hrecords]
    exact Dict.set_self (recordsAfter {} sampleManifests calls).questions
      sampleQuestion.questionId answered
  · rw [hrecords]
    exact hat.preview
  · rw [hrecords]
    exact hat.approval
  · rw [hrecords]
    exact hat.other
  · rw [hrecords]
    exact hat.receipt
  · rw [lastDecision_snoc]
    exact hat.last

theorem sample_other {n : Int} {ids : List String}
    (hat : SampleAt calls actors (sampleRun n .planning ids) answered preview approval none receipt
      last) {actorId : String} (hactor : actorId ∉ actors)
    (hlength : (Json.str actorId).render.length = 4) :
    ∃ other, SampleAt (calls ++ [callOf actorId (previewRequest "p2" n)]) (actors ++ [actorId])
      (sampleRun (n + 1) .awaitingStageApproval (ids ++ [secondApprovalId])) answered preview
      approval other receipt last := by
  have hopen : ∀ existing ∈ (recordsAfter {} sampleManifests calls).approvals secondApprovalId,
      existing.decision ≠ .rejected := by
    rw [hat.other]
    intro existing hexisting
    cases hexisting
  have hasked : Requested (recordsAfter {} sampleManifests calls) ⟨openAdapter, .ok 0, .ok 0, none⟩
      (stageApprovalId sampleRunId (previewFor (patchOf "p2")).previewDigest)
      (sampleRun n .planning ids) .stage (previewFor (patchOf "p2")).previewDigest
      (firstApproval .pending).summary ⟨secondApprovalId, sampleRunId, .stage,
        (previewFor (patchOf "p2")).previewDigest, (firstApproval .pending).summary, .pending, 0⟩ := by
    unfold secondApprovalId at *
    exact ⟨hopen, 0, rfl, rfl⟩
  have hdone := @Done.previewed _ {} _ ⟨⟨actorId, .user, .releaseManager⟩, "k1"⟩ _
    { projectId := "demo", expectedProjectRevision := "rev1", runId := sampleRunId
      expectedRunRevision := n, patch := patchOf "p2" } _ _ (previewFor (patchOf "p2")) _
    (hat.preconditions rfl) (hat.open rfl) rfl rfl hasked rfl
  obtain ⟨result, -, hrecords, hattended⟩ := callOf_step hat.attended
    (previewRequest "p2" n) hactor hlength hdone
  have hdigests : (previewFor (patchOf "p1")).previewDigest ≠
      (previewFor (patchOf "p2")).previewDigest := by
    intro h
    have hchars := String.ofList_injective h
    exact absurd (List.cons.inj hchars).1 (by decide)
  refine ⟨_, ?_, ?_, ?_, ?_, ?_, rfl, ?_, ?_⟩
  · rw [hrecords]
    exact hattended
  · rw [hrecords]
    exact Dict.set_self (recordsAfter {} sampleManifests calls).runs sampleRunId _
  · rw [hrecords]
    exact hat.question
  · rw [hrecords]
    exact (Dict.set_of_ne (recordsAfter {} sampleManifests calls).previews
      (previewFor (patchOf "p2")) hdigests).trans hat.preview
  · rw [hrecords]
    exact (Dict.set_of_ne _ _ approvalIds_ne.symm).trans hat.approval
  · rw [hrecords]
    exact hat.receipt
  · rw [lastDecision_snoc]
    exact hat.last

theorem sample_staged {n : Int} {ids : List String}
    (hat : SampleAt calls actors (sampleRun n .awaitingStageApproval ids) answered
      (some (previewFor (patchOf "p1"))) approval other receipt last)
    (hreceipt : receipt = some (receiptOf "u3" 1 [firstApprovalId] .approved)) {actorId : String}
    (hactor : actorId ∉ actors) (hlength : (Json.str actorId).render.length = 4) :
    ∃ result, freshResult {} sampleManifests (recordsAfter {} sampleManifests calls)
      (callOf actorId (.stageDesignPatch (stageRequest n))) = some result := by
  have happroves : Approves (receiptOf "u3" 1 [firstApprovalId] .approved)
      (sampleRun n .awaitingStageApproval ids) .stage
      (previewFor (patchOf "p1")).previewDigest := by
    unfold receiptOf
    exact ⟨rfl, rfl, rfl, rfl⟩
  have hdone := @Done.staged _ {} _ ⟨⟨actorId, .user, .releaseManager⟩, "k1"⟩ _ (stageRequest n) _ _
    _ _ (stageFor (patchOf "p1")) (hat.preconditions rfl) rfl hat.preview rfl
    (hat.receipt.trans hreceipt) happroves rfl rfl
  obtain ⟨result, hresult, -⟩ := callOf_step hat.attended
    (.stageDesignPatch (stageRequest n)) hactor hlength hdone
  exact ⟨result, hresult⟩

end Steps

theorem sample_approved : SampleAt [callOf "u1" createRequest, callOf "u2" (previewRequest "p1" 0),
      callOf "u3" (decideRequest 1 true)] ["u1", "u2", "u3"]
      (sampleRun 2 .awaitingStageApproval [firstApprovalId]) false
      (some (previewFor (patchOf "p1"))) (some .approved) none
      (some (receiptOf "u3" 1 [firstApprovalId] .approved)) (some .approved) := by
  have hpreviewed := sample_previewed sample_created (by decide) (show "u2" ∉ ["u1"] by decide)
    (by decide)
  have hdecided := sample_decided (n := 1) hpreviewed true (show "u3" ∉ ["u1", "u2"] by decide)
    (by decide)
  have hreceipt := Dict.set_self (recordsAfter {} sampleManifests
    ([callOf "u1" createRequest] ++ [callOf "u2" (previewRequest "p1" 0)])).receipts
    (receiptOf "u3" 1 [firstApprovalId] .approved).receiptId
    (receiptOf "u3" 1 [firstApprovalId] .approved)
  rw [← hreceipt]
  exact hdecided

theorem nonePreviewedAgain_sample : NonePreviewedAgain {} sampleManifests
    [callOf "u1" createRequest, callOf "u2" (previewRequest "p1" 0),
      callOf "u3" (decideRequest 1 true)] := by
  have hcreated : NonePreviewedAgain {} sampleManifests [callOf "u1" createRequest] := by
    refine ⟨?_, trivial⟩
    rintro ⟨-, r, preview, hrequest, -⟩
    cases hrequest
  refine ⟨hcreated.1, ?_, ?_, trivial⟩
  · rintro ⟨-, r, preview, hrequest, hpreview, happroved⟩
    cases hrequest
    cases hpreview
    have hlast := (standing_of_calls hcreated).decided _ _ happroved
    rw [sample_created.last] at hlast
    cases hlast
  · rintro ⟨-, r, preview, hrequest, -⟩
    cases hrequest

theorem staged_last_approved_sample : lastDecision {} sampleManifests
    [callOf "u1" createRequest, callOf "u2" (previewRequest "p1" 0),
      callOf "u3" (decideRequest 1 true)] sampleRunId (stageRequest 2).previewDigest =
    some .approved := by
  obtain ⟨result, hresult⟩ := sample_staged (n := 2) sample_approved rfl
    (show "u4" ∉ ["u1", "u2", "u3"] by decide) (by decide)
  exact @staged_last_approved _ {} sampleManifests _ nonePreviewedAgain_sample _ (stageRequest 2)
    result rfl hresult

/-- **A preview that was rejected last is staged under the receipt of its first decision.** -/
theorem rejected_preview_staged :
    lastDecision {} sampleManifests reconsidered sampleRunId (stageRequest 6).previewDigest =
      some .rejected ∧
    ∃ result, freshResult {} sampleManifests (recordsAfter {} sampleManifests reconsidered)
      (callOf "u8" (.stageDesignPatch (stageRequest 6))) = some result := by
  have hanswered := sample_answered sample_approved (show "u4" ∉ ["u1", "u2", "u3"] by decide)
    (by decide)
  have hagain := sample_previewed (n := 3) hanswered (by decide)
    (show "u5" ∉ ["u1", "u2", "u3", "u4"] by decide) (by decide)
  have hrejected := sample_decided (n := 4) hagain false
    (show "u6" ∉ ["u1", "u2", "u3", "u4", "u5"] by decide) (by decide)
  obtain ⟨other, hother⟩ := sample_other (n := 5) hrejected
    (show "u7" ∉ ["u1", "u2", "u3", "u4", "u5", "u6"] by decide) (by decide)
  refine ⟨hother.last, sample_staged (n := 6) hother ?_
    (show "u8" ∉ ["u1", "u2", "u3", "u4", "u5", "u6", "u7"] by decide) (by decide)⟩
  exact (Dict.set_of_ne _ _ receiptIds_ne).trans hagain.receipt

end Sample

end Evleda.Gateway
