/-
Whatever was written can be restored.

Each call that writes either changes nothing or does one of four things: it makes
a project, writes a snapshot of a transaction, adds an approval, or appends a
revision with its evidence and moves the anchor.  From the checks it made first it
follows that the project is intact again, and no other project has changed.  So
in every state that calls lead to, every project is intact and can be restored.
-/
import Evleda.ProjectStore.Accepting

namespace Evleda.ProjectStore

open Kernel Effect Outcome

/-! ### The calls on intact projects -/

section Sound

variable [UnicodeData] [Hashing] {keyring : Keyring} {s s' : StoreState} {projectId : String}
  {revisions : List Revision} {head : Revision}

/-- Every project of the store is intact. -/
def Sound (keyring : Keyring) (s : StoreState) : Prop :=
  ∀ projectId, s.database.of projectId = {} ∨ ∃ revisions head,
    Intact keyring projectId (s.database.of projectId) (s.anchors projectId) revisions head

theorem sound_init : Sound keyring {} := fun _ => Or.inl rfl

theorem Sound.change (h : Sound keyring s)
    (hother : ∀ other, other ≠ projectId → s'.database.of other = s.database.of other)
    (hanchors : ∀ other, other ≠ projectId → s'.anchors other = s.anchors other)
    (hintact : Intact keyring projectId (s'.database.of projectId) (s'.anchors projectId) revisions
      head) : Sound keyring s' := by
  intro other
  by_cases hp : other = projectId
  · rw [hp]
    exact Or.inr ⟨revisions, head, hintact⟩
  · rw [hother other hp, hanchors other hp]
    exact h other

theorem loadRevisions_absent {db : Database} (h : db.of projectId = {}) :
    loadRevisions db projectId =
      .error ⟨.projectNotFound, "project " ++ projectId ++ " not found"⟩ := by
  have hprojects : db.projects.filter (·.projectId == projectId) = [] :=
    congrArg Database.projects h
  have hrow : projectRow db projectId =
      .error ⟨.projectNotFound, "project " ++ projectId ++ " not found"⟩ := by
    unfold projectRow
    rw [← List.head?_filter, hprojects]
    rfl
  unfold loadRevisions
  rw [hrow]
  rfl

/-- A project that is not there cannot be restored. -/
theorem restore_absent (h : s.database.of projectId = {}) :
    ∃ e, (restore keyring projectId).run s = (.error e, s) := by
  have hload := loadRevisions_absent h
  have hsnapshot : (restoreSnapshot keyring projectId).run s =
      (.error ⟨.projectNotFound, "project " ++ projectId ++ " not found"⟩, s) := by
    unfold restoreSnapshot
    rw [run_read_bind, run_check_bind, hload]
  refine ⟨⟨.projectNotFound, "project " ++ projectId ++ " not found"⟩, ?_⟩
  have hrun : (restore keyring projectId).run s =
      (handling (restoreSnapshot keyring projectId) _).run s := rfl
  rw [hrun, handling_refused hsnapshot]
  rfl

/-- Restoring a project of a sound store changes nothing, and returns if the project is there. -/
theorem Sound.restore_cases (h : Sound keyring s) (projectId : String) :
    ((restore keyring projectId).run s).2 = s ∧
      ∀ state s', (restore keyring projectId).run s = (.ok state, s') →
        ∃ revisions head, Intact keyring projectId (s.database.of projectId) (s.anchors projectId)
          revisions head ∧ state.headRevision = head := by
  obtain hnone | ⟨revisions, head, hintact⟩ := h projectId
  · obtain ⟨e, he⟩ := @restore_absent _ _ keyring s projectId hnone
    rw [he]
    refine ⟨rfl, ?_⟩
    intro state s' hrun
    cases hrun
  · obtain ⟨state, hstate, -, hhead, -⟩ := hintact.restores
    rw [hstate]
    refine ⟨rfl, ?_⟩
    intro state' s' hrun
    cases hrun
    exact ⟨revisions, head, hintact, hhead⟩

/-- A call that changes nothing when it raises keeps the store sound if it does when it returns. -/
theorem Sound.of_returns {α : Type} {x : StoreM α} (h : Sound keyring s) (hatomic : AtomicAt s x)
    (hreturns : ∀ a s', x.run s = (.ok a, s') → Sound keyring s') :
    Sound keyring (x.run s).2 := by
  cases hrun : x.run s with
  | mk result m =>
      cases result with
      | ok a => exact hreturns a m hrun
      | error e =>
          rw [hatomic e m hrun]
          exact h

/-- What a call that restores first finds when it returns. -/
theorem Sound.restored (h : Sound keyring s) {state : ProjectState} {m : StoreState}
    (hrun : (restore keyring projectId).run s = (.ok state, m)) :
    m = s ∧ ∃ revisions head, Intact keyring projectId (s.database.of projectId)
      (s.anchors projectId) revisions head ∧ state.headRevision = head := by
  obtain ⟨hsame, hintact⟩ := h.restore_cases projectId
  rw [hrun] at hsame
  exact ⟨hsame, hintact state m hrun⟩

theorem Intact.finds (h : Intact keyring projectId (s.database.of projectId) (s.anchors projectId)
    revisions head) {loaded : List Revision} {last : Revision}
    (hload : loadRevisions s.database projectId = .ok loaded) (hlast : lastOf loaded = .ok last) :
    loaded = revisions ∧ last = head := by
  obtain rfl := Except.ok.inj (h.loads_revisions.symm.trans hload)
  have hhead := h.last.symm.trans (located_ok.mp hlast)
  exact ⟨rfl, (Option.some.inj hhead).symm⟩

variable {document : String × String}

theorem saveLocked_returns {transaction : Transaction}
    {expectedGeneration : Option Int} {stored : StoredTransaction}
    (h : (saveLocked projectId transaction document expectedGeneration).run s = (.ok stored, s')) :
    ∃ revisions head base, loadRevisions s.database projectId = .ok revisions ∧
      lastOf revisions = .ok head ∧ byHash revisions transaction.val.baseRevision = some base ∧
      validateTransaction transaction base = .ok () ∧ stored.transaction = transaction ∧
      ∃ expectation, (writeTransaction projectId transaction document.1 document.2
        expectedGeneration expectation).run s = (.ok stored.generation, s') := by
  unfold saveLocked at h
  rw [run_read_bind] at h
  obtain ⟨revisions, hload, h⟩ := check_bind_returns.mp h
  obtain ⟨head, hlast, h⟩ := check_bind_returns.mp h
  obtain ⟨A, m, hasserted, h⟩ := bind_returns.mp h
  rw [(assertHeadAnchor_returns hasserted).1] at h
  obtain ⟨base, hbase, h⟩ := check_bind_returns.mp h
  obtain ⟨_, -, h⟩ := check_bind_returns.mp h
  obtain ⟨_, hvalid, h⟩ := check_bind_returns.mp h
  obtain ⟨generation, m', hwritten, h⟩ := bind_returns.mp h
  obtain ⟨rfl, rfl⟩ := pure_returns.mp h
  exact ⟨revisions, head, base, hload, hlast, located_ok.mp hbase, hvalid, rfl, _, hwritten⟩

/-- What a call that saved a snapshot found and wrote. -/
theorem saveTransaction_returns (h : Sound keyring s) {transaction : Transaction}
    {expectedGeneration : Option Int} {stored : StoredTransaction}
    (hrun : (saveTransaction keyring projectId transaction expectedGeneration).run s =
      (.ok stored, s')) :
    ∃ revisions head base document expectation,
      Intact keyring projectId (s.database.of projectId) (s.anchors projectId) revisions head ∧
      transaction.val.state ≠ .committed ∧
      byHash revisions transaction.val.baseRevision = some base ∧
      validateTransaction transaction base = .ok () ∧
      survivingTransaction transaction = .ok document ∧
      (writeTransaction projectId transaction document.1 document.2 expectedGeneration
        expectation).run s = (.ok stored.generation, s') := by
  unfold saveTransaction at hrun
  obtain ⟨_, hstate, hrun⟩ := check_bind_returns.mp hrun
  obtain ⟨document, hdocument, hrun⟩ := check_bind_returns.mp hrun
  obtain ⟨state, m, hrestored, hrun⟩ := bind_returns.mp hrun
  obtain ⟨hsame, revisions, head, hintact, -⟩ := h.restored hrestored
  rw [hsame, transactionally_returns] at hrun
  obtain ⟨loaded, last, base, hload, hlast, hbase, hvalid, -, expectation, hwritten⟩ :=
    saveLocked_returns hrun
  obtain ⟨rfl, rfl⟩ := hintact.finds hload hlast
  exact ⟨_, _, base, document, expectation, hintact, require_ok.mp hstate, hbase, hvalid,
    hdocument, hwritten⟩

theorem Intact.written {transaction : Transaction} {base : Revision}
    {expectedGeneration : Option Int} {expectation : String} {g : Nat}
    (h : Intact keyring projectId (s.database.of projectId) (s.anchors projectId) revisions head)
    (hstate : transaction.val.state ≠ .committed)
    (hbase : byHash revisions transaction.val.baseRevision = some base)
    (hvalid : validateTransaction transaction base = .ok ())
    (hdocument : survivingTransaction transaction = .ok document)
    (hwritten : (writeTransaction projectId transaction document.1 document.2 expectedGeneration
      expectation).run s = (.ok g, s')) :
    s'.anchors = s.anchors ∧
      (∀ other, other ≠ projectId → s'.database.of other = s.database.of other) ∧
      Intact keyring projectId (s'.database.of projectId) (s'.anchors projectId) revisions head ∧
      ∃ row ∈ (s'.database.of projectId).transactions,
        row.transactionId = transaction.val.transactionId ∧
        decodeTransactionRow row = .ok ⟨transaction, g⟩ := by
  obtain ⟨hanchors, ⟨rows, hself, hrewritten⟩, hothers⟩ :=
    writeTransaction_rewrites hwritten h.transactionIds
  have hdecoded := @transactionRow_decodes _ _ projectId _ _ hdocument g
  have hloads : loadTransaction revisions
      (transactionRow projectId transaction g document.1 document.2) = .ok ⟨transaction, g⟩ := by
    refine loadTransaction_ok.mpr ⟨hdecoded, base, hbase, ?_⟩
    rw [uncommitted_hash hstate]
    exact hvalid
  have hkept := h.save hrewritten hloads hstate
  rw [← hself, ← hanchors] at hkept
  refine ⟨hanchors, hothers, hkept, _, ?_, rfl, hdecoded⟩
  rw [hself]
  exact hrewritten.mem

theorem saveTransaction_sound (h : Sound keyring s) (transaction : Transaction)
    (expectedGeneration : Option Int) :
    Sound keyring ((saveTransaction keyring projectId transaction expectedGeneration).run s).2 := by
  refine h.of_returns ?_ ?_
  · exact .check_bind fun _ _ => .check_bind fun _ _ =>
      .bind_same (h.restore_cases projectId).1 fun _ _ =>
        transactionally_atomicAt (saveLocked_keeps _ _ _ _)
  · intro stored s' hrun
    obtain ⟨revisions, head, base, document, expectation, hintact, hstate, hbase, hvalid, hdocument,
      hwritten⟩ := saveTransaction_returns h hrun
    obtain ⟨hanchors, hothers, hkept, -⟩ :=
      hintact.written hstate hbase hvalid hdocument hwritten
    exact h.change hothers (fun _ _ => congrFun hanchors _) hkept

theorem recordLocked_returns {approval : Approval} {u : Unit}
    (h : (recordLocked projectId approval document).run s = (.ok u, s')) :
    ∃ revisions head transactions stored, loadRevisions s.database projectId = .ok revisions ∧
      lastOf revisions = .ok head ∧
      loadTransactions s.database projectId revisions = .ok transactions ∧
      stored ∈ transactions ∧ validateApprovalBinding approval stored.transaction = .ok () ∧
      s.database.insertApproval (approvalRow projectId approval document.1 document.2) =
        .ok s'.database ∧ s'.anchors = s.anchors := by
  unfold recordLocked at h
  rw [run_read_bind] at h
  obtain ⟨revisions, hload, h⟩ := check_bind_returns.mp h
  obtain ⟨head, hlast, h⟩ := check_bind_returns.mp h
  obtain ⟨A, m, hasserted, h⟩ := bind_returns.mp h
  rw [(assertHeadAnchor_returns hasserted).1] at h
  obtain ⟨transactions, htransactions, h⟩ := check_bind_returns.mp h
  obtain ⟨stored, hstored, h⟩ := check_bind_returns.mp h
  obtain ⟨_, hbinding, h⟩ := check_bind_returns.mp h
  rw [handling_raising_returns, execute_returns] at h
  obtain ⟨db, hdb, rfl⟩ := h
  exact ⟨revisions, head, transactions, stored, hload, hlast, htransactions,
    List.mem_of_find?_eq_some (located_ok.mp hstored), hbinding, hdb, rfl⟩

theorem recordApproval_sound (h : Sound keyring s) (approval : Approval) :
    Sound keyring ((recordApproval keyring projectId approval).run s).2 := by
  refine h.of_returns ?_ ?_
  · exact .check_bind fun _ _ => .bind_same (h.restore_cases projectId).1 fun _ _ =>
      transactionally_atomicAt (recordLocked_keeps _ _ _)
  · intro u s' hrun
    unfold recordApproval at hrun
    obtain ⟨document, hdocument, hrun⟩ := check_bind_returns.mp hrun
    obtain ⟨state, m, hrestored, hrun⟩ := bind_returns.mp hrun
    obtain ⟨hsame, revisions, head, hintact, -⟩ := h.restored hrestored
    rw [hsame, transactionally_returns] at hrun
    obtain ⟨loaded, last, transactions, stored, hload, hlast, htransactions, hstored, hbinding,
      hinsert, hanchors⟩ := recordLocked_returns hrun
    obtain ⟨rfl, rfl⟩ := hintact.finds hload hlast
    obtain ⟨found, hfound, hmem, -⟩ := hintact.loads_transactions
    obtain rfl := Except.ok.inj (hfound.symm.trans htransactions)
    obtain ⟨trow, htrow, hdecoded⟩ := (hmem stored).mp hstored
    obtain ⟨-, -, hid, hbase, -⟩ := decodeTransactionRow_ok.mp hdecoded
    obtain ⟨happrovalId, -, -, hsubject⟩ := validateApprovalBinding_ok.mp hbinding
    have hproject : (approvalRow projectId approval document.1 document.2).projectId = projectId :=
      rfl
    obtain ⟨hnew, hself, hothers⟩ := Database.insertApproval_ok hinsert hproject
    have hkept := hintact.approve (approvalRow_loads hdocument) hnew htrow
      (hid.symm.trans happrovalId.symm) (by rw [← hbase]; exact hsubject)
    rw [← hself, ← hanchors] at hkept
    exact h.change hothers (fun _ _ => congrFun hanchors _) hkept

theorem keepApproval_returns {approval : Approval} {u : Unit}
    (h : (keepApproval projectId approval document.1 document.2).run s = (.ok u, s'))
    (hdocument : survivingApproval approval = .ok document)
    (hloads : ∀ row ∈ (s.database.of projectId).approvals, ∃ a, loadApproval row = .ok a) :
    s'.anchors = s.anchors ∧
      (∃ rows, s'.database.of projectId = { s.database.of projectId with approvals := rows } ∧
        ∃ row ∈ rows, loadApproval row = .ok approval ∧
          (rows = (s.database.of projectId).approvals ∨
            (rows = (s.database.of projectId).approvals ++ [row] ∧
              row.approvalId ∉ (s.database.of projectId).approvals.map (·.approvalId)))) ∧
      ∀ other, other ≠ projectId → s'.database.of other = s.database.of other := by
  unfold keepApproval at h
  rw [run_read_bind] at h
  split at h
  · obtain ⟨db, hdb, rfl⟩ := execute_returns.mp h
    have hproject : (approvalRow projectId approval document.1 document.2).projectId = projectId :=
      rfl
    obtain ⟨hnew, hself, hothers⟩ := Database.insertApproval_ok hdb hproject
    exact ⟨rfl, ⟨_, hself, _, by simp, approvalRow_loads hdocument, Or.inr ⟨rfl, hnew⟩⟩, hothers⟩
  · rename_i row hrow
    obtain ⟨hsame, rfl⟩ := check_returns.mp h
    obtain ⟨hbody, -⟩ := require_ok.mp hsame
    have hfound := List.find?_some hrow
    rw [Bool.and_eq_true, beq_iff_eq, beq_iff_eq] at hfound
    have hmem : row ∈ (s'.database.of projectId).approvals :=
      List.mem_filter.mpr ⟨List.mem_of_find?_eq_some hrow, by simpa using hfound.1⟩
    -- the row that is there has the same body, so it holds the same approval
    obtain ⟨a, ha⟩ := hloads row hmem
    have hdecoded := (loadApproval_ok.mp ha).2.1
    rw [hbody, (survivingApproval_ok hdocument).1, Except.ok.injEq] at hdecoded
    rw [← hdecoded] at ha
    exact ⟨rfl, ⟨_, rfl, row, hmem, ha, Or.inl rfl⟩, fun _ _ => rfl⟩

variable {expectedHead : String}

theorem insertSuccessor_returns {revision : Revision} {attestation : Attestation} {old : ProjectRow}
    {revisionDocument attestationDocument : String × String} {u : Unit}
    (h : (insertSuccessor projectId revision head attestation expectedHead revisionDocument
      attestationDocument).run s = (.ok u, s'))
    (hold : (s.database.of projectId).projects = [old]) (hhead : old.headRevision = expectedHead)
    (hsequence : old.headSequence = head.val.sequence) :
    s'.anchors = s.anchors ∧ (∃ headRow row arow,
      headRow ∈ (s.database.of projectId).revisions ∧
      headRow.revisionHash = head.val.revisionHash ∧
      row = RevisionRow.mk projectId revision.val.sequence revision.val.revisionHash
        revision.val.parentRevision revision.val.graphHash headRow.recordHash
        (recordHashOf projectId revision.val.sequence revision.val.revisionHash revisionDocument.2
          headRow.recordHash) revisionDocument.1 revisionDocument.2 ∧
      row.revisionHash ∉ (s.database.of projectId).revisions.map (·.revisionHash) ∧
      arow = AttestationRow.mk projectId revision.val.revisionHash attestation.val.attestationKeyId
        attestation.val.authorizationKeyId attestation.val.authorizationDigest
        attestation.val.authorizationNonce attestation.val.approvalDigest attestationDocument.1
        attestationDocument.2 ∧
      arow.revisionHash ∉ (s.database.of projectId).attestations.map (·.revisionHash) ∧
      s'.database.of projectId =
        { s.database.of projectId with
          projects := [⟨projectId, revision.val.revisionHash, revision.val.sequence,
            revision.val.sequence⟩]
          revisions := (s.database.of projectId).revisions ++ [row]
          attestations := (s.database.of projectId).attestations ++ [arow] }) ∧
      ∀ other, other ≠ projectId → s'.database.of other = s.database.of other := by
  unfold insertSuccessor at h
  rw [run_read_bind] at h
  obtain ⟨headRow, hlocated, h⟩ := check_bind_returns.mp h
  obtain ⟨_, m₁, hrevision, h⟩ := bind_returns.mp h
  obtain ⟨_, m₂, hattestation, h⟩ := bind_returns.mp h
  obtain ⟨db₁, hdb₁, rfl⟩ := execute_returns.mp hrevision
  obtain ⟨db₂, hdb₂, rfl⟩ := execute_returns.mp hattestation
  obtain ⟨db₃, hdb₃, rfl⟩ := execute_returns.mp h
  obtain ⟨hnewRevision, hself₁, hothers₁⟩ := Database.insertRevision_ok hdb₁ rfl
  obtain ⟨hnewAttestation, hself₂, hothers₂⟩ := Database.insertAttestation_ok hdb₂ rfl
  dsimp only at hself₁ hself₂ hothers₁ hothers₂ hnewRevision hnewAttestation hdb₃
  rw [hself₁] at hself₂ hnewAttestation
  have hprojects : (db₂.of projectId).projects = [old] := by
    rw [hself₂]
    exact hold
  obtain ⟨hself₃, hothers₃⟩ := Database.advanceHead_ok hdb₃ rfl hprojects hhead hsequence
  rw [hself₂] at hself₃
  have hfound := List.find?_some (located_ok.mp hlocated)
  rw [Bool.and_eq_true, beq_iff_eq, beq_iff_eq] at hfound
  refine ⟨rfl, ⟨headRow, _, _, ?_, hfound.2, rfl, hnewRevision, rfl, hnewAttestation, hself₃⟩, ?_⟩
  · exact List.mem_filter.mpr ⟨List.mem_of_find?_eq_some (located_ok.mp hlocated),
      by simpa using hfound.1⟩
  · intro other hother
    rw [hothers₃ other hother, hothers₂ other hother, hothers₁ other hother]

theorem appendLocked_appends {revision : Revision}
    {evidence : CommitEvidence} {documents : CommitDocuments} {generation : Option Int}
    {anchors : Anchor × Anchor}
    (h : (appendLocked projectId revision expectedHead evidence documents generation).run s =
      (.ok anchors, s'))
    (hintact : Intact keyring projectId (s.database.of projectId) (s.anchors projectId) revisions
      head)
    (hdocuments : documents.Of revision evidence)
    (hbinding : validateAttestationBinding keyring evidence.attestation revision
      evidence.transaction evidence.approval = .ok ()) :
    successorChecks projectId revision head evidence = .ok () ∧
      Appended projectId (s.database.of projectId) (s'.database.of projectId) head revision
        evidence ∧
      s'.anchors = s.anchors ∧
      (∀ other, other ≠ projectId → s'.database.of other = s.database.of other) ∧
      s.anchors projectId = some anchors.1 ∧ anchors.1.val.projectId = projectId ∧
      anchors.1.val.sequence = head.val.sequence ∧
      anchors.2.val = ⟨projectId, revision.val.sequence, revision.val.revisionHash,
        documents.attestation.2⟩ := by
  unfold appendLocked at h
  rw [run_read_bind] at h
  obtain ⟨loaded, hload, h⟩ := check_bind_returns.mp h
  obtain ⟨last, hlast, h⟩ := check_bind_returns.mp h
  obtain ⟨rfl, rfl⟩ := hintact.finds hload hlast
  obtain ⟨_, hexpected, h⟩ := check_bind_returns.mp h
  obtain ⟨A, m₀, hasserted, h⟩ := bind_returns.mp h
  obtain ⟨hsame, hAproject, hAsequence, hA⟩ := assertHeadAnchor_returns hasserted
  rw [hsame] at h
  obtain ⟨_, hchecks, h⟩ := check_bind_returns.mp h
  obtain ⟨g, m₁, hwrite, h⟩ := bind_returns.mp h
  obtain ⟨_, m₂, hkeep, h⟩ := bind_returns.mp h
  obtain ⟨_, m₃, hinsert, h⟩ := bind_returns.mp h
  obtain ⟨B, hB, h⟩ := check_bind_returns.mp h
  obtain ⟨rfl, rfl⟩ := pure_returns.mp h
  obtain ⟨hproject, hparent, hsequence, -⟩ := successorChecks_ok hchecks
  have hlastProject : last.val.graph.projectId = projectId :=
    (loadChain_rows hintact.chain).2.2.2 last hintact.head_mem
  rw [hlastProject] at hAproject
  obtain ⟨hanchors₁, ⟨rows, hself₁, hrewritten⟩, hothers₁⟩ :=
    writeTransaction_rewrites hwrite hintact.transactionIds
  have hloads : ∀ row ∈ (m₁.database.of projectId).approvals, ∃ a, loadApproval row = .ok a := by
    intro row hrow
    rw [hself₁] at hrow
    obtain ⟨a, ha, -⟩ := hintact.approvals row hrow
    exact ⟨a, ha⟩
  obtain ⟨hanchors₂, ⟨approvalRows, hself₂, hkept⟩, hothers₂⟩ :=
    keepApproval_returns hkeep hdocuments.approval hloads
  rw [hself₁] at hself₂ hkept
  have hprojects : (m₂.database.of projectId).projects =
      [⟨projectId, last.val.revisionHash, last.val.sequence, last.val.sequence⟩] := by
    rw [hself₂]
    exact hintact.project
  obtain ⟨hanchors₃, ⟨headRow, row, arow, hheadRow, hheadHash, hrow, hnewRow, harow, hnewArow,
    hself₃⟩, hothers₃⟩ :=
    insertSuccessor_returns hinsert hprojects (require_ok.mp hexpected) rfl
  rw [hself₂] at hself₃ hheadRow hnewRow hnewArow
  refine ⟨hchecks, ?_, ?_, ?_, ?_, hAproject, hAsequence, anchorState_ok.mp hB⟩
  · obtain ⟨hrevisionDecoded, hrevisionDigest⟩ := survivingRevision_ok hdocuments.revision
    obtain ⟨hattestationDecoded, hattestationDigest⟩ :=
      survivingAttestation_ok hdocuments.attestation
    obtain ⟨-, -, -, -, -, ⟨haproject, -, -, -, -, hahash, -⟩, -⟩ :=
      validateAttestationBinding_ok.mp hbinding
    rw [hself₃]
    refine
      { project := rfl
        revisions := ⟨row, headRow, rfl, hheadRow, hheadHash, hnewRow, ?_⟩
        transactions := ⟨_, g, hrewritten, transactionRow_decodes hdocuments.transaction g⟩
        approvals := hkept
        attestations := ⟨arow, rfl, ?_, hnewArow⟩ }
    · rw [hrow]
      exact ⟨hrevisionDigest, hrevisionDecoded, hsequence, hsequence, rfl, rfl, rfl, hproject,
        hparent, rfl, by rw [hsequence]⟩
    · rw [harow]
      exact ⟨hattestationDigest, hattestationDecoded, haproject.trans hproject, hahash, rfl, rfl,
        rfl, rfl, rfl⟩
  · rw [hanchors₃, hanchors₂, hanchors₁]
  · intro other hother
    rw [hothers₃ other hother, hothers₂ other hother, hothers₁ other hother]
  · rw [← hAproject]
    exact hA

theorem appendLocked_moves {revision : Revision}
    {evidence : CommitEvidence} {documents : CommitDocuments} {generation : Option Int}
    {anchors : Anchor × Anchor}
    (h : (appendLocked projectId revision expectedHead evidence documents generation).run s =
      (.ok anchors, s'))
    (hintact : Intact keyring projectId (s.database.of projectId) (s.anchors projectId) revisions
      head)
    (hdocuments : documents.Of revision evidence)
    (hbinding : validateAttestationBinding keyring evidence.attestation revision
      evidence.transaction evidence.approval = .ok ()) :
    (compareAndSet anchors.1 anchors.2).run s' =
      (.ok (), { s' with anchors := s.anchors.set projectId anchors.2 }) := by
  obtain ⟨hchecks, -, hanchors, -, hat, hproject, hsequence, hcurrent⟩ :=
    appendLocked_appends h hintact hdocuments hbinding
  obtain ⟨-, -, hnext, -⟩ := successorChecks_ok hchecks
  have hmoves := @compareAndSet_moves s' anchors.1 anchors.2 (by rw [hproject, hcurrent])
    (by rw [hcurrent, hsequence]; exact hnext) (by rw [hproject, hanchors]; exact hat)
  rw [hmoves, hanchors, hcurrent]

/-- What an append checks before it restores the project. -/
structure Appendable (keyring : Keyring) (revision : Revision) (evidence : CommitEvidence)
    (documents : CommitDocuments) : Prop where
  later : revision.val.sequence ≠ 0
  hash : revision.val.revisionHash = revisionHashFor revision.val
  state : evidence.transaction.val.state = .committed
  decision : evidence.approval.val.decision = .approved
  documents : documents.Of revision evidence
  binding : validateAttestationBinding keyring evidence.attestation revision evidence.transaction
    evidence.approval = .ok ()

/-- An append that returned has checked its arguments, restored the project at the head it
expected, and committed its transaction. -/
theorem appendRevision_committed {revision : Revision}
    {evidence : CommitEvidence} {generation : Option Int} {u : Unit}
    (h : (appendRevision keyring projectId revision expectedHead evidence generation).run s =
      (.ok u, s')) :
    ∃ documents state m anchors m', Appendable keyring revision evidence documents ∧
      (restore keyring projectId).run s = (.ok state, m) ∧
      state.headRevision.val.revisionHash = expectedHead ∧
      (appendLocked projectId revision expectedHead evidence documents generation).run m =
        (.ok anchors, m') ∧
      (compareAndSet anchors.1 anchors.2).run m' = (.ok u, s') := by
  unfold appendRevision at h
  obtain ⟨_, hlater, h⟩ := check_bind_returns.mp h
  obtain ⟨_, hhash, h⟩ := check_bind_returns.mp h
  obtain ⟨_, hstate, h⟩ := check_bind_returns.mp h
  obtain ⟨_, hdecision, h⟩ := check_bind_returns.mp h
  obtain ⟨rd, hrd, h⟩ := check_bind_returns.mp h
  obtain ⟨td, htd, h⟩ := check_bind_returns.mp h
  obtain ⟨apd, hapd, h⟩ := check_bind_returns.mp h
  obtain ⟨ad, had, h⟩ := check_bind_returns.mp h
  obtain ⟨_, hbinding, h⟩ := check_bind_returns.mp h
  obtain ⟨state, m, hrestored, h⟩ := bind_returns.mp h
  obtain ⟨_, hhead, h⟩ := check_bind_returns.mp h
  obtain ⟨anchors, m', hlocked, h⟩ := bind_returns.mp h
  exact ⟨⟨rd, td, apd, ad⟩, state, m, anchors, m', ⟨require_ok.mp hlater,
    require_ok.mp hhash, require_ok.mp hstate, require_ok.mp hdecision,
    ⟨hrd, htd, hapd, had⟩, hbinding⟩, hrestored, require_ok.mp hhead,
    transactionally_returns.mp hlocked, h⟩

theorem appendRevision_returns {revision : Revision}
    {evidence : CommitEvidence} {generation : Option Int} {u : Unit}
    (h : Intact keyring projectId (s.database.of projectId) (s.anchors projectId) revisions head)
    (hrun : (appendRevision keyring projectId revision expectedHead evidence generation).run s =
      (.ok u, s')) :
    Intact keyring projectId (s'.database.of projectId) (s'.anchors projectId)
        (revisions ++ [revision]) revision ∧
      Appended projectId (s.database.of projectId) (s'.database.of projectId) head revision
        evidence ∧
      (∀ other, other ≠ projectId → s'.database.of other = s.database.of other) ∧
      ∀ other, other ≠ projectId → s'.anchors other = s.anchors other := by
  obtain ⟨documents, state, m, anchors, m', hchecked, hrestored, -, hlocked, hmoved⟩ :=
    appendRevision_committed hrun
  obtain ⟨_, hrestored', -⟩ := h.restores
  obtain rfl := (Prod.mk.inj (hrestored'.symm.trans hrestored)).2
  rw [appendLocked_moves hlocked h hchecked.documents hchecked.binding] at hmoved
  obtain rfl := (Prod.mk.inj hmoved).2
  obtain ⟨hchecks, happended, -, hothers, -, -, -, hcurrent⟩ :=
    appendLocked_appends hlocked h hchecked.documents hchecked.binding
  obtain ⟨-, -, -, hbase, hcommitted, happroval, hvalid⟩ := successorChecks_ok hchecks
  have hdigest : ∀ row ∈ (m'.database.of projectId).attestations,
      row.Holds projectId evidence.attestation → anchors.2.val =
        ⟨projectId, revision.val.sequence, revision.val.revisionHash, row.bodyHash⟩ := by
    intro row _ hholds
    have hsurvives := hholds.survives
    rw [hchecked.documents.attestation, Except.ok.injEq] at hsurvives
    rw [hcurrent, hsurvives]
  have hkept := h.append happended hchecked.state hbase hcommitted hvalid happroval
    hchecked.binding hdigest
  have hanchor : s.anchors.set projectId anchors.2 projectId = some anchors.2 := Dict.set_self _ _ _
  rw [← hanchor] at hkept
  exact ⟨hkept, happended, hothers, fun _ hother => Dict.set_of_ne _ _ hother⟩

theorem appendRevision_sound (h : Sound keyring s) (revision : Revision) (expectedHead : String)
    (evidence : CommitEvidence) (expectedTransactionGeneration : Option Int) :
    Sound keyring ((appendRevision keyring projectId revision expectedHead evidence
      expectedTransactionGeneration).run s).2 := by
  refine h.of_returns ?_ ?_
  · refine .check_bind fun _ _ => .check_bind fun _ _ => .check_bind fun _ _ =>
      .check_bind fun _ _ => .check_bind fun rd hrd => .check_bind fun td htd =>
      .check_bind fun apd hapd => .check_bind fun ad had => .check_bind fun _ hbinding =>
      .bind_same (h.restore_cases projectId).1 fun state hrestored => .check_bind fun _ _ => ?_
    obtain ⟨-, revisions, head, hintact, -⟩ := h.restored hrestored
    refine .bind_returning (transactionally_atomicAt (appendLocked_keeps _ _ _ _ _ _)) ?_
    intro anchors m hlocked
    rw [transactionally_returns] at hlocked
    exact ⟨_, _, appendLocked_moves hlocked hintact ⟨hrd, htd, hapd, had⟩ hbinding⟩
  · intro u s' hrun
    obtain ⟨-, state, m, -, -, -, hrestored, -⟩ := appendRevision_committed hrun
    obtain ⟨-, revisions, head, hintact, -⟩ := h.restored hrestored
    obtain ⟨hkept, -, hothers, hanchors⟩ := appendRevision_returns hintact hrun
    exact h.change hothers hanchors hkept

/-! ### Making a project -/

theorem insertGenesis_atomicAt (genesis : Revision) (body digest : String) :
    AtomicAt s (insertGenesis genesis body digest) :=
  transactionally_atomicAt (handling_keeps
    (.bind (execute_keeps _) fun _ => execute_keeps _) fun _ => .check _)

/-- A project that the store does not list has no rows. -/
theorem Sound.absent (h : Sound keyring s) (hnone : ¬ s.database.hasProject projectId) :
    s.database.of projectId = {} := by
  obtain hempty | ⟨revisions, head, hintact⟩ := h projectId
  · exact hempty
  · refine absurd (hasProject_iff.mpr ?_) hnone
    rw [hintact.project]
    exact List.cons_ne_nil _ _

theorem Sound.setAnchor (h : Sound keyring s) (hnone : s.database.of projectId = {}) (A : Anchor) :
    Sound keyring { s with anchors := s.anchors.set projectId A } := by
  intro other
  by_cases hp : other = projectId
  · rw [hp]
    exact Or.inl hnone
  · have hsame : s.anchors.set projectId A other = s.anchors other := Dict.set_of_ne _ _ hp
    dsimp only
    rw [hsame]
    exact h other

theorem Sound.of_keeps {α : Type} {x : StoreM α} (h : Sound keyring s) (hx : Keeps id x) :
    Sound keyring (x.run s).2 := by
  have hsame : (x.run s).2 = s := hx s
  rw [hsame]
  exact h

theorem createProject_sound (h : Sound keyring s) (genesis : Revision) :
    Sound keyring ((createProject genesis).run s).2 := by
  unfold createProject
  refine check_bind_leaves h fun _ hgenesis => check_bind_leaves h fun _ _ =>
    check_bind_leaves h fun document hdocument => check_bind_leaves h fun A hA => ?_
  rw [run_read_bind]
  obtain ⟨hsequence, hparent⟩ := require_ok.mp hgenesis
  rw [anchorState_ok] at hA
  split
  · -- the project is there: nothing is written
    exact h.of_keeps (.bind (.check _) fun _ => .bind (.check _) fun _ =>
      .bind (readAnchor_keeps _) fun _ => .check _)
  · rename_i hnew
    have hnone := h.absent hnew
    refine bind_leaves ?_ ?_
    · intro e m hrun
      rw [initializeAnchor_atomicAt A e m hrun]
      exact h
    · intro _ m hrun
      have hm := initializeAnchor_returns hrun
      have hproject : A.val.projectId = genesis.val.graph.projectId := by rw [hA]
      rw [hproject] at hm
      have hanchored : Sound keyring m := by
        rw [hm]
        exact h.setAnchor hnone A
      have hat : m.anchors genesis.val.graph.projectId = some A := by
        rw [hm]
        exact Dict.set_self _ _ _
      have hmnone : m.database.of genesis.val.graph.projectId = {} := by
        rw [hm]
        exact hnone
      refine handling_leaves ?_ ?_
      · intro u m' hinserted
        obtain ⟨hanchors, hself, hothers⟩ := insertGenesis_returns hinserted rfl hmnone
        have hintact := @intact_genesis _ _ keyring _ genesis document A rfl hsequence hparent
          hdocument hA
        rw [← hself, ← hat, ← hanchors] at hintact
        exact hanchored.change hothers (fun _ _ => congrFun hanchors _) hintact
      · intro e m' hraised
        rw [insertGenesis_atomicAt _ _ _ e m' hraised]
        -- looking at what is there changes nothing
        split
        · exact hanchored.of_keeps (.bind (.read _) fun _ => .bind (.check _) fun _ =>
            .bind (readAnchor_keeps _) fun _ => .check _)
        · exact hanchored.of_keeps (.check _)

theorem restore_sound (h : Sound keyring s) (projectId : String) :
    Sound keyring ((restore keyring projectId).run s).2 := by
  rw [(h.restore_cases projectId).1]
  exact h

end Sound

/-! ### Sequences of calls -/

section Sequences

variable [UnicodeData] [Hashing]

/-- A call of the store, by whichever caller. -/
inductive StoreOperation where
  | createProject (genesis : Revision)
  | saveTransaction (projectId : String) (transaction : Transaction)
      (expectedGeneration : Option Int)
  | recordApproval (projectId : String) (approval : Approval)
  | appendRevision (projectId : String) (revision : Revision) (expectedHead : String)
      (evidence : CommitEvidence) (expectedTransactionGeneration : Option Int)
  | restore (projectId : String)

/-- The store after a call, whether it was accepted or refused. -/
def afterCall (keyring : Keyring) (s : StoreState) : StoreOperation → StoreState
  | .createProject genesis => ((createProject genesis).run s).2
  | .saveTransaction projectId transaction expectedGeneration =>
      ((saveTransaction keyring projectId transaction expectedGeneration).run s).2
  | .recordApproval projectId approval => ((recordApproval keyring projectId approval).run s).2
  | .appendRevision projectId revision expectedHead evidence expectedTransactionGeneration =>
      ((appendRevision keyring projectId revision expectedHead evidence
        expectedTransactionGeneration).run s).2
  | .restore projectId => ((restore keyring projectId).run s).2

variable {keyring : Keyring} {s : StoreState} {projectId : String} {revisions : List Revision}
  {head : Revision}

theorem Sound.afterCall (h : Sound keyring s) (operation : StoreOperation) :
    Sound keyring (afterCall keyring s operation) := by
  cases operation with
  | createProject genesis => exact createProject_sound h genesis
  | saveTransaction projectId transaction expectedGeneration =>
      exact saveTransaction_sound h transaction expectedGeneration
  | recordApproval projectId approval => exact recordApproval_sound h approval
  | appendRevision projectId revision expectedHead evidence generation =>
      exact appendRevision_sound h revision expectedHead evidence generation
  | restore projectId => exact restore_sound h projectId

def afterCalls (keyring : Keyring) (operations : List StoreOperation) : StoreState :=
  Evleda.replay (afterCall keyring) {} operations

theorem afterCalls_sound (keyring : Keyring) (operations : List StoreOperation) :
    Sound keyring (afterCalls keyring operations) :=
  Replay.invariant sound_init (fun _ operation h => h.afterCall operation) operations

/-- Revisions in one line from a first one. -/
def Linear (revisions : List Revision) : Prop :=
  revisions.IsChain Follows ∧ ∃ genesis, revisions.head? = some genesis ∧
    genesis.val.parentRevision = none ∧ genesis.val.sequence = 0

/-- A revision of a snapshot has one committed transaction, one attestation that binds the two, and
affirmative approvals, one of which is the one the attestation names. -/
def Evidenced (keyring : Keyring) (state : ProjectState) (r : Revision) : Prop :=
  ∃ t a approval, committedFor state.transactions r = [t] ∧
    state.attestations.filter (·.val.revisionHash == r.val.revisionHash) = [a] ∧
    state.approvals.filter (·.val.approvalId == a.val.approvalId) = [approval] ∧
    approval ∈ affirmativeFor state.approvals t r ∧
    validateAttestationBinding keyring a r t approval = .ok ()

theorem Intact.linear {db : Database} {anchor : Option Anchor}
    (h : Intact keyring projectId db anchor revisions head) : Linear revisions := by
  obtain ⟨hchain, hfirst⟩ := loadChain_follows h.chain
  refine ⟨hchain, ?_⟩
  cases hrevisions : revisions with
  | nil =>
      have hmem := h.head_mem
      rw [hrevisions] at hmem
      cases hmem
  | cons genesis rest =>
      rw [hrevisions] at hfirst
      exact ⟨genesis, rfl, hfirst genesis rfl⟩

omit [UnicodeData] [Hashing] in
theorem filter_key_eq {α κ : Type} [DecidableEq κ] {key : α → κ} {l : List α} {a : α}
    (hnodup : (l.map key).Nodup) (ha : a ∈ l) {k : κ} (hk : key a = k) :
    (l.filter fun b => key b == k) = [a] := by
  refine eq_singleton_of_nodup (List.Nodup.filter _ (List.Nodup.of_map key hnodup)) ?_ ?_
  · exact List.mem_filter.mpr ⟨ha, beq_iff_eq.mpr hk⟩
  · intro b hb
    obtain ⟨hmem, hkey⟩ := List.mem_filter.mp hb
    exact List.inj_on_of_nodup_map hnodup hmem ha ((beq_iff_eq.mp hkey).trans hk.symm)

theorem Intact.evidenced {db : Database} {anchor : Option Anchor}
    (h : Intact keyring projectId db anchor revisions head) {state : ProjectState}
    (hstate : Snapshot keyring projectId db state) (hrevisions : state.revisions = revisions)
    {r : Revision} (hr : r ∈ revisions.tail) : Evidenced keyring state r := by
  have hattestations := hstate.attestations
  rw [hrevisions] at hattestations
  obtain ⟨a, ha, t, approval, hreleased⟩ : ∃ a ∈ state.attestations, ∃ t approval,
      Released keyring projectId db r a t approval := by
    obtain ⟨i, hi, rfl⟩ := List.mem_iff_getElem.mp hr
    have hi' : i < state.attestations.length := hattestations.length_eq ▸ hi
    exact ⟨state.attestations[i], List.getElem_mem hi', hattestations.get hi hi'⟩
  have hnodup : (state.attestations.map (·.val.revisionHash)).Nodup := by
    have hsame : revisions.tail.map (·.val.revisionHash) =
        state.attestations.map (·.val.revisionHash) := by
      rw [← List.forall₂_eq_eq_eq, List.forall₂_map_left_iff, List.forall₂_map_right_iff]
      refine hattestations.imp fun r a hrelated => ?_
      obtain ⟨t, approval, hreleased⟩ := hrelated
      exact hreleased.revisionHash.symm
    rw [← hsame]
    exact h.hashes.sublist ((List.tail_sublist _).map _)
  have hmem := hreleased.affirmative hstate.approvals
  refine ⟨t, a, approval, ?_, ?_, ?_, hmem, hreleased.binding⟩
  · exact h.committedFor_eq hstate.transactions hstate.transactionIds hr hreleased
  · exact filter_key_eq hnodup ha hreleased.revisionHash
  · exact filter_key_eq hstate.approvalIds (List.mem_filter.mp hmem).1 hreleased.approvalId.symm

/-- **Whatever calls were made, every project of the store can be restored**, and each of its
revisions but the first is evidenced. -/
theorem written_restores (keyring : Keyring) (operations : List StoreOperation)
    (projectId : String)
    (h : (afterCalls keyring operations).database.hasProject projectId) :
    ∃ state, (restore keyring projectId).run (afterCalls keyring operations) =
        (.ok state, afterCalls keyring operations) ∧
      Linear state.revisions ∧ state.revisions.getLast? = some state.headRevision ∧
      ∀ r ∈ state.revisions.tail, Evidenced keyring state r := by
  obtain hnone | ⟨revisions, head, hintact⟩ := afterCalls_sound keyring operations projectId
  · rw [hasProject_iff, hnone] at h
    exact absurd rfl h
  · obtain ⟨state, hrestored, hrevisions, hhead, hsnapshot⟩ := hintact.restores
    refine ⟨state, hrestored, ?_, ?_, ?_⟩
    · rw [hrevisions]
      exact hintact.linear
    · rw [hrevisions, hhead]
      exact hintact.last
    · intro r hr
      rw [hrevisions] at hr
      exact hintact.evidenced hsnapshot hrevisions hr

end Sequences

/-! ### A release with two approvals -/

section Release

attribute [local instance] asciiData

/-- The digests of the sample, and one digest for everything else. -/
@[reducible] def storeHashing : Hashing := Hashing.listedOr netEntries (plainDigest '9')

attribute [local instance] storeHashing

theorem storeDigests : NetDigests :=
  fun _ hmem => Hashing.listedOr_inDomain _ (by decide) netEntries_distinct hmem

theorem storeHashing_digest (text : List Char) :
    Text.isSha256 (Hashing.sha256 text) ∧ Hashing.sha256 text ≠ genesisAttestationDigest := by
  have hdigests : ∀ digest ∈ plainDigest '9' :: netEntries.map (·.digest), ∃ c,
      Text.isLowerHex c = true ∧ c ≠ '0' ∧ digest = plainDigest c := by
    simp only [netEntries, List.map_cons, List.map_nil, List.mem_cons, List.not_mem_nil, or_false,
      forall_eq_or_imp, forall_eq]
    exact ⟨⟨'9', by decide⟩, ⟨'a', by decide⟩, ⟨'b', by decide⟩, ⟨'c', by decide⟩, ⟨'d', by decide⟩,
      ⟨'e', by decide⟩, ⟨'f', by decide⟩, ⟨'1', by decide⟩, ⟨'2', by decide⟩, ⟨'3', by decide⟩,
      ⟨'4', by decide⟩⟩
  obtain ⟨c, hhex, hne, hdigest⟩ := hdigests _ (Hashing.listedOr_cases text)
  have hsha : Hashing.sha256 text = plainDigest c := hdigest
  rw [hsha]
  refine ⟨require_ok.mp (plainDigest_isSha256 hhex ""), ?_⟩
  intro h
  exact hne (plainDigest_inj h)

/-- The first revision, and the one with the net. -/
def storedGenesis : Revision := ⟨_, checking_ok.mpr ⟨genesis_checks storeDigests, rfl⟩⟩

def storedRevision : Revision := ⟨_, checking_ok.mpr ⟨netRevision_checks storeDigests, rfl⟩⟩

theorem committedNet_accepted : checking DesignTransaction.checks
    (committedAs (plainDigest '4') verifiedNet) =
    .ok (committedAs (plainDigest '4') verifiedNet) := by
  obtain ⟨t', ht'⟩ := committedAs_accepted checkedNet storedRevision
  have hval : t'.val = committedAs (plainDigest '4') verifiedNet := replace_ok ht'
  rw [← hval]
  exact t'.accepted

def committedNet : Transaction := ⟨_, committedNet_accepted⟩

/-- The start of 1970. -/
def epoch : DateTime := ⟨0, Text.zero_inRange⟩

theorem digest_plain {c : Char} (h : Text.isLowerHex c = true) (label : String) :
    requireDigest (plainDigest c) label = .ok () :=
  require_ok.mpr (require_ok.mp (plainDigest_isSha256 h ""))

theorem netEvidence_checks (approvalId : String)
    (hid : requirePublicId approvalId "approval ID" = .ok ()) (c : Char)
    (hc : Text.isLowerHex c = true) : ApprovalEvidence.checks
    ⟨approvalId, plainDigest c, "t1", plainDigest 'f', plainDigest '1', plainDigest '5', .approved,
      "user:owner", epoch, none⟩ = .ok () := by
  unfold ApprovalEvidence.checks
  simp only [bind_ok, exists_unit, forM_ok]
  exact ⟨hid, digest_plain hc _, by decide, digest_plain rfl _, digest_plain rfl _,
    digest_plain rfl _, by decide, by simp⟩

/-- The approval that the release was made with, and another one. -/
def firstApproval : Approval :=
  ⟨_, checking_ok.mpr ⟨netEvidence_checks "a1" (by decide) '6' rfl, rfl⟩⟩

def secondApproval : Approval :=
  ⟨_, checking_ok.mpr ⟨netEvidence_checks "a2" (by decide) '7' rfl, rfl⟩⟩

/-- What is attested of the release. -/
def netAttested : DurableCommitAttestation where
  schemaVersion := 1
  scope := "canonical-design-durable-commit"
  algorithm := "ed25519"
  attestationKeyId := "key"
  projectId := "demo"
  baseRevision := plainDigest 'b'
  headRevision := plainDigest 'b'
  parentRevision := plainDigest 'b'
  revisionHash := plainDigest '4'
  sequence := 1
  transactionId := "t1"
  commandHashes := [plainDigest 'd']
  commandHashesDigest := plainDigest '2'
  previewDigest := plainDigest 'f'
  verifiedPreviewDigest := plainDigest 'f'
  prospectiveGraphSha256 := plainDigest 'e'
  verificationReportHash := plainDigest '5'
  verificationInputHash := plainDigest 'a'
  verificationRuleSetHash := plainDigest 'a'
  commitGatePassed := true
  releaseSubjectDigest := plainDigest '1'
  approvalId := "a1"
  approvalRunId := "r1"
  approvalKind := "release"
  approvalDigest := plainDigest '6'
  approvalPrincipal := "user:owner"
  approvalDecidedAt := epoch
  approvalExpiresAt := none
  authorizationKeyId := "key"
  authorizationId := "authorization"
  authorizationDigest := plainDigest '3'
  authorizationNonce := plainDigest '7'
  authorizationIssuedAt := epoch
  authorizationExpiresAt := ⟨30000000, by decide⟩
  authorizationConsumedAt := epoch
  signature := String.ofList (List.replicate 128 '8')

theorem netAttested_checks : netAttested.checks = .ok () := by
  unfold DurableCommitAttestation.checks
  simp only [bind_ok, exists_unit, require_ok, forM_ok,
    List.mem_cons, List.not_mem_nil, or_false, forall_eq_or_imp, forall_eq]
  have hcommands : ∀ hash ∈ netAttested.commandHashes,
      requireDigest hash "attestation command hash" = .ok () := by
    intro hash hhash
    rw [List.mem_singleton.mp hhash]
    exact digest_plain rfl _
  refine ⟨rfl, ⟨rfl, rfl, rfl⟩, ⟨by decide, by decide, by decide, by decide, by decide, by decide,
    by decide, by decide⟩, ⟨digest_plain rfl _, digest_plain rfl _, digest_plain rfl _,
    digest_plain rfl _, digest_plain rfl _, digest_plain rfl _, digest_plain rfl _,
    digest_plain rfl _, digest_plain rfl _, digest_plain rfl _, digest_plain rfl _,
    digest_plain rfl _, digest_plain rfl _, digest_plain rfl _, digest_plain rfl _⟩,
    List.cons_ne_nil _ _, hcommands, by decide, rfl, by decide, by decide, ?_, ?_⟩
  · intro expiry hexpiry
    cases hexpiry
  · have hdigits : netAttested.signature.toList = List.replicate 128 '8' := String.toList_ofList
    unfold IsSignature
    rw [← String.length_toList, hdigits]
    exact ⟨List.length_replicate, by decide⟩

def netAttestation : Attestation := ⟨_, checking_ok.mpr ⟨netAttested_checks, rfl⟩⟩

/-- A keyring with the key that the release was attested with. -/
def netKeyring : Keyring where
  verify a := require (a.val.attestationKeyId = "key")
    (integrity "durable commit attestation key is not trusted")

theorem releaseSubjectDigest_net :
    releaseSubjectDigest (plainDigest 'b') (plainDigest 'f') (plainDigest '5') = plainDigest '1' :=
  storeDigests netEntries[6] (List.getElem_mem _)

theorem committedNet_commandHashes : committedNet.val.commandHashes = [plainDigest 'd'] :=
  verifiedNet_commandHashes storeDigests

theorem netAttestation_binds : validateAttestationBinding netKeyring netAttestation storedRevision
    committedNet firstApproval = .ok () := by
  rw [validateAttestationBinding_ok]
  refine ⟨rfl, plainDigest '2', plainDigest 'e', ?_, netGraph_graphHash storeDigests, ?_⟩
  · rw [committedNet_commandHashes]
    exact commitCommandHashesDigest_net storeDigests
  · refine ⟨⟨rfl, rfl, rfl, rfl, rfl, rfl, rfl, rfl, rfl, committedNet_commandHashes.symm, rfl⟩,
      ⟨rfl, rfl, rfl, rfl, rfl, rfl, rfl, rfl, rfl, rfl⟩, releaseSubjectDigest_net.symm, rfl, rfl,
      rfl, rfl, rfl, rfl, rfl, rfl, rfl⟩

theorem netApproval_binds {approval : Approval} (hid : approval.val.transactionId = "t1")
    (hpreview : approval.val.previewDigest = plainDigest 'f')
    (hreport : approval.val.verificationReportHash = plainDigest '5')
    (hsubject : approval.val.releaseSubjectDigest = plainDigest '1') :
    validateApprovalBinding approval committedNet = .ok () := by
  rw [validateApprovalBinding_ok]
  refine ⟨hid, hpreview, by rw [hreport]; rfl, require_ok.mpr ?_⟩
  rw [hsubject, hpreview, hreport]
  exact releaseSubjectDigest_net.symm

def storedKernel : DesignKernel where
  revisions := Dict.empty.set (plainDigest 'b') storedGenesis
  head := plainDigest 'b'

theorem fromRevision_genesis : fromRevision storedGenesis = .ok storedKernel := by
  unfold fromRevision
  simp only [bind_ok, exists_unit, require_ok, pure_ok]
  exact ⟨emptyGraph, emptyGraph_normalized, emptyGraph_valid, plainDigest 'a',
    emptyGraph_graphHash storeDigests, ⟨rfl, rfl⟩, rfl⟩

/-- The committed transaction replays up to its commit as the verified one. -/
theorem replay_net : ((replay committedNet.val).run storedKernel).1 = .ok checkedNet := by
  let k₁ : DesignKernel :=
    { storedKernel with transactions := storedKernel.transactions.set "t1" openedTransaction }
  have hbegin : (beginTransaction "t1" (plainDigest 'b')).run storedKernel =
      (.ok openedTransaction, k₁) :=
    beginTransaction_opens (by decide) (plainDigest_isSha256 rfl _) rfl
      (openTransaction_empty storeDigests rfl
        (Dict.set_self Dict.empty (plainDigest 'b') storedGenesis) rfl)
  have hopened : k₁.transactions "t1" = some openedTransaction :=
    Dict.set_self storedKernel.transactions "t1" openedTransaction
  have hstage : (stage netCommand).run k₁ = (.ok stagedNet, staged k₁ netCommand stagedNet) :=
    stage_returns.mpr ⟨openedTransaction, hopened, rfl,
      Or.inr ⟨rfl, rfl, extend_net storeDigests _, rfl⟩⟩
  have hstaged : (staged k₁ netCommand stagedNet).transactions "t1" = some stagedNet :=
    Dict.set_self k₁.transactions "t1" stagedNet
  have hverified : verifiedTransaction stagedNet (plainDigest '5') true (plainDigest 'f') =
      .ok checkedNet := by
    unfold verifiedTransaction
    rw [bind_ok]
    exact ⟨(), rfl, Checked.make_ok.mpr checkedNet.accepted⟩
  have hsubject : verificationSubject (some (plainDigest 'f')) stagedNet = plainDigest 'f' := by
    unfold verificationSubject
    exact if_neg (by decide)
  have hrecord := @recordVerification_records _ _ (staged k₁ netCommand stagedNet) "t1"
    (plainDigest '5') true (some (plainDigest 'f')) _ _ hstaged (plainDigest_isSha256 rfl _)
    hsubject (plainDigest_isSha256 rfl _) (by decide) hverified
  have hstageAll : (stageAll openedTransaction [netCommand]).run k₁ =
      (.ok stagedNet, staged k₁ netCommand stagedNet) := by
    unfold stageAll
    rw [List.foldlM_cons]
    exact bind_returns.mpr ⟨stagedNet, _, hstage, by rw [List.foldlM_nil]; rfl⟩
  let k₂ : DesignKernel := { staged k₁ netCommand stagedNet with
    transactions := (staged k₁ netCommand stagedNet).transactions.set "t1" checkedNet }
  have hrun : (replay committedNet.val).run storedKernel = (.ok checkedNet, k₂) := by
    unfold replay
    refine bind_returns.mpr ⟨openedTransaction, k₁, hbegin, ?_⟩
    refine bind_returns.mpr ⟨stagedNet, staged k₁ netCommand stagedNet, ?_, ?_⟩
    · exact hstageAll
    · exact bind_returns.mpr ⟨checkedNet, k₂, hrecord, rfl⟩
  rw [hrun]

theorem committedNet_valid :
    validateTransaction committedNet storedGenesis (some storedRevision) = .ok () := by
  have hchanged : plainDigest 'e' ≠ plainDigest 'a' := fun h =>
    absurd (plainDigest_inj h) (by decide)
  have hrevision : storedRevision.val = ⟨revisionHashOf (plainDigest 'b') 1 (plainDigest 'e')
      checkedNet.val.commandHashes (some (plainDigest '5')) (plainDigest 'f'),
      some (plainDigest 'b'), 1, netGraph, plainDigest 'e', checkedNet.val.commandHashes,
      some (plainDigest '5'), some (plainDigest 'f')⟩ := by
    have hhashes : checkedNet.val.commandHashes = [plainDigest 'd'] :=
      verifiedNet_commandHashes storeDigests
    rw [hhashes, revisionHashOf_net storeDigests]
    rfl
  have hcommitted : checkedNet.replace (committedAs (plainDigest '4')) = .ok committedNet :=
    Checked.make_ok.mpr committedNet.accepted
  have hcommit : replayCommit storedGenesis checkedNet (some storedRevision) = .ok committedNet :=
    replayCommit_makes rfl ⟨rfl, rfl, Option.some_ne_none _, rfl, List.cons_ne_nil _ _⟩
      (netGraph_graphHash storeDigests) hchanged netGraph_normalized
      (netGraph_graphHash storeDigests) hrevision hcommitted
  exact validateTransaction_committed rfl rfl rfl fromRevision_genesis replay_net hcommit

theorem surviving_of_roundTrips {α : Type} [DecidableEq α]
    {encode : α → Except StoreFailure (String × String)} {decode : String → Except StoreFailure α}
    {a : α} (h : RoundTrips encode decode a) (label : String) :
    ∃ document, surviving encode decode label a = .ok document := by
  obtain ⟨body, digest, hencode, hdecode⟩ := h
  exact ⟨(body, digest), surviving_ok.mpr ⟨hencode, hdecode⟩⟩

theorem documents_of_storable {r : Revision} {evidence : CommitEvidence}
    (hgraph : StorableGraph r.val.graph) (hhash : r.val.revisionHash = revisionHashFor r.val)
    (hcommands : ∀ c ∈ evidence.transaction.val.commands, CanonicalPayload c)
    (hstaged : StorableGraph evidence.transaction.val.stagedGraph) :
    ∃ documents : CommitDocuments, documents.Of r evidence := by
  obtain ⟨rd, hrd⟩ :=
    surviving_of_roundTrips ((revision_roundTrips r).mpr ⟨hgraph, hhash⟩) "revision"
  obtain ⟨td, htd⟩ :=
    surviving_of_roundTrips ((transaction_roundTrips hcommands).mpr hstaged) "transaction"
  obtain ⟨apd, hapd⟩ := surviving_of_roundTrips (approval_roundTrips evidence.approval) "approval"
  obtain ⟨ad, had⟩ :=
    surviving_of_roundTrips (attestation_roundTrips evidence.attestation) "attestation"
  exact ⟨⟨rd, td, apd, ad⟩, hrd, htd, hapd, had⟩

theorem storedRevision_hash : storedRevision.val.revisionHash = revisionHashFor storedRevision.val :=
  (storeDigests netEntries[9] (List.getElem_mem _)).symm

theorem storedGenesis_hash : storedGenesis.val.revisionHash = revisionHashFor storedGenesis.val :=
  (storeDigests netEntries[1] (List.getElem_mem _)).symm

def netEvidence : CommitEvidence := ⟨committedNet, firstApproval, netAttestation⟩

theorem netEvidence_successor :
    successorChecks "demo" storedRevision storedGenesis netEvidence = .ok () := by
  unfold successorChecks
  simp only [bind_ok, exists_unit, require_ok]
  exact ⟨⟨rfl, rfl, rfl⟩, ⟨rfl, rfl, rfl, committedNet_commandHashes, rfl⟩, ⟨rfl, rfl⟩,
    netApproval_binds rfl rfl rfl rfl, committedNet_valid⟩

theorem netEvidence_documents : ∃ documents : CommitDocuments,
    documents.Of storedRevision netEvidence := by
  refine documents_of_storable netGraph_storable storedRevision_hash (fun c hc => ?_)
    netGraph_storable
  rw [List.mem_singleton.mp hc]
  exact netCommand_payload

/-- The project is made and the revision is appended. -/
def netRelease : List StoreOperation :=
  [.createProject storedGenesis,
    .appendRevision "demo" storedRevision (plainDigest 'b') netEvidence none]

theorem netEvidence_new {db : Database} (hattestations : db.attestations = [])
    (htransactions : (db.of "demo").transactions = []) (happrovals : (db.of "demo").approvals = []) :
    NewTo "demo" db [storedGenesis] storedRevision netEvidence := by
  refine ⟨?_, by simp [htransactions], by simp [happrovals], by simp [hattestations],
    by simp [hattestations], by simp [hattestations]⟩
  rw [List.map_singleton, List.mem_singleton]
  intro h
  exact absurd (plainDigest_inj h) (by decide)

theorem netRelease_appends : ∃ s₁ s₂,
    afterCalls netKeyring [.createProject storedGenesis] = s₁ ∧
    Intact netKeyring "demo" (s₁.database.of "demo") (s₁.anchors "demo") [storedGenesis]
      storedGenesis ∧
    (s₁.database.attestations = [] ∧ (s₁.database.of "demo").transactions = [] ∧
      (s₁.database.of "demo").approvals = []) ∧
    (appendRevision netKeyring "demo" storedRevision (plainDigest 'b') netEvidence none).run s₁ =
      (.ok (), s₂) := by
  obtain ⟨document, hdocument⟩ := surviving_of_roundTrips ((revision_roundTrips storedGenesis).mpr
    ⟨⟨emptyGraph_valid, emptyGraph_normalized⟩, storedGenesis_hash⟩) "revision"
  obtain ⟨documents, hdocuments⟩ := netEvidence_documents
  have hanchor : ProjectHeadAnchorState.checks
      ⟨"demo", 0, plainDigest 'b', genesisAttestationDigest⟩ = .ok () := by decide
  obtain ⟨s₁, hcreate, h₁, hattestations, htransactions, happrovals⟩ :=
    @createProject_accepts _ _ netKeyring {} document storedGenesis
      ⟨_, checking_ok.mpr ⟨hanchor, rfl⟩⟩ rfl rfl rfl rfl storedGenesis_hash hdocument
      (anchorState_ok.mpr rfl)
  have hproject : storedGenesis.val.graph.projectId = "demo" := rfl
  have hhead : storedGenesis.val.revisionHash = plainDigest 'b' := rfl
  rw [hproject] at h₁ htransactions happrovals
  have hdigest := storeHashing_digest documents.attestation.1.toList
  have hbody : Hashing.sha256 documents.attestation.1.toList = documents.attestation.2 :=
    (survivingAttestation_ok hdocuments.attestation).2
  rw [hbody] at hdigest
  obtain ⟨s₂, happend⟩ := appendRevision_accepts h₁ storedRevision_hash rfl rfl hdocuments
    netAttestation_binds netEvidence_successor
    (netEvidence_new hattestations htransactions happrovals) hdigest.1 hdigest.2
  rw [hhead] at happend
  have hcreated : afterCall netKeyring {} (.createProject storedGenesis) = s₁ := by
    rw [afterCall, hcreate]
  refine ⟨s₁, s₂, ?_, h₁, ⟨hattestations, htransactions, happrovals⟩, happend⟩
  unfold afterCalls
  rw [Replay.cons hcreated, Replay.nil]

theorem netRelease_intact : ∃ s, afterCalls netKeyring netRelease = s ∧
    Intact netKeyring "demo" (s.database.of "demo") (s.anchors "demo")
      [storedGenesis, storedRevision] storedRevision ∧
    (∃ row ∈ (s.database.of "demo").transactions, ∃ g,
      decodeTransactionRow row = .ok ⟨committedNet, g⟩) ∧
    ∃ row, (s.database.of "demo").approvals = [row] ∧ loadApproval row = .ok firstApproval := by
  obtain ⟨s₁, s₂, hs₁, h₁, ⟨-, -, happrovals⟩, happend⟩ := netRelease_appends
  obtain ⟨h₂, happended, -⟩ := appendRevision_returns h₁ happend
  obtain ⟨trow, g, hrewritten, hdecoded⟩ := happended.transactions
  obtain ⟨aprow, haprow, hload, hkept⟩ := happended.approvals
  refine ⟨s₂, ?_, h₂, ⟨trow, hrewritten.mem, g, hdecoded⟩, aprow, ?_, hload⟩
  · have hafter : afterCall netKeyring s₁ (.appendRevision "demo" storedRevision
        (plainDigest 'b') netEvidence none) = s₂ := by
      rw [afterCall, happend]
    have hsplit : netRelease = [.createProject storedGenesis] ++
        [.appendRevision "demo" storedRevision (plainDigest 'b') netEvidence none] := rfl
    unfold afterCalls at hs₁ ⊢
    rw [hsplit, Replay.snoc, hs₁, hafter]
  · rw [happrovals] at hkept
    obtain hsame | ⟨hmore, -⟩ := hkept
    · rw [hsame] at haprow
      cases haprow
    · exact hmore

theorem written_restores_release : ∃ state,
    (restore netKeyring "demo").run (afterCalls netKeyring netRelease) =
      (.ok state, afterCalls netKeyring netRelease) ∧
    Linear state.revisions ∧ state.revisions.getLast? = some state.headRevision ∧
    ∀ r ∈ state.revisions.tail, Evidenced netKeyring state r := by
  obtain ⟨s, hs, h, -⟩ := netRelease_intact
  refine written_restores netKeyring netRelease "demo" ?_
  rw [hs]
  exact h.hasProject

/-- A release may have more than one affirmative approval: another one is recorded after it. -/
theorem second_approval_kept : ∃ state,
    (restore netKeyring "demo").run
        (afterCalls netKeyring (netRelease ++ [.recordApproval "demo" secondApproval])) =
      (.ok state, afterCalls netKeyring (netRelease ++ [.recordApproval "demo" secondApproval])) ∧
    storedRevision ∈ state.revisions.tail ∧
    committedFor state.transactions storedRevision = [committedNet] ∧
    firstApproval ∈ affirmativeFor state.approvals committedNet storedRevision ∧
    secondApproval ∈ affirmativeFor state.approvals committedNet storedRevision ∧
    firstApproval ≠ secondApproval := by
  obtain ⟨s₂, hs₂, h₂, ⟨trow, htrow, g, hdecoded⟩, aprow, haprows, hload⟩ := netRelease_intact
  obtain ⟨document, hdocument⟩ :=
    surviving_of_roundTrips (approval_roundTrips secondApproval) "approval"
  have hid : aprow.approvalId = "a1" := (loadApproval_ok.mp hload).2.2.1.symm
  have hfresh : secondApproval.val.approvalId ∉
      (s₂.database.of "demo").approvals.map (·.approvalId) := by
    rw [haprows, List.map_singleton, List.mem_singleton, hid]
    decide
  have hrecord := recordApproval_accepts h₂ hdocument htrow hdecoded
    (netApproval_binds rfl rfl rfl rfl) hfresh
  let row := approvalRow "demo" secondApproval document.1 document.2
  have hrowLoad : loadApproval row = .ok secondApproval := approvalRow_loads hdocument
  have hproject : row.projectId = "demo" := rfl
  obtain ⟨-, hself, -⟩ := Database.insertApproval_ok
    (@insertApproval_accepts _ "demo" secondApproval document _ h₂.hasProject hfresh) hproject
  let s₃ : StoreState := { s₂ with database := { s₂.database with
    approvals := s₂.database.approvals ++ [row] } }
  have hcalls : afterCalls netKeyring
      (netRelease ++ [.recordApproval "demo" secondApproval]) = s₃ := by
    have happroved : afterCall netKeyring s₂ (.recordApproval "demo" secondApproval) = s₃ := by
      rw [afterCall, hrecord]
    unfold afterCalls at hs₂ ⊢
    rw [Replay.snoc, hs₂, happroved]
  obtain ⟨-, -, hrowId, hrowBase, -⟩ := decodeTransactionRow_ok.mp hdecoded
  have h₃ := h₂.approve hrowLoad hfresh htrow (hrowId.symm.trans rfl)
    (by
      rw [← hrowBase]
      exact (validateApprovalBinding_ok.mp (netApproval_binds rfl rfl rfl rfl)).2.2.2)
  rw [← hself] at h₃
  obtain ⟨state, hrestored, hrevisions, -, hsnapshot⟩ :=
    @Intact.restores _ _ netKeyring "demo" _ _ s₃ h₃
  have hr : storedRevision ∈ [storedGenesis, storedRevision].tail := List.mem_singleton_self _
  obtain ⟨a, t, approval, hreleased⟩ := h₃.released storedRevision hr
  have hsame : committedNet = t := by
    have htrow₃ : trow ∈ (s₃.database.of "demo").transactions := by
      rw [hself]
      exact htrow
    exact h₃.committed_by hr hreleased htrow₃ hdecoded rfl rfl
  rw [← hsame] at hreleased
  have hmatches : ∀ {approval : Approval}, approval ∈ state.approvals →
      approval.val.transactionId = "t1" → approval.val.previewDigest = plainDigest 'f' →
      approval.val.verificationReportHash = plainDigest '5' → approval.val.decision = .approved →
      approval ∈ affirmativeFor state.approvals committedNet storedRevision := by
    intro approval hmem hid hpreview hreport hdecision
    refine List.mem_filter.mpr ⟨hmem, ?_⟩
    simp only [Bool.and_eq_true, beq_iff_eq]
    exact ⟨⟨⟨hid, by rw [hpreview]; rfl⟩, by rw [hreport]; rfl⟩, hdecision⟩
  refine ⟨state, ?_, ?_, ?_, hmatches ?_ rfl rfl rfl rfl, hmatches ?_ rfl rfl rfl rfl, ?_⟩
  · rw [hcalls]
    exact hrestored
  · rw [hrevisions]
    exact hr
  · exact h₃.committedFor_eq hsnapshot.transactions hsnapshot.transactionIds hr hreleased
  · refine (hsnapshot.approvals _).mpr ⟨aprow, ?_, hload⟩
    rw [hself, haprows]
    simp
  · refine (hsnapshot.approvals _).mpr ⟨row, ?_, hrowLoad⟩
    rw [hself]
    simp [row]
  · intro h
    have hids := congrArg (fun a : Approval => a.val.approvalId) h
    exact absurd hids (by decide)

end Release

end Evleda.ProjectStore
