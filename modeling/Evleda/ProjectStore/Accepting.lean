/-
What the store takes.

The checks of a call are met when the project is intact and the records it is
given bind what is there: an approval of a transaction that is kept, a snapshot
that replays, a revision that extends the head with the transaction, the approval
and the attestation that bind it.  New ids and hashes have to be new; the nonce,
the authorization and the approval digest of an attestation have to be new to the
whole database.
-/
import Evleda.ProjectStore.Keeping

namespace Evleda.ProjectStore

open Kernel Effect Outcome

section Accepting

variable [UnicodeData] [Hashing] {keyring : Keyring} {s s' : StoreState} {projectId : String}
  {revisions : List Revision} {head r : Revision} {t : Transaction} {approval : Approval}
  {document : String × String}

theorem Intact.hasProject
    (h : Intact keyring projectId (s.database.of projectId) (s.anchors projectId) revisions head) :
    s.database.hasProject projectId := by
  rw [hasProject_iff, h.project]
  exact List.cons_ne_nil _ _

theorem Intact.asserts_head
    (h : Intact keyring projectId (s.database.of projectId) (s.anchors projectId) revisions head) :
    ∃ A, (assertHeadAnchor head).run s = (.ok A, s) := by
  obtain ⟨digest, A, hanchor, hval, hgenesis, hlater⟩ := h.anchored
  have hproject : head.val.graph.projectId = projectId :=
    (loadChain_rows h.chain).2.2.2 head h.head_mem
  have hdigest : headAttestationDigest s.database head = .ok digest := by
    unfold headAttestationDigest
    by_cases hzero : head.val.sequence = 0
    · rw [if_pos hzero, hgenesis hzero]
    · rw [if_neg hzero]
      obtain ⟨row, hrow, hhash, rfl⟩ := hlater hzero
      simp only [bind_ok, located_ok, pure_ok]
      refine ⟨row, ?_, rfl⟩
      rw [hproject, find?_own]
      exact find?_of_nodup h.attestationHashes hrow hhash
  refine ⟨A, ?_⟩
  unfold assertHeadAnchor
  rw [run_read_bind, check_bind_returns]
  have hstate : headAnchorState s.database head = .ok A := by
    unfold headAnchorState
    rw [bind_ok]
    exact ⟨digest, hdigest, anchorState_ok.mpr (by rw [hval, hproject])⟩
  refine ⟨A, hstate, bind_returns.mpr ⟨some A, s, ?_, ?_⟩⟩
  · unfold readAnchor
    rw [check_bind_returns]
    refine ⟨(), anchorIdentifier_ok A _, ?_⟩
    rw [← hanchor, hval]
    rfl
  · rw [check_bind_returns]
    exact ⟨(), require_ok.mpr rfl, rfl⟩

omit [Hashing] in
theorem approval_digests (approval : Approval) : Text.isSha256 approval.val.approvalDigest ∧
    Text.isSha256 approval.val.releaseSubjectDigest ∧
    Text.isSha256 approval.val.verificationReportHash := by
  have hchecks := (checking_ok.mp approval.accepted).1
  unfold ApprovalEvidence.checks requireDigest at hchecks
  simp only [bind_ok, exists_unit, require_ok] at hchecks
  obtain ⟨-, hdigest, -, -, hsubject, hreport, -⟩ := hchecks
  exact ⟨hdigest, hsubject, hreport⟩

omit [Hashing] in
theorem insertApproval_accepts {db : Database} (hproject : db.hasProject projectId)
    (hnew : approval.val.approvalId ∉ (db.of projectId).approvals.map (·.approvalId)) :
    db.insertApproval (approvalRow projectId approval document.1 document.2) =
      .ok { db with
        approvals := db.approvals ++ [approvalRow projectId approval document.1 document.2] } := by
  unfold Database.insertApproval
  simp only [bind_ok, exists_unit, require_ok, pure_ok, and_true]
  exact ⟨hproject, key_fresh_iff.mpr hnew, approval_digests approval⟩

theorem recordApproval_accepts
    (h : Intact keyring projectId (s.database.of projectId) (s.anchors projectId) revisions head)
    (hdocument : survivingApproval approval = .ok document) {row : TransactionRow} {g : Nat}
    (hrow : row ∈ (s.database.of projectId).transactions)
    (hdecoded : decodeTransactionRow row = .ok ⟨t, g⟩)
    (hbinding : validateApprovalBinding approval t = .ok ())
    (hnew : approval.val.approvalId ∉ (s.database.of projectId).approvals.map (·.approvalId)) :
    (recordApproval keyring projectId approval).run s =
      (.ok (), { s with database := { s.database with approvals := s.database.approvals ++
        [approvalRow projectId approval document.1 document.2] } }) := by
  obtain ⟨state, hrestored, -⟩ := h.restores
  obtain ⟨stored, hstored, hmem, hnodup⟩ := h.loads_transactions
  obtain ⟨A, hA⟩ := h.asserts_head
  have hfound : stored.find? (·.transaction.val.transactionId == approval.val.transactionId) =
      some ⟨t, g⟩ := by
    refine find?_of_nodup hnodup ((hmem _).mpr ⟨row, hrow, hdecoded⟩) ?_
    exact (validateApprovalBinding_ok.mp hbinding).1.symm
  unfold recordApproval
  refine check_bind_returns.mpr ⟨document, hdocument, bind_returns.mpr ⟨state, s, hrestored, ?_⟩⟩
  rw [transactionally_returns]
  unfold recordLocked
  rw [run_read_bind]
  refine check_bind_returns.mpr ⟨revisions, h.loads_revisions, ?_⟩
  refine check_bind_returns.mpr ⟨head, located_ok.mpr h.last, ?_⟩
  refine bind_returns.mpr ⟨A, s, hA, ?_⟩
  refine check_bind_returns.mpr ⟨stored, hstored, ?_⟩
  refine check_bind_returns.mpr ⟨⟨t, g⟩, located_ok.mpr hfound, ?_⟩
  refine check_bind_returns.mpr ⟨(), hbinding, ?_⟩
  rw [handling_raising_returns, execute_returns]
  exact ⟨_, insertApproval_accepts h.hasProject hnew, rfl⟩

/-! ### Projects -/

theorem createProject_accepts {genesis : Revision} {A : Anchor}
    (hrows : s.database.of genesis.val.graph.projectId = {})
    (hanchor : s.anchors genesis.val.graph.projectId = none)
    (hsequence : genesis.val.sequence = 0) (hparent : genesis.val.parentRevision = none)
    (hhash : genesis.val.revisionHash = revisionHashFor genesis.val)
    (hdocument : survivingRevision genesis = .ok document)
    (hA : anchorState genesis.val.graph.projectId 0 genesis.val.revisionHash
      genesisAttestationDigest = .ok A) :
    ∃ s', (createProject genesis).run s = (.ok (), s') ∧
      Intact keyring genesis.val.graph.projectId (s'.database.of genesis.val.graph.projectId)
        (s'.anchors genesis.val.graph.projectId) [genesis] genesis ∧
      s'.database.attestations = s.database.attestations ∧
      (s'.database.of genesis.val.graph.projectId).transactions = [] ∧
      (s'.database.of genesis.val.graph.projectId).approvals = [] := by
  have hnew : ¬ s.database.hasProject genesis.val.graph.projectId := by
    rw [hasProject_iff, hrows]
    exact fun h => h rfl
  have hproject : A.val.projectId = genesis.val.graph.projectId := by rw [anchorState_ok.mp hA]
  let m : StoreState := { s with anchors := s.anchors.set genesis.val.graph.projectId A }
  have hinitialized : (initializeAnchor A).run s = (.ok (), m) := by
    unfold initializeAnchor
    rw [run_read_bind, check_bind_returns]
    refine ⟨(), require_ok.mpr ?_, by rw [hproject]; rfl⟩
    rw [hproject, hanchor]
    intro found hfound
    cases hfound
  obtain ⟨m', hinserted, hattestations⟩ : ∃ m',
      (insertGenesis genesis document.1 document.2).run m = (.ok (), m') ∧
        m'.database.attestations = s.database.attestations := by
    obtain ⟨db₁, hdb₁, hprojects, hrevisions, hattestations⟩ : ∃ db₁, s.database.insertProject
        ⟨genesis.val.graph.projectId, genesis.val.revisionHash, 0, 0⟩ = .ok db₁ ∧
        db₁.hasProject genesis.val.graph.projectId ∧
        db₁.revisions = s.database.revisions ∧ db₁.attestations = s.database.attestations := by
      unfold Database.insertProject
      simp only [bind_ok, exists_unit, require_ok, pure_ok]
      exact ⟨_, ⟨hnew, rfl⟩, by simp [Database.hasProject], rfl, rfl⟩
    have hempty : s.database.revisions.filter (·.projectId == genesis.val.graph.projectId) = [] :=
      congrArg Database.revisions hrows
    have hfresh : ∀ {κ : Type} (key : RevisionRow → κ) (k : κ), (genesis.val.graph.projectId, k) ∉
        s.database.revisions.map (fun row => (row.projectId, key row)) := by
      intro κ key k
      rw [key_fresh_iff, hempty]
      exact List.not_mem_nil
    obtain ⟨db₂, hdb₂, hattestations₂⟩ : ∃ db₂, db₁.insertRevision
        ⟨genesis.val.graph.projectId, 0, genesis.val.revisionHash, none, genesis.val.graphHash, "",
          recordHashOf genesis.val.graph.projectId 0 genesis.val.revisionHash document.2 "",
          document.1, document.2⟩ = .ok db₂ ∧ db₂.attestations = s.database.attestations := by
      unfold Database.insertRevision
      simp only [bind_ok, exists_unit, require_ok, pure_ok,
        hrevisions]
      exact ⟨_, ⟨⟨hprojects, hfresh _ _, hfresh _ _⟩, rfl⟩, hattestations⟩
    refine ⟨{ m with database := db₂ }, ?_, hattestations₂⟩
    unfold insertGenesis
    dsimp only
    rw [transactionally_returns, handling_raising_returns]
    refine bind_returns.mpr ⟨(), { m with database := db₁ }, ?_, ?_⟩
    · exact execute_returns.mpr ⟨db₁, hdb₁, rfl⟩
    · exact execute_returns.mpr ⟨db₂, hdb₂, rfl⟩
  obtain ⟨hanchors, hself, -⟩ := insertGenesis_returns hinserted rfl hrows
  have hintact := @intact_genesis _ _ keyring _ genesis document A rfl hsequence hparent hdocument
    (anchorState_ok.mp hA)
  have hat : m'.anchors genesis.val.graph.projectId = some A := by
    rw [hanchors]
    exact Dict.set_self _ _ _
  rw [← hself, ← hat] at hintact
  refine ⟨m', ?_, hintact, hattestations, by rw [hself], by rw [hself]⟩
  unfold createProject
  refine check_bind_returns.mpr ⟨(), require_ok.mpr ⟨hsequence, hparent⟩, ?_⟩
  refine check_bind_returns.mpr ⟨(), require_ok.mpr hhash, ?_⟩
  refine check_bind_returns.mpr ⟨document, hdocument, check_bind_returns.mpr ⟨A, hA, ?_⟩⟩
  rw [run_read_bind, if_neg hnew]
  exact bind_returns.mpr ⟨(), m, hinitialized, handling_returns hinserted⟩

/-! ### Snapshots of transactions -/

/-- A snapshot under a new id is written. -/
theorem writeTransaction_inserts {body digest expectation : String}
    (hproject : s.database.hasProject projectId)
    (hnew : t.val.transactionId ∉ (s.database.of projectId).transactions.map (·.transactionId)) :
    (writeTransaction projectId t body digest none expectation).run s =
      (.ok 0, { s with database := { s.database with transactions := s.database.transactions ++
        [transactionRow projectId t 0 body digest] } }) := by
  have hnone : s.database.transactions.find? (fun row =>
      row.projectId == projectId && row.transactionId == t.val.transactionId) = none := by
    rw [List.find?_eq_none]
    intro row hrow hat
    rw [Bool.and_eq_true, beq_iff_eq, beq_iff_eq] at hat
    refine hnew (List.mem_map.mpr ⟨row, List.mem_filter.mpr ⟨hrow, ?_⟩, hat.2⟩)
    exact beq_iff_eq.mpr hat.1
  have hinsert : s.database.insertTransaction (transactionRow projectId t 0 body digest) =
      .ok { s.database with transactions := s.database.transactions ++
        [transactionRow projectId t 0 body digest] } := by
    unfold Database.insertTransaction
    simp only [bind_ok, exists_unit, require_ok, pure_ok, and_true]
    exact ⟨hproject, key_fresh_iff.mpr hnew⟩
  unfold writeTransaction
  rw [run_read_bind]
  refine check_bind_returns.mpr ⟨(), require_ok.mpr hnone, bind_returns.mpr ⟨(), _, ?_, rfl⟩⟩
  exact execute_returns.mpr ⟨_, hinsert, rfl⟩

/-- A snapshot that the stored one allows replaces it. -/
theorem writeTransaction_updates {body digest : String} {row : TransactionRow}
    {stored : StoredTransaction}
    (hids : ((s.database.of projectId).transactions.map TransactionRow.transactionId).Nodup)
    (hrow : row ∈ (s.database.of projectId).transactions)
    (hdecoded : decodeTransactionRow row = .ok stored)
    (htransition : validateTransactionTransition stored.transaction t = .ok ()) :
    ∃ s', ∀ expectation, (writeTransaction projectId t body digest (some stored.generation)
      expectation).run s = (.ok (stored.generation + 1), s') := by
  obtain ⟨hid, hbase, hopen, hkept⟩ := transition_ok htransition
  obtain ⟨-, -, hrowId, hrowBase, hrowState, -, hrowGeneration⟩ := decodeTransactionRow_ok.mp hdecoded
  have hfind : s.database.transactions.find? (fun row =>
      row.projectId == projectId && row.transactionId == t.val.transactionId) = some row := by
    rw [find?_own]
    exact find?_of_nodup hids hrow (hrowId.symm.trans hid.symm)
  have hrows : s.database.transactions.filter (TransactionRow.isAt projectId t.val.transactionId
      t.val.baseRevision stored.generation) = [row] := by
    have hfilter : s.database.transactions.filter (TransactionRow.isAt projectId
        t.val.transactionId t.val.baseRevision stored.generation) =
        (s.database.of projectId).transactions.filter (TransactionRow.isAt projectId
          t.val.transactionId t.val.baseRevision stored.generation) := by
      rw [Database.of, List.filter_filter]
      refine List.filter_congr fun other _ => ?_
      by_cases hat : other.isAt projectId t.val.transactionId t.val.baseRevision stored.generation
      · rw [hat, (TransactionRow.isAt_iff.mp hat).1, BEq.rfl]
        rfl
      · rw [Bool.not_eq_true] at hat
        rw [hat, Bool.false_and]
    rw [hfilter]
    have hown : row.projectId = projectId := beq_iff_eq.mp (List.mem_filter.mp hrow).2
    refine eq_singleton_of_nodup (List.Nodup.filter _ (List.Nodup.of_map _ hids)) ?_ ?_
    · refine List.mem_filter.mpr ⟨hrow, TransactionRow.isAt_iff.mpr ⟨hown, ?_, ?_, ?_⟩⟩
      · exact hrowId.symm.trans hid.symm
      · rw [hrowGeneration]
      · exact hrowBase.symm.trans hbase.symm
    · intro other hother
      obtain ⟨hmem, hat⟩ := List.mem_filter.mp hother
      refine List.inj_on_of_nodup_map hids hmem hrow ?_
      exact (TransactionRow.isAt_iff.mp hat).2.1.trans (hid.trans hrowId)
  have hupdate : ∃ db, s.database.updateTransaction
      (transactionRow projectId t (stored.generation + 1) body digest) stored.generation =
      .ok db := by
    have hopen : ∀ old ∈ s.database.transactions.filter (TransactionRow.isAt projectId
        t.val.transactionId t.val.baseRevision stored.generation),
        old.state ∉ ["committed", "rolled_back"] := by
      intro old hold
      rw [hrows] at hold
      rw [List.mem_singleton.mp hold, ← hrowState]
      cases hstate : stored.transaction.val.state with
      | opened => decide
      | verified => decide
      | committed => exact absurd hstate hopen
      | rolledBack => exact absurd hstate hkept
    have hlength := congrArg List.length hrows
    unfold Database.updateTransaction
    simp only [bind_ok, exists_unit, require_ok, pure_ok]
    exact ⟨_, hopen, hlength, rfl⟩
  obtain ⟨db, hdb⟩ := hupdate
  refine ⟨{ s with database := db }, fun expectation => ?_⟩
  unfold writeTransaction
  rw [run_read_bind]
  dsimp only
  rw [hfind]
  refine check_bind_returns.mpr ⟨(), require_ok.mpr (by omega), ?_⟩
  refine check_bind_returns.mpr ⟨stored, hdecoded, ?_⟩
  refine check_bind_returns.mpr ⟨(), require_ok.mpr rfl, ?_⟩
  refine check_bind_returns.mpr ⟨(), htransition, ?_⟩
  exact bind_returns.mpr ⟨(), _, execute_returns.mpr ⟨db, hdb, rfl⟩, rfl⟩

/-- A snapshot that replays on the head is saved if it can be written. -/
theorem saveTransaction_accepts
    (h : Intact keyring projectId (s.database.of projectId) (s.anchors projectId) revisions head)
    (hdocument : survivingTransaction t = .ok document) (hstate : t.val.state ≠ .committed)
    (hvalid : validateTransaction t head = .ok ()) {expectedGeneration : Option Int} {g : Nat}
    (hwrites : ∀ expectation, (writeTransaction projectId t document.1 document.2
      expectedGeneration expectation).run s = (.ok g, s')) :
    (saveTransaction keyring projectId t expectedGeneration).run s = (.ok ⟨t, g⟩, s') := by
  obtain ⟨state, hrestored, -⟩ := h.restores
  obtain ⟨A, hA⟩ := h.asserts_head
  have hbase : byHash revisions t.val.baseRevision = some head := by
    have hsame : t.val.baseRevision = head.val.revisionHash := by
      unfold validateTransaction at hvalid
      obtain ⟨_, hsame, -⟩ := bind_ok.mp hvalid
      exact require_ok.mp hsame
    rw [hsame]
    exact byHash_of_mem h.hashes h.head_mem
  unfold saveTransaction
  refine check_bind_returns.mpr ⟨(), require_ok.mpr hstate, ?_⟩
  refine check_bind_returns.mpr ⟨document, hdocument, bind_returns.mpr ⟨state, s, hrestored, ?_⟩⟩
  rw [transactionally_returns]
  unfold saveLocked
  rw [run_read_bind]
  refine check_bind_returns.mpr ⟨revisions, h.loads_revisions, ?_⟩
  refine check_bind_returns.mpr ⟨head, located_ok.mpr h.last, ?_⟩
  refine bind_returns.mpr ⟨A, s, hA, ?_⟩
  refine check_bind_returns.mpr ⟨head, located_ok.mpr hbase, ?_⟩
  refine check_bind_returns.mpr ⟨(), require_ok.mpr fun _ => rfl, ?_⟩
  refine check_bind_returns.mpr ⟨(), hvalid, ?_⟩
  exact bind_returns.mpr ⟨g, s', hwrites _, rfl⟩

/-! ### Replays -/

theorem replayCommit_makes {base committed : Revision} {replayed t' : Transaction} {preview : String}
    {graph : DesignGraph} {stagedHash graphHash : String}
    (hpreview : committed.val.approvalPreviewDigest = some preview)
    (hverified : replayed.val.state = .verified ∧
      replayed.val.commitGatePassed = true ∧ replayed.val.verificationReportHash ≠ none ∧
      replayed.val.verificationPreviewDigest = some replayed.val.previewDigest ∧
      replayed.val.commands ≠ [])
    (hstaged : replayed.val.stagedGraph.graphHash = .ok stagedHash)
    (hchanged : stagedHash ≠ base.val.graphHash)
    (hgraph : replayed.val.stagedGraph.normalized = .ok graph)
    (hgraphHash : graph.graphHash = .ok graphHash)
    (hval : committed.val = ⟨revisionHashOf base.val.revisionHash (base.val.sequence + 1) graphHash
        replayed.val.commandHashes replayed.val.verificationReportHash preview,
      some base.val.revisionHash, base.val.sequence + 1, graph, graphHash,
      replayed.val.commandHashes, replayed.val.verificationReportHash, some preview⟩)
    (ht' : replayed.replace (committedAs committed.val.revisionHash) = .ok t') :
    replayCommit base replayed (some committed) = .ok t' := by
  obtain ⟨hstate, hgate, hreport, hsubject, hcommands⟩ := hverified
  unfold replayCommit
  simp only [bind_ok, exists_unit, require_ok, located_ok, fromKernel_ok,
    construct_ok]
  exact ⟨committed, rfl, preview, hpreview, stagedHash, hstaged,
    ⟨hstate, hgate, hreport, hsubject, hcommands, hchanged⟩, graph, hgraph, graphHash, hgraphHash,
    committed, hval, rfl, ht'⟩

theorem validateTransaction_committed {base r : Revision} {replayed : Transaction}
    {k : DesignKernel} (hbase : t.val.baseRevision = base.val.revisionHash)
    (hproject : t.val.stagedGraph.projectId = base.val.graph.projectId)
    (hstate : t.val.state = .committed) (hkernel : fromRevision base = .ok k)
    (hreplayed : ((replay t.val).run k).1 = .ok replayed)
    (hcommit : replayCommit base replayed (some r) = .ok t) :
    validateTransaction t base (some r) = .ok () := by
  unfold validateTransaction
  simp only [bind_ok, exists_unit, require_ok, fromKernel_ok, if_pos hstate]
  exact ⟨hbase, hproject, k, hkernel, replayed, hreplayed, t, hcommit, rfl⟩

theorem validateTransaction_accepts {base : Revision} {committedRevision : Option Revision}
    (hbase : t.val.baseRevision = base.val.revisionHash)
    (hproject : t.val.stagedGraph.projectId = base.val.graph.projectId)
    {k : DesignKernel} (hk : fromRevision base = .ok k) (hreplayed : ((replay t.val).run k).1 = .ok t)
    (hstate : t.val.state ≠ .committed) :
    validateTransaction t base committedRevision = .ok () := by
  unfold validateTransaction
  simp only [if_neg hstate, bind_ok, exists_unit, pure_ok, fromKernel_ok,
    require_ok, exists_eq_left']
  exact ⟨hbase, hproject, k, hk, t, hreplayed, rfl⟩

/-! ### Revisions -/

omit [Hashing] in
theorem keepApproval_inserts (hproject : s.database.hasProject projectId)
    (hnew : approval.val.approvalId ∉ (s.database.of projectId).approvals.map (·.approvalId)) :
    (keepApproval projectId approval document.1 document.2).run s =
      (.ok (), { s with database := { s.database with approvals := s.database.approvals ++
        [approvalRow projectId approval document.1 document.2] } }) := by
  have hnone : s.database.approvals.find? (fun row =>
      row.projectId == projectId && row.approvalId == approval.val.approvalId) = none := by
    rw [find?_own, List.find?_eq_none]
    intro row hrow hid
    exact hnew (List.mem_map.mpr ⟨row, hrow, beq_iff_eq.mp hid⟩)
  unfold keepApproval
  rw [run_read_bind, hnone]
  exact execute_returns.mpr ⟨_, insertApproval_accepts hproject hnew, rfl⟩

/-- What has to be new for a revision to be appended with its evidence. -/
structure NewTo (projectId : String) (db : Database) (revisions : List Revision) (r : Revision)
    (evidence : CommitEvidence) : Prop where
  revision : r.val.revisionHash ∉ revisions.map (·.val.revisionHash)
  transaction : evidence.transaction.val.transactionId ∉
    (db.of projectId).transactions.map (·.transactionId)
  approval : evidence.approval.val.approvalId ∉ (db.of projectId).approvals.map (·.approvalId)
  authorization :
    (evidence.attestation.val.authorizationKeyId, evidence.attestation.val.authorizationDigest) ∉
      db.attestations.map fun row => (row.authorizationKeyId, row.authorizationDigest)
  nonce :
    (evidence.attestation.val.authorizationKeyId, evidence.attestation.val.authorizationNonce) ∉
      db.attestations.map fun row => (row.authorizationKeyId, row.authorizationNonce)
  approvalDigest :
    evidence.attestation.val.approvalDigest ∉ db.attestations.map AttestationRow.approvalDigest

omit [UnicodeData] [Hashing] in
theorem advanceHead_accepts {db : Database} {row old : ProjectRow} {expectedHead : String}
    {expectedSequence : Nat} (hold : (db.of row.projectId).projects = [old])
    (hhead : old.headRevision = expectedHead) (hsequence : old.headSequence = expectedSequence) :
    ∃ db', db.advanceHead row expectedHead expectedSequence = .ok db' := by
  have hone : (db.projects.filter fun found : ProjectRow => found.projectId == row.projectId &&
      found.headRevision == expectedHead && found.headSequence == expectedSequence).length = 1 := by
    have hsplit : (db.projects.filter fun found : ProjectRow => found.projectId == row.projectId &&
        found.headRevision == expectedHead && found.headSequence == expectedSequence) =
        (db.of row.projectId).projects.filter fun found =>
          found.headRevision == expectedHead && found.headSequence == expectedSequence := by
      rw [Database.of, List.filter_filter]
      refine List.filter_congr fun found _ => ?_
      rw [Bool.and_assoc, Bool.and_comm]
    rw [hsplit, hold]
    simp [hhead, hsequence]
  unfold Database.advanceHead
  simp only [bind_ok, exists_unit, require_ok, pure_ok]
  exact ⟨_, hone, rfl⟩

theorem insertSuccessor_accepts {evidence : CommitEvidence} {documents : CommitDocuments}
    {db : Database} {anchor : Option Anchor}
    (h : Intact keyring projectId (db.of projectId) anchor revisions head)
    (hnew : NewTo projectId db revisions r evidence)
    (hsequence : r.val.sequence = head.val.sequence + 1)
    (hproject : s.database.hasProject projectId)
    (hsame : s.database = { db with
      transactions := s.database.transactions, approvals := s.database.approvals }) :
    ∃ s', (insertSuccessor projectId r head evidence.attestation head.val.revisionHash
      documents.revision documents.attestation).run s = (.ok (), s') := by
  have hrows := loadChain_rows h.chain
  have hrevisions : s.database.revisions = db.revisions := by rw [hsame]
  have hattestations : s.database.attestations = db.attestations := by rw [hsame]
  have hprojects : (s.database.of projectId).projects = (db.of projectId).projects := by rw [hsame]; rfl
  -- the head has a row, and the new revision has none
  obtain ⟨headRow, hheadRow⟩ : ∃ headRow, s.database.revisions.find? (fun row =>
      row.projectId == projectId && row.revisionHash == head.val.revisionHash) = some headRow := by
    have hmem : head.val.revisionHash ∈ (db.of projectId).revisions.map (·.revisionHash) := by
      rw [hrows.1]
      exact List.mem_map_of_mem h.head_mem
    obtain ⟨headRow, hrow, hhash⟩ := List.mem_map.mp hmem
    have hnodup : ((db.of projectId).revisions.map (·.revisionHash)).Nodup := hrows.1 ▸ h.hashes
    refine ⟨headRow, ?_⟩
    rw [find?_own, hrevisions]
    exact find?_of_nodup hnodup hrow hhash
  have hnewHash : (projectId, r.val.revisionHash) ∉
      s.database.revisions.map (fun row => (row.projectId, row.revisionHash)) := by
    rw [key_fresh_iff, hrevisions]
    exact fun hmem => hnew.revision (hrows.1 ▸ hmem)
  have hnewSequence : (projectId, r.val.sequence) ∉
      s.database.revisions.map (fun row => (row.projectId, row.sequence)) := by
    rw [key_fresh_iff, hrevisions]
    intro hmem
    have hin : r.val.sequence ∈ List.range' 0 (db.of projectId).revisions.length := hrows.2.1 ▸ hmem
    rw [List.mem_range'_1, ← h.head_sequence, hsequence] at hin
    omega
  have hnewAttestation : (projectId, r.val.revisionHash) ∉
      s.database.attestations.map (fun row => (row.projectId, row.revisionHash)) := by
    rw [key_fresh_iff, hattestations]
    intro hmem
    obtain ⟨row, hrow, hhash⟩ := List.mem_map.mp hmem
    obtain ⟨found, hfound, hfoundHash⟩ := h.attested row hrow
    exact hnew.revision (List.mem_map.mpr
      ⟨found, List.mem_of_mem_tail hfound, hfoundHash.symm.trans hhash⟩)
  obtain ⟨db₁, hdb₁, hdb₁Same⟩ : ∃ db₁, s.database.insertRevision ⟨projectId, r.val.sequence,
      r.val.revisionHash, r.val.parentRevision, r.val.graphHash, headRow.recordHash,
      recordHashOf projectId r.val.sequence r.val.revisionHash documents.revision.2
        headRow.recordHash, documents.revision.1, documents.revision.2⟩ = .ok db₁ ∧
      db₁.projects = s.database.projects ∧ db₁.attestations = s.database.attestations := by
    unfold Database.insertRevision
    simp only [bind_ok, exists_unit, require_ok, pure_ok]
    exact ⟨_, ⟨⟨hproject, hnewHash, hnewSequence⟩, rfl⟩, rfl, rfl⟩
  obtain ⟨db₂, hdb₂, hdb₂Same⟩ : ∃ db₂, db₁.insertAttestation ⟨projectId, r.val.revisionHash,
      evidence.attestation.val.attestationKeyId, evidence.attestation.val.authorizationKeyId,
      evidence.attestation.val.authorizationDigest, evidence.attestation.val.authorizationNonce,
      evidence.attestation.val.approvalDigest, documents.attestation.1, documents.attestation.2⟩ =
      .ok db₂ ∧ db₂.projects = s.database.projects := by
    unfold Database.insertAttestation Database.hasProject
    simp only [bind_ok, exists_unit, require_ok, pure_ok,
      hdb₁Same.1, hdb₁Same.2, hattestations]
    rw [hattestations] at hnewAttestation
    exact ⟨_, ⟨⟨hproject, hnewAttestation, hnew.authorization, hnew.nonce, hnew.approvalDigest⟩,
      rfl⟩, rfl⟩
  have hold : (db₂.of projectId).projects =
      [⟨projectId, head.val.revisionHash, head.val.sequence, head.val.sequence⟩] := by
    rw [← h.project, ← hprojects, Database.of, Database.of, hdb₂Same]
  obtain ⟨db₃, hdb₃⟩ := @advanceHead_accepts db₂
    ⟨projectId, r.val.revisionHash, r.val.sequence, r.val.sequence⟩ _ _ _ hold rfl rfl
  refine ⟨{ s with database := db₃ }, ?_⟩
  unfold insertSuccessor
  rw [run_read_bind]
  refine check_bind_returns.mpr ⟨headRow, located_ok.mpr hheadRow, ?_⟩
  refine bind_returns.mpr ⟨(), { s with database := db₁ }, execute_returns.mpr ⟨_, hdb₁, rfl⟩, ?_⟩
  refine bind_returns.mpr ⟨(), { s with database := db₂ }, execute_returns.mpr ⟨_, hdb₂, rfl⟩, ?_⟩
  exact execute_returns.mpr ⟨_, hdb₃, rfl⟩

theorem anchorState_accepts {db : Database} {anchor : Option Anchor}
    (h : Intact keyring projectId db anchor revisions head)
    (hsequence : r.val.sequence = head.val.sequence + 1) {digest : String}
    (hdigest : Text.isSha256 digest) (hsentinel : digest ≠ genesisAttestationDigest) :
    ∃ B, anchorState projectId r.val.sequence r.val.revisionHash digest = .ok B := by
  obtain ⟨_, A, -, hval, -⟩ := h.anchored
  have hidentifier := anchorIdentifier_ok A "anchor project ID"
  rw [hval] at hidentifier
  have hhash : Text.isSha256 r.val.revisionHash := require_ok.mp (revision_hash_isSha256 r)
  have hchecks : ProjectHeadAnchorState.checks
      ⟨projectId, r.val.sequence, r.val.revisionHash, digest⟩ = .ok () := by
    unfold ProjectHeadAnchorState.checks anchorDigest
    simp only [bind_ok, exists_unit, require_ok]
    exact ⟨hidentifier, hhash, hdigest, fun hzero => absurd (hsequence.symm.trans hzero) (by omega),
      fun _ => hsentinel⟩
  exact ⟨⟨_, checking_ok.mpr ⟨hchecks, rfl⟩⟩, anchorState_ok.mpr rfl⟩

theorem appendRevision_accepts {evidence : CommitEvidence} {documents : CommitDocuments}
    (h : Intact keyring projectId (s.database.of projectId) (s.anchors projectId) revisions head)
    (hhash : r.val.revisionHash = revisionHashFor r.val)
    (hstate : evidence.transaction.val.state = .committed)
    (hdecision : evidence.approval.val.decision = .approved)
    (hdocuments : documents.Of r evidence)
    (hbinding : validateAttestationBinding keyring evidence.attestation r evidence.transaction
      evidence.approval = .ok ())
    (hchecks : successorChecks projectId r head evidence = .ok ())
    (hnew : NewTo projectId s.database revisions r evidence)
    (hdigest : Text.isSha256 documents.attestation.2)
    (hsentinel : documents.attestation.2 ≠ genesisAttestationDigest) :
    ∃ s', (appendRevision keyring projectId r head.val.revisionHash evidence none).run s =
      (.ok (), s') := by
  obtain ⟨state, hrestored, -, hhead, -⟩ := h.restores
  obtain ⟨A, hA⟩ := h.asserts_head
  obtain ⟨-, -, hsequence, -⟩ := successorChecks_ok hchecks
  obtain ⟨B, hB⟩ := anchorState_accepts h hsequence hdigest hsentinel
  let m₁ : StoreState := { s with database := { s.database with
    transactions := s.database.transactions ++ [transactionRow projectId evidence.transaction 0
      documents.transaction.1 documents.transaction.2] } }
  let m₂ : StoreState := { m₁ with database := { m₁.database with
    approvals := m₁.database.approvals ++ [approvalRow projectId evidence.approval
      documents.approval.1 documents.approval.2] } }
  obtain ⟨m₃, hm₃⟩ := @insertSuccessor_accepts _ _ keyring m₂ projectId revisions head r evidence
    documents s.database _ h hnew hsequence h.hasProject rfl
  have hlocked : (appendLocked projectId r head.val.revisionHash evidence documents none).run s =
      (.ok (A, B), m₃) := by
    unfold appendLocked
    rw [run_read_bind]
    refine check_bind_returns.mpr ⟨revisions, h.loads_revisions, ?_⟩
    refine check_bind_returns.mpr ⟨head, located_ok.mpr h.last, ?_⟩
    refine check_bind_returns.mpr ⟨(), require_ok.mpr rfl, ?_⟩
    refine bind_returns.mpr ⟨A, s, hA, check_bind_returns.mpr ⟨(), hchecks, ?_⟩⟩
    refine bind_returns.mpr ⟨0, m₁, writeTransaction_inserts h.hasProject hnew.transaction, ?_⟩
    refine bind_returns.mpr ⟨(), m₂, ?_, ?_⟩
    · exact @keepApproval_inserts _ m₁ projectId _ _ h.hasProject hnew.approval
    · exact bind_returns.mpr ⟨(), m₃, hm₃, check_bind_returns.mpr ⟨B, hB, rfl⟩⟩
  have hkept := insertSuccessor_keeps projectId r head evidence.attestation head.val.revisionHash
    documents.revision documents.attestation m₂
  rw [hm₃] at hkept
  have hanchors : m₃.anchors = s.anchors := hkept
  obtain ⟨-, hAproject, hAsequence, hat⟩ := assertHeadAnchor_returns hA
  have hBval := anchorState_ok.mp hB
  have hproject : head.val.graph.projectId = projectId :=
    (loadChain_rows h.chain).2.2.2 head h.head_mem
  have hmoves := @compareAndSet_moves m₃ A B (by rw [hBval, hAproject, hproject])
    (by rw [hBval, hAsequence]; exact hsequence) (by rw [hanchors]; exact hat)
  have hnot : r.val.sequence ≠ 0 := by omega
  refine ⟨{ m₃ with anchors := m₃.anchors.set B.val.projectId B }, ?_⟩
  unfold appendRevision
  refine check_bind_returns.mpr ⟨(), require_ok.mpr hnot, ?_⟩
  refine check_bind_returns.mpr ⟨(), require_ok.mpr hhash, ?_⟩
  refine check_bind_returns.mpr ⟨(), require_ok.mpr hstate, ?_⟩
  refine check_bind_returns.mpr ⟨(), require_ok.mpr hdecision, ?_⟩
  refine check_bind_returns.mpr ⟨_, hdocuments.revision, ?_⟩
  refine check_bind_returns.mpr ⟨_, hdocuments.transaction, ?_⟩
  refine check_bind_returns.mpr ⟨_, hdocuments.approval, ?_⟩
  refine check_bind_returns.mpr ⟨_, hdocuments.attestation, ?_⟩
  refine check_bind_returns.mpr ⟨(), hbinding, bind_returns.mpr ⟨state, s, hrestored, ?_⟩⟩
  refine check_bind_returns.mpr ⟨(), require_ok.mpr (by rw [hhead]), ?_⟩
  exact bind_returns.mpr ⟨(A, B), m₃, transactionally_returns.mpr hlocked, hmoves⟩

end Accepting

end Evleda.ProjectStore
