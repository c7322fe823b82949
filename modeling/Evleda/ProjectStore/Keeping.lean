/-
What may be written to an intact project.

A project stays intact when a transaction that replays is saved, when an approval
of one of its transactions is added, and when a revision is appended to its head
together with the transaction, the approval and the attestation that bind it.
-/
import Evleda.ProjectStore.Calls

namespace Evleda.ProjectStore

open Kernel Effect Outcome

/-! ### What keeps a project intact -/

section Keeping

variable [UnicodeData] [Hashing] {keyring : Keyring} {projectId : String} {db db' : Database}
  {anchor : Option Anchor} {revisions : List Revision} {head r : Revision} {a : Attestation}
  {t : Transaction} {approval : Approval}

/-- What is kept for a revision is kept as long as its rows are. -/
theorem Released.mono (h : Released keyring projectId db r a t approval)
    (hattestations : ∀ row ∈ db.attestations, row ∈ db'.attestations)
    (htransactions : ∀ row ∈ db.transactions, ∀ st, decodeTransactionRow row = .ok st →
      st.transaction.val.state = .committed → row ∈ db'.transactions)
    (happrovals : ∀ row ∈ db.approvals, row ∈ db'.approvals) :
    Released keyring projectId db' r a t approval := by
  obtain ⟨arow, harow, hholds⟩ := h.attestationRow
  obtain ⟨trow, htrow, g, hdecoded⟩ := h.transactionRow
  obtain ⟨aprow, haprow, hload⟩ := h.approvalRow
  exact ⟨⟨arow, hattestations arow harow, hholds⟩,
    ⟨trow, htransactions trow htrow _ hdecoded h.committed, g, hdecoded⟩,
    ⟨aprow, happrovals aprow haprow, hload⟩, h.committed, h.binding⟩

theorem Rewritten.keeps_committed {rows rows' : List TransactionRow} {row : TransactionRow}
    (h : Rewritten rows rows' row) :
    ∀ old ∈ rows, ∀ st, decodeTransactionRow old = .ok st →
      st.transaction.val.state = .committed → old ∈ rows' := by
  intro old hold st hdecoded hstate
  by_cases hid : old.transactionId = row.transactionId
  · exact absurd hstate ((h.replaced old hold hid).2 st hdecoded)
  · exact (h.others old hid).mpr hold

theorem Rewritten.keeps_base {rows rows' : List TransactionRow} {row old : TransactionRow}
    (h : Rewritten rows rows' row) (hold : old ∈ rows) :
    ∃ new ∈ rows', new.transactionId = old.transactionId ∧ new.baseRevision = old.baseRevision := by
  by_cases hid : old.transactionId = row.transactionId
  · exact ⟨row, h.mem, hid.symm, (h.replaced old hold hid).1.symm⟩
  · exact ⟨old, (h.others old hid).mpr hold, rfl, rfl⟩

theorem uncommitted_hash (ht : t.val.state ≠ .committed) : t.val.committedRevisionHash = none := by
  have h := transaction_checks t
  unfold DesignTransaction.checks at h
  simp only [bind_ok, exists_unit, require_ok] at h
  obtain ⟨-, -, -, -, -, -, -, -, -, -, -, -, hnone⟩ := h
  exact hnone ht

theorem Intact.save (h : Intact keyring projectId db anchor revisions head)
    {rows : List TransactionRow} {row : TransactionRow} {g : Nat}
    (hrows : Rewritten db.transactions rows row) (hload : loadTransaction revisions row = .ok ⟨t, g⟩)
    (hstate : t.val.state ≠ .committed) :
    Intact keyring projectId { db with transactions := rows } anchor revisions head := by
  have hkeep : ∀ {r a t approval}, Released keyring projectId db r a t approval →
      Released keyring projectId { db with transactions := rows } r a t approval :=
    fun hreleased => hreleased.mono (fun _ h => h) hrows.keeps_committed (fun _ h => h)
  refine
    { h with
      transactionIds := hrows.ids
      transactions := ?_
      approvals := ?_
      released := ?_
      committed := ?_ }
  · intro other hother
    by_cases hid : other.transactionId = row.transactionId
    · rw [hrows.only other hother hid]
      exact ⟨_, hload⟩
    · exact h.transactions other ((hrows.others other hid).mp hother)
  · intro aprow haprow
    obtain ⟨found, hfound, old, hold, hid, hsubject⟩ := h.approvals aprow haprow
    obtain ⟨new, hnew, hnewId, hnewBase⟩ := hrows.keeps_base hold
    exact ⟨found, hfound, new, hnew, hnewId.trans hid, by rw [hnewBase]; exact hsubject⟩
  · intro r hr
    obtain ⟨a, t, approval, hreleased⟩ := h.released r hr
    exact ⟨a, t, approval, hkeep hreleased⟩
  · intro other hother t' g' hdecoded hcommitted
    by_cases hid : other.transactionId = row.transactionId
    · rw [hrows.only other hother hid, (loadTransaction_ok.mp hload).1, Except.ok.injEq] at hdecoded
      have hsame := congrArg StoredTransaction.transaction hdecoded
      dsimp only at hsame
      rw [← hsame] at hcommitted
      exact absurd hcommitted hstate
    · obtain ⟨r, hr, a, approval, hreleased⟩ :=
        h.committed other ((hrows.others other hid).mp hother) t' g' hdecoded hcommitted
      exact ⟨r, hr, a, approval, hkeep hreleased⟩

theorem Intact.approve (h : Intact keyring projectId db anchor revisions head)
    {row : ApprovalRow} {trow : TransactionRow} (hload : loadApproval row = .ok approval)
    (hnew : row.approvalId ∉ db.approvals.map (·.approvalId)) (htrow : trow ∈ db.transactions)
    (hid : trow.transactionId = approval.val.transactionId)
    (hsubject : validateApprovalSubject approval trow.baseRevision = .ok ()) :
    Intact keyring projectId { db with approvals := db.approvals ++ [row] } anchor revisions
      head := by
  have hkeep : ∀ {r a t approval}, Released keyring projectId db r a t approval →
      Released keyring projectId { db with approvals := db.approvals ++ [row] } r a t approval :=
    fun hreleased => hreleased.mono (fun _ h => h) (fun _ h _ _ _ => h)
      fun _ h => List.mem_append_left _ h
  refine
    { h with
      approvalIds := nodup_map_snoc h.approvalIds hnew
      approvals := ?_
      released := ?_
      committed := ?_ }
  · intro aprow haprow
    rcases List.mem_append.mp haprow with hold | hrow
    · exact h.approvals aprow hold
    · rw [List.mem_singleton.mp hrow]
      exact ⟨approval, hload, trow, htrow, hid, hsubject⟩
  · intro r hr
    obtain ⟨a, t, approval, hreleased⟩ := h.released r hr
    exact ⟨a, t, approval, hkeep hreleased⟩
  · intro other hother t' g' hdecoded hcommitted
    obtain ⟨r, hr, a, approval, hreleased⟩ := h.committed other hother t' g' hdecoded hcommitted
    exact ⟨r, hr, a, approval, hkeep hreleased⟩

theorem committed_needs_revision {base : Revision}
    (h : validateTransaction t base none = .ok ()) : t.val.state ≠ .committed := by
  intro hstate
  unfold validateTransaction at h
  simp only [bind_ok, exists_unit, require_ok, if_pos hstate] at h
  obtain ⟨-, -, _, -, _, -, _, hreplay, -⟩ := h
  unfold replayCommit at hreplay
  obtain ⟨revision, hlocated, -⟩ := bind_ok.mp hreplay
  cases located_ok.mp hlocated

theorem loadTransaction_extend (hhashes : ((revisions ++ [r]).map (·.val.revisionHash)).Nodup)
    {row : TransactionRow} {stored : StoredTransaction}
    (h : loadTransaction revisions row = .ok stored) :
    loadTransaction (revisions ++ [r]) row = .ok stored := by
  have hkept : ∀ {hash : String} {found : Revision}, byHash revisions hash = some found →
      byHash (revisions ++ [r]) hash = some found := by
    intro hash found hfound
    obtain ⟨hmem, rfl⟩ := byHash_mem hfound
    exact byHash_of_mem hhashes (List.mem_append_left _ hmem)
  obtain ⟨hdecoded, base, hbase, hvalid⟩ := loadTransaction_ok.mp h
  refine loadTransaction_ok.mpr ⟨hdecoded, base, hkept hbase, ?_⟩
  cases hhash : stored.transaction.val.committedRevisionHash with
  | none =>
      rw [hhash] at hvalid
      exact hvalid
  | some hash =>
      rw [hhash, Option.bind_some] at hvalid
      rw [Option.bind_some]
      cases hfound : byHash revisions hash with
      | some found =>
          rw [hfound] at hvalid
          rw [hkept hfound]
          exact hvalid
      | none =>
          -- a transaction that names a revision is committed, and replays with that revision only
          rw [hfound] at hvalid
          have hnone := uncommitted_hash (committed_needs_revision hvalid)
          rw [hhash] at hnone
          cases hnone

theorem Intact.head_record (h : Intact keyring projectId db anchor revisions head)
    {row : RevisionRow} (hrow : row ∈ db.revisions)
    (hhash : row.revisionHash = head.val.revisionHash) :
    lastRecord "" db.revisions = row.recordHash := by
  have hhashes := (loadChain_rows h.chain).1
  have hnodup : (db.revisions.map (·.revisionHash)).Nodup := hhashes ▸ h.hashes
  have hlast : (db.revisions.map (·.revisionHash)).getLast? = some head.val.revisionHash := by
    rw [hhashes, List.getLast?_map, h.last]
    rfl
  rw [List.getLast?_map, Option.map_eq_some_iff] at hlast
  obtain ⟨last, hlastRow, hlastHash⟩ := hlast
  obtain rfl := List.inj_on_of_nodup_map hnodup hrow (List.mem_of_getLast? hlastRow)
    (hhash.trans hlastHash.symm)
  unfold lastRecord
  rw [hlastRow]
  rfl

/-- What is written of a revision and its evidence. -/
structure Appended (projectId : String) (db db' : Database) (head r : Revision)
    (evidence : CommitEvidence) : Prop where
  project : db'.projects = [⟨projectId, r.val.revisionHash, r.val.sequence, r.val.sequence⟩]
  revisions : ∃ row headRow, db'.revisions = db.revisions ++ [row] ∧ headRow ∈ db.revisions ∧
    headRow.revisionHash = head.val.revisionHash ∧
    row.revisionHash ∉ db.revisions.map (·.revisionHash) ∧
    ChainRow projectId (head.val.sequence + 1) (some head.val.revisionHash) headRow.recordHash row r
  transactions : ∃ row g, Rewritten db.transactions db'.transactions row ∧
    decodeTransactionRow row = .ok ⟨evidence.transaction, g⟩
  approvals : ∃ row ∈ db'.approvals, loadApproval row = .ok evidence.approval ∧
    (db'.approvals = db.approvals ∨ (db'.approvals = db.approvals ++ [row] ∧
      row.approvalId ∉ db.approvals.map (·.approvalId)))
  attestations : ∃ row, db'.attestations = db.attestations ++ [row] ∧
    row.Holds projectId evidence.attestation ∧
    row.revisionHash ∉ db.attestations.map (·.revisionHash)

theorem tail_snoc {l : List Revision} (hl : l ≠ []) :
    (l ++ [r]).tail = l.tail ++ [r] := by
  cases l with
  | nil => exact absurd rfl hl
  | cons first rest => rfl

theorem Intact.append (h : Intact keyring projectId db anchor revisions head)
    {evidence : CommitEvidence} (hwritten : Appended projectId db db' head r evidence)
    (hstate : evidence.transaction.val.state = .committed)
    (hbase : evidence.transaction.val.baseRevision = head.val.revisionHash)
    (hcommitted : evidence.transaction.val.committedRevisionHash = some r.val.revisionHash)
    (hvalid : validateTransaction evidence.transaction head (some r) = .ok ())
    (happroval : validateApprovalBinding evidence.approval evidence.transaction = .ok ())
    (hbinding : validateAttestationBinding keyring evidence.attestation r evidence.transaction
      evidence.approval = .ok ())
    {A : Anchor} (hanchor : ∀ row ∈ db'.attestations, row.Holds projectId evidence.attestation →
      A.val = ⟨projectId, r.val.sequence, r.val.revisionHash, row.bodyHash⟩) :
    Intact keyring projectId db' (some A) (revisions ++ [r]) r := by
  obtain ⟨rrow, headRow, hrevisionRows, hheadRow, hheadHash, hnewHash, hchainRow⟩ :=
    hwritten.revisions
  obtain ⟨trow, g, hrewritten, hdecoded⟩ := hwritten.transactions
  obtain ⟨aprow, haprow, hload, happrovals⟩ := hwritten.approvals
  obtain ⟨arow, hattestationRows, hholds, hnewAttestation⟩ := hwritten.attestations
  have hhashes : ((revisions ++ [r]).map (·.val.revisionHash)).Nodup := by
    refine nodup_map_snoc h.hashes ?_
    rw [← (loadChain_rows h.chain).1, ← hchainRow.revisionHash]
    exact hnewHash
  have htail : (revisions ++ [r]).tail = revisions.tail ++ [r] :=
    tail_snoc (List.ne_nil_of_mem h.head_mem)
  have hrow : loadTransaction (revisions ++ [r]) trow = .ok ⟨evidence.transaction, g⟩ := by
    refine loadTransaction_ok.mpr ⟨hdecoded, head, ?_, ?_⟩
    · rw [hbase]
      exact byHash_of_mem hhashes (List.mem_append_left _ h.head_mem)
    · rw [hcommitted, Option.bind_some, byHash_of_mem hhashes (by simp)]
      exact hvalid
  have holdApprovals : ∀ row ∈ db.approvals, row ∈ db'.approvals := by
    intro row hmem
    obtain hsame | ⟨hmore, -⟩ := happrovals
    · rw [hsame]
      exact hmem
    · rw [hmore]
      exact List.mem_append_left _ hmem
  have hkeep : ∀ {r a t approval}, Released keyring projectId db r a t approval →
      Released keyring projectId db' r a t approval := by
    intro r a t approval hreleased
    refine hreleased.mono ?_ hrewritten.keeps_committed holdApprovals
    rw [hattestationRows]
    exact fun _ hmem => List.mem_append_left _ hmem
  have harow : arow ∈ db'.attestations := by simp [hattestationRows]
  have hnew : Released keyring projectId db' r evidence.attestation evidence.transaction
      evidence.approval :=
    ⟨⟨arow, harow, hholds⟩, ⟨trow, hrewritten.mem, g, hdecoded⟩, ⟨aprow, haprow, hload⟩, hstate,
      hbinding⟩
  have hsequence : r.val.sequence ≠ 0 := by
    rw [hchainRow.sequence]
    omega
  obtain ⟨hsubjectId, -, -, hsubject⟩ := validateApprovalBinding_ok.mp happroval
  obtain ⟨-, -, htrowId, htrowBase, -⟩ := decodeTransactionRow_ok.mp hdecoded
  refine
    { last := List.getLast?_concat ..
      project := hwritten.project
      chain := ?_
      hashes := hhashes
      transactionIds := hrewritten.ids
      approvalIds := ?_
      attestationHashes := ?_
      transactions := ?_
      approvals := ?_
      attested := ?_
      released := ?_
      committed := ?_
      anchored := ⟨arow.bodyHash, A, rfl, hanchor arow harow hholds, fun hzero =>
        absurd hzero hsequence, fun _ => ⟨arow, harow, ?_, rfl⟩⟩ }
  · rw [hrevisionRows]
    refine loadChain_snoc h.chain ?_
    rw [Nat.zero_add, ← h.head_sequence, h.head_record hheadRow hheadHash]
    have hlast : lastHash none revisions = some head.val.revisionHash := by
      unfold lastHash
      rw [h.last]
      rfl
    rw [hlast]
    exact hchainRow
  · obtain hsame | ⟨hmore, hfresh⟩ := happrovals
    · rw [hsame]
      exact h.approvalIds
    · rw [hmore]
      exact nodup_map_snoc h.approvalIds hfresh
  · rw [hattestationRows]
    exact nodup_map_snoc h.attestationHashes hnewAttestation
  · intro other hother
    by_cases hid : other.transactionId = trow.transactionId
    · rw [hrewritten.only other hother hid]
      exact ⟨_, hrow⟩
    · obtain ⟨stored, hstored⟩ := h.transactions other ((hrewritten.others other hid).mp hother)
      exact ⟨stored, loadTransaction_extend hhashes hstored⟩
  · intro row hmem
    by_cases hold : row ∈ db.approvals
    · obtain ⟨found, hfound, before, hbefore, hid, hfoundSubject⟩ := h.approvals row hold
      obtain ⟨after, hafter, hafterId, hafterBase⟩ := hrewritten.keeps_base hbefore
      exact ⟨found, hfound, after, hafter, hafterId.trans hid,
        by rw [hafterBase]; exact hfoundSubject⟩
    · have hsame : row = aprow := by
        obtain hsame | ⟨hmore, -⟩ := happrovals
        · rw [hsame] at hmem
          exact absurd hmem hold
        · rw [hmore] at hmem
          exact List.mem_singleton.mp ((List.mem_append.mp hmem).resolve_left hold)
      rw [hsame]
      refine ⟨evidence.approval, hload, trow, hrewritten.mem, ?_, ?_⟩
      · rw [hsubjectId, htrowId]
      · rw [← htrowBase]
        exact hsubject
  · intro row hmem
    rw [hattestationRows] at hmem
    rw [htail]
    rcases List.mem_append.mp hmem with hold | hrow
    · obtain ⟨r', hr', hhash⟩ := h.attested row hold
      exact ⟨r', List.mem_append_left _ hr', hhash⟩
    · rw [List.mem_singleton.mp hrow]
      exact ⟨r, by simp, hholds.revisionHash.symm.trans hnew.revisionHash⟩
  · intro r' hr'
    rw [htail] at hr'
    rcases List.mem_append.mp hr' with hold | hlast
    · obtain ⟨a, t, approval, hreleased⟩ := h.released r' hold
      exact ⟨a, t, approval, hkeep hreleased⟩
    · rw [List.mem_singleton.mp hlast]
      exact ⟨_, _, _, hnew⟩
  · intro other hother t' g' hother' hstate'
    rw [htail]
    by_cases hid : other.transactionId = trow.transactionId
    · rw [hrewritten.only other hother hid, hdecoded, Except.ok.injEq] at hother'
      have hsame := congrArg StoredTransaction.transaction hother'
      dsimp only at hsame
      rw [← hsame]
      exact ⟨r, by simp, _, _, hnew⟩
    · obtain ⟨r', hr', a, approval, hreleased⟩ :=
        h.committed other ((hrewritten.others other hid).mp hother) t' g' hother' hstate'
      exact ⟨r', List.mem_append_left _ hr', a, approval, hkeep hreleased⟩
  · exact hholds.revisionHash.symm.trans hnew.revisionHash

/-! ### Documents of what is written -/

variable {document : String × String}

omit [UnicodeData] [Hashing] in
theorem surviving_ok {α : Type} [DecidableEq α] {encode : α → Except StoreFailure (String × String)}
    {decode : String → Except StoreFailure α} {label : String} {a : α}
    :
    surviving encode decode label a = .ok document ↔
      encode a = .ok document ∧ decode document.1 = .ok a := by
  unfold surviving
  simp only [bind_ok, exists_unit, require_ok, pure_ok]
  constructor
  · rintro ⟨_, hencode, decoded, hdecode, rfl, rfl⟩
    exact ⟨hencode, hdecode⟩
  · rintro ⟨hencode, hdecode⟩
    exact ⟨document, hencode, a, hdecode, rfl, rfl⟩

theorem survivingRevision_ok
    (h : survivingRevision r = .ok document) :
    decodeRevision document.1 = .ok r ∧ bodySha256 document.1 = document.2 := by
  obtain ⟨hencode, hdecode⟩ := surviving_ok.mp h
  exact ⟨hdecode, (encodeRevision_ok.mp hencode).2.2.symm⟩

theorem survivingTransaction_ok
    (h : survivingTransaction t = .ok document) :
    decodeTransaction document.1 = .ok t ∧ bodySha256 document.1 = document.2 := by
  obtain ⟨hencode, hdecode⟩ := surviving_ok.mp h
  exact ⟨hdecode, (encodeTransaction_ok.mp hencode).2.2.symm⟩

theorem survivingApproval_ok
    (h : survivingApproval approval = .ok document) :
    decodeApproval document.1 = .ok approval ∧ bodySha256 document.1 = document.2 := by
  obtain ⟨hencode, hdecode⟩ := surviving_ok.mp h
  have hkept := approval_textsKept.1 document.1 approval trivial hdecode
  rw [hencode, Except.ok.injEq] at hkept
  exact ⟨hdecode, (congrArg Prod.snd hkept).symm⟩

theorem survivingAttestation_ok
    (h : survivingAttestation a = .ok document) :
    decodeAttestation document.1 = .ok a ∧ bodySha256 document.1 = document.2 := by
  obtain ⟨hencode, hdecode⟩ := surviving_ok.mp h
  have hkept := attestation_textsKept.1 document.1 a trivial hdecode
  rw [hencode, Except.ok.injEq] at hkept
  exact ⟨hdecode, (congrArg Prod.snd hkept).symm⟩

theorem transactionRow_decodes {document : String × String}
    (h : survivingTransaction t = .ok document) (g : Nat) :
    decodeTransactionRow (transactionRow projectId t g document.1 document.2) = .ok ⟨t, g⟩ := by
  obtain ⟨hdecode, hdigest⟩ := survivingTransaction_ok h
  exact decodeTransactionRow_ok.mpr ⟨hdigest, hdecode, rfl, rfl, rfl, rfl, rfl⟩

theorem approvalRow_loads
    (h : survivingApproval approval = .ok document) :
    loadApproval (approvalRow projectId approval document.1 document.2) = .ok approval := by
  obtain ⟨hdecode, hdigest⟩ := survivingApproval_ok h
  exact loadApproval_ok.mpr ⟨hdigest, hdecode, rfl, rfl, rfl, rfl, rfl, rfl, rfl⟩

theorem intact_genesis {genesis : Revision} {document : String × String} {A : Anchor}
    (hproject : genesis.val.graph.projectId = projectId) (hsequence : genesis.val.sequence = 0)
    (hparent : genesis.val.parentRevision = none)
    (hdocument : survivingRevision genesis = .ok document)
    (hA : A.val = ⟨projectId, 0, genesis.val.revisionHash, genesisAttestationDigest⟩) :
    Intact keyring projectId
      { projects := [⟨projectId, genesis.val.revisionHash, 0, 0⟩]
        revisions := [⟨projectId, 0, genesis.val.revisionHash, none, genesis.val.graphHash, "",
          recordHashOf projectId 0 genesis.val.revisionHash document.2 "", document.1,
          document.2⟩] }
      (some A) [genesis] genesis := by
  obtain ⟨hdecoded, hdigest⟩ := survivingRevision_ok hdocument
  refine
    { last := rfl
      project := by rw [hsequence]
      chain := ?_
      hashes := List.nodup_singleton _
      transactionIds := List.nodup_nil
      approvalIds := List.nodup_nil
      attestationHashes := List.nodup_nil
      transactions := fun _ h => absurd h List.not_mem_nil
      approvals := fun _ h => absurd h List.not_mem_nil
      attested := fun _ h => absurd h List.not_mem_nil
      released := fun _ h => absurd h List.not_mem_nil
      committed := fun _ h => absurd h List.not_mem_nil
      anchored := ⟨genesisAttestationDigest, A, rfl, ?_, fun _ => rfl, fun h => absurd hsequence h⟩ }
  · rw [loadChain_cons_ok]
    exact ⟨genesis, [], ⟨hdigest, hdecoded, rfl, hsequence, rfl, hparent.symm, rfl, hproject,
      hparent, rfl, rfl⟩, rfl, rfl⟩
  · rw [hA, hsequence]

theorem successorChecks_ok {revision : Revision} {evidence : CommitEvidence} {u : Unit}
    (h : successorChecks projectId revision head evidence = .ok u) :
    revision.val.graph.projectId = projectId ∧
      revision.val.parentRevision = some head.val.revisionHash ∧
      revision.val.sequence = head.val.sequence + 1 ∧
      evidence.transaction.val.baseRevision = head.val.revisionHash ∧
      evidence.transaction.val.committedRevisionHash = some revision.val.revisionHash ∧
      validateApprovalBinding evidence.approval evidence.transaction = .ok () ∧
      validateTransaction evidence.transaction head (some revision) = .ok () := by
  unfold successorChecks at h
  simp only [bind_ok, exists_unit, require_ok] at h
  obtain ⟨⟨hproject, hparent, hsequence⟩, ⟨hbase, hcommitted, -⟩, -, happroval, hvalid⟩ := h
  exact ⟨hproject, hparent, hsequence, hbase, hcommitted, happroval, hvalid⟩

/-- The documents of a revision and its evidence are theirs. -/
structure CommitDocuments.Of (documents : CommitDocuments) (revision : Revision)
    (evidence : CommitEvidence) : Prop where
  revision : survivingRevision revision = .ok documents.revision
  transaction : survivingTransaction evidence.transaction = .ok documents.transaction
  approval : survivingApproval evidence.approval = .ok documents.approval
  attestation : survivingAttestation evidence.attestation = .ok documents.attestation

end Keeping

end Evleda.ProjectStore
