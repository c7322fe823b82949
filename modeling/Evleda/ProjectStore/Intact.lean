/-
What the store keeps of a project, and that it can be restored.

`Intact` says what the rows of one project and its anchor look like between calls:
the revisions load as one chain, every transaction replays on its base, every
approval belongs to a transaction, every revision after the first has its
attestation, its committed transaction and the approval they name, and the anchor
is at the head.  It is stated on the project's own rows, so what is written for
one project does not touch it for another.

What it says is what `restore` checks, so restoring an intact project succeeds and
changes nothing.
-/
import Evleda.ProjectStore.Repository
import Evleda.ProjectStore.RoundTrips

namespace Evleda.ProjectStore

open Kernel Effect Outcome

/-! ### The rows of one project -/

/-- The rows of a project. -/
def Database.of (db : Database) (projectId : String) : Database where
  projects := db.projects.filter (·.projectId == projectId)
  revisions := db.revisions.filter (·.projectId == projectId)
  transactions := db.transactions.filter (·.projectId == projectId)
  approvals := db.approvals.filter (·.projectId == projectId)
  attestations := db.attestations.filter (·.projectId == projectId)

theorem hasProject_iff {db : Database} {projectId : String} :
    db.hasProject projectId ↔ (db.of projectId).projects ≠ [] := by
  unfold Database.hasProject Database.of
  rw [List.mem_map, ne_eq, List.filter_eq_nil_iff]
  simp

/-! ### The chain of revisions -/

section Chain

variable [UnicodeData] [Hashing]

/-- A row of the chain and the revision it holds, after the revision and the record before. -/
structure ChainRow (projectId : String) (place : Nat) (previousRevision : Option String)
    (previousRecordHash : String) (row : RevisionRow) (revision : Revision) : Prop where
  digest : bodySha256 row.body = row.bodyHash
  decoded : decodeRevision row.body = .ok revision
  rowSequence : row.sequence = place
  sequence : revision.val.sequence = place
  revisionHash : row.revisionHash = revision.val.revisionHash
  parentRevision : row.parentRevision = revision.val.parentRevision
  graphHash : row.graphHash = revision.val.graphHash
  project : revision.val.graph.projectId = projectId
  lineage : revision.val.parentRevision = previousRevision
  previousRecord : row.previousRecordHash = previousRecordHash
  record : row.recordHash = recordHashOf projectId place revision.val.revisionHash row.bodyHash
    previousRecordHash

variable {projectId : String} {sequence : Nat} {previousRevision : Option String}
  {previousRecordHash : String} {row : RevisionRow} {rows : List RevisionRow}
  {revisions : List Revision}

theorem loadChain_cons_ok :
    loadChain projectId sequence previousRevision previousRecordHash (row :: rows) =
        .ok revisions ↔
      ∃ r rest, ChainRow projectId sequence previousRevision previousRecordHash row r ∧
        loadChain projectId (sequence + 1) (some r.val.revisionHash) row.recordHash rows =
          .ok rest ∧
        revisions = r :: rest := by
  rw [loadChain]
  simp only [bind_ok, exists_unit, require_ok, pure_ok]
  constructor
  · rintro ⟨hdigest, r, hdecoded, ⟨hrow, hsequence, hhash, hparent, hgraph, hproject⟩, hlineage,
      ⟨hprevious, hrecord⟩, rest, hrest, rfl⟩
    refine ⟨r, rest, ⟨hdigest, hdecoded, hrow, hsequence, hhash, hparent, hgraph, hproject, hlineage,
      hprevious, ?_⟩, ?_, rfl⟩
    · rw [hrecord, hdigest]
    · rw [hrecord]
      exact hrest
  · rintro ⟨r, rest, hrow, hrest, rfl⟩
    have hrecord : row.recordHash = recordHashOf projectId sequence r.val.revisionHash
        (bodySha256 row.body) previousRecordHash := by
      rw [hrow.record, hrow.digest]
    refine ⟨hrow.digest, r, hrow.decoded, ⟨hrow.rowSequence, hrow.sequence, hrow.revisionHash,
      hrow.parentRevision, hrow.graphHash, hrow.project⟩, hrow.lineage,
      ⟨hrow.previousRecord, hrecord⟩, rest, ?_, rfl⟩
    rw [← hrecord]
    exact hrest

def lastHash (previousRevision : Option String) (revisions : List Revision) : Option String :=
  (revisions.getLast?.map (·.val.revisionHash)).or previousRevision

def lastRecord (previousRecordHash : String) (rows : List RevisionRow) : String :=
  (rows.getLast?.map (·.recordHash)).getD previousRecordHash

theorem loadChain_snoc {r : Revision}
    (hrows : loadChain projectId sequence previousRevision previousRecordHash rows = .ok revisions)
    (hrow : ChainRow projectId (sequence + rows.length) (lastHash previousRevision revisions)
      (lastRecord previousRecordHash rows) row r) :
    loadChain projectId sequence previousRevision previousRecordHash (rows ++ [row]) =
      .ok (revisions ++ [r]) := by
  induction rows generalizing sequence previousRevision previousRecordHash revisions with
  | nil =>
      cases hrows
      rw [List.nil_append, List.nil_append, loadChain_cons_ok]
      exact ⟨r, [], hrow, rfl, rfl⟩
  | cons first rest ih =>
      obtain ⟨r₀, later, hfirst, hlater, rfl⟩ := loadChain_cons_ok.mp hrows
      rw [List.cons_append, List.cons_append, loadChain_cons_ok]
      refine ⟨r₀, later ++ [r], hfirst, ih hlater ?_, rfl⟩
      have hlastHash : lastHash (some r₀.val.revisionHash) later =
          lastHash previousRevision (r₀ :: later) := by
        cases later with
        | nil => rfl
        | cons next later => simp [lastHash, List.getLast?_cons]
      have hlastRecord : lastRecord first.recordHash rest =
          lastRecord previousRecordHash (first :: rest) := by
        cases rest with
        | nil => rfl
        | cons next rest => simp [lastRecord, List.getLast?_cons]
      have hplace : sequence + 1 + rest.length = sequence + (first :: rest).length := by
        rw [List.length_cons]
        omega
      rw [hlastHash, hlastRecord, hplace]
      exact hrow

theorem loadChain_rows
    (h : loadChain projectId sequence previousRevision previousRecordHash rows = .ok revisions) :
    rows.map (·.revisionHash) = revisions.map (·.val.revisionHash) ∧
      rows.map (·.sequence) = List.range' sequence rows.length ∧
      revisions.map (·.val.sequence) = List.range' sequence rows.length ∧
      ∀ r ∈ revisions, r.val.graph.projectId = projectId := by
  induction rows generalizing sequence previousRevision previousRecordHash revisions with
  | nil =>
      cases h
      simp
  | cons row rest ih =>
      obtain ⟨r, later, hrow, hlater, rfl⟩ := loadChain_cons_ok.mp h
      obtain ⟨hhashes, hrows, hsequences, hprojects⟩ := ih hlater
      simp only [List.map_cons, List.length_cons, List.range'_succ, hhashes, hrows, hsequences,
        hrow.revisionHash, hrow.rowSequence, hrow.sequence, List.forall_mem_cons, hrow.project]
      exact ⟨trivial, trivial, trivial, trivial, hprojects⟩

/-- Each revision names the one before as its parent and follows it in number. -/
def Follows (a b : Revision) : Prop :=
  b.val.parentRevision = some a.val.revisionHash ∧ b.val.sequence = a.val.sequence + 1

theorem loadChain_follows
    (h : loadChain projectId sequence previousRevision previousRecordHash rows = .ok revisions) :
    revisions.IsChain Follows ∧
      ∀ r ∈ revisions.head?, r.val.parentRevision = previousRevision ∧
        r.val.sequence = sequence := by
  induction rows generalizing sequence previousRevision previousRecordHash revisions with
  | nil =>
      cases h
      simp
  | cons row rest ih =>
      obtain ⟨r, later, hrow, hlater, rfl⟩ := loadChain_cons_ok.mp h
      obtain ⟨hchain, hfirst⟩ := ih hlater
      refine ⟨List.isChain_cons.mpr ⟨?_, hchain⟩, ?_⟩
      · intro next hnext
        obtain ⟨hparent, hsequence⟩ := hfirst next hnext
        exact ⟨hparent, by rw [hsequence, hrow.sequence]⟩
      · intro first hfirst
        cases hfirst
        exact ⟨hrow.lineage, hrow.sequence⟩

theorem loadChain_sorted
    (h : loadChain projectId sequence previousRevision previousRecordHash rows = .ok revisions) :
    sortBy RevisionRow.sequence rows = rows := by
  refine sortBy_eq_self ?_
  have hsequences := (loadChain_rows h).2.1
  unfold SortedBy
  rw [← List.pairwise_map (f := RevisionRow.sequence) (R := (· ≤ ·)), hsequences]
  exact List.pairwise_le_range'

end Chain

/-! ### Intact projects -/

section Intact

variable [UnicodeData] [Hashing]

/-- A row of the attestation table and the attestation it holds. -/
structure AttestationRow.Holds (row : AttestationRow) (projectId : String) (a : Attestation) :
    Prop where
  digest : bodySha256 row.body = row.bodyHash
  decoded : decodeAttestation row.body = .ok a
  project : a.val.projectId = projectId
  revisionHash : a.val.revisionHash = row.revisionHash
  attestationKeyId : a.val.attestationKeyId = row.attestationKeyId
  authorizationKeyId : a.val.authorizationKeyId = row.authorizationKeyId
  authorizationDigest : a.val.authorizationDigest = row.authorizationDigest
  authorizationNonce : a.val.authorizationNonce = row.authorizationNonce
  approvalDigest : a.val.approvalDigest = row.approvalDigest

/-- A revision with the attestation, the transaction and the approval kept for it. -/
structure Released (keyring : Keyring) (projectId : String) (db : Database) (r : Revision)
    (a : Attestation) (t : Transaction) (approval : Approval) : Prop where
  attestationRow : ∃ row ∈ db.attestations, row.Holds projectId a
  transactionRow : ∃ row ∈ db.transactions, ∃ g, decodeTransactionRow row = .ok ⟨t, g⟩
  approvalRow : ∃ row ∈ db.approvals, loadApproval row = .ok approval
  committed : t.val.state = .committed
  binding : validateAttestationBinding keyring a r t approval = .ok ()

/-- The rows of a project and its anchor, between calls. -/
structure Intact (keyring : Keyring) (projectId : String) (db : Database) (anchor : Option Anchor)
    (revisions : List Revision) (head : Revision) : Prop where
  last : revisions.getLast? = some head
  project : db.projects =
    [⟨projectId, head.val.revisionHash, head.val.sequence, head.val.sequence⟩]
  chain : loadChain projectId 0 none "" db.revisions = .ok revisions
  hashes : (revisions.map (·.val.revisionHash)).Nodup
  transactionIds : (db.transactions.map TransactionRow.transactionId).Nodup
  approvalIds : (db.approvals.map ApprovalRow.approvalId).Nodup
  attestationHashes : (db.attestations.map AttestationRow.revisionHash).Nodup
  /-- Every transaction replays on its base. -/
  transactions : ∀ row ∈ db.transactions, ∃ stored, loadTransaction revisions row = .ok stored
  /-- Every approval is about a transaction. -/
  approvals : ∀ row ∈ db.approvals, ∃ a, loadApproval row = .ok a ∧
    ∃ t ∈ db.transactions, t.transactionId = a.val.transactionId ∧
      validateApprovalSubject a t.baseRevision = .ok ()
  /-- Every attestation is about a revision after the first. -/
  attested : ∀ row ∈ db.attestations, ∃ r ∈ revisions.tail, row.revisionHash = r.val.revisionHash
  released : ∀ r ∈ revisions.tail, ∃ a t approval, Released keyring projectId db r a t approval
  /-- Every committed transaction made a revision. -/
  committed : ∀ row ∈ db.transactions, ∀ t g, decodeTransactionRow row = .ok ⟨t, g⟩ →
    t.val.state = .committed →
    ∃ r ∈ revisions.tail, ∃ a approval, Released keyring projectId db r a t approval
  /-- The anchor is at the head. -/
  anchored : ∃ digest A, anchor = some A ∧
    A.val = ⟨projectId, head.val.sequence, head.val.revisionHash, digest⟩ ∧
    (head.val.sequence = 0 → digest = genesisAttestationDigest) ∧
    (head.val.sequence ≠ 0 → ∃ row ∈ db.attestations,
      row.revisionHash = head.val.revisionHash ∧ digest = row.bodyHash)

variable {keyring : Keyring} {projectId : String} {db : Database} {anchor : Option Anchor}
  {revisions : List Revision} {head r : Revision} {a : Attestation} {t : Transaction}
  {approval : Approval}

theorem validateAttestationBinding_ok {u : Unit} :
    validateAttestationBinding keyring a r t approval = .ok u ↔
      keyring.verify a = .ok () ∧ ∃ commandDigest stagedGraphHash,
        commitCommandHashesDigest t.val.commandHashes = .ok commandDigest ∧
        t.val.stagedGraph.graphHash = .ok stagedGraphHash ∧
        AttestationBinds a.val r.val t.val approval.val commandDigest stagedGraphHash := by
  unfold validateAttestationBinding
  simp only [bind_ok, exists_unit, fromKernel_ok, require_ok]
  constructor
  · rintro ⟨hverify, commands, hcommands, graph, hgraph, hbinds⟩
    exact ⟨hverify, commands, graph, hcommands, hgraph, hbinds⟩
  · rintro ⟨hverify, commands, graph, hcommands, hgraph, hbinds⟩
    exact ⟨hverify, commands, hcommands, graph, hgraph, hbinds⟩

theorem Released.binds (h : Released keyring projectId db r a t approval) :
    ∃ commandDigest stagedGraphHash,
      AttestationBinds a.val r.val t.val approval.val commandDigest stagedGraphHash := by
  obtain ⟨-, commands, graph, -, -, hbinds⟩ := validateAttestationBinding_ok.mp h.binding
  exact ⟨commands, graph, hbinds⟩

theorem Released.revisionHash (h : Released keyring projectId db r a t approval) :
    a.val.revisionHash = r.val.revisionHash := by
  obtain ⟨-, -, ⟨-, -, -, -, -, hrevision, -⟩, -⟩ := h.binds
  exact hrevision

theorem Released.committedRevisionHash (h : Released keyring projectId db r a t approval) :
    t.val.committedRevisionHash = some r.val.revisionHash := by
  obtain ⟨-, -, ⟨-, -, -, -, -, hrevision, hcommitted, -⟩, -⟩ := h.binds
  rw [← hcommitted, hrevision]

theorem Released.transactionId (h : Released keyring projectId db r a t approval) :
    a.val.transactionId = t.val.transactionId := by
  obtain ⟨-, -, ⟨-, -, -, -, -, -, -, -, htransaction, -⟩, -⟩ := h.binds
  exact htransaction

theorem Released.approvalId (h : Released keyring projectId db r a t approval) :
    a.val.approvalId = approval.val.approvalId := by
  obtain ⟨-, -, -, -, -, -, hid, -⟩ := h.binds
  exact hid

theorem decodeTransactionRow_ok {row : TransactionRow} {stored : StoredTransaction} :
    decodeTransactionRow row = .ok stored ↔
      bodySha256 row.body = row.bodyHash ∧ decodeTransaction row.body = .ok stored.transaction ∧
        stored.transaction.val.transactionId = row.transactionId ∧
        stored.transaction.val.baseRevision = row.baseRevision ∧
        stateValue stored.transaction.val.state = row.state ∧
        stored.transaction.val.previewDigest = row.previewDigest ∧
        stored.generation = row.generation := by
  unfold decodeTransactionRow
  simp only [bind_ok, exists_unit, require_ok, pure_ok]
  constructor
  · rintro ⟨hdigest, t, hdecoded, ⟨hid, hbase, hstate, hpreview⟩, rfl⟩
    exact ⟨hdigest, hdecoded, hid, hbase, hstate, hpreview, rfl⟩
  · rintro ⟨hdigest, hdecoded, hid, hbase, hstate, hpreview, hgeneration⟩
    refine ⟨hdigest, _, hdecoded, ⟨hid, hbase, hstate, hpreview⟩, ?_⟩
    rw [← hgeneration]

theorem loadTransaction_ok {row : TransactionRow} {stored : StoredTransaction} :
    loadTransaction revisions row = .ok stored ↔
      decodeTransactionRow row = .ok stored ∧
        ∃ base, byHash revisions stored.transaction.val.baseRevision = some base ∧
          validateTransaction stored.transaction base
            (stored.transaction.val.committedRevisionHash.bind (byHash revisions)) = .ok () := by
  unfold loadTransaction
  simp only [bind_ok, exists_unit, pure_ok, located_ok]
  constructor
  · rintro ⟨found, hdecoded, base, hbase, hvalid, rfl⟩
    exact ⟨hdecoded, base, hbase, hvalid⟩
  · rintro ⟨hdecoded, base, hbase, hvalid⟩
    exact ⟨stored, hdecoded, base, hbase, hvalid, rfl⟩

theorem loadApproval_ok {row : ApprovalRow} {a : Approval} :
    loadApproval row = .ok a ↔
      bodySha256 row.body = row.bodyHash ∧ decodeApproval row.body = .ok a ∧
        a.val.approvalId = row.approvalId ∧ a.val.approvalDigest = row.approvalDigest ∧
        a.val.transactionId = row.transactionId ∧ a.val.previewDigest = row.previewDigest ∧
        a.val.releaseSubjectDigest = row.releaseSubjectDigest ∧
        a.val.verificationReportHash = row.verificationReportHash ∧
        a.val.decision.value = row.decision := by
  unfold loadApproval
  simp only [bind_ok, exists_unit, require_ok, pure_ok]
  constructor
  · rintro ⟨hdigest, a, hdecoded, hfields, rfl⟩
    exact ⟨hdigest, hdecoded, hfields⟩
  · rintro ⟨hdigest, hdecoded, hfields⟩
    exact ⟨hdigest, a, hdecoded, hfields, rfl⟩

theorem byHash_mem {hash : String} (h : byHash revisions hash = some r) :
    r ∈ revisions ∧ r.val.revisionHash = hash := by
  obtain ⟨r', hr', heq⟩ := List.mem_map.mp (Dict.mem_of_empty_update h)
  cases heq
  exact ⟨hr', rfl⟩

theorem eq_of_hash (hnodup : (revisions.map (·.val.revisionHash)).Nodup) {r' : Revision}
    (hr : r ∈ revisions) (hr' : r' ∈ revisions)
    (h : r.val.revisionHash = r'.val.revisionHash) : r = r' :=
  List.inj_on_of_nodup_map hnodup hr hr' h

theorem byHash_of_mem (hnodup : (revisions.map (·.val.revisionHash)).Nodup) (hr : r ∈ revisions) :
    byHash revisions r.val.revisionHash = some r := by
  refine Dict.update_eq_of_mem _ (List.mem_map.mpr ⟨r, hr, rfl⟩) ?_
  intro r' hr'
  obtain ⟨found, hfound, heq⟩ := List.mem_map.mp hr'
  rw [Prod.mk.injEq] at heq
  rw [← heq.2]
  exact eq_of_hash hnodup hfound hr heq.1

omit [UnicodeData] [Hashing] in
theorem mapM_rows {ρ α κ : Type} [LinearOrder κ] {load : ρ → Except StoreFailure α} {key : ρ → κ}
    {keyOf : α → κ} {rows : List ρ} (hload : ∀ row ∈ rows, ∃ a, load row = .ok a)
    (hkey : ∀ row a, load row = .ok a → keyOf a = key row) (hnodup : (rows.map key).Nodup) :
    ∃ loaded, (sortBy key rows).mapM load = .ok loaded ∧
      (∀ a, a ∈ loaded ↔ ∃ row ∈ rows, load row = .ok a) ∧ (loaded.map keyOf).Nodup := by
  obtain ⟨loaded, hloaded, hrelated⟩ : ∃ loaded, (sortBy key rows).mapM load = .ok loaded ∧
      List.Forall₂ (fun row a => keyOf a = key row) (sortBy key rows) loaded := by
    refine mapM_related fun row hrow => ?_
    obtain ⟨a, ha⟩ := hload row (mem_sortBy.mp hrow)
    exact ⟨a, ha, hkey row a ha⟩
  refine ⟨loaded, hloaded, ?_, ?_⟩
  · intro a
    constructor
    · intro ha
      obtain ⟨row, hrow, hrowLoad⟩ := mapM_mem hloaded ha
      exact ⟨row, mem_sortBy.mp hrow, hrowLoad⟩
    · rintro ⟨row, hrow, hrowLoad⟩
      obtain ⟨a', ha', hsame⟩ := mapM_image hloaded (mem_sortBy.mpr hrow)
      rw [hrowLoad, Except.ok.injEq] at hsame
      rw [hsame]
      exact ha'
  · have hkeys : (sortBy key rows).map key = loaded.map keyOf := by
      rw [← List.forall₂_eq_eq_eq, List.forall₂_map_left_iff, List.forall₂_map_right_iff]
      exact hrelated.imp fun _ _ h => h.symm
    rw [← hkeys]
    exact ((sortBy_perm rows).map key).nodup_iff.mpr hnodup

theorem Intact.head_mem (h : Intact keyring projectId db anchor revisions head) :
    head ∈ revisions :=
  List.mem_of_getLast? h.last

theorem Intact.loads_revisions {db : Database}
    (h : Intact keyring projectId (db.of projectId) anchor revisions head) :
    loadRevisions db projectId = .ok revisions := by
  have hproject : projectRow db projectId = .ok
      ⟨projectId, head.val.revisionHash, head.val.sequence, head.val.sequence⟩ := by
    unfold projectRow
    rw [located_ok, ← List.head?_filter]
    exact congrArg List.head? h.project
  have hrows : db.revisions.filter (·.projectId == projectId) ≠ [] := by
    intro hnil
    have hchain := h.chain
    have hempty : (db.of projectId).revisions = [] := hnil
    rw [hempty] at hchain
    cases hchain
    cases h.last
  unfold loadRevisions
  simp only [bind_ok, exists_unit, require_ok, pure_ok]
  refine ⟨_, hproject, ?_, revisions, ?_, head, located_ok.mpr h.last, ⟨rfl, rfl, rfl, rfl⟩, rfl⟩
  · exact sortBy_ne_nil hrows
  · have hsorted := loadChain_sorted h.chain
    have hchain := h.chain
    rw [← hsorted] at hchain
    exact hchain

theorem Intact.loads_transactions {db : Database}
    (h : Intact keyring projectId (db.of projectId) anchor revisions head) :
    ∃ stored, loadTransactions db projectId revisions = .ok stored ∧
      (∀ st, st ∈ stored ↔
        ∃ row ∈ (db.of projectId).transactions, decodeTransactionRow row = .ok st) ∧
      (stored.map (·.transaction.val.transactionId)).Nodup := by
  have hkey : ∀ row st, loadTransaction revisions row = .ok st →
      st.transaction.val.transactionId = row.transactionId :=
    fun row st hload => (decodeTransactionRow_ok.mp (loadTransaction_ok.mp hload).1).2.2.1
  obtain ⟨stored, hstored, hmem, hnodup⟩ := mapM_rows h.transactions hkey h.transactionIds
  refine ⟨stored, hstored, ?_, hnodup⟩
  intro st
  rw [hmem]
  constructor
  · rintro ⟨row, hrow, hload⟩
    exact ⟨row, hrow, (loadTransaction_ok.mp hload).1⟩
  · rintro ⟨row, hrow, hdecoded⟩
    obtain ⟨st', hload⟩ := h.transactions row hrow
    have hsame := (loadTransaction_ok.mp hload).1
    rw [hdecoded, Except.ok.injEq] at hsame
    rw [hsame]
    exact ⟨row, hrow, hload⟩

theorem Intact.loads_approvals {db : Database}
    (h : Intact keyring projectId (db.of projectId) anchor revisions head) :
    ∃ approvals, loadApprovals db projectId = .ok approvals ∧
      (∀ a, a ∈ approvals ↔ ∃ row ∈ (db.of projectId).approvals, loadApproval row = .ok a) ∧
      (approvals.map (·.val.approvalId)).Nodup := by
  have hload : ∀ row ∈ (db.of projectId).approvals, ∃ a, loadApproval row = .ok a := by
    intro row hrow
    obtain ⟨a, ha, -⟩ := h.approvals row hrow
    exact ⟨a, ha⟩
  exact mapM_rows hload (fun row a ha => (loadApproval_ok.mp ha).2.2.1) h.approvalIds

theorem Intact.transaction_eq (h : Intact keyring projectId db anchor revisions head)
    {row row' : TransactionRow} {st st' : StoredTransaction} (hrow : row ∈ db.transactions)
    (hrow' : row' ∈ db.transactions) (hst : decodeTransactionRow row = .ok st)
    (hst' : decodeTransactionRow row' = .ok st')
    (hid : st.transaction.val.transactionId = st'.transaction.val.transactionId) : st = st' := by
  rw [(decodeTransactionRow_ok.mp hst).2.2.1, (decodeTransactionRow_ok.mp hst').2.2.1] at hid
  obtain rfl := List.inj_on_of_nodup_map h.transactionIds hrow hrow' hid
  exact Except.ok.inj (hst.symm.trans hst')

theorem Intact.attestation_eq (h : Intact keyring projectId db anchor revisions head)
    {row row' : AttestationRow} {a a' : Attestation} (hrow : row ∈ db.attestations)
    (hrow' : row' ∈ db.attestations) (ha : row.Holds projectId a) (ha' : row'.Holds projectId a')
    (hhash : a.val.revisionHash = a'.val.revisionHash) : a = a' := by
  rw [ha.revisionHash, ha'.revisionHash] at hhash
  obtain rfl := List.inj_on_of_nodup_map h.attestationHashes hrow hrow' hhash
  exact Except.ok.inj (ha.decoded.symm.trans ha'.decoded)

theorem Intact.released_unique (h : Intact keyring projectId db anchor revisions head)
    {a a' : Attestation} {t t' : Transaction} {approval approval' : Approval}
    (hr : Released keyring projectId db r a t approval)
    (hr' : Released keyring projectId db r a' t' approval') : a = a' ∧ t = t' := by
  obtain ⟨arow, harow, ha⟩ := hr.attestationRow
  obtain ⟨arow', harow', ha'⟩ := hr'.attestationRow
  obtain rfl := h.attestation_eq harow harow' ha ha' (hr.revisionHash.trans hr'.revisionHash.symm)
  obtain ⟨trow, htrow, g, ht⟩ := hr.transactionRow
  obtain ⟨trow', htrow', g', ht'⟩ := hr'.transactionRow
  have hid := hr.transactionId.symm.trans hr'.transactionId
  have hsame := h.transaction_eq htrow htrow' ht ht' hid
  exact ⟨rfl, congrArg StoredTransaction.transaction hsame⟩

theorem Intact.committed_by (h : Intact keyring projectId db anchor revisions head)
    {row : TransactionRow} {t' : Transaction} {g : Nat} (hr : r ∈ revisions.tail)
    (hreleased : Released keyring projectId db r a t approval) (hrow : row ∈ db.transactions)
    (hdecoded : decodeTransactionRow row = .ok ⟨t', g⟩) (hstate : t'.val.state = .committed)
    (hhash : t'.val.committedRevisionHash = some r.val.revisionHash) : t' = t := by
  obtain ⟨r', hr', a', approval', hreleased'⟩ := h.committed row hrow t' g hdecoded hstate
  have hhash' := hreleased'.committedRevisionHash
  rw [hhash, Option.some.injEq] at hhash'
  obtain rfl := eq_of_hash h.hashes (List.mem_of_mem_tail hr) (List.mem_of_mem_tail hr') hhash'
  exact (h.released_unique hreleased' hreleased).2

variable {stored : List StoredTransaction} {approvals : List Approval}

theorem loadAttestation_ok
    {row : AttestationRow} :
    loadAttestation keyring projectId revisions stored approvals row = .ok a ↔
      row.Holds projectId a ∧ ∃ r t approval,
        byHash revisions a.val.revisionHash = some r ∧ r.val.sequence ≠ 0 ∧
        transactionsByRevision stored (some a.val.revisionHash) = some t ∧
        approvalsById approvals a.val.approvalId = some approval ∧
        validateAttestationBinding keyring a r t approval = .ok () := by
  unfold loadAttestation
  simp only [bind_ok, exists_unit, require_ok, pure_ok, located_ok]
  constructor
  · rintro ⟨hdigest, a, hdecoded, ⟨hproject, hhash, hkey, hauthKey, hauthDigest, hnonce, happroval⟩,
      r, hr, hsequence, t, ht, approval, hfound, hbinding, rfl⟩
    exact ⟨⟨hdigest, hdecoded, hproject, hhash, hkey, hauthKey, hauthDigest, hnonce, happroval⟩,
      r, t, approval, hr, hsequence, ht, hfound, hbinding⟩
  · rintro ⟨hholds, r, t, approval, hr, hsequence, ht, hfound, hbinding⟩
    exact ⟨hholds.digest, a, hholds.decoded, ⟨hholds.project, hholds.revisionHash,
      hholds.attestationKeyId, hholds.authorizationKeyId, hholds.authorizationDigest,
      hholds.authorizationNonce, hholds.approvalDigest⟩, r, hr, hsequence, t, ht, approval, hfound,
      hbinding, rfl⟩

theorem Intact.tail_sequence (h : Intact keyring projectId db anchor revisions head)
    (hr : r ∈ revisions.tail) : r.val.sequence ≠ 0 := by
  have hsequences := (loadChain_rows h.chain).2.2.1
  cases hrevisions : revisions with
  | nil =>
      rw [hrevisions] at hr
      cases hr
  | cons first rest =>
      rw [hrevisions] at hsequences hr
      have hmem : r.val.sequence ∈ rest.map (·.val.sequence) := List.mem_map_of_mem hr
      cases hlength : db.revisions.length with
      | zero =>
          rw [hlength] at hsequences
          simp at hsequences
      | succ n =>
          rw [hlength, List.map_cons, List.range'_succ] at hsequences
          rw [(List.cons.inj hsequences).2, List.mem_range'_1] at hmem
          omega

theorem Intact.loads_attestation (h : Intact keyring projectId db anchor revisions head)
    (hstored : ∀ st, st ∈ stored ↔ ∃ row ∈ db.transactions, decodeTransactionRow row = .ok st)
    (happrovals : ∀ a, a ∈ approvals ↔ ∃ row ∈ db.approvals, loadApproval row = .ok a)
    (hids : (approvals.map (·.val.approvalId)).Nodup) (hr : r ∈ revisions.tail)
    (hreleased : Released keyring projectId db r a t approval) {row : AttestationRow}
    (hholds : row.Holds projectId a) :
    loadAttestation keyring projectId revisions stored approvals row = .ok a := by
  obtain ⟨trow, htrow, g, ht⟩ := hreleased.transactionRow
  obtain ⟨aprow, haprow, hap⟩ := hreleased.approvalRow
  rw [loadAttestation_ok, hreleased.revisionHash]
  refine ⟨hholds, r, t, approval, byHash_of_mem h.hashes (List.mem_of_mem_tail hr),
    h.tail_sequence hr, ?_, ?_, hreleased.binding⟩
  · have hmem : (⟨t, g⟩ : StoredTransaction) ∈ stored := (hstored _).mpr ⟨trow, htrow, ht⟩
    refine Dict.update_eq_of_mem _ (List.mem_map.mpr ⟨⟨t, g⟩, ?_, ?_⟩) ?_
    · exact List.mem_filter.mpr ⟨hmem, by simp [hreleased.committed]⟩
    · rw [hreleased.committedRevisionHash]
    · intro t' ht'
      obtain ⟨st, hst, heq⟩ := List.mem_map.mp ht'
      obtain ⟨hmem', hstate⟩ := List.mem_filter.mp hst
      obtain ⟨row', hrow', hdecoded'⟩ := (hstored st).mp hmem'
      rw [Prod.mk.injEq] at heq
      rw [← heq.2]
      exact h.committed_by hr hreleased hrow' hdecoded' (by simpa using hstate) heq.1
  · have hmem : approval ∈ approvals := (happrovals _).mpr ⟨aprow, haprow, hap⟩
    rw [hreleased.approvalId]
    refine Dict.update_eq_of_mem _ (List.mem_map.mpr ⟨approval, hmem, rfl⟩) ?_
    intro approval' happroval'
    obtain ⟨found, hfound, heq⟩ := List.mem_map.mp happroval'
    rw [Prod.mk.injEq] at heq
    rw [← heq.2]
    exact List.inj_on_of_nodup_map hids hfound hmem heq.1

theorem collect_attestations
    {rows : List AttestationRow} {seen found : List Attestation}
    (hload : rows.mapM (loadAttestation keyring projectId revisions stored approvals) = .ok found)
    (hnodup : ((seen ++ found).map (·.val.revisionHash)).Nodup) :
    rows.foldlM (collectAttestation keyring projectId revisions stored approvals) seen =
      .ok (seen ++ found) := by
  induction rows generalizing seen found with
  | nil =>
      rw [List.mapM_nil, pure_ok] at hload
      rw [← hload, List.append_nil]
      rfl
  | cons row rest ih =>
      have hall := mapM_ok.mp hload
      cases hall with
      | @cons _ a _ later hrow hlater =>
          rw [foldlM_cons_ok]
          have hassoc : seen ++ a :: later = (seen ++ [a]) ++ later := by simp
          rw [hassoc] at hnodup ⊢
          refine ⟨seen ++ [a], ?_, ih (mapM_ok.mpr hlater) hnodup⟩
          have hfresh : a.val.revisionHash ∉ seen.map (·.val.revisionHash) := by
            rw [List.append_assoc, List.map_append, List.nodup_append] at hnodup
            intro hmem
            exact hnodup.2.2 _ hmem _ (by simp) rfl
          unfold collectAttestation
          simp only [bind_ok, exists_unit, require_ok, pure_ok]
          exact ⟨a, hrow, hfresh, rfl⟩

theorem Intact.loads_attestations {db : Database}
    (h : Intact keyring projectId (db.of projectId) anchor revisions head)
    (hstored : ∀ st, st ∈ stored ↔
      ∃ row ∈ (db.of projectId).transactions, decodeTransactionRow row = .ok st)
    (happrovals : ∀ a, a ∈ approvals ↔
      ∃ row ∈ (db.of projectId).approvals, loadApproval row = .ok a)
    (hids : (approvals.map (·.val.approvalId)).Nodup) :
    ∃ attestations, loadAttestations keyring db projectId revisions stored approvals =
        .ok attestations ∧
      List.Forall₂ (fun r a => ∃ t approval,
        Released keyring projectId (db.of projectId) r a t approval) revisions.tail
        attestations := by
  have hload : ∀ row ∈ (db.of projectId).attestations, ∃ a,
      loadAttestation keyring projectId revisions stored approvals row = .ok a := by
    intro row hrow
    obtain ⟨r, hr, hhash⟩ := h.attested row hrow
    obtain ⟨a, t, approval, hreleased⟩ := h.released r hr
    obtain ⟨row', hrow', hholds⟩ := hreleased.attestationRow
    have hsame : row'.revisionHash = row.revisionHash := by
      rw [← hholds.revisionHash, hreleased.revisionHash, hhash]
    obtain rfl := List.inj_on_of_nodup_map h.attestationHashes hrow' hrow hsame
    exact ⟨a, h.loads_attestation hstored happrovals hids hr hreleased hholds⟩
  have hkey : ∀ row a, loadAttestation keyring projectId revisions stored approvals row = .ok a →
      a.val.revisionHash = row.revisionHash :=
    fun row a ha => (loadAttestation_ok.mp ha).1.revisionHash
  obtain ⟨seen, hseen, hmem, hnodup⟩ := mapM_rows hload hkey h.attestationHashes
  have hfound : ∀ r ∈ revisions.tail, ∃ a, attestationOf seen r = .ok a ∧
      ∃ t approval, Released keyring projectId (db.of projectId) r a t approval := by
    intro r hr
    obtain ⟨a, t, approval, hreleased⟩ := h.released r hr
    obtain ⟨row, hrow, hholds⟩ := hreleased.attestationRow
    have haseen : a ∈ seen := (hmem a).mpr
      ⟨row, hrow, h.loads_attestation hstored happrovals hids hr hreleased hholds⟩
    exact ⟨a, located_ok.mpr (find?_of_nodup hnodup haseen hreleased.revisionHash), t, approval,
      hreleased⟩
  obtain ⟨attestations, hattestations, hrelated⟩ := mapM_related hfound
  refine ⟨attestations, ?_, hrelated⟩
  unfold loadAttestations
  simp only [bind_ok, exists_unit, require_ok]
  have hcollected : List.foldlM (collectAttestation keyring projectId revisions stored approvals) []
      (sortBy AttestationRow.revisionHash (db.of projectId).attestations) = .ok ([] ++ seen) :=
    collect_attestations hseen hnodup
  refine ⟨seen, hcollected, ?_, hattestations⟩
  -- the attested revisions are all but the first
  have hseenHashes : ∀ hash ∈ seen.map (·.val.revisionHash),
      hash ∈ revisions.tail.map (·.val.revisionHash) := by
    intro hash hhash
    obtain ⟨a, ha, rfl⟩ := List.mem_map.mp hhash
    obtain ⟨row, hrow, hrowLoad⟩ := (hmem a).mp ha
    obtain ⟨r, hr, hrowHash⟩ := h.attested row hrow
    exact List.mem_map.mpr ⟨r, hr, by rw [hkey row a hrowLoad, hrowHash]⟩
  have hexpected : ∀ hash ∈ revisions.tail.map (·.val.revisionHash),
      hash ∈ seen.map (·.val.revisionHash) := by
    intro hash hhash
    obtain ⟨r, hr, rfl⟩ := List.mem_map.mp hhash
    obtain ⟨a, ha, t, approval, hreleased⟩ := hfound r hr
    have haseen : a ∈ seen := List.mem_of_find?_eq_some (located_ok.mp ha)
    exact List.mem_map.mpr ⟨a, haseen, hreleased.revisionHash⟩
  intro hash hhash
  rcases List.mem_append.mp hhash with hleft | hright
  · exact ⟨hleft, hseenHashes hash hleft⟩
  · exact ⟨hexpected hash hright, hright⟩

omit [UnicodeData] [Hashing] in
theorem eq_singleton_of_nodup {α : Type} {l : List α} {a : α} (hnodup : l.Nodup) (ha : a ∈ l)
    (hall : ∀ b ∈ l, b = a) : l = [a] := by
  cases l with
  | nil => cases ha
  | cons b rest =>
      rw [List.nodup_cons] at hnodup
      obtain rfl := hall b (List.mem_cons_self ..)
      cases rest with
      | nil => rfl
      | cons c rest =>
          obtain rfl := hall c (by simp)
          exact absurd (List.mem_cons_self ..) hnodup.1

theorem validateApprovalBinding_ok {u : Unit} :
    validateApprovalBinding approval t = .ok u ↔
      approval.val.transactionId = t.val.transactionId ∧
      approval.val.previewDigest = t.val.previewDigest ∧
      t.val.verificationReportHash = some approval.val.verificationReportHash ∧
      validateApprovalSubject approval t.val.baseRevision = .ok () := by
  unfold validateApprovalBinding
  simp only [bind_ok, exists_unit, require_ok]

theorem Intact.approval_subject (h : Intact keyring projectId db anchor revisions head)
    {row : ApprovalRow} (hrow : row ∈ db.approvals) (happroval : loadApproval row = .ok approval) :
    ∃ trow ∈ db.transactions, ∃ st, decodeTransactionRow trow = .ok st ∧
      st.transaction.val.transactionId = approval.val.transactionId ∧
      validateApprovalSubject approval st.transaction.val.baseRevision = .ok () := by
  obtain ⟨approval', hload, trow, htrow, hid, hsubject⟩ := h.approvals row hrow
  obtain rfl := Except.ok.inj (happroval.symm.trans hload)
  obtain ⟨st, hst⟩ := h.transactions trow htrow
  have hdecoded := (loadTransaction_ok.mp hst).1
  obtain ⟨-, -, hstId, hstBase, -⟩ := decodeTransactionRow_ok.mp hdecoded
  refine ⟨trow, htrow, st, hdecoded, hstId.trans hid, ?_⟩
  rw [hstBase]
  exact hsubject

theorem Intact.approval_binds (h : Intact keyring projectId db anchor revisions head)
    (hreleased : Released keyring projectId db r a t approval) {row : ApprovalRow}
    {found : Approval} (hrow : row ∈ db.approvals) (hfound : loadApproval row = .ok found)
    (hid : found.val.transactionId = t.val.transactionId)
    (hpreview : some found.val.previewDigest = r.val.approvalPreviewDigest)
    (hreport : some found.val.verificationReportHash = r.val.verificationReportHash) :
    validateApprovalBinding found t = .ok () := by
  obtain ⟨trow, htrow, st, hdecoded, hstId, hsubject⟩ := h.approval_subject hrow hfound
  obtain ⟨trow', htrow', g, ht⟩ := hreleased.transactionRow
  have hsame := h.transaction_eq htrow htrow' hdecoded ht (hstId.trans hid)
  obtain ⟨-, -, -, ⟨htpreview, hrpreview, -, -, -, -, htreport, hrreport, -⟩, -⟩ := hreleased.binds
  rw [validateApprovalBinding_ok]
  refine ⟨hid, ?_, ?_, ?_⟩
  · rw [← hrpreview, Option.some.injEq] at hpreview
    exact hpreview.trans htpreview
  · rw [hreport, ← hrreport, htreport]
  · rw [hsame] at hsubject
    exact hsubject

def committedFor (stored : List StoredTransaction) (r : Revision) : List Transaction :=
  (stored.map (·.transaction)).filter fun t =>
    t.val.state == .committed && t.val.committedRevisionHash == some r.val.revisionHash

/-- The affirmative approvals of a transaction that match the revision it committed. -/
def affirmativeFor (approvals : List Approval) (t : Transaction) (r : Revision) : List Approval :=
  approvals.filter fun a =>
    a.val.transactionId == t.val.transactionId &&
      some a.val.previewDigest == r.val.approvalPreviewDigest &&
      some a.val.verificationReportHash == r.val.verificationReportHash &&
      a.val.decision == .approved

theorem Intact.committedFor_eq (h : Intact keyring projectId db anchor revisions head)
    (hstored : ∀ st, st ∈ stored ↔ ∃ row ∈ db.transactions, decodeTransactionRow row = .ok st)
    (hnodup : (stored.map (·.transaction.val.transactionId)).Nodup) (hr : r ∈ revisions.tail)
    (hreleased : Released keyring projectId db r a t approval) : committedFor stored r = [t] := by
  obtain ⟨trow, htrow, g, ht⟩ := hreleased.transactionRow
  refine eq_singleton_of_nodup ?_ ?_ ?_
  · refine List.Nodup.filter _ (List.Nodup.of_map (fun t => t.val.transactionId) ?_)
    rw [List.map_map]
    exact hnodup
  · refine List.mem_filter.mpr ⟨List.mem_map.mpr ⟨⟨t, g⟩, ?_, rfl⟩, ?_⟩
    · exact (hstored _).mpr ⟨trow, htrow, ht⟩
    · simp [hreleased.committed, hreleased.committedRevisionHash]
  · intro t' ht'
    obtain ⟨hmem', hmatches⟩ := List.mem_filter.mp ht'
    obtain ⟨st, hst, rfl⟩ := List.mem_map.mp hmem'
    obtain ⟨row, hrow, hdecoded⟩ := (hstored st).mp hst
    rw [Bool.and_eq_true, beq_iff_eq, beq_iff_eq] at hmatches
    exact h.committed_by hr hreleased hrow hdecoded hmatches.1 hmatches.2

theorem Released.affirmative (h : Released keyring projectId db r a t approval)
    (happrovals : ∀ a, a ∈ approvals ↔ ∃ row ∈ db.approvals, loadApproval row = .ok a) :
    approval ∈ affirmativeFor approvals t r := by
  obtain ⟨aprow, haprow, hap⟩ := h.approvalRow
  obtain ⟨-, -, -, ⟨htpreview, hrpreview, -, -, -, -, htreport, hrreport, -⟩, -, -, -, -, -, -,
    hid, hpreview, hreport, hdecision⟩ := h.binds
  refine List.mem_filter.mpr ⟨(happrovals _).mpr ⟨aprow, haprow, hap⟩, ?_⟩
  simp only [Bool.and_eq_true, beq_iff_eq]
  refine ⟨⟨⟨hid, ?_⟩, ?_⟩, hdecision⟩
  · rw [← hrpreview, hpreview, htpreview]
  · rw [hreport, ← htreport, hrreport]

theorem Intact.crossChecks {db : Database}
    (h : Intact keyring projectId db anchor revisions head)
    (hstored : ∀ st, st ∈ stored ↔ ∃ row ∈ db.transactions, decodeTransactionRow row = .ok st)
    (hnodup : (stored.map (·.transaction.val.transactionId)).Nodup)
    (happrovals : ∀ a, a ∈ approvals ↔ ∃ row ∈ db.approvals, loadApproval row = .ok a) :
    crossChecks revisions stored approvals = .ok () := by
  unfold ProjectStore.crossChecks
  simp only [bind_ok, exists_unit, forM_ok]
  constructor
  · intro approval happroval
    obtain ⟨row, hrow, hload⟩ := (happrovals approval).mp happroval
    obtain ⟨trow, htrow, st, hdecoded, hid, hsubject⟩ := h.approval_subject hrow hload
    have hmem : st ∈ stored := (hstored st).mpr ⟨trow, htrow, hdecoded⟩
    have hlookup : (Dict.empty : Dict String Transaction).update (stored.map fun stored =>
        (stored.transaction.val.transactionId, stored.transaction)) approval.val.transactionId =
        some st.transaction := by
      refine Dict.update_eq_of_mem _ (List.mem_map.mpr ⟨st, hmem, by rw [hid]⟩) ?_
      intro t' ht'
      obtain ⟨st', hst', heq⟩ := List.mem_map.mp ht'
      rw [Prod.mk.injEq] at heq
      rw [← heq.2, List.inj_on_of_nodup_map hnodup hst' hmem (heq.1.trans hid.symm)]
    rw [hlookup]
    exact hsubject
  · intro r hr
    obtain ⟨a, t, approval, hreleased⟩ := h.released r hr
    have hmatching := h.committedFor_eq hstored hnodup hr hreleased
    unfold committedFor at hmatching
    rw [hmatching]
    simp only [bind_ok, exists_unit, require_ok, forM_ok]
    refine ⟨List.ne_nil_of_mem (hreleased.affirmative happrovals), ?_⟩
    intro found hfound
    obtain ⟨hmem, hmatches⟩ := List.mem_filter.mp hfound
    obtain ⟨row, hrow, hload⟩ := (happrovals found).mp hmem
    simp only [Bool.and_eq_true, beq_iff_eq] at hmatches
    obtain ⟨⟨⟨hid, hpreview⟩, hreport⟩, -⟩ := hmatches
    exact h.approval_binds hreleased hrow hload hid hpreview hreport

/-! ### Restoring an intact project -/

omit [UnicodeData] [Hashing] in
theorem anchorState_ok {projectId : String} {sequence : Nat} {hash digest : String} {A : Anchor} :
    anchorState projectId sequence hash digest = .ok A ↔ A.val = ⟨projectId, sequence, hash, digest⟩ :=
  constructStored_ok

theorem Intact.length_eq (h : Intact keyring projectId db anchor revisions head) :
    revisions.length = db.revisions.length := by
  have hlength := congrArg List.length (loadChain_rows h.chain).1
  rw [List.length_map, List.length_map] at hlength
  exact hlength.symm

theorem Intact.at_sequence (h : Intact keyring projectId db anchor revisions head)
    (hr : r ∈ revisions) : revisions[r.val.sequence]? = some r := by
  obtain ⟨n, hn, hget⟩ := List.mem_iff_getElem.mp hr
  have hsequences := (loadChain_rows h.chain).2.2.1
  have hplace : (revisions.map (·.val.sequence))[n]? = some r.val.sequence := by
    rw [List.getElem?_map, List.getElem?_eq_getElem hn, hget]
    rfl
  rw [hsequences, List.getElem?_range' (by rw [← h.length_eq]; exact hn), Option.some.injEq] at hplace
  have hsame : r.val.sequence = n := by omega
  rw [hsame, List.getElem?_eq_getElem hn, hget]

theorem Intact.head_sequence (h : Intact keyring projectId db anchor revisions head) :
    head.val.sequence + 1 = db.revisions.length := by
  have hat := h.at_sequence h.head_mem
  have hlast := h.last
  rw [List.getLast?_eq_getElem?] at hlast
  have hpos : 0 < revisions.length := List.length_pos_of_mem h.head_mem
  obtain ⟨hn, hget⟩ := List.getElem?_eq_some_iff.mp hat
  obtain ⟨hn', hget'⟩ := List.getElem?_eq_some_iff.mp hlast
  have hnodup : revisions.Nodup := h.hashes.of_map
  have hsame := hnodup.getElem_inj_iff.mp (hget.trans hget'.symm)
  rw [← h.length_eq]
  omega

theorem AttestationRow.Holds.survives {row : AttestationRow} (h : row.Holds projectId a) :
    survivingAttestation a = .ok (row.body, row.bodyHash) := by
  have hencoded := attestation_textsKept.1 row.body a trivial h.decoded
  unfold survivingAttestation surviving
  simp only [bind_ok, exists_unit, require_ok, pure_ok]
  refine ⟨_, hencoded, a, h.decoded, rfl, ?_⟩
  rw [h.digest]

/-- The checkpoint of a revision: its number, its hash and the digest of its attestation. -/
def Checkpoint (projectId : String) (db : Database) (r : Revision) (A : Anchor) : Prop :=
  ∃ digest, A.val = ⟨projectId, r.val.sequence, r.val.revisionHash, digest⟩ ∧
    (r.val.sequence = 0 → digest = genesisAttestationDigest) ∧
    (r.val.sequence ≠ 0 → ∃ row ∈ db.attestations,
      row.revisionHash = r.val.revisionHash ∧ digest = row.bodyHash)

theorem Intact.head_checkpoint {A : Anchor}
    (h : Intact keyring projectId db (some A) revisions head) :
    Checkpoint projectId db head A := by
  obtain ⟨digest, B, hanchor, hval, hgenesis, hlater⟩ := h.anchored
  obtain rfl := Option.some.inj hanchor
  exact ⟨digest, hval, hgenesis, hlater⟩

theorem Intact.expects (h : Intact keyring projectId db anchor revisions head)
    {attestations : List Attestation}
    (hattestations : List.Forall₂ (fun r a => ∃ t approval,
      Released keyring projectId db r a t approval) revisions.tail attestations)
    (hr : r ∈ revisions) {A : Anchor} (hA : Checkpoint projectId db r A) :
    expectedAnchor projectId revisions attestations r.val.sequence = .ok A := by
  obtain ⟨digest, hval, hgenesis, hlater⟩ := hA
  unfold ProjectStore.expectedAnchor
  simp only [bind_ok, located_ok]
  refine ⟨digest, ?_, r, h.at_sequence hr, anchorState_ok.mpr hval⟩
  unfold attestationDigestAt
  by_cases hzero : r.val.sequence = 0
  · rw [if_pos hzero, hgenesis hzero]
  · rw [if_neg hzero]
    -- the attestations begin with the one of the second revision
    have htail : revisions.tail[r.val.sequence - 1]? = some r := by
      rw [List.getElem?_tail]
      have hplace : r.val.sequence - 1 + 1 = r.val.sequence := by omega
      rw [hplace]
      exact h.at_sequence hr
    obtain ⟨hindex, hget⟩ := List.getElem?_eq_some_iff.mp htail
    have hindex' : r.val.sequence - 1 < attestations.length :=
      hattestations.length_eq ▸ hindex
    have hrelated := hattestations.get hindex hindex'
    simp only [List.get_eq_getElem, hget] at hrelated
    obtain ⟨t, approval, hreleased⟩ := hrelated
    obtain ⟨row, hrow, hhash, hdigest⟩ := hlater hzero
    obtain ⟨row', hrow', hholds⟩ := hreleased.attestationRow
    have hsame : row'.revisionHash = row.revisionHash := by
      rw [← hholds.revisionHash, hreleased.revisionHash, hhash]
    obtain rfl := List.inj_on_of_nodup_map h.attestationHashes hrow' hrow hsame
    simp only [bind_ok, pure_ok, located_ok]
    exact ⟨_, List.getElem?_eq_some_iff.mpr ⟨hindex', rfl⟩, _, hholds.survives, hdigest.symm⟩

theorem Intact.expectedAnchor (h : Intact keyring projectId db anchor revisions head)
    {attestations : List Attestation}
    (hattestations : List.Forall₂ (fun r a => ∃ t approval,
      Released keyring projectId db r a t approval) revisions.tail attestations) :
    ∃ A, anchor = some A ∧ A.val.projectId = projectId ∧ A.val.sequence = head.val.sequence ∧
      expectedAnchor projectId revisions attestations head.val.sequence = .ok A := by
  obtain ⟨digest, A, hanchor, hval, hgenesis, hlater⟩ := h.anchored
  exact ⟨A, hanchor, by rw [hval], by rw [hval],
    h.expects hattestations h.head_mem ⟨digest, hval, hgenesis, hlater⟩⟩

omit [UnicodeData] [Hashing] in
theorem anchorIdentifier_ok (A : Anchor) (label : String) :
    anchorIdentifier A.val.projectId label = .ok () := by
  have hchecks := (checking_ok.mp A.accepted).1
  unfold ProjectHeadAnchorState.checks anchorIdentifier at hchecks
  simp only [bind_ok, exists_unit, require_ok] at hchecks
  exact require_ok.mpr hchecks.1

omit [UnicodeData] [Hashing] in
theorem readAnchor_bind_run {β : Type} {s : StoreState} {A : Anchor}
    (hproject : A.val.projectId = projectId) (f : Option Anchor → StoreM β) :
    (readAnchor projectId >>= f).run s = (f (s.anchors projectId)).run s := by
  have hidentifier := anchorIdentifier_ok A "anchor project ID"
  rw [hproject] at hidentifier
  unfold readAnchor
  rw [hidentifier]
  rfl

theorem Intact.reconciles {s : StoreState}
    (h : Intact keyring projectId db (s.anchors projectId) revisions head)
    {attestations : List Attestation}
    (hattestations : List.Forall₂ (fun r a => ∃ t approval,
      Released keyring projectId db r a t approval) revisions.tail attestations) :
    (reconcileHeadAnchor revisions attestations).run s = (.ok (), s) := by
  obtain ⟨A, hanchor, hproject, hsequence, hexpected⟩ := h.expectedAnchor hattestations
  have hheadProject : head.val.graph.projectId = projectId :=
    (loadChain_rows h.chain).2.2.2 head h.head_mem
  unfold reconcileHeadAnchor
  rw [check_bind_returns]
  refine ⟨head, located_ok.mpr h.last, ?_⟩
  simp only [hheadProject]
  rw [readAnchor_bind_run hproject, hanchor]
  simp only [check_bind_returns, exists_unit, require_ok, hsequence]
  refine ⟨le_refl _, A, hexpected, rfl, ?_⟩
  have hdone : advanceAnchor projectId revisions attestations head.val.sequence
      (head.val.sequence + 1) A (head.val.sequence + 1) = pure A := by
    rw [advanceAnchor, if_pos (Nat.lt_succ_self _)]
  rw [hdone]
  have hpure : ∀ {β : Type} (f : Anchor → StoreM β), (pure A >>= f).run s = (f A).run s :=
    fun _ => rfl
  rw [hpure, readAnchor_bind_run hproject, hanchor]
  simp only [check_bind_returns, check_returns, exists_unit, require_ok, and_true]
  intro anchor hmem
  obtain rfl := Option.some.inj hmem
  exact hsequence.le

/-- What a snapshot holds is what the rows of the project hold. -/
structure Snapshot (keyring : Keyring) (projectId : String) (db : Database)
    (state : ProjectState) : Prop where
  transactions : ∀ st, st ∈ state.transactions ↔
    ∃ row ∈ db.transactions, decodeTransactionRow row = .ok st
  transactionIds : (state.transactions.map (·.transaction.val.transactionId)).Nodup
  approvals : ∀ a, a ∈ state.approvals ↔ ∃ row ∈ db.approvals, loadApproval row = .ok a
  approvalIds : (state.approvals.map (·.val.approvalId)).Nodup
  attestations : List.Forall₂ (fun r a => ∃ t approval,
    Released keyring projectId db r a t approval) state.revisions.tail state.attestations

theorem Intact.restores_to {s s' : StoreState}
    (h : Intact keyring projectId (s.database.of projectId) anchor revisions head)
    (hreconciles : ∀ attestations : List Attestation,
      List.Forall₂ (fun r a => ∃ t approval,
        Released keyring projectId (s.database.of projectId) r a t approval) revisions.tail
        attestations →
      (reconcileHeadAnchor revisions attestations).run s = (.ok (), s')) :
    ∃ state, (restore keyring projectId).run s = (.ok state, s') ∧ state.revisions = revisions ∧
      state.headRevision = head ∧
      Snapshot keyring projectId (s.database.of projectId) state := by
  obtain ⟨stored, hstored, hmem, hnodup⟩ := h.loads_transactions
  obtain ⟨approvals, happrovals, hmemA, hnodupA⟩ := h.loads_approvals
  obtain ⟨attestations, hattestations, hrelated⟩ := h.loads_attestations hmem hmemA hnodupA
  refine ⟨⟨projectId, head, revisions, stored, approvals, attestations⟩, ?_, rfl, rfl,
    ⟨hmem, hnodup, hmemA, hnodupA, hrelated⟩⟩
  have hsnapshot : (restoreSnapshot keyring projectId).run s =
      (.ok ⟨projectId, head, revisions, stored, approvals, attestations⟩, s') := by
    unfold restoreSnapshot
    rw [run_read_bind]
    refine check_bind_returns.mpr ⟨revisions, h.loads_revisions, ?_⟩
    refine check_bind_returns.mpr ⟨stored, hstored, ?_⟩
    refine check_bind_returns.mpr ⟨approvals, happrovals, ?_⟩
    refine check_bind_returns.mpr ⟨attestations, hattestations, ?_⟩
    refine check_bind_returns.mpr ⟨(), h.crossChecks hmem hnodup hmemA, ?_⟩
    refine bind_returns.mpr ⟨(), s', hreconciles _ hrelated, ?_⟩
    exact check_bind_returns.mpr ⟨head, located_ok.mpr h.last, rfl⟩
  exact handling_returns hsnapshot

/-- **An intact project is restored**, and nothing is changed by it. -/
theorem Intact.restores {s : StoreState}
    (h : Intact keyring projectId (s.database.of projectId) (s.anchors projectId) revisions head) :
    ∃ state, (restore keyring projectId).run s = (.ok state, s) ∧ state.revisions = revisions ∧
      state.headRevision = head ∧
      Snapshot keyring projectId (s.database.of projectId) state :=
  h.restores_to fun _ hattestations => h.reconciles hattestations

end Intact

end Evleda.ProjectStore
