/-
The project store: a database and an anchor outside of it.

A row repeats some fields of its record beside the record's body and the digest of
the body; the revisions of a project are chained by record hashes.  The anchor holds,
for each project, the head that was last made durable.

Reading a project checks everything again, and at last that the anchor is where the
database is, moving it forward over revisions that were written without it.  Each call
that writes restores the project first and then works in one database transaction,
which a raise undoes; the anchor is not part of that.

The public keys that attestations are checked with are a parameter.
-/
import Evleda.ProjectStore.Snapshots

namespace Evleda.ProjectStore

open Kernel Effect

/-! ### Tables -/

structure ProjectRow where
  projectId : String
  headRevision : String
  headSequence : Nat
  generation : Nat
  deriving DecidableEq

structure RevisionRow where
  projectId : String
  sequence : Nat
  revisionHash : String
  parentRevision : Option String
  graphHash : String
  previousRecordHash : String
  recordHash : String
  body : String
  bodyHash : String
  deriving DecidableEq

structure TransactionRow where
  projectId : String
  transactionId : String
  baseRevision : String
  state : String
  previewDigest : String
  generation : Nat
  body : String
  bodyHash : String
  deriving DecidableEq

structure ApprovalRow where
  projectId : String
  approvalId : String
  approvalDigest : String
  transactionId : String
  previewDigest : String
  releaseSubjectDigest : String
  verificationReportHash : String
  decision : String
  body : String
  bodyHash : String
  deriving DecidableEq

structure AttestationRow where
  projectId : String
  revisionHash : String
  attestationKeyId : String
  authorizationKeyId : String
  authorizationDigest : String
  authorizationNonce : String
  approvalDigest : String
  body : String
  bodyHash : String
  deriving DecidableEq

structure Database where
  projects : List ProjectRow := []
  revisions : List RevisionRow := []
  transactions : List TransactionRow := []
  approvals : List ApprovalRow := []
  attestations : List AttestationRow := []

/-- What a statement that breaks a constraint raises. -/
def constraintFailure : StoreFailure :=
  integrity "durable project database failed an integrity check"

def Database.hasProject (db : Database) (projectId : String) : Prop :=
  projectId ∈ db.projects.map ProjectRow.projectId

instance (db : Database) (projectId : String) : Decidable (db.hasProject projectId) :=
  inferInstanceAs (Decidable (_ ∈ _))

/-- `INSERT INTO canonical_projects` -/
def Database.insertProject (db : Database) (row : ProjectRow) : Except StoreFailure Database := do
  require (¬ db.hasProject row.projectId) constraintFailure
  return { db with projects := db.projects ++ [row] }

/-- `INSERT INTO design_revisions` -/
def Database.insertRevision (db : Database) (row : RevisionRow) : Except StoreFailure Database := do
  require (db.hasProject row.projectId ∧
      (row.projectId, row.revisionHash) ∉ db.revisions.map (fun r => (r.projectId, r.revisionHash)) ∧
      (row.projectId, row.sequence) ∉ db.revisions.map (fun r => (r.projectId, r.sequence)))
    constraintFailure
  return { db with revisions := db.revisions ++ [row] }

/-- `INSERT INTO design_transactions` -/
def Database.insertTransaction (db : Database) (row : TransactionRow) :
    Except StoreFailure Database := do
  require (db.hasProject row.projectId ∧ (row.projectId, row.transactionId) ∉
      db.transactions.map (fun r => (r.projectId, r.transactionId))) constraintFailure
  return { db with transactions := db.transactions ++ [row] }

/-- `INSERT INTO approval_evidence` -/
def Database.insertApproval (db : Database) (row : ApprovalRow) : Except StoreFailure Database := do
  require (db.hasProject row.projectId ∧
      (row.projectId, row.approvalId) ∉ db.approvals.map (fun r => (r.projectId, r.approvalId)) ∧
      Text.isSha256 row.approvalDigest ∧ Text.isSha256 row.releaseSubjectDigest ∧
      Text.isSha256 row.verificationReportHash) constraintFailure
  return { db with approvals := db.approvals ++ [row] }

/-- `INSERT INTO commit_attestations` -/
def Database.insertAttestation (db : Database) (row : AttestationRow) :
    Except StoreFailure Database := do
  require (db.hasProject row.projectId ∧
      (row.projectId, row.revisionHash) ∉
        db.attestations.map (fun r => (r.projectId, r.revisionHash)) ∧
      (row.authorizationKeyId, row.authorizationDigest) ∉
        db.attestations.map (fun r => (r.authorizationKeyId, r.authorizationDigest)) ∧
      (row.authorizationKeyId, row.authorizationNonce) ∉
        db.attestations.map (fun r => (r.authorizationKeyId, r.authorizationNonce)) ∧
      row.approvalDigest ∉ db.attestations.map AttestationRow.approvalDigest) constraintFailure
  return { db with attestations := db.attestations ++ [row] }

/-- The row that an update of a transaction is about. -/
def TransactionRow.isAt (projectId transactionId baseRevision : String) (generation : Int)
    (row : TransactionRow) : Bool :=
  row.projectId == projectId && row.transactionId == transactionId &&
    (row.generation : Int) == generation && row.baseRevision == baseRevision

/-- `UPDATE design_transactions`, which has to change exactly one row that is not terminal. -/
def Database.updateTransaction (db : Database) (row : TransactionRow) (expected : Int) :
    Except StoreFailure Database := do
  let isAt := TransactionRow.isAt row.projectId row.transactionId row.baseRevision expected
  require (∀ old ∈ db.transactions.filter isAt, old.state ∉ ["committed", "rolled_back"])
    constraintFailure
  require ((db.transactions.filter isAt).length = 1)
    (conflict ("transaction " ++ row.transactionId ++ " is not at generation " ++
      toString expected))
  return { db with transactions := db.transactions.map fun old => if isAt old then row else old }

/-- `UPDATE canonical_projects`, which has to change exactly one row. -/
def Database.advanceHead (db : Database) (row : ProjectRow) (expectedHead : String)
    (expectedSequence : Nat) : Except StoreFailure Database := do
  let isAt := fun old : ProjectRow => old.projectId == row.projectId &&
    old.headRevision == expectedHead && old.headSequence == expectedSequence
  require ((db.projects.filter isAt).length = 1)
    (conflict "project head changed during atomic revision append")
  return { db with projects := db.projects.map fun old => if isAt old then row else old }

/-! ### Anchors -/

structure ProjectHeadAnchorState where
  projectId : String
  sequence : Nat
  revisionHash : String
  attestationDigest : String
  deriving DecidableEq

def genesisAttestationDigest : String := String.ofList (List.replicate 64 '0')

def anchorIdentifier (value label : String) : Except StoreFailure Unit :=
  require (value ≠ "" ∧ value = Text.strip value)
    (valueError (label ++ " must be an exact non-empty identifier"))

def anchorDigest (value label : String) : Except StoreFailure Unit :=
  require (Text.isSha256 value) (valueError (label ++ " must be an exact lowercase SHA-256 digest"))

def ProjectHeadAnchorState.checks (a : ProjectHeadAnchorState) : Except StoreFailure Unit := do
  anchorIdentifier a.projectId "anchor project ID"
  anchorDigest a.revisionHash "anchor revision hash"
  anchorDigest a.attestationDigest "anchor attestation digest"
  require (a.sequence = 0 → a.attestationDigest = genesisAttestationDigest)
    (valueError "genesis anchor must use the genesis attestation sentinel")
  require (0 < a.sequence → a.attestationDigest ≠ genesisAttestationDigest)
    (valueError "non-genesis anchor requires an attestation digest")

abbrev Anchor := Checked (checking ProjectHeadAnchorState.checks)

structure StoreState where
  database : Database := {}
  anchors : Dict String Anchor := Dict.empty

abbrev StoreM := Effect StoreState StoreFailure

def readAnchor (projectId : String) : StoreM (Option Anchor) := do
  check (anchorIdentifier projectId "anchor project ID")
  read fun s => s.anchors projectId

def initializeAnchor (state : Anchor) : StoreM Unit := do
  let existing ← read fun s => s.anchors state.val.projectId
  check (require (∀ found ∈ existing, found = state)
    (integrity "project head anchor already has different state"))
  write fun s => { s with anchors := s.anchors.set state.val.projectId state }

def compareAndSet (expected current : Anchor) : StoreM Unit := do
  check (require (expected.val.projectId = current.val.projectId)
    (valueError "anchor CAS states must belong to the same project"))
  check (require (current.val.sequence = expected.val.sequence + 1)
    (valueError "anchor CAS must advance exactly one revision"))
  let observed ← read fun s => s.anchors expected.val.projectId
  if observed = some current then pure ()
  else do
    check (require (observed = some expected)
      (integrity "project head anchor compare-and-set conflict"))
    write fun s => { s with anchors := s.anchors.set current.val.projectId current }

/-! ### Reading a project -/

section Loading

variable [UnicodeData] [Hashing]

structure StoredTransaction where
  transaction : Transaction
  generation : Nat

structure ProjectState where
  projectId : String
  headRevision : Revision
  revisions : List Revision
  transactions : List StoredTransaction
  approvals : List Approval
  attestations : List Attestation

def projectRow (db : Database) (projectId : String) : Except StoreFailure ProjectRow :=
  located ⟨.projectNotFound, "project " ++ projectId ++ " not found"⟩
    (db.projects.find? (·.projectId == projectId))

/-- What an index past the end of a tuple raises. -/
def outOfRange : StoreFailure := ⟨.kernel .keyError, "tuple index out of range"⟩

/-- `revisions[-1]` -/
def lastOf (revisions : List Revision) : Except StoreFailure Revision :=
  located outOfRange revisions.getLast?

def recordHashOf (projectId : String) (sequence : Nat) (revisionHash bodyHash : String)
    (previousRecordHash : String) : String :=
  stableHash "flux-clone-project-store-revision-record-v1" (Json.object [
    ("body_hash", .str bodyHash), ("previous_record_hash", .str previousRecordHash),
    ("project_id", .str projectId), ("revision_hash", .str revisionHash),
    ("sequence", .int sequence)])

/-- The revisions of rows in order, each checked against the one before. -/
def loadChain (projectId : String) : Nat → Option String → String → List RevisionRow →
    Except StoreFailure (List Revision)
  | _, _, _, [] => .ok []
  | expectedSequence, previousRevision, previousRecordHash, row :: rest => do
      let place := toString expectedSequence
      let digest := bodySha256 row.body
      require (digest = row.bodyHash)
        (integrity ("revision body digest mismatch at sequence " ++ place))
      let revision ← decodeRevision row.body
      require (row.sequence = expectedSequence ∧ revision.val.sequence = expectedSequence ∧
          row.revisionHash = revision.val.revisionHash ∧
          row.parentRevision = revision.val.parentRevision ∧
          row.graphHash = revision.val.graphHash ∧ revision.val.graph.projectId = projectId)
        (integrity ("revision index/body mismatch at sequence " ++ place))
      require (revision.val.parentRevision = previousRevision)
        (integrity ("revision lineage mismatch at sequence " ++ place))
      let recordHash := recordHashOf projectId expectedSequence revision.val.revisionHash digest
        previousRecordHash
      require (row.previousRecordHash = previousRecordHash ∧ row.recordHash = recordHash)
        (integrity ("revision record chain mismatch at sequence " ++ place))
      return revision :: (← loadChain projectId (expectedSequence + 1)
        (some revision.val.revisionHash) recordHash rest)

/-- `_load_revisions_locked` -/
def loadRevisions (db : Database) (projectId : String) : Except StoreFailure (List Revision) := do
  let project ← projectRow db projectId
  let rows := sortBy RevisionRow.sequence (db.revisions.filter (·.projectId == projectId))
  require (rows ≠ []) (integrity "project has no genesis revision")
  let revisions ← loadChain projectId 0 none "" rows
  let head ← lastOf revisions
  require (project.projectId = projectId ∧ project.headRevision = head.val.revisionHash ∧
      project.headSequence = head.val.sequence ∧ project.generation = head.val.sequence)
    (integrity "project head index does not match immutable revision history")
  return revisions

def byHash (revisions : List Revision) : Dict String Revision :=
  Dict.empty.update (revisions.map fun r => (r.val.revisionHash, r))

def decodeTransactionRow (row : TransactionRow) : Except StoreFailure StoredTransaction := do
  require (bodySha256 row.body = row.bodyHash)
    (integrity ("transaction " ++ row.transactionId ++ " body digest mismatch"))
  let transaction ← decodeTransaction row.body
  require (transaction.val.transactionId = row.transactionId ∧
      transaction.val.baseRevision = row.baseRevision ∧
      stateValue transaction.val.state = row.state ∧
      transaction.val.previewDigest = row.previewDigest)
    (integrity ("transaction " ++ transaction.val.transactionId ++ " index/body mismatch"))
  return ⟨transaction, row.generation⟩

def loadTransaction (revisions : List Revision) (row : TransactionRow) :
    Except StoreFailure StoredTransaction := do
  let stored ← decodeTransactionRow row
  let base ← located (integrity "transaction references a missing revision")
    (byHash revisions stored.transaction.val.baseRevision)
  let committed := stored.transaction.val.committedRevisionHash.bind (byHash revisions)
  validateTransaction stored.transaction base committed
  return stored

/-- `_load_transactions_locked` -/
def loadTransactions (db : Database) (projectId : String) (revisions : List Revision) :
    Except StoreFailure (List StoredTransaction) :=
  (sortBy TransactionRow.transactionId (db.transactions.filter (·.projectId == projectId))).mapM
    (loadTransaction revisions)

def loadApproval (row : ApprovalRow) : Except StoreFailure Approval := do
  require (bodySha256 row.body = row.bodyHash)
    (integrity ("approval " ++ row.approvalId ++ " body digest mismatch"))
  let approval ← decodeApproval row.body
  let a := approval.val
  require (a.approvalId = row.approvalId ∧ a.approvalDigest = row.approvalDigest ∧
      a.transactionId = row.transactionId ∧ a.previewDigest = row.previewDigest ∧
      a.releaseSubjectDigest = row.releaseSubjectDigest ∧
      a.verificationReportHash = row.verificationReportHash ∧ a.decision.value = row.decision)
    (integrity ("approval " ++ a.approvalId ++ " index/body mismatch"))
  return approval

/-- `_load_approvals_locked` -/
def loadApprovals (db : Database) (projectId : String) : Except StoreFailure (List Approval) :=
  (sortBy ApprovalRow.approvalId (db.approvals.filter (·.projectId == projectId))).mapM
    loadApproval

/-! ### What approvals and attestations bind -/

/-- `_release_subject_digest` -/
def releaseSubjectDigest (baseRevision previewDigest reportHash : String) : String :=
  stableHash "flux-clone-release-v1" (Json.object [("base_revision", .str baseRevision),
    ("preview_digest", .str previewDigest), ("report_hash", .str reportHash)])

def validateApprovalSubject (approval : Approval) (baseRevision : String) :
    Except StoreFailure Unit :=
  require (approval.val.releaseSubjectDigest = releaseSubjectDigest baseRevision
      approval.val.previewDigest approval.val.verificationReportHash)
    (integrity "approval release subject does not bind the exact base, preview, and report")

def validateApprovalBinding (approval : Approval) (transaction : Transaction) :
    Except StoreFailure Unit := do
  require (approval.val.transactionId = transaction.val.transactionId)
    (integrity "approval evidence references a different transaction")
  require (approval.val.previewDigest = transaction.val.previewDigest)
    (integrity "approval does not bind the transaction\x27s exact current preview")
  require (transaction.val.verificationReportHash = some approval.val.verificationReportHash)
    (integrity "approval verification report does not bind the transaction\x27s exact report")
  validateApprovalSubject approval transaction.val.baseRevision

/-- The check of a signature with the trusted public keys. -/
structure Keyring where
  verify : Attestation → Except StoreFailure Unit

def AttestationBinds (a : DurableCommitAttestation) (r : DesignRevision) (t : DesignTransaction)
    (approval : ApprovalEvidence) (commandDigest stagedGraphHash : String) : Prop :=
  (a.projectId = r.graph.projectId ∧ a.baseRevision = t.baseRevision ∧
    a.headRevision = t.baseRevision ∧ some a.parentRevision = r.parentRevision ∧
    a.parentRevision = t.baseRevision ∧ a.revisionHash = r.revisionHash ∧
    some a.revisionHash = t.committedRevisionHash ∧ a.sequence = r.sequence ∧
    a.transactionId = t.transactionId ∧ a.commandHashes = t.commandHashes ∧
    a.commandHashesDigest = commandDigest) ∧
  (a.previewDigest = t.previewDigest ∧ some a.previewDigest = r.approvalPreviewDigest ∧
    some a.verifiedPreviewDigest = t.verificationPreviewDigest ∧
    a.verifiedPreviewDigest = t.previewDigest ∧ a.prospectiveGraphSha256 = stagedGraphHash ∧
    a.prospectiveGraphSha256 = r.graphHash ∧
    some a.verificationReportHash = t.verificationReportHash ∧
    some a.verificationReportHash = r.verificationReportHash ∧
    a.commitGatePassed = t.commitGatePassed ∧ t.commitGatePassed = true) ∧
  (a.releaseSubjectDigest = releaseSubjectDigest t.baseRevision t.previewDigest
      (t.verificationReportHash.getD "") ∧
    a.releaseSubjectDigest = approval.releaseSubjectDigest ∧ a.approvalId = approval.approvalId ∧
    a.approvalDigest = approval.approvalDigest ∧ a.approvalPrincipal = approval.actor ∧
    a.approvalDecidedAt = approval.decidedAt ∧ approval.transactionId = t.transactionId ∧
    approval.previewDigest = t.previewDigest ∧
    some approval.verificationReportHash = t.verificationReportHash ∧
    approval.decision = .approved)

instance (a : DurableCommitAttestation) (r : DesignRevision) (t : DesignTransaction)
    (approval : ApprovalEvidence) (commandDigest stagedGraphHash : String) :
    Decidable (AttestationBinds a r t approval commandDigest stagedGraphHash) :=
  inferInstanceAs (Decidable (_ ∧ _ ∧ _))

variable (keyring : Keyring)

def validateAttestationBinding (attestation : Attestation) (revision : Revision)
    (transaction : Transaction) (approval : Approval) : Except StoreFailure Unit := do
  keyring.verify attestation
  let commandDigest ← fromKernel (commitCommandHashesDigest transaction.val.commandHashes)
  let stagedGraphHash ← fromKernel transaction.val.stagedGraph.graphHash
  require (AttestationBinds attestation.val revision.val transaction.val approval.val commandDigest
      stagedGraphHash)
    (integrity "durable commit attestation does not bind the exact revision, transaction, and approval")

def transactionsByRevision (transactions : List StoredTransaction) :
    Dict (Option String) Transaction :=
  Dict.empty.update ((transactions.filter (·.transaction.val.state == .committed)).map fun stored =>
    (stored.transaction.val.committedRevisionHash, stored.transaction))

def approvalsById (approvals : List Approval) : Dict String Approval :=
  Dict.empty.update (approvals.map fun a => (a.val.approvalId, a))

def loadAttestation (projectId : String) (revisions : List Revision)
    (transactions : List StoredTransaction) (approvals : List Approval) (row : AttestationRow) :
    Except StoreFailure Attestation := do
  require (bodySha256 row.body = row.bodyHash)
    (integrity ("attestation for revision " ++ row.revisionHash ++ " body digest mismatch"))
  let attestation ← decodeAttestation row.body
  let a := attestation.val
  require (a.projectId = projectId ∧ a.revisionHash = row.revisionHash ∧
      a.attestationKeyId = row.attestationKeyId ∧ a.authorizationKeyId = row.authorizationKeyId ∧
      a.authorizationDigest = row.authorizationDigest ∧
      a.authorizationNonce = row.authorizationNonce ∧ a.approvalDigest = row.approvalDigest)
    (integrity ("attestation for revision " ++ a.revisionHash ++ " index/body mismatch"))
  let missingRevision := integrity "attestation references a missing or genesis revision"
  let revision ← located missingRevision (byHash revisions a.revisionHash)
  require (revision.val.sequence ≠ 0) missingRevision
  let transaction ← located (integrity "attestation references a missing committed transaction")
    (transactionsByRevision transactions (some a.revisionHash))
  let approval ← located (integrity "attestation references missing approval evidence")
    (approvalsById approvals a.approvalId)
  validateAttestationBinding keyring attestation revision transaction approval
  return attestation

/-- One attestation more, for a revision that has none yet. -/
def collectAttestation (projectId : String) (revisions : List Revision)
    (transactions : List StoredTransaction) (approvals : List Approval) (seen : List Attestation)
    (row : AttestationRow) : Except StoreFailure (List Attestation) := do
  let attestation ← loadAttestation keyring projectId revisions transactions approvals row
  require (attestation.val.revisionHash ∉ seen.map (·.val.revisionHash))
    (integrity "revision has multiple durable commit attestations")
  return seen ++ [attestation]

def attestationOf (attestations : List Attestation) (revision : Revision) :
    Except StoreFailure Attestation :=
  located ⟨.kernel .keyError, revision.val.revisionHash⟩
    (attestations.find? (·.val.revisionHash == revision.val.revisionHash))

/-- `_load_attestations_locked` -/
def loadAttestations (db : Database) (projectId : String) (revisions : List Revision)
    (transactions : List StoredTransaction) (approvals : List Approval) :
    Except StoreFailure (List Attestation) := do
  let rows := sortBy AttestationRow.revisionHash (db.attestations.filter (·.projectId == projectId))
  let seen ← rows.foldlM (collectAttestation keyring projectId revisions transactions approvals) []
  let seenHashes := seen.map (·.val.revisionHash)
  let expectedHashes := revisions.tail.map (·.val.revisionHash)
  require (∀ hash ∈ seenHashes ++ expectedHashes, hash ∈ seenHashes ∧ hash ∈ expectedHashes)
    (integrity "every non-genesis revision requires exactly one durable commit attestation")
  revisions.tail.mapM (attestationOf seen)

end Loading

/-! ### Restoring a project -/

section Restoring

variable [UnicodeData] [Hashing] (keyring : Keyring)

def anchorState (projectId : String) (sequence : Nat) (revisionHash attestationDigest : String) :
    Except StoreFailure Anchor :=
  constructStored ProjectHeadAnchorState.checks
    ⟨projectId, sequence, revisionHash, attestationDigest⟩

/-- Write a record and read it back. -/
def surviving {α : Type} [DecidableEq α] (encode : α → Except StoreFailure (String × String))
    (decode : String → Except StoreFailure α) (label : String) (a : α) :
    Except StoreFailure (String × String) := do
  let (body, digest) ← encode a
  let decoded ← decode body
  require (decoded = a) (integrity (label ++ " does not survive its canonical codec exactly"))
  return (body, digest)

def survivingRevision := surviving encodeRevision decodeRevision "revision"

def survivingTransaction := surviving encodeTransaction decodeTransaction "transaction"

def survivingApproval := surviving encodeApproval decodeApproval "approval"

def survivingAttestation := surviving encodeAttestation decodeAttestation "attestation"

/-- The digest of the attestation of the chain at a revision. -/
def attestationDigestAt (attestations : List Attestation) (sequence : Nat) :
    Except StoreFailure String :=
  if sequence = 0 then .ok genesisAttestationDigest
  else do
    let attestation ← located outOfRange attestations[sequence - 1]?
    let (_, digest) ← survivingAttestation attestation
    return digest

def expectedAnchor (projectId : String) (revisions : List Revision)
    (attestations : List Attestation) (sequence : Nat) : Except StoreFailure Anchor := do
  let attestationDigest ← attestationDigestAt attestations sequence
  let revision ← located outOfRange revisions[sequence]?
  anchorState projectId sequence revision.val.revisionHash attestationDigest

def anchorAhead : StoreFailure := ⟨.anchorAheadOfSnapshot, ""⟩

def anchorContradicts : StoreFailure :=
  integrity "external project head anchor contradicts the database revision chain"

/-- What raises, and what is done instead. -/
def handling {α : Type} (x : StoreM α) (handler : StoreFailure → StoreM α) : StoreM α := fun s =>
  match x.run s with
  | (.ok a, s') => (.ok a, s')
  | (.error e, s') => (handler e).run s'

section

omit [UnicodeData] [Hashing]

theorem handling_run {α : Type} (x : StoreM α) (handler : StoreFailure → StoreM α)
    (s : StoreState) : (handling x handler).run s =
      match x.run s with
      | (.ok a, s') => (.ok a, s')
      | (.error e, s') => (handler e).run s' := rfl

theorem handling_returns {α : Type} {x : StoreM α}
    {handler : StoreFailure → StoreM α} {s s' : StoreState} {a : α} (h : x.run s = (.ok a, s')) :
    (handling x handler).run s = (.ok a, s') := by
  rw [handling_run, h]

theorem handling_refused {α : Type} {x : StoreM α} {handler : StoreFailure → StoreM α}
    {s s' : StoreState} {e : StoreFailure} (h : x.run s = (.error e, s')) :
    (handling x handler).run s = (handler e).run s' := by
  rw [handling_run, h]

end

/-- Move the anchor forward to the head, one revision at a time.  Another writer may have moved it
meanwhile; it is then taken up where it is. -/
def advanceAnchor (projectId : String) (revisions : List Revision)
    (attestations : List Attestation) (headSequence : Nat) : Nat → Anchor → Nat → StoreM Anchor
  | 0, previous, _ => pure previous
  | fuel + 1, previous, sequence =>
      if headSequence < sequence then pure previous
      else do
        let current ← check (expectedAnchor projectId revisions attestations sequence)
        let next ← handling
          (do compareAndSet previous current; pure current)
          (fun failure =>
            if failure.errorClass = .integrityError then do
              match ← readAnchor projectId with
              | none => check (.error (integrity "external project head anchor disappeared"))
              | some raced => do
                  check (require (raced.val.sequence ≤ headSequence) anchorAhead)
                  check (require (raced ≠ previous) failure)
                  check (require (previous.val.sequence ≤ raced.val.sequence) anchorContradicts)
                  let expected ← check
                    (expectedAnchor projectId revisions attestations raced.val.sequence)
                  check (require (raced = expected) anchorContradicts)
                  pure raced
            else check (.error failure))
        advanceAnchor projectId revisions attestations headSequence fuel next
          (next.val.sequence + 1)

/-- `_reconcile_head_anchor_locked` -/
def reconcileHeadAnchor (revisions : List Revision) (attestations : List Attestation) :
    StoreM Unit := do
  let head ← check (lastOf revisions)
  let projectId := head.val.graph.projectId
  match ← readAnchor projectId with
  | none => check (.error (integrity "external project head anchor is missing"))
  | some observed => do
      check (require (observed.val.sequence ≤ head.val.sequence) anchorAhead)
      let expected ← check (expectedAnchor projectId revisions attestations observed.val.sequence)
      check (require (observed = expected) anchorContradicts)
      let reached ← advanceAnchor projectId revisions attestations head.val.sequence
        (head.val.sequence + 1) observed (observed.val.sequence + 1)
      let final ← readAnchor projectId
      check (require (∀ anchor ∈ final, anchor.val.sequence ≤ head.val.sequence) anchorAhead)
      check (require (final = some reached)
        (integrity "external project head anchor did not reach the verified head"))

/-- The checks across the tables: every approval belongs to a transaction, and every revision but
the first to one committed transaction and its approvals. -/
def crossChecks (revisions : List Revision) (transactions : List StoredTransaction)
    (approvals : List Approval) : Except StoreFailure Unit := do
  let transactionsById : Dict String Transaction := Dict.empty.update
    (transactions.map fun stored => (stored.transaction.val.transactionId, stored.transaction))
  approvals.forM fun approval =>
    match transactionsById approval.val.transactionId with
    | none => .error (integrity "approval evidence references a missing transaction")
    | some transaction => validateApprovalSubject approval transaction.val.baseRevision
  revisions.tail.forM fun revision => do
    let matching := (transactions.map (·.transaction)).filter fun t =>
      t.val.state == .committed &&
        t.val.committedRevisionHash == some revision.val.revisionHash
    match matching with
    | [transaction] => do
        let matchingApprovals := approvals.filter fun a =>
          a.val.transactionId == transaction.val.transactionId &&
            some a.val.previewDigest == revision.val.approvalPreviewDigest &&
            some a.val.verificationReportHash == revision.val.verificationReportHash &&
            a.val.decision == .approved
        require (matchingApprovals ≠ [])
          (integrity "each committed revision requires exact affirmative approval evidence")
        matchingApprovals.forM (validateApprovalBinding · transaction)
    | _ => .error (integrity "each committed revision requires exactly one durable transaction")

/-- `_restore_snapshot_locked` -/
def restoreSnapshot (projectId : String) : StoreM ProjectState := do
  let db ← read fun s => s.database
  let revisions ← check (loadRevisions db projectId)
  let transactions ← check (loadTransactions db projectId revisions)
  let approvals ← check (loadApprovals db projectId)
  let attestations ← check
    (loadAttestations keyring db projectId revisions transactions approvals)
  check (crossChecks revisions transactions approvals)
  reconcileHeadAnchor revisions attestations
  let headRevision ← check (lastOf revisions)
  return ⟨projectId, headRevision, revisions, transactions, approvals, attestations⟩

/-- Restore a project; an anchor ahead of the database is looked at once more. -/
def restore (projectId : String) : StoreM ProjectState :=
  handling (restoreSnapshot keyring projectId) fun failure =>
    if failure.errorClass = .anchorAheadOfSnapshot then
      handling (restoreSnapshot keyring projectId) fun again =>
        if again.errorClass = .anchorAheadOfSnapshot then
          check (.error
            (integrity "external project head anchor is persistently ahead of the database"))
        else check (.error again)
    else check (.error failure)

end Restoring

/-! ### The calls that write -/

section Writing

variable [UnicodeData] [Hashing] (keyring : Keyring)

/-- A database transaction: what raises leaves the database as it was. -/
def transactionally {α : Type} (x : StoreM α) : StoreM α := fun s =>
  match x.run s with
  | (.ok a, s') => (.ok a, s')
  | (.error e, s') => (.error e, { s' with database := s.database })

/-- Run a statement. -/
def execute (statement : Database → Except StoreFailure Database) : StoreM Unit := do
  let db ← read fun s => s.database
  let db' ← check (statement db)
  write fun s => { s with database := db' }

def headAttestationDigest (db : Database) (revision : Revision) : Except StoreFailure String :=
  if revision.val.sequence = 0 then .ok genesisAttestationDigest
  else do
    let row ← located (integrity "durable project head has no commit attestation")
      (db.attestations.find? fun row => row.projectId == revision.val.graph.projectId &&
        row.revisionHash == revision.val.revisionHash)
    return row.bodyHash

/-- The state the anchor of a project has to have, given the head in the database. -/
def headAnchorState (db : Database) (revision : Revision) : Except StoreFailure Anchor := do
  let projectId := revision.val.graph.projectId
  let attestationDigest ← headAttestationDigest db revision
  anchorState projectId revision.val.sequence revision.val.revisionHash attestationDigest

def assertHeadAnchor (revision : Revision) : StoreM Anchor := do
  let db ← read fun s => s.database
  let expected ← check (headAnchorState db revision)
  let observed ← readAnchor expected.val.projectId
  check (require (observed = some expected)
    (integrity "durable project database head conflicts with its external monotonic anchor"))
  return expected

def existsElsewhere (projectId : String) : StoreFailure :=
  ⟨.projectAlreadyExists, "project " ++ projectId ++ " already exists with different state"⟩

/-- Insert a project with its first revision. -/
def insertGenesis (genesis : Revision) (body digest : String) : StoreM Unit :=
  let projectId := genesis.val.graph.projectId
  let hash := genesis.val.revisionHash
  let insertions := do
    execute (·.insertProject ⟨projectId, hash, 0, 0⟩)
    execute (·.insertRevision ⟨projectId, 0, hash, none, genesis.val.graphHash, "",
      recordHashOf projectId 0 hash digest "", body, digest⟩)
  transactionally (handling insertions fun failure =>
    check (.error (if failure = constraintFailure then
      ⟨.projectAlreadyExists, "project " ++ projectId ++ " already exists"⟩ else failure)))

def createProject (genesis : Revision) : StoreM Unit := do
  check (require (genesis.val.sequence = 0 ∧ genesis.val.parentRevision = none)
    (integrity "a new project requires an exact genesis revision"))
  check (require (genesis.val.revisionHash = revisionHashFor genesis.val)
    (integrity "genesis revision hash is invalid"))
  let projectId := genesis.val.graph.projectId
  let (body, digest) ← check (survivingRevision genesis)
  let genesisAnchor ← check
    (anchorState projectId 0 genesis.val.revisionHash genesisAttestationDigest)
  let db ← read fun s => s.database
  if db.hasProject projectId then do
    let revisions ← check (loadRevisions db projectId)
    check (require (revisions = [genesis]) (existsElsewhere projectId))
    let anchor ← readAnchor projectId
    check (require (anchor = some genesisAnchor)
      (integrity "existing project genesis lacks its exact external anchor"))
  else do
    initializeAnchor genesisAnchor
    handling (insertGenesis genesis body digest) fun failure =>
      if failure.errorClass = .projectAlreadyExists then do
        let db ← read fun s => s.database
        let revisions ← check (loadRevisions db projectId)
        let anchor ← readAnchor projectId
        check (require (revisions = [genesis] ∧ anchor = some genesisAnchor)
          (existsElsewhere projectId))
      else check (.error failure)

def transactionRow (projectId : String) (transaction : Transaction) (generation : Nat)
    (body digest : String) : TransactionRow :=
  ⟨projectId, transaction.val.transactionId, transaction.val.baseRevision,
    stateValue transaction.val.state, transaction.val.previewDigest, generation, body, digest⟩

/-- Write a snapshot: a new one, or one that replaces the stored one at a generation. -/
def writeTransaction (projectId : String) (transaction : Transaction) (body digest : String)
    (expectedGeneration : Option Int) (expectation : String) : StoreM Nat := do
  let db ← read fun s => s.database
  let transactionId := transaction.val.transactionId
  let existing := db.transactions.find? fun row =>
    row.projectId == projectId && row.transactionId == transactionId
  match expectedGeneration with
  | none => do
      check (require (existing = none)
        (conflict ("transaction " ++ transactionId ++ " already exists")))
      execute (·.insertTransaction (transactionRow projectId transaction 0 body digest))
      return 0
  | some expected => do
      check (require (0 ≤ expected) (valueError expectation))
      match existing with
      | none => check (.error (conflict ("transaction " ++ transactionId ++ " does not exist")))
      | some row => do
          let stored ← check (decodeTransactionRow row)
          check (require ((stored.generation : Int) = expected)
            (conflict ("transaction " ++ transactionId ++ " is not at generation " ++
              toString expected)))
          check (validateTransactionTransition stored.transaction transaction)
          let generation := stored.generation + 1
          execute (·.updateTransaction
            (transactionRow projectId transaction generation body digest) expected)
          return generation

/-- What saving a transaction does in its database transaction. -/
def saveLocked (projectId : String) (transaction : Transaction) (document : String × String)
    (expectedGeneration : Option Int) : StoreM StoredTransaction := do
  let db ← read fun s => s.database
  let revisions ← check (loadRevisions db projectId)
  let head ← check (lastOf revisions)
  let _ ← assertHeadAnchor head
  let base ← check (located (integrity "transaction references an unknown project revision")
    (byHash revisions transaction.val.baseRevision))
  check (require (transaction.val.state ∈ [.opened, .verified] → base = head)
    (conflict "active transaction is not based on the current head"))
  check (validateTransaction transaction base)
  let generation ← writeTransaction projectId transaction document.1 document.2 expectedGeneration
    "expected_generation must be a non-negative integer or null"
  return ⟨transaction, generation⟩

def saveTransaction (projectId : String) (transaction : Transaction)
    (expectedGeneration : Option Int) : StoreM StoredTransaction := do
  check (require (transaction.val.state ≠ .committed)
    (integrity "committed transactions must be saved atomically with append_revision"))
  let document ← check (survivingTransaction transaction)
  let _ ← restore keyring projectId
  transactionally (saveLocked projectId transaction document expectedGeneration)

def approvalRow (projectId : String) (approval : Approval) (body digest : String) : ApprovalRow :=
  ⟨projectId, approval.val.approvalId, approval.val.approvalDigest, approval.val.transactionId,
    approval.val.previewDigest, approval.val.releaseSubjectDigest,
    approval.val.verificationReportHash, approval.val.decision.value, body, digest⟩

/-- What recording an approval does in its database transaction. -/
def recordLocked (projectId : String) (approval : Approval) (document : String × String) :
    StoreM Unit := do
  let db ← read fun s => s.database
  let revisions ← check (loadRevisions db projectId)
  let head ← check (lastOf revisions)
  let _ ← assertHeadAnchor head
  let transactions ← check (loadTransactions db projectId revisions)
  let stored ← check (located (integrity "approval references an unknown transaction")
    (transactions.find? (·.transaction.val.transactionId == approval.val.transactionId)))
  check (validateApprovalBinding approval stored.transaction)
  handling (execute (·.insertApproval (approvalRow projectId approval document.1 document.2)))
    fun failure => check (.error (if failure = constraintFailure then
      ⟨.projectStoreError, "approval " ++ approval.val.approvalId ++ " already exists"⟩
      else failure))

def recordApproval (projectId : String) (approval : Approval) : StoreM Unit := do
  let document ← check (survivingApproval approval)
  let _ ← restore keyring projectId
  transactionally (recordLocked projectId approval document)

/-- Keep an approval: a new one is inserted, and one that is there has to be the same. -/
def keepApproval (projectId : String) (approval : Approval) (body digest : String) :
    StoreM Unit := do
  let db ← read fun s => s.database
  match db.approvals.find? fun row =>
      row.projectId == projectId && row.approvalId == approval.val.approvalId with
  | none => execute (·.insertApproval (approvalRow projectId approval body digest))
  | some row => check (require (row.body = body ∧ row.bodyHash = digest)
      (integrity "approval ID is already bound to different evidence"))

/-- Insert a revision with its attestation and make it the head. -/
def insertSuccessor (projectId : String) (revision head : Revision) (attestation : Attestation)
    (expectedHead : String) (revisionDocument attestationDocument : String × String) :
    StoreM Unit := do
  let db ← read fun s => s.database
  let headRow ← check (located (integrity "durable head revision record is missing")
    (db.revisions.find? fun row =>
      row.projectId == projectId && row.revisionHash == head.val.revisionHash))
  let previousRecordHash := headRow.recordHash
  let r := revision.val
  let a := attestation.val
  execute (·.insertRevision ⟨projectId, r.sequence, r.revisionHash, r.parentRevision, r.graphHash,
    previousRecordHash,
    recordHashOf projectId r.sequence r.revisionHash revisionDocument.2 previousRecordHash,
    revisionDocument.1, revisionDocument.2⟩)
  execute (·.insertAttestation ⟨projectId, r.revisionHash, a.attestationKeyId,
    a.authorizationKeyId, a.authorizationDigest, a.authorizationNonce, a.approvalDigest,
    attestationDocument.1, attestationDocument.2⟩)
  execute (·.advanceHead ⟨projectId, r.revisionHash, r.sequence, r.sequence⟩ expectedHead
    head.val.sequence)

/-- The evidence a revision is appended with. -/
structure CommitEvidence where
  transaction : Transaction
  approval : Approval
  attestation : Attestation

/-- The checks of a revision and its evidence against the head. -/
def successorChecks (projectId : String) (revision head : Revision) (evidence : CommitEvidence) :
    Except StoreFailure Unit := do
  let r := revision.val
  let t := evidence.transaction.val
  let approval := evidence.approval.val
  require (r.graph.projectId = projectId ∧ r.parentRevision = some head.val.revisionHash ∧
      r.sequence = head.val.sequence + 1)
    (integrity "revision does not extend the exact durable project head")
  require (t.baseRevision = head.val.revisionHash ∧
      t.committedRevisionHash = some r.revisionHash ∧ t.stagedGraph = r.graph ∧
      t.commandHashes = r.commandHashes ∧ t.verificationReportHash = r.verificationReportHash)
    (integrity "committed transaction evidence does not reproduce the revision")
  require (some approval.previewDigest = r.approvalPreviewDigest ∧
      some approval.verificationReportHash = r.verificationReportHash)
    (integrity "approval evidence does not bind the committed preview and report")
  validateApprovalBinding evidence.approval evidence.transaction
  validateTransaction evidence.transaction head (some revision)

/-- The documents of a revision and its evidence. -/
structure CommitDocuments where
  revision : String × String
  transaction : String × String
  approval : String × String
  attestation : String × String

/-- What appending a revision does in its database transaction, with the anchor before and
after. -/
def appendLocked (projectId : String) (revision : Revision) (expectedHead : String)
    (evidence : CommitEvidence) (documents : CommitDocuments)
    (expectedTransactionGeneration : Option Int) : StoreM (Anchor × Anchor) := do
  let db ← read fun s => s.database
  let revisions ← check (loadRevisions db projectId)
  let head ← check (lastOf revisions)
  check (require (head.val.revisionHash = expectedHead)
    (conflict "project head changed after the verified append preflight"))
  let expectedAnchor ← assertHeadAnchor head
  check (successorChecks projectId revision head evidence)
  let _ ← writeTransaction projectId evidence.transaction documents.transaction.1
    documents.transaction.2 expectedTransactionGeneration
    "expected_transaction_generation must be non-negative or null"
  keepApproval projectId evidence.approval documents.approval.1 documents.approval.2
  insertSuccessor projectId revision head evidence.attestation expectedHead documents.revision
    documents.attestation
  let currentAnchor ← check (anchorState projectId revision.val.sequence
    revision.val.revisionHash documents.attestation.2)
  return (expectedAnchor, currentAnchor)

def appendRevision (projectId : String) (revision : Revision) (expectedHead : String)
    (evidence : CommitEvidence) (expectedTransactionGeneration : Option Int) : StoreM Unit := do
  check (require (revision.val.sequence ≠ 0)
    (integrity "append_revision cannot append another genesis"))
  check (require (revision.val.revisionHash = revisionHashFor revision.val)
    (integrity "revision hash is invalid"))
  check (require (evidence.transaction.val.state = .committed)
    (integrity "a committed revision requires a committed transaction snapshot"))
  check (require (evidence.approval.val.decision = .approved)
    (integrity "a committed revision requires affirmative approval evidence"))
  let revisionDocument ← check (survivingRevision revision)
  let transactionDocument ← check (survivingTransaction evidence.transaction)
  let approvalDocument ← check (survivingApproval evidence.approval)
  let attestationDocument ← check (survivingAttestation evidence.attestation)
  check (validateAttestationBinding keyring evidence.attestation revision evidence.transaction
    evidence.approval)
  let verified ← restore keyring projectId
  check (require (verified.headRevision.val.revisionHash = expectedHead)
    (conflict "project head changed before the verified revision append"))
  let anchors ← transactionally (appendLocked projectId revision expectedHead evidence
    ⟨revisionDocument, transactionDocument, approvalDocument, attestationDocument⟩
    expectedTransactionGeneration)
  compareAndSet anchors.1 anchors.2

end Writing

end Evleda.ProjectStore
