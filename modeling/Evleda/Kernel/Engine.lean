/-
The transaction executor.

A kernel holds the revisions of one design, the head among them, and the
transactions opened against them.  Commands are staged into a transaction one by
one or as a batch; a transaction whose preview was verified can be committed with
an authorization, which makes a new head.  Every attribute of the source's kernel
is a field, and each operation reads and writes them in the source's order, so a
raise in the middle of an operation leaves what was written before it.

The verifier of commit authorizations belongs to someone else and changes on its
own, so `commit` takes the two answers it gets from it.
-/
import Evleda.Kernel.Apply
import Evleda.Kernel.CommitAuthority
import Evleda.Lib.Effect

namespace Evleda.Kernel

open Effect

section Engine

variable [UnicodeData] [Hashing]

/-! ### Commands, transactions and revisions -/

structure DesignCommand where
  commandId : String
  baseRevision : String
  transactionId : String
  actor : String
  kind : CommandKind
  /-- The object that the command's canonical JSON text denotes. -/
  payload : Payload
  idempotencyKey : String

def DesignCommand.checks (c : DesignCommand) : Except Failure Unit := do
  requireId c.commandId "command ID"
  requireId c.transactionId "transaction ID"
  requireId c.actor "actor"
  requireId c.idempotencyKey "idempotency key"
  requireSha256 c.baseRevision "base revision"

abbrev Command := Checked (checking DesignCommand.checks)

def DesignCommand.payloadJson (c : DesignCommand) : String :=
  String.ofList (Json.canonical (.obj c.payload)).render

def DesignCommand.commandHash (c : DesignCommand) : String :=
  stableHash "flux-clone-design-command-v1" (Json.object [
    ("command_id", .str c.commandId), ("base_revision", .str c.baseRevision),
    ("transaction_id", .str c.transactionId), ("actor", .str c.actor),
    ("kind", .str c.kind.value), ("payload_json", .str c.payloadJson),
    ("idempotency_key", .str c.idempotencyKey)])

inductive TransactionState where
  | opened | verified | committed | rolledBack
  deriving DecidableEq, Repr

structure DesignTransaction where
  transactionId : String
  baseRevision : String
  stagedGraph : DesignGraph
  commands : List Command := []
  state : TransactionState := .opened
  verificationReportHash : Option String := none
  commitGatePassed : Bool := false
  previewDigest : String := ""
  verificationPreviewDigest : Option String := none
  committedRevisionHash : Option String := none

def DesignTransaction.commandHashes (t : DesignTransaction) : List String :=
  t.commands.map (·.val.commandHash)

def DesignTransaction.checks (t : DesignTransaction) : Except Failure Unit := do
  requireId t.transactionId "transaction ID"
  requireSha256 t.baseRevision "transaction base revision"
  requireWhen (t.previewDigest ≠ "")
    (requireSha256 t.previewDigest "transaction preview digest")
  t.verificationReportHash.toList.forM (requireSha256 · "verification report hash")
  t.verificationPreviewDigest.toList.forM (requireSha256 · "verified preview digest")
  t.committedRevisionHash.toList.forM (requireSha256 · "committed revision hash")
  require (t.commands.map (·.val.commandId)).Nodup
    (violation "transaction command IDs must be unique")
  require (t.commands.map (·.val.idempotencyKey)).Nodup
    (violation "transaction idempotency keys must be unique")
  require (∀ command ∈ t.commands, command.val.transactionId = t.transactionId ∧
      command.val.baseRevision = t.baseRevision)
    (violation "transaction commands must bind to the transaction and base")
  require (t.state = .verified → t.commitGatePassed = true ∧ t.verificationReportHash ≠ none ∧
      t.verificationPreviewDigest = some t.previewDigest)
    (violation "verified transaction must bind a passed report to its preview")
  require (t.state = .committed → t.committedRevisionHash ≠ none)
    (violation "committed transaction must identify its revision")
  require (t.state = .opened → t.commitGatePassed = false)
    (violation "open transaction cannot have a passed commit gate")
  require (t.state ≠ .committed → t.committedRevisionHash = none)
    (violation "only a committed transaction may identify a committed revision")

abbrev Transaction := Checked (checking DesignTransaction.checks)

/-- `replace(transaction, ...)` -/
def Transaction.replace (change : DesignTransaction → DesignTransaction) (t : Transaction) :
    Except Failure Transaction :=
  Checked.replace (checking_onlyChecks DesignTransaction.checks).stable change t

structure DesignRevision where
  revisionHash : String
  parentRevision : Option String
  sequence : Nat
  graph : DesignGraph
  graphHash : String
  commandHashes : List String
  verificationReportHash : Option String
  approvalPreviewDigest : Option String

def DesignRevision.checks (r : DesignRevision) : Except Failure Unit := do
  requireSha256 r.revisionHash "revision hash"
  r.parentRevision.toList.forM (requireSha256 · "parent revision hash")
  requireSha256 r.graphHash "revision graph hash"
  let graphHash ← r.graph.graphHash
  require (r.graphHash = graphHash) (violation "revision graph hash does not match its graph")
  r.commandHashes.forM (requireSha256 · "revision command hash")
  r.verificationReportHash.toList.forM (requireSha256 · "revision verification report hash")
  r.approvalPreviewDigest.toList.forM (requireSha256 · "revision approval preview digest")
  require (r.sequence = 0 → r.parentRevision = none ∧ r.commandHashes = [] ∧
      r.verificationReportHash = none ∧ r.approvalPreviewDigest = none)
    (violation "genesis revision cannot contain commit evidence")
  require (r.sequence ≠ 0 → r.parentRevision ≠ none ∧ r.commandHashes ≠ [] ∧
      r.verificationReportHash ≠ none ∧ r.approvalPreviewDigest ≠ none)
    (violation "non-genesis revision requires parent, commands, verification, and approval")

theorem DesignRevision.onlyChecks : OnlyChecks (checking DesignRevision.checks) :=
  checking_onlyChecks DesignRevision.checks

abbrev Revision := Checked (checking DesignRevision.checks)

/-! ### The kernel -/

structure DesignKernel where
  revisions : Dict String Revision
  /-- The hash of the head revision. -/
  head : String
  transactions : Dict String Transaction := Dict.empty
  /-- The hash of the command accepted under a transaction and an idempotency key. -/
  idempotency : Dict (String × String) String := Dict.empty
  commandIds : Dict String String := Dict.empty
  committedAuthorizations : Dict String String := Dict.empty
  committedAuthorizationEvidence : Dict String ConsumedCommitAuthorization := Dict.empty

/-- What an operation of the kernel does. -/
abbrev KernelM := Effect DesignKernel Failure

def revisionDomain : String := "flux-clone-design-revision-v1"

def genesisHash (graphHash : String) : String :=
  stableHash revisionDomain
    (Json.object [("parent", .null), ("sequence", .int 0), ("graph_hash", .str graphHash)])

/-- `DesignKernel(initial_graph)` -/
def DesignKernel.init (initialGraph : DesignGraph) : Except Failure DesignKernel := do
  let normalized ← initialGraph.normalized
  validateGraph normalized
  let graphHash ← normalized.graphHash
  let genesis : Revision ← Checked.make DesignRevision.onlyChecks.stable
    ⟨genesisHash graphHash, none, 0, normalized, graphHash, [], none, none⟩
  return { revisions := Dict.empty.set (genesisHash graphHash) genesis
           head := genesisHash graphHash }

def found {α : Type} (failure : Failure) : Option α → Except Failure α
  | some value => .ok value
  | none => .error failure

def headRevision (k : DesignKernel) : Except Failure Revision :=
  found ⟨.keyError, k.head⟩ (k.revisions k.head)

def getRevision (k : DesignKernel) (revisionHash : String) : Except Failure Revision :=
  found ⟨.staleRevision, "unknown revision " ++ revisionHash⟩ (k.revisions revisionHash)

def getTransaction (k : DesignKernel) (transactionId : String) : Except Failure Transaction :=
  found ⟨.kernelError, "unknown transaction " ++ transactionId⟩ (k.transactions transactionId)

/-- The digest of what a transaction would commit. -/
def previewDigestOf (t : DesignTransaction) : Except Failure String := do
  let stagedGraphHash ← t.stagedGraph.graphHash
  return stableHash "flux-clone-preview-v2" (Json.object [
    ("base_revision", .str t.baseRevision), ("transaction_id", .str t.transactionId),
    ("staged_graph_hash", .str stagedGraphHash), ("command_hashes", textsJson t.commandHashes)])

def refreshPreview (t : Transaction) : Except Failure Transaction := do
  let digest ← previewDigestOf t.val
  t.replace fun t => { t with previewDigest := digest }

/-! ### begin_transaction -/

def requireTransactionId (transactionId : String) : Except Failure Unit :=
  require (transactionId ≠ "" ∧ transactionId = Text.strip transactionId ∧
      transactionId.toList.any Text.isSpace = false)
    (violation "transaction ID must be a non-empty whitespace-free identifier")

def openTransaction (k : DesignKernel) (transactionId baseRevision : String) :
    Except Failure Transaction := do
  require (baseRevision = k.head) ⟨.staleRevision,
    "transaction base " ++ baseRevision ++ " is not current head " ++ k.head⟩
  let head ← headRevision k
  let transaction : Transaction ←
    Checked.make (checking_onlyChecks DesignTransaction.checks).stable
      { transactionId := transactionId, baseRevision := baseRevision, stagedGraph := head.val.graph }
  refreshPreview transaction

def beginTransaction (transactionId baseRevision : String) : KernelM Transaction := do
  check (requireTransactionId transactionId)
  check (requireSha256 baseRevision "transaction base revision")
  let k ← read id
  match k.transactions transactionId with
  | some transaction => do
      check (require (transaction.val.baseRevision = baseRevision)
        ⟨.commandConflict, "transaction ID was reused against another revision"⟩)
      return transaction
  | none => do
      let transaction ← check (openTransaction k transactionId baseRevision)
      write fun k => { k with transactions := k.transactions.set transactionId transaction }
      return transaction

/-! ### stage and stage_batch -/

/-- Apply a command to a graph, in normal form. -/
def applyCommand (g : DesignGraph) (command : DesignCommand) : Except Failure DesignGraph := do
  let applied ← apply g command.kind command.payload
  applied.normalized

/-- Stage a fresh command into an open transaction. -/
def extend (noEffect : String) (t : Transaction) (command : Command) :
    Except Failure Transaction := do
  require (t.val.state = .opened)
    ⟨.transactionNotCommittable, "commands may only be staged into an open transaction"⟩
  let stagedGraph ← applyCommand t.val.stagedGraph command.val
  validateGraph stagedGraph
  require (stagedGraph ≠ t.val.stagedGraph) ⟨.commandConflict, noEffect⟩
  let next ← t.replace fun t => { t with
    stagedGraph := stagedGraph
    commands := t.commands ++ [command]
    verificationReportHash := none
    verificationPreviewDigest := none
    commitGatePassed := false }
  refreshPreview next

def stage (command : Command) : KernelM Transaction := do
  let k ← read id
  let transaction ← check (getTransaction k command.val.transactionId)
  check (require (command.val.baseRevision = transaction.val.baseRevision)
    ⟨.staleRevision, "command base revision does not match its transaction"⟩)
  let key := (command.val.transactionId, command.val.idempotencyKey)
  match k.idempotency key with
  | some existingHash => do
      check (require (existingHash = command.val.commandHash)
        ⟨.commandConflict, "idempotency key was reused for a different command"⟩)
      return transaction
  | none => do
      check (require (k.commandIds command.val.commandId = none)
        ⟨.commandConflict, "command ID was already used for another accepted command"⟩)
      let next ← check (extend "command has no semantic effect" transaction command)
      write fun k => { k with transactions := k.transactions.set command.val.transactionId next }
      write fun k => { k with idempotency := k.idempotency.set key command.val.commandHash }
      write fun k => { k with
        commandIds := k.commandIds.set command.val.commandId command.val.commandHash }
      return next

/-- What a batch has staged so far. -/
structure BatchProgress where
  transaction : Transaction
  acceptedIdempotency : List ((String × String) × String) := []
  acceptedCommandIds : List (String × String) := []

/-- One command of a batch, against the kernel as it was before the batch. -/
def batchStep (k : DesignKernel) (transactionId : String) (progress : BatchProgress)
    (command : Command) : Except Failure BatchProgress :=
  let key := (transactionId, command.val.idempotencyKey)
  match k.idempotency key with
  | some existingHash => do
      require (existingHash = command.val.commandHash)
        ⟨.commandConflict, "stage batch idempotency key was reused for a different command"⟩
      return progress
  | none => do
      require (k.commandIds command.val.commandId = none) ⟨.commandConflict,
        "stage batch command ID was already used for another accepted command"⟩
      let next ← extend "stage batch command has no semantic effect" progress.transaction command
      return { transaction := next
               acceptedIdempotency := progress.acceptedIdempotency ++
                 [(key, command.val.commandHash)]
               acceptedCommandIds := progress.acceptedCommandIds ++
                 [(command.val.commandId, command.val.commandHash)] }

/-- The checks on a batch before the kernel is looked at. -/
def batchChecks (first : Command) (batch : List Command) : Except Failure Unit := do
  require (∀ command ∈ batch, command.val.transactionId = first.val.transactionId ∧
      command.val.baseRevision = first.val.baseRevision)
    (violation "stage batch commands must bind one transaction and base revision")
  require (batch.map (·.val.commandId)).Nodup
    (violation "stage batch command IDs must be unique")
  require (batch.map (·.val.idempotencyKey)).Nodup
    (violation "stage batch idempotency keys must be unique")

def publishBatch (transactionId : String) (progress : BatchProgress) : KernelM Unit := do
  write fun k => { k with
    transactions := k.transactions.set transactionId progress.transaction }
  write fun k => { k with idempotency := k.idempotency.update progress.acceptedIdempotency }
  write fun k => { k with commandIds := k.commandIds.update progress.acceptedCommandIds }

def stageBatch (batch : List Command) : KernelM Transaction :=
  match batch with
  | [] => check (.error
      (violation "stage batch must be a non-empty DesignCommand iterable"))
  | first :: _ => do
      check (batchChecks first batch)
      let k ← read id
      let transaction ← check (getTransaction k first.val.transactionId)
      check (require (first.val.baseRevision = transaction.val.baseRevision)
        ⟨.staleRevision, "stage batch base revision does not match its transaction"⟩)
      let progress ← check (batch.foldlM (batchStep k first.val.transactionId)
        { transaction := transaction })
      match progress.acceptedIdempotency with
      | [] => return progress.transaction
      | _ :: _ => do
          publishBatch first.val.transactionId progress
          return progress.transaction

/-! ### record_verification and rollback -/

/-- The verification of an open transaction. -/
def verifiedTransaction (t : Transaction) (reportHash : String) (gatePassed : Bool)
    (subject : String) : Except Failure Transaction := do
  require (t.val.state = .opened)
    ⟨.transactionNotCommittable, "only an open transaction can be verified"⟩
  t.replace fun t => { t with
    state := if gatePassed then .verified else .opened
    verificationReportHash := some reportHash
    commitGatePassed := gatePassed
    verificationPreviewDigest := some subject }

/-- `verified_preview_digest or transaction.preview_digest` -/
def verificationSubject (verifiedPreviewDigest : Option String) (t : Transaction) : String :=
  match verifiedPreviewDigest with
  | none => t.val.previewDigest
  | some digest => if digest = "" then t.val.previewDigest else digest

def recordVerification (transactionId reportHash : String) (gatePassed : Bool)
    (verifiedPreviewDigest : Option String := none) : KernelM Transaction := do
  let k ← read id
  let transaction ← check (getTransaction k transactionId)
  check (requireSha256 reportHash "verification report hash")
  let subject := verificationSubject verifiedPreviewDigest transaction
  check (requireSha256 subject "verified preview digest")
  check (require (subject = transaction.val.previewDigest)
    ⟨.approvalMismatch, "verification does not bind the exact staged preview"⟩)
  if transaction.val.state = .verified then do
    check (require (transaction.val.verificationReportHash = some reportHash ∧
        transaction.val.commitGatePassed = gatePassed ∧
        transaction.val.verificationPreviewDigest = some subject)
      ⟨.commandConflict, "verified transaction cannot be assigned conflicting evidence"⟩)
    return transaction
  else do
    let next ← check (verifiedTransaction transaction reportHash gatePassed subject)
    write fun k => { k with transactions := k.transactions.set transactionId next }
    return next

def rollback (transactionId : String) : KernelM Transaction := do
  let k ← read id
  let transaction ← check (getTransaction k transactionId)
  check (require (transaction.val.state ≠ .committed)
    ⟨.transactionNotCommittable, "committed history cannot be rolled back in place"⟩)
  if transaction.val.state = .rolledBack then return transaction
  else do
    let next ← check (transaction.replace fun t => { t with
      state := .rolledBack
      verificationReportHash := none
      verificationPreviewDigest := none
      commitGatePassed := false })
    write fun k => { k with transactions := k.transactions.set transactionId next }
    return next

/-! ### commit -/

/-- The answers a commit gets from the verifier. -/
structure CommitVerifier where
  verify : CommitAuthorization → Except Failure VerifiedCommitClaims
  consume : VerifiedCommitClaims → Except Failure ConsumedCommitAuthorization

/-- Each fact an authorization has to bind, with its name. -/
def commitBindings (t : DesignTransaction) (verified : VerifiedCommitClaims)
    (commandDigest stagedGraphHash : String) : List (Bool × String) :=
  let c := verified.claims.val
  let approval := verified.releaseApproval.val
  [(c.projectId = t.stagedGraph.projectId, "project"),
    (c.baseRevision = t.baseRevision, "base revision"),
    (c.headRevision = t.baseRevision, "current head"),
    (c.transactionId = t.transactionId, "transaction"),
    (c.commandHashes = t.commandHashes, "ordered commands"),
    (c.commandHashesDigest = commandDigest, "ordered command digest"),
    (c.previewDigest = t.previewDigest, "preview"),
    (c.prospectiveGraphSha256 = stagedGraphHash, "prospective graph"),
    (t.verificationReportHash = some c.verificationReportHash, "verification report"),
    (t.verificationPreviewDigest = some c.verifiedPreviewDigest ∧
      c.verifiedPreviewDigest = t.previewDigest, "verified preview"),
    (c.releaseSubjectDigest = AuthorityState.releaseSubject t.baseRevision t.previewDigest
      t.verificationReportHash, "release subject"),
    (c.commitGatePassed = true ∧ t.commitGatePassed = true ∧ approval.commitGatePassed = true,
      "commit gate"),
    (c.humanApprovalId = approval.approvalId, "human approval ID"),
    (c.humanApprovalRunId = approval.runId, "human approval run"),
    (c.humanApprovalKind = approval.kind ∧ approval.kind = "release", "human approval kind"),
    (c.humanApprovalDigest = approval.approvalDigest, "human approval digest"),
    (c.humanApprovalPrincipal = approval.principal, "human approval principal"),
    (c.humanApprovalDecidedAt = approval.decidedAt, "human approval decision time"),
    (c.humanApprovalExpiresAt = approval.expiresAt, "human approval expiry")]

/-- `_match_commit_authorization` -/
def matchCommitAuthorization (t : DesignTransaction) (verified : VerifiedCommitClaims) :
    Except Failure Unit := do
  let commandDigest ← commitCommandHashesDigest t.commandHashes
  let stagedGraphHash ← t.stagedGraph.graphHash
  (commitBindings t verified commandDigest stagedGraphHash).forM fun (holds, label) =>
    require (holds = true)
      ⟨.approvalMismatch, "commit authorization does not bind the exact " ++ label⟩

/-- A commit asked for again. -/
def retriedCommit (k : DesignKernel) (transactionId : String) (t : Transaction)
    (verified : VerifiedCommitClaims) : Except Failure Revision := do
  matchCommitAuthorization t.val verified
  let digest := verified.claims.val.authorizationDigest
  require (k.committedAuthorizations transactionId = some digest ∧
      verified.previouslyConsumedAuthorizationDigest = some digest)
    ⟨.replayedCommitAuthorization,
      "only the exact capability may retry its already committed transaction"⟩
  let revisionHash ← found ⟨.assertionError, "committed revision hash"⟩ t.val.committedRevisionHash
  getRevision k revisionHash

def revisionHashOf (parentHash : String) (sequence : Nat) (graphHash : String)
    (commandHashes : List String) (reportHash : Option String) (previewDigest : String) : String :=
  stableHash revisionDomain (Json.object [("parent", .str parentHash), ("sequence", .int sequence),
    ("graph_hash", .str graphHash), ("commands", textsJson commandHashes),
    ("verification_report_hash", optionalJson .str reportHash),
    ("approval_preview_digest", .str previewDigest)])

/-- The revision a commit would make, every check passed. -/
def committedRevision (k : DesignKernel) (t : Transaction) (verified : VerifiedCommitClaims) :
    Except Failure Revision := do
  require (verified.previouslyConsumedAuthorizationDigest = none)
    ⟨.replayedCommitAuthorization, "commit authorization nonce has already been consumed"⟩
  require (t.val.baseRevision = k.head)
    ⟨.staleRevision, "head changed after the transaction was staged"⟩
  require (t.val.state = .verified ∧ t.val.commitGatePassed = true)
    ⟨.transactionNotCommittable, "commit requires a passed deterministic verification gate"⟩
  matchCommitAuthorization t.val verified
  let parent ← headRevision k
  let stagedGraphHash ← t.val.stagedGraph.graphHash
  require (t.val.commands ≠ [] ∧ stagedGraphHash ≠ parent.val.graphHash)
    ⟨.transactionNotCommittable, "a commit must contain a semantic graph change"⟩
  let graph ← t.val.stagedGraph.normalized
  let graphHash ← graph.graphHash
  let previewDigest := verified.claims.val.previewDigest
  Checked.make DesignRevision.onlyChecks.stable
    ⟨revisionHashOf parent.val.revisionHash (parent.val.sequence + 1) graphHash
        t.val.commandHashes t.val.verificationReportHash previewDigest,
      some parent.val.revisionHash, parent.val.sequence + 1, graph, graphHash, t.val.commandHashes,
      t.val.verificationReportHash, some previewDigest⟩

/-- Publish a revision as the head and mark its transaction committed. -/
def publishCommit (transactionId : String) (t : Transaction) (verified : VerifiedCommitClaims)
    (revision : Revision) (consumed : ConsumedCommitAuthorization) : KernelM Unit := do
  let revisionHash := revision.val.revisionHash
  write fun k => { k with revisions := k.revisions.set revisionHash revision }
  write fun k => { k with head := revisionHash }
  write fun k => { k with committedAuthorizations :=
    k.committedAuthorizations.set transactionId verified.claims.val.authorizationDigest }
  write fun k => { k with committedAuthorizationEvidence :=
    k.committedAuthorizationEvidence.set transactionId consumed }
  let committed ← check (t.replace fun t => { t with
    state := .committed
    committedRevisionHash := some revisionHash })
  write fun k => { k with transactions := k.transactions.set transactionId committed }

def commit (verifier : Option CommitVerifier) (transactionId : String)
    (authorization : CommitAuthorization) : KernelM Revision := do
  let k ← read id
  let transaction ← check (getTransaction k transactionId)
  let verifier ← check (found ⟨.approvalMismatch, "kernel has no trusted commit verifier"⟩ verifier)
  let verified ← check (verifier.verify authorization)
  if transaction.val.state = .committed then
    check (retriedCommit k transactionId transaction verified)
  else do
    let revision ← check (committedRevision k transaction verified)
    let consumed ← check (verifier.consume verified)
    publishCommit transactionId transaction verified revision consumed
    return revision

end Engine

end Evleda.Kernel
