/-
When a snapshot of a transaction is one the kernel could have made.

The store keeps transactions as snapshots.  It checks one by replaying it: a
kernel is made whose only revision is the transaction's base, the transaction is
opened, its commands are staged, its report is recorded or it is rolled back, and
what comes out has to be the snapshot.  Of a committed transaction the revision
is made again too.  Beside that a snapshot that replaces an older one has to be a
change that the older one allows.
-/
import Evleda.Kernel.Batch
import Evleda.ProjectStore.Codec

namespace Evleda.ProjectStore

open Kernel Effect

section Snapshots

variable [UnicodeData] [Hashing]

deriving instance DecidableEq for DesignCommand

deriving instance DecidableEq for DesignTransaction

deriving instance DecidableEq for DesignRevision

/-- `DesignKernel.from_revision(revision)` -/
def fromRevision (revision : Revision) : Except Failure DesignKernel := do
  let normalized ← revision.val.graph.normalized
  validateGraph normalized
  let graphHash ← normalized.graphHash
  require (normalized = revision.val.graph ∧ graphHash = revision.val.graphHash)
    (violation "preview fork revision must contain its normalized exact graph")
  return { revisions := Dict.empty.set revision.val.revisionHash revision
           head := revision.val.revisionHash }

/-- Stage commands one after another, with what the last one returned. -/
def stageAll (replayed : Transaction) (commands : List Command) : KernelM Transaction :=
  commands.foldlM (fun _ command => stage command) replayed

/-- Make a transaction again, short of committing it. -/
def replay (transaction : DesignTransaction) : KernelM Transaction := do
  let begun ← beginTransaction transaction.transactionId transaction.baseRevision
  let staged ← stageAll begun transaction.commands
  let reported ← match transaction.verificationReportHash with
    | some reportHash =>
        if transaction.state ∈ [.opened, .verified, .committed] then
          recordVerification transaction.transactionId reportHash transaction.commitGatePassed
            transaction.verificationPreviewDigest
        else pure staged
    | none => pure staged
  if transaction.state = .rolledBack then rollback transaction.transactionId
  else pure reported

/-- Make the revision of a committed transaction again. -/
def replayCommit (base : Revision) (replayed : Transaction) (committed : Option Revision) :
    Except StoreFailure Transaction := do
  let refusal := integrity "committed transaction requires its durable committed revision"
  let committedRevision ← located refusal committed
  let approvalPreviewDigest ← located refusal committedRevision.val.approvalPreviewDigest
  let stagedGraphHash ← fromKernel replayed.val.stagedGraph.graphHash
  require (replayed.val.state = .verified ∧ replayed.val.commitGatePassed = true ∧
      replayed.val.verificationReportHash ≠ none ∧
      replayed.val.verificationPreviewDigest = some replayed.val.previewDigest ∧
      replayed.val.commands ≠ [] ∧ stagedGraphHash ≠ base.val.graphHash)
    (integrity "durable committed transaction was not exactly verified and committable")
  let graph ← fromKernel replayed.val.stagedGraph.normalized
  let graphHash ← fromKernel graph.graphHash
  let generated ← construct DesignRevision.onlyChecks
    ⟨revisionHashOf base.val.revisionHash (base.val.sequence + 1) graphHash
        replayed.val.commandHashes replayed.val.verificationReportHash approvalPreviewDigest,
      some base.val.revisionHash, base.val.sequence + 1, graph, graphHash,
      replayed.val.commandHashes, replayed.val.verificationReportHash,
      some approvalPreviewDigest⟩
  require (generated = committedRevision)
    (integrity "transaction replay does not reproduce its committed revision")
  fromKernel (replayed.replace (committedAs generated.val.revisionHash))

def validateTransaction (transaction : Transaction) (base : Revision)
    (committedRevision : Option Revision := none) : Except StoreFailure Unit := do
  require (transaction.val.baseRevision = base.val.revisionHash)
    (integrity "transaction base revision is not its declared durable base")
  require (transaction.val.stagedGraph.projectId = base.val.graph.projectId)
    (integrity "transaction staged graph belongs to another project")
  let kernel ← fromKernel (fromRevision base)
  let replayed ← fromKernel ((replay transaction.val).run kernel).1
  let replayed ← if transaction.val.state = .committed then
      replayCommit base replayed committedRevision
    else pure replayed
  require (replayed = transaction)
    (integrity "transaction snapshot does not reproduce by deterministic replay")

/-- The changes of a snapshot that the store takes. -/
def validateTransactionTransition (previous current : Transaction) : Except StoreFailure Unit := do
  let before := previous.val
  let after := current.val
  require (after.transactionId = before.transactionId ∧ after.baseRevision = before.baseRevision)
    (integrity "a transaction ID and base revision are immutable")
  require (before.state ∉ [.committed, .rolledBack])
    (conflict "terminal transaction snapshots are immutable")
  require (before.commands.length ≤ after.commands.length ∧
      after.commands.take before.commands.length = before.commands)
    (integrity "transaction command history must be append-only")
  if after.state = .committed then do
    require (before.state = .verified)
      (integrity "only a verified transaction may become committed")
    let uncommitted ← fromKernel (current.replace fun t => { t with
      state := .verified
      committedRevisionHash := none })
    require (uncommitted = previous)
      (integrity "commit cannot change the verified transaction subject or evidence")
  else if before.state = .verified then do
    if after.state = .verified then
      require (current = previous) (integrity "verified transaction evidence is immutable")
    else do
      require (after.state = .rolledBack)
        (integrity "verified transactions may only commit or roll back")
      require (after.commands = before.commands)
        (integrity "verified transactions cannot gain commands")
  else
    require (after.state ∈ [.opened, .verified, .rolledBack])
      (integrity "open transaction has an invalid durable state transition")

end Snapshots

end Evleda.ProjectStore
