/-
Restoring and appending, step by step, on a store that is shared.

A database transaction that reads sees the database as it was at its first
statement.  One that writes keeps every other writer out until it ends, works on
what it found, and shows its work to others all at once when it commits.  The
anchor is outside of that: each of its operations is a step of its own, wherever a
transaction stands.

Done alone, the steps of a call are the call.
-/
import Evleda.Lib.Interleaving
import Evleda.ProjectStore.Restoring

namespace Evleda.ProjectStore

open Kernel Effect

/-- Where a call stands when it uses the database or the anchor. -/
inductive Place where
  /-- The first statement of a transaction that reads. -/
  | snapshot
  /-- An operation of the anchor by a restore, in its first attempt or again, over a snapshot with
  a head of this sequence. -/
  | anchor (again : Bool) (projectId : String) (headSequence : Nat)
  /-- `BEGIN IMMEDIATE` -/
  | begin
  | statements
  | rollback
  | commit
  /-- The compare-and-set after a revision of this sequence was committed. -/
  | swap (projectId : String) (sequence : Nat)
  deriving DecidableEq

/-- What the calls `ι` share: the store, who has a transaction that writes, and, for the record,
whose transactions were committed. -/
structure Shared (ι : Type) where
  store : StoreState
  writer : Option ι := none
  commits : List ι := []

abbrev StoreSteps (ι α : Type) := Steps Place (Shared ι) StoreFailure α

section Programs

variable {ι : Type} [UnicodeData] [Hashing] (keyring : Keyring)

def onStore {α : Type} (x : StoreM α) : Effect (Shared ι) StoreFailure α := fun s =>
  ((x.run s.store).1, { s with store := (x.run s.store).2 })

def anchorStep {α : Type} (place : Place) (x : StoreM α) : StoreSteps ι α :=
  .atomic place (onStore x)

/-- The steps of `advanceAnchor`. -/
def advanceSteps (place : Place) (projectId : String) (revisions : List Revision)
    (attestations : List Attestation) (headSequence : Nat) :
    Nat → Anchor → Nat → StoreSteps ι Anchor
  | 0, previous, _ => pure previous
  | fuel + 1, previous, sequence =>
      if headSequence < sequence then pure previous
      else do
        let current ← .check (expectedAnchor projectId revisions attestations sequence)
        let next ← Steps.handling
          (do anchorStep place (compareAndSet previous current); pure current)
          (fun failure =>
            if failure.errorClass = .integrityError then do
              match ← anchorStep place (readAnchor projectId) with
              | none => .check (.error (integrity "external project head anchor disappeared"))
              | some raced => do
                  .check (require (raced.val.sequence ≤ headSequence) anchorAhead)
                  .check (require (raced ≠ previous) failure)
                  .check (require (previous.val.sequence ≤ raced.val.sequence) anchorContradicts)
                  let expected ← .check
                    (expectedAnchor projectId revisions attestations raced.val.sequence)
                  .check (require (raced = expected) anchorContradicts)
                  pure raced
            else .check (.error failure))
        advanceSteps place projectId revisions attestations headSequence fuel next
          (next.val.sequence + 1)

/-- The steps of `reconcileHeadAnchor`. -/
def reconcileSteps (again : Bool) (revisions : List Revision) (attestations : List Attestation) :
    StoreSteps ι Unit := do
  let head ← .check (lastOf revisions)
  let projectId := head.val.graph.projectId
  let place := Place.anchor again projectId head.val.sequence
  match ← anchorStep place (readAnchor projectId) with
  | none => .check (.error (integrity "external project head anchor is missing"))
  | some observed => do
      .check (require (observed.val.sequence ≤ head.val.sequence) anchorAhead)
      let expected ← .check (expectedAnchor projectId revisions attestations observed.val.sequence)
      .check (require (observed = expected) anchorContradicts)
      let reached ← advanceSteps place projectId revisions attestations head.val.sequence
        (head.val.sequence + 1) observed (observed.val.sequence + 1)
      let final ← anchorStep place (readAnchor projectId)
      .check (require (∀ anchor ∈ final, anchor.val.sequence ≤ head.val.sequence) anchorAhead)
      .check (require (final = some reached)
        (integrity "external project head anchor did not reach the verified head"))

/-- The steps of `restoreSnapshot`. -/
def snapshotSteps (again : Bool) (projectId : String) : StoreSteps ι ProjectState := do
  let db ← .atomic .snapshot (read fun s => s.store.database)
  let revisions ← .check (loadRevisions db projectId)
  let transactions ← .check (loadTransactions db projectId revisions)
  let approvals ← .check (loadApprovals db projectId)
  let attestations ← .check
    (loadAttestations keyring db projectId revisions transactions approvals)
  .check (crossChecks revisions transactions approvals)
  reconcileSteps again revisions attestations
  let headRevision ← .check (lastOf revisions)
  return ⟨projectId, headRevision, revisions, transactions, approvals, attestations⟩

/-- The steps of `restore`. -/
def restoreSteps (projectId : String) : StoreSteps ι ProjectState :=
  (snapshotSteps keyring false projectId).handling fun failure =>
    if failure.errorClass = .anchorAheadOfSnapshot then
      (snapshotSteps keyring true projectId).handling fun again =>
        if again.errorClass = .anchorAheadOfSnapshot then
          .check (.error
            (integrity "external project head anchor is persistently ahead of the database"))
        else .check (.error again)
    else .check (.error failure)

variable [DecidableEq ι]

def unavailable : StoreFailure :=
  ⟨.storeUnavailable, "durable project database is temporarily unavailable"⟩

/-- Begin a transaction that writes, and see the database.  A call that has waited long enough for
another writer gives up. -/
def beginImmediate (i : ι) : Effect (Shared ι) StoreFailure Database := do
  let writer ← read fun s => s.writer
  check (require (writer = none) unavailable)
  write fun s => { s with writer := some i }
  read fun s => s.store.database

/-- End a transaction that writes without its work. -/
def giveUp (i : ι) (s : Shared ι) : Shared ι :=
  if s.writer = some i then { s with writer := none } else s

/-- End a transaction that writes with its work. -/
def commitWork (i : ι) (db : Database) (s : Shared ι) : Shared ι where
  store := { s.store with database := db }
  writer := none
  commits := s.commits ++ [i]

/-- How the transaction of an append ends, and what is done after a commit. -/
def endTransaction (i : ι) (projectId : String) (revision : Revision) :
    Except StoreFailure (Anchor × Anchor) × StoreState → StoreSteps ι Unit
  | (.error failure, _) => do
      .atomic .rollback (write (giveUp i))
      .check (.error failure)
  | (.ok anchors, work) => do
      .atomic .commit (write (commitWork i work.database))
      anchorStep (.swap projectId revision.val.sequence) (compareAndSet anchors.1 anchors.2)

/-- The transaction of an append.  Its statements work on what it found when it began, so they are
one step with the read of the anchor. -/
def transactionSteps (i : ι) (projectId : String) (revision : Revision) (expectedHead : String)
    (evidence : CommitEvidence) (documents : CommitDocuments)
    (expectedTransactionGeneration : Option Int) : StoreSteps ι Unit := do
  let view ← .atomic .begin (beginImmediate i)
  let worked ← .atomic .statements (read fun s =>
    (appendLocked projectId revision expectedHead evidence documents
      expectedTransactionGeneration).run ⟨view, s.store.anchors⟩)
  endTransaction i projectId revision worked

/-- The steps of `appendRevision`, as the call `i`. -/
def appendSteps (i : ι) (projectId : String) (revision : Revision) (expectedHead : String)
    (evidence : CommitEvidence) (expectedTransactionGeneration : Option Int) :
    StoreSteps ι Unit := do
  .check (require (revision.val.sequence ≠ 0)
    (integrity "append_revision cannot append another genesis"))
  .check (require (revision.val.revisionHash = revisionHashFor revision.val)
    (integrity "revision hash is invalid"))
  .check (require (evidence.transaction.val.state = .committed)
    (integrity "a committed revision requires a committed transaction snapshot"))
  .check (require (evidence.approval.val.decision = .approved)
    (integrity "a committed revision requires affirmative approval evidence"))
  let revisionDocument ← .check (survivingRevision revision)
  let transactionDocument ← .check (survivingTransaction evidence.transaction)
  let approvalDocument ← .check (survivingApproval evidence.approval)
  let attestationDocument ← .check (survivingAttestation evidence.attestation)
  .check (validateAttestationBinding keyring evidence.attestation revision evidence.transaction
    evidence.approval)
  let verified ← restoreSteps keyring projectId
  .check (require (verified.headRevision.val.revisionHash = expectedHead)
    (conflict "project head changed before the verified revision append"))
  transactionSteps i projectId revision expectedHead evidence
    ⟨revisionDocument, transactionDocument, approvalDocument, attestationDocument⟩
    expectedTransactionGeneration

end Programs

/-! ### A call alone -/

section Alone

variable {ι : Type} {α β : Type}

/-- The steps `x`, done alone, do on the store of what is shared what `y` does. -/
def Does (x : StoreSteps ι α) (y : StoreM α) : Prop := x.alone = onStore y

namespace Does

theorem pure (a : α) : Does (Pure.pure a : StoreSteps ι α) (Pure.pure a) := rfl

theorem check (x : Except StoreFailure α) :
    Does (Steps.check x : StoreSteps ι α) (Effect.check x) := rfl

theorem step (place : Place) (y : StoreM α) : Does (anchorStep place y : StoreSteps ι α) y := rfl

theorem onStore_run (y : StoreM α) (s : Shared ι) :
    (onStore y).run s = ((y.run s.store).1, { s with store := (y.run s.store).2 }) := rfl

theorem onStore_bind (y : StoreM α) (g : α → StoreM β) :
    (onStore (y >>= g) : Effect (Shared ι) StoreFailure β) =
      onStore y >>= fun a => onStore (g a) := by
  funext s
  have hleft := run_bind (onStore (ι := ι) y) (fun a => onStore (g a)) s
  have hright := onStore_run (ι := ι) (y >>= g) s
  rw [onStore_run] at hleft
  rw [run_bind] at hright
  refine hright.trans (Eq.trans ?_ hleft.symm)
  cases hrun : y.run s.store with
  | mk result m =>
      cases result with
      | error e => rfl
      | ok a => rfl

theorem bind {x : StoreSteps ι α} {y : StoreM α} {f : α → StoreSteps ι β} {g : α → StoreM β}
    (hx : Does x y) (hf : ∀ a, Does (f a) (g a)) : Does (x >>= f) (y >>= g) := by
  unfold Does at hx ⊢
  rw [Steps.alone_bind, hx, onStore_bind]
  exact congrArg _ (funext hf)

theorem handling {x : StoreSteps ι α} {y : StoreM α} {h : StoreFailure → StoreSteps ι α}
    {k : StoreFailure → StoreM α} (hx : Does x y) (hh : ∀ e, Does (h e) (k e)) :
    Does (x.handling h) (ProjectStore.handling y k) := by
  unfold Does at hx
  funext s
  have hleft := Steps.run_alone_handling x h s
  rw [hx, onStore_run] at hleft
  refine Eq.trans hleft (Eq.trans ?_ (onStore_run _ s).symm)
  cases hy : y.run s.store with
  | mk result m =>
      cases result with
      | ok a => rw [handling_returns hy]
      | error e =>
          rw [handling_refused hy]
          exact congrFun (hh e) { s with store := m }

end Does

variable [UnicodeData] [Hashing] {keyring : Keyring}

theorem advance_does (place : Place) (projectId : String) (revisions : List Revision)
    (attestations : List Attestation) (headSequence fuel : Nat) (previous : Anchor)
    (sequence : Nat) :
    Does (advanceSteps place projectId revisions attestations headSequence fuel previous sequence :
        StoreSteps ι Anchor)
      (advanceAnchor projectId revisions attestations headSequence fuel previous sequence) := by
  induction fuel generalizing previous sequence with
  | zero => exact .pure _
  | succ fuel ih =>
      unfold advanceSteps advanceAnchor
      split
      · exact .pure _
      · refine .bind (.check _) fun current => .bind (.handling ?_ fun failure => ?_) fun next =>
          ih next _
        · exact .bind (.step _ _) fun _ => .pure _
        · split
          · refine .bind (.step _ _) fun found => ?_
            cases found with
            | none => exact .check _
            | some raced =>
                exact .bind (.check _) fun _ => .bind (.check _) fun _ => .bind (.check _) fun _ =>
                  .bind (.check _) fun _ => .bind (.check _) fun _ => .pure _
          · exact .check _

theorem reconcile_does (again : Bool) (revisions : List Revision)
    (attestations : List Attestation) :
    Does (reconcileSteps again revisions attestations : StoreSteps ι Unit)
      (reconcileHeadAnchor revisions attestations) := by
  refine .bind (.check _) fun head => .bind (.step _ _) fun found => ?_
  cases found with
  | none => exact .check _
  | some observed =>
      exact .bind (.check _) fun _ => .bind (.check _) fun _ => .bind (.check _) fun _ =>
        .bind (advance_does _ _ _ _ _ _ _ _) fun _ => .bind (.step _ _) fun _ =>
        .bind (.check _) fun _ => .check _

theorem snapshot_does (again : Bool) (projectId : String) :
    Does (snapshotSteps keyring again projectId : StoreSteps ι ProjectState)
      (restoreSnapshot keyring projectId) := by
  have hread : Does (.atomic .snapshot (read fun s => s.store.database) : StoreSteps ι Database)
      (read fun s => s.database) := rfl
  exact .bind hread fun _ => .bind (.check _) fun _ => .bind (.check _) fun _ =>
    .bind (.check _) fun _ => .bind (.check _) fun _ => .bind (.check _) fun _ =>
    .bind (reconcile_does _ _ _) fun _ => .bind (.check _) fun _ => .pure _

/-- **The steps of a restore, done alone, are the restore.** -/
theorem restore_does (projectId : String) :
    Does (restoreSteps keyring projectId : StoreSteps ι ProjectState)
      (restore keyring projectId) := by
  refine .handling (snapshot_does _ _) fun failure => ?_
  split
  · refine .handling (snapshot_does _ _) fun again => ?_
    split
    · exact .check _
    · exact .check _
  · exact .check _

omit [UnicodeData] [Hashing] in
/-- A call that begins a transaction keeps the other writers out. -/
theorem beginImmediate_run (i : ι) (s : Shared ι) :
    (beginImmediate i).run s =
      if s.writer = none then (.ok s.store.database, { s with writer := some i })
      else (.error unavailable, s) := by
  unfold beginImmediate
  rw [run_read_bind, run_check_bind]
  by_cases hfree : s.writer = none
  · have hpass : require (s.writer = none) unavailable = .ok () := Outcome.require_ok.mpr hfree
    rw [if_pos hfree, hpass]
    rfl
  · have hfails : require (s.writer = none) unavailable = .error unavailable :=
      Outcome.require_error.mpr ⟨hfree, rfl⟩
    rw [if_neg hfree, hfails]

end Alone

end Evleda.ProjectStore
