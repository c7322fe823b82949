/-
What the store's statements and calls do when they return.

A statement changes rows of one project and says with what key; the rows of other
projects stay as they are.  A database transaction that raises leaves the database
alone, and none of them touches the anchors.  Writing a snapshot of a transaction
puts one row in the place of the one before, or adds one; what it replaces was not
committed.
-/
import Evleda.ProjectStore.Intact

namespace Evleda.ProjectStore

open Kernel Effect Outcome

/-! ### Statements -/

section Statements

variable {db db' : Database} {projectId : String}

/-- A key is new beside the project's id when it is new among the project's rows. -/
theorem key_fresh_iff {ρ κ : Type} {rows : List ρ} {project : ρ → String} {key : ρ → κ} {k : κ} :
    (projectId, k) ∉ rows.map (fun row => (project row, key row)) ↔
      k ∉ (rows.filter (project · == projectId)).map key := by
  rw [not_iff_not, List.mem_map, List.mem_map]
  constructor
  · rintro ⟨old, hold, hkey⟩
    rw [Prod.mk.injEq] at hkey
    exact ⟨old, List.mem_filter.mpr ⟨hold, beq_iff_eq.mpr hkey.1⟩, hkey.2⟩
  · rintro ⟨old, hold, hkey⟩
    obtain ⟨hin, hown⟩ := List.mem_filter.mp hold
    exact ⟨old, hin, by rw [beq_iff_eq.mp hown, hkey]⟩

/-- Looking a key up beside the project's id is looking it up among the project's rows. -/
theorem find?_own {ρ κ : Type} [DecidableEq κ] {rows : List ρ} {project : ρ → String} {key : ρ → κ}
    {k : κ} : rows.find? (fun row => project row == projectId && key row == k) =
      (rows.filter (project · == projectId)).find? (key · == k) := by
  rw [List.find?_filter]
  simp only [Bool.decide_and, Bool.decide_eq_true]

theorem nodup_map_snoc {α κ : Type} {key : α → κ} {l : List α} {a : α} (hl : (l.map key).Nodup)
    (ha : key a ∉ l.map key) : ((l ++ [a]).map key).Nodup := by
  rw [List.map_append, List.map_singleton, List.nodup_append]
  refine ⟨hl, List.nodup_singleton _, ?_⟩
  intro k hk k' hk' heq
  rw [List.mem_singleton] at hk'
  rw [heq, hk'] at hk
  exact ha hk

theorem filter_map_own {ρ : Type} {rows : List ρ} {project : ρ → String} {change : ρ → ρ}
    (hchange : ∀ row, project (change row) = project row) (other : String) :
    (rows.map change).filter (project · == other) =
      (rows.filter (project · == other)).map change := by
  rw [List.filter_map]
  congr 2
  funext row
  rw [Function.comp_apply, hchange]

theorem map_other {ρ : Type} {rows : List ρ} {project : ρ → String} {change : ρ → ρ}
    (hchange : ∀ row, project row ≠ projectId → change row = row) {other : String}
    (hother : other ≠ projectId) :
    (rows.filter (project · == other)).map change = rows.filter (project · == other) := by
  refine (List.map_congr_left fun row hrow => ?_).trans (List.map_id _)
  have hown := (List.mem_filter.mp hrow).2
  rw [beq_iff_eq] at hown
  exact hchange row fun h => hother (hown.symm.trans h)

theorem Database.insertProject_ok {row : ProjectRow} (h : db.insertProject row = .ok db')
    (hproject : row.projectId = projectId) :
    (db.of projectId).projects = [] ∧
      db'.of projectId = { db.of projectId with projects := [row] } ∧
      ∀ other, other ≠ projectId → db'.of other = db.of other := by
  unfold Database.insertProject at h
  simp only [bind_ok, exists_unit, require_ok, pure_ok] at h
  obtain ⟨hnew, rfl⟩ := h
  subst hproject
  have hnone : (db.of row.projectId).projects = [] := by
    rw [hasProject_iff, not_not] at hnew
    exact hnew
  refine ⟨hnone, ?_, ?_⟩
  · have hrows : (db.projects ++ [row]).filter (·.projectId == row.projectId) =
        (db.of row.projectId).projects ++ [row] := by
      simp [Database.of, List.filter_append]
    rw [hnone, List.nil_append] at hrows
    unfold Database.of
    rw [hrows]
  · intro other hother
    simp [Database.of, List.filter_append, hother.symm]

theorem Database.insertRevision_ok {row : RevisionRow} (h : db.insertRevision row = .ok db')
    (hproject : row.projectId = projectId) :
    row.revisionHash ∉ (db.of projectId).revisions.map (·.revisionHash) ∧
      db'.of projectId =
        { db.of projectId with revisions := (db.of projectId).revisions ++ [row] } ∧
      ∀ other, other ≠ projectId → db'.of other = db.of other := by
  unfold Database.insertRevision at h
  simp only [bind_ok, exists_unit, require_ok, pure_ok] at h
  obtain ⟨⟨-, hnew, -⟩, rfl⟩ := h
  subst hproject
  refine ⟨?_, ?_, ?_⟩
  · exact key_fresh_iff.mp hnew
  · simp [Database.of, List.filter_append]
  · intro other hother
    simp [Database.of, List.filter_append, hother.symm]

theorem Database.insertTransaction_ok {row : TransactionRow}
    (h : db.insertTransaction row = .ok db') (hproject : row.projectId = projectId) :
    row.transactionId ∉ (db.of projectId).transactions.map (·.transactionId) ∧
      db'.of projectId =
        { db.of projectId with transactions := (db.of projectId).transactions ++ [row] } ∧
      ∀ other, other ≠ projectId → db'.of other = db.of other := by
  unfold Database.insertTransaction at h
  simp only [bind_ok, exists_unit, require_ok, pure_ok] at h
  obtain ⟨⟨-, hnew⟩, rfl⟩ := h
  subst hproject
  refine ⟨?_, ?_, ?_⟩
  · exact key_fresh_iff.mp hnew
  · simp [Database.of, List.filter_append]
  · intro other hother
    simp [Database.of, List.filter_append, hother.symm]

theorem Database.insertApproval_ok {row : ApprovalRow} (h : db.insertApproval row = .ok db')
    (hproject : row.projectId = projectId) :
    row.approvalId ∉ (db.of projectId).approvals.map (·.approvalId) ∧
      db'.of projectId =
        { db.of projectId with approvals := (db.of projectId).approvals ++ [row] } ∧
      ∀ other, other ≠ projectId → db'.of other = db.of other := by
  unfold Database.insertApproval at h
  simp only [bind_ok, exists_unit, require_ok, pure_ok] at h
  obtain ⟨⟨-, hnew, -⟩, rfl⟩ := h
  subst hproject
  refine ⟨?_, ?_, ?_⟩
  · exact key_fresh_iff.mp hnew
  · simp [Database.of, List.filter_append]
  · intro other hother
    simp [Database.of, List.filter_append, hother.symm]

theorem Database.insertAttestation_ok {row : AttestationRow}
    (h : db.insertAttestation row = .ok db') (hproject : row.projectId = projectId) :
    row.revisionHash ∉ (db.of projectId).attestations.map (·.revisionHash) ∧
      db'.of projectId =
        { db.of projectId with attestations := (db.of projectId).attestations ++ [row] } ∧
      ∀ other, other ≠ projectId → db'.of other = db.of other := by
  unfold Database.insertAttestation at h
  simp only [bind_ok, exists_unit, require_ok, pure_ok] at h
  obtain ⟨⟨-, hnew, -⟩, rfl⟩ := h
  subst hproject
  refine ⟨?_, ?_, ?_⟩
  · exact key_fresh_iff.mp hnew
  · simp [Database.of, List.filter_append]
  · intro other hother
    simp [Database.of, List.filter_append, hother.symm]

theorem TransactionRow.isAt_iff {transactionId baseRevision : String} {generation : Int}
    {row : TransactionRow} :
    row.isAt projectId transactionId baseRevision generation = true ↔
      row.projectId = projectId ∧ row.transactionId = transactionId ∧
        (row.generation : Int) = generation ∧ row.baseRevision = baseRevision := by
  unfold TransactionRow.isAt
  simp only [Bool.and_eq_true, beq_iff_eq, and_assoc]

/-- The change an update makes to a row. -/
def updated (row : TransactionRow) (expected : Int) (old : TransactionRow) : TransactionRow :=
  if old.isAt row.projectId row.transactionId row.baseRevision expected then row else old

theorem Database.updateTransaction_ok {row : TransactionRow} {expected : Int}
    (h : db.updateTransaction row expected = .ok db') (hproject : row.projectId = projectId) :
    db'.of projectId = { db.of projectId with
        transactions := (db.of projectId).transactions.map (updated row expected) } ∧
      ∀ other, other ≠ projectId → db'.of other = db.of other := by
  unfold Database.updateTransaction at h
  simp only [bind_ok, exists_unit, require_ok, pure_ok] at h
  obtain ⟨-, -, rfl⟩ := h
  subst hproject
  have hchange : ∀ old, (updated row expected old).projectId = old.projectId := by
    intro old
    unfold updated
    split
    · rename_i hat
      exact (TransactionRow.isAt_iff.mp hat).1.symm
    · rfl
  constructor
  · have hrows : (db.transactions.map (updated row expected)).filter
        (·.projectId == row.projectId) = _ := filter_map_own hchange row.projectId
    exact congrArg (fun rows => { db.of row.projectId with transactions := rows }) hrows
  · intro other hother
    have hrows : (db.transactions.map (updated row expected)).filter (·.projectId == other) =
        db.transactions.filter (·.projectId == other) := by
      rw [filter_map_own hchange other]
      refine map_other (fun old hold => ?_) hother
      unfold updated
      rw [if_neg]
      intro hat
      exact hold (TransactionRow.isAt_iff.mp hat).1
    exact congrArg (fun rows => { db.of other with transactions := rows }) hrows

theorem Database.advanceHead_ok {row old : ProjectRow} {expectedHead : String}
    {expectedSequence : Nat} (h : db.advanceHead row expectedHead expectedSequence = .ok db')
    (hproject : row.projectId = projectId) (hold : (db.of projectId).projects = [old])
    (hhead : old.headRevision = expectedHead) (hsequence : old.headSequence = expectedSequence) :
    db'.of projectId = { db.of projectId with projects := [row] } ∧
      ∀ other, other ≠ projectId → db'.of other = db.of other := by
  unfold Database.advanceHead at h
  simp only [bind_ok, exists_unit, require_ok, pure_ok] at h
  obtain ⟨-, rfl⟩ := h
  subst hproject
  have hown : old.projectId = row.projectId := by
    have hmem : old ∈ (db.of row.projectId).projects := by
      rw [hold]
      exact List.mem_singleton_self old
    exact beq_iff_eq.mp (List.mem_filter.mp hmem).2
  let change := fun found : ProjectRow => if found.projectId == row.projectId &&
    found.headRevision == expectedHead && found.headSequence == expectedSequence then row else found
  have hchange : ∀ found, (change found).projectId = found.projectId := by
    intro found
    change (if _ then row else found).projectId = found.projectId
    split
    · rename_i hat
      simp only [Bool.and_eq_true, beq_iff_eq] at hat
      exact hat.1.1.symm
    · rfl
  have hfilter : db.projects.filter (·.projectId == row.projectId) = [old] := hold
  constructor
  · have hrows : (db.projects.map change).filter (·.projectId == row.projectId) = [row] := by
      rw [filter_map_own hchange row.projectId, hfilter, List.map_singleton]
      exact congrArg (fun found => [found]) (if_pos (by simp [hown, hhead, hsequence]))
    exact congrArg (fun rows => { db.of row.projectId with projects := rows }) hrows
  · intro other hother
    have hrows : (db.projects.map change).filter (·.projectId == other) =
        db.projects.filter (·.projectId == other) := by
      rw [filter_map_own hchange other]
      refine map_other (fun found hfound => if_neg ?_) hother
      intro hat
      simp only [Bool.and_eq_true, beq_iff_eq] at hat
      exact hfound hat.1.1
    exact congrArg (fun rows => { db.of other with projects := rows }) hrows

end Statements

/-! ### What a call does -/

section Calls

variable {s s' : StoreState} {projectId : String}

theorem execute_returns {statement : Database → Except StoreFailure Database} {u : Unit} :
    (execute statement).run s = (.ok u, s') ↔
      ∃ db, statement s.database = .ok db ∧ s' = { s with database := db } := by
  unfold execute
  rw [run_read_bind, check_bind_returns]
  refine exists_congr fun db => and_congr_right fun _ => ?_
  constructor
  · intro h
    cases h
    rfl
  · rintro rfl
    rfl

theorem transactionally_run {α : Type} (x : StoreM α) (s : StoreState) :
    (transactionally x).run s =
      match x.run s with
      | (.ok a, s') => (.ok a, s')
      | (.error e, s') => (.error e, { s' with database := s.database }) := rfl

theorem transactionally_returns {α : Type} {x : StoreM α} {a : α} :
    (transactionally x).run s = (.ok a, s') ↔ x.run s = (.ok a, s') := by
  rw [transactionally_run]
  cases x.run s with
  | mk result m =>
      cases result with
      | ok b => rfl
      | error e => simp

/-- A database transaction that does not touch the anchors changes nothing if it raises. -/
theorem transactionally_atomicAt {α : Type} {x : StoreM α} (hx : Keeps StoreState.anchors x) :
    AtomicAt s (transactionally x) := by
  intro e s' h
  have hanchors := hx s
  rw [transactionally_run] at h
  cases hxrun : x.run s with
  | mk result m =>
      rw [hxrun] at h hanchors
      cases result with
      | ok b => cases h
      | error e' =>
          have hstate := (Prod.mk.inj h).2
          rw [← hstate]
          have hm : m.anchors = s.anchors := hanchors
          rw [hm]

theorem handling_leaves {α : Type} {P : StoreState → Prop} {x : StoreM α}
    {handler : StoreFailure → StoreM α} (hreturns : ∀ a m, x.run s = (.ok a, m) → P m)
    (hraises : ∀ e m, x.run s = (.error e, m) → P ((handler e).run m).2) :
    P ((handling x handler).run s).2 := by
  cases hxrun : x.run s with
  | mk result m =>
      cases result with
      | ok a =>
          rw [handling_returns hxrun]
          exact hreturns a m hxrun
      | error e =>
          rw [handling_refused hxrun]
          exact hraises e m hxrun

theorem handling_raising_returns {α : Type} {x : StoreM α} {f : StoreFailure → StoreFailure}
    {a : α} :
    (handling x fun failure => check (.error (f failure))).run s = (.ok a, s') ↔
      x.run s = (.ok a, s') := by
  cases hxrun : x.run s with
  | mk result m =>
      cases result with
      | ok b => rw [handling_returns hxrun]
      | error e =>
          rw [handling_refused hxrun, Effect.run_check]
          simp

theorem execute_keeps (statement : Database → Except StoreFailure Database) :
    Keeps StoreState.anchors (execute statement) :=
  .bind (.read _) fun _ => .bind (.check _) fun _ => .write fun _ => rfl

theorem handling_keeps {α : Type} {x : StoreM α} {handler : StoreFailure → StoreM α}
    (hx : Keeps StoreState.anchors x) (hhandler : ∀ e, Keeps StoreState.anchors (handler e)) :
    Keeps StoreState.anchors (handling x handler) := by
  intro s
  have hanchors := hx s
  refine handling_leaves (P := fun m => m.anchors = s.anchors) ?_ ?_
  · intro a m hxrun
    rw [hxrun] at hanchors
    exact hanchors
  · intro e m hxrun
    rw [hxrun] at hanchors
    exact (hhandler e m).trans hanchors

theorem readAnchor_keeps {τ : Type} {part : StoreState → τ} (projectId : String) :
    Keeps part (readAnchor projectId) :=
  .bind (.check _) fun _ => .read _

theorem readAnchor_returns {found : Option Anchor}
    (h : (readAnchor projectId).run s = (.ok found, s')) : found = s.anchors projectId ∧ s' = s := by
  unfold readAnchor at h
  obtain ⟨-, -, h⟩ := check_bind_returns.mp h
  cases h
  exact ⟨rfl, rfl⟩

theorem compareAndSet_moves {expected current : Anchor}
    (hproject : expected.val.projectId = current.val.projectId)
    (hsequence : current.val.sequence = expected.val.sequence + 1)
    (hat : s.anchors expected.val.projectId = some expected) :
    (compareAndSet expected current).run s =
      (.ok (), { s with anchors := s.anchors.set current.val.projectId current }) := by
  have hother : s.anchors expected.val.projectId ≠ some current := by
    intro h
    rw [hat, Option.some.injEq] at h
    rw [h] at hsequence
    omega
  unfold compareAndSet
  rw [check_bind_returns]
  refine ⟨(), require_ok.mpr hproject, ?_⟩
  rw [check_bind_returns]
  refine ⟨(), require_ok.mpr hsequence, ?_⟩
  rw [run_read_bind, if_neg hother, check_bind_returns]
  exact ⟨(), require_ok.mpr hat, rfl⟩

theorem initializeAnchor_returns {A : Anchor} {u : Unit}
    (h : (initializeAnchor A).run s = (.ok u, s')) :
    s' = { s with anchors := s.anchors.set A.val.projectId A } := by
  unfold initializeAnchor at h
  rw [run_read_bind] at h
  obtain ⟨_, -, h⟩ := check_bind_returns.mp h
  cases h
  rfl

theorem initializeAnchor_atomicAt (A : Anchor) : AtomicAt s (initializeAnchor A) := by
  refine .read_bind (.check_bind fun _ _ => ?_)
  intro e s' h
  cases h

variable [UnicodeData] [Hashing]

theorem assertHeadAnchor_keeps (revision : Revision) :
    Keeps StoreState.anchors (assertHeadAnchor revision) :=
  .bind (.read _) fun _ => .bind (.check _) fun _ => .bind (readAnchor_keeps _) fun _ =>
    .bind (.check _) fun _ => .pure _

theorem assertHeadAnchor_returns {revision : Revision} {A : Anchor}
    (h : (assertHeadAnchor revision).run s = (.ok A, s')) :
    s' = s ∧ A.val.projectId = revision.val.graph.projectId ∧
      A.val.sequence = revision.val.sequence ∧ s.anchors A.val.projectId = some A := by
  unfold assertHeadAnchor at h
  rw [run_read_bind] at h
  obtain ⟨expected, hexpected, h⟩ := check_bind_returns.mp h
  obtain ⟨observed, m, hread, h⟩ := bind_returns.mp h
  obtain ⟨rfl, rfl⟩ := readAnchor_returns hread
  obtain ⟨_, hobserved, h⟩ := check_bind_returns.mp h
  obtain ⟨rfl, rfl⟩ := pure_returns.mp h
  unfold headAnchorState at hexpected
  obtain ⟨digest, -, hstate⟩ := bind_ok.mp hexpected
  rw [anchorState_ok] at hstate
  refine ⟨rfl, by rw [hstate], by rw [hstate], require_ok.mp hobserved⟩

theorem writeTransaction_keeps (projectId : String) (transaction : Transaction)
    (body digest : String) (expectedGeneration : Option Int) (expectation : String) :
    Keeps StoreState.anchors (writeTransaction projectId transaction body digest
      expectedGeneration expectation) := by
  unfold writeTransaction
  refine .bind (.read _) fun db => ?_
  dsimp only
  split
  · exact .bind (.check _) fun _ => .bind (execute_keeps _) fun _ => .pure _
  · refine .bind (.check _) fun _ => ?_
    split
    · exact .check _
    · exact .bind (.check _) fun _ => .bind (.check _) fun _ => .bind (.check _) fun _ =>
        .bind (execute_keeps _) fun _ => .pure _

omit [Hashing] in
theorem keepApproval_keeps (projectId : String) (approval : Approval) (body digest : String) :
    Keeps StoreState.anchors (keepApproval projectId approval body digest) := by
  unfold keepApproval
  refine .bind (.read _) fun db => ?_
  split
  · exact execute_keeps _
  · exact .check _

theorem insertSuccessor_keeps (projectId : String) (revision head : Revision)
    (attestation : Attestation) (expectedHead : String)
    (revisionDocument attestationDocument : String × String) :
    Keeps StoreState.anchors (insertSuccessor projectId revision head attestation expectedHead
      revisionDocument attestationDocument) :=
  .bind (.read _) fun _ => .bind (.check _) fun _ => .bind (execute_keeps _) fun _ =>
    .bind (execute_keeps _) fun _ => execute_keeps _

theorem saveLocked_keeps (projectId : String) (transaction : Transaction)
    (document : String × String) (expectedGeneration : Option Int) :
    Keeps StoreState.anchors (saveLocked projectId transaction document expectedGeneration) :=
  .bind (.read _) fun _ => .bind (.check _) fun _ => .bind (.check _) fun _ =>
    .bind (assertHeadAnchor_keeps _) fun _ => .bind (.check _) fun _ => .bind (.check _) fun _ =>
    .bind (.check _) fun _ => .bind (writeTransaction_keeps _ _ _ _ _ _) fun _ => .pure _

theorem recordLocked_keeps (projectId : String) (approval : Approval)
    (document : String × String) :
    Keeps StoreState.anchors (recordLocked projectId approval document) :=
  .bind (.read _) fun _ => .bind (.check _) fun _ => .bind (.check _) fun _ =>
    .bind (assertHeadAnchor_keeps _) fun _ => .bind (.check _) fun _ => .bind (.check _) fun _ =>
    .bind (.check _) fun _ => handling_keeps (execute_keeps _) fun _ => .check _

theorem appendLocked_keeps (projectId : String) (revision : Revision) (expectedHead : String)
    (evidence : CommitEvidence) (documents : CommitDocuments) (generation : Option Int) :
    Keeps StoreState.anchors (appendLocked projectId revision expectedHead evidence documents
      generation) :=
  .bind (.read _) fun _ => .bind (.check _) fun _ => .bind (.check _) fun _ =>
    .bind (.check _) fun _ => .bind (assertHeadAnchor_keeps _) fun _ => .bind (.check _) fun _ =>
    .bind (writeTransaction_keeps _ _ _ _ _ _) fun _ => .bind (keepApproval_keeps _ _ _ _) fun _ =>
    .bind (insertSuccessor_keeps _ _ _ _ _ _ _) fun _ => .bind (.check _) fun _ => .pure _

theorem writeTransaction_returns {transaction : Transaction} {body digest expectation : String}
    {expectedGeneration : Option Int} {generation : Nat}
    (h : (writeTransaction projectId transaction body digest expectedGeneration expectation).run s =
      (.ok generation, s')) :
    s'.anchors = s.anchors ∧
      ((expectedGeneration = none ∧ generation = 0 ∧ s.database.insertTransaction
          (transactionRow projectId transaction generation body digest) = .ok s'.database) ∨
        ∃ expected row stored, expectedGeneration = some expected ∧
          s.database.transactions.find? (fun row => row.projectId == projectId &&
            row.transactionId == transaction.val.transactionId) = some row ∧
          decodeTransactionRow row = .ok stored ∧ (stored.generation : Int) = expected ∧
          validateTransactionTransition stored.transaction transaction = .ok () ∧
          s.database.updateTransaction
            (transactionRow projectId transaction generation body digest) expected =
            .ok s'.database) := by
  unfold writeTransaction at h
  rw [run_read_bind] at h
  dsimp only at h
  split at h
  · obtain ⟨_, -, h⟩ := check_bind_returns.mp h
    obtain ⟨_, m, hinsert, h⟩ := bind_returns.mp h
    obtain ⟨db, hdb, rfl⟩ := execute_returns.mp hinsert
    obtain ⟨rfl, rfl⟩ := pure_returns.mp h
    exact ⟨rfl, Or.inl ⟨rfl, rfl, hdb⟩⟩
  · rename_i expected
    obtain ⟨_, -, h⟩ := check_bind_returns.mp h
    split at h
    · cases h
    · rename_i row hrow
      obtain ⟨stored, hstored, h⟩ := check_bind_returns.mp h
      obtain ⟨_, hgeneration, h⟩ := check_bind_returns.mp h
      obtain ⟨_, htransition, h⟩ := check_bind_returns.mp h
      obtain ⟨_, m, hupdate, h⟩ := bind_returns.mp h
      obtain ⟨db, hdb, rfl⟩ := execute_returns.mp hupdate
      obtain ⟨rfl, rfl⟩ := pure_returns.mp h
      exact ⟨rfl, Or.inr ⟨expected, row, stored, rfl, hrow, hstored,
        require_ok.mp hgeneration, htransition, hdb⟩⟩

theorem transition_ok {previous current : Transaction}
    (h : validateTransactionTransition previous current = .ok ()) :
    current.val.transactionId = previous.val.transactionId ∧
      current.val.baseRevision = previous.val.baseRevision ∧
      previous.val.state ≠ .committed ∧ previous.val.state ≠ .rolledBack := by
  unfold validateTransactionTransition at h
  simp only [bind_ok, exists_unit, require_ok] at h
  obtain ⟨⟨hid, hbase⟩, hterminal, -⟩ := h
  simp only [List.mem_cons, List.not_mem_nil, or_false, not_or] at hterminal
  exact ⟨hid, hbase, hterminal.1, hterminal.2⟩

/-- The transaction rows of a project after a snapshot was written: the row of the snapshot, and
those of other transactions.  What it replaced, if anything, had its base and was not committed. -/
structure Rewritten (rows rows' : List TransactionRow) (row : TransactionRow) : Prop where
  mem : row ∈ rows'
  others : ∀ other, other.transactionId ≠ row.transactionId → (other ∈ rows' ↔ other ∈ rows)
  only : ∀ other ∈ rows', other.transactionId = row.transactionId → other = row
  ids : (rows'.map TransactionRow.transactionId).Nodup
  replaced : ∀ old ∈ rows, old.transactionId = row.transactionId →
    old.baseRevision = row.baseRevision ∧
      ∀ stored, decodeTransactionRow old = .ok stored → stored.transaction.val.state ≠ .committed

theorem rewritten_of_insert {rows : List TransactionRow} {row : TransactionRow}
    (hids : (rows.map TransactionRow.transactionId).Nodup)
    (hnew : row.transactionId ∉ rows.map TransactionRow.transactionId) :
    Rewritten rows (rows ++ [row]) row := by
  have habsent : ∀ old ∈ rows, old.transactionId ≠ row.transactionId :=
    fun old hold hid => hnew (List.mem_map.mpr ⟨old, hold, hid⟩)
  refine ⟨by simp, ?_, ?_, nodup_map_snoc hids hnew, ?_⟩
  · intro other hother
    rw [List.mem_append, List.mem_singleton]
    exact or_iff_left fun h => hother (congrArg _ h)
  · intro other hmem hid
    rcases List.mem_append.mp hmem with hold | hrow
    · exact absurd hid (habsent other hold)
    · exact List.mem_singleton.mp hrow
  · intro old hold hid
    exact absurd hid (habsent old hold)

theorem rewritten_of_update {rows : List TransactionRow} {row old : TransactionRow} {expected : Int}
    (hown : ∀ other ∈ rows, other.projectId = row.projectId)
    (hids : (rows.map TransactionRow.transactionId).Nodup) (hold : old ∈ rows)
    (hid : old.transactionId = row.transactionId) (hbase : old.baseRevision = row.baseRevision)
    (hgeneration : (old.generation : Int) = expected)
    (hstate : ∀ stored, decodeTransactionRow old = .ok stored →
      stored.transaction.val.state ≠ .committed) :
    Rewritten rows (rows.map (updated row expected)) row := by
  have hunique : ∀ other ∈ rows, other.transactionId = row.transactionId → other = old :=
    fun other hother hsame => List.inj_on_of_nodup_map hids hother hold (hsame.trans hid.symm)
  have hat : updated row expected old = row := by
    unfold updated
    rw [if_pos]
    exact TransactionRow.isAt_iff.mpr ⟨hown old hold, hid, hgeneration, hbase⟩
  have hother : ∀ other, other.transactionId ≠ row.transactionId →
      updated row expected other = other := by
    intro other hne
    unfold updated
    rw [if_neg]
    intro h
    exact hne (TransactionRow.isAt_iff.mp h).2.1
  have hsameId : ∀ other, (updated row expected other).transactionId = other.transactionId := by
    intro other
    by_cases h : other.isAt row.projectId row.transactionId row.baseRevision expected
    · unfold updated
      rw [if_pos h, (TransactionRow.isAt_iff.mp h).2.1]
    · unfold updated
      rw [if_neg h]
  refine ⟨List.mem_map.mpr ⟨old, hold, hat⟩, ?_, ?_, ?_, ?_⟩
  · intro other hne
    constructor
    · intro hmem
      obtain ⟨before, hbefore, rfl⟩ := List.mem_map.mp hmem
      rw [hsameId] at hne
      rw [hother before hne]
      exact hbefore
    · intro hmem
      exact List.mem_map.mpr ⟨other, hmem, hother other hne⟩
  · intro other hmem hsame
    obtain ⟨before, hbefore, rfl⟩ := List.mem_map.mp hmem
    rw [hsameId] at hsame
    rw [hunique before hbefore hsame, hat]
  · have hmap : (rows.map (updated row expected)).map TransactionRow.transactionId =
        rows.map TransactionRow.transactionId := by
      rw [List.map_map]
      exact List.map_congr_left fun other _ => hsameId other
    rw [hmap]
    exact hids
  · intro other hmem hsame
    rw [hunique other hmem hsame]
    exact ⟨hbase, hstate⟩

/-- Writing a snapshot rewrites the transactions of its project and changes nothing else. -/
theorem writeTransaction_rewrites {transaction : Transaction} {body digest expectation : String}
    {expectedGeneration : Option Int} {generation : Nat}
    (h : (writeTransaction projectId transaction body digest expectedGeneration expectation).run s =
      (.ok generation, s'))
    (hids : ((s.database.of projectId).transactions.map TransactionRow.transactionId).Nodup) :
    s'.anchors = s.anchors ∧
      (∃ rows, s'.database.of projectId = { s.database.of projectId with transactions := rows } ∧
        Rewritten (s.database.of projectId).transactions rows
          (transactionRow projectId transaction generation body digest)) ∧
      ∀ other, other ≠ projectId → s'.database.of other = s.database.of other := by
  obtain ⟨hanchors, ⟨-, -, hinsert⟩ | ⟨expected, row, stored, -, hfind, hstored, hgeneration,
    htransition, hupdate⟩⟩ := writeTransaction_returns h
  · obtain ⟨hnew, hself, hothers⟩ := Database.insertTransaction_ok hinsert rfl
    exact ⟨hanchors, ⟨_, hself, rewritten_of_insert hids hnew⟩, hothers⟩
  · obtain ⟨hself, hothers⟩ := Database.updateTransaction_ok hupdate rfl
    obtain ⟨hid, hbase, hstate, -⟩ := transition_ok htransition
    obtain ⟨-, -, hstoredId, hstoredBase, -, -, hstoredGeneration⟩ :=
      decodeTransactionRow_ok.mp hstored
    have hfound := List.find?_some hfind
    rw [Bool.and_eq_true, beq_iff_eq, beq_iff_eq] at hfound
    have hrow : row ∈ (s.database.of projectId).transactions :=
      List.mem_filter.mpr ⟨List.mem_of_find?_eq_some hfind, by simpa using hfound.1⟩
    have hown : ∀ other ∈ (s.database.of projectId).transactions,
        other.projectId = projectId :=
      fun other hother => beq_iff_eq.mp (List.mem_filter.mp hother).2
    refine ⟨hanchors, ⟨_, hself, rewritten_of_update hown hids hrow hfound.2 ?_ ?_ ?_⟩, hothers⟩
    · exact hstoredBase.symm.trans hbase.symm
    · rw [← hgeneration, hstoredGeneration]
    · intro found hdecoded
      rw [hstored, Except.ok.injEq] at hdecoded
      rw [← hdecoded]
      exact hstate

theorem insertGenesis_returns {genesis : Revision} {body digest : String} {u : Unit}
    (h : (insertGenesis genesis body digest).run s = (.ok u, s'))
    (hproject : genesis.val.graph.projectId = projectId)
    (hnone : s.database.of projectId = {}) :
    s'.anchors = s.anchors ∧
      s'.database.of projectId =
        { projects := [⟨projectId, genesis.val.revisionHash, 0, 0⟩]
          revisions := [⟨projectId, 0, genesis.val.revisionHash, none, genesis.val.graphHash, "",
            recordHashOf projectId 0 genesis.val.revisionHash digest "", body, digest⟩] } ∧
      ∀ other, other ≠ projectId → s'.database.of other = s.database.of other := by
  subst hproject
  unfold insertGenesis at h
  dsimp only at h
  rw [transactionally_returns, handling_raising_returns] at h
  obtain ⟨_, m, hinsert, h⟩ := bind_returns.mp h
  obtain ⟨db₁, hdb₁, rfl⟩ := execute_returns.mp hinsert
  obtain ⟨db₂, hdb₂, rfl⟩ := execute_returns.mp h
  obtain ⟨-, hself₁, hothers₁⟩ := Database.insertProject_ok hdb₁ rfl
  obtain ⟨-, hself₂, hothers₂⟩ := Database.insertRevision_ok hdb₂ rfl
  dsimp only at hself₁ hself₂ hothers₁ hothers₂
  rw [hself₁, hnone] at hself₂
  refine ⟨rfl, hself₂, ?_⟩
  intro other hother
  rw [hothers₂ other hother, hothers₁ other hother]

end Calls

end Evleda.ProjectStore
