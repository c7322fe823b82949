/-
What each operation of the kernel does to the kernel.

One lemma per operation says how a call that returned changed the kernel: not at
all, or by the writes listed, made from values that passed the checks listed.
One more says that a call that raised changed nothing.  Together they give
`Operation.cases`, and no later proof looks into an operation again.

The one operation that could raise after its first write is `commit`, which
marks the transaction as committed last.  It does not: the record it builds
differs from the verified one only in its state and in a hash that was checked
when the revision was built.
-/
import Evleda.Kernel.Engine

namespace Evleda.Kernel

open Effect Outcome

section Operations

variable [UnicodeData] [Hashing] {k k' : DesignKernel}

omit [UnicodeData] [Hashing] in
theorem found_ok {α : Type} {failure : Failure} {value : Option α} {a : α} :
    found failure value = .ok a ↔ value = some a := by
  cases value with
  | none => simp [found]
  | some b => simp [found]

variable {t : Transaction}

variable {transactionId : String}

theorem getTransaction_ok :
    getTransaction k transactionId = .ok t ↔ k.transactions transactionId = some t :=
  found_ok

/-! ### Opening, staging and verifying -/

theorem beginTransaction_returns {transactionId baseRevision : String}
    (h : (beginTransaction transactionId baseRevision).run k = (.ok t, k')) :
    k' = k ∨ (k.transactions transactionId = none ∧
      openTransaction k transactionId baseRevision = .ok t ∧
      k' = { k with transactions := k.transactions.set transactionId t }) := by
  unfold beginTransaction at h
  simp only [check_bind_returns, run_read_bind, id] at h
  obtain ⟨-, -, -, -, h⟩ := h
  split at h
  · simp only [check_bind_returns, pure_returns] at h
    obtain ⟨-, -, -, rfl⟩ := h
    exact Or.inl rfl
  · rename_i hnone
    simp only [check_bind_returns, run_write_bind, pure_returns] at h
    obtain ⟨t', hopen, rfl, rfl⟩ := h
    exact Or.inr ⟨hnone, hopen, rfl⟩

theorem beginTransaction_opens {transactionId baseRevision : String}
    (hid : requireTransactionId transactionId = .ok ())
    (hbase : requireSha256 baseRevision "transaction base revision" = .ok ())
    (hnew : k.transactions transactionId = none)
    (hopen : openTransaction k transactionId baseRevision = .ok t) :
    (beginTransaction transactionId baseRevision).run k =
      (.ok t, { k with transactions := k.transactions.set transactionId t }) := by
  unfold beginTransaction
  simp only [check_bind_returns, run_read_bind, id, hnew]
  exact ⟨(), hid, (), hbase, t, hopen, rfl⟩

theorem beginTransaction_atomicAt (transactionId baseRevision : String) :
    AtomicAt k (beginTransaction transactionId baseRevision) := by
  unfold beginTransaction
  refine .check_bind fun _ _ => .check_bind fun _ _ => .read_bind ?_
  dsimp only [id]
  split
  · exact .check_bind fun _ _ => .pure _
  · exact .check_bind fun t _ => .of_returns rfl

/-- The kernel after a fresh command was staged. -/
def staged (k : DesignKernel) (command : Command) (t : Transaction) : DesignKernel :=
  { k with
    transactions := k.transactions.set command.val.transactionId t
    idempotency := k.idempotency.set
      (command.val.transactionId, command.val.idempotencyKey) command.val.commandHash
    commandIds := k.commandIds.set command.val.commandId command.val.commandHash }

/-- What a call of `stage` returns: the transaction again, or the extended one. -/
theorem stage_returns {command : Command} :
    (stage command).run k = (.ok t, k') ↔
      ∃ t₀, k.transactions command.val.transactionId = some t₀ ∧
        command.val.baseRevision = t₀.val.baseRevision ∧
        ((k.idempotency (command.val.transactionId, command.val.idempotencyKey) =
            some command.val.commandHash ∧ t = t₀ ∧ k' = k) ∨
          (k.idempotency (command.val.transactionId, command.val.idempotencyKey) = none ∧
            k.commandIds command.val.commandId = none ∧
            extend "command has no semantic effect" t₀ command = .ok t ∧
            k' = staged k command t)) := by
  unfold stage
  simp only [check_bind_returns, run_read_bind, id, getTransaction_ok, require_ok,
    exists_unit]
  refine exists_congr fun t₀ => and_congr_right fun _ => and_congr_right fun _ => ?_
  split
  · rename_i existing hkey
    simp only [check_bind_returns, pure_returns, require_ok, exists_unit, hkey,
      Option.some.injEq, reduceCtorEq, false_and, or_false]
  · rename_i hkey
    simp only [check_bind_returns, run_write_bind, pure_returns, require_ok,
      exists_unit, hkey, reduceCtorEq, false_and, false_or, true_and]
    refine and_congr_right fun _ => ?_
    constructor
    · rintro ⟨next, hnext, rfl, hk⟩
      exact ⟨hnext, hk⟩
    · rintro ⟨hnext, hk⟩
      exact ⟨t, hnext, rfl, hk⟩

theorem stage_atomicAt (command : Command) : AtomicAt k (stage command) := by
  unfold stage
  refine .read_bind (.check_bind fun t _ => .check_bind fun _ _ => ?_)
  dsimp only [id]
  split
  · exact .check_bind fun _ _ => .pure _
  · exact .check_bind fun _ _ => .check_bind fun _ _ => .of_returns rfl

def BatchProgress.accept (progress : BatchProgress) (transactionId : String) (command : Command)
    (next : Transaction) : BatchProgress where
  transaction := next
  acceptedIdempotency := progress.acceptedIdempotency ++
    [((transactionId, command.val.idempotencyKey), command.val.commandHash)]
  acceptedCommandIds := progress.acceptedCommandIds ++
    [(command.val.commandId, command.val.commandHash)]

theorem batchStep_ok {progress progress' : BatchProgress}
    {command : Command} :
    batchStep k transactionId progress command = .ok progress' ↔
      (k.idempotency (transactionId, command.val.idempotencyKey) = some command.val.commandHash ∧
        progress' = progress) ∨
      (k.idempotency (transactionId, command.val.idempotencyKey) = none ∧
        k.commandIds command.val.commandId = none ∧
        ∃ next, extend "stage batch command has no semantic effect" progress.transaction command =
            .ok next ∧
          progress' = progress.accept transactionId command next) := by
  unfold batchStep
  dsimp only
  split
  · rename_i existing hkey
    simp only [bind_ok, exists_unit, require_ok, pure_ok, hkey,
      Option.some.injEq, reduceCtorEq, false_and, or_false, @eq_comm _ progress']
  · rename_i hkey
    simp only [bind_ok, exists_unit, require_ok, pure_ok, hkey,
      reduceCtorEq, false_and, false_or, true_and, @eq_comm _ progress']
    rfl

/-- The kernel after a batch was published. -/
def batchStaged (k : DesignKernel) (transactionId : String) (progress : BatchProgress) :
    DesignKernel :=
  { k with
    transactions := k.transactions.set transactionId progress.transaction
    idempotency := k.idempotency.update progress.acceptedIdempotency
    commandIds := k.commandIds.update progress.acceptedCommandIds }

theorem stageBatch_returns {first : Command} {rest : List Command} :
    (stageBatch (first :: rest)).run k = (.ok t, k') ↔
      batchChecks first (first :: rest) = .ok () ∧
      ∃ t₀, k.transactions first.val.transactionId = some t₀ ∧
        first.val.baseRevision = t₀.val.baseRevision ∧
        ∃ progress, (first :: rest).foldlM (batchStep k first.val.transactionId)
            { transaction := t₀ } = .ok progress ∧ t = progress.transaction ∧
          k' = if progress.acceptedIdempotency = [] then k
            else batchStaged k first.val.transactionId progress := by
  unfold stageBatch
  simp only [check_bind_returns, run_read_bind, id, getTransaction_ok, require_ok,
    exists_unit]
  refine and_congr_right fun _ => exists_congr fun t₀ => and_congr_right fun _ =>
    and_congr_right fun _ => exists_congr fun progress => and_congr_right fun _ => ?_
  split
  · rename_i hnil
    rw [if_pos hnil, pure_returns]
  · rename_i _ _ hcons
    rw [if_neg (by rw [hcons]; simp)]
    exact pure_returns

theorem stageBatch_atomicAt (batch : List Command) : AtomicAt k (stageBatch batch) := by
  unfold stageBatch
  split
  · exact .check _
  · refine .check_bind fun _ _ => .read_bind (.check_bind fun t _ => .check_bind fun _ _ =>
      .check_bind fun progress _ => ?_)
    split
    · exact .pure _
    · exact .of_returns rfl

theorem recordVerification_returns {transactionId reportHash : String} {gatePassed : Bool}
    {digest : Option String}
    (h : (recordVerification transactionId reportHash gatePassed digest).run k = (.ok t, k')) :
    k' = k ∨ ∃ t₀, k.transactions transactionId = some t₀ ∧
      verifiedTransaction t₀ reportHash gatePassed t₀.val.previewDigest = .ok t ∧
      k' = { k with transactions := k.transactions.set transactionId t } := by
  unfold recordVerification at h
  simp only [check_bind_returns, run_read_bind, id, getTransaction_ok, require_ok,
    exists_unit] at h
  obtain ⟨t₀, ht₀, -, -, hsubject, h⟩ := h
  split at h
  · simp only [check_bind_returns, pure_returns] at h
    obtain ⟨-, -, -, rfl⟩ := h
    exact Or.inl rfl
  · simp only [check_bind_returns, run_write_bind, pure_returns, hsubject] at h
    obtain ⟨t', hverified, rfl, rfl⟩ := h
    exact Or.inr ⟨t₀, ht₀, hverified, rfl⟩

theorem recordVerification_records {transactionId reportHash : String} {gatePassed : Bool}
    {digest : Option String} {t t' : Transaction} (ht : k.transactions transactionId = some t)
    (hreport : requireSha256 reportHash "verification report hash" = .ok ())
    (hsubject : verificationSubject digest t = t.val.previewDigest)
    (hpreview : requireSha256 t.val.previewDigest "verified preview digest" = .ok ())
    (hstate : t.val.state ≠ .verified)
    (hverified : verifiedTransaction t reportHash gatePassed t.val.previewDigest = .ok t') :
    (recordVerification transactionId reportHash gatePassed digest).run k =
      (.ok t', { k with transactions := k.transactions.set transactionId t' }) := by
  unfold recordVerification
  simp only [check_bind_returns, run_read_bind, id, getTransaction_ok, require_ok,
    exists_unit]
  rw [← hsubject] at hpreview hverified
  refine ⟨t, ht, hreport, hpreview, hsubject, ?_⟩
  rw [if_neg hstate, check_bind_returns]
  exact ⟨t', hverified, rfl⟩

theorem recordVerification_atomicAt (transactionId reportHash : String) (gatePassed : Bool)
    (digest : Option String) :
    AtomicAt k (recordVerification transactionId reportHash gatePassed digest) := by
  unfold recordVerification
  refine .read_bind (.check_bind fun t _ => .check_bind fun _ _ => .check_bind fun _ _ =>
    .check_bind fun _ _ => ?_)
  split
  · exact .check_bind fun _ _ => .pure _
  · exact .check_bind fun _ _ => .of_returns rfl

def rolledBack (t : DesignTransaction) : DesignTransaction :=
  { t with
    state := .rolledBack
    verificationReportHash := none
    verificationPreviewDigest := none
    commitGatePassed := false }

theorem rollback_returns
    (h : (rollback transactionId).run k = (.ok t, k')) :
    k' = k ∨ ∃ t₀, k.transactions transactionId = some t₀ ∧ t₀.val.state ≠ .committed ∧
      t₀.replace rolledBack = .ok t ∧
      k' = { k with transactions := k.transactions.set transactionId t } := by
  unfold rollback at h
  simp only [check_bind_returns, run_read_bind, id, getTransaction_ok, require_ok,
    exists_unit] at h
  obtain ⟨t₀, ht₀, hstate, h⟩ := h
  split at h
  · rw [pure_returns] at h
    exact Or.inl h.2
  · simp only [check_bind_returns, run_write_bind, pure_returns] at h
    obtain ⟨t', hreplace, rfl, rfl⟩ := h
    exact Or.inr ⟨t₀, ht₀, hstate, hreplace, rfl⟩

theorem rollback_atomicAt (transactionId : String) : AtomicAt k (rollback transactionId) := by
  unfold rollback
  refine .read_bind (.check_bind fun t _ => .check_bind fun _ _ => ?_)
  split
  · exact .pure _
  · exact .check_bind fun _ _ => .of_returns rfl

/-! ### Committing -/

/-- The change that marks a transaction committed. -/
def committedAs (revisionHash : String) (t : DesignTransaction) : DesignTransaction :=
  { t with state := .committed, committedRevisionHash := some revisionHash }

theorem replace_ok {t t' : Transaction} {change : DesignTransaction → DesignTransaction}
    (h : t.replace change = .ok t') : t'.val = change t.val :=
  Checked.replace_ok (checking_onlyChecks _) h

theorem transaction_checks (t : Transaction) : t.val.checks = .ok () :=
  (checking_ok.mp t.accepted).1

theorem revision_checks (r : Revision) : r.val.checks = .ok () :=
  (checking_ok.mp r.accepted).1

theorem revision_hash_isSha256 (r : Revision) : requireSha256 r.val.revisionHash
    "committed revision hash" = .ok () := by
  have h := revision_checks r
  unfold DesignRevision.checks at h
  simp only [bind_ok, exists_unit] at h
  unfold requireSha256 at h ⊢
  rw [require_ok] at h ⊢
  exact h.1

theorem committedAs_accepted (t : Transaction) (r : Revision) :
    ∃ t', t.replace (committedAs r.val.revisionHash) = .ok t' := by
  have haccepted : (committedAs r.val.revisionHash t.val).checks = .ok () := by
    have h := transaction_checks t
    unfold DesignTransaction.checks at h ⊢
    simp only [bind_ok, exists_unit, require_ok, requireWhen_ok,
      forM_ok] at h ⊢
    obtain ⟨hid, hbase, hpreview, hreport, hverified, -, hids, hkeys, hbind, -⟩ := h
    refine ⟨hid, hbase, hpreview, hreport, hverified, ?_, hids, hkeys, hbind, ?_, ?_, ?_, ?_⟩
    · intro hash hhash
      have heq : hash = r.val.revisionHash := by simpa [committedAs] using hhash
      rw [heq]
      exact revision_hash_isSha256 r
    · intro hstate
      cases hstate
    · intro _ hnone
      cases hnone
    · intro hstate
      cases hstate
    · intro hstate
      exact absurd rfl hstate
  have hbuilt := checking_ok.mpr ⟨haccepted, rfl⟩
  exact ⟨⟨_, hbuilt⟩, Checked.make_ok.mpr hbuilt⟩

def published (k : DesignKernel) (transactionId : String) (verified : VerifiedCommitClaims)
    (r : Revision) (consumed : ConsumedCommitAuthorization) (t : Transaction) : DesignKernel :=
  { k with
    revisions := k.revisions.set r.val.revisionHash r
    head := r.val.revisionHash
    committedAuthorizations :=
      k.committedAuthorizations.set transactionId verified.claims.val.authorizationDigest
    committedAuthorizationEvidence :=
      k.committedAuthorizationEvidence.set transactionId consumed
    transactions := k.transactions.set transactionId t }

theorem publishCommit_returns {β : Type} (k : DesignKernel) (transactionId : String)
    (t : Transaction) (verified : VerifiedCommitClaims) (r : Revision)
    (consumed : ConsumedCommitAuthorization) (f : Unit → KernelM β) :
    ∃ t', t.replace (committedAs r.val.revisionHash) = .ok t' ∧
      (publishCommit transactionId t verified r consumed >>= f).run k =
        (f ()).run (published k transactionId verified r consumed t') := by
  obtain ⟨t', ht'⟩ := committedAs_accepted t r
  refine ⟨t', ht', ?_⟩
  have hreplace : t.replace (fun t => { t with
      state := .committed
      committedRevisionHash := some r.val.revisionHash }) = .ok t' := ht'
  unfold publishCommit
  simp only [hreplace]
  rfl

theorem commit_returns {verifier : Option CommitVerifier}
    {authorization : CommitAuthorization} {r : Revision} :
    (commit verifier transactionId authorization).run k = (.ok r, k') ↔
      ∃ t v verified, k.transactions transactionId = some t ∧ verifier = some v ∧
        v.verify authorization = .ok verified ∧
        ((t.val.state = .committed ∧ retriedCommit k transactionId t verified = .ok r ∧ k' = k) ∨
          (t.val.state ≠ .committed ∧ committedRevision k t verified = .ok r ∧
            ∃ consumed, v.consume verified = .ok consumed ∧
            ∃ t', t.replace (committedAs r.val.revisionHash) = .ok t' ∧
              k' = published k transactionId verified r consumed t')) := by
  unfold commit
  simp only [check_bind_returns, run_read_bind, id, getTransaction_ok, found_ok]
  have hstep : ∀ (t : Transaction) (v : CommitVerifier) (verified : VerifiedCommitClaims),
      (if t.val.state = .committed then check (retriedCommit k transactionId t verified)
        else (do
          let revision ← check (committedRevision k t verified)
          let consumed ← check (v.consume verified)
          publishCommit transactionId t verified revision consumed
          return revision : KernelM Revision)).run k = (.ok r, k') ↔
        ((t.val.state = .committed ∧ retriedCommit k transactionId t verified = .ok r ∧ k' = k) ∨
          (t.val.state ≠ .committed ∧ committedRevision k t verified = .ok r ∧
            ∃ consumed, v.consume verified = .ok consumed ∧
            ∃ t', t.replace (committedAs r.val.revisionHash) = .ok t' ∧
              k' = published k transactionId verified r consumed t')) := by
    intro t v verified
    by_cases hstate : t.val.state = .committed
    · rw [if_pos hstate, check_returns]
      simp [hstate]
    · rw [if_neg hstate, check_bind_returns]
      simp only [hstate, false_and, ne_eq, not_false_eq_true, true_and, false_or,
        check_bind_returns]
      constructor
      · rintro ⟨r', hr', consumed, hconsumed, hpublish⟩
        obtain ⟨t', ht', hrun⟩ := publishCommit_returns k transactionId t verified r' consumed
          (fun _ => (pure r' : KernelM Revision))
        rw [hrun, pure_returns] at hpublish
        obtain ⟨rfl, rfl⟩ := hpublish
        exact ⟨hr', consumed, hconsumed, t', ht', rfl⟩
      · rintro ⟨hr, consumed, hconsumed, t', ht', rfl⟩
        obtain ⟨t'', ht'', hrun⟩ := publishCommit_returns k transactionId t verified r consumed
          (fun _ => (pure r : KernelM Revision))
        obtain rfl : t' = t'' := Except.ok.inj (ht'.symm.trans ht'')
        exact ⟨r, hr, consumed, hconsumed, hrun⟩
  constructor
  · rintro ⟨t, ht, v, hv, verified, hverified, h⟩
    exact ⟨t, v, verified, ht, hv, hverified, (hstep t v verified).mp h⟩
  · rintro ⟨t, v, verified, ht, hv, hverified, h⟩
    exact ⟨t, ht, v, hv, verified, hverified, (hstep t v verified).mpr h⟩

theorem commit_atomicAt (verifier : Option CommitVerifier) (transactionId : String)
    (authorization : CommitAuthorization) :
    AtomicAt k (commit verifier transactionId authorization) := by
  unfold commit
  refine .read_bind (.check_bind fun t _ => .check_bind fun v _ => .check_bind fun verified _ => ?_)
  split
  · exact .check _
  · refine .check_bind fun r _ => .check_bind fun consumed _ => ?_
    obtain ⟨t', -, hrun⟩ := publishCommit_returns k transactionId t verified r consumed
      (fun _ => (pure r : KernelM Revision))
    exact .of_returns hrun

end Operations

end Evleda.Kernel
