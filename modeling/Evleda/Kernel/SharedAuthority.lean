/-
Kernels that share one commit authority.

Any number of kernels hold the verifier of one authority.  A call of the authority
is atomic, since it runs under the authority's lock, and so is a call of a kernel
other than `commit`.  A commit is not: it asks the authority twice, first to
verify and then to consume, and only its own kernel is locked in between.  So a
commit is two events here, and anything may happen to the authority and to the
other kernels between them.

Joint invariants tie the nonces the authority has seen consumed to the heads the
kernels have published.
-/
import Evleda.Kernel.AuthorityCalls

namespace Evleda.Kernel

open Effect

section Quiet

variable [UnicodeData] [Hashing]

/-! ### What a kernel's other operations leave alone -/

def Operation.isCommit : Operation → Bool
  | .commit .. => true
  | _ => false

/-- No revision was added and no transaction was committed. -/
structure Quiet (k k' : DesignKernel) : Prop where
  revisions : k'.revisions = k.revisions
  head : k'.head = k.head
  authorizations : k'.committedAuthorizations = k.committedAuthorizations
  committed : ∀ transactionId t, k'.transactions transactionId = some t →
    t.val.state = .committed → k.transactions transactionId = some t

theorem Quiet.refl (k : DesignKernel) : Quiet k k := ⟨rfl, rfl, rfl, fun _ _ h _ => h⟩

theorem Quiet.set {k k' : DesignKernel} {transactionId : String} {t : Transaction}
    (hrevisions : k'.revisions = k.revisions) (hhead : k'.head = k.head)
    (hauthorizations : k'.committedAuthorizations = k.committedAuthorizations)
    (htransactions : k'.transactions = k.transactions.set transactionId t)
    (hstate : t.val.state = .committed → k.transactions transactionId = some t) : Quiet k k' := by
  refine ⟨hrevisions, hhead, hauthorizations, ?_⟩
  intro other t' ht' hcommitted
  rw [htransactions] at ht'
  obtain ⟨rfl, rfl⟩ | ⟨-, hother⟩ := Dict.set_eq_some ht'
  · exact hstate hcommitted
  · exact hother

theorem quiet_of_run {α : Type} {k : DesignKernel} {x : KernelM α} (hatomic : AtomicAt k x)
    (hreturns : ∀ a k', x.run k = (.ok a, k') → Quiet k k') : Quiet k (x.run k).2 := by
  cases hrun : x.run k with
  | mk result k' =>
      cases result with
      | ok a => exact hreturns a k' hrun
      | error e =>
          obtain rfl := hatomic e k' hrun
          exact Quiet.refl _

/-- Only the transaction itself is left by no command at all. -/
theorem extendedMany_state {t t' : Transaction} (h : Relation.ReflTransGen Extended t t') :
    t' = t ∨ t'.val.state = .opened := by
  induction h with
  | refl => exact Or.inl rfl
  | tail _ hstep _ =>
      obtain ⟨message, command, hextend⟩ := hstep
      obtain ⟨g, digest, hopened, -, -, -, hval⟩ := extend_ok hextend
      refine Or.inr ?_
      rw [hval]
      exact hopened

theorem perform_quiet (k : DesignKernel) {op : Operation} (hop : op.isCommit = false) :
    Quiet k (perform k op) := by
  cases op with
  | beginTransaction transactionId baseRevision =>
      refine quiet_of_run (beginTransaction_atomicAt _ _) fun t k' h => ?_
      obtain rfl | ⟨-, hopen, rfl⟩ := beginTransaction_returns h
      · exact Quiet.refl _
      · obtain ⟨head, digest, -, -, -, hval⟩ := openTransaction_ok hopen
        refine Quiet.set rfl rfl rfl rfl ?_
        rw [hval]
        intro hstate
        cases hstate
  | stage command =>
      refine quiet_of_run (stage_atomicAt _) fun t k' h => ?_
      obtain ⟨t₀, ht₀, -, ⟨-, -, rfl⟩ | ⟨-, -, hextend, rfl⟩⟩ := stage_returns.mp h
      · exact Quiet.refl _
      · obtain ⟨g, digest, hopened, -, -, -, hval⟩ := extend_ok hextend
        refine Quiet.set rfl rfl rfl rfl ?_
        rw [hval, hopened]
        intro hstate
        cases hstate
  | stageBatch batch =>
      refine quiet_of_run (stageBatch_atomicAt _) fun t k' h => ?_
      cases batch with
      | nil =>
          unfold stageBatch at h
          cases h
      | cons first rest =>
          obtain ⟨-, t₀, ht₀, -, progress, hfold, rfl, rfl⟩ := stageBatch_returns.mp h
          split
          · exact Quiet.refl _
          · refine Quiet.set rfl rfl rfl rfl ?_
            intro hstate
            obtain heq | hopened := extendedMany_state (batch_extends hfold)
            · rw [heq]
              exact ht₀
            · exact absurd (hopened.symm.trans hstate) (by decide)
  | recordVerification transactionId reportHash gatePassed digest =>
      refine quiet_of_run (recordVerification_atomicAt _ _ _ _) fun t k' h => ?_
      obtain rfl | ⟨t₀, ht₀, hverified, rfl⟩ := recordVerification_returns h
      · exact Quiet.refl _
      · unfold verifiedTransaction at hverified
        rw [Outcome.bind_ok, Outcome.exists_unit] at hverified
        refine Quiet.set rfl rfl rfl rfl ?_
        rw [replace_ok hverified.2]
        intro hstate
        cases gatePassed <;> cases hstate
  | commit verifier transactionId authorization => cases hop
  | rollback transactionId =>
      refine quiet_of_run (rollback_atomicAt _) fun t k' h => ?_
      obtain rfl | ⟨t₀, ht₀, hnot, hreplace, rfl⟩ := rollback_returns h
      · exact Quiet.refl _
      · refine Quiet.set rfl rfl rfl rfl ?_
        rw [replace_ok hreplace]
        intro hstate
        cases hstate

end Quiet

/-! ### The system -/

section System

variable [UnicodeData] [Hashing] [KeyedHashing] {κ : Type} [DecidableEq κ]

/-- A commit that has verified its authorization and not yet asked to consume it. -/
structure Pending where
  transactionId : String
  authorization : CommitAuthorization
  verified : VerifiedCommitClaims

structure System (κ : Type) where
  authority : AuthorityState
  kernels : κ → DesignKernel
  /-- The commit that holds the lock of a kernel. -/
  pending : κ → Option Pending

inductive Event (κ : Type) where
  | register (clock : Instant) (approval : ReleaseApproval)
  | revoke (clock : Instant) (approvalId : String)
  | issue (clock : Instant) (request : AuthorityState.IssueRequest)
  | verify (clock : Instant) (authorization : CommitAuthorization)
  | operate (kernel : κ) (operation : Operation)
  | commitBegin (kernel : κ) (transactionId : String) (authorization : CommitAuthorization)
      (clock : Instant)
  | commitEnd (kernel : κ) (clock : Instant)

/-- The rest of a commit, with what the authority answers when asked to consume. -/
def finishCommit (s : System κ) (kernel : κ) (clock : Instant) (p : Pending) :
    Except Failure Revision × DesignKernel :=
  (commit (some ⟨fun _ => .ok p.verified, fun verified => (s.authority.consume clock verified).2⟩)
    p.transactionId p.authorization).run (s.kernels kernel)

/-- Whether a commit gets as far as asking to consume: the transaction is not committed yet and its
revision could be built. -/
def asksToConsume (k : DesignKernel) (p : Pending) : Bool :=
  match k.transactions p.transactionId with
  | none => false
  | some t =>
      if t.val.state = .committed then false
      else match committedRevision k t p.verified with
        | .ok _ => true
        | .error _ => false

/-- What an event does.  An event for a kernel whose lock is taken does not happen. -/
def System.step (s : System κ) : Event κ → System κ
  | .register clock approval =>
      { s with authority := (s.authority.registerReleaseApproval clock approval).1 }
  | .revoke clock approvalId =>
      { s with authority := (s.authority.revokeReleaseApproval clock approvalId).1 }
  | .issue clock request => { s with authority := (s.authority.issue clock request).1 }
  | .verify clock authorization =>
      { s with authority := (s.authority.verify clock authorization).1 }
  | .operate kernel operation =>
      if (s.pending kernel).isSome ∨ operation.isCommit = true then s
      else { s with kernels :=
        Function.update s.kernels kernel (perform (s.kernels kernel) operation) }
  | .commitBegin kernel transactionId authorization clock =>
      if (s.pending kernel).isSome ∨ (s.kernels kernel).transactions transactionId = none then s
      else
        let (authority, outcome) := s.authority.verify clock authorization
        { s with
          authority := authority
          pending := Function.update s.pending kernel
            (outcome.toOption.map (Pending.mk transactionId authorization)) }
  | .commitEnd kernel clock =>
      match s.pending kernel with
      | none => s
      | some p =>
          { authority := if asksToConsume (s.kernels kernel) p
              then (s.authority.consume clock p.verified).1 else s.authority
            kernels := Function.update s.kernels kernel (finishCommit s kernel clock p).2
            pending := Function.update s.pending kernel none }

/-- One new head: the kernel, the transaction as it was committed, the revision and the consumed
authorization. -/
structure Advance (κ : Type) where
  kernel : κ
  transactionId : String
  transaction : Transaction
  revision : Revision
  consumed : ConsumedCommitAuthorization

def Advance.nonce (a : Advance κ) : String := a.consumed.claims.val.nonce

def Advance.digest (a : Advance κ) : String := a.consumed.claims.val.authorizationDigest

def advance? (s : System κ) : Event κ → Option (Advance κ)
  | .commitEnd kernel clock => do
      let p ← s.pending kernel
      let t ← (s.kernels kernel).transactions p.transactionId
      if t.val.state = .committed then none
      else do
        let r ← (committedRevision (s.kernels kernel) t p.verified).toOption
        let consumed ← (s.authority.consume clock p.verified).2.toOption
        return ⟨kernel, p.transactionId, t, r, consumed⟩
  | _ => none

/-- The heads published along a history. -/
def advances (s : System κ) (events : List (Event κ)) : List (Advance κ) :=
  Replay.observed System.step advance? s events

omit [UnicodeData] [Hashing] [KeyedHashing] in
theorem toOption_eq_some {α : Type} {x : Except Failure α} {a : α} :
    x.toOption = some a ↔ x = .ok a := by
  cases x with
  | error e => simp [Except.toOption]
  | ok b => simp [Except.toOption]

/-! ### One event -/

/-- What an event that publishes a head has checked, and what it leaves behind. -/
structure Publishes (s : System κ) (e : Event κ) (a : Advance κ) (p : Pending) (clock : Instant)
    (t' : Transaction) : Prop where
  event : e = .commitEnd a.kernel clock
  pending : s.pending a.kernel = some p
  transactionId : a.transactionId = p.transactionId
  stored : (s.kernels a.kernel).transactions a.transactionId = some a.transaction
  revision : committedRevision (s.kernels a.kernel) a.transaction p.verified = .ok a.revision
  consumed : (s.authority.consume clock p.verified).2 = .ok a.consumed
  replaced : a.transaction.replace (committedAs a.revision.val.revisionHash) = .ok t'
  result : s.step e =
    { authority := (s.authority.consume clock p.verified).1
      kernels := Function.update s.kernels a.kernel
        (published (s.kernels a.kernel) a.transactionId p.verified a.revision a.consumed t')
      pending := Function.update s.pending a.kernel none }

theorem Publishes.consumes {s : System κ} {e : Event κ} {a : Advance κ} {p : Pending}
    {clock : Instant} {t' : Transaction} (h : Publishes s e a p clock t') :
    ∃ current, a.consumed.claims = p.verified.claims ∧
      AuthorityState.Verifies s.authority p.verified.claims clock current ∧
      current.releaseApproval = a.consumed.releaseApproval ∧
      s.authority.consumed a.nonce = none ∧
      (s.step e).authority = { s.authority with
        lastObservedAt := some clock
        consumed := s.authority.consumed.set a.nonce a.digest } := by
  rw [h.result]
  obtain ⟨failure, hfailure, -⟩ | ⟨consumed, current, hok, hclaims, hverifies, happroval, -, hfresh,
    heq⟩ := AuthorityState.consume_cases
      (Prod.mk.eta (p := s.authority.consume clock p.verified)).symm
  · rw [h.consumed] at hfailure
    cases hfailure
  · obtain rfl : a.consumed = consumed := Except.ok.inj (h.consumed.symm.trans hok)
    exact ⟨current, hclaims, hverifies, happroval, hfresh, heq⟩

theorem publishes_of_advance {s : System κ} {e : Event κ} {a : Advance κ}
    (h : advance? s e = some a) : ∃ p clock t', Publishes s e a p clock t' := by
  cases e with
  | commitEnd kernel clock =>
      unfold advance? at h
      simp only [Option.bind_eq_bind, Option.bind_eq_some_iff] at h
      obtain ⟨p, hp, t, ht, h⟩ := h
      split at h
      · cases h
      rename_i hstate
      simp only [Option.bind_eq_some_iff, toOption_eq_some, Option.pure_def,
        Option.some.injEq] at h
      obtain ⟨r, hr, consumed, hconsumed, rfl⟩ := h
      obtain ⟨t', ht'⟩ := committedAs_accepted t r
      have hrun : finishCommit s kernel clock p =
          (.ok r, published (s.kernels kernel) p.transactionId p.verified r consumed t') :=
        commit_returns.mpr ⟨t, _, p.verified, ht, rfl, rfl,
          Or.inr ⟨hstate, hr, consumed, hconsumed, t', ht', rfl⟩⟩
      have hasks : asksToConsume (s.kernels kernel) p = true := by
        unfold asksToConsume
        simp only [ht, if_neg hstate, hr]
      refine ⟨p, clock, t', rfl, hp, rfl, ht, hr, hconsumed, ht', ?_⟩
      unfold System.step
      simp only [hp, hrun, hasks, if_true]
  | register _ _ => cases h
  | revoke _ _ => cases h
  | issue _ _ => cases h
  | verify _ _ => cases h
  | operate _ _ => cases h
  | commitBegin _ _ _ _ => cases h

omit [DecidableEq κ] in
theorem finishCommit_stays {s : System κ} {kernel : κ} {clock : Instant} {p : Pending}
    (hp : s.pending kernel = some p) (h : advance? s (.commitEnd kernel clock) = none) :
    (finishCommit s kernel clock p).2 = s.kernels kernel := by
  cases hrun : finishCommit s kernel clock p with
  | mk outcome k' =>
      cases outcome with
      | error e => exact commit_atomicAt _ _ _ e k' hrun
      | ok r =>
          obtain ⟨t, v, verified, ht, hv, hverified, ⟨-, -, rfl⟩ | ⟨hstate, hr, consumed,
            hconsumed, -⟩⟩ := commit_returns.mp hrun
          · rfl
          · exfalso
            cases hv
            cases hverified
            unfold advance? at h
            simp only [Option.bind_eq_bind, hp, ht, Option.bind_some, if_neg hstate,
              toOption_eq_some.mpr hr, toOption_eq_some.mpr hconsumed] at h
            cases h

omit [DecidableEq κ] in
theorem consume_refused {s : System κ} {kernel : κ} {clock : Instant} {p : Pending}
    (hp : s.pending kernel = some p) (h : advance? s (.commitEnd kernel clock) = none)
    (hasks : asksToConsume (s.kernels kernel) p = true) :
    OnlyClock s.authority (s.authority.consume clock p.verified).1 := by
  unfold asksToConsume at hasks
  split at hasks
  · cases hasks
  rename_i t ht
  split at hasks
  · cases hasks
  rename_i hstate
  split at hasks
  · rename_i r hr
    obtain ⟨failure, -, hclock⟩ | ⟨consumed, current, hok, -⟩ :=
      AuthorityState.consume_cases (Prod.mk.eta (p := s.authority.consume clock p.verified)).symm
    · exact hclock
    · exfalso
      unfold advance? at h
      simp only [Option.bind_eq_bind, hp, ht, Option.bind_some, if_neg hstate,
        toOption_eq_some.mpr hr, toOption_eq_some.mpr hok] at h
      cases h
  · cases hasks

theorem step_authority (s : System κ) (e : Event κ) :
    OnlyClock s.authority (s.step e).authority ∨
    (∃ clock approval, (s.step e).authority = { s.authority with
      lastObservedAt := some clock
      approvalIdsSeen := insert approval.val.approvalId s.authority.approvalIdsSeen
      approvals := s.authority.approvals.set approval.val.approvalId approval }) ∨
    (∃ clock approvalId, (s.step e).authority = { s.authority with
      lastObservedAt := some clock
      approvalIdsSeen := insert approvalId s.authority.approvalIdsSeen
      approvals := s.authority.approvals.erase approvalId }) ∨
    (∃ clock request authorization approval, e = .issue clock request ∧
      (s.authority.issue clock request).2 = .ok authorization ∧
      s.authority.approvals request.approvalId = some approval ∧
      (∀ expiry ∈ approval.val.expiresAt, clock < expiry) ∧
      authorization.val.humanApprovalId = approval.val.approvalId ∧
      (s.step e).authority = { s.authority with
        lastObservedAt := some clock
        issued := s.authority.issued.set authorization.val.authorizationDigest approval }) ∨
    ∃ a clock, advance? s e = some a ∧ s.authority.consumed a.nonce = none ∧
      (s.step e).authority = { s.authority with
        lastObservedAt := some clock
        consumed := s.authority.consumed.set a.nonce a.digest } := by
  cases e with
  | register clock approval =>
      obtain hclock | heq := AuthorityState.registerReleaseApproval_cases
        (Prod.mk.eta (p := s.authority.registerReleaseApproval clock approval)).symm
      · exact Or.inl hclock
      · exact Or.inr (Or.inl ⟨clock, approval, heq⟩)
  | revoke clock approvalId =>
      obtain hclock | heq := AuthorityState.revokeReleaseApproval_cases
        (Prod.mk.eta (p := s.authority.revokeReleaseApproval clock approvalId)).symm
      · exact Or.inl hclock
      · exact Or.inr (Or.inr (Or.inl ⟨clock, approvalId, heq⟩))
  | issue clock request =>
      obtain ⟨failure, -, hclock⟩ | ⟨authorization, approval, hok, happroval, hexpiry, hid, -, heq⟩ :=
        AuthorityState.issue_cases (Prod.mk.eta (p := s.authority.issue clock request)).symm
      · exact Or.inl hclock
      · exact Or.inr (Or.inr (Or.inr (Or.inl
          ⟨clock, request, authorization, approval, rfl, hok, happroval, hexpiry, hid, heq⟩)))
  | verify clock authorization =>
      exact Or.inl (AuthorityState.verify_cases
        (Prod.mk.eta (p := s.authority.verify clock authorization)).symm).1
  | operate kernel operation =>
      refine Or.inl ?_
      simp only [System.step]
      split
      · exact OnlyClock.refl _
      · exact OnlyClock.refl _
  | commitBegin kernel transactionId authorization clock =>
      refine Or.inl ?_
      simp only [System.step]
      split
      · exact OnlyClock.refl _
      · exact (AuthorityState.verify_cases
          (Prod.mk.eta (p := s.authority.verify clock authorization)).symm).1
  | commitEnd kernel clock =>
      cases hadvance : advance? s (.commitEnd kernel clock) with
      | none =>
          refine Or.inl ?_
          simp only [System.step]
          split
          · exact OnlyClock.refl _
          · rename_i p hp
            split
            · rename_i hasks
              exact consume_refused hp hadvance hasks
            · exact OnlyClock.refl _
      | some a =>
          obtain ⟨p, clock, t', hpublishes⟩ := publishes_of_advance hadvance
          obtain ⟨current, -, -, -, hfresh, heq⟩ := hpublishes.consumes
          exact Or.inr (Or.inr (Or.inr (Or.inr ⟨a, clock, rfl, hfresh, heq⟩)))

theorem step_kernels {s : System κ} {e : Event κ} (h : advance? s e = none) (kernel : κ) :
    Quiet (s.kernels kernel) ((s.step e).kernels kernel) ∧
      Moves (s.kernels kernel) ((s.step e).kernels kernel) := by
  cases e with
  | operate kernel' operation =>
      simp only [System.step]
      split
      · exact ⟨Quiet.refl _, .stays⟩
      · rename_i hnot
        dsimp only
        by_cases hkernel : kernel = kernel'
        · subst hkernel
          rw [Function.update_self]
          have hcommit : operation.isCommit = false := by
            rw [← Bool.not_eq_true]
            exact fun hcommit => hnot (Or.inr hcommit)
          exact ⟨perform_quiet _ hcommit, perform_moves _ _⟩
        · rw [Function.update_of_ne hkernel]
          exact ⟨Quiet.refl _, .stays⟩
  | commitBegin kernel' transactionId authorization clock =>
      simp only [System.step]
      split
      · exact ⟨Quiet.refl _, .stays⟩
      · exact ⟨Quiet.refl _, .stays⟩
  | commitEnd kernel' clock =>
      simp only [System.step]
      split
      · exact ⟨Quiet.refl _, .stays⟩
      · rename_i p hp
        rw [finishCommit_stays hp h, Function.update_eq_self]
        exact ⟨Quiet.refl _, .stays⟩
  | register _ _ => exact ⟨Quiet.refl _, .stays⟩
  | revoke _ _ => exact ⟨Quiet.refl _, .stays⟩
  | issue _ _ => exact ⟨Quiet.refl _, .stays⟩
  | verify _ _ => exact ⟨Quiet.refl _, .stays⟩

/-- What the authority said of a commit that is under way, given what it had seen consumed. -/
structure Accepted (consumed : Dict String String) (p : Pending) : Prop where
  claims : p.verified.claims.val = p.authorization.val
  digest : authorizationDigestOf p.authorization.val = p.authorization.val.authorizationDigest
  approval : AuthorityState.MatchesApproval p.authorization.val p.verified.releaseApproval.val
  consumed : p.verified.previouslyConsumedAuthorizationDigest =
    consumed p.authorization.val.nonce

/-- A commit is under way since before the event, and the event published nothing for its kernel,
or the authority has just accepted it. -/
theorem step_pending {s : System κ} {e : Event κ} {kernel : κ} {p : Pending}
    (h : (s.step e).pending kernel = some p) :
    (s.pending kernel = some p ∧ ∀ a, advance? s e = some a → a.kernel ≠ kernel) ∨
      (advance? s e = none ∧ Accepted s.authority.consumed p) := by
  cases e with
  | operate kernel' operation =>
      simp only [System.step] at h
      split at h
      · exact Or.inl ⟨h, fun _ hnone => by cases hnone⟩
      · exact Or.inl ⟨h, fun _ hnone => by cases hnone⟩
  | commitBegin kernel' transactionId authorization clock =>
      simp only [System.step] at h
      split at h
      · exact Or.inl ⟨h, fun _ hnone => by cases hnone⟩
      · dsimp only at h
        by_cases hkernel : kernel = kernel'
        · subst hkernel
          rw [Function.update_self, Option.map_eq_some_iff] at h
          obtain ⟨verified, hverified, rfl⟩ := h
          obtain ⟨⟨_, _, hclock⟩, hverifies⟩ := AuthorityState.verify_cases
            (Prod.mk.eta (p := s.authority.verify clock authorization)).symm
          obtain ⟨hclaims, hverifies⟩ := hverifies verified (toOption_eq_some.mp hverified)
          refine Or.inr ⟨rfl, hclaims, ?_, ?_, ?_⟩
          · rw [← hclaims]
            exact hverifies.digest
          · rw [← hclaims]
            exact hverifies.approval
          · rw [hverifies.consumed, hclaims, hclock]
        · rw [Function.update_of_ne hkernel] at h
          exact Or.inl ⟨h, fun _ hnone => by cases hnone⟩
  | commitEnd kernel' clock =>
      simp only [System.step] at h
      split at h
      · rename_i hnone
        refine Or.inl ⟨h, ?_⟩
        intro a hadvance
        obtain ⟨p', clock', t', hpublishes⟩ := publishes_of_advance hadvance
        have hpending := hpublishes.pending
        cases hpublishes.event
        rw [hnone] at hpending
        cases hpending
      · dsimp only at h
        by_cases hkernel : kernel = kernel'
        · subst hkernel
          rw [Function.update_self] at h
          cases h
        · rw [Function.update_of_ne hkernel] at h
          refine Or.inl ⟨h, ?_⟩
          intro a hadvance
          obtain ⟨p', clock', t', hpublishes⟩ := publishes_of_advance hadvance
          cases hpublishes.event
          exact fun heq => hkernel heq.symm
  | register _ _ => exact Or.inl ⟨h, fun _ hnone => by cases hnone⟩
  | revoke _ _ => exact Or.inl ⟨h, fun _ hnone => by cases hnone⟩
  | issue _ _ => exact Or.inl ⟨h, fun _ hnone => by cases hnone⟩
  | verify _ _ => exact Or.inl ⟨h, fun _ hnone => by cases hnone⟩

/-! ### Every history -/

/-- The authorization was issued along the history, while its approval was registered and had not
expired. -/
def IssuedIn (s₀ : System κ) (events : List (Event κ)) (authorization : CommitAuthorization)
    (approval : ReleaseApproval) : Prop :=
  ∃ before clock request after, events = before ++ .issue clock request :: after ∧
    ((replay System.step s₀ before).authority.issue clock request).2 = .ok authorization ∧
    (replay System.step s₀ before).authority.approvals approval.val.approvalId = some approval ∧
    (∀ expiry ∈ approval.val.expiresAt, clock < expiry) ∧
    authorization.val.humanApprovalId = approval.val.approvalId

theorem IssuedIn.snoc {s₀ : System κ} {events : List (Event κ)}
    {authorization : CommitAuthorization} {approval : ReleaseApproval}
    (h : IssuedIn s₀ events authorization approval) (e : Event κ) :
    IssuedIn s₀ (events ++ [e]) authorization approval := by
  obtain ⟨before, clock, request, after, rfl, hrest⟩ := h
  exact ⟨before, clock, request, after ++ [e], by simp, hrest⟩

/-- A commit is under way for the kernel.  If it is about a transaction that was committed with the
same authorization, then the authority knew the nonce to be consumed. -/
structure Underway (published : List (Advance κ)) (kernel : κ) (p : Pending) : Prop where
  claims : p.verified.claims.val = p.authorization.val
  digest : authorizationDigestOf p.authorization.val = p.authorization.val.authorizationDigest
  approval : AuthorityState.MatchesApproval p.authorization.val p.verified.releaseApproval.val
  consumed : ∀ a ∈ published, a.kernel = kernel → a.transactionId = p.transactionId →
    a.digest = p.authorization.val.authorizationDigest →
    p.verified.previouslyConsumedAuthorizationDigest = some a.digest

/-- What ties the authority to the kernels after a history. -/
structure Joint (roots : κ → Revision) (s₀ : System κ) (events : List (Event κ)) (s : System κ) :
    Prop where
  kernels : ∀ kernel, Consistent (roots kernel) (s.kernels kernel)
  keyed : ∀ approvalId approval, s.authority.approvals approvalId = some approval →
    approval.val.approvalId = approvalId
  issued : ∀ digest approval, s.authority.issued digest = some approval →
    ∃ authorization : CommitAuthorization, authorization.val.authorizationDigest = digest ∧
      IssuedIn s₀ events authorization approval
  pending : ∀ kernel p, s.pending kernel = some p → Underway (advances s₀ events) kernel p
  bound : ∀ a ∈ advances s₀ events, authorizationDigestOf a.consumed.claims.val = a.digest ∧
    ∃ verified, verified.claims = a.consumed.claims ∧
      matchCommitAuthorization a.transaction.val verified = .ok ()
  consumed : ∀ nonce digest, s.authority.consumed nonce = some digest ↔
    ∃ a ∈ advances s₀ events, a.nonce = nonce ∧ a.digest = digest
  nonces : ((advances s₀ events).map Advance.nonce).Nodup
  committed : ∀ kernel transactionId t,
    (s.kernels kernel).transactions transactionId = some t → t.val.state = .committed →
    ∃ a ∈ advances s₀ events, a.kernel = kernel ∧ a.transactionId = transactionId ∧
      t.val = committedAs a.revision.val.revisionHash a.transaction.val ∧
      (s.kernels kernel).revisions a.revision.val.revisionHash = some a.revision ∧
      (s.kernels kernel).committedAuthorizations transactionId = some a.digest

section Invariant

variable {roots : κ → Revision} {s₀ : System κ} {events : List (Event κ)} {s : System κ}
  {e : Event κ} {a : Advance κ}

theorem Joint.step_keyed (h : Joint roots s₀ events s) (approvalId : String)
    (approval : ReleaseApproval)
    (happroval : (s.step e).authority.approvals approvalId = some approval) :
    approval.val.approvalId = approvalId := by
  obtain ⟨_, _, heq⟩ | ⟨_, approval', heq⟩ | ⟨_, revoked, heq⟩ | ⟨_, _, _, _, -, -, -, -, -, heq⟩ |
    ⟨_, _, -, -, heq⟩ := step_authority s e
  all_goals rw [heq] at happroval
  · exact h.keyed _ _ happroval
  · obtain ⟨rfl, rfl⟩ | ⟨-, hold⟩ := Dict.set_eq_some happroval
    · rfl
    · exact h.keyed _ _ hold
  · exact h.keyed _ _ (Dict.erase_eq_some happroval).2
  · exact h.keyed _ _ happroval
  · exact h.keyed _ _ happroval

theorem Joint.step_issued (h : Joint roots s₀ events s) (hs : s = replay System.step s₀ events)
    (digest : String) (approval : ReleaseApproval)
    (hissued : (s.step e).authority.issued digest = some approval) :
    ∃ authorization : CommitAuthorization, authorization.val.authorizationDigest = digest ∧
      IssuedIn s₀ (events ++ [e]) authorization approval := by
  have hold : s.authority.issued digest = some approval →
      ∃ authorization : CommitAuthorization, authorization.val.authorizationDigest = digest ∧
        IssuedIn s₀ (events ++ [e]) authorization approval := by
    intro hissued
    obtain ⟨authorization, hdigest, hin⟩ := h.issued digest approval hissued
    exact ⟨authorization, hdigest, hin.snoc e⟩
  obtain ⟨_, _, heq⟩ | ⟨_, _, heq⟩ | ⟨_, _, heq⟩ | ⟨clock, request, authorization, approval', rfl,
    hok, happroval, hexpiry, hid, heq⟩ | ⟨_, _, -, -, heq⟩ := step_authority s e
  all_goals rw [heq] at hissued
  · exact hold hissued
  · exact hold hissued
  · exact hold hissued
  · obtain ⟨rfl, rfl⟩ | ⟨-, hissued⟩ := Dict.set_eq_some hissued
    · refine ⟨authorization, rfl, events, clock, request, [], rfl, hs ▸ hok, ?_, hexpiry, hid⟩
      rw [← hs, h.keyed _ _ happroval]
      exact happroval
    · exact hold hissued
  · exact hold hissued

theorem advances_snoc (hs : s = replay System.step s₀ events) :
    advances s₀ (events ++ [e]) = advances s₀ events ++ (advance? s e).toList := by
  unfold advances
  rw [Replay.observed_snoc, hs]

theorem Joint.step_pending (hfree : Hashing.CollisionFree) (h : Joint roots s₀ events s)
    (hs : s = replay System.step s₀ events) (kernel : κ) (p : Pending)
    (hp : (s.step e).pending kernel = some p) :
    Underway (advances s₀ (events ++ [e])) kernel p := by
  obtain ⟨hold, hother⟩ | ⟨hnone, haccepted⟩ := Kernel.step_pending hp
  · obtain ⟨hclaims, hdigest, happroval, hconsumed⟩ := h.pending kernel p hold
    refine ⟨hclaims, hdigest, happroval, ?_⟩
    intro a ha hkernel
    rw [advances_snoc hs, List.mem_append, Option.mem_toList] at ha
    rcases ha with ha | ha
    · exact hconsumed a ha hkernel
    · exact absurd hkernel (hother a ha)
  · refine ⟨haccepted.claims, haccepted.digest, haccepted.approval, ?_⟩
    rw [advances_snoc hs, hnone, Option.toList_none, List.append_nil]
    intro a ha _ _ hdigest
    -- the digest is that of the committed claims, so the nonce is theirs
    have hnonce : a.nonce = p.authorization.val.nonce := by
      refine (sameClaims_of_digest hfree ?_).nonce
      rw [(h.bound a ha).1, hdigest, haccepted.digest]
    rw [haccepted.consumed, ← hnonce]
    exact (h.consumed a.nonce a.digest).mpr ⟨a, ha, rfl, rfl⟩

/-- An event that publishes nothing consumes nothing. -/
theorem step_consumed_of_none (hnone : advance? s e = none) :
    (s.step e).authority.consumed = s.authority.consumed := by
  obtain ⟨_, _, heq⟩ | ⟨_, _, heq⟩ | ⟨_, _, heq⟩ | ⟨_, _, _, _, -, -, -, -, -, heq⟩ |
    ⟨_, _, hsome, -, -⟩ := step_authority s e
  · rw [heq]
  · rw [heq]
  · rw [heq]
  · rw [heq]
  · rw [hnone] at hsome
    cases hsome

theorem Joint.committed_of_quiet (h : Joint roots s₀ events s) {kernel : κ} {k' : DesignKernel}
    (hquiet : Quiet (s.kernels kernel) k') {transactionId : String} {t : Transaction}
    (ht : k'.transactions transactionId = some t) (hstate : t.val.state = .committed) :
    ∃ a ∈ advances s₀ events, a.kernel = kernel ∧ a.transactionId = transactionId ∧
      t.val = committedAs a.revision.val.revisionHash a.transaction.val ∧
      k'.revisions a.revision.val.revisionHash = some a.revision ∧
      k'.committedAuthorizations transactionId = some a.digest := by
  rw [hquiet.revisions, hquiet.authorizations]
  exact h.committed kernel transactionId t (hquiet.committed transactionId t ht hstate) hstate

theorem Joint.committed_of_published (hfree : Hashing.CollisionFree)
    (h : Joint roots s₀ events s) {p : Pending} {clock : Instant} {t' : Transaction}
    (hpublishes : Publishes s e a p clock t') {transactionId : String} {t : Transaction}
    (ht : (published (s.kernels a.kernel) a.transactionId p.verified a.revision a.consumed
      t').transactions transactionId = some t) (hstate : t.val.state = .committed) :
    ∃ a' ∈ advances s₀ events ++ [a], a'.kernel = a.kernel ∧ a'.transactionId = transactionId ∧
      t.val = committedAs a'.revision.val.revisionHash a'.transaction.val ∧
      (published (s.kernels a.kernel) a.transactionId p.verified a.revision a.consumed
        t').revisions a'.revision.val.revisionHash = some a'.revision ∧
      (published (s.kernels a.kernel) a.transactionId p.verified a.revision a.consumed
        t').committedAuthorizations transactionId = some a'.digest := by
  obtain ⟨current, hclaims, -⟩ := hpublishes.consumes
  obtain ⟨rfl, rfl⟩ | ⟨hother, hold⟩ := Dict.set_eq_some ht
  · refine ⟨a, by simp, rfl, rfl, replace_ok hpublishes.replaced, Dict.set_self .., ?_⟩
    unfold Advance.digest
    rw [hclaims]
    exact Dict.set_self ..
  · obtain ⟨a', ha', hkernel, hid, hhash, hrevision, hdigest⟩ :=
      h.committed a.kernel transactionId t hold hstate
    refine ⟨a', List.mem_append_left _ ha', hkernel, hid, hhash, ?_, ?_⟩
    · obtain ⟨line, hline, hsound⟩ := (h.kernels a.kernel).revisions
      have hnew := committedRevision_fresh hfree hline hsound hpublishes.revision
      show (s.kernels a.kernel).revisions.set _ _ _ = _
      rw [Dict.set_of_ne _ _ ?_, hrevision]
      intro heq
      rw [heq, hnew] at hrevision
      cases hrevision
    · show (s.kernels a.kernel).committedAuthorizations.set _ _ _ = _
      rw [Dict.set_of_ne _ _ hother, hdigest]

/-- **One event keeps the joint invariant.** -/
theorem Joint.step (hfree : Hashing.CollisionFree) (hs : s = replay System.step s₀ events)
    (h : Joint roots s₀ events s) (e : Event κ) :
    Joint roots s₀ (events ++ [e]) (s.step e) := by
  cases hadvance : advance? s e with
  | none =>
      have hlist : advances s₀ (events ++ [e]) = advances s₀ events := by
        rw [advances_snoc hs, hadvance, Option.toList_none, List.append_nil]
      refine ⟨?_, h.step_keyed, h.step_issued hs, h.step_pending hfree hs, hlist ▸ h.bound, ?_,
        hlist ▸ h.nonces, ?_⟩
      · intro kernel
        exact (h.kernels kernel).moves hfree (step_kernels hadvance kernel).2
      · rw [step_consumed_of_none hadvance, hlist]
        exact h.consumed
      · intro kernel transactionId t ht hstate
        rw [hlist]
        exact h.committed_of_quiet (step_kernels hadvance kernel).1 ht hstate
  | some a =>
      have hlist : advances s₀ (events ++ [e]) = advances s₀ events ++ [a] := by
        rw [advances_snoc hs, hadvance, Option.toList_some]
      obtain ⟨p, clock, t', hpublishes⟩ := publishes_of_advance hadvance
      obtain ⟨current, hclaims, hverifies, -, hfresh, hauthority⟩ := hpublishes.consumes
      have hconsumed : (s.step e).authority.consumed =
          s.authority.consumed.set a.nonce a.digest := by rw [hauthority]
      have hkernels : ∀ kernel, (s.step e).kernels kernel =
          if kernel = a.kernel then published (s.kernels a.kernel) a.transactionId p.verified
            a.revision a.consumed t' else s.kernels kernel := by
        intro kernel
        rw [hpublishes.result]
        exact Function.update_apply ..
      refine ⟨?_, h.step_keyed, h.step_issued hs, h.step_pending hfree hs, ?_, ?_, ?_, ?_⟩
      · intro kernel
        rw [hkernels]
        split
        · rename_i heq
          rw [heq]
          exact (h.kernels a.kernel).published hfree hpublishes.stored hpublishes.revision
            hpublishes.replaced
        · exact h.kernels kernel
      · intro a' ha'
        rw [hlist, List.mem_append, List.mem_singleton] at ha'
        rcases ha' with ha' | rfl
        · exact h.bound a' ha'
        · obtain ⟨_, _, _, -, -, -, hmatch, -⟩ := committedRevision_ok hpublishes.revision
          refine ⟨?_, p.verified, hclaims.symm, hmatch⟩
          unfold Advance.digest
          rw [hclaims]
          exact hverifies.digest
      · intro nonce digest
        rw [hconsumed, hlist]
        simp only [List.mem_append, List.mem_singleton]
        constructor
        · intro hin
          obtain ⟨rfl, rfl⟩ | ⟨-, hold⟩ := Dict.set_eq_some hin
          · exact ⟨a, Or.inr rfl, rfl, rfl⟩
          · obtain ⟨a', ha', hboth⟩ := (h.consumed nonce digest).mp hold
            exact ⟨a', Or.inl ha', hboth⟩
        · rintro ⟨a', ha' | rfl, rfl, rfl⟩
          · have hold := (h.consumed a'.nonce a'.digest).mpr ⟨a', ha', rfl, rfl⟩
            rw [Dict.set_of_ne, hold]
            intro heq
            rw [heq, hfresh] at hold
            cases hold
          · exact Dict.set_self ..
      · rw [hlist, List.map_append, List.nodup_append]
        refine ⟨h.nonces, by simp, ?_⟩
        rintro nonce hin _ hself rfl
        rw [List.map_singleton, List.mem_singleton] at hself
        obtain ⟨a', ha', rfl⟩ := List.mem_map.mp hin
        have hold := (h.consumed a'.nonce a'.digest).mpr ⟨a', ha', rfl, rfl⟩
        rw [hself, hfresh] at hold
        cases hold
      · intro kernel transactionId t ht hstate
        rw [hkernels] at ht ⊢
        rw [hlist]
        split at ht
        · rename_i heq
          rw [if_pos heq, heq]
          exact h.committed_of_published hfree hpublishes ht hstate
        · rename_i hne
          rw [if_neg hne]
          obtain ⟨a', ha', hrest⟩ := h.committed kernel transactionId t ht hstate
          exact ⟨a', List.mem_append_left _ ha', hrest⟩

end Invariant

end System

end Evleda.Kernel
