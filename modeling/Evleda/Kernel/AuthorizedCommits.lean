/-
Every head of every kernel was authorized, once.

From the joint invariant: a nonce is consumed by one commit, a head is published
only with a nonce of its own that was issued under a registered approval, and the
consumed claims are about exactly the transaction that became the head.

A commit may be asked for again.  While the authority still accepts the
authorization, the retry returns the revision of the first commit and writes
nothing.  After the authorization has expired the authority refuses it before the
kernel gets to look at its own record; the last section runs into that.
-/
import Evleda.Kernel.Batch
import Evleda.Kernel.SharedAuthority

namespace Evleda.Kernel

open Effect Outcome

section Authorized

variable [UnicodeData] [Hashing] [KeyedHashing] {κ : Type} [DecidableEq κ]

/-- Fresh kernels around a fresh authority. -/
structure Start (s₀ : System κ) : Prop where
  approvals : s₀.authority.approvals = Dict.empty
  issued : s₀.authority.issued = Dict.empty
  consumed : s₀.authority.consumed = Dict.empty
  kernels : ∀ kernel, ∃ g, DesignKernel.init g = .ok (s₀.kernels kernel)
  pending : ∀ kernel, s₀.pending kernel = none

/-- The claims bind what was committed on a kernel. -/
structure Binds (k : DesignKernel) (c : CommitClaims) (t : DesignTransaction)
    (r : DesignRevision) : Prop where
  transactionId : c.transactionId = t.transactionId
  base : c.baseRevision = k.head ∧ t.baseRevision = k.head ∧ r.parentRevision = some k.head
  preview : c.previewDigest = t.previewDigest ∧ r.approvalPreviewDigest = some c.previewDigest
  commands : c.commandHashes = t.commandHashes ∧ r.commandHashes = c.commandHashes
  graph : r.graph = t.stagedGraph ∧ r.graphHash = c.prospectiveGraphSha256
  report : t.verificationReportHash = some c.verificationReportHash ∧
    r.verificationReportHash = some c.verificationReportHash

omit [KeyedHashing] in
theorem binds_of_committedRevision {root : Revision} {k : DesignKernel}
    (hconsistent : Consistent root k) {transactionId : String} {t : Transaction}
    (ht : k.transactions transactionId = some t) {verified : VerifiedCommitClaims} {r : Revision}
    (h : committedRevision k t verified = .ok r) : Binds k verified.claims.val t.val r.val := by
  obtain ⟨parent, graph, graphHash, -, hbase, -, hmatch, hparent, hgraph, hgraphHash, hval⟩ :=
    committedRevision_ok h
  obtain ⟨-, hfaithful⟩ := hconsistent.transactions _ _ ht
  obtain ⟨line, hline, -⟩ := hconsistent.revisions
  have hparentHash : parent.val.revisionHash = k.head := ((hline.stored _ _).mp hparent).2
  obtain rfl : t.val.stagedGraph = graph := Except.ok.inj (hfaithful.normal.symm.trans hgraph)
  obtain ⟨commandDigest, graphHash', -, hstaged, hbindings⟩ := matchCommitAuthorization_ok.mp hmatch
  obtain rfl : graphHash = graphHash' := Except.ok.inj (hgraphHash.symm.trans hstaged)
  simp only [commitBindings, List.mem_cons, List.not_mem_nil, or_false, forall_eq_or_imp, forall_eq,
    decide_eq_true_eq] at hbindings
  obtain ⟨-, hclaimsBase, -, htransaction, hcommands, -, hpreview, hprospective, hreport, -⟩ :=
    hbindings
  rw [hval]
  exact ⟨htransaction, ⟨hclaimsBase.trans hbase, hbase, congrArg some hparentHash⟩,
    ⟨hpreview, rfl⟩, ⟨hcommands, hcommands.symm⟩, ⟨rfl, hprospective.symm⟩, ⟨hreport, hreport⟩⟩

theorem joint_of_start (hfree : Hashing.CollisionFree) {s₀ : System κ} (hstart : Start s₀) :
    ∃ roots : κ → Revision, ∀ events, Joint roots s₀ events (replay System.step s₀ events) := by
  have hroots : ∀ kernel, ∃ root, Consistent root (s₀.kernels kernel) := by
    intro kernel
    obtain ⟨g, hinit⟩ := hstart.kernels kernel
    obtain ⟨root, -, hconsistent⟩ := init_consistent hinit
    exact ⟨root, hconsistent⟩
  choose roots hconsistent using hroots
  refine ⟨roots, ?_⟩
  intro events
  induction events using List.reverseRecOn with
  | nil =>
      refine ⟨hconsistent, ?_, ?_, ?_, ?_, ?_, List.nodup_nil, ?_⟩
      · intro approvalId approval happroval
        rw [Replay.nil, hstart.approvals] at happroval
        cases happroval
      · intro digest approval hissued
        rw [Replay.nil, hstart.issued] at hissued
        cases hissued
      · intro kernel p hp
        rw [Replay.nil, hstart.pending] at hp
        cases hp
      · intro a ha
        cases ha
      · intro nonce digest
        rw [Replay.nil, hstart.consumed]
        constructor
        · intro hnone
          cases hnone
        · rintro ⟨a, ha, -⟩
          cases ha
      · intro kernel transactionId t ht
        obtain ⟨g, hinit⟩ := hstart.kernels kernel
        unfold DesignKernel.init at hinit
        simp only [bind_ok, pure_ok] at hinit
        obtain ⟨_, _, _, _, _, _, _, _, heq⟩ := hinit
        rw [Replay.nil, ← heq] at ht
        cases ht
  | append_singleton events e ih =>
      rw [Replay.snoc]
      exact ih.step hfree rfl e

/-! ### A commit asked for again -/

section Retry

variable {roots : κ → Revision} {s₀ : System κ} {events : List (Event κ)} {s : System κ}
  {kernel : κ} {clock : Instant} {p : Pending} {t : Transaction}

/-- A retry publishes nothing and does not ask to consume. -/
theorem retry_quiet (clock : Instant) (hp : s.pending kernel = some p)
    (ht : (s.kernels kernel).transactions p.transactionId = some t)
    (hstate : t.val.state = .committed) :
    (s.step (.commitEnd kernel clock)).kernels = s.kernels ∧
      (s.step (.commitEnd kernel clock)).authority = s.authority := by
  have hnone : advance? s (.commitEnd kernel clock) = none := by
    simp only [advance?, Option.bind_eq_bind, hp, ht, Option.bind_some, if_pos hstate]
  have hasks : asksToConsume (s.kernels kernel) p = false := by
    unfold asksToConsume
    simp only [ht, if_pos hstate]
  simp only [System.step, hp, hasks, Bool.false_eq_true, if_false, finishCommit_stays hp hnone,
    Function.update_eq_self, and_self]

theorem Joint.retry_returns (hfree : Hashing.CollisionFree) (h : Joint roots s₀ events s)
    (hp : s.pending kernel = some p)
    (ht : (s.kernels kernel).transactions p.transactionId = some t)
    (hstate : t.val.state = .committed)
    (hsame : (s.kernels kernel).committedAuthorizations p.transactionId =
      some p.authorization.val.authorizationDigest) :
    ∃ a ∈ advances s₀ events, a.kernel = kernel ∧ a.transactionId = p.transactionId ∧
      a.digest = p.authorization.val.authorizationDigest ∧
      (finishCommit s kernel clock p).1 = .ok a.revision := by
  obtain ⟨a, ha, hkernel, hid, hval, hrevision, hdigest⟩ :=
    h.committed kernel p.transactionId t ht hstate
  have hdigests : a.digest = p.authorization.val.authorizationDigest :=
    Option.some.inj (hdigest.symm.trans hsame)
  refine ⟨a, ha, hkernel, hid, hdigests, ?_⟩
  obtain ⟨hclaims, hown, happroval, hconsumed⟩ := h.pending kernel p hp
  obtain ⟨hbound, verified, hverified, hmatch⟩ := h.bound a ha
  have hclaimsSame : SameClaims p.verified.claims.val verified.claims.val := by
    refine sameClaims_of_digest hfree ?_
    rw [hclaims, hverified, hbound, hown, hdigests]
  have hagain : matchCommitAuthorization t.val p.verified = .ok () := by
    rw [hval]
    exact match_of_same hmatch hclaimsSame (hclaims ▸ happroval)
  have hretried : retriedCommit (s.kernels kernel) p.transactionId t p.verified =
      .ok a.revision := by
    unfold retriedCommit
    simp only [bind_ok, exists_unit, require_ok, hclaims]
    refine ⟨hagain, ⟨hsame, ?_⟩, a.revision.val.revisionHash, found_ok.mpr ?_,
      found_ok.mpr hrevision⟩
    · rw [hconsumed a ha hkernel hid hdigests, hdigests]
    · rw [hval]
      rfl
  have hrun : finishCommit s kernel clock p = (.ok a.revision, s.kernels kernel) :=
    commit_returns.mpr ⟨t, _, p.verified, ht, rfl, rfl, Or.inl ⟨hstate, hretried, rfl⟩⟩
  rw [hrun]

end Retry

/-- **Along every history of kernels that share an authority, a nonce is consumed at most once, and
a kernel's head moves only with a nonce of its own, issued before under a registered approval, whose
claims bind what was committed.**  A retry with the same authorization that the authority accepts
returns the first commit's revision; a retry writes to no kernel, and to the authority at most what
was seen of the clock. -/
theorem commits_authorized (hfree : Hashing.CollisionFree) (s₀ : System κ) (hstart : Start s₀)
    (events : List (Event κ)) :
    ((advances s₀ events).map Advance.nonce).Nodup ∧
    (∀ nonce digest, (replay System.step s₀ events).authority.consumed nonce = some digest ↔
      ∃ a ∈ advances s₀ events, a.nonce = nonce ∧ a.digest = digest) ∧
    (∀ before e after kernel, events = before ++ e :: after →
      ((replay System.step s₀ (before ++ [e])).kernels kernel).head ≠
        ((replay System.step s₀ before).kernels kernel).head →
      ∃ a, advance? (replay System.step s₀ before) e = some a ∧ a.kernel = kernel ∧
        ((replay System.step s₀ (before ++ [e])).kernels kernel).head =
          a.revision.val.revisionHash ∧
        (replay System.step s₀ before).authority.consumed a.nonce = none ∧
        (replay System.step s₀ (before ++ [e])).authority.consumed a.nonce = some a.digest ∧
        Binds ((replay System.step s₀ before).kernels kernel) a.consumed.claims.val
          a.transaction.val a.revision.val ∧
        ∃ authorization : CommitAuthorization,
          IssuedIn s₀ before authorization a.consumed.releaseApproval ∧
          authorization.val.nonce = a.nonce ∧
          authorization.val.authorizationDigest = a.digest ∧
          SameClaims authorization.val a.consumed.claims.val) ∧
    (∀ kernel clock p t, (replay System.step s₀ events).pending kernel = some p →
      ((replay System.step s₀ events).kernels kernel).transactions p.transactionId = some t →
      t.val.state = .committed →
      ((replay System.step s₀ events).step (.commitEnd kernel clock)).kernels =
        (replay System.step s₀ events).kernels ∧
      ((replay System.step s₀ events).step (.commitEnd kernel clock)).authority =
        (replay System.step s₀ events).authority ∧
      (((replay System.step s₀ events).kernels kernel).committedAuthorizations p.transactionId =
          some p.authorization.val.authorizationDigest →
        ∃ a ∈ advances s₀ events, a.kernel = kernel ∧ a.transactionId = p.transactionId ∧
          a.digest = p.authorization.val.authorizationDigest ∧
          (finishCommit (replay System.step s₀ events) kernel clock p).1 = .ok a.revision)) ∧
    ∀ kernel transactionId authorization clock,
      ((replay System.step s₀ events).step
        (.commitBegin kernel transactionId authorization clock)).kernels =
        (replay System.step s₀ events).kernels ∧
      OnlyClock (replay System.step s₀ events).authority
        ((replay System.step s₀ events).step
          (.commitBegin kernel transactionId authorization clock)).authority := by
  obtain ⟨roots, hjoint⟩ := joint_of_start hfree hstart
  refine ⟨(hjoint events).nonces, (hjoint events).consumed, ?_, ?_, ?_⟩
  · intro before e after kernel _ hmoved
    rw [Replay.snoc] at hmoved ⊢
    have h := hjoint before
    generalize hs : replay System.step s₀ before = s at h hmoved ⊢
    cases hadvance : advance? s e with
    | none => exact absurd (step_kernels hadvance kernel).1.head hmoved
    | some a =>
        obtain ⟨p, clock, t', hpublishes⟩ := publishes_of_advance hadvance
        obtain ⟨current, hclaims, hverifies, happroval, hfresh, hauthority⟩ := hpublishes.consumes
        have hkernel : a.kernel = kernel := by
          by_contra hne
          refine hmoved ?_
          rw [hpublishes.result]
          dsimp only
          rw [Function.update_of_ne (Ne.symm hne)]
        subst hkernel
        obtain ⟨authorization, hdigest, hissued⟩ := h.issued _ _ hverifies.issued
        have hsame : SameClaims authorization.val a.consumed.claims.val := by
          refine sameClaims_of_digest hfree ?_
          have hchecks := (checking_ok.mp authorization.accepted).1
          unfold authorizationChecks at hchecks
          simp only [bind_ok, exists_unit, require_ok] at hchecks
          rw [hchecks.2.1, hdigest, hclaims, hverifies.digest]
        refine ⟨a, rfl, rfl, ?_, hfresh, ?_, ?_, authorization, happroval ▸ hissued,
          hsame.nonce, ?_, hsame⟩
        · rw [hpublishes.result]
          dsimp only
          rw [Function.update_self]
          rfl
        · rw [hauthority]
          exact Dict.set_self ..
        · rw [hclaims]
          exact binds_of_committedRevision (h.kernels a.kernel) hpublishes.stored
            hpublishes.revision
        · unfold Advance.digest
          rw [hdigest, hclaims]
  · intro kernel clock p t hp ht hstate
    obtain ⟨hkernels, hauthority⟩ := retry_quiet clock hp ht hstate
    exact ⟨hkernels, hauthority, (hjoint events).retry_returns hfree hp ht hstate⟩
  · intro kernel transactionId authorization clock
    simp only [System.step]
    split
    · exact ⟨rfl, OnlyClock.refl _⟩
    · exact ⟨rfl, (AuthorityState.verify_cases (Prod.mk.eta
        (p := (replay System.step s₀ events).authority.verify clock authorization)).symm).1⟩

/-- What the authority answers a kernel at a time. -/
def verifierAt (clock : Instant) (a : AuthorityState) : CommitVerifier :=
  ⟨fun authorization => (a.verify clock authorization).2,
    fun verified => (a.consume clock verified).2⟩

theorem commit_refused {k : DesignKernel} {transactionId : String} {t : Transaction}
    {a a' : AuthorityState} {authorization : CommitAuthorization} {clock : Instant}
    {failure : Failure} (ht : k.transactions transactionId = some t)
    (hverify : a.verify clock authorization = (a', .error failure)) :
    (commit (some (verifierAt clock a)) transactionId authorization).run k =
      (.error failure, k) := by
  have hfound : getTransaction k transactionId = .ok t := getTransaction_ok.mpr ht
  unfold commit
  simp only [run_read_bind, id, run_check_bind, hfound, found, verifierAt, hverify]

end Authorized

/-! ### One commit -/

section Sample

attribute [local instance] asciiData

variable [Hashing]

/-- The same with a passing report on its preview. -/
def verifiedNet : DesignTransaction :=
  { netTransaction (plainDigest 'f') with
    state := .verified
    verificationReportHash := some (plainDigest '5')
    commitGatePassed := true
    verificationPreviewDigest := some (plainDigest 'f') }

theorem verifiedNet_checks : verifiedNet.checks = .ok () := by
  unfold DesignTransaction.checks
  simp only [bind_ok, exists_unit, require_ok, requireWhen_ok,
    forM_ok]
  have hid : requireId "t1" "transaction ID" = .ok () := by decide
  refine ⟨hid, plainDigest_isSha256 rfl _, fun _ => plainDigest_isSha256 rfl _, ?_, ?_, ?_⟩
  · simpa [verifiedNet] using plainDigest_isSha256 (c := '5') rfl _
  · simpa [verifiedNet] using plainDigest_isSha256 (c := 'f') rfl _
  · simp [verifiedNet, netTransaction, emptyTransaction, netCommand]

/-- The transaction after the net was verified. -/
def checkedNet : Transaction := ⟨verifiedNet, checking_ok.mpr ⟨verifiedNet_checks, rfl⟩⟩

theorem verifiedNet_commandHashes (hnet : NetDigests) :
    verifiedNet.commandHashes = [plainDigest 'd'] := by
  show [netCommand.val.commandHash] = _
  rw [netCommand_commandHash hnet]

theorem commitCommandHashesDigest_net (hnet : NetDigests) :
    commitCommandHashesDigest [plainDigest 'd'] = .ok (plainDigest '2') := by
  unfold commitCommandHashesDigest
  simp only [bind_ok, exists_unit, require_ok, forM_ok,
    pure_ok]
  refine ⟨by simp, ?_, hnet netEntries[7] (List.getElem_mem _)⟩
  intro hash hhash
  rw [List.mem_singleton.mp hhash]
  exact plainDigest_isSha256 rfl _

theorem netRevision_checks (hnet : NetDigests) : DesignRevision.checks
    ⟨plainDigest '4', some (plainDigest 'b'), 1, netGraph, plainDigest 'e', [plainDigest 'd'],
      some (plainDigest '5'), some (plainDigest 'f')⟩ = .ok () := by
  have hsha : ∀ c label, Text.isLowerHex c = true →
      requireSha256 (plainDigest c) label = .ok () := fun _ _ h => plainDigest_isSha256 h _
  unfold DesignRevision.checks
  simp only [bind_ok, exists_unit, require_ok, forM_ok,
    Option.toList_some, List.mem_singleton, forall_eq]
  exact ⟨hsha '4' _ rfl, hsha 'b' _ rfl, hsha 'e' _ rfl, _, netGraph_graphHash hnet, rfl,
    hsha 'd' _ rfl, hsha '5' _ rfl, hsha 'f' _ rfl, by simp, by simp⟩

theorem revisionHashOf_net (hnet : NetDigests) :
    revisionHashOf (plainDigest 'b') 1 (plainDigest 'e') [plainDigest 'd']
      (some (plainDigest '5')) (plainDigest 'f') = plainDigest '4' :=
  hnet netEntries[9] (List.getElem_mem _)

end Sample

section Run

open AuthorityState (Authentic seenAt verifyLocked_accepts verifyLocked_expired verify_of_locked
  consume_of_locked)

attribute [local instance] asciiData netHashing

@[reducible] def plainSealing : KeyedHashing where
  hmac _ _ := plainDigest '8'

attribute [local instance] plainSealing

/-- The kernel after the net was staged, and after it was verified. -/
def stagedKernel : DesignKernel := staged openedKernel netCommand stagedNet

def verifiedKernel : DesignKernel :=
  { stagedKernel with transactions := stagedKernel.transactions.set "t1" checkedNet }

theorem perform_stage_net : perform openedKernel (.stage netCommand) = stagedKernel := by
  have hstored : openedKernel.transactions "t1" = some openedTransaction :=
    Dict.set_self Dict.empty "t1" openedTransaction
  have hrun : (stage netCommand).run openedKernel = (.ok stagedNet, stagedKernel) :=
    stage_returns.mpr ⟨openedTransaction, hstored, rfl,
      Or.inr ⟨rfl, rfl, extend_net netHashing_digest _, rfl⟩⟩
  rw [perform, hrun]

theorem perform_verify_net : perform stagedKernel
    (.recordVerification "t1" (plainDigest '5') true none) = verifiedKernel := by
  have hstored : stagedKernel.transactions "t1" = some stagedNet :=
    Dict.set_self openedKernel.transactions "t1" stagedNet
  have hverified : verifiedTransaction stagedNet (plainDigest '5') true (plainDigest 'f') =
      .ok checkedNet := by
    unfold verifiedTransaction
    rw [bind_ok]
    exact ⟨(), rfl, Checked.make_ok.mpr checkedNet.accepted⟩
  have hrun : (recordVerification "t1" (plainDigest '5') true).run stagedKernel =
      (.ok checkedNet, verifiedKernel) :=
    recordVerification_records hstored (plainDigest_isSha256 rfl _) rfl (plainDigest_isSha256 rfl _)
      (by decide) hverified
  rw [perform, hrun]

/-! #### The authority -/

theorem netApproval_checks : ReleaseApprovalEvidence.checks
    ⟨"a1", "r1", "release", plainDigest '1', plainDigest '6', "user:owner", 0, none,
      plainDigest '5', plainDigest 'f', true⟩ = .ok () := by
  unfold ReleaseApprovalEvidence.checks
  simp only [bind_ok, exists_unit, require_ok]
  exact ⟨by decide, by decide, by decide, trivial, plainDigest_isSha256 rfl _,
    plainDigest_isSha256 rfl _, by decide, by simp, plainDigest_isSha256 rfl _,
    plainDigest_isSha256 rfl _, trivial⟩

def netApproval : ReleaseApproval := ⟨_, checking_ok.mpr ⟨netApproval_checks, rfl⟩⟩

def netRequest : AuthorityState.IssueRequest where
  projectId := "demo"
  baseRevision := plainDigest 'b'
  headRevision := plainDigest 'b'
  transactionId := "t1"
  commandHashes := [plainDigest 'd']
  previewDigest := plainDigest 'f'
  prospectiveGraphSha256 := plainDigest 'e'
  approvalId := "a1"
  nonce := plainDigest '7'

theorem netClaims_values : validateAuthorizationValues netClaims = .ok () := by
  have hsha : ∀ c label, Text.isLowerHex c = true →
      requireSha256 (plainDigest c) label = .ok () := fun _ _ h => plainDigest_isSha256 h _
  unfold validateAuthorizationValues
  simp only [bind_ok, exists_unit, require_ok, forM_ok,
    List.mem_cons, List.not_mem_nil, or_false, forall_eq_or_imp, forall_eq]
  refine ⟨by decide, by decide, ⟨by decide, by decide +kernel, by decide, by decide, by decide,
    by decide, by decide, by decide⟩, ⟨hsha 'b' _ rfl, hsha 'b' _ rfl, hsha '2' _ rfl,
    hsha 'f' _ rfl, hsha 'e' _ rfl, hsha '5' _ rfl, hsha 'f' _ rfl, hsha '1' _ rfl,
    hsha '6' _ rfl, hsha '7' _ rfl, hsha '3' _ rfl, hsha '8' _ rfl⟩, rfl, by simp [netClaims],
    by decide, plainDigest '2', commitCommandHashesDigest_net netHashing_digest, rfl⟩

theorem authorizationDigestOf_net : authorizationDigestOf netClaims = plainDigest '3' :=
  netHashing_digest netEntries[8] (List.getElem_mem _)

theorem netClaims_checks : authorizationChecks netClaims = .ok () := by
  unfold authorizationChecks
  simp only [bind_ok, exists_unit, require_ok, authorizationDigestOf_net]
  exact ⟨netClaims_values, rfl, rfl⟩

def netAuthorization : CommitAuthorization := ⟨netClaims, checking_ok.mpr ⟨netClaims_checks, rfl⟩⟩

/-- The authority before anything happened to it, with the approval, and with the authorization. -/
def netAuthority : AuthorityState where
  keyId := "key"
  secret := []

def approvingAuthority : AuthorityState :=
  { netAuthority with
    lastObservedAt := some 0
    approvalIdsSeen := insert "a1" ∅
    approvals := Dict.empty.set "a1" netApproval }

def issuingAuthority : AuthorityState :=
  { approvingAuthority with issued := Dict.empty.set (plainDigest '3') netApproval }

theorem register_net :
    (netAuthority.registerReleaseApproval 0 netApproval).1 = approvingAuthority := by
  unfold AuthorityState.registerReleaseApproval
  rw [(AuthorityState.observing_of_forward rfl (by simp [netAuthority])).1 approvingAuthority
    netApproval]
  simp only [bind_ok, exists_unit, require_ok, pure_ok]
  refine ⟨by simp [netAuthority], rfl, by decide, by simp [netApproval], rfl⟩

theorem sealed_net : approvingAuthority.sealed
    (approvingAuthority.issuedClaims 0 netRequest netApproval (plainDigest '2')) = netClaims := by
  have hdigest : authorizationDigestOf
      (approvingAuthority.issuedClaims 0 netRequest netApproval (plainDigest '2')) =
      plainDigest '3' := authorizationDigestOf_net
  unfold AuthorityState.sealed
  rw [hdigest]
  rfl

theorem issue_net : approvingAuthority.issue 0 netRequest =
    (issuingAuthority, .ok netAuthorization) := by
  unfold AuthorityState.issue
  rw [if_neg (by decide), if_neg (by decide)]
  refine (AuthorityState.observing_of_forward rfl (by simp [approvingAuthority])).1 _ _ ?_
  have hstored : approvingAuthority.approvals "a1" = some netApproval :=
    Dict.set_self Dict.empty "a1" netApproval
  have hsubject : netApproval.val.subjectDigest = AuthorityState.releaseSubject (plainDigest 'b')
      (plainDigest 'f') (some (plainDigest '5')) :=
    (netHashing_digest netEntries[6] (List.getElem_mem _)).symm
  rw [bind_ok]
  refine ⟨(), by decide, ?_⟩
  split
  · rename_i hnone
    exact absurd (hstored.symm.trans hnone) (Option.some_ne_none _)
  rename_i approval happroval
  obtain rfl : netApproval = approval := Option.some.inj (hstored.symm.trans happroval)
  unfold AuthorityState.issueUnder
  simp only [bind_ok, exists_unit, require_ok, pure_ok]
  refine ⟨hsubject, rfl, by simp [netApproval], plainDigest '2',
    commitCommandHashesDigest_net netHashing_digest, plainDigest_isSha256 rfl _, netAuthorization,
    Checked.make_ok.mpr ?_, ?_, rfl⟩
  · exact (congrArg (checking authorizationChecks) sealed_net).trans netAuthorization.accepted
  · intro existing hexisting
    cases hexisting

def readClaims : CommitAuthorizationClaims :=
  ⟨netClaims, checking_ok.mpr ⟨netClaims_values, rfl⟩⟩

theorem netClaims_authentic {s : AuthorityState} (hkey : s.keyId = "key") :
    Authentic s netClaims := by
  refine ⟨⟨rfl, rfl, hkey.symm⟩, authorizationDigestOf_net, ?_, rfl⟩
  rw [authorizationDigestOf_net]
  rfl

/-- What the authority that issued the authorization says of it before it expires. -/
theorem verifyLocked_net {s : AuthorityState} (hkey : s.keyId = "key")
    (hissued : s.issued (plainDigest '3') = some netApproval)
    (happroval : s.approvals "a1" = some netApproval) {now : Instant} (hfrom : 0 ≤ now)
    (hnow : now < 30000000) : s.verifyLocked readClaims now =
      .ok ⟨readClaims, netApproval, now, s.consumed (plainDigest '7')⟩ := by
  have hmatch : AuthorityState.matchRegisteredApproval netClaims netApproval.val netApproval.val
      now = .ok () := by
    unfold AuthorityState.matchRegisteredApproval
    simp only [bind_ok, exists_unit, require_ok]
    exact ⟨⟨rfl, trivial, rfl, ⟨rfl, rfl⟩, rfl, trivial, rfl, rfl, rfl, rfl, rfl, rfl, rfl, rfl⟩,
      by simp [netApproval], by simp [netApproval]⟩
  exact verifyLocked_accepts (netClaims_authentic hkey) hfrom hnow hissued happroval hmatch

/-! #### The commit -/

/-- The authority after it verified the authorization, and after it saw it consumed. -/
def verifyingAuthority : AuthorityState := seenAt 1 issuingAuthority

def consumingAuthority : AuthorityState :=
  { seenAt 2 issuingAuthority with
    consumed := Dict.empty.set (plainDigest '7') (plainDigest '3') }

/-- What the verifier answers first. -/
def answered : VerifiedCommitClaims := ⟨readClaims, netApproval, 1, none⟩

theorem issuingAuthority_issued : issuingAuthority.issued (plainDigest '3') = some netApproval :=
  Dict.set_self Dict.empty (plainDigest '3') netApproval

theorem issuingAuthority_approvals : issuingAuthority.approvals "a1" = some netApproval :=
  Dict.set_self Dict.empty "a1" netApproval

theorem verify_net : issuingAuthority.verify 1 netAuthorization =
    (verifyingAuthority, .ok answered) := by
  have hforward : ∀ previous ∈ issuingAuthority.lastObservedAt, previous ≤ 1 := by
    simp [issuingAuthority, approvingAuthority]
  have hlocked : verifyingAuthority.verifyLocked readClaims 1 = .ok answered :=
    verifyLocked_net rfl issuingAuthority_issued issuingAuthority_approvals (by decide) (by decide)
  have hread : readClaims.val = netAuthorization.val := rfl
  rw [verify_of_locked hread rfl hforward]
  exact congrArg (Prod.mk verifyingAuthority) hlocked

theorem consume_net : verifyingAuthority.consume 2 answered =
    (consumingAuthority, .ok ⟨readClaims, netApproval, 2⟩) := by
  have hforward : ∀ previous ∈ verifyingAuthority.lastObservedAt, previous ≤ 2 := by
    simp [verifyingAuthority, seenAt]
  have hlocked : (seenAt 2 verifyingAuthority).verifyLocked answered.claims 2 =
      .ok ⟨readClaims, netApproval, 2, none⟩ :=
    verifyLocked_net rfl issuingAuthority_issued issuingAuthority_approvals (by decide) (by decide)
  exact (consume_of_locked rfl hforward hlocked rfl).trans rfl

theorem match_net : matchCommitAuthorization verifiedNet answered = .ok () := by
  refine matchCommitAuthorization_ok.mpr ⟨plainDigest '2', plainDigest 'e', ?_,
    netGraph_graphHash netHashing_digest, ?_⟩
  · rw [verifiedNet_commandHashes netHashing_digest]
    exact commitCommandHashesDigest_net netHashing_digest
  · have hsubject : plainDigest '1' = AuthorityState.releaseSubject (plainDigest 'b')
        (plainDigest 'f') (some (plainDigest '5')) :=
      (netHashing_digest netEntries[6] (List.getElem_mem _)).symm
    simp only [commitBindings, List.mem_cons, List.not_mem_nil, or_false, forall_eq_or_imp,
      forall_eq, decide_eq_true_eq, verifiedNet_commandHashes netHashing_digest]
    exact ⟨rfl, rfl, rfl, rfl, rfl, rfl, rfl, rfl, rfl, ⟨rfl, rfl⟩, hsubject, ⟨rfl, rfl, rfl⟩, rfl,
      rfl, ⟨rfl, rfl⟩, rfl, rfl, rfl, rfl⟩

/-- The revision that the commit makes. -/
def netRevision : Revision := ⟨_, checking_ok.mpr ⟨netRevision_checks netHashing_digest, rfl⟩⟩

theorem committedRevision_net : committedRevision verifiedKernel checkedNet answered =
    .ok netRevision := by
  have hhead : headRevision verifiedKernel = .ok genesisRevision :=
    found_ok.mpr (Dict.set_self Dict.empty (plainDigest 'b') genesisRevision)
  have hchanged : plainDigest 'e' ≠ plainDigest 'a' := fun h =>
    absurd (plainDigest_inj h) (by decide)
  refine committedRevision_makes rfl rfl ⟨rfl, rfl⟩ match_net hhead
    (netGraph_graphHash netHashing_digest) ⟨List.cons_ne_nil _ _, hchanged⟩ netGraph_normalized ?_
  show _ = DesignRevision.mk (revisionHashOf (plainDigest 'b') 1 (plainDigest 'e')
    verifiedNet.commandHashes (some (plainDigest '5')) (plainDigest 'f')) _ _ _ _
    verifiedNet.commandHashes _ _
  rw [verifiedNet_commandHashes netHashing_digest, revisionHashOf_net netHashing_digest]
  rfl

/-! #### The history -/

/-- One kernel on the empty design, with an authority of its own. -/
def netSystem : System Unit := ⟨netAuthority, fun _ => emptyKernel, fun _ => none⟩

/-- The net is staged and verified, its release is approved and authorized, and the commit has
verified the authorization. -/
def netEvents : List (Event Unit) :=
  [.operate () (.beginTransaction "t1" (plainDigest 'b')),
    .operate () (.stage netCommand),
    .operate () (.recordVerification "t1" (plainDigest '5') true none),
    .register 0 netApproval,
    .issue 0 netRequest,
    .commitBegin () "t1" netAuthorization 1]

/-- The commit holds the kernel. -/
def committingSystem : System Unit :=
  ⟨verifyingAuthority, fun _ => verifiedKernel, fun _ => some ⟨"t1", netAuthorization, answered⟩⟩

theorem step_operate {a : AuthorityState} {k k' : DesignKernel} {op : Operation}
    (hop : op.isCommit = false) (hperform : perform k op = k') :
    System.step ⟨a, fun _ => k, fun _ => none⟩ (.operate () op) =
      ⟨a, fun _ => k', fun _ => none⟩ := by
  have hfree : ¬ ((none : Option Pending).isSome ∨ op.isCommit = true) := by
    rw [hop]
    decide
  simp only [System.step, if_neg hfree, hperform]
  rfl

theorem step_commitBegin {a a' : AuthorityState} {k : DesignKernel} {t : Transaction}
    {transactionId : String} {authorization : CommitAuthorization} {clock : Instant}
    {outcome : Except Failure VerifiedCommitClaims} (ht : k.transactions transactionId = some t)
    (hverify : a.verify clock authorization = (a', outcome)) :
    System.step ⟨a, fun _ => k, fun _ => none⟩ (.commitBegin () transactionId authorization clock) =
      ⟨a', fun _ => k,
        fun _ => outcome.toOption.map (Pending.mk transactionId authorization)⟩ := by
  have hfree : ¬ ((none : Option Pending).isSome ∨ k.transactions transactionId = none) := by
    rw [ht]
    simp
  simp only [System.step, if_neg hfree, hverify]
  rfl

theorem verifiedKernel_transaction : verifiedKernel.transactions "t1" = some checkedNet :=
  Dict.set_self stagedKernel.transactions "t1" checkedNet

theorem step_register {a a' : AuthorityState} {k : DesignKernel} {clock : Instant}
    {approval : ReleaseApproval} (h : (a.registerReleaseApproval clock approval).1 = a') :
    System.step ⟨a, fun _ => k, fun _ => none⟩ (.register clock approval) =
      (⟨a', fun _ => k, fun _ => none⟩ : System Unit) := by
  simp only [System.step, h]

theorem step_issue {a a' : AuthorityState} {k : DesignKernel} {clock : Instant}
    {request : AuthorityState.IssueRequest} {outcome : Except Failure CommitAuthorization}
    (h : a.issue clock request = (a', outcome)) :
    System.step ⟨a, fun _ => k, fun _ => none⟩ (.issue clock request) =
      (⟨a', fun _ => k, fun _ => none⟩ : System Unit) := by
  simp only [System.step, h]

theorem replay_netEvents : replay System.step netSystem netEvents = committingSystem := by
  have hbegin : perform emptyKernel (.beginTransaction "t1" (plainDigest 'b')) = openedKernel := by
    rw [perform, begin_empty]
  unfold netEvents netSystem
  rw [Replay.cons (step_operate rfl hbegin), Replay.cons (step_operate rfl perform_stage_net),
    Replay.cons (step_operate rfl perform_verify_net), Replay.cons (step_register register_net),
    Replay.cons (step_issue issue_net),
    Replay.cons (step_commitBegin verifiedKernel_transaction verify_net)]
  rfl

/-- The head that the commit publishes. -/
def netAdvance : Advance Unit :=
  ⟨(), "t1", checkedNet, netRevision, ⟨readClaims, netApproval, 2⟩⟩

theorem advance_publishes {s : System Unit} {p : Pending} {t : Transaction} {r : Revision}
    {clock : Instant} {consumed : ConsumedCommitAuthorization} (hp : s.pending () = some p)
    (ht : (s.kernels ()).transactions p.transactionId = some t) (hstate : t.val.state ≠ .committed)
    (hr : committedRevision (s.kernels ()) t p.verified = .ok r)
    (hconsumed : (s.authority.consume clock p.verified).2 = .ok consumed) :
    advance? s (.commitEnd () clock) = some ⟨(), p.transactionId, t, r, consumed⟩ := by
  simp only [advance?, hp, ht, Option.bind_eq_bind, Option.bind_some, if_neg hstate, hr, hconsumed]
  rfl

theorem advance_net : advance? committingSystem (.commitEnd () 2) = some netAdvance :=
  @advance_publishes committingSystem ⟨"t1", netAuthorization, answered⟩ checkedNet netRevision 2
    ⟨readClaims, netApproval, 2⟩ rfl verifiedKernel_transaction (by decide) committedRevision_net
    (congrArg Prod.snd consume_net)

/-- The history up to and with the end of the commit. -/
def netHistory : List (Event Unit) := netEvents ++ [.commitEnd () 2]

/-- The kernel after the commit. -/
structure HoldsNet (k : DesignKernel) : Prop where
  head : k.head = plainDigest '4'
  transaction : ∃ t, k.transactions "t1" = some t ∧ t.val.state = .committed
  authorization : k.committedAuthorizations "t1" = some (plainDigest '3')

theorem replay_netHistory : ∃ k, replay System.step netSystem netHistory =
    ⟨consumingAuthority, fun _ => k, fun _ => none⟩ ∧ HoldsNet k := by
  obtain ⟨p, clock, t', h⟩ := publishes_of_advance advance_net
  obtain rfl : (2 : Instant) = clock := by
    have hevent := h.event
    injection hevent
  obtain rfl : (⟨"t1", netAuthorization, answered⟩ : Pending) = p :=
    Option.some.inj h.pending
  have hresult := h.result
  have hconsume : (committingSystem.authority.consume 2 answered).1 = consumingAuthority :=
    congrArg Prod.fst consume_net
  refine ⟨published verifiedKernel "t1" answered netRevision ⟨readClaims, netApproval, 2⟩ t', ?_,
    rfl, ⟨t', Dict.set_self verifiedKernel.transactions "t1" t', ?_⟩,
    Dict.set_self verifiedKernel.committedAuthorizations "t1" (plainDigest '3')⟩
  · rw [netHistory, Replay.snoc, replay_netEvents, hresult, hconsume]
    rfl
  · rw [replace_ok h.replaced]
    rfl

/-- What the authority answers the commit, first and last. -/
def netVerifier : CommitVerifier :=
  ⟨fun _ => .ok answered, fun _ => .ok ⟨readClaims, netApproval, 2⟩⟩

/-- The calls of the kernel in this history. -/
def netOperations : List Operation :=
  [.beginTransaction "t1" (plainDigest 'b'), .stage netCommand,
    .recordVerification "t1" (plainDigest '5') true none,
    .commit (some netVerifier) "t1" netAuthorization]

theorem replay_netOperations : HoldsNet (replay perform emptyKernel netOperations) := by
  have hbegin : perform emptyKernel (.beginTransaction "t1" (plainDigest 'b')) = openedKernel := by
    rw [perform, begin_empty]
  obtain ⟨t', ht'⟩ := committedAs_accepted checkedNet netRevision
  have hcommit : perform verifiedKernel (.commit (some netVerifier) "t1" netAuthorization) =
      published verifiedKernel "t1" answered netRevision ⟨readClaims, netApproval, 2⟩ t' := by
    have hrun : (commit (some netVerifier) "t1" netAuthorization).run verifiedKernel = (.ok _, _) :=
      commit_returns.mpr ⟨checkedNet, _, answered, verifiedKernel_transaction, rfl, rfl,
        Or.inr ⟨by decide, committedRevision_net, _, rfl, t', ht', rfl⟩⟩
    rw [perform, hrun]
  unfold netOperations
  rw [Replay.cons hbegin, Replay.cons perform_stage_net, Replay.cons perform_verify_net,
    Replay.cons hcommit]
  refine ⟨rfl, ⟨t', Dict.set_self verifiedKernel.transactions "t1" t', ?_⟩,
    Dict.set_self verifiedKernel.committedAuthorizations "t1" (plainDigest '3')⟩
  rw [replace_ok ht']
  rfl

/-- The kernel stays consistent while the net is staged, verified and committed. -/
theorem run_consistent_net : ∃ root, emptyKernel.revisions emptyKernel.head = some root ∧
    Consistent root (replay perform emptyKernel netOperations) ∧
    HoldsNet (replay perform emptyKernel netOperations) := by
  obtain ⟨root, hroot, hconsistent⟩ :=
    run_consistent netHashing_collisionFree init_empty netOperations
  exact ⟨root, hroot, hconsistent, replay_netOperations⟩

theorem verify_expired_net : consumingAuthority.verify 30000000 netAuthorization =
    (seenAt 30000000 consumingAuthority,
      .error ⟨.expiredCommitAuthorization, "commit authorization has expired"⟩) := by
  have hforward : ∀ previous ∈ consumingAuthority.lastObservedAt, previous ≤ 30000000 := by
    simp [consumingAuthority, seenAt]
  have hlocked : (seenAt 30000000 consumingAuthority).verifyLocked readClaims 30000000 =
      .error ⟨.expiredCommitAuthorization, "commit authorization has expired"⟩ :=
    verifyLocked_expired (netClaims_authentic rfl) (by decide) (by decide)
  have hread : readClaims.val = netAuthorization.val := rfl
  rw [verify_of_locked hread rfl hforward, hlocked]

/-- **Thirty seconds after it was issued, the authorization that committed the transaction no longer
retries the commit**: the call raises, and the authority has seen a later time. -/
theorem retry_refused_after_expiry :
    (∃ t, ((replay System.step netSystem netHistory).kernels ()).transactions "t1" = some t ∧
      t.val.state = .committed) ∧
    ((replay System.step netSystem netHistory).kernels ()).committedAuthorizations "t1" =
      some netAuthorization.val.authorizationDigest ∧
    (commit (some (verifierAt 30000000 (replay System.step netSystem netHistory).authority)) "t1"
        netAuthorization).run ((replay System.step netSystem netHistory).kernels ()) =
      (.error ⟨.expiredCommitAuthorization, "commit authorization has expired"⟩,
        (replay System.step netSystem netHistory).kernels ()) ∧
    ((replay System.step netSystem netHistory).step
        (.commitBegin () "t1" netAuthorization 30000000)).authority ≠
      (replay System.step netSystem netHistory).authority := by
  obtain ⟨k, hreplay, hholds⟩ := replay_netHistory
  obtain ⟨t, ht, hstate⟩ := hholds.transaction
  rw [hreplay]
  refine ⟨⟨t, ht, hstate⟩, hholds.authorization, commit_refused ht verify_expired_net, ?_⟩
  rw [step_commitBegin ht verify_expired_net]
  intro hsame
  have hseen : (seenAt 30000000 consumingAuthority).lastObservedAt =
      consumingAuthority.lastObservedAt := congrArg AuthorityState.lastObservedAt hsame
  simp [seenAt, consumingAuthority] at hseen

theorem netSystem_start : Start netSystem :=
  ⟨rfl, rfl, rfl, fun _ => ⟨emptyGraph, init_empty⟩, fun _ => rfl⟩

/-- The history of one commit: its nonce is consumed. -/
theorem commits_authorized_net :
    ((advances netSystem netHistory).map Advance.nonce).Nodup ∧
    ∀ nonce digest,
      (replay System.step netSystem netHistory).authority.consumed nonce = some digest ↔
        ∃ a ∈ advances netSystem netHistory, a.nonce = nonce ∧ a.digest = digest :=
  have h := commits_authorized netHashing_collisionFree netSystem netSystem_start netHistory
  ⟨h.1, h.2.1⟩

end Run
end Evleda.Kernel
