/-
What a call of the commit authority changes.

One lemma per call says what it can do to the state: nothing but the time seen,
or one registry changed, after the checks listed.  No later proof looks into a
call again.

The second part is about claims.  A digest is taken over the claims, so two
authorizations with one digest bind the same transaction.
-/
import Evleda.Kernel.History

namespace Evleda.Kernel

open Outcome

section Calls

variable [UnicodeData] [Hashing] [KeyedHashing]

/-! ### The calls -/

/-- The two states differ at most in what was seen of the clock. -/
def OnlyClock (s s' : AuthorityState) : Prop :=
  ∃ lastObservedAt clockPoisoned,
    s' = { s with lastObservedAt := lastObservedAt, clockPoisoned := clockPoisoned }

omit [Hashing] [KeyedHashing] in
theorem OnlyClock.refl (s : AuthorityState) : OnlyClock s s :=
  ⟨s.lastObservedAt, s.clockPoisoned, rfl⟩

namespace AuthorityState

section

omit [Hashing] [KeyedHashing]

/-- A call that raised saw the clock at most; one that returned ran with the clock seen. -/
theorem observing_cases {α : Type} {s s' : AuthorityState} {clock : Instant}
    {call : AuthorityState → Except Failure (AuthorityState × α)} {outcome : Except Failure α}
    (h : s.observing clock call = (s', outcome)) :
    (∃ failure, outcome = .error failure ∧ OnlyClock s s') ∨
      ∃ result, outcome = .ok result ∧
        call { s with lastObservedAt := some clock } = .ok (s', result) := by
  unfold observing at h
  split at h
  · cases h
    exact Or.inl ⟨_, rfl, OnlyClock.refl s⟩
  · split at h
    · cases h
      exact Or.inl ⟨_, rfl, s.lastObservedAt, true, rfl⟩
    · dsimp only at h
      split at h
      · rename_i next result hcall
        cases h
        exact Or.inr ⟨result, rfl, hcall⟩
      · cases h
        exact Or.inl ⟨_, rfl, some clock, s.clockPoisoned, rfl⟩

/-- With a clock that did not go back, a call runs with the clock seen. -/
theorem observing_of_forward {α : Type} {s : AuthorityState} {clock : Instant}
    {call : AuthorityState → Except Failure (AuthorityState × α)} (hclock : s.clockPoisoned = false)
    (hforward : ∀ previous ∈ s.lastObservedAt, previous ≤ clock) :
    (∀ s' a, call { s with lastObservedAt := some clock } = .ok (s', a) →
      s.observing clock call = (s', .ok a)) ∧
    ∀ failure, call { s with lastObservedAt := some clock } = .error failure →
      s.observing clock call = ({ s with lastObservedAt := some clock }, .error failure) := by
  have hnot : ¬ ∃ previous ∈ s.lastObservedAt, clock < previous := by
    rintro ⟨previous, hprevious, hlt⟩
    exact absurd (hforward previous hprevious) (not_le_of_gt hlt)
  unfold observing
  rw [if_neg (by rw [hclock]; decide), if_neg hnot]
  refine ⟨?_, ?_⟩
  · intro s' a hcall
    dsimp only
    rw [hcall]
  · intro failure hcall
    dsimp only
    rw [hcall]

end

variable {s s' : AuthorityState} {clock : Instant}

section

omit [Hashing] [KeyedHashing]

theorem registerReleaseApproval_cases {approval : ReleaseApproval}
    {outcome : Except Failure ReleaseApproval}
    (h : s.registerReleaseApproval clock approval = (s', outcome)) :
    OnlyClock s s' ∨ s' = { s with
      lastObservedAt := some clock
      approvalIdsSeen := insert approval.val.approvalId s.approvalIdsSeen
      approvals := s.approvals.set approval.val.approvalId approval } := by
  obtain ⟨failure, -, hclock⟩ | ⟨result, -, hcall⟩ := observing_cases h
  · exact Or.inl hclock
  · simp only [bind_ok, exists_unit, require_ok, pure_ok,
      Prod.mk.injEq] at hcall
    exact Or.inr hcall.2.2.2.2.1.symm

theorem revokeReleaseApproval_cases {approvalId : String} {outcome : Except Failure Unit}
    (h : s.revokeReleaseApproval clock approvalId = (s', outcome)) :
    OnlyClock s s' ∨ s' = { s with
      lastObservedAt := some clock
      approvalIdsSeen := insert approvalId s.approvalIdsSeen
      approvals := s.approvals.erase approvalId } := by
  unfold revokeReleaseApproval at h
  split at h
  · cases h
    exact Or.inl (OnlyClock.refl s)
  · obtain ⟨failure, -, hclock⟩ | ⟨result, -, hcall⟩ := observing_cases h
    · exact Or.inl hclock
    · rw [Except.ok.injEq, Prod.mk.injEq] at hcall
      exact Or.inr hcall.1.symm

end

/-- An authorization is issued under an approval that is registered and has not expired, and is
remembered by its digest. -/
theorem issue_cases {request : IssueRequest} {outcome : Except Failure CommitAuthorization}
    (h : s.issue clock request = (s', outcome)) :
    (∃ failure, outcome = .error failure ∧ OnlyClock s s') ∨
      ∃ authorization approval, outcome = .ok authorization ∧
        s.approvals request.approvalId = some approval ∧
        (∀ expiry ∈ approval.val.expiresAt, clock < expiry) ∧
        authorization.val.humanApprovalId = approval.val.approvalId ∧
        authorization.val.issuedAt = clock ∧
        s' = { s with
          lastObservedAt := some clock
          issued := s.issued.set authorization.val.authorizationDigest approval } := by
  unfold issue at h
  split at h
  · cases h
    exact Or.inl ⟨_, rfl, OnlyClock.refl s⟩
  split at h
  · cases h
    exact Or.inl ⟨_, rfl, OnlyClock.refl s⟩
  obtain ⟨failure, hfailure, hclock⟩ | ⟨authorization, hok, hcall⟩ := observing_cases h
  · exact Or.inl ⟨failure, hfailure, hclock⟩
  · rw [bind_ok, exists_unit] at hcall
    replace hcall := hcall.2
    split at hcall
    · cases hcall
    · rename_i approval happroval
      unfold issueUnder at hcall
      simp only [bind_ok, exists_unit, require_ok, pure_ok,
        Prod.mk.injEq] at hcall
      obtain ⟨-, -, hexpiry, commandDigest, -, -, built, hbuilt, -, hstate, rfl⟩ := hcall
      have hval := (checking_ok.mp (Checked.make_ok.mp hbuilt)).2
      refine Or.inr ⟨built, approval, hok, happroval, hexpiry, ?_, ?_, hstate.symm⟩
      · rw [hval]
        rfl
      · rw [hval]
        rfl

/-- What claims say of the approval they were issued under. -/
structure MatchesApproval (c : CommitClaims) (approval : ReleaseApprovalEvidence) : Prop where
  approvalId : c.humanApprovalId = approval.approvalId
  runId : c.humanApprovalRunId = approval.runId
  kind : c.humanApprovalKind = approval.kind ∧ approval.kind = "release"
  digest : c.humanApprovalDigest = approval.approvalDigest
  principal : c.humanApprovalPrincipal = approval.principal
  decidedAt : c.humanApprovalDecidedAt = approval.decidedAt
  expiresAt : c.humanApprovalExpiresAt = approval.expiresAt
  commitGate : approval.commitGatePassed = true

/-- What verified claims have passed. -/
structure Verifies (s : AuthorityState) (claims : CommitAuthorizationClaims) (now : Instant)
    (verified : VerifiedCommitClaims) : Prop where
  claims_eq : verified.claims = claims
  digest : authorizationDigestOf claims.val = claims.val.authorizationDigest
  unexpired : claims.val.issuedAt ≤ now ∧ now < claims.val.expiresAt
  issued : s.issued claims.val.authorizationDigest = some verified.releaseApproval
  registered : s.approvals verified.releaseApproval.val.approvalId = some verified.releaseApproval
  approvalUnexpired : ∀ expiry ∈ verified.releaseApproval.val.expiresAt, now < expiry
  approval : MatchesApproval claims.val verified.releaseApproval.val
  consumed : verified.previouslyConsumedAuthorizationDigest = s.consumed claims.val.nonce
  verifiedAt : verified.verifiedAt = now

omit [Hashing] [KeyedHashing] in
theorem registeredApproval_ok {digest : String} {approval issued : ReleaseApproval}
    (h : s.registeredApproval digest = .ok (approval, issued)) :
    issued = approval ∧ s.issued digest = some approval ∧
      s.approvals approval.val.approvalId = some approval := by
  unfold registeredApproval at h
  split at h
  · cases h
  · rename_i found hfound
    split at h
    · cases h
    · rename_i registered hregistered
      split at h
      · rename_i heq
        cases h
        subst heq
        exact ⟨rfl, hfound, hregistered⟩
      · cases h

variable {claims : CommitAuthorizationClaims}

variable {now : Instant}

theorem verifyLocked_ok
    {verified : VerifiedCommitClaims} (h : s.verifyLocked claims now = .ok verified) :
    Verifies s claims now verified := by
  unfold verifyLocked at h
  simp only [bind_ok, exists_unit, require_ok, pure_ok] at h
  obtain ⟨-, hdigest, -, -, hissued, hexpires, ⟨approval, issued⟩, happroval, hmatch, rfl⟩ := h
  obtain ⟨rfl, hfound, hregistered⟩ := registeredApproval_ok happroval
  unfold matchRegisteredApproval at hmatch
  simp only [bind_ok, exists_unit, require_ok] at hmatch
  obtain ⟨⟨hid, -, hrun, hkind, happroval, -, hprincipal, hdecided, hexpiry, -, -, -, -, hgate⟩,
    hunexpired, -⟩ := hmatch
  exact ⟨rfl, hdigest, ⟨hissued, hexpires⟩, hfound, hregistered, hunexpired,
    ⟨hid, hrun, hkind, happroval, hprincipal, hdecided, hexpiry, hgate⟩, rfl, rfl⟩

variable {authorization : CommitAuthorization}

omit [KeyedHashing] in
theorem snapshotAuthorization_ok
    (h : snapshotAuthorization authorization = .ok claims) :
    claims.val = authorization.val := by
  unfold snapshotAuthorization at h
  split at h
  · rename_i made hmade
    cases h
    exact (checking_ok.mp (Checked.make_ok.mp hmade)).2
  · cases h

theorem verify_cases
    {outcome : Except Failure VerifiedCommitClaims}
    (h : s.verify clock authorization = (s', outcome)) :
    OnlyClock s s' ∧ ∀ verified, outcome = .ok verified →
      verified.claims.val = authorization.val ∧ Verifies s' verified.claims clock verified := by
  unfold verify at h
  split at h
  · cases h
    exact ⟨OnlyClock.refl s, fun verified herror => by cases herror⟩
  · rename_i claims hclaims
    obtain ⟨failure, rfl, hclock⟩ | ⟨result, rfl, hcall⟩ := observing_cases h
    · exact ⟨hclock, fun verified herror => by cases herror⟩
    · simp only [bind_ok, pure_ok, Prod.mk.injEq] at hcall
      obtain ⟨verified, hverified, rfl, rfl⟩ := hcall
      refine ⟨⟨some clock, s.clockPoisoned, rfl⟩, ?_⟩
      rintro _ ⟨⟩
      have hverifies := verifyLocked_ok hverified
      rw [hverifies.claims_eq]
      exact ⟨snapshotAuthorization_ok hclaims, hverifies⟩

/-- Consuming marks a fresh nonce, after verifying the claims again. -/
theorem consume_cases {verified : VerifiedCommitClaims}
    {outcome : Except Failure ConsumedCommitAuthorization}
    (h : s.consume clock verified = (s', outcome)) :
    (∃ failure, outcome = .error failure ∧ OnlyClock s s') ∨
      ∃ consumed current, outcome = .ok consumed ∧ consumed.claims = verified.claims ∧
        Verifies s verified.claims clock current ∧
        current.releaseApproval = consumed.releaseApproval ∧ consumed.consumedAt = clock ∧
        s.consumed consumed.claims.val.nonce = none ∧
        s' = { s with
          lastObservedAt := some clock
          consumed := s.consumed.set consumed.claims.val.nonce
            consumed.claims.val.authorizationDigest } := by
  obtain ⟨failure, hfailure, hclock⟩ | ⟨result, hok, hcall⟩ := observing_cases h
  · exact Or.inl ⟨failure, hfailure, hclock⟩
  · simp only [bind_ok, exists_unit, require_ok, pure_ok,
      Prod.mk.injEq] at hcall
    obtain ⟨current, hcurrent, hfresh, hstate, rfl⟩ := hcall
    obtain ⟨hclaims, h₁, h₂, h₃, h₄, h₅, h₆, hconsumed, hnow⟩ := verifyLocked_ok hcurrent
    refine Or.inr ⟨_, current, hok, hclaims, ⟨hclaims, h₁, h₂, h₃, h₄, h₅, h₆, hconsumed, hnow⟩,
      rfl, hnow, ?_, hstate.symm⟩
    rw [hclaims, ← hfresh, hconsumed]

/-! ### Calls that succeed -/

/-- The authority that saw the clock at a later time. -/
def seenAt (clock : Instant) (s : AuthorityState) : AuthorityState :=
  { s with lastObservedAt := some clock }

omit [KeyedHashing] in
theorem snapshotAuthorization_reads
    (h : claims.val = authorization.val) :
    snapshotAuthorization authorization = .ok claims := by
  have hmake : Checked.make (checking_onlyChecks validateAuthorizationValues).stable
      authorization.val = .ok claims := by
    rw [← h]
    exact Checked.make_ok.mpr claims.accepted
  unfold snapshotAuthorization
  rw [hmake]

/-- The claims come from this authority. -/
structure Authentic (s : AuthorityState) (c : CommitClaims) : Prop where
  trusted : c.scope = commitAuthorizationScope ∧ c.version = commitAuthorizationVersion ∧
    c.keyId = s.keyId
  digest : authorizationDigestOf c = c.authorizationDigest
  authorizationId : authorizationIdOf (authorizationDigestOf c) = c.authorizationId
  sealHex : sealOf s.secret c.authorizationId c.authorizationDigest
    (authorizationPayload c) = c.sealHex

theorem verifyLocked_accepts {s : AuthorityState}
    {approval : ReleaseApproval} (h : Authentic s claims.val)
    (hfrom : claims.val.issuedAt ≤ now) (hnow : now < claims.val.expiresAt)
    (hissued : s.issued claims.val.authorizationDigest = some approval)
    (hregistered : s.approvals approval.val.approvalId = some approval)
    (hmatch : matchRegisteredApproval claims.val approval.val approval.val now =
      .ok ()) :
    s.verifyLocked claims now = .ok ⟨claims, approval, now, s.consumed claims.val.nonce⟩ := by
  have hfound : s.registeredApproval claims.val.authorizationDigest = .ok (approval, approval) := by
    unfold registeredApproval
    simp only [hissued, hregistered, if_true]
  unfold verifyLocked
  simp only [bind_ok, exists_unit, require_ok, pure_ok]
  exact ⟨h.trusted, h.digest, h.authorizationId, h.sealHex, hfrom, hnow, (approval, approval), hfound,
    hmatch, rfl⟩

theorem verifyLocked_expired {s : AuthorityState}
    (h : Authentic s claims.val) (hfrom : claims.val.issuedAt ≤ now)
    (hnow : claims.val.expiresAt ≤ now) : s.verifyLocked claims now =
      .error ⟨.expiredCommitAuthorization, "commit authorization has expired"⟩ := by
  unfold verifyLocked
  simp only [require, if_pos h.trusted, if_pos h.digest, if_pos h.authorizationId, if_pos h.sealHex,
    if_pos hfrom, if_neg (not_lt_of_ge hnow)]
  rfl

/-- A call of the verifier runs its checks on the authority that saw the clock. -/
theorem verify_of_locked {s : AuthorityState}
    (hread : claims.val = authorization.val)
    (hclock : s.clockPoisoned = false)
    (hforward : ∀ previous ∈ s.lastObservedAt, previous ≤ now) :
    s.verify now authorization = (seenAt now s, (seenAt now s).verifyLocked claims now) := by
  unfold verify
  rw [snapshotAuthorization_reads hread]
  obtain ⟨haccepts, hrefuses⟩ := observing_of_forward hclock hforward
  cases hlocked : (seenAt now s).verifyLocked claims now with
  | ok verified =>
      refine haccepts _ _ ?_
      rw [bind_ok]
      exact ⟨verified, hlocked, rfl⟩
  | error failure =>
      refine hrefuses _ ?_
      show ((seenAt now s).verifyLocked claims now >>= _) = _
      rw [hlocked]
      rfl

theorem consume_of_locked {s : AuthorityState} {verified current : VerifiedCommitClaims}
    (hclock : s.clockPoisoned = false)
    (hforward : ∀ previous ∈ s.lastObservedAt, previous ≤ now)
    (hlocked : (seenAt now s).verifyLocked verified.claims now = .ok current)
    (hfresh : current.previouslyConsumedAuthorizationDigest = none) :
    s.consume now verified =
      ({ seenAt now s with
          consumed := s.consumed.set current.claims.val.nonce
            current.claims.val.authorizationDigest },
        .ok ⟨current.claims, current.releaseApproval, current.verifiedAt⟩) := by
  unfold consume
  refine (observing_of_forward hclock hforward).1 _ _ ?_
  simp only [bind_ok, exists_unit, require_ok]
  exact ⟨current, hlocked, hfresh, rfl⟩

end AuthorityState

/-! ### Claims with one digest -/

/-- The claims agree in everything a commit is bound by. -/
structure SameClaims (c c' : CommitClaims) : Prop where
  projectId : c.projectId = c'.projectId
  baseRevision : c.baseRevision = c'.baseRevision
  headRevision : c.headRevision = c'.headRevision
  transactionId : c.transactionId = c'.transactionId
  commandHashes : c.commandHashes = c'.commandHashes
  commandHashesDigest : c.commandHashesDigest = c'.commandHashesDigest
  previewDigest : c.previewDigest = c'.previewDigest
  prospectiveGraphSha256 : c.prospectiveGraphSha256 = c'.prospectiveGraphSha256
  verificationReportHash : c.verificationReportHash = c'.verificationReportHash
  verifiedPreviewDigest : c.verifiedPreviewDigest = c'.verifiedPreviewDigest
  commitGatePassed : c.commitGatePassed = c'.commitGatePassed
  releaseSubjectDigest : c.releaseSubjectDigest = c'.releaseSubjectDigest
  nonce : c.nonce = c'.nonce

omit [UnicodeData] [Hashing] [KeyedHashing] in
theorem textsJson_inj {l l' : List String} (h : textsJson l = textsJson l') : l = l' := by
  have hmaps := Json.arr.inj h
  exact List.map_injective_iff.mpr (fun _ _ heq => Json.str.inj heq) hmaps

omit [KeyedHashing] [UnicodeData] in
theorem sameClaims_of_digest (hfree : Hashing.CollisionFree) {c c' : CommitClaims}
    (h : authorizationDigestOf c = authorizationDigestOf c') : SameClaims c c' := by
  have hperm := Json.perm_of_object_eq (Hashing.inDomain_inj hfree h)
  -- every member of one record is a member of the other, and the keys are distinct
  have hmem := fun member => (hperm.mem_iff (a := member)).mp
  constructor
  · have h := hmem ("project_id", .str c.projectId) (by simp)
    simpa using h
  · have h := hmem ("base_revision", .str c.baseRevision) (by simp)
    simpa using h
  · have h := hmem ("head_revision", .str c.headRevision) (by simp)
    simpa using h
  · have h := hmem ("transaction_id", .str c.transactionId) (by simp)
    simpa using h
  · have h := hmem ("command_hashes", textsJson c.commandHashes) (by simp)
    exact textsJson_inj (by simpa using h)
  · have h := hmem ("command_hashes_digest", .str c.commandHashesDigest) (by simp)
    simpa using h
  · have h := hmem ("preview_digest", .str c.previewDigest) (by simp)
    simpa using h
  · have h := hmem ("prospective_graph_sha256", .str c.prospectiveGraphSha256) (by simp)
    simpa using h
  · have h := hmem ("verification_report_hash", .str c.verificationReportHash) (by simp)
    simpa using h
  · have h := hmem ("verified_preview_digest", .str c.verifiedPreviewDigest) (by simp)
    simpa using h
  · have h := hmem ("commit_gate_passed", .bool c.commitGatePassed) (by simp)
    simpa using h
  · have h := hmem ("release_subject_digest", .str c.releaseSubjectDigest) (by simp)
    simpa using h
  · have h := hmem ("nonce", .str c.nonce) (by simp)
    simpa using h

omit [KeyedHashing] in
theorem matchCommitAuthorization_ok {t : DesignTransaction} {v : VerifiedCommitClaims} :
    matchCommitAuthorization t v = .ok () ↔ ∃ commandDigest graphHash,
      commitCommandHashesDigest t.commandHashes = .ok commandDigest ∧
      t.stagedGraph.graphHash = .ok graphHash ∧
      ∀ binding ∈ commitBindings t v commandDigest graphHash, binding.1 = true := by
  unfold matchCommitAuthorization
  simp only [bind_ok, forM_ok, require_ok, exists_and_left]

omit [KeyedHashing] in
theorem match_of_same {t : DesignTransaction} {v v' : VerifiedCommitClaims}
    (h : matchCommitAuthorization t v = .ok ()) (hsame : SameClaims v'.claims.val v.claims.val)
    (happroval : AuthorityState.MatchesApproval v'.claims.val v'.releaseApproval.val) :
    matchCommitAuthorization t v' = .ok () := by
  obtain ⟨commandDigest, graphHash, hdigest, hgraph, hbindings⟩ := matchCommitAuthorization_ok.mp h
  refine matchCommitAuthorization_ok.mpr ⟨commandDigest, graphHash, hdigest, hgraph, ?_⟩
  simp only [commitBindings, List.mem_cons, List.not_mem_nil, or_false, forall_eq_or_imp, forall_eq,
    decide_eq_true_eq] at hbindings ⊢
  obtain ⟨h₁, h₂, h₃, h₄, h₅, h₆, h₇, h₈, h₉, h₁₀, h₁₁, ⟨h₁₂, hgate, -⟩, -⟩ := hbindings
  rw [hsame.projectId, hsame.baseRevision, hsame.headRevision, hsame.transactionId,
    hsame.commandHashes, hsame.commandHashesDigest, hsame.previewDigest,
    hsame.prospectiveGraphSha256, hsame.verificationReportHash, hsame.verifiedPreviewDigest,
    hsame.releaseSubjectDigest, hsame.commitGatePassed]
  exact ⟨h₁, h₂, h₃, h₄, h₅, h₆, h₇, h₈, h₉, h₁₀, h₁₁, ⟨h₁₂, hgate, happroval.commitGate⟩,
    happroval.approvalId, happroval.runId, happroval.kind, happroval.digest, happroval.principal,
    happroval.decidedAt, happroval.expiresAt⟩

end Calls

end Evleda.Kernel
