/-
The authority that issues and consumes commit capabilities.

The application registers release approvals with the authority and has it issue
an authorization: a sealed record that binds one transaction, its commands, its
preview and its verification report, valid for half a minute at most.  A kernel
holds only the verifier, which checks an authorization and consumes its nonce.

Every call of the authority first looks at its clock.  A clock that went back
poisons the authority for good; otherwise the time seen is remembered even when
the call is refused later.  `observing` is that pattern.
-/
import Evleda.Kernel.Records
import Mathlib.Data.Finset.Insert

namespace Evleda.Kernel

abbrev Instant := Int

def commitAuthorizationScope : String := "canonical-design-commit"

def commitAuthorizationVersion : Int := 2

section Records

variable [UnicodeData] [Hashing]

/-! ### Records -/

def requireCanonicalId (value label : String) : Except Failure Unit :=
  require (IsId value) (violation (label ++ " must be a canonical non-empty identifier"))

def commitCommandHashesDigest (commandHashes : List String) : Except Failure String := do
  require (commandHashes ≠ [])
    (violation "commit authorization requires ordered command hashes")
  commandHashes.forM (requireSha256 · "commit authorization command hash")
  return stableHash "flux-clone-kernel-commit-command-hashes-v1" (textsJson commandHashes)

structure ReleaseApprovalEvidence where
  approvalId : String
  runId : String
  kind : String
  subjectDigest : String
  approvalDigest : String
  principal : String
  decidedAt : Instant
  expiresAt : Option Instant
  verificationReportHash : String
  verifiedPreviewDigest : String
  commitGatePassed : Bool
  deriving DecidableEq

def ReleaseApprovalEvidence.checks (a : ReleaseApprovalEvidence) : Except Failure Unit := do
  requireCanonicalId a.approvalId "release approval ID"
  requireCanonicalId a.runId "release approval run ID"
  requireCanonicalId a.kind "release approval kind"
  require (a.kind = "release") (violation "commit authority accepts release approvals only")
  requireSha256 a.subjectDigest "release approval subject digest"
  requireSha256 a.approvalDigest "release approval digest"
  requireCanonicalId a.principal "release approval principal"
  require (∀ expiry ∈ a.expiresAt, a.decidedAt < expiry)
    (violation "release approval expiry must follow its decision")
  requireSha256 a.verificationReportHash "release approval verification report hash"
  requireSha256 a.verifiedPreviewDigest "release approval verified preview digest"
  require a.commitGatePassed (violation "release approval requires a passing commit gate")

/-- An approval the registry can hold. -/
abbrev ReleaseApproval := Checked (checking ReleaseApprovalEvidence.checks)

/-- The fields of an authorization and of the claims copied from it. -/
structure CommitClaims where
  scope : String
  version : Int
  keyId : String
  authorizationId : String
  projectId : String
  baseRevision : String
  headRevision : String
  transactionId : String
  commandHashes : List String
  commandHashesDigest : String
  previewDigest : String
  prospectiveGraphSha256 : String
  verificationReportHash : String
  verifiedPreviewDigest : String
  commitGatePassed : Bool
  releaseSubjectDigest : String
  humanApprovalId : String
  humanApprovalRunId : String
  humanApprovalKind : String
  humanApprovalDigest : String
  humanApprovalPrincipal : String
  humanApprovalDecidedAt : Instant
  humanApprovalExpiresAt : Option Instant
  issuedAt : Instant
  expiresAt : Instant
  nonce : String
  authorizationDigest : String
  sealHex : String
  deriving DecidableEq

def authorizationPayload (c : CommitClaims) : Json :=
  Json.object [("scope", .str c.scope), ("version", .int c.version), ("key_id", .str c.keyId),
    ("project_id", .str c.projectId), ("base_revision", .str c.baseRevision),
    ("head_revision", .str c.headRevision), ("transaction_id", .str c.transactionId),
    ("command_hashes", textsJson c.commandHashes),
    ("command_hashes_digest", .str c.commandHashesDigest),
    ("preview_digest", .str c.previewDigest),
    ("prospective_graph_sha256", .str c.prospectiveGraphSha256),
    ("verification_report_hash", .str c.verificationReportHash),
    ("verified_preview_digest", .str c.verifiedPreviewDigest),
    ("commit_gate_passed", .bool c.commitGatePassed),
    ("release_subject_digest", .str c.releaseSubjectDigest),
    ("human_approval_id", .str c.humanApprovalId),
    ("human_approval_run_id", .str c.humanApprovalRunId),
    ("human_approval_kind", .str c.humanApprovalKind),
    ("human_approval_digest", .str c.humanApprovalDigest),
    ("human_approval_principal", .str c.humanApprovalPrincipal),
    ("human_approval_decided_at", .str (Text.isoformatMicroseconds c.humanApprovalDecidedAt)),
    ("human_approval_expires_at",
      optionalJson (fun expiry => .str (Text.isoformatMicroseconds expiry))
        c.humanApprovalExpiresAt),
    ("issued_at", .str (Text.isoformatMicroseconds c.issuedAt)),
    ("expires_at", .str (Text.isoformatMicroseconds c.expiresAt)), ("nonce", .str c.nonce)]

def validateAuthorizationValues (c : CommitClaims) : Except Failure Unit := do
  requireCanonicalId c.scope "commit authorization scope"
  require (1 ≤ c.version)
    (violation "commit authorization version must be a positive exact integer")
  [(c.keyId, "commit authorization key ID"),
    (c.authorizationId, "commit authorization ID"),
    (c.projectId, "commit authorization project ID"),
    (c.transactionId, "commit authorization transaction ID"),
    (c.humanApprovalId, "commit authorization human approval ID"),
    (c.humanApprovalRunId, "commit authorization approval run ID"),
    (c.humanApprovalKind, "commit authorization approval kind"),
    (c.humanApprovalPrincipal, "commit authorization human principal")].forM
    fun (value, label) => requireCanonicalId value label
  [(c.baseRevision, "commit authorization base revision"),
    (c.headRevision, "commit authorization head revision"),
    (c.commandHashesDigest, "commit authorization command digest"),
    (c.previewDigest, "commit authorization preview digest"),
    (c.prospectiveGraphSha256, "commit authorization prospective graph digest"),
    (c.verificationReportHash, "commit authorization verification report hash"),
    (c.verifiedPreviewDigest, "commit authorization verified preview digest"),
    (c.releaseSubjectDigest, "commit authorization release subject digest"),
    (c.humanApprovalDigest, "commit authorization human approval digest"),
    (c.nonce, "commit authorization nonce"),
    (c.authorizationDigest, "commit authorization digest"),
    (c.sealHex, "commit authorization seal")].forM
    fun (value, label) => requireSha256 value label
  require c.commitGatePassed (violation "commit authorization requires a passing gate")
  require (∀ expiry ∈ c.humanApprovalExpiresAt, c.humanApprovalDecidedAt < expiry)
    (violation "commit authorization approval expiry is invalid")
  require (c.issuedAt < c.expiresAt)
    (violation "commit authorization must expire after it is issued")
  let expectedCommandsDigest ← commitCommandHashesDigest c.commandHashes
  require (expectedCommandsDigest = c.commandHashesDigest)
    (violation "commit authorization ordered command digest is inconsistent")

def authorizationDigestOf (c : CommitClaims) : String :=
  stableHash "flux-clone-kernel-commit-authorization-v2" (authorizationPayload c)

def authorizationIdOf (digest : String) : String :=
  "commit-authorization-" ++ String.ofList (digest.toList.take 32)

def authorizationChecks (c : CommitClaims) : Except Failure Unit := do
  validateAuthorizationValues c
  require (authorizationDigestOf c = c.authorizationDigest)
    (violation "commit authorization digest is inconsistent")
  require (c.authorizationId = authorizationIdOf (authorizationDigestOf c))
    (violation "commit authorization ID does not derive from its digest")

/-- What a caller hands to the kernel. -/
abbrev CommitAuthorization := Checked (checking authorizationChecks)

/-- What the verifier reads. -/
abbrev CommitAuthorizationClaims := Checked (checking validateAuthorizationValues)

def snapshotAuthorization (authorization : CommitAuthorization) :
    Except Failure CommitAuthorizationClaims :=
  match Checked.make (checking_onlyChecks validateAuthorizationValues).stable authorization.val with
  | .ok claims => .ok claims
  | .error _ =>
      .error ⟨.invalidCommitAuthorization, "commit authorization values are not canonical"⟩

structure VerifiedCommitClaims where
  claims : CommitAuthorizationClaims
  releaseApproval : ReleaseApproval
  verifiedAt : Instant
  previouslyConsumedAuthorizationDigest : Option String

structure ConsumedCommitAuthorization where
  claims : CommitAuthorizationClaims
  releaseApproval : ReleaseApproval
  consumedAt : Instant

/-! ### The state of the authority -/

structure AuthorityState where
  keyId : String
  secret : List UInt8
  requiredReleasePrincipal : String := "user:owner"
  approvals : Dict String ReleaseApproval := Dict.empty
  /-- Identifiers that were ever registered or revoked; none is accepted again. -/
  approvalIdsSeen : Finset String := ∅
  /-- The approval each authorization was issued under, by authorization digest. -/
  issued : Dict String ReleaseApproval := Dict.empty
  /-- The digest of the authorization that used a nonce. -/
  consumed : Dict String String := Dict.empty
  lastObservedAt : Option Instant := none
  clockPoisoned : Bool := false

namespace AuthorityState

/-- Look at the clock, then run a call that may raise; what was seen stays seen. -/
def observing {α : Type} (s : AuthorityState) (clock : Instant)
    (call : AuthorityState → Except Failure (AuthorityState × α)) :
    AuthorityState × Except Failure α :=
  if s.clockPoisoned then
    (s, .error ⟨.commitAuthorityClockRollback, "commit authority clock previously moved backwards"⟩)
  else if ∃ previous ∈ s.lastObservedAt, clock < previous then
    ({ s with clockPoisoned := true },
      .error ⟨.commitAuthorityClockRollback, "commit authority clock moved backwards"⟩)
  else
    let seen := { s with lastObservedAt := some clock }
    match call seen with
    | .ok (next, result) => (next, .ok result)
    | .error failure => (seen, .error failure)

def registerReleaseApproval (s : AuthorityState) (clock : Instant) (approval : ReleaseApproval) :
    AuthorityState × Except Failure ReleaseApproval :=
  s.observing clock fun s => do
    require (approval.val.approvalId ∉ s.approvalIdsSeen)
      ⟨.invalidCommitAuthorization, "release approval ID is permanently bound or revoked"⟩
    require (approval.val.principal = s.requiredReleasePrincipal)
      ⟨.invalidCommitAuthorization, "release approval principal is not authorized to commit"⟩
    require (approval.val.decidedAt ≤ clock)
      ⟨.invalidCommitAuthorization, "release approval decision is in the future"⟩
    require (∀ expiry ∈ approval.val.expiresAt, clock < expiry)
      ⟨.expiredCommitAuthorization, "release approval has expired"⟩
    return ({ s with
      approvalIdsSeen := insert approval.val.approvalId s.approvalIdsSeen
      approvals := s.approvals.set approval.val.approvalId approval }, approval)

def revokeReleaseApproval (s : AuthorityState) (clock : Instant) (approvalId : String) :
    AuthorityState × Except Failure Unit :=
  match requireCanonicalId approvalId "release approval ID" with
  | .error failure => (s, .error failure)
  | .ok () => s.observing clock fun s =>
      .ok ({ s with
        approvalIdsSeen := insert approvalId s.approvalIdsSeen
        approvals := s.approvals.erase approvalId }, ())

variable [KeyedHashing]

/-- The seal over an authorization's identifier, digest and payload. -/
def sealOf (secret : List UInt8) (authorizationId authorizationDigest : String) (payload : Json) :
    String :=
  KeyedHashing.hmac secret ("flux-clone-kernel-commit-authorization-seal-v2".toList ++
    Char.ofNat 0 :: (Json.object [("authorization_id", .str authorizationId),
      ("authorization_digest", .str authorizationDigest), ("claims", payload)]).render)

structure IssueRequest where
  projectId : String
  baseRevision : String
  headRevision : String
  transactionId : String
  commandHashes : List String
  previewDigest : String
  prospectiveGraphSha256 : String
  approvalId : String
  lifetime : Int := 30000000
  /-- The caller's nonce, or the one drawn at random. -/
  nonce : String

def releaseSubject (baseRevision previewDigest : String) (reportHash : Option String) : String :=
  stableHash "flux-clone-release-v1" (Json.object [("base_revision", .str baseRevision),
    ("preview_digest", .str previewDigest), ("report_hash", optionalJson .str reportHash)])

/-- The unsealed claims of an authorization under an approval. -/
def issuedClaims (s : AuthorityState) (clock : Instant) (request : IssueRequest)
    (approval : ReleaseApproval) (commandDigest : String) : CommitClaims where
  scope := commitAuthorizationScope
  version := commitAuthorizationVersion
  keyId := s.keyId
  authorizationId := ""
  projectId := request.projectId
  baseRevision := request.baseRevision
  headRevision := request.headRevision
  transactionId := request.transactionId
  commandHashes := request.commandHashes
  commandHashesDigest := commandDigest
  previewDigest := request.previewDigest
  prospectiveGraphSha256 := request.prospectiveGraphSha256
  verificationReportHash := approval.val.verificationReportHash
  verifiedPreviewDigest := approval.val.verifiedPreviewDigest
  commitGatePassed := approval.val.commitGatePassed
  releaseSubjectDigest := approval.val.subjectDigest
  humanApprovalId := approval.val.approvalId
  humanApprovalRunId := approval.val.runId
  humanApprovalKind := approval.val.kind
  humanApprovalDigest := approval.val.approvalDigest
  humanApprovalPrincipal := approval.val.principal
  humanApprovalDecidedAt := approval.val.decidedAt
  humanApprovalExpiresAt := approval.val.expiresAt
  issuedAt := clock
  expiresAt := approval.val.expiresAt.elim (clock + request.lifetime)
    (min (clock + request.lifetime))
  nonce := request.nonce
  authorizationDigest := ""
  sealHex := ""

/-- Derive the digest, the identifier and the seal of claims. -/
def sealed (s : AuthorityState) (c : CommitClaims) : CommitClaims :=
  let digest := authorizationDigestOf c
  { c with
    authorizationId := authorizationIdOf digest
    authorizationDigest := digest
    sealHex := sealOf s.secret (authorizationIdOf digest) digest (authorizationPayload c) }

def issueUnder (s : AuthorityState) (clock : Instant) (request : IssueRequest)
    (approval : ReleaseApproval) : Except Failure (AuthorityState × CommitAuthorization) := do
  require (approval.val.subjectDigest = releaseSubject request.baseRevision request.previewDigest
      (some approval.val.verificationReportHash))
    ⟨.invalidCommitAuthorization,
      "registered release approval does not bind the exact commit subject"⟩
  require (approval.val.verifiedPreviewDigest = request.previewDigest)
    ⟨.invalidCommitAuthorization,
      "registered release approval does not bind the exact verified preview"⟩
  require (∀ expiry ∈ approval.val.expiresAt, clock < expiry)
    ⟨.expiredCommitAuthorization, "release approval has expired"⟩
  let commandDigest ← commitCommandHashesDigest request.commandHashes
  requireSha256 request.nonce "commit authorization nonce"
  let authorization ← Checked.make (checking_onlyChecks authorizationChecks).stable
    (s.sealed (s.issuedClaims clock request approval commandDigest))
  require (∀ existing ∈ s.issued authorization.val.authorizationDigest, existing = approval)
    ⟨.invalidCommitAuthorization,
      "authorization digest collides with different approval evidence"⟩
  return ({ s with issued := s.issued.set authorization.val.authorizationDigest approval },
    authorization)

def issue (s : AuthorityState) (clock : Instant) (request : IssueRequest) :
    AuthorityState × Except Failure CommitAuthorization :=
  if request.lifetime ≤ 0 then
    (s, .error ⟨.valueError, "commit authorization lifetime must be a positive exact timedelta"⟩)
  else if 30000000 < request.lifetime then
    (s, .error ⟨.valueError, "commit authorization lifetime cannot exceed 30 seconds"⟩)
  else s.observing clock fun s => do
    requireCanonicalId request.approvalId "release approval ID"
    match s.approvals request.approvalId with
    | none => .error ⟨.invalidCommitAuthorization, "release approval is not registered"⟩
    | some approval => s.issueUnder clock request approval

/-! ### The verifier -/

def matchRegisteredApproval (claims : CommitClaims) (approval issued : ReleaseApprovalEvidence)
    (now : Instant) : Except Failure Unit := do
  require (claims.humanApprovalId = approval.approvalId ∧
      approval.approvalId = issued.approvalId ∧
      claims.humanApprovalRunId = approval.runId ∧
      (claims.humanApprovalKind = approval.kind ∧ approval.kind = "release") ∧
      claims.humanApprovalDigest = approval.approvalDigest ∧
      issued.approvalDigest = approval.approvalDigest ∧
      claims.humanApprovalPrincipal = approval.principal ∧
      claims.humanApprovalDecidedAt = approval.decidedAt ∧
      claims.humanApprovalExpiresAt = approval.expiresAt ∧
      claims.verificationReportHash = approval.verificationReportHash ∧
      claims.verifiedPreviewDigest = approval.verifiedPreviewDigest ∧
      claims.releaseSubjectDigest = approval.subjectDigest ∧
      (claims.commitGatePassed = approval.commitGatePassed ∧ approval.commitGatePassed = true))
    ⟨.invalidCommitAuthorization,
      "commit authorization no longer matches its server-owned release approval"⟩
  require (∀ expiry ∈ approval.expiresAt, now < expiry)
    ⟨.expiredCommitAuthorization, "registered release approval has expired"⟩
  require (∀ expiry ∈ approval.expiresAt, claims.expiresAt ≤ expiry)
    ⟨.invalidCommitAuthorization,
      "commit authorization outlives its registered release approval"⟩

/-- The approval under which an authorization was issued, still registered unchanged. -/
def registeredApproval (s : AuthorityState) (digest : String) :
    Except Failure (ReleaseApproval × ReleaseApproval) :=
  match s.issued digest with
  | none => .error ⟨.invalidCommitAuthorization,
      "commit authorization is not present in this issuer incarnation"⟩
  | some issued =>
      match s.approvals issued.val.approvalId with
      | none => .error ⟨.invalidCommitAuthorization,
          "commit release approval was revoked or is unknown"⟩
      | some approval =>
          if approval = issued then .ok (approval, issued)
          else .error ⟨.invalidCommitAuthorization,
            "commit release approval no longer has its issued registry incarnation"⟩

/-- `_verify_locked` -/
def verifyLocked (s : AuthorityState) (claims : CommitAuthorizationClaims) (now : Instant) :
    Except Failure VerifiedCommitClaims := do
  let c := claims.val
  require (c.scope = commitAuthorizationScope ∧ c.version = commitAuthorizationVersion ∧
      c.keyId = s.keyId)
    ⟨.invalidCommitAuthorization,
      "commit authorization scope, version, or key ID is not trusted"⟩
  let expectedDigest := authorizationDigestOf c
  require (expectedDigest = c.authorizationDigest)
    ⟨.invalidCommitAuthorization, "commit authorization digest is invalid"⟩
  require (authorizationIdOf expectedDigest = c.authorizationId)
    ⟨.invalidCommitAuthorization, "commit authorization ID is invalid"⟩
  require (sealOf s.secret c.authorizationId c.authorizationDigest (authorizationPayload c) = c.sealHex)
    ⟨.invalidCommitAuthorization, "commit authorization seal is invalid"⟩
  require (c.issuedAt ≤ now)
    ⟨.expiredCommitAuthorization, "commit authorization issue time is in the future"⟩
  require (now < c.expiresAt)
    ⟨.expiredCommitAuthorization, "commit authorization has expired"⟩
  let (approval, issued) ← s.registeredApproval c.authorizationDigest
  matchRegisteredApproval c approval.val issued.val now
  return ⟨claims, approval, now, s.consumed c.nonce⟩

def verify (s : AuthorityState) (clock : Instant) (authorization : CommitAuthorization) :
    AuthorityState × Except Failure VerifiedCommitClaims :=
  match snapshotAuthorization authorization with
  | .error failure => (s, .error failure)
  | .ok claims => s.observing clock fun s => do
      let verified ← s.verifyLocked claims clock
      return (s, verified)

def consume (s : AuthorityState) (clock : Instant) (verified : VerifiedCommitClaims) :
    AuthorityState × Except Failure ConsumedCommitAuthorization :=
  s.observing clock fun s => do
    let current ← s.verifyLocked verified.claims clock
    require (current.previouslyConsumedAuthorizationDigest = none)
      ⟨.replayedCommitAuthorization, "commit authorization nonce has already been consumed"⟩
    let claims := current.claims
    return ({ s with consumed := s.consumed.set claims.val.nonce claims.val.authorizationDigest },
      ⟨claims, current.releaseApproval, current.verifiedAt⟩)

end AuthorityState

end Records

end Evleda.Kernel
