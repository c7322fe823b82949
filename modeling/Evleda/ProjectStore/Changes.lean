/-
The revision that one command makes, with its evidence.

A `Change` is a command that leads from the graph of a revision to another graph.
Where every digest has the form of one, such a command can be staged, verified,
committed and attested: the transaction is a valid snapshot on the revision, the
revision it makes extends it, and the evidence binds the two.  What is left to
whoever appends it is that the digests are new to the store.
-/
import Evleda.ProjectStore.Accepting

namespace Evleda.ProjectStore

open Kernel Effect Outcome

section Changes

variable [UnicodeData] [Hashing]

/-- Every digest is a SHA-256 in hexadecimal. -/
def Hexadecimal : Prop := ∀ text : List Char, Text.isSha256 (Hashing.sha256 text) = true

/-- A command that leads from a revision to a graph of this hash. -/
structure Change (base : Revision) (command : Command) (graph : DesignGraph) (graphHash : String) :
    Prop where
  digests : Hexadecimal
  onBase : command.val.baseRevision = base.val.revisionHash
  payload : CanonicalPayload command
  baseStorable : StorableGraph base.val.graph
  storable : StorableGraph graph
  applies : applyCommand base.val.graph command.val = .ok graph
  hash : graph.graphHash = .ok graphHash
  changed : graphHash ≠ base.val.graphHash
  project : graph.projectId = base.val.graph.projectId

def previewOf (baseRevision transactionId graphHash : String) (commandHashes : List String) :
    String :=
  stableHash "flux-clone-preview-v2" (Json.object [
    ("base_revision", .str baseRevision), ("transaction_id", .str transactionId),
    ("staged_graph_hash", .str graphHash), ("command_hashes", textsJson commandHashes)])

variable {base : Revision} {command : Command} {graph : DesignGraph} {graphHash report : String}

/-- The transaction that is begun on the revision. -/
def opening (base : Revision) (command : Command) : DesignTransaction where
  transactionId := command.val.transactionId
  baseRevision := base.val.revisionHash
  stagedGraph := base.val.graph
  previewDigest := previewOf base.val.revisionHash command.val.transactionId base.val.graphHash []

def changedPreview (base : Revision) (command : Command) (graphHash : String) : String :=
  previewOf base.val.revisionHash command.val.transactionId graphHash [command.val.commandHash]

def staging (base : Revision) (command : Command) (graph : DesignGraph) (graphHash : String) :
    DesignTransaction where
  transactionId := command.val.transactionId
  baseRevision := base.val.revisionHash
  stagedGraph := graph
  commands := [command]
  previewDigest := changedPreview base command graphHash

/-- The same with a passing report on its preview. -/
def verifying (base : Revision) (command : Command) (graph : DesignGraph)
    (graphHash report : String) : DesignTransaction :=
  { staging base command graph graphHash with
    state := .verified
    verificationReportHash := some report
    commitGatePassed := true
    verificationPreviewDigest := some (changedPreview base command graphHash) }

/-- The revision that the transaction makes. -/
def changedRevision (base : Revision) (command : Command) (graph : DesignGraph)
    (graphHash report : String) : DesignRevision where
  revisionHash := revisionHashOf base.val.revisionHash (base.val.sequence + 1) graphHash
    [command.val.commandHash] (some report) (changedPreview base command graphHash)
  parentRevision := some base.val.revisionHash
  sequence := base.val.sequence + 1
  graph := graph
  graphHash := graphHash
  commandHashes := [command.val.commandHash]
  verificationReportHash := some report
  approvalPreviewDigest := some (changedPreview base command graphHash)

omit [UnicodeData] in
theorem Hexadecimal.stableHash (h : Hexadecimal) (domain : String) (value : Json) (label : String) :
    requireSha256 (Kernel.stableHash domain value) label = .ok () :=
  require_ok.mpr (h _)

omit [Hashing] in
theorem command_checks (c : Command) : c.val.checks = .ok () :=
  (checking_ok.mp c.accepted).1

theorem base_graphHash (base : Revision) : base.val.graph.graphHash = .ok base.val.graphHash := by
  have h := revision_checks base
  unfold DesignRevision.checks at h
  simp only [bind_ok, exists_unit, require_ok] at h
  obtain ⟨-, -, -, found, hfound, hsame, -⟩ := h
  rw [hsame]
  exact hfound

omit [Hashing] in
theorem command_ids (c : Command) : requireTransactionId c.val.transactionId = .ok () ∧
    requireId c.val.transactionId "transaction ID" = .ok () ∧
    ∀ label, requireSha256 c.val.baseRevision label = .ok () := by
  have h := command_checks c
  unfold DesignCommand.checks at h
  simp only [bind_ok, exists_unit] at h
  obtain ⟨-, hid, -, -, hbase⟩ := h
  obtain ⟨hne, hstrip, hspace, -⟩ := requireId_ok.mp hid
  exact ⟨require_ok.mpr ⟨hne, hstrip, hspace⟩, hid,
    fun _ => require_ok.mpr (require_ok.mp hbase)⟩

def kernelOf (base : Revision) : DesignKernel where
  revisions := Dict.empty.set base.val.revisionHash base
  head := base.val.revisionHash

namespace Change

variable (h : Change base command graph graphHash)

include h

theorem base_isSha256 (label : String) : requireSha256 base.val.revisionHash label = .ok () := by
  rw [← h.onBase]
  exact (command_ids command).2.2 label

theorem opening_checks (preview : String)
    (hpreview : preview ≠ "" → requireSha256 preview "transaction preview digest" = .ok ()) :
    ({ opening base command with previewDigest := preview } : DesignTransaction).checks =
      .ok () := by
  unfold DesignTransaction.checks
  simp only [bind_ok, exists_unit, require_ok, requireWhen_ok,
    forM_ok]
  refine ⟨(command_ids command).2.1, h.base_isSha256 _, hpreview, ?_⟩
  simp [opening]

theorem staging_checks {preview : String}
    (hpreview : requireSha256 preview "transaction preview digest" = .ok ()) :
    ({ staging base command graph graphHash with
      previewDigest := preview } : DesignTransaction).checks = .ok () := by
  unfold DesignTransaction.checks
  simp only [bind_ok, exists_unit, require_ok, requireWhen_ok,
    forM_ok]
  refine ⟨(command_ids command).2.1, h.base_isSha256 _, fun _ => hpreview, ?_⟩
  simp [staging, h.onBase]

theorem verifying_checks (hreport : ∀ label, requireSha256 report label = .ok ()) :
    (verifying base command graph graphHash report).checks = .ok () := by
  have hpreview : ∀ label, requireSha256 (changedPreview base command graphHash) label = .ok () :=
    fun label => h.digests.stableHash _ _ label
  unfold DesignTransaction.checks
  simp only [bind_ok, exists_unit, require_ok, requireWhen_ok,
    forM_ok]
  refine ⟨(command_ids command).2.1, h.base_isSha256 _, fun _ => hpreview _, ?_, ?_, ?_⟩
  · simpa [verifying] using hreport "verification report hash"
  · simpa [verifying] using hpreview "verified preview digest"
  · simp [verifying, staging, h.onBase]

theorem opens {k : DesignKernel} {opened : Transaction} (hopened : opened.val = opening base command)
    (hhead : k.head = base.val.revisionHash)
    (hbase : k.revisions base.val.revisionHash = some base) :
    openTransaction k command.val.transactionId base.val.revisionHash = .ok opened := by
  have haccepted := checking_ok.mpr ⟨h.opening_checks "" (by simp), rfl⟩
  have hpreview : previewDigestOf { opening base command with previewDigest := "" } =
      .ok (opening base command).previewDigest := by
    unfold previewDigestOf
    rw [bind_ok]
    exact ⟨_, base_graphHash base, pure_ok.mpr rfl⟩
  unfold openTransaction headRevision
  simp only [bind_ok, exists_unit, require_ok, hhead, found_ok, hbase]
  refine ⟨trivial, base, rfl, ⟨_, haccepted⟩, Checked.make_ok.mpr haccepted, ?_⟩
  unfold refreshPreview
  rw [bind_ok]
  refine ⟨_, hpreview, Checked.make_ok.mpr ?_⟩
  show checking DesignTransaction.checks (opening base command) = _
  rw [← hopened]
  exact opened.accepted

theorem graph_ne : graph ≠ base.val.graph := by
  intro hsame
  have hhash := h.hash
  rw [hsame, base_graphHash base, Except.ok.injEq] at hhash
  exact h.changed hhash.symm

theorem extends_opening {message : String} {opened staged : Transaction}
    (hopened : opened.val = opening base command)
    (hstaged : staged.val = staging base command graph graphHash) :
    extend message opened command = .ok staged := by
  have hpreview : previewDigestOf (staging base command graph graphHash) =
      .ok (changedPreview base command graphHash) := by
    unfold previewDigestOf
    rw [bind_ok]
    exact ⟨_, h.hash, pure_ok.mpr rfl⟩
  rw [← hstaged] at hpreview
  refine extend_makes (by rw [hopened]; rfl) (by rw [hopened]; exact h.applies) h.storable.1
    (by rw [hopened]; exact h.graph_ne) ?_ hpreview
  rw [hopened, hstaged]
  rfl

theorem fromRevision_ok : fromRevision base = .ok (kernelOf base) := by
  unfold fromRevision
  simp only [bind_ok, exists_unit, require_ok, pure_ok]
  exact ⟨_, h.baseStorable.2, h.baseStorable.1, _, base_graphHash base, ⟨rfl, rfl⟩, rfl⟩

theorem replays {verified : Transaction}
    (hverified : verified.val = verifying base command graph graphHash report)
    (hreport : ∀ label, requireSha256 report label = .ok ()) (revisionHash : String) :
    ((replay (committedAs revisionHash verified.val)).run (kernelOf base)).1 = .ok verified := by
  have hpreview : ∀ label, requireSha256 (changedPreview base command graphHash) label = .ok () :=
    fun label => h.digests.stableHash _ _ label
  -- the transaction is begun
  let opened : Transaction := ⟨opening base command, checking_ok.mpr
    ⟨h.opening_checks _ fun _ => h.digests.stableHash _ _ _, rfl⟩⟩
  let k₁ : DesignKernel := { kernelOf base with
    transactions := (kernelOf base).transactions.set command.val.transactionId opened }
  have hbegin : (beginTransaction command.val.transactionId base.val.revisionHash).run
      (kernelOf base) = (.ok opened, k₁) :=
    beginTransaction_opens (command_ids command).1 (h.base_isSha256 _) rfl
      (h.opens rfl rfl (Dict.set_self Dict.empty _ _))
  -- the command is staged
  let staged : Transaction := ⟨staging base command graph graphHash,
    checking_ok.mpr ⟨h.staging_checks (hpreview _), rfl⟩⟩
  let k₂ := Kernel.staged k₁ command staged
  have hstage : (stage command).run k₁ = (.ok staged, k₂) :=
    stage_returns.mpr ⟨opened, Dict.set_self (kernelOf base).transactions _ _, h.onBase,
      Or.inr ⟨rfl, rfl, h.extends_opening rfl rfl, rfl⟩⟩
  have hstageAll : (stageAll opened [command]).run k₁ = (.ok staged, k₂) := by
    unfold stageAll
    rw [List.foldlM_cons]
    exact bind_returns.mpr ⟨staged, _, hstage, by rw [List.foldlM_nil]; rfl⟩
  -- and the report is recorded
  have hmarked : verifiedTransaction staged report true (changedPreview base command graphHash) =
      .ok verified := by
    unfold verifiedTransaction
    rw [bind_ok]
    refine ⟨(), rfl, Checked.make_ok.mpr ?_⟩
    show checking DesignTransaction.checks (verifying base command graph graphHash report) = _
    rw [← hverified]
    exact verified.accepted
  have hsubject : verificationSubject (some (changedPreview base command graphHash)) staged =
      changedPreview base command graphHash := by
    unfold verificationSubject
    dsimp only
    split
    · rfl
    · rfl
  have hrecord := @recordVerification_records _ _ k₂ command.val.transactionId report true
    (some (changedPreview base command graphHash)) staged verified
    (Dict.set_self k₁.transactions _ _) (hreport _) hsubject (hpreview _)
    (by intro hstate; cases hstate) hmarked
  let k₃ : DesignKernel :=
    { k₂ with transactions := k₂.transactions.set command.val.transactionId verified }
  have hrun : (replay (committedAs revisionHash verified.val)).run (kernelOf base) =
      (.ok verified, k₃) := by
    rw [hverified]
    unfold replay
    refine bind_returns.mpr ⟨opened, k₁, hbegin, ?_⟩
    refine bind_returns.mpr ⟨staged, k₂, hstageAll, ?_⟩
    exact bind_returns.mpr ⟨verified, k₃, hrecord, rfl⟩
  rw [hrun]

theorem revision_checks (hreport : ∀ label, requireSha256 report label = .ok ()) :
    (changedRevision base command graph graphHash report).checks = .ok () := by
  have hhash : ∀ label, requireSha256 graphHash label = .ok () := by
    intro label
    have hgraph := h.hash
    unfold DesignGraph.graphHash at hgraph
    obtain ⟨_, -, hgraph⟩ := bind_ok.mp hgraph
    obtain ⟨_, -, hgraph⟩ := bind_ok.mp hgraph
    rw [← pure_ok.mp hgraph]
    exact h.digests.stableHash _ _ label
  have hcommand : ∀ label, requireSha256 command.val.commandHash label = .ok () :=
    fun label => h.digests.stableHash _ _ label
  have hpreview : ∀ label, requireSha256 (changedPreview base command graphHash) label = .ok () :=
    fun label => h.digests.stableHash _ _ label
  unfold DesignRevision.checks
  simp only [bind_ok, exists_unit, require_ok, forM_ok]
  refine ⟨h.digests.stableHash _ _ _, ?_, hhash _, graphHash, h.hash, rfl, ?_, ?_, ?_, ?_⟩
  · simpa [changedRevision] using h.base_isSha256 "parent revision hash"
  · simpa [changedRevision] using hcommand "revision command hash"
  · simpa [changedRevision] using hreport "revision verification report hash"
  · simpa [changedRevision] using hpreview "revision approval preview digest"
  · simp [changedRevision]

/-- **The committed transaction of a change is valid on its revision.** -/
theorem validates {committed : Transaction} {r : Revision}
    (hcommitted : committed.val =
      committedAs r.val.revisionHash (verifying base command graph graphHash report))
    (hr : r.val = changedRevision base command graph graphHash report)
    (hreport : ∀ label, requireSha256 report label = .ok ()) :
    validateTransaction committed base (some r) = .ok () := by
  let verified : Transaction := ⟨verifying base command graph graphHash report,
    checking_ok.mpr ⟨h.verifying_checks hreport, rfl⟩⟩
  have hreplayed : ((replay committed.val).run (kernelOf base)).1 = .ok verified := by
    rw [hcommitted]
    exact @replays _ _ base command graph graphHash report h verified rfl hreport _
  have hmarked : verified.replace (committedAs r.val.revisionHash) = .ok committed := by
    refine Checked.make_ok.mpr ?_
    show checking DesignTransaction.checks (committedAs r.val.revisionHash
      (verifying base command graph graphHash report)) = _
    rw [← hcommitted]
    exact committed.accepted
  have hpreview : r.val.approvalPreviewDigest = some (changedPreview base command graphHash) := by
    rw [hr]
    rfl
  have hcommit : replayCommit base verified (some r) = .ok committed :=
    replayCommit_makes hpreview ⟨rfl, rfl, Option.some_ne_none _, rfl, List.cons_ne_nil _ _⟩ h.hash
      h.changed h.storable.2 h.hash hr hmarked
  refine validateTransaction_committed ?_ ?_ ?_ h.fromRevision_ok hreplayed hcommit
  · rw [hcommitted]
    rfl
  · rw [hcommitted]
    exact h.project
  · rw [hcommitted]
    rfl

end Change

end Changes

end Evleda.ProjectStore
