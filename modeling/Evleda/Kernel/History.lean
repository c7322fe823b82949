/-
What every run of the kernel keeps.

The kernel ties several dictionaries together.  A transaction's staged graph is
the replay of its own commands on its base revision; its preview digest is the
digest of what it holds; a verified one carries a passing report on exactly that
preview.  The revisions form one line from the first to the head.

An operation moves the kernel in one of six ways, or not at all.  The proof says
once which moves there are, and then what each of the two halves of the invariant
needs of a move.
-/
import Evleda.Kernel.Operations
import Evleda.Lib.Replay
import Mathlib.Data.List.Chain
import Mathlib.Logic.Relation

namespace Evleda.Kernel

open Effect Outcome

section History

variable [UnicodeData] [Hashing]

/-! ### Operations and moves -/

inductive Operation where
  | beginTransaction (transactionId baseRevision : String)
  | stage (command : Command)
  | stageBatch (batch : List Command)
  | recordVerification (transactionId reportHash : String) (gatePassed : Bool)
      (verifiedPreviewDigest : Option String)
  | commit (verifier : Option CommitVerifier) (transactionId : String)
      (authorization : CommitAuthorization)
  | rollback (transactionId : String)

/-- The kernel after a call, accepted or rejected. -/
def perform (k : DesignKernel) : Operation → DesignKernel
  | .beginTransaction transactionId baseRevision =>
      ((beginTransaction transactionId baseRevision).run k).2
  | .stage command => ((stage command).run k).2
  | .stageBatch batch => ((stageBatch batch).run k).2
  | .recordVerification transactionId reportHash gatePassed digest =>
      ((recordVerification transactionId reportHash gatePassed digest).run k).2
  | .commit verifier transactionId authorization =>
      ((commit verifier transactionId authorization).run k).2
  | .rollback transactionId => ((rollback transactionId).run k).2

/-- One command more in a transaction. -/
def Extended (t t' : Transaction) : Prop := ∃ message command, extend message t command = .ok t'

/-- The ways in which an operation can change a kernel. -/
inductive Moves (k : DesignKernel) : DesignKernel → Prop
  | stays : Moves k k
  | opens {transactionId baseRevision : String} {t : Transaction}
      (hnew : k.transactions transactionId = none)
      (hopen : openTransaction k transactionId baseRevision = .ok t) :
      Moves k { k with transactions := k.transactions.set transactionId t }
  | extends {transactionId : String} {t₀ t : Transaction} {idempotency : Dict (String × String) String}
      {commandIds : Dict String String} (ht₀ : k.transactions transactionId = some t₀)
      (hextended : Relation.ReflTransGen Extended t₀ t) :
      Moves k { k with
        transactions := k.transactions.set transactionId t
        idempotency := idempotency
        commandIds := commandIds }
  | verifies {transactionId reportHash : String} {gatePassed : Bool} {t₀ t : Transaction}
      (ht₀ : k.transactions transactionId = some t₀)
      (hverified : verifiedTransaction t₀ reportHash gatePassed t₀.val.previewDigest = .ok t) :
      Moves k { k with transactions := k.transactions.set transactionId t }
  | rollsBack {transactionId : String} {t₀ t : Transaction}
      (ht₀ : k.transactions transactionId = some t₀) (hstate : t₀.val.state ≠ .committed)
      (hreplace : t₀.replace rolledBack = .ok t) :
      Moves k { k with transactions := k.transactions.set transactionId t }
  | commits {transactionId : String} {t₀ t : Transaction} {verified : VerifiedCommitClaims}
      {r : Revision} {consumed : ConsumedCommitAuthorization}
      (ht₀ : k.transactions transactionId = some t₀)
      (hrevision : committedRevision k t₀ verified = .ok r)
      (hreplace : t₀.replace (committedAs r.val.revisionHash) = .ok t) :
      Moves k (published k transactionId verified r consumed t)

theorem batch_extends {k : DesignKernel} {transactionId : String} {batch : List Command} :
    ∀ {progress progress' : BatchProgress},
      batch.foldlM (batchStep k transactionId) progress = .ok progress' →
      Relation.ReflTransGen Extended progress.transaction progress'.transaction := by
  induction batch with
  | nil =>
      intro progress progress' h
      rw [List.foldlM_nil, pure_ok] at h
      rw [h]
  | cons command rest ih =>
      intro progress progress' h
      obtain ⟨middle, hstep, hrest⟩ := foldlM_cons_ok.mp h
      refine Relation.ReflTransGen.trans ?_ (ih hrest)
      obtain ⟨-, rfl⟩ | ⟨-, -, next, hnext, rfl⟩ := batchStep_ok.mp hstep
      · exact Relation.ReflTransGen.refl
      · exact Relation.ReflTransGen.single ⟨_, command, hnext⟩

/-- What is left of the kernel when an operation's outcome is read off its run. -/
theorem moves_of_run {α : Type} {k : DesignKernel} {x : KernelM α} (hatomic : AtomicAt k x)
    (hreturns : ∀ a k', x.run k = (.ok a, k') → Moves k k') : Moves k (x.run k).2 := by
  cases hrun : x.run k with
  | mk result k' =>
      cases result with
      | ok a => exact hreturns a k' hrun
      | error e =>
          obtain rfl := hatomic e k' hrun
          exact .stays

/-- **Every operation makes one of the listed moves.** -/
theorem perform_moves (k : DesignKernel) (op : Operation) : Moves k (perform k op) := by
  cases op with
  | beginTransaction transactionId baseRevision =>
      refine moves_of_run (beginTransaction_atomicAt _ _) fun t k' h => ?_
      obtain rfl | ⟨hnew, hopen, rfl⟩ := beginTransaction_returns h
      · exact .stays
      · exact .opens hnew hopen
  | stage command =>
      refine moves_of_run (stage_atomicAt _) fun t k' h => ?_
      obtain ⟨t₀, ht₀, -, ⟨-, -, rfl⟩ | ⟨-, -, hextend, rfl⟩⟩ := stage_returns.mp h
      · exact .stays
      · exact .extends ht₀ (Relation.ReflTransGen.single ⟨_, command, hextend⟩)
  | stageBatch batch =>
      refine moves_of_run (stageBatch_atomicAt _) fun t k' h => ?_
      cases batch with
      | nil =>
          unfold stageBatch at h
          cases h
      | cons first rest =>
          obtain ⟨-, t₀, ht₀, -, progress, hfold, rfl, rfl⟩ := stageBatch_returns.mp h
          split
          · exact .stays
          · exact .extends ht₀ (batch_extends hfold)
  | recordVerification transactionId reportHash gatePassed digest =>
      refine moves_of_run (recordVerification_atomicAt _ _ _ _) fun t k' h => ?_
      obtain rfl | ⟨t₀, ht₀, hverified, rfl⟩ := recordVerification_returns h
      · exact .stays
      · exact .verifies ht₀ hverified
  | commit verifier transactionId authorization =>
      refine moves_of_run (commit_atomicAt _ _ _) fun r k' h => ?_
      obtain ⟨t, v, verified, ht, -, -, ⟨-, -, rfl⟩ | ⟨-, hrevision, consumed, -, t', ht', rfl⟩⟩ :=
        commit_returns.mp h
      · exact .stays
      · exact .commits ht hrevision ht'
  | rollback transactionId =>
      refine moves_of_run (rollback_atomicAt _) fun t k' h => ?_
      obtain rfl | ⟨t₀, ht₀, hstate, hreplace, rfl⟩ := rollback_returns h
      · exact .stays
      · exact .rollsBack ht₀ hstate hreplace

/-! ### Transactions -/

/-- The left fold of commands over a graph, each result in normal form. -/
def replayCommands (g : DesignGraph) (commands : List Command) : Except Failure DesignGraph :=
  commands.foldlM (fun g command => applyCommand g command.val) g

/-- What a stored transaction is, given the revisions it may be based on. -/
structure Faithful (revisions : Dict String Revision) (t : DesignTransaction) : Prop where
  replayed : ∃ base, revisions t.baseRevision = some base ∧
    replayCommands base.val.graph t.commands = .ok t.stagedGraph
  normal : t.stagedGraph.normalized = .ok t.stagedGraph
  valid : validateGraph t.stagedGraph = .ok ()
  preview : previewDigestOf t = .ok t.previewDigest
  verified : t.state = .verified ∨ t.state = .committed →
    t.commitGatePassed = true ∧ t.verificationReportHash ≠ none ∧
      t.verificationPreviewDigest = some t.previewDigest

theorem refreshPreview_ok {t t' : Transaction} (h : refreshPreview t = .ok t') :
    ∃ digest, previewDigestOf t.val = .ok digest ∧
      t'.val = { t.val with previewDigest := digest } := by
  unfold refreshPreview at h
  rw [bind_ok] at h
  obtain ⟨digest, hdigest, hreplace⟩ := h
  exact ⟨digest, hdigest, replace_ok hreplace⟩

theorem openTransaction_ok {k : DesignKernel} {transactionId baseRevision : String}
    {t : Transaction} (h : openTransaction k transactionId baseRevision = .ok t) :
    ∃ head digest, baseRevision = k.head ∧ k.revisions k.head = some head ∧
      previewDigestOf t.val = .ok digest ∧
      t.val = { transactionId := transactionId, baseRevision := baseRevision,
                stagedGraph := head.val.graph, previewDigest := digest } := by
  unfold openTransaction at h
  simp only [bind_ok, exists_unit, require_ok] at h
  obtain ⟨hbase, head, hhead, t₀, ht₀, hrefresh⟩ := h
  obtain ⟨digest, hdigest, ht⟩ := refreshPreview_ok hrefresh
  have hval := (checking_ok.mp (Checked.make_ok.mp ht₀)).2
  rw [hval] at hdigest ht
  refine ⟨head, digest, hbase, found_ok.mp hhead, ?_, ht⟩
  rw [ht]
  exact hdigest

theorem extend_ok {message : String} {t t' : Transaction} {command : Command}
    (h : extend message t command = .ok t') :
    ∃ g digest, t.val.state = .opened ∧ applyCommand t.val.stagedGraph command.val = .ok g ∧
      validateGraph g = .ok () ∧ previewDigestOf t'.val = .ok digest ∧
      t'.val = { t.val with
        stagedGraph := g
        commands := t.val.commands ++ [command]
        verificationReportHash := none
        verificationPreviewDigest := none
        commitGatePassed := false
        previewDigest := digest } := by
  unfold extend at h
  simp only [bind_ok, exists_unit, require_ok] at h
  obtain ⟨hstate, g, hg, hvalid, -, next, hnext, hrefresh⟩ := h
  obtain ⟨digest, hdigest, ht'⟩ := refreshPreview_ok hrefresh
  have hval := replace_ok hnext
  rw [hval] at hdigest ht'
  refine ⟨g, digest, hstate, hg, hvalid, ?_, ht'⟩
  rw [ht']
  exact hdigest

/-- A command that changes the staged graph into a valid one is staged, where the transaction with it
passes its checks under its new preview. -/
theorem extend_makes {message digest : String} {t t' : Transaction} {command : Command}
    {g : DesignGraph} (hstate : t.val.state = .opened)
    (hg : applyCommand t.val.stagedGraph command.val = .ok g) (hvalid : validateGraph g = .ok ())
    (hne : g ≠ t.val.stagedGraph)
    (hval : t'.val = { t.val with
      stagedGraph := g
      commands := t.val.commands ++ [command]
      verificationReportHash := none
      verificationPreviewDigest := none
      commitGatePassed := false
      previewDigest := digest })
    (hdigest : previewDigestOf t'.val = .ok digest) : extend message t command = .ok t' := by
  have hchecks : ({ t.val with
      stagedGraph := g
      commands := t.val.commands ++ [command]
      verificationReportHash := none
      verificationPreviewDigest := none
      commitGatePassed := false } : DesignTransaction).checks = .ok () := by
    have ht := transaction_checks t
    have ht' := transaction_checks t'
    rw [hval] at ht'
    unfold DesignTransaction.checks at ht ht' ⊢
    simp only [bind_ok, exists_unit, require_ok, hstate] at ht ht' ⊢
    obtain ⟨-, -, hpreview, -⟩ := ht
    obtain ⟨hid, hbase, -, hreport, hverified, hcommitted, hids, hkeys, hbound, -, hrest⟩ := ht'
    refine ⟨hid, hbase, hpreview, hreport, hverified, hcommitted, hids, hkeys, hbound, ?_, hrest⟩
    intro hopened
    cases hopened
  rw [hval] at hdigest
  unfold extend
  simp only [bind_ok, exists_unit, require_ok]
  refine ⟨hstate, g, hg, hvalid, hne, ⟨_, checking_ok.mpr ⟨hchecks, rfl⟩⟩,
    Checked.make_ok.mpr (checking_ok.mpr ⟨hchecks, rfl⟩), ?_⟩
  unfold refreshPreview
  rw [bind_ok]
  refine ⟨digest, hdigest, ?_⟩
  have haccepted := t'.accepted
  unfold Transaction.replace Checked.replace
  rw [Checked.make_ok]
  rw [hval] at haccepted ⊢
  exact haccepted

theorem applyCommand_normal {g g' : DesignGraph} {command : DesignCommand}
    (h : applyCommand g command = .ok g') (hvalid : validateGraph g' = .ok ()) :
    g'.normalized = .ok g' := by
  unfold applyCommand at h
  rw [bind_ok] at h
  obtain ⟨applied, -, hnormalized⟩ := h
  exact normalized_idem hnormalized hvalid

theorem replayCommands_snoc {g g' g'' : DesignGraph} {commands : List Command} {command : Command}
    (h : replayCommands g commands = .ok g') (hstep : applyCommand g' command.val = .ok g'') :
    replayCommands g (commands ++ [command]) = .ok g'' := by
  refine foldlM_append_ok.mpr ⟨g', h, ?_⟩
  exact foldlM_cons_ok.mpr ⟨g'', hstep, rfl⟩

theorem Faithful.extended {revisions : Dict String Revision} {t t' : Transaction}
    (h : Faithful revisions t.val) (hextended : Extended t t') :
    Faithful revisions t'.val ∧ t'.val.transactionId = t.val.transactionId := by
  obtain ⟨message, command, hextend⟩ := hextended
  obtain ⟨g, digest, hstate, hg, hvalid, hdigest, ht'⟩ := extend_ok hextend
  obtain ⟨base, hbase, hreplay⟩ := h.replayed
  rw [ht'] at hdigest ⊢
  refine ⟨⟨⟨base, hbase, replayCommands_snoc hreplay hg⟩, applyCommand_normal hg hvalid, hvalid,
    hdigest, ?_⟩, rfl⟩
  -- an extended transaction is open again
  rintro (hverified | hcommitted)
  · exact absurd (hstate.symm.trans hverified) (by decide)
  · exact absurd (hstate.symm.trans hcommitted) (by decide)

theorem Faithful.extendedMany {revisions : Dict String Revision} {t t' : Transaction}
    (h : Faithful revisions t.val) (hextended : Relation.ReflTransGen Extended t t') :
    Faithful revisions t'.val ∧ t'.val.transactionId = t.val.transactionId := by
  induction hextended with
  | refl => exact ⟨h, rfl⟩
  | tail _ hstep ih =>
      obtain ⟨hfaithful, hid⟩ := Faithful.extended ih.1 hstep
      exact ⟨hfaithful, hid.trans ih.2⟩

theorem Faithful.verifies {revisions : Dict String Revision} {t t' : Transaction}
    {reportHash : String} {gatePassed : Bool} (h : Faithful revisions t.val)
    (hverified : verifiedTransaction t reportHash gatePassed t.val.previewDigest = .ok t') :
    Faithful revisions t'.val ∧ t'.val.transactionId = t.val.transactionId := by
  unfold verifiedTransaction at hverified
  simp only [bind_ok, exists_unit, require_ok] at hverified
  rw [replace_ok hverified.2]
  refine ⟨⟨h.replayed, h.normal, h.valid, h.preview, ?_⟩, rfl⟩
  intro hstate
  cases gatePassed with
  | true => exact ⟨rfl, by simp, rfl⟩
  | false => simp at hstate

theorem Faithful.rollsBack {revisions : Dict String Revision} {t t' : Transaction}
    (h : Faithful revisions t.val) (hreplace : t.replace rolledBack = .ok t') :
    Faithful revisions t'.val ∧ t'.val.transactionId = t.val.transactionId := by
  rw [replace_ok hreplace]
  refine ⟨⟨h.replayed, h.normal, h.valid, h.preview, ?_⟩, rfl⟩
  rintro (hstate | hstate) <;> cases hstate

theorem Faithful.commits {revisions : Dict String Revision} {t t' : Transaction}
    {revisionHash : String} (h : Faithful revisions t.val) (hstate : t.val.state = .verified)
    (hreplace : t.replace (committedAs revisionHash) = .ok t') :
    Faithful revisions t'.val ∧ t'.val.transactionId = t.val.transactionId := by
  rw [replace_ok hreplace]
  exact ⟨⟨h.replayed, h.normal, h.valid, h.preview, fun _ => h.verified (Or.inl hstate)⟩, rfl⟩

theorem Faithful.mono {revisions revisions' : Dict String Revision} {t : DesignTransaction}
    (h : Faithful revisions t)
    (hsub : ∀ hash r, revisions hash = some r → revisions' hash = some r) :
    Faithful revisions' t := by
  obtain ⟨base, hbase, hreplay⟩ := h.replayed
  exact ⟨⟨base, hsub _ _ hbase, hreplay⟩, h.normal, h.valid, h.preview, h.verified⟩

/-! ### The line of revisions -/

/-- `r` was committed on `p`, by a transaction whose commands lead from `p` to `r`. -/
structure Follows (k : DesignKernel) (p r : Revision) : Prop where
  parent : r.val.parentRevision = some p.val.revisionHash
  sequence : r.val.sequence = p.val.sequence + 1
  committed : ∃ transactionId t, k.transactions transactionId = some t ∧
    t.val.state = .committed ∧ t.val.committedRevisionHash = some r.val.revisionHash ∧
    t.val.baseRevision = p.val.revisionHash ∧
    replayCommands p.val.graph t.val.commands = .ok r.val.graph

/-- The revisions of a kernel, from the first to the head. -/
structure IsLine (k : DesignKernel) (root : Revision) (line : List Revision) : Prop where
  first : line.head? = some root
  last : ∃ head, line.getLast? = some head ∧ head.val.revisionHash = k.head
  stored : ∀ hash r, k.revisions hash = some r ↔ r ∈ line ∧ r.val.revisionHash = hash
  linked : line.IsChain (Follows k)
  sequences : line.map (·.val.sequence) = List.range line.length

/-- A revision's hash is taken over a record of its sequence number. -/
def Hashed (r : DesignRevision) : Prop :=
  ∃ members, r.revisionHash = stableHash revisionDomain (Json.object members) ∧
    ("sequence", Json.int r.sequence) ∈ members

/-- A stored revision holds a normal, valid graph and is found under its own hash. -/
structure Sound (r : Revision) : Prop where
  normal : r.val.graph.normalized = .ok r.val.graph
  valid : validateGraph r.val.graph = .ok ()
  hashed : Hashed r.val

theorem IsLine.sequence_lt {k : DesignKernel} {root : Revision} {line : List Revision}
    (h : IsLine k root line) {r : Revision} (hr : r ∈ line) : r.val.sequence < line.length := by
  have hmem : r.val.sequence ∈ line.map (·.val.sequence) := List.mem_map_of_mem hr
  rw [h.sequences] at hmem
  exact List.mem_range.mp hmem

theorem IsLine.head {k : DesignKernel} {root head : Revision} {line : List Revision}
    (h : IsLine k root line) (hhead : k.revisions k.head = some head) :
    line.getLast? = some head ∧ head.val.sequence + 1 = line.length := by
  obtain ⟨last, hlast, hhash⟩ := h.last
  have hmem : last ∈ line := List.mem_of_getLast? hlast
  have hstored := (h.stored k.head last).mpr ⟨hmem, hhash⟩
  obtain rfl : head = last := Option.some.inj (hhead.symm.trans hstored)
  refine ⟨hlast, ?_⟩
  have hrange : (line.map (·.val.sequence)).getLast? = some head.val.sequence := by
    rw [List.getLast?_map, hlast]
    rfl
  rw [h.sequences, List.getLast?_range] at hrange
  have hpos : 0 < line.length := List.length_pos_of_mem hmem
  rw [if_neg (by omega)] at hrange
  have := Option.some.inj hrange
  omega

variable {verified : VerifiedCommitClaims}

theorem committedRevision_ok {k : DesignKernel} {t : Transaction}
    {r : Revision} (h : committedRevision k t verified = .ok r) :
    ∃ parent graph graphHash, verified.previouslyConsumedAuthorizationDigest = none ∧
      t.val.baseRevision = k.head ∧ t.val.state = .verified ∧
      matchCommitAuthorization t.val verified = .ok () ∧ k.revisions k.head = some parent ∧
      t.val.stagedGraph.normalized = .ok graph ∧ graph.graphHash = .ok graphHash ∧
      r.val = ⟨revisionHashOf parent.val.revisionHash (parent.val.sequence + 1) graphHash
          t.val.commandHashes t.val.verificationReportHash verified.claims.val.previewDigest,
        some parent.val.revisionHash, parent.val.sequence + 1, graph, graphHash,
        t.val.commandHashes, t.val.verificationReportHash,
        some verified.claims.val.previewDigest⟩ := by
  unfold committedRevision at h
  simp only [bind_ok, exists_unit, require_ok] at h
  obtain ⟨hfresh, hbase, hstate, hmatch, parent, hparent, _, -, -, graph, hgraph, graphHash,
    hgraphHash, hmake⟩ := h
  exact ⟨parent, graph, graphHash, hfresh, hbase, hstate.1, hmatch, found_ok.mp hparent, hgraph,
    hgraphHash, (checking_ok.mp (Checked.make_ok.mp hmake)).2⟩

theorem committedRevision_makes {k : DesignKernel} {t : Transaction}
    {parent r : Revision} {graphHash : String}
    (hfresh : verified.previouslyConsumedAuthorizationDigest = none)
    (hbase : t.val.baseRevision = k.head)
    (hverified : t.val.state = .verified ∧ t.val.commitGatePassed = true)
    (hmatch : matchCommitAuthorization t.val verified = .ok ())
    (hparent : headRevision k = .ok parent) (hgraph : t.val.stagedGraph.graphHash = .ok graphHash)
    (hchanged : t.val.commands ≠ [] ∧ graphHash ≠ parent.val.graphHash)
    (hnormal : t.val.stagedGraph.normalized = .ok t.val.stagedGraph)
    (hr : r.val = ⟨revisionHashOf parent.val.revisionHash (parent.val.sequence + 1) graphHash
        t.val.commandHashes t.val.verificationReportHash verified.claims.val.previewDigest,
      some parent.val.revisionHash, parent.val.sequence + 1, t.val.stagedGraph, graphHash,
      t.val.commandHashes, t.val.verificationReportHash,
      some verified.claims.val.previewDigest⟩) :
    committedRevision k t verified = .ok r := by
  unfold committedRevision
  simp only [bind_ok, exists_unit, require_ok]
  refine ⟨hfresh, hbase, hverified, hmatch, parent, hparent, graphHash, hgraph, hchanged, _,
    hnormal, graphHash, hgraph, ?_⟩
  rw [← hr]
  exact Checked.make_ok.mpr r.accepted

/-- The hash of a new revision is not taken: its record has a number no stored one has. -/
theorem committedRevision_fresh (hfree : Hashing.CollisionFree) {k : DesignKernel}
    {root : Revision} {line : List Revision} (hline : IsLine k root line)
    (hsound : ∀ r ∈ line, Sound r) {t : Transaction}
    {r : Revision} (h : committedRevision k t verified = .ok r) :
    k.revisions r.val.revisionHash = none := by
  obtain ⟨parent, graph, graphHash, -, -, -, -, hparent, -, -, hval⟩ := committedRevision_ok h
  cases hstored : k.revisions r.val.revisionHash with
  | none => rfl
  | some taken =>
      exfalso
      obtain ⟨hmem, hhash⟩ := (hline.stored _ _).mp hstored
      obtain ⟨members, hmembers, hsequence⟩ := (hsound taken hmem).hashed
      rw [hmembers, hval] at hhash
      have hperm := Json.perm_of_object_eq (Hashing.inDomain_inj hfree hhash)
      have hnumber := hperm.mem_iff.mp hsequence
      have hequal : taken.val.sequence = parent.val.sequence + 1 := by
        simpa [← Int.natCast_inj] using hnumber
      have hlt := hline.sequence_lt hmem
      have hlast := (hline.head hparent).2
      omega

/-! ### The invariant -/

/-- What holds of a kernel that started from `root`. -/
structure Consistent (root : Revision) (k : DesignKernel) : Prop where
  transactions : ∀ transactionId t, k.transactions transactionId = some t →
    t.val.transactionId = transactionId ∧ Faithful k.revisions t.val
  revisions : ∃ line, IsLine k root line ∧ ∀ r ∈ line, Sound r

theorem Follows.mono {k k' : DesignKernel} {p r : Revision} (h : Follows k p r)
    (hkept : ∀ transactionId t, k.transactions transactionId = some t →
      t.val.state = .committed → k'.transactions transactionId = some t) : Follows k' p r := by
  obtain ⟨transactionId, t, ht, hstate, hrest⟩ := h.committed
  exact ⟨h.parent, h.sequence, transactionId, t, hkept _ _ ht hstate, hstate, hrest⟩

/-- A committed transaction survives an assignment that leaves committed ones alone. -/
theorem kept_of_set {transactions : Dict String Transaction} {transactionId : String}
    {t : Transaction}
    (hkept : ∀ t₀, transactions transactionId = some t₀ → t₀.val.state = .committed → t = t₀)
    (other : String) (t' : Transaction) (ht' : transactions other = some t')
    (hstate : t'.val.state = .committed) :
    transactions.set transactionId t other = some t' := by
  by_cases hother : other = transactionId
  · subst hother
    rw [Dict.set_self, hkept t' ht' hstate]
  · rw [Dict.set_of_ne _ _ hother, ht']

/-- Assigning a faithful transaction, none committed replaced, keeps the invariant. -/
theorem Consistent.setTransaction {root : Revision} {k k' : DesignKernel}
    {transactionId : String} {t : Transaction} (h : Consistent root k)
    (hrevisions : k'.revisions = k.revisions) (hhead : k'.head = k.head)
    (htransactions : k'.transactions = k.transactions.set transactionId t)
    (hid : t.val.transactionId = transactionId) (hfaithful : Faithful k.revisions t.val)
    (hkept : ∀ t₀, k.transactions transactionId = some t₀ → t₀.val.state = .committed → t = t₀) :
    Consistent root k' := by
  constructor
  · intro other t' ht'
    rw [htransactions] at ht'
    rw [hrevisions]
    obtain ⟨rfl, rfl⟩ | ⟨-, hother⟩ := Dict.set_eq_some ht'
    · exact ⟨hid, hfaithful⟩
    · exact h.transactions other t' hother
  · obtain ⟨line, hline, hsound⟩ := h.revisions
    refine ⟨line, ⟨hline.first, ?_, ?_, ?_, hline.sequences⟩, hsound⟩
    · rw [hhead]
      exact hline.last
    · rw [hrevisions]
      exact hline.stored
    · refine hline.linked.imp fun p r hfollows => hfollows.mono ?_
      rw [htransactions]
      exact kept_of_set hkept

theorem eq_of_extended_committed {t t' : Transaction}
    (h : Relation.ReflTransGen Extended t t') (hstate : t.val.state = .committed) : t' = t := by
  induction h using Relation.ReflTransGen.head_induction_on with
  | refl => rfl
  | head hstep _ _ =>
      obtain ⟨message, command, hextend⟩ := hstep
      obtain ⟨g, digest, hopened, -⟩ := extend_ok hextend
      exact absurd (hopened.symm.trans hstate) (by decide)

theorem Consistent.published (hfree : Hashing.CollisionFree) {root : Revision} {k : DesignKernel}
    {transactionId : String} {t₀ t : Transaction} {r : Revision}
    {consumed : ConsumedCommitAuthorization} (h : Consistent root k)
    (ht₀ : k.transactions transactionId = some t₀)
    (hrevision : committedRevision k t₀ verified = .ok r)
    (hreplace : t₀.replace (committedAs r.val.revisionHash) = .ok t) :
    Consistent root (published k transactionId verified r consumed t) := by
  obtain ⟨line, hline, hsound⟩ := h.revisions
  obtain ⟨hid, hfaithful⟩ := h.transactions _ _ ht₀
  have hnew := committedRevision_fresh hfree hline hsound hrevision
  obtain ⟨parent, graph, graphHash, -, hbase, hstate, -, hparent, hgraph, -, hval⟩ :=
    committedRevision_ok hrevision
  obtain rfl : t₀.val.stagedGraph = graph := Except.ok.inj (hfaithful.normal.symm.trans hgraph)
  obtain ⟨hlast, hlength⟩ := hline.head hparent
  have hsub : ∀ hash r', k.revisions hash = some r' →
      k.revisions.set r.val.revisionHash r hash = some r' := by
    intro hash r' hr'
    rw [Dict.set_of_ne _ _ ?_, hr']
    rintro rfl
    rw [hnew] at hr'
    cases hr'
  obtain ⟨hfaithful', hid'⟩ := Faithful.commits hfaithful hstate hreplace
  have hkept : ∀ t', k.transactions transactionId = some t' → t'.val.state = .committed → t = t' := by
    intro t' ht' hcommitted
    obtain rfl : t₀ = t' := Option.some.inj (ht₀.symm.trans ht')
    exact absurd (hstate.symm.trans hcommitted) (by decide)
  constructor
  · intro other t' ht'
    obtain ⟨rfl, rfl⟩ | ⟨-, hother⟩ := Dict.set_eq_some ht'
    · exact ⟨hid'.trans hid, hfaithful'.mono hsub⟩
    · obtain ⟨hid'', hfaithful''⟩ := h.transactions other t' hother
      exact ⟨hid'', hfaithful''.mono hsub⟩
  · refine ⟨line ++ [r], ⟨?_, ⟨r, by simp, rfl⟩, ?_, ?_, ?_⟩, ?_⟩
    · rw [List.head?_append, hline.first]
      rfl
    · -- what is stored is what was stored, and the new revision
      intro hash r'
      rw [List.mem_append, List.mem_singleton]
      constructor
      · intro hstored
        obtain ⟨rfl, rfl⟩ | ⟨-, hold⟩ := Dict.set_eq_some hstored
        · exact ⟨Or.inr rfl, rfl⟩
        · obtain ⟨hmem, hhash⟩ := (hline.stored _ _).mp hold
          exact ⟨Or.inl hmem, hhash⟩
      · rintro ⟨hmem | rfl, rfl⟩
        · exact hsub _ _ ((hline.stored _ _).mpr ⟨hmem, rfl⟩)
        · exact Dict.set_self ..
    · refine List.isChain_append.mpr ⟨?_, List.IsChain.singleton r, ?_⟩
      · refine hline.linked.imp fun p r' hfollows => hfollows.mono ?_
        exact kept_of_set hkept
      · intro p hp r' hr'
        rw [List.head?_cons, Option.mem_some_iff] at hr'
        subst hr'
        obtain rfl : p = parent := Option.some.inj ((Option.mem_def.mp hp).symm.trans hlast)
        obtain ⟨base, hbaseStored, hreplay⟩ := hfaithful.replayed
        rw [hbase] at hbaseStored
        obtain rfl : p = base := Option.some.inj (hparent.symm.trans hbaseStored)
        have hpHash : p.val.revisionHash = k.head := ((hline.stored _ _).mp hparent).2
        refine ⟨by rw [hval], by rw [hval], transactionId, t, Dict.set_self .., ?_, ?_, ?_, ?_⟩
        all_goals rw [replace_ok hreplace]
        · rfl
        · rfl
        · exact hbase.trans hpHash.symm
        · rw [hval]
          exact hreplay
    · rw [List.map_append, List.length_append, List.map_singleton, List.length_singleton,
        List.range_succ, hline.sequences, hval, hlength]
    · intro r' hr'
      rw [List.mem_append, List.mem_singleton] at hr'
      rcases hr' with hr' | rfl
      · exact hsound r' hr'
      · refine ⟨?_, ?_, ?_⟩
        · rw [hval]
          exact hfaithful.normal
        · rw [hval]
          exact hfaithful.valid
        · rw [hval]
          exact ⟨_, rfl, by simp⟩

/-- **One move keeps the invariant.** -/
theorem Consistent.moves (hfree : Hashing.CollisionFree) {root : Revision} {k k' : DesignKernel}
    (h : Consistent root k) (hmoves : Moves k k') : Consistent root k' := by
  cases hmoves with
  | stays => exact h
  | @opens transactionId baseRevision t hnew hopen =>
      obtain ⟨head, digest, hbase, hhead, hdigest, hval⟩ := openTransaction_ok hopen
      obtain ⟨line, hline, hsound⟩ := h.revisions
      have hheadSound := hsound head ((hline.stored _ _).mp hhead).1
      refine h.setTransaction rfl rfl rfl (by rw [hval]) ?_ ?_
      · rw [hval] at hdigest ⊢
        refine ⟨⟨head, ?_, rfl⟩, hheadSound.normal, hheadSound.valid, hdigest, ?_⟩
        · rw [hbase]
          exact hhead
        · rintro (hstate | hstate) <;> cases hstate
      · intro t₀ ht₀
        rw [hnew] at ht₀
        cases ht₀
  | @«extends» transactionId t₀ t _ _ ht₀ hextended =>
      obtain ⟨hid, hfaithful⟩ := h.transactions _ _ ht₀
      obtain ⟨hfaithful', hid'⟩ := hfaithful.extendedMany hextended
      refine h.setTransaction rfl rfl rfl (hid'.trans hid) hfaithful' ?_
      intro t₁ ht₁ hstate
      obtain rfl : t₀ = t₁ := Option.some.inj (ht₀.symm.trans ht₁)
      exact eq_of_extended_committed hextended hstate
  | @verifies transactionId reportHash gatePassed t₀ t ht₀ hverified =>
      obtain ⟨hid, hfaithful⟩ := h.transactions _ _ ht₀
      obtain ⟨hfaithful', hid'⟩ := hfaithful.verifies hverified
      refine h.setTransaction rfl rfl rfl (hid'.trans hid) hfaithful' ?_
      intro t₁ ht₁ hstate
      obtain rfl : t₀ = t₁ := Option.some.inj (ht₀.symm.trans ht₁)
      unfold verifiedTransaction at hverified
      simp only [bind_ok, require_ok, hstate, reduceCtorEq, false_and,
        exists_false] at hverified
  | @rollsBack transactionId t₀ t ht₀ hstate hreplace =>
      obtain ⟨hid, hfaithful⟩ := h.transactions _ _ ht₀
      obtain ⟨hfaithful', hid'⟩ := hfaithful.rollsBack hreplace
      refine h.setTransaction rfl rfl rfl (hid'.trans hid) hfaithful' ?_
      intro t₁ ht₁ hcommitted
      obtain rfl : t₀ = t₁ := Option.some.inj (ht₀.symm.trans ht₁)
      exact absurd hcommitted hstate
  | @commits transactionId t₀ t verified r consumed ht₀ hrevision hreplace =>
      exact h.published hfree ht₀ hrevision hreplace

/-- A fresh kernel holds one revision and no transaction. -/
theorem init_consistent {g : DesignGraph} {k : DesignKernel} (h : DesignKernel.init g = .ok k) :
    ∃ root, k.revisions k.head = some root ∧ Consistent root k := by
  unfold DesignKernel.init at h
  simp only [bind_ok, exists_unit, pure_ok] at h
  obtain ⟨normalized, hnormalized, hvalid, graphHash, -, root, hroot, rfl⟩ := h
  have hval := (checking_ok.mp (Checked.make_ok.mp hroot)).2
  have hhash : root.val.revisionHash = genesisHash graphHash := by rw [hval]
  refine ⟨root, Dict.set_self .., ?_, [root], ⟨rfl, ⟨root, rfl, hhash⟩, ?_, ?_, ?_⟩, ?_⟩
  · intro transactionId t ht
    cases ht
  · intro hash r
    rw [List.mem_singleton]
    constructor
    · intro hstored
      obtain ⟨rfl, rfl⟩ | ⟨-, hempty⟩ := Dict.set_eq_some hstored
      · exact ⟨rfl, hhash⟩
      · cases hempty
    · rintro ⟨rfl, rfl⟩
      rw [hhash]
      exact Dict.set_self ..
  · exact List.IsChain.singleton root
  · rw [List.map_singleton, hval]
    rfl
  · intro r hr
    rw [List.mem_singleton] at hr
    rw [hr]
    refine ⟨?_, ?_, ?_⟩
    · rw [hval]
      exact normalized_idem hnormalized hvalid
    · rw [hval]
      exact hvalid
    · rw [hval]
      exact ⟨_, rfl, by simp⟩

/-- **Every run from a fresh kernel keeps its transactions faithful and its revisions in line.**
The first revision of the line is the one the kernel was created with. -/
theorem run_consistent (hfree : Hashing.CollisionFree) {g : DesignGraph} {k : DesignKernel}
    (h : DesignKernel.init g = .ok k) (operations : List Operation) :
    ∃ root, k.revisions k.head = some root ∧ Consistent root (replay perform k operations) := by
  obtain ⟨root, hroot, hconsistent⟩ := init_consistent h
  refine ⟨root, hroot, ?_⟩
  refine Replay.invariant hconsistent ?_ operations
  intro k' op hk'
  exact hk'.moves hfree (perform_moves k' op)

end History

/-! ### A fresh kernel of an empty design -/

/-- The Unicode tables on the characters of ASCII. -/
@[reducible] def asciiData : UnicodeData where
  isControl c := c.toNat < 32 || c.toNat == 127
  isPrintable c := 32 ≤ c.toNat && c.toNat < 127
  nfc := id

/-- A digest of sixty-four equal digits. -/
def plainDigest (c : Char) : String := String.ofList (List.replicate 64 c)

theorem plainDigest_isSha256 {c : Char} (h : Text.isLowerHex c = true) (label : String) :
    requireSha256 (plainDigest c) label = .ok () := by
  refine require_ok.mpr ?_
  unfold Text.isSha256 plainDigest
  simp [h]

/-- An empty design as the canonical encoder sees it. -/
def emptyGraphJson : Json :=
  Json.object [
    ("schema_version", .int 1), ("project_id", .str "demo"),
    ("layers", textsJson ["B.Cu", "F.Cu"]), ("board_outline", .arr []), ("components", .arr []),
    ("nets", .arr []), ("placements", .arr []), ("tracks", .arr []), ("pads", .arr []),
    ("holes", .arr []), ("vias", .arr []), ("zones", .arr []), ("schematic_wires", .arr []),
    ("schematic_junctions", .arr [])]

/-- The same design with one net. -/
def netGraphJson : Json :=
  Json.object [
    ("schema_version", .int 1), ("project_id", .str "demo"),
    ("layers", textsJson ["B.Cu", "F.Cu"]), ("board_outline", .arr []), ("components", .arr []),
    ("nets", .arr [Json.object [("net_id", .str "n1"), ("name", .str "GND"), ("members", .arr [])]]),
    ("placements", .arr []), ("tracks", .arr []), ("pads", .arr []), ("holes", .arr []),
    ("vias", .arr []), ("zones", .arr []), ("schematic_wires", .arr []),
    ("schematic_junctions", .arr [])]

/-- The record of the command that creates the net. -/
def netCommandJson : Json :=
  Json.object [
    ("command_id", .str "c1"), ("base_revision", .str (plainDigest 'b')),
    ("transaction_id", .str "t1"), ("actor", .str "designer"), ("kind", .str "net.create"),
    ("payload_json", .str (String.ofList (Json.canonical
      (.obj [("name", .str "GND"), ("net_id", .str "n1")])).render)),
    ("idempotency_key", .str "k1")]

/-- The preview of a transaction on the empty design. -/
def previewJson (graphHash : String) (commandHashes : List String) : Json :=
  Json.object [
    ("base_revision", .str (plainDigest 'b')), ("transaction_id", .str "t1"),
    ("staged_graph_hash", .str graphHash), ("command_hashes", textsJson commandHashes)]

def netClaims : CommitClaims where
  scope := commitAuthorizationScope
  version := commitAuthorizationVersion
  keyId := "key"
  authorizationId := authorizationIdOf (plainDigest '3')
  projectId := "demo"
  baseRevision := plainDigest 'b'
  headRevision := plainDigest 'b'
  transactionId := "t1"
  commandHashes := [plainDigest 'd']
  commandHashesDigest := plainDigest '2'
  previewDigest := plainDigest 'f'
  prospectiveGraphSha256 := plainDigest 'e'
  verificationReportHash := plainDigest '5'
  verifiedPreviewDigest := plainDigest 'f'
  commitGatePassed := true
  releaseSubjectDigest := plainDigest '1'
  humanApprovalId := "a1"
  humanApprovalRunId := "r1"
  humanApprovalKind := "release"
  humanApprovalDigest := plainDigest '6'
  humanApprovalPrincipal := "user:owner"
  humanApprovalDecidedAt := 0
  humanApprovalExpiresAt := none
  issuedAt := 0
  expiresAt := 30000000
  nonce := plainDigest '7'
  authorizationDigest := plainDigest '3'
  sealHex := plainDigest '8'

/-- The digests taken when a net is committed to an empty design. -/
def netEntries : List Hashing.Entry :=
  [⟨"flux-clone-design-graph-v1", emptyGraphJson, plainDigest 'a'⟩,
    ⟨revisionDomain, Json.object [("parent", .null), ("sequence", .int 0),
      ("graph_hash", .str (plainDigest 'a'))], plainDigest 'b'⟩,
    ⟨"flux-clone-preview-v2", previewJson (plainDigest 'a') [], plainDigest 'c'⟩,
    ⟨"flux-clone-design-command-v1", netCommandJson, plainDigest 'd'⟩,
    ⟨"flux-clone-design-graph-v1", netGraphJson, plainDigest 'e'⟩,
    ⟨"flux-clone-preview-v2", previewJson (plainDigest 'e') [plainDigest 'd'], plainDigest 'f'⟩,
    ⟨"flux-clone-release-v1", Json.object [("base_revision", .str (plainDigest 'b')),
      ("preview_digest", .str (plainDigest 'f')), ("report_hash", .str (plainDigest '5'))],
      plainDigest '1'⟩,
    ⟨"flux-clone-kernel-commit-command-hashes-v1", textsJson [plainDigest 'd'], plainDigest '2'⟩,
    ⟨"flux-clone-kernel-commit-authorization-v2", authorizationPayload netClaims, plainDigest '3'⟩,
    ⟨revisionDomain, Json.object [("parent", .str (plainDigest 'b')), ("sequence", .int 1),
      ("graph_hash", .str (plainDigest 'e')), ("commands", textsJson [plainDigest 'd']),
      ("verification_report_hash", .str (plainDigest '5')),
      ("approval_preview_digest", .str (plainDigest 'f'))], plainDigest '4'⟩]

@[reducible] def netHashing : Hashing := Hashing.listed netEntries

theorem plainDigest_inj {c d : Char} (h : plainDigest c = plainDigest d) : c = d := by
  unfold plainDigest at h
  rw [String.ofList_inj] at h
  exact (List.cons.inj h).1

theorem plainDigests_collisionFree {entries : List Hashing.Entry} {digits : List Char}
    (hdigests : entries.map (·.digest) = digits.map plainDigest) (hnodup : digits.Nodup)
    (hunmarked : '!' ∉ digits) : @Hashing.CollisionFree (Hashing.listed entries) := by
  have htable : (entries.map fun entry => (entry.text, entry.digest)).map Prod.snd =
      digits.map plainDigest := by
    rw [List.map_map]
    exact hdigests
  refine Hashing.tabled_collisionFree ?_ ?_
  · rw [htable]
    exact List.Nodup.map (fun _ _ => plainDigest_inj) hnodup
  · rw [htable, List.forall_mem_map]
    intro c hc
    unfold plainDigest
    rw [String.toList_ofList]
    show some c ≠ some '!'
    rw [Ne, Option.some.injEq]
    rintro rfl
    exact hunmarked hc

theorem netHashing_collisionFree : @Hashing.CollisionFree netHashing := by
  have hdigests : netEntries.map (·.digest) =
      ['a', 'b', 'c', 'd', 'e', 'f', '1', '2', '3', '4'].map plainDigest := by
    simp only [netEntries, List.map_cons, List.map_nil]
  exact plainDigests_collisionFree hdigests (by decide) (by decide)

theorem previewJson_ne {c d : Char} (hne : c ≠ d) (hashes hashes' : List String) :
    previewJson (plainDigest c) hashes ≠ previewJson (plainDigest d) hashes' := by
  intro h
  have hmem := (Json.perm_of_object_eq h).mem_iff.mp
    (show ("staged_graph_hash", Json.str (plainDigest c)) ∈ _ by simp)
  simp at hmem
  exact hne (plainDigest_inj hmem)

theorem netEntries_distinct :
    netEntries.Pairwise (fun a b => a.domain = b.domain → a.value ≠ b.value) := by
  have hgraphs : emptyGraphJson ≠ netGraphJson := by
    intro h
    have hmem := (Json.perm_of_object_eq h).mem_iff.mp
      (show ("nets", Json.arr []) ∈ _ by simp)
    simp at hmem
  have hrevisions : netEntries[1].value ≠ netEntries[9].value := by
    intro h
    have hmem := (Json.perm_of_object_eq h).mem_iff.mp
      (show ("parent", Json.null) ∈ _ by simp)
    simp at hmem
  simp only [netEntries, List.pairwise_cons, List.mem_cons, List.not_mem_nil, or_false,
    forall_eq_or_imp, forall_eq, revisionDomain]
  simp [hgraphs, previewJson_ne (show 'a' ≠ 'e' by decide)]
  exact hrevisions

/-- The listed values have the listed digests. -/
def NetDigests [Hashing] : Prop :=
  ∀ entry ∈ netEntries, stableHash entry.domain entry.value = entry.digest

theorem netHashing_digest : @NetDigests netHashing :=
  fun _ hmem => Hashing.listed_inDomain (by decide) netEntries_distinct hmem

section Opening

variable [UnicodeData] [Hashing] {g : DesignGraph}

theorem plainGenesis_checks (hhash : g.graphHash = .ok (plainDigest 'a')) : DesignRevision.checks
    ⟨plainDigest 'b', none, 0, g, plainDigest 'a', [], none, none⟩ = .ok () := by
  unfold DesignRevision.checks
  simp only [bind_ok, exists_unit, require_ok, forM_ok]
  refine ⟨plainDigest_isSha256 rfl _, by simp, plainDigest_isSha256 rfl _, plainDigest 'a', hhash,
    rfl, by simp, by simp, by simp, by simp, by simp⟩

theorem init_plain (hnormal : g.normalized = .ok g) (hvalid : validateGraph g = .ok ())
    (hhash : g.graphHash = .ok (plainDigest 'a'))
    (hgenesis : genesisHash (plainDigest 'a') = plainDigest 'b') {r : Revision}
    (hr : r.val = ⟨plainDigest 'b', none, 0, g, plainDigest 'a', [], none, none⟩) :
    DesignKernel.init g = .ok { revisions := Dict.empty.set (plainDigest 'b') r
                                head := plainDigest 'b' } := by
  unfold DesignKernel.init
  simp only [bind_ok, exists_unit, pure_ok]
  refine ⟨g, hnormal, hvalid, plainDigest 'a', hhash, r, ?_, by rw [hgenesis]⟩
  rw [hgenesis, ← hr]
  exact Checked.make_ok.mpr r.accepted

theorem plainTransaction_checks (hid : requireId "t1" "transaction ID" = .ok ()) (preview : String)
    (hpreview : preview ≠ "" → requireSha256 preview "transaction preview digest" = .ok ()) :
    ({ transactionId := "t1", baseRevision := plainDigest 'b', stagedGraph := g,
       previewDigest := preview } : DesignTransaction).checks = .ok () := by
  unfold DesignTransaction.checks
  simp only [bind_ok, exists_unit, require_ok, requireWhen_ok,
    forM_ok]
  refine ⟨hid, plainDigest_isSha256 rfl _, hpreview, ?_⟩
  simp

theorem openTransaction_plain (hid : requireId "t1" "transaction ID" = .ok ()) {k : DesignKernel}
    {r : Revision} (hhead : k.head = plainDigest 'b')
    (hr : k.revisions (plainDigest 'b') = some r) (hgraph : r.val.graph = g)
    (hpreview : previewDigestOf { transactionId := "t1", baseRevision := plainDigest 'b',
                                  stagedGraph := g } = .ok (plainDigest 'c')) {t : Transaction}
    (ht : t.val = { transactionId := "t1", baseRevision := plainDigest 'b', stagedGraph := g,
                    previewDigest := plainDigest 'c' }) :
    openTransaction k "t1" (plainDigest 'b') = .ok t := by
  have haccepted : checking DesignTransaction.checks
      { transactionId := "t1", baseRevision := plainDigest 'b', stagedGraph := g } = .ok
      { transactionId := "t1", baseRevision := plainDigest 'b', stagedGraph := g } :=
    checking_ok.mpr ⟨plainTransaction_checks hid "" (by simp), rfl⟩
  unfold openTransaction headRevision
  simp only [bind_ok, exists_unit, require_ok, hhead, found_ok, hr]
  refine ⟨trivial, r, rfl, ⟨_, haccepted⟩, ?_, ?_⟩
  · rw [hgraph]
    exact Checked.make_ok.mpr haccepted
  · unfold refreshPreview
    rw [bind_ok]
    refine ⟨_, hpreview, Checked.make_ok.mpr ?_⟩
    show checking DesignTransaction.checks
      { transactionId := "t1", baseRevision := plainDigest 'b', stagedGraph := g,
        previewDigest := plainDigest 'c' } = _
    rw [← ht]
    exact t.accepted

end Opening

section Empty

attribute [local instance] asciiData

section Digests

variable [Hashing]

omit [Hashing] in
theorem demo_header : headerChecks 1 "demo" ["B.Cu", "F.Cu"] = .ok () := by decide

/-- An empty design on the default layers, in normal form. -/
def emptyGraph : DesignGraph where
  schemaVersion := 1
  projectId := "demo"
  layers := ["B.Cu", "F.Cu"]
  boardOutline := []
  components := []
  nets := []
  placements := []
  tracks := []
  pads := []
  holes := []
  vias := []
  zones := []
  schematicWires := []
  schematicJunctions := []
  header := demo_header

def groundNet : Checked Net.postInit := ⟨⟨"n1", "GND", []⟩, rfl⟩

def supplyNet : Checked Net.postInit := ⟨⟨"n2", "VCC", []⟩, rfl⟩

theorem emptyGraph_normalized : emptyGraph.normalized = .ok emptyGraph := rfl

theorem emptyGraph_nets_valid {nets : List (Checked Net.postInit)}
    (hids : (nets.map (·.val.netId)).Nodup) (hnames : (nets.map (·.val.name)).Nodup)
    (hmembers : ∀ net ∈ nets, net.val.members = []) :
    validateGraph { emptyGraph with nets := nets } = .ok () := by
  have hpins : ({ emptyGraph with nets := nets } : DesignGraph).pinToNet = .ok [] := by
    unfold DesignGraph.pinToNet
    dsimp only
    induction nets with
    | nil => rfl
    | cons net rest ih =>
        rw [List.foldlM_cons, hmembers net List.mem_cons_self]
        rw [List.map_cons, List.nodup_cons] at hids hnames
        exact ih hids.2 hnames.2 fun other hother => hmembers other (List.mem_cons_of_mem _ hother)
  have hid : requireId "demo" "project ID" = .ok () := by decide
  have hlayers : ∀ layer ∈ ["B.Cu", "F.Cu"], Text.isBlank layer = false := by decide
  unfold validateGraph
  simp only [hpins, bind_ok, exists_unit, require_ok, forM_ok,
    requireWhen_ok, forPairs_ok, pure_ok]
  refine ⟨rfl, hid, ⟨by simp [emptyGraph], hlayers⟩, by simp [emptyGraph], by simp [emptyGraph], ?_⟩
  simp [emptyGraph, DesignGraph.identifiers, DesignGraph.netIds, DesignGraph.placementIds, hids,
    hnames, pure_ok]

theorem emptyGraph_valid : validateGraph emptyGraph = .ok () :=
  emptyGraph_nets_valid List.nodup_nil List.nodup_nil (by simp)

def emptyTransaction : DesignTransaction where
  transactionId := "t1"
  baseRevision := plainDigest 'b'
  stagedGraph := emptyGraph

theorem emptyTransaction_checks (preview : String)
    (hpreview : preview ≠ "" → requireSha256 preview "transaction preview digest" = .ok ()) :
    ({ emptyTransaction with previewDigest := preview } : DesignTransaction).checks = .ok () :=
  plainTransaction_checks (by decide) preview hpreview

def openedTransaction : Transaction :=
  ⟨{ emptyTransaction with previewDigest := plainDigest 'c' },
    checking_ok.mpr ⟨emptyTransaction_checks _ fun _ => plainDigest_isSha256 rfl _, rfl⟩⟩

variable (hnet : NetDigests)

include hnet

theorem emptyGraph_graphHash : emptyGraph.graphHash = .ok (plainDigest 'a') := by
  unfold DesignGraph.graphHash
  simp only [emptyGraph_normalized, emptyGraph_valid, bind_ok, exists_unit,
    pure_ok, Except.ok.injEq, exists_eq_left', true_and]
  exact hnet netEntries[0] (List.getElem_mem _)

theorem genesisHash_empty : genesisHash (plainDigest 'a') = plainDigest 'b' :=
  hnet netEntries[1] (List.getElem_mem _)

theorem genesis_checks : DesignRevision.checks
    ⟨plainDigest 'b', none, 0, emptyGraph, plainDigest 'a', [], none, none⟩ = .ok () :=
  plainGenesis_checks (emptyGraph_graphHash hnet)

theorem previewDigestOf_empty : previewDigestOf emptyTransaction = .ok (plainDigest 'c') := by
  unfold previewDigestOf
  rw [bind_ok]
  refine ⟨plainDigest 'a', emptyGraph_graphHash hnet, pure_ok.mpr ?_⟩
  exact hnet netEntries[2] (List.getElem_mem _)

theorem openTransaction_empty {k : DesignKernel} {r : Revision} (hhead : k.head = plainDigest 'b')
    (hr : k.revisions (plainDigest 'b') = some r) (hgraph : r.val.graph = emptyGraph) :
    openTransaction k "t1" (plainDigest 'b') = .ok openedTransaction :=
  openTransaction_plain (by decide) hhead hr hgraph (previewDigestOf_empty hnet) rfl

end Digests

attribute [local instance] netHashing

def genesisRevision : Revision := ⟨_, checking_ok.mpr ⟨genesis_checks netHashing_digest, rfl⟩⟩

def emptyKernel : DesignKernel where
  revisions := Dict.empty.set (plainDigest 'b') genesisRevision
  head := plainDigest 'b'

theorem init_empty : DesignKernel.init emptyGraph = .ok emptyKernel :=
  init_plain emptyGraph_normalized emptyGraph_valid (emptyGraph_graphHash netHashing_digest)
    (genesisHash_empty netHashing_digest) rfl

/-- The kernel of an empty design with one open transaction. -/
def openedKernel : DesignKernel :=
  { emptyKernel with transactions := emptyKernel.transactions.set "t1" openedTransaction }

theorem begin_empty : (beginTransaction "t1" (plainDigest 'b')).run emptyKernel =
    (.ok openedTransaction, openedKernel) :=
  beginTransaction_opens (by decide) (plainDigest_isSha256 rfl _) rfl
    (openTransaction_empty netHashing_digest rfl
      (Dict.set_self Dict.empty (plainDigest 'b') genesisRevision) rfl)

end Empty

end Evleda.Kernel
