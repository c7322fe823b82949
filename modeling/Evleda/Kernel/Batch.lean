/-
A batch is its commands one after another.

`stage_batch` works on a copy of the transaction and looks up idempotency keys
and command identifiers in the kernel as it was before the batch, while staging
the commands one by one looks them up in a kernel that grows.  The two agree
because the commands of a batch have distinct keys and identifiers: what the
batch has accepted so far is never what the next command is looked up under.

The proof follows both at once.  `batchStaged` is the kernel the batch would
publish now; it is the kernel that staging one by one has reached.
-/
import Evleda.Kernel.History

namespace Evleda.Kernel

open Effect Outcome

section Batch

variable [UnicodeData] [Hashing]

/-- Stage commands one after another, stopping at the first that raises. -/
def stageEach : List Command → KernelM Unit
  | [] => pure ()
  | command :: rest => do
      let _ ← stage command
      stageEach rest

variable {k k' : DesignKernel} {transactionId : String} {command : Command}
  {progress progress' : BatchProgress}

/-- The message for a command without effect is all that `stage` and `stage_batch` differ in. -/
theorem extend_message {message message' : String} {t t' : Transaction} :
    extend message t command = .ok t' ↔ extend message' t command = .ok t' := by
  unfold extend
  simp only [bind_ok, exists_unit, require_ok]

/-- The key and the identifier of a command are none of those the batch has accepted. -/
def Unused (transactionId : String) (progress : BatchProgress) (command : Command) : Prop :=
  (transactionId, command.val.idempotencyKey) ∉ progress.acceptedIdempotency.map Prod.fst ∧
    command.val.commandId ∉ progress.acceptedCommandIds.map Prod.fst

theorem stage_batchStaged {t : Transaction} (hid : command.val.transactionId = transactionId)
    (hunused : Unused transactionId progress command) :
    (stage command).run (batchStaged k transactionId progress) = (.ok t, k') ↔
      command.val.baseRevision = progress.transaction.val.baseRevision ∧
        ∃ progress', batchStep k transactionId progress command = .ok progress' ∧
          t = progress'.transaction ∧ k' = batchStaged k transactionId progress' := by
  subst hid
  have hkey : (batchStaged k command.val.transactionId progress).idempotency
      (command.val.transactionId, command.val.idempotencyKey) =
      k.idempotency (command.val.transactionId, command.val.idempotencyKey) :=
    Dict.update_of_not_mem _ hunused.1
  have hcommand : (batchStaged k command.val.transactionId progress).commandIds
      command.val.commandId = k.commandIds command.val.commandId :=
    Dict.update_of_not_mem _ hunused.2
  have htransaction : (batchStaged k command.val.transactionId progress).transactions
      command.val.transactionId = some progress.transaction := Dict.set_self ..
  have hstaged : staged (batchStaged k command.val.transactionId progress) command t =
      batchStaged k command.val.transactionId
        (progress.accept command.val.transactionId command t) := by
    unfold staged batchStaged BatchProgress.accept
    simp only [Dict.set_set, Dict.update_snoc]
  rw [stage_returns]
  simp only [htransaction, Option.some.injEq, exists_eq_left', hkey, hcommand, hstaged,
    batchStep_ok]
  refine and_congr_right fun _ => ?_
  constructor
  · rintro (⟨hexisting, rfl, rfl⟩ | ⟨hnew, hfresh, hextend, rfl⟩)
    · exact ⟨progress, Or.inl ⟨hexisting, rfl⟩, rfl, rfl⟩
    · exact ⟨_, Or.inr ⟨hnew, hfresh, t, extend_message.mp hextend, rfl⟩, rfl, rfl⟩
  · rintro ⟨progress', ⟨hexisting, rfl⟩ | ⟨hnew, hfresh, next, hextend, rfl⟩, rfl, rfl⟩
    · exact Or.inl ⟨hexisting, rfl, rfl⟩
    · exact Or.inr ⟨hnew, hfresh, extend_message.mp hextend, rfl⟩

theorem batchStep_frame (h : batchStep k transactionId progress command = .ok progress') :
    progress'.transaction.val.baseRevision = progress.transaction.val.baseRevision ∧
      ∀ other : Command, other.val.idempotencyKey ≠ command.val.idempotencyKey →
        other.val.commandId ≠ command.val.commandId →
        Unused transactionId progress other → Unused transactionId progress' other := by
  obtain ⟨-, rfl⟩ | ⟨-, -, next, hextend, rfl⟩ := batchStep_ok.mp h
  · exact ⟨rfl, fun _ _ _ hunused => hunused⟩
  · obtain ⟨g, digest, -, -, -, -, hval⟩ := extend_ok hextend
    refine ⟨?_, ?_⟩
    · show next.val.baseRevision = _
      rw [hval]
    · rintro other hkey hcommand ⟨hidempotency, hcommandIds⟩
      unfold Unused BatchProgress.accept
      simp only [List.map_append, List.mem_append, not_or]
      refine ⟨⟨hidempotency, ?_⟩, hcommandIds, ?_⟩
      · simpa using hkey
      · simpa using hcommand

theorem stageEach_batchStaged {batch : List Command}
    (hids : ∀ command ∈ batch, command.val.transactionId = transactionId)
    (hcommands : (batch.map (·.val.commandId)).Nodup)
    (hkeys : (batch.map (·.val.idempotencyKey)).Nodup)
    (hunused : ∀ command ∈ batch, Unused transactionId progress command) :
    (stageEach batch).run (batchStaged k transactionId progress) = (.ok (), k') ↔
      (∀ command ∈ batch,
        command.val.baseRevision = progress.transaction.val.baseRevision) ∧
      ∃ progress', batch.foldlM (batchStep k transactionId) progress = .ok progress' ∧
        k' = batchStaged k transactionId progress' := by
  induction batch generalizing progress with
  | nil =>
      simp only [stageEach, pure_returns, List.foldlM_nil, pure_ok, exists_eq_left']
      simp
  | cons command rest ih =>
      rw [List.map_cons, List.nodup_cons] at hcommands hkeys
      have hlater : ∀ {progress'}, batchStep k transactionId progress command = .ok progress' →
          ∀ other ∈ rest, Unused transactionId progress' other := by
        intro progress' hstep other hother
        refine (batchStep_frame hstep).2 other ?_ ?_ (hunused other (List.mem_cons_of_mem _ hother))
        · intro heq
          exact hkeys.1 (heq ▸ List.mem_map_of_mem hother)
        · intro heq
          exact hcommands.1 (heq ▸ List.mem_map_of_mem hother)
      have hrest : ∀ other ∈ rest, other.val.transactionId = transactionId :=
        fun other hother => hids other (List.mem_cons_of_mem _ hother)
      rw [stageEach, bind_returns]
      simp only [stage_batchStaged (hids command List.mem_cons_self)
        (hunused command List.mem_cons_self), foldlM_cons_ok]
      constructor
      · rintro ⟨t, m, ⟨hbase, middle, hstep, rfl, rfl⟩, hrun⟩
        obtain ⟨hbases, final, hfold, rfl⟩ :=
          (ih hrest hcommands.2 hkeys.2 (hlater hstep)).mp hrun
        rw [(batchStep_frame hstep).1] at hbases
        refine ⟨?_, final, ⟨middle, hstep, hfold⟩, rfl⟩
        intro other hother
        rcases List.mem_cons.mp hother with rfl | hother
        · exact hbase
        · exact hbases other hother
      · rintro ⟨hbases, final, ⟨middle, hstep, hfold⟩, rfl⟩
        refine ⟨middle.transaction, batchStaged k transactionId middle,
          ⟨hbases command List.mem_cons_self, middle, hstep, rfl, rfl⟩, ?_⟩
        refine (ih hrest hcommands.2 hkeys.2 (hlater hstep)).mpr ⟨?_, final, hfold, rfl⟩
        intro other hother
        rw [(batchStep_frame hstep).1]
        exact hbases other (List.mem_cons_of_mem _ hother)

/-- Publishing a batch that accepted nothing changes nothing. -/
theorem batchStaged_start {t : Transaction} (ht : k.transactions transactionId = some t) :
    batchStaged k transactionId { transaction := t } = k := by
  unfold batchStaged
  rw [Dict.set_eq_self ht]
  rfl

theorem foldlM_batchStep_nil {batch : List Command}
    (hfold : batch.foldlM (batchStep k transactionId) progress = .ok progress')
    (hnil : progress'.acceptedIdempotency = []) : progress' = progress := by
  induction batch generalizing progress with
  | nil =>
      rw [List.foldlM_nil, pure_ok] at hfold
      exact hfold.symm
  | cons command rest ih =>
      obtain ⟨middle, hstep, hrest⟩ := foldlM_cons_ok.mp hfold
      obtain rfl := ih hrest
      obtain ⟨-, hsame⟩ | ⟨-, -, next, -, rfl⟩ := batchStep_ok.mp hstep
      · exact hsame
      · simp [BatchProgress.accept] at hnil

/-- **A batch of distinct commands of one transaction succeeds exactly when its commands do one
after another, and then leaves the same kernel; and a call that raises leaves the kernel as it
was.** -/
theorem stageBatch_eq_stageEach :
    (∀ (k k' : DesignKernel) (transactionId : String) (t : Transaction) (batch : List Command),
      k.transactions transactionId = some t → t.val.state = .opened → batch ≠ [] →
      (∀ command ∈ batch, command.val.transactionId = transactionId) →
      (batch.map (·.val.commandId)).Nodup → (batch.map (·.val.idempotencyKey)).Nodup →
      ((∃ t', (stageBatch batch).run k = (.ok t', k')) ↔
        (stageEach batch).run k = (.ok (), k'))) ∧
    ∀ k : DesignKernel, (∀ command, AtomicAt k (stage command)) ∧
      (∀ batch, AtomicAt k (stageBatch batch)) ∧
      (∀ transactionId reportHash gatePassed digest,
        AtomicAt k (recordVerification transactionId reportHash gatePassed digest)) ∧
      ∀ verifier transactionId authorization,
        AtomicAt k (commit verifier transactionId authorization) := by
  refine ⟨?_, fun k => ⟨stage_atomicAt, stageBatch_atomicAt, recordVerification_atomicAt,
    commit_atomicAt⟩⟩
  intro k k' transactionId t batch ht _ hne hids hcommands hkeys
  cases batch with
  | nil => exact absurd rfl hne
  | cons first rest =>
      obtain rfl := hids first List.mem_cons_self
      have hunused : ∀ command ∈ first :: rest,
          Unused first.val.transactionId { transaction := t } command :=
        fun _ _ => ⟨by simp, by simp⟩
      have heach := @stageEach_batchStaged _ _ k k' _ _ _ hids hcommands hkeys hunused
      rw [batchStaged_start ht] at heach
      rw [heach]
      simp only [stageBatch_returns, batchChecks, bind_ok, exists_unit,
        require_ok, ht, Option.some.injEq, exists_eq_left']
      have hpublish : ∀ progress, (first :: rest).foldlM
          (batchStep k first.val.transactionId) { transaction := t } = .ok progress →
          (if progress.acceptedIdempotency = [] then k
            else batchStaged k first.val.transactionId progress) =
            batchStaged k first.val.transactionId progress := by
        intro progress hfold
        split
        · rename_i hnil
          rw [foldlM_batchStep_nil hfold hnil, batchStaged_start ht]
        · rfl
      constructor
      · rintro ⟨t', ⟨hbind, -, -⟩, hbase, progress, hfold, -, rfl⟩
        refine ⟨?_, progress, hfold, hpublish progress hfold⟩
        intro command hcommand
        rw [(hbind command hcommand).2, hbase]
      · rintro ⟨hbases, progress, hfold, rfl⟩
        have hfirst := hbases first List.mem_cons_self
        refine ⟨progress.transaction, ⟨?_, hcommands, hkeys⟩, hfirst, progress, hfold, rfl,
          (hpublish progress hfold).symm⟩
        intro command hcommand
        exact ⟨hids command hcommand, (hbases command hcommand).trans hfirst.symm⟩

end Batch

section Sample

attribute [local instance] asciiData

def netCommand : Command where
  val := {
    commandId := "c1"
    baseRevision := plainDigest 'b'
    transactionId := "t1"
    actor := "designer"
    kind := .netCreate
    payload := [("name", .str "GND"), ("net_id", .str "n1")]
    idempotencyKey := "k1" }
  accepted := by
    refine checking_ok.mpr ⟨?_, rfl⟩
    unfold DesignCommand.checks
    simp only [bind_ok, exists_unit]
    exact ⟨by decide, by decide, by decide, by decide, plainDigest_isSha256 rfl _⟩

section

variable [Hashing]

def netGraph : DesignGraph :=
  { emptyGraph with nets := [groundNet] }

theorem netGraph_normalized : netGraph.normalized = .ok netGraph := rfl

theorem netGraph_valid : validateGraph netGraph = .ok () :=
  emptyGraph_nets_valid (by simp) (by simp) (by simp [groundNet])

theorem netGraph_graphHash (hnet : NetDigests) : netGraph.graphHash = .ok (plainDigest 'e') := by
  unfold DesignGraph.graphHash
  simp only [netGraph_normalized, netGraph_valid, bind_ok, exists_unit,
    pure_ok, Except.ok.injEq, exists_eq_left', true_and]
  exact hnet netEntries[4] (List.getElem_mem _)

theorem netCommand_commandHash (hnet : NetDigests) :
    netCommand.val.commandHash = plainDigest 'd' :=
  hnet netEntries[3] (List.getElem_mem _)

theorem applyCommand_net : applyCommand emptyGraph netCommand.val = .ok netGraph := rfl

/-- The transaction with the net staged, under a preview. -/
def netTransaction (preview : String) : DesignTransaction :=
  { emptyTransaction with stagedGraph := netGraph, commands := [netCommand], previewDigest := preview }

theorem netTransaction_checks {c : Char} (hc : Text.isLowerHex c = true) :
    (netTransaction (plainDigest c)).checks = .ok () := by
  unfold DesignTransaction.checks
  simp only [bind_ok, exists_unit, require_ok, requireWhen_ok,
    forM_ok]
  have hid : requireId "t1" "transaction ID" = .ok () := by decide
  refine ⟨hid, plainDigest_isSha256 rfl _, fun _ => plainDigest_isSha256 hc _, ?_⟩
  simp [netTransaction, emptyTransaction, netCommand]

def stagedNet : Transaction :=
  ⟨netTransaction (plainDigest 'f'), checking_ok.mpr ⟨netTransaction_checks rfl, rfl⟩⟩

theorem previewDigestOf_net (hnet : NetDigests) (preview : String) :
    previewDigestOf (netTransaction preview) = .ok (plainDigest 'f') := by
  have hhashes : (netTransaction preview).commandHashes = [plainDigest 'd'] := by
    show [netCommand.val.commandHash] = _
    rw [netCommand_commandHash hnet]
  unfold previewDigestOf
  rw [bind_ok]
  refine ⟨plainDigest 'e', netGraph_graphHash hnet, pure_ok.mpr ?_⟩
  rw [hhashes]
  exact hnet netEntries[5] (List.getElem_mem _)

theorem extend_net (hnet : NetDigests) (message : String) :
    extend message openedTransaction netCommand = .ok stagedNet := by
  have hne : netGraph ≠ emptyGraph := fun heq =>
    List.cons_ne_nil _ _ (congrArg DesignGraph.nets heq)
  exact extend_makes rfl applyCommand_net netGraph_valid hne rfl (previewDigestOf_net hnet _)

end

/-- The digests taken when a net is staged, and one digest for every other text. -/
@[reducible] def hexHashing : Hashing := Hashing.listedOr netEntries (plainDigest '0')

attribute [local instance] hexHashing

theorem hexHashing_digest : NetDigests :=
  fun _ hmem => Hashing.listedOr_inDomain _ (by decide) netEntries_distinct hmem

theorem hexHashing_hexDigests (text : List Char) : Text.isSha256 (Hashing.sha256 text) = true := by
  have hhex : ∀ digit ∈ ['0', 'a', 'b', 'c', 'd', 'e', 'f', '1', '2', '3', '4'],
      Text.isLowerHex digit = true := List.all_eq_true.mp (by decide)
  have hmem : Hashing.sha256 text ∈
      ['0', 'a', 'b', 'c', 'd', 'e', 'f', '1', '2', '3', '4'].map plainDigest :=
    Hashing.listedOr_cases text
  obtain ⟨digit, hdigit, hdigest⟩ := List.mem_map.mp hmem
  rw [← hdigest]
  exact require_ok.mp (plainDigest_isSha256 (hhex digit hdigit) "")

def hexGenesis : Revision := ⟨_, checking_ok.mpr ⟨genesis_checks hexHashing_digest, rfl⟩⟩

/-- The kernel created with an empty design, with a transaction opened, and with a net staged. -/
def hexKernel : DesignKernel where
  revisions := Dict.empty.set (plainDigest 'b') hexGenesis
  head := plainDigest 'b'

def hexOpened : DesignKernel :=
  { hexKernel with transactions := Dict.empty.set "t1" openedTransaction }

def hexStaged : DesignKernel := staged hexOpened netCommand stagedNet

/-- A command that creates another net. -/
def supplyCommand : Command where
  val := { netCommand.val with
    commandId := "c2"
    payload := [("name", .str "VCC"), ("net_id", .str "n2")]
    idempotencyKey := "k2" }
  accepted := by
    refine checking_ok.mpr ⟨?_, rfl⟩
    unfold DesignCommand.checks
    simp only [bind_ok, exists_unit]
    exact ⟨by decide, by decide, by decide, by decide, plainDigest_isSha256 rfl _⟩

theorem extend_supply : ∃ t, ∀ message, extend message stagedNet supplyCommand = .ok t := by
  let g : DesignGraph := { emptyGraph with nets := [groundNet, supplyNet] }
  have hg : applyCommand netGraph supplyCommand.val = .ok g := rfl
  have hvalid : validateGraph g = .ok () :=
    emptyGraph_nets_valid (by decide) (by decide) (by simp [groundNet, supplyNet])
  have hnormal : g.normalized = .ok g := rfl
  have hhash : ∃ digest, g.graphHash = .ok digest := by
    unfold DesignGraph.graphHash
    simp only [hnormal, bind_ok, exists_unit]
    exact ⟨_, g, rfl, hvalid, rfl⟩
  have hdigest : ∃ text, previewDigestOf { netTransaction "" with
      stagedGraph := g, commands := [netCommand, supplyCommand] } = .ok (Hashing.sha256 text) := by
    obtain ⟨digest, hdigest⟩ := hhash
    unfold previewDigestOf
    simp only [hdigest, bind_ok]
    exact ⟨_, digest, rfl, rfl⟩
  obtain ⟨text, hdigest⟩ := hdigest
  have hchecks : ({ netTransaction (Hashing.sha256 text) with
      stagedGraph := g, commands := [netCommand, supplyCommand] } : DesignTransaction).checks =
      .ok () := by
    unfold DesignTransaction.checks
    simp only [bind_ok, exists_unit, require_ok, requireWhen_ok,
      forM_ok]
    have hid : requireId "t1" "transaction ID" = .ok () := by decide
    refine ⟨hid, plainDigest_isSha256 rfl _, fun _ => require_ok.mpr
      (hexHashing_hexDigests text), ?_⟩
    simp [netTransaction, emptyTransaction, netCommand, supplyCommand]
  have hne : g ≠ netGraph := fun heq =>
    absurd (congrArg (fun g => g.nets.length) heq) (by decide)
  exact ⟨⟨_, checking_ok.mpr ⟨hchecks, rfl⟩⟩, fun _ => extend_makes rfl hg hvalid hne rfl hdigest⟩

/-- The first net is staged already, and the batch stages it again with another one: the first
command is a replay, and the second one is accepted. -/
theorem stageBatch_eq_stageEach_replay : ∃ t' k',
    (stageBatch [netCommand, supplyCommand]).run hexStaged = (.ok t', k') ∧
      (stageEach [netCommand, supplyCommand]).run hexStaged = (.ok (), k') ∧
      hexStaged.commandIds "c1" ≠ none ∧ hexStaged.commandIds "c2" = none ∧
      k'.commandIds "c2" ≠ none := by
  have hstored : hexStaged.transactions "t1" = some stagedNet :=
    Dict.set_self hexOpened.transactions "t1" stagedNet
  obtain ⟨t, ht⟩ := extend_supply
  have hreplay : (stage netCommand).run hexStaged = (.ok stagedNet, hexStaged) :=
    stage_returns.mpr ⟨stagedNet, hstored, rfl,
      Or.inl ⟨Dict.set_self Dict.empty ("t1", "k1") netCommand.val.commandHash, rfl, rfl⟩⟩
  have hother : (stage supplyCommand).run hexStaged = (.ok t, staged hexStaged supplyCommand t) :=
    stage_returns.mpr ⟨stagedNet, hstored, rfl, Or.inr ⟨rfl, rfl, ht _, rfl⟩⟩
  have heach : (stageEach [netCommand, supplyCommand]).run hexStaged =
      (.ok (), staged hexStaged supplyCommand t) := by
    rw [stageEach, bind_returns]
    refine ⟨_, _, hreplay, ?_⟩
    rw [stageEach, bind_returns]
    exact ⟨_, _, hother, rfl⟩
  obtain ⟨t', hbatch⟩ := (stageBatch_eq_stageEach.1 hexStaged _ "t1" stagedNet
    [netCommand, supplyCommand] hstored rfl (by simp) (by simp [netCommand, supplyCommand])
    (by decide) (by decide)).mpr heach
  refine ⟨t', _, hbatch, heach, ?_, rfl, ?_⟩
  · exact (Dict.set_self Dict.empty "c1" netCommand.val.commandHash).trans_ne
      (Option.some_ne_none _)
  · exact (Dict.set_self hexStaged.commandIds "c2" supplyCommand.val.commandHash).trans_ne
      (Option.some_ne_none _)

end Sample

section Empty

attribute [local instance] asciiData netHashing

/-- The empty list of commands is staged one by one without effect and refused as a batch. -/
theorem stageBatch_empty_refused :
    (beginTransaction "t1" (plainDigest 'b')).run emptyKernel =
      (.ok openedTransaction, openedKernel) ∧
    openedTransaction.val.state = .opened ∧
    (stageEach []).run openedKernel = (.ok (), openedKernel) ∧
    ¬ ∃ t' k', (stageBatch []).run openedKernel = (.ok t', k') := by
  refine ⟨begin_empty, rfl, rfl, ?_⟩
  rintro ⟨t', k', h⟩
  unfold stageBatch at h
  cases h

end Empty

end Evleda.Kernel
