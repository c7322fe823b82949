/-
An anchor that follows its chain.

The anchor is moved after the database, by whoever gets there first, so it may be
one revision behind; it is never further behind, because appending refuses to
begin unless the anchor is at the head.  `Followed` says so of every project, and
`Later` what every step of every call does to a chain and its anchor: rows are
added at the end, and the anchor does not go back.

What a restore knows of the chain from its snapshot stays true as the chain grows,
so it can tell every state of the anchor that it may meet.
-/
import Evleda.ProjectStore.Sharing

namespace Evleda.ProjectStore

open Kernel Effect Outcome

section Following

variable [UnicodeData] [Hashing] {keyring : Keyring} {s s' m : StoreState} {projectId : String}
  {revisions later : List Revision} {head last r : Revision} {A B C : Anchor}

/-! ### Checkpoints -/

variable {anchor : Option Anchor}

theorem Intact.headAttestationDigest_ok {digest : String}
    (h : Intact keyring projectId (s.database.of projectId) anchor revisions head)
    (hr : r ∈ revisions) :
    headAttestationDigest s.database r = .ok digest ↔
      (r.val.sequence = 0 → digest = genesisAttestationDigest) ∧
      (r.val.sequence ≠ 0 → ∃ row ∈ (s.database.of projectId).attestations,
        row.revisionHash = r.val.revisionHash ∧ digest = row.bodyHash) := by
  have hproject : r.val.graph.projectId = projectId := (loadChain_rows h.chain).2.2.2 r hr
  unfold headAttestationDigest
  by_cases hzero : r.val.sequence = 0
  · rw [if_pos hzero, Except.ok.injEq]
    exact ⟨fun hdigest => ⟨fun _ => hdigest.symm, fun hne => absurd hzero hne⟩,
      fun hdigest => (hdigest.1 hzero).symm⟩
  · rw [if_neg hzero, hproject]
    simp only [bind_ok, located_ok, pure_ok]
    rw [find?_own]
    constructor
    · rintro ⟨row, hrow, rfl⟩
      have hhash := List.find?_some hrow
      rw [beq_iff_eq] at hhash
      exact ⟨fun h => absurd h hzero,
        fun _ => ⟨row, List.mem_of_find?_eq_some hrow, hhash, rfl⟩⟩
    · rintro ⟨-, hlater⟩
      obtain ⟨row, hrow, hhash, rfl⟩ := hlater hzero
      exact ⟨row, find?_of_nodup h.attestationHashes hrow hhash, rfl⟩

theorem Intact.headAnchorState_ok
    (h : Intact keyring projectId (s.database.of projectId) anchor revisions head)
    (hr : r ∈ revisions) :
    headAnchorState s.database r = .ok A ↔ Checkpoint projectId (s.database.of projectId) r A := by
  have hproject : r.val.graph.projectId = projectId := (loadChain_rows h.chain).2.2.2 r hr
  unfold headAnchorState Checkpoint
  simp only [bind_ok, anchorState_ok, hproject]
  constructor
  · rintro ⟨digest, hdigest, hval⟩
    exact ⟨digest, hval, (h.headAttestationDigest_ok hr).mp hdigest⟩
  · rintro ⟨digest, hval, hdigest⟩
    exact ⟨digest, (h.headAttestationDigest_ok hr).mpr hdigest, hval⟩

theorem Checkpoint.eq {db : Database}
    (h : Intact keyring projectId db anchor revisions head) (hr : r ∈ revisions)
    (hlast : last ∈ revisions) (hA : Checkpoint projectId db r A)
    (hB : Checkpoint projectId db last B) (hsequence : A.val.sequence = B.val.sequence) : A = B := by
  obtain ⟨digest, hAval, hAgenesis, hAlater⟩ := hA
  obtain ⟨digest', hBval, hBgenesis, hBlater⟩ := hB
  rw [hAval, hBval] at hsequence
  have hat := h.at_sequence hr
  rw [show r.val.sequence = last.val.sequence from hsequence, h.at_sequence hlast] at hat
  obtain rfl := Option.some.inj hat
  refine Checked.ext ?_
  rw [hAval, hBval]
  by_cases hzero : last.val.sequence = 0
  · rw [hAgenesis hzero, hBgenesis hzero]
  · obtain ⟨row, hrow, hhash, rfl⟩ := hAlater hzero
    obtain ⟨row', hrow', hhash', rfl⟩ := hBlater hzero
    rw [List.inj_on_of_nodup_map h.attestationHashes hrow hrow' (hhash.trans hhash'.symm)]

theorem Checkpoint.mono {db db' : Database} (h : Checkpoint projectId db r A)
    (hrows : db.attestations ⊆ db'.attestations) : Checkpoint projectId db' r A := by
  obtain ⟨digest, hval, hgenesis, hlater⟩ := h
  refine ⟨digest, hval, hgenesis, fun hne => ?_⟩
  obtain ⟨row, hrow, hhash⟩ := hlater hne
  exact ⟨row, hrows hrow, hhash⟩

theorem Checkpoint.sequence {db : Database} (h : Checkpoint projectId db r A) :
    A.val.sequence = r.val.sequence := by
  obtain ⟨digest, hval, -⟩ := h
  rw [hval]

theorem Checkpoint.project {db : Database} (h : Checkpoint projectId db r A) :
    A.val.projectId = projectId := by
  obtain ⟨digest, hval, -⟩ := h
  rw [hval]

/-! ### What steps do to a chain and its anchor -/

/-- Chains grow at their end, attestations are kept, and anchors do not go back. -/
structure Later (s s' : StoreState) : Prop where
  revisions : ∀ projectId,
    (s.database.of projectId).revisions <+: (s'.database.of projectId).revisions
  attestations : ∀ projectId,
    (s.database.of projectId).attestations ⊆ (s'.database.of projectId).attestations
  anchors : ∀ projectId A, s.anchors projectId = some A →
    ∃ B, s'.anchors projectId = some B ∧ A.val.sequence ≤ B.val.sequence

omit [UnicodeData] [Hashing] in
theorem Later.refl (s : StoreState) : Later s s :=
  ⟨fun _ => List.prefix_refl _, fun _ => List.Subset.refl _, fun _ A hA => ⟨A, hA, le_refl _⟩⟩

omit [UnicodeData] [Hashing] in
theorem Later.trans (h : Later s m) (h' : Later m s') : Later s s' where
  revisions projectId := (h.revisions projectId).trans (h'.revisions projectId)
  attestations projectId _ hrow := h'.attestations projectId (h.attestations projectId hrow)
  anchors projectId A hA := by
    obtain ⟨B, hB, hle⟩ := h.anchors projectId A hA
    obtain ⟨C, hC, hle'⟩ := h'.anchors projectId B hB
    exact ⟨C, hC, hle.trans hle'⟩

theorem loadChain_prefix {sequence : Nat} {previousRevision : Option String}
    {previousRecordHash : String} {rows rows' : List RevisionRow}
    (hrows : loadChain projectId sequence previousRevision previousRecordHash rows = .ok revisions)
    (hrows' : loadChain projectId sequence previousRevision previousRecordHash rows' = .ok later)
    (hextends : rows <+: rows') : revisions <+: later := by
  induction rows generalizing sequence previousRevision previousRecordHash revisions rows' later with
  | nil =>
      cases hrows
      exact List.nil_prefix
  | cons row rest ih =>
      obtain ⟨rest', rfl⟩ := hextends
      obtain ⟨r, tail, hrow, htail, rfl⟩ := loadChain_cons_ok.mp hrows
      rw [List.cons_append] at hrows'
      obtain ⟨r', tail', hrow', htail', rfl⟩ := loadChain_cons_ok.mp hrows'
      obtain rfl := Except.ok.inj (hrow.decoded.symm.trans hrow'.decoded)
      exact List.cons_prefix_cons.mpr ⟨rfl, ih htail htail' (List.prefix_append _ _)⟩

/-- The anchor of a project names the head of its chain or the revision before it. -/
structure Followed.Of (keyring : Keyring) (projectId : String) (s : StoreState)
    (revisions : List Revision) (head : Revision) (A B : Anchor) (r : Revision) : Prop where
  intact : Intact keyring projectId (s.database.of projectId) (some A) revisions head
  anchor : s.anchors projectId = some B
  named : r ∈ revisions
  checkpoint : Checkpoint projectId (s.database.of projectId) r B
  behind : head.val.sequence ≤ r.val.sequence + 1

/-- Every project that is there has its anchor at its head or at the revision before. -/
def Followed (keyring : Keyring) (s : StoreState) : Prop :=
  ∀ projectId, s.database.of projectId = {} ∨
    ∃ revisions head A B r, Followed.Of keyring projectId s revisions head A B r

theorem Sound.followed (h : Sound keyring s) : Followed keyring s := by
  intro projectId
  obtain hnone | ⟨revisions, head, hintact⟩ := h projectId
  · exact Or.inl hnone
  · obtain ⟨digest, A, hanchor, -⟩ := hintact.anchored
    rw [hanchor] at hintact
    exact Or.inr ⟨revisions, head, A, A, head, hintact, hanchor, hintact.head_mem,
      hintact.head_checkpoint, Nat.le_succ _⟩

theorem Followed.of_rows (h : Followed keyring s)
    (hrows : (s.database.of projectId).revisions ≠ []) :
    ∃ revisions head A B r, Followed.Of keyring projectId s revisions head A B r := by
  obtain hnone | hof := h projectId
  · rw [hnone] at hrows
    exact absurd rfl hrows
  · exact hof

theorem Intact.rows_ne_nil {db : Database}
    (h : Intact keyring projectId db anchor revisions head) : db.revisions ≠ [] := by
  intro hnil
  have hlength := h.length_eq
  rw [hnil, List.length_nil] at hlength
  exact List.ne_nil_of_mem h.head_mem (List.length_eq_zero_iff.mp hlength)

/-- What a snapshot says of a chain stays true. -/
structure Grown (keyring : Keyring) (projectId : String) (s : StoreState)
    (revisions : List Revision) (B : Anchor) : Prop where
  followed : ∃ later last A r, Followed.Of keyring projectId s later last A B r ∧
    revisions <+: later

theorem Intact.grown
    (h : Intact keyring projectId (s.database.of projectId) anchor revisions head)
    (hlater : Later s s') (hfollowed : Followed keyring s') :
    ∃ B, Grown keyring projectId s' revisions B := by
  have hrows : (s'.database.of projectId).revisions ≠ [] := by
    intro hnil
    have hextends := hlater.revisions projectId
    rw [hnil] at hextends
    exact h.rows_ne_nil (List.prefix_nil.mp hextends)
  obtain ⟨later, last, A, B, r, hof⟩ := hfollowed.of_rows hrows
  exact ⟨B, later, last, A, r, hof,
    loadChain_prefix h.chain hof.intact.chain (hlater.revisions projectId)⟩

/-- **What the anchor may be, as a snapshot sees it**: not further back than one revision before the
head of the snapshot, and either past the snapshot or a checkpoint of its chain. -/
theorem Followed.Of.observed (h : Followed.Of keyring projectId s revisions head A B r)
    {attestations : List Attestation}
    (hattestations : List.Forall₂ (fun r a => ∃ t approval,
      Released keyring projectId (s.database.of projectId) r a t approval) revisions.tail
      attestations)
    (hlater : Later s s') (hfollowed : Followed keyring s') :
    ∃ C, s'.anchors projectId = some C ∧ Grown keyring projectId s' revisions C ∧
      C.val.projectId = projectId ∧ B.val.sequence ≤ C.val.sequence ∧
      (C.val.sequence ≤ head.val.sequence →
        expectedAnchor projectId revisions attestations C.val.sequence = .ok C) := by
  obtain ⟨C, later, last, D, named, hof, hextends⟩ := h.intact.grown hlater hfollowed
  obtain ⟨C', hC', hle⟩ := hlater.anchors projectId B h.anchor
  rw [hof.anchor] at hC'
  obtain rfl := Option.some.inj hC'
  refine ⟨C, hof.anchor, ⟨later, last, D, named, hof, hextends⟩, hof.checkpoint.project, hle, ?_⟩
  intro hle
  -- the revision it names is one of the snapshot
  have hsequence := hof.checkpoint.sequence
  have hnamed : named ∈ revisions := by
    have hlength : named.val.sequence < revisions.length := by
      rw [h.intact.length_eq, ← h.intact.head_sequence]
      omega
    obtain ⟨rest, rfl⟩ := hextends
    have hat := hof.intact.at_sequence hof.named
    rw [List.getElem?_append_left hlength] at hat
    exact List.mem_of_getElem? hat
  have hcheckpoint : Checkpoint projectId (s.database.of projectId) named C := by
    obtain ⟨digest, hval, hgenesis, hrow⟩ := hof.checkpoint
    refine ⟨digest, hval, hgenesis, fun hne => ?_⟩
    obtain ⟨row, hmem, hhash, rfl⟩ := hrow hne
    have htail : named ∈ revisions.tail := by
      cases revisions with
      | nil => cases hnamed
      | cons first rest =>
          rcases List.mem_cons.mp hnamed with rfl | hmem
          · refine absurd ?_ hne
            exact (loadChain_follows h.intact.chain).2 named (by simp) |>.2
          · exact hmem
    obtain ⟨a, t, approval, hreleased⟩ := h.intact.released named htail
    obtain ⟨row', hrow', hholds⟩ := hreleased.attestationRow
    have hsame : row'.revisionHash = row.revisionHash := by
      rw [← hholds.revisionHash, hreleased.revisionHash, hhash]
    have heq := List.inj_on_of_nodup_map hof.intact.attestationHashes
      (hlater.attestations projectId hrow') hmem hsame
    exact ⟨row', hrow', by rw [heq]; exact hhash, by rw [heq]⟩
  rw [hsequence]
  exact h.intact.expects hattestations hnamed hcheckpoint

theorem Followed.advance (h : Followed keyring s)
    (hof : Followed.Of keyring projectId s revisions head A B r) (hlast : last ∈ revisions)
    (hC : Checkpoint projectId (s.database.of projectId) last C)
    (hnext : C.val.sequence = B.val.sequence + 1) :
    Followed keyring { s with anchors := s.anchors.set projectId C } ∧
      Later s { s with anchors := s.anchors.set projectId C } := by
  constructor
  · intro other
    by_cases hp : other = projectId
    · subst hp
      refine Or.inr ⟨revisions, head, A, C, last, hof.intact, Dict.set_self _ _ _, hlast, hC, ?_⟩
      have hbehind := hof.behind
      rw [← hof.checkpoint.sequence, ← hnext, hC.sequence] at hbehind
      omega
    · obtain hnone | ⟨later, last', A', B', r', hother⟩ := h other
      · exact Or.inl hnone
      · refine Or.inr ⟨later, last', A', B', r', hother.intact, ?_, hother.named, hother.checkpoint,
          hother.behind⟩
        exact (Dict.set_of_ne _ _ hp).trans hother.anchor
  · refine ⟨fun _ => List.prefix_refl _, fun _ => List.Subset.refl _, ?_⟩
    intro other D hD
    by_cases hp : other = projectId
    · subst hp
      rw [hof.anchor] at hD
      obtain rfl := Option.some.inj hD
      exact ⟨C, Dict.set_self _ _ _, by omega⟩
    · exact ⟨D, (Dict.set_of_ne _ _ hp).trans hD, le_refl _⟩

/-! ### A restore alone -/

theorem Followed.Of.reconciles (h : Followed.Of keyring projectId s revisions head A B r)
    (hbehind : A.val.sequence = B.val.sequence + 1) {attestations : List Attestation}
    (hattestations : List.Forall₂ (fun r a => ∃ t approval,
      Released keyring projectId (s.database.of projectId) r a t approval) revisions.tail
      attestations) :
    (reconcileHeadAnchor revisions attestations).run s =
      (.ok (), { s with anchors := s.anchors.set projectId A }) := by
  have hA := h.intact.head_checkpoint
  have hhead := h.intact.expects hattestations h.intact.head_mem hA
  have hnamed := h.intact.expects hattestations h.named h.checkpoint
  have hsequence := hA.sequence
  rw [← h.checkpoint.sequence] at hnamed
  have hproject : head.val.graph.projectId = projectId :=
    (loadChain_rows h.intact.chain).2.2.2 head h.intact.head_mem
  have hmoves := @compareAndSet_moves s B A (h.checkpoint.project.trans hA.project.symm) hbehind
    (by rw [h.checkpoint.project]; exact h.anchor)
  rw [hA.project] at hmoves
  unfold reconcileHeadAnchor
  refine check_bind_returns.mpr ⟨head, located_ok.mpr h.intact.last, ?_⟩
  simp only [hproject]
  rw [readAnchor_bind_run h.checkpoint.project, h.anchor]
  refine check_bind_returns.mpr ⟨(), require_ok.mpr (by omega), ?_⟩
  refine check_bind_returns.mpr ⟨B, hnamed, ?_⟩
  refine check_bind_returns.mpr ⟨(), require_ok.mpr rfl, ?_⟩
  refine bind_returns.mpr ⟨A, { s with anchors := s.anchors.set projectId A }, ?_, ?_⟩
  · rw [advanceAnchor, if_neg (by omega)]
    refine check_bind_returns.mpr ⟨A, by rw [← hbehind, hsequence]; exact hhead, ?_⟩
    refine bind_returns.mpr ⟨A, _, handling_returns (bind_returns.mpr ⟨(), _, hmoves, rfl⟩), ?_⟩
    have hdone : ∀ fuel, advanceAnchor projectId revisions attestations head.val.sequence fuel A
        (A.val.sequence + 1) = pure A := by
      intro fuel
      cases fuel with
      | zero => rfl
      | succ fuel => rw [advanceAnchor, if_pos (by omega)]
    rw [hdone]
    rfl
  · rw [readAnchor_bind_run h.checkpoint.project]
    have hat : s.anchors.set projectId A projectId = some A := Dict.set_self _ _ _
    refine check_bind_returns.mpr ⟨(), require_ok.mpr fun anchor hmem => ?_, ?_⟩
    · have hfound : some A = some anchor := hat.symm.trans hmem
      rw [← Option.some.inj hfound]
      omega
    · exact check_returns.mpr ⟨require_ok.mpr hat, rfl⟩

/-- **A restore of a followed project, alone, succeeds and leaves the anchor at its head.** -/
theorem Followed.Of.restores (h : Followed.Of keyring projectId s revisions head A B r) :
    ∃ state s', (restore keyring projectId).run s = (.ok state, s') ∧
      state.revisions = revisions ∧ state.headRevision = head ∧
      s'.database = s.database ∧ s'.anchors projectId = some A := by
  have hA := h.intact.head_checkpoint
  have hplace : r.val.sequence ≤ head.val.sequence := by
    have hlength := (List.getElem?_eq_some_iff.mp (h.intact.at_sequence h.named)).1
    rw [h.intact.length_eq, ← h.intact.head_sequence] at hlength
    omega
  have hsequence := hA.sequence
  have hbehind := h.behind
  rw [← h.checkpoint.sequence] at hplace hbehind
  rcases Nat.lt_or_ge B.val.sequence A.val.sequence with hlt | hge
  · obtain ⟨state, hrun, hrevisions, hhead, -⟩ :=
      h.intact.restores_to fun _ hattestations => h.reconciles (by omega) hattestations
    exact ⟨state, _, hrun, hrevisions, hhead, rfl, Dict.set_self _ _ _⟩
  · have hsame := Checkpoint.eq h.intact h.named h.intact.head_mem h.checkpoint hA (by omega)
    have hintact := h.intact
    rw [← hsame, ← h.anchor] at hintact
    obtain ⟨state, hrun, hrevisions, hhead, -⟩ := hintact.restores
    exact ⟨state, s, hrun, hrevisions, hhead, rfl, by rw [h.anchor, hsame]⟩

/-! ### A revision more -/

theorem assertHeadAnchor_finds {revision : Revision}
    (h : (assertHeadAnchor revision).run s = (.ok A, s')) :
    headAnchorState s.database revision = .ok A ∧ s.anchors A.val.projectId = some A := by
  obtain ⟨-, -, -, hat⟩ := assertHeadAnchor_returns h
  unfold assertHeadAnchor at h
  rw [run_read_bind] at h
  obtain ⟨expected, hexpected, h⟩ := check_bind_returns.mp h
  obtain ⟨observed, m, -, h⟩ := bind_returns.mp h
  obtain ⟨_, -, h⟩ := check_bind_returns.mp h
  obtain ⟨rfl, rfl⟩ := pure_returns.mp h
  exact ⟨hexpected, hat⟩

variable {revision : Revision} {expectedHead : String} {evidence : CommitEvidence}
  {documents : CommitDocuments} {generation : Option Int} {anchors : Anchor × Anchor}

theorem appendLocked_anchored
    (h : (appendLocked projectId revision expectedHead evidence documents generation).run s =
      (.ok anchors, s'))
    (hintact : Intact keyring projectId (s.database.of projectId) (some A) revisions head) :
    s.anchors projectId = some A := by
  unfold appendLocked at h
  rw [run_read_bind] at h
  obtain ⟨loaded, hload, h⟩ := check_bind_returns.mp h
  obtain ⟨found, hfound, h⟩ := check_bind_returns.mp h
  obtain ⟨_, -, h⟩ := check_bind_returns.mp h
  obtain ⟨B, m₀, hasserted, -⟩ := bind_returns.mp h
  obtain rfl := Except.ok.inj (hintact.loads_revisions.symm.trans hload)
  have hlast := hintact.last
  rw [located_ok.mp hfound, Option.some.injEq] at hlast
  subst hlast
  obtain ⟨hstate, hat⟩ := assertHeadAnchor_finds hasserted
  have hB := (hintact.headAnchorState_ok hintact.head_mem).mp hstate
  have hA := hintact.head_checkpoint
  have hsame := Checkpoint.eq hintact hintact.head_mem hintact.head_mem hA hB
    (hA.sequence.trans hB.sequence.symm)
  rw [hB.project, ← hsame] at hat
  exact hat

theorem appendLocked_present
    (h : (appendLocked projectId revision expectedHead evidence documents generation).run s =
      (.ok anchors, s')) : s.database.of projectId ≠ {} := by
  intro hnone
  unfold appendLocked at h
  rw [run_read_bind] at h
  obtain ⟨loaded, hload, -⟩ := check_bind_returns.mp h
  rw [loadRevisions_absent hnone] at hload
  cases hload

/-- **A project with one revision more is followed**, its anchor now one revision behind. -/
theorem Followed.append (h : Followed keyring s)
    (hrun : (appendLocked projectId revision expectedHead evidence documents generation).run s =
      (.ok anchors, m))
    (hdocuments : documents.Of revision evidence)
    (hstate : evidence.transaction.val.state = .committed)
    (hbinding : validateAttestationBinding keyring evidence.attestation revision
      evidence.transaction evidence.approval = .ok ())
    (hdatabase : s'.database = s.database) (hlater : Later s s') (hfollowed : Followed keyring s') :
    Followed keyring { s' with database := m.database } ∧
      Later s' { s' with database := m.database } ∧
      anchors.2.val.sequence = revision.val.sequence ∧
      anchors.2.val.sequence = anchors.1.val.sequence + 1 ∧ anchors.1.val.projectId = projectId ∧
      ∃ revisions head, Followed.Of keyring projectId { s' with database := m.database }
        (revisions ++ [revision]) revision anchors.2 anchors.1 head := by
  obtain hnone | ⟨revisions, head, A, B, r, hof⟩ := h projectId
  · exact absurd hnone (appendLocked_present hrun)
  have hat := appendLocked_anchored hrun hof.intact
  have hintact := hof.intact
  rw [← hat] at hintact
  obtain ⟨hchecks, happended, -, hothers, hfirst, hproject, hfirstSequence, hcurrent⟩ :=
    appendLocked_appends hrun hintact hdocuments hbinding
  obtain ⟨-, -, hsequence, hbase, hcommitted, happroval, hvalid⟩ := successorChecks_ok hchecks
  rw [hat, Option.some.injEq] at hfirst
  have hdigest : ∀ row ∈ (m.database.of projectId).attestations,
      row.Holds projectId evidence.attestation → anchors.2.val =
        ⟨projectId, revision.val.sequence, revision.val.revisionHash, row.bodyHash⟩ := by
    intro row _ hholds
    have hsurvives := hholds.survives
    rw [hdocuments.attestation, Except.ok.injEq] at hsurvives
    rw [hcurrent, hsurvives]
  have hkept := hof.intact.append happended hstate hbase hcommitted hvalid happroval hbinding hdigest
  obtain ⟨row, headRow, hrows, -⟩ := happended.revisions
  obtain ⟨arow, harows, -⟩ := happended.attestations
  -- meanwhile the anchor has stayed at the head
  have hrows' : (s'.database.of projectId).revisions ≠ [] := by
    rw [hdatabase]
    exact hof.intact.rows_ne_nil
  have hanchor : s'.anchors projectId = some A := by
    obtain ⟨revisions', head', A', B', r', hof'⟩ := hfollowed.of_rows hrows'
    have hintact' := hof'.intact
    have hcheckpoint' := hof'.checkpoint
    rw [hdatabase] at hintact' hcheckpoint'
    obtain ⟨C, hC, hle⟩ := hlater.anchors projectId A hat
    rw [hof'.anchor, Option.some.injEq] at hC
    obtain rfl : revisions = revisions' :=
      Except.ok.inj (hof.intact.chain.symm.trans hintact'.chain)
    have hplace : r'.val.sequence ≤ head.val.sequence := by
      have hlength := (List.getElem?_eq_some_iff.mp (hintact'.at_sequence hof'.named)).1
      rw [hof.intact.length_eq, ← hof.intact.head_sequence] at hlength
      omega
    have hheadCheckpoint := hof.intact.head_checkpoint
    have hequal : B'.val.sequence = A.val.sequence := by
      rw [hcheckpoint'.sequence, hheadCheckpoint.sequence] at *
      rw [← hC, hcheckpoint'.sequence] at hle
      omega
    rw [hof'.anchor, Checkpoint.eq hintact' hof'.named hof.intact.head_mem hcheckpoint'
      hheadCheckpoint hequal]
  have hgrows : (s.database.of projectId).attestations ⊆ (m.database.of projectId).attestations := by
    rw [harows]
    exact List.subset_append_left _ _
  have hfollows : Followed.Of keyring projectId { s' with database := m.database }
      (revisions ++ [revision]) revision anchors.2 anchors.1 head := by
    refine ⟨hkept, hanchor.trans (congrArg some hfirst), ?_, ?_, by omega⟩
    · exact List.mem_append_left _ hof.intact.head_mem
    · rw [← hfirst]
      exact hof.intact.head_checkpoint.mono hgrows
  have hunchanged : ∀ other, other ≠ projectId →
      m.database.of other = s'.database.of other := by
    intro other hp
    rw [hothers other hp, hdatabase]
  refine ⟨?_, ⟨?_, ?_, fun _ A hA => ⟨A, hA, le_refl _⟩⟩, by rw [hcurrent], ?_, hproject, revisions,
    head, hfollows⟩
  · intro other
    by_cases hp : other = projectId
    · subst hp
      exact Or.inr ⟨_, _, _, _, _, hfollows⟩
    · have hsame := hunchanged other hp
      obtain hnone | ⟨revisions', head', A', B', r', hof'⟩ := hfollowed other
      · exact Or.inl (hsame.trans hnone)
      · refine Or.inr ⟨revisions', head', A', B', r', ?_, hof'.anchor, hof'.named, ?_, hof'.behind⟩
        · have hintact' := hof'.intact
          rw [← hsame] at hintact'
          exact hintact'
        · have hcheckpoint' := hof'.checkpoint
          rw [← hsame] at hcheckpoint'
          exact hcheckpoint'
  · intro other
    by_cases hp : other = projectId
    · subst hp
      rw [hdatabase, hrows]
      exact List.prefix_append _ _
    · rw [hunchanged other hp]
  · intro other
    by_cases hp : other = projectId
    · subst hp
      rw [hdatabase]
      exact hgrows
    · rw [hunchanged other hp]
      exact List.Subset.refl _
  · rw [hcurrent, hfirstSequence]
    exact hsequence

end Following

end Evleda.ProjectStore
