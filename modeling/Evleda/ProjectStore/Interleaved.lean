/-
Restores and appends, in any interleaving.

Each call relies on the others for this: chains only grow, anchors do not go back,
projects stay followed, and while it has a transaction that writes nobody else
changes the database.  Each guarantees as much in turn.  So a call can be looked
at alone, one step at a time.

A restore raises that the project is broken only if its second attempt, too, finds
the anchor past its snapshot; an append raises after its transaction was committed
only if the anchor is past its revision when it comes to move it.
-/
import Evleda.ProjectStore.Following

namespace Evleda.ProjectStore

open Kernel Effect Outcome

section Interleaved

variable {ι : Type} [UnicodeData] [Hashing] {keyring : Keyring}

/-! ### What calls rely on -/

/-- What the call `i` relies on when the others take steps. -/
structure Relies (keyring : Keyring) (i : ι) (s s' : Shared ι) : Prop where
  followed : Followed keyring s.store → Followed keyring s'.store
  later : Later s.store s'.store
  locked : s.writer = some i → s'.writer = some i ∧ s'.store.database = s.store.database
  commits : i ∈ s'.commits ↔ i ∈ s.commits

/-- What the call `i` guarantees with its steps. -/
structure Guarantees (keyring : Keyring) (i : ι) (s s' : Shared ι) : Prop where
  followed : Followed keyring s.store → Followed keyring s'.store
  later : Later s.store s'.store
  others : ∀ j, i ≠ j →
    (s.writer = some j → s'.writer = some j ∧ s'.store.database = s.store.database) ∧
      (j ∈ s'.commits ↔ j ∈ s.commits)

theorem Relies.refl (i : ι) (s : Shared ι) : Relies keyring i s s :=
  ⟨id, Later.refl _, fun h => ⟨h, rfl⟩, Iff.rfl⟩

theorem Relies.trans {i : ι} {s m s' : Shared ι} (h : Relies keyring i s m)
    (h' : Relies keyring i m s') : Relies keyring i s s' where
  followed hs := h'.followed (h.followed hs)
  later := h.later.trans h'.later
  locked hs := by
    obtain ⟨hm, hdatabase⟩ := h.locked hs
    obtain ⟨hs', hdatabase'⟩ := h'.locked hm
    exact ⟨hs', hdatabase'.trans hdatabase⟩
  commits := h'.commits.trans h.commits

theorem Guarantees.of_relies {i : ι} {s s' : Shared ι} (h : ∀ j, Relies keyring j s s') :
    Guarantees keyring i s s' :=
  ⟨(h i).followed, (h i).later, fun j _ => ⟨(h j).locked, (h j).commits⟩⟩

theorem Guarantees.refl (i : ι) (s : Shared ι) : Guarantees keyring i s s :=
  .of_relies fun j => .refl j s

/-! ### Restores -/

/-- The anchor of a project is past a revision of its chain. -/
def Past (projectId : String) (sequence : Nat) (s : Shared ι) : Prop :=
  ∃ A, s.store.anchors projectId = some A ∧ sequence < A.val.sequence

variable {i : ι} {meets : Place → Shared ι → Prop} {s m : Shared ι} {projectId : String}
  {revisions : List Revision} {head r : Revision} {A B C : Anchor} {attestations : List Attestation}

section

omit [UnicodeData] [Hashing]

theorem readAnchor_run (hproject : C.val.projectId = projectId) (m : Shared ι) :
    (onStore (readAnchor projectId)).run m = (.ok (m.store.anchors projectId), m) := by
  have hidentifier := anchorIdentifier_ok C "anchor project ID"
  rw [hproject] at hidentifier
  have hread : (readAnchor projectId).run m.store =
      (.ok (m.store.anchors projectId), m.store) := by
    unfold readAnchor
    rw [hidentifier]
    rfl
  rw [Does.onStore_run, hread]

/-- What a compare-and-set does: nothing if the anchor is there, a move if it is where it is
expected, and else it raises. -/
theorem compareAndSet_run (hproject : B.val.projectId = projectId)
    (hproject' : A.val.projectId = projectId) (hnext : A.val.sequence = B.val.sequence + 1)
    (m : Shared ι) :
    (onStore (compareAndSet B A)).run m =
      if m.store.anchors projectId = some A then (.ok (), m)
      else if m.store.anchors projectId = some B then
        (.ok (), { m with store := { m.store with anchors := m.store.anchors.set projectId A } })
      else (.error (integrity "project head anchor compare-and-set conflict"), m) := by
  have hrun : (compareAndSet B A).run m.store =
      if m.store.anchors projectId = some A then (.ok (), m.store)
      else if m.store.anchors projectId = some B then
        (.ok (), { m.store with anchors := m.store.anchors.set projectId A })
      else (.error (integrity "project head anchor compare-and-set conflict"), m.store) := by
    subst hproject
    unfold compareAndSet
    have hsame : require (B.val.projectId = A.val.projectId)
        (valueError "anchor CAS states must belong to the same project") = .ok () :=
      require_ok.mpr hproject'.symm
    have hsequence : require (A.val.sequence = B.val.sequence + 1)
        (valueError "anchor CAS must advance exactly one revision") = .ok () :=
      require_ok.mpr hnext
    rw [run_check_bind, hsame]
    dsimp only
    rw [run_check_bind, hsequence]
    dsimp only
    rw [run_read_bind]
    split
    · rfl
    · rw [run_check_bind]
      by_cases hat : m.store.anchors B.val.projectId = some B
      · have hexpected : require (m.store.anchors B.val.projectId = some B)
            (integrity "project head anchor compare-and-set conflict") = .ok () :=
          require_ok.mpr hat
        rw [if_pos hat, hexpected, hproject']
        rfl
      · rw [if_neg hat]
        unfold require
        rw [if_neg hat]
  rw [Does.onStore_run, hrun]
  split
  · rfl
  · split
    · rfl
    · rfl

theorem integrity_errorClass (message : String) :
    (integrity message).errorClass = .integrityError := rfl

end

theorem advance_reached {place : Place} {headSequence fuel sequence : Nat}
    (h : headSequence < sequence) :
    (advanceSteps place projectId revisions attestations headSequence fuel C sequence :
      StoreSteps ι Anchor) = pure C := by
  cases fuel with
  | zero => rfl
  | succ fuel => rw [advanceSteps, if_pos h]

/-- What a restore knows after its snapshot `s`. -/
structure Snapped (keyring : Keyring) (projectId : String) (s : Shared ι)
    (revisions : List Revision) (head : Revision) (A : Anchor) (attestations : List Attestation) :
    Prop where
  followed : Followed keyring s.store
  of : ∃ B r, Followed.Of keyring projectId s.store revisions head A B r
  attestations : List.Forall₂ (fun r a => ∃ t approval,
    Released keyring projectId (s.store.database.of projectId) r a t approval) revisions.tail
    attestations

theorem Snapped.observed (h : Snapped keyring projectId s revisions head A attestations)
    (hm : Relies keyring i s m) :
    ∃ C, m.store.anchors projectId = some C ∧
      Grown keyring projectId m.store revisions C ∧ C.val.projectId = projectId ∧
      head.val.sequence ≤ C.val.sequence + 1 ∧
      (C.val.sequence ≤ head.val.sequence →
        expectedAnchor projectId revisions attestations C.val.sequence = .ok C) := by
  obtain ⟨B, r, hof⟩ := h.of
  obtain ⟨C, hC, hgrown, hproject, hle, hexpected⟩ :=
    hof.observed h.attestations hm.later (hm.followed h.followed)
  have hbehind := hof.behind
  rw [← hof.checkpoint.sequence] at hbehind
  exact ⟨C, hC, hgrown, hproject, by omega, hexpected⟩

theorem Snapped.head_expected (h : Snapped keyring projectId s revisions head A attestations) :
    expectedAnchor projectId revisions attestations head.val.sequence = .ok A ∧
      A.val.projectId = projectId ∧ A.val.sequence = head.val.sequence := by
  obtain ⟨B, r, hof⟩ := h.of
  have hA := hof.intact.head_checkpoint
  exact ⟨hof.intact.expects h.attestations hof.intact.head_mem hA, hA.project, hA.sequence⟩

theorem Snapped.moves (h : Snapped keyring projectId s revisions head A attestations)
    (hm : Relies keyring i s m) (hC : m.store.anchors projectId = some C)
    (hnext : A.val.sequence = C.val.sequence + 1) (j : ι) :
    Relies keyring j m
      { m with store := { m.store with anchors := m.store.anchors.set projectId A } } := by
  obtain ⟨B, r, hof⟩ := h.of
  obtain ⟨C', hC', ⟨chain, last, D, named, hof', hextends⟩, -⟩ :=
    hof.observed h.attestations hm.later (hm.followed h.followed)
  rw [hC, Option.some.injEq] at hC'
  obtain rfl := hC'
  have hhead : head ∈ chain := hextends.subset hof.intact.head_mem
  have hcheckpoint := hof.intact.head_checkpoint.mono (hm.later.attestations projectId)
  obtain ⟨hfollowed, hlater⟩ :=
    (hm.followed h.followed).advance hof' hhead hcheckpoint hnext
  exact ⟨fun _ => hfollowed, hlater, fun hwriter => ⟨hwriter, rfl⟩, Iff.rfl⟩

/-- Bringing the anchor to the head of the snapshot succeeds, unless the anchor is found past it. -/
theorem advance_safe (h : Snapped keyring projectId s revisions head A attestations)
    (hm : Relies keyring i s m) (hC : m.store.anchors projectId = some C)
    (hproject : C.val.projectId = projectId) (hle : C.val.sequence ≤ head.val.sequence)
    (hbehind : head.val.sequence ≤ C.val.sequence + 1)
    (hexpected : expectedAnchor projectId revisions attestations C.val.sequence = .ok C)
    (place : Place) :
    Steps.Safe (Relies keyring i) (Guarantees keyring i) meets
      (fun result s' => Relies keyring i s s' ∧
        (result = .ok A ∧
            (∃ D, s'.store.anchors projectId = some D ∧ head.val.sequence ≤ D.val.sequence) ∨
          result = .error anchorAhead ∧ ∃ t, meets place t ∧ Past projectId head.val.sequence t))
      (advanceSteps place projectId revisions attestations head.val.sequence
        (head.val.sequence + 1) C (C.val.sequence + 1)) m := by
  obtain ⟨hhead, hAproject, hAsequence⟩ := h.head_expected
  have hkeeps : ∀ {t t' : Shared ι} {D : Anchor}, Relies keyring i t t' →
      t.store.anchors projectId = some D → head.val.sequence ≤ D.val.sequence →
      ∃ E, t'.store.anchors projectId = some E ∧ head.val.sequence ≤ E.val.sequence := by
    intro t t' D ht hD hn
    obtain ⟨E, hE, hDE⟩ := ht.later.anchors projectId D hD
    exact ⟨E, hE, hn.trans hDE⟩
  by_cases hreached : C.val.sequence = head.val.sequence
  · -- the anchor is at the head
    rw [hreached, hhead, Except.ok.injEq] at hexpected
    subst hexpected
    rw [advance_reached (by omega)]
    intro s' hs'
    exact ⟨hm.trans hs', Or.inl ⟨rfl, hkeeps hs' hC hAsequence.ge⟩⟩
  · have hnext : A.val.sequence = C.val.sequence + 1 := by omega
    have hdone : ∀ {t : Shared ι} {D : Anchor} (fuel : Nat), Relies keyring i s t →
        t.store.anchors projectId = some D → head.val.sequence ≤ D.val.sequence →
        Steps.Safe (Relies keyring i) (Guarantees keyring i) meets
          (fun result s' => Relies keyring i s s' ∧
            (result = .ok A ∧
                (∃ D, s'.store.anchors projectId = some D ∧
                  head.val.sequence ≤ D.val.sequence) ∨
              result = .error anchorAhead ∧
                ∃ t, meets place t ∧ Past projectId head.val.sequence t))
          (advanceSteps place projectId revisions attestations head.val.sequence fuel A
            (A.val.sequence + 1)) t := by
      intro t D fuel ht hD hn
      rw [advance_reached (by omega)]
      intro s' hs'
      exact ⟨ht.trans hs', Or.inl ⟨rfl, hkeeps hs' hD hn⟩⟩
    rw [advanceSteps, if_neg (by omega), ← hnext, hAsequence, hhead, Steps.check_ok_bind]
    refine Steps.Safe.bind (Relies.refl i) (Steps.Safe.handling (Relies.refl i)
      (Steps.Safe.atomic_bind ?_))
    intro t ht hmeets
    have hst := hm.trans ht
    obtain ⟨D, hD, -, -, -, hDexpected⟩ := h.observed hst
    rw [compareAndSet_run hproject hAproject hnext t]
    by_cases hAt : t.store.anchors projectId = some A
    · -- somebody else has moved it
      rw [if_pos hAt]
      refine ⟨.refl i t, ?_, fun _ _ herror => absurd herror (by simp)⟩
      intro _ _ s' hs'
      obtain ⟨E, hE, hn⟩ := hkeeps hs' hAt hAsequence.ge
      exact hdone _ (hst.trans hs') hE hn
    · rw [if_neg hAt]
      by_cases hCt : t.store.anchors projectId = some C
      · rw [if_pos hCt]
        have hmoves := h.moves hst hCt hnext
        refine ⟨.of_relies hmoves, ?_, fun _ _ herror => absurd herror (by simp)⟩
        intro _ _ s' hs'
        obtain ⟨E, hE, hn⟩ := hkeeps hs' (Dict.set_self _ _ _) hAsequence.ge
        exact hdone _ ((hst.trans (hmoves i)).trans hs') hE hn
      · -- it is neither here nor there, so it is past the snapshot
        rw [if_neg hCt]
        have hpast : head.val.sequence < D.val.sequence := by
          obtain ⟨D', hD', hCD⟩ := ht.later.anchors projectId C hC
          rw [hD, Option.some.injEq] at hD'
          subst hD'
          by_contra hnot
          have hDC := hDexpected (by omega)
          rcases Nat.lt_or_ge D.val.sequence head.val.sequence with hlt | hge
          · have hsame : D.val.sequence = C.val.sequence := by omega
            rw [hsame, hexpected, Except.ok.injEq] at hDC
            exact hCt (by rw [hD, hDC])
          · have hsame : D.val.sequence = head.val.sequence := by omega
            rw [hsame, hhead, Except.ok.injEq] at hDC
            exact hAt (by rw [hD, hDC])
        have hat : ∃ t, meets place t ∧ Past projectId head.val.sequence t :=
          ⟨t, hmeets, D, hD, hpast⟩
        refine ⟨.refl i t, fun _ hok => absurd hok (by simp), ?_⟩
        intro failure s' hfailure hs'
        rw [Except.error.injEq] at hfailure
        subst hfailure
        dsimp only
        rw [if_pos (integrity_errorClass _)]
        refine Steps.Safe.atomic_bind ?_
        intro t' ht' _
        obtain ⟨E, hE, hDE⟩ := (hs'.trans ht').later.anchors projectId D hD
        rw [readAnchor_run hproject, hE]
        refine ⟨.refl i t', ?_, fun _ _ herror => absurd herror (by simp)⟩
        intro found hfound
        rw [Except.ok.injEq] at hfound
        subst hfound
        refine Steps.Safe.check_bind ?_ ?_
        · intro _ hcheck
          exact absurd (require_ok.mp hcheck) (by omega)
        · intro e s'' hcheck hs''
          obtain ⟨-, rfl⟩ := require_error.mp hcheck
          exact ⟨((hst.trans hs').trans ht').trans hs'', Or.inr ⟨rfl, hat⟩⟩

/-- Reconciling the anchor succeeds, unless the anchor is found past the snapshot. -/
theorem reconcile_safe (h : Snapped keyring projectId s revisions head A attestations)
    (again : Bool) :
    Steps.Safe (Relies keyring i) (Guarantees keyring i) meets
      (fun result s' => Relies keyring i s s' ∧
        (result = .ok () ∨ result = .error anchorAhead ∧
          ∃ t, meets (.anchor again projectId head.val.sequence) t ∧
            Past projectId head.val.sequence t))
      (reconcileSteps again revisions attestations) s := by
  obtain ⟨hhead, hAproject, hAsequence⟩ := h.head_expected
  obtain ⟨B, r, hof⟩ := h.of
  have hlast : lastOf revisions = .ok head := located_ok.mpr hof.intact.last
  have hproject : head.val.graph.projectId = projectId :=
    (loadChain_rows hof.intact.chain).2.2.2 head hof.intact.head_mem
  unfold reconcileSteps
  rw [hlast, Steps.check_ok_bind]
  simp only [hproject]
  refine Steps.Safe.atomic_bind ?_
  intro m hm hmeets
  obtain ⟨C, hC, -, hCproject, hbehind, hexpected⟩ := h.observed hm
  rw [readAnchor_run hCproject, hC]
  refine ⟨.refl i m, ?_, fun _ _ herror => absurd herror (by simp)⟩
  intro found hfound
  rw [Except.ok.injEq] at hfound
  subst hfound
  refine Steps.Safe.check_bind ?_ ?_
  · intro _ hcheck
    have hle := require_ok.mp hcheck
    have hsame : require (C = C) anchorContradicts = .ok () := require_ok.mpr rfl
    rw [hexpected hle, Steps.check_ok_bind, hsame, Steps.check_ok_bind]
    refine Steps.Safe.bind (Relies.refl i) (Steps.Safe.weaken
      (advance_safe h hm hC hCproject hle hbehind (hexpected hle) _) ?_)
    rintro result t ⟨ht, ⟨rfl, D, hD, hn⟩ | ⟨rfl, hpast⟩⟩
    · -- the anchor was at the head, and is looked at once more
      refine Steps.Safe.atomic_bind ?_
      intro t' ht' hmeets'
      obtain ⟨E, hE, -, -, -, hEexpected⟩ := h.observed (ht.trans ht')
      obtain ⟨E', hE', hDE⟩ := ht'.later.anchors projectId D hD
      rw [hE, Option.some.injEq] at hE'
      subst hE'
      rw [readAnchor_run hCproject, hE]
      refine ⟨.refl i t', ?_, fun _ _ herror => absurd herror (by simp)⟩
      intro final hfinal
      rw [Except.ok.injEq] at hfinal
      subst hfinal
      refine Steps.Safe.check_bind ?_ ?_
      · intro _ hcheck
        have hle' := require_ok.mp hcheck E rfl
        have hEA := hEexpected hle'
        have hsame : E.val.sequence = head.val.sequence := by omega
        rw [hsame, hhead, Except.ok.injEq] at hEA
        subst hEA
        intro s' hs'
        refine ⟨(ht.trans ht').trans hs', Or.inl ?_⟩
        exact require_ok.mpr rfl
      · intro e s' hcheck hs'
        obtain ⟨hnot, rfl⟩ := require_error.mp hcheck
        have hpast : head.val.sequence < E.val.sequence := by
          by_contra hle'
          refine hnot fun anchor hmem => ?_
          rw [← Option.mem_some_iff.mp hmem]
          omega
        exact ⟨(ht.trans ht').trans hs', Or.inr ⟨rfl, t', hmeets', E, hE, hpast⟩⟩
    · exact ⟨ht, Or.inr ⟨rfl, hpast⟩⟩
  · intro e s' hcheck hs'
    obtain ⟨hnot, rfl⟩ := require_error.mp hcheck
    exact ⟨hm.trans hs', Or.inr ⟨rfl, m, hmeets, C, hC, by omega⟩⟩

theorem snapshot_safe (hfollowed : Followed keyring s.store) (again : Bool) :
    Steps.Safe (Relies keyring i) (Guarantees keyring i) meets
      (fun result s' => Relies keyring i s s' ∧ ∀ e, result = .error e →
        e.errorClass = .projectNotFound ∨ e = anchorAhead ∧
          ∃ n t, meets (.anchor again projectId n) t ∧ Past projectId n t)
      (snapshotSteps keyring again projectId) s := by
  refine Steps.Safe.read_bind (Guarantees.refl i) ?_
  intro m hm _
  obtain hnone | ⟨revisions, head, A, B, r, hof⟩ := hm.followed hfollowed projectId
  · rw [loadRevisions_absent hnone]
    intro s' hs'
    refine ⟨hm.trans hs', fun e he => Or.inl ?_⟩
    rw [← Except.error.inj he]
  · obtain ⟨stored, hstored, hmem, hnodup⟩ := hof.intact.loads_transactions
    obtain ⟨approvals, happrovals, hmemA, hnodupA⟩ := hof.intact.loads_approvals
    obtain ⟨attestations, hattestations, hrelated⟩ :=
      hof.intact.loads_attestations hmem hmemA hnodupA
    have hlast : lastOf revisions = .ok head := located_ok.mpr hof.intact.last
    rw [hof.intact.loads_revisions, Steps.check_ok_bind, hstored, Steps.check_ok_bind, happrovals,
      Steps.check_ok_bind, hattestations, Steps.check_ok_bind,
      hof.intact.crossChecks hmem hnodup hmemA, Steps.check_ok_bind]
    refine Steps.Safe.bind (Relies.refl i) (Steps.Safe.weaken
      (reconcile_safe ⟨hm.followed hfollowed, ⟨B, r, hof⟩, hrelated⟩ again) ?_)
    rintro result t ⟨ht, rfl | ⟨rfl, t', hmeets, hpast⟩⟩
    · dsimp only
      rw [hlast, Steps.check_ok_bind]
      intro s' hs'
      exact ⟨(hm.trans ht).trans hs', fun e he => absurd he (by simp)⟩
    · refine ⟨hm.trans ht, fun e he => Or.inr ⟨(Except.error.inj he).symm, _, t', hmeets, hpast⟩⟩

/-- **A restore of a followed store raises that a project is broken only when its second attempt
finds the anchor past its snapshot.** -/
theorem restore_safe (hfollowed : Followed keyring s.store) :
    Steps.Safe (Relies keyring i) (Guarantees keyring i) meets
      (fun result s' => Relies keyring i s s' ∧ ∀ e, result = .error e →
        e.errorClass = .integrityError →
          ∃ n t, meets (.anchor true projectId n) t ∧ Past projectId n t)
      (restoreSteps keyring projectId) s := by
  refine Steps.Safe.handling (Relies.refl i) (Steps.Safe.weaken (snapshot_safe hfollowed false) ?_)
  rintro result m ⟨hm, herror⟩
  cases result with
  | ok state => exact ⟨hm, fun e he => absurd he (by simp)⟩
  | error failure =>
      dsimp only
      split
      · refine Steps.Safe.handling (Relies.refl i)
          (Steps.Safe.weaken (snapshot_safe (hm.followed hfollowed) true) ?_)
        rintro result m' ⟨hm', herror'⟩
        cases result with
        | ok state => exact ⟨hm.trans hm', fun e he => absurd he (by simp)⟩
        | error failure' =>
            dsimp only
            split
            · rename_i hahead
              intro s' hs'
              refine ⟨(hm.trans hm').trans hs', fun e _ _ => ?_⟩
              obtain habsent | ⟨-, n, t, hmeets, hpast⟩ := herror' failure' rfl
              · rw [habsent] at hahead
                cases hahead
              · exact ⟨n, t, hmeets, hpast⟩
            · rename_i hother
              intro s' hs'
              refine ⟨(hm.trans hm').trans hs', fun e he hbroken => ?_⟩
              obtain habsent | ⟨rfl, -⟩ := herror' failure' rfl
              · rw [← Except.error.inj he, habsent] at hbroken
                cases hbroken
              · exact absurd rfl hother
      · rename_i hother
        intro s' hs'
        refine ⟨hm.trans hs', fun e he hbroken => ?_⟩
        obtain habsent | ⟨rfl, -⟩ := herror failure rfl
        · rw [← Except.error.inj he, habsent] at hbroken
          cases hbroken
        · exact absurd rfl hother

/-! ### Appends -/

variable {revision : Revision} {expectedHead : String} {evidence : CommitEvidence}
  {documents : CommitDocuments} {generation : Option Int} {anchors : Anchor × Anchor}

/-- A step of the writer on what the others cannot see of it. -/
theorem Guarantees.of_writer {s s' : Shared ι} (hfollowed : Followed keyring s'.store)
    (hlater : Later s.store s'.store) (hwriter : s.writer = some i ∨ s.writer = none)
    (hcommits : ∀ j, i ≠ j → (j ∈ s'.commits ↔ j ∈ s.commits)) : Guarantees keyring i s s' := by
  refine ⟨fun _ => hfollowed, hlater, fun j hij => ⟨fun hj => ?_, hcommits j hij⟩⟩
  obtain hi | hnone := hwriter
  · rw [hi] at hj
    exact absurd (Option.some.inj hj) hij
  · rw [hnone] at hj
    cases hj

/-- The anchor is moved over a revision that was committed, unless it is found past it. -/
theorem swap_safe (hfollowed : Followed keyring s.store)
    (hof : Followed.Of keyring projectId s.store revisions revision A B r)
    (hproject : B.val.projectId = projectId) (hnext : A.val.sequence = B.val.sequence + 1) :
    Steps.Safe (Relies keyring i) (Guarantees keyring i) meets
      (fun result _ => ∀ e, result = .error e →
        ∃ t, meets (.swap projectId revision.val.sequence) t ∧
          Past projectId revision.val.sequence t)
      (anchorStep (.swap projectId revision.val.sequence) (compareAndSet B A)) s := by
  have hA := hof.intact.head_checkpoint
  refine Steps.Safe.atomic ?_
  intro m hm hmeets
  rw [compareAndSet_run hproject hA.project hnext m]
  obtain ⟨C, chain, last, D, named, hof', hextends⟩ :=
    hof.intact.grown hm.later (hm.followed hfollowed)
  have hrevision : revision ∈ chain := hextends.subset hof.intact.head_mem
  have hr : r ∈ chain := hextends.subset hof.named
  have hA' := hA.mono (hm.later.attestations projectId)
  have hB' := hof.checkpoint.mono (hm.later.attestations projectId)
  by_cases hAt : m.store.anchors projectId = some A
  · rw [if_pos hAt]
    exact ⟨.refl i m, fun _ _ e he => absurd he (by simp)⟩
  · rw [if_neg hAt]
    by_cases hBt : m.store.anchors projectId = some B
    · rw [if_pos hBt]
      rw [hof'.anchor, Option.some.injEq] at hBt
      subst hBt
      obtain ⟨hfollowed', hlater'⟩ := (hm.followed hfollowed).advance hof' hrevision hA' hnext
      refine ⟨.of_relies fun j => ⟨fun _ => hfollowed', hlater', fun hwriter => ⟨hwriter, rfl⟩,
        Iff.rfl⟩, fun _ _ e he => absurd he (by simp)⟩
    · rw [if_neg hBt]
      refine ⟨.refl i m, fun _ _ e _ => ⟨m, hmeets, C, hof'.anchor, ?_⟩⟩
      obtain ⟨C', hC', hle⟩ := hm.later.anchors projectId B hof.anchor
      rw [hof'.anchor, Option.some.injEq] at hC'
      subst hC'
      by_contra hnot
      have hAsequence := hA.sequence
      rcases Nat.lt_or_ge B.val.sequence C.val.sequence with hlt | hge
      · have hsame : C.val.sequence = A.val.sequence := by omega
        have heq := Checkpoint.eq hof'.intact hof'.named hrevision hof'.checkpoint hA' hsame
        exact hAt (by rw [hof'.anchor, heq])
      · have hsame : C.val.sequence = B.val.sequence := by omega
        have heq := Checkpoint.eq hof'.intact hof'.named hr hof'.checkpoint hB' hsame
        exact hBt (by rw [hof'.anchor, heq])

variable [DecidableEq ι]

theorem endTransaction_safe (hfollowed : Followed keyring s.store) (hnew : i ∉ s.commits)
    (hwriter : s.writer = some i) (hdocuments : documents.Of revision evidence)
    (hstate : evidence.transaction.val.state = .committed)
    (hbinding : validateAttestationBinding keyring evidence.attestation revision
      evidence.transaction evidence.approval = .ok ()) :
    Steps.Safe (Relies keyring i) (Guarantees keyring i) meets
      (fun result s' => ∀ e, result = .error e → i ∈ s'.commits →
        ∃ t, meets (.swap projectId revision.val.sequence) t ∧
          Past projectId revision.val.sequence t)
      (endTransaction i projectId revision ((appendLocked projectId revision expectedHead evidence
        documents generation).run s.store)) s := by
  cases hrun : (appendLocked projectId revision expectedHead evidence documents generation).run
      s.store with
  | mk result work =>
      cases result with
      | error failure =>
          refine .write_bind ?_
          intro m hm _
          obtain ⟨hwriter', -⟩ := hm.locked hwriter
          have hgiven : giveUp i m = { m with writer := none } := if_pos hwriter'
          rw [hgiven]
          refine ⟨.of_writer (hm.followed hfollowed) (Later.refl _) (Or.inl hwriter')
            fun _ _ => Iff.rfl, ?_⟩
          intro s' hs' e _ hmem
          exact absurd (hm.commits.mp (hs'.commits.mp hmem)) hnew
      | ok anchors =>
          refine .write_bind ?_
          intro m hm _
          obtain ⟨hwriter', hdatabase⟩ := hm.locked hwriter
          obtain ⟨hfollowed', hlater, hsequence, hnext, hproject, revisions, head, hof⟩ :=
            hfollowed.append hrun hdocuments hstate hbinding hdatabase hm.later
              (hm.followed hfollowed)
          refine ⟨.of_writer hfollowed' hlater (Or.inl hwriter') ?_, ?_⟩
          · intro j hij
            unfold commitWork
            rw [List.mem_append, List.mem_singleton]
            exact or_iff_left fun hj => hij hj.symm
          · have hswap := @swap_safe _ _ _ keyring i meets (commitWork i work.database m) _ _ _ _ _ _
              hfollowed' hof hproject hnext
            exact hswap.weaken fun _ _ h e he _ => h e he

theorem transaction_safe (hfollowed : Followed keyring s.store) (hnew : i ∉ s.commits)
    (hdocuments : documents.Of revision evidence)
    (hstate : evidence.transaction.val.state = .committed)
    (hbinding : validateAttestationBinding keyring evidence.attestation revision
      evidence.transaction evidence.approval = .ok ()) :
    Steps.Safe (Relies keyring i) (Guarantees keyring i) meets
      (fun result s' => ∀ e, result = .error e → i ∈ s'.commits →
        ∃ t, meets (.swap projectId revision.val.sequence) t ∧
          Past projectId revision.val.sequence t)
      (transactionSteps i projectId revision expectedHead evidence documents generation) s := by
  refine .atomic_bind ?_
  intro m hm _
  rw [beginImmediate_run]
  by_cases hfree : m.writer = none
  · rw [if_pos hfree]
    have hfollowed' := hm.followed hfollowed
    refine ⟨.of_writer hfollowed' (Later.refl _) (Or.inr hfree) fun _ _ => Iff.rfl, ?_,
      fun _ _ herror => absurd herror (by simp)⟩
    intro view hview
    rw [Except.ok.injEq] at hview
    subst hview
    refine .read_bind (Guarantees.refl i) ?_
    intro t ht _
    obtain ⟨hwriter, hdatabase⟩ := ht.locked rfl
    -- nobody else has changed the database since
    have hview : StoreState.mk m.store.database t.store.anchors = t.store := by
      have hsame : m.store.database = t.store.database := hdatabase.symm
      rw [hsame]
    rw [hview]
    refine endTransaction_safe (ht.followed hfollowed') ?_ hwriter hdocuments hstate hbinding
    exact fun hmem => hnew (hm.commits.mp (ht.commits.mp hmem))
  · rw [if_neg hfree]
    refine ⟨.refl i m, fun _ hok => absurd hok (by simp), fun e s' _ hs' _ _ hmem => ?_⟩
    exact absurd (hm.commits.mp (hs'.commits.mp hmem)) hnew

-- what a record is written as plays no part here
attribute [local irreducible] surviving

/-- **An append raises after its transaction was committed only when it finds the anchor past its
revision.** -/
theorem append_safe (hfollowed : Followed keyring s.store) (hnew : i ∉ s.commits) :
    Steps.Safe (Relies keyring i) (Guarantees keyring i) meets
      (fun result s' => ∀ e, result = .error e → i ∈ s'.commits →
        ∃ t, meets (.swap projectId revision.val.sequence) t ∧
          Past projectId revision.val.sequence t)
      (appendSteps keyring i projectId revision expectedHead evidence generation) s := by
  -- what raises before the transaction
  have hrefused : ∀ (e : StoreFailure) (s' : Shared ι), Relies keyring i s s' →
      ∀ e', (.error e : Except StoreFailure Unit) = .error e' → i ∈ s'.commits →
        ∃ t, meets (.swap projectId revision.val.sequence) t ∧
          Past projectId revision.val.sequence t :=
    fun _ _ hs' _ _ hmem => absurd (hs'.commits.mp hmem) hnew
  unfold appendSteps
  refine Steps.Safe.check_bind_refused hrefused ?_
  intro _ _
  refine Steps.Safe.check_bind_refused hrefused ?_
  intro _ _
  refine Steps.Safe.check_bind_refused hrefused ?_
  intro _ hstate
  refine Steps.Safe.check_bind_refused hrefused ?_
  intro _ _
  refine Steps.Safe.check_bind_refused hrefused ?_
  intro rd hrd
  refine Steps.Safe.check_bind_refused hrefused ?_
  intro td htd
  refine Steps.Safe.check_bind_refused hrefused ?_
  intro apd hapd
  refine Steps.Safe.check_bind_refused hrefused ?_
  intro ad had
  refine Steps.Safe.check_bind_refused hrefused ?_
  intro _ hbinding
  refine Steps.Safe.bind (Relies.refl i) (Steps.Safe.weaken (restore_safe hfollowed) ?_)
  rintro result m ⟨hm, -⟩
  cases result with
  | error e => exact hrefused e m hm
  | ok state =>
      refine Steps.Safe.check_bind_refused (fun e s' hs' => hrefused e s' (hm.trans hs')) ?_
      intro _ _
      exact transaction_safe (hm.followed hfollowed) (fun hmem => hnew (hm.commits.mp hmem))
        ⟨hrd, htd, hapd, had⟩ (require_ok.mp hstate) hbinding

end Interleaved

/-! ### Runs -/

section Runs

variable {ι : Type} [DecidableEq ι] [UnicodeData] [Hashing]

/-- A call of one of the stores. -/
inductive StoreCall where
  | restore (projectId : String)
  | append (projectId : String) (revision : Revision) (expectedHead : String)
      (evidence : CommitEvidence) (expectedTransactionGeneration : Option Int)

/-- The steps of the call `i`, with what it returns. -/
def callSteps (keyring : Keyring) (i : ι) : StoreCall → StoreSteps ι (Option ProjectState)
  | .restore projectId => do
      let state ← restoreSteps keyring projectId
      return some state
  | .append projectId revision expectedHead evidence expectedTransactionGeneration => do
      appendSteps keyring i projectId revision expectedHead evidence expectedTransactionGeneration
      return none

/-- The calls `calls`, none of which has taken a step yet. -/
def begun (keyring : Keyring) (s : StoreState) (calls : ι → StoreCall) :
    Parties ι Place (Shared ι) StoreFailure (Option ProjectState) where
  shared := { store := s }
  programs i := some (callSteps keyring i (calls i))

/-- The calls after some turns: whatever calls there are, whoever takes the next step, and whoever
stops for good. -/
def interleaved (keyring : Keyring) (s : StoreState) (calls : ι → StoreCall)
    (turns : List (Turn ι)) : Parties ι Place (Shared ι) StoreFailure (Option ProjectState) :=
  Evleda.replay (Parties.after giveUp) (begun keyring s calls) turns

/-- What a call promises of its result, given where its steps may stand: a restore raises that the
project is broken only after it found the anchor past its snapshot again, and an append raises after
its transaction was committed only if it found the anchor past its revision. -/
def Promised (meets : Place → Shared ι → Prop) (i : ι) (call : StoreCall)
    (result : Except StoreFailure (Option ProjectState)) (s : Shared ι) : Prop :=
  match call with
  | .restore projectId => ∀ e, result = .error e → e.errorClass = .integrityError →
      ∃ n t, meets (.anchor true projectId n) t ∧ Past projectId n t
  | .append projectId revision _ _ _ => ∀ e, result = .error e → i ∈ s.commits →
      ∃ t, meets (.swap projectId revision.val.sequence) t ∧
        Past projectId revision.val.sequence t

variable {keyring : Keyring} {s : StoreState} {calls : ι → StoreCall}
  {meets : ι → Place → Shared ι → Prop}

theorem agreed (keyring : Keyring) :
    Parties.Agreed (giveUp (ι := ι)) (Relies keyring) (Guarantees keyring) where
  refl := Relies.refl
  trans _ _ _ _ h h' := h.trans h'
  others i j s s' hij h := ⟨h.followed, h.later, (h.others j hij).1, (h.others j hij).2⟩
  released i j s hij := by
    unfold giveUp
    split
    · rename_i hwriter
      refine ⟨id, Later.refl _, fun h => ?_, Iff.rfl⟩
      rw [hwriter] at h
      exact absurd (Option.some.inj h) hij
    · exact .refl j s

theorem callSteps_safe {i : ι} {meets : Place → Shared ι → Prop} {m : Shared ι}
    (h : Followed keyring m.store) (hnew : i ∉ m.commits) (call : StoreCall) :
    Steps.Safe (Relies keyring i) (Guarantees keyring i) meets (Promised meets i call)
      (callSteps keyring i call) m := by
  cases call with
  | restore projectId =>
      refine .bind (Relies.refl i) (.weaken (restore_safe h) ?_)
      rintro result t ⟨-, hresult⟩
      cases result with
      | ok state =>
          intro s' _ e he
          cases he
      | error e =>
          intro e' he'
          cases he'
          exact hresult e rfl
  | append projectId revision expectedHead evidence generation =>
      refine .bind (Relies.refl i) (.weaken (append_safe h hnew) ?_)
      intro result t hresult
      cases result with
      | ok _ =>
          intro s' _ e he
          cases he
      | error e =>
          intro e' he'
          cases he'
          exact hresult e rfl

theorem begun_safely (h : Followed keyring s) (calls : ι → StoreCall) :
    Parties.Safely (Relies keyring) (Guarantees keyring) meets
      (fun i => Promised (meets i) i (calls i)) (begun keyring s calls) := by
  intro i x hx
  obtain rfl := Option.some.inj hx
  exact callSteps_safe h List.not_mem_nil (calls i)

/-- From one state to a later one, a followed store stays followed and only goes on. -/
def Kept (keyring : Keyring) (s s' : Shared ι) : Prop :=
  (Followed keyring s.store → Followed keyring s'.store) ∧ Later s.store s'.store

theorem safely_kept {c : Parties ι Place (Shared ι) StoreFailure (Option ProjectState)}
    {post : ι → Except StoreFailure (Option ProjectState) → Shared ι → Prop}
    (h : c.Safely (Relies keyring) (Guarantees keyring) (fun _ _ _ => True) post)
    (turns : List (Turn ι)) :
    (Evleda.replay (Parties.after giveUp) c turns).Safely (Relies keyring) (Guarantees keyring)
        (fun _ _ _ => True) post ∧
      Kept keyring c.shared (Evleda.replay (Parties.after giveUp) c turns).shared := by
  refine h.reaches (agreed keyring) (fun _ => ⟨id, Later.refl _⟩)
    (fun _ _ _ h h' => ⟨h'.1 ∘ h.1, h.2.trans h'.2⟩)
    (fun _ _ _ hstep => ⟨hstep.followed, hstep.later⟩) (fun i m => ?_) turns
  unfold giveUp
  split
  · exact ⟨id, Later.refl _⟩
  · exact ⟨id, Later.refl _⟩

theorem interleaved_later (h : Followed keyring s) (calls : ι → StoreCall)
    (before after : List (Turn ι)) :
    Followed keyring (interleaved keyring s calls before).shared.store ∧
      Later (interleaved keyring s calls before).shared.store
        (interleaved keyring s calls (before ++ after)).shared.store := by
  obtain ⟨hsafely, hbefore⟩ := safely_kept (begun_safely h calls) before
  refine ⟨hbefore.1 h, ?_⟩
  unfold interleaved
  rw [Replay.append]
  exact (safely_kept hsafely after).2.2

/-- What the calls share after some turns, on a store to which the operations `operations` led. -/
def sharedAfter (keyring : Keyring) (operations : List StoreOperation) (calls : ι → StoreCall)
    (turns : List (Turn ι)) : Shared ι :=
  (interleaved keyring (afterCalls keyring operations) calls turns).shared

/-- **The anchor follows the chain, whatever calls interleave and whichever of them stop**: it is the
checkpoint of a revision of the chain, it does not go back, and a restore that then runs alone
succeeds and leaves it at the head. -/
theorem anchor_follows_chain (keyring : Keyring) (operations : List StoreOperation)
    (calls : ι → StoreCall) (before after : List (Turn ι)) (projectId : String)
    (hproject :
      (sharedAfter keyring operations calls before).store.database.hasProject projectId) :
    (∃ revisions r A,
      loadRevisions (sharedAfter keyring operations calls before).store.database projectId =
        .ok revisions ∧
      r ∈ revisions ∧
      headAnchorState (sharedAfter keyring operations calls before).store.database r = .ok A ∧
      (sharedAfter keyring operations calls before).store.anchors projectId = some A) ∧
    (∀ A, (sharedAfter keyring operations calls before).store.anchors projectId = some A →
      ∃ B, (sharedAfter keyring operations calls (before ++ after)).store.anchors projectId =
          some B ∧
        A.val.sequence ≤ B.val.sequence) ∧
    ∃ state m A, (restoreSteps keyring projectId).alone.run
        (sharedAfter keyring operations calls before) = (.ok state, m) ∧
      loadRevisions m.store.database projectId = .ok state.revisions ∧
      lastOf state.revisions = .ok state.headRevision ∧
      headAnchorState m.store.database state.headRevision = .ok A ∧
      m.store.anchors projectId = some A := by
  unfold sharedAfter at hproject ⊢
  obtain ⟨hfollowed, hlater⟩ :=
    interleaved_later (afterCalls_sound keyring operations).followed calls before after
  obtain hnone | ⟨revisions, head, A, B, r, hof⟩ := hfollowed projectId
  · rw [hasProject_iff, hnone] at hproject
    exact absurd rfl hproject
  · refine ⟨⟨revisions, r, B, hof.intact.loads_revisions, hof.named,
      (hof.intact.headAnchorState_ok hof.named).mpr hof.checkpoint, hof.anchor⟩,
      fun A hA => hlater.anchors projectId A hA, ?_⟩
    obtain ⟨state, s', hrun, hrevisions, hhead, hdatabase, hanchor⟩ := hof.restores
    have halone := congrFun (@restore_does ι _ _ keyring projectId)
      (interleaved keyring (afterCalls keyring operations) calls before).shared
    have hstore := Does.onStore_run (restore keyring projectId)
      (interleaved keyring (afterCalls keyring operations) calls before).shared
    rw [hrun] at hstore
    refine ⟨state, _, A, halone.trans hstore, ?_, ?_, ?_, hanchor⟩
    · rw [hrevisions]
      dsimp only
      rw [hdatabase]
      exact hof.intact.loads_revisions
    · rw [hrevisions, hhead]
      exact located_ok.mpr hof.intact.last
    · rw [hhead]
      dsimp only
      rw [hdatabase]
      exact (hof.intact.headAnchorState_ok hof.intact.head_mem).mpr hof.intact.head_checkpoint

end Runs

/-! ### Turn by turn -/

section Turns

variable {ι : Type} [UnicodeData] [Hashing] {keyring : Keyring} {projectId : String}
  {revisions : List Revision} {head : Revision} {anchor : Option Anchor}

/-- No operation of the anchor in the second attempt of a restore, and no compare-and-set after the
commit of an append, finds the anchor past the head that the attempt has seen, or the revision. -/
def Unpassed (_ : ι) : Place → Shared ι → Prop
  | .anchor true projectId headSequence, s => ¬ Past projectId headSequence s
  | .swap projectId sequence, s => ¬ Past projectId sequence s
  | _, _ => True

/-- The steps of `restoreSnapshot` after the database was read. -/
def loadedSteps (keyring : Keyring) (again : Bool) (projectId : String) (db : Database) :
    StoreSteps ι ProjectState := do
  let revisions ← .check (loadRevisions db projectId)
  let transactions ← .check (loadTransactions db projectId revisions)
  let approvals ← .check (loadApprovals db projectId)
  let attestations ← .check
    (loadAttestations keyring db projectId revisions transactions approvals)
  .check (crossChecks revisions transactions approvals)
  reconcileSteps again revisions attestations
  let headRevision ← .check (lastOf revisions)
  return ⟨projectId, headRevision, revisions, transactions, approvals, attestations⟩

/-- What an attempt to restore has still to do, after it read an intact project. -/
theorem loadedSteps_intact {db : Database}
    (h : Intact keyring projectId (db.of projectId) anchor revisions head) (again : Bool) :
    ∃ attestations state,
      List.Forall₂ (fun r a => ∃ t approval,
        Released keyring projectId (db.of projectId) r a t approval) revisions.tail attestations ∧
      state.headRevision = head ∧
      (loadedSteps keyring again projectId db : StoreSteps ι ProjectState) =
        reconcileSteps again revisions attestations >>= fun _ => pure state := by
  obtain ⟨stored, hstored, hmem, hnodup⟩ := h.loads_transactions
  obtain ⟨approvals, happrovals, hmemA, hnodupA⟩ := h.loads_approvals
  obtain ⟨attestations, hattestations, hrelated⟩ := h.loads_attestations hmem hmemA hnodupA
  have hlast : lastOf revisions = .ok head := located_ok.mpr h.last
  refine ⟨attestations, ⟨projectId, head, revisions, stored, approvals, attestations⟩, hrelated,
    rfl, ?_⟩
  unfold loadedSteps
  rw [h.loads_revisions, Steps.check_ok_bind, hstored, Steps.check_ok_bind, happrovals,
    Steps.check_ok_bind, hattestations, Steps.check_ok_bind, h.crossChecks hmem hnodup hmemA,
    Steps.check_ok_bind, hlast]
  rfl

/-- It looks at the anchor, and raises where that is past what it read. -/
theorem loadedSteps_ahead {db : Database} {m : Shared ι} {meets : Place → Shared ι → Prop}
    (h : Intact keyring projectId (db.of projectId) anchor revisions head) (again : Bool)
    (hmeets : meets (.anchor again projectId head.val.sequence) m)
    (hpast : Past projectId head.val.sequence m) :
    (loadedSteps keyring again projectId db).Comes meets m (.done (.error anchorAhead)) m := by
  obtain ⟨attestations, state, -, -, hsteps⟩ := @loadedSteps_intact ι _ _ _ _ _ _ _ db h again
  obtain ⟨_, A, -, hval, -⟩ := h.anchored
  obtain ⟨C, hC, hpast⟩ := hpast
  have hproject : head.val.graph.projectId = projectId :=
    (loadChain_rows h.chain).2.2.2 head h.head_mem
  have hlast : lastOf revisions = .ok head := located_ok.mpr h.last
  have hidentified : A.val.projectId = projectId := by rw [hval]
  have hrefused : require (C.val.sequence ≤ head.val.sequence) anchorAhead = .error anchorAhead :=
    require_error.mpr ⟨by omega, rfl⟩
  have hreconcile : (reconcileSteps again revisions attestations).Comes meets m
      (.done (.error anchorAhead)) m := by
    unfold reconcileSteps
    rw [hlast, Steps.check_ok_bind]
    simp only [hproject]
    refine .atomic_bind hmeets (readAnchor_run hidentified m) ?_
    rw [hC]
    dsimp only
    rw [hrefused]
    exact .here
  rw [hsteps]
  exact hreconcile.bind fun _ => pure state

theorem Intact.not_past {m : Shared ι}
    (h : Intact keyring projectId (m.store.database.of projectId) (m.store.anchors projectId)
      revisions head) : ¬ Past projectId head.val.sequence m := by
  rintro ⟨C, hC, hpast⟩
  obtain ⟨_, A, hanchor, hval, -⟩ := h.anchored
  obtain rfl := Option.some.inj (hanchor.symm.trans hC)
  rw [hval] at hpast
  exact lt_irrefl _ hpast

/-- An attempt to restore an intact project returns, and does not find the anchor past its head. -/
theorem Intact.snapshot_comes {m : Shared ι} {i : ι}
    (h : Intact keyring projectId (m.store.database.of projectId) (m.store.anchors projectId)
      revisions head) (again : Bool) :
    ∃ state, state.headRevision = head ∧
      (snapshotSteps keyring again projectId).Comes (Unpassed i) m (.done (.ok state)) m := by
  obtain ⟨attestations, state, hrelated, hhead, hsteps⟩ :=
    @loadedSteps_intact ι _ _ _ _ _ _ _ m.store.database h again
  obtain ⟨A, hanchor, hidentified, hsequence, hexpected⟩ := h.expectedAnchor hrelated
  have hproject : head.val.graph.projectId = projectId :=
    (loadChain_rows h.chain).2.2.2 head h.head_mem
  have hlast : lastOf revisions = .ok head := located_ok.mpr h.last
  have hmeets : Unpassed i (.anchor again projectId head.val.sequence) m := by
    cases again with
    | true => exact h.not_past
    | false => exact trivial
  have hdone : (advanceSteps (.anchor again projectId head.val.sequence) projectId revisions
      attestations head.val.sequence (head.val.sequence + 1) A (head.val.sequence + 1) :
      StoreSteps ι Anchor) = pure A := by
    rw [advanceSteps, if_pos (Nat.lt_succ_self _)]
  have hreconcile : (reconcileSteps again revisions attestations).Comes (Unpassed i) m
      (.done (.ok ())) m := by
    unfold reconcileSteps
    rw [hlast, Steps.check_ok_bind]
    simp only [hproject]
    refine .atomic_bind hmeets (readAnchor_run hidentified m) ?_
    rw [hanchor]
    dsimp only
    rw [Steps.check_require_bind hsequence.le, hsequence, hexpected, Steps.check_ok_bind,
      Steps.check_require_bind rfl, hdone, Steps.pure_eq, Steps.done_ok_bind]
    refine .atomic_bind hmeets (readAnchor_run hidentified m) ?_
    rw [hanchor, Steps.check_require_bind (by simpa using hsequence.le),
      require_ok.mpr rfl]
    exact .here
  refine ⟨state, hhead, .atomic_bind (show Unpassed i .snapshot m from trivial) rfl ?_⟩
  have hloaded := hreconcile.bind fun _ => (pure state : StoreSteps ι ProjectState)
  rw [← hsteps] at hloaded
  exact hloaded

variable {revision : Revision} {expectedHead : String} {evidence : CommitEvidence}
  {documents : CommitDocuments} {generation : Option Int} {i : ι} {m : Shared ι} {s' : StoreState}

theorem Intact.append_comes [DecidableEq ι]
    (h : Intact keyring projectId (m.store.database.of projectId) (m.store.anchors projectId)
      revisions head) (hchecked : Appendable keyring revision evidence documents) :
    (appendSteps keyring i projectId revision expectedHead evidence generation).Comes (Unpassed i) m
      (.check (require (head.val.revisionHash = expectedHead)
          (conflict "project head changed before the verified revision append")) >>= fun _ =>
        transactionSteps i projectId revision expectedHead evidence documents generation) m := by
  obtain ⟨state, hhead, hsnapshot⟩ := @Intact.snapshot_comes ι _ _ _ _ _ _ m i h false
  have hrestore : (restoreSteps keyring projectId).Comes (Unpassed i) m (.done (.ok state)) m :=
    hsnapshot.handling _
  subst hhead
  unfold appendSteps
  rw [Steps.check_require_bind hchecked.later, Steps.check_require_bind hchecked.hash,
    Steps.check_require_bind hchecked.state, Steps.check_require_bind hchecked.decision,
    hchecked.documents.revision, Steps.check_ok_bind, hchecked.documents.transaction,
    Steps.check_ok_bind, hchecked.documents.approval, Steps.check_ok_bind,
    hchecked.documents.attestation, Steps.check_ok_bind, hchecked.binding, Steps.check_ok_bind]
  exact hrestore.bind _

/-- An append that returns has first its transaction committed, and then moves the anchor. -/
theorem append_commits [DecidableEq ι] (hfree : m.writer = none)
    (h : Intact keyring projectId (m.store.database.of projectId) (m.store.anchors projectId)
      revisions head)
    (happend : (appendRevision keyring projectId revision expectedHead evidence generation).run
      m.store = (.ok (), s')) :
    ∃ (anchors : Anchor × Anchor) (m' : Shared ι),
      (appendSteps keyring i projectId revision expectedHead evidence generation).Comes (Unpassed i)
        m (anchorStep (.swap projectId revision.val.sequence)
          (compareAndSet anchors.1 anchors.2)) m' ∧
      m'.store = ⟨s'.database, m.store.anchors⟩ ∧ m'.writer = none ∧
      m'.commits = m.commits ++ [i] ∧
      (compareAndSet anchors.1 anchors.2).run m'.store = (.ok (), s') := by
  obtain ⟨documents, state, t, anchors, worked, hchecked, hrestored, hhead, hlocked, hmoved⟩ :=
    appendRevision_committed happend
  obtain ⟨_, hrestored', -, hstate, -⟩ := h.restores
  obtain ⟨hsame, rfl⟩ := Prod.mk.inj (hrestored'.symm.trans hrestored)
  obtain rfl := Except.ok.inj hsame
  rw [hstate] at hhead
  have hkept : worked.anchors = m.store.anchors := by
    have hkeeps := appendLocked_keeps projectId revision expectedHead evidence documents generation
      m.store
    rw [hlocked] at hkeeps
    exact hkeeps
  have hdatabase : worked.database = s'.database := by
    rw [appendLocked_moves hlocked h hchecked.documents hchecked.binding] at hmoved
    rw [← (Prod.mk.inj hmoved).2]
  have hbegin := beginImmediate_run i m
  rw [if_pos hfree] at hbegin
  have hstore : StoreState.mk worked.database m.store.anchors = worked := by
    rw [← hkept]
  refine ⟨anchors, commitWork i worked.database { m with writer := some i },
    (h.append_comes hchecked).trans ?_, by rw [← hdatabase]; rfl, rfl, rfl, ?_⟩
  rotate_left
  · show (compareAndSet anchors.1 anchors.2).run ⟨worked.database, m.store.anchors⟩ = _
    rw [hstore]
    exact hmoved
  rw [Steps.check_require_bind hhead]
  unfold transactionSteps
  have hread : (read fun s : Shared ι => (appendLocked projectId revision expectedHead evidence
      documents generation).run ⟨m.store.database, s.store.anchors⟩ : Effect (Shared ι) StoreFailure
        (Except StoreFailure (Anchor × Anchor) × StoreState)).run { m with writer := some i } =
      (.ok (.ok anchors, worked), { m with writer := some i }) :=
    congrArg (fun x => (Except.ok x, { m with writer := some i })) hlocked
  refine .atomic_bind trivial hbegin (.atomic_bind trivial hread ?_)
  exact .atomic_bind (b := ()) trivial rfl .here

theorem Intact.past {s : StoreState}
    (h : Intact keyring projectId (s.database.of projectId) (s.anchors projectId) revisions head)
    (h' : Intact keyring projectId (s'.database.of projectId) (s'.anchors projectId)
      (revisions ++ [revision]) revision) (hm : m.store = s') :
    Past projectId head.val.sequence m := by
  obtain ⟨_, A, hanchor, hval, -⟩ := h'.anchored
  have hsequence := h.head_sequence
  have hsequence' := h'.head_sequence
  rw [← h.length_eq] at hsequence
  rw [← h'.length_eq, List.length_append, List.length_singleton] at hsequence'
  refine ⟨A, by rw [hm]; exact hanchor, ?_⟩
  rw [hval]
  dsimp only
  omega

theorem append_returned [DecidableEq ι] (hfree : m.writer = none)
    (h : Intact keyring projectId (m.store.database.of projectId) (m.store.anchors projectId)
      revisions head)
    (happend : (appendRevision keyring projectId revision expectedHead evidence generation).run
      m.store = (.ok (), s')) :
    ∃ m', (callSteps keyring i (.append projectId revision expectedHead evidence generation)).Comes
        (Unpassed i) m (.done (.ok none)) m' ∧
      m'.store = s' ∧ m'.writer = none := by
  obtain ⟨h', -⟩ := appendRevision_returns h happend
  obtain ⟨anchors, t, hcommits, hstore, hwriter, -, hmoved⟩ :=
    @append_commits ι _ _ _ _ _ _ _ _ _ _ i m s' _ hfree h happend
  have hrun : (onStore (compareAndSet anchors.1 anchors.2)).run t =
      (.ok (), { t with store := s' }) := by
    rw [Does.onStore_run, hmoved]
  have hunpassed : ¬ Past projectId revision.val.sequence t := by
    rintro ⟨A, hA, hpast⟩
    obtain ⟨B, hB, hless⟩ := h.past (m := { t with store := s' }) h' rfl
    refine h.not_past ⟨A, ?_, ?_⟩
    · rw [← hA, hstore]
    · have hlast := h'.not_past (m := { t with store := s' })
      have hle : B.val.sequence ≤ revision.val.sequence := by
        by_contra hnot
        exact hlast ⟨B, hB, by omega⟩
      omega
  refine ⟨{ t with store := s' }, (hcommits.bind _).trans ?_, rfl, hwriter⟩
  exact .atomic_bind (show Unpassed i (.swap _ _) t from hunpassed) hrun .here

end Turns

section Release

attribute [local instance] asciiData storeHashing

def releaseRestored : Bool → StoreCall
  | false => .restore "demo"
  | true => .append "demo" storedRevision (plainDigest 'b') netEvidence none

/-- The restore reads the database, the release is committed and its process stops before it moves
the anchor, and the restore takes its next step. -/
theorem anchor_follows_chain_release : ∃ before : List (Turn Bool),
    .crash true ∈ before ∧
    loadRevisions (sharedAfter netKeyring [.createProject storedGenesis] releaseRestored
      before).store.database "demo" = .ok [storedGenesis, storedRevision] ∧
    (∃ A, (sharedAfter netKeyring [.createProject storedGenesis] releaseRestored
      before).store.anchors "demo" = some A ∧ A.val.sequence = 0 ∧
      ∃ B, (sharedAfter netKeyring [.createProject storedGenesis] releaseRestored
          (before ++ [.step false])).store.anchors "demo" = some B ∧
        A.val.sequence ≤ B.val.sequence) ∧
    ∃ state m A, (restoreSteps netKeyring "demo").alone.run (sharedAfter netKeyring
        [.createProject storedGenesis] releaseRestored before) = (.ok state, m) ∧
      loadRevisions m.store.database "demo" = .ok state.revisions ∧
      lastOf state.revisions = .ok state.headRevision ∧
      headAnchorState m.store.database state.headRevision = .ok A ∧
      m.store.anchors "demo" = some A := by
  obtain ⟨s₁, s₂, hs₁, h₁, -, happend⟩ := netRelease_appends
  obtain ⟨h₂, -⟩ := appendRevision_returns h₁ happend
  obtain ⟨_, A, hanchor, hval, -⟩ := h₁.anchored
  let c := begun netKeyring s₁ releaseRestored
  -- the release is committed
  obtain ⟨anchors, m, hcommits, hstore, -⟩ := @append_commits Bool _ _ netKeyring "demo" _ _ _ _ _ _
    true c.shared s₂ _ rfl h₁ happend
  obtain ⟨n, hturns⟩ := Parties.stops_of_comes giveUp
    (c := c.after giveUp (.step false)) (i := true) rfl (hcommits.bind fun _ => pure none)
  let before : List (Turn Bool) := .step false :: (List.replicate n (.step true) ++ [.crash true])
  have hbefore : (sharedAfter netKeyring [.createProject storedGenesis] releaseRestored
      before).store = ⟨s₂.database, s₁.anchors⟩ := by
    unfold sharedAfter interleaved
    rw [hs₁, Replay.cons rfl, hturns]
    dsimp only
    unfold giveUp
    split
    · exact hstore
    · exact hstore
  have hproject : (sharedAfter netKeyring [.createProject storedGenesis] releaseRestored
      before).store.database.hasProject "demo" := by
    rw [hbefore]
    exact h₂.hasProject
  obtain ⟨-, hforward, hrestored⟩ := anchor_follows_chain netKeyring [.createProject storedGenesis]
    releaseRestored before [.step false] "demo" hproject
  refine ⟨before, by simp [before], ?_, ⟨A, ?_, ?_, hforward A ?_⟩, hrestored⟩
  · rw [hbefore]
    exact h₂.loads_revisions
  · rw [hbefore]
    exact hanchor
  · rw [hval]
    rfl
  · rw [hbefore]
    exact hanchor

end Release

end Evleda.ProjectStore
