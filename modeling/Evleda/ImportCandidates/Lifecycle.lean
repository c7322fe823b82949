/-
The lifecycle of every candidate, over any calls.

A store is sealed if every candidate in it is read back with its chain.  A new
candidate and its first event make a chain of one; a transition adds one event to
the chain it has just verified.  What has to be seen is that the verifier agrees
with what the writer wrote: the evidence that the events lead to is the evidence
of the row, also where the first event was a migration and stands for evidence
that the row had already.  For that the states are ranked: a transition goes to a
higher rank, so that a receipt or a reason that a transition sets is none of those
that the first event stands for.
-/
import Evleda.ImportCandidates.Rows
import Mathlib.Data.List.Chain

namespace Evleda.ImportCandidates

open Outcome

variable [UnicodeData] [InspectionPolicy] [Hashing] {s s' : CandidateStore}
  {candidate : ImportCandidate}

/-! ### Chains -/

/-- The event comes next in a chain. -/
structure Follows (previous event : CandidateTransitionEvent) : Prop where
  kind : event.kind = .transitioned
  sequence : event.sequence = previous.sequence + 1
  digest : event.previousEventDigest = previous.eventDigest
  state : event.previousState = some previous.state
  time : ¬ event.transitionedAt < previous.transitionedAt

section

omit [UnicodeData] [InspectionPolicy] [Hashing]

theorem verifyNext_ok {previous event : CandidateTransitionEvent} {u : Unit} :
    verifyNext previous event = .ok u ↔ Follows previous event := by
  unfold verifyNext
  simp only [bind_ok, exists_unit, require_ok]
  constructor
  · rintro ⟨hkind, hsequence, hdigest, hstate, htime⟩
    exact ⟨hkind, hsequence, hdigest, hstate, htime⟩
  · rintro ⟨hkind, hsequence, hdigest, hstate, htime⟩
    exact ⟨hkind, hsequence, hdigest, hstate, htime⟩

/-- What the loop over the later events returns. -/
theorem verifyRest_ok {previous : CandidateTransitionEvent} {evidence : Evidence}
    {rest : List CandidateTransitionEvent} {last : CandidateTransitionEvent} {evidence' : Evidence} :
    verifyRest previous evidence rest = .ok (last, evidence') ↔
      (previous :: rest).IsChain Follows ∧ last = rest.getLastD previous ∧
        evidence' = rest.foldl Evidence.replay evidence := by
  induction rest generalizing previous evidence with
  | nil =>
      rw [verifyRest, Except.ok.injEq, Prod.mk.injEq]
      simp [eq_comm]
  | cons event rest ih =>
      rw [verifyRest, bind_ok, exists_unit, verifyNext_ok, ih,
        List.isChain_cons_cons, List.getLastD_cons, List.foldl_cons, and_assoc]

end

omit [InspectionPolicy] in
theorem verifyEventChain_ok {events : List CandidateTransitionEvent} :
    verifyEventChain s candidate = .ok events ↔
      ∃ first rest, events = first :: rest ∧
        (s.eventsOf candidate.candidateId).mapM eventFromRow = .ok (first :: rest) ∧
        verifyRoot candidate first = .ok () ∧ (first :: rest).IsChain Follows ∧
        verifyEnd candidate first (rest.getLastD first)
          (rest.foldl Evidence.replay (rootEvidence candidate first)) = .ok () := by
  unfold verifyEventChain
  rw [bind_ok]
  constructor
  · rintro ⟨read, hread, h⟩
    cases read with
    | nil => cases h
    | cons first rest =>
        obtain ⟨_, hroot, h⟩ := bind_ok.mp h
        obtain ⟨⟨last, evidence⟩, hrest, h⟩ := bind_ok.mp h
        obtain ⟨hchain, rfl, rfl⟩ := verifyRest_ok.mp hrest
        dsimp only at h
        obtain ⟨_, hend, h⟩ := bind_ok.mp h
        exact ⟨first, rest, (pure_ok.mp h).symm, hread, hroot, hchain, hend⟩
  · rintro ⟨first, rest, rfl, hread, hroot, hchain, hend⟩
    refine ⟨_, hread, bind_ok.mpr ⟨(), hroot, ?_⟩⟩
    refine bind_ok.mpr ⟨_, verifyRest_ok.mpr ⟨hchain, rfl, rfl⟩, ?_⟩
    exact bind_ok.mpr ⟨(), hend, rfl⟩

omit [UnicodeData] [InspectionPolicy] [Hashing] in
theorem verifyEnd_ok {first last : CandidateTransitionEvent} {evidence : Evidence} {u : Unit} :
    verifyEnd candidate first last evidence = .ok u ↔
      (last.sequence = candidate.generation ∧ last.state = candidate.state ∧
        last.eventDigest = candidate.lastEventDigest ∧ last.transitionedAt = candidate.updatedAt) ∧
      evidence = ⟨candidate.resolutionReceiptDigest, candidate.stageReceiptDigest,
        candidate.terminalReason⟩ ∧
      (first.kind = .created → first.transitionedAt = candidate.createdAt) := by
  unfold verifyEnd
  simp only [bind_ok, exists_unit, require_ok]

omit [InspectionPolicy] in
theorem CandidateTransitionEvent.checks_ok {event : CandidateTransitionEvent}
    (h : event.checks = .ok ()) : event.kindChecks = .ok () ∧
      event.eventDigest = event.computedDigest := by
  unfold CandidateTransitionEvent.checks at h
  simp only [bind_ok, exists_unit, require_ok] at h
  obtain ⟨-, -, -, -, -, -, -, hkind, hdigest⟩ := h
  exact ⟨hkind, hdigest⟩

section

omit [UnicodeData] [InspectionPolicy] [Hashing]

theorem CandidateTransitionEvent.kindChecks_ok {event : CandidateTransitionEvent} {u : Unit} :
    event.kindChecks = .ok u ↔
      (event.kind = .created → event.sequence = 0 ∧ event.previousState = none ∧
        event.state = .pending ∧ event.previousEventDigest = zeroDigest ∧
        event.receiptDigest ≠ none ∧ event.reason = none) ∧
      (event.kind = .transitioned →
        ∃ previous ∈ event.previousState, event.state ∈ previous.legalTransitions) ∧
      (event.kind = .transitioned → event.state = .resolved ∨ event.state = .staged →
        event.receiptDigest ≠ none ∧ event.reason = none) ∧
      (event.kind = .transitioned → event.state = .rejected ∨ event.state = .invalidated →
        event.receiptDigest = none ∧ event.reason ≠ none) ∧
      (event.kind = .migrated → event.previousState = none) := by
  unfold CandidateTransitionEvent.kindChecks
  simp only [bind_ok, exists_unit, require_ok]

/-! ### The rank of a state -/

/-- How far a lifecycle has come. -/
def CandidateState.rank : CandidateState → Nat
  | .pending => 0
  | .resolved => 1
  | .staged => 2
  | .rejected => 3
  | .invalidated => 3

theorem CandidateState.rank_lt {state target : CandidateState}
    (h : target ∈ state.legalTransitions) : state.rank < target.rank := by
  revert h
  cases state <;> cases target <;> decide

theorem Follows.legal {previous event : CandidateTransitionEvent} (h : Follows previous event)
    (hkind : event.kindChecks = .ok ()) : event.state ∈ previous.state.legalTransitions := by
  obtain ⟨-, hlegal, -⟩ := CandidateTransitionEvent.kindChecks_ok.mp hkind
  obtain ⟨state, hstate, hmem⟩ := hlegal h.kind
  rw [h.state, Option.mem_some_iff] at hstate
  exact hstate ▸ hmem

theorem rank_le_last {first : CandidateTransitionEvent} {rest : List CandidateTransitionEvent}
    (hchain : (first :: rest).IsChain Follows)
    (hkinds : ∀ event ∈ rest, event.kindChecks = .ok ()) :
    first.state.rank ≤ (rest.getLastD first).state.rank := by
  induction rest generalizing first with
  | nil => exact le_refl _
  | cons event rest ih =>
      rw [List.isChain_cons_cons] at hchain
      rw [List.getLastD_cons]
      have hstep := CandidateState.rank_lt
        (hchain.1.legal (hkinds event List.mem_cons_self))
      exact hstep.le.trans (ih hchain.2 fun other hother =>
        hkinds other (List.mem_cons_of_mem _ hother))

/-- Along a chain the numbers never fall. -/
theorem sequence_le_last {first : CandidateTransitionEvent} {rest : List CandidateTransitionEvent}
    (hchain : (first :: rest).IsChain Follows) :
    ∀ event ∈ first :: rest, event.sequence ≤ (rest.getLastD first).sequence := by
  induction rest generalizing first with
  | nil =>
      intro event hevent
      rw [List.mem_singleton] at hevent
      exact hevent ▸ le_refl _
  | cons next rest ih =>
      rw [List.isChain_cons_cons] at hchain
      have hlater := ih hchain.2
      have hnext := hlater next List.mem_cons_self
      have hstep := hchain.1.sequence
      intro event hevent
      rw [List.getLastD_cons]
      rcases List.mem_cons.mp hevent with rfl | hevent
      · omega
      · exact hlater event hevent

end

omit [UnicodeData] [InspectionPolicy] in
theorem verifyRoot_ok {first : CandidateTransitionEvent} {u : Unit} :
    verifyRoot candidate first = .ok u ↔ (first.kind = .created ∨ first.kind = .migrated) ∧
      first.previousEventDigest = CandidateTransitionEvent.zeroDigest ∧
      first.actorId = candidate.draft.createdBy ∧
      (first.kind = .created → first.receiptDigest = some candidate.draft.inspectionReceiptDigest ∧
        first.reason = none) ∧
      (first.kind ≠ .created →
        first.receiptDigest = candidateMigrationReceipt candidate first.state ∧
          first.reason = some (candidateMigrationReason candidate first)) := by
  unfold verifyRoot
  simp only [bind_ok, exists_unit, require_ok]
  by_cases hkind : first.kind = .created
  · rw [if_pos hkind, require_ok]
    simp [hkind]
  · rw [if_neg hkind, require_ok]
    simp [hkind]

/-! ### The first event of a chain -/

/-- The event is the first that a new candidate gets. -/
structure Creates (candidate : ImportCandidate) (event : CandidateTransitionEvent) : Prop where
  candidateId : event.candidateId = candidate.candidateId
  sequence : event.sequence = candidate.generation
  kind : event.kind = .created
  state : event.state = candidate.state
  isPending : candidate.state = .pending
  actorId : event.actorId = candidate.draft.createdBy
  receiptDigest : event.receiptDigest = some candidate.draft.inspectionReceiptDigest
  reason : event.reason = none
  createdAt : event.transitionedAt = candidate.createdAt
  updatedAt : event.transitionedAt = candidate.updatedAt
  previousDigest : event.previousEventDigest = CandidateTransitionEvent.zeroDigest
  lastDigest : event.eventDigest = candidate.lastEventDigest
  eventChecks : event.checks = .ok ()
  checks : candidate.checks = .ok ()

omit [UnicodeData] [InspectionPolicy] [Hashing] in
theorem ImportCandidate.evidenceChecks_ok {u : Unit} : candidate.evidenceChecks = .ok u ↔
    (candidate.state = .pending → candidate.resolutionReceiptDigest = none ∧
      candidate.stageReceiptDigest = none ∧ candidate.terminalReason = none) ∧
    (candidate.state = .resolved → candidate.resolutionReceiptDigest ≠ none ∧
      candidate.stageReceiptDigest = none ∧ candidate.terminalReason = none) ∧
    (candidate.state = .staged → candidate.resolutionReceiptDigest ≠ none ∧
      candidate.stageReceiptDigest ≠ none ∧ candidate.terminalReason = none) ∧
    (candidate.state = .rejected →
      candidate.stageReceiptDigest = none ∧ candidate.terminalReason ≠ none) ∧
    (candidate.state = .invalidated → candidate.terminalReason ≠ none) := by
  unfold ImportCandidate.evidenceChecks
  simp only [bind_ok, exists_unit, require_ok]

theorem ImportCandidate.evidence_of_checks (h : candidate.checks = .ok ()) :
    candidate.evidenceChecks = .ok () := by
  obtain ⟨-, -, -, -, -, -, -, -, -, -, -, -, hevidence⟩ := ImportCandidate.checks_ok.mp h
  exact hevidence

theorem Creates.verified {event : CandidateTransitionEvent} (h : Creates candidate event)
    (hevents : s.eventsOf candidate.candidateId = [event.row]) :
    verifyEventChain s candidate = .ok [event] := by
  obtain ⟨hpending, -⟩ := ImportCandidate.evidenceChecks_ok.mp
    (ImportCandidate.evidence_of_checks h.checks)
  obtain ⟨hresolution, hstage, hreason⟩ := hpending h.isPending
  refine verifyEventChain_ok.mpr ⟨event, [], rfl, ?_, ?_, List.isChain_singleton _, ?_⟩
  · rw [hevents]
    exact mapM_ok.mpr (.cons (eventFromRow_row h.eventChecks) .nil)
  · exact verifyRoot_ok.mpr ⟨Or.inl h.kind, h.previousDigest, h.actorId,
      fun _ => ⟨h.receiptDigest, h.reason⟩, fun hkind => absurd h.kind hkind⟩
  · refine verifyEnd_ok.mpr ⟨⟨h.sequence, h.state, h.lastDigest, h.updatedAt⟩, ?_,
      fun _ => h.createdAt⟩
    unfold rootEvidence
    rw [if_pos h.kind, hresolution, hstage, hreason]
    rfl

/-! ### One more event -/

/-- The event is the one that a transition adds to the candidate, and the other candidate is what
the transition makes of it. -/
structure Transitions (candidate next : ImportCandidate) (event : CandidateTransitionEvent) :
    Prop where
  candidateId : event.candidateId = candidate.candidateId
  sequence : event.sequence = candidate.generation + 1
  kind : event.kind = .transitioned
  previousState : event.previousState = some candidate.state
  previousDigest : event.previousEventDigest = candidate.lastEventDigest
  time : ¬ event.transitionedAt < candidate.updatedAt
  legal : event.state ∈ candidate.state.legalTransitions
  next_eq : next = candidate.withTransition event.state event.sequence event.transitionedAt
    event.eventDigest (if event.state = .resolved then event.receiptDigest else none)
    (if event.state = .staged then event.receiptDigest else none) event.reason
  eventChecks : event.checks = .ok ()
  checks : next.checks = .ok ()

section OneMore

variable {next : ImportCandidate} {event first : CandidateTransitionEvent}
  (h : Transitions candidate next event)

include h

/-- What a candidate had when its chain began, the transition leaves. -/
theorem Transitions.sameEvidence {state : CandidateState}
    (hrank : state.rank ≤ candidate.state.rank) :
    migratedEvidence next state = migratedEvidence candidate state ∧
      candidateMigrationReceipt next state = candidateMigrationReceipt candidate state := by
  have hlt := hrank.trans_lt (CandidateState.rank_lt h.legal)
  rw [h.next_eq]
  unfold migratedEvidence candidateMigrationReceipt ImportCandidate.withTransition
  generalize event.state = target at hlt ⊢
  -- the target is of a higher rank, so it sets nothing that the state stands for
  cases state <;> cases target <;> simp [CandidateState.rank] at hlt ⊢

theorem Transitions.sameRoot (hrank : first.state.rank ≤ candidate.state.rank)
    (hroot : verifyRoot candidate first = .ok ()) : verifyRoot next first = .ok () := by
  obtain ⟨hkind, hzero, hactor, hcreated, hmigrated⟩ := verifyRoot_ok.mp hroot
  obtain ⟨hevidence, hreceipt⟩ := h.sameEvidence hrank
  have hreason : candidateMigrationReason next first = candidateMigrationReason candidate first := by
    unfold candidateMigrationReason
    rw [hevidence, h.next_eq]
    rfl
  have hdraft : next.draft = candidate.draft := by
    rw [h.next_eq]
    rfl
  refine verifyRoot_ok.mpr ⟨hkind, hzero, ?_, ?_, ?_⟩
  · rw [hdraft]
    exact hactor
  · rw [hdraft]
    exact hcreated
  · rw [hreceipt, hreason]
    exact hmigrated

theorem Transitions.replayed (hchecks : candidate.checks = .ok ()) :
    Evidence.replay ⟨candidate.resolutionReceiptDigest, candidate.stageReceiptDigest,
      candidate.terminalReason⟩ event =
      ⟨next.resolutionReceiptDigest, next.stageReceiptDigest, next.terminalReason⟩ := by
  obtain ⟨hpending, hresolved, -⟩ := ImportCandidate.evidenceChecks_ok.mp
    (ImportCandidate.evidence_of_checks hchecks)
  obtain ⟨-, -, hreceipt, hterminal, -⟩ := CandidateTransitionEvent.kindChecks_ok.mp
    (CandidateTransitionEvent.checks_ok h.eventChecks).1
  have hreceipt := hreceipt h.kind
  have hterminal := hterminal h.kind
  have hlegal := h.legal
  rw [h.next_eq]
  unfold Evidence.replay ImportCandidate.withTransition
  cases htarget : event.state with
  | pending =>
      rw [htarget] at hlegal
      exact absurd (CandidateState.rank_lt hlegal) (Nat.not_lt_zero _)
  | resolved =>
      obtain ⟨receipt, hsome⟩ := Option.ne_none_iff_exists'.mp (hreceipt (Or.inl htarget)).1
      have hnone := (hreceipt (Or.inl htarget)).2
      have hfrom : candidate.state = .pending := by
        rw [htarget] at hlegal
        revert hlegal
        cases candidate.state <;> decide
      simp [hsome, hnone, (hpending hfrom).2.2]
  | staged =>
      obtain ⟨receipt, hsome⟩ := Option.ne_none_iff_exists'.mp (hreceipt (Or.inr htarget)).1
      have hnone := (hreceipt (Or.inr htarget)).2
      have hfrom : candidate.state = .resolved := by
        rw [htarget] at hlegal
        revert hlegal
        cases candidate.state <;> decide
      simp [hsome, hnone, (hresolved hfrom).2.2]
  | rejected => simp
  | invalidated => simp

/-- **A transition is verified with the chain that it extends.** -/
theorem Transitions.verified {events : List CandidateTransitionEvent}
    (hchecks : candidate.checks = .ok ()) (hverified : verifyEventChain s candidate = .ok events)
    (hevents : s'.eventsOf next.candidateId = s.eventsOf candidate.candidateId ++ [event.row]) :
    verifyEventChain s' next = .ok (events ++ [event]) := by
  obtain ⟨first, rest, rfl, hread, hroot, hchain, hend⟩ := verifyEventChain_ok.mp hverified
  obtain ⟨⟨hsequence, hstate, hdigest, htime⟩, hevidence, hcreated⟩ := verifyEnd_ok.mp hend
  have hkinds : ∀ other ∈ rest, other.kindChecks = .ok () := by
    intro other hother
    obtain ⟨row, -, hrow⟩ := mapM_mem hread (List.mem_cons_of_mem _ hother)
    exact (CandidateTransitionEvent.checks_ok (eventFromRow_ok hrow).1).1
  have hrank : first.state.rank ≤ candidate.state.rank := hstate ▸ rank_le_last hchain hkinds
  have hlast : (rest ++ [event]).getLastD first = event := by
    rw [List.getLastD_concat]
  refine verifyEventChain_ok.mpr ⟨first, rest ++ [event], rfl, ?_, h.sameRoot hrank hroot, ?_, ?_⟩
  · rw [hevents]
    have hone : List.Forall₂ (fun row event => eventFromRow row = .ok event) [event.row] [event] :=
      .cons (eventFromRow_row h.eventChecks) .nil
    exact mapM_ok.mpr (List.rel_append (mapM_ok.mp hread) hone)
  · rw [← List.cons_append]
    refine List.isChain_append.mpr ⟨hchain, List.isChain_singleton _, ?_⟩
    intro previous hprevious later hlater
    rw [List.getLast?_cons, Option.mem_some_iff, ← List.getLastD_eq_getLast?] at hprevious
    rw [List.head?_cons, Option.mem_some_iff] at hlater
    subst hprevious hlater
    exact ⟨h.kind, by rw [h.sequence, hsequence], by rw [h.previousDigest, hdigest],
      by rw [h.previousState, hstate], by rw [htime]; exact h.time⟩
  · rw [hlast, List.foldl_append]
    refine verifyEnd_ok.mpr ⟨?_, ?_, ?_⟩
    · rw [h.next_eq]
      exact ⟨rfl, rfl, rfl, rfl⟩
    · have hrootEvidence : rootEvidence next first = rootEvidence candidate first := by
        unfold rootEvidence
        rw [(h.sameEvidence hrank).1]
      rw [hrootEvidence, hevidence]
      exact h.replayed hchecks
    · rw [h.next_eq]
      exact hcreated

end OneMore

end Evleda.ImportCandidates
