/-
The store over any calls.

A store is sealed if its keys are keys and every candidate in it is read back with
its chain.  An empty store is; a migrated one is, because the migration verifies
every chain before it commits; and a call leaves a sealed store sealed.  A call
either leaves the store alone, or adds a candidate with its first event, or sets
the lifecycle of one candidate and adds one event to its chain.
-/
import Evleda.ImportCandidates.Lifecycle

namespace Evleda.ImportCandidates

open Outcome

section Stores

variable [UnicodeData] [InspectionPolicy] [Hashing] {s s' : CandidateStore}
  {candidate next : ImportCandidate} {event : CandidateTransitionEvent}

/-! ### Sealed stores -/

/-- The row reads as the candidate, and its chain as these events. -/
def ReadsAs (s : CandidateStore) (row : CandidateRow) (candidate : ImportCandidate)
    (events : List CandidateTransitionEvent) : Prop :=
  candidateFromRow row = .ok candidate ∧ verifyEventChain s candidate = .ok events

structure Sealed (s : CandidateStore) : Prop where
  ids : (s.candidates.map (·.candidateId)).Nodup
  keys : (s.events.map fun event => (event.candidateId, event.sequence)).Nodup
  owned : ∀ event ∈ s.events, ∃ row ∈ s.candidates, row.candidateId = event.candidateId
  verified : ∀ row ∈ s.candidates, ∃ candidate events, ReadsAs s row candidate events

variable {row : CandidateRow}

section

omit [UnicodeData] [InspectionPolicy] [Hashing]

theorem rowOf_eq (hids : (s.candidates.map (·.candidateId)).Nodup) :
    s.rowOf row.candidateId = some row ↔ row ∈ s.candidates := by
  constructor
  · intro h
    exact List.mem_of_find?_eq_some h
  · intro h
    exact find?_of_nodup hids h rfl

theorem rowOf_eq_none {candidateId : String} :
    s.rowOf candidateId = none ↔ ∀ row ∈ s.candidates, row.candidateId ≠ candidateId := by
  unfold CandidateStore.rowOf
  rw [List.find?_eq_none]
  simp only [beq_iff_eq]

end

omit [InspectionPolicy] in
theorem verifyEventChain_congr
    (h : s'.eventsOf candidate.candidateId = s.eventsOf candidate.candidateId) :
    verifyEventChain s' candidate = verifyEventChain s candidate := by
  unfold verifyEventChain
  rw [h]

/-! ### One event more -/

section

omit [UnicodeData] [InspectionPolicy] [Hashing]

theorem eventsOf_of_ne {row : EventRow} {candidateId : String}
    (hevents : s'.events = s.events ++ [row]) (hne : row.candidateId ≠ candidateId) :
    s'.eventsOf candidateId = s.eventsOf candidateId := by
  unfold CandidateStore.eventsOf
  rw [hevents, List.filter_append, List.filter_cons_of_neg (by simpa using hne), List.filter_nil,
    List.append_nil]

theorem eventsOf_snoc {row : EventRow} (hevents : s'.events = s.events ++ [row])
    (hkeys : (s.events.map fun event => (event.candidateId, event.sequence)).Nodup)
    (hlast : ∀ other ∈ s.eventsOf row.candidateId, other.sequence < row.sequence) :
    s'.eventsOf row.candidateId = s.eventsOf row.candidateId ++ [row] := by
  have hnodup : ((s.events.filter (·.candidateId = row.candidateId)).map (·.sequence)).Nodup := by
    rw [List.nodup_iff_pairwise_ne, List.pairwise_map] at hkeys ⊢
    refine (hkeys.filter _).imp_of_mem ?_
    intro a b ha hb hne hsequence
    have hida : a.candidateId = row.candidateId := of_decide_eq_true (List.mem_filter.mp ha).2
    have hidb : b.candidateId = row.candidateId := of_decide_eq_true (List.mem_filter.mp hb).2
    exact hne (Prod.ext (hida.trans hidb.symm) hsequence)
  unfold CandidateStore.eventsOf at hlast ⊢
  rw [hevents, List.filter_append, List.filter_cons_of_pos (by simp), List.filter_nil]
  exact sortBy_snoc hnodup fun other hother => hlast other (mem_sortBy.mpr hother)

end

omit [InspectionPolicy] in
theorem sequence_le_generation {events : List CandidateTransitionEvent}
    (h : verifyEventChain s candidate = .ok events) :
    ∀ row ∈ s.eventsOf candidate.candidateId, row.sequence ≤ candidate.generation := by
  obtain ⟨first, rest, -, hread, -, hchain, hend⟩ := verifyEventChain_ok.mp h
  obtain ⟨⟨hlast, -⟩, -⟩ := verifyEnd_ok.mp hend
  intro row hrow
  obtain ⟨event, hevent, hreads⟩ := mapM_image hread hrow
  rw [← (eventFromRow_ok hreads).2.2, ← hlast]
  exact sequence_le_last hchain event hevent

/-! ### What a call does -/

/-- The store gets a new candidate, with its first event. -/
structure Adds (s : CandidateStore) (candidate : ImportCandidate)
    (event : CandidateTransitionEvent) (s' : CandidateStore) : Prop where
  creates : Creates candidate event
  candidates : s'.candidates = s.candidates ++ [candidate.row]
  events : s'.events = s.events ++ [event.row]
  /-- No candidate had the identifier. -/
  isNew : ∀ row ∈ s.candidates, row.candidateId ≠ candidate.candidateId
  key : ∀ other ∈ s.events, (other.candidateId, other.sequence) ≠
    (event.row.candidateId, event.row.sequence)

/-- The store has a candidate's lifecycle set, and gets one event. -/
structure Moves (s : CandidateStore) (candidate next : ImportCandidate)
    (event : CandidateTransitionEvent) (s' : CandidateStore) : Prop where
  transitions : Transitions candidate next event
  /-- The row that the candidate was read from. -/
  row : ∃ row ∈ s.candidates, ∃ events, ReadsAs s row candidate events
  candidates : s'.candidates = s.candidates.map fun row =>
    if row.IsCurrent candidate then row.updated next else row
  events : s'.events = s.events ++ [event.row]
  key : ∀ other ∈ s.events, (other.candidateId, other.sequence) ≠
    (event.row.candidateId, event.row.sequence)

omit [UnicodeData] [InspectionPolicy] [Hashing] in
theorem insertEvent_ok {row : EventRow} (h : insertEvent s row = .ok s') :
    s' = { s with events := s.events ++ [row] } ∧
      (∀ other ∈ s.events, (other.candidateId, other.sequence) ≠ (row.candidateId, row.sequence)) ∧
      ∃ candidate ∈ s.candidates, candidate.candidateId = row.candidateId := by
  unfold insertEvent at h
  simp only [bind_ok, exists_unit, require_ok, pure_ok] at h
  obtain ⟨-, hnew, howner, hs⟩ := h
  exact ⟨hs.symm, fun other hother => (hnew other hother).1, howner⟩

omit [InspectionPolicy] in
theorem build_ok {built : CandidateTransitionEvent} (h : event.build = .ok built) :
    built = { event with eventDigest := event.computedDigest } ∧ built.checks = .ok () := by
  obtain ⟨_, hchecks, hbuilt⟩ := bind_ok.mp h
  have heq := pure_ok.mp hbuilt
  subst heq
  exact ⟨rfl, hchecks⟩

theorem create_ok {draft : ImportCandidateDraft} {createdAt : DateTime}
    (h : create s draft createdAt = .ok (candidate, s')) :
    (s' = s ∧ ∃ row ∈ s.candidates, row.candidateId = draft.candidateId ∧
      ∃ events, ReadsAs s row candidate events) ∨ ∃ event, Adds s candidate event s' := by
  unfold create at h
  obtain ⟨event, hbuild, h⟩ := bind_ok.mp h
  obtain ⟨_, hchecks, h⟩ := bind_ok.mp h
  dsimp only at h
  split at h
  · case h_1 row hrow =>
      simp only [bind_ok, exists_unit, require_ok, pure_ok] at h
      obtain ⟨existing, hread, events, hverified, -, heq⟩ := h
      cases heq
      have hid := List.find?_some hrow
      exact Or.inl ⟨rfl, row, List.mem_of_find?_eq_some hrow, beq_iff_eq.mp hid, events, hread,
        hverified⟩
  · case h_2 hrow =>
      simp only [bind_ok, pure_ok] at h
      obtain ⟨s₁, hinsert, s₂, hinsertEvent, heq⟩ := h
      cases heq
      obtain ⟨rfl, hevent⟩ := build_ok hbuild
      unfold insertCandidate at hinsert
      simp only [bind_ok, exists_unit, require_ok, pure_ok]
        at hinsert
      obtain ⟨-, -, rfl⟩ := hinsert
      obtain ⟨rfl, hkey, -⟩ := insertEvent_ok hinsertEvent
      refine Or.inr ⟨_, ⟨rfl, rfl, rfl, rfl, rfl, rfl, rfl, rfl, rfl, rfl, rfl, rfl, hevent, hchecks⟩,
        rfl, rfl, rowOf_eq_none.mp hrow, hkey⟩

theorem transition_ok {request : TransitionRequest} {transitionedAt : DateTime}
    (h : transition s request transitionedAt = .ok (next, s')) :
    ∃ candidate event, Moves s candidate next event s' ∧
      candidate.candidateId = request.candidateId ∧
      candidate.generation = request.expectedGeneration ∧ event.state = request.target := by
  unfold transition at h
  simp only [bind_ok, exists_unit, require_ok, pure_ok] at h
  obtain ⟨-, candidate, hget, events, hverified, hgeneration, hlegal, htime, event, hbuild, hchecks,
    s₁, hupdate, s₂, hinsertEvent, heq⟩ := h
  cases heq
  obtain ⟨rfl, hevent⟩ := build_ok hbuild
  unfold updateCandidate at hupdate
  simp only [bind_ok, exists_unit, require_ok, pure_ok] at hupdate
  obtain ⟨-, -, rfl⟩ := hupdate
  obtain ⟨rfl, hkey, -⟩ := insertEvent_ok hinsertEvent
  unfold getLocked at hget
  split at hget
  · cases hget
  · case h_2 row hrow =>
      have hid := List.find?_some hrow
      rw [beq_iff_eq] at hid
      exact ⟨candidate, _, ⟨⟨rfl, rfl, rfl, rfl, rfl, htime, hlegal, rfl, hevent, hchecks⟩,
        ⟨row, List.mem_of_find?_eq_some hrow, events, hget, hverified⟩, rfl, rfl, hkey⟩,
        (candidateFromRow_ok hget).2.1.trans hid, hgeneration, rfl⟩

theorem Moves.reads (h : Moves s candidate next event s')
    (hread : candidateFromRow row = .ok candidate) : row.IsCurrent candidate ∧
      candidateFromRow (row.updated next) = .ok next := by
  obtain ⟨-, hid, -, hstate, hgeneration, hdigest⟩ := candidateFromRow_ok hread
  refine ⟨⟨hid.symm, hgeneration.symm, hstate.symm, hdigest.symm⟩, ?_⟩
  have hchecks := h.transitions.checks
  rw [h.transitions.next_eq] at hchecks ⊢
  exact candidateFromRow_updated hread hchecks

/-! ### Sealed stores stay sealed -/

namespace Sealed

theorem adds (hs : Sealed s) (h : Adds s candidate event s') : Sealed s' where
  ids := by
    rw [h.candidates]
    exact nodup_map_snoc hs.ids h.isNew
  keys := by
    rw [h.events]
    exact nodup_map_snoc hs.keys h.key
  owned := by
    rw [h.events, h.candidates]
    intro other hother
    rcases List.mem_append.mp hother with hother | hother
    · obtain ⟨row, hrow, hid⟩ := hs.owned other hother
      exact ⟨row, List.mem_append_left _ hrow, hid⟩
    · rw [List.mem_singleton] at hother
      subst hother
      exact ⟨_, List.mem_append_right _ List.mem_cons_self, h.creates.candidateId.symm⟩
  verified := by
    rw [h.candidates]
    intro row hrow
    rcases List.mem_append.mp hrow with hrow | hrow
    · obtain ⟨other, events, hread, hverified⟩ := hs.verified row hrow
      have hne : event.row.candidateId ≠ other.candidateId := by
        intro heq
        refine h.isNew row hrow ?_
        rw [← (candidateFromRow_ok hread).2.1, ← heq]
        exact h.creates.candidateId
      refine ⟨other, events, hread, ?_⟩
      rw [verifyEventChain_congr (eventsOf_of_ne h.events hne)]
      exact hverified
    · rw [List.mem_singleton] at hrow
      subst hrow
      refine ⟨candidate, [event], candidateFromRow_row h.creates.checks, h.creates.verified ?_⟩
      have hnone : s.eventsOf candidate.candidateId = [] := by
        rw [List.eq_nil_iff_forall_not_mem]
        intro other hother
        have hmem := List.mem_filter.mp (mem_sortBy.mp hother)
        obtain ⟨row, hrow, hid⟩ := hs.owned other hmem.1
        exact h.isNew row hrow (hid.trans (of_decide_eq_true hmem.2))
      have hid : event.row.candidateId = candidate.candidateId := h.creates.candidateId
      have hsnoc := eventsOf_snoc h.events hs.keys (by
        rw [hid, hnone]
        exact fun _ hother => absurd hother List.not_mem_nil)
      rw [hid, hnone] at hsnoc
      exact hsnoc

theorem current (hs : Sealed s) (h : Moves s candidate next event s')
    (hrow : row ∈ s.candidates) (hid : row.candidateId = candidate.candidateId) :
    ∃ events, ReadsAs s row candidate events := by
  obtain ⟨read, hread, events, hreads⟩ := h.row
  have hid' := (candidateFromRow_ok hreads.1).2.1
  have heq : row = read := List.inj_on_of_nodup_map hs.ids hrow hread (hid.trans hid')
  exact ⟨events, heq ▸ hreads⟩

theorem moves (hs : Sealed s) (h : Moves s candidate next event s') : Sealed s' where
  ids := by
    have hsame : s'.candidates.map (·.candidateId) = s.candidates.map (·.candidateId) := by
      rw [h.candidates, List.map_map]
      refine List.map_congr_left fun row _ => ?_
      rw [Function.comp_apply]
      split <;> rfl
    rw [hsame]
    exact hs.ids
  keys := by
    rw [h.events]
    exact nodup_map_snoc hs.keys h.key
  owned := by
    rw [h.events, h.candidates]
    have hkept : ∀ row ∈ s.candidates, ∃ row' ∈ s.candidates.map fun row =>
        if row.IsCurrent candidate then row.updated next else row,
        row'.candidateId = row.candidateId := by
      intro row hrow
      refine ⟨_, List.mem_map_of_mem hrow, ?_⟩
      split <;> rfl
    intro other hother
    rcases List.mem_append.mp hother with hother | hother
    · obtain ⟨row, hrow, hid⟩ := hs.owned other hother
      obtain ⟨row', hrow', hid'⟩ := hkept row hrow
      exact ⟨row', hrow', hid'.trans hid⟩
    · rw [List.mem_singleton] at hother
      subst hother
      obtain ⟨row, hrow, events, hread, -⟩ := h.row
      obtain ⟨row', hrow', hid'⟩ := hkept row hrow
      exact ⟨row', hrow', hid'.trans ((candidateFromRow_ok hread).2.1.symm.trans
        h.transitions.candidateId.symm)⟩
  verified := by
    rw [h.candidates]
    intro row' hrow'
    obtain ⟨row, hrow, rfl⟩ := List.mem_map.mp hrow'
    have hid : event.row.candidateId = candidate.candidateId := h.transitions.candidateId
    by_cases hcandidate : row.candidateId = candidate.candidateId
    · obtain ⟨events, hread, hverified⟩ := hs.current h hrow hcandidate
      obtain ⟨hcurrent, hreads⟩ := h.reads hread
      have hnext := h.transitions.next_eq
      refine ⟨next, events ++ [event], ?_, ?_⟩
      · rw [if_pos hcurrent]
        exact hreads
      · refine h.transitions.verified (candidateFromRow_ok hread).1 hverified ?_
        have hgreatest := sequence_le_generation hverified
        rw [hnext]
        have hsnoc := eventsOf_snoc h.events hs.keys (by
          rw [hid]
          intro other hother
          have hle := hgreatest other hother
          have hsequence : event.row.sequence = candidate.generation + 1 := h.transitions.sequence
          omega)
        rw [hid] at hsnoc
        exact hsnoc
    · obtain ⟨other, events, hread, hverified⟩ := hs.verified row hrow
      refine ⟨other, events, ?_, ?_⟩
      · rw [if_neg fun hcurrent => hcandidate hcurrent.1]
        exact hread
      · rw [verifyEventChain_congr (eventsOf_of_ne h.events ?_)]
        · exact hverified
        · rw [hid, (candidateFromRow_ok hread).2.1]
          exact Ne.symm hcandidate

end Sealed

/-! ### Calls, one after the other -/

inductive Call
  | create (draft : ImportCandidateDraft)
  | resolve (candidateId : String) (expectedGeneration : Int)
      (actorId resolutionReceiptDigest : String)
  | markStaged (candidateId : String) (expectedGeneration : Int)
      (actorId stageReceiptDigest : String)
  | reject (candidateId : String) (expectedGeneration : Int) (actorId reason : String)
  | invalidate (candidateId : String) (expectedGeneration : Int) (actorId reason : String)

def Call.request : Call → Option TransitionRequest
  | .create _ => none
  | .resolve id generation actor receipt => some (ImportCandidates.resolve id generation actor receipt)
  | .markStaged id generation actor receipt =>
      some (ImportCandidates.markStaged id generation actor receipt)
  | .reject id generation actor reason => some (ImportCandidates.reject id generation actor reason)
  | .invalidate id generation actor reason =>
      some (ImportCandidates.invalidate id generation actor reason)

/-- What a call returns, at a moment, and the store after it. -/
def Call.run (s : CandidateStore) (call : Call) (now : DateTime) :
    Except CandidateFailure (ImportCandidate × CandidateStore) :=
  match call with
  | .create draft => ImportCandidates.create s draft now
  | .resolve id generation actor receipt =>
      transition s (ImportCandidates.resolve id generation actor receipt) now
  | .markStaged id generation actor receipt =>
      transition s (ImportCandidates.markStaged id generation actor receipt) now
  | .reject id generation actor reason =>
      transition s (ImportCandidates.reject id generation actor reason) now
  | .invalidate id generation actor reason =>
      transition s (ImportCandidates.invalidate id generation actor reason) now

/-- The store after a call; one that raises is rolled back. -/
def perform (s : CandidateStore) (call : Call × DateTime) : CandidateStore :=
  match call.1.run s call.2 with
  | .ok (_, s') => s'
  | .error _ => s

variable {now : DateTime}

variable {call : Call}

theorem Call.run_ok (h : call.run s now = .ok (candidate, s')) :
    (s' = s ∧ ∃ row ∈ s.candidates, ∃ events, ReadsAs s row candidate events) ∨
      (∃ event, Adds s candidate event s') ∨ ∃ old event, Moves s old candidate event s' := by
  cases call with
  | create draft =>
      obtain ⟨hs, row, hrow, -, events, hreads⟩ | ⟨event, hadds⟩ := create_ok h
      · exact Or.inl ⟨hs, row, hrow, events, hreads⟩
      · exact Or.inr (Or.inl ⟨event, hadds⟩)
  | resolve id generation actor receipt =>
      obtain ⟨old, event, hmoves, -⟩ := transition_ok h
      exact Or.inr (Or.inr ⟨old, event, hmoves⟩)
  | markStaged id generation actor receipt =>
      obtain ⟨old, event, hmoves, -⟩ := transition_ok h
      exact Or.inr (Or.inr ⟨old, event, hmoves⟩)
  | reject id generation actor reason =>
      obtain ⟨old, event, hmoves, -⟩ := transition_ok h
      exact Or.inr (Or.inr ⟨old, event, hmoves⟩)
  | invalidate id generation actor reason =>
      obtain ⟨old, event, hmoves, -⟩ := transition_ok h
      exact Or.inr (Or.inr ⟨old, event, hmoves⟩)

theorem Call.request_run {request : TransitionRequest}
    (hrequest : call.request = some request) :
    call.run s now = transition s request now := by
  cases call with
  | create draft => cases hrequest
  | resolve id generation actor receipt => cases hrequest; rfl
  | markStaged id generation actor receipt => cases hrequest; rfl
  | reject id generation actor reason => cases hrequest; rfl
  | invalidate id generation actor reason => cases hrequest; rfl

theorem Sealed.run (hs : Sealed s)
    (h : call.run s now = .ok (candidate, s')) : Sealed s' := by
  obtain ⟨rfl, -⟩ | ⟨event, hadds⟩ | ⟨old, event, hmoves⟩ := Call.run_ok h
  · exact hs
  · exact hs.adds hadds
  · exact hs.moves hmoves

theorem Sealed.perform (hs : Sealed s) (call : Call × DateTime) : Sealed (perform s call) := by
  unfold ImportCandidates.perform
  split
  · case h_1 candidate s' h => exact hs.run h
  · exact hs

theorem Sealed.replay (hs : Sealed s) (calls : List (Call × DateTime)) :
    Sealed (replay ImportCandidates.perform s calls) :=
  Replay.invariant hs (fun _ call h => h.perform call) calls

/-! ### What stays -/

/-- The state of the row allows no transition. -/
def CandidateRow.IsTerminal (row : CandidateRow) : Prop :=
  ∃ state : CandidateState, state.value = row.state ∧ state.legalTransitions = []

/-- Candidates stay, their generations never fall, and what is terminal is left as it is; events
stay where they are. -/
structure Grows (s s' : CandidateStore) : Prop where
  candidates : ∀ row ∈ s.candidates, ∃ row' ∈ s'.candidates,
    row'.candidateId = row.candidateId ∧ row.generation ≤ row'.generation ∧
      (row.IsTerminal → row' = row)
  events : s.events <+: s'.events

section

omit [UnicodeData] [InspectionPolicy] [Hashing]

theorem Grows.refl (s : CandidateStore) : Grows s s :=
  ⟨fun row hrow => ⟨row, hrow, rfl, le_refl _, fun _ => rfl⟩, List.prefix_refl _⟩

theorem Grows.trans {s'' : CandidateStore} (h : Grows s s') (h' : Grows s' s'') : Grows s s'' where
  candidates := by
    intro row hrow
    obtain ⟨row', hrow', hid, hle, hterminal⟩ := h.candidates row hrow
    obtain ⟨row'', hrow'', hid', hle', hterminal'⟩ := h'.candidates row' hrow'
    refine ⟨row'', hrow'', hid'.trans hid, hle.trans hle', ?_⟩
    intro hend
    have hsame := hterminal hend
    subst hsame
    exact hterminal' hend
  events := h.events.trans h'.events

theorem CandidateState.value_injective : Function.Injective CandidateState.value := by
  intro state state' h
  have hread := CandidateState.ofValue_value state
  rw [h, CandidateState.ofValue_value, Option.some.injEq] at hread
  exact hread.symm

end

theorem Moves.grows (h : Moves s candidate next event s') : Grows s s' where
  candidates := by
    intro row hrow
    rw [h.candidates]
    refine ⟨_, List.mem_map_of_mem hrow, ?_⟩
    by_cases hcurrent : row.IsCurrent candidate
    · rw [if_pos hcurrent]
      obtain ⟨-, hgeneration, hstate, -⟩ := hcurrent
      refine ⟨rfl, ?_, ?_⟩
      · have hnext : next.generation = candidate.generation + 1 := by
          rw [h.transitions.next_eq]
          exact h.transitions.sequence
        show row.generation ≤ next.generation
        omega
      · rintro ⟨state, hvalue, hnone⟩
        have hsame := CandidateState.value_injective (hvalue.trans hstate)
        have hlegal := h.transitions.legal
        rw [← hsame, hnone] at hlegal
        exact absurd hlegal List.not_mem_nil
    · rw [if_neg hcurrent]
      exact ⟨rfl, le_refl _, fun _ => rfl⟩
  events := by
    rw [h.events]
    exact List.prefix_append _ _

theorem Adds.grows (h : Adds s candidate event s') : Grows s s' where
  candidates := by
    intro row hrow
    rw [h.candidates]
    exact ⟨row, List.mem_append_left _ hrow, rfl, le_refl _, fun _ => rfl⟩
  events := by
    rw [h.events]
    exact List.prefix_append _ _

theorem Call.run_grows (h : call.run s now = .ok (candidate, s')) :
    Grows s s' := by
  obtain ⟨rfl, -⟩ | ⟨event, hadds⟩ | ⟨old, event, hmoves⟩ := Call.run_ok h
  · exact Grows.refl _
  · exact hadds.grows
  · exact hmoves.grows

theorem replay_grows (s : CandidateStore) (calls : List (Call × DateTime)) :
    Grows s (replay perform s calls) := by
  refine Replay.invariant (Grows.refl s) (fun s' call h => h.trans ?_) calls
  unfold perform
  split
  · case h_1 candidate s'' hrun => exact Call.run_grows hrun
  · exact Grows.refl _

/-! ### Where a store comes from -/

theorem migratedRow_candidateId {legacy : LegacyRow}
    (h : migratedRow legacy = .ok row) : row.candidateId = legacy.row.candidateId := by
  unfold migratedRow at h
  simp only [bind_ok, pure_ok] at h
  obtain ⟨revision, -, scheme, -, rfl⟩ := h
  rfl

/-- **A store of the second schema is sealed by its migration.** -/
theorem migrateV2_sealed {legacy : LegacyStore} (h : migrateV2 legacy = .ok s) : Sealed s := by
  unfold migrateV2 at h
  simp only [bind_ok, exists_unit, require_ok, pure_ok] at h
  obtain ⟨candidates, hrows, -, hverified, howned, rfl⟩ := h
  have hids : candidates.map (·.candidateId) = legacy.candidates.map (·.row.candidateId) := by
    rw [← List.forall₂_eq_eq_eq, List.forall₂_map_left_iff, List.forall₂_map_right_iff]
    exact (mapM_ok.mp hrows).flip.imp fun _ _ hrow => migratedRow_candidateId hrow
  refine ⟨hids ▸ legacy.candidateIds, legacy.eventKeys, howned, ?_⟩
  intro row hrow
  have hread := forM_ok.mp hverified row hrow
  simp only [bind_ok] at hread
  obtain ⟨candidate, hcandidate, events, hevents, -⟩ := hread
  exact ⟨candidate, events, hcandidate, hevents⟩

theorem migrateV1_sealed {rows : List LegacyRow} (h : migrateV1 rows = .ok s) : Sealed s := by
  unfold migrateV1 at h
  simp only [bind_ok, exists_unit, require_ok] at h
  obtain ⟨sealedRows, -, -, h⟩ := h
  split at h
  · exact migrateV2_sealed h
  · cases h

/-- How a store of the third schema came to be. -/
inductive Opened : CandidateStore → Prop
  | new : Opened {}
  | migratedV2 {legacy : LegacyStore} {s : CandidateStore} (h : migrateV2 legacy = .ok s) : Opened s
  | migratedV1 {rows : List LegacyRow} {s : CandidateStore} (h : migrateV1 rows = .ok s) : Opened s

theorem Opened.sealed (h : Opened s) : Sealed s := by
  cases h with
  | new => exact ⟨List.nodup_nil, List.nodup_nil, fun _ h => absurd h List.not_mem_nil,
      fun _ h => absurd h List.not_mem_nil⟩
  | migratedV2 h => exact migrateV2_sealed h
  | migratedV1 h => exact migrateV1_sealed h

/-! ### The lifecycle of a candidate -/

/-- The candidate is what the store gives back, and what its events lead to. -/
structure Recorded (s : CandidateStore) (candidate : ImportCandidate)
    (first : CandidateTransitionEvent) (rest : List CandidateTransitionEvent) : Prop where
  got : get s candidate.candidateId = .ok candidate
  verified : verifyEventChain s candidate = .ok (first :: rest)
  /-- These are all the events of the candidate. -/
  read : (s.eventsOf candidate.candidateId).mapM eventFromRow = .ok (first :: rest)
  zeroBound : first.previousEventDigest = CandidateTransitionEvent.zeroDigest
  /-- The chain begins with the creation, or with a snapshot of what was migrated. -/
  root : (first.kind = .created ∧ first.sequence = 0 ∧ first.state = .pending) ∨
    (first.kind = .migrated ∧ first.reason = some (candidateMigrationReason candidate first))
  contiguous : (first :: rest).IsChain fun previous event => event.sequence = previous.sequence + 1
  linked : (first :: rest).IsChain fun previous event =>
    event.previousEventDigest = previous.eventDigest
  digests : ∀ event ∈ first :: rest, event.eventDigest = event.computedDigest
  legal : (first :: rest).IsChain fun previous event =>
    event.previousState = some previous.state ∧ event.state ∈ previous.state.legalTransitions
  state : candidate.state = (rest.getLastD first).state
  generation : candidate.generation = (rest.getLastD first).sequence
  lastDigest : candidate.lastEventDigest = (rest.getLastD first).eventDigest
  evidence : ⟨candidate.resolutionReceiptDigest, candidate.stageReceiptDigest,
    candidate.terminalReason⟩ = rest.foldl Evidence.replay (rootEvidence candidate first)

theorem get_ok (hs : Sealed s) (hrow : row ∈ s.candidates)
    {events : List CandidateTransitionEvent} (h : ReadsAs s row candidate events) :
    get s candidate.candidateId = .ok candidate := by
  obtain ⟨hchecks, hid, -⟩ := candidateFromRow_ok h.1
  have hlocked : getLocked s candidate.candidateId = .ok candidate := by
    unfold getLocked
    rw [hid, (rowOf_eq hs.ids).mpr hrow]
    exact h.1
  exact bind_ok.mpr ⟨(), (ImportCandidate.checks_ok.mp hchecks).1,
    bind_ok.mpr ⟨candidate, hlocked, bind_ok.mpr ⟨events, h.2, rfl⟩⟩⟩

theorem Sealed.recorded (hs : Sealed s) (hrow : row ∈ s.candidates)
    {events : List CandidateTransitionEvent} (h : ReadsAs s row candidate events) :
    ∃ first rest, events = first :: rest ∧ Recorded s candidate first rest := by
  obtain ⟨first, rest, rfl, hread, hroot, hchain, hend⟩ := verifyEventChain_ok.mp h.2
  obtain ⟨hkind, hzero, -, -, hmigrated⟩ := verifyRoot_ok.mp hroot
  obtain ⟨⟨hsequence, hstate, hdigest, -⟩, hevidence, -⟩ := verifyEnd_ok.mp hend
  have hchecks : ∀ event ∈ first :: rest, event.kindChecks = .ok () ∧
      event.eventDigest = event.computedDigest := by
    intro event hevent
    obtain ⟨eventRow, -, hreads⟩ := mapM_mem hread hevent
    exact CandidateTransitionEvent.checks_ok (eventFromRow_ok hreads).1
  have hlegal : (first :: rest).IsChain fun previous event =>
      event.previousState = some previous.state ∧
        event.state ∈ previous.state.legalTransitions := by
    refine hchain.imp_of_mem_imp ?_
    intro previous event _ hevent hfollows
    exact ⟨hfollows.state, hfollows.legal (hchecks event hevent).1⟩
  refine ⟨first, rest, rfl, get_ok hs hrow h, h.2, hread, hzero, ?_, hchain.imp fun _ _ h => h.sequence,
    hchain.imp fun _ _ h => h.digest, fun event hevent => (hchecks event hevent).2, hlegal,
    hstate.symm, hsequence.symm, hdigest.symm, hevidence.symm⟩
  obtain hcreated | hkind := hkind
  · obtain ⟨hfirst, -⟩ := CandidateTransitionEvent.kindChecks_ok.mp
      (hchecks first List.mem_cons_self).1
    obtain ⟨hzeroth, -, hpending, -⟩ := hfirst hcreated
    exact Or.inl ⟨hcreated, hzeroth, hpending⟩
  · refine Or.inr ⟨hkind, (hmigrated ?_).2⟩
    rw [hkind]
    decide

theorem Sealed.returned (hs : Sealed s)
    (h : call.run s now = .ok (candidate, s')) : get s' candidate.candidateId = .ok candidate := by
  have hs' := hs.run h
  have hrow : ∃ row ∈ s'.candidates, candidateFromRow row = .ok candidate := by
    obtain ⟨rfl, row, hrow, events, hread, -⟩ | ⟨event, hadds⟩ | ⟨old, event, hmoves⟩ :=
      Call.run_ok h
    · exact ⟨row, hrow, hread⟩
    · refine ⟨candidate.row, ?_, candidateFromRow_row hadds.creates.checks⟩
      rw [hadds.candidates]
      exact List.mem_append_right _ List.mem_cons_self
    · obtain ⟨row, hrow, events, hread, -⟩ := hmoves.row
      obtain ⟨hcurrent, hreads⟩ := hmoves.reads hread
      refine ⟨row.updated candidate, ?_, hreads⟩
      rw [hmoves.candidates]
      refine List.mem_map.mpr ⟨row, hrow, ?_⟩
      rw [if_pos hcurrent]
  obtain ⟨row, hrow, hread⟩ := hrow
  obtain ⟨candidate', events, hread', hverified⟩ := hs'.verified row hrow
  rw [hread, Except.ok.injEq] at hread'
  subst hread'
  exact get_ok hs' hrow ⟨hread, hverified⟩

theorem accepted_generation {request : TransitionRequest}
    (hrequest : call.request = some request) (h : call.run s now = .ok (next, s')) :
    (∃ row ∈ s.candidates, row.candidateId = request.candidateId ∧
      row.generation = request.expectedGeneration) ∧
    ∃ row ∈ s'.candidates, row.candidateId = request.candidateId ∧
      row.generation = request.expectedGeneration + 1 := by
  rw [Call.request_run hrequest] at h
  obtain ⟨candidate, event, hmoves, hid, hgeneration, -⟩ := transition_ok h
  obtain ⟨row, hrow, events, hread, -⟩ := hmoves.row
  obtain ⟨-, hrowId, -, -, hrowGeneration, -⟩ := candidateFromRow_ok hread
  refine ⟨⟨row, hrow, hrowId.symm.trans hid, hrowGeneration.symm.trans hgeneration⟩,
    row.updated next, ?_, hrowId.symm.trans hid, ?_⟩
  · rw [hmoves.candidates]
    refine List.mem_map.mpr ⟨row, hrow, ?_⟩
    rw [if_pos (hmoves.reads hread).1]
  · show next.generation = _
    rw [hmoves.transitions.next_eq, ← hgeneration]
    exact hmoves.transitions.sequence

/-- **Whatever is called, every stored candidate is given back with a chain of events that it is the
replay of.**  What a call returned is given back too; candidates and events stay, and a terminal
state is never left; and of two transitions at one generation one is refused. -/
theorem lifecycle_replays (hopened : Opened s) (calls : List (Call × DateTime)) :
    (∀ row ∈ (replay perform s calls).candidates, ∃ candidate first rest,
      candidateFromRow row = .ok candidate ∧
        Recorded (replay perform s calls) candidate first rest) ∧
    (∀ later, Grows (replay perform s calls) (replay perform s (calls ++ later))) ∧
    (∀ (call : Call) now candidate s', call.run (replay perform s calls) now = .ok (candidate, s') →
      get s' candidate.candidateId = .ok candidate ∧
      ∀ request ∈ call.request, ∀ (middle : List (Call × DateTime)) (other : Call) now' next s'',
        other.run (replay perform s' middle) now' = .ok (next, s'') →
        ∀ request' ∈ other.request, request'.candidateId = request.candidateId →
          request'.expectedGeneration ≠ request.expectedGeneration) := by
  have hsealed := hopened.sealed.replay calls
  refine ⟨?_, ?_, ?_⟩
  · intro row hrow
    obtain ⟨candidate, events, hreads⟩ := hsealed.verified row hrow
    obtain ⟨first, rest, -, hrecorded⟩ := hsealed.recorded hrow hreads
    exact ⟨candidate, first, rest, hreads.1, hrecorded⟩
  · intro later
    rw [Replay.append]
    exact replay_grows _ later
  · intro call now candidate s' hrun
    refine ⟨hsealed.returned hrun, ?_⟩
    intro request hrequest middle other now' next s'' hother request' hrequest' hid hgeneration
    obtain ⟨-, row, hrow, hrowId, hrowGeneration⟩ := accepted_generation hrequest hrun
    obtain ⟨⟨row', hrow', hrowId', hrowGeneration'⟩, -⟩ := accepted_generation hrequest' hother
    -- the row that the first transition left has only moved on when the other one is made
    obtain ⟨kept, hkept, hkeptId, hle, -⟩ := (replay_grows s' middle).candidates row hrow
    have hsame : kept = row' := List.inj_on_of_nodup_map ((hsealed.run hrun).replay middle).ids hkept
      hrow' (hkeptId.trans (hrowId.trans (hid.symm.trans hrowId'.symm)))
    rw [hsame] at hle
    omega

end Stores

/-! ### A candidate that is created and resolved -/

section Sample

@[reducible] def anyPayload : InspectionPolicy := ⟨fun _ => none⟩

/-- The length of a text, in sixty-four digits. -/
@[reducible] def lengthHashing : Hashing :=
  ⟨fun text => String.ofList (Text.hexDigits 64 text.length)⟩

@[reducible] def asciiData : UnicodeData where
  isControl c := c.toNat < 32 || c.toNat == 127
  isPrintable c := 32 ≤ c.toNat && c.toNat < 127
  nfc := id

attribute [local instance] asciiData anyPayload lengthHashing

def sampleDigest (c : Char) : String := String.ofList (List.replicate 64 c)

def sampleDraft : ImportCandidateDraft where
  artifactId := "artifact_" ++ String.ofList (List.replicate 32 'a')
  artifactSha256 := sampleDigest 'b'
  artifactKind := .kicadPcb
  projectId := "p1"
  expectedProjectRevision := sampleDigest 'c'
  runId := "r1"
  expectedRunRevision := 0
  inspectionPayloadJson := "\x7b\"layers\":2\x7d"
  inspectionReceiptDigest := sampleDigest 'd'
  diagnostics := []
  blockers := []
  createdBy := "u1"

def sampleCalls : List (Call × DateTime) := [
  (.create sampleDraft, ⟨0, Text.zero_inRange⟩),
  (.resolve sampleDraft.candidateId 0 "u1" (sampleDigest 'e'), ⟨1, Text.one_inRange⟩),
  (.reject sampleDraft.candidateId 0 "u2" "too late", ⟨2, by decide⟩)]

theorem lifecycle_replays_sample :
    (∀ row ∈ (replay perform {} sampleCalls).candidates, ∃ candidate first rest,
      candidateFromRow row = .ok candidate ∧
        Recorded (replay perform {} sampleCalls) candidate first rest) ∧
    (∀ later, Grows (replay perform {} sampleCalls) (replay perform {} (sampleCalls ++ later))) :=
  ⟨(lifecycle_replays .new sampleCalls).1, (lifecycle_replays .new sampleCalls).2.1⟩

end Sample

end Evleda.ImportCandidates
