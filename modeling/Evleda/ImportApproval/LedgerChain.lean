/-
The chain of the approval ledger, kept in any interleaving.

`Chained` says what the database always is: events numbered from one on, each
naming the digest of the one before it, in the order of their times, sealed, with
a sealed row that names the last.  `Intact` adds what is said of the anchor, which
names a prefix of the chain, and of the record of commits.  Each call is looked at
alone: it relies on the others to keep the ledger intact, to let chain and anchor
only grow, and to leave the database alone while it has a transaction that writes.
-/
import Evleda.ImportApproval.Ledger

namespace Evleda.ImportApproval

open Effect Outcome

/-! ### Chains of events -/

namespace LedgerDatabase

def heads (db : LedgerDatabase) : List String := Evleda.heads (·.eventDigest) zeroDigest db.events

def head (db : LedgerDatabase) : String := headOf (·.eventDigest) zeroDigest db.events

/-- The anchor names an exact prefix of the chain. -/
def Names (db : LedgerDatabase) (anchor : ApprovalLedgerAnchor) : Prop :=
  db.heads[anchor.sequence]? = some anchor.digest

end LedgerDatabase

section Chained

variable [Hashing] (sealWith : Seal)

/-- The event is what its constructor and the check of its seal accept. -/
structure Sealed (event : ApprovalLedgerEvent) : Prop where
  generation : 0 ≤ event.generation
  canonical : (Json.canonicalLoads event.recordJson).isSome = true
  digest : event.eventDigest = eventDigest event
  isSealed : event.eventSeal = eventSeal sealWith event.sequence event.eventDigest

/-- The database holds the chain of these events. -/
structure Chained (db : LedgerDatabase) (events : List ApprovalLedgerEvent) : Prop where
  rows : db.events = events.map ApprovalLedgerEvent.row
  /-- They are numbered `1, …, n`. -/
  sequences : db.events.map (·.sequence) = List.range' 1 db.events.length
  /-- Each names the one before it. -/
  linked : Linked (·.previousEventDigest) (·.eventDigest) zeroDigest db.events
  times : events.Pairwise fun earlier later => earlier.occurredAt ≤ later.occurredAt
  isSealed : ∀ event ∈ events, Sealed sealWith event
  /-- The sealed row names the last. -/
  state : db.state = stateRow sealWith db.events.length db.head
    (events.getLast?.map fun event => timeText event.occurredAt)

variable {sealWith} {db : LedgerDatabase} {events : List ApprovalLedgerEvent}

omit [Hashing] in
theorem last_time :
    (events.getLast?.map (·.occurredAt)).map timeText =
      events.getLast?.map fun event => timeText event.occurredAt := by
  rw [Option.map_map]
  rfl

theorem initial_chained : Chained sealWith (initialDatabase sealWith) [] :=
  ⟨rfl, rfl, Linked.nil, List.Pairwise.nil, fun _ h => absurd h List.not_mem_nil, rfl⟩

/-- The loop of `load` accepts a chain, and returns its events and its end. -/
theorem verifyChain_ok {sequence : Nat} {previous : String} {lastAt : Option DateTime}
    (hsequence : 0 < sequence)
    (hsequences : events.map (·.sequence) = List.range' sequence events.length)
    (hlinked : Linked (·.previousEventDigest) (·.eventDigest) previous events)
    (hlast : ∀ at' ∈ lastAt, ∀ event ∈ events, at' ≤ event.occurredAt)
    (htimes : events.Pairwise fun earlier later => earlier.occurredAt ≤ later.occurredAt)
    (hsealed : ∀ event ∈ events, Sealed sealWith event) :
    verifyChain sealWith sequence previous lastAt (events.map ApprovalLedgerEvent.row) =
      .ok (events, headOf (·.eventDigest) previous events,
        (events.getLast?.map (·.occurredAt)).or lastAt) := by
  induction events generalizing sequence previous lastAt with
  | nil => rfl
  | cons event events ih =>
      rw [List.map_cons, List.length_cons, List.range'_succ, List.cons.injEq] at hsequences
      obtain ⟨hname, hlinked⟩ := Linked.cons_iff.mp hlinked
      obtain ⟨hfirst, htimes⟩ := List.pairwise_cons.mp htimes
      have hevent := hsealed event List.mem_cons_self
      have hpositive : 0 < event.sequence := by
        rw [hsequences.1]
        exact hsequence
      have hnotBefore : ∀ at' ∈ lastAt, ¬ event.occurredAt < at' := fun at' hat =>
        Int.not_lt.mpr (hlast at' hat event List.mem_cons_self)
      have hafter : ∀ at' ∈ some event.occurredAt, ∀ later ∈ events, at' ≤ later.occurredAt := by
        intro at' hat later hlater
        rw [Option.mem_some_iff] at hat
        subst hat
        exact hfirst later hlater
      have hrest := ih (Nat.succ_pos sequence) hsequences.2 hlinked hafter htimes
        (fun later hlater => hsealed later (List.mem_cons_of_mem _ hlater))
      rw [List.map_cons, verifyChain]
      refine bind_ok.mpr ⟨event, eventFromRow_row hpositive hevent.generation, ?_⟩
      refine bind_ok.mpr ⟨(), require_ok.mpr hsequences.1, ?_⟩
      refine bind_ok.mpr ⟨(), require_ok.mpr hname, ?_⟩
      refine bind_ok.mpr ⟨(), require_ok.mpr hnotBefore, ?_⟩
      refine bind_ok.mpr ⟨(), (verifyEvent_ok sealWith).mpr
        ⟨hevent.canonical, hevent.digest, hevent.isSealed⟩, ?_⟩
      refine bind_ok.mpr ⟨_, hrest, ?_⟩
      -- the time of the last event is that of this one, if it is the last
      have hat : (events.getLast?.map (·.occurredAt)).or (some event.occurredAt) =
          ((event :: events).getLast?.map (·.occurredAt)).or lastAt := by
        rw [List.getLast?_cons]
        cases events.getLast? with
        | none => rfl
        | some last => rfl
      rw [Linked.headOf_cons, ← hat]
      rfl

namespace Chained

theorem head_eq (h : Chained sealWith db events) :
    headOf (·.eventDigest) zeroDigest events = db.head := by
  unfold LedgerDatabase.head headOf
  rw [h.rows, List.map_map]
  rfl

theorem heads_eq (h : Chained sealWith db events) :
    heads (·.eventDigest) zeroDigest events = db.heads := by
  unfold LedgerDatabase.heads heads
  rw [h.rows, List.map_map]
  rfl

theorem length_eq (h : Chained sealWith db events) : events.length = db.events.length := by
  rw [h.rows, List.length_map]

theorem verifies (h : Chained sealWith db events) :
    verifyChain sealWith 1 zeroDigest none (sortBy (·.sequence) db.events) =
      .ok (events, db.head, events.getLast?.map (·.occurredAt)) := by
  have hsorted : SortedBy (·.sequence) db.events := by
    have hrange : (db.events.map (·.sequence)).Pairwise (· ≤ ·) := by
      rw [h.sequences]
      exact (List.pairwise_lt_range' 1 Nat.one_pos).imp Nat.le_of_lt
    exact List.pairwise_map.mp hrange
  have hsequences : events.map (·.sequence) = List.range' 1 events.length := by
    have hrows := h.sequences
    rw [← h.length_eq, h.rows, List.map_map] at hrows
    exact hrows
  have hlinked : Linked (·.previousEventDigest) (·.eventDigest) zeroDigest events := by
    have hrows := h.linked
    unfold Linked at hrows ⊢
    have hheads : heads (·.eventDigest) zeroDigest db.events = db.heads := rfl
    rw [hheads, ← h.heads_eq, h.rows, List.map_map] at hrows
    exact hrows
  rw [sortBy_eq_self hsorted, h.rows, ← h.head_eq]
  have hnone : ∀ at' ∈ (none : Option DateTime), ∀ event ∈ events, at' ≤ event.occurredAt :=
    fun at' hat => absurd hat (Option.not_mem_none at')
  have hverified := verifyChain_ok Nat.one_pos hsequences hlinked hnone h.times h.isSealed
  rw [Option.or_none] at hverified
  exact hverified

theorem verifiesState (h : Chained sealWith db events) :
    verifyState sealWith db.state db.events.length db.head
      (events.getLast?.map (·.occurredAt)) = .ok () := by
  refine (verifyState_ok sealWith).mpr ?_
  rw [last_time]
  exact h.state

theorem lastAt_eq (h : Chained sealWith db events) :
    decodeOptionalTime db.state.lastOccurredAt = .ok (events.getLast?.map (·.occurredAt)) := by
  rw [h.state, stateRow, ← last_time]
  exact decodeOptionalTime_timeText _

theorem le_last (h : Chained sealWith db events) {last event : ApprovalLedgerEvent}
    (hlast : events.getLast? = some last) (hevent : event ∈ events) :
    event.occurredAt ≤ last.occurredAt := by
  obtain ⟨rest, rfl⟩ := List.getLast?_eq_some_iff.mp hlast
  obtain ⟨-, -, hbefore⟩ := List.pairwise_append.mp h.times
  obtain hrest | hsame := List.mem_append.mp hevent
  · exact hbefore event hrest last (List.mem_singleton_self last)
  · rw [List.mem_singleton.mp hsame]
    exact Int.le_refl last.occurredAt.instant

end Chained

/-! ### Appending an event -/

omit [Hashing] in
theorem insertEvent_ok {event : ApprovalLedgerEvent} {written : LedgerDatabase} :
    insertEvent sealWith db event = .ok written ↔
      (event.sequence < 2 ^ 63 ∧ event.generation < 2 ^ 63) ∧
      event.sequence ∉ db.events.map (·.sequence) ∧
      event.eventDigest ∉ db.events.map (·.eventDigest) ∧
      written = {
        state := stateRow sealWith event.sequence event.eventDigest
          (some (timeText event.occurredAt))
        events := db.events ++ [event.row] } := by
  unfold insertEvent
  rw [bind_ok]
  constructor
  · rintro ⟨_, hfits, h⟩
    obtain ⟨_, hsequence, h⟩ := bind_ok.mp h
    obtain ⟨_, hdigest, h⟩ := bind_ok.mp h
    exact ⟨require_ok.mp hfits, require_ok.mp hsequence,
      require_ok.mp hdigest, (pure_ok.mp h).symm⟩
  · rintro ⟨hfits, hsequence, hdigest, rfl⟩
    exact ⟨(), require_ok.mpr hfits, bind_ok.mpr
      ⟨(), require_ok.mpr hsequence, bind_ok.mpr
      ⟨(), require_ok.mpr hdigest, rfl⟩⟩⟩

/-- What a transaction that appends wrote, and where it moves the anchor. -/
structure Written (sealWith : Seal) (expectedHead : String) (request : EventRequest)
    (db written : LedgerDatabase) (previous replacement : ApprovalLedgerAnchor) : Prop where
  expected : expectedHead = db.head
  events : written.events =
    db.events ++ [(request.event sealWith (db.events.length + 1) expectedHead).row]
  fresh : replacement.digest ∉ db.heads
  previous : previous.sequence = db.events.length ∧ previous.digest = db.head
  replacement : replacement.sequence = db.events.length + 1 ∧
    replacement.digest = written.head

variable {written : LedgerDatabase} {expectedHead : String} {request : EventRequest}
  {previous replacement anchor : ApprovalLedgerAnchor}

theorem Written.heads (h : Written sealWith expectedHead request db written previous replacement) :
    written.heads = db.heads ++ [replacement.digest] := by
  rw [h.replacement.2]
  unfold LedgerDatabase.heads LedgerDatabase.head
  rw [h.events, Linked.heads_snoc, Linked.headOf_snoc]

/-- What names a prefix of the chain still does after an append. -/
theorem Written.names (h : Written sealWith expectedHead request db written previous replacement)
    (hanchor : db.Names anchor) : written.Names anchor :=
  Linked.named_mono ⟨_, h.events.symm⟩ hanchor

theorem Written.names_replacement
    (h : Written sealWith expectedHead request db written previous replacement) :
    written.Names replacement := by
  unfold LedgerDatabase.Names LedgerDatabase.heads
  have hlength : replacement.sequence = written.events.length := by
    rw [h.replacement.1, h.events, List.length_append, List.length_singleton]
  rw [hlength, h.replacement.2]
  exact Linked.headOf_at

/-- **An event that passes the checks of an append goes on with the chain.** -/
theorem Chained.append (h : Chained sealWith db events)
    (hgeneration : 0 ≤ request.generation)
    (hcanonical : (Json.canonicalLoads request.recordJson).isSome = true)
    (hexpected : expectedHead = db.head)
    (htime : ∀ at' ∈ events.getLast?.map (·.occurredAt), ¬ request.occurredAt < at')
    (hwritten : insertEvent sealWith db
      (request.event sealWith (db.events.length + 1) expectedHead) = .ok written) :
    Chained sealWith written
      (events ++ [request.event sealWith (db.events.length + 1) expectedHead]) := by
  obtain ⟨-, -, -, rfl⟩ := insertEvent_ok.mp hwritten
  have hhead : headOf (·.eventDigest) zeroDigest
      (db.events ++ [(request.event sealWith (db.events.length + 1) expectedHead).row]) =
        (request.event sealWith (db.events.length + 1) expectedHead).eventDigest :=
    Linked.headOf_snoc
  refine ⟨?_, ?_, ?_, ?_, ?_, ?_⟩
  · rw [List.map_append, List.map_singleton, h.rows]
  · dsimp only
    rw [List.map_append, List.length_append, h.sequences, List.map_singleton, List.length_singleton,
      List.range'_concat]
    rw [Nat.one_mul, Nat.add_comm 1]
    rfl
  · refine h.linked.snoc ?_
    exact hexpected
  · refine List.pairwise_append.mpr ⟨h.times, List.pairwise_singleton _ _, ?_⟩
    intro event hevent next hnext
    rw [List.mem_singleton.mp hnext]
    cases hlast : events.getLast? with
    | none =>
        rw [List.getLast?_eq_none_iff.mp hlast] at hevent
        exact absurd hevent List.not_mem_nil
    | some last =>
        have hle := h.le_last hlast hevent
        rw [hlast] at htime
        have hnot := htime last.occurredAt rfl
        exact Int.le_trans hle (Int.not_lt.mp hnot)
  · intro event hevent
    obtain hold | hnew := List.mem_append.mp hevent
    · exact h.isSealed event hold
    · rw [List.mem_singleton.mp hnew]
      exact ⟨hgeneration, hcanonical, rfl, rfl⟩
  · unfold LedgerDatabase.head
    rw [hhead, List.getLast?_concat, List.length_append, List.length_singleton]
    rfl

end Chained

end Evleda.ImportApproval
