/-
The append-only ledger of import approvals, and its external anchor.

The database holds the events, each sealed and linked to the one before it, and
one row with the last sequence, digest and time, sealed as well.  Outside of it a
store keeps an anchor: the sequence and the digest of the head, moved by an atomic
compare-and-swap.  A ledger object that meets an anchor it cannot explain is
poisoned, and refuses everything from then on.

Several processes share the database and the anchor.  A transaction that reads sees
the database as it was at its first statement; one that writes keeps the other
writers out.  The steps of a call are the places where it touches the database, the
anchor or the flag of its object.  The key of the seals is given from outside, and
so is what the anchor store does beyond the compare-and-swap.
-/
import Evleda.Lib.Calendar
import Evleda.Lib.Collections
import Evleda.Lib.Hashing
import Evleda.Lib.Interleaving
import Evleda.Lib.Linked
import Evleda.Lib.Reader

namespace Evleda.ImportApproval

open Effect Outcome

/-! ### What is raised -/

/-- The exception classes of the ledger; the last two are of the database and of the interpreter. -/
inductive LedgerErrorClass where
  | invariantError | stale | integrityError | databaseError | overflowError
  deriving DecidableEq, Repr

structure LedgerFailure where
  errorClass : LedgerErrorClass
  message : String
  deriving DecidableEq, Repr

/-- `ImportApprovalInvariantError(message)` -/
def invariantError (message : String) : LedgerFailure := ⟨.invariantError, message⟩

/-- `ImportApprovalStale(message)` -/
def staleError (message : String) : LedgerFailure := ⟨.stale, message⟩

/-- `ImportApprovalIntegrityError(message)` -/
def integrityError (message : String) : LedgerFailure := ⟨.integrityError, message⟩

/-! ### Times and identifiers -/

/-- `_time_text` -/
def timeText (t : DateTime) : String := t.isoformat ++ "Z"

/-- The form of `_UTC_TEXT`, as far as it is a date and a time. -/
def zuluTime (text : String) : Option DateTime :=
  if text.toList.getLast? = some 'Z' then
    DateTime.fromisoformat (String.ofList text.toList.dropLast ++ "+00:00")
  else none

/-- `_decode_time` -/
def decodeTime (text : String) : Except LedgerFailure DateTime :=
  match zuluTime text with
  | none => .error (integrityError "approval ledger timestamp is invalid")
  | some t => do
      require (timeText t = text)
        (integrityError "approval ledger timestamp is not canonical UTC")
      return t

/-- `_decode_optional_time` -/
def decodeOptionalTime : Option String → Except LedgerFailure (Option DateTime)
  | none => .ok none
  | some text => do
      let t ← decodeTime text
      return some t

theorem zuluTime_timeText (t : DateTime) : zuluTime (timeText t) = some t := by
  have hlist : (timeText t).toList = t.isoformat.toList ++ ['Z'] := by
    unfold timeText
    rw [String.toList_append]
    rfl
  unfold zuluTime
  rw [hlist, List.getLast?_concat, List.dropLast_concat, String.ofList_toList, if_pos rfl]
  exact DateTime.fromisoformat_isoformat t

theorem decodeTime_timeText (t : DateTime) : decodeTime (timeText t) = .ok t := by
  unfold decodeTime
  rw [zuluTime_timeText]
  exact bind_ok.mpr ⟨(), require_ok.mpr rfl, rfl⟩

theorem decodeOptionalTime_timeText (t : Option DateTime) :
    decodeOptionalTime (t.map timeText) = .ok t := by
  cases t with
  | none => rfl
  | some t => exact bind_ok.mpr ⟨t, decodeTime_timeText t, rfl⟩

/-- A character of `_PUBLIC_ID`. -/
def isIdCharacter (c : Char) : Bool :=
  c.isAlphanum || c == '_' || c == '.' || c == ':' || c == '-'

/-- `_PUBLIC_ID` -/
def isPublicId (value : String) : Bool :=
  match value.toList with
  | [] => false
  | c :: rest => c.isAlphanum && rest.all isIdCharacter && rest.length ≤ 127

/-- `_require_id` -/
def requireId [UnicodeData] (value label : String) : Except LedgerFailure Unit :=
  require (isPublicId value = true ∧ UnicodeData.nfc value = value ∧
      value.toList.any UnicodeData.isControl = false)
    (invariantError (label ++ " must be a canonical public identifier"))

/-! ### The anchor -/

/-- `"0" * 64` -/
def zeroDigest : String := String.ofList (List.replicate 64 '0')

/-- The sequence and the digest of a head; the empty ledger has the zero digest and no other. -/
structure ApprovalLedgerAnchor where
  sequence : Nat
  digest : String
  isSha256 : Text.isSha256 digest = true
  isZero : sequence = 0 ↔ digest = zeroDigest

namespace ApprovalLedgerAnchor

/-- `ApprovalLedgerAnchor(sequence, digest)` -/
def make (sequence : Nat) (digest : String) : Except LedgerFailure ApprovalLedgerAnchor :=
  if hdigest : Text.isSha256 digest = true then
    if hempty : sequence = 0 ∧ digest ≠ zeroDigest then
      .error (invariantError "an empty approval anchor must use the zero digest")
    else if hfull : 0 < sequence ∧ digest = zeroDigest then
      .error (invariantError "a non-empty approval anchor cannot use the zero digest")
    else
      .ok ⟨sequence, digest, hdigest, by
        constructor
        · intro hzero
          by_contra hne
          exact hempty ⟨hzero, hne⟩
        · intro hzero
          by_contra hne
          exact hfull ⟨Nat.pos_of_ne_zero hne, hzero⟩⟩
  else .error (invariantError "approval anchor digest must be a lowercase SHA-256 digest")

/-- The anchor of an empty ledger. -/
def zero : ApprovalLedgerAnchor where
  sequence := 0
  digest := zeroDigest
  isSha256 := by decide
  isZero := by simp

theorem ext {a b : ApprovalLedgerAnchor} (hsequence : a.sequence = b.sequence)
    (hdigest : a.digest = b.digest) : a = b := by
  cases a
  cases b
  cases hsequence
  cases hdigest
  rfl

instance : DecidableEq ApprovalLedgerAnchor := fun a b =>
  decidable_of_iff (a.sequence = b.sequence ∧ a.digest = b.digest)
    ⟨fun h => ext h.1 h.2, fun h => h ▸ ⟨rfl, rfl⟩⟩

/-- The constructor makes an anchor of the sequence and the digest, or refuses them. -/
theorem make_ok {sequence : Nat} {digest : String} {anchor : ApprovalLedgerAnchor} :
    make sequence digest = .ok anchor ↔ anchor.sequence = sequence ∧ anchor.digest = digest := by
  constructor
  · intro h
    unfold make at h
    split at h
    · split at h
      · cases h
      · split at h
        · cases h
        · cases h
          exact ⟨rfl, rfl⟩
    · cases h
  · rintro ⟨rfl, rfl⟩
    unfold make
    rw [dif_pos anchor.isSha256, dif_neg fun h => h.2 (anchor.isZero.mp h.1),
      dif_neg fun h => absurd (anchor.isZero.mpr h.2) (Nat.ne_of_gt h.1)]

end ApprovalLedgerAnchor

/-! ### Events and the database -/

/-- A row of the table of events. -/
structure EventRow where
  sequence : Nat
  requestId : String
  subjectDigest : String
  operationKey : String
  state : String
  generation : Int
  occurredAt : String
  recordJson : String
  previousEventDigest : String
  eventDigest : String
  eventSeal : String
  deriving DecidableEq

structure ApprovalLedgerEvent where
  sequence : Nat
  requestId : String
  subjectDigest : String
  operationKey : String
  state : String
  generation : Int
  occurredAt : DateTime
  recordJson : String
  previousEventDigest : String
  eventDigest : String
  eventSeal : String
  deriving DecidableEq

/-- The row of `import_approval_ledger_state`. -/
structure StateRow where
  lastSequence : Nat
  lastEventDigest : String
  lastOccurredAt : Option String
  stateSeal : String
  deriving DecidableEq

structure LedgerDatabase where
  state : StateRow
  events : List EventRow

/-- The digests and the seals: what SHA-256 and the sealing function of the issuer give. -/
abbrev Seal := String → Json → String

def ApprovalLedgerEvent.row (event : ApprovalLedgerEvent) : EventRow where
  sequence := event.sequence
  requestId := event.requestId
  subjectDigest := event.subjectDigest
  operationKey := event.operationKey
  state := event.state
  generation := event.generation
  occurredAt := timeText event.occurredAt
  recordJson := event.recordJson
  previousEventDigest := event.previousEventDigest
  eventDigest := event.eventDigest
  eventSeal := event.eventSeal

/-- `_event_from_row`, with the checks of the event's constructor. -/
def eventFromRow (row : EventRow) : Except LedgerFailure ApprovalLedgerEvent := do
  let occurredAt ← decodeTime row.occurredAt
  require (0 < row.sequence) (integrityError "approval ledger sequence is invalid")
  require (0 ≤ row.generation) (integrityError "approval ledger generation is invalid")
  return ⟨row.sequence, row.requestId, row.subjectDigest, row.operationKey, row.state,
    row.generation, occurredAt, row.recordJson, row.previousEventDigest, row.eventDigest,
    row.eventSeal⟩

theorem eventFromRow_row {event : ApprovalLedgerEvent} (hsequence : 0 < event.sequence)
    (hgeneration : 0 ≤ event.generation) : eventFromRow event.row = .ok event := by
  refine bind_ok.mpr ⟨_, decodeTime_timeText event.occurredAt, ?_⟩
  refine bind_ok.mpr ⟨(), require_ok.mpr hsequence, ?_⟩
  exact bind_ok.mpr ⟨(), require_ok.mpr hgeneration, rfl⟩

section Digests

variable [Hashing] (sealWith : Seal)

/-- The digest of an event, over everything it says. -/
def eventDigest (event : ApprovalLedgerEvent) : String :=
  Hashing.inDomain "flux-clone-import-approval-ledger-event-v1" (.object [
    ("sequence", .int event.sequence), ("request_id", .str event.requestId),
    ("subject_digest", .str event.subjectDigest), ("operation_key", .str event.operationKey),
    ("state", .str event.state), ("generation", .int event.generation),
    ("occurred_at", .str (timeText event.occurredAt)),
    ("record_sha256", .str (Hashing.sha256 event.recordJson.toList)),
    ("previous_event_digest", .str event.previousEventDigest)])

def eventSeal (sequence : Nat) (digest : String) : String :=
  sealWith "approval-ledger-event" (.object [
    ("sequence", .int sequence), ("event_digest", .str digest)])

/-- `_state_seal` -/
def stateSeal (sequence : Nat) (digest : String) (occurredAt : Option String) : String :=
  sealWith "approval-ledger-state" (.object [
    ("last_sequence", .int sequence), ("last_event_digest", .str digest),
    ("last_occurred_at", (occurredAt.map Json.str).getD .null)])

/-- `_verify_event` -/
def verifyEvent (event : ApprovalLedgerEvent) : Except LedgerFailure Unit := do
  require ((Json.loads event.recordJson).isSome = true)
    (integrityError "approval ledger record JSON is invalid")
  require ((Json.canonicalLoads event.recordJson).isSome = true)
    (integrityError "approval ledger record JSON is not canonical")
  require (event.eventDigest = eventDigest event ∧
      event.eventSeal = eventSeal sealWith event.sequence event.eventDigest)
    (integrityError "approval ledger event digest or seal is invalid")

/-- The row with what is last, as it is written. -/
def stateRow (sequence : Nat) (digest : String) (occurredAt : Option String) : StateRow :=
  ⟨sequence, digest, occurredAt, stateSeal sealWith sequence digest occurredAt⟩

/-- `_verify_state` -/
def verifyState (row : StateRow) (sequence : Nat) (digest : String)
    (occurredAt : Option DateTime) : Except LedgerFailure Unit := do
  let occurredText := occurredAt.map timeText
  require (row.lastSequence = sequence ∧ row.lastEventDigest = digest ∧
      row.lastOccurredAt = occurredText)
    (integrityError "approval ledger state does not match its event chain")
  require (row.stateSeal = stateSeal sealWith sequence digest occurredText)
    (integrityError "approval ledger state seal is invalid")

/-- What `_initialize` makes of an empty file. -/
def initialDatabase : LedgerDatabase where
  state := stateRow sealWith 0 zeroDigest none
  events := []

omit [Hashing] in
theorem verifyState_ok {row : StateRow} {sequence : Nat} {digest : String}
    {occurredAt : Option DateTime} {u : Unit} :
    verifyState sealWith row sequence digest occurredAt = .ok u ↔
      row = stateRow sealWith sequence digest (occurredAt.map timeText) := by
  unfold verifyState
  rw [bind_ok]
  constructor
  · rintro ⟨_, hmatches, hsealed⟩
    obtain ⟨rfl, rfl, htime⟩ := require_ok.mp hmatches
    have hseal := require_ok.mp hsealed
    cases row
    dsimp only at htime hseal ⊢
    rw [stateRow, ← hseal, htime]
  · rintro rfl
    exact ⟨(), require_ok.mpr ⟨rfl, rfl, rfl⟩, require_ok.mpr rfl⟩

theorem verifyEvent_ok {event : ApprovalLedgerEvent} {u : Unit} :
    verifyEvent sealWith event = .ok u ↔
      (Json.canonicalLoads event.recordJson).isSome = true ∧
      event.eventDigest = eventDigest event ∧
      event.eventSeal = eventSeal sealWith event.sequence event.eventDigest := by
  unfold verifyEvent
  rw [bind_ok]
  constructor
  · rintro ⟨_, -, h⟩
    obtain ⟨_, hcanonical, hsealed⟩ := bind_ok.mp h
    exact ⟨require_ok.mp hcanonical, require_ok.mp hsealed⟩
  · rintro ⟨hcanonical, hsealed⟩
    have hloads : (Json.loads event.recordJson).isSome = true := by
      obtain ⟨value, hvalue⟩ := Option.isSome_iff_exists.mp hcanonical
      obtain ⟨read, hread, -⟩ := Option.bind_eq_some_iff.mp hvalue
      rw [hread]
      rfl
    exact ⟨(), require_ok.mpr hloads, bind_ok.mpr
      ⟨(), require_ok.mpr hcanonical, require_ok.mpr hsealed⟩⟩

/-- The loop of `load`: the events of the rows, the digest and the time of the last one. -/
def verifyChain : Nat → String → Option DateTime → List EventRow →
    Except LedgerFailure (List ApprovalLedgerEvent × String × Option DateTime)
  | _, previous, lastAt, [] => .ok ([], previous, lastAt)
  | expectedSequence, previous, lastAt, row :: rows => do
      let event ← eventFromRow row
      require (event.sequence = expectedSequence)
        (integrityError "approval ledger event sequence is not contiguous")
      require (event.previousEventDigest = previous)
        (integrityError "approval ledger event chain is broken")
      require (∀ at' ∈ lastAt, ¬ event.occurredAt < at')
        (integrityError "approval ledger event timestamps moved backwards")
      verifyEvent sealWith event
      let (events, head, last) ←
        verifyChain (expectedSequence + 1) event.eventDigest (some event.occurredAt) rows
      return (event :: events, head, last)

end Digests

/-! ### What the processes share -/

/-- What the anchor store does for a call beyond its compare-and-swap. -/
structure AnchorService where
  /-- A request to read is answered. -/
  reads : Bool
  /-- A request to swap reaches the store. -/
  swaps : Bool
  /-- The answer to a request to swap comes back. -/
  replies : Bool
  /-- The answer to a request to swap that expects another anchor than there is; nothing if the
  store raises. -/
  refuses : ApprovalLedgerAnchor → Option ApprovalLedgerAnchor

/-- The store can be reached. -/
def AnchorService.Available (service : AnchorService) : Prop :=
  service.reads = true ∧ service.swaps = true ∧ service.replies = true

/-- Where a call stands when it uses the database, the anchor or the flag of its object. -/
inductive LedgerPlace where
  | healthy | snapshot | begin | rollback | commit | readAnchor | swapAnchor | poison
  deriving DecidableEq

/-- What the calls `ι` on the objects `κ` share: the database and the anchor, which objects are
poisoned, who has a transaction that writes, and, for the record, whose were committed. -/
structure LedgerShared (ι κ : Type) where
  database : LedgerDatabase
  anchor : ApprovalLedgerAnchor
  poisoned : κ → Bool
  writer : Option ι
  commits : List ι

abbrev LedgerSteps (ι κ α : Type) := Steps LedgerPlace (LedgerShared ι κ) LedgerFailure α

section Programs

variable {ι κ α : Type} [DecidableEq ι] [DecidableEq κ] (service : AnchorService) (ledger : κ)

def poisonedError : LedgerFailure :=
  integrityError "approval ledger is poisoned after an anchor or integrity failure"

/-- `_require_healthy` -/
def requireHealthy : LedgerSteps ι κ Unit := do
  let poisoned ← .atomic .healthy (read fun s => s.poisoned ledger)
  .check (require (poisoned = false) poisonedError)

/-- Poison the object, and raise. -/
def failClosed (message : String) : LedgerSteps ι κ α := do
  .atomic .poison (write fun s =>
    { s with poisoned := Function.update s.poisoned ledger true })
  .check (.error (integrityError message))

/-- `_read_external_anchor` -/
def readExternalAnchor : LedgerSteps ι κ ApprovalLedgerAnchor :=
  if service.reads then .atomic .readAnchor (read fun s => s.anchor)
  else failClosed ledger "external approval-ledger anchor is unavailable"

/-- `_verify_external_anchor` -/
def verifyExternalAnchor (expected : ApprovalLedgerAnchor) : LedgerSteps ι κ Unit := do
  let current ← readExternalAnchor service ledger
  if current = expected then pure ()
  else failClosed ledger "external approval-ledger anchor is ahead, behind, or contradictory"

/-- `_require_recoverable_external_anchor` -/
def requireRecoverableExternalAnchor (verifiedEvents : List ApprovalLedgerEvent)
    (databaseHead : ApprovalLedgerAnchor) : LedgerSteps ι κ ApprovalLedgerAnchor := do
  let current ← readExternalAnchor service ledger
  if current = databaseHead then pure current
  else if databaseHead.sequence < current.sequence then
    failClosed ledger "external approval-ledger anchor is ahead of the database"
  else if (heads (·.eventDigest) zeroDigest verifiedEvents)[current.sequence]? =
      some current.digest then pure current
  else failClosed ledger "external approval-ledger anchor contradicts the verified chain"

/-- `compare_and_swap_anchor`; nothing if it raises. -/
def compareAndSwapAnchor (expected replacement : ApprovalLedgerAnchor) :
    Effect (LedgerShared ι κ) LedgerFailure (Option ApprovalLedgerAnchor) := do
  let current ← read fun s => s.anchor
  if service.swaps then
    if current = expected then do
      write fun s => { s with anchor := replacement }
      pure (if service.replies then some replacement else none)
    else pure (service.refuses current)
  else pure none

/-- `_advance_external_anchor` -/
def advanceExternalAnchor (expected replacement : ApprovalLedgerAnchor) :
    LedgerSteps ι κ Unit := do
  match ← .atomic .swapAnchor (compareAndSwapAnchor service expected replacement) with
  | none => failClosed ledger "external approval-ledger anchor CAS failed"
  | some current =>
      if current = replacement then pure ()
      else failClosed ledger "external approval-ledger anchor CAS returned a contradictory head"

/-- `_reconcile_external_anchor` -/
def reconcileExternalAnchor (verifiedEvents : List ApprovalLedgerEvent)
    (databaseHead : ApprovalLedgerAnchor) : LedgerSteps ι κ Unit := do
  let current ← requireRecoverableExternalAnchor service ledger verifiedEvents databaseHead
  if current = databaseHead then pure ()
  else advanceExternalAnchor service ledger current databaseHead

variable [Hashing] (sealWith : Seal)

/-- `load` -/
def loadSteps :
    LedgerSteps ι κ (List ApprovalLedgerEvent × String × Option DateTime) := do
  requireHealthy ledger
  let db ← .atomic .snapshot (read fun s => s.database)
  let (events, head, lastAt) ←
    .check (verifyChain sealWith 1 zeroDigest none (sortBy (·.sequence) db.events))
  .check (verifyState sealWith db.state events.length head lastAt)
  let databaseHead ← .check (ApprovalLedgerAnchor.make events.length head)
  let _ ← requireRecoverableExternalAnchor service ledger events databaseHead
  return (events, head, lastAt)

/-- `confirm_verified_load` -/
def confirmSteps (verifiedEvents : List ApprovalLedgerEvent) (expectedHead : String)
    (lastAt : Option DateTime) : LedgerSteps ι κ Unit := do
  requireHealthy ledger
  let db ← .atomic .snapshot (read fun s => s.database)
  .check (verifyState sealWith db.state verifiedEvents.length expectedHead lastAt)
  let databaseHead ← .check (ApprovalLedgerAnchor.make verifiedEvents.length expectedHead)
  reconcileExternalAnchor service ledger verifiedEvents databaseHead

/-- What an event is made from. -/
structure EventRequest where
  requestId : String
  subjectDigest : String
  operationKey : String
  state : String
  generation : Int
  occurredAt : DateTime
  recordJson : String

/-- The event that follows the head `previous`, sealed. -/
def EventRequest.event (request : EventRequest) (sequence : Nat) (previous : String) :
    ApprovalLedgerEvent :=
  let unsealed : ApprovalLedgerEvent := ⟨sequence, request.requestId, request.subjectDigest,
    request.operationKey, request.state, request.generation, request.occurredAt,
    request.recordJson, previous, "", ""⟩
  let digest := eventDigest unsealed
  { unsealed with eventDigest := digest, eventSeal := eventSeal sealWith sequence digest }

/-- The insert of an event, and the update of the row with what is last.  Integers of the database
have sixty-four bits; the sequence and the digest of an event are unique. -/
def insertEvent (db : LedgerDatabase) (event : ApprovalLedgerEvent) :
    Except LedgerFailure LedgerDatabase := do
  require (event.sequence < 2 ^ 63 ∧ event.generation < 2 ^ 63)
    ⟨.overflowError, "Python int too large to convert to SQLite INTEGER"⟩
  require (event.sequence ∉ db.events.map (·.sequence))
    ⟨.databaseError, "UNIQUE constraint failed: import_approval_ledger_events.sequence"⟩
  require (event.eventDigest ∉ db.events.map (·.eventDigest))
    ⟨.databaseError, "UNIQUE constraint failed: import_approval_ledger_events.event_digest"⟩
  return {
    state := stateRow sealWith event.sequence event.eventDigest (some (timeText event.occurredAt))
    events := db.events ++ [event.row] }

/-- What an append does within its transaction: the database it leaves, and the anchors before and
after. -/
def appendLocked (expectedHead : String) (request : EventRequest) (db : LedgerDatabase) :
    LedgerSteps ι κ (LedgerDatabase × ApprovalLedgerAnchor × ApprovalLedgerAnchor) := do
  let lastAt ← .check (decodeOptionalTime db.state.lastOccurredAt)
  .check (verifyState sealWith db.state db.state.lastSequence db.state.lastEventDigest lastAt)
  .check (require (db.state.lastEventDigest = expectedHead)
    (staleError "approval ledger changed concurrently"))
  let previous ← .check
    (ApprovalLedgerAnchor.make db.state.lastSequence db.state.lastEventDigest)
  verifyExternalAnchor service ledger previous
  .check (require (∀ at' ∈ lastAt, ¬ request.occurredAt < at')
    (staleError "approval ledger clock moved backwards"))
  let event := request.event sealWith (db.state.lastSequence + 1) expectedHead
  let written ← .check (insertEvent sealWith db event)
  let replacement ← .check (ApprovalLedgerAnchor.make event.sequence event.eventDigest)
  return (written, previous, replacement)

/-- `BEGIN IMMEDIATE`: see the database, and keep other writers out.  A call that has waited long
enough for another writer gives up. -/
def beginImmediate (i : ι) : Effect (LedgerShared ι κ) LedgerFailure LedgerDatabase := do
  let writer ← read fun s => s.writer
  check (require (writer = none) ⟨.databaseError, "database is locked"⟩)
  write fun s => { s with writer := some i }
  read fun s => s.database

/-- End a transaction that writes without its work. -/
def giveUp (i : ι) (s : LedgerShared ι κ) : LedgerShared ι κ :=
  if s.writer = some i then { s with writer := none } else s

/-- End a transaction that writes with its work. -/
def commitWork (i : ι) (db : LedgerDatabase) (s : LedgerShared ι κ) : LedgerShared ι κ :=
  { s with database := db, writer := none, commits := s.commits ++ [i] }

/-- `append`, as the call `i`. -/
def appendSteps [UnicodeData] (i : ι) (expectedHead : String) (request : EventRequest) :
    LedgerSteps ι κ String := do
  requireHealthy ledger
  .check (requireId request.requestId "approval ledger request ID")
  .check (requireId request.operationKey "approval ledger operation key")
  .check (require (0 ≤ request.generation)
    (invariantError "approval ledger state and generation are invalid"))
  .check (require ((Json.canonicalLoads request.recordJson).isSome = true)
    (invariantError "approval ledger record must be canonical JSON"))
  let db ← .atomic .begin (beginImmediate i)
  let (written, previous, replacement) ←
    (appendLocked service ledger sealWith expectedHead request db).handling fun failure => do
      .atomic .rollback (write (giveUp i))
      .check (.error failure)
  .atomic .commit (write (commitWork i written))
  advanceExternalAnchor service ledger previous replacement
  return replacement.digest

end Programs

end Evleda.ImportApproval
