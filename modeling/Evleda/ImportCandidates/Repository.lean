/-
The repository of import candidates.

A candidate is a row of one table and a chain of rows of another.  `create` writes
the first event of a chain, `_transition` the next one, and `_verify_event_chain`
goes over the whole chain again and compares what it leads to with the row.  A
repository of an older schema is migrated when it is opened: its candidates get a
first event that seals what their rows say, and every chain is verified.

Every call is one transaction.  Texts and numbers are stored as they are; a number
that does not fit into sixty-four bits is not stored.
-/
import Evleda.ImportCandidates.Models

namespace Evleda.ImportCandidates

/-! ### Rows -/

/-- A row of `import_candidates`. -/
structure CandidateRow where
  candidateId : String
  candidateDigest : String
  identityScheme : String
  artifactId : String
  artifactSha256 : String
  artifactKind : String
  projectId : String
  expectedProjectRevision : String
  runId : String
  expectedRunRevision : Int
  inspectionPayloadJson : String
  inspectionPayloadDigest : String
  inspectionReceiptDigest : String
  diagnosticsJson : String
  diagnosticsDigest : String
  blockersJson : String
  blockersDigest : String
  createdBy : String
  state : String
  generation : Int
  resolutionReceiptDigest : Option String
  stageReceiptDigest : Option String
  terminalReason : Option String
  createdAt : String
  updatedAt : String
  lastEventDigest : String
  deriving DecidableEq

/-- A row of `import_candidate_events`. -/
structure EventRow where
  candidateId : String
  sequence : Int
  kind : String
  previousState : Option String
  state : String
  actorId : String
  receiptDigest : Option String
  reason : Option String
  transitionedAt : String
  previousEventDigest : String
  eventDigest : String
  deriving DecidableEq

structure CandidateStore where
  candidates : List CandidateRow := []
  events : List EventRow := []

section Reading

variable [UnicodeData] [InspectionPolicy] [Hashing]

/-! ### Diagnostics and blockers in their columns -/

/-- `_decode_canonical_array` -/
def decodeCanonicalArray (source label : String) : Except CandidateFailure (List Json) :=
  match Json.canonicalLoads source with
  | some (.arr items) => .ok items
  | _ => .error (integrity ("persisted " ++ label ++ " are not canonical JSON"))

def malformedCandidate : CandidateFailure :=
  integrity "persisted import candidate record is malformed"

/-- A text of a decoded object. -/
def textField (members : List (String × Json)) (key : String) : Except CandidateFailure String :=
  match Json.get? members key with
  | some (.str text) => .ok text
  | _ => .error malformedCandidate

/-- A text or null of a decoded object. -/
def optionalTextField (members : List (String × Json)) (key : String) :
    Except CandidateFailure (Option String) :=
  match Json.get? members key with
  | some (.str text) => .ok (some text)
  | some .null => .ok none
  | _ => .error malformedCandidate

/-- A list of texts of a decoded object. -/
def textsField (members : List (String × Json)) (key : String) :
    Except CandidateFailure (List String) :=
  match Json.get? members key with
  | some (.arr items) => items.mapM fun
      | .str text => .ok text
      | _ => .error malformedCandidate
  | _ => .error (integrity "persisted blocker entity IDs are malformed")

/-- The members of an object with exactly the expected keys. -/
def closedObject (expected : List String) (message : String) :
    Json → Except CandidateFailure (List (String × Json))
  | .obj members => do
      require ((members.map Prod.fst).Perm expected) (integrity message)
      return members
  | _ => .error (integrity message)

/-- A value that was stored as text, of an enumeration. -/
def enumOf {α : Type} (malformed : CandidateFailure) : Option α → Except CandidateFailure α
  | some value => .ok value
  | none => .error malformed

/-- A value whose constructor may refuse it. -/
def constructed {α : Type} (malformed : CandidateFailure) (checks : Except CandidateFailure Unit)
    (value : α) : Except CandidateFailure α :=
  match checks with
  | .ok () => .ok value
  | .error failure =>
      .error (if failure.errorClass = .integrityError then failure else malformed)

/-- One item of `_decode_diagnostics` -/
def decodeDiagnostic (item : Json) : Except CandidateFailure CandidateDiagnostic := do
  let members ← closedObject ["code", "diagnostic_id", "entity_id", "evidence_digest", "message",
    "scope", "severity"] "persisted diagnostic has unknown fields" item
  let diagnosticId ← textField members "diagnostic_id"
  let code ← textField members "code"
  let severity ← textField members "severity"
  let severity ← enumOf malformedCandidate (DiagnosticSeverity.ofValue severity)
  let scope ← textField members "scope"
  let message ← textField members "message"
  let evidenceDigest ← textField members "evidence_digest"
  let entityId ← optionalTextField members "entity_id"
  let diagnostic : CandidateDiagnostic :=
    ⟨diagnosticId, code, severity, scope, message, evidenceDigest, entityId⟩
  constructed malformedCandidate diagnostic.checks diagnostic

/-- One item of `_decode_blockers` -/
def decodeBlocker (item : Json) : Except CandidateFailure CandidateBlocker := do
  let members ← closedObject ["blocker_id", "code", "entity_ids", "evidence_digest", "message"]
    "persisted blocker has unknown fields" item
  let entityIds ← textsField members "entity_ids"
  let blockerId ← textField members "blocker_id"
  let code ← textField members "code"
  let message ← textField members "message"
  let evidenceDigest ← textField members "evidence_digest"
  let blocker : CandidateBlocker := ⟨blockerId, code, message, evidenceDigest, entityIds⟩
  constructed malformedCandidate blocker.checks blocker

/-- `_decode_diagnostics` -/
def decodeDiagnostics (source : String) : Except CandidateFailure (List CandidateDiagnostic) := do
  let decoded ← decodeCanonicalArray source "diagnostics"
  decoded.mapM decodeDiagnostic

/-- `_decode_blockers` -/
def decodeBlockers (source : String) : Except CandidateFailure (List CandidateBlocker) := do
  let decoded ← decodeCanonicalArray source "blockers"
  decoded.mapM decodeBlocker

/-! ### Candidates and events in their rows -/

/-- `_candidate_insert_values` -/
def ImportCandidate.row (candidate : ImportCandidate) : CandidateRow where
  candidateId := candidate.candidateId
  candidateDigest := candidate.candidateDigest
  identityScheme := candidate.draft.identityScheme.value
  artifactId := candidate.draft.artifactId
  artifactSha256 := candidate.draft.artifactSha256
  artifactKind := candidate.draft.artifactKind.value
  projectId := candidate.draft.projectId
  expectedProjectRevision := candidate.draft.expectedProjectRevision
  runId := candidate.draft.runId
  expectedRunRevision := candidate.draft.expectedRunRevision
  inspectionPayloadJson := candidate.draft.inspectionPayloadJson
  inspectionPayloadDigest := candidate.inspectionPayloadDigest
  inspectionReceiptDigest := candidate.draft.inspectionReceiptDigest
  diagnosticsJson := (diagnosticsJson candidate.draft.diagnostics).dumps
  diagnosticsDigest := diagnosticsDigest candidate.draft.diagnostics
  blockersJson := (blockersJson candidate.draft.blockers).dumps
  blockersDigest := blockersDigest candidate.draft.blockers
  createdBy := candidate.draft.createdBy
  state := candidate.state.value
  generation := candidate.generation
  resolutionReceiptDigest := candidate.resolutionReceiptDigest
  stageReceiptDigest := candidate.stageReceiptDigest
  terminalReason := candidate.terminalReason
  createdAt := encodeTime candidate.createdAt
  updatedAt := encodeTime candidate.updatedAt
  lastEventDigest := candidate.lastEventDigest

/-- `_candidate_from_row` -/
def candidateFromRow (row : CandidateRow) : Except CandidateFailure ImportCandidate := do
  let diagnostics ← decodeDiagnostics row.diagnosticsJson
  let blockers ← decodeBlockers row.blockersJson
  require (diagnosticsDigest diagnostics = row.diagnosticsDigest)
    (integrity "persisted diagnostics digest does not match diagnostics")
  require (blockersDigest blockers = row.blockersDigest)
    (integrity "persisted blockers digest does not match blockers")
  let identityScheme ← enumOf malformedCandidate (CandidateIdentityScheme.ofValue row.identityScheme)
  let artifactKind ← enumOf malformedCandidate (ArtifactKind.ofValue row.artifactKind)
  let state ← enumOf malformedCandidate (CandidateState.ofValue row.state)
  let createdAt ← decodeTime row.createdAt
  let updatedAt ← decodeTime row.updatedAt
  let candidate : ImportCandidate := {
    candidateId := row.candidateId
    candidateDigest := row.candidateDigest
    draft := {
      artifactId := row.artifactId
      artifactSha256 := row.artifactSha256
      artifactKind := artifactKind
      projectId := row.projectId
      expectedProjectRevision := row.expectedProjectRevision
      runId := row.runId
      expectedRunRevision := row.expectedRunRevision
      inspectionPayloadJson := row.inspectionPayloadJson
      inspectionReceiptDigest := row.inspectionReceiptDigest
      diagnostics := diagnostics
      blockers := blockers
      createdBy := row.createdBy
      identityScheme := identityScheme }
    inspectionPayloadDigest := row.inspectionPayloadDigest
    state := state
    generation := row.generation
    resolutionReceiptDigest := row.resolutionReceiptDigest
    stageReceiptDigest := row.stageReceiptDigest
    terminalReason := row.terminalReason
    createdAt := createdAt
    updatedAt := updatedAt
    lastEventDigest := row.lastEventDigest }
  constructed malformedCandidate candidate.checks candidate

/-- The values of `_insert_event`. -/
def CandidateTransitionEvent.row (event : CandidateTransitionEvent) : EventRow where
  candidateId := event.candidateId
  sequence := event.sequence
  kind := event.kind.value
  previousState := event.previousState.map (·.value)
  state := event.state.value
  actorId := event.actorId
  receiptDigest := event.receiptDigest
  reason := event.reason
  transitionedAt := encodeTime event.transitionedAt
  previousEventDigest := event.previousEventDigest
  eventDigest := event.eventDigest

def malformedEvent : CandidateFailure := integrity "persisted import candidate event is malformed"

def optionalState : Option String → Except CandidateFailure (Option CandidateState)
  | none => .ok none
  | some text => do
      let state ← enumOf malformedEvent (CandidateState.ofValue text)
      return some state

/-- `_event_from_row` -/
def eventFromRow (row : EventRow) : Except CandidateFailure CandidateTransitionEvent := do
  let kind ← enumOf malformedEvent (CandidateEventKind.ofValue row.kind)
  let previousState ← optionalState row.previousState
  let state ← enumOf malformedEvent (CandidateState.ofValue row.state)
  let transitionedAt ← decodeTime row.transitionedAt
  let event : CandidateTransitionEvent := {
    candidateId := row.candidateId
    sequence := row.sequence
    kind := kind
    previousState := previousState
    state := state
    actorId := row.actorId
    receiptDigest := row.receiptDigest
    reason := row.reason
    transitionedAt := transitionedAt
    previousEventDigest := row.previousEventDigest
    eventDigest := row.eventDigest }
  constructed malformedEvent event.checks event

/-! ### The chain of a candidate -/

/-- What the lifecycle of a candidate has left behind. -/
structure Evidence where
  resolution : Option String := none
  stage : Option String := none
  reason : Option String := none
  deriving DecidableEq

/-- `_lifecycle_snapshot_digest` -/
def lifecycleSnapshotDigest (candidateId : String) (state : CandidateState) (generation : Int)
    (createdBy inspectionReceiptDigest : String) (evidence : Evidence)
    (createdAt updatedAt : String) : String :=
  Hashing.ofJson (.object [
    ("candidate_id", .str candidateId),
    ("created_at", .str createdAt),
    ("created_by", .str createdBy),
    ("domain", .str "flux-clone.kicad-import-candidate.migration-snapshot.v1"),
    ("generation", .int generation),
    ("inspection_receipt_digest", .str inspectionReceiptDigest),
    ("resolution_receipt_digest", optionalText evidence.resolution),
    ("stage_receipt_digest", optionalText evidence.stage),
    ("state", .str state.value),
    ("terminal_reason", optionalText evidence.reason),
    ("updated_at", .str updatedAt)])

/-- `_candidate_migration_receipt` -/
def candidateMigrationReceipt (candidate : ImportCandidate) : CandidateState → Option String
  | .staged => candidate.stageReceiptDigest
  | .resolved => candidate.resolutionReceiptDigest
  | .pending => some candidate.draft.inspectionReceiptDigest
  | _ => none

/-- The evidence of a candidate that it had already when it was migrated in a state. -/
def migratedEvidence (candidate : ImportCandidate) (state : CandidateState) : Evidence where
  resolution := if state ≠ .pending then candidate.resolutionReceiptDigest else none
  stage := if state = .staged ∨ state = .invalidated then candidate.stageReceiptDigest else none
  reason := if state = .rejected ∨ state = .invalidated then candidate.terminalReason else none

/-- `_candidate_migration_reason` -/
def candidateMigrationReason (candidate : ImportCandidate) (root : CandidateTransitionEvent) :
    String :=
  "schema-v1-migration:" ++ lifecycleSnapshotDigest candidate.candidateId root.state root.sequence
    candidate.draft.createdBy candidate.draft.inspectionReceiptDigest
    (migratedEvidence candidate root.state) (encodeTime candidate.createdAt)
    (encodeTime root.transitionedAt)

def Evidence.replay (evidence : Evidence) (event : CandidateTransitionEvent) : Evidence :=
  match event.state with
  | .resolved => { evidence with resolution := event.receiptDigest }
  | .staged => { evidence with stage := event.receiptDigest }
  | .rejected => { evidence with reason := event.reason }
  | .invalidated => { evidence with reason := event.reason }
  | .pending => evidence

/-- The evidence that the first event of a chain stands for. -/
def rootEvidence (candidate : ImportCandidate) (first : CandidateTransitionEvent) : Evidence :=
  if first.kind = .created then {} else migratedEvidence candidate first.state

/-- The checks on the first event. -/
def verifyRoot (candidate : ImportCandidate) (first : CandidateTransitionEvent) :
    Except CandidateFailure Unit := do
  require (first.kind = .created ∨ first.kind = .migrated)
    (integrity "candidate event chain has no creation/migration root")
  require (first.previousEventDigest = CandidateTransitionEvent.zeroDigest)
    (integrity "candidate event chain root is not zero-bound")
  require (first.actorId = candidate.draft.createdBy)
    (integrity "candidate creator is not bound by the event-chain root")
  if first.kind = .created then
    require (first.receiptDigest = some candidate.draft.inspectionReceiptDigest ∧
        first.reason = none)
      (integrity "candidate inspection receipt is not bound by its creation event")
  else
    require (first.receiptDigest = candidateMigrationReceipt candidate first.state ∧
        first.reason = some (candidateMigrationReason candidate first))
      (integrity "migrated candidate lifecycle snapshot is not event-bound")

/-- The checks on an event after another. -/
def verifyNext (previous event : CandidateTransitionEvent) : Except CandidateFailure Unit := do
  require (event.kind = .transitioned) (integrity "only the event-chain root may be migrated")
  require (event.sequence = previous.sequence + 1)
    (integrity "candidate event sequences are not contiguous")
  require (event.previousEventDigest = previous.eventDigest)
    (integrity "candidate event digest chain is broken")
  require (event.previousState = some previous.state)
    (integrity "candidate event state chain is broken")
  require (¬ event.transitionedAt < previous.transitionedAt)
    (integrity "candidate event time moved backwards")

/-- The loop over the events after the first: the last one, and the evidence they lead to. -/
def verifyRest : CandidateTransitionEvent → Evidence → List CandidateTransitionEvent →
    Except CandidateFailure (CandidateTransitionEvent × Evidence)
  | previous, evidence, [] => .ok (previous, evidence)
  | previous, evidence, event :: rest => do
      verifyNext previous event
      verifyRest event (evidence.replay event) rest

/-- The checks on what a chain leads to. -/
def verifyEnd (candidate : ImportCandidate) (first last : CandidateTransitionEvent)
    (evidence : Evidence) : Except CandidateFailure Unit := do
  require (last.sequence = candidate.generation ∧ last.state = candidate.state ∧
      last.eventDigest = candidate.lastEventDigest ∧ last.transitionedAt = candidate.updatedAt)
    (integrity "candidate current state is not sealed by its final event")
  require (evidence = ⟨candidate.resolutionReceiptDigest, candidate.stageReceiptDigest,
      candidate.terminalReason⟩)
    (integrity "candidate lifecycle evidence does not replay from its event chain")
  require (first.kind = .created → first.transitionedAt = candidate.createdAt)
    (integrity "candidate creation time is not sealed by its creation event")

/-- The events of a candidate, `ORDER BY sequence`. -/
def CandidateStore.eventsOf (s : CandidateStore) (candidateId : String) : List EventRow :=
  sortBy (·.sequence) (s.events.filter (·.candidateId = candidateId))

/-- `_verify_event_chain` -/
def verifyEventChain (s : CandidateStore) (candidate : ImportCandidate) :
    Except CandidateFailure (List CandidateTransitionEvent) := do
  let events ← (s.eventsOf candidate.candidateId).mapM eventFromRow
  match events with
  | [] => .error (integrity "candidate has no durable lifecycle event")
  | first :: rest => do
      verifyRoot candidate first
      let (last, evidence) ← verifyRest first (rootEvidence candidate first) rest
      verifyEnd candidate first last evidence
      return first :: rest

end Reading

/-! ### Calls -/

section Calls

variable [UnicodeData] [InspectionPolicy] [Hashing] (s : CandidateStore)

/-- What the store holds for an identifier. -/
def CandidateStore.rowOf (candidateId : String) : Option CandidateRow :=
  s.candidates.find? (·.candidateId == candidateId)

/-- `_get_locked` -/
def getLocked (candidateId : String) : Except CandidateFailure ImportCandidate :=
  match s.rowOf candidateId with
  | none => .error ⟨.notFound, "import candidate not found: " ++ candidateId⟩
  | some row => candidateFromRow row

/-- `get` -/
def get (candidateId : String) : Except CandidateFailure ImportCandidate := do
  requireCandidateId candidateId
  let candidate ← getLocked s candidateId
  let _ ← verifyEventChain s candidate
  return candidate

/-- What the database raises for a row that breaks a constraint. -/
def failedIntegrityCheck : CandidateFailure :=
  integrity "import candidate database failed an integrity check"

/-- A number that is bound to a column. -/
def requireInt64 (value : Int) : Except CandidateFailure Unit :=
  require (-2 ^ 63 ≤ value ∧ value < 2 ^ 63)
    ⟨.overflowError, "Python int too large to convert to SQLite INTEGER"⟩

/-- The `INSERT` of a candidate: its identifier and its digest are new. -/
def insertCandidate (row : CandidateRow) : Except CandidateFailure CandidateStore := do
  requireInt64 row.expectedRunRevision
  require (∀ other ∈ s.candidates, other.candidateId ≠ row.candidateId ∧
    other.candidateDigest ≠ row.candidateDigest) failedIntegrityCheck
  return { s with candidates := s.candidates ++ [row] }

/-- `_insert_event`: the number in its chain and the digest are new. -/
def insertEvent (row : EventRow) : Except CandidateFailure CandidateStore := do
  requireInt64 row.sequence
  require (∀ other ∈ s.events, (other.candidateId, other.sequence) ≠
    (row.candidateId, row.sequence) ∧ other.eventDigest ≠ row.eventDigest) failedIntegrityCheck
  require (∃ candidate ∈ s.candidates, candidate.candidateId = row.candidateId)
    failedIntegrityCheck
  return { s with events := s.events ++ [row] }

/-- `create`, at a moment. -/
def create (draft : ImportCandidateDraft) (createdAt : DateTime) :
    Except CandidateFailure (ImportCandidate × CandidateStore) := do
  let event ← CandidateTransitionEvent.build {
    candidateId := draft.candidateId
    sequence := 0
    kind := .created
    previousState := none
    state := .pending
    actorId := draft.createdBy
    receiptDigest := some draft.inspectionReceiptDigest
    reason := none
    transitionedAt := createdAt
    previousEventDigest := CandidateTransitionEvent.zeroDigest
    eventDigest := "" }
  let candidate : ImportCandidate := {
    candidateId := draft.candidateId
    candidateDigest := draft.candidateDigest
    draft := draft
    inspectionPayloadDigest := draft.inspectionPayloadDigest
    state := .pending
    generation := 0
    resolutionReceiptDigest := none
    stageReceiptDigest := none
    terminalReason := none
    createdAt := createdAt
    updatedAt := createdAt
    lastEventDigest := event.eventDigest }
  candidate.checks
  match s.rowOf candidate.candidateId with
  | some row => do
      let existing ← candidateFromRow row
      let _ ← verifyEventChain s existing
      require (existing.candidateDigest = candidate.candidateDigest)
        (integrity "candidate ID collision has a different immutable digest")
      return (existing, s)
  | none => do
      let s ← insertCandidate s candidate.row
      let s ← insertEvent s event.row
      return (candidate, s)

/-- The request of a transition: to a state, with a receipt or a reason. -/
structure TransitionRequest where
  candidateId : String
  expectedGeneration : Int
  actorId : String
  target : CandidateState
  receiptDigest : Option String
  reason : Option String

/-- The checks on a request before the store is looked at. -/
def TransitionRequest.checks (request : TransitionRequest) : Except CandidateFailure Unit := do
  requireCandidateId request.candidateId
  require (0 ≤ request.expectedGeneration)
    (invalid "expected generation must be a non-negative integer")
  requirePublicId request.actorId "actor ID"
  if request.target = .resolved ∨ request.target = .staged then do
    require (∃ receipt ∈ request.receiptDigest, Text.isSha256 receipt = true)
      (invalid "transition receipt digest must be a lowercase SHA-256 digest")
    require (request.reason = none)
      (invalid "resolution/stage transitions do not accept a reason")
  else do
    require (request.receiptDigest = none)
      (invalid "terminal transitions do not accept a receipt digest")
    require (∃ reason ∈ request.reason, Text.isBlank reason = false ∧ reason = Text.strip reason)
      (invalid "terminal transition reason must be non-empty trimmed text")

/-- The row is still the one that the candidate was read from, as far as the `UPDATE` asks. -/
def CandidateRow.IsCurrent (row : CandidateRow) (candidate : ImportCandidate) : Prop :=
  row.candidateId = candidate.candidateId ∧ row.generation = candidate.generation ∧
    row.state = candidate.state.value ∧ row.lastEventDigest = candidate.lastEventDigest

instance (row : CandidateRow) (candidate : ImportCandidate) : Decidable (row.IsCurrent candidate) :=
  inferInstanceAs (Decidable (_ ∧ _))

/-- The columns that the `UPDATE` sets. -/
def CandidateRow.updated (row : CandidateRow) (next : ImportCandidate) : CandidateRow :=
  { row with
    state := next.state.value
    generation := next.generation
    resolutionReceiptDigest := next.resolutionReceiptDigest
    stageReceiptDigest := next.stageReceiptDigest
    terminalReason := next.terminalReason
    updatedAt := encodeTime next.updatedAt
    lastEventDigest := next.lastEventDigest }

/-- The `UPDATE` of a candidate. -/
def updateCandidate (candidate next : ImportCandidate) :
    Except CandidateFailure CandidateStore := do
  requireInt64 next.generation
  require ((s.candidates.filter (·.IsCurrent candidate)).length = 1) ⟨.concurrencyConflict,
    "candidate changed before compare-and-swap could commit"⟩
  return { s with
    candidates := s.candidates.map fun row =>
      if row.IsCurrent candidate then row.updated next else row }

/-- `_transition`, at a moment. -/
def transition (request : TransitionRequest) (transitionedAt : DateTime) :
    Except CandidateFailure (ImportCandidate × CandidateStore) := do
  request.checks
  let candidate ← getLocked s request.candidateId
  let _ ← verifyEventChain s candidate
  require (candidate.generation = request.expectedGeneration)
    ⟨.concurrencyConflict, "candidate generation changed after the caller read it"⟩
  require (request.target ∈ candidate.state.legalTransitions) ⟨.illegalTransition,
    "cannot transition import candidate from " ++ candidate.state.value ++ " to " ++
      request.target.value⟩
  require (¬ transitionedAt < candidate.updatedAt)
    (integrity "repository clock moved backwards during candidate transition")
  let nextGeneration := candidate.generation + 1
  let event ← CandidateTransitionEvent.build {
    candidateId := candidate.candidateId
    sequence := nextGeneration
    kind := .transitioned
    previousState := some candidate.state
    state := request.target
    actorId := request.actorId
    receiptDigest := request.receiptDigest
    reason := request.reason
    transitionedAt := transitionedAt
    previousEventDigest := candidate.lastEventDigest
    eventDigest := "" }
  let next := candidate.withTransition request.target nextGeneration transitionedAt
    event.eventDigest
    (if request.target = .resolved then request.receiptDigest else none)
    (if request.target = .staged then request.receiptDigest else none)
    request.reason
  next.checks
  let s ← updateCandidate s candidate next
  let s ← insertEvent s event.row
  return (next, s)

/-- `resolve` -/
def resolve (candidateId : String) (expectedGeneration : Int)
    (actorId resolutionReceiptDigest : String) : TransitionRequest :=
  ⟨candidateId, expectedGeneration, actorId, .resolved, some resolutionReceiptDigest, none⟩

/-- `mark_staged` -/
def markStaged (candidateId : String) (expectedGeneration : Int)
    (actorId stageReceiptDigest : String) : TransitionRequest :=
  ⟨candidateId, expectedGeneration, actorId, .staged, some stageReceiptDigest, none⟩

/-- `reject` -/
def reject (candidateId : String) (expectedGeneration : Int) (actorId reason : String) :
    TransitionRequest :=
  ⟨candidateId, expectedGeneration, actorId, .rejected, none, some reason⟩

/-- `invalidate` -/
def invalidate (candidateId : String) (expectedGeneration : Int) (actorId reason : String) :
    TransitionRequest :=
  ⟨candidateId, expectedGeneration, actorId, .invalidated, none, some reason⟩

end Calls

/-! ### Migration -/

section Migration

variable [UnicodeData] [InspectionPolicy] [Hashing]

/-- A row of `import_candidates` before the third schema: without the algorithm of its identity,
and perhaps without a project revision.  Before the second schema it had no last event either. -/
structure LegacyRow where
  row : CandidateRow
  expectedProjectRevision : Option String

/-- A database of the second schema: its keys are keys. -/
structure LegacyStore where
  candidates : List LegacyRow
  events : List EventRow
  candidateIds : (candidates.map (·.row.candidateId)).Nodup
  eventKeys : (events.map fun event => (event.candidateId, event.sequence)).Nodup

/-- `_migration_receipt` -/
def migrationReceipt (row : CandidateRow) : CandidateState → Option String
  | .staged => row.stageReceiptDigest
  | .resolved => row.resolutionReceiptDigest
  | .pending => some row.inspectionReceiptDigest
  | _ => none

/-- `_migration_reason` -/
def migrationReason (row : CandidateRow) (state : CandidateState) : String :=
  "schema-v1-migration:" ++ lifecycleSnapshotDigest row.candidateId state row.generation
    row.createdBy row.inspectionReceiptDigest
    ⟨row.resolutionReceiptDigest, row.stageReceiptDigest, row.terminalReason⟩
    row.createdAt row.updatedAt

/-- The event that seals a candidate of the first schema. -/
def migrationEvent (row : CandidateRow) : Except CandidateFailure CandidateTransitionEvent := do
  let state ← enumOf ⟨.invalid, "not a valid CandidateState"⟩ (CandidateState.ofValue row.state)
  let transitionedAt ← decodeTime row.updatedAt
  CandidateTransitionEvent.build {
    candidateId := row.candidateId
    sequence := row.generation
    kind := .migrated
    previousState := none
    state := state
    actorId := row.createdBy
    receiptDigest := migrationReceipt row state
    reason := some (migrationReason row state)
    transitionedAt := transitionedAt
    previousEventDigest := CandidateTransitionEvent.zeroDigest
    eventDigest := "" }

/-- `_v2_identity_scheme`: the one algorithm that reproduces the identity. -/
def identitySchemeOf (row : CandidateRow) : Except CandidateFailure CandidateIdentityScheme := do
  let diagnostics ← decodeDiagnostics row.diagnosticsJson
  let blockers ← decodeBlockers row.blockersJson
  require (diagnosticsDigest diagnostics = row.diagnosticsDigest)
    (integrity "version 2 diagnostics digest is inconsistent")
  require (blockersDigest blockers = row.blockersDigest)
    (integrity "version 2 blockers digest is inconsistent")
  let artifactKind ← enumOf (integrity "version 2 candidate identity is malformed")
    (ArtifactKind.ofValue row.artifactKind)
  let draft := fun scheme : CandidateIdentityScheme => ({
    artifactId := row.artifactId
    artifactSha256 := row.artifactSha256
    artifactKind := artifactKind
    projectId := row.projectId
    expectedProjectRevision := row.expectedProjectRevision
    runId := row.runId
    expectedRunRevision := row.expectedRunRevision
    inspectionPayloadJson := row.inspectionPayloadJson
    inspectionReceiptDigest := row.inspectionReceiptDigest
    diagnostics := diagnostics
    blockers := blockers
    createdBy := row.createdBy
    identityScheme := scheme } : ImportCandidateDraft)
  CandidateIdentityScheme.all.forM fun scheme =>
    constructed (integrity "version 2 candidate identity is malformed") (draft scheme).checks ()
  let matching := CandidateIdentityScheme.all.filter fun scheme =>
    (draft scheme).inspectionPayloadDigest = row.inspectionPayloadDigest ∧
      (draft scheme).candidateDigest = row.candidateDigest ∧
      (draft scheme).candidateId = row.candidateId
  match matching with
  | [scheme] => return scheme
  | _ => .error (integrity "version 2 candidate identity algorithm is ambiguous or invalid")

/-- The row of the third schema for a row of the second. -/
def migratedRow (legacy : LegacyRow) : Except CandidateFailure CandidateRow := do
  let expectedProjectRevision ← enumOf
    (integrity "version 2 candidate has no canonical project revision")
    legacy.expectedProjectRevision
  let row := { legacy.row with expectedProjectRevision := expectedProjectRevision }
  let scheme ← identitySchemeOf row
  return { row with identityScheme := scheme.value }

/-- `_migrate_v2_to_v3` -/
def migrateV2 (legacy : LegacyStore) : Except CandidateFailure CandidateStore := do
  let candidates ← legacy.candidates.mapM migratedRow
  require ((candidates.map (·.candidateDigest)).Nodup) failedIntegrityCheck
  let s : CandidateStore := ⟨candidates, legacy.events⟩
  candidates.forM fun row => do
    let candidate ← candidateFromRow row
    let _ ← verifyEventChain s candidate
    return ()
  require (∀ event ∈ legacy.events, ∃ row ∈ candidates, row.candidateId = event.candidateId)
    (integrity "version 2 migration broke event foreign-key bindings")
  return s

/-- The row of the second schema for a row of the first, and the event that seals it. -/
def sealedRow (legacy : LegacyRow) : Except CandidateFailure (LegacyRow × EventRow) := do
  let event ← migrationEvent legacy.row
  return ({ legacy with row := { legacy.row with lastEventDigest := event.eventDigest } }, event.row)

/-- `_migrate_v1_to_v2`, and the migration after it. -/
def migrateV1 (rows : List LegacyRow) : Except CandidateFailure CandidateStore := do
  let sealedRows ← rows.mapM sealedRow
  require ((sealedRows.map (·.2.eventDigest)).Nodup) failedIntegrityCheck
  if h : (sealedRows.map (·.1.row.candidateId)).Nodup ∧
      (sealedRows.map fun pair => (pair.2.candidateId, pair.2.sequence)).Nodup then
    migrateV2 ⟨sealedRows.map Prod.fst, sealedRows.map Prod.snd, by rw [List.map_map]; exact h.1,
      by rw [List.map_map]; exact h.2⟩
  else .error failedIntegrityCheck

end Migration

end Evleda.ImportCandidates
