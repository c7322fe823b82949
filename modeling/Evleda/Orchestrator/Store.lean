/-
The store of the orchestration core.

A run, its tasks, agents, questions, approvals, evidence and events are rows of seven
tables.  A row is written from a record and read back as that record, so a table is a
list of records; that the columns of a row agree with its body is then no check but a
fact.  The primary keys and the references to a run are kept as the database keeps
them.

Every method opens a transaction, and `commit_snapshot` calls the others inside its
own.  A method that finds the database locked by another connection raises before it
has done anything.
-/
import Evleda.Lib.Keyed
import Evleda.Lib.Linked
import Evleda.Lib.Transaction
import Evleda.Orchestrator.Records

namespace Evleda.Orchestrator

open Transacting Outcome

/-- What the store raises; what a record raises goes through it. -/
inductive StoreFailure where
  | storeError (message : String)
  | notFound (message : String)
  | concurrencyConflict (message : String)
  | eventChainError (message : String)
  | operationalError (message : String)
  | raised (failure : Failure)
  deriving DecidableEq, Repr

/-! ### Events -/

inductive EventType where
  | runCreated | runPhaseChanged | questionOpened | questionAnswered | approvalRequested
  | approvalDecided | taskQueued | taskLeased | taskHeartbeat | taskRetryScheduled | taskSucceeded
  | taskFailed | leaseExpired | evidenceCaptured | budgetChanged
  deriving DecidableEq, Repr

def EventType.value : EventType → String
  | .runCreated => "run.created"
  | .runPhaseChanged => "run.phase_changed"
  | .questionOpened => "question.opened"
  | .questionAnswered => "question.answered"
  | .approvalRequested => "approval.requested"
  | .approvalDecided => "approval.decided"
  | .taskQueued => "task.queued"
  | .taskLeased => "task.leased"
  | .taskHeartbeat => "task.heartbeat"
  | .taskRetryScheduled => "task.retry_scheduled"
  | .taskSucceeded => "task.succeeded"
  | .taskFailed => "task.failed"
  | .leaseExpired => "lease.expired"
  | .evidenceCaptured => "evidence.captured"
  | .budgetChanged => "budget.changed"

/-- A timezone-aware time: what its clock shows and how far the clock is from UTC, in
microseconds. -/
structure AwareDateTime where
  shown : Int
  offset : Int
  deriving DecidableEq, Repr

namespace AwareDateTime

/-- The offset as `isoformat` writes it; seconds and their fraction are left out when zero. -/
def offsetText (offset : Int) : String :=
  let seconds := offset.natAbs / 1000000
  let fraction := offset.natAbs % 1000000
  (if offset < 0 then "-" else "+") ++ Text.padded 2 (seconds / 3600) ++ ":" ++
    Text.padded 2 (seconds / 60 % 60) ++
      (if seconds % 60 = 0 ∧ fraction = 0 then "" else ":" ++ Text.padded 2 (seconds % 60)) ++
        (if fraction = 0 then "" else "." ++ Text.padded 6 fraction)

def isoformat (time : AwareDateTime) : String :=
  Text.dateTime time.shown ++
    (if Text.fraction time.shown = 0 then "" else "." ++ Text.padded 6 (Text.fraction time.shown)) ++
      offsetText time.offset

end AwareDateTime

structure OrchestrationEvent where
  id : String
  runId : String
  sequence : Int
  type : EventType
  actor : String
  occurredAt : AwareDateTime
  aggregateId : String
  payloadJson : String
  evidenceIds : List String
  previousHash : String
  eventHash : String
  deriving DecidableEq, Repr

namespace OrchestrationEvent

/-- What the hash of an event is taken over. -/
def hashMaterial (event : OrchestrationEvent) : Json :=
  Json.object [
    ("id", .str event.id),
    ("run_id", .str event.runId),
    ("sequence", .int event.sequence),
    ("type", .str event.type.value),
    ("actor", .str event.actor),
    ("occurred_at", .str event.occurredAt.isoformat),
    ("aggregate_id", .str event.aggregateId),
    ("payload_json", .str event.payloadJson),
    ("evidence_ids", .arr (event.evidenceIds.map .str)),
    ("previous_hash", .str event.previousHash)]

def validateHash [Hashing] (event : OrchestrationEvent) : Bool :=
  event.eventHash == Hashing.ofJson event.hashMaterial

end OrchestrationEvent

/-! ### Tables -/

/-- A run as it is stored. -/
structure StoredRun extends RunRecord where
  objective : String
  createdAt : AwareDateTime

structure Tables where
  runs : List StoredRun := []
  agents : List AgentRecord := []
  tasks : List TaskRecord := []
  questions : List Question := []
  approvals : List Approval := []
  evidence : List Evidence := []
  events : List OrchestrationEvent := []

/-- A call on the connection of the store. -/
abbrev StoreCall (α : Type) := Effect (Connection Tables) StoreFailure α

/-- What `BEGIN IMMEDIATE` raises when another connection is writing. -/
def locked : StoreFailure := .operationalError "database is locked"

def runKey (run : StoredRun) : String := run.id

def taskKey (task : TaskRecord) : String := task.id

namespace Tables

def getRun (runId : String) (t : Tables) : Except StoreFailure StoredRun :=
  match t.runs.find? (fun run => runKey run = runId) with
  | none => .error (.notFound ("run " ++ runId ++ " not found"))
  | some run => .ok run

/-- `ORDER BY wave, created_seq, id` -/
def listTasks (t : Tables) (runId : String) : List TaskRecord :=
  sortBy (fun task : TaskRecord => toLex (task.wave, toLex (task.createdSeq, task.id)))
    (t.tasks.filter fun task => task.runId = runId)

/-- `ORDER BY sequence` -/
def eventsOf (t : Tables) (runId : String) : List OrchestrationEvent :=
  sortBy OrchestrationEvent.sequence (t.events.filter fun event => event.runId = runId)

/-- Whether a reference to the run can be written. -/
def HasRun (t : Tables) (runId : String) : Prop := ∃ run ∈ t.runs, runKey run = runId

instance (t : Tables) (runId : String) : Decidable (t.HasRun runId) :=
  inferInstanceAs (Decidable (∃ run ∈ t.runs, runKey run = runId))

end Tables

namespace Store

open Effect (check each)

section Methods

variable [Hashing]

/-! ### Runs -/

def inventoryDigest (runId : String) (tasks : List TaskRecord) : Except StoreFailure String :=
  (taskInventoryDigest runId (tasks.map TaskRecord.toTask)).mapError .raised

/-- Where a digest is given, it is the one of the tasks. -/
def requireInventory (given : Option String) (runId : String) (tasks : List TaskRecord)
    (message : String) : Except StoreFailure Unit :=
  match given with
  | none => .ok ()
  | some digest =>
      inventoryDigest runId tasks >>= fun durable =>
        require (durable = digest) (.storeError message)

def insertRun (run : StoredRun) (t : Tables) : Except StoreFailure Tables :=
  if t.HasRun run.id then .error (.concurrencyConflict ("run " ++ run.id ++ " already exists"))
  else .ok { t with runs := t.runs ++ [run] }

/-- `UPDATE runs … WHERE id = ? AND revision = ?`, which has to change one row. -/
def updateRun (run : StoredRun) (expectedRevision : Int) (t : Tables) :
    Except StoreFailure Tables :=
  if ∃ row ∈ t.runs, runKey row = run.id ∧ (row.revision : Int) = expectedRevision then
    .ok { t with runs := Keyed.put runKey t.runs run }
  else .error (.concurrencyConflict
    ("run " ++ run.id ++ " is not at revision " ++ toString expectedRevision))

/-- `save_run` with `expected_revision=None` -/
def saveNewRun (run : StoredRun) : StoreCall Unit := do
  check (require (run.revision = 0)
    (.concurrencyConflict "new runs must start at revision zero"))
  check (requireInventory run.taskInventoryDigest run.id []
    "a new run cannot seal tasks before its durable row exists")
  statement (insertRun run)

/-- `save_run` with an expected revision -/
def saveUpdatedRun (run : StoredRun) (expectedRevision : Int) : StoreCall Unit := do
  let current ← query (Tables.getRun run.id)
  check (require
    (current.taskInventoryDigest.isSome → run.taskInventoryDigest = current.taskInventoryDigest)
    (.storeError "a sealed task inventory digest is immutable"))
  query fun t => requireInventory run.taskInventoryDigest run.id (t.listTasks run.id)
    "run task inventory does not match all durable task contracts"
  check (require ((run.revision : Int) = expectedRevision + 1)
    (.concurrencyConflict "updated run revision must be exactly expected_revision + 1"))
  statement (updateRun run expectedRevision)

def saveRun (run : StoredRun) (expectedRevision : Option Int) : StoreCall Unit :=
  transaction locked (match expectedRevision with
    | none => saveNewRun run
    | some revision => saveUpdatedRun run revision)

/-! ### Rows that belong to a run -/

/-- `INSERT … ON CONFLICT(id) DO UPDATE … WHERE run_id = excluded.run_id`, which has to change one
row. -/
def upsert {α : Type} (table : String) (id runId : α → String) (item : α) (t : Tables)
    (rows : List α) : Except StoreFailure (List α) :=
  match rows.find? (fun row => id row = id item) with
  | some row =>
      if runId row = runId item then .ok (Keyed.assign id rows item)
      else .error (.storeError
        ("cannot move " ++ table ++ " record " ++ id item ++ " between runs"))
  | none =>
      if t.HasRun (runId item) then .ok (Keyed.assign id rows item)
      else .error (.storeError ("cannot persist " ++ table ++ " record " ++ id item))

/-- `_put_mutable` -/
def putMutable {α : Type} (table : String) (id runId : α → String) (rows : Tables → List α)
    (withRows : Tables → List α → Tables) (item : α) : StoreCall Unit :=
  transaction locked (statement fun t => withRows t <$> upsert table id runId item t (rows t))

def putTaskUnchecked (task : TaskRecord) : StoreCall Unit :=
  putMutable "tasks" taskKey (fun task => task.runId) Tables.tasks
    (fun t rows => { t with tasks := rows }) task

def putTask (task : TaskRecord) : StoreCall Unit :=
  transaction locked do
    let run ← query (Tables.getRun task.runId)
    query fun t => requireInventory run.taskInventoryDigest run.id
      (Keyed.assign taskKey (t.listTasks run.id) task)
      "task write would change the sealed task inventory"
    putTaskUnchecked task

def putAgent (agent : AgentRecord) : StoreCall Unit :=
  putMutable "agents" (fun agent => agent.id) (fun agent => agent.runId) Tables.agents
    (fun t rows => { t with agents := rows }) agent

def putQuestion (question : Question) : StoreCall Unit :=
  putMutable "questions" Question.id Question.runId Tables.questions
    (fun t rows => { t with questions := rows }) question

def putApproval (approval : Approval) : StoreCall Unit :=
  putMutable "approvals" Approval.id Approval.runId Tables.approvals
    (fun t rows => { t with approvals := rows }) approval

/-! ### Evidence -/

def insertEvidence (item : Evidence) (t : Tables) : Except StoreFailure Tables :=
  if (∃ row ∈ t.evidence, row.id = item.id) ∨ ¬ t.HasRun item.runId then
    .error (.storeError ("evidence " ++ item.id ++ " already exists or is invalid"))
  else .ok { t with evidence := t.evidence ++ [item] }

/-- Insert immutable evidence; an identifier is never overwritten. -/
def captureEvidence (item : Evidence) : StoreCall Unit :=
  transaction locked (statement (insertEvidence item))

/-! ### The event log -/

/-- The chain from an expected sequence number and a previous hash on. -/
def verifyEvents : Int → String → List OrchestrationEvent → Except StoreFailure Unit
  | _, _, [] => .ok ()
  | expectedSequence, previous, event :: events => do
      require (event.sequence = expectedSequence)
        (.eventChainError "event chain has a sequence gap")
      require (event.previousHash = previous ∧ event.validateHash)
        (.eventChainError
          ("event chain validation failed at sequence " ++ toString event.sequence))
      verifyEvents (expectedSequence + 1) event.eventHash events

def listEvents (runId : String) (verify : Bool) (t : Tables) :
    Except StoreFailure (List OrchestrationEvent) := do
  requireWhen verify (verifyEvents 1 "" (t.eventsOf runId))
  return t.eventsOf runId

def insertEvent (event : OrchestrationEvent) (t : Tables) : Except StoreFailure Tables :=
  if (∃ row ∈ t.events,
      (row.runId = event.runId ∧ row.sequence = event.sequence) ∨ row.id = event.id) ∨
      ¬ t.HasRun event.runId then
    .error (.eventChainError ("event " ++ event.id ++ " conflicts with durable state"))
  else .ok { t with events := t.events ++ [event] }

/-- The evidence is there and belongs to the run. -/
def requireEvidence (runId : String) (t : Tables) (evidenceId : String) :
    Except StoreFailure Unit :=
  require ((t.evidence.find? (fun row => row.id = evidenceId)).map Evidence.runId = some runId)
    (.eventChainError
      ("event evidence " ++ evidenceId ++ " is missing or belongs to another run"))

/-- Append only if sequence, prior hash, evidence, and event hash all agree. -/
def appendEvent (event : OrchestrationEvent) : StoreCall Unit := do
  check (require event.validateHash (.eventChainError "event contents fail their own digest"))
  transaction locked do
    let existing ← query (listEvents event.runId true)
    let tail := existing.getLast?
    let expectedSequence := (tail.map fun last => last.sequence + 1).getD 1
    let expectedPrevious := (tail.map OrchestrationEvent.eventHash).getD ""
    check (require (event.sequence = expectedSequence)
      (.eventChainError ("expected event sequence " ++ toString expectedSequence ++ ", got " ++
        toString event.sequence)))
    check (require (event.previousHash = expectedPrevious)
      (.eventChainError "event previous_hash does not match durable tail"))
    query fun t => event.evidenceIds.forM (requireEvidence event.runId t)
    statement (insertEvent event)

/-! ### Snapshots -/

/-- A scheduling decision and its evidence. -/
structure Snapshot where
  run : StoredRun
  expectedRevision : Int
  tasks : List TaskRecord := []
  agents : List AgentRecord := []
  questions : List Question := []
  approvals : List Approval := []
  evidence : List Evidence := []
  events : List OrchestrationEvent := []

/-- The tasks go first when this snapshot seals them, and after the run otherwise. -/
def saveWithTasks (snapshot : Snapshot) (sealingInventory : Bool) : StoreCall Unit :=
  if sealingInventory then do
    each putTask snapshot.tasks
    saveRun snapshot.run (some snapshot.expectedRevision)
  else do
    saveRun snapshot.run (some snapshot.expectedRevision)
    each putTask snapshot.tasks

/-- What is written after the run and its tasks. -/
def saveOthers (snapshot : Snapshot) : StoreCall Unit := do
  each putAgent snapshot.agents
  each putQuestion snapshot.questions
  each putApproval snapshot.approvals
  each captureEvidence snapshot.evidence
  each appendEvent snapshot.events

def commitSnapshot (snapshot : Snapshot) : StoreCall Unit :=
  transaction locked do
    let current ← query (Tables.getRun snapshot.run.id)
    saveWithTasks snapshot
      (current.taskInventoryDigest.isNone && snapshot.run.taskInventoryDigest.isSome)
    saveOthers snapshot

/-! ### What a call that returns has done -/

variable {t t' : Tables} {u : Unit}

omit [Hashing] in
theorem getRun_ok {runId : String} {run : StoredRun} (h : Tables.getRun runId t = .ok run) :
    run ∈ t.runs ∧ runKey run = runId := by
  unfold Tables.getRun at h
  split at h
  · cases h
  · rename_i row hfound
    cases h
    exact ⟨List.mem_of_find?_eq_some hfound, by simpa using List.find?_some hfound⟩

theorem requireInventory_ok {given : Option String} {runId : String} {tasks : List TaskRecord}
    {message : String} : requireInventory given runId tasks message = .ok u ↔
      ∀ digest ∈ given, inventoryDigest runId tasks = .ok digest := by
  unfold requireInventory
  cases given with
  | none => exact iff_of_true rfl fun _ h => absurd h (Option.not_mem_none _)
  | some digest =>
      dsimp only
      rw [bind_ok]
      constructor
      · rintro ⟨durable, hdurable, h⟩ digest' hmem
        cases hmem
        rw [hdurable, require_ok.mp h]
      · intro h
        exact ⟨digest, h digest rfl, require_ok.mpr rfl⟩

theorem saveNewRun_nestable (run : StoredRun) : Nestable (saveNewRun run) :=
  (Nestable.check _).bind fun _ => (Nestable.check _).bind fun _ => .statement _

theorem saveUpdatedRun_nestable (run : StoredRun) (revision : Int) :
    Nestable (saveUpdatedRun run revision) :=
  (Nestable.query _).bind fun _ => (Nestable.check _).bind fun _ => (Nestable.query _).bind fun _ =>
    (Nestable.check _).bind fun _ => .statement _

theorem saveRun_nestable (run : StoredRun) (expectedRevision : Option Int) :
    Nestable (saveRun run expectedRevision) := by
  cases expectedRevision with
  | none => exact (saveNewRun_nestable run).transaction
  | some revision => exact (saveUpdatedRun_nestable run revision).transaction

theorem saveNewRun_returns {run : StoredRun}
    (h : (inside (saveRun run none)).run t = (.ok u, t')) :
    ¬ t.HasRun run.id ∧ (∀ digest ∈ run.taskInventoryDigest,
      inventoryDigest run.id [] = .ok digest) ∧ t' = { t with runs := t.runs ++ [run] } := by
  have hinside : inside (saveRun run none) = inside (saveNewRun run) :=
    (saveNewRun_nestable run).inside_transaction
  rw [hinside] at h
  unfold saveNewRun at h
  obtain ⟨-, -, h⟩ := check_bind_returns.mp h
  obtain ⟨_, hinventory, h⟩ := check_bind_returns.mp h
  have hinsert := statement_returns.mp h
  unfold insertRun at hinsert
  split at hinsert
  · cases hinsert
  · rename_i hnew
    cases hinsert
    exact ⟨hnew, requireInventory_ok.mp hinventory, rfl⟩

/-- What an update that was accepted has found and left. -/
structure Updated (run : StoredRun) (revision : Int) (t t' : Tables) : Prop where
  found : ∃ row ∈ t.runs, runKey row = run.id ∧ (row.revision : Int) = revision
  next : (run.revision : Int) = revision + 1
  kept : ∃ current ∈ t.runs, runKey current = run.id ∧
    (current.taskInventoryDigest.isSome → run.taskInventoryDigest = current.taskInventoryDigest)
  inventory : ∀ digest ∈ run.taskInventoryDigest,
    inventoryDigest run.id (t.listTasks run.id) = .ok digest
  written : t' = { t with runs := Keyed.put runKey t.runs run }

theorem saveUpdatedRun_returns {run : StoredRun} {revision : Int}
    (h : (inside (saveRun run (some revision))).run t = (.ok u, t')) :
    Updated run revision t t' := by
  have hinside : inside (saveRun run (some revision)) = inside (saveUpdatedRun run revision) :=
    (saveUpdatedRun_nestable run revision).inside_transaction
  rw [hinside] at h
  unfold saveUpdatedRun at h
  obtain ⟨current, hcurrent, h⟩ := query_bind_returns.mp h
  obtain ⟨_, hkept, h⟩ := check_bind_returns.mp h
  obtain ⟨_, hinventory, h⟩ := query_bind_returns.mp h
  obtain ⟨_, hnext, h⟩ := check_bind_returns.mp h
  have hwrite := statement_returns.mp h
  unfold updateRun at hwrite
  split at hwrite
  · rename_i hfound
    cases hwrite
    obtain ⟨hmem, hkey⟩ := getRun_ok hcurrent
    exact {
      found := hfound
      next := require_ok.mp hnext
      kept := ⟨current, hmem, hkey, require_ok.mp hkept⟩
      inventory := requireInventory_ok.mp hinventory
      written := rfl }
  · cases hwrite

omit [Hashing] in
theorem upsert_ok {α : Type} {table : String} {id runId : α → String} {item : α} {rows rows' : List α}
    (hnodup : (rows.map id).Nodup) (h : upsert table id runId item t rows = .ok rows') :
    rows' = Keyed.assign id rows item ∧
      ((∃ row ∈ rows, runId row = runId item) ∨ t.HasRun (runId item)) ∧
        ∀ row ∈ rows, id row = id item → runId row = runId item := by
  unfold upsert at h
  split at h
  · rename_i row hfound
    have hmem := List.mem_of_find?_eq_some hfound
    have hid : id row = id item := by simpa using List.find?_some hfound
    split at h
    · rename_i hrun
      cases h
      refine ⟨rfl, Or.inl ⟨row, hmem, hrun⟩, fun other hother hkey => ?_⟩
      rw [List.inj_on_of_nodup_map hnodup hother hmem (hkey.trans hid.symm)]
      exact hrun
    · cases h
  · rename_i hnone
    split at h
    · rename_i hrun
      cases h
      refine ⟨rfl, Or.inr hrun, fun other hother hkey => ?_⟩
      have hne := List.find?_eq_none.mp hnone other hother
      rw [decide_eq_true_eq] at hne
      exact absurd hkey hne
    · cases h

section Rows

omit [Hashing]

variable {α : Type} {table : String} {id runId : α → String} {rows : Tables → List α}
  {withRows : Tables → List α → Tables} {item : α}

theorem putMutable_nestable : Nestable (putMutable table id runId rows withRows item) :=
  (Nestable.statement _).transaction

theorem putMutable_returns
    (h : (inside (putMutable table id runId rows withRows item)).run t = (.ok u, t')) :
    ∃ rows', upsert table id runId item t (rows t) = .ok rows' ∧ t' = withRows t rows' := by
  have hinside : inside (putMutable table id runId rows withRows item) = inside (statement fun t =>
      withRows t <$> upsert table id runId item t (rows t)) :=
    (Nestable.statement _).inside_transaction
  rw [hinside, statement_returns, map_ok] at h
  obtain ⟨rows', hrows, rfl⟩ := h
  exact ⟨rows', hrows, rfl⟩

end Rows

/-- What a task that was accepted has found and left. -/
structure Put (task : TaskRecord) (t t' : Tables) : Prop where
  inventory : ∃ run ∈ t.runs, runKey run = task.runId ∧ ∀ digest ∈ run.taskInventoryDigest,
    inventoryDigest run.id (Keyed.assign taskKey (t.listTasks run.id) task) = .ok digest
  stays : ∀ row ∈ t.tasks, taskKey row = taskKey task → row.runId = task.runId
  written : t' = { t with tasks := Keyed.assign taskKey t.tasks task }

theorem putTask_nestable (task : TaskRecord) : Nestable (putTask task) :=
  ((Nestable.query _).bind fun _ => (Nestable.query _).bind fun _ =>
    putMutable_nestable).transaction

theorem putTask_returns {task : TaskRecord} (hnodup : (t.tasks.map taskKey).Nodup)
    (h : (inside (putTask task)).run t = (.ok u, t')) : Put task t t' := by
  unfold putTask at h
  rw [Nestable.inside_transaction] at h
  · obtain ⟨run, hrun, h⟩ := query_bind_returns.mp h
    obtain ⟨_, hinventory, h⟩ := query_bind_returns.mp h
    obtain ⟨rows, hrows, rfl⟩ := putMutable_returns h
    obtain ⟨rfl, -, hstays⟩ := upsert_ok hnodup hrows
    obtain ⟨hmem, hkey⟩ := getRun_ok hrun
    exact {
      inventory := ⟨run, hmem, hkey, requireInventory_ok.mp hinventory⟩
      stays := hstays
      written := rfl }
  · exact (Nestable.query _).bind fun _ => (Nestable.query _).bind fun _ => putMutable_nestable

omit [Hashing] in
theorem captureEvidence_nestable (item : Evidence) : Nestable (captureEvidence item) :=
  (Nestable.statement _).transaction

omit [Hashing] in
theorem captureEvidence_returns {item : Evidence}
    (h : (inside (captureEvidence item)).run t = (.ok u, t')) :
    t' = { t with evidence := t.evidence ++ [item] } := by
  have hinside : inside (captureEvidence item) = inside (statement (insertEvidence item)) :=
    (Nestable.statement _).inside_transaction
  rw [hinside, statement_returns] at h
  unfold insertEvidence at h
  split at h
  · cases h
  · cases h
    rfl

/-- What an event that was accepted has found and left. -/
structure Appended (event : OrchestrationEvent) (t t' : Tables) : Prop where
  valid : event.validateHash = true
  sequence : event.sequence =
    ((t.eventsOf event.runId).getLast?.map fun last => last.sequence + 1).getD 1
  previous : event.previousHash =
    ((t.eventsOf event.runId).getLast?.map OrchestrationEvent.eventHash).getD ""
  written : t' = { t with events := t.events ++ [event] }

theorem appendEvent_nestable (event : OrchestrationEvent) : Nestable (appendEvent event) :=
  (Nestable.check _).bind fun _ => ((Nestable.query _).bind fun _ => (Nestable.check _).bind fun _ =>
    (Nestable.check _).bind fun _ => (Nestable.query _).bind fun _ =>
      .statement _).transaction

theorem listEvents_ok {runId : String} {verify : Bool} {events : List OrchestrationEvent}
    (h : listEvents runId verify t = .ok events) : events = t.eventsOf runId := by
  unfold listEvents at h
  obtain ⟨_, -, h⟩ := bind_ok.mp h
  exact (pure_ok.mp h).symm

theorem appendEvent_returns {event : OrchestrationEvent}
    (h : (inside (appendEvent event)).run t = (.ok u, t')) : Appended event t t' := by
  unfold appendEvent at h
  obtain ⟨_, hvalid, h⟩ := check_bind_returns.mp h
  rw [Nestable.inside_transaction] at h
  · obtain ⟨existing, hexisting, h⟩ := query_bind_returns.mp h
    obtain rfl := listEvents_ok hexisting
    obtain ⟨_, hsequence, h⟩ := check_bind_returns.mp h
    obtain ⟨_, hprevious, h⟩ := check_bind_returns.mp h
    obtain ⟨_, -, h⟩ := query_bind_returns.mp h
    have hinsert := statement_returns.mp h
    unfold insertEvent at hinsert
    split at hinsert
    · cases hinsert
    · cases hinsert
      exact {
        valid := require_ok.mp hvalid
        sequence := require_ok.mp hsequence
        previous := require_ok.mp hprevious
        written := rfl }
  · exact (Nestable.query _).bind fun _ => (Nestable.check _).bind fun _ =>
      (Nestable.check _).bind fun _ => (Nestable.query _).bind fun _ => .statement _

end Methods

end Store

end Evleda.Orchestrator
