/-
The scheduler: leases, retries, waves and evidence.

Every operation is a function from records to records that may raise.  `start`,
`heartbeat`, `succeed` and `fail` take one task and one agent; `schedule` and
`reap_expired_leases` take all of a run's.  The dictionaries they keep while
they work are lists of records whose identifiers are known to be distinct, and
an assignment replaces the record under its identifier.

A lease carries a token, the code of everything the lease binds under a key the
deployment keeps; whoever presents a token is checked against the lease of the
task and the token against the code.
-/
import Evleda.Lib.Keyed
import Evleda.Orchestrator.Records

namespace Evleda.Orchestrator

/-! ### Orders and indexes -/

def taskOrder (task : TaskRecord) : Int ×ₗ Int ×ₗ Int ×ₗ String :=
  toLex (task.wave, toLex (-task.priority, toLex (task.createdSeq, task.id)))

def agentOrder (agent : AgentRecord) : Int ×ₗ Int ×ₗ String :=
  toLex (agent.wave, toLex (agent.createdSeq, agent.id))

/-- The first identifier met again. -/
def firstRepeated (seen : List String) : List String → Option String
  | [] => none
  | id :: rest => if id ∈ seen then some id else firstRepeated (id :: seen) rest

/-- `_index_unique`, as far as it checks. -/
def indexUnique (ids : List String) : Except SchedulerFailure Unit :=
  match firstRepeated [] ids with
  | some key => .error (.schedulingError ("duplicate ID " ++ key))
  | none => .ok ()

def taskById (tasks : List TaskRecord) (id : String) : Option TaskRecord :=
  tasks.find? (fun task => task.id == id)

def agentById (agents : List AgentRecord) (id : String) : Option AgentRecord :=
  agents.find? (fun agent => agent.id == id)

/-- `tasks[task.id] = task` -/
def putTask (tasks : List TaskRecord) (task : TaskRecord) : List TaskRecord :=
  Keyed.put (fun other => other.id) tasks task

/-- `agents[agent.id] = agent` -/
def putAgent (agents : List AgentRecord) (agent : AgentRecord) : List AgentRecord :=
  Keyed.put (fun other => other.id) agents agent

/-- The tasks of a result, in the order they are returned in. -/
def resultTasks (tasks : List TaskRecord) : List TaskRecord :=
  sortBy (fun task => (toLex (task.createdSeq, task.id) : Int ×ₗ String)) tasks

/-- The agents of a result, in the order they are returned in. -/
def resultAgents (agents : List AgentRecord) : List AgentRecord :=
  sortBy (fun agent => (toLex (agent.createdSeq, agent.id) : Int ×ₗ String)) agents

/-- `assert_acyclic`'s walk below one task: the tasks visited, with those found.  A walk is never
deeper than there are tasks, because what is being visited is not entered again. -/
def visit (tasks : List TaskRecord) (fuel : Nat) (visiting visited : List String) (id : String) :
    Except SchedulerFailure (List String) :=
  match fuel with
  | 0 => .error (.domainError ("task dependency cycle includes " ++ id))
  | fuel + 1 => do
      require (id ∉ visiting) (.domainError ("task dependency cycle includes " ++ id))
      if id ∈ visited then return visited
      let dependencies := (taskById tasks id).elim [] (fun task => task.dependencies)
      let found ← dependencies.foldlM (fun seen dependency =>
        visit tasks fuel (id :: visiting) seen dependency) visited
      return id :: found

def assertAcyclic (tasks : List TaskRecord) : Except SchedulerFailure Unit := do
  require ((tasks.map (fun task => task.id)).Nodup) (.domainError "task IDs must be unique")
  tasks.forM (fun task => task.dependencies.forM (fun dependency =>
    match taskById tasks dependency with
    | none => .error (.domainError ("task " ++ task.id ++ " has missing dependency " ++ dependency))
    | some other => require (other.runId = task.runId)
        (.domainError "task dependencies cannot cross runs")))
  let _ ← ((tasks.map (fun task => task.id)).insertionSort (· ≤ ·)).foldlM
    (fun visited id => visit tasks (tasks.length + 1) [] visited id) []
  return ()

/-! ### Membership -/

/-- `_validate_membership`'s check of one task, with the agents that hold a lease so far. -/
def checkTaskMembership (agents : List AgentRecord) (holders : List String) (task : TaskRecord) :
    Except SchedulerFailure (List String) :=
  if task.isActive then
    match task.lease with
    | none => .error .assertionError
    | some lease => do
        require (lease.agentId ∉ holders)
          (.schedulingError "one agent cannot hold multiple active task leases")
        require (∃ agent ∈ agentById agents lease.agentId,
            agent.isActive ∧ agent.currentTaskId = some task.id)
          (.schedulingError "active task lease has no matching active agent")
        return lease.agentId :: holders
  else .ok holders

/-- `_validate_membership`'s check of one agent. -/
def checkAgentMembership (tasks : List TaskRecord) (agent : AgentRecord) :
    Except SchedulerFailure Unit :=
  if agent.isActive then
    match agent.currentTaskId with
    | none => .error .assertionError
    | some taskId =>
        require (∃ task ∈ taskById tasks taskId, task.isActive ∧
            ∃ lease ∈ task.lease, lease.agentId = agent.id)
          (.schedulingError "active agent has no matching active task lease")
  else .ok ()

def validateMembership (run : RunRecord) (tasks : List TaskRecord) (agents : List AgentRecord) :
    Except SchedulerFailure Unit := do
  indexUnique (tasks.map (fun task => task.id))
  indexUnique (agents.map (fun agent => agent.id))
  require (∀ task ∈ tasks, task.runId = run.id)
    (.schedulingError "all tasks must belong to the scheduled run")
  require (∀ agent ∈ agents, agent.runId = run.id)
    (.schedulingError "all agents must belong to the scheduled run")
  let _ ← tasks.foldlM (checkTaskMembership agents) []
  agents.forM (checkAgentMembership tasks)

/-! ### Leases -/

section Leases

variable [Hashing]

/-- `_canonical_time` -/
def canonicalTime (t : DateTime) : String := t.isoformat ++ "Z"

/-- `_agent_contract_digest` -/
def agentContractDigest (agent : AgentRecord) : String :=
  Hashing.ofJson (Json.object [
    ("scope", .str "flux-clone-orchestrator-agent-contract-v1"),
    ("run_id", .str agent.runId),
    ("agent_id", .str agent.id),
    ("name", .str agent.name),
    ("created_seq", .int agent.createdSeq),
    ("agent_class", .str agent.agentClass.value),
    ("parent_agent_id", optionalText agent.parentAgentId),
    ("capabilities", sortedTexts agent.capabilities),
    ("wave", .int agent.wave)])

/-- What a lease token is the code of. -/
structure LeaseMaterial where
  runId : String
  taskId : String
  agentId : String
  attempt : Int
  acquiredAt : DateTime
  expiresAt : DateTime
  taskContractDigest : String
  agentContractDigest : String

def LeaseMaterial.json (m : LeaseMaterial) : Json :=
  Json.object [
    ("scope", .str "flux-clone-orchestrator-lease-v1"),
    ("run_id", .str m.runId),
    ("task_id", .str m.taskId),
    ("agent_id", .str m.agentId),
    ("attempt", .int m.attempt),
    ("acquired_at", .str (canonicalTime m.acquiredAt)),
    ("expires_at", .str (canonicalTime m.expiresAt)),
    ("task_contract_digest", .str m.taskContractDigest),
    ("agent_contract_digest", .str m.agentContractDigest)]

variable [KeyedHashing]

/-- `_lease_token` -/
def leaseToken (signingKey : List UInt8) (m : LeaseMaterial) : String :=
  KeyedHashing.ofJson signingKey m.json

/-- A lease of the material, signed, as the constructor takes it. -/
def signedLease (signingKey : List UInt8) (m : LeaseMaterial) : Except SchedulerFailure Lease :=
  Lease.postInit {
    token := leaseToken signingKey m
    taskId := m.taskId
    agentId := m.agentId
    attempt := m.attempt
    acquiredAt := m.acquiredAt
    expiresAt := m.expiresAt
    taskContractDigest := m.taskContractDigest
    agentContractDigest := m.agentContractDigest }

/-- `_validate_lease` -/
def validateLease (signingKey : List UInt8) (task : TaskRecord) (agent : AgentRecord)
    (token : String) (at' : DateTime) (allowExpired : Bool) : Except SchedulerFailure Lease := do
  require (32 ≤ signingKey.length)
    (.leaseRejected "lease signing key must contain at least 32 bytes")
  match task.lease with
  | none => .error (.leaseRejected "task has no active lease")
  | some lease => do
      require (lease.token = token) (.leaseRejected "lease token does not match")
      require (lease.taskId = task.id ∧ lease.agentId = agent.id ∧
          agent.currentTaskId = some task.id ∧ lease.attempt = task.attempt ∧
          task.runId = agent.runId)
        (.leaseRejected "lease is bound to a different task or agent")
      require (lease.taskContractDigest = taskContractDigest task.toTask ∧
          lease.agentContractDigest = agentContractDigest agent)
        (.leaseRejected "lease assignment contract has changed")
      require (leaseToken signingKey {
          runId := task.runId
          taskId := task.id
          agentId := agent.id
          attempt := lease.attempt
          acquiredAt := lease.acquiredAt
          expiresAt := lease.expiresAt
          taskContractDigest := taskContractDigest task.toTask
          agentContractDigest := agentContractDigest agent } = lease.token)
        (.leaseRejected "lease HMAC is invalid")
      require (lease.acquiredAt ≤ at')
        (.leaseRejected "scheduler clock moved before lease acquisition")
      require (∀ heartbeat ∈ agent.lastHeartbeatAt, heartbeat ≤ at')
        (.leaseRejected "scheduler clock moved before the last heartbeat")
      require (allowExpired = false → at' < lease.expiresAt)
        (.leaseRejected "lease has expired")
      return lease

/-- `at + timedelta(seconds=seconds)` -/
def laterBy (at' : DateTime) (seconds : Int) : Except SchedulerFailure DateTime :=
  match at'.addSeconds seconds with
  | none => .error .overflowError
  | some later => .ok later

end Leases

/-! ### One task and its agent -/

structure CompletionResult where
  task : TaskRecord
  agent : AgentRecord
  budget : Budget

/-- `_validate_settlement_inputs` -/
def validateSettlementInputs (actualTokens actualToolCalls : Int) : Except SchedulerFailure Unit :=
  require (0 ≤ actualTokens ∧ 0 ≤ actualToolCalls)
    (.schedulingError "actual usage values cannot be negative")

/-- What one finished assignment gives back. -/
def assignmentSettlement (task : TaskRecord) (actualTokens actualToolCalls : Int) :
    Budget.Settlement where
  reservedTokens := task.estimatedTokens
  actualTokens := actualTokens
  reservedToolCalls := 0
  actualToolCalls := actualToolCalls
  reservedAgentDispatches := 1
  actualAgentDispatches := 1

/-- The agent after its assignment is over. -/
def releasedAgent (agent : AgentRecord) (at' : DateTime) : Except SchedulerFailure AgentRecord :=
  AgentRecord.postInit { agent with
    state := .available
    currentTaskId := none
    lastHeartbeatAt := some at' }

/-- What a worker says of an attempt that failed. -/
structure FailureReport where
  failureCode : String
  failureMessage : String
  retryable : Bool
  actualTokens : Int
  actualToolCalls : Int

/-- When a failed task may be tried again. -/
def nextEligible (task : TaskRecord) (canRetry : Bool) (at' : DateTime) :
    Except SchedulerFailure (Option DateTime) :=
  if canRetry then do
    let seconds ← task.retryPolicy.delaySeconds task.attempt
    let later ← laterBy at' seconds
    return some later
  else .ok none

/-- `_fail_validated` -/
def failValidated (task : TaskRecord) (agent : AgentRecord) (budget : Budget)
    (report : FailureReport) (at' : DateTime) : Except SchedulerFailure CompletionResult := do
  require (report.failureCode ≠ "" ∧ report.failureMessage ≠ "")
    (.schedulingError "failure code and message are required")
  validateSettlementInputs report.actualTokens report.actualToolCalls
  let canRetry := report.retryable && decide (task.attempt < task.retryPolicy.maxAttempts)
  let eligible ← nextEligible task canRetry at'
  let settled ← budget.settle
    (assignmentSettlement task report.actualTokens report.actualToolCalls)
  let failed ← TaskRecord.postInit { task with
    state := if canRetry then .retryWait else .failed
    nextEligibleAt := eligible
    lease := none
    failureCode := some report.failureCode
    failureMessage := some report.failureMessage }
  let released ← releasedAgent agent at'
  return ⟨failed, released, settled⟩

/-- The evidence of the design checks, as it was met; two results for one check are refused. -/
def checkResult (results : List (String × Evidence)) (item : Evidence) :
    Except SchedulerFailure (List (String × Evidence)) :=
  if item.kind = .designCheck then
    match item.checkId, item.passed with
    | some checkId, some _ => do
        require (checkId ∉ results.map Prod.fst)
          (.evidenceRejected ("duplicate results for design check " ++ checkId))
        return results ++ [(checkId, item)]
    | _, _ => .error (.evidenceRejected "design-check evidence is incomplete")
  else .ok results

/-- One required check came from its trusted source under its policy. -/
def checkRequirement (results : List (String × Evidence)) (requirement : CheckRequirement) :
    Except SchedulerFailure Unit :=
  match results.lookup requirement.checkId with
  | none => .error (.evidenceRejected ("required checks missing: " ++ requirement.checkId))
  | some result => do
      require (result.source = requirement.source)
        (.evidenceRejected ("check " ++ requirement.checkId ++ " came from untrusted source " ++
          result.source))
      require (result.policyDigest = some requirement.policyDigest)
        (.evidenceRejected ("check " ++ requirement.checkId ++
          " used the wrong deterministic policy revision"))

/-- `_validate_evidence` -/
def validateEvidence (task : TaskRecord) (evidence : List Evidence) :
    Except SchedulerFailure Unit := do
  require (evidence ≠ []) (.evidenceRejected "successful work requires immutable evidence")
  require ((evidence.map Evidence.id).Nodup) (.evidenceRejected "evidence IDs must be unique")
  require (∀ item ∈ evidence, item.runId = task.runId ∧ item.taskId = some task.id)
    (.evidenceRejected "evidence is bound to a different run or task")
  let results ← evidence.foldlM checkResult []
  let failed := (results.filter (fun entry => entry.2.passed ≠ some true)).map Prod.fst
  require (failed = []) (.evidenceRejected ("deterministic checks failed: " ++
    ", ".intercalate (failed.insertionSort (· ≤ ·))))
  let missing := (task.requiredChecks.map CheckRequirement.checkId).filter
    (fun checkId => checkId ∉ results.map Prod.fst)
  require (missing = []) (.evidenceRejected ("required checks missing: " ++
    ", ".intercalate (missing.insertionSort (· ≤ ·))))
  task.requiredChecks.forM (checkRequirement results)

section Workers

variable [Hashing] [KeyedHashing]

/-- `DeterministicScheduler.start` -/
def start (signingKey : List UInt8) (task : TaskRecord) (agent : AgentRecord) (token : String)
    (at' : DateTime) : Except SchedulerFailure (TaskRecord × AgentRecord) := do
  let _ ← validateLease signingKey task agent token at' false
  require (task.state = .leased ∧ agent.state = .leased)
    (.leaseRejected "only a newly leased assignment can be started")
  let running ← TaskRecord.postInit { task with state := .running }
  let worker ← AgentRecord.postInit { agent with state := .running, lastHeartbeatAt := some at' }
  return (running, worker)

/-- `DeterministicScheduler.heartbeat` -/
def heartbeat (signingKey : List UInt8) (task : TaskRecord) (agent : AgentRecord) (token : String)
    (at' : DateTime) (leaseSeconds : Int) : Except SchedulerFailure (TaskRecord × AgentRecord) := do
  let lease ← validateLease signingKey task agent token at' false
  require (task.isActive ∧ agent.isActive)
    (.leaseRejected "only an active assignment may renew its lease")
  require (1 ≤ leaseSeconds) (.schedulingError "lease_seconds must be positive")
  let renewedExpiry ← laterBy at' leaseSeconds
  let renewed ← signedLease signingKey {
    runId := task.runId
    taskId := task.id
    agentId := agent.id
    attempt := lease.attempt
    acquiredAt := lease.acquiredAt
    expiresAt := renewedExpiry
    taskContractDigest := lease.taskContractDigest
    agentContractDigest := lease.agentContractDigest }
  let kept ← TaskRecord.postInit { task with lease := some renewed }
  let worker ← AgentRecord.postInit { agent with lastHeartbeatAt := some at' }
  return (kept, worker)

/-- What a worker hands in with its result. -/
structure SuccessReport where
  evidence : List Evidence
  actualTokens : Int
  actualToolCalls : Int

/-- `DeterministicScheduler.succeed` -/
def succeed (signingKey : List UInt8) (task : TaskRecord) (agent : AgentRecord) (token : String)
    (budget : Budget) (report : SuccessReport) (at' : DateTime) :
    Except SchedulerFailure CompletionResult := do
  let _ ← validateLease signingKey task agent token at' false
  require (task.isActive) (.leaseRejected "only an active assignment may succeed")
  validateEvidence task report.evidence
  validateSettlementInputs report.actualTokens report.actualToolCalls
  let settled ← budget.settle
    (assignmentSettlement task report.actualTokens report.actualToolCalls)
  let done ← TaskRecord.postInit { task with
    state := .succeeded
    lease := none
    resultEvidenceIds := report.evidence.map Evidence.id
    completedByAgentId := some agent.id
    failureCode := none
    failureMessage := none }
  let released ← releasedAgent agent at'
  return ⟨done, released, settled⟩

/-- `DeterministicScheduler.fail` -/
def fail (signingKey : List UInt8) (task : TaskRecord) (agent : AgentRecord) (token : String)
    (budget : Budget) (report : FailureReport) (at' : DateTime) :
    Except SchedulerFailure CompletionResult := do
  let _ ← validateLease signingKey task agent token at' true
  require (task.isActive ∧ agent.isActive)
    (.leaseRejected "only an active assignment may fail")
  failValidated task agent budget report at'

end Workers

/-! ### All tasks of a run -/

/-- The tasks, agents and budget of a run. -/
structure Inventory where
  tasks : List TaskRecord
  agents : List AgentRecord
  budget : Budget

def Inventory.put (inventory : Inventory) (task : TaskRecord) (agent : AgentRecord)
    (budget : Budget) : Inventory where
  tasks := putTask inventory.tasks task
  agents := putAgent inventory.agents agent
  budget := budget

/-- The inventory as a result returns it. -/
def Inventory.sorted (inventory : Inventory) : Inventory where
  tasks := resultTasks inventory.tasks
  agents := resultAgents inventory.agents
  budget := inventory.budget

section Reaping

variable [Hashing] [KeyedHashing]

/-- What is recorded of a lease that ran out. -/
def expiryReport : FailureReport where
  failureCode := "lease_expired"
  failureMessage := "worker did not renew its lease before expiry"
  retryable := true
  actualTokens := 0
  actualToolCalls := 0

/-- `reap_expired_leases`, for one task: the inventory and the tasks whose lease ran out. -/
def reapTask (signingKey : List UInt8) (at' : DateTime) (reaped : Inventory × List String)
    (task : TaskRecord) : Except SchedulerFailure (Inventory × List String) :=
  if task.isActive then
    match task.lease with
    | none => .error (.schedulingError ("active task " ++ task.id ++ " has no lease"))
    | some held =>
        match agentById reaped.1.agents held.agentId with
        | none => .error (.schedulingError ("leased task " ++ task.id ++
            " references missing agent " ++ held.agentId))
        | some agent => do
            let lease ← validateLease signingKey task agent held.token at' true
            if at' < lease.expiresAt then return reaped
            let result ← failValidated task agent reaped.1.budget expiryReport at'
            return (reaped.1.put result.task result.agent result.budget, reaped.2 ++ [task.id])
  else .ok reaped

/-- The leases that ran out, reaped, before the result is sorted. -/
def reapAll (signingKey : List UInt8) (inventory : Inventory) (at' : DateTime) :
    Except SchedulerFailure (Inventory × List String) := do
  require (32 ≤ signingKey.length)
    (.schedulingError "lease_signing_key must contain at least 32 bytes")
  indexUnique (inventory.tasks.map (fun task => task.id))
  indexUnique (inventory.agents.map (fun agent => agent.id))
  (sortBy taskOrder inventory.tasks).foldlM (reapTask signingKey at') (inventory, [])

/-- `DeterministicScheduler.reap_expired_leases`: the inventory and the expired task IDs. -/
def reapExpiredLeases (signingKey : List UInt8) (inventory : Inventory) (at' : DateTime) :
    Except SchedulerFailure (Inventory × List String) := do
  let reaped ← reapAll signingKey inventory at'
  return (reaped.1.sorted, reaped.2)

end Reaping

/-! ### Scheduling -/

def stateOf (tasks : List TaskRecord) (id : String) : Option TaskState :=
  (taskById tasks id).map (fun task => task.state)

/-- `schedule`'s look at one waiting task: it is blocked when a dependency did not succeed, and
queued again when it was blocked and none stands in its way. -/
def refreshTask (refreshed : List TaskRecord × List String) (task : TaskRecord) :
    Except SchedulerFailure (List TaskRecord × List String) :=
  if task.state = .queued ∨ task.state = .retryWait ∨ task.state = .blocked then
    if ∃ dependency ∈ task.dependencies, stateOf refreshed.1 dependency = some .failed ∨
        stateOf refreshed.1 dependency = some .cancelled then do
      let blocked ← TaskRecord.postInit { task with
        state := .blocked
        failureCode := some "dependency_failed"
        failureMessage := some "a required dependency did not succeed" }
      return (putTask refreshed.1 blocked, refreshed.2 ++ [task.id])
    else if task.state = .blocked then do
      let queued ← TaskRecord.postInit { task with
        state := .queued
        failureCode := none
        failureMessage := none }
      return (putTask refreshed.1 queued, refreshed.2)
    else .ok refreshed
  else .ok refreshed

/-- `_is_eligible` -/
def isEligible (task : TaskRecord) (tasks : List TaskRecord) (at' : DateTime) : Bool :=
  (task.state = .queued || task.state = .retryWait) &&
    task.nextEligibleAt.all (fun eligible => eligible ≤ at') &&
    task.dependencies.all (fun dependency => stateOf tasks dependency = some .succeeded) &&
    tasks.all (fun other => !(other.wave < task.wave) || other.state = .succeeded ||
      other.state = .cancelled)

/-- The eligible tasks of the least wave that has one, in order. -/
def candidates (tasks : List TaskRecord) (at' : DateTime) : List TaskRecord :=
  let eligible := tasks.filter (fun task => isEligible task tasks at')
  sortBy taskOrder (eligible.filter (fun task => eligible.all (fun other => task.wave ≤ other.wave)))

/-- How well an agent fits a task: the capabilities it has beyond those required come first. -/
def agentFit (task : TaskRecord) (agent : AgentRecord) : Nat ×ₗ Int ×ₗ Int ×ₗ String :=
  toLex ((agent.capabilities.filter (fun c => c ∉ task.requiredCapabilities)).length,
    agentOrder agent)

/-- `_best_agent` -/
def bestAgent (task : TaskRecord) (agents : List AgentRecord) (excluded : List String) :
    Option AgentRecord :=
  (sortBy (agentFit task) (agents.filter (fun agent =>
    task.requiredCapabilities.all (· ∈ agent.capabilities) &&
      task.requiredAgentClass.all (fun required => agent.agentClass = required) &&
      agent.id ∉ task.excludedAgentIds && agent.id ∉ excluded))).head?

structure Dispatch where
  taskId : String
  agentId : String
  lease : Lease
  reservedTokens : Int

/-- How far the dispatching of candidates has come. -/
structure Dispatching where
  inventory : Inventory
  available : List AgentRecord
  dispatches : List Dispatch
  deferred : List String

/-- A review names a result for exactly the tasks it reviews. -/
def TaskRecord.bindsReviews (task : TaskRecord) : Bool :=
  task.reviewedTaskIds.all
    (· ∈ task.reviewedResultBindings.map ReviewedTaskResultBinding.taskId) &&
    (task.reviewedResultBindings.map ReviewedTaskResultBinding.taskId).all
      (· ∈ task.reviewedTaskIds)

/-- The agents that completed the reviewed tasks, when each has one.  A reviewed task is a
dependency, so it is there. -/
def reviewedCompleters (tasks : List TaskRecord) (task : TaskRecord) : Option (List String) :=
  task.reviewedTaskIds.mapM (fun id => (taskById tasks id).bind (fun other =>
    other.completedByAgentId))

section Scheduling

variable [Hashing] [KeyedHashing]

/-- Lease a task to an agent, with the budget already reserved. -/
def assign (signingKey : List UInt8) (run : RunRecord) (at' : DateTime) (leaseSeconds : Int)
    (progress : Dispatching) (task : TaskRecord) (agent : AgentRecord) (reserved : Budget) :
    Except SchedulerFailure Dispatching := do
  let expiresAt ← laterBy at' leaseSeconds
  let lease ← signedLease signingKey {
    runId := run.id
    taskId := task.id
    agentId := agent.id
    attempt := task.attempt + 1
    acquiredAt := at'
    expiresAt := expiresAt
    taskContractDigest := taskContractDigest task.toTask
    agentContractDigest := agentContractDigest agent }
  let leasedTask ← TaskRecord.postInit { task with
    state := .leased
    attempt := task.attempt + 1
    nextEligibleAt := none
    lease := some lease
    failureCode := none
    failureMessage := none }
  let leasedAgent ← AgentRecord.postInit { agent with
    state := .leased
    currentTaskId := some task.id
    lastHeartbeatAt := some at' }
  return {
    inventory := progress.inventory.put leasedTask leasedAgent reserved
    available := progress.available.erase agent
    dispatches := progress.dispatches ++ [⟨task.id, agent.id, lease, task.estimatedTokens⟩]
    deferred := progress.deferred }

/-- `schedule`'s loop over the candidates, for one of them; past the last slot it does nothing. -/
def dispatchTask (signingKey : List UInt8) (run : RunRecord) (at' : DateTime) (leaseSeconds : Int)
    (slots : Nat) (progress : Dispatching) (task : TaskRecord) :
    Except SchedulerFailure Dispatching :=
  if slots ≤ progress.dispatches.length then .ok progress
  else if task.reviewedTaskIds ≠ [] ∧ task.bindsReviews = false then .ok progress
  else
    match reviewedCompleters progress.inventory.tasks task with
    | none => .ok progress
    | some excluded =>
        match bestAgent task progress.available excluded with
        | none => .ok progress
        | some agent =>
            match progress.inventory.budget.reserve task.estimatedTokens 0 1 with
            | .error (.budgetExceeded _) =>
                .ok { progress with deferred := progress.deferred ++ [task.id] }
            | .error failure => .error failure
            | .ok reserved => assign signingKey run at' leaseSeconds progress task agent reserved

structure ScheduleResult where
  inventory : Inventory
  dispatches : List Dispatch
  blockedTaskIds : List String
  budgetDeferredTaskIds : List String

def activeCount (tasks : List TaskRecord) : Nat := (tasks.filter TaskRecord.isActive).length

/-- `schedule`, once expired leases are reaped and waiting tasks refreshed. -/
def dispatchAll (signingKey : List UInt8) (run : RunRecord) (inventory : Inventory)
    (at' : DateTime) (leaseSeconds : Int) : Except SchedulerFailure Dispatching :=
  (candidates inventory.tasks at').foldlM
    (dispatchTask signingKey run at' leaseSeconds
      (run.maxConcurrency - activeCount inventory.tasks).toNat)
    { inventory := inventory
      available := inventory.agents.filter (fun agent =>
        (agent.state = .queued || agent.state = .available) && agent.currentTaskId.isNone)
      dispatches := []
      deferred := [] }

/-- What `schedule` checks before it does anything. -/
def requireSchedulable (signingKey : List UInt8) (run : RunRecord) (inventory : Inventory)
    (leaseSeconds : Int) : Except SchedulerFailure Unit := do
  validateMembership run inventory.tasks inventory.agents
  require (run.phase = .executing)
    (.schedulingError "tasks may only be dispatched while a run is executing")
  require (1 ≤ leaseSeconds) (.schedulingError "lease_seconds must be positive")
  require (32 ≤ signingKey.length)
    (.schedulingError "lease_signing_key must contain at least 32 bytes")
  assertAcyclic inventory.tasks

/-- `DeterministicScheduler.schedule` -/
def schedule (signingKey : List UInt8) (run : RunRecord) (tasks : List TaskRecord)
    (agents : List AgentRecord) (budget : Option Budget) (at' : DateTime) (leaseSeconds : Int) :
    Except SchedulerFailure ScheduleResult := do
  requireSchedulable signingKey run ⟨tasks, agents, run.budget⟩ leaseSeconds
  let reaped ← reapExpiredLeases signingKey ⟨tasks, agents, budget.getD run.budget⟩ at'
  let refreshed ← (sortBy taskOrder reaped.1.tasks).foldlM refreshTask (reaped.1.tasks, [])
  let dispatched ← dispatchAll signingKey run { reaped.1 with tasks := refreshed.1 } at' leaseSeconds
  return {
    inventory := dispatched.inventory.sorted
    dispatches := dispatched.dispatches
    blockedTaskIds := refreshed.2
    budgetDeferredTaskIds := dispatched.deferred }

end Scheduling

end Evleda.Orchestrator
