/-
The records of the scheduler.

A task, an agent and a run have more to the scheduler than to the coordination
state machine: an attempt and a lease, a current task and a heartbeat, a budget
and a limit on concurrency.  The records here extend the ones there.  A record
is frozen and is replaced whole, and the constructor checks the new one as it
checked the first, so every replacement goes through `postInit`.  Checks of the
types of fields are left out; the types here make them.

A budget is only ever held checked.
-/
import Evleda.Lib.Calendar
import Evleda.Lib.Collections
import Evleda.Orchestrator.Models
import Mathlib.Data.Prod.Lex

namespace Evleda.Orchestrator

open Outcome

/-- What the scheduler raises. -/
inductive SchedulerFailure where
  | domainError (message : String)
  | budgetExceeded (message : String)
  | schedulingError (message : String)
  | leaseRejected (message : String)
  | evidenceRejected (message : String)
  | assertionError
  | overflowError
  deriving DecidableEq, Repr

/-! ### Budgets -/

/-- A run budget; a limit that is absent is unlimited. -/
structure Budget where
  tokenLimit : Option Int
  toolCallLimit : Option Int
  agentDispatchLimit : Option Int
  tokensUsed : Int
  tokensReserved : Int
  toolCallsUsed : Int
  toolCallsReserved : Int
  agentDispatchesUsed : Int
  agentDispatchesReserved : Int
  deriving DecidableEq, Repr

namespace Budget

/-- `_check` -/
def check (limit : Option Int) (requested : Int) (label : String) : Except SchedulerFailure Unit :=
  match limit with
  | none => .ok ()
  | some bound =>
      require (requested ≤ bound) (.budgetExceeded (label ++ " budget exceeded: " ++
        toString requested ++ " > " ++ toString bound))

def values (b : Budget) : List Int :=
  b.tokenLimit.toList ++ b.toolCallLimit.toList ++ b.agentDispatchLimit.toList ++
    [b.tokensUsed, b.tokensReserved, b.toolCallsUsed, b.toolCallsReserved, b.agentDispatchesUsed,
      b.agentDispatchesReserved]

/-- The checks a budget's constructor makes. -/
def postInit (b : Budget) : Except SchedulerFailure Budget := do
  require (∀ value ∈ b.values, 0 ≤ value) (.domainError "budget values cannot be negative")
  check b.tokenLimit (b.tokensUsed + b.tokensReserved) "tokens"
  check b.toolCallLimit (b.toolCallsUsed + b.toolCallsReserved) "tool calls"
  check b.agentDispatchLimit (b.agentDispatchesUsed + b.agentDispatchesReserved) "agent dispatches"
  return b

def reserve (b : Budget) (tokens toolCalls agentDispatches : Int) :
    Except SchedulerFailure Budget := do
  require (0 ≤ tokens ∧ 0 ≤ toolCalls ∧ 0 ≤ agentDispatches)
    (.domainError "reservations cannot be negative")
  postInit { b with
    tokensReserved := b.tokensReserved + tokens
    toolCallsReserved := b.toolCallsReserved + toolCalls
    agentDispatchesReserved := b.agentDispatchesReserved + agentDispatches }

/-- What a settlement gives back and what it was spent for. -/
structure Settlement where
  reservedTokens : Int
  actualTokens : Int
  reservedToolCalls : Int
  actualToolCalls : Int
  reservedAgentDispatches : Int
  actualAgentDispatches : Int

def settle (b : Budget) (s : Settlement) : Except SchedulerFailure Budget := do
  require (0 ≤ s.reservedTokens ∧ 0 ≤ s.actualTokens ∧ 0 ≤ s.reservedToolCalls ∧
      0 ≤ s.actualToolCalls ∧ 0 ≤ s.reservedAgentDispatches ∧ 0 ≤ s.actualAgentDispatches)
    (.domainError "settlement quantities cannot be negative")
  require (s.reservedTokens ≤ b.tokensReserved)
    (.domainError "cannot settle more reserved tokens than held")
  require (s.reservedToolCalls ≤ b.toolCallsReserved)
    (.domainError "cannot settle more reserved tool calls than held")
  require (s.reservedAgentDispatches ≤ b.agentDispatchesReserved)
    (.domainError "cannot settle more agent dispatches than held")
  postInit { b with
    tokensReserved := b.tokensReserved - s.reservedTokens
    tokensUsed := b.tokensUsed + s.actualTokens
    toolCallsReserved := b.toolCallsReserved - s.reservedToolCalls
    toolCallsUsed := b.toolCallsUsed + s.actualToolCalls
    agentDispatchesReserved := b.agentDispatchesReserved - s.reservedAgentDispatches
    agentDispatchesUsed := b.agentDispatchesUsed + s.actualAgentDispatches }

/-- Nothing is negative, and used and reserved stay within every limit. -/
structure WithinLimits (b : Budget) : Prop where
  nonnegative : ∀ value ∈ b.values, 0 ≤ value
  tokens : ∀ limit ∈ b.tokenLimit, b.tokensUsed + b.tokensReserved ≤ limit
  toolCalls : ∀ limit ∈ b.toolCallLimit, b.toolCallsUsed + b.toolCallsReserved ≤ limit
  agentDispatches : ∀ limit ∈ b.agentDispatchLimit,
    b.agentDispatchesUsed + b.agentDispatchesReserved ≤ limit

theorem check_ok {limit : Option Int} {requested : Int} {label : String} {u : Unit} :
    check limit requested label = .ok u ↔ ∀ bound ∈ limit, requested ≤ bound := by
  cases limit with
  | none => simp [check]
  | some bound => simp [check, require_ok]

theorem postInit_ok {b b' : Budget} (h : postInit b = .ok b') :
    b' = b ∧ b.WithinLimits := by
  unfold postInit at h
  simp only [bind_ok, require_ok, check_ok, exists_const, pure_ok] at h
  obtain ⟨hvalues, htokens, hcalls, hdispatches, rfl⟩ := h
  exact ⟨rfl, hvalues, htokens, hcalls, hdispatches⟩

theorem reserve_ok {b b' : Budget} {tokens toolCalls agentDispatches : Int}
    (h : b.reserve tokens toolCalls agentDispatches = .ok b') :
    b'.WithinLimits ∧ b'.tokensReserved = b.tokensReserved + tokens ∧
      b'.agentDispatchesReserved = b.agentDispatchesReserved + agentDispatches := by
  unfold reserve at h
  simp only [bind_ok] at h
  obtain ⟨-, -, h⟩ := h
  obtain ⟨rfl, hlimits⟩ := postInit_ok h
  exact ⟨hlimits, rfl, rfl⟩

theorem settle_ok {b b' : Budget} {s : Settlement} (h : b.settle s = .ok b') :
    b'.WithinLimits ∧ b'.tokensReserved = b.tokensReserved - s.reservedTokens ∧
      b'.agentDispatchesReserved = b.agentDispatchesReserved - s.reservedAgentDispatches := by
  unfold settle at h
  simp only [bind_ok, require_ok, exists_const] at h
  obtain ⟨-, -, -, -, h⟩ := h
  obtain ⟨rfl, hlimits⟩ := postInit_ok h
  exact ⟨hlimits, rfl, rfl⟩

/-- With non-negative values only a limit can refuse a budget. -/
theorem postInit_error {b : Budget} (hvalues : ∀ value ∈ b.values, 0 ≤ value)
    {message : String} : postInit b ≠ .error (.domainError message) := by
  have hcheck : ∀ limit requested label,
      check limit requested label ≠ .error (.domainError message) := by
    intro limit requested label h
    cases limit with
    | none => cases h
    | some bound =>
        obtain ⟨-, hfailure⟩ := require_error.mp h
        cases hfailure
  intro h
  unfold postInit require at h
  rw [if_pos hvalues] at h
  rcases bind_error.mp h with h | ⟨_, -, h⟩
  · cases h
  rcases bind_error.mp h with h | ⟨_, -, h⟩
  · exact hcheck _ _ _ h
  rcases bind_error.mp h with h | ⟨_, -, h⟩
  · exact hcheck _ _ _ h
  rcases bind_error.mp h with h | ⟨_, -, h⟩
  · exact hcheck _ _ _ h
  · cases h

end Budget

/-! ### Retries -/

/-- The seconds to wait after a failed attempt. -/
def RetryPolicy.delaySeconds (policy : RetryPolicy) (failedAttempt : Int) :
    Except SchedulerFailure Int := do
  require (1 ≤ failedAttempt) (.domainError "failed_attempt must be at least one")
  let delay := policy.initialBackoffSeconds * policy.multiplier ^ (failedAttempt - 1).toNat
  return min delay policy.maxBackoffSeconds

/-! ### Leases -/

structure Lease where
  token : String
  taskId : String
  agentId : String
  attempt : Int
  acquiredAt : DateTime
  expiresAt : DateTime
  taskContractDigest : String
  agentContractDigest : String
  deriving DecidableEq

/-- The checks a lease's constructor makes. -/
def Lease.postInit (lease : Lease) : Except SchedulerFailure Lease := do
  require (lease.taskId ≠ "" ∧ lease.agentId ≠ "")
    (.domainError "lease task and agent IDs are required")
  require (Text.isSha256 lease.token)
    (.domainError "lease token must be a lowercase SHA-256 digest")
  require (Text.isSha256 lease.taskContractDigest)
    (.domainError "lease task contract digest must be a lowercase SHA-256 digest")
  require (Text.isSha256 lease.agentContractDigest)
    (.domainError "lease agent contract digest must be a lowercase SHA-256 digest")
  require (1 ≤ lease.attempt) (.domainError "lease attempt must be positive")
  require (lease.acquiredAt < lease.expiresAt)
    (.domainError "lease expiry must follow acquisition")
  return lease

theorem Lease.postInit_ok {lease lease' : Lease} (h : lease.postInit = .ok lease') :
    lease' = lease := by
  unfold Lease.postInit at h
  simp only [bind_ok, require_ok, exists_const, pure_ok] at h
  obtain ⟨-, -, -, -, -, -, rfl⟩ := h
  rfl

/-! ### Tasks -/

def TaskState.isActive : TaskState → Bool
  | .leased | .running => true
  | _ => false

/-- A task with its place in the schedule. -/
structure TaskRecord extends Task where
  attempt : Int
  nextEligibleAt : Option DateTime
  lease : Option Lease
  failureCode : Option String
  failureMessage : Option String
  deriving DecidableEq

namespace TaskRecord

def isActive (task : TaskRecord) : Bool := task.state.isActive

/-- Every identifier of a collection is a text. -/
def requireTexts (values : List String) (label : String) : Except SchedulerFailure Unit :=
  require (∀ value ∈ values, value ≠ "")
    (.domainError ("task " ++ label ++ " must be exact non-empty strings"))

/-- What the constructor checks of a task's contract. -/
def checkContract (task : TaskRecord) : Except SchedulerFailure Unit := do
  requireTexts task.dependencies "dependency IDs"
  requireTexts task.requiredCapabilities "required capabilities"
  requireTexts task.excludedAgentIds "excluded agent IDs"
  requireTexts task.reviewedTaskIds "reviewed task IDs"
  requireTexts task.resultEvidenceIds "result evidence IDs"
  require ((task.reviewedResultBindings.map ReviewedTaskResultBinding.taskId).Nodup)
    (.domainError "reviewed result binding task IDs must be unique")
  require (∀ binding ∈ task.reviewedResultBindings, binding.taskId ∈ task.reviewedTaskIds)
    (.domainError "result binding must name a declared reviewed task")
  require (task.completedByAgentId ≠ some "")
    (.domainError "task completing agent ID must be an exact string or null")
  require (task.id ≠ "" ∧ task.runId ≠ "" ∧ Text.isBlank task.title = false)
    (.domainError "task ID, run ID, and title are required")
  require (0 ≤ task.createdSeq ∧ 0 ≤ task.wave ∧ 0 ≤ task.attempt)
    (.domainError "task sequence, wave, and attempt cannot be negative")
  require (0 ≤ task.estimatedTokens) (.domainError "estimated_tokens cannot be negative")
  require (task.id ∉ task.dependencies) (.domainError "a task cannot depend on itself")
  require (task.dependencies.Nodup) (.domainError "task dependencies must be unique")
  require (task.excludedAgentIds.Nodup) (.domainError "excluded agent IDs must be unique")
  require (task.requiredCapabilities.Nodup)
    (.domainError "required capabilities must be unique")
  require (task.reviewedTaskIds.Nodup) (.domainError "reviewed task IDs must be unique")
  require (task.id ∉ task.reviewedTaskIds) (.domainError "a review task cannot review itself")
  requireWhen (task.reviewedTaskIds ≠ []) do
    require (task.kind = .review) (.domainError "only review tasks may name reviewed tasks")
    require (∀ id ∈ task.reviewedTaskIds, id ∈ task.dependencies)
      (.domainError "reviewed tasks must also be dependencies")
  require ((task.requiredChecks.map CheckRequirement.checkId).Nodup)
    (.domainError "required checks must be unique")

/-- What the constructor checks of a task's place in the schedule. -/
def checkSchedule (task : TaskRecord) : Except SchedulerFailure Unit := do
  require (task.isActive → task.lease.isSome)
    (.domainError "leased/running tasks require an active lease")
  require (task.lease.isSome → task.isActive)
    (.domainError "only leased/running tasks may carry an active lease")
  require (∀ lease ∈ task.lease, lease.taskId = task.id)
    (.domainError "task lease references a different task")
  require (∀ lease ∈ task.lease, lease.attempt = task.attempt)
    (.domainError "task lease attempt must match the task attempt")
  require (task.completedByAgentId.isSome → task.state = .succeeded)
    (.domainError "only succeeded tasks may name their completing agent")

/-- The checks a task's constructor makes. -/
def postInit (task : TaskRecord) : Except SchedulerFailure TaskRecord := do
  task.checkContract
  task.checkSchedule
  return task

/-- What the results below use of a task that was constructed. -/
structure Constructed (task : TaskRecord) : Prop where
  estimated : 0 ≤ task.estimatedTokens
  active : task.isActive = true ↔ task.lease.isSome = true
  leased : ∀ lease ∈ task.lease, lease.taskId = task.id ∧ lease.attempt = task.attempt

theorem postInit_ok {task task' : TaskRecord} (h : task.postInit = .ok task') :
    task' = task ∧ task.Constructed := by
  unfold postInit at h
  simp only [bind_ok, pure_ok] at h
  obtain ⟨_, hcontract, _, hschedule, rfl⟩ := h
  unfold checkContract at hcontract
  simp only [bind_ok, require_ok, exists_const] at hcontract
  obtain ⟨_, -, _, -, _, -, _, -, _, -, -, -, -, -, -, hestimated, -⟩ := hcontract
  unfold checkSchedule at hschedule
  simp only [bind_ok, require_ok, exists_const] at hschedule
  obtain ⟨hlease, hactive, htask, hattempt, -⟩ := hschedule
  exact ⟨rfl, hestimated, ⟨hlease, hactive⟩, fun lease hmem => ⟨htask lease hmem, hattempt lease hmem⟩⟩

end TaskRecord

/-! ### Agents -/

inductive AgentState where
  | queued | available | leased | running | offline | failed | retired
  deriving DecidableEq, Repr

def AgentState.isActive : AgentState → Bool
  | .leased | .running => true
  | _ => false

/-- An agent with its place in the schedule. -/
structure AgentRecord extends Agent where
  name : String
  createdSeq : Int
  parentAgentId : Option String
  capabilities : List String
  state : AgentState
  wave : Int
  currentTaskId : Option String
  lastHeartbeatAt : Option DateTime
  deriving DecidableEq

namespace AgentRecord

def isActive (agent : AgentRecord) : Bool := agent.state.isActive

/-- The checks an agent's constructor makes. -/
def postInit (agent : AgentRecord) : Except SchedulerFailure AgentRecord := do
  require (agent.parentAgentId ≠ some agent.id) (.domainError "an agent cannot be its own parent")
  require (∀ value ∈ agent.capabilities, value ≠ "")
    (.domainError "agent capabilities must be exact non-empty strings")
  require (agent.id ≠ "" ∧ agent.runId ≠ "" ∧ Text.isBlank agent.name = false)
    (.domainError "agent ID, run ID, and name are required")
  require (0 ≤ agent.createdSeq ∧ 0 ≤ agent.wave)
    (.domainError "agent sequence and wave cannot be negative")
  require (agent.capabilities.Nodup) (.domainError "agent capabilities must be unique")
  require (agent.isActive → agent.currentTaskId.isSome)
    (.domainError "leased/running agents require a current task")
  require (agent.currentTaskId.isSome → agent.isActive)
    (.domainError "only leased/running agents may reference a current task")
  return agent

theorem postInit_ok {agent agent' : AgentRecord} (h : agent.postInit = .ok agent') :
    agent' = agent := by
  unfold postInit at h
  simp only [bind_ok, require_ok, exists_const, pure_ok] at h
  obtain ⟨-, -, -, -, -, -, -, rfl⟩ := h
  rfl

end AgentRecord

/-! ### Runs -/

/-- A run with what the scheduler reads of it. -/
structure RunRecord extends Run where
  maxConcurrency : Int
  budget : Budget

end Evleda.Orchestrator
