/-
A run's records, threaded through the scheduler's calls.

An application holds the tasks, the agents and the budget of a run, gives them
to one call after another and keeps what each returns; a call that raises leaves
them as they were.

If the records start consistent, with nothing leased and nothing reserved, the
budget and the leases account for each other at every later point.  What the
scheduler does not look at is the number of attempts when it dispatches: it
stops retrying a task at its last attempt, but a task that is queued with no
attempt left gets one more.
-/
import Evleda.Lib.Replay
import Evleda.Orchestrator.Scheduling
import Mathlib.Algebra.Order.BigOperators.Group.List

namespace Evleda.Orchestrator

/-! ### Calls -/

/-- The task and the agent that a worker's call is about, and the token it presents. -/
structure Presented where
  taskId : String
  agentId : String
  token : String

inductive Call where
  | schedule (phase : RunPhase) (at' : DateTime) (leaseSeconds : Int)
  | start (presented : Presented) (at' : DateTime)
  | heartbeat (presented : Presented) (at' : DateTime) (leaseSeconds : Int)
  | succeed (presented : Presented) (report : SuccessReport) (at' : DateTime)
  | fail (presented : Presented) (report : FailureReport) (at' : DateTime)
  | reap (at' : DateTime)

/-- The records of a run, with the leases handed out and the tasks that succeeded. -/
structure Desk where
  inventory : Inventory
  issued : List Lease
  succeeded : List String

/-- The task and the agent that a call is about, where there are such. -/
def Inventory.assignment (inventory : Inventory) (presented : Presented) :
    Option (TaskRecord × AgentRecord) := do
  let task ← taskById inventory.tasks presented.taskId
  let agent ← agentById inventory.agents presented.agentId
  return (task, agent)

section Calls

variable [Hashing] [KeyedHashing] (signingKey : List UInt8) (run : RunRecord)

/-- The records after a call and the leases it handed out, unless it was refused. -/
def perform (inventory : Inventory) : Call → Option (Inventory × List Lease)
  | .schedule phase at' leaseSeconds => do
      let result ← (schedule signingKey { run with phase := phase } inventory.tasks
        inventory.agents (some inventory.budget) at' leaseSeconds).toOption
      return (result.inventory, result.dispatches.map Dispatch.lease)
  | .start presented at' => do
      let work ← inventory.assignment presented
      let result ← (start signingKey work.1 work.2 presented.token at').toOption
      return (inventory.put result.1 result.2 inventory.budget, [])
  | .heartbeat presented at' leaseSeconds => do
      let work ← inventory.assignment presented
      let result ← (heartbeat signingKey work.1 work.2 presented.token at' leaseSeconds).toOption
      return (inventory.put result.1 result.2 inventory.budget, result.1.lease.toList)
  | .succeed presented report at' => do
      let work ← inventory.assignment presented
      let result ← (succeed signingKey work.1 work.2 presented.token inventory.budget report
        at').toOption
      return (inventory.put result.task result.agent result.budget, [])
  | .fail presented report at' => do
      let work ← inventory.assignment presented
      let result ← (fail signingKey work.1 work.2 presented.token inventory.budget report
        at').toOption
      return (inventory.put result.task result.agent result.budget, [])
  | .reap at' => do
      let reaped ← (reapExpiredLeases signingKey inventory at').toOption
      return (reaped.1, [])

def Call.completes : Call → List String
  | .succeed presented _ _ => [presented.taskId]
  | _ => []

/-- The desk after a call; a refused call leaves it as it was. -/
def Desk.next (desk : Desk) (call : Call) : Desk :=
  match perform signingKey run desk.inventory call with
  | none => desk
  | some (inventory, leases) => {
      inventory := inventory
      issued := desk.issued ++ leases
      succeeded := desk.succeeded ++ call.completes }

variable {signingKey} {run} {inventory inventory' : Inventory}

section

omit [Hashing] [KeyedHashing]

theorem toOption_eq_some {ε α : Type} {x : Except ε α} {a : α} :
    x.toOption = some a ↔ x = .ok a := by
  cases x with
  | error e => simp [Except.toOption]
  | ok b => simp [Except.toOption]

theorem assignment_mem {presented : Presented} {work : TaskRecord × AgentRecord}
    (h : inventory.assignment presented = some work) :
    (work.1 ∈ inventory.tasks ∧ work.1.id = presented.taskId) ∧
      (work.2 ∈ inventory.agents ∧ work.2.id = presented.agentId) := by
  unfold Inventory.assignment at h
  obtain ⟨task, htask, h⟩ := Option.bind_eq_some_iff.mp h
  obtain ⟨agent, hagent, h⟩ := Option.bind_eq_some_iff.mp h
  cases h
  exact ⟨taskById_mem htask, agentById_mem hagent⟩

end

/-- **An accepted call is a run of moves that hands out its leases.** -/
theorem perform_moves {call : Call} {leases : List Lease}
    (hsound : Sound run.maxConcurrency inventory)
    (h : perform signingKey run inventory call = some (inventory', leases)) :
    MovesTo signingKey run.maxConcurrency inventory leases inventory' := by
  cases call with
  | schedule phase at' leaseSeconds =>
      obtain ⟨result, hresult, h⟩ := Option.bind_eq_some_iff.mp h
      cases h
      rw [toOption_eq_some] at hresult
      exact @schedule_moves _ _ signingKey inventory at' { run with phase := phase } leaseSeconds
        result hsound hresult
  | start presented at' =>
      obtain ⟨work, hwork, h⟩ := Option.bind_eq_some_iff.mp h
      obtain ⟨result, hresult, h⟩ := Option.bind_eq_some_iff.mp h
      cases h
      rw [toOption_eq_some] at hresult
      obtain ⟨⟨htask, -⟩, hagent, -⟩ := assignment_mem hwork
      exact (start_move hsound htask hagent hresult).movesTo
  | heartbeat presented at' leaseSeconds =>
      obtain ⟨work, hwork, h⟩ := Option.bind_eq_some_iff.mp h
      obtain ⟨result, hresult, h⟩ := Option.bind_eq_some_iff.mp h
      cases h
      rw [toOption_eq_some] at hresult
      obtain ⟨⟨htask, -⟩, hagent, -⟩ := assignment_mem hwork
      exact (heartbeat_move hsound htask hagent hresult).movesTo
  | succeed presented report at' =>
      obtain ⟨work, hwork, h⟩ := Option.bind_eq_some_iff.mp h
      obtain ⟨result, hresult, h⟩ := Option.bind_eq_some_iff.mp h
      cases h
      rw [toOption_eq_some] at hresult
      obtain ⟨⟨htask, -⟩, hagent, -⟩ := assignment_mem hwork
      obtain ⟨hfinished, -, lease, hchecked⟩ := succeed_finished hresult
      obtain ⟨hactive, hlinked⟩ := hchecked.linked hsound htask hagent
      exact (Move.replaces (hfinished.replaces htask hagent hactive hlinked)).movesTo
  | fail presented report at' =>
      obtain ⟨work, hwork, h⟩ := Option.bind_eq_some_iff.mp h
      obtain ⟨result, hresult, h⟩ := Option.bind_eq_some_iff.mp h
      cases h
      rw [toOption_eq_some] at hresult
      obtain ⟨⟨htask, -⟩, hagent, -⟩ := assignment_mem hwork
      obtain ⟨hfinished, lease, hchecked⟩ := fail_finished hresult
      obtain ⟨hactive, hlinked⟩ := hchecked.linked hsound htask hagent
      exact (Move.replaces (hfinished.replaces htask hagent hactive hlinked)).movesTo
  | reap at' =>
      obtain ⟨reaped, hreaped, h⟩ := Option.bind_eq_some_iff.mp h
      cases h
      rw [toOption_eq_some] at hreaped
      exact reapExpiredLeases_moves hsound hreaped

/-! ### A consistent start -/

/-- Nothing is leased and nothing reserved; the records are as their constructors leave them. -/
structure Consistent (run : RunRecord) (inventory : Inventory) : Prop where
  concurrency : 1 ≤ run.maxConcurrency
  taskIds : (inventory.tasks.map (fun task => task.id)).Nodup
  agentIds : (inventory.agents.map (fun agent => agent.id)).Nodup
  tasks : ∀ task ∈ inventory.tasks, task.postInit = .ok task
  budget : inventory.budget.postInit = .ok inventory.budget
  noLease : ∀ task ∈ inventory.tasks, task.isActive = false
  noAgent : ∀ agent ∈ inventory.agents, agent.isActive = false
  noTokens : inventory.budget.tokensReserved = 0
  noToolCalls : inventory.budget.toolCallsReserved = 0
  noDispatches : inventory.budget.agentDispatchesReserved = 0

omit [Hashing] [KeyedHashing] in
theorem Consistent.sound (h : Consistent run inventory) :
    Sound run.maxConcurrency inventory := by
  have hnone : inventory.tasks.filter TaskRecord.isActive = [] := by
    rw [List.filter_eq_nil_iff]
    intro task htask hactive
    rw [h.noLease task htask] at hactive
    cases hactive
  constructor
  · exact h.taskIds
  · exact h.agentIds
  · intro task htask
    exact (TaskRecord.postInit_ok (h.tasks task htask)).2
  · intro task htask hactive
    rw [h.noLease task htask] at hactive
    cases hactive
  · intro agent hagent hactive
    rw [h.noAgent agent hagent] at hactive
    cases hactive
  · have hlimit := h.concurrency
    unfold activeCount
    rw [hnone]
    show (0 : Int) ≤ _
    omega
  · unfold activeTokens
    rw [hnone, h.noTokens]
    rfl
  · unfold activeCount
    rw [hnone, h.noDispatches]
    rfl
  · exact (Budget.postInit_ok h.budget).2
  · intro task htask hactive
    rw [h.noLease task htask] at hactive
    cases hactive

/-- What holds of a desk and of what an accepted call makes of it holds after the call. -/
theorem next_of_performed {P : Desk → Prop} {desk : Desk} {call : Call} (hstays : P desk)
    (hperformed : ∀ inventory leases,
      perform signingKey run desk.inventory call = some (inventory, leases) →
        P ⟨inventory, desk.issued ++ leases, desk.succeeded ++ call.completes⟩) :
    P (Desk.next signingKey run desk call) := by
  unfold Desk.next
  cases hperform : perform signingKey run desk.inventory call with
  | none => exact hstays
  | some result => exact hperformed result.1 result.2 hperform

/-- The invariant holds after any calls. -/
theorem replay_sound {start : Desk} (hstart : Sound run.maxConcurrency start.inventory)
    (calls : List Call) :
    Sound run.maxConcurrency (replay (Desk.next signingKey run) start calls).inventory := by
  refine Replay.invariant (P := fun desk : Desk => Sound run.maxConcurrency desk.inventory) hstart
    ?_ calls
  intro desk call hsound
  refine next_of_performed (P := fun desk => Sound run.maxConcurrency desk.inventory) hsound ?_
  intro inventory leases hperform
  exact (perform_moves hsound hperform).sound hsound

theorem replay_withinPolicy {start : Desk} (hstart : Sound run.maxConcurrency start.inventory)
    (hpolicy : ∀ task ∈ start.inventory.tasks, task.WithinPolicy) (calls : List Call) :
    ∀ task ∈ (replay (Desk.next signingKey run) start calls).inventory.tasks,
      task.WithinPolicy := by
  induction calls using List.reverseRecOn with
  | nil => exact hpolicy
  | append_singleton calls call ih =>
      rw [Replay.snoc]
      refine next_of_performed (P := fun desk => ∀ task ∈ desk.inventory.tasks,
        task.WithinPolicy) ih ?_
      intro inventory leases hperform
      exact (perform_moves (replay_sound hstart calls) hperform).withinPolicy ih

/-! ### What the records account for -/

/-- Leases, agents, budget, attempts and waves in order. -/
structure Accounted (limit : Int) (inventory : Inventory) : Prop where
  /-- no agent holds two leases -/
  oneLease : ∀ task ∈ inventory.tasks, ∀ other ∈ inventory.tasks, ∀ lease ∈ task.lease,
    ∀ lease' ∈ other.lease, lease.agentId = lease'.agentId → task = other
  /-- an active task and its agent name each other -/
  taskLinks : ∀ task ∈ inventory.tasks, task.isActive = true →
    ∃ agent ∈ inventory.agents, Linked task agent
  agentLinks : ∀ agent ∈ inventory.agents, agent.isActive = true →
    ∃ task ∈ inventory.tasks, task.isActive = true ∧ Linked task agent
  concurrency : (activeCount inventory.tasks : Int) ≤ limit
  tokens : inventory.budget.tokensReserved = activeTokens inventory.tasks
  dispatches : inventory.budget.agentDispatchesReserved = activeCount inventory.tasks
  /-- settling an active task is not refused for want of a reservation -/
  settles : ∀ task ∈ inventory.tasks, task.isActive = true → ∀ tokens toolCalls message,
    0 ≤ tokens → 0 ≤ toolCalls →
      inventory.budget.settle (assignmentSettlement task tokens toolCalls) ≠
        .error (.domainError message)
  limits : inventory.budget.WithinLimits
  attempts : ∀ task ∈ inventory.tasks, task.attempt ≤ task.retryPolicy.maxAttempts
  /-- the dependencies of an active task succeeded, the lower waves succeeded or were cancelled -/
  cleared : ∀ task ∈ inventory.tasks, task.isActive = true → Cleared inventory.tasks task

section

omit [Hashing] [KeyedHashing]

theorem Sound.reserved {limit : Int} (h : Sound limit inventory) {task : TaskRecord}
    (htask : task ∈ inventory.tasks) (hactive : task.isActive = true) :
    task.estimatedTokens ≤ inventory.budget.tokensReserved ∧
      1 ≤ inventory.budget.agentDispatchesReserved := by
  have hmem : task ∈ inventory.tasks.filter TaskRecord.isActive :=
    List.mem_filter.mpr ⟨htask, hactive⟩
  constructor
  · rw [h.tokens]
    unfold activeTokens
    refine List.single_le_sum ?_ _ (List.mem_map_of_mem hmem)
    intro tokens htokens
    obtain ⟨other, hother, rfl⟩ := List.mem_map.mp htokens
    exact (h.constructed other (List.mem_of_mem_filter hother)).estimated
  · rw [h.dispatches]
    have hpositive := List.length_pos_of_mem hmem
    unfold activeCount
    omega

theorem Sound.settles {limit : Int} (h : Sound limit inventory) {task : TaskRecord}
    (htask : task ∈ inventory.tasks) (hactive : task.isActive = true) {tokens toolCalls : Int}
    (htokens : 0 ≤ tokens) (htoolCalls : 0 ≤ toolCalls) (message : String) :
    inventory.budget.settle (assignmentSettlement task tokens toolCalls) ≠
      .error (.domainError message) := by
  obtain ⟨henough, hone⟩ := h.reserved htask hactive
  have hestimated := (h.constructed task htask).estimated
  have hquantities : 0 ≤ task.estimatedTokens ∧ 0 ≤ tokens ∧ (0 : Int) ≤ 0 ∧ 0 ≤ toolCalls ∧
      (0 : Int) ≤ 1 ∧ (0 : Int) ≤ 1 :=
    ⟨hestimated, htokens, le_refl _, htoolCalls, by decide, by decide⟩
  have hvalues := h.limits.nonnegative
  simp only [Budget.values, List.mem_append, or_imp, forall_and, List.mem_cons, forall_eq,
    List.not_mem_nil, false_implies, and_true] at hvalues
  obtain ⟨hlimits, htokensUsed, htokensReserved, hcallsUsed, hcallsReserved, hdispatchesUsed, -⟩ :=
    hvalues
  intro hrefused
  unfold Budget.settle assignmentSettlement require at hrefused
  dsimp only at hrefused
  rw [if_pos hquantities, if_pos henough, if_pos hcallsReserved, if_pos hone] at hrefused
  refine Budget.postInit_error ?_ hrefused
  simp only [Budget.values, List.mem_append, or_imp, forall_and, List.mem_cons, forall_eq,
    List.not_mem_nil, false_implies, and_true]
  refine ⟨hlimits, ?_, ?_, ?_, ?_, ?_, ?_⟩ <;> omega

theorem Sound.accounted {limit : Int} (h : Sound limit inventory)
    (hpolicy : ∀ task ∈ inventory.tasks, task.WithinPolicy) : Accounted limit inventory := by
  constructor
  · intro task htask other hother lease hlease lease' hlease' hsame
    have hactive : task.isActive = true := by
      rw [(h.constructed task htask).active, hlease]
      rfl
    have hactive' : other.isActive = true := by
      rw [(h.constructed other hother).active, hlease']
      rfl
    obtain ⟨agent, hagent, hlinked⟩ := h.taskLinks task htask hactive
    obtain ⟨agent', hagent', hlinked'⟩ := h.taskLinks other hother hactive'
    obtain ⟨held, hheld, hid⟩ := hlinked.lease
    obtain ⟨held', hheld', hid'⟩ := hlinked'.lease
    have hid_eq : agent.id = agent'.id := by
      rw [← hid, ← hid', Option.some.inj (hheld.symm.trans hlease),
        Option.some.inj (hheld'.symm.trans hlease')]
      exact hsame
    have hagents := List.inj_on_of_nodup_map h.agentIds hagent hagent' hid_eq
    rw [← hagents] at hlinked'
    exact hlinked.task_eq h.taskIds htask hother hlinked'
  · exact h.taskLinks
  · exact h.agentLinks
  · exact h.concurrency
  · exact h.tokens
  · exact h.dispatches
  · intro task htask hactive tokens toolCalls message htokens htoolCalls
    exact h.settles htask hactive htokens htoolCalls message
  · exact h.limits
  · intro task htask
    exact (hpolicy task htask).1
  · exact h.cleared

end

/-- **The records account for each other after any calls**, when they start consistent and within
the tasks' retry policies. -/
theorem calls_accounted {start : Desk} (hstart : Consistent run start.inventory)
    (hattempts : ∀ task ∈ start.inventory.tasks, task.WithinPolicy) (calls : List Call) :
    Accounted run.maxConcurrency (replay (Desk.next signingKey run) start calls).inventory :=
  (replay_sound hstart.sound calls).accounted
    (replay_withinPolicy hstart.sound hattempts calls)

end Calls

/-! ### A task that is queued with no attempt left -/

/-- Every text has one digest. -/
@[reducible] def plainHashing : Hashing where
  sha256 _ := "aaaaaaaaaaaaaaaaaaaaaaaaaaaaaaaaaaaaaaaaaaaaaaaaaaaaaaaaaaaaaaaa"

/-- Every text has one code. -/
@[reducible] def plainSigning : KeyedHashing where
  hmac _ _ := "bbbbbbbbbbbbbbbbbbbbbbbbbbbbbbbbbbbbbbbbbbbbbbbbbbbbbbbbbbbbbbbb"

def sampleKey : List UInt8 := List.replicate 32 7

/-- The moment a number of seconds after 1970-01-01. -/
def sampleMoment (seconds : Int) (h : 0 ≤ seconds ∧ seconds ≤ 1000000) : DateTime where
  instant := seconds * 1000000
  inRange := by
    unfold Text.firstMoment Text.lastMoment
    omega

/-- A task at an attempt, of three. -/
def sampleQueued (attempt : Int) : TaskRecord where
  id := "task_1"
  runId := "run_1"
  title := "Route"
  instructions := ""
  kind := .design
  createdSeq := 0
  priority := 50
  wave := 0
  dependencies := []
  requiredCapabilities := []
  requiredAgentClass := none
  excludedAgentIds := []
  riskClass := .medium
  inputRevision := none
  outputSchemaDigest := none
  idempotencyKey := none
  requiredChecks := []
  reviewedTaskIds := []
  reviewedResultBindings := []
  estimatedTokens := 100
  retryPolicy := ⟨3, 5, 2, 300⟩
  state := .queued
  resultEvidenceIds := []
  completedByAgentId := none
  attempt := attempt
  nextEligibleAt := none
  lease := none
  failureCode := none
  failureMessage := none

def sampleAgent : AgentRecord where
  id := "agent_1"
  runId := "run_1"
  agentClass := .domainDesigner
  name := "Designer"
  createdSeq := 0
  parentAgentId := none
  capabilities := []
  state := .queued
  wave := 0
  currentTaskId := none
  lastHeartbeatAt := none

def sampleRunRecord : RunRecord where
  id := "run_1"
  phase := .executing
  coordinationStage := .schematicStage
  checkpointDigest := none
  coordinationRevision := 0
  strictUserCoordination := true
  requirePlanApproval := false
  requireIndependentCritic := false
  taskInventoryDigest := none
  planDigest := none
  revision := 0
  maxConcurrency := 1
  budget := ⟨some 1000, none, some 5, 0, 0, 0, 0, 0, 0⟩

/-- One task, one agent, and nothing handed out. -/
def sampleDesk (attempt : Int) : Desk where
  inventory := ⟨[sampleQueued attempt], [sampleAgent], sampleRunRecord.budget⟩
  issued := []
  succeeded := []

theorem atStart : (0 : Int) ≤ 0 ∧ (0 : Int) ≤ 1000000 := by decide

def sampleSchedule : Call := .schedule .executing (sampleMoment 0 atStart) 60

theorem sampleDesk_consistent {attempt : Int}
    (h : (sampleQueued attempt).postInit = .ok (sampleQueued attempt)) :
    Consistent sampleRunRecord (sampleDesk attempt).inventory := by
  constructor
  · decide
  · exact List.nodup_singleton _
  · exact List.nodup_singleton _
  · intro task htask
    rw [List.mem_singleton.mp htask]
    exact h
  · rfl
  · intro task htask
    rw [List.mem_singleton.mp htask]
    rfl
  · intro agent hagent
    rw [List.mem_singleton.mp hagent]
    rfl
  · rfl
  · rfl
  · rfl

theorem calls_accounted_sample :
    letI := plainHashing
    letI := plainSigning
    Accounted 1 (replay (Desk.next sampleKey sampleRunRecord) (sampleDesk 0)
      [sampleSchedule]).inventory :=
  letI := plainHashing
  letI := plainSigning
  calls_accounted (sampleDesk_consistent rfl) (by decide) [sampleSchedule]

/-- The task has had all its three attempts, is queued again, and gets a fourth. -/
theorem fourth_attempt :
    letI := plainHashing
    letI := plainSigning
    Consistent sampleRunRecord (sampleDesk 3).inventory ∧
      (∀ task ∈ (sampleDesk 3).inventory.tasks,
        task.attempt ≤ task.retryPolicy.maxAttempts) ∧
      ∃ task ∈ (replay (Desk.next sampleKey sampleRunRecord) (sampleDesk 3)
        [sampleSchedule]).inventory.tasks, task.retryPolicy.maxAttempts < task.attempt := by
  exact ⟨sampleDesk_consistent rfl, by decide, by decide +kernel⟩

end Evleda.Orchestrator
