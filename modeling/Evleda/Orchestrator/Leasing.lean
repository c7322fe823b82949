/-
What the scheduler can do to a run's tasks and agents, and what it keeps.

However long `schedule` is, it changes the records of a run in three ways only:
it sorts them, it writes the state of a waiting task, and it replaces one task
and one agent together.  Each such step, a move, says which lease it hands out.

The invariant couples the four kinds of record.  An active task and its agent
name each other; the budget has reserved exactly what the active tasks need; and
what is active has nothing unfinished before it.  It is proved for a move, and so
for any number of them.
-/
import Evleda.Orchestrator.Scheduler

namespace Evleda.Orchestrator

/-! ### What is counted -/

def TaskState.isWaiting : TaskState → Bool
  | .queued | .blocked | .retryWait => true
  | _ => false

/-- Succeeded or cancelled: nothing waits for it. -/
def TaskState.isPassed : TaskState → Bool
  | .succeeded | .cancelled => true
  | _ => false

def activeTokens (tasks : List TaskRecord) : Int :=
  ((tasks.filter TaskRecord.isActive).map (fun task => task.estimatedTokens)).sum

/-- What a task adds to the tokens reserved. -/
def TaskRecord.heldTokens (task : TaskRecord) : Int :=
  if task.isActive then task.estimatedTokens else 0

/-- What a task adds to the dispatches reserved. -/
def TaskRecord.heldDispatches (task : TaskRecord) : Int := if task.isActive then 1 else 0

theorem activeTokens_eq (tasks : List TaskRecord) :
    activeTokens tasks = (tasks.map TaskRecord.heldTokens).sum := by
  unfold activeTokens
  induction tasks with
  | nil => rfl
  | cons task rest ih =>
      rw [List.map_cons, List.sum_cons, ← ih]
      unfold TaskRecord.heldTokens
      by_cases hactive : task.isActive = true
      · rw [List.filter_cons_of_pos hactive, if_pos hactive, List.map_cons, List.sum_cons]
      · rw [List.filter_cons_of_neg hactive, if_neg hactive, zero_add]

theorem activeCount_eq (tasks : List TaskRecord) :
    (activeCount tasks : Int) = (tasks.map TaskRecord.heldDispatches).sum := by
  unfold activeCount
  induction tasks with
  | nil => rfl
  | cons task rest ih =>
      rw [List.map_cons, List.sum_cons, ← ih]
      unfold TaskRecord.heldDispatches
      by_cases hactive : task.isActive = true
      · rw [List.filter_cons_of_pos hactive, if_pos hactive, List.length_cons]
        omega
      · rw [List.filter_cons_of_neg hactive, if_neg hactive, zero_add]

theorem heldDispatches_nonneg (task : TaskRecord) : 0 ≤ task.heldDispatches := by
  unfold TaskRecord.heldDispatches
  split <;> decide

/-! ### Moves -/

/-- A task's contract is what it was. -/
structure Kept (task task' : TaskRecord) : Prop where
  id : task'.id = task.id
  wave : task'.wave = task.wave
  dependencies : task'.dependencies = task.dependencies
  estimatedTokens : task'.estimatedTokens = task.estimatedTokens
  retryPolicy : task'.retryPolicy = task.retryPolicy

/-- Nothing unfinished stands before a task. -/
structure Cleared (tasks : List TaskRecord) (task : TaskRecord) : Prop where
  dependencies : ∀ id ∈ task.dependencies, ∃ other ∈ tasks, other.id = id ∧
    other.state = .succeeded
  waves : ∀ other ∈ tasks, other.wave < task.wave → other.state.isPassed = true

/-- No attempt beyond the policy, and one left where the task may still be tried. -/
def TaskRecord.WithinPolicy (task : TaskRecord) : Prop :=
  task.attempt ≤ task.retryPolicy.maxAttempts ∧
    (task.state.isWaiting = true → task.attempt < task.retryPolicy.maxAttempts)

instance (task : TaskRecord) : Decidable task.WithinPolicy := inferInstanceAs (Decidable (_ ∧ _))

/-- The agent works on the task under the lease. -/
structure Linked (task : TaskRecord) (agent : AgentRecord) : Prop where
  lease : ∃ lease ∈ task.lease, lease.agentId = agent.id
  active : agent.isActive = true
  current : agent.currentTaskId = some task.id

/-- Neither has to do with the other, or with anything. -/
structure Unlinked (task : TaskRecord) (agent : AgentRecord) : Prop where
  lease : task.lease = none
  inactive : agent.isActive = false
  current : agent.currentTaskId = none

section Moves

variable [KeyedHashing]

/-- The token of a lease is the code of what the lease binds. -/
def Signed (signingKey : List UInt8) (lease : Lease) : Prop :=
  ∃ runId, lease.token = leaseToken signingKey {
    runId := runId
    taskId := lease.taskId
    agentId := lease.agentId
    attempt := lease.attempt
    acquiredAt := lease.acquiredAt
    expiresAt := lease.expiresAt
    taskContractDigest := lease.taskContractDigest
    agentContractDigest := lease.agentContractDigest }

/-- One task and one agent are replaced together, and a lease is handed out or none. -/
structure Replaces (signingKey : List UInt8) (limit : Int) (inventory : Inventory)
    (task task' : TaskRecord) (agent agent' : AgentRecord) (budget' : Budget)
    (issued : Option Lease) : Prop where
  hasTask : task ∈ inventory.tasks
  hasAgent : agent ∈ inventory.agents
  kept : Kept task task'
  constructed : task'.Constructed
  agentId : agent'.id = agent.id
  /-- the task is waiting and the agent idle, and they begin, or they are at work together -/
  before : (task.state.isWaiting = true ∧ Unlinked task agent ∧ Linked task' agent') ∨
    (task.isActive = true ∧ Linked task agent)
  /-- they are at work together after it, or no more -/
  after : Linked task' agent' ∨ Unlinked task' agent'
  tokens : budget'.tokensReserved =
    inventory.budget.tokensReserved - task.heldTokens + task'.heldTokens
  dispatches : budget'.agentDispatchesReserved =
    inventory.budget.agentDispatchesReserved - task.heldDispatches + task'.heldDispatches
  limits : budget'.WithinLimits
  /-- a task that gets active had an attempt left, a slot free and nothing before it -/
  begins : task.isActive = false →
    task'.attempt = task.attempt + 1 ∧ (activeCount inventory.tasks : Int) < limit ∧
      Cleared inventory.tasks task
  goesOn : task.isActive = true → task'.attempt = task.attempt ∧
    (task'.state.isWaiting = true → task'.attempt < task'.retryPolicy.maxAttempts)
  /-- the lease it has after it is the one handed out, or the one it had -/
  leased : ∀ lease ∈ task'.lease, (issued = some lease ∧ Signed signingKey lease) ∨
    (issued = none ∧ task.lease = some lease)
  handed : ∀ lease ∈ issued, task'.lease = some lease

/-- One step of the scheduler, with the lease it hands out. -/
inductive Move (signingKey : List UInt8) (limit : Int) (inventory : Inventory) :
    Option Lease → Inventory → Prop
  | sorts : Move signingKey limit inventory none inventory.sorted
  /-- the state of a waiting task is written -/
  | refreshes {task task' : TaskRecord} (hmem : task ∈ inventory.tasks) (hkept : Kept task task')
      (hconstructed : task'.Constructed) (hwaits : task.state.isWaiting = true)
      (hwaits' : task'.state.isWaiting = true) (hattempt : task'.attempt = task.attempt) :
      Move signingKey limit inventory none
        { inventory with tasks := putTask inventory.tasks task' }
  | replaces {task task' : TaskRecord} {agent agent' : AgentRecord} {budget' : Budget}
      {issued : Option Lease}
      (h : Replaces signingKey limit inventory task task' agent agent' budget' issued) :
      Move signingKey limit inventory issued (inventory.put task' agent' budget')

/-- Any number of steps, with the leases they hand out in order. -/
inductive MovesTo (signingKey : List UInt8) (limit : Int) (inventory : Inventory) :
    List Lease → Inventory → Prop
  | refl : MovesTo signingKey limit inventory [] inventory
  | tail {leases : List Lease} {middle inventory' : Inventory} {issued : Option Lease}
      (h : MovesTo signingKey limit inventory leases middle)
      (hmove : Move signingKey limit middle issued inventory') :
      MovesTo signingKey limit inventory (leases ++ issued.toList) inventory'

end Moves

/-! ### The invariant -/

/-- What holds of a run's records at every point. -/
structure Sound (limit : Int) (inventory : Inventory) : Prop where
  taskIds : (inventory.tasks.map (fun task => task.id)).Nodup
  agentIds : (inventory.agents.map (fun agent => agent.id)).Nodup
  constructed : ∀ task ∈ inventory.tasks, task.Constructed
  taskLinks : ∀ task ∈ inventory.tasks, task.isActive = true →
    ∃ agent ∈ inventory.agents, Linked task agent
  agentLinks : ∀ agent ∈ inventory.agents, agent.isActive = true →
    ∃ task ∈ inventory.tasks, task.isActive = true ∧ Linked task agent
  concurrency : (activeCount inventory.tasks : Int) ≤ limit
  tokens : inventory.budget.tokensReserved = activeTokens inventory.tasks
  dispatches : inventory.budget.agentDispatchesReserved = activeCount inventory.tasks
  limits : inventory.budget.WithinLimits
  cleared : ∀ task ∈ inventory.tasks, task.isActive = true → Cleared inventory.tasks task

variable {state : TaskState}

theorem waiting_not_active (h : state.isWaiting = true) :
    state.isActive = false := by
  cases state <;> first | rfl | cases h

theorem waiting_not_passed (h : state.isWaiting = true) :
    state.isPassed = false := by
  cases state <;> first | rfl | cases h

theorem active_not_passed (h : state.isActive = true) :
    state.isPassed = false := by
  cases state <;> first | rfl | cases h

theorem active_not_waiting (h : state.isActive = true) :
    state.isWaiting = false := by
  cases state <;> first | rfl | cases h

variable {tasks : List TaskRecord}

theorem Cleared.put {task changed changed' : TaskRecord}
    (hnodup : (tasks.map (fun task => task.id)).Nodup) (hmem : changed ∈ tasks)
    (hkept : Kept changed changed') (hopen : changed.state.isPassed = false)
    (h : Cleared tasks task) : Cleared (putTask tasks changed') task := by
  constructor
  · intro id hid
    obtain ⟨other, hother, rfl, hstate⟩ := h.dependencies id hid
    refine ⟨other, Keyed.mem_put_of_ne hother ?_, rfl, hstate⟩
    intro hsame
    rw [hkept.id] at hsame
    have heq := List.inj_on_of_nodup_map hnodup hother hmem hsame
    rw [← heq, hstate] at hopen
    cases hopen
  · intro other hother hwave
    rcases Keyed.mem_put.mp hother with ⟨hold, -⟩ | ⟨rfl, -⟩
    · exact h.waves other hold hwave
    · rw [hkept.wave] at hwave
      have hpassed := h.waves changed hmem hwave
      rw [hopen] at hpassed
      cases hpassed

theorem Cleared.of_kept {task task' : TaskRecord}
    (hkept : Kept task task') (h : Cleared tasks task) : Cleared tasks task' := by
  constructor
  · rw [hkept.dependencies]
    exact h.dependencies
  · rw [hkept.wave]
    exact h.waves

theorem Cleared.perm {tasks tasks' : List TaskRecord} {task : TaskRecord}
    (hperm : tasks'.Perm tasks) (h : Cleared tasks task) : Cleared tasks' task := by
  constructor
  · intro id hid
    obtain ⟨other, hother, hrest⟩ := h.dependencies id hid
    exact ⟨other, hperm.mem_iff.mpr hother, hrest⟩
  · intro other hother
    exact h.waves other (hperm.mem_iff.mp hother)

theorem resultTasks_perm (tasks : List TaskRecord) : (resultTasks tasks).Perm tasks :=
  sortBy_perm tasks

theorem resultAgents_perm (agents : List AgentRecord) : (resultAgents agents).Perm agents :=
  sortBy_perm agents

theorem activeTokens_perm {tasks tasks' : List TaskRecord} (h : tasks'.Perm tasks) :
    activeTokens tasks' = activeTokens tasks := by
  rw [activeTokens_eq, activeTokens_eq]
  exact (h.map _).sum_eq

theorem activeCount_perm {tasks tasks' : List TaskRecord} (h : tasks'.Perm tasks) :
    activeCount tasks' = activeCount tasks :=
  (h.filter _).length_eq

theorem Sound.sorted {limit : Int} {inventory : Inventory} (h : Sound limit inventory) :
    Sound limit inventory.sorted := by
  have htasks := resultTasks_perm inventory.tasks
  have hagents := resultAgents_perm inventory.agents
  constructor
  · exact (htasks.map _).nodup_iff.mpr h.taskIds
  · exact (hagents.map _).nodup_iff.mpr h.agentIds
  · intro task hmem
    exact h.constructed task (htasks.mem_iff.mp hmem)
  · intro task hmem hactive
    obtain ⟨agent, hagent, hlinked⟩ := h.taskLinks task (htasks.mem_iff.mp hmem) hactive
    exact ⟨agent, hagents.mem_iff.mpr hagent, hlinked⟩
  · intro agent hmem hactive
    obtain ⟨task, htask, hrest⟩ := h.agentLinks agent (hagents.mem_iff.mp hmem) hactive
    exact ⟨task, htasks.mem_iff.mpr htask, hrest⟩
  · show (activeCount (resultTasks inventory.tasks) : Int) ≤ limit
    rw [activeCount_perm htasks]
    exact h.concurrency
  · show inventory.budget.tokensReserved = activeTokens (resultTasks inventory.tasks)
    rw [activeTokens_perm htasks]
    exact h.tokens
  · show inventory.budget.agentDispatchesReserved = activeCount (resultTasks inventory.tasks)
    rw [activeCount_perm htasks]
    exact h.dispatches
  · exact h.limits
  · intro task hmem hactive
    exact (h.cleared task (htasks.mem_iff.mp hmem) hactive).perm htasks

theorem heldTokens_of_inactive {task : TaskRecord} (h : task.isActive = false) :
    task.heldTokens = 0 := by
  unfold TaskRecord.heldTokens
  rw [h]
  rfl

theorem heldDispatches_of_inactive {task : TaskRecord} (h : task.isActive = false) :
    task.heldDispatches = 0 := by
  unfold TaskRecord.heldDispatches
  rw [h]
  rfl

theorem activeTokens_put {task task' : TaskRecord}
    (hnodup : (tasks.map (fun task => task.id)).Nodup) (hmem : task ∈ tasks)
    (hid : task'.id = task.id) :
    activeTokens (putTask tasks task') = activeTokens tasks - task.heldTokens + task'.heldTokens := by
  rw [activeTokens_eq, activeTokens_eq]
  exact Keyed.sum_put TaskRecord.heldTokens hnodup hmem hid

theorem activeCount_put {task task' : TaskRecord}
    (hnodup : (tasks.map (fun task => task.id)).Nodup) (hmem : task ∈ tasks)
    (hid : task'.id = task.id) :
    (activeCount (putTask tasks task') : Int) =
      activeCount tasks - task.heldDispatches + task'.heldDispatches := by
  rw [activeCount_eq, activeCount_eq]
  exact Keyed.sum_put TaskRecord.heldDispatches hnodup hmem hid

theorem Sound.refreshes {limit : Int} {inventory : Inventory} {task task' : TaskRecord}
    (h : Sound limit inventory) (hmem : task ∈ inventory.tasks) (hkept : Kept task task')
    (hconstructed : task'.Constructed) (hwaits : task.state.isWaiting = true)
    (hwaits' : task'.state.isWaiting = true) :
    Sound limit { inventory with tasks := putTask inventory.tasks task' } := by
  have hinactive : task.isActive = false := waiting_not_active hwaits
  have hinactive' : task'.isActive = false := waiting_not_active hwaits'
  have hcount : (activeCount (putTask inventory.tasks task') : Int) =
      activeCount inventory.tasks := by
    rw [activeCount_put h.taskIds hmem hkept.id, heldDispatches_of_inactive hinactive,
      heldDispatches_of_inactive hinactive']
    omega
  constructor
  · show ((putTask inventory.tasks task').map (fun task => task.id)).Nodup
    unfold putTask
    rw [Keyed.map_key_put]
    exact h.taskIds
  · exact h.agentIds
  · intro other hother
    rcases Keyed.mem_put.mp hother with ⟨hold, -⟩ | ⟨rfl, -⟩
    · exact h.constructed other hold
    · exact hconstructed
  · intro other hother hactive
    rcases Keyed.mem_put.mp hother with ⟨hold, -⟩ | ⟨rfl, -⟩
    · exact h.taskLinks other hold hactive
    · rw [hinactive'] at hactive
      cases hactive
  · intro agent hagent hactive
    obtain ⟨other, hother, hactive', hlinked⟩ := h.agentLinks agent hagent hactive
    refine ⟨other, Keyed.mem_put_of_ne hother ?_, hactive', hlinked⟩
    intro hsame
    have heq := List.inj_on_of_nodup_map h.taskIds hother hmem (hsame.trans hkept.id)
    rw [heq, hinactive] at hactive'
    cases hactive'
  · show (activeCount (putTask inventory.tasks task') : Int) ≤ limit
    rw [hcount]
    exact h.concurrency
  · show inventory.budget.tokensReserved = activeTokens (putTask inventory.tasks task')
    rw [activeTokens_put h.taskIds hmem hkept.id, heldTokens_of_inactive hinactive,
      heldTokens_of_inactive hinactive', h.tokens]
    omega
  · show inventory.budget.agentDispatchesReserved = activeCount (putTask inventory.tasks task')
    rw [hcount]
    exact h.dispatches
  · exact h.limits
  · intro other hother hactive
    have hopen := waiting_not_passed hwaits
    rcases Keyed.mem_put.mp hother with ⟨hold, -⟩ | ⟨rfl, -⟩
    · exact (h.cleared other hold hactive).put h.taskIds hmem hkept hopen
    · rw [hinactive'] at hactive
      cases hactive

section Moves

variable [KeyedHashing] {signingKey : List UInt8} {limit : Int} {inventory inventory' : Inventory}
  {task task' : TaskRecord} {agent agent' : AgentRecord} {budget' : Budget} {issued : Option Lease}

section

omit [KeyedHashing]

theorem Unlinked.inactiveTask (h : Unlinked task agent) (hconstructed : task.Constructed) :
    task.isActive = false := by
  rw [Bool.eq_false_iff]
  intro hactive
  rw [hconstructed.active, h.lease] at hactive
  cases hactive

theorem Linked.activeTask (h : Linked task agent) (hconstructed : task.Constructed) :
    task.isActive = true := by
  obtain ⟨lease, hlease, -⟩ := h.lease
  rw [Option.mem_def] at hlease
  rw [hconstructed.active, hlease]
  rfl

theorem Linked.task_eq (hnodup : (inventory.tasks.map (fun task => task.id)).Nodup)
    (htask : task ∈ inventory.tasks) (htask' : task' ∈ inventory.tasks) (h : Linked task agent)
    (h' : Linked task' agent) : task = task' := by
  have hid : task.id = task'.id := by
    have hcurrent := h.current
    rw [h'.current] at hcurrent
    exact (Option.some.inj hcurrent).symm
  exact List.inj_on_of_nodup_map hnodup htask htask' hid

theorem Linked.agent_eq (hnodup : (inventory.agents.map (fun agent => agent.id)).Nodup)
    (hagent : agent ∈ inventory.agents) (hagent' : agent' ∈ inventory.agents)
    (h : Linked task agent) (h' : Linked task agent') : agent = agent' := by
  obtain ⟨lease, hlease, hid⟩ := h.lease
  obtain ⟨lease', hlease', hid'⟩ := h'.lease
  have hsame : lease = lease' := Option.some.inj (hlease.symm.trans hlease')
  rw [← hsame] at hid'
  exact List.inj_on_of_nodup_map hnodup hagent hagent' (hid.symm.trans hid')

end

namespace Replaces

theorem open_before (h : Replaces signingKey limit inventory task task' agent agent' budget' issued) :
    task.state.isPassed = false := by
  rcases h.before with ⟨hwaits, -, -⟩ | ⟨hactive, -⟩
  · exact waiting_not_passed hwaits
  · exact active_not_passed hactive

theorem other_agent (h : Replaces signingKey limit inventory task task' agent agent' budget' issued)
    (hsound : Sound limit inventory) {other : TaskRecord} (hother : other ∈ inventory.tasks)
    (hne : other.id ≠ task.id) {holder : AgentRecord} (hholder : holder ∈ inventory.agents)
    (hlinked : Linked other holder) : holder.id ≠ agent.id := by
  intro hsame
  have heq := List.inj_on_of_nodup_map hsound.agentIds hholder h.hasAgent hsame
  subst heq
  rcases h.before with ⟨-, hunlinked, -⟩ | ⟨-, hlinked'⟩
  · have hcurrent := hlinked.current
    rw [hunlinked.current] at hcurrent
    cases hcurrent
  · exact hne (by rw [Linked.task_eq hsound.taskIds hother h.hasTask hlinked hlinked'])

theorem other_task (h : Replaces signingKey limit inventory task task' agent agent' budget' issued)
    (hsound : Sound limit inventory) {other : AgentRecord} (hother : other ∈ inventory.agents)
    (hne : other.id ≠ agent.id) {held : TaskRecord} (hheld : held ∈ inventory.tasks)
    (hlinked : Linked held other) : held.id ≠ task.id := by
  intro hsame
  have heq := List.inj_on_of_nodup_map hsound.taskIds hheld h.hasTask hsame
  subst heq
  rcases h.before with ⟨-, hunlinked, -⟩ | ⟨-, hlinked'⟩
  · obtain ⟨lease, hlease, -⟩ := hlinked.lease
    rw [hunlinked.lease] at hlease
    cases hlease
  · exact hne (by rw [Linked.agent_eq hsound.agentIds hother h.hasAgent hlinked hlinked'])

theorem sound_taskLinks
    (h : Replaces signingKey limit inventory task task' agent agent' budget' issued)
    (hsound : Sound limit inventory) :
    ∀ other ∈ putTask inventory.tasks task', other.isActive = true →
      ∃ holder ∈ putAgent inventory.agents agent', Linked other holder := by
  intro other hother hactive
  rcases Keyed.mem_put.mp hother with ⟨hold, hne⟩ | ⟨rfl, -⟩
  · obtain ⟨holder, hholder, hlinked⟩ := hsound.taskLinks other hold hactive
    rw [h.kept.id] at hne
    refine ⟨holder, Keyed.mem_put_of_ne hholder ?_, hlinked⟩
    rw [h.agentId]
    exact h.other_agent hsound hold hne hholder hlinked
  · rcases h.after with hlinked | hunlinked
    · exact ⟨agent', Keyed.mem_put_self h.hasAgent h.agentId, hlinked⟩
    · rw [hunlinked.inactiveTask h.constructed] at hactive
      cases hactive

theorem sound_agentLinks
    (h : Replaces signingKey limit inventory task task' agent agent' budget' issued)
    (hsound : Sound limit inventory) :
    ∀ other ∈ putAgent inventory.agents agent', other.isActive = true →
      ∃ held ∈ putTask inventory.tasks task', held.isActive = true ∧ Linked held other := by
  intro other hother hactive
  rcases Keyed.mem_put.mp hother with ⟨hold, hne⟩ | ⟨rfl, -⟩
  · obtain ⟨held, hheld, hheldActive, hlinked⟩ := hsound.agentLinks other hold hactive
    rw [h.agentId] at hne
    refine ⟨held, Keyed.mem_put_of_ne hheld ?_, hheldActive, hlinked⟩
    rw [h.kept.id]
    exact h.other_task hsound hold hne hheld hlinked
  · rcases h.after with hlinked | hunlinked
    · exact ⟨task', Keyed.mem_put_self h.hasTask h.kept.id, hlinked.activeTask h.constructed,
        hlinked⟩
    · rw [hunlinked.inactive] at hactive
      cases hactive

theorem sound_concurrency
    (h : Replaces signingKey limit inventory task task' agent agent' budget' issued)
    (hsound : Sound limit inventory) :
    (activeCount (putTask inventory.tasks task') : Int) ≤ limit := by
  rw [activeCount_put hsound.taskIds h.hasTask h.kept.id]
  have hlimit := hsound.concurrency
  by_cases hactive' : task'.isActive = true
  · by_cases hactive : task.isActive = true
    · have hsame : task'.heldDispatches = task.heldDispatches := by
        unfold TaskRecord.heldDispatches
        rw [hactive, hactive']
      omega
    · rw [Bool.not_eq_true] at hactive
      obtain ⟨-, hroom, -⟩ := h.begins hactive
      rw [heldDispatches_of_inactive hactive]
      have hone : task'.heldDispatches = 1 := by
        unfold TaskRecord.heldDispatches
        rw [hactive']
        rfl
      omega
  · rw [Bool.not_eq_true] at hactive'
    rw [heldDispatches_of_inactive hactive']
    have hheld := heldDispatches_nonneg task
    omega

theorem withinPolicy
    (h : Replaces signingKey limit inventory task task' agent agent' budget' issued)
    (hpolicy : task.WithinPolicy) : task'.WithinPolicy := by
  unfold TaskRecord.WithinPolicy at hpolicy ⊢
  rcases h.before with ⟨hwaits, -, hlinked'⟩ | ⟨hactive, -⟩
  · have hleft := hpolicy.2 hwaits
    obtain ⟨hattempt, -, -⟩ := h.begins (waiting_not_active hwaits)
    have hactive' := hlinked'.activeTask h.constructed
    rw [hattempt, h.kept.retryPolicy]
    refine ⟨by omega, ?_⟩
    intro hwaits'
    rw [active_not_waiting hactive'] at hwaits'
    cases hwaits'
  · obtain ⟨hattempt, hretry⟩ := h.goesOn hactive
    refine ⟨?_, hretry⟩
    rw [hattempt, h.kept.retryPolicy]
    exact hpolicy.1

theorem sound_cleared
    (h : Replaces signingKey limit inventory task task' agent agent' budget' issued)
    (hsound : Sound limit inventory) :
    ∀ other ∈ putTask inventory.tasks task', other.isActive = true →
      Cleared (putTask inventory.tasks task') other := by
  intro other hother hactive
  rcases Keyed.mem_put.mp hother with ⟨hold, -⟩ | ⟨rfl, -⟩
  · exact (hsound.cleared other hold hactive).put hsound.taskIds h.hasTask h.kept h.open_before
  · refine Cleared.of_kept h.kept (Cleared.put hsound.taskIds h.hasTask h.kept h.open_before ?_)
    by_cases hbefore : task.isActive = true
    · exact hsound.cleared task h.hasTask hbefore
    · rw [Bool.not_eq_true] at hbefore
      exact (h.begins hbefore).2.2

theorem sound (h : Replaces signingKey limit inventory task task' agent agent' budget' issued)
    (hsound : Sound limit inventory) : Sound limit (inventory.put task' agent' budget') := by
  constructor
  · show ((putTask inventory.tasks task').map (fun task => task.id)).Nodup
    unfold putTask
    rw [Keyed.map_key_put]
    exact hsound.taskIds
  · show ((putAgent inventory.agents agent').map (fun agent => agent.id)).Nodup
    unfold putAgent
    rw [Keyed.map_key_put]
    exact hsound.agentIds
  · intro other hother
    rcases Keyed.mem_put.mp hother with ⟨hold, -⟩ | ⟨rfl, -⟩
    · exact hsound.constructed other hold
    · exact h.constructed
  · exact h.sound_taskLinks hsound
  · exact h.sound_agentLinks hsound
  · exact h.sound_concurrency hsound
  · show budget'.tokensReserved = activeTokens (putTask inventory.tasks task')
    rw [h.tokens, activeTokens_put hsound.taskIds h.hasTask h.kept.id, hsound.tokens]
  · show budget'.agentDispatchesReserved = activeCount (putTask inventory.tasks task')
    rw [h.dispatches, activeCount_put hsound.taskIds h.hasTask h.kept.id, hsound.dispatches]
  · exact h.limits
  · exact h.sound_cleared hsound

end Replaces

/-- **A move keeps the invariant.** -/
theorem Move.sound (h : Move signingKey limit inventory issued inventory')
    (hsound : Sound limit inventory) : Sound limit inventory' := by
  cases h with
  | sorts => exact hsound.sorted
  | refreshes hmem hkept hconstructed hwaits hwaits' hattempt =>
      exact hsound.refreshes hmem hkept hconstructed hwaits hwaits'
  | replaces h => exact h.sound hsound

theorem Move.withinPolicy (h : Move signingKey limit inventory issued inventory')
    (hpolicy : ∀ task ∈ inventory.tasks, task.WithinPolicy) :
    ∀ task ∈ inventory'.tasks, task.WithinPolicy := by
  cases h with
  | sorts =>
      intro other hother
      exact hpolicy other ((resultTasks_perm inventory.tasks).mem_iff.mp hother)
  | refreshes hmem hkept hconstructed hwaits hwaits' hattempt =>
      intro other hother
      rcases Keyed.mem_put.mp hother with ⟨hold, -⟩ | ⟨rfl, -⟩
      · exact hpolicy other hold
      · have hleft := (hpolicy _ hmem).2 hwaits
        unfold TaskRecord.WithinPolicy
        rw [hattempt, hkept.retryPolicy]
        exact ⟨le_of_lt hleft, fun _ => hleft⟩
  | replaces h =>
      intro other hother
      rcases Keyed.mem_put.mp hother with ⟨hold, -⟩ | ⟨rfl, -⟩
      · exact hpolicy other hold
      · exact h.withinPolicy (hpolicy _ h.hasTask)

theorem MovesTo.sound {leases : List Lease}
    (h : MovesTo signingKey limit inventory leases inventory') (hsound : Sound limit inventory) :
    Sound limit inventory' := by
  induction h with
  | refl => exact hsound
  | tail h hmove ih => exact hmove.sound ih

theorem MovesTo.withinPolicy {leases : List Lease}
    (h : MovesTo signingKey limit inventory leases inventory')
    (hpolicy : ∀ task ∈ inventory.tasks, task.WithinPolicy) :
    ∀ task ∈ inventory'.tasks, task.WithinPolicy := by
  induction h with
  | refl => exact hpolicy
  | tail h hmove ih => exact hmove.withinPolicy ih

theorem MovesTo.trans {leases leases' : List Lease} {middle : Inventory}
    (h : MovesTo signingKey limit inventory leases middle)
    (h' : MovesTo signingKey limit middle leases' inventory') :
    MovesTo signingKey limit inventory (leases ++ leases') inventory' := by
  induction h' with
  | refl =>
      rw [List.append_nil]
      exact h
  | tail h' hmove ih =>
      rw [← List.append_assoc]
      exact ih.tail hmove

theorem Move.movesTo (h : Move signingKey limit inventory issued inventory') :
    MovesTo signingKey limit inventory issued.toList inventory' :=
  MovesTo.refl.tail h

end Moves

end Evleda.Orchestrator
