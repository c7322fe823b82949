/-
Every operation of the scheduler is a run of moves.

A worker's call is one move: `start` and `heartbeat` go on with an assignment,
`succeed` and `fail` end it, and the lease the call is checked against is what
ties the task to the agent.  `reap_expired_leases` and `schedule` are loops over
a snapshot of the tasks.  Each round of a loop writes the record of its own task
only, so what the snapshot says of the other tasks is still true when their turn
comes; for the dispatching loop that is the whole argument that a candidate,
judged before the loop, may still be leased.
-/
import Evleda.Orchestrator.Leasing

namespace Evleda.Orchestrator

open Outcome

variable [Hashing] [KeyedHashing] {signingKey : List UInt8} {limit : Int}
  {inventory : Inventory} {task : TaskRecord} {agent : AgentRecord} {at' : DateTime}

/-! ### A lease that was checked -/

/-- What `_validate_lease` has made sure of. -/
structure Checked (task : TaskRecord) (agent : AgentRecord) (token : String) (at' : DateTime)
    (allowExpired : Bool) (lease : Lease) : Prop where
  held : task.lease = some lease
  token : lease.token = token
  taskId : lease.taskId = task.id
  agentId : lease.agentId = agent.id
  attempt : lease.attempt = task.attempt
  unexpired : allowExpired = false → at' < lease.expiresAt

variable {token : String}

theorem validateLease_ok {allowExpired : Bool} {lease : Lease}
    (h : validateLease signingKey task agent token at' allowExpired = .ok lease) :
    Checked task agent token at' allowExpired lease := by
  unfold validateLease at h
  simp only [bind_ok, require_ok, exists_const] at h
  obtain ⟨-, h⟩ := h
  cases hlease : task.lease with
  | none =>
      rw [hlease] at h
      cases h
  | some held =>
      rw [hlease] at h
      simp only [bind_ok, require_ok, exists_const, pure_ok] at h
      obtain ⟨htoken, ⟨htask, hagent, -, hattempt, -⟩, -, -, -, -, hexpiry, rfl⟩ := h
      exact ⟨hlease, htoken, htask, hagent, hattempt, hexpiry⟩

section

omit [Hashing] [KeyedHashing]

theorem Checked.linked {allowExpired : Bool} {lease : Lease}
    (h : Checked task agent token at' allowExpired lease) (hsound : Sound limit inventory)
    (htask : task ∈ inventory.tasks) (hagent : agent ∈ inventory.agents) :
    task.isActive = true ∧ Linked task agent := by
  have hactive : task.isActive = true := by
    rw [(hsound.constructed task htask).active, h.held]
    rfl
  obtain ⟨holder, hholder, hlinked⟩ := hsound.taskLinks task htask hactive
  obtain ⟨lease', hlease', hid⟩ := hlinked.lease
  have hsame : lease' = lease := Option.some.inj (hlease'.symm.trans h.held)
  rw [hsame, h.agentId] at hid
  have heq := List.inj_on_of_nodup_map hsound.agentIds hagent hholder hid
  rw [heq]
  exact ⟨hactive, hlinked⟩

/-! ### The end of an assignment -/

/-- What `succeed` and `_fail_validated` return. -/
structure Finished (task : TaskRecord) (agent : AgentRecord) (budget : Budget)
    (result : CompletionResult) : Prop where
  kept : Kept task result.task
  constructed : result.task.Constructed
  unlinked : Unlinked result.task result.agent
  attempt : result.task.attempt = task.attempt
  retries : result.task.state.isWaiting = true →
    result.task.attempt < result.task.retryPolicy.maxAttempts
  agentId : result.agent.id = agent.id
  limits : result.budget.WithinLimits
  tokens : result.budget.tokensReserved = budget.tokensReserved - task.estimatedTokens
  dispatches : result.budget.agentDispatchesReserved = budget.agentDispatchesReserved - 1

theorem releasedAgent_ok {released : AgentRecord} (h : releasedAgent agent at' = .ok released) :
    released.id = agent.id ∧ released.isActive = false ∧ released.currentTaskId = none := by
  have hreleased := AgentRecord.postInit_ok h
  subst hreleased
  exact ⟨rfl, rfl, rfl⟩

theorem failValidated_finished {budget : Budget} {report : FailureReport}
    {result : CompletionResult} (h : failValidated task agent budget report at' = .ok result) :
    Finished task agent budget result := by
  unfold failValidated at h
  simp only [bind_ok, require_ok, exists_const, pure_ok] at h
  obtain ⟨-, _, -, eligible, -, settled, hsettled, failed, hfailed, released, hreleased, rfl⟩ := h
  obtain ⟨hlimits, htokens, hdispatches⟩ := Budget.settle_ok hsettled
  obtain ⟨rfl, hconstructed⟩ := TaskRecord.postInit_ok hfailed
  obtain ⟨hid, hinactive, hcurrent⟩ := releasedAgent_ok hreleased
  refine ⟨⟨rfl, rfl, rfl, rfl, rfl⟩, hconstructed, ⟨rfl, hinactive, hcurrent⟩, rfl, ?_, hid,
    hlimits, htokens, hdispatches⟩
  intro hwaits
  by_cases hretry : (report.retryable &&
      decide (task.attempt < task.retryPolicy.maxAttempts)) = true
  · rw [Bool.and_eq_true, decide_eq_true_eq] at hretry
    exact hretry.2
  · change (if (report.retryable && decide (task.attempt < task.retryPolicy.maxAttempts)) = true
      then TaskState.retryWait else TaskState.failed).isWaiting = true at hwaits
    rw [if_neg hretry] at hwaits
    cases hwaits

end

theorem succeed_finished {budget : Budget} {report : SuccessReport}
    {result : CompletionResult}
    (h : succeed signingKey task agent token budget report at' = .ok result) :
    Finished task agent budget result ∧ result.task.state = .succeeded ∧
      ∃ lease, Checked task agent token at' false lease := by
  unfold succeed at h
  simp only [bind_ok, require_ok, exists_const, pure_ok] at h
  obtain ⟨lease, hlease, -, _, -, _, -, settled, hsettled, done, hdone, released, hreleased, rfl⟩ :=
    h
  obtain ⟨hlimits, htokens, hdispatches⟩ := Budget.settle_ok hsettled
  obtain ⟨rfl, hconstructed⟩ := TaskRecord.postInit_ok hdone
  obtain ⟨hid, hinactive, hcurrent⟩ := releasedAgent_ok hreleased
  refine ⟨⟨⟨rfl, rfl, rfl, rfl, rfl⟩, hconstructed, ⟨rfl, hinactive, hcurrent⟩, rfl, ?_, hid,
    hlimits, htokens, hdispatches⟩, rfl, lease, validateLease_ok hlease⟩
  intro hwaits
  cases hwaits

theorem fail_finished {budget : Budget} {report : FailureReport}
    {result : CompletionResult}
    (h : fail signingKey task agent token budget report at' = .ok result) :
    Finished task agent budget result ∧ ∃ lease, Checked task agent token at' true lease := by
  unfold fail at h
  simp only [bind_ok, require_ok, exists_const] at h
  obtain ⟨lease, hlease, -, hfailed⟩ := h
  exact ⟨failValidated_finished hfailed, lease, validateLease_ok hlease⟩

omit [Hashing] in
/-- Ending an assignment is a move. -/
theorem Finished.replaces {result : CompletionResult}
    (h : Finished task agent inventory.budget result) (htask : task ∈ inventory.tasks)
    (hagent : agent ∈ inventory.agents) (hactive : task.isActive = true)
    (hlinked : Linked task agent) :
    Replaces signingKey limit inventory task result.task agent result.agent result.budget none := by
  have hinactive' := h.unlinked.inactiveTask h.constructed
  have htokens : task.heldTokens = task.estimatedTokens := if_pos hactive
  have hdispatches : task.heldDispatches = 1 := if_pos hactive
  constructor
  · exact htask
  · exact hagent
  · exact h.kept
  · exact h.constructed
  · exact h.agentId
  · exact Or.inr ⟨hactive, hlinked⟩
  · exact Or.inr h.unlinked
  · rw [h.tokens, htokens, heldTokens_of_inactive hinactive', add_zero]
  · rw [h.dispatches, hdispatches, heldDispatches_of_inactive hinactive', add_zero]
  · exact h.limits
  · intro hinactive
    rw [hactive] at hinactive
    cases hinactive
  · intro _
    exact ⟨h.attempt, h.retries⟩
  · intro lease hlease
    rw [h.unlinked.lease] at hlease
    cases hlease
  · intro lease hlease
    cases hlease

/-! ### An assignment that goes on -/

/-- What `start` and `heartbeat` return. -/
structure GoesOn (task : TaskRecord) (agent : AgentRecord) (result : TaskRecord × AgentRecord) :
    Prop where
  kept : Kept task result.1
  constructed : result.1.Constructed
  active : result.1.isActive = true
  attempt : result.1.attempt = task.attempt
  agentId : result.2.id = agent.id
  agentActive : result.2.isActive = true
  current : result.2.currentTaskId = agent.currentTaskId

variable {result : TaskRecord × AgentRecord}

omit [Hashing] in
theorem GoesOn.replaces {issued : Option Lease}
    (h : GoesOn task agent result) (hsound : Sound limit inventory)
    (htask : task ∈ inventory.tasks) (hagent : agent ∈ inventory.agents)
    (hactive : task.isActive = true) (hlinked : Linked task agent)
    (hholder : ∃ lease ∈ result.1.lease, lease.agentId = agent.id)
    (hleased : ∀ lease ∈ result.1.lease, (issued = some lease ∧ Signed signingKey lease) ∨
      (issued = none ∧ task.lease = some lease))
    (hhanded : ∀ lease ∈ issued, result.1.lease = some lease) :
    Replaces signingKey limit inventory task result.1 agent result.2 inventory.budget issued := by
  have htokens : result.1.heldTokens = task.heldTokens := by
    unfold TaskRecord.heldTokens
    rw [h.active, hactive, h.kept.estimatedTokens]
  have hdispatches : result.1.heldDispatches = task.heldDispatches := by
    unfold TaskRecord.heldDispatches
    rw [h.active, hactive]
  constructor
  · exact htask
  · exact hagent
  · exact h.kept
  · exact h.constructed
  · exact h.agentId
  · exact Or.inr ⟨hactive, hlinked⟩
  · refine Or.inl ⟨?_, h.agentActive, ?_⟩
    · rw [h.agentId]
      exact hholder
    · rw [h.current, hlinked.current, h.kept.id]
  · rw [htokens]
    omega
  · rw [hdispatches]
    omega
  · exact hsound.limits
  · intro hinactive
    rw [hactive] at hinactive
    cases hinactive
  · intro _
    refine ⟨h.attempt, ?_⟩
    intro hwaits
    have hinactive : result.1.isActive = false := waiting_not_active hwaits
    rw [h.active] at hinactive
    cases hinactive
  · exact hleased
  · exact hhanded

omit [Hashing] [KeyedHashing] in
theorem GoesOn.of_records {task' : TaskRecord} {agent' : AgentRecord} (hkept : Kept task task')
    (hconstructed : task'.Constructed) (hactive : task'.isActive = true)
    (hattempt : task'.attempt = task.attempt) (hid : agent'.id = agent.id)
    (hagentActive : agent'.isActive = true)
    (hcurrent : agent'.currentTaskId = agent.currentTaskId) : GoesOn task agent (task', agent') :=
  ⟨hkept, hconstructed, hactive, hattempt, hid, hagentActive, hcurrent⟩

theorem start_goesOn
    (h : start signingKey task agent token at' = .ok result) :
    GoesOn task agent result ∧ result.1.lease = task.lease ∧
      ∃ lease, Checked task agent token at' false lease := by
  unfold start at h
  simp only [bind_ok, require_ok, exists_const, pure_ok] at h
  obtain ⟨lease, hlease, -, running, hrunning, worker, hworker, rfl⟩ := h
  obtain ⟨rfl, hconstructed⟩ := TaskRecord.postInit_ok hrunning
  have hagent := AgentRecord.postInit_ok hworker
  subst hagent
  exact ⟨.of_records ⟨rfl, rfl, rfl, rfl, rfl⟩ hconstructed rfl rfl rfl rfl rfl, rfl, lease,
    validateLease_ok hlease⟩

omit [Hashing] in
theorem signedLease_ok {m : LeaseMaterial} {lease : Lease}
    (h : signedLease signingKey m = .ok lease) :
    lease.token = leaseToken signingKey m ∧ lease.taskId = m.taskId ∧ lease.agentId = m.agentId ∧
      lease.attempt = m.attempt ∧ Signed signingKey lease := by
  have hlease := Lease.postInit_ok h
  subst hlease
  exact ⟨rfl, rfl, rfl, rfl, m.runId, rfl⟩

variable {leaseSeconds : Int}

theorem heartbeat_goesOn
    (h : heartbeat signingKey task agent token at' leaseSeconds = .ok result) :
    GoesOn task agent result ∧
      (∃ renewed, result.1.lease = some renewed ∧ renewed.agentId = agent.id ∧
        Signed signingKey renewed) ∧
      ∃ lease, Checked task agent token at' false lease := by
  unfold heartbeat at h
  simp only [bind_ok, require_ok, exists_const, pure_ok] at h
  obtain ⟨lease, hlease, ⟨hactive, hagentActive⟩, -, expiry, -, renewed, hrenewed, kept, hkept,
    worker, hworker, rfl⟩ := h
  obtain ⟨rfl, hconstructed⟩ := TaskRecord.postInit_ok hkept
  have hagent := AgentRecord.postInit_ok hworker
  subst hagent
  obtain ⟨-, -, hholder, -, hsigned⟩ := signedLease_ok hrenewed
  exact ⟨.of_records ⟨rfl, rfl, rfl, rfl, rfl⟩ hconstructed hactive rfl rfl hagentActive rfl,
    ⟨renewed, rfl, hholder, hsigned⟩, lease, validateLease_ok hlease⟩

/-- `start` is a move that hands out nothing. -/
theorem start_move
    (hsound : Sound limit inventory) (htask : task ∈ inventory.tasks)
    (hagent : agent ∈ inventory.agents)
    (h : start signingKey task agent token at' = .ok result) :
    Move signingKey limit inventory none (inventory.put result.1 result.2 inventory.budget) := by
  obtain ⟨hgoesOn, hsame, lease, hchecked⟩ := start_goesOn h
  obtain ⟨hactive, hlinked⟩ := hchecked.linked hsound htask hagent
  refine .replaces (hgoesOn.replaces hsound htask hagent hactive hlinked ?_ ?_ ?_)
  · rw [hsame]
    exact hlinked.lease
  · intro lease' hlease'
    rw [hsame] at hlease'
    exact Or.inr ⟨rfl, hlease'⟩
  · intro lease' hlease'
    cases hlease'

/-- `heartbeat` is a move that hands out the renewed lease. -/
theorem heartbeat_move
    (hsound : Sound limit inventory) (htask : task ∈ inventory.tasks)
    (hagent : agent ∈ inventory.agents)
    (h : heartbeat signingKey task agent token at' leaseSeconds = .ok result) :
    Move signingKey limit inventory result.1.lease
      (inventory.put result.1 result.2 inventory.budget) := by
  obtain ⟨hgoesOn, ⟨renewed, hrenewed, hholder, hsigned⟩, lease, hchecked⟩ := heartbeat_goesOn h
  obtain ⟨hactive, hlinked⟩ := hchecked.linked hsound htask hagent
  refine .replaces (hgoesOn.replaces hsound htask hagent hactive hlinked ?_ ?_ ?_)
  · exact ⟨renewed, hrenewed, hholder⟩
  · intro lease' hlease'
    rw [hrenewed, Option.mem_some_iff] at hlease'
    subst hlease'
    exact Or.inl ⟨hrenewed, hsigned⟩
  · intro lease' hlease'
    exact hlease'

/-! ### Reaping -/

variable {tasks : List TaskRecord}

section

omit [Hashing] [KeyedHashing]

theorem agentById_mem {agents : List AgentRecord} {id : String} (h : agentById agents id = some agent) :
    agent ∈ agents ∧ agent.id = id := by
  unfold agentById at h
  refine ⟨List.mem_of_find?_eq_some h, ?_⟩
  have hid := List.find?_some h
  exact beq_iff_eq.mp hid

theorem taskById_mem {id : String} (h : taskById tasks id = some task) :
    task ∈ tasks ∧ task.id = id := by
  unfold taskById at h
  refine ⟨List.mem_of_find?_eq_some h, ?_⟩
  have hid := List.find?_some h
  exact beq_iff_eq.mp hid

end

theorem reapTask_moves {reaped reaped' : Inventory × List String} (hsound : Sound limit reaped.1)
    (htask : task ∈ reaped.1.tasks) (h : reapTask signingKey at' reaped task = .ok reaped') :
    MovesTo signingKey limit reaped.1 [] reaped'.1 ∧
      ∀ other, other.id ≠ task.id → other ∈ reaped.1.tasks → other ∈ reaped'.1.tasks := by
  unfold reapTask at h
  by_cases hactive : task.isActive = true
  · rw [if_pos hactive] at h
    cases hheld : task.lease with
    | none =>
        rw [hheld] at h
        cases h
    | some held =>
        rw [hheld] at h
        dsimp only at h
        cases hfound : agentById reaped.1.agents held.agentId with
        | none =>
            rw [hfound] at h
            cases h
        | some agent =>
            rw [hfound] at h
            obtain ⟨lease, hlease, h⟩ := bind_ok.mp h
            by_cases hexpired : at' < lease.expiresAt
            · rw [if_pos hexpired] at h
              cases h
              exact ⟨.refl, fun _ _ hother => hother⟩
            · rw [if_neg hexpired] at h
              obtain ⟨result, hfailed, h⟩ := bind_ok.mp h
              rw [pure_ok] at h
              subst h
              have hagent := (agentById_mem hfound).1
              obtain ⟨-, hlinked⟩ := (validateLease_ok hlease).linked hsound htask hagent
              have hfinished := failValidated_finished hfailed
              refine ⟨(Move.replaces (hfinished.replaces htask hagent hactive hlinked)).movesTo,
                ?_⟩
              intro other hne hother
              refine Keyed.mem_put_of_ne hother ?_
              rw [hfinished.kept.id]
              exact hne
  · rw [if_neg hactive] at h
    cases h
    exact ⟨.refl, fun _ _ hother => hother⟩

theorem reapAll_moves {reaped : Inventory × List String} (hsound : Sound limit inventory)
    (h : reapAll signingKey inventory at' = .ok reaped) :
    MovesTo signingKey limit inventory [] reaped.1 := by
  unfold reapAll at h
  simp only [bind_ok, require_ok, exists_const] at h
  obtain ⟨-, -, -, -, -, h⟩ := h
  have hperm : (sortBy taskOrder inventory.tasks).Perm inventory.tasks := sortBy_perm _
  have hnodup : ((sortBy taskOrder inventory.tasks).map (fun task => task.id)).Nodup :=
    (hperm.map _).nodup_iff.mpr hsound.taskIds
  refine Keyed.foldlM_invariant
    (fun reaped : Inventory × List String => MovesTo signingKey limit inventory [] reaped.1)
    (fun reaped task => task ∈ reaped.1.tasks) ?_ hnodup .refl ?_ h
  · intro reaped task reaped' hmoves htask hstep
    obtain ⟨hreaps, hothers⟩ := reapTask_moves (hmoves.sound hsound) htask hstep
    refine ⟨hmoves.trans hreaps, ?_⟩
    intro other hne hother
    exact hothers other hne hother
  · intro task htask
    exact hperm.mem_iff.mp htask

/-- **`reap_expired_leases` is a run of moves that hands out nothing.** -/
theorem reapExpiredLeases_moves {reaped : Inventory × List String} (hsound : Sound limit inventory)
    (h : reapExpiredLeases signingKey inventory at' = .ok reaped) :
    MovesTo signingKey limit inventory [] reaped.1 := by
  unfold reapExpiredLeases at h
  simp only [bind_ok, pure_ok] at h
  obtain ⟨reaped', hreaped, rfl⟩ := h
  exact (reapAll_moves hsound hreaped).tail .sorts

/-! ### Refreshing the waiting tasks -/

section

omit [Hashing]

theorem rewritten_moves {task' : TaskRecord} (htask : task ∈ tasks)
    (hkept : Kept task task') (hconstructed : task'.Constructed)
    (hwaits : task.state.isWaiting = true) (hwaits' : task'.state.isWaiting = true)
    (hattempt : task'.attempt = task.attempt) :
    MovesTo signingKey limit { inventory with tasks := tasks } []
        { inventory with tasks := putTask tasks task' } ∧
      ∀ other, other.id ≠ task.id → other ∈ tasks → other ∈ putTask tasks task' := by
  refine ⟨(Move.refreshes htask hkept hconstructed hwaits hwaits' hattempt).movesTo, ?_⟩
  intro other hne hother
  refine Keyed.mem_put_of_ne hother ?_
  rw [hkept.id]
  exact hne

/-- Looking at one waiting task is a move or nothing. -/
theorem refreshTask_moves {refreshed refreshed' : List TaskRecord × List String}
    (htask : task ∈ refreshed.1) (h : refreshTask refreshed task = .ok refreshed') :
    MovesTo signingKey limit { inventory with tasks := refreshed.1 } []
        { inventory with tasks := refreshed'.1 } ∧
      ∀ other, other.id ≠ task.id → other ∈ refreshed.1 → other ∈ refreshed'.1 := by
  unfold refreshTask at h
  by_cases hstate : task.state = .queued ∨ task.state = .retryWait ∨ task.state = .blocked
  · have hwaits : task.state.isWaiting = true := by
      rcases hstate with hstate | hstate | hstate <;> rw [hstate] <;> rfl
    rw [if_pos hstate] at h
    by_cases hfailed : ∃ dependency ∈ task.dependencies,
        stateOf refreshed.1 dependency = some .failed ∨
          stateOf refreshed.1 dependency = some .cancelled
    · rw [if_pos hfailed] at h
      obtain ⟨blocked, hblocked, h⟩ := bind_ok.mp h
      rw [pure_ok] at h
      subst h
      obtain ⟨rfl, hconstructed⟩ := TaskRecord.postInit_ok hblocked
      exact rewritten_moves htask ⟨rfl, rfl, rfl, rfl, rfl⟩ hconstructed hwaits rfl rfl
    · rw [if_neg hfailed] at h
      by_cases hblocked : task.state = .blocked
      · rw [if_pos hblocked] at h
        obtain ⟨queued, hqueued, h⟩ := bind_ok.mp h
        rw [pure_ok] at h
        subst h
        obtain ⟨rfl, hconstructed⟩ := TaskRecord.postInit_ok hqueued
        exact rewritten_moves htask ⟨rfl, rfl, rfl, rfl, rfl⟩ hconstructed hwaits rfl rfl
      · rw [if_neg hblocked] at h
        cases h
        exact ⟨.refl, fun _ _ hother => hother⟩
  · rw [if_neg hstate] at h
    cases h
    exact ⟨.refl, fun _ _ hother => hother⟩

theorem refreshAll_moves {refreshed : List TaskRecord × List String}
    (hnodup : (inventory.tasks.map (fun task => task.id)).Nodup)
    (h : (sortBy taskOrder inventory.tasks).foldlM refreshTask (inventory.tasks, []) =
      .ok refreshed) :
    MovesTo signingKey limit inventory [] { inventory with tasks := refreshed.1 } := by
  have hperm : (sortBy taskOrder inventory.tasks).Perm inventory.tasks := sortBy_perm _
  have hnodup' : ((sortBy taskOrder inventory.tasks).map (fun task => task.id)).Nodup :=
    (hperm.map _).nodup_iff.mpr hnodup
  refine Keyed.foldlM_invariant
    (fun refreshed : List TaskRecord × List String =>
      MovesTo signingKey limit inventory [] { inventory with tasks := refreshed.1 })
    (fun refreshed task => task ∈ refreshed.1) ?_ hnodup' .refl ?_ h
  · intro refreshed task refreshed' hmoves htask hstep
    obtain ⟨hrefreshes, hothers⟩ := refreshTask_moves htask hstep
    refine ⟨hmoves.trans hrefreshes, ?_⟩
    intro other hne hother
    exact hothers other hne hother
  · intro task htask
    exact hperm.mem_iff.mp htask

end

/-! ### Dispatching -/

/-- A candidate is still waiting, with nothing unfinished before it. -/
structure Dispatchable (progress : Dispatching) (task : TaskRecord) : Prop where
  present : task ∈ progress.inventory.tasks
  waits : task.state.isWaiting = true
  cleared : Cleared progress.inventory.tasks task

/-- How far the dispatching has come from the inventory it began with. -/
structure DispatchedFrom (signingKey : List UInt8) (limit : Int) (inventory : Inventory)
    (progress : Dispatching) : Prop where
  moves : MovesTo signingKey limit inventory (progress.dispatches.map Dispatch.lease)
    progress.inventory
  count : activeCount progress.inventory.tasks =
    activeCount inventory.tasks + progress.dispatches.length
  available : ∀ agent ∈ progress.available, agent ∈ progress.inventory.agents ∧
    agent.isActive = false ∧ agent.currentTaskId = none
  agentIds : (progress.available.map (fun agent => agent.id)).Nodup

/-- Leasing a candidate to an available agent is a move that hands out the lease. -/
theorem assign_move {run : RunRecord} {progress progress' : Dispatching}
    {reserved : Budget} (hsound : Sound limit progress.inventory)
    (htask : Dispatchable progress task) (hagent : agent ∈ progress.inventory.agents)
    (hidle : agent.isActive = false ∧ agent.currentTaskId = none)
    (hroom : (activeCount progress.inventory.tasks : Int) < limit)
    (hreserved : progress.inventory.budget.reserve task.estimatedTokens 0 1 = .ok reserved)
    (h : assign signingKey run at' leaseSeconds progress task agent reserved = .ok progress') :
    ∃ (lease : Lease) (task' : TaskRecord) (agent' : AgentRecord),
      Replaces signingKey limit progress.inventory task task' agent agent' reserved (some lease) ∧
        task'.isActive = true ∧
        progress' = {
          inventory := progress.inventory.put task' agent' reserved
          available := progress.available.erase agent
          dispatches := progress.dispatches ++ [⟨task.id, agent.id, lease, task.estimatedTokens⟩]
          deferred := progress.deferred } := by
  unfold assign at h
  simp only [bind_ok, pure_ok] at h
  obtain ⟨expiresAt, -, lease, hlease, task', htask', agent', hagent', rfl⟩ := h
  obtain ⟨-, -, hholder, -, hsigned⟩ := signedLease_ok hlease
  obtain ⟨rfl, hconstructed⟩ := TaskRecord.postInit_ok htask'
  have hleased := AgentRecord.postInit_ok hagent'
  subst hleased
  obtain ⟨hlimits, htokens, hdispatches⟩ := Budget.reserve_ok hreserved
  have hinactive : task.isActive = false := waiting_not_active htask.waits
  have hnone : task.lease = none := by
    have hactive := (hsound.constructed task htask.present).active
    rw [hinactive] at hactive
    cases hheld : task.lease with
    | none => rfl
    | some held =>
        rw [hheld] at hactive
        exact absurd (hactive.mpr rfl) (by decide)
  refine ⟨lease, _, _, ?_, rfl, rfl⟩
  have hlinked : Linked
      { task with
        state := .leased
        attempt := task.attempt + 1
        nextEligibleAt := none
        lease := some lease
        failureCode := none
        failureMessage := none }
      { agent with
        state := .leased
        currentTaskId := some task.id
        lastHeartbeatAt := some at' } := ⟨⟨lease, rfl, hholder⟩, rfl, rfl⟩
  constructor
  · exact htask.present
  · exact hagent
  · exact ⟨rfl, rfl, rfl, rfl, rfl⟩
  · exact hconstructed
  · rfl
  · exact Or.inl ⟨htask.waits, ⟨hnone, hidle.1, hidle.2⟩, hlinked⟩
  · exact Or.inl hlinked
  · rw [htokens, heldTokens_of_inactive hinactive]
    show _ = _ - 0 + task.estimatedTokens
    omega
  · rw [hdispatches, heldDispatches_of_inactive hinactive]
    show _ = _ - 0 + 1
    omega
  · exact hlimits
  · intro _
    exact ⟨rfl, hroom, htask.cleared⟩
  · intro hactive
    rw [hinactive] at hactive
    cases hactive
  · intro lease' hlease'
    rw [Option.mem_some_iff] at hlease'
    subst hlease'
    exact Or.inl ⟨rfl, hsigned⟩
  · intro lease' hlease'
    exact hlease'

omit [Hashing] [KeyedHashing] in
theorem bestAgent_mem {agents : List AgentRecord} {excluded : List String}
    (h : bestAgent task agents excluded = some agent) : agent ∈ agents := by
  unfold bestAgent at h
  have hmem := List.mem_of_mem_head? h
  rw [mem_sortBy] at hmem
  exact List.mem_of_mem_filter hmem

omit [Hashing] in
/-- One more assignment leaves the dispatching where the loop wants it. -/
theorem DispatchedFrom.assigned {progress : Dispatching} {task' : TaskRecord}
    {agent' : AgentRecord} {reserved : Budget} {lease : Lease} {deferred : List String}
    (h : DispatchedFrom signingKey limit inventory progress)
    (hsound : Sound limit progress.inventory)
    (hreplaces : Replaces signingKey limit progress.inventory task task' agent agent' reserved
      (some lease))
    (hinactive : task.isActive = false) (hactive' : task'.isActive = true)
    (hagent : agent ∈ progress.available) :
    DispatchedFrom signingKey limit inventory {
      inventory := progress.inventory.put task' agent' reserved
      available := progress.available.erase agent
      dispatches := progress.dispatches ++ [⟨task.id, agent.id, lease, task.estimatedTokens⟩]
      deferred := deferred } := by
  constructor
  · show MovesTo signingKey limit inventory
      ((progress.dispatches ++ ([⟨task.id, agent.id, lease, task.estimatedTokens⟩] :
        List Dispatch)).map Dispatch.lease) (progress.inventory.put task' agent' reserved)
    rw [List.map_append]
    exact h.moves.tail (.replaces hreplaces)
  · have hcount := activeCount_put hsound.taskIds hreplaces.hasTask hreplaces.kept.id
    rw [heldDispatches_of_inactive hinactive] at hcount
    have hone : task'.heldDispatches = 1 := if_pos hactive'
    have hbefore := h.count
    show activeCount (putTask progress.inventory.tasks task') = _ +
      (progress.dispatches ++ [_]).length
    rw [List.length_append, List.length_singleton]
    omega
  · intro other hother
    have hnodup : progress.available.Nodup := h.agentIds.of_map
    rw [hnodup.mem_erase_iff] at hother
    obtain ⟨hmem, hidle⟩ := h.available other hother.2
    refine ⟨Keyed.mem_put_of_ne hmem ?_, hidle⟩
    rw [hreplaces.agentId]
    intro hsame
    exact hother.1 (List.inj_on_of_nodup_map h.agentIds hother.2 hagent hsame)
  · exact h.agentIds.sublist ((List.erase_sublist).map _)

theorem dispatchTask_moves {run : RunRecord}
    {progress progress' : Dispatching} (hsound : Sound run.maxConcurrency inventory)
    (hprogress : DispatchedFrom signingKey run.maxConcurrency inventory progress)
    (htask : Dispatchable progress task)
    (h : dispatchTask signingKey run at' leaseSeconds
      (run.maxConcurrency - activeCount inventory.tasks).toNat progress task = .ok progress') :
    DispatchedFrom signingKey run.maxConcurrency inventory progress' ∧
      ∀ other, other.id ≠ task.id → Dispatchable progress other →
        Dispatchable progress' other := by
  have hsame : progress' = progress →
      DispatchedFrom signingKey run.maxConcurrency inventory progress' ∧
        ∀ other, other.id ≠ task.id → Dispatchable progress other →
          Dispatchable progress' other := by
    rintro rfl
    exact ⟨hprogress, fun _ _ hother => hother⟩
  unfold dispatchTask at h
  by_cases hslots : (run.maxConcurrency - activeCount inventory.tasks).toNat ≤
      progress.dispatches.length
  · rw [if_pos hslots] at h
    cases h
    exact hsame rfl
  rw [if_neg hslots] at h
  by_cases hbinds : task.reviewedTaskIds ≠ [] ∧ task.bindsReviews = false
  · rw [if_pos hbinds] at h
    cases h
    exact hsame rfl
  rw [if_neg hbinds] at h
  cases hcompleters : reviewedCompleters progress.inventory.tasks task with
  | none =>
      rw [hcompleters] at h
      cases h
      exact hsame rfl
  | some excluded =>
      rw [hcompleters] at h
      dsimp only at h
      cases hbest : bestAgent task progress.available excluded with
      | none =>
          rw [hbest] at h
          cases h
          exact hsame rfl
      | some agent =>
          rw [hbest] at h
          dsimp only at h
          cases hreserve : progress.inventory.budget.reserve task.estimatedTokens 0 1 with
          | error failure =>
              rw [hreserve] at h
              cases failure with
              | budgetExceeded message =>
                  cases h
                  exact ⟨⟨hprogress.moves, hprogress.count, hprogress.available,
                    hprogress.agentIds⟩, fun _ _ hother => ⟨hother.present, hother.waits,
                      hother.cleared⟩⟩
              | _ => cases h
          | ok reserved =>
              rw [hreserve] at h
              have hsound' := hprogress.moves.sound hsound
              have hmem := bestAgent_mem hbest
              obtain ⟨hagent, hidle⟩ := hprogress.available agent hmem
              have hroom : (activeCount progress.inventory.tasks : Int) < run.maxConcurrency := by
                have hcount := hprogress.count
                omega
              obtain ⟨lease, task', agent', hreplaces, hactive', rfl⟩ :=
                assign_move hsound' htask hagent hidle hroom hreserve h
              refine ⟨hprogress.assigned hsound' hreplaces (waiting_not_active htask.waits)
                hactive' hmem, ?_⟩
              intro other hne hother
              refine ⟨Keyed.mem_put_of_ne hother.present ?_, hother.waits,
                hother.cleared.put hsound'.taskIds htask.present hreplaces.kept
                  (waiting_not_passed htask.waits)⟩
              rw [hreplaces.kept.id]
              exact hne

section

omit [Hashing] [KeyedHashing]

theorem stateOf_mem {id : String} {state : TaskState}
    (h : stateOf tasks id = some state) : ∃ other ∈ tasks, other.id = id ∧ other.state = state := by
  unfold stateOf at h
  obtain ⟨other, hother, hstate⟩ := Option.map_eq_some_iff.mp h
  obtain ⟨hmem, hid⟩ := taskById_mem hother
  exact ⟨other, hmem, hid, hstate⟩

theorem isEligible_cleared (h : isEligible task tasks at' = true) :
    task.state.isWaiting = true ∧ Cleared tasks task := by
  unfold isEligible at h
  simp only [Bool.and_eq_true, Bool.or_eq_true, decide_eq_true_eq, List.all_eq_true,
    Bool.not_eq_true', decide_eq_false_iff_not] at h
  obtain ⟨⟨⟨hstate, -⟩, hdependencies⟩, hwaves⟩ := h
  refine ⟨?_, ?_, ?_⟩
  · rcases hstate with hstate | hstate <;> rw [hstate] <;> rfl
  · intro id hid
    exact stateOf_mem (hdependencies id hid)
  · intro other hother hwave
    rcases hwaves other hother with (hnot | hstate) | hstate
    · exact absurd hwave hnot
    · rw [hstate]
      rfl
    · rw [hstate]
      rfl

theorem candidates_mem (h : task ∈ candidates tasks at') :
    task ∈ tasks ∧ task.state.isWaiting = true ∧ Cleared tasks task := by
  unfold candidates at h
  rw [mem_sortBy] at h
  have heligible := List.mem_of_mem_filter h
  rw [List.mem_filter] at heligible
  exact ⟨heligible.1, isEligible_cleared heligible.2⟩

theorem candidates_nodup
    (h : (tasks.map (fun task => task.id)).Nodup) :
    ((candidates tasks at').map (fun task => task.id)).Nodup := by
  unfold candidates
  refine ((sortBy_perm _).map _).nodup_iff.mpr ?_
  exact h.sublist ((List.filter_sublist.trans List.filter_sublist).map _)

end

theorem dispatchAll_moves {run : RunRecord} {dispatched : Dispatching}
    (hsound : Sound run.maxConcurrency inventory)
    (h : dispatchAll signingKey run inventory at' leaseSeconds = .ok dispatched) :
    MovesTo signingKey run.maxConcurrency inventory (dispatched.dispatches.map Dispatch.lease)
      dispatched.inventory := by
  unfold dispatchAll at h
  refine (Keyed.foldlM_invariant (DispatchedFrom signingKey run.maxConcurrency inventory)
    Dispatchable ?_ (candidates_nodup hsound.taskIds) ?_ ?_ h).moves
  · intro progress task progress' hprogress htask hstep
    exact dispatchTask_moves hsound hprogress htask hstep
  · refine ⟨.refl, rfl, ?_, ?_⟩
    · intro agent hagent
      rw [List.mem_filter, Bool.and_eq_true, Option.isNone_iff_eq_none] at hagent
      obtain ⟨hmem, hstate, hcurrent⟩ := hagent
      refine ⟨hmem, ?_, hcurrent⟩
      rw [Bool.or_eq_true, decide_eq_true_eq, decide_eq_true_eq] at hstate
      unfold AgentRecord.isActive
      rcases hstate with hstate | hstate <;> rw [hstate] <;> rfl
    · exact hsound.agentIds.sublist (List.filter_sublist.map _)
  · intro task htask
    obtain ⟨hmem, hwaits, hcleared⟩ := candidates_mem htask
    exact ⟨hmem, hwaits, hcleared⟩

/-- **`schedule` is a run of moves that hands out the leases it reports.** -/
theorem schedule_moves {run : RunRecord} {leaseSeconds : Int} {result : ScheduleResult}
    (hsound : Sound run.maxConcurrency inventory)
    (h : schedule signingKey run inventory.tasks inventory.agents (some inventory.budget) at'
      leaseSeconds = .ok result) :
    MovesTo signingKey run.maxConcurrency inventory (result.dispatches.map Dispatch.lease)
      result.inventory := by
  unfold schedule at h
  simp only [bind_ok, pure_ok] at h
  obtain ⟨-, -, reaped, hreaped, refreshed, hrefreshed, dispatched, hdispatched, rfl⟩ := h
  have hreaps := reapExpiredLeases_moves hsound hreaped
  have hrefreshes : MovesTo signingKey run.maxConcurrency reaped.1 []
      { reaped.1 with tasks := refreshed.1 } :=
    refreshAll_moves (hreaps.sound hsound).taskIds hrefreshed
  have hmoves := hreaps.trans hrefreshes
  have hdispatches := dispatchAll_moves (hmoves.sound hsound) hdispatched
  have hsorted := (hmoves.trans hdispatches).tail .sorts
  rw [List.nil_append, List.nil_append, Option.toList_none, List.append_nil] at hsorted
  exact hsorted

end Evleda.Orchestrator
