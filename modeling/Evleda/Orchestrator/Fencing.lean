/-
Fencing: only the newest token of a task completes it.

Every lease that is handed out for a task takes the place of the one before, so
the lease a task has is always the last that was handed out for it.  A worker
may present any token it was ever given, but it is compared with the token of
the lease the task has; and two leases that differ in anything, the attempt, the
agent or the expiry, differ in their tokens, because a token is the code of all
of that under a key the workers do not know.

So an older token is refused whatever happened in between.
-/
import Evleda.Orchestrator.Calls

namespace Evleda.Orchestrator

section Fencing

variable [KeyedHashing] {signingKey : List UInt8} {limit : Int} {inventory inventory' : Inventory}

/-! ### Tokens -/

/-- The leases handed out for a task. -/
def leasesOf (issued : List Lease) (taskId : String) : List Lease :=
  issued.filter (fun lease => lease.taskId = taskId)

omit [KeyedHashing] in
theorem canonicalTime_injective : Function.Injective canonicalTime := by
  intro a b h
  unfold canonicalTime at h
  rw [← String.toList_inj, String.toList_append, String.toList_append] at h
  have htexts := List.append_cancel_right h
  exact DateTime.isoformat_injective (String.toList_inj.mp htexts)

omit [KeyedHashing] in
/-- Materials are equal when their texts' values are. -/
theorem material_inj {m m' : LeaseMaterial} (h : m.json = m'.json) : m = m' := by
  have hperm := Json.perm_of_object_eq h
  have hmem := fun member => (hperm.mem_iff (a := member)).mp
  have hrun : m.runId = m'.runId := by
    simpa using hmem ("run_id", .str m.runId) (by simp)
  have htask : m.taskId = m'.taskId := by
    simpa using hmem ("task_id", .str m.taskId) (by simp)
  have hagent : m.agentId = m'.agentId := by
    simpa using hmem ("agent_id", .str m.agentId) (by simp)
  have hattempt : m.attempt = m'.attempt := by
    simpa using hmem ("attempt", .int m.attempt) (by simp)
  have hacquired : canonicalTime m.acquiredAt = canonicalTime m'.acquiredAt := by
    simpa using hmem ("acquired_at", .str (canonicalTime m.acquiredAt)) (by simp)
  have hexpires : canonicalTime m.expiresAt = canonicalTime m'.expiresAt := by
    simpa using hmem ("expires_at", .str (canonicalTime m.expiresAt)) (by simp)
  have hcontract : m.taskContractDigest = m'.taskContractDigest := by
    simpa using hmem ("task_contract_digest", .str m.taskContractDigest) (by simp)
  have hworker : m.agentContractDigest = m'.agentContractDigest := by
    simpa using hmem ("agent_contract_digest", .str m.agentContractDigest) (by simp)
  cases m
  cases m'
  simp only [LeaseMaterial.mk.injEq]
  exact ⟨hrun, htask, hagent, hattempt, canonicalTime_injective hacquired,
    canonicalTime_injective hexpires, hcontract, hworker⟩

theorem Signed.lease_eq (hfree : KeyedHashing.CollisionFree signingKey) {lease lease' : Lease}
    (h : Signed signingKey lease) (h' : Signed signingKey lease')
    (htoken : lease.token = lease'.token) : lease = lease' := by
  obtain ⟨runId, hsigned⟩ := h
  obtain ⟨runId', hsigned'⟩ := h'
  have hcodes := hsigned.symm.trans (htoken.trans hsigned')
  have hmaterial := material_inj (KeyedHashing.ofJson_inj hfree hcodes)
  rw [LeaseMaterial.mk.injEq] at hmaterial
  obtain ⟨-, htask, hagent, hattempt, hacquired, hexpires, hcontract, hworker⟩ := hmaterial
  cases lease
  cases lease'
  simp only [Lease.mk.injEq]
  exact ⟨htoken, htask, hagent, hattempt, hacquired, hexpires, hcontract, hworker⟩

/-! ### The leases handed out -/

/-- The lease of a task is the last that was handed out for it. -/
structure Fenced (signingKey : List UInt8) (inventory : Inventory) (issued : List Lease) :
    Prop where
  latest : ∀ task ∈ inventory.tasks, ∀ lease ∈ task.lease,
    (leasesOf issued task.id).getLast? = some lease
  signed : ∀ lease ∈ issued, Signed signingKey lease
  attempts : ∀ task ∈ inventory.tasks, ∀ lease ∈ leasesOf issued task.id,
    lease.attempt ≤ task.attempt

omit [KeyedHashing] in
theorem leasesOf_other {issued : List Lease} {lease : Lease} {taskId : String}
    (h : lease.taskId ≠ taskId) : leasesOf (issued ++ [lease]) taskId = leasesOf issued taskId := by
  unfold leasesOf
  rw [List.filter_append, List.filter_cons_of_neg (by simpa using h), List.filter_nil,
    List.append_nil]

omit [KeyedHashing] in
theorem leasesOf_own {issued : List Lease} {lease : Lease} {taskId : String}
    (h : lease.taskId = taskId) :
    leasesOf (issued ++ [lease]) taskId = leasesOf issued taskId ++ [lease] := by
  unfold leasesOf
  rw [List.filter_append, List.filter_cons_of_pos (by simpa using h), List.filter_nil]

section Replacing

variable {task task' : TaskRecord} {agent agent' : AgentRecord} {budget' : Budget}
  {handed : Option Lease} {issued : List Lease}

theorem Replaces.handed_own
    (h : Replaces signingKey limit inventory task task' agent agent' budget' handed) {lease : Lease}
    (hlease : handed = some lease) :
    lease.taskId = task.id ∧ lease.attempt = task'.attempt ∧ Signed signingKey lease := by
  have hheld := h.handed lease hlease
  obtain ⟨hid, hattempt⟩ := h.constructed.leased lease hheld
  refine ⟨hid.trans h.kept.id, hattempt, ?_⟩
  rcases h.leased lease hheld with ⟨-, hsigned⟩ | ⟨hnone, -⟩
  · exact hsigned
  · rw [hlease] at hnone
    cases hnone

theorem Replaces.leasesOf_other
    (h : Replaces signingKey limit inventory task task' agent agent' budget' handed)
    {taskId : String} (hne : taskId ≠ task.id) :
    leasesOf (issued ++ handed.toList) taskId = leasesOf issued taskId := by
  cases hhanded : handed with
  | none => rw [Option.toList_none, List.append_nil]
  | some lease =>
      refine Orchestrator.leasesOf_other ?_
      rw [(h.handed_own hhanded).1]
      exact hne.symm

theorem Replaces.attempt_le
    (h : Replaces signingKey limit inventory task task' agent agent' budget' handed) :
    task.attempt ≤ task'.attempt := by
  by_cases hactive : task.isActive = true
  · exact le_of_eq (h.goesOn hactive).1.symm
  · rw [Bool.not_eq_true] at hactive
    have hattempt := (h.begins hactive).1
    omega

theorem Replaces.fenced
    (h : Replaces signingKey limit inventory task task' agent agent' budget' handed)
    (hfenced : Fenced signingKey inventory issued) :
    Fenced signingKey (inventory.put task' agent' budget') (issued ++ handed.toList) := by
  constructor
  · intro other hother lease hlease
    rcases Keyed.mem_put.mp hother with ⟨hold, hne⟩ | ⟨rfl, -⟩
    · rw [h.kept.id] at hne
      rw [h.leasesOf_other hne]
      exact hfenced.latest other hold lease hlease
    · rcases h.leased lease hlease with ⟨rfl, -⟩ | ⟨rfl, hheld⟩
      · have hown := (h.handed_own rfl).1
        rw [h.kept.id, Option.toList_some, leasesOf_own hown, List.getLast?_concat]
      · rw [Option.toList_none, List.append_nil, h.kept.id]
        exact hfenced.latest task h.hasTask lease hheld
  · intro lease hlease
    rcases List.mem_append.mp hlease with hold | hnew
    · exact hfenced.signed lease hold
    · rw [Option.mem_toList] at hnew
      exact (h.handed_own hnew).2.2
  · intro other hother lease hlease
    rcases Keyed.mem_put.mp hother with ⟨hold, hne⟩ | ⟨rfl, -⟩
    · rw [h.kept.id] at hne
      rw [h.leasesOf_other hne] at hlease
      exact hfenced.attempts other hold lease hlease
    · have hmem := List.mem_of_mem_filter hlease
      have hid := List.of_mem_filter hlease
      rcases List.mem_append.mp hmem with hold | hnew
      · rw [h.kept.id] at hid
        have hle := hfenced.attempts task h.hasTask lease (List.mem_filter.mpr ⟨hold, hid⟩)
        exact hle.trans h.attempt_le
      · rw [Option.mem_toList] at hnew
        exact le_of_eq (h.handed_own hnew).2.1

end Replacing

theorem Move.fenced {handed : Option Lease} {issued : List Lease}
    (h : Move signingKey limit inventory handed inventory')
    (hfenced : Fenced signingKey inventory issued) :
    Fenced signingKey inventory' (issued ++ handed.toList) := by
  cases h with
  | sorts =>
      have hperm := resultTasks_perm inventory.tasks
      rw [Option.toList_none, List.append_nil]
      refine ⟨?_, hfenced.signed, ?_⟩
      · intro task htask
        exact hfenced.latest task (hperm.mem_iff.mp htask)
      · intro task htask
        exact hfenced.attempts task (hperm.mem_iff.mp htask)
  | @refreshes task task' hmem hkept hconstructed hwaits hwaits' hattempt =>
      rw [Option.toList_none, List.append_nil]
      refine ⟨?_, hfenced.signed, ?_⟩
      · intro other hother lease hlease
        rcases Keyed.mem_put.mp hother with ⟨hold, -⟩ | ⟨rfl, -⟩
        · exact hfenced.latest other hold lease hlease
        · have hinactive : other.isActive = false := waiting_not_active hwaits'
          have hactive := hconstructed.active
          rw [hlease, hinactive] at hactive
          exact absurd (hactive.mpr rfl) (by decide)
      · intro other hother lease hlease
        rcases Keyed.mem_put.mp hother with ⟨hold, -⟩ | ⟨rfl, -⟩
        · exact hfenced.attempts other hold lease hlease
        · rw [hkept.id] at hlease
          rw [hattempt]
          exact hfenced.attempts task hmem lease hlease
  | replaces h => exact h.fenced hfenced

theorem MovesTo.fenced {leases issued : List Lease}
    (h : MovesTo signingKey limit inventory leases inventory')
    (hfenced : Fenced signingKey inventory issued) :
    Fenced signingKey inventory' (issued ++ leases) := by
  induction h with
  | refl =>
      rw [List.append_nil]
      exact hfenced
  | tail h hmove ih =>
      rw [← List.append_assoc]
      exact hmove.fenced ih

/-! ### The tasks that succeeded -/

theorem Move.succeeded {handed : Option Lease} {id : String}
    (h : Move signingKey limit inventory handed inventory') (hsound : Sound limit inventory)
    (hsucceeded : ∃ task ∈ inventory.tasks, task.id = id ∧ task.state = .succeeded) :
    ∃ task ∈ inventory'.tasks, task.id = id ∧ task.state = .succeeded := by
  obtain ⟨task, htask, hid, hstate⟩ := hsucceeded
  have hkeeps : ∀ changed changed' : TaskRecord, changed ∈ inventory.tasks →
      Kept changed changed' → changed.state.isPassed = false →
        task ∈ putTask inventory.tasks changed' := by
    intro changed changed' hchanged hkept hopen
    refine Keyed.mem_put_of_ne htask ?_
    intro hsame
    rw [hkept.id] at hsame
    have heq := List.inj_on_of_nodup_map hsound.taskIds htask hchanged hsame
    rw [← heq, hstate] at hopen
    cases hopen
  cases h with
  | sorts => exact ⟨task, (resultTasks_perm inventory.tasks).mem_iff.mpr htask, hid, hstate⟩
  | refreshes hmem hkept hconstructed hwaits hwaits' hattempt =>
      exact ⟨task, hkeeps _ _ hmem hkept (waiting_not_passed hwaits), hid, hstate⟩
  | replaces h => exact ⟨task, hkeeps _ _ h.hasTask h.kept h.open_before, hid, hstate⟩

theorem MovesTo.succeeded {leases : List Lease} {id : String}
    (h : MovesTo signingKey limit inventory leases inventory') (hsound : Sound limit inventory)
    (hsucceeded : ∃ task ∈ inventory.tasks, task.id = id ∧ task.state = .succeeded) :
    ∃ task ∈ inventory'.tasks, task.id = id ∧ task.state = .succeeded := by
  induction h with
  | refl => exact hsucceeded
  | tail h hmove ih => exact hmove.succeeded (h.sound hsound) ih

section Calls

variable [Hashing] {run : RunRecord}

/-- What an accepted `succeed` was checked against, and what it leaves. -/
theorem perform_succeed {desk : Desk} {presented : Presented} {report : SuccessReport}
    {at' : DateTime} {result : Inventory × List Lease}
    (h : perform signingKey run desk.inventory (.succeed presented report at') = some result) :
    ∃ task ∈ desk.inventory.tasks, ∃ lease, task.id = presented.taskId ∧
      task.lease = some lease ∧ lease.token = presented.token ∧
      lease.agentId = presented.agentId ∧ lease.attempt = task.attempt ∧ at' < lease.expiresAt ∧
      ∃ task' ∈ result.1.tasks, task'.id = presented.taskId ∧ task'.state = .succeeded := by
  obtain ⟨work, hwork, h⟩ := Option.bind_eq_some_iff.mp h
  obtain ⟨completed, hcompleted, h⟩ := Option.bind_eq_some_iff.mp h
  cases h
  rw [toOption_eq_some] at hcompleted
  obtain ⟨⟨htask, hid⟩, hagent, hagentId⟩ := assignment_mem hwork
  obtain ⟨hfinished, hstate, lease, hchecked⟩ := succeed_finished hcompleted
  refine ⟨work.1, htask, lease, hid, hchecked.held, hchecked.token,
    hchecked.agentId.trans hagentId, hchecked.attempt, hchecked.unexpired rfl, completed.task,
    Keyed.mem_put_self htask hfinished.kept.id, hfinished.kept.id.trans hid, hstate⟩

/-- What is remembered of the leases and of the tasks that succeeded. -/
structure Remembered (signingKey : List UInt8) (run : RunRecord) (desk : Desk) : Prop where
  sound : Sound run.maxConcurrency desk.inventory
  fenced : Fenced signingKey desk.inventory desk.issued
  succeeded : ∀ id ∈ desk.succeeded, ∃ task ∈ desk.inventory.tasks, task.id = id ∧
    task.state = .succeeded
  once : desk.succeeded.Nodup

omit [Hashing] in
/-- A task that can still be completed has not been. -/
theorem Remembered.not_succeeded {desk : Desk} (h : Remembered signingKey run desk)
    {task : TaskRecord} (htask : task ∈ desk.inventory.tasks) {lease : Lease}
    (hlease : task.lease = some lease) : task.id ∉ desk.succeeded := by
  intro hmem
  obtain ⟨other, hother, hid, hstate⟩ := h.succeeded task.id hmem
  have heq := List.inj_on_of_nodup_map h.sound.taskIds hother htask hid
  have hactive := (h.sound.constructed task htask).active
  rw [hlease] at hactive
  have hstate' : task.state.isActive = true := hactive.mpr rfl
  rw [← heq, hstate] at hstate'
  cases hstate'

theorem next_remembered {desk : Desk} (h : Remembered signingKey run desk) (call : Call) :
    Remembered signingKey run (Desk.next signingKey run desk call) := by
  refine next_of_performed h ?_
  intro inventory leases hperform
  have hmoves := perform_moves h.sound hperform
  have hkept : ∀ id ∈ desk.succeeded, ∃ task ∈ inventory.tasks, task.id = id ∧
      task.state = .succeeded := by
    intro id hid
    exact hmoves.succeeded h.sound (h.succeeded id hid)
  cases call with
  | succeed presented report at' =>
      obtain ⟨task, htask, lease, hid, hlease, -, -, -, -, task', htask', hid', hstate'⟩ :=
        perform_succeed hperform
      have hfresh := h.not_succeeded htask hlease
      rw [hid] at hfresh
      refine ⟨hmoves.sound h.sound, hmoves.fenced h.fenced, ?_, ?_⟩
      · intro id hmem
        rcases List.mem_append.mp hmem with hold | hnew
        · exact hkept id hold
        · rw [List.mem_singleton.mp hnew]
          exact ⟨task', htask', hid', hstate'⟩
      · show (desk.succeeded ++ [presented.taskId]).Nodup
        rw [List.nodup_append]
        refine ⟨h.once, List.nodup_singleton _, ?_⟩
        intro id hmem id' hmem' hsame
        rw [List.mem_singleton] at hmem'
        rw [hsame, hmem'] at hmem
        exact hfresh hmem
  | _ =>
      refine ⟨hmoves.sound h.sound, hmoves.fenced h.fenced, ?_, ?_⟩
      · intro id hmem
        rw [show desk.succeeded ++ Call.completes _ = desk.succeeded from List.append_nil _] at hmem
        exact hkept id hmem
      · rw [show desk.succeeded ++ Call.completes _ = desk.succeeded from List.append_nil _]
        exact h.once

/-- The lease that lets a worker complete a task: the one the task has, in its present attempt and
for the worker's agent, which is the last handed out for the task and whose token no other lease
ever handed out has. -/
structure Completes (desk : Desk) (presented : Presented) (at' : DateTime) (task : TaskRecord)
    (lease : Lease) : Prop where
  present : task ∈ desk.inventory.tasks
  taskId : task.id = presented.taskId
  held : task.lease = some lease
  latest : (leasesOf desk.issued presented.taskId).getLast? = some lease
  token : lease.token = presented.token
  agentId : lease.agentId = presented.agentId
  attempt : lease.attempt = task.attempt
  unexpired : at' < lease.expiresAt
  older : ∀ other ∈ desk.issued, other ≠ lease → other.token ≠ presented.token
  noLater : ∀ other ∈ leasesOf desk.issued presented.taskId, other.attempt ≤ lease.attempt
  first : presented.taskId ∉ desk.succeeded

/-- **Lease fencing**: after any calls from a start with nothing leased, no task has succeeded twice,
and a `succeed` is accepted only with the token of the lease that was handed out last for the task,
in its present attempt, by its agent and before its expiry; no older lease has that token. -/
theorem succeed_fenced (hfree : KeyedHashing.CollisionFree signingKey) {start : Inventory}
    (hstart : Consistent run start) (calls : List Call) :
    (replay (Desk.next signingKey run) ⟨start, [], []⟩ calls).succeeded.Nodup ∧
      ∀ presented report at',
        (perform signingKey run (replay (Desk.next signingKey run) ⟨start, [], []⟩ calls).inventory
          (.succeed presented report at')).isSome = true →
        ∃ task lease, Completes (replay (Desk.next signingKey run) ⟨start, [], []⟩ calls) presented
          at' task lease := by
  have hremembered : Remembered signingKey run
      (replay (Desk.next signingKey run) ⟨start, [], []⟩ calls) := by
    refine Replay.invariant (P := Remembered signingKey run) ?_
      (fun desk call h => next_remembered h call) calls
    refine ⟨hstart.sound, ⟨?_, ?_, ?_⟩, ?_, List.nodup_nil⟩
    · intro task htask lease hlease
      have hinactive := hstart.noLease task htask
      have hactive := (hstart.sound.constructed task htask).active
      rw [hlease, hinactive] at hactive
      exact absurd (hactive.mpr rfl) (by decide)
    · intro lease hlease
      cases hlease
    · intro task htask lease hlease
      cases hlease
    · intro id hid
      cases hid
  refine ⟨hremembered.once, ?_⟩
  intro presented report at' haccepted
  generalize replay (Desk.next signingKey run) ⟨start, [], []⟩ calls = desk at *
  obtain ⟨result, hresult⟩ := Option.isSome_iff_exists.mp haccepted
  obtain ⟨task, htask, lease, hid, hlease, htoken, hagentId, hattempt, hunexpired, -⟩ :=
    perform_succeed hresult
  have hlatest := hremembered.fenced.latest task htask lease hlease
  rw [hid] at hlatest
  have hissued : lease ∈ desk.issued :=
    List.mem_of_mem_filter (List.mem_of_getLast? hlatest)
  refine ⟨task, lease, htask, hid, hlease, hlatest, htoken, hagentId, hattempt, hunexpired, ?_, ?_,
    ?_⟩
  · intro other hother hne hsame
    refine hne ((hremembered.fenced.signed other hother).lease_eq hfree
      (hremembered.fenced.signed lease hissued) ?_)
    rw [hsame, htoken]
  · intro other hother
    rw [← hid] at hother
    rw [hattempt]
    exact hremembered.fenced.attempts task htask other hother
  · rw [← hid]
    exact hremembered.not_succeeded htask hlease

end Calls

end Fencing

/-! ### A task that is leased and completed -/

def sampleMaterial : LeaseMaterial where
  runId := "run_1"
  taskId := "task_1"
  agentId := "agent_1"
  attempt := 1
  acquiredAt := sampleMoment 0 atStart
  expiresAt := sampleMoment 60 (by decide)
  taskContractDigest := "aaaaaaaaaaaaaaaaaaaaaaaaaaaaaaaaaaaaaaaaaaaaaaaaaaaaaaaaaaaaaaaa"
  agentContractDigest := "aaaaaaaaaaaaaaaaaaaaaaaaaaaaaaaaaaaaaaaaaaaaaaaaaaaaaaaaaaaaaaaa"

def sampleToken : String := "bbbbbbbbbbbbbbbbbbbbbbbbbbbbbbbbbbbbbbbbbbbbbbbbbbbbbbbbbbbbbbbb"

/-- Codes without collisions, one of them given. -/
@[reducible] def tabledSigning : KeyedHashing where
  hmac _ text := (Hashing.tabled [(sampleMaterial.json.render, sampleToken)]).sha256 text

theorem tabledSigning_collisionFree :
    @KeyedHashing.CollisionFree tabledSigning sampleKey := by
  have hfree : @Hashing.CollisionFree
      (Hashing.tabled [(sampleMaterial.json.render, sampleToken)]) :=
    Hashing.tabled_collisionFree (List.nodup_singleton _) (by decide)
  intro a b h
  exact hfree h

def sampleReport : SuccessReport where
  evidence := [⟨"evidence_1", "run_1", .artifact, "worker", "digest", "", 0, some "task_1", none,
    none, none, "{}"⟩]
  actualTokens := 90
  actualToolCalls := 1

theorem succeed_fenced_sample :
    letI := plainHashing
    letI := tabledSigning
    ∃ task lease, Completes (replay (Desk.next sampleKey sampleRunRecord) (sampleDesk 0)
      [sampleSchedule]) ⟨"task_1", "agent_1", sampleToken⟩ (sampleMoment 10 (by decide)) task
      lease :=
  letI := plainHashing
  letI := tabledSigning
  (succeed_fenced tabledSigning_collisionFree (sampleDesk_consistent rfl) [sampleSchedule]).2 _
    sampleReport _ (by decide +kernel)

end Evleda.Orchestrator
