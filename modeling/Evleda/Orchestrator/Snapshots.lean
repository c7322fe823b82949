/-
What every run of calls on the store keeps.

A sealed run carries the digest of its tasks' contracts.  The store never takes the
digest back, and every write of a task or of the run compares it with the tasks that
are there, or would be there.  With a hash free of collisions the tasks of a sealed run
and their contracts are therefore fixed.

The events of a run are a chain that only grows, and the revision of a run grows with
every update.  The invariant, `Sound`, and the relation between the tables before and
after, `Later`, are kept together by each method that returns; a method that raises was
rolled back.
-/
import Evleda.Lib.Replay
import Evleda.Orchestrator.Store

namespace Evleda.Orchestrator

open Transacting Outcome

variable [Hashing]

def Tables.contractOf (t : Tables) (runId taskId : String) : Option String :=
  (t.tasks.find? fun task => task.runId = runId ∧ task.id = taskId).map fun task =>
    taskContractDigest task.toTask

namespace Store

/-! ### The invariant -/

/-- Numbered from one on, each naming the hash of the one before. -/
structure Chained (events : List OrchestrationEvent) : Prop where
  numbered : events.map OrchestrationEvent.sequence =
    (List.range events.length).map fun k : Nat => (k : Int) + 1
  linked : Evleda.Linked OrchestrationEvent.previousHash OrchestrationEvent.eventHash "" events
  valid : ∀ event ∈ events, event.validateHash = true

structure Sound (t : Tables) : Prop where
  runs : (t.runs.map runKey).Nodup
  tasks : (t.tasks.map taskKey).Nodup
  owned : ∀ task ∈ t.tasks, t.HasRun task.runId
  inventory : ∀ run ∈ t.runs, ∀ digest ∈ run.taskInventoryDigest,
    inventoryDigest run.id (t.listTasks run.id) = .ok digest
  chained : ∀ runId, Chained (t.eventsOf runId)

/-- Runs stay, with their seals, and go up in revision; chains of events grow. -/
structure Later (t t' : Tables) : Prop where
  kept : ∀ run ∈ t.runs, ∃ run' ∈ t'.runs, runKey run' = runKey run ∧ run.revision ≤ run'.revision ∧
    (run.taskInventoryDigest.isSome → run'.taskInventoryDigest = run.taskInventoryDigest)
  events : ∀ runId, t.eventsOf runId <+: t'.eventsOf runId

/-- Sound tables stay sound and become later ones. -/
def Grows (t t' : Tables) : Prop := Sound t → Sound t' ∧ Later t t'

omit [Hashing] in
theorem Later.refl (t : Tables) : Later t t where
  kept run hrun := ⟨run, hrun, rfl, le_refl _, fun _ => rfl⟩
  events _ := List.prefix_refl _

omit [Hashing] in
theorem Later.trans {t m t' : Tables} (h : Later t m) (h' : Later m t') : Later t t' := by
  constructor
  · intro run hrun
    obtain ⟨middle, hmiddle, hkey, hrevision, hdigest⟩ := h.kept run hrun
    obtain ⟨last, hlast, hkey', hrevision', hdigest'⟩ := h'.kept middle hmiddle
    refine ⟨last, hlast, hkey'.trans hkey, hrevision.trans hrevision', fun hsealed => ?_⟩
    rw [hdigest' (hdigest hsealed ▸ hsealed), hdigest hsealed]
  · intro runId
    exact (h.events runId).trans (h'.events runId)

instance : IsPreorder Tables Grows where
  refl t h := ⟨h, .refl t⟩
  trans _ _ _ h h' hsound :=
    have hmiddle := h hsound
    have hlast := h' hmiddle.1
    ⟨hlast.1, hmiddle.2.trans hlast.2⟩

variable {t t' : Tables}

/-! ### Inventories -/

variable {task : TaskRecord}

omit [Hashing] in
theorem mem_listTasks {runId : String} :
    task ∈ t.listTasks runId ↔ task ∈ t.tasks ∧ task.runId = runId := by
  unfold Tables.listTasks
  rw [mem_sortBy, List.mem_filter, decide_eq_true_eq]

omit [Hashing] in
theorem nodup_listTasks (hnodup : (t.tasks.map taskKey).Nodup) (runId : String) :
    ((t.listTasks runId).map taskKey).Nodup := by
  have hfilter : ((t.tasks.filter fun task => task.runId = runId).map taskKey).Nodup :=
    hnodup.sublist (List.filter_sublist.map taskKey)
  exact (((sortBy_perm _).map taskKey).nodup_iff).mpr hfilter

/-- What is hashed of one task. -/
def contract (task : Task) : Json :=
  Json.object [("task_id", .str task.id), ("contract_digest", .str (taskContractDigest task))]

/-- What is hashed of a run's tasks. -/
def inventoryJson (runId : String) (tasks : List Task) : Json :=
  Json.object [
    ("scope", .str "flux-clone-orchestrator-task-inventory-v1"),
    ("run_id", .str runId),
    ("tasks", .arr ((sortBy Task.id tasks).map contract))]

theorem inventoryDigest_ok {runId digest : String} {tasks : List TaskRecord} :
    inventoryDigest runId tasks = .ok digest ↔
      runId ≠ "" ∧ (∀ task ∈ tasks, task.runId = runId) ∧ (tasks.map taskKey).Nodup ∧
        Hashing.ofJson (inventoryJson runId (tasks.map TaskRecord.toTask)) = digest := by
  have hmap : inventoryDigest runId tasks = .ok digest ↔
      taskInventoryDigest runId (tasks.map TaskRecord.toTask) = .ok digest := by
    unfold inventoryDigest
    cases taskInventoryDigest runId (tasks.map TaskRecord.toTask) with
    | ok value =>
        constructor
        · intro h; cases h; rfl
        · intro h; cases h; rfl
    | error e => exact iff_of_false (fun h => nomatch h) fun h => nomatch h
  rw [hmap]
  unfold taskInventoryDigest
  simp only [bind_ok, require_ok, exists_unit, pure_ok,
    List.forall_mem_map, List.map_map]
  rfl

/-- The digest does not depend on the order in which the tasks are read. -/
theorem inventoryDigest_perm {runId digest : String} {tasks tasks' : List TaskRecord}
    (hperm : tasks.Perm tasks') (h : inventoryDigest runId tasks = .ok digest) :
    inventoryDigest runId tasks' = .ok digest := by
  obtain ⟨hrun, howner, hnodup, hdigest⟩ := inventoryDigest_ok.mp h
  have hids : ((tasks.map TaskRecord.toTask).map Task.id).Nodup := by
    rw [List.map_map]
    exact hnodup
  have hsorted : sortBy Task.id (tasks.map TaskRecord.toTask) =
      sortBy Task.id (tasks'.map TaskRecord.toTask) :=
    sortBy_eq_of_perm hids (hperm.map TaskRecord.toTask)
  refine inventoryDigest_ok.mpr ⟨hrun, fun task htask => ?_, ?_, ?_⟩
  · exact howner task (hperm.mem_iff.mpr htask)
  · exact ((hperm.map taskKey).nodup_iff).mp hnodup
  · rw [← hdigest]
    unfold inventoryJson
    rw [hsorted]

theorem contractOf_eq_some (hnodup : (t.tasks.map taskKey).Nodup) {runId taskId digest : String} :
    t.contractOf runId taskId = some digest ↔
      ∃ task ∈ t.listTasks runId, task.id = taskId ∧ taskContractDigest task.toTask = digest := by
  unfold Tables.contractOf
  rw [Option.map_eq_some_iff]
  constructor
  · rintro ⟨task, hfound, hdigest⟩
    have hthis := List.find?_some hfound
    rw [decide_eq_true_eq] at hthis
    exact ⟨task, mem_listTasks.mpr ⟨List.mem_of_find?_eq_some hfound, hthis.1⟩, hthis.2, hdigest⟩
  · rintro ⟨task, htask, hid, hdigest⟩
    obtain ⟨hmem, hrun⟩ := mem_listTasks.mp htask
    refine ⟨task, ?_, hdigest⟩
    cases hfound : t.tasks.find? fun task => task.runId = runId ∧ task.id = taskId with
    | none =>
        have hnot := List.find?_eq_none.mp hfound task hmem
        rw [decide_eq_true_eq] at hnot
        exact absurd ⟨hrun, hid⟩ hnot
    | some other =>
        have hother := List.find?_some hfound
        rw [decide_eq_true_eq] at hother
        refine congrArg some (List.inj_on_of_nodup_map hnodup
          (List.mem_of_find?_eq_some hfound) hmem ?_)
        exact hother.2.trans hid.symm

theorem contract_inj {a b : Task} (h : contract a = contract b) :
    a.id = b.id ∧ taskContractDigest a = taskContractDigest b := by
  have hperm := Json.perm_of_object_eq h
  have hmem := fun member => (hperm.mem_iff (a := member)).mp
  constructor
  · simpa using hmem ("task_id", .str a.id) (by simp)
  · simpa using hmem ("contract_digest", .str (taskContractDigest a)) (by simp)

theorem contracts_of_digest (hfree : Hashing.CollisionFree) {runId digest : String}
    {tasks tasks' : List TaskRecord} (h : inventoryDigest runId tasks = .ok digest)
    (h' : inventoryDigest runId tasks' = .ok digest) (hmem : task ∈ tasks) :
    ∃ task' ∈ tasks', task'.id = task.id ∧
      taskContractDigest task'.toTask = taskContractDigest task.toTask := by
  obtain ⟨-, -, -, hdigest⟩ := inventoryDigest_ok.mp h
  obtain ⟨-, -, -, hdigest'⟩ := inventoryDigest_ok.mp h'
  have hperm := Json.perm_of_object_eq (Hashing.ofJson_inj hfree (hdigest.trans hdigest'.symm))
  have hlists : (sortBy Task.id (tasks.map TaskRecord.toTask)).map contract =
      (sortBy Task.id (tasks'.map TaskRecord.toTask)).map contract := by
    simpa using hperm.mem_iff (a := ("tasks", Json.arr
      ((sortBy Task.id (tasks.map TaskRecord.toTask)).map contract))) |>.mp (by simp)
  have hsorted : task.toTask ∈ sortBy Task.id (tasks.map TaskRecord.toTask) :=
    mem_sortBy.mpr (List.mem_map_of_mem hmem)
  have hcontract := List.mem_map_of_mem (f := contract) hsorted
  rw [hlists] at hcontract
  obtain ⟨other, hother, hsame⟩ := List.mem_map.mp hcontract
  obtain ⟨task', htask', rfl⟩ := List.mem_map.mp (mem_sortBy.mp hother)
  exact ⟨task', htask', contract_inj hsame⟩

/-- **A seal fixes the contracts.** -/
theorem contracts_fixed (hfree : Hashing.CollisionFree) (hsound : Sound t) (hsound' : Sound t')
    (hlater : Later t t') {run : StoredRun} (hrun : run ∈ t.runs)
    (hsealed : run.taskInventoryDigest.isSome) (taskId : String) :
    t'.contractOf run.id taskId = t.contractOf run.id taskId := by
  obtain ⟨digest, hdigest⟩ := Option.isSome_iff_exists.mp hsealed
  obtain ⟨run', hrun', hkey, -, hkept⟩ := hlater.kept run hrun
  have hbefore := hsound.inventory run hrun digest hdigest
  have hafter := hsound'.inventory run' hrun' digest (by rw [hkept hsealed, hdigest]; rfl)
  have hid : run'.id = run.id := hkey
  rw [hid] at hafter
  refine Option.ext fun value => ?_
  rw [contractOf_eq_some hsound'.tasks, contractOf_eq_some hsound.tasks]
  constructor
  · rintro ⟨task, htask, rfl, rfl⟩
    exact contracts_of_digest hfree hafter hbefore htask
  · rintro ⟨task, htask, rfl, rfl⟩
    exact contracts_of_digest hfree hbefore hafter htask

/-! ### Runs and tasks -/

omit [Hashing] in
theorem hasRun_mono (h : ∀ run ∈ t.runs, ∃ run' ∈ t'.runs, runKey run' = runKey run) {runId : String}
    (hrun : t.HasRun runId) : t'.HasRun runId := by
  obtain ⟨run, hmem, hkey⟩ := hrun
  obtain ⟨run', hmem', hkey'⟩ := h run hmem
  exact ⟨run', hmem', hkey'.trans hkey⟩

/-- A new run has no tasks yet, so that nothing but an empty inventory can be sealed. -/
theorem saveNewRun_grows (run : StoredRun) : (inside (saveRun run none)).Moves Grows := by
  intro t u t' h hsound
  obtain ⟨hnew, hinventory, rfl⟩ := saveNewRun_returns h
  have hnone : t.listTasks run.id = [] := by
    refine List.eq_nil_iff_forall_not_mem.mpr fun task htask => ?_
    obtain ⟨hmem, hrun⟩ := mem_listTasks.mp htask
    exact hnew (hrun ▸ hsound.owned task hmem)
  have hkept : ∀ row ∈ t.runs, row ∈ t.runs ++ [run] := fun row hrow => List.mem_append_left _ hrow
  constructor
  · exact {
      runs := nodup_map_snoc hsound.runs fun row hrow hkey => hnew ⟨row, hrow, hkey⟩
      tasks := hsound.tasks
      owned := fun task htask =>
        hasRun_mono (fun row hrow => ⟨row, hkept row hrow, rfl⟩) (hsound.owned task htask)
      inventory := by
        intro row hrow digest hdigest
        rcases List.mem_append.mp hrow with hold | hself
        · exact hsound.inventory row hold digest hdigest
        · rw [List.mem_singleton] at hself
          subst hself
          have hempty := hinventory digest hdigest
          rw [← hnone] at hempty
          exact hempty
      chained := hsound.chained }
  · exact {
      kept := fun row hrow => ⟨row, hkept row hrow, rfl, le_refl _, fun _ => rfl⟩
      events := fun _ => List.prefix_refl _ }

/-- An update keeps the seal, and one that seals has looked at all tasks. -/
theorem Updated.grows {run : StoredRun} {revision : Int} (h : Updated run revision t t') :
    Grows t t' := by
  intro hsound
  obtain ⟨row, hrow, hkey, hrevision⟩ := h.found
  obtain ⟨current, hcurrent, hkey', hsealed⟩ := h.kept
  have hnext := h.next
  have hsame : ∀ other ∈ t.runs, runKey other = run.id → other = row := fun other hother hid =>
    List.inj_on_of_nodup_map hsound.runs hother hrow (hid.trans hkey.symm)
  obtain rfl := hsame current hcurrent hkey'
  have hself : run ∈ Keyed.put runKey t.runs run := Keyed.mem_put_self hrow hkey.symm
  have hkept : ∀ other ∈ t.runs, ∃ other' ∈ Keyed.put runKey t.runs run,
      runKey other' = runKey other ∧ other.revision ≤ other'.revision ∧
        (other.taskInventoryDigest.isSome →
          other'.taskInventoryDigest = other.taskInventoryDigest) := by
    intro other hother
    by_cases hid : runKey other = runKey run
    · rw [hsame other hother hid]
      exact ⟨run, hself, hkey.symm, by omega, hsealed⟩
    · exact ⟨other, Keyed.mem_put_of_ne hother hid, rfl, le_refl _, fun _ => rfl⟩
  obtain rfl := h.written
  constructor
  · exact {
      runs := by
        rw [Keyed.map_key_put]
        exact hsound.runs
      tasks := hsound.tasks
      owned := fun task htask => by
        refine hasRun_mono (fun other hother => ?_) (hsound.owned task htask)
        obtain ⟨other', hmem, hid, -⟩ := hkept other hother
        exact ⟨other', hmem, hid⟩
      inventory := by
        intro other hother digest hdigest
        rcases Keyed.mem_put.mp hother with ⟨hold, -⟩ | ⟨rfl, -⟩
        · exact hsound.inventory other hold digest hdigest
        · exact h.inventory digest hdigest
      chained := hsound.chained }
  · exact { kept := hkept, events := fun _ => List.prefix_refl _ }

omit [Hashing] in
theorem listTasks_own (hnodup : (t.tasks.map taskKey).Nodup) :
    (Keyed.assign taskKey (t.listTasks task.runId) task).Perm
      (Tables.listTasks { t with tasks := Keyed.assign taskKey t.tasks task } task.runId) := by
  refine (List.perm_ext_iff_of_nodup ?_ ?_).mpr fun row => ?_
  · exact (Keyed.nodup_assign (nodup_listTasks hnodup _)).of_map
  · exact (nodup_listTasks (Keyed.nodup_assign hnodup) _).of_map
  · rw [Keyed.mem_assign, mem_listTasks, mem_listTasks, Keyed.mem_assign]
    constructor
    · rintro (⟨⟨hmem, hown⟩, hne⟩ | rfl)
      · exact ⟨Or.inl ⟨hmem, hne⟩, hown⟩
      · exact ⟨Or.inr rfl, rfl⟩
    · rintro ⟨⟨hmem, hne⟩ | rfl, hown⟩
      · exact Or.inl ⟨⟨hmem, hown⟩, hne⟩
      · exact Or.inr rfl

omit [Hashing] in
/-- The tasks of another run, to which the identifier does not belong. -/
theorem listTasks_other {runId : String} (hnodup : (t.tasks.map taskKey).Nodup)
    (hstays : ∀ row ∈ t.tasks, taskKey row = taskKey task → row.runId = task.runId)
    (hother : runId ≠ task.runId) : (t.listTasks runId).Perm
      (Tables.listTasks { t with tasks := Keyed.assign taskKey t.tasks task } runId) := by
  refine (List.perm_ext_iff_of_nodup ?_ ?_).mpr fun row => ?_
  · exact (nodup_listTasks hnodup _).of_map
  · exact (nodup_listTasks (Keyed.nodup_assign hnodup) _).of_map
  · rw [mem_listTasks, mem_listTasks, Keyed.mem_assign]
    constructor
    · rintro ⟨hmem, rfl⟩
      exact ⟨Or.inl ⟨hmem, fun hsame => hother (hstays row hmem hsame)⟩, rfl⟩
    · rintro ⟨⟨hmem, -⟩ | rfl, rfl⟩
      · exact ⟨hmem, rfl⟩
      · exact absurd rfl hother

/-- A task is written where the inventory of its run, if sealed, stays what it is. -/
theorem Put.grows {task : TaskRecord} (h : Put task t t') : Grows t t' := by
  intro hsound
  obtain ⟨run, hrun, hkey, hinventory⟩ := h.inventory
  have hid : run.id = task.runId := hkey
  have hstays := h.stays
  obtain rfl := h.written
  constructor
  · exact {
      runs := hsound.runs
      tasks := Keyed.nodup_assign hsound.tasks
      owned := by
        intro other hother
        rcases Keyed.mem_assign.mp hother with ⟨hold, -⟩ | rfl
        · exact hsound.owned other hold
        · exact ⟨run, hrun, hkey⟩
      inventory := by
        intro other hother digest hdigest
        by_cases hown : other.id = task.runId
        · obtain rfl : other = run :=
            List.inj_on_of_nodup_map hsound.runs hother hrun (hown.trans hid.symm)
          have hdurable := hinventory digest hdigest
          rw [hid] at hdurable ⊢
          exact inventoryDigest_perm (listTasks_own hsound.tasks) hdurable
        · exact inventoryDigest_perm (listTasks_other hsound.tasks hstays hown)
            (hsound.inventory other hother digest hdigest)
      chained := hsound.chained }
  · exact { kept := (Later.refl t).kept, events := fun _ => List.prefix_refl _ }

/-! ### The event log -/

theorem Chained.next {events : List OrchestrationEvent} (h : Chained events) :
    (events.getLast?.map fun last => last.sequence + 1).getD 1 = (events.length : Int) + 1 := by
  have hlast := congrArg List.getLast? h.numbered
  rw [List.getLast?_map, List.getLast?_map] at hlast
  have hmap : (events.getLast?.map fun last => last.sequence + 1) =
      (events.getLast?.map OrchestrationEvent.sequence).map (· + 1) := by
    rw [Option.map_map]
    rfl
  rw [hmap, hlast]
  cases events with
  | nil => rfl
  | cons first rest => simp [List.getLast?_range]

omit [Hashing] in
theorem previous_eq (events : List OrchestrationEvent) :
    (events.getLast?.map OrchestrationEvent.eventHash).getD "" =
      headOf OrchestrationEvent.eventHash "" events := by
  unfold headOf
  rw [List.getLastD_eq_getLast?, List.getLast?_map]

theorem Chained.snoc {events : List OrchestrationEvent} {event : OrchestrationEvent}
    (h : Chained events) (hvalid : event.validateHash = true)
    (hsequence : event.sequence = (events.length : Int) + 1)
    (hprevious : event.previousHash = headOf OrchestrationEvent.eventHash "" events) :
    Chained (events ++ [event]) where
  numbered := by
    rw [List.map_append, List.length_append, List.length_singleton, List.range_succ,
      List.map_append, h.numbered, List.map_singleton, List.map_singleton, hsequence]
  linked := h.linked.snoc hprevious
  valid := by
    intro other hother
    rcases List.mem_append.mp hother with hold | hself
    · exact h.valid other hold
    · rw [List.mem_singleton] at hself
      exact hself ▸ hvalid

/-- In a chain no number is above its length, and none comes twice. -/
theorem Chained.bounded {events : List OrchestrationEvent} (h : Chained events) :
    (events.map OrchestrationEvent.sequence).Nodup ∧
      ∀ event ∈ events, event.sequence ≤ (events.length : Int) := by
  constructor
  · rw [h.numbered]
    refine List.nodup_range.map fun a b hab => ?_
    have hab' : (a : Int) + 1 = b + 1 := hab
    omega
  · intro event hevent
    have hmem := List.mem_map_of_mem (f := OrchestrationEvent.sequence) hevent
    rw [h.numbered, List.mem_map] at hmem
    obtain ⟨k, hk, hsequence⟩ := hmem
    have hbelow := List.mem_range.mp hk
    omega

theorem Appended.events {event : OrchestrationEvent} (h : Appended event t t')
    (hchained : Chained (t.eventsOf event.runId)) (runId : String) :
    t'.eventsOf runId =
      if runId = event.runId then t.eventsOf runId ++ [event] else t.eventsOf runId := by
  obtain rfl := h.written
  unfold Tables.eventsOf
  rw [List.filter_append]
  split
  · rename_i hself
    subst hself
    obtain ⟨hnodup, hbound⟩ := hchained.bounded
    have hsequence := h.sequence
    rw [hchained.next] at hsequence
    have hone : [event].filter (fun other => decide (other.runId = event.runId)) = [event] := by
      simp
    rw [hone]
    refine sortBy_snoc ?_ fun other hother => ?_
    · exact (((sortBy_perm _).map OrchestrationEvent.sequence).nodup_iff).mp hnodup
    · have hbelow := hbound other (mem_sortBy.mpr hother)
      omega
  · rename_i hother
    have hnone : [event].filter (fun other => decide (other.runId = runId)) = [] := by
      simpa using fun h => hother h.symm
    rw [hnone, List.append_nil]

theorem Appended.grows {event : OrchestrationEvent} (h : Appended event t t') : Grows t t' := by
  intro hsound
  have hchained := hsound.chained event.runId
  have hevents := h.events hchained
  have hsequence := h.sequence
  have hprevious := h.previous
  rw [hchained.next] at hsequence
  rw [previous_eq] at hprevious
  have hwritten := h.written
  constructor
  · exact {
      runs := by rw [hwritten]; exact hsound.runs
      tasks := by rw [hwritten]; exact hsound.tasks
      owned := by rw [hwritten]; exact hsound.owned
      inventory := by rw [hwritten]; exact hsound.inventory
      chained := by
        intro runId
        rw [hevents runId]
        split
        · rename_i hself
          subst hself
          exact hchained.snoc h.valid hsequence hprevious
        · exact hsound.chained runId }
  · exact {
      kept := by rw [hwritten]; exact (Later.refl t).kept
      events := by
        intro runId
        rw [hevents runId]
        split
        · exact List.prefix_append _ _
        · exact List.prefix_refl _ }

/-! ### Every method -/

/-- Rows of the other tables do not matter. -/
theorem grows_of_same (hruns : t'.runs = t.runs) (htasks : t'.tasks = t.tasks)
    (hevents : t'.events = t.events) : Grows t t' := by
  obtain ⟨runs, agents, tasks, questions, approvals, evidence, events⟩ := t
  obtain ⟨runs', agents', tasks', questions', approvals', evidence', events'⟩ := t'
  obtain rfl : runs' = runs := hruns
  obtain rfl : tasks' = tasks := htasks
  obtain rfl : events' = events := hevents
  intro hsound
  exact ⟨⟨hsound.runs, hsound.tasks, hsound.owned, hsound.inventory, hsound.chained⟩,
    ⟨(Later.refl _).kept, fun _ => List.prefix_refl _⟩⟩

theorem saveRun_advances (run : StoredRun) (expectedRevision : Option Int) :
    Advances Grows (saveRun run expectedRevision) := by
  refine ⟨saveRun_nestable run expectedRevision, ?_⟩
  cases expectedRevision with
  | none => exact saveNewRun_grows run
  | some revision => exact fun t u t' h => (saveUpdatedRun_returns h).grows

theorem putTask_advances (task : TaskRecord) : Advances Grows (putTask task) :=
  ⟨putTask_nestable task, fun _ _ _ h hsound => (putTask_returns hsound.tasks h).grows hsound⟩

theorem putAgent_advances (agent : AgentRecord) : Advances Grows (putAgent agent) := by
  refine ⟨putMutable_nestable, fun t u t' h => ?_⟩
  obtain ⟨rows, -, rfl⟩ := putMutable_returns h
  exact grows_of_same rfl rfl rfl

theorem putQuestion_advances (question : Question) : Advances Grows (putQuestion question) := by
  refine ⟨putMutable_nestable, fun t u t' h => ?_⟩
  obtain ⟨rows, -, rfl⟩ := putMutable_returns h
  exact grows_of_same rfl rfl rfl

theorem putApproval_advances (approval : Approval) : Advances Grows (putApproval approval) := by
  refine ⟨putMutable_nestable, fun t u t' h => ?_⟩
  obtain ⟨rows, -, rfl⟩ := putMutable_returns h
  exact grows_of_same rfl rfl rfl

theorem captureEvidence_advances (item : Evidence) : Advances Grows (captureEvidence item) := by
  refine ⟨captureEvidence_nestable item, fun t u t' h => ?_⟩
  rw [captureEvidence_returns h]
  exact grows_of_same rfl rfl rfl

theorem appendEvent_advances (event : OrchestrationEvent) : Advances Grows (appendEvent event) :=
  ⟨appendEvent_nestable event, fun _ _ _ h => (appendEvent_returns h).grows⟩

theorem saveWithTasks_advances (snapshot : Snapshot) (sealingInventory : Bool) :
    Advances Grows (saveWithTasks snapshot sealingInventory) := by
  have htasks := Advances.each putTask_advances snapshot.tasks
  have hrun := saveRun_advances snapshot.run (some snapshot.expectedRevision)
  cases sealingInventory with
  | true => exact htasks.bind fun _ => hrun
  | false => exact hrun.bind fun _ => htasks

theorem saveOthers_advances (snapshot : Snapshot) : Advances Grows (saveOthers snapshot) :=
  (Advances.each putAgent_advances _).bind fun _ =>
    (Advances.each putQuestion_advances _).bind fun _ =>
      (Advances.each putApproval_advances _).bind fun _ =>
        (Advances.each captureEvidence_advances _).bind fun _ =>
          Advances.each appendEvent_advances _

theorem commitSnapshot_advances (snapshot : Snapshot) :
    Advances Grows (commitSnapshot snapshot) :=
  ((Advances.query _).bind fun _ => (saveWithTasks_advances snapshot _).bind fun _ =>
    saveOthers_advances snapshot).transaction locked

/-! ### Updates of a run -/

/-- The run has been updated from this revision: it was not past it, and is now. -/
def Passed (runId : String) (revision : Int) (t t' : Tables) : Prop :=
  (∃ run ∈ t.runs, runKey run = runId ∧ (run.revision : Int) ≤ revision) ∧
    ∃ run ∈ t'.runs, runKey run = runId ∧ revision < run.revision

/-- An update of a run that was there, with more before it and after it. -/
theorem Updated.passed {run : StoredRun} {revision : Int} {m m' : Tables}
    (hpresent : t.HasRun run.id) (hbefore : Grows t m) (h : Updated run revision m m')
    (hafter : Grows m' t') (hsound : Sound t) : Passed run.id revision t t' := by
  obtain ⟨hm, hlater⟩ := hbefore hsound
  obtain ⟨hm', -⟩ := h.grows hm
  obtain ⟨-, hlater'⟩ := hafter hm'
  obtain ⟨row, hrow, hkey, hrevision⟩ := h.found
  constructor
  · obtain ⟨first, hfirst, hid⟩ := hpresent
    obtain ⟨same, hsame, hid', hle, -⟩ := hlater.kept first hfirst
    obtain rfl : same = row :=
      List.inj_on_of_nodup_map hm.runs hsame hrow (hid'.trans (hid.trans hkey.symm))
    exact ⟨first, hfirst, hid, by omega⟩
  · have hwritten : run ∈ m'.runs := by
      rw [h.written]
      exact Keyed.mem_put_self hrow hkey.symm
    obtain ⟨last, hlast, hid, hle, -⟩ := hlater'.kept run hwritten
    have hnext := h.next
    exact ⟨last, hlast, hid, by omega⟩

theorem saveWithTasks_returns {snapshot : Snapshot} {sealingInventory : Bool} {u : Unit}
    (h : (inside (saveWithTasks snapshot sealingInventory)).run t = (.ok u, t')) :
    ∃ m m', Grows t m ∧ Updated snapshot.run snapshot.expectedRevision m m' ∧ Grows m' t' := by
  have htasks := Advances.each putTask_advances snapshot.tasks
  have hrun := saveRun_advances snapshot.run (some snapshot.expectedRevision)
  cases sealingInventory with
  | true =>
      obtain ⟨_, m, hfirst, hsecond⟩ :=
        (bind_returns htasks.nestable fun _ => hrun.nestable).mp h
      exact ⟨m, t', htasks.moves _ _ _ hfirst, saveUpdatedRun_returns hsecond, refl t'⟩
  | false =>
      obtain ⟨_, m, hfirst, hsecond⟩ :=
        (bind_returns hrun.nestable fun _ => htasks.nestable).mp h
      exact ⟨t, m, refl t, saveUpdatedRun_returns hfirst, htasks.moves _ _ _ hsecond⟩

theorem commitSnapshot_returns {snapshot : Snapshot} {u : Unit} (hsound : Sound t)
    (h : (inside (commitSnapshot snapshot)).run t = (.ok u, t')) :
    Passed snapshot.run.id snapshot.expectedRevision t t' := by
  unfold commitSnapshot at h
  rw [Nestable.inside_transaction] at h
  · obtain ⟨current, hcurrent, h⟩ := query_bind_returns.mp h
    obtain ⟨_, left, hsaved, hothers⟩ := (bind_returns (saveWithTasks_advances _ _).nestable fun _ =>
      (saveOthers_advances _).nestable).mp h
    obtain ⟨m, m', hbefore, hupdated, hafter⟩ := saveWithTasks_returns hsaved
    obtain ⟨hmem, hkey⟩ := getRun_ok hcurrent
    exact hupdated.passed ⟨current, hmem, hkey⟩ hbefore
      (IsTrans.trans _ _ _ hafter ((saveOthers_advances snapshot).moves _ _ _ hothers)) hsound
  · exact (Nestable.query _).bind fun _ => (saveWithTasks_advances _ _).nestable.bind fun _ =>
      (saveOthers_advances _).nestable

theorem saveRun_passed {run : StoredRun} {revision : Int} {u : Unit} (hsound : Sound t)
    (h : (inside (saveRun run (some revision))).run t = (.ok u, t')) :
    Passed run.id revision t t' := by
  have hupdated := saveUpdatedRun_returns h
  obtain ⟨row, hrow, hkey, -⟩ := hupdated.found
  exact hupdated.passed ⟨row, hrow, hkey⟩ (refl t) (refl t') hsound

end Store

end Evleda.Orchestrator
