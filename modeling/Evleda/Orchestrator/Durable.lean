/-
Calls on the store, in any order, accepted or refused.

The threads of a process share one connection behind a lock and other connections wait
for the lock of the writer, so calls take their turns, each of them one transaction; a
call that waits too long finds the database locked and raises.  A history is what such
calls leave: the connection, and the updates of runs that were accepted, each with the
revision it was made from.
-/
import Evleda.Orchestrator.Calls
import Evleda.Orchestrator.Snapshots

namespace Evleda.Orchestrator.Store

open Transacting

variable [Hashing]

/-! ### Calls -/

inductive Request where
  | saveRun (run : StoredRun) (expectedRevision : Option Int)
  | putTask (task : TaskRecord)
  | putAgent (agent : AgentRecord)
  | putQuestion (question : Question)
  | putApproval (approval : Approval)
  | captureEvidence (item : Evidence)
  | appendEvent (event : OrchestrationEvent)
  | commitSnapshot (snapshot : Snapshot)

namespace Request

def call : Request → StoreCall Unit
  | .saveRun run expectedRevision => Store.saveRun run expectedRevision
  | .putTask task => Store.putTask task
  | .putAgent agent => Store.putAgent agent
  | .putQuestion question => Store.putQuestion question
  | .putApproval approval => Store.putApproval approval
  | .captureEvidence item => Store.captureEvidence item
  | .appendEvent event => Store.appendEvent event
  | .commitSnapshot snapshot => Store.commitSnapshot snapshot

/-- The run that is updated, and the revision from which. -/
def update : Request → Option (String × Int)
  | .saveRun run expectedRevision => expectedRevision.map (run.id, ·)
  | .commitSnapshot snapshot => some (snapshot.run.id, snapshot.expectedRevision)
  | _ => none

theorem advances (request : Request) : Advances Grows request.call := by
  cases request with
  | saveRun run expectedRevision => exact saveRun_advances run expectedRevision
  | putTask task => exact putTask_advances task
  | putAgent agent => exact putAgent_advances agent
  | putQuestion question => exact putQuestion_advances question
  | putApproval approval => exact putApproval_advances approval
  | captureEvidence item => exact captureEvidence_advances item
  | appendEvent event => exact appendEvent_advances event
  | commitSnapshot snapshot => exact commitSnapshot_advances snapshot

/-- Every method is one transaction. -/
theorem atomic (request : Request) : Atomic request.call := by
  cases request with
  | saveRun run expectedRevision =>
      cases expectedRevision with
      | none => exact transaction_atomic (saveNewRun_nestable run) locked
      | some revision => exact transaction_atomic (saveUpdatedRun_nestable run revision) locked
  | putTask task =>
      exact transaction_atomic ((Nestable.query _).bind fun _ => (Nestable.query _).bind fun _ =>
        putMutable_nestable) locked
  | putAgent agent => exact transaction_atomic (.statement _) locked
  | putQuestion question => exact transaction_atomic (.statement _) locked
  | putApproval approval => exact transaction_atomic (.statement _) locked
  | captureEvidence item => exact transaction_atomic (.statement _) locked
  | appendEvent event =>
      refine Atomic.check_bind fun _ => transaction_atomic ?_ locked
      exact (Nestable.query _).bind fun _ => (Nestable.check _).bind fun _ =>
        (Nestable.check _).bind fun _ => (Nestable.query _).bind fun _ => .statement _
  | commitSnapshot snapshot =>
      refine transaction_atomic ?_ locked
      exact (Nestable.query _).bind fun _ => (saveWithTasks_advances _ _).nestable.bind fun _ =>
        (saveOthers_advances _).nestable

end Request

/-- A request, and whether the database was locked when it was made. -/
structure Call where
  request : Request
  busy : Bool := false

/-- The connection, and the updates accepted so far. -/
structure History where
  connection : Connection Tables
  accepted : List (String × Int)

namespace History

/-- A new database. -/
def initial : History := ⟨.idle {} false, []⟩

def tables (h : History) : Tables := h.connection.tables

/-- What a call returns or raises, and the connection it leaves. -/
def perform (h : History) (call : Call) : Except StoreFailure Unit × Connection Tables :=
  call.request.call.run { h.connection with busy := call.busy }

def next (h : History) (call : Call) : History :=
  match h.perform call with
  | (.ok _, connection) => ⟨connection, h.accepted ++ call.request.update.toList⟩
  | (.error _, connection) => ⟨connection, h.accepted⟩

/-- Between calls no transaction is open, the tables are sound, and no accepted update was made
from the revision a run has now. -/
structure Consistent (h : History) : Prop where
  idle : ∃ busy, h.connection = .idle h.tables busy
  sound : Sound h.tables
  distinct : h.accepted.Nodup
  passed : ∀ update ∈ h.accepted, ∃ run ∈ h.tables.runs,
    runKey run = update.1 ∧ update.2 < run.revision

/-- A call is refused and does nothing, or does what it does inside a transaction. -/
theorem next_eq {h : History} (call : Call) (hidle : ∃ busy, h.connection = .idle h.tables busy) :
    (∃ e, h.perform call = (.error e, .idle h.tables call.busy) ∧
      h.next call = ⟨.idle h.tables call.busy, h.accepted⟩) ∨
    ∃ t', (inside call.request.call).run h.tables = (.ok (), t') ∧
      h.perform call = (.ok (), .idle t' call.busy) ∧
      h.next call = ⟨.idle t' call.busy, h.accepted ++ call.request.update.toList⟩ := by
  obtain ⟨busy, hconnection⟩ := hidle
  have hstart : { h.connection with busy := call.busy } = Connection.idle h.tables call.busy := by
    rw [hconnection]
    rfl
  unfold next perform
  rw [hstart]
  rcases call.request.atomic h.tables call.busy with ⟨e, hrun⟩ | ⟨_, t', hinside, hrun⟩
  · exact Or.inl ⟨e, hrun, by rw [hrun]⟩
  · exact Or.inr ⟨t', hinside, hrun, by rw [hrun]⟩

/-- An accepted update goes past the revision it was made from. -/
theorem passed_of_update {request : Request} {t t' : Tables} (hsound : Sound t)
    (h : (inside request.call).run t = (.ok (), t')) {update : String × Int}
    (hupdate : request.update = some update) : Passed update.1 update.2 t t' := by
  cases request with
  | saveRun run expectedRevision =>
      cases expectedRevision with
      | none => cases hupdate
      | some revision =>
          cases hupdate
          exact saveRun_passed hsound h
  | commitSnapshot snapshot =>
      cases hupdate
      exact commitSnapshot_returns hsound h
  | _ => cases hupdate

theorem Consistent.next {h : History} (hconsistent : Consistent h) (call : Call) :
    Consistent (h.next call) ∧ Later h.tables (h.next call).tables := by
  rcases next_eq call hconsistent.idle with ⟨e, -, hnext⟩ | ⟨t', hinside, -, hnext⟩
  · rw [hnext]
    exact ⟨⟨⟨call.busy, rfl⟩, hconsistent.sound, hconsistent.distinct, hconsistent.passed⟩, .refl _⟩
  · rw [hnext]
    obtain ⟨hsound, hlater⟩ := call.request.advances.moves _ _ _ hinside hconsistent.sound
    have hpassed : ∀ update ∈ call.request.update, Passed update.1 update.2 h.tables t' :=
      fun update hupdate => passed_of_update hconsistent.sound hinside hupdate
    refine ⟨⟨⟨call.busy, rfl⟩, hsound, ?_, ?_⟩, hlater⟩
    · cases hupdate : call.request.update with
      | none => simpa using hconsistent.distinct
      | some update =>
          rw [hupdate] at hpassed
          obtain ⟨⟨run, hrun, hkey, hle⟩, -⟩ := hpassed update rfl
          refine List.nodup_append.mpr ⟨hconsistent.distinct, List.nodup_singleton _, ?_⟩
          rintro earlier hearlier _ hself rfl
          -- the run has one revision, above every earlier update's and not above this one's
          obtain rfl := List.mem_singleton.mp hself
          obtain ⟨run', hrun', hkey', hlt⟩ := hconsistent.passed earlier hearlier
          obtain rfl : run' = run :=
            List.inj_on_of_nodup_map hconsistent.sound.runs hrun' hrun (hkey'.trans hkey.symm)
          omega
    · intro update hupdate
      rcases List.mem_append.mp hupdate with hold | hnew
      · obtain ⟨run, hrun, hkey, hlt⟩ := hconsistent.passed update hold
        obtain ⟨run', hrun', hkey', hle, -⟩ := hlater.kept run hrun
        exact ⟨run', hrun', hkey'.trans hkey, by omega⟩
      · exact (hpassed update (Option.mem_toList.mp hnew)).2

theorem initial_consistent : Consistent initial where
  idle := ⟨false, rfl⟩
  sound := {
    runs := List.nodup_nil
    tasks := List.nodup_nil
    owned := fun _ htask => absurd htask List.not_mem_nil
    inventory := fun _ hrun => absurd hrun List.not_mem_nil
    chained := fun _ => ⟨rfl, Evleda.Linked.nil, fun _ hevent => absurd hevent List.not_mem_nil⟩ }
  distinct := List.nodup_nil
  passed _ hupdate := absurd hupdate List.not_mem_nil

theorem consistent_replay {h : History} (hconsistent : Consistent h) (calls : List Call) :
    Consistent (replay next h calls) ∧ Later h.tables (replay next h calls).tables := by
  induction calls generalizing h with
  | nil => exact ⟨hconsistent, .refl _⟩
  | cons call calls ih =>
      obtain ⟨hnext, hlater⟩ := hconsistent.next call
      obtain ⟨hlast, hlater'⟩ := ih hnext
      exact ⟨hlast, hlater.trans hlater'⟩

/--
**The store over any calls.**  From a new database on, between any two moments: the
contracts of a run that was sealed at the first have not changed at the second, nor has
the set of its tasks; the events of every run are a chain from one on, and those of the
first moment come first in it; no two accepted updates of a run were made from one
revision; and a call that is rejected leaves every table as it was.
-/
theorem store_kept (hfree : Hashing.CollisionFree) (earlier later : List Call) :
    let before := replay next initial earlier
    let after := replay next before later
    (∀ run ∈ before.tables.runs, run.taskInventoryDigest.isSome → ∀ taskId,
      after.tables.contractOf run.id taskId = before.tables.contractOf run.id taskId) ∧
    (∀ runId, Chained (after.tables.eventsOf runId) ∧
      before.tables.eventsOf runId <+: after.tables.eventsOf runId) ∧
    after.accepted.Nodup ∧
    ∀ call e, (after.perform call).1 = .error e → (after.next call).tables = after.tables := by
  intro before after
  obtain ⟨hbefore, -⟩ := consistent_replay initial_consistent earlier
  obtain ⟨hafter, hlater⟩ := consistent_replay hbefore later
  refine ⟨fun run hrun hsealed taskId => ?_, fun runId => ⟨hafter.sound.chained runId, ?_⟩,
    hafter.distinct, fun call e herror => ?_⟩
  · exact contracts_fixed hfree hbefore.sound hafter.sound hlater hrun hsealed taskId
  · exact hlater.events runId
  · rcases next_eq call hafter.idle with ⟨e', -, hnext⟩ | ⟨t', -, hperform, -⟩
    · rw [hnext]
      rfl
    · rw [hperform] at herror
      cases herror

end History

/-! ### A run that is sealed with a task -/

def sampleStored : StoredRun where
  toRunRecord := sampleRunRecord
  objective := "Route the board"
  createdAt := ⟨0, 0⟩

def retitledTask : TaskRecord := { sampleQueued 1 with title := "Reroute" }

def secondTask : TaskRecord := { sampleQueued 0 with id := "task_2" }

/-- Digests of the contracts of the three tasks. -/
def contractTable : List (List Char × String) :=
  [sampleQueued 0, retitledTask, secondTask].zipWith
    (fun task digest => ((taskContract task.toTask).render, digest)) ["c1", "c2", "c3"]

/-- A hash without collisions that gives these contracts, and the inventories asked for below, short
digests. -/
@[reducible] def sampleHashing : Hashing :=
  letI := Hashing.tabled contractTable
  Hashing.tabled (contractTable ++
    [[sampleQueued 0], [retitledTask], [sampleQueued 0, secondTask]].zipWith
      (fun tasks digest => ((inventoryJson "run_1" (tasks.map TaskRecord.toTask)).render, digest))
      ["i1", "i2", "i3"])

/-- The run at a later revision, sealed with the first task. -/
def sampleSealed (revision : Nat) : StoredRun :=
  { sampleStored with taskInventoryDigest := some "i1", revision := revision }

/-- The run is saved, and sealed in one transaction with its task. -/
def sampleCreation : List Call :=
  [⟨.saveRun sampleStored none, false⟩,
    ⟨.commitSnapshot { run := sampleSealed 1, expectedRevision := 0, tasks := [sampleQueued 0] },
      false⟩]

/-- The task is put after an attempt, under another title and beside another task, and an update of
the run is made twice. -/
def sampleWrites : List Call :=
  let update : Snapshot := { run := sampleSealed 2, expectedRevision := 1 }
  [⟨.putTask (sampleQueued 1), false⟩, ⟨.putTask retitledTask, false⟩, ⟨.putTask secondTask, false⟩,
    ⟨.commitSnapshot { update with tasks := [sampleQueued 2] }, false⟩,
    ⟨.commitSnapshot update, false⟩]

omit [Hashing] in
/-- The sealed run keeps the contract of its task, and gets no other task. -/
theorem store_kept_sample :
    letI := sampleHashing
    let after := (replay History.next History.initial (sampleCreation ++ sampleWrites)).tables
    after.contractOf "run_1" "task_1" = some "c1" ∧ after.contractOf "run_1" "task_2" = none := by
  let _ := sampleHashing
  have hfree : Hashing.CollisionFree :=
    Hashing.tabled_collisionFree (by decide +kernel) (by decide +kernel)
  have hsealed : ((replay History.next History.initial sampleCreation).tables.runs.any fun run =>
      run.taskInventoryDigest.isSome && run.id == "run_1") = true := by decide +kernel
  obtain ⟨run, hrun, hthis⟩ := List.any_eq_true.mp hsealed
  rw [Bool.and_eq_true, beq_iff_eq] at hthis
  have hkept := (History.store_kept hfree sampleCreation sampleWrites).1 run hrun hthis.1
  rw [hthis.2, ← Replay.append] at hkept
  have hbefore : (replay History.next History.initial sampleCreation).tables.contractOf "run_1"
      "task_1" = some "c1" := by decide +kernel
  have hnone : (replay History.next History.initial sampleCreation).tables.contractOf "run_1"
      "task_2" = none := by decide +kernel
  exact ⟨(hkept "task_1").trans hbefore, (hkept "task_2").trans hnone⟩

end Evleda.Orchestrator.Store
