/-
Independent reviews of what a run designed.

A run that asks for an independent critic is completed, or released, only if
every design or implementation task that was not cancelled has a review: a task
of its own that succeeded, by a critic of the run other than the agent the
result is from, and bound to the digest of the result as it is now.

The digest is taken over the task's contract, the agent that completed it and
its evidence.  A review that was made before the task was done again binds the
digest of another result, so with a hash free of collisions it does not count.
-/
import Evleda.Orchestrator.Phases
import Evleda.Orchestrator.Snapshots

namespace Evleda.Orchestrator

open Outcome

section Reviews

variable [Hashing]

/-! ### The digest of a result -/

/-- What is hashed of one piece of evidence. -/
def reported (item : Evidence) : Json :=
  Json.object [
    ("id", .str item.id),
    ("kind", .str item.kind.value),
    ("source", .str item.source),
    ("content_digest", .str item.contentDigest),
    ("summary", .str item.summary),
    ("captured_at", .str (Text.isoformat item.capturedAt)),
    ("check_id", optionalText item.checkId),
    ("policy_digest", optionalText item.policyDigest),
    ("passed", match item.passed with | some passed => .bool passed | none => .null),
    ("metadata_json", .str item.metadataJson)]

def resultJson (task : Task) (completedBy : String) (evidence : List Evidence) : Json :=
  Json.object [
    ("scope", .str "flux-clone-orchestrator-task-result-v1"),
    ("task_contract_digest", .str (taskContractDigest task)),
    ("completed_by_agent_id", .str completedBy),
    ("evidence", .arr ((sortBy Evidence.id evidence).map reported))]

theorem taskResultDigest_ok {task : Task} {evidence : List Evidence} {digest : String}
    (h : taskResultDigest task evidence = .ok digest) :
    ∃ completedBy, task.completedByAgentId = some completedBy ∧
      (∀ item ∈ evidence, item.runId = task.runId ∧ item.taskId = some task.id) ∧
      Hashing.ofJson (resultJson task completedBy evidence) = digest := by
  unfold taskResultDigest at h
  simp only [bind_ok, require_ok, exists_const] at h
  obtain ⟨-, -, h⟩ := h
  split at h
  · cases h
  · rename_i completedBy hcompletedBy
    simp only [bind_ok, require_ok, exists_const, pure_ok] at h
    obtain ⟨-, hbound, hdigest⟩ := h
    exact ⟨completedBy, hcompletedBy, hbound, hdigest⟩

/-- Two results a digest cannot tell apart. -/
structure SameResult (task : Task) (evidence : List Evidence) (task' : Task)
    (evidence' : List Evidence) : Prop where
  contract : taskContractDigest task = taskContractDigest task'
  completedBy : task.completedByAgentId = task'.completedByAgentId
  evidence : (evidence.map reported).Perm (evidence'.map reported)

/-- **A digest is that of one result.** -/
theorem taskResultDigest_inj (hfree : Hashing.CollisionFree) {task task' : Task}
    {evidence evidence' : List Evidence} {digest : String}
    (h : taskResultDigest task evidence = .ok digest)
    (h' : taskResultDigest task' evidence' = .ok digest) :
    SameResult task evidence task' evidence' := by
  obtain ⟨completedBy, hcompletedBy, -, hdigest⟩ := taskResultDigest_ok h
  obtain ⟨completedBy', hcompletedBy', -, hdigest'⟩ := taskResultDigest_ok h'
  have hperm := Json.perm_of_object_eq (Hashing.ofJson_inj hfree (hdigest.trans hdigest'.symm))
  have hmem := fun member => (hperm.mem_iff (a := member)).mp
  have hcontract : taskContractDigest task = taskContractDigest task' := by
    simpa using hmem ("task_contract_digest", .str (taskContractDigest task)) (by simp)
  have hagent : completedBy = completedBy' := by
    simpa using hmem ("completed_by_agent_id", .str completedBy) (by simp)
  have hreported : (sortBy Evidence.id evidence).map reported =
      (sortBy Evidence.id evidence').map reported := by
    simpa using hmem ("evidence", .arr ((sortBy Evidence.id evidence).map reported)) (by simp)
  refine ⟨hcontract, by rw [hcompletedBy, hcompletedBy', hagent], ?_⟩
  have hsorted : (evidence.map reported).Perm ((sortBy Evidence.id evidence).map reported) :=
    (sortBy_perm evidence).symm.map reported
  rw [hreported] at hsorted
  exact hsorted.trans ((sortBy_perm evidence').map reported)

/-! ### What the guard passes -/

/-- The guard before a run is completed or released. -/
def finishGuard (run : Run) (context : TransitionContext) : Bool :=
  context.verificationPassed && context.matchesTaskInventory run &&
    context.allRequiredTasksSucceeded run &&
    (!run.requireIndependentCritic || context.hasRequiredIndependentCriticReviews run)

/-- The evidence held of a task's present result, and its digest. -/
structure PresentResult (run : Run) (context : TransitionContext) (task : Task)
    (evidence : List Evidence) (digest : String) : Prop where
  declared : evidence.map Evidence.id = task.resultEvidenceIds
  held : ∀ item ∈ evidence, item ∈ context.evidence ∧ item.runId = run.id
  digest : taskResultDigest task evidence = .ok digest

/-- A review of a task that counts. -/
structure IndependentReview (run : Run) (context : TransitionContext) (target review : Task) :
    Prop where
  held : review ∈ context.tasks
  kind : review.kind = .review
  succeeded : review.state = .succeeded
  /-- No task reviews itself. -/
  other : review.id ≠ target.id
  names : target.id ∈ review.reviewedTaskIds
  reviewer : ∃ reviewer ∈ context.agents, reviewer.runId = run.id ∧ reviewer.agentClass = .critic ∧
    review.completedByAgentId = some reviewer.id
  producer : ∃ producer ∈ context.agents, producer.runId = run.id ∧
    target.completedByAgentId = some producer.id
  independent : review.completedByAgentId ≠ target.completedByAgentId
  /-- It binds the digest of the present result, and no other result has that digest. -/
  present : ∃ evidence digest, PresentResult run context target evidence digest ∧
    ⟨target.id, digest⟩ ∈ review.reviewedResultBindings ∧
    (Hashing.CollisionFree → ∀ task evidence', taskResultDigest task evidence' = .ok digest →
      SameResult task evidence' target evidence)

omit [Hashing] in
theorem byId_eq_some {α : Type} {id : α → String} {records : List α} {key : String} {record : α}
    (h : TransitionContext.byId id records key = some record) :
    record ∈ records ∧ id record = key := by
  unfold TransitionContext.byId at h
  have hkey := List.find?_some h
  exact ⟨List.mem_reverse.mp (List.mem_of_find?_eq_some h), beq_iff_eq.mp hkey⟩

variable {run : Run} {context : TransitionContext}

omit [Hashing] in
theorem bind_byId {α : Type} {id runId : α → String} {records : List α} {key : Option String}
    {record : α}
    (h : key.bind (TransitionContext.byId id (records.filter fun r => runId r == run.id)) =
      some record) : record ∈ records ∧ runId record = run.id ∧ key = some (id record) := by
  obtain ⟨value, rfl, hvalue⟩ := Option.bind_eq_some_iff.mp h
  obtain ⟨hmem, hid⟩ := byId_eq_some hvalue
  obtain ⟨hheld, hrun⟩ := List.mem_filter.mp hmem
  exact ⟨hheld, beq_iff_eq.mp hrun, by rw [hid]⟩

omit [Hashing] in
theorem mapM_byId {ids : List String} {evidence : List Evidence}
    (h : ids.mapM (TransitionContext.byId Evidence.id
      (context.evidence.filter fun item => item.runId == run.id)) = some evidence) :
    evidence.map Evidence.id = ids ∧ ∀ item ∈ evidence, item ∈ context.evidence ∧
      item.runId = run.id := by
  induction ids generalizing evidence with
  | nil =>
      obtain rfl : [] = evidence := Option.some.inj h
      simp
  | cons key ids ih =>
      rw [List.mapM_cons] at h
      obtain ⟨item, hitem, hrest⟩ := Option.bind_eq_some_iff.mp h
      obtain ⟨rest, hids, hpure⟩ := Option.bind_eq_some_iff.mp hrest
      obtain rfl : item :: rest = evidence := Option.some.inj hpure
      obtain ⟨hmap, hheld⟩ := ih hids
      obtain ⟨hmem, hkey⟩ := byId_eq_some hitem
      obtain ⟨hevidence, hrun⟩ := List.mem_filter.mp hmem
      refine ⟨by rw [List.map_cons, hmap, hkey], ?_⟩
      intro other hother
      rcases List.mem_cons.mp hother with rfl | hother
      · exact ⟨hevidence, beq_iff_eq.mp hrun⟩
      · exact hheld other hother

theorem bindsExactTargetResult_binds {review target : Task}
    (h : TransitionContext.bindsExactTargetResult (TransitionContext.byId Evidence.id
      (context.evidence.filter fun item => item.runId == run.id)) review target = true) :
    ∃ evidence digest, PresentResult run context target evidence digest ∧
      ⟨target.id, digest⟩ ∈ review.reviewedResultBindings := by
  unfold TransitionContext.bindsExactTargetResult at h
  dsimp only at h
  split at h
  · split at h
    · cases h
    · rename_i evidence hevidence
      split at h
      · cases h
      · rename_i digest hdigest
        obtain ⟨binding, hbinding, hbound⟩ := Option.map_eq_some_iff.mp (beq_iff_eq.mp h)
        obtain ⟨hdeclared, hheld⟩ := mapM_byId hevidence
        have htarget := List.find?_some hbinding
        have hmem := List.mem_reverse.mp (List.mem_of_find?_eq_some hbinding)
        rw [beq_iff_eq] at htarget
        have hpair : binding = ⟨target.id, digest⟩ := by rw [← htarget, ← hbound]
        exact ⟨evidence, digest, ⟨hdeclared, hheld, hdigest⟩, hpair ▸ hmem⟩
  · cases h

theorem matchesTaskInventory_sealed (h : context.matchesTaskInventory run = true) :
    ∃ digest, run.taskInventoryDigest = some digest ∧
      taskInventoryDigest run.id context.tasks = .ok digest := by
  unfold TransitionContext.matchesTaskInventory at h
  split at h
  · cases h
  · rename_i digest hsealed
    split at h
    · cases h
    · split at h
      · cases h
      · rename_i actual hactual
        rw [beq_iff_eq] at h
        exact ⟨digest, hsealed, h ▸ hactual⟩

theorem taskInventoryDigest_own {runId digest : String} {tasks : List Task}
    (h : taskInventoryDigest runId tasks = .ok digest) :
    (∀ task ∈ tasks, task.runId = runId) ∧ (tasks.map Task.id).Nodup := by
  unfold taskInventoryDigest at h
  simp only [bind_ok, require_ok, exists_unit] at h
  exact ⟨h.2.1, h.2.2.1⟩

/-- **What the guard finds for a task is an independent review of its present result.** -/
theorem reviewed_of_guard (hinventory : context.matchesTaskInventory run = true)
    (hreviews : context.hasRequiredIndependentCriticReviews run = true) {target : Task}
    (htarget : target ∈ context.tasks) (hkind : target.kind = .design ∨ target.kind = .implement)
    (hstate : target.state ≠ .cancelled) :
    ∃ review, IndependentReview run context target review := by
  obtain ⟨digest, -, hdigest⟩ := matchesTaskInventory_sealed hinventory
  obtain ⟨hown, hnodup⟩ := taskInventoryDigest_own hdigest
  have hrelevant : target ∈ (context.tasks.filter (fun task => task.runId == run.id)).filter
      (fun task => (task.kind = .design || task.kind = .implement) && task.state ≠ .cancelled) := by
    simp only [List.mem_filter, beq_iff_eq, Bool.and_eq_true, Bool.or_eq_true, decide_eq_true_eq]
    exact ⟨⟨htarget, hown target htarget⟩, hkind, hstate⟩
  unfold TransitionContext.hasRequiredIndependentCriticReviews at hreviews
  dsimp only at hreviews
  rw [if_neg (by rw [List.isEmpty_iff]; exact List.ne_nil_of_mem hrelevant)] at hreviews
  split at hreviews
  · cases hreviews
  · have hthis := List.all_eq_true.mp hreviews target hrelevant
    simp only [Bool.and_eq_true, List.any_eq_true, List.mem_filter, beq_iff_eq, bne_iff_ne,
      decide_eq_true_eq, Option.isSome_iff_exists, Option.any_eq_true] at hthis
    obtain ⟨⟨producer, hproducer⟩, review, ⟨⟨hheld, -⟩, ⟨⟨⟨hreview, -⟩, hsucceeded⟩, -⟩, -⟩,
      ⟨⟨⟨hnames, hindependent⟩, reviewer, hreviewer, hcritic⟩, hbinds⟩, -⟩ := hthis
    obtain ⟨hproducerHeld, hproducerRun, hproducerId⟩ := bind_byId hproducer
    obtain ⟨hreviewerHeld, hreviewerRun, hreviewerId⟩ := bind_byId hreviewer
    obtain ⟨evidence, digest, hpresent, hbinding⟩ := bindsExactTargetResult_binds hbinds
    refine ⟨review, hheld, hreview, hsucceeded, ?_, hnames,
      ⟨reviewer, hreviewerHeld, hreviewerRun, hcritic, hreviewerId⟩,
      ⟨producer, hproducerHeld, hproducerRun, hproducerId⟩, hindependent,
      evidence, digest, hpresent, hbinding, ?_⟩
    · -- identifiers are unique in the inventory, and a review is no design
      intro hid
      obtain rfl := List.inj_on_of_nodup_map hnodup hheld htarget hid
      rw [hreview] at hkind
      rcases hkind with hkind | hkind <;> cases hkind
    · intro hfree task evidence' hdigest
      exact taskResultDigest_inj hfree hdigest hpresent.digest

theorem finishGuard_iff : finishGuard run context = true ↔
    context.verificationPassed = true ∧ context.matchesTaskInventory run = true ∧
      context.allRequiredTasksSucceeded run = true ∧
      (run.requireIndependentCritic = true →
        context.hasRequiredIndependentCriticReviews run = true) := by
  unfold finishGuard
  rw [Bool.and_eq_true, Bool.and_eq_true, Bool.and_eq_true, Bool.or_eq_true, and_assoc, and_assoc,
    Bool.not_eq_true', ← Bool.not_eq_true, imp_iff_not_or]

theorem transition_guarded {run' : Run} {at' : Instant}
    (h : transition run .completed at' context = .ok run') : finishGuard run context = true := by
  unfold transition at h
  simp only [bind_ok, requireWhen_ok, require_ok, exists_unit,
    forall_const] at h
  obtain ⟨-, -, -, -, -, -, ⟨hverified, hinventory, hsucceeded, hreviews⟩, -⟩ := h
  exact finishGuard_iff.mpr ⟨hverified, hinventory, hsucceeded, hreviews⟩

theorem advance_guarded {run' : Run} {at' : Instant}
    (h : advance run .released at' context = .ok run') : finishGuard run context = true := by
  unfold advance at h
  split at h
  · cases h
  · simp only [bind_ok, requireWhen_ok, require_ok, exists_unit,
      forall_const] at h
    obtain ⟨-, -, -, ⟨hverified, hinventory, hsucceeded, hreviews⟩, -⟩ := h
    exact finishGuard_iff.mpr ⟨hverified, hinventory, hsucceeded, hreviews⟩

/-- **Nothing designed is completed or released without an independent review of it as it is.** -/
theorem finished_reviewed (run : Run) (context : TransitionContext)
    (hcritic : run.requireIndependentCritic = true) :
    (∀ at' run', transition run .completed at' context = .ok run' →
      finishGuard run context = true) ∧
    (∀ at' run', advance run .released at' context = .ok run' → finishGuard run context = true) ∧
    (finishGuard run context = true →
      (∃ digest, run.taskInventoryDigest = some digest ∧
        taskInventoryDigest run.id context.tasks = .ok digest) ∧
      ∀ target ∈ context.tasks, target.kind = .design ∨ target.kind = .implement →
        target.state ≠ .cancelled → ∃ review, IndependentReview run context target review) := by
  refine ⟨fun _ _ h => transition_guarded h, fun _ _ h => advance_guarded h, ?_⟩
  intro hguard
  obtain ⟨-, hinventory, -, hreviews⟩ := finishGuard_iff.mp hguard
  refine ⟨matchesTaskInventory_sealed hinventory, ?_⟩
  intro target htarget hkind hstate
  exact reviewed_of_guard hinventory (hreviews hcritic) htarget hkind hstate

end Reviews

/-! ### A board, laid out and reviewed -/

/-- The layout, by the first agent. -/
def reviewedTask : Task :=
  { sampleTask with
    kind := .design
    resultEvidenceIds := ["evidence_1"]
    completedByAgentId := some "agent_1" }

/-- Its review, by the second. -/
def reviewTask : Task :=
  { sampleTask with
    id := "task_2"
    title := "Review the layout"
    kind := .review
    createdSeq := 1
    dependencies := ["task_1"]
    requiredAgentClass := some .critic
    reviewedTaskIds := ["task_1"]
    reviewedResultBindings :=
      [⟨"task_1", "0bb7b75a29ae23763269d9e14c5414e852f3b3263b81876f542da386768319c8"⟩]
    resultEvidenceIds := ["evidence_2"]
    completedByAgentId := some "agent_2" }

def reviewEvidence (id taskId : String) : Evidence where
  id := id
  runId := "run_1"
  kind := .designCheck
  source := "kicad"
  contentDigest := "51869ead83b9d60052f4e6d1a1d954ba47f87ccd46efe88513e12d0407d9829a"
  summary := "ok"
  capturedAt := 1767225600000000
  taskId := some taskId
  checkId := none
  policyDigest := none
  passed := some true
  metadataJson := "{}"

/-- SHA-256 on the four texts the guard hashes: the two contracts, the result and the inventory. -/
@[reducible] def reviewHashing : Hashing where
  sha256 text :=
    if text.take 16 = "\x7b\"created_seq\":0".toList then
      "42dfc8a1940c5c650fb062240d09c277075f4cc129ef40c75b52327996ca60bd"
    else if text.take 16 = "\x7b\"created_seq\":1".toList then
      "1e61d27808adc2cdc1af1b985cf36cabdf188a39452b427d8d0b3f2cac74303f"
    else if text.take 16 = "\x7b\"completed_by_a".toList then
      "0bb7b75a29ae23763269d9e14c5414e852f3b3263b81876f542da386768319c8"
    else "7837f4015ae0a703bb59f43df5ff0ce56c19ce46d7099204311795889641f13b"

def reviewedRun : Run :=
  { sampleRun with
    requireIndependentCritic := true
    taskInventoryDigest :=
      some "7837f4015ae0a703bb59f43df5ff0ce56c19ce46d7099204311795889641f13b" }

def reviewedContext : TransitionContext where
  tasks := [reviewedTask, reviewTask]
  agents := [⟨"agent_1", "run_1", .domainDesigner⟩, ⟨"agent_2", "run_1", .critic⟩]
  evidence := [reviewEvidence "evidence_1" "task_1", reviewEvidence "evidence_2" "task_2"]
  verificationPassed := true

theorem finished_reviewed_sample :
    letI := reviewHashing
    ∃ review, IndependentReview reviewedRun reviewedContext reviewedTask review :=
  letI := reviewHashing
  ((finished_reviewed reviewedRun reviewedContext rfl).2.2 (by decide +kernel)).2 reviewedTask
    List.mem_cons_self (Or.inl rfl) (by decide)

end Evleda.Orchestrator
