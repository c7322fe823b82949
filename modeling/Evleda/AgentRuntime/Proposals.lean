/-
What an accepted proposal may contain.

Actions, capabilities and cited evidence are those of the context, and there is no
operation while a question is blocking.  No parameter has a forbidden name.  But
only the names of the parameters themselves are compared: a forbidden name may
still be a key of an object inside a parameter's value, and an accepted proposal is
free of them exactly when the payload has none there.
-/
import Evleda.AgentRuntime.TaskOrder

namespace Evleda.AgentRuntime

open Outcome

/-! ### The property -/

/-- Nothing in a proposal is outside the authority of its context. -/
structure AgentProposal.Within (context : AgentTaskContext) (p : AgentProposal) : Prop where
  names : ∀ operation ∈ p.operations, ∀ name ∈ forbiddenParameterNames,
    name ∉ (Value.obj operation.parameters).keys
  actions : ∀ operation ∈ p.operations, operation.action ∈ context.val.allowedActions
  capabilities : ∀ task ∈ p.tasks, ∀ capability ∈ task.requiredCapabilities,
    capability ∈ context.val.allowedCapabilities
  evidence : ∀ operation ∈ p.operations, ∀ id ∈ operation.evidenceIds,
    id ∈ context.val.evidenceIds
  blocking : (∃ question ∈ p.questions, question.blocking = true) → p.operations = []

def Value.operationParameters (payload : Value) : List (List (String × Value)) :=
  match payload.get? "operations" with
  | some (.arr items) => items.filterMap fun item =>
      match item.get? "parameters" with
      | some (.obj parameters) => some parameters
      | _ => none
  | _ => []

/-- No forbidden name is a key inside the value of a parameter. -/
def Value.CleanInside (payload : Value) : Prop :=
  ∀ parameters ∈ payload.operationParameters, ∀ parameter ∈ parameters,
    ∀ name ∈ forbiddenParameterNames, name ∉ parameter.2.keys

/-! ### The parts of an accepted proposal -/

section Parts

variable [UnicodeData] {context : AgentTaskContext}

theorem mapping_ok {value : Value} {label : String} {keys : List String}
    {members : List (String × Value)} (h : mapping value label keys = .ok members) :
    value = .obj members := by
  cases value with
  | obj members' =>
      obtain ⟨_, -, h⟩ := bind_ok.mp h
      rw [pure_ok.mp h]
  | _ => cases h

omit [UnicodeData] in
theorem array_ok {value : Value} {label : String} {items : List Value}
    (h : array value label = .ok items) : value = .arr items := by
  cases value with
  | arr items' => rw [Except.ok.inj h]
  | _ => cases h

omit [UnicodeData] in
/-- What stays of a list after the unknown entries were refused is known. -/
theorem all_known {items known : List String}
    (h : sortedSet (items.filter (· ∉ known)) = []) : ∀ a ∈ items, a ∈ known := by
  rw [sortedSet_eq_nil, List.filter_eq_nil_iff] at h
  intro a ha
  simpa using h a ha

theorem proposedTask_ok {raw : Value} {index : Nat} {task : ProposedTask}
    (h : proposedTask context raw index = .ok task) :
    ∀ capability ∈ task.requiredCapabilities, capability ∈ context.val.allowedCapabilities := by
  unfold proposedTask at h
  obtain ⟨fields, -, h⟩ := bind_ok.mp h
  obtain ⟨taskId, -, h⟩ := bind_ok.mp h
  obtain ⟨_, -, h⟩ := bind_ok.mp h
  split at h
  · obtain ⟨capabilities, -, h⟩ := bind_ok.mp h
    obtain ⟨_, hauthorized, h⟩ := bind_ok.mp h
    obtain ⟨objective, -, h⟩ := bind_ok.mp h
    obtain ⟨dependencies, -, h⟩ := bind_ok.mp h
    obtain ⟨acceptanceChecks, -, h⟩ := bind_ok.mp h
    obtain rfl := pure_ok.mp h
    exact all_known (require_ok.mp hauthorized)
  · cases h

/-- What is known of an operation that was accepted. -/
structure ProposedOperation.From (context : AgentTaskContext) (raw : Value)
    (operation : ProposedOperation) : Prop where
  parameters : raw.get? "parameters" = some (.obj operation.parameters)
  names : ∀ name ∈ forbiddenParameterNames, name ∉ operation.parameters.map Prod.fst
  action : operation.action ∈ context.val.allowedActions
  evidence : ∀ id ∈ operation.evidenceIds, id ∈ context.val.evidenceIds

omit [UnicodeData] in
theorem get?_of_item {fields : List (String × Value)} {key : String} {value : Value}
    (h : item fields key = value) (hvalue : value ≠ .null) :
    (Value.obj fields).get? key = some value := by
  unfold item at h
  rw [Value.get?]
  cases hlookup : fields.lookup key with
  | none =>
      rw [hlookup] at h
      exact absurd h.symm hvalue
  | some found =>
      rw [hlookup] at h
      exact congrArg some h

theorem proposedOperation_ok {raw : Value} {index : Nat} {operation : ProposedOperation}
    (h : proposedOperation context raw index = .ok operation) : operation.From context raw := by
  unfold proposedOperation at h
  obtain ⟨fields, hfields, hrest⟩ := bind_ok.mp h
  obtain rfl := mapping_ok hfields
  clear h
  obtain ⟨operationId, -, h⟩ := bind_ok.mp hrest
  obtain ⟨targetId, -, h⟩ := bind_ok.mp h
  obtain ⟨_, -, h⟩ := bind_ok.mp h
  obtain ⟨_, -, h⟩ := bind_ok.mp h
  split at h
  · cases h
  obtain ⟨_, haction, h⟩ := bind_ok.mp h
  split at h
  · rename_i parameters hparameters
    obtain ⟨_, hforbidden, h⟩ := bind_ok.mp h
    obtain ⟨_, -, h⟩ := bind_ok.mp h
    obtain ⟨evidenceIds, -, h⟩ := bind_ok.mp h
    obtain ⟨_, hevidence, h⟩ := bind_ok.mp h
    obtain rfl := pure_ok.mp h
    have hnames := require_ok.mp hforbidden
    rw [sortedSet_eq_nil, List.filter_eq_nil_iff] at hnames
    exact {
      parameters := get?_of_item hparameters (by simp)
      names := fun name hname => by simpa using hnames name hname
      action := require_ok.mp haction
      evidence := all_known (require_ok.mp hevidence) }
  · cases h

/-- What is known of a proposal that was accepted. -/
structure AgentProposal.From (context : AgentTaskContext) (payload : Value) (p : AgentProposal) :
    Prop where
  tasks : ∀ task ∈ p.tasks, ∀ capability ∈ task.requiredCapabilities,
    capability ∈ context.val.allowedCapabilities
  operations : ∃ raws : List Value, payload.get? "operations" = some (.arr raws) ∧
    List.Forall₂ (fun raw operation => ProposedOperation.From context raw operation) raws
      p.operations
  blocking : ¬ ((∃ question ∈ p.questions, question.blocking = true) ∧ p.operations ≠ [])

omit [UnicodeData] in
/-- The elements of a list are read one by one, whatever their numbers. -/
theorem forall₂_of_zipIdx {α : Type} {R : Value → α → Prop} {f : Value → Nat → Except Failure α}
    (hf : ∀ raw index a, f raw index = .ok a → R raw a) {raws : List Value} {results : List α}
    (h : raws.zipIdx.mapM (fun raw => f raw.1 raw.2) = .ok results) :
    List.Forall₂ R raws results := by
  have hall := (mapM_ok.mp h).imp fun raw a ha => hf raw.1 raw.2 a ha
  have hmap := List.forall₂_map_left_iff (f := Prod.fst) (R := R) (l := raws.zipIdx)
    (u := results) |>.mpr hall
  rwa [List.zipIdx_map_fst] at hmap

theorem validateProposal_ok [Hashing] {room : Nat} {payload : Value} {p : AgentProposal}
    (h : validateProposal room payload context = .ok p) : p.From context payload := by
  unfold validateProposal at h
  obtain ⟨root, hroot, hrest⟩ := bind_ok.mp h
  obtain rfl := mapping_ok hroot
  clear h
  obtain ⟨contextDigest, -, h⟩ := bind_ok.mp hrest
  obtain ⟨_, -, h⟩ := bind_ok.mp h
  obtain ⟨rawQuestions, -, h⟩ := bind_ok.mp h
  obtain ⟨questions, -, h⟩ := bind_ok.mp h
  obtain ⟨_, -, h⟩ := bind_ok.mp h
  obtain ⟨rawTasks, -, h⟩ := bind_ok.mp h
  obtain ⟨tasks, htasks, h⟩ := bind_ok.mp h
  obtain ⟨_, -, h⟩ := bind_ok.mp h
  obtain ⟨_, -, h⟩ := bind_ok.mp h
  obtain ⟨rawOperations, hraws, h⟩ := bind_ok.mp h
  obtain ⟨operations, hoperations, h⟩ := bind_ok.mp h
  obtain ⟨_, -, h⟩ := bind_ok.mp h
  obtain ⟨_, hblocking, h⟩ := bind_ok.mp h
  obtain ⟨summary, -, h⟩ := bind_ok.mp h
  obtain ⟨residualRisks, -, h⟩ := bind_ok.mp h
  obtain rfl := pure_ok.mp h
  refine ⟨?_, ⟨rawOperations, get?_of_item (array_ok hraws) (by simp), ?_⟩, require_ok.mp hblocking⟩
  · intro task htask
    obtain ⟨raw, -, hraw⟩ := mapM_mem htasks htask
    exact proposedTask_ok hraw
  · exact forall₂_of_zipIdx (f := proposedOperation context)
      (fun _ _ _ h => proposedOperation_ok h) hoperations

omit [UnicodeData] in
theorem AgentProposal.From.parameters {payload : Value} {p : AgentProposal}
    (h : p.From context payload) :
    payload.operationParameters = p.operations.map (·.parameters) := by
  obtain ⟨raws, hraws, hall⟩ := h.operations
  unfold Value.operationParameters
  rw [hraws]
  clear hraws h
  generalize p.operations = operations at hall ⊢
  induction hall with
  | nil => rfl
  | cons hfirst _ ih =>
      simp only [List.filterMap_cons, hfirst.parameters, List.map_cons, List.cons.injEq, true_and]
      exact ih

/-- **An accepted proposal is within its context exactly when no forbidden name is a key inside the
value of a parameter**; everything else the checks see to. -/
theorem accepted_within_iff [Hashing] {room : Nat} {payload : Value} {p : AgentProposal}
    (h : validateProposal room payload context = .ok p) :
    p.Within context ↔ payload.CleanInside := by
  have hfrom := validateProposal_ok h
  obtain ⟨raws, -, hall⟩ := hfrom.operations
  have hoperation : ∀ operation ∈ p.operations, ∃ raw, operation.From context raw := by
    intro operation hoperation
    obtain ⟨hlength, hget⟩ := List.forall₂_iff_get.mp hall
    obtain ⟨i, rfl⟩ := List.mem_iff_get.mp hoperation
    exact ⟨_, hget i (by rw [hlength]; exact i.isLt) i.isLt⟩
  unfold Value.CleanInside
  rw [hfrom.parameters]
  constructor
  · intro hwithin parameters hparameters parameter hparameter name hname hkey
    obtain ⟨operation, hmem, rfl⟩ := List.mem_map.mp hparameters
    refine hwithin.names operation hmem name hname ?_
    rw [Value.keys]
    exact Value.mem_keysOfMembers.mpr (Or.inr ⟨parameter, hparameter, hkey⟩)
  · intro hclean
    refine ⟨?_, ?_, hfrom.tasks, ?_, ?_⟩
    · intro operation hmem name hname hkey
      rw [Value.keys] at hkey
      obtain ⟨raw, hraw⟩ := hoperation operation hmem
      rcases Value.mem_keysOfMembers.mp hkey with htop | ⟨parameter, hparameter, hinside⟩
      · exact hraw.names name hname htop
      · exact hclean operation.parameters (List.mem_map_of_mem hmem) parameter hparameter name hname
          hinside
    · intro operation hmem
      obtain ⟨raw, hraw⟩ := hoperation operation hmem
      exact hraw.action
    · intro operation hmem
      obtain ⟨raw, hraw⟩ := hoperation operation hmem
      exact hraw.evidence
    · intro hquestion
      by_contra hne
      exact hfrom.blocking ⟨hquestion, hne⟩

end Parts

/-! ### A path inside an object -/

section Sample

/-- Every text has one digest. -/
@[reducible] def constantHashing : Hashing := ⟨fun _ => String.ofList (List.replicate 64 'a')⟩

attribute [local instance] asciiData constantHashing

def sampleFields : ContextFields where
  runId := "r1"
  taskId := "t1"
  role := .domainDesigner
  objective := "Place the part"
  instructions := "Stay inside the board"
  inputRevision := "v1"
  allowedActions := [.placeComponent]
  allowedCapabilities := []

def sampleContext : AgentTaskContext := ⟨sampleFields, by decide +kernel⟩

def samplePayload (parameters : List (String × Value)) : Value := .obj [
  ("context_digest", .str sampleFields.contextDigest), ("summary", .str "Placed"),
  ("questions", .arr []), ("tasks", .arr []),
  ("operations", .arr [.obj [("operation_id", .str "op1"), ("action", .str "place_component"),
    ("target_id", .str "U1"), ("parameters", .obj parameters), ("evidence_ids", .arr [])]]),
  ("residual_risks", .arr [])]

def sampleProposal (parameters : List (String × Value)) : AgentProposal where
  contextDigest := sampleFields.contextDigest
  summary := "Placed"
  questions := []
  tasks := []
  operations := [⟨"op1", .placeComponent, "U1", parameters, []⟩]
  residualRisks := []

/-- The path is not a parameter but a key of one. -/
def hiddenPath : List (String × Value) := [("model", .obj [("path", .str "C:/unsafe.kicad_pcb")])]

theorem hiddenPath_accepted :
    validateProposal 1000 (samplePayload hiddenPath) sampleContext =
      .ok (sampleProposal hiddenPath) := by
  rfl

/-- A proposal with a path inside a parameter is accepted. -/
theorem hiddenPath_escapes :
    ∃ payload context p, validateProposal 1000 payload context = .ok p ∧ ¬ p.Within context := by
  refine ⟨_, _, _, hiddenPath_accepted, fun h => ?_⟩
  refine h.names _ (List.mem_singleton_self _) "path" (by decide) ?_
  decide +kernel

theorem accepted_within_sample :
    (sampleProposal hiddenPath).Within sampleContext ↔ (samplePayload hiddenPath).CleanInside :=
  accepted_within_iff hiddenPath_accepted

end Sample

end Evleda.AgentRuntime
