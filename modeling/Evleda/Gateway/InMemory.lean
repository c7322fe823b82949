/-
The in-memory adapter.

A project has a committed design with its revision and at most one stage: the
design after a patch, the patch, and the record of the stage.  The three come and
go together, so they are one optional value.

An adapter answers a call of the gateway from the projects it has when the call
begins.  What it is asked may change them: a stage begins, is committed or is
rolled back.  Every other question leaves the projects alone.
-/
import Evleda.Gateway.Service

namespace Evleda.Gateway

open Outcome

/-! ### The projects -/

/-- What is staged of a project. -/
structure Staging where
  design : List (String × Json)
  patch : DesignPatch
  record : StageRecord

/-- `_ProjectState`; a design lists the members of its object. -/
structure ProjectState where
  projectId : String
  committedDesign : List (String × Json)
  projectRevision : String
  staging : Option Staging := none

structure InMemory where
  projects : Dict String ProjectState := Dict.empty
  exports : Dict String String := Dict.empty

/-- `VerificationHook` -/
abbrev VerificationHook :=
  String → String → String → DesignPatch → Except Failure (List VerificationFinding)

/-- An exception of the interpreter, such as a `TypeError`. -/
def runtimeError : Failure := ⟨.other, ""⟩

/-- Raise unless a condition holds. -/
def enforce (c : Prop) [Decidable c] (errorClass : ErrorClass) (message : String) :
    Except Failure Unit :=
  if c then .ok () else .error ⟨errorClass, message⟩

/-! ### Patches -/

/-- `design.get(key, default)` -/
def designMember (design : List (String × Json)) (key : String) (default : Json) : Json :=
  (Json.get? design key).getD default

/-- `design[key] = value` -/
def withMember (members : List (String × Json)) (key : String) (value : Json) :
    List (String × Json) :=
  members.filter (·.1 ≠ key) ++ [(key, value)]

def setMember (target : Json) (key : String) (value : Json) : Except Failure Json :=
  match target with
  | .obj members => .ok (.obj (withMember members key value))
  | _ => .error runtimeError

/-- `target.pop(key, None)` -/
def popMember (target : Json) (key : String) : Except Failure Json :=
  match target with
  | .obj members => .ok (.obj (members.filter (·.1 ≠ key)))
  | _ => .error runtimeError

def appendItem (target item : Json) : Except Failure Json :=
  match target with
  | .arr items => .ok (.arr (items ++ [item]))
  | _ => .error runtimeError

/-- The parts of a design that a patch touches. -/
structure DesignParts where
  components : Json
  nets : Json
  applied : Json

def PatchOperation.parameterMap (o : PatchOperation) : Json :=
  (Json.object (o.parameters.map fun p => (p.name, p.value))).canonical

def applyOperation (parts : DesignParts) (operation : PatchOperation) :
    Except Failure DesignParts := do
  let parts ← match operation.action with
    | .addComponent => do
        let components ← setMember parts.components operation.targetId operation.parameterMap
        pure { parts with components := components }
    | .removeComponent => do
        let components ← popMember parts.components operation.targetId
        pure { parts with components := components }
    | .connectNet => do
        let nets ← setMember parts.nets operation.targetId operation.parameterMap
        pure { parts with nets := nets }
    | .disconnectNet => do
        let nets ← popMember parts.nets operation.targetId
        pure { parts with nets := nets }
    | _ => pure parts
  let applied ← appendItem parts.applied operation.json.canonical
  pure { parts with applied := applied }

/-- The members in the order of their keys, all the way down. -/
def canonicalDesign (design : List (String × Json)) : List (String × Json) :=
  (Json.canonicalMembers design).insertionSort (fun a b => a.1 ≤ b.1)

/-- `_apply_patch` -/
def applyPatch (design : List (String × Json)) (patch : DesignPatch) :
    Except Failure (List (String × Json)) := do
  let parts ← patch.operations.foldlM applyOperation {
    components := designMember design "components" (.obj [])
    nets := designMember design "nets" (.obj [])
    applied := designMember design "applied_operations" (.arr []) }
  let design := withMember design "components" parts.components
  let design := withMember design "nets" parts.nets
  return canonicalDesign (withMember design "applied_operations" parts.applied)

section InMemory

variable [Hashing]

def revisionDigest (design : List (String × Json)) : String :=
  "rev_" ++ stableDigest (.object design)

/-! ### Findings -/

def minClearanceNm : Int := 100000

def engineVersion : String := "mock-kicad-rules/1.0.0"

/-- An `int`, which a `bool` is too. -/
def intOf : Json → Option Int
  | .int n => some n
  | .bool b => some (if b then 1 else 0)
  | _ => none

def truthy : Json → Bool
  | .null => false
  | .bool b => b
  | .int n => n ≠ 0
  | .str text => text ≠ ""
  | .arr items => !items.isEmpty
  | .obj members => !members.isEmpty

mutual

/-- A value that can be looked up in a set: mappings cannot. -/
def hashable : Json → Bool
  | .obj _ => false
  | .arr items => hashableItems items
  | _ => true

def hashableItems : List Json → Bool
  | [] => true
  | item :: rest => hashable item && hashableItems rest

end

/-- `params.get(name)` -/
def PatchOperation.parameter (o : PatchOperation) (name : String) : Json :=
  (Json.get? (o.parameters.map fun p => (p.name, p.value)) name).getD .null

def finding (ruleId : String) (operation : PatchOperation) (message : String) :
    VerificationFinding where
  findingId := derivedId "finding" [("rule_id", .str ruleId),
    ("operation_id", .str operation.operationId), ("message", .str message)]
  ruleId := ruleId
  severity := "error"
  message := message
  operationIds := [operation.operationId]

def isDigest (value : Json) : Bool :=
  match value with
  | .str text => Text.isSha256 text
  | _ => false

/-- The evidence that an added component needs. -/
def componentGrounded (o : PatchOperation) : Bool :=
  ["manufacturer_part_number", "symbol", "footprint", "datasheet_sha256", "pin_map_sha256"].all
      (fun name => truthy (o.parameter name)) &&
    ["datasheet_sha256", "pin_map_sha256"].all fun name => isDigest (o.parameter name)

def netConnected (o : PatchOperation) : Bool :=
  match o.parameter "pins" with
  | .arr pins => 2 ≤ pins.length
  | _ => false

def placementOnGrid (o : PatchOperation) : Except Failure Bool := do
  if (intOf (o.parameter "x_nm")).isNone || (intOf (o.parameter "y_nm")).isNone then
    return false
  let side := o.parameter "side"
  enforce (hashable side = true) runtimeError.errorClass runtimeError.message
  return (match side with
    | .str text => text = "F" ∨ text = "B"
    | _ => false) && (match intOf (o.parameter "rotation_mdeg") with
    | some rotation => rotation % 90000 = 0
    | none => false)

def isPoint : Json → Bool
  | .arr [x, y] => (intOf x).isSome && (intOf y).isSome
  | _ => false

def routeClear (o : PatchOperation) : Bool :=
  (match o.parameter "path_nm" with
    | .arr points => decide (2 ≤ points.length) && points.all isPoint
    | _ => false) &&
  (match intOf (o.parameter "width_nm") with
    | some width => 0 < width
    | none => false) &&
  (match intOf (o.parameter "clearance_nm") with
    | some clearance => minClearanceNm ≤ clearance
    | none => false)

def constraintClear (o : PatchOperation) : Bool :=
  match o.parameter "min_clearance_nm" with
  | .null => true
  | value =>
      match intOf value with
      | some clearance => minClearanceNm ≤ clearance
      | none => false

def operationFinding (o : PatchOperation) : Except Failure (Option VerificationFinding) := do
  match o.action with
  | .addComponent =>
      return if componentGrounded o then none else some (finding "component_grounding" o
        "component lacks exact MPN/symbol/footprint/datasheet/pin-map evidence")
  | .connectNet =>
      return if netConnected o then none else some (finding "net_minimum_connections" o
        "a connected net requires at least two explicit pins")
  | .placeComponent =>
      let valid ← placementOnGrid o
      return if valid then none else some (finding "placement_integer_grid" o
        "placement requires integer nanometres, F/B side, and 90-degree rotation")
  | .routeNet =>
      return if routeClear o then none else some (finding "route_geometry_and_clearance" o
        ("route requires an integer path, positive width, and clearance >= " ++
          toString minClearanceNm ++ " nm"))
  | .setConstraint =>
      return if constraintClear o then none else some (finding "minimum_clearance" o
        ("minimum clearance cannot be below " ++ toString minClearanceNm ++ " nm"))
  | _ => return none

/-- `_core_findings` -/
def coreFindings (patch : DesignPatch) : Except Failure (List VerificationFinding) := do
  let findings ← patch.operations.mapM operationFinding
  return findings.filterMap id

/-! ### The operations -/

namespace InMemory

def state (a : InMemory) (projectId : String) : Except Failure ProjectState :=
  match a.projects projectId with
  | some state => .ok state
  | none => .error ⟨.notFound, "project not found: " ++ projectId⟩

def expectProjectRevision (state : ProjectState) (expected : String) : Except Failure Unit :=
  enforce (state.projectRevision = expected) .revisionConflict
    ("project revision mismatch: expected " ++ expected ++ ", current " ++ state.projectRevision)

def expectStage (state : ProjectState) (expectedProjectRevision expectedStagedRevision : String) :
    Except Failure Staging := do
  expectProjectRevision state expectedProjectRevision
  match state.staging with
  | none => .error ⟨.transactionConflict, "project has no active staged transaction"⟩
  | some staging =>
      enforce (staging.record.stagedRevision = expectedStagedRevision) .revisionConflict
        "staged revision mismatch: the transaction changed or is stale"
      return staging

/-- Keep a new state of a project. -/
def put (a : InMemory) (projectId : String) (state : ProjectState) : InMemory :=
  { a with projects := a.projects.set projectId state }

def objectSize : Json → Int
  | .obj members => members.length
  | _ => 0

def arraySize : Json → Int
  | .arr items => items.length
  | _ => 0

def inspectProject (a : InMemory) (projectId : String) (expectedRevision : Option String) :
    Except Failure ProjectSnapshot := do
  let state ← a.state projectId
  match expectedRevision with
  | some expected => expectProjectRevision state expected
  | none => pure ()
  return {
    projectId := projectId
    projectRevision := state.projectRevision
    componentCount := objectSize (designMember state.committedDesign "components" (.obj []))
    netCount := objectSize (designMember state.committedDesign "nets" (.obj []))
    operationCount := arraySize (designMember state.committedDesign "applied_operations" (.arr []))
    activeStagedRevision := state.staging.map (·.record.stagedRevision) }

def previewPatch (a : InMemory) (projectId expectedRevision : String) (patch : DesignPatch) :
    Except Failure PatchPreview := do
  let state ← a.state projectId
  expectProjectRevision state expectedRevision
  enforce (patch.baseRevision = state.projectRevision) .revisionConflict
    "patch base revision is not the committed revision"
  let stagedDesign ← applyPatch state.committedDesign patch
  let prospectiveRevision := revisionDigest stagedDesign
  let summaries := patch.operations.map fun o => o.action.value ++ ":" ++ o.targetId
  return {
    projectId := projectId
    baseRevision := state.projectRevision
    prospectiveRevision := prospectiveRevision
    patchDigest := patch.digest
    previewDigest := stableDigest (.object [("project_id", .str projectId),
      ("base_revision", .str state.projectRevision),
      ("prospective_revision", .str prospectiveRevision), ("patch_digest", .str patch.digest),
      ("operation_summaries", textsJson summaries)])
    operationSummaries := summaries }

def stagePatch (a : InMemory) (projectId expectedRevision : String) (patch : DesignPatch)
    (previewDigest : String) : Except Failure (StageRecord × InMemory) := do
  let state ← a.state projectId
  expectProjectRevision state expectedRevision
  enforce (state.staging.isNone = true) .transactionConflict
    "project already has an active staged transaction"
  let preview ← a.previewPatch projectId expectedRevision patch
  enforce (preview.previewDigest = previewDigest) .revisionConflict
    "preview digest does not match the exact patch"
  let stagedDesign ← applyPatch state.committedDesign patch
  let stage : StageRecord := {
    transactionId := derivedId "txn" [("project", .str projectId),
      ("stage", .str preview.prospectiveRevision)]
    projectId := projectId
    baseRevision := state.projectRevision
    stagedRevision := preview.prospectiveRevision
    patchDigest := patch.digest
    previewDigest := preview.previewDigest }
  return (stage, a.put projectId { state with staging := some ⟨stagedDesign, patch, stage⟩ })

def runVerification (hook : VerificationHook) (a : InMemory)
    (projectId expectedProjectRevision expectedStagedRevision : String) :
    Except Failure VerificationReport := do
  let state ← a.state projectId
  let staging ← expectStage state expectedProjectRevision expectedStagedRevision
  let stage := staging.record
  let core ← coreFindings staging.patch
  let hooked ← hook projectId stage.baseRevision stage.stagedRevision staging.patch
  let findings := sortBy VerificationFinding.findingId (core ++ hooked)
  let passed := !findings.any fun f => f.severity == "error" || f.severity == "fatal"
  let reportId := derivedId "verification" [("stage", .str stage.stagedRevision),
    ("engine", .str engineVersion)]
  return {
    reportId := reportId
    projectId := projectId
    baseRevision := stage.baseRevision
    stagedRevision := stage.stagedRevision
    engineVersion := engineVersion
    passed := passed
    findings := findings
    reportDigest := stableDigest (.object [("report_id", .str reportId),
      ("project_id", .str projectId), ("base_revision", .str stage.baseRevision),
      ("staged_revision", .str stage.stagedRevision), ("engine_version", .str engineVersion),
      ("passed", .bool passed), ("findings", .arr (findings.map VerificationFinding.json))]) }

def commit (a : InMemory) (projectId expectedProjectRevision expectedStagedRevision : String) :
    Except Failure (String × InMemory) := do
  let state ← a.state projectId
  let staging ← expectStage state expectedProjectRevision expectedStagedRevision
  return (staging.record.stagedRevision, a.put projectId { state with
    committedDesign := staging.design
    projectRevision := staging.record.stagedRevision
    staging := none })

def rollback (a : InMemory) (projectId expectedProjectRevision expectedStagedRevision : String) :
    Except Failure (String × InMemory) := do
  let state ← a.state projectId
  let _ ← expectStage state expectedProjectRevision expectedStagedRevision
  return (state.projectRevision, a.put projectId { state with staging := none })

def mediaType : ExportFormat → String
  | .kicadArchive => "application/vnd.kicad.project+zip"
  | .gerberBundle => "application/vnd.gerber+zip"
  | .ipc2581 => "application/vnd.ipc2581+xml"

def exportProject (a : InMemory) (projectId expectedProjectRevision : String)
    (format : ExportFormat) : Except Failure (ExportArtifact × InMemory) := do
  let state ← a.state projectId
  expectProjectRevision state expectedProjectRevision
  let members : List (String × Json) := [("format", .str format.value),
    ("project_id", .str projectId), ("project_revision", .str state.projectRevision),
    ("design", .obj state.committedDesign)]
  let content := canonicalJson (.object members)
  let artifactId := derivedId "artifact" members
  return ({
    artifactId := artifactId
    projectId := projectId
    projectRevision := state.projectRevision
    format := format
    mediaType := mediaType format
    contentDigest := stableDigest (.object members)
    sizeBytes := content.utf8ByteSize }, { a with exports := a.exports.set artifactId content })

/-! ### Calls -/

/-- What the adapter answers while a call runs. -/
def answers (hook : VerificationHook) (a : InMemory) : Adapter where
  inspectProject := a.inspectProject
  previewPatch := a.previewPatch
  stagePatch projectId revision patch previewDigest :=
    (a.stagePatch projectId revision patch previewDigest).map Prod.fst
  runVerification := a.runVerification hook
  commit projectId revision staged := (a.commit projectId revision staged).map Prod.fst
  commitWithEvidence := none
  rollback projectId revision staged := (a.rollback projectId revision staged).map Prod.fst
  exportProject projectId revision format :=
    (a.exportProject projectId revision format).map Prod.fst

/-- An operation that raises changes nothing. -/
def changed {α : Type} (a : InMemory) (result : Except Failure (α × InMemory)) : InMemory :=
  match result with
  | .ok (_, a') => a'
  | .error _ => a

/-- The adapter after a question. -/
def after (a : InMemory) : Asked → InMemory
  | .stagePatch projectId revision patch previewDigest _ =>
      a.changed (a.stagePatch projectId revision patch previewDigest)
  | .commit projectId revision staged _ _ => a.changed (a.commit projectId revision staged)
  | .rollback projectId revision staged _ => a.changed (a.rollback projectId revision staged)
  | .exportProject projectId revision format _ =>
      a.changed (a.exportProject projectId revision format)
  | _ => a

/-- What is staged of a project. -/
def active (a : InMemory) (projectId : String) : Option StageRecord :=
  (a.projects projectId).bind fun state => state.staging.map (·.record)

def revision (a : InMemory) (projectId : String) : Option String :=
  (a.projects projectId).map (·.projectRevision)

/-! ### What an operation does -/

variable {a a' : InMemory} {projectId expected staged : String}

section

omit [Hashing]

theorem enforce_ok {c : Prop} [Decidable c] {errorClass : ErrorClass} {message : String} {u : Unit} :
    enforce c errorClass message = .ok u ↔ c := by
  unfold enforce
  split <;> simp_all

theorem state_ok {state : ProjectState} :
    a.state projectId = .ok state ↔ a.projects projectId = some state := by
  unfold InMemory.state
  cases a.projects projectId with
  | none => simp
  | some found => simp

theorem expectStage_ok {state : ProjectState} {staging : Staging} :
    expectStage state expected staged = .ok staging ↔
      state.projectRevision = expected ∧ state.staging = some staging ∧
        staging.record.stagedRevision = staged := by
  unfold expectStage expectProjectRevision
  rw [bind_ok]
  simp only [exists_unit, enforce_ok]
  cases state.staging with
  | none => simp
  | some found =>
      simp only [bind_ok, exists_unit, enforce_ok, pure_ok,
        Option.some.injEq]
      constructor
      · rintro ⟨hrevision, hstaged, rfl⟩
        exact ⟨hrevision, rfl, hstaged⟩
      · rintro ⟨hrevision, rfl, hstaged⟩
        exact ⟨hrevision, hstaged, rfl⟩

def Others (projectId : String) (a a' : InMemory) : Prop :=
  ∀ other, other ≠ projectId → a'.projects other = a.projects other

theorem put_others (a : InMemory) (projectId : String) (state : ProjectState) :
    Others projectId a (a.put projectId state) :=
  fun _ hne => Dict.set_of_ne _ _ hne

theorem put_projects (a : InMemory) (projectId : String) (state : ProjectState) :
    (a.put projectId state).projects projectId = some state := Dict.set_self ..

theorem put_active (a : InMemory) (projectId : String) (state : ProjectState) :
    (a.put projectId state).active projectId = state.staging.map (·.record) := by
  unfold active
  rw [put_projects]
  rfl

theorem put_revision (a : InMemory) (projectId : String) (state : ProjectState) :
    (a.put projectId state).revision projectId = some state.projectRevision := by
  unfold revision
  rw [put_projects]
  rfl

theorem Others.active (h : Others projectId a a') {other : String} (hne : other ≠ projectId) :
    a'.active other = a.active other := by
  unfold InMemory.active
  rw [h other hne]

theorem Others.revision (h : Others projectId a a') {other : String} (hne : other ≠ projectId) :
    a'.revision other = a.revision other := by
  unfold InMemory.revision
  rw [h other hne]

theorem inspectProject_revision {snapshot : ProjectSnapshot}
    (h : a.inspectProject projectId (some expected) = .ok snapshot) :
    a.revision projectId = some expected := by
  unfold InMemory.inspectProject expectProjectRevision at h
  simp only [bind_ok, exists_unit, state_ok, enforce_ok] at h
  obtain ⟨state, hstate, hrevision, -⟩ := h
  unfold InMemory.revision
  rw [hstate, ← hrevision]
  rfl

end

theorem stagePatch_ok {patch : DesignPatch} {previewDigest : String} {stage : StageRecord}
    (h : a.stagePatch projectId expected patch previewDigest = .ok (stage, a')) :
    a.active projectId = none ∧ a'.active projectId = some stage ∧
      a'.revision projectId = a.revision projectId ∧ Others projectId a a' := by
  unfold InMemory.stagePatch expectProjectRevision at h
  simp only [bind_ok, exists_unit, state_ok, enforce_ok, pure_ok,
    Prod.mk.injEq] at h
  obtain ⟨state, hstate, -, hnone, -, -, -, -, -, rfl, rfl⟩ := h
  refine ⟨?_, ?_, ?_, put_others _ _ _⟩
  · unfold InMemory.active
    rw [hstate]
    exact Option.map_eq_none_iff.mpr (Option.isNone_iff_eq_none.mp hnone)
  · rw [put_active]
    rfl
  · rw [put_revision]
    unfold InMemory.revision
    rw [hstate]
    rfl

omit [Hashing] in
theorem commit_ok {newRevision : String}
    (h : a.commit projectId expected staged = .ok (newRevision, a')) :
    newRevision = staged ∧ (∃ stage, a.active projectId = some stage ∧
        stage.stagedRevision = staged) ∧
      a'.active projectId = none ∧ a'.revision projectId = some staged ∧
      Others projectId a a' := by
  unfold InMemory.commit at h
  simp only [bind_ok, state_ok, expectStage_ok, pure_ok, Prod.mk.injEq] at h
  obtain ⟨state, hstate, staging, ⟨-, hstaging, rfl⟩, rfl, rfl⟩ := h
  refine ⟨rfl, ⟨staging.record, ?_, rfl⟩, ?_, ?_, put_others _ _ _⟩
  · unfold InMemory.active
    rw [hstate, Option.bind_some, hstaging]
    rfl
  · rw [put_active]
    rfl
  · rw [put_revision]

omit [Hashing] in
theorem rollback_ok {current : String}
    (h : a.rollback projectId expected staged = .ok (current, a')) :
    (∃ stage, a.active projectId = some stage ∧ stage.stagedRevision = staged) ∧
      a'.active projectId = none ∧ a'.revision projectId = a.revision projectId ∧
      Others projectId a a' := by
  unfold InMemory.rollback at h
  simp only [bind_ok, state_ok, expectStage_ok, pure_ok, Prod.mk.injEq] at h
  obtain ⟨state, hstate, staging, ⟨-, hstaging, rfl⟩, -, rfl⟩ := h
  refine ⟨⟨staging.record, ?_, rfl⟩, ?_, ?_, put_others _ _ _⟩
  · unfold InMemory.active
    rw [hstate, Option.bind_some, hstaging]
    rfl
  · rw [put_active]
    rfl
  · rw [put_revision]
    unfold InMemory.revision
    rw [hstate]
    rfl

theorem exportProject_projects {format : ExportFormat} {artifact : ExportArtifact}
    (h : a.exportProject projectId expected format = .ok (artifact, a')) :
    a'.projects = a.projects := by
  unfold InMemory.exportProject at h
  simp only [bind_ok, pure_ok, Prod.mk.injEq] at h
  obtain ⟨_, -, _, -, -, rfl⟩ := h
  rfl

end InMemory

end InMemory

end Evleda.Gateway
