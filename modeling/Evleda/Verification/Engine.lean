/-
The engine: rules are run over a board, and the gates decide on what they found.

An evaluator is code of its own and may keep state from one call to the next.  That state
is threaded through the run, and the engine compares the identity of every evaluator, and
of the geometry, before and after each call with what it was at the start.  Whatever an
evaluator raises ends the verification; a report is of a run that came to its end.
-/
import Evleda.Verification.Policy

namespace Evleda.Verification

open Outcome

/-- `stable_hash`: the digest of a value under a domain, taken over its canonical data. -/
class StableHash where
  stableHash : {α : Type} → String → α → String

open StableHash (stableHash)

def engineVersion : String := "2.1.0"

def reportSchemaVersion : Nat := 3

def boardSchemaVersion : Int := 3

/-! ### The board that is accepted -/

section Boards

variable [StableHash]

/-- `zone_filled_geometry_hash` -/
def zoneFilledGeometryHash (zone : Zone) : String :=
  stableHash "pcb-zone-filled-geometry-v1"
    (zone.zoneId, zone.netId, zone.layer, zone.outline.normalized, zone.clearanceNm)

/-- `zone_fill_evidence_hash` -/
def zoneFillEvidenceHash (evidence : ZoneFillEvidence) : String :=
  stableHash "pcb-zone-fill-evidence-v1" (evidence.sourceGraphHash, evidence.sourceRevision,
    evidence.fillEngineId, evidence.fillEngineRevision, evidence.filledGeometryHash)

/-- The fields are not blank. -/
def requireTexts (location : String) (fields : List (String × String)) : Except VerifyError Unit :=
  fields.forM fun field => require (Text.isBlank field.2 = false)
    (.input (location ++ "." ++ field.1 ++ " must be non-empty"))

def validateFillEvidence (location : String) (zone : Zone) (evidence : ZoneFillEvidence) :
    Except VerifyError Unit := do
  let digests := [("source_graph_hash", evidence.sourceGraphHash),
    ("source_revision", evidence.sourceRevision),
    ("filled_geometry_hash", evidence.filledGeometryHash), ("evidence_hash", evidence.evidenceHash)]
  requireTexts (location ++ ".fill_evidence") (digests.take 2 ++ [("fill_engine_id",
    evidence.fillEngineId), ("fill_engine_revision", evidence.fillEngineRevision)] ++ digests.drop 2)
  digests.forM fun field => require (Text.isSha256 field.2) (.input
    (location ++ ".fill_evidence." ++ field.1 ++ " must be a lowercase SHA-256 digest"))
  require (evidence.filledGeometryHash = zoneFilledGeometryHash zone)
    (.input (location ++ " fill evidence does not bind its exact modeled geometry"))
  require (evidence.evidenceHash = zoneFillEvidenceHash evidence)
    (.input (location ++ " fill evidence hash does not bind its provenance"))

def validateZone (location : String) (zone : Zone) : Except VerifyError Unit :=
  match zone.fillState, zone.fillEvidence with
  | .unfilledIntent, none => .ok ()
  | .unfilledIntent, some _ =>
      .error (.input (location ++ " unfilled intent cannot carry fill evidence"))
  | .verifiedFilled, none =>
      .error (.input (location ++ ".fill_evidence must be exact ZoneFillEvidence"))
  | .verifiedFilled, some evidence => validateFillEvidence location zone evidence

/-- `_validate_board_graph`: the schema, apart from the types of the fields -/
def validateBoardGraph (board : BoardGraph) : Except VerifyError Unit := do
  let place := fun collection (index : Nat) => "board." ++ collection ++ "[" ++ toString index ++ "]"
  requireTexts "board" [("design_id", board.designId), ("revision", board.revision)]
  board.zones.zipIdx.forM fun (zone, index) => validateZone (place "zones" index) zone
  board.holes.zipIdx.forM fun (hole, index) => requireTexts (place "holes" index)
    ([("hole_id", hole.holeId), ("component_id", hole.componentId)] ++
      (hole.padId.map ("pad_id", ·)).toList)
  board.pads.zipIdx.forM fun (pad, index) => requireTexts (place "pads" index)
    ([("pad_id", pad.padId), ("component_id", pad.componentId), ("pad_number", pad.padNumber)] ++
      (pad.netId.map ("net_id", ·)).toList ++
      (pad.sharedLandGroupId.map ("shared_land_group_id", ·)).toList)

end Boards

/-! ### What the exact shapes cannot represent -/

def shapeDependentRuleIds : List String :=
  ["ALG.ROUTING.CONNECTIVITY", "ALG.VIA.NET_CONNECTIVITY", "GEO.COPPER.MIN_CLEARANCE",
    "GEO.COPPER.BOARD_EDGE_CLEARANCE", "GEO.PAD.MIN_ANNULAR_RING"]

def geometryBlockerPrefixes : List String :=
  ["exact-pad-rotation-not-supported:", "exact-pad-circle-nonsquare-not-supported:",
    "exact-pad-roundrect-radius-not-represented:", "exact-hole-slot-not-supported:",
    "exact-drill-rotation-not-supported:"]

/-- Turned otherwise than by quarters. -/
def turned (rotationUdeg : Int) : Bool := rotationUdeg % 90000000 != 0

def repeated (values : List String) : List String := values.filter fun value => 1 < values.count value

/-- The blocker, if there is reason for it. -/
def blockedIf (c : Prop) [Decidable c] (blocker : String) : List String := if c then [blocker] else []

def drillBlockers (owner : String) (drillX drillY rotation : Int) : List String :=
  blockedIf (drillX ≠ drillY ∧ turned rotation)
    ("exact-drill-rotation-not-supported:" ++ owner ++ ":" ++ toString rotation)

def padBlockers (pad : PhysicalPad) : List String :=
  blockedIf (turned pad.rotationUdeg)
    ("exact-pad-rotation-not-supported:" ++ pad.padId ++ ":" ++ toString pad.rotationUdeg) ++
  blockedIf (pad.shape = .circle ∧ pad.sizeXNm ≠ pad.sizeYNm)
    ("exact-pad-circle-nonsquare-not-supported:" ++ pad.padId) ++
  blockedIf (pad.shape = .roundrect) ("exact-pad-roundrect-radius-not-represented:" ++ pad.padId) ++
  drillBlockers ("pad:" ++ pad.padId) pad.drillXNm pad.drillYNm pad.drillRotationUdeg

def holeBlockers (hole : Hole) : List String :=
  drillBlockers ("hole:" ++ hole.holeId) hole.drillXNm hole.drillYNm hole.drillRotationUdeg

/-- The net that the connections give a logical pad; a later connection replaces an earlier. -/
def logicalPadNets (board : BoardGraph) : Dict (String × String) String :=
  let pins := Dict.empty.update (board.components.flatMap fun component =>
    component.pins.map fun pin => ((component.componentId, pin.number), pin))
  Dict.empty.update (board.nets.flatMap fun net => net.connections.filterMap fun connection =>
    (pins (connection.componentId, connection.pinNumber)).map fun pin =>
      ((connection.componentId, if pin.padNumber = "" then pin.number else pin.padNumber),
        net.netId))

/-- What two pads of one land have in common: everything but identifiers and numbers. -/
def landSignature (nets : Dict (String × String) String) (pad : PhysicalPad) : String × PhysicalPad :=
  ((pad.netId.filter (· ≠ "")).getD ((nets (pad.componentId, pad.padNumber)).getD ""),
    { pad with padId := "", padNumber := "", netId := none })

/-- The shared lands whose pads are fewer than two, repeat a number or differ. -/
def landBlockers (board : BoardGraph) : List String :=
  let signature := landSignature (logicalPadNets board)
  (board.pads.filterMap (·.sharedLandGroupId)).dedup.flatMap fun group =>
    let pads := board.pads.filter (·.sharedLandGroupId = some group)
    blockedIf (pads.length < 2 ∨ ¬ (pads.map (·.padNumber)).Nodup ∨
      (pads.map signature).dedup.length ≠ 1) ("shared-land-group-mismatch:" ++ group)

/-- `_geometry_blockers` -/
def geometryBlockers (board : BoardGraph) : List String :=
  sortedSet ((board.unsupportedFeatures.filter fun feature =>
      geometryBlockerPrefixes.any fun start => start.toList.isPrefixOf feature.toList) ++
    (repeated (board.pads.map (·.padId))).map ("duplicate-physical-pad-id:" ++ ·) ++
    (repeated (board.holes.map (·.holeId))).map ("duplicate-hole-id:" ++ ·) ++
    board.pads.flatMap padBlockers ++ board.holes.flatMap holeBlockers ++ landBlockers board)

/-! ### Evaluators -/

/-- The geometry that evaluators are given, as far as the engine looks at it, which calls none of its
methods; `ω` is the state of everything live. -/
structure GeometryKernel (ω : Type) where
  kernelId : String
  version : String
  /-- `_implementation_identity`: the code and the state of the object -/
  identity : ω → Except VerifyError Json

structure RuleContext (ω : Type) where
  severity : Severity
  parameters : List ParameterValue
  geometry : GeometryKernel ω

/-- `context.integer` -/
def RuleContext.integer {ω : Type} (context : RuleContext ω) (name : String) : Except String Int :=
  match context.parameters.find? (·.name = name) with
  | none => .error ("KeyError: 'resolved rule parameter not found: " ++ name ++ "'")
  | some ⟨_, .integer n⟩ => .ok n
  | some _ => .error ("TypeError: rule parameter '" ++ name ++ "' is not an integer")

/-- A rule: what it declares, and code of its own, which may raise (the class and the text). -/
structure RuleEvaluator (ω : Type) where
  definition : RuleDefinition
  identity : ω → Except VerifyError Json
  evaluate : BoardGraph → RuleContext ω → ω → Except String (List FindingDraft) × ω

def RuleEvaluator.ruleId {ω : Type} (evaluator : RuleEvaluator ω) : String :=
  evaluator.definition.ruleId

structure ResolvedRule (ω : Type) where
  evaluator : RuleEvaluator ω
  enabled : Bool
  severity : Severity
  parameters : List ParameterValue

section Resolution

variable {ω : Type} [DecimalDigits] [UnicodeData]

def resolveRule (evaluator : RuleEvaluator ω) (override : Option RuleOverride) :
    Except VerifyError (ResolvedRule ω) := do
  let definition := evaluator.definition
  validateRuleDefinition definition
  let enabled := override.all (·.enabled)
  demand (definition.mandatory = true → enabled = true)
    ("mandatory rule cannot be disabled: " ++ definition.ruleId)
  let severity := (override.bind (·.severity)).getD definition.defaultSeverity
  demand (definition.mandatory = true → definition.defaultSeverity = .fatal → severity = .fatal)
    ("mandatory fatal rule cannot be severity-downgraded: " ++ definition.ruleId)
  let provided := override.elim [] (·.parameters)
  demand (provided.map (·.name)).Nodup ("duplicate override parameter for " ++ definition.ruleId)
  let names := definition.parameters.map (·.name)
  requireNone ("unknown parameters for " ++ definition.ruleId ++ ": ")
    ((provided.map (·.name)).filter (· ∉ names))
  let parameters ← (sortBy (·.name) definition.parameters).mapM fun spec => do
    let value := ((provided.find? (·.name = spec.name)).map (·.value)).getD spec.default
    validateParameter spec value definition.ruleId
    return ParameterValue.mk spec.name value
  return ⟨evaluator, enabled, severity, parameters⟩

/-- `VerificationEngine`, whose registry names no rule twice -/
structure VerificationEngine (ω : Type) where
  evaluators : List (RuleEvaluator ω)
  geometry : GeometryKernel ω
  /-- `_verification_code_bundle_hash()` -/
  codeBundleHash : String
  distinct : (evaluators.map RuleEvaluator.ruleId).Nodup

/-- `VerificationEngine.__init__`, of a given registry -/
def VerificationEngine.init (evaluators : List (RuleEvaluator ω)) (geometry : GeometryKernel ω)
    (codeBundleHash : String) (live : ω) : Except VerifyError (VerificationEngine ω) := do
  demand (Text.isBlank geometry.kernelId = false) "geometry kernel_id must be a non-empty string"
  demand (Text.isBlank geometry.version = false) "geometry version must be a non-empty string"
  let _ ← geometry.identity live
  let registry := sortBy RuleEvaluator.ruleId evaluators
  if distinct : (registry.map RuleEvaluator.ruleId).Nodup then do
    registry.forM fun evaluator => do
      validateRuleDefinition evaluator.definition
      let _ ← evaluator.identity live
    return ⟨registry, geometry, codeBundleHash, distinct⟩
  else
    .error (.configuration ("duplicate rule ids: " ++
      ", ".intercalate (sortedSet (repeated (registry.map RuleEvaluator.ruleId)))))

end Resolution

/-! ### Reports -/

structure Finding where
  findingId : String
  ruleId : String
  ruleVersion : String
  domain : RuleDomain
  severity : Severity
  message : String
  entities : List EntityRef
  evidence : List EvidenceItem
  evidenceHash : String
  deriving DecidableEq

inductive RuleExecutionOutcome where
  | pass | fail | notRun
  deriving DecidableEq

structure RuleExecution where
  ruleId : String
  ruleVersion : String
  enabled : Bool
  severity : Severity
  parameters : List ParameterValue
  findingIds : List String
  outcome : RuleExecutionOutcome
  blockerIds : List String
  deriving DecidableEq

structure GateDecision where
  gateId : String
  passed : Bool
  blockingFindingIds : List String
  blockingRuleIds : List String
  unavailableEvidenceIds : List String
  evidenceHash : String
  deriving DecidableEq

structure VerificationReport where
  runId : String
  inputHash : String
  ruleSetHash : String
  findings : List Finding
  executions : List RuleExecution
  gates : List GateDecision
  reportHash : String
  deriving DecidableEq

/-! ### The run -/

section Run

variable {ω : Type} [StableHash] [DecimalDigits] [UnicodeData]

/-- `finding_order_key` -/
def findingOrderKey (f : Finding) : Int ×ₗ String ×ₗ List (String ×ₗ String) ×ₗ String :=
  toLex (-f.severity.rank, toLex (f.ruleId,
    toLex (f.entities.map fun e => toLex (e.kind, e.entityId), f.findingId)))

/-- `_materialize_finding` -/
def materializeFinding (resolved : ResolvedRule ω) (draft : FindingDraft) :
    Except VerifyError Finding := do
  require (Text.isBlank draft.message = false)
    (.execution "evaluator finding message must be non-empty")
  let evidence ← sortedItems
    (fun item : EvidenceItem => toLex (item.name, item.value.key)) draft.evidence
  let entities := sortBy (fun e : EntityRef => toLex (e.kind, e.entityId)) draft.entities.dedup
  let definition := resolved.evaluator.definition
  let evidenceHash := stableHash "pcb-finding-evidence-v1"
    (definition.ruleId, definition.version, entities, evidence)
  let identity : String := stableHash "pcb-finding-identity-v1"
    (definition.ruleId, definition.version, entities, evidenceHash)
  return { findingId := "FND-" ++ String.ofList (identity.toList.take 24)
           ruleId := definition.ruleId, ruleVersion := definition.version
           domain := definition.domain, severity := resolved.severity
           message := draft.message, entities, evidence, evidenceHash }

/-- The findings of the board and those of the rule, with one draft more; another finding with
its identifier is a collision. -/
def addFinding (resolved : ResolvedRule ω) (findings : List Finding × List Finding)
    (draft : FindingDraft) : Except VerifyError (List Finding × List Finding) := do
  let finding ← materializeFinding resolved draft
  match findings.1.find? (·.findingId = finding.findingId) with
  | none => return (findings.1 ++ [finding], findings.2 ++ [finding])
  | some previous => do
      require (previous = finding)
        (.execution ("finding identity collision in " ++ resolved.evaluator.ruleId))
      return (findings.1, findings.2 ++ [finding])

/-- `_assert_implementation_identity` -/
def assertIdentity (label : String) (identity : ω → Except VerifyError Json) (expected : Json)
    (live : ω) : Except VerifyError Unit := do
  let current ← identity live
  require (stableHash "pcb-live-implementation-identity-v1" current =
      stableHash "pcb-live-implementation-identity-v1" expected)
    (.execution (label ++ " implementation identity drifted during run"))

/-- A resolved rule with the identity its evaluator had at the start. -/
structure PlannedRule (ω : Type) extends ResolvedRule ω where
  implementation : Json

def PlannedRule.ruleId (rule : PlannedRule ω) : String := rule.evaluator.ruleId

/-- What is fixed before the first rule runs. -/
structure Plan (ω : Type) where
  board : BoardGraph
  gates : List GateDefinition
  geometry : GeometryKernel ω
  geometryImplementation : Json
  rules : List (PlannedRule ω)
  inputHash : String
  ruleSetHash : String
  runId : String

/-- The blockers of a rule on a board; only a rule on exact shapes has any. -/
def PlannedRule.blockers (rule : PlannedRule ω) (board : BoardGraph) : List String :=
  if rule.ruleId ∈ shapeDependentRuleIds then geometryBlockers board else []

/-- The rule is switched on and nothing blocks it. -/
def PlannedRule.Runs (rule : PlannedRule ω) (board : BoardGraph) : Prop :=
  rule.enabled = true ∧ rule.blockers board = []

instance (rule : PlannedRule ω) (board : BoardGraph) : Decidable (rule.Runs board) :=
  inferInstanceAs (Decidable (_ ∧ _))

/-- `RuleExecution(...)`, of the findings of a rule that ran -/
def PlannedRule.execution (rule : PlannedRule ω) (board : BoardGraph)
    (findings : Option (List Finding)) : RuleExecution where
  ruleId := rule.ruleId
  ruleVersion := rule.evaluator.definition.version
  enabled := rule.enabled
  severity := rule.severity
  parameters := rule.parameters
  findingIds := sortedSet ((findings.getD []).map (·.findingId))
  outcome := match findings with
    | none => .notRun
    | some [] => .pass
    | some _ => .fail
  blockerIds := rule.blockers board

structure RunState (ω : Type) where
  findings : List Finding
  executions : List RuleExecution
  live : ω

/-- The geometry and the evaluator are still the ones of the start. -/
def Plan.assertUnchanged (plan : Plan ω) (rule : PlannedRule ω) (live : ω) :
    Except VerifyError Unit := do
  assertIdentity "geometry kernel" plan.geometry.identity plan.geometryImplementation live
  assertIdentity ("rule " ++ rule.ruleId) rule.evaluator.identity rule.implementation live

/-- One round of the loop over the rules -/
def Plan.runRule (plan : Plan ω) (state : RunState ω) (rule : PlannedRule ω) :
    Except VerifyError (RunState ω) := do
  plan.assertUnchanged rule state.live
  if rule.Runs plan.board then
    let outcome := rule.evaluator.evaluate plan.board
      ⟨rule.severity, rule.parameters, plan.geometry⟩ state.live
    let drafts ← outcome.1.mapError fun text =>
      .execution ("rule " ++ rule.ruleId ++ " failed closed: " ++ text)
    let added ← drafts.foldlM (addFinding rule.toResolvedRule) (state.findings, [])
    plan.assertUnchanged rule outcome.2
    return ⟨added.1, state.executions ++ [rule.execution plan.board (some added.2)], outcome.2⟩
  else
    return { state with executions := state.executions ++ [rule.execution plan.board none] }

/-- `_evaluate_gates`, for one gate -/
def Plan.decide (plan : Plan ω) (findings : List Finding) (executions : List RuleExecution)
    (gate : GateDefinition) : GateDecision :=
  let selects := fun ruleId =>
    plan.rules.any fun rule => rule.ruleId = ruleId && gateSelects gate rule.evaluator.definition
  let blocking := findings.filter fun f =>
    gate.blockAtOrAbove.rank ≤ f.severity.rank && selects f.ruleId
  let blockingIds := sortBy id (blocking.map (·.findingId))
  let blockingRuleIds := sortBy id ((executions.filter fun execution =>
    execution.outcome = .notRun && selects execution.ruleId).map (·.ruleId))
  let unavailable := gate.requiredExternalEvidenceIds
  { gateId := gate.gateId
    passed := blockingIds.isEmpty && blockingRuleIds.isEmpty && unavailable.isEmpty
    blockingFindingIds := blockingIds
    blockingRuleIds
    unavailableEvidenceIds := unavailable
    evidenceHash := stableHash "pcb-policy-gate-v1" (gate, plan.inputHash, plan.ruleSetHash,
      blocking.map (fun f => (f.findingId, f.evidenceHash)), blockingRuleIds, unavailable) }

/-- `VerificationReport(...)`, of what the rules left -/
def Plan.report (plan : Plan ω) (state : RunState ω) : VerificationReport :=
  let findings := sortBy findingOrderKey state.findings
  let gates := sortBy (·.gateId) (plan.gates.map (plan.decide findings state.executions))
  { runId := plan.runId, inputHash := plan.inputHash, ruleSetHash := plan.ruleSetHash
    findings, executions := state.executions, gates
    reportHash := stableHash "pcb-verification-report-v3" (reportSchemaVersion, engineVersion,
      plan.runId, plan.inputHash, plan.ruleSetHash, findings, state.executions, gates) }

/-- `verify`, up to the loop -/
def VerificationEngine.plan (engine : VerificationEngine ω) (board : BoardGraph)
    (policy : Option VerificationPolicy) (live : ω) : Except VerifyError (Plan ω) := do
  validateBoardGraph board
  require (board.schemaVersion = boardSchemaVersion) (.input ("unsupported board schema " ++
    toString board.schemaVersion ++ "; expected " ++ toString boardSchemaVersion))
  let source := policy.getD strictPolicy
  validatePolicyShape source
  let policy ← source.normalized
  validatePolicy (engine.evaluators.map (·.definition)) policy
  let resolved ← engine.evaluators.mapM fun evaluator =>
    resolveRule evaluator (policy.overrides.find? (·.ruleId = evaluator.ruleId))
  let inputHash := stableHash "pcb-board-graph-v2" board.normalized
  let geometryImplementation ← engine.geometry.identity live
  let rules ← resolved.mapM fun rule => do
    return PlannedRule.mk rule (← rule.evaluator.identity live)
  let ruleSetHash := stableHash "pcb-rule-set-v2" (engineVersion, engine.codeBundleHash,
    (engine.geometry.kernelId, engine.geometry.version, geometryImplementation),
    rules.map (fun rule => (rule.evaluator.definition, rule.implementation, rule.enabled,
      rule.severity, rule.parameters)), policy.gates)
  let run : String := stableHash "pcb-verification-run-v2" (inputHash, ruleSetHash)
  return { board := board.normalized, gates := policy.gates, geometry := engine.geometry
           geometryImplementation, rules, inputHash, ruleSetHash
           runId := "RUN-" ++ String.ofList (run.toList.take 24) }

/-- The loop over the rules, and that nothing has drifted at its end -/
def Plan.run (plan : Plan ω) (live : ω) : Except VerifyError (RunState ω) := do
  let state ← plan.rules.foldlM plan.runRule ⟨[], [], live⟩
  assertIdentity "geometry kernel" plan.geometry.identity plan.geometryImplementation state.live
  plan.rules.forM fun rule =>
    assertIdentity ("rule " ++ rule.ruleId) rule.evaluator.identity rule.implementation state.live
  return state

/-- `VerificationEngine.verify` -/
def VerificationEngine.verify (engine : VerificationEngine ω) (board : BoardGraph)
    (policy : Option VerificationPolicy) (live : ω) :
    Except VerifyError (VerificationReport × ω) := do
  let plan ← engine.plan board policy live
  let state ← plan.run live
  return (plan.report state, state.live)

end Run

end Evleda.Verification
