/-
The documents of the project store.

A record is stored as the canonical JSON text of an envelope with its kind, its
payload and a version.  Reading one back is strict: the text has to be the
canonical text of what it denotes, every object has exactly the expected keys,
every value the expected type, and every record is built by its own constructor.
The labels in the messages follow the path to the value.

Each decoder reads the fields in the source's order.  Where the source turns a
value error into an integrity error, `refusing` does.
-/
import Evleda.Lib.Reader
import Evleda.ProjectStore.Models

namespace Evleda.ProjectStore

open Kernel

/-- The members of a JSON object. -/
abbrev Members := List (String × Json)

/-! ### Expectations on values -/

def expectObject (value : Json) (label : String) : Except StoreFailure Members :=
  match value with
  | .obj members => .ok members
  | _ => .error (integrity (label ++ " must be an object"))

/-- Names in order, joined by commas, or "none". -/
def namesOrNone (names : List String) : String :=
  if names = [] then "none" else ",".intercalate (sortBy id names)

def expectKeys (value : Members) (expected : List String) (label : String) :
    Except StoreFailure Unit :=
  let actual := value.map Prod.fst
  require (∀ key ∈ actual ++ expected, key ∈ actual ∧ key ∈ expected)
    (integrity (label ++ " fields differ (missing=" ++
      namesOrNone (expected.filter (· ∉ actual)) ++ "; unknown=" ++
      namesOrNone (actual.filter (· ∉ expected)) ++ ")"))

def expectList (value : Json) (label : String) : Except StoreFailure (List Json) :=
  match value with
  | .arr items => .ok items
  | _ => .error (integrity (label ++ " must be an array"))

def expectStr (value : Json) (label : String) : Except StoreFailure String :=
  match value with
  | .str text => .ok text
  | _ => .error (integrity (label ++ " must be text"))

def expectOptionalStr (value : Json) (label : String) : Except StoreFailure (Option String) :=
  match value with
  | .null => .ok none
  | .str text => .ok (some text)
  | _ => .error (integrity (label ++ " must be text or null"))

def expectInt (value : Json) (label : String) : Except StoreFailure Int :=
  match value with
  | .int n => .ok n
  | _ => .error (integrity (label ++ " must be an integer"))

def expectBool (value : Json) (label : String) : Except StoreFailure Bool :=
  match value with
  | .bool b => .ok b
  | _ => .error (integrity (label ++ " must be a boolean"))

/-- `value[key]` -/
def member (value : Members) (key : String) : Except StoreFailure Json :=
  match Json.get? value key with
  | some found => .ok found
  | none => .error ⟨.kernel .keyError, key⟩

/-- The member under a key, read with the path to it as its label. -/
def field {α : Type} (read : Json → String → Except StoreFailure α) (value : Members)
    (label key : String) : Except StoreFailure α := do
  read (← member value key) (label ++ "." ++ key)

abbrev strField := field expectStr

abbrev optionalStrField := field expectOptionalStr

abbrev intField := field expectInt

abbrev boolField := field expectBool

def strings (value : Json) (label : String) : Except StoreFailure (List String) := do
  (← expectList value label).mapM (expectStr · (label ++ " item"))

/-- The elements of an array, each read with its index as its label. -/
def entries {α : Type} (read : Json → String → Except StoreFailure α) (value : Json)
    (label : String) : Except StoreFailure (List α) := do
  let items ← expectList value label
  items.zipIdx.mapM fun (item, index) => read item (label ++ "[" ++ toString index ++ "]")

def objects {α : Type} (decoder : Members → String → Except StoreFailure α) (value : Json)
    (label : String) : Except StoreFailure (List α) :=
  entries (fun item label => do decoder (← expectObject item label) label) value label

def point (value : Json) (label : String) : Except StoreFailure PointNm := do
  let obj ← expectObject value label
  expectKeys obj ["x", "y"] label
  let x ← intField obj label "x"
  let y ← intField obj label "y"
  fromKernel (PointNm.make x y)

/-- The member of an enumeration that has a value. -/
def enumOf {α : Type} (all : List α) (value : α → String) (text : String) : Option α :=
  all.find? (fun a => value a == text)

/-! ### Records of the design graph -/

section Records

variable [UnicodeData] [Hashing]

/-- Build a record whose constructor only makes checks. -/
def construct {α : Type} {postInit : α → Except Failure α} (hchecks : OnlyChecks postInit) (a : α) :
    Except StoreFailure (Checked postInit) :=
  fromKernel (Checked.make hchecks.stable a)

def pinDefinition (value : Members) (label : String) :
    Except StoreFailure (Checked PinDefinition.postInit) := do
  expectKeys value ["number", "name", "electrical_type", "pad_number", "required"] label
  let number ← strField value label "number"
  let name ← strField value label "name"
  let electricalType ← strField value label "electrical_type"
  let padNumber ← strField value label "pad_number"
  let required ← boolField value label "required"
  construct (checking_onlyChecks _) ⟨number, name, electricalType, padNumber, required⟩

def pinRef (value : Members) (label : String) :
    Except StoreFailure (Checked PinRef.postInit) := do
  expectKeys value ["component_id", "pin_number"] label
  let componentId ← strField value label "component_id"
  let pinNumber ← strField value label "pin_number"
  construct (checking_onlyChecks _) ⟨componentId, pinNumber⟩

def component (value : Members) (label : String) :
    Except StoreFailure (Checked Component.postInit) := do
  expectKeys value ["component_id", "reference", "value", "manufacturer_part_number", "package",
    "symbol_id", "footprint_id", "datasheet_sha256", "pin_map_sha256", "pins"] label
  let componentId ← strField value label "component_id"
  let reference ← strField value label "reference"
  let part ← strField value label "value"
  let manufacturerPartNumber ← strField value label "manufacturer_part_number"
  let package ← strField value label "package"
  let symbolId ← strField value label "symbol_id"
  let footprintId ← strField value label "footprint_id"
  let datasheetSha256 ← strField value label "datasheet_sha256"
  let pinMapSha256 ← strField value label "pin_map_sha256"
  let pins ← field (objects pinDefinition) value label "pins"
  construct (checking_onlyChecks _) ⟨componentId, reference, part, manufacturerPartNumber,
    package, symbolId, footprintId, datasheetSha256, pinMapSha256, pins⟩

def net (value : Members) (label : String) : Except StoreFailure (Checked Net.postInit) := do
  expectKeys value ["net_id", "name", "members"] label
  let netId ← strField value label "net_id"
  let name ← strField value label "name"
  let members ← field (objects pinRef) value label "members"
  construct (checking_onlyChecks _) ⟨netId, name, members⟩

def placement (value : Members) (label : String) :
    Except StoreFailure (Checked FootprintPlacement.postInit) := do
  expectKeys value ["component_id", "position", "rotation_udeg", "side", "locked"] label
  let componentId ← strField value label "component_id"
  let position ← field point value label "position"
  let rotationUdeg ← intField value label "rotation_udeg"
  let side ← strField value label "side"
  let locked ← boolField value label "locked"
  construct (checking_onlyChecks _) ⟨componentId, position, rotationUdeg, side, locked⟩

def track (value : Members) (label : String) : Except StoreFailure (Checked Track.postInit) := do
  expectKeys value ["track_id", "net_id", "layer", "start", "end", "width_nm", "locked"] label
  let trackId ← strField value label "track_id"
  let netId ← strField value label "net_id"
  let layer ← strField value label "layer"
  let start ← field point value label "start"
  let stop ← field point value label "end"
  let width ← intField value label "width_nm"
  let locked ← boolField value label "locked"
  construct (checking_onlyChecks _) ⟨trackId, netId, layer, start, stop, width, locked⟩

def pad (value : Members) (label : String) :
    Except StoreFailure (Checked FootprintPad.postInit) := do
  expectKeys value ["pad_id", "component_id", "pad_number", "center", "size_x_nm", "size_y_nm",
    "shape", "rotation_udeg", "layers", "pad_drill_nm", "net_id", "locked", "drill_x_nm",
    "drill_y_nm", "drill_rotation_udeg", "shared_land_group_id"] label
  let padId ← strField value label "pad_id"
  let componentId ← strField value label "component_id"
  let padNumber ← strField value label "pad_number"
  let center ← field point value label "center"
  let sizeX ← intField value label "size_x_nm"
  let sizeY ← intField value label "size_y_nm"
  let shape ← strField value label "shape"
  let rotationUdeg ← intField value label "rotation_udeg"
  let layers ← field strings value label "layers"
  let padDrill ← intField value label "pad_drill_nm"
  let netId ← optionalStrField value label "net_id"
  let locked ← boolField value label "locked"
  let drillX ← intField value label "drill_x_nm"
  let drillY ← intField value label "drill_y_nm"
  let drillRotationUdeg ← intField value label "drill_rotation_udeg"
  let sharedLandGroupId ← optionalStrField value label "shared_land_group_id"
  fromKernel (Checked.make FootprintPad.postInit_stable ⟨padId, componentId, padNumber, center,
    sizeX, sizeY, shape, rotationUdeg, layers, padDrill, netId, locked, drillX, drillY,
    drillRotationUdeg, sharedLandGroupId⟩)

def hole (value : Members) (label : String) :
    Except StoreFailure (Checked FootprintHole.postInit) := do
  expectKeys value ["hole_id", "component_id", "center", "diameter_nm", "plated", "pad_id",
    "locked", "drill_x_nm", "drill_y_nm", "drill_rotation_udeg"] label
  let holeId ← strField value label "hole_id"
  let componentId ← strField value label "component_id"
  let center ← field point value label "center"
  let diameter ← intField value label "diameter_nm"
  let plated ← boolField value label "plated"
  let padId ← optionalStrField value label "pad_id"
  let locked ← boolField value label "locked"
  let drillX ← intField value label "drill_x_nm"
  let drillY ← intField value label "drill_y_nm"
  let drillRotationUdeg ← intField value label "drill_rotation_udeg"
  fromKernel (Checked.make FootprintHole.postInit_stable ⟨holeId, componentId, center, diameter,
    plated, padId, locked, drillX, drillY, drillRotationUdeg⟩)

def via (value : Members) (label : String) : Except StoreFailure (Checked Via.postInit) := do
  expectKeys value ["via_id", "net_id", "center", "diameter_nm", "drill_nm", "layers", "locked"]
    label
  let viaId ← strField value label "via_id"
  let netId ← strField value label "net_id"
  let center ← field point value label "center"
  let diameter ← intField value label "diameter_nm"
  let drill ← intField value label "drill_nm"
  let layers ← field strings value label "layers"
  let locked ← boolField value label "locked"
  construct (checking_onlyChecks _) ⟨viaId, netId, center, diameter, drill, layers, locked⟩

def fillEvidence (value : Members) (label : String) :
    Except StoreFailure (Checked ZoneFillEvidence.postInit) := do
  expectKeys value ["source_graph_hash", "source_revision", "fill_engine_id",
    "fill_engine_revision", "filled_geometry_hash", "evidence_hash"] label
  let sourceGraphHash ← strField value label "source_graph_hash"
  let sourceRevision ← strField value label "source_revision"
  let fillEngineId ← strField value label "fill_engine_id"
  let fillEngineRevision ← strField value label "fill_engine_revision"
  let filledGeometryHash ← strField value label "filled_geometry_hash"
  let evidenceHash ← strField value label "evidence_hash"
  construct (checking_onlyChecks _) ⟨sourceGraphHash, sourceRevision, fillEngineId,
    fillEngineRevision, filledGeometryHash, evidenceHash⟩

def optionalFillEvidence (value : Json) (label : String) :
    Except StoreFailure (Option (Checked ZoneFillEvidence.postInit)) :=
  match value with
  | .null => .ok none
  | value => do return some (← fillEvidence (← expectObject value label) label)

def zoneFillStates : List ZoneFillState := [.unfilledIntent, .verifiedFilled]

def fillState (value : Json) (label : String) : Except StoreFailure ZoneFillState := do
  let text ← expectStr value label
  match enumOf zoneFillStates ZoneFillState.value text with
  | some state => return state
  | none => .error (integrity (label ++ " is not a supported zone fill state"))

def zone (value : Members) (label : String) :
    Except StoreFailure (Checked CopperZone.postInit) := do
  expectKeys value ["zone_id", "net_id", "layer", "outline", "clearance_nm", "min_thickness_nm",
    "priority", "locked", "fill_state", "fill_evidence"] label
  let evidence ← field optionalFillEvidence value label "fill_evidence"
  let state ← field fillState value label "fill_state"
  let zoneId ← strField value label "zone_id"
  let netId ← strField value label "net_id"
  let layer ← strField value label "layer"
  let outline ← field (entries point) value label "outline"
  let clearance ← intField value label "clearance_nm"
  let minThickness ← intField value label "min_thickness_nm"
  let priority ← intField value label "priority"
  let locked ← boolField value label "locked"
  construct (checking_onlyChecks _) ⟨zoneId, netId, layer, outline, clearance, minThickness,
    priority, locked, state, evidence⟩

def wire (value : Members) (label : String) :
    Except StoreFailure (Checked SchematicWire.postInit) := do
  expectKeys value ["wire_id", "net_id", "vertices", "sheet_id", "locked"] label
  let wireId ← strField value label "wire_id"
  let netId ← strField value label "net_id"
  let vertices ← field (entries point) value label "vertices"
  let sheetId ← strField value label "sheet_id"
  let locked ← boolField value label "locked"
  construct (checking_onlyChecks _) ⟨wireId, netId, vertices, sheetId, locked⟩

def junction (value : Members) (label : String) :
    Except StoreFailure (Checked SchematicJunction.postInit) := do
  expectKeys value ["junction_id", "net_id", "position", "sheet_id", "locked"] label
  let junctionId ← strField value label "junction_id"
  let netId ← strField value label "net_id"
  let position ← field point value label "position"
  let sheetId ← strField value label "sheet_id"
  let locked ← boolField value label "locked"
  construct (checking_onlyChecks _) ⟨junctionId, netId, position, sheetId, locked⟩

/-! ### The graph -/

def graphFields : List String :=
  ["schema_version", "project_id", "layers", "board_outline", "components", "nets", "placements",
    "tracks", "pads", "holes", "vias", "zones", "schematic_wires", "schematic_junctions"]

def graphPayload (graph : DesignGraph) : Except StoreFailure Json := do
  let normalized ← fromKernel graph.normalized
  fromKernel (validateGraph normalized)
  require (normalized = graph)
    (integrity "only normalized DesignGraph values may cross the durable boundary")
  return normalized.toJson

/-- The graph of an object's fields, before it is checked. -/
def graphOf (obj : Members) : Except StoreFailure DesignGraph := do
  let label := "DesignGraph"
  let schemaVersion ← intField obj label "schema_version"
  let projectId ← strField obj label "project_id"
  let layers ← field strings obj label "layers"
  let boardOutline ← field (entries point) obj label "board_outline"
  let components ← field (objects component) obj label "components"
  let nets ← field (objects net) obj label "nets"
  let placements ← field (objects placement) obj label "placements"
  let tracks ← field (objects track) obj label "tracks"
  let pads ← field (objects pad) obj label "pads"
  let holes ← field (objects hole) obj label "holes"
  let vias ← field (objects via) obj label "vias"
  let zones ← field (objects zone) obj label "zones"
  let schematicWires ← field (objects wire) obj label "schematic_wires"
  let schematicJunctions ← field (objects junction) obj label "schematic_junctions"
  match h : headerChecks schemaVersion projectId layers with
  | .ok () =>
      return ⟨schemaVersion, projectId, layers, boardOutline, components, nets, placements,
        tracks, pads, holes, vias, zones, schematicWires, schematicJunctions, h⟩
  | .error e => fromKernel (.error e)

def graphFromPayload (value : Json) : Except StoreFailure DesignGraph := do
  let obj ← expectObject value "DesignGraph"
  expectKeys obj graphFields "DesignGraph"
  let graph ← refusing "stored DesignGraph violates canonical invariants" do
    let graph ← graphOf obj
    fromKernel (validateGraph graph)
    return graph
  require ((← fromKernel graph.normalized) = graph)
    (integrity "stored DesignGraph is not normalized")
  return graph

/-! ### Commands, revisions and transactions -/

def commandKinds : List CommandKind :=
  [.componentAdd, .componentRemove, .netCreate, .netConnect, .footprintPlace, .footprintPadAdd,
    .footprintPadGroupAdd, .footprintHoleAdd, .trackAdd, .viaAdd, .zoneAdd, .schematicWireAdd,
    .schematicJunctionAdd, .boardSetOutline]

/-- A member of an enumeration, given by its value. -/
def enumMember {α : Type} (all : List α) (value : α → String) (name : String) (text : String) :
    Except StoreFailure α :=
  match enumOf all value text with
  | some a => .ok a
  | none => .error (valueError (text ++ " is not a valid " ++ name))

/-- The object that the text of a command's payload denotes, if it is its canonical text. -/
def payloadOf (text : String) : Except Failure Payload :=
  match Json.loads text with
  | none => .error (violation "command payload must be valid JSON")
  | some value =>
      match value with
      | .obj members =>
          if value.dumps = text then .ok members
          else .error (violation "command payload must be a canonical JSON object")
      | _ => .error (violation "command payload must be a canonical JSON object")

def commandPayload (command : Command) : Json :=
  Json.object [("actor", .str command.val.actor), ("base_revision", .str command.val.baseRevision),
    ("command_hash", .str command.val.commandHash), ("command_id", .str command.val.commandId),
    ("idempotency_key", .str command.val.idempotencyKey), ("kind", .str command.val.kind.value),
    ("payload_json", .str command.val.payloadJson),
    ("transaction_id", .str command.val.transactionId)]

def command (value : Members) (label : String) : Except StoreFailure Command := do
  expectKeys value ["actor", "base_revision", "command_hash", "command_id", "idempotency_key",
    "kind", "payload_json", "transaction_id"] label
  let command ← refusing (label ++ " is invalid") do
    let commandId ← strField value label "command_id"
    let baseRevision ← strField value label "base_revision"
    let transactionId ← strField value label "transaction_id"
    let actor ← strField value label "actor"
    let kind ← enumMember commandKinds CommandKind.value "CommandKind"
      (← strField value label "kind")
    let payloadJson ← strField value label "payload_json"
    let idempotencyKey ← strField value label "idempotency_key"
    let payload ← fromKernel (payloadOf payloadJson)
    construct (checking_onlyChecks DesignCommand.checks) ⟨commandId, baseRevision, transactionId,
      actor, kind, payload, idempotencyKey⟩
  require (command.val.commandHash = (← strField value label "command_hash"))
    (integrity (label ++ " hash mismatch"))
  return command

def revisionHashFor (revision : DesignRevision) : String :=
  stableHash revisionDomain
    (if revision.sequence = 0 then
      Json.object [("parent", .null), ("sequence", .int 0), ("graph_hash", .str revision.graphHash)]
    else
      Json.object [("parent", optionalJson .str revision.parentRevision),
        ("sequence", .int revision.sequence), ("graph_hash", .str revision.graphHash),
        ("commands", textsJson revision.commandHashes),
        ("verification_report_hash", optionalJson .str revision.verificationReportHash),
        ("approval_preview_digest", optionalJson .str revision.approvalPreviewDigest)])

/-- The payload of a revision, given the one of its graph. -/
def revisionJson (revision : DesignRevision) (graph : Json) : Json :=
  Json.object [
    ("approval_preview_digest", optionalJson .str revision.approvalPreviewDigest),
    ("command_hashes", textsJson revision.commandHashes), ("graph", graph),
    ("graph_hash", .str revision.graphHash),
    ("parent_revision", optionalJson .str revision.parentRevision),
    ("revision_hash", .str revision.revisionHash), ("sequence", .int revision.sequence),
    ("verification_report_hash", optionalJson .str revision.verificationReportHash)]

def revisionPayload (revision : Revision) : Except StoreFailure Json := do
  return revisionJson revision.val (← graphPayload revision.val.graph)

/-- A revision number. -/
def sequenceOf (n : Int) : Except Failure Nat :=
  if n < 0 then .error (violation "revision sequence must be a non-negative integer")
  else .ok n.toNat

def revisionFromPayload (value : Json) : Except StoreFailure Revision := do
  let label := "DesignRevision"
  let obj ← expectObject value label
  expectKeys obj ["approval_preview_digest", "command_hashes", "graph", "graph_hash",
    "parent_revision", "revision_hash", "sequence", "verification_report_hash"] label
  let revision ← refusing "stored DesignRevision violates canonical invariants" do
    let revisionHash ← strField obj label "revision_hash"
    let parentRevision ← optionalStrField obj label "parent_revision"
    let sequence ← intField obj label "sequence"
    let graph ← field (fun value _ => graphFromPayload value) obj label "graph"
    let graphHash ← strField obj label "graph_hash"
    let commandHashes ← field strings obj label "command_hashes"
    let verificationReportHash ← optionalStrField obj label "verification_report_hash"
    let approvalPreviewDigest ← optionalStrField obj label "approval_preview_digest"
    let sequence ← fromKernel (sequenceOf sequence)
    construct DesignRevision.onlyChecks ⟨revisionHash, parentRevision, sequence,
      graph, graphHash, commandHashes, verificationReportHash, approvalPreviewDigest⟩
  require (revision.val.revisionHash = revisionHashFor revision.val)
    (integrity "revision hash does not match its canonical contents")
  return revision

def transactionStates : List TransactionState := [.opened, .verified, .committed, .rolledBack]

def stateValue : TransactionState → String
  | .opened => "open"
  | .verified => "verified"
  | .committed => "committed"
  | .rolledBack => "rolled_back"

/-- The payload of a transaction, given the one of its staged graph. -/
def transactionJson (transaction : DesignTransaction) (graph : Json) : Json :=
  Json.object [("base_revision", .str transaction.baseRevision),
    ("commands", .arr (transaction.commands.map commandPayload)),
    ("commit_gate_passed", .bool transaction.commitGatePassed),
    ("committed_revision_hash", optionalJson .str transaction.committedRevisionHash),
    ("preview_digest", .str transaction.previewDigest), ("staged_graph", graph),
    ("state", .str (stateValue transaction.state)),
    ("transaction_id", .str transaction.transactionId),
    ("verification_preview_digest", optionalJson .str transaction.verificationPreviewDigest),
    ("verification_report_hash", optionalJson .str transaction.verificationReportHash)]

def transactionPayload (transaction : Transaction) : Except StoreFailure Json := do
  return transactionJson transaction.val (← graphPayload transaction.val.stagedGraph)

def transactionFromPayload (value : Json) : Except StoreFailure Transaction := do
  let label := "DesignTransaction"
  let obj ← expectObject value label
  expectKeys obj ["base_revision", "commands", "commit_gate_passed", "committed_revision_hash",
    "preview_digest", "staged_graph", "state", "transaction_id", "verification_preview_digest",
    "verification_report_hash"] label
  refusing "stored DesignTransaction is invalid" do
    let transactionId ← strField obj label "transaction_id"
    let baseRevision ← strField obj label "base_revision"
    let stagedGraph ← field (fun value _ => graphFromPayload value) obj label "staged_graph"
    let commands ← field (objects command) obj label "commands"
    let state ← enumMember transactionStates stateValue "TransactionState"
      (← strField obj label "state")
    let verificationReportHash ← optionalStrField obj label "verification_report_hash"
    let commitGatePassed ← boolField obj label "commit_gate_passed"
    let previewDigest ← strField obj label "preview_digest"
    let verificationPreviewDigest ← optionalStrField obj label "verification_preview_digest"
    let committedRevisionHash ← optionalStrField obj label "committed_revision_hash"
    construct (checking_onlyChecks DesignTransaction.checks) ⟨transactionId, baseRevision,
      stagedGraph, commands, state, verificationReportHash, commitGatePassed, previewDigest,
      verificationPreviewDigest, committedRevisionHash⟩

/-! ### Approvals and attestations -/

/-- The text of a moment, the offset of UTC written as `Z`. -/
def canonicalTimeText (time : DateTime) : String := time.isoformat ++ "Z"

/-- The moment of a text that ends in `Z`. -/
def parseTime (timestamp : String) : Option DateTime :=
  DateTime.fromisoformat (String.ofList timestamp.toList.dropLast ++ "+00:00")

/-- The moment of a text that ends in `Z`, or a value error. -/
def parsedTime (timestamp : String) : Except StoreFailure DateTime :=
  match parseTime timestamp with
  | some time => .ok time
  | none => .error (valueError ("Invalid isoformat string: " ++ timestamp))

def decodeCanonicalTime (value : Json) (label : String) : Except StoreFailure DateTime := do
  let timestamp ← expectStr value label
  require (timestamp.toList.getLast? = some 'Z')
    (integrity (label ++ " must use canonical UTC Z form"))
  match parseTime timestamp with
  | none => .error (integrity (label ++ " is not a valid timestamp"))
  | some parsed => do
      require (canonicalTimeText parsed = timestamp)
        (integrity (label ++ " is not in canonical form"))
      return parsed

def decodeOptionalTime (value : Json) (label : String) :
    Except StoreFailure (Option DateTime) :=
  match value with
  | .null => .ok none
  | value => do return some (← decodeCanonicalTime value label)

def approvalPayload (approval : Approval) : Json :=
  let a := approval.val
  Json.object [("actor", .str a.actor), ("approval_id", .str a.approvalId),
    ("approval_digest", .str a.approvalDigest),
    ("decided_at", .str (canonicalTimeText a.decidedAt)), ("decision", .str a.decision.value),
    ("preview_digest", .str a.previewDigest), ("reason", optionalJson .str a.reason),
    ("release_subject_digest", .str a.releaseSubjectDigest),
    ("transaction_id", .str a.transactionId),
    ("verification_report_hash", .str a.verificationReportHash)]

def approvalDecisions : List ApprovalDecision := [.approved, .rejected]

/-- Build a record of the store. -/
def constructStored {α : Type} (checks : α → Except StoreFailure Unit) (a : α) :
    Except StoreFailure (Checked (checking checks)) :=
  Checked.make (checking_onlyChecks checks).stable a

def approvalFromPayload (value : Json) : Except StoreFailure Approval := do
  let label := "ApprovalEvidence"
  let obj ← expectObject value label
  expectKeys obj ["actor", "approval_id", "approval_digest", "decided_at", "decision",
    "preview_digest", "reason", "release_subject_digest", "transaction_id",
    "verification_report_hash"] label
  let timestamp ← strField obj label "decided_at"
  require (timestamp.toList.getLast? = some 'Z')
    (integrity "approval time must use canonical UTC Z form")
  let approval ← refusing "stored ApprovalEvidence is invalid" do
    let decidedAt ← parsedTime timestamp
    let decision ← enumMember approvalDecisions ApprovalDecision.value "ApprovalDecision"
      (← strField obj label "decision")
    let approvalId ← strField obj label "approval_id"
    let approvalDigest ← strField obj label "approval_digest"
    let transactionId ← strField obj label "transaction_id"
    let previewDigest ← strField obj label "preview_digest"
    let releaseSubjectDigest ← strField obj label "release_subject_digest"
    let verificationReportHash ← strField obj label "verification_report_hash"
    let actor ← strField obj label "actor"
    let reason ← optionalStrField obj label "reason"
    constructStored ApprovalEvidence.checks ⟨approvalId, approvalDigest, transactionId,
      previewDigest, releaseSubjectDigest, verificationReportHash, decision, actor, decidedAt,
      reason⟩
  require (canonicalTimeText approval.val.decidedAt = timestamp)
    (integrity "approval time is not in canonical form")
  return approval

def attestationPayload (attestation : Attestation) : Json :=
  let a := attestation.val
  Json.object [("algorithm", .str a.algorithm),
    ("approval_decided_at", .str (canonicalTimeText a.approvalDecidedAt)),
    ("approval_digest", .str a.approvalDigest),
    ("approval_expires_at",
      optionalJson (fun time => .str (canonicalTimeText time)) a.approvalExpiresAt),
    ("approval_id", .str a.approvalId), ("approval_kind", .str a.approvalKind),
    ("approval_principal", .str a.approvalPrincipal), ("approval_run_id", .str a.approvalRunId),
    ("attestation_key_id", .str a.attestationKeyId),
    ("authorization_consumed_at", .str (canonicalTimeText a.authorizationConsumedAt)),
    ("authorization_digest", .str a.authorizationDigest),
    ("authorization_expires_at", .str (canonicalTimeText a.authorizationExpiresAt)),
    ("authorization_id", .str a.authorizationId),
    ("authorization_issued_at", .str (canonicalTimeText a.authorizationIssuedAt)),
    ("authorization_key_id", .str a.authorizationKeyId),
    ("authorization_nonce", .str a.authorizationNonce), ("base_revision", .str a.baseRevision),
    ("command_hashes", textsJson a.commandHashes),
    ("command_hashes_digest", .str a.commandHashesDigest),
    ("commit_gate_passed", .bool a.commitGatePassed), ("head_revision", .str a.headRevision),
    ("parent_revision", .str a.parentRevision), ("preview_digest", .str a.previewDigest),
    ("project_id", .str a.projectId), ("prospective_graph_sha256", .str a.prospectiveGraphSha256),
    ("release_subject_digest", .str a.releaseSubjectDigest),
    ("revision_hash", .str a.revisionHash), ("schema_version", .int a.schemaVersion),
    ("scope", .str a.scope), ("sequence", .int a.sequence), ("signature", .str a.signature),
    ("transaction_id", .str a.transactionId),
    ("verification_input_hash", .str a.verificationInputHash),
    ("verification_report_hash", .str a.verificationReportHash),
    ("verification_rule_set_hash", .str a.verificationRuleSetHash),
    ("verified_preview_digest", .str a.verifiedPreviewDigest)]

def attestationKeys : List String :=
  ["algorithm", "approval_decided_at", "approval_digest", "approval_expires_at", "approval_id",
    "approval_kind", "approval_principal", "approval_run_id", "attestation_key_id",
    "authorization_consumed_at", "authorization_digest", "authorization_expires_at",
    "authorization_id", "authorization_issued_at", "authorization_key_id", "authorization_nonce",
    "base_revision", "command_hashes", "command_hashes_digest", "commit_gate_passed",
    "head_revision", "parent_revision", "preview_digest", "project_id", "prospective_graph_sha256",
    "release_subject_digest", "revision_hash", "schema_version", "scope", "sequence", "signature",
    "transaction_id", "verification_input_hash", "verification_report_hash",
    "verification_rule_set_hash", "verified_preview_digest"]

def attestationFromPayload (value : Json) : Except StoreFailure Attestation := do
  let record := "DurableCommitAttestation"
  let label := "attestation"
  let obj ← expectObject value record
  expectKeys obj attestationKeys record
  refusing "stored DurableCommitAttestation is invalid" do
    let decidedAt ← field decodeCanonicalTime obj record "approval_decided_at"
    let issuedAt ← field decodeCanonicalTime obj record "authorization_issued_at"
    let expiresAt ← field decodeCanonicalTime obj record "authorization_expires_at"
    let consumedAt ← field decodeCanonicalTime obj record "authorization_consumed_at"
    let schemaVersion ← intField obj label "schema_version"
    let scope ← strField obj label "scope"
    let algorithm ← strField obj label "algorithm"
    let attestationKeyId ← strField obj label "attestation_key_id"
    let projectId ← strField obj label "project_id"
    let baseRevision ← strField obj label "base_revision"
    let headRevision ← strField obj label "head_revision"
    let parentRevision ← strField obj label "parent_revision"
    let revisionHash ← strField obj label "revision_hash"
    let sequence ← intField obj label "sequence"
    let transactionId ← strField obj label "transaction_id"
    let commandHashes ← field strings obj label "command_hashes"
    let commandHashesDigest ← strField obj label "command_hashes_digest"
    let previewDigest ← strField obj label "preview_digest"
    let verifiedPreviewDigest ← strField obj label "verified_preview_digest"
    let prospectiveGraphSha256 ← strField obj label "prospective_graph_sha256"
    let verificationReportHash ← strField obj label "verification_report_hash"
    let verificationInputHash ← strField obj label "verification_input_hash"
    let verificationRuleSetHash ← strField obj label "verification_rule_set_hash"
    let commitGatePassed ← boolField obj label "commit_gate_passed"
    let releaseSubjectDigest ← strField obj label "release_subject_digest"
    let approvalId ← strField obj label "approval_id"
    let approvalRunId ← strField obj label "approval_run_id"
    let approvalKind ← strField obj label "approval_kind"
    let approvalDigest ← strField obj label "approval_digest"
    let approvalPrincipal ← strField obj label "approval_principal"
    let approvalExpiresAt ← field decodeOptionalTime obj record "approval_expires_at"
    let authorizationKeyId ← strField obj label "authorization_key_id"
    let authorizationId ← strField obj label "authorization_id"
    let authorizationDigest ← strField obj label "authorization_digest"
    let authorizationNonce ← strField obj label "authorization_nonce"
    let signature ← strField obj label "signature"
    constructStored DurableCommitAttestation.checks ⟨schemaVersion, scope, algorithm,
      attestationKeyId, projectId, baseRevision, headRevision, parentRevision, revisionHash,
      sequence, transactionId, commandHashes, commandHashesDigest, previewDigest,
      verifiedPreviewDigest, prospectiveGraphSha256, verificationReportHash,
      verificationInputHash, verificationRuleSetHash, commitGatePassed, releaseSubjectDigest,
      approvalId, approvalRunId, approvalKind, approvalDigest, approvalPrincipal, decidedAt,
      approvalExpiresAt, authorizationKeyId, authorizationId, authorizationDigest,
      authorizationNonce, issuedAt, expiresAt, consumedAt, signature⟩

end Records

/-! ### Documents -/

def documentVersion : Int := 5

def bodySha256 [Hashing] (body : String) : String := Hashing.sha256 body.toList

def envelope (kind : String) (payload : Json) : Json :=
  Json.object [("document", .str kind), ("payload", payload), ("version", .int documentVersion)]

/-- The text of a document, with its digest. -/
def encodeDocument [Hashing] (kind : String) (payload : Json) : String × String :=
  let body := (envelope kind payload).dumps
  (body, bodySha256 body)

def decodeJson (body : String) : Except StoreFailure Members :=
  match Json.loads body with
  | none => .error (integrity "stored document is not valid canonical JSON")
  | some value =>
      match value with
      | .obj members =>
          if value.dumps = body then .ok members
          else .error (integrity "stored document is not canonical JSON")
      | _ => .error (integrity "stored document is not canonical JSON")

def decodeDocument (body expectedKind : String) : Except StoreFailure Json := do
  let envelope ← decodeJson body
  expectKeys envelope ["document", "payload", "version"] "document envelope"
  let kind ← expectStr (← member envelope "document") "document kind"
  require (kind = expectedKind) (integrity ("expected " ++ expectedKind ++ " document"))
  let version ← expectInt (← member envelope "version") "document version"
  require (version = documentVersion) ⟨.unsupportedStoreSchema,
    "unsupported " ++ expectedKind ++ " document version " ++ toString version⟩
  let payload ← expectObject (← member envelope "payload") "document payload"
  return .obj payload

section Documents

variable [UnicodeData] [Hashing]

def encodeRevision (revision : Revision) : Except StoreFailure (String × String) := do
  return encodeDocument "design-revision" (← revisionPayload revision)

def decodeRevision (body : String) : Except StoreFailure Revision := do
  revisionFromPayload (← decodeDocument body "design-revision")

def encodeTransaction (transaction : Transaction) : Except StoreFailure (String × String) := do
  return encodeDocument "design-transaction" (← transactionPayload transaction)

def decodeTransaction (body : String) : Except StoreFailure Transaction := do
  transactionFromPayload (← decodeDocument body "design-transaction")

def encodeApproval (approval : Approval) : Except StoreFailure (String × String) :=
  .ok (encodeDocument "approval-evidence" (approvalPayload approval))

def decodeApproval (body : String) : Except StoreFailure Approval := do
  approvalFromPayload (← decodeDocument body "approval-evidence")

def encodeAttestation (attestation : Attestation) : Except StoreFailure (String × String) :=
  .ok (encodeDocument "durable-commit-attestation" (attestationPayload attestation))

def decodeAttestation (body : String) : Except StoreFailure Attestation := do
  attestationFromPayload (← decodeDocument body "durable-commit-attestation")

end Documents

end Evleda.ProjectStore
