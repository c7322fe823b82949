/-
The records of the canonical design graph.

Each record has the fields of its source class and a constructor `postInit` that
makes the class's checks, in its order and with its messages.  A record held in a
graph is a `Checked` one, so a graph cannot contain a record its constructor
would have refused.  Two constructors also fill in fields: the drill of a pad and
of a hole may be given by its diameter alone.

`normalized` changes a record to its normal form; the source builds the changed
record anew, and so does the graph that holds it.  `toJson` is the record as the
canonical encoder sees it.
-/
import Evleda.Kernel.Geometry
import Evleda.Lib.Hashing

namespace Evleda.Kernel

open Outcome

/-! ### Checks on fields -/

section Checks

variable [UnicodeData]

/-- Text with something to see in it and no control characters. -/
def IsText (value : String) : Prop :=
  Text.isBlank value = false ∧ value.toList.any UnicodeData.isControl = false

/-- A non-empty identifier in normal form C, without white space and control characters. -/
def IsId (value : String) : Prop :=
  value ≠ "" ∧ value = Text.strip value ∧ value.toList.any Text.isSpace = false ∧
    value.toList.any UnicodeData.isControl = false ∧ UnicodeData.nfc value = value

instance (value : String) : Decidable (IsText value) := inferInstanceAs (Decidable (_ ∧ _))

instance (value : String) : Decidable (IsId value) := inferInstanceAs (Decidable (_ ∧ _))

def requireText (value label : String) : Except Failure Unit :=
  require (IsText value)
    (violation (label ++ " must be non-empty text without control characters"))

def requireId (value label : String) : Except Failure Unit :=
  require (IsId value)
    (violation (label ++
      " must be a non-empty NFC, whitespace-free identifier without control characters"))

theorem requireId_ok {value label : String} {u : Unit} :
    requireId value label = .ok u ↔ IsId value :=
  require_ok

end Checks

def requireSha256 (value label : String) : Except Failure Unit :=
  require (Text.isSha256 value) (violation (label ++ " must be a lowercase SHA-256 digest"))

/-- A rotation in microdegrees, from zero up to a full turn. -/
def requireTurn (value : Int) (label subject : String) : Except Failure Unit := do
  requireInt64 value label
  require (0 ≤ value ∧ value < 360000000)
    (violation (subject ++ " must be normalized to [0, 360°)"))

/-- An optional value, encoded as null when absent. -/
def optionalJson {α : Type} (encode : α → Json) : Option α → Json
  | some value => encode value
  | none => .null

def textsJson (values : List String) : Json := .arr (values.map .str)

def PointNm.toJson (p : PointNm) : Json := Json.object [("x", .int p.x), ("y", .int p.y)]

section Records

variable [UnicodeData]

/-! ### Pins, components and nets -/

structure PinRef where
  componentId : String
  pinNumber : String
  deriving DecidableEq

def PinRef.checks (m : PinRef) : Except Failure Unit := do
  requireId m.componentId "pin component ID"
  requireId m.pinNumber "pin number"

def PinRef.postInit : PinRef → Except Failure PinRef := checking PinRef.checks

/-- References are ordered by component, then by pin. -/
def PinRef.key (m : Checked PinRef.postInit) : String ×ₗ String :=
  toLex (m.val.componentId, m.val.pinNumber)

def PinRef.toJson (m : PinRef) : Json :=
  Json.object [("component_id", .str m.componentId), ("pin_number", .str m.pinNumber)]

structure PinDefinition where
  number : String
  name : String
  electricalType : String
  padNumber : String
  required : Bool := true
  deriving DecidableEq

def PinDefinition.checks (p : PinDefinition) : Except Failure Unit := do
  requireId p.number "pin number"
  requireId p.padNumber "pad number"
  requireText p.name "pin name"
  requireId p.electricalType "pin electrical type"

def PinDefinition.postInit : PinDefinition → Except Failure PinDefinition :=
  checking PinDefinition.checks

def PinDefinition.toJson (p : PinDefinition) : Json :=
  Json.object [("number", .str p.number), ("name", .str p.name),
    ("electrical_type", .str p.electricalType), ("pad_number", .str p.padNumber),
    ("required", .bool p.required)]

structure Component where
  componentId : String
  reference : String
  value : String
  manufacturerPartNumber : String
  package : String
  symbolId : String
  footprintId : String
  datasheetSha256 : String
  pinMapSha256 : String
  pins : List (Checked PinDefinition.postInit)
  deriving DecidableEq

def Component.checks (c : Component) : Except Failure Unit := do
  requireId c.componentId "component ID"
  requireId c.reference "reference"
  requireText c.value "component value"
  requireText c.manufacturerPartNumber "exact manufacturer part number"
  requireText c.package "component package"
  requireText c.symbolId "component symbol ID"
  requireText c.footprintId "component footprint ID"
  requireSha256 c.datasheetSha256 "datasheet_sha256"
  requireSha256 c.pinMapSha256 "pin_map_sha256"
  require (c.pins ≠ []) (violation "components require at least one pin")
  require ((c.pins.map (·.val.number)).Nodup ∧ (c.pins.map (·.val.padNumber)).Nodup)
    (violation "component pin and pad numbers must be unique")

def Component.postInit : Component → Except Failure Component := checking Component.checks

theorem Component.postInit_stable : Stable Component.postInit :=
  (checking_onlyChecks Component.checks).stable

def Component.normalized (c : Component) : Component :=
  { c with pins := sortBy (·.val.number) c.pins }

def Component.toJson (c : Component) : Json :=
  Json.object [("component_id", .str c.componentId), ("reference", .str c.reference),
    ("value", .str c.value), ("manufacturer_part_number", .str c.manufacturerPartNumber),
    ("package", .str c.package), ("symbol_id", .str c.symbolId),
    ("footprint_id", .str c.footprintId), ("datasheet_sha256", .str c.datasheetSha256),
    ("pin_map_sha256", .str c.pinMapSha256), ("pins", .arr (c.pins.map (·.val.toJson)))]

structure Net where
  netId : String
  name : String
  members : List (Checked PinRef.postInit) := []
  deriving DecidableEq

def Net.checks (n : Net) : Except Failure Unit := do
  requireId n.netId "net ID"
  requireText n.name "net name"
  require n.members.Nodup (violation "net members must be unique")

def Net.postInit : Net → Except Failure Net := checking Net.checks

theorem Net.postInit_stable : Stable Net.postInit :=
  (checking_onlyChecks Net.checks).stable

def Net.normalized (n : Net) : Net := { n with members := sortBy PinRef.key n.members }

def Net.toJson (n : Net) : Json :=
  Json.object [("net_id", .str n.netId), ("name", .str n.name),
    ("members", .arr (n.members.map (·.val.toJson)))]

/-! ### Placements -/

structure FootprintPlacement where
  componentId : String
  position : PointNm
  rotationUdeg : Int := 0
  side : String := "front"
  locked : Bool := false
  deriving DecidableEq

def FootprintPlacement.checks (p : FootprintPlacement) : Except Failure Unit := do
  requireId p.componentId "placement component ID"
  require (p.side = "front" ∨ p.side = "back") (violation "placement side must be front or back")
  requireTurn p.rotationUdeg "rotation in integer microdegrees" "rotation"

def FootprintPlacement.postInit : FootprintPlacement → Except Failure FootprintPlacement :=
  checking FootprintPlacement.checks

def FootprintPlacement.toJson (p : FootprintPlacement) : Json :=
  Json.object [("component_id", .str p.componentId), ("position", p.position.toJson),
    ("rotation_udeg", .int p.rotationUdeg), ("side", .str p.side), ("locked", .bool p.locked)]

/-! ### Pads and holes -/

def padShapes : List String := ["circle", "oval", "rect", "roundrect"]

/-- The canonical rotation of a drill: none for a round one, half a turn at most for a slot. -/
def normalizedDrillRotation (drillX drillY rotation : Int) : Int :=
  if drillX = drillY then 0 else rotation % 180000000

structure FootprintPad where
  padId : String
  componentId : String
  padNumber : String
  center : PointNm
  sizeX : Int
  sizeY : Int
  shape : String
  rotationUdeg : Int
  layers : List String
  padDrill : Int := 0
  netId : Option String := none
  locked : Bool := false
  drillX : Int := 0
  drillY : Int := 0
  drillRotationUdeg : Int := 0
  sharedLandGroupId : Option String := none
  deriving DecidableEq

/-- Derive the drill's two dimensions from its diameter, or its diameter from the smaller one. -/
def FootprintPad.fillDrill (p : FootprintPad) : FootprintPad :=
  let fromDiameter := p.drillX = 0 ∧ p.drillY = 0 ∧ 0 < p.padDrill
  let drillX := if fromDiameter then p.padDrill else p.drillX
  let drillY := if fromDiameter then p.padDrill else p.drillY
  { p with
    drillX := drillX
    drillY := drillY
    padDrill := if 0 < drillX ∧ p.padDrill = 0 then min drillX drillY else p.padDrill }

def FootprintPad.checks (p : FootprintPad) : Except Failure Unit := do
  requireId p.padId "pad ID"
  requireId p.componentId "pad component ID"
  requireId p.padNumber "pad number"
  requireInt64 p.sizeX "pad X size in nanometres"
  requireInt64 p.sizeY "pad Y size in nanometres"
  require (0 < p.sizeX ∧ 0 < p.sizeY) (violation "pad dimensions must be positive")
  require (p.shape ∈ padShapes)
    (violation ("pad shape must be one of " ++ ", ".intercalate padShapes))
  requireTurn p.rotationUdeg "pad rotation in integer microdegrees" "pad rotation"
  require (p.layers ≠ []) (violation "pad layers must be a non-empty immutable tuple")
  p.layers.forM (requireText · "pad copper layer")
  require p.layers.Nodup (violation "pad copper layers must be unique")
  requireInt64 p.padDrill "pad drill diameter in nanometres"
  requireInt64 p.drillX "pad drill X size in nanometres"
  requireInt64 p.drillY "pad drill Y size in nanometres"
  requireInt64 p.drillRotationUdeg "pad drill rotation in integer microdegrees"
  require (0 ≤ p.padDrill ∧ 0 ≤ p.drillX ∧ 0 ≤ p.drillY)
    (violation "pad drill dimensions cannot be negative")
  let q := p.fillDrill
  require (q.drillX = 0 ↔ q.drillY = 0)
    (violation "pad drill X/Y dimensions must both be zero or positive")
  requireWhen (0 < q.drillX) do
    require (p.padDrill = 0 ∨ p.padDrill = min q.drillX q.drillY)
      (violation "legacy pad drill diameter must equal the exact drill minor dimension")
    require (q.drillX < p.sizeX ∧ q.drillY < p.sizeY)
      (violation "a drilled pad requires positive copper annulus")
  requireWhen (¬ 0 < q.drillX) do
    require (p.padDrill = 0) (violation "a legacy pad drill requires exact X/Y geometry")
  require (0 ≤ p.drillRotationUdeg ∧ p.drillRotationUdeg < 360000000)
    (violation "pad drill rotation must be normalized to [0, 360°)")
  require (q.drillX = q.drillY → p.drillRotationUdeg = 0 ∨ p.drillRotationUdeg = 180000000)
    (violation "a circular pad drill cannot carry an oriented rotation")
  require (0 < q.drillX → 2 ≤ p.layers.length)
    (violation "a drilled pad must span at least two copper layers")
  p.netId.toList.forM (requireId · "pad net ID")
  p.sharedLandGroupId.toList.forM (requireId · "shared land group ID")

def FootprintPad.postInit (p : FootprintPad) : Except Failure FootprintPad := do
  p.checks
  return p.fillDrill

def FootprintPad.normalized (p : FootprintPad) : FootprintPad :=
  { p with
    layers := sortBy id p.layers
    drillRotationUdeg := normalizedDrillRotation p.drillX p.drillY p.drillRotationUdeg }

def FootprintPad.toJson (p : FootprintPad) : Json :=
  Json.object [("pad_id", .str p.padId), ("component_id", .str p.componentId),
    ("pad_number", .str p.padNumber), ("center", p.center.toJson), ("size_x_nm", .int p.sizeX),
    ("size_y_nm", .int p.sizeY), ("shape", .str p.shape), ("rotation_udeg", .int p.rotationUdeg),
    ("layers", textsJson p.layers), ("pad_drill_nm", .int p.padDrill),
    ("net_id", optionalJson .str p.netId), ("locked", .bool p.locked),
    ("drill_x_nm", .int p.drillX), ("drill_y_nm", .int p.drillY),
    ("drill_rotation_udeg", .int p.drillRotationUdeg),
    ("shared_land_group_id", optionalJson .str p.sharedLandGroupId)]

structure FootprintHole where
  holeId : String
  componentId : String
  center : PointNm
  diameter : Int
  plated : Bool := false
  padId : Option String := none
  locked : Bool := false
  drillX : Int := 0
  drillY : Int := 0
  drillRotationUdeg : Int := 0
  deriving DecidableEq

/-- Derive the drill's two dimensions from its diameter. -/
def FootprintHole.fillDrill (h : FootprintHole) : FootprintHole :=
  if h.drillX = 0 ∧ h.drillY = 0 then { h with drillX := h.diameter, drillY := h.diameter } else h

def FootprintHole.checks (h : FootprintHole) : Except Failure Unit := do
  requireId h.holeId "hole ID"
  requireId h.componentId "hole component ID"
  requireInt64 h.diameter "hole diameter in nanometres"
  requireInt64 h.drillX "hole drill X size in nanometres"
  requireInt64 h.drillY "hole drill Y size in nanometres"
  requireInt64 h.drillRotationUdeg "hole drill rotation in integer microdegrees"
  require (0 < h.diameter) (violation "hole minor dimension must be positive")
  let q := h.fillDrill
  require (0 < q.drillX ∧ 0 < q.drillY)
    (violation "hole drill X/Y dimensions must both be positive")
  require (h.diameter = min q.drillX q.drillY)
    (violation "legacy hole diameter must equal the exact drill minor dimension")
  require (0 ≤ h.drillRotationUdeg ∧ h.drillRotationUdeg < 360000000)
    (violation "hole drill rotation must be normalized to [0, 360°)")
  require (q.drillX = q.drillY → h.drillRotationUdeg = 0 ∨ h.drillRotationUdeg = 180000000)
    (violation "a circular hole cannot carry an oriented rotation")
  h.padId.toList.forM (requireId · "hole pad ID")
  require (h.plated = h.padId.isSome)
    (violation "a plated hole must identify its pad; an unplated hole must not")

def FootprintHole.postInit (h : FootprintHole) : Except Failure FootprintHole := do
  h.checks
  return h.fillDrill

def FootprintHole.normalized (h : FootprintHole) : FootprintHole :=
  { h with drillRotationUdeg := normalizedDrillRotation h.drillX h.drillY h.drillRotationUdeg }

def FootprintHole.toJson (h : FootprintHole) : Json :=
  Json.object [("hole_id", .str h.holeId), ("component_id", .str h.componentId),
    ("center", h.center.toJson), ("diameter_nm", .int h.diameter), ("plated", .bool h.plated),
    ("pad_id", optionalJson .str h.padId), ("locked", .bool h.locked),
    ("drill_x_nm", .int h.drillX), ("drill_y_nm", .int h.drillY),
    ("drill_rotation_udeg", .int h.drillRotationUdeg)]

/-! ### Tracks and vias -/

structure Via where
  viaId : String
  netId : String
  center : PointNm
  diameter : Int
  drill : Int
  layers : List String
  locked : Bool := false
  deriving DecidableEq

def Via.checks (v : Via) : Except Failure Unit := do
  requireId v.viaId "via ID"
  requireId v.netId "via net ID"
  requireInt64 v.diameter "via diameter in nanometres"
  requireInt64 v.drill "via drill diameter in nanometres"
  require (0 < v.drill ∧ v.drill < v.diameter)
    (violation "via drill must be positive and smaller than its diameter")
  require (2 ≤ v.layers.length)
    (violation "via layer span must contain at least two copper layers")
  v.layers.forM (requireText · "via copper layer")
  require v.layers.Nodup (violation "via copper layers must be unique")

def Via.postInit : Via → Except Failure Via := checking Via.checks

theorem Via.postInit_stable : Stable Via.postInit :=
  (checking_onlyChecks Via.checks).stable

def Via.normalized (v : Via) : Via := { v with layers := sortBy id v.layers }

def Via.toJson (v : Via) : Json :=
  Json.object [("via_id", .str v.viaId), ("net_id", .str v.netId), ("center", v.center.toJson),
    ("diameter_nm", .int v.diameter), ("drill_nm", .int v.drill), ("layers", textsJson v.layers),
    ("locked", .bool v.locked)]

structure Track where
  trackId : String
  netId : String
  layer : String
  start : PointNm
  stop : PointNm
  width : Int
  locked : Bool := false
  deriving DecidableEq

def Track.checks (t : Track) : Except Failure Unit := do
  requireId t.trackId "track ID"
  requireId t.netId "track net ID"
  requireText t.layer "track layer"
  requireInt64 t.width "track width in nanometres"
  require (0 < t.width ∧ t.start ≠ t.stop)
    (violation "track requires a layer, positive width, and non-zero length")

def Track.postInit : Track → Except Failure Track := checking Track.checks

theorem Track.postInit_stable : Stable Track.postInit :=
  (checking_onlyChecks Track.checks).stable

def Track.normalized (t : Track) : Track :=
  { t with start := min t.start t.stop, stop := max t.start t.stop }

def Track.toJson (t : Track) : Json :=
  Json.object [("track_id", .str t.trackId), ("net_id", .str t.netId), ("layer", .str t.layer),
    ("start", t.start.toJson), ("end", t.stop.toJson), ("width_nm", .int t.width),
    ("locked", .bool t.locked)]

/-! ### Schematic wires and junctions -/

structure SchematicWire where
  wireId : String
  netId : String
  vertices : List PointNm
  sheetId : String := "root"
  locked : Bool := false
  deriving DecidableEq

def SchematicWire.checks (w : SchematicWire) : Except Failure Unit := do
  requireId w.wireId "schematic wire ID"
  requireId w.netId "schematic wire net ID"
  requireId w.sheetId "schematic wire sheet ID"
  require (2 ≤ w.vertices.length) (violation "schematic wire requires at least two vertices")
  require (∀ segment ∈ segments w.vertices, segment.1 ≠ segment.2)
    (violation "schematic wire cannot contain a zero-length segment")
  require w.vertices.Nodup (violation "schematic wire cannot revisit a vertex")
  (segments w.vertices).zipIdx.forM fun ((a, b), first) =>
    ((segments w.vertices).drop (first + 2)).forM fun (c, d) =>
      require (segmentsIntersect a b c d = false)
        (violation "schematic wire cannot self-intersect")

def SchematicWire.postInit : SchematicWire → Except Failure SchematicWire :=
  checking SchematicWire.checks

theorem SchematicWire.postInit_stable : Stable SchematicWire.postInit :=
  (checking_onlyChecks SchematicWire.checks).stable

def SchematicWire.normalized (w : SchematicWire) : SchematicWire :=
  { w with vertices := min w.vertices w.vertices.reverse }

def SchematicWire.toJson (w : SchematicWire) : Json :=
  Json.object [("wire_id", .str w.wireId), ("net_id", .str w.netId),
    ("vertices", .arr (w.vertices.map PointNm.toJson)), ("sheet_id", .str w.sheetId),
    ("locked", .bool w.locked)]

structure SchematicJunction where
  junctionId : String
  netId : String
  position : PointNm
  sheetId : String := "root"
  locked : Bool := false
  deriving DecidableEq

def SchematicJunction.checks (j : SchematicJunction) : Except Failure Unit := do
  requireId j.junctionId "schematic junction ID"
  requireId j.netId "schematic junction net ID"
  requireId j.sheetId "schematic junction sheet ID"

def SchematicJunction.postInit : SchematicJunction → Except Failure SchematicJunction :=
  checking SchematicJunction.checks

def SchematicJunction.toJson (j : SchematicJunction) : Json :=
  Json.object [("junction_id", .str j.junctionId), ("net_id", .str j.netId),
    ("position", j.position.toJson), ("sheet_id", .str j.sheetId), ("locked", .bool j.locked)]

/-! ### Zones -/

inductive ZoneFillState where
  | unfilledIntent | verifiedFilled
  deriving DecidableEq, Repr

def ZoneFillState.value : ZoneFillState → String
  | .unfilledIntent => "unfilled-intent"
  | .verifiedFilled => "verified-filled"

structure ZoneFillEvidence where
  sourceGraphHash : String
  sourceRevision : String
  fillEngineId : String
  fillEngineRevision : String
  filledGeometryHash : String
  evidenceHash : String
  deriving DecidableEq

variable [Hashing]

/-- `stable_hash(value, domain=domain)` -/
def stableHash (domain : String) (value : Json) : String := Hashing.inDomain domain value

def ZoneFillEvidence.checks (e : ZoneFillEvidence) : Except Failure Unit := do
  requireSha256 e.sourceGraphHash "zone fill source graph hash"
  requireSha256 e.sourceRevision "zone fill source revision"
  requireId e.fillEngineId "zone fill engine ID"
  requireId e.fillEngineRevision "zone fill engine revision"
  requireSha256 e.filledGeometryHash "zone filled geometry hash"
  requireSha256 e.evidenceHash "zone fill evidence hash"
  let expected := stableHash "pcb-zone-fill-evidence-v1" (Json.object [
    ("source_graph_hash", .str e.sourceGraphHash), ("source_revision", .str e.sourceRevision),
    ("fill_engine_id", .str e.fillEngineId), ("fill_engine_revision", .str e.fillEngineRevision),
    ("filled_geometry_hash", .str e.filledGeometryHash)])
  require (e.evidenceHash = expected)
    (violation "zone fill evidence hash does not bind its provenance")

def ZoneFillEvidence.postInit : ZoneFillEvidence → Except Failure ZoneFillEvidence :=
  checking ZoneFillEvidence.checks

def ZoneFillEvidence.toJson (e : ZoneFillEvidence) : Json :=
  Json.object [("source_graph_hash", .str e.sourceGraphHash),
    ("source_revision", .str e.sourceRevision), ("fill_engine_id", .str e.fillEngineId),
    ("fill_engine_revision", .str e.fillEngineRevision),
    ("filled_geometry_hash", .str e.filledGeometryHash), ("evidence_hash", .str e.evidenceHash)]

structure CopperZone where
  zoneId : String
  netId : String
  layer : String
  outline : List PointNm
  clearance : Int
  minThickness : Int := 100000
  priority : Int := 0
  locked : Bool := false
  fillState : ZoneFillState := .unfilledIntent
  fillEvidence : Option (Checked ZoneFillEvidence.postInit) := none
  deriving DecidableEq

def CopperZone.filledGeometryHash (z : CopperZone) : String :=
  stableHash "pcb-zone-filled-geometry-v1" (Json.object [
    ("zone_id", .str z.zoneId), ("net_id", .str z.netId), ("layer", .str z.layer),
    ("outline", Json.object [
      ("vertices", .arr ((normalizedRing z.outline).map PointNm.toJson))]),
    ("clearance_nm", .int z.clearance)])

def CopperZone.checks (z : CopperZone) : Except Failure Unit := do
  requireId z.zoneId "zone ID"
  requireId z.netId "zone net ID"
  requireText z.layer "zone copper layer"
  validateSimplePolygon z.outline "zone outline"
  requireInt64 z.clearance "zone clearance in nanometres"
  require (0 ≤ z.clearance) (violation "zone clearance cannot be negative")
  requireInt64 z.minThickness "zone minimum thickness in nanometres"
  require (0 < z.minThickness) (violation "zone minimum thickness must be positive")
  requireInt64 z.priority "zone priority"
  require (0 ≤ z.priority) (violation "zone priority cannot be negative")
  match z.fillState, z.fillEvidence with
  | .unfilledIntent, none => .ok ()
  | .unfilledIntent, some _ =>
      .error (violation "unfilled zone intent cannot carry fill evidence")
  | .verifiedFilled, none =>
      .error (violation "verified filled zone requires exact source-bound fill evidence")
  | .verifiedFilled, some evidence =>
      require (evidence.val.filledGeometryHash = z.filledGeometryHash)
        (violation "zone fill evidence does not bind the exact modeled filled geometry")

def CopperZone.postInit : CopperZone → Except Failure CopperZone := checking CopperZone.checks

theorem CopperZone.postInit_stable : Stable CopperZone.postInit :=
  (checking_onlyChecks CopperZone.checks).stable

def CopperZone.normalized (z : CopperZone) : CopperZone :=
  { z with outline := normalizedRing z.outline }

def CopperZone.toJson (z : CopperZone) : Json :=
  Json.object [("zone_id", .str z.zoneId), ("net_id", .str z.netId), ("layer", .str z.layer),
    ("outline", .arr (z.outline.map PointNm.toJson)), ("clearance_nm", .int z.clearance),
    ("min_thickness_nm", .int z.minThickness), ("priority", .int z.priority),
    ("locked", .bool z.locked), ("fill_state", .str z.fillState.value),
    ("fill_evidence", optionalJson (·.val.toJson) z.fillEvidence)]

/-! ### Constructors are stable, normal forms are final -/

omit [UnicodeData] [Hashing] in
theorem FootprintPad.fillDrill_cases (p : FootprintPad) :
    (p.drillX = 0 ∧ p.drillY = 0 ∧ 0 < p.padDrill ∧
      p.fillDrill = { p with drillX := p.padDrill, drillY := p.padDrill }) ∨
    (0 < p.drillX ∧ p.padDrill = 0 ∧ p.fillDrill = { p with padDrill := min p.drillX p.drillY }) ∨
    p.fillDrill = p := by
  by_cases hdiameter : p.drillX = 0 ∧ p.drillY = 0 ∧ 0 < p.padDrill
  · refine Or.inl ⟨hdiameter.1, hdiameter.2.1, hdiameter.2.2, ?_⟩
    simp [FootprintPad.fillDrill, hdiameter]
  · by_cases hminor : 0 < p.drillX ∧ p.padDrill = 0
    · refine Or.inr (Or.inl ⟨hminor.1, hminor.2, ?_⟩)
      simp only [FootprintPad.fillDrill, if_neg hdiameter, if_pos hminor]
    · refine Or.inr (Or.inr ?_)
      simp only [FootprintPad.fillDrill, if_neg hdiameter, if_neg hminor]

omit [Hashing] in
theorem FootprintPad.postInit_stable : Stable FootprintPad.postInit := by
  intro p q h
  unfold FootprintPad.postInit at h ⊢
  simp only [bind_ok, exists_unit, pure_ok] at h ⊢
  obtain ⟨hchecks, rfl⟩ := h
  unfold FootprintPad.checks at hchecks ⊢
  simp only [bind_ok, require_ok, requireWhen_ok, exists_unit,
    requireInt64_ok] at hchecks ⊢
  obtain ⟨hid, hcomponent, hnumber, hx, hy, hsize, hshape, hturn, hlayers, htexts, hnodup, hdrill,
    hdx, hdy, hrot, hneg, hboth, hdrilled, hplain, hturn', hround, hspan, hnet, hgroup⟩ := hchecks
  rcases p.fillDrill_cases with ⟨hx0, hy0, hpos, hfill⟩ | ⟨hpos, hzero, hfill⟩ | hfill
  · have hfix : p.fillDrill.fillDrill = p.fillDrill := by
      rw [hfill]
      simp [FootprintPad.fillDrill, hpos.ne']
    rw [hfix]
    simp only [hfill] at *
    refine ⟨⟨hid, hcomponent, hnumber, hx, hy, hsize, hshape, hturn, hlayers, htexts, hnodup, hdrill,
      hdrill, hdrill, hrot, ⟨hneg.1, hneg.1, hneg.1⟩, hboth, ?_, hplain, hturn', hround, hspan,
      hnet, hgroup⟩, trivial⟩
    intro _
    exact ⟨Or.inr (by omega), (hdrilled hpos).2⟩
  · have hy0 : p.drillY ≠ 0 := by
      intro hy0
      simp only [hfill, hy0, iff_true] at hboth
      exact hpos.ne' hboth
    have hfix : p.fillDrill.fillDrill = p.fillDrill := by
      have hmin : min p.drillX p.drillY ≠ 0 := by omega
      rw [hfill]
      simp [FootprintPad.fillDrill, hpos.ne', hmin]
    rw [hfix]
    simp only [hfill] at *
    refine ⟨⟨hid, hcomponent, hnumber, hx, hy, hsize, hshape, hturn, hlayers, htexts, hnodup, ?_,
      hdx, hdy, hrot, ⟨by omega, hneg.2⟩, hboth, ?_, ?_, hturn', hround, hspan, hnet, hgroup⟩,
      trivial⟩
    · rcases min_choice p.drillX p.drillY with hmin | hmin <;> rw [hmin] <;> assumption
    · intro _
      exact ⟨Or.inr trivial, (hdrilled hpos).2⟩
    · intro hnot
      exact absurd hpos hnot
  · rw [hfill, hfill]
    rw [hfill] at hboth hdrilled hplain hround hspan
    exact ⟨⟨hid, hcomponent, hnumber, hx, hy, hsize, hshape, hturn, hlayers, htexts, hnodup, hdrill,
      hdx, hdy, hrot, hneg, hboth, hdrilled, hplain, hturn', hround, hspan, hnet, hgroup⟩, rfl⟩

omit [Hashing] in
theorem FootprintHole.postInit_stable : Stable FootprintHole.postInit := by
  intro p q h
  unfold FootprintHole.postInit at h ⊢
  simp only [bind_ok, exists_unit, pure_ok] at h ⊢
  obtain ⟨hchecks, rfl⟩ := h
  unfold FootprintHole.checks at hchecks ⊢
  simp only [bind_ok, require_ok, exists_unit, requireInt64_ok]
    at hchecks ⊢
  obtain ⟨hid, hcomponent, hdiameter, hdx, hdy, hrot, hpos, hboth, hminor, hturn, hround, hpad,
    hplated⟩ := hchecks
  by_cases hzero : p.drillX = 0 ∧ p.drillY = 0
  · have hfill : p.fillDrill = { p with drillX := p.diameter, drillY := p.diameter } :=
      if_pos hzero
    have hfix : p.fillDrill.fillDrill = p.fillDrill := by
      rw [hfill]
      simp [FootprintHole.fillDrill, hpos.ne']
    rw [hfix]
    simp only [hfill] at *
    exact ⟨⟨hid, hcomponent, hdiameter, hdiameter, hdiameter, hrot, hpos, hboth, hminor, hturn,
      hround, hpad, hplated⟩, trivial⟩
  · have hfill : p.fillDrill = p := if_neg hzero
    rw [hfill, hfill]
    rw [hfill] at hboth hminor hround
    exact ⟨⟨hid, hcomponent, hdiameter, hdx, hdy, hrot, hpos, hboth, hminor, hturn, hround, hpad,
      hplated⟩, rfl⟩

omit [UnicodeData] [Hashing] in
theorem normalizedDrillRotation_idem (x y rotation : Int) :
    normalizedDrillRotation x y (normalizedDrillRotation x y rotation) =
      normalizedDrillRotation x y rotation := by
  unfold normalizedDrillRotation
  split
  · rfl
  · exact Int.emod_emod_of_dvd rotation (dvd_refl _)

end Records

end Evleda.Kernel
