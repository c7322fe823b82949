/-
From the design graph to the board that is verified.

The adapter translates what the exact model of the verifier can represent, and names
what it cannot among the unsupported features of the board, so that a strict policy
fails closed.  Pads reach the board twice: each pin looks up the pad of its number in a
dictionary, for the geometry of the first schema, and every physical pad is translated
with its exact shape.
-/
import Evleda.Kernel.Graph
import Evleda.Verification.Normalized

namespace Evleda.Kernel

open Verification (BoardOutline NetConnection PinElectricalType PadShape BoardGraph)

/-! ### Vocabularies -/

/-- `_PIN_TYPES` -/
def pinTypes : List (String × PinElectricalType) :=
  [.input, .output, .bidirectional, .passive, .powerIn, .powerOut, .openCollector, .noConnect,
    .unspecified].map fun item => (item.value, item)

/-- `PadShape(value)` -/
def padShape (value : String) : Except Failure PadShape :=
  match [PadShape.circle, .oval, .rect, .roundrect].find? (·.value == value) with
  | some shape => .ok shape
  | none => .error ⟨.valueError, "'" ++ value ++ "' is not a valid PadShape"⟩

/-- A feature and what has it: `f"{tag}:{subject}"` -/
def tagged (tag subject : String) : String := tag ++ ":" ++ subject

/-- Name a feature, if it is there to be lost. -/
def noteWhen (lost : Prop) [Decidable lost] (text : String) : List String :=
  if lost then [text] else []

section Adapter

variable [UnicodeData]

/-! ### Components and their pins -/

/-- The pads under the component and the number of the pin they belong to. -/
abbrev PadTable := Dict (String × String) FootprintPad

def placementUnsupported (placements : Dict String FootprintPlacement) (component : Component) :
    List String :=
  match placements component.componentId with
  | none => [tagged "footprint-placement-missing" component.componentId]
  | some placement =>
      noteWhen placement.locked
        (tagged "locked-placement-metadata-unrepresented" component.componentId)

/-- What the exact model cannot represent of the pad that a pin has looked up. -/
def padUnsupported (pad : FootprintPad) : List String :=
  noteWhen (pad.shape = "circle" ∧ pad.sizeX ≠ pad.sizeY)
    (tagged "exact-pad-circle-nonsquare-not-supported" pad.padId) ++
  noteWhen (pad.shape = "roundrect")
    (tagged "exact-pad-roundrect-radius-not-represented" pad.padId) ++
  noteWhen (pad.shape ≠ "circle" ∧ pad.rotationUdeg % 90000000 ≠ 0)
    (tagged "exact-pad-rotation-not-supported" (tagged pad.padId (toString pad.rotationUdeg))) ++
  noteWhen (pad.drillX ≠ pad.drillY ∧ pad.drillRotationUdeg % 90000000 ≠ 0)
    (tagged "exact-drill-rotation-not-supported"
      (tagged "pad" (tagged pad.padId (toString pad.drillRotationUdeg)))) ++
  noteWhen pad.locked (tagged "locked-pad-metadata-unrepresented" pad.padId)

def pinUnsupported (pads : PadTable) (pinMemberships : Dict (String × String) String)
    (component : Component) (pin : PinDefinition) : List String :=
  noteWhen (pinTypes.lookup pin.electricalType = none)
    (tagged "pin-electrical-type-unsupported"
      (tagged component.componentId (tagged pin.number pin.electricalType))) ++
  match pads (component.componentId, pin.padNumber) with
  | none => [tagged "pin-pad-geometry-missing" (tagged component.componentId pin.number)]
  | some pad =>
      padUnsupported pad ++
      noteWhen (pad.netId ≠ none ∧ pinMemberships (component.componentId, pin.number) = none)
        (tagged "pad-only-net-binding-unrepresented" pad.padId)

def verificationPoint (p : PointNm) : Verification.PointNm := ⟨p.x, p.y⟩

def verificationPin (pads : PadTable) (component : Component) (pin : PinDefinition) :
    Verification.Pin :=
  let pad := pads (component.componentId, pin.padNumber)
  { number := pin.number
    name := pin.name
    electricalType := (pinTypes.lookup pin.electricalType).getD .unspecified
    required := pin.required
    padCenter := pad.map (verificationPoint ·.center)
    padDiameterNm := pad.elim 0 fun pad => min pad.sizeX pad.sizeY
    layers := pad.elim [] (·.layers)
    padDrillNm := pad.elim 0 (·.padDrill)
    padNumber := pin.padNumber }

def verificationComponent (pads : PadTable) (component : Component) : Verification.Component where
  componentId := component.componentId
  reference := component.reference
  value := component.value
  footprint := component.footprintId
  manufacturerPartNumber := component.manufacturerPartNumber
  datasheetSha256 := component.datasheetSha256
  pinMapSha256 := component.pinMapSha256
  pins := component.pins.map (verificationPin pads component ·.val)

/-! ### Copper, holes and pads -/

def verificationNet (net : Net) : Verification.Net where
  netId := net.netId
  name := net.name
  connections := net.members.map fun member => ⟨member.val.componentId, member.val.pinNumber⟩

def verificationTrack (track : Track) : Verification.Track where
  trackId := track.trackId
  netId := track.netId
  layer := track.layer
  start := verificationPoint track.start
  finish := verificationPoint track.stop
  widthNm := track.width

def verificationVia (via : Via) : Verification.Via where
  viaId := via.viaId
  netId := via.netId
  center := verificationPoint via.center
  diameterNm := via.diameter
  drillNm := via.drill
  layers := via.layers

def verificationHole (hole : FootprintHole) : Verification.Hole where
  holeId := hole.holeId
  componentId := hole.componentId
  center := verificationPoint hole.center
  diameterNm := hole.diameter
  plated := hole.plated
  padId := hole.padId
  drillXNm := hole.drillX
  drillYNm := hole.drillY
  drillRotationUdeg := hole.drillRotationUdeg

def verificationPad (pad : FootprintPad) : Except Failure Verification.PhysicalPad := do
  let shape ← padShape pad.shape
  return {
    padId := pad.padId
    componentId := pad.componentId
    padNumber := pad.padNumber
    netId := pad.netId
    center := verificationPoint pad.center
    sizeXNm := pad.sizeX
    sizeYNm := pad.sizeY
    shape := shape
    rotationUdeg := pad.rotationUdeg
    layers := pad.layers
    drillNm := pad.padDrill
    drillXNm := pad.drillX
    drillYNm := pad.drillY
    drillRotationUdeg := pad.drillRotationUdeg
    sharedLandGroupId := pad.sharedLandGroupId }

variable [Hashing]

/-- `VerificationZoneFillState(zone.fill_state.value)` -/
def verificationFillState : ZoneFillState → Verification.ZoneFillState
  | .unfilledIntent => .unfilledIntent
  | .verifiedFilled => .verifiedFilled

def verificationEvidence (evidence : ZoneFillEvidence) : Verification.ZoneFillEvidence where
  sourceGraphHash := evidence.sourceGraphHash
  sourceRevision := evidence.sourceRevision
  fillEngineId := evidence.fillEngineId
  fillEngineRevision := evidence.fillEngineRevision
  filledGeometryHash := evidence.filledGeometryHash
  evidenceHash := evidence.evidenceHash

def zoneUnsupported (zone : CopperZone) : List String :=
  noteWhen (zone.minThickness ≠ 100000)
    (tagged "zone-minimum-thickness-unrepresented" zone.zoneId) ++
  noteWhen (zone.priority ≠ 0) (tagged "zone-priority-unrepresented" zone.zoneId) ++
  noteWhen zone.locked (tagged "locked-zone-metadata-unrepresented" zone.zoneId)

def verificationZone (zone : CopperZone) : Verification.Zone where
  zoneId := zone.zoneId
  netId := zone.netId
  layer := zone.layer
  outline := ⟨zone.outline.map verificationPoint⟩
  clearanceNm := zone.clearance
  fillState := verificationFillState zone.fillState
  fillEvidence := zone.fillEvidence.map (verificationEvidence ·.val)

/-! ### The board -/

namespace DesignGraph

variable (normalized : DesignGraph)

/-- `placements`: the placements under their components -/
def placementTable : Dict String FootprintPlacement :=
  Dict.empty.update (normalized.placements.map fun item => (item.val.componentId, item.val))

/-- `pads`: of several pads under one key, the last -/
def padTable : PadTable :=
  Dict.empty.update
    (normalized.pads.map fun item => ((item.val.componentId, item.val.padNumber), item.val))

/-- `pin_memberships`: the net of every connected pin -/
def pinMemberships : Dict (String × String) String :=
  Dict.empty.update (normalized.nets.flatMap fun net => net.val.members.map fun member =>
    ((member.val.componentId, member.val.pinNumber), net.val.netId))

def componentUnsupported (component : Component) : List String :=
  placementUnsupported normalized.placementTable component ++
  component.pins.flatMap fun pin =>
    pinUnsupported normalized.padTable normalized.pinMemberships component pin.val

/-- `unsupported`, in the order of the passes over the graph -/
def unsupported : List String :=
  noteWhen (normalized.boardOutline = []) "board-outline-missing" ++
  normalized.components.flatMap (normalized.componentUnsupported ·.val) ++
  normalized.tracks.flatMap (fun track =>
    noteWhen track.val.locked (tagged "locked-track-metadata-unrepresented" track.val.trackId)) ++
  normalized.vias.flatMap (fun via =>
    noteWhen via.val.locked (tagged "locked-via-metadata-unrepresented" via.val.viaId)) ++
  normalized.zones.flatMap (zoneUnsupported ·.val) ++
  normalized.holes.flatMap (fun hole =>
    noteWhen hole.val.locked (tagged "locked-hole-metadata-unrepresented" hole.val.holeId)) ++
  normalized.schematicWires.map (tagged "schematic-wire-unrepresented" ·.val.wireId) ++
  normalized.schematicJunctions.map (tagged "schematic-junction-unrepresented" ·.val.junctionId)

end DesignGraph

def toVerificationBoard (graph : DesignGraph) (revision : String) : Except Failure BoardGraph := do
  require (Text.isSha256 revision)
    (violation "verification subject revision must be a lowercase SHA-256 digest")
  let normalized ← graph.normalized
  validateGraph normalized
  let physicalPads ← normalized.pads.mapM (verificationPad ·.val)
  return BoardGraph.normalized {
    schemaVersion := 3
    designId := normalized.projectId
    revision := revision
    layers := normalized.layers
    outline := ⟨normalized.boardOutline.map verificationPoint⟩
    components := normalized.components.map (verificationComponent normalized.padTable ·.val)
    nets := normalized.nets.map (verificationNet ·.val)
    tracks := normalized.tracks.map (verificationTrack ·.val)
    vias := normalized.vias.map (verificationVia ·.val)
    unsupportedFeatures := normalized.unsupported
    zones := normalized.zones.map (verificationZone ·.val)
    holes := normalized.holes.map (verificationHole ·.val)
    pads := physicalPads }

end Adapter

end Evleda.Kernel
