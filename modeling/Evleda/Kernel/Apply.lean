/-
Commands, and what one command does to a graph.

A command carries a JSON object.  Each of the fourteen kinds has its own schema:
the keys it must and may have, how each is read and which record is built from
them.  Reading is strict, so an unknown key, a missing key or a value of the
wrong type is refused before anything is built.

`apply` does not normalize and does not validate; the kernel does both with what
it returns.
-/
import Evleda.Kernel.Graph

namespace Evleda.Kernel

inductive CommandKind where
  | componentAdd | componentRemove | netCreate | netConnect | footprintPlace | footprintPadAdd
  | footprintPadGroupAdd | footprintHoleAdd | trackAdd | viaAdd | zoneAdd | schematicWireAdd
  | schematicJunctionAdd | boardSetOutline
  deriving DecidableEq, Repr

def CommandKind.value : CommandKind → String
  | .componentAdd => "component.add"
  | .componentRemove => "component.remove"
  | .netCreate => "net.create"
  | .netConnect => "net.connect"
  | .footprintPlace => "footprint.place"
  | .footprintPadAdd => "footprint.pad.add"
  | .footprintPadGroupAdd => "footprint.pad_group.add"
  | .footprintHoleAdd => "footprint.hole.add"
  | .trackAdd => "track.add"
  | .viaAdd => "via.add"
  | .zoneAdd => "zone.add"
  | .schematicWireAdd => "schematic.wire.add"
  | .schematicJunctionAdd => "schematic.junction.add"
  | .boardSetOutline => "board.set_outline"

/-- A JSON object as a command reads it. -/
abbrev Payload := List (String × Json)

/-! ### Reading a payload -/

def payloadKeys (payload : Payload) (required : List String) (optional : List String := []) :
    Except Failure Unit :=
  let keys := payload.map Prod.fst
  let missing := sortBy id (required.filter (· ∉ keys))
  let unknown := sortBy id (keys.filter (fun key => key ∉ required ∧ key ∉ optional))
  let details := (if missing = [] then [] else ["missing: " ++ ", ".intercalate missing]) ++
    (if unknown = [] then [] else ["unknown: " ++ ", ".intercalate unknown])
  require (missing = [] ∧ unknown = [])
    (violation ("payload fields do not match command schema (" ++ "; ".intercalate details ++ ")"))

def string (payload : Payload) (key : String) : Except Failure String :=
  let failure := violation ("payload field " ++ key ++ " must be a non-empty string")
  match Json.get? payload key with
  | some (.str value) => if Text.isBlank value then .error failure else .ok value
  | _ => .error failure

def integer (payload : Payload) (key : String) : Except Failure Int :=
  match Json.get? payload key with
  | some (.int value) => .ok value
  | _ => .error (violation ("payload field " ++ key ++ " must be an integer"))

/-- An integer under a key that may be absent. -/
def integerOr (payload : Payload) (key : String) (default : Int) : Except Failure Int :=
  if (Json.get? payload key).isSome then integer payload key else .ok default

def boolean (payload : Payload) (key : String) (default : Bool := false) : Except Failure Bool :=
  match Json.get? payload key with
  | none => .ok default
  | some (.bool value) => .ok value
  | _ => .error (violation ("payload field " ++ key ++ " must be a boolean"))

def optionalString (payload : Payload) (key : String) : Except Failure (Option String) :=
  let failure := violation ("payload field " ++ key ++ " must be null or a non-empty string")
  match Json.get? payload key with
  | none => .ok none
  | some .null => .ok none
  | some (.str value) => if Text.isBlank value then .error failure else .ok (some value)
  | _ => .error failure

/-- A text under a key that may be absent. -/
def stringOr (payload : Payload) (key : String) (default : String) : Except Failure String :=
  if (Json.get? payload key).isSome then string payload key else .ok default

/-- The non-empty text of an element of an array. -/
def textItem (failure : Failure) : Json → Except Failure String
  | .str value => if Text.isBlank value then .error failure else .ok value
  | _ => .error failure

def stringTuple (payload : Payload) (key : String) : Except Failure (List String) :=
  let failure := violation ("payload field " ++ key ++ " must be an array of non-empty strings")
  match Json.get? payload key with
  | some (.arr items) => items.mapM (textItem failure)
  | _ => .error failure

/-- A vertex `[x_nm, y_nm]`. -/
def vertex (key : String) : Json → Except Failure PointNm
  | .arr [.int x, .int y] => PointNm.make x y
  | _ => .error (violation ("each " ++ key ++ " vertex must be [x_nm, y_nm]"))

def points (payload : Payload) (key : String) : Except Failure (List PointNm) :=
  match Json.get? payload key with
  | some (.arr items) => items.mapM (vertex key)
  | _ => .error (violation ("payload field " ++ key ++ " must be an array of [x_nm, y_nm]"))

/-- A point under two keys. -/
def pointAt (payload : Payload) (xKey yKey : String) : Except Failure PointNm := do
  let x ← integer payload xKey
  let y ← integer payload yKey
  PointNm.make x y

section Records

variable [UnicodeData]

def pinDefinition (pin : Payload) : Except Failure (Checked PinDefinition.postInit) := do
  let number ← string pin "number"
  let name ← string pin "name"
  let electricalType ← string pin "electrical_type"
  let padNumber ← string pin "pad_number"
  let required ← boolean pin "required" true
  Checked.make (checking_onlyChecks PinDefinition.checks).stable
    ⟨number, name, electricalType, padNumber, required⟩

/-- The object an element of an array is, if it is one. -/
def asObject? : Json → Option Payload
  | .obj members => some members
  | _ => none

def componentPins (payload : Payload) : Except Failure (List (Checked PinDefinition.postInit)) :=
  match Json.get? payload "pins" with
  | some (.arr rawPins) => do
      let objects := rawPins.filterMap asObject?
      let pins ← objects.mapM pinDefinition
      require (pins.length = rawPins.length) (violation "each pin must be an object")
      objects.forM fun pin =>
        payloadKeys pin ["number", "name", "electrical_type", "pad_number"] ["required"]
      return pins
  | _ => .error (violation "component pins must be an array")

def component (payload : Payload) : Except Failure (Checked Component.postInit) := do
  payloadKeys payload ["component_id", "reference", "value", "manufacturer_part_number", "package",
    "symbol_id", "footprint_id", "datasheet_sha256", "pin_map_sha256", "pins"]
  let pins ← componentPins payload
  let componentId ← string payload "component_id"
  let reference ← string payload "reference"
  let value ← string payload "value"
  let manufacturerPartNumber ← string payload "manufacturer_part_number"
  let package ← string payload "package"
  let symbolId ← string payload "symbol_id"
  let footprintId ← string payload "footprint_id"
  let datasheetSha256 ← string payload "datasheet_sha256"
  let pinMapSha256 ← string payload "pin_map_sha256"
  Checked.make Component.postInit_stable
    ⟨componentId, reference, value, manufacturerPartNumber, package, symbolId, footprintId,
      datasheetSha256, pinMapSha256, pins⟩

def pinRef (payload : Payload) : Except Failure (Checked PinRef.postInit) := do
  let componentId ← string payload "component_id"
  let pinNumber ← string payload "pin_number"
  Checked.make (checking_onlyChecks PinRef.checks).stable ⟨componentId, pinNumber⟩

def footprintPlacement (payload : Payload) (componentId : String) :
    Except Failure (Checked FootprintPlacement.postInit) := do
  let position ← pointAt payload "x_nm" "y_nm"
  let rotation ← integer payload "rotation_udeg"
  let side ← string payload "side"
  let locked ← boolean payload "locked"
  Checked.make (checking_onlyChecks FootprintPlacement.checks).stable
    ⟨componentId, position, rotation, side, locked⟩

def footprintPad (payload : Payload) : Except Failure (Checked FootprintPad.postInit) := do
  payloadKeys payload
    ["pad_id", "component_id", "pad_number", "center_x_nm", "center_y_nm", "size_x_nm", "size_y_nm",
      "shape", "rotation_udeg", "layers", "pad_drill_nm"]
    ["net_id", "locked", "drill_x_nm", "drill_y_nm", "drill_rotation_udeg", "shared_land_group_id"]
  let padId ← string payload "pad_id"
  let componentId ← string payload "component_id"
  let padNumber ← string payload "pad_number"
  let center ← pointAt payload "center_x_nm" "center_y_nm"
  let sizeX ← integer payload "size_x_nm"
  let sizeY ← integer payload "size_y_nm"
  let shape ← string payload "shape"
  let rotation ← integer payload "rotation_udeg"
  let layers ← stringTuple payload "layers"
  let padDrill ← integer payload "pad_drill_nm"
  let netId ← optionalString payload "net_id"
  let locked ← boolean payload "locked"
  let drillX ← integerOr payload "drill_x_nm" 0
  let drillY ← integerOr payload "drill_y_nm" 0
  let drillRotation ← integerOr payload "drill_rotation_udeg" 0
  let sharedLandGroupId ← optionalString payload "shared_land_group_id"
  Checked.make FootprintPad.postInit_stable
    ⟨padId, componentId, padNumber, center, sizeX, sizeY, shape, rotation, layers, padDrill, netId,
      locked, drillX, drillY, drillRotation, sharedLandGroupId⟩

def footprintHole (payload : Payload) : Except Failure (Checked FootprintHole.postInit) := do
  payloadKeys payload
    ["hole_id", "component_id", "center_x_nm", "center_y_nm", "diameter_nm", "plated"]
    ["pad_id", "locked", "drill_x_nm", "drill_y_nm", "drill_rotation_udeg"]
  let holeId ← string payload "hole_id"
  let componentId ← string payload "component_id"
  let center ← pointAt payload "center_x_nm" "center_y_nm"
  let diameter ← integer payload "diameter_nm"
  let plated ← boolean payload "plated"
  let padId ← optionalString payload "pad_id"
  let locked ← boolean payload "locked"
  let drillX ← integerOr payload "drill_x_nm" 0
  let drillY ← integerOr payload "drill_y_nm" 0
  let drillRotation ← integerOr payload "drill_rotation_udeg" 0
  Checked.make FootprintHole.postInit_stable
    ⟨holeId, componentId, center, diameter, plated, padId, locked, drillX, drillY, drillRotation⟩

def track (payload : Payload) : Except Failure (Checked Track.postInit) := do
  payloadKeys payload
    ["track_id", "net_id", "layer", "start_x_nm", "start_y_nm", "end_x_nm", "end_y_nm", "width_nm"]
    ["locked"]
  let trackId ← string payload "track_id"
  let netId ← string payload "net_id"
  let layer ← string payload "layer"
  let start ← pointAt payload "start_x_nm" "start_y_nm"
  let stop ← pointAt payload "end_x_nm" "end_y_nm"
  let width ← integer payload "width_nm"
  let locked ← boolean payload "locked"
  Checked.make Track.postInit_stable
    ⟨trackId, netId, layer, start, stop, width, locked⟩

def via (payload : Payload) : Except Failure (Checked Via.postInit) := do
  payloadKeys payload
    ["via_id", "net_id", "center_x_nm", "center_y_nm", "diameter_nm", "drill_nm", "layers"]
    ["locked"]
  let viaId ← string payload "via_id"
  let netId ← string payload "net_id"
  let center ← pointAt payload "center_x_nm" "center_y_nm"
  let diameter ← integer payload "diameter_nm"
  let drill ← integer payload "drill_nm"
  let layers ← stringTuple payload "layers"
  let locked ← boolean payload "locked"
  Checked.make Via.postInit_stable
    ⟨viaId, netId, center, diameter, drill, layers, locked⟩

def schematicWire (payload : Payload) : Except Failure (Checked SchematicWire.postInit) := do
  payloadKeys payload ["wire_id", "net_id", "vertices"] ["sheet_id", "locked"]
  let wireId ← string payload "wire_id"
  let netId ← string payload "net_id"
  let vertices ← points payload "vertices"
  let sheetId ← stringOr payload "sheet_id" "root"
  let locked ← boolean payload "locked"
  Checked.make SchematicWire.postInit_stable
    ⟨wireId, netId, vertices, sheetId, locked⟩

def schematicJunction (payload : Payload) :
    Except Failure (Checked SchematicJunction.postInit) := do
  payloadKeys payload ["junction_id", "net_id", "x_nm", "y_nm"] ["sheet_id", "locked"]
  let junctionId ← string payload "junction_id"
  let netId ← string payload "net_id"
  let position ← pointAt payload "x_nm" "y_nm"
  let sheetId ← stringOr payload "sheet_id" "root"
  let locked ← boolean payload "locked"
  Checked.make (checking_onlyChecks SchematicJunction.checks).stable
    ⟨junctionId, netId, position, sheetId, locked⟩

variable [Hashing]

def copperZone (payload : Payload) : Except Failure (Checked CopperZone.postInit) := do
  payloadKeys payload ["zone_id", "net_id", "layer", "outline", "clearance_nm"]
    ["min_thickness_nm", "priority", "locked"]
  let zoneId ← string payload "zone_id"
  let netId ← string payload "net_id"
  let layer ← string payload "layer"
  let outline ← points payload "outline"
  let clearance ← integer payload "clearance_nm"
  let minThickness ← integerOr payload "min_thickness_nm" 100000
  let priority ← integerOr payload "priority" 0
  let locked ← boolean payload "locked"
  Checked.make CopperZone.postInit_stable
    ⟨zoneId, netId, layer, outline, clearance, minThickness, priority, locked, .unfilledIntent,
      none⟩

/-! ### One command -/

/-- Append a record whose identifier is new. -/
def addNew {α : Type} {construct : α → Except Failure α} (key : α → String) (subject : String)
    (items : List (Checked construct)) (item : Checked construct) :
    Except Failure (List (Checked construct)) := do
  require (∀ other ∈ items, key other.val ≠ key item.val)
    (violation (subject ++ " " ++ key item.val ++ " already exists"))
  return items ++ [item]

def applyComponentAdd (g : DesignGraph) (payload : Payload) : Except Failure DesignGraph := do
  let item ← component payload
  require (∀ other ∈ g.components, other.val.componentId ≠ item.val.componentId)
    (violation ("component " ++ item.val.componentId ++ " already exists"))
  require (∀ other ∈ g.components, other.val.reference ≠ item.val.reference)
    (violation ("component reference " ++ item.val.reference ++ " already exists"))
  return { g with components := g.components ++ [item] }

def applyComponentRemove (g : DesignGraph) (payload : Payload) : Except Failure DesignGraph := do
  payloadKeys payload ["component_id"]
  let componentId ← string payload "component_id"
  require (∃ item ∈ g.components, item.val.componentId = componentId)
    (violation ("unknown component " ++ componentId))
  require (∀ net ∈ g.nets, ∀ member ∈ net.val.members, member.val.componentId ≠ componentId)
    (violation "disconnect a component from all nets before removal")
  require (∀ item ∈ g.placements.find? (fun item => item.val.componentId == componentId),
      item.val.locked = false)
    ⟨.lockedObject, "component " ++ componentId ++ " has a locked placement"⟩
  require ((∀ item ∈ g.pads, item.val.componentId = componentId → item.val.locked = false) ∧
      ∀ item ∈ g.holes, item.val.componentId = componentId → item.val.locked = false)
    ⟨.lockedObject, "component " ++ componentId ++ " has locked footprint geometry"⟩
  return { g with
    components := g.components.filter (fun item => item.val.componentId ≠ componentId)
    placements := g.placements.filter (fun item => item.val.componentId ≠ componentId)
    pads := g.pads.filter (fun item => item.val.componentId ≠ componentId)
    holes := g.holes.filter (fun item => item.val.componentId ≠ componentId) }

def applyNetCreate (g : DesignGraph) (payload : Payload) : Except Failure DesignGraph := do
  payloadKeys payload ["net_id", "name"]
  let netId ← string payload "net_id"
  let name ← string payload "name"
  require (∀ item ∈ g.nets, item.val.netId ≠ netId)
    (violation ("net " ++ netId ++ " already exists"))
  require (∀ item ∈ g.nets, item.val.name ≠ name)
    (violation ("net name " ++ name ++ " already exists"))
  let net : Checked Net.postInit ← Checked.make Net.postInit_stable
    ⟨netId, name, []⟩
  return { g with nets := g.nets ++ [net] }

/-- A pin that is not connected yet. -/
def requireUnconnected (g : DesignGraph) (netId : String) (member : Checked PinRef.postInit) :
    Except Failure Unit :=
  let pin := "pin " ++ member.val.componentId ++ ":" ++ member.val.pinNumber
  match g.nets.find? (fun net => member ∈ net.val.members) with
  | none => .ok ()
  | some existing =>
      if existing.val.netId = netId then .error ⟨.commandConflict, pin ++ " is already connected"⟩
      else .error (violation (pin ++ " already belongs to net " ++ existing.val.netId))

/-- Add a member to the net with the identifier. -/
def connectNet (netId : String) (member : Checked PinRef.postInit) (net : Checked Net.postInit) :
    Except Failure (Checked Net.postInit) :=
  if net.val.netId = netId then
    Checked.replace Net.postInit_stable
      (fun n => { n with members := n.members ++ [member] }) net
  else .ok net

def applyNetConnect (g : DesignGraph) (payload : Payload) : Except Failure DesignGraph := do
  payloadKeys payload ["net_id", "component_id", "pin_number"]
  let netId ← string payload "net_id"
  let member ← pinRef payload
  requireUnconnected g netId member
  let nets ← g.nets.mapM (connectNet netId member)
  require (netId ∈ g.netIds) (violation ("unknown net " ++ netId))
  return { g with nets := nets }

def applyFootprintPlace (g : DesignGraph) (payload : Payload) : Except Failure DesignGraph := do
  payloadKeys payload ["component_id", "x_nm", "y_nm", "rotation_udeg", "side"] ["locked"]
  let componentId ← string payload "component_id"
  require (∃ item ∈ g.components, item.val.componentId = componentId)
    (violation ("unknown component " ++ componentId))
  require (∀ item ∈ g.placements.find? (fun item => item.val.componentId == componentId),
      item.val.locked = false)
    ⟨.lockedObject, "placement for " ++ componentId ++ " is locked"⟩
  let placement ← footprintPlacement payload componentId
  return { g with
    placements := g.placements.filter (fun item => item.val.componentId ≠ componentId) ++
      [placement] }

def applyFootprintPadAdd (g : DesignGraph) (payload : Payload) : Except Failure DesignGraph := do
  let pad ← footprintPad payload
  require (pad.val.sharedLandGroupId = none)
    (violation "a shared land must be added atomically with footprint.pad_group.add")
  let pads ← addNew FootprintPad.padId "pad" g.pads pad
  return { g with pads := pads }

def applyFootprintPadGroupAdd (g : DesignGraph) (payload : Payload) :
    Except Failure DesignGraph := do
  payloadKeys payload ["shared_land_group_id", "pads"]
  let groupId ← string payload "shared_land_group_id"
  let malformed := violation "shared land pads must be an array of at least two exact pad objects"
  match Json.get? payload "pads" with
  | some (.arr rawPads) => do
      let objects := rawPads.filterMap asObject?
      require (2 ≤ rawPads.length ∧ objects.length = rawPads.length) malformed
      let pads ← objects.mapM footprintPad
      require (∀ pad ∈ pads, pad.val.sharedLandGroupId = some groupId)
        (violation "every shared land pad must bind the exact command group ID")
      require ((pads.map (·.val.padId)).Nodup ∧
          ∀ existing ∈ g.pads, existing.val.padId ∉ pads.map (·.val.padId))
        (violation "shared land physical pad IDs must be new and unique")
      return { g with pads := g.pads ++ pads }
  | _ => .error malformed

def applyFootprintHoleAdd (g : DesignGraph) (payload : Payload) : Except Failure DesignGraph := do
  let hole ← footprintHole payload
  let holes ← addNew FootprintHole.holeId "hole" g.holes hole
  return { g with holes := holes }

def applyTrackAdd (g : DesignGraph) (payload : Payload) : Except Failure DesignGraph := do
  let item ← track payload
  let tracks ← addNew Track.trackId "track" g.tracks item
  return { g with tracks := tracks }

def applyViaAdd (g : DesignGraph) (payload : Payload) : Except Failure DesignGraph := do
  let item ← via payload
  let vias ← addNew Via.viaId "via" g.vias item
  return { g with vias := vias }

def applyZoneAdd (g : DesignGraph) (payload : Payload) : Except Failure DesignGraph := do
  let zone ← copperZone payload
  let zones ← addNew CopperZone.zoneId "zone" g.zones zone
  return { g with zones := zones }

def applySchematicWireAdd (g : DesignGraph) (payload : Payload) : Except Failure DesignGraph := do
  let wire ← schematicWire payload
  let wires ← addNew SchematicWire.wireId "schematic wire" g.schematicWires wire
  return { g with schematicWires := wires }

def applySchematicJunctionAdd (g : DesignGraph) (payload : Payload) :
    Except Failure DesignGraph := do
  let junction ← schematicJunction payload
  let junctions ← addNew SchematicJunction.junctionId "schematic junction" g.schematicJunctions
    junction
  return { g with schematicJunctions := junctions }

def applyBoardSetOutline (g : DesignGraph) (payload : Payload) : Except Failure DesignGraph := do
  payloadKeys payload ["vertices"]
  let vertices ← points payload "vertices"
  return { g with boardOutline := vertices }

/-- `DesignKernel._apply` on a command's kind and payload. -/
def apply (g : DesignGraph) (kind : CommandKind) (payload : Payload) :
    Except Failure DesignGraph :=
  match kind with
  | .componentAdd => applyComponentAdd g payload
  | .componentRemove => applyComponentRemove g payload
  | .netCreate => applyNetCreate g payload
  | .netConnect => applyNetConnect g payload
  | .footprintPlace => applyFootprintPlace g payload
  | .footprintPadAdd => applyFootprintPadAdd g payload
  | .footprintPadGroupAdd => applyFootprintPadGroupAdd g payload
  | .footprintHoleAdd => applyFootprintHoleAdd g payload
  | .trackAdd => applyTrackAdd g payload
  | .viaAdd => applyViaAdd g payload
  | .zoneAdd => applyZoneAdd g payload
  | .schematicWireAdd => applySchematicWireAdd g payload
  | .schematicJunctionAdd => applySchematicJunctionAdd g payload
  | .boardSetOutline => applyBoardSetOutline g payload

end Records

end Evleda.Kernel
