/-
The evidence taken from a board that KiCad filled.

A filled board is read as one expression, and two things are taken from it.  One is a
digest of the whole expression in which the identifiers of hidden datasheet and
description properties, which KiCad writes anew whenever it saves, are replaced by the
place they stand at.  The other is the filled copper: every filled polygon of every
zone of the board, with its ring in one drawing.
-/
import Evleda.KicadIo.RoundTrips
import Evleda.Lib.Collections
import Evleda.Lib.Cyclic
import Evleda.Lib.Decimal
import Evleda.Lib.Hashing

namespace Evleda.ManufacturingCandidate

open KicadIo

/-- What the candidate's checks raise: an error of their own, an error of the reader, and the errors
of the interpreter that nothing catches. -/
inductive Failure
  | contractError (message : String)
  | kicad (failure : KicadIo.Failure)
  | assertionError
  | decimalOverflow
  | overflowError
  | valueError
  | invalidOperation

/-! ### Parts of an expression -/

/-- The classes of the characters of a lower-case UUID. -/
def uuidClasses : List (Char → Bool) :=
  let hex := Text.isLowerHex
  let dash := fun c : Char => c == '-'
  let version := fun c : Char => '1' ≤ c && c ≤ '5'
  let variety := fun c : Char => c ∈ ['8', '9', 'a', 'b']
  List.replicate 8 hex ++ [dash] ++ List.replicate 4 hex ++ [dash, version] ++
    List.replicate 3 hex ++ [dash, variety] ++ List.replicate 3 hex ++ [dash] ++
    List.replicate 12 hex

/-- `_UUID.fullmatch` -/
def isUuid (text : String) : Bool :=
  text.toList.length == uuidClasses.length &&
    (uuidClasses.zip text.toList).all (fun entry => entry.1 entry.2)

/-- The items of a list after the first. -/
def children : SExpr → List SExpr
  | .list items => items.tail
  | _ => []

/-- `_child` -/
def child (expression : SExpr) (name : String) : Option SExpr :=
  (children expression).find? (fun item => item.head == some name)

/-- `scalar_text` -/
def scalar (label : String) (expression : SExpr) : Except Failure String :=
  (expression.scalarText label).mapError .kicad

/-- `_scalar_child` -/
def scalarChild (expression : SExpr) (name : String) : Except Failure (Option String) :=
  match child expression name with
  | some (.list (_ :: value :: _)) => (scalar name value).map some
  | _ => .ok none

/-! ### Volatile identifiers -/

def volatileProperties : List String := ["Datasheet", "Description"]

/-- `_validate_volatile_property_value` -/
def validateVolatilePropertyValue (message value : String) : Except Failure Unit :=
  require (value.length ≤ 4096 ∧ value = Text.strip value ∧
      ∀ c ∈ value.toList, 32 ≤ c.toNat ∧ c.toNat ≠ 127)
    (.contractError message)

/-- The UUID of the footprint that an expression is or stands in. -/
def footprintOf (footprint : Option String) (expression : SExpr) :
    Except Failure (Option String) :=
  if expression.head = some "footprint" then do
    let uuid ← scalarChild expression "uuid"
    require (∃ text ∈ uuid, isUuid text)
      (.contractError "filled board footprint UUID is invalid")
    return uuid
  else .ok footprint

/-- The place of a property whose UUID is volatile: the footprint and the name. -/
def volatileIdentity (footprint : Option String) (expression : SExpr) :
    Except Failure (Option String) :=
  match expression with
  | .list (_ :: nameItem :: valueItem :: _) =>
      if expression.head = some "property" then do
        let name ← scalar "property name" nameItem
        let value ← scalar "property value" valueItem
        if name ∈ volatileProperties then
          match footprint with
          | none => .error (.contractError
              "volatile KiCad property UUID pattern has unexpected semantics")
          | some uuid => do
              validateVolatilePropertyValue "volatile KiCad property value is not canonical" value
              match child expression "hide" with
              | some (.list [_, mode]) => do
                  let text ← scalar "hide" mode
                  require (text = "yes") (.contractError
                    "volatile KiCad property UUID is not on a hidden property")
              | _ => .error (.contractError
                  "volatile KiCad property UUID is not on a hidden property")
              match (children expression).filter (fun item => item.head == some "uuid") with
              | [.list [_, identifier]] =>
                  require (∃ text ∈ (identifier.scalarText "").toOption, isUuid text)
                    (.contractError "volatile KiCad property UUID is invalid")
              | [_] => .error (.contractError "volatile KiCad property UUID is invalid")
              | _ => .error (.contractError
                  "volatile KiCad property must have exactly one UUID")
              return some (uuid ++ "/" ++ name)
        else return none
      else return none
  | _ => .ok none

/-- What stands in for a volatile UUID; walking it changes nothing. -/
def placeholder (identity : String) : SExpr :=
  node (word "uuid") [.quoted ("<volatile:" ++ identity ++ ">")]

mutual

/-- `walk`: the expression with its volatile UUIDs replaced, and their places. -/
def walk (footprint : Option String) : SExpr → Except Failure (SExpr × List String)
  | .list items => do
      let current ← footprintOf footprint (.list items)
      let identity ← volatileIdentity current (.list items)
      let (walked, paths) ← walkItems current identity items
      return (.list walked, identity.toList ++ paths)
  | expression => .ok (expression, [])

def walkItems (footprint identity : Option String) :
    List SExpr → Except Failure (List SExpr × List String)
  | [] => .ok ([], [])
  | item :: rest => do
      let (first, paths) ← match identity with
        | some place =>
            if item.head = some "uuid" then .ok (placeholder place, []) else walk footprint item
        | none => walk footprint item
      let (walked, others) ← walkItems footprint identity rest
      return (first :: walked, paths ++ others)

end

/-- `_normalize_volatile_property_uuids` -/
def normalizeVolatilePropertyUuids (root : SExpr) : Except Failure (SExpr × List String) := do
  let (normalized, paths) ← walk none root
  require paths.Nodup (.contractError "volatile KiCad property identities are not unique")
  return (normalized, sortBy id paths)

/-! ### Filled copper -/

/-- A point in nanometres, compared as the pair of its coordinates. -/
abbrev Vertex := Int ×ₗ Int

def vertexJson (vertex : Vertex) : Json := .arr [.int (ofLex vertex).1, .int (ofLex vertex).2]

/-- An integer that the interpreter converts to text. -/
def Writable (n : Int) : Prop := n.natAbs < 10 ^ 4300

instance (n : Int) : Decidable (Writable n) := inferInstanceAs (Decidable (_ < _))

section Numbers

variable [DecimalDigits]

/-- `_millimetres_to_nm` -/
def millimetresToNm (value : SExpr) : Except Failure Int := do
  let text ← scalar "coordinate" value
  match Numeral.construct text with
  | none => .error (.contractError "filled polygon coordinate is invalid")
  | some (.nan _ true _) => .error (.contractError "filled polygon coordinate is invalid")
  | some (.nan _ false _) => .error (.contractError
      "filled polygon has sub-nanometre coordinate precision")
  | some (.infinity _) => .error .overflowError
  | some (.finite number) =>
      match Numeral.defaultContext.multiply number (Decimal.ofInt 1000000) with
      | none => .error .decimalOverflow
      | some scaled => do
          require (scaled.value = scaled.toIntegral.value)
            (.contractError "filled polygon has sub-nanometre coordinate precision")
          return scaled.toIntegral.toInt

/-- The vertices of a ring as it is drawn; a last vertex that closes it does not count. -/
def openRing (points : List Vertex) : List Vertex :=
  if 1 < points.length ∧ points.head? = points.getLast? then points.dropLast else points

/-- `_normalize_ring` -/
def normalizeRing (points : List Vertex) : Except Failure (List Vertex) := do
  let values := openRing points
  require (3 ≤ values.length)
    (.contractError "filled polygon has fewer than three vertices")
  return Cyclic.least values

def polygonPoint (item : SExpr) : Except Failure Vertex :=
  match item with
  | .list [_, x, y] =>
      if item.head = some "xy" then do
        let xNm ← millimetresToNm x
        let yNm ← millimetresToNm y
        return toLex (xNm, yNm)
      else .error (.contractError "filled polygon contains a non-vertex primitive")
  | _ => .error (.contractError "filled polygon contains a non-vertex primitive")

/-- `_polygon_points` -/
def polygonPoints (expression : SExpr) : Except Failure (List Vertex) :=
  match child expression "pts" with
  | none => .error (.contractError "filled polygon is missing points")
  | some points => do
      let vertices ← (children points).mapM polygonPoint
      normalizeRing vertices

/-- The cross product of two vertices. -/
def cross (first second : Vertex) : Int :=
  (ofLex first).1 * (ofLex second).2 - (ofLex second).1 * (ofLex first).2

/-- `_area2` -/
def area2 (points : List Vertex) : Int :=
  |((points.zip (points.drop 1 ++ points.take 1)).map fun pair => cross pair.1 pair.2).sum|

end Numbers

/-- Evidence of one filled polygon. -/
structure FilledPolygonEvidence where
  zoneUuid : String
  netName : String
  zoneLayer : String
  fillLayer : String
  island : Bool
  verticesNm : List Vertex
  area2Nm2 : Int
  geometrySha256 : String
  three : 3 ≤ verticesNm.length
  positive : 0 < area2Nm2

namespace FilledPolygonEvidence

/-- What evidence is compared by. -/
def key (e : FilledPolygonEvidence) :
    String ×ₗ String ×ₗ String ×ₗ String ×ₗ Bool ×ₗ List Vertex ×ₗ Int ×ₗ String :=
  toLex (e.zoneUuid, toLex (e.netName, toLex (e.zoneLayer, toLex (e.fillLayer, toLex (e.island,
    toLex (e.verticesNm, toLex (e.area2Nm2, e.geometrySha256)))))))

/-- Evidence without its digest, as JSON. -/
def payload (e : FilledPolygonEvidence) : List (String × Json) := [
  ("zone_uuid", .str e.zoneUuid),
  ("net_name", .str e.netName),
  ("zone_layer", .str e.zoneLayer),
  ("fill_layer", .str e.fillLayer),
  ("island", .bool e.island),
  ("vertices_nm", .arr (e.verticesNm.map vertexJson)),
  ("area2_nm2", .int e.area2Nm2)]

def json (e : FilledPolygonEvidence) : Json :=
  Json.object (e.payload ++ [("geometry_sha256", .str e.geometrySha256)])

theorem key_injective : Function.Injective key := by
  intro e e' h
  simp only [key, toLex_inj, Prod.mk.injEq] at h
  obtain ⟨huuid, hnet, hzone, hfill, hisland, hvertices, harea, hdigest⟩ := h
  cases e
  cases e'
  simp_all

end FilledPolygonEvidence

section Evidence

variable [Hashing]

/-- The constructor, with the digest of what it is given. -/
def FilledPolygonEvidence.make (zoneUuid netName zoneLayer fillLayer : String) (island : Bool)
    (vertices : List Vertex) (area : Int) : Except Failure FilledPolygonEvidence := do
  require (∀ vertex ∈ vertices, Writable (ofLex vertex).1 ∧ Writable (ofLex vertex).2) .valueError
  require (Writable area) .valueError
  require (zoneUuid ≠ "") (.contractError "filled polygon zone UUID must be non-empty exact text")
  require (netName ≠ "") (.contractError "filled polygon net must be non-empty exact text")
  require (zoneLayer ≠ "") (.contractError
    "filled polygon zone layer must be non-empty exact text")
  require (fillLayer ≠ "") (.contractError "filled polygon layer must be non-empty exact text")
  require (isUuid zoneUuid) (.contractError "filled polygon zone UUID is invalid")
  if hthree : 3 ≤ vertices.length then
    if hpositive : 0 < area then
      let unsigned : FilledPolygonEvidence :=
        ⟨zoneUuid, netName, zoneLayer, fillLayer, island, vertices, area, "", hthree, hpositive⟩
      let digest := Hashing.inDomain "kicad-filled-copper-polygon-v1" (Json.object unsigned.payload)
      require (Text.isSha256 digest)
        (.contractError "filled polygon geometry hash is invalid")
      return { unsigned with geometrySha256 := digest }
    else .error (.contractError "filled polygon doubled area must be positive")
  else .error (.contractError "filled polygon needs at least three exact vertices")

variable [DecimalDigits]

/-- `_filled_polygons`, for one polygon of a zone. -/
def filledPolygon (zoneUuid netName zoneLayer : String) (item : SExpr) :
    Except Failure FilledPolygonEvidence := do
  let fillLayer ← scalarChild item "layer"
  require (fillLayer = some zoneLayer)
    (.contractError "filled polygon layer disagrees with zone layer")
  let vertices ← polygonPoints item
  let area := area2 vertices
  require (0 < area) (.contractError "filled polygon has zero exact doubled area")
  FilledPolygonEvidence.make zoneUuid netName zoneLayer zoneLayer (child item "island").isSome
    vertices area

/-- `_filled_polygons`, for one zone. -/
def zonePolygons (zone : SExpr) : Except Failure (List FilledPolygonEvidence) := do
  let zoneUuid ← scalarChild zone "uuid"
  let netName ← scalarChild zone "net"
  let zoneLayer ← scalarChild zone "layer"
  match zoneUuid, netName, zoneLayer with
  | some zoneUuid, some netName, some zoneLayer => do
      require (isUuid zoneUuid)
        (.contractError "filled zone identity/net/layer is invalid")
      require ((children zone).all (fun item => item.head != some "fill_segments"))
        (.contractError "filled-board normalizer does not flatten fill_segments geometry")
      let polygons := (children zone).filter (fun item => item.head == some "filled_polygon")
      require (polygons ≠ [])
        (.contractError "zone has no source-verified filled polygon")
      polygons.mapM (filledPolygon zoneUuid netName zoneLayer)
  | _, _, _ => .error (.contractError "filled zone identity/net/layer is invalid")

def zonesOf (root : SExpr) : List SExpr :=
  (children root).filter (fun item => item.head == some "zone")

/-- `_filled_polygons` -/
def filledPolygons (root : SExpr) : Except Failure (Nat × List FilledPolygonEvidence) := do
  require (root.head = some "kicad_pcb")
    (.contractError "filled board must be a KiCad PCB S-expression")
  let polygons ← (zonesOf root).mapM zonePolygons
  return ((zonesOf root).length, sortBy FilledPolygonEvidence.key polygons.flatten)

/-! ### The evidence -/

/-- Evidence of a filled board. -/
structure FilledBoardSemanticEvidence where
  rawBoardSha256 : String
  normalizedSemanticSha256 : String
  volatilePropertyUuidCount : Nat
  volatilePropertyPathsSha256 : String
  zoneCount : Nat
  filledPolygonCount : Nat
  filledVertexCount : Nat
  filledArea2Nm2 : Int
  filledCopperGeometrySha256 : String
  filledPolygons : List FilledPolygonEvidence

/-- What the evidence says of the polygons. -/
structure FilledCopper where
  zoneCount : Nat
  filledPolygonCount : Nat
  filledVertexCount : Nat
  filledArea2Nm2 : Int
  filledCopperGeometrySha256 : String
  filledPolygons : List FilledPolygonEvidence

/-- The copper of a number of zones with these polygons. -/
def copperOf (zoneCount : Nat) (polygons : List FilledPolygonEvidence) : FilledCopper where
  zoneCount := zoneCount
  filledPolygonCount := polygons.length
  filledVertexCount := (polygons.map (·.verticesNm.length)).sum
  filledArea2Nm2 := (polygons.map (·.area2Nm2)).sum
  filledCopperGeometrySha256 := Hashing.inDomain "kicad-filled-copper-geometry-v1"
    (.arr (polygons.map FilledPolygonEvidence.json))
  filledPolygons := polygons

/-- The digest of a whole board. -/
def semanticSha256 (normalized : SExpr) : String :=
  Hashing.inDomain "kicad-filled-board-semantic-v1"
    (.str (String.ofList (canonicalText normalized)))

/-- `hashlib.sha256(payload)`, for a payload that is text. -/
def rawSha256 (payload : ByteArray) : String :=
  Hashing.sha256 ((String.fromUTF8? payload).elim [] String.toList)

/-- `analyze_filled_board`, once the board is read. -/
def analyzeRoot (raw : String) (root : SExpr) : Except Failure FilledBoardSemanticEvidence := do
  let (normalized, paths) ← normalizeVolatilePropertyUuids root
  let (zoneCount, polygons) ← filledPolygons root
  let copper := copperOf zoneCount polygons
  let pathsSha := Hashing.inDomain "kicad-volatile-property-paths-v1" (.arr (paths.map .str))
  require (Text.isSha256 raw) (.contractError "raw filled-board hash is invalid")
  require (Text.isSha256 (semanticSha256 normalized))
    (.contractError "filled-board semantic hash is invalid")
  require (Text.isSha256 pathsSha) (.contractError "volatile-property path hash is invalid")
  require (Text.isSha256 copper.filledCopperGeometrySha256)
    (.contractError "filled-copper geometry hash is invalid")
  return {
    rawBoardSha256 := raw
    normalizedSemanticSha256 := semanticSha256 normalized
    volatilePropertyUuidCount := paths.length
    volatilePropertyPathsSha256 := pathsSha
    zoneCount := copper.zoneCount
    filledPolygonCount := copper.filledPolygonCount
    filledVertexCount := copper.filledVertexCount
    filledArea2Nm2 := copper.filledArea2Nm2
    filledCopperGeometrySha256 := copper.filledCopperGeometrySha256
    filledPolygons := copper.filledPolygons }

/-- `analyze_filled_board` -/
def analyzeFilledBoard (payload : ByteArray) : Except Failure FilledBoardSemanticEvidence := do
  require (payload.size ≠ 0) (.contractError "filled board must be non-empty exact bytes")
  let root ← (parse defaultLimits payload).mapError .kicad
  analyzeRoot (rawSha256 payload) root

end Evidence

end Evleda.ManufacturingCandidate
