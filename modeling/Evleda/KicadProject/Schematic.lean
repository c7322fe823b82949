/-
Single-sheet schematics, and the nets they spell out.

A schematic is a list of symbols with pins, wires, junctions, labels and
no-connect markers, each at exact points of the sheet.  What is connected is never
written down: it follows from items being at one point, from wires, and from labels
of one name.  The resolver works it out with disjoint sets over the points, and
refuses whatever it would have to guess.

Coordinates are integers, so a crossing is a matter of signs.
-/
import Evleda.Lib.Collections
import Evleda.Lib.DisjointSet
import Evleda.Lib.Hashing
import Evleda.Lib.Outcome
import Evleda.Lib.Text
import Mathlib.Data.List.Dedup
import Mathlib.Data.Prod.Lex
import Mathlib.Data.Int.Order.Basic

namespace Evleda.KicadProject

/-- The message of a `ProjectInvariantError`. -/
abbrev Invariant := String

/-- `str.casefold` -/
class CaseFolding where
  casefold : String → String

/-! ### Items of a sheet -/

structure PointNm where
  x : Int
  y : Int
  deriving DecidableEq, Repr

/-- Points are ordered by `x`, then by `y`. -/
def PointNm.key (p : PointNm) : Int ×ₗ Int := toLex (p.x, p.y)

structure SchematicPin where
  pinId : String
  number : String
  position : PointNm
  deriving DecidableEq, Repr

structure SchematicSymbol where
  symbolId : String
  pins : List SchematicPin
  deriving DecidableEq, Repr

structure SchematicWire where
  wireId : String
  start : PointNm
  finish : PointNm
  nonzero : start ≠ finish
  deriving DecidableEq

structure SchematicJunction where
  junctionId : String
  position : PointNm
  deriving DecidableEq, Repr

structure SchematicLabel where
  labelId : String
  name : String
  position : PointNm
  deriving DecidableEq, Repr

structure SchematicNoConnect where
  markerId : String
  position : PointNm
  deriving DecidableEq, Repr

structure SchematicPinRef where
  symbolId : String
  pinId : String
  pinNumber : String
  deriving DecidableEq, Repr

def SchematicPinRef.key (ref : SchematicPinRef) : String ×ₗ String ×ₗ String :=
  toLex (ref.symbolId, toLex (ref.pinId, ref.pinNumber))

def SchematicPinRef.json (ref : SchematicPinRef) : Json :=
  .object [("symbol_id", .str ref.symbolId), ("pin_id", .str ref.pinId),
    ("pin_number", .str ref.pinNumber)]

/-- One net: its items in the order of their identifiers, and evidence that something is connected. -/
structure SchematicNet where
  netId : String
  name : Option String
  wireIds : List String
  junctionIds : List String
  labelIds : List String
  pinRefs : List SchematicPinRef
  wiresIncrease : wireIds.Pairwise (· < ·)
  junctionsIncrease : junctionIds.Pairwise (· < ·)
  labelsIncrease : labelIds.Pairwise (· < ·)
  pinsIncrease : pinRefs.Pairwise (fun a b => a.key < b.key)
  evidence : wireIds ≠ [] ∨ labelIds ≠ [] ∨ 2 ≤ pinRefs.length
  deriving DecidableEq

/-- The items that connectivity depends on. -/
structure Drawing where
  symbols : List SchematicSymbol := []
  wires : List SchematicWire := []
  junctions : List SchematicJunction := []
  labels : List SchematicLabel := []
  noConnects : List SchematicNoConnect := []

/-! ### Crossings -/

/-- On which side of the line through two points a third one is. -/
def orientation (a b c : PointNm) : Int :=
  ((b.x - a.x) * (c.y - a.y) - (b.y - a.y) * (c.x - a.x)).sign

def onSegment (a b point : PointNm) : Bool :=
  orientation a b point = 0 ∧ min a.x b.x ≤ point.x ∧ point.x ≤ max a.x b.x ∧
    min a.y b.y ≤ point.y ∧ point.y ≤ max a.y b.y

def segmentsIntersect (first second : SchematicWire) : Bool :=
  let a := first.start
  let b := first.finish
  let c := second.start
  let d := second.finish
  let abc := orientation a b c
  let abd := orientation a b d
  let cda := orientation c d a
  let cdb := orientation c d b
  if abc ≠ abd ∧ cda ≠ cdb then true
  else (abc = 0 ∧ onSegment a b c) || (abd = 0 ∧ onSegment a b d) ||
    (cda = 0 ∧ onSegment c d a) || (cdb = 0 ∧ onSegment c d b)

/-- Two wires end at one point. -/
def sharesEnd (first second : SchematicWire) : Bool :=
  first.start = second.start ∨ first.start = second.finish ∨ first.finish = second.start ∨
    first.finish = second.finish

/-- Two wires meet otherwise than in their ends. -/
def crosses (first second : SchematicWire) : Bool :=
  segmentsIntersect first second && !sharesEnd first second

namespace Drawing

variable (d : Drawing)

/-! ### What is at a point -/

def pins : List (SchematicPinRef × PointNm) :=
  d.symbols.flatMap fun symbol => symbol.pins.map fun pin =>
    (⟨symbol.symbolId, pin.pinId, pin.number⟩, pin.position)

def orderedPoints : List PointNm :=
  sortBy PointNm.key (d.wires.map (·.start) ++ d.wires.map (·.finish) ++
    d.junctions.map (·.position) ++ d.labels.map (·.position) ++ d.noConnects.map (·.position) ++
    d.pins.map (·.2)).dedup

def pointIndex (point : PointNm) : Nat := d.orderedPoints.idxOf point

/-- The identifiers of the wires that end at a point. -/
def incident (point : PointNm) : List String :=
  ((d.wires.filter fun wire => wire.start = point ∨ wire.finish = point).map (·.wireId)).dedup

def pinsAt (point : PointNm) : List SchematicPinRef :=
  (d.pins.filter fun pin => pin.2 = point).map (·.1)

/-! ### What is refused -/

def checkCrossings : Except Invariant Unit :=
  require (d.wires.Pairwise fun first second => crosses first second = false)
    ("wire crossings, overlaps, and mid-segment joins must be explicitly split " ++
      "into endpoint segments before deterministic connectivity import")

def checkJunctions : Except Invariant Unit := do
  require (d.junctions.map (·.position)).Nodup "junction positions must be unique"
  d.junctions.forM fun junction =>
    require (2 ≤ (d.incident junction.position).length)
      "junctions must coincide with at least two wire endpoints"
  (d.wires.map (·.start) ++ d.wires.map (·.finish)).forM fun point =>
    require (3 ≤ (d.incident point).length → point ∈ d.junctions.map (·.position))
      "three-or-more-way wire joins require an explicit junction marker"

def checkLabels : Except Invariant Unit :=
  d.labels.forM fun label =>
    require (d.incident label.position ≠ [] ∨ d.pinsAt label.position ≠ [])
      "labels must anchor to a wire endpoint or symbol pin"

/-- The markers, after some at other points. -/
def checkMarkers : List PointNm → List SchematicNoConnect → Except Invariant Unit
  | _, [] => return ()
  | seen, marker :: rest => do
      require (marker.position ∉ seen) "no-connect marker positions must be unique"
      require ((d.pinsAt marker.position).length = 1)
        "no-connect marker must coincide with exactly one symbol pin"
      require (d.incident marker.position = [] ∧ marker.position ∉ d.labels.map (·.position) ∧
          marker.position ∉ d.junctions.map (·.position))
        "no-connect marker cannot share electrical connectivity"
      checkMarkers (seen ++ [marker.position]) rest

/-! ### Groups of points -/

def joinedByWires : DisjointSet :=
  d.wires.foldl (fun ds wire => ds.union (d.pointIndex wire.start) (d.pointIndex wire.finish))
    .init

/-- A label is joined to the first one of its name. -/
def joinLabel (state : Dict String PointNm × DisjointSet) (label : SchematicLabel) :
    Dict String PointNm × DisjointSet :=
  match state.1 label.name with
  | some first => (state.1, state.2.union (d.pointIndex first) (d.pointIndex label.position))
  | none => (state.1.set label.name label.position, state.2)

def joined : DisjointSet :=
  ((sortBy (·.labelId) d.labels).foldl d.joinLabel (Dict.empty, d.joinedByWires)).2

def addPoint (root : Nat) (point : PointNm) : List (Nat × List PointNm) → List (Nat × List PointNm)
  | [] => [(root, [point])]
  | (root', points) :: rest =>
      if root' = root then (root', points ++ [point]) :: rest
      else (root', points) :: addPoint root point rest

/-- The points, class by class. -/
def groups : List (Nat × List PointNm) :=
  (d.orderedPoints.foldl (fun (state : DisjointSet × List (Nat × List PointNm)) point =>
    let (root, ds) := state.1.find (d.pointIndex point)
    (ds, addPoint root point state.2)) (d.joined, [])).2

end Drawing

/-! ### Nets -/

section Nets

variable [Hashing] [UnicodeData] [CaseFolding]

/-- `re.sub(r"[^a-z0-9]+", "-", text)` -/
def dashed : List Char → List Char
  | [] => []
  | c :: rest =>
      let kept := fun c : Char => ('a' ≤ c && c ≤ 'z') || ('0' ≤ c && c ≤ '9')
      if kept c then c :: dashed rest
      else match dashed rest with
        | '-' :: tail => '-' :: tail
        | tail => '-' :: tail

/-- `canonical_net_id` -/
def canonicalNetId (name : String) : String :=
  let normalized := UnicodeData.nfc name
  let stripped := ((dashed (CaseFolding.casefold normalized).toList).dropWhile (· = '-')).rdropWhile
    (· = '-')
  let slug := if stripped.take 24 = [] then "named" else String.ofList (stripped.take 24)
  "net-" ++ slug ++ "-" ++
    String.ofList ((Hashing.sha256 normalized.toList).toList.take 16)

/-- The identity of a net: of its name, or of its items if it has none. -/
def netIdentity (name : Option String) (wireIds junctionIds : List String)
    (pinRefs : List SchematicPinRef) : String :=
  match name with
  | some name => canonicalNetId name
  | none =>
      let digest := Hashing.inDomain "flux-clone-kicad-unnamed-schematic-net-v1" (.object
        [("wire_ids", .arr (wireIds.map .str)), ("junction_ids", .arr (junctionIds.map .str)),
          ("pin_refs", .arr (pinRefs.map SchematicPinRef.json))])
      "net-unnamed-" ++ String.ofList (digest.toList.take 16)

omit [Hashing] [UnicodeData] [CaseFolding] in
/-- The constructor of `SchematicNet`. -/
def SchematicNet.make (netId : String) (name : Option String)
    (wireIds junctionIds labelIds : List String) (pinRefs : List SchematicPinRef) :
    Except Invariant SchematicNet :=
  if hwires : wireIds.Pairwise (· < ·) then
    if hjunctions : junctionIds.Pairwise (· < ·) then
      if hlabels : labelIds.Pairwise (· < ·) then
        if hpins : pinRefs.Pairwise (fun a b => a.key < b.key) then
          if hevidence : wireIds ≠ [] ∨ labelIds ≠ [] ∨ 2 ≤ pinRefs.length then
            .ok ⟨netId, name, wireIds, junctionIds, labelIds, pinRefs, hwires, hjunctions, hlabels,
              hpins, hevidence⟩
          else .error "a modeled net requires connectivity evidence"
        else .error "net pin refs must be sorted and unique"
      else .error "label IDs must be sorted and unique"
    else .error "junction IDs must be sorted and unique"
  else .error "wire IDs must be sorted and unique"

/-- The net of a group of points, unless there is nothing to it. -/
def Drawing.groupNet (d : Drawing) (points : List PointNm) :
    Except Invariant (Option SchematicNet) :=
  if ∃ marker ∈ d.noConnects, marker.position ∈ points then .ok none
  else
    let wireIds := sortBy id ((d.wires.filter fun wire =>
      wire.start ∈ points ∨ wire.finish ∈ points).map (·.wireId))
    let groupLabels := sortBy (·.labelId) (d.labels.filter fun label => label.position ∈ points)
    let pinRefs := sortBy SchematicPinRef.key (points.flatMap d.pinsAt)
    if wireIds = [] ∧ groupLabels = [] ∧ pinRefs.length < 2 then .ok none
    else do
      let names := (groupLabels.map (·.name)).dedup
      require (names.length ≤ 1)
        "one connected schematic component cannot carry conflicting net labels"
      let name := names.head?
      let junctionIds := sortBy id ((d.junctions.filter fun junction =>
        junction.position ∈ points).map (·.junctionId))
      let net ← SchematicNet.make (netIdentity name wireIds junctionIds pinRefs) name wireIds
        junctionIds (groupLabels.map (·.labelId)) pinRefs
      return some net

/-- `_resolve_nets` -/
def resolveNets (d : Drawing) : Except Invariant (List SchematicNet) := do
  d.checkCrossings
  d.checkJunctions
  d.checkLabels
  d.checkMarkers [] d.noConnects
  let nets ← d.groups.mapM fun group => d.groupNet group.2
  let nets := nets.reduceOption
  require (nets.map (·.netId)).Nodup "resolved schematic net IDs must be unique"
  return sortBy (·.netId) nets

end Nets

end Evleda.KicadProject
