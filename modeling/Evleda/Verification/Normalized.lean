/-
The canonical order of a board.

Collections are sorted by identifier, sets of layers and of features lose their
repetitions, a track starts at its lesser end, and an outline is the least of its drawings.
-/
import Evleda.Verification.Model
import Mathlib.Data.List.Lex
import Mathlib.Data.Prod.Lex
import Mathlib.Data.String.Basic

namespace Evleda.Verification

/-- Points are ordered by `x`, then by `y`. -/
instance : LinearOrder PointNm :=
  LinearOrder.lift' (fun p => toLex (p.x, p.y)) fun p q h => by
    have hpair : (p.x, p.y) = (q.x, q.y) := toLex.injective h
    exact Plane.Point.ext (congrArg Prod.fst hpair) (congrArg Prod.snd hpair)

/-- `tuple(sorted(set(values)))` -/
def sortedSet (values : List String) : List String := sortBy id values.dedup

theorem mem_sortedSet {values : List String} {value : String} :
    value ∈ sortedSet values ↔ value ∈ values := by
  unfold sortedSet
  rw [mem_sortBy, List.mem_dedup]

/-! ### Records -/

def Pin.normalized (pin : Pin) : Pin := { pin with layers := sortedSet pin.layers }

def Component.normalized (component : Component) : Component :=
  { component with pins := sortBy (·.number) (component.pins.map Pin.normalized) }

def Net.normalized (net : Net) : Net :=
  { net with connections := sortBy (fun c => toLex (c.componentId, c.pinNumber)) net.connections }

def Track.normalized (track : Track) : Track :=
  if track.finish < track.start then { track with start := track.finish, finish := track.start }
  else track

def Via.normalized (via : Via) : Via := { via with layers := sortedSet via.layers }

def PhysicalPad.normalized (pad : PhysicalPad) : PhysicalPad :=
  { pad with layers := sortedSet pad.layers }

/-! ### Outlines -/

def rotations (points : List PointNm) : List (List PointNm) :=
  (List.range points.length).map fun index => points.drop index ++ points.take index

def BoardOutline.normalized (outline : BoardOutline) : BoardOutline :=
  let vertices := outline.vertices
  let vertices :=
    if 1 < vertices.length ∧ vertices.head? = vertices.getLast? then vertices.dropLast else vertices
  ⟨((rotations vertices ++ rotations vertices.reverse).min?).getD []⟩

def Zone.normalized (zone : Zone) : Zone := { zone with outline := zone.outline.normalized }

/-! ### Boards -/

/-- `BoardGraph.normalized`: the ordering used by hashes and evaluators -/
def BoardGraph.normalized (board : BoardGraph) : BoardGraph :=
  { board with
    layers := sortedSet board.layers
    outline := board.outline.normalized
    components := sortBy (·.componentId) (board.components.map Component.normalized)
    nets := sortBy (·.netId) (board.nets.map Net.normalized)
    tracks := sortBy (·.trackId) (board.tracks.map Track.normalized)
    vias := sortBy (·.viaId) (board.vias.map Via.normalized)
    unsupportedFeatures := sortedSet board.unsupportedFeatures
    zones := sortBy (·.zoneId) (board.zones.map Zone.normalized)
    holes := sortBy (·.holeId) board.holes
    pads := sortBy (·.padId) (board.pads.map PhysicalPad.normalized) }

end Evleda.Verification
