/-
The parts of a wire.

KiCad connects wires at their ends only, so the compiler cuts every segment of a wire at
the junctions of its net that lie on it.  The cuts are sorted along the segment by an
integer product, whichever way the segment points, and every cut is written once, whether
it is an end of the segment, a junction or several of these.

A cut is the end of two parts or of one, and nothing else is: the parts of a segment are
the segment, from its one end to the other.
-/
import Evleda.Kernel.History
import Evleda.KicadCompile.Segments
import Evleda.Lib.Pieces

namespace Evleda.KicadCompile

open Outcome

open Kernel (DesignGraph Failure SchematicWire found segments)

/-! ### Identifiers -/

/-- `str(uuid.uuid5(_UUID_NAMESPACE, text))` -/
class NameUuids where
  uuid5 : String → String

def compilerId : String := "flux-clone-canonical-kicad-compiler"

def genericUuidPolicyVersion : String := "3.0.0"

/-- `_uuid` -/
def uuid [NameUuids] (kind : String) (parts : List String) : String :=
  NameUuids.uuid5 ("\x1f".intercalate ([compilerId, genericUuidPolicyVersion, kind] ++ parts))

/-! ### Cutting a segment -/

def sortKey (start finish point : DesignPoint) : Int :=
  (point.x - start.x) * (finish.x - start.x) + (point.y - start.y) * (finish.y - start.y)

/-- The points a segment is cut at, in order; the set `{start, *inner, end}` has no point twice. -/
def ordered (junctions : List DesignPoint) (start finish : DesignPoint) : List DesignPoint :=
  let inner := junctions.filter fun point =>
    point ∉ [start, finish] ∧ pointOnSegment point start finish
  sortBy (sortKey start finish) (start :: (inner ++ [finish])).dedup

def onPlane (p : DesignPoint) : Plane.Point ℝ := p.grid.toReal

theorem onPlane_injective : Function.Injective onPlane :=
  Plane.Point.toReal_injective.comp Kernel.PointNm.grid_injective

variable {start finish p : DesignPoint} {junctions : List DesignPoint}

theorem pointOnSegment_iff : pointOnSegment p start finish = true ↔
    onPlane p ∈ Plane.segment (onPlane start) (onPlane finish) :=
  Kernel.pointOnSegment_iff_trace

theorem sortKey_reach (start finish p : DesignPoint) :
    Plane.reach (onPlane start) (onPlane finish) (onPlane p) = (sortKey start finish p : ℝ) := by
  unfold Plane.reach sortKey onPlane Plane.Point.toReal Kernel.PointNm.grid
  push_cast
  rfl

theorem mem_ordered : p ∈ ordered junctions start finish ↔
    p = start ∨ p = finish ∨ (p ∈ junctions ∧ pointOnSegment p start finish = true) := by
  unfold ordered
  rw [mem_sortBy, List.mem_dedup]
  simp only [List.mem_cons, List.mem_append, List.mem_filter, decide_eq_true_eq, List.not_mem_nil,
    or_false]
  tauto

theorem ordered_on : ∀ p ∈ ordered junctions start finish,
    onPlane p ∈ Plane.segment (onPlane start) (onPlane finish) := by
  intro p hp
  rcases mem_ordered.mp hp with rfl | rfl | ⟨-, hon⟩
  · exact Plane.left_mem_segment _ _
  · exact Plane.right_mem_segment _ _
  · exact pointOnSegment_iff.mp hon

theorem ordered_nodup : (ordered junctions start finish).Nodup :=
  (sortBy_perm _).nodup_iff.mpr (List.nodup_dedup _)

/-- **The cuts divide the segment.** -/
theorem ordered_divides (hne : start ≠ finish) :
    Plane.Divides (onPlane start) (onPlane finish)
      ((segments (ordered junctions start finish)).map (Prod.map onPlane onPlane)) := by
  have hsorted : ((ordered junctions start finish).map onPlane).Pairwise fun p q =>
      Plane.reach (onPlane start) (onPlane finish) p ≤
        Plane.reach (onPlane start) (onPlane finish) q := by
    rw [List.pairwise_map]
    refine (sortBy_sorted _).imp ?_
    intro p q hle
    rw [sortKey_reach, sortKey_reach]
    exact Int.cast_le.mpr hle
  have hdivides := Plane.divides_of_sorted (onPlane_injective.ne hne)
    (List.forall_mem_map.mpr ordered_on)
    (List.mem_map_of_mem (mem_ordered.mpr (Or.inl rfl)))
    (List.mem_map_of_mem (mem_ordered.mpr (Or.inr (Or.inl rfl))))
    (ordered_nodup.map onPlane_injective) hsorted
  rw [pieces_map] at hdivides
  exact hdivides

theorem exists_part (hne : start ≠ finish) (hp : p ∈ ordered junctions start finish) :
    ∃ part ∈ segments (ordered junctions start finish), p = part.1 ∨ p = part.2 := by
  refine exists_end ?_ hp
  have hsub : [start, finish] ⊆ ordered junctions start finish := by
    intro q hq
    rw [List.mem_cons, List.mem_singleton] at hq
    exact mem_ordered.mpr (hq.imp id Or.inl)
  exact (List.subperm_of_subset (by simpa using hne) hsub).length_le

/-! ### The parts of a wire -/

section Wires

variable [UnicodeData] [Hashing]

def junctionsOf (graph : DesignGraph) (netId : String) : List DesignPoint :=
  (graph.schematicJunctions.filter (·.val.netId = netId)).map (·.val.position)

def junctionsByNet (graph : DesignGraph) : Dict String (List DesignPoint) :=
  Dict.empty.update (graph.nets.map fun net => (net.val.netId, junctionsOf graph net.val.netId))

/-- A part of a wire, with its identifier. -/
abbrev Part := String × DesignPoint × DesignPoint

variable [NameUuids]

/-- The pairs of points that a segment of a wire is cut into. -/
def cutsOf (graph : DesignGraph) (netId : String) (segment : DesignPoint × DesignPoint) :
    Except Failure (List (DesignPoint × DesignPoint)) := do
  let junctions ← found ⟨.keyError, netId⟩ (junctionsByNet graph netId)
  return segments (ordered junctions segment.1 segment.2)

/-- The ordinal counts the parts of all segments of a wire. -/
def numbered (wireId : String) (pairs : List (DesignPoint × DesignPoint)) : List Part :=
  pairs.zipIdx.map fun ((first, second), ordinal) =>
    (uuid "schematic-wire-segment" [wireId, toString ordinal, toString first.x,
      toString first.y, toString second.x, toString second.y], first, second)

def partsOf (graph : DesignGraph) (wire : SchematicWire) : Except Failure (List Part) := do
  let cuts ← (segments wire.vertices).mapM (cutsOf graph wire.netId)
  return numbered wire.wireId cuts.flatten

/-- `result[wire.wire_id] = tuple(parts)` -/
def putParts (graph : DesignGraph) (result : Dict String (List Part))
    (wire : Checked SchematicWire.postInit) : Except Failure (Dict String (List Part)) := do
  let parts ← partsOf graph wire.val
  return result.set wire.val.wireId parts

/-- `_wire_parts` -/
def wireParts (graph : DesignGraph) : Except Failure (Dict String (List Part)) :=
  (sortBy (fun wire => wire.val.wireId) graph.schematicWires).foldlM (putParts graph) Dict.empty

/-- What a segment of a wire is cut into. -/
structure Cut (graph : DesignGraph) (wire : SchematicWire) (segment : DesignPoint × DesignPoint)
    (parts : List (DesignPoint × DesignPoint)) : Prop where
  divides : Plane.Divides (onPlane segment.1) (onPlane segment.2)
    (parts.map (Prod.map onPlane onPlane))
  /-- A junction of the net of the wire that lies on the segment is an end of a part. -/
  junctions : ∀ junction ∈ graph.schematicJunctions, junction.val.netId = wire.netId →
    onPlane junction.val.position ∈ Plane.segment (onPlane segment.1) (onPlane segment.2) →
    ∃ part ∈ parts, junction.val.position = part.1 ∨ junction.val.position = part.2

variable {graph : DesignGraph} {netId : String}

section

omit [NameUuids]

theorem junctionsByNet_of_mem (h : netId ∈ graph.netIds) :
    junctionsByNet graph netId = some (junctionsOf graph netId) := by
  obtain ⟨net, hnet, rfl⟩ := List.mem_map.mp h
  refine Dict.update_eq_of_mem _ (List.mem_map.mpr ⟨net, hnet, rfl⟩) ?_
  intro positions hpositions
  obtain ⟨other, -, hother⟩ := List.mem_map.mp hpositions
  obtain ⟨hsame, rfl⟩ := Prod.mk.inj hother
  rw [hsame]

theorem mem_junctionsOf : p ∈ junctionsOf graph netId ↔
    ∃ junction ∈ graph.schematicJunctions, junction.val.netId = netId ∧
      junction.val.position = p := by
  unfold junctionsOf
  simp only [List.mem_map, List.mem_filter, decide_eq_true_eq, and_assoc]

theorem cut_ordered (wire : SchematicWire) (hne : start ≠ finish) :
    Cut graph wire (start, finish)
      (segments (ordered (junctionsOf graph wire.netId) start finish)) where
  divides := ordered_divides hne
  junctions junction hjunction hnet hon := by
    refine exists_part hne (mem_ordered.mpr (Or.inr (Or.inr ⟨?_, pointOnSegment_iff.mpr hon⟩)))
    exact mem_junctionsOf.mpr ⟨junction, hjunction, hnet, rfl⟩

end

theorem partsOf_cuts (wire : Checked SchematicWire.postInit)
    (hnet : wire.val.netId ∈ graph.netIds) :
    ∃ parts cuts, partsOf graph wire.val = .ok parts ∧ parts.map Prod.snd = cuts.flatten ∧
      List.Forall₂ (Cut graph wire.val) (segments wire.val.vertices) cuts := by
  have hproper : ∀ segment ∈ segments wire.val.vertices, segment.1 ≠ segment.2 := by
    have hchecks := (checking_ok.mp wire.accepted).1
    unfold SchematicWire.checks at hchecks
    simp only [bind_ok, exists_unit, require_ok] at hchecks
    exact hchecks.2.2.2.2.1
  have hcut : ∀ segment ∈ segments wire.val.vertices, ∃ parts,
      cutsOf graph wire.val.netId segment = .ok parts ∧ Cut graph wire.val segment parts := by
    intro segment hsegment
    refine ⟨_, ?_, cut_ordered wire.val (hproper segment hsegment)⟩
    unfold cutsOf
    rw [junctionsByNet_of_mem hnet]
    rfl
  obtain ⟨cuts, hcuts, hall⟩ := mapM_related hcut
  refine ⟨numbered wire.val.wireId cuts.flatten, cuts, ?_, ?_, hall⟩
  · exact bind_ok.mpr ⟨cuts, hcuts, rfl⟩
  · unfold numbered
    rw [List.map_map]
    exact List.zipIdx_map_fst 0 _

/-- A loop over wires with different identifiers leaves the parts of each. -/
theorem foldlM_putParts {wires : List (Checked SchematicWire.postInit)}
    (hids : (wires.map (·.val.wireId)).Nodup)
    (hparts : ∀ wire ∈ wires, ∃ parts, partsOf graph wire.val = .ok parts)
    (before : Dict String (List Part)) :
    ∃ result, wires.foldlM (putParts graph) before = .ok result ∧
      (∀ wireId ∉ wires.map (·.val.wireId), result wireId = before wireId) ∧
      ∀ wire ∈ wires, ∀ parts, partsOf graph wire.val = .ok parts →
        result wire.val.wireId = some parts := by
  induction wires generalizing before with
  | nil => exact ⟨before, rfl, fun _ _ => rfl, fun wire hwire => absurd hwire List.not_mem_nil⟩
  | cons first rest ih =>
      rw [List.map_cons, List.nodup_cons] at hids
      obtain ⟨parts, hfirst⟩ := hparts first List.mem_cons_self
      obtain ⟨result, hrest, hkept, hall⟩ := ih hids.2
        (fun wire hwire => hparts wire (List.mem_cons_of_mem _ hwire))
        (before.set first.val.wireId parts)
      refine ⟨result, foldlM_cons_ok.mpr ⟨_, ?_, hrest⟩, ?_, ?_⟩
      · exact bind_ok.mpr ⟨parts, hfirst, rfl⟩
      · intro wireId hnew
        rw [List.map_cons, List.mem_cons, not_or] at hnew
        rw [hkept wireId hnew.2, Dict.set_of_ne _ _ hnew.1]
      · intro wire hwire parts' hparts'
        rcases List.mem_cons.mp hwire with rfl | hlater
        · rw [hkept _ hids.1, Dict.set_self, ← Except.ok.inj (hfirst.symm.trans hparts')]
        · exact hall wire hlater parts' hparts'

omit [NameUuids] in
/-- The graphs that are compiled have been validated. -/
theorem wires_of_valid (h : Kernel.validateGraph graph = .ok ()) :
    (graph.schematicWires.map (·.val.wireId)).Nodup ∧
      ∀ wire ∈ graph.schematicWires, wire.val.netId ∈ graph.netIds := by
  have hvalid := Kernel.validateGraph_iff.mp h
  refine ⟨hvalid.identifiers ("schematic wire IDs", _) ?_, hvalid.wires⟩
  simp [DesignGraph.identifiers]

/-- **Every segment of every wire is cut into parts that divide it**, at every junction of the net
of the wire that lies on it. -/
theorem wireParts_divide (graph : DesignGraph)
    (hids : (graph.schematicWires.map (·.val.wireId)).Nodup)
    (hnets : ∀ wire ∈ graph.schematicWires, wire.val.netId ∈ graph.netIds) :
    ∃ result, wireParts graph = .ok result ∧ ∀ wire ∈ graph.schematicWires, ∃ parts cuts,
      result wire.val.wireId = some parts ∧ parts.map Prod.snd = cuts.flatten ∧
      List.Forall₂ (Cut graph wire.val) (segments wire.val.vertices) cuts := by
  have hperm : (sortBy (fun wire => wire.val.wireId) graph.schematicWires).Perm
      graph.schematicWires := sortBy_perm _
  have hcuts : ∀ wire ∈ graph.schematicWires, ∃ parts cuts, partsOf graph wire.val = .ok parts ∧
      parts.map Prod.snd = cuts.flatten ∧
      List.Forall₂ (Cut graph wire.val) (segments wire.val.vertices) cuts :=
    fun wire hwire => partsOf_cuts wire (hnets wire hwire)
  have hparts : ∀ wire ∈ sortBy (fun wire => wire.val.wireId) graph.schematicWires,
      ∃ parts, partsOf graph wire.val = .ok parts := by
    intro wire hwire
    obtain ⟨parts, -, hok, -⟩ := hcuts wire (hperm.mem_iff.mp hwire)
    exact ⟨parts, hok⟩
  obtain ⟨result, hresult, -, hkept⟩ :=
    foldlM_putParts ((hperm.map _).nodup_iff.mpr hids) hparts Dict.empty
  refine ⟨result, hresult, ?_⟩
  intro wire hwire
  obtain ⟨parts, cuts, hok, hflat, hall⟩ := hcuts wire hwire
  exact ⟨parts, cuts, hkept wire (hperm.mem_iff.mpr hwire) parts hok, hflat, hall⟩

end Wires

/-! ### A wire that turns back -/

section Sample

/-- The text itself for its identifier. -/
@[reducible] def textUuids : NameUuids where
  uuid5 text := text

@[reducible] def noHashing : Hashing := Hashing.tabled []

attribute [local instance] Kernel.asciiData textUuids noHashing

def top : DesignPoint := ⟨0, 30, Kernel.inInt64_zero, by decide⟩

def upper : DesignPoint := ⟨0, 20, Kernel.inInt64_zero, by decide⟩

def lower : DesignPoint := ⟨0, 10, Kernel.inInt64_zero, by decide⟩

def corner : DesignPoint := ⟨0, 0, Kernel.inInt64_zero, Kernel.inInt64_zero⟩

def side : DesignPoint := ⟨20, 10, by decide, by decide⟩

/-- A wire down and to the side. -/
def turningWire : SchematicWire :=
  { wireId := "w1", netId := "n1", vertices := [top, corner, side] }

def turningJunction (junctionId netId : String) (position : DesignPoint) :
    Kernel.SchematicJunction :=
  { junctionId := junctionId, netId := netId, position := position }

/-- Two junctions of the net of the wire are at one point of it, one is on its corner, and another
net has a junction on it too. -/
def turningGraph : DesignGraph :=
  { Kernel.emptyGraph with
    nets := [Kernel.groundNet, Kernel.supplyNet]
    schematicWires := [⟨turningWire, of_toOption (by decide +kernel)⟩]
    schematicJunctions := [⟨turningJunction "j1" "n1" lower, rfl⟩,
      ⟨turningJunction "j2" "n1" upper, rfl⟩, ⟨turningJunction "j3" "n1" lower, rfl⟩,
      ⟨turningJunction "j4" "n1" corner, rfl⟩, ⟨turningJunction "j5" "n2" upper, rfl⟩] }

theorem wireParts_divide_turning : (∃ result, wireParts turningGraph = .ok result ∧
      ∀ wire ∈ turningGraph.schematicWires, ∃ parts cuts,
        result wire.val.wireId = some parts ∧ parts.map Prod.snd = cuts.flatten ∧
        List.Forall₂ (Cut turningGraph wire.val) (segments wire.val.vertices) cuts) ∧
    ordered (junctionsOf turningGraph "n1") top corner = [top, upper, lower, corner] := by
  refine ⟨wireParts_divide turningGraph ?_ ?_, ?_⟩
  · decide
  · decide
  · decide

end Sample

end Evleda.KicadCompile
