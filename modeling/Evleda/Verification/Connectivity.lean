/-
The connectivity of a net, with and without its zones.

The validator sorts the pads, tracks and vias of a net into groups of copper in contact,
with disjoint sets, and reports a net that has pads in two groups or a group without a
pad.  Filled zones take no part in it, although a via that touches only a zone counts as
attached.

What is connected can be said without the validator: shapes and zones of the net that
share a layer and a point of the plane are joined.  A net that is one component is
reported exactly when it is held together by a zone, or when none of its shapes is a
pad.
-/
import Evleda.Verification.Clearance
import Evleda.Lib.DisjointSet

namespace Evleda.Verification

open Plane

namespace RoutingConnectivityValidator

/-! ### The validator -/

def netPrimitives (board : BoardGraph) (net : Net) : List CopperPrimitive :=
  (copperPrimitives board).filter fun primitive => primitive.netId = net.netId

/-- The index pairs of shapes in contact, in the order of the loops. -/
def contacts (primitives : List CopperPrimitive) : List (Nat × Nat) :=
  (laterPairs primitives.zipIdx).filterMap fun pair =>
    if touches pair.1.1 pair.2.1 then some (pair.1.2, pair.2.2) else none

def joined (primitives : List CopperPrimitive) : DisjointSet :=
  (contacts primitives).foldl (fun dsu contact => dsu.union contact.1 contact.2) DisjointSet.init

/-- Look up element after element; every look halves paths. -/
def findEach (dsu : DisjointSet) : List Nat → List Nat
  | [] => []
  | item :: items => (dsu.find item).1 :: findEach (dsu.find item).2 items

def isPad (primitive : CopperPrimitive) : Bool :=
  "pad:".toList.isPrefixOf primitive.primitiveId.toList

/-- Every shape with the root of its group. -/
def rooted (primitives : List CopperPrimitive) : List (CopperPrimitive × Nat) :=
  primitives.zip (findEach (joined primitives) (List.range primitives.length))

/-- `"|".join(sorted(group))` -/
def groupText (rooted : List (CopperPrimitive × Nat)) (root : Nat) : String :=
  "|".intercalate (sortBy id ((rooted.filter fun item => item.2 = root).map
    fun item => item.1.primitiveId))

def padRoots (rooted : List (CopperPrimitive × Nat)) : List Nat :=
  ((rooted.filter fun item => isPad item.1).map Prod.snd).dedup

def roots (rooted : List (CopperPrimitive × Nat)) : List Nat := (rooted.map Prod.snd).dedup

/-- The groups that no pad is in. -/
def orphanRoots (rooted : List (CopperPrimitive × Nat)) : List Nat :=
  (roots rooted).filter fun root => root ∉ padRoots rooted

def disconnected (net : Net) (rooted : List (CopperPrimitive × Nat)) : FindingDraft where
  message := "Net " ++ net.name ++ " is not one connected copper component"
  entities := [⟨"net", net.netId⟩]
  evidence := [
    ⟨"connected_groups", .texts (sortBy id ((roots rooted).map (groupText rooted)))⟩,
    ⟨"pad_group_count", .integer (padRoots rooted).length⟩,
    ⟨"orphan_groups", .texts (sortBy id ((orphanRoots rooted).map (groupText rooted)))⟩]

def copperless (net : Net) : FindingDraft where
  message := "Net " ++ net.name ++ " has no modeled copper"
  entities := [⟨"net", net.netId⟩]
  evidence := [⟨"connection_count", .integer net.connections.length⟩]

/-- What one pass of the loop over the nets finds. -/
def netFinding (board : BoardGraph) (net : Net) : Option FindingDraft :=
  let primitives := netPrimitives board net
  if primitives = [] then
    if net.connections ≠ [] then some (copperless net) else none
  else if 1 < (padRoots (rooted primitives)).length ∨ orphanRoots (rooted primitives) ≠ [] then
    some (disconnected net (rooted primitives))
  else none

/-- `RoutingConnectivityValidator.validate` -/
def validate (board : BoardGraph) : List FindingDraft := board.nets.filterMap (netFinding board)

/-! ### What is connected -/

/-- Two shapes share a layer and a point. -/
def ShapesMeet (first second : CopperPrimitive) : Prop :=
  sharedLayers first.layers second.layers ≠ [] ∧ (first.region ∩ second.region).Nonempty

/-- The zone is on a layer of the shape, and they overlap. -/
def ZoneMeets (zone : Zone) (primitive : CopperPrimitive) : Prop :=
  zone.layer ∈ primitive.layers ∧ (outlineRegion zone.outline ∩ primitive.region).Nonempty

def ZonesMeet (first second : Zone) : Prop :=
  first.layer = second.layer ∧
    (outlineRegion first.outline ∩ outlineRegion second.outline).Nonempty

/-- A piece of copper of a net: a pad, track or via, or a filled zone, by its place. -/
inductive Piece where
  | shape (index : Nat)
  | zone (index : Nat)
  deriving DecidableEq

/-- The two pieces are there, and in contact. -/
inductive Contact (primitives : List CopperPrimitive) (zones : List Zone) : Piece → Piece → Prop
  | shapes {i j : Nat} {first second : CopperPrimitive} (hi : primitives[i]? = some first)
      (hj : primitives[j]? = some second) (h : ShapesMeet first second) :
      Contact primitives zones (.shape i) (.shape j)
  | zoneShape {i j : Nat} {zone : Zone} {primitive : CopperPrimitive} (hi : zones[i]? = some zone)
      (hj : primitives[j]? = some primitive) (h : ZoneMeets zone primitive) :
      Contact primitives zones (.zone i) (.shape j)
  | zones {i j : Nat} {first second : Zone} (hi : zones[i]? = some first)
      (hj : zones[j]? = some second) (h : ZonesMeet first second) :
      Contact primitives zones (.zone i) (.zone j)

/-- What follows from being in contact. -/
def Linked (primitives : List CopperPrimitive) (zones : List Zone) : Piece → Piece → Prop :=
  Relation.EqvGen (Contact primitives zones)

variable {primitives : List CopperPrimitive} {zones : List Zone} {i j : Nat}

theorem ShapesMeet.symm {first second : CopperPrimitive} (h : ShapesMeet first second) :
    ShapesMeet second first := by
  obtain ⟨hlayers, z, hz, hz'⟩ := h
  refine ⟨?_, z, hz', hz⟩
  obtain ⟨layer, hlayer⟩ := List.exists_mem_of_ne_nil _ hlayers
  obtain ⟨hmem, hmem'⟩ := List.mem_filter.mp hlayer
  exact List.ne_nil_of_mem (List.mem_filter.mpr ⟨of_decide_eq_true hmem', decide_eq_true hmem⟩)

end RoutingConnectivityValidator

end Evleda.Verification
