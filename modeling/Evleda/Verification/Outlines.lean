/-
Outlines of boards and zones.

The kernel works on integer points; a shape of half nanometres is compared with an
outline over fractions.  A closed polygon is followed edge by edge, and whether a point
is inside it is the parity of the edges to its right.
-/
import Evleda.Verification.Copper
import Mathlib.Data.List.Lex
import Mathlib.Data.Prod.Lex

namespace Evleda.Verification

open Plane

/-! ### The integer kernel -/

namespace ExactGeometryKernel

def cross (origin a b : PointNm) : Int :=
  (a.x - origin.x) * (b.y - origin.y) - (a.y - origin.y) * (b.x - origin.x)

def onSegment (point start finish : PointNm) : Bool :=
  cross start finish point = 0 ∧
    (min start.x finish.x ≤ point.x ∧ point.x ≤ max start.x finish.x) ∧
    (min start.y finish.y ≤ point.y ∧ point.y ≤ max start.y finish.y)

def segmentsIntersect (aStart aEnd bStart bEnd : PointNm) : Bool :=
  let d1 := cross aStart aEnd bStart
  let d2 := cross aStart aEnd bEnd
  let d3 := cross bStart bEnd aStart
  let d4 := cross bStart bEnd aEnd
  if ((0 < d1 ∧ d2 < 0) ∨ (d1 < 0 ∧ 0 < d2)) ∧ ((0 < d3 ∧ d4 < 0) ∨ (d3 < 0 ∧ 0 < d4)) then true
  else
    (d1 = 0 ∧ onSegment bStart aStart aEnd) ∨ (d2 = 0 ∧ onSegment bEnd aStart aEnd) ∨
      (d3 = 0 ∧ onSegment aStart bStart bEnd) ∨ (d4 = 0 ∧ onSegment aEnd bStart bEnd)

def pointSegmentDistanceSquared (point start finish : PointNm) : ℚ :=
  let dx := finish.x - start.x
  let dy := finish.y - start.y
  let lengthSquared := dx * dx + dy * dy
  let fromStart := (point.x - start.x) * (point.x - start.x) +
    (point.y - start.y) * (point.y - start.y)
  if lengthSquared = 0 then (fromStart : ℚ)
  else
    let projection := (point.x - start.x) * dx + (point.y - start.y) * dy
    if projection ≤ 0 then (fromStart : ℚ)
    else if lengthSquared ≤ projection then
      (((point.x - finish.x) * (point.x - finish.x) +
        (point.y - finish.y) * (point.y - finish.y) : Int) : ℚ)
    else
      let cross := dx * (point.y - start.y) - dy * (point.x - start.x)
      ((cross * cross : Int) : ℚ) / (lengthSquared : ℚ)

def segmentDistanceSquared (aStart aEnd bStart bEnd : PointNm) : ℚ :=
  if segmentsIntersect aStart aEnd bStart bEnd then 0
  else
    min (min (pointSegmentDistanceSquared aStart bStart bEnd)
        (pointSegmentDistanceSquared aEnd bStart bEnd))
      (min (pointSegmentDistanceSquared bStart aStart aEnd)
        (pointSegmentDistanceSquared bEnd aStart aEnd))

end ExactGeometryKernel

/-! ### Edges and defects -/

/-- Each vertex with the next one around. -/
def ringEdges (vertices : List PointNm) : List (PointNm × PointNm) :=
  vertices.zip (vertices.rotate 1)

def outlineEdges (outline : BoardOutline) : List (PointNm × PointNm) :=
  if outline.vertices.length < 2 then [] else ringEdges outline.vertices

def signedAreaTwice (outline : BoardOutline) : Int :=
  ((outlineEdges outline).map fun edge => edge.1.x * edge.2.y - edge.2.x * edge.1.y).sum

/-- What is wrong with an outline, as stable machine-readable pairs. -/
def outlineDefects (outline : BoardOutline) : List (String × List Int) :=
  let vertices := outline.vertices
  if vertices.length < 3 then [("fewer_than_three_vertices", [vertices.length])]
  else
    let edges := (outlineEdges outline).zipIdx
    let few : List (String × List Int) :=
      if vertices.dedup.length < 3 then
        [("fewer_than_three_unique_vertices", [vertices.dedup.length])] else []
    let short : List (String × List Int) := edges.filterMap fun (edge, index) =>
      if edge.1 = edge.2 then some ("zero_length_edge", [(index : Int)]) else none
    let flat : List (String × List Int) :=
      if signedAreaTwice outline = 0 then [("zero_area", [])] else []
    let crossed : List (String × List Int) := edges.flatMap fun (edge, first) =>
      edges.filterMap fun (edge', second) =>
        -- adjacent polygon edges intentionally share one endpoint
        if first < second ∧ second ≠ first + 1 ∧ ¬ (first = 0 ∧ second = edges.length - 1) ∧
            ExactGeometryKernel.segmentsIntersect edge.1 edge.2 edge'.1 edge'.2 then
          some ("self_intersection", [(first : Int), (second : Int)])
        else none
    sortBy (fun defect : String × List Int => toLex defect)
      (few ++ short ++ flat ++ crossed).dedup

/-! ### Points and outlines -/

/-- Toggle at every edge that the ray to the right crosses; a point of an edge is inside. -/
def insideAfter {K : Type*} [Field K] [LinearOrder K] (point : Point K) (inside : Bool) :
    List (PointNm × PointNm) → Bool
  | [] => inside
  | edge :: edges =>
      let start : Point K := exactPoint edge.1
      let finish : Point K := exactPoint edge.2
      if exactOnSegment point start finish then true
      else if decide (point.y < start.y) ≠ decide (point.y < finish.y) then
        let intersectionX :=
          (finish.x - start.x) * (point.y - start.y) / (finish.y - start.y) + start.x
        insideAfter point (if point.x < intersectionX then !inside else inside) edges
      else insideAfter point inside edges

/-- Exact closed-set point-in-polygon test. -/
def exactPointInOutline {K : Type*} [Field K] [LinearOrder K] (point : Point K)
    (outline : BoardOutline) : Bool :=
  if outline.vertices.length < 3 then false else insideAfter point false (outlineEdges outline)

namespace ExactGeometryKernel

/-- Toggle at every edge that the ray to the right crosses; a point of an edge is inside. -/
def insideAfter (point : PointNm) (inside : Bool) : List (PointNm × PointNm) → Bool
  | [] => inside
  | (start, finish) :: edges =>
      if onSegment point start finish then true
      else if decide (point.y < start.y) ≠ decide (point.y < finish.y) then
        let intersectionX : ℚ :=
          (((finish.x - start.x) * (point.y - start.y) : Int) : ℚ) /
            ((finish.y - start.y : Int) : ℚ) + start.x
        insideAfter point (if (point.x : ℚ) < intersectionX then !inside else inside) edges
      else insideAfter point inside edges

def pointInOutline (point : PointNm) (outline : BoardOutline) : Bool :=
  if outline.vertices.length < 3 then false else insideAfter point false (outlineEdges outline)

end ExactGeometryKernel

def exactOutlineEdges (outline : BoardOutline) : List (ExactPoint × ExactPoint) :=
  (ringEdges outline.vertices).map fun edge => (exactPoint edge.1, exactPoint edge.2)

/-! ### Shapes and outlines -/

def coreOutlineDistanceSquared (core : Core ℚ) (outline : BoardOutline) : ℚ :=
  let edges := exactOutlineEdges outline
  match core with
  | .box corners =>
      minimumOf (edges.map fun edge => segmentBoxDistanceSquared edge.1 edge.2 corners)
  | .axis start finish =>
      minimumOf (edges.map fun edge => exactSegmentDistanceSquared start finish edge.1 edge.2)
  | .center point =>
      minimumOf (edges.map fun edge => exactPointSegmentDistanceSquared point edge.1 edge.2)

def coreOverlapsOutline (core : Core ℚ) (outline : BoardOutline) : Bool :=
  let edges := exactOutlineEdges outline
  match core with
  | .box corners =>
      (corners.corners.any fun corner => exactPointInOutline corner outline) ||
        (edges.any fun edge => pointInBox edge.1 corners) ||
        corners.edges.any fun side => edges.any fun edge =>
          exactSegmentsIntersect side.1 side.2 edge.1 edge.2
  | .axis start finish =>
      exactPointInOutline start outline || exactPointInOutline finish outline ||
        edges.any fun edge => exactSegmentsIntersect start finish edge.1 edge.2
  | .center point => exactPointInOutline point outline

def coreInsideOutline (core : Core ℚ) (outline : BoardOutline) : Bool :=
  let edges := exactOutlineEdges outline
  match core with
  | .box corners =>
      (corners.corners.all fun corner => exactPointInOutline corner outline) &&
        !(corners.edges.any fun side => edges.any fun edge =>
          exactSegmentsIntersect side.1 side.2 edge.1 edge.2)
  | .axis start finish =>
      exactPointInOutline start outline && exactPointInOutline finish outline &&
        !(edges.any fun edge => exactSegmentsIntersect start finish edge.1 edge.2)
  | .center point => exactPointInOutline point outline

/-- Exact boundary distance, and whether copper enters the filled zone. -/
def primitiveZoneDistanceSquared (primitive : CopperPrimitive) (zone : Zone) : ℚ × Bool :=
  (coreOutlineDistanceSquared primitive.core zone.outline,
    coreOverlapsOutline primitive.core zone.outline)

def validZones (board : BoardGraph) : List Zone :=
  board.zones.filter fun zone =>
    zone.fillState = .verifiedFilled ∧ outlineDefects zone.outline = []

/-- The exact minimum boundary-to-boundary squared distance. -/
def minimumOutlinesDistanceSquared (first second : BoardOutline) : ℚ :=
  minimumOf ((outlineEdges first).flatMap fun edge => (outlineEdges second).map fun edge' =>
    ExactGeometryKernel.segmentDistanceSquared edge.1 edge.2 edge'.1 edge'.2)

/-- Whether two simple closed polygons share any filled area or boundary. -/
def outlinesOverlap (first second : BoardOutline) : Bool :=
  ((outlineEdges first).any fun edge => (outlineEdges second).any fun edge' =>
    ExactGeometryKernel.segmentsIntersect edge.1 edge.2 edge'.1 edge'.2) ||
  match first.vertices, second.vertices with
  | vertex :: _, vertex' :: _ =>
      ExactGeometryKernel.pointInOutline vertex second ||
        ExactGeometryKernel.pointInOutline vertex' first
  | _, _ => false

/-! ### In the real plane -/

/-- The closed region that an outline bounds. -/
def outlineRegion (outline : BoardOutline) : Set (Point ℝ) :=
  {z | exactPointInOutline z outline = true}

theorem insideAfter_real (p : ExactPoint) (inside : Bool) (edges : List (PointNm × PointNm)) :
    insideAfter (real p) inside edges = insideAfter p inside edges := by
  induction edges generalizing inside with
  | nil => rfl
  | cons edge edges ih =>
      unfold insideAfter
      simp only [← real_exactPoint, exactOnSegment_real, real_x, real_y, ih]
      norm_cast

/-- A rational point is inside in the real plane when the test over fractions says so. -/
theorem exactPointInOutline_real (p : ExactPoint) (outline : BoardOutline) :
    exactPointInOutline (real p) outline = exactPointInOutline p outline := by
  unfold exactPointInOutline
  rw [insideAfter_real]

end Evleda.Verification
