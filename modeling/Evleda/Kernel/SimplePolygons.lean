/-
What the checks on polygons and wires amount to in the plane.

The intersection test of the kernel is right for every pair of segments.  With it, the
validator of polygons accepts exactly the simple polygons that have an area, and the
constructor of wires refuses what it tests, which leaves the two ends of a wire: its first
segment can run back along the second one, and its last segment along the one before.
-/
import Evleda.Kernel.Redrawn
import Evleda.Lib.SimplePolygon

namespace Evleda.Kernel

open Plane (Point trace SimplePolygon SimplePolyline)

def PointNm.grid (p : PointNm) : Point ℤ := ⟨p.x, p.y⟩

theorem PointNm.grid_injective : Function.Injective PointNm.grid := by
  intro p q h
  exact PointNm.eq_of_coordinates (congrArg Point.x h) (congrArg Point.y h)

variable {a b c d p : PointNm}

theorem intCross_grid (a b c : PointNm) : Plane.intCross a.grid b.grid c.grid = cross a b c := rfl

theorem pointOnSegment_iff_grid :
    pointOnSegment p a b = true ↔ Plane.OnSegment p.grid a.grid b.grid := pointOnSegment_iff

theorem pointOnSegment_iff_trace :
    pointOnSegment p a b = true ↔ p.grid.toReal ∈ trace a.grid b.grid :=
  pointOnSegment_iff_grid.trans Plane.onSegment_iff

/-- **The intersection test of the kernel is right.** -/
theorem segmentsIntersect_iff_trace : segmentsIntersect a b c d = true ↔
    (trace a.grid b.grid ∩ trace c.grid d.grid).Nonempty := by
  have hopposite : ∀ x y : Int, Opposite x y ↔ Plane.IntOpposite x y := by
    intro x y
    unfold Opposite Plane.IntOpposite
    omega
  rw [segmentsIntersect_iff, Plane.trace_meet_iff]
  simp only [pointOnSegment_iff_grid, hopposite, intCross_grid]
  tauto

/-! ### Polygons -/

theorem ringEdges_grid (ring : List PointNm) :
    Cyclic.edges (ring.map PointNm.grid) =
      (ringEdges ring).map fun edge => (edge.1.grid, edge.2.grid) := by
  rw [ringEdges_eq_zip, Cyclic.edges, ← List.map_rotate, List.zip_map]
  rfl

theorem twiceArea_grid (ring : List PointNm) :
    Plane.twiceArea (ring.map PointNm.grid) = twiceArea ring := by
  unfold Plane.twiceArea twiceArea
  rw [ringEdges_grid, List.map_map]
  rfl

theorem clear_grid {edges : List (PointNm × PointNm)} :
    Plane.Clear (edges.map fun edge => (edge.1.grid, edge.2.grid)) ↔ Clear edges := by
  unfold Plane.Clear Clear
  simp only [List.forall_mem_map, ne_eq, PointNm.grid_injective.eq_iff,
    ← segmentsIntersect_iff_trace, Bool.not_eq_true]

theorem simpleRing_iff_simple {ring : List PointNm} :
    SimpleRing ring ↔ SimplePolygon (ring.map PointNm.grid) := by
  rw [Plane.simplePolygon_iff, List.length_map, twiceArea_grid, ringEdges_grid, clear_grid,
    List.nodup_map_iff PointNm.grid_injective]
  constructor
  · intro h
    exact ⟨h.length, h.nodup, h.area, h.clear⟩
  · rintro ⟨hlength, hnodup, harea, hclear⟩
    exact ⟨hlength, hnodup, harea, hclear⟩

/-- **The validator accepts exactly the simple polygons that have an area.** -/
theorem validateSimplePolygon_iff_simple {vertices : List PointNm} {label : String} :
    validateSimplePolygon vertices label = .ok () ↔
      SimplePolygon ((openRing vertices).map PointNm.grid) :=
  validateSimplePolygon_iff.trans simpleRing_iff_simple

/-! ### Wires -/

/-- The last vertex of a wire does not lie on the segment before its own, nor the first one on the
segment after its own. -/
def EndsClear (vertices : List PointNm) : Prop :=
  (∀ a b c rest, vertices = a :: b :: c :: rest → pointOnSegment a b c = false) ∧
    ∀ a b c front, vertices = front ++ [a, b, c] → pointOnSegment c a b = false

/-- A list of points, taken apart in the plane, comes apart itself. -/
theorem endsClear_grid {vertices : List PointNm} :
    Plane.EndsClear (vertices.map PointNm.grid) ↔ EndsClear vertices := by
  have hapart : ∀ p a b : PointNm, pointOnSegment p a b = false ↔
      p.grid.toReal ∉ trace a.grid b.grid := by
    intro p a b
    rw [← pointOnSegment_iff_trace, Bool.not_eq_true]
  unfold Plane.EndsClear EndsClear
  constructor
  · rintro ⟨hfirst, hlast⟩
    constructor
    · rintro a b c rest rfl
      exact (hapart a b c).mpr (hfirst _ _ _ (rest.map PointNm.grid) rfl)
    · rintro a b c front rfl
      exact (hapart c a b).mpr (hlast _ _ _ (front.map PointNm.grid) (by simp))
  · rintro ⟨hfirst, hlast⟩
    constructor
    · intro A B C rest h
      obtain ⟨a, l, rfl, rfl, h₁⟩ := List.map_eq_cons_iff.mp h
      obtain ⟨b, l', rfl, rfl, h₂⟩ := List.map_eq_cons_iff.mp h₁
      obtain ⟨c, l'', rfl, rfl, -⟩ := List.map_eq_cons_iff.mp h₂
      exact (hapart a b c).mp (hfirst a b c l'' rfl)
    · intro A B C front h
      obtain ⟨start, l, rfl, -, h₁⟩ := List.map_eq_append_iff.mp h
      obtain ⟨a, l', rfl, rfl, h₂⟩ := List.map_eq_cons_iff.mp h₁
      obtain ⟨b, l'', rfl, rfl, h₃⟩ := List.map_eq_cons_iff.mp h₂
      obtain ⟨c, rfl, rfl⟩ := List.map_eq_singleton_iff.mp h₃
      exact (hapart c a b).mp (hlast a b c start rfl)

/-- Segments that do not follow one another do not meet. -/
theorem apart_of_clear {vertices : List PointNm} (hnodup : vertices.Nodup)
    (hclear : Clear (segments vertices)) {A B C D : Point ℤ} {before middle after : List (Point ℤ)}
    (h : vertices.map PointNm.grid = before ++ A :: B :: (middle ++ C :: D :: after)) :
    trace A B ∩ trace C D = ∅ := by
  obtain ⟨start, l, rfl, -, h₁⟩ := List.map_eq_append_iff.mp h
  obtain ⟨a, l', rfl, rfl, h₂⟩ := List.map_eq_cons_iff.mp h₁
  obtain ⟨b, l'', rfl, rfl, h₃⟩ := List.map_eq_cons_iff.mp h₂
  obtain ⟨between, tail, rfl, -, h₄⟩ := List.map_eq_append_iff.mp h₃
  obtain ⟨c, m, rfl, rfl, h₅⟩ := List.map_eq_cons_iff.mp h₄
  obtain ⟨d, m', rfl, rfl, -⟩ := List.map_eq_cons_iff.mp h₅
  have hfirst : (a, b) ∈ segments (start ++ a :: b :: (between ++ c :: d :: m')) :=
    mem_segments.mpr ⟨start, between ++ c :: d :: m', by simp⟩
  have hsecond : (c, d) ∈ segments (start ++ a :: b :: (between ++ c :: d :: m')) :=
    mem_segments.mpr ⟨start ++ a :: b :: between, m', by simp⟩
  have hfresh := (List.nodup_append.mp hnodup).2.1
  simp only [List.nodup_cons, List.mem_cons, List.mem_append, not_or] at hfresh
  have hfalse := hclear _ hfirst _ hsecond hfresh.1.2.2.1 hfresh.1.2.2.2.1 hfresh.2.1.2.1
    hfresh.2.1.2.2.1
  rw [← Set.not_nonempty_iff_eq_empty, ← segmentsIntersect_iff_trace, hfalse]
  decide

section Wires

variable [UnicodeData] {w : SchematicWire}

/-- **An accepted wire is a simple polyline exactly when its ends do not fold back.** -/
theorem wire_simple_iff (h : w.postInit = .ok w) :
    SimplePolyline (w.vertices.map PointNm.grid) ↔ EndsClear w.vertices := by
  obtain ⟨-, -, -, -, -, hnodup, hclear⟩ := (SchematicWire.checks_iff w).mp (checking_ok.mp h).1
  rw [← endsClear_grid]
  exact Plane.simplePolyline_iff ((List.nodup_map_iff PointNm.grid_injective).mpr hnodup)
    fun _ _ _ _ _ _ _ => apart_of_clear hnodup hclear

end Wires

/-! ### A wire that runs back -/

@[reducible] def plainText : UnicodeData := ⟨fun _ => false, fun _ => true, id⟩

/-- A wire along the `x` axis to 2, and from there to the point given. -/
def twoSegments (last : PointNm) : SchematicWire where
  wireId := "W1"
  netId := "N1"
  vertices := [⟨0, 0, inInt64_zero, inInt64_zero⟩, ⟨2, 0, by decide, inInt64_zero⟩, last]

theorem wire_simple_iff_sample :
    letI := plainText
    SimplePolyline ((twoSegments ⟨2, 1, by decide, by decide⟩).vertices.map PointNm.grid) ↔
      EndsClear (twoSegments ⟨2, 1, by decide, by decide⟩).vertices := by
  let _ := plainText
  exact wire_simple_iff (Outcome.of_toOption (by decide +kernel))

/-- The second of two segments can run back on the first one. -/
theorem backtracking_accepted :
    letI := plainText
    (twoSegments ⟨1, 0, by decide, by decide⟩).postInit =
        .ok (twoSegments ⟨1, 0, by decide, by decide⟩) ∧
      ¬ SimplePolyline ((twoSegments ⟨1, 0, by decide, by decide⟩).vertices.map PointNm.grid) := by
  let _ := plainText
  refine ⟨Outcome.of_toOption (by decide +kernel), ?_⟩
  intro hsimple
  have hshared := hsimple.adjacent ⟨0, 0⟩ ⟨2, 0⟩ ⟨1, 0⟩ [] [] rfl
  have hback : Plane.OnSegment ⟨1, 0⟩ ⟨0, 0⟩ ⟨2, 0⟩ := by
    unfold Plane.OnSegment Plane.intCross
    decide
  have hboth : (Point.toReal ⟨1, 0⟩) ∈ trace ⟨0, 0⟩ ⟨2, 0⟩ ∩ trace ⟨2, 0⟩ ⟨1, 0⟩ :=
    ⟨Plane.onSegment_iff.mp hback, Plane.right_mem_trace _ _⟩
  rw [hshared, Set.mem_singleton_iff] at hboth
  have hsame := congrArg Point.x (Point.toReal_injective hboth)
  exact absurd hsame (by decide)

end Evleda.Kernel
