/-
The two versions of the exact geometry, and what their distances are.

The kernel computes with integers and makes a fraction at the end; the functions for
half nanometres compute with fractions throughout.  On integer points they agree, test
by test.  What the functions return is the least square of a distance that two points
of the closed shapes have in the real plane, be the points rational or not.
-/
import Evleda.Verification.Outlines

namespace Evleda.Verification

open Plane

/-! ### Integers and fractions -/

theorem kernel_cross (o p q : PointNm) : exactCross (exactPoint o : ExactPoint) (exactPoint p)
    (exactPoint q) = (ExactGeometryKernel.cross o p q : ℚ) := by
  unfold exactCross ExactGeometryKernel.cross exactPoint
  push_cast
  rfl

theorem kernel_onSegment (p s e : PointNm) :
    ExactGeometryKernel.onSegment p s e =
      exactOnSegment (exactPoint p : ExactPoint) (exactPoint s) (exactPoint e) := by
  unfold exactOnSegment ExactGeometryKernel.onSegment
  simp only [kernel_cross]
  dsimp only [exactPoint]
  norm_cast

theorem kernel_segmentsIntersect (a b c d : PointNm) :
    ExactGeometryKernel.segmentsIntersect a b c d =
      exactSegmentsIntersect (exactPoint a : ExactPoint) (exactPoint b) (exactPoint c)
        (exactPoint d) := by
  unfold ExactGeometryKernel.segmentsIntersect exactSegmentsIntersect
  simp only [kernel_cross, kernel_onSegment]
  norm_cast

theorem kernel_pointSegmentDistanceSquared (p s e : PointNm) :
    ExactGeometryKernel.pointSegmentDistanceSquared p s e =
      exactPointSegmentDistanceSquared (exactPoint p : ExactPoint) (exactPoint s)
        (exactPoint e) := by
  unfold ExactGeometryKernel.pointSegmentDistanceSquared exactPointSegmentDistanceSquared
  dsimp only [exactPoint]
  norm_cast

theorem kernel_segmentDistanceSquared (a b c d : PointNm) :
    ExactGeometryKernel.segmentDistanceSquared a b c d =
      exactSegmentDistanceSquared (exactPoint a : ExactPoint) (exactPoint b) (exactPoint c)
        (exactPoint d) := by
  unfold ExactGeometryKernel.segmentDistanceSquared exactSegmentDistanceSquared
  rw [kernel_segmentsIntersect]
  simp only [kernel_pointSegmentDistanceSquared]

theorem kernel_insideAfter (p : PointNm) (inside : Bool) (edges : List (PointNm × PointNm)) :
    ExactGeometryKernel.insideAfter p inside edges =
      insideAfter (exactPoint p : ExactPoint) inside edges := by
  induction edges generalizing inside with
  | nil => rfl
  | cons edge edges ih =>
      unfold ExactGeometryKernel.insideAfter insideAfter
      simp only [kernel_onSegment, ih]
      dsimp only [exactPoint]
      norm_cast

theorem kernel_pointInOutline (p : PointNm) (outline : BoardOutline) :
    ExactGeometryKernel.pointInOutline p outline =
      exactPointInOutline (exactPoint p : ExactPoint) outline := by
  unfold ExactGeometryKernel.pointInOutline exactPointInOutline
  rw [kernel_insideAfter]

/-! ### Distances in the real plane -/

/-- A fraction that is the least square of a distance of two closed shapes, and zero exactly where
they share a point. -/
structure LeastSquare (A B : Set (Point ℝ)) (d : ℚ) : Prop where
  comesTo : ComesTo A B (d : ℝ)
  eq_zero_iff : d = 0 ↔ (A ∩ B).Nonempty

theorem leastSquare_of_comesTo {A B : Set (Point ℝ)} {d : ℚ} (h : ComesTo A B (d : ℝ)) :
    LeastSquare A B d :=
  ⟨h, by rw [← h.eq_zero_iff, Rat.cast_eq_zero]⟩

theorem core_leastSquare (first second : Core ℚ) :
    LeastSquare first.real.points second.real.points (coreDistanceSquared first second) :=
  leastSquare_of_comesTo (core_real_comesTo first second)

/-- The points of a box in the real plane. -/
def CoreBox.region (box : CoreBox ℚ) : Set (Point ℝ) :=
  Plane.box box.real.minimum box.real.maximum

/--
**Every distance is the least one, exactly.**  Whatever the rational points, the segments
between them and the upright boxes are, degenerate or crossing, what each of the five
functions returns is the least square of a distance of two of their points in the real
plane, and zero exactly when they share a point; and on integer points the kernel agrees
with the functions over fractions.
-/
theorem distances_least :
    (∀ a b c d : ExactPoint, LeastSquare (segment (real a) (real b)) (segment (real c) (real d))
      (exactSegmentDistanceSquared a b c d)) ∧
    (∀ p a b : ExactPoint, LeastSquare {real p} (segment (real a) (real b))
      (exactPointSegmentDistanceSquared p a b)) ∧
    (∀ (a b : ExactPoint) (box : CoreBox ℚ), LeastSquare (segment (real a) (real b)) box.region
      (segmentBoxDistanceSquared a b box)) ∧
    (∀ (p : ExactPoint) (box : CoreBox ℚ), LeastSquare {real p} box.region
      (pointBoxDistanceSquared p box)) ∧
    (∀ box box' : CoreBox ℚ, LeastSquare box.region box'.region (boxDistanceSquared box box')) ∧
    (∀ a b c d : PointNm, ExactGeometryKernel.segmentsIntersect a b c d =
        exactSegmentsIntersect (exactPoint a : ExactPoint) (exactPoint b) (exactPoint c)
          (exactPoint d) ∧
      ExactGeometryKernel.segmentDistanceSquared a b c d =
        exactSegmentDistanceSquared (exactPoint a) (exactPoint b) (exactPoint c) (exactPoint d)) ∧
    ∀ p a b : PointNm, ExactGeometryKernel.pointSegmentDistanceSquared p a b =
      exactPointSegmentDistanceSquared (exactPoint p) (exactPoint a) (exactPoint b) := by
  refine ⟨?_, ?_, ?_, ?_, ?_, ?_, kernel_pointSegmentDistanceSquared⟩
  · intro a b c d
    exact core_leastSquare (.axis a b) (.axis c d)
  · intro p a b
    exact core_leastSquare (.center p) (.axis a b)
  · intro a b box
    exact core_leastSquare (.axis a b) (.box box)
  · intro p box
    exact core_leastSquare (.center p) (.box box)
  · intro box box'
    exact core_leastSquare (.box box) (.box box')
  · intro a b c d
    exact ⟨kernel_segmentsIntersect a b c d, kernel_segmentDistanceSquared a b c d⟩

end Evleda.Verification
