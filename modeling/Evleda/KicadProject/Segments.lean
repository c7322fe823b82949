/-
Wires in the plane.

The reader of a schematic asks whether two wires meet by comparing signs: the two ends of
each wire have different signs for the line of the other.  A sign may be zero then, and the
end on the line of the other wire; the wires meet there all the same.
-/
import Evleda.KicadProject.Schematic
import Evleda.Lib.Segments

namespace Evleda.KicadProject

open Plane (Point trace)

def PointNm.grid (p : PointNm) : Point ℤ := ⟨p.x, p.y⟩

theorem PointNm.grid_injective : Function.Injective PointNm.grid := by
  rintro ⟨x, y⟩ ⟨x', y'⟩ h
  have hx : x = x' := congrArg Point.x h
  have hy : y = y' := congrArg Point.y h
  rw [hx, hy]

def SchematicWire.trace (w : SchematicWire) : Set (Point ℝ) :=
  Plane.trace w.start.grid w.finish.grid

variable {a b c p : PointNm} {first second : SchematicWire}

theorem orientation_eq_sign (a b c : PointNm) :
    orientation a b c = (Plane.intCross a.grid b.grid c.grid).sign := rfl

theorem onSegment_iff_grid : onSegment a b p = true ↔ Plane.OnSegment p.grid a.grid b.grid := by
  unfold onSegment
  rw [decide_eq_true_iff, orientation_eq_sign, Int.sign_eq_zero_iff_zero]
  unfold Plane.OnSegment PointNm.grid
  tauto

theorem onSegment_iff_trace :
    onSegment a b p = true ↔ p.grid.toReal ∈ trace a.grid b.grid :=
  onSegment_iff_grid.trans Plane.onSegment_iff

/-- **The intersection test of the schematic reader is right.** -/
theorem segmentsIntersect_iff_trace :
    segmentsIntersect first second = true ↔ (first.trace ∩ second.trace).Nonempty := by
  have hzero : ∀ {p a b : PointNm}, (orientation a b p = 0 ∧ onSegment a b p = true) ↔
      Plane.OnSegment p.grid a.grid b.grid := by
    intro p a b
    rw [onSegment_iff_grid, orientation_eq_sign, Int.sign_eq_zero_iff_zero, and_iff_right_iff_imp]
    exact And.left
  unfold segmentsIntersect
  dsimp only
  split
  · rename_i hsigns
    exact iff_of_true rfl (Plane.trace_meet_of_sign_ne hsigns.1 hsigns.2)
  · rename_i hsigns
    unfold SchematicWire.trace
    rw [Plane.trace_meet_iff]
    simp only [Bool.or_eq_true, decide_eq_true_iff, hzero]
    have hcross : ¬ (Plane.IntOpposite (Plane.intCross first.start.grid first.finish.grid
          second.start.grid)
          (Plane.intCross first.start.grid first.finish.grid second.finish.grid) ∧
        Plane.IntOpposite (Plane.intCross second.start.grid second.finish.grid first.start.grid)
          (Plane.intCross second.start.grid second.finish.grid first.finish.grid)) := by
      rintro ⟨hab, hcd⟩
      exact hsigns ⟨Plane.sign_ne_of_opposite hab, Plane.sign_ne_of_opposite hcd⟩
    tauto

end Evleda.KicadProject
