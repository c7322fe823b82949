/-
The segment tests of the compiler, and the four tests of one question.

The kernel, the board, the schematic reader and the compiler each ask in their own way
whether two segments meet.  The kernel looks for an end of one segment on the other and
then for different sides; the board and the compiler multiply signs, and look for ends
afterwards; the schematic reader compares signs.  All four are right for all segments, and
so they agree.
-/
import Evleda.KicadIo.Outlines
import Evleda.KicadProject.Segments

namespace Evleda.KicadCompile

open Plane (Point trace)

/-- The compiler takes its points from the design. -/
abbrev DesignPoint := Kernel.PointNm

def pointOnSegment (point start finish : DesignPoint) : Bool :=
  let cross := (finish.x - start.x) * (point.y - start.y) -
    (finish.y - start.y) * (point.x - start.x)
  cross = 0 ∧ (min start.x finish.x ≤ point.x ∧ point.x ≤ max start.x finish.x) ∧
    (min start.y finish.y ≤ point.y ∧ point.y ≤ max start.y finish.y)

def orientation (a b c : DesignPoint) : Int :=
  ((b.x - a.x) * (c.y - a.y) - (b.y - a.y) * (c.x - a.x)).sign

def segmentsIntersect (a b c d : DesignPoint) : Bool :=
  let abc := orientation a b c
  let abd := orientation a b d
  let cda := orientation c d a
  let cdb := orientation c d b
  if abc * abd < 0 ∧ cda * cdb < 0 then true
  else (abc = 0 ∧ pointOnSegment c a b) ∨ (abd = 0 ∧ pointOnSegment d a b) ∨
    (cda = 0 ∧ pointOnSegment a c d) ∨ (cdb = 0 ∧ pointOnSegment b c d)

variable {a b c d p : DesignPoint}

/-- The compiler repeats the board's test; only the sign of a point on a segment is not taken. -/
theorem segmentsIntersect_eq : segmentsIntersect a b c d = KicadIo.segmentsIntersect a b c d := by
  have hpoint : ∀ p a b : DesignPoint, pointOnSegment p a b = KicadIo.pointOnSegment p a b := by
    intro p a b
    rw [KicadIo.pointOnSegment_eq]
    rfl
  unfold segmentsIntersect
  simp only [hpoint]
  rfl

/-! ### One question -/

/-- The point of a schematic with the same coordinates. -/
def onSheet (p : Kernel.PointNm) : KicadProject.PointNm := ⟨p.x, p.y⟩

theorem onSheet_injective : Function.Injective onSheet := by
  intro p q h
  exact Kernel.PointNm.eq_of_coordinates (congrArg KicadProject.PointNm.x h)
    (congrArg KicadProject.PointNm.y h)

def wireBetween (wireId : String) (a b : Kernel.PointNm) (hne : a ≠ b) :
    KicadProject.SchematicWire :=
  ⟨wireId, onSheet a, onSheet b, onSheet_injective.ne hne⟩

/-- **The four tests give one answer, and it is the right one.** -/
theorem segmentsIntersect_agree (a b c d : Kernel.PointNm) (hab : a ≠ b) (hcd : c ≠ d)
    (firstId secondId : String) :
    (Kernel.segmentsIntersect a b c d = true ↔
      (trace a.grid b.grid ∩ trace c.grid d.grid).Nonempty) ∧
    KicadIo.segmentsIntersect a b c d = Kernel.segmentsIntersect a b c d ∧
    KicadProject.segmentsIntersect (wireBetween firstId a b hab) (wireBetween secondId c d hcd) =
      Kernel.segmentsIntersect a b c d ∧
    segmentsIntersect a b c d = Kernel.segmentsIntersect a b c d := by
  refine ⟨Kernel.segmentsIntersect_iff_trace, KicadIo.segmentsIntersect_eq, ?_, ?_⟩
  · rw [Bool.eq_iff_iff, KicadProject.segmentsIntersect_iff_trace,
      Kernel.segmentsIntersect_iff_trace]
    rfl
  · rw [segmentsIntersect_eq, KicadIo.segmentsIntersect_eq]

/-- Two segments of one line that touch in an end. -/
theorem segmentsIntersect_agree_sample :
    KicadProject.segmentsIntersect
        (wireBetween "W1" ⟨0, 0, by decide, by decide⟩ ⟨2, 0, by decide, by decide⟩ (by decide))
        (wireBetween "W2" ⟨2, 0, by decide, by decide⟩ ⟨5, 0, by decide, by decide⟩ (by decide)) =
      true := by
  refine (segmentsIntersect_agree ⟨0, 0, by decide, by decide⟩ ⟨2, 0, by decide, by decide⟩
    ⟨2, 0, by decide, by decide⟩ ⟨5, 0, by decide, by decide⟩ (by decide) (by decide) "W1"
    "W2").2.2.1.trans ?_
  decide

end Evleda.KicadCompile
