/-
What it means for a point to be in an outline.

The test follows the outline edge by edge and counts, modulo two, the edges to the right
of the point.  That count is a property of the polygon and not of the way it is written
down: it is the same along every path that keeps off the outline, it is even outside the
box of the vertices, and a path that crosses one edge changes it.
-/
import Evleda.Verification.Edges
import Evleda.Lib.Crossing

namespace Evleda.Verification

open Plane

/-! ### The polygon of an outline -/

/-- The vertices over the fractions. -/
def exactVertices (outline : BoardOutline) : List ExactPoint := outline.vertices.map exactPoint

/-- The points of the outline itself. -/
def onBoundary (outline : BoardOutline) (point : ExactPoint) : Prop :=
  OnRing (exactVertices outline) point

theorem ring_exactVertices (outline : BoardOutline) :
    ring (exactVertices outline) = (ringEdges outline.vertices).map castEdge := by
  unfold ring exactVertices ringEdges
  rw [← List.map_rotate, List.zip_map]
  rfl

theorem exactPointInOutline_iff {outline : BoardOutline} (h : 3 ≤ outline.vertices.length)
    {point : ExactPoint} :
    exactPointInOutline point outline = true ↔ point ∈ enclosed (exactVertices outline) := by
  unfold enclosed exactPointInOutline OnRing
  rw [Set.mem_ofPred_eq, if_neg (by omega), insideAfter_iff, outlineEdges_of_three h,
    ring_exactVertices]
  have hzero : mark (false = true) = 0 := rfl
  rw [hzero, zero_add]

section Tests

variable {outline : BoardOutline} (h : 3 ≤ outline.vertices.length) {p q : ExactPoint}

include h

theorem exactPointInOutline_off (hoff : ¬ onBoundary outline p) :
    exactPointInOutline p outline = true ↔ crossings p (ring (exactVertices outline)) = 1 := by
  rw [exactPointInOutline_iff h]
  exact or_iff_right hoff

/-- Along a path that keeps off the outline the answer is the same. -/
theorem exactPointInOutline_path
    (hapart : ∀ point ∈ segment p q, ¬ onBoundary outline point) :
    exactPointInOutline p outline = exactPointInOutline q outline := by
  have hmeets : ∀ e ∈ ring (exactVertices outline),
      ¬ (segment e.1 e.2 ∩ segment p q).Nonempty := by
    rintro e he ⟨point, hon, hpath⟩
    exact hapart point hpath ⟨e, he, hon⟩
  rw [Bool.eq_iff_iff, exactPointInOutline_off h (hapart p (left_mem_segment p q)),
    exactPointInOutline_off h (hapart q (right_mem_segment p q)), crossings_eq hmeets]

/-- A path that crosses one edge, inside it, changes the answer. -/
theorem exactPointInOutline_flip (hp : ¬ onBoundary outline p) (hq : ¬ onBoundary outline q)
    {before after : List (ExactPoint × ExactPoint)} {e : ExactPoint × ExactPoint}
    (hring : ring (exactVertices outline) = before ++ e :: after) {m : ExactPoint}
    (hmeet : segment e.1 e.2 ∩ segment p q = {m}) (hstart : m ≠ e.1) (hfinish : m ≠ e.2)
    (hothers : ∀ f ∈ before ++ after, ¬ (segment f.1 f.2 ∩ segment p q).Nonempty) :
    exactPointInOutline p outline = !exactPointInOutline q outline := by
  have he : e ∈ ring (exactVertices outline) := by
    rw [hring]
    exact List.mem_append_right _ List.mem_cons_self
  obtain ⟨hsides, hends⟩ := opposite_of_one_point hmeet hstart hfinish
    (fun hon => hp ⟨e, he, hon⟩) (fun hon => hq ⟨e, he, hon⟩)
  have hflip := crossings_flip hring hothers hsides hends
  have hone : ∀ {x y : ZMod 2}, x + y = 1 → (x = 1 ↔ ¬ y = 1) := by decide
  rw [Bool.eq_iff_iff, Bool.not_eq_true', ← Bool.not_eq_true, exactPointInOutline_off h hp,
    exactPointInOutline_off h hq]
  exact hone hflip

end Tests

/-- The same vertices, begun at another one, or the other way round. -/
theorem exactPointInOutline_same (vertices : List PointNm) (point : ExactPoint) (n : Nat) :
    exactPointInOutline point ⟨vertices.rotate n⟩ = exactPointInOutline point ⟨vertices⟩ ∧
      exactPointInOutline point ⟨vertices.reverse⟩ = exactPointInOutline point ⟨vertices⟩ := by
  have hlengths : ∀ other : List PointNm, other.length = vertices.length →
      ((3 ≤ other.length ∧ 3 ≤ vertices.length) →
        enclosed (exactVertices ⟨other⟩) = enclosed (exactVertices ⟨vertices⟩)) →
      exactPointInOutline point ⟨other⟩ = exactPointInOutline point ⟨vertices⟩ := by
    intro other hlength hsame
    by_cases hfew : vertices.length < 3
    · unfold exactPointInOutline
      rw [if_pos (show other.length < 3 by omega), if_pos hfew]
    · have hthree : 3 ≤ other.length ∧ 3 ≤ vertices.length := ⟨by omega, by omega⟩
      rw [Bool.eq_iff_iff, exactPointInOutline_iff hthree.1, exactPointInOutline_iff hthree.2,
        hsame hthree]
  constructor
  · refine hlengths _ (List.length_rotate ..) fun _ => ?_
    unfold exactVertices
    rw [List.map_rotate]
    exact enclosed_rotate _ n
  · refine hlengths _ List.length_reverse fun _ => ?_
    unfold exactVertices
    rw [List.map_reverse]
    exact enclosed_reverse _

/--
**The test characterises the inside of every polygon.**  A point of the outline is in it.
Off the outline, the answer is the same along every path that keeps off it, false outside
the box of the vertices, and changed by a path that crosses one edge, inside it, and meets
no other.  It does not depend on the vertex that the outline begins with, nor on the way
round, and the kernel gives the same answer for integer points.
-/
theorem pointInOutline_characterised {outline : BoardOutline} (h : 3 ≤ outline.vertices.length) :
    (∀ point, onBoundary outline point → exactPointInOutline point outline = true) ∧
    (∀ p q : ExactPoint, (∀ point ∈ segment p q, ¬ onBoundary outline point) →
      exactPointInOutline p outline = exactPointInOutline q outline) ∧
    (∀ point, Outside (exactVertices outline) point → exactPointInOutline point outline = false) ∧
    (∀ (p q m : ExactPoint) (e : ExactPoint × ExactPoint) (before after),
      ¬ onBoundary outline p → ¬ onBoundary outline q →
      ring (exactVertices outline) = before ++ e :: after →
      segment e.1 e.2 ∩ segment p q = {m} → m ≠ e.1 → m ≠ e.2 →
      (∀ f ∈ before ++ after, ¬ (segment f.1 f.2 ∩ segment p q).Nonempty) →
        exactPointInOutline p outline = !exactPointInOutline q outline) ∧
    (∀ (point : ExactPoint) (n : Nat),
      exactPointInOutline point ⟨outline.vertices.rotate n⟩ = exactPointInOutline point outline ∧
      exactPointInOutline point ⟨outline.vertices.reverse⟩ = exactPointInOutline point outline) ∧
    ∀ point : PointNm, ExactGeometryKernel.pointInOutline point outline =
      exactPointInOutline (exactPoint point : ExactPoint) outline := by
  refine ⟨?_, ?_, ?_, ?_, ?_, fun point => kernel_pointInOutline point outline⟩
  · intro point hon
    exact (exactPointInOutline_iff h).mpr (Or.inl hon)
  · intro p q hapart
    exact exactPointInOutline_path h hapart
  · intro point hout
    rw [← Bool.not_eq_true, exactPointInOutline_iff h]
    exact not_enclosed_of_outside hout
  · intro p q m e before after hp hq hring hmeet hstart hfinish hothers
    exact exactPointInOutline_flip h hp hq hring hmeet hstart hfinish hothers
  · intro point n
    exact exactPointInOutline_same outline.vertices point n

def sampleTriangle : BoardOutline := ⟨[⟨0, 0⟩, ⟨4, 0⟩, ⟨0, 4⟩]⟩

theorem pointInOutline_characterised_sample :
    exactPointInOutline (⟨5, 1⟩ : ExactPoint) sampleTriangle = false ∧
      ExactGeometryKernel.pointInOutline ⟨1, 1⟩ sampleTriangle =
        exactPointInOutline (exactPoint ⟨1, 1⟩ : ExactPoint) sampleTriangle := by
  have hall := pointInOutline_characterised (show 3 ≤ sampleTriangle.vertices.length by decide)
  refine ⟨hall.2.2.1 ⟨5, 1⟩ (Or.inr (Or.inl ?_)), hall.2.2.2.2.2 ⟨1, 1⟩⟩
  decide

end Evleda.Verification
