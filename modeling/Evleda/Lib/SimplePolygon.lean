/-
Simple polygons and simple polylines.

A closed polygon is given by its corners, from any of them on.  It is simple when two of
its edges have no point in common but the corner where they follow one another.  A
program that wants to know this tests the pairs of edges without a common end.  That is
enough for a polygon: where two edges that follow one another fold back, the edge after
them or the one before meets one of the two, unless the polygon is a triangle, whose area
is then zero.  It is not enough for a polyline, whose first and last segments have nothing
before or after them.
-/
import Evleda.Lib.Cyclic
import Evleda.Lib.Segments

namespace Evleda

namespace Plane

open Cyclic

/-! ### Rings -/

def twiceArea (ring : List (Point ℤ)) : ℤ :=
  ((edges ring).map fun edge => edge.1.x * edge.2.y - edge.2.x * edge.1.y).sum

/-- Edges without a common end do not meet. -/
def Clear (edges : List (Point ℤ × Point ℤ)) : Prop :=
  ∀ e ∈ edges, ∀ f ∈ edges, e.1 ≠ f.1 → e.1 ≠ f.2 → e.2 ≠ f.1 → e.2 ≠ f.2 →
    ¬ (trace e.1 e.2 ∩ trace f.1 f.2).Nonempty

/-- **A simple polygon**: its edges meet in the corners where they follow one another, and nowhere
else. -/
structure SimplePolygon (ring : List (Point ℤ)) : Prop where
  three : 3 ≤ ring.length
  nodup : ring.Nodup
  area : twiceArea ring ≠ 0
  adjacent : ∀ a b c rest, ring ~r a :: b :: c :: rest → trace a b ∩ trace b c = {b.toReal}
  apart : ∀ a b c d before after, ring ~r a :: b :: (before ++ c :: d :: after) →
    trace a b ∩ trace c d = ∅

variable {ring ring' : List (Point ℤ)} {a b c d : Point ℤ}

theorem twiceArea_rotated (h : ring ~r ring') : twiceArea ring = twiceArea ring' :=
  ((edges_perm h).map _).sum_eq

/-! ### Clear polygons are simple -/

theorem twiceArea_triangle (a b c : Point ℤ) : twiceArea [a, b, c] = intCross a b c := by
  simp only [twiceArea, edges, List.rotate_cons_succ, List.rotate_zero, List.nil_append,
    List.cons_append, List.zip_cons_cons, List.zip_nil_right, List.map_cons, List.map_nil,
    List.sum_cons, List.sum_nil, intCross]
  ring

/-- **Where the edges without a common end do not meet, the edges that follow one another meet in
their corner only.** -/
theorem adjacent_of_clear (hnodup : ring.Nodup) (harea : twiceArea ring ≠ 0)
    (hclear : Clear (edges ring)) {rest : List (Point ℤ)} (h : ring ~r a :: b :: c :: rest) :
    trace a b ∩ trace b c = {b.toReal} := by
  have hfresh := (h.nodup_iff).mp hnodup
  have hmeet : ∀ p, p ∈ trace a b → p ∈ trace b c → p = b.toReal := by
    intro p hab hbc
    by_contra hne
    cases rest with
    | nil =>
        rw [twiceArea_rotated h, twiceArea_triangle] at harea
        rcases end_of_fold hab hbc hne with hc | ha
        · exact harea (onSegment_iff.mpr hc).1
        · have hzero := (onSegment_iff.mpr ha).1
          refine harea ?_
          rw [← hzero]
          unfold intCross
          ring
    | cons d rest =>
        rcases end_of_fold hab hbc hne with hc | ha
        · -- the next edge begins on the first one
          have hturn : [a, b] ++ (c :: d :: rest) ~r (c :: d :: rest) ++ [a, b] :=
            List.isRotated_append
          have hnext : ring ~r c :: d :: (rest ++ [a, b]) := h.trans hturn
          simp only [List.nodup_cons, List.mem_cons, not_or] at hfresh
          exact hclear _ (mem_edges h) _ (mem_edges hnext) hfresh.1.2.1 hfresh.1.2.2.1
            hfresh.2.1.1 hfresh.2.1.2.1 ⟨c.toReal, hc, left_mem_trace c d⟩
        · -- the edge before ends on the second one
          obtain ⟨front, z, hlast⟩ := List.eq_nil_or_concat (d :: rest) |>.resolve_left (by simp)
          rw [hlast, List.concat_eq_append] at h hfresh
          have hback : (a :: b :: c :: front) ++ [z] ~r [z] ++ (a :: b :: c :: front) :=
            List.isRotated_append
          have hturn : [a] ++ (b :: c :: (front ++ [z])) ~r (b :: c :: (front ++ [z])) ++ [a] :=
            List.isRotated_append
          have hbefore : ring ~r z :: a :: b :: c :: front := h.trans hback
          have hafter : ring ~r b :: c :: (front ++ [z] ++ [a]) := h.trans hturn
          have hfresh' := (hbefore.nodup_iff).mp hnodup
          simp only [List.nodup_cons, List.mem_cons, not_or] at hfresh'
          exact hclear _ (mem_edges hbefore) _ (mem_edges hafter) hfresh'.1.2.1
            hfresh'.1.2.2.1 hfresh'.2.1.1 hfresh'.2.1.2.1 ⟨a.toReal, right_mem_trace z a, ha⟩
  refine Set.eq_singleton_iff_unique_mem.mpr ⟨⟨right_mem_trace a b, left_mem_trace b c⟩, ?_⟩
  rintro p ⟨hab, hbc⟩
  exact hmeet p hab hbc

/-- The second of two corners in a row is found after the first. -/
theorem exists_between_corners {rest rest' : List (Point ℤ)} (hnodup : ring.Nodup)
    (h : ring ~r a :: b :: rest) (h' : ring ~r c :: d :: rest') (hac : a ≠ c) (had : a ≠ d)
    (hbc : b ≠ c) : ∃ before after, rest = before ++ c :: d :: after := by
  have hc : c ∈ a :: b :: rest := (h.perm.mem_iff).mp ((h'.perm.mem_iff).mpr List.mem_cons_self)
  simp only [List.mem_cons, hac.symm, hbc.symm, false_or] at hc
  obtain ⟨before, tail, rfl⟩ := List.append_of_mem hc
  have hturn : (a :: b :: before) ++ (c :: tail) ~r (c :: tail) ++ (a :: b :: before) :=
    List.isRotated_append
  have hsame : d :: rest' = tail ++ a :: b :: before := by
    refine rotated_cons_inj ((h'.nodup_iff).mp hnodup) (h'.symm.trans (h.trans ?_))
    exact hturn
  cases tail with
  | nil => exact absurd (List.cons.inj hsame).1.symm had
  | cons next after =>
      rw [List.cons_append, List.cons.injEq] at hsame
      exact ⟨before, after, by rw [hsame.1]⟩

/-- **A polygon is simple exactly when its edges without a common end do not meet.** -/
theorem simplePolygon_iff : SimplePolygon ring ↔
    3 ≤ ring.length ∧ ring.Nodup ∧ twiceArea ring ≠ 0 ∧ Clear (edges ring) := by
  constructor
  · intro h
    refine ⟨h.three, h.nodup, h.area, ?_⟩
    rintro ⟨a, b⟩ he ⟨c, d⟩ hf hac had hbc hbd hmeet
    have hlength : 2 ≤ ring.length := le_trans (by decide) h.three
    obtain ⟨rest, hab⟩ := exists_rotated hlength he
    obtain ⟨rest', hcd⟩ := exists_rotated hlength hf
    obtain ⟨before, after, rfl⟩ := exists_between_corners h.nodup hab hcd hac had hbc
    rw [h.apart a b c d before after hab] at hmeet
    exact Set.not_nonempty_empty hmeet
  · rintro ⟨hthree, hnodup, harea, hclear⟩
    refine ⟨hthree, hnodup, harea, fun a b c rest h => adjacent_of_clear hnodup harea hclear h, ?_⟩
    intro a b c d before after h
    rw [← Set.not_nonempty_iff_eq_empty]
    have hturn : (a :: b :: before) ++ (c :: d :: after) ~r
        (c :: d :: after) ++ (a :: b :: before) :=
      List.isRotated_append
    have hafter : ring ~r c :: d :: (after ++ a :: b :: before) := h.trans hturn
    have hfresh := (h.nodup_iff).mp hnodup
    simp only [List.nodup_cons, List.mem_cons, List.mem_append, not_or] at hfresh
    exact hclear _ (mem_edges h) _ (mem_edges hafter) hfresh.1.2.2.1 hfresh.1.2.2.2.1
      hfresh.2.1.2.1 hfresh.2.1.2.2.1

/-! ### Polylines -/

/-- **A simple polyline**: its segments meet in the points where they follow one another, and
nowhere else. -/
structure SimplePolyline (line : List (Point ℤ)) : Prop where
  adjacent : ∀ a b c before after, line = before ++ a :: b :: c :: after →
    trace a b ∩ trace b c = {b.toReal}
  apart : ∀ a b c d before middle after, line = before ++ a :: b :: (middle ++ c :: d :: after) →
    trace a b ∩ trace c d = ∅

/-- The last point of a polyline does not lie on the segment before its own, nor the first one on
the segment after its own. -/
def EndsClear (line : List (Point ℤ)) : Prop :=
  (∀ a b c rest, line = a :: b :: c :: rest → a.toReal ∉ trace b c) ∧
    ∀ a b c front, line = front ++ [a, b, c] → c.toReal ∉ trace a b

/-- **Where the segments that do not follow one another do not meet, a polyline is simple exactly
when its ends do not fold back.** -/
theorem simplePolyline_iff {line : List (Point ℤ)} (hnodup : line.Nodup)
    (hapart : ∀ a b c d before middle after,
      line = before ++ a :: b :: (middle ++ c :: d :: after) → trace a b ∩ trace c d = ∅) :
    SimplePolyline line ↔ EndsClear line := by
  constructor
  · intro h
    constructor
    · rintro a b c rest hline ha
      have hshared := h.adjacent a b c [] rest hline
      have hone : a.toReal ∈ trace a b ∩ trace b c := ⟨left_mem_trace a b, ha⟩
      rw [hshared, Set.mem_singleton_iff] at hone
      have hab := Point.toReal_injective hone
      rw [hline, hab] at hnodup
      simp at hnodup
    · rintro a b c front hline hc
      have hshared := h.adjacent a b c front [] hline
      have hone : c.toReal ∈ trace a b ∩ trace b c := ⟨hc, right_mem_trace b c⟩
      rw [hshared, Set.mem_singleton_iff] at hone
      have hcb := Point.toReal_injective hone
      rw [hline, hcb] at hnodup
      simp [List.nodup_append] at hnodup
  · rintro ⟨hfirst, hlast⟩
    refine ⟨?_, hapart⟩
    intro a b c before after hline
    refine Set.eq_singleton_iff_unique_mem.mpr ⟨⟨right_mem_trace a b, left_mem_trace b c⟩, ?_⟩
    rintro p ⟨hab, hbc⟩
    by_contra hne
    rcases end_of_fold hab hbc hne with hc | ha
    · cases after with
      | nil => exact hlast a b c before hline hc
      | cons d rest =>
          -- the next segment begins on the first one
          have hempty := hapart a b c d before [] rest hline
          have hboth : c.toReal ∈ trace a b ∩ trace c d := ⟨hc, left_mem_trace c d⟩
          rw [hempty] at hboth
          exact hboth
    · rcases List.eq_nil_or_concat before with rfl | ⟨front, z, rfl⟩
      · exact hfirst a b c after hline ha
      · -- the segment before ends on the second one
        have hempty := hapart z a b c front [] after (by rw [hline]; simp)
        have hboth : a.toReal ∈ trace z a ∩ trace b c := ⟨right_mem_trace z a, ha⟩
        rw [hempty] at hboth
        exact hboth

end Plane

end Evleda
