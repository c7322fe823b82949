/-
How segments meet.

Two segments meet when they cross or an end of one lies on the other.  Two segments with a
common end may fold back: a second common point puts one of the other ends on the other
segment.  Points with integer coordinates are asked with integers, so that the signs the
programs compute are those of the plane.
-/
import Evleda.Lib.Plane
import Mathlib.Data.Real.Basic

namespace Evleda

namespace Plane

section Meeting

variable {K : Type*} [Field K] [LinearOrder K] [IsStrictOrderedRing K] {a b c d p : Point K}

/-- **When two segments meet.** -/
theorem meet_iff : (segment a b ∩ segment c d).Nonempty ↔
    (Opposite (cross a b c) (cross a b d) ∧ Opposite (cross c d a) (cross c d b)) ∨
      c ∈ segment a b ∨ d ∈ segment a b ∨ a ∈ segment c d ∨ b ∈ segment c d := by
  constructor
  · rintro ⟨p, hab, hcd⟩
    exact opposite_of_meet hab hcd
  · rintro (⟨hab, hcd⟩ | h | h | h | h)
    · exact meet_of_opposite hab hcd
    · exact ⟨c, h, left_mem_segment c d⟩
    · exact ⟨d, h, right_mem_segment c d⟩
    · exact ⟨a, left_mem_segment a b, h⟩
    · exact ⟨b, right_mem_segment a b, h⟩

/-- Two segments from one point with another point in common lie on one another. -/
theorem end_of_fold (hab : p ∈ segment a b) (hbc : p ∈ segment b c) (hne : p ≠ b) :
    c ∈ segment a b ∨ a ∈ segment b c := by
  rw [segment_comm] at hab
  obtain ⟨s, hs0, hs1, hps⟩ := hab
  obtain ⟨t, ht0, ht1, hpt⟩ := hbc
  have hspos : 0 < s := by
    refine lt_of_le_of_ne hs0 ?_
    rintro rfl
    exact hne (by rw [hps, along_zero])
  have htpos : 0 < t := by
    refine lt_of_le_of_ne ht0 ?_
    rintro rfl
    exact hne (by rw [hpt, along_zero])
  have hx : s * (a.x - b.x) = t * (c.x - b.x) := by
    have hcoordinates := congrArg Point.x (hps.symm.trans hpt)
    simp only [along_x] at hcoordinates
    linear_combination hcoordinates
  have hy : s * (a.y - b.y) = t * (c.y - b.y) := by
    have hcoordinates := congrArg Point.y (hps.symm.trans hpt)
    simp only [along_y] at hcoordinates
    linear_combination hcoordinates
  -- the shorter of the two ends on the longer
  rcases le_total s t with hle | hle
  · left
    rw [segment_comm]
    refine ⟨s / t, div_nonneg hs0 ht0, (div_le_one htpos).mpr hle, ?_⟩
    ext
    · rw [along_x]
      field_simp
      linear_combination -hx
    · rw [along_y]
      field_simp
      linear_combination -hy
  · right
    refine ⟨t / s, div_nonneg ht0 hs0, (div_le_one hspos).mpr hle, ?_⟩
    ext
    · rw [along_x]
      field_simp
      linear_combination hx
    · rw [along_y]
      field_simp
      linear_combination hy

end Meeting

/-! ### Points with integer coordinates -/

section Integers

def Point.toReal (p : Point ℤ) : Point ℝ := ⟨p.x, p.y⟩

theorem Point.toReal_injective : Function.Injective Point.toReal := by
  intro p q h
  have hx := congrArg Point.x h
  have hy := congrArg Point.y h
  simp only [Point.toReal, Int.cast_inj] at hx hy
  exact Point.ext hx hy

/-- The segment between two integer points, in the real plane. -/
def trace (a b : Point ℤ) : Set (Point ℝ) := segment a.toReal b.toReal

/-- Twice the area of a triangle with its sign, for integers. -/
def intCross (o a b : Point ℤ) : ℤ := (a.x - o.x) * (b.y - o.y) - (a.y - o.y) * (b.x - o.x)

/-- Two integers on different sides of zero. -/
def IntOpposite (u v : ℤ) : Prop := (0 < u ∧ v < 0) ∨ (u < 0 ∧ 0 < v)

/-- A point on the line of a segment and within its box. -/
def OnSegment (p a b : Point ℤ) : Prop :=
  intCross a b p = 0 ∧ (min a.x b.x ≤ p.x ∧ p.x ≤ max a.x b.x) ∧
    (min a.y b.y ≤ p.y ∧ p.y ≤ max a.y b.y)

variable {a b c d p : Point ℤ}

theorem cross_toReal (o a b : Point ℤ) :
    cross o.toReal a.toReal b.toReal = ((intCross o a b : ℤ) : ℝ) := by
  simp [cross, intCross, Point.toReal]

theorem opposite_cast {u v : ℤ} : Opposite (u : ℝ) (v : ℝ) ↔ IntOpposite u v := by
  unfold Opposite IntOpposite
  norm_cast

theorem onSegment_iff : OnSegment p a b ↔ p.toReal ∈ trace a b := by
  unfold OnSegment trace
  rw [mem_segment_iff, cross_toReal]
  simp only [Point.toReal]
  norm_cast

theorem trace_comm (a b : Point ℤ) : trace a b = trace b a := segment_comm _ _

theorem left_mem_trace (a b : Point ℤ) : a.toReal ∈ trace a b := left_mem_segment _ _

theorem right_mem_trace (a b : Point ℤ) : b.toReal ∈ trace a b := right_mem_segment _ _

/-- **When two segments with integer ends meet, told with integers.** -/
theorem trace_meet_iff : (trace a b ∩ trace c d).Nonempty ↔
    (IntOpposite (intCross a b c) (intCross a b d) ∧
      IntOpposite (intCross c d a) (intCross c d b)) ∨
      OnSegment c a b ∨ OnSegment d a b ∨ OnSegment a c d ∨ OnSegment b c d := by
  simp only [onSegment_iff, ← opposite_cast, ← cross_toReal]
  exact meet_iff

theorem apart_of_sign_ne {u v : ℤ} (h : u.sign ≠ v.sign) : Apart (u : ℝ) (v : ℝ) := by
  have hsides : ((0 ≤ u ∧ v ≤ 0) ∨ (u ≤ 0 ∧ 0 ≤ v)) ∧ u ≠ v := by
    refine ⟨?_, fun heq => h (congrArg Int.sign heq)⟩
    by_contra hside
    rcases lt_trichotomy u 0 with hu | rfl | hu
    · exact h (by rw [Int.sign_eq_neg_one_of_neg hu, Int.sign_eq_neg_one_of_neg (by omega)])
    · omega
    · exact h (by rw [Int.sign_eq_one_of_pos hu, Int.sign_eq_one_of_pos (by omega)])
  unfold Apart
  exact_mod_cast hsides

theorem sign_ne_of_opposite {u v : ℤ} (h : IntOpposite u v) : u.sign ≠ v.sign := by
  rcases h with ⟨hu, hv⟩ | ⟨hu, hv⟩
  · rw [Int.sign_eq_one_of_pos hu, Int.sign_eq_neg_one_of_neg hv]
    decide
  · rw [Int.sign_eq_neg_one_of_neg hu, Int.sign_eq_one_of_pos hv]
    decide

/-- Ends with different signs are enough, where one of the signs may be zero. -/
theorem trace_meet_of_sign_ne (hab : (intCross a b c).sign ≠ (intCross a b d).sign)
    (hcd : (intCross c d a).sign ≠ (intCross c d b).sign) : (trace a b ∩ trace c d).Nonempty := by
  refine meet_of_apart ?_ ?_
  · rw [cross_toReal, cross_toReal]
    exact apart_of_sign_ne hab
  · rw [cross_toReal, cross_toReal]
    exact apart_of_sign_ne hcd

end Integers

end Plane

end Evleda
