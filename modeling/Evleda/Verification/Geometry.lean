/-
Exact distances between the shapes of a board.

The functions are those of the source, over any ordered field: the rules run them
on fractions, and what they mean is said about points of the real plane, so that the
second half of the file takes each one from the fractions to the reals.

Every distance is the least one there is, and two segments are said to meet exactly
when they share a point.
-/
import Evleda.Verification.Model
import Mathlib.Data.Real.Basic
import Mathlib.Tactic.NormNum
import Mathlib.Algebra.Order.Ring.Cast
import Mathlib.Data.Rat.Cast.Order

namespace Evleda.Verification

open Plane

/-- Internal rational point used for half-nanometre pad boundaries. -/
abbrev ExactPoint := Point ℚ

/-- `exact_point(point)`, over any field -/
def exactPoint {K : Type*} [IntCast K] (point : PointNm) : Point K := ⟨point.x, point.y⟩

section Exact

variable {K : Type*} [Field K] [LinearOrder K]

def exactCross (origin first second : Point K) : K :=
  (first.x - origin.x) * (second.y - origin.y) - (first.y - origin.y) * (second.x - origin.x)

def exactOnSegment (point start finish : Point K) : Bool :=
  exactCross start finish point = 0 ∧
    (min start.x finish.x ≤ point.x ∧ point.x ≤ max start.x finish.x) ∧
    (min start.y finish.y ≤ point.y ∧ point.y ≤ max start.y finish.y)

def exactSegmentsIntersect (firstStart firstEnd secondStart secondEnd : Point K) : Bool :=
  let firstA := exactCross firstStart firstEnd secondStart
  let firstB := exactCross firstStart firstEnd secondEnd
  let secondA := exactCross secondStart secondEnd firstStart
  let secondB := exactCross secondStart secondEnd firstEnd
  if ((0 < firstA ∧ firstB < 0) ∨ (firstA < 0 ∧ 0 < firstB)) ∧
      ((0 < secondA ∧ secondB < 0) ∨ (secondA < 0 ∧ 0 < secondB)) then true
  else
    (firstA = 0 ∧ exactOnSegment secondStart firstStart firstEnd) ∨
      (firstB = 0 ∧ exactOnSegment secondEnd firstStart firstEnd) ∨
      (secondA = 0 ∧ exactOnSegment firstStart secondStart secondEnd) ∨
      (secondB = 0 ∧ exactOnSegment firstEnd secondStart secondEnd)

def exactPointSegmentDistanceSquared (point start finish : Point K) : K :=
  let dx := finish.x - start.x
  let dy := finish.y - start.y
  let lengthSquared := dx * dx + dy * dy
  let fromStart := (point.x - start.x) * (point.x - start.x) +
    (point.y - start.y) * (point.y - start.y)
  if lengthSquared = 0 then fromStart
  else
    let projection := (point.x - start.x) * dx + (point.y - start.y) * dy
    if projection ≤ 0 then fromStart
    else if lengthSquared ≤ projection then
      (point.x - finish.x) * (point.x - finish.x) + (point.y - finish.y) * (point.y - finish.y)
    else
      let cross := dx * (point.y - start.y) - dy * (point.x - start.x)
      cross * cross / lengthSquared

def exactSegmentDistanceSquared (firstStart firstEnd secondStart secondEnd : Point K) : K :=
  if exactSegmentsIntersect firstStart firstEnd secondStart secondEnd then 0
  else
    min (min (exactPointSegmentDistanceSquared firstStart secondStart secondEnd)
        (exactPointSegmentDistanceSquared firstEnd secondStart secondEnd))
      (min (exactPointSegmentDistanceSquared secondStart firstStart firstEnd)
        (exactPointSegmentDistanceSquared secondEnd firstStart firstEnd))

/-- The straight core of a rectangular pad; its corners cannot be out of order. -/
structure CoreBox (K : Type*) [LE K] where
  minimum : Point K
  maximum : Point K
  x_le : minimum.x ≤ maximum.x
  y_le : minimum.y ≤ maximum.y

def CoreBox.corners (box : CoreBox K) : List (Point K) :=
  [⟨box.minimum.x, box.minimum.y⟩, ⟨box.maximum.x, box.minimum.y⟩,
    ⟨box.maximum.x, box.maximum.y⟩, ⟨box.minimum.x, box.maximum.y⟩]

def CoreBox.edges (box : CoreBox K) : List (Point K × Point K) :=
  box.corners.zip (box.corners.rotate 1)

def pointDistanceSquared (first second : Point K) : K :=
  (first.x - second.x) ^ 2 + (first.y - second.y) ^ 2

def pointInBox (point : Point K) (box : CoreBox K) : Bool :=
  (box.minimum.x ≤ point.x ∧ point.x ≤ box.maximum.x) ∧
    (box.minimum.y ≤ point.y ∧ point.y ≤ box.maximum.y)

def pointBoxDistanceSquared (point : Point K) (box : CoreBox K) : K :=
  let dx := max (max (box.minimum.x - point.x) 0) (point.x - box.maximum.x)
  let dy := max (max (box.minimum.y - point.y) 0) (point.y - box.maximum.y)
  dx * dx + dy * dy

/-- `min(values) if values else 0` -/
def minimumOf (values : List K) : K := values.min?.getD 0

def segmentBoxDistanceSquared (start finish : Point K) (box : CoreBox K) : K :=
  if pointInBox start box ∨ pointInBox finish box ∨
      (box.edges.any fun edge => exactSegmentsIntersect start finish edge.1 edge.2) then 0
  else
    minimumOf (pointBoxDistanceSquared start box :: pointBoxDistanceSquared finish box ::
      box.corners.map fun corner => exactPointSegmentDistanceSquared corner start finish)

def boxDistanceSquared (first second : CoreBox K) : K :=
  let dx := max (max (first.minimum.x - second.maximum.x) 0) (second.minimum.x - first.maximum.x)
  let dy := max (max (first.minimum.y - second.maximum.y) 0) (second.minimum.y - first.maximum.y)
  dx * dx + dy * dy

/-- The core of a copper shape: its centre, its axis, or its box. -/
inductive Core (K : Type*) [LE K] where
  | center (point : Point K)
  | axis (start finish : Point K)
  | box (box : CoreBox K)

/-- `_distance_squared` of two cores -/
def coreDistanceSquared : Core K → Core K → K
  | .box first, .box second => boxDistanceSquared first second
  | .box first, .axis start finish => segmentBoxDistanceSquared start finish first
  | .box first, .center point => pointBoxDistanceSquared point first
  | .axis start finish, .box second => segmentBoxDistanceSquared start finish second
  | .center point, .box second => pointBoxDistanceSquared point second
  | .axis start finish, .axis start' finish' =>
      exactSegmentDistanceSquared start finish start' finish'
  | .axis start finish, .center point => exactPointSegmentDistanceSquared point start finish
  | .center point, .axis start finish => exactPointSegmentDistanceSquared point start finish
  | .center first, .center second => pointDistanceSquared first second

/-! ### What the functions compute -/

def Core.points : Core K → Set (Point K)
  | .center point => {point}
  | .axis start finish => segment start finish
  | .box corners => Plane.box corners.minimum corners.maximum

variable [IsStrictOrderedRing K] {a b c d p : Point K}

omit [LinearOrder K] [IsStrictOrderedRing K] in
theorem exactCross_eq (origin first second : Point K) :
    exactCross origin first second = cross origin first second := rfl

theorem exactOnSegment_iff : exactOnSegment p a b = true ↔ p ∈ segment a b := by
  unfold exactOnSegment
  rw [decide_eq_true_eq, exactCross_eq, mem_segment_iff]

/-- **The intersection test is right.** -/
theorem exactSegmentsIntersect_iff :
    exactSegmentsIntersect a b c d = true ↔ (segment a b ∩ segment c d).Nonempty := by
  unfold exactSegmentsIntersect
  dsimp only
  constructor
  · intro h
    split at h
    · rename_i hcrossing
      exact meet_of_opposite hcrossing.1 hcrossing.2
    · rw [decide_eq_true_eq] at h
      rcases h with ⟨-, h⟩ | ⟨-, h⟩ | ⟨-, h⟩ | ⟨-, h⟩
      · exact ⟨c, exactOnSegment_iff.mp h, left_mem_segment c d⟩
      · exact ⟨d, exactOnSegment_iff.mp h, right_mem_segment c d⟩
      · exact ⟨a, left_mem_segment a b, exactOnSegment_iff.mp h⟩
      · exact ⟨b, right_mem_segment a b, exactOnSegment_iff.mp h⟩
  · rintro ⟨p, hab, hcd⟩
    split
    · rfl
    · rename_i hcrossing
      rw [decide_eq_true_eq]
      rcases opposite_of_meet hab hcd with h | h | h | h | h
      · exact absurd h hcrossing
      · exact Or.inl ⟨(mem_segment_iff.mp h).1, exactOnSegment_iff.mpr h⟩
      · exact Or.inr (Or.inl ⟨(mem_segment_iff.mp h).1, exactOnSegment_iff.mpr h⟩)
      · exact Or.inr (Or.inr (Or.inl ⟨(mem_segment_iff.mp h).1, exactOnSegment_iff.mpr h⟩))
      · exact Or.inr (Or.inr (Or.inr ⟨(mem_segment_iff.mp h).1, exactOnSegment_iff.mpr h⟩))

omit [LinearOrder K] [IsStrictOrderedRing K] in
theorem sqDist_to_along (p s e : Point K) (t : K) :
    sqDist p (along s e t) = sqDist p s -
      2 * t * ((p.x - s.x) * (e.x - s.x) + (p.y - s.y) * (e.y - s.y)) + t ^ 2 * sqDist e s := by
  unfold sqDist
  simp only [along_x, along_y]
  ring

/-- **The distance of a point and a segment is the least one.** -/
theorem exactPointSegmentDistanceSquared_comesTo (p s e : Point K) :
    ComesTo {p} (segment s e) (exactPointSegmentDistanceSquared p s e) := by
  have hlength : (e.x - s.x) * (e.x - s.x) + (e.y - s.y) * (e.y - s.y) = sqDist e s := by
    unfold sqDist
    ring
  have hfrom : (p.x - s.x) * (p.x - s.x) + (p.y - s.y) * (p.y - s.y) = sqDist p s := by
    unfold sqDist
    ring
  have hto : (p.x - e.x) * (p.x - e.x) + (p.y - e.y) * (p.y - e.y) = sqDist p e := by
    unfold sqDist
    ring
  unfold exactPointSegmentDistanceSquared
  simp only [hlength, hfrom, hto]
  obtain ⟨P, hP⟩ : ∃ P, P = (p.x - s.x) * (e.x - s.x) + (p.y - s.y) * (e.y - s.y) := ⟨_, rfl⟩
  have hway : ∀ t, sqDist p (along s e t) = sqDist p s - 2 * t * P + t ^ 2 * sqDist e s := by
    intro t
    rw [sqDist_to_along, hP]
  rw [← hP]
  have hend : sqDist p e = sqDist p s - 2 * P + sqDist e s := by
    have hone := hway 1
    rw [along_one] at hone
    linear_combination hone
  have hnonneg := sqDist_nonneg e s
  split
  · -- the segment is a point
    rename_i hzero
    obtain rfl := sqDist_eq_zero.mp hzero
    refine ⟨⟨p, rfl, e, left_mem_segment e e, rfl⟩, ?_⟩
    rintro _ rfl q ⟨t, -, -, rfl⟩
    exact le_of_eq (congrArg _ (by ext <;> simp))
  · rename_i hzero
    have hpos : 0 < sqDist e s := lt_of_le_of_ne hnonneg (Ne.symm hzero)
    split
    · refine ⟨⟨p, rfl, s, left_mem_segment s e, rfl⟩, ?_⟩
      rintro _ rfl q ⟨t, h0, -, rfl⟩
      rw [hway]
      nlinarith [mul_nonneg (sq_nonneg t) hpos.le]
    · split
      · refine ⟨⟨p, rfl, e, right_mem_segment s e, rfl⟩, ?_⟩
        rintro _ rfl q ⟨t, h0, h1, rfl⟩
        rw [hway, hend]
        nlinarith [mul_nonneg (sub_nonneg.mpr h1) (mul_nonneg (sub_nonneg.mpr h1) hpos.le)]
      · -- the nearest point is where the perpendicular falls
        rename_i hbefore hbehind
        have hcross : ((e.x - s.x) * (p.y - s.y) - (e.y - s.y) * (p.x - s.x)) *
            ((e.x - s.x) * (p.y - s.y) - (e.y - s.y) * (p.x - s.x)) / sqDist e s =
              sqDist p s - P ^ 2 / sqDist e s := by
          rw [eq_sub_iff_add_eq, ← add_div, div_eq_iff hzero, hP]
          unfold sqDist
          ring
        rw [hcross]
        refine ⟨⟨p, rfl, _, ⟨P / sqDist e s, div_nonneg (not_le.mp hbefore).le hpos.le,
          (div_le_one hpos).mpr (not_le.mp hbehind).le, rfl⟩, ?_⟩, ?_⟩
        · rw [hway]
          field_simp
          ring
        · rintro _ rfl q ⟨t, h0, h1, rfl⟩
          rw [hway]
          have hsquare : 0 ≤ (P - t * sqDist e s) ^ 2 / sqDist e s :=
            div_nonneg (sq_nonneg _) hpos.le
          have hexpand : (P - t * sqDist e s) ^ 2 / sqDist e s =
              P ^ 2 / sqDist e s - 2 * t * P + t ^ 2 * sqDist e s := by
            field_simp
            ring
          linarith

/-- **The distance of two segments is the least one.** -/
theorem exactSegmentDistanceSquared_comesTo (a b c d : Point K) :
    ComesTo (segment a b) (segment c d) (exactSegmentDistanceSquared a b c d) := by
  unfold exactSegmentDistanceSquared
  split
  · rename_i hmeet
    obtain ⟨p, hab, hcd⟩ := exactSegmentsIntersect_iff.mp hmeet
    exact comesTo_zero hab hcd
  · rename_i hapart
    rw [exactSegmentsIntersect_iff] at hapart
    have hfirst := exactPointSegmentDistanceSquared_comesTo a c d
    have hsecond := exactPointSegmentDistanceSquared_comesTo b c d
    have hthird := exactPointSegmentDistanceSquared_comesTo c a b
    have hfourth := exactPointSegmentDistanceSquared_comesTo d a b
    constructor
    · -- whichever of the four is least is attained
      rcases min_choice (min (exactPointSegmentDistanceSquared a c d)
        (exactPointSegmentDistanceSquared b c d)) (min (exactPointSegmentDistanceSquared c a b)
        (exactPointSegmentDistanceSquared d a b)) with h | h
      · rw [h]
        rcases min_choice (exactPointSegmentDistanceSquared a c d)
          (exactPointSegmentDistanceSquared b c d) with h | h
        · rw [h]
          obtain ⟨_, rfl, q, hq, hd⟩ := hfirst.attained
          exact ⟨_, left_mem_segment _ _, q, hq, hd⟩
        · rw [h]
          obtain ⟨_, rfl, q, hq, hd⟩ := hsecond.attained
          exact ⟨_, right_mem_segment _ _, q, hq, hd⟩
      · rw [h]
        rcases min_choice (exactPointSegmentDistanceSquared c a b)
          (exactPointSegmentDistanceSquared d a b) with h | h
        · rw [h]
          obtain ⟨q, hq, _, rfl, hd⟩ := hthird.symm.attained
          exact ⟨q, hq, _, left_mem_segment _ _, hd⟩
        · rw [h]
          obtain ⟨q, hq, _, rfl, hd⟩ := hfourth.symm.attained
          exact ⟨q, hq, _, right_mem_segment _ _, hd⟩
    · intro p hp q hq
      obtain ⟨p', hp', q', hq', hle, hend⟩ := exists_end_closest hapart hp hq
      refine le_trans ?_ hle
      rcases hend with rfl | rfl | rfl | rfl
      · exact (min_le_left _ _).trans ((min_le_left _ _).trans (hfirst.least _ rfl _ hq'))
      · exact (min_le_left _ _).trans ((min_le_right _ _).trans (hsecond.least _ rfl _ hq'))
      · exact (min_le_right _ _).trans ((min_le_left _ _).trans (hthird.symm.least _ hp' _ rfl))
      · exact (min_le_right _ _).trans ((min_le_right _ _).trans (hfourth.symm.least _ hp' _ rfl))

variable {box : CoreBox K}

omit [Field K] [IsStrictOrderedRing K] in
theorem pointInBox_iff :
    pointInBox p box = true ↔ p ∈ Plane.box box.minimum box.maximum := by
  unfold pointInBox
  rw [decide_eq_true_eq]
  rfl

omit [IsStrictOrderedRing K] in
theorem max_max_eq_gap (low high v : K) : max (max (low - v) 0) (v - high) = gap low high v := by
  rw [max_assoc]
  rfl

omit [IsStrictOrderedRing K] in
theorem pointBoxDistanceSquared_eq (p : Point K) (box : CoreBox K) :
    pointBoxDistanceSquared p box =
      gap box.minimum.x box.maximum.x p.x ^ 2 + gap box.minimum.y box.maximum.y p.y ^ 2 := by
  unfold pointBoxDistanceSquared
  simp only [max_max_eq_gap]
  ring

theorem pointBoxDistanceSquared_comesTo (p : Point K) (box : CoreBox K) :
    ComesTo {p} (Plane.box box.minimum box.maximum) (pointBoxDistanceSquared p box) := by
  rw [pointBoxDistanceSquared_eq]
  constructor
  · obtain ⟨x, hx, hxd⟩ := gap_attained box.x_le p.x
    obtain ⟨y, hy, hyd⟩ := gap_attained box.y_le p.y
    refine ⟨p, rfl, ⟨x, y⟩, ⟨hx, hy⟩, ?_⟩
    unfold sqDist
    rw [hxd, hyd]
  · rintro _ rfl q ⟨⟨hxl, hxh⟩, hyl, hyh⟩
    exact add_le_add (gap_le hxl hxh) (gap_le hyl hyh)

/-- Two intervals, seen from the first: how far they are apart. -/
theorem max_max_intervals {l h l' h' : K} (hle : l ≤ h) (hle' : l' ≤ h') :
    (∃ v w, (l ≤ v ∧ v ≤ h) ∧ (l' ≤ w ∧ w ≤ h') ∧
      (v - w) ^ 2 = max (max (l - h') 0) (l' - h) ^ 2) ∧
      ∀ v w, l ≤ v → v ≤ h → l' ≤ w → w ≤ h' →
        max (max (l - h') 0) (l' - h) ^ 2 ≤ (v - w) ^ 2 := by
  by_cases hright : h' ≤ l
  · have hmax : max (max (l - h') 0) (l' - h) = l - h' := by
      rw [max_eq_left (show (0 : K) ≤ l - h' by linarith), max_eq_left (by linarith)]
    rw [hmax]
    refine ⟨⟨l, h', ⟨le_refl l, hle⟩, ⟨hle', le_refl h'⟩, rfl⟩, ?_⟩
    intro v w hlv _ _ hwh
    exact pow_le_pow_left₀ (by linarith) (by linarith) 2
  · by_cases hleft : h ≤ l'
    · have hmax : max (max (l - h') 0) (l' - h) = l' - h := by
        rw [max_eq_right (show l - h' ≤ (0 : K) by linarith), max_eq_right (by linarith)]
      rw [hmax]
      refine ⟨⟨h, l', ⟨hle, le_refl h⟩, ⟨le_refl l', hle'⟩, by ring⟩, ?_⟩
      intro v w _ hvh hlw _
      calc (l' - h) ^ 2 ≤ (w - v) ^ 2 := pow_le_pow_left₀ (by linarith) (by linarith) 2
        _ = (v - w) ^ 2 := by ring
    · have hmax : max (max (l - h') 0) (l' - h) = 0 := by
        rw [max_eq_right (show l - h' ≤ (0 : K) by linarith), max_eq_left (by linarith)]
      rw [hmax]
      refine ⟨⟨max l l', max l l', ⟨le_max_left _ _, max_le hle (not_le.mp hleft).le⟩,
        ⟨le_max_right _ _, max_le (not_le.mp hright).le hle'⟩, by ring⟩, ?_⟩
      intro v w _ _ _ _
      rw [zero_pow two_ne_zero]
      exact sq_nonneg _

theorem boxDistanceSquared_comesTo (first second : CoreBox K) :
    ComesTo (Plane.box first.minimum first.maximum) (Plane.box second.minimum second.maximum)
      (boxDistanceSquared first second) := by
  obtain ⟨⟨x, x', hx, hx', hxd⟩, hxleast⟩ := max_max_intervals first.x_le second.x_le
  obtain ⟨⟨y, y', hy, hy', hyd⟩, hyleast⟩ := max_max_intervals first.y_le second.y_le
  unfold boxDistanceSquared
  simp only [← sq]
  constructor
  · refine ⟨⟨x, y⟩, ⟨hx, hy⟩, ⟨x', y'⟩, ⟨hx', hy'⟩, ?_⟩
    unfold sqDist
    rw [hxd, hyd]
  · rintro p ⟨hpx, hpy⟩ q ⟨hqx, hqy⟩
    exact add_le_add (hxleast _ _ hpx.1 hpx.2 hqx.1 hqx.2) (hyleast _ _ hpy.1 hpy.2 hqy.1 hqy.2)

omit [IsStrictOrderedRing K] in
theorem minimumOf_mem {values : List K} (h : values ≠ []) : minimumOf values ∈ values := by
  unfold minimumOf
  cases hmin : values.min? with
  | none => exact absurd (List.min?_eq_none_iff.mp hmin) h
  | some v => exact (List.min?_eq_some_iff.mp hmin).1

omit [IsStrictOrderedRing K] in
theorem minimumOf_le {values : List K} {v : K} (h : v ∈ values) : minimumOf values ≤ v := by
  unfold minimumOf
  cases hmin : values.min? with
  | none => exact absurd (List.min?_eq_none_iff.mp hmin) (List.ne_nil_of_mem h)
  | some w => exact (List.min?_eq_some_iff.mp hmin).2 v h

/-! ### Boxes -/

section

omit [Field K] [IsStrictOrderedRing K]

theorem CoreBox.corner_mem (h : p ∈ box.corners) :
    p ∈ Plane.box box.minimum box.maximum := by
  simp only [CoreBox.corners, List.mem_cons, List.not_mem_nil, or_false] at h
  rcases h with rfl | rfl | rfl | rfl
  · exact ⟨⟨le_refl _, box.x_le⟩, le_refl _, box.y_le⟩
  · exact ⟨⟨box.x_le, le_refl _⟩, le_refl _, box.y_le⟩
  · exact ⟨⟨box.x_le, le_refl _⟩, box.y_le, le_refl _⟩
  · exact ⟨⟨le_refl _, box.x_le⟩, box.y_le, le_refl _⟩

theorem CoreBox.edge_corners {edge : Point K × Point K} (h : edge ∈ box.edges) :
    edge.1 ∈ box.corners ∧ edge.2 ∈ box.corners := by
  have hrotated := List.of_mem_zip (show (edge.1, edge.2) ∈ _ from h)
  exact ⟨hrotated.1, List.mem_rotate.mp hrotated.2⟩

end

theorem CoreBox.edge_subset {edge : Point K × Point K} (h : edge ∈ box.edges) :
    segment edge.1 edge.2 ⊆ Plane.box box.minimum box.maximum :=
  segment_subset_box (corner_mem (edge_corners h).1) (corner_mem (edge_corners h).2)

theorem CoreBox.exists_edge (hp : p ∈ Plane.box box.minimum box.maximum)
    (hside : p.x = box.minimum.x ∨ p.x = box.maximum.x ∨ p.y = box.minimum.y ∨
      p.y = box.maximum.y) : ∃ edge ∈ box.edges, p ∈ segment edge.1 edge.2 := by
  obtain ⟨⟨hxl, hxh⟩, hyl, hyh⟩ := hp
  have hedges : box.edges =
      [(⟨box.minimum.x, box.minimum.y⟩, ⟨box.maximum.x, box.minimum.y⟩),
        (⟨box.maximum.x, box.minimum.y⟩, ⟨box.maximum.x, box.maximum.y⟩),
        (⟨box.maximum.x, box.maximum.y⟩, ⟨box.minimum.x, box.maximum.y⟩),
        (⟨box.minimum.x, box.maximum.y⟩, ⟨box.minimum.x, box.minimum.y⟩)] := rfl
  rw [hedges]
  rcases p with ⟨x, y⟩
  rcases hside with rfl | rfl | rfl | rfl
  · refine ⟨_, List.mem_cons_of_mem _ (List.mem_cons_of_mem _ (List.mem_cons_of_mem _
      List.mem_cons_self)), ?_⟩
    rw [segment_comm]
    exact mem_segment_upright hyl hyh
  · exact ⟨_, List.mem_cons_of_mem _ List.mem_cons_self, mem_segment_upright hyl hyh⟩
  · exact ⟨_, List.mem_cons_self, mem_segment_level hxl hxh⟩
  · refine ⟨_, List.mem_cons_of_mem _ (List.mem_cons_of_mem _ List.mem_cons_self), ?_⟩
    rw [segment_comm]
    exact mem_segment_level hxl hxh

theorem segment_meets_box_iff {s e : Point K} :
    (pointInBox s box = true ∨ pointInBox e box = true ∨
      (box.edges.any fun edge => exactSegmentsIntersect s e edge.1 edge.2) = true) ↔
        (segment s e ∩ Plane.box box.minimum box.maximum).Nonempty := by
  simp only [pointInBox_iff, List.any_eq_true, exactSegmentsIntersect_iff]
  constructor
  · rintro (h | h | ⟨edge, hedge, p, hp, hin⟩)
    · exact ⟨s, left_mem_segment s e, h⟩
    · exact ⟨e, right_mem_segment s e, h⟩
    · exact ⟨p, hp, CoreBox.edge_subset hedge hin⟩
  · rintro ⟨p, hp, hin⟩
    by_cases hstart : s ∈ Plane.box box.minimum box.maximum
    · exact Or.inl hstart
    · -- on the way to the start the box is left through an edge
      obtain ⟨t, h0, h1, hlast, hside⟩ := exists_exit hin hstart
      obtain ⟨edge, hedge, hon⟩ := CoreBox.exists_edge hlast hside
      exact Or.inr (Or.inr ⟨edge, hedge, _,
        along_mem_segment hp (left_mem_segment s e) h0 h1, hon⟩)

/-- **The distance of a segment and a box is the least one.** -/
theorem segmentBoxDistanceSquared_comesTo (s e : Point K) (box : CoreBox K) :
    ComesTo (segment s e) (Plane.box box.minimum box.maximum)
      (segmentBoxDistanceSquared s e box) := by
  unfold segmentBoxDistanceSquared
  split
  · rename_i hmeet
    obtain ⟨p, hp, hin⟩ := segment_meets_box_iff.mp hmeet
    exact comesTo_zero hp hin
  · rename_i hapart
    rw [segment_meets_box_iff] at hapart
    have hstart := pointBoxDistanceSquared_comesTo s box
    have hfinish := pointBoxDistanceSquared_comesTo e box
    constructor
    · have hmem := minimumOf_mem (List.cons_ne_nil (pointBoxDistanceSquared s box)
        (pointBoxDistanceSquared e box ::
          box.corners.map fun corner => exactPointSegmentDistanceSquared corner s e))
      rw [List.mem_cons, List.mem_cons, List.mem_map] at hmem
      rcases hmem with h | h | ⟨corner, hcorner, h⟩
      · rw [h]
        obtain ⟨_, rfl, q, hq, hd⟩ := hstart.attained
        exact ⟨_, left_mem_segment _ _, q, hq, hd⟩
      · rw [h]
        obtain ⟨_, rfl, q, hq, hd⟩ := hfinish.attained
        exact ⟨_, right_mem_segment _ _, q, hq, hd⟩
      · rw [← h]
        obtain ⟨p, hp, _, rfl, hd⟩ :=
          (exactPointSegmentDistanceSquared_comesTo corner s e).symm.attained
        exact ⟨p, hp, _, CoreBox.corner_mem hcorner, hd⟩
    · intro p hp q hq
      -- the nearest point of the box may be taken on an edge
      have hout : p ∉ Plane.box box.minimum box.maximum := fun hin => hapart ⟨p, hp, hin⟩
      obtain ⟨t, h0, h1, hlast, hside⟩ := exists_exit hq hout
      obtain ⟨edge, hedge, hon⟩ := CoreBox.exists_edge hlast hside
      have hnearer : sqDist p (along q p t) ≤ sqDist p q := by
        rw [sqDist_comm p, sqDist_along_right, sqDist_comm q]
        have hsq : (1 - t) ^ 2 ≤ 1 := pow_le_one₀ (sub_nonneg.mpr h1) (by linarith)
        nlinarith [sqDist_nonneg p q]
      have hclear : ¬ (segment s e ∩ segment edge.1 edge.2).Nonempty := by
        rintro ⟨z, hz, hze⟩
        exact hapart ⟨z, hz, CoreBox.edge_subset hedge hze⟩
      obtain ⟨p', hp', q', hq', hle, hend⟩ := exists_end_closest hclear hp hon
      refine le_trans ?_ (hle.trans hnearer)
      have hin := CoreBox.edge_subset hedge hq'
      have hcorner : ∀ corner ∈ box.corners, q' = corner →
          exactPointSegmentDistanceSquared corner s e ≤ sqDist p' q' := by
        rintro corner - rfl
        exact (exactPointSegmentDistanceSquared_comesTo q' s e).symm.least _ hp' _ rfl
      have hcorners := CoreBox.edge_corners hedge
      rcases hend with rfl | rfl | h | h
      · exact (minimumOf_le List.mem_cons_self).trans (hstart.least _ rfl _ hin)
      · exact (minimumOf_le (List.mem_cons_of_mem _ List.mem_cons_self)).trans
          (hfinish.least _ rfl _ hin)
      · exact (minimumOf_le (List.mem_cons_of_mem _ (List.mem_cons_of_mem _
          (List.mem_map.mpr ⟨_, hcorners.1, rfl⟩)))).trans (hcorner _ hcorners.1 h)
      · exact (minimumOf_le (List.mem_cons_of_mem _ (List.mem_cons_of_mem _
          (List.mem_map.mpr ⟨_, hcorners.2, rfl⟩)))).trans (hcorner _ hcorners.2 h)

omit [IsStrictOrderedRing K] in
theorem comesTo_points (p q : Point K) : ComesTo {p} {q} (pointDistanceSquared p q) where
  attained := ⟨p, rfl, q, rfl, rfl⟩
  least := by
    rintro _ rfl _ rfl
    exact le_refl _

/--
**The distance of two cores is the least one.**  Whatever the kinds of the two shapes,
the function returns the square of the distance of two points of them, and no two are
nearer.
-/
theorem coreDistanceSquared_comesTo (first second : Core K) :
    ComesTo first.points second.points (coreDistanceSquared first second) := by
  cases first with
  | center p =>
      cases second with
      | center q => exact comesTo_points p q
      | axis s e => exact exactPointSegmentDistanceSquared_comesTo p s e
      | box corners => exact pointBoxDistanceSquared_comesTo p corners
  | axis s e =>
      cases second with
      | center q => exact (exactPointSegmentDistanceSquared_comesTo q s e).symm
      | axis s' e' => exact exactSegmentDistanceSquared_comesTo s e s' e'
      | box corners => exact segmentBoxDistanceSquared_comesTo s e corners
  | box corners =>
      cases second with
      | center q => exact (pointBoxDistanceSquared_comesTo q corners).symm
      | axis s e => exact (segmentBoxDistanceSquared_comesTo s e corners).symm
      | box corners' => exact boxDistanceSquared_comesTo corners corners'

end Exact

/-! ### From fractions to reals -/

def real (p : ExactPoint) : Point ℝ := ⟨p.x, p.y⟩

@[simp] theorem real_x (p : ExactPoint) : (real p).x = p.x := rfl

@[simp] theorem real_y (p : ExactPoint) : (real p).y = p.y := rfl

@[simp] theorem real_exactPoint (point : PointNm) : real (exactPoint point) = exactPoint point := by
  ext <;> simp [exactPoint]

def CoreBox.real (box : CoreBox ℚ) : CoreBox ℝ where
  minimum := Verification.real box.minimum
  maximum := Verification.real box.maximum
  x_le := Rat.cast_le.mpr box.x_le
  y_le := Rat.cast_le.mpr box.y_le

def Core.real : Core ℚ → Core ℝ
  | .center point => .center (Verification.real point)
  | .axis start finish => .axis (Verification.real start) (Verification.real finish)
  | .box corners => .box corners.real

theorem exactCross_real (o a b : ExactPoint) :
    exactCross (real o) (real a) (real b) = exactCross o a b := by
  unfold exactCross
  simp only [real_x, real_y]
  push_cast
  rfl

theorem exactOnSegment_real (p a b : ExactPoint) :
    exactOnSegment (real p) (real a) (real b) = exactOnSegment p a b := by
  unfold exactOnSegment
  simp only [exactCross_real, real_x, real_y]
  norm_cast

theorem exactSegmentsIntersect_real (a b c d : ExactPoint) :
    exactSegmentsIntersect (real a) (real b) (real c) (real d) = exactSegmentsIntersect a b c d := by
  unfold exactSegmentsIntersect
  simp only [exactCross_real, exactOnSegment_real]
  norm_cast

theorem exactPointSegmentDistanceSquared_real (p a b : ExactPoint) :
    exactPointSegmentDistanceSquared (real p) (real a) (real b) =
      exactPointSegmentDistanceSquared p a b := by
  unfold exactPointSegmentDistanceSquared
  simp only [real_x, real_y]
  norm_cast
  split
  · norm_cast
  · split
    · norm_cast
    · split <;> norm_cast

theorem exactSegmentDistanceSquared_real (a b c d : ExactPoint) :
    exactSegmentDistanceSquared (real a) (real b) (real c) (real d) =
      exactSegmentDistanceSquared a b c d := by
  unfold exactSegmentDistanceSquared
  simp only [exactSegmentsIntersect_real, exactPointSegmentDistanceSquared_real]
  split <;> norm_cast

theorem pointInBox_real (p : ExactPoint) (box : CoreBox ℚ) :
    pointInBox (real p) box.real = pointInBox p box := by
  unfold pointInBox
  simp only [CoreBox.real, real_x, real_y]
  norm_cast

theorem pointBoxDistanceSquared_real (p : ExactPoint) (box : CoreBox ℚ) :
    pointBoxDistanceSquared (real p) box.real = pointBoxDistanceSquared p box := by
  unfold pointBoxDistanceSquared
  simp only [CoreBox.real, real_x, real_y]
  norm_cast

theorem boxDistanceSquared_real (first second : CoreBox ℚ) :
    boxDistanceSquared first.real second.real = boxDistanceSquared first second := by
  unfold boxDistanceSquared
  simp only [CoreBox.real, real_x, real_y]
  norm_cast

theorem CoreBox.corners_real (box : CoreBox ℚ) :
    box.real.corners = box.corners.map Verification.real := rfl

theorem CoreBox.edges_real (box : CoreBox ℚ) :
    box.real.edges = box.edges.map (Prod.map Verification.real Verification.real) := rfl

theorem minimumOf_real (values : List ℚ) :
    minimumOf (values.map (Rat.cast : ℚ → ℝ)) = ((minimumOf values : ℚ) : ℝ) := by
  cases values with
  | nil => simp [minimumOf]
  | cons v values =>
      refine le_antisymm ?_ ?_
      · exact minimumOf_le (List.mem_map_of_mem (minimumOf_mem (List.cons_ne_nil _ _)))
      · obtain ⟨w, hw, hwv⟩ := List.mem_map.mp
          (minimumOf_mem (show (v :: values).map (Rat.cast : ℚ → ℝ) ≠ [] from List.cons_ne_nil _ _))
        rw [← hwv]
        exact Rat.cast_le.mpr (minimumOf_le hw)

theorem segmentBoxDistanceSquared_real (s e : ExactPoint) (box : CoreBox ℚ) :
    segmentBoxDistanceSquared (real s) (real e) box.real = segmentBoxDistanceSquared s e box := by
  unfold segmentBoxDistanceSquared
  simp only [pointInBox_real, CoreBox.edges_real, CoreBox.corners_real, List.any_map, List.map_map,
    Function.comp_def, Prod.map, exactSegmentsIntersect_real, pointBoxDistanceSquared_real,
    exactPointSegmentDistanceSquared_real]
  split
  · norm_cast
  · rw [← minimumOf_real]
    rfl

theorem pointDistanceSquared_real (p q : ExactPoint) :
    pointDistanceSquared (real p) (real q) = pointDistanceSquared p q := by
  unfold pointDistanceSquared
  simp only [real_x, real_y]
  norm_cast

theorem coreDistanceSquared_real (first second : Core ℚ) :
    coreDistanceSquared first.real second.real = coreDistanceSquared first second := by
  cases first with
  | center p =>
      cases second with
      | center q => exact pointDistanceSquared_real p q
      | axis s e => exact exactPointSegmentDistanceSquared_real p s e
      | box corners => exact pointBoxDistanceSquared_real p corners
  | axis s e =>
      cases second with
      | center q => exact exactPointSegmentDistanceSquared_real q s e
      | axis s' e' => exact exactSegmentDistanceSquared_real s e s' e'
      | box corners => exact segmentBoxDistanceSquared_real s e corners
  | box corners =>
      cases second with
      | center q => exact pointBoxDistanceSquared_real q corners
      | axis s e => exact segmentBoxDistanceSquared_real s e corners
      | box corners' => exact boxDistanceSquared_real corners corners'

theorem core_real_comesTo (first second : Core ℚ) :
    ComesTo first.real.points second.real.points ((coreDistanceSquared first second : ℚ) : ℝ) := by
  rw [← coreDistanceSquared_real]
  exact coreDistanceSquared_comesTo first.real second.real

end Evleda.Verification
