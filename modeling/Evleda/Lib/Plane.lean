/-
The plane over an ordered field.

A region is a set of points, and what is asked of two regions is how near they come:
the least square of a distance between a point of the one and a point of the other.
Squares keep everything inside the field, so that rational data have rational
answers.

Two facts carry the rest.  A straight path that starts in a box and ends outside it
has a last point in the box, on one of its sides.  Two segments that do not meet are
closest at an end of one of them.
-/
import Mathlib.Algebra.Order.Field.Basic
import Mathlib.Tactic.FieldSimp
import Mathlib.Tactic.LinearCombination
import Mathlib.Tactic.Linarith
import Mathlib.Tactic.Positivity
import Mathlib.Tactic.Ring

namespace Evleda

namespace Plane

/-- A point of the plane. -/
@[ext] structure Point (K : Type*) where
  x : K
  y : K
  deriving DecidableEq, Repr

variable {K : Type*} [Field K]

/-- The square of the distance of two points. -/
def sqDist (p q : Point K) : K := (p.x - q.x) ^ 2 + (p.y - q.y) ^ 2

theorem sqDist_comm (p q : Point K) : sqDist p q = sqDist q p := by
  unfold sqDist
  ring

/-- The point a part `t` of the way from `s` to `e`. -/
def along (s e : Point K) (t : K) : Point K :=
  ⟨s.x + t * (e.x - s.x), s.y + t * (e.y - s.y)⟩

@[simp] theorem along_x (s e : Point K) (t : K) : (along s e t).x = s.x + t * (e.x - s.x) := rfl

@[simp] theorem along_y (s e : Point K) (t : K) : (along s e t).y = s.y + t * (e.y - s.y) := rfl

@[simp] theorem along_zero (s e : Point K) : along s e 0 = s := by
  ext <;> simp

@[simp] theorem along_one (s e : Point K) : along s e 1 = e := by
  ext <;> simp

theorem sqDist_along_left (p q : Point K) (t : K) : sqDist (along p q t) p = t ^ 2 * sqDist p q := by
  unfold sqDist
  simp only [along_x, along_y]
  ring

theorem sqDist_along_right (p q : Point K) (t : K) :
    sqDist (along p q t) q = (1 - t) ^ 2 * sqDist p q := by
  unfold sqDist
  simp only [along_x, along_y]
  ring

/-- Twice the area of the triangle, with its sign. -/
def cross (o a b : Point K) : K := (a.x - o.x) * (b.y - o.y) - (a.y - o.y) * (b.x - o.x)

theorem cross_along (a b c d : Point K) (t : K) :
    cross a b (along c d t) = (1 - t) * cross a b c + t * cross a b d := by
  unfold cross
  simp only [along_x, along_y]
  ring

theorem cross_self_along (a b : Point K) (t : K) : cross a b (along a b t) = 0 := by
  unfold cross
  simp only [along_x, along_y]
  ring

variable [LinearOrder K]

def segment (s e : Point K) : Set (Point K) := {p | ∃ t, 0 ≤ t ∧ t ≤ 1 ∧ p = along s e t}

def box (low high : Point K) : Set (Point K) :=
  {p | (low.x ≤ p.x ∧ p.x ≤ high.x) ∧ low.y ≤ p.y ∧ p.y ≤ high.y}

/-- The points within `r` of a region. -/
def thick (A : Set (Point K)) (r : K) : Set (Point K) := {z | ∃ p ∈ A, sqDist z p ≤ r ^ 2}

/-- The two regions come as near as `d`, and no nearer. -/
structure ComesTo (A B : Set (Point K)) (d : K) : Prop where
  attained : ∃ p ∈ A, ∃ q ∈ B, sqDist p q = d
  least : ∀ p ∈ A, ∀ q ∈ B, d ≤ sqDist p q

variable {A B : Set (Point K)} {d : K}

theorem ComesTo.symm (h : ComesTo A B d) : ComesTo B A d where
  attained := by
    obtain ⟨p, hp, q, hq, hd⟩ := h.attained
    exact ⟨q, hq, p, hp, by rw [sqDist_comm, hd]⟩
  least := by
    intro q hq p hp
    rw [sqDist_comm]
    exact h.least p hp q hq

variable [IsStrictOrderedRing K]

theorem sqDist_nonneg (p q : Point K) : 0 ≤ sqDist p q := by
  unfold sqDist
  positivity

omit [LinearOrder K] [IsStrictOrderedRing K] in
@[simp] theorem sqDist_self (p : Point K) : sqDist p p = 0 := by
  unfold sqDist
  ring

theorem sqDist_eq_zero {p q : Point K} : sqDist p q = 0 ↔ p = q := by
  constructor
  · intro h
    unfold sqDist at h
    have hx : (p.x - q.x) ^ 2 = 0 := by nlinarith [sq_nonneg (p.x - q.x), sq_nonneg (p.y - q.y)]
    have hy : (p.y - q.y) ^ 2 = 0 := by nlinarith [sq_nonneg (p.x - q.x), sq_nonneg (p.y - q.y)]
    exact Point.ext (sub_eq_zero.mp (pow_eq_zero_iff two_ne_zero |>.mp hx))
      (sub_eq_zero.mp (pow_eq_zero_iff two_ne_zero |>.mp hy))
  · rintro rfl
    exact sqDist_self p

theorem left_mem_segment (s e : Point K) : s ∈ segment s e :=
  ⟨0, le_refl 0, zero_le_one, (along_zero s e).symm⟩

theorem right_mem_segment (s e : Point K) : e ∈ segment s e :=
  ⟨1, zero_le_one, le_refl 1, (along_one s e).symm⟩

theorem segment_comm (s e : Point K) : segment s e = segment e s := by
  have hhalf : ∀ a b : Point K, segment a b ⊆ segment b a := by
    rintro a b p ⟨t, h0, h1, rfl⟩
    refine ⟨1 - t, sub_nonneg.mpr h1, by linarith, ?_⟩
    ext <;> simp <;> ring
  exact Set.Subset.antisymm (hhalf s e) (hhalf e s)

theorem comesTo_zero {p : Point K} (ha : p ∈ A) (hb : p ∈ B) : ComesTo A B 0 where
  attained := ⟨p, ha, p, hb, sqDist_self p⟩
  least := fun _ _ _ _ => sqDist_nonneg ..

/-- Two regions come to zero exactly when they share a point. -/
theorem ComesTo.eq_zero_iff (h : ComesTo A B d) : d = 0 ↔ (A ∩ B).Nonempty := by
  constructor
  · rintro rfl
    obtain ⟨p, hp, q, hq, hd⟩ := h.attained
    obtain rfl := sqDist_eq_zero.mp hd
    exact ⟨p, hp, hq⟩
  · rintro ⟨p, hp, hq⟩
    obtain ⟨p', -, q', -, hd⟩ := h.attained
    have hle := h.least p hp p hq
    rw [sqDist_self] at hle
    exact le_antisymm hle (hd ▸ sqDist_nonneg p' q')

/-! ### Thick regions -/

/-- Distances add up at most: the triangle inequality, without roots. -/
theorem sqDist_le_add {p z q : Point K} {r s : K} (hr : 0 ≤ r) (hs : 0 ≤ s)
    (hp : sqDist z p ≤ r ^ 2) (hq : sqDist z q ≤ s ^ 2) : sqDist p q ≤ (r + s) ^ 2 := by
  have hdot : ((z.x - p.x) * (z.x - q.x) + (z.y - p.y) * (z.y - q.y)) ^ 2 ≤ (r * s) ^ 2 :=
    calc ((z.x - p.x) * (z.x - q.x) + (z.y - p.y) * (z.y - q.y)) ^ 2
        ≤ sqDist z p * sqDist z q := by
          unfold sqDist
          nlinarith [sq_nonneg ((z.x - p.x) * (z.y - q.y) - (z.y - p.y) * (z.x - q.x))]
      _ ≤ r ^ 2 * s ^ 2 := mul_le_mul hp hq (sqDist_nonneg z q) (sq_nonneg r)
      _ = (r * s) ^ 2 := by ring
  have hlow := (abs_le_of_sq_le_sq' hdot (mul_nonneg hr hs)).1
  calc sqDist p q
      = sqDist z p + sqDist z q
          - 2 * ((z.x - p.x) * (z.x - q.x) + (z.y - p.y) * (z.y - q.y)) := by
        unfold sqDist
        ring
    _ ≤ r ^ 2 + s ^ 2 + 2 * (r * s) := by linarith
    _ = (r + s) ^ 2 := by ring

theorem exists_between {p q : Point K} {r s : K} (hr : 0 ≤ r) (hs : 0 ≤ s)
    (h : sqDist p q ≤ (r + s) ^ 2) : ∃ z, sqDist z p ≤ r ^ 2 ∧ sqDist z q ≤ s ^ 2 := by
  by_cases hzero : r + s = 0
  · have hr0 : r = 0 := by linarith
    have hs0 : s = 0 := by linarith
    rw [hzero] at h
    have hpq : p = q := sqDist_eq_zero.mp (le_antisymm (by simpa using h) (sqDist_nonneg p q))
    exact ⟨p, by rw [sqDist_self]; exact sq_nonneg r, by rw [hpq, sqDist_self]; exact sq_nonneg s⟩
  · have hsum : 0 < (r + s) ^ 2 := by positivity
    refine ⟨along p q (r / (r + s)), ?_, ?_⟩
    · rw [sqDist_along_left]
      calc (r / (r + s)) ^ 2 * sqDist p q
          ≤ (r / (r + s)) ^ 2 * (r + s) ^ 2 := mul_le_mul_of_nonneg_left h (sq_nonneg _)
        _ = r ^ 2 := by field_simp
    · rw [sqDist_along_right]
      have hrest : 1 - r / (r + s) = s / (r + s) := by
        field_simp
        ring
      rw [hrest]
      calc (s / (r + s)) ^ 2 * sqDist p q
          ≤ (s / (r + s)) ^ 2 * (r + s) ^ 2 := mul_le_mul_of_nonneg_left h (sq_nonneg _)
        _ = s ^ 2 := by field_simp

/--
**Thick regions meet exactly when their cores come near enough.**  What is asked of
two thick regions is asked of their cores.
-/
theorem thick_meet_iff (h : ComesTo A B d) {r s : K} (hr : 0 ≤ r) (hs : 0 ≤ s) :
    (thick A r ∩ thick B s).Nonempty ↔ d ≤ (r + s) ^ 2 := by
  constructor
  · rintro ⟨z, ⟨p, hp, hzp⟩, q, hq, hzq⟩
    exact (h.least p hp q hq).trans (sqDist_le_add hr hs hzp hzq)
  · intro hd
    obtain ⟨p, hp, q, hq, hpq⟩ := h.attained
    obtain ⟨z, hzp, hzq⟩ := exists_between hr hs (by rw [hpq]; exact hd)
    exact ⟨z, ⟨p, hp, hzp⟩, q, hq, hzq⟩

/-! ### Intervals -/

/-- How far a number is from an interval. -/
def gap (low high v : K) : K := max (low - v) (max 0 (v - high))

omit [IsStrictOrderedRing K] in
theorem gap_nonneg (low high v : K) : 0 ≤ gap low high v :=
  (le_max_left 0 _).trans (le_max_right _ _)

theorem gap_le {low high v w : K} (hlow : low ≤ w) (hhigh : w ≤ high) :
    gap low high v ^ 2 ≤ (v - w) ^ 2 := by
  have habs : gap low high v ≤ |v - w| := by
    refine max_le ?_ (max_le (abs_nonneg _) ?_)
    · calc low - v ≤ w - v := by linarith
        _ ≤ |w - v| := le_abs_self _
        _ = |v - w| := abs_sub_comm w v
    · calc v - high ≤ v - w := by linarith
        _ ≤ |v - w| := le_abs_self _
  calc gap low high v ^ 2 ≤ |v - w| ^ 2 :=
        pow_le_pow_left₀ (gap_nonneg low high v) habs 2
    _ = (v - w) ^ 2 := sq_abs _

theorem gap_attained {low high : K} (h : low ≤ high) (v : K) :
    ∃ w, (low ≤ w ∧ w ≤ high) ∧ (v - w) ^ 2 = gap low high v ^ 2 := by
  by_cases hlow : v ≤ low
  · refine ⟨low, ⟨le_refl low, h⟩, ?_⟩
    have hgap : gap low high v = low - v :=
      max_eq_left (max_le (by linarith) (by linarith))
    rw [hgap]
    ring
  · by_cases hhigh : v ≤ high
    · refine ⟨v, ⟨le_of_not_ge hlow, hhigh⟩, ?_⟩
      have hgap : gap low high v = 0 := by
        unfold gap
        rw [max_eq_left (show v - high ≤ 0 by linarith), max_eq_right (by linarith)]
      rw [hgap]
      ring
    · refine ⟨high, ⟨h, le_refl high⟩, ?_⟩
      have hgap : gap low high v = v - high := by
        unfold gap
        rw [max_eq_right (show (0 : K) ≤ v - high by linarith), max_eq_right (by linarith)]
      rw [hgap]

/-- A way that starts in an interval has a last moment there: its end, or a moment on the
border. -/
theorem exists_last {low high v w : K} (hlow : low ≤ v) (hhigh : v ≤ high) :
    ∃ t, 0 ≤ t ∧ t ≤ 1 ∧
      (∀ u, 0 ≤ u → u ≤ t → low ≤ v + u * (w - v) ∧ v + u * (w - v) ≤ high) ∧
      (t = 1 ∨ v + t * (w - v) = low ∨ v + t * (w - v) = high) := by
  by_cases hover : high < w
  · have hpos : 0 < w - v := by linarith
    refine ⟨(high - v) / (w - v), div_nonneg (by linarith) hpos.le,
      (div_le_one hpos).mpr (by linarith), ?_, Or.inr (Or.inr ?_)⟩
    · intro u hu hle
      have hstep : u * (w - v) ≤ high - v := (le_div_iff₀ hpos).mp hle
      have hforth : 0 ≤ u * (w - v) := mul_nonneg hu hpos.le
      exact ⟨by linarith, by linarith⟩
    · rw [div_mul_cancel₀ _ hpos.ne']
      ring
  · by_cases hunder : w < low
    · have hneg : 0 < v - w := by linarith
      refine ⟨(v - low) / (v - w), div_nonneg (by linarith) hneg.le,
        (div_le_one hneg).mpr (by linarith), ?_, Or.inr (Or.inl ?_)⟩
      · intro u hu hle
        have hstep : u * (v - w) ≤ v - low := (le_div_iff₀ hneg).mp hle
        have hback : 0 ≤ u * (v - w) := mul_nonneg hu hneg.le
        have hflip : u * (w - v) = -(u * (v - w)) := by ring
        exact ⟨by linarith, by linarith⟩
      · have hflip : (v - low) / (v - w) * (w - v) = -((v - low) / (v - w) * (v - w)) := by ring
        rw [hflip, div_mul_cancel₀ _ hneg.ne']
        ring
    · refine ⟨1, zero_le_one, le_refl 1, ?_, Or.inl rfl⟩
      intro u hu hle
      constructor
      · nlinarith
      · nlinarith

/--
**A way out of a box has a last point in it.**  The last point is on one of the
sides.
-/
theorem exists_exit {low high p q : Point K} (hp : p ∈ box low high) (hq : q ∉ box low high) :
    ∃ t, 0 ≤ t ∧ t ≤ 1 ∧ along p q t ∈ box low high ∧
      ((along p q t).x = low.x ∨ (along p q t).x = high.x ∨
        (along p q t).y = low.y ∨ (along p q t).y = high.y) := by
  obtain ⟨⟨hxl, hxh⟩, hyl, hyh⟩ := hp
  obtain ⟨tx, hx0, hx1, hxin, hxend⟩ := exists_last (w := q.x) hxl hxh
  obtain ⟨ty, hy0, hy1, hyin, hyend⟩ := exists_last (w := q.y) hyl hyh
  by_cases hle : tx ≤ ty
  · refine ⟨tx, hx0, hx1, ⟨hxin tx hx0 (le_refl tx), hyin tx hx0 hle⟩, ?_⟩
    rcases hxend with hend | hend | hend
    · -- the way never leaves the box sideways, and so not at all
      have hone : ty = 1 := le_antisymm hy1 (hend ▸ hle)
      refine absurd ?_ hq
      have hx := hxin 1 zero_le_one hend.ge
      have hy := hyin 1 zero_le_one hone.ge
      simp only [one_mul, add_sub_cancel] at hx hy
      exact ⟨hx, hy⟩
    · exact Or.inl hend
    · exact Or.inr (Or.inl hend)
  · have hlt : ty ≤ tx := le_of_not_ge hle
    refine ⟨ty, hy0, hy1, ⟨hxin ty hy0 hlt, hyin ty hy0 (le_refl ty)⟩, ?_⟩
    rcases hyend with hend | hend | hend
    · exact absurd (hend ▸ hx1) hle
    · exact Or.inr (Or.inr (Or.inl hend))
    · exact Or.inr (Or.inr (Or.inr hend))

/-! ### Segments -/

theorem exists_along {a b p : Point K} (hab : a ≠ b) (h : cross a b p = 0) :
    ∃ t, p = along a b t := by
  unfold cross at h
  by_cases hx : b.x - a.x = 0
  · have hy : b.y - a.y ≠ 0 := by
      intro hy
      exact hab (Point.ext (by linarith) (by linarith))
    have hpx : p.x = a.x := by
      rw [hx, zero_mul, zero_sub, neg_eq_zero] at h
      exact sub_eq_zero.mp ((mul_eq_zero.mp h).resolve_left hy)
    refine ⟨(p.y - a.y) / (b.y - a.y), Point.ext ?_ ?_⟩
    · rw [along_x, hx, mul_zero, add_zero, hpx]
    · rw [along_y, div_mul_cancel₀ _ hy]
      ring
  · refine ⟨(p.x - a.x) / (b.x - a.x), Point.ext ?_ ?_⟩
    · rw [along_x, div_mul_cancel₀ _ hx]
      ring
    · rw [along_y]
      field_simp
      linear_combination h

theorem along_inj {a b : Point K} (hab : a ≠ b) {s t : K} (h : along a b s = along a b t) :
    s = t := by
  have hx : (s - t) * (b.x - a.x) = 0 := by
    have hthis := congrArg Point.x h
    simp only [along_x] at hthis
    linear_combination hthis
  have hy : (s - t) * (b.y - a.y) = 0 := by
    have hthis := congrArg Point.y h
    simp only [along_y] at hthis
    linear_combination hthis
  by_contra hne
  have hst : s - t ≠ 0 := sub_ne_zero.mpr hne
  have hbx := (mul_eq_zero.mp hx).resolve_left hst
  have hby := (mul_eq_zero.mp hy).resolve_left hst
  exact hab (Point.ext (by linarith) (by linarith))

theorem between_iff {low high v : K} :
    (min low high ≤ v ∧ v ≤ max low high) ↔ ∃ t, 0 ≤ t ∧ t ≤ 1 ∧ v = low + t * (high - low) := by
  constructor
  · rintro ⟨hlow, hhigh⟩
    by_cases hne : low = high
    · rw [hne, min_self] at hlow
      rw [hne, max_self] at hhigh
      exact ⟨0, le_refl 0, zero_le_one, by rw [hne]; linarith⟩
    · rcases lt_or_gt_of_ne hne with hlt | hgt
      · rw [min_eq_left hlt.le] at hlow
        rw [max_eq_right hlt.le] at hhigh
        have hpos : 0 < high - low := by linarith
        refine ⟨(v - low) / (high - low), div_nonneg (by linarith) hpos.le,
          (div_le_one hpos).mpr (by linarith), ?_⟩
        rw [div_mul_cancel₀ _ hpos.ne']
        ring
      · rw [min_eq_right hgt.le] at hlow
        rw [max_eq_left hgt.le] at hhigh
        have hpos : 0 < low - high := by linarith
        refine ⟨(low - v) / (low - high), div_nonneg (by linarith) hpos.le,
          (div_le_one hpos).mpr (by linarith), ?_⟩
        have hflip : (low - v) / (low - high) * (high - low) =
            -((low - v) / (low - high) * (low - high)) := by ring
        rw [hflip, div_mul_cancel₀ _ hpos.ne']
        ring
  · rintro ⟨t, h0, h1, rfl⟩
    rcases le_total low high with hle | hle
    · rw [min_eq_left hle, max_eq_right hle]
      constructor
      · nlinarith
      · nlinarith
    · rw [min_eq_right hle, max_eq_left hle]
      constructor
      · nlinarith
      · nlinarith

theorem mem_segment_iff {p s e : Point K} :
    p ∈ segment s e ↔ cross s e p = 0 ∧ (min s.x e.x ≤ p.x ∧ p.x ≤ max s.x e.x) ∧
      (min s.y e.y ≤ p.y ∧ p.y ≤ max s.y e.y) := by
  constructor
  · rintro ⟨t, h0, h1, rfl⟩
    exact ⟨cross_self_along s e t, between_iff.mpr ⟨t, h0, h1, rfl⟩,
      between_iff.mpr ⟨t, h0, h1, rfl⟩⟩
  · rintro ⟨hcross, hx, hy⟩
    obtain ⟨tx, hx0, hx1, hpx⟩ := between_iff.mp hx
    obtain ⟨ty, hy0, hy1, hpy⟩ := between_iff.mp hy
    by_cases hse : s = e
    · subst hse
      refine ⟨0, le_refl 0, zero_le_one, Point.ext ?_ ?_⟩
      · rw [hpx, along_x]
        ring
      · rw [hpy, along_y]
        ring
    · obtain ⟨t, rfl⟩ := exists_along hse hcross
      -- one of the two coordinates moves along the segment, and fixes the part of the way
      by_cases hex : e.x - s.x = 0
      · have hey : e.y - s.y ≠ 0 := by
          intro hey
          exact hse (Point.ext (by linarith) (by linarith))
        have ht : t = ty := by
          rw [along_y] at hpy
          exact mul_right_cancel₀ hey (by linarith)
        exact ⟨t, ht ▸ hy0, ht ▸ hy1, rfl⟩
      · have ht : t = tx := by
          rw [along_x] at hpx
          exact mul_right_cancel₀ hex (by linarith)
        exact ⟨t, ht ▸ hx0, ht ▸ hx1, rfl⟩

/-- The two numbers are on different sides of zero. -/
def Opposite (u v : K) : Prop := (0 < u ∧ v < 0) ∨ (u < 0 ∧ 0 < v)

/-- The two numbers are not on one side of zero, and not equal. -/
def Apart (u v : K) : Prop := ((0 ≤ u ∧ v ≤ 0) ∨ (u ≤ 0 ∧ 0 ≤ v)) ∧ u ≠ v

omit [IsStrictOrderedRing K] in
theorem Opposite.apart {u v : K} (h : Opposite u v) : Apart u v := by
  rcases h with ⟨hu, hv⟩ | ⟨hu, hv⟩
  · exact ⟨Or.inl ⟨hu.le, hv.le⟩, (hv.trans hu).ne'⟩
  · exact ⟨Or.inr ⟨hu.le, hv.le⟩, (hu.trans hv).ne⟩

/-- On the way from one to the other there is zero. -/
theorem Apart.part {u v : K} (h : Apart u v) :
    u - v ≠ 0 ∧ 0 ≤ u / (u - v) ∧ u / (u - v) ≤ 1 := by
  obtain ⟨⟨hu, hv⟩ | ⟨hu, hv⟩, hne⟩ := h
  · have hpos : 0 < u - v := sub_pos.mpr (lt_of_le_of_ne (hv.trans hu) hne.symm)
    exact ⟨hpos.ne', div_nonneg hu hpos.le, (div_le_one hpos).mpr (by linarith)⟩
  · have hneg : u - v < 0 := sub_neg.mpr (lt_of_le_of_ne (hu.trans hv) hne)
    exact ⟨hneg.ne, div_nonneg_of_nonpos hu hneg.le, (div_le_one_of_neg hneg).mpr (by linarith)⟩

theorem mean_eq_zero {u v t : K} (h0 : 0 ≤ t) (h1 : t ≤ 1) (h : (1 - t) * u + t * v = 0) :
    (u = 0 ∧ (t = 0 ∨ v = 0)) ∨ (v = 0 ∧ t = 1) ∨ Opposite u v := by
  have hmean := between_iff.mpr ⟨t, h0, h1, show (0 : K) = u + t * (v - u) by linear_combination -h⟩
  rcases lt_trichotomy u 0 with hu | hu | hu
  · rcases lt_trichotomy v 0 with hv | hv | hv
    · exact absurd hmean.2 (not_le.mpr (max_lt hu hv))
    · refine Or.inr (Or.inl ⟨hv, ?_⟩)
      rw [hv, mul_zero, add_zero] at h
      have hrest := (mul_eq_zero.mp h).resolve_right hu.ne
      linarith
    · exact Or.inr (Or.inr (Or.inr ⟨hu, hv⟩))
  · rw [hu, mul_zero, zero_add] at h
    exact Or.inl ⟨hu, mul_eq_zero.mp h⟩
  · rcases lt_trichotomy v 0 with hv | hv | hv
    · exact Or.inr (Or.inr (Or.inl ⟨hu, hv⟩))
    · refine Or.inr (Or.inl ⟨hv, ?_⟩)
      rw [hv, mul_zero, add_zero] at h
      have hrest := (mul_eq_zero.mp h).resolve_right hu.ne'
      linarith
    · exact absurd hmean.1 (not_le.mpr (lt_min hu hv))

/-- Two segments meet when neither lies on one side of the line of the other. -/
theorem meet_of_apart {a b c d : Point K} (hab : Apart (cross a b c) (cross a b d))
    (hcd : Apart (cross c d a) (cross c d b)) : (segment a b ∩ segment c d).Nonempty := by
  obtain ⟨hne, ht0, ht1⟩ := hab.part
  obtain ⟨hne', hs0, hs1⟩ := hcd.part
  have hsame : along a b (cross c d a / (cross c d a - cross c d b)) =
      along c d (cross a b c / (cross a b c - cross a b d)) := by
    have hflip : cross c d a - cross c d b = -(cross a b c - cross a b d) := by
      unfold cross
      ring
    ext
    · rw [along_x, along_x, hflip]
      field_simp
      unfold cross
      ring
    · rw [along_y, along_y, hflip]
      field_simp
      unfold cross
      ring
  exact ⟨_, ⟨_, hs0, hs1, rfl⟩, _, ht0, ht1, hsame⟩

theorem meet_of_opposite {a b c d : Point K} (hab : Opposite (cross a b c) (cross a b d))
    (hcd : Opposite (cross c d a) (cross c d b)) : (segment a b ∩ segment c d).Nonempty :=
  meet_of_apart hab.apart hcd.apart

theorem end_of_collinear {a b c d p : Point K} (hab : a ≠ b) (hc : cross a b c = 0)
    (hd : cross a b d = 0) (hp : p ∈ segment a b) (hpcd : p ∈ segment c d) :
    c ∈ segment a b ∨ d ∈ segment a b ∨ a ∈ segment c d := by
  obtain ⟨u, rfl⟩ := exists_along hab hc
  obtain ⟨v, rfl⟩ := exists_along hab hd
  obtain ⟨s, hs0, hs1, rfl⟩ := hp
  obtain ⟨t, ht0, ht1, hst⟩ := hpcd
  have hs : s = u + t * (v - u) := by
    refine along_inj hab (hst.trans ?_)
    ext <;> simp <;> ring
  by_cases hu : 0 ≤ u ∧ u ≤ 1
  · exact Or.inl ⟨u, hu.1, hu.2, rfl⟩
  by_cases hv : 0 ≤ v ∧ v ≤ 1
  · exact Or.inr (Or.inl ⟨v, hv.1, hv.2, rfl⟩)
  -- both ends of the second segment are outside, and so on different sides
  have hzero : min u v ≤ 0 ∧ 0 ≤ max u v := by
    have hsv : min u v ≤ s ∧ s ≤ max u v := between_iff.mpr ⟨t, ht0, ht1, hs⟩
    rcases le_total u v with hle | hle
    · rw [min_eq_left hle, max_eq_right hle] at hsv ⊢
      refine ⟨?_, hs0.trans hsv.2⟩
      by_contra hpos
      exact hu ⟨(not_le.mp hpos).le, hsv.1.trans hs1⟩
    · rw [min_eq_right hle, max_eq_left hle] at hsv ⊢
      refine ⟨?_, hs0.trans hsv.2⟩
      by_contra hpos
      exact hv ⟨(not_le.mp hpos).le, hsv.1.trans hs1⟩
  obtain ⟨w, hw0, hw1, hw⟩ := between_iff.mp hzero
  refine Or.inr (Or.inr ⟨w, hw0, hw1, ?_⟩)
  have hax : a = along a b (u + w * (v - u)) := by rw [← hw, along_zero]
  refine hax.trans ?_
  ext <;> simp <;> ring

theorem opposite_of_meet {a b c d p : Point K} (hab : p ∈ segment a b) (hcd : p ∈ segment c d) :
    (Opposite (cross a b c) (cross a b d) ∧ Opposite (cross c d a) (cross c d b)) ∨
      c ∈ segment a b ∨ d ∈ segment a b ∨ a ∈ segment c d ∨ b ∈ segment c d := by
  obtain ⟨s, hs0, hs1, hps⟩ := hab
  obtain ⟨t, ht0, ht1, hpt⟩ := hcd
  have hfirst : (1 - t) * cross a b c + t * cross a b d = 0 := by
    rw [← cross_along, ← hpt, hps, cross_self_along]
  have hsecond : (1 - s) * cross c d a + s * cross c d b = 0 := by
    rw [← cross_along, ← hps, hpt, cross_self_along]
  have hstart : t = 0 → c ∈ segment a b := by
    rintro rfl
    rw [along_zero] at hpt
    exact ⟨s, hs0, hs1, by rw [← hpt, hps]⟩
  have hfinish : t = 1 → d ∈ segment a b := by
    rintro rfl
    rw [along_one] at hpt
    exact ⟨s, hs0, hs1, by rw [← hpt, hps]⟩
  have hstart' : s = 0 → a ∈ segment c d := by
    rintro rfl
    rw [along_zero] at hps
    exact ⟨t, ht0, ht1, by rw [← hps, hpt]⟩
  have hfinish' : s = 1 → b ∈ segment c d := by
    rintro rfl
    rw [along_one] at hps
    exact ⟨t, ht0, ht1, by rw [← hps, hpt]⟩
  by_cases hne : a = b
  · -- a segment of one point is its own end
    subst hne
    refine Or.inr (Or.inr (Or.inr (Or.inl ⟨t, ht0, ht1, ?_⟩)))
    rw [← hpt, hps]
    ext <;> simp
  rcases mean_eq_zero ht0 ht1 hfirst with ⟨hc, ht | hd⟩ | ⟨-, ht⟩ | hopp
  · exact Or.inr (Or.inl (hstart ht))
  · rcases end_of_collinear hne hc hd ⟨s, hs0, hs1, hps⟩ ⟨t, ht0, ht1, hpt⟩ with h | h | h
    · exact Or.inr (Or.inl h)
    · exact Or.inr (Or.inr (Or.inl h))
    · exact Or.inr (Or.inr (Or.inr (Or.inl h)))
  · exact Or.inr (Or.inr (Or.inl (hfinish ht)))
  · rcases mean_eq_zero hs0 hs1 hsecond with ⟨ha, hs | hb⟩ | ⟨-, hs⟩ | hopp'
    · exact Or.inr (Or.inr (Or.inr (Or.inl (hstart' hs))))
    · -- the first segment would lie on the line of the second, which it crosses
      exfalso
      have hflip : cross a b c - cross a b d = cross c d b - cross c d a := by
        unfold cross
        ring
      rw [ha, hb, sub_self] at hflip
      exact hopp.apart.part.1 hflip
    · exact Or.inr (Or.inr (Or.inr (Or.inr (hfinish' hs))))
    · exact Or.inl ⟨hopp, hopp'⟩

/-- Lines of different directions cross. -/
theorem exists_crossing {a b c d : Point K}
    (h : (b.x - a.x) * (d.y - c.y) - (b.y - a.y) * (d.x - c.x) ≠ 0) :
    ∃ s t, along a b s = along c d t := by
  obtain ⟨s, hs⟩ : ∃ s, s * ((b.x - a.x) * (d.y - c.y) - (b.y - a.y) * (d.x - c.x)) =
      (c.x - a.x) * (d.y - c.y) - (c.y - a.y) * (d.x - c.x) := ⟨_, div_mul_cancel₀ _ h⟩
  obtain ⟨t, ht⟩ : ∃ t, t * ((b.x - a.x) * (d.y - c.y) - (b.y - a.y) * (d.x - c.x)) =
      (c.x - a.x) * (b.y - a.y) - (c.y - a.y) * (b.x - a.x) := ⟨_, div_mul_cancel₀ _ h⟩
  refine ⟨s, t, Point.ext (mul_right_cancel₀ h ?_) (mul_right_cancel₀ h ?_)⟩
  · simp only [along_x]
    linear_combination (b.x - a.x) * hs - (d.x - c.x) * ht
  · simp only [along_y]
    linear_combination (b.y - a.y) * hs - (d.y - c.y) * ht

theorem along_mem_segment {s e p q : Point K} (hp : p ∈ segment s e) (hq : q ∈ segment s e) {t : K}
    (h0 : 0 ≤ t) (h1 : t ≤ 1) : along p q t ∈ segment s e := by
  obtain ⟨u, hu0, hu1, rfl⟩ := hp
  obtain ⟨v, hv0, hv1, rfl⟩ := hq
  refine ⟨u + t * (v - u), by nlinarith, by nlinarith, ?_⟩
  ext <;> simp <;> ring

theorem segment_subset_box {low high a b : Point K} (ha : a ∈ box low high) (hb : b ∈ box low high) :
    segment a b ⊆ box low high := by
  rintro p ⟨t, h0, h1, rfl⟩
  obtain ⟨⟨hax, hax'⟩, hay, hay'⟩ := ha
  obtain ⟨⟨hbx, hbx'⟩, hby, hby'⟩ := hb
  have hx := between_iff.mpr ⟨t, h0, h1, along_x a b t⟩
  have hy := between_iff.mpr ⟨t, h0, h1, along_y a b t⟩
  exact ⟨⟨(le_min hax hbx).trans hx.1, hx.2.trans (max_le hax' hbx')⟩,
    (le_min hay hby).trans hy.1, hy.2.trans (max_le hay' hby')⟩

theorem mem_segment_upright {x low high y : K} (hlow : low ≤ y) (hhigh : y ≤ high) :
    (⟨x, y⟩ : Point K) ∈ segment ⟨x, low⟩ ⟨x, high⟩ := by
  rw [mem_segment_iff, min_self, max_self, min_eq_left (hlow.trans hhigh),
    max_eq_right (hlow.trans hhigh)]
  refine ⟨?_, ⟨le_refl x, le_refl x⟩, hlow, hhigh⟩
  unfold cross
  ring

theorem mem_segment_level {y low high x : K} (hlow : low ≤ x) (hhigh : x ≤ high) :
    (⟨x, y⟩ : Point K) ∈ segment ⟨low, y⟩ ⟨high, y⟩ := by
  rw [mem_segment_iff, min_self, max_self, min_eq_left (hlow.trans hhigh),
    max_eq_right (hlow.trans hhigh)]
  refine ⟨?_, ⟨hlow, hhigh⟩, le_refl y, le_refl y⟩
  unfold cross
  ring

/-! ### What is closest -/

/-- Two segments that do not meet are no further apart at an end of one of them. -/
theorem exists_end_closest {a b c d p q : Point K}
    (hapart : ¬ (segment a b ∩ segment c d).Nonempty)
    (hp : p ∈ segment a b) (hq : q ∈ segment c d) :
    ∃ p' ∈ segment a b, ∃ q' ∈ segment c d, sqDist p' q' ≤ sqDist p q ∧
      (p' = a ∨ p' = b ∨ q' = c ∨ q' = d) := by
  obtain ⟨s, hs0, hs1, rfl⟩ := hp
  obtain ⟨t, ht0, ht1, rfl⟩ := hq
  -- a way through the parameters that leaves their square and never leads further apart
  have hway : ∃ target : Point K, ∃ k : K, 0 ≤ k ∧ k ≤ 1 ∧
      target ∉ box (⟨0, 0⟩ : Point K) ⟨1, 1⟩ ∧
      (along a b target.x).x - (along c d target.y).x = k * ((along a b s).x - (along c d t).x) ∧
      (along a b target.x).y - (along c d target.y).y =
        k * ((along a b s).y - (along c d t).y) := by
    by_cases hdet : (b.x - a.x) * (d.y - c.y) - (b.y - a.y) * (d.x - c.x) = 0
    · -- the lines run side by side: one of the parameters can run on
      have hrun : ∃ α β : K, (α ≠ 0 ∨ β ≠ 0) ∧ α * (b.x - a.x) = β * (d.x - c.x) ∧
          α * (b.y - a.y) = β * (d.y - c.y) := by
        by_cases hab : a = b
        · exact ⟨1, 0, Or.inl one_ne_zero, by rw [hab]; ring, by rw [hab]; ring⟩
        · refine ⟨(b.x - a.x) * (d.x - c.x) + (b.y - a.y) * (d.y - c.y), sqDist a b,
            Or.inr (fun hzero => hab (sqDist_eq_zero.mp hzero)), ?_, ?_⟩
          · unfold sqDist
            linear_combination (b.y - a.y) * hdet
          · unfold sqDist
            linear_combination -(b.x - a.x) * hdet
      obtain ⟨α, β, hne, hx, hy⟩ := hrun
      have hrunning : ∃ n : K, (⟨s + n * α, t + n * β⟩ : Point K) ∉ box ⟨0, 0⟩ ⟨1, 1⟩ := by
        rcases hne with hne | hne
        · refine ⟨2 / α, fun hin => ?_⟩
          have hover := hin.1.2
          simp only [div_mul_cancel₀ _ hne] at hover
          linarith
        · refine ⟨2 / β, fun hin => ?_⟩
          have hover := hin.2.2
          simp only [div_mul_cancel₀ _ hne] at hover
          linarith
      obtain ⟨n, hout⟩ := hrunning
      refine ⟨_, 1, zero_le_one, le_refl 1, hout, ?_, ?_⟩
      · simp only [along_x]
        linear_combination n * hx
      · simp only [along_y]
        linear_combination n * hy
    · -- the lines meet, outside the square
      obtain ⟨s', t', hmeet⟩ := exists_crossing hdet
      refine ⟨⟨s', t'⟩, 0, le_refl 0, zero_le_one, ?_, ?_, ?_⟩
      · rintro ⟨⟨hx0, hx1⟩, hy0, hy1⟩
        exact hapart ⟨_, ⟨s', hx0, hx1, rfl⟩, t', hy0, hy1, hmeet⟩
      · rw [hmeet, sub_self, zero_mul]
      · rw [hmeet, sub_self, zero_mul]
  obtain ⟨target, k, hk0, hk1, hout, hx, hy⟩ := hway
  obtain ⟨r, hr0, hr1, ⟨hxin, hyin⟩, hside⟩ :=
    exists_exit (p := ⟨s, t⟩) ⟨⟨hs0, hs1⟩, ht0, ht1⟩ hout
  refine ⟨along a b _, ⟨_, hxin.1, hxin.2, rfl⟩, along c d _, ⟨_, hyin.1, hyin.2, rfl⟩, ?_, ?_⟩
  · -- the difference only shrinks on the way
    have hshrink : sqDist (along a b (along ⟨s, t⟩ target r).x)
        (along c d (along ⟨s, t⟩ target r).y) =
          (1 - r + r * k) ^ 2 * sqDist (along a b s) (along c d t) := by
      simp only [along_x, along_y] at hx hy
      unfold sqDist
      simp only [along_x, along_y]
      linear_combination (r ^ 2 * ((a.x + target.x * (b.x - a.x) - (c.x + target.y * (d.x - c.x)))
        + k * (a.x + s * (b.x - a.x) - (c.x + t * (d.x - c.x))))
        + 2 * r * (1 - r) * (a.x + s * (b.x - a.x) - (c.x + t * (d.x - c.x)))) * hx +
        (r ^ 2 * ((a.y + target.x * (b.y - a.y) - (c.y + target.y * (d.y - c.y)))
        + k * (a.y + s * (b.y - a.y) - (c.y + t * (d.y - c.y))))
        + 2 * r * (1 - r) * (a.y + s * (b.y - a.y) - (c.y + t * (d.y - c.y)))) * hy
    rw [hshrink]
    have hlow : 0 ≤ 1 - r + r * k := by nlinarith
    have hhigh : 1 - r + r * k ≤ 1 := by nlinarith
    have hsq : (1 - r + r * k) ^ 2 ≤ 1 := pow_le_one₀ hlow hhigh
    calc (1 - r + r * k) ^ 2 * sqDist (along a b s) (along c d t)
        ≤ 1 * sqDist (along a b s) (along c d t) :=
          mul_le_mul_of_nonneg_right hsq (sqDist_nonneg _ _)
      _ = sqDist (along a b s) (along c d t) := one_mul _
  · rcases hside with h | h | h | h
    · exact Or.inl (by rw [h, along_zero])
    · exact Or.inr (Or.inl (by rw [h, along_one]))
    · exact Or.inr (Or.inr (Or.inl (by rw [h, along_zero])))
    · exact Or.inr (Or.inr (Or.inr (by rw [h, along_one])))

end Plane

end Evleda
