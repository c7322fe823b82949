/-
Boundaries, and the shapes that a disk sweeps.

A point is on the boundary of a region if the region and its complement both come as near
to it as one likes.  How near the boundaries of two regions come, one inside the other, is
easy to say where the inner region can be thickened by as much as the two differ along an
axis and still fits.

A stadium is swept by a disk along an axis; its extents say all about it.  Stadiums grow
with their extents, and a thickened stadium is one, so that for stadiums, and for boxes
around them, the axes decide.  A quarter turn exchanges the extents.
-/
import Evleda.Lib.Plane
import Mathlib.Analysis.SpecialFunctions.Trigonometric.Basic

namespace Evleda

namespace Plane

section Boundaries

variable {K : Type*} [Field K] [LinearOrder K]

/-- The points that a region and its complement both come near to. -/
def boundary (S : Set (Point K)) : Set (Point K) :=
  {p | ∀ r, 0 < r → (∃ q ∈ S, sqDist p q < r ^ 2) ∧ ∃ q, q ∉ S ∧ sqDist p q < r ^ 2}

/-- The upright box around a centre. -/
def around (c : Point K) (a b : K) : Set (Point K) := box ⟨c.x - a, c.y - b⟩ ⟨c.x + a, c.y + b⟩

/-- The region reaches as far as `a` to the right of its centre and `b` above it, and is no
larger. -/
structure Spans (S : Set (Point K)) (c : Point K) (a b : K) : Prop where
  right : (⟨c.x + a, c.y⟩ : Point K) ∈ S
  top : (⟨c.x, c.y + b⟩ : Point K) ∈ S
  within : S ⊆ around c a b

variable [IsStrictOrderedRing K] {S D C : Set (Point K)} {c p q z : Point K} {a b a' b' r : K}

/-- What is nearer than `r` is nearer than something that is less. -/
theorem exists_between_sq {d : K} (hd : 0 ≤ d) (hr : 0 < r) (h : d < r ^ 2) :
    ∃ s, 0 ≤ s ∧ s < r ∧ d ≤ s ^ 2 := by
  have hlow : 0 ≤ d / r := div_nonneg hd hr.le
  have hhigh : d / r < r := (div_lt_iff₀ hr).mpr (by nlinarith)
  refine ⟨(d / r + r) / 2, by linarith, by linarith, ?_⟩
  have hmean : d = d / r * r := (div_mul_cancel₀ d hr.ne').symm
  have hsq : ((d / r + r) / 2) ^ 2 = d / r * r + ((r - d / r) / 2) ^ 2 := by ring
  rw [hsq, ← hmean]
  nlinarith [sq_nonneg ((r - d / r) / 2)]

/-- Regions with room between them have boundaries with room between them. -/
theorem boundary_apart (hr : 0 ≤ r) (hroom : thick D r ⊆ C) (hp : p ∈ boundary D)
    (hq : q ∈ boundary C) : r ^ 2 ≤ sqDist p q := by
  by_contra hnear
  have hlt := not_le.mp hnear
  have hpos : 0 < r := by
    rcases hr.lt_or_eq with hpos | rfl
    · exact hpos
    · rw [zero_pow two_ne_zero] at hlt
      exact absurd hlt (sqDist_nonneg p q).not_gt
  obtain ⟨s, hs, hsr, hle⟩ := exists_between_sq (sqDist_nonneg p q) hpos hlt
  -- half of what is left, on either side
  have hhalf : 0 < (r - s) / 2 := by linarith
  obtain ⟨⟨p', hp', hpp⟩, -⟩ := hp _ hhalf
  obtain ⟨-, q', hq', hqq⟩ := hq _ hhalf
  refine hq' (hroom ⟨p', hp', ?_⟩)
  have hfirst : sqDist p' q ≤ ((r - s) / 2 + s) ^ 2 := sqDist_le_add hhalf.le hs hpp.le hle
  have hsecond := sqDist_le_add (z := q) hhalf.le (by linarith : (0 : K) ≤ (r - s) / 2 + s) hqq.le
    (by rw [sqDist_comm]; exact hfirst)
  have hsum : (r - s) / 2 + ((r - s) / 2 + s) = r := by ring
  rw [hsum] at hsecond
  exact hsecond

/-- A region inside another has no larger extents. -/
theorem Spans.mono (h : Spans S c a b) (h' : Spans C c a' b') (hsub : S ⊆ C) : a ≤ a' ∧ b ≤ b' := by
  obtain ⟨⟨-, hx⟩, -⟩ := h'.within (hsub h.right)
  obtain ⟨-, -, hy⟩ := h'.within (hsub h.top)
  simp only at hx hy
  exact ⟨by linarith, by linarith⟩

theorem Spans.right_boundary (h : Spans S c a b) : (⟨c.x + a, c.y⟩ : Point K) ∈ boundary S := by
  intro r hr
  refine ⟨⟨_, h.right, by rw [sqDist_self]; positivity⟩, ⟨c.x + a + r / 2, c.y⟩, ?_, ?_⟩
  · intro hin
    have hover := (h.within hin).1.2
    simp only at hover
    linarith
  · unfold sqDist
    simp only
    nlinarith

theorem Spans.top_boundary (h : Spans S c a b) : (⟨c.x, c.y + b⟩ : Point K) ∈ boundary S := by
  intro r hr
  refine ⟨⟨_, h.top, by rw [sqDist_self]; positivity⟩, ⟨c.x, c.y + b + r / 2⟩, ?_, ?_⟩
  · intro hin
    have hover := (h.within hin).2.2
    simp only at hover
    linarith
  · unfold sqDist
    simp only
    nlinarith

/--
**Where the thickened inner region fits, the axes decide.**  The boundaries of a region and
of one around it come as near as the lesser difference of their extents.
-/
theorem boundary_comesTo (hD : Spans D c a b) (hC : Spans C c a' b') (ha : a ≤ a') (hb : b ≤ b')
    (hroom : thick D (min (a' - a) (b' - b)) ⊆ C) :
    ComesTo (boundary D) (boundary C) (min (a' - a) (b' - b) ^ 2) where
  attained := by
    rcases min_choice (a' - a) (b' - b) with h | h
    · refine ⟨_, hD.right_boundary, _, hC.right_boundary, ?_⟩
      rw [h]
      unfold sqDist
      ring
    · refine ⟨_, hD.top_boundary, _, hC.top_boundary, ?_⟩
      rw [h]
      unfold sqDist
      ring
  least := fun _ hp _ hq =>
    boundary_apart (le_min (by linarith) (by linarith)) hroom hp hq

/-! ### Stadiums -/

/-- What a disk sweeps, whose centre moves along an axis: as far as the greater extent asks for. -/
def stadium (c : Point K) (a b : K) : Set (Point K) :=
  thick (around c (max (a - b) 0) (max (b - a) 0)) (min a b)

theorem spread_add (a b : K) :
    max (a - b) 0 + min a b = a ∧ max (b - a) 0 + min a b = b := by
  rcases le_total a b with h | h
  · rw [min_eq_left h, max_eq_right (by linarith : a - b ≤ 0), max_eq_left (by linarith)]
    exact ⟨by ring, by ring⟩
  · rw [min_eq_right h, max_eq_left (by linarith : 0 ≤ a - b), max_eq_right (by linarith)]
    exact ⟨by ring, by ring⟩

theorem abs_le_of_sqDist (hr : 0 ≤ r) (h : sqDist z p ≤ r ^ 2) :
    |z.x - p.x| ≤ r ∧ |z.y - p.y| ≤ r := by
  unfold sqDist at h
  exact ⟨abs_le_of_sq_le_sq (by nlinarith [sq_nonneg (z.y - p.y)]) hr,
    abs_le_of_sq_le_sq (by nlinarith [sq_nonneg (z.x - p.x)]) hr⟩

theorem stadium_spans (ha : 0 ≤ a) (hb : 0 ≤ b) : Spans (stadium c a b) c a b where
  right := by
    obtain ⟨hsum, -⟩ := spread_add a b
    refine ⟨⟨c.x + max (a - b) 0, c.y⟩, ⟨⟨?_, le_refl _⟩, ?_, ?_⟩, ?_⟩
    · simp only
      linarith [le_max_right (a - b) 0]
    · simp only
      linarith [le_max_right (b - a) 0]
    · simp only
      linarith [le_max_right (b - a) 0]
    · unfold sqDist
      simp only
      rw [show c.x + a - (c.x + max (a - b) 0) = min a b by linarith]
      exact le_of_eq (by ring)
  top := by
    obtain ⟨-, hsum⟩ := spread_add a b
    refine ⟨⟨c.x, c.y + max (b - a) 0⟩, ⟨⟨?_, ?_⟩, ?_, le_refl _⟩, ?_⟩
    · simp only
      linarith [le_max_right (a - b) 0]
    · simp only
      linarith [le_max_right (a - b) 0]
    · simp only
      linarith [le_max_right (b - a) 0]
    · unfold sqDist
      simp only
      rw [show c.y + b - (c.y + max (b - a) 0) = min a b by linarith]
      exact le_of_eq (by ring)
  within := by
    rintro z ⟨p, ⟨⟨hxl, hxh⟩, hyl, hyh⟩, hz⟩
    obtain ⟨hx, hy⟩ := abs_le_of_sqDist (le_min ha hb) hz
    obtain ⟨hsum, hsum'⟩ := spread_add a b
    rw [abs_le] at hx hy
    simp only at hxl hxh hyl hyh
    exact ⟨⟨by simp only; linarith, by simp only; linarith⟩, by simp only; linarith,
      by simp only; linarith⟩

theorem exists_near {v m A t : K} (hA : 0 ≤ A) (ht : 0 ≤ t) (h : |v - m| ≤ A + t) :
    ∃ w, (m - A ≤ w ∧ w ≤ m + A) ∧ (v - w) ^ 2 ≤ t ^ 2 := by
  obtain ⟨w, hw, hgap⟩ := gap_attained (show m - A ≤ m + A by linarith) v
  rw [abs_le] at h
  have hle : gap (m - A) (m + A) v ≤ t :=
    max_le (by linarith) (max_le ht (by linarith))
  exact ⟨w, hw, by rw [hgap]; exact pow_le_pow_left₀ (gap_nonneg _ _ _) hle 2⟩

/-- **A stadium grows with its extents.** -/
theorem stadium_mono (ha : 0 ≤ a) (hb : 0 ≤ b) (haa : a ≤ a') (hbb : b ≤ b') :
    stadium c a b ⊆ stadium c a' b' := by
  rintro z ⟨p, ⟨⟨hxl, hxh⟩, hyl, hyh⟩, hz⟩
  obtain ⟨hsum, hsum'⟩ := spread_add a b
  obtain ⟨hsumO, hsumO'⟩ := spread_add a' b'
  simp only at hxl hxh hyl hyh
  have hA := le_max_right (a' - b') 0
  have hB := le_max_right (b' - a') 0
  -- how much further the centre moves in the smaller stadium, which is along one axis only
  have hmove : ∃ t u : K, 0 ≤ t ∧ 0 ≤ u ∧ t * u = 0 ∧ |p.x - c.x| ≤ max (a' - b') 0 + t ∧
      |p.y - c.y| ≤ max (b' - a') 0 + u ∧ t + u + min a b ≤ min a' b' := by
    have hx : |p.x - c.x| ≤ max (a - b) 0 := abs_le.mpr ⟨by linarith, by linarith⟩
    have hy : |p.y - c.y| ≤ max (b - a) 0 := abs_le.mpr ⟨by linarith, by linarith⟩
    have hmin : min a b ≤ min a' b' := min_le_min haa hbb
    rcases le_total b a with hwide | htall
    · rw [max_eq_right (by linarith : b - a ≤ 0)] at hy hsum'
      refine ⟨max (max (a - b) 0 - max (a' - b') 0) 0, 0, le_max_right _ _, le_refl _, mul_zero _,
        ?_, by linarith, ?_⟩
      · linarith [le_max_left (max (a - b) 0 - max (a' - b') 0) 0]
      · rcases max_choice (max (a - b) 0 - max (a' - b') 0) 0 with h | h
        · rw [h]
          linarith
        · rw [h]
          linarith
    · rw [max_eq_right (by linarith : a - b ≤ 0)] at hx hsum
      refine ⟨0, max (max (b - a) 0 - max (b' - a') 0) 0, le_refl _, le_max_right _ _, zero_mul _,
        by linarith, ?_, ?_⟩
      · linarith [le_max_left (max (b - a) 0 - max (b' - a') 0) 0]
      · rcases max_choice (max (b - a) 0 - max (b' - a') 0) 0 with h | h
        · rw [h]
          linarith
        · rw [h]
          linarith
  obtain ⟨t, u, ht, hu, hone, hx, hy, hroom⟩ := hmove
  obtain ⟨x, hxin, hxd⟩ := exists_near hA ht hx
  obtain ⟨y, hyin, hyd⟩ := exists_near hB hu hy
  refine ⟨⟨x, y⟩, ⟨hxin, hyin⟩, ?_⟩
  have hmoved : sqDist p ⟨x, y⟩ ≤ (t + u) ^ 2 := by
    unfold sqDist
    simp only
    nlinarith
  have hsmall : 0 ≤ min a b := le_min ha hb
  have hreach := sqDist_le_add (z := p) hsmall (by linarith : 0 ≤ t + u)
    (by rw [sqDist_comm]; exact hz) hmoved
  refine hreach.trans (pow_le_pow_left₀ (by linarith) (by linarith) 2)

theorem thick_stadium (ha : 0 ≤ a) (hb : 0 ≤ b) (hr : 0 ≤ r) :
    thick (stadium c a b) r ⊆ stadium c (a + r) (b + r) := by
  rintro z ⟨p, ⟨s, hs, hps⟩, hzp⟩
  refine ⟨s, ?_, ?_⟩
  · rw [add_sub_add_right_eq_sub, add_sub_add_right_eq_sub]
    exact hs
  · have hreach := sqDist_le_add (z := p) hr (le_min ha hb) (by rw [sqDist_comm]; exact hzp) hps
    rw [min_add_add_right, add_comm (min a b)]
    exact hreach

theorem stadium_subset_box (ha : 0 ≤ a) (hb : 0 ≤ b) (haa : a ≤ a') (hbb : b ≤ b') :
    stadium c a b ⊆ around c a' b' := by
  intro z hz
  obtain ⟨⟨hxl, hxh⟩, hyl, hyh⟩ := (stadium_spans ha hb).within hz
  simp only at hxl hxh hyl hyh
  exact ⟨⟨by simp only; linarith, by simp only; linarith⟩, by simp only; linarith,
    by simp only; linarith⟩

theorem box_spans (ha : 0 ≤ a) (hb : 0 ≤ b) :
    Spans (around c a b) c a b where
  right := ⟨⟨by simp only; linarith, le_refl _⟩, by simp only; linarith, by simp only; linarith⟩
  top := ⟨⟨by simp only; linarith, by simp only; linarith⟩, by simp only; linarith, le_refl _⟩
  within := Set.Subset.refl _

omit [IsStrictOrderedRing K] in
theorem disk_eq_stadium (c : Point K) (r : K) : thick {c} r = stadium c r r := by
  have hcore : around c (max (r - r) 0) (max (r - r) 0) = {c} := by
    unfold around
    rw [sub_self, max_self, sub_zero, sub_zero, add_zero, add_zero]
    ext z
    constructor
    · rintro ⟨⟨hxl, hxh⟩, hyl, hyh⟩
      exact Point.ext (le_antisymm hxh hxl) (le_antisymm hyh hyl)
    · rintro rfl
      exact ⟨⟨le_refl _, le_refl _⟩, le_refl _, le_refl _⟩
  unfold stadium
  rw [hcore, min_self]

end Boundaries

/-! ### Turning -/

section Turning

open Real

variable {c p q : Point ℝ} {a b r θ : ℝ}

/-- The point turned about a centre, by an angle. -/
noncomputable def turn (c : Point ℝ) (θ : ℝ) (p : Point ℝ) : Point ℝ :=
  ⟨c.x + ((p.x - c.x) * cos θ - (p.y - c.y) * sin θ),
    c.y + ((p.x - c.x) * sin θ + (p.y - c.y) * cos θ)⟩

theorem turn_turn (c p : Point ℝ) (θ : ℝ) : turn c θ (turn c (-θ) p) = p := by
  have hone := sin_sq_add_cos_sq θ
  unfold turn
  simp only [cos_neg, sin_neg]
  ext
  · simp only
    linear_combination (p.x - c.x) * hone
  · simp only
    linear_combination (p.y - c.y) * hone

/-- Turning keeps distances. -/
theorem sqDist_turn (c p q : Point ℝ) (θ : ℝ) : sqDist (turn c θ p) (turn c θ q) = sqDist p q := by
  have hone := sin_sq_add_cos_sq θ
  unfold sqDist turn
  simp only
  linear_combination ((p.x - q.x) ^ 2 + (p.y - q.y) ^ 2) * hone

theorem turn_thick (c : Point ℝ) (θ : ℝ) (S : Set (Point ℝ)) (r : ℝ) :
    turn c θ '' thick S r = thick (turn c θ '' S) r := by
  ext z
  constructor
  · rintro ⟨z, ⟨p, hp, hz⟩, rfl⟩
    exact ⟨turn c θ p, ⟨p, hp, rfl⟩, by rwa [sqDist_turn]⟩
  · rintro ⟨_, ⟨p, hp, rfl⟩, hz⟩
    refine ⟨turn c (-θ) z, ⟨p, hp, ?_⟩, turn_turn c z θ⟩
    rw [← sqDist_turn c _ p θ, turn_turn]
    exact hz

theorem quarter_cases (k : ℤ) :
    (k % 2 = 0 ∧ sin (k * (π / 2)) = 0 ∧ (cos (k * (π / 2)) = 1 ∨ cos (k * (π / 2)) = -1)) ∨
      (k % 2 = 1 ∧ cos (k * (π / 2)) = 0 ∧ (sin (k * (π / 2)) = 1 ∨ sin (k * (π / 2)) = -1)) := by
  have hsigns : ∀ n : ℤ, cos (n * π) = 1 ∨ cos (n * π) = -1 := by
    intro n
    rw [cos_int_mul_pi]
    rcases Int.even_or_odd n with heven | hodd
    · exact Or.inl heven.neg_one_zpow
    · exact Or.inr hodd.neg_one_zpow
  rcases Int.even_or_odd' k with ⟨n, rfl | rfl⟩
  · have hangle : ((2 * n : ℤ) : ℝ) * (π / 2) = n * π := by
      push_cast
      ring
    rw [hangle]
    exact Or.inl ⟨by omega, sin_int_mul_pi n, hsigns n⟩
  · have hangle : ((2 * n + 1 : ℤ) : ℝ) * (π / 2) = n * π + π / 2 := by
      push_cast
      ring
    rw [hangle, cos_add_pi_div_two, sin_add_pi_div_two, sin_int_mul_pi, neg_zero]
    exact Or.inr ⟨by omega, rfl, hsigns n⟩

theorem mem_around : p ∈ around c a b ↔ |p.x - c.x| ≤ a ∧ |p.y - c.y| ≤ b := by
  unfold around box
  rw [Set.mem_ofPred_eq, abs_le, abs_le]
  simp only
  constructor
  · rintro ⟨⟨hxl, hxh⟩, hyl, hyh⟩
    exact ⟨⟨by linarith, by linarith⟩, by linarith, by linarith⟩
  · rintro ⟨⟨hxl, hxh⟩, hyl, hyh⟩
    exact ⟨⟨by linarith, by linarith⟩, by linarith, by linarith⟩

theorem turn_around (c : Point ℝ) (k : ℤ) (a b : ℝ) :
    turn c (k * (π / 2)) '' around c a b = if k % 2 = 0 then around c a b else around c b a := by
  have hsame : ∀ {θ : ℝ} {p : Point ℝ}, sin θ = 0 → (cos θ = 1 ∨ cos θ = -1) →
      |(turn c θ p).x - c.x| = |p.x - c.x| ∧ |(turn c θ p).y - c.y| = |p.y - c.y| := by
    intro θ p hsin hcos
    unfold turn
    rw [hsin]
    rcases hcos with hcos | hcos
    · rw [hcos]
      exact ⟨congrArg _ (by ring), congrArg _ (by ring)⟩
    · rw [hcos, ← abs_neg (p.x - c.x), ← abs_neg (p.y - c.y)]
      exact ⟨congrArg _ (by ring), congrArg _ (by ring)⟩
  have hcrossed : ∀ {θ : ℝ} {p : Point ℝ}, cos θ = 0 → (sin θ = 1 ∨ sin θ = -1) →
      |(turn c θ p).x - c.x| = |p.y - c.y| ∧ |(turn c θ p).y - c.y| = |p.x - c.x| := by
    intro θ p hcos hsin
    unfold turn
    rw [hcos]
    rcases hsin with hsin | hsin
    · rw [hsin, ← abs_neg (p.y - c.y)]
      exact ⟨congrArg _ (by ring), congrArg _ (by ring)⟩
    · rw [hsin, ← abs_neg (p.x - c.x)]
      exact ⟨congrArg _ (by ring), congrArg _ (by ring)⟩
  have hback : ∀ {S T : Set (Point ℝ)} {θ : ℝ}, (∀ p ∈ S, turn c θ p ∈ T) →
      (∀ p ∈ T, turn c (-θ) p ∈ S) → turn c θ '' S = T := by
    intro S T θ hforth hback
    ext z
    exact ⟨fun ⟨p, hp, hz⟩ => hz ▸ hforth p hp, fun hz => ⟨_, hback z hz, turn_turn c z θ⟩⟩
  rcases quarter_cases k with ⟨hk, hsin, hcos⟩ | ⟨hk, hcos, hsin⟩
  · rw [if_pos hk]
    refine hback (fun p hp => ?_) fun p hp => ?_
    · obtain ⟨hx, hy⟩ := @hsame _ p hsin hcos
      rw [mem_around, hx, hy]
      exact mem_around.mp hp
    · obtain ⟨hx, hy⟩ := @hsame (-(k * (π / 2))) p (by rw [sin_neg, hsin, neg_zero])
        (by rwa [cos_neg])
      rw [mem_around, hx, hy]
      exact mem_around.mp hp
  · rw [if_neg (by omega)]
    refine hback (fun p hp => ?_) fun p hp => ?_
    · obtain ⟨hx, hy⟩ := @hcrossed _ p hcos hsin
      rw [mem_around, hx, hy]
      exact (mem_around.mp hp).symm
    · obtain ⟨hx, hy⟩ := @hcrossed (-(k * (π / 2))) p (by rw [cos_neg, hcos])
        (by rw [sin_neg, neg_inj, neg_eq_iff_eq_neg]; exact hsin.symm)
      rw [mem_around, hx, hy]
      exact (mem_around.mp hp).symm

/-- **A quarter turn exchanges the extents of a stadium.** -/
theorem turn_stadium (c : Point ℝ) (k : ℤ) (a b : ℝ) :
    turn c (k * (π / 2)) '' stadium c a b = if k % 2 = 0 then stadium c a b else stadium c b a := by
  unfold stadium
  rw [turn_thick, turn_around]
  split
  · rfl
  · rw [min_comm]

end Turning

end Plane

end Evleda
