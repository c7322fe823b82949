/-
Polygons and paths that cross them.

The parity of the edges that a ray crosses changes along a path that crosses one edge:
beside the path that edge does one thing more than its ends say.  Outside the box of
the vertices the parity is even.  Where a polygon is begun, and which way round it is
followed, makes no difference.
-/
import Evleda.Lib.Polygon

namespace Evleda

namespace Plane

variable {K : Type*} [Field K] [LinearOrder K] [IsStrictOrderedRing K] {a b p q z : Point K}

/-! ### An edge that is crossed -/

omit [IsStrictOrderedRing K] in
theorem Opposite.symm {u v : K} (h : Opposite u v) : Opposite v u := by
  rcases h with ⟨hpos, hneg⟩ | ⟨hneg, hpos⟩
  · exact Or.inr ⟨hneg, hpos⟩
  · exact Or.inl ⟨hpos, hneg⟩

theorem Opposite.neg {u v : K} (h : Opposite u v) : Opposite (-u) (-v) := by
  rcases h with ⟨hpos, hneg⟩ | ⟨hneg, hpos⟩
  · exact Or.inr ⟨neg_lt_zero.mpr hpos, neg_pos.mpr hneg⟩
  · exact Or.inl ⟨neg_pos.mpr hneg, neg_lt_zero.mpr hpos⟩

omit [LinearOrder K] [IsStrictOrderedRing K] in
theorem cross_swap (a b z : Point K) : cross b a z = -cross a b z := by
  unfold cross
  ring

/-- A rising edge crosses the ray of a point at its height that is on the left of it. -/
theorem crosses_iff_left (hab : a.y < b.y) :
    Crosses z (a, b) ↔ (a.y ≤ z.y ∧ z.y < b.y) ∧ 0 < cross a b z := by
  have hpos : 0 < b.y - a.y := by linarith
  rw [crosses_iff hab.le]
  refine and_congr_right fun hheight => ?_
  constructor
  · rintro ⟨m, ⟨t, -, -, rfl⟩, hy, hx⟩
    rw [along_y] at hy
    rw [along_x] at hx
    have hcross : cross a b z = (b.y - a.y) * (a.x + t * (b.x - a.x) - z.x) := by
      unfold cross
      linear_combination (a.x - b.x) * hy
    rw [hcross]
    exact mul_pos hpos (by linarith)
  · intro hleft
    obtain ⟨m, hm, hmy⟩ := exists_at_height hab hheight.1 hheight.2.le
    refine ⟨m, hm, hmy, ?_⟩
    obtain ⟨t, -, -, rfl⟩ := hm
    rw [along_y] at hmy
    rw [along_x]
    have hcross : cross a b z = (b.y - a.y) * (a.x + t * (b.x - a.x) - z.x) := by
      unfold cross
      linear_combination (a.x - b.x) * hmy
    rw [hcross] at hleft
    have hfactor := (mul_pos_iff_of_pos_left hpos).mp hleft
    linarith

theorem start_below (hopp : (0 < cross a b p ∧ cross a b q < 0) ∧ cross p q a < 0 ∧ 0 < cross p q b)
    (hab : a.y ≤ b.y) (hpq : p.y ≤ q.y) (hne : a.y < b.y ∨ p.y < q.y) :
    a.y < q.y ∧ p.y < b.y := by
  obtain ⟨⟨hp, hq⟩, ha, hb⟩ := hopp
  have hrise : 0 ≤ b.y - a.y ∧ 0 ≤ q.y - p.y := ⟨by linarith, by linarith⟩
  have hspread : 0 < cross a b p - cross a b q := by linarith
  constructor
  · -- the height where they cross, measured from the two
    have hsum : (cross a b p - cross a b q) * (q.y - a.y) =
        -cross p q a * (b.y - a.y) + -cross a b q * (q.y - p.y) := by
      unfold cross
      ring
    have hpos : 0 < (cross a b p - cross a b q) * (q.y - a.y) := by
      rw [hsum]
      rcases hne with hlt | hlt
      · exact add_pos_of_pos_of_nonneg (mul_pos (by linarith) (by linarith))
          (mul_nonneg (by linarith) hrise.2)
      · exact add_pos_of_nonneg_of_pos (mul_nonneg (by linarith) hrise.1)
          (mul_pos (by linarith) (by linarith))
    have hfactor := (mul_pos_iff_of_pos_left hspread).mp hpos
    linarith
  · have hsum : (cross a b p - cross a b q) * (b.y - p.y) =
        cross p q b * (b.y - a.y) + cross a b p * (q.y - p.y) := by
      unfold cross
      ring
    have hpos : 0 < (cross a b p - cross a b q) * (b.y - p.y) := by
      rw [hsum]
      rcases hne with hlt | hlt
      · exact add_pos_of_pos_of_nonneg (mul_pos hb (by linarith)) (mul_nonneg hp.le hrise.2)
      · exact add_pos_of_nonneg_of_pos (mul_nonneg hb.le hrise.1) (mul_pos hp (by linarith))
    have hfactor := (mul_pos_iff_of_pos_left hspread).mp hpos
    linarith

omit [IsStrictOrderedRing K] in
theorem not_both_level (hab : Opposite (cross a b p) (cross a b q)) :
    ¬ (a.y = b.y ∧ p.y = q.y) := by
  rintro ⟨hlevel, hlevel'⟩
  have hsame : cross a b p = cross a b q := by
    unfold cross
    rw [hlevel, hlevel']
    ring
  rw [hsame] at hab
  rcases hab with ⟨hpos, hneg⟩ | ⟨hneg, hpos⟩
  · exact absurd hpos hneg.not_gt
  · exact absurd hpos hneg.not_gt

/-- A rising edge that crosses a rising path: of what it does, it does one thing on each side. -/
theorem rising_crossed (hab : a.y ≤ b.y) (hpq : p.y ≤ q.y)
    (hsides : Opposite (cross a b p) (cross a b q)) (hends : Opposite (cross p q a) (cross p q b)) :
    (Crosses p (a, b) ↔ Crosses q (a, b)) ↔ ¬ (InStrip p q a ↔ InStrip p q b) := by
  have hne : a.y < b.y ∨ p.y < q.y := by
    by_contra hlevel
    rw [not_or, not_lt, not_lt] at hlevel
    exact not_both_level hsides ⟨le_antisymm hab hlevel.1, le_antisymm hpq hlevel.2⟩
  have hsum : cross p q b - cross p q a = cross a b p - cross a b q := by
    unfold cross
    ring
  have hbelow : a.y < q.y ∧ p.y < b.y := by
    rcases hsides with hside | hside
    · refine start_below ⟨hside, ?_⟩ hab hpq hne
      rcases hends with hend | hend
      · linarith
      · exact hend
    · refine (start_below ⟨?_, hside⟩ hpq hab hne.symm).symm
      rcases hends with hend | hend
      · exact hend
      · linarith
  have hlevel : ∀ z : Point K, a.y = b.y → ¬ Crosses z (a, b) := by
    intro z heq hcross
    exact hcross.1 (by rw [heq])
  unfold InStrip
  unfold Opposite at hsides hends
  rcases hab.lt_or_eq with hlt | heq
  · rw [crosses_iff_left hlt, crosses_iff_left hlt]
    grind
  · rw [iff_true_left (iff_of_false (hlevel p heq) (hlevel q heq)), heq]
    grind

theorem mark_add_ne {P Q R T : Prop} [Decidable P] [Decidable Q] [Decidable R] [Decidable T]
    (h : (P ↔ Q) ↔ ¬ (R ↔ T)) : mark P + mark Q + 1 = mark R + mark T := by
  unfold mark
  by_cases hP : P <;> by_cases hQ : Q <;> by_cases hR : R <;> by_cases hT : T <;>
    simp_all [CharTwo.add_self_eq_zero]

theorem edge_crossed (hpq : p.y ≤ q.y) (hsides : Opposite (cross a b p) (cross a b q))
    (hends : Opposite (cross p q a) (cross p q b)) :
    mark (Crosses p (a, b)) + mark (Crosses q (a, b)) + 1 =
      mark (InStrip p q a) + mark (InStrip p q b) := by
  rcases le_total a.y b.y with hab | hab
  · exact mark_add_ne (rising_crossed hab hpq hsides hends)
  · have hsides' : Opposite (cross b a p) (cross b a q) := by
      rw [cross_swap a b p, cross_swap a b q]
      exact hsides.neg
    refine mark_add_ne ?_
    rw [crosses_swap, crosses_swap (z := q), rising_crossed hab hpq hsides' hends.symm]
    exact not_congr Iff.comm

/-- The parity at two points differs when a path between them crosses one edge and meets no other. -/
theorem crossings_flip {vertices : List (Point K)} {e : Point K × Point K}
    {before after : List (Point K × Point K)} (hring : ring vertices = before ++ e :: after)
    (hapart : ∀ f ∈ before ++ after, ¬ (segment f.1 f.2 ∩ segment p q).Nonempty)
    (hsides : Opposite (cross e.1 e.2 p) (cross e.1 e.2 q))
    (hends : Opposite (cross p q e.1) (cross p q e.2)) :
    crossings p (ring vertices) + crossings q (ring vertices) = 1 := by
  have hupward : ∀ {p q : Point K}, p.y ≤ q.y →
      (∀ f ∈ before ++ after, ¬ (segment f.1 f.2 ∩ segment p q).Nonempty) →
      Opposite (cross e.1 e.2 p) (cross e.1 e.2 q) → Opposite (cross p q e.1) (cross p q e.2) →
      crossings p (ring vertices) + crossings q (ring vertices) = 1 := by
    intro p q hpq hapart hsides hends
    have hbefore := crossings_apart hpq fun f hf => hapart f (List.mem_append_left _ hf)
    have hafter := crossings_apart hpq fun f hf => hapart f (List.mem_append_right _ hf)
    have hedge := edge_crossed hpq hsides hends
    have hsum := sum_ring (fun v => mark (InStrip p q v)) vertices
    rw [hring, List.map_append, List.map_cons, List.sum_append, List.sum_cons, ← hbefore, ← hafter,
      ← hedge] at hsum
    rw [hring]
    have htwo : (1 : ZMod 2) + 1 = 0 := by decide
    unfold crossings at hsum ⊢
    rw [List.map_append, List.map_append, List.map_cons, List.map_cons, List.sum_append,
      List.sum_append, List.sum_cons, List.sum_cons]
    linear_combination hsum - htwo
  rcases le_total p.y q.y with hpq | hpq
  · exact hupward hpq hapart hsides hends
  · rw [add_comm]
    refine hupward hpq ?_ hsides.symm ?_
    · intro f hf
      rw [segment_comm q p]
      exact hapart f hf
    · rw [cross_swap p q e.1, cross_swap p q e.2]
      exact hends.neg

/-- A path that meets a segment in one point, inside both, crosses it. -/
theorem opposite_of_one_point {m : Point K} (hmeet : segment a b ∩ segment p q = {m})
    (ha : m ≠ a) (hb : m ≠ b) (hp : p ∉ segment a b) (hq : q ∉ segment a b) :
    Opposite (cross a b p) (cross a b q) ∧ Opposite (cross p q a) (cross p q b) := by
  have hm : m ∈ segment a b ∩ segment p q := by rw [hmeet]; rfl
  have honly : ∀ z ∈ segment a b, z ∈ segment p q → z = m := by
    intro z hz hz'
    have hin : z ∈ segment a b ∩ segment p q := ⟨hz, hz'⟩
    rw [hmeet] at hin
    exact hin
  rcases opposite_of_meet hm.1 hm.2 with h | h | h | h | h
  · exact h
  · exact absurd h hp
  · exact absurd h hq
  · exact absurd (honly a (left_mem_segment a b) h).symm ha
  · exact absurd (honly b (right_mem_segment a b) h).symm hb

/-! ### The box around a polygon -/

variable {W : List (Point K)}

/-- The point is beside, above or below all vertices. -/
def Outside (W : List (Point K)) (z : Point K) : Prop :=
  (∀ w ∈ W, z.x < w.x) ∨ (∀ w ∈ W, w.x < z.x) ∨ (∀ w ∈ W, z.y < w.y) ∨ ∀ w ∈ W, w.y < z.y

theorem not_onRing_of_outside (h : Outside W z) : ¬ OnRing W z := by
  rintro ⟨e, he, t, h0, h1, rfl⟩
  obtain ⟨hfirst, hsecond⟩ := ring_vertices he
  have hx := between_iff.mpr ⟨t, h0, h1, along_x e.1 e.2 t⟩
  have hy := between_iff.mpr ⟨t, h0, h1, along_y e.1 e.2 t⟩
  rcases h with h | h | h | h
  · exact absurd hx.1 (not_le.mpr (lt_min (h _ hfirst) (h _ hsecond)))
  · exact absurd hx.2 (not_le.mpr (max_lt (h _ hfirst) (h _ hsecond)))
  · exact absurd hy.1 (not_le.mpr (lt_min (h _ hfirst) (h _ hsecond)))
  · exact absurd hy.2 (not_le.mpr (max_lt (h _ hfirst) (h _ hsecond)))

theorem crosses_within (h : Crosses z (a, b)) : z.x < max a.x b.x := by
  have hrising : ∀ {a b : Point K}, a.y ≤ b.y → Crosses z (a, b) → z.x < max a.x b.x := by
    intro a b hab hcross
    obtain ⟨-, m, ⟨t, h0, h1, rfl⟩, -, hx⟩ := (crosses_iff hab).mp hcross
    exact hx.trans_le (between_iff.mpr ⟨t, h0, h1, along_x a b t⟩).2
  rcases le_total a.y b.y with hab | hab
  · exact hrising hab h
  · rw [max_comm]
    exact hrising hab (crosses_swap.mp h)

/-- On the left of an edge, its ray is crossed when the heights of the ends say so. -/
theorem crosses_of_left (hleft : z.x < a.x ∧ z.x < b.x) :
    Crosses z (a, b) ↔ ¬ (z.y < a.y ↔ z.y < b.y) := by
  have hrising : ∀ {a b : Point K}, z.x < a.x ∧ z.x < b.x → a.y ≤ b.y →
      ¬ (z.y < a.y ↔ z.y < b.y) → Crosses z (a, b) := by
    intro a b hleft hab hside
    have hheight : a.y ≤ z.y ∧ z.y < b.y := by grind
    obtain ⟨m, hm, hmy⟩ := exists_at_height (hheight.1.trans_lt hheight.2) hheight.1 hheight.2.le
    refine (crosses_iff hab).mpr ⟨hheight, m, hm, hmy, ?_⟩
    obtain ⟨t, h0, h1, rfl⟩ := hm
    exact (lt_min hleft.1 hleft.2).trans_le (between_iff.mpr ⟨t, h0, h1, along_x a b t⟩).1
  refine ⟨fun h => h.1, fun hside => ?_⟩
  rcases le_total a.y b.y with hab | hab
  · exact hrising hleft hab hside
  · exact crosses_swap.mpr (hrising hleft.symm hab fun h => hside h.symm)

/-- **Nothing outside the box of its vertices is enclosed by a polygon.** -/
theorem not_enclosed_of_outside (h : Outside W z) : z ∉ enclosed W := by
  rintro (hon | hodd)
  · exact not_onRing_of_outside h hon
  · have hzero : crossings z (ring W) = 0 := by
      rcases h with h | h | h | h
      · -- on the left, the rays that are crossed are the changes of height around
        have hmarks : crossings z (ring W) =
            ((ring W).map fun e => mark (z.y < e.1.y) + mark (z.y < e.2.y)).sum := by
          refine congrArg List.sum (List.map_congr_left fun e he => ?_)
          obtain ⟨hfirst, hsecond⟩ := ring_vertices he
          have hcross := crosses_of_left ⟨h _ hfirst, h _ hsecond⟩
          unfold mark
          by_cases hP : z.y < e.1.y <;> by_cases hQ : z.y < e.2.y <;>
            simp [hcross, hP, hQ, CharTwo.add_self_eq_zero]
        rw [hmarks]
        exact sum_ring (fun v => mark (z.y < v.y)) W
      · refine List.sum_eq_zero fun m hm => ?_
        obtain ⟨e, he, rfl⟩ := List.mem_map.mp hm
        obtain ⟨hfirst, hsecond⟩ := ring_vertices he
        exact if_neg fun hcross =>
          absurd (crosses_within hcross) (max_lt (h _ hfirst) (h _ hsecond)).not_gt
      · refine List.sum_eq_zero fun m hm => ?_
        obtain ⟨e, he, rfl⟩ := List.mem_map.mp hm
        obtain ⟨hfirst, hsecond⟩ := ring_vertices he
        exact if_neg fun hcross => hcross.1 (iff_of_true (h _ hfirst) (h _ hsecond))
      · exact crossings_of_above fun w hw => (h w hw).le
    rw [hzero] at hodd
    exact absurd hodd (by decide)

/-! ### The same polygon -/

section

omit [Field K] [LinearOrder K] [IsStrictOrderedRing K]

/-- Another vertex to start with. -/
theorem ring_rotate (W : List (Point K)) (n : Nat) : ring (W.rotate n) = (ring W).rotate n := by
  have hlength : W.length = (W.rotate 1).length := (List.length_rotate ..).symm
  have hsecond : (W.rotate n).rotate 1 = (W.rotate 1).rotate n := by
    rw [List.rotate_rotate, List.rotate_rotate, Nat.add_comm]
  unfold ring
  rw [hsecond]
  exact (List.zipWith_rotate_distrib Prod.mk W (W.rotate 1) n hlength).symm

/-- The other way around. -/
theorem ring_reverse (W : List (Point K)) : (ring W.reverse).Perm ((ring W).map Prod.swap) := by
  have hback : (W.rotate 1).reverse.rotate 1 = W.reverse := by
    cases W with
    | nil => rfl
    | cons first rest => simp
  have hlength : (W.rotate 1).length = W.length := List.length_rotate ..
  have hturned : ring (W.rotate 1).reverse = ((ring W).map Prod.swap).reverse := by
    unfold ring
    rw [hback, List.zip_swap]
    exact (List.reverse_zipWith hlength).symm
  rw [← hback, ring_rotate, hturned]
  exact (List.rotate_perm _ 1).trans (List.reverse_perm _)

end

/-- The polygon whose edges are those of another, either way round, encloses the same. -/
theorem enclosed_congr {V : List (Point K)} (h : (ring V).Perm ((ring W).map Prod.swap)) :
    enclosed V = enclosed W := by
  ext z
  have hon : OnRing V z ↔ OnRing W z := by
    constructor
    · rintro ⟨_, he, hz⟩
      obtain ⟨e, hring, rfl⟩ := List.mem_map.mp (h.mem_iff.mp he)
      exact ⟨e, hring, by rwa [segment_comm e.1]⟩
    · rintro ⟨e, he, hz⟩
      exact ⟨e.swap, h.mem_iff.mpr (List.mem_map_of_mem he), by rwa [segment_comm]⟩
  have hparity : crossings z (ring V) = crossings z (ring W) := by
    unfold crossings
    rw [(h.map _).sum_eq, List.map_map]
    refine congrArg List.sum (List.map_congr_left fun e _ => ?_)
    unfold mark
    exact if_congr crosses_swap rfl rfl
  unfold enclosed
  rw [Set.mem_ofPred_eq, Set.mem_ofPred_eq, hon, hparity]

omit [IsStrictOrderedRing K] in
theorem enclosed_rotate (W : List (Point K)) (n : Nat) : enclosed (W.rotate n) = enclosed W := by
  ext z
  have hperm : (ring (W.rotate n)).Perm (ring W) := by
    rw [ring_rotate]
    exact List.rotate_perm _ n
  have hparity : crossings z (ring (W.rotate n)) = crossings z (ring W) := (hperm.map _).sum_eq
  unfold enclosed OnRing
  rw [Set.mem_ofPred_eq, Set.mem_ofPred_eq, hparity]
  simp only [hperm.mem_iff]

theorem enclosed_reverse (W : List (Point K)) : enclosed W.reverse = enclosed W :=
  enclosed_congr (ring_reverse W)

end Plane

end Evleda
