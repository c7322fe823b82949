/-
Closed polygons, and the parity of what a ray crosses.

A polygon is its list of vertices, each joined to the next around.  A point has a
ray to the right, and an edge crosses it if it leads from one side of the height of
the point to the other and does so on the right.  Whether the number of crossing
edges is odd is the same for any two points that a straight path joins without
meeting an edge: an edge that changes the count at one of the two points changes it
at the other, or enters the strip to the right of the path, and around the polygon
the strip is entered as often as it is left.
-/
import Mathlib
import Evleda.Lib.Plane

namespace Evleda

namespace Plane

variable {K : Type*} [Field K] [LinearOrder K]

/-- The edges of a closed polygon. -/
def ring (vertices : List (Point K)) : List (Point K × Point K) := vertices.zip (vertices.rotate 1)

/-- The edge crosses the ray from the point to the right. -/
def Crosses (z : Point K) (e : Point K × Point K) : Prop :=
  ¬ (z.y < e.1.y ↔ z.y < e.2.y) ∧
    z.x < (e.2.x - e.1.x) * (z.y - e.1.y) / (e.2.y - e.1.y) + e.1.x

instance (z : Point K) (e : Point K × Point K) : Decidable (Crosses z e) :=
  inferInstanceAs (Decidable (_ ∧ _))

/-- Whether something is so, counted modulo two. -/
def mark (P : Prop) [Decidable P] : ZMod 2 := if P then 1 else 0

/-- How many edges cross the ray, modulo two. -/
def crossings (z : Point K) (edges : List (Point K × Point K)) : ZMod 2 :=
  (edges.map fun e => mark (Crosses z e)).sum

/-- The point is on an edge. -/
def OnRing (vertices : List (Point K)) (z : Point K) : Prop :=
  ∃ e ∈ ring vertices, z ∈ segment e.1 e.2

/-- The points on the edges and inside. -/
def enclosed (vertices : List (Point K)) : Set (Point K) :=
  {z | OnRing vertices z ∨ crossings z (ring vertices) = 1}

/-- The vertex is in the strip to the right of an upward path. -/
def InStrip (p q v : Point K) : Prop := (p.y < v.y ∧ v.y ≤ q.y) ∧ cross p q v < 0

instance (p q v : Point K) : Decidable (InStrip p q v) := inferInstanceAs (Decidable (_ ∧ _))

variable [IsStrictOrderedRing K] {a b p q z : Point K}

/-! ### One edge -/

theorem crosses_swap : Crosses z (a, b) ↔ Crosses z (b, a) := by
  have hat : ¬ (z.y < a.y ↔ z.y < b.y) →
      (b.x - a.x) * (z.y - a.y) / (b.y - a.y) + a.x =
        (a.x - b.x) * (z.y - b.y) / (a.y - b.y) + b.x := by
    intro hside
    have hne : b.y - a.y ≠ 0 := by
      intro hzero
      rw [sub_eq_zero] at hzero
      exact hside (by rw [hzero])
    have hne' : a.y - b.y ≠ 0 := by
      intro hzero
      exact hne (by linarith)
    field_simp
    ring
  unfold Crosses
  dsimp only
  constructor
  · rintro ⟨hside, hleft⟩
    exact ⟨fun h => hside h.symm, by rwa [← hat hside]⟩
  · rintro ⟨hside, hleft⟩
    have hside' : ¬ (z.y < a.y ↔ z.y < b.y) := fun h => hside h.symm
    exact ⟨hside', by rwa [hat hside']⟩

/-- An edge that rises crosses the ray where it has the height of the point. -/
theorem crosses_iff (hab : a.y ≤ b.y) : Crosses z (a, b) ↔
    (a.y ≤ z.y ∧ z.y < b.y) ∧ ∃ m ∈ segment a b, m.y = z.y ∧ z.x < m.x := by
  unfold Crosses
  dsimp only
  constructor
  · rintro ⟨hside, hleft⟩
    have hlow : a.y ≤ z.y := by
      by_contra hlow
      have hza := not_le.mp hlow
      exact hside ⟨fun _ => hza.trans_le hab, fun _ => hza⟩
    have hhigh : z.y < b.y := by
      by_contra hhigh
      exact hside ⟨fun h => absurd h (not_lt.mpr hlow), fun h => absurd h hhigh⟩
    have hpos : 0 < b.y - a.y := by linarith
    refine ⟨⟨hlow, hhigh⟩, along a b ((z.y - a.y) / (b.y - a.y)),
      ⟨_, div_nonneg (by linarith) hpos.le, (div_le_one hpos).mpr (by linarith), rfl⟩, ?_, ?_⟩
    · rw [along_y, div_mul_cancel₀ _ hpos.ne']
      ring
    · rw [along_x]
      refine lt_of_lt_of_eq hleft ?_
      field_simp
      ring
  · rintro ⟨⟨hlow, hhigh⟩, m, ⟨t, -, -, rfl⟩, hy, hx⟩
    refine ⟨fun h => absurd (h.mpr hhigh) (not_lt.mpr hlow), ?_⟩
    have hpos : 0 < b.y - a.y := by linarith
    refine lt_of_lt_of_eq hx ?_
    rw [along_y] at hy
    have ht : z.y - a.y = t * (b.y - a.y) := by linarith
    rw [along_x, ht]
    field_simp
    ring

/-- Beside an upward path, an edge that does not meet it stays on one side. -/
theorem side_constant (hpq : p.y < q.y) (hapart : ¬ (segment a b ∩ segment p q).Nonempty)
    {u w : Point K} (hu : u ∈ segment a b) (hw : w ∈ segment a b)
    (huy : p.y ≤ u.y ∧ u.y ≤ q.y) (hwy : p.y ≤ w.y ∧ w.y ≤ q.y)
    (hside : cross p q u < 0) : cross p q w < 0 := by
  by_contra hother
  have hpos : 0 < cross p q w - cross p q u := by linarith [not_lt.mp hother]
  have h0 : 0 ≤ -cross p q u / (cross p q w - cross p q u) := div_nonneg (by linarith) hpos.le
  have h1 : -cross p q u / (cross p q w - cross p q u) ≤ 1 :=
    (div_le_one hpos).mpr (by linarith [not_lt.mp hother])
  have hzero : cross p q (along u w (-cross p q u / (cross p q w - cross p q u))) = 0 := by
    rw [cross_along]
    field_simp
    ring
  have hne : p ≠ q := by
    rintro rfl
    exact absurd hpq (lt_irrefl _)
  obtain ⟨s, hs⟩ := exists_along hne hzero
  have hy := between_iff.mpr ⟨_, h0, h1, along_y u w _⟩
  have hlow := (le_min huy.1 hwy.1).trans hy.1
  have hhigh := hy.2.trans (max_le huy.2 hwy.2)
  rw [hs, along_y] at hlow hhigh
  have hpos' : 0 < q.y - p.y := by linarith
  have hs0 : 0 ≤ s := by
    by_contra hneg
    nlinarith [not_le.mp hneg]
  have hs1 : s ≤ 1 := by
    by_contra hover
    nlinarith [not_le.mp hover]
  exact hapart ⟨_, along_mem_segment hu hw h0 h1, s, hs0, hs1, hs⟩

theorem exists_at_height (hab : a.y < b.y) {y : K} (hlow : a.y ≤ y) (hhigh : y ≤ b.y) :
    ∃ m ∈ segment a b, m.y = y := by
  have hpos : 0 < b.y - a.y := by linarith
  refine ⟨_, ⟨(y - a.y) / (b.y - a.y), div_nonneg (by linarith) hpos.le,
    (div_le_one hpos).mpr (by linarith), rfl⟩, ?_⟩
  rw [along_y, div_mul_cancel₀ _ hpos.ne']
  ring

theorem mark_add_eq {P Q R T : Prop} [Decidable P] [Decidable Q] [Decidable R] [Decidable T]
    (h : (P ↔ Q) ↔ (R ↔ T)) : mark P + mark Q = mark R + mark T := by
  unfold mark
  by_cases hP : P <;> by_cases hQ : Q <;> by_cases hR : R <;> by_cases hT : T <;>
    simp_all [CharTwo.add_self_eq_zero]

theorem rising_level (hab : a.y ≤ b.y) (hpq : p.y = q.y)
    (hapart : ¬ (segment a b ∩ segment p q).Nonempty) : Crosses p (a, b) → Crosses q (a, b) := by
  rw [crosses_iff hab, crosses_iff hab, hpq]
  rintro ⟨hheight, m, hm, hmy, hx⟩
  refine ⟨hheight, m, hm, hmy, ?_⟩
  by_contra hright
  refine hapart ⟨m, hm, mem_segment_iff.mpr ⟨?_, ?_, ?_⟩⟩
  · unfold cross
    rw [hmy, hpq]
    ring
  · exact ⟨(min_le_left _ _).trans hx.le, (not_lt.mp hright).trans (le_max_right _ _)⟩
  · rw [hmy, hpq, min_self, max_self]
    exact ⟨le_refl _, le_refl _⟩

/-- A rising edge beside an upward path: all it does, it does on one side. -/
theorem rising_parity (hab : a.y ≤ b.y) (hpq : p.y < q.y)
    (hapart : ¬ (segment a b ∩ segment p q).Nonempty) :
    (Crosses p (a, b) ↔ Crosses q (a, b)) ↔ (InStrip p q a ↔ InStrip p q b) := by
  have hpos : 0 < q.y - p.y := by linarith
  have hsides : ∀ {u w : Point K}, u ∈ segment a b → w ∈ segment a b →
      p.y ≤ u.y ∧ u.y ≤ q.y → p.y ≤ w.y ∧ w.y ≤ q.y → cross p q u < 0 → cross p q w < 0 :=
    fun hu hw huy hwy => side_constant hpq hapart hu hw huy hwy
  obtain ⟨S, hS⟩ : ∃ S : Prop,
      S ↔ ∃ v ∈ segment a b, (p.y ≤ v.y ∧ v.y ≤ q.y) ∧ cross p q v < 0 := ⟨_, Iff.rfl⟩
  -- at the height of an end of the path, being on the right is being beside it
  have hright : ∀ {m z : Point K}, (z = p ∨ z = q) → m.y = z.y → (z.x < m.x ↔ cross p q m < 0) := by
    intro m z hz hy
    have hcross : cross p q m = (q.y - p.y) * (z.x - m.x) := by
      unfold cross
      rcases hz with rfl | rfl
      · rw [hy]
        ring
      · rw [hy]
        ring
    rw [hcross]
    constructor
    · intro hx
      nlinarith
    · intro hx
      by_contra hle
      nlinarith [not_lt.mp hle]
  have hcrosses : ∀ {z : Point K}, (z = p ∨ z = q) →
      (Crosses z (a, b) ↔ (a.y ≤ z.y ∧ z.y < b.y) ∧ S) := by
    intro z hz
    have hzy : p.y ≤ z.y ∧ z.y ≤ q.y := by
      rcases hz with rfl | rfl
      · exact ⟨le_refl _, hpq.le⟩
      · exact ⟨hpq.le, le_refl _⟩
    rw [crosses_iff hab, hS]
    refine and_congr_right fun hheight => ?_
    constructor
    · rintro ⟨m, hm, hmy, hx⟩
      exact ⟨m, hm, by rw [hmy]; exact hzy, (hright hz hmy).mp hx⟩
    · rintro ⟨v, hv, hvy, hside⟩
      obtain ⟨m, hm, hmy⟩ := exists_at_height (hheight.1.trans_lt hheight.2) hheight.1 hheight.2.le
      exact ⟨m, hm, hmy, (hright hz hmy).mpr (hsides hv hm hvy (by rw [hmy]; exact hzy) hside)⟩
  have hstrip : ∀ {v : Point K}, v ∈ segment a b →
      (InStrip p q v ↔ (p.y < v.y ∧ v.y ≤ q.y) ∧ S) := by
    intro v hv
    unfold InStrip
    rw [hS]
    refine and_congr_right fun hheight => ?_
    have hvy : p.y ≤ v.y ∧ v.y ≤ q.y := ⟨hheight.1.le, hheight.2⟩
    exact ⟨fun h => ⟨v, hv, hvy, h⟩, fun ⟨w, hw, hwy, h⟩ => hsides hw hv hwy hvy h⟩
  rw [hcrosses (Or.inl rfl), hcrosses (Or.inr rfl), hstrip (left_mem_segment a b),
    hstrip (right_mem_segment a b)]
  -- what is left is where the four heights lie
  by_cases hs : S
  · grind
  · grind

theorem edge_parity (hpq : p.y ≤ q.y) (hapart : ¬ (segment a b ∩ segment p q).Nonempty) :
    mark (Crosses p (a, b)) + mark (Crosses q (a, b)) =
      mark (InStrip p q a) + mark (InStrip p q b) := by
  have hrising : ∀ {a b : Point K}, a.y ≤ b.y → ¬ (segment a b ∩ segment p q).Nonempty →
      ((Crosses p (a, b) ↔ Crosses q (a, b)) ↔ (InStrip p q a ↔ InStrip p q b)) := by
    intro a b hab hapart
    rcases hpq.lt_or_eq with hlt | heq
    · exact rising_parity hab hlt hapart
    · have hnone : ∀ v, ¬ InStrip p q v := by
        rintro v ⟨⟨hlow, hhigh⟩, -⟩
        exact absurd (hlow.trans_le hhigh) (by rw [heq]; exact lt_irrefl _)
      have hboth : Crosses p (a, b) ↔ Crosses q (a, b) := by
        refine ⟨rising_level hab heq hapart, rising_level hab heq.symm ?_⟩
        rw [segment_comm q p]
        exact hapart
      exact iff_of_true hboth (iff_of_false (hnone a) (hnone b))
  rcases le_total a.y b.y with hab | hab
  · exact mark_add_eq (hrising hab hapart)
  · have hapart' : ¬ (segment b a ∩ segment p q).Nonempty := by
      rw [segment_comm b a]
      exact hapart
    refine mark_add_eq ?_
    rw [crosses_swap, crosses_swap (z := q), hrising hab hapart']
    exact Iff.comm

/-! ### All around -/

omit [Field K] [LinearOrder K] [IsStrictOrderedRing K] in
theorem sum_ring (f : Point K → ZMod 2) (vertices : List (Point K)) :
    ((ring vertices).map fun e => f e.1 + f e.2).sum = 0 := by
  have hsplit : ∀ edges : List (Point K × Point K),
      (edges.map fun e => f e.1 + f e.2).sum =
        ((edges.map Prod.fst).map f).sum + ((edges.map Prod.snd).map f).sum := by
    intro edges
    induction edges with
    | nil => rfl
    | cons e edges ih =>
        simp only [List.map_cons, List.sum_cons, ih]
        ring
  have hlength : vertices.length = (vertices.rotate 1).length := (List.length_rotate ..).symm
  rw [hsplit]
  unfold ring
  rw [List.map_fst_zip hlength.le, List.map_snd_zip hlength.ge,
    ((List.rotate_perm vertices 1).map f).sum_eq]
  exact CharTwo.add_self_eq_zero _

/-- What the edges beside an upward path do, they do with their ends. -/
theorem crossings_apart (hpq : p.y ≤ q.y) {edges : List (Point K × Point K)}
    (hedges : ∀ e ∈ edges, ¬ (segment e.1 e.2 ∩ segment p q).Nonempty) :
    crossings p edges + crossings q edges =
      (edges.map fun e => mark (InStrip p q e.1) + mark (InStrip p q e.2)).sum := by
  induction edges with
  | nil => rfl
  | cons e edges ih =>
      rw [List.forall_mem_cons] at hedges
      have hrest := ih hedges.2
      have hedge := edge_parity hpq hedges.1
      unfold crossings at hrest ⊢
      simp only [List.map_cons, List.sum_cons]
      rw [← hrest, ← hedge]
      ring

/-- The parity along an upward path that meets no edge. -/
theorem crossings_upward {vertices : List (Point K)} (hpq : p.y ≤ q.y)
    (hapart : ∀ e ∈ ring vertices, ¬ (segment e.1 e.2 ∩ segment p q).Nonempty) :
    crossings p (ring vertices) = crossings q (ring vertices) := by
  have hzero := crossings_apart hpq hapart
  rw [sum_ring fun v => mark (InStrip p q v)] at hzero
  exact CharTwo.add_eq_zero.mp hzero

/--
**The parity does not change along a path that meets no edge.**  Whatever polygon the
vertices make, its edges may cross one another.
-/
theorem crossings_eq {vertices : List (Point K)}
    (hapart : ∀ e ∈ ring vertices, ¬ (segment e.1 e.2 ∩ segment p q).Nonempty) :
    crossings p (ring vertices) = crossings q (ring vertices) := by
  rcases le_total p.y q.y with hpq | hpq
  · exact crossings_upward hpq hapart
  · refine (crossings_upward hpq fun e he => ?_).symm
    rw [segment_comm q p]
    exact hapart e he

/-! ### What is enclosed -/

variable {V W : List (Point K)}

theorem enclosed_of_path (hp : p ∈ enclosed W)
    (hapart : ∀ e ∈ ring W, ¬ (segment e.1 e.2 ∩ segment p q).Nonempty) : q ∈ enclosed W := by
  rcases hp with ⟨e, he, hon⟩ | hodd
  · exact absurd ⟨p, hon, left_mem_segment p q⟩ (hapart e he)
  · exact Or.inr ((crossings_eq hapart).symm.trans hodd)

section

omit [Field K] [LinearOrder K] [IsStrictOrderedRing K]

theorem ring_getElem? {W : List (Point K)} {i : Nat} {v w : Point K} (hv : W[i]? = some v)
    (hw : W[(i + 1) % W.length]? = some w) : (ring W)[i]? = some (v, w) := by
  have hi := (List.getElem?_eq_some_iff.mp hv).1
  unfold ring
  rw [List.getElem?_zip_eq_some]
  exact ⟨hv, by rw [List.getElem?_rotate hi]; exact hw⟩

theorem ring_vertices {e : Point K × Point K} (h : e ∈ ring W) : e.1 ∈ W ∧ e.2 ∈ W := by
  have hmem := List.of_mem_zip (show (e.1, e.2) ∈ _ from h)
  exact ⟨hmem.1, List.mem_rotate.mp hmem.2⟩

/-- What no edge changes is the same at all vertices. -/
theorem constant_on_ring {P : Point K → Prop} (hP : ∀ e ∈ ring W, (P e.1 ↔ P e.2)) {w w' : Point K}
    (hw : w ∈ W) (hw' : w' ∈ W) : P w ↔ P w' := by
  obtain ⟨first, hfirst⟩ : ∃ first, W[0]? = some first :=
    ⟨_, List.getElem?_eq_getElem (List.length_pos_of_mem hw)⟩
  have hall : ∀ (i : Nat) v, W[i]? = some v → (P v ↔ P first) := by
    intro i
    induction i with
    | zero =>
        intro v hv
        rw [hfirst] at hv
        rw [Option.some.inj hv]
    | succ i ih =>
        intro v hv
        have hlt : i + 1 < W.length := (List.getElem?_eq_some_iff.mp hv).1
        have hprev := List.getElem?_eq_getElem (Nat.lt_of_succ_lt hlt)
        have hnext : W[(i + 1) % W.length]? = some v := by
          rw [Nat.mod_eq_of_lt hlt]
          exact hv
        have hedge := hP _ (List.mem_of_getElem? (ring_getElem? hprev hnext))
        exact hedge.symm.trans (ih _ hprev)
  obtain ⟨i, hi⟩ := List.mem_iff_getElem?.mp hw
  obtain ⟨j, hj⟩ := List.mem_iff_getElem?.mp hw'
  exact (hall i w hi).trans (hall j w' hj).symm

end

theorem exists_above (h : z ∈ enclosed W) : ∃ w ∈ W, z.y ≤ w.y := by
  rcases h with ⟨e, he, t, h0, h1, rfl⟩ | hodd
  · have hy := (between_iff.mpr ⟨t, h0, h1, along_y e.1 e.2 t⟩).2
    rcases le_max_iff.mp hy with hle | hle
    · exact ⟨e.1, (ring_vertices he).1, hle⟩
    · exact ⟨e.2, (ring_vertices he).2, hle⟩
  · by_contra hall
    have hnone : ∀ e ∈ ring W, mark (Crosses z e) = 0 := by
      intro e he
      refine if_neg fun hcross => hcross.1 ?_
      have hfirst : ¬ z.y < e.1.y := fun hlt => hall ⟨e.1, (ring_vertices he).1, hlt.le⟩
      have hsecond : ¬ z.y < e.2.y := fun hlt => hall ⟨e.2, (ring_vertices he).2, hlt.le⟩
      exact iff_of_false hfirst hsecond
    have hzero : crossings z (ring W) = 0 :=
      List.sum_eq_zero fun m hm => by
        obtain ⟨e, he, rfl⟩ := List.mem_map.mp hm
        exact hnone e he
    rw [hzero] at hodd
    exact absurd hodd (by decide)

omit [IsStrictOrderedRing K] in
/-- At the height of the highest vertex, or above, nothing is inside. -/
theorem crossings_of_above (h : ∀ w ∈ W, w.y ≤ z.y) : crossings z (ring W) = 0 := by
  refine List.sum_eq_zero fun m hm => ?_
  obtain ⟨e, he, rfl⟩ := List.mem_map.mp hm
  refine if_neg fun hcross => hcross.1 ?_
  exact iff_of_false (not_lt.mpr (h _ (ring_vertices he).1)) (not_lt.mpr (h _ (ring_vertices he).2))

/--
**A thick region is enclosed with its core.**  It is enough that no edge comes nearer to
the core than the region is thick.
-/
theorem thick_subset_enclosed {A : Set (Point K)} {r : K} (hA : A ⊆ enclosed W)
    (hfar : ∀ p ∈ A, ∀ e ∈ ring W, ∀ u ∈ segment e.1 e.2, r ^ 2 ≤ sqDist p u) :
    thick A r ⊆ enclosed W := by
  rintro z ⟨p, hp, hzp⟩
  by_cases hmeet : ∃ e ∈ ring W, (segment e.1 e.2 ∩ segment p z).Nonempty
  · obtain ⟨e, he, u, hu, t, h0, h1, rfl⟩ := hmeet
    have hreach := hfar p hp e he _ hu
    rw [sqDist_comm, sqDist_along_left] at hreach
    rw [sqDist_comm] at hzp
    rcases h1.lt_or_eq with hlt | rfl
    · -- the edge is reached before the end, so that the way has no length
      have hsq : t ^ 2 < 1 := pow_lt_one₀ h0 hlt two_ne_zero
      have hnonneg := sqDist_nonneg p z
      have hzero : sqDist p z = 0 := by nlinarith
      rw [← sqDist_eq_zero.mp hzero]
      exact hA hp
    · rw [along_one] at hu
      exact Or.inl ⟨e, he, hu⟩
  · exact enclosed_of_path (hA hp) fun e he h => hmeet ⟨e, he, h⟩

/--
**A box is enclosed with a corner.**  It is enough that no edge touches its border: the
polygon would otherwise lie within the box, and not around its corner.
-/
theorem box_subset_enclosed {low high : Point K} (hle : low.x ≤ high.x ∧ low.y ≤ high.y)
    (hcorner : high ∈ enclosed W)
    (hborder : ∀ u, OnRing W u → u ∈ box low high →
      ¬ (u.x = low.x ∨ u.x = high.x ∨ u.y = low.y ∨ u.y = high.y)) :
    box low high ⊆ enclosed W := by
  have hhigh : high ∈ box low high := ⟨⟨hle.1, le_refl _⟩, hle.2, le_refl _⟩
  -- an edge that has a point in the box cannot leave it
  have hstays : ∀ e ∈ ring W, ∀ u ∈ segment e.1 e.2, u ∈ box low high →
      ∀ v ∈ segment e.1 e.2, v ∈ box low high := by
    intro e he u hu hin v hv
    by_contra hout
    obtain ⟨t, h0, h1, hlast, hside⟩ := exists_exit hin hout
    exact hborder _ ⟨e, he, along_mem_segment hu hv h0 h1⟩ hlast hside
  have hnone : ∀ e ∈ ring W, ∀ u ∈ segment e.1 e.2, u ∉ box low high := by
    intro e he u hu hin
    have hstart := hstays e he u hu hin e.1 (left_mem_segment _ _)
    have hall : ∀ w ∈ W, w ∈ box low high := by
      intro w hw
      refine (constant_on_ring (P := fun v => v ∈ box low high) (fun f hf => ?_) hw
        (ring_vertices he).1).mpr hstart
      exact ⟨fun h => hstays f hf _ (left_mem_segment _ _) h _ (right_mem_segment _ _),
        fun h => hstays f hf _ (right_mem_segment _ _) h _ (left_mem_segment _ _)⟩
    rcases hcorner with hon | hodd
    · exact hborder high hon hhigh (Or.inr (Or.inl rfl))
    · rw [crossings_of_above fun w hw => (hall w hw).2.2] at hodd
      exact absurd hodd (by decide)
  intro z hz
  refine enclosed_of_path hcorner fun e he => ?_
  rintro ⟨u, hu, huz⟩
  exact hnone e he u hu (segment_subset_box hhigh hz huz)

/-! ### A polygon in a polygon -/

theorem isClosed_meeting (p q a b : Point ℝ) : IsClosed {t : ℝ | along p q t ∈ segment a b} := by
  have hx : Continuous fun t : ℝ => (along p q t).x := by
    simp only [along_x]
    fun_prop
  have hy : Continuous fun t : ℝ => (along p q t).y := by
    simp only [along_y]
    fun_prop
  have hcross : Continuous fun t : ℝ => cross a b (along p q t) := by
    simp only [cross_along]
    fun_prop
  simp only [mem_segment_iff, Set.ofPred_and]
  refine (isClosed_eq hcross continuous_const).inter ?_
  exact ((isClosed_le continuous_const hx).inter (isClosed_le hx continuous_const)).inter
    ((isClosed_le continuous_const hy).inter (isClosed_le hy continuous_const))

theorem first_meeting {W : List (Point ℝ)} {p q : Point ℝ}
    (h : ∃ e ∈ ring W, (segment e.1 e.2 ∩ segment p q).Nonempty) :
    ∃ t, 0 ≤ t ∧ t ≤ 1 ∧ OnRing W (along p q t) ∧ ∀ u, 0 ≤ u → u < t → ¬ OnRing W (along p q u) := by
  have hclosed : IsClosed {t : ℝ | OnRing W (along p q t)} := by
    have hunion : {t : ℝ | OnRing W (along p q t)} =
        ⋃ e ∈ {e | e ∈ ring W}, {t : ℝ | along p q t ∈ segment e.1 e.2} := by
      ext t
      simp [OnRing]
    rw [hunion]
    exact (List.finite_toSet (ring W)).isClosed_biUnion fun e _ => isClosed_meeting p q e.1 e.2
  obtain ⟨e, he, _, hon, t, h0, h1, rfl⟩ := h
  obtain ⟨first, hfirst⟩ := (isCompact_Icc.inter_right hclosed).exists_isLeast
    (s := Set.Icc (0 : ℝ) 1 ∩ {t : ℝ | OnRing W (along p q t)}) ⟨t, ⟨h0, h1⟩, e, he, hon⟩
  refine ⟨first, hfirst.1.1.1, hfirst.1.1.2, hfirst.1.2, fun u hu0 hu hring => ?_⟩
  exact absurd (hfirst.2 ⟨⟨hu0, hu.le.trans hfirst.1.1.2⟩, hring⟩) (not_le.mpr hu)

/--
**A polygon with its vertices in another is in it.**  It is enough that no edge of the
one touches an edge of the other.  The other polygon then has no point inside the first,
so that the way from a point of the first to one of its vertices cannot come upon the
other: it would have to leave the first before.
-/
theorem polygon_subset_enclosed {V W : List (Point ℝ)} (hV : V ≠ [])
    (hin : ∀ v ∈ V, v ∈ enclosed W)
    (hapart : ∀ e ∈ ring V, ∀ f ∈ ring W, ¬ (segment e.1 e.2 ∩ segment f.1 f.2).Nonempty) :
    enclosed V ⊆ enclosed W := by
  have hborder : ∀ z, OnRing V z → z ∈ enclosed W := by
    rintro z ⟨e, he, hz⟩
    refine enclosed_of_path (hin e.1 (ring_vertices he).1) fun f hf => ?_
    rintro ⟨u, hu, t, h0, h1, rfl⟩
    exact hapart e he f hf ⟨_, along_mem_segment (left_mem_segment _ _) hz h0 h1, hu⟩
  -- no edge of the outer polygon changes the parity of the inner one
  have houter : ∀ u, OnRing W u → crossings u (ring V) = 0 := by
    rintro u ⟨f, hf, hu⟩
    have hparity : ∀ {a b : Point ℝ} {g : Point ℝ × Point ℝ}, g ∈ ring W → a ∈ segment g.1 g.2 →
        b ∈ segment g.1 g.2 → crossings a (ring V) = crossings b (ring V) := by
      intro a b g hg ha hb
      refine crossings_eq fun e he => ?_
      rintro ⟨v, hv, t, h0, h1, rfl⟩
      exact hapart e he g hg ⟨_, hv, along_mem_segment ha hb h0 h1⟩
    obtain ⟨top, htop, hmax⟩ : ∃ top ∈ W, ∀ w ∈ W, w.y ≤ top.y :=
      Set.exists_max_image {w | w ∈ W} Point.y (List.finite_toSet W) ⟨f.1, (ring_vertices hf).1⟩
    have habove : ∀ v ∈ V, v.y ≤ top.y := by
      intro v hv
      obtain ⟨w, hw, hle⟩ := exists_above (hin v hv)
      exact hle.trans (hmax w hw)
    have hsame := (constant_on_ring (P := fun w => crossings w (ring V) = 0) (fun g hg => by
      rw [hparity hg (left_mem_segment _ _) (right_mem_segment _ _)]) htop
      (ring_vertices hf).1).mp (crossings_of_above habove)
    rw [hparity hf hu (left_mem_segment _ _)]
    exact hsame
  intro z hz
  by_contra hout
  obtain ⟨a, ha⟩ := List.exists_mem_of_ne_nil V hV
  have hodd : crossings z (ring V) = 1 := hz.resolve_left fun hon => hout (hborder z hon)
  have hmeets : ∃ e ∈ ring W, (segment e.1 e.2 ∩ segment z a).Nonempty := by
    by_contra hnone
    refine hout (enclosed_of_path (hin a ha) fun e he hmeet => hnone ⟨e, he, ?_⟩)
    rwa [segment_comm z a]
  obtain ⟨t, h0, h1, hon, hfirst⟩ := first_meeting hmeets
  -- before it comes upon the outer polygon, the way crosses an edge of the inner one
  have hcross : ∃ e ∈ ring V, (segment e.1 e.2 ∩ segment z (along z a t)).Nonempty := by
    by_contra hnone
    have hsame : crossings z (ring V) = crossings (along z a t) (ring V) :=
      crossings_eq fun e he hmeet => hnone ⟨e, he, hmeet⟩
    rw [hodd, houter _ hon] at hsame
    exact absurd hsame (by decide)
  obtain ⟨e, he, w, hw, s, hs0, hs1, rfl⟩ := hcross
  have hback : ∃ f ∈ ring W, (segment f.1 f.2 ∩ segment z (along z (along z a t) s)).Nonempty := by
    by_contra hnone
    refine hout (enclosed_of_path (hborder _ ⟨e, he, hw⟩) fun f hf hmeet => hnone ⟨f, hf, ?_⟩)
    rwa [segment_comm z]
  obtain ⟨f, hf, _, hu, r, hr0, hr1, rfl⟩ := hback
  have hway : along z (along z (along z a t) s) r = along z a (r * s * t) := by
    ext <;> simp only [along_x, along_y] <;> ring
  have hst : s * t ≤ t := by nlinarith
  have hrst : r * s * t ≤ s * t := by nlinarith [mul_nonneg hs0 h0]
  rcases (hrst.trans hst).lt_or_eq with hlt | heq
  · exact hfirst _ (by positivity) hlt ⟨f, hf, by rw [← hway]; exact hu⟩
  · -- the two come upon each other at one point
    have hs : s * t = t := by
      rw [heq] at hrst
      exact le_antisymm hst hrst
    have hsame : along z (along z a t) s = along z a t := by
      ext
      · simp only [along_x]
        linear_combination (a.x - z.x) * hs
      · simp only [along_y]
        linear_combination (a.y - z.y) * hs
    rw [hsame] at hw
    obtain ⟨g, hg, hong⟩ := hon
    exact hapart e he g hg ⟨_, hw, hong⟩

end Plane

end Evleda
