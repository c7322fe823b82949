/-
The same polygon drawn differently, and the same wire.

A ring can be drawn from any corner, either way round, with its first vertex
repeated at the end or not; a wire can be drawn from either end.  Whether a
polygon is simple, whether two wires touch and what the normal form is do not
depend on the drawing.

The checks of the source run over pairs of edges by their place in the list.
Where no vertex repeats, the places only serve to leave out the edges that have
an end in common, so the checks say: edges without a common end do not meet.
-/
import Evleda.Kernel.Geometry
import Mathlib.Data.Int.Order.Basic
import Mathlib.Tactic.LinearCombination
import Mathlib.Tactic.Ring

namespace Evleda.Kernel

open Outcome

variable {a b c d p : PointNm}

/-! ### Segments have no direction -/

/-- Strictly on the two sides of zero. -/
def Opposite (x y : Int) : Prop := (x < 0 ∧ 0 < y) ∨ (y < 0 ∧ 0 < x)

theorem cross_swap : cross b a c = - cross a b c := by
  unfold cross
  ring

theorem pointOnSegment_iff : pointOnSegment p a b = true ↔ cross a b p = 0 ∧
    (min a.x b.x ≤ p.x ∧ p.x ≤ max a.x b.x) ∧ (min a.y b.y ≤ p.y ∧ p.y ≤ max a.y b.y) := by
  unfold pointOnSegment
  rw [decide_eq_true_iff]

theorem pointOnSegment_swap : pointOnSegment p b a = pointOnSegment p a b := by
  rw [Bool.eq_iff_iff, pointOnSegment_iff, pointOnSegment_iff, cross_swap, neg_eq_zero,
    min_comm b.x, max_comm b.x, min_comm b.y, max_comm b.y]

theorem segmentsIntersect_iff : segmentsIntersect a b c d = true ↔
    pointOnSegment c a b = true ∨ pointOnSegment d a b = true ∨ pointOnSegment a c d = true ∨
      pointOnSegment b c d = true ∨
      (Opposite (cross a b c) (cross a b d) ∧ Opposite (cross c d a) (cross c d b)) := by
  have hzero : ∀ {p a b : PointNm}, (cross a b p = 0 ∧ pointOnSegment p a b = true) ↔
      pointOnSegment p a b = true := by
    intro p a b
    rw [and_iff_right_iff_imp, pointOnSegment_iff]
    exact And.left
  unfold segmentsIntersect Opposite
  simp only [hzero]
  split
  · simp_all
  · split
    · simp_all
    · split
      · simp_all
      · split
        · simp_all
        · simp_all

theorem segmentsIntersect_comm : segmentsIntersect c d a b = segmentsIntersect a b c d := by
  rw [Bool.eq_iff_iff, segmentsIntersect_iff, segmentsIntersect_iff]
  tauto

theorem opposite_comm {x y : Int} : Opposite x y ↔ Opposite y x := by
  unfold Opposite
  tauto

theorem opposite_neg {x y : Int} : Opposite (-x) (-y) ↔ Opposite x y := by
  unfold Opposite
  omega

theorem segmentsIntersect_swap : segmentsIntersect b a c d = segmentsIntersect a b c d := by
  rw [Bool.eq_iff_iff, segmentsIntersect_iff, segmentsIntersect_iff, pointOnSegment_swap,
    @pointOnSegment_swap a b d, @cross_swap a b c, @cross_swap a b d, opposite_neg,
    @opposite_comm (cross c d b)]
  tauto

theorem segmentsIntersect_swap_right :
    segmentsIntersect a b d c = segmentsIntersect a b c d := by
  rw [segmentsIntersect_comm, segmentsIntersect_swap, segmentsIntersect_comm]

theorem collinearOverlap_swap :
    collinearOverlapHasLength b a c d = collinearOverlapHasLength a b c d := by
  unfold collinearOverlapHasLength
  simp only [@cross_swap a b, ne_eq, neg_eq_zero, min_comm b.x, max_comm b.x, min_comm b.y,
    max_comm b.y, @eq_comm _ b.x]

theorem PointNm.eq_of_coordinates {p q : PointNm} (hx : p.x = q.x) (hy : p.y = q.y) : p = q := by
  cases p
  cases q
  cases hx
  cases hy
  rfl

/-- Two segments with length lie on one line whichever of them is asked. -/
theorem collinear_comm (hab : a ≠ b) (h : cross a b c = 0 ∧ cross a b d = 0) :
    cross c d a = 0 ∧ cross c d b = 0 := by
  obtain ⟨hc, hd⟩ := h
  unfold cross at hc hd ⊢
  by_cases hx : b.x - a.x = 0
  · have hy : b.y - a.y ≠ 0 := by
      intro hy
      exact hab (PointNm.eq_of_coordinates (by omega) (by omega))
    constructor
    · refine (mul_eq_zero.mp ?_).resolve_left hy
      linear_combination (c.y - a.y) * hd - (d.y - a.y) * hc
    · refine (mul_eq_zero.mp ?_).resolve_left hy
      linear_combination (c.y - b.y) * hd - (d.y - b.y) * hc
  · constructor
    · refine (mul_eq_zero.mp ?_).resolve_left hx
      linear_combination (c.x - a.x) * hd - (d.x - a.x) * hc
    · refine (mul_eq_zero.mp ?_).resolve_left hx
      linear_combination (c.x - b.x) * hd - (d.x - b.x) * hc

theorem collinear_upright (hcd : c ≠ d) (hc : cross a b c = 0) (hd : cross a b d = 0)
    (hx : a.x ≠ b.x) : c.x ≠ d.x := by
  intro hsame
  refine hcd (PointNm.eq_of_coordinates hsame ?_)
  unfold cross at hc hd
  have hzero : (b.x - a.x) * (c.y - d.y) = 0 := by
    rw [hsame] at hc
    linear_combination hc - hd
  rcases mul_eq_zero.mp hzero with h | h
  · omega
  · omega

theorem collinearOverlap_comm (hab : a ≠ b) (hcd : c ≠ d) :
    collinearOverlapHasLength c d a b = collinearOverlapHasLength a b c d := by
  unfold collinearOverlapHasLength
  by_cases hline : cross a b c = 0 ∧ cross a b d = 0
  · have hback := collinear_comm hab hline
    have hfirst : ¬ (cross c d a ≠ 0 ∨ cross c d b ≠ 0) := by tauto
    have hsecond : ¬ (cross a b c ≠ 0 ∨ cross a b d ≠ 0) := by tauto
    rw [if_neg hfirst, if_neg hsecond]
    by_cases hx : a.x = b.x
    · have hx' : c.x = d.x := by
        by_contra hne
        exact collinear_upright hab hback.1 hback.2 hne hx
      rw [if_neg (not_not.mpr hx'), if_neg (not_not.mpr hx), max_comm (min c.y d.y),
        min_comm (max c.y d.y)]
    · have hx' : c.x ≠ d.x := collinear_upright hcd hline.1 hline.2 hx
      rw [if_pos hx', if_pos hx, max_comm (min c.x d.x), min_comm (max c.x d.x)]
  · have hback : ¬ (cross c d a = 0 ∧ cross c d b = 0) :=
      fun h => hline (collinear_comm hcd h)
    have hfirst : cross c d a ≠ 0 ∨ cross c d b ≠ 0 := by tauto
    have hsecond : cross a b c ≠ 0 ∨ cross a b d ≠ 0 := by tauto
    rw [if_pos hfirst, if_pos hsecond]

/-! ### Edges without a common end -/

/-- Edges without a common end do not meet. -/
def Clear (edges : List (PointNm × PointNm)) : Prop :=
  ∀ e ∈ edges, ∀ f ∈ edges, e.1 ≠ f.1 → e.1 ≠ f.2 → e.2 ≠ f.1 → e.2 ≠ f.2 →
    segmentsIntersect e.1 e.2 f.1 f.2 = false

variable {edges edges' : List (PointNm × PointNm)}

theorem Clear.subset (h : Clear edges) (hsub : edges' ⊆ edges) : Clear edges' :=
  fun e he f hf => h e (hsub he) f (hsub hf)

/-- Turning every edge round changes nothing. -/
theorem Clear.swapped (h : Clear edges) (hsub : ∀ e ∈ edges', e.swap ∈ edges) : Clear edges' := by
  intro e he f hf h₁ h₂ h₃ h₄
  have hswapped := h e.swap (hsub e he) f.swap (hsub f hf) h₄ h₃ h₂ h₁
  rwa [Prod.fst_swap, Prod.snd_swap, Prod.fst_swap, Prod.snd_swap, segmentsIntersect_swap,
    segmentsIntersect_swap_right] at hswapped

/-- Edges by their places, each with the later ones that have no end in common with it. -/
theorem clear_iff_places (Apart : Nat → Nat → Prop)
    (happart : ∀ i j (hi : i < edges.length) (hj : j < edges.length), i < j →
      (Apart i j ↔ edges[i].1 ≠ edges[j].1 ∧ edges[i].1 ≠ edges[j].2 ∧ edges[i].2 ≠ edges[j].1 ∧
        edges[i].2 ≠ edges[j].2)) :
    Clear edges ↔ ∀ i j (hi : i < edges.length) (hj : j < edges.length), i < j → Apart i j →
      segmentsIntersect edges[i].1 edges[i].2 edges[j].1 edges[j].2 = false := by
  constructor
  · intro h i j hi hj hij hApart
    obtain ⟨h₁, h₂, h₃, h₄⟩ := (happart i j hi hj hij).mp hApart
    exact h _ (List.getElem_mem hi) _ (List.getElem_mem hj) h₁ h₂ h₃ h₄
  · intro h e he f hf h₁ h₂ h₃ h₄
    obtain ⟨i, hi, rfl⟩ := List.getElem_of_mem he
    obtain ⟨j, hj, rfl⟩ := List.getElem_of_mem hf
    rcases lt_trichotomy i j with hij | rfl | hij
    · exact h i j hi hj hij ((happart i j hi hj hij).mpr ⟨h₁, h₂, h₃, h₄⟩)
    · exact absurd rfl h₁
    · rw [← segmentsIntersect_comm]
      exact h j i hj hi hij ((happart j i hj hi hij).mpr ⟨h₁.symm, h₃.symm, h₂.symm, h₄.symm⟩)

theorem forall_mem_zipIdx {α : Type} {l : List α} {P : α → Nat → Prop} :
    (∀ x ∈ l.zipIdx, P x.1 x.2) ↔ ∀ i (hi : i < l.length), P l[i] i := by
  constructor
  · intro h i hi
    exact h (l[i], i) (List.mem_zipIdx_iff_getElem?.mpr (List.getElem?_eq_getElem hi))
  · intro h x hx
    obtain ⟨hi, hx'⟩ := List.getElem?_eq_some_iff.mp (List.mem_zipIdx_iff_getElem?.mp hx)
    rw [← hx']
    exact h x.2 hi

theorem forall_mem_drop {α : Type} {l : List α} {k : Nat} {P : α → Prop} :
    (∀ x ∈ l.drop k, P x) ↔ ∀ j (hj : j < l.length), k ≤ j → P l[j] := by
  constructor
  · intro h j hj hkj
    refine h _ (List.mem_drop_iff_getElem.mpr ⟨j - k, by omega, ?_⟩)
    congr 1
    omega
  · intro h x hx
    obtain ⟨i, hi, rfl⟩ := List.mem_drop_iff_getElem.mp hx
    exact h _ _ (by omega)

theorem forall_later {α : Type} {l : List α} {Q : α → Nat → α → Nat → Prop} :
    (∀ x ∈ l.zipIdx, ∀ y ∈ l.zipIdx.drop (x.2 + 1), Q x.1 x.2 y.1 y.2) ↔
      ∀ i j (hi : i < l.length) (hj : j < l.length), i < j → Q l[i] i l[j] j := by
  rw [forall_mem_zipIdx (P := fun a i => ∀ y ∈ l.zipIdx.drop (i + 1), Q a i y.1 y.2)]
  simp only [forall_mem_drop, List.length_zipIdx, List.getElem_zipIdx, zero_add]
  constructor
  · intro h i j hi hj hij
    exact h i hi j hj hij
  · intro h i hi j hj hij
    exact h i j hi hj hij

/-! ### Wires -/

variable {vertices vertices' : List PointNm}

theorem mem_segments : (a, b) ∈ segments vertices ↔ [a, b] <:+: vertices := by
  induction vertices with
  | nil => simp [segments]
  | cons x rest ih =>
      cases rest with
      | nil =>
          simp only [segments, List.tail_cons, List.zip_nil_right, List.not_mem_nil, false_iff]
          intro h
          have := h.length_le
          simp at this
      | cons y rest =>
          have hsegments : segments (x :: y :: rest) = (x, y) :: segments (y :: rest) := rfl
          rw [hsegments, List.mem_cons, ih, Prod.mk.injEq, @List.infix_cons_iff _ _ x,
            List.cons_prefix_cons, List.cons_prefix_cons]
          simp

/-- Drawn from the other end, a wire has the same segments the other way round. -/
theorem mem_segments_reverse : (a, b) ∈ segments vertices.reverse ↔ (b, a) ∈ segments vertices := by
  rw [mem_segments, mem_segments, ← List.reverse_infix, List.reverse_reverse]
  rfl

theorem getElem_segments {i : Nat} (hi : i < (segments vertices).length)
    (hi' : i + 1 < vertices.length) :
    (segments vertices)[i] = (vertices[i], vertices[i + 1]) := by
  simp [segments]

theorem length_segments : (segments vertices).length = vertices.length - 1 := by
  simp [segments]

/-- The self-intersection check of a wire whose vertices are distinct. -/
theorem wire_clear_iff (hnodup : vertices.Nodup) :
    (∀ i (hi : i < (segments vertices).length), ∀ j (hj : j < (segments vertices).length),
      i + 2 ≤ j → segmentsIntersect (segments vertices)[i].1 (segments vertices)[i].2
        (segments vertices)[j].1 (segments vertices)[j].2 = false) ↔ Clear (segments vertices) := by
  rw [clear_iff_places fun i j => i + 2 ≤ j]
  · constructor
    · intro h i j hi hj _ hapart
      exact h i hi j hj hapart
    · intro h i hi j hj hapart
      exact h i j hi hj (by omega) hapart
  · intro i j hi hj hij
    have hlength := @length_segments vertices
    rw [getElem_segments hi (by omega), getElem_segments hj (by omega)]
    simp only [ne_eq, hnodup.getElem_inj_iff]
    omega

/-! ### Rings -/

variable {ring ring' : List PointNm}

theorem ringEdges_eq_zip (ring : List PointNm) : ringEdges ring = ring.zip (ring.rotate 1) := by
  cases ring with
  | nil => rfl
  | cons v rest =>
      unfold ringEdges
      rw [List.rotate_cons_succ, List.rotate_zero]
      rfl

theorem length_ringEdges : (ringEdges ring).length = ring.length := by
  simp [ringEdges_eq_zip]

theorem getElem_ringEdges {i : Nat} (hi : i < (ringEdges ring).length) (hi' : i < ring.length)
    (hnext : (i + 1) % ring.length < ring.length) :
    (ringEdges ring)[i] = (ring[i], ring[(i + 1) % ring.length]) := by
  simp [ringEdges_eq_zip, List.getElem_rotate]

/-- A polygon that `validateSimplePolygon` accepts. -/
structure SimpleRing (ring : List PointNm) : Prop where
  length : 3 ≤ ring.length
  nodup : ring.Nodup
  area : twiceArea ring ≠ 0
  clear : Clear (ringEdges ring)

/-- Among distinct corners, the edges that are not neighbours are those without a common end. -/
theorem ring_clear_iff (hlength : 3 ≤ ring.length) (hnodup : ring.Nodup) :
    (∀ i j (hi : i < (ringEdges ring).length) (hj : j < (ringEdges ring).length), i < j →
      ¬ neighbours ring.length i j → segmentsIntersect (ringEdges ring)[i].1 (ringEdges ring)[i].2
        (ringEdges ring)[j].1 (ringEdges ring)[j].2 = false) ↔ Clear (ringEdges ring) := by
  rw [clear_iff_places fun i j => ¬ neighbours ring.length i j]
  intro i j hi hj hij
  rw [length_ringEdges] at hi hj
  rw [getElem_ringEdges _ hi (Nat.mod_lt _ (by omega)),
    getElem_ringEdges _ hj (Nat.mod_lt _ (by omega))]
  simp only [ne_eq, hnodup.getElem_inj_iff]
  have hnext : (i + 1) % ring.length = i + 1 := Nat.mod_eq_of_lt (by omega)
  rw [hnext]
  unfold neighbours
  -- the edge after the last one is the first
  by_cases hlast : j + 1 = ring.length
  · rw [hlast, Nat.mod_self]
    omega
  · rw [Nat.mod_eq_of_lt (by omega)]
    omega

theorem validateSimplePolygon_iff {label : String} :
    validateSimplePolygon vertices label = .ok () ↔ SimpleRing (openRing vertices) := by
  have hedges : ∀ i (hi : i < (ringEdges (openRing vertices)).length),
      3 ≤ (openRing vertices).length → (openRing vertices).Nodup →
      (ringEdges (openRing vertices))[i].1 ≠ (ringEdges (openRing vertices))[i].2 := by
    intro i hi hlength hnodup
    rw [length_ringEdges] at hi
    rw [getElem_ringEdges _ hi (Nat.mod_lt _ (by omega))]
    simp only [ne_eq, hnodup.getElem_inj_iff]
    by_cases hlast : i + 1 = (openRing vertices).length
    · rw [hlast, Nat.mod_self]
      omega
    · rw [Nat.mod_eq_of_lt (by omega)]
      omega
  unfold validateSimplePolygon
  simp only [bind_ok, exists_unit, require_ok, requireWhen_ok,
    forM_ok, length_ringEdges, forall_and]
  have hlater := @forall_later _ (ringEdges (openRing vertices)) fun e i f j =>
    ¬ neighbours (openRing vertices).length i j → segmentsIntersect e.1 e.2 f.1 f.2 = false
  constructor
  · rintro ⟨hlength, hnodup, harea, -, hpairs⟩
    exact ⟨hlength, hnodup, harea, (ring_clear_iff hlength hnodup).mp (hlater.mp hpairs)⟩
  · rintro ⟨hlength, hnodup, harea, hclear⟩
    refine ⟨hlength, hnodup, harea, ?_, hlater.mpr ((ring_clear_iff hlength hnodup).mpr hclear)⟩
    intro x hx
    have hnonzero := (forall_mem_zipIdx (P := fun e _ => e.1 ≠ e.2)).mpr
      fun i hi => hedges i hi hlength hnodup
    exact hnonzero x hx

/-! ### Drawing a ring differently -/

theorem ringEdges_rotate (ring : List PointNm) (n : Nat) :
    ringEdges (ring.rotate n) = (ringEdges ring).rotate n := by
  rw [ringEdges_eq_zip, ringEdges_eq_zip, List.rotate_rotate, Nat.add_comm, ← List.rotate_rotate]
  exact (List.zipWith_rotate_distrib Prod.mk ring (ring.rotate 1) n (by simp)).symm

theorem rotate_round (ring : List PointNm) :
    ring.rotate (1 + (ring.length - 1 % ring.length)) = ring := by
  match ring with
  | [] => rfl
  | [v] => exact List.rotate_singleton v _
  | v :: w :: rest =>
      have hone : 1 % (v :: w :: rest).length = 1 := Nat.mod_eq_of_lt (by simp)
      have hlength : 1 + ((v :: w :: rest).length - 1) = (v :: w :: rest).length := by
        simp only [List.length_cons]
        omega
      rw [hone, hlength, List.rotate_length]

theorem ringEdges_reverse_perm (ring : List PointNm) :
    (ringEdges ring.reverse).Perm ((ringEdges ring).map Prod.swap) := by
  obtain ⟨back, hback⟩ : ∃ back, back = ring.length - 1 % ring.length := ⟨_, rfl⟩
  have hround : ring.rotate (1 + back) = ring := hback ▸ rotate_round ring
  have hreverse : ringEdges ring.reverse = (ring.zip (ring.rotate back)).reverse := by
    rw [ringEdges_eq_zip, List.rotate_reverse, ← hback]
    exact (List.reverse_zipWith (by simp)).symm
  have hswap : (ringEdges ring).map Prod.swap = (ring.rotate 1).zip ring := by
    rw [ringEdges_eq_zip, List.zip_swap]
  have hturn : ((ring.rotate 1).zip ring).rotate back = ring.zip (ring.rotate back) := by
    have hdistrib := List.zipWith_rotate_distrib Prod.mk (ring.rotate 1) ring back (by simp)
    rwa [List.rotate_rotate, hround] at hdistrib
  rw [hreverse, hswap, ← hturn]
  exact (List.reverse_perm _).trans (List.rotate_perm ..)

theorem SimpleRing.rotated (h : SimpleRing ring) (hrotated : ring ~r ring') : SimpleRing ring' := by
  obtain ⟨n, rfl⟩ := hrotated
  have hperm : (ringEdges (ring.rotate n)).Perm (ringEdges ring) := by
    rw [ringEdges_rotate]
    exact List.rotate_perm ..
  refine ⟨by simpa using h.length, List.nodup_rotate.mpr h.nodup, ?_, h.clear.subset hperm.subset⟩
  unfold twiceArea
  rw [(hperm.map _).sum_eq]
  exact h.area

theorem SimpleRing.reversed (h : SimpleRing ring) : SimpleRing ring.reverse := by
  have hperm := ringEdges_reverse_perm ring
  refine ⟨by simpa using h.length, List.nodup_reverse.mpr h.nodup, ?_, h.clear.swapped ?_⟩
  · unfold twiceArea
    rw [(hperm.map _).sum_eq, List.map_map]
    have hnegated : ∀ edges : List (PointNm × PointNm),
        (edges.map ((fun edge => edge.1.x * edge.2.y - edge.2.x * edge.1.y) ∘ Prod.swap)).sum =
          -(edges.map (fun edge => edge.1.x * edge.2.y - edge.2.x * edge.1.y)).sum := by
      intro edges
      induction edges with
      | nil => rfl
      | cons edge rest ih =>
          simp only [List.map_cons, List.sum_cons, ih, Function.comp_apply, Prod.fst_swap,
            Prod.snd_swap]
          ring
    rw [hnegated, neg_ne_zero]
    exact h.area
  · intro e he
    obtain ⟨f, hf, rfl⟩ := List.mem_map.mp (hperm.mem_iff.mp he)
    rw [Prod.swap_swap]
    exact hf

/-- The same ring: from another corner, the other way round, closed or not. -/
def SameRing (vertices vertices' : List PointNm) : Prop :=
  openRing vertices ~r openRing vertices' ∨ (openRing vertices).reverse ~r openRing vertices'

theorem SimpleRing.redrawn (h : SimpleRing (openRing vertices)) (hsame : SameRing vertices vertices') :
    SimpleRing (openRing vertices') := by
  rcases hsame with hrotated | hrotated
  · exact h.rotated hrotated
  · exact h.reversed.rotated hrotated

theorem openRing_eq_nil : openRing vertices = [] ↔ vertices = [] := by
  unfold openRing
  split
  · rename_i hclosed
    rw [← List.length_eq_zero_iff, ← List.length_eq_zero_iff, List.length_dropLast]
    omega
  · rfl

theorem SameRing.eq_nil_iff (h : SameRing vertices vertices') : vertices = [] ↔ vertices' = [] := by
  rw [← @openRing_eq_nil vertices, ← @openRing_eq_nil vertices']
  rcases h with hrotated | hrotated
  · rw [← List.length_eq_zero_iff, ← List.length_eq_zero_iff, hrotated.perm.length_eq]
  · rw [← List.length_eq_zero_iff, ← List.length_eq_zero_iff, ← hrotated.perm.length_eq,
      List.length_reverse]

theorem sameRing_iff_mem (hne : vertices ≠ []) :
    SameRing vertices vertices' ↔ openRing vertices' ∈ drawings (openRing vertices) := by
  rw [mem_drawings, and_iff_right (mt openRing_eq_nil.mp hne)]
  rfl

theorem mem_drawings_symm (h : ring' ∈ drawings ring) : ring ∈ drawings ring' := by
  rw [mem_drawings] at h ⊢
  obtain ⟨hne, hdrawn⟩ := h
  have hlength : ring.length = ring'.length := by
    rcases hdrawn with hrotated | hrotated
    · exact hrotated.perm.length_eq
    · rw [← hrotated.perm.length_eq, List.length_reverse]
  refine ⟨?_, ?_⟩
  · rw [← List.length_pos_iff] at hne ⊢
    omega
  · rcases hdrawn with hrotated | hrotated
    · exact Or.inl hrotated.symm
    · exact Or.inr (List.isRotated_reverse_comm_iff.mp hrotated).symm

theorem normalizedRing_eq_nil : normalizedRing vertices = [] ↔ vertices = [] := by
  rw [← @openRing_eq_nil vertices]
  constructor
  · intro hnil
    by_contra hne
    have hself : openRing vertices ∈ drawings (openRing vertices) :=
      mem_drawings.mpr ⟨hne, Or.inl (List.IsRotated.refl _)⟩
    unfold normalizedRing at hnil
    cases hmin : (drawings (openRing vertices)).min? with
    | none =>
        rw [List.min?_eq_none_iff] at hmin
        rw [hmin] at hself
        cases hself
    | some least =>
        rw [hmin, Option.getD_some] at hnil
        have hleast := (List.min?_eq_some_iff.mp hmin).1
        have hback := (mem_drawings.mp (mem_drawings_symm hleast)).1
        exact hback hnil
  · intro hnil
    unfold normalizedRing
    rw [hnil]
    rfl

/-- **Rings have one normal form exactly when they are drawings of one ring.** -/
theorem normalizedRing_eq_iff :
    normalizedRing vertices = normalizedRing vertices' ↔ SameRing vertices vertices' := by
  by_cases hnil : vertices = []
  · subst hnil
    have hempty : normalizedRing [] = [] := normalizedRing_eq_nil.mpr rfl
    rw [hempty, eq_comm, normalizedRing_eq_nil]
    constructor
    · rintro rfl
      exact Or.inl (List.IsRotated.refl _)
    · intro h
      exact h.eq_nil_iff.mp rfl
  · have hspec := normalizedRing_spec (mt normalizedRing_eq_nil.mp hnil)
    constructor
    · intro heq
      have hnil' : vertices' ≠ [] := by
        rintro rfl
        exact hnil (normalizedRing_eq_nil.mp (heq.trans (normalizedRing_eq_nil.mpr rfl)))
      have hspec' := normalizedRing_spec (mt normalizedRing_eq_nil.mp hnil')
      rw [← heq] at hspec'
      exact (sameRing_iff_mem hnil).mpr (mem_drawings_trans hspec.1 (mem_drawings_symm hspec'.1))
    · intro hsame
      have hnil' : vertices' ≠ [] := mt hsame.eq_nil_iff.mpr hnil
      have hspec' := normalizedRing_spec (mt normalizedRing_eq_nil.mp hnil')
      have hdrawn := (sameRing_iff_mem hnil).mp hsame
      refine le_antisymm ?_ ?_
      · exact hspec.2 _ (mem_drawings_trans hdrawn hspec'.1)
      · exact hspec'.2 _ (mem_drawings_trans (mem_drawings_symm hdrawn) hspec.1)

theorem openRing_of_nodup (hlength : 3 ≤ ring.length) (hnodup : ring.Nodup) :
    openRing ring = ring := by
  unfold openRing
  rw [if_neg]
  rintro ⟨-, hends⟩
  match ring, hlength, hnodup, hends with
  | v :: w :: rest, hlength, hnodup, hends =>
      rw [List.head?_cons, List.getLast?_cons_cons] at hends
      have hmem : v ∈ w :: rest := List.mem_of_getLast? hends.symm
      exact (List.nodup_cons.mp hnodup).1 hmem

theorem normalizedRing_sameRing (h : SimpleRing (openRing vertices)) :
    SameRing vertices (normalizedRing vertices) := by
  have hne : vertices ≠ [] := by
    rintro rfl
    have := h.length
    simp [openRing] at this
  have hmem := (normalizedRing_spec (mt normalizedRing_eq_nil.mp hne)).1
  have hsimple : SimpleRing (normalizedRing vertices) := by
    rcases (mem_drawings.mp hmem).2 with hrotated | hrotated
    · exact h.rotated hrotated
    · exact h.reversed.rotated hrotated
  rw [sameRing_iff_mem hne, openRing_of_nodup hsimple.length hsimple.nodup]
  exact hmem

end Evleda.Kernel
