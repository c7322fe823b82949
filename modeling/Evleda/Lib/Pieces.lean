/-
A segment cut at points of it.

The points are told apart by how far along the segment they are, and that is what
their products with its direction say.  Sorted by the products they are in order
along the segment, whichever way it points, and the pieces between one point and
the next are what the segment consists of.
-/
import Evleda.Lib.Plane
import Mathlib.Data.List.Chain
import Mathlib.Data.List.Pairwise

namespace Evleda

/-! ### From one item to the next -/

/-- `zip(items, items[1:])` -/
def pieces {α : Type*} (items : List α) : List (α × α) := items.zip items.tail

section Pieces

variable {α β : Type*} {items : List α} {piece : α × α}

theorem pieces_cons (first second : α) (rest : List α) :
    pieces (first :: second :: rest) = (first, second) :: pieces (second :: rest) := rfl

theorem pieces_map (f : α → β) (items : List α) :
    pieces (items.map f) = (pieces items).map (Prod.map f f) := by
  unfold pieces
  rw [← List.map_tail, List.zip_map]

theorem mem_of_mem_pieces (h : piece ∈ pieces items) : piece.1 ∈ items ∧ piece.2 ∈ items := by
  obtain ⟨hfirst, hsecond⟩ := List.of_mem_zip h
  exact ⟨hfirst, List.mem_of_mem_tail hsecond⟩

theorem pieces_joined (items : List α) :
    (pieces items).IsChain fun piece next => piece.2 = next.1 := by
  induction items with
  | nil => exact .nil
  | cons first rest ih =>
      cases rest with
      | nil => exact .nil
      | cons second rest =>
          rw [pieces_cons, List.isChain_cons]
          refine ⟨?_, ih⟩
          intro next hnext
          cases rest with
          | nil => cases hnext
          | cons third rest =>
              rw [pieces_cons, List.head?_cons, Option.mem_some_iff] at hnext
              rw [← hnext]

theorem head_of_pieces (h : (pieces items).head? = some piece) : items.head? = some piece.1 := by
  cases items with
  | nil => cases h
  | cons first rest =>
      cases rest with
      | nil => cases h
      | cons second rest =>
          cases h
          rfl

theorem last_of_pieces (h : (pieces items).getLast? = some piece) :
    items.getLast? = some piece.2 := by
  induction items with
  | nil => cases h
  | cons first rest ih =>
      cases rest with
      | nil => cases h
      | cons second rest =>
          rw [List.getLast?_cons_cons]
          cases rest with
          | nil =>
              cases h
              rfl
          | cons third rest => exact ih h

theorem exists_end (hlength : 2 ≤ items.length) {a : α} (ha : a ∈ items) :
    ∃ piece ∈ pieces items, a = piece.1 ∨ a = piece.2 := by
  induction items with
  | nil => cases ha
  | cons first rest ih =>
      cases rest with
      | nil => simp at hlength
      | cons second rest =>
          rw [pieces_cons]
          rcases List.mem_cons.mp ha with rfl | hrest
          · exact ⟨_, List.mem_cons_self, Or.inl rfl⟩
          cases rest with
          | nil =>
              rw [List.mem_singleton] at hrest
              exact ⟨_, List.mem_cons_self, Or.inr hrest⟩
          | cons third rest =>
              obtain ⟨piece, hpiece, hend⟩ := ih (by simp) hrest
              exact ⟨piece, List.mem_cons_of_mem _ hpiece, hend⟩

end Pieces

/-! ### Increasing marks -/

section Marks

variable {K : Type*} [LinearOrder K] {marks : List K} {t : K}

theorem pieces_lt (h : marks.Pairwise (· < ·)) : ∀ piece ∈ pieces marks, piece.1 < piece.2 := by
  induction marks with
  | nil => exact fun piece hpiece => absurd hpiece List.not_mem_nil
  | cons first rest ih =>
      cases rest with
      | nil => exact fun piece hpiece => absurd hpiece List.not_mem_nil
      | cons second rest =>
          obtain ⟨hfirst, hrest⟩ := List.pairwise_cons.mp h
          intro piece hpiece
          rw [pieces_cons, List.mem_cons] at hpiece
          rcases hpiece with rfl | hpiece
          · exact hfirst second List.mem_cons_self
          · exact ih hrest piece hpiece

theorem pieces_apart (h : marks.Pairwise (· < ·)) :
    (pieces marks).Pairwise fun piece later => piece.2 ≤ later.1 := by
  induction marks with
  | nil => exact .nil
  | cons first rest ih =>
      cases rest with
      | nil => exact .nil
      | cons second rest =>
          have hrest := (List.pairwise_cons.mp h).2
          rw [pieces_cons, List.pairwise_cons]
          refine ⟨?_, ih hrest⟩
          intro later hlater
          rcases List.mem_cons.mp (mem_of_mem_pieces hlater).1 with hsame | hafter
          · exact hsame.ge
          · exact ((List.pairwise_cons.mp hrest).1 _ hafter).le

theorem exists_piece {low high : K} (hsorted : marks.Pairwise (· < ·)) (hlow : low ∈ marks)
    (hhigh : high ∈ marks) (hne : low < high) (hle : low ≤ t) (hge : t ≤ high) :
    ∃ piece ∈ pieces marks, piece.1 ≤ t ∧ t ≤ piece.2 := by
  induction marks generalizing low with
  | nil => cases hlow
  | cons first rest ih =>
      obtain ⟨hfirst, hrest⟩ := List.pairwise_cons.mp hsorted
      have hlast : high ∈ rest := by
        rcases List.mem_cons.mp hhigh with rfl | hmem
        · rcases List.mem_cons.mp hlow with rfl | hmem
          · exact absurd hne (lt_irrefl _)
          · exact absurd (hfirst low hmem) hne.not_gt
        · exact hmem
      cases rest with
      | nil => cases hlast
      | cons second rest =>
          rw [pieces_cons]
          rcases le_or_gt t second with hsecond | hsecond
          · have hbegin : first ≤ t := by
              rcases List.mem_cons.mp hlow with rfl | hmem
              · exact hle
              · exact (hfirst low hmem).le.trans hle
            exact ⟨_, List.mem_cons_self, hbegin, hsecond⟩
          · obtain ⟨piece, hpiece, hin⟩ := ih hrest List.mem_cons_self hlast
              (hsecond.trans_le hge) hsecond.le
            exact ⟨piece, List.mem_cons_of_mem _ hpiece, hin⟩

theorem head_of_least (hsorted : marks.Pairwise (· < ·)) {low : K} (hlow : low ∈ marks)
    (hleast : ∀ mark ∈ marks, low ≤ mark) : marks.head? = some low := by
  cases marks with
  | nil => cases hlow
  | cons first rest =>
      rcases List.mem_cons.mp hlow with rfl | hmem
      · rfl
      · exact absurd ((List.pairwise_cons.mp hsorted).1 low hmem)
          (hleast first List.mem_cons_self).not_gt

theorem last_of_greatest (hsorted : marks.Pairwise (· < ·)) {high : K} (hhigh : high ∈ marks)
    (hgreatest : ∀ mark ∈ marks, mark ≤ high) : marks.getLast? = some high := by
  induction marks with
  | nil => cases hhigh
  | cons first rest ih =>
      obtain ⟨hfirst, hrest⟩ := List.pairwise_cons.mp hsorted
      cases rest with
      | nil =>
          rw [List.mem_singleton] at hhigh
          rw [hhigh]
          rfl
      | cons second rest =>
          rw [List.getLast?_cons_cons]
          refine ih hrest ?_ fun mark hmark => hgreatest mark (List.mem_cons_of_mem _ hmark)
          rcases List.mem_cons.mp hhigh with rfl | hmem
          · exact absurd (hfirst second List.mem_cons_self)
              (hgreatest second (List.mem_cons_of_mem _ List.mem_cons_self)).not_gt
          · exact hmem

end Marks

namespace Plane

/-! ### Parts of a segment -/

section Segments

variable {K : Type*} [Field K] [LinearOrder K] [IsStrictOrderedRing K] {a b p q : Point K}

/-- The parts of the segment from `a` to `b`, one after the other from end to end. -/
structure Divides (a b : Point K) (parts : List (Point K × Point K)) : Prop where
  nonempty : parts ≠ []
  begins : ∀ part ∈ parts.head?, part.1 = a
  ends : ∀ part ∈ parts.getLast?, part.2 = b
  proper : ∀ part ∈ parts, part.1 ≠ part.2
  /-- Where a part ends the next one begins. -/
  joined : parts.IsChain fun part next => part.2 = next.1
  /-- The ends come in order along the segment. -/
  onward : ∃ marks : List K, marks.Pairwise (· < ·) ∧
    parts = (pieces marks).map (Prod.map (along a b) (along a b))
  /-- Together the parts have the points of the segment. -/
  covers : ∀ p, p ∈ segment a b ↔ ∃ part ∈ parts, p ∈ segment part.1 part.2
  /-- Two parts share at most the point where the one ends and the other begins. -/
  apart : parts.Pairwise fun part later =>
    ∀ p ∈ segment part.1 part.2 ∩ segment later.1 later.2, p = part.2 ∧ p = later.1

/-- A part of a segment has what lies between its ends. -/
theorem mem_segment_along {s t : K} (hst : s < t) :
    p ∈ segment (along a b s) (along a b t) ↔ ∃ u, s ≤ u ∧ u ≤ t ∧ p = along a b u := by
  have hpos : 0 < t - s := sub_pos.mpr hst
  have hmove : ∀ v, along (along a b s) (along a b t) v = along a b (s + v * (t - s)) := by
    intro v
    ext <;> simp <;> ring
  constructor
  · rintro ⟨v, h0, h1, rfl⟩
    exact ⟨s + v * (t - s), by nlinarith, by nlinarith, hmove v⟩
  · rintro ⟨u, hs, ht, rfl⟩
    refine ⟨(u - s) / (t - s), div_nonneg (sub_nonneg.mpr hs) hpos.le,
      (div_le_one hpos).mpr (sub_le_sub_right ht s), ?_⟩
    rw [hmove, div_mul_cancel₀ _ hpos.ne', add_sub_cancel]

/-- **Increasing marks from end to end divide a segment.** -/
theorem divides_of_marks (hab : a ≠ b) {marks : List K} (hsorted : marks.Pairwise (· < ·))
    (hzero : 0 ∈ marks) (hone : 1 ∈ marks) (hunit : ∀ mark ∈ marks, 0 ≤ mark ∧ mark ≤ 1) :
    Divides a b ((pieces marks).map (Prod.map (along a b) (along a b))) where
  nonempty := by
    obtain ⟨piece, hpiece, -⟩ := exists_piece hsorted hzero hone zero_lt_one le_rfl zero_le_one
    exact List.ne_nil_of_mem (List.mem_map_of_mem hpiece)
  begins part hpart := by
    rw [List.head?_map, Option.mem_map] at hpart
    obtain ⟨piece, hpiece, rfl⟩ := hpart
    have hhead := head_of_pieces hpiece
    rw [head_of_least hsorted hzero fun mark hmark => (hunit mark hmark).1, Option.some_inj]
      at hhead
    rw [Prod.map_fst, ← hhead, along_zero]
  ends part hpart := by
    rw [List.getLast?_map, Option.mem_map] at hpart
    obtain ⟨piece, hpiece, rfl⟩ := hpart
    have hlast := last_of_pieces hpiece
    rw [last_of_greatest hsorted hone fun mark hmark => (hunit mark hmark).2, Option.some_inj]
      at hlast
    rw [Prod.map_snd, ← hlast, along_one]
  proper part hpart := by
    obtain ⟨piece, hpiece, rfl⟩ := List.mem_map.mp hpart
    intro hsame
    exact (pieces_lt hsorted piece hpiece).ne (along_inj hab hsame)
  joined := by
    rw [List.isChain_map]
    exact (pieces_joined marks).imp fun _ _ hjoined => congrArg (along a b) hjoined
  onward := ⟨marks, hsorted, rfl⟩
  covers p := by
    constructor
    · rintro ⟨t, h0, h1, rfl⟩
      obtain ⟨piece, hpiece, hle, hge⟩ :=
        exists_piece hsorted hzero hone zero_lt_one h0 h1
      refine ⟨_, List.mem_map_of_mem hpiece, ?_⟩
      exact (mem_segment_along (pieces_lt hsorted piece hpiece)).mpr ⟨t, hle, hge, rfl⟩
    · rintro ⟨part, hpart, hp⟩
      obtain ⟨piece, hpiece, rfl⟩ := List.mem_map.mp hpart
      obtain ⟨u, hle, hge, rfl⟩ := (mem_segment_along (pieces_lt hsorted piece hpiece)).mp hp
      obtain ⟨hfirst, hsecond⟩ := mem_of_mem_pieces hpiece
      exact ⟨u, (hunit _ hfirst).1.trans hle, hge.trans (hunit _ hsecond).2, rfl⟩
  apart := by
    rw [List.pairwise_map]
    refine (pieces_apart hsorted).imp_of_mem ?_
    rintro piece later hpiece hlater happart p ⟨hp, hp'⟩
    obtain ⟨u, -, hu, rfl⟩ := (mem_segment_along (pieces_lt hsorted piece hpiece)).mp hp
    obtain ⟨v, hv, -, hsame⟩ := (mem_segment_along (pieces_lt hsorted later hlater)).mp hp'
    obtain rfl := along_inj hab hsame
    have hend : u = piece.2 := le_antisymm hu (happart.trans hv)
    have hbegin : u = later.1 := le_antisymm (hu.trans happart) hv
    exact ⟨congrArg (along a b) hend, congrArg (along a b) hbegin⟩

/-! ### Points sorted along a segment -/

/-- The product of the way to a point with the direction of the segment. -/
def reach (a b p : Point K) : K := (p.x - a.x) * (b.x - a.x) + (p.y - a.y) * (b.y - a.y)

omit [LinearOrder K] [IsStrictOrderedRing K] in
theorem reach_along (a b : Point K) (t : K) : reach a b (along a b t) = t * sqDist a b := by
  unfold reach sqDist
  simp only [along_x, along_y]
  ring

theorem sqDist_pos (hab : a ≠ b) : 0 < sqDist a b :=
  lt_of_le_of_ne (sqDist_nonneg a b) fun h => hab (sqDist_eq_zero.mp h.symm)

theorem along_reach (hab : a ≠ b) (hp : p ∈ segment a b) :
    along a b (reach a b p / sqDist a b) = p := by
  obtain ⟨t, -, -, rfl⟩ := hp
  rw [reach_along, mul_div_cancel_right₀ _ (sqDist_pos hab).ne']

theorem reach_unit (hab : a ≠ b) (hp : p ∈ segment a b) :
    0 ≤ reach a b p / sqDist a b ∧ reach a b p / sqDist a b ≤ 1 := by
  obtain ⟨t, h0, h1, rfl⟩ := hp
  rw [reach_along, mul_div_cancel_right₀ _ (sqDist_pos hab).ne']
  exact ⟨h0, h1⟩

theorem eq_of_reach_eq (hab : a ≠ b) (hp : p ∈ segment a b) (hq : q ∈ segment a b)
    (h : reach a b p = reach a b q) : p = q := by
  rw [← along_reach hab hp, ← along_reach hab hq, h]

/-- **Points sorted by how far they reach divide the segment.** -/
theorem divides_of_sorted (hab : a ≠ b) {points : List (Point K)}
    (hon : ∀ p ∈ points, p ∈ segment a b) (ha : a ∈ points) (hb : b ∈ points)
    (hnodup : points.Nodup) (hsorted : points.Pairwise fun p q => reach a b p ≤ reach a b q) :
    Divides a b (pieces points) := by
  let marks := points.map fun p => reach a b p / sqDist a b
  have hpoints : marks.map (along a b) = points := by
    rw [List.map_map]
    refine (List.map_congr_left fun p hp => ?_).trans (List.map_id points)
    exact along_reach hab (hon p hp)
  have hmarks : marks.Pairwise (· < ·) := by
    rw [List.pairwise_map]
    refine (hsorted.and hnodup).imp_of_mem ?_
    rintro p q hp hq ⟨hle, hne⟩
    refine div_lt_div_of_pos_right (lt_of_le_of_ne hle ?_) (sqDist_pos hab)
    exact fun hsame => hne (eq_of_reach_eq hab (hon p hp) (hon q hq) hsame)
  have hzero : (0 : K) ∈ marks := by
    refine List.mem_map.mpr ⟨a, ha, ?_⟩
    unfold reach
    simp
  have hone : (1 : K) ∈ marks := by
    refine List.mem_map.mpr ⟨b, hb, ?_⟩
    have hreach := reach_along a b 1
    rw [along_one, one_mul] at hreach
    rw [hreach, div_self (sqDist_pos hab).ne']
  have hdivides := divides_of_marks hab hmarks hzero hone
    (List.forall_mem_map.mpr fun p hp => reach_unit hab (hon p hp))
  rw [← pieces_map, hpoints] at hdivides
  exact hdivides

end Segments

end Plane

end Evleda
