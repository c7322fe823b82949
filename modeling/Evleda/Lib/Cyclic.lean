/-
Rings written down as lists.

A ring can be written down from any of its elements, either way round.  Among these drawings
the least one stands for the ring: two lists have one least drawing exactly when they draw
one ring.  A ring is also the collection of its edges, the pairs of elements that follow one
another, wherever it is written down from.
-/
import Evleda.Lib.Rearranged
import Mathlib.Data.List.Lex
import Mathlib.Data.List.Rotate
import Mathlib.Data.List.Zip
import Mathlib.Data.Sym.Sym2
import Mathlib.Order.Lattice

namespace Evleda

namespace Cyclic

variable {α : Type*} {ring ring' l : List α}

def rotations (ring : List α) : List (List α) :=
  (List.range ring.length).map fun index => ring.drop index ++ ring.take index

/-- The drawings of a ring: from any corner, either way round. -/
def drawings (ring : List α) : List (List α) := rotations ring ++ rotations ring.reverse

/-- One ring is the other, from another corner or the other way round. -/
def Same (ring ring' : List α) : Prop := ring ~r ring' ∨ ring.reverse ~r ring'

theorem mem_rotations : l ∈ rotations ring ↔ ring ≠ [] ∧ ring ~r l := by
  simp only [rotations, List.mem_map, List.mem_range]
  constructor
  · rintro ⟨index, hindex, rfl⟩
    refine ⟨List.ne_nil_of_length_pos (by omega), index, ?_⟩
    exact List.rotate_eq_drop_append_take hindex.le
  · rintro ⟨hne, n, rfl⟩
    refine ⟨n % ring.length, Nat.mod_lt _ (List.length_pos_iff.mpr hne), ?_⟩
    exact List.rotate_eq_drop_append_take_mod.symm

theorem mem_drawings : l ∈ drawings ring ↔ ring ≠ [] ∧ Same ring l := by
  unfold drawings Same
  rw [List.mem_append, mem_rotations, mem_rotations, Ne, Ne, List.reverse_eq_nil_iff, and_or_left]

/-! ### One ring -/

theorem Same.refl (ring : List α) : Same ring ring := Or.inl (List.IsRotated.refl ring)

theorem Same.symm (h : Same ring ring') : Same ring' ring := by
  rcases h with hrotated | hreversed
  · exact Or.inl hrotated.symm
  · exact Or.inr (List.isRotated_reverse_comm_iff.mp hreversed).symm

theorem Same.trans (h : Same ring ring') (h' : Same ring' l) : Same ring l := by
  rcases h with h | h <;> rcases h' with h' | h'
  · exact Or.inl (h.trans h')
  · exact Or.inr (h.reverse.trans h')
  · exact Or.inr (h.trans h')
  · have hback : ring ~r ring'.reverse := List.isRotated_reverse_comm_iff.mp h
    exact Or.inl (hback.trans h')

theorem Same.perm (h : Same ring ring') : ring.Perm ring' := by
  rcases h with hrotated | hreversed
  · exact hrotated.perm
  · exact (List.reverse_perm ring).symm.trans hreversed.perm

theorem Same.eq_nil_iff (h : Same ring ring') : ring = [] ↔ ring' = [] := by
  constructor
  · rintro rfl
    exact h.perm.nil_eq.symm
  · rintro rfl
    exact h.perm.eq_nil

theorem Same.length_eq (h : Same ring ring') : ring.length = ring'.length := h.perm.length_eq

/-! ### Repeated elements -/

/-- A ring in which an element is followed by itself. -/
def Repeats (ring : List α) : Prop := ∃ a rest, ring ~r a :: a :: rest

theorem Repeats.of_same (hsame : Same ring ring') (h : Repeats ring') : Repeats ring := by
  obtain ⟨a, rest, hrotated⟩ := h
  rcases hsame with hforward | hbackward
  · exact ⟨a, rest, hforward.trans hrotated⟩
  · refine ⟨a, rest.reverse, ?_⟩
    have hring : ring ~r (a :: a :: rest).reverse :=
      List.isRotated_reverse_comm_iff.mp (hbackward.trans hrotated)
    refine hring.trans ?_
    rw [List.reverse_cons, List.reverse_cons, List.append_assoc]
    exact ⟨rest.reverse.length, by rw [List.rotate_append_length_eq]; rfl⟩

theorem repeats_of_ends {a : α} (middle : List α) : Repeats (a :: middle ++ [a]) := by
  refine ⟨a, middle, List.IsRotated.symm ?_⟩
  exact ⟨1, by simp⟩

/-- Such a ring can be drawn so that the drawing begins and ends with one element. -/
theorem Repeats.exists_ends (h : Repeats ring) :
    ∃ a middle, ring ~r a :: middle ++ [a] := by
  obtain ⟨a, middle, hrotated⟩ := h
  refine ⟨a, middle, hrotated.trans ⟨1, by simp⟩⟩

/-! ### The edges of a ring -/

/-- The pairs of elements that follow one another, the closing pair last. -/
def edges (ring : List α) : List (α × α) := ring.zip (ring.rotate 1)

variable {a b c : α}

theorem edges_rotate (ring : List α) (n : ℕ) :
    edges (ring.rotate n) = (edges ring).rotate n := by
  unfold edges
  rw [List.rotate_rotate, Nat.add_comm, ← List.rotate_rotate]
  exact (List.zipWith_rotate_distrib Prod.mk ring (ring.rotate 1) n (by simp)).symm

theorem edges_perm (h : ring ~r ring') : (edges ring).Perm (edges ring') := by
  obtain ⟨n, rfl⟩ := h
  rw [edges_rotate]
  exact (List.rotate_perm _ n).symm

/-- A corner and the one after it are the ends of an edge, -/
theorem mem_edges {rest : List α} (h : ring ~r a :: b :: rest) :
    (a, b) ∈ edges ring := by
  rw [(edges_perm h).mem_iff]
  exact List.mem_cons_self

/-- and so are the ends of every edge. -/
theorem exists_rotated (hlength : 2 ≤ ring.length) (h : (a, b) ∈ edges ring) :
    ∃ rest, ring ~r a :: b :: rest := by
  unfold edges at h
  obtain ⟨i, hi, hedge⟩ := List.getElem_of_mem h
  rw [List.getElem_zip, Prod.mk.injEq] at hedge
  have hrotated : ring ~r ring.rotate i := ⟨i, rfl⟩
  have hlong : 2 ≤ (ring.rotate i).length := by rwa [List.length_rotate]
  match hring : ring.rotate i, hlong with
  | first :: second :: rest, _ =>
      have hfirst : first = a := by
        rw [← hedge.1]
        have hget : (ring.rotate i)[0] = first := by simp [hring]
        rw [← hget, List.getElem_rotate]
        congr 1
        rw [Nat.zero_add, Nat.mod_eq_of_lt]
        simp at hi
        omega
      have hsecond : second = b := by
        rw [← hedge.2]
        have hget : (ring.rotate i)[1] = second := by simp [hring]
        rw [← hget, List.getElem_rotate, List.getElem_rotate]
        congr 2
        omega
      subst hfirst
      subst hsecond
      exact ⟨rest, hring ▸ hrotated⟩

theorem mem_of_mem_edges (h : (a, b) ∈ edges ring) : a ∈ ring ∧ b ∈ ring := by
  obtain ⟨ha, hb⟩ := List.of_mem_zip h
  exact ⟨ha, List.mem_rotate.mp hb⟩

/-- What holds from each element to the next, and from the last to the first, holds of every
edge. -/
theorem forall_edges_of_chain {R : α → α → Prop} {rest : List α}
    (h : (a :: rest ++ [a]).IsChain R) : ∀ e ∈ edges (a :: rest), R e.1 e.2 := by
  have hpairs : edges (a :: rest) = (a :: rest).zip (rest ++ [a]) := by
    rw [edges, List.rotate_cons_succ, List.rotate_zero]
  rw [List.isChain_cons_append_singleton_iff_forall₂] at h
  rw [hpairs]
  rintro ⟨p, q⟩ he
  exact (List.forall₂_iff_zip.mp h).2 he

/-- Every corner has one after it and one before it. -/
theorem exists_around (hlength : 3 ≤ ring.length) (h : a ∈ ring) :
    ∃ b rest c, ring ~r a :: b :: (rest ++ [c]) := by
  obtain ⟨before, after, rfl⟩ := List.append_of_mem h
  have hturn : before ++ (a :: after) ~r (a :: after) ++ before := List.isRotated_append
  match hrest : after ++ before with
  | [] =>
      obtain ⟨rfl, rfl⟩ := List.append_eq_nil_iff.mp hrest
      simp at hlength
  | b :: tail =>
      have htail : tail ≠ [] := by
        rintro rfl
        have hone := congrArg List.length hrest
        simp only [List.length_append, List.length_cons, List.length_nil] at hone hlength
        omega
      refine ⟨b, tail.dropLast, tail.getLast htail, ?_⟩
      rw [List.dropLast_append_getLast, ← hrest, ← List.cons_append]
      exact hturn

/-- The drawings of a ring without repetitions differ in where they begin. -/
theorem rotated_cons_inj {rest rest' : List α} (hnodup : (a :: rest).Nodup)
    (h : a :: rest ~r a :: rest') : rest = rest' := by
  obtain ⟨n, hn⟩ := h
  rw [← List.rotate_mod] at hn
  have hlt : n % (a :: rest).length < (a :: rest).length := Nat.mod_lt _ (by simp)
  have hhead : (a :: rest)[n % (a :: rest).length]? = some a := by
    rw [← List.head?_rotate hlt, hn, List.head?_cons]
  have hplace : n % (a :: rest).length = 0 := by
    rw [List.getElem?_eq_getElem hlt, Option.some.injEq] at hhead
    have hfirst : (a :: rest)[n % (a :: rest).length] = (a :: rest)[0] := hhead
    exact (hnodup.getElem_inj_iff).mp hfirst
  rw [hplace, List.rotate_zero] at hn
  exact (List.cons.inj hn).2

/-! ### Edges without direction -/

/-- The collection of the edges, whichever way they point. -/
def undirected (pairs : List (α × α)) : Multiset (Sym2 α) := (pairs.map fun e => s(e.1, e.2))

theorem edges_cons (a : α) (rest : List α) : edges (a :: rest) = (a :: rest).zip (rest ++ [a]) := by
  rw [edges, List.rotate_cons_succ, List.rotate_zero]

theorem undirected_edges_reverse (ring : List α) :
    undirected (edges ring.reverse) = undirected (edges ring) := by
  cases ring with
  | nil => rfl
  | cons a rest =>
      have hturn : (a :: rest).reverse ~r a :: rest.reverse := by
        rw [List.reverse_cons]
        exact List.isRotated_append
      have hedges : edges (a :: rest.reverse) = ((edges (a :: rest)).map Prod.swap).reverse := by
        have hback : a :: rest.reverse = (rest ++ [a]).reverse := by simp
        have hfront : rest.reverse ++ [a] = (a :: rest).reverse := by simp
        rw [edges_cons, edges_cons, List.zip_swap, hback, hfront]
        exact (List.reverse_zipWith (by simp)).symm
      refine (Multiset.coe_eq_coe.mpr ((edges_perm hturn).map _)).trans ?_
      rw [hedges]
      refine Multiset.coe_eq_coe.mpr ?_
      rw [List.map_reverse, List.map_map]
      have hswap : (fun e : α × α => s(e.1, e.2)) ∘ Prod.swap = fun e => s(e.1, e.2) := by
        funext e
        exact Sym2.eq_swap
      rw [hswap]
      exact List.reverse_perm _

theorem Same.undirected_edges (h : Same ring ring') :
    undirected (edges ring) = undirected (edges ring') := by
  rcases h with h | h
  · exact Multiset.coe_eq_coe.mpr ((edges_perm h).map _)
  · rw [← undirected_edges_reverse ring]
    exact Multiset.coe_eq_coe.mpr ((edges_perm h).map _)

/-- A ring of three elements and more has no edge twice, neither way. -/
theorem nodup_undirected_edges (hlength : 3 ≤ ring.length) (hnodup : ring.Nodup) :
    (undirected (edges ring)).Nodup := by
  have hedges : (edges ring).Nodup := by
    refine List.Nodup.of_map Prod.fst ?_
    unfold edges
    rw [List.map_fst_zip (by simp)]
    exact hnodup
  refine Multiset.coe_nodup.mpr (List.Nodup.map_on ?_ hedges)
  rintro ⟨a, b⟩ hab ⟨c, d⟩ hcd hsame
  rcases Sym2.eq_iff.mp hsame with ⟨hac, hbd⟩ | ⟨had, hbc⟩
  · exact Prod.ext hac hbd
  · dsimp only at had hbc
    subst had hbc
    exfalso
    have hlong : 2 ≤ ring.length := by omega
    obtain ⟨rest, hforward⟩ := exists_rotated hlong hab
    obtain ⟨rest', hbackward⟩ := exists_rotated hlong hcd
    have hturn : [a] ++ (b :: rest) ~r (b :: rest) ++ [a] := List.isRotated_append
    have hfresh := (hforward.nodup_iff).mp hnodup
    have hrest : a :: rest' = rest ++ [a] :=
      rotated_cons_inj ((hbackward.nodup_iff).mp hnodup)
        (hbackward.symm.trans (hforward.trans hturn))
    cases rest with
    | nil =>
        have hcount := hforward.perm.length_eq
        simp at hcount
        omega
    | cons next rest =>
        rw [List.cons_append, List.cons.injEq] at hrest
        rw [← hrest.1] at hfresh
        simp at hfresh

section Neighbours

variable [DecidableEq α]

/-- The other ends of the edges with an end at `a`. -/
def neighbours (pairs : List (α × α)) (a : α) : List α :=
  pairs.flatMap fun e => (if e.1 = a then [e.2] else []) ++ if e.2 = a then [e.1] else []

/-- The direction and the order of the edges do not matter. -/
theorem neighbours_perm {pairs pairs' : List (α × α)} (h : undirected pairs = undirected pairs')
    (a : α) : (neighbours pairs a).Perm (neighbours pairs' a) := by
  refine (Rearranged.of_map_perm (Multiset.coe_eq_coe.mp h)).flatMap_perm ?_
  rintro ⟨x, y⟩ ⟨x', y'⟩ hsame
  rcases Sym2.eq_iff.mp hsame with ⟨hx, hy⟩ | ⟨hx, hy⟩
  · dsimp only at hx hy
    rw [hx, hy]
  · dsimp only at hx hy
    rw [hx, hy]
    exact List.perm_append_comm

theorem mem_neighbours {pairs : List (α × α)} :
    b ∈ neighbours pairs a ↔ s(a, b) ∈ undirected pairs := by
  simp only [neighbours, undirected, List.mem_flatMap, Multiset.mem_coe, List.mem_map, Sym2.eq_iff]
  constructor
  · rintro ⟨⟨x, y⟩, hmem, hb⟩
    refine ⟨(x, y), hmem, ?_⟩
    rcases List.mem_append.mp hb with hb | hb
    · split at hb
      · rename_i hx
        exact Or.inl ⟨hx, (List.mem_singleton.mp hb).symm⟩
      · cases hb
    · split at hb
      · rename_i hy
        exact Or.inr ⟨(List.mem_singleton.mp hb).symm, hy⟩
      · cases hb
  · rintro ⟨⟨x, y⟩, hmem, ⟨hx, hy⟩ | ⟨hx, hy⟩⟩
    · refine ⟨(x, y), hmem, List.mem_append_left _ ?_⟩
      rw [if_pos hx]
      exact List.mem_singleton.mpr hy.symm
    · refine ⟨(x, y), hmem, List.mem_append_right _ ?_⟩
      rw [if_pos hy]
      exact List.mem_singleton.mpr hx.symm

/-- In a ring without repetitions an element has the one after it and the one before it. -/
theorem neighbours_edges {rest : List α} (hnodup : ring.Nodup)
    (h : ring ~r a :: b :: (rest ++ [c])) : (neighbours (edges ring) a).Perm [b, c] := by
  have hsame : undirected (edges ring) = undirected (edges (a :: b :: (rest ++ [c]))) :=
    Multiset.coe_eq_coe.mpr ((edges_perm h).map _)
  refine (neighbours_perm hsame a).trans ?_
  have hfresh := (h.nodup_iff).mp hnodup
  rw [List.nodup_cons] at hfresh
  have hsplit : edges (a :: b :: (rest ++ [c])) =
      (a, b) :: ((b :: rest).zip (rest ++ [c]) ++ [(c, a)]) := by
    rw [edges_cons, List.cons_append, List.zip_cons_cons]
    congr 1
    have hcut : b :: (rest ++ [c]) = (b :: rest) ++ [c] := rfl
    rw [hcut, List.zip_append (by simp)]
    rfl
  -- the edges between do not touch the element
  have hbetween : neighbours ((b :: rest).zip (rest ++ [c])) a = [] := by
    rw [neighbours, List.flatMap_eq_nil_iff]
    rintro ⟨x, y⟩ hxy
    obtain ⟨hx, hy⟩ := List.of_mem_zip hxy
    have hxa : x ≠ a := by
      rintro rfl
      exact hfresh.1 (by simp only [List.mem_cons, List.mem_append] at hx ⊢; tauto)
    have hya : y ≠ a := by
      rintro rfl
      exact hfresh.1 (List.mem_cons_of_mem _ hy)
    rw [if_neg hxa, if_neg hya]
    rfl
  have hba : b ≠ a := by
    rintro rfl
    exact hfresh.1 List.mem_cons_self
  have hca : c ≠ a := by
    rintro rfl
    exact hfresh.1 (by simp)
  rw [hsplit]
  unfold neighbours at hbetween ⊢
  rw [List.flatMap_cons, List.flatMap_append, hbetween]
  simp [hba, hca]

end Neighbours

/-! ### The least drawing -/

variable [LinearOrder α]

def least (ring : List α) : List α := (drawings ring).min?.getD []

theorem least_spec (h : ring ≠ []) :
    Same ring (least ring) ∧ ∀ l, Same ring l → least ring ≤ l := by
  have hself : ring ∈ drawings ring := mem_drawings.mpr ⟨h, Same.refl ring⟩
  obtain ⟨first, hfirst⟩ : ∃ first, (drawings ring).min? = some first := by
    rw [← Option.isSome_iff_exists, List.isSome_min?_iff]
    exact List.ne_nil_of_mem hself
  have hleast : least ring = first := by
    unfold least
    rw [hfirst, Option.getD_some]
  obtain ⟨hmem, hle⟩ := List.min?_eq_some_iff.mp hfirst
  rw [hleast]
  exact ⟨(mem_drawings.mp hmem).2, fun l hl => hle l (mem_drawings.mpr ⟨h, hl⟩)⟩

/-- From its least element, a ring without repetitions has two drawings. -/
theorem least_eq_min {a : α} {rest : List α} (hnodup : ring.Nodup) (h : ring ~r a :: rest)
    (hleast : ∀ b ∈ ring, a ≤ b) : least ring = min (a :: rest) (a :: rest.reverse) := by
  have hne : ring ≠ [] := by
    rintro rfl
    exact List.cons_ne_nil a rest (h.perm.nil_eq.symm)
  obtain ⟨hdrawn, hle⟩ := least_spec hne
  have hturn : (a :: rest).reverse ~r a :: rest.reverse := by
    rw [List.reverse_cons]
    exact List.isRotated_append
  have hback : ring.reverse ~r a :: rest.reverse := h.reverse.trans hturn
  have hforward : Same ring (a :: rest) := Or.inl h
  have hbackward : Same ring (a :: rest.reverse) := Or.inr hback
  refine le_antisymm (le_min (hle _ hforward) (hle _ hbackward)) ?_
  -- a drawing that begins elsewhere begins with a greater element
  cases hleastRing : least ring with
  | nil =>
      rw [hleastRing] at hdrawn
      exact absurd (hdrawn.eq_nil_iff.mpr rfl) hne
  | cons b l =>
      rw [hleastRing] at hdrawn
      have hb : a ≤ b := hleast b (hdrawn.perm.mem_iff.mpr List.mem_cons_self)
      rcases hb.lt_or_eq with hlt | rfl
      · exact min_le_of_left_le (le_of_lt (List.cons_lt_cons_iff.mpr (Or.inl hlt)))
      · rcases hdrawn with hrotated | hreversed
        · have hrest : rest = l :=
            rotated_cons_inj ((h.nodup_iff).mp hnodup) (h.symm.trans hrotated)
          rw [hrest]
          exact min_le_left _ _
        · have hrest : rest.reverse = l := rotated_cons_inj
            ((hback.nodup_iff).mp (List.nodup_reverse.mpr hnodup)) (hback.symm.trans hreversed)
          rw [hrest]
          exact min_le_right _ _

@[simp] theorem least_nil : least ([] : List α) = [] := rfl

/-- **Lists have one least drawing exactly when they draw one ring.** -/
theorem least_eq_iff : least ring = least ring' ↔ Same ring ring' := by
  by_cases hring : ring = []
  · subst hring
    constructor
    · intro h
      by_contra hsame
      have hne : ring' ≠ [] := by
        rintro rfl
        exact hsame (Same.refl _)
      have hspec := (least_spec hne).1
      rw [← h, least_nil] at hspec
      exact hne (hspec.eq_nil_iff.mpr rfl)
    · intro h
      rw [h.eq_nil_iff.mp rfl]
  · have hspec := least_spec hring
    constructor
    · intro h
      have hne : ring' ≠ [] := by
        rintro rfl
        rw [h, least_nil] at hspec
        exact hring (hspec.1.eq_nil_iff.mpr rfl)
      exact hspec.1.trans (h ▸ (least_spec hne).1.symm)
    · intro h
      have hspec' := least_spec (mt h.eq_nil_iff.mpr hring)
      refine le_antisymm ?_ ?_
      · exact hspec.2 _ (h.trans hspec'.1)
      · exact hspec'.2 _ (h.symm.trans hspec.1)

end Cyclic

end Evleda
