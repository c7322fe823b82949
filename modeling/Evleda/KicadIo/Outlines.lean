/-
The outline of a board, walked from its edges.

A board file lists the edges of its outline in any order and in any direction.  The walk
starts at the least corner, follows the edges both ways round and returns the lesser of the
two drawings.  It finds a ring exactly when the edges, without their directions, are the
edges of one simple polygon; where they are, what it returns is the least drawing of that
polygon, which is the normal form the kernel gives it.
-/
import Evleda.KicadIo.Sexpr
import Evleda.Kernel.SimplePolygons
import Mathlib.Data.List.Permutation

namespace Evleda.KicadIo

open Outcome

open Plane (SimplePolygon)

/-- The points of a board repeat those of the kernel: two signed 64-bit integers, ordered by `x`,
then by `y`. -/
abbrev PointNm := Kernel.PointNm

/-- `OutlineEdge`, with what the walk reads of it. -/
structure OutlineEdge where
  start : PointNm
  finish : PointNm
  nonzero : start ≠ finish
  deriving DecidableEq

/-! ### The polygon check -/

/-- On which side of the line through two points a third one is. -/
def orientation (a b c : PointNm) : Int :=
  ((b.x - a.x) * (c.y - a.y) - (b.y - a.y) * (c.x - a.x)).sign

def pointOnSegment (point start finish : PointNm) : Bool :=
  orientation start finish point = 0 ∧
    (min start.x finish.x ≤ point.x ∧ point.x ≤ max start.x finish.x) ∧
    (min start.y finish.y ≤ point.y ∧ point.y ≤ max start.y finish.y)

def segmentsIntersect (a b c d : PointNm) : Bool :=
  let first := orientation a b c
  let second := orientation a b d
  let third := orientation c d a
  let fourth := orientation c d b
  if first * second < 0 ∧ third * fourth < 0 then true
  else (first = 0 ∧ pointOnSegment c a b) ∨ (second = 0 ∧ pointOnSegment d a b) ∨
    (third = 0 ∧ pointOnSegment a c d) ∨ (fourth = 0 ∧ pointOnSegment b c d)

/-- `zip(points, points[1:] + points[:1])` -/
def ringSegments (points : List PointNm) : List (PointNm × PointNm) :=
  points.zip (points.tail ++ points.take 1)

/-- The later of two segments is the earlier one, the one after it or the one before it. -/
def adjacent (count first second : Nat) : Prop :=
  (second = first ∨ second = (first + 1) % count) ∨ first = (second + 1) % count

instance (count first second : Nat) : Decidable (adjacent count first second) :=
  inferInstanceAs (Decidable (_ ∨ _))

def validateSimplePolygon (points : List PointNm) (label : String) : Except Failure Unit := do
  require (¬ (points.length < 3 ∨ ¬ points.Nodup))
    (.invariantError (label ++ " requires at least three unique vertices"))
  let twiceArea :=
    ((ringSegments points).map fun edge => edge.1.x * edge.2.y - edge.2.x * edge.1.y).sum
  require (twiceArea ≠ 0) (.invariantError (label ++ " must enclose non-zero area"))
  let segments := ringSegments points
  segments.zipIdx.forM fun ((a, b), first) =>
    (segments.zipIdx.drop (first + 1)).forM fun ((c, d), second) =>
      requireWhen (¬ adjacent segments.length first second) do
        require (segmentsIntersect a b c d = false)
          (.invariantError (label ++ " must not self-intersect"))

/-! ### The walk -/

/-- The other ends of the edges at a point, in the order of the edges. -/
def adjacency (edges : List OutlineEdge) (point : PointNm) : List PointNm :=
  edges.flatMap fun edge =>
    (if edge.start = point then [edge.finish] else []) ++
      if edge.finish = point then [edge.start] else []

/-- The points that edges begin or end at. -/
def endpoints (edges : List OutlineEdge) : List PointNm :=
  edges.flatMap fun edge => [edge.start, edge.finish]

/-- The loop of the walk, with the corners found so far. -/
def walkOn (edges : List OutlineEdge) (start : PointNm) (result : List PointNm)
    (previous current : PointNm) : Except Failure (List PointNm) :=
  if current = start then
    if result.length = edges.length then .ok result
    else .error (.invariantError "Edge.Cuts contains more than one closed ring")
  else if current ∈ result ∨ edges.length < result.length then
    .error (.invariantError "Edge.Cuts contains a disconnected or repeated cycle")
  else
    match (adjacency edges current).filter (· ≠ previous) with
    | [next] => walkOn edges start (result ++ [current]) current next
    | _ => .error (.invariantError "Edge.Cuts traversal is ambiguous")
termination_by edges.length + 1 - result.length
decreasing_by
  rw [List.length_append, List.length_singleton]
  omega

def walk (edges : List OutlineEdge) (start firstNext : PointNm) : Except Failure (List PointNm) :=
  walkOn edges start [start] start firstNext

/-- Return the one normalized closed ring, or fail closed. -/
def orderedOutlineVertices (edges : List OutlineEdge) : Except Failure (List PointNm) :=
  match (endpoints edges).min? with
  | none => .error (.invariantError "board requires a closed Edge.Cuts outline")
  | some start => do
      require (∀ point ∈ endpoints edges, (adjacency edges point).length = 2)
        (.invariantError "Edge.Cuts must form one unbranched closed ring")
      let candidates ← (sortBy id (adjacency edges start)).mapM (walk edges start)
      let result := candidates.min?.getD []
      validateSimplePolygon result "Edge.Cuts outline"
      return result

/-! ### What the polygon check accepts -/

section Check

variable {a b c d p : PointNm}

theorem orientation_eq_zero : orientation a b c = 0 ↔ Kernel.cross a b c = 0 :=
  Int.sign_eq_zero_iff_zero

theorem pointOnSegment_eq : pointOnSegment p a b = Kernel.pointOnSegment p a b := by
  unfold pointOnSegment Kernel.pointOnSegment
  simp only [orientation_eq_zero]

/-- The product of two orientations is negative when they are on different sides. -/
theorem orientation_mul_neg : orientation a b c * orientation a b d < 0 ↔
    Kernel.Opposite (Kernel.cross a b c) (Kernel.cross a b d) := by
  show (Kernel.cross a b c).sign * (Kernel.cross a b d).sign < 0 ↔ _
  rw [← Int.sign_mul, Int.sign_neg_iff, mul_neg_iff]
  unfold Kernel.Opposite
  tauto

/-- The board asks what the kernel asks. -/
theorem segmentsIntersect_eq : segmentsIntersect a b c d = Kernel.segmentsIntersect a b c d := by
  have hzero : ∀ {p a b : PointNm}, (Kernel.cross a b p = 0 ∧ Kernel.pointOnSegment p a b = true) ↔
      Kernel.pointOnSegment p a b = true := by
    intro p a b
    rw [and_iff_right_iff_imp, Kernel.pointOnSegment_iff]
    exact And.left
  rw [Bool.eq_iff_iff, Kernel.segmentsIntersect_iff]
  unfold segmentsIntersect
  simp only [orientation_eq_zero, pointOnSegment_eq, hzero]
  split
  · rename_i hcross
    rw [orientation_mul_neg, orientation_mul_neg] at hcross
    tauto
  · rename_i hcross
    rw [orientation_mul_neg, orientation_mul_neg] at hcross
    rw [decide_eq_true_iff]
    tauto

/-- Of two segments, the later one is skipped exactly when they are neighbours for the kernel. -/
theorem adjacent_iff {count i j : Nat} (hij : i < j) (hj : j < count) :
    adjacent count i j ↔ Kernel.neighbours count i j := by
  unfold adjacent Kernel.neighbours
  rw [Nat.mod_eq_of_lt (show i + 1 < count by omega)]
  by_cases hlast : j + 1 = count
  · rw [hlast, Nat.mod_self]
    omega
  · rw [Nat.mod_eq_of_lt (show j + 1 < count by omega)]
    omega

/-- **The board accepts the rings of distinct corners that the kernel accepts.** -/
theorem validateSimplePolygon_iff {points : List PointNm} {label : String} :
    validateSimplePolygon points label = .ok () ↔ Kernel.SimpleRing points := by
  have hsegments : ringSegments points = Kernel.ringEdges points := rfl
  unfold validateSimplePolygon
  simp only [bind_ok, exists_unit, require_ok, requireWhen_ok,
    forM_ok, hsegments, segmentsIntersect_eq, Kernel.length_ringEdges]
  have hlater := @Kernel.forall_later _ (Kernel.ringEdges points) fun e i f j =>
    ¬ adjacent points.length i j → Kernel.segmentsIntersect e.1 e.2 f.1 f.2 = false
  have hskip : (∀ i j (hi : i < (Kernel.ringEdges points).length)
      (hj : j < (Kernel.ringEdges points).length), i < j → ¬ adjacent points.length i j →
        Kernel.segmentsIntersect (Kernel.ringEdges points)[i].1 (Kernel.ringEdges points)[i].2
          (Kernel.ringEdges points)[j].1 (Kernel.ringEdges points)[j].2 = false) ↔
      ∀ i j (hi : i < (Kernel.ringEdges points).length)
        (hj : j < (Kernel.ringEdges points).length), i < j →
        ¬ Kernel.neighbours points.length i j →
        Kernel.segmentsIntersect (Kernel.ringEdges points)[i].1 (Kernel.ringEdges points)[i].2
          (Kernel.ringEdges points)[j].1 (Kernel.ringEdges points)[j].2 = false := by
    refine forall_congr' fun i => forall_congr' fun j => forall_congr' fun hi =>
      forall_congr' fun hj => forall_congr' fun hij => ?_
    rw [adjacent_iff hij (by rwa [Kernel.length_ringEdges] at hj)]
  constructor
  · rintro ⟨hunique, harea, hpairs⟩
    have hlength : 3 ≤ points.length := by
      by_contra hshort
      exact hunique (Or.inl (by omega))
    have hnodup : points.Nodup := by
      by_contra hrepeated
      exact hunique (Or.inr hrepeated)
    exact ⟨hlength, hnodup, harea,
      (Kernel.ring_clear_iff hlength hnodup).mp (hskip.mp (hlater.mp hpairs))⟩
  · rintro ⟨hlength, hnodup, harea, hclear⟩
    refine ⟨?_, harea, hlater.mpr (hskip.mpr ((Kernel.ring_clear_iff hlength hnodup).mpr hclear))⟩
    rintro (hshort | hrepeated)
    · omega
    · exact hrepeated hnodup

end Check

/-! ### Edges without direction -/

def OutlineEdge.ends (edge : OutlineEdge) : PointNm × PointNm := (edge.start, edge.finish)

/-- The edges as the pairs of their ends, whichever way they are given and in whatever order. -/
def segmentsOf (edges : List OutlineEdge) : Multiset (Sym2 PointNm) :=
  Cyclic.undirected (edges.map OutlineEdge.ends)

def DrawnBy (edges : List OutlineEdge) (ring : List PointNm) : Prop :=
  segmentsOf edges = Cyclic.undirected (Cyclic.edges ring)

variable {edges : List OutlineEdge} {ring result : List PointNm}
  {start previous current p q : PointNm}

theorem adjacency_eq (edges : List OutlineEdge) (point : PointNm) :
    adjacency edges point = Cyclic.neighbours (edges.map OutlineEdge.ends) point := by
  unfold adjacency Cyclic.neighbours
  rw [List.flatMap_map]
  rfl

theorem mem_adjacency : q ∈ adjacency edges p ↔ s(p, q) ∈ segmentsOf edges := by
  rw [adjacency_eq, Cyclic.mem_neighbours]
  rfl

theorem card_segmentsOf : (segmentsOf edges).card = edges.length := by
  unfold segmentsOf Cyclic.undirected
  rw [Multiset.coe_card, List.length_map, List.length_map]

theorem card_ring : (Cyclic.undirected (Cyclic.edges ring)).card = ring.length := by
  unfold Cyclic.undirected Cyclic.edges
  simp

/-- The points of the edges are those that have something next to them. -/
theorem mem_endpoints : p ∈ endpoints edges ↔ ∃ q, s(p, q) ∈ segmentsOf edges := by
  simp only [endpoints, segmentsOf, Cyclic.undirected, List.mem_flatMap, Multiset.mem_coe,
    List.map_map, List.mem_map, Function.comp_apply, OutlineEdge.ends]
  constructor
  · rintro ⟨edge, hedge, hp⟩
    simp only [List.mem_cons, List.not_mem_nil, or_false] at hp
    rcases hp with rfl | rfl
    · exact ⟨edge.finish, edge, hedge, rfl⟩
    · exact ⟨edge.start, edge, hedge, Sym2.eq_swap⟩
  · rintro ⟨q, edge, hedge, hsame⟩
    refine ⟨edge, hedge, ?_⟩
    rcases Sym2.eq_iff.mp hsame with ⟨rfl, -⟩ | ⟨-, rfl⟩
    · exact List.mem_cons_self
    · exact List.mem_cons_of_mem _ List.mem_cons_self

/-! ### What the walk returns -/

/-- The corners found so far: distinct, from `start` on, each next to the one before it. -/
structure Walked (edges : List OutlineEdge) (start : PointNm) (result : List PointNm) : Prop where
  head : result.head? = some start
  nodup : result.Nodup
  chain : result.IsChain fun p q => q ∈ adjacency edges p

theorem walkOn_sound (hwalked : Walked edges start result) (hlast : result.getLast? = some previous)
    (hnext : current ∈ adjacency edges previous)
    (h : walkOn edges start result previous current = .ok ring) :
    Walked edges start ring ∧ ring.length = edges.length ∧
      ∃ last, ring.getLast? = some last ∧ start ∈ adjacency edges last := by
  fun_induction walkOn edges start result previous current with
  | case1 result previous hlength =>
      cases h
      exact ⟨hwalked, hlength, previous, hlast, hnext⟩
  | case2 => cases h
  | case3 => cases h
  | case4 result previous current hne hfresh next hsole ih =>
      have hmem : next ∈ (adjacency edges current).filter (· ≠ previous) := by
        rw [hsole]
        exact List.mem_singleton_self next
      refine ih ⟨?_, ?_, ?_⟩ (by simp) (List.mem_of_mem_filter hmem) h
      · rw [List.head?_append, hwalked.head]
        rfl
      · rw [List.nodup_append]
        refine ⟨hwalked.nodup, List.nodup_singleton _, ?_⟩
        intro a ha b hb
        rw [List.mem_singleton] at hb
        subst hb
        rintro rfl
        exact hfresh (Or.inl ha)
      · refine List.isChain_append.mpr ⟨hwalked.chain, List.isChain_singleton _, ?_⟩
        intro a ha b hb
        rw [hlast, Option.mem_some_iff] at ha
        subst ha
        simp only [List.head?_cons, Option.mem_some_iff] at hb
        subst hb
        exact hnext
  | case5 => cases h

/-- **What the walk returns is a ring of all the edges**, when it has three corners. -/
theorem walk_drawnBy (hnext : current ∈ adjacency edges start)
    (h : walk edges start current = .ok ring) (hlength : 3 ≤ ring.length) : DrawnBy edges ring := by
  have hbegin : Walked edges start [start] :=
    ⟨rfl, List.nodup_singleton start, List.isChain_singleton start⟩
  obtain ⟨hwalked, hcount, last, hlast, hclose⟩ := walkOn_sound hbegin rfl hnext h
  have hmem : ∀ e ∈ Cyclic.edges ring, s(e.1, e.2) ∈ segmentsOf edges := by
    cases ring with
    | nil => simp at hlength
    | cons first rest =>
        have hfirst : first = start := Option.some.inj hwalked.head
        subst hfirst
        intro e he
        refine mem_adjacency.mp
          (Cyclic.forall_edges_of_chain (R := fun p q => q ∈ adjacency edges p) ?_ e he)
        refine List.isChain_append.mpr ⟨hwalked.chain, List.isChain_singleton _, ?_⟩
        intro a ha b hb
        rw [hlast, Option.mem_some_iff] at ha
        subst ha
        simp only [List.head?_cons, Option.mem_some_iff] at hb
        subst hb
        exact hclose
  have hwithin : Cyclic.undirected (Cyclic.edges ring) ≤ segmentsOf edges := by
    rw [Multiset.le_iff_subset (Cyclic.nodup_undirected_edges hlength hwalked.nodup)]
    intro segment hsegment
    obtain ⟨e, he, rfl⟩ := List.mem_map.mp (Multiset.mem_coe.mp hsegment)
    exact hmem e he
  -- there are as many edges as corners, so that there are no others
  refine (Multiset.eq_of_le_of_card_le hwithin ?_).symm
  rw [card_segmentsOf, card_ring, hcount]

/-! ### Every ring is found -/

/-- The corner the walk goes on to. -/
theorem onward (hdrawn : DrawnBy edges ring) (hnodup : ring.Nodup) {rest : List PointNm}
    (h : ring ~r current :: q :: (rest ++ [previous])) :
    (adjacency edges current).filter (· ≠ previous) = [q] := by
  have hfresh := (h.nodup_iff).mp hnodup
  have hq : q ≠ previous := by
    rintro rfl
    simp at hfresh
  rw [adjacency_eq]
  have haround : (Cyclic.neighbours (edges.map OutlineEdge.ends) current).Perm [q, previous] :=
    (Cyclic.neighbours_perm hdrawn current).trans (Cyclic.neighbours_edges hnodup h)
  have hkept := haround.filter (fun item => decide (item ≠ previous))
  rw [List.filter_cons_of_pos (by simpa using hq), List.filter_cons_of_neg (by simp),
    List.filter_nil] at hkept
  exact List.perm_singleton.mp hkept

theorem walkOn_step (hdrawn : DrawnBy edges ring) (hnodup : ring.Nodup)
    {before after rest : List PointNm} (hring : ring = before ++ [previous] ++ current :: after)
    (hstart : ring.head? = some start) (h : ring ~r current :: q :: (rest ++ [previous])) :
    walkOn edges start (before ++ [previous]) previous current =
      walkOn edges start (before ++ [previous] ++ [current]) current q := by
  have hcount : ring.length = edges.length := by
    rw [← card_ring, ← hdrawn, card_segmentsOf]
  have hfresh : current ∉ before ++ [previous] := by
    rw [hring, List.nodup_append] at hnodup
    intro hmem
    exact hnodup.2.2 current hmem current List.mem_cons_self rfl
  have hmem : start ∈ before ++ [previous] := by
    rw [hring, List.head?_append_of_ne_nil _ (by simp)] at hstart
    exact List.mem_of_head? hstart
  have hne : current ≠ start := by
    rintro rfl
    exact hfresh hmem
  have hroom : ¬ edges.length < (before ++ [previous]).length := by
    rw [← hcount, hring, List.length_append, List.length_append]
    omega
  rw [walkOn, if_neg hne, if_neg (not_or.mpr ⟨hfresh, hroom⟩), onward hdrawn hnodup h]

theorem walkOn_complete (hdrawn : DrawnBy edges ring) (hnodup : ring.Nodup)
    (hlength : 3 ≤ ring.length) {before after : List PointNm}
    (hring : ring = before ++ [previous] ++ current :: after)
    (hstart : ring.head? = some start) :
    walkOn edges start (before ++ [previous]) previous current = .ok ring := by
  induction after generalizing before previous current with
  | nil =>
      -- after the last corner the walk is back at the first
      have hcount : ring.length = edges.length := by
        rw [← card_ring, ← hdrawn, card_segmentsOf]
      cases before with
      | nil =>
          rw [hring] at hlength
          simp at hlength
      | cons first before =>
          have hfirst : first = start := by
            rw [hring] at hstart
            exact Option.some.inj hstart
          subst hfirst
          have hturn : (first :: before ++ [previous]) ++ [current] ~r
              [current] ++ (first :: before ++ [previous]) := List.isRotated_append
          rw [walkOn_step hdrawn hnodup hring hstart (hring ▸ hturn), walkOn, if_pos rfl,
            ← hring, if_pos hcount]
  | cons next after ih =>
      have hturn : (before ++ [previous]) ++ (current :: next :: after) ~r
          (current :: next :: after) ++ (before ++ [previous]) := List.isRotated_append
      have haround : ring ~r current :: next :: ((after ++ before) ++ [previous]) := by
        rw [hring]
        simpa using hturn
      rw [walkOn_step hdrawn hnodup hring hstart haround]
      exact ih (by rw [hring]; simp)

/-- From the first corner towards the second, the walk returns the ring. -/
theorem walk_complete {rest : List PointNm} (hdrawn : DrawnBy edges (start :: current :: rest))
    (hnodup : (start :: current :: rest).Nodup) (hlength : 3 ≤ (start :: current :: rest).length) :
    walk edges start current = .ok (start :: current :: rest) := by
  have hring : start :: current :: rest = [] ++ [start] ++ current :: rest := rfl
  exact walkOn_complete hdrawn hnodup hlength hring rfl

/-! ### One ring, whichever way the edges are given -/

theorem DrawnBy.same {ring' : List PointNm} (hdrawn : DrawnBy edges ring)
    (hsame : Cyclic.Same ring ring') : DrawnBy edges ring' :=
  Eq.trans hdrawn hsame.undirected_edges

theorem mem_endpoints_iff_corner (hdrawn : DrawnBy edges ring) (hlength : 3 ≤ ring.length) :
    p ∈ endpoints edges ↔ p ∈ ring := by
  rw [mem_endpoints]
  constructor
  · rintro ⟨q, hq⟩
    rw [hdrawn] at hq
    obtain ⟨e, he, hends⟩ := List.mem_map.mp (Multiset.mem_coe.mp hq)
    obtain ⟨hfirst, hsecond⟩ := Cyclic.mem_of_mem_edges he
    rcases Sym2.eq_iff.mp hends with ⟨rfl, -⟩ | ⟨-, rfl⟩
    · exact hfirst
    · exact hsecond
  · intro hp
    obtain ⟨q, rest, r, hturned⟩ := Cyclic.exists_around hlength hp
    refine ⟨q, ?_⟩
    rw [hdrawn]
    exact Multiset.mem_coe.mpr (List.mem_map.mpr ⟨(p, q), Cyclic.mem_edges hturned, rfl⟩)

theorem simpleRing_of_same {ring' : List PointNm} (h : Kernel.SimpleRing ring)
    (hsame : Cyclic.Same ring ring') : Kernel.SimpleRing ring' := by
  rcases hsame with hrotated | hreversed
  · exact h.rotated hrotated
  · exact h.reversed.rotated hreversed

theorem same_least (h : Kernel.SimpleRing ring) : Cyclic.Same ring (Cyclic.least ring) := by
  refine (Cyclic.least_spec ?_).1
  rintro rfl
  exact absurd h.length (by decide)

theorem normalizedRing_eq_least (h : Kernel.SimpleRing ring) :
    Kernel.normalizedRing ring = Cyclic.least ring := by
  unfold Kernel.normalizedRing
  rw [Kernel.openRing_of_nodup h.length h.nodup]
  rfl

/-- The lesser of two candidates. -/
theorem min?_of_perm {l : List (List PointNm)} {x y : List PointNm} (h : l.Perm [x, y]) :
    l.min?.getD [] = min x y := by
  rcases List.perm_pair.mp h with rfl | rfl
  · rfl
  · exact min_comm y x

/-- **The edges of a simple polygon are accepted, and its least drawing is returned.** -/
theorem orderedOutlineVertices_of_simple (hsimple : Kernel.SimpleRing ring)
    (hdrawn : DrawnBy edges ring) : orderedOutlineVertices edges = .ok (Cyclic.least ring) := by
  have hlength := hsimple.length
  have hnodup := hsimple.nodup
  have hcorner : ∀ {p}, p ∈ endpoints edges ↔ p ∈ ring :=
    mem_endpoints_iff_corner hdrawn hlength
  have hsome : (endpoints edges).min?.isSome := by
    rw [List.isSome_min?_iff]
    obtain ⟨p, hp⟩ := List.exists_mem_of_length_pos (show 0 < ring.length by omega)
    exact List.ne_nil_of_mem (hcorner.mpr hp)
  obtain ⟨start, hstart⟩ := Option.isSome_iff_exists.mp hsome
  obtain ⟨hmem, hleast⟩ := List.min?_eq_some_iff.mp hstart
  obtain ⟨b, middle, c, hturned⟩ := Cyclic.exists_around hlength (hcorner.mp hmem)
  -- the ring from its least corner, both ways round
  have hforward : DrawnBy edges (start :: b :: (middle ++ [c])) := hdrawn.same (Or.inl hturned)
  have hturn : (start :: b :: (middle ++ [c])).reverse ~r
      start :: c :: (middle.reverse ++ [b]) := by
    have hreverse : (start :: b :: (middle ++ [c])).reverse =
        (c :: (middle.reverse ++ [b])) ++ [start] := by simp
    rw [hreverse]
    exact List.isRotated_append
  have hback : Cyclic.Same ring (start :: c :: (middle.reverse ++ [b])) :=
    Or.inr (hturned.reverse.trans hturn)
  have hbackward : DrawnBy edges (start :: c :: (middle.reverse ++ [b])) := hdrawn.same hback
  have hfound : walk edges start b = .ok (start :: b :: (middle ++ [c])) :=
    walk_complete hforward (hturned.nodup_iff.mp hnodup) (hturned.perm.length_eq ▸ hlength)
  have hfound' : walk edges start c = .ok (start :: c :: (middle.reverse ++ [b])) :=
    walk_complete hbackward (hback.perm.nodup_iff.mp hnodup) (hback.length_eq ▸ hlength)
  have haround : ∀ {p q r rest}, ring ~r p :: q :: (rest ++ [r]) →
      (adjacency edges p).Perm [q, r] := by
    intro p q r rest h
    rw [adjacency_eq]
    exact (Cyclic.neighbours_perm hdrawn p).trans (Cyclic.neighbours_edges hnodup h)
  have hdegree : ∀ p ∈ endpoints edges, (adjacency edges p).length = 2 := by
    intro p hp
    obtain ⟨q, rest, r, h⟩ := Cyclic.exists_around hlength (hcorner.mp hp)
    exact (haround h).length_eq
  have hboth : [b, c].mapM (walk edges start) =
      .ok [start :: b :: (middle ++ [c]), start :: c :: (middle.reverse ++ [b])] := by
    rw [List.mapM_cons, List.mapM_cons, hfound, hfound']
    rfl
  have hsorted : (sortBy id (adjacency edges start)).Perm (adjacency edges start) := sortBy_perm _
  obtain ⟨candidates, hcandidates, hperm⟩ :=
    mapM_perm (hsorted.trans (haround hturned)) hboth
  have hmin : candidates.min?.getD [] = Cyclic.least ring := by
    have hfirst : ∀ p ∈ ring, start ≤ p := fun p hp => hleast p (hcorner.mpr hp)
    rw [min?_of_perm hperm, Cyclic.least_eq_min hnodup hturned hfirst]
    simp
  have hvalid : validateSimplePolygon (Cyclic.least ring) "Edge.Cuts outline" = .ok () :=
    validateSimplePolygon_iff.mpr (simpleRing_of_same hsimple (same_least hsimple))
  unfold orderedOutlineVertices
  rw [hstart]
  simp only [bind_ok, exists_unit, require_ok]
  exact ⟨hdegree, candidates, hcandidates, by rw [hmin]; exact hvalid, by rw [hmin]; rfl⟩

theorem orderedOutlineVertices_sound (h : orderedOutlineVertices edges = .ok ring) :
    Kernel.SimpleRing ring ∧ DrawnBy edges ring := by
  unfold orderedOutlineVertices at h
  split at h
  · cases h
  · rename_i start hstart
    simp only [bind_ok, exists_unit, require_ok] at h
    obtain ⟨-, candidates, hcandidates, hvalid, hresult⟩ := h
    have hring : candidates.min?.getD [] = ring := Except.ok.inj hresult
    rw [hring] at hvalid
    have hsimple := validateSimplePolygon_iff.mp hvalid
    refine ⟨hsimple, ?_⟩
    have hmem : ring ∈ candidates := by
      cases hmin : candidates.min? with
      | none =>
          rw [hmin, Option.getD_none] at hring
          exact absurd hsimple.length (by rw [← hring]; decide)
      | some least =>
          rw [hmin, Option.getD_some] at hring
          rw [← hring]
          exact (List.min?_eq_some_iff.mp hmin).1
    obtain ⟨next, hnext, hwalk⟩ := mapM_mem hcandidates hmem
    exact walk_drawnBy (mem_sortBy.mp hnext) hwalk hsimple.length

/-- **When an outline is accepted, and what is returned.** -/
theorem orderedOutlineVertices_iff : orderedOutlineVertices edges = .ok result ↔
    ∃ ring, Kernel.SimpleRing ring ∧ DrawnBy edges ring ∧ result = Kernel.normalizedRing ring := by
  constructor
  · intro h
    obtain ⟨hsimple, hdrawn⟩ := orderedOutlineVertices_sound h
    refine ⟨result, hsimple, hdrawn, ?_⟩
    rw [normalizedRing_eq_least hsimple]
    exact Except.ok.inj (h.symm.trans (orderedOutlineVertices_of_simple hsimple hdrawn))
  · rintro ⟨ring, hsimple, hdrawn, rfl⟩
    rw [normalizedRing_eq_least hsimple]
    exact orderedOutlineVertices_of_simple hsimple hdrawn

/-- **An outline is accepted exactly when its edges are those of one simple polygon.**  The corners
returned are the normal form of that polygon, whichever way and in whatever order its edges are
given. -/
theorem outline_iff_simple_polygon (edges : List OutlineEdge) :
    ((∃ vertices, orderedOutlineVertices edges = .ok vertices) ↔
      ∃ ring, SimplePolygon (ring.map Kernel.PointNm.grid) ∧ DrawnBy edges ring) ∧
    ∀ vertices, orderedOutlineVertices edges = .ok vertices →
      DrawnBy edges vertices ∧ vertices = Kernel.normalizedRing vertices ∧
        ∀ edges', segmentsOf edges' = segmentsOf edges →
          orderedOutlineVertices edges' = .ok vertices := by
  constructor
  · simp only [orderedOutlineVertices_iff, ← Kernel.simpleRing_iff_simple]
    constructor
    · rintro ⟨vertices, ring, hsimple, hdrawn, -⟩
      exact ⟨ring, hsimple, hdrawn⟩
    · rintro ⟨ring, hsimple, hdrawn⟩
      exact ⟨Kernel.normalizedRing ring, ring, hsimple, hdrawn, rfl⟩
  · intro vertices h
    obtain ⟨hsimple, hdrawn⟩ := orderedOutlineVertices_sound h
    have hnormal : vertices = Cyclic.least vertices :=
      Except.ok.inj (h.symm.trans (orderedOutlineVertices_of_simple hsimple hdrawn))
    refine ⟨hdrawn, ?_, ?_⟩
    · rw [normalizedRing_eq_least hsimple]
      exact hnormal
    · intro edges' hsame
      have hdrawn' : DrawnBy edges' vertices := hsame.trans hdrawn
      rw [orderedOutlineVertices_of_simple hsimple hdrawn', ← hnormal]

def unitCorner (right upper : Bool) : PointNm where
  x := if right then 1 else 0
  y := if upper then 1 else 0
  x_inInt64 := by cases right <;> decide
  y_inInt64 := by cases upper <;> decide

/-- The sides of the square, one of them given the other way round. -/
def unitSquare : List OutlineEdge :=
  [⟨unitCorner false false, unitCorner true false, by decide⟩,
    ⟨unitCorner true true, unitCorner true false, by decide⟩,
    ⟨unitCorner false true, unitCorner false false, by decide⟩,
    ⟨unitCorner true true, unitCorner false true, by decide⟩]

theorem outline_iff_simple_polygon_sample :
    ∃ vertices, orderedOutlineVertices unitSquare = .ok vertices ∧
      orderedOutlineVertices unitSquare.reverse = .ok vertices := by
  have hvalid : validateSimplePolygon [unitCorner false false, unitCorner true false,
      unitCorner true true, unitCorner false true] "Edge.Cuts outline" = .ok () :=
    of_toOption (by decide +kernel)
  have hdrawn : DrawnBy unitSquare [unitCorner false false, unitCorner true false,
      unitCorner true true, unitCorner false true] := by
    unfold DrawnBy
    decide
  obtain ⟨vertices, h⟩ := (outline_iff_simple_polygon unitSquare).1.mpr
    ⟨_, Kernel.simpleRing_iff_simple.mp (validateSimplePolygon_iff.mp hvalid), hdrawn⟩
  refine ⟨vertices, h, ((outline_iff_simple_polygon unitSquare).2 vertices h).2.2 _ ?_⟩
  decide

end Evleda.KicadIo
