/-
Points, segments and rings of the canonical design graph.

Coordinates are signed 64-bit integers of nanometres, and a point that does not
fit cannot be built.  Every predicate is exact integer arithmetic: the sign of a
cross product, and comparisons of coordinates.

A ring is a polygon given by its vertices, with or without the closing vertex
repeated at the end.  Its normal form is the least of all its rotations in both
directions; that of a ring that passes the polygon check is its own normal form.
-/
import Mathlib
import Evleda.Lib.Checked
import Evleda.Lib.Collections
import Evleda.Lib.Cyclic
import Evleda.Lib.Text

namespace Evleda.Kernel

open Outcome

/-! ### What the kernel raises -/

/-- The exception classes of the kernel and of its commit authority. -/
inductive ErrorClass where
  | invariantViolation | kernelError | staleRevision | commandConflict | approvalMismatch
  | transactionNotCommittable | lockedObject
  | invalidCommitAuthorization | expiredCommitAuthorization | replayedCommitAuthorization
  | commitAuthorityClockRollback | importMappingInvariant | valueError | keyError | assertionError
  deriving DecidableEq, Repr

structure Failure where
  errorClass : ErrorClass
  message : String
  deriving DecidableEq, Repr

/-- `InvariantViolation(message)` -/
def violation (message : String) : Failure := ⟨.invariantViolation, message⟩

/-! ### Points -/

/-- The range of a signed 64-bit integer. -/
def InInt64 (n : Int) : Prop := -(2 ^ 63) ≤ n ∧ n ≤ 2 ^ 63 - 1

instance (n : Int) : Decidable (InInt64 n) := inferInstanceAs (Decidable (_ ∧ _))

theorem inInt64_zero : InInt64 0 := by decide

def requireInt64 (value : Int) (label : String) : Except Failure Unit :=
  require (InInt64 value) (violation (label ++ " must fit in a signed 64-bit integer"))

theorem requireInt64_ok {value : Int} {label : String} {u : Unit} :
    requireInt64 value label = .ok u ↔ InInt64 value :=
  require_ok

/-- A position in nanometres. -/
structure PointNm where
  x : Int
  y : Int
  x_inInt64 : InInt64 x
  y_inInt64 : InInt64 y
  deriving DecidableEq

/-- `PointNm(x, y)` -/
def PointNm.make (x y : Int) : Except Failure PointNm :=
  if hx : InInt64 x then
    if hy : InInt64 y then .ok ⟨x, y, hx, hy⟩
    else .error (violation "y coordinate in nanometres must fit in a signed 64-bit integer")
  else .error (violation "x coordinate in nanometres must fit in a signed 64-bit integer")

@[simp] theorem PointNm.make_coordinates (p : PointNm) : PointNm.make p.x p.y = .ok p := by
  unfold PointNm.make
  rw [dif_pos p.x_inInt64, dif_pos p.y_inInt64]

/-- Points are ordered by `x`, then by `y`. -/
instance : LinearOrder PointNm :=
  LinearOrder.lift' (fun p => toLex (p.x, p.y)) (by
    intro p q h
    have hpair : (p.x, p.y) = (q.x, q.y) := toLex.injective h
    cases p
    cases q
    simp only [Prod.mk.injEq] at hpair
    obtain ⟨rfl, rfl⟩ := hpair
    rfl)

/-! ### Segments -/

/-- The exact signed cross product of AB and AC. -/
def cross (a b c : PointNm) : Int := (b.x - a.x) * (c.y - a.y) - (b.y - a.y) * (c.x - a.x)

def pointOnSegment (point start stop : PointNm) : Bool :=
  cross start stop point = 0 ∧
    (min start.x stop.x ≤ point.x ∧ point.x ≤ max start.x stop.x) ∧
    (min start.y stop.y ≤ point.y ∧ point.y ≤ max start.y stop.y)

def segmentsIntersect (a b c d : PointNm) : Bool :=
  let abc := cross a b c
  let abd := cross a b d
  let cda := cross c d a
  let cdb := cross c d b
  if abc = 0 ∧ pointOnSegment c a b then true
  else if abd = 0 ∧ pointOnSegment d a b then true
  else if cda = 0 ∧ pointOnSegment a c d then true
  else if cdb = 0 ∧ pointOnSegment b c d then true
  else ((abc < 0 ∧ 0 < abd) ∨ (abd < 0 ∧ 0 < abc)) ∧ ((cda < 0 ∧ 0 < cdb) ∨ (cdb < 0 ∧ 0 < cda))

def collinearOverlapHasLength (a b c d : PointNm) : Bool :=
  if cross a b c ≠ 0 ∨ cross a b d ≠ 0 then false
  else if a.x ≠ b.x then
    max (min a.x b.x) (min c.x d.x) < min (max a.x b.x) (max c.x d.x)
  else max (min a.y b.y) (min c.y d.y) < min (max a.y b.y) (max c.y d.y)

/-- The segments of a polyline: `zip(vertices, vertices[1:])`. -/
def segments (vertices : List PointNm) : List (PointNm × PointNm) := vertices.zip vertices.tail

/-! ### Rings -/

/-- Drop the closing vertex when it repeats the first. -/
def openRing (vertices : List PointNm) : List PointNm :=
  if 1 < vertices.length ∧ vertices.head? = vertices.getLast? then vertices.dropLast else vertices

def rotations (ring : List PointNm) : List (List PointNm) :=
  (List.range ring.length).map (fun index => ring.drop index ++ ring.take index)

/-- The drawings of a ring: from any corner, either way round. -/
def drawings (ring : List PointNm) : List (List PointNm) := rotations ring ++ rotations ring.reverse

def normalizedRing (vertices : List PointNm) : List PointNm :=
  (drawings (openRing vertices)).min?.getD []

/-- The edges of an open ring, the closing edge last. -/
def ringEdges (ring : List PointNm) : List (PointNm × PointNm) :=
  ring.zip (ring.tail ++ ring.take 1)

/-- Twice the signed area of an open ring. -/
def twiceArea (ring : List PointNm) : Int :=
  ((ringEdges ring).map (fun edge => edge.1.x * edge.2.y - edge.2.x * edge.1.y)).sum

/-- Edges that share a vertex by their place in the ring of `count` edges. -/
def neighbours (count first second : Nat) : Prop :=
  second = first + 1 ∨ (first = 0 ∧ second = count - 1)

instance (count first second : Nat) : Decidable (neighbours count first second) :=
  inferInstanceAs (Decidable (_ ∨ _))

def validateSimplePolygon (vertices : List PointNm) (label : String) : Except Failure Unit := do
  let ring := openRing vertices
  require (3 ≤ ring.length) (violation (label ++ " requires at least three vertices"))
  require ring.Nodup
    (violation (label ++ " vertices must be unique except for an optional closing vertex"))
  require (twiceArea ring ≠ 0) (violation (label ++ " must enclose non-zero area"))
  let edges := ringEdges ring
  edges.zipIdx.forM fun ((a, b), first) => do
    require (a ≠ b) (violation (label ++ " cannot contain zero-length edges"))
    (edges.zipIdx.drop (first + 1)).forM fun ((c, d), second) =>
      requireWhen (¬ neighbours edges.length first second) do
        require (segmentsIntersect a b c d = false)
          (violation (label ++ " must be a simple non-self-intersecting polygon"))

/-! ### The normal form of a ring -/

theorem mem_drawings {ring r : List PointNm} :
    r ∈ drawings ring ↔ ring ≠ [] ∧ Cyclic.Same ring r :=
  Cyclic.mem_drawings

theorem mem_drawings_trans {ring r r' : List PointNm}
    (hr : r ∈ drawings ring) (hr' : r' ∈ drawings r) : r' ∈ drawings ring := by
  rw [mem_drawings] at hr hr' ⊢
  exact ⟨hr.1, hr.2.trans hr'.2⟩

theorem normalizedRing_spec {vertices : List PointNm} (h : normalizedRing vertices ≠ []) :
    normalizedRing vertices ∈ drawings (openRing vertices) ∧
      ∀ r ∈ drawings (openRing vertices), normalizedRing vertices ≤ r := by
  unfold normalizedRing at h ⊢
  cases hmin : (drawings (openRing vertices)).min? with
  | none => rw [hmin] at h; exact absurd rfl h
  | some r => exact List.min?_eq_some_iff.mp hmin

/-- A least drawing does not repeat its first vertex at the end, unless it repeats a vertex
elsewhere. -/
theorem least_drawing_open {r : List PointNm}
    (hleast : ∀ r' ∈ drawings r, r ≤ r')
    (hlength : 3 ≤ (openRing r).length) (hnodup : (openRing r).Nodup) : openRing r = r := by
  unfold openRing at *
  split
  · rename_i hclosed
    rw [if_pos hclosed] at hlength hnodup
    exfalso
    obtain ⟨-, hends⟩ := hclosed
    match r, hleast, hlength, hnodup, hends with
    | v :: w :: rest, hleast, hlength, hnodup, hends =>
        have hrest : rest ≠ [] := by
          rintro rfl
          simp at hlength
        have hdrop : (v :: w :: rest).dropLast = v :: w :: rest.dropLast := by
          rw [List.dropLast_cons_of_ne_nil (by simp), List.dropLast_cons_of_ne_nil hrest]
        have hvw : v ≠ w := by
          rw [hdrop] at hnodup
          intro hvw
          exact (List.nodup_cons.mp hnodup).1 (by simp [hvw])
        -- turned one step either way, the ring is drawn from `w` and from the closing `v`
        have hlast : rest = rest.dropLast ++ [v] := by
          have hv : rest.getLast hrest = v := by
            rw [List.head?_cons, List.getLast?_cons_cons, List.getLast?_cons,
              List.getLast?_eq_some_getLast hrest] at hends
            simpa using hends.symm
          rw [← hv, List.dropLast_append_getLast]
        have hforward : v :: w :: rest ≤ w :: (rest ++ [v]) := by
          refine hleast _ (mem_drawings.mpr ⟨by simp, Or.inl ?_⟩)
          exact List.IsRotated.cons_append_singleton
        have hbackward : v :: w :: rest ≤ v :: v :: w :: rest.dropLast := by
          refine hleast _ (mem_drawings.mpr ⟨by simp, Or.inl ?_⟩)
          have hturn := List.isRotated_concat v (v :: w :: rest.dropLast)
          have heq : v :: w :: rest.dropLast ++ [v] = v :: w :: rest := by
            rw [List.cons_append, List.cons_append, ← hlast]
          rwa [heq] at hturn
        have hle : v ≤ w := by
          rcases hforward.lt_or_eq with hlt | heq
          · exact List.head_le_of_lt hlt
          · exact absurd (List.cons.inj heq).1 hvw
        have hge : w ≤ v := by
          rcases hbackward.lt_or_eq with hlt | heq
          · rw [List.cons_lt_cons_iff] at hlt
            rcases hlt with hlt | ⟨-, hlt⟩
            · exact absurd hlt (lt_irrefl v)
            · exact List.head_le_of_lt hlt
          · simp only [List.cons.injEq, true_and] at heq
            exact absurd heq.1.symm hvw
        exact hvw (le_antisymm hle hge)
  · rfl

/-- **A normal form that is a ring of distinct vertices is its own normal form.** -/
theorem normalizedRing_idem {vertices : List PointNm}
    (hlength : 3 ≤ (openRing (normalizedRing vertices)).length)
    (hnodup : (openRing (normalizedRing vertices)).Nodup) :
    normalizedRing (normalizedRing vertices) = normalizedRing vertices := by
  have hne : normalizedRing vertices ≠ [] := by
    intro hnil
    rw [hnil] at hlength
    simp [openRing] at hlength
  obtain ⟨hmem, hleast⟩ := normalizedRing_spec hne
  generalize normalizedRing vertices = r at *
  have hself : ∀ r' ∈ drawings r, r ≤ r' :=
    fun r' hr' => hleast r' (mem_drawings_trans hmem hr')
  have hopen : openRing r = r := least_drawing_open hself hlength hnodup
  unfold normalizedRing
  rw [hopen]
  have hmin : (drawings r).min? = some r := by
    refine List.min?_eq_some_iff.mpr ⟨?_, hself⟩
    exact mem_drawings.mpr ⟨hne, Or.inl (List.IsRotated.refl r)⟩
  simp only [hmin, Option.getD_some]

theorem validateSimplePolygon_ring {vertices : List PointNm} {label : String}
    (h : validateSimplePolygon vertices label = .ok ()) :
    3 ≤ (openRing vertices).length ∧ (openRing vertices).Nodup := by
  unfold validateSimplePolygon at h
  simp only [bind_ok, require_ok, exists_const] at h
  exact ⟨h.1, h.2.1⟩

end Evleda.Kernel
