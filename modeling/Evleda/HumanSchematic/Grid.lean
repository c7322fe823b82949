/-
Points, envelopes and wires of a human schematic.

Coordinates are indices on the connection grid, with `y` downwards.  A wire is a segment
along one of the axes, and its constructor refuses any other.
-/
import Evleda.Lib.Checked
import Evleda.Lib.Text

namespace Evleda.HumanSchematic

open Outcome

/-! ### Checks on fields -/

/-- What a constructor raises: the text of its `ValueError`. -/
abbrev Failure := String

def IsText (value : String) : Prop :=
  Text.isBlank value = false ∧ ∀ c ∈ value.toList, 32 ≤ c.toNat

/-- Text without white space. -/
def IsId (value : String) : Prop :=
  value = Text.strip value ∧ value.toList.any Text.isSpace = false

instance (value : String) : Decidable (IsText value) :=
  @instDecidableAnd _ _ _ (List.decidableBAll _ _)

instance (value : String) : Decidable (IsId value) := inferInstanceAs (Decidable (_ ∧ _))

def requireText (value label : String) : Except Failure Unit :=
  require (IsText value) (label ++ " must be non-empty control-free text")

def requireId (value label : String) : Except Failure Unit := do
  requireText value label
  require (IsId value) (label ++ " must be a whitespace-free identifier")

theorem requireId_ok {value label : String} :
    requireId value label = .ok () ↔ IsText value ∧ IsId value := by
  unfold requireId requireText
  rw [bind_ok, exists_unit, require_ok, require_ok]

/-! ### Points -/

/-- One exact point on the connection grid. -/
structure GridPoint where
  x : Int
  y : Int
  deriving DecidableEq, Repr

/-- The directions, in `_DIRECTION_ORDER`. -/
inductive Direction where
  | east | south | west | north
  deriving DecidableEq, Repr

namespace Direction

/-- `_DIRECTION_ORDER` -/
def order : List Direction := [.east, .south, .west, .north]

/-- The place of a direction in the order. -/
def index : Direction → Nat
  | .east => 0
  | .south => 1
  | .west => 2
  | .north => 3

def offset : Direction → Int × Int
  | .east => (1, 0)
  | .north => (0, -1)
  | .south => (0, 1)
  | .west => (-1, 0)

end Direction

def GridPoint.moved (point : GridPoint) (direction : Direction) (distance : Nat := 1) : GridPoint :=
  ⟨point.x + direction.offset.1 * distance, point.y + direction.offset.2 * distance⟩

/-- Closed, axis-aligned envelope. -/
structure GridEnvelope where
  minimum : GridPoint
  maximum : GridPoint
  ordered : minimum.x ≤ maximum.x ∧ minimum.y ≤ maximum.y

def GridEnvelope.Contains (envelope : GridEnvelope) (point : GridPoint) : Prop :=
  (envelope.minimum.x ≤ point.x ∧ point.x ≤ envelope.maximum.x) ∧
    envelope.minimum.y ≤ point.y ∧ point.y ≤ envelope.maximum.y

instance (envelope : GridEnvelope) (point : GridPoint) : Decidable (envelope.Contains point) :=
  inferInstanceAs (Decidable ((_ ∧ _) ∧ _))

/-! ### Wires -/

structure WireSegment where
  semanticId : String
  routeId : String
  netId : String
  ordinal : Nat
  start : GridPoint
  finish : GridPoint
  deriving DecidableEq, Repr

/-- `f"wire:{route_id}:{ordinal}"` -/
def wireId (routeId : String) (ordinal : Nat) : String :=
  "wire:" ++ routeId ++ ":" ++ toString ordinal

def WireSegment.checks (segment : WireSegment) : Except Failure Unit := do
  requireId segment.semanticId "wire semantic ID"
  requireId segment.routeId "wire route ID"
  requireId segment.netId "wire net ID"
  require (segment.start ≠ segment.finish ∧
      (segment.start.x = segment.finish.x ∨ segment.start.y = segment.finish.y))
    "human schematic wires must be non-zero and orthogonal"
  require (segment.semanticId = wireId segment.routeId segment.ordinal)
    "wire semantic ID must derive from semantic route and ordinal"

def WireSegment.postInit : WireSegment → Except Failure WireSegment := checking WireSegment.checks

/-- `range(low, high + 1)` -/
def closedRange (low high : Int) : List Int :=
  (List.range (high + 1 - low).toNat).map fun (i : Nat) => low + i

def segmentPoints (segment : WireSegment) : List GridPoint :=
  if segment.start.x = segment.finish.x then
    (closedRange (min segment.start.y segment.finish.y)
      (max segment.start.y segment.finish.y)).map (⟨segment.start.x, ·⟩)
  else
    (closedRange (min segment.start.x segment.finish.x)
      (max segment.start.x segment.finish.x)).map (⟨·, segment.start.y⟩)

theorem mem_closedRange {low high n : Int} : n ∈ closedRange low high ↔ low ≤ n ∧ n ≤ high := by
  unfold closedRange
  rw [List.mem_map]
  constructor
  · rintro ⟨i, hi, rfl⟩
    rw [List.mem_range] at hi
    omega
  · rintro ⟨hlow, hhigh⟩
    refine ⟨(n - low).toNat, List.mem_range.mpr ?_, ?_⟩ <;> omega

/-! ### Moving -/

@[simp] theorem GridPoint.moved_zero (p : GridPoint) (d : Direction) : p.moved d 0 = p := by
  unfold GridPoint.moved
  simp

theorem GridPoint.moved_add (p : GridPoint) (d : Direction) (i j : Nat) :
    (p.moved d i).moved d j = p.moved d (i + j) := by
  unfold GridPoint.moved
  rw [GridPoint.mk.injEq]
  constructor <;> rw [Int.natCast_add, Int.mul_add, Int.add_assoc]

theorem GridPoint.moved_inj {p : GridPoint} {d : Direction} {i j : Nat}
    (h : p.moved d i = p.moved d j) : i = j := by
  unfold GridPoint.moved at h
  rw [GridPoint.mk.injEq] at h
  cases d <;> simp only [Direction.offset] at h <;> omega

theorem mem_segmentPoints_upright {segment : WireSegment}
    (h : segment.start.x = segment.finish.x) {z : GridPoint} :
    z ∈ segmentPoints segment ↔ z.x = segment.start.x ∧
      min segment.start.y segment.finish.y ≤ z.y ∧ z.y ≤ max segment.start.y segment.finish.y := by
  unfold segmentPoints
  rw [if_pos h, List.mem_map]
  constructor
  · rintro ⟨y, hy, rfl⟩
    exact ⟨rfl, mem_closedRange.mp hy⟩
  · rintro ⟨hx, hy⟩
    exact ⟨z.y, mem_closedRange.mpr hy, by rw [← hx]⟩

theorem mem_segmentPoints_level {segment : WireSegment}
    (h : segment.start.x ≠ segment.finish.x) {z : GridPoint} :
    z ∈ segmentPoints segment ↔ z.y = segment.start.y ∧
      min segment.start.x segment.finish.x ≤ z.x ∧ z.x ≤ max segment.start.x segment.finish.x := by
  unfold segmentPoints
  rw [if_neg h, List.mem_map]
  constructor
  · rintro ⟨x, hx, rfl⟩
    exact ⟨rfl, mem_closedRange.mp hx⟩
  · rintro ⟨hy, hx⟩
    exact ⟨z.x, mem_closedRange.mpr hx, by rw [← hy]⟩

theorem GridPoint.eq_moved_iff {z p : GridPoint} {d : Direction} {i : Nat} :
    z = p.moved d i ↔ z.x = p.x + d.offset.1 * i ∧ z.y = p.y + d.offset.2 * i := by
  unfold GridPoint.moved
  cases z
  rw [GridPoint.mk.injEq]

theorem mem_segmentPoints {segment : WireSegment} {d : Direction} {length : Nat}
    (h : segment.finish = segment.start.moved d length) (hpos : 0 < length) {z : GridPoint} :
    z ∈ segmentPoints segment ↔ ∃ i ≤ length, z = segment.start.moved d i := by
  rw [GridPoint.eq_moved_iff] at h
  simp only [GridPoint.eq_moved_iff]
  obtain ⟨hx, hy⟩ := h
  cases d <;> simp only [Direction.offset] at hx hy ⊢
  case east =>
    rw [mem_segmentPoints_level (by omega)]
    constructor
    · rintro ⟨hz, hlow, hhigh⟩
      exact ⟨(z.x - segment.start.x).toNat, by omega, by omega, by omega⟩
    · rintro ⟨i, hi, hzx, hzy⟩
      exact ⟨by omega, by omega, by omega⟩
  case west =>
    rw [mem_segmentPoints_level (by omega)]
    constructor
    · rintro ⟨hz, hlow, hhigh⟩
      exact ⟨(segment.start.x - z.x).toNat, by omega, by omega, by omega⟩
    · rintro ⟨i, hi, hzx, hzy⟩
      exact ⟨by omega, by omega, by omega⟩
  case south =>
    rw [mem_segmentPoints_upright (by omega)]
    constructor
    · rintro ⟨hz, hlow, hhigh⟩
      exact ⟨(z.y - segment.start.y).toNat, by omega, by omega, by omega⟩
    · rintro ⟨i, hi, hzx, hzy⟩
      exact ⟨by omega, by omega, by omega⟩
  case north =>
    rw [mem_segmentPoints_upright (by omega)]
    constructor
    · rintro ⟨hz, hlow, hhigh⟩
      exact ⟨(segment.start.y - z.y).toNat, by omega, by omega, by omega⟩
    · rintro ⟨i, hi, hzx, hzy⟩
      exact ⟨by omega, by omega, by omega⟩

end Evleda.HumanSchematic
