/-
The orthogonal grid router.

`astar` takes states, a point with the direction in which it was entered, from a queue in
the order of a weighted score, but improves labels in the order of bends and then steps.  So
a state may be improved after its neighbours were reached through it, and may be taken up
again.  A state that reaches a goal ends the search; its chain of parents is the route.

The queue is a heap of tuples that are compared as wholes: it is modelled by the sorted list
of its entries.  Recursion is bounded by fuel, and `none` is what no run of the source
returns: a loop that the fuel does not see to its end.
-/
import Evleda.HumanSchematic.Grid
import Evleda.Lib.Labelling
import Mathlib.Algebra.Order.Monoid.Prod
import Mathlib.Data.Finset.Max
import Mathlib.Data.List.Chain
import Mathlib.Data.Prod.Lex

namespace Evleda.HumanSchematic

/-- `_MAX_EXPANSIONS` -/
def maxExpansions : Nat := 100000

/-- `_MAX_ROUTE_STEPS` -/
def maxRouteSteps : Nat := 260

def manhattan (first second : GridPoint) : Nat :=
  (first.x - second.x).natAbs + (first.y - second.y).natAbs

def directionIndex (start stop : GridPoint) : Direction :=
  if start.x < stop.x then .east
  else if start.y < stop.y then .south
  else if stop.x < start.x then .west
  else .north

/-- A point and the direction in which it was entered. -/
structure State where
  point : GridPoint
  direction : Direction
  deriving DecidableEq, Repr

/-- Bends, then steps. -/
abbrev Cost := Nat ×ₗ Nat

def cost (bends steps : Nat) : Cost := toLex (bends, steps)

/-- The arguments of a search. -/
structure Request where
  start : GridPoint
  goals : Finset GridPoint
  content : GridEnvelope
  static : Finset GridPoint
  globallyOccupied : Finset GridPoint
  treePoints : Finset GridPoint
  allPinPositions : Finset GridPoint

/-- An entry of the queue. -/
structure Entry where
  score : Nat
  bends : Nat
  steps : Nat
  state : State
  deriving DecidableEq, Repr

namespace Entry

/-- The tuple that the heap compares. -/
def key (entry : Entry) : Nat ×ₗ Nat ×ₗ Nat ×ₗ Int ×ₗ Int ×ₗ Nat :=
  toLex (entry.score, toLex (entry.bends, toLex (entry.steps, toLex (entry.state.point.x,
    toLex (entry.state.point.y, entry.state.direction.index)))))

/-- `heapq.heappush` -/
def push (queue : List Entry) (entry : Entry) : List Entry :=
  queue.orderedInsert (fun a b => a.key ≤ b.key) entry

end Entry

/-- What the loop holds. -/
structure Search where
  labels : Labels State Cost
  queue : List Entry
  expansions : Nat

namespace Request

variable (r : Request)

/-- `min(_manhattan(point, goal) for goal in goals)` -/
def heuristic (point : GridPoint) : Nat := ((r.goals.image (manhattan point)).min).untopD 0

/-- The point may be entered: it passes the four tests of the loop. -/
def Open (point : GridPoint) : Prop :=
  (r.content.Contains point ∧ point ∉ r.static) ∧
  point ∉ r.globallyOccupied ∧
  (point ∈ r.treePoints → point ∈ r.goals) ∧
  (point ∈ r.allPinPositions → point = r.start ∨ point ∈ r.goals)

instance (point : GridPoint) : Decidable (r.Open point) :=
  inferInstanceAs (Decidable ((_ ∧ _) ∧ _ ∧ _ ∧ _))

/-- The state before the loop: the start, entered from every direction. -/
def opening : Search :=
  Direction.order.foldl (fun s direction =>
    let state : State := ⟨r.start, direction⟩
    { labels := ⟨s.labels.costs.set state (cost 0 0), s.labels.parents.set state none⟩
      queue := Entry.push s.queue ⟨r.heuristic r.start * 10, 0, 0, state⟩
      expansions := s.expansions })
    ⟨⟨Dict.empty, Dict.empty⟩, [], 0⟩

/-- The cost of entering the next point, from a state at the given cost. -/
def nextCost (direction : Direction) (prior : Entry) : Nat × Nat :=
  (prior.bends + (if direction ≠ prior.state.direction then 1 else 0), prior.steps + 1)

/-- The body of the loop over the directions. -/
def relax (prior : Entry) (s : Search) (direction : Direction) : Search :=
  let nextPoint := prior.state.point.moved direction
  if ¬ r.Open nextPoint then s
  else
    let nextState : State := ⟨nextPoint, direction⟩
    let (nextBends, nextSteps) := nextCost direction prior
    let improved : Search :=
      let score := nextSteps * 10 + nextBends * 4 + r.heuristic nextPoint * 10
      { labels := s.labels.assign prior.state nextState (cost nextBends nextSteps)
        queue := Entry.push s.queue ⟨score, nextBends, nextSteps, nextState⟩
        expansions := s.expansions }
    match s.labels.costs nextState with
    | none => improved
    | some priorCost => if priorCost ≤ cost nextBends nextSteps then s else improved

end Request

/-- The points of a chain, without repetitions next to each other. -/
def compact (points : List GridPoint) : List GridPoint :=
  points.foldl (fun compact point =>
    if compact.getLast? = some point then compact else compact ++ [point]) []

/-- `_reconstruct` -/
def reconstruct (fuel : Nat) (state : State) (parents : Dict State (Option State)) :
    Option (List GridPoint) :=
  (Labels.traceback parents fuel state).map fun chain => compact (chain.map (·.point)).reverse

/-- `while queue` -/
def loop (r : Request) (room : Nat) : Nat → Search → Option (Option (List GridPoint))
  | 0, _ => none
  | fuel + 1, s =>
      match s.queue with
      | [] => some none
      | entry :: queue =>
          if s.labels.costs entry.state ≠ some (cost entry.bends entry.steps) then
            loop r room fuel { s with queue := queue }
          else if entry.state.point ∈ r.goals ∧ entry.state.point ≠ r.start then
            (reconstruct room entry.state s.labels.parents).map some
          else
            let s : Search := { s with queue := queue, expansions := s.expansions + 1 }
            if maxExpansions < s.expansions ∨ maxRouteSteps ≤ entry.steps then loop r room fuel s
            else loop r room fuel (Direction.order.foldl (r.relax entry) s)

def astar (fuel : Nat) (r : Request) : Option (Option (List GridPoint)) :=
  if r.goals = ∅ then some none
  else if r.start ∈ r.goals then some (some [r.start])
  else loop r fuel fuel r.opening

/-! ### Wires -/

/-- The corners of a path after a point that was reached in the given direction. -/
def corners (prior : Direction) : List GridPoint → List GridPoint
  | a :: b :: rest =>
      if directionIndex a b ≠ prior then a :: corners (directionIndex a b) (b :: rest)
      else corners prior (b :: rest)
  | _ => []

/-- The ends and the corners of a path of two points or more. -/
def pathVertices (first second : GridPoint) (rest : List GridPoint) : List GridPoint :=
  first :: (corners (directionIndex first second) (second :: rest) ++
    [(second :: rest).getLast (List.cons_ne_nil _ _)])

def compressPath (path : List GridPoint) (routeId netId : String) :
    Except Failure (List WireSegment) :=
  match path with
  | first :: second :: rest =>
      let vertices := pathVertices first second rest
      ((vertices.zip vertices.tail).zipIdx).mapM fun ((start, finish), ordinal) =>
        WireSegment.postInit ⟨wireId routeId ordinal, routeId, netId, ordinal, start, finish⟩
  | _ => .ok []

end Evleda.HumanSchematic
