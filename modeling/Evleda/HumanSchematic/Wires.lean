/-
The wires of a route.

A wire runs from one corner of a path to the next.  Read along the path, the points since the
last corner lie straight in the direction in which the path goes on; so the wires cover the
path, and a path without repetitions meets itself only at the corners.
-/
import Evleda.HumanSchematic.Routes

namespace Evleda.HumanSchematic

open Outcome

/-! ### Ways between corners -/

/-- The points of a wire between two corners. -/
def wayPoints (pair : GridPoint × GridPoint) : List GridPoint :=
  segmentPoints ⟨"", "", "", 0, pair.1, pair.2⟩

theorem mem_wayPoints {v z : GridPoint} {d : Direction} {length : Nat} (hpos : 0 < length) :
    z ∈ wayPoints (v, v.moved d length) ↔ ∃ i ≤ length, z = v.moved d i :=
  mem_segmentPoints rfl hpos

theorem directionIndex_moved (p : GridPoint) (d : Direction) : directionIndex p (p.moved d) = d := by
  obtain ⟨hx, hy⟩ := (GridPoint.eq_moved_iff (z := p.moved d) (i := 1)).mp rfl
  unfold directionIndex
  generalize p.moved d = q at hx hy
  cases d <;> simp only [Direction.offset] at hx hy
  case east => rw [if_pos (by omega)]
  case south => rw [if_neg (by omega), if_pos (by omega)]
  case west => rw [if_neg (by omega), if_neg (by omega), if_pos (by omega)]
  case north => rw [if_neg (by omega), if_neg (by omega), if_neg (by omega)]

/-- Straight ways, one after the other, over the points of a path. -/
structure Joined (ways : List (GridPoint × GridPoint)) (points : List GridPoint) : Prop where
  straight : ∀ way ∈ ways, ∃ d length, 0 < length ∧ way.2 = way.1.moved d length
  points : ∀ z, z ∈ points ↔ ∃ way ∈ ways, z ∈ wayPoints way
  linked : ∀ i p q, ways[i]? = some p → ways[i + 1]? = some q → p.2 = q.1
  meet : ∀ i j p q, i < j → ways[i]? = some p → ways[j]? = some q →
    ∀ z, z ∈ wayPoints p → z ∈ wayPoints q → j = i + 1 ∧ z = p.2 ∧ z = q.1

def waysBetween (vertices : List GridPoint) : List (GridPoint × GridPoint) :=
  vertices.zip vertices.tail

theorem joined_single (v : GridPoint) (d : Direction) {length : Nat} (hpos : 0 < length) :
    Joined [(v, v.moved d length)]
      ((List.range length).map (v.moved d ·) ++ [v.moved d length]) where
  straight := by
    intro way hway
    rw [List.mem_singleton.mp hway]
    exact ⟨d, length, hpos, rfl⟩
  points := by
    intro z
    simp only [List.mem_singleton, exists_eq_left, mem_wayPoints hpos, List.mem_append,
      List.mem_map, List.mem_range]
    constructor
    · rintro (⟨i, hi, rfl⟩ | rfl)
      · exact ⟨i, hi.le, rfl⟩
      · exact ⟨length, le_refl _, rfl⟩
    · rintro ⟨i, hi, rfl⟩
      rcases hi.lt_or_eq with hlt | rfl
      · exact Or.inl ⟨i, hlt, rfl⟩
      · exact Or.inr rfl
  linked := by
    intro i p q _ hq
    simp at hq
  meet := by
    intro i j p q hij _ hq
    rw [List.getElem?_eq_none (by simp; omega)] at hq
    cases hq

/-- A straight way before ways that start where it ends, and that it does not meet before. -/
theorem Joined.cons {v : GridPoint} {d : Direction} {length : Nat} (hpos : 0 < length)
    {ways : List (GridPoint × GridPoint)} {rest : List GridPoint}
    (h : Joined ways (v.moved d length :: rest))
    (hfirst : ∀ way ∈ ways.head?, way.1 = v.moved d length)
    (hfresh : ∀ i < length, v.moved d i ∉ v.moved d length :: rest) :
    Joined ((v, v.moved d length) :: ways)
      ((List.range length).map (v.moved d ·) ++ v.moved d length :: rest) where
  straight := by
    intro way hway
    rcases List.mem_cons.mp hway with rfl | hway
    · exact ⟨d, length, hpos, rfl⟩
    · exact h.straight way hway
  points := by
    intro z
    rw [List.mem_append, h.points]
    simp only [List.mem_cons, exists_eq_or_imp, mem_wayPoints hpos, List.mem_map, List.mem_range]
    constructor
    · rintro (⟨i, hi, rfl⟩ | hlater)
      · exact Or.inl ⟨i, hi.le, rfl⟩
      · exact Or.inr hlater
    · rintro (⟨i, hi, rfl⟩ | hlater)
      · rcases hi.lt_or_eq with hlt | rfl
        · exact Or.inl ⟨i, hlt, rfl⟩
        · exact Or.inr ((h.points _).mp List.mem_cons_self)
      · exact Or.inr hlater
  linked := by
    intro i p q hp hq
    cases i with
    | zero =>
        rw [List.getElem?_cons_zero, Option.some.injEq] at hp
        rw [List.getElem?_cons_succ, ← List.head?_eq_getElem?] at hq
        rw [← hp, hfirst q hq]
    | succ i => exact h.linked i p q hp hq
  meet := by
    intro i j p q hij hp hq z hz hz'
    obtain ⟨j, rfl⟩ := Nat.exists_eq_succ_of_ne_zero (Nat.ne_of_gt (Nat.zero_lt_of_lt hij))
    rw [Nat.succ_eq_add_one, List.getElem?_cons_succ] at hq
    cases i with
    | zero =>
        rw [List.getElem?_cons_zero, Option.some.injEq] at hp
        subst hp
        have hin : z ∈ v.moved d length :: rest :=
          (h.points z).mpr ⟨q, List.mem_of_getElem? hq, hz'⟩
        obtain ⟨i, hi, rfl⟩ := (mem_wayPoints hpos).mp hz
        obtain rfl : i = length := by
          by_contra hne
          exact hfresh i (lt_of_le_of_ne hi hne) hin
        -- it is the start of the first of the other ways, which no later one meets there
        cases ways with
        | nil => cases hq
        | cons first others =>
            have hstart : first.1 = v.moved d i := hfirst first rfl
            cases j with
            | zero =>
                rw [List.getElem?_cons_zero, Option.some.injEq] at hq
                exact ⟨rfl, rfl, hq ▸ hstart.symm⟩
            | succ j =>
                obtain ⟨d', length', hpos', hfinish⟩ := h.straight first List.mem_cons_self
                have hon : v.moved d i ∈ wayPoints first := by
                  have hway : first = (first.1, first.1.moved d' length') := Prod.ext rfl hfinish
                  rw [hway, mem_wayPoints hpos', hstart]
                  exact ⟨0, Nat.zero_le _, (GridPoint.moved_zero _ _).symm⟩
                obtain ⟨-, hends, -⟩ :=
                  h.meet 0 (j + 1) first q (Nat.succ_pos j) rfl hq _ hon hz'
                have hzero : first.1.moved d' 0 = first.1.moved d' length' := by
                  rw [GridPoint.moved_zero, ← hfinish, ← hends, hstart]
                exact absurd (GridPoint.moved_inj hzero) hpos'.ne
    | succ i =>
        rw [List.getElem?_cons_succ] at hp
        obtain ⟨hj, hends⟩ := h.meet i j p q (Nat.lt_of_succ_lt_succ hij) hp hq z hz hz'
        exact ⟨congrArg Nat.succ hj, hends⟩

/-- The first of the ways starts at the first vertex. -/
theorem head_waysBetween {v : GridPoint} {vertices : List GridPoint} :
    ∀ way ∈ (waysBetween (v :: vertices)).head?, way.1 = v := by
  intro way hway
  cases vertices with
  | nil => cases hway
  | cons w rest =>
      have heq : some (v, w) = some way := hway
      rw [← Option.some.inj heq]

/-- **The ways between the corners cover what was gone since the last corner, and the rest.**  The
induction is on the points that are still to be read. -/
theorem joined_corners {v a : GridPoint} {d : Direction} {length : Nat} (hpos : 0 < length)
    (ha : a = v.moved d length) {rest : List GridPoint}
    (hsteps : (a :: rest).IsChain fun a b => ∃ d, b = a.moved d) (hnodup : (a :: rest).Nodup)
    (hfresh : ∀ i < length, v.moved d i ∉ a :: rest) :
    Joined (waysBetween (v :: (corners d (a :: rest) ++
        [(a :: rest).getLast (List.cons_ne_nil _ _)])))
      ((List.range length).map (v.moved d ·) ++ a :: rest) := by
  induction rest generalizing v a d length with
  | nil =>
      subst ha
      exact joined_single v d hpos
  | cons b rest ih =>
      rw [List.isChain_cons_cons] at hsteps
      obtain ⟨⟨d', rfl⟩, hsteps⟩ := hsteps
      rw [List.nodup_cons] at hnodup
      obtain ⟨hnew, hnodup⟩ := hnodup
      rw [corners, directionIndex_moved, List.getLast_cons (List.cons_ne_nil _ _)]
      by_cases hturn : d' = d
      · -- straight on
        subst hturn
        rw [if_neg (not_not.mpr rfl)]
        have hmoved : a.moved d' = v.moved d' (length + 1) := by
          rw [ha, GridPoint.moved_add]
        have hpoints : (List.range length).map (v.moved d' ·) ++ a :: a.moved d' :: rest =
            (List.range (length + 1)).map (v.moved d' ·) ++ a.moved d' :: rest := by
          rw [List.range_succ, List.map_append, List.map_singleton, ← ha, List.append_assoc,
            List.singleton_append]
        rw [hpoints]
        refine ih (Nat.succ_pos _) hmoved hsteps hnodup fun i hi hmem => ?_
        rcases (Nat.lt_succ_iff.mp hi).lt_or_eq with hlt | rfl
        · exact hfresh i hlt (List.mem_cons_of_mem _ hmem)
        · exact hnew (ha ▸ hmem)
      · -- a corner
        rw [if_pos hturn]
        have hrest := ih Nat.one_pos rfl hsteps hnodup fun i hi hmem => by
          rw [Nat.lt_one_iff.mp hi, GridPoint.moved_zero] at hmem
          exact hnew hmem
        have hone : (List.range 1).map (a.moved d' ·) ++ a.moved d' :: rest =
            a :: a.moved d' :: rest := by
          rw [List.range_one, List.map_singleton, GridPoint.moved_zero, List.singleton_append]
        rw [hone] at hrest
        subst ha
        exact hrest.cons hpos head_waysBetween hfresh

theorem joined_path {first second : GridPoint} {rest : List GridPoint}
    (hsteps : (first :: second :: rest).IsChain fun a b => ∃ d, b = a.moved d)
    (hnodup : (first :: second :: rest).Nodup) :
    Joined (waysBetween (pathVertices first second rest)) (first :: second :: rest) := by
  rw [List.isChain_cons_cons] at hsteps
  obtain ⟨⟨d, rfl⟩, hsteps⟩ := hsteps
  rw [List.nodup_cons] at hnodup
  have hjoined := joined_corners Nat.one_pos rfl hsteps hnodup.2 fun i hi hmem => by
    rw [Nat.lt_one_iff.mp hi, GridPoint.moved_zero] at hmem
    exact hnodup.1 hmem
  rw [List.range_one, List.map_singleton, GridPoint.moved_zero, List.singleton_append] at hjoined
  unfold pathVertices
  rw [directionIndex_moved]
  exact hjoined

/-! ### Identifiers of wires -/

theorem strip_of_no_space {value : String} (h : value.toList.any Text.isSpace = false) :
    Text.strip value = value := by
  have hnone : ∀ c ∈ value.toList, ¬ Text.isSpace c = true := by
    intro c hc hspace
    rw [List.any_eq_false] at h
    exact h c hc hspace
  have hfront : value.toList.dropWhile Text.isSpace = value.toList :=
    List.dropWhile_eq_self_iff.mpr fun hlength => hnone _ (List.getElem_mem hlength)
  have hback : value.toList.rdropWhile Text.isSpace = value.toList :=
    List.rdropWhile_eq_self_iff.mpr fun hne => hnone _ (List.getLast_mem hne)
  unfold Text.strip
  rw [hfront, hback, String.ofList_toList]

theorem isId_iff {value : String} : IsId value ↔ value.toList.any Text.isSpace = false :=
  ⟨fun h => h.2, fun h => ⟨(strip_of_no_space h).symm, h⟩⟩

theorem digit_plain {n : Nat} {c : Char} (h : c ∈ (toString n).toList) :
    Text.isSpace c = false ∧ 32 ≤ c.toNat := by
  have hdigit : c.isDigit = true := by
    rw [show (toString n).toList = (Nat.repr n).toList from rfl, Nat.toList_repr] at h
    exact Nat.isDigit_of_mem_toDigits (by decide) (by decide) h
  have hrange : 48 ≤ c.toNat ∧ c.toNat ≤ 57 := by
    unfold Char.isDigit at hdigit
    rw [Bool.and_eq_true, decide_eq_true_eq, decide_eq_true_eq] at hdigit
    exact hdigit
  refine ⟨?_, by omega⟩
  unfold Text.isSpace
  simp only [Bool.or_eq_false_iff, Bool.and_eq_false_iff, decide_eq_false_iff_not, beq_eq_false_iff_ne]
  omega

theorem wireId_valid {routeId : String} (h : IsText routeId ∧ IsId routeId) (ordinal : Nat) :
    IsText (wireId routeId ordinal) ∧ IsId (wireId routeId ordinal) := by
  have hplain : ∀ c ∈ (wireId routeId ordinal).toList, Text.isSpace c = false ∧ 32 ≤ c.toNat := by
    intro c hc
    unfold wireId at hc
    rw [String.toList_append, String.toList_append, String.toList_append, List.mem_append,
      List.mem_append, List.mem_append] at hc
    rcases hc with ((hc | hc) | hc) | hc
    · have hall : "wire:".toList.all (fun c => !Text.isSpace c && decide (32 ≤ c.toNat)) = true := by
        decide
      simpa using List.all_eq_true.mp hall c hc
    · exact ⟨by simpa using List.any_eq_false.mp h.2.2 c hc, h.1.2 c hc⟩
    · have hall : ":".toList.all (fun c => !Text.isSpace c && decide (32 ≤ c.toNat)) = true := by
        decide
      simpa using List.all_eq_true.mp hall c hc
    · exact digit_plain hc
  refine ⟨⟨?_, fun c hc => (hplain c hc).2⟩, isId_iff.mpr ?_⟩
  · unfold Text.isBlank
    rw [List.all_eq_false]
    have hmem : 'w' ∈ (wireId routeId ordinal).toList := by
      unfold wireId
      simp only [String.toList_append, List.mem_append]
      exact Or.inl (Or.inl (Or.inl (by decide)))
    exact ⟨'w', hmem, by decide⟩
  · rw [List.any_eq_false]
    intro c hc
    rw [(hplain c hc).1]
    exact Bool.false_ne_true

/-! ### Wires -/

/-- Wires over the points of a path. -/
structure Covers (segments : List WireSegment) (path : List GridPoint) : Prop where
  points : ∀ z, z ∈ path ↔ ∃ segment ∈ segments, z ∈ segmentPoints segment
  orthogonal : ∀ segment ∈ segments, segment.start ≠ segment.finish ∧
    (segment.start.x = segment.finish.x ∨ segment.start.y = segment.finish.y)
  linked : ∀ i s t, segments[i]? = some s → segments[i + 1]? = some t → s.finish = t.start
  meet : ∀ i j s t, i < j → segments[i]? = some s → segments[j]? = some t →
    ∀ z, z ∈ segmentPoints s → z ∈ segmentPoints t → j = i + 1 ∧ z = s.finish ∧ z = t.start

def wireOf (routeId netId : String) (entry : (GridPoint × GridPoint) × Nat) : WireSegment :=
  ⟨wireId routeId entry.2, routeId, netId, entry.2, entry.1.1, entry.1.2⟩

theorem moved_orthogonal {v w : GridPoint} {d : Direction} {length : Nat} (hpos : 0 < length)
    (h : w = v.moved d length) : v ≠ w ∧ (v.x = w.x ∨ v.y = w.y) := by
  constructor
  · intro heq
    have hzero : v.moved d 0 = v.moved d length := (GridPoint.moved_zero _ _).trans (heq.trans h)
    exact absurd (GridPoint.moved_inj hzero) hpos.ne
  · obtain ⟨hx, hy⟩ := GridPoint.eq_moved_iff.mp h
    cases d <;> simp only [Direction.offset] at hx hy <;> omega

theorem wireOf_accepted {routeId netId : String} (hroute : IsText routeId ∧ IsId routeId)
    (hnet : IsText netId ∧ IsId netId) {entry : (GridPoint × GridPoint) × Nat}
    (hstraight : ∃ d length, 0 < length ∧ entry.1.2 = entry.1.1.moved d length) :
    WireSegment.postInit (wireOf routeId netId entry) = .ok (wireOf routeId netId entry) := by
  obtain ⟨d, length, hpos, hfinish⟩ := hstraight
  refine checking_ok.mpr ⟨?_, rfl⟩
  unfold WireSegment.checks
  simp only [bind_ok, exists_unit, require_ok, requireId_ok]
  exact ⟨wireId_valid hroute _, hroute, hnet, moved_orthogonal hpos hfinish, rfl⟩

theorem Joined.covers {ways : List (GridPoint × GridPoint)} {path : List GridPoint}
    (h : Joined ways path) (routeId netId : String) :
    Covers (ways.zipIdx.map (wireOf routeId netId)) path := by
  have hget : ∀ (i : Nat) (s : WireSegment),
      (ways.zipIdx.map (wireOf routeId netId))[i]? = some s →
      ∃ way, ways[i]? = some way ∧ s.start = way.1 ∧ s.finish = way.2 := by
    intro i s hs
    rw [List.getElem?_map, List.getElem?_zipIdx] at hs
    cases hway : ways[i]? with
    | none => rw [hway] at hs; cases hs
    | some way =>
        rw [hway, Option.map_some, Option.map_some, Option.some.injEq] at hs
        exact ⟨way, rfl, by rw [← hs]; rfl, by rw [← hs]; rfl⟩
  have hpoints : ∀ (s : WireSegment) (way : GridPoint × GridPoint), s.start = way.1 →
      s.finish = way.2 → segmentPoints s = wayPoints way := by
    intro s way hstart hfinish
    unfold wayPoints segmentPoints
    rw [hstart, hfinish]
  constructor
  case points =>
    intro z
    rw [h.points]
    constructor
    · rintro ⟨way, hway, hz⟩
      obtain ⟨i, hi⟩ := List.mem_iff_getElem?.mp hway
      refine ⟨wireOf routeId netId (way, i), List.mem_map_of_mem ?_, hz⟩
      exact List.mem_zipIdx_iff_getElem?.mpr hi
    · rintro ⟨s, hs, hz⟩
      obtain ⟨i, hi⟩ := List.mem_iff_getElem?.mp hs
      obtain ⟨way, hway, hstart, hfinish⟩ := hget i s hi
      exact ⟨way, List.mem_of_getElem? hway, hpoints s way hstart hfinish ▸ hz⟩
  case orthogonal =>
    intro s hs
    obtain ⟨i, hi⟩ := List.mem_iff_getElem?.mp hs
    obtain ⟨way, hway, hstart, hfinish⟩ := hget i s hi
    obtain ⟨d, length, hpos, hmoved⟩ := h.straight way (List.mem_of_getElem? hway)
    rw [hstart, hfinish]
    exact moved_orthogonal hpos hmoved
  case linked =>
    intro i s t hs ht
    obtain ⟨p, hp, -, hfinish⟩ := hget i s hs
    obtain ⟨q, hq, hstart, -⟩ := hget (i + 1) t ht
    rw [hfinish, hstart]
    exact h.linked i p q hp hq
  case meet =>
    intro i j s t hij hs ht z hz hz'
    obtain ⟨p, hp, hstart, hfinish⟩ := hget i s hs
    obtain ⟨q, hq, hstart', hfinish'⟩ := hget j t ht
    rw [hpoints s p hstart hfinish] at hz
    rw [hpoints t q hstart' hfinish'] at hz'
    rw [hfinish, hstart']
    exact h.meet i j p q hij hp hq z hz hz'

/-- **A path of two points or more is covered by its wires.** -/
theorem compressPath_covers {path : List GridPoint} {routeId netId : String}
    (hroute : IsText routeId ∧ IsId routeId) (hnet : IsText netId ∧ IsId netId)
    (hlength : 2 ≤ path.length) (hsteps : path.IsChain fun a b => ∃ d, b = a.moved d)
    (hnodup : path.Nodup) :
    ∃ segments, compressPath path routeId netId = .ok segments ∧ Covers segments path := by
  match path, hlength with
  | first :: second :: rest, _ =>
      have hjoined := joined_path hsteps hnodup
      refine ⟨_, ?_, hjoined.covers routeId netId⟩
      refine mapM_ok.mpr (List.forall₂_map_right_iff.mpr (List.forall₂_same.mpr ?_))
      intro entry hentry
      exact wireOf_accepted hroute hnet
        (hjoined.straight entry.1 (List.mem_of_getElem? (List.mem_zipIdx_iff_getElem?.mp hentry)))

/--
**A route that is found is drawn.**  The search returns, for every request: nothing, or a route,
and the wires of the route cover its points and meet only where one follows the other.  From a
start that is a goal itself the route is that point, and there are no wires.
-/
theorem routes_drawn (r : Request) (routeId netId : String)
    (hroute : IsText routeId ∧ IsId routeId) (hnet : IsText netId ∧ IsId netId) :
    ∃ result, (∃ enough, ∀ fuel ≥ enough, astar fuel r = some result) ∧
      ∀ path, result = some path → Route r path ∧
        ∃ segments, compressPath path routeId netId = .ok segments ∧
          (r.start ∉ r.goals → Covers segments path) ∧
          (r.start ∈ r.goals → path = [r.start] ∧ segments = []) := by
  obtain ⟨result, hreturns, hroutes, hstart⟩ := astar_returns r
  refine ⟨result, hreturns, fun path hpath => ⟨hroutes path hpath, ?_⟩⟩
  have hpathRoute := hroutes path hpath
  by_cases hgoal : r.start ∈ r.goals
  · have hsingle : path = [r.start] := Option.some.inj (hpath.symm.trans (hstart hgoal))
    subst hsingle
    exact ⟨[], rfl, fun h => absurd hgoal h, fun _ => ⟨rfl, rfl⟩⟩
  · obtain ⟨segments, hsegments, hcovers⟩ := compressPath_covers hroute hnet
      (hpathRoute.length hgoal) hpathRoute.steps hpathRoute.distinct
    exact ⟨segments, hsegments, fun _ => hcovers, fun h => absurd h hgoal⟩

/-- A search on an open sheet of four by four. -/
def sampleRequest (goal : GridPoint) : Request where
  start := ⟨0, 0⟩
  goals := {goal}
  content := ⟨⟨0, 0⟩, ⟨3, 3⟩, by decide⟩
  static := ∅
  globallyOccupied := ∅
  treePoints := {goal}
  allPinPositions := {⟨0, 0⟩}

theorem routes_drawn_sample :
    ∃ result, (∃ enough, ∀ fuel ≥ enough, astar fuel (sampleRequest ⟨2, 1⟩) = some result) ∧
      ∀ path, result = some path → Route (sampleRequest ⟨2, 1⟩) path ∧
        ∃ segments, compressPath path "route:n" "n" = .ok segments ∧
          ((sampleRequest ⟨2, 1⟩).start ∉ (sampleRequest ⟨2, 1⟩).goals → Covers segments path) ∧
          ((sampleRequest ⟨2, 1⟩).start ∈ (sampleRequest ⟨2, 1⟩).goals →
            path = [(sampleRequest ⟨2, 1⟩).start] ∧ segments = []) :=
  routes_drawn (sampleRequest ⟨2, 1⟩) "route:n" "n" (by decide +kernel) (by decide +kernel)

/-- The route from a goal to itself is a point that no wire covers. -/
theorem single_point_uncovered : ∃ path,
    (∀ fuel, astar fuel (sampleRequest ⟨0, 0⟩) = some (some path)) ∧
      compressPath path "route:n" "n" = .ok [] ∧ ¬ Covers [] path := by
  refine ⟨[⟨0, 0⟩], fun fuel => ?_, rfl, fun h => ?_⟩
  · have hsome : (sampleRequest ⟨0, 0⟩).goals ≠ ∅ := Finset.singleton_ne_empty _
    have hgoal : (sampleRequest ⟨0, 0⟩).start ∈ (sampleRequest ⟨0, 0⟩).goals :=
      Finset.mem_singleton_self _
    unfold astar
    rw [if_neg hsome, if_pos hgoal]
    rfl
  · obtain ⟨segment, hsegment, -⟩ := (h.points ⟨0, 0⟩).mp (List.mem_singleton_self _)
    cases hsegment

end Evleda.HumanSchematic
