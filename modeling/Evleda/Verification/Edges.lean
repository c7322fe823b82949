/-
The board-edge rule, and when its silence puts all copper on the board.

A shape whose core is inside the outline, and no nearer to it than half the width of
the shape, is inside with all its points: a straight way from the core would have to
come upon the outline first.  That holds for concave outlines too.  A zone whose
vertices are inside and whose edges keep a distance from the outline is inside as well.

What the rule does not see is the pad of a pin without a net, on a board without physical
pads, a zone that bridges a notch while no clearance is asked for, a slot that is larger
than the diameter written on its hole, a hole without a diameter, and a filled zone whose
outline is defective.  Without these its silence is
what it says.
-/
import Evleda.Verification.Connectivity
import Evleda.Verification.Kernel
import Evleda.Lib.Polygon

namespace Evleda.Verification

open Plane Outcome

/-! ### Outlines as polygons -/

def castEdge {K : Type*} [IntCast K] (edge : PointNm × PointNm) : Point K × Point K :=
  (exactPoint edge.1, exactPoint edge.2)

def realVertices (outline : BoardOutline) : List (Point ℝ) := outline.vertices.map exactPoint

theorem ring_realVertices (outline : BoardOutline) :
    ring (realVertices outline) = (ringEdges outline.vertices).map castEdge := by
  unfold ring realVertices ringEdges
  rw [← List.map_rotate, List.zip_map]
  rfl

theorem outlineEdges_of_three {outline : BoardOutline} (h : 3 ≤ outline.vertices.length) :
    outlineEdges outline = ringEdges outline.vertices :=
  if_neg (by omega)

theorem three_of_sound {outline : BoardOutline} (h : outlineDefects outline = []) :
    3 ≤ outline.vertices.length := by
  unfold outlineDefects at h
  dsimp only at h
  by_contra hfew
  rw [if_pos (by omega)] at h
  cases h

theorem insideAfter_cons {K : Type*} [Field K] [LinearOrder K] {z : Point K} {inside : Bool}
    {edge : PointNm × PointNm} {edges : List (PointNm × PointNm)}
    (hoff : ¬ exactOnSegment z (exactPoint edge.1) (exactPoint edge.2) = true) :
    insideAfter z inside (edge :: edges) =
      insideAfter z (if Crosses z (castEdge edge) then !inside else inside) edges := by
  rw [insideAfter]
  dsimp only
  rw [if_neg hoff]
  by_cases hside : z.y < (exactPoint edge.1 : Point K).y ↔ z.y < (exactPoint edge.2 : Point K).y
  · have hnot : ¬ Crosses z (castEdge edge) := fun h => h.1 hside
    rw [if_neg (not_not.mpr (decide_eq_decide.mpr hside)), if_neg hnot]
  · rw [if_pos (fun h => hside (decide_eq_decide.mp h))]
    congr 1
    exact if_congr ⟨fun hx => ⟨hside, hx⟩, fun h => h.2⟩ rfl rfl

theorem insideAfter_iff {K : Type*} [Field K] [LinearOrder K] [IsStrictOrderedRing K] (z : Point K)
    (inside : Bool) (edges : List (PointNm × PointNm)) :
    insideAfter z inside edges = true ↔
      (∃ e ∈ edges.map castEdge, z ∈ segment e.1 e.2) ∨
        mark (inside = true) + crossings z (edges.map castEdge) = 1 := by
  induction edges generalizing inside with
  | nil =>
      cases inside
      · simp [insideAfter, mark, crossings]
      · simp [insideAfter, mark, crossings]
  | cons edge edges ih =>
      have hsum : crossings z ((edge :: edges).map castEdge) =
          mark (Crosses z (castEdge edge)) + crossings z (edges.map castEdge) := rfl
      rw [hsum, List.map_cons, List.exists_mem_cons_iff]
      by_cases hon : exactOnSegment z (exactPoint edge.1) (exactPoint edge.2) = true
      · rw [insideAfter, if_pos hon]
        exact iff_of_true rfl (Or.inl (Or.inl (exactOnSegment_iff.mp hon)))
      · have hoff : ¬ z ∈ segment (castEdge (K := K) edge).1 (castEdge edge).2 := fun h =>
          hon (exactOnSegment_iff.mpr h)
        rw [insideAfter_cons hon, ih, or_iff_right hoff]
        have htoggle : mark ((if Crosses z (castEdge edge) then !inside else inside) = true) =
            mark (inside = true) + mark (Crosses z (castEdge edge)) := by
          unfold mark
          by_cases hcross : Crosses z (castEdge edge)
          · cases inside <;> simp [hcross, CharTwo.add_self_eq_zero]
          · cases inside <;> simp [hcross]
        rw [htoggle, add_assoc]

theorem outlineRegion_eq {outline : BoardOutline} (h : 3 ≤ outline.vertices.length) :
    outlineRegion outline = enclosed (realVertices outline) := by
  ext z
  unfold outlineRegion enclosed exactPointInOutline OnRing
  rw [Set.mem_ofPred_eq, Set.mem_ofPred_eq, if_neg (by omega), insideAfter_iff,
    outlineEdges_of_three h, ring_realVertices]
  have hzero : mark (false = true) = 0 := rfl
  rw [hzero, zero_add]

theorem exactOutlineEdges_real (outline : BoardOutline) :
    (exactOutlineEdges outline).map (Prod.map real real) = ring (realVertices outline) := by
  unfold exactOutlineEdges
  rw [List.map_map, ring_realVertices]
  refine List.map_congr_left fun edge _ => ?_
  exact Prod.ext (real_exactPoint edge.1) (real_exactPoint edge.2)

theorem exists_exact_edge {outline : BoardOutline} {e : Point ℝ × Point ℝ}
    (h : e ∈ ring (realVertices outline)) :
    ∃ edge ∈ exactOutlineEdges outline, e = (real edge.1, real edge.2) := by
  rw [← exactOutlineEdges_real] at h
  obtain ⟨edge, hedge, rfl⟩ := List.mem_map.mp h
  exact ⟨edge, hedge, rfl⟩

/-! ### Cores and outlines -/

variable {core : Core ℚ} {outline : BoardOutline}

theorem coreOutlineDistanceSquared_eq (core : Core ℚ) (outline : BoardOutline) :
    coreOutlineDistanceSquared core outline =
      minimumOf ((exactOutlineEdges outline).map fun edge =>
        coreDistanceSquared core (.axis edge.1 edge.2)) := by
  cases core with
  | center point => rfl
  | axis start finish => rfl
  | box corners => rfl

theorem coreOutlineDistanceSquared_le {p u : Point ℝ} {e : Point ℝ × Point ℝ}
    (hp : p ∈ core.real.points) (he : e ∈ ring (realVertices outline))
    (hu : u ∈ segment e.1 e.2) :
    ((coreOutlineDistanceSquared core outline : ℚ) : ℝ) ≤ sqDist p u := by
  obtain ⟨edge, hedge, rfl⟩ := exists_exact_edge he
  have hleast := (core_real_comesTo core (.axis edge.1 edge.2)).least p hp u hu
  refine le_trans (Rat.cast_le.mpr ?_) hleast
  rw [coreOutlineDistanceSquared_eq]
  exact minimumOf_le (List.mem_map_of_mem hedge)

/-- A corner or an end that is inside is inside in the real plane. -/
theorem real_mem_region {p : ExactPoint} (h : exactPointInOutline p outline = true) :
    real p ∈ outlineRegion outline := by
  show exactPointInOutline (real p) outline = true
  rw [exactPointInOutline_real]
  exact h

theorem apart_of_test {a b c d : ExactPoint} (h : exactSegmentsIntersect a b c d = false) :
    ¬ (segment (real a) (real b) ∩ segment (real c) (real d)).Nonempty := by
  rw [← exactSegmentsIntersect_iff, exactSegmentsIntersect_real, h]
  exact Bool.false_ne_true

/-- **A core that the test puts inside is inside with all its points.** -/
theorem core_inside (hthree : 3 ≤ outline.vertices.length)
    (h : coreInsideOutline core outline = true) : core.real.points ⊆ outlineRegion outline := by
  cases core with
  | center point =>
      rintro _ rfl
      exact real_mem_region h
  | axis start finish =>
      unfold coreInsideOutline at h
      dsimp only at h
      rw [Bool.and_eq_true, Bool.and_eq_true, Bool.not_eq_true', List.any_eq_false] at h
      obtain ⟨⟨hstart, -⟩, hapart⟩ := h
      rintro z ⟨t, h0, h1, rfl⟩
      have hin := real_mem_region hstart
      rw [outlineRegion_eq hthree] at hin ⊢
      refine enclosed_of_path hin fun e he => ?_
      obtain ⟨edge, hedge, rfl⟩ := exists_exact_edge he
      rintro ⟨u, hu, s, hs0, hs1, rfl⟩
      refine apart_of_test (Bool.not_eq_true _ ▸ hapart edge hedge) ⟨_, ?_, hu⟩
      exact along_mem_segment (left_mem_segment _ _) ⟨t, h0, h1, rfl⟩ hs0 hs1
  | box corners =>
      unfold coreInsideOutline at h
      dsimp only at h
      rw [Bool.and_eq_true, List.all_eq_true, Bool.not_eq_true', List.any_eq_false] at h
      obtain ⟨hcorners, hapart⟩ := h
      have hhigh : corners.maximum ∈ corners.corners :=
        List.mem_cons_of_mem _ (List.mem_cons_of_mem _ List.mem_cons_self)
      have hcorner := real_mem_region (hcorners _ hhigh)
      rw [outlineRegion_eq hthree] at hcorner ⊢
      refine box_subset_enclosed ⟨corners.real.x_le, corners.real.y_le⟩ hcorner ?_
      rintro u ⟨e, he, hu⟩ hbox hside
      obtain ⟨_, hreal, hon⟩ := corners.real.exists_edge hbox hside
      rw [CoreBox.edges_real] at hreal
      obtain ⟨border, hborder, rfl⟩ := List.mem_map.mp hreal
      obtain ⟨edge, hedge, rfl⟩ := exists_exact_edge he
      have hclear := List.any_eq_false.mp (Bool.not_eq_true _ ▸ hapart border hborder) edge hedge
      exact apart_of_test (Bool.not_eq_true _ ▸ hclear) ⟨u, hon, hu⟩

theorem region_inside {primitive : CopperPrimitive} (hthree : 3 ≤ outline.vertices.length)
    (hinside : coreInsideOutline primitive.core outline = true)
    (hfar : (primitive.widthNm : ℚ) ^ 2 ≤ 4 * coreOutlineDistanceSquared primitive.core outline) :
    primitive.region ⊆ outlineRegion outline := by
  have hcore := core_inside hthree hinside
  rw [outlineRegion_eq hthree] at hcore ⊢
  refine thick_subset_enclosed hcore fun p hp e he u hu => ?_
  have hfar' : (primitive.widthNm : ℝ) ^ 2 ≤
      4 * ((coreOutlineDistanceSquared primitive.core outline : ℚ) : ℝ) := by exact_mod_cast hfar
  have hnear := coreOutlineDistanceSquared_le hp he hu
  calc ((primitive.widthNm : ℝ) / 2) ^ 2 = (primitive.widthNm : ℝ) ^ 2 / 4 := by ring
    _ ≤ ((coreOutlineDistanceSquared primitive.core outline : ℚ) : ℝ) := by linarith
    _ ≤ sqDist p u := hnear

/-- Polygons whose edges the kernel keeps apart have no point of their edges in common. -/
theorem rings_apart {first second : BoardOutline}
    (h : ∀ e ∈ ringEdges first.vertices, ∀ f ∈ ringEdges second.vertices,
      ExactGeometryKernel.segmentsIntersect e.1 e.2 f.1 f.2 = false) :
    ∀ e ∈ ring (realVertices first), ∀ f ∈ ring (realVertices second),
      ¬ (segment e.1 e.2 ∩ segment f.1 f.2).Nonempty := by
  intro e he f hf
  rw [ring_realVertices] at he hf
  obtain ⟨edge, hedge, rfl⟩ := List.mem_map.mp he
  obtain ⟨border, hborder, rfl⟩ := List.mem_map.mp hf
  have hapart := h edge hedge border hborder
  rw [kernel_segmentsIntersect] at hapart
  have hreal := apart_of_test hapart
  simp only [real_exactPoint] at hreal
  exact hreal

theorem zone_inside {zone outline : BoardOutline} (hzone : 3 ≤ zone.vertices.length)
    (houtline : 3 ≤ outline.vertices.length)
    (hvertices : ∀ vertex ∈ zone.vertices, ExactGeometryKernel.pointInOutline vertex outline = true)
    (hapart : ∀ e ∈ outlineEdges zone, ∀ f ∈ outlineEdges outline,
      ExactGeometryKernel.segmentsIntersect e.1 e.2 f.1 f.2 = false) :
    outlineRegion zone ⊆ outlineRegion outline := by
  rw [outlineEdges_of_three hzone, outlineEdges_of_three houtline] at hapart
  rw [outlineRegion_eq hzone, outlineRegion_eq houtline]
  refine polygon_subset_enclosed ?_ ?_ (rings_apart hapart)
  · intro hempty
    have hlength := congrArg List.length hempty
    unfold realVertices at hlength
    rw [List.length_map, List.length_nil] at hlength
    omega
  · intro v hv
    obtain ⟨vertex, hvertex, rfl⟩ := List.mem_map.mp hv
    have hin := real_mem_region ((kernel_pointInOutline _ _).symm.trans (hvertices vertex hvertex))
    rw [outlineRegion_eq houtline, real_exactPoint] at hin
    exact hin

namespace BoardEdgeClearanceRule

/-! ### The rule -/

def edgeEvidence (inside : Bool) (distanceSquared : ℚ) : List EvidenceItem :=
  [⟨"inside_outline", .boolean inside⟩,
    ⟨"boundary_distance_squared_numerator", .integer distanceSquared.num⟩,
    ⟨"boundary_distance_squared_denominator", .integer distanceSquared.den⟩]

/-- The shape is not inside, or nearer to the outline than half of what is required. -/
def TooNear (primitive : CopperPrimitive) (outline : BoardOutline) (requiredDoubled : Int) : Prop :=
  coreInsideOutline primitive.core outline = false ∨
    4 * coreOutlineDistanceSquared primitive.core outline < (requiredDoubled : ℚ) ^ 2

instance (primitive : CopperPrimitive) (outline : BoardOutline) (requiredDoubled : Int) :
    Decidable (TooNear primitive outline requiredDoubled) := inferInstanceAs (Decidable (_ ∨ _))

def copperFinding (board : BoardGraph) (clearance : Nat) (primitive : CopperPrimitive) :
    Option FindingDraft :=
  let requiredDoubled := primitive.widthNm + 2 * (clearance : Int)
  if TooNear primitive board.outline requiredDoubled then
    some {
      message := primitive.primitiveId ++ " violates board-edge clearance"
      entities := [primitive.entity, ⟨"outline", board.designId⟩]
      evidence := edgeEvidence (coreInsideOutline primitive.core board.outline)
        (coreOutlineDistanceSquared primitive.core board.outline) ++
          [⟨"required_center_distance_doubled_nm", .integer requiredDoubled⟩] }
  else none

/-- What is required of a hole is computed from the diameter that is written on it. -/
def holeFinding (board : BoardGraph) (clearance : Nat) (hole : Hole) (shape : CopperPrimitive) :
    Option FindingDraft :=
  let requiredDoubled := hole.diameterNm + 2 * (clearance : Int)
  if TooNear shape board.outline requiredDoubled then
    some {
      message := "NPTH " ++ hole.holeId ++ " violates board-edge clearance"
      entities := [⟨"hole", hole.holeId⟩, ⟨"outline", board.designId⟩]
      evidence := edgeEvidence (coreInsideOutline shape.core board.outline)
        (coreOutlineDistanceSquared shape.core board.outline) ++
          [⟨"required_center_distance_doubled_nm", .integer requiredDoubled⟩] }
  else none

def holeFindings (board : BoardGraph) (clearance : Nat) :
    List Hole → Except String (List FindingDraft)
  | [] => .ok []
  | hole :: holes =>
      if hole.plated ∨ hole.diameterNm ≤ 0 then holeFindings board clearance holes
      else
        holePrimitive hole board.layers >>= fun shape =>
          holeFindings board clearance holes >>= fun rest =>
            .ok ((holeFinding board clearance hole shape).toList ++ rest)

def zoneInside (board : BoardGraph) (zone : Zone) : Bool :=
  zone.outline.vertices.all fun vertex =>
    ExactGeometryKernel.pointInOutline vertex board.outline

def zoneFinding (board : BoardGraph) (clearance : Nat) (zone : Zone) : Option FindingDraft :=
  let distanceSquared := minimumOutlinesDistanceSquared zone.outline board.outline
  if zoneInside board zone = false ∨ distanceSquared < (clearance : ℚ) ^ 2 then
    some {
      message := "zone:" ++ zone.zoneId ++ " violates board-edge clearance"
      entities := [⟨"zone", zone.zoneId⟩, ⟨"outline", board.designId⟩]
      evidence := edgeEvidence (zoneInside board zone) distanceSquared ++
        [⟨"required_boundary_clearance_nm", .integer clearance⟩] }
  else none

/-- `BoardEdgeClearanceRule.evaluate`, with `minimum_edge_clearance_nm` -/
def evaluate (board : BoardGraph) (clearance : Nat) : Except String (List FindingDraft) :=
  if outlineDefects board.outline ≠ [] then .ok []
  else do
    let holes ← holeFindings board clearance board.holes
    .ok ((copperPrimitives board).filterMap (copperFinding board clearance) ++ holes ++
      (validZones board).filterMap (zoneFinding board clearance))

/-! ### What its silence says -/

/-- Every pad, track, via, unplated hole and filled zone is in the region of the outline. -/
structure AllInside (board : BoardGraph) : Prop where
  copper : ∀ shape ∈ allCopper board, shape.region ⊆ outlineRegion board.outline
  holes : ∀ hole ∈ board.holes, hole.plated = false → ∀ shape,
    holePrimitive hole board.layers = .ok shape → shape.region ⊆ outlineRegion board.outline
  zones : ∀ zone ∈ board.zones, zone.fillState = .verifiedFilled →
    outlineRegion zone.outline ⊆ outlineRegion board.outline

/-- On a sound outline, silence puts everything inside. -/
def KeepsInside (board : BoardGraph) (clearance : Nat) : Prop :=
  outlineDefects board.outline = [] → evaluate board clearance = .ok [] → AllInside board

/-- Nothing is hidden from the rule: copper that it does not look at is inside, the slots fit the
diameters of their holes with the clearance, the filled zones have sound outlines, and without a
clearance no zone touches the outline. -/
structure NothingHidden (board : BoardGraph) (clearance : Nat) : Prop where
  dropped : ∀ shape ∈ allCopper board,
    (∀ primitive ∈ copperPrimitives board, primitive.region ≠ shape.region) →
      shape.region ⊆ outlineRegion board.outline
  drilled : ∀ hole ∈ board.holes, hole.plated = false → 0 < hole.diameterNm ∧
    0 ≤ min (drillDimensions hole.diameterNm hole.drillXNm hole.drillYNm).1
      (drillDimensions hole.diameterNm hole.drillXNm hole.drillYNm).2 ∧
    min (drillDimensions hole.diameterNm hole.drillXNm hole.drillYNm).1
      (drillDimensions hole.diameterNm hole.drillXNm hole.drillYNm).2 ≤
        hole.diameterNm + 2 * clearance
  sound : ∀ zone ∈ board.zones, zone.fillState = .verifiedFilled → outlineDefects zone.outline = []
  apart : clearance = 0 → ∀ zone ∈ board.zones, zone.fillState = .verifiedFilled →
    ∀ e ∈ outlineEdges zone.outline, ∀ f ∈ outlineEdges board.outline,
      ExactGeometryKernel.segmentsIntersect e.1 e.2 f.1 f.2 = false

variable {board : BoardGraph} {clearance : Nat}

theorem holePrimitive_width {hole : Hole} {layers : List String} {shape : CopperPrimitive}
    (h : holePrimitive hole layers = .ok shape) : shape.widthNm =
      min (drillDimensions hole.diameterNm hole.drillXNm hole.drillYNm).1
        (drillDimensions hole.diameterNm hole.drillXNm hole.drillYNm).2 := by
  unfold holePrimitive at h
  dsimp only at h
  split at h
  · cases h
  · cases h
    unfold quadrantDimensions
    dsimp only
    split
    · exact min_comm _ _
    · rfl

theorem inside_of_quiet {primitive : CopperPrimitive} {outline : BoardOutline}
    {requiredDoubled : Int} (hthree : 3 ≤ outline.vertices.length)
    (hwidth : 0 ≤ primitive.widthNm ∧ primitive.widthNm ≤ requiredDoubled)
    (h : ¬ TooNear primitive outline requiredDoubled) :
    primitive.region ⊆ outlineRegion outline := by
  unfold TooNear at h
  rw [not_or, Bool.not_eq_false, not_lt] at h
  refine region_inside hthree h.1 (le_trans ?_ h.2)
  have hlow : (0 : ℚ) ≤ primitive.widthNm := by exact_mod_cast hwidth.1
  have hhigh : (primitive.widthNm : ℚ) ≤ requiredDoubled := by exact_mod_cast hwidth.2
  exact pow_le_pow_left₀ hlow hhigh 2

theorem holes_inside {holes : List Hole} (hthree : 3 ≤ board.outline.vertices.length)
    (h : holeFindings board clearance holes = .ok []) {hole : Hole} (hmem : hole ∈ holes)
    (hkept : ¬ (hole.plated = true ∨ hole.diameterNm ≤ 0)) {shape : CopperPrimitive}
    (hshape : holePrimitive hole board.layers = .ok shape)
    (hwidth : 0 ≤ shape.widthNm ∧ shape.widthNm ≤ hole.diameterNm + 2 * (clearance : Int)) :
    shape.region ⊆ outlineRegion board.outline := by
  induction holes with
  | nil => exact absurd hmem List.not_mem_nil
  | cons other holes ih =>
      unfold holeFindings at h
      by_cases hskipped : other.plated = true ∨ other.diameterNm ≤ 0
      · rw [if_pos hskipped] at h
        rcases List.mem_cons.mp hmem with rfl | hmem
        · exact absurd hskipped hkept
        · exact ih h hmem
      · rw [if_neg hskipped] at h
        obtain ⟨shape', hshape', h⟩ := bind_ok.mp h
        obtain ⟨rest, hrest, h⟩ := bind_ok.mp h
        obtain ⟨hquiet, rfl⟩ := List.append_eq_nil_iff.mp (Except.ok.inj h)
        rcases List.mem_cons.mp hmem with rfl | hmem
        · rw [hshape] at hshape'
          cases hshape'
          unfold holeFinding at hquiet
          dsimp only at hquiet
          split at hquiet
          · cases hquiet
          · rename_i hnear
            exact inside_of_quiet hthree hwidth hnear
        · exact ih hrest hmem

/--
**Where nothing is hidden, silence puts all copper on the board.**  Every point of the
real plane that belongs to a shape, a hole or a filled zone belongs to the region of the
outline, however concave it is.
-/
theorem keepsInside_of_nothingHidden (h : NothingHidden board clearance) :
    KeepsInside board clearance := by
  intro hsound hquiet
  have hthree := three_of_sound hsound
  unfold evaluate at hquiet
  rw [if_neg (not_not.mpr hsound)] at hquiet
  obtain ⟨holes, hholes, hempty⟩ := bind_ok.mp hquiet
  have hnil := Except.ok.inj hempty
  rw [List.append_eq_nil_iff, List.append_eq_nil_iff, List.filterMap_eq_nil_iff,
    List.filterMap_eq_nil_iff] at hnil
  obtain ⟨⟨hcopper, rfl⟩, hzones⟩ := hnil
  constructor
  · intro shape hmem
    by_cases hleft : ∀ primitive ∈ copperPrimitives board, primitive.region ≠ shape.region
    · exact h.dropped shape hmem hleft
    · push Not at hleft
      obtain ⟨primitive, hprimitive, hregion⟩ := hleft
      have hwidth := copperPrimitives_width hprimitive
      have hthis := hcopper primitive hprimitive
      unfold copperFinding at hthis
      dsimp only at hthis
      split at hthis
      · cases hthis
      · rename_i hnear
        rw [← hregion]
        exact inside_of_quiet hthree ⟨hwidth, by omega⟩ hnear
  · intro hole hmem hplated shape hshape
    obtain ⟨hdiameter, hlow, hhigh⟩ := h.drilled hole hmem hplated
    rw [← holePrimitive_width hshape] at hlow hhigh
    refine holes_inside hthree hholes hmem ?_ hshape ⟨hlow, hhigh⟩
    rw [hplated, not_or]
    exact ⟨Bool.false_ne_true, not_le.mpr hdiameter⟩
  · intro zone hmem hfilled
    have hzone := h.sound zone hmem hfilled
    have hvalid : zone ∈ validZones board :=
      List.mem_filter.mpr ⟨hmem, decide_eq_true ⟨hfilled, hzone⟩⟩
    have hthis := hzones zone hvalid
    unfold zoneFinding at hthis
    dsimp only at hthis
    split at hthis
    · cases hthis
    · rename_i hnear
      rw [not_or, Bool.not_eq_false, not_lt] at hnear
      obtain ⟨hinside, hfar⟩ := hnear
      refine zone_inside (three_of_sound hzone) hthree (List.all_eq_true.mp hinside) ?_
      intro e he f hf
      rcases Nat.eq_zero_or_pos clearance with hzero | hpos
      · exact h.apart hzero zone hmem hfilled e he f hf
      · -- edges that meet would be at no distance
        by_contra hmeet
        have hdistance : ExactGeometryKernel.segmentDistanceSquared e.1 e.2 f.1 f.2 = 0 :=
          if_pos (Bool.eq_true_of_not_eq_false hmeet)
        have hle : minimumOutlinesDistanceSquared zone.outline board.outline ≤
            ExactGeometryKernel.segmentDistanceSquared e.1 e.2 f.1 f.2 :=
          minimumOf_le (List.mem_flatMap.mpr ⟨e, he, List.mem_map_of_mem hf⟩)
        rw [hdistance] at hle
        have hpos' : (0 : ℚ) < (clearance : ℚ) ^ 2 := by positivity
        linarith

/-- A board with two pin pads, of which one has no net, a track, an unplated slot and a filled zone,
all of them inside. -/
def plainBoard : BoardGraph where
  schemaVersion := 3
  designId := "board"
  revision := ""
  layers := ["F.Cu"]
  outline := ⟨[⟨0, 0⟩, ⟨10000, 0⟩, ⟨10000, 10000⟩, ⟨0, 10000⟩]⟩
  components := [⟨"u", "U1", "", "", "", "", "", [
    { number := "1", name := "", electricalType := .passive, padCenter := some ⟨2000, 2000⟩,
      padDiameterNm := 1000, layers := ["F.Cu"] },
    { number := "2", name := "", electricalType := .passive, padCenter := some ⟨8000, 2000⟩,
      padDiameterNm := 1000, layers := ["F.Cu"] }]⟩]
  nets := [⟨"a", "A", [⟨"u", "1"⟩], false⟩]
  tracks := [⟨"t", "a", "F.Cu", ⟨2000, 2000⟩, ⟨5000, 2000⟩, 500⟩]
  vias := []
  zones := [{
    zoneId := "z", netId := "a", layer := "F.Cu", fillState := .verifiedFilled,
    outline := ⟨[⟨1000, 4000⟩, ⟨9000, 4000⟩, ⟨9000, 6000⟩, ⟨1000, 6000⟩]⟩ }]
  holes := [{
    holeId := "h", componentId := "u", center := ⟨5000, 8000⟩, diameterNm := 800, drillXNm := 1600,
    drillYNm := 800 }]
  pads := []

theorem plainBoard_allInside : AllInside plainBoard := by
  have hsound : outlineDefects plainBoard.outline = [] := by decide +kernel
  have hcopper : ∀ shape ∈ allCopper plainBoard, 0 ≤ shape.widthNm ∧
      ¬ TooNear shape plainBoard.outline shape.widthNm := by decide +kernel
  have hhidden : NothingHidden plainBoard 0 :=
    ⟨fun shape hmem _ => inside_of_quiet (three_of_sound hsound) ⟨(hcopper shape hmem).1, le_rfl⟩
        (hcopper shape hmem).2,
      by decide +kernel, by decide +kernel, fun _ => by decide +kernel⟩
  have hquiet : evaluate plainBoard 0 = .ok [] := by decide +kernel
  exact keepsInside_of_nothingHidden hhidden hsound hquiet

/-- A filled zone from one arm of a board to the other, over the notch between them. -/
def notchedBoard : BoardGraph where
  schemaVersion := 3
  designId := "board"
  revision := ""
  layers := ["F.Cu"]
  outline := ⟨[⟨0, 0⟩, ⟨10000, 0⟩, ⟨10000, 10000⟩, ⟨7000, 10000⟩, ⟨7000, 3000⟩, ⟨3000, 3000⟩,
    ⟨3000, 10000⟩, ⟨0, 10000⟩]⟩
  components := []
  nets := [⟨"a", "A", [], false⟩]
  tracks := []
  vias := []
  zones := [{
    zoneId := "z", netId := "a", layer := "F.Cu", fillState := .verifiedFilled,
    outline := ⟨[⟨1000, 5000⟩, ⟨9000, 5000⟩, ⟨9000, 6000⟩, ⟨1000, 6000⟩]⟩ }]

/-- The rule is silent about the zone, which has points in the middle of the notch. -/
theorem bridging_zone_silent : ¬ KeepsInside notchedBoard 0 := by
  intro h
  have hquiet : evaluate notchedBoard 0 = .ok [] := by decide +kernel
  have hall := h (by decide +kernel) hquiet
  let middle : ExactPoint := ⟨5000, 5500⟩
  have hbridged : (notchedBoard.zones.any fun zone =>
      decide (zone.fillState = .verifiedFilled) && exactPointInOutline middle zone.outline) = true := by
    decide +kernel
  have houtside : exactPointInOutline middle notchedBoard.outline = false := by decide +kernel
  obtain ⟨zone, hzone, hbridge⟩ := List.any_eq_true.mp hbridged
  rw [Bool.and_eq_true, decide_eq_true_eq] at hbridge
  have hin : exactPointInOutline (real middle) notchedBoard.outline = true :=
    hall.zones zone hzone hbridge.1 (real_mem_region hbridge.2)
  rw [exactPointInOutline_real, houtside] at hin
  cases hin

end BoardEdgeClearanceRule

end Evleda.Verification
