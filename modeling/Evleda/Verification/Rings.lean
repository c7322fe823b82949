/-
Annular rings.

The rules compare the extents of the copper with those of the drill along the two axes,
exchanged at odd quarter turns.  That is the least distance of the two boundaries: a
drill is a stadium, and thickened by what the lesser axis leaves it still fits into the
copper, be that a disk, a stadium or a box.

The rule for pads leaves a drill that reaches the edge of the copper to the rule on the
topology of pads; the rule for vias does not.
-/
import Evleda.Verification.Copper
import Evleda.Lib.Stadium

namespace Evleda.Verification

open Plane

/-! ### The rules -/

namespace MinimumViaAnnularRingRule

def viaFinding (minimum : Nat) (via : Via) : Option FindingDraft :=
  if via.diameterNm - via.drillNm < 2 * minimum then
    some {
      message := "Via " ++ via.viaId ++ " annular ring is below " ++ toString minimum ++ " nm"
      entities := [⟨"via", via.viaId⟩]
      evidence := [
        ⟨"diameter_minus_drill_nm", .integer (via.diameterNm - via.drillNm)⟩,
        ⟨"actual_annular_ring_numerator_nm", .integer (via.diameterNm - via.drillNm)⟩,
        ⟨"actual_annular_ring_denominator", .integer 2⟩,
        ⟨"required_diameter_minus_drill_nm", .integer (2 * minimum)⟩] }
  else none

/-- `MinimumViaAnnularRingRule.evaluate`, with `minimum_annular_ring_nm` -/
def evaluate (board : BoardGraph) (minimum : Nat) : List FindingDraft :=
  board.vias.filterMap (viaFinding minimum)

end MinimumViaAnnularRingRule

namespace MinimumPadAnnularRingRule

def padFinding (minimum : Nat) (pad : PhysicalPad) : Option FindingDraft :=
  let drill := drillDimensions pad.drillNm pad.drillXNm pad.drillYNm
  if drill.1 ≤ 0 ∨ drill.2 ≤ 0 then none
  else
    let copper := quadrantDimensions pad.sizeXNm pad.sizeYNm pad.rotationUdeg
    let boardDrill := quadrantDimensions drill.1 drill.2 pad.drillRotationUdeg
    let limitingDifference := min (copper.1 - boardDrill.1) (copper.2 - boardDrill.2)
    if limitingDifference ≤ 0 ∨ 2 * minimum ≤ limitingDifference then none
    else some {
      message := "Pad " ++ pad.padId ++ " annular ring is below " ++ toString minimum ++ " nm"
      entities := [⟨"pad", pad.padId⟩]
      evidence := [
        ⟨"actual_annular_ring_numerator_nm", .integer limitingDifference⟩,
        ⟨"actual_annular_ring_denominator", .integer 2⟩,
        ⟨"required_annular_ring_nm", .integer minimum⟩,
        ⟨"copper_span_x_nm", .integer copper.1⟩,
        ⟨"copper_span_y_nm", .integer copper.2⟩,
        ⟨"drill_span_x_nm", .integer boardDrill.1⟩,
        ⟨"drill_span_y_nm", .integer boardDrill.2⟩] }

/-- The finding about a pin, on a board without physical pads. -/
def pinFinding (minimum : Nat) (component : Component) (pin : Pin) : Option FindingDraft :=
  let minimumCopperSpan := pin.padDiameterNm
  if pin.padDrillNm ≤ 0 ∨ minimumCopperSpan ≤ pin.padDrillNm ∨
      2 * minimum ≤ minimumCopperSpan - pin.padDrillNm then none
  else some {
    message := "Pad " ++ component.reference ++ "." ++ pin.number ++ " annular ring is below " ++
      toString minimum ++ " nm"
    entities := [⟨"pin", component.componentId ++ ":" ++ pin.number⟩]
    evidence := [
      ⟨"actual_annular_ring_numerator_nm", .integer (minimumCopperSpan - pin.padDrillNm)⟩,
      ⟨"actual_annular_ring_denominator", .integer 2⟩,
      ⟨"required_annular_ring_nm", .integer minimum⟩,
      ⟨"limiting_pad_axis_nm", .integer minimumCopperSpan⟩] }

/-- `MinimumPadAnnularRingRule.evaluate`, with `minimum_annular_ring_nm` -/
def evaluate (board : BoardGraph) (minimum : Nat) : List FindingDraft :=
  if board.pads ≠ [] then board.pads.filterMap (padFinding minimum)
  else board.components.flatMap fun component =>
    component.pins.filterMap (pinFinding minimum component)

end MinimumPadAnnularRingRule

/-! ### What is there in the plane -/

/-- An angle of millionths of a degree. -/
noncomputable def angle (rotationUdeg : Int) : ℝ := rotationUdeg * (Real.pi / 180000000)

attribute [local instance] two_atLeastTwo in
/-- The copper of a pad: its shape, turned about its centre. -/
noncomputable def PhysicalPad.copper (pad : PhysicalPad) : Set (Point ℝ) :=
  let a : ℝ := pad.sizeXNm / 2
  let b : ℝ := pad.sizeYNm / 2
  let radius : ℝ := (min pad.sizeXNm pad.sizeYNm / 4 : Int)
  turn (exactPoint pad.center) (angle pad.rotationUdeg) '' match pad.shape with
    | .circle => thick {exactPoint pad.center} a
    | .oval => stadium (exactPoint pad.center) a b
    | .rect => around (exactPoint pad.center) a b
    | .roundrect => thick (around (exactPoint pad.center) (a - radius) (b - radius)) radius

/-- The width and the height of the drill of a pad, before it is turned. -/
def PhysicalPad.drillSize (pad : PhysicalPad) : Int × Int :=
  drillDimensions pad.drillNm pad.drillXNm pad.drillYNm

attribute [local instance] two_atLeastTwo in
/-- The drill of a pad, turned about its centre. -/
noncomputable def PhysicalPad.drill  (pad : PhysicalPad) : Set (Point ℝ) :=
  turn (exactPoint pad.center) (angle pad.drillRotationUdeg) ''
    stadium (exactPoint pad.center) (pad.drillSize.1 / 2) (pad.drillSize.2 / 2)

attribute [local instance] two_atLeastTwo in
/-- The disk of that diameter. -/
noncomputable def disk (center : PointNm) (diameterNm : Int) : Set (Point ℝ) :=
  thick {exactPoint center} (diameterNm / 2)

/-- The least distance between the boundaries of the drill and the copper. -/
structure RingWidth (drill copper : Set (Point ℝ)) (ρ : ℝ) : Prop where
  nonneg : 0 ≤ ρ
  comesTo : ComesTo (boundary drill) (boundary copper) (ρ ^ 2)

/-- A drilled pad of a shape that the rule is about, with copper and drill at quarter turns. -/
structure PhysicalPad.Supported (pad : PhysicalPad) : Prop where
  size : 0 < pad.sizeXNm ∧ 0 < pad.sizeYNm
  shape : pad.shape ≠ .roundrect
  circle : pad.shape = .circle → pad.sizeXNm = pad.sizeYNm
  turned : pad.rotationUdeg % 90000000 = 0
  drilled : 0 < pad.drillSize.1 ∧ 0 < pad.drillSize.2
  drillTurned : pad.drillRotationUdeg % 90000000 = 0

/-! ### Quarter turns -/

theorem angle_quarter {rotationUdeg : Int} (h : rotationUdeg % 90000000 = 0) :
    angle rotationUdeg = ((rotationUdeg / 90000000 : Int) : ℝ) * (Real.pi / 2) := by
  have hwhole : rotationUdeg = rotationUdeg / 90000000 * 90000000 := by omega
  unfold angle
  rw [hwhole, Int.mul_ediv_cancel _ (by decide)]
  push_cast
  ring

theorem turned_stadium {rotationUdeg : Int} (h : rotationUdeg % 90000000 = 0) (c : Point ℝ)
    (sizeX sizeY : Int) :
    turn c (angle rotationUdeg) '' stadium c (sizeX / 2) (sizeY / 2) =
      stadium c ((quadrantDimensions sizeX sizeY rotationUdeg).1 / 2)
        ((quadrantDimensions sizeX sizeY rotationUdeg).2 / 2) := by
  rw [angle_quarter h, turn_stadium]
  unfold quadrantDimensions
  by_cases heven : rotationUdeg / 90000000 % 2 = 0
  · rw [if_pos heven, if_neg (not_not.mpr heven)]
  · rw [if_neg heven, if_pos heven]

theorem turned_around {rotationUdeg : Int} (h : rotationUdeg % 90000000 = 0) (c : Point ℝ)
    (sizeX sizeY : Int) :
    turn c (angle rotationUdeg) '' around c (sizeX / 2) (sizeY / 2) =
      around c ((quadrantDimensions sizeX sizeY rotationUdeg).1 / 2)
        ((quadrantDimensions sizeX sizeY rotationUdeg).2 / 2) := by
  rw [angle_quarter h, turn_around]
  unfold quadrantDimensions
  by_cases heven : rotationUdeg / 90000000 % 2 = 0
  · rw [if_pos heven, if_neg (not_not.mpr heven)]
  · rw [if_neg heven, if_pos heven]

/-! ### The width of a ring -/

/-- Around a drill that is a stadium, copper that is a stadium or a box leaves what the lesser axis
leaves. -/
theorem ringWidth_of_extents {c : Point ℝ} {a b a' b' : ℝ} (ha : 0 ≤ a) (hb : 0 ≤ b)
    {copper : Set (Point ℝ)} (hcopper : copper = stadium c a' b' ∨ copper = around c a' b')
    (hpos : 0 ≤ a' ∧ 0 ≤ b') (hin : stadium c a b ⊆ copper) :
    RingWidth (stadium c a b) copper (min (a' - a) (b' - b)) := by
  have hspans : Spans copper c a' b' := by
    rcases hcopper with rfl | rfl
    · exact stadium_spans hpos.1 hpos.2
    · exact box_spans hpos.1 hpos.2
  have hdrill : Spans (stadium c a b) c a b := stadium_spans ha hb
  obtain ⟨haa, hbb⟩ := hdrill.mono hspans hin
  have hroom : 0 ≤ min (a' - a) (b' - b) := le_min (by linarith) (by linarith)
  have hfits : a + min (a' - a) (b' - b) ≤ a' ∧ b + min (a' - a) (b' - b) ≤ b' :=
    ⟨by linarith [min_le_left (a' - a) (b' - b)], by linarith [min_le_right (a' - a) (b' - b)]⟩
  refine ⟨hroom, boundary_comesTo hdrill hspans haa hbb ?_⟩
  refine (thick_stadium ha hb hroom).trans ?_
  rcases hcopper with rfl | rfl
  · exact stadium_mono (by linarith) (by linarith) hfits.1 hfits.2
  · exact stadium_subset_box (by linarith) (by linarith) hfits.1 hfits.2

theorem half_nonneg {size : Int} (h : 0 < size) : (0 : ℝ) ≤ size / 2 :=
  div_nonneg (Int.cast_nonneg h.le) two_pos.le

theorem disk_ringWidth {center : PointNm} {drillNm diameterNm : Int} (hdrill : 0 < drillNm)
    (hdiameter : 0 < diameterNm) (hin : disk center drillNm ⊆ disk center diameterNm) :
    RingWidth (disk center drillNm) (disk center diameterNm)
      ((diameterNm - drillNm : Int) / 2) := by
  have hpos : (0 : ℝ) ≤ drillNm / 2 := half_nonneg hdrill
  have hpos' : (0 : ℝ) ≤ diameterNm / 2 := half_nonneg hdiameter
  unfold disk at hin ⊢
  rw [disk_eq_stadium] at hin ⊢
  have hwidth := ringWidth_of_extents hpos hpos (Or.inl (disk_eq_stadium _ _)) ⟨hpos', hpos'⟩ hin
  rw [min_self] at hwidth
  have hhalf : ((diameterNm - drillNm : Int) : ℝ) / 2 = diameterNm / 2 - drillNm / 2 := by
    push_cast
    ring
  rw [hhalf]
  exact hwidth

namespace PhysicalPad.Supported

variable {pad : PhysicalPad} (h : pad.Supported)

include h

theorem drill_eq : pad.drill = stadium (exactPoint pad.center)
    (((quadrantDimensions pad.drillSize.1 pad.drillSize.2 pad.drillRotationUdeg).1 : ℝ) / 2)
    (((quadrantDimensions pad.drillSize.1 pad.drillSize.2 pad.drillRotationUdeg).2 : ℝ) / 2) :=
  turned_stadium h.drillTurned _ _ _

theorem copper_eq : pad.copper = stadium (exactPoint pad.center)
      (((quadrantDimensions pad.sizeXNm pad.sizeYNm pad.rotationUdeg).1 : ℝ) / 2)
      (((quadrantDimensions pad.sizeXNm pad.sizeYNm pad.rotationUdeg).2 : ℝ) / 2) ∨
    pad.copper = around (exactPoint pad.center)
      (((quadrantDimensions pad.sizeXNm pad.sizeYNm pad.rotationUdeg).1 : ℝ) / 2)
      (((quadrantDimensions pad.sizeXNm pad.sizeYNm pad.rotationUdeg).2 : ℝ) / 2) := by
  unfold PhysicalPad.copper
  cases hshape : pad.shape with
  | circle =>
      refine Or.inl ?_
      rw [← turned_stadium h.turned, ← h.circle hshape, ← disk_eq_stadium]
  | oval => exact Or.inl (turned_stadium h.turned _ _ _)
  | rect => exact Or.inr (turned_around h.turned _ _ _)
  | roundrect => exact absurd hshape h.shape

/-- The difference that the rule computes. -/
theorem ringWidth (hin : pad.drill ⊆ pad.copper) : RingWidth pad.drill pad.copper
    ((min ((quadrantDimensions pad.sizeXNm pad.sizeYNm pad.rotationUdeg).1 -
        (quadrantDimensions pad.drillSize.1 pad.drillSize.2 pad.drillRotationUdeg).1)
      ((quadrantDimensions pad.sizeXNm pad.sizeYNm pad.rotationUdeg).2 -
        (quadrantDimensions pad.drillSize.1 pad.drillSize.2 pad.drillRotationUdeg).2) : Int) / 2) := by
  obtain ⟨hx, hy⟩ := quadrantDimensions_pos h.size.1 h.size.2 pad.rotationUdeg
  obtain ⟨hdx, hdy⟩ := quadrantDimensions_pos h.drilled.1 h.drilled.2 pad.drillRotationUdeg
  rw [h.drill_eq] at hin ⊢
  have hwidth := ringWidth_of_extents (half_nonneg hdx) (half_nonneg hdy) h.copper_eq
    ⟨half_nonneg hx, half_nonneg hy⟩ hin
  refine (congrArg (RingWidth _ _) ?_).mpr hwidth
  rw [Int.cast_min, ← min_div_div_right (by norm_num : (0 : ℝ) ≤ 2)]
  push_cast
  rw [sub_div, sub_div]

end PhysicalPad.Supported

/-! ### What the rules report -/

theorem half_lt_iff {difference : Int} {minimum : Nat} :
    (difference : ℝ) / 2 < minimum ↔ difference < 2 * minimum := by
  have hcast : ((2 * minimum : Int) : ℝ) = minimum * 2 := by
    push_cast
    ring
  rw [div_lt_iff₀ two_pos, ← hcast]
  exact Int.cast_lt

theorem half_pos_iff {difference : Int} : (0 : ℝ) < difference / 2 ↔ 0 < difference := by
  rw [lt_div_iff₀ two_pos, zero_mul]
  exact Int.cast_pos

namespace MinimumViaAnnularRingRule

def Reports (board : BoardGraph) (minimum : Nat) (via : Via) : Prop :=
  ∃ finding ∈ evaluate board minimum, viaFinding minimum via = some finding ∧
    finding.entities = [⟨"via", via.viaId⟩]

theorem reports_iff {board : BoardGraph} {minimum : Nat} {via : Via} (hvia : via ∈ board.vias) :
    Reports board minimum via ↔ via.diameterNm - via.drillNm < 2 * minimum := by
  constructor
  · rintro ⟨finding, -, hfinding, -⟩
    by_contra hnot
    unfold viaFinding at hfinding
    rw [if_neg hnot] at hfinding
    exact absurd hfinding (by simp)
  · intro hless
    have hfinding : ∃ finding, viaFinding minimum via = some finding ∧
        finding.entities = [⟨"via", via.viaId⟩] := by
      unfold viaFinding
      rw [if_pos hless]
      exact ⟨_, rfl, rfl⟩
    obtain ⟨finding, hsome, hnames⟩ := hfinding
    exact ⟨finding, List.mem_filterMap.mpr ⟨via, hvia, hsome⟩, hsome, hnames⟩

end MinimumViaAnnularRingRule

namespace MinimumPadAnnularRingRule

def Reports (board : BoardGraph) (minimum : Nat) (pad : PhysicalPad) : Prop :=
  ∃ finding ∈ evaluate board minimum, padFinding minimum pad = some finding ∧
    finding.entities = [⟨"pad", pad.padId⟩]

/-- The rule reports the pad of that pin. -/
def ReportsPin (board : BoardGraph) (minimum : Nat) (component : Component) (pin : Pin) : Prop :=
  ∃ finding ∈ evaluate board minimum, pinFinding minimum component pin = some finding ∧
    finding.entities = [⟨"pin", component.componentId ++ ":" ++ pin.number⟩]

/-- What the lesser axis leaves between the copper and the drill of a pad. -/
def limitingDifference (pad : PhysicalPad) : Int :=
  min ((quadrantDimensions pad.sizeXNm pad.sizeYNm pad.rotationUdeg).1 -
      (quadrantDimensions pad.drillSize.1 pad.drillSize.2 pad.drillRotationUdeg).1)
    ((quadrantDimensions pad.sizeXNm pad.sizeYNm pad.rotationUdeg).2 -
      (quadrantDimensions pad.drillSize.1 pad.drillSize.2 pad.drillRotationUdeg).2)

theorem reports_iff {board : BoardGraph} {minimum : Nat} {pad : PhysicalPad}
    (hpad : pad ∈ board.pads) (hdrilled : 0 < pad.drillSize.1 ∧ 0 < pad.drillSize.2) :
    Reports board minimum pad ↔
      0 < limitingDifference pad ∧ limitingDifference pad < 2 * minimum := by
  have hopen : ¬ ((drillDimensions pad.drillNm pad.drillXNm pad.drillYNm).1 ≤ 0 ∨
      (drillDimensions pad.drillNm pad.drillXNm pad.drillYNm).2 ≤ 0) :=
    not_or.mpr ⟨not_le.mpr hdrilled.1, not_le.mpr hdrilled.2⟩
  constructor
  · rintro ⟨finding, -, hfinding, -⟩
    by_contra hnot
    rw [not_and_or, not_lt, not_lt] at hnot
    unfold limitingDifference PhysicalPad.drillSize at hnot
    unfold padFinding at hfinding
    rw [if_neg hopen] at hfinding
    dsimp only at hfinding
    rw [if_pos hnot] at hfinding
    exact absurd hfinding (by simp)
  · rintro ⟨hsome, hless⟩
    have hshort : ¬ (limitingDifference pad ≤ 0 ∨ 2 * minimum ≤ limitingDifference pad) :=
      not_or.mpr ⟨not_le.mpr hsome, not_le.mpr hless⟩
    unfold limitingDifference PhysicalPad.drillSize at hshort
    have hfinding : ∃ finding, padFinding minimum pad = some finding ∧
        finding.entities = [⟨"pad", pad.padId⟩] := by
      unfold padFinding
      rw [if_neg hopen]
      dsimp only
      rw [if_neg hshort]
      exact ⟨_, rfl, rfl⟩
    obtain ⟨finding, hfound, hnames⟩ := hfinding
    refine ⟨finding, ?_, hfound, hnames⟩
    unfold evaluate
    rw [if_pos (List.ne_nil_of_mem hpad)]
    exact List.mem_filterMap.mpr ⟨pad, hpad, hfound⟩

theorem reportsPin_iff {board : BoardGraph} {minimum : Nat} {component : Component} {pin : Pin}
    (hpads : board.pads = []) (hcomponent : component ∈ board.components)
    (hpin : pin ∈ component.pins) (hdrilled : 0 < pin.padDrillNm) :
    ReportsPin board minimum component pin ↔
      0 < pin.padDiameterNm - pin.padDrillNm ∧
        pin.padDiameterNm - pin.padDrillNm < 2 * minimum := by
  constructor
  · rintro ⟨finding, -, hfinding, -⟩
    by_contra hnot
    have hskip : pin.padDrillNm ≤ 0 ∨ pin.padDiameterNm ≤ pin.padDrillNm ∨
        2 * minimum ≤ pin.padDiameterNm - pin.padDrillNm := by omega
    unfold pinFinding at hfinding
    dsimp only at hfinding
    rw [if_pos hskip] at hfinding
    exact absurd hfinding (by simp)
  · rintro ⟨hsome, hless⟩
    have hkeep : ¬ (pin.padDrillNm ≤ 0 ∨ pin.padDiameterNm ≤ pin.padDrillNm ∨
        2 * minimum ≤ pin.padDiameterNm - pin.padDrillNm) := by omega
    have hfinding : ∃ finding, pinFinding minimum component pin = some finding ∧
        finding.entities = [⟨"pin", component.componentId ++ ":" ++ pin.number⟩] := by
      unfold pinFinding
      dsimp only
      rw [if_neg hkeep]
      exact ⟨_, rfl, rfl⟩
    obtain ⟨finding, hfound, hnames⟩ := hfinding
    refine ⟨finding, ?_, hfound, hnames⟩
    unfold evaluate
    rw [if_neg (not_not.mpr hpads)]
    exact List.mem_flatMap.mpr ⟨component, hcomponent, List.mem_filterMap.mpr ⟨pin, hpin, hfound⟩⟩

end MinimumPadAnnularRingRule

open MinimumPadAnnularRingRule in
/--
**The rules find the thin rings.**  Where the drill lies in the copper, the rule for pads
reports a pad exactly when the least distance of the two boundaries is below the minimum and
the drill does not reach the edge; the rule for vias reports every via below the minimum.
-/
theorem annular_rings (board : BoardGraph) (minimum : Nat) :
    (∀ pad ∈ board.pads, pad.Supported → pad.drill ⊆ pad.copper →
      ∃ ρ, RingWidth pad.drill pad.copper ρ ∧
        (Reports board minimum pad ↔ 0 < ρ ∧ ρ < minimum)) ∧
    (board.pads = [] → ∀ component ∈ board.components, ∀ pin ∈ component.pins,
      ∀ center, pin.padCenter = some center → 0 < pin.padDrillNm → 0 < pin.padDiameterNm →
      disk center pin.padDrillNm ⊆ disk center pin.padDiameterNm →
      ∃ ρ, RingWidth (disk center pin.padDrillNm) (disk center pin.padDiameterNm) ρ ∧
        (ReportsPin board minimum component pin ↔ 0 < ρ ∧ ρ < minimum)) ∧
    ∀ via ∈ board.vias, 0 < via.drillNm → 0 < via.diameterNm →
      disk via.center via.drillNm ⊆ disk via.center via.diameterNm →
      ∃ ρ, RingWidth (disk via.center via.drillNm) (disk via.center via.diameterNm) ρ ∧
        (MinimumViaAnnularRingRule.Reports board minimum via ↔ ρ < minimum) := by
  refine ⟨?_, ?_, ?_⟩
  · intro pad hpad hsupported hin
    refine ⟨_, hsupported.ringWidth hin, ?_⟩
    rw [reports_iff hpad hsupported.drilled]
    exact and_congr half_pos_iff.symm half_lt_iff.symm
  · intro hpads component hcomponent pin hpin center _ hdrill hdiameter hin
    refine ⟨_, disk_ringWidth hdrill hdiameter hin, ?_⟩
    rw [reportsPin_iff hpads hcomponent hpin hdrill]
    exact and_congr half_pos_iff.symm half_lt_iff.symm
  · intro via hvia hdrill hdiameter hin
    refine ⟨_, disk_ringWidth hdrill hdiameter hin, ?_⟩
    rw [MinimumViaAnnularRingRule.reports_iff hvia]
    exact half_lt_iff.symm

/-! ### A drill that reaches the edge -/

/-- A square pad of a tenth of a micrometre, with a round drill of the given width. -/
def squarePad (shape : PadShape) (drillNm : Int) : PhysicalPad where
  padId := "pad-1"
  componentId := "component-1"
  padNumber := "1"
  netId := none
  center := ⟨0, 0⟩
  sizeXNm := 100
  sizeYNm := 100
  shape := shape
  rotationUdeg := 0
  layers := ["F.Cu"]
  drillNm := drillNm

def padBoard (pad : PhysicalPad) : BoardGraph where
  schemaVersion := 3
  designId := "design"
  revision := ""
  layers := ["F.Cu"]
  outline := ⟨[]⟩
  components := []
  nets := []
  tracks := []
  vias := []
  pads := [pad]

theorem squarePad_supported {shape : PadShape} {drillNm : Int} (hshape : shape ≠ .roundrect)
    (hdrill : 0 < drillNm) : (squarePad shape drillNm).Supported where
  size := ⟨(by decide : (0 : Int) < 100), (by decide : (0 : Int) < 100)⟩
  shape := hshape
  circle := fun _ => rfl
  turned := rfl
  drilled := ⟨hdrill, hdrill⟩
  drillTurned := rfl

theorem squarePad_inside {shape : PadShape} {drillNm : Int} (hshape : shape ≠ .roundrect)
    (hdrill : 0 < drillNm) (hfits : drillNm ≤ 100) :
    (squarePad shape drillNm).drill ⊆ (squarePad shape drillNm).copper := by
  have hsupported := squarePad_supported hshape hdrill
  rw [hsupported.drill_eq]
  have hcast : (drillNm : ℝ) / 2 ≤ ((100 : Int) : ℝ) / 2 :=
    div_le_div_of_nonneg_right (Int.cast_le.mpr hfits) two_pos.le
  have hpos := half_nonneg hdrill
  rcases hsupported.copper_eq with heq | heq <;> rw [heq]
  · exact stadium_mono hpos hpos hcast hcast
  · exact stadium_subset_box hpos hpos hcast hcast

/-- A drill of sixty in copper of a hundred leaves a ring of twenty. -/
theorem annular_rings_sample : ∃ ρ,
    RingWidth (squarePad .oval 60).drill (squarePad .oval 60).copper ρ ∧
      (MinimumPadAnnularRingRule.Reports (padBoard (squarePad .oval 60)) 30 (squarePad .oval 60) ↔
        0 < ρ ∧ ρ < (30 : Nat)) :=
  (annular_rings (padBoard (squarePad .oval 60)) 30).1 _ (List.mem_singleton.mpr rfl)
    (squarePad_supported (by decide) (by decide)) (squarePad_inside (by decide) (by decide)
      (by decide))

/-- A drill as wide as the copper leaves no ring, and the rule for pads says nothing. -/
theorem touching_drill_silent :
    (squarePad .rect 100).Supported ∧
      (squarePad .rect 100).drill ⊆ (squarePad .rect 100).copper ∧
      RingWidth (squarePad .rect 100).drill (squarePad .rect 100).copper 0 ∧
      MinimumPadAnnularRingRule.evaluate (padBoard (squarePad .rect 100)) 100000 = [] := by
  have hsupported : (squarePad .rect 100).Supported :=
    squarePad_supported (by decide) (by decide)
  have hinside : (squarePad .rect 100).drill ⊆ (squarePad .rect 100).copper :=
    squarePad_inside (by decide) (by decide) (by decide)
  refine ⟨hsupported, hinside, ?_, by decide +kernel⟩
  have hwidth := hsupported.ringWidth hinside
  have hzero : min ((quadrantDimensions 100 100 0).1 - (quadrantDimensions 100 100 0).1)
      ((quadrantDimensions 100 100 0).2 - (quadrantDimensions 100 100 0).2) = 0 := by decide
  rw [show (0 : ℝ) = ((0 : Int) : ℝ) / 2 by norm_num, ← hzero]
  exact hwidth

end Evleda.Verification
