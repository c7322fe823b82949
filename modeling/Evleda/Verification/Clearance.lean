/-
The clearance rule, and when it tells every contact.

The rule compares each two shapes on different nets that share a layer, and reports
them when they are nearer than the clearance asks.  Copper that touches is reported
unless one of three things hides it.  With no clearance asked for, the comparison is
strict, so that shapes exactly in contact pass; a straight box has no width, and two
such boxes are in contact however far they overlap.  And shapes that carry the same
text for a net are never compared, though the text may be empty or name no net of the
board.  And there is copper that it does not look at: the pad of a pin without a net, on a
board without physical pads.

Apart from these the rule is right, and the theorem says so in both directions.
-/
import Evleda.Verification.Outlines
import Evleda.Lib.Outcome

namespace Evleda.Verification

open Plane Outcome

namespace MinimumCopperClearanceRule

/-! ### What is reported -/

/-- Twice the distance that the cores of two shapes must keep. -/
def requiredDoubled (clearance : Nat) (first second : CopperPrimitive) : Int :=
  first.widthNm + second.widthNm + 2 * clearance

def sharedEvidence (first second : CopperPrimitive) : List String :=
  sortBy id (sharedLayers first.layers second.layers).dedup

def pairFinding (clearance : Nat) (first second : CopperPrimitive) : FindingDraft where
  message := "Copper clearance violation between " ++ first.primitiveId ++ " and " ++
    second.primitiveId
  entities := [first.entity, second.entity]
  evidence := [
    ⟨"first_net_id", .text first.netId⟩,
    ⟨"second_net_id", .text second.netId⟩,
    ⟨"shared_layers", .texts (sharedEvidence first second)⟩,
    ⟨"center_distance_squared_numerator", .integer (distanceSquared first second).num⟩,
    ⟨"center_distance_squared_denominator", .integer (distanceSquared first second).den⟩,
    ⟨"required_center_distance_doubled_nm", .integer (requiredDoubled clearance first second)⟩]

def holeFinding (clearance : Nat) (hole : Hole) (holePrimitive primitive : CopperPrimitive) :
    FindingDraft where
  message := "Copper clearance violation between " ++ primitive.primitiveId ++ " and NPTH " ++
    hole.holeId
  entities := [primitive.entity, holePrimitive.entity]
  evidence := [
    ⟨"hole_id", .text hole.holeId⟩,
    ⟨"hole_diameter_nm", .integer hole.diameterNm⟩,
    ⟨"copper_net_id", .text primitive.netId⟩,
    ⟨"core_distance_squared_numerator", .integer (distanceSquared holePrimitive primitive).num⟩,
    ⟨"core_distance_squared_denominator", .integer (distanceSquared holePrimitive primitive).den⟩,
    ⟨"required_core_distance_doubled_nm",
      .integer (requiredDoubled clearance holePrimitive primitive)⟩]

/-- What a shape and a zone must keep, doubled. -/
def zoneRequiredDoubled (clearance : Nat) (primitive : CopperPrimitive) (zone : Zone) : Int :=
  primitive.widthNm + 2 * max (clearance : Int) zone.clearanceNm

def zoneFinding (clearance : Nat) (primitive : CopperPrimitive) (zone : Zone) : FindingDraft where
  message := "Copper clearance violation between " ++ primitive.primitiveId ++ " and zone:" ++
    zone.zoneId
  entities := [primitive.entity, ⟨"zone", zone.zoneId⟩]
  evidence := [
    ⟨"first_net_id", .text primitive.netId⟩,
    ⟨"second_net_id", .text zone.netId⟩,
    ⟨"shared_layers", .texts [zone.layer]⟩,
    ⟨"boundary_distance_squared_numerator",
      .integer (primitiveZoneDistanceSquared primitive zone).1.num⟩,
    ⟨"boundary_distance_squared_denominator",
      .integer (primitiveZoneDistanceSquared primitive zone).1.den⟩,
    ⟨"required_center_distance_doubled_nm",
      .integer (zoneRequiredDoubled clearance primitive zone)⟩,
    ⟨"copper_overlaps_zone", .boolean (primitiveZoneDistanceSquared primitive zone).2⟩]

def zonePairRequired (clearance : Nat) (first second : Zone) : Int :=
  max (max (clearance : Int) first.clearanceNm) second.clearanceNm

def zonePairFinding (clearance : Nat) (first second : Zone) : FindingDraft where
  message := "Copper clearance violation between zone:" ++ first.zoneId ++ " and zone:" ++
    second.zoneId
  entities := [⟨"zone", first.zoneId⟩, ⟨"zone", second.zoneId⟩]
  evidence := [
    ⟨"first_net_id", .text first.netId⟩,
    ⟨"second_net_id", .text second.netId⟩,
    ⟨"shared_layers", .texts [first.layer]⟩,
    ⟨"boundary_distance_squared_numerator",
      .integer (minimumOutlinesDistanceSquared first.outline second.outline).num⟩,
    ⟨"boundary_distance_squared_denominator",
      .integer (minimumOutlinesDistanceSquared first.outline second.outline).den⟩,
    ⟨"required_clearance_nm", .integer (zonePairRequired clearance first second)⟩,
    ⟨"zones_overlap", .boolean (outlinesOverlap first.outline second.outline)⟩]

/-! ### The rule -/

/-- The cores are nearer than the shapes may be. -/
def TooNear (clearance : Nat) (first second : CopperPrimitive) : Prop :=
  4 * distanceSquared first second < (requiredDoubled clearance first second : ℚ) ^ 2

instance (clearance : Nat) (first second : CopperPrimitive) :
    Decidable (TooNear clearance first second) := inferInstanceAs (Decidable (_ < _))

/-- The two are on different nets and share a layer. -/
def Compared (first second : CopperPrimitive) : Prop :=
  first.netId ≠ second.netId ∧ sharedLayers first.layers second.layers ≠ []

instance (first second : CopperPrimitive) : Decidable (Compared first second) :=
  inferInstanceAs (Decidable (_ ∧ _))

/-- The shape and the zone are on different nets and share the layer of the zone. -/
def ZoneViolated (clearance : Nat) (primitive : CopperPrimitive) (zone : Zone) : Prop :=
  (primitive.netId ≠ zone.netId ∧ zone.layer ∈ primitive.layers) ∧
    ((primitiveZoneDistanceSquared primitive zone).2 ∨
      4 * (primitiveZoneDistanceSquared primitive zone).1 <
        (zoneRequiredDoubled clearance primitive zone : ℚ) ^ 2)

instance (clearance : Nat) (primitive : CopperPrimitive) (zone : Zone) :
    Decidable (ZoneViolated clearance primitive zone) := inferInstanceAs (Decidable (_ ∧ _))

def ZonePairViolated (clearance : Nat) (first second : Zone) : Prop :=
  (first.netId ≠ second.netId ∧ first.layer = second.layer) ∧
    (outlinesOverlap first.outline second.outline ∨
      minimumOutlinesDistanceSquared first.outline second.outline <
        (zonePairRequired clearance first second : ℚ) ^ 2)

instance (clearance : Nat) (first second : Zone) : Decidable (ZonePairViolated clearance first second) :=
  inferInstanceAs (Decidable (_ ∧ _))

def pairFindings (clearance : Nat) (primitives : List CopperPrimitive) : List FindingDraft :=
  (laterPairs primitives).filterMap fun pair =>
    if Compared pair.1 pair.2 ∧ TooNear clearance pair.1 pair.2 then
      some (pairFinding clearance pair.1 pair.2)
    else none

/-- The unplated holes are obstacles on every layer. -/
def holeFindings (clearance : Nat) (layers : List String) (primitives : List CopperPrimitive) :
    List Hole → Except String (List FindingDraft)
  | [] => .ok []
  | hole :: holes =>
      if hole.plated ∨ hole.diameterNm ≤ 0 then holeFindings clearance layers primitives holes
      else do
        let shape ← holePrimitive hole layers
        let rest ← holeFindings clearance layers primitives holes
        .ok ((primitives.filterMap fun primitive =>
          if TooNear clearance shape primitive then some (holeFinding clearance hole shape primitive)
          else none) ++ rest)

def zoneFindings (clearance : Nat) (primitives : List CopperPrimitive) (zones : List Zone) :
    List FindingDraft :=
  zones.flatMap fun zone => primitives.filterMap fun primitive =>
    if ZoneViolated clearance primitive zone then some (zoneFinding clearance primitive zone)
    else none

def zonePairFindings (clearance : Nat) (zones : List Zone) : List FindingDraft :=
  (laterPairs zones).filterMap fun pair =>
    if ZonePairViolated clearance pair.1 pair.2 then
      some (zonePairFinding clearance pair.1 pair.2)
    else none

/-- `MinimumCopperClearanceRule.evaluate`, with `minimum_clearance_nm` -/
def evaluate (board : BoardGraph) (clearance : Nat) : Except String (List FindingDraft) := do
  let primitives := copperPrimitives board
  let holes ← holeFindings clearance board.layers primitives board.holes
  let zones := validZones board
  .ok (pairFindings clearance primitives ++ holes ++ zoneFindings clearance primitives zones ++
    zonePairFindings clearance zones)

/-! ### When it has nothing to report -/

/-- Every unplated hole stands at a quarter turn; on others the rule fails closed. -/
def QuarterTurned (board : BoardGraph) : Prop :=
  ∀ hole ∈ board.holes, ¬ (hole.plated = true ∨ hole.diameterNm ≤ 0) →
    hole.drillRotationUdeg % 90000000 = 0

/-- Everything the rule compares keeps its distance. -/
structure Clears (board : BoardGraph) (clearance : Nat) : Prop where
  pairs : ∀ pair ∈ laterPairs (copperPrimitives board), Compared pair.1 pair.2 →
    ¬ TooNear clearance pair.1 pair.2
  holes : ∀ hole ∈ board.holes, ¬ (hole.plated = true ∨ hole.diameterNm ≤ 0) →
    ∃ shape, holePrimitive hole board.layers = .ok shape ∧
      ∀ primitive ∈ copperPrimitives board, ¬ TooNear clearance shape primitive
  zones : ∀ zone ∈ validZones board, ∀ primitive ∈ copperPrimitives board,
    ¬ ZoneViolated clearance primitive zone
  zonePairs : ∀ pair ∈ laterPairs (validZones board), ¬ ZonePairViolated clearance pair.1 pair.2

theorem holePrimitive_ok {hole : Hole} {layers : List String} :
    (∃ shape, holePrimitive hole layers = .ok shape) ↔ hole.drillRotationUdeg % 90000000 = 0 := by
  unfold holePrimitive
  dsimp only
  split
  · rename_i hturned
    constructor
    · rintro ⟨_, h⟩
      cases h
    · intro h
      exact absurd h hturned
  · rename_i hturned
    exact ⟨fun _ => not_not.mp hturned, fun _ => ⟨_, rfl⟩⟩

variable {board : BoardGraph} {clearance : Nat} {layers : List String}
  {primitives : List CopperPrimitive} {holes : List Hole} {findings : List FindingDraft}

theorem holeFindings_cons (hole : Hole) :
    holeFindings clearance layers primitives (hole :: holes) =
      if hole.plated ∨ hole.diameterNm ≤ 0 then holeFindings clearance layers primitives holes
      else
        holePrimitive hole layers >>= fun shape =>
          holeFindings clearance layers primitives holes >>= fun rest =>
            .ok ((primitives.filterMap fun primitive =>
              if TooNear clearance shape primitive then
                some (holeFinding clearance hole shape primitive)
              else none) ++ rest) := rfl

theorem holeFindings_ok : (∃ findings, holeFindings clearance layers primitives holes = .ok findings) ↔
    ∀ hole ∈ holes, ¬ (hole.plated = true ∨ hole.diameterNm ≤ 0) →
      hole.drillRotationUdeg % 90000000 = 0 := by
  induction holes with
  | nil => exact ⟨fun _ hole hmem => absurd hmem List.not_mem_nil, fun _ => ⟨[], rfl⟩⟩
  | cons hole holes ih =>
      rw [List.forall_mem_cons, ← ih, holeFindings_cons]
      split
      · rename_i hskipped
        exact ⟨fun h => ⟨fun hnot => absurd hskipped hnot, h⟩, fun h => h.2⟩
      · rename_i hkept
        have hreadable : (∃ shape, holePrimitive hole layers = .ok shape) ↔ _ := holePrimitive_ok
        rw [← hreadable]
        constructor
        · rintro ⟨findings, h⟩
          obtain ⟨shape, hshape, h⟩ := bind_ok.mp h
          obtain ⟨rest, hrest, -⟩ := bind_ok.mp h
          exact ⟨fun _ => ⟨shape, hshape⟩, rest, hrest⟩
        · rintro ⟨hshape, rest, hrest⟩
          obtain ⟨shape, hshape⟩ := hshape hkept
          exact ⟨_, bind_ok.mpr ⟨shape, hshape, bind_ok.mpr ⟨rest, hrest, rfl⟩⟩⟩

theorem filterMap_if_eq_nil {α β : Type*} {items : List α} {P : α → Prop} [DecidablePred P]
    {f : α → β} : (items.filterMap fun a => if P a then some (f a) else none) = [] ↔
      ∀ a ∈ items, ¬ P a := by
  rw [List.filterMap_eq_nil_iff]
  refine forall₂_congr fun a _ => ?_
  split
  · rename_i h
    simp [h]
  · rename_i h
    simp [h]

theorem mem_filterMap_if {α β : Type*} {items : List α} {P : α → Prop} [DecidablePred P]
    {f : α → β} {b : β} : (b ∈ items.filterMap fun a => if P a then some (f a) else none) ↔
      ∃ a ∈ items, P a ∧ f a = b := by
  rw [List.mem_filterMap]
  refine exists_congr fun a => and_congr_right fun _ => ?_
  split
  · rename_i h
    simp [h]
  · rename_i h
    simp [h]

theorem holeFindings_nil : holeFindings clearance layers primitives holes = .ok [] ↔
    ∀ hole ∈ holes, ¬ (hole.plated = true ∨ hole.diameterNm ≤ 0) →
      ∃ shape, holePrimitive hole layers = .ok shape ∧
        ∀ primitive ∈ primitives, ¬ TooNear clearance shape primitive := by
  induction holes with
  | nil => exact ⟨fun _ hole hmem => absurd hmem List.not_mem_nil, fun _ => rfl⟩
  | cons hole holes ih =>
      rw [List.forall_mem_cons, ← ih, holeFindings_cons]
      split
      · rename_i hskipped
        exact ⟨fun h => ⟨fun hnot => absurd hskipped hnot, h⟩, fun h => h.2⟩
      · rename_i hkept
        constructor
        · intro h
          obtain ⟨shape, hshape, h⟩ := bind_ok.mp h
          obtain ⟨rest, hrest, h⟩ := bind_ok.mp h
          obtain ⟨hnear, rfl⟩ := List.append_eq_nil_iff.mp (Except.ok.inj h)
          exact ⟨fun _ => ⟨shape, hshape, filterMap_if_eq_nil.mp hnear⟩, hrest⟩
        · rintro ⟨hclear, hrest⟩
          obtain ⟨shape, hshape, hnear⟩ := hclear hkept
          refine bind_ok.mpr ⟨shape, hshape, bind_ok.mpr ⟨[], hrest, ?_⟩⟩
          rw [filterMap_if_eq_nil.mpr hnear]
          rfl

theorem of_mem_holeFindings (h : holeFindings clearance layers primitives holes = .ok findings)
    {finding : FindingDraft} (hmem : finding ∈ findings) :
    ∃ hole shape primitive, finding = holeFinding clearance hole shape primitive := by
  induction holes generalizing findings with
  | nil =>
      cases h
      exact absurd hmem List.not_mem_nil
  | cons hole holes ih =>
      rw [holeFindings_cons] at h
      split at h
      · exact ih h hmem
      · obtain ⟨shape, -, h⟩ := bind_ok.mp h
        obtain ⟨rest, hrest, h⟩ := bind_ok.mp h
        cases h
        rcases List.mem_append.mp hmem with hmem | hmem
        · obtain ⟨primitive, -, -, hfinding⟩ := mem_filterMap_if.mp hmem
          exact ⟨hole, shape, primitive, hfinding.symm⟩
        · exact ih hrest hmem

theorem evaluate_ok : evaluate board clearance = .ok findings ↔
    ∃ holes, holeFindings clearance board.layers (copperPrimitives board) board.holes = .ok holes ∧
      findings = pairFindings clearance (copperPrimitives board) ++ holes ++
        zoneFindings clearance (copperPrimitives board) (validZones board) ++
        zonePairFindings clearance (validZones board) := by
  unfold evaluate
  rw [bind_ok]
  refine exists_congr fun holes => and_congr_right fun _ => ?_
  rw [Except.ok.injEq, eq_comm]

theorem quarterTurned_iff : QuarterTurned board ↔ ∃ findings, evaluate board clearance = .ok findings := by
  unfold QuarterTurned
  have hreadable : (∃ findings, holeFindings clearance board.layers (copperPrimitives board)
    board.holes = .ok findings) ↔ _ := holeFindings_ok
  rw [← hreadable]
  constructor
  · rintro ⟨holes, hholes⟩
    exact ⟨_, evaluate_ok.mpr ⟨holes, hholes, rfl⟩⟩
  · rintro ⟨findings, h⟩
    obtain ⟨holes, hholes, -⟩ := evaluate_ok.mp h
    exact ⟨holes, hholes⟩

theorem evaluate_nil : evaluate board clearance = .ok [] ↔ Clears board clearance := by
  have hpairs : pairFindings clearance (copperPrimitives board) = [] ↔
      ∀ pair ∈ laterPairs (copperPrimitives board), Compared pair.1 pair.2 →
        ¬ TooNear clearance pair.1 pair.2 := by
    unfold pairFindings
    rw [filterMap_if_eq_nil]
    exact forall₂_congr fun pair _ => not_and
  have hzones : zoneFindings clearance (copperPrimitives board) (validZones board) = [] ↔
      ∀ zone ∈ validZones board, ∀ primitive ∈ copperPrimitives board,
        ¬ ZoneViolated clearance primitive zone := by
    unfold zoneFindings
    rw [List.flatMap_eq_nil_iff]
    exact forall₂_congr fun zone _ => filterMap_if_eq_nil
  have hzonePairs : zonePairFindings clearance (validZones board) = [] ↔
      ∀ pair ∈ laterPairs (validZones board), ¬ ZonePairViolated clearance pair.1 pair.2 := by
    unfold zonePairFindings
    exact filterMap_if_eq_nil
  rw [evaluate_ok]
  constructor
  · rintro ⟨holes, hholes, hempty⟩
    simp only [List.nil_eq, List.append_eq_nil_iff] at hempty
    obtain ⟨⟨⟨hp, rfl⟩, hz⟩, hzp⟩ := hempty
    exact ⟨hpairs.mp hp, holeFindings_nil.mp hholes, hzones.mp hz, hzonePairs.mp hzp⟩
  · intro h
    refine ⟨[], holeFindings_nil.mpr h.holes, ?_⟩
    rw [hpairs.mpr h.pairs, hzones.mpr h.zones, hzonePairs.mpr h.zonePairs]
    rfl

/-! ### What it is for -/

/-- Both shapes are on one net, which the board declares; the empty text is no net. -/
def SameDeclaredNet (board : BoardGraph) (first second : CopperPrimitive) : Prop :=
  first.netId = second.netId ∧ first.netId ≠ "" ∧ first.netId ∈ board.nets.map Net.netId

/-- Shapes that share a layer meet only if they are on one net. -/
def Apart (board : BoardGraph) (first second : CopperPrimitive) : Prop :=
  sharedLayers first.layers second.layers ≠ [] → (first.region ∩ second.region).Nonempty →
    SameDeclaredNet board first second

/-- Silence means that nothing touches that should not, and what touches across nets is told. -/
structure KeepsApart (board : BoardGraph) (clearance : Nat) : Prop where
  silent : evaluate board clearance = .ok [] → (allCopper board).Pairwise (Apart board)
  reported : ∀ findings, evaluate board clearance = .ok findings →
    ∀ pair ∈ laterPairs (copperPrimitives board), touches pair.1 pair.2 = true →
      pair.1.netId ≠ pair.2.netId → pairFinding clearance pair.1 pair.2 ∈ findings

/-- Nothing is hidden from the rule. -/
structure NothingHidden (board : BoardGraph) (clearance : Nat) : Prop where
  grazing : clearance = 0 → ∀ pair ∈ laterPairs (copperPrimitives board), Compared pair.1 pair.2 →
    4 * distanceSquared pair.1 pair.2 ≠ (pair.1.widthNm + pair.2.widthNm : ℚ) ^ 2
  named : Clears board clearance → ∀ pair ∈ laterPairs (copperPrimitives board),
    touches pair.1 pair.2 = true → pair.1.netId = pair.2.netId →
      pair.1.netId ≠ "" ∧ pair.1.netId ∈ board.nets.map Net.netId
  /-- Copper that is left out of the comparison. -/
  dropped : Clears board clearance → (allCopper board).Pairwise fun first second =>
    (first, second) ∉ laterPairs (copperPrimitives board) →
    (second, first) ∉ laterPairs (copperPrimitives board) → Apart board first second

theorem sharedLayers_comm {first second : List String} (h : sharedLayers first second ≠ []) :
    sharedLayers second first ≠ [] := by
  obtain ⟨layer, hmem⟩ := List.exists_mem_of_ne_nil _ h
  obtain ⟨hfirst, hsecond⟩ := List.mem_filter.mp hmem
  exact List.ne_nil_of_mem (List.mem_filter.mpr ⟨of_decide_eq_true hsecond, decide_eq_true hfirst⟩)

variable {first second : CopperPrimitive}

theorem Apart.symm (h : Apart board first second) :
    Apart board second first := by
  intro hshared hmeet
  rw [Set.inter_comm] at hmeet
  obtain ⟨hsame, hnamed, hdeclared⟩ := h (sharedLayers_comm hshared) hmeet
  exact ⟨hsame.symm, hsame ▸ hnamed, hsame ▸ hdeclared⟩

/-- What holds of all copper holds of what the rule compares. -/
theorem apart_of_laterPairs (h : (allCopper board).Pairwise (Apart board))
    {pair : CopperPrimitive × CopperPrimitive} (hpair : pair ∈ laterPairs (copperPrimitives board)) :
    Apart board pair.1 pair.2 := by
  obtain ⟨shapes, hperm, hsublist⟩ := copperPrimitives_subperm board
  have hpairwise := (h.sublist hsublist).perm hperm fun hapart => hapart.symm
  exact pairwise_iff_laterPairs.mp hpairwise pair hpair

theorem touches_iff : touches first second = true ↔
    sharedLayers first.layers second.layers ≠ [] ∧
      4 * distanceSquared first second ≤ (first.widthNm + second.widthNm : ℚ) ^ 2 := by
  unfold touches
  rw [decide_eq_true_eq]

/-- The test for contact is right. -/
theorem touches_iff_meet {pair : CopperPrimitive × CopperPrimitive}
    (h : pair ∈ laterPairs (copperPrimitives board)) : touches pair.1 pair.2 = true ↔
      sharedLayers pair.1.layers pair.2.layers ≠ [] ∧
        (pair.1.region ∩ pair.2.region).Nonempty := by
  obtain ⟨hfirst, hsecond⟩ := mem_of_laterPairs h
  rw [touches_iff, regions_meet_iff (copperPrimitives_width hfirst) (copperPrimitives_width hsecond)]

theorem tooNear_of_touches (hfirst : 0 ≤ first.widthNm)
    (hsecond : 0 ≤ second.widthNm)
    (htouch : 4 * distanceSquared first second ≤ (first.widthNm + second.widthNm : ℚ) ^ 2)
    (hgrazing : clearance = 0 →
      4 * distanceSquared first second ≠ (first.widthNm + second.widthNm : ℚ) ^ 2) :
    TooNear clearance first second := by
  have hfirst' : (0 : ℚ) ≤ first.widthNm := by exact_mod_cast hfirst
  have hsecond' : (0 : ℚ) ≤ second.widthNm := by exact_mod_cast hsecond
  unfold TooNear requiredDoubled
  push_cast
  rcases Nat.eq_zero_or_pos clearance with hzero | hpos
  · subst hzero
    rw [Nat.cast_zero, mul_zero, add_zero]
    exact lt_of_le_of_ne htouch (hgrazing rfl)
  · have hpos' : (0 : ℚ) < clearance := by exact_mod_cast hpos
    refine lt_of_le_of_lt htouch ?_
    exact pow_lt_pow_left₀ (by linarith) (by linarith) two_ne_zero

/-- A finding about two shapes tells how far apart they are, and how far they should be. -/
theorem pairFinding_binds {first second first' second' : CopperPrimitive}
    (h : pairFinding clearance first second = pairFinding clearance first' second') :
    distanceSquared first second = distanceSquared first' second' ∧
      requiredDoubled clearance first second = requiredDoubled clearance first' second' := by
  have hevidence := congrArg FindingDraft.evidence h
  unfold pairFinding at hevidence
  simp only [List.cons.injEq, EvidenceItem.mk.injEq, EvidenceValue.integer.injEq, true_and,
    and_true, Int.natCast_inj] at hevidence
  obtain ⟨-, -, -, hnum, hden, hrequired⟩ := hevidence
  exact ⟨Rat.ext hnum hden, hrequired⟩

/-- The kinds of findings tell different things. -/
def evidenceNames (finding : FindingDraft) : List String := finding.evidence.map EvidenceItem.name

theorem pairFinding_names (first second : CopperPrimitive) :
    evidenceNames (pairFinding clearance first second) =
      ["first_net_id", "second_net_id", "shared_layers", "center_distance_squared_numerator",
        "center_distance_squared_denominator", "required_center_distance_doubled_nm"] := rfl

theorem holeFinding_names (hole : Hole) (shape primitive : CopperPrimitive) :
    evidenceNames (holeFinding clearance hole shape primitive) =
      ["hole_id", "hole_diameter_nm", "copper_net_id", "core_distance_squared_numerator",
        "core_distance_squared_denominator", "required_core_distance_doubled_nm"] := rfl

theorem zoneFinding_names (primitive : CopperPrimitive) (zone : Zone) :
    evidenceNames (zoneFinding clearance primitive zone) =
      ["first_net_id", "second_net_id", "shared_layers", "boundary_distance_squared_numerator",
        "boundary_distance_squared_denominator", "required_center_distance_doubled_nm",
        "copper_overlaps_zone"] := rfl

theorem zonePairFinding_names (first second : Zone) :
    evidenceNames (zonePairFinding clearance first second) =
      ["first_net_id", "second_net_id", "shared_layers", "boundary_distance_squared_numerator",
        "boundary_distance_squared_denominator", "required_clearance_nm", "zones_overlap"] := rfl

theorem tooNear_of_mem (h : evaluate board clearance = .ok findings)
    (hmem : pairFinding clearance first second ∈ findings) : TooNear clearance first second := by
  obtain ⟨holes, hholes, rfl⟩ := evaluate_ok.mp h
  simp only [List.mem_append] at hmem
  rcases hmem with ((hmem | hmem) | hmem) | hmem
  · obtain ⟨pair, -, hnear, hfinding⟩ := mem_filterMap_if.mp hmem
    -- the evidence binds the distance and what was required
    obtain ⟨hdistance, hrequired⟩ := pairFinding_binds hfinding
    have hfar := hnear.2
    unfold TooNear at hfar ⊢
    rwa [hdistance, hrequired] at hfar
  · obtain ⟨hole, shape, primitive, hfinding⟩ := of_mem_holeFindings hholes hmem
    have hnames := congrArg evidenceNames hfinding
    rw [pairFinding_names, holeFinding_names] at hnames
    exact absurd hnames (by decide)
  · obtain ⟨zone, -, hzone⟩ := List.mem_flatMap.mp hmem
    obtain ⟨primitive, -, -, hfinding⟩ := mem_filterMap_if.mp hzone
    have hnames := congrArg evidenceNames hfinding
    rw [pairFinding_names, zoneFinding_names] at hnames
    exact absurd hnames (by decide)
  · obtain ⟨pair, -, -, hfinding⟩ := mem_filterMap_if.mp hmem
    have hnames := congrArg evidenceNames hfinding
    rw [pairFinding_names, zonePairFinding_names] at hnames
    exact absurd hnames (by decide)

/--
**The rule tells every contact but the hidden ones.**  On a board whose holes it can
read, it does what it is for exactly if no shapes on different nets are just in contact
while no clearance is asked for, and no shapes in contact share a text that is no net
of the board while everything else keeps its distance.
-/
theorem keepsApart_iff :
    KeepsApart board clearance ↔ (QuarterTurned board → NothingHidden board clearance) := by
  constructor
  · intro h hturned
    obtain ⟨findings, hfindings⟩ : ∃ findings, evaluate board clearance = .ok findings :=
      quarterTurned_iff.mp hturned
    constructor
    · rintro rfl pair hpair hcompared hgrazing
      have htouch := touches_iff.mpr ⟨hcompared.2, hgrazing.le⟩
      have hnear := tooNear_of_mem hfindings (h.reported findings hfindings pair hpair htouch hcompared.1)
      unfold TooNear requiredDoubled at hnear
      push_cast at hnear
      rw [add_zero] at hnear
      exact absurd hgrazing hnear.ne
    · intro hclears pair hpair htouch hsame
      obtain ⟨hshared, hmeet⟩ := (touches_iff_meet hpair).mp htouch
      exact (apart_of_laterPairs (h.silent (evaluate_nil.mpr hclears)) hpair hshared hmeet).2
    · exact fun hclears => (h.silent (evaluate_nil.mpr hclears)).imp fun hapart _ _ => hapart
  · intro h
    constructor
    · intro hempty
      have hhidden := h (quarterTurned_iff.mpr ⟨[], hempty⟩)
      have hclears := evaluate_nil.mp hempty
      suffices hcompared : ∀ pair ∈ laterPairs (copperPrimitives board), Apart board pair.1 pair.2 by
        refine (hhidden.dropped hclears).imp fun {first second} hdropped => ?_
        by_cases hpair : (first, second) ∈ laterPairs (copperPrimitives board)
        · exact hcompared _ hpair
        · by_cases hpair' : (second, first) ∈ laterPairs (copperPrimitives board)
          · exact (hcompared _ hpair').symm
          · exact hdropped hpair hpair'
      intro pair hpair hshared hmeet
      have htouch := (touches_iff_meet hpair).mpr ⟨hshared, hmeet⟩
      by_cases hsame : pair.1.netId = pair.2.netId
      · exact ⟨hsame, hhidden.named hclears pair hpair htouch hsame⟩
      · have hcompared : Compared pair.1 pair.2 := ⟨hsame, hshared⟩
        obtain ⟨hfirst, hsecond⟩ := mem_of_laterPairs hpair
        exact absurd (tooNear_of_touches (copperPrimitives_width hfirst)
          (copperPrimitives_width hsecond) (touches_iff.mp htouch).2
          fun hzero => hhidden.grazing hzero pair hpair hcompared) (hclears.pairs pair hpair hcompared)
    · intro findings hfindings pair hpair htouch hne
      have hhidden := h (quarterTurned_iff.mpr ⟨findings, hfindings⟩)
      have hcompared : Compared pair.1 pair.2 := ⟨hne, (touches_iff.mp htouch).1⟩
      obtain ⟨hfirst, hsecond⟩ := mem_of_laterPairs hpair
      have hnear := tooNear_of_touches (copperPrimitives_width hfirst)
        (copperPrimitives_width hsecond) (touches_iff.mp htouch).2
        fun hzero => hhidden.grazing hzero pair hpair hcompared
      obtain ⟨holes, -, rfl⟩ := evaluate_ok.mp hfindings
      refine List.mem_append_left _ (List.mem_append_left _ (List.mem_append_left _ ?_))
      exact List.mem_filterMap.mpr ⟨pair, hpair, if_pos ⟨hcompared, hnear⟩⟩

/-- Two rectangular pads, the one half over the other. -/
def overlappingPads : BoardGraph where
  schemaVersion := 3
  designId := "board"
  revision := ""
  layers := ["F.Cu"]
  outline := ⟨[⟨0, 0⟩, ⟨10000, 0⟩, ⟨10000, 10000⟩, ⟨0, 10000⟩]⟩
  components := []
  nets := [⟨"a", "A", [], false⟩, ⟨"b", "B", [], false⟩]
  tracks := []
  vias := []
  pads := [
    { padId := "p", componentId := "u", padNumber := "1", netId := some "a", center := ⟨3000, 5000⟩,
      sizeXNm := 2000, sizeYNm := 1000, shape := .rect, rotationUdeg := 0, layers := ["F.Cu"] },
    { padId := "q", componentId := "u", padNumber := "2", netId := some "b", center := ⟨4000, 5000⟩,
      sizeXNm := 2000, sizeYNm := 1000, shape := .rect, rotationUdeg := 0, layers := ["F.Cu"] }]

/-- With no clearance asked for, the rule is silent about pads of two nets that overlap. -/
theorem overlapping_pads_silent : ¬ KeepsApart overlappingPads 0 := by
  intro h
  have hsilent : evaluate overlappingPads 0 = .ok [] := by decide +kernel
  have htouching : (laterPairs (copperPrimitives overlappingPads)).any (fun pair =>
      touches pair.1 pair.2 && pair.1.netId != pair.2.netId) = true := by decide +kernel
  obtain ⟨pair, hpair, htouch⟩ := List.any_eq_true.mp htouching
  rw [Bool.and_eq_true, bne_iff_ne] at htouch
  exact absurd (h.reported [] hsilent pair hpair htouch.1 htouch.2) List.not_mem_nil

end MinimumCopperClearanceRule

end Evleda.Verification
