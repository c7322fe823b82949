/-
The copper of a board as exact shapes.

A pad at a quarter turn, a track, a via and an unplated hole are each a core and a
width: the region is what lies within half the width of the core.  Pads that the exact
kernel has no shape for are left out, and of a shared land only the first member
stands for all.

Two regions of the real plane meet exactly when the exact test on their cores says so,
which is what makes contact and clearance decidable in fractions.
-/
import Evleda.Verification.Geometry
import Mathlib.Data.String.Basic

namespace Evleda.Verification

open Plane

structure CopperPrimitive where
  primitiveId : String
  entity : EntityRef
  netId : String
  layers : List String
  core : Core ℚ
  widthNm : Int

/-- The proof under every literal 2 in the measures of the shapes. -/
theorem two_atLeastTwo : Nat.AtLeastTwo 2 := ⟨le_rfl⟩

attribute [local instance] two_atLeastTwo in
/-- The region of the plane that the shape fills. -/
def CopperPrimitive.region (primitive : CopperPrimitive) : Set (Point ℝ) :=
  thick primitive.core.real.points (primitive.widthNm / 2)

/-! ### Cores of pads and holes -/

def quadrantDimensions (sizeX sizeY rotationUdeg : Int) : Int × Int :=
  if rotationUdeg / 90000000 % 2 ≠ 0 then (sizeY, sizeX) else (sizeX, sizeY)

theorem quadrantDimensions_pos {sizeX sizeY : Int} (hx : 0 < sizeX) (hy : 0 < sizeY)
    (rotationUdeg : Int) : 0 < (quadrantDimensions sizeX sizeY rotationUdeg).1 ∧
      0 < (quadrantDimensions sizeX sizeY rotationUdeg).2 := by
  unfold quadrantDimensions
  split
  · exact ⟨hy, hx⟩
  · exact ⟨hx, hy⟩

def drillDimensions (legacyMinorNm drillXNm drillYNm : Int) : Int × Int :=
  if drillXNm = 0 ∧ drillYNm = 0 then (legacyMinorNm, legacyMinorNm) else (drillXNm, drillYNm)

/-- A slot: a disk of the minor diameter moved along the major axis. -/
def slotCore (center : PointNm) (sizeX sizeY : Int) : Core ℚ :=
  let point : ExactPoint := exactPoint center
  let majorDelta : ℚ := (|sizeX - sizeY| : Int) / 2
  if majorDelta = 0 then .center point
  else if sizeY < sizeX then .axis ⟨point.x - majorDelta, point.y⟩ ⟨point.x + majorDelta, point.y⟩
  else .axis ⟨point.x, point.y - majorDelta⟩ ⟨point.x, point.y + majorDelta⟩

/-- The straight core of a rectangle whose corners have that radius. -/
def roundedBox (center : PointNm) (sizeX sizeY radius : Int) (hx : 2 * radius ≤ sizeX)
    (hy : 2 * radius ≤ sizeY) : CoreBox ℚ where
  minimum := ⟨center.x - sizeX / 2 + radius, center.y - sizeY / 2 + radius⟩
  maximum := ⟨center.x + sizeX / 2 - radius, center.y + sizeY / 2 - radius⟩
  x_le := by
    have hcast : (2 * radius : ℚ) ≤ sizeX := by exact_mod_cast hx
    show (center.x : ℚ) - sizeX / 2 + radius ≤ center.x + sizeX / 2 - radius
    linarith
  y_le := by
    have hcast : (2 * radius : ℚ) ≤ sizeY := by exact_mod_cast hy
    show (center.y : ℚ) - sizeY / 2 + radius ≤ center.y + sizeY / 2 - radius
    linarith

theorem twice_quarter_le {a b : Int} (ha : 0 < a) (hb : 0 < b) :
    2 * (min a b / 4) ≤ a ∧ 2 * (min a b / 4) ≤ b := by
  omega

/-- Represent a quadrant-rotated pad exactly as core geometry plus disk diameter. -/
def padCore (pad : PhysicalPad) : Option (Core ℚ × Int) :=
  if hsize : 0 < pad.sizeXNm ∧ 0 < pad.sizeYNm then
    if pad.rotationUdeg % 90000000 ≠ 0 then none
    else
      let size := quadrantDimensions pad.sizeXNm pad.sizeYNm pad.rotationUdeg
      have hpos := quadrantDimensions_pos hsize.1 hsize.2 pad.rotationUdeg
      match pad.shape with
      | .circle =>
          if size.1 ≠ size.2 then none else some (.center (exactPoint pad.center), size.1)
      | .oval => some (slotCore pad.center size.1 size.2, min size.1 size.2)
      | .rect => some (.box (roundedBox pad.center size.1 size.2 0 hpos.1.le hpos.2.le), 2 * 0)
      | .roundrect =>
          have hradius := twice_quarter_le hpos.1 hpos.2
          some (.box (roundedBox pad.center size.1 size.2 (min size.1 size.2 / 4)
            hradius.1 hradius.2), 2 * (min size.1 size.2 / 4))
  else none

theorem padCore_width {pad : PhysicalPad} {core : Core ℚ} {width : Int}
    (h : padCore pad = some (core, width)) : 0 ≤ width := by
  unfold padCore at h
  split at h
  · rename_i hsize
    have hpos := quadrantDimensions_pos hsize.1 hsize.2 pad.rotationUdeg
    split at h
    · cases h
    · dsimp only at h
      split at h
      · split at h
        · cases h
        · cases h
          exact hpos.1.le
      · cases h
        exact le_min hpos.1.le hpos.2.le
      · cases h
        decide
      · cases h
        omega
  · cases h

/-- `_hole_primitive(hole, layers)` -/
def holePrimitive (hole : Hole) (layers : List String) : Except String CopperPrimitive :=
  let drill := drillDimensions hole.diameterNm hole.drillXNm hole.drillYNm
  if hole.drillRotationUdeg % 90000000 ≠ 0 then
    .error ("unsupported non-quadrant hole rotation: " ++ hole.holeId)
  else
    let drill := quadrantDimensions drill.1 drill.2 hole.drillRotationUdeg
    .ok {
      primitiveId := "hole:" ++ hole.holeId
      entity := ⟨"hole", hole.holeId⟩
      netId := ""
      layers := layers
      core := slotCore hole.center drill.1 drill.2
      widthNm := min drill.1 drill.2 }

/-! ### The copper of the board -/

/-- Every net connection with the pin it names. -/
def physicalPadNets (board : BoardGraph) : Dict (String × String) String :=
  let pinByNumber := Dict.empty.update (board.components.flatMap fun component =>
    component.pins.map fun pin => ((component.componentId, pin.number), pin))
  Dict.empty.update (board.nets.flatMap fun net => net.connections.filterMap fun connection =>
    (pinByNumber (connection.componentId, connection.pinNumber)).map fun pin =>
      ((connection.componentId, if pin.padNumber ≠ "" then pin.padNumber else pin.number),
        net.netId))

/-- The net of a pad: its own, else that of its logical pin, else none. -/
def padNetId (padNets : Dict (String × String) String) (pad : PhysicalPad) : String :=
  if pad.netId.getD "" ≠ "" then pad.netId.getD ""
  else (padNets (pad.componentId, pad.padNumber)).getD ""

/-- The shapes of the pads, with the shared lands that are represented already. -/
def padPrimitives (padNets : Dict (String × String) String) (represented : List String) :
    List PhysicalPad → List CopperPrimitive
  | [] => []
  | pad :: pads =>
      if pad.sharedLandGroupId.any (· ∈ represented) then padPrimitives padNets represented pads
      else
        let represented := pad.sharedLandGroupId.toList ++ represented
        match padCore pad with
        | none => padPrimitives padNets represented pads
        | some (core, widthNm) =>
            if pad.layers = [] then padPrimitives padNets represented pads
            else
              { primitiveId := "pad:" ++ pad.padId, entity := ⟨"pad", pad.padId⟩,
                netId := padNetId padNets pad, layers := pad.layers, core := core,
                widthNm := widthNm } :: padPrimitives padNets represented pads

/-- The shape of a pin on a board without physical pads. -/
def pinPrimitive (pinNets : Dict (String × String) String) (component : Component) (pin : Pin) :
    Option CopperPrimitive :=
  let netId := (pinNets (component.componentId, pin.number)).getD ""
  match pin.padCenter with
  | none => none
  | some center =>
      if netId ≠ "" ∧ 0 < pin.padDiameterNm ∧ pin.layers ≠ [] then
        some {
          primitiveId := "pad:" ++ component.componentId ++ ":" ++ pin.number
          entity := ⟨"pin", component.componentId ++ ":" ++ pin.number⟩
          netId := netId
          layers := pin.layers
          core := .center (exactPoint center)
          widthNm := pin.padDiameterNm }
      else none

def trackPrimitive (track : Track) : CopperPrimitive where
  primitiveId := "track:" ++ track.trackId
  entity := ⟨"track", track.trackId⟩
  netId := track.netId
  layers := [track.layer]
  core := .axis (exactPoint track.start) (exactPoint track.finish)
  widthNm := track.widthNm

def viaPrimitive (via : Via) : CopperPrimitive where
  primitiveId := "via:" ++ via.viaId
  entity := ⟨"via", via.viaId⟩
  netId := via.netId
  layers := via.layers
  core := .center (exactPoint via.center)
  widthNm := via.diameterNm

/-- `_copper_primitives(board)` -/
def copperPrimitives (board : BoardGraph) : List CopperPrimitive :=
  let pads :=
    if board.pads ≠ [] then padPrimitives (physicalPadNets board) [] board.pads
    else
      let pinNets := Dict.empty.update (board.nets.flatMap fun net =>
        net.connections.map fun connection =>
          ((connection.componentId, connection.pinNumber), net.netId))
      board.components.flatMap fun component => component.pins.filterMap (pinPrimitive pinNets component)
  sortBy CopperPrimitive.primitiveId
    (pads ++ (board.tracks.filter fun track => 0 < track.widthNm).map trackPrimitive ++
      (board.vias.filter fun via => 0 < via.diameterNm).map viaPrimitive)

/-! ### All copper

`copperPrimitives` leaves out the pads of a shared land but the first, the pads without
layers, and, on a board without physical pads, the pin pads without layers or without a net. -/

def padShape (padNets : Dict (String × String) String) (pad : PhysicalPad) :
    Option CopperPrimitive :=
  (padCore pad).map fun (core, widthNm) =>
    { primitiveId := "pad:" ++ pad.padId, entity := ⟨"pad", pad.padId⟩,
      netId := padNetId padNets pad, layers := pad.layers, core := core, widthNm := widthNm }

def pinShape (pinNets : Dict (String × String) String) (component : Component) (pin : Pin) :
    Option CopperPrimitive :=
  match pin.padCenter with
  | none => none
  | some center =>
      if 0 < pin.padDiameterNm then
        some {
          primitiveId := "pad:" ++ component.componentId ++ ":" ++ pin.number
          entity := ⟨"pin", component.componentId ++ ":" ++ pin.number⟩
          netId := (pinNets (component.componentId, pin.number)).getD ""
          layers := pin.layers
          core := .center (exactPoint center)
          widthNm := pin.padDiameterNm }
      else none

/-- The shapes of every pad, or of every pin pad where the board has no physical pads, of every
track and of every via. -/
def allCopper (board : BoardGraph) : List CopperPrimitive :=
  let pads :=
    if board.pads ≠ [] then board.pads.filterMap (padShape (physicalPadNets board))
    else
      let pinNets := Dict.empty.update (board.nets.flatMap fun net =>
        net.connections.map fun connection =>
          ((connection.componentId, connection.pinNumber), net.netId))
      board.components.flatMap fun component => component.pins.filterMap (pinShape pinNets component)
  pads ++ (board.tracks.filter fun track => 0 < track.widthNm).map trackPrimitive ++
    (board.vias.filter fun via => 0 < via.diameterNm).map viaPrimitive

theorem padPrimitives_sublist (padNets : Dict (String × String) String) (represented : List String)
    (pads : List PhysicalPad) :
    (padPrimitives padNets represented pads).Sublist (pads.filterMap (padShape padNets)) := by
  induction pads generalizing represented with
  | nil => exact .slnil
  | cons pad pads ih =>
      have hskip : ∀ represented, (padPrimitives padNets represented pads).Sublist
          ((pad :: pads).filterMap (padShape padNets)) := fun represented =>
        (ih represented).trans ((List.sublist_cons_self pad pads).filterMap _)
      unfold padPrimitives
      dsimp only
      split
      · exact hskip _
      · split
        · exact hskip _
        · rename_i core widthNm hcore
          split
          · exact hskip _
          · rw [List.filterMap_cons_some (by rw [padShape, hcore]; rfl)]
            exact (ih _).cons_cons _

theorem filterMap_sublist {α β : Type*} {f g : α → Option β} (h : ∀ a b, f a = some b → g a = some b)
    (items : List α) : (items.filterMap f).Sublist (items.filterMap g) := by
  induction items with
  | nil => exact .slnil
  | cons a rest ih =>
      cases hf : f a with
      | none =>
          rw [List.filterMap_cons_none hf]
          exact ih.trans ((List.sublist_cons_self a rest).filterMap g)
      | some b =>
          rw [List.filterMap_cons_some hf, List.filterMap_cons_some (h a b hf)]
          exact ih.cons_cons b

theorem pinPrimitive_shape {pinNets : Dict (String × String) String} {component : Component}
    {pin : Pin} {shape : CopperPrimitive} (h : pinPrimitive pinNets component pin = some shape) :
    pinShape pinNets component pin = some shape := by
  unfold pinPrimitive at h
  unfold pinShape
  dsimp only at h ⊢
  split at h
  · cases h
  · split at h
    · rename_i hkept
      rw [if_pos hkept.2.1]
      exact h
    · cases h

/-- What the rules look at is copper of the board, each shape once. -/
theorem copperPrimitives_subperm (board : BoardGraph) :
    (copperPrimitives board).Subperm (allCopper board) := by
  unfold copperPrimitives allCopper
  refine (sortBy_perm _).subperm.trans (List.Sublist.subperm ?_)
  refine (List.Sublist.append ?_ (.refl _)).append (.refl _)
  split
  · exact padPrimitives_sublist _ _ _
  · exact .flatMap_right _ fun component _ =>
      filterMap_sublist (fun _ _ h => pinPrimitive_shape h) component.pins

/-! ### Contact -/

/-- `_distance_squared` -/
def distanceSquared (first second : CopperPrimitive) : ℚ :=
  coreDistanceSquared first.core second.core

/-- `_touches` -/
def touches (first second : CopperPrimitive) : Bool :=
  sharedLayers first.layers second.layers ≠ [] ∧
    4 * distanceSquared first second ≤ (first.widthNm + second.widthNm : ℚ) ^ 2

/-- **Two shapes meet exactly when their cores are near enough.** -/
theorem regions_meet_iff {first second : CopperPrimitive} (hfirst : 0 ≤ first.widthNm)
    (hsecond : 0 ≤ second.widthNm) : (first.region ∩ second.region).Nonempty ↔
      4 * distanceSquared first second ≤ (first.widthNm + second.widthNm : ℚ) ^ 2 := by
  have hwidth : (0 : ℝ) ≤ first.widthNm / 2 := by
    have hcast : (0 : ℝ) ≤ first.widthNm := by exact_mod_cast hfirst
    linarith
  have hwidth' : (0 : ℝ) ≤ second.widthNm / 2 := by
    have hcast : (0 : ℝ) ≤ second.widthNm := by exact_mod_cast hsecond
    linarith
  unfold CopperPrimitive.region
  rw [thick_meet_iff (core_real_comesTo first.core second.core) hwidth hwidth']
  have hscale : ((first.widthNm : ℝ) / 2 + second.widthNm / 2) ^ 2 =
      (first.widthNm + second.widthNm : ℝ) ^ 2 / 4 := by ring
  rw [hscale, le_div_iff₀ (by norm_num), mul_comm]
  unfold distanceSquared
  exact_mod_cast Iff.rfl

theorem padPrimitives_width {padNets : Dict (String × String) String} {represented : List String}
    {pads : List PhysicalPad} {primitive : CopperPrimitive}
    (h : primitive ∈ padPrimitives padNets represented pads) : 0 ≤ primitive.widthNm := by
  induction pads generalizing represented with
  | nil => exact absurd h List.not_mem_nil
  | cons pad pads ih =>
      unfold padPrimitives at h
      split at h
      · exact ih h
      · dsimp only at h
        split at h
        · exact ih h
        · rename_i core widthNm hcore
          split at h
          · exact ih h
          · rcases List.mem_cons.mp h with rfl | h
            · exact padCore_width hcore
            · exact ih h

theorem copperPrimitives_width {board : BoardGraph} {primitive : CopperPrimitive}
    (h : primitive ∈ copperPrimitives board) : 0 ≤ primitive.widthNm := by
  unfold copperPrimitives at h
  rw [mem_sortBy, List.mem_append, List.mem_append] at h
  rcases h with (h | h) | h
  · split at h
    · exact padPrimitives_width h
    · obtain ⟨component, -, hpin⟩ := List.mem_flatMap.mp h
      obtain ⟨pin, -, hpin⟩ := List.mem_filterMap.mp hpin
      unfold pinPrimitive at hpin
      dsimp only at hpin
      split at hpin
      · cases hpin
      · split at hpin
        · rename_i hkept
          cases hpin
          exact hkept.2.1.le
        · cases hpin
  · obtain ⟨track, htrack, rfl⟩ := List.mem_map.mp h
    exact (of_decide_eq_true (List.mem_filter.mp htrack).2).le
  · obtain ⟨via, hvia, rfl⟩ := List.mem_map.mp h
    exact (of_decide_eq_true (List.mem_filter.mp hvia).2).le

end Evleda.Verification
