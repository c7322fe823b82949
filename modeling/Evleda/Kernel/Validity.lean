/-
What a valid, normal graph is, and which parts of it are valid too.

`validateGraph` and `normalized` are programs; here each is turned into the list
of facts it stands for.  The checks that carry a list of what was seen so far
become one statement that nothing repeats.
-/
import Evleda.Kernel.Graph

namespace Evleda.Kernel

open Outcome

section Validity

variable [UnicodeData] [Hashing] {g h : DesignGraph}

/-! ### The checks as facts -/

/-- The members of all nets, each with the identifier of its net. -/
def DesignGraph.connections (g : DesignGraph) : List (String × Checked PinRef.postInit) :=
  g.nets.flatMap (fun net => net.val.members.map (fun member => (net.val.netId, member)))

/-- The reference names a pin of a component of the graph. -/
def KnownPin (g : DesignGraph) (m : PinRef) : Prop :=
  ∃ component, g.component? m.componentId = some component ∧
    m.pinNumber ∈ component.pins.map (·.val.number)

theorem bindPin_ok {netId : String} {bound bound' : List (PinRef × String)}
    {member : Checked PinRef.postInit} :
    g.bindPin netId bound member = .ok bound' ↔
      KnownPin g member.val ∧ member.val ∉ bound.map Prod.fst ∧
        bound' = bound ++ [(member.val, netId)] := by
  unfold DesignGraph.bindPin KnownPin
  split
  · rename_i hnone
    simp [hnone]
  · rename_i component hcomponent
    simp only [bind_ok, exists_unit, require_ok, pure_ok,
      hcomponent, Option.some.injEq, exists_eq_left', @eq_comm _ bound']

theorem pinToNet_ok {bound : List (PinRef × String)} :
    g.pinToNet = .ok bound ↔
      (∀ connection ∈ g.connections, KnownPin g connection.2.val) ∧
        (g.connections.map (·.2.val)).Nodup ∧
        bound = g.connections.map (fun connection => (connection.2.val, connection.1)) := by
  have hflat : g.pinToNet =
      g.connections.foldlM (fun bound connection => g.bindPin connection.1 bound connection.2) [] := by
    unfold DesignGraph.pinToNet DesignGraph.connections
    rw [foldlM_flatMap]
    simp only [List.foldlM_map]
  rw [hflat, foldlM_collect (fun connection => KnownPin g connection.2.val)
    (fun connection => some (connection.2.val, connection.1)) Prod.fst]
  · rw [List.nil_append, List.filterMap_eq_map', List.map_map]
    rfl
  · intro seen connection seen'
    rw [bindPin_ok]
    simp
  · exact List.nodup_nil

/-- A hole sits on a placed component and, if it is plated, in a pad it matches exactly. -/
structure HoleFits (g : DesignGraph) (hole : FootprintHole) : Prop where
  placed : (g.component? hole.componentId).isSome ∧ hole.componentId ∈ g.placementIds
  plated : ∀ padId ∈ hole.padId, ∃ pad, g.pad? padId = some pad ∧
    pad.componentId = hole.componentId ∧
    (pad.drillX = hole.drillX ∧ pad.drillY = hole.drillY ∧
      pad.normalized.drillRotationUdeg = hole.normalized.drillRotationUdeg) ∧
    pad.center = hole.center

theorem checkHole_ok {bound bound' : List String} {hole : Checked FootprintHole.postInit} :
    g.checkHole bound hole = .ok bound' ↔
      HoleFits g hole.val ∧ (∀ padId ∈ hole.val.padId, padId ∉ bound) ∧
        bound' = bound ++ hole.val.padId.toList := by
  unfold DesignGraph.checkHole
  rw [bind_ok, exists_unit, require_ok]
  split
  · rename_i hnone
    simp only [pure_ok, hnone, Option.not_mem_none, IsEmpty.forall_iff, implies_true,
      Option.toList_none, List.append_nil, true_and, @eq_comm _ bound']
    refine and_congr_left fun _ => ⟨fun hplaced => ⟨hplaced, ?_⟩, fun hfits => hfits.placed⟩
    simp [hnone]
  · rename_i padId hsome
    simp only [bind_ok, exists_unit, require_ok, hsome,
      Option.mem_some_iff, forall_eq', Option.toList_some]
    split
    · rename_i hpad
      constructor
      · rintro ⟨-, -, herror⟩
        cases herror
      · rintro ⟨hfits, -⟩
        obtain ⟨pad, hfound, -⟩ := hfits.plated padId (by rw [hsome]; rfl)
        rw [hpad] at hfound
        cases hfound
    · rename_i pad hpad
      simp only [bind_ok, exists_unit, require_ok, pure_ok,
        @eq_comm _ bound']
      constructor
      · rintro ⟨hplaced, hfresh, hcomponent, hdrill, hcenter, hbound⟩
        refine ⟨⟨hplaced, ?_⟩, hfresh, hbound⟩
        intro padId' hpadId'
        rw [hsome, Option.mem_some_iff] at hpadId'
        exact ⟨pad, hpadId' ▸ hpad, hcomponent, hdrill, hcenter⟩
      · rintro ⟨hfits, hfresh, hbound⟩
        obtain ⟨pad', hfound, hcomponent, hdrill, hcenter⟩ :=
          hfits.plated padId (by rw [hsome]; rfl)
        obtain rfl : pad = pad' := Option.some.inj (hpad.symm.trans hfound)
        exact ⟨hfits.placed, hfresh, hcomponent, hdrill, hcenter, hbound⟩

theorem holes_ok {bound : List String} :
    g.holes.foldlM g.checkHole [] = .ok bound ↔
      (∀ hole ∈ g.holes, HoleFits g hole.val) ∧
        (g.holes.filterMap (·.val.padId)).Nodup ∧ bound = g.holes.filterMap (·.val.padId) := by
  rw [foldlM_collect (fun hole => HoleFits g hole.val) (·.val.padId) id]
  · rw [List.nil_append, List.map_id]
  · intro seen hole seen'
    rw [checkHole_ok, List.map_id]
    rfl
  · exact List.nodup_nil

/-- A junction joins at least two wires of a net of the graph. -/
def JunctionFits (g : DesignGraph) (junction : SchematicJunction) : Prop :=
  junction.netId ∈ g.netIds ∧ 2 ≤ (g.supportingWires junction).dedup.length

def SchematicJunction.location (junction : SchematicJunction) : String × PointNm :=
  (junction.sheetId, junction.position)

theorem junctions_ok {taken : List (String × PointNm)} :
    g.schematicJunctions.foldlM g.checkJunction [] = .ok taken ↔
      (∀ junction ∈ g.schematicJunctions, JunctionFits g junction.val) ∧
        (g.schematicJunctions.map (·.val.location)).Nodup ∧
        taken = g.schematicJunctions.map (·.val.location) := by
  rw [foldlM_collect (fun junction => JunctionFits g junction.val)
    (fun junction => some junction.val.location) id]
  · rw [List.nil_append, List.filterMap_eq_map', List.map_id]
  · intro seen junction seen'
    unfold DesignGraph.checkJunction JunctionFits SchematicJunction.location
    simp only [bind_ok, exists_unit, require_ok, pure_ok,
      Option.mem_some_iff, forall_eq', List.map_id, Option.toList_some, id, @eq_comm _ seen']
    tauto
  · exact List.nodup_nil

def DesignGraph.pinNets (g : DesignGraph) : List (PinRef × String) :=
  g.connections.map (fun connection => (connection.2.val, connection.1))

/-- The facts a graph passes `validateGraph` with. -/
structure Valid (g : DesignGraph) : Prop where
  schemaVersion : g.schemaVersion = 1
  projectId : IsId g.projectId
  layers : g.layers ≠ [] ∧ ∀ layer ∈ g.layers, Text.isBlank layer = false
  layersNodup : g.layers.Nodup
  outline : g.boardOutline ≠ [] → validateSimplePolygon g.boardOutline "board outline" = .ok ()
  identifiers : ∀ collection ∈ g.identifiers, collection.2.Nodup
  pins : ∀ connection ∈ g.connections, KnownPin g connection.2.val
  pinsNodup : (g.connections.map (·.2.val)).Nodup
  placements : ∀ placement ∈ g.placements, (g.component? placement.val.componentId).isSome
  tracks : ∀ track ∈ g.tracks, track.val.netId ∈ g.netIds ∧ track.val.layer ∈ g.layers
  pads : ∀ pad ∈ g.pads, g.checkPad g.pinNets pad = .ok ()
  logicalPads : ∀ pad ∈ g.pads, g.checkLogicalPad pad = .ok ()
  sharedLands : ∀ pad ∈ g.pads, g.checkSharedLand pad = .ok ()
  holes : ∀ hole ∈ g.holes, HoleFits g hole.val
  platedNodup : (g.holes.filterMap (·.val.padId)).Nodup
  vias : ∀ via ∈ g.vias, via.val.netId ∈ g.netIds ∧ ∀ layer ∈ via.val.layers, layer ∈ g.layers
  zones : ∀ zone ∈ g.zones, (zone.val.netId ∈ g.netIds ∧ zone.val.layer ∈ g.layers) ∧
    validateSimplePolygon zone.val.outline ("zone " ++ zone.val.zoneId ++ " outline") = .ok ()
  wires : ∀ wire ∈ g.schematicWires, wire.val.netId ∈ g.netIds
  wirePairs : g.schematicWires.Pairwise (fun first second => checkWirePair first second = .ok ())
  junctions : ∀ junction ∈ g.schematicJunctions, JunctionFits g junction.val
  junctionsNodup : (g.schematicJunctions.map (·.val.location)).Nodup

theorem validateGraph_iff : validateGraph g = .ok () ↔ Valid g := by
  unfold validateGraph
  simp only [bind_ok, exists_unit, require_ok, requireWhen_ok,
    forM_ok, forPairs_ok, pure_ok, requireId_ok, pinToNet_ok, holes_ok,
    junctions_ok]
  constructor
  · rintro ⟨h₁, h₂, h₃, h₄, h₅, h₆, pinToNet, ⟨h₇, h₈, rfl⟩, h₉, h₁₀, h₁₁, h₁₂, h₁₃,
      bound, ⟨h₁₄, h₁₅, -⟩, h₁₆, h₁₇, h₁₈, h₁₉, taken, ⟨h₂₀, h₂₁, -⟩, -⟩
    exact ⟨h₁, h₂, h₃, h₄, h₅, h₆, h₇, h₈, h₉, h₁₀, h₁₁, h₁₂, h₁₃, h₁₄, h₁₅, h₁₆, h₁₇, h₁₈, h₁₉,
      h₂₀, h₂₁⟩
  · rintro ⟨h₁, h₂, h₃, h₄, h₅, h₆, h₇, h₈, h₉, h₁₀, h₁₁, h₁₂, h₁₃, h₁₄, h₁₅, h₁₆, h₁₇, h₁₈, h₁₉,
      h₂₀, h₂₁⟩
    exact ⟨h₁, h₂, h₃, h₄, h₅, h₆, _, ⟨h₇, h₈, rfl⟩, h₉, h₁₀, h₁₁, h₁₂, h₁₃, _, ⟨h₁₄, h₁₅, rfl⟩,
      h₁₆, h₁₇, h₁₈, h₁₉, _, ⟨h₂₀, h₂₁, rfl⟩, trivial⟩

/-! ### The normal form as facts -/

/-- Records in normal form, in the order of their identifiers. -/
structure InOrder {α : Type} {construct : α → Except Failure α} (normalize : α → α)
    (key : α → String) (items : List (Checked construct)) : Prop where
  normal : ∀ item ∈ items, normalize item.val = item.val
  sorted : SortedBy (fun item => key item.val) items

/-- The facts a graph that is its own normal form has. -/
structure Normal (g : DesignGraph) : Prop where
  layers : SortedBy id g.layers
  outline : normalizedRing g.boardOutline = g.boardOutline
  components : InOrder Component.normalized Component.componentId g.components
  nets : InOrder Net.normalized Net.netId g.nets
  placements : InOrder id FootprintPlacement.componentId g.placements
  tracks : InOrder Track.normalized Track.trackId g.tracks
  pads : InOrder FootprintPad.normalized FootprintPad.padId g.pads
  holes : InOrder FootprintHole.normalized FootprintHole.holeId g.holes
  vias : InOrder Via.normalized Via.viaId g.vias
  zones : InOrder CopperZone.normalized CopperZone.zoneId g.zones
  schematicWires : InOrder SchematicWire.normalized SchematicWire.wireId g.schematicWires
  schematicJunctions : InOrder id SchematicJunction.junctionId g.schematicJunctions

omit [UnicodeData] [Hashing] in
theorem normalizedItems_inOrder {α : Type} {construct : α → Except Failure α}
    {hstable : Stable construct} {normalize : α → α} {key : α → String}
    {items : List (Checked construct)} (hfinal : Final hstable normalize)
    (h : normalizedItems hstable normalize key items = .ok items) :
    InOrder normalize key items := by
  obtain ⟨hnormal, hsorted⟩ := normalizedItems_normal hfinal h
  exact ⟨hnormal, hsorted⟩

omit [UnicodeData] [Hashing] in
theorem InOrder.normalizedItems {α : Type} {construct : α → Except Failure α}
    {hstable : Stable construct} {normalize : α → α} {key : α → String}
    {items : List (Checked construct)} (h : InOrder normalize key items) :
    normalizedItems hstable normalize key items = .ok items :=
  normalizedItems_self h.normal h.sorted

theorem normal_of_normalized (h : g.normalized = .ok g) : Normal g := by
  unfold DesignGraph.normalized at h
  simp only [bind_ok, pure_ok] at h
  obtain ⟨components, hcomponents, nets, hnets, tracks, htracks, pads, hpads, holes, hholes,
    vias, hvias, zones, hzones, wires, hwires, heq⟩ := h
  have hlayers : sortBy id g.layers = g.layers := congrArg DesignGraph.layers heq
  have houtline : normalizedRing g.boardOutline = g.boardOutline :=
    congrArg DesignGraph.boardOutline heq
  have hplacements : sortBy (·.val.componentId) g.placements = g.placements :=
    congrArg DesignGraph.placements heq
  have hjunctions : sortBy (·.val.junctionId) g.schematicJunctions = g.schematicJunctions :=
    congrArg DesignGraph.schematicJunctions heq
  obtain rfl : components = g.components := congrArg DesignGraph.components heq
  obtain rfl : nets = g.nets := congrArg DesignGraph.nets heq
  obtain rfl : tracks = g.tracks := congrArg DesignGraph.tracks heq
  obtain rfl : pads = g.pads := congrArg DesignGraph.pads heq
  obtain rfl : holes = g.holes := congrArg DesignGraph.holes heq
  obtain rfl : vias = g.vias := congrArg DesignGraph.vias heq
  obtain rfl : zones = g.zones := congrArg DesignGraph.zones heq
  obtain rfl : wires = g.schematicWires := congrArg DesignGraph.schematicWires heq
  refine ⟨?_, houtline, normalizedItems_inOrder Component.final hcomponents,
    normalizedItems_inOrder Net.final hnets, ⟨fun _ _ => rfl, ?_⟩,
    normalizedItems_inOrder Track.final htracks, normalizedItems_inOrder FootprintPad.final hpads,
    normalizedItems_inOrder FootprintHole.final hholes, normalizedItems_inOrder Via.final hvias,
    normalizedItems_inOrder CopperZone.final hzones,
    normalizedItems_inOrder SchematicWire.final hwires, ⟨fun _ _ => rfl, ?_⟩⟩
  · exact hlayers ▸ sortBy_sorted g.layers
  · exact hplacements ▸ sortBy_sorted g.placements
  · exact hjunctions ▸ sortBy_sorted g.schematicJunctions

/-- The graph with its pads in the order of their identifiers. -/
def DesignGraph.sortedPads (g : DesignGraph) : DesignGraph :=
  { g with pads := sortBy (·.val.padId) g.pads }

theorem Normal.normalized_sortedPads (h : Normal g.sortedPads) :
    g.normalized = .ok g.sortedPads := by
  have hpads : normalizedItems FootprintPad.postInit_stable FootprintPad.normalized
      FootprintPad.padId g.pads = .ok (sortBy (·.val.padId) g.pads) := by
    refine normalizedItems_ok.mpr ⟨g.pads, ?_, rfl⟩
    refine mapM_self fun pad hpad => Checked.replace_self (h.pads.normal pad ?_)
    exact mem_sortBy.mpr hpad
  unfold DesignGraph.normalized
  simp only [bind_ok, pure_ok]
  refine ⟨_, h.components.normalizedItems, _, h.nets.normalizedItems, _,
    h.tracks.normalizedItems, _, hpads, _, h.holes.normalizedItems, _, h.vias.normalizedItems, _,
    h.zones.normalizedItems, _, h.schematicWires.normalizedItems, ?_⟩
  have hlayers : sortBy id g.layers = g.layers := sortBy_eq_self h.layers
  have houtline : normalizedRing g.boardOutline = g.boardOutline := h.outline
  have hplacements : sortBy (·.val.componentId) g.placements = g.placements :=
    sortBy_eq_self h.placements.sorted
  have hjunctions : sortBy (·.val.junctionId) g.schematicJunctions = g.schematicJunctions :=
    sortBy_eq_self h.schematicJunctions.sorted
  unfold DesignGraph.sortedPads
  simp only [hlayers, houtline, hplacements, hjunctions]

theorem Normal.normalized (h : Normal g) : g.normalized = .ok g := by
  have hself : g.sortedPads = g := by
    unfold DesignGraph.sortedPads
    rw [sortBy_eq_self h.pads.sorted]
  have hsorted : Normal g.sortedPads := hself.symm ▸ h
  rw [hsorted.normalized_sortedPads, hself]

end Validity

end Evleda.Kernel
