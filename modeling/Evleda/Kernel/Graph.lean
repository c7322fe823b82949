/-
The design graph: its normal form, its checks and its hash.

A graph is a header, a board outline and ten collections of records.  Its normal
form sorts every collection by identifier, each record in its own normal form;
the source rebuilds the records on the way, so normalizing may in principle
raise.  `validateGraph` makes the checks that relate records to each other:
identifiers are unique, references resolve, the pads of one logical pin agree,
lands that share copper coincide exactly, plated holes match their pads and
schematic wires do not short two nets.

The result that the rest of the kernel rests on is that a normal form which
passes those checks is its own normal form.
-/
import Evleda.Kernel.Records

namespace Evleda.Kernel

open Outcome

section Graph

variable [UnicodeData] [Hashing]

/-- The checks a graph's constructor makes on its header. -/
def headerChecks (schemaVersion : Int) (projectId : String) (layers : List String) :
    Except Failure Unit := do
  requireInt64 schemaVersion "design graph schema version"
  requireId projectId "project ID"
  layers.forM (requireText · "copper layer name")

structure DesignGraph where
  schemaVersion : Int
  projectId : String
  layers : List String
  boardOutline : List PointNm
  components : List (Checked Component.postInit)
  nets : List (Checked Net.postInit)
  placements : List (Checked FootprintPlacement.postInit)
  tracks : List (Checked Track.postInit)
  pads : List (Checked FootprintPad.postInit)
  holes : List (Checked FootprintHole.postInit)
  vias : List (Checked Via.postInit)
  zones : List (Checked CopperZone.postInit)
  schematicWires : List (Checked SchematicWire.postInit)
  schematicJunctions : List (Checked SchematicJunction.postInit)
  header : headerChecks schemaVersion projectId layers = .ok ()
  deriving DecidableEq

/-! ### Normal form -/

/-- Normalize every record of a collection and sort by identifier. -/
def normalizedItems {α : Type} {construct : α → Except Failure α} (hstable : Stable construct)
    (normalize : α → α) (key : α → String) (items : List (Checked construct)) :
    Except Failure (List (Checked construct)) := do
  let items ← items.mapM (Checked.replace hstable normalize)
  return sortBy (fun item => key item.val) items

omit [Hashing] in
theorem headerChecks_sorted {schemaVersion : Int} {projectId : String} {layers : List String}
    (h : headerChecks schemaVersion projectId layers = .ok ()) :
    headerChecks schemaVersion projectId (sortBy id layers) = .ok () := by
  unfold headerChecks at h ⊢
  simp only [bind_ok, exists_unit, forM_ok, mem_sortBy] at h ⊢
  exact h

theorem DesignGraph.sortedHeader (g : DesignGraph) :
    headerChecks g.schemaVersion g.projectId (sortBy id g.layers) = .ok () :=
  headerChecks_sorted g.header

def DesignGraph.normalized (g : DesignGraph) : Except Failure DesignGraph := do
  let components ← normalizedItems Component.postInit_stable
    Component.normalized Component.componentId g.components
  let nets ← normalizedItems Net.postInit_stable Net.normalized Net.netId g.nets
  let tracks ← normalizedItems Track.postInit_stable
    Track.normalized Track.trackId g.tracks
  let pads ← normalizedItems FootprintPad.postInit_stable
    FootprintPad.normalized FootprintPad.padId g.pads
  let holes ← normalizedItems FootprintHole.postInit_stable
    FootprintHole.normalized FootprintHole.holeId g.holes
  let vias ← normalizedItems Via.postInit_stable Via.normalized Via.viaId g.vias
  let zones ← normalizedItems CopperZone.postInit_stable
    CopperZone.normalized CopperZone.zoneId g.zones
  let schematicWires ← normalizedItems SchematicWire.postInit_stable
    SchematicWire.normalized SchematicWire.wireId g.schematicWires
  return { g with
    layers := sortBy id g.layers
    boardOutline := normalizedRing g.boardOutline
    components := components
    nets := nets
    placements := sortBy (·.val.componentId) g.placements
    tracks := tracks
    pads := pads
    holes := holes
    vias := vias
    zones := zones
    schematicWires := schematicWires
    schematicJunctions := sortBy (·.val.junctionId) g.schematicJunctions
    header := g.sortedHeader }

/-! ### Checks between records -/

/-- A component by its identifier. -/
def DesignGraph.component? (g : DesignGraph) (componentId : String) : Option Component :=
  (g.components.find? (fun c => c.val.componentId == componentId)).map (·.val)

def DesignGraph.pad? (g : DesignGraph) (padId : String) : Option FootprintPad :=
  (g.pads.find? (fun p => p.val.padId == padId)).map (·.val)

def DesignGraph.netIds (g : DesignGraph) : List String := g.nets.map (·.val.netId)

def DesignGraph.placementIds (g : DesignGraph) : List String := g.placements.map (·.val.componentId)

/-- The collections whose identifiers must be unique, with their labels. -/
def DesignGraph.identifiers (g : DesignGraph) : List (String × List String) :=
  [("component IDs", g.components.map (·.val.componentId)),
   ("component references", g.components.map (·.val.reference)),
   ("net IDs", g.netIds),
   ("net names", g.nets.map (·.val.name)),
   ("placement component IDs", g.placementIds),
   ("track IDs", g.tracks.map (·.val.trackId)),
   ("pad IDs", g.pads.map (·.val.padId)),
   ("hole IDs", g.holes.map (·.val.holeId)),
   ("via IDs", g.vias.map (·.val.viaId)),
   ("zone IDs", g.zones.map (·.val.zoneId)),
   ("schematic wire IDs", g.schematicWires.map (·.val.wireId)),
   ("schematic junction IDs", g.schematicJunctions.map (·.val.junctionId))]

def PinRef.repr (m : PinRef) : String :=
  "PinRef(component_id=" ++ Text.repr m.componentId ++ ", pin_number=" ++ Text.repr m.pinNumber ++
    ")"

/-- Bind one member of a net, given the pins bound so far. -/
def DesignGraph.bindPin (g : DesignGraph) (netId : String) (bound : List (PinRef × String))
    (member : Checked PinRef.postInit) : Except Failure (List (PinRef × String)) :=
  match g.component? member.val.componentId with
  | none =>
      .error (violation ("net " ++ netId ++ " references unknown component " ++
        member.val.componentId))
  | some component => do
      require (member.val.pinNumber ∈ component.pins.map (·.val.number))
        (violation ("net " ++ netId ++ " references unknown pin " ++ member.val.pinNumber))
      require (member.val ∉ bound.map Prod.fst)
        (violation ("pin " ++ member.val.repr ++ " belongs to multiple nets"))
      return bound ++ [(member.val, netId)]

/-- `pin_to_net`: the net of every connected pin. -/
def DesignGraph.pinToNet (g : DesignGraph) : Except Failure (List (PinRef × String)) :=
  g.nets.foldlM (fun bound net => net.val.members.foldlM (g.bindPin net.val.netId) bound) []

def DesignGraph.checkPad (g : DesignGraph) (pinToNet : List (PinRef × String))
    (pad : Checked FootprintPad.postInit) : Except Failure Unit :=
  let unplaced := violation "pad requires a known, placed component"
  match g.component? pad.val.componentId with
  | none => .error unplaced
  | some component => do
      require (pad.val.componentId ∈ g.placementIds) unplaced
      match component.pins.filter (fun pin => pin.val.padNumber = pad.val.padNumber) with
      | [pin] => do
          require (∀ layer ∈ pad.val.layers, layer ∈ g.layers)
            (violation "pad references an unknown copper layer")
          require (∀ netId ∈ pad.val.netId, netId ∈ g.netIds)
            (violation "pad references an unknown net")
          require (∀ netId ∈ pinToNet.lookup ⟨pad.val.componentId, pin.val.number⟩,
              pad.val.netId = some netId)
            (violation ("pad " ++ pad.val.padId ++
              " net disagrees with schematic pin connectivity"))
      | _ => .error (violation "pad number must map to exactly one component pin")

/-- All physical pads of one logical pad have the same net. -/
def DesignGraph.checkLogicalPad (g : DesignGraph) (pad : Checked FootprintPad.postInit) :
    Except Failure Unit :=
  require (∀ other ∈ g.pads, other.val.componentId = pad.val.componentId →
      other.val.padNumber = pad.val.padNumber → other.val.netId = pad.val.netId)
    (violation ("physical pads for " ++ pad.val.componentId ++ ":" ++ pad.val.padNumber ++
      " must have identical net semantics"))

/-- What the members of a shared land have in common: the pad in normal form without its identity. -/
def sharedLandGeometry (pad : FootprintPad) : FootprintPad :=
  { pad.normalized with
    padId := "", padNumber := "", padDrill := 0, locked := false, sharedLandGroupId := none }

def DesignGraph.landGroup (g : DesignGraph) (groupId : String) :
    List (Checked FootprintPad.postInit) :=
  g.pads.filter (fun pad => pad.val.sharedLandGroupId = some groupId)

def DesignGraph.checkSharedLand (g : DesignGraph) (pad : Checked FootprintPad.postInit) :
    Except Failure Unit :=
  match pad.val.sharedLandGroupId with
  | none => .ok ()
  | some groupId => do
      let group := g.landGroup groupId
      let subject := "shared land group " ++ groupId
      require (2 ≤ group.length)
        (violation (subject ++ " must contain at least two physical pad records"))
      require (∀ p ∈ group, ∀ q ∈ group, p.val.componentId = q.val.componentId)
        (violation (subject ++ " cannot cross component boundaries"))
      require ((group.map (·.val.padNumber)).Nodup)
        (violation (subject ++ " must preserve distinct logical pad numbers"))
      require (∀ p ∈ group, ∀ q ∈ group, sharedLandGeometry p.val = sharedLandGeometry q.val)
        (violation (subject ++ " members must have exact identical geometry and net"))
      require (∀ p ∈ g.pads, p.val.padId ∉ group.map (·.val.padId) →
          ∀ q ∈ group, sharedLandGeometry p.val ≠ sharedLandGeometry q.val)
        (violation (subject ++ " cannot omit an exact coincident physical pad"))

/-- The checks on one hole, given the pads bound so far. -/
def DesignGraph.checkHole (g : DesignGraph) (bound : List String)
    (hole : Checked FootprintHole.postInit) : Except Failure (List String) := do
  require ((g.component? hole.val.componentId).isSome ∧ hole.val.componentId ∈ g.placementIds)
    (violation "footprint hole requires a known, placed component")
  match hole.val.padId with
  | none => return bound
  | some padId => do
      require (padId ∉ bound)
        (violation "a physical pad can bind only one plated footprint hole")
      let unknown := violation "plated footprint hole references an unknown component pad"
      match g.pad? padId with
      | none => .error unknown
      | some pad => do
          require (pad.componentId = hole.val.componentId) unknown
          require (pad.drillX = hole.val.drillX ∧ pad.drillY = hole.val.drillY ∧
              pad.normalized.drillRotationUdeg = hole.val.normalized.drillRotationUdeg)
            (violation "plated footprint hole must match its exact pad drill geometry")
          require (pad.center = hole.val.center)
            (violation "plated footprint hole must share its pad center")
          return bound ++ [padId]

/-- Two wires of one sheet neither overlap nor, on different nets, touch. -/
def checkWirePair (first second : Checked SchematicWire.postInit) : Except Failure Unit :=
  requireWhen (first.val.sheetId = second.val.sheetId) do
    (segments first.val.vertices).forM fun (a, b) =>
      (segments second.val.vertices).forM fun (c, d) =>
        requireWhen (segmentsIntersect a b c d) do
          require (collinearOverlapHasLength a b c d = false)
            (violation "schematic wire segments cannot overlap")
          requireWhen (first.val.netId ≠ second.val.netId) do
            require (pointOnSegment a c d = false ∧ pointOnSegment b c d = false ∧
                pointOnSegment c a b = false ∧ pointOnSegment d a b = false)
              (violation "schematic wires on different nets cannot touch or overlap")

def DesignGraph.supportingWires (g : DesignGraph) (junction : SchematicJunction) : List String :=
  (g.schematicWires.filter (fun wire => wire.val.sheetId = junction.sheetId ∧
    wire.val.netId = junction.netId ∧
    (segments wire.val.vertices).any (fun s => pointOnSegment junction.position s.1 s.2))).map
    (·.val.wireId)

/-- The checks on one junction, given the places taken so far. -/
def DesignGraph.checkJunction (g : DesignGraph) (taken : List (String × PointNm))
    (junction : Checked SchematicJunction.postInit) :
    Except Failure (List (String × PointNm)) := do
  require (junction.val.netId ∈ g.netIds)
    (violation "schematic junction references an unknown net")
  let location := (junction.val.sheetId, junction.val.position)
  require (location ∉ taken)
    (violation "a schematic sheet position can contain only one junction")
  require (2 ≤ (g.supportingWires junction.val).dedup.length)
    (violation "schematic junction must join at least two wires on its exact net and sheet")
  return taken ++ [location]

def validateGraph (g : DesignGraph) : Except Failure Unit := do
  require (g.schemaVersion = 1) (violation "unsupported design graph schema")
  requireId g.projectId "project ID"
  require (g.layers ≠ [] ∧ ∀ layer ∈ g.layers, Text.isBlank layer = false)
    (violation "at least one non-empty copper layer is required")
  require g.layers.Nodup (violation "layer names must be unique")
  requireWhen (g.boardOutline ≠ []) (validateSimplePolygon g.boardOutline "board outline")
  g.identifiers.forM fun (label, values) =>
    require values.Nodup (violation (label ++ " must be unique"))
  let pinToNet ← g.pinToNet
  require (∀ placement ∈ g.placements, (g.component? placement.val.componentId).isSome)
    (violation "placement references an unknown component")
  require (∀ track ∈ g.tracks, track.val.netId ∈ g.netIds ∧ track.val.layer ∈ g.layers)
    (violation "track references an unknown net or layer")
  g.pads.forM (g.checkPad pinToNet)
  g.pads.forM g.checkLogicalPad
  g.pads.forM g.checkSharedLand
  let _ ← g.holes.foldlM g.checkHole []
  require (∀ via ∈ g.vias, via.val.netId ∈ g.netIds ∧ ∀ layer ∈ via.val.layers, layer ∈ g.layers)
    (violation "via references an unknown net or copper layer")
  g.zones.forM fun zone => do
    require (zone.val.netId ∈ g.netIds ∧ zone.val.layer ∈ g.layers)
      (violation "zone references an unknown net or copper layer")
    validateSimplePolygon zone.val.outline ("zone " ++ zone.val.zoneId ++ " outline")
  require (∀ wire ∈ g.schematicWires, wire.val.netId ∈ g.netIds)
    (violation "schematic wire references an unknown net")
  forPairs checkWirePair g.schematicWires
  let _ ← g.schematicJunctions.foldlM g.checkJunction []
  return ()

/-! ### Hash -/

def DesignGraph.toJson (g : DesignGraph) : Json :=
  Json.object [
    ("schema_version", .int g.schemaVersion), ("project_id", .str g.projectId),
    ("layers", textsJson g.layers), ("board_outline", .arr (g.boardOutline.map PointNm.toJson)),
    ("components", .arr (g.components.map (·.val.toJson))),
    ("nets", .arr (g.nets.map (·.val.toJson))),
    ("placements", .arr (g.placements.map (·.val.toJson))),
    ("tracks", .arr (g.tracks.map (·.val.toJson))),
    ("pads", .arr (g.pads.map (·.val.toJson))),
    ("holes", .arr (g.holes.map (·.val.toJson))),
    ("vias", .arr (g.vias.map (·.val.toJson))),
    ("zones", .arr (g.zones.map (·.val.toJson))),
    ("schematic_wires", .arr (g.schematicWires.map (·.val.toJson))),
    ("schematic_junctions", .arr (g.schematicJunctions.map (·.val.toJson)))]

def DesignGraph.graphHash (g : DesignGraph) : Except Failure String := do
  let normalized ← g.normalized
  validateGraph normalized
  return stableHash "flux-clone-design-graph-v1" normalized.toJson

/-! ### A valid normal form is final -/

/-- A record rebuilt in normal form is in normal form. -/
def Final {α : Type} {construct : α → Except Failure α} (hstable : Stable construct)
    (normalize : α → α) : Prop :=
  ∀ c c' : Checked construct, Checked.replace hstable normalize c = .ok c' →
    normalize c'.val = c'.val

section Items

omit [UnicodeData] [Hashing]

variable {α : Type} {construct : α → Except Failure α} {hstable : Stable construct}
  {normalize : α → α} {key : α → String} {items items' : List (Checked construct)}

theorem normalizedItems_ok :
    normalizedItems hstable normalize key items = .ok items' ↔
      ∃ rebuilt, items.mapM (Checked.replace hstable normalize) = .ok rebuilt ∧
        sortBy (fun item => key item.val) rebuilt = items' := by
  unfold normalizedItems
  simp only [bind_ok, pure_ok]

/-- Normal, sorted records are left as they are. -/
theorem normalizedItems_self (hnormal : ∀ c ∈ items, normalize c.val = c.val)
    (hsorted : SortedBy (fun item => key item.val) items) :
    normalizedItems hstable normalize key items = .ok items := by
  refine normalizedItems_ok.mpr ⟨items, ?_, sortBy_eq_self hsorted⟩
  exact mapM_self fun c hc => Checked.replace_self (hnormal c hc)

theorem normalizedItems_normal (hfinal : Final hstable normalize)
    (h : normalizedItems hstable normalize key items = .ok items') :
    (∀ c ∈ items', normalize c.val = c.val) ∧ SortedBy (fun item => key item.val) items' := by
  obtain ⟨rebuilt, hrebuilt, rfl⟩ := normalizedItems_ok.mp h
  refine ⟨?_, sortBy_sorted rebuilt⟩
  intro c' hc'
  rw [mem_sortBy] at hc'
  obtain ⟨c, -, hc⟩ := mapM_mem hrebuilt hc'
  exact hfinal c c' hc

theorem normalizedItems_idem (hfinal : Final hstable normalize)
    (h : normalizedItems hstable normalize key items = .ok items') :
    normalizedItems hstable normalize key items' = .ok items' := by
  obtain ⟨hnormal, hsorted⟩ := normalizedItems_normal hfinal h
  exact normalizedItems_self hnormal hsorted

/-- With a constructor that only checks it is enough that normalizing twice is normalizing once. -/
theorem final_of_idem {checks : α → Except Failure Unit}
    (hidem : ∀ a, checks (normalize a) = .ok () → normalize (normalize a) = normalize a) :
    Final (checking_onlyChecks checks).stable normalize := by
  intro c c' h
  obtain ⟨hchecks, hval⟩ := checking_ok.mp (Checked.make_ok.mp h)
  rw [hval]
  exact hidem c.val hchecks

end Items

section

omit [Hashing]

theorem Component.final : Final Component.postInit_stable
    Component.normalized :=
  final_of_idem fun c _ => by
    unfold Component.normalized
    simp only [sortBy_idem]

theorem Net.final : Final Net.postInit_stable Net.normalized :=
  final_of_idem fun n _ => by
    unfold Net.normalized
    simp only [sortBy_idem]

theorem Via.final : Final Via.postInit_stable Via.normalized :=
  final_of_idem fun v _ => by
    unfold Via.normalized
    simp only [sortBy_idem]

theorem Track.final : Final Track.postInit_stable Track.normalized :=
  final_of_idem fun t _ => by
    unfold Track.normalized
    simp only [min_le_max, inf_of_le_left, sup_of_le_right]

theorem SchematicWire.final : Final SchematicWire.postInit_stable
    SchematicWire.normalized :=
  final_of_idem fun w _ => by
    unfold SchematicWire.normalized
    rcases le_total w.vertices w.vertices.reverse with h | h
    · simp only [min_eq_left h]
    · simp only [min_eq_right h, List.reverse_reverse, min_eq_left h]

end

theorem CopperZone.final : Final CopperZone.postInit_stable
    CopperZone.normalized :=
  final_of_idem fun z hchecks => by
    have hring : validateSimplePolygon (normalizedRing z.outline) "zone outline" = .ok () := by
      unfold CopperZone.checks at hchecks
      simp only [bind_ok, exists_unit] at hchecks
      exact hchecks.2.2.2.1
    obtain ⟨hlength, hnodup⟩ := validateSimplePolygon_ring hring
    unfold CopperZone.normalized
    simp only [normalizedRing_idem hlength hnodup]

section

omit [Hashing]

theorem FootprintPad.fillDrill_val (c : Checked FootprintPad.postInit) :
    c.val.fillDrill = c.val := by
  have h := c.accepted
  unfold FootprintPad.postInit at h
  simp only [bind_ok, exists_unit, pure_ok] at h
  exact h.2

theorem FootprintPad.final : Final FootprintPad.postInit_stable FootprintPad.normalized := by
  intro c c' h
  have hval : c'.val = c.val.normalized := by
    have hmake := Checked.make_ok.mp h
    unfold FootprintPad.postInit at hmake
    simp only [bind_ok, exists_unit, pure_ok] at hmake
    -- normalizing does not change the fields the drill is filled in from
    have hfill := FootprintPad.fillDrill_val c
    have hx : c.val.fillDrill.drillX = c.val.drillX := by rw [hfill]
    have hy : c.val.fillDrill.drillY = c.val.drillY := by rw [hfill]
    have hdiameter : c.val.fillDrill.padDrill = c.val.padDrill := by rw [hfill]
    have hfields : c.val.normalized.fillDrill = { c.val.normalized with
        drillX := c.val.fillDrill.drillX
        drillY := c.val.fillDrill.drillY
        padDrill := c.val.fillDrill.padDrill } := rfl
    rw [← hmake.2, hfields, hx, hy, hdiameter]
    rfl
  rw [hval]
  unfold FootprintPad.normalized
  simp only [sortBy_idem, normalizedDrillRotation_idem]

theorem FootprintHole.fillDrill_val (c : Checked FootprintHole.postInit) :
    c.val.fillDrill = c.val := by
  have h := c.accepted
  unfold FootprintHole.postInit at h
  simp only [bind_ok, exists_unit, pure_ok] at h
  exact h.2

theorem FootprintHole.final : Final FootprintHole.postInit_stable FootprintHole.normalized := by
  intro c c' h
  have hval : c'.val = c.val.normalized := by
    have hmake := Checked.make_ok.mp h
    unfold FootprintHole.postInit at hmake
    simp only [bind_ok, exists_unit, pure_ok] at hmake
    have hfill := FootprintHole.fillDrill_val c
    have hx : c.val.fillDrill.drillX = c.val.drillX := by rw [hfill]
    have hy : c.val.fillDrill.drillY = c.val.drillY := by rw [hfill]
    have hfields : c.val.normalized.fillDrill = { c.val.normalized with
        drillX := c.val.fillDrill.drillX
        drillY := c.val.fillDrill.drillY } := by
      unfold FootprintHole.fillDrill FootprintHole.normalized
      split <;> rfl
    rw [← hmake.2, hfields, hx, hy]
    rfl
  rw [hval]
  unfold FootprintHole.normalized
  simp only [normalizedDrillRotation_idem]

end

theorem validateGraph_outline {g : DesignGraph} (h : validateGraph g = .ok ())
    (hne : g.boardOutline ≠ []) : validateSimplePolygon g.boardOutline "board outline" = .ok () := by
  unfold validateGraph at h
  simp only [bind_ok, exists_unit, require_ok, requireWhen_ok] at h
  exact h.2.2.2.2.1 hne

/-- **A normal form that passes the checks is its own normal form.** -/
theorem normalized_idem {g g' : DesignGraph} (h : g.normalized = .ok g')
    (hvalid : validateGraph g' = .ok ()) : g'.normalized = .ok g' := by
  unfold DesignGraph.normalized at h
  simp only [bind_ok, pure_ok] at h
  obtain ⟨components, hcomponents, nets, hnets, tracks, htracks, pads, hpads, holes, hholes,
    vias, hvias, zones, hzones, wires, hwires, rfl⟩ := h
  have hring : normalizedRing (normalizedRing g.boardOutline) = normalizedRing g.boardOutline := by
    by_cases hne : normalizedRing g.boardOutline = []
    · rw [hne]
      rfl
    · obtain ⟨hlength, hnodup⟩ := validateSimplePolygon_ring (validateGraph_outline hvalid hne)
      exact normalizedRing_idem hlength hnodup
  unfold DesignGraph.normalized
  simp only [bind_ok, pure_ok]
  refine ⟨components, normalizedItems_idem Component.final hcomponents,
    nets, normalizedItems_idem Net.final hnets,
    tracks, normalizedItems_idem Track.final htracks,
    pads, normalizedItems_idem FootprintPad.final hpads,
    holes, normalizedItems_idem FootprintHole.final hholes,
    vias, normalizedItems_idem Via.final hvias,
    zones, normalizedItems_idem CopperZone.final hzones,
    wires, normalizedItems_idem SchematicWire.final hwires, ?_⟩
  simp only [sortBy_idem, hring]

end Graph

end Evleda.Kernel
