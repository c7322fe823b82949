/-
A design keeps its meaning when it is written down differently.

The checks between records look records up by identifier, compare fields that a
redrawn record keeps, or ask geometric questions that do not depend on the
drawing.  So every fact a valid graph has carries over to a redrawn one, and with
the normal forms of the records the graphs have one normal form and one hash.
-/
import Evleda.Kernel.History
import Evleda.Kernel.Redrawn
import Mathlib.Data.List.Dedup

namespace Evleda.Kernel

open Outcome

section SameDesign

variable [UnicodeData] [Hashing] {g g' : DesignGraph}

/-! ### Checks as facts, for one pad and for two wires -/

/-- What the checks on one pad ask for. -/
def PadFits (g : DesignGraph) (pad : FootprintPad) : Prop :=
  ∃ component pin, g.component? pad.componentId = some component ∧
    pad.componentId ∈ g.placementIds ∧
    component.pins.filter (fun pin => pin.val.padNumber = pad.padNumber) = [pin] ∧
    (∀ layer ∈ pad.layers, layer ∈ g.layers) ∧ (∀ netId ∈ pad.netId, netId ∈ g.netIds) ∧
    ∀ netId ∈ g.pinNets.lookup ⟨pad.componentId, pin.val.number⟩, pad.netId = some netId

theorem checkPad_ok {pad : Checked FootprintPad.postInit} :
    g.checkPad g.pinNets pad = .ok () ↔ PadFits g pad.val := by
  unfold DesignGraph.checkPad PadFits
  split
  · rename_i hnone
    simp [hnone]
  · rename_i component hcomponent
    simp only [bind_ok, exists_unit, require_ok, hcomponent,
      Option.some.injEq, exists_and_left, exists_eq_left']
    split
    · rename_i pin hpin
      simp only [bind_ok, exists_unit, require_ok, hpin, List.cons.injEq,
        and_true, exists_eq_left']
    · rename_i hnot
      simp only [reduceCtorEq, and_false, false_iff, not_and, not_exists]
      intro _ pin hpin
      exact absurd hpin (hnot pin)

/-- What the checks on a shared land ask for. -/
structure LandFits (g : DesignGraph) (groupId : String) : Prop where
  two : 2 ≤ (g.landGroup groupId).length
  component : ∀ p ∈ g.landGroup groupId, ∀ q ∈ g.landGroup groupId,
    p.val.componentId = q.val.componentId
  numbers : ((g.landGroup groupId).map (·.val.padNumber)).Nodup
  geometry : ∀ p ∈ g.landGroup groupId, ∀ q ∈ g.landGroup groupId,
    sharedLandGeometry p.val = sharedLandGeometry q.val
  whole : ∀ p ∈ g.pads, p.val.padId ∉ (g.landGroup groupId).map (·.val.padId) →
    ∀ q ∈ g.landGroup groupId, sharedLandGeometry p.val ≠ sharedLandGeometry q.val

theorem checkSharedLand_ok {pad : Checked FootprintPad.postInit} :
    g.checkSharedLand pad = .ok () ↔
      ∀ groupId ∈ pad.val.sharedLandGroupId, LandFits g groupId := by
  unfold DesignGraph.checkSharedLand
  split
  · rename_i hnone
    simp [hnone]
  · rename_i groupId hsome
    simp only [bind_ok, exists_unit, require_ok, hsome,
      Option.mem_some_iff, forall_eq']
    constructor
    · rintro ⟨h₁, h₂, h₃, h₄, h₅⟩
      exact ⟨h₁, h₂, h₃, h₄, h₅⟩
    · rintro ⟨h₁, h₂, h₃, h₄, h₅⟩
      exact ⟨h₁, h₂, h₃, h₄, h₅⟩

/-- Two wires neither overlap nor, on different nets, touch. -/
def WiresApart (w w' : SchematicWire) : Prop :=
  w.sheetId = w'.sheetId → ∀ s ∈ segments w.vertices, ∀ t ∈ segments w'.vertices,
    segmentsIntersect s.1 s.2 t.1 t.2 = true →
      collinearOverlapHasLength s.1 s.2 t.1 t.2 = false ∧
      (w.netId ≠ w'.netId →
        pointOnSegment s.1 t.1 t.2 = false ∧ pointOnSegment s.2 t.1 t.2 = false ∧
          pointOnSegment t.1 s.1 s.2 = false ∧ pointOnSegment t.2 s.1 s.2 = false)

omit [Hashing] in
theorem checkWirePair_ok {w w' : Checked SchematicWire.postInit} :
    checkWirePair w w' = .ok () ↔ WiresApart w.val w'.val := by
  unfold checkWirePair WiresApart
  simp only [requireWhen_ok, forM_ok, bind_ok, exists_unit,
    require_ok]

omit [UnicodeData] [Hashing] in
theorem WiresApart.reversed {w w' : SchematicWire} (h : WiresApart w w') :
    WiresApart { w with vertices := w.vertices.reverse } w' := by
  intro hsheet s hs t ht hmeet
  have hs' : (s.2, s.1) ∈ segments w.vertices := mem_segments_reverse.mp hs
  rw [← segmentsIntersect_swap] at hmeet
  obtain ⟨hoverlap, hnets⟩ := h hsheet (s.2, s.1) hs' t ht hmeet
  rw [collinearOverlap_swap] at hoverlap
  refine ⟨hoverlap, fun hne => ?_⟩
  obtain ⟨h₁, h₂, h₃, h₄⟩ := hnets hne
  rw [pointOnSegment_swap] at h₃ h₄
  exact ⟨h₂, h₁, h₃, h₄⟩

section

omit [Hashing]

theorem SchematicWire.segments_nonzero (w : Checked SchematicWire.postInit) :
    ∀ s ∈ segments w.val.vertices, s.1 ≠ s.2 :=
  ((SchematicWire.checks_iff w.val).mp (checking_ok.mp w.accepted).1).2.2.2.2.1

theorem WiresApart.symm {w w' : Checked SchematicWire.postInit} (h : WiresApart w.val w'.val) :
    WiresApart w'.val w.val := by
  intro hsheet t ht s hs hmeet
  rw [segmentsIntersect_comm] at hmeet
  obtain ⟨hoverlap, hnets⟩ := h hsheet.symm s hs t ht hmeet
  have hcomm := collinearOverlap_comm (SchematicWire.segments_nonzero w s hs)
    (SchematicWire.segments_nonzero w' t ht)
  rw [← hcomm] at hoverlap
  refine ⟨hoverlap, fun hne => ?_⟩
  obtain ⟨h₁, h₂, h₃, h₄⟩ := hnets hne.symm
  exact ⟨h₃, h₄, h₁, h₂⟩

theorem WiresApart.redrawn {v v' w w' : Checked SchematicWire.postInit}
    (hv : v.val.Redrawn v'.val) (hw : w.val.Redrawn w'.val) (h : WiresApart v.val w.val) :
    WiresApart v'.val w'.val := by
  have hfirst : WiresApart v'.val w.val := by
    rcases hv with heq | heq
    · rw [heq]
      exact h
    · rw [heq]
      exact h.reversed
  refine WiresApart.symm ?_
  have hsecond := WiresApart.symm hfirst
  rcases hw with heq | heq
  · rw [heq]
    exact hsecond
  · rw [heq]
    exact hsecond.reversed

theorem sharedLandGeometry_redrawn {p p' : Checked FootprintPad.postInit}
    (hpad : p.val.Redrawn drillTurns p'.val) :
    sharedLandGeometry p.val = sharedLandGeometry p'.val := by
  unfold sharedLandGeometry
  rw [(FootprintPad.redrawn_iff p p').mp hpad]

end

omit [UnicodeData] [Hashing] in
theorem SchematicWire.Redrawn.touches {w w' : SchematicWire} (h : w.Redrawn w') (p : PointNm) :
    (segments w.vertices).any (fun s => pointOnSegment p s.1 s.2) =
      (segments w'.vertices).any (fun s => pointOnSegment p s.1 s.2) := by
  rcases h with heq | heq
  · rw [heq]
  · rw [heq, Bool.eq_iff_iff, List.any_eq_true, List.any_eq_true]
    constructor
    · rintro ⟨s, hs, hon⟩
      refine ⟨(s.2, s.1), mem_segments_reverse.mpr hs, ?_⟩
      rw [pointOnSegment_swap]
      exact hon
    · rintro ⟨s, hs, hon⟩
      refine ⟨(s.2, s.1), mem_segments_reverse.mp hs, ?_⟩
      rw [pointOnSegment_swap]
      exact hon

/-! ### What a redrawn graph has in common with the first -/

section Kept

variable (h : g.Redrawn drillTurns g')

include h

theorem DesignGraph.Redrawn.mem_layers {layer : String} :
    layer ∈ g.layers ↔ layer ∈ g'.layers :=
  h.layers.mem_iff

theorem DesignGraph.Redrawn.netIds : g.netIds.Perm g'.netIds := by
  refine h.nets.map_perm ?_
  intro n n' hnet
  rw [hnet.rest]

theorem DesignGraph.Redrawn.placementIds : g.placementIds.Perm g'.placementIds :=
  h.placements.map _

theorem DesignGraph.Redrawn.connections : g.connections.Perm g'.connections := by
  refine h.nets.flatMap_perm ?_
  intro n n' hnet
  have hid : n'.val.netId = n.val.netId := by rw [hnet.rest]
  rw [hid]
  exact hnet.members.map _

theorem DesignGraph.Redrawn.pinNets : g.pinNets.Perm g'.pinNets :=
  h.connections.map _

theorem DesignGraph.Redrawn.identifiers
    (hg : ∀ collection ∈ g.identifiers, collection.2.Nodup) :
    ∀ collection ∈ g'.identifiers, collection.2.Nodup := by
  unfold DesignGraph.identifiers at hg ⊢
  simp only [List.forall_mem_cons, List.not_mem_nil, false_imp_iff, implies_true, and_true]
    at hg ⊢
  obtain ⟨h₁, h₂, h₃, h₄, h₅, h₆, h₇, h₈, h₉, h₁₀, h₁₁, h₁₂⟩ := hg
  refine ⟨?_, ?_, h.netIds.nodup_iff.mp h₃, ?_, h.placementIds.nodup_iff.mp h₅, ?_, ?_, ?_, ?_, ?_,
    ?_, (h.schematicJunctions.map _).nodup_iff.mp h₁₂⟩
  · refine (h.components.map_perm ?_).nodup_iff.mp h₁
    intro c c' hc
    rw [hc.rest]
  · refine (h.components.map_perm ?_).nodup_iff.mp h₂
    intro c c' hc
    rw [hc.rest]
  · refine (h.nets.map_perm ?_).nodup_iff.mp h₄
    intro n n' hn
    rw [hn.rest]
  · refine (h.tracks.map_perm ?_).nodup_iff.mp h₆
    rintro t t' (ht | ht) <;> rw [ht]
  · refine (h.pads.map_perm ?_).nodup_iff.mp h₇
    intro p p' hp
    rw [hp.rest]
  · refine (h.holes.map_perm ?_).nodup_iff.mp h₈
    intro q q' hq
    rw [hq.rest]
  · refine (h.vias.map_perm ?_).nodup_iff.mp h₉
    intro v v' hv
    rw [hv.rest]
  · refine (h.zones.map_perm ?_).nodup_iff.mp h₁₀
    intro z z' hz
    rw [hz.rest]
  · refine (h.schematicWires.map_perm ?_).nodup_iff.mp h₁₁
    rintro w w' (hw | hw) <;> rw [hw]

variable (hg : Valid g)

include hg

theorem DesignGraph.Redrawn.componentIds :
    (g'.components.map (·.val.componentId)).Nodup :=
  h.identifiers hg.identifiers ("component IDs", g'.components.map (·.val.componentId))
    (by simp [DesignGraph.identifiers])

theorem DesignGraph.Redrawn.padIds : (g'.pads.map (·.val.padId)).Nodup :=
  h.identifiers hg.identifiers ("pad IDs", g'.pads.map (·.val.padId))
    (by simp [DesignGraph.identifiers])

theorem DesignGraph.Redrawn.component? {componentId : String} {c : Component}
    (hc : g.component? componentId = some c) :
    ∃ c', g'.component? componentId = some c' ∧ c.Redrawn c' := by
  unfold DesignGraph.component? at hc ⊢
  obtain ⟨item, hitem, rfl⟩ := Option.map_eq_some_iff.mp hc
  have hid : item.val.componentId = componentId := by
    simpa using List.find?_some hitem
  obtain ⟨item', hitem', hredrawn⟩ := h.components.mem_left (List.mem_of_find?_eq_some hitem)
  have hid' : item'.val.componentId = componentId := by rw [hredrawn.rest, hid]
  have hfound := find?_of_nodup (h.componentIds hg) hitem' hid'
  exact ⟨item'.val, by rw [hfound]; rfl, hredrawn⟩

theorem DesignGraph.Redrawn.component_isSome {componentId : String}
    (hsome : (g.component? componentId).isSome) : (g'.component? componentId).isSome := by
  obtain ⟨c, hc⟩ := Option.isSome_iff_exists.mp hsome
  obtain ⟨c', hc', -⟩ := h.component? hg hc
  rw [hc']
  rfl

theorem DesignGraph.Redrawn.pad? {padId : String} {p : FootprintPad} (hp : g.pad? padId = some p) :
    ∃ p', g'.pad? padId = some p' ∧ p.Redrawn drillTurns p' ∧ p.normalized = p'.normalized := by
  unfold DesignGraph.pad? at hp ⊢
  obtain ⟨item, hitem, rfl⟩ := Option.map_eq_some_iff.mp hp
  have hid : item.val.padId = padId := by
    simpa using List.find?_some hitem
  obtain ⟨item', hitem', hredrawn⟩ := h.pads.mem_left (List.mem_of_find?_eq_some hitem)
  have hid' : item'.val.padId = padId := by rw [hredrawn.rest, hid]
  have hfound := find?_of_nodup (h.padIds hg) hitem' hid'
  exact ⟨item'.val, by rw [hfound]; rfl, hredrawn, (FootprintPad.redrawn_iff _ _).mp hredrawn⟩

theorem DesignGraph.Redrawn.knownPin {m : PinRef} (hm : KnownPin g m) : KnownPin g' m := by
  obtain ⟨c, hc, hpin⟩ := hm
  obtain ⟨c', hc', hredrawn⟩ := h.component? hg hc
  exact ⟨c', hc', (hredrawn.pins.map _).mem_iff.mp hpin⟩

theorem DesignGraph.Redrawn.padFits {p p' : FootprintPad} (hpad : p.Redrawn drillTurns p')
    (hfits : PadFits g p) : PadFits g' p' := by
  obtain ⟨c, pin, hc, hplaced, hpin, hlayers, hnet, hbound⟩ := hfits
  obtain ⟨c', hc', hredrawn⟩ := h.component? hg hc
  have hcomponent : p'.componentId = p.componentId := by rw [hpad.rest]
  have hnumber : p'.padNumber = p.padNumber := by rw [hpad.rest]
  have hnetId : p'.netId = p.netId := by rw [hpad.rest]
  have hkeys : ((g'.pinNets).map Prod.fst).Nodup := by
    refine (h.pinNets.map _).nodup_iff.mp ?_
    unfold DesignGraph.pinNets
    rw [List.map_map]
    exact hg.pinsNodup
  have hkeys' : ((g.pinNets).map Prod.fst).Nodup := (h.pinNets.map _).nodup_iff.mpr hkeys
  unfold PadFits
  rw [hcomponent, hnumber, hnetId]
  refine ⟨c', pin, hc', h.placementIds.mem_iff.mp hplaced, ?_, ?_, ?_, ?_⟩
  · have hperm := hredrawn.pins.filter (fun pin => decide (pin.val.padNumber = p.padNumber))
    rw [hpin] at hperm
    exact List.perm_singleton.mp hperm.symm
  · intro layer hlayer
    exact h.mem_layers.mp (hlayers layer (hpad.layers.mem_iff.mpr hlayer))
  · intro netId hmem
    exact h.netIds.mem_iff.mp (hnet netId hmem)
  · intro netId hmem
    refine hbound netId ?_
    rw [Option.mem_def, lookup_eq_some_iff_mem hkeys] at hmem
    rw [Option.mem_def, lookup_eq_some_iff_mem hkeys']
    exact h.pinNets.mem_iff.mpr hmem

omit hg in
theorem DesignGraph.Redrawn.landGroup (groupId : String) :
    SameRecords (FootprintPad.Redrawn drillTurns) (g.landGroup groupId)
      (g'.landGroup groupId) := by
  refine h.pads.filter ?_
  intro p p' hpad
  have hgroup : p'.val.sharedLandGroupId = p.val.sharedLandGroupId := by rw [hpad.rest]
  rw [hgroup]

omit hg in
theorem DesignGraph.Redrawn.landFits {groupId : String} (hfits : LandFits g groupId) :
    LandFits g' groupId := by
  have hgroup := h.landGroup groupId
  constructor
  · rw [← hgroup.length_eq]
    exact hfits.two
  · intro p' hp' q' hq'
    obtain ⟨p, hp, hpp'⟩ := hgroup.mem_right hp'
    obtain ⟨q, hq, hqq'⟩ := hgroup.mem_right hq'
    rw [hpp'.rest, hqq'.rest]
    exact hfits.component p hp q hq
  · refine (hgroup.map_perm ?_).nodup_iff.mp hfits.numbers
    intro p p' hpp'
    rw [hpp'.rest]
  · intro p' hp' q' hq'
    obtain ⟨p, hp, hpp'⟩ := hgroup.mem_right hp'
    obtain ⟨q, hq, hqq'⟩ := hgroup.mem_right hq'
    rw [← sharedLandGeometry_redrawn hpp', ← sharedLandGeometry_redrawn hqq']
    exact hfits.geometry p hp q hq
  · intro p' hp' hout q' hq'
    obtain ⟨p, hp, hpp'⟩ := h.pads.mem_right hp'
    obtain ⟨q, hq, hqq'⟩ := hgroup.mem_right hq'
    rw [← sharedLandGeometry_redrawn hpp', ← sharedLandGeometry_redrawn hqq']
    refine hfits.whole p hp ?_ q hq
    intro hin
    have hids := hgroup.map_perm (f := fun pad => pad.val.padId) fun p p' hpp' => by rw [hpp'.rest]
    have hid : p'.val.padId = p.val.padId := by rw [hpp'.rest]
    rw [hid] at hout
    exact hout (hids.mem_iff.mp hin)

theorem DesignGraph.Redrawn.holeFits {q q' : Checked FootprintHole.postInit}
    (hhole : q.val.Redrawn drillTurns q'.val) (hfits : HoleFits g q.val) : HoleFits g' q'.val := by
  have hcomponent : q'.val.componentId = q.val.componentId := by rw [hhole.rest]
  have hpadId : q'.val.padId = q.val.padId := by rw [hhole.rest]
  have hx : q'.val.drillX = q.val.drillX := by rw [hhole.rest]
  have hy : q'.val.drillY = q.val.drillY := by rw [hhole.rest]
  have hcenter : q'.val.center = q.val.center := by rw [hhole.rest]
  have hnormal := (FootprintHole.redrawn_iff q q').mp hhole
  refine ⟨?_, ?_⟩
  · rw [hcomponent]
    exact ⟨h.component_isSome hg hfits.placed.1, h.placementIds.mem_iff.mp hfits.placed.2⟩
  · rw [hpadId, hcomponent, hx, hy, hcenter, ← hnormal]
    intro padId hmem
    obtain ⟨pad, hpad, howner, hdrill, hat⟩ := hfits.plated padId hmem
    obtain ⟨pad', hpad', hredrawn, hsame⟩ := h.pad? hg hpad
    refine ⟨pad', hpad', ?_, ?_, ?_⟩
    · rw [hredrawn.rest]
      exact howner
    · rw [← hsame]
      have hpx : pad'.drillX = pad.drillX := by rw [hredrawn.rest]
      have hpy : pad'.drillY = pad.drillY := by rw [hredrawn.rest]
      rw [hpx, hpy]
      exact hdrill
    · rw [hredrawn.rest]
      exact hat

omit hg in
theorem DesignGraph.Redrawn.supportingWires (junction : SchematicJunction) :
    (g.supportingWires junction).Perm (g'.supportingWires junction) := by
  have hwires : SameRecords SchematicWire.Redrawn
      (g.schematicWires.filter (fun wire => wire.val.sheetId = junction.sheetId ∧
        wire.val.netId = junction.netId ∧
        (segments wire.val.vertices).any (fun s => pointOnSegment junction.position s.1 s.2)))
      (g'.schematicWires.filter (fun wire => wire.val.sheetId = junction.sheetId ∧
        wire.val.netId = junction.netId ∧
        (segments wire.val.vertices).any (fun s => pointOnSegment junction.position s.1 s.2))) := by
    refine h.schematicWires.filter ?_
    intro w w' hw
    have htouches := hw.touches junction.position
    have hsheet : w'.val.sheetId = w.val.sheetId := by rcases hw with heq | heq <;> rw [heq]
    have hnet : w'.val.netId = w.val.netId := by rcases hw with heq | heq <;> rw [heq]
    rw [htouches, hsheet, hnet]
  refine hwires.map_perm ?_
  rintro w w' (heq | heq) <;> rw [heq]

omit hg in
theorem DesignGraph.Redrawn.junctionFits {junction : SchematicJunction}
    (hfits : JunctionFits g junction) : JunctionFits g' junction := by
  obtain ⟨hnet, htwo⟩ := hfits
  refine ⟨h.netIds.mem_iff.mp hnet, ?_⟩
  rw [← (h.supportingWires junction).dedup.length_eq]
  exact htwo

/-- **A redrawn graph passes the checks that the graph passes.** -/
theorem DesignGraph.Redrawn.valid : Valid g' where
  schemaVersion := h.schemaVersion.trans hg.schemaVersion
  projectId := h.projectId ▸ hg.projectId
  layers := by
    refine ⟨?_, fun layer hlayer => hg.layers.2 layer (h.mem_layers.mpr hlayer)⟩
    intro hnil
    exact hg.layers.1 (List.Perm.eq_nil (hnil ▸ h.layers))
  layersNodup := h.layers.nodup_iff.mp hg.layersNodup
  outline := by
    intro hne
    have hne' : g.boardOutline ≠ [] := mt h.boardOutline.eq_nil_iff.mp hne
    have hsimple := validateSimplePolygon_iff.mp (hg.outline hne')
    exact validateSimplePolygon_iff.mpr (hsimple.redrawn h.boardOutline)
  identifiers := h.identifiers hg.identifiers
  pins := by
    intro connection hconnection
    exact h.knownPin hg (hg.pins connection (h.connections.mem_iff.mpr hconnection))
  pinsNodup := (h.connections.map _).nodup_iff.mp hg.pinsNodup
  placements := by
    intro placement hplacement
    exact h.component_isSome hg (hg.placements placement (h.placements.mem_iff.mpr hplacement))
  tracks := by
    intro t' ht'
    obtain ⟨t, ht, hredrawn⟩ := h.tracks.mem_right ht'
    obtain ⟨hnet, hlayer⟩ := hg.tracks t ht
    have hsame : t'.val.netId = t.val.netId ∧ t'.val.layer = t.val.layer := by
      rcases hredrawn with heq | heq <;> rw [heq] <;> exact ⟨rfl, rfl⟩
    rw [hsame.1, hsame.2]
    exact ⟨h.netIds.mem_iff.mp hnet, h.mem_layers.mp hlayer⟩
  pads := by
    intro p' hp'
    obtain ⟨p, hp, hredrawn⟩ := h.pads.mem_right hp'
    exact checkPad_ok.mpr (h.padFits hg hredrawn (checkPad_ok.mp (hg.pads p hp)))
  logicalPads := by
    intro p' hp'
    obtain ⟨p, hp, hpp'⟩ := h.pads.mem_right hp'
    have hlogical := hg.logicalPads p hp
    unfold DesignGraph.checkLogicalPad at hlogical ⊢
    rw [require_ok] at hlogical ⊢
    intro q' hq' hcomponent hnumber
    obtain ⟨q, hq, hqq'⟩ := h.pads.mem_right hq'
    rw [hpp'.rest, hqq'.rest] at hcomponent hnumber ⊢
    exact hlogical q hq hcomponent hnumber
  sharedLands := by
    intro p' hp'
    obtain ⟨p, hp, hpp'⟩ := h.pads.mem_right hp'
    have hland := checkSharedLand_ok.mp (hg.sharedLands p hp)
    refine checkSharedLand_ok.mpr fun groupId hgroup => h.landFits (hland groupId ?_)
    rw [hpp'.rest] at hgroup
    exact hgroup
  holes := by
    intro q' hq'
    obtain ⟨q, hq, hredrawn⟩ := h.holes.mem_right hq'
    exact h.holeFits hg hredrawn (hg.holes q hq)
  platedNodup := by
    refine (h.holes.filterMap_perm ?_).nodup_iff.mp hg.platedNodup
    intro q q' hq
    rw [hq.rest]
  vias := by
    intro v' hv'
    obtain ⟨v, hv, hredrawn⟩ := h.vias.mem_right hv'
    obtain ⟨hnet, hlayers⟩ := hg.vias v hv
    have hid : v'.val.netId = v.val.netId := by rw [hredrawn.rest]
    rw [hid]
    refine ⟨h.netIds.mem_iff.mp hnet, fun layer hlayer => ?_⟩
    exact h.mem_layers.mp (hlayers layer (hredrawn.layers.mem_iff.mpr hlayer))
  zones := by
    intro z' hz'
    obtain ⟨z, hz, hredrawn⟩ := h.zones.mem_right hz'
    obtain ⟨hnet, hlayer⟩ := (hg.zones z hz).1
    have hsame : z'.val.netId = z.val.netId ∧ z'.val.layer = z.val.layer := by
      rw [hredrawn.rest]
      exact ⟨rfl, rfl⟩
    rw [hsame.1, hsame.2]
    exact ⟨⟨h.netIds.mem_iff.mp hnet, h.mem_layers.mp hlayer⟩,
      validateSimplePolygon_iff.mpr (CopperZone.simple z')⟩
  wires := by
    intro w' hw'
    obtain ⟨w, hw, hredrawn⟩ := h.schematicWires.mem_right hw'
    have hid : w'.val.netId = w.val.netId := by rcases hredrawn with heq | heq <;> rw [heq]
    rw [hid]
    exact h.netIds.mem_iff.mp (hg.wires w hw)
  wirePairs := by
    refine h.schematicWires.pairwise ?_ ?_ hg.wirePairs
    · intro w w' hapart
      exact checkWirePair_ok.mpr (WiresApart.symm (checkWirePair_ok.mp hapart))
    · intro v v' w w' hv hw hapart
      exact checkWirePair_ok.mpr (WiresApart.redrawn hv hw (checkWirePair_ok.mp hapart))
  junctions := by
    intro junction hjunction
    exact h.junctionFits (hg.junctions junction (h.schematicJunctions.mem_iff.mpr hjunction))
  junctionsNodup := (h.schematicJunctions.map _).nodup_iff.mp hg.junctionsNodup

end Kept

/-! ### Normal forms -/

section Items

omit [UnicodeData] [Hashing]

variable {α : Type} {construct : α → Except Failure α} {hstable : Stable construct}
  {normalize : α → α} {key : α → String} {items items' : List (Checked construct)}

def Accepts.normalForm (haccepts : Accepts construct normalize) (c : Checked construct) :
    Checked construct :=
  ⟨normalize c.val, haccepts c⟩

theorem Accepts.normalizedItems (haccepts : Accepts construct normalize) :
    normalizedItems hstable normalize key items =
      .ok (sortBy (fun item => key item.val) (items.map haccepts.normalForm)) := by
  refine normalizedItems_ok.mpr ⟨items.map haccepts.normalForm, ?_, rfl⟩
  refine mapM_ok.mpr (List.forall₂_map_right_iff.mpr (List.forall₂_same.mpr ?_))
  intro c _
  exact Checked.make_ok.mpr (haccepts c)

/-- **Collections have one normal form exactly when they hold the same records, redrawn.** -/
theorem Accepts.eq_iff {R : α → α → Prop} (haccepts : Accepts construct normalize)
    (hredrawn : ∀ c c' : Checked construct, R c.val c'.val ↔ normalize c.val = normalize c'.val)
    (hkey : ∀ a, key (normalize a) = key a)
    (hnodup : (items.map (fun item => key item.val)).Nodup) :
    sortBy (fun item => key item.val) (items.map haccepts.normalForm) =
        sortBy (fun item => key item.val) (items'.map haccepts.normalForm) ↔
      SameRecords R items items' := by
  have hforms : ∀ c c' : Checked construct,
      haccepts.normalForm c = haccepts.normalForm c' ↔ R c.val c'.val := by
    intro c c'
    rw [hredrawn]
    exact ⟨congrArg Checked.val, fun heq => Checked.ext heq⟩
  constructor
  · intro heq
    have hperm : (items.map haccepts.normalForm).Perm (items'.map haccepts.normalForm) := by
      have hleft : (sortBy (fun item => key item.val) (items.map haccepts.normalForm)).Perm
          (items.map haccepts.normalForm) := sortBy_perm _
      rw [heq] at hleft
      exact hleft.symm.trans (sortBy_perm _)
    refine (Rearranged.of_map_perm hperm).mono ?_
    intro c _ c' _ hsame
    exact (hforms c c').mp hsame
  · intro hsame
    refine sortBy_eq_of_perm ?_ (hsame.map_perm fun c c' hcc' => (hforms c c').mpr hcc')
    have hkeys : (items.map haccepts.normalForm).map (fun item => key item.val) =
        items.map (fun item => key item.val) := by
      rw [List.map_map]
      refine List.map_congr_left fun c _ => ?_
      exact hkey c.val
    rw [hkeys]
    exact hnodup

theorem Accepts.sameRecords {R : α → α → Prop} (haccepts : Accepts construct normalize)
    (hredrawn : ∀ c c' : Checked construct, R c.val c'.val ↔ normalize c.val = normalize c'.val)
    (hfinal : Final hstable normalize) (items : List (Checked construct)) :
    SameRecords R items (sortBy (fun item => key item.val) (items.map haccepts.normalForm)) := by
  have hidem : ∀ c : Checked construct,
      haccepts.normalForm (haccepts.normalForm c) = haccepts.normalForm c :=
    fun c => Checked.ext (hfinal c _ (Checked.make_ok.mpr (haccepts c)))
  have hperm : (items.map haccepts.normalForm).Perm
      ((sortBy (fun item => key item.val) (items.map haccepts.normalForm)).map
        haccepts.normalForm) := by
    refine List.Perm.trans ?_ ((sortBy_perm _).map _).symm
    rw [List.map_map]
    refine List.Perm.of_eq (List.map_congr_left fun c _ => ?_)
    exact (hidem c).symm
  refine (Rearranged.of_map_perm hperm).mono ?_
  intro c _ c' _ hsame
  exact (hredrawn c c').mpr (congrArg Checked.val hsame)

/-- Sorted arrangements are equal exactly when the collections are the same. -/
theorem sortBy_eq_iff_perm {β κ : Type} [LinearOrder κ] {key : β → κ} {l l' : List β}
    (hnodup : (l.map key).Nodup) : sortBy key l = sortBy key l' ↔ l.Perm l' := by
  constructor
  · intro heq
    have hleft : (sortBy key l).Perm l := sortBy_perm l
    rw [heq] at hleft
    exact hleft.symm.trans (sortBy_perm l')
  · exact sortBy_eq_of_perm hnodup

end Items

/-- The normal form of a graph, without the possibility to raise. -/
def DesignGraph.normalForm (g : DesignGraph) : DesignGraph :=
  { g with
    layers := sortBy id g.layers
    boardOutline := normalizedRing g.boardOutline
    components := sortBy (·.val.componentId) (g.components.map Component.accepts.normalForm)
    nets := sortBy (·.val.netId) (g.nets.map Net.accepts.normalForm)
    placements := sortBy (·.val.componentId) g.placements
    tracks := sortBy (·.val.trackId) (g.tracks.map Track.accepts.normalForm)
    pads := sortBy (·.val.padId) (g.pads.map FootprintPad.accepts.normalForm)
    holes := sortBy (·.val.holeId) (g.holes.map FootprintHole.accepts.normalForm)
    vias := sortBy (·.val.viaId) (g.vias.map Via.accepts.normalForm)
    zones := sortBy (·.val.zoneId) (g.zones.map CopperZone.accepts.normalForm)
    schematicWires :=
      sortBy (·.val.wireId) (g.schematicWires.map SchematicWire.accepts.normalForm)
    schematicJunctions := sortBy (·.val.junctionId) g.schematicJunctions
    header := g.sortedHeader }

theorem normalized_eq_normalForm (g : DesignGraph) : g.normalized = .ok g.normalForm := by
  unfold DesignGraph.normalized
  simp only [bind_ok, pure_ok]
  exact ⟨_, Component.accepts.normalizedItems, _, Net.accepts.normalizedItems, _,
    Track.accepts.normalizedItems, _, FootprintPad.accepts.normalizedItems, _,
    FootprintHole.accepts.normalizedItems, _, Via.accepts.normalizedItems, _,
    CopperZone.accepts.normalizedItems, _, SchematicWire.accepts.normalizedItems, rfl⟩

/-- **A valid graph has the normal form of another exactly when the other is redrawn from it.** -/
theorem normalForm_eq_iff (hg : Valid g) :
    g.normalForm = g'.normalForm ↔ g.Redrawn drillTurns g' := by
  have hids := hg.identifiers
  unfold DesignGraph.identifiers at hids
  simp only [List.forall_mem_cons, List.not_mem_nil, false_imp_iff, implies_true, and_true]
    at hids
  obtain ⟨hcomponents, -, hnets, -, hplacements, htracks, hpads, hholes, hvias, hzones, hwires,
    hjunctions⟩ := hids
  have hlayers : (g.layers.map id).Nodup := by
    rw [List.map_id]
    exact hg.layersNodup
  unfold DesignGraph.normalForm
  rw [DesignGraph.mk.injEq, sortBy_eq_iff_perm hlayers, normalizedRing_eq_iff,
    Component.accepts.eq_iff Component.redrawn_iff (fun _ => rfl) hcomponents,
    Net.accepts.eq_iff Net.redrawn_iff (fun _ => rfl) hnets, sortBy_eq_iff_perm hplacements,
    Track.accepts.eq_iff Track.redrawn_iff (fun _ => rfl) htracks,
    FootprintPad.accepts.eq_iff FootprintPad.redrawn_iff (fun _ => rfl) hpads,
    FootprintHole.accepts.eq_iff FootprintHole.redrawn_iff (fun _ => rfl) hholes,
    Via.accepts.eq_iff Via.redrawn_iff (fun _ => rfl) hvias,
    CopperZone.accepts.eq_iff CopperZone.redrawn_iff (fun _ => rfl) hzones,
    SchematicWire.accepts.eq_iff SchematicWire.redrawn_iff (fun _ => rfl) hwires,
    sortBy_eq_iff_perm hjunctions]
  constructor
  · rintro ⟨h₁, h₂, h₃, h₄, h₅, h₆, h₇, h₈, h₉, h₁₀, h₁₁, h₁₂, h₁₃, h₁₄⟩
    exact ⟨h₁.symm, h₂.symm, h₃, h₄, h₅, h₆, h₇, h₈, h₉, h₁₀, h₁₁, h₁₂, h₁₃, h₁₄⟩
  · rintro ⟨h₁, h₂, h₃, h₄, h₅, h₆, h₇, h₈, h₉, h₁₀, h₁₁, h₁₂, h₁₃, h₁₄⟩
    exact ⟨h₁.symm, h₂.symm, h₃, h₄, h₅, h₆, h₇, h₈, h₉, h₁₀, h₁₁, h₁₂, h₁₃, h₁₄⟩

theorem normalForm_redrawn (hg : Valid g) : g.Redrawn drillTurns g.normalForm where
  schemaVersion := rfl
  projectId := rfl
  layers := (sortBy_perm g.layers).symm
  boardOutline := by
    by_cases hnil : g.boardOutline = []
    · have hempty : g.normalForm.boardOutline = [] := normalizedRing_eq_nil.mpr hnil
      rw [hempty, hnil]
      exact Or.inl (List.IsRotated.refl _)
    · exact normalizedRing_sameRing (validateSimplePolygon_iff.mp (hg.outline hnil))
  components := Component.accepts.sameRecords Component.redrawn_iff Component.final g.components
  nets := Net.accepts.sameRecords Net.redrawn_iff Net.final g.nets
  placements := (sortBy_perm g.placements).symm
  tracks := Track.accepts.sameRecords Track.redrawn_iff Track.final g.tracks
  pads := FootprintPad.accepts.sameRecords FootprintPad.redrawn_iff FootprintPad.final g.pads
  holes := FootprintHole.accepts.sameRecords FootprintHole.redrawn_iff FootprintHole.final g.holes
  vias := Via.accepts.sameRecords Via.redrawn_iff Via.final g.vias
  zones := CopperZone.accepts.sameRecords CopperZone.redrawn_iff CopperZone.final g.zones
  schematicWires := SchematicWire.accepts.sameRecords SchematicWire.redrawn_iff
    SchematicWire.final g.schematicWires
  schematicJunctions := (sortBy_perm g.schematicJunctions).symm

theorem graphHash_eq (hg : Valid g) : g.graphHash =
    .ok (stableHash "flux-clone-design-graph-v1" g.normalForm.toJson) := by
  have hvalid := validateGraph_iff.mpr ((normalForm_redrawn hg).valid hg)
  unfold DesignGraph.graphHash
  rw [normalized_eq_normalForm]
  simp only [bind_ok, exists_unit, pure_ok, Except.ok.injEq,
    exists_eq_left']
  exact ⟨hvalid, trivial⟩

/-- **A valid design has one normal form and one hash however it is written down, and only
rewritings of it have that normal form.**  Normalizing never raises, and a second normalization
changes nothing. -/
theorem redrawn_designs_normalize_alike (hvalid : validateGraph g = .ok ()) :
    ∃ normal hash, g.normalized = .ok normal ∧ normal.normalized = .ok normal ∧
      g.graphHash = .ok hash ∧
      (∀ g' : DesignGraph, g.Redrawn drillTurns g' →
        validateGraph g' = .ok () ∧ g'.normalized = .ok normal ∧ g'.graphHash = .ok hash) ∧
      ∀ g' : DesignGraph, validateGraph g' = .ok () → g'.normalized = .ok normal →
        g.Redrawn drillTurns g' := by
  have hg := validateGraph_iff.mp hvalid
  have hnormalValid := validateGraph_iff.mpr ((normalForm_redrawn hg).valid hg)
  refine ⟨g.normalForm, _, normalized_eq_normalForm g,
    normalized_idem (normalized_eq_normalForm g) hnormalValid, graphHash_eq hg, ?_, ?_⟩
  · intro g' hredrawn
    have hg' := hredrawn.valid hg
    have hsame := (normalForm_eq_iff hg).mpr hredrawn
    refine ⟨validateGraph_iff.mpr hg', ?_, ?_⟩
    · rw [normalized_eq_normalForm, hsame]
    · rw [graphHash_eq hg', hsame]
  · intro g' _ hnormal
    rw [normalized_eq_normalForm, Except.ok.injEq] at hnormal
    exact (normalForm_eq_iff hg).mp hnormal.symm

end SameDesign

/-! ### A round hole turned by half a turn -/

section RoundHole

attribute [local instance] asciiData netHashing

def holeComponent : Checked Component.postInit :=
  ⟨⟨"u1", "H1", "M3", "M3-HOLE", "hole", "H", "H3", plainDigest 'd', plainDigest 'e',
    [⟨⟨"1", "A", "passive", "1", true⟩, rfl⟩]⟩, by decide +kernel⟩

/-- A round hole, drawn at the given rotation. -/
def roundHole (rotation : Int) : FootprintHole :=
  { holeId := "h1", componentId := "u1", center := ⟨0, 0, inInt64_zero, inInt64_zero⟩,
    diameter := 3000000, drillX := 3000000, drillY := 3000000, drillRotationUdeg := rotation }

def holePlacement : Checked FootprintPlacement.postInit :=
  ⟨⟨"u1", ⟨0, 0, inInt64_zero, inInt64_zero⟩, 0, "front", false⟩, rfl⟩

/-- A board with one mounting hole. -/
def holeGraph (hole : Checked FootprintHole.postInit) : DesignGraph where
  schemaVersion := 1
  projectId := "demo"
  layers := ["B.Cu", "F.Cu"]
  boardOutline := []
  components := [holeComponent]
  nets := []
  placements := [holePlacement]
  tracks := []
  pads := []
  holes := [hole]
  vias := []
  zones := []
  schematicWires := []
  schematicJunctions := []
  header := demo_header

def uprightHole : Checked FootprintHole.postInit := ⟨roundHole 0, by decide +kernel⟩

def turnedHole : Checked FootprintHole.postInit := ⟨roundHole 180000000, by decide +kernel⟩

theorem holeGraph_valid : validateGraph (holeGraph uprightHole) = .ok () ∧
    validateGraph (holeGraph turnedHole) = .ok () := by
  decide +kernel

/-- Turning a slot is not the only turn that the normal form hides. -/
theorem round_hole_turned : ∃ g g' : DesignGraph, validateGraph g = .ok () ∧
    validateGraph g' = .ok () ∧ g.normalized = g'.normalized ∧ ¬ g.Redrawn slotTurns g' := by
  refine ⟨holeGraph uprightHole, holeGraph turnedHole, holeGraph_valid.1, holeGraph_valid.2, ?_, ?_⟩
  · rw [normalized_eq_normalForm, normalized_eq_normalForm]
    rfl
  · intro hredrawn
    obtain ⟨hole, hmem, hturned⟩ :=
      hredrawn.holes.mem_left (List.mem_singleton_self uprightHole)
    rw [List.mem_singleton.mp hmem] at hturned
    rcases hturned.rotation with hsame | ⟨hslot, -⟩
    · exact absurd hsame (by decide)
    · exact hslot rfl

theorem redrawn_designs_normalize_alike_hole :
    (holeGraph turnedHole).normalized = (holeGraph uprightHole).normalized := by
  have hturned : (holeGraph uprightHole).Redrawn drillTurns (holeGraph turnedHole) :=
    (normalForm_eq_iff (validateGraph_iff.mp holeGraph_valid.1)).mp rfl
  obtain ⟨normal, hash, hnormal, -, -, hchanged, -⟩ :=
    redrawn_designs_normalize_alike holeGraph_valid.1
  rw [(hchanged _ hturned).2.1, hnormal]

end RoundHole

end Evleda.Kernel
