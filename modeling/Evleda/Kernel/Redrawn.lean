/-
The same design written down differently.

Nothing in a design depends on the order of its collections, of a component's
pins, of a net's members or of a list of layers, on the corner and the direction
a polygon is drawn from, on the end a wire or a track is drawn from, or on half
turns of a drill.  `Redrawn` lists exactly these changes, record by record.

The normal form picks one way to write a design down.  For every kind of record
the constructor accepts the normal form, and two records have one normal form
exactly when they are redrawn.  The graphs then follow.
-/
import Evleda.Kernel.Drawings
import Evleda.Kernel.Validity

namespace Evleda.Kernel

open Outcome

section Redrawn

variable [UnicodeData] [Hashing]

/-! ### What may change in a record -/

/-- Which rotation, for a drill of the given dimensions, is as good as which. -/
abbrev Turning := Int → Int → Int → Int → Prop

def drillTurns : Turning := fun _ _ rotation rotation' =>
  ∃ count : Int, rotation' = rotation + count * 180000000

/-- Half turns of a slot; a round drill is left alone. -/
def slotTurns : Turning := fun drillX drillY rotation rotation' =>
  rotation' = rotation ∨ (drillX ≠ drillY ∧ drillTurns drillX drillY rotation rotation')

/-- The pins in another order. -/
structure Component.Redrawn (c c' : Component) : Prop where
  pins : c.pins.Perm c'.pins
  rest : c' = { c with pins := c'.pins }

/-- The members in another order. -/
structure Net.Redrawn (n n' : Net) : Prop where
  members : n.members.Perm n'.members
  rest : n' = { n with members := n'.members }

/-- The ends swapped. -/
def Track.Redrawn (t t' : Track) : Prop :=
  t' = t ∨ t' = { t with start := t.stop, stop := t.start }

/-- The layers in another order, the drill turned. -/
structure FootprintPad.Redrawn (turns : Turning) (p p' : FootprintPad) : Prop where
  layers : p.layers.Perm p'.layers
  rotation : turns p.drillX p.drillY p.drillRotationUdeg p'.drillRotationUdeg
  rest : p' = { p with layers := p'.layers, drillRotationUdeg := p'.drillRotationUdeg }

/-- The drill turned. -/
structure FootprintHole.Redrawn (turns : Turning) (h h' : FootprintHole) : Prop where
  rotation : turns h.drillX h.drillY h.drillRotationUdeg h'.drillRotationUdeg
  rest : h' = { h with drillRotationUdeg := h'.drillRotationUdeg }

/-- The layers in another order. -/
structure Via.Redrawn (v v' : Via) : Prop where
  layers : v.layers.Perm v'.layers
  rest : v' = { v with layers := v'.layers }

/-- The outline drawn differently. -/
structure CopperZone.Redrawn (z z' : CopperZone) : Prop where
  outline : SameRing z.outline z'.outline
  rest : z' = { z with outline := z'.outline }

/-- The vertices from the other end. -/
def SchematicWire.Redrawn (w w' : SchematicWire) : Prop :=
  w' = w ∨ w' = { w with vertices := w.vertices.reverse }

/-- The records in another order, each redrawn. -/
def SameRecords {α : Type} {construct : α → Except Failure α} (R : α → α → Prop)
    (items items' : List (Checked construct)) : Prop :=
  Rearranged (fun a b => R a.val b.val) items items'

/-- The graph written down differently. -/
structure DesignGraph.Redrawn (turns : Turning) (g g' : DesignGraph) : Prop where
  schemaVersion : g'.schemaVersion = g.schemaVersion
  projectId : g'.projectId = g.projectId
  layers : g.layers.Perm g'.layers
  boardOutline : SameRing g.boardOutline g'.boardOutline
  components : SameRecords Component.Redrawn g.components g'.components
  nets : SameRecords Net.Redrawn g.nets g'.nets
  placements : g.placements.Perm g'.placements
  tracks : SameRecords Track.Redrawn g.tracks g'.tracks
  pads : SameRecords (FootprintPad.Redrawn turns) g.pads g'.pads
  holes : SameRecords (FootprintHole.Redrawn turns) g.holes g'.holes
  vias : SameRecords Via.Redrawn g.vias g'.vias
  zones : SameRecords CopperZone.Redrawn g.zones g'.zones
  schematicWires : SameRecords SchematicWire.Redrawn g.schematicWires g'.schematicWires
  schematicJunctions : g.schematicJunctions.Perm g'.schematicJunctions

/-! ### Records have one normal form exactly when they are redrawn -/

/-- The normal form of every accepted record is accepted. -/
def Accepts {α : Type} (construct : α → Except Failure α) (normalize : α → α) : Prop :=
  ∀ c : Checked construct, construct (normalize c.val) = .ok (normalize c.val)

section

omit [Hashing]

theorem Component.nodups (c : Checked Component.postInit) :
    (c.val.pins.map (·.val.number)).Nodup ∧ (c.val.pins.map (·.val.padNumber)).Nodup := by
  have h := (checking_ok.mp c.accepted).1
  unfold Component.checks at h
  simp only [bind_ok, exists_unit, require_ok] at h
  exact h.2.2.2.2.2.2.2.2.2.2

theorem Component.accepts : Accepts Component.postInit Component.normalized := by
  intro c
  have h := (checking_ok.mp c.accepted).1
  refine checking_ok.mpr ⟨?_, rfl⟩
  unfold Component.checks at h ⊢
  simp only [bind_ok, exists_unit, require_ok] at h ⊢
  obtain ⟨h₁, h₂, h₃, h₄, h₅, h₆, h₇, h₈, h₉, hne, hnumbers, hpads⟩ := h
  have hperm : (sortBy (fun pin : Checked PinDefinition.postInit => pin.val.number)
      c.val.pins).Perm c.val.pins := sortBy_perm _
  refine ⟨h₁, h₂, h₃, h₄, h₅, h₆, h₇, h₈, h₉, sortBy_ne_nil hne, ?_, ?_⟩
  · exact (hperm.map _).nodup_iff.mpr hnumbers
  · exact (hperm.map _).nodup_iff.mpr hpads

theorem Component.redrawn_iff (c c' : Checked Component.postInit) :
    c.val.Redrawn c'.val ↔ c.val.normalized = c'.val.normalized := by
  constructor
  · rintro ⟨hpins, hrest⟩
    rw [hrest]
    unfold Component.normalized
    rw [sortBy_eq_of_perm (Component.nodups c).1 hpins]
  · intro heq
    unfold Component.normalized at heq
    rw [Component.mk.injEq] at heq
    obtain ⟨h₁, h₂, h₃, h₄, h₅, h₆, h₇, h₈, h₉, hpins⟩ := heq
    refine ⟨?_, ?_⟩
    · exact (sortBy_perm c.val.pins).symm.trans (hpins ▸ sortBy_perm c'.val.pins)
    · rw [h₁, h₂, h₃, h₄, h₅, h₆, h₇, h₈, h₉]

theorem Net.members_nodup (n : Checked Net.postInit) : (n.val.members.map PinRef.key).Nodup := by
  have h := (checking_ok.mp n.accepted).1
  unfold Net.checks at h
  simp only [bind_ok, exists_unit, require_ok] at h
  refine List.Nodup.map ?_ h.2.2
  intro m m' hkey
  unfold PinRef.key at hkey
  have hpair := toLex.injective hkey
  rw [Prod.mk.injEq] at hpair
  refine Checked.ext ?_
  cases hm : m.val
  cases hm' : m'.val
  rw [hm, hm'] at hpair
  rw [PinRef.mk.injEq]
  exact hpair

theorem Net.accepts : Accepts Net.postInit Net.normalized := by
  intro n
  have h := (checking_ok.mp n.accepted).1
  refine checking_ok.mpr ⟨?_, rfl⟩
  unfold Net.checks at h ⊢
  simp only [bind_ok, exists_unit, require_ok] at h ⊢
  exact ⟨h.1, h.2.1, (sortBy_perm n.val.members).nodup_iff.mpr h.2.2⟩

theorem Net.redrawn_iff (n n' : Checked Net.postInit) :
    n.val.Redrawn n'.val ↔ n.val.normalized = n'.val.normalized := by
  constructor
  · rintro ⟨hmembers, hrest⟩
    rw [hrest]
    unfold Net.normalized
    rw [sortBy_eq_of_perm (Net.members_nodup n) hmembers]
  · intro heq
    unfold Net.normalized at heq
    rw [Net.mk.injEq] at heq
    obtain ⟨h₁, h₂, hmembers⟩ := heq
    refine ⟨?_, ?_⟩
    · exact (sortBy_perm n.val.members).symm.trans (hmembers ▸ sortBy_perm n'.val.members)
    · rw [h₁, h₂]

theorem Track.accepts : Accepts Track.postInit Track.normalized := by
  intro t
  have h := (checking_ok.mp t.accepted).1
  refine checking_ok.mpr ⟨?_, rfl⟩
  unfold Track.checks at h ⊢
  simp only [bind_ok, exists_unit, require_ok] at h ⊢
  obtain ⟨h₁, h₂, h₃, h₄, hwidth, hends⟩ := h
  refine ⟨h₁, h₂, h₃, h₄, hwidth, ?_⟩
  intro hsame
  exact hends (inf_eq_sup.mp hsame)

theorem Track.redrawn_iff (t t' : Checked Track.postInit) :
    t.val.Redrawn t'.val ↔ t.val.normalized = t'.val.normalized := by
  constructor
  · rintro (heq | heq)
    · rw [heq]
    · rw [heq]
      unfold Track.normalized
      rw [min_comm, max_comm]
  · intro heq
    unfold Track.normalized at heq
    rw [Track.mk.injEq] at heq
    obtain ⟨h₁, h₂, h₃, hmin, hmax, h₄, h₅⟩ := heq
    have hends : (t'.val.start = t.val.start ∧ t'.val.stop = t.val.stop) ∨
        (t'.val.start = t.val.stop ∧ t'.val.stop = t.val.start) := by
      rcases le_total t.val.start t.val.stop with h | h <;>
        rcases le_total t'.val.start t'.val.stop with h' | h' <;>
        simp only [h, h', inf_of_le_left, inf_of_le_right, sup_of_le_left, sup_of_le_right]
          at hmin hmax
      · exact Or.inl ⟨hmin.symm, hmax.symm⟩
      · exact Or.inr ⟨hmax.symm, hmin.symm⟩
      · exact Or.inr ⟨hmin.symm, hmax.symm⟩
      · exact Or.inl ⟨hmax.symm, hmin.symm⟩
    unfold Track.Redrawn
    rcases hends with ⟨hstart, hstop⟩ | ⟨hstart, hstop⟩
    · refine Or.inl ?_
      cases ht : t.val
      cases ht' : t'.val
      simp_all
    · refine Or.inr ?_
      cases ht : t.val
      cases ht' : t'.val
      simp_all

theorem Via.layers_nodup (v : Checked Via.postInit) : (v.val.layers.map id).Nodup := by
  have h := (checking_ok.mp v.accepted).1
  unfold Via.checks at h
  simp only [bind_ok, exists_unit, require_ok] at h
  rw [List.map_id]
  exact h.2.2.2.2.2.2.2

theorem Via.accepts : Accepts Via.postInit Via.normalized := by
  intro v
  have h := (checking_ok.mp v.accepted).1
  refine checking_ok.mpr ⟨?_, rfl⟩
  unfold Via.checks at h ⊢
  simp only [bind_ok, exists_unit, require_ok, forM_ok] at h ⊢
  obtain ⟨h₁, h₂, h₃, h₄, h₅, hspan, htexts, hnodup⟩ := h
  refine ⟨h₁, h₂, h₃, h₄, h₅, ?_, ?_, (sortBy_perm v.val.layers).nodup_iff.mpr hnodup⟩
  · show 2 ≤ (sortBy id v.val.layers).length
    rw [length_sortBy]
    exact hspan
  · intro layer hlayer
    exact htexts layer (mem_sortBy.mp hlayer)

theorem Via.redrawn_iff (v v' : Checked Via.postInit) :
    v.val.Redrawn v'.val ↔ v.val.normalized = v'.val.normalized := by
  constructor
  · rintro ⟨hlayers, hrest⟩
    rw [hrest]
    unfold Via.normalized
    rw [sortBy_eq_of_perm (Via.layers_nodup v) hlayers]
  · intro heq
    unfold Via.normalized at heq
    rw [Via.mk.injEq] at heq
    obtain ⟨h₁, h₂, h₃, h₄, h₅, hlayers, h₆⟩ := heq
    refine ⟨?_, ?_⟩
    · exact (sortBy_perm v.val.layers).symm.trans (hlayers ▸ sortBy_perm v'.val.layers)
    · rw [h₁, h₂, h₃, h₄, h₅, h₆]

/-! #### Wires and zones -/

theorem SchematicWire.checks_iff (w : SchematicWire) : w.checks = .ok () ↔
    requireId w.wireId "schematic wire ID" = .ok () ∧
      requireId w.netId "schematic wire net ID" = .ok () ∧
      requireId w.sheetId "schematic wire sheet ID" = .ok () ∧ 2 ≤ w.vertices.length ∧
      (∀ segment ∈ segments w.vertices, segment.1 ≠ segment.2) ∧ w.vertices.Nodup ∧
      Clear (segments w.vertices) := by
  unfold SchematicWire.checks
  simp only [bind_ok, exists_unit, require_ok, forM_ok]
  have hloop : (∀ x ∈ (segments w.vertices).zipIdx, ∀ y ∈ (segments w.vertices).drop (x.2 + 2),
      segmentsIntersect x.1.1 x.1.2 y.1 y.2 = false) ↔
      ∀ i (hi : i < (segments w.vertices).length), ∀ j (hj : j < (segments w.vertices).length),
        i + 2 ≤ j → segmentsIntersect (segments w.vertices)[i].1 (segments w.vertices)[i].2
          (segments w.vertices)[j].1 (segments w.vertices)[j].2 = false := by
    have hplaces := @forall_mem_zipIdx _ (segments w.vertices) fun e i =>
      ∀ y ∈ (segments w.vertices).drop (i + 2), segmentsIntersect e.1 e.2 y.1 y.2 = false
    refine hplaces.trans ?_
    simp only [forall_mem_drop]
  constructor
  · rintro ⟨h₁, h₂, h₃, h₄, h₅, hnodup, hpairs⟩
    exact ⟨h₁, h₂, h₃, h₄, h₅, hnodup, (wire_clear_iff hnodup).mp (hloop.mp hpairs)⟩
  · rintro ⟨h₁, h₂, h₃, h₄, h₅, hnodup, hclear⟩
    exact ⟨h₁, h₂, h₃, h₄, h₅, hnodup, hloop.mpr ((wire_clear_iff hnodup).mpr hclear)⟩

theorem SchematicWire.checks_reverse {w : SchematicWire} (h : w.checks = .ok ()) :
    ({ w with vertices := w.vertices.reverse } : SchematicWire).checks = .ok () := by
  rw [SchematicWire.checks_iff] at h ⊢
  obtain ⟨h₁, h₂, h₃, hlength, hnonzero, hnodup, hclear⟩ := h
  refine ⟨h₁, h₂, h₃, ?_, ?_, List.nodup_reverse.mpr hnodup, hclear.swapped ?_⟩
  · rw [List.length_reverse]
    exact hlength
  · intro segment hsegment
    exact (hnonzero (segment.2, segment.1) (mem_segments_reverse.mp hsegment)).symm
  · intro segment hsegment
    exact mem_segments_reverse.mp hsegment

theorem SchematicWire.accepts : Accepts SchematicWire.postInit SchematicWire.normalized := by
  intro w
  have h := (checking_ok.mp w.accepted).1
  refine checking_ok.mpr ⟨?_, rfl⟩
  unfold SchematicWire.normalized
  rcases min_choice w.val.vertices w.val.vertices.reverse with hmin | hmin
  · rw [hmin]
    exact h
  · rw [hmin]
    exact SchematicWire.checks_reverse h

theorem SchematicWire.redrawn_iff (w w' : Checked SchematicWire.postInit) :
    w.val.Redrawn w'.val ↔ w.val.normalized = w'.val.normalized := by
  constructor
  · rintro (heq | heq)
    · rw [heq]
    · rw [heq]
      unfold SchematicWire.normalized
      rw [List.reverse_reverse, min_comm]
  · intro heq
    unfold SchematicWire.normalized at heq
    rw [SchematicWire.mk.injEq] at heq
    obtain ⟨h₁, h₂, hmin, h₃, h₄⟩ := heq
    have hvertices : w'.val.vertices = w.val.vertices ∨
        w'.val.vertices = w.val.vertices.reverse := by
      rcases min_choice w.val.vertices w.val.vertices.reverse with h | h <;>
        rcases min_choice w'.val.vertices w'.val.vertices.reverse with h' | h' <;>
        rw [h, h'] at hmin
      · exact Or.inl hmin.symm
      · exact Or.inr (List.reverse_eq_iff.mp hmin.symm)
      · exact Or.inr hmin.symm
      · exact Or.inl (List.reverse_injective hmin.symm)
    unfold SchematicWire.Redrawn
    rcases hvertices with hsame | hreversed
    · refine Or.inl ?_
      cases hw : w.val
      cases hw' : w'.val
      simp_all
    · refine Or.inr ?_
      cases hw : w.val
      cases hw' : w'.val
      simp_all

end

theorem CopperZone.simple (z : Checked CopperZone.postInit) :
    SimpleRing (openRing z.val.outline) := by
  have h := (checking_ok.mp z.accepted).1
  unfold CopperZone.checks at h
  simp only [bind_ok, exists_unit] at h
  exact validateSimplePolygon_iff.mp h.2.2.2.1

theorem CopperZone.accepts : Accepts CopperZone.postInit CopperZone.normalized := by
  intro z
  have hsimple := CopperZone.simple z
  have hsame := normalizedRing_sameRing hsimple
  have hring := normalizedRing_eq_iff.mpr hsame
  have h := (checking_ok.mp z.accepted).1
  refine checking_ok.mpr ⟨?_, rfl⟩
  have hhash : z.val.normalized.filledGeometryHash = z.val.filledGeometryHash := by
    unfold CopperZone.filledGeometryHash CopperZone.normalized
    rw [← hring]
  unfold CopperZone.checks at h ⊢
  simp only [bind_ok, exists_unit] at h ⊢
  obtain ⟨h₁, h₂, h₃, -, hrest⟩ := h
  refine ⟨h₁, h₂, h₃, validateSimplePolygon_iff.mpr (hsimple.redrawn hsame), ?_⟩
  rw [hhash]
  exact hrest

theorem CopperZone.redrawn_iff (z z' : Checked CopperZone.postInit) :
    z.val.Redrawn z'.val ↔ z.val.normalized = z'.val.normalized := by
  constructor
  · rintro ⟨houtline, hrest⟩
    rw [hrest]
    unfold CopperZone.normalized
    rw [normalizedRing_eq_iff.mpr houtline]
  · intro heq
    unfold CopperZone.normalized at heq
    rw [CopperZone.mk.injEq] at heq
    obtain ⟨h₁, h₂, h₃, houtline, h₄, h₅, h₆, h₇, h₈, h₉⟩ := heq
    refine ⟨normalizedRing_eq_iff.mp houtline, ?_⟩
    rw [h₁, h₂, h₃, h₄, h₅, h₆, h₇, h₈, h₉]

/-! #### Drills -/

omit [UnicodeData] [Hashing] in
/-- Rotations that a constructor allows have one normal form exactly when they are half turns
apart. -/
theorem drillTurns_iff {drillX drillY rotation rotation' : Int}
    (hround : drillX = drillY → rotation = 0 ∨ rotation = 180000000)
    (hround' : drillX = drillY → rotation' = 0 ∨ rotation' = 180000000) :
    drillTurns drillX drillY rotation rotation' ↔
      normalizedDrillRotation drillX drillY rotation =
        normalizedDrillRotation drillX drillY rotation' := by
  unfold drillTurns normalizedDrillRotation
  by_cases hslot : drillX = drillY
  · rw [if_pos hslot, if_pos hslot]
    refine iff_of_true ?_ rfl
    have h := hround hslot
    have h' := hround' hslot
    exact ⟨(rotation' - rotation) / 180000000, by omega⟩
  · rw [if_neg hslot, if_neg hslot]
    constructor
    · rintro ⟨count, rfl⟩
      rw [Int.add_mul_emod_self_right]
    · intro heq
      exact ⟨(rotation' - rotation) / 180000000, by omega⟩

section

omit [Hashing]

theorem FootprintPad.facts (p : Checked FootprintPad.postInit) :
    p.val.layers.Nodup ∧ (p.val.drillX = p.val.drillY → p.val.drillRotationUdeg = 0 ∨
      p.val.drillRotationUdeg = 180000000) := by
  have hfill := FootprintPad.fillDrill_val p
  have h := p.accepted
  unfold FootprintPad.postInit FootprintPad.checks at h
  simp only [bind_ok, exists_unit, require_ok, pure_ok,
    hfill] at h
  obtain ⟨⟨-, -, -, -, -, -, -, -, -, -, hnodup, -, -, -, -, -, -, -, -, -, hround, -⟩, -⟩ := h
  exact ⟨hnodup, hround⟩

theorem FootprintPad.accepts : Accepts FootprintPad.postInit FootprintPad.normalized := by
  intro p
  have hfill := FootprintPad.fillDrill_val p
  have hfillNormal : p.val.normalized.fillDrill = p.val.normalized := by
    have hfields : p.val.normalized.fillDrill = { p.val.normalized with
        drillX := p.val.fillDrill.drillX
        drillY := p.val.fillDrill.drillY
        padDrill := p.val.fillDrill.padDrill } := rfl
    rw [hfields, hfill]
    rfl
  have h := p.accepted
  unfold FootprintPad.postInit FootprintPad.checks at h ⊢
  simp only [bind_ok, exists_unit, require_ok, requireWhen_ok,
    pure_ok, forM_ok, hfill, hfillNormal, requireInt64_ok] at h ⊢
  obtain ⟨⟨h₁, h₂, h₃, h₄, h₅, h₆, h₇, h₈, hlayers, htexts, hnodup, h₉, h₁₀, h₁₁, hturn, h₁₂, h₁₃,
    h₁₄, h₁₅, hrange, hround, hspan, h₁₆, h₁₇⟩, -⟩ := h
  have hrotation : 0 ≤ p.val.normalized.drillRotationUdeg ∧
      p.val.normalized.drillRotationUdeg < 180000000 := by
    show 0 ≤ normalizedDrillRotation _ _ _ ∧ normalizedDrillRotation _ _ _ < 180000000
    unfold normalizedDrillRotation
    split <;> omega
  refine ⟨⟨h₁, h₂, h₃, h₄, h₅, h₆, h₇, h₈, sortBy_ne_nil hlayers, ?_,
    (sortBy_perm p.val.layers).nodup_iff.mpr hnodup, h₉, h₁₀, h₁₁, ?_, h₁₂, h₁₃, h₁₄, h₁₅, ?_, ?_, ?_,
      h₁₆, h₁₇⟩, trivial⟩
  · intro layer hlayer
    exact htexts layer (mem_sortBy.mp hlayer)
  · unfold InInt64
    omega
  · omega
  · intro hsame
    refine Or.inl ?_
    exact if_pos hsame
  · intro hdrilled
    show 2 ≤ (sortBy id p.val.layers).length
    rw [length_sortBy]
    exact hspan hdrilled

theorem FootprintPad.redrawn_iff (p p' : Checked FootprintPad.postInit) :
    p.val.Redrawn drillTurns p'.val ↔ p.val.normalized = p'.val.normalized := by
  obtain ⟨hnodup, hround⟩ := FootprintPad.facts p
  obtain ⟨-, hround'⟩ := FootprintPad.facts p'
  constructor
  · rintro ⟨hlayers, hturns, hrest⟩
    have hx : p'.val.drillX = p.val.drillX := by rw [hrest]
    have hy : p'.val.drillY = p.val.drillY := by rw [hrest]
    rw [hx, hy] at hround'
    have hrotation := (drillTurns_iff hround hround').mp hturns
    rw [hrest]
    unfold FootprintPad.normalized
    rw [sortBy_eq_of_perm (by rw [List.map_id]; exact hnodup) hlayers, hrotation]
  · intro heq
    unfold FootprintPad.normalized at heq
    rw [FootprintPad.mk.injEq] at heq
    obtain ⟨h₁, h₂, h₃, h₄, h₅, h₆, h₇, h₈, hlayers, h₉, h₁₀, h₁₁, hx, hy, hrotation, h₁₂⟩ := heq
    refine ⟨?_, ?_, ?_⟩
    · exact (sortBy_perm p.val.layers).symm.trans (hlayers ▸ sortBy_perm p'.val.layers)
    · rw [← hx, ← hy] at hrotation hround'
      exact (drillTurns_iff hround hround').mpr hrotation
    · rw [h₁, h₂, h₃, h₄, h₅, h₆, h₇, h₈, h₉, h₁₀, h₁₁, hx, hy, h₁₂]

theorem FootprintHole.round (h : Checked FootprintHole.postInit) :
    h.val.drillX = h.val.drillY → h.val.drillRotationUdeg = 0 ∨
      h.val.drillRotationUdeg = 180000000 := by
  have hfill := FootprintHole.fillDrill_val h
  have haccepted := h.accepted
  unfold FootprintHole.postInit FootprintHole.checks at haccepted
  simp only [bind_ok, exists_unit, require_ok, pure_ok,
    hfill] at haccepted
  obtain ⟨⟨-, -, -, -, -, -, -, -, -, -, hround, -⟩, -⟩ := haccepted
  exact hround

theorem FootprintHole.accepts : Accepts FootprintHole.postInit FootprintHole.normalized := by
  intro h
  have hfill := FootprintHole.fillDrill_val h
  have hfillNormal : h.val.normalized.fillDrill = h.val.normalized := by
    have hfields : h.val.normalized.fillDrill = { h.val.normalized with
        drillX := h.val.fillDrill.drillX
        drillY := h.val.fillDrill.drillY } := by
      unfold FootprintHole.fillDrill FootprintHole.normalized
      split <;> rfl
    rw [hfields, hfill]
    rfl
  have haccepted := h.accepted
  unfold FootprintHole.postInit FootprintHole.checks at haccepted ⊢
  simp only [bind_ok, exists_unit, require_ok, pure_ok, hfill,
    hfillNormal, requireInt64_ok] at haccepted ⊢
  obtain ⟨⟨h₁, h₂, h₃, h₄, h₅, hturn, h₆, h₇, h₈, hrange, hround, h₉, h₁₀⟩, -⟩ := haccepted
  have hrotation : 0 ≤ h.val.normalized.drillRotationUdeg ∧
      h.val.normalized.drillRotationUdeg < 180000000 := by
    show 0 ≤ normalizedDrillRotation _ _ _ ∧ normalizedDrillRotation _ _ _ < 180000000
    unfold normalizedDrillRotation
    split <;> omega
  refine ⟨⟨h₁, h₂, h₃, h₄, h₅, ?_, h₆, h₇, h₈, ?_, ?_, h₉, h₁₀⟩, trivial⟩
  · unfold InInt64
    omega
  · omega
  · intro hsame
    refine Or.inl ?_
    exact if_pos hsame

theorem FootprintHole.redrawn_iff (h h' : Checked FootprintHole.postInit) :
    h.val.Redrawn drillTurns h'.val ↔ h.val.normalized = h'.val.normalized := by
  have hround := FootprintHole.round h
  have hround' := FootprintHole.round h'
  constructor
  · rintro ⟨hturns, hrest⟩
    have hx : h'.val.drillX = h.val.drillX := by rw [hrest]
    have hy : h'.val.drillY = h.val.drillY := by rw [hrest]
    rw [hx, hy] at hround'
    have hrotation := (drillTurns_iff hround hround').mp hturns
    rw [hrest]
    unfold FootprintHole.normalized
    rw [hrotation]
  · intro heq
    unfold FootprintHole.normalized at heq
    rw [FootprintHole.mk.injEq] at heq
    obtain ⟨h₁, h₂, h₃, h₄, h₅, h₆, h₇, hx, hy, hrotation⟩ := heq
    refine ⟨?_, ?_⟩
    · rw [← hx, ← hy] at hrotation hround'
      exact (drillTurns_iff hround hround').mpr hrotation
    · rw [h₁, h₂, h₃, h₄, h₅, h₆, h₇, hx, hy]

end

end Redrawn

end Evleda.Kernel
