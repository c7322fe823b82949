/-
What the board does not carry is named, but for hidden pads.

Everything that the adapter passes once is named when it is lost.  Pads are looked up by
the number of their pin, in a dictionary that keeps the last pad of each number, so a pad
with losses is named exactly when it is the last of its number in the order of
identifiers.
-/
import Evleda.Kernel.Adapter
import Evleda.Kernel.SameDesign

namespace Evleda.Kernel

open Outcome

section Losses

variable [UnicodeData] [Hashing] {g n : DesignGraph} {features : List String}

/-! ### What has to be named -/

def FootprintPad.BelongsTo (pad : FootprintPad) (component : Component) (pin : PinDefinition) :
    Prop :=
  pad.componentId = component.componentId ∧ pad.padNumber = pin.padNumber

/-- Everything that the board does not carry is among the features. -/
structure LossAware (g : DesignGraph) (features : List String) : Prop where
  placements : ∀ placement ∈ g.placements, placement.val.locked = true →
    tagged "locked-placement-metadata-unrepresented" placement.val.componentId ∈ features
  unplaced : ∀ component ∈ g.components, component.val.componentId ∉ g.placementIds →
    tagged "footprint-placement-missing" component.val.componentId ∈ features
  padless : ∀ component ∈ g.components, ∀ pin ∈ component.val.pins,
    (∀ pad ∈ g.pads, ¬ pad.val.BelongsTo component.val pin.val) →
    tagged "pin-pad-geometry-missing" (tagged component.val.componentId pin.val.number) ∈ features
  lockedPads : ∀ pad ∈ g.pads, pad.val.locked = true →
    tagged "locked-pad-metadata-unrepresented" pad.val.padId ∈ features
  circles : ∀ pad ∈ g.pads, pad.val.shape = "circle" → pad.val.sizeX ≠ pad.val.sizeY →
    tagged "exact-pad-circle-nonsquare-not-supported" pad.val.padId ∈ features
  roundrects : ∀ pad ∈ g.pads, pad.val.shape = "roundrect" →
    tagged "exact-pad-roundrect-radius-not-represented" pad.val.padId ∈ features
  rotations : ∀ pad ∈ g.pads, pad.val.shape ≠ "circle" → pad.val.rotationUdeg % 90000000 ≠ 0 →
    tagged "exact-pad-rotation-not-supported"
      (tagged pad.val.padId (toString pad.val.rotationUdeg)) ∈ features
  drillRotations : ∀ pad ∈ g.pads, pad.val.drillX ≠ pad.val.drillY →
    pad.val.drillRotationUdeg % 90000000 ≠ 0 →
    tagged "exact-drill-rotation-not-supported" (tagged "pad" (tagged pad.val.padId
      (toString (pad.val.drillRotationUdeg % 180000000)))) ∈ features
  tracks : ∀ track ∈ g.tracks, track.val.locked = true →
    tagged "locked-track-metadata-unrepresented" track.val.trackId ∈ features
  vias : ∀ via ∈ g.vias, via.val.locked = true →
    tagged "locked-via-metadata-unrepresented" via.val.viaId ∈ features
  zones : ∀ zone ∈ g.zones, zone.val.locked = true →
    tagged "locked-zone-metadata-unrepresented" zone.val.zoneId ∈ features
  thicknesses : ∀ zone ∈ g.zones, zone.val.minThickness ≠ 100000 →
    tagged "zone-minimum-thickness-unrepresented" zone.val.zoneId ∈ features
  priorities : ∀ zone ∈ g.zones, zone.val.priority ≠ 0 →
    tagged "zone-priority-unrepresented" zone.val.zoneId ∈ features
  holes : ∀ hole ∈ g.holes, hole.val.locked = true →
    tagged "locked-hole-metadata-unrepresented" hole.val.holeId ∈ features
  wires : ∀ wire ∈ g.schematicWires,
    tagged "schematic-wire-unrepresented" wire.val.wireId ∈ features
  junctions : ∀ junction ∈ g.schematicJunctions,
    tagged "schematic-junction-unrepresented" junction.val.junctionId ∈ features

/-- Something about the pad has to be named. -/
def FootprintPad.Lossy (pad : FootprintPad) : Prop :=
  pad.locked = true ∨ (pad.shape = "circle" ∧ pad.sizeX ≠ pad.sizeY) ∨ pad.shape = "roundrect" ∨
    (pad.shape ≠ "circle" ∧ pad.rotationUdeg % 90000000 ≠ 0) ∨
    (pad.drillX ≠ pad.drillY ∧ pad.drillRotationUdeg % 90000000 ≠ 0)

/-- No pad of the same number has a greater identifier. -/
def DesignGraph.LastOfNumber (g : DesignGraph) (pad : FootprintPad) : Prop :=
  ∀ other ∈ g.pads, other.val.componentId = pad.componentId →
    other.val.padNumber = pad.padNumber → other.val.padId ≤ pad.padId

/-! ### Texts -/

section

omit [UnicodeData] [Hashing]

theorem mem_noteWhen {lost : Prop} [Decidable lost] {text note : String} :
    text ∈ noteWhen lost note ↔ lost ∧ text = note := by
  unfold noteWhen
  by_cases h : lost
  · rw [if_pos h, List.mem_singleton]
    exact (and_iff_right h).symm
  · rw [if_neg h]
    exact ⟨fun hmem => absurd hmem List.not_mem_nil, fun hmem => absurd hmem.1 h⟩

theorem toList_tagged (tag subject : String) :
    (tagged tag subject).toList = tag.toList ++ ':' :: subject.toList := by
  unfold tagged
  rw [String.toList_append, String.toList_append, List.append_assoc]
  rfl

theorem tagged_inj {tag tag' subject subject' : String} (h : ':' ∉ tag.toList)
    (h' : ':' ∉ tag'.toList) (heq : tagged tag subject = tagged tag' subject') :
    tag = tag' ∧ subject = subject' := by
  rw [← String.toList_inj, toList_tagged, toList_tagged] at heq
  obtain ⟨htags, hsubjects⟩ := append_cons_inj h h' heq
  exact ⟨String.toList_inj.mp htags, String.toList_inj.mp hsubjects⟩

theorem colon_not_mem_toString (angle : Int) : ':' ∉ (toString angle).toList := by
  have hdigits : ∀ n : Nat, ':' ∉ (Nat.repr n).toList := by
    intro n hmem
    rw [Nat.toList_repr] at hmem
    exact absurd (Nat.isDigit_of_mem_toDigits (by decide) (by decide) hmem) (by decide)
  cases angle with
  | ofNat n => exact hdigits n
  | negSucc n =>
      show ':' ∉ ("-" ++ Nat.repr (n + 1)).toList
      rw [String.toList_append, List.mem_append, not_or]
      exact ⟨by decide, hdigits (n + 1)⟩

theorem tagged_angle_inj {padId padId' : String} {angle angle' : Int}
    (heq : tagged padId (toString angle) = tagged padId' (toString angle')) : padId = padId' := by
  rw [← String.toList_inj, toList_tagged, toList_tagged] at heq
  obtain ⟨hids, -⟩ := append_cons_inj_last (colon_not_mem_toString angle)
    (colon_not_mem_toString angle') heq
  exact String.toList_inj.mp hids

def padTags : List String :=
  ["exact-pad-circle-nonsquare-not-supported", "exact-pad-roundrect-radius-not-represented",
    "exact-pad-rotation-not-supported", "exact-drill-rotation-not-supported",
    "locked-pad-metadata-unrepresented"]

/-- The text is about something else than the losses of a pad. -/
def Foreign (text : String) : Prop := ∀ tag ∈ padTags, ∀ subject, text ≠ tagged tag subject

theorem foreign_tagged {tag subject : String} (hcolon : ':' ∉ tag.toList) (htag : tag ∉ padTags) :
    Foreign (tagged tag subject) := by
  intro tag' htag' subject' heq
  have hcolons : ∀ t ∈ padTags, ':' ∉ t.toList := by decide
  obtain ⟨rfl, -⟩ := tagged_inj hcolon (hcolons tag' htag') heq
  exact htag htag'

theorem foreign_of_mem_noteWhen {lost : Prop} [Decidable lost] {tag subject text : String}
    (hcolon : ':' ∉ tag.toList) (htag : tag ∉ padTags)
    (h : text ∈ noteWhen lost (tagged tag subject)) : Foreign text := by
  rw [(mem_noteWhen.mp h).2]
  exact foreign_tagged hcolon htag

/-! ### Pads -/

theorem mem_padUnsupported {pad : FootprintPad} {text : String} :
    text ∈ padUnsupported pad ↔
      ((pad.shape = "circle" ∧ pad.sizeX ≠ pad.sizeY) ∧
        text = tagged "exact-pad-circle-nonsquare-not-supported" pad.padId) ∨
      (pad.shape = "roundrect" ∧
        text = tagged "exact-pad-roundrect-radius-not-represented" pad.padId) ∨
      ((pad.shape ≠ "circle" ∧ pad.rotationUdeg % 90000000 ≠ 0) ∧
        text = tagged "exact-pad-rotation-not-supported"
          (tagged pad.padId (toString pad.rotationUdeg))) ∨
      ((pad.drillX ≠ pad.drillY ∧ pad.drillRotationUdeg % 90000000 ≠ 0) ∧
        text = tagged "exact-drill-rotation-not-supported"
          (tagged "pad" (tagged pad.padId (toString pad.drillRotationUdeg)))) ∨
      (pad.locked = true ∧ text = tagged "locked-pad-metadata-unrepresented" pad.padId) := by
  unfold padUnsupported
  simp only [List.mem_append, mem_noteWhen, or_assoc]

theorem padId_of_text {pad pad' : FootprintPad} {text : String} (h : text ∈ padUnsupported pad)
    (h' : text ∈ padUnsupported pad') : pad.padId = pad'.padId := by
  rw [mem_padUnsupported] at h h'
  rcases h with ⟨-, rfl⟩ | ⟨-, rfl⟩ | ⟨-, rfl⟩ | ⟨-, rfl⟩ | ⟨-, rfl⟩ <;>
    rcases h' with ⟨-, heq⟩ | ⟨-, heq⟩ | ⟨-, heq⟩ | ⟨-, heq⟩ | ⟨-, heq⟩ <;>
    obtain ⟨htags, hsubjects⟩ := tagged_inj (by decide) (by decide) heq <;>
    first
    | exact hsubjects
    | exact tagged_angle_inj hsubjects
    | exact tagged_angle_inj (tagged_inj (by decide) (by decide) hsubjects).2
    | exact absurd htags (by decide)

theorem tag_of_text {pad : FootprintPad} {text : String} (h : text ∈ padUnsupported pad) :
    ∃ tag ∈ padTags, ∃ subject, text = tagged tag subject := by
  rw [mem_padUnsupported] at h
  rcases h with ⟨-, rfl⟩ | ⟨-, rfl⟩ | ⟨-, rfl⟩ | ⟨-, rfl⟩ | ⟨-, rfl⟩ <;>
    exact ⟨_, by decide, _, rfl⟩

theorem not_foreign {pad : FootprintPad} {text : String} (h : text ∈ padUnsupported pad) :
    ¬ Foreign text := by
  intro hforeign
  obtain ⟨tag, htag, subject, heq⟩ := tag_of_text h
  exact hforeign tag htag subject heq

end

/-! ### What the adapter notes -/

theorem mem_unsupported {text : String} : text ∈ n.unsupported ↔
    (n.boardOutline = [] ∧ text = "board-outline-missing") ∨
    (∃ component ∈ n.components, text ∈ n.componentUnsupported component.val) ∨
    (∃ track ∈ n.tracks, track.val.locked = true ∧
      text = tagged "locked-track-metadata-unrepresented" track.val.trackId) ∨
    (∃ via ∈ n.vias, via.val.locked = true ∧
      text = tagged "locked-via-metadata-unrepresented" via.val.viaId) ∨
    (∃ zone ∈ n.zones, text ∈ zoneUnsupported zone.val) ∨
    (∃ hole ∈ n.holes, hole.val.locked = true ∧
      text = tagged "locked-hole-metadata-unrepresented" hole.val.holeId) ∨
    (∃ wire ∈ n.schematicWires, tagged "schematic-wire-unrepresented" wire.val.wireId = text) ∨
    ∃ junction ∈ n.schematicJunctions,
      tagged "schematic-junction-unrepresented" junction.val.junctionId = text := by
  unfold DesignGraph.unsupported
  simp only [List.mem_append, List.mem_flatMap, List.mem_map, mem_noteWhen, or_assoc]

theorem foreign_of_zone {zone : CopperZone} {text : String} (h : text ∈ zoneUnsupported zone) :
    Foreign text := by
  unfold zoneUnsupported at h
  rw [List.mem_append, List.mem_append] at h
  rcases h with (h | h) | h
  · exact foreign_of_mem_noteWhen (by decide) (by decide) h
  · exact foreign_of_mem_noteWhen (by decide) (by decide) h
  · exact foreign_of_mem_noteWhen (by decide) (by decide) h

omit [Hashing] in
theorem foreign_of_placement {placements : Dict String FootprintPlacement} {component : Component}
    {text : String} (h : text ∈ placementUnsupported placements component) : Foreign text := by
  unfold placementUnsupported at h
  split at h
  · rw [List.mem_singleton.mp h]
    exact foreign_tagged (by decide) (by decide)
  · exact foreign_of_mem_noteWhen (by decide) (by decide) h

theorem lookedUp_of_text {text : String} (h : text ∈ n.unsupported) (hforeign : ¬ Foreign text) :
    ∃ key pad, n.padTable key = some pad ∧ text ∈ padUnsupported pad := by
  rcases mem_unsupported.mp h with ⟨-, rfl⟩ | ⟨component, -, htext⟩ | ⟨track, -, -, rfl⟩ |
    ⟨via, -, -, rfl⟩ | ⟨zone, -, htext⟩ | ⟨hole, -, -, rfl⟩ | ⟨wire, -, rfl⟩ | ⟨junction, -, rfl⟩
  · refine absurd (fun tag _ subject heq => ?_) hforeign
    have hcolon : ':' ∈ (tagged tag subject).toList := by
      rw [toList_tagged]
      exact List.mem_append_right _ List.mem_cons_self
    rw [← heq] at hcolon
    exact absurd hcolon (by decide)
  · unfold DesignGraph.componentUnsupported at htext
    rw [List.mem_append, List.mem_flatMap] at htext
    rcases htext with htext | ⟨pin, -, htext⟩
    · exact absurd (foreign_of_placement htext) hforeign
    · unfold pinUnsupported at htext
      rw [List.mem_append] at htext
      rcases htext with htext | htext
      · exact absurd (foreign_of_mem_noteWhen (by decide) (by decide) htext) hforeign
      · split at htext
        · rw [List.mem_singleton.mp htext] at hforeign
          exact absurd (foreign_tagged (by decide) (by decide)) hforeign
        · rename_i pad hpad
          rcases List.mem_append.mp htext with htext | htext
          · exact ⟨_, pad, hpad, htext⟩
          · exact absurd (foreign_of_mem_noteWhen (by decide) (by decide) htext) hforeign
  · exact absurd (foreign_tagged (by decide) (by decide)) hforeign
  · exact absurd (foreign_tagged (by decide) (by decide)) hforeign
  · exact absurd (foreign_of_zone htext) hforeign
  · exact absurd (foreign_tagged (by decide) (by decide)) hforeign
  · exact absurd (foreign_tagged (by decide) (by decide)) hforeign
  · exact absurd (foreign_tagged (by decide) (by decide)) hforeign

theorem mem_unsupported_of_pad {component : Checked Component.postInit}
    {pin : Checked PinDefinition.postInit} {pad : FootprintPad} {text : String}
    (hcomponent : component ∈ n.components) (hpin : pin ∈ component.val.pins)
    (hpad : n.padTable (component.val.componentId, pin.val.padNumber) = some pad)
    (htext : text ∈ padUnsupported pad) : text ∈ n.unsupported := by
  refine mem_unsupported.mpr (Or.inr (Or.inl ⟨component, hcomponent, ?_⟩))
  refine List.mem_append_right _ (List.mem_flatMap.mpr ⟨pin, hpin, ?_⟩)
  refine List.mem_append_right _ ?_
  rw [hpad]
  exact List.mem_append_left _ htext

/-! ### Which pad is looked up -/

theorem Valid.padIds (hn : Valid n) : (n.pads.map (·.val.padId)).Nodup := by
  have hids := hn.identifiers
  unfold DesignGraph.identifiers at hids
  exact hids ("pad IDs", n.pads.map (·.val.padId)) (by simp)

theorem padTable_eq_some_iff (hn : Valid n)
    (hsorted : SortedBy (fun pad : Checked FootprintPad.postInit => pad.val.padId) n.pads)
    {pad : Checked FootprintPad.postInit} (hpad : pad ∈ n.pads) :
    n.padTable (pad.val.componentId, pad.val.padNumber) = some pad.val ↔
      n.LastOfNumber pad.val := by
  have htable : n.padTable = Dict.empty.update
      ((n.pads.map (·.val)).map fun pad => ((pad.componentId, pad.padNumber), pad)) := by
    unfold DesignGraph.padTable
    rw [List.map_map]
    rfl
  have hranks : (n.pads.map (·.val)).Pairwise (fun p q => p.padId ≤ q.padId) :=
    List.pairwise_map.mpr hsorted
  constructor
  · intro hlookup other hother hcomponent hnumber
    rw [htable] at hlookup
    exact Dict.update_rank hranks hlookup other.val (List.mem_map_of_mem hother)
      (Prod.ext hcomponent hnumber)
  · intro hlast
    rw [htable]
    -- the key is there, so some pad is found; it ranks last, and so does this one
    have hkey : (pad.val.componentId, pad.val.padNumber) ∈
        ((n.pads.map (·.val)).map fun pad => ((pad.componentId, pad.padNumber), pad)).map
          Prod.fst := by
      rw [List.map_map]
      exact List.mem_map_of_mem (List.mem_map_of_mem hpad)
    obtain ⟨found, hmem, hfound⟩ := Dict.update_of_mem Dict.empty hkey
    rw [hfound]
    obtain ⟨found', hfound', heq⟩ := List.mem_map.mp hmem
    obtain ⟨item, hitem, rfl⟩ := List.mem_map.mp hfound'
    obtain ⟨hkeys, rfl⟩ := Prod.mk.inj heq
    obtain ⟨hcomponent, hnumber⟩ := Prod.mk.inj hkeys
    have hbelow : pad.val.padId ≤ item.val.padId :=
      Dict.update_rank hranks hfound pad.val (List.mem_map_of_mem hpad) rfl
    have hsame : item.val.padId = pad.val.padId :=
      le_antisymm (hlast item hitem hcomponent hnumber) hbelow
    rw [List.inj_on_of_nodup_map hn.padIds hitem hpad hsame]

/-- Every pad is looked up by some pin, or hidden by one of the same number. -/
theorem exists_pin_of_pad (hn : Valid n) {pad : Checked FootprintPad.postInit} (hpad : pad ∈ n.pads) :
    ∃ component ∈ n.components, ∃ pin ∈ component.val.pins,
      pad.val.BelongsTo component.val pin.val := by
  obtain ⟨component, pin, hfound, -, hpins, -⟩ := checkPad_ok.mp (hn.pads pad hpad)
  unfold DesignGraph.component? at hfound
  obtain ⟨item, hitem, rfl⟩ := Option.map_eq_some_iff.mp hfound
  have hid : item.val.componentId = pad.val.componentId := by simpa using List.find?_some hitem
  have hpin : pin ∈ item.val.pins.filter (fun pin => pin.val.padNumber = pad.val.padNumber) := by
    rw [hpins]
    exact List.mem_singleton_self pin
  rw [List.mem_filter, decide_eq_true_eq] at hpin
  exact ⟨item, List.mem_of_find?_eq_some hitem, pin, hpin.1, hid.symm, hpin.2.symm⟩

/-- **A loss of a pad is named exactly when the pad is the last of its number.** -/
theorem mem_unsupported_of_pad_iff (hn : Valid n)
    (hsorted : SortedBy (fun pad : Checked FootprintPad.postInit => pad.val.padId) n.pads)
    {pad : Checked FootprintPad.postInit} (hpad : pad ∈ n.pads) {text : String}
    (htext : text ∈ padUnsupported pad.val) :
    text ∈ n.unsupported ↔ n.LastOfNumber pad.val := by
  rw [← padTable_eq_some_iff hn hsorted hpad]
  constructor
  · intro hmem
    obtain ⟨key, found, hfound, hfoundText⟩ := lookedUp_of_text hmem (not_foreign htext)
    have hin := Dict.mem_of_empty_update hfound
    obtain ⟨item, hitem, heq⟩ := List.mem_map.mp hin
    obtain ⟨rfl, rfl⟩ := Prod.mk.inj heq
    have hsame := padId_of_text hfoundText htext
    rw [List.inj_on_of_nodup_map hn.padIds hitem hpad hsame] at hfound
    exact hfound
  · intro hfound
    obtain ⟨component, hcomponent, pin, hpin, hid, hnumber⟩ := exists_pin_of_pad hn hpad
    rw [hid, hnumber] at hfound
    exact mem_unsupported_of_pad hcomponent hpin hfound htext

/-! ### From a graph to its normal form -/

section

omit [UnicodeData] [Hashing]

theorem mem_normalItems {α : Type} {construct : α → Except Failure α} {normalize : α → α}
    (haccepts : Accepts construct normalize) {key : α → String} {items : List (Checked construct)}
    {c : Checked construct} (hc : c ∈ items) :
    haccepts.normalForm c ∈ sortBy (fun item => key item.val) (items.map haccepts.normalForm) :=
  mem_sortBy.mpr (List.mem_map_of_mem hc)

theorem normalized_drill {pad : FootprintPad} (h : pad.drillX ≠ pad.drillY) :
    pad.normalized.drillRotationUdeg = pad.drillRotationUdeg % 180000000 :=
  if_neg h

theorem lossy_normalized {pad : FootprintPad} : pad.normalized.Lossy ↔ pad.Lossy := by
  refine or_congr_right (or_congr_right (or_congr_right (or_congr_right ?_)))
  refine and_congr_right fun hslot => ?_
  have hdrill : pad.normalized.drillRotationUdeg = pad.drillRotationUdeg % 180000000 :=
    normalized_drill hslot
  rw [hdrill, Int.emod_emod_of_dvd _ (by decide)]

theorem lossy_iff {pad : FootprintPad} : pad.Lossy ↔ ∃ text, text ∈ padUnsupported pad := by
  simp only [mem_padUnsupported, exists_or, exists_and_left, exists_eq, and_true]
  unfold FootprintPad.Lossy
  tauto

end

theorem lastOfNumber_normalForm {pad : FootprintPad} :
    g.normalForm.LastOfNumber pad.normalized ↔ g.LastOfNumber pad := by
  constructor
  · intro hlast other hother
    exact hlast (FootprintPad.accepts.normalForm other)
      (mem_normalItems FootprintPad.accepts hother)
  · intro hlast other hother
    obtain ⟨item, hitem, rfl⟩ := List.mem_map.mp (mem_sortBy.mp hother)
    exact hlast item hitem

/-! ### Placements and pins -/

theorem Valid.placementIds (hn : Valid n) :
    (n.placements.map (·.val.componentId)).Nodup := by
  have hids := hn.identifiers
  unfold DesignGraph.identifiers at hids
  exact hids ("placement component IDs", n.placementIds) (by simp)

theorem placementTable_eq_some (hn : Valid n) {placement : Checked FootprintPlacement.postInit}
    (hplacement : placement ∈ n.placements) :
    n.placementTable placement.val.componentId = some placement.val := by
  refine Dict.update_eq_of_mem _ (List.mem_map.mpr ⟨placement, hplacement, rfl⟩) ?_
  intro value hvalue
  obtain ⟨other, hother, heq⟩ := List.mem_map.mp hvalue
  obtain ⟨hid, rfl⟩ := Prod.mk.inj heq
  rw [List.inj_on_of_nodup_map hn.placementIds hother hplacement hid]

theorem placementTable_eq_none {componentId : String} (h : componentId ∉ n.placementIds) :
    n.placementTable componentId = none := by
  refine Dict.update_of_not_mem _ ?_
  rw [List.map_map]
  exact h

theorem padTable_eq_none {component : Component} {pin : PinDefinition}
    (h : ∀ pad ∈ n.pads, ¬ pad.val.BelongsTo component pin) :
    n.padTable (component.componentId, pin.padNumber) = none := by
  refine Dict.update_of_not_mem _ ?_
  rw [List.map_map]
  intro hmem
  obtain ⟨pad, hpad, hkey⟩ := List.mem_map.mp hmem
  exact h pad hpad ⟨congrArg Prod.fst hkey, congrArg Prod.snd hkey⟩

theorem mem_unsupported_of_placement {component : Checked Component.postInit} {text : String}
    (hcomponent : component ∈ n.components)
    (htext : text ∈ placementUnsupported n.placementTable component.val) :
    text ∈ n.unsupported :=
  mem_unsupported.mpr (Or.inr (Or.inl ⟨component, hcomponent, List.mem_append_left _ htext⟩))

theorem mem_unsupported_of_padless {component : Checked Component.postInit}
    {pin : Checked PinDefinition.postInit} (hcomponent : component ∈ n.components)
    (hpin : pin ∈ component.val.pins)
    (h : ∀ pad ∈ n.pads, ¬ pad.val.BelongsTo component.val pin.val) :
    tagged "pin-pad-geometry-missing" (tagged component.val.componentId pin.val.number) ∈
      n.unsupported := by
  refine mem_unsupported.mpr (Or.inr (Or.inl ⟨component, hcomponent, ?_⟩))
  refine List.mem_append_right _ (List.mem_flatMap.mpr ⟨pin, hpin, ?_⟩)
  refine List.mem_append_right _ ?_
  rw [padTable_eq_none h]
  exact List.mem_singleton_self _

/-! ### The adapter -/

omit [Hashing] in
theorem shape_mem (pad : Checked FootprintPad.postInit) : pad.val.shape ∈ padShapes := by
  have h := pad.accepted
  unfold FootprintPad.postInit FootprintPad.checks at h
  simp only [bind_ok, exists_unit, require_ok] at h
  obtain ⟨⟨-, -, -, -, -, -, hshape, -⟩, -⟩ := h
  exact hshape

omit [Hashing] in
theorem verificationPad_ok (pad : Checked FootprintPad.postInit) :
    ∃ translated, verificationPad pad.val = .ok translated := by
  have hshape : ∃ shape, padShape pad.val.shape = .ok shape := by
    have hall : ∀ value ∈ padShapes, ∃ shape, padShape value = .ok shape := by
      intro value hvalue
      unfold padShapes at hvalue
      simp only [List.mem_cons, List.not_mem_nil, or_false] at hvalue
      rcases hvalue with rfl | rfl | rfl | rfl <;> exact ⟨_, rfl⟩
    exact hall _ (shape_mem pad)
  obtain ⟨shape, hshape⟩ := hshape
  unfold verificationPad
  rw [hshape]
  exact ⟨_, rfl⟩

theorem mem_unsupported_of_zone {zone : Checked CopperZone.postInit} (hzone : zone ∈ g.zones)
    {text : String} (htext : text ∈ zoneUnsupported zone.val) : text ∈ g.normalForm.unsupported :=
  mem_unsupported.mpr (Or.inr (Or.inr (Or.inr (Or.inr (Or.inl
    ⟨_, mem_normalItems CopperZone.accepts hzone, htext⟩)))))

/-- What the adapter returns for a valid graph. -/
theorem toVerificationBoard_ok (hg : Valid g) {revision : String}
    (hrevision : Text.isSha256 revision = true) :
    ∃ board, toVerificationBoard g revision = .ok board ∧
      ∀ text, text ∈ board.unsupportedFeatures ↔ text ∈ g.normalForm.unsupported := by
  obtain ⟨pads, hpads, -⟩ := mapM_related
    (R := fun pad translated => verificationPad pad.val = .ok translated)
    (l := g.normalForm.pads) fun pad _ => (verificationPad_ok pad).imp fun _ h => ⟨h, h⟩
  have hvalid := validateGraph_iff.mpr ((normalForm_redrawn hg).valid hg)
  unfold toVerificationBoard
  simp only [bind_ok, exists_unit, require_ok, pure_ok]
  refine ⟨_, ⟨hrevision, _, normalized_eq_normalForm g, hvalid, pads, hpads, rfl⟩, fun text => ?_⟩
  exact Verification.mem_sortedSet

/-- With the losses of the pads, everything else is named too. -/
theorem lossAware_of_pads (hg : Valid g)
    (hfeatures : ∀ text ∈ g.normalForm.unsupported, text ∈ features)
    (hpads : ∀ pad ∈ g.pads, ∀ text ∈ padUnsupported pad.val.normalized, text ∈ features) :
    LossAware g features where
  placements := by
    intro placement hplacement hlocked
    have hn : Valid g.normalForm := (normalForm_redrawn hg).valid hg
    obtain ⟨component, hfound⟩ := Option.isSome_iff_exists.mp (hg.placements placement hplacement)
    unfold DesignGraph.component? at hfound
    obtain ⟨item, hitem, -⟩ := Option.map_eq_some_iff.mp hfound
    have hid : item.val.componentId = placement.val.componentId := by
      simpa using List.find?_some hitem
    refine hfeatures _ (mem_unsupported_of_placement
      (mem_normalItems Component.accepts (List.mem_of_find?_eq_some hitem)) ?_)
    have htable : g.normalForm.placementTable item.val.componentId = some placement.val := by
      rw [hid]
      exact placementTable_eq_some hn (mem_sortBy.mpr hplacement)
    show _ ∈ placementUnsupported _ item.val.normalized
    unfold placementUnsupported
    rw [show item.val.normalized.componentId = item.val.componentId from rfl, htable, hid]
    exact mem_noteWhen.mpr ⟨hlocked, rfl⟩
  unplaced := by
    intro component hcomponent hunplaced
    have hids : g.normalForm.placementIds.Perm g.placementIds := (sortBy_perm g.placements).map _
    have htable : g.normalForm.placementTable component.val.normalized.componentId = none :=
      placementTable_eq_none fun hmem => hunplaced (hids.mem_iff.mp hmem)
    refine hfeatures _ (mem_unsupported_of_placement
      (mem_normalItems Component.accepts hcomponent) ?_)
    show _ ∈ placementUnsupported _ component.val.normalized
    unfold placementUnsupported
    rw [htable]
    exact List.mem_singleton_self _
  padless := by
    intro component hcomponent pin hpin hpadless
    have hnormal : Component.accepts.normalForm component ∈ g.normalForm.components :=
      mem_normalItems Component.accepts hcomponent
    have hnone : ∀ pad ∈ g.normalForm.pads,
        ¬ pad.val.BelongsTo (Component.accepts.normalForm component).val pin.val := by
      intro pad hpad
      obtain ⟨item, hitem, rfl⟩ := List.mem_map.mp (mem_sortBy.mp hpad)
      exact hpadless item hitem
    have hnamed := mem_unsupported_of_padless hnormal (mem_sortBy.mpr hpin) hnone
    exact hfeatures _ hnamed
  lockedPads := fun pad hpad hlocked => hpads pad hpad _ (mem_padUnsupported.mpr
    (Or.inr (Or.inr (Or.inr (Or.inr ⟨hlocked, rfl⟩)))))
  circles := fun pad hpad hshape hsize => hpads pad hpad _ (mem_padUnsupported.mpr
    (Or.inl ⟨⟨hshape, hsize⟩, rfl⟩))
  roundrects := fun pad hpad hshape => hpads pad hpad _ (mem_padUnsupported.mpr
    (Or.inr (Or.inl ⟨hshape, rfl⟩)))
  rotations := fun pad hpad hshape hturn => hpads pad hpad _ (mem_padUnsupported.mpr
    (Or.inr (Or.inr (Or.inl ⟨⟨hshape, hturn⟩, rfl⟩))))
  drillRotations := by
    intro pad hpad hslot hturn
    have hdrill : pad.val.normalized.drillRotationUdeg = pad.val.drillRotationUdeg % 180000000 :=
      normalized_drill hslot
    have hturn' : pad.val.normalized.drillRotationUdeg % 90000000 ≠ 0 := by
      rw [hdrill, Int.emod_emod_of_dvd _ (by decide)]
      exact hturn
    refine hpads pad hpad _ (mem_padUnsupported.mpr
      (Or.inr (Or.inr (Or.inr (Or.inl ⟨⟨hslot, hturn'⟩, ?_⟩)))))
    rw [hdrill]
    rfl
  tracks := fun track htrack hlocked => hfeatures _ (mem_unsupported.mpr
    (Or.inr (Or.inr (Or.inl ⟨_, mem_normalItems Track.accepts htrack, hlocked, rfl⟩))))
  vias := fun via hvia hlocked => hfeatures _ (mem_unsupported.mpr
    (Or.inr (Or.inr (Or.inr (Or.inl ⟨_, mem_normalItems Via.accepts hvia, hlocked, rfl⟩)))))
  zones := fun zone hzone hlocked => hfeatures _ (mem_unsupported_of_zone hzone
    (List.mem_append_right _ (mem_noteWhen.mpr ⟨hlocked, rfl⟩)))
  thicknesses := fun zone hzone hthickness => hfeatures _ (mem_unsupported_of_zone hzone
    (List.mem_append_left _ (List.mem_append_left _ (mem_noteWhen.mpr ⟨hthickness, rfl⟩))))
  priorities := fun zone hzone hpriority => hfeatures _ (mem_unsupported_of_zone hzone
    (List.mem_append_left _ (List.mem_append_right _ (mem_noteWhen.mpr ⟨hpriority, rfl⟩))))
  holes := fun hole hhole hlocked => hfeatures _ (mem_unsupported.mpr
    (Or.inr (Or.inr (Or.inr (Or.inr (Or.inr (Or.inl
      ⟨_, mem_normalItems FootprintHole.accepts hhole, hlocked, rfl⟩)))))))
  wires := fun wire hwire => hfeatures _ (mem_unsupported.mpr
    (Or.inr (Or.inr (Or.inr (Or.inr (Or.inr (Or.inr (Or.inl
      ⟨_, mem_normalItems SchematicWire.accepts hwire, rfl⟩))))))))
  junctions := fun junction hjunction => hfeatures _ (mem_unsupported.mpr
    (Or.inr (Or.inr (Or.inr (Or.inr (Or.inr (Or.inr (Or.inr
      ⟨junction, mem_sortBy.mpr hjunction, rfl⟩))))))))

/--
**The adapter names every loss, but for pads that another pad of their number hides.**  It
does so exactly when every pad with something to name is the last of its number.
-/
theorem losses_named_iff (g : DesignGraph) (revision : String) (hvalid : validateGraph g = .ok ())
    (hrevision : Text.isSha256 revision = true) :
    ∃ board, toVerificationBoard g revision = .ok board ∧
      (LossAware g board.unsupportedFeatures ↔
        ∀ pad ∈ g.pads, pad.val.Lossy → g.LastOfNumber pad.val) := by
  have hg := validateGraph_iff.mp hvalid
  have hn : Valid g.normalForm := (normalForm_redrawn hg).valid hg
  have hsorted : SortedBy (fun pad : Checked FootprintPad.postInit => pad.val.padId)
      g.normalForm.pads := sortBy_sorted _
  obtain ⟨board, hboard, hfeatures⟩ := toVerificationBoard_ok hg hrevision
  refine ⟨board, hboard, ?_⟩
  have hpads : ∀ pad ∈ g.pads, ∀ text ∈ padUnsupported pad.val.normalized,
      (text ∈ board.unsupportedFeatures ↔ g.LastOfNumber pad.val) := by
    intro pad hpad text htext
    rw [hfeatures, ← lastOfNumber_normalForm]
    exact mem_unsupported_of_pad_iff hn hsorted (mem_normalItems FootprintPad.accepts hpad) htext
  constructor
  · intro haware pad hpad hlossy
    obtain ⟨text, htext⟩ := lossy_iff.mp (lossy_normalized.mpr hlossy)
    refine (hpads pad hpad text htext).mp ?_
    rcases mem_padUnsupported.mp htext with ⟨⟨hshape, hsize⟩, rfl⟩ | ⟨hshape, rfl⟩ |
      ⟨⟨hshape, hturn⟩, rfl⟩ | ⟨⟨hslot, hturn⟩, rfl⟩ | ⟨hlocked, rfl⟩
    · exact haware.circles pad hpad hshape hsize
    · exact haware.roundrects pad hpad hshape
    · exact haware.rotations pad hpad hshape hturn
    · have hdrill : pad.val.normalized.drillRotationUdeg = pad.val.drillRotationUdeg % 180000000 :=
        normalized_drill hslot
      rw [hdrill, Int.emod_emod_of_dvd _ (by decide)] at hturn
      rw [hdrill]
      exact haware.drillRotations pad hpad hslot hturn
    · exact haware.lockedPads pad hpad hlocked
  · intro hlast
    have hnamed : ∀ pad ∈ g.pads, ∀ text ∈ padUnsupported pad.val.normalized,
        text ∈ board.unsupportedFeatures := by
      intro pad hpad text htext
      exact (hpads pad hpad text htext).mpr
        (hlast pad hpad (lossy_normalized.mp (lossy_iff.mpr ⟨text, htext⟩)))
    exact lossAware_of_pads hg (fun text htext => (hfeatures text).mpr htext) hnamed

end Losses

/-! ### Two pads of one number -/

section Twins

attribute [local instance] asciiData netHashing

/-- A surface pad of the only pin. -/
def twinPad (padId : String) (isLocked : Bool) : FootprintPad :=
  { padId := padId, componentId := "u1", padNumber := "1", center := ⟨0, 0, inInt64_zero, inInt64_zero⟩,
    sizeX := 1000000, sizeY := 1000000, shape := "rect", rotationUdeg := 0, layers := ["F.Cu"],
    locked := isLocked }

def lockedTwin : Checked FootprintPad.postInit := ⟨twinPad "p1" true, by decide +kernel⟩

def freeTwin : Checked FootprintPad.postInit := ⟨twinPad "p2" false, by decide +kernel⟩

/-- A component whose only pin has two pads, the first of them locked. -/
def twinGraph : DesignGraph where
  schemaVersion := 1
  projectId := "demo"
  layers := ["B.Cu", "F.Cu"]
  boardOutline := []
  components := [holeComponent]
  nets := []
  placements := [holePlacement]
  tracks := []
  pads := [lockedTwin, freeTwin]
  holes := []
  vias := []
  zones := []
  schematicWires := []
  schematicJunctions := []
  header := demo_header

theorem twinGraph_valid : validateGraph twinGraph = .ok () := by decide +kernel

/-- The pin looks up the second pad, and the first one is not named. -/
theorem hidden_pad_unnamed : validateGraph twinGraph = .ok () ∧
    ∃ board, toVerificationBoard twinGraph (plainDigest 'a') = .ok board ∧
      ¬ LossAware twinGraph board.unsupportedFeatures := by
  have hg := validateGraph_iff.mp twinGraph_valid
  have hrevision : Text.isSha256 (plainDigest 'a') = true := by decide +kernel
  obtain ⟨board, hboard, hfeatures⟩ := toVerificationBoard_ok hg hrevision
  refine ⟨twinGraph_valid, board, hboard, fun haware => ?_⟩
  have hnamed := haware.lockedPads lockedTwin List.mem_cons_self rfl
  rw [hfeatures] at hnamed
  exact absurd hnamed (by decide +kernel)

theorem losses_named_iff_twins :
    ∃ board, toVerificationBoard twinGraph (plainDigest 'a') = .ok board ∧
      (LossAware twinGraph board.unsupportedFeatures ↔
        ∀ pad ∈ twinGraph.pads, pad.val.Lossy → twinGraph.LastOfNumber pad.val) :=
  losses_named_iff twinGraph (plainDigest 'a') twinGraph_valid (by decide +kernel)

end Twins

end Evleda.Kernel
