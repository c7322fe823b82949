/-
The order of the items on file does not matter.

Two drawings of the same items, differently ordered, have the same points and the
same checks.  Their classes are the same, because a class is a component and what
is connected is not a matter of order, so their groups hold the same points in
another order.  What is read off a group is sorted, and so is the list of nets.
-/
import Evleda.KicadProject.Nets

namespace Evleda.KicadProject

open Outcome

namespace Drawing

variable {d d' : Drawing}

/-- The same items in another order. -/
structure Reordered (d d' : Drawing) : Prop where
  pins : d.pins.Perm d'.pins
  wires : d.wires.Perm d'.wires
  junctions : d.junctions.Perm d'.junctions
  labels : d.labels.Perm d'.labels
  noConnects : d.noConnects.Perm d'.noConnects

theorem Reordered.symm (h : d.Reordered d') : d'.Reordered d :=
  ⟨h.pins.symm, h.wires.symm, h.junctions.symm, h.labels.symm, h.noConnects.symm⟩

/-! ### The same points and components -/

theorem pointNm_key_injective : Function.Injective PointNm.key := by
  rintro ⟨x, y⟩ ⟨x', y'⟩ h
  have hboth : (x, y) = (x', y') := h
  obtain ⟨rfl, rfl⟩ := Prod.mk.inj hboth
  rfl

theorem pinRef_key_injective : Function.Injective SchematicPinRef.key := by
  rintro ⟨symbol, pin, number⟩ ⟨symbol', pin', number'⟩ h
  have hboth : (symbol, toLex (pin, number)) = (symbol', toLex (pin', number')) := h
  obtain ⟨rfl, hrest⟩ := Prod.mk.inj hboth
  have hrest : (pin, number) = (pin', number') := hrest
  obtain ⟨rfl, rfl⟩ := Prod.mk.inj hrest
  rfl

theorem Reordered.touches (h : d.Reordered d') : d.Touches = d'.Touches := by
  funext x p
  apply propext
  cases x with
  | pin ref position => exact and_congr_left fun _ => h.pins.mem_iff
  | wire wire => exact and_congr_left fun _ => h.wires.mem_iff
  | junction junction => exact and_congr_left fun _ => h.junctions.mem_iff
  | label label => exact and_congr_left fun _ => h.labels.mem_iff
  | noConnect marker => exact and_congr_left fun _ => h.noConnects.mem_iff

theorem Reordered.named (h : d.Reordered d') : d.Named = d'.Named := by
  funext x n
  apply propext
  cases x with
  | label label => exact and_congr_left fun _ => h.labels.mem_iff
  | _ => exact Iff.rfl

theorem Reordered.wiring (h : d.Reordered d') : d.wiring = d'.wiring := by
  unfold Drawing.wiring
  simp only [h.touches, h.named]

theorem Reordered.orderedPoints (h : d.Reordered d') : d.orderedPoints = d'.orderedPoints :=
  sortBy_eq_of_injective pointNm_key_injective (((((((h.wires.map _).append (h.wires.map _)).append
    (h.junctions.map _)).append (h.labels.map _)).append (h.noConnects.map _)).append
    (h.pins.map _)).dedup)

theorem Reordered.classOf (h : d.Reordered d') {p q : PointNm} (hp : p ∈ d.orderedPoints)
    (hq : q ∈ d.orderedPoints) : d.classOf p = d.classOf q ↔ d'.classOf p = d'.classOf q := by
  obtain ⟨x, hx⟩ := mem_orderedPoints.mp hp
  obtain ⟨y, hy⟩ := mem_orderedPoints.mp hq
  have hx' : d'.Touches x p := by rwa [← h.touches]
  have hy' : d'.Touches y q := by rwa [← h.touches]
  rw [classOf_eq_iff hx hy, classOf_eq_iff hx' hy', h.wiring]

theorem Reordered.groups (h : d.Reordered d') :
    (d.groups.map Prod.snd).Perm (d'.groups.map Prod.snd) := by
  have hnodup : ∀ d : Drawing, (d.groups.map Prod.snd).Nodup := by
    intro d
    refine List.Nodup.map_on ?_ (List.Nodup.of_map _ d.grouped.roots)
    rintro ⟨root, points⟩ hgroup ⟨root', points'⟩ hgroup' heq
    have heq : points = points' := heq
    obtain ⟨hpoints, hne⟩ := (d.grouped.covers _ _).mp hgroup
    obtain ⟨hpoints', -⟩ := (d.grouped.covers _ _).mp hgroup'
    obtain ⟨p, hp⟩ := List.exists_mem_of_ne_nil _ hne
    have hroot : d.classOf p = root := by
      rw [hpoints] at hp
      exact of_decide_eq_true (List.mem_filter.mp hp).2
    have hroot' : d.classOf p = root' := by
      rw [heq, hpoints'] at hp
      exact of_decide_eq_true (List.mem_filter.mp hp).2
    rw [heq, ← hroot, ← hroot']
  have hsub : ∀ {d d' : Drawing}, d.Reordered d' → ∀ points, points ∈ d.groups.map Prod.snd →
      points ∈ d'.groups.map Prod.snd := by
    intro d d' h points hpoints
    obtain ⟨⟨root, points⟩, hgroup, rfl⟩ := List.mem_map.mp hpoints
    obtain ⟨hmembers, hne⟩ := (d.grouped.covers _ _).mp hgroup
    obtain ⟨p, hp⟩ := List.exists_mem_of_ne_nil _ hne
    have hp' : p ∈ d.orderedPoints ∧ d.classOf p = root := by
      rw [hmembers] at hp
      exact ⟨(List.mem_filter.mp hp).1, of_decide_eq_true (List.mem_filter.mp hp).2⟩
    obtain ⟨hp', hroot⟩ := hp'
    refine List.mem_map.mpr ⟨(d'.classOf p, points), (d'.grouped.covers _ _).mpr ⟨?_, hne⟩, rfl⟩
    show points = _
    rw [hmembers, ← hroot, ← h.orderedPoints]
    refine List.filter_congr fun q hq => ?_
    exact decide_eq_decide.mpr (h.classOf hq hp')
  exact (List.perm_ext_iff_of_nodup (hnodup d) (hnodup d')).mpr fun points =>
    ⟨hsub h points, hsub h.symm points⟩

/-! ### The same checks -/

theorem segmentsIntersect_comm (first second : SchematicWire) :
    segmentsIntersect first second = segmentsIntersect second first := by
  unfold segmentsIntersect
  dsimp only
  generalize orientation first.start first.finish second.start = abc
  generalize orientation first.start first.finish second.finish = abd
  generalize orientation second.start second.finish first.start = cda
  generalize orientation second.start second.finish first.finish = cdb
  by_cases hboth : abc ≠ abd ∧ cda ≠ cdb
  · rw [if_pos hboth, if_pos hboth.symm]
  · rw [if_neg hboth, if_neg fun h => hboth h.symm]
    ac_rfl

theorem crosses_comm (first second : SchematicWire) :
    crosses first second = crosses second first := by
  have hshares : sharesEnd first second = sharesEnd second first := by
    unfold sharesEnd
    simp only [eq_comm, decide_eq_decide]
    tauto
  unfold crosses
  rw [segmentsIntersect_comm, hshares]

theorem Reordered.incident (h : d.Reordered d') (p : PointNm) :
    (d.incident p).Perm (d'.incident p) :=
  ((h.wires.filter _).map _).dedup

theorem Reordered.pinsAt (h : d.Reordered d') (p : PointNm) : (d.pinsAt p).Perm (d'.pinsAt p) :=
  (h.pins.filter _).map _

theorem Clean.reordered (hclean : d.Clean) (h : d.Reordered d') : d'.Clean where
  uncrossed := (h.wires.pairwise_iff fun hxy => by rwa [crosses_comm]).mp hclean.uncrossed
  junctions := (h.junctions.map _).nodup_iff.mp hclean.junctions
  splits := by
    intro junction hjunction
    rw [← (h.incident _).length_eq]
    exact hclean.splits junction (h.junctions.mem_iff.mpr hjunction)
  marked := by
    intro wire hwire point hend hmany
    rw [← (h.incident _).length_eq] at hmany
    exact (h.junctions.map _).mem_iff.mp
      (hclean.marked wire (h.wires.mem_iff.mpr hwire) point hend hmany)
  anchored := by
    intro label hlabel
    refine (hclean.anchored label (h.labels.mem_iff.mpr hlabel)).imp ?_ ?_
    · exact fun hne hnil => hne ((h.incident _).trans (by rw [hnil])).eq_nil
    · exact fun hne hnil => hne ((h.pinsAt _).trans (by rw [hnil])).eq_nil
  markers := (h.noConnects.map _).nodup_iff.mp hclean.markers
  single := by
    intro marker hmarker
    rw [← (h.pinsAt _).length_eq]
    exact hclean.single marker (h.noConnects.mem_iff.mpr hmarker)
  alone := by
    intro marker hmarker
    obtain ⟨hincident, hlabels, hjunctions⟩ := hclean.alone marker (h.noConnects.mem_iff.mpr hmarker)
    refine ⟨?_, ?_, ?_⟩
    · exact ((h.incident _).symm.trans (by rw [hincident])).eq_nil
    · exact fun hmem => hlabels ((h.labels.map _).mem_iff.mpr hmem)
    · exact fun hmem => hjunctions ((h.junctions.map _).mem_iff.mpr hmem)

/-! ### The same nets -/

section Nets

variable [Hashing] [UnicodeData] [CaseFolding]

/-- What is read off a group does not depend on the order. -/
theorem Reordered.groupNet (h : d.Reordered d') (points : List PointNm) :
    d.groupNet points = d'.groupNet points := by
  have hmarked : (∃ marker ∈ d.noConnects, marker.position ∈ points) ↔
      ∃ marker ∈ d'.noConnects, marker.position ∈ points :=
    exists_congr fun marker => and_congr_left fun _ => h.noConnects.mem_iff
  have hwires : sortBy id ((d.wires.filter fun wire =>
      wire.start ∈ points ∨ wire.finish ∈ points).map (·.wireId)) =
      sortBy id ((d'.wires.filter fun wire =>
        wire.start ∈ points ∨ wire.finish ∈ points).map (·.wireId)) :=
    sortBy_eq_of_injective Function.injective_id ((h.wires.filter _).map _)
  have hjunctions : sortBy id ((d.junctions.filter fun junction =>
      junction.position ∈ points).map (·.junctionId)) =
      sortBy id ((d'.junctions.filter fun junction =>
        junction.position ∈ points).map (·.junctionId)) :=
    sortBy_eq_of_injective Function.injective_id ((h.junctions.filter _).map _)
  have hpins : sortBy SchematicPinRef.key (points.flatMap d.pinsAt) =
      sortBy SchematicPinRef.key (points.flatMap d'.pinsAt) :=
    sortBy_eq_of_injective pinRef_key_injective
      (List.Perm.flatMap_left points fun p _ => h.pinsAt p)
  have hfound : (d.labels.filter fun label => label.position ∈ points).Perm
      (d'.labels.filter fun label => label.position ∈ points) := h.labels.filter _
  have hlabelIds : (sortBy (·.labelId) (d.labels.filter fun label =>
      label.position ∈ points)).map (·.labelId) = (sortBy (·.labelId) (d'.labels.filter fun label =>
      label.position ∈ points)).map (·.labelId) := map_sortBy_of_perm hfound
  have hsorted : (sortBy (·.labelId) (d.labels.filter fun label => label.position ∈ points)).Perm
      (sortBy (·.labelId) (d'.labels.filter fun label => label.position ∈ points)) :=
    (sortBy_perm _).trans (hfound.trans (sortBy_perm _).symm)
  have hnames := (hsorted.map (·.name)).dedup
  have hempty : sortBy (·.labelId) (d.labels.filter fun label => label.position ∈ points) = [] ↔
      sortBy (·.labelId) (d'.labels.filter fun label => label.position ∈ points) = [] :=
    ⟨fun hnil => (hsorted.symm.trans (by rw [hnil])).eq_nil,
      fun hnil => (hsorted.trans (by rw [hnil])).eq_nil⟩
  unfold Drawing.groupNet
  simp only [hmarked, hwires, hjunctions, hpins, hempty, hlabelIds, hnames.length_eq]
  split
  · rfl
  · split
    · rfl
    · generalize ((sortBy (·.labelId) (d.labels.filter fun label =>
        label.position ∈ points)).map (·.name)).dedup = names at hnames
      generalize ((sortBy (·.labelId) (d'.labels.filter fun label =>
        label.position ∈ points)).map (·.name)).dedup = names' at hnames ⊢
      rcases names' with _ | ⟨only, _ | ⟨second, rest⟩⟩
      · rw [hnames.eq_nil]
      · rw [List.perm_singleton.mp hnames]
      · rfl

/-- Differently ordered, the same items have the same nets. -/
theorem Reordered.resolveNets (h : d.Reordered d') {nets : List SchematicNet}
    (hnets : resolveNets d = .ok nets) : resolveNets d' = .ok nets := by
  obtain ⟨hclean, found, hfound, hnodup, rfl⟩ := resolveNets_ok hnets
  have hread : (d.groups.map Prod.snd).mapM d'.groupNet = .ok found := by
    rw [← funext h.groupNet, List.mapM_map]
    exact hfound
  obtain ⟨found', hfound', hperm⟩ := mapM_perm h.groups.symm hread
  rw [List.mapM_map] at hfound'
  have hnets : found'.reduceOption.Perm found.reduceOption := hperm.filterMap _
  have hnodup' := (hnets.map (·.netId)).nodup_iff.mpr hnodup
  obtain ⟨hcrossings, hjunctions, hlabels, hmarkers⟩ := clean_iff.mp (hclean.reordered h)
  unfold KicadProject.resolveNets
  simp only [bind_ok, require_ok, exists_unit, pure_ok]
  exact ⟨hcrossings, hjunctions, hlabels, hmarkers, found', hfound', hnodup',
    sortBy_eq_of_perm hnodup' hnets⟩

/-! ### Every item in its net -/

/-- The nets by the identifiers they list, where these tell the items apart. -/
structure Listed (d : Drawing) (nets : List SchematicNet) : Prop where
  wires : (d.wires.map (·.wireId)).Nodup →
    ∀ wire ∈ d.wires, ∃! n, n ∈ nets ∧ wire.wireId ∈ n.wireIds
  junctions : (d.junctions.map (·.junctionId)).Nodup →
    ∀ junction ∈ d.junctions, ∃! n, n ∈ nets ∧ junction.junctionId ∈ n.junctionIds
  labels : (d.labels.map (·.labelId)).Nodup →
    ∀ label ∈ d.labels, ∃! n, n ∈ nets ∧ label.labelId ∈ n.labelIds
  pins : (d.pins.map Prod.fst).Nodup →
    ∀ ref, ∀ n ∈ nets, ∀ n' ∈ nets, ref ∈ n.pinRefs → ref ∈ n'.pinRefs → n = n'

omit [Hashing] [UnicodeData] [CaseFolding] in
/-- An item with an identifier of its own is listed by its net only. -/
theorem NetsOf.listed_once {α : Type} {items : List α} {key : α → String} {asItem : α → Item}
    {keys : SchematicNet → List String} {nets : List SchematicNet} (h : d.NetsOf nets)
    (hkeys : (items.map key).Nodup) {a : α} (ha : a ∈ items)
    (hone : ∃! n, n ∈ nets ∧ d.NetOf (asItem a) n)
    (hlists : ∀ {x n}, d.NetOf x n → ∀ id, id ∈ keys n ↔
      ∃ b ∈ items, key b = id ∧ d.wiring.Connected x (asItem b)) :
    ∃! n, n ∈ nets ∧ key a ∈ keys n := by
  obtain ⟨n, ⟨hn, hof⟩, honly⟩ := hone
  refine ⟨n, ⟨hn, (hlists hof _).mpr ⟨a, ha, rfl, .refl _⟩⟩, ?_⟩
  rintro n' ⟨hn', hmem⟩
  obtain ⟨x, -, -, hof'⟩ := h.components n' hn'
  obtain ⟨b, hb, hid, hxy⟩ := (hlists hof' _).mp hmem
  obtain rfl := List.inj_on_of_nodup_map hkeys hb ha hid
  exact honly n' ⟨hn', hof'.connected hxy⟩

omit [Hashing] [UnicodeData] [CaseFolding] in
theorem NetsOf.listed {nets : List SchematicNet} (h : d.NetsOf nets) : d.Listed nets where
  wires hids wire hwire := h.listed_once hids hwire (h.wires wire hwire) NetOf.wires
  junctions hids junction hjunction :=
    h.listed_once hids hjunction (h.junctions junction hjunction) NetOf.junctions
  labels hids label hlabel := h.listed_once hids hlabel (h.labels label hlabel) NetOf.labels
  pins := by
    intro hrefs ref n hn n' hn' hlists hlists'
    obtain ⟨x, -, -, hof⟩ := h.components n hn
    obtain ⟨x', -, -, hof'⟩ := h.components n' hn'
    obtain ⟨position, hpin, hxy⟩ := (hof.pins ref).mp hlists
    obtain ⟨position', hpin', hxy'⟩ := (hof'.pins ref).mp hlists'
    obtain ⟨-, rfl⟩ := Prod.mk.inj (List.inj_on_of_nodup_map hrefs hpin hpin' rfl)
    exact h.pins ref position hpin n hn n' hn' (hof.connected hxy) (hof'.connected hxy')

/-- **The nets are the connected components of the items, whatever their order.** Left out are the
components of a pin that is marked as not connected, or that nothing is connected to. -/
theorem resolveNets_components (d : Drawing) (nets : List SchematicNet)
    (h : resolveNets d = .ok nets) :
    d.NetsOf nets ∧ d.Listed nets ∧ ∀ d' : Drawing, d.Reordered d' →
      KicadProject.resolveNets d' = .ok nets :=
  ⟨netsOf_resolved h, (netsOf_resolved h).listed, fun _ hsame => hsame.resolveNets h⟩

end Nets

/-! ### A drawing with a label and a marker -/

section Sample

/-- Every text is its own digest, and in normal form. -/
@[reducible] def sampleHashing : Hashing := ⟨String.ofList⟩

@[reducible] def sampleUnicode : UnicodeData := ⟨fun _ => false, fun _ => true, id⟩

@[reducible] def sampleFolding : CaseFolding := ⟨id⟩

attribute [local instance] sampleHashing sampleUnicode sampleFolding

theorem sample_ends_ne : (⟨0, 0⟩ : PointNm) ≠ ⟨10, 0⟩ := by decide

/-- A wire from a pin to a label, and a pin that is marked as not connected. -/
def sample : Drawing where
  symbols := [⟨"u1", [⟨"p1", "1", ⟨0, 0⟩⟩, ⟨"p2", "2", ⟨0, 5⟩⟩]⟩]
  wires := [⟨"w1", ⟨0, 0⟩, ⟨10, 0⟩, sample_ends_ne⟩]
  labels := [⟨"l1", "sda", ⟨10, 0⟩⟩]
  noConnects := [⟨"n1", ⟨0, 5⟩⟩]

def sampleNet : SchematicNet where
  netId := "net-sda-sda"
  name := some "sda"
  wireIds := ["w1"]
  junctionIds := []
  labelIds := ["l1"]
  pinRefs := [⟨"u1", "p1", "1"⟩]
  wiresIncrease := List.pairwise_singleton _ _
  junctionsIncrease := List.Pairwise.nil
  labelsIncrease := List.pairwise_singleton _ _
  pinsIncrease := List.pairwise_singleton _ _
  evidence := Or.inl (List.cons_ne_nil _ _)

theorem sample_resolves : KicadProject.resolveNets sample = .ok [sampleNet] := by
  decide +kernel

theorem sample_components : sample.NetsOf [sampleNet] ∧ sample.Listed [sampleNet] ∧
    ∀ d' : Drawing, sample.Reordered d' → KicadProject.resolveNets d' = .ok [sampleNet] :=
  resolveNets_components sample [sampleNet] sample_resolves

end Sample

end Drawing

end Evleda.KicadProject
