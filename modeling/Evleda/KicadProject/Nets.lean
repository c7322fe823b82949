/-
The nets of a schematic are its connected components.

Items that touch one point are joined, labels of one name are joined, and a net lists
the items of one component.  A component of one pin, marked as not connected or not,
has no net.

The disjoint sets over the points have these components as their classes.  Joining
the ends of the wires and the labels of one name only ever joins points of
connected items, and no item straddles two classes afterwards.  The least point of a
class is its root, so nothing depends on the order of the items.
-/
import Evleda.KicadProject.Schematic
import Evleda.Lib.Wiring
import Mathlib.Data.List.ReduceOption

namespace Evleda.KicadProject

open Outcome

/-! ### What is connected -/

inductive Item where
  | pin (ref : SchematicPinRef) (position : PointNm)
  | wire (wire : SchematicWire)
  | junction (junction : SchematicJunction)
  | label (label : SchematicLabel)
  | noConnect (marker : SchematicNoConnect)

namespace Drawing

variable {d d' : Drawing}

/-- The item is on the sheet, and at the point. -/
def Touches (d : Drawing) : Item → PointNm → Prop
  | .pin ref position, p => (ref, position) ∈ d.pins ∧ p = position
  | .wire wire, p => wire ∈ d.wires ∧ (p = wire.start ∨ p = wire.finish)
  | .junction junction, p => junction ∈ d.junctions ∧ p = junction.position
  | .label label, p => label ∈ d.labels ∧ p = label.position
  | .noConnect marker, p => marker ∈ d.noConnects ∧ p = marker.position

def Named (d : Drawing) : Item → String → Prop
  | .label label, n => label ∈ d.labels ∧ label.name = n
  | _, _ => False

/-- Items of one point are joined, and so are labels of one name. -/
def wiring (d : Drawing) : Wiring Item PointNm String where
  Touches := d.Touches
  Named := d.Named
  placed := by
    intro x n hx
    cases x with
    | label label => exact ⟨label.position, hx.1, rfl⟩
    | pin ref position => exact hx.elim
    | wire wire => exact hx.elim
    | junction junction => exact hx.elim
    | noConnect marker => exact hx.elim

theorem touches_pin {ref : SchematicPinRef} {position : PointNm} (h : (ref, position) ∈ d.pins) :
    d.Touches (.pin ref position) position := ⟨h, rfl⟩

theorem touches_start {wire : SchematicWire} (h : wire ∈ d.wires) :
    d.Touches (.wire wire) wire.start := ⟨h, Or.inl rfl⟩

theorem touches_finish {wire : SchematicWire} (h : wire ∈ d.wires) :
    d.Touches (.wire wire) wire.finish := ⟨h, Or.inr rfl⟩

theorem touches_junction {junction : SchematicJunction} (h : junction ∈ d.junctions) :
    d.Touches (.junction junction) junction.position := ⟨h, rfl⟩

theorem touches_label {label : SchematicLabel} (h : label ∈ d.labels) :
    d.Touches (.label label) label.position := ⟨h, rfl⟩

theorem touches_noConnect {marker : SchematicNoConnect} (h : marker ∈ d.noConnects) :
    d.Touches (.noConnect marker) marker.position := ⟨h, rfl⟩

/-- The item is on the sheet. -/
def Holds (d : Drawing) (x : Item) : Prop := ∃ p, d.Touches x p

/-! ### The classes of the points -/

theorem mem_orderedPoints {p : PointNm} : p ∈ d.orderedPoints ↔ ∃ x, d.Touches x p := by
  unfold orderedPoints
  simp only [mem_sortBy, List.mem_dedup, List.mem_append, List.mem_map]
  constructor
  · rintro (((((⟨w, hw, rfl⟩ | ⟨w, hw, rfl⟩) | ⟨j, hj, rfl⟩) | ⟨l, hl, rfl⟩) | ⟨m, hm, rfl⟩) |
      ⟨pin, hpin, rfl⟩)
    · exact ⟨.wire w, hw, Or.inl rfl⟩
    · exact ⟨.wire w, hw, Or.inr rfl⟩
    · exact ⟨.junction j, hj, rfl⟩
    · exact ⟨.label l, hl, rfl⟩
    · exact ⟨.noConnect m, hm, rfl⟩
    · exact ⟨.pin pin.1 pin.2, hpin, rfl⟩
  · rintro ⟨x, hx⟩
    cases x with
    | pin ref position =>
        obtain ⟨hpin, rfl⟩ := hx
        exact Or.inr ⟨_, hpin, rfl⟩
    | wire wire =>
        obtain ⟨hwire, rfl | rfl⟩ := hx
        · exact Or.inl (Or.inl (Or.inl (Or.inl (Or.inl ⟨wire, hwire, rfl⟩))))
        · exact Or.inl (Or.inl (Or.inl (Or.inl (Or.inr ⟨wire, hwire, rfl⟩))))
    | junction junction =>
        obtain ⟨hjunction, rfl⟩ := hx
        exact Or.inl (Or.inl (Or.inl (Or.inr ⟨junction, hjunction, rfl⟩)))
    | label label =>
        obtain ⟨hlabel, rfl⟩ := hx
        exact Or.inl (Or.inl (Or.inr ⟨label, hlabel, rfl⟩))
    | noConnect marker =>
        obtain ⟨hmarker, rfl⟩ := hx
        exact Or.inl (Or.inr ⟨marker, hmarker, rfl⟩)

/-- The numbers tell the points of the sheet apart. -/
theorem pointIndex_inj {x y : Item} {p q : PointNm} (hx : d.Touches x p) (_hy : d.Touches y q)
    (h : d.pointIndex p = d.pointIndex q) : p = q :=
  (List.idxOf_inj (mem_orderedPoints.mpr ⟨x, hx⟩)).mp h

def classOf (d : Drawing) (p : PointNm) : Nat := d.joined.root (d.pointIndex p)

/-- The numbers that are joined: those of the ends of a wire, and of two labels of one name. -/
def Pairs (d : Drawing) (done : List SchematicLabel) (i j : Nat) : Prop :=
  (∃ wire ∈ d.wires, i = d.pointIndex wire.start ∧ j = d.pointIndex wire.finish) ∨
    ∃ l ∈ done, ∃ l' ∈ done, l.name = l'.name ∧ i = d.pointIndex l.position ∧
      j = d.pointIndex l'.position

/-- The state after some labels have been joined. -/
structure LabelsJoined (d : Drawing) (done : List SchematicLabel)
    (state : Dict String PointNm × DisjointSet) : Prop where
  held : ∀ name p, state.1 name = some p → ∃ l ∈ done, l.name = name ∧ l.position = p
  first : ∀ l ∈ done, ∃ p, state.1 l.name = some p ∧
    state.2.root (d.pointIndex p) = state.2.root (d.pointIndex l.position)
  wires : ∀ wire ∈ d.wires,
    state.2.root (d.pointIndex wire.start) = state.2.root (d.pointIndex wire.finish)
  sound : ∃ r, state.2.Represents r ∧ ∀ i j, r i j → d.Pairs done i j

theorem labelsJoined_init : d.LabelsJoined [] (Dict.empty, d.joinedByWires) := by
  have hrepresents := DisjointSet.represents_init.foldl
    (fun wire : SchematicWire => d.pointIndex wire.start) (fun wire => d.pointIndex wire.finish)
    d.wires
  refine ⟨?_, ?_, ?_, _, hrepresents, ?_⟩
  · intro name p h
    cases h
  · intro l hl
    cases hl
  · intro wire hwire
    exact (hrepresents _ _).mpr (.rel _ _ (Or.inr ⟨wire, hwire, rfl, rfl⟩))
  · rintro i j (h | ⟨wire, hwire, hi, hj⟩)
    · exact h.elim
    · exact Or.inl ⟨wire, hwire, hi, hj⟩

theorem Pairs.mono {done : List SchematicLabel} {label : SchematicLabel} {i j : Nat}
    (h : d.Pairs done i j) : d.Pairs (done ++ [label]) i j := by
  obtain h | ⟨l, hl, l', hl', hsame⟩ := h
  · exact Or.inl h
  · exact Or.inr ⟨l, List.mem_append_left _ hl, l', List.mem_append_left _ hl', hsame⟩

theorem LabelsJoined.step {done : List SchematicLabel} {state : Dict String PointNm × DisjointSet}
    (h : d.LabelsJoined done state) (label : SchematicLabel) :
    d.LabelsJoined (done ++ [label]) (d.joinLabel state label) := by
  have hlast : label ∈ done ++ [label] := List.mem_append_right _ (List.mem_singleton.mpr rfl)
  obtain ⟨r, hrepresents, hr⟩ := h.sound
  unfold joinLabel
  cases hfirst : state.1 label.name with
  | some first =>
      obtain ⟨l₁, hl₁, hname, rfl⟩ := h.held _ _ hfirst
      have hkept : ∀ {i j}, state.2.root i = state.2.root j →
          (state.2.union (d.pointIndex l₁.position) (d.pointIndex label.position)).root i =
            (state.2.union (d.pointIndex l₁.position) (d.pointIndex label.position)).root j :=
        fun hij => DisjointSet.union_mono hij
      refine ⟨?_, ?_, ?_, _, hrepresents.union _ _, ?_⟩
      · intro name p hheld
        obtain ⟨l, hl, hl'⟩ := h.held name p hheld
        exact ⟨l, List.mem_append_left _ hl, hl'⟩
      · intro l hl
        obtain hl | hl := List.mem_append.mp hl
        · obtain ⟨p, hp, hsame⟩ := h.first l hl
          exact ⟨p, hp, hkept hsame⟩
        · obtain rfl := List.mem_singleton.mp hl
          exact ⟨_, hfirst, DisjointSet.union_same ..⟩
      · exact fun wire hwire => hkept (h.wires wire hwire)
      · rintro i j (hij | ⟨rfl, rfl⟩)
        · exact (hr i j hij).mono
        · exact Or.inr ⟨l₁, List.mem_append_left _ hl₁, label, hlast, hname, rfl, rfl⟩
  | none =>
      refine ⟨?_, ?_, h.wires, r, hrepresents, fun i j hij => (hr i j hij).mono⟩
      · intro name p hheld
        obtain ⟨rfl, rfl⟩ | ⟨-, hold⟩ := Dict.set_eq_some hheld
        · exact ⟨label, hlast, rfl, rfl⟩
        · obtain ⟨l, hl, hl'⟩ := h.held name p hold
          exact ⟨l, List.mem_append_left _ hl, hl'⟩
      · intro l hl
        obtain hl | hl := List.mem_append.mp hl
        · obtain ⟨p, hp, hsame⟩ := h.first l hl
          refine ⟨p, ?_, hsame⟩
          refine (Dict.set_of_ne _ _ ?_).trans hp
          intro heq
          rw [heq, hfirst] at hp
          cases hp
        · obtain rfl := List.mem_singleton.mp hl
          exact ⟨_, Dict.set_self .., rfl⟩

theorem labelsJoined_foldl (labels : List SchematicLabel) :
    d.LabelsJoined labels (labels.foldl d.joinLabel (Dict.empty, d.joinedByWires)) := by
  induction labels using List.reverseRecOn with
  | nil => exact labelsJoined_init
  | append_singleton labels label ih =>
      rw [List.foldl_append]
      exact ih.step label

theorem joined_spec : d.LabelsJoined (sortBy (·.labelId) d.labels)
    ((sortBy (·.labelId) d.labels).foldl d.joinLabel (Dict.empty, d.joinedByWires)) :=
  labelsJoined_foldl _

/-- **Two points are in one class exactly if the items at them are connected.** -/
theorem classOf_eq_iff {x y : Item} {p q : PointNm} (hx : d.Touches x p) (hy : d.Touches y q) :
    d.classOf p = d.classOf q ↔ d.wiring.Connected x y := by
  have hspec := @joined_spec d
  have hlabels : ∀ l ∈ d.labels, ∀ l' ∈ d.labels, l.name = l'.name →
      d.classOf l.position = d.classOf l'.position := by
    intro l hl l' hl' hname
    obtain ⟨p, hp, hsame⟩ := hspec.first l (mem_sortBy.mpr hl)
    obtain ⟨p', hp', hsame'⟩ := hspec.first l' (mem_sortBy.mpr hl')
    rw [hname, hp'] at hp
    obtain rfl := Option.some.inj hp
    exact hsame.symm.trans hsame'
  constructor
  · intro hclass
    obtain ⟨r, hrepresents, hr⟩ := hspec.sound
    refine Wiring.connected_of_class d.pointIndex (fun x y p q hx hy => pointIndex_inj hx hy) ?_
      ((hrepresents _ _).mp hclass) hx hy
    intro i j hij
    obtain ⟨wire, hwire, rfl, rfl⟩ | ⟨l, hl, l', hl', hname, rfl, rfl⟩ := hr i j hij
    · exact ⟨.wire wire, .wire wire, wire.start, wire.finish, touches_start hwire,
        touches_finish hwire, rfl, rfl, .refl _⟩
    · exact ⟨.label l, .label l', l.position, l'.position, touches_label (mem_sortBy.mp hl),
        touches_label (mem_sortBy.mp hl'), rfl, rfl,
        Wiring.connected_of_name (w := d.wiring) (n := l.name) ⟨mem_sortBy.mp hl, rfl⟩
          ⟨mem_sortBy.mp hl', hname.symm⟩⟩
  · intro hconnected
    refine hconnected.class_eq d.classOf ?_ ?_ hx hy
    · intro x p q hp hq
      cases x with
      | pin ref position =>
          obtain ⟨-, rfl⟩ := hp
          obtain ⟨-, rfl⟩ := hq
          rfl
      | wire wire =>
          obtain ⟨hwire, rfl | rfl⟩ := hp
          · obtain ⟨-, rfl | rfl⟩ := hq
            · rfl
            · exact hspec.wires wire hwire
          · obtain ⟨-, rfl | rfl⟩ := hq
            · exact (hspec.wires wire hwire).symm
            · rfl
      | junction junction =>
          obtain ⟨-, rfl⟩ := hp
          obtain ⟨-, rfl⟩ := hq
          rfl
      | label label =>
          obtain ⟨-, rfl⟩ := hp
          obtain ⟨-, rfl⟩ := hq
          rfl
      | noConnect marker =>
          obtain ⟨-, rfl⟩ := hp
          obtain ⟨-, rfl⟩ := hq
          rfl
    · intro x y n p q hxn hyn hp hq
      cases x with
      | label l =>
          cases y with
          | label l' =>
              obtain ⟨hl, rfl⟩ := hp
              obtain ⟨hl', rfl⟩ := hq
              exact hlabels l hl l' hl' (hxn.2.trans hyn.2.symm)
          | _ => exact hyn.elim
      | _ => exact hxn.elim

/-! ### Groups -/

/-- The points so far, each in the group of its class. -/
structure Grouped (cls : PointNm → Nat) (points : List PointNm)
    (groups : List (Nat × List PointNm)) : Prop where
  roots : (groups.map Prod.fst).Nodup
  covers : ∀ root members, (root, members) ∈ groups ↔
    members = points.filter (fun p => cls p = root) ∧ members ≠ []

theorem addPoint_fst (root : Nat) (point : PointNm) (groups : List (Nat × List PointNm)) :
    (addPoint root point groups).map Prod.fst =
      if root ∈ groups.map Prod.fst then groups.map Prod.fst else groups.map Prod.fst ++ [root] := by
  induction groups with
  | nil => rfl
  | cons group rest ih =>
      obtain ⟨root', members⟩ := group
      unfold addPoint
      by_cases heq : root' = root
      · rw [if_pos heq]
        simp [heq]
      · have hne : root ≠ root' := fun h => heq h.symm
        rw [if_neg heq, List.map_cons, ih]
        simp only [List.map_cons, List.mem_cons, hne, false_or]
        split <;> rfl

theorem mem_addPoint {root : Nat} {point : PointNm} {groups : List (Nat × List PointNm)}
    (hroots : (groups.map Prod.fst).Nodup) {root' : Nat} {members : List PointNm} :
    (root', members) ∈ addPoint root point groups ↔
      if root' = root then members = ((groups.lookup root).getD []) ++ [point]
      else (root', members) ∈ groups := by
  induction groups with
  | nil =>
      simp only [addPoint, List.mem_singleton, Prod.mk.injEq, List.lookup_nil, Option.getD_none,
        List.nil_append, List.not_mem_nil]
      split <;> simp_all
  | cons group rest ih =>
      obtain ⟨first, found⟩ := group
      rw [List.map_cons, List.nodup_cons] at hroots
      unfold addPoint
      by_cases heq : first = root
      · rw [if_pos heq, List.mem_cons, List.lookup_cons, heq, beq_self_eq_true]
        have hrest : ∀ {found}, (root, found) ∉ rest := by
          intro found hmem
          rw [heq] at hroots
          exact hroots.1 (List.mem_map.mpr ⟨_, hmem, rfl⟩)
        by_cases hroot : root' = root
        · rw [if_pos hroot, hroot]
          simp [hrest]
        · rw [if_neg hroot]
          simp [hroot]
      · have hbeq : (root == first) = false := by simpa using fun h : root = first => heq h.symm
        rw [if_neg heq, List.mem_cons, ih hroots.2, List.lookup_cons, hbeq]
        by_cases hroot : root' = root
        · have hne : root' ≠ first := by
            rintro rfl
            exact heq hroot
          rw [if_pos hroot, if_pos hroot]
          simp [hne]
        · rw [if_neg hroot, if_neg hroot, List.mem_cons]

theorem Grouped.lookup {cls : PointNm → Nat} {points : List PointNm}
    {groups : List (Nat × List PointNm)} (h : Grouped cls points groups) (root : Nat) :
    (groups.lookup root).getD [] = points.filter (fun p => cls p = root) := by
  cases hlookup : groups.lookup root with
  | some members =>
      exact ((h.covers root members).mp ((lookup_eq_some_iff_mem h.roots).mp hlookup)).1
  | none =>
      by_contra hne
      have hmem := (h.covers root _).mpr ⟨rfl, fun hnil => hne hnil.symm⟩
      rw [(lookup_eq_some_iff_mem h.roots).mpr hmem] at hlookup
      cases hlookup

theorem Grouped.step {cls : PointNm → Nat} {points : List PointNm}
    {groups : List (Nat × List PointNm)} (h : Grouped cls points groups) (point : PointNm) :
    Grouped cls (points ++ [point]) (addPoint (cls point) point groups) := by
  refine ⟨?_, ?_⟩
  · rw [addPoint_fst]
    split
    · exact h.roots
    · rename_i hnew
      rw [List.nodup_append]
      refine ⟨h.roots, List.nodup_singleton _, ?_⟩
      rintro root hroot root' hroot' rfl
      rw [List.mem_singleton] at hroot'
      rw [hroot'] at hroot
      exact hnew hroot
  · intro root members
    rw [mem_addPoint h.roots, h.lookup, List.filter_append]
    by_cases hroot : root = cls point
    · rw [if_pos hroot, hroot]
      simp only [List.filter_cons, decide_true, if_pos, List.filter_nil]
      constructor
      · rintro rfl
        exact ⟨rfl, List.append_ne_nil_of_right_ne_nil _ (List.cons_ne_nil _ _)⟩
      · exact fun hboth => hboth.1
    · have hne : cls point ≠ root := fun hsame => hroot hsame.symm
      rw [if_neg hroot, h.covers]
      simp [hne]

theorem groups_eq : d.groups = d.orderedPoints.foldl
    (fun groups point => addPoint (d.classOf point) point groups) [] := by
  unfold groups
  have hall : ∀ (points : List PointNm) (ds : DisjointSet) (groups : List (Nat × List PointNm)),
      (∀ i, ds.root i = d.joined.root i) →
      (points.foldl (fun (state : DisjointSet × List (Nat × List PointNm)) point =>
        ((state.1.find (d.pointIndex point)).2,
          addPoint (state.1.find (d.pointIndex point)).1 point state.2)) (ds, groups)).2 =
        points.foldl (fun groups point => addPoint (d.classOf point) point groups) groups := by
    intro points
    induction points with
    | nil => intro ds groups _; rfl
    | cons point rest ih =>
        intro ds groups hroots
        rw [List.foldl_cons, List.foldl_cons]
        dsimp only
        rw [ih _ _ fun i => by rw [DisjointSet.find_snd, hroots], DisjointSet.find_fst, hroots]
        rfl
  exact hall _ _ _ fun _ => rfl

theorem grouped : Grouped d.classOf d.orderedPoints d.groups := by
  rw [groups_eq]
  generalize d.orderedPoints = points
  induction points using List.reverseRecOn with
  | nil => exact ⟨List.nodup_nil, by simp⟩
  | append_singleton points point ih =>
      rw [List.foldl_append]
      exact ih.step point

/-- The points are those of the component of an item. -/
def PointsOf (d : Drawing) (x : Item) (points : List PointNm) : Prop :=
  ∀ p, p ∈ points ↔ ∃ y, d.Touches y p ∧ d.wiring.Connected x y

theorem PointsOf.mem_iff {x y : Item} {points : List PointNm} (h : d.PointsOf x points)
    {p : PointNm} (hy : d.Touches y p) : p ∈ points ↔ d.wiring.Connected x y := by
  rw [h]
  constructor
  · rintro ⟨z, hz, hconnected⟩
    exact hconnected.trans (Wiring.connected_of_place (w := d.wiring) hz hy)
  · exact fun hconnected => ⟨y, hy, hconnected⟩

theorem group_pointsOf {root : Nat} {points : List PointNm} (h : (root, points) ∈ d.groups) :
    ∃ x, d.Holds x ∧ d.PointsOf x points ∧ ∀ p, d.Touches x p → d.classOf p = root := by
  obtain ⟨rfl, hne⟩ := (grouped.covers root points).mp h
  obtain ⟨p, hp⟩ := List.exists_mem_of_ne_nil _ hne
  obtain ⟨hp, hroot⟩ := List.mem_filter.mp hp
  obtain ⟨x, hx⟩ := mem_orderedPoints.mp hp
  have hroot : d.classOf p = root := of_decide_eq_true hroot
  refine ⟨x, ⟨p, hx⟩, ?_, ?_⟩
  · intro q
    rw [List.mem_filter, mem_orderedPoints, decide_eq_true_eq, ← hroot]
    constructor
    · rintro ⟨⟨y, hy⟩, hclass⟩
      exact ⟨y, hy, (classOf_eq_iff hx hy).mp hclass.symm⟩
    · rintro ⟨y, hy, hconnected⟩
      exact ⟨⟨y, hy⟩, ((classOf_eq_iff hx hy).mpr hconnected).symm⟩
  · intro q hq
    rw [← hroot]
    exact (classOf_eq_iff hq hx).mpr (.refl x)

theorem pointsOf_group {x : Item} (hx : d.Holds x) :
    ∃ root points, (root, points) ∈ d.groups ∧ d.PointsOf x points ∧ points ≠ [] := by
  obtain ⟨p, hp⟩ := hx
  have hmem : p ∈ d.orderedPoints.filter (fun q => d.classOf q = d.classOf p) :=
    List.mem_filter.mpr ⟨mem_orderedPoints.mpr ⟨x, hp⟩, decide_eq_true rfl⟩
  have hgroup := (grouped.covers (d.classOf p) _).mpr ⟨rfl, List.ne_nil_of_mem hmem⟩
  obtain ⟨y, -, hpoints, -⟩ := group_pointsOf hgroup
  have hconnected := (hpoints.mem_iff hp).mp hmem
  refine ⟨_, _, hgroup, ?_, List.ne_nil_of_mem hmem⟩
  intro q
  rw [hpoints q]
  constructor
  · rintro ⟨z, hz, hyz⟩
    exact ⟨z, hz, hconnected.symm.trans hyz⟩
  · rintro ⟨z, hz, hxz⟩
    exact ⟨z, hz, hconnected.trans hxz⟩

/-! ### What is accepted -/

/-- What a drawing has to be like for its nets to be looked for. -/
structure Clean (d : Drawing) : Prop where
  uncrossed : d.wires.Pairwise fun first second => crosses first second = false
  junctions : (d.junctions.map (·.position)).Nodup
  splits : ∀ junction ∈ d.junctions, 2 ≤ (d.incident junction.position).length
  marked : ∀ wire ∈ d.wires, ∀ point, point = wire.start ∨ point = wire.finish →
    3 ≤ (d.incident point).length → point ∈ d.junctions.map (·.position)
  anchored : ∀ label ∈ d.labels, d.incident label.position ≠ [] ∨ d.pinsAt label.position ≠ []
  markers : (d.noConnects.map (·.position)).Nodup
  single : ∀ marker ∈ d.noConnects, (d.pinsAt marker.position).length = 1
  alone : ∀ marker ∈ d.noConnects, d.incident marker.position = [] ∧
    marker.position ∉ d.labels.map (·.position) ∧ marker.position ∉ d.junctions.map (·.position)

theorem checkMarkers_ok {seen : List PointNm} {markers : List SchematicNoConnect} :
    d.checkMarkers seen markers = .ok () ↔
      (markers.map (·.position)).Nodup ∧ (∀ marker ∈ markers, marker.position ∉ seen) ∧
      ∀ marker ∈ markers, (d.pinsAt marker.position).length = 1 ∧
        d.incident marker.position = [] ∧ marker.position ∉ d.labels.map (·.position) ∧
        marker.position ∉ d.junctions.map (·.position) := by
  induction markers generalizing seen with
  | nil => simp [checkMarkers, pure, Except.pure]
  | cons marker rest ih =>
      unfold checkMarkers
      simp only [bind_ok, require_ok, exists_unit, ih, List.map_cons, List.nodup_cons,
        List.forall_mem_cons, List.mem_append, List.mem_singleton, not_or, List.mem_map, not_exists,
        not_and]
      constructor
      · rintro ⟨hnew, hsingle, halone, hnodup, hseen, hrest⟩
        exact ⟨⟨fun other hother => (hseen other hother).2, hnodup⟩,
          ⟨hnew, fun other hother => (hseen other hother).1⟩, ⟨hsingle, halone⟩, hrest⟩
      · rintro ⟨⟨hdistinct, hnodup⟩, ⟨hnew, hseen⟩, ⟨hsingle, halone⟩, hrest⟩
        exact ⟨hnew, hsingle, halone, hnodup,
          fun other hother => ⟨hseen other hother, hdistinct other hother⟩, hrest⟩

theorem clean_iff : d.Clean ↔ d.checkCrossings = .ok () ∧ d.checkJunctions = .ok () ∧
    d.checkLabels = .ok () ∧ d.checkMarkers [] d.noConnects = .ok () := by
  unfold checkCrossings checkJunctions checkLabels
  simp only [bind_ok, require_ok, exists_unit, forM_ok, checkMarkers_ok]
  constructor
  · intro h
    refine ⟨h.uncrossed, ⟨h.junctions, h.splits, ?_⟩, h.anchored, h.markers, ?_, ?_⟩
    · intro point hpoint
      obtain hpoint | hpoint := List.mem_append.mp hpoint
      · obtain ⟨wire, hwire, rfl⟩ := List.mem_map.mp hpoint
        exact h.marked wire hwire _ (Or.inl rfl)
      · obtain ⟨wire, hwire, rfl⟩ := List.mem_map.mp hpoint
        exact h.marked wire hwire _ (Or.inr rfl)
    · exact fun marker _ => List.not_mem_nil
    · exact fun marker hmarker => ⟨h.single marker hmarker, h.alone marker hmarker⟩
  · rintro ⟨huncrossed, ⟨hjunctions, hsplits, hmarked⟩, hanchored, hmarkers, -, halone⟩
    refine ⟨huncrossed, hjunctions, hsplits, ?_, hanchored, hmarkers,
      fun marker hmarker => (halone marker hmarker).1,
      fun marker hmarker => (halone marker hmarker).2⟩
    rintro wire hwire point (rfl | rfl)
    · exact hmarked _ (List.mem_append_left _ (List.mem_map.mpr ⟨wire, hwire, rfl⟩))
    · exact hmarked _ (List.mem_append_right _ (List.mem_map.mpr ⟨wire, hwire, rfl⟩))

theorem incident_ne_nil {p : PointNm} : d.incident p ≠ [] ↔
    ∃ wire ∈ d.wires, d.Touches (.wire wire) p := by
  unfold incident
  constructor
  · intro hne
    obtain ⟨id, hid⟩ := List.exists_mem_of_ne_nil _ hne
    obtain ⟨wire, hwire, -⟩ := List.mem_map.mp (List.mem_dedup.mp hid)
    obtain ⟨hwire, hends⟩ := List.mem_filter.mp hwire
    have hends : wire.start = p ∨ wire.finish = p := of_decide_eq_true hends
    exact ⟨wire, hwire, hwire, hends.imp Eq.symm Eq.symm⟩
  · rintro ⟨wire, hwire, -, hends⟩
    refine List.ne_nil_of_mem (a := wire.wireId) (List.mem_dedup.mpr (List.mem_map.mpr
      ⟨wire, List.mem_filter.mpr ⟨hwire, decide_eq_true ?_⟩, rfl⟩))
    exact hends.imp Eq.symm Eq.symm

theorem mem_pinsAt {ref : SchematicPinRef} {p : PointNm} : ref ∈ d.pinsAt p ↔ (ref, p) ∈ d.pins := by
  unfold pinsAt
  rw [List.mem_map]
  constructor
  · rintro ⟨pin, hpin, rfl⟩
    obtain ⟨hpin, hp⟩ := List.mem_filter.mp hpin
    rw [← (of_decide_eq_true hp : pin.2 = p)]
    exact hpin
  · intro hpin
    exact ⟨_, List.mem_filter.mpr ⟨hpin, decide_eq_true rfl⟩, rfl⟩

theorem Clean.marker_alone (h : d.Clean) {marker : SchematicNoConnect} (hmarker : marker ∈ d.noConnects)
    {y : Item} {q : PointNm} (hy : d.Touches y q)
    (hconnected : d.wiring.Connected (.noConnect marker) y) : q = marker.position := by
  obtain ⟨hincident, hlabels, -⟩ := h.alone marker hmarker
  have hthing : ∀ x p q, d.Touches x p → d.Touches x q →
      (p = marker.position) = (q = marker.position) := by
    intro x p q hp hq
    cases x with
    | wire wire =>
        have hoff : ∀ r, d.Touches (.wire wire) r → r ≠ marker.position := by
          rintro r hr rfl
          exact incident_ne_nil.mpr ⟨wire, hr.1, hr⟩ hincident
        exact propext (iff_of_false (hoff p hp) (hoff q hq))
    | pin ref position => rw [hp.2, hq.2]
    | junction junction => rw [hp.2, hq.2]
    | label label => rw [hp.2, hq.2]
    | noConnect other => rw [hp.2, hq.2]
  have hname : ∀ x y n p q, d.Named x n → d.Named y n → d.Touches x p → d.Touches y q →
      (p = marker.position) = (q = marker.position) := by
    intro x y n p q hx hy hp hq
    have hoff : ∀ x n r, d.Named x n → d.Touches x r → r ≠ marker.position := by
      rintro x n r hx hr rfl
      cases x with
      | label label => exact hlabels (List.mem_map.mpr ⟨label, hr.1, hr.2.symm⟩)
      | _ => exact hx.elim
    exact propext (iff_of_false (hoff x n p hx hp) (hoff y n q hy hq))
  have hclass := hconnected.class_eq (fun p => p = marker.position) hthing hname
    (touches_noConnect hmarker) hy
  exact hclass.mp rfl

/-! ### The net of a component -/

/-- The net lists the component of the item. -/
structure NetOf (d : Drawing) (x : Item) (n : SchematicNet) : Prop where
  wires : ∀ id, id ∈ n.wireIds ↔
    ∃ wire ∈ d.wires, wire.wireId = id ∧ d.wiring.Connected x (.wire wire)
  junctions : ∀ id, id ∈ n.junctionIds ↔
    ∃ junction ∈ d.junctions, junction.junctionId = id ∧ d.wiring.Connected x (.junction junction)
  labels : ∀ id, id ∈ n.labelIds ↔
    ∃ label ∈ d.labels, label.labelId = id ∧ d.wiring.Connected x (.label label)
  pins : ∀ ref, ref ∈ n.pinRefs ↔
    ∃ position, (ref, position) ∈ d.pins ∧ d.wiring.Connected x (.pin ref position)
  name : ∀ name, n.name = some name ↔
    ∃ label ∈ d.labels, label.name = name ∧ d.wiring.Connected x (.label label)

/-- No wire and no label is connected to the item, and no two different pins are. -/
structure Isolated (d : Drawing) (x : Item) : Prop where
  wires : ∀ wire ∈ d.wires, ¬ d.wiring.Connected x (.wire wire)
  labels : ∀ label ∈ d.labels, ¬ d.wiring.Connected x (.label label)
  pins : ∀ ref position ref' position', (ref, position) ∈ d.pins → (ref', position') ∈ d.pins →
    d.wiring.Connected x (.pin ref position) → d.wiring.Connected x (.pin ref' position') → ref = ref'

/-- The component of the item is a pin that is marked as not connected, or an isolated pin. -/
def Loose (d : Drawing) (x : Item) : Prop :=
  (∃ marker ∈ d.noConnects, d.wiring.Connected x (.noConnect marker)) ∨ d.Isolated x

theorem length_eq_one_of_pins {p : PointNm} (h : (d.pinsAt p).length = 1) {ref ref' : SchematicPinRef}
    (href : (ref, p) ∈ d.pins) (href' : (ref', p) ∈ d.pins) : ref = ref' := by
  obtain ⟨only, honly⟩ := List.length_eq_one_iff.mp h
  have hall : ∀ r, (r, p) ∈ d.pins → r = only := by
    intro r hr
    have hmem := mem_pinsAt.mpr hr
    rw [honly, List.mem_singleton] at hmem
    exact hmem
  rw [hall ref href, hall ref' href']

theorem Clean.isolated_of_loose (h : d.Clean) {x : Item} (hloose : d.Loose x) : d.Isolated x := by
  obtain ⟨marker, hmarker, hconnected⟩ | hisolated := hloose
  · have hat : ∀ {y q}, d.Touches y q → d.wiring.Connected x y → q = marker.position :=
      fun hy hxy => h.marker_alone hmarker hy (hconnected.symm.trans hxy)
    obtain ⟨hincident, hlabels, -⟩ := h.alone marker hmarker
    refine ⟨?_, ?_, ?_⟩
    · intro wire hwire hxy
      have hend := touches_start hwire
      have heq := hat hend hxy
      rw [heq] at hend
      exact incident_ne_nil.mpr ⟨wire, hwire, hend⟩ hincident
    · intro label hlabel hxy
      exact hlabels (List.mem_map.mpr ⟨label, hlabel, hat (touches_label hlabel) hxy⟩)
    · intro ref position ref' position' hpin hpin' hxy hxy'
      have hp := hat (touches_pin hpin) hxy
      have hp' := hat (touches_pin hpin') hxy'
      rw [hp] at hpin
      rw [hp'] at hpin'
      exact length_eq_one_of_pins (h.single marker hmarker) hpin hpin'
  · exact hisolated

theorem Isolated.not_netOf {x : Item} (h : d.Isolated x) {n : SchematicNet} : ¬ d.NetOf x n := by
  intro hnet
  obtain hwires | hlabels | hpins := n.evidence
  · obtain ⟨id, hid⟩ := List.exists_mem_of_ne_nil _ hwires
    obtain ⟨wire, hwire, -, hxy⟩ := (hnet.wires id).mp hid
    exact h.wires wire hwire hxy
  · obtain ⟨id, hid⟩ := List.exists_mem_of_ne_nil _ hlabels
    obtain ⟨label, hlabel, -, hxy⟩ := (hnet.labels id).mp hid
    exact h.labels label hlabel hxy
  · have hincrease := n.pinsIncrease
    have hlisted := hnet.pins
    generalize n.pinRefs = refs at hpins hincrease hlisted
    match refs with
    | [] => simp at hpins
    | [_] => simp at hpins
    | first :: second :: rest =>
        obtain ⟨p, hp, hxp⟩ := (hlisted first).mp (List.mem_cons_self)
        obtain ⟨q, hq, hxq⟩ := (hlisted second).mp (List.mem_cons_of_mem _ List.mem_cons_self)
        have hless := (List.pairwise_cons.mp hincrease).1 second List.mem_cons_self
        rw [h.pins first p second q hp hq hxp hxq] at hless
        exact lt_irrefl _ hless

section Nets

variable [Hashing] [UnicodeData] [CaseFolding]

omit [Hashing] [UnicodeData] [CaseFolding] in
theorem make_ok {netId : String} {name : Option String} {wireIds junctionIds labelIds : List String}
    {pinRefs : List SchematicPinRef} {n : SchematicNet}
    (h : SchematicNet.make netId name wireIds junctionIds labelIds pinRefs = .ok n) :
    n.netId = netId ∧ n.name = name ∧ n.wireIds = wireIds ∧ n.junctionIds = junctionIds ∧
      n.labelIds = labelIds ∧ n.pinRefs = pinRefs := by
  unfold SchematicNet.make at h
  repeat' split at h
  all_goals cases h
  exact ⟨rfl, rfl, rfl, rfl, rfl, rfl⟩

/-- What is read off the points of a component is its net, or nothing if the component is loose. -/
theorem groupNet_spec {x : Item} {points : List PointNm} (hpoints : d.PointsOf x points)
    {found : Option SchematicNet} (h : d.groupNet points = .ok found) :
    (found = none → d.Loose x) ∧ ∀ n, found = some n →
      ¬ (∃ marker ∈ d.noConnects, d.wiring.Connected x (.noConnect marker)) ∧
        d.NetOf x n ∧ n.netId = netIdentity n.name n.wireIds n.junctionIds n.pinRefs := by
  have hwire : ∀ wire ∈ d.wires, (wire.start ∈ points ∨ wire.finish ∈ points) ↔
      d.wiring.Connected x (.wire wire) := by
    intro wire hwire
    rw [hpoints.mem_iff (touches_start hwire), hpoints.mem_iff (touches_finish hwire), or_self]
  have hwires : ∀ wireId, wireId ∈ sortBy id ((d.wires.filter fun wire =>
      wire.start ∈ points ∨ wire.finish ∈ points).map (·.wireId)) ↔
      ∃ wire ∈ d.wires, wire.wireId = wireId ∧ d.wiring.Connected x (.wire wire) := by
    intro wireId
    simp only [mem_sortBy, List.mem_map, List.mem_filter, decide_eq_true_eq]
    constructor
    · rintro ⟨wire, ⟨hmem, hends⟩, rfl⟩
      exact ⟨wire, hmem, rfl, (hwire wire hmem).mp hends⟩
    · rintro ⟨wire, hmem, rfl, hxy⟩
      exact ⟨wire, ⟨hmem, (hwire wire hmem).mpr hxy⟩, rfl⟩
  have hlabel : ∀ label, label ∈ sortBy (·.labelId) (d.labels.filter fun label =>
      label.position ∈ points) ↔ label ∈ d.labels ∧ d.wiring.Connected x (.label label) := by
    intro label
    rw [mem_sortBy, List.mem_filter, decide_eq_true_eq]
    exact and_congr_right fun hmem => hpoints.mem_iff (touches_label hmem)
  have hpins : ∀ ref, ref ∈ sortBy SchematicPinRef.key (points.flatMap d.pinsAt) ↔
      ∃ position, (ref, position) ∈ d.pins ∧ d.wiring.Connected x (.pin ref position) := by
    intro ref
    simp only [mem_sortBy, List.mem_flatMap, mem_pinsAt]
    constructor
    · rintro ⟨p, hp, hpin⟩
      exact ⟨p, hpin, (hpoints.mem_iff (touches_pin hpin)).mp hp⟩
    · rintro ⟨p, hpin, hxy⟩
      exact ⟨p, (hpoints.mem_iff (touches_pin hpin)).mpr hxy, hpin⟩
  have hmarker : (∃ marker ∈ d.noConnects, marker.position ∈ points) ↔
      ∃ marker ∈ d.noConnects, d.wiring.Connected x (.noConnect marker) :=
    exists_congr fun marker => and_congr_right fun hmem => hpoints.mem_iff (touches_noConnect hmem)
  unfold groupNet at h
  split at h
  · rename_i hmarked
    obtain rfl := Except.ok.inj h
    exact ⟨fun _ => Or.inl (hmarker.mp hmarked), fun n hn => by cases hn⟩
  · rename_i hunmarked
    dsimp only at h
    split at h
    · rename_i hempty
      obtain rfl := Except.ok.inj h
      refine ⟨fun _ => Or.inr ⟨?_, ?_, ?_⟩, fun n hn => by cases hn⟩
      · intro wire hmem hxy
        have hlisted := (hwires wire.wireId).mpr ⟨wire, hmem, rfl, hxy⟩
        rw [hempty.1] at hlisted
        cases hlisted
      · intro label hmem hxy
        have hlisted := (hlabel label).mpr ⟨hmem, hxy⟩
        rw [hempty.2.1] at hlisted
        cases hlisted
      · intro ref position ref' position' hpin hpin' hxy hxy'
        have hlisted := (hpins ref).mpr ⟨position, hpin, hxy⟩
        have hlisted' := (hpins ref').mpr ⟨position', hpin', hxy'⟩
        have hshort := hempty.2.2
        generalize sortBy SchematicPinRef.key (points.flatMap d.pinsAt) = refs at *
        rcases refs with _ | ⟨only, _ | ⟨second, rest⟩⟩
        · cases hlisted
        · rw [List.mem_singleton.mp hlisted, List.mem_singleton.mp hlisted']
        · rw [List.length_cons, List.length_cons] at hshort
          omega
    · simp only [bind_ok, require_ok, exists_unit, pure_ok] at h
      obtain ⟨hnames, n, hmake, rfl⟩ := h
      obtain ⟨hid, hname, hwireIds, hjunctionIds, hlabelIds, hpinRefs⟩ := make_ok hmake
      refine ⟨fun hnone => (Option.some_ne_none n hnone).elim, ?_⟩
      rintro _ ⟨rfl⟩
      refine ⟨fun hmarked => hunmarked (hmarker.mpr hmarked), ⟨?_, ?_, ?_, ?_, ?_⟩, ?_⟩
      · rw [hwireIds]
        exact hwires
      · intro id
        rw [hjunctionIds]
        simp only [mem_sortBy, List.mem_map, List.mem_filter, decide_eq_true_eq]
        constructor
        · rintro ⟨junction, ⟨hmem, hin⟩, rfl⟩
          exact ⟨junction, hmem, rfl, (hpoints.mem_iff (touches_junction hmem)).mp hin⟩
        · rintro ⟨junction, hmem, rfl, hxy⟩
          exact ⟨junction, ⟨hmem, (hpoints.mem_iff (touches_junction hmem)).mpr hxy⟩, rfl⟩
      · intro id
        rw [hlabelIds]
        simp only [List.mem_map, hlabel]
        exact exists_congr fun label => by tauto
      · rw [hpinRefs]
        exact hpins
      · intro name
        rw [hname]
        have hmem : ∀ name, name ∈ ((sortBy (·.labelId) (d.labels.filter fun label =>
            label.position ∈ points)).map (·.name)).dedup ↔
            ∃ label ∈ d.labels, label.name = name ∧ d.wiring.Connected x (.label label) := by
          intro name
          simp only [List.mem_dedup, List.mem_map, hlabel]
          exact exists_congr fun label => by tauto
        rw [← hmem]
        generalize ((sortBy (·.labelId) (d.labels.filter fun label =>
          label.position ∈ points)).map (·.name)).dedup = names at hnames
        rcases names with _ | ⟨only, _ | ⟨second, rest⟩⟩
        · simp
        · simp [eq_comm]
        · simp at hnames
      · rw [hid, hname, hwireIds, hjunctionIds, hpinRefs]

section

omit [Hashing] [UnicodeData] [CaseFolding]

theorem NetOf.same {x : Item} {n n' : SchematicNet} (h : d.NetOf x n) (h' : d.NetOf x n') :
    n.name = n'.name ∧ n.wireIds = n'.wireIds ∧ n.junctionIds = n'.junctionIds ∧
      n.labelIds = n'.labelIds ∧ n.pinRefs = n'.pinRefs := by
  have hrefs : Std.Irrefl fun a b : SchematicPinRef => a.key < b.key := ⟨fun a => lt_irrefl _⟩
  have hasymm : Std.Antisymm fun a b : SchematicPinRef => a.key < b.key :=
    ⟨fun a b hab hba => absurd hba hab.asymm⟩
  refine ⟨Option.ext fun name => ?_, ?_, ?_, ?_, ?_⟩
  · exact (h.name name).trans (h'.name name).symm
  · exact n.wiresIncrease.eq_of_mem_iff n'.wiresIncrease fun id =>
      (h.wires id).trans (h'.wires id).symm
  · exact n.junctionsIncrease.eq_of_mem_iff n'.junctionsIncrease fun id =>
      (h.junctions id).trans (h'.junctions id).symm
  · exact n.labelsIncrease.eq_of_mem_iff n'.labelsIncrease fun id =>
      (h.labels id).trans (h'.labels id).symm
  · exact n.pinsIncrease.eq_of_mem_iff n'.pinsIncrease fun ref =>
      (h.pins ref).trans (h'.pins ref).symm

theorem NetOf.connected {x y : Item} {n : SchematicNet} (h : d.NetOf x n)
    (hxy : d.wiring.Connected x y) : d.NetOf y n := by
  have hsame : ∀ z, d.wiring.Connected x z ↔ d.wiring.Connected y z :=
    fun z => ⟨fun hz => hxy.symm.trans hz, fun hz => hxy.trans hz⟩
  constructor
  · simpa only [hsame] using h.wires
  · simpa only [hsame] using h.junctions
  · simpa only [hsame] using h.labels
  · simpa only [hsame] using h.pins
  · simpa only [hsame] using h.name

/-- The nets are those of the components, but for single pins. -/
structure NetsOf (d : Drawing) (nets : List SchematicNet) : Prop where
  /-- Every net is that of a component. -/
  components : ∀ n ∈ nets, ∃ x, d.Holds x ∧ ¬ d.Loose x ∧ d.NetOf x n
  /-- Every component has one net, unless it is loose. -/
  one : ∀ x, d.Holds x → ¬ d.Loose x → ∃! n, n ∈ nets ∧ d.NetOf x n
  none : ∀ x, d.Loose x → ∀ n ∈ nets, ¬ d.NetOf x n
  /-- Items of one net are connected. -/
  separate : ∀ x y n, d.Holds x → d.Holds y → n ∈ nets → d.NetOf x n → d.NetOf y n →
    d.wiring.Connected x y
  wires : ∀ wire ∈ d.wires, ∃! n, n ∈ nets ∧ d.NetOf (.wire wire) n
  junctions : ∀ junction ∈ d.junctions, ∃! n, n ∈ nets ∧ d.NetOf (.junction junction) n
  labels : ∀ label ∈ d.labels, ∃! n, n ∈ nets ∧ d.NetOf (.label label) n
  pins : ∀ ref position, (ref, position) ∈ d.pins → ∀ n ∈ nets, ∀ n' ∈ nets,
    d.NetOf (.pin ref position) n → d.NetOf (.pin ref position) n' → n = n'
  names : ∀ n ∈ nets, ∀ n' ∈ nets, ∀ name, n.name = some name → n'.name = some name → n = n'
  identities : (nets.map (·.netId)).Nodup

theorem eq_of_read_same {α β : Type} {f : α → Except Invariant (Option β)} {parts : List α}
    {found : List (Option β)} (h : parts.mapM f = .ok found) (hnodup : found.reduceOption.Nodup)
    {a a' : α} {b : β} (ha : a ∈ parts) (ha' : a' ∈ parts) (hb : f a = .ok (some b))
    (hb' : f a' = .ok (some b)) : a = a' := by
  have hall := mapM_ok.mp h
  clear h
  induction hall with
  | nil => cases ha
  | @cons first read rest reads hread hrest ih =>
      have hfirst : ∀ a ∈ rest, f a = .ok (some b) → f first ≠ .ok (some b) := by
        intro a ha hb hb'
        rw [hread, Except.ok.injEq] at hb'
        rw [hb', List.reduceOption_cons_of_some, List.nodup_cons] at hnodup
        obtain ⟨other, hother, hvalue⟩ := mapM_image (mapM_ok.mpr hrest) ha
        rw [hb, Except.ok.injEq] at hvalue
        rw [← hvalue] at hother
        exact hnodup.1 (List.reduceOption_mem_iff.mpr hother)
      have htail : reads.reduceOption.Nodup := by
        cases read with
        | none => exact hnodup
        | some c => exact (List.nodup_cons.mp hnodup).2
      obtain rfl | ha := List.mem_cons.mp ha
      · obtain rfl | ha' := List.mem_cons.mp ha'
        · rfl
        · exact absurd hb (hfirst a' ha' hb')
      · obtain hfst | ha' := List.mem_cons.mp ha'
        · rw [hfst] at hb'
          exact absurd hb' (hfirst a ha hb)
        · exact ih htail ha ha'

end

/-- What was resolved: the nets come from the groups, and their identities are distinct. -/
theorem resolveNets_ok {nets : List SchematicNet} (h : resolveNets d = .ok nets) :
    d.Clean ∧ ∃ found, d.groups.mapM (fun group => d.groupNet group.2) = .ok found ∧
      (found.reduceOption.map (·.netId)).Nodup ∧ nets = sortBy (·.netId) found.reduceOption := by
  unfold resolveNets at h
  simp only [bind_ok, require_ok, exists_unit, pure_ok] at h
  obtain ⟨hcrossings, hjunctions, hlabels, hmarkers, found, hfound, hnodup, rfl⟩ := h
  exact ⟨clean_iff.mpr ⟨hcrossings, hjunctions, hlabels, hmarkers⟩, found, hfound, hnodup, rfl⟩

theorem netsOf_resolved {nets : List SchematicNet} (h : resolveNets d = .ok nets) :
    d.NetsOf nets := by
  obtain ⟨hclean, found, hfound, hnodup, rfl⟩ := resolveNets_ok h
  have hmem : ∀ {n}, n ∈ sortBy (·.netId) found.reduceOption ↔ some n ∈ found := by
    intro n
    rw [mem_sortBy, List.reduceOption_mem_iff]
  have hids : ((sortBy (·.netId) found.reduceOption).map (·.netId)).Nodup :=
    ((sortBy_perm _).map _).nodup_iff.mpr hnodup
  -- every net is read off the group of a component
  have hnet : ∀ {n}, n ∈ sortBy (·.netId) found.reduceOption → ∃ x root points, d.Holds x ∧
      (root, points) ∈ d.groups ∧ d.PointsOf x points ∧ d.groupNet points = .ok (some n) := by
    intro n hn
    obtain ⟨⟨root, points⟩, hgroup, hread⟩ := mapM_mem hfound (hmem.mp hn)
    obtain ⟨x, hx, hpoints, -⟩ := group_pointsOf hgroup
    exact ⟨x, root, points, hx, hgroup, hpoints, hread⟩
  have hnotLoose : ∀ {x n}, d.NetOf x n → ¬ d.Loose x :=
    fun hn hloose => (hclean.isolated_of_loose hloose).not_netOf hn
  have hexists : ∀ x, d.Holds x → ¬ d.Loose x →
      ∃ n, n ∈ sortBy (·.netId) found.reduceOption ∧ d.NetOf x n := by
    intro x hx htight
    obtain ⟨root, points, hgroup, hpoints, -⟩ := pointsOf_group hx
    obtain ⟨read, hread, hgroupNet⟩ := mapM_image hfound hgroup
    obtain ⟨hnone, hsome⟩ := groupNet_spec hpoints hgroupNet
    cases read with
    | none => exact absurd (hnone rfl) htight
    | some n => exact ⟨n, hmem.mpr hread, (hsome n rfl).2.1⟩
  have hidentity : ∀ {n}, n ∈ sortBy (·.netId) found.reduceOption →
      n.netId = netIdentity n.name n.wireIds n.junctionIds n.pinRefs := by
    intro n hn
    obtain ⟨x, root, points, -, -, hpoints, hread⟩ := hnet hn
    exact ((groupNet_spec hpoints hread).2 n rfl).2.2
  have hsame : ∀ {n n'}, n ∈ sortBy (·.netId) found.reduceOption →
      n' ∈ sortBy (·.netId) found.reduceOption → n.netId = n'.netId → n = n' :=
    fun hn hn' heq => List.inj_on_of_nodup_map hids hn hn' heq
  have hunique : ∀ {x n n'}, n ∈ sortBy (·.netId) found.reduceOption →
      n' ∈ sortBy (·.netId) found.reduceOption → d.NetOf x n → d.NetOf x n' → n = n' := by
    intro x n n' hn hn' hof hof'
    obtain ⟨hname, hwires, hjunctions, -, hpins⟩ := hof.same hof'
    refine hsame hn hn' ?_
    rw [hidentity hn, hidentity hn', hname, hwires, hjunctions, hpins]
  have hone : ∀ x, d.Holds x → ¬ d.Loose x →
      ∃! n, n ∈ sortBy (·.netId) found.reduceOption ∧ d.NetOf x n := by
    intro x hx htight
    obtain ⟨n, hn, hof⟩ := hexists x hx htight
    exact ⟨n, ⟨hn, hof⟩, fun n' hn' => hunique hn'.1 hn hn'.2 hof⟩
  have hwireTight : ∀ wire ∈ d.wires, ∀ x, d.wiring.Connected x (.wire wire) → ¬ d.Loose x :=
    fun wire hwire x hxy hloose => (hclean.isolated_of_loose hloose).wires wire hwire hxy
  refine ⟨?_, hone, ?_, ?_, ?_, ?_, ?_, ?_, ?_, hids⟩
  · intro n hn
    obtain ⟨x, root, points, hx, -, hpoints, hread⟩ := hnet hn
    have hof := ((groupNet_spec hpoints hread).2 n rfl).2.1
    exact ⟨x, hx, hnotLoose hof, hof⟩
  · exact fun x hloose n _ hof => hnotLoose hof hloose
  · intro x y n hx hy hn hof hof'
    have hread : ∀ z, d.Holds z → d.NetOf z n → ∃ root points, (root, points) ∈ d.groups ∧
        d.PointsOf z points ∧ d.groupNet points = .ok (some n) := by
      intro z hz hzn
      obtain ⟨root, points, hgroup, hpoints, -⟩ := pointsOf_group hz
      obtain ⟨read, hread, hgroupNet⟩ := mapM_image hfound hgroup
      obtain ⟨hnone, hsome⟩ := groupNet_spec hpoints hgroupNet
      cases read with
      | none => exact absurd (hnone rfl) (hnotLoose hzn)
      | some n' =>
          obtain rfl := hunique (hmem.mpr hread) hn (hsome n' rfl).2.1 hzn
          exact ⟨root, points, hgroup, hpoints, hgroupNet⟩
    obtain ⟨root, points, hgroup, hpoints, hreadx⟩ := hread x hx hof
    obtain ⟨root', points', hgroup', hpoints', hready⟩ := hread y hy hof'
    have hboth := eq_of_read_same hfound (List.Nodup.of_map _ hnodup) hgroup hgroup' hreadx hready
    obtain ⟨-, rfl⟩ := Prod.mk.inj hboth
    obtain ⟨q, hq⟩ := hy
    exact (hpoints.mem_iff hq).mp ((hpoints'.mem_iff hq).mpr (.refl y))
  · intro wire hwire
    exact hone _ ⟨_, touches_start hwire⟩ (hwireTight wire hwire _ (.refl _))
  · intro junction hjunction
    have hincident : d.incident junction.position ≠ [] := by
      intro hnil
      have hsplit := hclean.splits junction hjunction
      rw [hnil] at hsplit
      simp at hsplit
    obtain ⟨wire, hwire, hend⟩ := incident_ne_nil.mp hincident
    have htouch := touches_junction hjunction
    exact hone _ ⟨_, htouch⟩ (hwireTight wire hwire _
      (Wiring.connected_of_place (w := d.wiring) htouch hend))
  · intro label hlabel
    refine hone _ ⟨_, touches_label hlabel⟩ fun hloose => ?_
    exact (hclean.isolated_of_loose hloose).labels label hlabel (.refl _)
  · exact fun ref position _ n hn n' hn' hof hof' => hunique hn hn' hof hof'
  · intro n hn n' hn' name hname hname'
    refine hsame hn hn' ?_
    rw [hidentity hn, hidentity hn', hname, hname']
    rfl

end Nets

end Drawing

end Evleda.KicadProject
