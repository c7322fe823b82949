/-
What the wires of an accepted schematic touch.

The resolver joins what is at one point, so it is right about the drawing only where items
meet nowhere but in the ends of wires.  It refuses wires that meet and have no end in common,
labels off the ends and pins, and markers off the pins.  It does not look at pins along a
wire, and it lets two wires with a common end lie on one another.  Where neither occurs,
all contacts are in the ends of wires.
-/
import Evleda.KicadProject.Components
import Evleda.KicadProject.Segments

namespace Evleda.KicadProject

open Plane (Point segment)

/-! ### Points inside wires, and wires along wires -/

/-- The point is on the wire and is none of its ends. -/
def SchematicWire.Inside (wire : SchematicWire) (p : PointNm) : Prop :=
  p.grid.toReal ∈ wire.trace ∧ p ≠ wire.start ∧ p ≠ wire.finish

/-- The wires have a segment of positive length in common. -/
def SchematicWire.Overlaps (first second : SchematicWire) : Prop :=
  ∃ p q : Point ℝ, p ≠ q ∧ segment p q ⊆ first.trace ∩ second.trace

/-- The wire runs from one point to the other, or back. -/
def SchematicWire.Joins (wire : SchematicWire) (p q : PointNm) : Prop :=
  (wire.start = p ∧ wire.finish = q) ∨ (wire.start = q ∧ wire.finish = p)

/-- From a common end, one of the wires runs along the other. -/
def SchematicWire.RunsAlong (first second : SchematicWire) : Prop :=
  ∃ p q r, first.Joins p q ∧ second.Joins p r ∧ (onSegment p q r = true ∨ onSegment p r q = true)

variable {first second wire : SchematicWire} {p q r : PointNm}

theorem SchematicWire.Joins.trace (h : wire.Joins p q) :
    wire.trace = Plane.trace p.grid q.grid := by
  rcases h with ⟨rfl, rfl⟩ | ⟨rfl, rfl⟩
  · rfl
  · exact Plane.trace_comm _ _

theorem SchematicWire.Joins.ne (h : wire.Joins p q) : p ≠ q := by
  rcases h with ⟨rfl, rfl⟩ | ⟨rfl, rfl⟩
  · exact wire.nonzero
  · exact wire.nonzero.symm

theorem SchematicWire.exists_joins (h : p = wire.start ∨ p = wire.finish) :
    ∃ q, wire.Joins p q ∧ (q = wire.start ∨ q = wire.finish) := by
  rcases h with rfl | rfl
  · exact ⟨wire.finish, Or.inl ⟨rfl, rfl⟩, Or.inr rfl⟩
  · exact ⟨wire.start, Or.inr ⟨rfl, rfl⟩, Or.inl rfl⟩

theorem sharesEnd_iff : sharesEnd first second = true ↔
    ∃ p, (p = first.start ∨ p = first.finish) ∧ (p = second.start ∨ p = second.finish) := by
  unfold sharesEnd
  rw [decide_eq_true_iff]
  constructor
  · rintro (h | h | h | h)
    · exact ⟨_, Or.inl rfl, Or.inl h⟩
    · exact ⟨_, Or.inl rfl, Or.inr h⟩
    · exact ⟨_, Or.inr rfl, Or.inl h⟩
    · exact ⟨_, Or.inr rfl, Or.inr h⟩
  · rintro ⟨p, rfl | rfl, h | h⟩
    · exact Or.inl h
    · exact Or.inr (Or.inl h)
    · exact Or.inr (Or.inr (Or.inl h))
    · exact Or.inr (Or.inr (Or.inr h))

theorem sharesEnd_of_meet (h : crosses first second = false)
    (hmeet : (first.trace ∩ second.trace).Nonempty) :
    ∃ p, (p = first.start ∨ p = first.finish) ∧ (p = second.start ∨ p = second.finish) := by
  rw [← sharesEnd_iff]
  unfold crosses at h
  rw [segmentsIntersect_iff_trace.mpr hmeet, Bool.true_and, Bool.not_eq_false'] at h
  exact h

theorem trace_subset (h : r.grid.toReal ∈ Plane.trace p.grid q.grid) :
    segment p.grid.toReal r.grid.toReal ⊆ Plane.trace p.grid q.grid := by
  rintro x ⟨t, h0, h1, rfl⟩
  exact Plane.along_mem_segment (Plane.left_mem_trace _ _) h h0 h1

theorem SchematicWire.RunsAlong.overlaps (h : first.RunsAlong second) : first.Overlaps second := by
  obtain ⟨p, q, r, hfirst, hsecond, honto⟩ := h
  unfold SchematicWire.Overlaps
  rw [hfirst.trace, hsecond.trace]
  rcases honto with hr | hq
  · refine ⟨p.grid.toReal, r.grid.toReal, ?_, Set.subset_inter ?_ (le_refl _)⟩
    · exact fun heq => hsecond.ne (PointNm.grid_injective (Plane.Point.toReal_injective heq))
    · exact trace_subset (onSegment_iff_trace.mp hr)
  · refine ⟨p.grid.toReal, q.grid.toReal, ?_, Set.subset_inter (le_refl _) ?_⟩
    · exact fun heq => hfirst.ne (PointNm.grid_injective (Plane.Point.toReal_injective heq))
    · exact trace_subset (onSegment_iff_trace.mp hq)

/-- and among the wires that were let through no others overlap. -/
theorem SchematicWire.Overlaps.runsAlong (h : crosses first second = false)
    (hoverlap : first.Overlaps second) : first.RunsAlong second := by
  obtain ⟨x, y, hne, hsub⟩ := hoverlap
  have hx := hsub (Plane.left_mem_segment x y)
  have hy := hsub (Plane.right_mem_segment x y)
  obtain ⟨p, hfirst, hsecond⟩ := sharesEnd_of_meet h ⟨x, hx⟩
  obtain ⟨q, hq, -⟩ := SchematicWire.exists_joins hfirst
  obtain ⟨r, hr, -⟩ := SchematicWire.exists_joins hsecond
  -- one of the two common points is not the common end
  obtain ⟨z, hz, hzp⟩ : ∃ z ∈ first.trace ∩ second.trace, z ≠ p.grid.toReal := by
    by_cases hxp : x = p.grid.toReal
    · exact ⟨y, hy, fun hyp => hne (hxp.trans hyp.symm)⟩
    · exact ⟨x, hx, hxp⟩
  rw [hq.trace, hr.trace] at hz
  refine ⟨p, q, r, hq, hr, ?_⟩
  rw [onSegment_iff_trace, onSegment_iff_trace]
  rw [Plane.trace_comm] at hz
  rcases Plane.end_of_fold hz.1 hz.2 hzp with hon | hon
  · rw [Plane.trace_comm]
    exact Or.inl hon
  · exact Or.inr hon

/-! ### Contacts -/

/-- The points of the plane that an item takes up. -/
def Item.trace : Item → Set (Point ℝ)
  | .pin _ position => {position.grid.toReal}
  | .wire w => w.trace
  | .junction j => {j.position.grid.toReal}
  | .label l => {l.position.grid.toReal}
  | .noConnect marker => {marker.position.grid.toReal}

namespace Drawing

variable {d : Drawing}

/-- Items with a common point of the plane are joined, and so are labels of one name. -/
def contacts (d : Drawing) : Wiring Item (Point ℝ) String where
  Touches x p := d.Holds x ∧ p ∈ x.trace
  Named := d.Named
  placed := by
    intro x n hx
    cases x with
    | label label => exact ⟨label.position.grid.toReal, ⟨_, touches_label hx.1⟩, rfl⟩
    | pin ref position => exact hx.elim
    | wire wire => exact hx.elim
    | junction junction => exact hx.elim
    | noConnect marker => exact hx.elim

/-- There are no contacts but in the ends of wires: nothing lies inside a wire, no wires overlap,
and what is connected by its points is connected by ends. -/
structure EndsSuffice (d : Drawing) : Prop where
  pins : ∀ pin ∈ d.pins, ∀ wire ∈ d.wires, ¬ wire.Inside pin.2
  labels : ∀ label ∈ d.labels, ∀ wire ∈ d.wires, ¬ wire.Inside label.position
  ends : ∀ other ∈ d.wires, ∀ p, p = other.start ∨ p = other.finish →
    p ∉ d.junctions.map (·.position) → ∀ wire ∈ d.wires, ¬ wire.Inside p
  markers : ∀ marker ∈ d.noConnects, ∀ wire ∈ d.wires, ¬ wire.Inside marker.position
  overlaps : d.wires.Pairwise fun first second => ¬ first.Overlaps second
  connected : ∀ x y, d.contacts.Connected x y ↔ d.wiring.Connected x y

/-- No pin lies on a wire but at an end of it. -/
def PinsAtEnds (d : Drawing) : Prop :=
  ∀ pin ∈ d.pins, ∀ wire ∈ d.wires, onSegment wire.start wire.finish pin.2 = true →
    pin.2 = wire.start ∨ pin.2 = wire.finish

/-- No two wires with a common end run along one another. -/
def NoneRunsAlong (d : Drawing) : Prop :=
  d.wires.Pairwise fun first second => ¬ first.RunsAlong second

theorem not_inside_of_onSegment {wire : SchematicWire} {p : PointNm} : ¬ wire.Inside p ↔
    (onSegment wire.start wire.finish p = true → p = wire.start ∨ p = wire.finish) := by
  unfold SchematicWire.Inside SchematicWire.trace
  rw [onSegment_iff_trace]
  tauto

theorem Touches.mem_trace {x : Item} {p : PointNm} (h : d.Touches x p) :
    p.grid.toReal ∈ x.trace := by
  cases x with
  | wire wire =>
      rcases h.2 with rfl | rfl
      · exact Plane.left_mem_trace _ _
      · exact Plane.right_mem_trace _ _
  | pin ref position => exact congrArg _ (congrArg _ h.2)
  | junction junction => exact congrArg _ (congrArg _ h.2)
  | label label => exact congrArg _ (congrArg _ h.2)
  | noConnect marker => exact congrArg _ (congrArg _ h.2)

section Accepted

variable (hclean : d.Clean) (hpins : d.PinsAtEnds) (halong : d.NoneRunsAlong)

include hclean halong

theorem end_not_inside {other wire : SchematicWire} {p : PointNm} (hother : other ∈ d.wires)
    (hwire : wire ∈ d.wires) (hp : p = other.start ∨ p = other.finish) : ¬ wire.Inside p := by
  rintro ⟨hmem, hstart, hfinish⟩
  have hne : other ≠ wire := by
    rintro rfl
    exact hp.elim hstart hfinish
  have hturned : Std.Symm fun first second : SchematicWire => ¬ first.RunsAlong second :=
    ⟨fun first second h ⟨p, q, r, hq, hr, hon⟩ => h ⟨p, r, q, hr, hq, hon.symm⟩⟩
  have hturned' : Std.Symm fun first second : SchematicWire => crosses first second = false :=
    ⟨fun first second h => (crosses_comm second first).trans h⟩
  have hcrosses : crosses other wire = false := hclean.uncrossed.forall hother hwire hne
  have hon : p.grid.toReal ∈ other.trace :=
    Touches.mem_trace (d := d) (x := .wire other) ⟨hother, hp⟩
  obtain ⟨s, hs, hs'⟩ := sharesEnd_of_meet hcrosses ⟨_, hon, hmem⟩
  obtain ⟨r, hr, -⟩ := SchematicWire.exists_joins hs'
  -- the common end is the other end of the wire
  have hjoins : other.Joins s p := by
    have hsp : s ≠ p := by
      rintro rfl
      exact hs'.elim hstart hfinish
    rcases hs with rfl | rfl
    · rcases hp with rfl | rfl
      · exact absurd rfl hsp
      · exact Or.inl ⟨rfl, rfl⟩
    · rcases hp with rfl | rfl
      · exact Or.inr ⟨rfl, rfl⟩
      · exact absurd rfl hsp
  refine halong.forall hother hwire hne ⟨s, p, r, hjoins, hr, Or.inr ?_⟩
  rw [onSegment_iff_trace, ← hr.trace]
  exact hmem

include hpins

theorem not_inside {x : Item} {wire : SchematicWire} {p : PointNm} (hx : d.Touches x p)
    (hwire : wire ∈ d.wires) : ¬ wire.Inside p := by
  have hatEnd : d.incident p ≠ [] → ¬ wire.Inside p := by
    intro hincident
    obtain ⟨other, hother, -, hp⟩ := incident_ne_nil.mp hincident
    exact end_not_inside hclean halong hother hwire hp
  have hatPin : ∀ ref, ref ∈ d.pinsAt p → ¬ wire.Inside p := by
    intro ref href
    exact not_inside_of_onSegment.mpr (hpins (ref, p) (mem_pinsAt.mp href) wire hwire)
  cases x with
  | wire other => exact end_not_inside hclean halong hx.1 hwire hx.2
  | pin ref position =>
      obtain ⟨hpin, rfl⟩ := hx
      exact hatPin ref (mem_pinsAt.mpr hpin)
  | junction junction =>
      obtain ⟨hjunction, rfl⟩ := hx
      have htwo := hclean.splits junction hjunction
      exact hatEnd (List.ne_nil_of_length_pos (by omega))
  | label label =>
      obtain ⟨hlabel, rfl⟩ := hx
      rcases hclean.anchored label hlabel with hincident | hpinned
      · exact hatEnd hincident
      · obtain ⟨ref, href⟩ := List.exists_mem_of_ne_nil _ hpinned
        exact hatPin ref href
  | noConnect marker =>
      obtain ⟨hmarker, rfl⟩ := hx
      have hone : 0 < (d.pinsAt marker.position).length := by
        rw [hclean.single marker hmarker]
        exact one_pos
      obtain ⟨ref, href⟩ := List.exists_mem_of_length_pos hone
      exact hatPin ref href

/-- An item that takes up a point of a wire touches an end of the wire, or is a wire that does. -/
theorem touches_of_meet {x y : Item} {z : Point ℝ} (hx : d.Holds x) (hy : d.Holds y)
    (hzx : z ∈ x.trace) (hzy : z ∈ y.trace) : ∃ p, d.Touches x p ∧ d.Touches y p := by
  -- an item at one point, and any other item
  have hpoint : ∀ {x y : Item} {p : PointNm}, d.Touches x p → x.trace = {p.grid.toReal} →
      d.Holds y → p.grid.toReal ∈ y.trace → d.Touches y p := by
    intro x y p hp _ hy hmem
    obtain ⟨q, hq⟩ := hy
    have hsame : ∀ position : PointNm, p.grid.toReal = position.grid.toReal → p = position :=
      fun position h => PointNm.grid_injective (Plane.Point.toReal_injective h)
    cases y with
    | wire w =>
        refine ⟨hq.1, ?_⟩
        by_contra hends
        exact not_inside hclean hpins halong hp hq.1 ⟨hmem, not_or.mp hends⟩
    | pin ref position => exact ⟨hq.1, hsame _ hmem⟩
    | junction j => exact ⟨hq.1, hsame _ hmem⟩
    | label l => exact ⟨hq.1, hsame _ hmem⟩
    | noConnect m => exact ⟨hq.1, hsame _ hmem⟩
  have hsingle : ∀ {x : Item}, (∀ w, x ≠ .wire w) → d.Holds x → ∃ p, d.Touches x p ∧
      x.trace = {p.grid.toReal} := by
    rintro x hx ⟨p, hp⟩
    cases x with
    | wire w => exact absurd rfl (hx w)
    | pin ref position => exact ⟨p, hp, by rw [hp.2]; rfl⟩
    | junction j => exact ⟨p, hp, by rw [hp.2]; rfl⟩
    | label l => exact ⟨p, hp, by rw [hp.2]; rfl⟩
    | noConnect m => exact ⟨p, hp, by rw [hp.2]; rfl⟩
  by_cases hwireX : ∃ w, x = .wire w
  · by_cases hwireY : ∃ w, y = .wire w
    · obtain ⟨first, rfl⟩ := hwireX
      obtain ⟨second, rfl⟩ := hwireY
      obtain ⟨-, hfirst, -⟩ := hx
      obtain ⟨-, hsecond, -⟩ := hy
      by_cases hsame : first = second
      · subst hsame
        exact ⟨first.start, touches_start hfirst, touches_start hfirst⟩
      · have hturned : Std.Symm fun first second : SchematicWire => crosses first second = false :=
          ⟨fun first second h => (crosses_comm second first).trans h⟩
        obtain ⟨p, hp, hp'⟩ := sharesEnd_of_meet (hclean.uncrossed.forall hfirst hsecond hsame)
          ⟨z, hzx, hzy⟩
        exact ⟨p, ⟨hfirst, hp⟩, hsecond, hp'⟩
    · obtain ⟨p, hp, htrace⟩ := hsingle (fun w h => hwireY ⟨w, h⟩) hy
      rw [htrace, Set.mem_singleton_iff] at hzy
      rw [hzy] at hzx
      exact ⟨p, hpoint hp htrace hx hzx, hp⟩
  · obtain ⟨p, hp, htrace⟩ := hsingle (fun w h => hwireX ⟨w, h⟩) hx
    rw [htrace, Set.mem_singleton_iff] at hzx
    rw [hzx] at hzy
    exact ⟨p, hp, hpoint hp htrace hy hzy⟩

theorem contacts_joined_iff {x y : Item} : d.contacts.Joined x y ↔ d.wiring.Joined x y := by
  constructor
  · rintro (⟨z, hx, hy⟩ | ⟨n, hx, hy⟩)
    · obtain ⟨p, hp, hp'⟩ := touches_of_meet hclean hpins halong hx.1 hy.1 hx.2 hy.2
      exact .place p hp hp'
    · exact .name n hx hy
  · rintro (⟨p, hx, hy⟩ | ⟨n, hx, hy⟩)
    · exact .place p.grid.toReal ⟨⟨p, hx⟩, Touches.mem_trace hx⟩ ⟨⟨p, hy⟩, Touches.mem_trace hy⟩
    · exact .name n hx hy

end Accepted

section Resolved

variable [Hashing] [UnicodeData] [CaseFolding]

/-- **An accepted schematic has no contacts but in the ends of wires exactly when its pins lie at
ends and no two wires with a common end run along one another.** -/
theorem endsSuffice_iff {nets : List SchematicNet} (h : KicadProject.resolveNets d = .ok nets) :
    d.EndsSuffice ↔ d.PinsAtEnds ∧ d.NoneRunsAlong := by
  have hclean := (resolveNets_ok h).1
  constructor
  · intro hends
    refine ⟨?_, ?_⟩
    · intro pin hpin wire hwire
      exact not_inside_of_onSegment.mp (hends.pins pin hpin wire hwire)
    · exact hends.overlaps.imp fun hapart halong => hapart halong.overlaps
  · rintro ⟨hpins, halong⟩
    refine ⟨?_, ?_, ?_, ?_, ?_, ?_⟩
    · intro (ref, position) hpin wire hwire
      exact not_inside hclean hpins halong (touches_pin hpin) hwire
    · exact fun label hlabel wire hwire =>
        not_inside hclean hpins halong (touches_label hlabel) hwire
    · exact fun other hother p hp _ wire hwire => end_not_inside hclean halong hother hwire hp
    · exact fun marker hmarker wire hwire =>
        not_inside hclean hpins halong (touches_noConnect hmarker) hwire
    · exact hclean.uncrossed.imp₂ (fun _ _ hcrosses hapart hoverlap =>
        hapart (hoverlap.runsAlong hcrosses)) halong
    · intro x y
      have hjoined : d.contacts.Joined = d.wiring.Joined := by
        funext x y
        exact propext (contacts_joined_iff hclean hpins halong)
      unfold Wiring.Connected
      rw [hjoined]

end Resolved

/-! ### What is let through -/

section Sample

attribute [local instance] sampleHashing sampleUnicode sampleFolding

theorem endsSuffice_iff_sample : sample.EndsSuffice ↔ sample.PinsAtEnds ∧ sample.NoneRunsAlong :=
  endsSuffice_iff sample_resolves

/-- Two wires from one point, one along the other. -/
def overlapping : Drawing where
  wires := [⟨"w1", ⟨0, 0⟩, ⟨10, 0⟩, sample_ends_ne⟩, ⟨"w2", ⟨0, 0⟩, ⟨5, 0⟩, by decide⟩]

/-- A wire, and a pin in the middle of it. -/
def passing : Drawing where
  symbols := [⟨"u1", [⟨"p1", "1", ⟨5, 0⟩⟩]⟩]
  wires := [⟨"w1", ⟨0, 0⟩, ⟨10, 0⟩, sample_ends_ne⟩]

/-- Both drawings are accepted, and have contacts elsewhere than in the ends of wires. -/
theorem contacts_let_through :
    ((∃ nets, KicadProject.resolveNets overlapping = .ok nets) ∧ ¬ overlapping.EndsSuffice) ∧
      (∃ nets, KicadProject.resolveNets passing = .ok nets) ∧ ¬ passing.EndsSuffice := by
  refine ⟨⟨Outcome.exists_of_isSome (by decide +kernel), ?_⟩,
    Outcome.exists_of_isSome (by decide +kernel), ?_⟩
  · intro h
    have hapart := List.rel_of_pairwise_cons h.overlaps List.mem_cons_self
    refine hapart (SchematicWire.RunsAlong.overlaps ⟨⟨0, 0⟩, ⟨10, 0⟩, ⟨5, 0⟩, ?_, ?_, ?_⟩)
    · exact Or.inl ⟨rfl, rfl⟩
    · exact Or.inl ⟨rfl, rfl⟩
    · exact Or.inl (by decide)
  · intro h
    have hoff := h.pins (⟨"u1", "p1", "1"⟩, ⟨5, 0⟩) (by decide) _ List.mem_cons_self
    rw [not_inside_of_onSegment] at hoff
    exact absurd (hoff (by decide)) (by decide)

end Sample

end Drawing

end Evleda.KicadProject
