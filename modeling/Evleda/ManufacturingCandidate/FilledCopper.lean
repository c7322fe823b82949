/-
What the copper evidence of a filled board depends on.

The evidence is a matter of the zones of the board, of the filled polygons in each and
of the ring of each polygon: neither the order of the zones and of the polygons nor the
way a ring is drawn counts.  A ring is drawn from any of its vertices, either way round,
and with its first vertex once more at the end or without.  That last freedom is what the
evidence cannot bear where a vertex of a ring is followed by itself: drawn from the second
of the two the ring ends with the vertex it begins with, and is taken for a closed one.
-/
import Evleda.ManufacturingCandidate.Agreement
import Evleda.ManufacturingCandidate.VolatileUuids

namespace Evleda.ManufacturingCandidate

open KicadIo Outcome Cyclic

/-! ### Drawings of a ring -/

/-- The vertices are those of the ring drawn, from any vertex, either way round, and closed or
not. -/
def Redrawn (drawn drawn' : List Vertex) : Prop :=
  ∃ ring, Same (openRing drawn) ring ∧ (drawn' = ring ∨ drawn' = ring ++ ring.take 1)

variable {drawn : List Vertex}

/-- When a drawing is taken for a closed one. -/
theorem ends_iff :
    (1 < drawn.length ∧ drawn.head? = drawn.getLast?) ↔ ∃ a middle, drawn = a :: middle ++ [a] := by
  constructor
  · rintro ⟨hlong, hends⟩
    match drawn with
    | [] => simp at hlong
    | [_] => simp at hlong
    | a :: b :: rest =>
        have hne : b :: rest ≠ [] := by simp
        rw [List.getLast?_cons_cons, List.getLast?_eq_some_getLast hne] at hends
        refine ⟨a, (b :: rest).dropLast, ?_⟩
        have hlast : (b :: rest).getLast hne = a := (Option.some.inj hends).symm
        have hsplit := List.dropLast_append_getLast hne
        rw [hlast] at hsplit
        rw [List.cons_append, hsplit]
  · rintro ⟨a, middle, rfl⟩
    have hlast : (a :: middle ++ [a]).getLast? = some a := List.getLast?_concat
    exact ⟨by simp, by rw [hlast]; rfl⟩

/-- A drawing that begins and ends with one vertex is taken for a closed one. -/
theorem openRing_ends (a : Vertex) (middle : List Vertex) :
    openRing (a :: middle ++ [a]) = a :: middle := by
  unfold openRing
  rw [if_pos (ends_iff.mpr ⟨a, middle, rfl⟩), List.dropLast_concat]

theorem openRing_closed (ring : List Vertex) : openRing (ring ++ ring.take 1) = ring := by
  cases ring with
  | nil => rfl
  | cons a rest => exact openRing_ends a rest

theorem openRing_of_not_repeats {ring : List Vertex} (h : ¬ Repeats ring) :
    openRing ring = ring := by
  unfold openRing
  rw [if_neg]
  intro hends
  obtain ⟨a, middle, rfl⟩ := ends_iff.mp hends
  exact h (repeats_of_ends middle)

/-- A drawing has no vertices but those of the ring. -/
theorem Redrawn.mem {drawn drawn' : List Vertex} (h : Redrawn drawn drawn') {v : Vertex}
    (hv : v ∈ drawn') : v ∈ drawn := by
  obtain ⟨ring, hsame, hdrawn⟩ := h
  have hring : v ∈ ring := by
    rcases hdrawn with rfl | rfl
    · exact hv
    · rcases List.mem_append.mp hv with hin | hin
      · exact hin
      · exact List.mem_of_mem_take hin
  have hopen := hsame.perm.mem_iff.mpr hring
  unfold openRing at hopen
  split at hopen
  · exact List.mem_of_mem_dropLast hopen
  · exact hopen

/-- **A ring without repetitions is read from every drawing.** -/
theorem normalizeRing_redrawn {drawn drawn' : List Vertex} (hring : ¬ Repeats (openRing drawn))
    (h : Redrawn drawn drawn') : normalizeRing drawn' = normalizeRing drawn := by
  obtain ⟨ring, hsame, hdrawn⟩ := h
  have hopen : openRing drawn' = ring := by
    rcases hdrawn with rfl | rfl
    · exact openRing_of_not_repeats (fun hrepeats => hring (hrepeats.of_same hsame))
    · exact openRing_closed ring
  unfold normalizeRing
  simp only [hopen, hsame.length_eq, least_eq_iff.mpr hsame]

/-- A ring with a repetition has a drawing that is read with one vertex less. -/
theorem exists_shorter (hring : Repeats (openRing drawn)) :
    ∃ drawn', Redrawn drawn drawn' ∧
      (openRing drawn').length + 1 = (openRing drawn).length := by
  obtain ⟨a, middle, hrotated⟩ := hring.exists_ends
  refine ⟨a :: middle ++ [a], ⟨_, Or.inl hrotated, Or.inl rfl⟩, ?_⟩
  rw [openRing_ends, hrotated.perm.length_eq, List.length_append, List.length_singleton]

/-! ### Boards drawn anew -/

/-- An expression with its children of one name in another order and some of them changed. -/
structure Reordered (name : String) (change : SExpr → SExpr → Prop) (e e' : SExpr) : Prop where
  lists : ∃ first items items', e = .list (first :: items) ∧ e' = .list (first :: items')
  others : (children e).filter (fun item => item.head != some name) =
    (children e').filter (fun item => item.head != some name)
  named : Rearranged (fun item item' => item = item' ∨ change item item')
    (childrenNamed e name) (childrenNamed e' name)

section Boards

variable [DecimalDigits]

/-- A polygon with its ring drawn anew. -/
def RedrawnPolygon (polygon polygon' : SExpr) : Prop :=
  ∃ first before head points points' after drawn drawn',
    polygon = .list (first :: (before ++ .list (.atom head :: points) :: after)) ∧
      polygon' = .list (first :: (before ++ .list (.atom head :: points') :: after)) ∧
      head.value = "pts" ∧ (∀ item ∈ before, item.head ≠ some "pts") ∧
      points.mapM polygonPoint = .ok drawn ∧ points'.mapM polygonPoint = .ok drawn' ∧
      Redrawn drawn drawn'

/-- A board with its zones and their filled polygons in another order, and rings drawn anew. -/
def RedrawnBoard : SExpr → SExpr → Prop :=
  Reordered "zone" (Reordered "filled_polygon" RedrawnPolygon)

/-- A filled polygon of a zone, with the vertices it is drawn with. -/
def DrawnIn (root zone polygon : SExpr) (drawn : List Vertex) : Prop :=
  zone ∈ zonesOf root ∧ polygon ∈ childrenNamed zone "filled_polygon" ∧
    ∃ points, child polygon "pts" = some points ∧ (children points).mapM polygonPoint = .ok drawn

/-- No vertex of a filled polygon is followed by itself. -/
def RingsDistinct (root : SExpr) : Prop :=
  ∀ zone polygon drawn, DrawnIn root zone polygon drawn → ¬ Repeats (openRing drawn)

end Boards

/-! ### What is read of a reordered expression -/

variable {before after : List SExpr}

section Reordered

variable {name name' : String} {change : SExpr → SExpr → Prop} {e e' : SExpr}

theorem Reordered.child_eq (h : Reordered name change e e') (hname : name' ≠ name) :
    child e name' = child e' name' := by
  have hfind : ∀ e, child e name' =
      ((children e).filter (fun item => item.head != some name)).find?
        (fun item => item.head == some name') := by
    intro e
    unfold child
    rw [List.find?_filter]
    congr 1
    funext item
    by_cases hitem : item.head = some name'
    · simp [hitem, hname]
    · simp [hitem]
  rw [hfind, hfind, h.others]

theorem Reordered.scalarChild_eq (h : Reordered name change e e') (hname : name' ≠ name) :
    scalarChild e name' = scalarChild e' name' := by
  unfold scalarChild
  rw [h.child_eq hname]

theorem head_list (first : SExpr) (items items' : List SExpr) :
    (SExpr.list (first :: items)).head = (SExpr.list (first :: items')).head := by
  cases first <;> rfl

theorem Reordered.head_eq (h : Reordered name change e e') : e.head = e'.head := by
  obtain ⟨first, items, items', rfl, rfl⟩ := h.lists
  exact head_list first items items'

theorem Reordered.all_iff (h : Reordered name change e e') (hname : name' ≠ name) :
    (children e).all (fun item => item.head != some name') =
      (children e').all (fun item => item.head != some name') := by
  have hall : ∀ e, (children e).all (fun item => item.head != some name') =
      ((children e).filter (fun item => item.head != some name)).all
        (fun item => item.head != some name') := by
    intro e
    rw [List.all_filter]
    congr 1
    funext item
    by_cases hitem : item.head = some name'
    · simp [hitem, hname]
    · simp [hitem]
  rw [hall, hall, h.others]

theorem childrenNamed_split {first item : SExpr}
    (hitem : item.head = some name) :
    childrenNamed (.list (first :: (before ++ item :: after))) name =
      before.filter (fun item => item.head == some name) ++
        item :: after.filter (fun item => item.head == some name) := by
  show (before ++ item :: after).filter _ = _
  simp [List.filter_append, hitem]

theorem sum_split {first item item' : SExpr} {count : SExpr → Nat}
    (hitem : item.head = some name) (hitem' : item'.head = some name)
    (hcount : count item' + 1 = count item) :
    ((childrenNamed (.list (first :: (before ++ item' :: after))) name).map count).sum + 1 =
      ((childrenNamed (.list (first :: (before ++ item :: after))) name).map count).sum := by
  rw [childrenNamed_split hitem, childrenNamed_split hitem']
  simp only [List.map_append, List.map_cons, List.sum_append, List.sum_cons]
  omega

/-- An expression with one child of the name changed. -/
theorem reordered_one {first item item' : SExpr} {before after : List SExpr}
    (hitem : item.head = some name) (hitem' : item'.head = some name) (hchange : change item item') :
    Reordered name change (.list (first :: (before ++ item :: after)))
      (.list (first :: (before ++ item' :: after))) where
  lists := ⟨first, _, _, rfl, rfl⟩
  others := by
    show (before ++ item :: after).filter _ = (before ++ item' :: after).filter _
    simp [List.filter_append, hitem, hitem']
  named := by
    rw [childrenNamed_split hitem, childrenNamed_split hitem']
    refine ⟨_, List.Perm.refl _, List.rel_append ?_ (.cons (Or.inr hchange) ?_)⟩
    · exact List.forall₂_same.mpr fun _ _ => Or.inl rfl
    · exact List.forall₂_same.mpr fun _ _ => Or.inl rfl

theorem exists_split {e item : SExpr} (h : item ∈ children e) :
    ∃ first before after, e = .list (first :: (before ++ item :: after)) := by
  cases e with
  | atom a => cases h
  | quoted value => cases h
  | list items =>
      cases items with
      | nil => cases h
      | cons first rest =>
          obtain ⟨before, after, hsplit⟩ := List.append_of_mem h
          exact ⟨first, before, after, by rw [← hsplit]; rfl⟩

end Reordered

section Polygons

variable {polygon polygon' zone zone' root root' : SExpr} {uuid net layer : String}

theorem child_pts {first item : SExpr}
    (hbefore : ∀ item ∈ before, item.head ≠ some "pts") (hitem : item.head = some "pts") :
    child (.list (first :: (before ++ item :: after))) "pts" = some item := by
  have hnone : before.find? (fun item => item.head == some "pts") = none := by
    rw [List.find?_eq_none]
    intro item hmem
    simpa using hbefore item hmem
  show (before ++ item :: after).find? _ = some item
  rw [List.find?_append, hnone, Option.none_or, List.find?_cons_of_pos (by simp [hitem])]

theorem child_other {first item item' : SExpr} {name : String}
    (hname : name ≠ "pts") (hitem : item.head = some "pts") (hitem' : item'.head = some "pts") :
    child (.list (first :: (before ++ item :: after))) name =
      child (.list (first :: (before ++ item' :: after))) name := by
  show (before ++ item :: after).find? _ = (before ++ item' :: after).find? _
  have hskip : ∀ item : SExpr, item.head = some "pts" →
      (item :: after).find? (fun item => item.head == some name) =
        after.find? (fun item => item.head == some name) := by
    intro item hitem
    refine List.find?_cons_of_neg ?_
    rw [hitem, beq_iff_eq, Option.some.injEq]
    exact hname.symm
  rw [List.find?_append, List.find?_append, hskip item hitem, hskip item' hitem']

variable [DecimalDigits]

theorem RedrawnPolygon.read (h : RedrawnPolygon polygon polygon') :
    (∀ name, name ≠ "pts" → child polygon' name = child polygon name) ∧
      ∃ points points' drawn drawn', child polygon "pts" = some points ∧
        child polygon' "pts" = some points' ∧ (children points).mapM polygonPoint = .ok drawn ∧
        (children points').mapM polygonPoint = .ok drawn' ∧ Redrawn drawn drawn' := by
  obtain ⟨first, before, head, points, points', after, drawn, drawn', rfl, rfl, hhead, hbefore,
    hdrawn, hdrawn', hredrawn⟩ := h
  have hpts : ∀ points : List SExpr, (SExpr.list (.atom head :: points)).head = some "pts" := by
    intro points
    rw [SExpr.head, hhead]
  refine ⟨fun name hname => child_other hname (hpts _) (hpts _), _, _, drawn, drawn',
    child_pts hbefore (hpts points), child_pts hbefore (hpts points'), hdrawn, hdrawn', hredrawn⟩

variable [Hashing]

/-- **A polygon without repetitions is read from every drawing.** -/
theorem filledPolygon_redrawn (h : RedrawnPolygon polygon polygon')
    (hring : ∀ points drawn, child polygon "pts" = some points →
      (children points).mapM polygonPoint = .ok drawn → ¬ Repeats (openRing drawn)) :
    filledPolygon uuid net layer polygon' = filledPolygon uuid net layer polygon := by
  obtain ⟨hother, points, points', drawn, drawn', hpoints, hpoints', hdrawn, hdrawn', hredrawn⟩ :=
    h.read
  have hvertices : polygonPoints polygon' = polygonPoints polygon := by
    unfold polygonPoints
    simp only [hpoints, hpoints', hdrawn, hdrawn']
    exact normalizeRing_redrawn (hring points drawn hpoints hdrawn) hredrawn
  unfold filledPolygon
  rw [hvertices, hother "island" (by decide), scalarChild, hother "layer" (by decide), ← scalarChild]

/-- Zones are read alike up to the order of their polygons. -/
theorem zonePolygons_reordered {polygons : List FilledPolygonEvidence}
    (h : Reordered "filled_polygon" RedrawnPolygon zone zone')
    (hrings : ∀ polygon ∈ childrenNamed zone "filled_polygon", ∀ points drawn,
      child polygon "pts" = some points → (children points).mapM polygonPoint = .ok drawn →
        ¬ Repeats (openRing drawn))
    (hread : zonePolygons zone = .ok polygons) :
    ∃ polygons', zonePolygons zone' = .ok polygons' ∧ polygons.Perm polygons' := by
  unfold zonePolygons at hread ⊢
  rw [← h.scalarChild_eq (by decide), ← h.scalarChild_eq (by decide), ← h.scalarChild_eq (by decide),
    ← h.all_iff (by decide)]
  simp only [bind_ok] at hread ⊢
  obtain ⟨zoneUuid, huuid, netName, hnet, zoneLayer, hlayer, hread⟩ := hread
  split at hread
  · rename_i uuid net layer
    simp only [bind_ok, require_ok, exists_const] at hread
    obtain ⟨hvalid, hsegments, hsome, hread⟩ := hread
    obtain ⟨polygons', hread', hmoved⟩ := h.named.mapM (S := Eq)
      (g := filledPolygon uuid net layer) (by
        rintro polygon hpolygon polygon' - (rfl | hredrawn) evidence hevidence
        · exact ⟨evidence, hevidence, rfl⟩
        · rw [filledPolygon_redrawn hredrawn (hrings polygon hpolygon)]
          exact ⟨evidence, hevidence, rfl⟩) hread
    refine ⟨polygons', ⟨_, huuid, _, hnet, _, hlayer, ?_⟩, hmoved.perm⟩
    simp only [bind_ok, require_ok, exists_const]
    refine ⟨hvalid, hsegments, ?_, hread'⟩
    have hlength := h.named.length_eq
    intro hnone
    rw [childrenNamed, childrenNamed, hnone, List.length_nil] at hlength
    exact hsome (List.length_eq_zero_iff.mp hlength)
  · cases hread

/-- **The copper of a board without repetitions is the same from every drawing.** -/
theorem filledPolygons_redrawn {found : Nat × List FilledPolygonEvidence}
    (h : RedrawnBoard root root') (hrings : RingsDistinct root)
    (hread : filledPolygons root = .ok found) : filledPolygons root' = .ok found := by
  unfold filledPolygons at hread ⊢
  simp only [bind_ok, require_ok, exists_const, pure_ok] at hread ⊢
  obtain ⟨hhead, polygons, hread, rfl⟩ := hread
  obtain ⟨polygons', hread', hmoved⟩ := h.named.mapM (S := List.Perm) (g := zonePolygons) (by
    rintro zone hzone zone' - (rfl | hreordered) polygons hpolygons
    · exact ⟨polygons, hpolygons, List.Perm.refl _⟩
    · refine zonePolygons_reordered hreordered ?_ hpolygons
      intro polygon hpolygon points drawn hpoints hdrawn
      exact hrings zone polygon drawn ⟨hzone, hpolygon, points, hpoints, hdrawn⟩) hread
  refine ⟨h.head_eq ▸ hhead, polygons', hread', ?_⟩
  have hcount : (zonesOf root').length = (zonesOf root).length := h.named.length_eq.symm
  have hflat : polygons'.flatten.Perm polygons.flatten := by
    rw [← List.flatMap_id, ← List.flatMap_id]
    exact (hmoved.flatMap_perm fun _ _ => id).symm
  rw [hcount, sortBy_eq_of_injective FilledPolygonEvidence.key_injective hflat]

/-! ### Every polygon once -/

/-- The evidence of a filled polygon of a zone. -/
structure ReadAs (zone polygon : SExpr) (evidence : FilledPolygonEvidence) : Prop where
  uuid : scalarChild zone "uuid" = .ok (some evidence.zoneUuid)
  net : scalarChild zone "net" = .ok (some evidence.netName)
  zoneLayer : scalarChild zone "layer" = .ok (some evidence.zoneLayer)
  fillLayer : scalarChild polygon "layer" = .ok (some evidence.fillLayer)
  island : evidence.island = (child polygon "island").isSome
  vertices : ∃ points drawn, child polygon "pts" = some points ∧
    (children points).mapM polygonPoint = .ok drawn ∧
      evidence.verticesNm = least (openRing drawn)
  area : evidence.area2Nm2 = area2 evidence.verticesNm
  digest : evidence.geometrySha256 =
    Hashing.inDomain "kicad-filled-copper-polygon-v1" (Json.object evidence.payload)

/-- The filled polygons of the zones of a board, each with its zone. -/
def polygonsOf (root : SExpr) : List (SExpr × SExpr) :=
  (zonesOf root).flatMap fun zone =>
    (childrenNamed zone "filled_polygon").map fun polygon => (zone, polygon)

theorem filledPolygon_readAs {evidence : FilledPolygonEvidence}
    (huuid : scalarChild zone "uuid" = .ok (some uuid))
    (hnet : scalarChild zone "net" = .ok (some net))
    (hlayer : scalarChild zone "layer" = .ok (some layer))
    (h : filledPolygon uuid net layer polygon = .ok evidence) : ReadAs zone polygon evidence := by
  unfold filledPolygon at h
  simp only [bind_ok, require_ok, exists_const] at h
  obtain ⟨fillLayer, hfill, rfl, vertices, hvertices, -, hmade⟩ := h
  unfold FilledPolygonEvidence.make at hmade
  simp only [bind_ok, require_ok, exists_const] at hmade
  obtain ⟨-, -, -, -, -, -, -, hmade⟩ := hmade
  split at hmade
  · split at hmade
    · simp only [bind_ok, require_ok, exists_const, pure_ok] at hmade
      obtain ⟨-, rfl⟩ := hmade
      unfold polygonPoints at hvertices
      split at hvertices
      · cases hvertices
      · rename_i points hpoints
        simp only [bind_ok, normalizeRing, require_ok, exists_const, pure_ok] at hvertices
        obtain ⟨drawn, hdrawn, -, rfl⟩ := hvertices
        exact ⟨huuid, hnet, hlayer, hfill, rfl, ⟨points, drawn, hpoints, hdrawn, rfl⟩, rfl, rfl⟩
    · cases hmade
  · cases hmade

theorem zonePolygons_readAs {polygons : List FilledPolygonEvidence}
    (h : zonePolygons zone = .ok polygons) :
    List.Forall₂ (ReadAs zone) (childrenNamed zone "filled_polygon") polygons := by
  unfold zonePolygons at h
  simp only [bind_ok] at h
  obtain ⟨zoneUuid, huuid, netName, hnet, zoneLayer, hlayer, h⟩ := h
  split at h
  · rename_i uuid net layer
    simp only [bind_ok, require_ok, exists_const] at h
    obtain ⟨-, -, -, h⟩ := h
    exact (mapM_ok.mp h).imp fun _ _ => filledPolygon_readAs huuid hnet hlayer
  · cases h

/-- **Every filled polygon of every zone is read once.** -/
theorem filledPolygons_readAs {found : Nat × List FilledPolygonEvidence}
    (h : filledPolygons root = .ok found) :
    found.1 = (zonesOf root).length ∧ ∃ read, List.Forall₂
      (fun entry evidence => ReadAs entry.1 entry.2 evidence) (polygonsOf root) read ∧
        found.2.Perm read := by
  unfold filledPolygons at h
  simp only [bind_ok, require_ok, exists_const, pure_ok] at h
  obtain ⟨-, polygons, hread, rfl⟩ := h
  refine ⟨rfl, polygons.flatten, ?_, sortBy_perm _⟩
  unfold polygonsOf
  generalize zonesOf root = zones at hread
  have hzones := mapM_ok.mp hread
  clear hread
  induction hzones with
  | nil => exact .nil
  | @cons zone found zones rest hzone _ ih =>
      rw [List.flatMap_cons, List.flatten_cons]
      refine List.rel_append ?_ ih
      rw [List.forall₂_map_left_iff]
      exact zonePolygons_readAs hzone

/-- The number of the vertices of a polygon. -/
def ringLength (polygon : SExpr) : Nat :=
  match child polygon "pts" with
  | some points => (((children points).mapM polygonPoint).toOption.map fun drawn =>
      (openRing drawn).length).getD 0
  | none => 0

theorem vertexCount_eq {found : Nat × List FilledPolygonEvidence}
    (h : filledPolygons root = .ok found) :
    (found.2.map (·.verticesNm.length)).sum =
      ((polygonsOf root).map fun entry => ringLength entry.2).sum := by
  obtain ⟨-, read, hread, hperm⟩ := filledPolygons_readAs h
  have hlengths : (polygonsOf root).map (fun entry => ringLength entry.2) =
      read.map (·.verticesNm.length) := by
    rw [← List.forall₂_eq_eq_eq, List.forall₂_map_left_iff, List.forall₂_map_right_iff]
    refine hread.imp ?_
    intro entry evidence hentry
    obtain ⟨points, drawn, hpoints, hdrawn, hvertices⟩ := hentry.vertices
    have hsome : openRing drawn ≠ [] := by
      intro hempty
      have hthree := evidence.three
      rw [hvertices, hempty, least_nil] at hthree
      simp at hthree
    rw [ringLength, hpoints, hvertices]
    simp only [hdrawn, Except.toOption, Option.map_some, Option.getD_some]
    exact (least_spec hsome).1.length_eq
  rw [hlengths]
  exact (hperm.map _).sum_eq

/-! ### One ring drawn anew -/

section

omit [Hashing]

/-- Vertices that were read can be written in any order. -/
theorem exists_points {points : List SExpr} {drawn drawn' : List Vertex}
    (hdrawn : points.mapM polygonPoint = .ok drawn) (hmem : ∀ v ∈ drawn', v ∈ drawn) :
    ∃ points' : List SExpr, points'.mapM polygonPoint = .ok drawn' := by
  induction drawn' with
  | nil => exact ⟨[], rfl⟩
  | cons v rest ih =>
      obtain ⟨item, -, hitem⟩ := mapM_mem hdrawn (hmem v List.mem_cons_self)
      obtain ⟨points', hpoints'⟩ := ih fun v hv => hmem v (List.mem_cons_of_mem _ hv)
      exact ⟨item :: points', mapM_ok.mpr (.cons hitem (mapM_ok.mp hpoints'))⟩

theorem sum_polygonsOf (root : SExpr) : ((polygonsOf root).map fun entry => ringLength entry.2).sum =
    ((childrenNamed root "zone").map fun zone =>
      ((childrenNamed zone "filled_polygon").map ringLength).sum).sum := by
  show _ = ((zonesOf root).map _).sum
  unfold polygonsOf
  induction zonesOf root with
  | nil => rfl
  | cons zone rest ih =>
      rw [List.flatMap_cons, List.map_append, List.sum_append, ih, List.map_map, List.map_cons,
        List.sum_cons]
      rfl

theorem exists_redrawnPolygon {points : SExpr}
    (hpoints : child polygon "pts" = some points)
    (hdrawn : (children points).mapM polygonPoint = .ok drawn) (hring : Repeats (openRing drawn)) :
    ∃ polygon', RedrawnPolygon polygon polygon' ∧ polygon.head = polygon'.head ∧
      ringLength polygon' + 1 = ringLength polygon := by
  obtain ⟨drawn', hredrawn, hshorter⟩ := exists_shorter hring
  obtain ⟨points', hdrawn'⟩ := exists_points hdrawn fun v => hredrawn.mem
  obtain ⟨hpts, before, after, hsplit, hbefore⟩ := List.find?_eq_some_iff_append.mp hpoints
  rw [beq_iff_eq] at hpts
  match polygon, points, hpts with
  | .list (first :: items), .list (.atom head :: nodes), hpts =>
      have hitems : items = before ++ .list (.atom head :: nodes) :: after := hsplit
      subst hitems
      have hplain : ∀ item ∈ before, item.head ≠ some "pts" := by
        intro item hitem
        simpa using hbefore item hitem
      refine ⟨.list (first :: (before ++ .list (.atom head :: points') :: after)),
        ⟨first, before, head, nodes, points', after, drawn, drawn', rfl, rfl,
          Option.some.inj hpts, hplain, hdrawn, hdrawn', hredrawn⟩, head_list _ _ _, ?_⟩
      have hhead : (SExpr.list (.atom head :: points')).head = some "pts" := hpts
      have hnodes' : (children (.list (.atom head :: points'))).mapM polygonPoint = .ok drawn' :=
        hdrawn'
      rw [ringLength, ringLength, child_pts hplain hpts, child_pts hplain hhead]
      simp only [hdrawn, hnodes', Except.toOption, Option.map_some, Option.getD_some]
      exact hshorter
  | .list [], _, _ => cases hpoints

theorem exists_redrawn (h : DrawnIn root zone polygon drawn)
    (hring : Repeats (openRing drawn)) : ∃ root', RedrawnBoard root root' ∧
      ((polygonsOf root').map fun entry => ringLength entry.2).sum + 1 =
        ((polygonsOf root).map fun entry => ringLength entry.2).sum := by
  obtain ⟨hzone, hpolygon, points, hpoints, hdrawn⟩ := h
  obtain ⟨polygon', hredrawn, hhead, hcount⟩ := exists_redrawnPolygon hpoints hdrawn hring
  obtain ⟨hchildren, hfilled⟩ := List.mem_filter.mp hpolygon
  obtain ⟨hroot, hzoneHead⟩ := List.mem_filter.mp hzone
  rw [beq_iff_eq] at hfilled hzoneHead
  have hfilled' : polygon'.head = some "filled_polygon" := hhead ▸ hfilled
  obtain ⟨zoneFirst, zoneBefore, zoneAfter, rfl⟩ := exists_split hchildren
  obtain ⟨rootFirst, rootBefore, rootAfter, rfl⟩ := exists_split hroot
  have hzoneHead' : (SExpr.list (zoneFirst :: (zoneBefore ++ polygon' :: zoneAfter))).head =
      some "zone" := (head_list _ _ _).trans hzoneHead
  refine ⟨_, reordered_one hzoneHead hzoneHead' (reordered_one hfilled hfilled' hredrawn), ?_⟩
  rw [sum_polygonsOf, sum_polygonsOf]
  exact sum_split hzoneHead hzoneHead' (sum_split hfilled hfilled' hcount)

end

end Polygons

/-! ### The evidence of a board -/

section Evidence

variable [Hashing] [DecimalDigits] {payload : ByteArray} {root : SExpr}
  {evidence : FilledBoardSemanticEvidence}

def FilledBoardSemanticEvidence.copper (evidence : FilledBoardSemanticEvidence) : FilledCopper where
  zoneCount := evidence.zoneCount
  filledPolygonCount := evidence.filledPolygonCount
  filledVertexCount := evidence.filledVertexCount
  filledArea2Nm2 := evidence.filledArea2Nm2
  filledCopperGeometrySha256 := evidence.filledCopperGeometrySha256
  filledPolygons := evidence.filledPolygons

def filledCopper (root : SExpr) : Except Failure FilledCopper :=
  (filledPolygons root).map fun found => copperOf found.1 found.2

/-- The evidence holds every filled polygon of every zone once, with its ring. -/
structure CountedOnce (root : SExpr) (evidence : FilledBoardSemanticEvidence) : Prop where
  zones : evidence.zoneCount = (zonesOf root).length
  polygons : ∃ read, List.Forall₂ (fun entry polygon => ReadAs entry.1 entry.2 polygon)
    (polygonsOf root) read ∧ evidence.filledPolygons.Perm read
  polygonCount : evidence.filledPolygonCount = (polygonsOf root).length
  vertexCount : evidence.filledVertexCount =
    ((polygonsOf root).map fun entry => ringLength entry.2).sum
  area : evidence.filledArea2Nm2 = (evidence.filledPolygons.map (·.area2Nm2)).sum

theorem analyzed_copper (hroot : parse defaultLimits payload = .ok root)
    (h : analyzeFilledBoard payload = .ok evidence) :
    ∃ found, filledPolygons root = .ok found ∧ evidence.copper = copperOf found.1 found.2 := by
  unfold analyzeFilledBoard analyzeRoot at h
  simp only [bind_ok, require_ok, exists_const, hroot, Except.mapError, Except.ok.injEq,
    exists_eq_left', pure_ok, Prod.exists] at h
  obtain ⟨-, _, _, -, count, polygons, hread, -, -, -, -, rfl⟩ := h
  exact ⟨(count, polygons), hread, rfl⟩

theorem analyzed_countedOnce (hroot : parse defaultLimits payload = .ok root)
    (h : analyzeFilledBoard payload = .ok evidence) : CountedOnce root evidence := by
  obtain ⟨found, hread, hcopper⟩ := analyzed_copper hroot h
  obtain ⟨hcount, read, hall, hperm⟩ := filledPolygons_readAs hread
  have hpolygons : evidence.filledPolygons = found.2 := congrArg FilledCopper.filledPolygons hcopper
  refine ⟨(congrArg FilledCopper.zoneCount hcopper).trans hcount, ⟨read, hall, hpolygons ▸ hperm⟩,
    ?_, (congrArg FilledCopper.filledVertexCount hcopper).trans (vertexCount_eq hread), ?_⟩
  · rw [hall.length_eq, ← hperm.length_eq]
    exact congrArg FilledCopper.filledPolygonCount hcopper
  · rw [hpolygons]
    exact congrArg FilledCopper.filledArea2Nm2 hcopper

/-- **The semantic digest of a filled board erases exactly the volatile UUIDs, every filled polygon
is counted once, and the copper is the same from every drawing of the board exactly when no vertex
of a ring is followed by itself.** -/
theorem filled_board_exact_iff (hfree : Hashing.CollisionFree)
    (hroot : parse defaultLimits payload = .ok root)
    (h : analyzeFilledBoard payload = .ok evidence) :
    (∀ payload' root' evidence', parse defaultLimits payload' = .ok root' →
      analyzeFilledBoard payload' = .ok evidence' →
        (evidence.normalizedSemanticSha256 = evidence'.normalizedSemanticSha256 ↔
          erase false root = erase false root')) ∧
      CountedOnce root evidence ∧
      ((∀ root', RedrawnBoard root root' → filledCopper root' = .ok evidence.copper) ↔
        RingsDistinct root) := by
  refine ⟨fun payload' root' evidence' hroot' h' => semanticSha256_eq_iff hfree hroot hroot' h h',
    analyzed_countedOnce hroot h, ?_⟩
  obtain ⟨found, hread, hcopper⟩ := analyzed_copper hroot h
  constructor
  · intro hsame zone polygon drawn hdrawn hring
    obtain ⟨root', hredrawn, hcount⟩ := exists_redrawn hdrawn hring
    have hread' := hsame root' hredrawn
    unfold filledCopper at hread'
    cases hfound : filledPolygons root' with
    | error failure =>
        rw [hfound] at hread'
        cases hread'
    | ok found' =>
        rw [hfound, Except.map, Except.ok.injEq, hcopper] at hread'
        have hvertices := congrArg FilledCopper.filledVertexCount hread'
        simp only [copperOf, vertexCount_eq hread, vertexCount_eq hfound] at hvertices
        omega
  · intro hrings root' hredrawn
    rw [filledCopper, filledPolygons_redrawn hredrawn hrings hread, hcopper]
    rfl

end Evidence

/-! ### A board that was saved twice -/

def samplePolygon : FilledPolygonEvidence where
  zoneUuid := "00000000-0000-4000-8000-000000000001"
  netName := "GND"
  zoneLayer := "F.Cu"
  fillLayer := "F.Cu"
  island := false
  verticesNm := [toLex (0, 0), toLex (0, 1000000), toLex (1000000, 0)]
  area2Nm2 := 1000000000000
  geometrySha256 := String.ofList (List.replicate 64 'd')
  three := by decide
  positive := by decide

def datasheetFootprint : Atom := word "00000000-0000-4000-8000-000000000002"

/-- A hidden datasheet property with the UUID node. -/
def datasheetProperty (uuid : SExpr) : SExpr := node (word "property")
  [.atom (word "Datasheet"), .atom (word "~"), node (word "hide") [.atom (word "yes")], uuid]

/-- A board with a footprint, which has the property, and a zone. -/
def datasheetBoard (uuid : SExpr) : SExpr := node (word "kicad_pcb")
  [node (word "footprint") [node (word "uuid") [.atom datasheetFootprint], datasheetProperty uuid],
    sampleZone (word "GND")]

def firstUuid : Atom := word "00000000-0000-4000-8000-000000000003"

def secondUuid : Atom := word "00000000-0000-4000-8000-000000000004"

def savedBoard (uuid : Atom) : SExpr := datasheetBoard (node (word "uuid") [.atom uuid])

def datasheetPlace : String := datasheetFootprint.value ++ "/" ++ "Datasheet"

theorem walk_savedBoard {uuid : Atom} (h : isUuid uuid.value = true) :
    walk none (savedBoard uuid) =
      .ok (datasheetBoard (placeholder datasheetPlace), [datasheetPlace]) := by
  have hplace : volatileIdentity (some datasheetFootprint.value)
      (datasheetProperty (node (word "uuid") [.atom uuid])) = .ok (some datasheetPlace) := by
    refine volatileIdentity_some.mpr ⟨datasheetFootprint.value, "Datasheet", "~", rfl, rfl, rfl,
      by decide,
      ⟨by decide, by decide +kernel, ?_⟩, rfl, ⟨_, _, rfl, uuid.value, rfl, h⟩, rfl⟩
    simp
  have hproperty : walk (some datasheetFootprint.value)
      (datasheetProperty (node (word "uuid") [.atom uuid])) =
        .ok (datasheetProperty (placeholder datasheetPlace), [datasheetPlace]) := by
    unfold datasheetProperty node at hplace ⊢
    rw [walk]
    refine bind_ok.mpr ⟨some datasheetFootprint.value, rfl, ?_⟩
    exact bind_ok.mpr ⟨_, hplace, rfl⟩
  have hfootprint : footprintOf none (node (word "footprint")
      [node (word "uuid") [.atom datasheetFootprint],
        datasheetProperty (node (word "uuid") [.atom uuid])]) = .ok (some datasheetFootprint.value) := by
    refine (if_pos rfl).trans ?_
    refine bind_ok.mpr ⟨some datasheetFootprint.value, rfl, ?_⟩
    exact bind_ok.mpr ⟨(), require_ok.mpr ⟨_, rfl, by decide +kernel⟩, rfl⟩
  have hzone : walk none (sampleZone (word "GND")) = .ok (sampleZone (word "GND"), []) := by rfl
  have hwalked : walk none (node (word "footprint")
      [node (word "uuid") [.atom datasheetFootprint],
        datasheetProperty (node (word "uuid") [.atom uuid])]) =
      .ok (node (word "footprint") [node (word "uuid") [.atom datasheetFootprint],
        datasheetProperty (placeholder datasheetPlace)], [datasheetPlace]) := by
    unfold node at hfootprint hproperty ⊢
    rw [walk]
    refine bind_ok.mpr ⟨_, hfootprint, bind_ok.mpr ⟨none, rfl, ?_⟩⟩
    simp only [walkItems, hproperty]
    rfl
  unfold savedBoard datasheetBoard
  unfold node at hwalked ⊢
  rw [walk]
  refine bind_ok.mpr ⟨none, rfl, bind_ok.mpr ⟨none, rfl, ?_⟩⟩
  simp only [walkItems, hwalked, hzone]
  rfl

theorem erase_savedBoard (uuid : Atom) : erase false (savedBoard uuid) =
    datasheetBoard (node (word "uuid") [.quoted anyUuid]) := rfl

def sampleEntries : List Hashing.Entry := [
  ⟨"kicad-filled-board-semantic-v1",
    .str (String.ofList (canonicalText (datasheetBoard (placeholder datasheetPlace)))),
    String.ofList (List.replicate 64 'b')⟩,
  ⟨"kicad-volatile-property-paths-v1", .arr [.str datasheetPlace],
    String.ofList (List.replicate 64 'c')⟩,
  ⟨"kicad-filled-copper-polygon-v1", Json.object samplePolygon.payload,
    samplePolygon.geometrySha256⟩,
  ⟨"kicad-filled-copper-geometry-v1", .arr [samplePolygon.json],
    String.ofList (List.replicate 64 'e')⟩]

/-- The texts of the board as it was saved first and again. -/
def savedTexts : List (List Char × String) :=
  [(canonicalText (savedBoard firstUuid), String.ofList (List.replicate 64 'a')),
    (canonicalText (savedBoard secondUuid), String.ofList (List.replicate 64 'f'))]

def sampleTable : List (List Char × String) :=
  sampleEntries.map (fun entry => (entry.text, entry.digest)) ++ savedTexts

@[reducible] def sampleHashing : Hashing := Hashing.tabled sampleTable

theorem sampleHashing_digest {entry : Hashing.Entry} (h : entry ∈ sampleEntries) :
    @Hashing.inDomain sampleHashing entry.domain entry.value = entry.digest := by
  refine Hashing.tabled_listed ?_
  show List.lookup entry.text sampleTable = some entry.digest
  rw [sampleTable, List.lookup_append, Hashing.lookup_text ?_ ?_ h, Option.some_or]
  · decide
  · have hdomains : (sampleEntries.map (·.domain)).Nodup := by decide
    refine List.Pairwise.imp ?_ (List.pairwise_map.mp hdomains)
    intro a b hne hsame
    exact absurd hsame hne

theorem sampleHashing_saved {uuid : Atom} (h : uuid = firstUuid ∨ uuid = secondUuid) :
    Text.isSha256 (sampleHashing.sha256 (canonicalText (savedBoard uuid))) = true := by
  have hfound : ∃ digest, savedTexts.lookup (canonicalText (savedBoard uuid)) = some digest ∧
      Text.isSha256 digest = true := by
    rcases h with rfl | rfl
    · exact ⟨String.ofList (List.replicate 64 'a'), by decide +kernel, by decide +kernel⟩
    · exact ⟨String.ofList (List.replicate 64 'f'), by decide +kernel, by decide +kernel⟩
  obtain ⟨digest, hdigest, hshaped⟩ := hfound
  -- the texts under a domain begin with its name, and that of a board does not
  have hdomains : ∀ entry ∈ sampleEntries, entry.domain.toList.head? = some 'k' := by decide
  have hnone : (sampleEntries.map fun entry => (entry.text, entry.digest)).lookup
      (canonicalText (savedBoard uuid)) = none := by
    rw [List.lookup_eq_none_iff]
    intro pair hpair
    obtain ⟨entry, hentry, rfl⟩ := List.mem_map.mp hpair
    rw [bne_iff_ne]
    intro hsame
    have hhead := congrArg List.head? hsame
    rw [Hashing.Entry.text, List.head?_append, hdomains entry hentry, savedBoard, datasheetBoard,
      node, canonicalText] at hhead
    cases hhead
  have hlisted : sampleHashing.sha256 (canonicalText (savedBoard uuid)) = digest := by
    refine Hashing.tabled_listed ?_
    rw [sampleTable, List.lookup_append, hnone, Option.none_or, hdigest]
  rw [hlisted]
  exact hshaped

theorem rawSha256_canonicalBytes [Hashing] (e : SExpr) :
    rawSha256 (canonicalBytes e) = Hashing.sha256 (canonicalText e) := by
  have htext : String.fromUTF8? (canonicalBytes e) = some (String.ofList (canonicalText e)) := by
    unfold String.fromUTF8?
    rw [canonicalBytes, dif_pos (String.ofList (canonicalText e)).isValidUTF8]
    rfl
  rw [rawSha256, htext, Option.elim_some, String.toList_ofList]

theorem analyzeFilledBoard_of_root [Hashing] [DecimalDigits] {root : SExpr}
    {evidence : FilledBoardSemanticEvidence}
    (hroot : parse defaultLimits (canonicalBytes root) = .ok root)
    (h : analyzeRoot (Hashing.sha256 (canonicalText root)) root = .ok evidence) :
    analyzeFilledBoard (canonicalBytes root) = .ok evidence := by
  have hsome : (canonicalBytes root).size ≠ 0 := by
    have htext := canonicalText_ne_nil root
    rw [canonicalBytes, size_ofList]
    cases hlist : canonicalText root with
    | nil => exact absurd hlist htext
    | cons c rest =>
        have := Char.utf8Size_pos c
        rw [encodedSize]
        omega
  unfold analyzeFilledBoard
  simp only [bind_ok, require_ok, exists_const, hroot, Except.mapError, Except.ok.injEq,
    exists_eq_left', rawSha256_canonicalBytes]
  exact ⟨hsome, h⟩

theorem savedBoard_parse {uuid : Atom} (h : uuid = firstUuid ∨ uuid = secondUuid) :
    parse defaultLimits (canonicalBytes (savedBoard uuid)) = .ok (savedBoard uuid) := by
  have hfits : (savedBoard uuid).Fits defaultLimits := by
    refine ⟨?_, ?_, ?_⟩
    · rcases h with rfl | rfl <;> decide
    · rcases h with rfl | rfl <;> decide
    · rcases h with rfl | rfl <;>
        simp only [savedBoard, firstUuid, secondUuid, datasheetBoard, datasheetFootprint,
          datasheetProperty, sampleZone, sampleTriangle, sampleVertex, sampleLayer, node, SExpr.AtomsFit,
          SExpr.AtomsFitOf, defaultLimits] <;> decide
  refine parse_small hfits ?_
  rcases h with rfl | rfl <;> decide +kernel

set_option maxRecDepth 10000 in
/-- They are accepted. -/
theorem savedBoard_analyzed {uuid : Atom} (h : uuid = firstUuid ∨ uuid = secondUuid) :
    letI := sampleHashing
    letI := noDigits
    ∃ evidence, analyzeFilledBoard (canonicalBytes (savedBoard uuid)) = .ok evidence := by
  let _ := sampleHashing
  let _ := noDigits
  suffices hroot : ∃ evidence, analyzeRoot (Hashing.sha256 (canonicalText (savedBoard uuid)))
      (savedBoard uuid) = .ok evidence from
    hroot.imp fun _ => analyzeFilledBoard_of_root (savedBoard_parse h)
  have hwalk := @walk_savedBoard uuid (by rcases h with rfl | rfl <;> decide +kernel)
  have hkeys : ((filledPolygons (savedBoard uuid)).toOption.map fun found =>
      found.2.map FilledPolygonEvidence.key) = some [samplePolygon.key] := by
    rcases h with rfl | rfl <;> decide +kernel
  obtain ⟨⟨count, polygons⟩, hfound, hpolygons⟩ := Option.map_eq_some_iff.mp hkeys
  have hpolygons : polygons = [samplePolygon] :=
    List.map_injective_iff.mpr FilledPolygonEvidence.key_injective hpolygons
  subst hpolygons
  unfold analyzeRoot normalizeVolatilePropertyUuids
  simp only [bind_ok, require_ok, exists_const, pure_ok, hwalk, of_toOption hfound,
    Except.ok.injEq]
  have hdigests : ∀ entry ∈ sampleEntries, Text.isSha256 entry.digest = true := by decide +kernel
  have hshaped : ∀ entry ∈ sampleEntries,
      Text.isSha256 (Hashing.inDomain entry.domain entry.value) = true := by
    intro entry hentry
    rw [sampleHashing_digest hentry]
    exact hdigests entry hentry
  exact ⟨_, _, ⟨_, rfl, List.nodup_singleton _, rfl⟩, _, rfl, sampleHashing_saved h,
    hshaped sampleEntries[0] (List.getElem_mem _), hshaped sampleEntries[1] (List.getElem_mem _),
    hshaped sampleEntries[3] (List.getElem_mem _), rfl⟩

/-- Saved again with another UUID, the board has the digest that it had. -/
theorem filled_board_exact_iff_saved :
    letI := sampleHashing
    letI := noDigits
    ∃ evidence evidence', analyzeFilledBoard (canonicalBytes (savedBoard firstUuid)) = .ok evidence ∧
      analyzeFilledBoard (canonicalBytes (savedBoard secondUuid)) = .ok evidence' ∧
      savedBoard firstUuid ≠ savedBoard secondUuid ∧
      evidence.normalizedSemanticSha256 = evidence'.normalizedSemanticSha256 ∧
      CountedOnce (savedBoard firstUuid) evidence ∧
      ((∀ root', RedrawnBoard (savedBoard firstUuid) root' → filledCopper root' = .ok evidence.copper) ↔
        RingsDistinct (savedBoard firstUuid)) := by
  let _ := sampleHashing
  let _ := noDigits
  have hfree : Hashing.CollisionFree :=
    Hashing.tabled_collisionFree (by decide +kernel) (by decide +kernel)
  have hne : canonicalText (savedBoard firstUuid) ≠ canonicalText (savedBoard secondUuid) := by
    decide +kernel
  have hparse := savedBoard_parse (Or.inl rfl)
  have hparse' := savedBoard_parse (Or.inr rfl)
  obtain ⟨evidence, hevidence⟩ := savedBoard_analyzed (Or.inl rfl)
  obtain ⟨evidence', hevidence'⟩ := savedBoard_analyzed (Or.inr rfl)
  obtain ⟨hsame, hcounted, hredrawn⟩ := filled_board_exact_iff hfree hparse hevidence
  exact ⟨evidence, evidence', hevidence, hevidence', fun h => hne (congrArg canonicalText h),
    (hsame _ _ _ hparse' hevidence').mpr (by rw [erase_savedBoard, erase_savedBoard]), hcounted, hredrawn⟩

/-! ### A ring with a repetition -/

/-- A board with one filled polygon. -/
def ringBoard (ring : List SExpr) : SExpr := node (word "kicad_pcb") [node (word "zone")
  [node (word "net") [.atom (word "GND")], sampleLayer,
    node (word "uuid") [.atom (word "00000000-0000-4000-8000-000000000001")],
    node (word "filled_polygon") [sampleLayer, node (word "pts") ring]]]

/-- A triangle whose first corner is drawn twice. -/
def doubledRing : List SExpr := [sampleVertex (word "0") (word "0"),
  sampleVertex (word "0") (word "0"), sampleVertex (word "1") (word "0"),
  sampleVertex (word "0") (word "1")]

/-- The same ring, drawn from its second vertex. -/
def turnedRing : List SExpr := [sampleVertex (word "0") (word "0"),
  sampleVertex (word "1") (word "0"), sampleVertex (word "0") (word "1"),
  sampleVertex (word "0") (word "0")]

/-- A board with one polygon of at most four vertices is read from its text. -/
theorem ringBoard_parse {ring : List SExpr} (hring : ring = doubledRing ∨ ring = turnedRing) :
    parse defaultLimits (canonicalBytes (ringBoard ring)) = .ok (ringBoard ring) := by
  have hfits : (ringBoard ring).Fits defaultLimits := by
    refine ⟨?_, ?_, ?_⟩
    · rcases hring with rfl | rfl <;> decide
    · rcases hring with rfl | rfl <;> decide
    · rcases hring with rfl | rfl <;>
        simp only [ringBoard, doubledRing, turnedRing, sampleVertex, sampleLayer, node,
          SExpr.AtomsFit, SExpr.AtomsFitOf, defaultLimits] <;> decide
  refine parse_small hfits ?_
  rcases hring with rfl | rfl <;> decide +kernel

attribute [local instance] noDigits in
theorem ringBoard_redrawn : RedrawnBoard (ringBoard doubledRing) (ringBoard turnedRing) := by
  have hdrawn : doubledRing.mapM polygonPoint =
      .ok [toLex (0, 0), toLex (0, 0), toLex (1000000, 0), toLex (0, 1000000)] :=
    of_toOption (by decide +kernel)
  have hdrawn' : turnedRing.mapM polygonPoint =
      .ok [toLex (0, 0), toLex (1000000, 0), toLex (0, 1000000), toLex (0, 0)] :=
    of_toOption (by decide +kernel)
  have hredrawn : RedrawnPolygon
      (node (word "filled_polygon") [sampleLayer, node (word "pts") doubledRing])
      (node (word "filled_polygon") [sampleLayer, node (word "pts") turnedRing]) := by
    refine ⟨.atom (word "filled_polygon"), [sampleLayer], word "pts", doubledRing, turnedRing, [],
      _, _, rfl, rfl, rfl, by decide, hdrawn, hdrawn', ?_⟩
    refine ⟨_, Or.inl ⟨1, ?_⟩, Or.inl rfl⟩
    decide
  have hzone := @reordered_one "filled_polygon" RedrawnPolygon (.atom (word "zone")) _ _
    [node (word "net") [.atom (word "GND")], sampleLayer,
      node (word "uuid") [.atom (word "00000000-0000-4000-8000-000000000001")]] [] rfl rfl hredrawn
  exact @reordered_one "zone" _ (.atom (word "kicad_pcb")) _ _ [] [] rfl rfl hzone

set_option maxRecDepth 10000 in
/-- Drawn from the second of two equal vertices, a ring is counted with one vertex less. -/
theorem repeated_vertex_lost :
    letI := oneDigest
    letI := noDigits
    ∃ evidence evidence',
      analyzeFilledBoard (canonicalBytes (ringBoard doubledRing)) = .ok evidence ∧
      analyzeFilledBoard (canonicalBytes (ringBoard turnedRing)) = .ok evidence' ∧
      RedrawnBoard (ringBoard doubledRing) (ringBoard turnedRing) ∧
      evidence.filledVertexCount = 4 ∧ evidence'.filledVertexCount = 3 := by
  let _ := oneDigest
  let _ := noDigits
  have hcount : ((analyzeRoot (Hashing.sha256 (canonicalText (ringBoard doubledRing)))
      (ringBoard doubledRing)).toOption.map (·.filledVertexCount)) = some 4 := by decide +kernel
  have hcount' : ((analyzeRoot (Hashing.sha256 (canonicalText (ringBoard turnedRing)))
      (ringBoard turnedRing)).toOption.map (·.filledVertexCount)) = some 3 := by decide +kernel
  obtain ⟨evidence, hread, hfour⟩ := Option.map_eq_some_iff.mp hcount
  obtain ⟨evidence', hread', hthree⟩ := Option.map_eq_some_iff.mp hcount'
  exact ⟨evidence, evidence',
    analyzeFilledBoard_of_root (ringBoard_parse (Or.inl rfl)) (of_toOption hread),
    analyzeFilledBoard_of_root (ringBoard_parse (Or.inr rfl)) (of_toOption hread'),
    ringBoard_redrawn, hfour, hthree⟩

end Evleda.ManufacturingCandidate
