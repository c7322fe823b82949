/-
The two readings of a filled board.

The copper evidence and the authored zones are read off the same nodes of a board by
helpers of their own: one takes the first child of a name and the other the only one,
one takes the scalar of a net as it stands and the other looks it up among the nets of
the board.  On a board that both accept a name has one child, so the zones, their
identifiers and their layers are the same.  The nets are the same where no zone spells
its net by a code that the board gives another name.
-/
import Evleda.KicadIo.Rendering
import Evleda.ManufacturingCandidate.SourceZones

namespace Evleda.ManufacturingCandidate

open KicadIo Outcome

variable {expression zone root : SExpr} {name label text : String} {nets : List (String × String)}

/-! ### One child -/

theorem scalar_ok :
    scalar label expression = .ok text ↔ expression.scalarText label = .ok text := by
  unfold scalar
  cases expression.scalarText label <;> simp [Except.mapError]

theorem scalar_eq {label' text' : String} (h : scalar label expression = .ok text)
    (h' : scalar label' expression = .ok text') : text = text' := by
  rw [scalar_ok] at h h'
  cases expression with
  | atom a =>
      cases h
      cases h'
      rfl
  | quoted value =>
      cases h
      cases h'
      rfl
  | list items => cases h

theorem onlyChild_ok {item : SExpr} :
    onlyChild label expression name = .ok item ↔ childrenNamed expression name = [item] := by
  unfold onlyChild
  cases hnamed : childrenNamed expression name with
  | nil => simp
  | cons first rest =>
      cases rest with
      | nil => simp
      | cons second rest => simp

theorem child_of_only {item : SExpr} (h : childrenNamed expression name = [item]) :
    child expression name = some item := by
  unfold childrenNamed at h
  unfold child
  rw [← List.head?_filter, h, List.head?_cons]

theorem scalarChild_ok :
    scalarChild expression name = .ok (some text) ↔ ∃ first value rest,
      child expression name = some (.list (first :: value :: rest)) ∧
        value.scalarText name = .ok text := by
  unfold scalarChild
  constructor
  · intro h
    split at h
    · rename_i first value rest hchild
      refine ⟨first, value, rest, hchild, scalar_ok.mp ?_⟩
      cases hvalue : scalar name value with
      | error failure => simp [hvalue, Except.map] at h
      | ok found =>
          simp only [hvalue, Except.map, Except.ok.injEq, Option.some.injEq] at h
          rw [h]
    · simp at h
  · rintro ⟨first, value, rest, hchild, hvalue⟩
    rw [hchild]
    simp [scalar_ok.mpr hvalue, Except.map]

/-- What one reader takes for the scalar of an only child, the other one does too. -/
theorem onlyScalarChild_eq {text' : String} (h : onlyScalarChild label expression name = .ok text)
    (h' : scalarChild expression name = .ok (some text')) : text = text' := by
  unfold onlyScalarChild at h
  obtain ⟨item, hitem, h⟩ := bind_ok.mp h
  obtain ⟨first, value, rest, hchild, hvalue⟩ := scalarChild_ok.mp h'
  rw [child_of_only (onlyChild_ok.mp hitem), Option.some.injEq] at hchild
  subst hchild
  cases rest with
  | nil => exact scalar_eq h (scalar_ok.mpr hvalue)
  | cons second rest => cases h

/-! ### Layers and nets -/

theorem zoneLayer_eq {layer layer' : String} (h : zoneLayer zone = .ok layer)
    (h' : scalarChild zone "layer" = .ok (some layer')) : layer = layer' := by
  obtain ⟨first, value, rest, hchild, hvalue⟩ := scalarChild_ok.mp h'
  unfold zoneLayer at h
  split at h
  · rename_i head item hlayer hlayers
    rw [child_of_only hlayer, Option.some.injEq] at hchild
    cases hchild
    exact scalar_eq h (scalar_ok.mpr hvalue)
  · rename_i head item hlayer hlayers
    -- the zone has a child of that name
    unfold child at hchild
    rw [← List.head?_filter] at hchild
    unfold childrenNamed at hlayer
    rw [hlayer] at hchild
    cases hchild
  · cases h

theorem resolveNet_ok {node : SExpr} {net : String} (h : resolveNet nets label node = .ok net) :
    ∃ head item rest first, node = .list (head :: item :: rest) ∧
      scalar (label ++ " net") item = .ok first ∧ net = netName nets first := by
  unfold resolveNet at h
  split at h
  · rename_i head item rest
    by_cases hlength : rest.length ≤ 1
    · rw [if_pos hlength] at h
      simp only [bind_ok, pure_ok] at h
      obtain ⟨first, hfirst, -, -, -, -, rfl⟩ := h
      exact ⟨head, item, rest, first, rfl, hfirst, rfl⟩
    · rw [if_neg hlength] at h
      cases h
  · cases h

theorem zoneNet_eq {net spelling : String} (h : zoneNet nets zone = .ok net)
    (h' : scalarChild zone "net" = .ok (some spelling)) : net = netName nets spelling := by
  unfold zoneNet at h
  simp only [bind_ok] at h
  obtain ⟨node, hnode, found, hfound, h⟩ := h
  have hsame : net = found := by
    split at h
    · exact (pure_ok.mp h).symm
    · obtain ⟨supplied, -, h⟩ := bind_ok.mp h
      obtain ⟨-, -, h⟩ := bind_ok.mp h
      exact (pure_ok.mp h).symm
    · cases h
  obtain ⟨head, item, rest, first, rfl, hfirst, rfl⟩ := resolveNet_ok hfound
  obtain ⟨head', value, rest', hchild, hvalue⟩ := scalarChild_ok.mp h'
  rw [child_of_only (onlyChild_ok.mp hnode), Option.some.injEq] at hchild
  cases hchild
  rw [hsame, scalar_eq hfirst (scalar_ok.mpr hvalue)]

/-! ### One zone -/

/-- What a zone is called: its UUID, the spelling of its net and its layer. -/
structure Called (zone : SExpr) (uuid spelling layer : String) : Prop where
  uuid : scalarChild zone "uuid" = .ok (some uuid)
  net : scalarChild zone "net" = .ok (some spelling)
  layer : scalarChild zone "layer" = .ok (some layer)

section Evidence

variable [Hashing] [DecimalDigits]

omit [DecimalDigits] in
theorem make_ok {zoneUuid netName zoneLayer fillLayer : String} {island : Bool}
    {vertices : List Vertex} {area : Int} {polygon : FilledPolygonEvidence}
    (h : FilledPolygonEvidence.make zoneUuid netName zoneLayer fillLayer island vertices area =
      .ok polygon) :
    polygon.zoneUuid = zoneUuid ∧ polygon.netName = netName ∧ polygon.zoneLayer = zoneLayer ∧
      polygon.fillLayer = fillLayer := by
  unfold FilledPolygonEvidence.make at h
  simp only [bind_ok, require_ok, exists_const] at h
  obtain ⟨-, -, -, -, -, -, -, h⟩ := h
  split at h
  · split at h
    · simp only [bind_ok, require_ok, exists_const, pure_ok] at h
      obtain ⟨-, rfl⟩ := h
      exact ⟨rfl, rfl, rfl, rfl⟩
    · cases h
  · cases h

theorem zonePolygons_called {polygons : List FilledPolygonEvidence}
    (h : zonePolygons zone = .ok polygons) :
    ∃ uuid spelling layer, Called zone uuid spelling layer ∧ polygons ≠ [] ∧
      ∀ polygon ∈ polygons, polygon.zoneUuid = uuid ∧ polygon.netName = spelling ∧
        polygon.zoneLayer = layer ∧ polygon.fillLayer = layer := by
  unfold zonePolygons at h
  simp only [bind_ok] at h
  obtain ⟨zoneUuid, huuid, spelling, hnet, layer, hlayer, h⟩ := h
  split at h
  · rename_i uuid spelling layer
    simp only [bind_ok, require_ok, exists_const] at h
    obtain ⟨-, -, hsome, h⟩ := h
    refine ⟨uuid, spelling, layer, ⟨huuid, hnet, hlayer⟩, ?_, ?_⟩
    · rintro rfl
      have hforall := mapM_ok.mp h
      exact hsome (List.forall₂_nil_right_iff.mp hforall)
    · intro polygon hpolygon
      obtain ⟨item, -, hitem⟩ := mapM_mem h hpolygon
      unfold filledPolygon at hitem
      simp only [bind_ok, require_ok, exists_const] at hitem
      obtain ⟨_, -, -, _, -, -, hmade⟩ := hitem
      exact make_ok hmade
  · cases h

omit [DecimalDigits] in
theorem authoredZone_called {derivative : Bool} {identity : AuthoredZoneIdentity}
    {paths : List String} {uuid spelling layer : String} (hcalled : Called zone uuid spelling layer)
    (h : authoredZone nets derivative zone = .ok (identity, paths)) :
    identity.zoneUuid = uuid ∧ identity.netName = netName nets spelling ∧
      identity.layer = layer := by
  unfold authoredZone at h
  simp only [bind_ok, require_ok, exists_const] at h
  obtain ⟨zoneUuid, huuid, -, found, hlayer, net, hnet, ⟨authored, trace⟩, -, h⟩ := h
  split at h
  · simp only [bind_ok] at h
    obtain ⟨outline, -, made, hmade, h⟩ := h
    rw [pure_ok, Prod.mk.injEq] at h
    obtain ⟨rfl, -⟩ := h
    unfold AuthoredZoneIdentity.make at hmade
    simp only [bind_ok, require_ok, exists_const] at hmade
    obtain ⟨-, -, -, hmade⟩ := hmade
    split at hmade
    · simp only [bind_ok, require_ok, exists_const, pure_ok] at hmade
      obtain ⟨-, rfl⟩ := hmade
      exact ⟨onlyScalarChild_eq huuid hcalled.uuid, zoneNet_eq hnet hcalled.net,
        zoneLayer_eq hlayer hcalled.layer⟩
    · cases hmade
  · cases h

/-! ### All zones -/

/-- The two readings name the same zones, with the same nets and layers. -/
structure Agree (evidence : FilledBoardSemanticEvidence) (board : NormalizedBoard) : Prop where
  count : evidence.zoneCount = board.zones.length
  zones : ∀ uuid, (∃ polygon ∈ evidence.filledPolygons, polygon.zoneUuid = uuid) ↔
    ∃ zone ∈ board.zones, zone.zoneUuid = uuid
  polygons : ∀ polygon ∈ evidence.filledPolygons, ∃ zone ∈ board.zones,
    zone.zoneUuid = polygon.zoneUuid ∧ zone.netName = polygon.netName ∧
      zone.layer = polygon.zoneLayer ∧ zone.layer = polygon.fillLayer

/-- No zone spells its net by a code that the board gives another name. -/
def NetsByName (root : SExpr) : Prop :=
  ∀ nets, netTable root = .ok nets → ∀ zone ∈ zonesOf root, ∀ spelling,
    scalarChild zone "net" = .ok (some spelling) → netName nets spelling = spelling

variable {evidence : FilledBoardSemanticEvidence}

variable {board : NormalizedBoard}

theorem read_zones {raw : String}
    (hevidence : analyzeRoot raw root = .ok evidence)
    (hboard : normalizeRoot true root = .ok board) :
    ∃ (nets : List (String × String)) (polygons : List (List FilledPolygonEvidence))
      (zones : List (AuthoredZoneIdentity × List String)),
      netTable root = .ok nets ∧ (zonesOf root).mapM zonePolygons = .ok polygons ∧
        (zonesOf root).mapM (authoredZone nets true) = .ok zones ∧
        (zones.map fun zone => zone.1.zoneUuid).Nodup ∧
        evidence.zoneCount = (zonesOf root).length ∧
        evidence.filledPolygons.Perm polygons.flatten ∧ board.zones.Perm (zones.map (·.1)) := by
  unfold analyzeRoot at hevidence
  simp only [bind_ok, require_ok, exists_const, pure_ok] at hevidence
  obtain ⟨⟨normalized, paths⟩, -, ⟨zoneCount, sorted⟩, hpolygons, -, -, -, -, rfl⟩ := hevidence
  unfold filledPolygons at hpolygons
  simp only [bind_ok, require_ok, exists_const, pure_ok, Prod.mk.injEq] at hpolygons
  obtain ⟨-, polygons, hread, hcount, hsorted⟩ := hpolygons
  unfold normalizeRoot at hboard
  simp only [bind_ok, require_ok, exists_const] at hboard
  obtain ⟨-, nets, hnets, ⟨authored, trace⟩, -, hboard⟩ := hboard
  split at hboard
  · simp only [bind_ok, require_ok, exists_const, pure_ok] at hboard
    obtain ⟨-, -, zones, hzones, -, hnodup, rfl⟩ := hboard
    refine ⟨nets, polygons, zones, hnets, hread, hzones, hnodup, hcount.symm, ?_, ?_⟩
    · show sorted.Perm _
      rw [← hsorted]
      exact sortBy_perm _
    · exact sortBy_perm _
  · cases hboard

/-- **On a board that both accept, the readings agree exactly when the nets are spelled by
name.** -/
theorem agree_iff {raw : String}
    (hevidence : analyzeRoot raw root = .ok evidence)
    (hboard : normalizeRoot true root = .ok board) :
    Agree evidence board ↔ NetsByName root := by
  obtain ⟨nets, polygons, zones, hnets, hread, hzones, hnodup, hcount, hpolygons, hboards⟩ :=
    read_zones hevidence hboard
  have hidentity : ∀ zone ∈ zonesOf root, ∀ uuid spelling layer, Called zone uuid spelling layer →
      ∃ identity ∈ board.zones, identity.zoneUuid = uuid ∧
        identity.netName = netName nets spelling ∧ identity.layer = layer := by
    intro zone hzone uuid spelling layer hcalled
    obtain ⟨⟨identity, paths⟩, hmem, hidentity⟩ := mapM_image hzones hzone
    exact ⟨identity, hboards.mem_iff.mpr (List.mem_map_of_mem hmem),
      authoredZone_called hcalled hidentity⟩
  have hpolygonsOf : ∀ zone ∈ zonesOf root, ∃ uuid spelling layer,
      Called zone uuid spelling layer ∧ ∃ polygon ∈ evidence.filledPolygons,
        polygon.zoneUuid = uuid ∧ polygon.netName = spelling := by
    intro zone hzone
    obtain ⟨found, hfound, hzonePolygons⟩ := mapM_image hread hzone
    obtain ⟨uuid, spelling, layer, hcalled, hsome, hall⟩ := zonePolygons_called hzonePolygons
    obtain ⟨polygon, hpolygon⟩ := List.exists_mem_of_ne_nil _ hsome
    obtain ⟨huuid, hnet, -⟩ := hall polygon hpolygon
    exact ⟨uuid, spelling, layer, hcalled, polygon,
      hpolygons.mem_iff.mpr (List.mem_flatten.mpr ⟨found, hfound, hpolygon⟩), huuid, hnet⟩
  have hzoneOf : ∀ polygon ∈ evidence.filledPolygons, ∃ zone ∈ zonesOf root,
      Called zone polygon.zoneUuid polygon.netName polygon.zoneLayer ∧
        polygon.fillLayer = polygon.zoneLayer := by
    intro polygon hpolygon
    obtain ⟨found, hfound, hmem⟩ := List.mem_flatten.mp (hpolygons.mem_iff.mp hpolygon)
    obtain ⟨zone, hzone, hzonePolygons⟩ := mapM_mem hread hfound
    obtain ⟨uuid, spelling, layer, hcalled, -, hall⟩ := zonePolygons_called hzonePolygons
    obtain ⟨rfl, rfl, rfl, hfill⟩ := hall polygon hmem
    exact ⟨zone, hzone, hcalled, hfill⟩
  constructor
  · intro hagree nets' hnets' zone hzone spelling hspelling
    have hsame := Except.ok.inj (hnets.symm.trans hnets')
    subst hsame
    obtain ⟨uuid, spelling', layer, hcalled, polygon, hpolygon, huuid, hnet⟩ :=
      hpolygonsOf zone hzone
    have hspellings := Option.some.inj (Except.ok.inj (hspelling.symm.trans hcalled.net))
    subst hspellings
    obtain ⟨identity, hmem, hidentityUuid, hidentityNet, -⟩ :=
      hidentity zone hzone uuid spelling layer hcalled
    obtain ⟨other, hother, hotherUuid, hotherNet, -⟩ := hagree.polygons polygon hpolygon
    -- one UUID is one zone
    have hdistinct : (board.zones.map (fun zone => zone.zoneUuid)).Nodup := by
      have hperm := hboards.map (fun zone : AuthoredZoneIdentity => zone.zoneUuid)
      rw [List.map_map] at hperm
      exact hperm.nodup_iff.mpr hnodup
    have hone := List.inj_on_of_nodup_map hdistinct hmem hother
      (hidentityUuid.trans (huuid.symm.trans hotherUuid.symm))
    rw [← hidentityNet, hone, hotherNet, hnet]
  · intro hnamed
    refine ⟨?_, ?_, ?_⟩
    · rw [hcount, hboards.length_eq, List.length_map]
      exact (mapM_ok.mp hzones).length_eq
    · intro uuid
      constructor
      · rintro ⟨polygon, hpolygon, rfl⟩
        obtain ⟨zone, hzone, hcalled, -⟩ := hzoneOf polygon hpolygon
        obtain ⟨identity, hmem, huuid, -⟩ := hidentity zone hzone _ _ _ hcalled
        exact ⟨identity, hmem, huuid⟩
      · rintro ⟨identity, hidentity', rfl⟩
        obtain ⟨⟨identity', paths⟩, hmem, rfl⟩ := List.mem_map.mp (hboards.mem_iff.mp hidentity')
        obtain ⟨zone, hzone, hauthored⟩ := mapM_mem hzones hmem
        obtain ⟨uuid, spelling, layer, hcalled, polygon, hpolygon, huuid, -⟩ :=
          hpolygonsOf zone hzone
        exact ⟨polygon, hpolygon, huuid.trans (authoredZone_called hcalled hauthored).1.symm⟩
    · intro polygon hpolygon
      obtain ⟨zone, hzone, hcalled, hfill⟩ := hzoneOf polygon hpolygon
      obtain ⟨identity, hmem, huuid, hnet, hlayer⟩ := hidentity zone hzone _ _ _ hcalled
      exact ⟨identity, hmem, huuid, hnet.trans (hnamed nets hnets zone hzone _ hcalled.net), hlayer,
        hlayer.trans hfill.symm⟩

theorem accepted_iff {payload : ByteArray}
    (hroot : parse defaultLimits payload = .ok root) :
    (analyzeFilledBoard payload = .ok evidence ∧ normalizeBoard true payload = .ok board) ↔
      payload.size ≠ 0 ∧ analyzeRoot (rawSha256 payload) root = .ok evidence ∧
        normalizeRoot true root = .ok board := by
  unfold analyzeFilledBoard normalizeBoard
  simp only [bind_ok, require_ok, exists_const, hroot, Except.mapError, Except.ok.injEq,
    exists_eq_left']
  exact and_and_left.symm

/-- **The two analysers agree on a filled board exactly when no zone spells its net by a code of
the net table that stands for another name.** -/
theorem analysers_agree_iff {payload : ByteArray} {root : SExpr}
    (hroot : parse defaultLimits payload = .ok root)
    (hevidence : analyzeFilledBoard payload = .ok evidence)
    (hboard : normalizeBoard true payload = .ok board) :
    Agree evidence board ↔ NetsByName root := by
  obtain ⟨-, hevidence, hboard⟩ := (accepted_iff hroot).mp ⟨hevidence, hboard⟩
  exact agree_iff hevidence hboard

end Evidence

/-! ### A board with one zone -/

def sampleVertex (x y : Atom) : SExpr := node (word "xy") [.atom x, .atom y]

def sampleTriangle : SExpr := node (word "pts")
  [sampleVertex (word "0") (word "0"), sampleVertex (word "1") (word "0"),
    sampleVertex (word "0") (word "1")]

def sampleLayer : SExpr := node (word "layer") [.atom (word "F.Cu")]

/-- A filled zone that spells its net so. -/
def sampleZone (spelling : Atom) : SExpr := node (word "zone")
  [node (word "net") [.atom spelling], sampleLayer,
    node (word "uuid") [.atom (word "00000000-0000-4000-8000-000000000001")],
    node (word "polygon") [sampleTriangle],
    node (word "filled_polygon") [sampleLayer, sampleTriangle]]

/-- A board with the zone, whose net has the code 1 and the name GND. -/
def sampleBoard (spelling : Atom) : SExpr := node (word "kicad_pcb")
  [node (word "net") [.atom (word "1"), .atom (word "GND")], sampleZone spelling]

@[reducible] def oneDigest : Hashing := ⟨fun _ => String.ofList (List.replicate 64 'a')⟩

@[reducible] def noDigits : DecimalDigits := ⟨fun _ => none⟩

theorem sampleBoard_fits {spelling : Atom} (h : spelling.value.toList.length ≤ 3) :
    (sampleBoard spelling).Fits defaultLimits := by
  refine ⟨?_, ?_, ?_⟩
  · simp only [sampleBoard, sampleZone, sampleTriangle, sampleVertex, sampleLayer, node,
      SExpr.depth, SExpr.depthOf, defaultLimits]
    omega
  · simp only [sampleBoard, sampleZone, sampleTriangle, sampleVertex, sampleLayer, node,
      SExpr.tokens, SExpr.tokensOf, defaultLimits]
    omega
  · simp only [sampleBoard, sampleZone, sampleTriangle, sampleVertex, sampleLayer, node,
      SExpr.AtomsFit, SExpr.AtomsFitOf, defaultLimits, and_true]
    have hspelling : spelling.value.toList.length ≤ 1000000 := by omega
    simp only [hspelling]
    decide

theorem parse_small {items : List SExpr} (hfits : (SExpr.list items).Fits defaultLimits)
    (hsize : encodedSize (canonicalText (.list items)) ≤ 600) :
    parse defaultLimits (canonicalBytes (.list items)) = .ok (.list items) := by
  refine parse_canonicalText hfits ?_ ?_
  · rw [size_ofList]
    exact le_trans hsize (by decide)
  · rw [← Bool.not_eq_true]
    refine (canonicalBytes_marked_iff _).not.mpr ?_
    rintro ⟨a, hatom, -⟩
    cases hatom

theorem sampleBoard_parse {spelling : Atom} (h : spelling.value.toList.length ≤ 3)
    (hsize : encodedSize (canonicalText (sampleBoard spelling)) ≤ 300) :
    parse defaultLimits (canonicalBytes (sampleBoard spelling)) = .ok (sampleBoard spelling) :=
  parse_small (sampleBoard_fits h) (le_trans hsize (by decide))

theorem sampleBoard_read {spelling : Atom} (h : spelling.value.toList.length ≤ 3)
    (hsize : encodedSize (canonicalText (sampleBoard spelling)) ≤ 300) :
    letI := oneDigest
    letI := noDigits
    (analyzeRoot (rawSha256 (canonicalBytes (sampleBoard spelling)))
      (sampleBoard spelling)).toOption.isSome = true →
    (normalizeRoot true (sampleBoard spelling)).toOption.isSome = true →
    ∃ evidence board, analyzeFilledBoard (canonicalBytes (sampleBoard spelling)) = .ok evidence ∧
      normalizeBoard true (canonicalBytes (sampleBoard spelling)) = .ok board := by
  let _ := oneDigest
  let _ := noDigits
  intro hevidence hboard
  have hroot := sampleBoard_parse h hsize
  obtain ⟨evidence, hevidence⟩ := exists_of_isSome hevidence
  obtain ⟨board, hboard⟩ := exists_of_isSome hboard
  have hsome : (canonicalBytes (sampleBoard spelling)).size ≠ 0 := by
    rw [canonicalBytes, size_ofList, sampleBoard, node, canonicalText, encodedSize]
    have := Char.utf8Size_pos '('
    omega
  exact ⟨evidence, board, (accepted_iff hroot).mpr ⟨hsome, hevidence, hboard⟩⟩

set_option maxRecDepth 10000 in
theorem analysers_agree_iff_sample :
    letI := oneDigest
    letI := noDigits
    ∃ evidence board,
      analyzeFilledBoard (canonicalBytes (sampleBoard (word "GND"))) = .ok evidence ∧
      normalizeBoard true (canonicalBytes (sampleBoard (word "GND"))) = .ok board ∧
      (Agree evidence board ↔ NetsByName (sampleBoard (word "GND"))) := by
  let _ := oneDigest
  let _ := noDigits
  have hsize : encodedSize (canonicalText (sampleBoard (word "GND"))) ≤ 300 := by decide +kernel
  obtain ⟨evidence, board, hevidence, hboard⟩ :=
    sampleBoard_read (by decide) hsize (by decide +kernel) (by decide +kernel)
  exact ⟨evidence, board, hevidence, hboard,
    analysers_agree_iff (sampleBoard_parse (by decide) hsize) hevidence hboard⟩

set_option maxRecDepth 10000 in
/-- A zone that spells its net by its code is read as one of the net 1 in the copper and as one of
the net GND among the authored zones. -/
theorem code_spelling_disagrees :
    letI := oneDigest
    letI := noDigits
    ∃ evidence board, analyzeFilledBoard (canonicalBytes (sampleBoard (word "1"))) = .ok evidence ∧
      normalizeBoard true (canonicalBytes (sampleBoard (word "1"))) = .ok board ∧
      ¬ Agree evidence board := by
  let _ := oneDigest
  let _ := noDigits
  have hsize : encodedSize (canonicalText (sampleBoard (word "1"))) ≤ 300 := by decide +kernel
  obtain ⟨evidence, board, haccepted⟩ :=
    sampleBoard_read (by decide) hsize (by decide +kernel) (by decide +kernel)
  refine ⟨evidence, board, haccepted.1, haccepted.2, ?_⟩
  obtain ⟨-, hevidence, hboard⟩ :=
    (accepted_iff (sampleBoard_parse (by decide) hsize)).mp haccepted
  rw [agree_iff hevidence hboard]
  intro hnamed
  have hgnd : netName [("1", "GND")] "1" = "1" :=
    hnamed [("1", "GND")] (by rfl) (sampleZone (word "1")) (List.mem_singleton.mpr rfl) "1" (by rfl)
  exact absurd hgnd (by decide)

end Evleda.ManufacturingCandidate
