/-
Stored documents are lossless and canonical.

Writing a record and reading it back gives the record, exactly when the encoder
takes it: its graph has to be valid and in normal form, and a revision has to
carry the hash of its contents.  The other way round, a document that is read has
the text its record is written as, as long as its pads and holes state their
drills in full.  A pad or a hole that leaves a drill dimension to be filled in is
accepted too, and then two texts denote one record.
-/
import Evleda.Kernel.AuthorizedCommits
import Evleda.Kernel.SameDesign
import Evleda.ProjectStore.Documents

namespace Evleda.ProjectStore

open Kernel Outcome
open Json (Canonical)

/-! ### What the records are written as is canonical -/

section Canonical

theorem canonical_optional {α : Type} {encode : α → Json} (h : ∀ a, Canonical (encode a))
    (value : Option α) : Canonical (optionalJson encode value) := by
  cases value with
  | none => exact Json.canonical_null
  | some a => exact h a

theorem canonical_map {α : Type} {encode : α → Json} (h : ∀ a, Canonical (encode a))
    (values : List α) : Canonical (.arr (values.map encode)) := by
  refine Json.canonical_arr.mpr ?_
  intro item hitem
  obtain ⟨a, -, rfl⟩ := List.mem_map.mp hitem
  exact h a

theorem canonical_texts (values : List String) : Canonical (textsJson values) :=
  canonical_map Json.canonical_str values

theorem PointNm.canonical (p : PointNm) : Canonical p.toJson := by
  refine Json.canonical_object (by simp) ?_
  simp [Json.canonical_int]

variable [UnicodeData] [Hashing]

omit [UnicodeData] [Hashing] in
theorem PinRef.canonical (r : PinRef) : Canonical r.toJson := by
  refine Json.canonical_object (by simp) ?_
  simp [Json.canonical_str]

omit [UnicodeData] [Hashing] in
theorem PinDefinition.canonical (r : PinDefinition) : Canonical r.toJson := by
  refine Json.canonical_object (by simp) ?_
  simp [Json.canonical_str, Json.canonical_bool]

omit [Hashing] in
theorem Component.canonical (r : Component) : Canonical r.toJson := by
  refine Json.canonical_object (by simp) ?_
  simp [Json.canonical_str, canonical_map fun pin : Checked PinDefinition.postInit =>
    PinDefinition.canonical pin.val]

omit [Hashing] in
theorem Net.canonical (r : Net) : Canonical r.toJson := by
  refine Json.canonical_object (by simp) ?_
  simp [Json.canonical_str, canonical_map fun m : Checked PinRef.postInit => PinRef.canonical m.val]

section

omit [UnicodeData] [Hashing]

theorem FootprintPlacement.canonical (r : FootprintPlacement) : Canonical r.toJson := by
  refine Json.canonical_object (by simp) ?_
  simp [Json.canonical_str, Json.canonical_int, Json.canonical_bool, PointNm.canonical]

theorem Track.canonical (r : Track) : Canonical r.toJson := by
  refine Json.canonical_object (by simp) ?_
  simp [Json.canonical_str, Json.canonical_int, Json.canonical_bool, PointNm.canonical]

theorem FootprintPad.canonical (r : FootprintPad) : Canonical r.toJson := by
  refine Json.canonical_object (by simp) ?_
  simp [Json.canonical_str, Json.canonical_int, Json.canonical_bool, PointNm.canonical,
    canonical_texts, canonical_optional Json.canonical_str]

theorem FootprintHole.canonical (r : FootprintHole) : Canonical r.toJson := by
  refine Json.canonical_object (by simp) ?_
  simp [Json.canonical_str, Json.canonical_int, Json.canonical_bool, PointNm.canonical,
    canonical_optional Json.canonical_str]

theorem Via.canonical (r : Via) : Canonical r.toJson := by
  refine Json.canonical_object (by simp) ?_
  simp [Json.canonical_str, Json.canonical_int, Json.canonical_bool, PointNm.canonical,
    canonical_texts]

theorem ZoneFillEvidence.canonical (r : ZoneFillEvidence) : Canonical r.toJson := by
  refine Json.canonical_object (by simp) ?_
  simp [Json.canonical_str]

end

theorem CopperZone.canonical (r : CopperZone) : Canonical r.toJson := by
  refine Json.canonical_object (by simp) ?_
  simp [Json.canonical_str, Json.canonical_int, Json.canonical_bool, canonical_map
    PointNm.canonical, canonical_optional fun e : Checked ZoneFillEvidence.postInit =>
    ZoneFillEvidence.canonical e.val]

omit [UnicodeData] [Hashing] in
theorem SchematicWire.canonical (r : SchematicWire) : Canonical r.toJson := by
  refine Json.canonical_object (by simp) ?_
  simp [Json.canonical_str, Json.canonical_bool, canonical_map PointNm.canonical]

omit [UnicodeData] [Hashing] in
theorem SchematicJunction.canonical (r : SchematicJunction) : Canonical r.toJson := by
  refine Json.canonical_object (by simp) ?_
  simp [Json.canonical_str, Json.canonical_bool, PointNm.canonical]

theorem graphJson_canonical (g : DesignGraph) {pads holes : List Json}
    (hpads : ∀ item ∈ pads, Canonical item) (hholes : ∀ item ∈ holes, Canonical item) :
    Canonical (graphJson g pads holes) := by
  refine Json.canonical_object (by simp) ?_
  simp only [List.forall_mem_cons, List.not_mem_nil, IsEmpty.forall_iff, implies_true, and_true]
  have hcomponents := canonical_map (fun r : Checked Component.postInit =>
    Component.canonical r.val) g.components
  have hnets := canonical_map (fun r : Checked Net.postInit => Net.canonical r.val) g.nets
  have hplacements := canonical_map (fun r : Checked FootprintPlacement.postInit =>
    FootprintPlacement.canonical r.val) g.placements
  have htracks := canonical_map (fun r : Checked Track.postInit => Track.canonical r.val) g.tracks
  have hvias := canonical_map (fun r : Checked Via.postInit => Via.canonical r.val) g.vias
  have hzones := canonical_map (fun r : Checked CopperZone.postInit => CopperZone.canonical r.val)
    g.zones
  have hwires := canonical_map (fun r : Checked SchematicWire.postInit =>
    SchematicWire.canonical r.val) g.schematicWires
  have hjunctions := canonical_map (fun r : Checked SchematicJunction.postInit =>
    SchematicJunction.canonical r.val) g.schematicJunctions
  exact ⟨Json.canonical_int _, Json.canonical_str _, canonical_texts _,
    canonical_map PointNm.canonical _, hcomponents, hnets, hplacements, htracks,
    Json.canonical_arr.mpr hpads, Json.canonical_arr.mpr hholes, hvias, hzones, hwires, hjunctions⟩

theorem command_canonical (c : Command) : Canonical (commandPayload c) := by
  refine Json.canonical_object (by simp) ?_
  simp [Json.canonical_str]

theorem revisionJson_canonical (r : DesignRevision) {graph : Json} (h : Canonical graph) :
    Canonical (revisionJson r graph) := by
  refine Json.canonical_object (by simp) ?_
  simp [Json.canonical_str, Json.canonical_int, canonical_texts,
    canonical_optional Json.canonical_str, h]

theorem transactionJson_canonical (t : DesignTransaction) {graph : Json} (h : Canonical graph) :
    Canonical (transactionJson t graph) := by
  refine Json.canonical_object (by simp) ?_
  simp [Json.canonical_str, Json.canonical_bool, canonical_map command_canonical,
    canonical_optional Json.canonical_str, h]

omit [Hashing] in
theorem approval_canonical (a : Approval) : Canonical (approvalPayload a) := by
  refine Json.canonical_object (by simp) ?_
  simp [Json.canonical_str, canonical_optional Json.canonical_str]

omit [Hashing] in
theorem attestation_canonical (a : Attestation) : Canonical (attestationPayload a) := by
  have htime : ∀ time : DateTime, Canonical (.str (canonicalTimeText time)) :=
    fun _ => Json.canonical_str _
  refine Json.canonical_object (by simp) ?_
  simp [Json.canonical_str, Json.canonical_int, Json.canonical_bool, canonical_texts,
    canonical_optional htime]

end Canonical

/-! ### Documents -/

variable {value : Json}

variable {body : String}

section Documents

theorem dumps_eq (h : Canonical value) : value.dumps = String.ofList value.render := by
  rw [Json.dumps, h.1]

theorem envelope_canonical {kind : String} {payload : Json} (h : Canonical payload) :
    Canonical (envelope kind payload) := by
  refine Json.canonical_object (by simp) ?_
  simp [Json.canonical_str, Json.canonical_int, h]

theorem decodeJson_ok {members : Members} :
    decodeJson body = .ok members ↔
      Canonical (.obj members) ∧ (Json.obj members).dumps = body := by
  rw [show decodeJson body = .ok members ↔ _ from Json.loadMembers_ok]
  refine and_congr_right fun h => ?_
  rw [dumps_eq h]

theorem decodeDocument_ok {body kind : String} {payload : Json} :
    decodeDocument body kind = .ok payload ↔
      Canonical payload ∧ (∃ members, payload = .obj members) ∧
        (envelope kind payload).dumps = body := by
  unfold decodeDocument
  simp only [bind_ok, exists_unit, require_ok, pure_ok, decodeJson_ok,
    member_ok, expectStr_ok, expectInt_ok, expectObject_ok]
  constructor
  · rintro ⟨members, ⟨hcanonical, rfl⟩, hkeys, _, hkind, kind, rfl, rfl, _, hversion, _, rfl, rfl,
      _, hpayload, inner, rfl, rfl⟩
    refine ⟨canonical_get? hcanonical hpayload, ⟨inner, rfl⟩, ?_⟩
    have henvelope : Json.obj members = envelope kind (.obj inner) := by
      unfold envelope
      rw [record_iff hcanonical rfl (by simp) "document envelope"]
      simp only [List.forall_mem_cons, List.not_mem_nil, IsEmpty.forall_iff, implies_true, and_true]
      exact ⟨hkeys, hkind, hpayload, hversion⟩
    rw [henvelope]
  · rintro ⟨hcanonical, ⟨inner, rfl⟩, rfl⟩
    have henvelope := @envelope_canonical kind _ hcanonical
    have hrecord := (record_iff henvelope rfl (by simp) "document envelope").mp (Eq.refl _)
    simp only [List.forall_mem_cons, List.not_mem_nil, IsEmpty.forall_iff, implies_true, and_true]
      at hrecord
    obtain ⟨hkeys, hkind, hpayload, hversion⟩ := hrecord
    exact ⟨_, ⟨henvelope, rfl⟩, hkeys, _, hkind, _, rfl, rfl, _, hversion, _, rfl, rfl, _, hpayload,
      _, rfl, rfl⟩

theorem loads_dumps (h : Canonical value) : Json.loads value.dumps = some value := by
  rw [dumps_eq h]
  exact Json.loads_render h.2

def memberOf (value : Json) (key : String) : Option Json :=
  match value with
  | .obj members => Json.get? members key
  | _ => none

theorem memberOf_object {fields : Members} {key : String}
    (hnodup : (fields.map Prod.fst).Nodup) (hmem : (key, value) ∈ fields) :
    memberOf (Json.object fields) key = some value := by
  have hperm := List.perm_insertionSort (fun a b : String × Json => a.1 ≤ b.1) fields
  refine (Json.get?_eq_some_iff ?_).mpr (hperm.mem_iff.mpr hmem)
  exact (hperm.map Prod.fst).nodup_iff.mpr hnodup

end Documents

/-! ### Writing and reading -/

section RoundTrips

/-- What is written of a record reads back as the record. -/
def RoundTrips {α : Type} (encode : α → Except StoreFailure (String × String))
    (decode : String → Except StoreFailure α) (a : α) : Prop :=
  ∃ body digest, encode a = .ok (body, digest) ∧ decode body = .ok a

/-- Of the documents meant, one that is read has the text its record is written as, so that no two
of them denote one record. -/
def TextsKept [Hashing] {α : Type} (encode : α → Except StoreFailure (String × String))
    (decode : String → Except StoreFailure α) (meant : String → Prop) : Prop :=
  (∀ body a, meant body → decode body = .ok a → encode a = .ok (body, bodySha256 body)) ∧
  ∀ body body' a, meant body → meant body' → decode body = .ok a → decode body' = .ok a →
    body = body'

theorem textsKept_of [Hashing] {α : Type} {encode : α → Except StoreFailure (String × String)}
    {decode : String → Except StoreFailure α} {meant : String → Prop}
    (h : ∀ body a, meant body → decode body = .ok a → encode a = .ok (body, bodySha256 body)) :
    TextsKept encode decode meant := by
  refine ⟨h, ?_⟩
  intro body body' a hmeant hmeant' hbody hbody'
  have hboth := (h body a hmeant hbody).symm.trans (h body' a hmeant' hbody')
  exact congrArg Prod.fst (Except.ok.inj hboth)

/-- The entries under a key of the graph that a document holds in its payload. -/
def graphEntries (body graphKey key : String) : List Json :=
  let found := do
    let document ← Json.loads body
    let payload ← memberOf document "payload"
    let graph ← memberOf payload graphKey
    memberOf graph key
  match found with
  | some (.arr items) => items
  | _ => []

/-- The pads and holes of a document leave no drill dimension to be filled in. -/
def DrillsStated (graphKey body : String) : Prop :=
  (∀ raw : FootprintPad, raw.toJson ∈ graphEntries body graphKey "pads" → raw.fillDrill = raw) ∧
  ∀ raw : FootprintHole, raw.toJson ∈ graphEntries body graphKey "holes" → raw.fillDrill = raw

variable [UnicodeData] [Hashing]

omit [Hashing] in
theorem padSource_stated {p : Checked FootprintPad.postInit}
    (hsource : padSource value p)
    (hstated : ∀ raw : FootprintPad, raw.toJson = value → raw.fillDrill = raw) :
    value = p.val.toJson := by
  obtain ⟨raw, rfl, hraw⟩ := hsource
  unfold FootprintPad.postInit at hraw
  simp only [bind_ok, exists_unit, pure_ok] at hraw
  rw [← hraw.2, hstated raw rfl]

omit [Hashing] in
theorem holeSource_stated {h : Checked FootprintHole.postInit}
    (hsource : holeSource value h)
    (hstated : ∀ raw : FootprintHole, raw.toJson = value → raw.fillDrill = raw) :
    value = h.val.toJson := by
  obtain ⟨raw, rfl, hraw⟩ := hsource
  unfold FootprintHole.postInit at hraw
  simp only [bind_ok, exists_unit, pure_ok] at hraw
  rw [← hraw.2, hstated raw rfl]

omit [UnicodeData] [Hashing] in
theorem forall₂_eq_map_of {α : Type} {source : Json → α → Prop} {encode : α → Json}
    {items : List Json} {as : List α} (h : List.Forall₂ source items as)
    (hstated : ∀ item a, item ∈ items → source item a → item = encode a) :
    items = as.map encode := by
  induction h with
  | nil => rfl
  | cons hitem _ ih =>
      rw [List.map_cons, ← hstated _ _ (List.mem_cons_self ..) hitem,
        ← ih fun item a hmem => hstated item a (List.mem_cons_of_mem _ hmem)]

omit [UnicodeData] [Hashing] in
theorem forall₂_canonical {α : Type} {source : Json → α → Prop} {items : List Json} {as : List α}
    (h : List.Forall₂ source items as) (hsource : ∀ item a, source item a → Canonical item) :
    ∀ item ∈ items, Canonical item := by
  induction h with
  | nil => simp
  | cons hitem _ ih => exact List.forall_mem_cons.mpr ⟨hsource _ _ hitem, ih⟩

theorem graphSource_self (g : DesignGraph) : graphSource g.toJson g := by
  refine ⟨_, _, ?_, ?_, toJson_eq_graphJson g⟩
  · rw [List.forall₂_map_left_iff]
    exact List.forall₂_same.mpr fun p _ => ⟨p.val, rfl, p.accepted⟩
  · rw [List.forall₂_map_left_iff]
    exact List.forall₂_same.mpr fun h _ => ⟨h.val, rfl, h.accepted⟩

theorem graphSource_canonical {g : DesignGraph} (h : graphSource value g) :
    Canonical value := by
  obtain ⟨pads, holes, hpads, hholes, rfl⟩ := h
  refine graphJson_canonical g (forall₂_canonical hpads ?_) (forall₂_canonical hholes ?_)
  · rintro _ p ⟨raw, rfl, -⟩
    exact FootprintPad.canonical raw
  · rintro _ h ⟨raw, rfl, -⟩
    exact FootprintHole.canonical raw

/-- A graph that can be stored is valid and in normal form. -/
def StorableGraph (g : DesignGraph) : Prop := validateGraph g = .ok () ∧ g.normalized = .ok g

/-- A graph is written if it is valid and in normal form. -/
theorem graphPayload_ok {g : DesignGraph} :
    graphPayload g = .ok value ↔
      StorableGraph g ∧ value = g.toJson := by
  unfold graphPayload StorableGraph
  simp only [bind_ok, exists_unit, fromKernel_ok, require_ok,
    pure_ok]
  constructor
  · rintro ⟨normalized, hnormal, hvalid, rfl, rfl⟩
    exact ⟨⟨hvalid, hnormal⟩, rfl⟩
  · rintro ⟨⟨hvalid, hnormal⟩, rfl⟩
    exact ⟨g, hnormal, hvalid, rfl, rfl⟩

omit [UnicodeData] [Hashing] in
theorem graphEntries_eq {kind graphKey key : String} {payload graph : Json} {items : List Json}
    (hpayload : Canonical payload) (hgraph : memberOf payload graphKey = some graph)
    (hitems : memberOf graph key = some (.arr items)) :
    graphEntries (envelope kind payload).dumps graphKey key = items := by
  have hloads := loads_dumps (@envelope_canonical kind _ hpayload)
  have hinner : memberOf (envelope kind payload) "payload" = some payload :=
    memberOf_object (by simp) (by simp)
  simp only [graphEntries, hloads, hinner, hgraph, hitems, Option.bind_eq_bind, Option.bind_some]

theorem graphJson_pads (g : DesignGraph) (pads holes : List Json) :
    memberOf (graphJson g pads holes) "pads" = some (.arr pads) :=
  memberOf_object (by simp) (by simp)

theorem graphJson_holes (g : DesignGraph) (pads holes : List Json) :
    memberOf (graphJson g pads holes) "holes" = some (.arr holes) :=
  memberOf_object (by simp) (by simp)

/-- What a graph is read from is its JSON, if its pads and holes state their drills. -/
theorem graphSource_stated {kind graphKey : String} {payload value : Json} {g : DesignGraph}
    (hpayload : Canonical payload) (hmember : memberOf payload graphKey = some value)
    (hsource : graphSource value g)
    (hstated : DrillsStated graphKey (envelope kind payload).dumps) : value = g.toJson := by
  obtain ⟨pads, holes, hpads, hholes, rfl⟩ := hsource
  have hpadItems := @graphEntries_eq kind _ _ _ _ _ hpayload hmember (graphJson_pads g pads holes)
  have hholeItems := @graphEntries_eq kind _ _ _ _ _ hpayload hmember (graphJson_holes g pads holes)
  obtain ⟨hstatedPads, hstatedHoles⟩ := hstated
  rw [hpadItems] at hstatedPads
  rw [hholeItems] at hstatedHoles
  have hpadsEq : pads = g.pads.map (·.val.toJson) := forall₂_eq_map_of hpads
    fun item p hmem hpad => padSource_stated hpad fun raw hraw => hstatedPads raw (hraw ▸ hmem)
  have hholesEq : holes = g.holes.map (·.val.toJson) := forall₂_eq_map_of hholes
    fun item h hmem hhole => holeSource_stated hhole fun raw hraw => hstatedHoles raw (hraw ▸ hmem)
  rw [toJson_eq_graphJson, hpadsEq, hholesEq]

theorem decodeRevision_ok {r : Revision} :
    decodeRevision body = .ok r ↔
      (∃ graph, graphSource graph r.val.graph ∧
        (envelope "design-revision" (revisionJson r.val graph)).dumps = body) ∧
      StorableGraph r.val.graph ∧ r.val.revisionHash = revisionHashFor r.val := by
  unfold decodeRevision StorableGraph
  simp only [bind_ok, decodeDocument_ok]
  constructor
  · rintro ⟨payload, ⟨hcanonical, -, rfl⟩, hread⟩
    obtain ⟨⟨graph, hsource, rfl⟩, hvalid, hnormal, hhash⟩ :=
      (revisionFromPayload_ok hcanonical).mp hread
    exact ⟨⟨graph, hsource, rfl⟩, ⟨hvalid, hnormal⟩, hhash⟩
  · rintro ⟨⟨graph, hsource, rfl⟩, ⟨hvalid, hnormal⟩, hhash⟩
    have hcanonical := revisionJson_canonical r.val (graphSource_canonical hsource)
    exact ⟨_, ⟨hcanonical, ⟨_, rfl⟩, rfl⟩,
      (revisionFromPayload_ok hcanonical).mpr ⟨⟨graph, hsource, rfl⟩, hvalid, hnormal, hhash⟩⟩

theorem encodeRevision_ok {r : Revision} {body digest : String} :
    encodeRevision r = .ok (body, digest) ↔ StorableGraph r.val.graph ∧
      body = (envelope "design-revision" (revisionJson r.val r.val.graph.toJson)).dumps ∧
      digest = bodySha256 body := by
  unfold encodeRevision revisionPayload encodeDocument
  simp only [bind_ok, graphPayload_ok, pure_ok, Prod.mk.injEq]
  constructor
  · rintro ⟨_, ⟨_, ⟨hstorable, rfl⟩, rfl⟩, rfl, rfl⟩
    exact ⟨hstorable, rfl, rfl⟩
  · rintro ⟨hstorable, rfl, rfl⟩
    exact ⟨_, ⟨_, ⟨hstorable, rfl⟩, rfl⟩, rfl, rfl⟩

theorem revision_roundTrips (r : Revision) : RoundTrips encodeRevision decodeRevision r ↔
    StorableGraph r.val.graph ∧ r.val.revisionHash = revisionHashFor r.val := by
  unfold RoundTrips
  simp only [encodeRevision_ok, decodeRevision_ok]
  constructor
  · rintro ⟨body, digest, -, -, hstored⟩
    exact hstored
  · rintro ⟨hstorable, hhash⟩
    exact ⟨_, _, ⟨hstorable, rfl, rfl⟩, ⟨_, graphSource_self _, rfl⟩, hstorable, hhash⟩

theorem revision_textsKept : TextsKept encodeRevision decodeRevision (DrillsStated "graph") := by
  refine textsKept_of ?_
  intro body r hstated hread
  obtain ⟨⟨graph, hsource, rfl⟩, hstorable, -⟩ := decodeRevision_ok.mp hread
  have hpayload := revisionJson_canonical r.val (graphSource_canonical hsource)
  have hmember : memberOf (revisionJson r.val graph) "graph" = some graph :=
    memberOf_object (by simp) (by simp)
  rw [graphSource_stated hpayload hmember hsource hstated, encodeRevision_ok]
  exact ⟨hstorable, rfl, rfl⟩

theorem decodeTransaction_ok {t : Transaction} :
    decodeTransaction body = .ok t ↔
      (∃ graph, graphSource graph t.val.stagedGraph ∧
        (envelope "design-transaction" (transactionJson t.val graph)).dumps = body) ∧
      (∀ c ∈ t.val.commands, CanonicalPayload c) ∧ StorableGraph t.val.stagedGraph := by
  unfold decodeTransaction StorableGraph
  simp only [bind_ok, decodeDocument_ok]
  constructor
  · rintro ⟨payload, ⟨hcanonical, -, rfl⟩, hread⟩
    obtain ⟨⟨graph, hsource, rfl⟩, hcommands, hvalid, hnormal⟩ :=
      (transactionFromPayload_ok hcanonical).mp hread
    exact ⟨⟨graph, hsource, rfl⟩, hcommands, hvalid, hnormal⟩
  · rintro ⟨⟨graph, hsource, rfl⟩, hcommands, hstorable⟩
    have hcanonical := transactionJson_canonical t.val (graphSource_canonical hsource)
    exact ⟨_, ⟨hcanonical, ⟨_, rfl⟩, rfl⟩,
      (transactionFromPayload_ok hcanonical).mpr ⟨⟨graph, hsource, rfl⟩, hcommands, hstorable⟩⟩

theorem encodeTransaction_ok {t : Transaction} {body digest : String} :
    encodeTransaction t = .ok (body, digest) ↔ StorableGraph t.val.stagedGraph ∧
      body = (envelope "design-transaction"
        (transactionJson t.val t.val.stagedGraph.toJson)).dumps ∧
      digest = bodySha256 body := by
  unfold encodeTransaction transactionPayload encodeDocument
  simp only [bind_ok, graphPayload_ok, pure_ok, Prod.mk.injEq]
  constructor
  · rintro ⟨_, ⟨_, ⟨hstorable, rfl⟩, rfl⟩, rfl, rfl⟩
    exact ⟨hstorable, rfl, rfl⟩
  · rintro ⟨hstorable, rfl, rfl⟩
    exact ⟨_, ⟨_, ⟨hstorable, rfl⟩, rfl⟩, rfl, rfl⟩

theorem transaction_roundTrips {t : Transaction}
    (hcommands : ∀ c ∈ t.val.commands, CanonicalPayload c) :
    RoundTrips encodeTransaction decodeTransaction t ↔ StorableGraph t.val.stagedGraph := by
  unfold RoundTrips
  simp only [encodeTransaction_ok, decodeTransaction_ok]
  constructor
  · rintro ⟨body, digest, ⟨hstorable, -, -⟩, -⟩
    exact hstorable
  · intro hstorable
    exact ⟨_, _, ⟨hstorable, rfl, rfl⟩, ⟨_, graphSource_self _, rfl⟩, hcommands, hstorable⟩

theorem transactionJson_graph (t : DesignTransaction) (graph : Json) :
    memberOf (transactionJson t graph) "staged_graph" = some graph :=
  memberOf_object (by simp) (by simp)

theorem transaction_textsKept :
    TextsKept encodeTransaction decodeTransaction (DrillsStated "staged_graph") := by
  refine textsKept_of ?_
  intro body t hstated hread
  obtain ⟨⟨graph, hsource, rfl⟩, -, hstorable⟩ := decodeTransaction_ok.mp hread
  have hpayload := transactionJson_canonical t.val (graphSource_canonical hsource)
  have hmember := transactionJson_graph t.val graph
  rw [graphSource_stated hpayload hmember hsource hstated, encodeTransaction_ok]
  exact ⟨hstorable, rfl, rfl⟩

omit [Hashing] in
theorem decodeApproval_ok {a : Approval} :
    decodeApproval body = .ok a ↔
      (envelope "approval-evidence" (approvalPayload a)).dumps = body := by
  unfold decodeApproval
  simp only [bind_ok, decodeDocument_ok]
  constructor
  · rintro ⟨payload, ⟨hcanonical, -, rfl⟩, hread⟩
    rw [(approvalFromPayload_ok hcanonical).mp hread]
  · rintro rfl
    exact ⟨_, ⟨approval_canonical a, ⟨_, rfl⟩, rfl⟩,
      (approvalFromPayload_ok (approval_canonical a)).mpr rfl⟩

theorem approval_roundTrips (a : Approval) : RoundTrips encodeApproval decodeApproval a :=
  ⟨_, _, rfl, decodeApproval_ok.mpr rfl⟩

theorem approval_textsKept : TextsKept encodeApproval decodeApproval (fun _ => True) := by
  refine textsKept_of ?_
  intro body a _ hread
  rw [← decodeApproval_ok.mp hread]
  rfl

omit [Hashing] in
theorem decodeAttestation_ok {a : Attestation} :
    decodeAttestation body = .ok a ↔
      (envelope "durable-commit-attestation" (attestationPayload a)).dumps = body := by
  unfold decodeAttestation
  simp only [bind_ok, decodeDocument_ok]
  constructor
  · rintro ⟨payload, ⟨hcanonical, -, rfl⟩, hread⟩
    rw [(attestationFromPayload_ok hcanonical).mp hread]
  · rintro rfl
    exact ⟨_, ⟨attestation_canonical a, ⟨_, rfl⟩, rfl⟩,
      (attestationFromPayload_ok (attestation_canonical a)).mpr rfl⟩

theorem attestation_roundTrips (a : Attestation) :
    RoundTrips encodeAttestation decodeAttestation a :=
  ⟨_, _, rfl, decodeAttestation_ok.mpr rfl⟩

theorem attestation_textsKept :
    TextsKept encodeAttestation decodeAttestation (fun _ => True) := by
  refine textsKept_of ?_
  intro body a _ hread
  rw [← decodeAttestation_ok.mp hread]
  rfl

/-- **The stored documents are lossless.**  A revision reads back as it was written exactly when its
graph can be stored and its hash is the one of its contents, a transaction exactly when its staged
graph can be stored, and approvals and attestations always.  And a document that is read has the
text its record is written as: always of an approval or an attestation, and of a revision or a
transaction when its pads and holes state their drills. -/
theorem documents_lossless :
    (∀ r : Revision, RoundTrips encodeRevision decodeRevision r ↔
      StorableGraph r.val.graph ∧ r.val.revisionHash = revisionHashFor r.val) ∧
    (∀ t : Transaction, (∀ c ∈ t.val.commands, CanonicalPayload c) →
      (RoundTrips encodeTransaction decodeTransaction t ↔ StorableGraph t.val.stagedGraph)) ∧
    (∀ a : Approval, RoundTrips encodeApproval decodeApproval a) ∧
    (∀ a : Attestation, RoundTrips encodeAttestation decodeAttestation a) ∧
    TextsKept encodeRevision decodeRevision (DrillsStated "graph") ∧
    TextsKept encodeTransaction decodeTransaction (DrillsStated "staged_graph") ∧
    TextsKept encodeApproval decodeApproval (fun _ => True) ∧
    TextsKept encodeAttestation decodeAttestation (fun _ => True) :=
  ⟨revision_roundTrips, fun _ => transaction_roundTrips, approval_roundTrips,
    attestation_roundTrips, revision_textsKept, transaction_textsKept, approval_textsKept,
    attestation_textsKept⟩

end RoundTrips

/-! ### A transaction with a command -/

section NetDocuments

attribute [local instance] asciiData

theorem netGraph_storable [Hashing] : StorableGraph netGraph := ⟨netGraph_valid, netGraph_normalized⟩

theorem netCommand_payload : CanonicalPayload netCommand :=
  ⟨rfl, by simp [netCommand, Json.Unique, Json.UniqueMembers]⟩

attribute [local instance] netHashing

theorem documents_lossless_net : RoundTrips encodeTransaction decodeTransaction checkedNet := by
  refine (documents_lossless.2.1 checkedNet fun c hc => ?_).mpr netGraph_storable
  rw [List.mem_singleton.mp hc]
  exact netCommand_payload

end NetDocuments

/-! ### A hole that leaves its drill to be filled in -/

section HoleDocuments

attribute [local instance] asciiData netHashing

/-- A transaction, opened on a board with one mounting hole. -/
def holeTransaction (hole : Checked FootprintHole.postInit) : Transaction where
  val := { transactionId := "t1", baseRevision := plainDigest 'a', stagedGraph := holeGraph hole }
  accepted := by
    have hid : requireId "t1" "transaction ID" = .ok () := by decide +kernel
    have hbase : requireSha256 (plainDigest 'a') "transaction base revision" = .ok () := by
      decide +kernel
    simp [checking, DesignTransaction.checks, hid, hbase, bind_ok, requireWhen, require]

theorem holeTransaction_commands (hole : Checked FootprintHole.postInit) :
    ∀ c ∈ (holeTransaction hole).val.commands, CanonicalPayload c := by
  intro c hc
  cases hc

/-- The hole with its drill left out. -/
def legacyHole : FootprintHole := { roundHole 0 with drillX := 0, drillY := 0 }

/-- The document of a transaction on the board, with the hole written as given. -/
def holeDocument (hole : FootprintHole) : String :=
  (envelope "design-transaction" (transactionJson (holeTransaction uprightHole).val
    (graphJson (holeGraph uprightHole) [] [hole.toJson]))).dumps

theorem holeGraph_storable : StorableGraph (holeGraph uprightHole) := by
  refine ⟨holeGraph_valid.1, ?_⟩
  rw [normalized_eq_normalForm]
  rfl

theorem holeDocument_read {hole : FootprintHole} (hhole : hole.postInit = .ok (roundHole 0)) :
    decodeTransaction (holeDocument hole) = .ok (holeTransaction uprightHole) := by
  rw [decodeTransaction_ok]
  have hsource : graphSource (graphJson (holeGraph uprightHole) [] [hole.toJson])
      (holeGraph uprightHole) :=
    ⟨[], [hole.toJson], List.Forall₂.nil, List.Forall₂.cons ⟨hole, rfl, hhole⟩ List.Forall₂.nil, rfl⟩
  exact ⟨⟨_, hsource, rfl⟩, holeTransaction_commands uprightHole, holeGraph_storable⟩

theorem holeDocument_injective {hole hole' : FootprintHole}
    (h : holeDocument hole = holeDocument hole') : hole.toJson = hole'.toJson := by
  have hentries : ∀ hole : FootprintHole,
      graphEntries (holeDocument hole) "staged_graph" "holes" = [hole.toJson] := by
    intro hole
    refine graphEntries_eq (transactionJson_canonical _ ?_) (transactionJson_graph _ _)
      (graphJson_holes _ _ _)
    refine graphJson_canonical _ (by simp) ?_
    simp [FootprintHole.canonical]
  have hboth := hentries hole
  rw [h, hentries hole'] at hboth
  exact (List.cons.inj hboth).1.symm

/-- A transaction on a board that is not in normal form is refused by the encoder, and two texts
denote one transaction when a hole may leave its drill out. -/
theorem hole_documents_not_kept :
    (∃ t : Transaction, (∀ c ∈ t.val.commands, CanonicalPayload c) ∧
      ¬ RoundTrips encodeTransaction decodeTransaction t) ∧
    ∃ body body' t, body ≠ body' ∧ decodeTransaction body = .ok t ∧
      decodeTransaction body' = .ok t ∧ encodeTransaction t = .ok (body', bodySha256 body') := by
  constructor
  · refine ⟨holeTransaction turnedHole, holeTransaction_commands turnedHole, ?_⟩
    rw [transaction_roundTrips (holeTransaction_commands turnedHole)]
    rintro ⟨-, hnormal⟩
    rw [normalized_eq_normalForm, Except.ok.injEq] at hnormal
    change (holeGraph turnedHole).normalForm = holeGraph turnedHole at hnormal
    have hholes : ((holeGraph turnedHole).normalForm.holes.map (·.val.drillRotationUdeg)) =
        [180000000] := by
      rw [hnormal]
      rfl
    exact absurd hholes (by decide +kernel)
  · refine ⟨holeDocument legacyHole, holeDocument (roundHole 0), holeTransaction uprightHole, ?_,
      holeDocument_read (by decide +kernel), holeDocument_read (by decide +kernel), ?_⟩
    · intro hsame
      have hjson := congrArg (memberOf · "drill_x_nm") (holeDocument_injective hsame)
      have hdrill : ∀ hole : FootprintHole,
          memberOf hole.toJson "drill_x_nm" = some (.int hole.drillX) :=
        fun hole => memberOf_object (by simp) (by simp)
      rw [hdrill, hdrill] at hjson
      exact absurd hjson (by decide)
    · exact encodeTransaction_ok.mpr ⟨holeGraph_storable, rfl, rfl⟩

end HoleDocuments

end Evleda.ProjectStore
