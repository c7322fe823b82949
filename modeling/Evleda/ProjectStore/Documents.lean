/-
What the store's documents denote.

One lemma per decoder says exactly which canonical values it accepts and as what.
For most records that is the record's own JSON; a pad and a hole may leave out a
dimension of their drill that the constructor fills in.  Both directions of the
round trip are read off these lemmas: a record decodes from what it is encoded
as, and what decodes to a record is what the record is encoded as, up to the
drills.
-/
import Evleda.ProjectStore.Codec

namespace Evleda.ProjectStore

open Kernel Outcome
open Json (Canonical)

/-! ### Reading values and members -/

variable {value : Json}

section Reading

variable {α : Type}

/-- The canonical values a reader accepts, and as what it reads them. -/
def Reads (read : Json → String → Except StoreFailure α) (denotes : Json → α → Prop) : Prop :=
  ∀ value label a, Canonical value → (read value label = .ok a ↔ denotes value a)

/-- The canonical objects a decoder accepts, and as what it reads them. -/
def Decodes (decoder : Members → String → Except StoreFailure α) (denotes : Json → α → Prop) :
    Prop :=
  ∀ members label a, Canonical (.obj members) →
    (decoder members label = .ok a ↔ denotes (.obj members) a)

theorem expectObject_ok {label : String} {members : Members} :
    expectObject value label = .ok members ↔ value = .obj members := by
  cases value <;> simp [expectObject]

theorem expectList_ok {label : String} {items : List Json} :
    expectList value label = .ok items ↔ value = .arr items := by
  cases value <;> simp [expectList]

theorem expectStr_ok {label text : String} :
    expectStr value label = .ok text ↔ value = .str text := by
  cases value <;> simp [expectStr]

theorem expectOptionalStr_ok {label : String} {text : Option String} :
    expectOptionalStr value label = .ok text ↔ value = optionalJson .str text := by
  cases value <;> cases text <;> simp [expectOptionalStr, optionalJson]

theorem expectInt_ok {label : String} {n : Int} :
    expectInt value label = .ok n ↔ value = .int n := by
  cases value <;> simp [expectInt]

theorem expectBool_ok {label : String} {b : Bool} :
    expectBool value label = .ok b ↔ value = .bool b := by
  cases value <;> simp [expectBool]

theorem expectKeys_ok {members : Members} {expected : List String} {label : String} {u : Unit} :
    expectKeys members expected label = .ok u ↔
      ∀ key, key ∈ members.map Prod.fst ↔ key ∈ expected := by
  unfold expectKeys
  rw [require_ok]
  constructor
  · intro h key
    constructor
    · intro hkey
      exact (h key (List.mem_append_left _ hkey)).2
    · intro hkey
      exact (h key (List.mem_append_right _ hkey)).1
  · intro h key hkey
    rcases List.mem_append.mp hkey with hkey | hkey
    · exact ⟨hkey, (h key).mp hkey⟩
    · exact ⟨(h key).mpr hkey, hkey⟩

theorem member_ok {members : Members} {key : String} :
    member members key = .ok value ↔ Json.get? members key = some value := by
  unfold member
  split <;> simp_all

theorem canonical_get? {members : Members} (h : Canonical (.obj members)) {key : String}
    (hget : Json.get? members key = some value) : Canonical value := by
  obtain ⟨hnodup, -, hvalues⟩ := Json.canonical_obj h
  exact hvalues _ ((Json.get?_eq_some_iff hnodup).mp hget)

variable {read : Json → String → Except StoreFailure α}

theorem field_ok {denotes : Json → α → Prop}
    (hread : Reads read denotes) {members : Members} (h : Canonical (.obj members))
    {label key : String} {a : α} :
    field read members label key = .ok a ↔
      ∃ value, Json.get? members key = some value ∧ denotes value a := by
  unfold field
  simp only [bind_ok, member_ok]
  constructor
  · rintro ⟨value, hget, hvalue⟩
    exact ⟨value, hget, (hread value _ a (canonical_get? h hget)).mp hvalue⟩
  · rintro ⟨value, hget, hvalue⟩
    exact ⟨value, hget, (hread value _ a (canonical_get? h hget)).mpr hvalue⟩

theorem field_eq {encode : α → Json}
    (hread : Reads read (fun value a => value = encode a)) {members : Members}
    (h : Canonical (.obj members)) {label key : String} {a : α} :
    field read members label key = .ok a ↔ Json.get? members key = some (encode a) := by
  rw [field_ok hread h]
  constructor
  · rintro ⟨value, hget, rfl⟩
    exact hget
  · intro hget
    exact ⟨_, hget, rfl⟩

section Primitive

variable {members : Members} {label key : String}

theorem strField_ok {text : String} :
    strField members label key = .ok text ↔ Json.get? members key = some (.str text) := by
  simp [strField, field, bind_ok, member_ok, expectStr_ok]

theorem optionalStrField_ok {text : Option String} :
    optionalStrField members label key = .ok text ↔
      Json.get? members key = some (optionalJson .str text) := by
  simp [optionalStrField, field, bind_ok, member_ok, expectOptionalStr_ok]

theorem intField_ok {n : Int} :
    intField members label key = .ok n ↔ Json.get? members key = some (.int n) := by
  simp [intField, field, bind_ok, member_ok, expectInt_ok]

theorem boolField_ok {b : Bool} :
    boolField members label key = .ok b ↔ Json.get? members key = some (.bool b) := by
  simp [boolField, field, bind_ok, member_ok, expectBool_ok]

end Primitive

theorem forall₂_eq_map {β : Type} {f : β → α} {as : List α} {bs : List β} :
    List.Forall₂ (fun a b => a = f b) as bs ↔ as = bs.map f := by
  rw [← List.forall₂_map_right_iff (R := Eq), List.forall₂_eq_eq_eq]

theorem strings_reads : Reads strings (fun value texts => value = textsJson texts) := by
  intro value label texts _
  unfold strings
  simp only [bind_ok, expectList_ok, mapM_ok, expectStr_ok, forall₂_eq_map]
  constructor
  · rintro ⟨items, rfl, rfl⟩
    rfl
  · rintro rfl
    exact ⟨_, rfl, rfl⟩

theorem entries_reads {denotes : Json → α → Prop}
    (hread : Reads read denotes) : Reads (entries read) (fun value as =>
      ∃ items, value = .arr items ∧ List.Forall₂ denotes items as) := by
  intro value label as hcanonical
  unfold entries
  simp only [bind_ok, expectList_ok, mapM_ok]
  refine exists_congr fun items => and_congr_right ?_
  rintro rfl
  have hitems := Json.canonical_arr.mp hcanonical
  -- the index only goes into the label
  have hindexed : ∀ (items : List Json) (n : Nat) (as : List α),
      (∀ item ∈ items, Canonical item) →
      (List.Forall₂ (fun (entry : Json × Nat) a =>
        read entry.1 (label ++ "[" ++ toString entry.2 ++ "]") = .ok a) (items.zipIdx n) as ↔
        List.Forall₂ denotes items as) := by
    intro items
    induction items with
    | nil =>
        intro n as _
        rw [List.zipIdx_nil, List.forall₂_nil_left_iff, List.forall₂_nil_left_iff]
    | cons item rest ih =>
        intro n as hcanonical
        rw [List.zipIdx_cons, List.forall₂_cons_left_iff, List.forall₂_cons_left_iff]
        have hrest := fun as => ih (n + 1) as fun i hi => hcanonical i (List.mem_cons_of_mem _ hi)
        simp only [hrest, hread item _ _ (hcanonical item List.mem_cons_self)]
  exact hindexed items 0 as hitems

theorem objects_reads {decoder : Members → String → Except StoreFailure α}
    {denotes : Json → α → Prop} (hdecodes : Decodes decoder denotes)
    (hobject : ∀ value a, denotes value a → ∃ members, value = .obj members) :
    Reads (objects decoder) (fun value as =>
      ∃ items, value = .arr items ∧ List.Forall₂ denotes items as) := by
  refine entries_reads ?_
  intro value label a hcanonical
  simp only [bind_ok, expectObject_ok]
  constructor
  · rintro ⟨members, rfl, h⟩
    exact (hdecodes members label a hcanonical).mp h
  · intro h
    obtain ⟨members, rfl⟩ := hobject value a h
    exact ⟨members, rfl, (hdecodes members label a hcanonical).mpr h⟩

theorem Reads.entries_eq {encode : α → Json}
    (hread : Reads read (fun value a => value = encode a)) :
    Reads (entries read) (fun value as => value = .arr (as.map encode)) := by
  intro value label as hcanonical
  rw [entries_reads hread value label as hcanonical]
  simp only [forall₂_eq_map, exists_eq_right]

theorem Decodes.objects_eq {decoder : Members → String → Except StoreFailure α}
    {encode : α → Json} (hdecodes : Decodes decoder (fun value a => value = encode a))
    (hobject : ∀ a, ∃ members, encode a = .obj members) :
    Reads (objects decoder) (fun value as => value = .arr (as.map encode)) := by
  intro value label as hcanonical
  have hobjects := objects_reads hdecodes (by rintro _ a rfl; exact hobject a)
  rw [hobjects value label as hcanonical]
  simp only [forall₂_eq_map, exists_eq_right]

theorem record_iff {members fields : Members} (hcanonical : Canonical (.obj members))
    {keys : List String} (hkeys : fields.map Prod.fst = keys) (hnodup : keys.Nodup)
    (label : String) :
    Json.obj members = Json.object fields ↔ expectKeys members keys label = .ok () ∧
      ∀ field ∈ fields, Json.get? members field.1 = some field.2 := by
  subst hkeys
  rw [Json.obj_eq_object_iff hcanonical hnodup, expectKeys_ok]

end Reading

/-! ### Records of the design graph -/

section Records

variable [UnicodeData] [Hashing]

omit [UnicodeData] [Hashing] in
theorem construct_ok {α : Type} {postInit : α → Except Failure α} {hchecks : OnlyChecks postInit}
    {a : α} {c : Checked postInit} : construct hchecks a = .ok c ↔ c.val = a := by
  unfold construct
  rw [fromKernel_ok, Checked.make_ok]
  constructor
  · exact hchecks a c.val
  · rintro rfl
    exact c.accepted

omit [UnicodeData] [Hashing] in
theorem point_reads : Reads point (fun value p => value = p.toJson) := by
  intro value label p hcanonical
  unfold point
  simp only [bind_ok, exists_unit, expectObject_ok, intField_ok, fromKernel_ok]
  constructor
  · rintro ⟨members, rfl, hkeys, x, hx, y, hy, hp⟩
    unfold PointNm.make at hp
    split at hp
    · split at hp
      · cases hp
        rw [PointNm.toJson, record_iff hcanonical rfl (by simp) label]
        simp only [List.forall_mem_cons, List.not_mem_nil, IsEmpty.forall_iff, implies_true,
          and_true]
        exact ⟨hkeys, hx, hy⟩
      · cases hp
    · cases hp
  · rintro rfl
    have hrecord := (record_iff hcanonical rfl (by simp) label).mp (Eq.refl p.toJson)
    simp only [List.forall_mem_cons, List.not_mem_nil, IsEmpty.forall_iff, implies_true,
      and_true] at hrecord
    exact ⟨_, rfl, hrecord.1, p.x, hrecord.2.1, p.y, hrecord.2.2, PointNm.make_coordinates p⟩

section

omit [Hashing]

theorem pinRef_decodes : Decodes pinRef (fun value r => value = r.val.toJson) := by
  intro members label r hcanonical
  change _ ↔ Json.obj members = r.val.toJson
  unfold pinRef PinRef.toJson
  rw [record_iff hcanonical rfl (by simp) label]
  simp only [bind_ok, exists_unit, strField_ok, List.forall_mem_cons,
    List.not_mem_nil, IsEmpty.forall_iff, implies_true, and_true]
  constructor
  · rintro ⟨hkeys, componentId, hcomponentId, pinNumber, hpinNumber, hval⟩
    rw [construct_ok.mp hval]
    exact ⟨hkeys, hcomponentId, hpinNumber⟩
  · rintro ⟨hkeys, hcomponentId, hpinNumber⟩
    exact ⟨hkeys, _, hcomponentId, _, hpinNumber, construct_ok.mpr rfl⟩

theorem members_reads : Reads (objects pinRef)
    (fun value refs => value = .arr (refs.map (·.val.toJson))) :=
  pinRef_decodes.objects_eq fun _ => ⟨_, rfl⟩

theorem pinDefinition_decodes : Decodes pinDefinition (fun value r => value = r.val.toJson) := by
  intro members label r hcanonical
  change _ ↔ Json.obj members = r.val.toJson
  unfold pinDefinition PinDefinition.toJson
  rw [record_iff hcanonical rfl (by simp) label]
  simp only [bind_ok, exists_unit, strField_ok, boolField_ok, List.forall_mem_cons,
    List.not_mem_nil, IsEmpty.forall_iff, implies_true, and_true]
  constructor
  · rintro ⟨hkeys, number, hnumber, name, hname, electricalType, helectricalType, padNumber,
      hpadNumber, required, hrequired, hval⟩
    rw [construct_ok.mp hval]
    exact ⟨hkeys, hnumber, hname, helectricalType, hpadNumber, hrequired⟩
  · rintro ⟨hkeys, hnumber, hname, helectricalType, hpadNumber, hrequired⟩
    exact ⟨hkeys, _, hnumber, _, hname, _, helectricalType, _, hpadNumber, _, hrequired,
      construct_ok.mpr rfl⟩

theorem pins_reads : Reads (objects pinDefinition)
    (fun value pins => value = .arr (pins.map (·.val.toJson))) :=
  pinDefinition_decodes.objects_eq fun _ => ⟨_, rfl⟩

theorem component_decodes : Decodes component (fun value r => value = r.val.toJson) := by
  intro members label r hcanonical
  change _ ↔ Json.obj members = r.val.toJson
  unfold component Component.toJson
  rw [record_iff hcanonical rfl (by simp) label]
  simp only [bind_ok, exists_unit, strField_ok, field_eq pins_reads hcanonical,
    List.forall_mem_cons, List.not_mem_nil, IsEmpty.forall_iff, implies_true, and_true]
  constructor
  · rintro ⟨hkeys, componentId, hcomponentId, reference, hreference, part, hpart, partNumber,
      hpartNumber, package, hpackage, symbolId, hsymbolId, footprintId, hfootprintId, datasheet,
      hdatasheet, pinMap, hpinMap, pins, hpins, hval⟩
    rw [construct_ok.mp hval]
    exact ⟨hkeys, hcomponentId, hreference, hpart, hpartNumber, hpackage, hsymbolId, hfootprintId,
      hdatasheet, hpinMap, hpins⟩
  · rintro ⟨hkeys, hcomponentId, hreference, hpart, hpartNumber, hpackage, hsymbolId, hfootprintId,
      hdatasheet, hpinMap, hpins⟩
    exact ⟨hkeys, _, hcomponentId, _, hreference, _, hpart, _, hpartNumber, _, hpackage, _,
      hsymbolId, _, hfootprintId, _, hdatasheet, _, hpinMap, _, hpins, construct_ok.mpr rfl⟩

theorem net_decodes : Decodes net (fun value r => value = r.val.toJson) := by
  intro members label r hcanonical
  change _ ↔ Json.obj members = r.val.toJson
  unfold net Net.toJson
  rw [record_iff hcanonical rfl (by simp) label]
  simp only [bind_ok, exists_unit, strField_ok, field_eq members_reads hcanonical,
    List.forall_mem_cons, List.not_mem_nil, IsEmpty.forall_iff, implies_true, and_true]
  constructor
  · rintro ⟨hkeys, netId, hnetId, name, hname, pins, hpins, hval⟩
    rw [construct_ok.mp hval]
    exact ⟨hkeys, hnetId, hname, hpins⟩
  · rintro ⟨hkeys, hnetId, hname, hpins⟩
    exact ⟨hkeys, _, hnetId, _, hname, _, hpins, construct_ok.mpr rfl⟩

theorem placement_decodes : Decodes placement (fun value r => value = r.val.toJson) := by
  intro members label r hcanonical
  change _ ↔ Json.obj members = r.val.toJson
  unfold placement FootprintPlacement.toJson
  rw [record_iff hcanonical rfl (by simp) label]
  simp only [bind_ok, exists_unit, strField_ok, field_eq point_reads hcanonical,
    intField_ok, boolField_ok, List.forall_mem_cons, List.not_mem_nil, IsEmpty.forall_iff,
    implies_true, and_true]
  constructor
  · rintro ⟨hkeys, componentId, hcomponentId, position, hposition, rotation, hrotation, side, hside,
      locked, hlocked, hval⟩
    rw [construct_ok.mp hval]
    exact ⟨hkeys, hcomponentId, hposition, hrotation, hside, hlocked⟩
  · rintro ⟨hkeys, hcomponentId, hposition, hrotation, hside, hlocked⟩
    exact ⟨hkeys, _, hcomponentId, _, hposition, _, hrotation, _, hside, _, hlocked,
      construct_ok.mpr rfl⟩

theorem track_decodes : Decodes track (fun value r => value = r.val.toJson) := by
  intro members label r hcanonical
  change _ ↔ Json.obj members = r.val.toJson
  unfold track Track.toJson
  rw [record_iff hcanonical rfl (by simp) label]
  simp only [bind_ok, exists_unit, strField_ok, field_eq point_reads hcanonical,
    intField_ok, boolField_ok, List.forall_mem_cons, List.not_mem_nil, IsEmpty.forall_iff,
    implies_true, and_true]
  constructor
  · rintro ⟨hkeys, trackId, htrackId, netId, hnetId, layer, hlayer, start, hstart, stop, hstop,
      width, hwidth, locked, hlocked, hval⟩
    rw [construct_ok.mp hval]
    exact ⟨hkeys, htrackId, hnetId, hlayer, hstart, hstop, hwidth, hlocked⟩
  · rintro ⟨hkeys, htrackId, hnetId, hlayer, hstart, hstop, hwidth, hlocked⟩
    exact ⟨hkeys, _, htrackId, _, hnetId, _, hlayer, _, hstart, _, hstop, _, hwidth, _, hlocked,
      construct_ok.mpr rfl⟩

theorem via_decodes : Decodes via (fun value r => value = r.val.toJson) := by
  intro members label r hcanonical
  change _ ↔ Json.obj members = r.val.toJson
  unfold via Via.toJson
  rw [record_iff hcanonical rfl (by simp) label]
  simp only [bind_ok, exists_unit, strField_ok, field_eq point_reads hcanonical,
    intField_ok, field_eq strings_reads hcanonical, boolField_ok, List.forall_mem_cons,
    List.not_mem_nil, IsEmpty.forall_iff, implies_true, and_true]
  constructor
  · rintro ⟨hkeys, viaId, hviaId, netId, hnetId, center, hcenter, diameter, hdiameter, drill,
      hdrill, layers, hlayers, locked, hlocked, hval⟩
    rw [construct_ok.mp hval]
    exact ⟨hkeys, hviaId, hnetId, hcenter, hdiameter, hdrill, hlayers, hlocked⟩
  · rintro ⟨hkeys, hviaId, hnetId, hcenter, hdiameter, hdrill, hlayers, hlocked⟩
    exact ⟨hkeys, _, hviaId, _, hnetId, _, hcenter, _, hdiameter, _, hdrill, _, hlayers, _, hlocked,
      construct_ok.mpr rfl⟩

end

theorem fillEvidence_decodes : Decodes fillEvidence (fun value r => value = r.val.toJson) := by
  intro members label r hcanonical
  change _ ↔ Json.obj members = r.val.toJson
  unfold fillEvidence ZoneFillEvidence.toJson
  rw [record_iff hcanonical rfl (by simp) label]
  simp only [bind_ok, exists_unit, strField_ok, List.forall_mem_cons,
    List.not_mem_nil, IsEmpty.forall_iff, implies_true, and_true]
  constructor
  · rintro ⟨hkeys, graphHash, hgraphHash, revision, hrevision, engine, hengine, engineRevision,
      hengineRevision, geometryHash, hgeometryHash, evidenceHash, hevidenceHash, hval⟩
    rw [construct_ok.mp hval]
    exact ⟨hkeys, hgraphHash, hrevision, hengine, hengineRevision, hgeometryHash, hevidenceHash⟩
  · rintro ⟨hkeys, hgraphHash, hrevision, hengine, hengineRevision, hgeometryHash, hevidenceHash⟩
    exact ⟨hkeys, _, hgraphHash, _, hrevision, _, hengine, _, hengineRevision, _, hgeometryHash, _,
      hevidenceHash, construct_ok.mpr rfl⟩

section

omit [Hashing]

theorem wire_decodes : Decodes wire (fun value r => value = r.val.toJson) := by
  intro members label r hcanonical
  change _ ↔ Json.obj members = r.val.toJson
  unfold wire SchematicWire.toJson
  rw [record_iff hcanonical rfl (by simp) label]
  simp only [bind_ok, exists_unit, strField_ok, field_eq point_reads.entries_eq
    hcanonical, boolField_ok, List.forall_mem_cons, List.not_mem_nil, IsEmpty.forall_iff,
    implies_true, and_true]
  constructor
  · rintro ⟨hkeys, wireId, hwireId, netId, hnetId, vertices, hvertices, sheetId, hsheetId, locked,
      hlocked, hval⟩
    rw [construct_ok.mp hval]
    exact ⟨hkeys, hwireId, hnetId, hvertices, hsheetId, hlocked⟩
  · rintro ⟨hkeys, hwireId, hnetId, hvertices, hsheetId, hlocked⟩
    exact ⟨hkeys, _, hwireId, _, hnetId, _, hvertices, _, hsheetId, _, hlocked, construct_ok.mpr
      rfl⟩

theorem junction_decodes : Decodes junction (fun value r => value = r.val.toJson) := by
  intro members label r hcanonical
  change _ ↔ Json.obj members = r.val.toJson
  unfold junction SchematicJunction.toJson
  rw [record_iff hcanonical rfl (by simp) label]
  simp only [bind_ok, exists_unit, strField_ok, field_eq point_reads hcanonical,
    boolField_ok, List.forall_mem_cons, List.not_mem_nil, IsEmpty.forall_iff, implies_true,
    and_true]
  constructor
  · rintro ⟨hkeys, junctionId, hjunctionId, netId, hnetId, position, hposition, sheetId, hsheetId,
      locked, hlocked, hval⟩
    rw [construct_ok.mp hval]
    exact ⟨hkeys, hjunctionId, hnetId, hposition, hsheetId, hlocked⟩
  · rintro ⟨hkeys, hjunctionId, hnetId, hposition, hsheetId, hlocked⟩
    exact ⟨hkeys, _, hjunctionId, _, hnetId, _, hposition, _, hsheetId, _, hlocked, construct_ok.mpr
      rfl⟩

/-- A pad is read from the fields its constructor was given, before the drill is filled in. -/
theorem pad_decodes : Decodes pad (fun value r =>
    ∃ raw : FootprintPad, value = raw.toJson ∧ raw.postInit = .ok r.val) := by
  intro members label r hcanonical
  change _ ↔ ∃ raw : FootprintPad, Json.obj members = raw.toJson ∧ raw.postInit = .ok r.val
  unfold pad FootprintPad.toJson
  simp only [bind_ok, exists_unit, strField_ok, intField_ok, boolField_ok,
    optionalStrField_ok, field_eq point_reads hcanonical, field_eq strings_reads hcanonical,
    fromKernel_ok, Checked.make_ok]
  constructor
  · rintro ⟨hkeys, padId, hpadId, componentId, hcomponentId, padNumber, hpadNumber, center, hcenter,
      sizeX, hsizeX, sizeY, hsizeY, shape, hshape, rotation, hrotation, layers, hlayers, padDrill,
      hpadDrill, netId, hnetId, locked, hlocked, drillX, hdrillX, drillY, hdrillY, drillRotation,
      hdrillRotation, group, hgroup, hval⟩
    refine ⟨_, ?_, hval⟩
    rw [record_iff hcanonical rfl (by simp) label]
    simp only [List.forall_mem_cons, List.not_mem_nil, IsEmpty.forall_iff, implies_true, and_true]
    exact ⟨hkeys, hpadId, hcomponentId, hpadNumber, hcenter, hsizeX, hsizeY, hshape, hrotation,
      hlayers, hpadDrill, hnetId, hlocked, hdrillX, hdrillY, hdrillRotation, hgroup⟩
  · rintro ⟨raw, hraw, hval⟩
    rw [record_iff hcanonical rfl (by simp) label] at hraw
    simp only [List.forall_mem_cons, List.not_mem_nil, IsEmpty.forall_iff, implies_true, and_true]
      at hraw
    obtain ⟨hkeys, hpadId, hcomponentId, hpadNumber, hcenter, hsizeX, hsizeY, hshape, hrotation,
      hlayers, hpadDrill, hnetId, hlocked, hdrillX, hdrillY, hdrillRotation, hgroup⟩ := hraw
    exact ⟨hkeys, _, hpadId, _, hcomponentId, _, hpadNumber, _, hcenter, _, hsizeX, _, hsizeY, _,
      hshape, _, hrotation, _, hlayers, _, hpadDrill, _, hnetId, _, hlocked, _, hdrillX, _, hdrillY,
      _, hdrillRotation, _, hgroup, hval⟩

/-- A hole is read from the fields its constructor was given, before the drill is filled in. -/
theorem hole_decodes : Decodes hole (fun value r =>
    ∃ raw : FootprintHole, value = raw.toJson ∧ raw.postInit = .ok r.val) := by
  intro members label r hcanonical
  change _ ↔ ∃ raw : FootprintHole, Json.obj members = raw.toJson ∧ raw.postInit = .ok r.val
  unfold hole FootprintHole.toJson
  simp only [bind_ok, exists_unit, strField_ok, intField_ok, boolField_ok,
    optionalStrField_ok, field_eq point_reads hcanonical, fromKernel_ok, Checked.make_ok]
  constructor
  · rintro ⟨hkeys, holeId, hholeId, componentId, hcomponentId, center, hcenter, diameter, hdiameter,
      plated, hplated, padId, hpadId, locked, hlocked, drillX, hdrillX, drillY, hdrillY,
      drillRotation, hdrillRotation, hval⟩
    refine ⟨_, ?_, hval⟩
    rw [record_iff hcanonical rfl (by simp) label]
    simp only [List.forall_mem_cons, List.not_mem_nil, IsEmpty.forall_iff, implies_true, and_true]
    exact ⟨hkeys, hholeId, hcomponentId, hcenter, hdiameter, hplated, hpadId, hlocked, hdrillX,
      hdrillY, hdrillRotation⟩
  · rintro ⟨raw, hraw, hval⟩
    rw [record_iff hcanonical rfl (by simp) label] at hraw
    simp only [List.forall_mem_cons, List.not_mem_nil, IsEmpty.forall_iff, implies_true, and_true]
      at hraw
    obtain ⟨hkeys, hholeId, hcomponentId, hcenter, hdiameter, hplated, hpadId, hlocked, hdrillX,
      hdrillY, hdrillRotation⟩ := hraw
    exact ⟨hkeys, _, hholeId, _, hcomponentId, _, hcenter, _, hdiameter, _, hplated, _, hpadId, _,
      hlocked, _, hdrillX, _, hdrillY, _, hdrillRotation, hval⟩

end

omit [UnicodeData] [Hashing] in
theorem enumOf_some {α : Type} {all : List α} {value : α → String}
    (hall : ∀ a, enumOf all value (value a) = some a) {text : String} {a : α} :
    enumOf all value text = some a ↔ text = value a := by
  constructor
  · intro h
    have hfound := List.find?_some h
    exact (beq_iff_eq.mp hfound).symm
  · rintro rfl
    exact hall a

omit [UnicodeData] [Hashing] in
theorem fillState_reads : Reads fillState (fun value state => value = .str state.value) := by
  intro value label state _
  have hall : ∀ a, enumOf zoneFillStates ZoneFillState.value a.value = some a := by
    intro a
    cases a <;> rfl
  unfold fillState
  simp only [bind_ok, expectStr_ok]
  constructor
  · rintro ⟨text, rfl, h⟩
    split at h
    · rename_i found hfound
      rw [pure_ok] at h
      rw [(enumOf_some hall).mp hfound, h]
    · cases h
  · rintro rfl
    refine ⟨_, rfl, ?_⟩
    rw [hall state]
    rfl

theorem optionalFillEvidence_reads : Reads optionalFillEvidence
    (fun value evidence => value = optionalJson (·.val.toJson) evidence) := by
  intro value label evidence hcanonical
  unfold optionalFillEvidence
  split
  · cases evidence with
    | none => simp [optionalJson]
    | some e =>
        simp only [Except.ok.injEq, reduceCtorEq, optionalJson, ZoneFillEvidence.toJson,
          Json.object]
  · rename_i hnull
    simp only [bind_ok, pure_ok, expectObject_ok]
    constructor
    · rintro ⟨members, rfl, e, he, rfl⟩
      exact (fillEvidence_decodes members label e hcanonical).mp he
    · intro h
      cases evidence with
      | none => exact absurd h hnull
      | some e =>
          refine ⟨_, h, e, ?_, rfl⟩
          refine (fillEvidence_decodes _ label e ?_).mpr rfl
          rw [h] at hcanonical
          exact hcanonical

theorem zone_decodes : Decodes zone (fun value r => value = r.val.toJson) := by
  intro members label r hcanonical
  change _ ↔ Json.obj members = r.val.toJson
  unfold zone CopperZone.toJson
  rw [record_iff hcanonical rfl (by simp) label]
  simp only [bind_ok, exists_unit, strField_ok, intField_ok, boolField_ok, field_eq
    point_reads.entries_eq hcanonical, field_eq fillState_reads hcanonical, field_eq
    optionalFillEvidence_reads hcanonical, List.forall_mem_cons, List.not_mem_nil,
    IsEmpty.forall_iff, implies_true, and_true]
  constructor
  · rintro ⟨hkeys, evidence, hevidence, state, hstate, zoneId, hzoneId, netId, hnetId, layer,
      hlayer, outline, houtline, clearance, hclearance, minThickness, hminThickness, priority,
      hpriority, locked, hlocked, hval⟩
    rw [construct_ok.mp hval]
    exact ⟨hkeys, hzoneId, hnetId, hlayer, houtline, hclearance, hminThickness, hpriority, hlocked,
      hstate, hevidence⟩
  · rintro ⟨hkeys, hzoneId, hnetId, hlayer, houtline, hclearance, hminThickness, hpriority, hlocked,
      hstate, hevidence⟩
    exact ⟨hkeys, _, hevidence, _, hstate, _, hzoneId, _, hnetId, _, hlayer, _, houtline, _,
      hclearance, _, hminThickness, _, hpriority, _, hlocked, construct_ok.mpr rfl⟩

/-! ### The graph -/

def padSource (value : Json) (p : Checked FootprintPad.postInit) : Prop :=
  ∃ raw : FootprintPad, value = raw.toJson ∧ raw.postInit = .ok p.val

def holeSource (value : Json) (h : Checked FootprintHole.postInit) : Prop :=
  ∃ raw : FootprintHole, value = raw.toJson ∧ raw.postInit = .ok h.val

/-- The JSON of a graph with its pads and holes written as given. -/
def graphJson (g : DesignGraph) (pads holes : List Json) : Json :=
  Json.object [
    ("schema_version", .int g.schemaVersion), ("project_id", .str g.projectId),
    ("layers", textsJson g.layers), ("board_outline", .arr (g.boardOutline.map PointNm.toJson)),
    ("components", .arr (g.components.map (·.val.toJson))),
    ("nets", .arr (g.nets.map (·.val.toJson))),
    ("placements", .arr (g.placements.map (·.val.toJson))),
    ("tracks", .arr (g.tracks.map (·.val.toJson))), ("pads", .arr pads), ("holes", .arr holes),
    ("vias", .arr (g.vias.map (·.val.toJson))), ("zones", .arr (g.zones.map (·.val.toJson))),
    ("schematic_wires", .arr (g.schematicWires.map (·.val.toJson))),
    ("schematic_junctions", .arr (g.schematicJunctions.map (·.val.toJson)))]

theorem toJson_eq_graphJson (g : DesignGraph) :
    g.toJson = graphJson g (g.pads.map (·.val.toJson)) (g.holes.map (·.val.toJson)) := rfl

def graphSource (value : Json) (g : DesignGraph) : Prop :=
  ∃ pads holes, List.Forall₂ padSource pads g.pads ∧ List.Forall₂ holeSource holes g.holes ∧
    value = graphJson g pads holes

omit [Hashing] in
theorem pads_reads : Reads (objects pad) (fun value pads =>
    ∃ items, value = .arr items ∧ List.Forall₂ padSource items pads) := by
  refine objects_reads pad_decodes ?_
  rintro _ _ ⟨raw, rfl, -⟩
  exact ⟨_, rfl⟩

omit [Hashing] in
theorem holes_reads : Reads (objects hole) (fun value holes =>
    ∃ items, value = .arr items ∧ List.Forall₂ holeSource items holes) := by
  refine objects_reads hole_decodes ?_
  rintro _ _ ⟨raw, rfl, -⟩
  exact ⟨_, rfl⟩

theorem graphOf_ok {members : Members} (hcanonical : Canonical (.obj members)) (label : String)
    {g : DesignGraph} :
    expectKeys members graphFields label = .ok () ∧ graphOf members = .ok g ↔
      graphSource (.obj members) g := by
  have hcomponents := (component_decodes.objects_eq fun _ => ⟨_, rfl⟩)
  have hnets := (net_decodes.objects_eq fun _ => ⟨_, rfl⟩)
  have hplacements := (placement_decodes.objects_eq fun _ => ⟨_, rfl⟩)
  have htracks := (track_decodes.objects_eq fun _ => ⟨_, rfl⟩)
  have hvias := (via_decodes.objects_eq fun _ => ⟨_, rfl⟩)
  have hzones := (zone_decodes.objects_eq fun _ => ⟨_, rfl⟩)
  have hwires := (wire_decodes.objects_eq fun _ => ⟨_, rfl⟩)
  have hjunctions := (junction_decodes.objects_eq fun _ => ⟨_, rfl⟩)
  unfold graphOf graphSource graphJson
  simp only [bind_ok, strField_ok, intField_ok, field_eq strings_reads hcanonical,
    field_eq point_reads.entries_eq hcanonical, field_eq hcomponents hcanonical,
    field_eq hnets hcanonical, field_eq hplacements hcanonical, field_eq htracks hcanonical,
    field_ok pads_reads hcanonical, field_ok holes_reads hcanonical, field_eq hvias hcanonical,
    field_eq hzones hcanonical, field_eq hwires hcanonical, field_eq hjunctions hcanonical]
  constructor
  · rintro ⟨hkeys, schema, hschema, project, hproject, layers, hlayers, outline, houtline,
      components, hcomponents, nets, hnets, placements, hplacements, tracks, htracks, pads,
      ⟨_, hpads, padItems, rfl, hpadItems⟩, holes, ⟨_, hholes, holeItems, rfl, hholeItems⟩, vias,
      hvias, zones, hzones, wires, hwires, junctions, hjunctions, h⟩
    split at h
    · rw [pure_ok] at h
      subst h
      refine ⟨padItems, holeItems, hpadItems, hholeItems, ?_⟩
      rw [record_iff hcanonical rfl (by simp) label]
      simp only [List.forall_mem_cons, List.not_mem_nil, IsEmpty.forall_iff, implies_true, and_true]
      exact ⟨hkeys, hschema, hproject, hlayers, houtline, hcomponents, hnets, hplacements, htracks,
        hpads, hholes, hvias, hzones, hwires, hjunctions⟩
    · cases h
  · rintro ⟨padItems, holeItems, hpadItems, hholeItems, hrecord⟩
    rw [record_iff hcanonical rfl (by simp) label] at hrecord
    simp only [List.forall_mem_cons, List.not_mem_nil, IsEmpty.forall_iff, implies_true, and_true]
      at hrecord
    obtain ⟨hkeys, hschema, hproject, hlayers, houtline, hcomponents, hnets, hplacements, htracks,
      hpads, hholes, hvias, hzones, hwires, hjunctions⟩ := hrecord
    refine ⟨hkeys, _, hschema, _, hproject, _, hlayers, _, houtline, _, hcomponents, _, hnets, _,
      hplacements, _, htracks, g.pads, ⟨_, hpads, _, rfl, hpadItems⟩, g.holes,
      ⟨_, hholes, _, rfl, hholeItems⟩, _, hvias, _, hzones, _, hwires, _, hjunctions, ?_⟩
    split
    · rfl
    · rename_i e he
      rw [g.header] at he
      cases he

/-- A graph is read from its JSON, if it is valid and in normal form. -/
theorem graphFromPayload_ok (hcanonical : Canonical value) {g : DesignGraph} :
    graphFromPayload value = .ok g ↔
      graphSource value g ∧ validateGraph g = .ok () ∧ g.normalized = .ok g := by
  unfold graphFromPayload
  simp only [bind_ok, exists_unit, expectObject_ok, refusing_ok, fromKernel_ok,
    pure_ok, require_ok]
  constructor
  · rintro ⟨members, rfl, hkeys, _, ⟨read, hread, hvalid, rfl⟩, normalized, hnormal, rfl, rfl⟩
    exact ⟨(graphOf_ok hcanonical _).mp ⟨hkeys, hread⟩, hvalid, hnormal⟩
  · rintro ⟨hsource, hvalid, hnormal⟩
    obtain ⟨members, rfl⟩ : ∃ members, value = .obj members := by
      obtain ⟨pads, holes, -, -, rfl⟩ := hsource
      exact ⟨_, rfl⟩
    obtain ⟨hkeys, hread⟩ := (graphOf_ok hcanonical "DesignGraph").mpr hsource
    exact ⟨members, rfl, hkeys, g, ⟨g, hread, hvalid, rfl⟩, g, hnormal, rfl, rfl⟩

/-! ### Commands, revisions and transactions -/

/-- The payload a command holds is the value of its canonical text, which is what the source
holds. -/
def CanonicalPayload (c : Command) : Prop := Canonical (.obj c.val.payload)

omit [UnicodeData] [Hashing] in
theorem payloadOf_ok {text : String} {payload : Payload} :
    payloadOf text = .ok payload ↔
      Canonical (.obj payload) ∧ String.ofList (Json.obj payload).render = text :=
  Json.loadMembers_ok

omit [Hashing] in
theorem CanonicalPayload.payloadJson_eq {c : Command} (h : CanonicalPayload c) :
    c.val.payloadJson = String.ofList (Json.obj c.val.payload).render := by
  unfold DesignCommand.payloadJson
  rw [h.1]

omit [UnicodeData] [Hashing] in
theorem enumMember_ok {α : Type} {all : List α} {value : α → String} {name : String}
    (hall : ∀ a, enumOf all value (value a) = some a) {text : String} {a : α} :
    enumMember all value name text = .ok a ↔ text = value a := by
  rw [← enumOf_some hall]
  unfold enumMember
  split <;> simp_all

omit [UnicodeData] [Hashing] in
theorem commandKinds_all (kind : CommandKind) :
    enumOf commandKinds CommandKind.value kind.value = some kind := by
  cases kind <;> rfl

theorem command_decodes : Decodes command (fun value c =>
    value = commandPayload c ∧ CanonicalPayload c) := by
  intro members label c hcanonical
  change _ ↔ Json.obj members = commandPayload c ∧ CanonicalPayload c
  unfold command commandPayload
  rw [record_iff hcanonical rfl (by simp) label]
  simp only [bind_ok, exists_unit, strField_ok, refusing_ok, fromKernel_ok,
    enumMember_ok commandKinds_all, payloadOf_ok, construct_ok, require_ok,
    pure_ok, List.forall_mem_cons, List.not_mem_nil, IsEmpty.forall_iff, implies_true,
    and_true]
  constructor
  · rintro ⟨hkeys, built, ⟨id, hid, base, hbase, transaction, htransaction, actor, hactor, _,
      hkind, kind, rfl, _, htext, key, hkey, payload, ⟨hpayload, rfl⟩, hval⟩, _, hhash, rfl, rfl⟩
    have hplain : CanonicalPayload built := by
      unfold CanonicalPayload
      rw [hval]
      exact hpayload
    have hjson := hplain.payloadJson_eq
    rw [hval] at hjson
    refine ⟨⟨hkeys, ?_⟩, hplain⟩
    rw [hval] at hhash ⊢
    rw [← hjson] at htext
    exact ⟨hactor, hbase, hhash, hid, hkey, hkind, htext, htransaction⟩
  · rintro ⟨⟨hkeys, hactor, hbase, hhash, hid, hkey, hkind, htext, htransaction⟩, hplain⟩
    rw [hplain.payloadJson_eq] at htext
    exact ⟨hkeys, c, ⟨_, hid, _, hbase, _, htransaction, _, hactor, _, hkind, _, rfl, _, htext, _,
      hkey, _, ⟨hplain, rfl⟩, rfl⟩, _, hhash, rfl, rfl⟩

omit [UnicodeData] [Hashing] in
theorem sequenceOf_ok {n : Int} {sequence : Nat} :
    sequenceOf n = .ok sequence ↔ n = sequence := by
  unfold sequenceOf
  split
  · simp only [reduceCtorEq, false_iff]
    omega
  · rw [Except.ok.injEq]
    omega

theorem graph_reads : Reads (fun value _ => graphFromPayload value) (fun value g =>
    graphSource value g ∧ validateGraph g = .ok () ∧ g.normalized = .ok g) := by
  intro value label g hcanonical
  exact graphFromPayload_ok hcanonical

/-- A revision is read from its payload, if its graph is valid and in normal form and its hash is
the one of its contents. -/
theorem revisionFromPayload_ok (hcanonical : Canonical value) {r : Revision} :
    revisionFromPayload value = .ok r ↔
      (∃ graph, graphSource graph r.val.graph ∧ value = revisionJson r.val graph) ∧
      validateGraph r.val.graph = .ok () ∧ r.val.graph.normalized = .ok r.val.graph ∧
      r.val.revisionHash = revisionHashFor r.val := by
  unfold revisionFromPayload revisionJson
  simp only [bind_ok, exists_unit, expectObject_ok, refusing_ok, fromKernel_ok,
    pure_ok, require_ok, sequenceOf_ok, construct_ok, strField_ok,
    optionalStrField_ok, intField_ok]
  constructor
  · rintro ⟨members, rfl, hkeys, built, ⟨hash, hhash, parent, hparent, _, hsequence, graph, hgraph,
      graphHash, hgraphHash, commands, hcommands, report, hreport, preview, hpreview, sequence,
      rfl, hval⟩, hcontents, rfl⟩
    rw [field_ok graph_reads hcanonical] at hgraph
    rw [field_eq strings_reads hcanonical] at hcommands
    obtain ⟨graphValue, hget, hsource, hvalid, hnormal⟩ := hgraph
    refine ⟨⟨graphValue, ?_, ?_⟩, ?_, ?_, hcontents⟩
    · rw [hval]
      exact hsource
    · rw [record_iff hcanonical rfl (by simp) "DesignRevision", hval]
      simp only [List.forall_mem_cons, List.not_mem_nil, IsEmpty.forall_iff, implies_true, and_true]
      exact ⟨hkeys, hpreview, hcommands, hget, hgraphHash, hparent, hhash, hsequence, hreport⟩
    · rw [hval]
      exact hvalid
    · rw [hval]
      exact hnormal
  · rintro ⟨⟨graphValue, hsource, rfl⟩, hvalid, hnormal, hcontents⟩
    have hrecord := (record_iff hcanonical rfl (by simp) "DesignRevision").mp (Eq.refl _)
    simp only [List.forall_mem_cons, List.not_mem_nil, IsEmpty.forall_iff, implies_true, and_true]
      at hrecord
    obtain ⟨hkeys, hpreview, hcommands, hget, hgraphHash, hparent, hhash, hsequence, hreport⟩ :=
      hrecord
    exact ⟨_, rfl, hkeys, r, ⟨_, hhash, _, hparent, _, hsequence, r.val.graph,
      (field_ok graph_reads hcanonical).mpr ⟨_, hget, hsource, hvalid, hnormal⟩, _, hgraphHash, _,
      (field_eq strings_reads hcanonical).mpr hcommands, _, hreport, _, hpreview, _, rfl, rfl⟩,
      hcontents, rfl⟩

omit [UnicodeData] [Hashing] in
theorem transactionStates_all (state : TransactionState) :
    enumOf transactionStates stateValue (stateValue state) = some state := by
  cases state <;> rfl

theorem commands_reads : Reads (objects command) (fun value commands =>
    value = .arr (commands.map commandPayload) ∧ ∀ c ∈ commands, CanonicalPayload c) := by
  intro value label commands hcanonical
  have hobjects := objects_reads command_decodes (by
    rintro _ c ⟨rfl, -⟩
    exact ⟨_, rfl⟩)
  rw [hobjects value label commands hcanonical]
  constructor
  · rintro ⟨items, rfl, hitems⟩
    refine ⟨congrArg Json.arr (forall₂_eq_map.mp (hitems.imp fun _ _ h => h.1)), ?_⟩
    clear hcanonical hobjects
    induction hitems with
    | nil => simp
    | cons hitem _ ih => exact List.forall_mem_cons.mpr ⟨hitem.2, ih⟩
  · rintro ⟨rfl, hplain⟩
    refine ⟨_, rfl, ?_⟩
    rw [List.forall₂_map_left_iff]
    exact List.forall₂_same.mpr fun c hc => ⟨rfl, hplain c hc⟩

theorem transactionFromPayload_ok (hcanonical : Canonical value)
    {t : Transaction} :
    transactionFromPayload value = .ok t ↔
      (∃ graph, graphSource graph t.val.stagedGraph ∧ value = transactionJson t.val graph) ∧
      (∀ c ∈ t.val.commands, CanonicalPayload c) ∧ validateGraph t.val.stagedGraph = .ok () ∧
      t.val.stagedGraph.normalized = .ok t.val.stagedGraph := by
  unfold transactionFromPayload transactionJson
  simp only [bind_ok, exists_unit, expectObject_ok, refusing_ok,
    enumMember_ok transactionStates_all, construct_ok, strField_ok, optionalStrField_ok,
    boolField_ok]
  constructor
  · rintro ⟨members, rfl, hkeys, id, hid, base, hbase, graph, hgraph, commands, hcommands, _,
      hstate, state, rfl, report, hreport, gate, hgate, preview, hpreview, verified, hverified,
      committed, hcommitted, hval⟩
    rw [field_ok graph_reads hcanonical] at hgraph
    rw [field_ok commands_reads hcanonical] at hcommands
    obtain ⟨graphValue, hget, hsource, hvalid, hnormal⟩ := hgraph
    obtain ⟨_, hlist, rfl, hplain⟩ := hcommands
    refine ⟨⟨graphValue, ?_, ?_⟩, ?_, ?_, ?_⟩
    · rw [hval]
      exact hsource
    · rw [record_iff hcanonical rfl (by simp) "DesignTransaction", hval]
      simp only [List.forall_mem_cons, List.not_mem_nil, IsEmpty.forall_iff, implies_true, and_true]
      exact ⟨hkeys, hbase, hlist, hgate, hcommitted, hpreview, hget, hstate, hid, hverified,
        hreport⟩
    · rw [hval]
      exact hplain
    · rw [hval]
      exact hvalid
    · rw [hval]
      exact hnormal
  · rintro ⟨⟨graphValue, hsource, rfl⟩, hplain, hvalid, hnormal⟩
    have hrecord := (record_iff hcanonical rfl (by simp) "DesignTransaction").mp (Eq.refl _)
    simp only [List.forall_mem_cons, List.not_mem_nil, IsEmpty.forall_iff, implies_true, and_true]
      at hrecord
    obtain ⟨hkeys, hbase, hlist, hgate, hcommitted, hpreview, hget, hstate, hid, hverified,
      hreport⟩ := hrecord
    exact ⟨_, rfl, hkeys, _, hid, _, hbase, t.val.stagedGraph,
      (field_ok graph_reads hcanonical).mpr ⟨_, hget, hsource, hvalid, hnormal⟩, t.val.commands,
      (field_ok commands_reads hcanonical).mpr ⟨_, hlist, rfl, hplain⟩, _, hstate, _, rfl, _,
      hreport, _, hgate, _, hpreview, _, hverified, _, hcommitted, rfl⟩

/-! ### Approvals and attestations -/

section

omit [UnicodeData] [Hashing]

theorem canonicalTimeText_toList (time : DateTime) :
    (canonicalTimeText time).toList = time.isoformat.toList ++ ['Z'] := by
  rw [canonicalTimeText, String.toList_append]
  rfl

theorem canonicalTimeText_last (time : DateTime) :
    (canonicalTimeText time).toList.getLast? = some 'Z' := by
  rw [canonicalTimeText_toList, List.getLast?_append]
  rfl

theorem parseTime_canonicalTimeText (time : DateTime) :
    parseTime (canonicalTimeText time) = some time := by
  unfold parseTime
  rw [canonicalTimeText_toList, List.dropLast_concat, String.ofList_toList]
  exact DateTime.fromisoformat_isoformat time

theorem decodeCanonicalTime_ok {label : String} {time : DateTime} :
    decodeCanonicalTime value label = .ok time ↔ value = .str (canonicalTimeText time) := by
  unfold decodeCanonicalTime
  simp only [bind_ok, exists_unit, expectStr_ok, require_ok]
  constructor
  · rintro ⟨timestamp, rfl, -, h⟩
    split at h
    · cases h
    · simp only [bind_ok, exists_unit, require_ok, pure_ok] at h
      rw [← h.1, h.2]
  · rintro rfl
    refine ⟨_, rfl, canonicalTimeText_last time, ?_⟩
    rw [parseTime_canonicalTimeText]
    simp only [bind_ok, exists_unit, require_ok, pure_ok, and_self]

theorem decodeOptionalTime_ok {label : String} {time : Option DateTime} :
    decodeOptionalTime value label = .ok time ↔
      value = optionalJson (fun time => .str (canonicalTimeText time)) time := by
  unfold decodeOptionalTime
  split
  · cases time <;> simp [optionalJson]
  · rename_i hnull
    simp only [bind_ok, pure_ok, decodeCanonicalTime_ok]
    cases time with
    | none =>
        simp only [reduceCtorEq, and_false, exists_false, false_iff, optionalJson]
        exact hnull
    | some time => simp [optionalJson]

theorem constructStored_ok {α : Type} {checks : α → Except StoreFailure Unit} {a : α}
    {c : Checked (checking checks)} : constructStored checks a = .ok c ↔ c.val = a := by
  unfold constructStored
  rw [Checked.make_ok]
  constructor
  · exact checking_onlyChecks checks a c.val
  · rintro rfl
    exact c.accepted

theorem approvalDecisions_all (decision : ApprovalDecision) :
    enumOf approvalDecisions ApprovalDecision.value decision.value = some decision := by
  cases decision <;> rfl

end

omit [Hashing] in
theorem approvalFromPayload_ok (hcanonical : Canonical value) {a : Approval} :
    approvalFromPayload value = .ok a ↔ value = approvalPayload a := by
  unfold approvalFromPayload approvalPayload
  simp only [bind_ok, exists_unit, expectObject_ok, refusing_ok, pure_ok,
    require_ok, enumMember_ok approvalDecisions_all, constructStored_ok, strField_ok,
    optionalStrField_ok]
  constructor
  · rintro ⟨members, rfl, hkeys, timestamp, htime, -, built, ⟨time, -, _, hdecision, decision, rfl,
      id, hid, digest, hdigest, transaction, htransaction, preview, hpreview, subject, hsubject,
      report, hreport, actor, hactor, reason, hreason, hval⟩, hcanonicalTime, rfl⟩
    rw [← hcanonicalTime] at htime
    rw [record_iff hcanonical rfl (by simp) "ApprovalEvidence"]
    simp only [List.forall_mem_cons, List.not_mem_nil, IsEmpty.forall_iff, implies_true, and_true]
    refine ⟨hkeys, ?_⟩
    rw [hval] at htime ⊢
    exact ⟨hactor, hid, hdigest, htime, hdecision, hpreview, hreason, hsubject, htransaction,
      hreport⟩
  · rintro rfl
    have hrecord := (record_iff hcanonical rfl (by simp) "ApprovalEvidence").mp (Eq.refl _)
    simp only [List.forall_mem_cons, List.not_mem_nil, IsEmpty.forall_iff, implies_true, and_true]
      at hrecord
    obtain ⟨hkeys, hactor, hid, hdigest, htime, hdecision, hpreview, hreason, hsubject,
      htransaction, hreport⟩ := hrecord
    refine ⟨_, rfl, hkeys, _, htime, canonicalTimeText_last _, a, ⟨a.val.decidedAt, ?_, _,
      hdecision, _, rfl, _, hid, _, hdigest, _, htransaction, _, hpreview, _, hsubject, _,
      hreport, _, hactor, _, hreason, rfl⟩, rfl, rfl⟩
    rw [parsedTime, parseTime_canonicalTimeText]

omit [UnicodeData] [Hashing] in
theorem time_reads : Reads decodeCanonicalTime
    (fun value time => value = .str (canonicalTimeText time)) :=
  fun _ _ _ _ => decodeCanonicalTime_ok

omit [UnicodeData] [Hashing] in
theorem optionalTime_reads : Reads decodeOptionalTime (fun value time =>
    value = optionalJson (fun time => .str (canonicalTimeText time)) time) :=
  fun _ _ _ _ => decodeOptionalTime_ok

omit [Hashing] in
theorem attestationFromPayload_ok (hcanonical : Canonical value)
    {a : Attestation} : attestationFromPayload value = .ok a ↔ value = attestationPayload a := by
  unfold attestationFromPayload attestationPayload
  simp only [bind_ok, exists_unit, expectObject_ok, refusing_ok,
    constructStored_ok, strField_ok, intField_ok, boolField_ok]
  constructor
  · -- peeled a few fields at a time, which is faster than one pattern
    rintro ⟨members, rfl, hkeys, h⟩
    obtain ⟨decidedAt, hdecidedAt, issuedAt, hissuedAt, expiresAt, hexpiresAt, consumedAt,
      hconsumedAt, h⟩ := h
    obtain ⟨schemaVersion, hschemaVersion, scope, hscope, algorithm, halgorithm, attestationKeyId,
      hattestationKeyId, h⟩ := h
    obtain ⟨projectId, hprojectId, baseRevision, hbaseRevision, headRevision, hheadRevision,
      parentRevision, hparentRevision, h⟩ := h
    obtain ⟨revisionHash, hrevisionHash, sequence, hsequence, transactionId, htransactionId,
      commandHashes, hcommandHashes, h⟩ := h
    obtain ⟨commandHashesDigest, hcommandHashesDigest, previewDigest, hpreviewDigest,
      verifiedPreviewDigest, hverifiedPreviewDigest, prospectiveGraph, hprospectiveGraph, h⟩ := h
    obtain ⟨reportHash, hreportHash, inputHash, hinputHash, ruleSetHash, hruleSetHash, gatePassed,
      hgatePassed, h⟩ := h
    obtain ⟨releaseSubject, hreleaseSubject, approvalId, happrovalId, approvalRunId, happrovalRunId,
      approvalKind, happrovalKind, h⟩ := h
    obtain ⟨approvalDigest, happrovalDigest, approvalPrincipal, happrovalPrincipal,
      approvalExpiresAt, happrovalExpiresAt, authorizationKeyId, hauthorizationKeyId, h⟩ := h
    obtain ⟨authorizationId, hauthorizationId, authorizationDigest, hauthorizationDigest,
      authorizationNonce, hauthorizationNonce, signature, hsignature, hval⟩ := h
    rw [field_eq time_reads hcanonical] at hdecidedAt hissuedAt hexpiresAt hconsumedAt
    rw [field_eq optionalTime_reads hcanonical] at happrovalExpiresAt
    rw [field_eq strings_reads hcanonical] at hcommandHashes
    rw [record_iff hcanonical rfl (by simp) "DurableCommitAttestation", hval]
    simp only [List.forall_mem_cons, List.not_mem_nil, IsEmpty.forall_iff, implies_true, and_true]
    exact ⟨hkeys, halgorithm, hdecidedAt, happrovalDigest, happrovalExpiresAt, happrovalId,
      happrovalKind, happrovalPrincipal, happrovalRunId, hattestationKeyId, hconsumedAt,
      hauthorizationDigest, hexpiresAt, hauthorizationId, hissuedAt, hauthorizationKeyId,
      hauthorizationNonce, hbaseRevision, hcommandHashes, hcommandHashesDigest, hgatePassed,
      hheadRevision, hparentRevision, hpreviewDigest, hprojectId, hprospectiveGraph,
      hreleaseSubject, hrevisionHash, hschemaVersion, hscope, hsequence, hsignature, htransactionId,
      hinputHash, hreportHash, hruleSetHash, hverifiedPreviewDigest⟩
  · rintro rfl
    have hrecord := (record_iff hcanonical rfl (by simp) "DurableCommitAttestation").mp (Eq.refl _)
    simp only [List.forall_mem_cons, List.not_mem_nil, IsEmpty.forall_iff, implies_true, and_true]
      at hrecord
    obtain ⟨hkeys, halgorithm, hdecidedAt, happrovalDigest, happrovalExpiresAt, happrovalId,
      happrovalKind, happrovalPrincipal, happrovalRunId, hattestationKeyId, hconsumedAt,
      hauthorizationDigest, hexpiresAt, hauthorizationId, hissuedAt, hauthorizationKeyId,
      hauthorizationNonce, hbaseRevision, hcommandHashes, hcommandHashesDigest, hgatePassed,
      hheadRevision, hparentRevision, hpreviewDigest, hprojectId, hprospectiveGraph,
      hreleaseSubject, hrevisionHash, hschemaVersion, hscope, hsequence, hsignature, htransactionId,
      hinputHash, hreportHash, hruleSetHash, hverifiedPreviewDigest⟩ := hrecord
    rw [← field_eq time_reads hcanonical] at hdecidedAt hissuedAt hexpiresAt hconsumedAt
    rw [← field_eq optionalTime_reads hcanonical] at happrovalExpiresAt
    rw [← field_eq strings_reads hcanonical] at hcommandHashes
    exact ⟨_, rfl, hkeys, _, hdecidedAt, _, hissuedAt, _, hexpiresAt, _, hconsumedAt, _,
      hschemaVersion, _, hscope, _, halgorithm, _, hattestationKeyId, _, hprojectId, _,
      hbaseRevision, _, hheadRevision, _, hparentRevision, _, hrevisionHash, _, hsequence, _,
      htransactionId, _, hcommandHashes, _, hcommandHashesDigest, _, hpreviewDigest, _,
      hverifiedPreviewDigest, _, hprospectiveGraph, _, hreportHash, _, hinputHash, _, hruleSetHash,
      _, hgatePassed, _, hreleaseSubject, _, happrovalId, _, happrovalRunId, _, happrovalKind, _,
      happrovalDigest, _, happrovalPrincipal, _, happrovalExpiresAt, _, hauthorizationKeyId, _,
      hauthorizationId, _, hauthorizationDigest, _, hauthorizationNonce, _, hsignature, rfl⟩

end Records

end Evleda.ProjectStore
