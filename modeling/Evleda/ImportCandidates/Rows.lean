/-
What is stored is read back.

The row of a candidate whose checks pass reads as that candidate, and the row of an
event as that event.  The texts of the diagnostics and the blockers are canonical
JSON, and reading an object of theirs finds each member under its key.
-/
import Evleda.ImportCandidates.Repository

namespace Evleda.ImportCandidates

open Outcome

section Fields

/-! ### Members of an object -/

variable {members : List (String × Json)}

theorem closedObject_ok {expected : List String} {message : String}
    (h : (members.map Prod.fst).Perm expected) :
    closedObject expected message (.obj members) = .ok members :=
  bind_ok.mpr ⟨(), require_ok.mpr h, rfl⟩

theorem textField_ok {key text : String}
    (h : Json.get? members key = some (.str text)) : textField members key = .ok text := by
  unfold textField
  rw [h]

theorem optionalTextField_ok {key : String} {text : Option String}
    (h : Json.get? members key = some (optionalText text)) :
    optionalTextField members key = .ok text := by
  unfold optionalTextField
  rw [h]
  cases text <;> rfl

theorem textsField_ok {key : String} {texts : List String}
    (h : Json.get? members key = some (.arr (texts.map .str))) :
    textsField members key = .ok texts := by
  unfold textsField
  rw [h]
  refine mapM_ok.mpr ?_
  rw [List.forall₂_map_left_iff]
  exact List.forall₂_same.mpr fun _ _ => rfl

theorem enumOf_some {α : Type} {malformed : CandidateFailure} {found : Option α} {value : α} :
    enumOf malformed found = .ok value ↔ found = some value := by
  cases found with
  | none => simp [enumOf]
  | some found => simp [enumOf]

theorem constructed_ok {α : Type} {malformed : CandidateFailure}
    {checks : Except CandidateFailure Unit} {value built : α} :
    constructed malformed checks value = .ok built ↔ checks = .ok () ∧ value = built := by
  unfold constructed
  cases checks with
  | ok u => simp
  | error failure => simp

/-! ### Canonical texts -/

theorem optionalText_canonical (value : Option String) : Json.Canonical (optionalText value) := by
  cases value with
  | none => exact Json.canonical_null
  | some text => exact Json.canonical_str text

theorem diagnosticsJson_canonical (items : List CandidateDiagnostic) :
    Json.Canonical (diagnosticsJson items) := by
  refine Json.canonical_arr.mpr ?_
  intro value hvalue
  obtain ⟨item, -, rfl⟩ := List.mem_map.mp hvalue
  refine Json.canonical_object (by simp) ?_
  simp [Json.canonical_str, optionalText_canonical]

theorem blockersJson_canonical (items : List CandidateBlocker) :
    Json.Canonical (blockersJson items) := by
  refine Json.canonical_arr.mpr ?_
  intro value hvalue
  obtain ⟨item, -, rfl⟩ := List.mem_map.mp hvalue
  refine Json.canonical_object (by simp) ?_
  have hids : Json.Canonical (.arr (item.entityIds.map .str)) := by
    refine Json.canonical_arr.mpr ?_
    intro value hvalue
    obtain ⟨id, -, rfl⟩ := List.mem_map.mp hvalue
    exact Json.canonical_str id
  simp [Json.canonical_str, hids]

theorem decodeCanonicalArray_dumps {items : List Json} {label : String}
    (h : Json.Canonical (.arr items)) :
    decodeCanonicalArray (Json.arr items).dumps label = .ok items := by
  have hloads : Json.canonicalLoads (Json.arr items).dumps = some (.arr items) := by
    refine Json.canonicalLoads_iff.mpr ⟨h, ?_⟩
    unfold Json.dumps
    rw [h.1]
  unfold decodeCanonicalArray
  rw [hloads]

/-! ### Identifiers -/

theorem hexDigits_lower (width n : Nat) :
    ∀ c ∈ Text.hexDigits width n, Text.isLowerHex c = true := by
  intro c hc
  unfold Text.hexDigits at hc
  obtain ⟨place, -, rfl⟩ := List.mem_map.mp hc
  have hlt : n / 16 ^ place % 16 < 16 := Nat.mod_lt _ (by decide)
  have hall : ∀ d < 16, Text.isLowerHex d.digitChar = true := by decide
  exact hall _ hlt

theorem isMarkedId_append {mark : String} {digits : List Char} (hlength : digits.length = 32)
    (hlower : ∀ c ∈ digits, Text.isLowerHex c = true) :
    isMarkedId mark (mark ++ String.ofList digits) = true := by
  unfold isMarkedId
  rw [String.toList_append, String.toList_ofList, ← String.length_toList, List.drop_left,
    Bool.and_eq_true, Bool.and_eq_true, List.isPrefixOf_iff_prefix, List.all_eq_true, beq_iff_eq]
  exact ⟨List.prefix_append _ _, hlength, hlower⟩

/-- The beginning of a digest makes an identifier. -/
theorem requireCandidateId_digest {digest : String} (h : Text.isSha256 digest = true) :
    requireCandidateId ("import_candidate_" ++ String.ofList (digest.toList.take 32)) = .ok () := by
  unfold Text.isSha256 at h
  rw [Bool.and_eq_true, List.all_eq_true, beq_iff_eq, ← String.length_toList] at h
  refine require_ok.mpr (isMarkedId_append ?_ fun c hc => h.2 c (List.mem_of_mem_take hc))
  rw [List.length_take, h.1]
  rfl

end Fields

section RoundTrips

variable [UnicodeData] [InspectionPolicy] [Hashing]

/-! ### Diagnostics and blockers -/

section

omit [InspectionPolicy] [Hashing]

theorem decodeDiagnostic_payload {item : CandidateDiagnostic} (h : item.checks = .ok ()) :
    decodeDiagnostic item.payload = .ok item := by
  obtain ⟨members, hobject, hkeys, hget⟩ := @Json.object_members [
    ("code", .str item.code), ("diagnostic_id", .str item.diagnosticId),
    ("entity_id", optionalText item.entityId), ("evidence_digest", .str item.evidenceDigest),
    ("message", .str item.message), ("scope", .str item.scope),
    ("severity", .str item.severity.value)] (by simp)
  unfold decodeDiagnostic CandidateDiagnostic.payload
  rw [hobject]
  simp only [bind_ok]
  exact ⟨members, closedObject_ok hkeys, item.diagnosticId, textField_ok (hget _ _ (by simp)),
    item.code, textField_ok (hget _ _ (by simp)), item.severity.value,
    textField_ok (hget _ _ (by simp)), item.severity,
    enumOf_some.mpr (DiagnosticSeverity.ofValue_value _), item.scope,
    textField_ok (hget _ _ (by simp)), item.message, textField_ok (hget _ _ (by simp)),
    item.evidenceDigest, textField_ok (hget _ _ (by simp)), item.entityId,
    optionalTextField_ok (hget _ _ (by simp)), constructed_ok.mpr ⟨h, rfl⟩⟩

theorem decodeBlocker_payload {item : CandidateBlocker} (h : item.checks = .ok ()) :
    decodeBlocker item.payload = .ok item := by
  obtain ⟨members, hobject, hkeys, hget⟩ := @Json.object_members [
    ("blocker_id", .str item.blockerId), ("code", .str item.code),
    ("entity_ids", .arr (item.entityIds.map .str)),
    ("evidence_digest", .str item.evidenceDigest), ("message", .str item.message)] (by simp)
  unfold decodeBlocker CandidateBlocker.payload
  rw [hobject]
  simp only [bind_ok]
  exact ⟨members, closedObject_ok hkeys, item.entityIds, textsField_ok (hget _ _ (by simp)),
    item.blockerId, textField_ok (hget _ _ (by simp)), item.code,
    textField_ok (hget _ _ (by simp)), item.message, textField_ok (hget _ _ (by simp)),
    item.evidenceDigest, textField_ok (hget _ _ (by simp)), constructed_ok.mpr ⟨h, rfl⟩⟩

theorem decodeDiagnostics_dumps {items : List CandidateDiagnostic}
    (h : validateDiagnostics items = .ok ()) :
    decodeDiagnostics (diagnosticsJson items).dumps = .ok items := by
  obtain ⟨_, hchecks, -⟩ := bind_ok.mp h
  refine bind_ok.mpr
    ⟨_, decodeCanonicalArray_dumps (diagnosticsJson_canonical items), ?_⟩
  refine mapM_ok.mpr ?_
  rw [List.forall₂_map_left_iff]
  exact List.forall₂_same.mpr fun item hitem =>
    decodeDiagnostic_payload (forM_ok.mp hchecks item hitem)

theorem decodeBlockers_dumps {items : List CandidateBlocker} (h : validateBlockers items = .ok ()) :
    decodeBlockers (blockersJson items).dumps = .ok items := by
  obtain ⟨_, hchecks, -⟩ := bind_ok.mp h
  refine bind_ok.mpr ⟨_, decodeCanonicalArray_dumps (blockersJson_canonical items), ?_⟩
  refine mapM_ok.mpr ?_
  rw [List.forall₂_map_left_iff]
  exact List.forall₂_same.mpr fun item hitem =>
    decodeBlocker_payload (forM_ok.mp hchecks item hitem)

end

/-! ### Candidates and events -/

variable {candidate : ImportCandidate}

theorem ImportCandidate.checks_ok :
    candidate.checks = .ok () ↔
      requireCandidateId candidate.candidateId = .ok () ∧
      requireSha256 candidate.candidateDigest "candidate digest" = .ok () ∧
      candidate.draft.checks = .ok () ∧
      candidate.inspectionPayloadDigest = candidate.draft.inspectionPayloadDigest ∧
      candidate.candidateDigest = candidate.draft.candidateDigest ∧
      candidate.candidateId = candidate.draft.candidateId ∧
      requireNonnegative candidate.generation "candidate generation" = .ok () ∧
      requireGiven (requireSha256 · "resolution receipt digest")
        candidate.resolutionReceiptDigest = .ok () ∧
      requireGiven (requireSha256 · "stage receipt digest") candidate.stageReceiptDigest = .ok () ∧
      requireGiven (requireText · "terminal reason") candidate.terminalReason = .ok () ∧
      candidate.createdAt ≤ candidate.updatedAt ∧
      requireSha256 candidate.lastEventDigest "last event digest" = .ok () ∧
      candidate.evidenceChecks = .ok () := by
  unfold ImportCandidate.checks
  simp only [bind_ok, exists_unit, require_ok]

/-- **The row of a candidate reads as the candidate.** -/
theorem candidateFromRow_row (h : candidate.checks = .ok ()) :
    candidateFromRow candidate.row = .ok candidate := by
  obtain ⟨-, -, hdraft, -⟩ := ImportCandidate.checks_ok.mp h
  unfold ImportCandidateDraft.checks at hdraft
  simp only [bind_ok, exists_unit] at hdraft
  obtain ⟨-, -, -, -, -, -, -, -, hdiagnostics, hblockers, -⟩ := hdraft
  unfold candidateFromRow ImportCandidate.row
  simp only [bind_ok, exists_unit, require_ok]
  exact ⟨_, decodeDiagnostics_dumps hdiagnostics, _, decodeBlockers_dumps hblockers, rfl, rfl, _,
    enumOf_some.mpr (CandidateIdentityScheme.ofValue_value _), _,
    enumOf_some.mpr (ArtifactKind.ofValue_value _), _,
    enumOf_some.mpr (CandidateState.ofValue_value _), _, decodeTime_encodeTime _, _,
    decodeTime_encodeTime _, constructed_ok.mpr ⟨h, rfl⟩⟩

/-- What is read from a row: a candidate whose checks pass, with what its columns say. -/
theorem candidateFromRow_ok {row : CandidateRow}
    (h : candidateFromRow row = .ok candidate) :
    candidate.checks = .ok () ∧ candidate.candidateId = row.candidateId ∧
      candidate.candidateDigest = row.candidateDigest ∧ candidate.state.value = row.state ∧
      candidate.generation = row.generation ∧ candidate.lastEventDigest = row.lastEventDigest := by
  unfold candidateFromRow at h
  simp only [bind_ok, exists_unit, require_ok] at h
  obtain ⟨diagnostics, -, blockers, -, -, -, scheme, -, kind, -, state, hstate, createdAt, -,
    updatedAt, -, hbuilt⟩ := h
  obtain ⟨hchecks, rfl⟩ := constructed_ok.mp hbuilt
  have hvalue : state.value = row.state := by
    have hfound := List.find?_some (enumOf_some.mp hstate)
    exact beq_iff_eq.mp hfound
  exact ⟨hchecks, rfl, rfl, hvalue, rfl, rfl⟩

/-- A row of which only the lifecycle was set reads as the candidate of which only the lifecycle
was. -/
theorem candidateFromRow_updated {row : CandidateRow}
    (h : candidateFromRow row = .ok candidate) {state : CandidateState} {generation : Int}
    {updatedAt : DateTime} {lastEventDigest : String}
    {resolution stage reason : Option String}
    (hchecks : (candidate.withTransition state generation updatedAt lastEventDigest resolution stage
      reason).checks = .ok ()) :
    candidateFromRow (row.updated (candidate.withTransition state generation updatedAt
      lastEventDigest resolution stage reason)) =
      .ok (candidate.withTransition state generation updatedAt lastEventDigest resolution stage
        reason) := by
  unfold candidateFromRow at h ⊢
  simp only [bind_ok, exists_unit, require_ok] at h ⊢
  obtain ⟨diagnostics, hdiagnostics, blockers, hblockers, hdigest, hdigest', scheme, hscheme, kind,
    hkind, oldState, -, createdAt, hcreated, oldUpdatedAt, -, hbuilt⟩ := h
  obtain ⟨-, rfl⟩ := constructed_ok.mp hbuilt
  exact ⟨diagnostics, hdiagnostics, blockers, hblockers, hdigest, hdigest', scheme, hscheme, kind,
    hkind, state, enumOf_some.mpr (CandidateState.ofValue_value _), createdAt, hcreated, updatedAt,
    decodeTime_encodeTime _, constructed_ok.mpr ⟨hchecks, rfl⟩⟩

omit [InspectionPolicy] in
/-- **The row of an event reads as the event.** -/
theorem eventFromRow_row {event : CandidateTransitionEvent} (h : event.checks = .ok ()) :
    eventFromRow event.row = .ok event := by
  have hprevious : optionalState (event.previousState.map (·.value)) = .ok event.previousState := by
    cases event.previousState with
    | none => rfl
    | some state =>
        exact bind_ok.mpr ⟨state, enumOf_some.mpr (CandidateState.ofValue_value _), rfl⟩
  unfold eventFromRow CandidateTransitionEvent.row
  simp only [bind_ok]
  exact ⟨_, enumOf_some.mpr (CandidateEventKind.ofValue_value _), _, hprevious, _,
    enumOf_some.mpr (CandidateState.ofValue_value _), _, decodeTime_encodeTime _,
    constructed_ok.mpr ⟨h, rfl⟩⟩

omit [InspectionPolicy] in
theorem eventFromRow_ok {row : EventRow} {event : CandidateTransitionEvent}
    (h : eventFromRow row = .ok event) :
    event.checks = .ok () ∧ event.candidateId = row.candidateId ∧ event.sequence = row.sequence := by
  unfold eventFromRow at h
  simp only [bind_ok] at h
  obtain ⟨kind, -, previousState, -, state, -, transitionedAt, -, hbuilt⟩ := h
  obtain ⟨hchecks, rfl⟩ := constructed_ok.mp hbuilt
  exact ⟨hchecks, rfl, rfl⟩

end RoundTrips

end Evleda.ImportCandidates
