/-
What `create` does with a draft.

The identifier of a candidate is the beginning of a digest of its identity.  The
identity names the artifact, the project, the run, the inspection, the diagnostics
and the blockers; it does not name who created the draft, nor the algorithm that
took the digest of the payload.  A draft whose identifier is stored already is
answered with the stored candidate.  So the answer is the draft that was given
unless a candidate of the same identity came from somebody else, or by the other
algorithm; and a new candidate is stored unless its run revision does not fit the
column.
-/
import Evleda.ImportCandidates.Calls

namespace Evleda.ImportCandidates

open Outcome

/-! ### What the digests are taken of -/

/-- The text that `digest` hashes. -/
def digestText (domain : String) (value : Json) : List Char :=
  (Json.object [("domain", .str domain), ("value", value)]).render

theorem candidateId_of_material {event event' : CandidateTransitionEvent}
    (h : digestText "flux-clone.kicad-import-candidate.event.v1" event.material =
      digestText "flux-clone.kicad-import-candidate.event.v1" event'.material) :
    event.candidateId = event'.candidateId := by
  have hbodies := Json.perm_of_object_eq (Json.render_injective h)
  have hmaterial : event.material = event'.material := by
    have hmem := hbodies.subset (show ("value", event.material) ∈ _ by simp)
    simpa using hmem
  have hmembers := Json.perm_of_object_eq hmaterial
  have hmem := hmembers.subset (show ("candidate_id", Json.str event.candidateId) ∈ _ by simp)
  simpa using hmem

section Payloads

variable [InspectionPolicy]

theorem payloadChecks_ok {draft : ImportCandidateDraft} (h : draft.payloadChecks = .ok ()) :
    ∃ value, (Json.loads draft.inspectionPayloadJson).map Json.canonical = some value ∧
      value.render = draft.inspectionPayloadJson.toList := by
  unfold ImportCandidateDraft.payloadChecks at h
  split at h
  · cases h
  · cases h
  · case h_3 members _ hloads =>
      dsimp only at h
      split at h
      · cases h
      · refine ⟨(Json.obj members).canonical, by rw [hloads]; rfl, ?_⟩
        rw [← require_ok.mp h, String.toList_ofList]
  · cases h

theorem payloadChecks_of_checks [UnicodeData] {draft : ImportCandidateDraft}
    (h : draft.checks = .ok ()) : draft.payloadChecks = .ok () := by
  unfold ImportCandidateDraft.checks at h
  simp only [bind_ok, exists_unit] at h
  obtain ⟨-, -, -, -, -, -, hpayload, -⟩ := h
  exact hpayload

end Payloads

section Creation

variable [UnicodeData] [InspectionPolicy] [Hashing] {s s' : CandidateStore}
  {candidate : ImportCandidate} {draft draft' : ImportCandidateDraft} {now : DateTime}

/-! ### A draft, its first event and its candidate -/

namespace ImportCandidateDraft

/-- The first event of the candidate of a draft, without its digest. -/
def creation (draft : ImportCandidateDraft) (now : DateTime) : CandidateTransitionEvent where
  candidateId := draft.candidateId
  sequence := 0
  kind := .created
  previousState := none
  state := .pending
  actorId := draft.createdBy
  receiptDigest := some draft.inspectionReceiptDigest
  reason := none
  transitionedAt := now
  previousEventDigest := CandidateTransitionEvent.zeroDigest
  eventDigest := ""

/-- The first event of the candidate of a draft. -/
def created (draft : ImportCandidateDraft) (now : DateTime) : CandidateTransitionEvent :=
  { draft.creation now with eventDigest := (draft.creation now).computedDigest }

/-- The candidate of a draft, as it is created. -/
def pending (draft : ImportCandidateDraft) (now : DateTime) : ImportCandidate where
  candidateId := draft.candidateId
  candidateDigest := draft.candidateDigest
  draft := draft
  inspectionPayloadDigest := draft.inspectionPayloadDigest
  state := .pending
  generation := 0
  resolutionReceiptDigest := none
  stageReceiptDigest := none
  terminalReason := none
  createdAt := now
  updatedAt := now
  lastEventDigest := (draft.created now).eventDigest

/-- The text that the payload digest of a draft is taken of. -/
def payloadText (draft : ImportCandidateDraft) : List Char :=
  match draft.identityScheme with
  | .legacyV2 => digestText "flux-clone.kicad-import-candidate.inspection-payload.v1"
      (((Json.loads draft.inspectionPayloadJson).map Json.canonical).getD .null)
  | .current => draft.inspectionPayloadJson.toList

/-- The text that the digest of a draft is taken of. -/
def identityText (draft : ImportCandidateDraft) : List Char :=
  digestText "flux-clone.kicad-import-candidate.identity.v1" draft.identityPayload

end ImportCandidateDraft

/-- The text that the digest of an event is taken of. -/
def CandidateTransitionEvent.text (event : CandidateTransitionEvent) : List Char :=
  digestText "flux-clone.kicad-import-candidate.event.v1" event.material

/-! ### Histories of creations -/

/-- The store after a creation; one that raises is rolled back. -/
def record (s : CandidateStore) (creation : ImportCandidateDraft × DateTime) : CandidateStore :=
  perform s (.create creation.1, creation.2)

def Stored (s : CandidateStore) (candidate : ImportCandidate) : Prop :=
  ∃ row ∈ s.candidates, candidateFromRow row = .ok candidate

/-- The drafts that were stored, and those that are to be. -/
def drafts (s : CandidateStore) (creations : List (ImportCandidateDraft × DateTime)) :
    Set ImportCandidateDraft :=
  { draft | (∃ candidate, Stored s candidate ∧ candidate.draft = draft) ∨
      ∃ now, (draft, now) ∈ creations }

/-- The events that were stored, and the first events of what is to be. -/
def happenings (s : CandidateStore) (creations : List (ImportCandidateDraft × DateTime)) :
    Set CandidateTransitionEvent :=
  { event | (∃ row ∈ s.events, eventFromRow row = .ok event) ∨
      ∃ creation ∈ creations, creation.1.created creation.2 = event }

/-- Digests have the shape of digests; none is taken twice of what is stored or to be stored, and no
two identities begin alike. -/
structure CollisionFreeOn (s : CandidateStore)
    (creations : List (ImportCandidateDraft × DateTime)) : Prop where
  hex : ∀ text, Text.isSha256 (Hashing.sha256 text) = true
  payloads : Set.InjOn Hashing.sha256
    (ImportCandidateDraft.payloadText '' drafts s creations)
  identities : Set.InjOn (fun text => (Hashing.sha256 text).toList.take 32)
    (ImportCandidateDraft.identityText '' drafts s creations)
  events : Set.InjOn Hashing.sha256
    (CandidateTransitionEvent.text '' happenings s creations)

/-! ### The property and its condition -/

/-- Creating from the draft gives a candidate of the draft, and creating from it again, whatever was
created meanwhile, gives the same candidate and changes nothing. -/
def Faithful (s : CandidateStore) (creation : ImportCandidateDraft × DateTime) : Prop :=
  ∃ candidate s', create s creation.1 creation.2 = .ok (candidate, s') ∧
    candidate.draft = creation.1 ∧
    ∀ later now', create (replay record s' later) creation.1 now' =
      .ok (candidate, replay record s' later)

/-- A stored candidate of the same identity has the creator and the algorithm of the draft; where
there is none, the run revision fits its column. -/
def Meets (s : CandidateStore) (creation : ImportCandidateDraft × DateTime) : Prop :=
  (∀ candidate, Stored s candidate →
    candidate.draft.identityPayload = creation.1.identityPayload →
      candidate.draft.createdBy = creation.1.createdBy ∧
        candidate.draft.identityScheme = creation.1.identityScheme) ∧
  ((∃ candidate, Stored s candidate ∧
    candidate.draft.identityPayload = creation.1.identityPayload) ∨
      creation.1.expectedRunRevision < 2 ^ 63)

/-! ### What the identity says -/

section

omit [UnicodeData] [InspectionPolicy] [Hashing]

theorem digestText_injective (domain : String) : Function.Injective (digestText domain) := by
  intro value value' h
  have hmem := (Json.perm_of_object_eq (Json.render_injective h)).subset
    (show ("value", value) ∈ _ by simp)
  simpa using hmem

theorem optionalText_injective : Function.Injective optionalText := by
  intro value value' h
  cases value with
  | none =>
      cases value' with
      | none => rfl
      | some text => cases h
  | some text =>
      cases value' with
      | none => cases h
      | some text' => exact congrArg some (Json.str.inj h)

theorem DiagnosticSeverity.value_injective : Function.Injective DiagnosticSeverity.value := by
  intro severity severity' h
  have hread := DiagnosticSeverity.ofValue_value severity
  rw [h, DiagnosticSeverity.ofValue_value, Option.some.injEq] at hread
  exact hread.symm

theorem ArtifactKind.value_injective : Function.Injective ArtifactKind.value := by
  intro kind kind' h
  have hread := ArtifactKind.ofValue_value kind
  rw [h, ArtifactKind.ofValue_value, Option.some.injEq] at hread
  exact hread.symm

theorem CandidateDiagnostic.payload_injective : Function.Injective CandidateDiagnostic.payload := by
  intro item item' h
  have hcode : Json.str item.code = .str item'.code :=
    @Json.member_eq _ _ h (by simp) "code" _ _ (by simp) (by simp)
  have hid : Json.str item.diagnosticId = .str item'.diagnosticId :=
    @Json.member_eq _ _ h (by simp) "diagnostic_id" _ _ (by simp) (by simp)
  have hentity : optionalText item.entityId = optionalText item'.entityId :=
    @Json.member_eq _ _ h (by simp) "entity_id" _ _ (by simp) (by simp)
  have hevidence : Json.str item.evidenceDigest = .str item'.evidenceDigest :=
    @Json.member_eq _ _ h (by simp) "evidence_digest" _ _ (by simp) (by simp)
  have hmessage : Json.str item.message = .str item'.message :=
    @Json.member_eq _ _ h (by simp) "message" _ _ (by simp) (by simp)
  have hscope : Json.str item.scope = .str item'.scope :=
    @Json.member_eq _ _ h (by simp) "scope" _ _ (by simp) (by simp)
  have hseverity : Json.str item.severity.value = .str item'.severity.value :=
    @Json.member_eq _ _ h (by simp) "severity" _ _ (by simp) (by simp)
  have hsame := DiagnosticSeverity.value_injective (Json.str.inj hseverity)
  rw [Json.str.injEq] at hcode hid hevidence hmessage hscope
  cases item
  cases item'
  simp only at hcode hid hevidence hmessage hscope hsame hentity
  rw [hcode, hid, hevidence, hmessage, hscope, hsame, optionalText_injective hentity]

theorem CandidateBlocker.payload_injective : Function.Injective CandidateBlocker.payload := by
  intro item item' h
  have hid : Json.str item.blockerId = .str item'.blockerId :=
    @Json.member_eq _ _ h (by simp) "blocker_id" _ _ (by simp) (by simp)
  have hcode : Json.str item.code = .str item'.code :=
    @Json.member_eq _ _ h (by simp) "code" _ _ (by simp) (by simp)
  have hentities : Json.arr (item.entityIds.map .str) = .arr (item'.entityIds.map .str) :=
    @Json.member_eq _ _ h (by simp) "entity_ids" _ _ (by simp) (by simp)
  have hevidence : Json.str item.evidenceDigest = .str item'.evidenceDigest :=
    @Json.member_eq _ _ h (by simp) "evidence_digest" _ _ (by simp) (by simp)
  have hmessage : Json.str item.message = .str item'.message :=
    @Json.member_eq _ _ h (by simp) "message" _ _ (by simp) (by simp)
  have hids : item.entityIds = item'.entityIds :=
    List.map_injective_iff.mpr (fun _ _ => Json.str.inj) (Json.arr.inj hentities)
  rw [Json.str.injEq] at hid hcode hevidence hmessage
  cases item
  cases item'
  simp only at hid hcode hids hevidence hmessage
  rw [hid, hcode, hids, hevidence, hmessage]

end

section

omit [UnicodeData] [InspectionPolicy]

/-- **The identity leaves out the creator and the algorithm, and nothing else.** -/
theorem draft_eq (h : draft.identityPayload = draft'.identityPayload)
    (hpayload : draft.inspectionPayloadJson = draft'.inspectionPayloadJson)
    (hcreator : draft.createdBy = draft'.createdBy)
    (hscheme : draft.identityScheme = draft'.identityScheme) : draft = draft' := by
  have hartifact : Json.object [("artifact_id", .str draft.artifactId),
      ("kind", .str draft.artifactKind.value), ("sha256", .str draft.artifactSha256)] =
      Json.object [("artifact_id", .str draft'.artifactId),
        ("kind", .str draft'.artifactKind.value), ("sha256", .str draft'.artifactSha256)] :=
    @Json.member_eq _ _ h (by simp) "artifact" _ _ (by simp) (by simp)
  have hproject : Json.object [("expected_revision", .str draft.expectedProjectRevision),
      ("project_id", .str draft.projectId)] =
      Json.object [("expected_revision", .str draft'.expectedProjectRevision),
        ("project_id", .str draft'.projectId)] :=
    @Json.member_eq _ _ h (by simp) "project" _ _ (by simp) (by simp)
  have hrun : Json.object [("expected_revision", .int draft.expectedRunRevision),
      ("run_id", .str draft.runId)] =
      Json.object [("expected_revision", .int draft'.expectedRunRevision),
        ("run_id", .str draft'.runId)] :=
    @Json.member_eq _ _ h (by simp) "run" _ _ (by simp) (by simp)
  have hblockers : blockersJson draft.blockers = blockersJson draft'.blockers :=
    @Json.member_eq _ _ h (by simp) "blockers" _ _ (by simp) (by simp)
  have hdiagnostics : diagnosticsJson draft.diagnostics = diagnosticsJson draft'.diagnostics :=
    @Json.member_eq _ _ h (by simp) "diagnostics" _ _ (by simp) (by simp)
  have hreceipt : Json.str draft.inspectionReceiptDigest = .str draft'.inspectionReceiptDigest :=
    @Json.member_eq _ _ h (by simp) "inspection_receipt_digest" _ _ (by simp) (by simp)
  have hartifactId : Json.str draft.artifactId = .str draft'.artifactId :=
    @Json.member_eq _ _ hartifact (by simp) "artifact_id" _ _ (by simp) (by simp)
  have hkind : Json.str draft.artifactKind.value = .str draft'.artifactKind.value :=
    @Json.member_eq _ _ hartifact (by simp) "kind" _ _ (by simp) (by simp)
  have hsha : Json.str draft.artifactSha256 = .str draft'.artifactSha256 :=
    @Json.member_eq _ _ hartifact (by simp) "sha256" _ _ (by simp) (by simp)
  have hprojectRevision : Json.str draft.expectedProjectRevision =
      .str draft'.expectedProjectRevision :=
    @Json.member_eq _ _ hproject (by simp) "expected_revision" _ _ (by simp) (by simp)
  have hprojectId : Json.str draft.projectId = .str draft'.projectId :=
    @Json.member_eq _ _ hproject (by simp) "project_id" _ _ (by simp) (by simp)
  have hrunRevision : Json.int draft.expectedRunRevision = .int draft'.expectedRunRevision :=
    @Json.member_eq _ _ hrun (by simp) "expected_revision" _ _ (by simp) (by simp)
  have hrunId : Json.str draft.runId = .str draft'.runId :=
    @Json.member_eq _ _ hrun (by simp) "run_id" _ _ (by simp) (by simp)
  have hblockers' : draft.blockers = draft'.blockers :=
    List.map_injective_iff.mpr CandidateBlocker.payload_injective (Json.arr.inj hblockers)
  have hdiagnostics' : draft.diagnostics = draft'.diagnostics :=
    List.map_injective_iff.mpr CandidateDiagnostic.payload_injective (Json.arr.inj hdiagnostics)
  have hkind' := ArtifactKind.value_injective (Json.str.inj hkind)
  cases draft
  cases draft'
  exact ImportCandidateDraft.mk.injEq .. ▸ ⟨Json.str.inj hartifactId, Json.str.inj hsha, hkind',
    Json.str.inj hprojectId, Json.str.inj hprojectRevision, Json.str.inj hrunId,
    Json.int.inj hrunRevision, hpayload, Json.str.inj hreceipt, hdiagnostics', hblockers', hcreator,
    hscheme⟩

theorem inspectionPayloadDigest_text :
    draft.inspectionPayloadDigest = Hashing.sha256 draft.payloadText := by
  unfold ImportCandidateDraft.inspectionPayloadDigest ImportCandidateDraft.payloadText
  cases draft.identityScheme with
  | legacyV2 => rfl
  | current => rfl

end

omit [UnicodeData] [Hashing] in
theorem inspectionPayloadJson_eq (hchecks : draft.payloadChecks = .ok ())
    (hchecks' : draft'.payloadChecks = .ok ()) (hscheme : draft.identityScheme = draft'.identityScheme)
    (htext : draft.payloadText = draft'.payloadText) :
    draft.inspectionPayloadJson = draft'.inspectionPayloadJson := by
  obtain ⟨value, hvalue, hrender⟩ := payloadChecks_ok hchecks
  obtain ⟨value', hvalue', hrender'⟩ := payloadChecks_ok hchecks'
  unfold ImportCandidateDraft.payloadText at htext
  rw [← hscheme] at htext
  split at htext
  · have hsame := digestText_injective _ htext
    rw [hvalue, hvalue', Option.getD_some, Option.getD_some] at hsame
    rw [← String.toList_inj, ← hrender, ← hrender', hsame]
  · exact String.toList_inj.mp htext

omit [UnicodeData] [InspectionPolicy] in
/-- Identifiers are as different as the beginnings of the digests. -/
theorem candidateId_eq : draft.candidateId = draft'.candidateId ↔
    draft.candidateDigest.toList.take 32 = draft'.candidateDigest.toList.take 32 := by
  unfold ImportCandidateDraft.candidateId
  constructor
  · intro h
    have htexts := congrArg String.toList h
    simp only [String.toList_append, String.toList_ofList] at htexts
    exact List.append_cancel_left htexts
  · intro h
    rw [h]

namespace CollisionFreeOn

variable {creations : List (ImportCandidateDraft × DateTime)}

theorem identity (h : CollisionFreeOn s creations) (hmem : draft ∈ drafts s creations)
    (hmem' : draft' ∈ drafts s creations) (hid : draft.candidateId = draft'.candidateId) :
    draft.identityPayload = draft'.identityPayload :=
  digestText_injective _ (h.identities (Set.mem_image_of_mem _ hmem) (Set.mem_image_of_mem _ hmem')
    (candidateId_eq.mp hid))

theorem draft_eq (h : CollisionFreeOn s creations) (hmem : draft ∈ drafts s creations)
    (hmem' : draft' ∈ drafts s creations) (hchecks : draft.checks = .ok ())
    (hchecks' : draft'.checks = .ok ()) (hidentity : draft.identityPayload = draft'.identityPayload)
    (hcreator : draft.createdBy = draft'.createdBy)
    (hscheme : draft.identityScheme = draft'.identityScheme) : draft = draft' := by
  have hdigest : Json.str draft.inspectionPayloadDigest = .str draft'.inspectionPayloadDigest :=
    @Json.member_eq _ _ hidentity (by simp) "inspection_payload_digest" _ _ (by simp) (by simp)
  rw [Json.str.injEq, inspectionPayloadDigest_text, inspectionPayloadDigest_text] at hdigest
  have htext := h.payloads (Set.mem_image_of_mem _ hmem) (Set.mem_image_of_mem _ hmem') hdigest
  exact ImportCandidates.draft_eq hidentity (inspectionPayloadJson_eq (payloadChecks_of_checks hchecks)
    (payloadChecks_of_checks hchecks') hscheme htext) hcreator hscheme

end CollisionFreeOn

/-! ### A candidate is created -/

omit [InspectionPolicy] in
theorem created_checks (hhex : ∀ text, Text.isSha256 (Hashing.sha256 text) = true)
    [InspectionPolicy] (hchecks : draft.checks = .ok ()) : (draft.created now).checks = .ok () := by
  unfold ImportCandidateDraft.checks at hchecks
  simp only [bind_ok, exists_unit] at hchecks
  obtain ⟨-, -, -, -, -, -, -, hreceipt, -, -, hcreator⟩ := hchecks
  unfold CandidateTransitionEvent.checks
  simp only [bind_ok, exists_unit, require_ok]
  refine ⟨requireCandidateId_digest (hhex _), require_ok.mpr (le_refl 0), ?_, ?_, rfl, ?_,
    require_ok.mpr (hhex _), ?_, rfl⟩
  · exact require_ok.mpr (require_ok.mp hcreator)
  · exact require_ok.mpr (require_ok.mp hreceipt)
  · exact require_ok.mpr (show Text.isSha256 CandidateTransitionEvent.zeroDigest = true by decide)
  · exact CandidateTransitionEvent.kindChecks_ok.mpr (by simp [ImportCandidateDraft.created,
      ImportCandidateDraft.creation])

theorem pending_checks (hhex : ∀ text, Text.isSha256 (Hashing.sha256 text) = true)
    (hchecks : draft.checks = .ok ()) : (draft.pending now).checks = .ok () :=
  ImportCandidate.checks_ok.mpr ⟨requireCandidateId_digest (hhex _), require_ok.mpr (hhex _), hchecks,
    rfl, rfl, rfl, require_ok.mpr (le_refl _), rfl, rfl, rfl, Int.le_refl _, require_ok.mpr (hhex _),
    rfl⟩

/-- What `create` does with a draft whose checks pass. -/
theorem create_eq (hhex : ∀ text, Text.isSha256 (Hashing.sha256 text) = true)
    (hchecks : draft.checks = .ok ()) : create s draft now =
      match s.rowOf draft.candidateId with
      | some row => do
          let existing ← candidateFromRow row
          let _ ← verifyEventChain s existing
          require (existing.candidateDigest = draft.candidateDigest)
            (integrity "candidate ID collision has a different immutable digest")
          return (existing, s)
      | none => do
          let s ← insertCandidate s (draft.pending now).row
          let s ← insertEvent s (draft.created now).row
          return (draft.pending now, s) := by
  have hbuild : (draft.creation now).build = .ok (draft.created now) :=
    bind_ok.mpr ⟨(), created_checks hhex hchecks, rfl⟩
  have hpending : (draft.pending now).checks = .ok () := pending_checks hhex hchecks
  have hpeel : ∀ {α β : Type} {x : Except CandidateFailure α} {a : α}
      {f : α → Except CandidateFailure β}, x = .ok a → (x >>= f) = f a := by
    rintro α β x a f rfl
    rfl
  unfold create
  exact (hpeel hbuild).trans (hpeel hpending)

variable {row : CandidateRow}

/-- A candidate of the draft that is stored already is what `create` returns. -/
theorem create_again (hhex : ∀ text, Text.isSha256 (Hashing.sha256 text) = true) (hs : Sealed s)
    (hchecks : draft.checks = .ok ()) (hrow : row ∈ s.candidates)
    (hread : candidateFromRow row = .ok candidate) (hid : row.candidateId = draft.candidateId)
    (hdigest : candidate.candidateDigest = draft.candidateDigest) :
    create s draft now = .ok (candidate, s) := by
  obtain ⟨other, events, hreads, hverified⟩ := hs.verified row hrow
  rw [hread, Except.ok.injEq] at hreads
  subst hreads
  have hfound : s.rowOf draft.candidateId = some row := by
    rw [← hid]
    exact (rowOf_eq hs.ids).mpr hrow
  rw [create_eq hhex hchecks, hfound]
  exact bind_ok.mpr ⟨candidate, hread, bind_ok.mpr ⟨events, hverified,
    bind_ok.mpr ⟨(), require_ok.mpr hdigest, rfl⟩⟩⟩

/-! ### A new candidate -/

theorem stored_draft (h : candidateFromRow row = .ok candidate) :
    candidate.draft.checks = .ok () ∧ row.candidateId = candidate.draft.candidateId ∧
      row.candidateDigest = candidate.draft.candidateDigest := by
  obtain ⟨hchecks, hid, hdigest, -⟩ := candidateFromRow_ok h
  obtain ⟨-, -, hdraft, -, hcandidateDigest, hcandidateId, -⟩ := ImportCandidate.checks_ok.mp hchecks
  exact ⟨hdraft, hid.symm.trans hcandidateId, hdigest.symm.trans hcandidateDigest⟩

omit [InspectionPolicy] in
theorem eventFromRow_digest {row : EventRow} {event : CandidateTransitionEvent}
    (h : eventFromRow row = .ok event) : row.eventDigest = Hashing.sha256 event.text := by
  have hdigest := (CandidateTransitionEvent.checks_ok (eventFromRow_ok h).1).2
  unfold eventFromRow at h
  simp only [bind_ok] at h
  obtain ⟨kind, -, previousState, -, state, -, transitionedAt, -, hbuilt⟩ := h
  obtain ⟨-, rfl⟩ := constructed_ok.mp hbuilt
  exact hdigest

theorem Sealed.event (hs : Sealed s) {row : EventRow} (h : row ∈ s.events) :
    ∃ event, eventFromRow row = .ok event := by
  obtain ⟨owner, howner, hid⟩ := hs.owned row h
  obtain ⟨candidate, events, hread, hverified⟩ := hs.verified owner howner
  obtain ⟨first, rest, -, hevents, -⟩ := verifyEventChain_ok.mp hverified
  have hmem : row ∈ s.eventsOf candidate.candidateId := by
    refine mem_sortBy.mpr (List.mem_filter.mpr ⟨h, decide_eq_true ?_⟩)
    rw [(candidateFromRow_ok hread).2.1, hid]
  obtain ⟨event, -, hevent⟩ := mapM_image hevents hmem
  exact ⟨event, hevent⟩

section Fresh

variable (hs : Sealed s) (hhash : CollisionFreeOn s [(draft, now)]) (hchecks : draft.checks = .ok ())
  (hnew : ∀ row ∈ s.candidates, row.candidateId ≠ draft.candidateId)

include hs hhash hchecks hnew

/-- **A draft of a new identity is stored when its run revision fits the column.** -/
theorem create_new (hfits : draft.expectedRunRevision < 2 ^ 63) :
    create s draft now = .ok (draft.pending now,
      ⟨s.candidates ++ [(draft.pending now).row], s.events ++ [(draft.created now).row]⟩) := by
  have hdraft : draft ∈ drafts s [(draft, now)] := Or.inr ⟨now, List.mem_cons_self⟩
  have hrevision : 0 ≤ draft.expectedRunRevision := by
    unfold ImportCandidateDraft.checks at hchecks
    simp only [bind_ok, exists_unit] at hchecks
    obtain ⟨-, -, -, -, -, hrevision, -⟩ := hchecks
    exact require_ok.mp hrevision
  have hinsert : insertCandidate s (draft.pending now).row =
      .ok { s with candidates := s.candidates ++ [(draft.pending now).row] } := by
    refine bind_ok.mpr ⟨(), require_ok.mpr ⟨?_, hfits⟩, bind_ok.mpr ⟨(), require_ok.mpr ?_, rfl⟩⟩
    · show -2 ^ 63 ≤ draft.expectedRunRevision
      omega
    · intro row hrow
      refine ⟨hnew row hrow, fun hdigest => hnew row hrow ?_⟩
      obtain ⟨candidate, events, hread, -⟩ := hs.verified row hrow
      obtain ⟨-, hid, hrowDigest⟩ := stored_draft hread
      rw [hid, candidateId_eq, ← hrowDigest, hdigest]
      rfl
  have hinsertEvent : insertEvent { s with candidates := s.candidates ++ [(draft.pending now).row] }
      (draft.created now).row = .ok
        ⟨s.candidates ++ [(draft.pending now).row], s.events ++ [(draft.created now).row]⟩ := by
    refine bind_ok.mpr ⟨(), require_ok.mpr (show -2 ^ 63 ≤ (0 : Int) ∧ (0 : Int) < 2 ^ 63 by decide),
      bind_ok.mpr ⟨(), require_ok.mpr ?_, bind_ok.mpr ⟨(), require_ok.mpr ?_, rfl⟩⟩⟩
    · intro other hother
      obtain ⟨owner, howner, hid⟩ := hs.owned other hother
      have hne : other.candidateId ≠ draft.candidateId := hid ▸ hnew owner howner
      refine ⟨fun hkey => hne (congrArg Prod.fst hkey), fun hdigest => hne ?_⟩
      -- an event of the same digest would be an event of the same candidate
      obtain ⟨event, hevent⟩ := hs.event hother
      have htexts : event.text = (draft.creation now).text := by
        refine hhash.events (Set.mem_image_of_mem _ (Or.inl ⟨other, hother, hevent⟩))
          ⟨draft.created now, Or.inr ⟨_, List.mem_cons_self, rfl⟩, rfl⟩ ?_
        rw [← eventFromRow_digest hevent]
        exact hdigest
      exact (eventFromRow_ok hevent).2.1.symm.trans (candidateId_of_material htexts)
    · exact ⟨_, List.mem_append_right _ List.mem_cons_self, rfl⟩
  rw [create_eq hhash.hex hchecks, rowOf_eq_none.mpr hnew]
  exact bind_ok.mpr ⟨_, hinsert, bind_ok.mpr ⟨_, hinsertEvent, rfl⟩⟩

omit hs in
theorem create_overflow (hfits : ¬ draft.expectedRunRevision < 2 ^ 63) :
    create s draft now = .error
      ⟨.overflowError, "Python int too large to convert to SQLite INTEGER"⟩ := by
  have hinsert : insertCandidate s (draft.pending now).row = .error
      ⟨.overflowError, "Python int too large to convert to SQLite INTEGER"⟩ :=
    bind_error.mpr (Or.inl (require_error.mpr ⟨fun h => hfits h.2, rfl⟩))
  rw [create_eq hhash.hex hchecks, rowOf_eq_none.mpr hnew]
  exact bind_error.mpr (Or.inl hinsert)

end Fresh

/-! ### One creation -/

theorem record_ok {creation : ImportCandidateDraft × DateTime}
    (h : create s creation.1 creation.2 = .ok (candidate, s')) : record s creation = s' := by
  unfold record perform
  rw [show Call.run s (.create creation.1) creation.2 = .ok (candidate, s') from h]

theorem Sealed.record (hs : Sealed s) (creation : ImportCandidateDraft × DateTime) :
    Sealed (record s creation) :=
  hs.perform _

theorem record_rows (h : row ∈ s.candidates)
    (creation : ImportCandidateDraft × DateTime) : row ∈ (record s creation).candidates := by
  unfold record perform
  split
  · case h_1 candidate s' hrun =>
      obtain ⟨rfl, -⟩ | ⟨event, hadds⟩ := create_ok hrun
      · exact h
      · rw [hadds.candidates]
        exact List.mem_append_left _ h
  · exact h

theorem replay_rows (h : row ∈ s.candidates)
    (later : List (ImportCandidateDraft × DateTime)) :
    row ∈ (replay record s later).candidates :=
  @Replay.invariant _ _ _ s (fun s => row ∈ s.candidates) h (fun _ creation h => record_rows h creation)
    later

theorem answers (hhex : ∀ text, Text.isSha256 (Hashing.sha256 text) = true) (hs : Sealed s)
    (hrow : row ∈ s.candidates) (hread : candidateFromRow row = .ok candidate)
    (later : List (ImportCandidateDraft × DateTime)) (now' : DateTime) :
    create (replay record s later) candidate.draft now' =
      .ok (candidate, replay record s later) := by
  obtain ⟨hchecks, hid, -⟩ := stored_draft hread
  have hsealed : Sealed (replay record s later) :=
    Replay.invariant hs (fun _ creation h => h.record creation) later
  obtain ⟨-, -, -, -, hdigest, -⟩ := ImportCandidate.checks_ok.mp (candidateFromRow_ok hread).1
  exact create_again hhex hsealed hchecks (replay_rows hrow later) hread hid hdigest

section

omit [UnicodeData] [InspectionPolicy]

theorem candidateDigest_of_identity (h : draft.identityPayload = draft'.identityPayload) :
    draft.candidateDigest = draft'.candidateDigest := by
  unfold ImportCandidateDraft.candidateDigest
  rw [h]

theorem candidateId_of_identity (h : draft.identityPayload = draft'.identityPayload) :
    draft.candidateId = draft'.candidateId :=
  candidateId_eq.mpr (by rw [candidateDigest_of_identity h])

end

theorem create_same (hhex : ∀ text, Text.isSha256 (Hashing.sha256 text) = true) (hs : Sealed s)
    (hchecks : draft.checks = .ok ()) (hchecks' : draft'.checks = .ok ())
    (h : draft.identityPayload = draft'.identityPayload) {now' : DateTime}
    (hrow : (draft.pending now).row ∈ s.candidates) :
    create s draft' now' = .ok (draft.pending now, s) :=
  create_again hhex hs hchecks' hrow (candidateFromRow_row (pending_checks hhex hchecks))
    (candidateId_of_identity h) (candidateDigest_of_identity h)

/-- **A creation is faithful exactly when it meets the condition.** -/
theorem faithful_iff (hs : Sealed s) (hhash : CollisionFreeOn s [(draft, now)])
    (hchecks : draft.checks = .ok ()) : Faithful s (draft, now) ↔ Meets s (draft, now) := by
  have hmem : draft ∈ drafts s [(draft, now)] := Or.inr ⟨now, List.mem_cons_self⟩
  by_cases hfound : ∃ row ∈ s.candidates, row.candidateId = draft.candidateId
  · obtain ⟨row, hrow, hid⟩ := hfound
    obtain ⟨stored, events, hread, -⟩ := hs.verified row hrow
    obtain ⟨hstored, hstoredId, -⟩ := stored_draft hread
    have hmem' : stored.draft ∈ drafts s [(draft, now)] := Or.inl ⟨stored, ⟨row, hrow, hread⟩, rfl⟩
    have hidentity := hhash.identity hmem' hmem (hstoredId.symm.trans hid)
    constructor
    · rintro ⟨candidate, s', hcreate, hdraft, -⟩
      obtain ⟨-, -, -, -, hdigest, -⟩ := ImportCandidate.checks_ok.mp (candidateFromRow_ok hread).1
      have hagain : create s draft now = .ok (stored, s) := create_again hhash.hex hs hchecks hrow
        hread hid (hdigest.trans (candidateDigest_of_identity hidentity))
      obtain ⟨rfl, -⟩ := Prod.mk.inj (Except.ok.inj (hagain.symm.trans hcreate))
      refine ⟨?_, Or.inl ⟨stored, ⟨row, hrow, hread⟩, hidentity⟩⟩
      rintro other ⟨row', hrow', hread'⟩ hsame
      -- no other row has the identifier
      have hid' := (stored_draft hread').2.1.trans (candidateId_of_identity hsame)
      obtain rfl : row' = row := List.inj_on_of_nodup_map hs.ids hrow' hrow (hid'.trans hid.symm)
      obtain rfl := Except.ok.inj (hread.symm.trans hread')
      rw [hdraft]
      exact ⟨rfl, rfl⟩
    · rintro ⟨hsame, -⟩
      obtain ⟨hcreator, hscheme⟩ := hsame stored ⟨row, hrow, hread⟩ hidentity
      have hdraft := hhash.draft_eq hmem' hmem hstored hchecks hidentity hcreator hscheme
      have hanswers := answers hhash.hex hs hrow hread
      rw [hdraft] at hanswers
      exact ⟨stored, s, hanswers [] now, hdraft, hanswers⟩
  · have hnew : ∀ row ∈ s.candidates, row.candidateId ≠ draft.candidateId :=
      fun row hrow hid => hfound ⟨row, hrow, hid⟩
    have hnone : ∀ stored, Stored s stored →
        stored.draft.identityPayload ≠ draft.identityPayload := by
      rintro stored ⟨row, hrow, hread⟩ hidentity
      exact hnew row hrow ((stored_draft hread).2.1.trans (candidateId_of_identity hidentity))
    constructor
    · rintro ⟨candidate, s', hcreate, -, -⟩
      refine ⟨fun stored hstored hidentity => absurd hidentity (hnone stored hstored), Or.inr ?_⟩
      by_contra hfits
      have hoverflow := create_overflow hhash hchecks hnew hfits
      exact absurd (hoverflow.symm.trans hcreate) (by simp)
    · rintro ⟨-, ⟨stored, hstored, hidentity⟩ | hfits⟩
      · exact absurd hidentity (hnone stored hstored)
      · have hcreate := create_new hs hhash hchecks hnew hfits
        have hrecord := @record_ok _ _ _ s _ _ (draft, now) hcreate
        have hsealed := hrecord ▸ hs.record (draft, now)
        have hread : candidateFromRow (draft.pending now).row = .ok (draft.pending now) :=
          candidateFromRow_row (pending_checks hhash.hex hchecks)
        have hanswers := answers hhash.hex hsealed (List.mem_append_right _ List.mem_cons_self) hread
        exact ⟨draft.pending now, _, hcreate, rfl, hanswers⟩

/-! ### Histories -/

/-- A creation leaves the store alone, or stores the draft and its first event. -/
theorem record_cases (hhex : ∀ text, Text.isSha256 (Hashing.sha256 text) = true)
    (hchecks : draft.checks = .ok ()) : record s (draft, now) = s ∨ record s (draft, now) =
      ⟨s.candidates ++ [(draft.pending now).row], s.events ++ [(draft.created now).row]⟩ := by
  unfold record perform
  split
  · case h_1 candidate s' hrun =>
      have hcreate : create s draft now = .ok (candidate, s') := hrun
      rw [create_eq hhex hchecks] at hcreate
      split at hcreate
      · simp only [bind_ok, exists_unit, pure_ok] at hcreate
        obtain ⟨existing, -, events, -, -, heq⟩ := hcreate
        exact Or.inl (Prod.mk.inj heq).2.symm
      · simp only [bind_ok, pure_ok] at hcreate
        obtain ⟨s₁, hinsert, s₂, hinsertEvent, heq⟩ := hcreate
        obtain ⟨-, rfl⟩ := Prod.mk.inj heq
        unfold insertCandidate at hinsert
        simp only [bind_ok, exists_unit, pure_ok] at hinsert
        obtain ⟨-, -, rfl⟩ := hinsert
        obtain ⟨rfl, -⟩ := insertEvent_ok hinsertEvent
        exact Or.inr rfl
  · exact Or.inl rfl

namespace CollisionFreeOn

variable {creation : ImportCandidateDraft × DateTime}
  {creations : List (ImportCandidateDraft × DateTime)}

theorem mono {creations' : List (ImportCandidateDraft × DateTime)} (h : CollisionFreeOn s creations)
    (hdrafts : drafts s' creations' ⊆ drafts s creations)
    (hevents : happenings s' creations' ⊆ happenings s creations) :
    CollisionFreeOn s' creations' where
  hex := h.hex
  payloads := h.payloads.mono (Set.image_mono hdrafts)
  identities := h.identities.mono (Set.image_mono hdrafts)
  events := h.events.mono (Set.image_mono hevents)

theorem head (h : CollisionFreeOn s (creation :: creations)) : CollisionFreeOn s [creation] := by
  refine h.mono ?_ ?_
  · rintro draft (hstored | ⟨now, hnow⟩)
    · exact Or.inl hstored
    · exact Or.inr ⟨now, List.mem_singleton.mp hnow ▸ List.mem_cons_self⟩
  · rintro event (hstored | ⟨other, hother, heq⟩)
    · exact Or.inl hstored
    · exact Or.inr ⟨other, List.mem_singleton.mp hother ▸ List.mem_cons_self, heq⟩

theorem tail (h : CollisionFreeOn s (creation :: creations)) (hchecks : creation.1.checks = .ok ()) :
    CollisionFreeOn (record s creation) creations := by
  have hcases : record s creation = s ∨ record s creation = _ := record_cases h.hex hchecks
  refine h.mono ?_ ?_
  · rintro draft (⟨candidate, ⟨row, hrow, hread⟩, rfl⟩ | ⟨now, hnow⟩)
    · rcases hcases with heq | heq
      · exact Or.inl ⟨candidate, ⟨row, heq ▸ hrow, hread⟩, rfl⟩
      · rw [heq] at hrow
        rcases List.mem_append.mp hrow with hrow | hrow
        · exact Or.inl ⟨candidate, ⟨row, hrow, hread⟩, rfl⟩
        · obtain rfl := List.mem_singleton.mp hrow
          rw [candidateFromRow_row (pending_checks h.hex hchecks), Except.ok.injEq] at hread
          subst hread
          exact Or.inr ⟨creation.2, List.mem_cons_self⟩
    · exact Or.inr ⟨now, List.mem_cons_of_mem _ hnow⟩
  · rintro event (⟨row, hrow, hread⟩ | ⟨other, hother, heq⟩)
    · rcases hcases with heq | heq
      · exact Or.inl ⟨row, heq ▸ hrow, hread⟩
      · rw [heq] at hrow
        rcases List.mem_append.mp hrow with hrow | hrow
        · exact Or.inl ⟨row, hrow, hread⟩
        · obtain rfl := List.mem_singleton.mp hrow
          rw [eventFromRow_row (created_checks h.hex hchecks), Except.ok.injEq] at hread
          exact Or.inr ⟨creation, List.mem_cons_self, hread⟩
    · exact Or.inr ⟨other, List.mem_cons_of_mem _ hother, heq⟩

end CollisionFreeOn

theorem throughout_faithful_iff {creations : List (ImportCandidateDraft × DateTime)} (hs : Sealed s)
    (hhash : CollisionFreeOn s creations)
    (hchecks : ∀ creation ∈ creations, creation.1.checks = .ok ()) :
    Replay.Throughout record Faithful s creations ↔ Replay.Throughout record Meets s creations := by
  induction creations generalizing s with
  | nil => exact Iff.rfl
  | cons creation creations ih =>
      have hfirst := hchecks creation List.mem_cons_self
      exact and_congr (faithful_iff hs hhash.head hfirst) (ih (hs.record creation)
        (hhash.tail hfirst) fun other hother => hchecks other (List.mem_cons_of_mem _ hother))

theorem stored_of_faithful {creations : List (ImportCandidateDraft × DateTime)}
    (h : Replay.Throughout record Faithful s creations) :
    ∀ creation ∈ creations, ∃ row ∈ (replay record s creations).candidates, ∃ candidate,
      candidateFromRow row = .ok candidate ∧ candidate.draft = creation.1 := by
  induction creations generalizing s with
  | nil => simp
  | cons first creations ih =>
      obtain ⟨⟨candidate, s', hcreate, hdraft, -⟩, hrest⟩ := h
      have hrecord := record_ok hcreate
      intro creation hmem
      rw [Replay.cons hrecord]
      rw [hrecord] at hrest
      rcases List.mem_cons.mp hmem with rfl | hmem
      · obtain ⟨rfl, row, hrow, -, events, hread, -⟩ | ⟨event, hadds⟩ := create_ok hcreate
        · exact ⟨row, replay_rows hrow _, candidate, hread, hdraft⟩
        · refine ⟨candidate.row, replay_rows ?_ _, candidate,
            candidateFromRow_row hadds.creates.checks, hdraft⟩
          rw [hadds.candidates]
          exact List.mem_append_right _ List.mem_cons_self
      · exact ih hrest creation hmem

/-- **In a history of creations, every answer is the draft that was given, and different drafts have
different candidates, exactly when every creation meets the condition**: a stored candidate of the
same identity has the creator and the algorithm of the draft, or there is none and the run revision
fits its column. -/
theorem creations_faithful_iff (hopened : Opened s) (calls : List (Call × DateTime))
    (creations : List (ImportCandidateDraft × DateTime))
    (hchecks : ∀ creation ∈ creations, creation.1.checks = .ok ())
    (hhash : CollisionFreeOn (replay perform s calls) creations) :
    (Replay.Throughout record Faithful (replay perform s calls) creations ∧
      ∀ first ∈ creations, ∀ second ∈ creations, first.1 ≠ second.1 →
        first.1.candidateId ≠ second.1.candidateId) ↔
      Replay.Throughout record Meets (replay perform s calls) creations := by
  have hs := hopened.sealed.replay calls
  rw [← throughout_faithful_iff hs hhash hchecks]
  refine ⟨And.left, fun h => ⟨h, ?_⟩⟩
  intro first hfirst second hsecond hne hid
  obtain ⟨row, hrow, candidate, hread, hdraft⟩ := stored_of_faithful h first hfirst
  obtain ⟨row', hrow', candidate', hread', hdraft'⟩ := stored_of_faithful h second hsecond
  have hids : ((replay record (replay perform s calls) creations).candidates.map
      (·.candidateId)).Nodup :=
    (Replay.invariant hs (fun _ creation h => h.record creation) creations : Sealed _).ids
  have hsame : row = row' := by
    refine List.inj_on_of_nodup_map hids hrow hrow' ?_
    rw [(stored_draft hread).2.1, (stored_draft hread').2.1, hdraft, hdraft', hid]
  rw [hsame, hread', Except.ok.injEq] at hread
  rw [← hdraft, ← hdraft', hread] at hne
  exact hne rfl

end Creation

/-! ### Three creators -/

section Sample

/-- The characters at two places of a text: in those of first events the creator begins at the first,
in those of identities the artifact's digits at the second. -/
def marks (text : List Char) : Char × Char := ((text.drop 76).headD 'A', (text.drop 103).headD 'A')

def markDigits (marks : Char × Char) : List Char :=
  Text.hexDigits 16 marks.1.toNat ++ Text.hexDigits 16 marks.2.toNat

/-- The two marks of a text, in thirty-two digits, twice. -/
@[reducible] def creatorHashing : Hashing where
  sha256 text := String.ofList (markDigits (marks text) ++ markDigits (marks text))

attribute [local instance] asciiData anyPayload creatorHashing

/-- The same import, submitted by two people. -/
def sampleCreations : List (ImportCandidateDraft × DateTime) := [
  (sampleDraft, ⟨0, Text.zero_inRange⟩),
  ({ sampleDraft with createdBy := "v1" }, ⟨1, Text.one_inRange⟩)]

/-- Another import of the project, by a third person. -/
def otherDraft : ImportCandidateDraft :=
  { sampleDraft with
    artifactId := "artifact_" ++ String.ofList (List.replicate 32 'e')
    createdBy := "w1" }

/-- An import that is submitted again, and another one. -/
def sampleHistory : List (ImportCandidateDraft × DateTime) := [
  (sampleDraft, ⟨0, Text.zero_inRange⟩), (sampleDraft, ⟨0, Text.zero_inRange⟩),
  (otherDraft, ⟨1, Text.one_inRange⟩)]

theorem sample_cases {creation : ImportCandidateDraft × DateTime}
    (h : creation ∈ sampleCreations ∨ creation ∈ sampleHistory) :
    creation = (sampleDraft, ⟨0, Text.zero_inRange⟩) ∨
      creation = ({ sampleDraft with createdBy := "v1" }, ⟨1, Text.one_inRange⟩) ∨
      creation = (otherDraft, ⟨1, Text.one_inRange⟩) := by
  simp only [sampleCreations, sampleHistory, List.mem_cons, List.not_mem_nil, or_false] at h
  tauto

theorem sample_checks {creation : ImportCandidateDraft × DateTime}
    (h : creation ∈ sampleCreations ∨ creation ∈ sampleHistory) : creation.1.checks = .ok () := by
  obtain rfl | rfl | rfl := sample_cases h <;> decide +kernel

theorem markDigits_length (marks : Char × Char) : (markDigits marks).length = 32 := by
  simp [markDigits, Text.hexDigits]

theorem creatorHashing_toList (text : List Char) :
    (Hashing.sha256 text).toList = markDigits (marks text) ++ markDigits (marks text) :=
  String.toList_ofList

theorem creatorHashing_hex (text : List Char) : Text.isSha256 (Hashing.sha256 text) = true := by
  have hlower : ∀ c ∈ markDigits (marks text), Text.isLowerHex c = true := by
    intro c hc
    rcases List.mem_append.mp hc with hc | hc <;> exact hexDigits_lower 16 _ c hc
  unfold Text.isSha256
  rw [Bool.and_eq_true, List.all_eq_true, beq_iff_eq, ← String.length_toList,
    creatorHashing_toList]
  refine ⟨by simp [markDigits_length], fun c hc => ?_⟩
  rcases List.mem_append.mp hc with hc | hc <;> exact hlower c hc

theorem marks_of_digests (found : List (Char × Char)) (hfound : (found.map markDigits).Nodup)
    {a b : List Char} (ha : marks a ∈ found) (hb : marks b ∈ found)
    (h : (Hashing.sha256 a).toList.take 32 = (Hashing.sha256 b).toList.take 32) :
    marks a = marks b := by
  refine List.inj_on_of_nodup_map hfound ha hb ?_
  rwa [creatorHashing_toList, creatorHashing_toList, List.take_left' (markDigits_length _),
    List.take_left' (markDigits_length _)] at h

theorem texts_createdBy (draft : ImportCandidateDraft) (creator : String) :
    ImportCandidateDraft.payloadText { draft with createdBy := creator } = draft.payloadText ∧
      ImportCandidateDraft.identityPayload { draft with createdBy := creator } =
        draft.identityPayload :=
  ⟨rfl, rfl⟩

theorem identity_marks : marks sampleDraft.identityText = ('"', 'a') ∧
    marks otherDraft.identityText = ('"', 'e') := by
  decide +kernel

theorem created_marks :
    marks (sampleDraft.created ⟨0, Text.zero_inRange⟩).text = ('u', 'c') ∧
      marks (ImportCandidateDraft.created { sampleDraft with createdBy := "v1" }
        ⟨1, Text.one_inRange⟩).text = ('v', 'c') ∧
      marks (otherDraft.created ⟨1, Text.one_inRange⟩).text = ('w', 'c') := by
  decide +kernel

/-- No two texts of the two histories have one digest. -/
theorem sample_free {creations : List (ImportCandidateDraft × DateTime)}
    (h : ∀ creation ∈ creations, creation ∈ sampleCreations ∨ creation ∈ sampleHistory) :
    CollisionFreeOn {} creations := by
  have hdrafts : ∀ draft ∈ drafts {} creations, draft.payloadText = sampleDraft.payloadText ∧
      (draft.identityText = sampleDraft.identityText ∨
        draft.identityText = otherDraft.identityText) := by
    rintro draft (⟨candidate, ⟨row, hrow, -⟩, -⟩ | ⟨now, hnow⟩)
    · exact absurd hrow List.not_mem_nil
    · rcases sample_cases (h _ hnow) with heq | heq | heq <;> obtain ⟨rfl, -⟩ := Prod.mk.inj heq
      · exact ⟨rfl, Or.inl rfl⟩
      · obtain ⟨hpayload, hidentity⟩ := texts_createdBy sampleDraft "v1"
        exact ⟨hpayload, Or.inl (congrArg (digestText _) hidentity)⟩
      · exact ⟨rfl, Or.inr rfl⟩
  obtain ⟨hsample, hother⟩ := identity_marks
  obtain ⟨hfirst, hsecond, hthird⟩ := created_marks
  constructor
  case hex => exact creatorHashing_hex
  case payloads =>
    rintro _ ⟨draft, hdraft, rfl⟩ _ ⟨draft', hdraft', rfl⟩ -
    exact (hdrafts draft hdraft).1.trans (hdrafts draft' hdraft').1.symm
  case identities =>
    rintro _ ⟨draft, hdraft, rfl⟩ _ ⟨draft', hdraft', rfl⟩ hsame
    have hmarks := fun ha hb => marks_of_digests [('"', 'a'), ('"', 'e')]
      (by decide +kernel) ha hb hsame
    rcases (hdrafts draft hdraft).2 with heq | heq <;>
      rcases (hdrafts draft' hdraft').2 with heq' | heq' <;>
        rw [heq, heq'] at hmarks ⊢ <;> simp [hsample, hother] at hmarks
  case events =>
    have hevents : ∀ event ∈ happenings {} creations,
        event = sampleDraft.created ⟨0, Text.zero_inRange⟩ ∨
          event = ImportCandidateDraft.created { sampleDraft with createdBy := "v1" }
            ⟨1, Text.one_inRange⟩ ∨
          event = otherDraft.created ⟨1, Text.one_inRange⟩ := by
      rintro event (⟨row, hrow, -⟩ | ⟨creation, hcreation, rfl⟩)
      · exact absurd hrow List.not_mem_nil
      · obtain rfl | rfl | rfl := sample_cases (h _ hcreation) <;> simp
    rintro _ ⟨event, hevent, rfl⟩ _ ⟨event', hevent', rfl⟩ hsame
    have hmarks := fun ha hb => marks_of_digests [('u', 'c'), ('v', 'c'), ('w', 'c')]
      (by decide +kernel) ha hb (congrArg (fun digest => digest.toList.take 32) hsame)
    obtain rfl | rfl | rfl := hevents event hevent <;>
      obtain rfl | rfl | rfl := hevents event' hevent' <;>
        simp [hfirst, hsecond, hthird] at hmarks ⊢

/-- Creating again changes nothing, and the other import is created beside the first. -/
theorem creations_faithful_sample :
    Replay.Throughout record Faithful {} sampleHistory ∧
      sampleDraft.candidateId ≠ otherDraft.candidateId := by
  have hsealed : Sealed {} := Opened.new.sealed
  have hfree := sample_free fun creation h => Or.inr h
  have hchecks : ∀ creation ∈ sampleHistory, creation.1.checks = .ok () :=
    fun creation h => sample_checks (Or.inr h)
  have hfirst := hchecks _ List.mem_cons_self
  have hcreate := create_new hsealed hfree.head hfirst
    (fun row hrow => absurd hrow List.not_mem_nil) (by decide)
  have hrecord := @record_ok _ _ _ _ _ _ (sampleDraft, ⟨0, Text.zero_inRange⟩) hcreate
  have hagain := @record_ok _ _ _ _ _ _ (sampleDraft, ⟨0, Text.zero_inRange⟩)
    (create_same creatorHashing_hex (hsealed.record _) hfirst hfirst rfl
      (by rw [hrecord]; exact List.mem_append_right _ List.mem_cons_self))
  have hstored : ∀ candidate, Stored (record {} (sampleDraft, ⟨0, Text.zero_inRange⟩)) candidate →
      candidate.draft = sampleDraft := by
    rintro candidate ⟨row, hrow, hread⟩
    rw [hrecord] at hrow
    obtain rfl := List.mem_singleton.mp hrow
    rw [candidateFromRow_row (pending_checks creatorHashing_hex hfirst)] at hread
    cases hread
    rfl
  have hapart : sampleDraft.identityPayload ≠ otherDraft.identityPayload := by
    intro hsame
    have hmarks := congrArg (fun value =>
      marks (digestText "flux-clone.kicad-import-candidate.identity.v1" value)) hsame
    exact absurd (identity_marks.1.symm.trans (hmarks.trans identity_marks.2)) (by decide)
  have hempty : Meets {} (sampleDraft, ⟨0, Text.zero_inRange⟩) :=
    ⟨fun candidate ⟨_, hrow, _⟩ => absurd hrow List.not_mem_nil, Or.inr (by decide)⟩
  have hsame : Meets (record {} (sampleDraft, ⟨0, Text.zero_inRange⟩))
      (sampleDraft, ⟨0, Text.zero_inRange⟩) := by
    refine ⟨fun candidate h _ => ?_, Or.inr (by decide)⟩
    rw [hstored candidate h]
    exact ⟨rfl, rfl⟩
  have hother : Meets (record {} (sampleDraft, ⟨0, Text.zero_inRange⟩))
      (otherDraft, ⟨1, Text.one_inRange⟩) := by
    refine ⟨fun candidate h heq => absurd ?_ hapart, Or.inr (by decide)⟩
    rw [← hstored candidate h]
    exact heq
  rw [← hagain] at hother
  have hmeets : Replay.Throughout record Meets {} sampleHistory := ⟨hempty, hsame, hother, trivial⟩
  obtain ⟨hfaithful, hids⟩ := (creations_faithful_iff .new [] sampleHistory hchecks hfree).mpr hmeets
  refine ⟨hfaithful, hids (sampleDraft, ⟨0, Text.zero_inRange⟩) List.mem_cons_self
    (otherDraft, ⟨1, Text.one_inRange⟩) (List.mem_cons_of_mem _ (List.mem_cons_of_mem _
      List.mem_cons_self)) fun h => hapart (congrArg (fun draft =>
        draft.identityPayload) h)⟩

/-- **The second creator is given the candidate of the first**: its draft names the first creator, and
the two drafts share the identifier. -/
theorem second_creator_lost :
    (∀ creation ∈ sampleCreations, creation.1.checks = .ok ()) ∧
      CollisionFreeOn {} sampleCreations ∧
      create (record {} (sampleDraft, ⟨0, by decide⟩)) { sampleDraft with createdBy := "v1" }
          ⟨1, by decide⟩ =
        .ok (sampleDraft.pending ⟨0, by decide⟩, record {} (sampleDraft, ⟨0, by decide⟩)) ∧
      ImportCandidateDraft.candidateId { sampleDraft with createdBy := "v1" } =
        sampleDraft.candidateId ∧
      ¬ Replay.Throughout record Faithful {} sampleCreations := by
  have hsealed : Sealed {} := Opened.new.sealed
  have hfree := sample_free fun creation h => Or.inl h
  have hchecks := sample_checks (Or.inl List.mem_cons_self)
  have hidentity := (texts_createdBy sampleDraft "v1").2.symm
  have hcreate := create_new hsealed hfree.head hchecks
    (fun row hrow => absurd hrow List.not_mem_nil) (by decide)
  have hrecord := @record_ok _ _ _ _ _ _ (sampleDraft, ⟨0, by decide⟩) hcreate
  have hsecond : create (record {} (sampleDraft, ⟨0, by decide⟩))
      { sampleDraft with createdBy := "v1" } ⟨1, by decide⟩ =
        .ok (sampleDraft.pending ⟨0, by decide⟩, record {} (sampleDraft, ⟨0, by decide⟩)) := by
    refine create_same creatorHashing_hex (hsealed.record _) hchecks
      (sample_checks (Or.inl (List.mem_cons_of_mem _ List.mem_cons_self))) hidentity ?_
    rw [hrecord]
    exact List.mem_append_right _ List.mem_cons_self
  refine ⟨fun creation h => sample_checks (Or.inl h), hfree, hsecond,
    candidateId_of_identity hidentity.symm, ?_⟩
  rintro ⟨-, ⟨candidate, s', hanswer, hdraft, -⟩, -⟩
  obtain ⟨rfl, -⟩ := Prod.mk.inj (Except.ok.inj (hsecond.symm.trans hanswer))
  have hcreator := congrArg ImportCandidateDraft.createdBy hdraft
  exact absurd hcreator (by decide)

end Sample

end Evleda.ImportCandidates
