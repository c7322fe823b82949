/-
When a call returns.

What is enough for an operation of the in-memory adapter to return, and calls that
never meet because different actors make them.  With both a history can be followed
call by call.
-/
import Evleda.Gateway.Approvals
import Evleda.Gateway.InMemory

namespace Evleda.Gateway

open Asking

/-! ### When an operation of the adapter returns -/

namespace InMemory

section Adapter

variable [Hashing] {a : InMemory} {projectId expected : String} {state : ProjectState}
  {patch : DesignPatch} {design : List (String × Json)}

omit [Hashing] in
theorem inspectProject_returns (hstate : a.projects projectId = some state)
    (hrevision : state.projectRevision = expected) :
    ∃ snapshot, a.inspectProject projectId (some expected) = .ok snapshot := by
  unfold inspectProject expectProjectRevision
  simp only [Outcome.bind_ok, Outcome.exists_unit, state_ok, enforce_ok, Outcome.pure_ok]
  exact ⟨_, state, hstate, hrevision, rfl⟩

/-- What `preview_patch` answers on a design and the design after the patch. -/
def previewOf (projectId revision : String) (patch : DesignPatch) (design : List (String × Json)) :
    PatchPreview :=
  let summaries := patch.operations.map fun o => o.action.value ++ ":" ++ o.targetId
  { projectId := projectId
    baseRevision := revision
    prospectiveRevision := revisionDigest design
    patchDigest := patch.digest
    previewDigest := stableDigest (.object [("project_id", .str projectId),
      ("base_revision", .str revision), ("prospective_revision", .str (revisionDigest design)),
      ("patch_digest", .str patch.digest), ("operation_summaries", textsJson summaries)])
    operationSummaries := summaries }

theorem previewPatch_returns (hstate : a.projects projectId = some state)
    (hrevision : state.projectRevision = expected) (hbase : patch.baseRevision = expected)
    (hdesign : applyPatch state.committedDesign patch = .ok design) :
    a.previewPatch projectId expected patch = .ok (previewOf projectId expected patch design) := by
  subst hrevision
  unfold previewPatch expectProjectRevision
  simp only [Outcome.bind_ok, Outcome.exists_unit, state_ok, enforce_ok, Outcome.pure_ok]
  exact ⟨state, hstate, rfl, hbase, design, hdesign, rfl⟩

def stageOf (projectId : String) (preview : PatchPreview) : StageRecord where
  transactionId := derivedId "txn" [("project", .str projectId),
    ("stage", .str preview.prospectiveRevision)]
  projectId := projectId
  baseRevision := preview.baseRevision
  stagedRevision := preview.prospectiveRevision
  patchDigest := preview.patchDigest
  previewDigest := preview.previewDigest

theorem stagePatch_returns {preview : PatchPreview} (hstate : a.projects projectId = some state)
    (hrevision : state.projectRevision = expected) (hstaging : state.staging = none)
    (hbase : patch.baseRevision = expected)
    (hdesign : applyPatch state.committedDesign patch = .ok design)
    (hpreview : preview = previewOf projectId expected patch design) :
    a.stagePatch projectId expected patch preview.previewDigest =
      .ok (stageOf projectId preview, a.put projectId { state with
        staging := some ⟨design, patch, stageOf projectId preview⟩ }) := by
  have hpreviewed := previewPatch_returns hstate hrevision hbase hdesign
  rw [← hpreview] at hpreviewed
  have hnone : state.staging.isNone = true := by
    rw [hstaging]
    rfl
  unfold stagePatch expectProjectRevision
  simp only [Outcome.bind_ok, Outcome.exists_unit, state_ok, enforce_ok, Outcome.pure_ok]
  refine ⟨state, hstate, hrevision, hnone, preview, hpreviewed, rfl, design, hdesign, ?_⟩
  subst hrevision hpreview
  rfl

end Adapter

end InMemory

/-! ### Calls of different actors

With a plain hash the identifier of the evidence of a call begins with its actor, so calls of
different actors never meet: neither in the idempotency table nor in the evidence. -/

section Attending

/-- The beginning of the identifier of the evidence of an actor's call. -/
def callMark (actorId : String) : List Char :=
  "evidence".toList ++ "_".toList ++ '\x7b' :: (Json.renderString "actor" ++ ':' ::
    (Json.str actorId).render)

theorem callMark_inj {actorId actorId' : String} (h : callMark actorId = callMark actorId') :
    actorId = actorId' := by
  have hrender := (List.cons.inj (List.append_cancel_left h)).2
  rw [List.append_cancel_left_eq, List.cons.injEq] at hrender
  exact Json.str.inj (Json.render_injective hrender.2)

attribute [local instance] plainHashing

theorem evidence_marked {actorId tool key input output : String}
    (h : (Json.str actorId).render.length = 4) :
    (derivedId "evidence" [("actor", .str actorId), ("tool", .str tool), ("key", .str key),
      ("input", .str input), ("output", .str output)]).toList.take 22 = callMark actorId := by
  have hcanonical : (Json.object [("actor", .str actorId), ("tool", .str tool), ("key", .str key),
      ("input", .str input), ("output", .str output)]).canonical =
      .obj [("actor", .str actorId), ("input", .str input), ("key", .str key),
        ("output", .str output), ("tool", .str tool)] := by
    simp [Json.object, Json.canonical, Json.canonicalMembers]
  have hkey : (Json.renderString "actor").length = 7 := by decide
  have hhead : ("evidence".toList ++ "_".toList).length = 9 := by decide
  have htake : ∀ front marked rest : List Char, front.length = 9 → marked.length = 13 →
      (front ++ (marked ++ rest).take 32).take 22 = front ++ marked := by
    intro front marked rest hfront hmarked
    rw [List.take_append, List.take_of_length_le (by omega), hfront, List.take_take,
      List.take_append_of_le_length (by omega), List.take_of_length_le (by omega)]
  have hrender : (Json.obj [("actor", .str actorId), ("input", .str input), ("key", .str key),
      ("output", .str output), ("tool", .str tool)]).render =
      ('\x7b' :: (Json.renderString "actor" ++ ':' :: (Json.str actorId).render)) ++
        Json.renderMembers [("input", .str input), ("key", .str key), ("output", .str output),
          ("tool", .str tool)] := by
    simp only [Json.render, List.cons_append, List.append_assoc]
  have hdigest : ∀ text : List Char, (Hashing.sha256 text).toList = text :=
    fun text => String.toList_ofList
  unfold derivedId stableDigest callMark
  simp only [String.toList_append, String.toList_ofList, hdigest, hcanonical]
  rw [hrender]
  refine htake _ _ _ hhead ?_
  rw [List.length_cons, List.length_append, hkey, List.length_cons, h]

/-- Each of these actors, all different, has made one call. -/
structure Attended (s : GatewayState) (actors : List String) : Prop where
  different : actors.Nodup
  keys : ∀ key, s.idempotency key ≠ none → key.1 ∈ actors
  evidence : s.evidence.map (fun e => e.evidenceId.toList.take 22) = actors.map callMark

theorem attended_init : Attended {} [] := by
  refine ⟨List.nodup_nil, ?_, rfl⟩
  intro key hkey
  exact absurd rfl hkey

theorem Attended.evidence_nodup {s : GatewayState} {actors : List String}
    (h : Attended s actors) : (s.evidence.map (·.evidenceId)).Nodup := by
  have hmarks : (s.evidence.map fun e => e.evidenceId.toList.take 22).Nodup := by
    rw [h.evidence]
    exact h.different.map fun _ _ => callMark_inj
  have hcomp : (s.evidence.map fun e => e.evidenceId.toList.take 22) =
      (s.evidence.map (·.evidenceId)).map fun id => id.toList.take 22 := by
    rw [List.map_map]
    rfl
  rw [hcomp] at hmarks
  exact hmarks.of_map _

theorem Attended.publish {s gateway : GatewayState} {actors : List String} (h : Attended s actors)
    {c : Call} {capturedAt : Instant} {applied : Applied} {manifests : Manifests}
    (hactor : c.invocation.principal.actorId ∉ actors)
    (hlength : (Json.str c.invocation.principal.actorId).render.length = 4)
    (htable : gateway.idempotency = s.idempotency) (hevidence : gateway.evidence = s.evidence) :
    Attended (gateway.publish c (toolResult manifests c capturedAt applied))
      (actors ++ [c.invocation.principal.actorId]) := by
  refine ⟨?_, ?_, ?_⟩
  · rw [List.nodup_append]
    refine ⟨h.different, List.nodup_singleton _, ?_⟩
    intro actor hmem other hother
    rw [List.mem_singleton] at hother
    rintro rfl
    exact hactor (hother ▸ hmem)
  · intro key hkey
    rw [List.mem_append, List.mem_singleton]
    by_cases hsame : key = c.key
    · rw [hsame]
      exact Or.inr rfl
    · refine Or.inl (h.keys key ?_)
      have hother := Dict.set_of_ne gateway.idempotency
        (c.inputDigest, toolResult manifests c capturedAt applied) hsame
      rw [← htable, ← hother]
      exact hkey
  · show (gateway.evidence ++ [_]).map _ = _
    rw [hevidence, List.map_append, List.map_append, h.evidence, List.map_singleton,
      List.map_singleton]
    exact congrArg (actors.map callMark ++ [·]) (evidence_marked hlength)

theorem Attended.fresh {s : GatewayState} {actors : List String} (h : Attended s actors) {c : Call}
    (hactor : c.invocation.principal.actorId ∉ actors)
    (hlength : (Json.str c.invocation.principal.actorId).render.length = 4) (payload : Json) :
    c.evidenceId payload ∉ s.evidence.map (·.evidenceId) := by
  intro hmem
  obtain ⟨e, he, hid⟩ := List.mem_map.mp hmem
  have hmark : e.evidenceId.toList.take 22 ∈ actors.map callMark := by
    rw [← h.evidence]
    exact List.mem_map_of_mem he
  rw [hid, Call.evidenceId, evidence_marked hlength] at hmark
  obtain ⟨actor, hin, hsame⟩ := List.mem_map.mp hmark
  exact hactor (callMark_inj hsame ▸ hin)

theorem Attended.invoke {limits : Limits} {manifests : Manifests} {s : GatewayState}
    {actors : List String} (h : Attended s actors) {c : Call} {capturedAt : Instant}
    {done : Applied} {effects : List Asked} (hactor : c.invocation.principal.actorId ∉ actors)
    (hlength : (Json.str c.invocation.principal.actorId).render.length = 4)
    (hstore : ∀ store ∈ c.turn.store, store.load = .ok () ∧ store.save = .ok ())
    (htier : (requiredTier c.request.tool).value ≤
      c.invocation.principal.profile.maximumTier.value)
    (hclock : c.turn.capturedAt = .ok capturedAt)
    (hdone : Done limits s c.invocation c.turn c.request done effects) :
    ∃ result, Gateway.invoke limits manifests s c = ⟨done.gateway.publish c result, .ok result,
        (action limits s c.invocation c.turn c.request).asked⟩ ∧
      Attended (done.gateway.publish c result) (actors ++ [c.invocation.principal.actorId]) := by
  have hnew : s.idempotency c.key = none := by
    by_contra hheld
    exact hactor (h.keys c.key hheld)
  have hacts : Acts limits s c done effects := ⟨fun store hmem => (hstore store hmem).1, htier, hnew,
    ⟨capturedAt, hclock⟩, h.evidence_nodup, hdone⟩
  obtain ⟨-, capturedAt', -, hinvoke⟩ | ⟨hunsaved, -⟩ := @Acts.invoke _ limits manifests _ _ _ _ hacts
  · exact ⟨_, hinvoke, h.publish hactor hlength hdone.kept.1 hdone.kept.2⟩
  · exact absurd (fun store hmem => ⟨h.fresh hactor hlength _, (hstore store hmem).2⟩) hunsaved

end Attending

end Evleda.Gateway
