/-
No commit without approvals, and no effect twice.

A history is a list of calls, each with what the adapter, the clock and the store
did while it ran.  The state after it is the replay of the calls.  Three things are
tied to the history at each state: the records are sound, every receipt was decided
by a user with release capability, and every staged revision was produced by the
adapter for its run under an approved receipt.  One step preserves each of them, and
what a commit has checked says the rest.

A call takes effect once, if what the adapter did for it can be saved.  When the save
fails the records are as they were, without the key, and a retry acts again.
-/
import Evleda.Gateway.Actions
import Evleda.Lib.Replay

namespace Evleda.Gateway

open Asking

section Approvals

variable [Hashing] (limits : Limits) (manifests : Manifests)

/-! ### One call -/

/-- The records after a call. -/
def step (s : GatewayState) (c : Call) : GatewayState := (invoke limits manifests s c).gateway

/-- The result of a call that was applied, and not returned from the idempotency table. -/
def freshResult (s : GatewayState) (c : Call) : Option ToolResult :=
  match s.idempotency c.key with
  | some _ => none
  | none => (invoke limits manifests s c).outcome.toOption

/-- The identifier of the evidence of a call that answers this. -/
def Call.evidenceId (c : Call) (payload : Json) : String :=
  derivedId "evidence" [("actor", .str c.invocation.principal.actorId),
    ("tool", .str c.request.tool.value), ("key", .str c.invocation.idempotencyKey),
    ("input", .str c.inputDigest), ("output", .str (stableDigest payload))]

/-- The call gets to its action and the action returns: the store can be read, its caller may use the
tool, its key is new, the clock can be read, no evidence is held twice, and the request finds what it
has to. -/
structure Acts (s : GatewayState) (c : Call) (done : Applied) (effects : List Asked) : Prop where
  loaded : ∀ store ∈ c.turn.store, store.load = .ok ()
  capable : (requiredTier c.request.tool).value ≤ c.invocation.principal.profile.maximumTier.value
  new : s.idempotency c.key = none
  clock : ∃ capturedAt, c.turn.capturedAt = .ok capturedAt
  evidence : (s.evidence.map (·.evidenceId)).Nodup
  done : Done limits s c.invocation c.turn c.request done effects

/-- The records after a call that answers this can be saved: there is no store, or the identifier of
the evidence is new and the store can be written. -/
def Saves (s : GatewayState) (c : Call) (payload : Json) : Prop :=
  ∀ store ∈ c.turn.store, c.evidenceId payload ∉ s.evidence.map (·.evidenceId) ∧
    store.save = .ok ()

/-- What a call amounts to: it was refused before its action, it was answered from the table, or its
action ran and raised, or returned and was kept or dropped. -/
inductive Course (s : GatewayState) (c : Call) (reply : Reply) : Prop where
  | refused (failure : Failure) (heq : reply = Gateway.refused s failure)
  | repeated (digest : String) (result : ToolResult)
      (hcapable : (requiredTier c.request.tool).value ≤
        c.invocation.principal.profile.maximumTier.value)
      (hheld : s.idempotency c.key = some (digest, result))
      (hdigest : digest = c.inputDigest) (heq : reply = ⟨s, .ok result, []⟩)
  | failed (hnew : s.idempotency c.key = none) (failure : Failure)
      (haction : (action limits s c.invocation c.turn c.request).outcome = .error failure)
      (heq : reply = ⟨s, .error failure, (action limits s c.invocation c.turn c.request).asked⟩)
  | applied (done : Applied) (effects : List Asked) (hacts : Acts limits s c done effects)
      (hsaves : Saves s c done.payload) (capturedAt : Instant)
      (heq : reply = ⟨done.gateway.publish c (toolResult manifests c capturedAt done),
        .ok (toolResult manifests c capturedAt done),
        (action limits s c.invocation c.turn c.request).asked⟩)
  | dropped (done : Applied) (effects : List Asked) (hacts : Acts limits s c done effects)
      (hunsaved : ¬ Saves s c done.payload) (failure : Failure)
      (heq : reply = ⟨s, .error failure, (action limits s c.invocation c.turn c.request).asked⟩)

variable {limits manifests} {s : GatewayState} {c : Call}

omit [Hashing] in
theorem snapshotChecks_ok : snapshotChecks s = .ok () ↔ (s.evidence.map (·.evidenceId)).Nodup := by
  unfold snapshotChecks
  split <;> simp_all

/-- An action that returned is kept when the records can be saved, and dropped otherwise. -/
theorem apply_of_done (hnodup : (s.evidence.map (·.evidenceId)).Nodup) (capturedAt : Instant)
    {done : Applied} {effects : List Asked}
    (hdone : Done limits s c.invocation c.turn c.request done effects) :
    (Saves s c done.payload ∧ apply limits manifests s c capturedAt =
      ⟨.ok (done.gateway.publish c (toolResult manifests c capturedAt done),
        toolResult manifests c capturedAt done),
        (action limits s c.invocation c.turn c.request).asked⟩) ∨
    (¬ Saves s c done.payload ∧ ∃ failure, apply limits manifests s c capturedAt =
      ⟨.error failure, (action limits s c.invocation c.turn c.request).asked⟩) := by
  have hevidence : (done.gateway.publish c (toolResult manifests c capturedAt done)).evidence.map
      (·.evidenceId) = s.evidence.map (·.evidenceId) ++ [c.evidenceId done.payload] := by
    show (done.gateway.evidence ++ [_]).map _ = _
    rw [hdone.kept.2, List.map_append]
    rfl
  have hchecks : snapshotChecks (done.gateway.publish c (toolResult manifests c capturedAt done)) =
      .ok () ↔ c.evidenceId done.payload ∉ s.evidence.map (·.evidenceId) := by
    rw [snapshotChecks_ok, hevidence, List.nodup_append]
    simp [hnodup]
  have haction := hdone.returns
  unfold apply
  generalize action limits s c.invocation c.turn c.request = acting at haction
  obtain ⟨outcome, asked⟩ := acting
  obtain rfl : outcome = .ok done := haction
  unfold Saves
  cases hstore : c.turn.store with
  | none => exact Or.inl ⟨by simp, congrArg (Asking.mk _) (List.append_nil asked)⟩
  | some store =>
      cases hsnapshot : snapshotChecks
          (done.gateway.publish c (toolResult manifests c capturedAt done)) with
      | error failure =>
          rw [hsnapshot] at hchecks
          refine Or.inr ⟨fun hsaves => ?_, failure, ?_⟩
          · cases hchecks.mpr (hsaves store rfl).1
          · simp [bind, hsnapshot]
      | ok _ =>
          cases hsave : store.save with
          | error failure =>
              refine Or.inr ⟨fun hsaves => ?_, failure, ?_⟩
              · cases hsave.symm.trans (hsaves store rfl).2
              · simp [bind, hsnapshot, hsave]
          | ok _ =>
              refine Or.inl ⟨fun other hother => ?_, ?_⟩
              · obtain rfl := Option.some.inj hother
                exact ⟨hchecks.mp hsnapshot, hsave⟩
              · simp [bind, pure, hsnapshot, hsave]

/-- An action that raises makes its call raise. -/
theorem apply_of_failed (capturedAt : Instant) {failure : Failure}
    (h : (action limits s c.invocation c.turn c.request).outcome = .error failure) :
    apply limits manifests s c capturedAt =
      ⟨.error failure, (action limits s c.invocation c.turn c.request).asked⟩ := by
  unfold apply
  generalize action limits s c.invocation c.turn c.request = acting at h
  obtain ⟨outcome, asked⟩ := acting
  obtain rfl : outcome = .error failure := h
  rfl

omit [Hashing] in
theorem captured_ok {turn : Turn} {capturedAt : Instant} : captured s turn = .ok capturedAt ↔
    turn.capturedAt = .ok capturedAt ∧ (s.evidence.map (·.evidenceId)).Nodup := by
  unfold captured
  simp only [Outcome.bind_ok, Outcome.exists_unit, snapshotChecks_ok, Outcome.pure_ok]
  constructor
  · rintro ⟨found, hclock, hnodup, rfl⟩
    exact ⟨hclock, hnodup⟩
  · rintro ⟨hclock, hnodup⟩
    exact ⟨capturedAt, hclock, hnodup, rfl⟩

theorem invoke_course : Course limits manifests s c (invoke limits manifests s c) := by
  unfold invoke
  split
  · rename_i failure _
    exact .refused failure rfl
  · rename_i hload
    dsimp only
    split
    · exact .refused _ rfl
    · rename_i htier
      split
      · rename_i digest result hheld
        split
        · exact .refused _ rfl
        · rename_i hdigest
          exact .repeated digest result (Nat.le_of_not_lt htier) hheld (not_not.mp hdigest) rfl
      · rename_i hnew
        split
        · rename_i failure _
          exact .refused failure rfl
        · rename_i capturedAt hcaptured
          obtain ⟨hclock, hnodup⟩ := captured_ok.mp hcaptured
          cases haction : (action limits s c.invocation c.turn c.request).outcome with
          | error failure =>
              rw [apply_of_failed capturedAt haction]
              exact .failed hnew failure haction rfl
          | ok done =>
              obtain ⟨effects, hdone⟩ := action_done haction
              have hacts : Acts limits s c done effects :=
                ⟨fun store hstore => by rw [hstore] at hload; exact hload, Nat.le_of_not_lt htier,
                  hnew, ⟨capturedAt, hclock⟩, hnodup, hdone⟩
              obtain ⟨hsaves, happly⟩ | ⟨hunsaved, failure, happly⟩ :=
                @apply_of_done _ limits manifests s c hnodup capturedAt _ _ hdone
              · rw [happly]
                exact .applied done effects hacts hsaves capturedAt rfl
              · rw [happly]
                exact .dropped done effects hacts hunsaved failure rfl

/-- A call that gets to its action, which returns, is applied if its records can be saved, and raises
otherwise. -/
theorem Acts.invoke {done : Applied} {effects : List Asked} (h : Acts limits s c done effects) :
    (Saves s c done.payload ∧ ∃ capturedAt, c.turn.capturedAt = .ok capturedAt ∧
      invoke limits manifests s c =
        ⟨done.gateway.publish c (toolResult manifests c capturedAt done),
          .ok (toolResult manifests c capturedAt done),
          (action limits s c.invocation c.turn c.request).asked⟩) ∨
    (¬ Saves s c done.payload ∧ ∃ failure, invoke limits manifests s c =
      ⟨s, .error failure, (action limits s c.invocation c.turn c.request).asked⟩) := by
  obtain ⟨capturedAt, hclock⟩ := h.clock
  have hloaded : (c.turn.store.elim (.ok ()) StoreTurn.load : Except Failure Unit) = .ok () := by
    cases hstore : c.turn.store with
    | none => rfl
    | some store => exact h.loaded store hstore
  unfold Gateway.invoke
  rw [hloaded]
  dsimp only
  rw [if_neg (Nat.not_lt_of_le h.capable), h.new]
  dsimp only
  rw [captured_ok.mpr ⟨hclock, h.evidence⟩]
  dsimp only
  obtain ⟨hsaves, happly⟩ | ⟨hunsaved, failure, happly⟩ :=
    @apply_of_done _ limits manifests s c h.evidence capturedAt _ _ h.done
  · rw [happly]
    exact Or.inl ⟨hsaves, capturedAt, hclock, rfl⟩
  · rw [happly]
    exact Or.inr ⟨hunsaved, failure, rfl⟩

theorem asked_by_action {q : Asked} (h : q ∈ (invoke limits manifests s c).asked) :
    q ∈ (action limits s c.invocation c.turn c.request).asked := by
  cases @invoke_course _ limits manifests s c with
  | refused failure heq =>
      rw [heq] at h
      cases h
  | repeated digest result hcapable hheld hdigest heq =>
      rw [heq] at h
      cases h
  | failed hnew failure haction heq =>
      rw [heq] at h
      exact h
  | applied done effects hacts hsaves capturedAt heq =>
      rw [heq] at h
      exact h
  | dropped done effects hacts hunsaved failure heq =>
      rw [heq] at h
      exact h

/-- A call that raised left the records alone. -/
theorem step_of_error {failure : Failure} (h : (invoke limits manifests s c).outcome = .error failure) :
    step limits manifests s c = s := by
  unfold step
  cases @invoke_course _ limits manifests s c with
  | refused failure heq => rw [heq]; rfl
  | repeated digest result hcapable hheld hdigest heq => rw [heq]
  | failed hnew failure haction heq => rw [heq]
  | applied done effects hacts hsaves capturedAt heq =>
      rw [heq] at h
      cases h
  | dropped done effects hacts hunsaved failure heq => rw [heq]

/-- A call whose key is in the table changes nothing and asks nothing. -/
theorem invoke_of_held {digest : String} {result : ToolResult}
    (h : s.idempotency c.key = some (digest, result)) :
    step limits manifests s c = s ∧ (invoke limits manifests s c).asked = [] ∧
      ∀ r, (invoke limits manifests s c).outcome = .ok r → r = result := by
  unfold step
  cases @invoke_course _ limits manifests s c with
  | refused failure heq =>
      rw [heq]
      refine ⟨rfl, rfl, ?_⟩
      intro r hr
      cases hr
  | repeated digest' result' hcapable hheld hdigest heq =>
      rw [heq]
      refine ⟨rfl, rfl, ?_⟩
      intro r hr
      obtain ⟨-, rfl⟩ := Prod.mk.inj (Option.some.inj (h.symm.trans hheld))
      exact (Except.ok.inj hr).symm
  | failed hnew failure haction heq =>
      rw [hnew] at h
      cases h
  | applied done effects hacts hsaves capturedAt heq =>
      rw [hacts.new] at h
      cases h
  | dropped done effects hacts hunsaved failure heq =>
      rw [hacts.new] at h
      cases h

/-- It is answered when the store can be read, the caller may use the tool and the input is the
same. -/
theorem invoke_again {digest : String} {result : ToolResult}
    (h : s.idempotency c.key = some (digest, result))
    (hload : ∀ store ∈ c.turn.store, store.load = .ok ())
    (htier : (requiredTier c.request.tool).value ≤
      c.invocation.principal.profile.maximumTier.value) (hdigest : c.inputDigest = digest) :
    (invoke limits manifests s c).outcome = .ok result := by
  have hloaded : c.turn.store.elim (.ok ()) StoreTurn.load = (.ok () : Except Failure Unit) := by
    cases hstore : c.turn.store with
    | none => rfl
    | some store => exact hload store hstore
  unfold invoke
  rw [hloaded]
  dsimp only
  rw [if_neg (Nat.not_lt_of_le htier), h]
  dsimp only
  rw [if_neg (not_not.mpr hdigest.symm)]

theorem applied_of_fresh {result : ToolResult} (h : freshResult limits manifests s c = some result) :
    ∃ done effects capturedAt, Acts limits s c done effects ∧ Saves s c done.payload ∧
      result = toolResult manifests c capturedAt done ∧
      step limits manifests s c = done.gateway.publish c result ∧
      (invoke limits manifests s c).asked =
        (action limits s c.invocation c.turn c.request).asked := by
  unfold freshResult at h
  split at h
  · cases h
  rename_i hnew
  unfold step
  cases @invoke_course _ limits manifests s c with
  | refused failure heq =>
      rw [heq] at h
      cases h
  | repeated digest result' hcapable hheld hdigest heq =>
      rw [hnew] at hheld
      cases hheld
  | failed hnew failure haction heq =>
      rw [heq] at h
      cases h
  | applied done effects hacts hsaves capturedAt heq =>
      rw [heq] at h ⊢
      obtain rfl := Option.some.inj h
      exact ⟨done, effects, capturedAt, hacts, hsaves, rfl, rfl, rfl⟩
  | dropped done effects hacts hunsaved failure heq =>
      rw [heq] at h
      cases h

/-- Without a new result the records are as they were. -/
theorem step_of_stale (h : freshResult limits manifests s c = none) :
    step limits manifests s c = s := by
  unfold freshResult at h
  split at h
  · rename_i held hheld
    obtain ⟨digest, result⟩ := held
    exact (invoke_of_held hheld).1
  · cases houtcome : (invoke limits manifests s c).outcome with
    | error failure => exact step_of_error houtcome
    | ok result =>
        rw [houtcome] at h
        cases h

/-! ### A history -/

variable (limits manifests)

/-- The records after a history of calls, from a gateway with none. -/
def recordsAfter (calls : List Call) : GatewayState := replay (step limits manifests) {} calls

/-- The receipt was decided in the history by a user with release capability. -/
def Decided (calls : List Call) (receipt : ApprovalReceipt) : Prop :=
  ∃ before c after request result, calls = before ++ c :: after ∧
    c.request = .decideApproval request ∧
    freshResult limits manifests (recordsAfter limits manifests before) c = some result ∧
    c.invocation.principal.profile.maximumTier = .release ∧ Decides c.invocation request receipt

/-- The adapter staged the revision for the run, under an approved receipt of that run for the
preview of that patch. -/
def StagedFor (calls : List Call) (runId staged : String) : Prop :=
  ∃ before c after request run preview receipt stage result, calls = before ++ c :: after ∧
    c.request = .stageDesignPatch request ∧
    freshResult limits manifests (recordsAfter limits manifests before) c = some result ∧
    Stages (recordsAfter limits manifests before) c.turn request run preview receipt stage ∧
    .stagePatch request.projectId request.expectedProjectRevision request.patch
        request.previewDigest (.ok stage) ∈
      (invoke limits manifests (recordsAfter limits manifests before) c).asked ∧
    run.runId = runId ∧ preview.previewDigest = request.previewDigest ∧
    Decided limits manifests before receipt ∧ stage.stagedRevision = staged

/-- What ties the records to the history that led to them. -/
structure Joint (calls : List Call) (s : GatewayState) : Prop where
  sound : Sound s
  receipts : ∀ receiptId receipt, s.receipts receiptId = some receipt →
    Decided limits manifests calls receipt
  staged : ∀ runId run staged, s.runs runId = some run → run.stagedRevision = some staged →
    StagedFor limits manifests calls runId staged

variable {limits manifests}

variable {calls : List Call}

theorem Decided.snoc {receipt : ApprovalReceipt}
    (h : Decided limits manifests calls receipt) (c : Call) :
    Decided limits manifests (calls ++ [c]) receipt := by
  obtain ⟨before, c', after, request, result, rfl, hrest⟩ := h
  exact ⟨before, c', after ++ [c], request, result, by simp, hrest⟩

theorem StagedFor.snoc {runId staged : String}
    (h : StagedFor limits manifests calls runId staged) (c : Call) :
    StagedFor limits manifests (calls ++ [c]) runId staged := by
  obtain ⟨before, c', after, request, run, preview, receipt, stage, result, rfl, hrest⟩ := h
  exact ⟨before, c', after ++ [c], request, run, preview, receipt, stage, result, by simp, hrest⟩

omit [Hashing] in
theorem sound_empty : Sound {} := by
  refine ⟨Dict.owned_empty _, Dict.owned_empty _, Dict.owned_empty _, Dict.owned_empty _,
    Dict.owned_empty _, Dict.owned_empty _, ?_, ?_⟩
  · intro runId run h
    cases h
  · intro runId run h
    cases h

omit [Hashing] in
theorem Sound.publish {s : GatewayState} (h : Sound s) [Hashing] (c : Call) (result : ToolResult) :
    Sound (s.publish c result) :=
  ⟨h.runs, h.questions, h.approvals, h.receipts, h.previews, h.reports, h.questionIds,
    h.approvalIds⟩

theorem recordsAfter_snoc (calls : List Call) (c : Call) :
    recordsAfter limits manifests (calls ++ [c]) =
      step limits manifests (recordsAfter limits manifests calls) c :=
  Replay.snoc ..

omit [Hashing] in
theorem tier_release {tier : CapabilityTier} (h : CapabilityTier.release.value ≤ tier.value) :
    tier = .release := by
  cases tier with
  | release => rfl
  | read => exact absurd h (by decide)
  | stage => exact absurd h (by decide)

theorem staged_asked {done : Applied} {effects : List Asked} {r : StageDesignPatchRequest}
    {stage : StageRecord} (hdone : Done limits s c.invocation c.turn c.request done effects)
    (hrequest : c.request = .stageDesignPatch r)
    (hstage : c.turn.adapter.stagePatch r.projectId r.expectedProjectRevision r.patch
      r.previewDigest = .ok stage) :
    .stagePatch r.projectId r.expectedProjectRevision r.patch r.previewDigest (.ok stage) ∈
      (action limits s c.invocation c.turn c.request).asked := by
  obtain ⟨reads, hasked, -⟩ := hdone.asked
  rw [hasked]
  rw [hrequest] at hdone
  cases hdone with
  | staged _ _ _ _ _ _ hfound =>
      obtain rfl := Except.ok.inj (hstage.symm.trans hfound)
      simp

theorem Joint.step {calls : List Call}
    (h : Joint limits manifests calls (recordsAfter limits manifests calls)) (c : Call) :
    Joint limits manifests (calls ++ [c]) (recordsAfter limits manifests (calls ++ [c])) := by
  rw [recordsAfter_snoc]
  cases hfresh : freshResult limits manifests (recordsAfter limits manifests calls) c with
  | none =>
      rw [step_of_stale hfresh]
      exact ⟨h.sound, fun receiptId receipt hr => (h.receipts receiptId receipt hr).snoc c,
        fun runId run staged hrun hstaged => (h.staged runId run staged hrun hstaged).snoc c⟩
  | some result =>
      obtain ⟨done, effects, capturedAt, hacts, -, -, hstep, hasked⟩ := applied_of_fresh hfresh
      have htier := hacts.capable
      have hchange := action_change h.sound hacts.done.returns
      rw [hstep]
      refine ⟨hchange.sound.publish c result, ?_, ?_⟩
      · intro receiptId receipt hreceipt
        obtain hold | ⟨request, hrequest, hdecides⟩ := hchange.receipts receiptId receipt hreceipt
        · exact (h.receipts receiptId receipt hold).snoc c
        · refine ⟨calls, c, [], request, result, rfl, hrequest, hfresh, ?_, hdecides⟩
          rw [hrequest] at htier
          exact tier_release htier
      · intro runId run staged hrun hstaged
        obtain ⟨run', hold, hsame⟩ | ⟨request, run', preview, receipt, stage, hrequest, hrunId,
          hstages, hrevision⟩ := hchange.staged runId run staged hrun hstaged
        · exact (h.staged runId run' staged hold hsame).snoc c
        · refine ⟨calls, c, [], request, run', preview, receipt, stage, result, rfl, hrequest,
            hfresh, hstages, ?_, ?_, h.sound.previews _ _ hstages.previewed,
            h.receipts _ _ hstages.held, hrevision⟩
          · rw [hasked]
            exact staged_asked hacts.done hrequest hstages.answer
          · rw [← hrunId]
            exact h.sound.runs _ _ hstages.pinned.held

theorem joint_of_calls (calls : List Call) :
    Joint limits manifests calls (recordsAfter limits manifests calls) := by
  induction calls using List.reverseRecOn with
  | nil =>
      refine ⟨sound_empty, ?_, ?_⟩
      · intro receiptId receipt h
        cases h
      · intro runId run staged h
        cases h
  | append_singleton calls c ih => exact ih.step c

/-! ### The subject of a release -/

omit [Hashing] in
theorem canonicalMembers_texts {members : List (String × Json)}
    (h : ∀ member ∈ members, ∃ text, member.2 = .str text) :
    Json.canonicalMembers members = members := by
  induction members with
  | nil => rfl
  | cons member rest ih =>
      obtain ⟨key, value⟩ := member
      obtain ⟨text, rfl⟩ := h _ List.mem_cons_self
      rw [Json.canonicalMembers, ih fun other hother => h other (List.mem_cons_of_mem _ hother)]
      rfl

theorem perm_of_stableDigest (hfree : Hashing.CollisionFree) {members members' : List (String × Json)}
    (htexts : ∀ member ∈ members, ∃ text, member.2 = .str text)
    (htexts' : ∀ member ∈ members', ∃ text, member.2 = .str text)
    (h : stableDigest (.object members) = stableDigest (.object members')) :
    members.Perm members' := by
  have hcanonical := Json.render_injective (hfree h)
  have hsorted : ∀ {members : List (String × Json)},
      (∀ member ∈ members, ∃ text, member.2 = .str text) →
      (Json.object members).canonical =
        Json.object (members.insertionSort (fun a b => a.1 ≤ b.1)) := by
    intro members htexts
    show Json.object (Json.canonicalMembers _) = _
    rw [canonicalMembers_texts fun member hmember => htexts member
      ((List.mem_insertionSort _).mp hmember)]
  rw [hsorted htexts, hsorted htexts'] at hcanonical
  have hperm := Json.perm_of_object_eq hcanonical
  exact (List.perm_insertionSort _ members).symm.trans
    (hperm.trans (List.perm_insertionSort _ members'))

theorem releaseSubject_inj (hfree : Hashing.CollisionFree)
    {runId base staged report runId' base' staged' report' : String}
    (h : releaseSubject runId base staged report = releaseSubject runId' base' staged' report') :
    runId = runId' ∧ base = base' ∧ staged = staged' ∧ report = report' := by
  have hperm := perm_of_stableDigest hfree (by simp) (by simp) h
  have hmem := fun member => (hperm.mem_iff (a := member)).mp
  refine ⟨?_, ?_, ?_, ?_⟩
  · simpa using hmem ("run_id", .str runId) (by simp)
  · simpa using hmem ("project_revision", .str base) (by simp)
  · simpa using hmem ("staged_revision", .str staged) (by simp)
  · simpa using hmem ("verification_report_digest", .str report) (by simp)

/-! ### The commits of a gateway -/

variable (limits manifests)

/-- The adapter may be asked to commit: after this history the run has the base and the stage, the
stage was approved and produced by the adapter, a passing report for exactly these is stored, and the
release of exactly these was approved. -/
structure ApprovedCommit (calls : List Call) (projectId base staged : String) (run : AgentRun)
    (report : VerificationReport) (receipt : ApprovalReceipt) : Prop where
  held : (recordsAfter limits manifests calls).runs run.runId = some run
  project : run.projectId = projectId ∧ run.projectRevision = base
  stage : run.stagedRevision = some staged ∧ StagedFor limits manifests calls run.runId staged
  verified : (recordsAfter limits manifests calls).reports report.reportDigest = some report ∧
    report.passed = true ∧ report.baseRevision = base ∧ report.stagedRevision = staged
  released : (recordsAfter limits manifests calls).receipts receipt.receiptId = some receipt ∧
    Approves receipt run .release (releaseSubject run.runId base staged report.reportDigest)
  decided : Decided limits manifests calls receipt
  bound : Hashing.CollisionFree → ∀ runId base' staged' digest,
    receipt.subjectDigest = releaseSubject runId base' staged' digest →
      runId = run.runId ∧ base' = base ∧ staged' = staged ∧ digest = report.reportDigest

variable {limits manifests}

theorem approvedCommit_of_asked {c : Call} {projectId base staged : String}
    {evidence : Option (AgentRun × VerificationReport × ApprovalReceipt)}
    {answer : Except Failure String}
    (h : .commit projectId base staged evidence answer ∈
      (invoke limits manifests (recordsAfter limits manifests calls) c).asked) :
    ∃ run report receipt,
      ApprovedCommit limits manifests calls projectId base staged run report receipt := by
  have hjoint := @joint_of_calls _ limits manifests calls
  obtain ⟨request, run, report, receipt, -, hcommits, rfl, rfl, rfl⟩ :=
    action_commits (asked_by_action h)
  have hrunId := hjoint.sound.runs _ _ hcommits.pinned.held
  have hdigest := hjoint.sound.reports _ _ hcommits.stored
  have hreceiptId := hjoint.sound.receipts _ _ hcommits.held
  have happroves := hcommits.approves
  rw [← hdigest] at happroves
  refine ⟨run, report, receipt, ?_, ⟨hcommits.pinned.project, hcommits.pinned.revision⟩,
    ⟨hcommits.staged, ?_⟩, ⟨?_, hcommits.passed, hcommits.revisions⟩, ⟨?_, happroves⟩,
    hjoint.receipts _ _ hcommits.held, ?_⟩
  · rw [hrunId]
    exact hcommits.pinned.held
  · rw [hrunId]
    exact hjoint.staged _ run _ hcommits.pinned.held hcommits.staged
  · rw [hdigest]
    exact hcommits.stored
  · rw [hreceiptId]
    exact hcommits.held
  · intro hfree runId base' staged' digest hsubject
    obtain ⟨h₁, h₂, h₃, h₄⟩ := releaseSubject_inj hfree (happroves.subject.symm.trans hsubject)
    exact ⟨h₁.symm, h₂.symm, h₃.symm, h₄.symm⟩

/-- Once the adapter has changed a project, the call is applied unless the store cannot save it. -/
theorem changed_applied {q : Asked} (h : q ∈ (invoke limits manifests s c).asked)
    (hq : q.changes = true) : (∃ result, freshResult limits manifests s c = some result) ∨
      ∃ done effects failure, Acts limits s c done effects ∧ ¬ Saves s c done.payload ∧
        (invoke limits manifests s c).outcome = .error failure := by
  cases @invoke_course _ limits manifests s c with
  | refused failure heq =>
      rw [heq] at h
      cases h
  | repeated digest result hcapable hheld hdigest heq =>
      rw [heq] at h
      cases h
  | failed hnew failure haction heq =>
      obtain ⟨done, hdone⟩ := action_completes (asked_by_action h) hq
      rw [haction] at hdone
      cases hdone
  | applied done effects hacts hsaves capturedAt heq =>
      refine Or.inl ⟨toolResult manifests c capturedAt done, ?_⟩
      unfold freshResult
      rw [hacts.new, heq]
      rfl
  | dropped done effects hacts hunsaved failure heq =>
      exact Or.inr ⟨done, effects, failure, hacts, hunsaved, by rw [heq]⟩

/-! ### Effects -/

variable (limits manifests)

/-- The call took effect: it left other records behind, or the adapter changed something for it. -/
def TakesEffect (s : GatewayState) (c : Call) : Prop :=
  step limits manifests s c ≠ s ∨ ∃ q ∈ (invoke limits manifests s c).asked, q.changes = true

/-- The call is a retry that finds this result: it asks nothing and changes nothing, and it returns
the result where the store can be read, the caller may use the tool and the input is the same, and
raises otherwise. -/
structure Repeats (s : GatewayState) (c : Call) (inputDigest : String) (result : ToolResult) :
    Prop where
  still : step limits manifests s c = s
  asked : (invoke limits manifests s c).asked = []
  only : ∀ r, (invoke limits manifests s c).outcome = .ok r → r = result
  returns : (∀ store ∈ c.turn.store, store.load = .ok ()) →
    (requiredTier c.request.tool).value ≤ c.invocation.principal.profile.maximumTier.value →
    c.inputDigest = inputDigest → (invoke limits manifests s c).outcome = .ok result

/-- No key of the history takes effect twice: a call that takes effect returns a result, and every
later call under its key is a retry that finds it. -/
def OncePerKey (calls : List Call) : Prop :=
  ∀ before c between again after, calls = before ++ c :: between ++ again :: after →
    again.key = c.key → TakesEffect limits manifests (recordsAfter limits manifests before) c →
    ∃ result, freshResult limits manifests (recordsAfter limits manifests before) c = some result ∧
      Repeats limits manifests (recordsAfter limits manifests (before ++ c :: between)) again
        c.inputDigest result

/-- Where the adapter is to stage, commit, roll back or export for a call, the records can be saved
afterwards. -/
def ActsSaved (s : GatewayState) (c : Call) : Prop :=
  c.request.acts = true → ∀ done effects, Acts limits s c done effects → Saves s c done.payload

variable {limits manifests}

theorem step_keeps {key : String × ToolName × String} {entry : String × ToolResult}
    (h : s.idempotency key = some entry) : (step limits manifests s c).idempotency key = some entry := by
  cases hfresh : freshResult limits manifests s c with
  | none =>
      rw [step_of_stale hfresh]
      exact h
  | some result =>
      obtain ⟨done, effects, capturedAt, hacts, -, -, hstep, -⟩ := applied_of_fresh hfresh
      have hne : key ≠ c.key := by
        rintro rfl
        rw [hacts.new] at h
        cases h
      rw [hstep]
      show done.gateway.idempotency.set c.key _ key = _
      rw [Dict.set_of_ne _ _ hne, hacts.done.kept.1]
      exact h

theorem fresh_of_effect (heffect : TakesEffect limits manifests s c)
    (hsaved : ActsSaved limits s c) :
    ∃ result, freshResult limits manifests s c = some result := by
  obtain hstep | ⟨q, hq, hchanges⟩ := heffect
  · cases hfresh : freshResult limits manifests s c with
    | none => exact absurd (step_of_stale hfresh) hstep
    | some result => exact ⟨result, rfl⟩
  · obtain hfresh | ⟨done, effects, -, hacts, hunsaved, -⟩ := changed_applied hq hchanges
    · exact hfresh
    · have hrequest : c.request.acts = true := by
        by_contra hother
        have hnothing := other_asked (Bool.eq_false_of_not_eq_true hother) (asked_by_action hq)
        rw [hnothing.1] at hchanges
        cases hchanges
      exact absurd (hsaved hrequest done effects hacts) hunsaved

theorem once_of_saved
    (hsaved : Replay.Throughout (step limits manifests) (ActsSaved limits) {} calls) :
    OncePerKey limits manifests calls := by
  rintro before c between again after rfl hkey heffect
  rw [List.append_assoc, Replay.throughout_append] at hsaved
  obtain ⟨result, hfresh⟩ := fresh_of_effect heffect hsaved.2.1
  refine ⟨result, hfresh, ?_⟩
  have hheld : (recordsAfter limits manifests (before ++ c :: between)).idempotency again.key =
      some (c.inputDigest, result) := by
    unfold recordsAfter
    rw [Replay.append, Replay.cons rfl, hkey]
    refine Replay.invariant (P := fun s : GatewayState => s.idempotency c.key =
      some (c.inputDigest, result)) ?_ (fun _ _ => step_keeps) between
    obtain ⟨done, _, _, _, -, -, hstep, -⟩ := applied_of_fresh hfresh
    unfold recordsAfter at hstep
    rw [hstep]
    exact Dict.set_self ..
  obtain ⟨hstill, hasked, honly⟩ := @invoke_of_held _ limits manifests _ _ _ _ hheld
  exact ⟨hstill, hasked, honly, invoke_again hheld⟩

/-- **After every history of calls, the adapter is asked to commit only what was staged by it under
an approval of the run, verified, and released, both approvals decided by a user with release
capability; and no key takes effect twice, if whatever the adapter did could be saved.** -/
theorem commits_approved (limits : Limits) (manifests : Manifests) (calls : List Call) :
    (∀ c projectId base staged evidence answer,
      .commit projectId base staged evidence answer ∈
        (invoke limits manifests (recordsAfter limits manifests calls) c).asked →
      ∃ run report receipt,
        ApprovedCommit limits manifests calls projectId base staged run report receipt) ∧
    (Replay.Throughout (step limits manifests) (ActsSaved limits) {} calls →
      OncePerKey limits manifests calls) :=
  ⟨fun _ _ _ _ _ _ h => approvedCommit_of_asked h, once_of_saved⟩

end Approvals

/-! ### A save that fails

A project is exported, the save of the call fails, and the call is made again under its key. -/

section Sample

/-- Every text is its own digest. -/
@[reducible] def plainHashing : Hashing := ⟨String.ofList⟩

attribute [local instance] plainHashing

def exportingAdapter : Adapter where
  inspectProject _ _ := .error ⟨.other, ""⟩
  previewPatch _ _ _ := .error ⟨.other, ""⟩
  stagePatch _ _ _ _ := .error ⟨.other, ""⟩
  runVerification _ _ _ := .error ⟨.other, ""⟩
  commit _ _ _ := .error ⟨.other, ""⟩
  commitWithEvidence := none
  rollback _ _ _ := .error ⟨.other, ""⟩
  exportProject projectId revision format :=
    .ok ⟨"a1", projectId, revision, format, "application/zip", "d1", 1, none⟩

/-- The call, with what the store says to its save. -/
def exportCall (save : Except Failure Unit) : Call :=
  ⟨⟨⟨"u1", .user, .releaseManager⟩, "k1"⟩, .exportProject ⟨"demo", "rev1", .gerberBundle⟩,
    ⟨exportingAdapter, .ok 0, .ok 0, some ⟨.ok (), save⟩⟩⟩

theorem exportCall_acts (save : Except Failure Unit) :
    ∃ done effects, Acts {} {} (exportCall save) done effects ∧
      ∃ q ∈ effects, q.changes = true := by
  have hcapable : (requiredTier .exportProject).value ≤
      ProfileName.releaseManager.maximumTier.value := by decide
  refine ⟨_, _, ⟨fun store hstore => ?_, hcapable, rfl, ⟨0, rfl⟩, List.nodup_nil,
    .exported rfl⟩, _, List.mem_singleton_self _, rfl⟩
  obtain rfl := Option.some.inj hstore
  rfl

theorem exportCall_effect (save : Except Failure Unit) :
    TakesEffect {} ⟨fun _ => "m"⟩ {} (exportCall save) := by
  obtain ⟨done, effects, hacts, q, hq, hchanges⟩ := exportCall_acts save
  refine Or.inr ⟨q, ?_, hchanges⟩
  obtain ⟨reads, hasked, -⟩ := hacts.done.asked
  obtain ⟨-, _, -, hinvoke⟩ | ⟨-, _, hinvoke⟩ := @Acts.invoke _ {} ⟨fun _ => "m"⟩ _ _ _ _ hacts
  · rw [hinvoke, hasked]
    exact List.mem_append_right _ hq
  · rw [hinvoke, hasked]
    exact List.mem_append_right _ hq

theorem exportCall_unsaved (failure : Failure) :
    freshResult {} ⟨fun _ => "m"⟩ {} (exportCall (.error failure)) = none := by
  obtain ⟨done, effects, hacts, -⟩ := exportCall_acts (.error failure)
  obtain ⟨hsaves, -⟩ | ⟨-, _, hinvoke⟩ := @Acts.invoke _ {} ⟨fun _ => "m"⟩ _ _ _ _ hacts
  · cases (hsaves _ rfl).2
  · unfold freshResult
    rw [hinvoke]
    rfl

/-- **The adapter exports twice under one key, and the first call has no result.** -/
theorem failed_save_repeats :
    (exportCall (.ok ())).key = (exportCall (.error ⟨.other, "disk full"⟩)).key ∧
    TakesEffect {} ⟨fun _ => "m"⟩ {} (exportCall (.error ⟨.other, "disk full"⟩)) ∧
    TakesEffect {} ⟨fun _ => "m"⟩
      (recordsAfter {} ⟨fun _ => "m"⟩ [exportCall (.error ⟨.other, "disk full"⟩)])
      (exportCall (.ok ())) ∧
    ¬ OncePerKey {} ⟨fun _ => "m"⟩
      [exportCall (.error ⟨.other, "disk full"⟩), exportCall (.ok ())] := by
  have hunsaved := exportCall_unsaved ⟨.other, "disk full"⟩
  have hstill : recordsAfter {} ⟨fun _ => "m"⟩ [exportCall (.error ⟨.other, "disk full"⟩)] = {} :=
    step_of_stale hunsaved
  refine ⟨rfl, exportCall_effect _, ?_, fun honce => ?_⟩
  · rw [hstill]
    exact exportCall_effect _
  · obtain ⟨result, hfresh, -⟩ := honce [] _ [] _ [] rfl rfl (exportCall_effect _)
    cases hunsaved.symm.trans hfresh

end Sample

end Evleda.Gateway
