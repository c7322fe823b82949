/-
A gateway over a durable store.

The store may be shared with other gateways.  A call first looks whether the store
is ahead of the gateway, and if it is takes over the records of the store; at its
end it saves its own records, which succeeds only if no other gateway has saved in
between.

A call that cannot save raises, and the gateway puts its records back.  What it
cannot put back is the adapter: a stage, a commit or a rollback that was done before
the save failed stays done, and no record says so.  Nor does it put back the records
that it took over from the store before a refusal.
-/
import Evleda.Gateway.Forward

namespace Evleda.Gateway

open Asking

/-! ### The store -/

/-- One entry of the idempotency table, as it is saved. -/
structure GatewayIdempotencyRecord where
  actorId : String
  toolName : ToolName
  idempotencyKey : String
  inputDigest : String
  result : ToolResult

/-- The records of a gateway, as they are saved: no identifier occurs twice. -/
structure GatewaySnapshot where
  runs : List AgentRun := []
  questions : List QuestionRecord := []
  approvals : List ApprovalRequestRecord := []
  receipts : List ApprovalReceipt := []
  previews : List PatchPreview := []
  reports : List VerificationReport := []
  idempotency : List GatewayIdempotencyRecord := []
  evidence : List EvidenceRecord := []
  unique : (runs.map (·.runId)).Nodup ∧ (questions.map (·.questionId)).Nodup ∧
    (approvals.map (·.approvalId)).Nodup ∧ (receipts.map (·.receiptId)).Nodup ∧
    (previews.map (·.previewDigest)).Nodup ∧ (reports.map (·.reportDigest)).Nodup ∧
    (evidence.map (·.evidenceId)).Nodup ∧
    (idempotency.map fun item => (item.actorId, item.toolName, item.idempotencyKey)).Nodup

/-- What the store holds: how often it was saved, and what was saved last. -/
structure StoredGatewaySnapshot where
  generation : Nat
  snapshot : GatewaySnapshot

/-- The store during one call. -/
structure Journal where
  loaded : Except Failure StoredGatewaySnapshot
  /-- The generation of the store when the call saves: other gateways may have saved. -/
  current : Except Failure Nat
  written : Except Failure Unit

/-- `SQLiteGatewayStateStore.save` -/
def Journal.save (journal : Journal) (expectedGeneration : Nat) : Except Failure Unit := do
  let generation ← journal.current
  if generation ≠ expectedGeneration then
    .error ⟨.stateConflict, "durable gateway state advanced; reload exact coordination state"⟩
  else journal.written

/-! ### The gateway -/

/-- A gateway with a store: its records, and the generation of the store they are from. -/
structure Session where
  records : GatewayState := {}
  stateGeneration : Nat := 0

/-- The records, each kept under its identifier. -/
def GatewaySnapshot.records (snapshot : GatewaySnapshot) : GatewayState where
  runs := Dict.empty.update (snapshot.runs.map fun item => (item.runId, item))
  questions := Dict.empty.update (snapshot.questions.map fun item => (item.questionId, item))
  approvals := Dict.empty.update (snapshot.approvals.map fun item => (item.approvalId, item))
  receipts := Dict.empty.update (snapshot.receipts.map fun item => (item.receiptId, item))
  previews := Dict.empty.update (snapshot.previews.map fun item => (item.previewDigest, item))
  reports := Dict.empty.update (snapshot.reports.map fun item => (item.reportDigest, item))
  idempotency := Dict.empty.update (snapshot.idempotency.map fun item =>
    ((item.actorId, item.toolName, item.idempotencyKey), item.inputDigest, item.result))
  evidence := snapshot.evidence

/-- The entry was made under the manifest that its tool has now. -/
def GatewayIdempotencyRecord.Current (manifests : Manifests) (entry : GatewayIdempotencyRecord) :
    Prop :=
  entry.result.toolName = entry.toolName ∧
    entry.result.manifestDigest = manifests.digest entry.toolName ∧
    entry.result.evidence.manifestDigest = manifests.digest entry.toolName

instance (manifests : Manifests) : DecidablePred (GatewayIdempotencyRecord.Current manifests) :=
  fun _ => inferInstanceAs (Decidable (_ ∧ _ ∧ _))

/-- Every run names questions and approvals that the snapshot holds. -/
def GatewaySnapshot.Coordinated (snapshot : GatewaySnapshot) : Prop :=
  ∀ run ∈ snapshot.runs, (∀ questionId ∈ run.questionIds,
      questionId ∈ snapshot.questions.map (·.questionId)) ∧
    ∀ approvalId ∈ run.approvalIds, approvalId ∈ snapshot.approvals.map (·.approvalId)

instance : DecidablePred GatewaySnapshot.Coordinated :=
  fun _ => inferInstanceAs (Decidable (∀ _ ∈ _, _))

/-- `_install_snapshot`: the outcome and the records after it.  The references of the runs are looked
at last, when the records are in place already. -/
def installSnapshot (manifests : Manifests) (records : GatewayState) (snapshot : GatewaySnapshot) :
    Except Failure Unit × GatewayState :=
  if ∀ entry ∈ snapshot.idempotency, entry.Current manifests then
    if snapshot.Coordinated then (.ok (), snapshot.records)
    else (.error ⟨.invalidRequest, "durable run references missing coordination records"⟩,
      snapshot.records)
  else (.error ⟨.invalidRequest, "durable idempotency evidence does not match this tool manifest"⟩,
    records)

/-- `_refresh_persisted_locked`: the outcome and the gateway after it. -/
def Session.refresh (manifests : Manifests) (session : Session)
    (loaded : Except Failure StoredGatewaySnapshot) : Except Failure Unit × Session :=
  match loaded with
  | .error failure => (.error failure, session)
  | .ok stored =>
      if stored.generation < session.stateGeneration then
        (.error ⟨.invalidRequest, "durable gateway state moved backwards"⟩, session)
      else if session.stateGeneration < stored.generation then
        match installSnapshot manifests session.records stored.snapshot with
        | (.ok (), records) => (.ok (), ⟨records, stored.generation⟩)
        | (.error failure, records) => (.error failure, ⟨records, session.stateGeneration⟩)
      else (.ok (), session)

/-! ### The adapter -/

/-- The question was a stage, a commit or a rollback, and was done. -/
def Asked.moves : Asked → Bool
  | .stagePatch _ _ _ _ (.ok _) => true
  | .commit _ _ _ _ (.ok _) => true
  | .rollback _ _ _ (.ok _) => true
  | _ => false

/-- A request to stage, commit or roll back. -/
def Request.moves : Request → Bool
  | .stageDesignPatch _ | .commitTransaction _ | .rollbackTransaction _ => true
  | _ => false

/-- A stage, a commit or a rollback was answered by the adapter. -/
def Asked.AnsweredBy (adapter : Adapter) : Asked → Prop
  | .stagePatch projectId revision patch previewDigest answer =>
      answer = adapter.stagePatch projectId revision patch previewDigest
  | .commit projectId revision staged evidence answer =>
      answer = match adapter.commitWithEvidence, evidence with
        | some commitWithEvidence, some (run, report, receipt) =>
            commitWithEvidence projectId revision staged run report receipt
        | _, _ => adapter.commit projectId revision staged
  | .rollback projectId revision staged answer =>
      answer = adapter.rollback projectId revision staged
  | _ => True

/-- An adapter with a state of its own, which it answers from.  Each of its operations is atomic: it
was done, or it left the projects alone. -/
structure Workshop (σ π : Type) where
  answers : σ → Adapter
  after : σ → Asked → σ
  /-- The committed revisions and the active stages. -/
  projects : σ → π
  atomic : ∀ state q, q.moves = false → projects (after state q) = projects state
  /-- A stage that was done is active, and a commit or a rollback ends the one that was. -/
  moving : ∀ state reads q, (∀ r ∈ reads, r.reads = true) → q.moves = true →
    q.AnsweredBy (answers state) → projects ((reads ++ [q]).foldl after state) ≠ projects state

section Workshop

variable {σ π : Type}

def Workshop.afterAll (w : Workshop σ π) (state : σ) (asked : List Asked) : σ :=
  asked.foldl w.after state

theorem Workshop.afterAll_still (w : Workshop σ π) {asked : List Asked}
    (h : ∀ q ∈ asked, q.moves = false) (state : σ) :
    w.projects (w.afterAll state asked) = w.projects state := by
  induction asked generalizing state with
  | nil => rfl
  | cons q asked ih =>
      have hrest := ih (fun r hr => h r (List.mem_cons_of_mem _ hr)) (w.after state q)
      exact hrest.trans (w.atomic state q (h q List.mem_cons_self))

end Workshop

theorem Asked.reads_still {q : Asked} (h : q.reads = true) : q.moves = false := by
  cases q with
  | inspectProject projectId revision answer => rfl
  | previewPatch projectId revision patch answer => rfl
  | runVerification projectId revision staged answer => rfl
  | _ => cases h

theorem Asked.moves_changes {q : Asked} (h : q.moves = true) : q.changes = true := by
  unfold Asked.moves at h
  split at h
  · rfl
  · rfl
  · rfl
  · cases h

/-! ### One call -/

/-- A call as a host passes it on. -/
structure SharedCall where
  invocation : Invocation
  request : Request
  capturedAt : Except Failure Instant
  actedAt : Except Failure Instant
  journal : Journal

/-- The gateway after a call, what the call returned or raised, and what the adapter was asked. -/
structure SharedReply where
  session : Session
  outcome : Except Failure ToolResult
  asked : List Asked

section Calls

variable [Hashing] {σ π : Type} (limits : Limits) (manifests : Manifests) (w : Workshop σ π)
  (state : σ) (session : Session) (c : SharedCall)

/-- The call on what the gateway works on, with what the adapter answers to it. -/
def SharedCall.on (opened : Session) : Call :=
  ⟨c.invocation, c.request, ⟨w.answers state, c.capturedAt, c.actedAt,
    some ⟨.ok (), c.journal.save opened.stateGeneration⟩⟩⟩

/-- The call of a gateway with a store. -/
def Session.invoke : SharedReply :=
  match session.refresh manifests c.journal.loaded with
  | (.error failure, refreshed) => ⟨refreshed, .error failure, []⟩
  | (.ok (), opened) =>
      let reply := Gateway.invoke limits manifests opened.records (c.on w state opened)
      -- a result that was not in the table before has been saved
      let saved := reply.outcome.toBool &&
        (opened.records.idempotency (c.on w state opened).key).isNone
      ⟨⟨reply.gateway, if saved then opened.stateGeneration + 1 else opened.stateGeneration⟩,
        reply.outcome, reply.asked⟩

/-- If the call raises, the gateway and the adapter's projects are what they were. -/
def Unchanged : Prop :=
  ∀ failure, (session.invoke limits manifests w state c).outcome = .error failure →
    (session.invoke limits manifests w state c).session = session ∧
      w.projects (w.afterAll state (session.invoke limits manifests w state c).asked) =
        w.projects state

/-- A call finds its result in the table, or gets to its action, which returns and can be saved. -/
def Served (limits : Limits) (s : GatewayState) (c : Call) : Prop :=
  ((requiredTier c.request.tool).value ≤ c.invocation.principal.profile.maximumTier.value ∧
      ∃ result, s.idempotency c.key = some (c.inputDigest, result)) ∨
    ∃ done effects, Acts limits s c done effects ∧ Saves s c done.payload

/-- What a call to stage, commit or roll back does to its project can be saved. -/
def MovesSaved (limits : Limits) (s : GatewayState) (c : Call) : Prop :=
  c.request.moves = true → ∀ done effects, Acts limits s c done effects → Saves s c done.payload

/-- When a call that raises changes nothing.  A gateway at the generation of the store can save what
it moves; one that takes over newer records serves the call; and what the store holds where runs name
questions or approvals that are missing is what the gateway has. -/
structure Recoverable (stored : StoredGatewaySnapshot) : Prop where
  level : stored.generation = session.stateGeneration →
    MovesSaved limits session.records (c.on w state session)
  behind : session.stateGeneration < stored.generation →
    (∀ entry ∈ stored.snapshot.idempotency, entry.Current manifests) →
    stored.snapshot.Coordinated → Served limits stored.snapshot.records
      (c.on w state ⟨stored.snapshot.records, stored.generation⟩)
  mangled : session.stateGeneration < stored.generation →
    (∀ entry ∈ stored.snapshot.idempotency, entry.Current manifests) →
    ¬ stored.snapshot.Coordinated → stored.snapshot.records = session.records

variable {limits manifests w state session c}

/-! ### Calls that raise -/

variable {invocation : Invocation} {request : Request}

/-- The question with which an action stages, commits or rolls back. -/
theorem Done.moves {s : GatewayState} {turn : Turn}
    {done : Applied} {effects : List Asked}
    (h : Done limits s invocation turn request done effects) (hmoves : request.moves = true) :
    ∃ q, effects = [q] ∧ q.moves = true ∧ q.AnsweredBy turn.adapter := by
  cases h with
  | staged _ _ _ _ _ _ hstage => exact ⟨_, rfl, rfl, hstage.symm⟩
  | committed _ _ _ _ _ _ _ _ hcommit =>
      unfold askCommit at hcommit ⊢
      cases hevidence : turn.adapter.commitWithEvidence with
      | some commitWithEvidence =>
          rw [hevidence] at hcommit
          refine ⟨_, rfl, ?_, by simp only [Asked.AnsweredBy, hevidence]⟩
          rw [ask_outcome] at hcommit
          rw [hcommit]
          rfl
      | none =>
          rw [hevidence] at hcommit
          refine ⟨_, rfl, ?_, by simp only [Asked.AnsweredBy, hevidence]⟩
          rw [ask_outcome] at hcommit
          rw [hcommit]
          rfl
  | rolledBack _ _ _ hrollback => exact ⟨_, rfl, rfl, hrollback.symm⟩
  | _ => cases hmoves

theorem Done.still {s : GatewayState} {turn : Turn}
    {done : Applied} {effects : List Asked}
    (h : Done limits s invocation turn request done effects) (hother : request.moves = false) :
    ∀ q ∈ effects, q.moves = false := by
  intro q hq
  cases h with
  | staged _ _ _ _ _ _ _ => cases hother
  | committed _ _ _ _ _ _ _ _ _ => cases hother
  | rolledBack _ _ _ _ => cases hother
  | exported _ =>
      rw [List.mem_singleton] at hq
      rw [hq]
      rfl
  | _ => cases hq

/-- An action that stages, commits or rolls back changes the projects, and no other action. -/
theorem Done.projects {s : GatewayState} {turn : Turn}
    {done : Applied} {effects : List Asked}
    (h : Done limits s invocation turn request done effects) (hturn : turn.adapter = w.answers state) :
    w.projects (w.afterAll state (action limits s invocation turn request).asked) =
      w.projects state ↔ request.moves = false := by
  obtain ⟨reads, hasked, hreads⟩ := h.asked
  rw [hasked]
  constructor
  · intro hsame
    by_contra hmoves
    obtain ⟨q, rfl, hq, hanswered⟩ := h.moves (Bool.eq_true_of_not_eq_false hmoves)
    rw [hturn] at hanswered
    exact w.moving state reads q hreads hq hanswered hsame
  · intro hother
    refine w.afterAll_still (fun q hq => ?_) state
    obtain hread | heffect := List.mem_append.mp hq
    · exact Asked.reads_still (hreads q hread)
    · exact h.still hother q heffect

theorem still_of_error {records : GatewayState} {turn : Turn}
    {failure : Failure}
    (h : (action limits records invocation turn request).outcome = .error failure) :
    ∀ q ∈ (action limits records invocation turn request).asked, q.moves = false := by
  intro q hq
  by_contra hmoves
  obtain ⟨applied, happlied⟩ := action_completes hq
    (Asked.moves_changes (Bool.eq_true_of_not_eq_false hmoves))
  rw [h] at happlied
  cases happlied

theorem Served.returns {s : GatewayState} {c : Call} (h : Served limits s c)
    (hload : ∀ store ∈ c.turn.store, store.load = .ok ()) :
    ∃ result, (Gateway.invoke limits manifests s c).outcome = .ok result := by
  obtain ⟨hcapable, result, hheld⟩ | ⟨done, effects, hacts, hsaves⟩ := h
  · exact ⟨result, invoke_again hheld hload hcapable rfl⟩
  · obtain ⟨-, capturedAt, -, hinvoke⟩ | ⟨hunsaved, -⟩ :=
      @Acts.invoke _ limits manifests _ _ _ _ hacts
    · exact ⟨_, congrArg Reply.outcome hinvoke⟩
    · exact absurd hsaves hunsaved

theorem Served.movesSaved {s : GatewayState} {c : Call} (h : Served limits s c) :
    MovesSaved limits s c := by
  intro _ done effects hacts
  obtain ⟨-, result, hheld⟩ | ⟨done', effects', hacts', hsaves⟩ := h
  · cases hacts.new.symm.trans hheld
  · obtain rfl := Except.ok.inj (hacts'.done.returns.symm.trans hacts.done.returns)
    exact hsaves

/-- A call that is not served raises and keeps the records, and the projects too exactly if what it
moves could be saved. -/
theorem unserved {s : GatewayState} {c : Call} (h : ¬ Served limits s c)
    (hturn : c.turn.adapter = w.answers state) :
    (∃ failure, (Gateway.invoke limits manifests s c).outcome = .error failure) ∧
      (Gateway.invoke limits manifests s c).gateway = s ∧
      (w.projects (w.afterAll state (Gateway.invoke limits manifests s c).asked) =
        w.projects state ↔ MovesSaved limits s c) := by
  -- no action of a call that is not served could be saved
  have hmoves : MovesSaved limits s c ↔
      (c.request.moves = true → ∀ done effects, ¬ Acts limits s c done effects) := by
    refine forall_congr' fun _ => forall_congr' fun done => forall_congr' fun effects => ?_
    exact ⟨fun hsaves hacts => h (Or.inr ⟨done, effects, hacts, hsaves hacts⟩),
      fun hnot hacts => absurd hacts hnot⟩
  rw [hmoves]
  cases hcourse : @invoke_course _ limits manifests s c with
  | refused failure heq =>
      rw [heq]
      refine ⟨⟨failure, rfl⟩, rfl, iff_of_true rfl fun hrequest done effects hacts => ?_⟩
      obtain ⟨-, _, -, hinvoke⟩ | ⟨-, _, hinvoke⟩ := @Acts.invoke _ limits manifests _ _ _ _ hacts
      · cases congrArg Reply.outcome (heq.symm.trans hinvoke)
      · obtain ⟨reads, hasked, -⟩ := hacts.done.asked
        obtain ⟨q, rfl, -⟩ := hacts.done.moves hrequest
        have hnone := congrArg Reply.asked (heq.symm.trans hinvoke)
        rw [hasked] at hnone
        simp [Gateway.refused] at hnone
  | repeated digest result hcapable hheld hdigest heq =>
      exact absurd (Or.inl ⟨hcapable, result, hdigest ▸ hheld⟩) h
  | failed hnew failure haction heq =>
      rw [heq]
      refine ⟨⟨failure, rfl⟩, rfl, iff_of_true (w.afterAll_still (still_of_error haction) state) ?_⟩
      intro _ done effects hacts
      cases haction.symm.trans hacts.done.returns
  | applied done effects hacts hsaves capturedAt heq =>
      exact absurd (Or.inr ⟨done, effects, hacts, hsaves⟩) h
  | dropped done effects hacts hunsaved failure heq =>
      rw [heq]
      refine ⟨⟨failure, rfl⟩, rfl, (hacts.done.projects hturn).trans ?_⟩
      constructor
      · intro hother hmoves
        rw [hother] at hmoves
        cases hmoves
      · intro hnot
        by_contra hmoves
        exact hnot (Bool.eq_true_of_not_eq_false hmoves) done effects hacts

/-- A call that the store did not let begin. -/
theorem unchanged_of_refused {failure : Failure} {refreshed : Session}
    (h : session.refresh manifests c.journal.loaded = (.error failure, refreshed)) :
    Unchanged limits manifests w state session c ↔ refreshed = session := by
  have hreply : session.invoke limits manifests w state c = ⟨refreshed, .error failure, []⟩ := by
    unfold Session.invoke
    rw [h]
  unfold Unchanged
  rw [hreply]
  exact ⟨fun hkept => (hkept failure rfl).1, fun hsame _ _ => ⟨hsame, rfl⟩⟩

theorem unchanged_of_opened {opened : Session}
    (h : session.refresh manifests c.journal.loaded = (.ok (), opened)) :
    Unchanged limits manifests w state session c ↔
      Served limits opened.records (c.on w state opened) ∨
        (opened = session ∧ MovesSaved limits opened.records (c.on w state opened)) := by
  have hload : ∀ store ∈ (c.on w state opened).turn.store, store.load = .ok () := by
    intro store hstore
    obtain rfl := Option.some.inj hstore
    rfl
  unfold Unchanged Session.invoke
  rw [h]
  by_cases hserved : Served limits opened.records (c.on w state opened)
  · refine iff_of_true (fun failure hfailure => ?_) (Or.inl hserved)
    obtain ⟨result, hresult⟩ := @Served.returns _ limits manifests _ _ hserved hload
    cases hresult.symm.trans hfailure
  · obtain ⟨⟨failure, hfailure⟩, hgateway, hprojects⟩ :=
      @unserved _ _ _ limits manifests w state _ _ hserved rfl
    dsimp only
    rw [hfailure, hgateway, or_iff_right hserved, ← hprojects]
    exact ⟨fun hkept => hkept failure rfl, fun hboth _ _ => hboth⟩

/-- **A call that raises leaves the gateway and the projects of its adapter as they were, exactly if
what it moves could be saved, no newer records were taken over for it, and the store is not
mangled.** -/
theorem raise_leaves_iff (limits : Limits) (manifests : Manifests) (w : Workshop σ π) (state : σ)
    (session : Session) (c : SharedCall) :
    Unchanged limits manifests w state session c ↔
      ∀ stored, c.journal.loaded = .ok stored →
        Recoverable limits manifests w state session c stored := by
  cases hloaded : c.journal.loaded with
  | error failure =>
      have hrefused : session.refresh manifests c.journal.loaded = (.error failure, session) := by
        rw [hloaded]
        rfl
      refine iff_of_true ((unchanged_of_refused hrefused).mpr rfl) ?_
      intro stored hstored
      cases hstored
  | ok stored =>
      simp only [Except.ok.injEq, forall_eq']
      have hrefresh : session.refresh manifests c.journal.loaded =
          session.refresh manifests (.ok stored) := by rw [hloaded]
      unfold Session.refresh at hrefresh
      dsimp only at hrefresh
      rcases Nat.lt_trichotomy stored.generation session.stateGeneration with hless | hsame | hmore
      · rw [if_pos hless] at hrefresh
        refine iff_of_true ((unchanged_of_refused hrefresh).mpr rfl) ⟨?_, ?_, ?_⟩
        · exact fun hsame => absurd hsame (Nat.ne_of_lt hless)
        · exact fun hmore => absurd hmore (Nat.lt_asymm hless)
        · exact fun hmore => absurd hmore (Nat.lt_asymm hless)
      · rw [if_neg (by omega), if_neg (by omega)] at hrefresh
        rw [unchanged_of_opened hrefresh]
        constructor
        · intro hopened
          refine ⟨fun _ => ?_, fun hmore => absurd hmore (by omega),
            fun hmore => absurd hmore (by omega)⟩
          obtain hserved | ⟨-, hsaved⟩ := hopened
          · exact hserved.movesSaved
          · exact hsaved
        · exact fun hrecoverable => Or.inr ⟨rfl, hrecoverable.level hsame⟩
      · have hne : stored.generation ≠ session.stateGeneration := Nat.ne_of_gt hmore
        rw [if_neg (Nat.lt_asymm hmore), if_pos hmore] at hrefresh
        unfold installSnapshot at hrefresh
        by_cases hcurrent : ∀ entry ∈ stored.snapshot.idempotency, entry.Current manifests
        · rw [if_pos hcurrent] at hrefresh
          by_cases hcoordinated : stored.snapshot.Coordinated
          · rw [if_pos hcoordinated] at hrefresh
            rw [unchanged_of_opened hrefresh]
            constructor
            · rintro (hserved | ⟨hopened, -⟩)
              · exact ⟨fun hsame => absurd hsame hne, fun _ _ _ => hserved,
                  fun _ _ hnot => absurd hcoordinated hnot⟩
              · exact absurd (congrArg Session.stateGeneration hopened) hne
            · exact fun hrecoverable => Or.inl (hrecoverable.behind hmore hcurrent hcoordinated)
          · rw [if_neg hcoordinated] at hrefresh
            rw [unchanged_of_refused hrefresh]
            constructor
            · intro hkept
              exact ⟨fun hsame => absurd hsame hne, fun _ _ hnot => absurd hnot hcoordinated,
                fun _ _ _ => congrArg Session.records hkept⟩
            · intro hrecoverable
              rw [hrecoverable.mangled hmore hcurrent hcoordinated]
        · rw [if_neg hcurrent] at hrefresh
          refine iff_of_true ((unchanged_of_refused hrefresh).mpr rfl) ⟨?_, ?_, ?_⟩
          · exact fun hsame => absurd hsame hne
          · exact fun _ hnot => absurd hnot hcurrent
          · exact fun _ hnot => absurd hnot hcurrent

end Calls

/-! ### A stage that is not recorded

The patch of the demonstration is approved and staged, but another gateway has saved in between. -/

section Demo

/-- The adapter after an answer; an operation that raised changed nothing. -/
def InMemory.answered [Hashing] (a : InMemory) : Asked → InMemory
  | .stagePatch _ _ _ _ (.error _) => a
  | .commit _ _ _ _ (.error _) => a
  | .rollback _ _ _ (.error _) => a
  | q => a.after q

theorem InMemory.answered_reads [Hashing] {a : InMemory} {asked : List Asked}
    (h : ∀ q ∈ asked, q.reads = true) : asked.foldl answered a = a := by
  induction asked with
  | nil => rfl
  | cons q asked ih =>
      have hreads := h q List.mem_cons_self
      have hstill : a.answered q = a := by
        cases q with
        | inspectProject projectId revision answer => rfl
        | previewPatch projectId revision patch answer => rfl
        | runVerification projectId revision staged answer => rfl
        | _ => cases hreads
      rw [List.foldl_cons, hstill]
      exact ih fun r hr => h r (List.mem_cons_of_mem _ hr)

/-- The committed revision and the active stage of each project. -/
def InMemory.committedAndStaged (a : InMemory) : String → Option String × Option StageRecord :=
  fun projectId => (a.revision projectId, a.active projectId)

theorem InMemory.moved_of_active {a a' : InMemory} {projectId : String}
    (h : a'.active projectId ≠ a.active projectId) :
    a'.committedAndStaged ≠ a.committedAndStaged :=
  fun hsame => h (congrArg Prod.snd (congrFun hsame projectId))

/-- The adapter with projects in memory. -/
def InMemory.workshop [Hashing] (hook : VerificationHook) :
    Workshop InMemory (String → Option String × Option StageRecord) where
  answers a := a.answers hook
  after := answered
  projects := committedAndStaged
  atomic := by
    intro a q hq
    cases q with
    | inspectProject projectId revision answer => rfl
    | previewPatch projectId revision patch answer => rfl
    | runVerification projectId revision staged answer => rfl
    | stagePatch projectId revision patch previewDigest answer =>
        cases answer with
        | ok stage => cases hq
        | error failure => rfl
    | commit projectId revision staged evidence answer =>
        cases answer with
        | ok found => cases hq
        | error failure => rfl
    | rollback projectId revision staged answer =>
        cases answer with
        | ok found => cases hq
        | error failure => rfl
    | exportProject projectId revision format answer =>
        have hprojects : (a.changed (a.exportProject projectId revision format)).projects =
            a.projects := by
          cases hexport : a.exportProject projectId revision format with
          | error failure => rfl
          | ok done => exact InMemory.exportProject_projects hexport
        show (a.changed (a.exportProject projectId revision format)).committedAndStaged = _
        funext other
        unfold InMemory.committedAndStaged InMemory.revision InMemory.active
        rw [hprojects]
  moving := by
    intro a reads q hreads hq hanswered
    rw [List.foldl_append, answered_reads hreads]
    cases q with
    | stagePatch projectId revision patch previewDigest answer =>
        cases answer with
        | ok stage =>
            obtain ⟨a', ha'⟩ := map_fst_ok hanswered.symm
            obtain ⟨hnone, hactive, -⟩ := InMemory.stagePatch_ok ha'
            refine @InMemory.moved_of_active _ _ projectId ?_
            show (a.changed (a.stagePatch projectId revision patch previewDigest)).active _ ≠ _
            rw [ha', hnone]
            exact hactive.trans_ne (Option.some_ne_none stage)
        | error failure => cases hq
    | commit projectId revision staged evidence answer =>
        cases answer with
        | ok newRevision =>
            obtain ⟨a', ha'⟩ := map_fst_ok hanswered.symm
            obtain ⟨-, ⟨stage, hactive, -⟩, hnone, -⟩ := InMemory.commit_ok ha'
            refine @InMemory.moved_of_active _ _ projectId ?_
            show (a.changed (a.commit projectId revision staged)).active _ ≠ _
            rw [ha', hactive]
            exact hnone.trans_ne (Option.some_ne_none stage).symm
        | error failure => cases hq
    | rollback projectId revision staged answer =>
        cases answer with
        | ok current =>
            obtain ⟨a', ha'⟩ := map_fst_ok hanswered.symm
            obtain ⟨⟨stage, hactive, -⟩, hnone, -⟩ := InMemory.rollback_ok ha'
            refine @InMemory.moved_of_active _ _ projectId ?_
            show (a.changed (a.rollback projectId revision staged)).active _ ≠ _
            rw [ha', hactive]
            exact hnone.trans_ne (Option.some_ne_none stage).symm
        | error failure => cases hq
    | _ => cases hq

attribute [local instance] plainHashing

/-- The stage, while another gateway saves. -/
def demoRacedStage : SharedCall where
  invocation := ⟨⟨"u4", .user, .releaseManager⟩, "k1"⟩
  request := .stageDesignPatch demoStages
  capturedAt := .ok 0
  actedAt := .ok 0
  journal :=
    { loaded := .ok ⟨3, { unique := by simp }⟩
      current := .ok 4
      written := .ok () }

/-- Once the patch is approved, the stage is done and not recorded. -/
theorem demo_unsaved {manifests : Manifests} {hook : VerificationHook} {h : Hosted}
    (hat : DemoAt h ["u1", "u2", "u3"] demoAdapter
      (demoRun 2 .awaitingStageApproval [demoApprovalId] none) (some demoPreview)
      (some { demoApproval with decision := .approved }) (some demoReceipt)) :
    ¬ Unchanged {} manifests (InMemory.workshop hook) demoAdapter ⟨h.gateway, 3⟩
      demoRacedStage := by
  obtain ⟨payload, effects, hdone⟩ := @demo_stage_done hook h
    (some ⟨.ok (), demoRacedStage.journal.save 3⟩) hat
  rw [hat.adapter] at hdone
  have hnew : h.gateway.idempotency ("u4", .stageDesignPatch, "k1") = none := by
    by_contra hheld
    exact absurd (hat.attended.keys _ hheld) (show "u4" ∉ ["u1", "u2", "u3"] by decide)
  have hload : ∀ store ∈ (demoRacedStage.on (InMemory.workshop hook) demoAdapter
      ⟨h.gateway, 3⟩).turn.store, store.load = .ok () := by
    intro store hstore
    obtain rfl := Option.some.inj hstore
    rfl
  have hcapable : (requiredTier .stageDesignPatch).value ≤
      ProfileName.releaseManager.maximumTier.value := by decide
  have hacts := @Acts.mk _ {} h.gateway (demoRacedStage.on (InMemory.workshop hook) demoAdapter
    ⟨h.gateway, 3⟩) _ effects hload hcapable hnew ⟨0, rfl⟩ hat.attended.evidence_nodup hdone
  have hconflict : demoRacedStage.journal.save 3 ≠ .ok () := by
    simp [Journal.save, demoRacedStage, bind, Except.bind]
  have hunsaved : ¬ MovesSaved {} h.gateway (demoRacedStage.on (InMemory.workshop hook) demoAdapter
      ⟨h.gateway, 3⟩) :=
    fun hsaved => hconflict (hsaved rfl _ _ hacts _ rfl).2
  intro hunchanged
  obtain hserved | ⟨-, hsaved⟩ := (@unchanged_of_opened _ _ _ _ _ _ _ _ _ ⟨h.gateway, 3⟩ rfl).mp
    hunchanged
  · exact hunsaved hserved.movesSaved
  · exact hunsaved hsaved

/-- The call raises, and the adapter holds a stage that no record tells of. -/
theorem conflict_leaves_stage :
    ¬ Unchanged {} ⟨fun _ => "m"⟩ (InMemory.workshop fun _ _ _ _ => .ok []) demoAdapter
      ⟨(hostedAfter {} ⟨fun _ => "m"⟩ (fun _ _ _ _ => .ok []) demoAdapter
        (demoCalls none)).gateway, 3⟩ demoRacedStage := by
  obtain ⟨-, hat⟩ := @demo_calls ⟨fun _ => "m"⟩ (fun _ _ _ _ => .ok []) none (by simp)
  exact demo_unsaved hat

end Demo

end Evleda.Gateway
