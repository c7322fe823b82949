/-
What sticks to an authority.

Three facts about an authority never go away: an identifier that was registered
or revoked is not accepted again, an approval that was revoked is not there
again, and a clock that went back is not trusted again.  `Later` says that one
state has all that the other had; every call leads to a later state, and what a
call needs in order to succeed is just what such a fact denies.

The kernels that share the authority change it by its calls only, so the facts
hold along their histories too, and no head moves under a revoked approval.
-/
import Evleda.Kernel.AuthorizedCommits

namespace Evleda.Kernel

open Outcome

section Revocation

variable [UnicodeData] [Hashing] [KeyedHashing]

/-! ### The calls of an authority -/

inductive AuthorityCall where
  | register (clock : Instant) (approval : ReleaseApproval)
  | revoke (clock : Instant) (approvalId : String)
  | issue (clock : Instant) (request : AuthorityState.IssueRequest)
  | verify (clock : Instant) (authorization : CommitAuthorization)
  | consume (clock : Instant) (verified : VerifiedCommitClaims)

variable {approvalId : String}

namespace AuthorityCall

/-- Drop what a call returned. -/
def done {α : Type} : AuthorityState × Except Failure α → AuthorityState × Except Failure Unit
  | (s, .ok _) => (s, .ok ())
  | (s, .error failure) => (s, .error failure)

section

omit [Hashing] [KeyedHashing]

theorem done_fst {α : Type} (x : AuthorityState × Except Failure α) : (done x).1 = x.1 := by
  obtain ⟨s, outcome⟩ := x
  cases outcome <;> rfl

theorem done_ok {α : Type} {x : AuthorityState × Except Failure α} {a : α} (h : x.2 = .ok a) :
    (done x).2 = .ok () := by
  obtain ⟨s, outcome⟩ := x
  dsimp only at h
  subst h
  rfl

end

def perform (s : AuthorityState) : AuthorityCall → AuthorityState × Except Failure Unit
  | register clock approval => done (s.registerReleaseApproval clock approval)
  | revoke clock approvalId => done (s.revokeReleaseApproval clock approvalId)
  | issue clock request => done (s.issue clock request)
  | verify clock authorization => done (s.verify clock authorization)
  | consume clock verified => done (s.consume clock verified)

def step (s : AuthorityState) (call : AuthorityCall) : AuthorityState := (perform s call).1

def Succeeds (s : AuthorityState) (call : AuthorityCall) : Prop := (perform s call).2 = .ok ()

/-- The call registers the approval, issues under it, or is about an authorization issued under
it. -/
def Names (approvalId : String) : AuthorityCall → Prop
  | register _ approval => approval.val.approvalId = approvalId
  | revoke _ _ => False
  | issue _ request => request.approvalId = approvalId
  | verify _ authorization => authorization.val.humanApprovalId = approvalId
  | consume _ verified => verified.claims.val.humanApprovalId = approvalId

/-- The clock that a call looks at; a call whose arguments are refused does not get to look. -/
def looksAt : AuthorityCall → Option Instant
  | register clock _ => some clock
  | revoke clock approvalId =>
      if requireCanonicalId approvalId "release approval ID" = .ok () then some clock else none
  | issue clock request =>
      if 0 < request.lifetime ∧ request.lifetime ≤ 30000000 then some clock else none
  | verify clock authorization =>
      match snapshotAuthorization authorization with
      | .ok _ => some clock
      | .error _ => none
  | consume clock _ => some clock

/-- The clock value a call observes; an authority that distrusts its clock does not look again. -/
def observes (s : AuthorityState) (call : AuthorityCall) : Option Instant :=
  if s.clockPoisoned then none else call.looksAt

variable {s : AuthorityState} {call : AuthorityCall}

omit [KeyedHashing] in
theorem observes_none (h : call.looksAt = none) :
    observes s call = none := by
  unfold observes
  rw [h, ite_self]

/-- What a call that succeeded did, after it saw the clock at a time. -/
inductive Effect (s : AuthorityState) (now : Instant) : AuthorityCall → AuthorityState → Prop where
  | registered {approval : ReleaseApproval} (hnew : approval.val.approvalId ∉ s.approvalIdsSeen) :
      Effect s now (register now approval) { s with
        lastObservedAt := some now
        approvalIdsSeen := insert approval.val.approvalId s.approvalIdsSeen
        approvals := s.approvals.set approval.val.approvalId approval }
  | revoked {approvalId : String} : Effect s now (revoke now approvalId) { s with
      lastObservedAt := some now
      approvalIdsSeen := insert approvalId s.approvalIdsSeen
      approvals := s.approvals.erase approvalId }
  | issued {request : AuthorityState.IssueRequest} {digest : String} {approval : ReleaseApproval}
      (hheld : s.approvals request.approvalId = some approval) :
      Effect s now (issue now request) { s with
        lastObservedAt := some now
        issued := s.issued.set digest approval }
  | verified {authorization : CommitAuthorization} {approval : ReleaseApproval}
      (hheld : s.approvals authorization.val.humanApprovalId = some approval) :
      Effect s now (verify now authorization) { s with lastObservedAt := some now }
  | consumed {v : VerifiedCommitClaims} {nonce digest : String} {approval : ReleaseApproval}
      (hheld : s.approvals v.claims.val.humanApprovalId = some approval) :
      Effect s now (consume now v) { s with
        lastObservedAt := some now
        consumed := s.consumed.set nonce digest }

/-- What a call can do: nothing, distrust the clock, or look at the clock and raise or succeed. -/
inductive Course (s : AuthorityState) (call : AuthorityCall) :
    AuthorityState × Except Failure Unit → Prop where
  | refused {failure : Failure} (hnone : observes s call = none) : Course s call (s, .error failure)
  | distrusted {failure : Failure} {now previous : Instant} (hnow : observes s call = some now)
      (hprevious : s.lastObservedAt = some previous) (hback : now < previous) :
      Course s call ({ s with clockPoisoned := true }, .error failure)
  | raised {failure : Failure} {now : Instant} (hnow : observes s call = some now)
      (hforward : ∀ previous ∈ s.lastObservedAt, previous ≤ now) :
      Course s call ({ s with lastObservedAt := some now }, .error failure)
  | succeeded {now : Instant} {s' : AuthorityState} (hnow : observes s call = some now)
      (hforward : ∀ previous ∈ s.lastObservedAt, previous ≤ now) (heffect : Effect s now call s') :
      Course s call (s', .ok ())

omit [KeyedHashing] in
theorem course_of_observing {α : Type} {clock : Instant}
    {body : AuthorityState → Except Failure (AuthorityState × α)}
    (hlooks : call.looksAt = some clock)
    (heffect : ∀ s' a, body { s with lastObservedAt := some clock } = .ok (s', a) →
      Effect s clock call s') : Course s call (done (s.observing clock body)) := by
  unfold AuthorityState.observing
  split
  · rename_i hpoisoned
    refine .refused ?_
    unfold observes
    rw [if_pos hpoisoned]
  rename_i hpoisoned
  have hnow : observes s call = some clock := by
    unfold observes
    rw [if_neg hpoisoned, hlooks]
  split
  · rename_i hback
    obtain ⟨previous, hprevious, hlt⟩ := hback
    exact .distrusted hnow hprevious hlt
  · rename_i hforward
    have hforward' : ∀ previous ∈ s.lastObservedAt, previous ≤ clock := by
      intro previous hprevious
      by_contra hlt
      exact hforward ⟨previous, hprevious, not_le.mp hlt⟩
    dsimp only
    cases hbody : body { s with lastObservedAt := some clock } with
    | error failure => exact .raised hnow hforward'
    | ok result =>
        obtain ⟨s', a⟩ := result
        exact .succeeded hnow hforward' (heffect s' a hbody)

theorem course_register (s : AuthorityState) (clock : Instant) (approval : ReleaseApproval) :
    Course s (register clock approval) (perform s (register clock approval)) := by
  refine course_of_observing rfl ?_
  · intro s' a hbody
    simp only [bind_ok, exists_unit, require_ok, pure_ok,
      Prod.mk.injEq] at hbody
    obtain ⟨hnew, -, -, -, rfl, -⟩ := hbody
    exact .registered hnew

theorem course_revoke (s : AuthorityState) (clock : Instant) (approvalId : String) :
    Course s (revoke clock approvalId) (perform s (revoke clock approvalId)) := by
  show Course s _ (done (s.revokeReleaseApproval clock approvalId))
  unfold AuthorityState.revokeReleaseApproval
  cases hid : requireCanonicalId approvalId "release approval ID" with
  | error failure =>
      refine .refused (observes_none (if_neg ?_))
      rw [hid]
      exact fun h => by cases h
  | ok _ =>
      refine course_of_observing (if_pos hid) ?_
      · intro s' a hbody
        obtain ⟨rfl, -⟩ := Prod.mk.inj (Except.ok.inj hbody)
        exact .revoked

theorem course_issue (s : AuthorityState) (clock : Instant)
    (request : AuthorityState.IssueRequest) :
    Course s (issue clock request) (perform s (issue clock request)) := by
  show Course s _ (done (s.issue clock request))
  unfold AuthorityState.issue
  split
  · rename_i hshort
    exact .refused (observes_none (if_neg fun h => not_lt_of_ge hshort h.1))
  split
  · rename_i hlong
    exact .refused (observes_none (if_neg fun h => not_le_of_gt hlong h.2))
  rename_i hshort hlong
  refine course_of_observing (if_pos ⟨not_le.mp hshort, not_lt.mp hlong⟩) ?_
  · intro s' a hbody
    rw [bind_ok, exists_unit] at hbody
    replace hbody := hbody.2
    split at hbody
    · cases hbody
    · rename_i approval happroval
      unfold AuthorityState.issueUnder at hbody
      simp only [bind_ok, exists_unit, require_ok, pure_ok,
        Prod.mk.injEq] at hbody
      obtain ⟨-, -, -, _, -, -, _, -, -, rfl, -⟩ := hbody
      exact .issued happroval

omit [KeyedHashing] in
theorem held_of_verifies {claims : CommitAuthorizationClaims}
    {now : Instant} {verified : VerifiedCommitClaims}
    (h : AuthorityState.Verifies s claims now verified) :
    s.approvals claims.val.humanApprovalId = some verified.releaseApproval := by
  rw [h.approval.approvalId]
  exact h.registered

theorem course_verify (s : AuthorityState) (clock : Instant) (authorization : CommitAuthorization) :
    Course s (verify clock authorization) (perform s (verify clock authorization)) := by
  show Course s _ (done (s.verify clock authorization))
  unfold AuthorityState.verify
  cases hread : snapshotAuthorization authorization with
  | error failure =>
      refine .refused (observes_none ?_)
      simp only [looksAt, hread]
  | ok claims =>
      refine course_of_observing ?_ ?_
      · simp only [looksAt, hread]
      · intro s' a hbody
        simp only [bind_ok, pure_ok, Prod.mk.injEq] at hbody
        obtain ⟨verified, hverified, rfl, -⟩ := hbody
        have hheld := held_of_verifies (AuthorityState.verifyLocked_ok hverified)
        rw [AuthorityState.snapshotAuthorization_ok hread] at hheld
        exact .verified hheld

theorem course_consume (s : AuthorityState) (clock : Instant) (verified : VerifiedCommitClaims) :
    Course s (consume clock verified) (perform s (consume clock verified)) := by
  refine course_of_observing rfl ?_
  · intro s' a hbody
    simp only [bind_ok, exists_unit, require_ok, pure_ok,
      Prod.mk.injEq] at hbody
    obtain ⟨current, hcurrent, -, rfl, -⟩ := hbody
    exact .consumed (held_of_verifies (AuthorityState.verifyLocked_ok hcurrent))

theorem course (s : AuthorityState) (call : AuthorityCall) : Course s call (perform s call) := by
  cases call with
  | register clock approval => exact course_register s clock approval
  | revoke clock approvalId => exact course_revoke s clock approvalId
  | issue clock request => exact course_issue s clock request
  | verify clock authorization => exact course_verify s clock authorization
  | consume clock verified => exact course_consume s clock verified

/-! ### What stays -/

/-- The approval was revoked, or never registered and cannot be. -/
def Gone (s : AuthorityState) (approvalId : String) : Prop :=
  approvalId ∈ s.approvalIdsSeen ∧ s.approvals approvalId = none

/-- The second state has all that sticks to the first. -/
structure Later (s s' : AuthorityState) : Prop where
  seen : s.approvalIdsSeen ⊆ s'.approvalIdsSeen
  gone : ∀ approvalId, Gone s approvalId → s'.approvals approvalId = none
  poisoned : s.clockPoisoned = true → s'.clockPoisoned = true
  observed : ∀ previous ∈ s.lastObservedAt, ∃ now ∈ s'.lastObservedAt, previous ≤ now

section

omit [Hashing] [KeyedHashing]

theorem Later.refl (s : AuthorityState) : Later s s :=
  ⟨Finset.Subset.refl _, fun _ h => h.2, fun h => h, fun previous h => ⟨previous, h, le_rfl⟩⟩

theorem Later.trans {s s' s'' : AuthorityState} (h : Later s s') (h' : Later s' s'') :
    Later s s'' := by
  refine ⟨h.seen.trans h'.seen, ?_, fun hp => h'.poisoned (h.poisoned hp), ?_⟩
  · intro approvalId hgone
    exact h'.gone approvalId ⟨h.seen hgone.1, h.gone approvalId hgone⟩
  · intro previous hprevious
    obtain ⟨now, hnow, hle⟩ := h.observed previous hprevious
    obtain ⟨next, hnext, hle'⟩ := h'.observed now hnow
    exact ⟨next, hnext, hle.trans hle'⟩

theorem Later.stays_gone {s s' : AuthorityState} (h : Later s s')
    (hgone : Gone s approvalId) : Gone s' approvalId :=
  ⟨h.seen hgone.1, h.gone approvalId hgone⟩

end

theorem step_later (s : AuthorityState) (call : AuthorityCall) : Later s (step s call) := by
  unfold step
  have hcourse := course s call
  generalize perform s call = result at hcourse ⊢
  cases hcourse with
  | refused hnone => exact Later.refl s
  | distrusted hnow hprevious hback =>
      exact ⟨Finset.Subset.refl _, fun _ h => h.2, fun _ => rfl, fun previous h =>
        ⟨previous, h, le_rfl⟩⟩
  | @raised _ now hnow hforward =>
      exact ⟨Finset.Subset.refl _, fun _ h => h.2, fun h => h, fun previous h =>
        ⟨now, rfl, hforward previous h⟩⟩
  | @succeeded now _ hnow hforward heffect =>
      have hobserved : ∀ previous ∈ s.lastObservedAt, ∃ now' ∈ some now, previous ≤ now' :=
        fun previous h => ⟨now, rfl, hforward previous h⟩
      cases heffect with
      | @registered approval hnew =>
          refine ⟨Finset.subset_insert _ _, ?_, fun h => h, hobserved⟩
          intro approvalId hgone
          have hne : approvalId ≠ approval.val.approvalId := by
            rintro rfl
            exact hnew hgone.1
          exact (Dict.set_of_ne _ _ hne).trans hgone.2
      | @revoked approvalId =>
          refine ⟨Finset.subset_insert _ _, ?_, fun h => h, hobserved⟩
          intro other hgone
          by_contra hheld
          obtain ⟨approval, happroval⟩ := Option.ne_none_iff_exists'.mp hheld
          have hold := (Dict.erase_eq_some happroval).2
          rw [hgone.2] at hold
          cases hold
      | issued hheld => exact ⟨Finset.Subset.refl _, fun _ h => h.2, fun h => h, hobserved⟩
      | verified hheld => exact ⟨Finset.Subset.refl _, fun _ h => h.2, fun h => h, hobserved⟩
      | consumed hheld => exact ⟨Finset.Subset.refl _, fun _ h => h.2, fun h => h, hobserved⟩

theorem replay_later (s : AuthorityState) (calls : List AuthorityCall) :
    Later s (replay step s calls) := by
  induction calls using List.reverseRecOn with
  | nil => exact Later.refl s
  | append_singleton calls call ih =>
      rw [Replay.snoc]
      exact ih.trans (step_later _ call)

theorem not_succeeds_of_poisoned (h : s.clockPoisoned = true)
    (call : AuthorityCall) : ¬ Succeeds s call := by
  intro hsucceeds
  have hcourse := course s call
  unfold Succeeds at hsucceeds
  generalize perform s call = result at hcourse hsucceeds
  cases hcourse with
  | succeeded hnow hforward heffect =>
      unfold observes at hnow
      rw [if_pos h] at hnow
      cases hnow
  | refused _ => cases hsucceeds
  | distrusted _ _ _ => cases hsucceeds
  | raised _ _ => cases hsucceeds

theorem effect_of_succeeds (h : Succeeds s call) :
    ∃ now, Effect s now call (step s call) := by
  have hcourse := course s call
  unfold Succeeds at h
  unfold step
  generalize perform s call = result at hcourse h ⊢
  cases hcourse with
  | succeeded hnow hforward heffect => exact ⟨_, heffect⟩
  | refused _ => cases h
  | distrusted _ _ _ => cases h
  | raised _ _ => cases h

theorem not_succeeds_of_gone (h : Gone s approvalId)
    (hnames : call.Names approvalId) : ¬ Succeeds s call := by
  intro hsucceeds
  obtain ⟨now, heffect⟩ := effect_of_succeeds hsucceeds
  generalize step s call = s' at heffect
  cases heffect with
  | registered hnew =>
      subst hnames
      exact hnew h.1
  | revoked => exact hnames
  | issued hheld =>
      subst hnames
      rw [h.2] at hheld
      cases hheld
  | verified hheld =>
      subst hnames
      rw [h.2] at hheld
      cases hheld
  | consumed hheld =>
      subst hnames
      rw [h.2] at hheld
      cases hheld

/-- A revocation takes the approval away, registered or not. -/
theorem gone_of_revoke {clock : Instant}
    (h : Succeeds s (revoke clock approvalId)) : Gone (step s (revoke clock approvalId)) approvalId := by
  obtain ⟨now, heffect⟩ := effect_of_succeeds h
  generalize step s (revoke clock approvalId) = s' at heffect ⊢
  cases heffect with
  | revoked => exact ⟨Finset.mem_insert_self _ _, Function.update_self ..⟩

/-- A registration uses the identifier up. -/
theorem seen_of_register {clock : Instant} {approval : ReleaseApproval}
    (h : Succeeds s (register clock approval)) :
    approval.val.approvalId ∈ (step s (register clock approval)).approvalIdsSeen := by
  obtain ⟨now, heffect⟩ := effect_of_succeeds h
  generalize step s (register clock approval) = s' at heffect ⊢
  cases heffect with
  | registered hnew => exact Finset.mem_insert_self _ _

theorem unseen_of_register {clock : Instant} {approval : ReleaseApproval}
    (h : Succeeds s (register clock approval)) : approval.val.approvalId ∉ s.approvalIdsSeen := by
  obtain ⟨now, heffect⟩ := effect_of_succeeds h
  generalize step s (register clock approval) = s' at heffect
  cases heffect with
  | registered hnew => exact hnew

theorem remembered_of_observes {now : Instant}
    (h : observes s call = some now) : (step s call).clockPoisoned = true ∨
      ((step s call).lastObservedAt = some now ∧ ∀ previous ∈ s.lastObservedAt, previous ≤ now) := by
  unfold step
  have hcourse := course s call
  generalize perform s call = result at hcourse ⊢
  cases hcourse with
  | refused hnone =>
      rw [h] at hnone
      cases hnone
  | distrusted hnow hprevious hback => exact Or.inl rfl
  | raised hnow hforward =>
      obtain rfl := Option.some.inj (h.symm.trans hnow)
      exact Or.inr ⟨rfl, hforward⟩
  | succeeded hnow hforward heffect =>
      obtain rfl := Option.some.inj (h.symm.trans hnow)
      refine Or.inr ⟨?_, hforward⟩
      cases heffect with
      | registered _ => rfl
      | revoked => rfl
      | issued _ => rfl
      | verified _ => rfl
      | consumed _ => rfl

theorem poisoned_of_back {first second : AuthorityCall}
    {between : List AuthorityCall} {earlier now : Instant} (hearlier : observes s first = some earlier)
    (hnow : observes (replay step (step s first) between) second = some now)
    (hback : now < earlier) :
    (step (replay step (step s first) between) second).clockPoisoned = true := by
  have hlater := replay_later (step s first) between
  have htrusted : (replay step (step s first) between).clockPoisoned ≠ true := by
    intro hpoisoned
    unfold observes at hnow
    rw [if_pos hpoisoned] at hnow
    cases hnow
  obtain hpoisoned | ⟨hremembered, -⟩ := remembered_of_observes hearlier
  · exact absurd (hlater.poisoned hpoisoned) htrusted
  obtain ⟨latest, hlatest, hle⟩ := hlater.observed earlier hremembered
  obtain hpoisoned | ⟨-, hforward⟩ := remembered_of_observes hnow
  · exact hpoisoned
  · exact absurd (hle.trans (hforward latest hlatest)) (not_le_of_gt hback)

end AuthorityCall

/-! ### Kernels that share the authority -/

variable {κ : Type} [DecidableEq κ]

theorem step_authorityCall (s : System κ) (e : Event κ) : (s.step e).authority = s.authority ∨
    ∃ call, (s.step e).authority = AuthorityCall.step s.authority call := by
  cases e with
  | register clock approval => exact Or.inr ⟨.register clock approval, (AuthorityCall.done_fst _).symm⟩
  | revoke clock approvalId => exact Or.inr ⟨.revoke clock approvalId, (AuthorityCall.done_fst _).symm⟩
  | issue clock request => exact Or.inr ⟨.issue clock request, (AuthorityCall.done_fst _).symm⟩
  | verify clock authorization => exact Or.inr ⟨.verify clock authorization, (AuthorityCall.done_fst _).symm⟩
  | operate kernel operation =>
      refine Or.inl ?_
      simp only [System.step]
      split <;> rfl
  | commitBegin kernel transactionId authorization clock =>
      simp only [System.step]
      split
      · exact Or.inl rfl
      · exact Or.inr ⟨.verify clock authorization, (AuthorityCall.done_fst _).symm⟩
  | commitEnd kernel clock =>
      simp only [System.step]
      split
      · exact Or.inl rfl
      · rename_i p hp
        split
        · exact Or.inr ⟨.consume clock p.verified, (AuthorityCall.done_fst _).symm⟩
        · exact Or.inl rfl

theorem system_later (s : System κ) (events : List (Event κ)) :
    AuthorityCall.Later s.authority (replay System.step s events).authority := by
  induction events using List.reverseRecOn with
  | nil => exact AuthorityCall.Later.refl _
  | append_singleton events e ih =>
      rw [Replay.snoc]
      obtain hsame | ⟨call, hcall⟩ := step_authorityCall (replay System.step s events) e
      · rw [hsame]
        exact ih
      · rw [hcall]
        exact ih.trans (AuthorityCall.step_later _ call)

theorem advance_not_gone {s : System κ} {e : Event κ} {kernel : κ}
    (hgone : AuthorityCall.Gone s.authority approvalId)
    (hmoved : ((s.step e).kernels kernel).head ≠ (s.kernels kernel).head) :
    ∃ a, advance? s e = some a ∧ a.consumed.claims.val.humanApprovalId ≠ approvalId ∧
      a.consumed.releaseApproval.val.approvalId ≠ approvalId := by
  cases hadvance : advance? s e with
  | none => exact absurd (step_kernels hadvance kernel).1.head hmoved
  | some a =>
      obtain ⟨p, clock, t', hpublishes⟩ := publishes_of_advance hadvance
      obtain ⟨current, hclaims, hverifies, happroval, -, -⟩ := hpublishes.consumes
      have hheld := AuthorityCall.held_of_verifies hverifies
      have hregistered := hverifies.registered
      refine ⟨a, rfl, ?_, ?_⟩
      · rintro rfl
        rw [← hclaims, hgone.2] at hheld
        cases hheld
      · rintro rfl
        rw [happroval, hgone.2] at hregistered
        cases hregistered

/-- **What an authority has once revoked, registered or observed sticks.**  No call that names a
revoked approval succeeds, a registered identifier is not registered again, nothing succeeds after a
clock value smaller than an earlier one, and no head of a kernel that shares the authority moves
under a revoked approval. -/
theorem revocation_sticks (s₀ : AuthorityState) (calls : List AuthorityCall) (system : System κ)
    (events : List (Event κ)) :
    (∀ before clock approvalId after, calls = before ++ .revoke clock approvalId :: after →
      AuthorityCall.Succeeds (replay AuthorityCall.step s₀ before) (.revoke clock approvalId) →
      ∀ call : AuthorityCall, call.Names approvalId →
        ¬ AuthorityCall.Succeeds (replay AuthorityCall.step s₀ calls) call) ∧
    (∀ before clock approval after, calls = before ++ .register clock approval :: after →
      AuthorityCall.Succeeds (replay AuthorityCall.step s₀ before) (.register clock approval) →
      ∀ clock' approval', approval'.val.approvalId = approval.val.approvalId →
        ¬ AuthorityCall.Succeeds (replay AuthorityCall.step s₀ calls)
          (.register clock' approval')) ∧
    (∀ before first between second after earlier now,
      calls = before ++ first :: (between ++ second :: after) →
      AuthorityCall.observes (replay AuthorityCall.step s₀ before) first = some earlier →
      AuthorityCall.observes (replay AuthorityCall.step s₀ (before ++ first :: between)) second =
        some now → now < earlier →
      ∀ call, ¬ AuthorityCall.Succeeds (replay AuthorityCall.step s₀ calls) call) ∧
    ∀ before clock approvalId after, events = before ++ .revoke clock approvalId :: after →
      ((replay System.step system before).authority.revokeReleaseApproval clock approvalId).2 =
        .ok () →
      ∀ e kernel, (((replay System.step system events).step e).kernels kernel).head ≠
          ((replay System.step system events).kernels kernel).head →
        ∃ a, advance? (replay System.step system events) e = some a ∧
          a.consumed.claims.val.humanApprovalId ≠ approvalId ∧
          a.consumed.releaseApproval.val.approvalId ≠ approvalId := by
  refine ⟨?_, ?_, ?_, ?_⟩
  · rintro before clock approvalId after rfl hrevoked call hnames
    rw [Replay.append, Replay.cons rfl]
    have hlater := AuthorityCall.replay_later
      (AuthorityCall.step (replay AuthorityCall.step s₀ before) (.revoke clock approvalId)) after
    exact AuthorityCall.not_succeeds_of_gone
      (hlater.stays_gone (AuthorityCall.gone_of_revoke hrevoked)) hnames
  · rintro before clock approval after rfl hregistered clock' approval' hid hagain
    rw [Replay.append, Replay.cons rfl] at hagain
    have hlater := AuthorityCall.replay_later
      (AuthorityCall.step (replay AuthorityCall.step s₀ before) (.register clock approval)) after
    have hseen := hlater.seen (AuthorityCall.seen_of_register hregistered)
    rw [← hid] at hseen
    exact AuthorityCall.unseen_of_register hagain hseen
  · rintro before first between second after earlier now rfl hearlier hnow hback call
    rw [Replay.append, Replay.cons rfl, Replay.append, Replay.cons rfl]
    rw [Replay.append, Replay.cons rfl] at hnow
    have hpoisoned := AuthorityCall.poisoned_of_back hearlier hnow hback
    exact AuthorityCall.not_succeeds_of_poisoned
      ((AuthorityCall.replay_later _ after).poisoned hpoisoned) call
  · rintro before clock approvalId after rfl hrevoked e kernel hmoved
    rw [Replay.append, Replay.cons rfl] at hmoved ⊢
    generalize replay System.step system before = s at hrevoked hmoved ⊢
    have hgone : AuthorityCall.Gone (s.step (.revoke clock approvalId)).authority approvalId := by
      have hstep : (s.step (.revoke clock approvalId)).authority =
          AuthorityCall.step s.authority (.revoke clock approvalId) :=
        (AuthorityCall.done_fst _).symm
      rw [hstep]
      exact AuthorityCall.gone_of_revoke (AuthorityCall.done_ok hrevoked)
    exact advance_not_gone ((system_later _ after).stays_gone hgone) hmoved

end Revocation

end Evleda.Kernel
