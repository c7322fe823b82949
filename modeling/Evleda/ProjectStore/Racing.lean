/-
False alarms under concurrency, and exactly where they come from.

A restore whose second attempt, too, finds the anchor past its snapshot raises that
the project is broken; an append that comes to move the anchor after somebody else
has moved it past its own revision raises after its transaction was committed.
Nobody has stopped, and nothing was tampered with: it takes two appends in the time
of one restore.  Where the anchor is not found past what the call has seen, no
schedule raises a false alarm.
-/
import Evleda.ProjectStore.Changes
import Evleda.ProjectStore.Interleaved

namespace Evleda.ProjectStore

open Kernel Effect Outcome Function

/-! ### No false alarms -/

section Racing

variable {ι : Type} [DecidableEq ι] [UnicodeData] [Hashing]

/-- **Where the anchor is not found past what a call has seen, there are no false alarms**: no
restore raises that the project is broken, and an append raises only if its transaction was not
committed. -/
theorem unpassed_no_false_alarm (keyring : Keyring) (operations : List StoreOperation)
    (calls : ι → StoreCall) (turns : List (Turn ι))
    (hunpassed : Replay.Throughout (Parties.after giveUp) (Parties.Meets Unpassed)
      (begun keyring (afterCalls keyring operations) calls) turns)
    (i : ι) (e : StoreFailure)
    (hraised : (interleaved keyring (afterCalls keyring operations) calls turns).programs i =
      some (.done (.error e))) :
    (∀ projectId, calls i = .restore projectId → e.errorClass ≠ .integrityError) ∧
    ∀ projectId revision expectedHead evidence generation,
      calls i = .append projectId revision expectedHead evidence generation →
      i ∉ (sharedAfter keyring operations calls turns).commits := by
  have hsafely := (begun_safely (afterCalls_sound keyring operations).followed calls).replay
    (agreed keyring) hunpassed
  have hpromised := hsafely.result (agreed keyring) hraised
  constructor
  · intro projectId hcall hbroken
    rw [hcall] at hpromised
    obtain ⟨n, t, hunpassed, hpast⟩ := hpromised e rfl hbroken
    exact hunpassed hpast
  · intro projectId revision expectedHead evidence generation hcall hcommitted
    rw [hcall] at hpromised
    obtain ⟨t, hunpassed, hpast⟩ := hpromised e rfl hcommitted
    exact hunpassed hpast

end Racing

/-! ### Two appends in the time of a restore -/

section FalseAlarm

variable {ι : Type} [UnicodeData] [Hashing] {keyring : Keyring} {projectId : String}
  {revisions : List Revision} {head : Revision} {anchor : Option Anchor}

/-- An append in the time of an attempt to restore: the attempt reads the database before it, and
looks at the anchor after it. -/
theorem attempt_overtaken [DecidableEq ι]
    {c : Parties ι Place (Shared ι) StoreFailure (Option ProjectState)} {i j : ι} (hij : i ≠ j)
    {meets : ι → Place → Shared ι → Prop} {again : Bool}
    (hmeets : ∀ k place m, Unpassed k place m → meets k place m)
    (hahead : ∀ m, meets i (.anchor again projectId head.val.sequence) m)
    {handler : StoreFailure → StoreSteps ι ProjectState}
    {f : ProjectState → StoreSteps ι (Option ProjectState)} {r : Revision} {expectedHead : String}
    {evidence : CommitEvidence} {s' : StoreState}
    (hrestore : c.programs i =
      some ((snapshotSteps keyring again projectId).handling handler >>= f))
    (hprogram : c.programs j =
      some (callSteps keyring j (.append projectId r expectedHead evidence none)))
    (hfree : c.shared.writer = none)
    (h : Intact keyring projectId (c.shared.store.database.of projectId)
      (c.shared.store.anchors projectId) revisions head)
    (happend : (appendRevision keyring projectId r expectedHead evidence none).run c.shared.store =
      (.ok (), s')) :
    ∃ turns : List (Turn ι), (∀ turn ∈ turns, ∃ k, turn = .step k) ∧
      Replay.Throughout (Parties.after giveUp) (Parties.Meets meets) c turns ∧
      ∃ c', Evleda.replay (Parties.after giveUp) c turns = c' ∧
        c'.programs i = some (handler anchorAhead >>= f) ∧
        (∀ k, k ≠ i → k ≠ j → c'.programs k = c.programs k) ∧
        c'.shared.store = s' ∧ c'.shared.writer = none := by
  obtain ⟨h', -⟩ := appendRevision_returns h happend
  -- the attempt reads the database
  have hread : (snapshotSteps keyring again projectId).Comes (meets i) c.shared
      (loadedSteps keyring again projectId c.shared.store.database) c.shared :=
    .atomic_bind (hmeets i .snapshot _ trivial) rfl .here
  obtain ⟨n₁, hturns₁, hmeets₁⟩ := Parties.turns_of_comes giveUp meets hrestore
    ((hread.handling handler).bind f)
  -- the append is appended
  let c₁ : Parties ι Place (Shared ι) StoreFailure (Option ProjectState) :=
    ⟨c.shared, update c.programs i (some ((loadedSteps keyring again projectId
      c.shared.store.database).handling handler >>= f))⟩
  have hprogram₁ : c₁.programs j =
      some (callSteps keyring j (.append projectId r expectedHead evidence none)) := by
    rw [← hprogram]
    exact update_of_ne hij.symm _ _
  obtain ⟨m, happended, hstore, hwriter⟩ :=
    @append_returned ι _ _ _ _ _ _ _ _ _ _ j c₁.shared s' _ hfree h happend
  obtain ⟨n₂, hturns₂, hmeets₂⟩ := Parties.turns_of_comes giveUp meets hprogram₁
    (happended.mono (hmeets j))
  -- the attempt looks at the anchor
  let c₂ : Parties ι Place (Shared ι) StoreFailure (Option ProjectState) :=
    ⟨m, update c₁.programs j (some (.done (.ok none)))⟩
  have hprogram₂ : c₂.programs i = some ((loadedSteps keyring again projectId
      c.shared.store.database).handling handler >>= f) := by
    have hother : c₂.programs i = c₁.programs i := update_of_ne hij _ _
    rw [hother]
    exact update_self i _ _
  have hraised := loadedSteps_ahead h again (hahead c₂.shared) (h.past h' hstore)
  obtain ⟨n₃, hturns₃, hmeets₃⟩ := Parties.turns_of_comes giveUp meets hprogram₂
    ((hraised.handling handler).bind f)
  refine ⟨List.replicate n₁ (.step i) ++ List.replicate n₂ (.step j) ++
    List.replicate n₃ (.step i), ?_, ?_,
    ⟨m, update c₂.programs i (some (handler anchorAhead >>= f))⟩, ?_, ?_, ?_, hstore,
    hwriter⟩
  · intro turn hturn
    simp only [List.mem_append, List.mem_replicate] at hturn
    rcases hturn with (⟨-, rfl⟩ | ⟨-, rfl⟩) | ⟨-, rfl⟩
    · exact ⟨i, rfl⟩
    · exact ⟨j, rfl⟩
    · exact ⟨i, rfl⟩
  · rw [Replay.throughout_append, Replay.throughout_append, Replay.append, hturns₁, hturns₂]
    exact ⟨⟨hmeets₁, hmeets₂⟩, hmeets₃⟩
  · rw [Replay.append, Replay.append, hturns₁, hturns₂]
    exact hturns₃
  · exact update_self i _ _
  · intro k hki hkj
    dsimp only [c₂, c₁]
    rw [update_of_ne hki, update_of_ne hkj, update_of_ne hki]

def overtaking (projectId : String) (first second : Revision) (firstHead secondHead : String)
    (firstEvidence secondEvidence : CommitEvidence) : Fin 3 → StoreCall
  | 0 => .restore projectId
  | 1 => .append projectId first firstHead firstEvidence none
  | 2 => .append projectId second secondHead secondEvidence none

/-- Two appends in the time of a restore make it raise that the project is broken: each of its
attempts reads the database before an append, and looks at the anchor after it. -/
theorem restore_overtaken {s s₁ s₂ : StoreState} {first second : Revision}
    {firstHead secondHead : String} {firstEvidence secondEvidence : CommitEvidence}
    (h : Intact keyring projectId (s.database.of projectId) (s.anchors projectId) revisions head)
    (hfirst : (appendRevision keyring projectId first firstHead firstEvidence none).run s =
      (.ok (), s₁))
    (hsecond : (appendRevision keyring projectId second secondHead secondEvidence none).run s₁ =
      (.ok (), s₂)) :
    ∃ turns : List (Turn (Fin 3)), (∀ turn ∈ turns, ∃ i, turn = .step i) ∧
      (interleaved keyring s (overtaking projectId first second firstHead secondHead firstEvidence
        secondEvidence) turns).programs 0 = some (.done (.error
          (integrity "external project head anchor is persistently ahead of the database"))) := by
  obtain ⟨h₁, -⟩ := appendRevision_returns h hfirst
  -- the first attempt
  obtain ⟨turns₁, hsteps₁, -, c₁, hc₁, hrestore₁, hothers₁, hstore₁, hfree₁⟩ :=
    @attempt_overtaken _ _ _ keyring projectId _ _ _ (begun keyring s (overtaking projectId first
      second firstHead secondHead firstEvidence secondEvidence)) 0 1 (by decide)
      (fun _ _ _ => True) false (fun _ _ _ _ => trivial) (fun _ => trivial) _
      (fun state => pure (some state)) _ _ _ _ rfl rfl rfl h hfirst
  have hahead : anchorAhead.errorClass = .anchorAheadOfSnapshot := rfl
  rw [if_pos hahead] at hrestore₁
  -- and the second
  subst hstore₁
  have hsecond₁ := hothers₁ 2 (by decide) (by decide)
  obtain ⟨turns₂, hsteps₂, -, c₂, hc₂, hrestore₂, -⟩ :=
    @attempt_overtaken _ _ _ keyring projectId _ _ _ c₁ 0 2 (by decide)
      (fun _ _ _ => True) true (fun _ _ _ _ => trivial) (fun _ => trivial) _
      (fun state => pure (some state)) _ _ _ _ hrestore₁ hsecond₁ hfree₁ h₁ hsecond
  refine ⟨turns₁ ++ turns₂, ?_, ?_⟩
  · intro turn hturn
    rcases List.mem_append.mp hturn with hturn | hturn
    · exact hsteps₁ turn hturn
    · exact hsteps₂ turn hturn
  · unfold interleaved
    rw [Replay.append, hc₁, hc₂, hrestore₂, if_pos hahead]
    rfl

end FalseAlarm

section Repeated

attribute [local instance] asciiData storeHashing

/-- A restore, and two calls that append the same release. -/
def releasedTwice : Fin 3 → StoreCall :=
  overtaking "demo" storedRevision storedRevision (plainDigest 'b') (plainDigest 'b') netEvidence
    netEvidence

/-- One release in the time of a restore makes it look twice; then the release is appended again and
refused. -/
theorem unpassed_no_false_alarm_repeated : ∃ turns : List (Turn (Fin 3)),
    Replay.Throughout (Parties.after giveUp) (Parties.Meets Unpassed)
      (begun netKeyring (afterCalls netKeyring [.createProject storedGenesis]) releasedTwice)
      turns ∧
    (∃ state, state.headRevision = storedRevision ∧
      (interleaved netKeyring (afterCalls netKeyring [.createProject storedGenesis]) releasedTwice
        turns).programs 0 = some (.done (.ok (some state)))) ∧
    (interleaved netKeyring (afterCalls netKeyring [.createProject storedGenesis]) releasedTwice
      turns).programs 2 = some (.done (.error
        (conflict "project head changed before the verified revision append"))) ∧
    2 ∉ (sharedAfter netKeyring [.createProject storedGenesis] releasedTwice turns).commits := by
  obtain ⟨s₁, s₂, hs₁, h₁, -, happend⟩ := netRelease_appends
  obtain ⟨h₂, -⟩ := appendRevision_returns h₁ happend
  obtain ⟨documents, -, -, -, -, hchecked, -⟩ := appendRevision_committed happend
  -- the first attempt
  obtain ⟨turns₁, -, hmeets₁, c₁, hc₁, hrestore₁, hothers₁, hstore₁, hfree₁⟩ :=
    @attempt_overtaken _ _ _ netKeyring "demo" _ _ _ (begun netKeyring s₁ releasedTwice) 0 1
      (by decide) Unpassed false (fun _ _ _ h => h) (fun _ => trivial) _
      (fun state => pure (some state)) _ _ _ _ rfl rfl rfl h₁ happend
  have hahead : anchorAhead.errorClass = .anchorAheadOfSnapshot := rfl
  rw [if_pos hahead] at hrestore₁
  subst hstore₁
  -- the second finds the anchor at the head
  obtain ⟨state, hhead, hsnapshot⟩ := @Intact.snapshot_comes _ _ _ _ _ _ _ c₁.shared 0 h₂ true
  obtain ⟨n₂, hturns₂, hmeets₂⟩ := Parties.turns_of_comes giveUp Unpassed
    hrestore₁ ((hsnapshot.handling _).bind _)
  -- and the release does not find the head that it expects
  have hrefused := @Intact.append_comes _ _ _ _ _ _ _ _ (plainDigest 'b') _ _ none 2 c₁.shared _
    h₂ hchecked
  have hstale : require (storedRevision.val.revisionHash = plainDigest 'b')
      (conflict "project head changed before the verified revision append") =
      .error (conflict "project head changed before the verified revision append") :=
    require_error.mpr ⟨by decide, rfl⟩
  rw [hstale] at hrefused
  let c₂ : Parties (Fin 3) Place (Shared (Fin 3)) StoreFailure (Option ProjectState) :=
    ⟨c₁.shared, update c₁.programs 0 (some (.done (.ok (some state))))⟩
  have hprogram₂ : c₂.programs 2 = some (callSteps netKeyring 2 (releasedTwice 2)) := by
    have hne : (2 : Fin 3) ≠ 0 := by decide
    dsimp only [c₂]
    rw [update_of_ne hne]
    exact hothers₁ 2 (by decide) (by decide)
  obtain ⟨n₃, hturns₃, hmeets₃⟩ := Parties.turns_of_comes giveUp Unpassed
    hprogram₂ (hrefused.bind fun _ => pure none)
  let turns : List (Turn (Fin 3)) :=
    turns₁ ++ List.replicate n₂ (.step 0) ++ List.replicate n₃ (.step 2)
  have hturns : interleaved netKeyring (afterCalls netKeyring [.createProject storedGenesis])
      releasedTwice turns = ⟨c₁.shared, update c₂.programs 2 (some (.done (.error
        (conflict "project head changed before the verified revision append"))))⟩ := by
    unfold interleaved
    rw [hs₁, Replay.append, Replay.append, hc₁, hturns₂]
    exact hturns₃
  have hunpassed : Replay.Throughout (Parties.after giveUp) (Parties.Meets Unpassed)
      (begun netKeyring (afterCalls netKeyring [.createProject storedGenesis]) releasedTwice)
      turns := by
    rw [hs₁, Replay.throughout_append, Replay.throughout_append, Replay.append, hc₁, hturns₂]
    exact ⟨⟨hmeets₁, hmeets₂⟩, hmeets₃⟩
  have hraised : (interleaved netKeyring (afterCalls netKeyring [.createProject storedGenesis])
      releasedTwice turns).programs 2 = some (.done (.error
        (conflict "project head changed before the verified revision append"))) := by
    rw [hturns]
    dsimp only
    exact update_self ..
  have hne : (0 : Fin 3) ≠ 2 := by decide
  refine ⟨turns, hunpassed, ⟨state, hhead, ?_⟩, hraised, ?_⟩
  · rw [hturns]
    dsimp only [c₂]
    rw [update_of_ne hne]
    exact update_self 0 _ _
  · exact (unpassed_no_false_alarm netKeyring [.createProject storedGenesis] releasedTwice turns
      hunpassed 2 _ hraised).2 "demo" storedRevision (plainDigest 'b') netEvidence none rfl

end Repeated

/-! ### Two releases -/

section Alarm

attribute [local instance] asciiData storeHashing

theorem storeHashing_hexadecimal : Hexadecimal :=
  fun text => (storeHashing_digest text).1

/-- A second net on top of the release. -/
def secondCommand : Command where
  val := {
    commandId := "c2"
    baseRevision := plainDigest '4'
    transactionId := "t2"
    actor := "designer"
    kind := .netCreate
    payload := [("name", .str "VCC"), ("net_id", .str "n2")]
    idempotencyKey := "k2" }
  accepted := by
    refine checking_ok.mpr ⟨?_, rfl⟩
    unfold DesignCommand.checks
    simp only [bind_ok, exists_unit]
    exact ⟨by decide, by decide, by decide, by decide, plainDigest_isSha256 rfl _⟩

def twoNets : DesignGraph :=
  { emptyGraph with nets := [groundNet, supplyNet] }

def twoNetsHash : String := stableHash "flux-clone-design-graph-v1" twoNets.toJson

theorem twoNets_storable : StorableGraph twoNets :=
  ⟨emptyGraph_nets_valid (by decide) (by decide) (by simp [groundNet, supplyNet]), rfl⟩

theorem applyCommand_twoNets : applyCommand netGraph secondCommand.val = .ok twoNets := rfl

theorem netEntries_digests : (netEntries.map (·.digest)).Nodup := by
  have hdigests : netEntries.map (·.digest) =
      ['a', 'b', 'c', 'd', 'e', 'f', '1', '2', '3', '4'].map plainDigest := by
    simp only [netEntries, List.map_cons, List.map_nil]
  rw [hdigests]
  exact List.Nodup.map (fun _ _ => plainDigest_inj) (by decide)

theorem storeHashing_listed {domain : String} {value : Json} {entry : Hashing.Entry}
    (hentry : entry ∈ netEntries) (hdigest : entry.digest ≠ plainDigest '9')
    (hplain : domain.toList.contains (Char.ofNat 0) = false)
    (h : stableHash domain value = entry.digest) : value = entry.value := by
  have hall : ∀ entry ∈ netEntries, entry.domain.toList.contains (Char.ofNat 0) = false := by
    decide
  obtain ⟨found, hfound, htext, hsame⟩ := Hashing.listedOr_listed h hdigest
  obtain rfl := List.inj_on_of_nodup_map netEntries_digests hfound hentry hsame
  have hboth := @Hashing.Entry.text_inj found ⟨domain, value, ""⟩ (hall found hfound) hplain htext
  exact hboth.2.symm

theorem plainDigest_ne {c d : Char} (h : c ≠ d) : plainDigest c ≠ plainDigest d :=
  fun hsame => h (plainDigest_inj hsame)

theorem twoNetsHash_ne : twoNetsHash ≠ plainDigest 'e' := by
  intro h
  have hvalue := storeHashing_listed (List.getElem_mem (n := 4) (by decide) : netEntries[4] ∈ _)
    (plainDigest_ne (by decide)) (by decide) h
  have hmem := (Json.perm_of_object_eq hvalue).mem_iff.mp
    (show ("nets", Json.arr (twoNets.nets.map (·.val.toJson))) ∈ _ by simp)
  simp [twoNets] at hmem

theorem second_change : Change storedRevision secondCommand twoNets twoNetsHash where
  digests := storeHashing_hexadecimal
  onBase := rfl
  payload := ⟨rfl, by simp [secondCommand, Json.Unique, Json.UniqueMembers]⟩
  baseStorable := netGraph_storable
  storable := twoNets_storable
  applies := applyCommand_twoNets
  hash := by
    unfold DesignGraph.graphHash
    simp only [twoNets_storable.2, twoNets_storable.1, bind_ok, exists_unit,
      pure_ok, Except.ok.injEq, exists_eq_left', true_and]
    rfl
  changed := twoNetsHash_ne
  project := rfl

theorem report_isSha256 (label : String) : requireSha256 (plainDigest '5') label = .ok () :=
  plainDigest_isSha256 rfl label

def secondRevision : Revision :=
  ⟨changedRevision storedRevision secondCommand twoNets twoNetsHash (plainDigest '5'),
    checking_ok.mpr ⟨second_change.revision_checks report_isSha256, rfl⟩⟩

theorem secondRevision_new :
    secondRevision.val.revisionHash ∉ [storedGenesis, storedRevision].map (·.val.revisionHash) := by
  have hparent : ∀ {members : List (String × Json)}, ("parent", .str (plainDigest '4')) ∉ members →
      Json.object [("parent", .str (plainDigest '4')), ("sequence", .int 2),
        ("graph_hash", .str twoNetsHash), ("commands", textsJson [secondCommand.val.commandHash]),
        ("verification_report_hash", .str (plainDigest '5')),
        ("approval_preview_digest",
          .str (changedPreview storedRevision secondCommand twoNetsHash))] ≠
        Json.object members := by
    intro members hnot hsame
    exact hnot ((Json.perm_of_object_eq hsame).mem_iff.mp List.mem_cons_self)
  intro hmem
  simp only [List.map_cons, List.map_nil, List.mem_cons, List.not_mem_nil, or_false] at hmem
  rcases hmem with h | h
  · have hvalue := storeHashing_listed
      (List.getElem_mem (n := 1) (by decide) : netEntries[1] ∈ _)
      (plainDigest_ne (by decide)) (by decide) h
    exact hparent (by simp) hvalue
  · have hvalue := storeHashing_listed
      (List.getElem_mem (n := 9) (by decide) : netEntries[9] ∈ _)
      (plainDigest_ne (by decide)) (by decide) h
    refine hparent ?_ hvalue
    have hne : plainDigest '4' ≠ plainDigest 'b' := plainDigest_ne (by decide)
    simp [hne]

theorem secondCommitted_accepted : checking DesignTransaction.checks
    (committedAs secondRevision.val.revisionHash
      (verifying storedRevision secondCommand twoNets twoNetsHash (plainDigest '5'))) =
    .ok (committedAs secondRevision.val.revisionHash
      (verifying storedRevision secondCommand twoNets twoNetsHash (plainDigest '5'))) := by
  let verified : Transaction := ⟨_, checking_ok.mpr ⟨second_change.verifying_checks
    report_isSha256, rfl⟩⟩
  obtain ⟨t', ht'⟩ := committedAs_accepted verified secondRevision
  have hval := replace_ok ht'
  rw [← hval]
  exact t'.accepted

def secondCommitted : Transaction := ⟨_, secondCommitted_accepted⟩

/-- The preview and the subject that are released. -/
def secondPreview : String := changedPreview storedRevision secondCommand twoNetsHash

def secondSubject : String :=
  releaseSubjectDigest (plainDigest '4') secondPreview (plainDigest '5')

theorem hexadecimal_digest (domain : String) (value : Json) (label : String) :
    requireDigest (stableHash domain value) label = .ok () :=
  require_ok.mpr (storeHashing_hexadecimal _)

def thirdApproval : Approval :=
  ⟨⟨"a3", plainDigest '8', "t2", secondPreview, secondSubject, plainDigest '5', .approved,
    "user:owner", epoch, none⟩, checking_ok.mpr ⟨by
      unfold ApprovalEvidence.checks
      simp only [bind_ok, exists_unit, forM_ok]
      exact ⟨by decide, digest_plain rfl _, by decide, hexadecimal_digest _ _ _,
        hexadecimal_digest _ _ _, digest_plain rfl _, by decide, by simp⟩, rfl⟩⟩

def secondAttested : DurableCommitAttestation :=
  { netAttested with
    baseRevision := plainDigest '4'
    headRevision := plainDigest '4'
    parentRevision := plainDigest '4'
    revisionHash := secondRevision.val.revisionHash
    sequence := 2
    transactionId := "t2"
    commandHashes := [secondCommand.val.commandHash]
    commandHashesDigest := stableHash "flux-clone-kernel-commit-command-hashes-v1"
      (textsJson [secondCommand.val.commandHash])
    previewDigest := secondPreview
    verifiedPreviewDigest := secondPreview
    prospectiveGraphSha256 := twoNetsHash
    releaseSubjectDigest := secondSubject
    approvalId := "a3"
    approvalDigest := plainDigest '8'
    authorizationId := "authorization2"
    authorizationDigest := plainDigest 'a'
    authorizationNonce := plainDigest 'b' }

theorem secondAttested_checks : secondAttested.checks = .ok () := by
  unfold DurableCommitAttestation.checks
  simp only [bind_ok, exists_unit, require_ok, forM_ok,
    List.mem_cons, List.not_mem_nil, or_false, forall_eq_or_imp, forall_eq]
  have hcommands : ∀ hash ∈ secondAttested.commandHashes,
      requireDigest hash "attestation command hash" = .ok () := by
    intro hash hhash
    rw [List.mem_singleton.mp hhash]
    exact hexadecimal_digest _ _ _
  refine ⟨rfl, ⟨rfl, rfl, rfl⟩, ⟨by decide, by decide, by decide, by decide, by decide, by decide,
    by decide, by decide⟩, ⟨digest_plain rfl _, digest_plain rfl _, digest_plain rfl _,
    hexadecimal_digest _ _ _, hexadecimal_digest _ _ _, hexadecimal_digest _ _ _,
    hexadecimal_digest _ _ _, hexadecimal_digest _ _ _, digest_plain rfl _, digest_plain rfl _,
    digest_plain rfl _, hexadecimal_digest _ _ _, digest_plain rfl _, digest_plain rfl _,
    digest_plain rfl _⟩, List.cons_ne_nil _ _, hcommands, by decide, rfl, by decide, by decide,
    ?_, ?_⟩
  · intro expiry hexpiry
    cases hexpiry
  · have hdigits : secondAttested.signature.toList = List.replicate 128 '8' := String.toList_ofList
    unfold IsSignature
    rw [← String.length_toList, hdigits]
    exact ⟨List.length_replicate, by decide⟩

def secondAttestation : Attestation := ⟨_, checking_ok.mpr ⟨secondAttested_checks, rfl⟩⟩

def secondEvidence : CommitEvidence := ⟨secondCommitted, thirdApproval, secondAttestation⟩

theorem commitCommandHashesDigest_second :
    commitCommandHashesDigest secondCommitted.val.commandHashes =
      .ok secondAttested.commandHashesDigest := by
  unfold commitCommandHashesDigest
  simp only [bind_ok, exists_unit, require_ok, forM_ok,
    pure_ok]
  refine ⟨List.cons_ne_nil _ _, ?_, rfl⟩
  intro hash hhash
  rw [List.mem_singleton.mp hhash]
  exact storeHashing_hexadecimal.stableHash _ _ _

theorem secondAttestation_binds : validateAttestationBinding netKeyring secondAttestation
    secondRevision secondCommitted thirdApproval = .ok () := by
  rw [validateAttestationBinding_ok]
  refine ⟨rfl, _, twoNetsHash, commitCommandHashesDigest_second, second_change.hash, ?_⟩
  refine ⟨⟨rfl, rfl, rfl, rfl, rfl, rfl, rfl, rfl, rfl, rfl, rfl⟩,
      ⟨rfl, rfl, rfl, rfl, rfl, rfl, rfl, rfl, rfl, rfl⟩, rfl, rfl, rfl,
      rfl, rfl, rfl, rfl, rfl, rfl, rfl⟩

theorem thirdApproval_binds : validateApprovalBinding thirdApproval secondCommitted = .ok () := by
  rw [validateApprovalBinding_ok]
  exact ⟨rfl, rfl, rfl, require_ok.mpr rfl⟩

theorem secondEvidence_successor :
    successorChecks "demo" secondRevision storedRevision secondEvidence = .ok () := by
  unfold successorChecks
  simp only [bind_ok, exists_unit, require_ok]
  exact ⟨⟨rfl, rfl, rfl⟩, ⟨rfl, rfl, rfl, rfl, rfl⟩, ⟨rfl, rfl⟩, thirdApproval_binds,
    second_change.validates rfl rfl report_isSha256⟩

theorem secondRevision_hash :
    secondRevision.val.revisionHash = revisionHashFor secondRevision.val := rfl

theorem secondEvidence_documents : ∃ documents : CommitDocuments,
    documents.Of secondRevision secondEvidence := by
  refine documents_of_storable twoNets_storable secondRevision_hash (fun c hc => ?_) twoNets_storable
  rw [List.mem_singleton.mp hc]
  exact second_change.payload

theorem secondEvidence_new {s₁ s₂ : StoreState} {revisions : List Revision} {head : Revision}
    (h : Intact netKeyring "demo" (s₁.database.of "demo") (s₁.anchors "demo") revisions head)
    (hattestations : s₁.database.attestations = [])
    (htransactions : (s₁.database.of "demo").transactions = [])
    (happrovals : (s₁.database.of "demo").approvals = [])
    (happend : (appendRevision netKeyring "demo" storedRevision (plainDigest 'b') netEvidence
      none).run s₁ = (.ok (), s₂)) :
    NewTo "demo" s₂.database [storedGenesis, storedRevision] secondRevision secondEvidence := by
  obtain ⟨-, happended, hothers, -⟩ := appendRevision_returns h happend
  obtain ⟨trow, g, hrewritten, hdecoded⟩ := happended.transactions
  obtain ⟨aprow, -, hload, hkept⟩ := happended.approvals
  obtain ⟨arow, hrows, hholds, -⟩ := happended.attestations
  have hnone : ∀ projectId, (s₁.database.of projectId).attestations = [] := by
    intro projectId
    unfold Database.of
    rw [hattestations]
    rfl
  -- the attestation of the first release is the only one there is
  have honly : ∀ row ∈ s₂.database.attestations, row.Holds "demo" netAttestation := by
    intro row hrow
    have hown : row ∈ (s₂.database.of row.projectId).attestations :=
      List.mem_filter.mpr ⟨hrow, beq_self_eq_true _⟩
    by_cases hproject : row.projectId = "demo"
    · rw [hproject, hrows, hnone, List.nil_append, List.mem_singleton] at hown
      rw [hown]
      exact hholds
    · rw [hothers _ hproject, hnone] at hown
      cases hown
  refine ⟨secondRevision_new, ?_, ?_, ?_, ?_, ?_⟩
  · intro hmem
    obtain ⟨row, hrow, hid⟩ := List.mem_map.mp hmem
    have htrow : trow.transactionId = "t1" := (decodeTransactionRow_ok.mp hdecoded).2.2.1.symm
    have hnew : row.transactionId = "t2" := hid
    refine absurd ((hrewritten.others row ?_).mp hrow) ?_
    · rw [htrow, hnew]
      decide
    · rw [htransactions]
      exact List.not_mem_nil
  · have haprow : aprow.approvalId = "a1" := (loadApproval_ok.mp hload).2.2.1.symm
    obtain hsame | ⟨hmore, -⟩ := hkept
    · rw [hsame, happrovals]
      exact List.not_mem_nil
    · rw [hmore, happrovals, List.nil_append, List.map_singleton, haprow]
      decide
  · intro hmem
    obtain ⟨row, hrow, hsame⟩ := List.mem_map.mp hmem
    have hdigest := (Prod.mk.inj hsame).2
    rw [← (honly row hrow).authorizationDigest] at hdigest
    exact plainDigest_ne (by decide) hdigest
  · intro hmem
    obtain ⟨row, hrow, hsame⟩ := List.mem_map.mp hmem
    have hnonce := (Prod.mk.inj hsame).2
    rw [← (honly row hrow).authorizationNonce] at hnonce
    exact plainDigest_ne (by decide) hnonce
  · intro hmem
    obtain ⟨row, hrow, hsame⟩ := List.mem_map.mp hmem
    rw [← (honly row hrow).approvalDigest] at hsame
    exact plainDigest_ne (by decide) hsame

/-- The calls of the sample: a restore, and two releases. -/
def releasing : Fin 3 → StoreCall :=
  overtaking "demo" storedRevision secondRevision (plainDigest 'b') (plainDigest '4') netEvidence
    secondEvidence

/-- Two releases in the time of a restore make it raise, although nobody stops and nothing is
tampered with. -/
theorem restore_alarmed : ∃ turns : List (Turn (Fin 3)), (∀ turn ∈ turns, ∃ i, turn = .step i) ∧
    releasing 0 = .restore "demo" ∧
    (interleaved netKeyring (afterCalls netKeyring [.createProject storedGenesis]) releasing
      turns).programs 0 = some (.done (.error
        (integrity "external project head anchor is persistently ahead of the database"))) := by
  obtain ⟨s₁, s₂, hs₁, h₁, ⟨hattestations, htransactions, happrovals⟩, happend⟩ :=
    netRelease_appends
  obtain ⟨h₂, -⟩ := appendRevision_returns h₁ happend
  obtain ⟨documents, hdocuments⟩ := secondEvidence_documents
  have hdigest := storeHashing_digest documents.attestation.1.toList
  have hbody : Hashing.sha256 documents.attestation.1.toList = documents.attestation.2 :=
    (survivingAttestation_ok hdocuments.attestation).2
  rw [hbody] at hdigest
  obtain ⟨s₃, hsecond⟩ := appendRevision_accepts h₂ secondRevision_hash rfl rfl hdocuments
    secondAttestation_binds secondEvidence_successor
    (secondEvidence_new h₁ hattestations htransactions happrovals happend) hdigest.1 hdigest.2
  obtain ⟨turns, hsteps, hraised⟩ := restore_overtaken h₁ happend hsecond
  rw [hs₁]
  exact ⟨turns, hsteps, rfl, hraised⟩

end Alarm

end Evleda.ProjectStore
