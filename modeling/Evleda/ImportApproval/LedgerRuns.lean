/-
Loads, confirmations and appends of the ledger, in any interleaving.

Each call relies on the others to keep the ledger intact, to let chain and anchor
only grow, and to leave the database alone while it has a transaction that writes;
and it guarantees as much.  So a call can be looked at alone, one step at a time.

What a call finds out before its last step stays true until then: what names a
prefix of the chain still names one when the chain has grown.
-/
import Evleda.ImportApproval.LedgerChain
import Evleda.Kernel.History

namespace Evleda.ImportApproval

open Effect Outcome

/-- A call on an object of a process. -/
inductive LedgerCall (κ : Type) where
  | load (service : AnchorService) (ledger : κ)
  | confirm (service : AnchorService) (ledger : κ) (verifiedEvents : List ApprovalLedgerEvent)
      (expectedHead : String) (lastAt : Option DateTime)
  | append (service : AnchorService) (ledger : κ) (expectedHead : String) (request : EventRequest)

variable {expectedHead : String}

section Interleaved

variable {ι κ : Type} [Hashing] {sealWith : Seal} {calls : ι → LedgerCall κ}

/-! ### What calls rely on -/

/-- The row is the event that the call asks for. -/
def Appends (sealWith : Seal) (call : LedgerCall κ) (row : EventRow) : Prop :=
  ∃ service ledger expectedHead request, call = .append service ledger expectedHead request ∧
    row = (request.event sealWith row.sequence expectedHead).row

/-- The ledger is a chain in which no digest occurs twice, the anchor names a prefix of it, and the
events are those of the calls that were committed, in that order. -/
structure Intact (sealWith : Seal) (calls : ι → LedgerCall κ) (s : LedgerShared ι κ) : Prop where
  chained : ∃ events, Chained sealWith s.database events
  distinct : s.database.heads.Nodup
  head : ∃ anchor : ApprovalLedgerAnchor, anchor.sequence = s.database.events.length ∧
    anchor.digest = s.database.head
  named : s.database.Names s.anchor
  recorded : List.Forall₂ (fun row i => Appends sealWith (calls i) row) s.database.events s.commits

theorem Intact.state_eq {s : LedgerShared ι κ} (h : Intact sealWith calls s) :
    s.database.state.lastSequence = s.database.events.length ∧
      s.database.state.lastEventDigest = s.database.head := by
  obtain ⟨events, hchained⟩ := h.chained
  rw [hchained.state]
  exact ⟨rfl, rfl⟩

section

omit [Hashing]

theorem names_head {s : LedgerShared ι κ} {anchor : ApprovalLedgerAnchor}
    (hsequence : anchor.sequence = s.database.events.length)
    (hdigest : anchor.digest = s.database.head) : s.database.Names anchor := by
  unfold LedgerDatabase.Names
  rw [hsequence, hdigest]
  exact Linked.headOf_at

/-- The chain has grown, and the anchor has not gone back. -/
structure Grown (s s' : LedgerShared ι κ) : Prop where
  events : s.database.events <+: s'.database.events
  anchor : s.anchor.sequence ≤ s'.anchor.sequence

theorem Grown.refl (s : LedgerShared ι κ) : Grown s s := ⟨List.prefix_rfl, Nat.le_refl _⟩

theorem Grown.trans {s m s' : LedgerShared ι κ} (h : Grown s m) (h' : Grown m s') : Grown s s' :=
  ⟨h.events.trans h'.events, Nat.le_trans h.anchor h'.anchor⟩

theorem Grown.names {s s' : LedgerShared ι κ} {anchor : ApprovalLedgerAnchor} (h : Grown s s')
    (hanchor : s.database.Names anchor) : s'.database.Names anchor :=
  Linked.named_mono h.events hanchor

end

/-- What the call `i` relies on when the others take steps. -/
structure Relies (sealWith : Seal) (calls : ι → LedgerCall κ) (i : ι) (s s' : LedgerShared ι κ) :
    Prop where
  intact : Intact sealWith calls s → Intact sealWith calls s'
  grown : Grown s s'
  locked : s.writer = some i → s'.writer = some i ∧ s'.database = s.database

/-- What the call `i` guarantees with its steps. -/
structure Guarantees (sealWith : Seal) (calls : ι → LedgerCall κ) (i : ι)
    (s s' : LedgerShared ι κ) : Prop where
  intact : Intact sealWith calls s → Intact sealWith calls s'
  grown : Grown s s'
  others : ∀ j, i ≠ j → s.writer = some j → s'.writer = some j ∧ s'.database = s.database

theorem Relies.refl (i : ι) (s : LedgerShared ι κ) : Relies sealWith calls i s s :=
  ⟨id, Grown.refl s, fun h => ⟨h, rfl⟩⟩

theorem Relies.trans {i : ι} {s m s' : LedgerShared ι κ} (h : Relies sealWith calls i s m)
    (h' : Relies sealWith calls i m s') : Relies sealWith calls i s s' where
  intact hs := h'.intact (h.intact hs)
  grown := h.grown.trans h'.grown
  locked hs := by
    obtain ⟨hm, hdatabase⟩ := h.locked hs
    obtain ⟨hs', hdatabase'⟩ := h'.locked hm
    exact ⟨hs', hdatabase'.trans hdatabase⟩

/-- A step that leaves database, anchor and record of commits alone, and nobody's lock but its own,
is always within what a call guarantees. -/
theorem Guarantees.of_same {i : ι} {s s' : LedgerShared ι κ} (hdatabase : s'.database = s.database)
    (hanchor : s'.anchor = s.anchor) (hcommits : s'.commits = s.commits)
    (hwriter : ∀ j, i ≠ j → s.writer = some j → s'.writer = some j) :
    Guarantees sealWith calls i s s' where
  intact h := by
    obtain ⟨hchained, hdistinct, hhead, hnamed, hrecorded⟩ := h
    refine ⟨?_, ?_, ?_, ?_, ?_⟩
    · rw [hdatabase]
      exact hchained
    · rw [hdatabase]
      exact hdistinct
    · rw [hdatabase]
      exact hhead
    · rw [hdatabase, hanchor]
      exact hnamed
    · rw [hdatabase, hcommits]
      exact hrecorded
  grown := by
    refine ⟨?_, ?_⟩
    · rw [hdatabase]
    · rw [hanchor]
  others j hij hj := ⟨hwriter j hij hj, hdatabase⟩

theorem Guarantees.refl (i : ι) (s : LedgerShared ι κ) : Guarantees sealWith calls i s s :=
  .of_same rfl rfl rfl fun _ _ h => h

theorem agreed [DecidableEq ι] (sealWith : Seal) (calls : ι → LedgerCall κ) :
    Parties.Agreed (giveUp (ι := ι)) (Relies sealWith calls) (Guarantees sealWith calls) where
  refl := Relies.refl
  trans _ _ _ _ h h' := h.trans h'
  others i j s s' hij h := ⟨h.intact, h.grown, h.others j hij⟩
  released i j s hij := by
    unfold giveUp
    split
    · rename_i hwriter
      have hsame : Guarantees sealWith calls i s { s with writer := none } := by
        refine .of_same rfl rfl rfl fun k hik hk => ?_
        rw [hwriter] at hk
        exact absurd (Option.some.inj hk) hik
      exact ⟨hsame.intact, hsame.grown, hsame.others j hij⟩
    · exact .refl j s

/-! ### The steps of a call -/

/-- A call stays within what it guarantees, whatever it returns. -/
def LedgerSafe {α : Type} (sealWith : Seal) (calls : ι → LedgerCall κ) (i : ι)
    (post : Except LedgerFailure α → LedgerShared ι κ → Prop) (x : LedgerSteps ι κ α)
    (s : LedgerShared ι κ) : Prop :=
  x.Safe (Relies sealWith calls i) (Guarantees sealWith calls i) (fun _ _ => True) post s

variable {α β : Type} {i : ι} {s : LedgerShared ι κ} {service : AnchorService} {ledger : κ}
  {post : Except LedgerFailure α → LedgerShared ι κ → Prop}
  {expected replacement databaseHead : ApprovalLedgerAnchor}
  {verifiedEvents : List ApprovalLedgerEvent}

variable [DecidableEq κ]

theorem failClosed_safe {message : String} (hfails : ∀ e m, post (.error e) m) :
    LedgerSafe sealWith calls i post (failClosed ledger message) s := by
  refine .write_bind fun m _ _ => ⟨.of_same rfl rfl rfl fun _ _ h => h, ?_⟩
  exact fun m' _ => hfails _ m'

theorem failClosed_bind_safe {message : String} {f : β → LedgerSteps ι κ α}
    (hfails : ∀ e m, post (.error e) m) :
    LedgerSafe sealWith calls i post (failClosed ledger message >>= f) s := by
  refine .bind (Relies.refl i) (failClosed_safe fun e m => hfails e m)

variable {f : Unit → LedgerSteps ι κ α}

omit [DecidableEq κ] in
theorem requireHealthy_bind_safe (hfails : ∀ e m, post (.error e) m)
    (h : ∀ m, Relies sealWith calls i s m → LedgerSafe sealWith calls i post (f ()) m) :
    LedgerSafe sealWith calls i post (requireHealthy ledger >>= f) s := by
  unfold requireHealthy
  rw [Steps.bind_assoc]
  refine .read_bind (Guarantees.refl i) fun m hm _ => ?_
  exact .check_bind_refused (fun e m' _ => hfails e m') fun _ _ => h m hm

theorem readExternalAnchor_bind_safe {f : ApprovalLedgerAnchor → LedgerSteps ι κ α}
    (hfails : ∀ e m, post (.error e) m)
    (h : ∀ m, Relies sealWith calls i s m → LedgerSafe sealWith calls i post (f m.anchor) m) :
    LedgerSafe sealWith calls i post (readExternalAnchor service ledger >>= f) s := by
  unfold readExternalAnchor
  split
  · exact .read_bind (Guarantees.refl i) fun m hm _ => h m hm
  · exact failClosed_bind_safe hfails

theorem verifyExternalAnchor_bind_safe
    (hfails : ∀ e m, post (.error e) m)
    (h : ∀ m, Relies sealWith calls i s m → LedgerSafe sealWith calls i post (f ()) m) :
    LedgerSafe sealWith calls i post (verifyExternalAnchor service ledger expected >>= f) s := by
  unfold verifyExternalAnchor
  rw [Steps.bind_assoc]
  refine readExternalAnchor_bind_safe hfails fun m hm => ?_
  split
  · exact h m hm
  · exact failClosed_bind_safe hfails

theorem requireRecoverable_bind_safe {f : ApprovalLedgerAnchor → LedgerSteps ι κ α}
    (hfails : ∀ e m, post (.error e) m)
    (h : ∀ m, Relies sealWith calls i s m → m.anchor.sequence ≤ databaseHead.sequence →
      LedgerSafe sealWith calls i post (f m.anchor) m) :
    LedgerSafe sealWith calls i post
      (requireRecoverableExternalAnchor service ledger verifiedEvents databaseHead >>= f) s := by
  unfold requireRecoverableExternalAnchor
  rw [Steps.bind_assoc]
  refine readExternalAnchor_bind_safe hfails fun m hm => ?_
  split
  · rename_i hsame
    exact h m hm (Nat.le_of_eq (congrArg (·.sequence) hsame))
  · split
    · exact failClosed_bind_safe hfails
    · rename_i hnotAhead
      split
      · exact h m hm (Nat.not_lt.mp hnotAhead)
      · exact failClosed_bind_safe hfails

omit [DecidableEq κ] in
/-- **A compare-and-swap to what names a later prefix keeps the ledger intact.** -/
theorem compareAndSwap_guarantees (hnamed : s.database.Names replacement)
    (hle : expected.sequence ≤ replacement.sequence) :
    Guarantees sealWith calls i s
      ((compareAndSwapAnchor service expected replacement).run s).2 := by
  unfold compareAndSwapAnchor
  rw [run_read_bind]
  by_cases hreaches : service.swaps = true
  · rw [if_pos hreaches]
    by_cases hcurrent : s.anchor = expected
    · rw [if_pos hcurrent]
      refine ⟨fun h => ⟨h.chained, h.distinct, h.head, hnamed, h.recorded⟩, ⟨List.prefix_rfl, ?_⟩,
        fun j _ hj => ⟨hj, rfl⟩⟩
      rw [hcurrent]
      exact hle
    · rw [if_neg hcurrent]
      exact .refl i s
  · rw [if_neg hreaches]
    exact .refl i s

theorem advance_bind_safe (hfails : ∀ e m, post (.error e) m)
    (h : ∀ m, LedgerSafe sealWith calls i post (f ()) m)
    (hnamed : s.database.Names replacement) (hle : expected.sequence ≤ replacement.sequence) :
    LedgerSafe sealWith calls i post
      (advanceExternalAnchor service ledger expected replacement >>= f) s := by
  unfold advanceExternalAnchor
  rw [Steps.bind_assoc]
  refine .atomic_bind fun m hm _ =>
    ⟨compareAndSwap_guarantees (hm.grown.names hnamed) hle, fun current _ => ?_,
      fun e m' _ _ => hfails e m'⟩
  cases current with
  | none => exact failClosed_bind_safe hfails
  | some current =>
      dsimp only
      split
      · exact h _
      · exact failClosed_bind_safe hfails

theorem load_bind_safe {f : List ApprovalLedgerEvent × String × Option DateTime →
    LedgerSteps ι κ α} (hfails : ∀ e m, post (.error e) m)
    (h : ∀ loaded m, LedgerSafe sealWith calls i post (f loaded) m) :
    LedgerSafe sealWith calls i post (loadSteps service ledger sealWith >>= f) s := by
  unfold loadSteps
  simp only [Steps.bind_assoc]
  refine requireHealthy_bind_safe hfails fun m _ => ?_
  refine .read_bind (Guarantees.refl i) fun m _ _ => ?_
  refine .check_bind_refused (fun e m' _ => hfails e m') fun loaded _ => ?_
  refine .check_bind_refused (fun e m' _ => hfails e m') fun _ _ => ?_
  refine .check_bind_refused (fun e m' _ => hfails e m') fun databaseHead _ => ?_
  exact requireRecoverable_bind_safe hfails fun m _ _ => h loaded m

theorem confirm_bind_safe {lastAt : Option DateTime}
    (hfails : ∀ e m, post (.error e) m)
    (h : ∀ m, LedgerSafe sealWith calls i post (f ()) m) (hs : Intact sealWith calls s) :
    LedgerSafe sealWith calls i post
      (confirmSteps service ledger sealWith verifiedEvents expectedHead lastAt >>= f) s := by
  unfold confirmSteps
  simp only [Steps.bind_assoc]
  refine requireHealthy_bind_safe hfails fun m hm => ?_
  refine .read_bind (Guarantees.refl i) fun t ht _ => ?_
  refine .check_bind_refused (fun e m' _ => hfails e m') fun _ hverified => ?_
  refine .check_bind_refused (fun e m' _ => hfails e m') fun databaseHead hmade => ?_
  -- the row that was read names the head of the chain at that time
  have hintact := ht.intact (hm.intact hs)
  have hstate := (verifyState_ok sealWith).mp hverified
  obtain ⟨hsequence, hdigest⟩ := hintact.state_eq
  obtain ⟨hsequence', hdigest'⟩ := ApprovalLedgerAnchor.make_ok.mp hmade
  have hnamed : t.database.Names databaseHead := by
    refine names_head ?_ ?_
    · rw [hsequence', ← hsequence, hstate]
      rfl
    · rw [hdigest', ← hdigest, hstate]
      rfl
  unfold reconcileExternalAnchor
  rw [Steps.bind_assoc]
  refine requireRecoverable_bind_safe hfails fun u hu hle => ?_
  split
  · exact h u
  · exact advance_bind_safe hfails h (hu.grown.names hnamed) hle

omit [DecidableEq κ] in
theorem writes_on {db written : LedgerDatabase} {events : List ApprovalLedgerEvent}
    {request : EventRequest} {previous : ApprovalLedgerAnchor}
    (hchained : Chained sealWith db events) (hgeneration : 0 ≤ request.generation)
    (hcanonical : (Json.canonicalLoads request.recordJson).isSome = true)
    (hexpected : db.state.lastEventDigest = expectedHead)
    (hprevious : ApprovalLedgerAnchor.make db.state.lastSequence db.state.lastEventDigest =
      .ok previous)
    (htime : ∀ at' ∈ events.getLast?.map ApprovalLedgerEvent.occurredAt, ¬ request.occurredAt < at')
    (hwritten : insertEvent sealWith db
      (request.event sealWith (db.state.lastSequence + 1) expectedHead) = .ok written)
    (hreplacement : ApprovalLedgerAnchor.make
      (request.event sealWith (db.state.lastSequence + 1) expectedHead).sequence
      (request.event sealWith (db.state.lastSequence + 1) expectedHead).eventDigest =
        .ok replacement) :
    (∃ events, Chained sealWith written events) ∧
      Written sealWith expectedHead request db written previous replacement := by
  have hstate : db.state.lastSequence = db.events.length ∧
      db.state.lastEventDigest = db.head := by
    rw [hchained.state]
    exact ⟨rfl, rfl⟩
  have hhead : expectedHead = db.head := hexpected.symm.trans hstate.2
  rw [hstate.1] at hprevious hwritten hreplacement
  rw [hstate.2] at hprevious
  have hprevious' := ApprovalLedgerAnchor.make_ok.mp hprevious
  obtain ⟨hsequence, hdigest⟩ := ApprovalLedgerAnchor.make_ok.mp hreplacement
  obtain ⟨-, -, hunique, hrows⟩ := insertEvent_ok.mp hwritten
  have hevents : written.events =
      db.events ++ [(request.event sealWith (db.events.length + 1) expectedHead).row] := by
    rw [hrows]
  have hreplaced : replacement.sequence = db.events.length + 1 ∧
      replacement.digest = written.head := by
    refine ⟨hsequence, ?_⟩
    unfold LedgerDatabase.head
    rw [hevents, Linked.headOf_snoc]
    exact hdigest
  refine ⟨⟨_, hchained.append hgeneration hcanonical hhead htime hwritten⟩,
    hhead, hevents, ?_, hprevious', hreplaced⟩
  -- no event has the zero digest, and no two have the same
  intro hold
  obtain hzero | hbefore := List.mem_cons.mp hold
  · have hsequence' := replacement.isZero.mpr hzero
    rw [hsequence] at hsequence'
    exact Nat.succ_ne_zero _ hsequence'
  · rw [hdigest] at hbefore
    exact hunique hbefore

theorem appendLocked_safe {db : LedgerDatabase} {events : List ApprovalLedgerEvent}
    {request : EventRequest}
    {post : Except LedgerFailure (LedgerDatabase × ApprovalLedgerAnchor × ApprovalLedgerAnchor) →
      LedgerShared ι κ → Prop}
    (hchained : Chained sealWith db events) (hgeneration : 0 ≤ request.generation)
    (hcanonical : (Json.canonicalLoads request.recordJson).isSome = true)
    (hfails : ∀ e m, post (.error e) m)
    (hok : ∀ written previous replacement m, Relies sealWith calls i s m →
      (∃ events, Chained sealWith written events) →
      Written sealWith expectedHead request db written previous replacement →
      post (.ok (written, previous, replacement)) m) :
    LedgerSafe sealWith calls i post (appendLocked service ledger sealWith expectedHead request db)
      s := by
  unfold appendLocked
  rw [hchained.lastAt_eq, Steps.check_ok_bind]
  refine .check_bind_refused (fun e m _ => hfails e m) fun _ _ => ?_
  refine .check_bind_refused (fun e m _ => hfails e m) fun _ hexpected => ?_
  refine .check_bind_refused (fun e m _ => hfails e m) fun previous hprevious => ?_
  refine verifyExternalAnchor_bind_safe hfails fun m hm => ?_
  refine .check_bind_refused (fun e m' _ => hfails e m') fun _ htime => ?_
  refine .check_bind_refused (fun e m' _ => hfails e m') fun written hwritten => ?_
  refine .check_bind_refused (fun e m' _ => hfails e m') fun replacement hreplacement => ?_
  obtain ⟨hchained', hwrites⟩ := writes_on hchained hgeneration hcanonical
    (require_ok.mp hexpected) hprevious (require_ok.mp htime) hwritten hreplacement
  exact fun m' hm' => hok written previous replacement m' (hm.trans hm') hchained' hwrites

variable [DecidableEq ι]

omit [Hashing] [DecidableEq κ] [DecidableEq ι] in
/-- A call that begins a transaction keeps the other writers out. -/
theorem beginImmediate_run (i : ι) (s : LedgerShared ι κ) :
    (beginImmediate i).run s =
      if s.writer = none then (.ok s.database, { s with writer := some i })
      else (.error ⟨.databaseError, "database is locked"⟩, s) := by
  unfold beginImmediate
  rw [run_read_bind, run_check_bind]
  by_cases hfree : s.writer = none
  · have hpass : require (s.writer = none) (⟨.databaseError, "database is locked"⟩ :
        LedgerFailure) = .ok () := require_ok.mpr hfree
    rw [if_pos hfree, hpass]
    rfl
  · have hrefused : require (s.writer = none) (⟨.databaseError, "database is locked"⟩ :
        LedgerFailure) = .error ⟨.databaseError, "database is locked"⟩ :=
      require_error.mpr ⟨hfree, rfl⟩
    rw [if_neg hfree, hrefused]

omit [DecidableEq κ] [DecidableEq ι] in
/-- **Committing an event keeps the ledger intact.** -/
theorem commit_guarantees {written : LedgerDatabase} {expectedHead : String}
    {request : EventRequest} {previous replacement : ApprovalLedgerAnchor}
    (hcall : calls i = .append service ledger expectedHead request)
    (hwriter : s.writer = some i) (hchained : ∃ events, Chained sealWith written events)
    (hwritten : Written sealWith expectedHead request s.database written previous replacement) :
    Guarantees sealWith calls i s (commitWork i written s) where
  intact h := by
    have hheads : written.heads = s.database.heads ++ [replacement.digest] := hwritten.heads
    refine ⟨hchained, ?_, ⟨replacement, ?_, hwritten.replacement.2⟩, hwritten.names h.named, ?_⟩
    · show written.heads.Nodup
      rw [hheads]
      exact List.nodup_append.mpr ⟨h.distinct, List.nodup_singleton _, fun a ha b hb => by
        rw [List.mem_singleton.mp hb]
        rintro rfl
        exact hwritten.fresh ha⟩
    · show replacement.sequence = written.events.length
      rw [hwritten.replacement.1, hwritten.events, List.length_append, List.length_singleton]
    · show List.Forall₂ _ written.events (s.commits ++ [i])
      rw [hwritten.events]
      refine List.rel_append h.recorded (.cons ?_ .nil)
      exact ⟨service, ledger, expectedHead, request, hcall, rfl⟩
  grown := ⟨⟨_, hwritten.events.symm⟩, Nat.le_refl _⟩
  others j hij hj := by
    rw [hwriter] at hj
    exact absurd (Option.some.inj hj) hij

theorem append_bind_safe [UnicodeData] {request : EventRequest}
    {f : String → LedgerSteps ι κ α} (hfails : ∀ e m, post (.error e) m)
    (h : ∀ digest m, LedgerSafe sealWith calls i post (f digest) m)
    (hcall : calls i = .append service ledger expectedHead request)
    (hs : Intact sealWith calls s) :
    LedgerSafe sealWith calls i post
      (appendSteps service ledger sealWith i expectedHead request >>= f) s := by
  unfold appendSteps
  simp only [Steps.bind_assoc]
  refine requireHealthy_bind_safe hfails fun m hm => ?_
  refine .check_bind_refused (fun e m' _ => hfails e m') fun _ _ => ?_
  refine .check_bind_refused (fun e m' _ => hfails e m') fun _ _ => ?_
  refine .check_bind_refused (fun e m' _ => hfails e m') fun _ hgeneration => ?_
  refine .check_bind_refused (fun e m' _ => hfails e m') fun _ hcanonical => ?_
  refine .atomic_bind fun t ht _ => ?_
  rw [beginImmediate_run]
  by_cases hfree : t.writer = none
  · rw [if_pos hfree]
    refine ⟨.of_same rfl rfl rfl fun j _ hj => ?_, fun db hdb => ?_, fun e m' _ _ => hfails e m'⟩
    · rw [hfree] at hj
      cases hj
    · rw [Except.ok.injEq] at hdb
      subst hdb
      have hintact := ht.intact (hm.intact hs)
      obtain ⟨events, hchained⟩ := hintact.chained
      refine .bind (Relies.refl i) (.handling (Relies.refl i) ?_)
      refine appendLocked_safe hchained (require_ok.mp hgeneration)
        (require_ok.mp hcanonical) (fun e _ => ?_)
        fun written previous replacement u hu hchained' hwritten => ?_
      · -- what is given up has changed nothing
        refine .write_bind fun v hv _ => ⟨?_, fun m' _ => hfails e m'⟩
        unfold giveUp
        split
        · rename_i hwriter
          refine .of_same rfl rfl rfl fun j hij hj => ?_
          rw [hwriter] at hj
          exact absurd (Option.some.inj hj) hij
        · exact .refl i v
      · refine .write_bind fun v hv _ => ?_
        -- nobody else has changed the database since
        obtain ⟨hwriter, hdatabase⟩ := (hu.trans hv).locked rfl
        have hsame : v.database = t.database := hdatabase
        rw [← hsame] at hwritten
        refine ⟨commit_guarantees hcall hwriter hchained' hwritten, ?_⟩
        refine advance_bind_safe hfails (fun m' => h replacement.digest m')
          hwritten.names_replacement ?_
        rw [hwritten.previous.1, hwritten.replacement.1]
        exact Nat.le_succ _
  · rw [if_neg hfree]
    exact ⟨.refl i t, fun _ hdb => absurd hdb (by simp), fun e m' _ _ => hfails e m'⟩

end Interleaved

/-! ### Calls that run alone -/

section Alone

variable {ι κ : Type} [DecidableEq κ] {s : LedgerShared ι κ} {service : AnchorService} {ledger : κ}
  {expected replacement databaseHead : ApprovalLedgerAnchor}
  {verifiedEvents : List ApprovalLedgerEvent}

variable {meets : LedgerPlace → LedgerShared ι κ → Prop}

omit [DecidableEq κ] in
theorem requireHealthy_comes (h : s.poisoned ledger = false) (hmeets : meets .healthy s) :
    (requireHealthy ledger : LedgerSteps ι κ Unit).Comes meets s (.done (.ok ())) s := by
  refine .atomic_bind hmeets rfl ?_
  dsimp only
  rw [require_ok.mpr h]
  exact .here

theorem readExternalAnchor_comes (h : service.Available) (hmeets : meets .readAnchor s) :
    (readExternalAnchor service ledger : LedgerSteps ι κ ApprovalLedgerAnchor).Comes meets s
      (.done (.ok s.anchor)) s := by
  unfold readExternalAnchor
  rw [if_pos h.1]
  exact .step hmeets .here

/-- The anchor can be recovered when it names a prefix of the verified chain. -/
theorem requireRecoverable_comes (h : service.Available) (hmeets : meets .readAnchor s)
    (hle : s.anchor.sequence ≤ databaseHead.sequence)
    (hnamed : (heads (·.eventDigest) zeroDigest verifiedEvents)[s.anchor.sequence]? =
      some s.anchor.digest) :
    (requireRecoverableExternalAnchor service ledger verifiedEvents databaseHead :
      LedgerSteps ι κ ApprovalLedgerAnchor).Comes meets s (.done (.ok s.anchor)) s := by
  unfold requireRecoverableExternalAnchor
  refine ((readExternalAnchor_comes h hmeets).bind _).trans ?_
  rw [Steps.done_ok_bind]
  split
  · exact .here
  · rw [if_neg (Nat.not_lt.mpr hle)]
    exact .here

theorem advance_comes (h : service.Available) (hmeets : meets .swapAnchor s)
    (hcurrent : s.anchor = expected) :
    (advanceExternalAnchor service ledger expected replacement : LedgerSteps ι κ Unit).Comes meets s
      (.done (.ok ())) { s with anchor := replacement } := by
  have hswap : (compareAndSwapAnchor service expected replacement).run s =
      (.ok (some replacement), { s with anchor := replacement }) := by
    unfold compareAndSwapAnchor
    rw [run_read_bind, if_pos h.2.1, if_pos hcurrent, run_write_bind, if_pos h.2.2]
    rfl
  unfold advanceExternalAnchor
  refine .atomic_bind hmeets hswap ?_
  dsimp only
  rw [if_pos rfl]
  exact .here

variable [Hashing] {sealWith : Seal} {calls : ι → LedgerCall κ}

theorem Intact.load_comes (hs : Intact sealWith calls s) (hhealthy : s.poisoned ledger = false)
    (hhealth : meets .healthy s) (hsnapshot : meets .snapshot s) :
    ∃ events head lastAt, Chained sealWith s.database events ∧
      verifyState sealWith s.database.state events.length s.database.head lastAt = .ok () ∧
      ApprovalLedgerAnchor.make events.length s.database.head = .ok head ∧
      (loadSteps service ledger sealWith).Comes meets s
        (requireRecoverableExternalAnchor service ledger events head >>= fun _ =>
          pure (events, s.database.head, lastAt)) s := by
  obtain ⟨events, hchained⟩ := hs.chained
  obtain ⟨head, hsequence, hdigest⟩ := hs.head
  have hlength := hchained.length_eq
  have hstate := hchained.verifiesState
  have hmade : ApprovalLedgerAnchor.make events.length s.database.head = .ok head :=
    ApprovalLedgerAnchor.make_ok.mpr ⟨hsequence.trans hlength.symm, hdigest⟩
  rw [← hlength] at hstate
  refine ⟨events, head, _, hchained, hstate, hmade, ?_⟩
  unfold loadSteps
  refine ((requireHealthy_comes hhealthy hhealth).bind _).trans ?_
  rw [Steps.done_ok_bind]
  refine .atomic_bind hsnapshot rfl ?_
  rw [hchained.verifies, Steps.check_ok_bind]
  dsimp only
  rw [hstate, Steps.check_ok_bind, hmade, Steps.check_ok_bind]
  exact .here

theorem Intact.load_returns (hs : Intact sealWith calls s) (hhealthy : s.poisoned ledger = false)
    (hservice : service.Available) (hhealth : meets .healthy s) (hsnapshot : meets .snapshot s)
    (hreads : meets .readAnchor s) :
    ∃ events head lastAt,
      verifyState sealWith s.database.state events.length s.database.head lastAt = .ok () ∧
      ApprovalLedgerAnchor.make events.length s.database.head = .ok head ∧
      head.sequence = s.database.events.length ∧
      (requireRecoverableExternalAnchor service ledger events head :
        LedgerSteps ι κ ApprovalLedgerAnchor).Comes meets s (.done (.ok s.anchor)) s ∧
      (loadSteps service ledger sealWith).Comes meets s
        (.done (.ok (events, s.database.head, lastAt))) s := by
  obtain ⟨events, head, lastAt, hchained, hstate, hmade, hloads⟩ :=
    @Intact.load_comes ι κ _ s service ledger meets _ sealWith calls hs hhealthy hhealth hsnapshot
  have hsequence := (ApprovalLedgerAnchor.make_ok.mp hmade).1
  rw [hchained.length_eq] at hsequence
  have hle : s.anchor.sequence ≤ head.sequence := by
    rw [hsequence]
    exact Linked.named_le hs.named
  have hnamed : (heads (·.eventDigest) zeroDigest events)[s.anchor.sequence]? =
      some s.anchor.digest := by
    rw [hchained.heads_eq]
    exact hs.named
  have hrecoverable := @requireRecoverable_comes ι κ _ s service ledger head events meets hservice
    hreads hle hnamed
  exact ⟨events, head, lastAt, hstate, hmade, hsequence, hrecoverable,
    hloads.trans (hrecoverable.bind _)⟩

/-- **A load that runs alone on an intact ledger returns its events, and a confirmation of them that
runs alone brings the anchor to the head.** -/
theorem Intact.recovers (hs : Intact sealWith calls s) (hhealthy : s.poisoned ledger = false)
    (hservice : service.Available) :
    ∃ events lastAt s', (loadSteps service ledger sealWith).alone.run s =
        (.ok (events, s.database.head, lastAt), s) ∧
      (confirmSteps service ledger sealWith events s.database.head lastAt).alone.run s =
        (.ok (), s') ∧
      s'.database = s.database ∧ s'.anchor.sequence = s'.database.events.length ∧
      s'.anchor.digest = s'.database.head := by
  obtain ⟨events, head, lastAt, hstate, hmade, hsequence, hrecoverable, hloads⟩ :=
    @Intact.load_returns ι κ _ s service ledger (fun _ _ => True) _ sealWith calls hs hhealthy
      hservice trivial trivial trivial
  have hdigest := (ApprovalLedgerAnchor.make_ok.mp hmade).2
  have hload := hloads.alone
  -- a confirmation is a load of the row, and the swap if there is one to make
  have hconfirm : ∀ s', (if s.anchor = head then pure () else
      advanceExternalAnchor service ledger s.anchor head : LedgerSteps ι κ Unit).alone.run s =
        (.ok (), s') →
      (confirmSteps service ledger sealWith events s.database.head lastAt).alone.run s =
        (.ok (), s') := by
    intro s' hrest
    have hhealth := @requireHealthy_comes ι κ s ledger (fun _ _ => True) hhealthy trivial
    have hrest' := (hrecoverable.bind fun current => if current = head then pure () else
      advanceExternalAnchor service ledger current head).alone
    unfold confirmSteps
    rw [(hhealth.bind _).alone, Steps.done_ok_bind, Steps.alone_bind, Steps.alone_atomic,
      run_read_bind, hstate, Steps.check_ok_bind, hmade, Steps.check_ok_bind]
    exact hrest'.trans hrest
  by_cases hat : s.anchor = head
  · refine ⟨events, _, s, hload, hconfirm s ?_, rfl, ?_, ?_⟩
    · rw [if_pos hat]
      rfl
    · rw [hat, hsequence]
    · rw [hat, hdigest]
  · refine ⟨events, _, { s with anchor := head }, hload, hconfirm _ ?_, rfl, hsequence, hdigest⟩
    rw [if_neg hat]
    exact (@advance_comes ι κ _ s service ledger s.anchor head (fun _ _ => True) hservice trivial
      rfl).alone

/-- What an append asks for can follow the chain of the ledger. -/
structure Follows (sealWith : Seal) (s : LedgerShared ι κ) (expectedHead : String)
    (request : EventRequest) : Prop where
  expected : s.database.state.lastEventDigest = expectedHead
  generation : 0 ≤ request.generation ∧ request.generation < 2 ^ 63
  canonical : (Json.canonicalLoads request.recordJson).isSome = true
  time : ∀ at', decodeOptionalTime s.database.state.lastOccurredAt = .ok (some at') →
    ¬ request.occurredAt < at'
  room : s.database.events.length + 1 < 2 ^ 63
  digest : Text.isSha256
    (request.event sealWith (s.database.events.length + 1) expectedHead).eventDigest = true
  fresh : (request.event sealWith (s.database.events.length + 1) expectedHead).eventDigest ∉
    s.database.heads

/-- An append that goes on from the head, where the anchor is, has its transaction committed, and
then swaps the anchor. -/
theorem Intact.append_comes [DecidableEq ι] [UnicodeData] {i : ι} {expectedHead : String}
    {request : EventRequest} (hs : Intact sealWith calls s) (hhealthy : s.poisoned ledger = false)
    (hservice : service.Available) (hwriter : s.writer = none)
    (hcurrent : s.anchor.sequence = s.database.events.length)
    (hrequest : requireId request.requestId "approval ledger request ID" = .ok ())
    (hoperation : requireId request.operationKey "approval ledger operation key" = .ok ())
    (hfollows : Follows sealWith s expectedHead request) (hhealth : meets .healthy s)
    (hbegins : meets .begin s) (hreads : meets .readAnchor { s with writer := some i })
    (hcommits : meets .commit { s with writer := some i }) :
    ∃ written replacement, (∃ events, Chained sealWith written events) ∧
      Written sealWith expectedHead request s.database written s.anchor replacement ∧
      (appendSteps service ledger sealWith i expectedHead request).Comes meets s
        (advanceExternalAnchor service ledger s.anchor replacement >>= fun _ =>
          pure replacement.digest) (commitWork i written { s with writer := some i }) := by
  obtain ⟨events, hchained⟩ := hs.chained
  obtain ⟨hsequence, hdigest⟩ := hs.state_eq
  have hhead : s.anchor.digest = s.database.head := by
    have hnamed := hs.named
    unfold LedgerDatabase.Names at hnamed
    rw [hcurrent] at hnamed
    exact Linked.named_head hnamed
  -- the event that is written, and the anchor that names it
  let event := request.event sealWith (s.database.events.length + 1) expectedHead
  have hunused : event.sequence ∉ s.database.events.map (·.sequence) := by
    rw [hchained.sequences, List.mem_range'_1]
    show ¬ (1 ≤ s.database.events.length + 1 ∧
      s.database.events.length + 1 < 1 + s.database.events.length)
    omega
  have hunique : event.eventDigest ∉ s.database.events.map (·.eventDigest) :=
    fun hmem => hfollows.fresh (List.mem_cons_of_mem _ hmem)
  have hnotZero : event.eventDigest ≠ zeroDigest := fun hzero =>
    hfollows.fresh (List.mem_cons.mpr (Or.inl hzero))
  obtain ⟨written, hwritten⟩ : ∃ written, insertEvent sealWith s.database event = .ok written :=
    ⟨_, insertEvent_ok.mpr ⟨⟨hfollows.room, hfollows.generation.2⟩, hunused, hunique, rfl⟩⟩
  let replacement : ApprovalLedgerAnchor := ⟨event.sequence, event.eventDigest, hfollows.digest,
    iff_of_false (Nat.succ_ne_zero _) hnotZero⟩
  have hprevious : ApprovalLedgerAnchor.make s.database.state.lastSequence
      s.database.state.lastEventDigest = .ok s.anchor :=
    ApprovalLedgerAnchor.make_ok.mpr ⟨hcurrent.trans hsequence.symm, hhead.trans hdigest.symm⟩
  have hreplacement : ApprovalLedgerAnchor.make event.sequence event.eventDigest =
      .ok replacement := ApprovalLedgerAnchor.make_ok.mpr ⟨rfl, rfl⟩
  have htime : ∀ at' ∈ events.getLast?.map ApprovalLedgerEvent.occurredAt,
      ¬ request.occurredAt < at' := by
    refine fun at' hat => hfollows.time at' ?_
    rw [hchained.lastAt_eq, Option.mem_def.mp hat]
  have hwrites := writes_on hchained hfollows.generation.1 hfollows.canonical hfollows.expected
    hprevious htime (by rw [hsequence]; exact hwritten) (by rw [hsequence]; exact hreplacement)
  have hlocked : (appendLocked service ledger sealWith expectedHead request s.database).Comes meets
      { s with writer := some i } (.done (.ok (written, s.anchor, replacement)))
      { s with writer := some i } := by
    have hstate := hchained.verifiesState
    rw [← hsequence, ← hdigest] at hstate
    have hverified : (verifyExternalAnchor service ledger s.anchor : LedgerSteps ι κ Unit).Comes
        meets { s with writer := some i } (.done (.ok ())) { s with writer := some i } := by
      unfold verifyExternalAnchor
      refine ((readExternalAnchor_comes hservice hreads).bind _).trans ?_
      rw [Steps.done_ok_bind, if_pos rfl]
      exact .here
    unfold appendLocked
    rw [hchained.lastAt_eq, Steps.check_ok_bind, hstate, Steps.check_ok_bind,
      Steps.check_require_bind hfollows.expected, hprevious, Steps.check_ok_bind]
    refine (hverified.bind _).trans ?_
    rw [Steps.done_ok_bind, Steps.check_require_bind htime, hsequence]
    dsimp only
    rw [hwritten, Steps.check_ok_bind, hreplacement, Steps.check_ok_bind]
    exact .here
  have hbegin := beginImmediate_run i s
  rw [if_pos hwriter] at hbegin
  refine ⟨written, replacement, hwrites.1, hwrites.2, ?_⟩
  unfold appendSteps
  refine ((requireHealthy_comes hhealthy hhealth).bind _).trans ?_
  rw [Steps.done_ok_bind, hrequest, Steps.check_ok_bind, hoperation, Steps.check_ok_bind,
    Steps.check_require_bind hfollows.generation.1, Steps.check_require_bind hfollows.canonical]
  refine .atomic_bind hbegins hbegin (((hlocked.handling _).bind _).trans ?_)
  exact .atomic_bind (b := ()) hcommits rfl .here

/-- **An append that runs alone on a ledger whose anchor is at the head succeeds, and brings it to
the new head.** -/
theorem Intact.appends [DecidableEq ι] [UnicodeData] {i : ι} {expectedHead : String}
    {request : EventRequest} (hs : Intact sealWith calls s) (hhealthy : s.poisoned ledger = false)
    (hservice : service.Available) (hwriter : s.writer = none)
    (hcurrent : s.anchor.sequence = s.database.events.length)
    (hrequest : requireId request.requestId "approval ledger request ID" = .ok ())
    (hoperation : requireId request.operationKey "approval ledger operation key" = .ok ())
    (hfollows : Follows sealWith s expectedHead request) :
    ∃ digest s', (appendSteps service ledger sealWith i expectedHead request).alone.run s =
        (.ok digest, s') ∧
      s'.anchor.sequence = s.database.events.length + 1 ∧ s'.poisoned = s.poisoned := by
  obtain ⟨written, replacement, -, hwritten, hcomes⟩ :=
    @Intact.append_comes ι κ _ s service ledger (fun _ _ => True) _ sealWith calls _ _ i
      expectedHead request hs hhealthy hservice hwriter hcurrent hrequest hoperation hfollows
      trivial trivial trivial trivial
  have hadvance := @advance_comes ι κ _ (commitWork i written { s with writer := some i }) service
    ledger s.anchor replacement (fun _ _ => True) hservice trivial rfl
  refine ⟨replacement.digest, { commitWork i written { s with writer := some i } with
    anchor := replacement }, ?_, hwritten.replacement.1, rfl⟩
  rw [hcomes.alone, (hadvance.bind _).alone]
  rfl

end Alone

/-! ### Runs -/

section Runs

variable {ι κ : Type} [DecidableEq ι] [DecidableEq κ] [UnicodeData] [Hashing] (sealWith : Seal)

/-- The steps of the call `i`. -/
def callSteps (i : ι) : LedgerCall κ → LedgerSteps ι κ Unit
  | .load service ledger => do
      let _ ← loadSteps service ledger sealWith
      return ()
  | .confirm service ledger verifiedEvents expectedHead lastAt => do
      confirmSteps service ledger sealWith verifiedEvents expectedHead lastAt
      return ()
  | .append service ledger expectedHead request => do
      let _ ← appendSteps service ledger sealWith i expectedHead request
      return ()

/-- The calls `calls` on a ledger that was just initialized, before any has taken a step. -/
def begun (calls : ι → LedgerCall κ) :
    Parties ι LedgerPlace (LedgerShared ι κ) LedgerFailure Unit where
  shared := ⟨initialDatabase sealWith, .zero, fun _ => false, none, []⟩
  programs i := some (callSteps sealWith i (calls i))

/-- What is shared after some turns, whoever takes the next step and whoever stops for good. -/
def ledgerAfter (calls : ι → LedgerCall κ) (turns : List (Turn ι)) : LedgerShared ι κ :=
  (Evleda.replay (Parties.after giveUp) (begun sealWith calls) turns).shared

variable {sealWith} {calls : ι → LedgerCall κ}

omit [DecidableEq ι] [DecidableEq κ] [UnicodeData] in
theorem initial_intact (calls : ι → LedgerCall κ) :
    Intact sealWith calls ⟨initialDatabase sealWith, .zero, fun _ => false, none, []⟩ :=
  ⟨⟨[], initial_chained⟩, List.nodup_singleton _, ⟨.zero, rfl, rfl⟩, rfl, .nil⟩

theorem begun_safely (calls : ι → LedgerCall κ) :
    Parties.Safely (Relies sealWith calls) (Guarantees sealWith calls) (fun _ _ _ => True)
      (fun _ _ _ => True) (begun sealWith calls) := by
  intro i x hx
  obtain rfl := Option.some.inj hx
  have hdone : ∀ m, LedgerSafe sealWith calls i (fun _ _ => True)
      (pure () : LedgerSteps ι κ Unit) m := fun _ _ _ => trivial
  have hfails : ∀ (e : LedgerFailure) (m : LedgerShared ι κ), True := fun _ _ => trivial
  cases hcall : calls i with
  | load service ledger => exact load_bind_safe hfails fun _ => hdone
  | confirm service ledger verifiedEvents expectedHead lastAt =>
      exact confirm_bind_safe hfails hdone (initial_intact calls)
  | append service ledger expectedHead request =>
      exact append_bind_safe hfails (fun _ => hdone) hcall (initial_intact calls)

/-- From one state to a later one, an intact ledger stays intact and only grows. -/
def Kept (sealWith : Seal) (calls : ι → LedgerCall κ) (s s' : LedgerShared ι κ) : Prop :=
  (Intact sealWith calls s → Intact sealWith calls s') ∧ Grown s s'

omit [DecidableEq κ] [UnicodeData] in
theorem safely_kept {c : Parties ι LedgerPlace (LedgerShared ι κ) LedgerFailure Unit}
    (h : c.Safely (Relies sealWith calls) (Guarantees sealWith calls) (fun _ _ _ => True)
      (fun _ _ _ => True)) (turns : List (Turn ι)) :
    (Evleda.replay (Parties.after giveUp) c turns).Safely (Relies sealWith calls)
        (Guarantees sealWith calls) (fun _ _ _ => True) (fun _ _ _ => True) ∧
      Kept sealWith calls c.shared (Evleda.replay (Parties.after giveUp) c turns).shared := by
  refine h.reaches (agreed sealWith calls) (fun s => ⟨id, Grown.refl s⟩)
    (fun _ _ _ h h' => ⟨h'.1 ∘ h.1, h.2.trans h'.2⟩)
    (fun _ _ _ hstep => ⟨hstep.intact, hstep.grown⟩) (fun i s => ?_) turns
  unfold giveUp
  split
  · exact ⟨fun h => ⟨h.chained, h.distinct, h.head, h.named, h.recorded⟩, List.prefix_rfl,
      Nat.le_refl _⟩
  · exact ⟨id, Grown.refl s⟩

theorem ledgerAfter_intact (calls : ι → LedgerCall κ) (before after : List (Turn ι)) :
    Intact sealWith calls (ledgerAfter sealWith calls before) ∧
      Grown (ledgerAfter sealWith calls before) (ledgerAfter sealWith calls (before ++ after)) := by
  obtain ⟨hsafely, hbefore⟩ := safely_kept (begun_safely calls) before
  refine ⟨hbefore.1 (initial_intact calls), ?_⟩
  unfold ledgerAfter
  rw [Replay.append]
  exact (safely_kept hsafely after).2.2

omit [DecidableEq ι] [DecidableEq κ] [UnicodeData] in
theorem Intact.committed_once {s : LedgerShared ι κ} (h : Intact sealWith calls s) {i j : ι}
    {service service' : AnchorService} {ledger ledger' : κ}
    {request request' : EventRequest} (hi : i ∈ s.commits) (hj : j ∈ s.commits)
    (hcall : calls i = .append service ledger expectedHead request)
    (hcall' : calls j = .append service' ledger' expectedHead request') : i = j := by
  obtain ⟨events, hchained⟩ := h.chained
  have hprevious := Linked.previous_nodup hchained.linked h.distinct
  have hlength := h.recorded.length_eq
  have hnames : ∀ {k service ledger request} (hk : k < s.commits.length)
      (hk' : k < s.database.events.length),
      calls s.commits[k] = .append service ledger expectedHead request →
      s.database.events[k].previousEventDigest = expectedHead := by
    intro k service ledger request hk hk' hcall
    obtain ⟨_, _, _, _, hcall', hrow⟩ := h.recorded.get hk' hk
    rw [List.get_eq_getElem, hcall] at hcall'
    cases hcall'
    exact congrArg EventRow.previousEventDigest hrow
  obtain ⟨a, ha, rfl⟩ := List.mem_iff_getElem.mp hi
  obtain ⟨b, hb, rfl⟩ := List.mem_iff_getElem.mp hj
  have ha' : a < s.database.events.length := by omega
  have hb' : b < s.database.events.length := by omega
  have hsame : (s.database.events.map (·.previousEventDigest))[a]? =
      (s.database.events.map (·.previousEventDigest))[b]? := by
    rw [List.getElem?_map, List.getElem?_map, List.getElem?_eq_getElem ha',
      List.getElem?_eq_getElem hb', Option.map_some, Option.map_some, hnames ha ha' hcall,
      hnames hb hb' hcall']
  have hab : a = b := by
    refine (List.getElem?_inj ?_ hprevious).mp hsame
    rw [List.length_map]
    exact ha'
  subst hab
  rfl

/-- **The ledger is a sealed chain, and the anchor follows it, whatever calls interleave and
whichever of them stop.**  No two appends that expect the same head are committed, the anchor names
a prefix of the chain and does not go back, and a load and a confirmation that then run alone, on an
object that is not poisoned, succeed and bring it to the head. -/
theorem ledger_follows_chain (sealWith : Seal) (calls : ι → LedgerCall κ)
    (before after : List (Turn ι)) :
    (∃ events, Chained sealWith (ledgerAfter sealWith calls before).database events) ∧
    List.Forall₂ (fun row i => Appends sealWith (calls i) row)
      (ledgerAfter sealWith calls before).database.events
      (ledgerAfter sealWith calls before).commits ∧
    (∀ i ∈ (ledgerAfter sealWith calls before).commits,
      ∀ j ∈ (ledgerAfter sealWith calls before).commits,
      ∀ service service' ledger ledger' expectedHead request request',
        calls i = .append service ledger expectedHead request →
        calls j = .append service' ledger' expectedHead request' → i = j) ∧
    (ledgerAfter sealWith calls before).database.Names
      (ledgerAfter sealWith calls before).anchor ∧
    (ledgerAfter sealWith calls before).anchor.sequence ≤
      (ledgerAfter sealWith calls (before ++ after)).anchor.sequence ∧
    ∀ service ledger, service.Available →
      (ledgerAfter sealWith calls before).poisoned ledger = false →
      ∃ events head lastAt s',
        (loadSteps service ledger sealWith).alone.run (ledgerAfter sealWith calls before) =
          (.ok (events, head, lastAt), ledgerAfter sealWith calls before) ∧
        (confirmSteps service ledger sealWith events head lastAt).alone.run
          (ledgerAfter sealWith calls before) = (.ok (), s') ∧
        s'.database = (ledgerAfter sealWith calls before).database ∧
        s'.anchor.sequence = s'.database.events.length ∧ s'.anchor.digest = s'.database.head := by
  obtain ⟨h, hgrown⟩ := @ledgerAfter_intact _ _ _ _ _ _ sealWith calls before after
  refine ⟨h.chained, h.recorded, ?_, h.named, hgrown.anchor, ?_⟩
  · intro i hi j hj service service' ledger ledger' expectedHead request request' hcall hcall'
    exact h.committed_once hi hj hcall hcall'
  · intro service ledger hservice hhealthy
    obtain ⟨events, lastAt, s', hload, hconfirm, hrest⟩ := h.recovers hhealthy hservice
    exact ⟨events, _, lastAt, s', hload, hconfirm, hrest⟩

/-! ### An object that is poisoned -/

variable {α : Type} {c : Parties ι LedgerPlace (LedgerShared ι κ) LedgerFailure α} {i : ι}
  {service : AnchorService} {ledger : κ}

omit [UnicodeData] [Hashing] in
/-- A load that finds the anchor past what it has seen poisons its object. -/
theorem ahead_poisons {events : List ApprovalLedgerEvent} {head : ApprovalLedgerAnchor}
    {f : ApprovalLedgerAnchor → LedgerSteps ι κ α}
    (hprogram : c.programs i = some
      (requireRecoverableExternalAnchor service ledger events head >>= f))
    (hreads : service.reads = true) (hahead : head.sequence < c.shared.anchor.sequence) :
    (Evleda.replay (Parties.after giveUp) c [.step i, .step i]).shared.poisoned ledger = true := by
  have hother : c.shared.anchor ≠ head := fun hsame => by
    rw [hsame] at hahead
    exact absurd hahead (Nat.lt_irrefl _)
  unfold requireRecoverableExternalAnchor readExternalAnchor at hprogram
  rw [if_pos hreads] at hprogram
  simp only [Steps.bind_assoc] at hprogram
  rw [Replay.cons (Parties.after_read giveUp hprogram), if_neg hother, if_pos hahead,
    Replay.cons (Parties.after_step giveUp (Function.update_self ..))]
  exact Function.update_self ..

omit [DecidableEq ι] [UnicodeData] in
theorem poisoned_refuses {s : LedgerShared ι κ} (h : s.poisoned ledger = true) :
    (loadSteps service ledger sealWith).alone.run s = (.error poisonedError, s) := by
  have hrefused : require (s.poisoned ledger = false) poisonedError = .error poisonedError :=
    require_error.mpr ⟨by rw [h]; decide, rfl⟩
  unfold loadSteps requireHealthy
  rw [Steps.bind_assoc, Steps.alone_bind, Steps.alone_atomic, run_read_bind, hrefused]
  rfl

end Runs

/-! ### A load that races with an append -/

section Race

attribute [local instance] Kernel.asciiData

@[reducible] def oneHashing : Hashing := Hashing.listedOr [] (Kernel.plainDigest 'a')

attribute [local instance] oneHashing

/-- A store that can be reached, and that raises when it is asked for a swap from an anchor that is
not there. -/
def raisingService : AnchorService := ⟨true, true, true, fun _ => none⟩

def plainSeal : Seal := fun _ _ => Kernel.plainDigest 's'

def firstRequest : EventRequest :=
  ⟨"request-1", Kernel.plainDigest 'b', "operation-1", "requested", 0, ⟨0, Text.zero_inRange⟩, "null"⟩

/-- One process loads while another appends. -/
def racedCalls : Bool → LedgerCall Bool
  | false => .load raisingService false
  | true => .append raisingService true zeroDigest firstRequest

theorem firstRequest_follows : Follows plainSeal
    (begun plainSeal racedCalls).shared zeroDigest firstRequest where
  expected := rfl
  generation := by decide
  canonical := by decide
  time at' h := by
    have hnone : decodeOptionalTime (initialDatabase plainSeal).state.lastOccurredAt =
        .ok none := rfl
    have hboth := hnone.symm.trans h
    cases hboth
  room := by decide
  digest := by decide
  fresh := by decide

/-- A load looks at an empty ledger, an append is done before it goes on, and then it finds the
anchor past what it has seen. -/
theorem raced_load_poisons {α : Type} {c : Parties Bool LedgerPlace (LedgerShared Bool Bool)
      LedgerFailure α} {f : List ApprovalLedgerEvent × String × Option DateTime →
        LedgerSteps Bool Bool α} {g : String → LedgerSteps Bool Bool α}
    (hshared : c.shared = (begun plainSeal racedCalls).shared)
    (hload : c.programs false = some (loadSteps raisingService false plainSeal >>= f))
    (happend : c.programs true =
      some (appendSteps raisingService true plainSeal true zeroDigest firstRequest >>= g))
    (hg : ∀ digest, ∃ b, ∀ s, (g digest).alone.run s = (.ok b, s)) :
    ∃ turns : List (Turn Bool), (∀ i, .crash i ∉ turns) ∧
      (Evleda.replay (Parties.after giveUp) c turns).shared.poisoned false = true := by
  have hintact : Intact plainSeal racedCalls c.shared := by
    rw [hshared]
    exact initial_intact racedCalls
  obtain ⟨events, head, lastAt, hchained, -, hmade, hloads⟩ :=
    @Intact.load_comes Bool Bool _ c.shared raisingService false (fun _ _ => True) _ plainSeal
      racedCalls hintact (by rw [hshared]; rfl) trivial trivial
  have hsequence := (ApprovalLedgerAnchor.make_ok.mp hmade).1
  rw [hchained.length_eq] at hsequence
  obtain ⟨k, hlooks, -⟩ := Parties.turns_of_comes giveUp (fun _ _ _ => True) hload (hloads.bind f)
  obtain ⟨digest, s', hreturns, hanchor, -⟩ := @Intact.appends Bool Bool _
    (begun plainSeal racedCalls).shared raisingService true _ plainSeal racedCalls _ _ true
    zeroDigest firstRequest (initial_intact racedCalls) rfl ⟨rfl, rfl, rfl⟩ rfl rfl rfl rfl
    firstRequest_follows
  obtain ⟨n, hn⟩ := Parties.replay_alone giveUp (i := true)
    (appendSteps raisingService true plainSeal true zeroDigest firstRequest >>= g)
    (Evleda.replay (Parties.after giveUp) c (List.replicate k (.step false)))
    (by rw [hlooks]; exact happend)
  obtain ⟨b, hb⟩ := hg digest
  have halone : (appendSteps raisingService true plainSeal true zeroDigest firstRequest >>=
      g).alone.run c.shared = (.ok b, s') := by
    rw [hshared, Steps.alone_bind]
    exact bind_returns.mpr ⟨digest, s', hreturns, hb s'⟩
  rw [hlooks] at hn
  dsimp only at hn
  rw [halone] at hn
  refine ⟨List.replicate k (.step false) ++ List.replicate n (.step true) ++
    [.step false, .step false], ?_, ?_⟩
  · intro i hmem
    simp at hmem
  · rw [Replay.append, Replay.append, hlooks, hn]
    refine @ahead_poisons Bool Bool _ _ _ _ false raisingService false events head
      (fun _ => f (events, c.shared.database.head, lastAt)) ?_ rfl ?_
    · dsimp only
      rw [Function.update_of_ne Bool.false_ne_true, Function.update_self, Steps.bind_assoc]
      rfl
    · show head.sequence < s'.anchor.sequence
      rw [hsequence, hanchor, hshared]
      exact Nat.lt_succ_self _

/-- **Nobody stops and nothing is tampered with, and yet a load that then runs alone is refused**:
it is asked of an object whose earlier load had found the anchor past the database it had seen. -/
theorem raced_load_refused : ∃ turns : List (Turn Bool), (∀ i, .crash i ∉ turns) ∧
    ((loadSteps raisingService false plainSeal).alone.run
      (ledgerAfter plainSeal racedCalls turns)).1 = .error poisonedError := by
  obtain ⟨turns, hcrash, hpoisoned⟩ := @raced_load_poisons Unit (begun plainSeal racedCalls) _ _ rfl
    rfl rfl fun _ => ⟨(), fun _ => rfl⟩
  refine ⟨turns, hcrash, ?_⟩
  unfold ledgerAfter
  rw [poisoned_refuses hpoisoned]

end Race

end Evleda.ImportApproval
