/-
When an innocent ledger is poisoned, and when it is not.

A call reads the chain at one moment and the anchor at another, and swaps the
anchor at a third.  Another call may move the anchor in between.  An object that
then finds it past what it has seen takes that for tampering, and is poisoned; so
is one that appends while the anchor has still to follow an earlier append.

Here a schedule is watched: each call remembers the state in which it last stood at
a place.  As long as no step finds the anchor moved since its call looked, nobody is
poisoned, and what was committed is returned.
-/
import Evleda.ImportApproval.LedgerRuns
import Evleda.Lib.Remembering

namespace Evleda.ImportApproval

open Effect Outcome Function

/-- What a call on a ledger returns. -/
inductive LedgerAnswer
  | loaded (events : List ApprovalLedgerEvent) (head : String) (lastAt : Option DateTime)
  | confirmed
  | appended (digest : String)

def LedgerCall.service {κ : Type} : LedgerCall κ → AnchorService
  | .load service _ => service
  | .confirm service _ _ _ _ => service
  | .append service _ _ _ => service

section Answers

variable {ι κ : Type} [DecidableEq ι] [DecidableEq κ] [UnicodeData] [Hashing] (sealWith : Seal)

/-- The steps of the call `i`, with what it returns. -/
def answerSteps (i : ι) : LedgerCall κ → LedgerSteps ι κ LedgerAnswer
  | .load service ledger => do
      let (events, head, lastAt) ← loadSteps service ledger sealWith
      return .loaded events head lastAt
  | .confirm service ledger verifiedEvents expectedHead lastAt => do
      confirmSteps service ledger sealWith verifiedEvents expectedHead lastAt
      return .confirmed
  | .append service ledger expectedHead request => do
      let digest ← appendSteps service ledger sealWith i expectedHead request
      return .appended digest

/-- The calls `calls` on a ledger that was just initialized, before any has taken a step. -/
def asked (calls : ι → LedgerCall κ) :
    Parties ι LedgerPlace (LedgerShared ι κ) LedgerFailure LedgerAnswer where
  shared := ⟨initialDatabase sealWith, .zero, fun _ => false, none, []⟩
  programs i := some (answerSteps sealWith i (calls i))

def askedAfter (calls : ι → LedgerCall κ) (turns : List (Turn ι)) :
    Parties ι LedgerPlace (LedgerShared ι κ) LedgerFailure LedgerAnswer :=
  Evleda.replay (Parties.after giveUp) (asked sealWith calls) turns

end Answers

/-! ### What disturbs a call -/

section Disturbance

variable {ι κ : Type}

/-- What is shared, with what each call has seen. -/
abbrev LedgerWatched (ι κ : Type) := Remembered ι LedgerPlace (LedgerShared ι κ)

/-- A swap finds the anchor that its call has read, or the store answers it with an anchor that
names the head, of this number, that the call swaps to. -/
def SwapsTo (service : AnchorService) (anchor : ApprovalLedgerAnchor) (sequence : Nat)
    (s : LedgerShared ι κ) : Prop :=
  s.anchor = anchor ∨ ∃ answer, service.refuses s.anchor = some answer ∧
    answer.sequence = sequence ∧ s.database.Names answer

/-- The step at the place finds the anchor where its call needs it to be: a load or a confirmation,
not past the chain that it has read, and a confirmation, if not at the head, at an event that it
confirms; an append, at the head that it goes on from; and a swap, where the call has read it. -/
def Undisturbed (calls : ι → LedgerCall κ) (i : ι) (place : LedgerPlace) (s : LedgerWatched ι κ) :
    Prop :=
  match calls i with
  | .load _ _ => place = .readAnchor →
      ∀ t ∈ s.seen i .snapshot, s.now.anchor.sequence ≤ t.database.events.length
  | .confirm service _ verifiedEvents _ _ =>
      (place = .readAnchor → ∀ t ∈ s.seen i .snapshot,
        s.now.anchor.sequence ≤ t.database.events.length ∧
        (s.now.anchor.sequence < t.database.events.length →
          (heads (·.eventDigest) zeroDigest verifiedEvents)[s.now.anchor.sequence]? =
            some s.now.anchor.digest)) ∧
      (place = .swapAnchor → ∀ t ∈ s.seen i .snapshot, ∀ u ∈ s.seen i .readAnchor,
        SwapsTo service u.anchor t.database.events.length s.now)
  | .append service _ _ _ =>
      (place = .readAnchor →
        ∀ t ∈ s.seen i .begin, s.now.anchor.sequence = t.database.events.length) ∧
      (place = .swapAnchor → ∀ t ∈ s.seen i .begin, ∀ u ∈ s.seen i .readAnchor,
        SwapsTo service u.anchor (t.database.events.length + 1) s.now)

end Disturbance

section Watched

variable {ι κ : Type} [Hashing] {sealWith : Seal} {calls : ι → LedgerCall κ}

/-- What the call `i` relies on when the others take steps: none of them poisons an object. -/
structure Trusts (sealWith : Seal) (calls : ι → LedgerCall κ) (i : ι) (s s' : LedgerWatched ι κ) :
    Prop where
  relies : Relies sealWith calls i s.now s'.now
  seen : s'.seen i = s.seen i
  poisoned : s'.now.poisoned = s.now.poisoned
  commits : i ∈ s'.now.commits → i ∈ s.now.commits

/-- What the call `i` guarantees with its steps. -/
structure Honours (sealWith : Seal) (calls : ι → LedgerCall κ) (i : ι) (s s' : LedgerWatched ι κ) :
    Prop where
  guarantees : Guarantees sealWith calls i s.now s'.now
  seen : ∀ j, i ≠ j → s'.seen j = s.seen j
  poisoned : s'.now.poisoned = s.now.poisoned
  commits : ∀ j, i ≠ j → j ∈ s'.now.commits → j ∈ s.now.commits

theorem Trusts.refl (i : ι) (s : LedgerWatched ι κ) : Trusts sealWith calls i s s :=
  ⟨Relies.refl i _, rfl, rfl, id⟩

theorem Trusts.trans {i : ι} {s m s' : LedgerWatched ι κ} (h : Trusts sealWith calls i s m)
    (h' : Trusts sealWith calls i m s') : Trusts sealWith calls i s s' :=
  ⟨h.relies.trans h'.relies, h'.seen.trans h.seen, h'.poisoned.trans h.poisoned,
    h.commits ∘ h'.commits⟩

theorem trusted [DecidableEq ι] (sealWith : Seal) (calls : ι → LedgerCall κ) :
    Parties.Agreed (Parties.releasing (π := LedgerPlace) (giveUp (ι := ι)))
      (Trusts sealWith calls) (Honours sealWith calls) where
  refl := Trusts.refl
  trans _ _ _ _ h h' := h.trans h'
  others i j s s' hij h :=
    ⟨(agreed sealWith calls).others i j _ _ hij h.guarantees, h.seen j hij, h.poisoned,
      h.commits j hij⟩
  released i j s hij := by
    refine ⟨(agreed sealWith calls).released i j _ hij, rfl, ?_, ?_⟩
    · unfold Parties.releasing giveUp
      dsimp only
      split <;> rfl
    · unfold Parties.releasing giveUp
      dsimp only
      split <;> exact id

theorem Honours.moved [DecidableEq ι] {i : ι} {place : LedgerPlace} {s' : LedgerShared ι κ}
    {s : LedgerWatched ι κ} (h : Guarantees sealWith calls i s.now s')
    (hpoisoned : s'.poisoned = s.now.poisoned)
    (hcommits : ∀ j, i ≠ j → j ∈ s'.commits → j ∈ s.now.commits) :
    Honours sealWith calls i s (s.moved i place s') :=
  ⟨h, fun _ hij => Remembered.moved_seen_others (Ne.symm hij), hpoisoned, hcommits⟩

theorem Honours.looked [DecidableEq ι] {i : ι} {place : LedgerPlace} (s : LedgerWatched ι κ) :
    Honours sealWith calls i s (s.moved i place s.now) :=
  .moved (Guarantees.refl i _) rfl fun _ _ => id

variable [DecidableEq ι] {α β : Type} {i : ι} {s t : LedgerWatched ι κ} {service : AnchorService}
  {ledger : κ} {post : Except LedgerFailure α → LedgerWatched ι κ → Prop}
  {expected replacement databaseHead : ApprovalLedgerAnchor}
  {verifiedEvents : List ApprovalLedgerEvent}

/-- A call that is not disturbed honours what it guarantees, and its result is as `post` says. -/
def LedgerWatch (sealWith : Seal) (calls : ι → LedgerCall κ) (i : ι)
    (post : Except LedgerFailure α → LedgerWatched ι κ → Prop) (x : LedgerSteps ι κ α)
    (s : LedgerWatched ι κ) : Prop :=
  x.Guarded i (Trusts sealWith calls i) (Honours sealWith calls i) (Undisturbed calls i) post s

/-- Before it commits, a call may raise. -/
def Raises (i : ι) (post : Except LedgerFailure α → LedgerWatched ι κ → Prop) : Prop :=
  ∀ e m, i ∉ m.now.commits → post (.error e) m

omit [Hashing] [DecidableEq ι] in
theorem Raises.later [Hashing] (h : Raises i post) (hout : i ∉ s.now.commits) {e : LedgerFailure}
    {m : LedgerWatched ι κ} (hm : Trusts sealWith calls i s m) : post (.error e) m :=
  h e m fun hin => hout (hm.commits hin)

theorem check_watch {y : Except LedgerFailure β} {f : β → LedgerSteps ι κ α}
    (hraises : Raises i post) (hout : i ∉ s.now.commits)
    (h : ∀ b, y = .ok b → LedgerWatch sealWith calls i post (f b) s) :
    LedgerWatch sealWith calls i post (.check y >>= f) s :=
  .check_bind h fun _ _ _ hm => hraises.later hout hm

theorem look_watch {place : LedgerPlace} {g : LedgerShared ι κ → β} {f : β → LedgerSteps ι κ α}
    (h : ∀ m, Trusts sealWith calls i s m → Undisturbed calls i place m →
      LedgerWatch sealWith calls i post (f (g m.now)) (m.moved i place m.now)) :
    LedgerWatch sealWith calls i post (.atomic place (read g) >>= f) s :=
  .read_bind fun m hm hmeets => ⟨.looked m, h m hm hmeets⟩

variable [DecidableEq κ]

omit [DecidableEq κ] in
theorem requireHealthy_watch {f : Unit → LedgerSteps ι κ α} (hraises : Raises i post)
    (hout : i ∉ s.now.commits)
    (h : ∀ m, Trusts sealWith calls i s m →
      LedgerWatch sealWith calls i post (f ()) (m.moved i .healthy m.now)) :
    LedgerWatch sealWith calls i post (requireHealthy ledger >>= f) s := by
  unfold requireHealthy
  rw [Steps.bind_assoc]
  refine look_watch fun m hm _ => ?_
  exact check_watch hraises (fun hin => hout (hm.commits hin)) fun _ _ => h m hm

theorem readExternalAnchor_watch {f : ApprovalLedgerAnchor → LedgerSteps ι κ α}
    (hservice : service.Available)
    (h : ∀ m, Trusts sealWith calls i s m → Undisturbed calls i .readAnchor m →
      LedgerWatch sealWith calls i post (f m.now.anchor) (m.moved i .readAnchor m.now)) :
    LedgerWatch sealWith calls i post (readExternalAnchor service ledger >>= f) s := by
  unfold readExternalAnchor
  rw [if_pos hservice.1]
  exact look_watch h

omit [Hashing] [DecidableEq ι] [DecidableEq κ] in
theorem same_anchor {db : LedgerDatabase} {a b : ApprovalLedgerAnchor} (ha : db.Names a)
    (hb : db.Names b) (hsequence : a.sequence = b.sequence) : a = b := by
  unfold LedgerDatabase.Names at ha hb
  rw [hsequence, hb, Option.some.injEq] at ha
  exact ApprovalLedgerAnchor.ext hsequence ha.symm

theorem requireRecoverable_watch {f : ApprovalLedgerAnchor → LedgerSteps ι κ α}
    (hservice : service.Available) (hs : Intact sealWith calls s.now)
    (hnamed : s.now.database.Names databaseHead)
    (hfound : ∀ m, Trusts sealWith calls i s m → Undisturbed calls i .readAnchor m →
      m.now.anchor.sequence ≤ databaseHead.sequence ∧
      (m.now.anchor.sequence < databaseHead.sequence →
        (heads (·.eventDigest) zeroDigest verifiedEvents)[m.now.anchor.sequence]? =
          some m.now.anchor.digest))
    (h : ∀ m, Trusts sealWith calls i s m → m.now.anchor.sequence ≤ databaseHead.sequence →
      LedgerWatch sealWith calls i post (f m.now.anchor) (m.moved i .readAnchor m.now)) :
    LedgerWatch sealWith calls i post
      (requireRecoverableExternalAnchor service ledger verifiedEvents databaseHead >>= f) s := by
  unfold requireRecoverableExternalAnchor
  rw [Steps.bind_assoc]
  refine readExternalAnchor_watch hservice fun m hm hmeets => ?_
  have hintact := hm.relies.intact hs
  obtain ⟨hle, hverified⟩ := hfound m hm hmeets
  have hrest := h m hm hle
  split
  · exact hrest
  · rename_i hother
    have hlt : m.now.anchor.sequence < databaseHead.sequence := by
      refine lt_of_le_of_ne hle fun hsame => hother ?_
      exact same_anchor hintact.named (hm.relies.grown.names hnamed) hsame
    rw [if_neg (Nat.not_lt.mpr hle), if_pos (hverified hlt)]
    exact hrest

/-- A swap that is not disturbed is made, or was made by another. -/
theorem advance_watch {f : Unit → LedgerSteps ι κ α} (hservice : service.Available)
    (hnamed : s.now.database.Names replacement) (hle : expected.sequence ≤ replacement.sequence)
    (hswaps : ∀ m, Trusts sealWith calls i s m → Undisturbed calls i .swapAnchor m →
      SwapsTo service expected replacement.sequence m.now)
    (h : ∀ m m', Trusts sealWith calls i s m → m'.now.database = m.now.database →
      m'.now.commits = m.now.commits → LedgerWatch sealWith calls i post (f ()) m') :
    LedgerWatch sealWith calls i post
      (advanceExternalAnchor service ledger expected replacement >>= f) s := by
  unfold advanceExternalAnchor
  rw [Steps.bind_assoc]
  refine .atomic_bind fun m hm hmeets => ?_
  have hnames := hm.relies.grown.names hnamed
  have hguarantees := @compareAndSwap_guarantees _ _ _ sealWith calls i m.now service expected _
    hnames hle
  -- what the swap answers, and what it leaves
  have hanswer : ∃ s', (compareAndSwapAnchor service expected replacement).run m.now =
      (.ok (some replacement), s') ∧ s'.database = m.now.database ∧
        s'.poisoned = m.now.poisoned ∧ s'.commits = m.now.commits := by
    unfold compareAndSwapAnchor
    rw [run_read_bind, if_pos hservice.2.1]
    by_cases hcurrent : m.now.anchor = expected
    · rw [if_pos hcurrent, run_write_bind, if_pos hservice.2.2]
      exact ⟨_, rfl, rfl, rfl, rfl⟩
    · obtain ⟨answer, hrefuses, hnumber, hanswers⟩ := (hswaps m hm hmeets).resolve_left hcurrent
      have hsame := same_anchor hanswers hnames hnumber
      rw [if_neg hcurrent, hrefuses, hsame]
      exact ⟨_, rfl, rfl, rfl, rfl⟩
  obtain ⟨s', hrun, hdatabase, hpoisoned, hcommits⟩ := hanswer
  rw [hrun] at hguarantees ⊢
  refine ⟨.moved hguarantees hpoisoned fun _ _ hj => hcommits ▸ hj, ?_, fun _ _ he => ?_⟩
  · intro answer hok
    rw [Except.ok.injEq] at hok
    subst hok
    dsimp only
    rw [if_pos rfl]
    exact h m _ hm hdatabase hcommits
  · cases he

/-! ### The calls -/

theorem load_watch {f : List ApprovalLedgerEvent × String × Option DateTime → LedgerSteps ι κ α}
    (hservice : service.Available) (hcall : calls i = .load service ledger)
    (hs : Intact sealWith calls s.now) (hraises : Raises i post) (hout : i ∉ s.now.commits)
    (h : ∀ loaded m, i ∉ m.now.commits → LedgerWatch sealWith calls i post (f loaded) m) :
    LedgerWatch sealWith calls i post (loadSteps service ledger sealWith >>= f) s := by
  unfold loadSteps
  simp only [Steps.bind_assoc]
  refine requireHealthy_watch hraises hout fun m hm => ?_
  refine look_watch fun t ht _ => ?_
  have hintact := ht.relies.intact (hm.relies.intact hs)
  have hout' : i ∉ t.now.commits := fun hin => hout (hm.commits (ht.commits hin))
  obtain ⟨events, hchained⟩ := hintact.chained
  have hstate := hchained.verifiesState
  have hlength := hchained.length_eq
  rw [hchained.verifies, Steps.check_ok_bind]
  dsimp only
  rw [← hlength] at hstate
  rw [hstate, Steps.check_ok_bind]
  refine check_watch hraises hout' fun databaseHead hmade => ?_
  obtain ⟨hsequence, hdigest⟩ := ApprovalLedgerAnchor.make_ok.mp hmade
  refine requireRecoverable_watch hservice hintact (names_head (hsequence.trans hlength) hdigest)
    (fun u hu hmeets => ?_) fun u hu _ => ?_
  · unfold Undisturbed at hmeets
    rw [hcall] at hmeets
    have hle := hmeets rfl t.now (by rw [hu.seen, Remembered.moved_seen]; rfl)
    refine ⟨by rw [hsequence, hlength]; exact hle, fun _ => ?_⟩
    -- the anchor names a prefix of the chain as it is, and so of the chain that was read
    have hnow := (hu.relies.intact hintact).named
    unfold LedgerDatabase.Names at hnow
    obtain ⟨rest, hrest⟩ : t.now.database.heads <+: u.now.database.heads :=
      Linked.heads_mono hu.relies.grown.events
    have hlt : u.now.anchor.sequence < t.now.database.heads.length := by
      have hheads : t.now.database.heads.length = t.now.database.events.length + 1 :=
        Linked.length_heads
      omega
    rw [hchained.heads_eq, ← hnow, ← hrest, List.getElem?_append_left hlt]
  · exact h _ _ fun hin => hout' (hu.commits hin)

theorem confirm_watch {expectedHead : String} {lastAt : Option DateTime}
    {f : Unit → LedgerSteps ι κ α} (hservice : service.Available)
    (hcall : calls i = .confirm service ledger verifiedEvents expectedHead lastAt)
    (hs : Intact sealWith calls s.now) (hraises : Raises i post) (hout : i ∉ s.now.commits)
    (h : ∀ m, i ∉ m.now.commits → LedgerWatch sealWith calls i post (f ()) m) :
    LedgerWatch sealWith calls i post
      (confirmSteps service ledger sealWith verifiedEvents expectedHead lastAt >>= f) s := by
  unfold confirmSteps
  simp only [Steps.bind_assoc]
  refine requireHealthy_watch hraises hout fun m hm => ?_
  refine look_watch fun t ht _ => ?_
  have hintact := ht.relies.intact (hm.relies.intact hs)
  have hout' : i ∉ t.now.commits := fun hin => hout (hm.commits (ht.commits hin))
  refine check_watch hraises hout' fun _ hverified => ?_
  refine check_watch hraises hout' fun databaseHead hmade => ?_
  have hstate := (verifyState_ok sealWith).mp hverified
  obtain ⟨hlast, hdigest⟩ := hintact.state_eq
  obtain ⟨hsequence, hdigest'⟩ := ApprovalLedgerAnchor.make_ok.mp hmade
  have hlength : verifiedEvents.length = t.now.database.events.length := by
    rw [← hlast, hstate]
    rfl
  have hnamed : t.now.database.Names databaseHead := by
    refine names_head (hsequence.trans hlength) ?_
    rw [hdigest', ← hdigest, hstate]
    rfl
  unfold reconcileExternalAnchor
  rw [Steps.bind_assoc]
  refine requireRecoverable_watch hservice hintact hnamed (fun u hu hmeets => ?_)
    fun u hu hle => ?_
  · unfold Undisturbed at hmeets
    rw [hcall] at hmeets
    rw [hsequence, hlength]
    refine hmeets.1 rfl t.now ?_
    rw [hu.seen, Remembered.moved_seen]
    rfl
  · have hout'' : i ∉ u.now.commits := fun hin => hout' (hu.commits hin)
    split
    · exact h _ hout''
    · refine advance_watch hservice (hu.relies.grown.names hnamed) hle (fun v hv hmeets => ?_)
        fun v v' hv _ hcommits => ?_
      · unfold Undisturbed at hmeets
        rw [hcall] at hmeets
        rw [hsequence, hlength]
        refine hmeets.2 rfl t.now ?_ u.now ?_
        · rw [hv.seen, Remembered.moved_seen_of_ne (by decide), hu.seen, Remembered.moved_seen]
          rfl
        · rw [hv.seen, Remembered.moved_seen]
          rfl
      · refine h v' ?_
        rw [hcommits]
        exact fun hin => hout'' (hv.commits hin)

theorem appendLocked_watch {db : LedgerDatabase} {events : List ApprovalLedgerEvent}
    {expectedHead : String} {request : EventRequest}
    {post : Except LedgerFailure (LedgerDatabase × ApprovalLedgerAnchor × ApprovalLedgerAnchor) →
      LedgerWatched ι κ → Prop} (hservice : service.Available)
    (hcall : calls i = .append service ledger expectedHead request)
    (hs : Intact sealWith calls s.now) (hwriter : s.now.writer = some i)
    (hdb : s.now.database = db) (hseen : ∃ t ∈ s.seen i .begin, t.database = db)
    (hchained : Chained sealWith db events) (hgeneration : 0 ≤ request.generation)
    (hcanonical : (Json.canonicalLoads request.recordJson).isSome = true)
    (hraises : Raises i post) (hout : i ∉ s.now.commits)
    (hok : ∀ written previous replacement m m', Trusts sealWith calls i s m →
      Trusts sealWith calls i (m.moved i .readAnchor m.now) m' → m.now.anchor = previous →
      (∃ events, Chained sealWith written events) →
      Written sealWith expectedHead request db written previous replacement →
      post (.ok (written, previous, replacement)) m') :
    LedgerWatch sealWith calls i post (appendLocked service ledger sealWith expectedHead request db)
      s := by
  unfold appendLocked
  rw [hchained.lastAt_eq, Steps.check_ok_bind]
  refine check_watch hraises hout fun _ _ => ?_
  refine check_watch hraises hout fun _ hexpected => ?_
  refine check_watch hraises hout fun previous hprevious => ?_
  unfold verifyExternalAnchor
  rw [Steps.bind_assoc]
  refine readExternalAnchor_watch hservice fun m hm hmeets => ?_
  have hintact := hm.relies.intact hs
  have hsame : m.now.database = db := (hm.relies.locked hwriter).2.trans hdb
  have hanchor : m.now.anchor = previous := by
    obtain ⟨hsequence, hdigest⟩ := ApprovalLedgerAnchor.make_ok.mp hprevious
    obtain ⟨hlast, hhead⟩ := hintact.state_eq
    rw [hsame] at hlast hhead
    obtain ⟨t, ht, htdb⟩ := hseen
    unfold Undisturbed at hmeets
    rw [hcall] at hmeets
    have hat := hmeets.1 rfl t (by rw [hm.seen]; exact ht)
    rw [htdb] at hat
    refine same_anchor hintact.named (names_head ?_ ?_) ?_
    · rw [hsequence, hlast, hsame]
    · rw [hdigest, hhead, hsame]
    · rw [hat, hsequence, hlast]
  have hout' : i ∉ m.now.commits := fun hin => hout (hm.commits hin)
  rw [if_pos hanchor, Steps.pure_eq, Steps.done_ok_bind]
  refine check_watch hraises hout' fun _ htime => ?_
  refine check_watch hraises hout' fun written hwritten => ?_
  refine check_watch hraises hout' fun replacement hreplacement => ?_
  obtain ⟨hchained', hwrites⟩ := writes_on hchained hgeneration hcanonical
    (require_ok.mp hexpected) hprevious (require_ok.mp htime) hwritten hreplacement
  exact fun m' hm' => hok written previous replacement m m' hm hm' hanchor hchained' hwrites

/-- The digest is that of the event of the call, and the event is in the chain. -/
def Committed (sealWith : Seal) (call : LedgerCall κ) (digest : String) (s : LedgerShared ι κ) :
    Prop :=
  ∃ row ∈ s.database.events, Appends sealWith call row ∧ row.eventDigest = digest

theorem append_watch [UnicodeData] {expectedHead : String} {request : EventRequest}
    {f : String → LedgerSteps ι κ α} (hservice : service.Available)
    (hcall : calls i = .append service ledger expectedHead request)
    (hs : Intact sealWith calls s.now) (hraises : Raises i post) (hout : i ∉ s.now.commits)
    (h : ∀ digest m, Committed sealWith (calls i) digest m.now →
      LedgerWatch sealWith calls i post (f digest) m) :
    LedgerWatch sealWith calls i post
      (appendSteps service ledger sealWith i expectedHead request >>= f) s := by
  unfold appendSteps
  simp only [Steps.bind_assoc]
  refine requireHealthy_watch hraises hout fun m hm => ?_
  have hintact := hm.relies.intact hs
  have hout' : i ∉ m.now.commits := fun hin => hout (hm.commits hin)
  refine check_watch hraises hout' fun _ _ => ?_
  refine check_watch hraises hout' fun _ _ => ?_
  refine check_watch hraises hout' fun _ hgeneration => ?_
  refine check_watch hraises hout' fun _ hcanonical => ?_
  refine .atomic_bind fun t ht _ => ?_
  have hintact := ht.relies.intact hintact
  have hout'' : i ∉ t.now.commits := fun hin => hout' (ht.commits hin)
  rw [beginImmediate_run]
  by_cases hfree : t.now.writer = none
  · rw [if_pos hfree]
    have hbegun : Guarantees sealWith calls i t.now { t.now with writer := some i } := by
      refine .of_same rfl rfl rfl fun j _ hj => ?_
      rw [hfree] at hj
      cases hj
    refine ⟨.moved hbegun rfl fun _ _ hj => hj, fun db hdb => ?_, fun e m' he => by cases he⟩
    rw [Except.ok.injEq] at hdb
    subst hdb
    obtain ⟨events, hchained⟩ := hintact.chained
    refine .bind (Trusts.refl i) (.handling (Trusts.refl i) ?_)
    refine appendLocked_watch hservice hcall (hbegun.intact hintact) rfl rfl
      ⟨t.now, by rw [Remembered.moved_seen]; rfl, rfl⟩ hchained
      (require_ok.mp hgeneration) (require_ok.mp hcanonical) (fun e u hu => ?_)
      hout'' fun written previous replacement u u' hu hu' hanchor hchained' hwritten => ?_
    · -- what is given up has changed nothing
      refine .write_bind fun v hv _ => ⟨.moved ?_ ?_ ?_, fun m' hm' => ?_⟩
      · unfold giveUp
        split
        · rename_i hwriter
          refine .of_same rfl rfl rfl fun j hij hj => ?_
          rw [hwriter] at hj
          exact absurd (Option.some.inj hj) hij
        · exact .refl i v.now
      · unfold giveUp
        split <;> rfl
      · unfold giveUp
        split <;> exact fun _ _ hj => hj
      · refine hraises e m' fun hin => hu (hv.commits ?_)
        have hgiven := hm'.commits hin
        rw [Remembered.moved_now] at hgiven
        unfold giveUp at hgiven
        split at hgiven <;> exact hgiven
    · refine .write_bind fun v hv _ => ?_
      -- nobody else has changed the database since
      have hkept : Relies sealWith calls i { t.now with writer := some i } v.now :=
        hu.relies.trans (hu'.relies.trans hv.relies)
      obtain ⟨hwriter, hsame⟩ := hkept.locked rfl
      have hdatabase : v.now.database = t.now.database := hsame
      rw [← hdatabase] at hwritten
      have hcommit := commit_guarantees hcall hwriter hchained' hwritten
      refine ⟨.moved hcommit rfl fun j hij hj => ?_, ?_⟩
      · obtain hj | hj := List.mem_append.mp hj
        · exact hj
        · exact absurd (List.mem_singleton.mp hj).symm hij
      · refine advance_watch hservice hwritten.names_replacement ?_ (fun w hw hmeets => ?_)
          fun w w' hw hrows _ => ?_
        · rw [hwritten.previous.1, hwritten.replacement.1]
          exact Nat.le_succ _
        · unfold Undisturbed at hmeets
          rw [hcall] at hmeets
          rw [← hanchor, hwritten.replacement.1, hdatabase]
          refine hmeets.2 rfl t.now ?_ u.now ?_
          · rw [hw.seen, Remembered.moved_seen_of_ne (by decide), hv.seen, hu'.seen,
              Remembered.moved_seen_of_ne (by decide), hu.seen, Remembered.moved_seen]
            rfl
          · rw [hw.seen, Remembered.moved_seen_of_ne (by decide), hv.seen, hu'.seen,
              Remembered.moved_seen]
            rfl
        · refine h replacement.digest w' ?_
          -- the event that was committed is still in the chain
          have hmem : (request.event sealWith (v.now.database.events.length + 1) expectedHead).row ∈
              w'.now.database.events := by
            rw [hrows]
            refine hw.relies.grown.events.subset ?_
            show _ ∈ written.events
            rw [hwritten.events]
            exact List.mem_append_right _ List.mem_cons_self
          refine ⟨_, hmem, ⟨service, ledger, expectedHead, request, hcall, rfl⟩, ?_⟩
          rw [hwritten.replacement.2]
          unfold LedgerDatabase.head
          rw [hwritten.events, Linked.headOf_snoc]
  · rw [if_neg hfree]
    exact ⟨.looked t, fun _ hdb => absurd hdb (by simp),
      fun e m' _ hm' => hraises e m' fun hin => hout'' (hm'.commits hin)⟩

/-! ### Every schedule -/

variable [UnicodeData]

/-- What a call that has committed returns. -/
def Answered (sealWith : Seal) (calls : ι → LedgerCall κ) (i : ι)
    (result : Except LedgerFailure LedgerAnswer) (s : LedgerWatched ι κ) : Prop :=
  i ∈ s.now.commits →
    ∃ digest, result = .ok (.appended digest) ∧ Committed sealWith (calls i) digest s.now

omit [DecidableEq ι] [DecidableEq κ] [UnicodeData] in
theorem Answered.raises : Raises i (Answered sealWith calls i) := fun _ _ hout hin =>
  absurd hin hout

theorem asked_safely (hservice : ∀ i, (calls i).service.Available) :
    Parties.Safely (Trusts sealWith calls) (Honours sealWith calls) (Undisturbed calls)
      (Answered sealWith calls) (asked sealWith calls).remembering := by
  intro i x hx
  obtain rfl := Option.some.inj hx
  have hi := hservice i
  have hintact := @initial_intact ι κ _ sealWith calls
  show LedgerWatch sealWith calls i _ (answerSteps sealWith i (calls i)) _
  -- what loads and confirmations return is nothing that was committed
  have hdone : ∀ answer m, i ∉ m.now.commits → LedgerWatch sealWith calls i
      (Answered sealWith calls i) (pure answer : LedgerSteps ι κ LedgerAnswer) m :=
    fun answer m hout m' hm' hin => absurd (hm'.commits hin) hout
  cases hcall : calls i with
  | load service ledger =>
      rw [hcall] at hi
      exact load_watch hi hcall hintact Answered.raises List.not_mem_nil
        fun loaded m hout => hdone _ m hout
  | confirm service ledger verifiedEvents expectedHead lastAt =>
      rw [hcall] at hi
      exact confirm_watch hi hcall hintact Answered.raises List.not_mem_nil
        fun m hout => hdone _ m hout
  | append service ledger expectedHead request =>
      rw [hcall] at hi
      refine append_watch hi hcall hintact Answered.raises List.not_mem_nil
        fun digest m hcommitted => fun m' hm' _ => ⟨digest, rfl, ?_⟩
      obtain ⟨row, hrow, happends⟩ := hcommitted
      exact ⟨row, hm'.relies.grown.events.subset hrow, happends⟩

/-- The steps of a schedule find the anchor where their calls need it. -/
def NotDisturbed (sealWith : Seal) (calls : ι → LedgerCall κ) (turns : List (Turn ι)) : Prop :=
  Replay.Throughout (Parties.after (Parties.releasing giveUp)) (Parties.Meets (Undisturbed calls))
    (asked sealWith calls).remembering turns

/-- **A schedule whose steps find the anchor where their calls need it poisons nobody, and what was
committed is returned**; and a call that has not stopped returns when it is given enough turns. -/
theorem undisturbed_returns (sealWith : Seal) (calls : ι → LedgerCall κ)
    (hservice : ∀ i, (calls i).service.Available) (turns : List (Turn ι))
    (hturns : NotDisturbed sealWith calls turns) :
    (∀ ledger, (askedAfter sealWith calls turns).shared.poisoned ledger = false) ∧
    (∀ i ∈ (askedAfter sealWith calls turns).shared.commits, ∀ result,
      (askedAfter sealWith calls turns).programs i = some (.done result) →
      ∃ digest, result = .ok (.appended digest) ∧
        Committed sealWith (calls i) digest (askedAfter sealWith calls turns).shared) ∧
    ∀ i x, (askedAfter sealWith calls turns).programs i = some x →
      ∃ n result, (askedAfter sealWith calls (turns ++ List.replicate n (.step i))).programs i =
        some (.done result) := by
  have hsafely := @asked_safely ι κ _ sealWith calls _ _ _ hservice
  have hcopies := Parties.remembering_copies giveUp (asked sealWith calls) turns
  have hafter := hsafely.replay (trusted sealWith calls) hturns
  refine ⟨?_, ?_, ?_⟩
  · intro ledger
    have hleads := hsafely.leads (trusted sealWith calls)
      (R := fun s s' => s'.now.poisoned = s.now.poisoned) (fun _ => rfl)
      (fun _ _ _ h h' => h'.trans h) (fun _ _ _ h => h.poisoned) (fun i s => ?_) hturns
    · unfold askedAfter
      rw [← hcopies.shared, hleads]
      rfl
    · unfold Parties.releasing giveUp
      dsimp only
      split <;> rfl
  · intro i hin result hdone
    unfold askedAfter at hin hdone ⊢
    have hcopy := hcopies.programs i
    rw [hdone] at hcopy
    rw [← hcopies.shared] at hin ⊢
    exact hafter.result (trusted sealWith calls) hcopy hin
  · intro i x hx
    obtain ⟨n, hn⟩ := Parties.replay_alone giveUp x (askedAfter sealWith calls turns) hx
    refine ⟨n, (x.alone.run (askedAfter sealWith calls turns).shared).1, ?_⟩
    unfold askedAfter at hn ⊢
    rw [Replay.append, hn]
    exact update_self ..

end Watched

/-! ### The load that races with an append -/

section Race

attribute [local instance] Kernel.asciiData oneHashing

theorem racedCalls_available (i : Bool) : (racedCalls i).service.Available := by
  cases i <;> exact ⟨rfl, rfl, rfl⟩

/-- Up to the swap the anchor is where it was at first, and the append begins on an empty chain. -/
def Unmoved (i : Bool) (place : LedgerPlace) (s : LedgerShared Bool Bool) : Prop :=
  s.anchor = .zero ∧ (i = true → place = .begin → s.database.events = [])

theorem Unmoved.undisturbed (i : Bool) (place : LedgerPlace) (s : LedgerWatched Bool Bool)
    (hnow : Unmoved i place s.now) (hseen : ∀ p, ∀ t ∈ s.seen i p, Unmoved i p t) :
    Undisturbed racedCalls i place s := by
  cases i with
  | false =>
      intro _ t _
      rw [hnow.1]
      exact Nat.zero_le _
  | true =>
      constructor
      · intro _ t ht
        rw [hnow.1, (hseen .begin t ht).2 rfl rfl]
        rfl
      · intro _ t _ u hu
        exact Or.inl (hnow.1.trans (hseen .readAnchor u hu).1.symm)

/-- The load comes after the commit of the append, and before it swaps the anchor. -/
theorem undisturbed_returns_raced : ∃ turns : List (Turn Bool),
    NotDisturbed plainSeal racedCalls turns ∧
    (∃ events head lastAt, (askedAfter plainSeal racedCalls turns).programs false =
      some (.done (.ok (.loaded events head lastAt)))) ∧
    (∃ digest, (askedAfter plainSeal racedCalls turns).programs true =
        some (.done (.ok (.appended digest))) ∧
      Committed plainSeal (racedCalls true) digest
        (askedAfter plainSeal racedCalls turns).shared) ∧
    ∀ ledger, (askedAfter plainSeal racedCalls turns).shared.poisoned ledger = false := by
  let c := asked plainSeal racedCalls
  have hcall : racedCalls true = .append raisingService true zeroDigest firstRequest := rfl
  have hintact : Intact plainSeal racedCalls c.shared := initial_intact racedCalls
  -- the append up to its commit
  obtain ⟨written, replacement, hchained, hwritten, happend⟩ :=
    @Intact.append_comes Bool Bool _ c.shared raisingService true (Unmoved true) _ plainSeal
      racedCalls _ _ true zeroDigest firstRequest hintact rfl ⟨rfl, rfl, rfl⟩ rfl rfl rfl rfl
      firstRequest_follows ⟨rfl, fun _ _ => rfl⟩ ⟨rfl, fun _ _ => rfl⟩ ⟨rfl, fun _ _ => rfl⟩
      ⟨rfl, fun _ _ => rfl⟩
  obtain ⟨k, hk, hmeets₁⟩ := Parties.turns_of_comes giveUp Unmoved (c := c)
    (i := true) rfl (happend.bind fun digest => pure (LedgerAnswer.appended digest))
  let m := commitWork true written { c.shared with writer := some true }
  have hbegun : Guarantees plainSeal racedCalls true c.shared
      { c.shared with writer := some true } :=
    .of_same rfl rfl rfl fun _ _ hj => by cases hj
  have hm : Intact plainSeal racedCalls m :=
    (commit_guarantees (s := { c.shared with writer := some true }) hcall rfl hchained
      hwritten).intact (hbegun.intact hintact)
  -- the load
  obtain ⟨events, head, lastAt, -, -, -, -, hload⟩ :=
    @Intact.load_returns Bool Bool _ m raisingService false (Unmoved false) _ plainSeal racedCalls
      hm rfl ⟨rfl, rfl, rfl⟩ ⟨rfl, fun h => by cases h⟩ ⟨rfl, fun h => by cases h⟩
      ⟨rfl, fun h => by cases h⟩
  let c₁ := Parties.mk m (update c.programs true (some
    ((advanceExternalAnchor raisingService true c.shared.anchor replacement >>= fun _ =>
      pure replacement.digest) >>= fun digest => pure (LedgerAnswer.appended digest))))
  have hloads : c₁.programs false = c.programs false := by
    dsimp only [c₁]
    rw [update_of_ne Bool.false_ne_true]
  obtain ⟨n, hn, hmeets₂⟩ := Parties.turns_of_comes giveUp Unmoved hloads
    (hload.bind fun (events, head, lastAt) => pure (LedgerAnswer.loaded events head lastAt))
  -- the swap
  let c₂ := Parties.mk m (update c₁.programs false (some (.done (.ok
    (LedgerAnswer.loaded events m.database.head lastAt)))))
  have hadvance := @advance_comes Bool Bool _ m raisingService true c.shared.anchor replacement
    (Unmoved true) ⟨rfl, rfl, rfl⟩ ⟨rfl, fun _ h => by cases h⟩ rfl
  have hleft : c₂.programs true = c₁.programs true := by
    dsimp only [c₂]
    rw [update_of_ne Bool.false_ne_true.symm]
  obtain ⟨l, hl, hmeets₃⟩ := Parties.turns_of_comes giveUp Unmoved
    (hleft.trans (update_self true _ c.programs)) ((hadvance.bind _).bind _)
  let turns : List (Turn Bool) :=
    List.replicate k (.step true) ++ List.replicate n (.step false) ++ List.replicate l (.step true)
  have hturns : askedAfter plainSeal racedCalls turns =
      ⟨{ m with anchor := replacement }, update c₂.programs true (some (.done (.ok
        (LedgerAnswer.appended replacement.digest))))⟩ := by
    unfold askedAfter
    rw [Replay.append, Replay.append, hk, hn]
    exact hl
  have hundisturbed : NotDisturbed plainSeal racedCalls turns := by
    refine Parties.remembering_throughout Unmoved ?_ Unmoved.undisturbed
    rw [Replay.throughout_append, Replay.throughout_append, Replay.append, hk, hn]
    exact ⟨⟨hmeets₁, hmeets₂⟩, hmeets₃⟩
  obtain ⟨hhealthy, hreturned, -⟩ := undisturbed_returns plainSeal racedCalls racedCalls_available
    turns hundisturbed
  have hprogram : (askedAfter plainSeal racedCalls turns).programs true = some (.done (.ok
      (LedgerAnswer.appended replacement.digest))) := by
    rw [hturns]
    exact update_self true _ c₂.programs
  have hcommitted : true ∈ (askedAfter plainSeal racedCalls turns).shared.commits := by
    rw [hturns]
    exact List.mem_append_right _ List.mem_cons_self
  refine ⟨turns, hundisturbed, ⟨events, m.database.head, lastAt, ?_⟩, ?_, hhealthy⟩
  · rw [hturns]
    dsimp only [c₂]
    rw [update_of_ne Bool.false_ne_true, update_self]
  · obtain ⟨digest, hresult, hcommit⟩ := hreturned true hcommitted _ hprogram
    rw [hresult] at hprogram
    exact ⟨digest, hprogram, hcommit⟩

/-- **Nobody stops, every request is answered and nothing is tampered with, and yet an object is
poisoned.** -/
theorem innocent_ledger_poisoned : (∀ i, (racedCalls i).service.Available) ∧
    ∃ turns : List (Turn Bool), (∀ i, .crash i ∉ turns) ∧
      (askedAfter plainSeal racedCalls turns).shared.poisoned false = true := by
  refine ⟨racedCalls_available, ?_⟩
  exact @raced_load_poisons LedgerAnswer (asked plainSeal racedCalls) _ _ rfl rfl rfl
    fun digest => ⟨.appended digest, fun _ => rfl⟩

end Race

end Evleda.ImportApproval
