/-
One lease at a time, and never a token twice.

A call of `acquire` has the lock of its operation from before it draws a token until
its lease is out of the registry.  So between the drawing of a token and the end of
its lease no other call draws a token of that operation, and two leases of one
operation are not out together.  The registry knows only leases that are out, and
what `validate` accepts it has found there.

The steps of `acquire` fall into eight kinds; the invariant is kept by each of them,
and by the death of a process.
-/
import Evleda.StageJournal.Coordinator

namespace Evleda.StageJournal

open Function

/-! ### What a call has -/

variable {phase : AcquirePhase}

namespace AcquirePhase

def Locked : AcquirePhase → Prop
  | .fencing => True
  | .making _ => True
  | .registering _ => True
  | .holding _ => True
  | .unregistering _ _ => True
  | _ => False

/-- The token of a lease that is not out yet. -/
def pending : AcquirePhase → Option Nat
  | .making token => some token
  | .registering lease => some lease.fencingToken
  | _ => none

def lease? : AcquirePhase → Option ExecutionLease
  | .registering lease => some lease
  | .holding lease => some lease
  | .unregistering lease _ => some lease
  | _ => none

/-- The lease that the call has out, from its registration to its removal. -/
def out? : AcquirePhase → Option ExecutionLease
  | .holding lease => some lease
  | .unregistering lease _ => some lease
  | _ => none

/-- A call that has nothing: neither the lock for sure, nor a token, nor a lease. -/
structure Bare (phase : AcquirePhase) : Prop where
  locked : ¬ phase.Locked
  pending : phase.pending = none
  lease : phase.lease? = none
  out : phase.out? = none

theorem lease_of_out {lease : ExecutionLease}
    (h : phase.out? = some lease) : phase.lease? = some lease := by
  cases phase <;> first | exact h | cases h

theorem locked_of_out {lease : ExecutionLease}
    (h : phase.out? = some lease) : phase.Locked := by
  cases phase <;> first | exact trivial | cases h

theorem locked_of_pending {token : Nat}
    (h : phase.pending = some token) : phase.Locked := by
  cases phase <;> first | exact trivial | cases h

end AcquirePhase

section Exclusion

variable [Hashing] {P I C V : Type} [DecidableEq P] [DecidableEq I] [DecidableEq C] [DecidableEq V]
  {d : Deployment P I C V} {s : Coordination P I C V}

/-- The call has this lease out. -/
def Coordination.Out (s : Coordination P I C V) (c : C) (lease : ExecutionLease) : Prop :=
  (s.acquiring c).out? = some lease

/-! ### What a step of `acquire` can do -/

/-- The state after a step of the call `c`. -/
inductive AcquireMove (d : Deployment P I C V) (s : Coordination P I C V) (c : C) :
    Coordination P I C V → Prop
  /-- a call that is over -/
  | stays : AcquireMove d s c s
  /-- a step of a call without a lease that is out, after which it has nothing; others keep their
  locks -/
  | bares (phase : AcquirePhase) (hbare : phase.Bare) (hout : (s.acquiring c).out? = none)
      (locks' : Dict String C)
      (hlocks : ∀ key c', c' ≠ c → s.locks key = some c' → locks' key = some c')
      (processActive' : P → String → Bool) (closed' : C → Bool) :
      AcquireMove d s c ({ s with
        locks := locks', processActive := processActive', closed := closed' }.goOn c phase)
  | locks (hout : (s.acquiring c).out? = none) (hfree : s.locks (d.operationKey c) = none) :
      AcquireMove d s c ({ s with locks := s.locks.set (d.operationKey c) c }.goOn c .fencing)
  | draws (hphase : s.acquiring c = .fencing) :
      AcquireMove d s c ({ s with
        fences := s.fences.set (d.acquires c).operationId
          (s.nextFencingToken (d.acquires c).operationId)
        drawn := s.drawn ++ [((d.acquires c).operationId,
          s.nextFencingToken (d.acquires c).operationId)] }.goOn c
            (.making (s.nextFencingToken (d.acquires c).operationId)))
  | makes (token : Nat) (now : DateTime) (hphase : s.acquiring c = .making token) :
      AcquireMove d s c (s.goOn c (.registering (d.makes c token now)))
  | registers (lease : ExecutionLease) (hphase : s.acquiring c = .registering lease) :
      AcquireMove d s c ({ s with
        active := update s.active (d.acquires c).coordinator
          ((s.active (d.acquires c).coordinator).set lease.leaseId ⟨lease, c, d.processKey c⟩)
        issued := s.issued ++ [lease] }.goOn c (.holding lease))
  | finishes (lease : ExecutionLease) (outcome : Except CoordinatorFailure Unit)
      (hphase : s.acquiring c = .holding lease) :
      AcquireMove d s c (s.goOn c (.unregistering lease outcome))
  | unregisters (lease : ExecutionLease) (outcome : Except CoordinatorFailure Unit)
      (hphase : s.acquiring c = .unregistering lease outcome) :
      AcquireMove d s c ({ s with
        active := update s.active (d.acquires c).coordinator
          ((s.active (d.acquires c).coordinator).erase lease.leaseId) }.goOn c
            (.unlocking outcome))

namespace AcquireMove

omit [DecidableEq P] [DecidableEq V] in
/-- A step that leads to nothing and touches nothing that is shared. -/
theorem bare {c : C} (hbare : phase.Bare)
    (hout : (s.acquiring c).out? = none) : AcquireMove d s c (s.goOn c phase) :=
  bares phase hbare hout s.locks (fun _ _ _ h => h) s.processActive s.closed

omit [Hashing] [DecidableEq P] [DecidableEq I] [DecidableEq V] in
theorem unlock_others {c : C} {key : String} (key' : String) (c' : C) (hne : c' ≠ c)
    (h : s.locks key' = some c') : (s.unlock c key).locks key' = some c' := by
  unfold Coordination.unlock
  dsimp only
  by_cases hheld : s.locks key = some c
  · rw [if_pos hheld]
    have hkeys : key' ≠ key := by
      rintro rfl
      rw [hheld] at h
      exact hne (Option.some.inj h).symm
    exact (update_of_ne hkeys _ _).trans h
  · rw [if_neg hheld]
    exact h

end AcquireMove

omit [DecidableEq V] in
theorem acquireStep_moves (d : Deployment P I C V) (s : Coordination P I C V) (c : C)
    (answer : Answer) : AcquireMove d s c (s.acquireStep d c answer) := by
  have hopening : (AcquirePhase.opening).Bare := ⟨id, rfl, rfl, rfl⟩
  have hlocking : (AcquirePhase.locking).Bare := ⟨id, rfl, rfl, rfl⟩
  have hunlocking : ∀ outcome, (AcquirePhase.unlocking outcome).Bare :=
    fun _ => ⟨id, rfl, rfl, rfl⟩
  have hclosing : ∀ outcome, (AcquirePhase.closing outcome).Bare := fun _ => ⟨id, rfl, rfl, rfl⟩
  have hdiscarding : ∀ outcome, (AcquirePhase.discarding outcome).Bare :=
    fun _ => ⟨id, rfl, rfl, rfl⟩
  have hleft : ∀ outcome, (AcquirePhase.left outcome).Bare := fun _ => ⟨id, rfl, rfl, rfl⟩
  have hsame : ∀ key c', c' ≠ c → s.locks key = some c' → s.locks key = some c' :=
    fun _ _ _ h => h
  unfold Coordination.acquireStep
  cases hphase : s.acquiring c with
  | entering =>
      have hout : (s.acquiring c).out? = none := by rw [hphase]; rfl
      dsimp only
      split
      · exact .bare (hleft _) hout
      · exact .bares _ hopening hout _ hsame _ _
  | opening =>
      have hout : (s.acquiring c).out? = none := by rw [hphase]; rfl
      cases answer.raises with
      | some failure => exact .bare (hdiscarding _) hout
      | none => exact .bare hlocking hout
  | locking =>
      have hout : (s.acquiring c).out? = none := by rw [hphase]; rfl
      cases answer.raises with
      | some failure => exact .bare (hclosing _) hout
      | none =>
          cases hheld : s.locks (d.operationKey c) with
          | some holder => exact .bare (hclosing _) hout
          | none => exact .locks hout hheld
  | fencing =>
      have hout : (s.acquiring c).out? = none := by rw [hphase]; rfl
      cases answer.raises with
      | some failure => exact .bare (hunlocking _) hout
      | none => exact .draws hphase
  | making token =>
      have hout : (s.acquiring c).out? = none := by rw [hphase]; rfl
      cases answer.raises with
      | some failure => exact .bare (hunlocking _) hout
      | none => exact .makes token answer.now hphase
  | registering lease => exact .registers lease hphase
  | holding lease =>
      cases answer.raises with
      | some failure => exact .finishes lease _ hphase
      | none => exact .finishes lease _ hphase
  | unregistering lease outcome => exact .unregisters lease outcome hphase
  | unlocking outcome =>
      have hout : (s.acquiring c).out? = none := by rw [hphase]; rfl
      cases answer.raises with
      | some failure => exact .bare (hclosing _) hout
      | none => exact .bares _ (hclosing _) hout _ AcquireMove.unlock_others _ _
  | closing outcome =>
      have hout : (s.acquiring c).out? = none := by rw [hphase]; rfl
      cases answer.raises with
      | some failure => exact .bares _ (hleft _) hout _ AcquireMove.unlock_others _ _
      | none => exact .bares _ (hdiscarding _) hout _ AcquireMove.unlock_others _ _
  | discarding outcome =>
      have hout : (s.acquiring c).out? = none := by rw [hphase]; rfl
      exact .bares _ (hleft _) hout _ hsame _ _
  | left outcome => exact .stays
  | died => exact .stays

/-! ### The invariant -/

/-- What a call has that stands at a phase. -/
structure Stands (d : Deployment P I C V) (s : Coordination P I C V) (c : C)
    (phase : AcquirePhase) : Prop where
  /-- Who draws a token, or has a lease, has the lock of its operation. -/
  locked : phase.Locked → s.locks (d.operationKey c) = some c
  made : ∀ lease, phase.lease? = some lease → ∃ token now, lease = d.makes c token now
  /-- A token that is not out yet is the last one, and later than every lease's. -/
  pending : ∀ token, phase.pending = some token →
    s.fences (d.acquires c).operationId = some token ∧
      ∀ lease ∈ s.issued, lease.operationId = (d.acquires c).operationId →
        lease.fencingToken < token

/-- What holds between any two steps. -/
structure Coordinated (d : Deployment P I C V) (s : Coordination P I C V) : Prop where
  stands : ∀ c, Stands d s c (s.acquiring c)
  /-- The registries know only leases that are out. -/
  registered : ∀ i leaseId entry, s.active i leaseId = some entry →
    (d.acquires entry.file).coordinator = i ∧ entry.lease.leaseId = leaseId ∧
      s.Out entry.file entry.lease
  drawn : ∀ pair ∈ s.drawn, ∃ last, s.fences pair.1 = some last ∧ pair.2 ≤ last
  issued : ∀ lease ∈ s.issued, ∃ last,
    s.fences lease.operationId = some last ∧ lease.fencingToken ≤ last
  drawnOnce : s.drawn.Pairwise fun a b => a.1 = b.1 → a.2 < b.2
  issuedOnce : s.issued.Pairwise fun a b =>
    a.operationId = b.operationId → a.fencingToken < b.fencingToken

section Standing

omit [DecidableEq P] [DecidableEq I] [DecidableEq C] [DecidableEq V]

theorem Stands.bare {c : C} (h : phase.Bare) : Stands d s c phase := by
  refine ⟨fun hlocked => absurd hlocked h.locked, ?_, ?_⟩
  · intro lease hlease
    rw [h.lease] at hlease
    cases hlease
  · intro token htoken
    rw [h.pending] at htoken
    cases htoken

theorem Coordinated.same (h : Coordinated d s) {c c' : C} (hlocked : (s.acquiring c).Locked)
    (hlocked' : (s.acquiring c').Locked)
    (hoperation : (d.acquires c).operationId = (d.acquires c').operationId) : c = c' := by
  have hlock := (h.stands c).locked hlocked
  have hlock' := (h.stands c').locked hlocked'
  have hkey : d.operationKey c = d.operationKey c' := by
    unfold Deployment.operationKey
    rw [hoperation]
  rw [hkey, hlock', Option.some.injEq] at hlock
  exact hlock.symm

theorem Coordinated.out_operation (h : Coordinated d s) {c : C} {lease : ExecutionLease}
    (hout : s.Out c lease) : lease.operationId = (d.acquires c).operationId := by
  obtain ⟨token, now, rfl⟩ := (h.stands c).made lease (AcquirePhase.lease_of_out hout)
  rfl

/-- **One lease of an operation at a time.** -/
theorem Coordinated.one (h : Coordinated d s) {c c' : C} {lease lease' : ExecutionLease}
    (hout : s.Out c lease) (hout' : s.Out c' lease')
    (hsame : lease.operationId = lease'.operationId) : c = c' ∧ lease = lease' := by
  rw [h.out_operation hout, h.out_operation hout'] at hsame
  obtain rfl := h.same (AcquirePhase.locked_of_out hout) (AcquirePhase.locked_of_out hout') hsame
  exact ⟨rfl, Option.some.inj (hout.symm.trans hout')⟩

theorem coordinated_start (fences : Dict String Nat) :
    Coordinated d (Coordination.start (P := P) (I := I) (C := C) (V := V) fences) where
  stands := fun _ => Stands.bare ⟨id, rfl, rfl, rfl⟩
  registered := fun _ _ _ h => nomatch h
  drawn := fun _ h => nomatch h
  issued := fun _ h => nomatch h
  drawnOnce := List.Pairwise.nil
  issuedOnce := List.Pairwise.nil

end Standing

/-! ### One step -/

section Step

omit [Hashing] [DecidableEq P] [DecidableEq I] [DecidableEq V]

@[simp] theorem goOn_self (c : C) (phase : AcquirePhase) :
    (s.goOn c phase).acquiring c = phase := update_self ..

theorem goOn_other {c c' : C} (phase : AcquirePhase) (h : c' ≠ c) :
    (s.goOn c phase).acquiring c' = s.acquiring c' := update_of_ne h ..

theorem out_goOn {c c' : C} {lease : ExecutionLease}
    (h : s.Out c' lease) (hsame : c' = c → phase.out? = some lease) :
    (s.goOn c phase).Out c' lease := by
  unfold Coordination.Out
  by_cases hc : c' = c
  · subst hc
    rw [goOn_self]
    exact hsame rfl
  · rw [goOn_other phase hc]
    exact h

end Step

section Step

omit [DecidableEq P] [DecidableEq I] [DecidableEq V]

theorem stands_goOn {s' : Coordination P I C V} {c : C}
    (hacquiring : s'.acquiring = s.acquiring) (hself : Stands d s' c phase)
    (hothers : ∀ c', c' ≠ c → Stands d s' c' (s.acquiring c')) (c' : C) :
    Stands d (s'.goOn c phase) c' ((s'.goOn c phase).acquiring c') := by
  by_cases hc : c' = c
  · subst hc
    rw [goOn_self]
    exact ⟨hself.locked, hself.made, hself.pending⟩
  · rw [goOn_other phase hc, hacquiring]
    obtain ⟨hlocked, hmade, hpending⟩ := hothers c' hc
    exact ⟨hlocked, hmade, hpending⟩

theorem Coordinated.draws (h : Coordinated d s) {c : C} (hphase : s.acquiring c = .fencing) :
    Coordinated d ({ s with
      fences := s.fences.set (d.acquires c).operationId
        (s.nextFencingToken (d.acquires c).operationId)
      drawn := s.drawn ++ [((d.acquires c).operationId,
        s.nextFencingToken (d.acquires c).operationId)] }.goOn c
          (.making (s.nextFencingToken (d.acquires c).operationId))) := by
  have hlocked : (s.acquiring c).Locked := by
    rw [hphase]
    exact trivial
  -- the next token is later than any that was drawn
  have hnext : ∀ token, s.fences (d.acquires c).operationId = some token →
      token < s.nextFencingToken (d.acquires c).operationId := by
    intro token htoken
    unfold Coordination.nextFencingToken
    rw [htoken]
    exact Nat.lt_succ_self token
  have hkept : ∀ operationId token last, s.fences operationId = some last → token ≤ last →
      ∃ last', s.fences.set (d.acquires c).operationId
        (s.nextFencingToken (d.acquires c).operationId) operationId = some last' ∧
          token ≤ last' := by
    intro operationId token last hlast hle
    by_cases hsame : operationId = (d.acquires c).operationId
    · subst hsame
      exact ⟨_, Dict.set_self .., hle.trans (hnext last hlast).le⟩
    · exact ⟨last, (Dict.set_of_ne _ _ hsame).trans hlast, hle⟩
  refine ⟨stands_goOn rfl ?_ ?_, ?_, ?_, ?_, ?_, ?_⟩
  · refine ⟨fun _ => (h.stands c).locked hlocked, fun _ hlease => (nomatch hlease), ?_⟩
    intro token htoken
    obtain rfl : s.nextFencingToken (d.acquires c).operationId = token := Option.some.inj htoken
    refine ⟨Dict.set_self .., fun lease hlease hoperation => ?_⟩
    obtain ⟨last, hlast, hle⟩ := h.issued lease hlease
    rw [hoperation] at hlast
    exact hle.trans_lt (hnext last hlast)
  · intro c' hc
    obtain ⟨hlock, hmade, hpending⟩ := h.stands c'
    refine ⟨hlock, hmade, fun token htoken => ?_⟩
    -- a token that waits is of another operation, since its call has the lock
    have hother : (d.acquires c').operationId ≠ (d.acquires c).operationId := fun hsame =>
      hc (h.same (AcquirePhase.locked_of_pending htoken) hlocked hsame)
    exact ⟨(Dict.set_of_ne _ _ hother).trans (hpending token htoken).1, (hpending token htoken).2⟩
  · intro i leaseId entry hentry
    obtain ⟨hcoordinator, hid, hout⟩ := h.registered i leaseId entry hentry
    refine ⟨hcoordinator, hid, out_goOn hout fun hsame => ?_⟩
    subst hsame
    unfold Coordination.Out at hout
    rw [hphase] at hout
    cases hout
  · intro pair hpair
    rcases List.mem_append.mp hpair with hold | hnew
    · obtain ⟨last, hlast, hle⟩ := h.drawn pair hold
      exact hkept pair.1 pair.2 last hlast hle
    · obtain rfl := List.mem_singleton.mp hnew
      exact ⟨_, Dict.set_self .., le_refl _⟩
  · intro lease hlease
    obtain ⟨last, hlast, hle⟩ := h.issued lease hlease
    exact hkept lease.operationId lease.fencingToken last hlast hle
  · show (s.drawn ++ [_]).Pairwise _
    rw [List.pairwise_append]
    refine ⟨h.drawnOnce, List.pairwise_singleton .., ?_⟩
    intro pair hpair new hnew hoperation
    obtain rfl := List.mem_singleton.mp hnew
    obtain ⟨last, hlast, hle⟩ := h.drawn pair hpair
    rw [hoperation] at hlast
    exact hle.trans_lt (hnext last hlast)
  · exact h.issuedOnce

/-- A call that registers its lease issues it, the latest of its operation. -/
theorem Coordinated.registers (h : Coordinated d s) {c : C} {lease : ExecutionLease}
    (hphase : s.acquiring c = .registering lease) {active' : I → Dict String (Registered C)}
    (hactive : ∀ i leaseId entry, active' i leaseId = some entry →
      s.active i leaseId = some entry ∨
        (i = (d.acquires c).coordinator ∧ leaseId = lease.leaseId ∧
          entry = ⟨lease, c, d.processKey c⟩)) :
    Coordinated d ({ s with
      active := active', issued := s.issued ++ [lease] }.goOn c (.holding lease)) := by
  have hlocked : (s.acquiring c).Locked := by
    rw [hphase]
    exact trivial
  have hlease : (s.acquiring c).lease? = some lease := by
    rw [hphase]
    rfl
  have hpends : (s.acquiring c).pending = some lease.fencingToken := by
    rw [hphase]
    rfl
  obtain ⟨token, now, hmade⟩ := (h.stands c).made lease hlease
  have hoperation : lease.operationId = (d.acquires c).operationId := by
    rw [hmade]
    rfl
  obtain ⟨hlast, hlater⟩ := (h.stands c).pending _ hpends
  refine ⟨stands_goOn rfl ?_ ?_, ?_, ?_, ?_, ?_, ?_⟩
  · refine ⟨fun _ => (h.stands c).locked hlocked, ?_, fun _ htoken => nomatch htoken⟩
    intro lease' hlease'
    obtain rfl : lease = lease' := Option.some.inj hlease'
    exact ⟨token, now, hmade⟩
  · intro c' hc
    obtain ⟨hlock, hmade', hpending⟩ := h.stands c'
    refine ⟨hlock, hmade', fun token' htoken' => ⟨(hpending token' htoken').1, ?_⟩⟩
    intro lease' hlease' hsame
    rcases List.mem_append.mp hlease' with hold | hnew
    · exact (hpending token' htoken').2 lease' hold hsame
    · obtain rfl := List.mem_singleton.mp hnew
      exact absurd (h.same (AcquirePhase.locked_of_pending htoken') hlocked
        (hsame.symm.trans hoperation)) hc
  · intro i leaseId entry hentry
    rcases hactive i leaseId entry hentry with hold | ⟨rfl, rfl, rfl⟩
    · obtain ⟨hcoordinator, hid, hout⟩ := h.registered i leaseId entry hold
      refine ⟨hcoordinator, hid, out_goOn hout fun hsame => ?_⟩
      subst hsame
      unfold Coordination.Out at hout
      rw [hphase] at hout
      cases hout
    · refine ⟨rfl, rfl, ?_⟩
      unfold Coordination.Out
      rw [goOn_self]
      rfl
  · exact h.drawn
  · intro lease' hlease'
    rcases List.mem_append.mp hlease' with hold | hnew
    · exact h.issued lease' hold
    · obtain rfl := List.mem_singleton.mp hnew
      exact ⟨lease'.fencingToken, hoperation ▸ hlast, le_refl _⟩
  · exact h.drawnOnce
  · show (s.issued ++ [lease]).Pairwise _
    rw [List.pairwise_append]
    refine ⟨h.issuedOnce, List.pairwise_singleton .., ?_⟩
    intro lease' hlease' new hnew hsame
    obtain rfl := List.mem_singleton.mp hnew
    exact hlater lease' hlease' (hsame.trans hoperation)

theorem Coordinated.goes (h : Coordinated d s) {c : C}
    {locks' : Dict String C} {processActive' : P → String → Bool} {closed' : C → Bool}
    {active' : I → Dict String (Registered C)}
    (hlocks : ∀ key c', c' ≠ c → s.locks key = some c' → locks' key = some c')
    (hlocked : phase.Locked → locks' (d.operationKey c) = some c)
    (hmade : ∀ lease, phase.lease? = some lease → ∃ token now, lease = d.makes c token now)
    (hpending : ∀ token, phase.pending = some token → (s.acquiring c).pending = some token)
    (hactive : ∀ i leaseId entry, active' i leaseId = some entry →
      s.active i leaseId = some entry ∧
        (entry.file = c → s.Out c entry.lease → phase.out? = some entry.lease)) :
    Coordinated d ({ s with
      locks := locks', processActive := processActive', closed := closed',
      active := active' }.goOn c phase) := by
  refine ⟨stands_goOn rfl ?_ ?_, ?_, h.drawn, h.issued, h.drawnOnce, h.issuedOnce⟩
  · exact ⟨hlocked, hmade, fun token htoken => (h.stands c).pending token (hpending token htoken)⟩
  · intro c' hc
    obtain ⟨hlock, hmade', hpending'⟩ := h.stands c'
    exact ⟨fun hheld => hlocks _ c' hc (hlock hheld), hmade', hpending'⟩
  · intro i leaseId entry hentry
    obtain ⟨hold, hstill⟩ := hactive i leaseId entry hentry
    obtain ⟨hcoordinator, hid, hout⟩ := h.registered i leaseId entry hold
    refine ⟨hcoordinator, hid, out_goOn hout fun hsame => hstill hsame ?_⟩
    rw [← hsame]
    exact hout

theorem Coordinated.moves (h : Coordinated d s) {c : C} {s' : Coordination P I C V}
    [DecidableEq I] (hmove : AcquireMove d s c s') : Coordinated d s' := by
  cases hmove with
  | stays => exact h
  | bares phase hbare hout locks' hlocks processActive' closed' =>
      refine h.goes hlocks (fun hlocked => absurd hlocked hbare.locked) ?_ ?_ ?_
      · intro lease hlease
        rw [hbare.lease] at hlease
        cases hlease
      · intro token htoken
        rw [hbare.pending] at htoken
        cases htoken
      · intro i leaseId entry hentry
        refine ⟨hentry, fun _ hheld => ?_⟩
        unfold Coordination.Out at hheld
        rw [hout] at hheld
        cases hheld
  | locks hout hfree =>
      refine h.goes ?_ (fun _ => Dict.set_self ..) (fun _ hlease => nomatch hlease)
        (fun _ htoken => nomatch htoken) ?_
      · intro key c' hc hheld
        have hkey : key ≠ d.operationKey c := by
          rintro rfl
          rw [hfree] at hheld
          cases hheld
        exact (Dict.set_of_ne _ _ hkey).trans hheld
      · intro i leaseId entry hentry
        refine ⟨hentry, fun _ hheld => ?_⟩
        unfold Coordination.Out at hheld
        rw [hout] at hheld
        cases hheld
  | draws hphase => exact h.draws hphase
  | makes token now hphase =>
      have hstands := h.stands c
      rw [hphase] at hstands
      refine h.goes (fun _ _ _ hheld => hheld) (fun _ => hstands.locked trivial) ?_ ?_ ?_
      · intro lease hlease
        exact ⟨token, now, (Option.some.inj hlease).symm⟩
      · intro token' htoken'
        rw [hphase]
        exact htoken'
      · intro i leaseId entry hentry
        refine ⟨hentry, fun _ hheld => ?_⟩
        unfold Coordination.Out at hheld
        rw [hphase] at hheld
        cases hheld
  | registers lease hphase =>
      refine h.registers hphase ?_
      intro i leaseId entry hentry
      by_cases hi : i = (d.acquires c).coordinator
      · subst hi
        rw [update_self] at hentry
        rcases Dict.set_eq_some hentry with ⟨rfl, rfl⟩ | ⟨-, hold⟩
        · exact Or.inr ⟨rfl, rfl, rfl⟩
        · exact Or.inl hold
      · rw [update_of_ne hi] at hentry
        exact Or.inl hentry
  | finishes lease outcome hphase =>
      have hstands := h.stands c
      rw [hphase] at hstands
      refine h.goes (fun _ _ _ hheld => hheld) (fun _ => hstands.locked trivial) hstands.made
        (fun _ htoken => nomatch htoken) ?_
      intro i leaseId entry hentry
      refine ⟨hentry, fun _ hheld => ?_⟩
      unfold Coordination.Out at hheld
      rw [hphase] at hheld
      exact hheld
  | unregisters lease outcome hphase =>
      refine h.goes (fun _ _ _ hheld => hheld) (fun hlocked => hlocked.elim)
        (fun _ hlease => nomatch hlease) (fun _ htoken => nomatch htoken) ?_
      intro i leaseId entry hentry
      have hold : s.active i leaseId = some entry ∧
          (i = (d.acquires c).coordinator → leaseId ≠ lease.leaseId) := by
        by_cases hi : i = (d.acquires c).coordinator
        · subst hi
          rw [update_self] at hentry
          obtain ⟨hne, hold⟩ := Dict.erase_eq_some hentry
          exact ⟨hold, fun _ => hne⟩
        · rw [update_of_ne hi] at hentry
          exact ⟨hentry, fun hsame => absurd hsame hi⟩
      refine ⟨hold.1, fun hfile hheld => ?_⟩
      -- the entry of the call itself is the one that went
      obtain ⟨hcoordinator, hid, -⟩ := h.registered i leaseId entry hold.1
      unfold Coordination.Out at hheld
      rw [hphase] at hheld
      obtain rfl : lease = entry.lease := Option.some.inj hheld
      rw [hfile] at hcoordinator
      exact absurd hid.symm (hold.2 hcoordinator.symm)

end Step

/-- What `validate` does to the state: nothing but where its own call stands. -/
inductive ValidateMove (d : Deployment P I C V) (s : Coordination P I C V) (v : V) :
    Coordination P I C V → Prop
  | stays : ValidateMove d s v s
  | looks (hphase : s.validating v = .looking) :
      ValidateMove d s v (s.lookOn v (.comparing
        (s.active (d.validates v).coordinator (d.validates v).lease.leaseId)))
  | finds (found : Registered C) (hphase : s.validating v = .comparing (some found))
      (hlease : found.lease = (d.validates v).lease) :
      ValidateMove d s v (s.lookOn v .observing)
  | attests (now : DateTime) (hphase : s.validating v = .observing) :
      ValidateMove d s v (s.lookOn v (.left (.ok (d.attests v now))))
  | refuses (failure : CoordinatorFailure) :
      ValidateMove d s v (s.lookOn v (.left (.error failure)))

section

omit [DecidableEq P] [DecidableEq I] [DecidableEq C]

theorem validateStep_moves (d : Deployment P I C V) (s : Coordination P I C V) (v : V)
    (answer : Answer) : ValidateMove d s v (s.validateStep d v answer) := by
  unfold Coordination.validateStep
  cases hphase : s.validating v with
  | looking => exact .looks hphase
  | comparing found =>
      cases found with
      | none => exact .refuses _
      | some found =>
          dsimp only
          split
          · exact .refuses _
          · rename_i hsame
            rw [not_or, not_ne_iff] at hsame
            exact .finds found hphase hsame.1
  | observing =>
      dsimp only
      cases answer.raises with
      | some failure => exact .refuses _
      | none =>
          dsimp only
          split
          · exact .refuses _
          · exact .attests _ hphase
  | left outcome => exact .stays
  | died => exact .stays

theorem Coordinated.lookOn (h : Coordinated d s) (v : V) (phase : ValidatePhase C) :
    Coordinated d (s.lookOn v phase) where
  stands c := ⟨(h.stands c).locked, (h.stands c).made, (h.stands c).pending⟩
  registered := h.registered
  drawn := h.drawn
  issued := h.issued
  drawnOnce := h.drawnOnce
  issuedOnce := h.issuedOnce

theorem Coordinated.looks (h : Coordinated d s) {v : V} {s' : Coordination P I C V}
    (hmove : ValidateMove d s v s') : Coordinated d s' := by
  cases hmove with
  | stays => exact h
  | looks hphase => exact h.lookOn v _
  | finds found hphase hlease => exact h.lookOn v _
  | attests now hphase => exact h.lookOn v _
  | refuses failure => exact h.lookOn v _

end

omit [DecidableEq I] [DecidableEq C] [DecidableEq V] in
/-- What the calls of other processes have does not die with a process. -/
theorem Coordinated.crash (h : Coordinated d s) (p : P) : Coordinated d (s.crash d p) := by
  have hacquiring : ∀ c, (s.crash d p).acquiring c =
      if (d.coordinatorOf c).process = p then .died else s.acquiring c := fun _ => rfl
  refine ⟨?_, ?_, h.drawn, h.issued, h.drawnOnce, h.issuedOnce⟩
  · intro c
    rw [hacquiring]
    by_cases hp : (d.coordinatorOf c).process = p
    · rw [if_pos hp]
      exact Stands.bare ⟨id, rfl, rfl, rfl⟩
    · rw [if_neg hp]
      refine ⟨fun hlocked => ?_, (h.stands c).made, (h.stands c).pending⟩
      show (s.locks (d.operationKey c)).filter _ = some c
      rw [(h.stands c).locked hlocked]
      simp [Option.filter, hp]
  · intro i leaseId entry hentry
    change (if (d.coordinators i).process = p then Dict.empty else s.active i) leaseId =
      some entry at hentry
    by_cases hi : (d.coordinators i).process = p
    · rw [if_pos hi] at hentry
      cases hentry
    · rw [if_neg hi] at hentry
      obtain ⟨hcoordinator, hid, hout⟩ := h.registered i leaseId entry hentry
      refine ⟨hcoordinator, hid, ?_⟩
      have hp : (d.coordinatorOf entry.file).process ≠ p := by
        unfold Deployment.coordinatorOf
        rw [hcoordinator]
        exact hi
      unfold Coordination.Out
      rw [hacquiring, if_neg hp]
      exact hout

/-- **A step of any kind keeps what holds.** -/
theorem Coordinated.step (h : Coordinated d s) (event : CoordinatorEvent P C V) :
    Coordinated d (s.step d event) := by
  cases event with
  | acquire c answer => exact h.moves (acquireStep_moves d s c answer)
  | validate v answer => exact h.looks (validateStep_moves d s v answer)
  | crash p => exact h.crash p

theorem coordinated_after (d : Deployment P I C V) (fences : Dict String Nat)
    (events : List (CoordinatorEvent P C V)) : Coordinated d (Coordination.after d fences events) :=
  Replay.invariant (coordinated_start fences) (fun _ event h => h.step event) events

/-! ### What `validate` accepts -/

/-- The call found this in the registry when it looked, at its first step. -/
def Looked (d : Deployment P I C V) (fences : Dict String Nat)
    (events : List (CoordinatorEvent P C V)) (v : V) (found : Registered C) : Prop :=
  ∃ before answer rest, events = before ++ .validate v answer :: rest ∧
    (Coordination.after d fences before).validating v = .looking ∧
    (Coordination.after d fences before).active (d.validates v).coordinator
      (d.validates v).lease.leaseId = some found

/-- What a call of `validate` has seen that stands at a phase. -/
def Saw (d : Deployment P I C V) (fences : Dict String Nat)
    (events : List (CoordinatorEvent P C V)) (v : V) : ValidatePhase C → Prop
  | .looking => True
  | .comparing found => ∀ entry ∈ found, Looked d fences events v entry
  | .observing => ∃ entry, entry.lease = (d.validates v).lease ∧ Looked d fences events v entry
  | .left (.ok _) => ∃ entry, entry.lease = (d.validates v).lease ∧ Looked d fences events v entry
  | .left (.error _) => True
  | .died => True

theorem Looked.snoc {fences : Dict String Nat} {events : List (CoordinatorEvent P C V)} {v : V}
    {found : Registered C} (h : Looked d fences events v found)
    (event : CoordinatorEvent P C V) : Looked d fences (events ++ [event]) v found := by
  obtain ⟨before, answer, rest, rfl, hlooking, hfound⟩ := h
  exact ⟨before, answer, rest ++ [event], by simp, hlooking, hfound⟩

theorem Saw.snoc {fences : Dict String Nat} {events : List (CoordinatorEvent P C V)} {v : V}
    {phase : ValidatePhase C} (h : Saw d fences events v phase)
    (event : CoordinatorEvent P C V) : Saw d fences (events ++ [event]) v phase := by
  cases phase with
  | looking => exact trivial
  | comparing found => exact fun entry hentry => (h entry hentry).snoc event
  | observing =>
      obtain ⟨entry, hlease, hlooked⟩ := h
      exact ⟨entry, hlease, hlooked.snoc event⟩
  | left outcome =>
      cases outcome with
      | error failure => exact trivial
      | ok validation =>
          obtain ⟨entry, hlease, hlooked⟩ := h
          exact ⟨entry, hlease, hlooked.snoc event⟩
  | died => exact trivial

omit [Hashing] [DecidableEq P] [DecidableEq I] [DecidableEq C] in
theorem lookOn_validating (v v' : V) (phase : ValidatePhase C) :
    (s.lookOn v phase).validating v' = if v' = v then phase else s.validating v' := by
  show update s.validating v phase v' = _
  rw [Function.update_apply]

omit [DecidableEq P] [DecidableEq V] in
/-- A call of `acquire` does not touch those of `validate`. -/
theorem AcquireMove.validating {c : C} {s' : Coordination P I C V} (h : AcquireMove d s c s') :
    s'.validating = s.validating := by
  cases h <;> rfl

/-- What every call of `validate` stands on, it has seen. -/
theorem saw_after (d : Deployment P I C V) (fences : Dict String Nat)
    (events : List (CoordinatorEvent P C V)) (v : V) :
    Saw d fences events v ((Coordination.after d fences events).validating v) := by
  induction events using List.reverseRecOn with
  | nil => exact trivial
  | append_singleton events event ih =>
      have hafter : Coordination.after d fences (events ++ [event]) =
          (Coordination.after d fences events).step d event := Replay.snoc ..
      have hlater := ih.snoc event
      rw [hafter]
      cases event with
      | acquire c answer =>
          have hmove := acquireStep_moves d (Coordination.after d fences events) c answer
          show Saw _ _ _ _ ((Coordination.acquireStep d _ c answer).validating v)
          rw [hmove.validating]
          exact hlater
      | crash p =>
          show Saw _ _ _ _ (if _ then ValidatePhase.died else _)
          split
          · exact trivial
          · exact hlater
      | validate v' answer =>
          show Saw _ _ _ _ ((Coordination.validateStep d _ v' answer).validating v)
          have hmove := validateStep_moves d (Coordination.after d fences events) v' answer
          by_cases hv : v = v'
          · subst hv
            generalize Coordination.validateStep d _ v answer = s' at hmove
            cases hmove with
            | stays => exact hlater
            | looks hphase =>
                rw [lookOn_validating, if_pos rfl]
                exact fun entry hentry => ⟨events, answer, [], rfl, hphase, hentry⟩
            | finds found hphase hlease =>
                rw [hphase] at hlater
                rw [lookOn_validating, if_pos rfl]
                exact ⟨found, hlease, hlater found rfl⟩
            | attests now hphase =>
                rw [hphase] at hlater
                rw [lookOn_validating, if_pos rfl]
                exact hlater
            | refuses failure =>
                rw [lookOn_validating, if_pos rfl]
                exact trivial
          · generalize Coordination.validateStep d _ v' answer = s' at hmove
            have hsame : s'.validating v = (Coordination.after d fences events).validating v := by
              cases hmove with
              | stays => rfl
              | looks hphase => rw [lookOn_validating, if_neg hv]
              | finds found hphase hlease => rw [lookOn_validating, if_neg hv]
              | attests now hphase => rw [lookOn_validating, if_neg hv]
              | refuses failure => rw [lookOn_validating, if_neg hv]
            rw [hsame]
            exact hlater

/-- **Leases are exclusive and fenced.**  However the steps of the calls and the deaths of processes
follow each other: of one operation no two leases are out; the tokens of its leases are strictly
increasing in the order in which they were issued, and so are all the tokens that were drawn; and a
lease that `validate` accepted was the one of its operation that was out when the call looked. -/
theorem leases_exclusive (d : Deployment P I C V) (fences : Dict String Nat)
    (events : List (CoordinatorEvent P C V)) :
    (∀ c c' lease lease', (Coordination.after d fences events).Out c lease →
      (Coordination.after d fences events).Out c' lease' →
      lease.operationId = lease'.operationId → c = c' ∧ lease = lease') ∧
    (∀ operationId, (((Coordination.after d fences events).issued.filter
      (·.operationId = operationId)).map (·.fencingToken)).Pairwise (· < ·)) ∧
    (∀ operationId, (((Coordination.after d fences events).drawn.filter
      (·.1 = operationId)).map (·.2)).Pairwise (· < ·)) ∧
    ∀ v validation,
      (Coordination.after d fences events).validating v = .left (.ok validation) →
      ∃ before answer rest, events = before ++ .validate v answer :: rest ∧
        (Coordination.after d fences before).validating v = .looking ∧
        ∃ c, (Coordination.after d fences before).Out c (d.validates v).lease := by
  have hcoordinated := coordinated_after d fences events
  refine ⟨fun c c' lease lease' => hcoordinated.one, ?_, ?_, ?_⟩
  · exact increasing_of_key hcoordinated.issuedOnce
  · exact increasing_of_key hcoordinated.drawnOnce
  · intro v validation hvalidated
    have hsaw := saw_after d fences events v
    rw [hvalidated] at hsaw
    obtain ⟨entry, hlease, before, answer, rest, hevents, hlooking, hfound⟩ := hsaw
    obtain ⟨-, -, hout⟩ := (coordinated_after d fences before).registered _ _ entry hfound
    exact ⟨before, answer, rest, hevents, hlooking, entry.file, hlease ▸ hout⟩

end Exclusion

/-! ### A lease that ends while it is validated -/

section Overtaken

/-- A hash for one operation. -/
@[reducible] def oneKey : Hashing := Hashing.listedOr [] "0"

attribute [local instance] oneKey

def shownAt : DateTime := ⟨0, Text.zero_inRange⟩

def lease : Bool → ExecutionLease
  | false => ⟨"c", "i", "stage-lease-0", "operation", "session", .execution, 1, shownAt⟩
  | true => ⟨"c", "i", "stage-lease-1", "operation", "session", .execution, 2, shownAt⟩

/-- One coordinator: two calls of `acquire` for one operation, and one of `validate`. -/
def overtaken : Deployment Unit Unit Bool Unit where
  root := ""
  coordinators _ := ⟨(), "c", "i"⟩
  acquires c := ⟨(), "operation", "session", .execution, (lease c).leaseId⟩
  validates _ := ⟨(), lease false⟩

/-- The first lease is found and is still the same; then it is released, and the second one is
acquired. -/
def overtaking : List (CoordinatorEvent Unit Bool Unit) :=
  List.replicate 6 (.acquire false { now := shownAt }) ++
    List.replicate 2 (.validate () { now := shownAt }) ++
    List.replicate 5 (.acquire false { now := shownAt }) ++
    List.replicate 6 (.acquire true { now := shownAt })

/-- `validate` accepts a lease that is not out any more, while the next one of its operation is. -/
theorem accepted_after_release :
    (∀ c, ¬ (Coordination.after overtaken Dict.empty overtaking).Out c (lease false)) ∧
    (Coordination.after overtaken Dict.empty overtaking).Out true (lease true) ∧
    (lease true).operationId = (lease false).operationId ∧
    (Coordination.after overtaken Dict.empty
      (overtaking ++ [.validate () { now := shownAt }])).validating () =
        .left (.ok (overtaken.attests () shownAt)) := by
  refine ⟨fun c => ?_, rfl, rfl, rfl⟩
  cases c with
  | false => exact fun h => by cases h
  | true =>
      intro h
      have hlease : lease true = lease false := Option.some.inj h
      exact absurd hlease (by decide)

end Overtaken

end Evleda.StageJournal
