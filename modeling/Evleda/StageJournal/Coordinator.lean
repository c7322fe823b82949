/-
Execution leases for import staging: an operating-system lock that the death of a
process releases, a durable counter of fencing tokens, and a registry of the leases
that are out.

`acquire` is a context manager.  It enters the operation in a set of its process,
locks the operation's file, draws the next token, makes the lease and registers it;
on the way out the entry, the lock, the file and the set's element go in this order.
Each of these is one step, with an exit at each step that can raise; so are the parts
of `validate`.  Any number of coordinators in any number of processes take their
steps in any order, and a process may die between two steps.

A call holds the operation's lock from the token to the unlocking, so that nobody
draws another token of that operation in between.
-/
import Evleda.ImportApproval.Ledger

namespace Evleda.StageJournal

open Function

/-! ### Leases -/

inductive LeaseMode
  | execution
  | recovery
  deriving DecidableEq, Repr

def LeaseMode.value : LeaseMode → String
  | .execution => "execution"
  | .recovery => "recovery"

/-- A lease; its attestation is computed from it. -/
structure ExecutionLease where
  coordinatorId : String
  coordinatorIncarnation : String
  leaseId : String
  operationId : String
  sessionId : String
  mode : LeaseMode
  fencingToken : Nat
  acquiredAt : DateTime
  deriving DecidableEq

def ExecutionLease.attestationSha256 [Hashing] (lease : ExecutionLease) : String :=
  Hashing.inDomain "flux-clone-import-stage-exclusive-lease-v1" <| .object [
    ("coordinator_id", .str lease.coordinatorId),
    ("coordinator_incarnation", .str lease.coordinatorIncarnation),
    ("lease_id", .str lease.leaseId),
    ("operation_id", .str lease.operationId),
    ("session_id", .str lease.sessionId),
    ("mode", .str lease.mode.value),
    ("fencing_token", .int lease.fencingToken),
    ("acquired_at", .str (ImportApproval.timeText lease.acquiredAt))]

structure ExecutionLeaseValidation where
  coordinatorId : String
  coordinatorIncarnation : String
  leaseId : String
  operationId : String
  sessionId : String
  mode : LeaseMode
  fencingToken : Nat
  leaseAttestationSha256 : String
  observedAt : DateTime
  deriving DecidableEq

/-- What a call raises; what the file system, the database or the clock raised has its own text. -/
inductive CoordinatorFailure
  | recoveryRequired (message : String)
  | invalidOperation (message : String)
  | raised (message : String)
  deriving DecidableEq, Repr

/-! ### Coordinators and their calls -/

/-- A `FileStageExecutionCoordinator`, in the process it was made in. -/
structure Coordinator (P : Type) where
  process : P
  coordinatorId : String
  coordinatorIncarnation : String

/-- A call of `acquire`, with the random identifier its lease gets. -/
structure AcquireCall (I : Type) where
  coordinator : I
  operationId : String
  sessionId : String
  mode : LeaseMode
  leaseId : String

/-- A call of `validate`. -/
structure ValidateCall (I : Type) where
  coordinator : I
  lease : ExecutionLease

/-- The processes `P` with their coordinators `I` on one root, and the calls: `C` of `acquire` and
`V` of `validate`. -/
structure Deployment (P I C V : Type) where
  root : String
  coordinators : I → Coordinator P
  acquires : C → AcquireCall I
  validates : V → ValidateCall I

/-- What a registry holds for a lease: the lease, the file of the call that got it, and the key of
the operation in its process. -/
structure Registered (C : Type) where
  lease : ExecutionLease
  file : C
  processKey : String

/-- Where a call of `acquire` stands: at the step that it takes next. -/
inductive AcquirePhase
  | entering
  | opening
  | locking
  | fencing
  | making (token : Nat)
  | registering (lease : ExecutionLease)
  | holding (lease : ExecutionLease)
  | unregistering (lease : ExecutionLease) (outcome : Except CoordinatorFailure Unit)
  | unlocking (outcome : Except CoordinatorFailure Unit)
  | closing (outcome : Except CoordinatorFailure Unit)
  | discarding (outcome : Except CoordinatorFailure Unit)
  | left (outcome : Except CoordinatorFailure Unit)
  | died

/-- Where a call of `validate` stands. -/
inductive ValidatePhase (C : Type)
  | looking
  | comparing (found : Option (Registered C))
  | observing
  | left (outcome : Except CoordinatorFailure ExecutionLeaseValidation)
  | died

/-- What is shared by the processes, what each process has in memory, and where the calls stand.
The last two are what was drawn and issued so far, for the record. -/
structure Coordination (P I C V : Type) where
  /-- the table `operation_fences` -/
  fences : Dict String Nat
  /-- who has the lock of a file -/
  locks : Dict String C
  /-- `_process_active` -/
  processActive : P → String → Bool
  /-- `_active` -/
  active : I → Dict String (Registered C)
  closed : C → Bool
  acquiring : C → AcquirePhase
  validating : V → ValidatePhase C
  drawn : List (String × Nat)
  issued : List ExecutionLease

/-- What the environment does at a step: what it raises, if it raises, and what the clock shows. -/
structure Answer where
  raises : Option CoordinatorFailure := none
  now : DateTime

inductive CoordinatorEvent (P C V : Type)
  | acquire (call : C) (answer : Answer)
  | validate (call : V) (answer : Answer)
  | crash (process : P)

section Steps

variable [Hashing] {P I C V : Type} [DecidableEq P] [DecidableEq I] [DecidableEq C] [DecidableEq V]
  (d : Deployment P I C V)

namespace Deployment

/-- The name of the operation's lock file. -/
def operationKey (c : C) : String := Hashing.sha256 (d.acquires c).operationId.toList

def processKey (c : C) : String := d.root ++ ":" ++ d.operationKey c

def coordinatorOf (c : C) : Coordinator P := d.coordinators (d.acquires c).coordinator

/-- The lease that a call makes of its token at a moment. -/
def makes (c : C) (token : Nat) (now : DateTime) : ExecutionLease where
  coordinatorId := (d.coordinatorOf c).coordinatorId
  coordinatorIncarnation := (d.coordinatorOf c).coordinatorIncarnation
  leaseId := (d.acquires c).leaseId
  operationId := (d.acquires c).operationId
  sessionId := (d.acquires c).sessionId
  mode := (d.acquires c).mode
  fencingToken := token
  acquiredAt := now

/-- The validation of a lease by a coordinator. -/
def attests (v : V) (now : DateTime) : ExecutionLeaseValidation :=
  let coordinator := d.coordinators (d.validates v).coordinator
  let lease := (d.validates v).lease
  { coordinatorId := coordinator.coordinatorId
    coordinatorIncarnation := coordinator.coordinatorIncarnation
    leaseId := lease.leaseId
    operationId := lease.operationId
    sessionId := lease.sessionId
    mode := lease.mode
    fencingToken := lease.fencingToken
    leaseAttestationSha256 := lease.attestationSha256
    observedAt := now }

end Deployment

namespace Coordination

/-- A call of `acquire` goes on to its next step. -/
def goOn (s : Coordination P I C V) (c : C) (phase : AcquirePhase) : Coordination P I C V :=
  { s with acquiring := update s.acquiring c phase }

/-- A call of `validate` goes on to its next step. -/
def lookOn (s : Coordination P I C V) (v : V) (phase : ValidatePhase C) : Coordination P I C V :=
  { s with validating := update s.validating v phase }

def setProcessActive (s : Coordination P I C V) (p : P) (key : String) (value : Bool) :
    Coordination P I C V :=
  { s with processActive :=
      update s.processActive p (update (s.processActive p) key value) }

/-- A call gives up the lock of a file, if it has it. -/
def unlock (s : Coordination P I C V) (c : C) (key : String) : Coordination P I C V :=
  { s with locks := if s.locks key = some c then s.locks.erase key else s.locks }

/-- `_next_fencing_token`: the counter of the operation goes up by one, from nothing to one. -/
def nextFencingToken (s : Coordination P I C V) (operationId : String) : Nat :=
  match s.fences operationId with
  | none => 1
  | some token => token + 1

/-- One step of `acquire`. -/
def acquireStep (s : Coordination P I C V) (c : C) (answer : Answer) : Coordination P I C V :=
  match s.acquiring c with
  | .entering =>
      -- under the lock of the class: refuse, or enter the key in the set
      if s.processActive (d.coordinatorOf c).process (d.processKey c) then
        s.goOn c (.left (.error (.recoveryRequired
          "this process already holds the stage execution lease")))
      else (s.setProcessActive (d.coordinatorOf c).process (d.processKey c) true).goOn c .opening
  | .opening =>
      match answer.raises with
      | some failure => s.goOn c (.discarding (.error failure))
      | none => s.goOn c .locking
  | .locking =>
      match answer.raises, s.locks (d.operationKey c) with
      | some failure, _ => s.goOn c (.closing (.error failure))
      | none, some _ =>
          s.goOn c (.closing (.error (.recoveryRequired
            "another process holds the stage execution lease")))
      | none, none => { s with locks := s.locks.set (d.operationKey c) c }.goOn c .fencing
  | .fencing =>
      match answer.raises with
      | some failure => s.goOn c (.unlocking (.error failure))
      | none =>
          let operationId := (d.acquires c).operationId
          let token := s.nextFencingToken operationId
          { s with
            fences := s.fences.set operationId token
            drawn := s.drawn ++ [(operationId, token)] }.goOn c (.making token)
  | .making token =>
      match answer.raises with
      | some failure => s.goOn c (.unlocking (.error failure))
      | none => s.goOn c (.registering (d.makes c token answer.now))
  | .registering lease =>
      let coordinator := (d.acquires c).coordinator
      { s with
        active := update s.active coordinator
          ((s.active coordinator).set lease.leaseId ⟨lease, c, d.processKey c⟩)
        issued := s.issued ++ [lease] }.goOn c (.holding lease)
  | .holding lease =>
      -- the caller is done with the lease, or raised under it
      match answer.raises with
      | some failure => s.goOn c (.unregistering lease (.error failure))
      | none => s.goOn c (.unregistering lease (.ok ()))
  | .unregistering lease outcome =>
      let coordinator := (d.acquires c).coordinator
      { s with
        active := update s.active coordinator
          ((s.active coordinator).erase lease.leaseId) }.goOn c (.unlocking outcome)
  | .unlocking outcome =>
      -- what the unlocking raises is suppressed
      match answer.raises with
      | some _ => s.goOn c (.closing outcome)
      | none => (s.unlock c (d.operationKey c)).goOn c (.closing outcome)
  | .closing outcome =>
      -- closing the file gives up its lock, if it still has it
      let closed := { s.unlock c (d.operationKey c) with closed := update s.closed c true }
      match answer.raises with
      | some failure => closed.goOn c (.left (.error failure))
      | none => closed.goOn c (.discarding outcome)
  | .discarding outcome =>
      (s.setProcessActive (d.coordinatorOf c).process (d.processKey c) false).goOn c (.left outcome)
  | .left _ => s
  | .died => s

/-- One step of `validate`. -/
def validateStep (s : Coordination P I C V) (v : V) (answer : Answer) : Coordination P I C V :=
  let lease := (d.validates v).lease
  let stale : CoordinatorFailure :=
    .recoveryRequired "execution lease/fencing token is no longer active"
  match s.validating v with
  | .looking =>
      s.lookOn v (.comparing (s.active (d.validates v).coordinator lease.leaseId))
  | .comparing none => s.lookOn v (.left (.error stale))
  | .comparing (some found) =>
      if found.lease ≠ lease ∨ s.closed found.file = true then s.lookOn v (.left (.error stale))
      else s.lookOn v .observing
  | .observing =>
      match answer.raises with
      | some failure => s.lookOn v (.left (.error failure))
      | none =>
          if answer.now < lease.acquiredAt then
            s.lookOn v (.left (.error (.recoveryRequired
              "execution lease clock moved backwards")))
          else s.lookOn v (.left (.ok (d.attests v answer.now)))
  | .left _ => s
  | .died => s

/-- A process dies: its calls stop, its memory is gone, and the system releases its locks. -/
def crash (s : Coordination P I C V) (p : P) : Coordination P I C V :=
  { s with
    locks := fun key => (s.locks key).filter fun c => (d.coordinatorOf c).process ≠ p
    processActive := update s.processActive p fun _ => false
    active := fun i =>
      if (d.coordinators i).process = p then Dict.empty else s.active i
    acquiring := fun c => if (d.coordinatorOf c).process = p then .died else s.acquiring c
    validating := fun v =>
      if (d.coordinators (d.validates v).coordinator).process = p then .died
      else s.validating v }

def step (s : Coordination P I C V) : CoordinatorEvent P C V → Coordination P I C V
  | .acquire c answer => s.acquireStep d c answer
  | .validate v answer => s.validateStep d v answer
  | .crash p => s.crash d p

/-- Before any call: tokens may have been drawn by earlier processes. -/
def start (fences : Dict String Nat) : Coordination P I C V where
  fences := fences
  locks := Dict.empty
  processActive := fun _ _ => false
  active := fun _ => Dict.empty
  closed := fun _ => false
  acquiring := fun _ => .entering
  validating := fun _ => .looking
  drawn := []
  issued := []

/-- After events, from before any call. -/
def after (fences : Dict String Nat) (events : List (CoordinatorEvent P C V)) :
    Coordination P I C V :=
  replay (step d) (start fences) events

end Coordination

end Steps

end Evleda.StageJournal
