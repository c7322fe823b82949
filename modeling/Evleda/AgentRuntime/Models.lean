/-
The records of a model turn.

A model answers with a JSON value, and everything about it is to be checked: the
value is a tree of any shape, in which a number may also be a floating-point one.
What is made of it are the records of a proposal.  The context of the turn is the
program's own; its constructor refuses lists that are not sorted and unique.
-/
import Evleda.Lib.Checked
import Evleda.Lib.Collections
import Evleda.Lib.Hashing
import Evleda.Lib.Text

namespace Evleda.AgentRuntime

/-- What the host raises on a proposal: its own error, and those of the interpreter when an integer
has too many digits to be written or calls are nested too deep. -/
inductive Failure where
  | proposalValidation (message : String)
  | valueError
  | recursionError
  deriving DecidableEq, Repr

/-! ### Model output -/

/-- A JSON value as `json.loads` returns it. -/
inductive Value where
  | null
  | bool (b : Bool)
  | int (n : Int)
  | float (literal : String)
  | str (s : String)
  | arr (items : List Value)
  | obj (members : List (String × Value))

namespace Value

/-- The member of an object under a key. -/
def get? (key : String) : Value → Option Value
  | .obj members => members.lookup key
  | _ => none

mutual

/-- Every key that occurs in a value, at any depth. -/
def keys : Value → List String
  | .arr items => keysOfItems items
  | .obj members => keysOfMembers members
  | _ => []

def keysOfItems : List Value → List String
  | [] => []
  | item :: rest => keys item ++ keysOfItems rest

def keysOfMembers : List (String × Value) → List String
  | [] => []
  | (key, value) :: rest => key :: (keys value ++ keysOfMembers rest)

end

theorem mem_keysOfMembers {name : String} {members : List (String × Value)} :
    name ∈ keysOfMembers members ↔
      name ∈ members.map Prod.fst ∨ ∃ m ∈ members, name ∈ m.2.keys := by
  induction members with
  | nil => simp [keysOfMembers]
  | cons m rest ih =>
      obtain ⟨key, value⟩ := m
      rw [keysOfMembers, List.mem_cons, List.mem_append, ih]
      simp only [List.map_cons, List.mem_cons, exists_eq_or_imp]
      tauto

end Value

/-! ### Enumerations -/

inductive ProposalRole where
  | interviewer | researcher | domainDesigner | critic | releaseReviewer
  deriving DecidableEq, Repr

def ProposalRole.value : ProposalRole → String
  | .interviewer => "interviewer"
  | .researcher => "researcher"
  | .domainDesigner => "domain_designer"
  | .critic => "critic"
  | .releaseReviewer => "release_reviewer"

inductive ProposalAction where
  | addComponent | removeComponent | connectNet | disconnectNet | setProperty | setConstraint
  | placeComponent | routeNet
  deriving DecidableEq, Repr

def ProposalAction.value : ProposalAction → String
  | .addComponent => "add_component"
  | .removeComponent => "remove_component"
  | .connectNet => "connect_net"
  | .disconnectNet => "disconnect_net"
  | .setProperty => "set_property"
  | .setConstraint => "set_constraint"
  | .placeComponent => "place_component"
  | .routeNet => "route_net"

inductive ProposalRisk where
  | low | medium | high | critical
  deriving DecidableEq, Repr

def ProposalRisk.value : ProposalRisk → String
  | .low => "low"
  | .medium => "medium"
  | .high => "high"
  | .critical => "critical"

/-- The member of an enumeration that has a value; any other JSON value has none. -/
def memberOf {α : Type} (members : List α) (text : α → String) : Value → Option α
  | .str s => members.find? (fun member => text member == s)
  | _ => none

def ProposalRole.ofValue : Value → Option ProposalRole :=
  memberOf [.interviewer, .researcher, .domainDesigner, .critic, .releaseReviewer]
    ProposalRole.value

def ProposalAction.ofValue : Value → Option ProposalAction :=
  memberOf [.addComponent, .removeComponent, .connectNet, .disconnectNet, .setProperty,
    .setConstraint, .placeComponent, .routeNet] ProposalAction.value

def ProposalRisk.ofValue : Value → Option ProposalRisk :=
  memberOf [.low, .medium, .high, .critical] ProposalRisk.value

/-! ### The context of a turn -/

/-- `[A-Za-z0-9]` -/
def isAlphanumeric (c : Char) : Bool :=
  ('A' ≤ c && c ≤ 'Z') || ('a' ≤ c && c ≤ 'z') || ('0' ≤ c && c ≤ '9')

/-- `[A-Za-z0-9][A-Za-z0-9_.:-]{0,127}` -/
def isIdentifier (value : String) : Bool :=
  match value.toList with
  | [] => false
  | c :: rest =>
      isAlphanumeric c && rest.length ≤ 127 && rest.all (fun c => isAlphanumeric c ||
        c == '_' || c == '.' || c == ':' || c == '-')

def requireIdentifier (value label : String) : Except Failure Unit :=
  require (isIdentifier value) (.proposalValidation (label ++ " is not a valid identifier"))

/-- `tuple(sorted(set(items)))` -/
def sortedSet (items : List String) : List String := sortBy id items.dedup

structure EvidenceFields where
  evidenceId : String
  kind : String
  digest : String
  summary : String
  deriving DecidableEq

def EvidenceFields.checks (e : EvidenceFields) : Except Failure Unit := do
  requireIdentifier e.evidenceId "evidence_id"
  requireIdentifier e.kind "evidence.kind"
  require (Text.isSha256 e.digest) (.proposalValidation "evidence.digest must be a sha256 digest")
  require (Text.isBlank e.summary = false) (.proposalValidation "evidence.summary is required")

abbrev EvidenceReference := Checked (checking EvidenceFields.checks)

def EvidenceFields.payload (e : EvidenceFields) : Json := .object [
  ("evidence_id", .str e.evidenceId), ("kind", .str e.kind), ("digest", .str e.digest),
  ("summary", .str e.summary)]

structure ContextFields where
  runId : String
  taskId : String
  role : ProposalRole
  objective : String
  instructions : String
  inputRevision : String
  allowedActions : List ProposalAction
  allowedCapabilities : List String
  evidence : List EvidenceReference := []
  deriving DecidableEq

namespace ContextFields

variable (c : ContextFields)

def evidenceIds : List String := c.evidence.map (·.val.evidenceId)

def checks : Except Failure Unit := do
  requireIdentifier c.runId "run_id"
  requireIdentifier c.taskId "task_id"
  require (Text.isBlank c.objective = false ∧ Text.isBlank c.instructions = false)
    (.proposalValidation "objective and instructions are required")
  require (Text.isBlank c.inputRevision = false)
    (.proposalValidation "input_revision is required")
  require c.allowedActions.Nodup (.proposalValidation "allowed_actions must be unique")
  require (c.allowedActions = sortBy ProposalAction.value c.allowedActions)
    (.proposalValidation "allowed_actions must be sorted")
  require (c.allowedCapabilities = sortedSet c.allowedCapabilities)
    (.proposalValidation "allowed_capabilities must be sorted and unique")
  require (c.evidenceIds = sortedSet c.evidenceIds)
    (.proposalValidation "evidence must be sorted by unique evidence_id")

def payload : Json := .object [
  ("run_id", .str c.runId), ("task_id", .str c.taskId), ("role", .str c.role.value),
  ("objective", .str c.objective), ("instructions", .str c.instructions),
  ("input_revision", .str c.inputRevision),
  ("allowed_actions", .arr (c.allowedActions.map fun action => .str action.value)),
  ("allowed_capabilities", .arr (c.allowedCapabilities.map .str)),
  ("evidence", .arr (c.evidence.map (·.val.payload)))]

/-- `context_digest` -/
def contextDigest [Hashing] : String := Hashing.inDomain "flux-agent-context-v1" c.payload

end ContextFields

abbrev AgentTaskContext := Checked (checking ContextFields.checks)

/-! ### Proposals -/

structure ProposedQuestion where
  questionId : String
  prompt : String
  rationale : String
  options : List String
  recommendation : String
  blocking : Bool
  affectedArtifactIds : List String

structure ProposedTask where
  taskId : String
  role : ProposalRole
  objective : String
  dependencies : List String
  requiredCapabilities : List String
  acceptanceChecks : List String
  risk : ProposalRisk

structure ProposedOperation where
  operationId : String
  action : ProposalAction
  targetId : String
  parameters : List (String × Value)
  evidenceIds : List String

structure AgentProposal where
  contextDigest : String
  summary : String
  questions : List ProposedQuestion
  tasks : List ProposedTask
  operations : List ProposedOperation
  residualRisks : List String

end Evleda.AgentRuntime
