/-
The host's validation of a proposal.

Each part of the model's answer is read with its checks, in the order of the
source: the questions, the tasks and the walk over their dependencies, the
operations, and last the rules between them.  The checks of an operation's
parameters are two: the names of the parameters are compared with the forbidden
ones, and all that is inside them is searched for what is not canonical JSON.

`room` is how many calls may be nested when the dependencies are walked, which the
interpreter limits.
-/
import Evleda.AgentRuntime.Models
import Evleda.Lib.DepthFirst

namespace Evleda.AgentRuntime

open DepthFirst

variable [UnicodeData]

def invalid (message : String) : Failure := .proposalValidation message

/-- `repr` of a list of texts. -/
def reprTexts (texts : List String) : String :=
  "[" ++ String.intercalate ", " (texts.map Text.repr) ++ "]"

/-! ### Readers -/

/-- `_mapping` -/
def mapping (value : Value) (label : String) (exactKeys : List String) :
    Except Failure (List (String × Value)) :=
  match value with
  | .obj members => do
      let keys := members.map Prod.fst
      let missing := sortedSet (exactKeys.filter (· ∉ keys))
      let extra := sortedSet (keys.filter (· ∉ exactKeys))
      require (missing = [] ∧ extra = []) (invalid (label ++ " has a closed schema (missing=" ++
        reprTexts missing ++ ", extra=" ++ reprTexts extra ++ ")"))
      return members
  | _ => .error (invalid (label ++ " must be an object with string keys"))

/-- A member of an object that has it. -/
def item (members : List (String × Value)) (key : String) : Value :=
  (members.lookup key).getD .null

/-- `_array` -/
def array (value : Value) (label : String) : Except Failure (List Value) :=
  match value with
  | .arr items => .ok items
  | _ => .error (invalid (label ++ " must be an array"))

/-- `_text` -/
def text (value : Value) (label : String) : Except Failure String :=
  match value with
  | .str s => do
      require (Text.isBlank s = false) (invalid (label ++ " must be non-empty text"))
      require (s.length ≤ 16384) (invalid (label ++ " is too long"))
      return s
  | _ => .error (invalid (label ++ " must be non-empty text"))

/-- `_string_array` -/
def stringArray (value : Value) (label : String) (identifiers : Bool) (minItems : Nat)
    (sortedUnique : Bool) : Except Failure (List String) := do
  let items ← (← array value label).mapM fun item => text item (label ++ "[]")
  require (minItems ≤ items.length)
    (invalid (label ++ " requires at least " ++ toString minItems ++ " entries"))
  requireWhen identifiers (items.forM fun item => requireIdentifier item (label ++ "[]"))
  requireWhen sortedUnique
    (require (items = sortedSet items) (invalid (label ++ " must be sorted and unique")))
  requireWhen (sortedUnique = false)
    (require items.Nodup (invalid (label ++ " must be unique")))
  return items

/-- Identifiers in increasing order. -/
def identifierArray (value : Value) (label : String) (minItems : Nat) :
    Except Failure (List String) :=
  stringArray value label true minItems true

omit [UnicodeData] in
/-- `canonical_json`, as far as it may raise: an integer of too many digits is not written. -/
def canonicalJson (n : Int) : Except Failure Unit :=
  require ((Nat.toDigits 10 n.natAbs).length ≤ 4300) .valueError

mutual

/-- `_reject_noncanonical_json` -/
def rejectNoncanonicalJson (label : String) : Value → Except Failure Unit
  | .float _ => .error (.proposalValidation (label ++ " cannot contain floating-point values"))
  | .int n => canonicalJson n
  | .obj members => rejectMembers label members
  | .arr items => rejectItems label 0 items
  | _ => .ok ()

def rejectMembers (label : String) : List (String × Value) → Except Failure Unit
  | [] => .ok ()
  | (key, child) :: rest => do
      rejectNoncanonicalJson (label ++ "." ++ key) child
      rejectMembers label rest

def rejectItems (label : String) (index : Nat) : List Value → Except Failure Unit
  | [] => .ok ()
  | child :: rest => do
      rejectNoncanonicalJson (label ++ "[" ++ toString index ++ "]") child
      rejectItems label (index + 1) rest

end

/-! ### Tasks -/

/-- `dependencies[task_id]` -/
def dependenciesOf (tasks : List ProposedTask) (taskId : String) : List String :=
  ((tasks.find? (·.taskId == taskId)).map (·.dependencies)).getD []

/-- The checks of one task before the walk. -/
def checkDependencies (tasks : List ProposedTask) (task : ProposedTask) : Except Failure Unit := do
  let unknown := sortedSet (task.dependencies.filter (· ∉ tasks.map (·.taskId)))
  require (unknown = []) (invalid ("task " ++ task.taskId ++ " has unknown dependencies: " ++
    reprTexts unknown))
  require (task.taskId ∉ task.dependencies)
    (invalid ("task " ++ task.taskId ++ " cannot depend on itself"))

/-- `_validate_task_dag` -/
def validateTaskDag (room : Nat) (tasks : List ProposedTask) : Except Failure Unit := do
  tasks.forM (checkDependencies tasks)
  let _ ← visitAll (dependenciesOf tasks) (invalid "task dependencies must be acyclic")
    .recursionError room (sortedSet (tasks.map (·.taskId))) ⟨[], []⟩
  return ()

/-! ### Parts of a proposal -/

def topLevelKeys : List String :=
  ["context_digest", "summary", "questions", "tasks", "operations", "residual_risks"]

def questionKeys : List String :=
  ["question_id", "prompt", "rationale", "options", "recommendation", "blocking",
    "affected_artifact_ids"]

def taskKeys : List String :=
  ["task_id", "role", "objective", "dependencies", "required_capabilities", "acceptance_checks",
    "risk"]

def operationKeys : List String :=
  ["operation_id", "action", "target_id", "parameters", "evidence_ids"]

def forbiddenParameterNames : List String :=
  ["command", "command_line", "file_path", "path", "shell", "source_text"]

def proposedQuestion (raw : Value) (index : Nat) : Except Failure ProposedQuestion := do
  let fields ← mapping raw ("questions[" ++ toString index ++ "]") questionKeys
  let questionId ← text (item fields "question_id") "question_id"
  requireIdentifier questionId "question_id"
  let options ← stringArray (item fields "options") "question.options" false 2 false
  let recommendation ← text (item fields "recommendation") "question.recommendation"
  require (recommendation ∈ options)
    (invalid "question recommendation must exactly match an option")
  match item fields "blocking" with
  | .bool blocking => do
      let prompt ← text (item fields "prompt") "question.prompt"
      let rationale ← text (item fields "rationale") "question.rationale"
      let affectedArtifactIds ← identifierArray (item fields "affected_artifact_ids")
        "question.affected_artifact_ids" 0
      return ⟨questionId, prompt, rationale, options, recommendation, blocking,
        affectedArtifactIds⟩
  | _ => .error (invalid "question.blocking must be boolean")

def proposedTask (context : AgentTaskContext) (raw : Value) (index : Nat) :
    Except Failure ProposedTask := do
  let fields ← mapping raw ("tasks[" ++ toString index ++ "]") taskKeys
  let taskId ← text (item fields "task_id") "task_id"
  requireIdentifier taskId "task_id"
  match ProposalRole.ofValue (item fields "role"), ProposalRisk.ofValue (item fields "risk") with
  | some role, some risk => do
      let requiredCapabilities ← identifierArray (item fields "required_capabilities")
        "task.required_capabilities" 0
      let unauthorized := sortedSet
        (requiredCapabilities.filter (· ∉ context.val.allowedCapabilities))
      require (unauthorized = []) (invalid ("task requests unauthorized capabilities: " ++
        reprTexts unauthorized))
      let objective ← text (item fields "objective") "task.objective"
      let dependencies ← identifierArray (item fields "dependencies") "task.dependencies" 0
      let acceptanceChecks ← identifierArray (item fields "acceptance_checks")
        "task.acceptance_checks" 1
      return ⟨taskId, role, objective, dependencies, requiredCapabilities, acceptanceChecks, risk⟩
  | _, _ => .error (invalid "task role or risk is unsupported")

def proposedOperation (context : AgentTaskContext) (raw : Value) (index : Nat) :
    Except Failure ProposedOperation := do
  let fields ← mapping raw ("operations[" ++ toString index ++ "]") operationKeys
  let operationId ← text (item fields "operation_id") "operation_id"
  let targetId ← text (item fields "target_id") "target_id"
  requireIdentifier operationId "operation_id"
  requireIdentifier targetId "target_id"
  match ProposalAction.ofValue (item fields "action") with
  | none => .error (invalid "operation action is unsupported")
  | some action => do
      require (action ∈ context.val.allowedActions)
        (invalid ("operation action is not allowed: " ++ action.value))
      match item fields "parameters" with
      | .obj parameters => do
          let forbidden := sortedSet
            (forbiddenParameterNames.filter (· ∈ parameters.map Prod.fst))
          require (forbidden = []) (invalid
            ("operation contains forbidden escape-hatch parameters: " ++ reprTexts forbidden))
          rejectNoncanonicalJson "operation.parameters" (.obj parameters)
          let evidenceIds ← identifierArray (item fields "evidence_ids")
            "operation.evidence_ids" 0
          let unknownEvidence := sortedSet
            (evidenceIds.filter (· ∉ context.val.evidenceIds))
          require (unknownEvidence = []) (invalid ("operation cites unknown evidence: " ++
            reprTexts unknownEvidence))
          return ⟨operationId, action, targetId, parameters, evidenceIds⟩
      | _ => .error (invalid "operation parameters must be an object")

/-- `validate_proposal` -/
def validateProposal [Hashing] (room : Nat) (payload : Value) (context : AgentTaskContext) :
    Except Failure AgentProposal := do
  let root ← mapping payload "proposal" topLevelKeys
  let contextDigest ← text (item root "context_digest") "context_digest"
  require (contextDigest = context.val.contextDigest)
    (invalid "proposal context_digest does not match exact task context")
  let questions ← (← array (item root "questions") "questions").zipIdx.mapM
    fun raw => proposedQuestion raw.1 raw.2
  require (questions.map (·.questionId)).Nodup (invalid "question IDs must be unique")
  let tasks ← (← array (item root "tasks") "tasks").zipIdx.mapM
    fun raw => proposedTask context raw.1 raw.2
  require (tasks.map (·.taskId)).Nodup (invalid "task IDs must be unique")
  validateTaskDag room tasks
  let operations ← (← array (item root "operations") "operations").zipIdx.mapM
    fun raw => proposedOperation context raw.1 raw.2
  require (operations.map (·.operationId)).Nodup (invalid "operation IDs must be unique")
  require (¬ ((∃ question ∈ questions, question.blocking) ∧ operations ≠ []))
    (invalid "blocking questions prohibit design operations until the user answers")
  let summary ← text (item root "summary") "summary"
  let residualRisks ← stringArray (item root "residual_risks") "residual_risks" false 0 false
  return ⟨contextDigest, summary, questions, tasks, operations, residualRisks⟩

end Evleda.AgentRuntime
