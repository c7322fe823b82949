/-
Rules, and the policy that configures them.

A policy may switch a rule off, weigh what it reports and set its parameters, and it names
gates, which close on findings from a severity upwards.  What a policy may not do is
checked before any rule runs: a mandatory rule stays on, a mandatory fatal one stays
fatal, and the three required gates are there and close as early as the program asks.
-/
import Evleda.Verification.Normalized
import Evleda.Lib.Decimal
import Evleda.Lib.Json
import Evleda.Lib.Outcome
import Mathlib.Data.Sum.Order

namespace Evleda.Verification

/-- What the engine raises; `unordered` is Python's `TypeError` for values `<` cannot compare. -/
inductive VerifyError where
  | configuration (message : String)
  | input (message : String)
  | execution (message : String)
  | unordered
  deriving DecidableEq

/-- Refuse the rules or the policy, with a message, unless `c` holds. -/
def demand (c : Prop) [Decidable c] (message : String) : Except VerifyError Unit :=
  require c (.configuration message)

/-! ### The records of a policy -/

inductive Severity where
  | info | warning | error | fatal
  deriving DecidableEq

def Severity.value : Severity → String
  | .info => "info"
  | .warning => "warning"
  | .error => "error"
  | .fatal => "fatal"

def Severity.rank : Severity → Nat
  | .info => 0
  | .warning => 1
  | .error => 2
  | .fatal => 3

inductive RuleDomain where
  | system | electrical | geometry | algorithm
  deriving DecidableEq

def RuleDomain.value : RuleDomain → String
  | .system => "system"
  | .electrical => "electrical"
  | .geometry => "geometry"
  | .algorithm => "algorithm"

inductive ParameterType where
  | integer | boolean | string
  deriving DecidableEq

def ParameterType.value : ParameterType → String
  | .integer => "integer"
  | .boolean => "boolean"
  | .string => "string"

def Scalar.parameterType : Scalar → ParameterType
  | .integer _ => .integer
  | .boolean _ => .boolean
  | .text _ => .string

structure ParameterSpec where
  name : String
  parameterType : ParameterType
  default : Scalar
  minimum : Option Int := none
  maximum : Option Int := none
  deriving DecidableEq

structure RuleDefinition where
  ruleId : String
  version : String
  domain : RuleDomain
  title : String
  description : String
  defaultSeverity : Severity
  parameters : List ParameterSpec := []
  mandatory : Bool := false
  deriving DecidableEq

structure ParameterValue where
  name : String
  value : Scalar
  deriving DecidableEq

structure RuleOverride where
  ruleId : String
  enabled : Bool := true
  severity : Option Severity := none
  parameters : List ParameterValue := []
  deriving DecidableEq

structure GateDefinition where
  gateId : String
  title : String
  blockAtOrAbove : Severity
  domains : List RuleDomain := []
  ruleIds : List String := []
  exemptRuleIds : List String := []
  requiredExternalEvidenceIds : List String := []
  deriving DecidableEq

structure VerificationPolicy where
  overrides : List RuleOverride := []
  gates : List GateDefinition := []
  deriving DecidableEq

/-! ### Normal forms -/

/-- What `<` compares of a scalar: `True` and `False` are numbers. -/
def Scalar.key : Scalar → Int ⊕ₗ String
  | .integer n => Sum.inlₗ n
  | .boolean b => Sum.inlₗ (if b then 1 else 0)
  | .text s => Sum.inrₗ s

/-- A scalar, or the members of a tuple. -/
def EvidenceValue.key : EvidenceValue → Bool ×ₗ List (Int ⊕ₗ String)
  | .integer n => toLex (false, [(Scalar.integer n).key])
  | .boolean b => toLex (false, [(Scalar.boolean b).key])
  | .text s => toLex (false, [(Scalar.text s).key])
  | .scalars values => toLex (true, values.map Scalar.key)

/-- `<` compares tuples that first differ, if they do, in two numbers or two texts. -/
def tuplesComparable : List (Int ⊕ₗ String) → List (Int ⊕ₗ String) → Bool
  | a :: as, b :: bs =>
      if a = b then tuplesComparable as bs else (ofLex a).isLeft == (ofLex b).isLeft
  | _, _ => true

def keysComparable (first second : Bool ×ₗ List (Int ⊕ₗ String)) : Bool :=
  (ofLex first).1 == (ofLex second).1 && tuplesComparable (ofLex first).2 (ofLex second).2

/-- `sorted` of items with names and values, which compares the values under one name. -/
def sortedItems {α : Type} (key : α → String ×ₗ (Bool ×ₗ List (Int ⊕ₗ String))) (items : List α) :
    Except VerifyError (List α) := do
  require (∀ pair ∈ laterPairs items, (ofLex (key pair.1)).1 = (ofLex (key pair.2)).1 →
    keysComparable (ofLex (key pair.1)).2 (ofLex (key pair.2)).2 = true) .unordered
  return sortBy key items

def RuleOverride.normalized (override : RuleOverride) : Except VerifyError RuleOverride := do
  let parameters ← sortedItems
    (fun item : ParameterValue => toLex (item.name, toLex (false, [item.value.key])))
    override.parameters
  return { override with parameters }

def GateDefinition.normalized (gate : GateDefinition) : GateDefinition :=
  { gate with
    domains := sortBy RuleDomain.value gate.domains.dedup
    ruleIds := sortedSet gate.ruleIds
    exemptRuleIds := sortedSet gate.exemptRuleIds
    requiredExternalEvidenceIds := sortedSet gate.requiredExternalEvidenceIds }

def VerificationPolicy.normalized (policy : VerificationPolicy) :
    Except VerifyError VerificationPolicy := do
  let overrides ← policy.overrides.mapM RuleOverride.normalized
  return ⟨sortBy (·.ruleId) overrides, sortBy (·.gateId) (policy.gates.map (·.normalized))⟩

/-! ### Definitions of rules -/

section Definitions

variable [DecimalDigits]

/-- `[A-Z][A-Z0-9_]*` -/
def isIdSegment : List Char → Bool
  | [] => false
  | c :: rest => c.isUpper && rest.all fun c => c.isUpper || c.isDigit || c == '_'

/-- `RULE_ID_PATTERN.fullmatch` -/
def isRuleId (text : String) : Bool :=
  let segments := text.toList.splitOn '.'
  2 ≤ segments.length && segments.all isIdSegment

/-- `0|[1-9]\d*` -/
def isVersionNumber : List Char → Bool
  | [] => false
  | c :: rest => (c == '0' && rest.isEmpty) || (c.isDigit && c != '0' && rest.all fun c =>
      c.isDigit || (128 ≤ c.toNat && (DecimalDigits.digitOf c).isSome))

/-- `SEMVER_PATTERN.fullmatch` -/
def isSemver (text : String) : Bool :=
  let numbers := text.toList.splitOn '.'
  numbers.length == 3 && numbers.all isVersionNumber

def validateParameter (spec : ParameterSpec) (value : Scalar) (ruleId : String) :
    Except VerifyError Unit := do
  let named := "parameter " ++ ruleId ++ "." ++ spec.name
  demand (value.parameterType = spec.parameterType)
    (named ++ " must be " ++ spec.parameterType.value)
  match value with
  | .integer n => do
      demand (spec.minimum.all (· ≤ n)) (named ++ " is below " ++ spec.minimum.elim "" toString)
      demand (spec.maximum.all (n ≤ ·)) (named ++ " is above " ++ spec.maximum.elim "" toString)
  | _ => return ()

def validateRuleDefinition [UnicodeData] (definition : RuleDefinition) :
    Except VerifyError Unit := do
  demand (isRuleId definition.ruleId)
    ("invalid stable rule id: " ++ Text.repr definition.ruleId)
  demand (isSemver definition.version)
    ("rule " ++ definition.ruleId ++ " must use a numeric semantic version")
  demand (definition.parameters.map (·.name)).Nodup ("duplicate parameter in " ++ definition.ruleId)
  definition.parameters.forM fun parameter => do
    demand (Text.isBlank parameter.name = false)
      ("rule " ++ definition.ruleId ++ " parameter name must be a non-empty string")
    demand (∀ low ∈ parameter.minimum, ∀ high ∈ parameter.maximum, low ≤ high)
      ("parameter " ++ definition.ruleId ++ "." ++ parameter.name ++ " minimum exceeds maximum")
    validateParameter parameter parameter.default definition.ruleId

end Definitions

/-! ### What a policy may not do -/

def requiredGateIds : List String := ["preview", "commit", "manufacturing-release"]

def kicadEvidenceId : String := "trusted-kicad-drc-v1"

def maximumRequiredGateThresholds : List (String × Severity) :=
  [("preview", .fatal), ("commit", .error), ("manufacturing-release", .warning)]

def minimumRuleSeverities : List (String × Severity) := [("GEO.ZONE.FILL_UNVERIFIED", .warning)]

/-- `strict_policy`, in the order of its normal form -/
def strictPolicy : VerificationPolicy where
  gates := [
    ⟨"commit", "Project commit requires zero error-or-higher findings", .error, [], [], [], []⟩,
    ⟨"manufacturing-release", "Manufacturing release requires zero warning-or-higher findings",
      .warning, [], [], [], [kicadEvidenceId]⟩,
    ⟨"preview", "Preview may not contain fatal verification failures", .fatal, [], [], [], []⟩]

def requireDistinct {α : Type} [DecidableEq α] (gate : GateDefinition) (field : String)
    (values : List α) : Except VerifyError Unit :=
  demand values.Nodup ("gate " ++ gate.gateId ++ " " ++ field ++ " contains duplicates")

/-- `_validate_policy_shape` -/
def validatePolicyShape (policy : VerificationPolicy) : Except VerifyError Unit :=
  policy.gates.forM fun gate => do
    requireDistinct gate "domains" gate.domains
    requireDistinct gate "rule_ids" gate.ruleIds
    requireDistinct gate "exempt_rule_ids" gate.exemptRuleIds
    requireDistinct gate "required_external_evidence_ids" gate.requiredExternalEvidenceIds
    demand (∀ item ∈ gate.requiredExternalEvidenceIds, Text.isBlank item = false)
      ("gate " ++ gate.gateId ++ " external evidence ids must be non-empty")

/-- Refuse the policy when there is something to refuse, named in order. -/
def requireNone (message : String) (names : List String) : Except VerifyError Unit :=
  demand (names = []) (message ++ ", ".intercalate (sortedSet names))

/-- `_validate_policy`, for one gate -/
def validateGate (known mandatoryFatal : List String) (gate : GateDefinition) :
    Except VerifyError Unit := do
  demand (Text.isBlank gate.gateId = false) "gate id must be non-empty"
  requireNone ("gate " ++ gate.gateId ++ " references unknown rules: ")
    ((gate.ruleIds ++ gate.exemptRuleIds).filter (· ∉ known))
  requireNone ("gate " ++ gate.gateId ++ " cannot exempt mandatory fatal rules: ")
    (gate.exemptRuleIds.filter (· ∈ mandatoryFatal))
  demand (gate.gateId ∈ requiredGateIds →
      gate.domains = [] ∧ gate.ruleIds = [] ∧ gate.exemptRuleIds = [])
    ("required gate " ++ gate.gateId ++ " cannot scope or exempt verification rules")
  (maximumRequiredGateThresholds.lookup gate.gateId).toList.forM fun maximum =>
    demand (gate.blockAtOrAbove.rank ≤ maximum.rank)
      ("required gate " ++ gate.gateId ++ " threshold cannot be weaker than " ++ maximum.value)
  demand (gate.gateId = "manufacturing-release" →
      kicadEvidenceId ∈ gate.requiredExternalEvidenceIds)
    "manufacturing-release requires trusted KiCad DRC evidence"

/-- `_validate_policy`, of a policy in its normal form -/
def validatePolicy (definitions : List RuleDefinition) (policy : VerificationPolicy) :
    Except VerifyError Unit := do
  let known := definitions.map (·.ruleId)
  let mandatoryFatal := (definitions.filter fun definition =>
    definition.mandatory = true ∧ definition.defaultSeverity = .fatal).map (·.ruleId)
  let overrideIds := policy.overrides.map (·.ruleId)
  demand overrideIds.Nodup "policy contains duplicate rule overrides"
  requireNone "policy overrides unknown rules: " (overrideIds.filter (· ∉ known))
  let gateIds := policy.gates.map (·.gateId)
  demand gateIds.Nodup "policy contains duplicate gate ids"
  requireNone "policy is missing required gates: " (requiredGateIds.filter (· ∉ gateIds))
  policy.gates.forM (validateGate known mandatoryFatal)
  policy.overrides.forM fun override =>
    (minimumRuleSeverities.lookup override.ruleId).toList.forM fun minimum =>
      demand (∀ severity ∈ override.severity, minimum.rank ≤ severity.rank)
        ("rule " ++ override.ruleId ++ " severity cannot be weaker than " ++ minimum.value)

/-- `_gate_selects` -/
def gateSelects (gate : GateDefinition) (definition : RuleDefinition) : Bool :=
  definition.ruleId ∉ gate.exemptRuleIds &&
    (gate.domains = [] || definition.domain ∈ gate.domains) &&
    (gate.ruleIds = [] || definition.ruleId ∈ gate.ruleIds)

end Evleda.Verification
