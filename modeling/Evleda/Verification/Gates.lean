/-
What a report accounts for, and what it means that a gate has passed.

What the loop over the rules leaves is told here without its accumulators: each rule was
skipped, or was called and what it returned was made into findings.  The report holds
those findings and no others, each under an identifier of its own.

A gate passes when it asks for no evidence from outside and no rule it looks at was
skipped or found something that weighs enough.  The required gates look at every rule.
-/
import Evleda.Verification.Clearance
import Evleda.Verification.Engine

namespace Evleda.Verification

open Outcome

section Runs

variable {ω : Type} [StableHash] {resolved : ResolvedRule ω} {plan : Plan ω} {rule : PlannedRule ω}
  {state state' : RunState ω} {findings found : List Finding} {executions : List RuleExecution}

/-! ### The loop without its accumulators -/

theorem materializeFinding_ok {draft : FindingDraft} {finding : Finding}
    (h : materializeFinding resolved draft = .ok finding) :
    finding.ruleId = resolved.evaluator.ruleId ∧ finding.severity = resolved.severity := by
  obtain ⟨_, -, h⟩ := bind_ok.mp h
  obtain ⟨evidence, -, h⟩ := bind_ok.mp h
  cases h
  exact ⟨rfl, rfl⟩

theorem addFinding_ok {findings findings' : List Finding × List Finding} {draft : FindingDraft}
    (hnodup : (findings.1.map (·.findingId)).Nodup)
    (h : addFinding resolved findings draft = .ok findings') :
    ∃ finding, materializeFinding resolved draft = .ok finding ∧
      (findings'.1.map (·.findingId)).Nodup ∧ findings'.2 = findings.2 ++ [finding] ∧
      ∀ f, f ∈ findings'.1 ↔ f ∈ findings.1 ∨ f = finding := by
  obtain ⟨finding, hfinding, h⟩ := bind_ok.mp h
  refine ⟨finding, hfinding, ?_⟩
  cases hfind : findings.1.find? (·.findingId = finding.findingId) with
  | none =>
      rw [hfind] at h
      cases h
      have hnew := List.find?_eq_none.mp hfind
      refine ⟨nodup_map_snoc hnodup fun f hf heq => hnew f hf (decide_eq_true heq), rfl, ?_⟩
      intro f
      rw [List.mem_append, List.mem_singleton]
  | some previous =>
      rw [hfind] at h
      obtain ⟨_, hsame, h⟩ := bind_ok.mp h
      cases h
      have hthere : finding ∈ findings.1 := require_ok.mp hsame ▸ List.mem_of_find?_eq_some hfind
      refine ⟨hnodup, rfl, fun f => ?_⟩
      rw [or_iff_left_of_imp]
      rintro rfl
      exact hthere

theorem addFindings_ok {drafts : List FindingDraft} {findings findings' : List Finding × List Finding}
    (hnodup : (findings.1.map (·.findingId)).Nodup)
    (h : drafts.foldlM (addFinding resolved) findings = .ok findings') :
    ∃ found, drafts.mapM (materializeFinding resolved) = .ok found ∧
      (findings'.1.map (·.findingId)).Nodup ∧ findings'.2 = findings.2 ++ found ∧
      ∀ f, f ∈ findings'.1 ↔ f ∈ findings.1 ∨ f ∈ found := by
  induction drafts generalizing findings with
  | nil =>
      cases h
      exact ⟨[], rfl, hnodup, by simp, by simp⟩
  | cons draft drafts ih =>
      obtain ⟨middle, hmiddle, h⟩ := foldlM_cons_ok.mp h
      obtain ⟨finding, hfinding, hnodup', happend, hmem⟩ := addFinding_ok hnodup hmiddle
      obtain ⟨found, hfound, hids, happend', hmem'⟩ := ih hnodup' h
      refine ⟨finding :: found, mapM_ok.mpr (.cons hfinding (mapM_ok.mp hfound)), hids, ?_, ?_⟩
      · rw [happend', happend, List.append_assoc, List.singleton_append]
      · intro f
        rw [hmem', hmem, List.mem_cons, or_assoc]

/-- How a rule came to its execution: it was skipped, or called once, and its drafts made findings. -/
inductive Turn (plan : Plan ω) (rule : PlannedRule ω) : ω → Option (List Finding) → ω → Prop
  | skipped {live : ω} (stays : ¬ rule.Runs plan.board) : Turn plan rule live none live
  | called {live live' : ω} {drafts : List FindingDraft} {found : List Finding}
      (runs : rule.Runs plan.board)
      (returned : rule.evaluator.evaluate plan.board
        ⟨rule.severity, rule.parameters, plan.geometry⟩ live = (.ok drafts, live'))
      (made : drafts.mapM (materializeFinding rule.toResolvedRule) = .ok found) :
      Turn plan rule live (some found) live'

/-- The rules with what they found, of those that ran. -/
abbrev Told (ω : Type) := List (PlannedRule ω × Option (List Finding))

/-- The turns one after the other: what a turn leaves live is what the next one finds. -/
inductive Turns (plan : Plan ω) (live : ω) : Told ω → ω → Prop
  | start : Turns plan live [] live
  | snoc {told : Told ω} {rule : PlannedRule ω} {found : Option (List Finding)} {middle live' : ω}
      (before : Turns plan live told middle) (turn : Turn plan rule middle found live') :
      Turns plan live (told ++ [(rule, found)]) live'

variable {told : Told ω} {live live' : ω}

theorem Turns.turn (h : Turns plan live told live') {turn : PlannedRule ω × Option (List Finding)}
    (hturn : turn ∈ told) : ∃ m m', Turn plan turn.1 m turn.2 m' := by
  induction h with
  | start => cases hturn
  | snoc before last ih =>
      rcases List.mem_append.mp hturn with hturn | hturn
      · exact ih hturn
      · rw [List.mem_singleton.mp hturn]
        exact ⟨_, _, last⟩

/-- The findings and the executions are those of the turns. -/
structure Account (plan : Plan ω) (live : ω) (told : Told ω) (findings : List Finding)
    (executions : List RuleExecution) (live' : ω) : Prop where
  turns : Turns plan live told live'
  executed : executions = told.map fun turn => turn.1.execution plan.board turn.2
  distinct : (findings.map (·.findingId)).Nodup
  found : ∀ f, f ∈ findings ↔ ∃ turn ∈ told, ∃ found ∈ turn.2, f ∈ found

theorem Account.snoc {findings' : List Finding} {found : Option (List Finding)} {middle : ω}
    (h : Account plan live told findings executions middle) (hturn : Turn plan rule middle found live')
    (hdistinct : (findings'.map (·.findingId)).Nodup)
    (hmem : ∀ f, f ∈ findings' ↔ f ∈ findings ∨ ∃ fs ∈ found, f ∈ fs) :
    Account plan live (told ++ [(rule, found)]) findings'
      (executions ++ [rule.execution plan.board found]) live' := by
  refine ⟨h.turns.snoc hturn, ?_, hdistinct, ?_⟩
  · rw [List.map_append, ← h.executed]
    rfl
  · intro f
    rw [hmem, h.found]
    simp only [List.mem_append, List.mem_singleton, or_and_right, exists_or, exists_eq_left]

/-- One round adds one turn. -/
theorem Account.step (hstate : Account plan live told state.findings state.executions state.live)
    (h : plan.runRule state rule = .ok state') :
    ∃ found, Account plan live (told ++ [(rule, found)]) state'.findings state'.executions
      state'.live := by
  obtain ⟨_, -, h⟩ := bind_ok.mp h
  by_cases hruns : rule.Runs plan.board
  · rw [if_pos hruns] at h
    obtain ⟨drafts, hdrafts, h⟩ := bind_ok.mp h
    obtain ⟨added, hadded, h⟩ := bind_ok.mp h
    obtain ⟨_, -, h⟩ := bind_ok.mp h
    cases h
    obtain ⟨found, hfound, hids, hrule, hmem⟩ := addFindings_ok hstate.distinct hadded
    generalize houtcome : rule.evaluator.evaluate plan.board _ state.live = outcome at hdrafts
    have hreturned : outcome = (.ok drafts, outcome.2) := by
      cases hfst : outcome.1 with
      | error text =>
          rw [hfst] at hdrafts
          cases hdrafts
      | ok _ =>
          rw [hfst] at hdrafts
          cases hdrafts
          rw [← hfst]
    have hturn : Turn plan rule state.live (some found) outcome.2 :=
      .called hruns (houtcome.trans hreturned) hfound
    rw [hrule]
    exact ⟨some found, hstate.snoc hturn hids fun f => by simpa using hmem f⟩
  · rw [if_neg hruns] at h
    cases h
    exact ⟨none, hstate.snoc (.skipped hruns) hstate.distinct fun f => by simp⟩

theorem Account.run {rules : List (PlannedRule ω)}
    (hstate : Account plan live told state.findings state.executions state.live)
    (h : rules.foldlM plan.runRule state = .ok state') :
    ∃ told', told'.map Prod.fst = told.map Prod.fst ++ rules ∧
      Account plan live told' state'.findings state'.executions state'.live := by
  induction rules generalizing state told with
  | nil =>
      cases h
      exact ⟨told, by simp, hstate⟩
  | cons rule rules ih =>
      obtain ⟨middle, hround, h⟩ := foldlM_cons_ok.mp h
      obtain ⟨found, hmiddle⟩ := hstate.step hround
      obtain ⟨told', hrules, hstate'⟩ := ih hmiddle h
      refine ⟨told', ?_, hstate'⟩
      rw [hrules, List.map_append, List.append_assoc]
      rfl

/-! ### What a gate waits for -/

theorem Turn.of_mem {f : Finding} (h : Turn plan rule live (some found) live') (hf : f ∈ found) :
    f.ruleId = rule.ruleId ∧ f.severity = rule.severity := by
  cases h with
  | called runs returned made =>
      obtain ⟨draft, -, hdraft⟩ := mapM_mem made hf
      exact materializeFinding_ok hdraft

/-- A rule the gate looks at ran, and found nothing if what it finds weighs enough. -/
def Satisfies (gate : GateDefinition) (turn : PlannedRule ω × Option (List Finding)) : Prop :=
  gateSelects gate turn.1.evaluator.definition = true →
    ∃ found, turn.2 = some found ∧ (gate.blockAtOrAbove.rank ≤ turn.1.severity.rank → found = [])

theorem Account.passed_iff (h : Account plan live told findings executions live')
    (hrules : told.map Prod.fst = plan.rules)
    (hdistinct : (plan.rules.map PlannedRule.ruleId).Nodup) (gate : GateDefinition) :
    (plan.decide findings executions gate).passed = true ↔
      gate.requiredExternalEvidenceIds = [] ∧ ∀ turn ∈ told, Satisfies gate turn := by
  have hselects : ∀ turn ∈ told, (plan.rules.any fun rule => rule.ruleId = turn.1.ruleId &&
      gateSelects gate rule.evaluator.definition) =
        gateSelects gate turn.1.evaluator.definition := by
    intro turn hturn
    have hthere : turn.1 ∈ plan.rules := hrules ▸ List.mem_map_of_mem hturn
    rw [Bool.eq_iff_iff, List.any_eq_true]
    constructor
    · rintro ⟨rule, hrule, hsame⟩
      rw [Bool.and_eq_true, decide_eq_true_eq] at hsame
      rw [← List.inj_on_of_nodup_map hdistinct hrule hthere hsame.1]
      exact hsame.2
    · intro hgate
      exact ⟨turn.1, hthere, by simpa using hgate⟩
  unfold Plan.decide
  simp only [Bool.and_eq_true, List.isEmpty_iff, ← List.length_eq_zero_iff, length_sortBy,
    List.length_map]
  simp only [List.length_eq_zero_iff, List.filter_eq_nil_iff, Bool.and_eq_true, decide_eq_true_eq,
    not_and]
  constructor
  · rintro ⟨⟨hfindings, hexecutions⟩, hevidence⟩
    refine ⟨hevidence, fun turn hturn hgate => ?_⟩
    cases hfound : turn.2 with
    | none =>
        have hmem : turn.1.execution plan.board turn.2 ∈ executions := by
          rw [h.executed]
          exact List.mem_map_of_mem hturn
        refine absurd ?_ (hexecutions _ hmem (by rw [hfound]; rfl))
        exact (hselects turn hturn).trans hgate
    | some found =>
        refine ⟨found, rfl, fun hweighs => List.eq_nil_iff_forall_not_mem.mpr fun f hf => ?_⟩
        obtain ⟨m, m', hthis⟩ := h.turns.turn hturn
        have hrule := (hfound ▸ hthis).of_mem hf
        refine hfindings f ((h.found f).mpr ⟨turn, hturn, found, hfound, hf⟩) ?_ ?_
        · rw [hrule.2]
          exact hweighs
        · rw [hrule.1]
          exact (hselects turn hturn).trans hgate
  · rintro ⟨hevidence, hturns⟩
    refine ⟨⟨?_, ?_⟩, hevidence⟩
    · intro f hf hweighs hgate
      obtain ⟨turn, hturn, found, hfound, hf⟩ := (h.found f).mp hf
      obtain ⟨m, m', hthis⟩ := h.turns.turn hturn
      have hrule := (hfound ▸ hthis).of_mem hf
      rw [hrule.1, hselects turn hturn] at hgate
      obtain ⟨found', hfound', hnothing⟩ := hturns turn hturn hgate
      rw [hrule.2] at hweighs
      rw [Option.some.inj (hfound.symm.trans hfound'), hnothing hweighs] at hf
      cases hf
    · intro execution hexecution hnotRun hgate
      rw [h.executed] at hexecution
      obtain ⟨turn, hturn, rfl⟩ := List.mem_map.mp hexecution
      obtain ⟨found, hfound, -⟩ := hturns turn hturn ((hselects turn hturn).symm.trans hgate)
      rw [hfound] at hnotRun
      cases found <;> cases hnotRun

/-! ### What the checks of a policy leave -/

omit [StableHash] in
theorem validateGate_ok {known mandatoryFatal : List String} {gate : GateDefinition}
    (h : validateGate known mandatoryFatal gate = .ok ()) :
    (gate.gateId ∈ requiredGateIds → ∀ definition, gateSelects gate definition = true) ∧
      (∀ maximum ∈ maximumRequiredGateThresholds.lookup gate.gateId,
        gate.blockAtOrAbove.rank ≤ maximum.rank) ∧
      (gate.gateId = "manufacturing-release" → gate.requiredExternalEvidenceIds ≠ []) := by
  unfold validateGate requireNone demand at h
  simp only [bind_ok, require_ok, forM_ok, Option.mem_toList] at h
  obtain ⟨_, -, _, -, _, -, _, hscope, _, hthreshold, hevidence⟩ := h
  refine ⟨fun hrequired definition => ?_, hthreshold, fun hrelease => ?_⟩
  · obtain ⟨hdomains, hrules, hexempt⟩ := hscope hrequired
    unfold gateSelects
    simp [hdomains, hrules, hexempt]
  · exact List.ne_nil_of_mem (hevidence hrelease)

section Plans

variable [DecimalDigits] [UnicodeData]

omit [StableHash] in
theorem resolveRule_ok {evaluator : RuleEvaluator ω} {override : Option RuleOverride}
    (h : resolveRule evaluator override = .ok resolved) :
    resolved.evaluator = evaluator ∧ (evaluator.definition.mandatory = true →
      evaluator.definition.defaultSeverity = .fatal → resolved.severity = .fatal) := by
  unfold resolveRule demand at h
  simp only [bind_ok, require_ok, pure_ok] at h
  obtain ⟨_, -, _, -, _, hfatal, _, -, _, -, _, -, rfl⟩ := h
  exact ⟨rfl, hfatal⟩

variable {engine : VerificationEngine ω} {board : BoardGraph} {policy : Option VerificationPolicy}
  {report : VerificationReport}

/-- A plan is for the normal form of the board, and has the rules of the registry and the gates
that the checks let through. -/
structure Plan.Guarded (plan : Plan ω) (engine : VerificationEngine ω) (board : BoardGraph) :
    Prop where
  normal : plan.board = board.normalized
  kernel : plan.geometry = engine.geometry
  registry : plan.rules.map (·.evaluator) = engine.evaluators
  fatal : ∀ rule ∈ plan.rules, rule.evaluator.definition.mandatory = true →
    rule.evaluator.definition.defaultSeverity = .fatal → rule.severity = .fatal
  required : ∀ gateId ∈ requiredGateIds, ∃ gate ∈ plan.gates, gate.gateId = gateId
  gates : ∃ known mandatoryFatal, ∀ gate ∈ plan.gates,
    validateGate known mandatoryFatal gate = .ok ()

theorem plan_guarded (h : engine.plan board policy live = .ok plan) :
    plan.Guarded engine board := by
  unfold VerificationEngine.plan at h
  simp only [bind_ok, pure_ok] at h
  obtain ⟨_, -, _, -, _, -, policy, -, _, hpolicy, resolved, hresolved, _, -, rules, hrules, rfl⟩ := h
  unfold validatePolicy requireNone demand at hpolicy
  simp only [bind_ok, require_ok, forM_ok] at hpolicy
  obtain ⟨_, -, _, -, _, -, _, hrequired, _, hgates, -⟩ := hpolicy
  have hplanned : rules.map PlannedRule.toResolvedRule = resolved := by
    refine mapM_inverse ?_ hrules
    intro rule planned hrule
    obtain ⟨_, -, hrule⟩ := bind_ok.mp hrule
    cases hrule
    rfl
  have hevaluators : resolved.map ResolvedRule.evaluator = engine.evaluators :=
    mapM_inverse (fun _ _ hrule => (resolveRule_ok hrule).1) hresolved
  refine ⟨rfl, rfl, ?_, ?_, ?_, _, _, hgates⟩
  · rw [← hevaluators, ← hplanned, List.map_map]
    rfl
  · intro rule hrule
    have hthere : rule.toResolvedRule ∈ resolved := hplanned ▸ List.mem_map_of_mem hrule
    obtain ⟨evaluator, -, hevaluator⟩ := mapM_mem hresolved hthere
    rw [(resolveRule_ok hevaluator).1]
    exact (resolveRule_ok hevaluator).2
  · intro gateId hgateId
    by_contra hmissing
    have hnone := List.filter_eq_nil_iff.mp hrequired gateId hgateId
    rw [decide_eq_true_eq, not_not] at hnone
    obtain ⟨gate, hgate, hsame⟩ := List.mem_map.mp hnone
    exact hmissing ⟨gate, hgate, hsame⟩

/-- A report is decided by the plan and by what the rules did in their turns. -/
theorem verify_ok (h : engine.verify board policy live = .ok (report, live')) :
    ∃ plan, ∃ told : Told ω, engine.plan board policy live = .ok plan ∧
      told.map Prod.fst = plan.rules ∧
      Account plan live told report.findings report.executions live' ∧
      (plan.rules.map PlannedRule.ruleId).Nodup ∧
      ∀ decision, decision ∈ report.gates ↔
        ∃ gate ∈ plan.gates, plan.decide report.findings report.executions gate = decision := by
  obtain ⟨plan, hplan, h⟩ := bind_ok.mp h
  obtain ⟨state, hrun, h⟩ := bind_ok.mp h
  cases h
  obtain ⟨after, hloop, hrun⟩ := bind_ok.mp hrun
  obtain ⟨_, -, hrun⟩ := bind_ok.mp hrun
  obtain ⟨_, -, hrun⟩ := bind_ok.mp hrun
  cases hrun
  have hstart : Account plan live [] [] [] live := ⟨.start, rfl, List.nodup_nil, by simp⟩
  obtain ⟨told, hrules, haccount⟩ := hstart.run hloop
  refine ⟨plan, told, hplan, hrules, ⟨haccount.turns, haccount.executed, ?_, ?_⟩, ?_, ?_⟩
  · exact ((sortBy_perm _).map _).nodup_iff.mpr haccount.distinct
  · intro f
    exact mem_sortBy.trans (haccount.found f)
  · have hdistinct := engine.distinct
    rw [← (plan_guarded hplan).registry, List.map_map] at hdistinct
    exact hdistinct
  · intro decision
    exact mem_sortBy.trans List.mem_map

/-- **When a gate passes**: for every registry, board and accepted policy, the rules had one turn each,
one after the other, each finding of the report is one that some rule returned in its turn, no two
under one identifier; and a gate of the policy
passes just when it asks for no evidence from outside, and every rule it looks at ran and found
nothing if what it finds weighs enough. -/
theorem gate_passed_iff (h : engine.verify board policy live = .ok (report, live')) :
    ∃ plan, ∃ told : Told ω, engine.plan board policy live = .ok plan ∧
      told.map (·.1.evaluator) = engine.evaluators ∧
      Account plan live told report.findings report.executions live' ∧
      ∀ gate ∈ plan.gates, ∃ decision ∈ report.gates, decision.gateId = gate.gateId ∧
        (decision.passed = true ↔
          gate.requiredExternalEvidenceIds = [] ∧ ∀ turn ∈ told, Satisfies gate turn) := by
  obtain ⟨plan, told, hplan, hrules, haccount, hdistinct, hdecisions⟩ := verify_ok h
  refine ⟨plan, told, hplan, ?_, haccount, fun gate hgate => ?_⟩
  · rw [← (plan_guarded hplan).registry, ← hrules, List.map_map]
    rfl
  · exact ⟨_, (hdecisions _).mpr ⟨gate, hgate, rfl⟩, rfl, haccount.passed_iff hrules hdistinct gate⟩

/-- Before an open gate of preview or commit every rule had its turn, and found nothing where that
would have been fatal, or before a commit an error. -/
theorem turn_of_passed (h : engine.verify board policy live = .ok (report, live'))
    {decision : GateDecision} (hdecision : decision ∈ report.gates) (hpassed : decision.passed = true)
    (hid : decision.gateId = "preview" ∨ decision.gateId = "commit")
    {evaluator : RuleEvaluator ω} (hevaluator : evaluator ∈ engine.evaluators) :
    ∃ plan, engine.plan board policy live = .ok plan ∧
      ∃ (rule : PlannedRule ω) (found : List Finding), rule.evaluator = evaluator ∧
        (∃ m m', Turn plan rule m (some found) m') ∧
        rule.execution plan.board (some found) ∈ report.executions ∧
        (evaluator.definition.mandatory = true ∧ evaluator.definition.defaultSeverity = .fatal ∨
          rule.severity = .fatal ∨ decision.gateId = "commit" ∧ rule.severity = .error →
          found = []) := by
  obtain ⟨plan, told, hplan, hrules, haccount, hdistinct, hdecisions⟩ := verify_ok h
  have hguarded := plan_guarded hplan
  obtain ⟨known, mandatoryFatal, hgates⟩ := hguarded.gates
  obtain ⟨gate, hgate, rfl⟩ := (hdecisions _).mp hdecision
  obtain ⟨hselects, hthreshold, -⟩ := validateGate_ok (hgates gate hgate)
  rw [← hguarded.registry, ← hrules, List.map_map] at hevaluator
  obtain ⟨turn, hturn, rfl⟩ := List.mem_map.mp hevaluator
  change gate.gateId = _ ∨ gate.gateId = _ at hid
  have hrequired : gate.gateId ∈ requiredGateIds := by
    rcases hid with hid | hid <;> rw [hid] <;> decide
  obtain ⟨found, hfound, hnothing⟩ := ((haccount.passed_iff hrules hdistinct gate).mp hpassed).2
    turn hturn (hselects hrequired _)
  refine ⟨plan, hplan, turn.1, found, rfl, hfound ▸ haccount.turns.turn hturn, ?_, ?_⟩
  · rw [haccount.executed, ← hfound]
    exact List.mem_map_of_mem hturn
  · intro hweighs
    have hfatal : turn.1.severity = .fatal ∨ gate.gateId = "commit" ∧ turn.1.severity = .error := by
      rcases hweighs with hmandatory | hweighs
      · refine Or.inl (hguarded.fatal turn.1 ?_ hmandatory.1 hmandatory.2)
        exact hrules ▸ List.mem_map_of_mem hturn
      · exact hweighs
    refine hnothing ?_
    rcases hfatal with hfatal | ⟨hcommit, herror⟩
    · rw [hfatal]
      cases gate.blockAtOrAbove <;> decide
    · rw [herror]
      exact hthreshold .error (hcommit ▸ rfl)

/-- **No policy weakens the required gates**: whatever it overrides, the three are decided, the gate
of the manufacturing release stays closed, and the gates of preview and commit open only when every
rule of the registry ran, no mandatory fatal rule and none whose findings the policy calls fatal
found anything, and before a commit none whose findings it calls errors either. -/
theorem required_gates (h : engine.verify board policy live = .ok (report, live')) :
    (∀ gateId ∈ requiredGateIds, ∃ decision ∈ report.gates, decision.gateId = gateId) ∧
    (∀ decision ∈ report.gates, decision.gateId = "manufacturing-release" →
      decision.passed = false) ∧
    ∀ decision ∈ report.gates, decision.passed = true →
      decision.gateId = "preview" ∨ decision.gateId = "commit" →
      ∀ evaluator ∈ engine.evaluators, ∃ execution ∈ report.executions,
        execution.ruleId = evaluator.ruleId ∧ execution.outcome ≠ .notRun ∧
        (evaluator.definition.mandatory = true ∧ evaluator.definition.defaultSeverity = .fatal ∨
          execution.severity = .fatal ∨
          decision.gateId = "commit" ∧ execution.severity = .error →
          execution.outcome = .pass) := by
  obtain ⟨plan, told, hplan, hrules, haccount, hdistinct, hdecisions⟩ := verify_ok h
  have hguarded := plan_guarded hplan
  obtain ⟨known, mandatoryFatal, hgates⟩ := hguarded.gates
  refine ⟨?_, ?_, ?_⟩
  · intro gateId hgateId
    obtain ⟨gate, hgate, rfl⟩ := hguarded.required gateId hgateId
    exact ⟨_, (hdecisions _).mpr ⟨gate, hgate, rfl⟩, rfl⟩
  · intro decision hdecision hrelease
    obtain ⟨gate, hgate, rfl⟩ := (hdecisions _).mp hdecision
    rw [Bool.eq_false_iff, Ne, haccount.passed_iff hrules hdistinct]
    exact fun hpassed => (validateGate_ok (hgates gate hgate)).2.2 hrelease hpassed.1
  · intro decision hdecision hpassed hid evaluator hevaluator
    obtain ⟨plan, -, rule, found, rfl, -, hexecution, hnothing⟩ :=
      turn_of_passed h hdecision hpassed hid hevaluator
    refine ⟨_, hexecution, rfl, ?_, fun hweighs => ?_⟩
    · cases found <;> exact RuleExecutionOutcome.noConfusion
    · rw [hnothing hweighs]
      rfl

/-! ### What is committed keeps its distances -/

/-- `ExactGeometryKernel`, which an engine has that is given no other -/
def exactKernel (identity : ω → Except VerifyError Json) : GeometryKernel ω :=
  ⟨"exact-integer-rational-2d", "1.0.0", identity⟩

def clearanceDefinition : RuleDefinition where
  ruleId := "GEO.COPPER.MIN_CLEARANCE"
  version := "2.0.0"
  domain := .geometry
  title := "Minimum inter-net copper clearance"
  description := "Pads, tracks, vias, and filled zones on different nets must meet clearance."
  defaultSeverity := .error
  parameters := [⟨"minimum_clearance_nm", .integer, .integer 150000, some 0, none⟩]

/-- The rule is `MinimumCopperClearanceRule`: what it declares, and what it does on the exact
kernel.  Of another kernel it asks the outlines of zones, and nothing is said here. -/
structure IsClearanceRule (rule : RuleEvaluator ω) : Prop where
  definition : rule.definition = clearanceDefinition
  evaluates : ∀ board context live, (∃ identity, context.geometry = exactKernel identity) →
    rule.evaluate board context live = (do
      let clearance ← context.integer "minimum_clearance_nm"
      MinimumCopperClearanceRule.evaluate board clearance.toNat, live)

omit [StableHash] [DecimalDigits] [UnicodeData] in
theorem integer_ok {context : RuleContext ω} {name : String} {n : Int}
    (h : context.integer name = .ok n) : ∃ item ∈ context.parameters, item = ⟨name, .integer n⟩ := by
  unfold RuleContext.integer at h
  cases hfind : context.parameters.find? (·.name = name) with
  | none => simp [hfind] at h
  | some item =>
      obtain ⟨itemName, value⟩ := item
      have hname : itemName = name := by simpa using List.find?_some hfind
      rw [hfind] at h
      refine ⟨_, List.mem_of_find?_eq_some hfind, ?_⟩
      cases value <;> cases h
      rw [hname]

/-- **What passes the commit gate keeps its distances**: whatever the policy, if the gate of the
commit is open, the clearance rule is registered and the kernel is the exact one, the report has an
execution of the rule with the clearance that was asked for, and unless the policy weighs the rule
below an error, everything on the board keeps that clearance. -/
theorem commit_clears (h : engine.verify board policy live = .ok (report, live'))
    {decision : GateDecision} (hdecision : decision ∈ report.gates)
    (hcommit : decision.gateId = "commit") (hpassed : decision.passed = true)
    {evaluator : RuleEvaluator ω} (hrule : IsClearanceRule evaluator)
    (hevaluator : evaluator ∈ engine.evaluators)
    (hkernel : ∃ identity, engine.geometry = exactKernel identity) :
    ∃ execution ∈ report.executions, execution.ruleId = "GEO.COPPER.MIN_CLEARANCE" ∧
      ∃ clearance, ⟨"minimum_clearance_nm", .integer clearance⟩ ∈ execution.parameters ∧
        (execution.severity = .error ∨ execution.severity = .fatal →
          MinimumCopperClearanceRule.Clears board.normalized clearance.toNat) := by
  obtain ⟨plan, hplan, rule, found, rfl, ⟨m, m', hturn⟩, hexecution, hnothing⟩ :=
    turn_of_passed h hdecision hpassed (Or.inr hcommit) hevaluator
  have hguarded := plan_guarded hplan
  cases hturn with
  | called runs returned made =>
      rw [hrule.evaluates _ _ _ (hguarded.kernel ▸ hkernel)] at returned
      obtain ⟨clearance, hclearance, hreturned⟩ := bind_ok.mp (congrArg Prod.fst returned)
      obtain ⟨item, hitem, rfl⟩ := integer_ok hclearance
      refine ⟨_, hexecution, congrArg RuleDefinition.ruleId hrule.definition, clearance, hitem, ?_⟩
      intro hweighs
      have hempty : found = [] := hnothing (Or.inr (hweighs.symm.imp_right (⟨hcommit, ·⟩)))
      rw [hempty, mapM_ok, List.forall₂_nil_right_iff] at made
      rw [made, hguarded.normal] at hreturned
      exact MinimumCopperClearanceRule.evaluate_nil.mp hreturned

end Plans

end Runs

/-! ### A run -/

section Sample

local instance plainDigest : StableHash := ⟨fun _ _ => "0"⟩

local instance plainDigits : DecimalDigits := ⟨fun _ => none⟩

local instance plainText : UnicodeData := ⟨fun _ => false, fun _ => true, id⟩

/-- A rule that counts the times it is called, and says so each time. -/
def countingRule : RuleEvaluator Nat where
  definition := ⟨"SYS.BOARD", "1.0.0", .system, "", "", .error, [], false⟩
  identity _ := .ok .null
  evaluate _ _ calls := (.ok [⟨"seen", [], [⟨"calls", .integer calls⟩]⟩], calls + 1)

/-- The clearance rule, as an engine on the exact kernel calls it. -/
def clearanceRule : RuleEvaluator Nat where
  definition := clearanceDefinition
  identity _ := .ok .null
  evaluate board context live := (do
    let clearance ← context.integer "minimum_clearance_nm"
    MinimumCopperClearanceRule.evaluate board clearance.toNat, live)

theorem clearanceRule_is : IsClearanceRule clearanceRule := ⟨rfl, fun _ _ _ _ => rfl⟩

def sampleEngine : VerificationEngine Nat where
  evaluators := [clearanceRule, countingRule]
  geometry := exactKernel fun _ => .ok .null
  codeBundleHash := ""
  distinct := by decide

/-- Two tracks of two nets, half a millimetre apart. -/
def routedBoard : BoardGraph where
  schemaVersion := 3
  designId := "board"
  revision := "1"
  layers := ["F.Cu"]
  outline := ⟨[⟨0, 0⟩, ⟨9000000, 0⟩, ⟨9000000, 9000000⟩, ⟨0, 9000000⟩]⟩
  components := []
  nets := [⟨"a", "A", [], false⟩, ⟨"b", "B", [], false⟩]
  tracks := [⟨"t", "a", "F.Cu", ⟨1000000, 1000000⟩, ⟨5000000, 1000000⟩, 200000⟩,
    ⟨"u", "b", "F.Cu", ⟨1000000, 1500000⟩, ⟨5000000, 1500000⟩, 200000⟩]
  vias := []
  zones := []

/-- A policy with a wider clearance, whose violation is fatal, a system rule that only informs, and
a gate of its own for the geometry. -/
def routingPolicy : VerificationPolicy where
  overrides := [
    ⟨"GEO.COPPER.MIN_CLEARANCE", true, some .fatal, [⟨"minimum_clearance_nm", .integer 250000⟩]⟩,
    ⟨"SYS.BOARD", true, some .info, []⟩]
  gates := ⟨"routing", "Routed copper keeps its distances", .info, [.geometry], [], [], []⟩ ::
    strictPolicy.gates

/-- On the board something is found, and all gates but that of the release pass. -/
theorem sample_verified : ∃ report,
    sampleEngine.verify routedBoard (some routingPolicy) 0 = .ok (report, 1) ∧
      report.findings ≠ [] ∧
      (∀ decision ∈ report.gates, decision.gateId ≠ "manufacturing-release" →
        decision.passed = true) ∧
      ∀ gateId ∈ ["commit", "preview"], ∃ decision ∈ report.gates, decision.gateId = gateId := by
  have hpasses : ∃ result ∈ (sampleEngine.verify routedBoard (some routingPolicy) 0).toOption,
      result.2 = 1 ∧ result.1.findings ≠ [] ∧
      (∀ decision ∈ result.1.gates, decision.gateId ≠ "manufacturing-release" →
        decision.passed = true) ∧
      ∀ gateId ∈ ["commit", "preview"], ∃ decision ∈ result.1.gates, decision.gateId = gateId := by
    decide +kernel
  obtain ⟨⟨report, calls⟩, hresult, rfl, hpasses⟩ := hpasses
  exact ⟨report, of_toOption hresult, hpasses⟩

/-- The gate that the policy adds passes, so its rules found nothing in their turns. -/
theorem gate_passed_iff_sample : ∃ (report : VerificationReport) (plan : Plan Nat) (told : Told Nat),
    sampleEngine.verify routedBoard (some routingPolicy) 0 = .ok (report, 1) ∧
      report.findings ≠ [] ∧ told.map (·.1.evaluator) = sampleEngine.evaluators ∧
      Account plan 0 told report.findings report.executions 1 ∧
      ∃ gate ∈ plan.gates, gate.gateId = "routing" ∧ ∀ turn ∈ told, Satisfies gate turn := by
  obtain ⟨report, h, hfindings, hpasses, -⟩ := sample_verified
  obtain ⟨plan, told, hplan, htold, haccount, hgates⟩ := gate_passed_iff h
  have hadded : ∃ plan ∈ (sampleEngine.plan routedBoard (some routingPolicy) 0).toOption,
      ∃ gate ∈ plan.gates, gate.gateId = "routing" := by decide +kernel
  rw [hplan] at hadded
  obtain ⟨planned, hplanned, gate, hgate, hid⟩ := hadded
  obtain rfl : plan = planned := Option.some.inj hplanned
  obtain ⟨decision, hdecision, hsame, hiff⟩ := hgates gate hgate
  have hpassed := hpasses decision hdecision (by rw [hsame, hid]; decide)
  exact ⟨report, plan, told, h, hfindings, htold, haccount, gate, hgate, hid,
    (hiff.mp hpassed).2⟩

theorem required_gates_sample : ∃ report,
    sampleEngine.verify routedBoard (some routingPolicy) 0 = .ok (report, 1) ∧
      (∀ gateId ∈ requiredGateIds, ∃ decision ∈ report.gates, decision.gateId = gateId) ∧
      ∃ execution ∈ report.executions, execution.ruleId = "GEO.COPPER.MIN_CLEARANCE" ∧
        execution.outcome ≠ .notRun ∧ (execution.severity = .fatal → execution.outcome = .pass) := by
  obtain ⟨report, h, -, hpasses, hthere⟩ := sample_verified
  obtain ⟨decision, hdecision, hid⟩ := hthere "preview" (by decide)
  have hpassed := hpasses decision hdecision (by rw [hid]; decide)
  obtain ⟨hrequired, -, hopen⟩ := required_gates h
  obtain ⟨execution, hexecution, hrule, hran, hweighs⟩ :=
    hopen decision hdecision hpassed (Or.inl hid) clearanceRule List.mem_cons_self
  exact ⟨report, h, hrequired, execution, hexecution, hrule, hran,
    fun hfatal => hweighs (Or.inr (Or.inl hfatal))⟩

theorem commit_clears_sample : ∃ report,
    sampleEngine.verify routedBoard (some routingPolicy) 0 = .ok (report, 1) ∧
      ∃ execution ∈ report.executions, execution.ruleId = "GEO.COPPER.MIN_CLEARANCE" ∧
        ∃ clearance, ⟨"minimum_clearance_nm", .integer clearance⟩ ∈ execution.parameters ∧
          (execution.severity = .error ∨ execution.severity = .fatal →
            MinimumCopperClearanceRule.Clears routedBoard.normalized clearance.toNat) := by
  obtain ⟨report, h, -, hpasses, hthere⟩ := sample_verified
  obtain ⟨decision, hdecision, hid⟩ := hthere "commit" (by decide)
  have hpassed := hpasses decision hdecision (by rw [hid]; decide)
  exact ⟨report, h, commit_clears h hdecision hid hpassed clearanceRule_is List.mem_cons_self
    ⟨_, rfl⟩⟩

end Sample

end Evleda.Verification
