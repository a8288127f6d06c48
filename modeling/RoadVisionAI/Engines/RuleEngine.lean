import RoadVisionAI.Enums
import RoadVisionAI.Python.Format
import RoadVisionAI.Python.Number
import Mathlib.Data.List.Sort
import Mathlib.Data.String.Basic

/-!
# The rule engine (`app/ai/engines/rule_engine.py`)

Conditions and actions are JSON texts; `parse` decodes them, `matchesCond` tests a condition
against the facts of an analysis, and `evaluate` returns the decision of the first active rule, in
(priority, code) order, whose condition matches, or the built-in `FALLBACK`.  `fieldFormat` is the
formatting protocol of the placeholders in a justification template.
-/

namespace RoadVisionAI.RuleEngine

open Python

/-- `AnalysisContext`. -/
structure AnalysisContext where
  pci : ℚ
  severityLevel : SeverityLevel
  priorityLevel : PriorityLevel
  dominantDamageType : Option String
  totalDetections : ℤ
deriving DecidableEq

/-- The columns of a `rules` row that `evaluate` reads. -/
structure Rule where
  code : String
  name : String
  condition : String
  action : String
  priority : ℤ
  isActive : Bool
deriving DecidableEq

/-- `RuleDecision`.  The two day counts are whatever the action's JSON holds. -/
structure RuleDecision where
  strategy : MaintenanceStrategy
  ruleCode : String
  ruleName : String
  justification : String
  estimatedDays : Json := .null
  deadlineDays : Json := .null
  costMinMad : Option PyDecimal := none
  costMaxMad : Option PyDecimal := none

/-- `RuleFormatError`. -/
def ruleFormatError (msg : String) : PyException := .other "RuleFormatError" msg

/-- The fields of a JSON object. -/
abbrev Fields := List (String × Json)

/-- `dominant or "aucun"`, and its like: the text of an optional field with its default. -/
def textOr (text : Option String) (default : String) : String :=
  match text with
  | none => default
  | some s => if s = "" then default else s

/-- `_parse`.  Only a decoding error is turned into a `RuleFormatError`; the other exceptions of
`json.loads` pass. -/
def parse (raw ruleCode kind : String) : Except PyException Fields :=
  match loads raw with
  | .ok (.obj fields) => .ok fields
  | .ok _ => .error (ruleFormatError s!"Rule {ruleCode}: {kind} must be a JSON object")
  | .error (.jsonDecodeError msg lineno colno pos) =>
    .error (ruleFormatError
      s!"Rule {ruleCode}: invalid {kind} JSON: {(PyException.jsonDecodeError msg lineno colno pos).text}")
  | .error exc => .error exc

/-- The fields `_matches` looks at, in its order, each with the test a present value must pass. -/
def conditionTests (ctx : AnalysisContext) : List (String × (Json → Except PyException Bool)) :=
  [("pci_min", fun v => do return (← v.toFloat).leRat ctx.pci),
   ("pci_max", fun v => do return (← v.toFloat).gtRat ctx.pci),
   ("severity_in", fun v => v.hasMember ctx.severityLevel.value),
   ("priority_in", fun v => v.hasMember ctx.priorityLevel.value),
   ("dominant_type_in", fun v =>
      match ctx.dominantDamageType with
      | none => .ok false
      | some dominant => v.hasMember dominant),
   ("min_detections", fun v => do return (← v.toInt) ≤ ctx.totalDetections)]

/-- `_matches`: every present field holds, an absent one is a wildcard; the first field that fails
or raises ends the test. -/
def matchesCond (cond : Fields) (ctx : AnalysisContext) : Except PyException Bool :=
  (conditionTests ctx).allM fun test =>
    match cond.lookup test.1 with
    | none => .ok true
    | some v => test.2 v

/-- The arguments of a justification. -/
def templateArgs (ctx : AnalysisContext) : List (String × FormatArg) :=
  [("pci", .str (fixedPoint ctx.pci 2)),
   ("dominant", .str (textOr ctx.dominantDamageType "aucun")),
   ("severity", .str ctx.severityLevel.value),
   ("priority", .str ctx.priorityLevel.value),
   ("detections", .int ctx.totalDetections)]

/-- `_render`. -/
def render (fieldFormat : FieldFormat) (template : String) (ctx : AnalysisContext) :
    Except PyException String :=
  strFormat fieldFormat (templateArgs ctx) template

/-- `MaintenanceStrategy(action["strategy"])`, a missing or unknown strategy being reported. -/
def actionStrategy (action : Fields) (ruleCode : String) :
    Except PyException MaintenanceStrategy :=
  let invalid := ruleFormatError s!"Rule {ruleCode}: action.strategy missing or invalid"
  match action.lookup "strategy" with
  | some (.str value) => ((MaintenanceStrategy.ofValue? value).elim (.error invalid) .ok)
  | _ => .error invalid

/-- `action.get("justification", default).replace("{code}", rule.code)`. -/
def actionTemplate (action : Fields) (ruleCode : String) : Except PyException String :=
  match (action.lookup "justification").getD (.str "Règle \x7bcode\x7d appliquée.") with
  | .str template => .ok (replace template "\x7bcode\x7d" ruleCode)
  | v => .error (.attributeError s!"'{v.typeName}' object has no attribute 'replace'")

/-- `Decimal(str(action[key])) if key in action else None`. -/
def actionCost (action : Fields) (key : String) : Except PyException (Option PyDecimal) :=
  match action.lookup key with
  | none => .ok none
  | some v => do return some (← v.toDecimal)

/-- The decision of a rule whose condition matches. -/
def decisionOf (fieldFormat : FieldFormat) (rule : Rule) (ctx : AnalysisContext) :
    Except PyException RuleDecision := do
  let action ← parse rule.action rule.code "action"
  let strategy ← actionStrategy action rule.code
  let template ← actionTemplate action rule.code
  let justification ← render fieldFormat template ctx
  let costMinMad ← actionCost action "cost_min_mad"
  let costMaxMad ← actionCost action "cost_max_mad"
  return {
    strategy
    ruleCode := rule.code
    ruleName := rule.name
    justification
    estimatedDays := (action.lookup "estimated_days").getD .null
    deadlineDays := (action.lookup "deadline_days").getD .null
    costMinMad
    costMaxMad
  }

/-- The template of the `FALLBACK` decision. -/
def fallbackTemplate : String :=
  "Aucune règle active ne correspond au contexte (PCI \x7bpci\x7d, type dominant " ++
  "\x7bdominant\x7d) : mise sous surveillance par défaut — décision conservatrice " ++
  "documentée, à réviser par l'ingénieur."

/-- The decision when no active rule matches. -/
def fallbackDecision (fieldFormat : FieldFormat) (ctx : AnalysisContext) :
    Except PyException RuleDecision := do
  return {
    strategy := .SURVEILLANCE
    ruleCode := "FALLBACK"
    ruleName := "Surveillance par défaut"
    justification := ← render fieldFormat fallbackTemplate ctx
  }

/-- The order of evaluation: `(r.priority, r.code)`. -/
def precedes (r r' : Rule) : Prop :=
  r.priority < r'.priority ∨ r.priority = r'.priority ∧ r.code ≤ r'.code

instance (r r' : Rule) : Decidable (precedes r r') :=
  inferInstanceAs (Decidable (_ ∨ _ ∧ _))

/-- The active rules, sorted. -/
def ordered (rules : List Rule) : List Rule :=
  (rules.filter Rule.isActive).insertionSort precedes

/-- The loop of `evaluate`: the first match wins. -/
def evaluateOrdered (fieldFormat : FieldFormat) (ctx : AnalysisContext) :
    List Rule → Except PyException RuleDecision
  | [] => fallbackDecision fieldFormat ctx
  | rule :: rules => do
    let cond ← parse rule.condition rule.code "condition"
    if ← matchesCond cond ctx then decisionOf fieldFormat rule ctx
    else evaluateOrdered fieldFormat ctx rules

/-- `evaluate`. -/
def evaluate (fieldFormat : FieldFormat) (rules : List Rule) (ctx : AnalysisContext) :
    Except PyException RuleDecision :=
  evaluateOrdered fieldFormat ctx (ordered rules)

end RoadVisionAI.RuleEngine
