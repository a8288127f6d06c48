import RoadVisionAI.Agents.RecommendationPipeline
import RoadVisionAI.Db.Models
import RoadVisionAI.Engines.RuleDsl

/-!
# The rows of a recommendation (`01_schema_v4.2.sql`, `app/db/models`)

`xai_explanations`, `maintenance_recommendations` and `audit_logs`, as
`RecommendationService.generate_for_analysis` fills them in.  The columns of the later validation by
an engineer are NULL at that point and left out; the rest of a row is what the call computes, so the
`CHECK` constraints are conditions on the decision and on the references.
-/

namespace RoadVisionAI.Recommendations

open Python Db RuleEngine RecommendationPipeline

/-! ### Confidences -/

/-- A confidence column: NULL, or within `[0, 1]`. -/
def ConfidenceCheck (confidence : Option ℚ) : Prop := ∀ x ∈ confidence, 0 ≤ x ∧ x ≤ 1

instance : DecidablePred ConfidenceCheck
  | none => .isTrue (by simp [ConfidenceCheck])
  | some x => decidable_of_iff (0 ≤ x ∧ x ≤ 1) (by simp [ConfidenceCheck])

/-- Its type is `NUMERIC(5,4)`. -/
def FitsConfidence (confidence : Option ℚ) : Prop := ∀ x ∈ confidence, FitsNumeric 5 4 x

instance : DecidablePred FitsConfidence
  | none => .isTrue (by simp [FitsConfidence])
  | some x => decidable_of_iff (FitsNumeric 5 4 x) (by simp [FitsConfidence])

/-- The confidence at its scale. -/
def quantizeConfidence (confidence : Option ℚ) : Option ℚ :=
  confidence.map fun x => quantizeHalfUp x 4

/-! ### The tables -/

/-- `xai_explanations`. -/
structure XaiExplanation where
  id : Uuid
  rulesApplied : Json
  normativeRefs : Json
  priorityBreakdown : Json
  confidenceScore : Option ℚ
  severityJustification : String
  strategyJustification : String
  agentsInvolved : Json

namespace XaiExplanation

/-- The `CHECK` constraints. -/
def Checks (row : XaiExplanation) : Prop :=
  ConfidenceCheck row.confidenceScore ∧ row.agentsInvolved.jsonbTypeof = "array" ∧
    row.normativeRefs.jsonbTypeof = "array" ∧ row.priorityBreakdown.jsonbTypeof = "object" ∧
    row.rulesApplied.jsonbTypeof = "array"

instance : DecidablePred Checks := fun _ => inferInstanceAs (Decidable (_ ∧ _ ∧ _ ∧ _ ∧ _))

/-- What the columns take: `NUMERIC(5,4)`, four documents and two texts. -/
def Fits (row : XaiExplanation) : Prop :=
  FitsConfidence row.confidenceScore ∧
    (∀ v ∈ [row.rulesApplied, row.normativeRefs, row.priorityBreakdown, row.agentsInvolved],
      jsonbAccepts v = true) ∧
    TextAccepts row.severityJustification ∧ TextAccepts row.strategyJustification

instance : DecidablePred Fits := fun _ => inferInstanceAs (Decidable (_ ∧ _ ∧ _ ∧ _))

/-- The row as its columns hold it. -/
def quantize (row : XaiExplanation) : XaiExplanation :=
  { row with confidenceScore := quantizeConfidence row.confidenceScore }

/-- `INSERT INTO xai_explanations`. -/
def store (row : XaiExplanation) : Except PyException XaiExplanation :=
  storeRow quantize Fits Checks row

end XaiExplanation

/-- `maintenance_recommendations`.  Times are counted in microseconds, dates in days, from the
epoch. -/
structure MaintenanceRecommendation where
  id : Uuid
  analysisResultId : Uuid
  strategy : MaintenanceStrategy
  estimatedCostMin : Option PyDecimal
  estimatedCostMax : Option PyDecimal
  estimatedDays : Json
  deadline : Option ℤ
  justification : String
  normativeRefs : Json
  confidence : Option ℚ
  status : RecStatus
  createdAt : ℕ

namespace MaintenanceRecommendation

/-- The `CHECK` constraints on these columns. -/
def Checks (row : MaintenanceRecommendation) : Prop :=
  ConfidenceCheck row.confidence ∧ CostChecks row.estimatedCostMin row.estimatedCostMax ∧
    DaysCheck row.estimatedDays ∧ row.normativeRefs.jsonbTypeof = "array"

instance : DecidablePred Checks := fun _ => inferInstanceAs (Decidable (_ ∧ _ ∧ _ ∧ _))

/-- What the columns take: `NUMERIC(5,4)`, `NUMERIC(12,2)` for the costs, `INTEGER`, a document and
a text. -/
def Fits (row : MaintenanceRecommendation) : Prop :=
  FitsConfidence row.confidence ∧
    (∀ cost ∈ row.estimatedCostMin.toList ++ row.estimatedCostMax.toList, FitsDecimal 12 2 cost) ∧
    FitsDays row.estimatedDays ∧ jsonbAccepts row.normativeRefs = true ∧
    TextAccepts row.justification

instance : DecidablePred Fits := fun _ => inferInstanceAs (Decidable (_ ∧ _ ∧ _ ∧ _ ∧ _))

/-- The row as its columns hold it. -/
def quantize (row : MaintenanceRecommendation) : MaintenanceRecommendation :=
  { row with
    estimatedCostMin := row.estimatedCostMin.map (quantizeDecimal 2)
    estimatedCostMax := row.estimatedCostMax.map (quantizeDecimal 2)
    confidence := quantizeConfidence row.confidence }

/-- `INSERT INTO maintenance_recommendations`. -/
def store (row : MaintenanceRecommendation) : Except PyException MaintenanceRecommendation :=
  storeRow quantize Fits Checks row

end MaintenanceRecommendation

/-- `uq_rec_analysis`. -/
def recAnalysis (row : MaintenanceRecommendation) : Option Uuid := some row.analysisResultId

/-- `audit_logs`. -/
structure AuditLog where
  action : String
  entityType : String
  entityId : Uuid
  userId : Uuid
  newValue : Json

/-- What its columns take; it has no constraints. -/
def AuditLog.Fits (row : AuditLog) : Prop := jsonbAccepts row.newValue = true

instance : DecidablePred AuditLog.Fits := fun _ => inferInstanceAs (Decidable (_ = _))

/-! ### What the service writes -/

/-- `AnalysisContext(…)`. -/
def contextOf (analysis : AnalysisResult ℚ) (pci : PciScore ℚ) : AnalysisContext where
  pci := pci.score
  severityLevel := pci.severityLevel
  priorityLevel := pci.priorityLevel
  dominantDamageType := analysis.dominantDamageType
  totalDetections := analysis.totalDetections

/-- `XaiExplanation(…)`. -/
def xaiOf (id : Uuid) (analysis : AnalysisResult ℚ) (ctx : AnalysisContext)
    (result : PipelineResult) : XaiExplanation where
  id
  rulesApplied := .arr [.obj
    [("code", .str result.decision.ruleCode), ("name", .str result.decision.ruleName)]]
  normativeRefs := result.normativeRefs
  priorityBreakdown := .obj
    [("pci", .float (.finite ctx.pci)),
     ("severity", .str ctx.severityLevel.value),
     ("priority", .str ctx.priorityLevel.value),
     ("dominant_type", ctx.dominantDamageType.elim .null .str),
     ("detections", .int ctx.totalDetections)]
  confidenceScore := analysis.recommendationConfidence
  severityJustification :=
    s!"PCI {fixedPoint ctx.pci 2} classé {ctx.severityLevel.value} " ++
    s!"(priorité {ctx.priorityLevel.value})."
  strategyJustification := result.justification
  agentsInvolved := .arr (result.agentsInvolved.map .str)

/-- The microseconds of a day. -/
def dayMicros : ℤ := 24 * 60 * 60 * 1000000

/-- `timedelta(days=v)`, in microseconds. -/
def timedeltaDays : Json → Except PyException ℤ
  | .bool b => .ok (if b then dayMicros else 0)
  | .int n =>
    if |n| ≤ 999999999 then .ok (n * dayMicros)
    else .error (.overflowError s!"days={n}; must have magnitude <= 999999999")
  | .float (.finite q) =>
    let micros := roundHalfEven (q * dayMicros)
    if |micros / dayMicros| ≤ 999999999 then .ok micros
    else .error (.overflowError
      s!"days={micros / dayMicros}; must have magnitude <= 999999999")
  | .float .nan => .error (.valueError "cannot convert float NaN to integer")
  | .float _ => .error (.overflowError "cannot convert float infinity to integer")
  | v => .error (.typeError s!"unsupported type for timedelta days component: {v.typeName}")

/-- `(datetime.now(UTC) + timedelta(days=v)).date() if v else None`; a `datetime` lies between the
years 1 and 9999. -/
def deadlineOf (now : ℕ) (deadlineDays : Json) : Except PyException (Option ℤ) :=
  if deadlineDays.truthy then do
    let delta ← timedeltaDays deadlineDays
    let date := (now + delta) / dayMicros
    if -719162 ≤ date ∧ date ≤ 2932896 then return some date
    else .error (.overflowError "date value out of range")
  else .ok none

/-- `MaintenanceRecommendation(…)`, with the defaults of the table; `now` is the clock of the
service, `createdAt` that of the database. -/
def recommendationOf (id analysisResultId : Uuid) (now createdAt : ℕ) (analysis : AnalysisResult ℚ)
    (result : PipelineResult) : Except PyException MaintenanceRecommendation := do
  let deadline ← deadlineOf now result.decision.deadlineDays
  return {
    id
    analysisResultId
    strategy := result.decision.strategy
    estimatedCostMin := result.decision.costMinMad
    estimatedCostMax := result.decision.costMaxMad
    estimatedDays := result.decision.estimatedDays
    deadline
    justification := result.justification
    normativeRefs := result.normativeRefs
    confidence := analysis.recommendationConfidence
    status := .EN_ATTENTE
    createdAt
  }

/-- The `RECOMMENDATION_GENERATED` entry. -/
def auditOf (recId actorId : Uuid) (result : PipelineResult) : Except PyException AuditLog := do
  let refs ← result.normativeRefs.len
  return {
    action := "RECOMMENDATION_GENERATED"
    entityType := "maintenance_recommendations"
    entityId := recId
    userId := actorId
    newValue := .obj
      [("strategy", .str result.decision.strategy.value),
       ("rule", .str result.decision.ruleCode),
       ("normative_refs", .int refs),
       ("missing_refs", .bool result.missingNormativeRefs)]
  }

end RoadVisionAI.Recommendations
