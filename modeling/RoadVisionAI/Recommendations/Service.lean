import RoadVisionAI.Recommendations.Rows
import RoadVisionAI.Transition.LockedTable
import RoadVisionAI.Transition.Machine

/-!
# The recommendation service (`app/services/recommendation_service.py`)

`generate_for_analysis` as a process.  An action starts a call, lets it make its next statement, or
makes it fail there; the statements of different calls interleave.  The rows a call has flushed are
its own until the `COMMIT`; the `xai_explanations` row and the audit entry meet no index, so they
stay with the process until then, while the `maintenance_recommendations` row is pending in the
table, where `uq_rec_analysis` makes the inserts of other calls wait or fail.

The other tables, as a statement finds them, and what the retrieval and the LLM answer, are part of
the input of an action: any values at all.  `generations` records what each committed call has
written.
-/

namespace RoadVisionAI.Recommendations

open Python Db RuleEngine RecommendationPipeline Transition

/-- The arguments of `generate_for_analysis`. -/
structure Call where
  analysisResultId : Uuid
  actorId : Uuid
deriving DecidableEq

/-- A row of a table that refers to the inspections. -/
structure OfInspection (α : Type) where
  inspectionId : Uuid
  row : α

/-- How far a call has come. -/
inductive Stage where
  | started
  /-- The analysis is read. -/
  | analysed (analysis : OfInspection (AnalysisResult ℚ))
  /-- No recommendation exists for it. -/
  | checked (analysis : OfInspection (AnalysisResult ℚ))
  /-- The PCI score is read. -/
  | scored (analysis : AnalysisResult ℚ) (ctx : AnalysisContext)
  /-- The active rules are read. -/
  | ready (analysis : AnalysisResult ℚ) (ctx : AnalysisContext) (rules : List Rule)
  /-- The pipeline has returned. -/
  | decided (analysis : AnalysisResult ℚ) (ctx : AnalysisContext) (result : PipelineResult)
  | xaiFlushed (analysis : AnalysisResult ℚ) (result : PipelineResult) (xai : XaiExplanation)
  | recFlushed (result : PipelineResult) (xai : XaiExplanation) (recId : Uuid)
  | auditFlushed (xai : XaiExplanation) (recId : Uuid) (auditLog : AuditLog)

inductive Proc where
  | idle
  | generate (call : Call) (stage : Stage)

/-- What a statement finds outside: the other tables, the injected callables, the two clocks, a
fresh identifier. -/
structure Input where
  analysisResults : List (OfInspection (AnalysisResult ℚ))
  pciScores : List (OfInspection (PciScore ℚ))
  rules : List Rule
  ragSearch : RagSearch
  llmGenerate : LlmGenerate
  now : ℕ
  createdAt : ℕ
  id : Uuid

structure Database where
  recommendations : LockedTable Uuid MaintenanceRecommendation
  xaiExplanations : List XaiExplanation
  auditLogs : List AuditLog

/-- What a committed call has written beside its recommendation. -/
structure Generation where
  analysisResultId : Uuid
  xai : XaiExplanation
  auditLog : AuditLog

/-- What a statement does. -/
inductive Effect where
  | none
  | write (recommendations : LockedTable Uuid MaintenanceRecommendation)
  | commit (generation : Generation)
  | rollback

/-- The database after the effect of a statement of process `p`. -/
def Effect.apply (p : ℕ) (db : Database) : Effect → Database
  | .none => db
  | .write recommendations => { db with recommendations }
  | .commit generation => {
      recommendations := db.recommendations.commit p
      xaiExplanations := db.xaiExplanations ++ [generation.xai]
      auditLogs := db.auditLogs ++ [generation.auditLog] }
  | .rollback => { db with recommendations := db.recommendations.rollback p }

/-! ### The statements -/

/-- `scalar_one_or_none()` of a `SELECT`. -/
def scalarOneOrNone {α : Type} (rows : List α) (cond : α → Bool) : Except PyException (Option α) :=
  match rows.filter cond with
  | [] => .ok none
  | [row] => .ok (some row)
  | _ => .error (.other "MultipleResultsFound"
      "Multiple rows were found when one or none was required")

/-- The call ends with an error response. -/
def refuse : Option (Effect × Proc) := some (.rollback, .idle)

/-- `generate_for_analysis`. -/
def execGenerate (fieldFormat : FieldFormat) (db : Database) (p : ℕ) (input : Input) (call : Call) :
    Stage → Option (Effect × Proc)
  | .started =>
    match scalarOneOrNone input.analysisResults
        fun analysis => analysis.row.id = call.analysisResultId with
    | .ok (some analysis) => some (.none, .generate call (.analysed analysis))
    -- not found, or more than one
    | _ => refuse
  | .analysed analysis =>
    -- the check sees the committed recommendations only
    if db.recommendations.select p (fun row => row.analysisResultId = call.analysisResultId) = []
    then some (.none, .generate call (.checked analysis))
    else refuse
  | .checked analysis =>
    match scalarOneOrNone input.pciScores
        fun pci => pci.inspectionId = analysis.inspectionId with
    | .ok (some pci) =>
      some (.none, .generate call (.scored analysis.row (contextOf analysis.row pci.row)))
    | _ => refuse
  | .scored analysis ctx =>
    some (.none, .generate call (.ready analysis ctx (input.rules.filter Rule.isActive)))
  | .ready analysis ctx rules =>
    match runPipeline fieldFormat input.ragSearch input.llmGenerate ctx rules with
    | .error _ => refuse
    | .ok result => some (.none, .generate call (.decided analysis ctx result))
  | .decided analysis ctx result =>
    -- where a flush would raise, or wait for another transaction, only a failure is left
    match (xaiOf input.id analysis ctx result).store with
    | .error _ => none
    | .ok xai => some (.none, .generate call (.xaiFlushed analysis result xai))
  | .xaiFlushed analysis result xai =>
    match recommendationOf input.id call.analysisResultId input.now input.createdAt analysis
        result with
    | .error _ => refuse
    | .ok row =>
      match row.store with
      | .error _ => none
      | .ok row =>
        if input.id ∉ db.recommendations.keys ∧
            db.recommendations.Admits recAnalysis p input.id row then
          some (.write (db.recommendations.write p input.id row),
            .generate call (.recFlushed result xai input.id))
        else none
  | .recFlushed result xai recId =>
    match auditOf recId call.actorId result with
    | .error _ => refuse
    | .ok auditLog =>
      if auditLog.Fits then some (.none, .generate call (.auditFlushed xai recId auditLog))
      else none
  | .auditFlushed xai _ auditLog =>
    some (.commit { analysisResultId := call.analysisResultId, xai, auditLog }, .idle)

/-- The next statement of a process. -/
def exec (fieldFormat : FieldFormat) (db : Database) (p : ℕ) (input : Input) :
    Proc → Option (Effect × Proc)
  | .idle => none
  | .generate call stage => execGenerate fieldFormat db p input call stage

/-! ### The machine -/

structure State where
  db : Database
  procs : ℕ → Proc
  generations : List Generation

/-- An action: a call arrives, a process makes its next statement, or it fails there. -/
inductive Action where
  | start (p : ℕ) (call : Call)
  | exec (p : ℕ) (input : Input)
  | fail (p : ℕ)

/-- What the effect puts on record. -/
def Effect.generations : Effect → List Generation
  | .commit generation => [generation]
  | _ => []

/-- Process `p` has made a statement. -/
def State.after (s : State) (p : ℕ) (effect : Effect) (proc : Proc) : State where
  db := effect.apply p s.db
  procs := Function.update s.procs p proc
  generations := s.generations ++ effect.generations

/-- One action. -/
def step (fieldFormat : FieldFormat) (s : State) : Action → Option State
  | .start p call =>
    match s.procs p with
    | .idle => some (s.after p .none (.generate call .started))
    | .generate .. => none
  | .exec p input =>
    (exec fieldFormat s.db p input (s.procs p)).map fun outcome => s.after p outcome.1 outcome.2
  | .fail p =>
    match s.procs p with
    | .idle => none
    | .generate .. => some (s.after p .rollback .idle)

/-- No call is under way, and the tables hold anything `uq_rec_analysis` allows. -/
structure State.Quiet (s : State) : Prop where
  idle : ∀ p, s.procs p = .idle
  settled : ∀ k, (s.db.recommendations.slots k).pending = none
  unique : ∀ j k row row', j ≠ k → s.db.recommendations.committed j = some row →
    s.db.recommendations.committed k = some row' → row.analysisResultId ≠ row'.analysisResultId
  unrecorded : s.generations = []

/-- The service, from any quiet state. -/
def service (fieldFormat : FieldFormat) : Machine State Action where
  init := State.Quiet
  step := step fieldFormat

end RoadVisionAI.Recommendations
