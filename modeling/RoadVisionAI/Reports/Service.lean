import RoadVisionAI.Detection.ModelRegistry

/-!
# The report service (`app/services/report_service.py`)

`generate_for_plan` as a process over the table `inspection_reports` and the bucket of the reports.
The PDF is uploaded before its row is flushed, and no rollback takes the upload back.

`_build_pdf` makes a story for ReportLab: the story is built here, what ReportLab makes of it is the
parameter `Env.build`.  `plan_exists` reads a table nothing in the repository writes, so its answer
is part of the input of a statement, at the check and once more at the flush, for the foreign key.
-/

namespace RoadVisionAI.Reports

open Python Db Transition
open ModelRegistry (Bucket ObjectStore)

/-! ### The document -/

/-- `REPORT_SECTIONS`. -/
def reportSections : List String :=
  ["1. Page de garde",
    "2. Résumé exécutif",
    "3. Contexte de l'inspection",
    "4. Évaluation des dégradations",
    "5. Analyse PCI (ASTM D6433)",
    "6. Classement des priorités",
    "7. Recommandations de maintenance",
    "8. Budget estimatif",
    "9. Planification des interventions",
    "10. Analyse des risques",
    "11. Justification XAI",
    "12. Références normatives"]

/-- `PLACEHOLDER`. -/
def placeholder : String :=
  "Section générée automatiquement — le contenu détaillé sera produit par le " ++
    "pipeline IA (TechnicalReportAgent) lors de l'analyse complète."

/-- The styles of `getSampleStyleSheet()` in use. -/
inductive ParagraphStyle where
  | title
  | heading1
  | heading2
  | heading3
  | normal
  | italic
deriving DecidableEq

/-- What a story is made of. -/
inductive Flowable where
  | paragraph (text : String) (style : ParagraphStyle)
  | spacer (width height : ℕ)
  | pageBreak
deriving DecidableEq

/-- The text of a section: `section.startswith("2.") and executive_summary`. -/
def sectionBody (executiveSummary : Option String) (heading : String) : Flowable :=
  match executiveSummary with
  | some summary =>
    if "2.".toList.isPrefixOf heading.toList ∧ summary ≠ "" then .paragraph summary .normal
    else .paragraph placeholder .italic
  | none => .paragraph placeholder .italic

/-- The title page. -/
def titlePage (title generatedAt : String) : List Flowable :=
  [.paragraph "RoadVisionAI — Rapport d'inspection routière" .title,
    .paragraph "Direction Générale des Routes — Royaume du Maroc" .heading3,
    .spacer 1 12,
    .paragraph title .heading1,
    .paragraph s!"Généré le {generatedAt}" .normal,
    .pageBreak]

/-- The story of `_build_pdf`. -/
def story (title : String) (executiveSummary : Option String) (generatedAt : String) :
    List Flowable :=
  titlePage title generatedAt ++ reportSections.flatMap fun heading =>
    [.paragraph heading .heading2, sectionBody executiveSummary heading, .spacer 1 16]

/-- What the service is built with: the bucket of `settings.minio_bucket_reports`, the clock's text,
and `SimpleDocTemplate(…, title=title).build(story)`, which may depend on when it runs. -/
structure Env where
  bucket : Bucket
  strftime : ℕ → String
  build : ℕ → String → List Flowable → Except PyException ByteArray

/-- `_build_pdf`. -/
def buildPdf (env : Env) (now : ℕ) (title : String) (executiveSummary : Option String) :
    Except PyException ByteArray :=
  env.build now title (story title executiveSummary (env.strftime now))

/-! ### Rows -/

/-- `inspection_reports`, the columns `generate_for_plan` sets and the two times; the others are
left to their defaults. -/
structure InspectionReport where
  planId : Uuid
  title : String
  executiveSummary : Option String
  filePath : Option String
  fileSize : Option ℕ
  generatedAt : ℕ
  createdAt : ℕ
deriving DecidableEq

/-- The `CHECK` constraints, `VARCHAR(500)` and `BIGINT`. -/
def InspectionReport.Checks (report : InspectionReport) : Prop :=
  (∃ c ∈ report.title.toList, c ≠ ' ') ∧ report.createdAt ≤ report.generatedAt ∧
    report.title.length ≤ 500 ∧ (∀ path ∈ report.filePath, path.length ≤ 500) ∧
    ∀ size ∈ report.fileSize, size < 2 ^ 63

instance (report : InspectionReport) : Decidable report.Checks :=
  -- by the characters that are there, not over all characters
  have : Decidable (∃ c ∈ report.title.toList, c ≠ ' ') := List.decidableBEx _ _
  inferInstanceAs (Decidable (_ ∧ _ ∧ _ ∧ _ ∧ _))

/-- `uq_report_plan`. -/
def reportPlan (report : InspectionReport) : Option Uuid := some report.planId

/-- `audit_logs`. -/
structure AuditLog where
  action : String
  entityType : String
  entityId : Uuid
  userId : Uuid
  newValue : Json

/-! ### Requests -/

/-- The arguments of `generate_for_plan`, within the bounds of the endpoint. -/
structure GenerateCall where
  planId : Uuid
  title : String
  executiveSummary : Option String
  actorId : Uuid
  titleLength : 3 ≤ title.length ∧ title.length ≤ 500

/-- `f"{plan_id}/{uuid.uuid4().hex}_rapport.pdf"`. -/
def GenerateCall.objectName (call : GenerateCall) (hex : String) : String :=
  s!"{call.planId.str}/{hex}_rapport.pdf"

/-- `InspectionReport(…)`. -/
def GenerateCall.report (env : Env) (call : GenerateCall) (pdf : ByteArray) (objectName : String)
    (now : ℕ) : InspectionReport where
  planId := call.planId
  title := call.title
  executiveSummary := call.executiveSummary
  filePath := some s!"{env.bucket.name}/{objectName}"
  fileSize := some pdf.size
  generatedAt := now
  createdAt := now

/-- The `REPORT_GENERATED` entry. -/
def auditOf (call : GenerateCall) (reportId : Uuid) (pdf : ByteArray) : AuditLog where
  action := "REPORT_GENERATED"
  entityType := "inspection_reports"
  entityId := reportId
  userId := call.actorId
  newValue := .obj [("plan_id", .str call.planId.str), ("file_size", .int pdf.size)]

/-! ### Processes -/

/-- How far a call has come. -/
inductive Stage where
  | started
  /-- The plan exists. -/
  | planned
  /-- It has no report. -/
  | checked
  | built (pdf : ByteArray)
  /-- The PDF is in the bucket. -/
  | uploaded (pdf : ByteArray) (objectName : String)
  /-- The row is flushed. -/
  | inserted (pdf : ByteArray) (objectName : String) (reportId : Uuid)
  | audited (pdf : ByteArray) (objectName : String) (reportId : Uuid)

inductive Proc where
  | idle
  | generate (call : GenerateCall) (stage : Stage)

/-- What a statement finds outside: whether the plan is there, the clock, `uuid.uuid4().hex`, a
fresh identifier. -/
structure Input where
  planExists : Bool
  now : ℕ
  hex : String
  id : Uuid

structure Database where
  reports : LockedTable Uuid InspectionReport
  objects : ObjectStore
  auditLogs : List AuditLog

/-- What a statement does. -/
inductive Effect where
  | none
  | putObject (bucket objectName : String) (data : ByteArray)
  | write (reports : LockedTable Uuid InspectionReport)
  | commit (auditLog : AuditLog)
  | rollback

/-- The database after the effect of a statement of process `p`. -/
def Effect.apply (p : ℕ) (db : Database) : Effect → Database
  | .none => db
  | .putObject bucket objectName data =>
    { db with objects := Function.update db.objects (bucket, objectName) (some data) }
  | .write reports => { db with reports }
  | .commit auditLog =>
    { db with reports := db.reports.commit p, auditLogs := db.auditLogs ++ [auditLog] }
  | .rollback => { db with reports := db.reports.rollback p }

/-! ### The statements -/

/-- The call ends with an error response. -/
def refuse : Option (Effect × Proc) := some (.rollback, .idle)

/-- `generate_for_plan`. -/
def execGenerate (env : Env) (db : Database) (p : ℕ) (input : Input) (call : GenerateCall) :
    Stage → Option (Effect × Proc)
  | .started => if input.planExists then some (.none, .generate call .planned) else refuse
  | .planned =>
    -- the check sees the committed reports only
    if db.reports.select p (fun row => row.planId = call.planId) = [] then
      some (.none, .generate call .checked)
    else refuse
  | .checked =>
    match buildPdf env input.now call.title call.executiveSummary with
    | .error _ => refuse
    | .ok pdf => some (.none, .generate call (.built pdf))
  | .built pdf =>
    -- an upload is no part of the transaction: a rollback leaves it
    let objectName := call.objectName input.hex
    some (.putObject env.bucket.name objectName pdf, .generate call (.uploaded pdf objectName))
  | .uploaded pdf objectName =>
    let row := call.report env pdf objectName input.now
    -- where the flush would raise, or wait for another transaction, only a failure is left
    if row.Checks ∧ input.planExists ∧ input.id ∉ db.reports.keys ∧
        db.reports.Admits reportPlan p input.id row then
      some (.write (db.reports.write p input.id row),
        .generate call (.inserted pdf objectName input.id))
    else none
  | .inserted pdf objectName reportId =>
    some (.none, .generate call (.audited pdf objectName reportId))
  | .audited pdf _ reportId => some (.commit (auditOf call reportId pdf), .idle)

/-- The next statement of a process. -/
def exec (env : Env) (db : Database) (p : ℕ) (input : Input) : Proc → Option (Effect × Proc)
  | .idle => none
  | .generate call stage => execGenerate env db p input call stage

/-! ### Reading -/

/-- `get`. -/
def get (reports : LockedTable Uuid InspectionReport) (reportId : Uuid) :
    Except Raised InspectionReport :=
  match reports.committed reportId with
  | some report => .ok report
  | none => .error (.http ⟨404, s!"InspectionReport {reportId.str} not found", []⟩)

structure State where
  db : Database
  procs : ℕ → Proc

/-- An action: a call arrives, a process makes its next statement, or it fails there. -/
inductive Action where
  | start (p : ℕ) (call : GenerateCall)
  | exec (p : ℕ) (input : Input)
  | fail (p : ℕ)

/-- Process `p` has made a statement. -/
def State.after (s : State) (p : ℕ) (effect : Effect) (proc : Proc) : State where
  db := effect.apply p s.db
  procs := Function.update s.procs p proc

/-- One action. -/
def step (env : Env) (s : State) : Action → Option State
  | .start p call =>
    match s.procs p with
    | .idle => some (s.after p .none (.generate call .started))
    | .generate .. => none
  | .exec p input =>
    (exec env s.db p input (s.procs p)).map fun outcome => s.after p outcome.1 outcome.2
  | .fail p =>
    match s.procs p with
    | .idle => none
    | .generate .. => some (s.after p .rollback .idle)

/-- No reports yet. -/
def State.empty : State where
  db := { reports := .empty, objects := fun _ => none, auditLogs := [] }
  procs := fun _ => .idle

/-- The service, from the beginning. -/
def service (env : Env) : Machine State Action where
  init s := s = State.empty
  step := step env

end RoadVisionAI.Reports
