import RoadVisionAI.Inspections.Row
import RoadVisionAI.Transition.Machine
import RoadVisionAI.Workers.AnalysisWorker
import Mathlib.Data.Rat.Floor
import Mathlib.Logic.Function.Basic

/-!
# The life of one inspection

The requests and background runs that touch one inspection, as processes over a shared database.
Each process is a request of `InspectionService` (`update`, `soft_delete`, `upload_image`,
`request_analysis`), of `RecommendationService.generate_for_analysis`, or a `run_analysis` that an
accepted `request_analysis` has started; an action lets one of them make its next statement, or
fail there.  Statements see what is committed when they run (READ COMMITTED); what a transaction
inserts and deletes shows when it commits, and its `UPDATE` of the inspections row holds the row
lock until then.  The stages of a process are the points between its statements.

The state begins right after `create`.  Requests on other inspections touch none of it.
`lastRun` records, for the statements about runs, what the last committed run read and wrote.
-/

namespace RoadVisionAI.Inspections

open Python Db Transition AnalysisWorker

/-! ### Requests -/

/-- `InspectionCreate`. -/
structure InspectionCreate where
  roadSectionId : Uuid
  inspectionDate : Option ℕ
  weatherCond : Option String
  notes : Option String

/-- The row `InspectionService.create` commits; what it does not set has the column's default. -/
def create (data : InspectionCreate) (actor id : Uuid) (now : ℕ) : Inspection where
  id := id
  roadSectionId := data.roadSectionId
  createdBy := actor
  validatedBy := none
  status := .EN_ATTENTE
  inspectionDate := data.inspectionDate.getD now
  weatherCond := data.weatherCond
  notes := data.notes
  createdAt := now
  updatedAt := now
  deletedAt := none
  version := 1

/-- `InspectionUpdate`, the body of a PATCH.  A field is absent, null or a text. -/
structure InspectionUpdate where
  version : ℕ
  weatherCond : Option (Option String)
  notes : Option (Option String)

/-- `data.model_dump(exclude={"version"}, exclude_none=True)`. -/
def InspectionUpdate.values (body : InspectionUpdate) : Assignments where
  weatherCond := body.weatherCond.join
  notes := body.notes.join

/-- A request on the inspection. -/
inductive Request where
  | patch (body : InspectionUpdate)
  | softDelete
  | uploadImage
  | analyse
  | recommend (analysisResultId : Uuid)

/-! ### The database -/

/-- `maintenance_recommendations`: its keys. -/
structure MaintenanceRecommendation where
  id : Uuid
  analysisResultId : Uuid
deriving DecidableEq

/-- The committed rows that belong to the inspection. -/
structure Tables where
  roadImages : List RoadImage
  damageDetections : List (DamageDetection ℚ)
  pciScores : List (PciScore ℚ)
  analysisResults : List (AnalysisResult ℚ)
  recommendations : List MaintenanceRecommendation
deriving DecidableEq

/-- A committed run of the worker: the images it read, the rows it wrote. -/
structure WorkerRun where
  images : List RoadImage
  outputs : Outputs ℚ

structure Database where
  row : LockedRow Inspection.version
  tables : Tables
  lastRun : Option WorkerRun

/-! ### Processes -/

inductive PatchStage where
  | started (body : InspectionUpdate)
  /-- `get_or_404` has found the row. -/
  | found (body : InspectionUpdate)
  /-- `update_with_version` has matched. -/
  | updated

inductive DeleteStage where
  | started
  | found
  /-- The flush has set `deleted_at`. -/
  | updated

inductive UploadStage where
  | started
  | found
  /-- `next_sequence_num` has answered. -/
  | numbered (sequenceNum : ℕ)
  /-- The row is flushed. -/
  | inserted (image : RoadImage)

inductive AnalyseStage where
  | started
  /-- `get_detail` has read the row, not yet its images. -/
  | loaded (row : Inspection)
  /-- The checks on images and status have passed. -/
  | checked (row : Inspection)
  | updated

/-- The rows the three `DELETE`s of a run have taken. -/
structure Cleared where
  damageDetections : List (DamageDetection ℚ) := []
  pciScores : List (PciScore ℚ) := []
  analysisResults : List (AnalysisResult ℚ) := []

inductive WorkerStage where
  | started
  | loaded (row : Inspection)
  /-- The images are read. -/
  | selected (row : Inspection) (images : List RoadImage)
  | clearedDetections (row : Inspection) (images : List RoadImage) (cleared : Cleared)
  | clearedScores (row : Inspection) (images : List RoadImage) (cleared : Cleared)
  | clearedResults (row : Inspection) (images : List RoadImage) (cleared : Cleared)
  /-- The detections are flushed, score and summary computed. -/
  | computed (row : Inspection) (images : List RoadImage) (cleared : Cleared) (outputs : Outputs ℚ)
  /-- The last flush has set `TERMINEE`; only the commit is left. -/
  | updated (images : List RoadImage) (cleared : Cleared) (outputs : Outputs ℚ)
  /-- In the `except` clause of `run_analysis`, rolled back. -/
  | failed
  /-- The clause has read the row again. -/
  | reloaded (row : Inspection)
  /-- It has set `ERREUR`. -/
  | failUpdated

inductive RecommendStage where
  | started (analysisResultId : Uuid)
  | analysisFound (analysisResultId : Uuid)
  | noneExists (analysisResultId : Uuid)
  | scoreFound (analysisResultId : Uuid)
  | inserted (recommendation : MaintenanceRecommendation)

inductive Proc where
  | idle
  | patch (stage : PatchStage)
  | softDelete (stage : DeleteStage)
  | upload (stage : UploadStage)
  | analyse (stage : AnalyseStage)
  | worker (stage : WorkerStage)
  | recommend (stage : RecommendStage)

/-- The process a request starts. -/
def Request.proc : Request → Proc
  | .patch body => .patch (.started body)
  | .softDelete => .softDelete .started
  | .uploadImage => .upload .started
  | .analyse => .analyse .started
  | .recommend analysisResultId => .recommend (.started analysisResultId)

/-- A `run_analysis` is under way: from the acceptance of its request to the commit that ends it,
or to a failure of its `except` clause. -/
def Proc.InFlight : Proc → Prop
  | .worker _ => True
  | _ => False

/-- What a statement finds outside the database: the clock, fresh identifiers, the active model and
the time it takes. -/
structure Input where
  now : ℕ
  id : Uuid
  model : ActiveModel ℚ
  processingTimeMs : ℕ

/-- What a statement does to the database. -/
inductive Effect where
  | none
  | lock (row : LockedRow Inspection.version)
  | commit (tables : Tables) (run : Option WorkerRun)
  | rollback

/-- The database after the effect of a statement of process `p`. -/
def Effect.apply (p : ℕ) (db : Database) : Effect → Database
  | .none => db
  | .lock row => { db with row }
  | .commit tables run => { row := db.row.commit p, tables, lastRun := run.or db.lastRun }
  | .rollback => { db with row := db.row.rollback p }

/-! ### The statements -/

section Statements

variable (damageTypes : DamageTypeTable ℚ) (db : Database) (p : ℕ) (input : Input)

/-- The request ends with an error response. -/
def refuse : Option (Effect × Proc) := some (.rollback, .idle)

/-- `UPDATE inspections SET … WHERE id = … [AND version = expected]`.  No match is a 409; a violated
constraint leaves only failure. -/
def updateInspection (expected : Option ℕ) (set : Assignments) (next : Proc) :
    Option (Effect × Proc) :=
  match db.row.update p expected (updateRow set input.now) (bumps_updateRow set input.now) with
  | .blocked => none
  | .noMatch => refuse
  | .locked row =>
    if (updateRow set input.now db.row.committed).Checks then some (.lock row, next) else none

/-- The flush of `inspection.status = status`: no statement when the loaded row has it. -/
def flushStatus (loaded : Inspection) (status : InspectionStatus) (next : Proc) :
    Option (Effect × Proc) :=
  if loaded.status = status then some (.none, next)
  else updateInspection db p input none { status := some status } next

/-- `InspectionService.update`. -/
def execPatch : PatchStage → Option (Effect × Proc)
  | .started body =>
    if db.row.committed.deletedAt = none then some (.none, .patch (.found body)) else refuse
  | .found body =>
    -- no field is set: the row is returned as it was read
    if body.values.isEmpty then some (.rollback, .idle)
    else updateInspection db p input (some body.version) body.values (.patch .updated)
  | .updated => some (.commit db.tables none, .idle)

/-- `InspectionService.soft_delete`. -/
def execDelete : DeleteStage → Option (Effect × Proc)
  | .started =>
    if db.row.committed.deletedAt = none then some (.none, .softDelete .found) else refuse
  | .found =>
    -- no version is asked for
    updateInspection db p input none { deletedAt := some input.now } (.softDelete .updated)
  | .updated => some (.commit db.tables none, .idle)

/-- `next_sequence_num`. -/
def nextSequenceNum (images : List RoadImage) : ℕ :=
  (images.map RoadImage.sequenceNum).foldr max 0 + 1

/-- `InspectionService.upload_image`; a payload that is no image is a failure. -/
def execUpload : UploadStage → Option (Effect × Proc)
  | .started =>
    if db.row.committed.deletedAt = none then some (.none, .upload .found) else refuse
  | .found =>
    -- a plain `SELECT max(…)`: nothing reserves the number
    some (.none, .upload (.numbered (nextSequenceNum db.tables.roadImages)))
  | .numbered sequenceNum => some (.none, .upload (.inserted { id := input.id, sequenceNum }))
  | .inserted image =>
    if image.id ∈ db.tables.roadImages.map RoadImage.id then none
    else some (.commit
      { db.tables with roadImages := db.tables.roadImages ++ [image] } none, .idle)

/-- The statuses an analysis can start from. -/
def Startable (status : InspectionStatus) : Prop := status = .EN_ATTENTE ∨ status = .ERREUR

instance (status : InspectionStatus) : Decidable (Startable status) :=
  inferInstanceAs (Decidable (_ ∨ _))

/-- `InspectionService.request_analysis`.  Its commit starts the run. -/
def execAnalyse : AnalyseStage → Option (Effect × Proc)
  | .started =>
    if db.row.committed.deletedAt = none then some (.none, .analyse (.loaded db.row.committed))
    else refuse
  | .loaded row =>
    -- `selectinload`: the images are read by a statement of their own
    if db.tables.roadImages = [] then refuse
    else if Startable row.status then some (.none, .analyse (.checked row))
    else refuse
  | .checked row =>
    updateInspection db p input (some row.version) { status := some .EN_COURS } (.analyse .updated)
  | .updated => some (.commit db.tables none, .worker .started)

/-- The tables after the commit of a run, if `uq_pci_inspection` and `uq_analysis_inspection`
accept it.  A deleted result takes its recommendations along. -/
def commitRun (tables : Tables) (cleared : Cleared) (outputs : Outputs ℚ) : Option Tables :=
  let pciScores := tables.pciScores.diff cleared.pciScores ++ [outputs.pciScore]
  let analysisResults :=
    tables.analysisResults.diff cleared.analysisResults ++ [outputs.analysisResult]
  if pciScores.length ≤ 1 ∧ analysisResults.length ≤ 1 then
    some { tables with
      damageDetections :=
        tables.damageDetections.diff cleared.damageDetections ++ outputs.damageDetections
      pciScores
      analysisResults
      recommendations := tables.recommendations.filter fun recommendation =>
        recommendation.analysisResultId ∉ cleared.analysisResults.map AnalysisResult.id }
  else none

/-- `run_analysis`. -/
def execWorker : WorkerStage → Option (Effect × Proc)
  -- neither `deleted_at` nor the status is looked at
  | .started => some (.none, .worker (.loaded db.row.committed))
  | .loaded row => some (.none, .worker (.selected row db.tables.roadImages))
  | .selected row images =>
    let cleared : Cleared := {
      damageDetections := db.tables.damageDetections.filter fun detection =>
        detection.roadImageId ∈ images.map RoadImage.id }
    some (.none, .worker (.clearedDetections row images cleared))
  | .clearedDetections row images cleared =>
    let cleared := { cleared with pciScores := db.tables.pciScores }
    some (.none, .worker (.clearedScores row images cleared))
  | .clearedScores row images cleared =>
    let cleared := { cleared with analysisResults := db.tables.analysisResults }
    some (.none, .worker (.clearedResults row images cleared))
  | .clearedResults row images cleared =>
    -- no image, no active model and a value out of range all end here
    match analyse input.model damageTypes images input.id input.processingTimeMs >>=
        Outputs.store with
    | .ok outputs => some (.none, .worker (.computed row images cleared outputs))
    | .error _ => some (.rollback, .worker .failed)
  | .computed row images cleared outputs =>
    flushStatus db p input row .TERMINEE (.worker (.updated images cleared outputs))
  | .updated images cleared outputs =>
    (commitRun db.tables cleared outputs).map fun tables =>
      (.commit tables (some { images, outputs }), .idle)
  | .failed => some (.none, .worker (.reloaded db.row.committed))
  | .reloaded row => flushStatus db p input row .ERREUR (.worker .failUpdated)
  | .failUpdated => some (.commit db.tables none, .idle)

/-- `RecommendationService.generate_for_analysis`, to `uq_rec_analysis` and the foreign key. -/
def execRecommend : RecommendStage → Option (Effect × Proc)
  | .started analysisResultId =>
    if analysisResultId ∈ db.tables.analysisResults.map AnalysisResult.id then
      some (.none, .recommend (.analysisFound analysisResultId))
    else refuse
  | .analysisFound analysisResultId =>
    if analysisResultId ∈
        db.tables.recommendations.map MaintenanceRecommendation.analysisResultId then refuse
    else some (.none, .recommend (.noneExists analysisResultId))
  | .noneExists analysisResultId =>
    if db.tables.pciScores = [] then refuse
    else some (.none, .recommend (.scoreFound analysisResultId))
  | .scoreFound analysisResultId =>
    some (.none, .recommend (.inserted { id := input.id, analysisResultId }))
  | .inserted recommendation =>
    if recommendation.analysisResultId ∈ db.tables.analysisResults.map AnalysisResult.id ∧
        recommendation.analysisResultId ∉
          db.tables.recommendations.map MaintenanceRecommendation.analysisResultId then
      some (.commit { db.tables with
        recommendations := db.tables.recommendations ++ [recommendation] } none, .idle)
    else none

/-- The next statement of a process. -/
def exec : Proc → Option (Effect × Proc)
  | .idle => none
  | .patch stage => execPatch db p input stage
  | .softDelete stage => execDelete db p input stage
  | .upload stage => execUpload db input stage
  | .analyse stage => execAnalyse db p input stage
  | .worker stage => execWorker damageTypes db p input stage
  | .recommend stage => execRecommend db input stage

end Statements

/-- Where a failure leaves a process: a request ends, a run enters its `except` clause, and a
failure of that clause ends the run. -/
def Proc.afterFailure : Proc → Proc
  | .worker .failed | .worker (.reloaded _) | .worker .failUpdated => .idle
  | .worker _ => .worker .failed
  | _ => .idle

/-! ### The machine -/

structure State where
  db : Database
  procs : ℕ → Proc

/-- An action: a request arrives, a process makes its next statement, or it fails there. -/
inductive Action where
  | start (p : ℕ) (request : Request)
  | exec (p : ℕ) (input : Input)
  | fail (p : ℕ)

/-- Process `p` has made a statement. -/
def State.after (s : State) (p : ℕ) (effect : Effect) (proc : Proc) : State where
  db := effect.apply p s.db
  procs := Function.update s.procs p proc

@[simp]
theorem State.procs_after_self (s : State) (p : ℕ) (effect : Effect) (proc : Proc) :
    (s.after p effect proc).procs p = proc :=
  Function.update_self ..

theorem State.procs_after_of_ne {s : State} {p q : ℕ} {effect : Effect} {proc : Proc}
    (h : q ≠ p) : (s.after p effect proc).procs q = s.procs q :=
  Function.update_of_ne h ..

/-- One action. -/
def step (damageTypes : DamageTypeTable ℚ) (s : State) : Action → Option State
  | .start p request =>
    match s.procs p with
    | .idle => some (s.after p .none request.proc)
    | _ => none
  | .exec p input =>
    (exec damageTypes s.db p input (s.procs p)).map fun outcome => s.after p outcome.1 outcome.2
  | .fail p =>
    match s.procs p with
    | .idle => none
    | proc => some (s.after p .rollback proc.afterFailure)

/-- The state right after `create`. -/
def State.created (row : Inspection) : State where
  db := {
    row := .unlocked row
    tables := {
      roadImages := []
      damageDetections := []
      pciScores := []
      analysisResults := []
      recommendations := [] }
    lastRun := none }
  procs := fun _ => .idle

/-- The inspection, from its creation on. -/
def system (damageTypes : DamageTypeTable ℚ) : Machine State Action where
  init s := ∃ data actor id now, s = State.created (create data actor id now)
  step := step damageTypes

end RoadVisionAI.Inspections
