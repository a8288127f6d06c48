import RoadVisionAI.Inspections.Row
import RoadVisionAI.Recommendations.Rows
import RoadVisionAI.Relational.Pagination

/-!
# The paginated listings

`BaseRepository.list` and `InspectionRepository.list_filtered` (`app/repositories`), and
`RecommendationService.list_pending` (`app/services`).  Each counts the rows of a query and reads a
page of it; what the database may answer is a relation, since `ORDER BY` leaves the order of ties
to it, and its absence the whole order.
-/

namespace RoadVisionAI.Repositories

open Db Relational Inspections Recommendations

/-- A table with a primary key. -/
structure Table {α : Type*} (id : α → Uuid) where
  rows : List α
  nodup_ids : (rows.map id).Nodup

/-- What a repository knows of its model: the column `deleted_at`, if the model has one. -/
structure Model (α : Type*) where
  deletedAt : Option (α → Option ℕ)

/-- `_base_query`. -/
def Model.baseQuery {α : Type*} (model : Model α) (rows : List α) : List α :=
  match model.deletedAt with
  | none => rows
  | some deletedAt => rows.filter fun row => deletedAt row = none

/-- `BaseRepository.list`: a page in whatever order, and the total. -/
def Model.List {α : Type*} (model : Model α) (rows : List α) (limit offset : ℕ)
    (answer : List α × ℕ) : Prop :=
  Answers (fun _ => ()) (model.baseQuery rows) limit offset answer

/-- `inspection_reports`, the columns of a listing that identify the report. -/
structure InspectionReport where
  id : Uuid
  planId : Uuid
  title : String
deriving DecidableEq

/-- `ReportRepository.model`: reports have no `deleted_at`. -/
def inspectionReport : Model InspectionReport := ⟨none⟩

/-- `InspectionRepository.model`. -/
def inspection : Model Inspection := ⟨some Inspection.deletedAt⟩

/-- The filters of `list_filtered`. -/
structure InspectionFilters where
  status : Option InspectionStatus := none
  roadSectionId : Option Uuid := none
  createdBy : Option Uuid := none

/-- `if given is not None: stmt = stmt.where(…)`. -/
def whereGiven {α β : Type*} (given : Option β) (cond : β → α → Bool) (stmt : List α) : List α :=
  match given with
  | none => stmt
  | some value => stmt.filter (cond value)

/-- The rows `list_filtered` counts and lists. -/
def InspectionFilters.where (filters : InspectionFilters) (rows : List Inspection) :
    List Inspection :=
  let stmt := inspection.baseQuery rows
  let stmt := whereGiven filters.status (fun status row => row.status = status) stmt
  let stmt := whereGiven filters.roadSectionId (fun id row => row.roadSectionId = id) stmt
  whereGiven filters.createdBy (fun id row => row.createdBy = id) stmt

/-- `ORDER BY inspection_date DESC`. -/
def inspectionDateDesc (row : Inspection) : ℕᵒᵈ := OrderDual.toDual row.inspectionDate

/-- `list_filtered`. -/
def ListFiltered (filters : InspectionFilters) (rows : List Inspection) (limit offset : ℕ)
    (answer : List Inspection × ℕ) : Prop :=
  Answers inspectionDateDesc (filters.where rows) limit offset answer

/-- The recommendations that wait for an engineer. -/
def pending (rows : List MaintenanceRecommendation) : List MaintenanceRecommendation :=
  rows.filter fun row => row.status = .EN_ATTENTE

/-- `list_pending`. -/
def ListPending (rows : List MaintenanceRecommendation) (limit offset : ℕ)
    (answer : List MaintenanceRecommendation × ℕ) : Prop :=
  Answers MaintenanceRecommendation.createdAt (pending rows) limit offset answer

end RoadVisionAI.Repositories
