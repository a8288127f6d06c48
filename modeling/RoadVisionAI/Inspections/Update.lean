import RoadVisionAI.Inspections.System

/-!
# One PATCH (`app/services/inspection_service.py`, `app/repositories/base.py`)

`InspectionService.update` from its first read to its last, with nobody else writing the row: what
it returns or raises, the row it leaves and what it logs.  A parameter the driver cannot pass and a
row the table refuses raise the driver's exception.
-/

namespace RoadVisionAI.Inspections

open Python Db

/-- An `INTEGER` column holds less. -/
def integerBound : ℕ := 2 ^ 31

/-- PostgreSQL takes the parameters: a text has no NUL, an `INTEGER` fits. -/
def Sendable (expectedVersion : ℕ) (set : Assignments) : Prop :=
  expectedVersion < integerBound ∧ (∀ text ∈ set.weatherCond, Char.ofNat 0 ∉ text.toList) ∧
    ∀ text ∈ set.notes, Char.ofNat 0 ∉ text.toList

instance (expectedVersion : ℕ) (set : Assignments) : Decidable (Sendable expectedVersion set) :=
  inferInstanceAs (Decidable (_ ∧ _ ∧ _))

/-- What SQLAlchemy raises for the database. -/
def dbapiError (msg : String) : Raised := .other (.other "DBAPIError" msg)

/-- `audit_logs`. -/
structure AuditLog where
  action : String
  entityType : String
  entityId : Uuid
  userId : Uuid
  newValue : Assignments
deriving DecidableEq

/-- What a request returns or raises, the row it leaves and the entries it has logged. -/
structure Response where
  result : Except Raised Inspection
  row : Inspection
  auditLogs : List AuditLog

/-- `get_or_404`. -/
def getOr404 (row : Inspection) : Except Raised Inspection :=
  if row.deletedAt = none then .ok row
  else .error (.http { statusCode := 404, detail := s!"Inspection {row.id.str} not found" })

/-- The 409 of `update_with_version`. -/
def conflict (id : Uuid) (expectedVersion : ℕ) : HttpException where
  statusCode := 409
  detail :=
    s!"Inspection {id.str} was modified by another user (expected version {expectedVersion})"

/-- `update_with_version`: the row the statement writes. -/
def updateWithVersion (row : Inspection) (expectedVersion : ℕ) (set : Assignments) (now : ℕ) :
    Except Raised Inspection :=
  if ¬ Sendable expectedVersion set then .error (dbapiError "invalid parameter")
  else if row.version ≠ expectedVersion then .error (.http (conflict row.id expectedVersion))
  else
    let new := updateRow set now row
    if new.Checks ∧ new.version < integerBound then .ok new
    else .error (dbapiError "the row is refused")

/-- `InspectionService.update`.  What raises before the commit is rolled back. -/
def update (row : Inspection) (data : InspectionUpdate) (actor : Uuid) (now : ℕ) : Response :=
  match getOr404 row with
  | .error exc => { result := .error exc, row, auditLogs := [] }
  | .ok _ =>
    let values := data.values
    if values.isEmpty then { result := getOr404 row, row, auditLogs := [] }
    else
      match updateWithVersion row data.version values now with
      | .error exc => { result := .error exc, row, auditLogs := [] }
      | .ok updated => {
          result := getOr404 updated
          row := updated
          auditLogs := [{
            action := "INSPECTION_UPDATED", entityType := "inspections", entityId := row.id
            userId := actor, newValue := values }] }

end RoadVisionAI.Inspections
