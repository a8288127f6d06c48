import RoadVisionAI.Db.Models
import RoadVisionAI.Transition.LockedRow

/-!
# The inspections row and its triggers

One row of `inspections`, the `SET` clauses the application issues on it, and the two `BEFORE
UPDATE` triggers, which PostgreSQL fires in the order of their names: first
`trg_inspections_updated_at`, then `trg_inspections_version`.  A statement that changes nothing
leaves the version alone; any other takes it to the next one (`bumps_updateRow`).
-/

namespace RoadVisionAI.Inspections

open Db Transition

/-- A row of `inspections`.  Times are counted from some epoch. -/
structure Inspection where
  id : Uuid
  roadSectionId : Uuid
  createdBy : Uuid
  validatedBy : Option Uuid
  status : InspectionStatus
  inspectionDate : ℕ
  weatherCond : Option String
  notes : Option String
  createdAt : ℕ
  updatedAt : ℕ
  deletedAt : Option ℕ
  version : ℕ
deriving DecidableEq

/-- `chk_inspections_updated_at` and `chk_inspections_deleted_at`. -/
def Inspection.Checks (row : Inspection) : Prop :=
  row.createdAt ≤ row.updatedAt ∧ ∀ time ∈ row.deletedAt, row.createdAt ≤ time

instance (row : Inspection) : Decidable row.Checks :=
  decidable_of_iff (row.createdAt ≤ row.updatedAt ∧ row.deletedAt.all (row.createdAt ≤ ·))
    (by cases h : row.deletedAt <;> simp [Inspection.Checks, h])

/-- A `SET` clause; a column that is not assigned is `none`. -/
structure Assignments where
  status : Option InspectionStatus := none
  weatherCond : Option String := none
  notes : Option String := none
  deletedAt : Option ℕ := none
deriving DecidableEq

/-- Nothing is assigned: `not values`. -/
def Assignments.isEmpty (set : Assignments) : Bool :=
  set.status.isNone && set.weatherCond.isNone && set.notes.isNone && set.deletedAt.isNone

/-- The row with the assigned columns replaced. -/
def Assignments.apply (set : Assignments) (row : Inspection) : Inspection :=
  { row with
    status := set.status.getD row.status
    weatherCond := set.weatherCond.or row.weatherCond
    notes := set.notes.or row.notes
    deletedAt := set.deletedAt.or row.deletedAt }

/-- `fn_set_updated_at`. -/
def fnSetUpdatedAt (now : ℕ) (old new : Inspection) : Inspection :=
  if new ≠ old then { new with updatedAt := now } else new

/-- `fn_increment_version`. -/
def fnIncrementVersion (old new : Inspection) : Inspection :=
  if new ≠ old then { new with version := old.version + 1 } else new

/-- The row an `UPDATE` writes: the assignments, then the triggers. -/
def updateRow (set : Assignments) (now : ℕ) (old : Inspection) : Inspection :=
  fnIncrementVersion old (fnSetUpdatedAt now old (set.apply old))

/-! ### What an `UPDATE` changes -/

theorem updateRow_of_apply_eq {set : Assignments} {old : Inspection} (h : set.apply old = old)
    (now : ℕ) : updateRow set now old = old := by
  have hstamp : fnSetUpdatedAt now old (set.apply old) = old := by
    rw [fnSetUpdatedAt, if_neg (not_not.mpr h), h]
  rw [updateRow, hstamp, fnIncrementVersion, if_neg (not_not.mpr rfl)]

/-- When the assignments change the row, so do both triggers: the second compares with what the
first has left. -/
theorem updateRow_of_apply_ne {set : Assignments} {old : Inspection} (h : set.apply old ≠ old)
    (now : ℕ) :
    updateRow set now old
      = { set.apply old with updatedAt := now, version := old.version + 1 } := by
  have hstamp : fnSetUpdatedAt now old (set.apply old)
      = { set.apply old with updatedAt := now } := by
    rw [fnSetUpdatedAt, if_pos h]
  rw [updateRow, hstamp, fnIncrementVersion]
  by_cases hsame : { set.apply old with updatedAt := now } = old
  · -- `updated_at` is not assigned, so the assignments alone would have changed nothing
    have hback : set.apply old = old := by
      have htime : now = old.updatedAt := congrArg Inspection.updatedAt hsame
      rw [htime] at hsame
      exact hsame
    exact absurd hback h
  · rw [if_pos hsame]

/-- Every `UPDATE` is counted. -/
theorem bumps_updateRow (set : Assignments) (now : ℕ) (old : Inspection) :
    Bumps Inspection.version old (updateRow set now old) := by
  by_cases h : set.apply old = old
  · exact Or.inl (updateRow_of_apply_eq h now)
  · refine Or.inr ?_
    rw [updateRow_of_apply_ne h]

/-- The triggers leave the assigned columns as assigned. -/
theorem updateRow_eq (set : Assignments) (now : ℕ) (old : Inspection) :
    ∃ updatedAt version, updateRow set now old = { set.apply old with updatedAt, version } := by
  by_cases h : set.apply old = old
  · refine ⟨old.updatedAt, old.version, ?_⟩
    rw [updateRow_of_apply_eq h, h]
  · exact ⟨now, old.version + 1, updateRow_of_apply_ne h now⟩

theorem status_updateRow (set : Assignments) (now : ℕ) (old : Inspection) :
    (updateRow set now old).status = set.status.getD old.status := by
  obtain ⟨updatedAt, version, h⟩ := updateRow_eq set now old
  rw [h]
  rfl

end RoadVisionAI.Inspections
