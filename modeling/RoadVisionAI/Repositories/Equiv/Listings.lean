import RoadVisionAI.Repositories.Listings

/-!
# Pages without gaps

When a client that asks for one page after the other sees every matching row exactly once.  The
listings order by a date, or not at all, and a date is no unique key: `listings_lossless_iff` gives,
for each of the three, the tables and page sizes that are safe whatever the database does with ties,
and `not_lossless_equalDates` a row that is listed twice, in each of them.
-/

namespace RoadVisionAI.Repositories

open Db Relational Inspections Recommendations

variable {limit : ℕ}

theorem Table.nodup {α : Type*} {id : α → Uuid} (table : Table id) : table.rows.Nodup :=
  table.nodup_ids.of_map id

theorem nodup_baseQuery {α : Type*} {model : Model α} {rows : List α} (h : rows.Nodup) :
    (model.baseQuery rows).Nodup := by
  unfold Model.baseQuery
  split
  · exact h
  · exact h.filter _

theorem nodup_whereGiven {α β : Type*} {given : Option β} {cond : β → α → Bool} {stmt : List α}
    (h : stmt.Nodup) : (whereGiven given cond stmt).Nodup := by
  unfold whereGiven
  split
  · exact h
  · exact h.filter _

theorem nodup_where {filters : InspectionFilters} {rows : List Inspection} (h : rows.Nodup) :
    (filters.where rows).Nodup :=
  nodup_whereGiven (nodup_whereGiven (nodup_whereGiven (nodup_baseQuery h)))

/-- **The pages of the three listings.**  The filtered inspections and the pending recommendations
are listed without gaps and repetitions exactly when no rows with equal dates lie on both sides of a
page boundary; the reports exactly when they fit on one page. -/
theorem listings_lossless_iff (inspections : Table Inspection.id) (filters : InspectionFilters)
    (reports : Table InspectionReport.id) (recommendations : Table MaintenanceRecommendation.id)
    (hlimit : 1 ≤ limit) :
    (Lossless (ListFiltered filters inspections.rows) (filters.where inspections.rows) limit
        ↔ ¬ TieAcrossPages inspectionDateDesc (filters.where inspections.rows) limit) ∧
      (Lossless (inspectionReport.List reports.rows) (inspectionReport.baseQuery reports.rows) limit
        ↔ (inspectionReport.baseQuery reports.rows).length ≤ limit) ∧
      (Lossless (ListPending recommendations.rows) (pending recommendations.rows) limit
        ↔ ¬ TieAcrossPages MaintenanceRecommendation.createdAt (pending recommendations.rows)
          limit) := by
  refine ⟨?_, ?_, ?_⟩
  · exact lossless_iff hlimit (nodup_where inspections.nodup)
  · exact lossless_unsorted_iff hlimit (nodup_baseQuery reports.nodup)
  · exact lossless_iff hlimit (recommendations.nodup.filter _)

/-- Two surveys of one morning. -/
def sameMorning : Table Inspection.id where
  rows := ["i1", "i2"].map fun id => {
    id := ⟨id⟩, roadSectionId := ⟨"s1"⟩, createdBy := ⟨"u1"⟩, validatedBy := none
    status := .TERMINEE, inspectionDate := 480, weatherCond := none, notes := none
    createdAt := 500, updatedAt := 500, deletedAt := none, version := 1 }
  nodup_ids := by decide

/-- Their reports. -/
def theirReports : Table InspectionReport.id where
  rows := [{ id := ⟨"r1"⟩, planId := ⟨"p1"⟩, title := "RN1" },
    { id := ⟨"r2"⟩, planId := ⟨"p2"⟩, title := "RN2" }]
  nodup_ids := by decide

/-- Two recommendations of one microsecond. -/
def sameInstant : Table MaintenanceRecommendation.id where
  rows := ["m1", "m2"].map fun id => {
    id := ⟨id⟩, analysisResultId := ⟨id⟩, strategy := .COLMATAGE, estimatedCostMin := none
    estimatedCostMax := none, estimatedDays := .null, deadline := none, justification := "R001"
    normativeRefs := .arr [], confidence := none, status := .EN_ATTENTE, createdAt := 600 }
  nodup_ids := by decide

/-- The criterion at a page that holds both rows. -/
theorem listings_lossless_iff_sameMorning :
    (Lossless (ListFiltered {} sameMorning.rows) (InspectionFilters.where {} sameMorning.rows) 2
        ↔ ¬ TieAcrossPages inspectionDateDesc (InspectionFilters.where {} sameMorning.rows) 2) ∧
      (Lossless (inspectionReport.List theirReports.rows)
          (inspectionReport.baseQuery theirReports.rows) 2
        ↔ (inspectionReport.baseQuery theirReports.rows).length ≤ 2) ∧
      (Lossless (ListPending sameInstant.rows) (pending sameInstant.rows) 2
        ↔ ¬ TieAcrossPages MaintenanceRecommendation.createdAt (pending sameInstant.rows) 2) :=
  listings_lossless_iff sameMorning {} theirReports sameInstant (by norm_num)

/-- With one row to a page, the first row may come on both pages and the second on none, in each of
the three listings. -/
theorem not_lossless_equalDates :
    ¬ Lossless (ListFiltered {} sameMorning.rows) (InspectionFilters.where {} sameMorning.rows) 1 ∧
      ¬ Lossless (inspectionReport.List theirReports.rows)
        (inspectionReport.baseQuery theirReports.rows) 1 ∧
      ¬ Lossless (ListPending sameInstant.rows) (pending sameInstant.rows) 1 := by
  refine ⟨?_, ?_, ?_⟩
  · apply not_lossless_of_tieAcross (i := 1) le_rfl (nodup_where sameMorning.nodup)
    exact ⟨_, List.mem_cons_self, by decide, by decide⟩
  · apply not_lossless_of_tieAcross (i := 1) le_rfl (nodup_baseQuery theirReports.nodup)
    exact ⟨_, List.mem_cons_self, by decide, by decide⟩
  · apply not_lossless_of_tieAcross (i := 1) le_rfl (sameInstant.nodup.filter _)
    exact ⟨_, List.mem_cons_self, by decide, by decide⟩

end RoadVisionAI.Repositories
