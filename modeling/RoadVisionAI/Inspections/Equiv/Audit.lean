import RoadVisionAI.Inspections.Equiv.SM1
import RoadVisionAI.Workers.Equiv.AnalysisWorker

/-!
# The score can be recomputed from the stored detections

`AnalysisWorker.recompute_store` is about the rows one computation returns.  By the invariant the
committed rows of an inspection are those of its last run, whatever has happened since.
-/

namespace RoadVisionAI.Inspections

open Python Db Transition AnalysisWorker

variable {damageTypes : DamageTypeTable ℚ}

/-- **Audit.**  Once a run has been committed, `compute_pci` of the stored detections, in any order,
and of the number of images it has read, returns the stored score, levels and dominant type, and
`total_detections` is their number. -/
theorem stored_score_recomputable {s : State} (hs : (system damageTypes).Reachable s)
    {run : WorkerRun} (hrun : s.db.lastRun = some run) {rows : List (DamageDetection ℚ)}
    (hrows : rows.Perm s.db.tables.damageDetections) :
    ∃ pci result, recompute damageTypes rows run.images.length = .ok pci ∧
      s.db.tables.pciScores = [{
        score := pci.score
        severityLevel := pci.severityLevel
        priorityLevel := pci.priorityLevel }] ∧
      s.db.tables.analysisResults = [result] ∧
      result.dominantDamageType = dominantType pci ∧
      result.totalDetections = rows.length := by
  obtain ⟨hran, hdetections, hscores, hresults⟩ := (invariant_inv.holds hs).outputsOf_lastRun hrun
  obtain ⟨model, analysisId, processingTimeMs, computed, hanalyse, hstore⟩ := hran
  rw [hdetections] at hrows
  obtain ⟨pci, hpci, hscore, hdominant, htotal⟩ := recompute_store hanalyse hstore hrows
  exact ⟨pci, run.outputs.analysisResult, hpci, by rw [hscores, hscore], hresults, hdominant,
    htotal⟩

/-- A moment with a fresh id, and a model that sees potholes. -/
def potholeInput (id : String) : Input := { quietInput id with model := potholeModel }

/-- An upload, a request and the run it starts, on potholes. -/
def potholeSurvey : List Action :=
  .start 0 .uploadImage :: List.replicate 4 (.exec 0 (potholeInput "image-1")) ++
    .start 1 .analyse :: List.replicate 12 (.exec 1 (potholeInput "analysis-1"))

/-- Its two potholes, read back in either order, give its score. -/
theorem stored_score_recomputable_potholeSurvey :
    ∃ t, (system potholeTable).run (.created newInspection) potholeSurvey = some t ∧
      t.db.tables.damageDetections.length = 2 ∧
      ∃ pci, recompute potholeTable t.db.tables.damageDetections.reverse 1 = .ok pci ∧
        t.db.tables.pciScores.map PciScore.score = [pci.score] := by
  have hrun : ((system potholeTable).run (.created newInspection) potholeSurvey).map
      (fun t => (t.db.tables.damageDetections.length,
        t.db.lastRun.map fun run => run.images.length)) = some (2, some 1) := by
    decide +kernel
  obtain ⟨t, ht, hs, heq⟩ := Machine.reachable_of_map_run (init_newInspection potholeTable) hrun
  obtain ⟨htwo, hone⟩ := Prod.mk.inj heq
  obtain ⟨run, hlast, hone⟩ := Option.map_eq_some_iff.mp hone
  obtain ⟨pci, result, hpci, hscores, -⟩ :=
    stored_score_recomputable hs hlast (List.reverse_perm t.db.tables.damageDetections)
  rw [hone] at hpci
  exact ⟨t, ht, htwo, pci, hpci, by rw [hscores]; rfl⟩

end RoadVisionAI.Inspections
