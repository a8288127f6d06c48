import RoadVisionAI.Inspections.System

/-!
# What a statement can do

The one case analysis of the statements.  A statement reads and goes on (`Proc.Reads`), ends its
request (`Proc.Refuses`), updates the inspections row (`Proc.Updates`) or commits (`Proc.Commits`):
`exec_cases`.  The invariants are proved by cases on these relations.
-/

namespace RoadVisionAI.Inspections

open Python Db Transition AnalysisWorker

/-! ### The statements by what they do -/

section

variable (damageTypes : DamageTypeTable ℚ) (db : Database) (p : ℕ) (input : Input)

/-- The process reads, and goes on. -/
inductive Proc.Reads : Proc → Proc → Prop
  | patch {body} (h : db.row.committed.deletedAt = none) :
      Reads (.patch (.started body)) (.patch (.found body))
  | softDelete (h : db.row.committed.deletedAt = none) :
      Reads (.softDelete .started) (.softDelete .found)
  | upload (h : db.row.committed.deletedAt = none) : Reads (.upload .started) (.upload .found)
  | number : Reads (.upload .found) (.upload (.numbered (nextSequenceNum db.tables.roadImages)))
  | insert {sequenceNum} :
      Reads (.upload (.numbered sequenceNum)) (.upload (.inserted { id := input.id, sequenceNum }))
  | load (h : db.row.committed.deletedAt = none) :
      Reads (.analyse .started) (.analyse (.loaded db.row.committed))
  | check {row} (himages : db.tables.roadImages ≠ []) (h : Startable row.status) :
      Reads (.analyse (.loaded row)) (.analyse (.checked row))
  | begin : Reads (.worker .started) (.worker (.loaded db.row.committed))
  | select {row} : Reads (.worker (.loaded row)) (.worker (.selected row db.tables.roadImages))
  | clearDetections {row images} :
      Reads (.worker (.selected row images)) (.worker (.clearedDetections row images {
        damageDetections := db.tables.damageDetections.filter fun detection =>
          detection.roadImageId ∈ images.map RoadImage.id }))
  | clearScores {row images} {cleared : Cleared} :
      Reads (.worker (.clearedDetections row images cleared))
        (.worker (.clearedScores row images { cleared with pciScores := db.tables.pciScores }))
  | clearResults {row images} {cleared : Cleared} :
      Reads (.worker (.clearedScores row images cleared))
        (.worker (.clearedResults row images
          { cleared with analysisResults := db.tables.analysisResults }))
  | compute {row images cleared outputs}
      (h : AnalysisWorker.analyse input.model damageTypes images input.id input.processingTimeMs >>=
        Outputs.store = .ok outputs) :
      Reads (.worker (.clearedResults row images cleared))
        (.worker (.computed row images cleared outputs))
  | keepDone {row images cleared outputs} (h : row.status = .TERMINEE) :
      Reads (.worker (.computed row images cleared outputs))
        (.worker (.updated images cleared outputs))
  | reload : Reads (.worker .failed) (.worker (.reloaded db.row.committed))
  | keepFailed {row} (h : row.status = .ERREUR) :
      Reads (.worker (.reloaded row)) (.worker .failUpdated)
  | findAnalysis {id} (h : id ∈ db.tables.analysisResults.map AnalysisResult.id) :
      Reads (.recommend (.started id)) (.recommend (.analysisFound id))
  | findNone {id}
      (h : id ∉ db.tables.recommendations.map MaintenanceRecommendation.analysisResultId) :
      Reads (.recommend (.analysisFound id)) (.recommend (.noneExists id))
  | findScore {id} (h : db.tables.pciScores ≠ []) :
      Reads (.recommend (.noneExists id)) (.recommend (.scoreFound id))
  | insertRecommendation {id} :
      Reads (.recommend (.scoreFound id))
        (.recommend (.inserted { id := input.id, analysisResultId := id }))

/-- The request ends here: with an error response, or for want of anything to write. -/
inductive Proc.Refuses : Proc → Prop
  | patch {body} (h : db.row.committed.deletedAt ≠ none) : Refuses (.patch (.started body))
  | nothingToWrite {body} (h : body.values.isEmpty) : Refuses (.patch (.found body))
  | softDelete (h : db.row.committed.deletedAt ≠ none) : Refuses (.softDelete .started)
  | upload (h : db.row.committed.deletedAt ≠ none) : Refuses (.upload .started)
  | load (h : db.row.committed.deletedAt ≠ none) : Refuses (.analyse .started)
  | noImages {row} (h : db.tables.roadImages = []) : Refuses (.analyse (.loaded row))
  | notStartable {row} (h : ¬ Startable row.status) : Refuses (.analyse (.loaded row))
  | noAnalysis {id} (h : id ∉ db.tables.analysisResults.map AnalysisResult.id) :
      Refuses (.recommend (.started id))
  | oneExists {id}
      (h : id ∈ db.tables.recommendations.map MaintenanceRecommendation.analysisResultId) :
      Refuses (.recommend (.analysisFound id))
  | noScore {id} (h : db.tables.pciScores = []) : Refuses (.recommend (.noneExists id))

/-- The process updates the row: the version it asks for, what it sets, and where it goes on. -/
inductive Proc.Updates : Proc → Option ℕ → Assignments → Proc → Prop
  | patch {body} : Updates (.patch (.found body)) (some body.version) body.values (.patch .updated)
  | softDelete :
      Updates (.softDelete .found) none { deletedAt := some input.now } (.softDelete .updated)
  | accept {row} :
      Updates (.analyse (.checked row)) (some row.version) { status := some .EN_COURS }
        (.analyse .updated)
  | finish {row images cleared outputs} :
      Updates (.worker (.computed row images cleared outputs)) none { status := some .TERMINEE }
        (.worker (.updated images cleared outputs))
  | fail {row} :
      Updates (.worker (.reloaded row)) none { status := some .ERREUR } (.worker .failUpdated)

/-- The process commits: the tables, the run if it is one, and where it goes on. -/
inductive Proc.Commits : Proc → Tables → Option WorkerRun → Proc → Prop
  | patch : Commits (.patch .updated) db.tables none .idle
  | softDelete : Commits (.softDelete .updated) db.tables none .idle
  | upload {image} (h : image.id ∉ db.tables.roadImages.map RoadImage.id) :
      Commits (.upload (.inserted image))
        { db.tables with roadImages := db.tables.roadImages ++ [image] } none .idle
  | accept : Commits (.analyse .updated) db.tables none (.worker .started)
  | run {images cleared outputs tables} (h : commitRun db.tables cleared outputs = some tables) :
      Commits (.worker (.updated images cleared outputs)) tables (some { images, outputs }) .idle
  | fail : Commits (.worker .failUpdated) db.tables none .idle
  | recommend {recommendation : MaintenanceRecommendation}
      (hresult : recommendation.analysisResultId ∈
        db.tables.analysisResults.map AnalysisResult.id)
      (hnone : recommendation.analysisResultId ∉
        db.tables.recommendations.map MaintenanceRecommendation.analysisResultId) :
      Commits (.recommend (.inserted recommendation))
        { db.tables with recommendations := db.tables.recommendations ++ [recommendation] }
        none .idle

/-- What the next statement of a process does. -/
inductive Proc.Makes (proc : Proc) : Effect → Proc → Prop
  | read {proc'} (h : proc.Reads damageTypes db input proc') : Makes proc .none proc'
  | refuse (h : proc.Refuses db) : Makes proc .rollback .idle
  /-- The computation of a run raises. -/
  | raise {row images cleared exc} (hproc : proc = .worker (.clearedResults row images cleared))
      (h : AnalysisWorker.analyse input.model damageTypes images input.id input.processingTimeMs >>=
        Outputs.store = .error exc) :
      Makes proc .rollback (.worker .failed)
  | update {expected set next effect proc'} (h : proc.Updates input expected set next)
      (hupdate : updateInspection db p input expected set next = some (effect, proc')) :
      Makes proc effect proc'
  | commit {tables run proc'} (h : proc.Commits db tables run proc') :
      Makes proc (.commit tables run) proc'

end

variable {damageTypes : DamageTypeTable ℚ} {db : Database} {p : ℕ} {input : Input}

/-! ### The case analysis -/

theorem updateInspection_cases {expected : Option ℕ} {set : Assignments} {next proc : Proc}
    {effect : Effect}
    (h : updateInspection db p input expected set next = some (effect, proc)) :
    (effect = .rollback ∧ proc = .idle) ∨
      ∃ row l, effect = .lock row ∧ proc = next ∧ db.row.lock = none ∧
        row.committed = db.row.committed ∧ row.lock = some l ∧ l.holder = p ∧
        l.expected = expected ∧ l.write = updateRow set input.now ∧
        l.base = db.row.committed := by
  unfold updateInspection at h
  split at h
  next => cases h
  next =>
    obtain ⟨rfl, rfl⟩ := Prod.mk.inj (Option.some.inj h)
    exact Or.inl ⟨rfl, rfl⟩
  next row hlocked =>
    split_ifs at h
    obtain ⟨rfl, rfl⟩ := Prod.mk.inj (Option.some.inj h)
    obtain ⟨hfree, hcommitted, l, hl⟩ := LockedRow.update_eq_locked hlocked
    exact Or.inr ⟨row, l, rfl, rfl, hfree, hcommitted, hl⟩

theorem execPatch_cases {stage : PatchStage} {effect : Effect} {proc' : Proc}
    (h : execPatch db p input stage = some (effect, proc')) :
    (Proc.patch stage).Makes damageTypes db p input effect proc' := by
  cases stage with
  | started body =>
    simp only [execPatch, refuse] at h
    split_ifs at h with hdeleted
    · cases h; exact .read (.patch hdeleted)
    · cases h; exact .refuse (.patch hdeleted)
  | found body =>
    simp only [execPatch] at h
    split_ifs at h with hempty
    · cases h; exact .refuse (.nothingToWrite hempty)
    · exact .update .patch h
  | updated => cases h; exact .commit .patch

theorem execDelete_cases {stage : DeleteStage} {effect : Effect} {proc' : Proc}
    (h : execDelete db p input stage = some (effect, proc')) :
    (Proc.softDelete stage).Makes damageTypes db p input effect proc' := by
  cases stage with
  | started =>
    simp only [execDelete, refuse] at h
    split_ifs at h with hdeleted
    · cases h; exact .read (.softDelete hdeleted)
    · cases h; exact .refuse (.softDelete hdeleted)
  | found => exact .update .softDelete h
  | updated => cases h; exact .commit .softDelete

theorem execUpload_cases {stage : UploadStage} {effect : Effect} {proc' : Proc}
    (h : execUpload db input stage = some (effect, proc')) :
    (Proc.upload stage).Makes damageTypes db p input effect proc' := by
  cases stage with
  | started =>
    simp only [execUpload, refuse] at h
    split_ifs at h with hdeleted
    · cases h; exact .read (.upload hdeleted)
    · cases h; exact .refuse (.upload hdeleted)
  | found => cases h; exact .read .number
  | numbered sequenceNum => cases h; exact .read .insert
  | inserted image =>
    simp only [execUpload] at h
    split_ifs at h with hfresh
    cases h; exact .commit (.upload hfresh)

theorem execAnalyse_cases {stage : AnalyseStage} {effect : Effect} {proc' : Proc}
    (h : execAnalyse db p input stage = some (effect, proc')) :
    (Proc.analyse stage).Makes damageTypes db p input effect proc' := by
  cases stage with
  | started =>
    simp only [execAnalyse, refuse] at h
    split_ifs at h with hdeleted
    · cases h; exact .read (.load hdeleted)
    · cases h; exact .refuse (.load hdeleted)
  | loaded row =>
    simp only [execAnalyse, refuse] at h
    split_ifs at h with hnil hstart
    · cases h; exact .refuse (.noImages hnil)
    · cases h; exact .read (.check hnil hstart)
    · cases h; exact .refuse (.notStartable hstart)
  | checked row => exact .update .accept h
  | updated => cases h; exact .commit .accept

theorem execWorker_cases {stage : WorkerStage} {effect : Effect} {proc' : Proc}
    (h : execWorker damageTypes db p input stage = some (effect, proc')) :
    (Proc.worker stage).Makes damageTypes db p input effect proc' := by
  cases stage with
  | started => cases h; exact .read .begin
  | loaded row => cases h; exact .read .select
  | selected row images => cases h; exact .read .clearDetections
  | clearedDetections row images cleared => cases h; exact .read .clearScores
  | clearedScores row images cleared => cases h; exact .read .clearResults
  | clearedResults row images cleared =>
    simp only [execWorker] at h
    split at h
    next outputs houtputs => cases h; exact .read (.compute houtputs)
    next exc hexc => cases h; exact .raise rfl hexc
  | computed row images cleared outputs =>
    simp only [execWorker, flushStatus] at h
    split_ifs at h with hdone
    · cases h; exact .read (.keepDone hdone)
    · exact .update .finish h
  | updated images cleared outputs =>
    obtain ⟨tables, hcommit, houtcome⟩ := Option.map_eq_some_iff.mp h
    cases houtcome
    exact .commit (.run hcommit)
  | failed => cases h; exact .read .reload
  | reloaded row =>
    simp only [execWorker, flushStatus] at h
    split_ifs at h with hfailed
    · cases h; exact .read (.keepFailed hfailed)
    · exact .update .fail h
  | failUpdated => cases h; exact .commit .fail

theorem execRecommend_cases {stage : RecommendStage} {effect : Effect} {proc' : Proc}
    (h : execRecommend db input stage = some (effect, proc')) :
    (Proc.recommend stage).Makes damageTypes db p input effect proc' := by
  cases stage with
  | started analysisResultId =>
    simp only [execRecommend, refuse] at h
    split_ifs at h with hfound
    · cases h; exact .read (.findAnalysis hfound)
    · cases h; exact .refuse (.noAnalysis hfound)
  | analysisFound analysisResultId =>
    simp only [execRecommend, refuse] at h
    split_ifs at h with hexists
    · cases h; exact .refuse (.oneExists hexists)
    · cases h; exact .read (.findNone hexists)
  | noneExists analysisResultId =>
    simp only [execRecommend, refuse] at h
    split_ifs at h with hnone
    · cases h; exact .refuse (.noScore hnone)
    · cases h; exact .read (.findScore hnone)
  | scoreFound analysisResultId => cases h; exact .read .insertRecommendation
  | inserted recommendation =>
    simp only [execRecommend] at h
    split_ifs at h with hinsert
    cases h; exact .commit (.recommend hinsert.1 hinsert.2)

/-- The case analysis. -/
theorem exec_cases {proc proc' : Proc} {effect : Effect}
    (h : exec damageTypes db p input proc = some (effect, proc')) :
    proc.Makes damageTypes db p input effect proc' := by
  cases proc with
  | idle => cases h
  | patch stage => exact execPatch_cases h
  | softDelete stage => exact execDelete_cases h
  | upload stage => exact execUpload_cases h
  | analyse stage => exact execAnalyse_cases h
  | worker stage => exact execWorker_cases h
  | recommend stage => exact execRecommend_cases h

/-- What an action does: a request arrives, a process makes its next statement, or fails there. -/
theorem step_cases {s s' : State} {a : Action} (h : step damageTypes s a = some s') :
    (∃ q request, a = .start q request ∧ s.procs q = .idle ∧ s' = s.after q .none request.proc) ∨
      (∃ q input effect proc, a = .exec q input ∧
        (s.procs q).Makes damageTypes s.db q input effect proc ∧ s' = s.after q effect proc) ∨
      (∃ q, a = .fail q ∧ s' = s.after q .rollback (s.procs q).afterFailure) := by
  cases a with
  | start q request =>
    simp only [step] at h
    split at h
    next hidle => exact Or.inl ⟨q, request, rfl, hidle, (Option.some.inj h).symm⟩
    next => cases h
  | exec q input =>
    obtain ⟨⟨effect, proc⟩, hexec, houtcome⟩ := Option.map_eq_some_iff.mp h
    exact Or.inr (Or.inl ⟨q, input, effect, proc, rfl, exec_cases hexec, houtcome.symm⟩)
  | fail q =>
    simp only [step] at h
    split at h
    next => cases h
    next => exact Or.inr (Or.inr ⟨q, rfl, (Option.some.inj h).symm⟩)

/-- What a process has read (`f`) it had read before the step, or its statement has just read it.
Requests begin with nothing, and failures leave nothing. -/
theorem read_step {β : Type*} {f : Proc → Option β} {b : β} {Now : Prop} {s s' : State} {a : Action}
    {q : ℕ} (hproc : ∀ request : Request, f request.proc = none)
    (hfailure : ∀ proc : Proc, f proc.afterFailure = none)
    (hmakes : ∀ p input effect proc', (s.procs p).Makes damageTypes s.db p input effect proc' →
      f proc' = some b → f (s.procs p) = some b ∨ Now)
    (hstep : step damageTypes s a = some s') (hread : f (s'.procs q) = some b) :
    f (s.procs q) = some b ∨ Now := by
  -- the process of the action, and the others
  have hcases : ∀ {p effect proc}, s' = s.after p effect proc →
      q = p ∧ f proc = some b ∨ f (s.procs q) = some b := by
    rintro p effect proc rfl
    by_cases hq : q = p
    · subst hq
      exact Or.inl ⟨rfl, by rwa [State.procs_after_self] at hread⟩
    · exact Or.inr (by rwa [State.procs_after_of_ne hq] at hread)
  rcases step_cases hstep with ⟨p, request, -, -, hs'⟩ | ⟨p, input, effect, proc, -, hmade, hs'⟩ |
    ⟨p, -, hs'⟩
  · rcases hcases hs' with ⟨-, hnow⟩ | hbefore
    · rw [hproc] at hnow
      cases hnow
    · exact Or.inl hbefore
  · rcases hcases hs' with ⟨rfl, hnow⟩ | hbefore
    · exact hmakes q input effect proc hmade hnow
    · exact Or.inl hbefore
  · rcases hcases hs' with ⟨-, hnow⟩ | hbefore
    · rw [hfailure] at hnow
      cases hnow
    · exact Or.inl hbefore

end RoadVisionAI.Inspections
