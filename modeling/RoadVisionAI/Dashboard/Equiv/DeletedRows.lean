import RoadVisionAI.Dashboard.SnapshotJob
import RoadVisionAI.Inspections.Equiv.NoLostUpdate
import RoadVisionAI.Workers.Equiv.AnalysisWorker

/-!
# Deleted inspections in the dashboard

`computeSnapshot` is what a call stores when nobody disturbs it (`run_call`).  Of its five queries
one asks for `deleted_at`.  Every query reads a column that is that of the live inspections followed
by that of the deleted ones (`flatMap_perm_live`), so two databases with the same live inspections
give the same indicators exactly when their deleted rows count for the same:
`sameIndicators_iff_cancels`.
-/

namespace RoadVisionAI.SnapshotJob

open Python Db Transition AnalysisWorker Inspections Relational

variable {damageTypes : DamageTypeTable ℚ}

/-! ### A call that nobody disturbs -/

/-- A statement up to the return. -/
theorem step_exec {s : State} {q : ℕ} {job job' : Job} (hjob : s.jobs q = job)
    (hexec : job.exec damageTypes s.surveys = some job') :
    step damageTypes s (.exec q) = some (s.after q job') := by
  cases job with
  | returned => cases hexec
  | _ => simp only [step, hjob, hexec, Option.map_some]

/-- The statements of one call, in a row, commit `computeSnapshot`. -/
theorem run_call {s : State} {q : ℕ} (hidle : s.jobs q = .idle) :
    ∃ t, (dashboard damageTypes).run s (.trigger q :: List.replicate 7 (.exec q)) = some t ∧
      t.inspections = s.inspections ∧
      t.stored = s.stored ++ [computeSnapshot damageTypes s.surveys] := by
  have hself : ∀ (u : State) (job : Job), (u.after q job).jobs q = job := fun u job =>
    Function.update_self ..
  have htrigger : (dashboard damageTypes).step s (.trigger q) = some (s.after q .started) := by
    show step damageTypes s (.trigger q) = _
    simp only [step, hidle]
  -- the six statements up to the return, then the commit
  have hexec : ∀ (u : State) (job job' : Job), job.exec damageTypes u.surveys = some job' →
      (dashboard damageTypes).step (u.after q job) (.exec q)
        = some ((u.after q job).after q job') := fun u job job' h => step_exec (hself u job) h
  have hcommit : ∀ (u : State) (snapshot : DashboardSnapshot) (stats : List DamageTypeStat),
      (dashboard damageTypes).step (u.after q (.returned snapshot stats)) (.exec q)
        = some { (u.after q (.returned snapshot stats)).after q .idle with
            stored := u.stored ++ [(snapshot, stats)] } := by
    intro u snapshot stats
    show step damageTypes _ (.exec q) = _
    simp only [step, hself]
    rfl
  simp only [List.replicate, Machine.run_cons, htrigger, Option.bind_some]
  rw [hexec _ _ _ rfl, Option.bind_some, hexec _ _ _ rfl, Option.bind_some, hexec _ _ _ rfl,
    Option.bind_some, hexec _ _ _ rfl, Option.bind_some, hexec _ _ _ rfl, Option.bind_some,
    hexec _ _ _ rfl, Option.bind_some, hcommit, Option.bind_some]
  exact ⟨_, rfl, rfl, rfl⟩

/-! ### Databases -/

/-- The foreign key of `damage_detections` to `damage_types`. -/
def Typed (damageTypes : DamageTypeTable ℚ) (surveys : List Survey) : Prop :=
  ∀ detection ∈ damageDetections surveys,
    detection.damageTypeId ∈ damageTypes.rows.map DamageType.id

instance (surveys : List Survey) : Decidable (Typed damageTypes surveys) :=
  inferInstanceAs (Decidable (∀ _ ∈ _, _))

/-- The inspections with their rows, under the constraints the queries depend on. -/
structure Database (damageTypes : DamageTypeTable ℚ) where
  surveys : List Survey
  typed : Typed damageTypes surveys
  checked : ∀ survey ∈ surveys, ∀ row ∈ survey.tables.pciScores, row.Checks

/-- The inspections that are not deleted. -/
def live (surveys : List Survey) : List Survey :=
  surveys.filter fun survey => survey.inspection.deletedAt = none

/-- The deleted ones. -/
def dead (surveys : List Survey) : List Survey :=
  surveys.filter fun survey => survey.inspection.deletedAt ≠ none

/-- The databases differ in deleted inspections and their rows only. -/
def SameLive (db db' : Database damageTypes) : Prop := (live db.surveys).Perm (live db'.surveys)

/-- Equal indicators; the groups come in no particular order. -/
def SameIndicators (x y : DashboardSnapshot × List DamageTypeStat) : Prop :=
  x.1 = y.1 ∧ x.2.Perm y.2

instance (db db' : Database damageTypes) : Decidable (SameLive db db') :=
  inferInstanceAs (Decidable (List.Perm _ _))

instance (x y : DashboardSnapshot × List DamageTypeStat) : Decidable (SameIndicators x y) :=
  inferInstanceAs (Decidable (_ ∧ _))

/-! ### When the deleted rows count for the same -/

/-- The mean is within half a cent of `c` cents. -/
def MeanCents (l : List ℚ) (c : ℤ) : Prop :=
  (c : ℚ) - 1 / 2 ≤ l.sum / l.length * 100 ∧ l.sum / l.length * 100 < c + 1 / 2

/-- Neither has a mean, or the two are nearest to the same cent. -/
def SameCents (l l' : List ℚ) : Prop :=
  (l = [] ↔ l' = []) ∧ (l ≠ [] → ∃ c, MeanCents l c ∧ MeanCents l' c)

/-- Beside the live rows, the deleted ones count for the same: as many detections of each type, a
mean that is nearest to the same cent, as many sections that nothing else makes critical. -/
structure Cancels (damageTypes : DamageTypeTable ℚ) (alive deleted deleted' : List Survey) :
    Prop where
  detections : ∀ code, (detectedCodes damageTypes deleted).count code
    = (detectedCodes damageTypes deleted').count code
  scores : SameCents (scores alive ++ scores deleted) (scores alive ++ scores deleted')
  sections : countDistinct ((criticalSectionIds deleted).filter (· ∉ criticalSectionIds alive))
    = countDistinct ((criticalSectionIds deleted').filter (· ∉ criticalSectionIds alive))

/-! ### The columns of the queries -/

/-- A column that is read off the inspections. -/
theorem flatMap_perm_live {β : Type*} {surveys alive : List Survey}
    (halive : (live surveys).Perm alive) (f : Survey → List β) :
    (surveys.flatMap f).Perm (alive.flatMap f ++ (dead surveys).flatMap f) := by
  have hsplit : (live surveys ++ dead surveys).Perm surveys := by
    have hdead : dead surveys
        = surveys.filter fun survey => !decide (survey.inspection.deletedAt = none) := by
      simp only [dead, ne_eq, decide_not]
    rw [hdead]
    exact List.filter_append_perm _ _
  have hmap := hsplit.symm.flatMap_right f
  rw [List.flatMap_append] at hmap
  exact hmap.trans ((halive.flatMap_right f).append_right _)

theorem detectedCodes_eq (surveys : List Survey) :
    detectedCodes damageTypes surveys = surveys.flatMap fun survey =>
      survey.tables.damageDetections.flatMap fun detection =>
        (damageTypes.rows.filter fun dt => dt.id = detection.damageTypeId).map DamageType.code := by
  rw [detectedCodes, damageDetections, List.flatMap_assoc]

/-- By the foreign key a detection has one code. -/
theorem length_detectedCodes {surveys : List Survey} (h : Typed damageTypes surveys) :
    (detectedCodes damageTypes surveys).length = totalDetections surveys := by
  have hone : ∀ detection ∈ damageDetections surveys,
      ((damageTypes.rows.filter fun dt => dt.id = detection.damageTypeId).map
        DamageType.code).length = 1 := by
    intro detection hmem
    -- the id is there, and only once
    have hcount := List.count_eq_one_of_mem damageTypes.nodup_ids (h detection hmem)
    rw [List.count, List.countP_map, List.countP_eq_length_filter] at hcount
    rw [List.length_map]
    exact hcount
  rw [detectedCodes, List.length_flatMap, List.map_congr_left hone, List.map_const',
    List.sum_replicate_nat, Nat.mul_one, totalDetections]

/-- The rows of the distribution determine its groups. -/
theorem damageTypeStats_perm_iff {rows rows' : List (String × ℕ)} :
    (damageTypeStats rows).Perm (damageTypeStats rows') ↔ rows.Perm rows' := by
  constructor
  · intro h
    have hback : ∀ rows : List (String × ℕ),
        (damageTypeStats rows).map (fun stat => (stat.damageType, stat.count)) = rows := by
      intro rows
      rw [damageTypeStats, List.map_map]
      exact List.map_id rows
    rw [← hback rows, ← hback rows']
    exact h.map _
  · intro h
    simp only [damageTypeStats, (h.map Prod.snd).sum_eq]
    exact h.map _

/-! ### Means -/

theorem avgPciScore_eq_iff {l l' : List ℚ} (h : ∀ x ∈ l, 0 ≤ x) (h' : ∀ x ∈ l', 0 ≤ x) :
    (avg l).map (quantizeHalfUp · 2) = (avg l').map (quantizeHalfUp · 2) ↔ SameCents l l' := by
  -- the mean is stored as the cents nearest to it
  have hmean : ∀ {m : List ℚ}, (∀ x ∈ m, 0 ≤ x) → ∀ c : ℤ,
      quantizeHalfUp (m.sum / m.length) 2 = c / 10 ^ 2 ↔ MeanCents m c := by
    intro m hm c
    have hnonneg : 0 ≤ m.sum / m.length := div_nonneg (List.sum_nonneg hm) (Nat.cast_nonneg _)
    rw [quantizeHalfUp_eq_iff hnonneg, MeanCents]
    norm_num
  cases l with
  | nil => cases l' <;> simp [avg, SameCents]
  | cons x l =>
    cases l' with
    | nil => simp [avg, SameCents]
    | cons x' l' =>
      have hsome : ∀ (y : ℚ) (m : List ℚ), (avg (y :: m)).map (quantizeHalfUp · 2)
          = some (quantizeHalfUp ((y :: m).sum / (y :: m).length) 2) := fun y m => rfl
      rw [hsome, hsome, Option.some.injEq]
      simp only [SameCents, List.cons_ne_nil, not_false_eq_true, forall_const, iff_self, true_and,
        ne_eq]
      constructor
      · intro heq
        obtain ⟨c, hc⟩ : ∃ c : ℤ,
            quantizeHalfUp ((x :: l).sum / (x :: l).length) 2 = c / 10 ^ 2 := ⟨_, rfl⟩
        exact ⟨c, (hmean h c).mp hc, (hmean h' c).mp (heq ▸ hc)⟩
      · rintro ⟨c, hc, hc'⟩
        rw [(hmean h c).mpr hc, (hmean h' c).mpr hc']

/-! ### The indicators -/

section Indicators

variable {db db' : Database damageTypes} (h : SameLive db db')
include h

/-- A column of the second database, with the live inspections of the first. -/
theorem SameLive.flatMap_perm {β : Type*} (f : Survey → List β) :
    (db'.surveys.flatMap f).Perm ((live db.surveys).flatMap f ++ (dead db'.surveys).flatMap f) :=
  flatMap_perm_live h.symm f

theorem SameLive.totalInspections_eq :
    totalInspections db.surveys = totalInspections db'.surveys :=
  h.length_eq

/-- The groups are equal when the deleted rows have as many detections of each type. -/
theorem SameLive.detectedCodes_perm_iff :
    (detectedCodes damageTypes db.surveys).Perm (detectedCodes damageTypes db'.surveys) ↔
      ∀ code, (detectedCodes damageTypes (dead db.surveys)).count code
        = (detectedCodes damageTypes (dead db'.surveys)).count code := by
  rw [List.perm_iff_count]
  refine forall_congr' fun code => ?_
  simp only [detectedCodes_eq]
  rw [(flatMap_perm_live (.refl _) _).count_eq, (h.flatMap_perm _).count_eq, List.count_append,
    List.count_append]
  omega

theorem SameLive.avgPciScore_eq_iff :
    (avgPci db.surveys).map (quantizeHalfUp · 2) = (avgPci db'.surveys).map (quantizeHalfUp · 2) ↔
      SameCents (scores (live db.surveys) ++ scores (dead db.surveys))
        (scores (live db.surveys) ++ scores (dead db'.surveys)) := by
  have hnonneg : ∀ (db : Database damageTypes), ∀ x ∈ scores db.surveys, 0 ≤ x := by
    intro db x hx
    obtain ⟨survey, hsurvey, hx⟩ := List.mem_flatMap.mp hx
    obtain ⟨row, hrow, rfl⟩ := List.mem_map.mp hx
    exact (db.checked survey hsurvey row hrow).1
  have hperm := flatMap_perm_live (.refl (live db.surveys)) fun survey =>
    survey.tables.pciScores.map PciScore.score
  have hperm' := h.flatMap_perm fun survey => survey.tables.pciScores.map PciScore.score
  rw [avgPci, avgPci, scores, scores, avg_perm hperm, avg_perm hperm']
  exact SnapshotJob.avgPciScore_eq_iff (fun x hx => hnonneg db x (hperm.mem_iff.mpr hx))
    fun x hx => hnonneg db' x (hperm'.mem_iff.mpr hx)

theorem SameLive.criticalSections_eq_iff :
    criticalSections db.surveys = criticalSections db'.surveys ↔
      countDistinct ((criticalSectionIds (dead db.surveys)).filter
          (· ∉ criticalSectionIds (live db.surveys)))
        = countDistinct ((criticalSectionIds (dead db'.surveys)).filter
          (· ∉ criticalSectionIds (live db.surveys))) := by
  have hperm : (criticalSectionIds db.surveys).Perm
      (criticalSectionIds (live db.surveys) ++ criticalSectionIds (dead db.surveys)) :=
    flatMap_perm_live (.refl _) _
  have hperm' : (criticalSectionIds db'.surveys).Perm
      (criticalSectionIds (live db.surveys) ++ criticalSectionIds (dead db'.surveys)) :=
    h.flatMap_perm _
  rw [criticalSections, criticalSections, countDistinct_perm hperm, countDistinct_perm hperm',
    countDistinct_append, countDistinct_append]
  omega

/-- **Deleted inspections.**  Two databases that differ in deleted inspections only give equal
indicators exactly when these count for the same. -/
theorem sameIndicators_iff_cancels :
    SameIndicators (computeSnapshot damageTypes db.surveys)
        (computeSnapshot damageTypes db'.surveys) ↔
      Cancels damageTypes (live db.surveys) (dead db.surveys) (dead db'.surveys) := by
  have hgroups : (computeSnapshot damageTypes db.surveys).2.Perm
      (computeSnapshot damageTypes db'.surveys).2 ↔
      ∀ code, (detectedCodes damageTypes (dead db.surveys)).count code
        = (detectedCodes damageTypes (dead db'.surveys)).count code :=
    damageTypeStats_perm_iff.trans (groupCount_perm_iff.trans h.detectedCodes_perm_iff)
  have hrow : (computeSnapshot damageTypes db.surveys).1
        = (computeSnapshot damageTypes db'.surveys).1 ↔
      totalDetections db.surveys = totalDetections db'.surveys ∧
      (avgPci db.surveys).map (quantizeHalfUp · 2)
        = (avgPci db'.surveys).map (quantizeHalfUp · 2) ∧
      criticalSections db.surveys = criticalSections db'.surveys := by
    simp only [computeSnapshot, dashboardSnapshot, DashboardSnapshot.mk.injEq,
      h.totalInspections_eq, true_and]
  rw [SameIndicators, hgroups, hrow, h.avgPciScore_eq_iff, h.criticalSections_eq_iff]
  constructor
  · rintro ⟨⟨-, hscores, hsections⟩, hdetections⟩
    exact ⟨hdetections, hscores, hsections⟩
  · rintro ⟨hdetections, hscores, hsections⟩
    refine ⟨⟨?_, hscores, hsections⟩, hdetections⟩
    -- the detections are as many as their codes
    rw [← length_detectedCodes db.typed, ← length_detectedCodes db'.typed]
    exact (h.detectedCodes_perm_iff.mpr hdetections).length_eq

end Indicators

/-- An analysed inspection without damage. -/
def soundRoad : Survey where
  inspection := { newInspection with status := .TERMINEE }
  tables := {
    roadImages := [{ id := ⟨"image-1"⟩, sequenceNum := 1 }]
    damageDetections := []
    pciScores := [{ score := 90, severityLevel := .FAIBLE, priorityLevel := .P4_EXCELLENT }]
    analysisResults := []
    recommendations := [] }

/-- A deleted inspection of another section. -/
def deletedInspection : Inspection :=
  { newInspection with
    id := ⟨"inspection-2"⟩
    roadSectionId := ⟨"section-2"⟩
    deletedAt := some 1 }

/-- It has been deleted before its analysis. -/
def abandoned : Survey where
  inspection := deletedInspection
  tables := {
    roadImages := [{ id := ⟨"image-2"⟩, sequenceNum := 1 }]
    damageDetections := []
    pciScores := []
    analysisResults := []
    recommendations := [] }

/-- It has been deleted after an analysis that has found a pothole. -/
def ruin : Survey where
  inspection := { deletedInspection with status := .TERMINEE }
  tables := {
    roadImages := [{ id := ⟨"image-2"⟩, sequenceNum := 1 }]
    damageDetections := [{
      roadImageId := ⟨"image-2"⟩, damageTypeId := ⟨"dt-pothole"⟩, modelId := ⟨"model-1"⟩
      bboxX := 0, bboxY := 0, bboxWidth := 1, bboxHeight := 1
      confidenceScore := 1, severityScore := 1 }]
    pciScores := [{ score := 10, severityLevel := .CRITIQUE, priorityLevel := .P0_CRITIQUE }]
    analysisResults := []
    recommendations := [] }

/-- `soundRoad` alone. -/
def oneRoad : Database potholeTable where
  surveys := [soundRoad]
  typed := by decide
  checked := by decide +kernel

/-- With the abandoned inspection. -/
def withAbandoned : Database potholeTable where
  surveys := [soundRoad, abandoned]
  typed := by decide
  checked := by decide +kernel

/-- With the deleted ruin. -/
def withRuin : Database potholeTable where
  surveys := [soundRoad, ruin]
  typed := by decide
  checked := by decide +kernel

/-- An inspection deleted before its analysis is invisible. -/
theorem sameIndicators_iff_cancels_abandoned :
    SameIndicators (computeSnapshot potholeTable oneRoad.surveys)
      (computeSnapshot potholeTable withAbandoned.surveys) := by
  have hlive : SameLive oneRoad withAbandoned := by decide +kernel
  have hscores : SameCents [90] [90] := (avgPciScore_eq_iff (by decide) (by decide)).mp rfl
  exact (sameIndicators_iff_cancels hlive).mpr ⟨fun _ => rfl, hscores, rfl⟩

/-- The ruin is in every indicator but the number of inspections. -/
theorem not_sameIndicators_withRuin :
    SameLive oneRoad withRuin ∧
      (computeSnapshot potholeTable oneRoad.surveys).1 = {
        totalInspections := 1
        totalDetections := 0
        avgPciScore := some 90
        criticalSections := 0 } ∧
      (computeSnapshot potholeTable withRuin.surveys).1 = {
        totalInspections := 1
        totalDetections := 1
        avgPciScore := some 50
        criticalSections := 1 } ∧
      ¬ SameIndicators (computeSnapshot potholeTable oneRoad.surveys)
        (computeSnapshot potholeTable withRuin.surveys) := by
  decide +kernel

end RoadVisionAI.SnapshotJob
