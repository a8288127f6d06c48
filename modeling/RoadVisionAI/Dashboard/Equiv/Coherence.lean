import RoadVisionAI.Dashboard.Equiv.DeletedRows
import RoadVisionAI.Inspections.Equiv.Audit

/-!
# The total of a snapshot and its distribution

A call counts the detections in its second query and groups them in its fifth.  By the foreign keys
the groups sum up to the number of detections there are then (`sum_count_distribution`), and runs
commit in between as they like: `coherent_iff_steady`.
-/

namespace RoadVisionAI.SnapshotJob

open Python Db Transition AnalysisWorker Inspections Relational

variable {damageTypes : DamageTypeTable ℚ}

/-! ### Coherent snapshots -/

/-- The total is the sum of the groups. -/
def Agrees (snapshot : DashboardSnapshot) (stats : List DamageTypeStat) : Prop :=
  snapshot.totalDetections = (stats.map DamageTypeStat.count).sum

/-- The snapshots that calls have returned or committed agree with their distributions. -/
structure Coherent (s : State) : Prop where
  returned : ∀ q snapshot stats, s.jobs q = .returned snapshot stats → Agrees snapshot stats
  stored : ∀ entry ∈ s.stored, Agrees entry.1 entry.2

/-- The last query finds as many detections as the second one has counted. -/
def Job.Steady (surveys : List Survey) : Job → Prop
  | .flushed snapshot => totalDetections surveys = snapshot.totalDetections
  | _ => True

/-- The statement an action makes is steady. -/
def Steady (s : State) : Action → Prop
  | .exec q => (s.jobs q).Steady s.surveys
  | _ => True

instance (snapshot : DashboardSnapshot) (stats : List DamageTypeStat) :
    Decidable (Agrees snapshot stats) :=
  inferInstanceAs (Decidable (_ = _))

instance (surveys : List Survey) (job : Job) : Decidable (job.Steady surveys) := by
  unfold Job.Steady
  split <;> infer_instance

instance (s : State) : (a : Action) → Decidable (Steady s a)
  | .exec q => inferInstanceAs (Decidable ((s.jobs q).Steady s.surveys))
  | .create _ _ _ _ | .inspection _ _ | .trigger _ | .fail _ => isTrue trivial

/-! ### The inspections beside the calls -/

/-- The rows of a run have types of the table. -/
theorem typed_of_ran {images : List RoadImage} {outputs : Outputs ℚ}
    (h : Ran damageTypes images outputs) :
    ∀ detection ∈ outputs.damageDetections,
      detection.damageTypeId ∈ damageTypes.rows.map DamageType.id := by
  obtain ⟨model, analysisId, processingTimeMs, computed, hanalyse, hstore⟩ := h
  rw [store_eq_ok hstore, quantize_analyse hanalyse]
  obtain ⟨-, pci, -, rfl⟩ := analyse_eq_ok_iff.mp hanalyse
  intro detection hdetection
  obtain ⟨found, hfound, rfl⟩ := List.mem_map.mp hdetection
  obtain ⟨hdt, -⟩ := get?_typesByCode (mem_allDetections hfound).2.2
  exact List.mem_map_of_mem hdt

theorem typed_of_inv {t : Inspections.State} (h : Inv damageTypes t) :
    ∀ detection ∈ t.db.tables.damageDetections,
      detection.damageTypeId ∈ damageTypes.rows.map DamageType.id := by
  by_cases hdone : t.db.row.committed.status = .TERMINEE
  · obtain ⟨run, -, hran, hof⟩ := h.outputs.last hdone
    rw [hof.damageDetections]
    exact typed_of_ran hran
  · rw [(h.outputs.none hdone).1.damageDetections]
    exact fun _ hnone => nomatch hnone

/-- Every inspection satisfies the invariant of its own system. -/
def AllInv (damageTypes : DamageTypeTable ℚ) (s : State) : Prop :=
  ∀ t ∈ s.inspections, Inv damageTypes t

theorem typed_surveys {s : State} (h : AllInv damageTypes s) : Typed damageTypes s.surveys := by
  intro detection hdetection
  obtain ⟨survey, hsurvey, hmem⟩ := List.mem_flatMap.mp hdetection
  obtain ⟨t, ht, rfl⟩ := List.mem_map.mp hsurvey
  exact typed_of_inv (h t ht) detection hmem

/-! ### What an action does -/

/-- An action creates an inspection, makes a step of one, moves a call, makes its last query, or
commits its snapshot. -/
inductive Makes (damageTypes : DamageTypeTable ℚ) (s : State) : Action → State → Prop
  | create {data actor id now} : Makes damageTypes s (.create data actor id now)
      { s with inspections := s.inspections ++ [.created (create data actor id now)] }
  | inspection {i action t t'} (ht : t ∈ s.inspections)
      (hstep : Inspections.step damageTypes t action = some t') :
      Makes damageTypes s (.inspection i action) { s with inspections := s.inspections.set i t' }
  | move {a q job} (hsteady : Steady s a)
      (hjob : ∀ snapshot stats, job ≠ .returned snapshot stats) :
      Makes damageTypes s a (s.after q job)
  | distribute {q snapshot} (hjob : s.jobs q = .flushed snapshot) : Makes damageTypes s (.exec q)
      (s.after q (.returned snapshot (damageTypeStats (distribution damageTypes s.surveys))))
  | commit {q snapshot stats} (hjob : s.jobs q = .returned snapshot stats) :
      Makes damageTypes s (.exec q)
        { s.after q .idle with stored := s.stored ++ [(snapshot, stats)] }

theorem step_cases {s s' : State} {a : Action} (h : step damageTypes s a = some s') :
    Makes damageTypes s a s' := by
  cases a with
  | create data actor id now =>
    simp only [step] at h
    split_ifs at h
    obtain rfl := Option.some.inj h
    exact .create
  | inspection i action =>
    simp only [step, bind, Option.bind_eq_some_iff] at h
    obtain ⟨t, ht, t', hstep, h⟩ := h
    obtain rfl := Option.some.inj h
    exact .inspection (List.mem_of_getElem? ht) hstep
  | trigger q =>
    simp only [step] at h
    split at h
    · obtain rfl := Option.some.inj h
      exact .move trivial (by simp)
    · cases h
  | exec q =>
    have hsteady : ∀ job, s.jobs q = job → job.Steady s.surveys → Steady s (.exec q) := by
      rintro job rfl h
      exact h
    simp only [step] at h
    cases hjob : s.jobs q with
    | idle => rw [hjob] at h; cases h
    | flushed snapshot =>
      rw [hjob] at h
      obtain rfl := Option.some.inj h
      exact .distribute hjob
    | returned snapshot stats =>
      rw [hjob] at h
      obtain rfl := Option.some.inj h
      exact .commit hjob
    | _ =>
      -- the statements before the last query are steady, whatever they read
      rw [hjob] at h
      obtain rfl := Option.some.inj h
      exact .move (hsteady _ hjob trivial) (by simp)
  | fail q =>
    simp only [step] at h
    split at h
    · cases h
    · obtain rfl := Option.some.inj h
      exact .move trivial (by simp)

theorem allInv_step {s s' : State} {a : Action} (h : AllInv damageTypes s)
    (hstep : step damageTypes s a = some s') : AllInv damageTypes s' := by
  cases step_cases hstep with
  | create =>
    refine List.forall_mem_append.mpr ⟨h, List.forall_mem_singleton.mpr ?_⟩
    exact invariant_inv.init _ ⟨_, _, _, _, rfl⟩
  | inspection hu hu' =>
    intro t ht
    rcases List.mem_or_eq_of_mem_set ht with ht | rfl
    · exact h t ht
    · exact inv_step (h _ hu) hu'
  | _ => exact h

theorem invariant_allInv : (dashboard damageTypes).Invariant (AllInv damageTypes) where
  init := by
    rintro s rfl t ht
    cases ht
  step _ _ _ h hstep := allInv_step h hstep

/-! ### The groups -/

/-- The groups sum up to the number of detections. -/
theorem sum_count_distribution {surveys : List Survey} (h : Typed damageTypes surveys) :
    ((damageTypeStats (distribution damageTypes surveys)).map DamageTypeStat.count).sum
      = totalDetections surveys := by
  have hcounts : (damageTypeStats (distribution damageTypes surveys)).map DamageTypeStat.count
      = (distribution damageTypes surveys).map Prod.snd := by
    rw [damageTypeStats, List.map_map]
    rfl
  rw [hcounts, distribution, sum_groupCount, length_detectedCodes h]

/-- A call that moves on is coherent when what it returns agrees. -/
theorem Coherent.after {s : State} (h : Coherent s) {q : ℕ} {job : Job}
    (hjob : ∀ snapshot stats, job = .returned snapshot stats → Agrees snapshot stats) :
    Coherent (s.after q job) where
  returned q' snapshot stats hq' := by
    by_cases hq : q' = q
    · subst hq
      have hself : (s.after q' job).jobs q' = job := Function.update_self ..
      exact hjob snapshot stats (hself.symm.trans hq')
    · have hother : (s.after q job).jobs q' = s.jobs q' := Function.update_of_ne hq ..
      exact h.returned q' snapshot stats (hother.symm.trans hq')
  stored := h.stored

/-- An action keeps the snapshots coherent exactly when it is steady. -/
theorem coherent_step {s s' : State} {a : Action} (hinv : AllInv damageTypes s) (h : Coherent s)
    (hstep : step damageTypes s a = some s') : Coherent s' ↔ Steady s a := by
  cases step_cases hstep with
  | create => exact iff_of_true ⟨h.returned, h.stored⟩ trivial
  | inspection => exact iff_of_true ⟨h.returned, h.stored⟩ trivial
  | move hsteady hjob =>
    exact iff_of_true (h.after fun snapshot stats heq => absurd heq (hjob snapshot stats)) hsteady
  | @distribute q snapshot hjob =>
    have hsteady : Steady s (.exec q) ↔
        totalDetections s.surveys = snapshot.totalDetections := by
      simp only [Steady, hjob, Job.Steady]
    -- the groups sum up to what is there now, the snapshot holds what was counted
    have hagrees : Agrees snapshot (damageTypeStats (distribution damageTypes s.surveys)) ↔
        snapshot.totalDetections = totalDetections s.surveys := by
      rw [Agrees, sum_count_distribution (typed_surveys hinv)]
    rw [hsteady, eq_comm, ← hagrees]
    constructor
    · intro h'
      exact h'.returned q snapshot _ (Function.update_self ..)
    · intro hagree
      refine h.after fun snapshot' stats heq => ?_
      obtain ⟨rfl, rfl⟩ := Job.returned.inj heq
      exact hagree
  | @commit q snapshot stats hjob =>
    have hsteady : Steady s (.exec q) := by
      simp only [Steady, hjob, Job.Steady]
    have hafter : Coherent (s.after q .idle) := h.after nofun
    refine iff_of_true ⟨hafter.returned, ?_⟩ hsteady
    refine List.forall_mem_append.mpr ⟨h.stored, List.forall_mem_singleton.mpr ?_⟩
    exact h.returned q snapshot stats hjob

/-- **Snapshot coherence.**  Along a run every snapshot that a call returns or commits agrees with
its distribution exactly when all last queries find as many detections as have been counted. -/
theorem coherent_iff_steady {actions : List Action} {t : State}
    (hrun : (dashboard damageTypes).run .empty actions = some t) :
    (dashboard damageTypes).StatesMeet Coherent .empty actions ↔
      (dashboard damageTypes).ActionsMeet Steady .empty actions := by
  have hempty : Coherent .empty :=
    ⟨fun _ _ _ h => (nomatch h), fun _ h => (nomatch h)⟩
  exact invariant_allInv.statesMeet_iff_actionsMeet
    (fun s a s' hinv h hstep => coherent_step hinv h hstep) (invariant_allInv.init _ rfl) hempty
    hrun

/-- A new inspection, as an action. -/
def newSurvey : Action :=
  .create
    { roadSectionId := ⟨"section-1"⟩, inspectionDate := none, weatherCond := none, notes := none }
    ⟨"agent-1"⟩ ⟨"inspection-1"⟩ 0

/-- `potholeSurvey`, then a snapshot. -/
def quietSnapshot : List Action :=
  newSurvey :: potholeSurvey.map (.inspection 0) ++ .trigger 0 :: List.replicate 7 (.exec 0)

/-- It has the two potholes in its total and in its distribution. -/
theorem coherent_iff_steady_quietSnapshot :
    (dashboard potholeTable).StatesMeet Coherent .empty quietSnapshot := by
  have hsome : ((dashboard potholeTable).run .empty quietSnapshot).isSome := by
    decide +kernel
  obtain ⟨t, ht⟩ := Option.isSome_iff_exists.mp hsome
  exact (coherent_iff_steady ht).mpr (by decide +kernel)

/-- A snapshot whose last query finds the run of `potholeSurvey` committed, and the others not. -/
def runDuringSnapshot : List Action :=
  newSurvey :: potholeSurvey.dropLast.map (.inspection 0) ++
    .trigger 0 :: List.replicate 5 (.exec 0) ++
    .inspection 0 (.exec 1 (potholeInput "analysis-1")) :: List.replicate 2 (.exec 0)

/-- Its total is 0, and it has a group of two. -/
theorem not_coherent_runDuringSnapshot :
    ∃ t, (dashboard potholeTable).run .empty runDuringSnapshot = some t ∧
      t.stored.map (fun entry => (entry.1.totalDetections, entry.2.map DamageTypeStat.count))
        = [(0, [2])] ∧
      ¬ Coherent t := by
  have hrun : ((dashboard potholeTable).run .empty runDuringSnapshot).map
      (fun t => t.stored.map fun entry =>
        (entry.1.totalDetections, entry.2.map DamageTypeStat.count)) = some [(0, [2])] := by
    decide +kernel
  obtain ⟨t, ht, hstored⟩ := Option.map_eq_some_iff.mp hrun
  refine ⟨t, ht, hstored, fun hcoherent => ?_⟩
  obtain ⟨entry, hentry⟩ := List.map_eq_singleton_iff.mp hstored
  obtain ⟨heq, hvalue⟩ := hentry
  have hagrees := hcoherent.stored entry (by rw [heq]; exact List.mem_singleton_self entry)
  obtain ⟨htotal, hcounts⟩ := Prod.mk.inj hvalue
  rw [Agrees, htotal, hcounts] at hagrees
  revert hagrees
  decide

end RoadVisionAI.SnapshotJob
