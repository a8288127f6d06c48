import RoadVisionAI.Inspections.Equiv.Audit
import RoadVisionAI.Inspections.Equiv.Numbering
import RoadVisionAI.Inspections.Equiv.Phases
import RoadVisionAI.Workers.Equiv.Storage

/-!
# An analysis that is left alone

A request for an analysis, and the run it starts, statement by statement, when no other process
makes a move in between: from any reachable state in which the request can be accepted
(`State.Ready`), the run ends after twelve statements with the status `TERMINEE` and the rows that
`analyse` computes, or after thirteen with the status `ERREUR` and no rows, and which of the two is
decided by what the model sees (`analysis_settles`).

`updateInspection_status` is an `UPDATE` of the status that nothing is in the way of; the run is put
together from its parts, `run_accept`, `run_cleared`, `run_finish` and `run_fail`.
-/

namespace RoadVisionAI.Inspections

open Python Db Transition AnalysisWorker

variable {damageTypes : DamageTypeTable ℚ} {p : ℕ}

/-! ### A process on its own -/

/-- `p` alone makes its next `n` statements. -/
def alone (p : ℕ) (inputs : ℕ → Input) (n : ℕ) : List Action :=
  (List.range n).map fun i => .exec p (inputs i)

theorem alone_succ (inputs : ℕ → Input) (n : ℕ) :
    alone p inputs (n + 1) = .exec p (inputs 0) :: alone p (fun i => inputs (i + 1)) n := by
  rw [alone, List.range_succ_eq_map, List.map_cons, List.map_map]
  rfl

@[simp]
theorem State.after_after_none (s : State) (proc : Proc) (effect : Effect) (proc' : Proc) :
    (s.after p .none proc).after p effect proc' = s.after p effect proc' := by
  simp only [State.after, Effect.apply, Function.update_idem]

/-- One statement, and then the rest of the run. -/
theorem run_exec {s t : State} {proc proc' : Proc} {effect : Effect} {inputs : ℕ → Input} {n : ℕ}
    (hproc : s.procs p = proc)
    (hexec : exec damageTypes s.db p (inputs 0) proc = some (effect, proc'))
    (h : (system damageTypes).run (s.after p effect proc') (alone p (fun i => inputs (i + 1)) n)
      = some t) :
    (system damageTypes).run s (alone p inputs (n + 1)) = some t := by
  rw [alone_succ]
  exact Machine.run_cons_eq_some_iff.mpr ⟨_, step_exec hproc hexec, h⟩

/-- Nothing is rolled back when nobody holds the row. -/
theorem State.after_rollback_of_unlocked {s : State} {row : Inspection}
    (h : s.db.row = .unlocked row) (proc : Proc) :
    s.after p .rollback proc = s.after p .none proc := by
  have hrow : s.db.row.rollback p = s.db.row := by
    rw [h]
    rfl
  simp only [State.after, Effect.apply, hrow]

/-- A row that nobody holds. -/
theorem row_eq_unlocked {row : LockedRow Inspection.version} (h : row.lock = none) :
    row = .unlocked row.committed := by
  cases row
  simp only at h
  subst h
  rfl

/-! ### Updates of the status -/

/-- The row after an `UPDATE` of its status. -/
def Inspection.moved (row : Inspection) (status : InspectionStatus) (now : ℕ) : Inspection :=
  { row with status, updatedAt := now, version := row.version + 1 }

theorem Inspection.Checks.moved {row : Inspection} {now : ℕ} (h : row.Checks)
    (status : InspectionStatus) (hnow : row.createdAt ≤ now) : (row.moved status now).Checks :=
  ⟨hnow, h.2⟩

theorem updateRow_status {row : Inspection} {status : InspectionStatus} (hne : row.status ≠ status)
    (now : ℕ) : updateRow { status := some status } now row = row.moved status now := by
  have hchanged : Assignments.apply { status := some status } row ≠ row := by
    intro heq
    exact hne (congrArg Inspection.status heq).symm
  rw [updateRow_of_apply_ne hchanged]
  rfl

/-- `p` has written a row that its commit makes the committed one. -/
def Wrote (p : ℕ) (locked : LockedRow Inspection.version) (row : Inspection) : Prop :=
  locked.commit p = .unlocked row

/-- An `UPDATE` of an unlocked row it matches. -/
theorem update_of_match {row : Inspection} {expected : Option ℕ} {write : Inspection → Inspection}
    (bumps : ∀ r, Bumps Inspection.version r (write r))
    (hmatch : ∀ v, expected = some v → row.version = v) :
    ∃ locked, (LockedRow.unlocked row).update p expected write bumps = .locked locked ∧
      Wrote p locked (write row) :=
  ⟨_, dif_pos hmatch, if_pos rfl⟩

/-- An `UPDATE` of the status that nothing is in the way of. -/
theorem updateInspection_status {db : Database} {input : Input} {expected : Option ℕ}
    {status : InspectionStatus} {next : Proc} {row : Inspection} (hrow : db.row = .unlocked row)
    (hmatch : ∀ v, expected = some v → row.version = v) (hne : row.status ≠ status)
    (hchecks : row.Checks) (hnow : row.createdAt ≤ input.now) :
    ∃ locked, updateInspection db p input expected { status := some status } next
        = some (.lock locked, next) ∧
      Wrote p locked (row.moved status input.now) := by
  have hmoved := updateRow_status hne input.now
  obtain ⟨locked, hlocked, hwrote⟩ :=
    update_of_match (p := p) (bumps_updateRow { status := some status } input.now) hmatch
  rw [hmoved] at hwrote
  refine ⟨locked, ?_, hwrote⟩
  have hwritten : (updateRow { status := some status } input.now row).Checks := by
    rw [hmoved]
    exact hchecks.moved status hnow
  rw [updateInspection, hrow, hlocked]
  exact if_pos hwritten

/-- The same, as the flush of a loaded row. -/
theorem flushStatus_of_unlocked {db : Database} {input : Input} {status : InspectionStatus}
    {next : Proc} {row : Inspection} (hrow : db.row = .unlocked row) (hne : row.status ≠ status)
    (hchecks : row.Checks) (hnow : row.createdAt ≤ input.now) :
    ∃ locked, flushStatus db p input row status next = some (.lock locked, next) ∧
      Wrote p locked (row.moved status input.now) := by
  rw [flushStatus, if_neg hne]
  exact updateInspection_status hrow (fun _ h => by cases h) hne hchecks hnow

/-! ### The request -/

/-- Process `p` could have an analysis accepted, and nobody holds the row. -/
structure State.Ready (s : State) (p : ℕ) : Prop where
  idle : s.procs p = .idle
  live : s.db.row.committed.deletedAt = none
  free : s.db.row.lock = none
  pictured : s.db.tables.roadImages ≠ []
  startable : Startable s.db.row.committed.status

theorem Startable.ne_running {status : InspectionStatus} (h : Startable status) :
    status ≠ .EN_COURS := by
  rintro rfl
  rcases h with h | h <;> cases h

theorem Startable.ne_done {status : InspectionStatus} (h : Startable status) :
    status ≠ .TERMINEE := by
  rintro rfl
  rcases h with h | h <;> cases h

/-- `p` has committed a row and the tables, and is somewhere else. -/
def State.settled (s : State) (p : ℕ) (row : Inspection) (tables : Tables)
    (run : Option WorkerRun) (proc : Proc) : State where
  db := { row := .unlocked row, tables, lastRun := run.or s.db.lastRun }
  procs := Function.update s.procs p proc

theorem State.after_lock_after_commit {s : State} {locked : LockedRow Inspection.version}
    {row : Inspection} (h : Wrote p locked row) (proc proc' : Proc) (tables : Tables)
    (run : Option WorkerRun) :
    (s.after p (.lock locked) proc).after p (.commit tables run) proc'
      = s.settled p row tables run proc' := by
  have hcommit : locked.commit p = .unlocked row := h
  simp only [State.after, Effect.apply, State.settled, hcommit, Function.update_idem]

/-- `request_analysis` accepts: four statements, and a run is started. -/
theorem run_accept {s : State} (h : s.Ready p) (hchecks : s.db.row.committed.Checks)
    {inputs : ℕ → Input} (hclock : ∀ i, s.db.row.committed.createdAt ≤ (inputs i).now) :
    (system damageTypes).run s (.start p .analyse :: alone p inputs 4)
      = some (s.settled p (s.db.row.committed.moved .EN_COURS (inputs 2).now) s.db.tables none
          (.worker .started)) := by
  have hstart : (system damageTypes).step s (.start p .analyse)
      = some (s.after p .none (.analyse .started)) := by
    simp only [system, step, h.idle]
    rfl
  obtain ⟨locked, hupdate, hwrote⟩ : ∃ locked,
      updateInspection s.db p (inputs 2) (some s.db.row.committed.version)
          { status := some .EN_COURS } (.analyse .updated)
        = some (.lock locked, .analyse .updated) ∧
      Wrote p locked (s.db.row.committed.moved .EN_COURS (inputs 2).now) :=
    updateInspection_status (row_eq_unlocked h.free) (fun _ hv => Option.some.inj hv)
      h.startable.ne_running hchecks (hclock 2)
  refine Machine.run_cons_eq_some_iff.mpr ⟨_, hstart, ?_⟩
  refine run_exec (State.procs_after_self ..) (if_pos h.live) ?_
  refine run_exec (State.procs_after_self ..) ((if_neg h.pictured).trans (if_pos h.startable)) ?_
  refine run_exec (State.procs_after_self ..) hupdate ?_
  refine run_exec (State.procs_after_self ..) rfl ?_
  show some _ = some _
  simp only [State.after_after_none]
  exact congrArg some (State.after_lock_after_commit hwrote ..)

/-! ### The run -/

/-- The tables with the rows of a run. -/
def Tables.put (tables : Tables) (outputs : Outputs ℚ) : Tables :=
  { tables with
    damageDetections := outputs.damageDetections
    pciScores := [outputs.pciScore]
    analysisResults := [outputs.analysisResult] }

/-- The commit of a run that found nothing to clear. -/
theorem commitRun_of_noOutputs {tables : Tables} (h : tables.NoOutputs) (outputs : Outputs ℚ) :
    commitRun tables {} outputs = some (tables.put outputs) := by
  simp [commitRun, Tables.put, h.damageDetections, h.pciScores, h.analysisResults]

section Worker

variable {s : State} {row : Inspection} {images : List RoadImage} {inputs : ℕ → Input}

/-- A run reads its row and its images, and clears what is there: nothing. -/
theorem run_cleared (hproc : s.procs p = .worker .started) (hnone : s.db.tables.NoOutputs) :
    (system damageTypes).run s (alone p inputs 5)
      = some (s.after p .none
          (.worker (.clearedResults s.db.row.committed s.db.tables.roadImages {}))) := by
  refine run_exec hproc rfl ?_
  refine run_exec (State.procs_after_self ..) rfl ?_
  refine run_exec (State.procs_after_self ..) rfl ?_
  refine run_exec (State.procs_after_self ..) rfl ?_
  refine run_exec (State.procs_after_self ..) rfl ?_
  show some _ = some _
  simp only [State.after_after_none]
  simp [State.after, Effect.apply, hnone.damageDetections, hnone.pciScores, hnone.analysisResults]

variable (hproc : s.procs p = .worker (.clearedResults row images {}))
  (hrow : s.db.row = .unlocked row) (hrunning : row.status = .EN_COURS) (hchecks : row.Checks)
  (hclock : ∀ i, row.createdAt ≤ (inputs i).now)
include hproc hrow hrunning hchecks hclock

/-- What the model sees can be stored: three statements, and the run is committed. -/
theorem run_finish (hnone : s.db.tables.NoOutputs) {outputs : Outputs ℚ}
    (hstore : analyse (inputs 0).model damageTypes images (inputs 0).id (inputs 0).processingTimeMs
      >>= Outputs.store = .ok outputs) :
    (system damageTypes).run s (alone p inputs 3)
      = some (s.settled p (row.moved .TERMINEE (inputs 1).now) (s.db.tables.put outputs)
          (some { images, outputs }) .idle) := by
  have hne : row.status ≠ .TERMINEE := by
    rw [hrunning]
    decide
  obtain ⟨locked, hflush, hwrote⟩ : ∃ locked,
      flushStatus s.db p (inputs 1) row .TERMINEE (.worker (.updated images {} outputs))
        = some (.lock locked, .worker (.updated images {} outputs)) ∧
      Wrote p locked (row.moved .TERMINEE (inputs 1).now) :=
    flushStatus_of_unlocked hrow hne hchecks (hclock 1)
  have hcompute : exec damageTypes s.db p (inputs 0) (.worker (.clearedResults row images {}))
      = some (.none, .worker (.computed row images {} outputs)) := by
    simp only [exec, execWorker, hstore]
  have hcommit : exec damageTypes
      (s.after p (.lock locked) (.worker (.updated images {} outputs))).db p (inputs 2)
      (.worker (.updated images {} outputs))
        = some (.commit (s.db.tables.put outputs) (some { images, outputs }), .idle) := by
    show (commitRun s.db.tables {} outputs).map _ = _
    rw [commitRun_of_noOutputs hnone]
    rfl
  refine run_exec hproc hcompute ?_
  refine run_exec (State.procs_after_self ..) hflush ?_
  rw [State.after_after_none]
  refine run_exec (State.procs_after_self ..) hcommit ?_
  exact congrArg some (State.after_lock_after_commit hwrote ..)

/-- It cannot: four statements, and the failure is recorded. -/
theorem run_fail
    (hstore : ∀ outputs, analyse (inputs 0).model damageTypes images (inputs 0).id
      (inputs 0).processingTimeMs >>= Outputs.store ≠ .ok outputs) :
    (system damageTypes).run s (alone p inputs 4)
      = some (s.settled p (row.moved .ERREUR (inputs 2).now) s.db.tables none .idle) := by
  have hne : row.status ≠ .ERREUR := by
    rw [hrunning]
    decide
  obtain ⟨locked, hflush, hwrote⟩ : ∃ locked,
      flushStatus s.db p (inputs 2) row .ERREUR (.worker .failUpdated)
        = some (.lock locked, .worker .failUpdated) ∧
      Wrote p locked (row.moved .ERREUR (inputs 2).now) :=
    flushStatus_of_unlocked hrow hne hchecks (hclock 2)
  have hraise : exec damageTypes s.db p (inputs 0) (.worker (.clearedResults row images {}))
      = some (.rollback, .worker .failed) := by
    simp only [exec, execWorker]
    split
    · exact absurd ‹_› (hstore _)
    · rfl
  have hreload : exec damageTypes (s.after p .none (.worker .failed)).db p (inputs 1)
      (.worker .failed) = some (.none, .worker (.reloaded row)) := by
    simp only [exec, execWorker, State.after, Effect.apply, hrow]
    rfl
  refine run_exec hproc hraise ?_
  rw [State.after_rollback_of_unlocked hrow]
  refine run_exec (State.procs_after_self ..) hreload ?_
  rw [State.after_after_none]
  refine run_exec (State.procs_after_self ..) hflush ?_
  rw [State.after_after_none]
  refine run_exec (State.procs_after_self ..) rfl ?_
  exact congrArg some (State.after_lock_after_commit hwrote ..)

end Worker

/-! ### From the request to the end of the run -/

/-- The row after its analysis. -/
def Inspection.analysed (row : Inspection) (status : InspectionStatus) (now : ℕ) : Inspection :=
  { row with status, updatedAt := now, version := row.version + 2 }

/-- The state after an analysis: every process is where it was. -/
def State.concluded (s : State) (status : InspectionStatus) (now : ℕ) (tables : Tables)
    (run : Option WorkerRun) : State where
  db := {
    row := .unlocked (s.db.row.committed.analysed status now)
    tables
    lastRun := run.or s.db.lastRun }
  procs := s.procs

/-- The state in which the run has cleared what was there, and is about to compute. -/
def State.cleared (s : State) (p now : ℕ) : State :=
  let row := s.db.row.committed.moved .EN_COURS now
  (s.settled p row s.db.tables none (.worker .started)).after p .none
    (.worker (.clearedResults row s.db.tables.roadImages {}))

theorem procs_cleared_self (s : State) (p now : ℕ) :
    (s.cleared p now).procs p = .worker (.clearedResults (s.db.row.committed.moved .EN_COURS now)
      s.db.tables.roadImages {}) :=
  State.procs_after_self ..

theorem settled_cleared {s : State} (hidle : s.procs p = .idle) (status : InspectionStatus)
    (now now' : ℕ) (tables : Tables) (run : Option WorkerRun) :
    (s.cleared p now).settled p ((s.db.row.committed.moved .EN_COURS now).moved status now') tables
      run .idle = s.concluded status now' tables run := by
  have hback : Function.update s.procs p .idle = s.procs := by
    rw [← hidle, Function.update_eq_self]
  simp only [State.cleared, State.settled, State.concluded, State.after, Effect.apply,
    Function.update_idem, hback, Option.none_or]
  rfl

/-- The request, and its run as far as the computation. -/
theorem run_request {s : State} (h : s.Ready p) (hchecks : s.db.row.committed.Checks)
    (hnone : s.db.tables.NoOutputs) {inputs : ℕ → Input}
    (hclock : ∀ i, s.db.row.committed.createdAt ≤ (inputs i).now) :
    (system damageTypes).run s (.start p .analyse :: alone p inputs 9)
      = some (s.cleared p (inputs 2).now) := by
  have hcleared : (system damageTypes).run (s.settled p
      (s.db.row.committed.moved .EN_COURS (inputs 2).now) s.db.tables none (.worker .started))
      (alone p (fun i => inputs (4 + i)) 5) = some (s.cleared p (inputs 2).now) :=
    run_cleared (Function.update_self ..) hnone
  exact Machine.run_append (run_accept h hchecks hclock) hcleared

/-- A failed analysis can be requested again. -/
theorem State.Ready.concluded {s : State} (h : s.Ready p) (now : ℕ) :
    (s.concluded .ERREUR now s.db.tables none).Ready p where
  idle := h.idle
  live := h.live
  free := rfl
  pictured := h.pictured
  startable := Or.inr rfl

/-- **An analysis that is left alone.**  From every reachable state in which the request of an idle
process can be accepted, with clocks that do not go behind the creation, the request and its run
end.  When every detection that is kept can be stored, twelve statements leave `TERMINEE` with the
rows that `analyse` computes, and otherwise thirteen leave `ERREUR` with the tables as they were,
from where the analysis can be requested again.  Nothing else has changed: the version has been
counted up twice. -/
theorem analysis_settles {s : State} (hs : (system damageTypes).Reachable s) (h : s.Ready p)
    {inputs : ℕ → Input} (hclock : ∀ i, s.db.row.committed.createdAt ≤ (inputs i).now) :
    ((∀ found ∈ allDetections (inputs 9).model damageTypes s.db.tables.roadImages,
        found.det.Storable) →
      ∃ outputs, analyse (inputs 9).model damageTypes s.db.tables.roadImages (inputs 9).id
          (inputs 9).processingTimeMs = .ok outputs ∧
        (system damageTypes).run s (.start p .analyse :: alone p inputs 12)
          = some (s.concluded .TERMINEE (inputs 10).now (s.db.tables.put outputs)
              (some { images := s.db.tables.roadImages, outputs }))) ∧
      ((∃ found ∈ allDetections (inputs 9).model damageTypes s.db.tables.roadImages,
          ¬ found.det.Storable) →
        (system damageTypes).run s (.start p .analyse :: alone p inputs 13)
            = some (s.concluded .ERREUR (inputs 11).now s.db.tables none) ∧
          (s.concluded .ERREUR (inputs 11).now s.db.tables none).Ready p) := by
  have hchecks := (invariant_checksOk.holds hs).1
  have hnone := ((invariant_inv.holds hs).outputs.none h.startable.ne_done).1
  have hrequest : (system damageTypes).run s (.start p .analyse :: alone p inputs 9)
      = some (s.cleared p (inputs 2).now) :=
    run_request h hchecks hnone hclock
  constructor
  · intro hstorable
    obtain ⟨outputs, hstore⟩ := exists_store_analyse_iff.mpr ⟨h.pictured, hstorable⟩
    have hfinish : (system damageTypes).run (s.cleared p (inputs 2).now)
        (alone p (fun i => inputs (9 + i)) 3)
          = some (s.concluded .TERMINEE (inputs 10).now (s.db.tables.put outputs)
              (some { images := s.db.tables.roadImages, outputs })) := by
      rw [← settled_cleared h.idle]
      exact run_finish (procs_cleared_self ..) rfl rfl (hchecks.moved _ (hclock 2))
        (fun i => hclock (9 + i)) hnone hstore
    exact ⟨outputs, analyse_of_store hstore, Machine.run_append hrequest hfinish⟩
  · rintro ⟨found, hfound, hnot⟩
    have hraises : ∀ outputs, analyse (inputs 9).model damageTypes s.db.tables.roadImages
        (inputs 9).id (inputs 9).processingTimeMs >>= Outputs.store ≠ .ok outputs := by
      intro outputs hstore
      exact hnot ((exists_store_analyse_iff.mp ⟨outputs, hstore⟩).2 found hfound)
    have hfail : (system damageTypes).run (s.cleared p (inputs 2).now)
        (alone p (fun i => inputs (9 + i)) 4)
          = some (s.concluded .ERREUR (inputs 11).now s.db.tables none) := by
      rw [← settled_cleared h.idle]
      exact run_fail (procs_cleared_self ..) rfl rfl (hchecks.moved _ (hclock 2))
        (fun i => hclock (9 + i)) hraises
    exact ⟨Machine.run_append hrequest hfail, h.concluded _⟩

/-- A model that sees a pothole far outside of the frame. -/
def farModel : ActiveModel ℚ :=
  { potholeModel with
    predict := fun _ =>
      [{ className := "pothole", conf := 9 / 10, xc := 20000, yc := 0, w := 1, h := 1 }] }

/-- An inspection with one image, analysed with either model. -/
theorem analysis_settles_pictured :
    ∃ s outputs, (system potholeTable).run (.created newInspection)
        (.start 0 .uploadImage :: List.replicate 4 (.exec 0 (potholeInput "image-1"))) = some s ∧
      (system potholeTable).run s
          (.start 1 .analyse :: alone 1 (fun _ => potholeInput "analysis-1") 12)
        = some (s.concluded .TERMINEE 1 (s.db.tables.put outputs)
            (some { images := s.db.tables.roadImages, outputs })) ∧
      (system potholeTable).run s
          (.start 1 .analyse :: alone 1 (fun _ => { potholeInput "" with model := farModel }) 13)
        = some (s.concluded .ERREUR 1 s.db.tables none) := by
  have hrun : ((system potholeTable).run (.created newInspection)
      (.start 0 .uploadImage :: List.replicate 4 (.exec 0 (potholeInput "image-1")))).map
        (fun s => (s.db.row.committed, s.db.row.lock.isNone, s.db.tables.roadImages,
          decide (s.procs 1 = .idle)))
      = some (newInspection, true, [⟨⟨"image-1"⟩, 1⟩], true) := by
    decide +kernel
  obtain ⟨s, hs, hreachable, heq⟩ :=
    Machine.reachable_of_map_run (init_newInspection potholeTable) hrun
  simp only [Prod.mk.injEq] at heq
  obtain ⟨hrow, hfree, himages, hidle⟩ := heq
  have hready : s.Ready 1 := {
    idle := of_decide_eq_true hidle
    live := by rw [hrow]; rfl
    free := Option.isNone_iff_eq_none.mp hfree
    pictured := by rw [himages]; simp
    startable := by rw [hrow]; exact Or.inl rfl }
  have hcreated : s.db.row.committed.createdAt ≤ 1 := by
    rw [hrow]
    decide
  let seen : ℕ → Input := fun _ => potholeInput "analysis-1"
  let far : ℕ → Input := fun _ => { potholeInput "" with model := farModel }
  have hseen : ∀ i, s.db.row.committed.createdAt ≤ (seen i).now := fun _ => hcreated
  have hfar : ∀ i, s.db.row.committed.createdAt ≤ (far i).now := fun _ => hcreated
  obtain ⟨outputs, -, hdone⟩ :=
    (analysis_settles hreachable hready hseen).1 (by rw [himages]; decide +kernel)
  obtain ⟨hfailed, -⟩ :=
    (analysis_settles hreachable hready hfar).2 (by rw [himages]; decide +kernel)
  exact ⟨s, outputs, hs, hdone, hfailed⟩

end RoadVisionAI.Inspections
