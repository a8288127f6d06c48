import RoadVisionAI.Inspections.Equiv.SM1

/-!
# What still happens to a deleted inspection

A request looks for `deleted_at` when it begins, a run never does, and nobody looks again before
writing.  `final_iff_onLive` says which commits go through after a soft delete: uploads, both ends
of a run, and a PATCH that asks for the version the delete has left.  `request_analysis` is not
among them, since it asks for the version of the row it has found (`WriteOk`).
-/

namespace RoadVisionAI.Inspections

open Db Transition AnalysisWorker

variable {damageTypes : DamageTypeTable ℚ}

/-! ### Deleted for good -/

/-- The rows differ in `deleted_at`, `version` and `updated_at` only. -/
def Inspection.KeepsContent (row row' : Inspection) : Prop :=
  row' = { row with
    updatedAt := row'.updatedAt
    deletedAt := row'.deletedAt
    version := row'.version }

/-- There are no new images, detections, scores and analysis results. -/
def Tables.AddsNone (tables tables' : Tables) : Prop :=
  tables'.roadImages.Sublist tables.roadImages ∧
    tables'.damageDetections.Sublist tables.damageDetections ∧
    tables'.pciScores.Sublist tables.pciScores ∧
    tables'.analysisResults.Sublist tables.analysisResults

/-- The step leaves an inspection that is deleted as it is. -/
def Final (s s' : State) : Prop :=
  s.db.row.committed.deletedAt ≠ none →
    s.db.row.committed.KeepsContent s'.db.row.committed ∧ s.db.tables.AddsNone s'.db.tables

/-- An upload or a run is committed while the inspection is not deleted, and so is a PATCH, unless
its pending row says nothing new. -/
def Proc.OnLive (db : Database) : Proc → Prop
  | .upload (.inserted _) | .worker (.updated _ _ _) | .worker .failUpdated =>
    db.row.committed.deletedAt = none
  | .patch .updated => db.row.committed.deletedAt = none ∨ ∀ l ∈ db.row.lock,
      l.pending.weatherCond = db.row.committed.weatherCond ∧
        l.pending.notes = db.row.committed.notes
  | _ => True

/-- The statement an action makes meets this. -/
def OnLive (s : State) : Action → Prop
  | .exec p _ => (s.procs p).OnLive s.db
  | _ => True

instance (row row' : Inspection) : Decidable (row.KeepsContent row') :=
  inferInstanceAs (Decidable (_ = _))

instance (tables tables' : Tables) : Decidable (tables.AddsNone tables') :=
  inferInstanceAs (Decidable (_ ∧ _ ∧ _ ∧ _))

instance (s s' : State) : Decidable (Final s s') := inferInstanceAs (Decidable (_ → _))

instance (db : Database) (proc : Proc) : Decidable (proc.OnLive db) := by
  cases proc with
  | patch stage | upload stage | worker stage =>
    cases stage <;> unfold Proc.OnLive <;> infer_instance
  | _ => exact isTrue trivial

instance (s : State) : (a : Action) → Decidable (OnLive s a)
  | .exec p _ => inferInstanceAs (Decidable ((s.procs p).OnLive s.db))
  | .start _ _ | .fail _ => isTrue trivial

theorem Inspection.KeepsContent.status_eq {row row' : Inspection} (h : row.KeepsContent row') :
    row'.status = row.status := by
  unfold Inspection.KeepsContent at h
  rw [h]

theorem Tables.AddsNone.refl (tables : Tables) : tables.AddsNone tables :=
  ⟨.refl _, .refl _, .refl _, .refl _⟩

theorem final_of_eq {s s' : State} (hrow : s'.db.row.committed = s.db.row.committed)
    (htables : s.db.tables.AddsNone s'.db.tables) : Final s s' := by
  intro _
  rw [hrow]
  exact ⟨rfl, htables⟩

/-- An `UPDATE` keeps the content when it keeps the three columns requests and runs assign. -/
theorem keepsContent_updateRow_iff {set : Assignments} {now : ℕ} {row : Inspection} :
    row.KeepsContent (updateRow set now row) ↔
      (updateRow set now row).status = row.status ∧
        (updateRow set now row).weatherCond = row.weatherCond ∧
        (updateRow set now row).notes = row.notes := by
  obtain ⟨updatedAt, version, h⟩ := updateRow_eq set now row
  simp only [h, Inspection.KeepsContent, Assignments.apply, Inspection.mk.injEq, true_and,
    and_true]

/-! ### What a process writes -/

/-- What a process has written, or has found, as far as the deletion is concerned. -/
def WriteOk (db : Database) (p : ℕ) : Proc → Prop
  | .patch .updated => Pending db.row p fun l =>
      ∃ (body : InspectionUpdate) (now : ℕ), l.write = updateRow body.values now
  | .softDelete .updated => Pending db.row p fun l =>
      ∃ now, l.write = updateRow { deletedAt := some now } now
  | .analyse (.loaded row) | .analyse (.checked row) => row.deletedAt = none
  | .analyse .updated => Pending db.row p fun l => l.base.deletedAt = none
  | _ => True

theorem WriteOk.mono {db db' : Database} {q : ℕ} {proc : Proc} (h : WriteOk db q proc)
    (hlock : ∀ l, db.row.lock = some l → l.holder = q → db'.row.lock = some l) :
    WriteOk db' q proc := by
  cases proc with
  | patch stage =>
    cases stage with
    | updated => exact Pending.mono h hlock
    | _ => trivial
  | softDelete stage =>
    cases stage with
    | updated => exact Pending.mono h hlock
    | _ => trivial
  | analyse stage =>
    cases stage with
    | started => trivial
    | updated => exact Pending.mono h hlock
    | _ => exact h
  | _ => trivial

/-- Every statement keeps what the processes know: those of the others, and those it moves on. -/
theorem writeOk_after {s : State} {p : ℕ} {effect : Effect} {proc : Proc}
    (h : ∀ q, WriteOk s.db q (s.procs q)) (hsound : effect.Sound p s.db)
    (hproc : WriteOk (effect.apply p s.db) p proc) (q : ℕ) :
    WriteOk (s.after p effect proc).db q ((s.after p effect proc).procs q) := by
  by_cases hq : q = p
  · subst hq
    rw [State.procs_after_self]
    exact hproc
  · rw [State.procs_after_of_ne hq]
    exact (h q).mono fun l => lock_apply_of_ne hsound hq

theorem writeOk_afterFailure (db : Database) (p : ℕ) (proc : Proc) :
    WriteOk db p proc.afterFailure := by
  cases proc with
  | worker stage => cases stage <;> trivial
  | _ => trivial

theorem Proc.Reads.writeOk {db : Database} {p : ℕ} {input : Input} {proc proc' : Proc}
    (h : proc.Reads damageTypes db input proc') (hok : WriteOk db p proc) : WriteOk db p proc' := by
  cases h with
  | load hlive => exact hlive
  | check => exact hok
  | _ => trivial

/-- A request whose `UPDATE` has matched has found the row it has loaded, which was not deleted. -/
theorem Proc.Updates.writeOk {s : State} {p : ℕ} {input : Input} {proc' : Proc}
    {expected : Option ℕ} {set : Assignments} (hinv : Inv damageTypes s)
    (h : (s.procs p).Updates input expected set proc') (hok : WriteOk s.db p (s.procs p))
    {row : LockedRow Inspection.version} {l : RowLock Inspection.version}
    (hl : row.lock = some l) (hp : l.holder = p) (hbase : l.base = s.db.row.committed)
    (hexpected : l.expected = expected) (hwrite : l.write = updateRow set input.now) :
    WriteOk { s.db with row } p proc' := by
  have hprocOk := hinv.procs p
  generalize s.procs p = proc at h hok hprocOk
  cases h with
  | @patch body => exact ⟨l, hl, hp, body, input.now, hwrite⟩
  | softDelete => exact ⟨l, hl, hp, input.now, hwrite⟩
  | @accept loaded =>
    have hversion : loaded.version = s.db.row.committed.version := by
      rw [← hbase]
      exact (l.matched _ hexpected).symm
    have hsame : loaded = s.db.row.committed := hprocOk.1.2 hversion
    have hlive : l.base.deletedAt = none := by
      rw [hbase, ← hsame]
      exact hok
    exact ⟨l, hl, hp, hlive⟩
  | _ => trivial

theorem Proc.Makes.writeOk {s : State} {p : ℕ} {input : Input} {effect : Effect} {proc' : Proc}
    (hinv : Inv damageTypes s)
    (h : (s.procs p).Makes damageTypes s.db p input effect proc')
    (hok : WriteOk s.db p (s.procs p)) : WriteOk (effect.apply p s.db) p proc' := by
  cases h with
  | read hreads => exact hreads.writeOk hok
  | refuse => trivial
  | raise => trivial
  | update hasks hupdate =>
    rcases updateInspection_cases hupdate with ⟨rfl, rfl⟩ |
      ⟨row, l, rfl, rfl, -, -, hl, hp, hexpected, hwrite, hbase⟩
    · trivial
    · exact hasks.writeOk hinv hok hl hp hbase hexpected hwrite
  | commit hcommits =>
    generalize s.procs p = proc at hcommits
    cases hcommits <;> trivial

theorem writeOk_step {s s' : State} {a : Action} (hinv : Inv damageTypes s)
    (h : ∀ q, WriteOk s.db q (s.procs q)) (hstep : step damageTypes s a = some s') :
    ∀ q, WriteOk s'.db q (s'.procs q) := by
  rcases step_cases hstep with ⟨p, request, -, -, rfl⟩ |
    ⟨p, input, effect, proc, -, hmakes, rfl⟩ | ⟨p, -, rfl⟩
  · refine writeOk_after h trivial ?_
    cases request <;> trivial
  · exact writeOk_after h hmakes.sound (hmakes.writeOk hinv (h p))
  · exact writeOk_after h trivial (writeOk_afterFailure ..)

theorem invariant_writeOk : (system damageTypes).Invariant fun s =>
    Inv damageTypes s ∧ ∀ q, WriteOk s.db q (s.procs q) := by
  refine invariant_inv.and ?_ fun s a s' hinv h hstep => writeOk_step hinv h hstep
  rintro s ⟨data, actor, id, now, rfl⟩ q
  trivial

/-! ### What a commit does to a deleted inspection -/

section Commits

variable {s : State} {p : ℕ} {tables : Tables} {run : Option WorkerRun} {proc : Proc}

/-- A commit that breaks the rule whenever the inspection is deleted. -/
theorem final_iff_of_not {s' : State}
    (h : ¬ (s.db.row.committed.KeepsContent s'.db.row.committed ∧
      s.db.tables.AddsNone s'.db.tables)) :
    Final s s' ↔ s.db.row.committed.deletedAt = none := by
  constructor
  · intro hfinal
    by_contra hdeleted
    exact h (hfinal hdeleted)
  · intro hlive hdeleted
    exact absurd hlive hdeleted

/-- The row after the commit of the lock's holder. -/
theorem committed_after_commit {l : RowLock Inspection.version} (hl : s.db.row.lock = some l)
    (hp : l.holder = p) :
    (s.after p (.commit tables run) proc).db.row.committed = l.write s.db.row.committed := by
  show (s.db.row.commit p).committed = _
  rw [LockedRow.commit_of_held hl hp, ← s.db.row.current l hl]
  rfl

/-- A commit that writes a status other than that of the row. -/
theorem not_keepsContent_of_status {l : RowLock Inspection.version}
    (hl : s.db.row.lock = some l) (hp : l.holder = p)
    (hne : l.pending.status ≠ s.db.row.committed.status) :
    ¬ s.db.row.committed.KeepsContent
      (s.after p (.commit tables run) proc).db.row.committed := by
  rw [committed_after_commit hl hp]
  intro hkeeps
  rw [RowLock.pending, s.db.row.current l hl] at hne
  exact hne hkeeps.status_eq

/-- A PATCH: what it assigns decides. -/
theorem final_commit_patch
    (hpending : Pending s.db.row p fun l =>
      ∃ (body : InspectionUpdate) (now : ℕ), l.write = updateRow body.values now) :
    Final s (s.after p (.commit s.db.tables none) proc) ↔
      (Proc.patch .updated).OnLive s.db := by
  obtain ⟨l, hl, hp, body, now, hwrite⟩ := hpending
  have hrow : (s.after p (.commit s.db.tables none) proc).db.row.committed
      = l.write s.db.row.committed := committed_after_commit hl hp
  have hpending : l.pending = updateRow body.values now s.db.row.committed := by
    rw [RowLock.pending, hwrite, s.db.row.current l hl]
  have hstatus : (updateRow body.values now s.db.row.committed).status
      = s.db.row.committed.status := status_updateRow ..
  have hadds : s.db.tables.AddsNone (s.after p (.commit s.db.tables none) proc).db.tables :=
    .refl s.db.tables
  rw [hwrite] at hrow
  simp only [Final, hrow, keepsContent_updateRow_iff, hstatus, true_and, hadds, and_true,
    Proc.OnLive, hl, Option.mem_def, Option.some.injEq, forall_eq', hpending, ne_eq]
  exact or_iff_not_imp_left.symm

/-- A soft delete, once more. -/
theorem final_commit_softDelete
    (hpending : Pending s.db.row p fun l =>
      ∃ now, l.write = updateRow { deletedAt := some now } now) :
    Final s (s.after p (.commit s.db.tables none) proc) := by
  obtain ⟨l, hl, hp, now, hwrite⟩ := hpending
  intro _
  rw [committed_after_commit hl hp, hwrite, keepsContent_updateRow_iff]
  obtain ⟨updatedAt, version, h⟩ := updateRow_eq { deletedAt := some now } now s.db.row.committed
  rw [h]
  exact ⟨⟨rfl, rfl, rfl⟩, .refl s.db.tables⟩

/-- A commit of rows of other tables. -/
theorem committed_after_of_not_writing (hinv : Inv damageTypes s) (hnot : ¬ (s.procs p).Writing) :
    (s.after p (.commit tables run) proc).db.row.committed = s.db.row.committed := by
  show (s.db.row.commit p).committed = _
  rw [LockedRow.commit_of_not_held (hinv.not_heldBy hnot)]

/-- Each commit leaves a deleted inspection as it is exactly when it meets the condition. -/
theorem final_commit_iff (hinv : Inv damageTypes s) (hok : WriteOk s.db p (s.procs p))
    (hcommits : (s.procs p).Commits s.db tables run proc) :
    Final s (s.after p (.commit tables run) proc) ↔ (s.procs p).OnLive s.db := by
  have hprocOk := hinv.procs p
  have hnot : ¬ (s.procs p).Writing →
      (s.after p (.commit tables run) proc).db.row.committed = s.db.row.committed :=
    committed_after_of_not_writing hinv
  generalize s.procs p = proc₀ at hcommits hok hprocOk hnot
  cases hcommits with
  | patch => exact final_commit_patch hok
  | softDelete => exact iff_of_true (final_commit_softDelete hok) trivial
  | @upload image =>
    refine final_iff_of_not fun hkeeps => ?_
    -- one image more
    have hlength := hkeeps.2.1.length_le
    simp [State.after, Effect.apply] at hlength
  | accept =>
    -- the row it has found was not deleted, and is still the row
    obtain ⟨l, hl, -, hlive⟩ := hok
    rw [s.db.row.current l hl] at hlive
    exact iff_of_true (fun hdeleted => absurd hlive hdeleted) trivial
  | run =>
    obtain ⟨hrunning, -, -, l, hl, hp, hdone⟩ := hprocOk
    refine final_iff_of_not fun hkeeps => not_keepsContent_of_status hl hp ?_ hkeeps.1
    rw [hdone, hrunning]
    decide
  | fail =>
    obtain ⟨hrunning, l, hl, hp, hfailed⟩ := hprocOk
    refine final_iff_of_not fun hkeeps => not_keepsContent_of_status hl hp ?_ hkeeps.1
    rw [hfailed, hrunning]
    decide
  | recommend =>
    exact iff_of_true (final_of_eq (hnot id) (.refl s.db.tables)) trivial

end Commits

theorem Proc.Reads.onLive {db : Database} {input : Input} {proc proc' : Proc}
    (h : proc.Reads damageTypes db input proc') : proc.OnLive db := by
  cases h <;> trivial

theorem Proc.Refuses.onLive {db : Database} {proc : Proc} (h : proc.Refuses db) :
    proc.OnLive db := by
  cases h <;> trivial

theorem Proc.Updates.onLive {db : Database} {input : Input} {proc proc' : Proc}
    {expected : Option ℕ} {set : Assignments} (h : proc.Updates input expected set proc') :
    proc.OnLive db := by
  cases h <;> trivial

/-- An action leaves a deleted inspection as it is exactly when it meets the condition. -/
theorem final_step {s s' : State} {a : Action} (hinv : Inv damageTypes s)
    (hok : ∀ q, WriteOk s.db q (s.procs q)) (hstep : step damageTypes s a = some s') :
    Final s s' ↔ OnLive s a := by
  rcases step_cases hstep with ⟨p, request, rfl, -, rfl⟩ |
    ⟨p, input, effect, proc, rfl, hmakes, rfl⟩ | ⟨p, rfl, rfl⟩
  · exact iff_of_true (final_of_eq rfl (.refl s.db.tables)) trivial
  · have hlive : OnLive s (.exec p input) ↔ (s.procs p).OnLive s.db := Iff.rfl
    rw [hlive]
    have hrollback : ∀ proc, Final s (s.after p .rollback proc) := fun proc =>
      final_of_eq LockedRow.committed_rollback (.refl s.db.tables)
    cases hmakes with
    | read hreads => exact iff_of_true (final_of_eq rfl (.refl s.db.tables)) hreads.onLive
    | refuse hrefuses => exact iff_of_true (hrollback _) hrefuses.onLive
    | raise hproc => exact iff_of_true (hrollback _) (by rw [hproc]; trivial)
    | update hasks hupdate =>
      rcases updateInspection_cases hupdate with ⟨rfl, -⟩ | ⟨row, l, rfl, -, -, hcommitted, -⟩
      · exact iff_of_true (hrollback _) hasks.onLive
      · exact iff_of_true (final_of_eq hcommitted (.refl s.db.tables)) hasks.onLive
    | commit hcommits => exact final_commit_iff hinv (hok p) hcommits
  · exact iff_of_true (final_of_eq LockedRow.committed_rollback (.refl s.db.tables)) trivial

/-- **Soft delete.**  Along a run from a new inspection every step leaves the inspection as it is
once it is deleted, exactly when all commits meet the condition. -/
theorem final_iff_onLive {s t : State} {actions : List Action} (hs : (system damageTypes).init s)
    (hrun : (system damageTypes).run s actions = some t) :
    (system damageTypes).StepsMeet Final s actions ↔
      (system damageTypes).ActionsMeet OnLive s actions := by
  have hok := invariant_writeOk.init s hs
  refine invariant_writeOk.stepsMeet_iff_actionsMeet (fun s a s' h hstep => ?_) hok hrun
  exact final_step h.1 h.2 hstep

/-- `oneSurvey`, a soft delete, and a PATCH of its process after it. -/
def deletedSurvey : List Action :=
  oneSurvey ++ .start 2 .softDelete :: List.replicate 3 (.exec 2 (quietInput "")) ++
    [.start 2 (.patch { version := 4, weatherCond := none, notes := some (some "late") }),
     .exec 2 (quietInput "")]

/-- The PATCH is refused, and nothing happens to the inspection. -/
theorem final_iff_onLive_deletedSurvey :
    (system noTypes).StepsMeet Final (.created newInspection) deletedSurvey := by
  have hsome : ((system noTypes).run (.created newInspection) deletedSurvey).isSome := by
    decide +kernel
  obtain ⟨t, ht⟩ := Option.isSome_iff_exists.mp hsome
  exact (final_iff_onLive (init_newInspection noTypes) ht).mpr (by decide +kernel)

/-- `oneSurvey` with a soft delete before the commit of its run. -/
def deleteDuringRun : List Action :=
  .start 0 .uploadImage :: List.replicate 4 (.exec 0 (quietInput "image-1")) ++
    .start 1 .analyse :: List.replicate 10 (.exec 1 (quietInput "analysis-1")) ++
    .start 2 .softDelete :: List.replicate 3 (.exec 2 (quietInput "")) ++
    [.exec 1 (quietInput "analysis-1")]

/-- The run still makes the deleted inspection `TERMINEE`, and gives it a score. -/
theorem not_final_deleteDuringRun :
    ∃ s a s', (system noTypes).run (.created newInspection) deleteDuringRun = some s ∧
      step noTypes s a = some s' ∧ s.db.row.committed.deletedAt ≠ none ∧
      s'.db.row.committed.status ≠ s.db.row.committed.status ∧
      s'.db.tables.pciScores.length = s.db.tables.pciScores.length + 1 ∧ ¬ Final s s' := by
  have hrun : (((system noTypes).run (.created newInspection) deleteDuringRun).bind fun s =>
      (step noTypes s (.exec 1 (quietInput "analysis-1"))).map fun s' =>
        ((s.db.row.committed.deletedAt, s.db.row.committed.status, s'.db.row.committed.status),
          (s.db.tables.pciScores.length, s'.db.tables.pciScores.length), decide (Final s s')))
      = some ((some 1, .EN_COURS, .TERMINEE), (0, 1), false) := by
    decide +kernel
  obtain ⟨s, hs, hlast⟩ := Option.bind_eq_some_iff.mp hrun
  obtain ⟨s', hstep, heq⟩ := Option.map_eq_some_iff.mp hlast
  simp only [Prod.mk.injEq, decide_eq_false_iff_not] at heq
  obtain ⟨⟨hdeleted, hstatus, hstatus'⟩, ⟨hnone, hone⟩, hfinal⟩ := heq
  refine ⟨s, _, s', hs, hstep, ?_, ?_, by rw [hnone, hone], hfinal⟩
  · rw [hdeleted]
    exact Option.some_ne_none 1
  · rw [hstatus, hstatus']
    decide

end RoadVisionAI.Inspections
