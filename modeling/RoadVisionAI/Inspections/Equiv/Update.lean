import RoadVisionAI.Inspections.Update

/-!
# What a PATCH promises

The version is compared in the `WHERE` clause of the `UPDATE`, and there is none when the body sets
no field to a text: `update_contract` says when a PATCH succeeds, and what it leaves.
`exists_run_update` finds it among the runs of the system, with nobody else writing.
-/

namespace RoadVisionAI.Inspections

open Python Db Transition

variable {now : ℕ}

/-- A live row, at a time after its creation. -/
structure Shown (now : ℕ) where
  row : Inspection
  live : row.deletedAt = none
  checks : row.Checks
  stored : row.version < integerBound
  created : row.createdAt ≤ now

/-- The counter has a next value, where it needs one. -/
def HasRoom (row : Inspection) (set : Assignments) : Prop :=
  set.apply row = row ∨ row.version + 1 < integerBound

theorem getOr404_of_live {row : Inspection} (h : row.deletedAt = none) : getOr404 row = .ok row :=
  if_pos h

/-! ### The `UPDATE` -/

/-- The row a body writes: its texts, and what the triggers set. -/
theorem updateRow_values (body : InspectionUpdate) (now : ℕ) (row : Inspection) :
    ∃ updatedAt version, updateRow body.values now row =
      { row with
        weatherCond := body.weatherCond.join.or row.weatherCond
        notes := body.notes.join.or row.notes
        updatedAt, version } := by
  obtain ⟨updatedAt, version, h⟩ := updateRow_eq body.values now row
  refine ⟨updatedAt, version, ?_⟩
  rw [h]
  simp [Assignments.apply, InspectionUpdate.values]

theorem live_updateRow (shown : Shown now) (body : InspectionUpdate) :
    (updateRow body.values now shown.row).deletedAt = none := by
  obtain ⟨updatedAt, version, h⟩ := updateRow_values body now shown.row
  rw [h]
  exact shown.live

/-- The table refuses a row only for its version. -/
theorem accepts_iff (shown : Shown now) (body : InspectionUpdate) :
    (updateRow body.values now shown.row).Checks ∧
        (updateRow body.values now shown.row).version < integerBound ↔
      HasRoom shown.row body.values := by
  by_cases hsame : body.values.apply shown.row = shown.row
  · rw [updateRow_of_apply_eq hsame]
    exact iff_of_true ⟨shown.checks, shown.stored⟩ (Or.inl hsame)
  · have hlive := live_updateRow shown body
    rw [updateRow_of_apply_ne hsame] at hlive ⊢
    have hchecks : Inspection.Checks { body.values.apply shown.row with
        updatedAt := now, version := shown.row.version + 1 } := by
      refine ⟨shown.created, ?_⟩
      rw [hlive]
      exact nofun
    rw [HasRoom, or_iff_right hsame]
    exact and_iff_right hchecks

theorem updateWithVersion_of_stale {row : Inspection} {expectedVersion : ℕ} {set : Assignments}
    (hsend : Sendable expectedVersion set) (h : expectedVersion ≠ row.version) :
    updateWithVersion row expectedVersion set now
      = .error (.http (conflict row.id expectedVersion)) := by
  rw [updateWithVersion, if_neg (not_not.mpr hsend), if_pos h.symm]

theorem updateWithVersion_eq_ok_iff (shown : Shown now) (body : InspectionUpdate) {r : Inspection} :
    updateWithVersion shown.row body.version body.values now = .ok r ↔
      ((Sendable body.version body.values ∧ HasRoom shown.row body.values) ∧
        body.version = shown.row.version) ∧ r = updateRow body.values now shown.row := by
  rw [← accepts_iff shown body, updateWithVersion]
  by_cases hsend : Sendable body.version body.values
  · rw [if_neg (not_not.mpr hsend)]
    by_cases hversion : body.version = shown.row.version
    · rw [if_neg (not_not.mpr hversion.symm)]
      dsimp only
      split_ifs with haccepts
      · rw [and_iff_right ⟨⟨hsend, haccepts⟩, hversion⟩, Except.ok.injEq, eq_comm]
      · simp [haccepts]
    · rw [if_pos (Ne.symm hversion)]
      simp [hversion]
  · rw [if_pos hsend]
    simp [hsend]

/-! ### The request -/

theorem update_of_empty (shown : Shown now) {body : InspectionUpdate} (actor : Uuid)
    (h : body.values.isEmpty = true) :
    update shown.row body actor now
      = { result := .ok shown.row, row := shown.row, auditLogs := [] } := by
  simp only [update, getOr404_of_live shown.live, h, if_true]

theorem update_of_error (shown : Shown now) {body : InspectionUpdate} (actor : Uuid)
    (h : body.values.isEmpty = false) {exc : Raised}
    (hupdate : updateWithVersion shown.row body.version body.values now = .error exc) :
    update shown.row body actor now
      = { result := .error exc, row := shown.row, auditLogs := [] } := by
  simp [update, getOr404_of_live shown.live, h, hupdate]

theorem update_of_ok (shown : Shown now) {body : InspectionUpdate} (actor : Uuid)
    (h : body.values.isEmpty = false) {updated : Inspection}
    (hupdate : updateWithVersion shown.row body.version body.values now = .ok updated) :
    (update shown.row body actor now).result = .ok updated ∧
      (update shown.row body actor now).row = updated := by
  have hlive : updated.deletedAt = none := by
    rw [((updateWithVersion_eq_ok_iff shown body).mp hupdate).2]
    exact live_updateRow shown body
  simp [update, getOr404_of_live shown.live, h, hupdate, getOr404_of_live hlive]

/-- **The PATCH contract.**  A PATCH succeeds exactly when it sets no field to a text, or asks for
the current version and the database takes it; asking for another version is a 409.  What raises
leaves the row as it was; on success the fields set to a text have it, and the other ones what they
had, but for the version and `updated_at`. -/
theorem update_contract (shown : Shown now) (body : InspectionUpdate) (actor : Uuid) :
    ((∃ r, (update shown.row body actor now).result = .ok r) ↔
        body.values.isEmpty = true ∨
          (Sendable body.version body.values ∧ HasRoom shown.row body.values) ∧
            body.version = shown.row.version) ∧
      (body.values.isEmpty = false → Sendable body.version body.values →
        body.version ≠ shown.row.version →
        (update shown.row body actor now).result
          = .error (.http (conflict shown.row.id body.version))) ∧
      (∀ exc, (update shown.row body actor now).result = .error exc →
        (update shown.row body actor now).row = shown.row) ∧
      ∀ r, (update shown.row body actor now).result = .ok r →
        (update shown.row body actor now).row = r ∧
          ∃ updatedAt version, r =
            { shown.row with
              weatherCond := body.weatherCond.join.or shown.row.weatherCond
              notes := body.notes.join.or shown.row.notes
              updatedAt, version } := by
  cases hempty : body.values.isEmpty with
  | true =>
    rw [update_of_empty shown actor hempty]
    refine ⟨iff_of_true ⟨_, rfl⟩ (Or.inl rfl), nofun, nofun, ?_⟩
    rintro r ⟨⟩
    refine ⟨rfl, shown.row.updatedAt, shown.row.version, ?_⟩
    simp only [Assignments.isEmpty, InspectionUpdate.values, Bool.and_eq_true,
      Option.isNone_iff_eq_none] at hempty
    obtain ⟨⟨⟨-, hweather⟩, hnotes⟩, -⟩ := hempty
    rw [hweather, hnotes]
    rfl
  | false =>
    rw [or_iff_right (by simp)]
    cases hupdate : updateWithVersion shown.row body.version body.values now with
    | error exc =>
      have hnot : ¬ ((Sendable body.version body.values ∧ HasRoom shown.row body.values) ∧
          body.version = shown.row.version) := by
        intro h
        have hok := (updateWithVersion_eq_ok_iff shown body).mpr ⟨h, rfl⟩
        rw [hupdate] at hok
        cases hok
      rw [update_of_error shown actor hempty hupdate]
      refine ⟨iff_of_false (by rintro ⟨_, ⟨⟩⟩) hnot, ?_, fun _ _ => rfl, nofun⟩
      intro _ hsend hstale
      rw [updateWithVersion_of_stale hsend hstale] at hupdate
      rw [Except.error.inj hupdate]
    | ok updated =>
      obtain ⟨hresult, hrow⟩ := update_of_ok shown actor hempty hupdate
      obtain ⟨hcond, hupdated⟩ := (updateWithVersion_eq_ok_iff shown body).mp hupdate
      rw [hresult, hrow]
      refine ⟨iff_of_true ⟨_, rfl⟩ hcond, fun _ _ hstale => absurd hcond.2 hstale, nofun, ?_⟩
      rintro r ⟨⟩
      exact ⟨rfl, hupdated ▸ updateRow_values body now shown.row⟩

/-- A survey with notes, changed once since its creation. -/
def notedSurvey : Shown 5 where
  row := {
    id := ⟨"i1"⟩
    roadSectionId := ⟨"s1"⟩
    createdBy := ⟨"u1"⟩
    validatedBy := none
    status := .EN_ATTENTE
    inspectionDate := 1
    weatherCond := none
    notes := some "fissures"
    createdAt := 1
    updatedAt := 3
    deletedAt := none
    version := 2 }
  live := rfl
  checks := by decide
  stored := by decide
  created := by decide

/-- A body with an old version, to take the notes away. -/
def staleNull : InspectionUpdate where
  version := 1
  weatherCond := none
  notes := some none

/-- It succeeds, and the notes stay. -/
theorem not_contract_staleNull :
    ¬ ((∀ body : InspectionUpdate, (∃ r, (update notedSurvey.row body ⟨"u1"⟩ 5).result = .ok r) ↔
        body.version = notedSurvey.row.version) ∨
      ∀ (body : InspectionUpdate) r, (update notedSurvey.row body ⟨"u1"⟩ 5).result = .ok r →
        ∀ value, body.notes = some value → r.notes = value) := by
  have hresult : (update notedSurvey.row staleNull ⟨"u1"⟩ 5).result = .ok notedSurvey.row := by
    rw [update_of_empty notedSurvey ⟨"u1"⟩ rfl]
  rintro (hversion | hvalue)
  · exact absurd ((hversion staleNull).mp ⟨_, hresult⟩) (by decide)
  · exact absurd (hvalue staleNull _ hresult none rfl) (by decide)

/-! ### In the system -/

/-- An `UPDATE` of an unlocked row with the version it asks for, and its commit. -/
theorem update_unlocked {row : Inspection} {p expected : ℕ} {write : Inspection → Inspection}
    (bumps : ∀ r, Bumps Inspection.version r (write r)) (h : row.version = expected) :
    ∃ locked, (LockedRow.unlocked row).update p (some expected) write bumps = .locked locked ∧
      locked.commit p = .unlocked (write row) := by
  have hmatch : ∀ v, some expected = some v → row.version = v := by
    rintro v ⟨⟩
    exact h
  exact ⟨_, dif_pos hmatch, if_pos rfl⟩

/-- A process makes the statement it can make. -/
theorem step_exec {damageTypes : DamageTypeTable ℚ} {s : State} {p : ℕ} {input : Input}
    {proc proc' : Proc} {effect : Effect} (hproc : s.procs p = proc)
    (h : exec damageTypes s.db p input proc = some (effect, proc')) :
    (system damageTypes).step s (.exec p input) = some (s.after p effect proc') := by
  show (exec damageTypes s.db p input (s.procs p)).map _ = _
  rw [hproc, h]
  rfl

theorem run_single {damageTypes : DamageTypeTable ℚ} {s s' : State} {a : Action}
    (h : (system damageTypes).step s a = some s') : (system damageTypes).run s [a] = some s' :=
  Machine.run_cons_eq_some_iff.mpr ⟨s', h, rfl⟩

/-- The statement of `update_with_version`, in the system. -/
theorem exists_run_found {damageTypes : DamageTypeTable ℚ} {s : State} {p : ℕ} {input : Input}
    (shown : Shown input.now) (body : InspectionUpdate) (actor : Uuid)
    (hproc : s.procs p = .patch (.found body)) (hrow : s.db.row = .unlocked shown.row) :
    ∃ rest t, (system damageTypes).run s rest = some t ∧
      (∀ a ∈ rest, a = .exec p input ∨ a = .fail p) ∧ t.procs p = .idle ∧
      t.db.row = .unlocked (update shown.row body actor input.now).row := by
  have hself : (Effect.rollback.apply p s.db).row = .unlocked shown.row := by
    rw [Effect.apply, hrow]
    rfl
  cases hempty : body.values.isEmpty with
  | true =>
    rw [update_of_empty shown actor hempty]
    refine ⟨[.exec p input], s.after p .rollback .idle, run_single (step_exec hproc ?_), by simp,
      by simp, hself⟩
    exact if_pos hempty
  | false =>
    cases hupdate : updateWithVersion shown.row body.version body.values input.now with
    | error exc =>
      -- whatever the exception, the statement can fail
      rw [update_of_error shown actor hempty hupdate]
      refine ⟨[.fail p], s.after p .rollback .idle, run_single ?_, by simp, by simp, hself⟩
      show step damageTypes s (.fail p) = _
      rw [step, hproc]
      rfl
    | ok updated =>
      obtain ⟨hcond, hupdated⟩ := (updateWithVersion_eq_ok_iff shown body).mp hupdate
      have haccepts := ((accepts_iff shown body).mpr hcond.1.2).1
      obtain ⟨locked, hlocked, hcommit⟩ :=
        update_unlocked (p := p) (bumps_updateRow body.values input.now) hcond.2.symm
      have hfound : exec damageTypes s.db p input (.patch (.found body))
          = some (.lock locked, .patch .updated) := by
        have hlive : s.db.row.committed = shown.row := by rw [hrow]; rfl
        simp only [exec, execPatch, hempty, updateInspection, hlive]
        rw [hrow, hlocked]
        simp [haccepts]
      have hdone : exec damageTypes (s.after p (.lock locked) (.patch .updated)).db p input
          (.patch .updated) = some (.commit s.db.tables none, .idle) := rfl
      refine ⟨[.exec p input, .exec p input], _,
        Machine.run_cons_eq_some_iff.mpr ⟨_, step_exec hproc hfound,
          run_single (step_exec (State.procs_after_self ..) hdone)⟩, by simp, by simp, ?_⟩
      rw [(update_of_ok shown actor hempty hupdate).2, hupdated]
      exact hcommit

/-- The statements of a PATCH that nobody disturbs, and what they leave. -/
theorem exists_run_update {damageTypes : DamageTypeTable ℚ} {s : State} {p : ℕ} {input : Input}
    (shown : Shown input.now) (body : InspectionUpdate) (actor : Uuid) (hidle : s.procs p = .idle)
    (hrow : s.db.row = .unlocked shown.row) :
    ∃ rest t, (system damageTypes).run s (.start p (.patch body) :: rest) = some t ∧
      (∀ a ∈ rest, a = .exec p input ∨ a = .fail p) ∧ t.procs p = .idle ∧
      t.db.row = .unlocked (update shown.row body actor input.now).row := by
  have hstart : (system damageTypes).step s (.start p (.patch body))
      = some (s.after p .none (.patch (.started body))) := by
    show step damageTypes s (.start p (.patch body)) = _
    rw [step, hidle]
    rfl
  have hread : exec damageTypes (s.after p .none (.patch (.started body))).db p input
      (.patch (.started body)) = some (.none, .patch (.found body)) := by
    have hlive : s.db.row.committed.deletedAt = none := by
      rw [hrow]
      exact shown.live
    exact if_pos hlive
  obtain ⟨rest, t, hrun, hrest, hend, hleft⟩ := exists_run_found
    (s := (s.after p .none (.patch (.started body))).after p .none (.patch (.found body)))
    shown body actor (State.procs_after_self ..) hrow
  refine ⟨.exec p input :: rest, t, ?_, by simpa using hrest, hend, hleft⟩
  exact Machine.run_cons_eq_some_iff.mpr ⟨_, hstart,
    Machine.run_cons_eq_some_iff.mpr ⟨_, step_exec (State.procs_after_self ..) hread, hrun⟩⟩

end RoadVisionAI.Inspections
