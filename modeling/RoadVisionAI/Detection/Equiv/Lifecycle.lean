import RoadVisionAI.Detection.Equiv.SingleProduction

/-!
# The dates of a model

`deployed_at` and `deprecated_at` record the promotions: the one of a model in production or past
it, the other of a model past it (`AiModel.Dated`).  `promote` also takes a model that is past it,
and leaves the date of its retirement in place; `dated_iff_fresh` says that this is the only way in
which the dates come to contradict the status.  A deployment date once set stays (`Deployed`), which
the flush relies on where it has nothing to write.
-/

namespace RoadVisionAI.ModelRegistry

open Python Db Transition

variable {bucket : Bucket} {db : Database} {p : ℕ} {input : Input}

/-- The dates of a row are those its status calls for. -/
def AiModel.Dated (model : AiModel) : Prop :=
  (model.deprecatedAt.isSome ↔ model.status = .DEPRECATED) ∧
    (model.deployedAt.isSome ↔ model.status = .PRODUCTION ∨ model.status = .DEPRECATED)

instance (model : AiModel) : Decidable model.Dated := inferInstanceAs (Decidable (_ ∧ _))

/-- Where a promotion writes the row of its model, this is not past production. -/
def Proc.Fresh (models : LockedTable Uuid AiModel) (p : ℕ) : Proc → Prop
  | .promote call (.retiring _ _ []) =>
    ∀ row, (models.slots call.modelId).visible p = some row → row.status ≠ .DEPRECATED
  | _ => True

/-- The statement an action makes promotes no model that is past production. -/
def Fresh (s : State) : Action → Prop
  | .exec p _ => (s.procs p).Fresh s.db.models p
  | _ => True

/-! ### Deployment dates stay -/

/-- Every version of the row has a deployment date. -/
def Deployed (models : LockedTable Uuid AiModel) (id : Uuid) : Prop :=
  id ∈ models.keys ∧ LockedTable.EveryVersion (fun k row => k = id → row.deployedAt.isSome) models

/-- A promotion that has read a deployment date: it is still there. -/
def Proc.Recalls (models : LockedTable Uuid AiModel) : Proc → Prop
  | .promote call (.found model) | .promote call (.retiring model _ _) =>
    model.deployedAt.isSome → Deployed models call.modelId
  | _ => True

/-- The invariant: a committed deployment date is in every version, and so is one that was read. -/
structure Recalled (s : State) : Prop where
  committed : ∀ id row, s.db.models.committed id = some row → row.deployedAt.isSome →
    Deployed s.db.models id
  procs : ∀ p, (s.procs p).Recalls s.db.models

theorem Deployed.commit {models : LockedTable Uuid AiModel} {id : Uuid} (h : Deployed models id) :
    Deployed (models.commit p) id :=
  ⟨h.1, h.2.commit p⟩

theorem Deployed.rollback {models : LockedTable Uuid AiModel} {id : Uuid} (h : Deployed models id) :
    Deployed (models.rollback p) id :=
  ⟨h.1, h.2.rollback p⟩

/-- No statement takes the date away. -/
theorem Deployed.write {proc proc' : Proc} {id id' : Uuid} {row : AiModel}
    (h : Deployed db.models id) (hwrites : proc.Writes bucket db p input id' row proc') :
    Deployed (db.models.write p id' row) id := by
  refine ⟨List.mem_insert_of_mem h.1, h.2.write ?_⟩
  rintro rfl
  cases hwrites with
  | insert _ hid _ => exact absurd h.1 hid
  | @retire _ _ _ _ _ old hrow =>
    have hdate : old.deployedAt.isSome := h.2.visible hrow rfl
    exact hdate
  | activate hrow =>
    simp only [AiModel.activate]
    split_ifs
    · exact h.2.visible hrow rfl
    · rfl

/-- What a process has just committed is all there is of the row. -/
theorem deployed_of_held {models : LockedTable Uuid AiModel} {id : Uuid} {row : AiModel}
    (hheld : models.Holds p id row) (hdeployed : row.deployedAt.isSome) :
    Deployed (models.commit p) id := by
  have hkeys : id ∈ models.keys := LockedTable.mem_keys_of_pending hheld
  refine ⟨hkeys, ?_⟩
  rintro k row' hversion rfl
  rcases hversion with hcommitted | ⟨q, hpending⟩
  · rw [LockedTable.committed_commit_of_holds hheld] at hcommitted
    exact Option.some.inj hcommitted ▸ hdeployed
  · obtain ⟨hholds, hne⟩ := LockedTable.holds_commit.mp hpending
    exact absurd (hholds.unique hheld) hne

theorem Proc.Recalls.frame {models models' : LockedTable Uuid AiModel} {proc : Proc}
    (h : proc.Recalls models) (hdeployed : ∀ id, Deployed models id → Deployed models' id) :
    proc.Recalls models' := by
  unfold Proc.Recalls at h ⊢
  split at h
  · exact fun hdate => hdeployed _ (h hdate)
  · exact fun hdate => hdeployed _ (h hdate)
  · trivial

/-- The rest of the run does not depend on what a process has done with the table. -/
theorem recalled_after {s : State} {effect : Effect} {proc' : Proc} (hs : Recalled s)
    (hdeployed : ∀ id, Deployed s.db.models id → Deployed (effect.apply p s.db).models id)
    (hcommitted : ∀ id row, (effect.apply p s.db).models.committed id = some row →
      row.deployedAt.isSome → Deployed (effect.apply p s.db).models id)
    (hself : proc'.Recalls (effect.apply p s.db).models) : Recalled (s.after p effect proc') where
  committed := hcommitted
  procs := State.forall_procs_after
    (P := fun _ proc => proc.Recalls (effect.apply p s.db).models) hself
    fun q _ => (hs.procs q).frame hdeployed

theorem Proc.Reads.recalls {s : State} {proc proc' : Proc} (hs : Recalled s)
    (hreads : proc.Reads s.db p input proc') (hkeeps : proc.Keeps s.db.models p)
    (h : proc.Recalls s.db.models) : proc'.Recalls s.db.models := by
  cases hreads with
  | check => trivial
  | find hmodel =>
    -- the process holds nothing: what it reads is committed
    intro hdate
    rw [LockedTable.HoldsNothing.visible hkeeps] at hmodel
    exact hs.committed _ _ hmodel hdate
  | select => exact h
  | skip => exact h

theorem Proc.Writes.recalls {models : LockedTable Uuid AiModel} {proc proc' : Proc} {id : Uuid}
    {row : AiModel} (hwrites : proc.Writes bucket db p input id row proc')
    (h : proc.Recalls db.models)
    (hdeployed : ∀ id, Deployed db.models id → Deployed models id) : proc'.Recalls models := by
  cases hwrites with
  | insert => trivial
  | retire => exact fun hdate => hdeployed _ (h hdate)
  | activate => trivial

theorem recalled_rollback {s : State} (hs : Recalled s) (p : ℕ) :
    Recalled (s.after p .rollback .idle) :=
  recalled_after hs (fun _ => Deployed.rollback) (fun id row hrow hdate =>
    (hs.committed id row hrow hdate).rollback) trivial

theorem recalled_commit {s : State} (hs : Recalled s) (p : ℕ) (auditLog : AuditLog) :
    Recalled (s.after p (.commit auditLog) .idle) := by
  refine recalled_after hs (fun _ => Deployed.commit) (fun id row hrow hdate => ?_) trivial
  by_cases hheld : ∃ held, s.db.models.Holds p id held
  · obtain ⟨held, hheld⟩ := hheld
    have hsame : held = row :=
      Option.some.inj ((LockedTable.committed_commit_of_holds hheld).symm.trans hrow)
    exact deployed_of_held hheld (hsame ▸ hdate)
  · have hold := LockedTable.committed_commit_of_not_holds fun held h => hheld ⟨held, h⟩
    exact (hs.committed id row (hold.symm.trans hrow) hdate).commit

theorem recalled_step {s s' : State} {a : Action} (hsound : Sound s) (hs : Recalled s)
    (hstep : step bucket s a = some s') : Recalled s' := by
  rcases step_cases hstep with ⟨p, request, rfl, -, rfl⟩ |
    ⟨p, input, effect, proc', rfl, hmakes, rfl⟩ | ⟨p, rfl, rfl⟩
  · refine recalled_after hs (fun _ h => h) hs.committed ?_
    cases request <;> trivial
  · suffices hafter : Recalled (s.after p effect proc') from
      ⟨by simpa using hafter.committed, by simpa using hafter.procs⟩
    have hkeeps := hsound.keeps p
    have hrecalls := hs.procs p
    generalize s.procs p = proc at hmakes hkeeps hrecalls
    cases hmakes with
    | read hreads =>
      exact recalled_after hs (fun _ h => h) hs.committed (hreads.recalls hs hkeeps hrecalls)
    | refuse => exact recalled_rollback hs p
    | put hputs =>
      refine recalled_after hs (fun _ h => h) hs.committed ?_
      cases hputs <;> trivial
    | write hfree hwrites =>
      have hdeployed := fun id (h : Deployed s.db.models id) => h.write hwrites
      refine recalled_after hs hdeployed (fun k row hrow hdate => ?_)
        (hwrites.recalls hrecalls hdeployed)
      exact hdeployed k (hs.committed k row (LockedTable.committed_write.symm.trans hrow) hdate)
    | commit => exact recalled_commit hs p _
  · exact recalled_rollback hs p

theorem recalled_empty : Recalled State.empty where
  committed _ _ h := nomatch h
  procs _ := trivial

theorem invariant_recalled : (registry bucket).Invariant fun s => Sound s ∧ Recalled s :=
  invariant_sound.and (fun _ hs => hs ▸ recalled_empty)
    fun _ _ _ hsound hs hstep => recalled_step hsound hs hstep

/-! ### Which statements keep the dates right -/

/-- A version that is written has the right dates exactly when it promotes no model past
production. -/
theorem Proc.Writes.dated_iff {proc proc' : Proc} {id : Uuid} {row : AiModel}
    (hwrites : proc.Writes bucket db p input id row proc') (hkeeps : proc.Keeps db.models p)
    (hrecalls : proc.Recalls db.models)
    (hproduction : LockedTable.EveryVersion
      (fun _ row => row.isActive = true ↔ row.status = .PRODUCTION) db.models)
    (hdated : LockedTable.EveryVersion (fun _ row => row.Dated) db.models) :
    row.Dated ↔ proc.Fresh db.models p := by
  cases hwrites with
  | insert => exact iff_of_true (by simp [AiModel.Dated, RegisterCall.row]) trivial
  | retire hrow hactive =>
    refine iff_of_true ?_ trivial
    have hstatus := (hproduction.visible hrow).mp hactive
    have hdeployed := (hdated.visible hrow).2.mpr (Or.inl hstatus)
    exact ⟨by simp [AiModel.retire], iff_of_true hdeployed (Or.inr rfl)⟩
  | @activate call model now old hrow =>
    have hstatus : (old.activate model input.now).status = .PRODUCTION :=
      (activate_eq input.now hkeeps).2
    have hdeployed : (old.activate model input.now).deployedAt.isSome := by
      simp only [AiModel.activate]
      split_ifs with hsame
      · exact (hrecalls (by rw [hsame]; rfl)).2.visible hrow rfl
      · rfl
    have hfresh : (Proc.promote call (.retiring model now [])).Fresh db.models p ↔
        old.status ≠ .DEPRECATED := by
      simp only [Proc.Fresh, hrow, Option.some.injEq, forall_eq']
    have hkept : (old.activate model input.now).deprecatedAt = old.deprecatedAt := rfl
    rw [hfresh, AiModel.Dated, hstatus, hkept, (hdated.visible hrow).1]
    simp [hdeployed]

/-- A statement keeps the dates of all versions right exactly when it is fresh. -/
theorem dated_step {s s' : State} {a : Action} (hs : Sound s ∧ Recalled s)
    (hdated : LockedTable.EveryVersion (fun _ row => row.Dated) s.db.models)
    (hstep : step bucket s a = some s') :
    LockedTable.EveryVersion (fun _ row => row.Dated) s'.db.models ↔ Fresh s a := by
  rcases step_cases hstep with ⟨p, request, rfl, -, rfl⟩ |
    ⟨p, input, effect, proc', rfl, hmakes, rfl⟩ | ⟨p, rfl, rfl⟩
  · exact iff_of_true hdated trivial
  · rw [State.db_record]
    have hkeeps := hs.1.keeps p
    have hrecalls := hs.2.procs p
    show _ ↔ (s.procs p).Fresh s.db.models p
    generalize s.procs p = proc at hmakes hkeeps hrecalls
    cases hmakes with
    | read hreads => exact iff_of_true hdated (by cases hreads <;> trivial)
    | refuse hrefuses =>
      exact iff_of_true (hdated.rollback p) (by cases hrefuses <;> trivial)
    | put hputs => exact iff_of_true hdated (by cases hputs <;> trivial)
    | @write id row proc' hfree hwrites =>
      rw [← hwrites.dated_iff hkeeps hrecalls hs.1.production hdated]
      constructor
      · intro hafter
        exact hafter id row (Or.inr ⟨p, LockedTable.holds_write_self⟩)
      · exact hdated.write
    | commit hcommits =>
      exact iff_of_true (hdated.commit p) (by cases hcommits <;> trivial)
  · exact iff_of_true (hdated.rollback p) trivial

/-- **Lifecycle dates.**  Along a run from the empty registry every version of every row, committed
or about to be, has the dates its status calls for exactly when no promotion takes a model that is
past production; then the committed rows have them in every state. -/
theorem dated_iff_fresh {actions : List Action} {t : State}
    (hrun : (registry bucket).run State.empty actions = some t) :
    ((registry bucket).StatesMeet
        (fun s => LockedTable.EveryVersion (fun _ row => row.Dated) s.db.models) State.empty actions ↔
      (registry bucket).ActionsMeet Fresh State.empty actions) ∧
    ((registry bucket).ActionsMeet Fresh State.empty actions →
      (registry bucket).StatesMeet
        (fun s => ∀ id model, s.db.models.committed id = some model → model.Dated)
        State.empty actions) := by
  have hinit : Sound State.empty ∧ Recalled State.empty :=
    (@invariant_recalled bucket).init State.empty rfl
  have hiff := invariant_recalled.statesMeet_iff_actionsMeet
    (fun s a s' hs hdated hstep => dated_step hs hdated hstep) hinit
    LockedTable.EveryVersion.empty hrun
  refine ⟨hiff, fun hfresh => (hiff.mpr hfresh).imp fun s hs id model hmodel => ?_⟩
  exact hs id model (Or.inl hmodel)

/-- The criterion at the registration and promotion of one model. -/
theorem dated_iff_fresh_rollout :
    ((registry modelsBucket).StatesMeet
        (fun s => LockedTable.EveryVersion (fun _ row => row.Dated) s.db.models) State.empty rollout ↔
      (registry modelsBucket).ActionsMeet Fresh State.empty rollout) ∧
    ((registry modelsBucket).ActionsMeet Fresh State.empty rollout →
      (registry modelsBucket).StatesMeet
        (fun s => ∀ id model, s.db.models.committed id = some model → model.Dated)
        State.empty rollout) := by
  have hsome : ((registry modelsBucket).run State.empty rollout).isSome := by decide
  obtain ⟨t, ht⟩ := Option.isSome_iff_exists.mp hsome
  exact dated_iff_fresh ht

/-- A successor. -/
def successor : RegisterCall :=
  { challenger with
    version := "v1.1"
    versionLength := by decide }

/-- It takes over, and the first model comes back. -/
def returning : List Action :=
  let input : Input := { now := 2, isoformat := "", id := ⟨"m2"⟩ }
  rollout ++ .start 0 (.register successor) :: List.replicate 5 (.exec 0 input) ++
    .start 1 (.promote ⟨⟨"m2"⟩, ⟨"admin-1"⟩⟩) :: List.replicate 5 (.exec 1 input) ++
    .start 1 (.promote ⟨⟨"m1"⟩, ⟨"admin-1"⟩⟩) :: List.replicate 5 (.exec 1 input)

/-- It is in production, and dated as deprecated. -/
theorem not_dated_returning :
    ¬ ∀ s, (registry modelsBucket).Reachable s →
      ∀ id model, s.db.models.committed id = some model → model.Dated := by
  intro hall
  have hrun : ((registry modelsBucket).run State.empty returning).map (fun s =>
      (s.db.models.committed ⟨"m1"⟩).map fun model => (model.status, model.deprecatedAt))
      = some (some (.PRODUCTION, some 2)) := by
    decide
  obtain ⟨s, -, hs, hmodel⟩ := Machine.reachable_of_map_run (m := registry modelsBucket) rfl hrun
  obtain ⟨model, hmodel, hdates⟩ := Option.map_eq_some_iff.mp hmodel
  obtain ⟨hstatus, hdeprecated⟩ := Prod.mk.inj hdates
  have hiff := (hall s hs ⟨"m1"⟩ model hmodel).1
  rw [hstatus, hdeprecated] at hiff
  exact absurd (hiff.mp rfl) (by decide)

end RoadVisionAI.ModelRegistry
