import RoadVisionAI.Detection.Equiv.RegistryStatements

/-!
# One model in production

The bulk `UPDATE` of `promote` may miss a model that has been activated since its snapshot, and the
check for an active model is made long before the write.  What keeps two models from being active
is `uq_one_active_model` (`LockedTable.UniqueIndex`); that none is left without a successor follows
from what a process holds when it commits (`Proc.Keeps`).  `Sound` collects what holds of every
reachable state, `single_production` reads it off.
-/

namespace RoadVisionAI.ModelRegistry

open Python Db Transition

variable {bucket : Bucket} {db : Database} {p q : ℕ} {input : Input}

/-- What a process holds at its stage, and what it knows of the row it has read. -/
def Proc.Keeps (models : LockedTable Uuid AiModel) (p : ℕ) : Proc → Prop
  | .register _ (.inserted id) =>
    models.committed id = none ∧ (∃ row, models.Holds p id row) ∧
      ∀ k row, models.Holds p k row → k = id
  | .promote _ (.found model) | .promote _ (.retiring model _ _) =>
    model.isActive = false ∧ model.status ≠ .PRODUCTION
  | .promote call (.activated _) =>
    ∃ row, models.Holds p call.modelId row ∧ row.isActive = true
  | _ => ∀ k row, ¬ models.Holds p k row

/-- The invariant. -/
structure Sound (s : State) : Prop where
  unique : LockedTable.UniqueIndex oneActive s.db.models
  production : LockedTable.EveryVersion
    (fun _ row => row.isActive = true ↔ row.status = .PRODUCTION) s.db.models
  keeps : ∀ p, (s.procs p).Keeps s.db.models p
  served : (∃ auditLog ∈ s.db.auditLogs, auditLog.action = "MODEL_PROMOTED") →
    ∃ id row, s.db.models.committed id = some row ∧ row.isActive = true

/-! ### Rows -/

theorem conflict_oneActive {row row' : AiModel} :
    LockedTable.Conflict oneActive row row' ↔ row.isActive = true ∧ row'.isActive = true := by
  simp only [LockedTable.Conflict, oneActive]
  cases row.isActive <;> cases row'.isActive <;> simp

/-- An inactive row is no concern of the index. -/
theorem admits_oneActive_of_inactive {models : LockedTable Uuid AiModel} {id : Uuid}
    {row : AiModel} (h : row.isActive = false) : models.Admits oneActive p id row := by
  have hnone : ∀ row', ¬ LockedTable.Conflict oneActive row row' := by
    intro row' hconflict
    rw [conflict_oneActive, h] at hconflict
    exact Bool.false_ne_true hconflict.1
  exact fun j _ _ => ⟨fun row' _ => hnone row', fun w _ _ => hnone w.2⟩

/-- The promoted row: the one read was neither active nor in production. -/
theorem activate_eq {row model : AiModel} (now : ℕ)
    (h : model.isActive = false ∧ model.status ≠ .PRODUCTION) :
    (row.activate model now).isActive = true ∧
      (row.activate model now).status = .PRODUCTION := by
  simp [AiModel.activate, h.1, h.2]

/-- Whatever is written is active exactly when it is in production. -/
theorem Proc.Writes.production {proc proc' : Proc} {id : Uuid} {row : AiModel}
    (hwrites : proc.Writes bucket db p input id row proc') (hkeeps : proc.Keeps db.models p) :
    row.isActive = true ↔ row.status = .PRODUCTION := by
  cases hwrites with
  | insert => simp [RegisterCall.row]
  | retire => simp [AiModel.retire]
  | activate =>
    obtain ⟨hactive, hstatus⟩ := activate_eq input.now hkeeps
    exact iff_of_true hactive hstatus

/-- Whatever is written is inactive, or admitted by the index. -/
theorem Proc.Writes.admits {proc proc' : Proc} {id : Uuid} {row : AiModel}
    (hwrites : proc.Writes bucket db p input id row proc') :
    db.models.Admits oneActive p id row := by
  cases hwrites with
  | insert => exact admits_oneActive_of_inactive rfl
  | retire => exact admits_oneActive_of_inactive rfl
  | activate _ _ hadmits => exact hadmits

/-! ### What a process keeps -/

/-- A process keeps what it holds while the others write, commit and roll back. -/
theorem Proc.Keeps.frame {models models' : LockedTable Uuid AiModel} {proc : Proc}
    (h : proc.Keeps models q) (hframe : LockedTable.Undisturbed q models models') :
    proc.Keeps models' q := by
  unfold Proc.Keeps at h ⊢
  split at h
  · obtain ⟨hnone, ⟨row, hrow⟩, honly⟩ := h
    refine ⟨(hframe.committed _ row hrow).trans hnone, ⟨row, (hframe.holds _ row).mpr hrow⟩, ?_⟩
    exact fun k row' hrow' => honly k row' ((hframe.holds k row').mp hrow')
  · exact h
  · exact h
  · obtain ⟨row, hrow, hactive⟩ := h
    exact ⟨row, (hframe.holds _ row).mpr hrow, hactive⟩
  · exact LockedTable.HoldsNothing.frame h hframe

/-- After its statement the process is at a stage that fits what it holds. -/
theorem Proc.Reads.keeps {proc proc' : Proc} (hreads : proc.Reads db p input proc')
    (hkeeps : proc.Keeps db.models p)
    (hproduction : LockedTable.EveryVersion
      (fun _ row => row.isActive = true ↔ row.status = .PRODUCTION) db.models) :
    proc'.Keeps db.models p := by
  cases hreads with
  | check => exact hkeeps
  | find hmodel hactive =>
    have hiff := hproduction.visible hmodel
    exact ⟨hactive, fun hstatus => by simp [hiff.mpr hstatus] at hactive⟩
  | select => exact hkeeps
  | skip => exact hkeeps

theorem Proc.Puts.keeps {proc proc' : Proc} {objectName : String} {data : ByteArray}
    (hputs : proc.Puts input objectName data proc') (hkeeps : proc.Keeps db.models p) :
    proc'.Keeps db.models p := by
  cases hputs <;> exact hkeeps

theorem Proc.Writes.keeps {proc proc' : Proc} {id : Uuid} {row : AiModel}
    (hwrites : proc.Writes bucket db p input id row proc') (hkeeps : proc.Keeps db.models p) :
    proc'.Keeps (db.models.write p id row) p := by
  cases hwrites with
  | insert _ hid _ =>
    refine ⟨?_, ⟨_, LockedTable.holds_write_self⟩, ?_⟩
    · exact LockedTable.committed_write.trans (LockedTable.committed_of_not_mem_keys hid)
    · exact (LockedTable.HoldsNothing.insert hkeeps hid).only
  | retire => exact hkeeps
  | activate => exact ⟨_, LockedTable.holds_write_self, (activate_eq input.now hkeeps).1⟩

/-- Nothing is held after a commit or a rollback. -/
theorem keeps_idle_commit (models : LockedTable Uuid AiModel) :
    Proc.idle.Keeps (models.commit p) p :=
  LockedTable.holdsNothing_commit

theorem keeps_idle_rollback (models : LockedTable Uuid AiModel) :
    Proc.idle.Keeps (models.rollback p) p :=
  LockedTable.holdsNothing_rollback

/-- A commit leaves an active model when there was one, or is a promotion. -/
theorem Proc.Commits.served {proc : Proc} {auditLog : AuditLog} (hcommits : proc.Commits auditLog)
    (hkeeps : proc.Keeps db.models p)
    (hserved : auditLog.action = "MODEL_PROMOTED" ∨
      ∃ id row, db.models.committed id = some row ∧ row.isActive = true) :
    ∃ id row, (db.models.commit p).committed id = some row ∧ row.isActive = true := by
  cases hcommits with
  | register =>
    rcases hserved with haction | ⟨id, row, hrow, hactive⟩
    · simp [RegisterCall.auditLog] at haction
    · obtain ⟨hnone, -, honly⟩ := hkeeps
      refine ⟨id, row, ?_, hactive⟩
      rw [LockedTable.committed_commit_of_not_holds, hrow]
      intro row' hholds
      rw [honly id row' hholds, hnone] at hrow
      cases hrow
  | promote =>
    obtain ⟨row, hrow, hactive⟩ := hkeeps
    exact ⟨_, row, LockedTable.committed_commit_of_holds hrow, hactive⟩

/-! ### The invariant -/

theorem sound_empty : Sound State.empty where
  unique := LockedTable.UniqueIndex.empty
  production := LockedTable.EveryVersion.empty
  keeps _ _ _ h := nomatch h
  served := fun ⟨_, hmem, _⟩ => nomatch hmem

/-- One statement keeps the invariant. -/
theorem Proc.Makes.sound {s : State} {effect : Effect} {proc' : Proc} (hs : Sound s)
    (hmakes : (s.procs p).Makes bucket s.db p input effect proc') :
    Sound (s.after p effect proc') := by
  have hown := hs.keeps p
  -- what the statement does to the table decides what everybody keeps
  have hkeeps : ∀ models, (effect.apply p s.db).models = models → proc'.Keeps models p →
      (∀ q, q ≠ p → (s.procs q).Keeps models q) →
      ∀ q, ((s.after p effect proc').procs q).Keeps (effect.apply p s.db).models q := by
    rintro models rfl hself hothers
    exact State.forall_procs_after
      (P := fun q proc => proc.Keeps (effect.apply p s.db).models q) hself hothers
  have hothers : ∀ q, q ≠ p → (s.procs q).Keeps s.db.models q := fun q _ => hs.keeps q
  cases hmakes with
  | read hreads =>
    exact ⟨hs.unique, hs.production, hkeeps _ rfl (hreads.keeps hown hs.production) hothers,
      hs.served⟩
  | refuse hrefuses =>
    exact ⟨hs.unique.rollback p, hs.production.rollback p,
      hkeeps _ rfl (keeps_idle_rollback _) fun q hq =>
        (hs.keeps q).frame (LockedTable.undisturbed_rollback hq),
      hs.served⟩
  | put hputs =>
    exact ⟨hs.unique, hs.production, hkeeps _ rfl (hputs.keeps hown) hothers, hs.served⟩
  | write hfree hwrites =>
    refine ⟨hs.unique.write hfree hwrites.admits, hs.production.write (hwrites.production hown),
      hkeeps _ rfl (hwrites.keeps hown) fun q hq =>
        (hs.keeps q).frame (LockedTable.undisturbed_write hq hfree),
      fun hlog => ?_⟩
    obtain ⟨id, row, hrow, hactive⟩ := hs.served hlog
    exact ⟨id, row, LockedTable.committed_write.trans hrow, hactive⟩
  | commit hcommits =>
    refine ⟨hs.unique.commit p, hs.production.commit p,
      hkeeps _ rfl (keeps_idle_commit _) fun q hq =>
        (hs.keeps q).frame (LockedTable.undisturbed_commit hq),
      ?_⟩
    rintro ⟨auditLog, hmem, haction⟩
    refine hcommits.served hown ?_
    rcases List.mem_append.mp hmem with hold | hnew
    · exact Or.inr (hs.served ⟨auditLog, hold, haction⟩)
    · rw [List.mem_singleton] at hnew
      exact Or.inl (hnew ▸ haction)

theorem sound_step {s s' : State} {a : Action} (hs : Sound s) (hstep : step bucket s a = some s') :
    Sound s' := by
  rcases step_cases hstep with ⟨p, request, rfl, hidle, rfl⟩ |
    ⟨p, input, effect, proc', rfl, hmakes, rfl⟩ | ⟨p, rfl, rfl⟩
  · have hnone : ∀ k row, ¬ s.db.models.Holds p k row := by
      have := hs.keeps p
      rwa [hidle] at this
    have hself : request.proc.Keeps s.db.models p := by
      cases request <;> exact hnone
    have hkeeps : ∀ q, ((s.after p .none request.proc).procs q).Keeps s.db.models q :=
      State.forall_procs_after (P := fun q proc => proc.Keeps s.db.models q) hself
        fun q _ => hs.keeps q
    exact ⟨hs.unique, hs.production, hkeeps, hs.served⟩
  · have hafter := hmakes.sound hs
    exact ⟨by simpa using hafter.unique, by simpa using hafter.production,
      by simpa using hafter.keeps, by simpa using hafter.served⟩
  · have hkeeps : ∀ q, ((s.after p .rollback .idle).procs q).Keeps (s.db.models.rollback p) q :=
      State.forall_procs_after (P := fun q proc => proc.Keeps (s.db.models.rollback p) q)
        (keeps_idle_rollback s.db.models) fun q hq =>
          (hs.keeps q).frame (LockedTable.undisturbed_rollback hq)
    exact ⟨hs.unique.rollback p, hs.production.rollback p, hkeeps, hs.served⟩

theorem invariant_sound : (registry bucket).Invariant Sound where
  init _ hs := hs ▸ sound_empty
  step _ _ _ hs hstep := sound_step hs hstep

/-- **One model in production.**  In every reachable state at most one committed model is active,
exactly one once a promotion has been committed, and a model is active exactly when its status is
`PRODUCTION`. -/
theorem single_production {s : State} (hs : (registry bucket).Reachable s) :
    (∀ id id' row row', s.db.models.committed id = some row →
      s.db.models.committed id' = some row' → row.isActive = true → row'.isActive = true →
      id = id') ∧
    ((∃ auditLog ∈ s.db.auditLogs, auditLog.action = "MODEL_PROMOTED") →
      ∃! id, ∃ row, s.db.models.committed id = some row ∧ row.isActive = true) ∧
    ∀ id row, s.db.models.committed id = some row →
      (row.isActive = true ↔ row.status = .PRODUCTION) := by
  have hsound := invariant_sound.holds hs
  have honce : ∀ id id' row row', s.db.models.committed id = some row →
      s.db.models.committed id' = some row' → row.isActive = true → row'.isActive = true →
      id = id' := by
    intro id id' row row' hrow hrow' hactive hactive'
    by_contra hne
    exact hsound.unique.committed id id' row row' hne hrow hrow'
      (conflict_oneActive.mpr ⟨hactive, hactive'⟩)
  refine ⟨honce, fun hlog => ?_, fun id row hrow => hsound.production id row (Or.inl hrow)⟩
  obtain ⟨id, row, hrow, hactive⟩ := hsound.served hlog
  refine ⟨id, ⟨row, hrow, hactive⟩, ?_⟩
  rintro id' ⟨row', hrow', hactive'⟩
  exact honce id' id row' row hrow' hrow hactive' hactive

/-- The bucket of the default settings. -/
def modelsBucket : Bucket := ⟨"models", by decide⟩

/-- A model with one byte of weights. -/
def challenger : RegisterCall where
  name := "yolo11"
  version := "v1"
  weights := [1].toByteArray
  classMapping := .empty
  actorId := ⟨"admin-1"⟩
  nameLength := by decide
  versionLength := by decide
  weightsSize := by decide

/-- It is registered, then promoted. -/
def rollout : List Action :=
  let input : Input := { now := 1, isoformat := "", id := ⟨"m1"⟩ }
  .start 0 (.register challenger) :: List.replicate 5 (.exec 0 input) ++
    .start 1 (.promote ⟨⟨"m1"⟩, ⟨"admin-1"⟩⟩) :: List.replicate 4 (.exec 1 input)

/-- The state after a promotion. -/
theorem single_production_rollout :
    ∃ s, (registry modelsBucket).Reachable s ∧
      ∃! id, ∃ row, s.db.models.committed id = some row ∧ row.isActive = true := by
  have hrun : ((registry modelsBucket).run State.empty rollout).map
      (fun s => s.db.auditLogs.map AuditLog.action)
      = some ["MODEL_REGISTERED", "MODEL_PROMOTED"] := by
    decide
  obtain ⟨s, -, hs, hlogs⟩ := Machine.reachable_of_map_run (m := registry modelsBucket) rfl hrun
  have hpromoted : "MODEL_PROMOTED" ∈ s.db.auditLogs.map AuditLog.action := by
    rw [hlogs]
    decide
  obtain ⟨auditLog, hmem, haction⟩ := List.mem_map.mp hpromoted
  exact ⟨s, hs, (single_production hs).2.1 ⟨auditLog, hmem, haction⟩⟩

end RoadVisionAI.ModelRegistry
