import RoadVisionAI.Detection.ModelRegistry

/-!
# What a statement of the registry can do

The one case analysis of `register` and `promote`.  A statement reads and goes on (`Proc.Reads`),
ends its request (`Proc.Refuses`), stores an object (`Proc.Puts`), writes a row it has locked
(`Proc.Writes`) or commits (`Proc.Commits`): `exec_cases`, `step_cases`.
-/

namespace RoadVisionAI.ModelRegistry

open Python Db Transition

section

variable (bucket : Bucket) (db : Database) (p : ℕ) (input : Input)

/-- The process reads, and goes on. -/
inductive Proc.Reads : Proc → Proc → Prop
  | check {call} (h : db.models.select p
      (fun row => nameVersion row = some (call.name, call.version)) = []) :
      Reads (.register call .started) (.register call .checked)
  | find {call model} (hmodel : (db.models.slots call.modelId).visible p = some model)
      (h : model.isActive = false) :
      Reads (.promote call .started) (.promote call (.found model))
  | select {call model} :
      Reads (.promote call (.found model))
        (.promote call (.retiring model input.now (db.models.select p AiModel.isActive)))
  /-- The row the bulk `UPDATE` has come to is gone, or no longer active. -/
  | skip {call model now id selected}
      (h : ∀ row, (db.models.slots id).visible p = some row → row.isActive = false) :
      Reads (.promote call (.retiring model now (id :: selected)))
        (.promote call (.retiring model now selected))

/-- The request ends with an error response. -/
inductive Proc.Refuses : Proc → Prop
  | exists {call} (h : db.models.select p
      (fun row => nameVersion row = some (call.name, call.version)) ≠ []) :
      Refuses (.register call .started)
  | missing {call} (h : (db.models.slots call.modelId).visible p = none) :
      Refuses (.promote call .started)
  | active {call model} (hmodel : (db.models.slots call.modelId).visible p = some model)
      (h : model.isActive = true) : Refuses (.promote call .started)

/-- The process stores an object of the bucket. -/
inductive Proc.Puts : Proc → String → ByteArray → Proc → Prop
  | weights {call} :
      Puts (.register call .checked) call.weightsObject call.weights (.register call .weightsStored)
  | config {call} :
      Puts (.register call .weightsStored) call.configObject
        (modelConfig call.classMapping input.isoformat) (.register call .configStored)

/-- The process writes a row. -/
inductive Proc.Writes : Proc → Uuid → AiModel → Proc → Prop
  | insert {call} (hchecks : (call.row bucket input.now).Checks) (hid : input.id ∉ db.models.keys)
      (hadmits : db.models.Admits nameVersion p input.id (call.row bucket input.now)) :
      Writes (.register call .configStored) input.id (call.row bucket input.now)
        (.register call (.inserted input.id))
  | retire {call model now id selected row}
      (hrow : (db.models.slots id).visible p = some row) (hactive : row.isActive = true)
      (hchecks : (row.retire now).Checks) :
      Writes (.promote call (.retiring model now (id :: selected))) id (row.retire now)
        (.promote call (.retiring model now selected))
  | activate {call model now row} (hrow : (db.models.slots call.modelId).visible p = some row)
      (hchecks : (row.activate model input.now).Checks)
      (hadmits : db.models.Admits oneActive p call.modelId (row.activate model input.now)) :
      Writes (.promote call (.retiring model now [])) call.modelId (row.activate model input.now)
        (.promote call (.activated model))

/-- The process commits. -/
inductive Proc.Commits : Proc → AuditLog → Prop
  | register {call id} : Commits (.register call (.inserted id)) (call.auditLog id)
  | promote {call model} : Commits (.promote call (.activated model)) (call.auditLog model)

/-- What the next statement of a process does. -/
inductive Proc.Makes (proc : Proc) : Effect → Proc → Prop
  | read {proc'} (h : proc.Reads db p input proc') : Makes proc .none proc'
  | refuse (h : proc.Refuses db p) : Makes proc .rollback .idle
  | put {objectName data proc'} (h : proc.Puts input objectName data proc') :
      Makes proc (.putObject bucket.name objectName data) proc'
  | write {id row proc'} (hfree : (db.models.slots id).Free p)
      (h : proc.Writes bucket db p input id row proc') :
      Makes proc (.write (db.models.write p id row)) proc'
  | commit {auditLog} (h : proc.Commits auditLog) : Makes proc (.commit auditLog) .idle

end

variable {bucket : Bucket} {db : Database} {p : ℕ} {input : Input}

theorem execRegister_cases {call : RegisterCall} {stage : RegisterStage} {effect : Effect}
    {proc' : Proc} (h : execRegister bucket db p input call stage = some (effect, proc')) :
    (Proc.register call stage).Makes bucket db p input effect proc' := by
  cases stage with
  | started =>
    simp only [execRegister, refuse] at h
    split_ifs at h with hnone
    · cases h; exact .read (.check hnone)
    · cases h; exact .refuse (.exists hnone)
  | checked => cases h; exact .put .weights
  | weightsStored => cases h; exact .put .config
  | configStored =>
    simp only [execRegister] at h
    split_ifs at h with hinsert
    obtain ⟨hchecks, hid, hadmits⟩ := hinsert
    have hfree : (db.models.slots input.id).Free p := LockedTable.free_of_not_mem_keys hid
    cases h; exact .write hfree (.insert hchecks hid hadmits)
  | inserted id => cases h; exact .commit .register

theorem execPromote_cases {call : PromoteCall} {stage : PromoteStage} {effect : Effect}
    {proc' : Proc} (h : execPromote db p input call stage = some (effect, proc')) :
    (Proc.promote call stage).Makes bucket db p input effect proc' := by
  cases stage with
  | started =>
    simp only [execPromote, refuse] at h
    split at h
    next hnone => cases h; exact .refuse (.missing hnone)
    next model hmodel =>
      split_ifs at h with hactive
      · cases h; exact .refuse (.active hmodel hactive)
      · cases h; exact .read (.find hmodel (by simpa using hactive))
  | found model => cases h; exact .read .select
  | retiring model now selected =>
    cases selected with
    | cons id selected =>
      -- one row of the bulk `UPDATE`
      simp only [execPromote, execRetire] at h
      split_ifs at h with hfree
      split at h
      next hnone => cases h; exact .read (.skip (by simp [hnone]))
      next row hrow =>
        split_ifs at h with hactive hchecks
        · cases h; exact .write hfree (.retire hrow hactive hchecks)
        · cases h; exact .read (.skip (by simpa [hrow] using hactive))
    | nil =>
      -- the flush of the model itself
      simp only [execPromote, execActivate] at h
      split at h
      next => cases h
      next row hrow =>
        split_ifs at h with hwrite
        obtain ⟨hfree, hchecks, hadmits⟩ := hwrite
        cases h; exact .write hfree (.activate hrow hchecks hadmits)
  | activated model => cases h; exact .commit .promote

/-- The case analysis. -/
theorem exec_cases {proc proc' : Proc} {effect : Effect}
    (h : exec bucket db p input proc = some (effect, proc')) :
    proc.Makes bucket db p input effect proc' := by
  cases proc with
  | idle => cases h
  | register call stage => exact execRegister_cases h
  | promote call stage => exact execPromote_cases h

/-- What an action does: a request arrives, a process makes its next statement, or fails there. -/
theorem step_cases {s s' : State} {a : Action} (h : step bucket s a = some s') :
    (∃ q request, a = .start q request ∧ s.procs q = .idle ∧ s' = s.after q .none request.proc) ∨
      (∃ q input effect proc, a = .exec q input ∧
        (s.procs q).Makes bucket s.db q input effect proc ∧
        s' = (s.after q effect proc).record ((s.procs q).creates input)) ∨
      (∃ q, a = .fail q ∧ s' = s.after q .rollback .idle) := by
  cases a with
  | start q request =>
    simp only [step] at h
    split at h
    next hidle => exact Or.inl ⟨q, request, rfl, hidle, (Option.some.inj h).symm⟩
    next => cases h
  | exec q input =>
    obtain ⟨⟨effect, proc⟩, hexec, houtcome⟩ := Option.map_eq_some_iff.mp h
    exact Or.inr (Or.inl ⟨q, input, effect, proc, rfl, exec_cases hexec, houtcome.symm⟩)
  | fail q =>
    simp only [step] at h
    split at h
    next => cases h
    next => exact Or.inr (Or.inr ⟨q, rfl, (Option.some.inj h).symm⟩)

/-! ### What goes on record -/

theorem Proc.Reads.creates {proc proc' : Proc} (h : proc.Reads db p input proc') :
    proc.creates input = none := by
  cases h <;> rfl

theorem Proc.Refuses.creates {proc : Proc} (h : proc.Refuses db p) :
    proc.creates input = none := by
  cases h <;> rfl

theorem Proc.Puts.creates {proc proc' : Proc} {objectName : String} {data : ByteArray}
    (h : proc.Puts input objectName data proc') : proc.creates input = none := by
  cases h <;> rfl

theorem Proc.Commits.creates {proc : Proc} {auditLog : AuditLog} (h : proc.Commits auditLog) :
    proc.creates input = none := by
  cases h <;> rfl

/-! ### Frames -/

@[simp]
theorem State.db_record (s : State) (creates : Option (Uuid × RegisterCall)) :
    (s.record creates).db = s.db := by
  cases creates <;> rfl

@[simp]
theorem State.procs_record (s : State) (creates : Option (Uuid × RegisterCall)) :
    (s.record creates).procs = s.procs := by
  cases creates <;> rfl

@[simp]
theorem State.procs_after_self (s : State) (p : ℕ) (effect : Effect) (proc : Proc) :
    (s.after p effect proc).procs p = proc :=
  Function.update_self ..

theorem State.procs_after_of_ne {s : State} {p q : ℕ} {effect : Effect} {proc : Proc}
    (h : q ≠ p) : (s.after p effect proc).procs q = s.procs q :=
  Function.update_of_ne h ..

/-- What holds of the process that has moved and of those that have not holds of all. -/
theorem State.forall_procs_after {s : State} {p : ℕ} {effect : Effect} {proc : Proc}
    {P : ℕ → Proc → Prop} (hself : P p proc) (hothers : ∀ q, q ≠ p → P q (s.procs q)) (q : ℕ) :
    P q ((s.after p effect proc).procs q) :=
  (Function.forall_update_iff s.procs P).mpr ⟨hself, hothers⟩ q

end RoadVisionAI.ModelRegistry
