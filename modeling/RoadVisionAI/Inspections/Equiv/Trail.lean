import RoadVisionAI.Inspections.Equiv.Coverage
import RoadVisionAI.Inspections.Equiv.Phases
import RoadVisionAI.Inspections.Trail
import RoadVisionAI.Transition.Ledger
import RoadVisionAI.Transition.Projection

/-!
# The audit log tells the story of an inspection

What the log is good for, as a machine of its own: an account of the inspection, whose actions are
the entries of the log (`account`).  `audited` makes the steps of `system` (`projects_system`) and
refines it (`refines_account`): what the log has grown by leads from the texts, the pictures and the
deletion mark as they were to what they are.

The worker logs nothing, but it cannot begin without an entry either: when nothing is logged, and no
analysis is running, nothing changes (`unlogged_unchanged`).

Every process knows what it has flushed, and what it is about to commit (`Prepared`).
-/

namespace RoadVisionAI.Trail

open Python Db Transition Inspections

variable {damageTypes : DamageTypeTable ℚ} {p q : ℕ}

/-! ### The account -/

/-- What there is to know of an inspection from its log. -/
structure Account where
  id : Uuid
  weatherCond : Option String
  notes : Option String
  deleted : Bool
  images : List Uuid
  requested : Bool
deriving DecidableEq

/-- An entry of the log, as an action. -/
def Account.enter (account : Account) (entry : AuditLog) : Option Account :=
  if entry.action = "IMAGE_UPLOADED" then
    if entry.entityId ∈ account.images then none
    else some { account with images := account.images ++ [entry.entityId] }
  else if entry.entityId ≠ account.id then none
  else if entry.action = "INSPECTION_DELETED" then some { account with deleted := true }
  else if entry.action = "ANALYSIS_REQUESTED" then
    if account.images = [] then none else some { account with requested := true }
  else
    match entry.newValue with
    | some (.values set) => some { account with
        weatherCond := set.weatherCond.or account.weatherCond
        notes := set.notes.or account.notes }
    | _ => none

/-- The account of a row and its pictures. -/
def accountOf (row : Inspection) (images : List RoadImage) : Account where
  id := row.id
  weatherCond := row.weatherCond
  notes := row.notes
  deleted := row.deletedAt.isSome
  images := images.map RoadImage.id
  requested := row.status ≠ .EN_ATTENTE

/-- The account, from a new inspection on. -/
def account : Machine Account AuditLog where
  init a := ∃ data actor id now, a = accountOf (create data actor id now) []
  step := Account.enter

/-- What the committed rows show. -/
def State.account (s : State) : Account :=
  accountOf s.base.db.row.committed s.base.db.tables.roadImages

/-! ### The steps -/

/-- What an action does. -/
theorem step_cases {s s' : State} {a : Action} (h : step damageTypes s a = some s') :
    (∃ q request sender, a = .start q request sender ∧ s.base.procs q = .idle ∧
        s' = { s with
          base := s.base.after q .none request.proc
          senders := Function.update s.senders q sender }) ∨
      (∃ q input effect proc, a = .exec q input ∧
        (s.base.procs q).Makes damageTypes s.base.db q input effect proc ∧
        s' = s.after q effect proc) ∨
      (∃ q, a = .fail q ∧ s.base.procs q ≠ .idle ∧
        s' = s.after q .rollback (s.base.procs q).afterFailure) := by
  cases a with
  | start q request sender =>
    simp only [step] at h
    split at h
    next hidle => exact Or.inl ⟨q, request, sender, rfl, hidle, (Option.some.inj h).symm⟩
    next => cases h
  | exec q input =>
    obtain ⟨⟨effect, proc⟩, hexec, rfl⟩ := Option.map_eq_some_iff.mp h
    exact Or.inr (Or.inl ⟨q, input, effect, proc, rfl, exec_cases hexec, rfl⟩)
  | fail q =>
    simp only [step] at h
    split at h
    next => cases h
    next hbusy => exact Or.inr (Or.inr ⟨q, rfl, hbusy, (Option.some.inj h).symm⟩)

/-- Every step is a step of `system`. -/
theorem base_step {s s' : State} {a : Action} (hstep : step damageTypes s a = some s') :
    ∃ b, (system damageTypes).step s.base b = some s'.base := by
  rcases step_cases hstep with ⟨p, request, sender, -, hidle, rfl⟩ |
    ⟨p, input, effect, proc, rfl, -, rfl⟩ | ⟨p, -, hbusy, rfl⟩
  · refine ⟨.start p request, ?_⟩
    simp only [system, Inspections.step, hidle]
  · obtain ⟨outcome, hexec, heq⟩ := Option.map_eq_some_iff.mp hstep
    exact ⟨.exec p input, Option.map_eq_some_iff.mpr ⟨outcome, hexec, congrArg State.base heq⟩⟩
  · have hfail : Inspections.step damageTypes s.base (.fail p)
        = some (s.base.after p .rollback (s.base.procs p).afterFailure) := step_fail hbusy
    exact ⟨.fail p, hfail⟩

/-- `audited` is `system`, with a log. -/
theorem projects_system : (audited damageTypes).Projects (system damageTypes) State.base where
  init := by
    rintro s ⟨data, actor, id, now, senders, rfl⟩
    exact ⟨data, actor, id, now, rfl⟩
  step _ _ _ hstep := Or.inr (base_step hstep)

/-! ### Pending writes -/

/-- `p` is about to commit an `UPDATE` of these columns. -/
def Sets (row : LockedRow Inspection.version) (p : ℕ) (set : Assignments) : Prop :=
  Pending row p fun l => ∃ now, l.write = updateRow set now

/-- Its commit writes them. -/
theorem Sets.commit {row : LockedRow Inspection.version} {set : Assignments} (h : Sets row p set) :
    ∃ updatedAt version, (row.commit p).committed
      = { set.apply row.committed with updatedAt, version } := by
  obtain ⟨l, hl, hp, now, hwrite⟩ := h
  obtain ⟨updatedAt, version, hrow⟩ := updateRow_eq set now row.committed
  refine ⟨updatedAt, version, ?_⟩
  rw [LockedRow.commit_of_held hl hp, ← hrow, ← row.current l hl, ← hwrite]
  rfl

/-- Every pending write is an `UPDATE`. -/
def Assigns (row : LockedRow Inspection.version) : Prop :=
  ∀ l, row.lock = some l → ∃ set now, l.write = updateRow set now

theorem id_updateRow (set : Assignments) (now : ℕ) (row : Inspection) :
    (updateRow set now row).id = row.id := by
  obtain ⟨updatedAt, version, h⟩ := updateRow_eq set now row
  rw [h]
  rfl

/-- An effect keeps the id of the row. -/
theorem id_apply {db : Database} {effect : Effect} (h : Assigns db.row)
    (hsound : effect.Sound p db) : (effect.apply p db).row.committed.id = db.row.committed.id := by
  rcases committed_apply_cases hsound with heq | ⟨l, hl, -, hwrite⟩
  · rw [heq]
  · obtain ⟨set, now, hset⟩ := h l hl
    rw [hwrite, hset, id_updateRow]

/-! ### What a process is about to commit -/

/-- What a process has flushed, and what it is about to write. -/
def Prepared (db : Database) (sender : Sender) (flushed : Option AuditLog) (p : ℕ) : Proc → Prop
  | .patch .updated => ∃ body, flushed = some (updateLog db.row.committed.id sender body) ∧
      Sets db.row p body.values
  | .softDelete .updated => flushed = some (deletionLog db.row.committed.id sender) ∧
      ∃ now, Sets db.row p { deletedAt := some now }
  | .upload (.inserted image) => flushed = some (uploadLog db.row.committed.id sender image)
  | .analyse (.checked _) => flushed = none ∧ db.tables.roadImages ≠ []
  | .analyse .updated => flushed = some (analysisLog db.row.committed.id sender) ∧
      db.tables.roadImages ≠ [] ∧ Sets db.row p { status := some .EN_COURS }
  | .worker (.updated _ _ _) => flushed = none ∧ Sets db.row p { status := some .TERMINEE }
  | .worker .failUpdated => flushed = none ∧ Sets db.row p { status := some .ERREUR }
  | _ => flushed = none

/-- What a process knows survives the statements of the others. -/
theorem Prepared.mono {db db' : Database} {sender : Sender} {flushed : Option AuditLog}
    {proc : Proc} (h : Prepared db sender flushed q proc)
    (hid : db'.row.committed.id = db.row.committed.id)
    (himages : db.tables.roadImages ≠ [] → db'.tables.roadImages ≠ [])
    (hlock : ∀ l, db.row.lock = some l → l.holder = q → db'.row.lock = some l) :
    Prepared db' sender flushed q proc := by
  unfold Prepared at h ⊢
  rw [hid]
  split at h
  · obtain ⟨body, hlog, hsets⟩ := h
    exact ⟨body, hlog, hsets.mono hlock⟩
  · obtain ⟨hlog, now, hsets⟩ := h
    exact ⟨hlog, now, hsets.mono hlock⟩
  · exact h
  · exact ⟨h.1, himages h.2⟩
  · exact ⟨h.1, himages h.2.1, h.2.2.mono hlock⟩
  · exact ⟨h.1, h.2.mono hlock⟩
  · exact ⟨h.1, h.2.mono hlock⟩
  · exact h

/-! ### The invariant -/

/-- The invariant. -/
structure Sound (damageTypes : DamageTypeTable ℚ) (s : State) : Prop where
  inv : Inv damageTypes s.base
  assigns : Assigns s.base.db.row
  prepared : ∀ p, Prepared s.base.db (s.senders p) (s.flushed p) p (s.base.procs p)

section Steps

variable {s : State} {input : Input} {proc proc' : Proc} {effect : Effect}

/-- A process that goes on after a read has flushed its entry if it has inserted a picture. -/
theorem prepared_reads {db : Database} {sender : Sender} {flushed : Option AuditLog}
    (hok : ProcOk damageTypes db p proc) (h : Prepared db sender flushed p proc)
    (hreads : proc.Reads damageTypes db input proc') :
    Prepared db sender ((logOf db.row.committed.id sender proc proc').or flushed) p proc' := by
  cases hreads with
  | insert => exact rfl
  | check himages => exact ⟨h, himages⟩
  | keepDone hdone =>
    -- the run has loaded `EN_COURS`, so it writes
    rw [hok.2.1] at hdone
    cases hdone
  | keepFailed hfailed =>
    have hrunning : _ = InspectionStatus.EN_COURS := hok.2
    rw [hrunning] at hfailed
    cases hfailed
  | _ => exact h

/-- A process that has the lock has flushed its entry. -/
theorem prepared_updates {db : Database} {sender : Sender} {flushed : Option AuditLog}
    {expected : Option ℕ} {set : Assignments} {row : LockedRow Inspection.version}
    (h : Prepared db sender flushed p proc) (hasks : proc.Updates input expected set proc')
    (hcommitted : row.committed = db.row.committed) (hsets : Sets row p set) :
    Prepared { db with row } sender ((logOf db.row.committed.id sender proc proc').or flushed) p
      proc' := by
  cases hasks with
  | @patch body => exact ⟨body, by rw [hcommitted]; rfl, hsets⟩
  | softDelete => exact ⟨by rw [hcommitted]; rfl, _, hsets⟩
  | accept => exact ⟨by rw [hcommitted]; rfl, h.2, hsets⟩
  | finish => exact ⟨h, hsets⟩
  | fail => exact ⟨h, hsets⟩

/-- A statement leaves its process prepared. -/
theorem prepared_makes (hs : Sound damageTypes s)
    (hmakes : (s.base.procs p).Makes damageTypes s.base.db p input effect proc') :
    Prepared (effect.apply p s.base.db) (s.senders p) (s.flushedAfter p proc' effect) p proc' := by
  have hprepared := hs.prepared p
  cases hmakes with
  | read hreads => exact prepared_reads (hs.inv.procs p) hprepared hreads
  | refuse => exact rfl
  | raise => exact rfl
  | update hasks hupdate =>
    rcases updateInspection_cases hupdate with ⟨rfl, rfl⟩ |
      ⟨row, l, rfl, rfl, -, hcommitted, hl, hp, -, hwrite, -⟩
    · exact rfl
    · exact prepared_updates hprepared hasks hcommitted ⟨l, hl, hp, input.now, hwrite⟩
  | commit hcommits =>
    show Prepared _ _ none p proc'
    generalize s.base.procs p = proc at hcommits
    cases hcommits <;> exact rfl

/-- An effect leaves the pending writes `UPDATE`s. -/
theorem assigns_makes (h : Assigns s.base.db.row)
    (hmakes : (s.base.procs p).Makes damageTypes s.base.db p input effect proc') :
    Assigns (effect.apply p s.base.db).row := by
  intro l hl
  cases hmakes with
  | update hasks hupdate =>
    rcases updateInspection_cases hupdate with ⟨rfl, -⟩ |
      ⟨row, l', rfl, -, -, -, hl', -, -, hwrite, -⟩
    · exact h l (LockedRow.lock_rollback hl).1
    · obtain rfl := Option.some.inj (hl'.symm.trans hl)
      exact ⟨_, _, hwrite⟩
  | read => exact h l hl
  | refuse => exact h l (LockedRow.lock_rollback hl).1
  | raise => exact h l (LockedRow.lock_rollback hl).1
  | commit => exact h l (LockedRow.lock_commit hl).1

/-- The invariance, reduced to the process of the step. -/
theorem Sound.after (hs : Sound damageTypes s)
    (hinv : Inv damageTypes (s.base.after p effect proc'))
    (hsound : effect.Sound p s.base.db) (hassigns : Assigns (effect.apply p s.base.db).row)
    (himages : s.base.db.tables.roadImages ≠ [] →
      (effect.apply p s.base.db).tables.roadImages ≠ [])
    (hprepared : Prepared (effect.apply p s.base.db) (s.senders p) (s.flushedAfter p proc' effect) p
      proc') : Sound damageTypes (s.after p effect proc') where
  inv := hinv
  assigns := hassigns
  prepared q := by
    show Prepared (effect.apply p s.base.db) (s.senders q)
      (Function.update s.flushed p (s.flushedAfter p proc' effect) q) q
      ((s.base.after p effect proc').procs q)
    by_cases hq : q = p
    · rw [hq, Function.update_self, State.procs_after_self]
      exact hprepared
    · rw [Function.update_of_ne hq, State.procs_after_of_ne hq]
      exact (hs.prepared q).mono (id_apply hs.assigns hsound) himages
        fun l => lock_apply_of_ne hsound hq

end Steps

/-- Every action preserves the invariant. -/
theorem sound_step {s s' : State} {a : Action} (hs : Sound damageTypes s)
    (hstep : step damageTypes s a = some s') : Sound damageTypes s' := by
  obtain ⟨b, hbase⟩ := base_step hstep
  have hinv := inv_step hs.inv hbase
  have himages := (roadImages_step hbase).ne_nil
  rcases step_cases hstep with ⟨p, request, sender, -, hidle, rfl⟩ |
    ⟨p, input, effect, proc, -, hmakes, rfl⟩ | ⟨p, -, -, rfl⟩
  · refine ⟨hinv, hs.assigns, fun q => ?_⟩
    have hprepared := hs.prepared q
    show Prepared s.base.db (Function.update s.senders p sender q) (s.flushed q) q
      ((s.base.after p .none request.proc).procs q)
    by_cases hq : q = p
    · rw [hq, State.procs_after_self]
      rw [hq, hidle] at hprepared
      cases request <;> exact hprepared
    · rw [Function.update_of_ne hq, State.procs_after_of_ne hq]
      exact hprepared
  · exact hs.after hinv hmakes.sound (assigns_makes hs.assigns hmakes) himages
      (prepared_makes hs hmakes)
  · have hassigns : Assigns (s.base.db.row.rollback p) := fun l hl =>
      hs.assigns l (LockedRow.lock_rollback hl).1
    refine hs.after hinv trivial hassigns himages ?_
    show Prepared _ _ none p _
    unfold Proc.afterFailure
    split <;> exact rfl

theorem invariant_sound : (audited damageTypes).Invariant (Sound damageTypes) where
  init := by
    rintro s ⟨data, actor, id, now, senders, rfl⟩
    refine ⟨invariant_inv.init _ ⟨data, actor, id, now, rfl⟩, fun l hl => ?_, fun p => rfl⟩
    cases hl
  step _ _ _ hs hstep := sound_step hs hstep

/-! ### A commit is an entry -/

section

variable (a : Account) (sender : Sender)

theorem enter_updateLog (body : InspectionUpdate) :
    account.step a (updateLog a.id sender body) = some { a with
      weatherCond := body.values.weatherCond.or a.weatherCond
      notes := body.values.notes.or a.notes } := by
  simp [account, Account.enter, updateLog]

theorem enter_deletionLog :
    account.step a (deletionLog a.id sender) = some { a with deleted := true } := by
  simp [account, Account.enter, deletionLog]

theorem enter_uploadLog (id : Uuid) {image : RoadImage} (h : image.id ∉ a.images) :
    account.step a (uploadLog id sender image)
      = some { a with images := a.images ++ [image.id] } := by
  simp [account, Account.enter, uploadLog, h]

theorem enter_analysisLog (h : a.images ≠ []) :
    account.step a (analysisLog a.id sender) = some { a with requested := true } := by
  simp [account, Account.enter, analysisLog, h]

end

/-- The account, as what a state shows. -/
def Shows (s : State) (a : Account) : Prop := a = s.account

section Commits

variable {s : State} {tables : Tables} {run : Option WorkerRun} {proc proc' : Proc}

/-- A commit that is logged. -/
theorem explains_entry {log : AuditLog} (hlog : s.flushed p = some log)
    (hstep : account.step s.account log = some (s.after p (.commit tables run) proc').account) :
    Machine.Explains account State.auditLogs id Shows s (s.after p (.commit tables run) proc') := by
  have hlogs : (s.after p (.commit tables run) proc').auditLogs = s.auditLogs ++ [log] := by
    show s.auditLogs ++ (s.flushed p).toList = _
    rw [hlog]
    rfl
  refine .of_entry hlogs ?_
  rintro a rfl
  exact ⟨_, hstep, rfl⟩

/-- A commit that is not. -/
theorem explains_unlogged (hlog : s.flushed p = none)
    (hsame : (s.after p (.commit tables run) proc').account = s.account) :
    Machine.Explains account State.auditLogs id Shows s (s.after p (.commit tables run) proc') := by
  refine .of_same ?_ fun a ha => ha.trans hsame.symm
  show s.auditLogs ++ (s.flushed p).toList = _
  rw [hlog, Option.toList_none, List.append_nil]

/-- A commit of columns. -/
theorem account_sets {set : Assignments} (hsets : Sets s.base.db.row p set) :
    (s.after p (.commit tables run) proc').account
      = accountOf (set.apply s.base.db.row.committed) tables.roadImages := by
  obtain ⟨updatedAt, version, hrow⟩ := hsets.commit
  show accountOf (s.base.db.row.commit p).committed tables.roadImages = _
  rw [hrow]
  rfl

variable (hs : Sound damageTypes s)
include hs

/-- A commit of rows of other tables. -/
theorem account_unheld (hnot : ¬ (s.base.procs p).Writing) :
    (s.after p (.commit tables run) proc').account
      = accountOf s.base.db.row.committed tables.roadImages := by
  show accountOf (s.base.db.row.commit p).committed tables.roadImages = _
  rw [LockedRow.commit_of_not_held (hs.inv.not_heldBy hnot)]

/-- A commit of a status that follows another. -/
theorem account_status {status : InspectionStatus} (hflying : (s.base.procs p).InFlight)
    (hsets : Sets s.base.db.row p { status := some status }) (hstatus : status ≠ .EN_ATTENTE)
    (htables : tables.roadImages = s.base.db.tables.roadImages) :
    (s.after p (.commit tables run) proc').account = s.account := by
  rw [account_sets hsets, htables, State.account]
  simp [accountOf, Assignments.apply, hstatus, hs.inv.status_of_inFlight hflying]

/-- Every commit is an entry of the account, or leaves it as it is. -/
theorem explains_commit (hproc : s.base.procs p = proc)
    (hcommits : proc.Commits s.base.db tables run proc') :
    Machine.Explains account State.auditLogs id Shows s (s.after p (.commit tables run) proc') := by
  have hprepared := hs.prepared p
  rw [hproc] at hprepared
  cases hcommits with
  | patch =>
    obtain ⟨body, hlog, hsets⟩ := hprepared
    refine explains_entry hlog ((enter_updateLog s.account _ body).trans ?_)
    rw [account_sets hsets]
    rfl
  | softDelete =>
    obtain ⟨hlog, now, hsets⟩ := hprepared
    refine explains_entry hlog ((enter_deletionLog s.account _).trans ?_)
    rw [account_sets hsets]
    rfl
  | upload hfresh =>
    have hentry := enter_uploadLog s.account (s.senders p) s.base.db.row.committed.id hfresh
    refine explains_entry hprepared (hentry.trans ?_)
    rw [account_unheld hs (by rw [hproc]; exact id), accountOf, List.map_append]
    rfl
  | accept =>
    obtain ⟨hlog, himages, hsets⟩ := hprepared
    have hpictured : s.account.images ≠ [] := by
      simpa [State.account, accountOf] using himages
    refine explains_entry hlog ((enter_analysisLog s.account _ hpictured).trans ?_)
    rw [account_sets hsets]
    rfl
  | run hcommit =>
    exact explains_unlogged hprepared.1 (account_status hs (by rw [hproc]; trivial) hprepared.2
      (by decide) (roadImages_commitRun hcommit))
  | fail =>
    exact explains_unlogged hprepared.1 (account_status hs (by rw [hproc]; trivial) hprepared.2
      (by decide) rfl)
  | recommend =>
    exact explains_unlogged hprepared (account_unheld hs (by rw [hproc]; exact id))

end Commits

/-- An action commits nothing and logs nothing, or a process commits. -/
theorem step_commits {s s' : State} {a : Action} (hstep : step damageTypes s a = some s') :
    (s'.auditLogs = s.auditLogs ∧ s'.base.db.row.committed = s.base.db.row.committed ∧
        s'.base.db.tables = s.base.db.tables ∧ s'.base.db.lastRun = s.base.db.lastRun) ∨
      ∃ p tables run proc, (s.base.procs p).Commits s.base.db tables run proc ∧
        s' = s.after p (.commit tables run) proc := by
  rcases step_cases hstep with ⟨p, request, sender, -, -, rfl⟩ |
    ⟨p, input, effect, proc, -, hmakes, rfl⟩ | ⟨p, -, -, rfl⟩
  · exact Or.inl ⟨rfl, rfl, rfl, rfl⟩
  · cases hmakes with
    | read => exact Or.inl ⟨List.append_nil _, rfl, rfl, rfl⟩
    | refuse => exact Or.inl ⟨List.append_nil _, LockedRow.committed_rollback, rfl, rfl⟩
    | raise => exact Or.inl ⟨List.append_nil _, LockedRow.committed_rollback, rfl, rfl⟩
    | update _ hupdate =>
      rcases updateInspection_cases hupdate with ⟨rfl, -⟩ | ⟨row, l, rfl, -, -, hcommitted, -⟩
      · exact Or.inl ⟨List.append_nil _, LockedRow.committed_rollback, rfl, rfl⟩
      · exact Or.inl ⟨List.append_nil _, hcommitted, rfl, rfl⟩
    | commit hcommits => exact Or.inr ⟨p, _, _, _, hcommits, rfl⟩
  · exact Or.inl ⟨List.append_nil _, LockedRow.committed_rollback, rfl, rfl⟩

theorem explains_step {s s' : State} {a : Action} (hs : Sound damageTypes s)
    (hstep : (audited damageTypes).step s a = some s') :
    Machine.Explains account State.auditLogs id Shows s s' := by
  rcases step_commits hstep with ⟨hlogs, hrow, htables, -⟩ | ⟨p, tables, run, proc, hcommits, rfl⟩
  · refine .of_same hlogs fun a ha => ha.trans ?_
    rw [State.account, State.account, hrow, htables]
  · exact explains_commit hs rfl hcommits

/-- **The audit log tells the story.**  The log of a reachable inspection is the entry of its
creation and a run of the account, from a new inspection to what the committed rows show; and
whatever is done from there, what the log grows by is a run of the account to what they show
then. -/
theorem refines_account {s t : State} (hs : (audited damageTypes).Reachable s)
    (hst : (audited damageTypes).Leads s t) :
    (∃ data actor id now logs, s.auditLogs = creationLog (create data actor id now) :: logs ∧
        account.run (accountOf (create data actor id now) []) logs = some s.account) ∧
      ∃ rest, t.auditLogs = s.auditLogs ++ rest ∧
        account.run s.account rest = some t.account := by
  have hexplains : ∀ {s t}, (audited damageTypes).Reachable s → (audited damageTypes).Leads s t →
      Machine.Explains account State.auditLogs id Shows s t := fun hs hst =>
    Machine.explains_of_leads invariant_sound (fun _ _ _ => explains_step)
      (invariant_sound.holds hs) hst
  obtain ⟨s₀, hinit, hlead⟩ := id hs
  have hs₀ : (audited damageTypes).Reachable s₀ := ⟨s₀, hinit, .refl s₀⟩
  constructor
  · obtain ⟨logs, hlogs, hrun⟩ := hexplains hs₀ hlead
    obtain ⟨a, rfl, hrun⟩ := hrun _ rfl
    obtain ⟨data, actor, id, now, senders, rfl⟩ := hinit
    exact ⟨data, actor, id, now, logs, by rw [hlogs, List.map_id]; rfl, hrun⟩
  · obtain ⟨rest, hrest, hrun⟩ := hexplains hs hst
    obtain ⟨a, rfl, hrun⟩ := hrun _ rfl
    exact ⟨rest, by rw [hrest, List.map_id], hrun⟩

/-- The agent, with a picture. -/
def surveyor : Sender where
  actor := ⟨"agent-1"⟩
  filename := some "road.png"

/-- The upload of a picture. -/
def picturing : List Action :=
  .start 0 .uploadImage surveyor :: List.replicate 4 (.exec 0 (quietInput "image-1"))

/-- A PATCH and an analysis. -/
def following : List Action :=
  .start 1 (.patch { version := 1, weatherCond := some (some "wet"), notes := none }) surveyor ::
    List.replicate 3 (.exec 1 (quietInput "")) ++
      .start 2 .analyse surveyor :: List.replicate 4 (.exec 2 (quietInput ""))

/-- The inspection right after its creation. -/
def recorded : State := .created newInspection fun _ => surveyor

theorem init_recorded : (audited noTypes).init recorded := ⟨_, _, _, _, _, rfl⟩

/-- The picture is logged, and then the PATCH and the request. -/
theorem refines_account_following :
    ∃ s t, (audited noTypes).run recorded picturing = some s ∧
      (audited noTypes).run s following = some t ∧
      s.auditLogs.map AuditLog.action = ["INSPECTION_CREATED", "IMAGE_UPLOADED"] ∧
      (∃ data actor id now logs, s.auditLogs = creationLog (create data actor id now) :: logs ∧
        account.run (accountOf (create data actor id now) []) logs = some s.account) ∧
      ∃ rest, t.auditLogs = s.auditLogs ++ rest ∧
        rest.map AuditLog.action = ["INSPECTION_UPDATED", "ANALYSIS_REQUESTED"] ∧
        account.run s.account rest = some t.account := by
  have heval : (((audited noTypes).run recorded picturing).bind fun s =>
      ((audited noTypes).run s following).map fun t =>
        (s.auditLogs.map AuditLog.action,
          (t.auditLogs.drop s.auditLogs.length).map AuditLog.action))
      = some (["INSPECTION_CREATED", "IMAGE_UPLOADED"],
          ["INSPECTION_UPDATED", "ANALYSIS_REQUESTED"]) := by
    decide +kernel
  obtain ⟨s, hs, hmore⟩ := Option.bind_eq_some_iff.mp heval
  obtain ⟨t, ht, hlogs⟩ := Option.map_eq_some_iff.mp hmore
  obtain ⟨hpictured, hfollowing⟩ := Prod.mk.inj hlogs
  obtain ⟨hstory, rest, hrest, hrun⟩ :=
    refines_account ⟨recorded, init_recorded, picturing, hs⟩ ⟨following, ht⟩
  refine ⟨s, t, hs, ht, hpictured, hstory, rest, hrest, ?_, hrun⟩
  rwa [hrest, List.drop_left] at hfollowing

/-! ### Nothing changes unlogged -/

/-- The row, what the worker has written, and the pictures. -/
def State.content (s : State) : Inspection × Tables × Option WorkerRun :=
  (s.base.db.row.committed, { s.base.db.tables with recommendations := [] }, s.base.db.lastRun)

/-- No analysis is running. -/
def Resting (s : State) : Prop := s.base.db.row.committed.status ≠ .EN_COURS

theorem silent_step {s s' : State} {a : Action} (hs : Sound damageTypes s)
    (hstep : (audited damageTypes).step s a = some s') :
    Machine.Silent State.auditLogs Resting State.content s s' := by
  rcases step_commits hstep with ⟨hlogs, hrow, htables, hrun⟩ |
    ⟨p, tables, run, proc, hcommits, rfl⟩
  · refine ⟨[], by rw [hlogs, List.append_nil], fun _ hrest => ⟨?_, ?_⟩⟩
    · rwa [Resting, hrow]
    · rw [State.content, State.content, hrow, htables, hrun]
  · have hprepared := hs.prepared p
    have hresting : (s.base.procs p).InFlight → ¬ Resting s := fun hflying hrest =>
      hrest (hs.inv.status_of_inFlight hflying)
    have hfree : ¬ (s.base.procs p).Writing → s.base.db.row.commit p = s.base.db.row := fun hnot =>
      LockedRow.commit_of_not_held (hs.inv.not_heldBy hnot)
    refine ⟨(s.flushed p).toList, rfl, fun hnil hrest => ?_⟩
    generalize s.base.procs p = proc at hcommits hprepared hresting hfree
    cases hcommits with
    | patch =>
      obtain ⟨body, hlog, -⟩ := hprepared
      rw [hlog] at hnil
      cases hnil
    | softDelete =>
      rw [hprepared.1] at hnil
      cases hnil
    | upload =>
      have hlog : s.flushed p = some _ := hprepared
      rw [hlog] at hnil
      cases hnil
    | accept =>
      rw [hprepared.1] at hnil
      cases hnil
    | run => exact absurd hrest (hresting trivial)
    | fail => exact absurd hrest (hresting trivial)
    | recommend =>
      have hrow : s.base.db.row.commit p = s.base.db.row := hfree id
      refine ⟨?_, ?_⟩
      · show (s.base.db.row.commit p).committed.status ≠ _
        rw [hrow]
        exact hrest
      · show ((s.base.db.row.commit p).committed, _, _) = _
        rw [hrow]
        rfl

/-- **Nothing changes unlogged.**  From a reachable state in which no analysis is running, as long
as nothing is logged the row, its version and time included, the pictures and the results of the
analysis stay as they are, whatever is tried. -/
theorem unlogged_unchanged {s t : State} (hs : (audited damageTypes).Reachable s)
    (hst : (audited damageTypes).Leads s t) (hrest : s.base.db.row.committed.status ≠ .EN_COURS)
    (hlogs : t.auditLogs = s.auditLogs) :
    t.content = s.content ∧ t.base.db.row.committed.status ≠ .EN_COURS := by
  obtain ⟨hresting, hsame⟩ := Machine.same_of_silent invariant_sound (fun _ _ _ => silent_step)
    (invariant_sound.holds hs) hst hrest hlogs
  exact ⟨hsame, hresting⟩

/-- A PATCH of an old version, and a request that fails. -/
def refused : List Action :=
  .start 1 (.patch { version := 7, weatherCond := some (some "wet"), notes := none }) surveyor ::
    List.replicate 2 (.exec 1 (quietInput "")) ++
      [.start 2 .analyse surveyor, .exec 2 (quietInput ""), .fail 2]

/-- A PATCH that is refused and a request that fails leave the inspection as it was. -/
theorem unlogged_unchanged_refused :
    ∃ s t, (audited noTypes).run recorded picturing = some s ∧
      (audited noTypes).run s refused = some t ∧
      t.content = s.content ∧ t.base.db.row.committed.status ≠ .EN_COURS := by
  have heval : (((audited noTypes).run recorded picturing).bind fun s =>
      ((audited noTypes).run s refused).map fun t =>
        (decide (s.base.db.row.committed.status ≠ .EN_COURS),
          decide (t.auditLogs = s.auditLogs))) = some (true, true) := by
    decide +kernel
  obtain ⟨s, hs, hmore⟩ := Option.bind_eq_some_iff.mp heval
  obtain ⟨t, ht, hsame⟩ := Option.map_eq_some_iff.mp hmore
  obtain ⟨hrest, hlogs⟩ := Prod.mk.inj hsame
  obtain ⟨hcontent, hresting⟩ := unlogged_unchanged ⟨recorded, init_recorded, picturing, hs⟩
    ⟨refused, ht⟩ (of_decide_eq_true hrest) (of_decide_eq_true hlogs)
  exact ⟨s, t, hs, ht, hcontent, hresting⟩

end RoadVisionAI.Trail
