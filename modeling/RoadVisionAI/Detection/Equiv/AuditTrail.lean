import RoadVisionAI.Detection.Equiv.SingleProduction
import RoadVisionAI.Transition.Ledger

/-!
# The audit log of the registry

What the registry is for, as a machine of its own: models are registered once, and a registered
model can be put into production, in the place of the one before (`ledger`).  Its actions are the
entries of the audit log.  `registry` refines it (`refines_ledger`): a commit is one action of the
ledger (`Shows.commit`), everything else is none, and so the log is a run of the ledger from the
models that were there to the models that are.
-/

namespace RoadVisionAI.ModelRegistry

open Python Db Transition

/-! ### The ledger -/

/-- What there is to know of the registry: the models, and the one in production. -/
structure Ledger where
  models : Finset Uuid
  inProduction : Option Uuid
deriving DecidableEq

/-- An entry of the log, as an action. -/
def Ledger.enter (ledger : Ledger) (entry : AuditLog) : Option Ledger :=
  if entry.action = "MODEL_REGISTERED" then
    if entry.entityId ∈ ledger.models then none
    else some { ledger with models := insert entry.entityId ledger.models }
  else if entry.action = "MODEL_PROMOTED" then
    if entry.entityId ∈ ledger.models then some { ledger with inProduction := entry.entityId }
    else none
  else none

/-- The ledger, from the beginning. -/
def ledger : Machine Ledger AuditLog where
  init l := l = ⟨∅, none⟩
  step := Ledger.enter

/-- The committed rows are the models of the ledger, and the active one is that in production. -/
structure Shows (models : LockedTable Uuid AiModel) (ledger : Ledger) : Prop where
  mem : ∀ id, id ∈ ledger.models ↔ ∃ row, models.committed id = some row
  inProduction : ∀ id, ledger.inProduction = some id ↔
    ∃ row, models.committed id = some row ∧ row.isActive = true

theorem Shows.empty : Shows .empty ⟨∅, none⟩ where
  mem id := by simp [LockedTable.committed, LockedTable.empty, Slot.empty]
  inProduction id := by simp [LockedTable.committed, LockedTable.empty, Slot.empty]

/-- The ledger follows from the committed rows. -/
theorem Shows.congr {models models' : LockedTable Uuid AiModel} {l : Ledger} (h : Shows models l)
    (hsame : ∀ id, models'.committed id = models.committed id) : Shows models' l where
  mem id := by rw [hsame, h.mem]
  inProduction id := by rw [hsame, h.inProduction]

/-! ### What a process is about to commit -/

variable {bucket : Bucket} {db : Database} {p q : ℕ} {input : Input}

/-- A registration is about to commit an inactive row, a promotion rows that are there. -/
def Proc.Enters (models : LockedTable Uuid AiModel) (p : ℕ) : Proc → Prop
  | .register _ (.inserted id) => ∀ row, models.Holds p id row → row.isActive = false
  | .promote _ _ => ∀ k row, models.Holds p k row → ∃ old, models.committed k = some old
  | _ => True

theorem Proc.Enters.frame {models models' : LockedTable Uuid AiModel} {proc : Proc}
    (h : proc.Enters models q) (hframe : LockedTable.Undisturbed q models models') :
    proc.Enters models' q := by
  unfold Proc.Enters at h ⊢
  split at h
  · exact fun row hrow => h row ((hframe.holds _ row).mp hrow)
  · intro k row hrow
    have hrow := (hframe.holds k row).mp hrow
    rw [hframe.committed k row hrow]
    exact h k row hrow
  · trivial

theorem Proc.Reads.enters {proc proc' : Proc} (hreads : proc.Reads db p input proc')
    (h : proc.Enters db.models p) : proc'.Enters db.models p := by
  cases hreads with
  | check => trivial
  | _ => exact h

theorem Proc.Puts.enters {models : LockedTable Uuid AiModel} {proc proc' : Proc}
    {objectName : String} {data : ByteArray} (hputs : proc.Puts input objectName data proc') :
    proc'.Enters models p := by
  cases hputs <;> trivial

/-- A row that a promotion writes is committed: it has seen it, and has inserted none. -/
theorem enters_write_promote {models : LockedTable Uuid AiModel} {id : Uuid} {row old : AiModel}
    (h : ∀ k row, models.Holds p k row → ∃ old, models.committed k = some old)
    (hold : (models.slots id).visible p = some old) :
    ∀ k row', (models.write p id row).Holds p k row' →
      ∃ old, (models.write p id row).committed k = some old := by
  intro k row' hrow'
  rw [LockedTable.committed_write]
  by_cases hk : k = id
  · rcases Slot.visible_cases hold with hown | ⟨hcommitted, -⟩
    · exact hk ▸ h id old hown
    · exact ⟨old, hk ▸ hcommitted⟩
  · exact h k row' ((LockedTable.holds_write_of_ne hk).mp hrow')

theorem Proc.Writes.enters {proc proc' : Proc} {id : Uuid} {row : AiModel}
    (hwrites : proc.Writes bucket db p input id row proc') (h : proc.Enters db.models p) :
    proc'.Enters (db.models.write p id row) p := by
  cases hwrites with
  | insert =>
    intro row' hrow'
    have hsame := hrow'.symm.trans LockedTable.holds_write_self
    obtain ⟨-, rfl⟩ := Prod.mk.inj (Option.some.inj hsame)
    rfl
  | retire hold => exact enters_write_promote h hold
  | activate hold => exact enters_write_promote h hold

/-- What every process is about to commit. -/
def Entering (s : State) : Prop := ∀ p, (s.procs p).Enters s.db.models p

theorem Proc.Makes.entering {s : State} {effect : Effect} {proc' : Proc} (hs : Entering s)
    (hmakes : (s.procs p).Makes bucket s.db p input effect proc') :
    Entering (s.after p effect proc') := by
  have hown := hs p
  have hothers : ∀ {models}, (∀ q, q ≠ p → LockedTable.Undisturbed q s.db.models models) →
      ∀ q, q ≠ p → (s.procs q).Enters models q := fun hframe q hq => (hs q).frame (hframe q hq)
  refine State.forall_procs_after
    (P := fun q proc => proc.Enters (effect.apply p s.db).models q) ?_ ?_
  · cases hmakes with
    | read hreads => exact hreads.enters hown
    | refuse => trivial
    | put hputs => exact hputs.enters
    | write _ hwrites => exact hwrites.enters hown
    | commit => trivial
  · cases hmakes with
    | read => exact fun q _ => hs q
    | refuse => exact hothers fun q hq => LockedTable.undisturbed_rollback hq
    | put => exact fun q _ => hs q
    | write hfree => exact hothers fun q hq => LockedTable.undisturbed_write hq hfree
    | commit => exact hothers fun q hq => LockedTable.undisturbed_commit hq

theorem entering_step {s s' : State} {a : Action} (hs : Entering s) (hsound : Sound s)
    (hstep : step bucket s a = some s') : Entering s' := by
  rcases step_cases hstep with ⟨p, request, rfl, hidle, rfl⟩ |
    ⟨p, input, effect, proc', rfl, hmakes, rfl⟩ | ⟨p, rfl, rfl⟩
  · refine State.forall_procs_after
      (P := fun q proc => proc.Enters s.db.models q) ?_ fun q _ => hs q
    have hnone : s.db.models.HoldsNothing p := by
      have := hsound.keeps p
      rwa [hidle] at this
    cases request with
    | register => trivial
    | promote => exact fun k row hrow => absurd hrow (hnone k row)
  · simpa [Entering] using hmakes.entering hs
  · refine State.forall_procs_after
      (P := fun q proc => proc.Enters (s.db.models.rollback p) q) trivial fun q hq => ?_
    exact (hs q).frame (LockedTable.undisturbed_rollback hq)

theorem invariant_entering : (registry bucket).Invariant fun s => Sound s ∧ Entering s :=
  invariant_sound.and (fun _ hs => hs ▸ fun _ => trivial)
    fun _ _ _ hsound hs hstep => entering_step hs hsound hstep

/-! ### A commit is an entry -/

theorem ledger_registered {l : Ledger} {call : RegisterCall} {id : Uuid} (h : id ∉ l.models) :
    ledger.step l (call.auditLog id) = some { l with models := insert id l.models } := by
  simp [ledger, Ledger.enter, RegisterCall.auditLog, h]

theorem ledger_promoted {l : Ledger} {call : PromoteCall} {model : AiModel}
    (h : call.modelId ∈ l.models) :
    ledger.step l (call.auditLog model) = some { l with inProduction := call.modelId } := by
  simp [ledger, Ledger.enter, PromoteCall.auditLog, h]

/-- The commit of a registration: one more row, and none in production. -/
theorem Shows.register {models : LockedTable Uuid AiModel} {l : Ledger} {id : Uuid} {row : AiModel}
    (h : Shows models l) (hinserts : models.Inserts p id row) (hactive : row.isActive = false) :
    Shows (models.commit p) { l with models := insert id l.models } := by
  have hself : (models.commit p).committed id = some row :=
    LockedTable.committed_commit_of_holds hinserts.holds
  have hother : ∀ k, k ≠ id → (models.commit p).committed k = models.committed k := fun k hk =>
    LockedTable.committed_commit_of_not_holds fun r hr => hk (hinserts.only k r hr)
  constructor
  · intro k
    by_cases hk : k = id
    · rw [hk, hself]
      simp
    · rw [hother k hk, ← h.mem]
      simp [hk]
  · intro k
    rw [h.inProduction]
    by_cases hk : k = id
    · rw [hk, hself, hinserts.new]
      simp [hactive]
    · rw [hother k hk]

/-- The commit of a promotion: the same rows, and the index leaves one in production. -/
theorem Shows.promote {models : LockedTable Uuid AiModel} {l : Ledger} {id : Uuid} {row : AiModel}
    (h : Shows models l) (hunique : LockedTable.UniqueIndex oneActive models)
    (hheld : models.Holds p id row) (hactive : row.isActive = true)
    (hthere : ∀ k row, models.Holds p k row → ∃ old, models.committed k = some old) :
    Shows (models.commit p) { l with inProduction := id } := by
  have hself : (models.commit p).committed id = some row :=
    LockedTable.committed_commit_of_holds hheld
  constructor
  · intro k
    rw [h.mem]
    by_cases hk : ∃ r, models.Holds p k r
    · obtain ⟨r, hr⟩ := hk
      exact iff_of_true (hthere k r hr) ⟨r, LockedTable.committed_commit_of_holds hr⟩
    · rw [LockedTable.committed_commit_of_not_holds fun r hr => hk ⟨r, hr⟩]
  · intro k
    constructor
    · intro hk
      obtain rfl := Option.some.inj hk
      exact ⟨row, hself, hactive⟩
    · rintro ⟨row', hrow', hactive'⟩
      by_contra hne
      have hne : k ≠ id := fun hk => hne (congrArg some hk.symm)
      exact (hunique.commit p).committed k id row' row hne hrow' hself
        (conflict_oneActive.mpr ⟨hactive', hactive⟩)

/-- A commit is one action of the ledger. -/
theorem Shows.commit {proc : Proc} {auditLog : AuditLog} {l : Ledger} (h : Shows db.models l)
    (hunique : LockedTable.UniqueIndex oneActive db.models)
    (hcommits : proc.Commits auditLog) (hkeeps : proc.Keeps db.models p)
    (henters : proc.Enters db.models p) :
    ∃ l', ledger.step l auditLog = some l' ∧ Shows (db.models.commit p) l' := by
  cases hcommits with
  | @register _ id =>
    obtain ⟨hnew, ⟨row, hrow⟩, honly⟩ := hkeeps
    have hfresh : id ∉ l.models := by
      rw [h.mem, hnew]
      rintro ⟨_, ⟨⟩⟩
    exact ⟨_, ledger_registered hfresh, h.register ⟨hnew, hrow, honly⟩ (henters row hrow)⟩
  | @promote call =>
    obtain ⟨row, hrow, hactive⟩ := hkeeps
    have hmem : call.modelId ∈ l.models := (h.mem _).mpr (henters _ row hrow)
    exact ⟨_, ledger_promoted hmem, h.promote hunique hrow hactive henters⟩

/-! ### The log is a run of the ledger -/

/-- What a state logs and shows. -/
abbrev Explains : State → State → Prop :=
  Machine.Explains ledger (fun s => s.db.auditLogs) id fun s => Shows s.db.models

/-- What neither commits a row nor logs. -/
theorem explains_of_same {s t : State} (hlogs : t.db.auditLogs = s.db.auditLogs)
    (hrows : ∀ id, t.db.models.committed id = s.db.models.committed id) : Explains s t :=
  .of_same hlogs fun _ h => h.congr hrows

theorem explains_step {s s' : State} {a : Action} (hs : Sound s ∧ Entering s)
    (hstep : step bucket s a = some s') : Explains s s' := by
  rcases step_cases hstep with ⟨p, request, rfl, -, rfl⟩ |
    ⟨p, input, effect, proc', rfl, hmakes, rfl⟩ | ⟨p, rfl, rfl⟩
  · exact explains_of_same rfl fun _ => rfl
  · suffices h : Explains s (s.after p effect proc') by
      simpa only [Explains, Machine.Explains, State.db_record] using h
    have hkeeps := hs.1.keeps p
    have henters := hs.2 p
    generalize s.procs p = proc at hmakes hkeeps henters
    cases hmakes with
    | read => exact explains_of_same rfl fun _ => rfl
    | refuse => exact explains_of_same rfl fun _ => rfl
    | put => exact explains_of_same rfl fun _ => rfl
    | write => exact explains_of_same rfl fun _ => LockedTable.committed_write
    | commit hcommits =>
      exact .of_entry rfl fun l hl => hl.commit hs.1.unique hcommits hkeeps henters
  · exact explains_of_same rfl fun _ => rfl

theorem explains_of_leads {s t : State} (hs : (registry bucket).Reachable s)
    (hst : (registry bucket).Leads s t) :
    ∃ rest, t.db.auditLogs = s.db.auditLogs ++ rest ∧
      ∀ l, Shows s.db.models l → ∃ l', Shows t.db.models l' ∧ ledger.run l rest = some l' := by
  have hexplains : Explains s t :=
    Machine.explains_of_leads invariant_entering (fun _ _ _ => explains_step)
      (invariant_entering.holds hs) hst
  obtain ⟨rest, hlogs, hrun⟩ := hexplains
  exact ⟨rest, by rwa [List.map_id] at hlogs, hrun⟩

/-- **The audit log tells the whole story.**  The log is only ever appended to; from any reachable
state to any later one, what has been appended is a run of the ledger, in which a model is
registered once, and promoted only after that, from the models and the production model that were
committed to those that are. -/
theorem refines_ledger {s t : State} (hs : (registry bucket).Reachable s)
    (hst : (registry bucket).Leads s t) :
    ∃ before after rest, Shows s.db.models before ∧ Shows t.db.models after ∧
      t.db.auditLogs = s.db.auditLogs ++ rest ∧ ledger.run before rest = some after ∧
      ledger.run ⟨∅, none⟩ t.db.auditLogs = some after := by
  obtain ⟨s₀, rfl, hs₀⟩ := id hs
  have hempty : (registry bucket).Reachable State.empty := ⟨_, rfl, .refl _⟩
  -- from the empty registry the whole log is what has been appended
  obtain ⟨logs, hlogs, hrun⟩ := explains_of_leads hempty hs₀
  obtain ⟨before, hbefore, hfirst⟩ := hrun _ Shows.empty
  obtain ⟨rest, hrest, hrun'⟩ := explains_of_leads hs hst
  obtain ⟨after, hafter, hsecond⟩ := hrun' before hbefore
  have hwhole : t.db.auditLogs = logs ++ rest := by rw [hrest, hlogs]; rfl
  exact ⟨before, after, rest, hbefore, hafter, hrest, hsecond,
    hwhole ▸ Machine.run_append hfirst hsecond⟩

/-- After a registration and a promotion the ledger has the model, in production. -/
theorem refines_ledger_rollout :
    ∃ t, (registry modelsBucket).run State.empty rollout = some t ∧
      Shows t.db.models ⟨{⟨"m1"⟩}, some ⟨"m1"⟩⟩ := by
  have hrun : ((registry modelsBucket).run State.empty rollout).map (fun t => t.db.auditLogs)
      = some [challenger.auditLog ⟨"m1"⟩,
          PromoteCall.auditLog ⟨⟨"m1"⟩, ⟨"admin-1"⟩⟩ (challenger.row modelsBucket 1)] := by
    rfl
  obtain ⟨t, ht, -, hlogs⟩ := Machine.reachable_of_map_run (m := registry modelsBucket) rfl hrun
  have hempty : (registry modelsBucket).Reachable State.empty := ⟨_, rfl, .refl _⟩
  obtain ⟨-, after, -, -, hafter, -, -, hwhole⟩ := refines_ledger hempty ⟨rollout, ht⟩
  rw [hlogs] at hwhole
  have heq : after = ⟨{⟨"m1"⟩}, some ⟨"m1"⟩⟩ := Option.some.inj (hwhole.symm.trans (by decide))
  exact ⟨t, ht, heq ▸ hafter⟩

end RoadVisionAI.ModelRegistry
