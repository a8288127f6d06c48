import RoadVisionAI.Inspections.Equiv.NoLostUpdate

/-!
# The state machine SM1

`Inv` is what holds of every reachable state.  Each process knows something of the database at
each stage (`ProcOk`): the row `request_analysis` has loaded is the committed one as long as their
versions agree; a run under way finds the status `EN_COURS` and nothing to clear; a pending write is
the one its stage has made.  The lock belongs to a process that is about to commit, at most one run
is under way, and the outputs are those of the last run exactly when the status is `TERMINEE`
(`OutputsOk`).

`ProcOk.mono` says when what a process knows survives a statement of another one, and `Inv.after`
reduces the invariance to what the statement's own process knows afterwards.  That is
`Proc.Reads.procOk` for the reads, `Proc.Updates.procOk` for the updates of the row, and there is
one lemma for each kind of commit.
-/

namespace RoadVisionAI.Inspections

open Python Db Transition AnalysisWorker

/-! ### The invariant -/

/-- `p` holds the lock, with a pending write that satisfies `P`. -/
def Pending (row : LockedRow Inspection.version) (p : ℕ) (P : RowLock Inspection.version → Prop) :
    Prop :=
  ∃ l, row.lock = some l ∧ l.holder = p ∧ P l

/-- The stored rows are those `analyse` computes on these images. -/
def Ran (damageTypes : DamageTypeTable ℚ) (images : List RoadImage) (outputs : Outputs ℚ) : Prop :=
  ∃ model analysisId processingTimeMs computed,
    analyse model damageTypes images analysisId processingTimeMs = .ok computed ∧
      computed.store = .ok outputs

/-- What a run under way knows besides the status. -/
def WorkerOk (damageTypes : DamageTypeTable ℚ) (db : Database) (p : ℕ) : WorkerStage → Prop
  | .started | .failed => True
  | .loaded row | .selected row _ | .reloaded row => row.status = .EN_COURS
  | .clearedDetections row _ cleared | .clearedScores row _ cleared
  | .clearedResults row _ cleared => row.status = .EN_COURS ∧ cleared = {}
  | .computed row images cleared outputs =>
    row.status = .EN_COURS ∧ cleared = {} ∧ Ran damageTypes images outputs
  | .updated images cleared outputs =>
    cleared = {} ∧ Ran damageTypes images outputs ∧
      Pending db.row p fun l => l.pending.status = .TERMINEE
  | .failUpdated => Pending db.row p fun l => l.pending.status = .ERREUR

/-- What a process knows of the database. -/
def ProcOk (damageTypes : DamageTypeTable ℚ) (db : Database) (p : ℕ) : Proc → Prop
  | .patch .updated | .softDelete .updated =>
    Pending db.row p fun l => l.pending.status = l.base.status
  | .analyse (.loaded row) => Follows Inspection.version row db.row.committed
  | .analyse (.checked row) =>
    Follows Inspection.version row db.row.committed ∧ Startable row.status
  | .analyse .updated =>
    Pending db.row p fun l => Startable l.base.status ∧ l.pending.status = .EN_COURS
  | .worker stage => db.row.committed.status = .EN_COURS ∧ WorkerOk damageTypes db p stage
  | _ => True

/-- The process is about to commit a pending write. -/
def Proc.Writing : Proc → Prop
  | .patch .updated | .softDelete .updated | .analyse .updated => True
  | .worker (.updated _ _ _) | .worker .failUpdated => True
  | _ => False

/-- There are no outputs. -/
structure Tables.NoOutputs (tables : Tables) : Prop where
  damageDetections : tables.damageDetections = []
  pciScores : tables.pciScores = []
  analysisResults : tables.analysisResults = []

/-- The outputs are those of one run. -/
structure Tables.OutputsOf (tables : Tables) (run : WorkerRun) : Prop where
  damageDetections : tables.damageDetections = run.outputs.damageDetections
  pciScores : tables.pciScores = [run.outputs.pciScore]
  analysisResults : tables.analysisResults = [run.outputs.analysisResult]

/-- Outputs exist exactly when the status is `TERMINEE`, and are then those of the last run. -/
structure OutputsOk (damageTypes : DamageTypeTable ℚ) (db : Database) : Prop where
  none : db.row.committed.status ≠ .TERMINEE → db.tables.NoOutputs ∧ db.lastRun = none
  last : db.row.committed.status = .TERMINEE → ∃ run, db.lastRun = some run ∧
    Ran damageTypes run.images run.outputs ∧ db.tables.OutputsOf run

/-- The invariant. -/
structure Inv (damageTypes : DamageTypeTable ℚ) (s : State) : Prop where
  procs : ∀ p, ProcOk damageTypes s.db p (s.procs p)
  holder : ∀ l, s.db.row.lock = some l → (s.procs l.holder).Writing
  single : ∀ p q, (s.procs p).InFlight → (s.procs q).InFlight → p = q
  outputs : OutputsOk damageTypes s.db

variable {damageTypes : DamageTypeTable ℚ}

theorem inv_created (row : Inspection) (h : row.status ≠ .TERMINEE) :
    Inv damageTypes (.created row) where
  procs _ := trivial
  holder _ hl := by cases hl
  single _ _ hp := hp.elim
  outputs := ⟨fun _ => ⟨⟨rfl, rfl, rfl⟩, rfl⟩, fun hstatus => absurd hstatus h⟩

/-! ### Statements of other processes -/

theorem Pending.mono {row row' : LockedRow Inspection.version} {q : ℕ}
    {P : RowLock Inspection.version → Prop} (h : Pending row q P)
    (hlock : ∀ l, row.lock = some l → l.holder = q → row'.lock = some l) : Pending row' q P := by
  obtain ⟨l, hl, hq, hP⟩ := h
  exact ⟨l, hlock l hl hq, hq, hP⟩

theorem WorkerOk.mono {db db' : Database} {q : ℕ} {stage : WorkerStage}
    (h : WorkerOk damageTypes db q stage)
    (hlock : ∀ l, db.row.lock = some l → l.holder = q → db'.row.lock = some l) :
    WorkerOk damageTypes db' q stage := by
  cases stage with
  | updated images cleared outputs => exact ⟨h.1, h.2.1, h.2.2.mono hlock⟩
  | failUpdated => exact Pending.mono h hlock
  | _ => exact h

/-- What a process knows survives when the row moves forward, a run under way still finds its
status, and a lock it holds is still its own. -/
theorem ProcOk.mono {db db' : Database} {q : ℕ} {proc : Proc} (h : ProcOk damageTypes db q proc)
    (hfollows : Follows Inspection.version db.row.committed db'.row.committed)
    (hstatus : proc.InFlight → db'.row.committed.status = db.row.committed.status)
    (hlock : ∀ l, db.row.lock = some l → l.holder = q → db'.row.lock = some l) :
    ProcOk damageTypes db' q proc := by
  cases proc with
  | patch stage =>
    cases stage with
    | updated => exact Pending.mono h hlock
    | _ => trivial
  | softDelete stage =>
    cases stage with
    | updated => exact Pending.mono h hlock
    | _ => trivial
  | analyse stage =>
    cases stage with
    | started => trivial
    | loaded row => exact Follows.trans h hfollows
    | checked row => exact ⟨h.1.trans hfollows, h.2⟩
    | updated => exact Pending.mono h hlock
  | worker stage => exact ⟨(hstatus trivial).trans h.1, h.2.mono hlock⟩
  | _ => trivial

/-- A sound statement of `p` leaves the locks of the others alone. -/
theorem lock_apply_of_ne {db : Database} {p q : ℕ} {effect : Effect} (h : effect.Sound p db)
    (hne : q ≠ p) {l : RowLock Inspection.version} (hl : db.row.lock = some l)
    (hq : l.holder = q) : (effect.apply p db).row.lock = some l := by
  -- the one lock there is belongs to `q`
  have hnot : ¬ db.row.HeldBy p := by
    rintro ⟨l', hl', hp⟩
    rw [hl] at hl'
    obtain rfl := Option.some.inj hl'
    exact hne (hq.symm.trans hp)
  cases effect with
  | none => exact hl
  | lock row => rw [h.1] at hl; cases hl
  | commit tables run =>
    show (db.row.commit p).lock = some l
    rw [LockedRow.commit_of_not_held hnot, hl]
  | rollback =>
    show (db.row.rollback p).lock = some l
    rw [LockedRow.rollback_of_not_held hnot, hl]

/-- A lock held after a statement of `p` is new, or is another's and was there. -/
theorem lock_apply_cases {db : Database} {p : ℕ} {effect : Effect} (h : effect.Sound p db)
    {l : RowLock Inspection.version} (hl : (effect.apply p db).row.lock = some l) :
    l.holder = p ∨ db.row.lock = some l := by
  cases effect with
  | none => exact Or.inr hl
  | lock row =>
    obtain ⟨-, -, l', hl', hp⟩ := h
    have hl : row.lock = some l := hl
    rw [hl'] at hl
    exact Or.inl (Option.some.inj hl ▸ hp)
  | commit tables run => exact Or.inr (LockedRow.lock_commit hl).1
  | rollback => exact Or.inr (LockedRow.lock_rollback hl).1

/-- A run under way finds the status `EN_COURS`. -/
theorem Inv.status_of_inFlight {s : State} (h : Inv damageTypes s) {p : ℕ}
    (hp : (s.procs p).InFlight) : s.db.row.committed.status = .EN_COURS := by
  have hok := h.procs p
  cases hproc : s.procs p with
  | worker stage =>
    rw [hproc] at hok
    exact hok.1
  | _ => rw [hproc] at hp; exact hp.elim

/-- An inspection that a run has been committed for is `TERMINEE`. -/
theorem Inv.status_of_lastRun {s : State} (h : Inv damageTypes s) {run : WorkerRun}
    (hrun : s.db.lastRun = some run) : s.db.row.committed.status = .TERMINEE := by
  by_contra hne
  rw [(h.outputs.none hne).2] at hrun
  cases hrun

/-- It has the rows of that run. -/
theorem Inv.outputsOf_lastRun {s : State} (h : Inv damageTypes s) {run : WorkerRun}
    (hrun : s.db.lastRun = some run) :
    Ran damageTypes run.images run.outputs ∧ s.db.tables.OutputsOf run := by
  obtain ⟨run', hrun', hran, hof⟩ := h.outputs.last (h.status_of_lastRun hrun)
  rw [hrun] at hrun'
  obtain rfl := Option.some.inj hrun'
  exact ⟨hran, hof⟩

/-- The invariant survives a sound statement of `p` when it holds of `p` and of the outputs, `p`
still answers for its lock, no second run starts, and a change of status concerns no other run. -/
theorem Inv.after {s : State} (h : Inv damageTypes s) {p : ℕ} {effect : Effect} {proc : Proc}
    (hsound : effect.Sound p s.db)
    (hproc : ProcOk damageTypes (effect.apply p s.db) p proc)
    (hwriting : ∀ l, (effect.apply p s.db).row.lock = some l → l.holder = p → proc.Writing)
    (hflight : proc.InFlight → (s.procs p).InFlight ∨ ∀ q, ¬ (s.procs q).InFlight)
    (hstatus : (effect.apply p s.db).row.committed.status = s.db.row.committed.status ∨
      ∀ q, q ≠ p → ¬ (s.procs q).InFlight)
    (hout : OutputsOk damageTypes (effect.apply p s.db)) :
    Inv damageTypes (s.after p effect proc) where
  procs q := by
    by_cases hq : q = p
    · subst hq
      rw [State.procs_after_self]
      exact hproc
    · rw [State.procs_after_of_ne hq]
      refine (h.procs q).mono (follows_apply hsound) ?_ fun l => lock_apply_of_ne hsound hq
      intro hflying
      rcases hstatus with heq | hnone
      · exact heq
      · exact absurd hflying (hnone q hq)
  holder l hl := by
    by_cases hp : l.holder = p
    · rw [hp, State.procs_after_self]
      exact hwriting l hl hp
    · rw [State.procs_after_of_ne hp]
      rcases lock_apply_cases hsound hl with heq | hold
      · exact absurd heq hp
      · exact h.holder l hold
  single q q' hq hq' := by
    -- a process in flight is `p` in its new stage, or another one that has not moved
    have hcase : ∀ r, ((s.after p effect proc).procs r).InFlight →
        r = p ∧ proc.InFlight ∨ r ≠ p ∧ (s.procs r).InFlight := by
      intro r hr
      by_cases hrp : r = p
      · subst hrp
        rw [State.procs_after_self] at hr
        exact Or.inl ⟨rfl, hr⟩
      · rw [State.procs_after_of_ne hrp] at hr
        exact Or.inr ⟨hrp, hr⟩
    -- `p` and another cannot both be: `p` was in flight before, or nobody was
    have hmixed : ∀ r, r ≠ p → (s.procs r).InFlight → proc.InFlight → False := by
      intro r hrp hr hp
      rcases hflight hp with hwas | hnone
      · exact hrp (h.single r p hr hwas)
      · exact hnone r hr
    rcases hcase q hq with ⟨rfl, hp⟩ | ⟨hqp, hqf⟩
    · rcases hcase q' hq' with ⟨rfl, -⟩ | ⟨hqp', hqf'⟩
      · rfl
      · exact (hmixed q' hqp' hqf' hp).elim
    · rcases hcase q' hq' with ⟨rfl, hp⟩ | ⟨-, hqf'⟩
      · exact (hmixed q hqp hqf hp).elim
      · exact h.single q q' hqf hqf'
  outputs := hout

/-! ### Statements by effect -/

section Effects

variable {s : State} {p : ℕ} {proc : Proc} (h : Inv damageTypes s)
include h

/-- A process that is not about to commit a write holds no lock. -/
theorem Inv.not_heldBy (hnot : ¬ (s.procs p).Writing) : ¬ s.db.row.HeldBy p := by
  rintro ⟨l, hl, rfl⟩
  exact hnot (h.holder l hl)

/-- A read. -/
theorem Inv.after_none (hnot : ¬ (s.procs p).Writing) (hproc : ProcOk damageTypes s.db p proc)
    (hflight : proc.InFlight → (s.procs p).InFlight) :
    Inv damageTypes (s.after p .none proc) :=
  h.after trivial hproc (fun l hl hp => absurd ⟨l, hl, hp⟩ (h.not_heldBy hnot))
    (fun hp => Or.inl (hflight hp)) (Or.inl rfl) h.outputs

theorem outputsOk_rollback : OutputsOk damageTypes (Effect.rollback.apply p s.db) := by
  have hstatus : (Effect.rollback.apply p s.db).row.committed = s.db.row.committed :=
    LockedRow.committed_rollback
  exact ⟨fun hne => h.outputs.none (hstatus ▸ hne), fun heq => h.outputs.last (hstatus ▸ heq)⟩

/-- A rollback. -/
theorem Inv.after_rollback (hproc : ProcOk damageTypes (Effect.rollback.apply p s.db) p proc)
    (hflight : proc.InFlight → (s.procs p).InFlight) :
    Inv damageTypes (s.after p .rollback proc) := by
  refine h.after trivial hproc ?_ (fun hp => Or.inl (hflight hp))
    (Or.inl (by rw [Effect.apply, LockedRow.committed_rollback])) (outputsOk_rollback h)
  intro l hl hp
  exact absurd hp (LockedRow.lock_rollback hl).2

/-- An `UPDATE`: refused, or waiting for its commit. -/
theorem Inv.after_update {input : Input} {expected : Option ℕ} {set : Assignments}
    {effect : Effect} {proc' : Proc}
    (hupdate : updateInspection s.db p input expected set proc = some (effect, proc'))
    (hwriting : proc.Writing)
    (hproc : ∀ row l, row.committed = s.db.row.committed → row.lock = some l → l.holder = p →
      l.base = s.db.row.committed → l.expected = expected →
      l.pending.status = set.status.getD s.db.row.committed.status →
      ProcOk damageTypes { s.db with row } p proc)
    (hflight : proc.InFlight → (s.procs p).InFlight) :
    Inv damageTypes (s.after p effect proc') := by
  have hsound := sound_updateInspection hupdate
  rcases updateInspection_cases hupdate with ⟨rfl, rfl⟩ |
    ⟨row, l, rfl, rfl, hfree, hcommitted, hl, hp, hexpected, hwrite, hbase⟩
  · exact h.after_rollback trivial False.elim
  · have hpending : l.pending.status = set.status.getD s.db.row.committed.status := by
      rw [RowLock.pending, hwrite, hbase, status_updateRow]
    refine h.after hsound (hproc row l hcommitted hl hp hbase hexpected hpending)
      (fun _ _ _ => hwriting) (fun hf => Or.inl (hflight hf)) (Or.inl ?_) ?_
    · exact congrArg Inspection.status hcommitted
    · have hrow : (Effect.apply p s.db (.lock row)).row.committed = s.db.row.committed := hcommitted
      exact ⟨fun hne => h.outputs.none (hrow ▸ hne), fun heq => h.outputs.last (hrow ▸ heq)⟩

/-- A commit of rows of other tables. -/
theorem Inv.after_commit_tables {tables : Tables} (hnot : ¬ (s.procs p).Writing)
    (hdetections : tables.damageDetections = s.db.tables.damageDetections)
    (hscores : tables.pciScores = s.db.tables.pciScores)
    (hresults : tables.analysisResults = s.db.tables.analysisResults) :
    Inv damageTypes (s.after p (.commit tables none) .idle) := by
  have hrow : s.db.row.commit p = s.db.row := LockedRow.commit_of_not_held (h.not_heldBy hnot)
  refine h.after trivial trivial (fun l hl hp => absurd hp (LockedRow.lock_commit hl).2)
    False.elim (Or.inl (by rw [Effect.apply, hrow])) ?_
  constructor
  · intro hne
    have hold := h.outputs.none (by rwa [Effect.apply, hrow] at hne)
    exact ⟨⟨hdetections.trans hold.1.1, hscores.trans hold.1.2, hresults.trans hold.1.3⟩, hold.2⟩
  · intro heq
    obtain ⟨run, hrun, hran, hof⟩ := h.outputs.last (by rwa [Effect.apply, hrow] at heq)
    exact ⟨run, hrun, hran,
      ⟨hdetections.trans hof.1, hscores.trans hof.2, hresults.trans hof.3⟩⟩

/-- A commit of a pending write, and of nothing else, when the status is not and does not become
`TERMINEE`, or stays. -/
theorem Inv.after_commit_row {l : RowLock Inspection.version} (hl : s.db.row.lock = some l)
    (hp : l.holder = p)
    (hproc : ProcOk damageTypes (Effect.apply p s.db (.commit s.db.tables none)) p proc)
    (hflight : proc.InFlight → (s.procs p).InFlight ∨ ∀ q, ¬ (s.procs q).InFlight)
    (hstatus : l.pending.status = s.db.row.committed.status ∨
      l.pending.status ≠ .TERMINEE ∧ s.db.row.committed.status ≠ .TERMINEE ∧
        ∀ q, q ≠ p → ¬ (s.procs q).InFlight) :
    Inv damageTypes (s.after p (.commit s.db.tables none) proc) := by
  have hrow : s.db.row.commit p = .unlocked l.pending := LockedRow.commit_of_held hl hp
  have hcommitted : (Effect.apply p s.db (.commit s.db.tables none)).row.committed = l.pending := by
    rw [Effect.apply, hrow]
    rfl
  refine h.after trivial hproc (fun l' hl' hp' => absurd hp' (LockedRow.lock_commit hl').2)
    hflight ?_ ?_
  · rw [hcommitted]
    exact hstatus.imp id fun hs => hs.2.2
  · constructor
    · intro hne
      rw [hcommitted] at hne
      refine h.outputs.none fun hold => ?_
      rcases hstatus with hsame | ⟨-, hnot, -⟩
      · exact hne (hsame.trans hold)
      · exact hnot hold
    · intro heq
      rw [hcommitted] at heq
      rcases hstatus with hsame | ⟨hnot, -, -⟩
      · exact h.outputs.last (hsame.symm.trans heq)
      · exact absurd heq hnot

end Effects

/-! ### One lemma for each kind of statement -/

theorem Proc.Reads.not_writing {db : Database} {input : Input} {proc proc' : Proc}
    (h : proc.Reads damageTypes db input proc') : ¬ proc.Writing := by
  cases h <;> exact id

theorem Proc.Reads.inFlight_iff {db : Database} {input : Input} {proc proc' : Proc}
    (h : proc.Reads damageTypes db input proc') : proc'.InFlight ↔ proc.InFlight := by
  cases h <;> exact Iff.rfl

theorem Proc.Updates.writing {input : Input} {proc proc' : Proc} {expected : Option ℕ}
    {set : Assignments} (h : proc.Updates input expected set proc') : proc'.Writing := by
  cases h <;> trivial

theorem Proc.Updates.inFlight_iff {input : Input} {proc proc' : Proc} {expected : Option ℕ}
    {set : Assignments} (h : proc.Updates input expected set proc') :
    proc'.InFlight ↔ proc.InFlight := by
  cases h <;> exact Iff.rfl

theorem ran_of_store {model : ActiveModel ℚ} {images : List RoadImage} {analysisId : Uuid}
    {processingTimeMs : ℕ} {outputs : Outputs ℚ}
    (h : analyse model damageTypes images analysisId processingTimeMs >>= Outputs.store
      = .ok outputs) : Ran damageTypes images outputs := by
  cases hcomputed : analyse model damageTypes images analysisId processingTimeMs with
  | error exc => rw [hcomputed] at h; cases h
  | ok computed =>
    rw [hcomputed] at h
    exact ⟨model, analysisId, processingTimeMs, computed, hcomputed, h⟩

/-- A run that finds no outputs clears none, and computes from what it has read. -/
theorem Proc.Reads.procOk {db : Database} {p : ℕ} {input : Input} {proc proc' : Proc}
    (h : proc.Reads damageTypes db input proc') (hok : ProcOk damageTypes db p proc)
    (hnone : proc.InFlight → db.tables.NoOutputs) : ProcOk damageTypes db p proc' := by
  cases h with
  | load => exact Follows.refl _
  | check _ hstart => exact ⟨hok, hstart⟩
  | begin => exact ⟨hok.1, hok.1⟩
  | select => exact ⟨hok.1, hok.2⟩
  | clearDetections =>
    refine ⟨hok.1, hok.2, ?_⟩
    rw [(hnone trivial).damageDetections]
    rfl
  | clearScores =>
    refine ⟨hok.1, hok.2.1, ?_⟩
    rw [hok.2.2, (hnone trivial).pciScores]
  | clearResults =>
    refine ⟨hok.1, hok.2.1, ?_⟩
    rw [hok.2.2, (hnone trivial).analysisResults]
  | compute houtputs => exact ⟨hok.1, hok.2.1, hok.2.2, ran_of_store houtputs⟩
  | keepDone hdone =>
    -- the run has loaded `EN_COURS`, so it writes
    rw [hok.2.1] at hdone
    cases hdone
  | reload => exact ⟨hok.1, hok.1⟩
  | keepFailed hfailed =>
    have hrunning := hok.2
    rw [hrunning] at hfailed
    cases hfailed
  | _ => trivial

/-- The holder of the lock knows its pending write.  An accepted request has found the row it has
loaded, since that has the version it asked for. -/
theorem Proc.Updates.procOk {db : Database} {p : ℕ} {input : Input} {proc proc' : Proc}
    {expected : Option ℕ} {set : Assignments} (h : proc.Updates input expected set proc')
    (hok : ProcOk damageTypes db p proc) {row : LockedRow Inspection.version}
    {l : RowLock Inspection.version} (hcommitted : row.committed = db.row.committed)
    (hl : row.lock = some l) (hp : l.holder = p) (hbase : l.base = db.row.committed)
    (hexpected : l.expected = expected)
    (hstatus : l.pending.status = set.status.getD db.row.committed.status) :
    ProcOk damageTypes { db with row } p proc' := by
  have hkeeps : row.committed.status = db.row.committed.status :=
    congrArg Inspection.status hcommitted
  cases h with
  | patch =>
    -- neither a PATCH nor a soft delete assigns a status
    exact ⟨l, hl, hp, hstatus.trans (congrArg Inspection.status hbase).symm⟩
  | softDelete => exact ⟨l, hl, hp, hstatus.trans (congrArg Inspection.status hbase).symm⟩
  | @accept loaded =>
    refine ⟨l, hl, hp, ?_, hstatus⟩
    -- the version asked for is that of the loaded row, so the row is the loaded one
    have hversion : loaded.version = db.row.committed.version := by
      rw [← hbase]
      exact (l.matched _ hexpected).symm
    rw [hbase, ← hok.1.2 hversion]
    exact hok.2
  | finish => exact ⟨hkeeps.trans hok.1, hok.2.2.1, hok.2.2.2, l, hl, hp, hstatus⟩
  | fail => exact ⟨hkeeps.trans hok.1, l, hl, hp, hstatus⟩

/-- A run that has cleared nothing only adds its outputs. -/
theorem commitRun_of_nothing_cleared {tables tables' : Tables} {outputs : Outputs ℚ}
    (hcommit : commitRun tables {} outputs = some tables') :
    tables' = { tables with
      damageDetections := tables.damageDetections ++ outputs.damageDetections
      pciScores := tables.pciScores ++ [outputs.pciScore]
      analysisResults := tables.analysisResults ++ [outputs.analysisResult] } := by
  simp only [commitRun, List.diff_nil, List.map_nil, List.not_mem_nil, not_false_eq_true,
    decide_true, List.filter_true] at hcommit
  split_ifs at hcommit
  exact (Option.some.inj hcommit).symm

section Kinds

variable {s : State} {p : ℕ} {input : Input} (h : Inv damageTypes s)
include h

theorem Inv.noOutputs_of_inFlight {q : ℕ} (hq : (s.procs q).InFlight) :
    s.db.tables.NoOutputs :=
  (h.outputs.none (by rw [h.status_of_inFlight hq]; decide)).1

theorem Inv.read {proc : Proc} (hreads : (s.procs p).Reads damageTypes s.db input proc) :
    Inv damageTypes (s.after p .none proc) :=
  h.after_none hreads.not_writing (hreads.procOk (h.procs p) h.noOutputs_of_inFlight)
    hreads.inFlight_iff.mp

theorem Inv.update {expected : Option ℕ} {set : Assignments} {effect : Effect} {next proc : Proc}
    (hasks : (s.procs p).Updates input expected set next)
    (hupdate : updateInspection s.db p input expected set next = some (effect, proc)) :
    Inv damageTypes (s.after p effect proc) :=
  h.after_update hupdate hasks.writing
    (fun _ _ hcommitted hl hp hbase hexpected hstatus =>
      hasks.procOk (h.procs p) hcommitted hl hp hbase hexpected hstatus)
    hasks.inFlight_iff.mp

/-- The commit of an accepted request finds no run under way: the status it has checked is still
the status. -/
theorem Inv.commit_accept
    (hpending :
      Pending s.db.row p fun l => Startable l.base.status ∧ l.pending.status = .EN_COURS) :
    Inv damageTypes (s.after p (.commit s.db.tables none) (.worker .started)) := by
  obtain ⟨l, hl, hp, hstart, hrunning⟩ := hpending
  rw [s.db.row.current l hl] at hstart
  have hnone : ∀ q, ¬ (s.procs q).InFlight := by
    intro q hq
    rw [h.status_of_inFlight hq] at hstart
    revert hstart
    decide
  have hnotdone : s.db.row.committed.status ≠ .TERMINEE := by
    intro heq
    rw [heq] at hstart
    revert hstart
    decide
  refine h.after_commit_row hl hp ⟨?_, trivial⟩ (fun _ => Or.inr hnone)
    (Or.inr ⟨by rw [hrunning]; decide, hnotdone, fun q _ => hnone q⟩)
  show (s.db.row.commit p).committed.status = .EN_COURS
  rw [LockedRow.commit_of_held hl hp]
  exact hrunning

/-- The commit of a run, which finds no outputs and has none to clear. -/
theorem Inv.commit_run {images : List RoadImage} {outputs : Outputs ℚ} {tables : Tables}
    (hflying : (s.procs p).InFlight) (hran : Ran damageTypes images outputs)
    (hpending : Pending s.db.row p fun l => l.pending.status = .TERMINEE)
    (hcommit : commitRun s.db.tables {} outputs = some tables) :
    Inv damageTypes (s.after p (.commit tables (some { images, outputs })) .idle) := by
  obtain ⟨l, hl, hp, hdone⟩ := hpending
  obtain ⟨hdetections, hscores, hresults⟩ := h.noOutputs_of_inFlight hflying
  have hcommitted : (s.db.row.commit p).committed = l.pending := by
    rw [LockedRow.commit_of_held hl hp]
    rfl
  refine h.after trivial trivial (fun l' hl' hp' => absurd hp' (LockedRow.lock_commit hl').2)
    False.elim (Or.inr fun q hq hf => hq (h.single q p hf hflying)) ?_
  constructor
  · -- the commit makes the status `TERMINEE`
    intro hne
    exact absurd ((congrArg Inspection.status hcommitted).trans hdone) hne
  · intro _
    refine ⟨{ images, outputs }, rfl, hran, ?_⟩
    obtain rfl := commitRun_of_nothing_cleared hcommit
    constructor
    · simp [Effect.apply, hdetections]
    · simp [Effect.apply, hscores]
    · simp [Effect.apply, hresults]

/-- The commit of the `except` clause. -/
theorem Inv.commit_fail (hflying : (s.procs p).InFlight)
    (hpending : Pending s.db.row p fun l => l.pending.status = .ERREUR) :
    Inv damageTypes (s.after p (.commit s.db.tables none) .idle) := by
  obtain ⟨l, hl, hp, hfailed⟩ := hpending
  have hrunning := h.status_of_inFlight hflying
  exact h.after_commit_row hl hp trivial False.elim
    (Or.inr ⟨by rw [hfailed]; decide, by rw [hrunning]; decide,
      fun q hq hf => hq (h.single q p hf hflying)⟩)

/-- The commit of a write that keeps the status. -/
theorem Inv.commit_same
    (hpending : Pending s.db.row p fun l => l.pending.status = l.base.status) :
    Inv damageTypes (s.after p (.commit s.db.tables none) .idle) := by
  obtain ⟨l, hl, hp, hsame⟩ := hpending
  rw [s.db.row.current l hl] at hsame
  exact h.after_commit_row hl hp trivial False.elim (Or.inl hsame)

theorem Inv.commit {tables : Tables} {run : Option WorkerRun} {proc proc' : Proc}
    (hproc : s.procs p = proc) (hcommits : proc.Commits s.db tables run proc') :
    Inv damageTypes (s.after p (.commit tables run) proc') := by
  have hok := h.procs p
  rw [hproc] at hok
  cases hcommits with
  | patch => exact h.commit_same hok
  | softDelete => exact h.commit_same hok
  | upload => exact h.after_commit_tables (by rw [hproc]; exact id) rfl rfl rfl
  | accept => exact h.commit_accept hok
  | run hcommit =>
    obtain ⟨-, rfl, hran, hpending⟩ := hok
    exact h.commit_run (by rw [hproc]; trivial) hran hpending hcommit
  | fail => exact h.commit_fail (by rw [hproc]; trivial) hok.2
  | recommend => exact h.after_commit_tables (by rw [hproc]; exact id) rfl rfl rfl

/-- A failure leaves a run in its `except` clause, or ends the process. -/
theorem Inv.fail : Inv damageTypes (s.after p .rollback (s.procs p).afterFailure) := by
  cases hproc : s.procs p with
  | worker stage =>
    have hflying : (s.procs p).InFlight := by rw [hproc]; trivial
    have hrunning : (Effect.rollback.apply p s.db).row.committed.status = .EN_COURS := by
      rw [Effect.apply, LockedRow.committed_rollback]
      exact h.status_of_inFlight hflying
    cases stage with
    | failed | reloaded | failUpdated => exact h.after_rollback trivial False.elim
    | _ => exact h.after_rollback ⟨hrunning, trivial⟩ fun _ => hflying
  | _ => exact h.after_rollback trivial False.elim

end Kinds

/-- Every action preserves the invariant. -/
theorem inv_step {s s' : State} {a : Action} (h : Inv damageTypes s)
    (hstep : step damageTypes s a = some s') : Inv damageTypes s' := by
  rcases step_cases hstep with ⟨p, request, -, hidle, rfl⟩ |
    ⟨p, input, effect, proc, -, hmakes, rfl⟩ | ⟨p, -, rfl⟩
  · have hnot : ¬ (s.procs p).Writing := by rw [hidle]; exact id
    cases request <;> exact h.after_none hnot trivial False.elim
  · cases hmakes with
    | read hreads => exact h.read hreads
    | refuse => exact h.after_rollback trivial False.elim
    | raise hproc =>
      have hflying : (s.procs p).InFlight := by rw [hproc]; trivial
      refine h.after_rollback ⟨?_, trivial⟩ fun _ => hflying
      rw [Effect.apply, LockedRow.committed_rollback, h.status_of_inFlight hflying]
    | update hasks hupdate => exact h.update hasks hupdate
    | commit hcommits => exact h.commit rfl hcommits
  · exact h.fail

/-- The invariant holds of every reachable state. -/
theorem invariant_inv : (system damageTypes).Invariant (Inv damageTypes) where
  init := by
    rintro s ⟨data, actor, id, now, rfl⟩
    exact inv_created _ (show InspectionStatus.EN_ATTENTE ≠ .TERMINEE by decide)
  step _ _ _ h hstep := inv_step h hstep

/-! ### What a commit changes in the tables -/

/-- What an action changes besides the row: nothing, or what a process commits. -/
theorem tables_step_cases {s s' : State} {a : Action} (hstep : step damageTypes s a = some s') :
    (s'.db.tables = s.db.tables ∧ s'.db.lastRun = s.db.lastRun) ∨
      ∃ p input tables run proc, a = .exec p input ∧ (s.procs p).Commits s.db tables run proc ∧
        s' = s.after p (.commit tables run) proc := by
  rcases step_cases hstep with ⟨p, request, -, -, rfl⟩ |
    ⟨p, input, effect, proc, rfl, hmakes, rfl⟩ | ⟨p, -, rfl⟩
  · exact Or.inl ⟨rfl, rfl⟩
  · cases hmakes with
    | commit hcommits => exact Or.inr ⟨p, input, _, _, proc, rfl, hcommits, rfl⟩
    | update _ hupdate =>
      rcases updateInspection_cases hupdate with ⟨rfl, -⟩ | ⟨row, l, rfl, -⟩
      · exact Or.inl ⟨rfl, rfl⟩
      · exact Or.inl ⟨rfl, rfl⟩
    | _ => exact Or.inl ⟨rfl, rfl⟩
  · exact Or.inl ⟨rfl, rfl⟩

/-- No action removes a recommendation: a run has no analysis result to delete. -/
theorem recommendations_step {s s' : State} {a : Action} (h : Inv damageTypes s)
    (hstep : step damageTypes s a = some s') :
    s.db.tables.recommendations ⊆ s'.db.tables.recommendations := by
  rcases tables_step_cases hstep with ⟨htables, -⟩ |
    ⟨p, input, tables, run, proc, -, hcommits, rfl⟩
  · rw [htables]
    exact List.Subset.refl _
  · show s.db.tables.recommendations ⊆ tables.recommendations
    have hok := h.procs p
    generalize s.procs p = proc' at hcommits hok
    cases hcommits with
    | recommend => exact List.subset_append_left _ _
    | run hcommit =>
      -- the cascade starts from the results the run has deleted, and it has deleted none
      obtain ⟨-, rfl, -⟩ := hok
      rw [commitRun_of_nothing_cleared hcommit]
      exact List.Subset.refl _
    | _ => exact List.Subset.refl _

/-- **SM1.**  In every reachable state: at most one run is under way, and only while the status is
`EN_COURS`; there are outputs only when it is `TERMINEE`, and then one score and one analysis
result; and whatever happens next, the recommendations stay. -/
theorem sm1_invariant {s : State} (hs : (system damageTypes).Reachable s) :
    (∀ p q, (s.procs p).InFlight → (s.procs q).InFlight → p = q) ∧
      (∀ p, (s.procs p).InFlight → s.db.row.committed.status = .EN_COURS) ∧
      (s.db.tables.pciScores ≠ [] ∨ s.db.tables.analysisResults ≠ [] ∨
        s.db.tables.damageDetections ≠ [] → s.db.row.committed.status = .TERMINEE) ∧
      (s.db.row.committed.status = .TERMINEE →
        s.db.tables.pciScores.length = 1 ∧ s.db.tables.analysisResults.length = 1) ∧
      (∀ a s', step damageTypes s a = some s' →
        s.db.tables.recommendations ⊆ s'.db.tables.recommendations) := by
  have h : Inv damageTypes s := invariant_inv.holds hs
  refine ⟨h.single, fun p => h.status_of_inFlight, ?_, ?_, fun a s' => recommendations_step h⟩
  · -- without `TERMINEE` there are no outputs
    intro hsome
    by_contra hne
    obtain ⟨⟨hdetections, hscores, hresults⟩, -⟩ := h.outputs.none hne
    rcases hsome with hsome | hsome | hsome
    · exact hsome hscores
    · exact hsome hresults
    · exact hsome hdetections
  · intro hdone
    obtain ⟨run, -, -, hof⟩ := h.outputs.last hdone
    rw [hof.pciScores, hof.analysisResults]
    exact ⟨rfl, rfl⟩

/-- An upload, a request and the run it starts, one after the other. -/
def oneSurvey : List Action :=
  .start 0 .uploadImage :: List.replicate 4 (.exec 0 (quietInput "image-1")) ++
    .start 1 .analyse :: List.replicate 12 (.exec 1 (quietInput "analysis-1"))

/-- It ends `TERMINEE`, with one score. -/
theorem sm1_invariant_oneSurvey :
    ∃ t, (system noTypes).run (.created newInspection) oneSurvey = some t ∧
      t.db.row.committed.status = .TERMINEE ∧ t.db.tables.pciScores.length = 1 := by
  have hrun : ((system noTypes).run (.created newInspection) oneSurvey).map
      (fun t => t.db.row.committed.status) = some .TERMINEE := by
    decide +kernel
  obtain ⟨t, ht, hs, hdone⟩ := Machine.reachable_of_map_run (init_newInspection noTypes) hrun
  exact ⟨t, ht, hdone, ((sm1_invariant hs).2.2.2.1 hdone).1⟩

end RoadVisionAI.Inspections
