import RoadVisionAI.Inspections.Equiv.SM1
import RoadVisionAI.Inspections.Equiv.Update
import Mathlib.Logic.Relation

/-!
# The phases of an inspection

SM1 with the runs: `EN_COURS` stands for two phases, one with a run under way and one whose run is
gone.  `Phase.Next` is the automaton, and the system refines it: every run of the system is a run of
the automaton (`phases_of_leads`).  What `phase_step` says of one step is the one case analysis.

A run under way can always be ended, by failing and recording the failure (`exists_leads_failed`),
and only a run gets the inspection out of `EN_COURS` (`leaves_running_iff`).  An inspection whose
run is gone stays `EN_COURS` for good, and it gets there exactly when the `except` clause of
`run_analysis` fails (`unstranded_iff_handled`).
-/

namespace RoadVisionAI.Inspections

open Python Db Transition AnalysisWorker

/-! ### The automaton -/

inductive Phase where
  /-- `EN_ATTENTE`. -/
  | waiting
  /-- `EN_COURS`, and a run is under way. -/
  | running
  /-- `TERMINEE`. -/
  | done
  /-- `ERREUR`. -/
  | failed
  /-- `EN_COURS`, and no run is under way. -/
  | stranded
  /-- Another status. -/
  | closed
deriving DecidableEq

/-- What can follow a phase. -/
inductive Phase.Next : Phase → Phase → Prop
  | accept : Next waiting running
  | retry : Next failed running
  | finish : Next running done
  | fail : Next running failed
  | strand : Next running stranded

open Classical in
/-- The phase of a state. -/
noncomputable def State.phase (s : State) : Phase :=
  match s.db.row.committed.status with
  | .EN_ATTENTE => .waiting
  | .EN_COURS => if ∃ p, (s.procs p).InFlight then .running else .stranded
  | .TERMINEE => .done
  | .ERREUR => .failed
  | .ANNULEE | .VALIDEE => .closed

variable {damageTypes : DamageTypeTable ℚ}

section Phases

variable {s : State}

theorem phase_eq_running_iff :
    s.phase = .running ↔ s.db.row.committed.status = .EN_COURS ∧ ∃ p, (s.procs p).InFlight := by
  unfold State.phase
  split <;> simp_all

theorem phase_eq_stranded_iff :
    s.phase = .stranded ↔
      s.db.row.committed.status = .EN_COURS ∧ ∀ p, ¬ (s.procs p).InFlight := by
  unfold State.phase
  split <;> simp_all

theorem phase_of_done (h : s.db.row.committed.status = .TERMINEE) : s.phase = .done := by
  rw [State.phase, h]

theorem phase_of_failed (h : s.db.row.committed.status = .ERREUR) : s.phase = .failed := by
  rw [State.phase, h]

/-- An analysis can start from two phases. -/
theorem phase_of_startable (h : Startable s.db.row.committed.status) :
    s.phase = .waiting ∨ s.phase = .failed := by
  rcases h with h | h
  · exact Or.inl (by rw [State.phase, h])
  · exact Or.inr (phase_of_failed h)

/-- The phase depends on the status and on whether a run is under way. -/
theorem phase_congr {s' : State}
    (hstatus : s'.db.row.committed.status = s.db.row.committed.status)
    (hflight : (∃ p, (s'.procs p).InFlight) ↔ ∃ p, (s.procs p).InFlight) : s'.phase = s.phase := by
  unfold State.phase
  rw [hstatus]
  split
  · rfl
  · rw [hflight]
  all_goals rfl

end Phases

/-! ### One step -/

/-- A process that goes from one stage of a run to another, or was and stays outside, changes
nothing about whether a run is under way. -/
theorem exists_inFlight_after_iff {s : State} {p : ℕ} {effect : Effect} {proc : Proc}
    (h : proc.InFlight ↔ (s.procs p).InFlight) :
    (∃ q, ((s.after p effect proc).procs q).InFlight) ↔ ∃ q, (s.procs q).InFlight := by
  refine exists_congr fun q => ?_
  by_cases hq : q = p
  · rw [hq, State.procs_after_self, h]
  · rw [State.procs_after_of_ne hq]

/-- Without a condition on the version an `UPDATE` waits or matches. -/
theorem update_none_ne_noMatch {row : LockedRow Inspection.version} {p : ℕ}
    {write : Inspection → Inspection} {bumps : ∀ r, Bumps Inspection.version r (write r)} :
    row.update p none write bumps ≠ .noMatch := by
  unfold LockedRow.update
  rw [dif_pos (fun _ h => nomatch h)]
  split <;> simp

/-- An `UPDATE` of a run is not refused. -/
theorem inFlight_of_update {s : State} {p : ℕ} {input : Input} {expected : Option ℕ}
    {set : Assignments} {next proc : Proc} {effect : Effect}
    (hasks : (s.procs p).Updates input expected set next)
    (hupdate : updateInspection s.db p input expected set next = some (effect, proc)) :
    proc.InFlight ↔ (s.procs p).InFlight := by
  rcases updateInspection_cases hupdate with ⟨-, rfl⟩ | ⟨row, l, -, rfl, -⟩
  · -- a refusal: the statement asked for a version, so it is of no run
    have hnone : expected = none → False := by
      rintro rfl
      unfold updateInspection at hupdate
      split at hupdate
      · cases hupdate
      · exact absurd ‹_› update_none_ne_noMatch
      · split_ifs at hupdate
        obtain ⟨-, hidle⟩ := Prod.mk.inj (Option.some.inj hupdate)
        have hwriting := hasks.writing
        rw [hidle] at hwriting
        exact hwriting
    generalize s.procs p = proc' at hasks
    cases hasks with
    | finish => exact (hnone rfl).elim
    | fail => exact (hnone rfl).elim
    | _ => exact Iff.rfl
  · exact hasks.inFlight_iff

/-- The process is in the `except` clause of `run_analysis`. -/
def Proc.Handling : Proc → Prop
  | .worker .failed | .worker (.reloaded _) | .worker .failUpdated => True
  | _ => False

/-- No failure comes on top of a failure: `except` clauses run to their end. -/
def Handled (s : State) : Action → Prop
  | .fail p => ¬ (s.procs p).Handling
  | .start .. | .exec .. => True

instance : DecidablePred Proc.InFlight
  | .worker _ => .isTrue trivial
  | .idle | .patch _ | .softDelete _ | .upload _ | .analyse _ | .recommend _ => .isFalse id

instance : DecidablePred Proc.Handling
  | .worker .failed | .worker (.reloaded _) | .worker .failUpdated => .isTrue trivial
  | .idle | .patch _ | .softDelete _ | .upload _ | .analyse _ | .recommend _ | .worker .started
  | .worker (.loaded _) | .worker (.selected ..) | .worker (.clearedDetections ..)
  | .worker (.clearedScores ..) | .worker (.clearedResults ..) | .worker (.computed ..)
  | .worker (.updated ..) => .isFalse id

instance (s : State) : DecidablePred (Handled s)
  | .fail p => inferInstanceAs (Decidable (¬ (s.procs p).Handling))
  | .start .. | .exec .. => .isTrue trivial

theorem Proc.Handling.inFlight {proc : Proc} (h : proc.Handling) : proc.InFlight := by
  unfold Proc.Handling at h
  split at h
  · trivial
  · trivial
  · trivial
  · exact h.elim

theorem inFlight_afterFailure_iff {proc : Proc} :
    proc.afterFailure.InFlight ↔ proc.InFlight ∧ ¬ proc.Handling := by
  cases proc with
  | worker stage => cases stage <;> simp [Proc.afterFailure, Proc.InFlight, Proc.Handling]
  | _ => simp [Proc.afterFailure, Proc.InFlight]


section Commits

variable {s : State} {p : ℕ} {tables : Tables} {run : Option WorkerRun}

/-- The status after the commit of a pending write. -/
theorem status_commit {proc : Proc} {status : InspectionStatus}
    (hpending : Pending s.db.row p fun l => l.pending.status = status) :
    (s.after p (.commit tables run) proc).db.row.committed.status = status := by
  obtain ⟨l, hl, hp, hstatus⟩ := hpending
  show (s.db.row.commit p).committed.status = status
  rw [LockedRow.commit_of_held hl hp]
  exact hstatus

/-- The commit of a request whose pending write keeps the status. -/
theorem phase_commit_same (hflight : ¬ (s.procs p).InFlight)
    (hpending : Pending s.db.row p fun l => l.pending.status = l.base.status) :
    (s.after p (.commit tables run) .idle).phase = s.phase := by
  obtain ⟨l, hl, hp, hsame⟩ := hpending
  rw [s.db.row.current l hl] at hsame
  exact phase_congr (status_commit ⟨l, hl, hp, hsame⟩)
    (exists_inFlight_after_iff (iff_of_false id hflight))

variable (h : Inv damageTypes s)
include h

theorem phase_of_inFlight (hp : (s.procs p).InFlight) : s.phase = .running :=
  phase_eq_running_iff.mpr ⟨h.status_of_inFlight hp, p, hp⟩

/-- The commit of a request that has not written the row. -/
theorem phase_commit_tables (hnot : ¬ (s.procs p).Writing) (hflight : ¬ (s.procs p).InFlight) :
    (s.after p (.commit tables run) .idle).phase = s.phase := by
  refine phase_congr ?_ (exists_inFlight_after_iff (iff_of_false id hflight))
  show (s.db.row.commit p).committed.status = s.db.row.committed.status
  rw [LockedRow.commit_of_not_held (h.not_heldBy hnot)]

/-- A commit keeps the phase, or makes a transition; it strands nothing. -/
theorem phase_commit {proc proc' : Proc} (hproc : s.procs p = proc)
    (hcommits : proc.Commits s.db tables run proc') :
    (s.after p (.commit tables run) proc').phase = s.phase ∨
      Phase.Next s.phase (s.after p (.commit tables run) proc').phase ∧
        (s.after p (.commit tables run) proc').phase ≠ .stranded := by
  have hok := h.procs p
  rw [hproc] at hok
  cases hcommits with
  | patch => exact Or.inl (phase_commit_same (by rw [hproc]; exact id) hok)
  | softDelete => exact Or.inl (phase_commit_same (by rw [hproc]; exact id) hok)
  | upload =>
    exact Or.inl (phase_commit_tables h (by rw [hproc]; exact id) (by rw [hproc]; exact id))
  | recommend =>
    exact Or.inl (phase_commit_tables h (by rw [hproc]; exact id) (by rw [hproc]; exact id))
  | accept =>
    obtain ⟨l, hl, hp, hstart, hrunning⟩ := hok
    rw [s.db.row.current l hl] at hstart
    have hafter : (s.after p (.commit s.db.tables none) (.worker .started)).phase = .running := by
      refine phase_eq_running_iff.mpr ⟨status_commit ⟨l, hl, hp, hrunning⟩, p, ?_⟩
      rw [State.procs_after_self]
      trivial
    rw [hafter]
    rcases phase_of_startable hstart with hwaiting | hfailed
    · rw [hwaiting]
      exact Or.inr ⟨.accept, by decide⟩
    · rw [hfailed]
      exact Or.inr ⟨.retry, by decide⟩
  | run =>
    obtain ⟨-, -, -, hpending⟩ := hok
    have hfrom : s.phase = .running := phase_of_inFlight h (p := p) (by rw [hproc]; trivial)
    rw [hfrom, phase_of_done (status_commit hpending)]
    exact Or.inr ⟨.finish, by decide⟩
  | fail =>
    have hfrom : s.phase = .running := phase_of_inFlight h (p := p) (by rw [hproc]; trivial)
    rw [hfrom, phase_of_failed (status_commit hok.2)]
    exact Or.inr ⟨.fail, by decide⟩

end Commits

/-- A failure of the `except` clause strands the inspection: there is no other run. -/
theorem phase_of_fail_handling {s : State} {p : ℕ} (h : Inv damageTypes s)
    (hp : (s.procs p).Handling) :
    (s.after p .rollback (s.procs p).afterFailure).phase = .stranded := by
  refine phase_eq_stranded_iff.mpr ⟨?_, fun q hq => ?_⟩
  · show (s.db.row.rollback p).committed.status = .EN_COURS
    rw [LockedRow.committed_rollback]
    exact h.status_of_inFlight hp.inFlight
  · by_cases hqp : q = p
    · rw [hqp, State.procs_after_self, inFlight_afterFailure_iff] at hq
      exact hq.2 hp
    · rw [State.procs_after_of_ne hqp] at hq
      exact hqp (h.single q p hq hp.inFlight)

/-- A rollback that leaves runs under way as they are. -/
theorem phase_rollback {s : State} {p : ℕ} {proc : Proc}
    (hflight : proc.InFlight ↔ (s.procs p).InFlight) :
    (s.after p .rollback proc).phase = s.phase := by
  refine phase_congr ?_ (exists_inFlight_after_iff hflight)
  show (s.db.row.rollback p).committed.status = s.db.row.committed.status
  rw [LockedRow.committed_rollback]

/-- One step of the system is at most one transition of the automaton, and to `stranded` exactly by
a failure of the `except` clause. -/
theorem phase_step {s s' : State} {a : Action} (h : Inv damageTypes s)
    (hstep : step damageTypes s a = some s') :
    (Handled s a → s'.phase = s.phase ∨ Phase.Next s.phase s'.phase ∧ s'.phase ≠ .stranded) ∧
      (¬ Handled s a → s.phase = .running ∧ s'.phase = .stranded) := by
  rcases step_cases hstep with ⟨p, request, rfl, hidle, rfl⟩ |
    ⟨p, input, effect, proc, rfl, hmakes, rfl⟩ | ⟨p, rfl, rfl⟩
  · -- a request arrives: no run begins
    refine ⟨fun _ => Or.inl (phase_congr rfl (exists_inFlight_after_iff ?_)),
      fun hnot => absurd trivial hnot⟩
    rw [hidle]
    cases request <;> exact Iff.rfl
  · refine ⟨fun _ => ?_, fun hnot => absurd trivial hnot⟩
    cases hmakes with
    | read hreads =>
      exact Or.inl (phase_congr rfl (exists_inFlight_after_iff hreads.inFlight_iff))
    | refuse hrefuses =>
      refine Or.inl (phase_rollback (iff_of_false id ?_))
      generalize s.procs p = proc at hrefuses
      cases hrefuses <;> exact id
    | raise hproc => exact Or.inl (phase_rollback (by rw [hproc]; exact Iff.rfl))
    | update hasks hupdate =>
      refine Or.inl (phase_congr ?_ (exists_inFlight_after_iff (inFlight_of_update hasks hupdate)))
      rcases updateInspection_cases hupdate with ⟨rfl, -⟩ | ⟨row, l, rfl, -, -, hcommitted, -⟩
      · show (s.db.row.rollback p).committed.status = s.db.row.committed.status
        rw [LockedRow.committed_rollback]
      · exact congrArg Inspection.status hcommitted
    | commit hcommits => exact phase_commit h rfl hcommits
  · constructor
    · intro hnot
      refine Or.inl (phase_rollback ?_)
      rw [inFlight_afterFailure_iff]
      exact and_iff_left hnot
    · intro hhandling
      rw [Handled, not_not] at hhandling
      exact ⟨phase_of_inFlight h hhandling.inFlight, phase_of_fail_handling h hhandling⟩

/-! ### Runs -/

/-- A run of the system is a run of the automaton. -/
theorem phases_of_leads {s t : State} (hs : (system damageTypes).Reachable s)
    (h : (system damageTypes).Leads s t) : Relation.ReflTransGen Phase.Next s.phase t.phase := by
  refine invariant_inv.rel_of_leads
    (R := fun s t => Relation.ReflTransGen Phase.Next s.phase t.phase)
    (fun s => .refl) (fun s t u => .trans) (fun s a s' hinv hstep => ?_) (invariant_inv.holds hs) h
  obtain ⟨hhandled, hnot⟩ := phase_step hinv hstep
  by_cases hC : Handled s a
  · rcases hhandled hC with hsame | ⟨hnext, -⟩
    · rw [hsame]
    · exact .single hnext
  · obtain ⟨hrunning, hstranded⟩ := hnot hC
    rw [hrunning, hstranded]
    exact .single .strand

/-- No transition leaves `done`. -/
theorem phase_done_final {phase : Phase} (h : Relation.ReflTransGen Phase.Next .done phase) :
    phase = .done := by
  rcases h.cases_head with heq | ⟨_, ⟨⟩, _⟩
  exact heq.symm

/-- No transition leaves `stranded`. -/
theorem phase_stranded_final {phase : Phase}
    (h : Relation.ReflTransGen Phase.Next .stranded phase) : phase = .stranded := by
  rcases h.cases_head with heq | ⟨_, ⟨⟩, _⟩
  exact heq.symm

/-- No transition leads to `closed`. -/
theorem phase_closed_initial {phase : Phase}
    (h : Relation.ReflTransGen Phase.Next phase .closed) : phase = .closed := by
  rcases h.cases_tail with heq | ⟨_, _, ⟨⟩⟩
  exact heq.symm

/-! ### A run under way can be ended -/

/-- The committed row and a pending one pass the checks of the table. -/
def ChecksOk (row : LockedRow Inspection.version) : Prop :=
  row.committed.Checks ∧ ∀ l, row.lock = some l → l.pending.Checks

/-- A statement that would write a row that fails a check does not get its lock. -/
theorem checks_updateInspection {db : Database} {p : ℕ} {input : Input} {expected : Option ℕ}
    {set : Assignments} {next proc : Proc} {row : LockedRow Inspection.version}
    (h : updateInspection db p input expected set next = some (.lock row, proc)) :
    (updateRow set input.now db.row.committed).Checks := by
  unfold updateInspection at h
  split at h
  · cases h
  · cases h
  · split_ifs at h with hchecks
    exact hchecks

theorem ChecksOk.unlocked {row : Inspection} (h : row.Checks) : ChecksOk (.unlocked row) :=
  ⟨h, fun _ hl => by cases hl⟩

/-- Every action keeps the checks. -/
theorem checksOk_step {s s' : State} {a : Action} (h : ChecksOk s.db.row)
    (hstep : step damageTypes s a = some s') : ChecksOk s'.db.row := by
  have hrollback : ∀ p, ChecksOk (s.db.row.rollback p) := by
    intro p
    refine ⟨by rw [LockedRow.committed_rollback]; exact h.1, fun l hl => ?_⟩
    exact h.2 l (LockedRow.lock_rollback hl).1
  rcases step_cases hstep with ⟨p, request, -, -, rfl⟩ |
    ⟨p, input, effect, proc, -, hmakes, rfl⟩ | ⟨p, -, rfl⟩
  · exact h
  · cases hmakes with
    | read => exact h
    | refuse => exact hrollback p
    | raise => exact hrollback p
    | update _ hupdate =>
      rcases updateInspection_cases hupdate with ⟨rfl, -⟩ |
        ⟨row, l, rfl, -, -, hcommitted, hl, -, -, hwrite, hbase⟩
      · exact hrollback p
      · show ChecksOk row
        refine ⟨by rw [hcommitted]; exact h.1, fun l' hl' => ?_⟩
        rw [hl] at hl'
        obtain rfl := Option.some.inj hl'
        rw [RowLock.pending, hwrite, hbase]
        exact checks_updateInspection hupdate
    | commit =>
      show ChecksOk (s.db.row.commit p)
      by_cases hheld : s.db.row.HeldBy p
      · obtain ⟨l, hl, hp⟩ := hheld
        rw [LockedRow.commit_of_held hl hp]
        exact .unlocked (h.2 l hl)
      · rw [LockedRow.commit_of_not_held hheld]
        exact h
  · exact hrollback p

theorem invariant_checksOk :
    (system damageTypes).Invariant fun s => ChecksOk s.db.row where
  init := by
    rintro s ⟨data, actor, id, now, rfl⟩
    exact .unlocked ⟨Nat.le_refl _, fun _ h => by cases h⟩
  step _ _ _ h hstep := checksOk_step h hstep

/-- A process that is not idle can fail. -/
theorem step_fail {s : State} {p : ℕ} (h : s.procs p ≠ .idle) :
    step damageTypes s (.fail p) = some (s.after p .rollback (s.procs p).afterFailure) := by
  simp only [step]

theorem leads_head {s s' t : State} {a : Action} (hstep : step damageTypes s a = some s')
    (h : (system damageTypes).Leads s' t) : (system damageTypes).Leads s t :=
  .head (m := system damageTypes) (a := a) hstep h

/-- The holder of the lock can fail, which frees the row. -/
theorem exists_leads_unlocked {s : State} {p : ℕ} (h : Inv damageTypes s)
    (hnot : ¬ (s.procs p).Writing) :
    ∃ t, (system damageTypes).Leads s t ∧ t.db.row.lock = none ∧ t.procs p = s.procs p := by
  cases hl : s.db.row.lock with
  | none => exact ⟨s, .refl s, hl, rfl⟩
  | some l =>
    have hwriting := h.holder l hl
    have hidle : s.procs l.holder ≠ .idle := by
      intro hidle
      rw [hidle] at hwriting
      exact hwriting
    have hne : p ≠ l.holder := by
      rintro rfl
      exact hnot hwriting
    refine ⟨_, leads_head (step_fail hidle) (.refl _), ?_, State.procs_after_of_ne hne⟩
    show (s.db.row.rollback l.holder).lock = none
    unfold LockedRow.rollback
    rw [hl]
    simp only [if_true]
    rfl

/-- `UPDATE inspections SET status = 'ERREUR'` is not refused when the row is free. -/
theorem updateInspection_erreur {db : Database} {p : ℕ} {input : Input} {next : Proc}
    (hfree : db.row.lock = none) (hchecks : db.row.committed.Checks)
    (hrunning : db.row.committed.status = .EN_COURS)
    (hnow : input.now = db.row.committed.createdAt) :
    ∃ effect, updateInspection db p input none { status := some .ERREUR } next
      = some (effect, next) := by
  have hne : Assignments.apply { status := some .ERREUR } db.row.committed ≠ db.row.committed := by
    intro heq
    have hstatus := congrArg Inspection.status heq
    rw [hrunning] at hstatus
    cases hstatus
  have hrow : (updateRow { status := some .ERREUR } input.now db.row.committed).Checks := by
    rw [updateRow_of_apply_ne hne, hnow]
    exact ⟨Nat.le_refl _, hchecks.2⟩
  unfold updateInspection LockedRow.update
  rw [dif_pos (fun _ h => nomatch h), hfree]
  simp only [if_pos hrow]
  exact ⟨_, rfl⟩

section Ending

variable {s : State} {p : ℕ} (h : Inv damageTypes s)
include h

/-- From the last stage of the `except` clause. -/
theorem exists_leads_of_failUpdated (hproc : s.procs p = .worker .failUpdated) :
    ∃ t, (system damageTypes).Leads s t ∧ t.phase = .failed := by
  have hok := h.procs p
  rw [hproc] at hok
  have hstep : step damageTypes s (.exec p (quietInput ""))
      = some (s.after p (.commit s.db.tables none) .idle) :=
    step_exec hproc rfl
  exact ⟨_, leads_head hstep (.refl _), phase_of_failed (status_commit hok.2)⟩

variable (hchecks : ChecksOk s.db.row)
include hchecks

/-- From the stage before it, when the row is free. -/
theorem exists_leads_of_reloaded_free {row : Inspection}
    (hproc : s.procs p = .worker (.reloaded row)) (hfree : s.db.row.lock = none) :
    ∃ t, (system damageTypes).Leads s t ∧ t.phase = .failed := by
  have hok := h.procs p
  rw [hproc] at hok
  obtain ⟨hrunning, hloaded⟩ := hok
  have hloaded : row.status = .EN_COURS := hloaded
  let input : Input := { quietInput "" with now := s.db.row.committed.createdAt }
  obtain ⟨effect, hupdate⟩ : ∃ effect, updateInspection s.db p input none
      { status := some .ERREUR } (.worker .failUpdated) = some (effect, .worker .failUpdated) :=
    updateInspection_erreur hfree hchecks.1 hrunning rfl
  have hexec : exec damageTypes s.db p input (.worker (.reloaded row))
      = some (effect, .worker .failUpdated) := by
    simp only [exec, execWorker, flushStatus, hloaded, reduceCtorEq, if_false]
    exact hupdate
  have hstep : step damageTypes s (.exec p input)
      = some (s.after p effect (.worker .failUpdated)) :=
    step_exec hproc hexec
  obtain ⟨t, hleads, ht⟩ := exists_leads_of_failUpdated (inv_step h hstep)
    (State.procs_after_self ..)
  exact ⟨t, leads_head hstep hleads, ht⟩

/-- From any stage of the `except` clause that holds no lock: who holds it fails first. -/
theorem exists_leads_of_reloaded {row : Inspection}
    (hproc : s.procs p = .worker (.reloaded row)) :
    ∃ t, (system damageTypes).Leads s t ∧ t.phase = .failed := by
  obtain ⟨s', ⟨actions, hrun⟩, hfree, hsame⟩ :=
    exists_leads_unlocked (p := p) h (by rw [hproc]; exact id)
  obtain ⟨t, hleads, ht⟩ := exists_leads_of_reloaded_free (invariant_inv.of_run h hrun)
    (invariant_checksOk.of_run hchecks hrun) (hsame.trans hproc) hfree
  exact ⟨t, .trans ⟨actions, hrun⟩ hleads, ht⟩

theorem exists_leads_of_failed (hproc : s.procs p = .worker .failed) :
    ∃ t, (system damageTypes).Leads s t ∧ t.phase = .failed := by
  have hstep : step damageTypes s (.exec p (quietInput ""))
      = some (s.after p .none (.worker (.reloaded s.db.row.committed))) :=
    step_exec hproc rfl
  obtain ⟨t, hleads, ht⟩ := exists_leads_of_reloaded (inv_step h hstep)
    (checksOk_step hchecks hstep) (State.procs_after_self ..)
  exact ⟨t, leads_head hstep hleads, ht⟩

/-- A run under way can be ended at any point, with the status `ERREUR`. -/
theorem exists_leads_failed (hp : (s.procs p).InFlight) :
    ∃ t, (system damageTypes).Leads s t ∧ t.phase = .failed := by
  have hidle : s.procs p ≠ .idle := by
    intro hidle
    rw [hidle] at hp
    exact hp
  cases hproc : s.procs p with
  | worker stage =>
    by_cases hhandling : (s.procs p).Handling
    · rw [hproc] at hhandling
      cases stage with
      | failed => exact exists_leads_of_failed h hchecks hproc
      | reloaded row => exact exists_leads_of_reloaded h hchecks hproc
      | failUpdated => exact exists_leads_of_failUpdated h hproc
      | _ => exact hhandling.elim
    · -- the run fails, and is then in its `except` clause
      have hafter : (s.procs p).afterFailure = .worker .failed := by
        rw [hproc] at hhandling ⊢
        cases stage with
        | failed | reloaded | failUpdated => exact absurd trivial hhandling
        | _ => rfl
      have hstep : step damageTypes s (.fail p)
          = some (s.after p .rollback (.worker .failed)) := by
        rw [← hafter]
        exact step_fail hidle
      obtain ⟨t, hleads, ht⟩ := exists_leads_of_failed (inv_step h hstep)
        (checksOk_step hchecks hstep) (State.procs_after_self ..)
      exact ⟨t, leads_head hstep hleads, ht⟩
  | _ => rw [hproc] at hp; exact hp.elim

end Ending

/-! ### The refinement -/

theorem phase_created {s : State} (h : (system damageTypes).init s) : s.phase = .waiting := by
  obtain ⟨data, actor, id, now, rfl⟩ := h
  rfl

/-- **SM1 is the automaton.**  From every reachable state, one action is at most one transition,
and whatever is run makes transitions one after the other.  In particular `TERMINEE` is for good,
an inspection without its run never moves again, and no other status is ever reached. -/
theorem refines_phases {s : State} (hs : (system damageTypes).Reachable s) :
    (∀ a s', step damageTypes s a = some s' →
        s'.phase = s.phase ∨ Phase.Next s.phase s'.phase) ∧
      (∀ t, (system damageTypes).Leads s t →
        Relation.ReflTransGen Phase.Next s.phase t.phase ∧
          (s.phase = .done → t.phase = .done) ∧ (s.phase = .stranded → t.phase = .stranded)) ∧
      s.phase ≠ .closed := by
  refine ⟨fun a s' hstep => ?_, fun t hst => ?_, fun hclosed => ?_⟩
  · obtain ⟨hhandled, hnot⟩ := phase_step (invariant_inv.holds hs) hstep
    by_cases hC : Handled s a
    · exact (hhandled hC).imp_right And.left
    · obtain ⟨hrunning, hstranded⟩ := hnot hC
      rw [hrunning, hstranded]
      exact Or.inr .strand
  · have hphases := phases_of_leads hs hst
    refine ⟨hphases, fun hdone => ?_, fun hstranded => ?_⟩
    · rw [hdone] at hphases
      exact phase_done_final hphases
    · rw [hstranded] at hphases
      exact phase_stranded_final hphases
  · obtain ⟨s₀, hinit, hleads⟩ := hs
    have hphases := phases_of_leads ⟨s₀, hinit, .refl s₀⟩ hleads
    rw [phase_created hinit, hclosed] at hphases
    cases phase_closed_initial hphases

/-- After a survey the inspection stays `TERMINEE`, whatever is run. -/
theorem refines_phases_oneSurvey :
    ∃ s, (system noTypes).run (.created newInspection) oneSurvey = some s ∧ s.phase = .done ∧
      ∀ t, (system noTypes).Leads s t → t.phase = .done := by
  have hrun : ((system noTypes).run (.created newInspection) oneSurvey).map
      (fun t => t.db.row.committed.status) = some .TERMINEE := by
    decide +kernel
  obtain ⟨s, hrun, hs, hdone⟩ := Machine.reachable_of_map_run (init_newInspection noTypes) hrun
  have hphase := phase_of_done hdone
  exact ⟨s, hrun, hphase, fun t hst => ((refines_phases hs).2.1 t hst).2.1 hphase⟩

/-- **Who gets out of `EN_COURS`.**  A reachable inspection that is `EN_COURS` can get another
status exactly as long as a run is under way. -/
theorem leaves_running_iff {s : State} (hs : (system damageTypes).Reachable s)
    (hrunning : s.db.row.committed.status = .EN_COURS) :
    (∃ t, (system damageTypes).Leads s t ∧ t.db.row.committed.status ≠ .EN_COURS) ↔
      ∃ p, (s.procs p).InFlight := by
  constructor
  · rintro ⟨t, hst, hleft⟩
    by_contra hnone
    have hstranded : s.phase = .stranded :=
      phase_eq_stranded_iff.mpr ⟨hrunning, not_exists.mp hnone⟩
    have hphases := phases_of_leads hs hst
    rw [hstranded] at hphases
    exact hleft (phase_eq_stranded_iff.mp (phase_stranded_final hphases)).1
  · rintro ⟨p, hp⟩
    obtain ⟨t, hst, ht⟩ :=
      exists_leads_failed (invariant_inv.holds hs) (invariant_checksOk.holds hs) hp
    refine ⟨t, hst, fun hsame => ?_⟩
    unfold State.phase at ht
    rw [hsame] at ht
    split_ifs at ht

/-- An upload, and a request that has been accepted. -/
def acceptedSurvey : List Action :=
  .start 0 .uploadImage :: List.replicate 4 (.exec 0 (quietInput "image-1")) ++
    .start 1 .analyse :: List.replicate 4 (.exec 1 (quietInput "analysis-1"))

/-- Its run can be ended. -/
theorem leaves_running_iff_acceptedSurvey :
    ∃ s t, (system noTypes).run (.created newInspection) acceptedSurvey = some s ∧
      (system noTypes).Leads s t ∧ t.db.row.committed.status ≠ .EN_COURS := by
  have hrun : ((system noTypes).run (.created newInspection) acceptedSurvey).map
      (fun t => (t.db.row.committed.status, decide (t.procs 1).InFlight))
        = some (.EN_COURS, true) := by
    decide +kernel
  obtain ⟨s, hrun, hs, heq⟩ := Machine.reachable_of_map_run (init_newInspection noTypes) hrun
  obtain ⟨hrunning, hp⟩ := Prod.mk.inj heq
  obtain ⟨t, hst, hleft⟩ := (leaves_running_iff hs hrunning).mpr ⟨1, of_decide_eq_true hp⟩
  exact ⟨s, t, hrun, hst, hleft⟩

/-- **When an inspection is stranded.**  Along a run from the creation no inspection is ever
stranded exactly when no failure hits an `except` clause. -/
theorem unstranded_iff_handled {s t : State} {actions : List Action}
    (hinit : (system damageTypes).init s) (h : (system damageTypes).run s actions = some t) :
    (system damageTypes).StatesMeet (fun s => s.phase ≠ .stranded) s actions ↔
      (system damageTypes).ActionsMeet Handled s actions := by
  refine invariant_inv.statesMeet_iff_actionsMeet (fun s a s' hinv hne hstep => ?_)
    (invariant_inv.init s hinit) (by rw [phase_created hinit]; decide) h
  obtain ⟨hhandled, hnot⟩ := phase_step hinv hstep
  constructor
  · intro hne'
    by_contra hC
    exact hne' (hnot hC).2
  · intro hC
    rcases hhandled hC with hsame | ⟨-, hne'⟩
    · rw [hsame]
      exact hne
    · exact hne'

/-- A survey without failures. -/
theorem unstranded_iff_handled_oneSurvey :
    (system noTypes).StatesMeet (fun s => s.phase ≠ .stranded) (.created newInspection)
      oneSurvey := by
  have hsome : ((system noTypes).run (.created newInspection) oneSurvey).isSome := by
    decide +kernel
  obtain ⟨t, ht⟩ := Option.isSome_iff_exists.mp hsome
  exact (unstranded_iff_handled (init_newInspection noTypes) ht).mpr (by decide +kernel)

end RoadVisionAI.Inspections
