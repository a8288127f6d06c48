import RoadVisionAI.Inspections.Equiv.Statements

/-!
# No update of the inspections row is lost

The row of the system is a `LockedRow`, so the argument is about what the statements may do with
it.  `Proc.Makes.sound`: a statement takes the lock only from nobody and leaves the committed row as
it is; everything else that moves the row is a commit.  Hence every action moves the row forward
(`follows_step`), and so does every run (`follows_leads`).  `no_lost_update` collects what this
means for the requests that ask for a version.
-/

namespace RoadVisionAI.Inspections

open Db Transition AnalysisWorker

variable {damageTypes : DamageTypeTable ℚ} {db : Database} {p : ℕ} {input : Input}

/-! ### What a statement may do to the row -/

/-- The lock is taken when it is free, and the committed row stays. -/
def Effect.Sound (p : ℕ) (db : Database) : Effect → Prop
  | .lock row => db.row.lock = Option.none ∧ row.committed = db.row.committed ∧
      ∃ l, row.lock = some l ∧ l.holder = p
  | _ => True

theorem sound_updateInspection {expected : Option ℕ} {set : Assignments} {next proc : Proc}
    {effect : Effect}
    (h : updateInspection db p input expected set next = some (effect, proc)) :
    effect.Sound p db := by
  rcases updateInspection_cases h with ⟨rfl, -⟩ | ⟨row, l, rfl, -, hfree, hcommitted, hl, hp, -⟩
  · trivial
  · exact ⟨hfree, hcommitted, l, hl, hp⟩

/-- Every statement is sound: those that are no `UPDATE` do not touch the lock. -/
theorem Proc.Makes.sound {proc proc' : Proc} {effect : Effect}
    (h : proc.Makes damageTypes db p input effect proc') : effect.Sound p db := by
  cases h with
  | update _ hupdate => exact sound_updateInspection hupdate
  | _ => trivial

/-! ### What an action may do to the row -/

/-- An action is a sound effect of one process. -/
theorem step_sound {s s' : State} {a : Action} (h : step damageTypes s a = some s') :
    ∃ p effect proc, s' = s.after p effect proc ∧ effect.Sound p s.db := by
  rcases step_cases h with ⟨p, request, -, -, rfl⟩ |
    ⟨p, input, effect, proc, -, hmakes, rfl⟩ | ⟨p, -, rfl⟩
  · exact ⟨p, .none, request.proc, rfl, trivial⟩
  · exact ⟨p, effect, proc, rfl, hmakes.sound⟩
  · exact ⟨p, .rollback, _, rfl, trivial⟩

/-- The committed row changes only by a commit of the lock's holder. -/
theorem committed_apply_cases {effect : Effect} (h : effect.Sound p db) :
    (effect.apply p db).row.committed = db.row.committed ∨
      ∃ l, db.row.lock = some l ∧ l.holder = p ∧
        (effect.apply p db).row.committed = l.write db.row.committed := by
  cases effect with
  | none => exact Or.inl rfl
  | lock row => exact Or.inl h.2.1
  | commit tables run => exact db.row.commit_cases p
  | rollback => exact Or.inl LockedRow.committed_rollback

theorem follows_apply {effect : Effect} (h : effect.Sound p db) :
    Follows Inspection.version db.row.committed (effect.apply p db).row.committed := by
  rcases committed_apply_cases h with heq | ⟨l, -, -, hwrite⟩
  · rw [heq]
    exact Follows.refl _
  · rw [hwrite]
    exact (l.bumps _).follows

/-- Every action moves the row forward. -/
theorem follows_step {s s' : State} {a : Action} (h : step damageTypes s a = some s') :
    Follows Inspection.version s.db.row.committed s'.db.row.committed := by
  obtain ⟨p, effect, proc, rfl, hsound⟩ := step_sound h
  exact follows_apply hsound

/-- So does every run. -/
theorem follows_leads {s t : State} (h : (system damageTypes).Leads s t) :
    Follows Inspection.version s.db.row.committed t.db.row.committed := by
  have htrue : (system damageTypes).Invariant fun _ => True :=
    ⟨fun _ _ => trivial, fun _ _ _ _ _ => trivial⟩
  exact htrue.rel_of_leads
    (R := fun s t => Follows Inspection.version s.db.row.committed t.db.row.committed)
    (fun s => Follows.refl _) (fun s t u => Follows.trans)
    (fun s a s' _ hstep => follows_step hstep) trivial h

/-! ### Requests that ask for a version -/

/-- The version `update_with_version` is about to be called with. -/
def Proc.expectedVersion : Proc → Option ℕ
  | .patch (.found body) => some body.version
  | .analyse (.checked row) => some row.version
  | _ => none

/-- The action commits a change of the row under a statement that asked for version `v`. -/
def Changes (damageTypes : DamageTypeTable ℚ) (s : State) (a : Action) (s' : State) (v : ℕ) :
    Prop :=
  step damageTypes s a = some s' ∧ s'.db.row.committed ≠ s.db.row.committed ∧
    ∃ l, s.db.row.lock = some l ∧ l.expected = some v ∧
      s'.db.row.committed = l.write s.db.row.committed

/-- A change under a request for `v` is a change of the row that has version `v`. -/
theorem Changes.version_eq {s s' : State} {a : Action} {v : ℕ}
    (h : Changes damageTypes s a s' v) : s.db.row.committed.version = v := by
  obtain ⟨-, -, l, hl, hexpected, -⟩ := h
  rw [← s.db.row.current l hl]
  exact l.matched v hexpected

/-- An update that gets the lock is the statement the process was about to make. -/
theorem Proc.Makes.expectedVersion {proc proc' : Proc} {effect : Effect} {v : ℕ}
    (h : proc.Makes damageTypes db p input effect proc') (hv : proc.expectedVersion = some v) :
    effect = .rollback ∨ ∃ row l, effect = .lock row ∧ row.lock = some l ∧ l.holder = p ∧
      l.expected = some v ∧ l.base = db.row.committed := by
  cases h with
  | read hread => cases hread <;> cases hv
  | refuse => exact Or.inl rfl
  | raise => exact Or.inl rfl
  | commit hcommit => cases hcommit <;> cases hv
  | @update expected _ _ _ _ hasks hupdate =>
    rcases updateInspection_cases hupdate with ⟨rfl, -⟩ |
      ⟨row, l, rfl, -, -, -, hl, hp, hexp, -, hbase⟩
    · exact Or.inl rfl
    · have hsame : proc.expectedVersion = expected := by cases hasks <;> rfl
      exact Or.inr ⟨row, l, rfl, hl, hp, hexp.trans (hsame.symm.trans hv), hbase⟩

/-- **No lost update.**  Along every run: the version never decreases and determines the row; an
`update_with_version` that matches is applied to the committed row, which has the version asked for
and is the only content that ever has it; every change of the row is computed from the row it
replaces; and of the requests for one version at most one changes the row. -/
theorem no_lost_update {s t : State} (hst : (system damageTypes).Leads s t) :
    (s.db.row.committed.version ≤ t.db.row.committed.version ∧
        (s.db.row.committed.version = t.db.row.committed.version →
          s.db.row.committed = t.db.row.committed)) ∧
      (∀ p input t' v, (t.procs p).expectedVersion = some v →
        step damageTypes t (.exec p input) = some t' → t'.db.row.HeldBy p →
          t.db.row.committed.version = v ∧
          (s.db.row.committed.version = v → s.db.row.committed = t.db.row.committed) ∧
          ∃ l, t'.db.row.lock = some l ∧ l.expected = some v ∧ l.base = t.db.row.committed) ∧
      (∀ a t', step damageTypes t a = some t' → t'.db.row.committed ≠ t.db.row.committed →
        ∃ l, t.db.row.lock = some l ∧ t'.db.row.committed = l.write t.db.row.committed ∧
          ∀ v, l.expected = some v → t.db.row.committed.version = v) ∧
      (∀ v s₀ a, Changes damageTypes s₀ a s v → ∀ b t', ¬ Changes damageTypes t b t' v) := by
  have hfollows := follows_leads hst
  refine ⟨hfollows, ?_, ?_, ?_⟩
  · intro p input t' v hv hstep hheld
    obtain ⟨⟨effect, proc⟩, hexec, rfl⟩ := Option.map_eq_some_iff.mp hstep
    rcases (exec_cases hexec).expectedVersion hv with rfl | ⟨row, l, rfl, hl, -, hexpected, hbase⟩
    · -- a request that is refused does not hold the lock
      obtain ⟨l, hl, hp⟩ := hheld
      exact absurd hp (LockedRow.lock_rollback hl).2
    · have hversion : t.db.row.committed.version = v := by
        rw [← hbase]
        exact l.matched v hexpected
      exact ⟨hversion, fun hs => hfollows.2 (hs.trans hversion.symm), l, hl, hexpected, hbase⟩
  · intro a t' hstep hne
    obtain ⟨p, effect, proc, rfl, hsound⟩ := step_sound hstep
    rcases committed_apply_cases hsound with heq | ⟨l, hl, -, hwrite⟩
    · exact absurd heq hne
    · refine ⟨l, hl, hwrite, fun v hexpected => ?_⟩
      rw [← t.db.row.current l hl]
      exact l.matched v hexpected
  · intro v s₀ a hfirst b t' hsecond
    have hfirst_version := hfirst.version_eq
    -- the first change has passed version `v` for good
    obtain ⟨-, hne, l, hl, -, hwrite⟩ := hfirst
    have hbump : Bumps Inspection.version s₀.db.row.committed s.db.row.committed := by
      rw [hwrite]
      exact l.bumps _
    have hpassed := hbump.version_ne hne hfollows
    exact hpassed (hsecond.version_eq.trans hfirst_version.symm)

/-- A reference table without types. -/
def noTypes : DamageTypeTable ℚ where
  rows := []
  nodup_ids := by decide
  nodup_codes := by decide
  pciWeight_mem := by decide

/-- A new inspection, at time 0. -/
def newInspection : Inspection :=
  create
    { roadSectionId := ⟨"section-1"⟩, inspectionDate := none, weatherCond := none, notes := none }
    ⟨"agent-1"⟩ ⟨"inspection-1"⟩ 0

theorem init_newInspection (damageTypes : DamageTypeTable ℚ) :
    (system damageTypes).init (.created newInspection) := ⟨_, _, _, _, rfl⟩

/-- A moment with a fresh id, and a model that sees nothing. -/
def quietInput (id : String) : Input where
  now := 1
  id := ⟨id⟩
  model := { modelId := ⟨"model-1"⟩, upper := fun s => s, classMapping := none, predict := fun _ => [] }
  processingTimeMs := 0

/-- Two PATCHes that have both read version 1. -/
def twoPatches : List Action :=
  [.start 0 (.patch { version := 1, weatherCond := none, notes := some (some "first") }),
   .start 1 (.patch { version := 1, weatherCond := none, notes := some (some "second") }),
   .exec 0 (quietInput "a"), .exec 1 (quietInput "b"), .exec 0 (quietInput "c"),
   .exec 0 (quietInput "d"), .exec 1 (quietInput "e")]

/-- The first is applied, the second refused. -/
theorem no_lost_update_twoPatches :
    ∃ t, (system noTypes).run (.created newInspection) twoPatches = some t ∧
      t.db.row.committed.notes = some "first" ∧ t.db.row.committed.version = 2 ∧
      newInspection.version ≤ t.db.row.committed.version := by
  have hrun : ((system noTypes).run (.created newInspection) twoPatches).map
      (fun t => (t.db.row.committed.notes, t.db.row.committed.version))
        = some (some "first", 2) := by
    decide
  obtain ⟨t, ht, -, heq⟩ := Machine.reachable_of_map_run (init_newInspection noTypes) hrun
  obtain ⟨hnotes, hversion⟩ := Prod.mk.inj heq
  exact ⟨t, ht, hnotes, hversion, (no_lost_update ⟨twoPatches, ht⟩).1.1⟩

end RoadVisionAI.Inspections
