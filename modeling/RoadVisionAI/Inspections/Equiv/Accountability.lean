import RoadVisionAI.Inspections.Equiv.Trail
import RoadVisionAI.Transition.Past

/-!
# Every entry has its request

An entry of the audit log is that of a request which has arrived, by the user who has sent it, and
no two entries are those of the same request (`logged_once`).

A request that arrives is an entry granted; its process holds it, first as what it has yet to flush
and then as what it has flushed, until a commit spends it or a failure drops it.
-/

namespace RoadVisionAI.Trail

open Python Db Transition Inspections

variable {damageTypes : DamageTypeTable ℚ} {inspectionId : Uuid} {p : ℕ}

/-! ### Receipts -/

/-- What an entry says of its request: all but the row it is about. -/
structure Receipt where
  action : String
  userId : Uuid
  newValue : Option NewValue
deriving DecidableEq

def AuditLog.receipt (entry : AuditLog) : Receipt where
  action := entry.action
  userId := entry.userId
  newValue := entry.newValue

section

variable (inspectionId : Uuid) (sender : Sender)

/-- The entry of a request, as far as the request goes. -/
def asked : Request → Option Receipt
  | .patch body => some (updateLog inspectionId sender body).receipt
  | .softDelete => some (deletionLog inspectionId sender).receipt
  | .uploadImage => some {
      action := "IMAGE_UPLOADED"
      userId := sender.actor
      newValue := some (.file inspectionId sender.imageFilename) }
  | .analyse => some (analysisLog inspectionId sender).receipt
  | .recommend _ => none

/-- What a process has yet to flush. -/
def owed : Proc → Option Receipt
  | .patch (.started body) | .patch (.found body) => asked inspectionId sender (.patch body)
  | .softDelete .started | .softDelete .found => asked inspectionId sender .softDelete
  | .upload .started | .upload .found | .upload (.numbered _) =>
    asked inspectionId sender .uploadImage
  | .analyse .started | .analyse (.loaded _) | .analyse (.checked _) =>
    asked inspectionId sender .analyse
  | _ => none

theorem owed_proc (request : Request) :
    owed inspectionId sender request.proc = asked inspectionId sender request := by
  cases request <;> rfl

end

/-- The entry of the request an action is the arrival of. -/
def Action.asked (inspectionId : Uuid) : Action → Option Receipt
  | .start _ request sender => Trail.asked inspectionId sender request
  | _ => none

/-! ### What a process holds -/

/-- What is yet to flush, and what is flushed. -/
def holding (owed : Option Receipt) (flushed : Option AuditLog) : Multiset Receipt :=
  owed.toList + (flushed.map AuditLog.receipt).toList

/-- What a process holds. -/
def State.held (inspectionId : Uuid) (s : State) (p : ℕ) : Multiset Receipt :=
  holding (owed inspectionId (s.senders p) (s.base.procs p)) (s.flushed p)

/-- What is logged. -/
def State.spent (s : State) : Multiset Receipt := s.auditLogs.map AuditLog.receipt

section

variable {sender : Sender} {db : Database} {input : Input} {proc proc' : Proc}

theorem owed_reads (hreads : proc.Reads damageTypes db input proc') :
    (owed inspectionId sender proc).toList
      = ((logOf inspectionId sender proc proc').map AuditLog.receipt).toList ++
        (owed inspectionId sender proc').toList := by
  cases hreads <;> rfl

theorem owed_updates {expected : Option ℕ} {set : Assignments}
    (hasks : proc.Updates input expected set proc') :
    (owed inspectionId sender proc).toList
      = ((logOf inspectionId sender proc proc').map AuditLog.receipt).toList ++
        (owed inspectionId sender proc').toList := by
  cases hasks <;> rfl

/-- A commit leaves nothing to flush. -/
theorem owed_commits {tables : Tables} {run : Option WorkerRun}
    (hcommits : proc.Commits db tables run proc') : owed inspectionId sender proc' = none := by
  cases hcommits <;> rfl

theorem owed_afterFailure : owed inspectionId sender proc.afterFailure = none := by
  unfold Proc.afterFailure
  split <;> rfl

end

theorem toList_or_le {α : Type*} (a b : Option α) :
    ((a.or b).toList : Multiset α) ≤ a.toList + b.toList := by
  cases a with
  | none => exact le_of_eq (zero_add _).symm
  | some => exact Multiset.le_add_right _ _

section Steps

variable {s : State} {input : Input} {proc : Proc} {effect : Effect}

theorem spent_after : (s.after p effect proc).spent
    = s.spent + ((s.logged p effect).map AuditLog.receipt : List Receipt) := by
  show (((s.auditLogs ++ s.logged p effect).map AuditLog.receipt : List Receipt) :
    Multiset Receipt) = _
  rw [List.map_append, ← Multiset.coe_add]
  rfl

theorem held_after : (s.after p effect proc).held inspectionId p
    = holding (owed inspectionId (s.senders p) proc) (s.flushedAfter p proc effect) := by
  show holding (owed inspectionId (s.senders p) ((s.base.after p effect proc).procs p))
    (Function.update s.flushed p (s.flushedAfter p proc effect) p) = _
  rw [State.procs_after_self, Function.update_self]

theorem held_after_of_ne {q : ℕ} (h : q ≠ p) :
    (s.after p effect proc).held inspectionId q = s.held inspectionId q := by
  show holding (owed inspectionId (s.senders q) ((s.base.after p effect proc).procs q))
    (Function.update s.flushed p (s.flushedAfter p proc effect) q) = _
  rw [State.procs_after_of_ne h, Function.update_of_ne h]
  rfl

/-- A rollback drops what is held. -/
theorem held_rollback (h : owed inspectionId (s.senders p) proc = none) :
    (s.after p .rollback proc).spent + (s.after p .rollback proc).held inspectionId p
      ≤ s.spent + s.held inspectionId p := by
  rw [spent_after, held_after, h]
  exact add_le_add (le_of_eq (add_zero _)) (Multiset.zero_le _)

/-- A statement that does not end the transaction flushes what was to be flushed. -/
theorem held_flush (heffect : effect = .none ∨ ∃ row, effect = .lock row)
    (h : (owed inspectionId (s.senders p) (s.base.procs p)).toList
      = ((logOf s.base.db.row.committed.id (s.senders p) (s.base.procs p) proc).map
          AuditLog.receipt).toList ++ (owed inspectionId (s.senders p) proc).toList) :
    (s.after p effect proc).spent + (s.after p effect proc).held inspectionId p
      ≤ s.spent + s.held inspectionId p := by
  have hlogged : s.logged p effect = [] := by
    rcases heffect with rfl | ⟨row, rfl⟩ <;> rfl
  have hflushed : s.flushedAfter p proc effect
      = (logOf s.base.db.row.committed.id (s.senders p) (s.base.procs p) proc).or
          (s.flushed p) := by
    rcases heffect with rfl | ⟨row, rfl⟩ <;> rfl
  rw [spent_after, held_after, hlogged, hflushed, State.held, holding, holding, Option.map_or, h,
    ← Multiset.coe_add]
  refine add_le_add (le_of_eq (add_zero _)) ?_
  rw [add_comm (Multiset.ofList _) (Multiset.ofList (owed _ _ _).toList), add_assoc]
  exact add_le_add le_rfl (toList_or_le _ _)

/-- A commit logs what is held. -/
theorem held_commit {tables : Tables} {run : Option WorkerRun}
    (h : owed inspectionId (s.senders p) proc = none) :
    (s.after p (.commit tables run) proc).spent +
        (s.after p (.commit tables run) proc).held inspectionId p
      ≤ s.spent + s.held inspectionId p := by
  have hlogged : (s.logged p (.commit tables run)).map AuditLog.receipt
      = ((s.flushed p).map AuditLog.receipt).toList := by
    show (s.flushed p).toList.map _ = _
    cases s.flushed p <;> rfl
  have hnothing : holding none (s.flushedAfter p proc (.commit tables run)) = 0 := rfl
  rw [spent_after, held_after, h, hlogged, hnothing, add_zero]
  exact add_le_add le_rfl (Multiset.le_add_left _ _)

/-- A statement spends what its process holds. -/
theorem held_makes (hid : s.base.db.row.committed.id = inspectionId)
    (hmakes : (s.base.procs p).Makes damageTypes s.base.db p input effect proc) :
    (s.after p effect proc).spent + (s.after p effect proc).held inspectionId p
      ≤ s.spent + s.held inspectionId p := by
  cases hmakes with
  | read hreads => exact held_flush (Or.inl rfl) (by rw [hid]; exact owed_reads hreads)
  | refuse => exact held_rollback rfl
  | raise => exact held_rollback rfl
  | update hasks hupdate =>
    rcases updateInspection_cases hupdate with ⟨rfl, rfl⟩ | ⟨row, l, rfl, rfl, -⟩
    · exact held_rollback rfl
    · exact held_flush (Or.inr ⟨row, rfl⟩) (by rw [hid]; exact owed_updates hasks)
  | commit hcommits => exact held_commit (owed_commits hcommits)

end Steps

/-! ### Runs -/

/-- A state, and the actions so far. -/
structure Accounted (damageTypes : DamageTypeTable ℚ) (inspectionId : Uuid) (first : Receipt)
    (s : State) (done : List Action) : Prop where
  sound : Sound damageTypes s
  id : s.base.db.row.committed.id = inspectionId
  covered : Machine.Covered (State.held inspectionId) State.spent s
    ({first} + (done.filterMap (Action.asked inspectionId) : List Receipt))

/-- What an action asks for is what has been asked for since. -/
theorem asked_append (done : List Action) (a : Action) :
    ((done ++ [a]).filterMap (Action.asked inspectionId) : Multiset Receipt)
      = (done.filterMap (Action.asked inspectionId) : List Receipt) +
        ((a.asked inspectionId).toList : Multiset Receipt) := by
  rw [List.filterMap_append, ← Multiset.coe_add, List.filterMap_cons]
  cases a.asked inspectionId <;> rfl

theorem accounted_step {first : Receipt} {s s' : State} {done : List Action} {a : Action}
    (h : Accounted damageTypes inspectionId first s done)
    (hstep : (audited damageTypes).step s a = some s') :
    Accounted damageTypes inspectionId first s' (done ++ [a]) := by
  have hsound := sound_step h.sound hstep
  rcases step_cases hstep with ⟨p, request, sender, rfl, hidle, rfl⟩ |
    ⟨p, input, effect, proc, rfl, hmakes, rfl⟩ | ⟨p, rfl, -, rfl⟩
  · refine ⟨hsound, h.id, ?_⟩
    rw [asked_append, ← add_assoc]
    refine h.covered.step p (fun q hq => ?_) ?_
    · show holding (owed inspectionId (Function.update s.senders p sender q)
        ((s.base.after p .none request.proc).procs q)) (s.flushed q) = _
      rw [Function.update_of_ne hq, State.procs_after_of_ne hq]
      rfl
    · show s.spent + holding (owed inspectionId (Function.update s.senders p sender p)
        ((s.base.after p .none request.proc).procs p)) (s.flushed p) ≤ _
      rw [Function.update_self, State.procs_after_self, owed_proc, State.held, hidle, add_assoc]
      refine add_le_add le_rfl (le_of_eq ?_)
      rw [add_comm]
      exact congrArg (· + _) (zero_add _).symm
  · refine ⟨hsound, (id_apply h.sound.assigns hmakes.sound).trans h.id, ?_⟩
    rw [asked_append, ← add_assoc]
    refine h.covered.step p (fun q hq => held_after_of_ne hq) ?_
    exact (held_makes h.id hmakes).trans (Multiset.le_add_right _ _)
  · refine ⟨hsound, (congrArg _ LockedRow.committed_rollback).trans h.id, ?_⟩
    rw [asked_append, ← add_assoc]
    refine h.covered.step p (fun q hq => held_after_of_ne hq) ?_
    exact (held_rollback owed_afterFailure).trans (Multiset.le_add_right _ _)

end RoadVisionAI.Trail
