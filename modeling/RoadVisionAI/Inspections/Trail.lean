import RoadVisionAI.Inspections.System

/-!
# The audit log of an inspection (`app/repositories/audit_repository.py`)

`system` with the entries that `InspectionService` logs.  Each request has a sender; what its
transaction inserts into `audit_logs` is flushed with the statement before, and shows when it
commits.  The runs of the worker log nothing.  The entries about recommendations are those of
`RecommendationService`.
-/

namespace RoadVisionAI.Trail

open Python Db Transition Inspections

/-! ### Entries -/

/-- The `new_value` of an entry: the columns a PATCH sets, or the place of an uploaded file. -/
inductive NewValue where
  | values (set : Assignments)
  | file (inspectionId : Uuid) (filename : String)
deriving DecidableEq

/-- `audit_logs`, as `AuditRepository.log` fills it. -/
structure AuditLog where
  action : String
  entityType : String
  entityId : Uuid
  userId : Uuid
  newValue : Option NewValue := none
deriving DecidableEq

/-- Who has sent a request, and `upload.filename` if it is an upload. -/
structure Sender where
  actor : Uuid
  filename : Option String := none

/-- `upload.filename or "image.jpg"`. -/
def Sender.imageFilename (sender : Sender) : String :=
  match sender.filename with
  | some name => if name = "" then "image.jpg" else name
  | none => "image.jpg"

/-- The entry of `create`. -/
def creationLog (row : Inspection) : AuditLog where
  action := "INSPECTION_CREATED"
  entityType := "inspections"
  entityId := row.id
  userId := row.createdBy

section

variable (inspectionId : Uuid) (sender : Sender)

/-- The entry of `update`. -/
def updateLog (body : InspectionUpdate) : AuditLog where
  action := "INSPECTION_UPDATED"
  entityType := "inspections"
  entityId := inspectionId
  userId := sender.actor
  newValue := some (.values body.values)

/-- The entry of `soft_delete`. -/
def deletionLog : AuditLog where
  action := "INSPECTION_DELETED"
  entityType := "inspections"
  entityId := inspectionId
  userId := sender.actor

/-- The entry of `upload_image`. -/
def uploadLog (image : RoadImage) : AuditLog where
  action := "IMAGE_UPLOADED"
  entityType := "road_images"
  entityId := image.id
  userId := sender.actor
  newValue := some (.file inspectionId sender.imageFilename)

/-- The entry of `request_analysis`. -/
def analysisLog : AuditLog where
  action := "ANALYSIS_REQUESTED"
  entityType := "inspections"
  entityId := inspectionId
  userId := sender.actor

/-- The entry a process flushes on its way from one stage to the next. -/
def logOf : Proc → Proc → Option AuditLog
  | .patch (.found body), .patch .updated => some (updateLog inspectionId sender body)
  | .softDelete .found, .softDelete .updated => some (deletionLog inspectionId sender)
  | .upload (.numbered _), .upload (.inserted image) => some (uploadLog inspectionId sender image)
  | .analyse (.checked _), .analyse .updated => some (analysisLog inspectionId sender)
  | _, _ => none

end

/-! ### The machine -/

structure State where
  base : Inspections.State
  senders : ℕ → Sender
  /-- What the transaction of a process has inserted. -/
  flushed : ℕ → Option AuditLog
  /-- The committed entries, in the order of their commits. -/
  auditLogs : List AuditLog

/-- An action: a request arrives, a process makes its next statement, or it fails there. -/
inductive Action where
  | start (p : ℕ) (request : Request) (sender : Sender)
  | exec (p : ℕ) (input : Input)
  | fail (p : ℕ)

/-- What the transaction of `p` has inserted after a statement. -/
def State.flushedAfter (s : State) (p : ℕ) (proc : Proc) : Effect → Option AuditLog
  | .commit _ _ | .rollback => none
  | .none | .lock _ =>
    (logOf s.base.db.row.committed.id (s.senders p) (s.base.procs p) proc).or (s.flushed p)

/-- What a statement of `p` commits. -/
def State.logged (s : State) (p : ℕ) : Effect → List AuditLog
  | .commit _ _ => (s.flushed p).toList
  | _ => []

/-- Process `p` has made a statement. -/
def State.after (s : State) (p : ℕ) (effect : Effect) (proc : Proc) : State where
  base := s.base.after p effect proc
  senders := s.senders
  flushed := Function.update s.flushed p (s.flushedAfter p proc effect)
  auditLogs := s.auditLogs ++ s.logged p effect

/-- One action. -/
def step (damageTypes : DamageTypeTable ℚ) (s : State) : Action → Option State
  | .start p request sender =>
    match s.base.procs p with
    | .idle => some { s with
        base := s.base.after p .none request.proc
        senders := Function.update s.senders p sender }
    | _ => none
  | .exec p input =>
    (Inspections.exec damageTypes s.base.db p input (s.base.procs p)).map fun outcome =>
      s.after p outcome.1 outcome.2
  | .fail p =>
    match s.base.procs p with
    | .idle => none
    | proc => some (s.after p .rollback proc.afterFailure)

/-- The state right after `create`. -/
def State.created (row : Inspection) (senders : ℕ → Sender) : State where
  base := .created row
  senders
  flushed := fun _ => none
  auditLogs := [creationLog row]

/-- The inspection with its audit log, from its creation on. -/
def audited (damageTypes : DamageTypeTable ℚ) : Machine State Action where
  init s := ∃ data actor id now senders, s = .created (create data actor id now) senders
  step := step damageTypes

end RoadVisionAI.Trail
