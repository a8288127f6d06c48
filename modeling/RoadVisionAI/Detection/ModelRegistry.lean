import RoadVisionAI.Db.Models
import RoadVisionAI.Python.Dumps
import RoadVisionAI.Python.Rounding
import RoadVisionAI.Transition.LockedTable
import RoadVisionAI.Transition.Machine
import Mathlib.Data.Rat.Floor

/-!
# The model registry (`app/ai/detection/model_registry.py`)

`register` and `promote` as processes over the table `ai_models` and the bucket of the models.  An
action lets a process make its next statement or its next upload, or fail there; a transaction that
fails is rolled back, an upload is not.  The bulk `UPDATE` of `promote` takes the rows its snapshot
selects one after the other: it waits for the lock of a row, and once it has it looks again whether
the row is active.

`created` records, for the statements about histories, which call each row comes from.
-/

namespace RoadVisionAI.ModelRegistry

open Python Db Transition

/-! ### Rows and objects -/

/-- `ai_models`, without the columns that describe the training. -/
structure AiModel where
  name : String
  version : String
  weightsPath : Option String
  status : ModelStatus
  isActive : Bool
  trainedAt : ℕ
  deployedAt : Option ℕ
  deprecatedAt : Option ℕ
deriving DecidableEq

/-- The `CHECK` constraints. -/
def AiModel.Checks (model : AiModel) : Prop :=
  (∃ c ∈ model.name.toList, c ≠ ' ') ∧
    (∀ path ∈ model.weightsPath, ∃ c ∈ path.toList, c ≠ ' ') ∧
    (∀ time ∈ model.deployedAt, model.trainedAt ≤ time) ∧
    ∀ time ∈ model.deprecatedAt, model.trainedAt ≤ time

instance (model : AiModel) : Decidable model.Checks :=
  -- by the characters that are there, not over all characters
  have (text : String) : Decidable (∃ c ∈ text.toList, c ≠ ' ') := List.decidableBEx _ _
  inferInstanceAs (Decidable (_ ∧ _ ∧ _ ∧ _))

/-- `uq_model_name_version`. -/
def nameVersion (model : AiModel) : Option (String × String) := some (model.name, model.version)

/-- `uq_one_active_model`, on the active rows only. -/
def oneActive (model : AiModel) : Option Bool :=
  if model.isActive then some model.isActive else none

/-- The bucket of `settings.minio_bucket_models`; no bucket has a slash in its name. -/
structure Bucket where
  name : String
  noSlash : '/' ∉ name.toList

/-- The stored objects, by bucket and object name. -/
abbrev ObjectStore := String × String → Option ByteArray

/-- `get_object`. -/
def ObjectStore.getObject (objects : ObjectStore) (bucket objectName : String) :
    Except PyException ByteArray :=
  match objects (bucket, objectName) with
  | some data => .ok data
  | none => .error (.other "S3Error" "NoSuchKey")

/-- `json.dumps({"class_mapping": class_mapping, "registered_at": registered_at}, indent=2)`. -/
def modelConfig (classMapping : Dict String String) (registeredAt : String) : ByteArray :=
  let mapping := dumpsObject 1 (classMapping.entries.map fun item => (item.1, dumpsString item.2))
  (String.ofList (dumpsObject 0
    [("class_mapping", mapping), ("registered_at", dumpsString registeredAt)])).toByteArray

/-- The class mapping a config holds, or the empty one after any exception. -/
def classMappingOf (config : Except PyException ByteArray) : Json :=
  match config >>= loadBytes with
  | .ok (.obj fields) => (fields.lookup "class_mapping").getD (.obj [])
  | _ => .obj []

/-- `load_artifacts`. -/
def loadArtifacts (getObject : String → String → Except PyException ByteArray) (model : AiModel) :
    Except PyException (ByteArray × Json) :=
  let path := model.weightsPath.getD ""
  if path = "" then .error (.other "HTTPException" "409: Model has no weights_path")
  else do
    let (bucket, objectName) := partitionAt '/' path
    let weights ← getObject bucket objectName
    let folder := rsplitHead '/' objectName
    return (weights, classMappingOf (getObject bucket (folder ++ "/model_config.json")))

/-! ### Requests -/

/-- The arguments of `register`, within the bounds of the endpoint. -/
structure RegisterCall where
  name : String
  version : String
  weights : ByteArray
  classMapping : Dict String String
  actorId : Uuid
  nameLength : 3 ≤ name.length ∧ name.length ≤ 200
  versionLength : 1 ≤ version.length ∧ version.length ≤ 50
  weightsSize : 0 < weights.size ∧ weights.size ≤ 500 * 1024 * 1024

namespace RegisterCall

variable (call : RegisterCall)

/-- `prefix`. -/
def folder : String := call.name ++ "/" ++ call.version

/-- Where the weights go. -/
def weightsObject : String := call.folder ++ "/best.pt"

/-- Where the config goes. -/
def configObject : String := call.folder ++ "/model_config.json"

/-- `round(len(weights) / (1024 * 1024), 2)`. -/
def modelSizeMb : ℚ := pyRound ((call.weights.size : ℚ) / (1024 * 1024)) 2

/-- The row `register` inserts. -/
def row (bucket : Bucket) (now : ℕ) : AiModel where
  name := call.name
  version := call.version
  weightsPath := some (bucket.name ++ "/" ++ call.weightsObject)
  status := .STAGING
  isActive := false
  trainedAt := now
  deployedAt := none
  deprecatedAt := none

end RegisterCall

/-- The arguments of `promote`. -/
structure PromoteCall where
  modelId : Uuid
  actorId : Uuid

/-- A request to the registry. -/
inductive Request where
  | register (call : RegisterCall)
  | promote (call : PromoteCall)

/-! ### Processes -/

inductive RegisterStage where
  | started
  /-- No row has the name and version. -/
  | checked
  | weightsStored
  | configStored
  /-- The row is flushed. -/
  | inserted (id : Uuid)

inductive PromoteStage where
  | started
  /-- The row is read, and not active. -/
  | found (model : AiModel)
  /-- In the bulk `UPDATE`, with the selected rows it has not come to. -/
  | retiring (model : AiModel) (now : ℕ) (selected : List Uuid)
  /-- The model's own row is flushed. -/
  | activated (model : AiModel)

inductive Proc where
  | idle
  | register (call : RegisterCall) (stage : RegisterStage)
  | promote (call : PromoteCall) (stage : PromoteStage)

/-- The process a request starts. -/
def Request.proc : Request → Proc
  | .register call => .register call .started
  | .promote call => .promote call .started

/-- What a statement finds outside: the clock, its ISO text, a fresh identifier. -/
structure Input where
  now : ℕ
  isoformat : String
  id : Uuid

/-- `audit_logs`. -/
structure AuditLog where
  action : String
  entityType : String
  entityId : Uuid
  userId : Uuid
  newValue : Json

/-- The `MODEL_REGISTERED` entry. -/
def RegisterCall.auditLog (call : RegisterCall) (id : Uuid) : AuditLog where
  action := "MODEL_REGISTERED"
  entityType := "ai_models"
  entityId := id
  userId := call.actorId
  newValue := .obj
    [("name", .str call.name), ("version", .str call.version),
     ("size_mb", .float (.finite call.modelSizeMb))]

/-- The `MODEL_PROMOTED` entry, with the name and the version as they were read. -/
def PromoteCall.auditLog (call : PromoteCall) (model : AiModel) : AuditLog where
  action := "MODEL_PROMOTED"
  entityType := "ai_models"
  entityId := call.modelId
  userId := call.actorId
  newValue := .obj [("name", .str model.name), ("version", .str model.version)]

structure Database where
  models : LockedTable Uuid AiModel
  objects : ObjectStore
  auditLogs : List AuditLog

/-- What a statement does. -/
inductive Effect where
  | none
  | write (models : LockedTable Uuid AiModel)
  | putObject (bucket objectName : String) (data : ByteArray)
  | commit (auditLog : AuditLog)
  | rollback

/-- The database after the effect of a statement of process `p`. -/
def Effect.apply (p : ℕ) (db : Database) : Effect → Database
  | .none => db
  | .write models => { db with models }
  | .putObject bucket objectName data =>
    { db with objects := Function.update db.objects (bucket, objectName) (some data) }
  | .commit auditLog =>
    { db with models := db.models.commit p, auditLogs := db.auditLogs ++ [auditLog] }
  | .rollback => { db with models := db.models.rollback p }

/-! ### The statements -/

section Statements

variable (bucket : Bucket) (db : Database) (p : ℕ) (input : Input)

/-- The request ends with an error response. -/
def refuse : Option (Effect × Proc) := some (.rollback, .idle)

/-- `register`. -/
def execRegister (call : RegisterCall) : RegisterStage → Option (Effect × Proc)
  | .started =>
    -- the guard sees the committed rows only
    if db.models.select p (fun row => nameVersion row = some (call.name, call.version)) = [] then
      some (.none, .register call .checked)
    else refuse
  | .checked =>
    -- an upload is no part of the transaction: a rollback leaves it
    some (.putObject bucket.name call.weightsObject call.weights, .register call .weightsStored)
  | .weightsStored =>
    some (.putObject bucket.name call.configObject (modelConfig call.classMapping input.isoformat),
      .register call .configStored)
  | .configStored =>
    let row := call.row bucket input.now
    -- where the flush would raise, or wait for another transaction, only a failure is left
    if row.Checks ∧ input.id ∉ db.models.keys ∧
        db.models.Admits nameVersion p input.id row then
      some (.write (db.models.write p input.id row), .register call (.inserted input.id))
    else none
  | .inserted id => some (.commit (call.auditLog id), .idle)

/-- The row after the bulk `UPDATE`. -/
def AiModel.retire (row : AiModel) (now : ℕ) : AiModel :=
  { row with isActive := false, status := .DEPRECATED, deprecatedAt := some now }

/-- The row after the flush of the promoted model: the columns that differ from those read. -/
def AiModel.activate (row model : AiModel) (now : ℕ) : AiModel :=
  { row with
    isActive := if model.isActive = true then row.isActive else true
    status := if model.status = .PRODUCTION then row.status else .PRODUCTION
    deployedAt := if model.deployedAt = some now then row.deployedAt else some now }

/-- One row of the bulk `UPDATE`. -/
def execRetire (id : Uuid) (now : ℕ) (next : Proc) : Option (Effect × Proc) :=
  if (db.models.slots id).Free p then
    match (db.models.slots id).visible p with
    | none => some (.none, next)
    | some row =>
      -- the `WHERE` clause once more, on the version that is there now
      if row.isActive then
        if (row.retire now).Checks then some (.write (db.models.write p id (row.retire now)), next)
        else none
      else some (.none, next)
  else none

/-- The flush of the promoted model, if `uq_one_active_model` accepts it. -/
def execActivate (call : PromoteCall) (model : AiModel) : Option (Effect × Proc) :=
  match (db.models.slots call.modelId).visible p with
  | none => none
  | some row =>
    let activated := row.activate model input.now
    if (db.models.slots call.modelId).Free p ∧ activated.Checks ∧
        db.models.Admits oneActive p call.modelId activated then
      some (.write (db.models.write p call.modelId activated), .promote call (.activated model))
    else none

/-- `promote`. -/
def execPromote (call : PromoteCall) : PromoteStage → Option (Effect × Proc)
  | .started =>
    match (db.models.slots call.modelId).visible p with
    | none => refuse
    | some model =>
      -- what is read here is what the flush compares with, however old it is by then
      if model.isActive then refuse else some (.none, .promote call (.found model))
  | .found model =>
    some (.none,
      .promote call (.retiring model input.now (db.models.select p AiModel.isActive)))
  | .retiring model now (id :: selected) =>
    execRetire db p id now (.promote call (.retiring model now selected))
  | .retiring model _ [] => execActivate db p input call model
  | .activated model => some (.commit (call.auditLog model), .idle)

/-- The next statement of a process. -/
def exec : Proc → Option (Effect × Proc)
  | .idle => none
  | .register call stage => execRegister bucket db p input call stage
  | .promote call stage => execPromote db p input call stage

end Statements

/-! ### The machine -/

structure State where
  db : Database
  procs : ℕ → Proc
  created : Uuid → Option RegisterCall

/-- An action: a request arrives, a process makes its next statement, or it fails there. -/
inductive Action where
  | start (p : ℕ) (request : Request)
  | exec (p : ℕ) (input : Input)
  | fail (p : ℕ)

/-- The row the next statement of the process inserts, and the call it comes from. -/
def Proc.creates (input : Input) : Proc → Option (Uuid × RegisterCall)
  | .register call .configStored => some (input.id, call)
  | _ => none

/-- Process `p` has made a statement. -/
def State.after (s : State) (p : ℕ) (effect : Effect) (proc : Proc) : State where
  db := effect.apply p s.db
  procs := Function.update s.procs p proc
  created := s.created

/-- An inserted row goes on record. -/
def State.record (s : State) : Option (Uuid × RegisterCall) → State
  | none => s
  | some (id, call) => { s with created := Function.update s.created id (some call) }

/-- One action. -/
def step (bucket : Bucket) (s : State) : Action → Option State
  | .start p request =>
    match s.procs p with
    | .idle => some (s.after p .none request.proc)
    | _ => none
  | .exec p input =>
    (exec bucket s.db p input (s.procs p)).map fun outcome =>
      (s.after p outcome.1 outcome.2).record ((s.procs p).creates input)
  | .fail p =>
    match s.procs p with
    | .idle => none
    | _ => some (s.after p .rollback .idle)

/-- The empty registry. -/
def State.empty : State where
  db := { models := .empty, objects := fun _ => none, auditLogs := [] }
  procs := fun _ => .idle
  created := fun _ => none

/-- The registry, from the beginning. -/
def registry (bucket : Bucket) : Machine State Action where
  init s := s = State.empty
  step := step bucket

end RoadVisionAI.ModelRegistry
