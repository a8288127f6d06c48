import RoadVisionAI.Detection.ModelRegistry

/-!
# The detector cache (`_get_detector` of `app/workers/analysis_worker.py`)

One process of the worker: the dictionary of loaded detectors with its lock, the files
`Detector.from_weights` leaves on disk, and the calls of `_get_detector`.  An action lets a call go
on, or fail there; promotions come in between.  Where a call reads the object store, `reads` says
which of its reads succeed.
-/

namespace RoadVisionAI.DetectorCache

open Python Db Transition ModelRegistry

/-- A `Detector`: the weights its network was loaded from, and its class mapping. -/
structure Detector where
  weights : ByteArray
  mapping : Json
  modelId : Uuid

/-- The registered models and the objects of their calls, which nothing changes; a config may be
missing. -/
structure Store where
  bucket : Bucket
  objects : ObjectStore
  calls : Uuid → Option RegisterCall
  weights : ∀ id call, calls id = some call →
    objects (bucket.name, call.weightsObject) = some call.weights
  config : ∀ id call data, calls id = some call →
    objects (bucket.name, call.configObject) = some data →
    ∃ registeredAt, data = modelConfig call.classMapping registeredAt

/-- The row is that of a registered model. -/
def Store.Registered (store : Store) (id : Uuid) (model : AiModel) : Prop :=
  ∃ call ∈ store.calls id, model.weightsPath = some (store.bucket.name ++ "/" ++ call.weightsObject)

instance (store : Store) (id : Uuid) (model : AiModel) : Decidable (store.Registered id model) :=
  inferInstanceAs (Decidable (∃ call ∈ store.calls id, _))

/-- `get_object`, when `reads` decides which reads succeed. -/
def Store.getObject (store : Store) (reads : String × String → Bool) (bucket objectName : String) :
    Except PyException ByteArray :=
  if reads (bucket, objectName) then store.objects.getObject bucket objectName
  else .error (.other "S3Error" "SlowDown")

/-- A call of `_get_detector`. -/
inductive Call where
  | idle
  | started
  /-- `get_active` has returned the model. -/
  | found (id : Uuid) (model : AiModel)
  /-- It holds the lock. -/
  | locked (id : Uuid) (model : AiModel)
  /-- `load_artifacts` has returned. -/
  | loaded (id : Uuid) (weights : ByteArray) (mapping : Json)
  /-- The weights are on disk. -/
  | written (id : Uuid) (mapping : Json)
  /-- The detector is in the dictionary, the lock released. -/
  | released (id : Uuid)
  | returned (id : Uuid) (detector : Detector)

structure State where
  active : Option (Uuid × AiModel)
  detectorCache : Uuid → Option Detector
  cacheLock : Option ℕ
  weightsFiles : Uuid → Option ByteArray
  calls : ℕ → Call

/-- An action: a promotion is committed, a call begins, it goes on, or it fails there. -/
inductive Action where
  | promote (id : Uuid) (model : AiModel)
  | start (p : ℕ)
  | exec (p : ℕ) (reads : String × String → Bool)
  | fail (p : ℕ)

namespace State

/-- Call `p` is now at `call`. -/
def goto (s : State) (p : ℕ) (call : Call) : State :=
  { s with calls := Function.update s.calls p call }

/-- The `async with` block is left. -/
def release (s : State) (p : ℕ) (call : Call) : State :=
  { s.goto p call with cacheLock := none }

end State

/-- What a call does next; an exception ends it. -/
def exec (store : Store) (s : State) (p : ℕ) (reads : String × String → Bool) :
    Call → Option State
  | .idle | .returned _ _ => none
  | .started =>
    match s.active with
    | none => some (s.goto p .idle)
    | some (id, model) => some (s.goto p (.found id model))
  | .found id model =>
    match s.cacheLock with
    | some _ => none
    | none => some { s.goto p (.locked id model) with cacheLock := some p }
  | .locked id model =>
    -- a model that is in the dictionary is not loaded again
    if (s.detectorCache id).isSome then some (s.release p (.released id))
    else
      match loadArtifacts (store.getObject reads) model with
      | .error _ => some (s.release p .idle)
      | .ok (weights, mapping) => some (s.goto p (.loaded id weights mapping))
  | .loaded id weights mapping =>
    -- a file that exists is not written again
    let file := (s.weightsFiles id).getD weights
    some { s.goto p (.written id mapping) with
      weightsFiles := Function.update s.weightsFiles id (some file) }
  | .written id mapping =>
    match s.weightsFiles id with
    | none => some (s.release p .idle)
    | some weights =>
      some { s.release p (.released id) with
        detectorCache := Function.update s.detectorCache id
          (some { weights, mapping, modelId := id }) }
  | .released id =>
    match s.detectorCache id with
    | none => some (s.goto p .idle)
    | some detector => some (s.goto p (.returned id detector))

/-- Where an exception leaves a call. -/
def fail (s : State) (p : ℕ) : Call → Option State
  | .idle | .returned _ _ => none
  | .locked _ _ | .loaded _ _ _ | .written _ _ => some (s.release p .idle)
  | .started | .found _ _ | .released _ => some (s.goto p .idle)

/-- One action. -/
def step (store : Store) (s : State) : Action → Option State
  | .promote id model =>
    if store.Registered id model then some { s with active := some (id, model) } else none
  | .start p =>
    match s.calls p with
    | .idle | .returned _ _ => some (s.goto p .started)
    | _ => none
  | .exec p reads => exec store s p reads (s.calls p)
  | .fail p => fail s p (s.calls p)

/-- A process that has just started.  The files of earlier processes hold the weights of their
models. -/
structure Fresh (store : Store) (s : State) : Prop where
  active : ∀ id model, s.active = some (id, model) → store.Registered id model
  detectorCache : ∀ id, s.detectorCache id = none
  cacheLock : s.cacheLock = none
  weightsFiles : ∀ id call data, store.calls id = some call → s.weightsFiles id = some data →
    data = call.weights
  calls : ∀ p, s.calls p = .idle

/-- The process, from its start. -/
def worker (store : Store) : Machine State Action where
  init := Fresh store
  step := step store

end RoadVisionAI.DetectorCache
