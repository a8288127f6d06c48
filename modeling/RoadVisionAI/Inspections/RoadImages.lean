import RoadVisionAI.Detection.ModelRegistry
import RoadVisionAI.Inspections.System

/-!
# The pictures of an inspection

What `system` leaves out of `InspectionService.upload_image` and of `_run`: the file of an upload
and the checks on it, the object `StorageService.put_image` stores, the columns of `road_images`,
and the downloads a run makes before it predicts.  A state is one of `system`, what every process
holds besides, the stored objects and the full rows; an action makes the statement `system` says,
or, for the checks and the `put_object` of an upload, none.

Pillow, YOLO and `str.lower` are parameters.  The objects of other inspections have other names.
-/

namespace RoadVisionAI.RoadImages

open Python Db Transition Inspections AnalysisWorker
open Detector (YoloBox)
open ModelRegistry (Bucket ObjectStore)

/-! ### What is outside -/

/-- The active `Detector`: its model predicts on a file, by its name and its bytes. -/
structure LoadedDetector where
  modelId : Uuid
  upper : String → String
  classMapping : Option (Dict String String)
  predict : String → ByteArray → Except PyException (List (YoloBox ℚ))

/-- The bucket of `settings.minio_bucket_road_images`, `str.lower`, `img.size` of
`Image.open(io.BytesIO(data))`, and the detectors `_get_detector` can return. -/
structure Env where
  bucket : Bucket
  lower : String → String
  imageSize : ByteArray → Except PyException (ℕ × ℕ)
  detectors : Set LoadedDetector

/-! ### The file of an upload -/

/-- `ALLOWED_IMAGE_TYPES`. -/
def allowedImageTypes : List String := ["image/jpeg", "image/png"]

/-- `MAX_IMAGE_BYTES`. -/
def maxImageBytes : ℕ := 25 * 1024 * 1024

/-- An `UploadFile`, and what `read` returns. -/
structure UploadFile where
  contentType : Option String
  filename : Option String
  data : ByteArray
deriving Inhabited

/-- What the checks find out. -/
structure Payload where
  contentType : String
  width : ℕ
  height : ℕ

/-- The checks of `upload_image`, in their order. -/
def UploadFile.check (env : Env) (file : UploadFile) : Except Raised Payload :=
  let contentType := env.lower (file.contentType.getD "")
  if contentType ∉ allowedImageTypes then
    .error (.http ⟨415, s!"Unsupported image type '{contentType}' (allowed: JPEG, PNG)", []⟩)
  else if file.data.size = 0 then .error (.http ⟨400, "Empty file", []⟩)
  else if maxImageBytes < file.data.size then
    .error (.http ⟨413, s!"Image exceeds {maxImageBytes / (1024 * 1024)} MB limit", []⟩)
  else
    match env.imageSize file.data with
    | .error _ => .error (.http ⟨400, "File is not a valid image", []⟩)
    | .ok (width, height) => .ok { contentType, width, height }

/-- `upload.filename or "image.jpg"`. -/
def UploadFile.name (file : UploadFile) : String :=
  match file.filename with
  | some name => if name = "" then "image.jpg" else name
  | none => "image.jpg"

/-- The object name of `put_image`. -/
def UploadFile.objectName (file : UploadFile) (inspectionId : Uuid) (hex : String) : String :=
  s!"{inspectionId.str}/{hex}_{file.name}"

/-! ### The rows -/

/-- `road_images`; the position and the times are left out. -/
structure RoadImage extends Db.RoadImage where
  filename : String
  storagePath : String
  fileSize : ℕ
  mimeType : String
  width : ℕ
  height : ℕ
deriving DecidableEq

/-- The row of an upload. -/
def UploadFile.image (env : Env) (file : UploadFile) (payload : Payload) (objectName : String)
    (id : Uuid) (sequenceNum : ℕ) : RoadImage where
  id
  sequenceNum
  filename := file.name
  storagePath := s!"{env.bucket.name}/{objectName}"
  fileSize := file.data.size
  mimeType := payload.contentType
  width := payload.width
  height := payload.height

/-- The `CHECK` constraints, the lengths, and what PostgreSQL can take. -/
def RoadImage.Checks (image : RoadImage) : Prop :=
  (∃ c ∈ image.filename.toList, c ≠ ' ') ∧ (∃ c ∈ image.storagePath.toList, c ≠ ' ') ∧
    image.filename.length ≤ 255 ∧ image.storagePath.length ≤ 500 ∧ image.mimeType.length ≤ 100 ∧
    (∀ c ∈ image.storagePath.toList, c ≠ Char.ofNat 0) ∧ image.fileSize < 2 ^ 63 ∧
    0 < image.width ∧ image.width < 2 ^ 31 ∧ 0 < image.height ∧ image.height < 2 ^ 31 ∧
    image.sequenceNum < 2 ^ 31

instance (image : RoadImage) : Decidable image.Checks :=
  -- by the characters that are there, not over all characters
  have (s : String) : Decidable (∃ c ∈ s.toList, c ≠ ' ') := List.decidableBEx _ _
  have (s : String) : Decidable (∀ c ∈ s.toList, c ≠ Char.ofNat 0) := List.decidableBAll _ _
  inferInstanceAs (Decidable (_ ∧ _ ∧ _ ∧ _ ∧ _ ∧ _ ∧ _ ∧ _ ∧ _ ∧ _ ∧ _ ∧ _))

/-! ### The downloads of a run -/

/-- `Path(filename).suffix`. -/
def pathSuffix (filename : String) : String :=
  let parts := (filename.toList.splitOn '/').filter fun part => part ≠ [] ∧ part ≠ ['.']
  let name := parts.getLastD []
  let extension := name.rtakeWhile (· ≠ '.')
  let stem := name.take (name.length - extension.length - 1)
  if '.' ∈ name ∧ stem ≠ [] ∧ extension ≠ [] then String.ofList ('.' :: extension) else ""

/-- `f"{image.id}{Path(image.filename).suffix or '.jpg'}"`. -/
def RoadImage.localName (image : RoadImage) : String :=
  let suffix := pathSuffix image.filename
  image.id.str ++ if suffix = "" then ".jpg" else suffix

/-- The download of a picture. -/
def RoadImage.download (objects : ObjectStore) (image : RoadImage) : Except PyException ByteArray :=
  let (bucket, objectName) := partitionAt '/' image.storagePath
  objects.getObject bucket objectName

/-- A round of the loop of `_run`: the download, and the prediction on the local file. -/
def LoadedDetector.round (detector : LoadedDetector) (objects : ObjectStore) (image : RoadImage) :
    Except PyException (Uuid × List (YoloBox ℚ)) := do
  let data ← image.download objects
  return (image.id, ← detector.predict image.localName data)

/-- The detector, with what its model has predicted. -/
def LoadedDetector.onResults (detector : LoadedDetector)
    (results : List (Uuid × List (YoloBox ℚ))) : ActiveModel ℚ where
  modelId := detector.modelId
  upper := detector.upper
  classMapping := detector.classMapping
  predict image := ((Dict.ofItems results).get? image.id).getD []

/-! ### The machine -/

/-- What a process holds besides its stage. -/
inductive Held where
  | nothing
  | file (file : UploadFile)
  /-- The checks have passed, and the object is stored. -/
  | stored (file : UploadFile) (payload : Payload) (objectName : String)
  /-- The row is flushed. -/
  | inserted (image : RoadImage)
  /-- The rows a run has read. -/
  | selected (images : List RoadImage)

structure State where
  base : Inspections.State
  held : ℕ → Held
  objects : ObjectStore
  roadImages : List RoadImage

/-- What a statement finds outside: the clock, a fresh identifier, `uuid.uuid4().hex`, the active
detector and the time it takes. -/
structure Input where
  now : ℕ
  id : Uuid
  hex : String
  detector : LoadedDetector
  processingTimeMs : ℕ

/-- An action: a request arrives, with a file if it is an upload, a process goes on, or it fails. -/
inductive Action where
  | start (p : ℕ) (request : Request)
  | upload (p : ℕ) (file : UploadFile)
  | exec (p : ℕ) (input : Input)
  | fail (p : ℕ)

/-- A statement of `system`, after which process `p` holds `held`. -/
def State.along (damageTypes : DamageTypeTable ℚ) (s : State) (p : ℕ) (held : Held)
    (action : Inspections.Action) : Option State :=
  (Inspections.step damageTypes s.base action).map fun base =>
    { s with base, held := Function.update s.held p held }

/-- What `system` is told of the moment, with what the model has predicted. -/
def Input.base (input : Input) (results : List (Uuid × List (YoloBox ℚ))) : Inspections.Input where
  now := input.now
  id := input.id
  model := input.detector.onResults results
  processingTimeMs := input.processingTimeMs

/-- The next step of a process. -/
def exec (env : Env) (damageTypes : DamageTypeTable ℚ) (s : State) (p : ℕ) (input : Input) :
    Option State :=
  let along := s.along damageTypes p
  match s.base.procs p, s.held p with
  | .upload .found, .file file =>
    match file.check env with
    | .error _ => along .nothing (.fail p)
    | .ok payload =>
      let objectName := file.objectName s.base.db.row.committed.id input.hex
      some { s with
        held := Function.update s.held p (.stored file payload objectName)
        objects :=
          Function.update s.objects (env.bucket.name, objectName) (some file.data) }
  | .upload (.numbered sequenceNum), .stored file payload objectName =>
    let image := file.image env payload objectName input.id sequenceNum
    if image.Checks then along (.inserted image) (.exec p (input.base [])) else none
  | .upload (.inserted _), .inserted image =>
    (along .nothing (.exec p (input.base []))).map fun t =>
      { t with roadImages := s.roadImages ++ [image] }
  | .worker (.loaded _), _ => along (.selected s.roadImages) (.exec p (input.base []))
  | .worker (.clearedResults _ _ _), .selected images =>
    match images.mapM (input.detector.round s.objects) with
    | .error _ => along .nothing (.fail p)
    | .ok results => along (.selected images) (.exec p (input.base results))
  | _, held => along held (.exec p (input.base []))

/-- One action. -/
def step (env : Env) (damageTypes : DamageTypeTable ℚ) (s : State) : Action → Option State
  | .start p request =>
    match request with
    | .uploadImage => none
    | _ => s.along damageTypes p .nothing (.start p request)
  | .upload p file => s.along damageTypes p (.file file) (.start p .uploadImage)
  | .exec p input => exec env damageTypes s p input
  | .fail p => s.along damageTypes p .nothing (.fail p)

/-- The inspection with its pictures, from its creation on. -/
def imaging (env : Env) (damageTypes : DamageTypeTable ℚ) : Machine State Action where
  init s := (system damageTypes).init s.base ∧ s.held = (fun _ => .nothing) ∧
    s.objects = (fun _ => none) ∧ s.roadImages = []
  step := step env damageTypes

end RoadVisionAI.RoadImages
