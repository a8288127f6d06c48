import RoadVisionAI.Db.Models
import RoadVisionAI.Detection.Detector
import RoadVisionAI.Engines.PciEngine
import Mathlib.Data.List.MinMax

/-!
# The analysis worker (`app/workers/analysis_worker.py`)

`analyse` is the computation of `_run` between its reads and its writes: detect on every image,
skip the codes `damage_types` does not have, score, summarise.  The images, the reference table
and the model's predictions are its inputs; `Outputs` are the rows it inserts, and `Outputs.store`
is their passage through the columns.
-/

namespace RoadVisionAI.AnalysisWorker

open Python Db Detector PciEngine

variable {K : Type*} [Field K] [LinearOrder K] [IsStrictOrderedRing K] [FloorRing K]

/-- The active detector: the model's id, its class mapping, and what it predicts on each image. -/
structure ActiveModel (K : Type*) where
  modelId : Uuid
  upper : String → String
  classMapping : Option (Dict String String)
  predict : RoadImage → List (YoloBox K)

/-- `detector.detect(local)`. -/
def ActiveModel.detect (model : ActiveModel K) (image : RoadImage) : List (Detection K) :=
  Detector.detect model.upper model.classMapping (model.predict image)

/-- An entry of `all_detections`, with the `damage_types` row of its code. -/
structure Found (K : Type*) where
  image : RoadImage
  det : Detection K
  damageType : DamageType K

/-- `{dt.code: dt for dt in dt_rows}`. -/
def typesByCode (damageTypes : DamageTypeTable K) : Dict String (DamageType K) :=
  Dict.ofItems (damageTypes.rows.map fun dt => (dt.code, dt))

/-- The inner loop: the detections of one image whose code is known. -/
def foundIn (model : ActiveModel K) (byCode : Dict String (DamageType K)) (image : RoadImage) :
    List (Found K) :=
  (model.detect image).filterMap fun det =>
    (byCode.get? det.damageCode).map fun damageType => { image, det, damageType }

/-- `all_detections`. -/
def allDetections (model : ActiveModel K) (damageTypes : DamageTypeTable K)
    (images : List RoadImage) : List (Found K) :=
  images.flatMap (foundIn model (typesByCode damageTypes))

/-- The `damage_detections` row of an entry. -/
def Found.row (model : ActiveModel K) (found : Found K) : DamageDetection K where
  roadImageId := found.image.id
  damageTypeId := found.damageType.id
  modelId := model.modelId
  bboxX := found.det.bboxX
  bboxY := found.det.bboxY
  bboxWidth := found.det.bboxWidth
  bboxHeight := found.det.bboxHeight
  confidenceScore := found.det.confidence
  severityScore := found.det.severity

/-- The entry of `pci_inputs`. -/
def Found.pciInput (found : Found K) : DetectionInput K where
  damageCode := found.det.damageCode
  pciWeight := found.damageType.pciWeight
  severity := found.det.severity
  relArea := found.det.bboxWidth * found.det.bboxHeight
  imageId := found.image.id.str

/-- `max(pci.deductions, key=…).damage_code`: the first of the largest. -/
def dominantType (pci : PciResult K) : Option String :=
  (pci.deductions.argmax TypeDeduction.deduction).map TypeDeduction.damageCode

/-- The mean confidence, to four decimals. -/
def recommendationConfidence (found : List (Found K)) : Option K :=
  if found.isEmpty then none
  else some (pyRound ((found.map fun f => f.det.confidence).sum / found.length) 4)

/-- The rows a run inserts. -/
structure Outputs (K : Type*) where
  damageDetections : List (DamageDetection K)
  pciScore : PciScore K
  analysisResult : AnalysisResult K
deriving DecidableEq

/-- The computation of `_run`.  `analysisId` and `processingTimeMs` are what the database and the
clock give. -/
def analyse (model : ActiveModel K) (damageTypes : DamageTypeTable K) (images : List RoadImage)
    (analysisId : Uuid) (processingTimeMs : ℕ) : Except PyException (Outputs K) :=
  if images.isEmpty then .error (.runtimeError "No images to analyse")
  else do
    let found := allDetections model damageTypes images
    let pci ← computePci (found.map Found.pciInput) images.length
    return {
      damageDetections := found.map (Found.row model)
      pciScore := {
        score := pci.score
        severityLevel := pci.severityLevel
        priorityLevel := pci.priorityLevel }
      analysisResult := {
        id := analysisId
        totalDetections := found.length
        dominantDamageType := dominantType pci
        overallSeverity := pci.severityLevel
        recommendationConfidence := recommendationConfidence found
        processingTimeMs }
    }

/-- The flushes: every row is stored, or the transaction fails. -/
def Outputs.store (outputs : Outputs K) : Except PyException (Outputs K) := do
  return {
    damageDetections := ← outputs.damageDetections.mapM DamageDetection.store
    pciScore := ← outputs.pciScore.store
    analysisResult := ← outputs.analysisResult.store
  }

/-! ### The recomputation an auditor makes -/

/-- The input of the engine a stored detection stands for: code and weight come from
`damage_types`, the relative area is that of the stored box. -/
def auditInput (damageTypes : DamageTypeTable K) (row : DamageDetection K) :
    Option (DetectionInput K) :=
  (damageTypes.rows.find? fun dt => dt.id = row.damageTypeId).map fun dt => {
    damageCode := dt.code
    pciWeight := dt.pciWeight
    severity := row.severityScore
    relArea := row.bboxWidth * row.bboxHeight
    imageId := row.roadImageId.str
  }

/-- `compute_pci` from the stored detections alone. -/
def recompute (damageTypes : DamageTypeTable K) (rows : List (DamageDetection K))
    (totalImages : ℕ) : Except PyException (PciResult K) :=
  computePci (rows.filterMap (auditInput damageTypes)) totalImages

end RoadVisionAI.AnalysisWorker
