import RoadVisionAI.Enums
import RoadVisionAI.Python.Dict
import RoadVisionAI.Python.Exception
import RoadVisionAI.Python.Rounding
import Mathlib.Data.String.Basic

/-!
# The PCI engine (`app/ai/engines/pci_engine.py`)

`computePci` follows the source: group the detections by damage type, and for every type in code
order take the per-image capped area ratio, its mean over all images, the area-weighted mean
severity and the weight of the first detection.  Python's floats are replaced by an exact ordered
field `K`; the roundings of the source stay.
-/

namespace RoadVisionAI.PciEngine

open Python

/-- `DetectionInput`. -/
structure DetectionInput (K : Type*) where
  damageCode : String
  pciWeight : K
  severity : K
  relArea : K
  imageId : String
deriving DecidableEq

/-- `TypeDeduction`: the per-type breakdown, every number rounded to four decimals. -/
structure TypeDeduction (K : Type*) where
  damageCode : String
  pciWeight : K
  meanSeverity : K
  density : K
  deduction : K
deriving DecidableEq

/-- `PciResult`. -/
structure PciResult (K : Type*) where
  score : K
  severityLevel : SeverityLevel
  priorityLevel : PriorityLevel
  deductions : List (TypeDeduction K)
deriving DecidableEq

variable {K : Type*} [Field K] [LinearOrder K] [IsStrictOrderedRing K] [FloorRing K]

/-- `_round2`. -/
def round2 (value : K) : K := quantizeHalfUp value 2

/-- `classify_severity`. -/
def classifySeverity (pci : K) : SeverityLevel :=
  if 70 ≤ pci then .FAIBLE
  else if 55 ≤ pci then .MODERE
  else if 40 ≤ pci then .GRAVE
  else .CRITIQUE

/-- `classify_priority`. -/
def classifyPriority (pci : K) : PriorityLevel :=
  if 85 ≤ pci then .P4_EXCELLENT
  else if 70 ≤ pci then .P3_SURVEILLANCE
  else if 55 ≤ pci then .P2_PLANIFIE
  else if 40 ≤ pci then .P1_URGENT
  else .P0_CRITIQUE

/-- The range check `compute_pci` makes on each detection. -/
def DetectionInput.Valid (det : DetectionInput K) : Prop :=
  (0 ≤ det.severity ∧ det.severity ≤ 1) ∧ (0 ≤ det.relArea ∧ det.relArea ≤ 1)

instance (det : DetectionInput K) : Decidable det.Valid :=
  inferInstanceAs (Decidable ((_ ∧ _) ∧ _ ∧ _))

/-- The body of the first loop: check a detection and append it to its type's list. -/
def groupStep (byType : Dict String (List (DetectionInput K))) (det : DetectionInput K) :
    Except PyException (Dict String (List (DetectionInput K))) :=
  if det.Valid then .ok (byType.upsert det.damageCode [] fun dets => dets ++ [det])
  else .error (.valueError s!"severity/rel_area out of [0,1] for {det.damageCode}")

/-- The first loop. -/
def groupByType (detections : List (DetectionInput K)) :
    Except PyException (Dict String (List (DetectionInput K))) :=
  detections.foldlM groupStep Dict.empty

/-- `per_image`: the running area ratio of each image, capped at 1 after every addition. -/
def perImage (dets : List (DetectionInput K)) : Dict String K :=
  Dict.accumulate DetectionInput.imageId 0 (fun ratio det => min 1 (ratio + det.relArea)) dets

/-- `density`: images without the type count as zero. -/
def density (dets : List (DetectionInput K)) (totalImages : ℤ) : K :=
  (perImage dets).values.sum / totalImages

/-- `mean_severity`: weighted by area, or the plain mean when every box has zero area. -/
def meanSeverity (dets : List (DetectionInput K)) : K :=
  let weightSum := (dets.map fun d => d.relArea).sum
  if 0 < weightSum then
    (dets.map fun d => d.severity * d.relArea).sum / weightSum
  else
    (dets.map fun d => d.severity).sum / dets.length

/-- `dets[0].pci_weight`; a group is never empty. -/
def groupWeight (dets : List (DetectionInput K)) : K :=
  (dets.map DetectionInput.pciWeight).headD 0

/-- `deduction`, before rounding. -/
def deduction (dets : List (DetectionInput K)) (totalImages : ℤ) : K :=
  groupWeight dets * meanSeverity dets * density dets totalImages * 100

/-- The breakdown entry of one type. -/
def typeDeduction (code : String) (dets : List (DetectionInput K)) (totalImages : ℤ) :
    TypeDeduction K where
  damageCode := code
  pciWeight := pyRound (groupWeight dets) 4
  meanSeverity := pyRound (meanSeverity dets) 4
  density := pyRound (density dets totalImages) 4
  deduction := pyRound (deduction dets totalImages) 4

/-- One turn of the loop over the types: the breakdown so far and the running total. -/
def typeStep (totalImages : ℤ) (acc : List (TypeDeduction K) × K)
    (item : String × List (DetectionInput K)) : List (TypeDeduction K) × K :=
  (acc.1 ++ [typeDeduction item.1 item.2 totalImages], acc.2 + deduction item.2 totalImages)

/-- `compute_pci`. -/
def computePci (detections : List (DetectionInput K)) (totalImages : ℤ) :
    Except PyException (PciResult K) :=
  if totalImages < 1 then .error (.valueError "total_images must be >= 1")
  else if detections.isEmpty then
    .ok { score := 100, severityLevel := .FAIBLE, priorityLevel := .P4_EXCELLENT, deductions := [] }
  else do
    let byType ← groupByType detections
    let (deductions, totalDeduction) := byType.sortedItems.foldl (typeStep totalImages) ([], 0)
    let score := max 0 (min 100 (100 - totalDeduction))
    return {
      score := round2 score
      severityLevel := classifySeverity score
      priorityLevel := classifyPriority score
      deductions
    }

end RoadVisionAI.PciEngine
