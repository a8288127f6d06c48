import RoadVisionAI.Enums
import RoadVisionAI.Python.Exception
import RoadVisionAI.Python.Rounding

/-!
# The analysis tables (`01_schema_v4.2.sql`, `app/db/models`)

The rows the analysis worker reads and writes, on an exact field `K` for the `NUMERIC` columns.
Storing a row coerces every number to the scale of its column, half away from zero, then tests the
precision and the `CHECK` constraints; either failure is an exception of the driver.
-/

namespace RoadVisionAI.Db

open Python

/-- A `UUID`, as its canonical text. -/
structure Uuid where
  str : String
deriving DecidableEq, Repr

/-- `road_images`, the columns read after the upload. -/
structure RoadImage where
  id : Uuid
  sequenceNum : ℕ
deriving DecidableEq, Repr

/-- `damage_types`. -/
structure DamageType (K : Type*) where
  id : Uuid
  code : String
  pciWeight : K
deriving DecidableEq

/-- `damage_detections`. -/
structure DamageDetection (K : Type*) where
  roadImageId : Uuid
  damageTypeId : Uuid
  modelId : Uuid
  bboxX : K
  bboxY : K
  bboxWidth : K
  bboxHeight : K
  confidenceScore : K
  severityScore : K
deriving DecidableEq

/-- `pci_scores`. -/
structure PciScore (K : Type*) where
  score : K
  severityLevel : SeverityLevel
  priorityLevel : PriorityLevel
deriving DecidableEq

/-- `analysis_results`. -/
structure AnalysisResult (K : Type*) where
  id : Uuid
  totalDetections : ℕ
  dominantDamageType : Option String
  overallSeverity : SeverityLevel
  recommendationConfidence : Option K
  processingTimeMs : ℕ
deriving DecidableEq

variable {K : Type*} [Field K] [LinearOrder K] [IsStrictOrderedRing K] [FloorRing K]

/-! ### The reference table -/

/-- The `damage_types` table: primary key, `uq_damage_type_code` and the `CHECK` on the weight. -/
structure DamageTypeTable (K : Type*) [Field K] [LinearOrder K] where
  rows : List (DamageType K)
  nodup_ids : (rows.map DamageType.id).Nodup
  nodup_codes : (rows.map DamageType.code).Nodup
  pciWeight_mem : ∀ dt ∈ rows, 0 ≤ dt.pciWeight ∧ dt.pciWeight ≤ 1

/-! ### Column types and constraints -/

/-- `x` fits `NUMERIC(precision, scale)`, once coerced. -/
def FitsNumeric (precision scale : ℕ) (x : K) : Prop := |x| < 10 ^ (precision - scale)

instance (precision scale : ℕ) (x : K) : Decidable (FitsNumeric precision scale x) :=
  inferInstanceAs (Decidable (_ < _))

/-- What PostgreSQL does with a row: coerce, then test the precisions and the constraints. -/
def storeRow {α : Type*} (quantize : α → α) (fits checks : α → Prop) [DecidablePred fits]
    [DecidablePred checks] (row : α) : Except PyException α :=
  if ¬ fits (quantize row) then .error (.other "DataError" "numeric field overflow")
  else if ¬ checks (quantize row) then
    .error (.other "IntegrityError" "new row violates check constraint")
  else .ok (quantize row)

theorem storeRow_eq_ok_iff {α : Type*} {quantize : α → α} {fits checks : α → Prop}
    [DecidablePred fits] [DecidablePred checks] {row row' : α} :
    storeRow quantize fits checks row = .ok row'
      ↔ row' = quantize row ∧ fits (quantize row) ∧ checks (quantize row) := by
  unfold storeRow
  by_cases hfits : fits (quantize row)
  · by_cases hchecks : checks (quantize row)
    · simp [hfits, hchecks, eq_comm]
    · simp [hfits, hchecks]
  · simp [hfits]

namespace DamageDetection

/-- The `CHECK`s of `damage_detections`. -/
def Checks (row : DamageDetection K) : Prop :=
  0 ≤ row.bboxX ∧ 0 ≤ row.bboxY ∧ 0 < row.bboxWidth ∧ 0 < row.bboxHeight ∧
    (0 ≤ row.confidenceScore ∧ row.confidenceScore ≤ 1) ∧
    (0 ≤ row.severityScore ∧ row.severityScore ≤ 1)

instance : DecidablePred (Checks (K := K)) :=
  fun _ => inferInstanceAs (Decidable (_ ∧ _ ∧ _ ∧ _ ∧ (_ ∧ _) ∧ (_ ∧ _)))

/-- `NUMERIC(8,4)` for the box, `NUMERIC(5,4)` for the two scores. -/
def Fits (row : DamageDetection K) : Prop :=
  FitsNumeric 8 4 row.bboxX ∧ FitsNumeric 8 4 row.bboxY ∧ FitsNumeric 8 4 row.bboxWidth ∧
    FitsNumeric 8 4 row.bboxHeight ∧ FitsNumeric 5 4 row.confidenceScore ∧
    FitsNumeric 5 4 row.severityScore

instance : DecidablePred (Fits (K := K)) :=
  fun _ => inferInstanceAs (Decidable (_ ∧ _ ∧ _ ∧ _ ∧ _ ∧ _))

/-- The row as its columns hold it. -/
def quantize (row : DamageDetection K) : DamageDetection K :=
  { row with
    bboxX := quantizeHalfUp row.bboxX 4
    bboxY := quantizeHalfUp row.bboxY 4
    bboxWidth := quantizeHalfUp row.bboxWidth 4
    bboxHeight := quantizeHalfUp row.bboxHeight 4
    confidenceScore := quantizeHalfUp row.confidenceScore 4
    severityScore := quantizeHalfUp row.severityScore 4 }

/-- `INSERT INTO damage_detections`. -/
def store (row : DamageDetection K) : Except PyException (DamageDetection K) :=
  storeRow quantize Fits Checks row

end DamageDetection

namespace PciScore

/-- The `CHECK` of `pci_scores`. -/
def Checks (row : PciScore K) : Prop := 0 ≤ row.score ∧ row.score ≤ 100

instance : DecidablePred (Checks (K := K)) := fun _ => inferInstanceAs (Decidable (_ ∧ _))

/-- `NUMERIC(5,2)`. -/
def Fits (row : PciScore K) : Prop := FitsNumeric 5 2 row.score

instance : DecidablePred (Fits (K := K)) := fun _ => inferInstanceAs (Decidable (FitsNumeric _ _ _))

/-- The row as its columns hold it. -/
def quantize (row : PciScore K) : PciScore K := { row with score := quantizeHalfUp row.score 2 }

/-- `INSERT INTO pci_scores`. -/
def store (row : PciScore K) : Except PyException (PciScore K) :=
  storeRow quantize Fits Checks row

end PciScore

namespace AnalysisResult

/-- The `CHECK` of `analysis_results` on the confidence; the two counts are never negative. -/
def Checks (row : AnalysisResult K) : Prop :=
  ∀ confidence ∈ row.recommendationConfidence, 0 ≤ confidence ∧ confidence ≤ 1

instance : DecidablePred (Checks (K := K)) := fun row =>
  match h : row.recommendationConfidence with
  | none => .isTrue (by simp [Checks, h])
  | some confidence =>
    decidable_of_iff (0 ≤ confidence ∧ confidence ≤ 1) (by simp [Checks, h])

/-- `NUMERIC(5,4)`. -/
def Fits (row : AnalysisResult K) : Prop :=
  ∀ confidence ∈ row.recommendationConfidence, FitsNumeric 5 4 confidence

instance : DecidablePred (Fits (K := K)) := fun row =>
  match h : row.recommendationConfidence with
  | none => .isTrue (by simp [Fits, h])
  | some confidence => decidable_of_iff (FitsNumeric 5 4 confidence) (by simp [Fits, h])

/-- The row as its columns hold it. -/
def quantize (row : AnalysisResult K) : AnalysisResult K :=
  { row with
    recommendationConfidence :=
      row.recommendationConfidence.map fun confidence => quantizeHalfUp confidence 4 }

/-- `INSERT INTO analysis_results`. -/
def store (row : AnalysisResult K) : Except PyException (AnalysisResult K) :=
  storeRow quantize Fits Checks row

end AnalysisResult

end RoadVisionAI.Db
