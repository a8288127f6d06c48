import RoadVisionAI.Engines.CdcFormula
import RoadVisionAI.Weighted.CappedSum
import RoadVisionAI.Weighted.Mean

/-!
# Bounds of the CDC formula

The severity of a type is a weighted mean and its density a capped sum, so the laws of
`Weighted.weightedMean` and `Weighted.cappedSum` apply to the deduction of a type: it is between
zero and what its images could hold (`cdcDeduction_le_card`), and at most the summed
severity times area (`cdcDeduction_le_severeArea`), which it is when no image is full
(`cdcDeduction_eq_severeArea`).
-/

namespace RoadVisionAI.PciEngine

open Weighted

variable {K : Type*} [Field K] [LinearOrder K]

/-- The summed severity times area. -/
def severeArea (dets : List (DetectionInput K)) : K :=
  (dets.map fun d => d.severity * d.relArea).sum

/-- The images' worth of damaged surface: every image counts up to 1. -/
def coveredImages (dets : List (DetectionInput K)) : K :=
  cappedSum 1 DetectionInput.imageId DetectionInput.relArea dets

theorem cdcDensity_eq (dets : List (DetectionInput K)) (totalImages : ℤ) :
    cdcDensity dets totalImages = coveredImages dets / totalImages := rfl

theorem cdcDeduction_def (dets : List (DetectionInput K)) (totalImages : ℤ) :
    cdcDeduction dets totalImages
      = groupWeight dets * meanSeverity dets * (coveredImages dets / totalImages) * 100 := rfl

omit [Field K] [LinearOrder K] in
theorem mem_ofCode {dets : List (DetectionInput K)} {code : String} {d : DetectionInput K} :
    d ∈ ofCode dets code ↔ d ∈ dets ∧ d.damageCode = code := by
  simp [ofCode]

omit [Field K] [LinearOrder K] in
theorem mem_codes {dets : List (DetectionInput K)} {code : String} :
    code ∈ codes dets ↔ ∃ d ∈ dets, d.damageCode = code := by
  simp [codes]

variable [IsStrictOrderedRing K] {dets : List (DetectionInput K)} {totalImages : ℤ}

theorem meanSeverity_nonneg (hv : ∀ d ∈ dets, d.Valid) : 0 ≤ meanSeverity dets :=
  weightedMean_nonneg (fun d hd => (hv d hd).2.1) fun d hd => (hv d hd).1.1

theorem meanSeverity_le_one (hv : ∀ d ∈ dets, d.Valid) : meanSeverity dets ≤ 1 :=
  weightedMean_le zero_le_one (fun d hd => (hv d hd).2.1) fun d hd => (hv d hd).1.2

theorem meanSeverity_mul_totalArea (hv : ∀ d ∈ dets, d.Valid) :
    meanSeverity dets * totalArea dets = severeArea dets :=
  weightedMean_mul_sum fun d hd => (hv d hd).2.1

theorem coveredImages_nonneg (hv : ∀ d ∈ dets, d.Valid) : 0 ≤ coveredImages dets :=
  cappedSum_nonneg zero_le_one fun d hd => (hv d hd).2.1

theorem coveredImages_le_card (dets : List (DetectionInput K)) :
    coveredImages dets ≤ (imageIds dets).card := by
  have h : coveredImages dets ≤ (imageIds dets).card * 1 := cappedSum_le_card
  rwa [mul_one] at h

theorem coveredImages_le_totalArea (dets : List (DetectionInput K)) :
    coveredImages dets ≤ totalArea dets :=
  cappedSum_le_sum

theorem totalArea_nonneg (hv : ∀ d ∈ dets, d.Valid) : 0 ≤ totalArea dets :=
  sum_map_nonneg fun d hd => (hv d hd).2.1

/-! ### The deduction of one type -/

theorem cdcDeduction_nonneg (hv : ∀ d ∈ dets, d.Valid) (hw : 0 ≤ groupWeight dets)
    (hn : 1 ≤ totalImages) : 0 ≤ cdcDeduction dets totalImages := by
  have hpos : (0 : K) < totalImages := by exact_mod_cast hn
  have hmean := meanSeverity_nonneg hv
  have hcovered := coveredImages_nonneg hv
  rw [cdcDeduction_def]
  positivity

/-- A type removes at most its weight on every image it occurs on. -/
theorem cdcDeduction_le_card (hv : ∀ d ∈ dets, d.Valid) (hw : 0 ≤ groupWeight dets)
    (hn : 1 ≤ totalImages) :
    cdcDeduction dets totalImages
      ≤ 100 * groupWeight dets * (imageIds dets).card / totalImages := by
  have hpos : (0 : K) < totalImages := by exact_mod_cast hn
  have hcard := coveredImages_le_card dets
  -- the mean severity is at most 1, and at most one whole image is covered for each id
  have hsurface : meanSeverity dets * coveredImages dets ≤ 1 * (imageIds dets).card :=
    mul_le_mul (meanSeverity_le_one hv) hcard (coveredImages_nonneg hv) zero_le_one
  calc cdcDeduction dets totalImages
      = 100 * groupWeight dets * (meanSeverity dets * coveredImages dets) / totalImages := by
        rw [cdcDeduction_def]; ring
    _ ≤ 100 * groupWeight dets * (1 * (imageIds dets).card) / totalImages := by gcongr
    _ = 100 * groupWeight dets * (imageIds dets).card / totalImages := by rw [one_mul]

/-- And at most what its detections add up to. -/
theorem cdcDeduction_le_severeArea (hv : ∀ d ∈ dets, d.Valid) (hw : 0 ≤ groupWeight dets)
    (hn : 1 ≤ totalImages) :
    cdcDeduction dets totalImages ≤ 100 * groupWeight dets / totalImages * severeArea dets := by
  have hpos : (0 : K) < totalImages := by exact_mod_cast hn
  have hmean := meanSeverity_nonneg hv
  have harea := coveredImages_le_totalArea dets
  calc cdcDeduction dets totalImages
      = 100 * groupWeight dets / totalImages * (meanSeverity dets * coveredImages dets) := by
        rw [cdcDeduction_def]; ring
    _ ≤ 100 * groupWeight dets / totalImages * (meanSeverity dets * totalArea dets) := by gcongr
    _ = 100 * groupWeight dets / totalImages * severeArea dets := by
        rw [meanSeverity_mul_totalArea hv]

/-- With no image full, the two-stage mean is a single sum. -/
theorem cdcDeduction_eq_severeArea (hv : ∀ d ∈ dets, d.Valid)
    (hfull : ∀ image ∈ imageIds dets, totalArea (ofImage dets image) ≤ 1) :
    cdcDeduction dets totalImages = 100 * groupWeight dets / totalImages * severeArea dets := by
  have hcovered : coveredImages dets = totalArea dets := cappedSum_eq_sum hfull
  rw [cdcDeduction_def, hcovered, ← meanSeverity_mul_totalArea hv]
  ring

end RoadVisionAI.PciEngine
