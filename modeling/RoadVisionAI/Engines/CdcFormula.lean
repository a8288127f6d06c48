import RoadVisionAI.Engines.PciEngine

/-!
# The CDC formula

What `compute_pci` is for, as the CDC states it, with no loop and no dictionary:

  `PCI = 100 − Σ_types (pci_weight · severity · density · 100)`, clamped to `[0, 100]`,

where the density of a type is the mean over all analysed images of its area ratio in the image,
capped at 1, and its severity is the area-weighted mean.  The sums range over finite sets of damage
codes and image ids, so they do not mention any order.
-/

namespace RoadVisionAI.PciEngine

variable {K : Type*} [Field K] [LinearOrder K]

/-- The damage types present. -/
def codes (dets : List (DetectionInput K)) : Finset String :=
  (dets.map DetectionInput.damageCode).toFinset

/-- The images with a detection. -/
def imageIds (dets : List (DetectionInput K)) : Finset String :=
  (dets.map DetectionInput.imageId).toFinset

/-- The detections of one type. -/
def ofCode (dets : List (DetectionInput K)) (code : String) : List (DetectionInput K) :=
  dets.filter fun det => det.damageCode = code

/-- The detections of one image. -/
def ofImage (dets : List (DetectionInput K)) (image : String) : List (DetectionInput K) :=
  dets.filter fun det => det.imageId = image

/-- The summed relative area. -/
def totalArea (dets : List (DetectionInput K)) : K :=
  (dets.map DetectionInput.relArea).sum

/-- The damaged-area ratio of one image, capped at 1. -/
def imageRatio (dets : List (DetectionInput K)) (image : String) : K :=
  min 1 (totalArea (ofImage dets image))

/-- The damaged fraction of the survey. -/
def cdcDensity (dets : List (DetectionInput K)) (totalImages : ℤ) : K :=
  (∑ image ∈ imageIds dets, imageRatio dets image) / totalImages

/-- The points a type removes, given its detections. -/
def cdcDeduction (dets : List (DetectionInput K)) (totalImages : ℤ) : K :=
  groupWeight dets * meanSeverity dets * cdcDensity dets totalImages * 100

/-- The points all types remove. -/
def cdcTotal (dets : List (DetectionInput K)) (totalImages : ℤ) : K :=
  ∑ code ∈ codes dets, cdcDeduction (ofCode dets code) totalImages

/-- The pavement condition index, exact. -/
def cdcPci (dets : List (DetectionInput K)) (totalImages : ℤ) : K :=
  max 0 (min 100 (100 - cdcTotal dets totalImages))

theorem cdcPci_nonneg (dets : List (DetectionInput K)) (totalImages : ℤ) :
    0 ≤ cdcPci dets totalImages :=
  le_max_left _ _

theorem cdcPci_le [IsStrictOrderedRing K] (dets : List (DetectionInput K)) (totalImages : ℤ) :
    cdcPci dets totalImages ≤ 100 :=
  max_le (by norm_num) (min_le_left _ _)

/-! ### Order independence

Each ingredient is a sum, or a set, over the detections; only the weight is read off one of them,
so it is independent of the order when the detections agree on it. -/

section Perm

variable {dets dets' : List (DetectionInput K)}

omit [Field K] [LinearOrder K] in
theorem codes_perm (h : dets.Perm dets') : codes dets = codes dets' :=
  List.toFinset_eq_of_perm _ _ (h.map _)

omit [Field K] [LinearOrder K] in
theorem imageIds_perm (h : dets.Perm dets') : imageIds dets = imageIds dets' :=
  List.toFinset_eq_of_perm _ _ (h.map _)

omit [LinearOrder K] in
theorem totalArea_perm (h : dets.Perm dets') : totalArea dets = totalArea dets' :=
  (h.map _).sum_eq

theorem imageRatio_perm (h : dets.Perm dets') (image : String) :
    imageRatio dets image = imageRatio dets' image := by
  rw [imageRatio, imageRatio, ofImage, ofImage, totalArea_perm (h.filter _)]

theorem cdcDensity_perm (h : dets.Perm dets') (totalImages : ℤ) :
    cdcDensity dets totalImages = cdcDensity dets' totalImages := by
  rw [cdcDensity, cdcDensity, imageIds_perm h]
  congr 1
  exact Finset.sum_congr rfl fun image _ => imageRatio_perm h image

theorem meanSeverity_perm (h : dets.Perm dets') : meanSeverity dets = meanSeverity dets' := by
  unfold meanSeverity
  rw [(h.map fun d => d.relArea).sum_eq, (h.map fun d => d.severity * d.relArea).sum_eq,
    (h.map fun d => d.severity).sum_eq, h.length_eq]

/-- Detections of one code share one weight. -/
def UniformWeights (dets : List (DetectionInput K)) : Prop :=
  ∀ d ∈ dets, ∀ d' ∈ dets, d.damageCode = d'.damageCode → d.pciWeight = d'.pciWeight

omit [LinearOrder K] in
theorem groupWeight_eq_of_mem {d : DetectionInput K} (hd : d ∈ dets)
    (h : ∀ d' ∈ dets, d'.pciWeight = d.pciWeight) : groupWeight dets = d.pciWeight := by
  cases dets with
  | nil => simp at hd
  | cons d₀ ds => exact h d₀ List.mem_cons_self

omit [LinearOrder K] in
theorem groupWeight_ofCode_perm (h : dets.Perm dets') (hw : UniformWeights dets) (code : String) :
    groupWeight (ofCode dets code) = groupWeight (ofCode dets' code) := by
  have hperm : (ofCode dets code).Perm (ofCode dets' code) := h.filter _
  cases hl : ofCode dets code with
  | nil =>
    rw [hl] at hperm
    rw [hperm.nil_eq]
  | cons d ds =>
    have hd : d ∈ ofCode dets code := by rw [hl]; exact List.mem_cons_self
    have hall : ∀ d' ∈ ofCode dets code, d'.pciWeight = d.pciWeight := by
      intro d' hd'
      simp only [ofCode, List.mem_filter, decide_eq_true_eq] at hd hd'
      exact hw d' hd'.1 d hd.1 (hd'.2.trans hd.2.symm)
    rw [← hl, groupWeight_eq_of_mem hd hall,
      groupWeight_eq_of_mem (hperm.mem_iff.mp hd) fun d' hd' => hall d' (hperm.mem_iff.mpr hd')]

end Perm

end RoadVisionAI.PciEngine
