import RoadVisionAI.Engines.Equiv.MoreDamage
import Mathlib.Algebra.BigOperators.Field

/-!
# Two surveys as one

As long as no image is full with one type, the two means and the cap of the formula cancel out: a
detection removes its weight times its severity times its area, whatever else is on the image
(`cdcTotal_eq_sum`).  Then the total of two surveys taken together is the mean of their totals,
weighted by their images, and their joint score lies between the two (`computePci_merged`): a
section is never better than its best part, nor worse than its worst.

Images without damage need no such proviso: they always dilute, by their share
(`computePci_cleanImages`).
-/

namespace RoadVisionAI.PciEngine

open Python Weighted

variable {K : Type*} [Field K] [LinearOrder K] [IsStrictOrderedRing K] [FloorRing K]
variable {dets dets₁ dets₂ : List (DetectionInput K)} {n n' n₁ n₂ : ℤ}

/-- No image holds more than its own surface of one type. -/
def NotFull (dets : List (DetectionInput K)) : Prop :=
  ∀ code image, totalArea (ofImage (ofCode dets code) image) ≤ 1

/-- What a detection removes, for a survey of one image. -/
def points (d : DetectionInput K) : K := 100 * d.pciWeight * d.severity * d.relArea

/-! ### The formula is a sum -/

omit [FloorRing K] in
/-- A type removes what its detections remove. -/
theorem cdcDeduction_eq_sum (hv : ∀ d ∈ dets, d.Valid) (hw : UniformWeights dets)
    (hroom : NotFull dets) {code : String} :
    cdcDeduction (ofCode dets code) n = ((ofCode dets code).map points).sum / n := by
  have hpoints : ((ofCode dets code).map points).sum
      = 100 * groupWeight (ofCode dets code) * severeArea (ofCode dets code) := by
    have hterm : ∀ d ∈ ofCode dets code, points d
        = 100 * groupWeight (ofCode dets code) * (d.severity * d.relArea) := by
      intro d hd
      have hweight : groupWeight (ofCode dets code) = d.pciWeight := by
        refine groupWeight_eq_of_mem hd fun d' hd' => ?_
        obtain ⟨hmem, hcode⟩ := mem_ofCode.mp hd
        obtain ⟨hmem', hcode'⟩ := mem_ofCode.mp hd'
        exact hw d' hmem' d hmem (hcode'.trans hcode.symm)
      rw [points, hweight]
      ring
    rw [List.map_congr_left hterm, List.sum_map_mul_left, severeArea]
  rw [cdcDeduction_eq_severeArea (valid_ofCode hv code) fun image _ => hroom code image, hpoints]
  ring

omit [FloorRing K] in
/-- All types together remove what all detections remove. -/
theorem cdcTotal_eq_sum (hv : ∀ d ∈ dets, d.Valid) (hw : UniformWeights dets)
    (hroom : NotFull dets) : cdcTotal dets n = (dets.map points).sum / n := by
  have hgroups : ∑ code ∈ codes dets, groupSum DetectionInput.damageCode points dets code
      = (dets.map points).sum := sum_groupSum (Finset.Subset.refl _)
  rw [cdcTotal, ← hgroups, Finset.sum_div]
  exact Finset.sum_congr rfl fun code _ => cdcDeduction_eq_sum hv hw hroom

/-! ### Merging -/

omit [Field K] [LinearOrder K] [IsStrictOrderedRing K] [FloorRing K] in
/-- An image the survey does not know has nothing on it. -/
theorem ofImage_ofCode_eq_nil {image : String} (h : image ∉ imageIds dets)
    (code : String) : ofImage (ofCode dets code) image = [] := by
  rw [ofImage, List.filter_eq_nil_iff]
  intro d hd himage
  refine h (List.mem_toFinset.mpr ?_)
  exact List.mem_map.mpr ⟨d, (mem_ofCode.mp hd).1, of_decide_eq_true himage⟩

omit [IsStrictOrderedRing K] [FloorRing K] in
/-- On an image of the one survey there is nothing of the other. -/
theorem notFull_append (hroom₁ : NotFull dets₁) (hroom₂ : NotFull dets₂)
    (hapart : Disjoint (imageIds dets₁) (imageIds dets₂)) : NotFull (dets₁ ++ dets₂) := by
  intro code image
  have hsplit : ofImage (ofCode (dets₁ ++ dets₂) code) image
      = ofImage (ofCode dets₁ code) image ++ ofImage (ofCode dets₂ code) image := by
    simp only [ofImage, ofCode, List.filter_append]
  rw [hsplit]
  by_cases h : image ∈ imageIds dets₁
  · rw [ofImage_ofCode_eq_nil (Finset.disjoint_left.mp hapart h), List.append_nil]
    exact hroom₁ code image
  · rw [ofImage_ofCode_eq_nil h, List.nil_append]
    exact hroom₂ code image

omit [FloorRing K] in
/-- The total of both surveys is the mean of the two, weighted by the images. -/
theorem cdcTotal_append_apart (hn₁ : 1 ≤ n₁) (hn₂ : 1 ≤ n₂)
    (hv : ∀ d ∈ dets₁ ++ dets₂, d.Valid) (hw : UniformWeights (dets₁ ++ dets₂))
    (hroom₁ : NotFull dets₁) (hroom₂ : NotFull dets₂)
    (hapart : Disjoint (imageIds dets₁) (imageIds dets₂)) :
    (n₁ + n₂) * cdcTotal (dets₁ ++ dets₂) (n₁ + n₂)
      = n₁ * cdcTotal dets₁ n₁ + n₂ * cdcTotal dets₂ n₂ := by
  have hpos₁ : (n₁ : K) ≠ 0 := by exact_mod_cast (by omega : n₁ ≠ 0)
  have hpos₂ : (n₂ : K) ≠ 0 := by exact_mod_cast (by omega : n₂ ≠ 0)
  have hpos : (n₁ : K) + n₂ ≠ 0 := by exact_mod_cast (by omega : n₁ + n₂ ≠ 0)
  have hw₁ : UniformWeights dets₁ := fun d hd d' hd' =>
    hw d (List.mem_append_left _ hd) d' (List.mem_append_left _ hd')
  have hw₂ : UniformWeights dets₂ := fun d hd d' hd' =>
    hw d (List.mem_append_right _ hd) d' (List.mem_append_right _ hd')
  rw [cdcTotal_eq_sum hv hw (notFull_append hroom₁ hroom₂ hapart),
    cdcTotal_eq_sum (fun d hd => hv d (List.mem_append_left _ hd)) hw₁ hroom₁,
    cdcTotal_eq_sum (fun d hd => hv d (List.mem_append_right _ hd)) hw₂ hroom₂,
    List.map_append, List.sum_append, Int.cast_add]
  field_simp

omit [FloorRing K] in
/-- A mean with positive weights lies between. -/
theorem le_of_weighted {a b x y z : K} (ha : 0 < a) (hb : 0 < b)
    (h : (a + b) * z = a * x + b * y) (hxy : x ≤ y) : x ≤ z ∧ z ≤ y := by
  constructor
  · have hle : (a + b) * x ≤ (a + b) * z := by
      rw [h, add_mul]
      gcongr
    exact le_of_mul_le_mul_left hle (by positivity)
  · have hle : (a + b) * z ≤ (a + b) * y := by
      rw [h, add_mul]
      gcongr
    exact le_of_mul_le_mul_left hle (by positivity)

/-! ### The records -/

/-- The record is no better than the other one, in score and in both labels. -/
structure NoBetter (r' r : PciResult K) : Prop where
  score : r'.score ≤ r.score
  severity : r.severityLevel.grade ≤ r'.severityLevel.grade
  priority : r.priorityLevel.urgency ≤ r'.priorityLevel.urgency

/-- The record with the larger total is no better. -/
theorem noBetter_of_cdcTotal_le (h : cdcTotal dets₁ n₁ ≤ cdcTotal dets₂ n₂) :
    NoBetter (cdcResult dets₂ n₂) (cdcResult dets₁ n₁) := by
  have hpci : cdcPci dets₂ n₂ ≤ cdcPci dets₁ n₁ := by
    unfold cdcPci
    gcongr
  exact ⟨halfUp.toPlaces_mono 2 hpci, grade_classifySeverity hpci, urgency_classifyPriority hpci⟩

/-- **Two surveys as one.**  Two surveys of different images, no image of which is full with one
type, taken together remove the mean of what they remove, weighted by their images; the record of
both is no better than that of the one and no worse than that of the other. -/
theorem computePci_merged (hn₁ : 1 ≤ n₁) (hn₂ : 1 ≤ n₂) (hv : ∀ d ∈ dets₁ ++ dets₂, d.Valid)
    (hw : UniformWeights (dets₁ ++ dets₂)) (hroom₁ : NotFull dets₁) (hroom₂ : NotFull dets₂)
    (hapart : Disjoint (imageIds dets₁) (imageIds dets₂)) :
    ∃ r₁ r₂ r, computePci dets₁ n₁ = .ok r₁ ∧ computePci dets₂ n₂ = .ok r₂ ∧
      computePci (dets₁ ++ dets₂) (n₁ + n₂) = .ok r ∧
      (n₁ + n₂) * totalDeduction (dets₁ ++ dets₂) (n₁ + n₂)
        = n₁ * totalDeduction dets₁ n₁ + n₂ * totalDeduction dets₂ n₂ ∧
      (NoBetter r r₁ ∧ NoBetter r₂ r ∨ NoBetter r r₂ ∧ NoBetter r₁ r) := by
  have hv₁ : ∀ d ∈ dets₁, d.Valid := fun d hd => hv d (List.mem_append_left _ hd)
  have hv₂ : ∀ d ∈ dets₂, d.Valid := fun d hd => hv d (List.mem_append_right _ hd)
  have hpos₁ : (0 : K) < n₁ := by exact_mod_cast hn₁
  have hpos₂ : (0 : K) < n₂ := by exact_mod_cast hn₂
  have hmean := cdcTotal_append_apart hn₁ hn₂ hv hw hroom₁ hroom₂ hapart
  refine ⟨_, _, _, computePci_eq hn₁ hv₁, computePci_eq hn₂ hv₂, computePci_eq (by omega) hv,
    ?_, ?_⟩
  · rw [totalDeduction_eq hv, totalDeduction_eq hv₁, totalDeduction_eq hv₂, hmean]
  · rcases le_total (cdcTotal dets₁ n₁) (cdcTotal dets₂ n₂) with hle | hle
    · obtain ⟨hlow, hhigh⟩ := le_of_weighted hpos₁ hpos₂ hmean hle
      exact Or.inl ⟨noBetter_of_cdcTotal_le hlow, noBetter_of_cdcTotal_le hhigh⟩
    · rw [add_comm (n₁ : K), add_comm (n₁ * cdcTotal dets₁ n₁)] at hmean
      obtain ⟨hlow, hhigh⟩ := le_of_weighted hpos₂ hpos₁ hmean hle
      exact Or.inr ⟨noBetter_of_cdcTotal_le hlow, noBetter_of_cdcTotal_le hhigh⟩

omit [FloorRing K] in
/-- A survey with no more than one image's worth of damage fills no image. -/
theorem notFull_of_totalArea_le (hv : ∀ d ∈ dets, d.Valid) (h : totalArea dets ≤ 1) :
    NotFull dets := by
  intro code image
  have hsub : (ofImage (ofCode dets code) image).Sublist dets :=
    List.filter_sublist.trans List.filter_sublist
  refine le_trans ((hsub.map DetectionInput.relArea).sum_le_sum fun area harea => ?_) h
  obtain ⟨d, hd, rfl⟩ := List.mem_map.mp harea
  exact (hv d hd).2.1

/-- A section with half an image of potholes. -/
def potholeSection : List (DetectionInput ℚ) :=
  [{ damageCode := "POTHOLE", pciWeight := 7 / 20, severity := 1, relArea := 1 / 2, imageId := "a1" }]

/-- A section with an image of ruts. -/
def ruttedSection : List (DetectionInput ℚ) :=
  [{ damageCode := "RUTTING", pciWeight := 1 / 4, severity := 1 / 2, relArea := 1, imageId := "b1" }]

/-- The one section on one image, the other on two. -/
theorem computePci_merged_twoSections :
    ∃ r₁ r₂ r, computePci potholeSection 1 = .ok r₁ ∧ computePci ruttedSection 2 = .ok r₂ ∧
      computePci (potholeSection ++ ruttedSection) (1 + 2) = .ok r ∧
      (((1 : ℤ) : ℚ) + (2 : ℤ)) * totalDeduction (potholeSection ++ ruttedSection) (1 + 2)
        = ((1 : ℤ) : ℚ) * totalDeduction potholeSection 1
          + ((2 : ℤ) : ℚ) * totalDeduction ruttedSection 2 ∧
      (NoBetter r r₁ ∧ NoBetter r₂ r ∨ NoBetter r r₂ ∧ NoBetter r₁ r) :=
  computePci_merged (by decide) (by decide) (by decide +kernel)
    (by unfold UniformWeights; decide +kernel)
    (notFull_of_totalArea_le (by decide +kernel) (by decide +kernel))
    (notFull_of_totalArea_le (by decide +kernel) (by decide +kernel)) (by decide +kernel)

/-- Images without damage dilute what is removed by their share, so they never lower the score. -/
theorem computePci_cleanImages (hn : 1 ≤ n) (hn' : n ≤ n') (hv : ∀ d ∈ dets, d.Valid)
    (hw : ∀ d ∈ dets, 0 ≤ d.pciWeight) :
    ∃ r r', computePci dets n = .ok r ∧ computePci dets n' = .ok r' ∧
      n' * totalDeduction dets n' = n * totalDeduction dets n ∧ NoBetter r r' := by
  have hpos : (0 : K) < n := by exact_mod_cast hn
  have hpos' : (0 : K) < n' := by exact_mod_cast (by omega : 0 < n')
  have hle : (n : K) ≤ n' := by exact_mod_cast hn'
  have hscale : n' * cdcTotal dets n' = n * cdcTotal dets n := by
    simp only [cdcTotal, Finset.mul_sum, cdcDeduction_def]
    refine Finset.sum_congr rfl fun code _ => ?_
    field_simp
  have htotal : cdcTotal dets n' ≤ cdcTotal dets n := by
    have hnonneg := cdcTotal_nonneg (by omega : 1 ≤ n') hv hw
    refine le_of_mul_le_mul_left ?_ hpos
    calc n * cdcTotal dets n' ≤ n' * cdcTotal dets n' := by gcongr
      _ = n * cdcTotal dets n := hscale
  refine ⟨_, _, computePci_eq hn hv, computePci_eq (by omega) hv, ?_,
    noBetter_of_cdcTotal_le htotal⟩
  rw [totalDeduction_eq hv, totalDeduction_eq hv, hscale]

end RoadVisionAI.PciEngine
