import RoadVisionAI.Engines.CdcLaws
import RoadVisionAI.Engines.Equiv.PciEngine
import RoadVisionAI.Weighted.Copies
import RoadVisionAI.Workers.AnalysisWorker

/-!
# What the result does not depend on

The record of `compute_pci` is determined, type by type, by three numbers: the weight, the mean
severity and the density (`cdcResult_congr`).  None of them sees the order of the detections, the
names of the images, or the size of the survey at equal damage:

* `computePci_reordered`: any order, any injective renaming of the image ids;
* `computePci_copies`: `k` surveys like the first one, taken together.
-/

namespace RoadVisionAI.PciEngine

open Python Weighted AnalysisWorker

variable {K : Type*} [Field K] [LinearOrder K] [IsStrictOrderedRing K] [FloorRing K]
variable {dets dets' : List (DetectionInput K)} {totalImages : ℤ}

/-! ### Image names -/

/-- The same detection on an image of another name. -/
def DetectionInput.rename (f : String → String) (det : DetectionInput K) : DetectionInput K :=
  { det with imageId := f det.imageId }

section Rename

variable {f : String → String}

omit [Field K] [LinearOrder K] [IsStrictOrderedRing K] [FloorRing K] in
theorem codes_map_rename : codes (dets.map (DetectionInput.rename f)) = codes dets := by
  simp [codes, DetectionInput.rename, Function.comp_def]

omit [Field K] [LinearOrder K] [IsStrictOrderedRing K] [FloorRing K] in
theorem ofCode_map_rename (code : String) :
    ofCode (dets.map (DetectionInput.rename f)) code
      = (ofCode dets code).map (DetectionInput.rename f) := by
  rw [ofCode, List.filter_map]
  rfl

omit [LinearOrder K] [IsStrictOrderedRing K] [FloorRing K] in
theorem groupWeight_map_rename :
    groupWeight (dets.map (DetectionInput.rename f)) = groupWeight dets := by
  simp [groupWeight, DetectionInput.rename, Function.comp_def]

omit [IsStrictOrderedRing K] [FloorRing K] in
theorem meanSeverity_map_rename :
    meanSeverity (dets.map (DetectionInput.rename f)) = meanSeverity dets := by
  simp [meanSeverity, DetectionInput.rename, Function.comp_def]

omit [Field K] [LinearOrder K] [IsStrictOrderedRing K] [FloorRing K] in
theorem imageIds_ofCode_subset (code : String) : imageIds (ofCode dets code) ⊆ imageIds dets := by
  intro image hmem
  obtain ⟨d, hd, rfl⟩ := mem_keys.mp hmem
  exact key_mem_keys (mem_ofCode.mp hd).1

omit [IsStrictOrderedRing K] [FloorRing K] in
theorem cdcDensity_map_rename (hf : Set.InjOn f (imageIds dets)) :
    cdcDensity (dets.map (DetectionInput.rename f)) totalImages = cdcDensity dets totalImages := by
  have hcovered : coveredImages (dets.map (DetectionInput.rename f)) = coveredImages dets :=
    cappedSum_map (fun _ _ => rfl) (fun _ _ => rfl) hf
  rw [cdcDensity_eq, hcovered, cdcDensity_eq]

theorem cdcResult_rename (hf : Set.InjOn f (imageIds dets)) :
    cdcResult (dets.map (DetectionInput.rename f)) totalImages = cdcResult dets totalImages := by
  apply cdcResult_congr codes_map_rename <;> intro code _ <;> rw [ofCode_map_rename]
  · exact groupWeight_map_rename
  · exact meanSeverity_map_rename
  · exact cdcDensity_map_rename (hf.mono (imageIds_ofCode_subset code))

end Rename

/-! ### Order -/

omit [Field K] [LinearOrder K] [IsStrictOrderedRing K] [FloorRing K] in
theorem uniformWeights_map_rename {f : String → String} (hw : UniformWeights dets) :
    UniformWeights (dets.map (DetectionInput.rename f)) := by
  intro d hd d' hd' hcode
  obtain ⟨d₀, hd₀, rfl⟩ := List.mem_map.mp hd
  obtain ⟨d₀', hd₀', rfl⟩ := List.mem_map.mp hd'
  exact hw d₀ hd₀ d₀' hd₀' hcode

/-- **Neither the order of the detections nor the names of the images matter**, for the record and
for the dominant type the worker takes from it. -/
theorem computePci_reordered (hv : ∀ d ∈ dets, d.Valid) (hw : UniformWeights dets)
    {f : String → String} (hf : Set.InjOn f (imageIds dets))
    (hperm : dets'.Perm (dets.map (DetectionInput.rename f))) (totalImages : ℤ) :
    computePci dets' totalImages = computePci dets totalImages ∧
      (computePci dets' totalImages).map dominantType
        = (computePci dets totalImages).map dominantType := by
  have heq : computePci dets' totalImages = computePci dets totalImages := by
    rcases lt_or_ge totalImages 1 with hn | hn
    · rw [computePci, computePci, if_pos hn, if_pos hn]
    · have hv' : ∀ d ∈ dets', d.Valid := by
        intro d hd
        obtain ⟨d₀, hd₀, rfl⟩ := List.mem_map.mp (hperm.mem_iff.mp hd)
        exact hv d₀ hd₀
      rw [computePci_eq hn hv', computePci_eq hn hv, ← cdcResult_rename hf,
        cdcResult_perm hperm.symm (uniformWeights_map_rename hw)]
  exact ⟨heq, by rw [heq]⟩

/-- A pothole and a crack on two frames. -/
def twoFrames : List (DetectionInput ℚ) :=
  [{ damageCode := "POTHOLE", pciWeight := 7 / 20, severity := 4 / 5, relArea := 3 / 4,
     imageId := "img1" },
   { damageCode := "POTHOLE", pciWeight := 7 / 20, severity := 1 / 2, relArea := 1 / 2,
     imageId := "img1" },
   { damageCode := "ALLIGATOR_CRACK", pciWeight := 3 / 10, severity := 1 / 2, relArea := 1 / 5,
     imageId := "img2" }]

/-- The worker reads the frames the other way round, under other ids. -/
theorem computePci_reordered_twoFrames :
    computePci (twoFrames.map (DetectionInput.rename fun id => "s3://" ++ id)).reverse 2
        = computePci twoFrames 2 ∧
      (computePci (twoFrames.map (DetectionInput.rename fun id => "s3://" ++ id)).reverse 2).map
          dominantType
        = (computePci twoFrames 2).map dominantType :=
  computePci_reordered (by decide +kernel) (by unfold UniformWeights; decide +kernel)
    (fun _ _ _ _ h => (String.append_right_inj _).mp h) (List.reverse_perm _) 2

/-! ### Survey size -/

section Copies

variable {g : ℕ → String → String} {k : ℕ}

/-- `k` surveys like the first, the images of the `i`-th renamed by `g i`. -/
abbrev surveys (g : ℕ → String → String) (k : ℕ) (dets : List (DetectionInput K)) :
    List (DetectionInput K) :=
  copies (fun i => DetectionInput.rename (g i)) k dets

omit [Field K] [LinearOrder K] [IsStrictOrderedRing K] [FloorRing K] in
theorem codes_surveys (hk : 1 ≤ k) : codes (surveys g k dets) = codes dets := by
  ext code
  rw [mem_codes, mem_codes]
  constructor
  · rintro ⟨d, hd, rfl⟩
    obtain ⟨i, -, d₀, hd₀, rfl⟩ := mem_copies.mp hd
    exact ⟨d₀, hd₀, rfl⟩
  · rintro ⟨d, hd, rfl⟩
    exact ⟨_, mem_copies.mpr ⟨0, hk, d, hd, rfl⟩, rfl⟩

omit [Field K] [LinearOrder K] [IsStrictOrderedRing K] [FloorRing K] in
theorem ofCode_surveys (code : String) :
    ofCode (surveys g k dets) code = surveys g k (ofCode dets code) :=
  filter_copies fun _ _ _ => rfl

omit [LinearOrder K] [IsStrictOrderedRing K] [FloorRing K] in
/-- The weight is read off the first survey. -/
theorem groupWeight_surveys (hk : 1 ≤ k) : groupWeight (surveys g k dets) = groupWeight dets := by
  obtain ⟨m, rfl⟩ : ∃ m, k = 1 + m := ⟨k - 1, by omega⟩
  cases dets with
  | nil => simp [surveys, copies, List.flatMap_eq_nil_iff.mpr]
  | cons d ds => simp [surveys, copies, List.range_add, groupWeight, DetectionInput.rename]

omit [FloorRing K] in
theorem meanSeverity_surveys (hk : 1 ≤ k) :
    meanSeverity (surveys g k dets) = meanSeverity dets :=
  weightedMean_copies hk (fun _ _ _ => rfl) fun _ _ _ => rfl

/-- The images of different surveys, and different images of one, have different names. -/
def RenamedApart (g : ℕ → String → String) (k : ℕ) (images : Finset String) : Prop :=
  ∀ i < k, ∀ j < k, ∀ x ∈ images, ∀ y ∈ images, g i x = g j y → i = j ∧ x = y

omit [FloorRing K] in
/-- `k` times the covered surface over `k` times the images. -/
theorem cdcDensity_surveys (hk : 1 ≤ k) (hapart : RenamedApart g k (imageIds dets)) :
    cdcDensity (surveys g k dets) (k * totalImages) = cdcDensity dets totalImages := by
  have hpos : (0 : K) < k := by exact_mod_cast hk
  have hcovered : coveredImages (surveys g k dets) = k * coveredImages dets :=
    cappedSum_copies (fun _ _ _ => rfl) (fun _ _ _ => rfl) hapart
  rw [cdcDensity_eq, hcovered, cdcDensity_eq]
  push_cast
  exact mul_div_mul_left _ _ hpos.ne'

theorem cdcResult_surveys (hk : 1 ≤ k) (hapart : RenamedApart g k (imageIds dets)) :
    cdcResult (surveys g k dets) (k * totalImages) = cdcResult dets totalImages := by
  apply cdcResult_congr (codes_surveys hk) <;> intro code _ <;> rw [ofCode_surveys]
  · exact groupWeight_surveys hk
  · exact meanSeverity_surveys hk
  · apply cdcDensity_surveys hk
    intro i hi j hj x hx y hy
    exact hapart i hi j hj x (imageIds_ofCode_subset code hx) y (imageIds_ofCode_subset code hy)

/-- **`k` like surveys taken together score as one of them**, in whatever order their detections
come. -/
theorem computePci_copies {n : ℤ} (hn : 1 ≤ n) (hk : 1 ≤ k) (hv : ∀ d ∈ dets, d.Valid)
    (hw : UniformWeights dets) (hapart : RenamedApart g k (imageIds dets))
    (hperm : dets'.Perm (surveys g k dets)) :
    computePci dets' (k * n) = computePci dets n := by
  have hv' : ∀ d ∈ dets', d.Valid := by
    intro d hd
    obtain ⟨i, -, d₀, hd₀, rfl⟩ := mem_copies.mp (hperm.mem_iff.mp hd)
    exact hv d₀ hd₀
  have hw' : UniformWeights (surveys g k dets) := by
    intro d hd d' hd' hcode
    obtain ⟨i, -, d₀, hd₀, rfl⟩ := mem_copies.mp hd
    obtain ⟨j, -, d₀', hd₀', rfl⟩ := mem_copies.mp hd'
    exact hw d₀ hd₀ d₀' hd₀' hcode
  have hkn : 1 ≤ (k : ℤ) * n := by
    have hk' : (1 : ℤ) ≤ k := by exact_mod_cast hk
    nlinarith
  rw [computePci_eq hkn hv', computePci_eq hn hv, ← cdcResult_perm hperm.symm hw',
    cdcResult_surveys hk hapart]

/-- Two days on the same two frames. -/
theorem computePci_copies_twoFrames :
    computePci (surveys (fun i id => (if i = 0 then "day1/" else "day2/") ++ id) 2 twoFrames) 4
      = computePci twoFrames 2 :=
  computePci_copies (k := 2) (n := 2) (by norm_num) (by norm_num) (by decide +kernel)
    (by unfold UniformWeights; decide +kernel) (by unfold RenamedApart; decide +kernel)
    (List.Perm.refl _)

end Copies

end RoadVisionAI.PciEngine
