import RoadVisionAI.Engines.CdcFormula
import Mathlib.Data.Rat.Floor

/-!
# `compute_pci` computes the CDC formula

`computePci_eq`: on checked detections and at least one image, `compute_pci` returns
`cdcResult`, the two-decimal rounding and the labels of the exact `cdcPci` with one breakdown
entry per damage code in increasing code order.  The loops are removed one at a time:

* `groupByType_eq`: the checking loop is a grouping by damage code, so the sorted items are the
  sorted codes with the detections of each (`sortedItems_groupByType`);
* `foldl_min_add`: adding areas under a running cap of 1 is capping their sum, hence
  `density_eq`;
* `foldl_typeStep`: the loop over the types is a `map` and a sum.

Two consequences are about the record as a whole.  `computePci_perm`: the result does not depend
on the order of the detections.  `labels_match_iff`: the labels, computed before the score is
rounded, are those of the stored score unless the exact index lies less than half a cent below a
threshold.
-/

namespace RoadVisionAI.PciEngine

open Python

variable {K : Type*} [Field K] [LinearOrder K] [IsStrictOrderedRing K] [FloorRing K]

/-! ### The grouping loop -/

omit [IsStrictOrderedRing K] [FloorRing K] in
/-- When every detection passes the check, the loop only groups. -/
theorem groupByType_eq {dets : List (DetectionInput K)} (hv : ∀ d ∈ dets, d.Valid) :
    groupByType dets
      = .ok (Dict.accumulate DetectionInput.damageCode [] (fun ds d => ds ++ [d]) dets) := by
  unfold groupByType Dict.accumulate
  -- the induction is on the detections that are left, whatever has been grouped
  generalize (Dict.empty : Dict String (List (DetectionInput K))) = byType
  induction dets generalizing byType with
  | nil => rfl
  | cons d ds ih =>
    rw [List.foldlM_cons, groupStep, if_pos (hv d List.mem_cons_self)]
    exact ih (fun d' hd' => hv d' (List.mem_cons_of_mem _ hd')) _

omit [Field K] [LinearOrder K] [IsStrictOrderedRing K] [FloorRing K] in
/-- The items of the grouping in code order. -/
theorem sortedItems_groupByType (dets : List (DetectionInput K)) :
    (Dict.accumulate DetectionInput.damageCode [] (fun ds d => ds ++ [d]) dets).sortedItems
      = (codes dets).sort.map fun code => (code, ofCode dets code) := by
  rw [Dict.sortedItems_accumulate]
  refine List.map_congr_left fun code _ => ?_
  rw [List.foldl_append_eq_append, List.nil_append, ← List.flatMap_def, List.flatMap_singleton',
    ofCode]

/-! ### The capped running ratio -/

omit [FloorRing K] in
/-- A running sum of non-negative terms capped at 1 after every addition is the capped sum. -/
theorem foldl_min_add {dets : List (DetectionInput K)} (ha : ∀ d ∈ dets, 0 ≤ d.relArea) (x : K)
    (hx : 0 ≤ x) :
    dets.foldl (fun ratio det => min 1 (ratio + det.relArea)) (min 1 x)
      = min 1 (x + totalArea dets) := by
  induction dets generalizing x with
  | nil => simp [totalArea]
  | cons d ds ih =>
    have hd : 0 ≤ d.relArea := ha d List.mem_cons_self
    -- a cap that has been reached stays reached, since `d` takes nothing away
    have hcap : min 1 (min 1 x + d.relArea) = min 1 (x + d.relArea) := by
      rcases le_total x 1 with h | h
      · rw [min_eq_right h]
      · rw [min_eq_left h, min_eq_left (by linarith), min_eq_left (by linarith)]
    have hsum : totalArea (d :: ds) = d.relArea + totalArea ds := by
      rw [totalArea, List.map_cons, List.sum_cons, totalArea]
    rw [List.foldl_cons, hcap, ih (fun d' hd' => ha d' (List.mem_cons_of_mem _ hd')) _
      (add_nonneg hx hd), hsum, add_assoc]

theorem density_eq {dets : List (DetectionInput K)} (hv : ∀ d ∈ dets, d.Valid) (totalImages : ℤ) :
    density dets totalImages = cdcDensity dets totalImages := by
  rw [density, perImage, Dict.sum_values_accumulate, cdcDensity, imageIds]
  congr 1
  refine Finset.sum_congr rfl fun image _ => ?_
  have ha : ∀ d ∈ ofImage dets image, 0 ≤ d.relArea :=
    fun d hd => (hv d (List.mem_of_mem_filter hd)).2.1
  have hfold := foldl_min_add ha 0 le_rfl
  rwa [min_eq_right zero_le_one, zero_add] at hfold

theorem deduction_eq {dets : List (DetectionInput K)} (hv : ∀ d ∈ dets, d.Valid)
    (totalImages : ℤ) : deduction dets totalImages = cdcDeduction dets totalImages := by
  rw [deduction, cdcDeduction, density_eq hv]

/-! ### The loop over the types -/

theorem foldl_typeStep (totalImages : ℤ) (items : List (String × List (DetectionInput K)))
    (acc : List (TypeDeduction K) × K) :
    items.foldl (typeStep totalImages) acc
      = (acc.1 ++ items.map fun item => typeDeduction item.1 item.2 totalImages,
        acc.2 + (items.map fun item => deduction item.2 totalImages).sum) := by
  induction items generalizing acc with
  | nil => simp
  | cons item items ih =>
    rw [List.foldl_cons, ih, typeStep]
    simp only [List.map_cons, List.sum_cons, List.append_assoc, List.singleton_append, add_assoc]

/-- The breakdown entry of one type, from the CDC formula. -/
def cdcTypeDeduction (dets : List (DetectionInput K)) (totalImages : ℤ) (code : String) :
    TypeDeduction K where
  damageCode := code
  pciWeight := pyRound (groupWeight (ofCode dets code)) 4
  meanSeverity := pyRound (meanSeverity (ofCode dets code)) 4
  density := pyRound (cdcDensity (ofCode dets code) totalImages) 4
  deduction := pyRound (cdcDeduction (ofCode dets code) totalImages) 4

theorem typeDeduction_ofCode {dets : List (DetectionInput K)} (hv : ∀ d ∈ dets, d.Valid)
    (totalImages : ℤ) (code : String) :
    typeDeduction code (ofCode dets code) totalImages = cdcTypeDeduction dets totalImages code := by
  have hcode : ∀ d ∈ ofCode dets code, d.Valid := fun d hd => hv d (List.mem_of_mem_filter hd)
  rw [typeDeduction, cdcTypeDeduction, density_eq hcode, deduction_eq hcode]

/-- The record the CDC formula prescribes. -/
def cdcResult (dets : List (DetectionInput K)) (totalImages : ℤ) : PciResult K where
  score := round2 (cdcPci dets totalImages)
  severityLevel := classifySeverity (cdcPci dets totalImages)
  priorityLevel := classifyPriority (cdcPci dets totalImages)
  deductions := (codes dets).sort.map (cdcTypeDeduction dets totalImages)

theorem round2_hundred : round2 (100 : K) = 100 := by
  have := halfUp.toPlaces_intCast (K := K) 100 2
  simpa [round2, quantizeHalfUp] using this

theorem cdcResult_nil (totalImages : ℤ) :
    cdcResult ([] : List (DetectionInput K)) totalImages
      = { score := 100, severityLevel := .FAIBLE, priorityLevel := .P4_EXCELLENT,
          deductions := [] } := by
  have hpci : cdcPci ([] : List (DetectionInput K)) totalImages = 100 := by
    simp [cdcPci, cdcTotal, codes]
  rw [cdcResult, hpci, round2_hundred]
  norm_num [classifySeverity, classifyPriority, codes]

/-- **`compute_pci` computes the CDC formula** on detections that pass its check. -/
theorem computePci_eq {dets : List (DetectionInput K)} {totalImages : ℤ} (hn : 1 ≤ totalImages)
    (hv : ∀ d ∈ dets, d.Valid) :
    computePci dets totalImages = .ok (cdcResult dets totalImages) := by
  unfold computePci
  rw [if_neg (not_lt.mpr hn)]
  cases hdets : dets with
  | nil => rw [cdcResult_nil]; rfl
  | cons d ds =>
    rw [← hdets, if_neg (by simp [hdets]), groupByType_eq hv]
    have hcode : ∀ code, ∀ d ∈ ofCode dets code, d.Valid :=
      fun code d hd => hv d (List.mem_of_mem_filter hd)
    -- the loop over the types leaves the breakdown and the total
    have hitems : (Dict.accumulate DetectionInput.damageCode [] (fun ds d => ds ++ [d])
          dets).sortedItems.foldl (typeStep totalImages) ([], 0)
        = ((codes dets).sort.map (cdcTypeDeduction dets totalImages),
            cdcTotal dets totalImages) := by
      rw [sortedItems_groupByType, foldl_typeStep, List.map_map, List.map_map, List.nil_append,
        zero_add]
      congr 1
      · exact List.map_congr_left fun code _ => typeDeduction_ofCode hv totalImages code
      · -- the loop adds up in code order, the formula over the set of codes
        rw [cdcTotal, ← Finset.sum_map_toList]
        have hperm :
            ((codes dets).sort.map fun code => cdcDeduction (ofCode dets code) totalImages).Perm
              ((codes dets).toList.map fun code => cdcDeduction (ofCode dets code) totalImages) :=
          (Finset.sort_perm_toList _ _).map _
        rw [← hperm.sum_eq]
        congr 1
        exact List.map_congr_left fun code _ => deduction_eq (hcode code) totalImages
    show Except.ok _ = _
    rw [hitems]
    rfl

omit [FloorRing K] [IsStrictOrderedRing K] in
/-- An invalid detection stops the grouping, whatever dictionary it has reached. -/
theorem valid_of_foldlM_groupStep_eq_ok {dets : List (DetectionInput K)}
    {byType byType' : Dict String (List (DetectionInput K))}
    (h : dets.foldlM groupStep byType = .ok byType') : ∀ d ∈ dets, d.Valid := by
  induction dets generalizing byType with
  | nil => simp
  | cons d ds ih =>
    rw [List.foldlM_cons, groupStep] at h
    by_cases hd : d.Valid
    · rw [if_pos hd] at h
      exact List.forall_mem_cons.mpr ⟨hd, ih h⟩
    · rw [if_neg hd] at h
      cases h

/-- A run that returns has checked the survey size and every detection. -/
theorem valid_of_computePci_eq_ok {dets : List (DetectionInput K)} {totalImages : ℤ}
    {r : PciResult K} (h : computePci dets totalImages = .ok r) :
    1 ≤ totalImages ∧ ∀ d ∈ dets, d.Valid := by
  have hn : 1 ≤ totalImages := by
    by_contra hn
    rw [computePci, if_pos (not_le.mp hn)] at h
    cases h
  refine ⟨hn, ?_⟩
  rw [computePci, if_neg (not_lt.mpr hn)] at h
  split_ifs at h with hnil
  · simp [List.isEmpty_iff.mp hnil]
  · cases hgrouped : groupByType dets with
    | error exc => rw [hgrouped] at h; cases h
    | ok byType => exact valid_of_foldlM_groupStep_eq_ok hgrouped

/-! ### The result as a whole -/

/-- The exact index of any survey is rounded inside `[0, 100]`, the range of `pci_scores.score`. -/
theorem cdcResult_score_mem (dets : List (DetectionInput K)) (totalImages : ℤ) :
    0 ≤ (cdcResult dets totalImages).score ∧ (cdcResult dets totalImages).score ≤ 100 := by
  constructor
  · exact halfUp.toPlaces_nonneg (cdcPci_nonneg dets totalImages) 2
  · have hmono : round2 (cdcPci dets totalImages) ≤ round2 100 :=
      halfUp.toPlaces_mono 2 (cdcPci_le dets totalImages)
    rwa [round2_hundred] at hmono

/-- The numbers of each type determine the record. -/
theorem cdcResult_congr {dets dets' : List (DetectionInput K)} {totalImages totalImages' : ℤ}
    (hcodes : codes dets = codes dets')
    (hweight : ∀ code ∈ codes dets,
      groupWeight (ofCode dets code) = groupWeight (ofCode dets' code))
    (hseverity : ∀ code ∈ codes dets,
      meanSeverity (ofCode dets code) = meanSeverity (ofCode dets' code))
    (hdensity : ∀ code ∈ codes dets,
      cdcDensity (ofCode dets code) totalImages = cdcDensity (ofCode dets' code) totalImages') :
    cdcResult dets totalImages = cdcResult dets' totalImages' := by
  have hdeduction : ∀ code ∈ codes dets,
      cdcDeduction (ofCode dets code) totalImages
        = cdcDeduction (ofCode dets' code) totalImages' := by
    intro code hcode
    rw [cdcDeduction, hweight code hcode, hseverity code hcode, hdensity code hcode, cdcDeduction]
  have htotal : cdcTotal dets totalImages = cdcTotal dets' totalImages' := by
    rw [cdcTotal, cdcTotal, ← hcodes]
    exact Finset.sum_congr rfl hdeduction
  have hentries : (codes dets).sort.map (cdcTypeDeduction dets totalImages)
      = (codes dets').sort.map (cdcTypeDeduction dets' totalImages') := by
    rw [← hcodes]
    apply List.map_congr_left
    intro code hcode
    have hmem : code ∈ codes dets := (Finset.mem_sort _).mp hcode
    rw [cdcTypeDeduction, cdcTypeDeduction, hweight code hmem, hseverity code hmem,
      hdensity code hmem, hdeduction code hmem]
  rw [cdcResult, cdcResult, cdcPci, cdcPci, htotal, hentries]

theorem cdcResult_perm {dets dets' : List (DetectionInput K)} (h : dets.Perm dets')
    (hw : UniformWeights dets) (totalImages : ℤ) :
    cdcResult dets totalImages = cdcResult dets' totalImages := by
  apply cdcResult_congr (codes_perm h) <;> intro code _
  · exact groupWeight_ofCode_perm h hw code
  · exact meanSeverity_perm (h.filter _)
  · exact cdcDensity_perm (h.filter _) totalImages

/-- `compute_pci` returns the same result on every reordering of the detections. -/
theorem computePci_perm {dets dets' : List (DetectionInput K)} (h : dets.Perm dets')
    (hv : ∀ d ∈ dets, d.Valid) (hw : UniformWeights dets) {totalImages : ℤ}
    (hn : 1 ≤ totalImages) : computePci dets totalImages = computePci dets' totalImages := by
  rw [computePci_eq hn hv, computePci_eq hn fun d hd => hv d (h.mem_iff.mpr hd),
    cdcResult_perm h hw]

/-! ### The labels and the stored score

The labels are a function of which of the four thresholds the index reaches, and half-up rounding
to cents reaches a threshold exactly from half a cent below it. -/

/-- The thresholds of the two classifications. -/
def thresholds : List ℤ := [85, 70, 55, 40]

omit [FloorRing K] in
theorem classifyPriority_eq_iff (x y : K) :
    classifyPriority x = classifyPriority y
      ↔ ∀ t ∈ thresholds, ((t : K) ≤ x ↔ (t : K) ≤ y) := by
  simp only [thresholds, List.forall_mem_cons, List.not_mem_nil, false_implies, implies_true,
    and_true, Int.cast_ofNat]
  constructor
  · intro h
    unfold classifyPriority at h
    split_ifs at h <;> refine ⟨?_, ?_, ?_, ?_⟩ <;> constructor <;> intro <;> linarith
  · rintro ⟨h85, h70, h55, h40⟩
    unfold classifyPriority
    simp only [h85, h70, h55, h40]

omit [IsStrictOrderedRing K] [FloorRing K] in
theorem classifySeverity_eq {x y : K} (h : ∀ t ∈ thresholds, ((t : K) ≤ x ↔ (t : K) ≤ y)) :
    classifySeverity x = classifySeverity y := by
  simp only [thresholds, List.forall_mem_cons, List.not_mem_nil, false_implies, implies_true,
    and_true, Int.cast_ofNat] at h
  unfold classifySeverity
  simp only [h.2.1, h.2.2.1, h.2.2.2]

/-- The two-decimal rounding reaches an integer threshold from half a cent below. -/
theorem le_round2_iff {t : ℤ} (ht : 0 < t) (x : K) :
    (t : K) ≤ round2 x ↔ (t : K) - 1 / 200 ≤ x := by
  have h := le_quantizeHalfUp_iff (K := K) (m := t * 100) (by omega) x 2
  push_cast at h
  have hgrid : (t : K) * 100 / 10 ^ 2 = t := by ring
  have hhalf : (1 : K) / 2 / 10 ^ 2 = 1 / 200 := by norm_num
  rwa [hgrid, hhalf] at h

/-- An index lies just below a threshold: under it, but by at most half a cent. -/
def JustBelow (pci : K) (t : ℤ) : Prop := (t : K) - 1 / 200 ≤ pci ∧ pci < t

/-- **The labels of the stored record.**  On checked detections and at least one image,
`compute_pci` returns a record whose labels are those of its own two-decimal score exactly when
the exact index is not just below a threshold. -/
theorem labels_match_iff (dets : List (DetectionInput K)) (totalImages : ℤ)
    (hn : 1 ≤ totalImages) (hv : ∀ d ∈ dets, d.Valid) :
    (∃ r, computePci dets totalImages = .ok r ∧ r.severityLevel = classifySeverity r.score ∧
        r.priorityLevel = classifyPriority r.score)
      ↔ ∀ t ∈ thresholds, ¬ JustBelow (cdcPci dets totalImages) t := by
  rw [computePci_eq hn hv]
  set pci := cdcPci dets totalImages with hpci
  -- a threshold separates the score from the index exactly when the index is just below it
  have hsep : ∀ t ∈ thresholds,
      (((t : K) ≤ pci ↔ (t : K) ≤ round2 pci) ↔ ¬ JustBelow pci t) := by
    intro t ht
    have hpos : 0 < t := by
      simp only [thresholds, List.mem_cons, List.not_mem_nil, or_false] at ht
      omega
    rw [le_round2_iff hpos, JustBelow]
    constructor
    · rintro h ⟨hlo, hhi⟩
      exact absurd (h.mpr hlo) (not_le.mpr hhi)
    · intro h
      constructor
      · intro hle; linarith
      · intro hlo
        by_contra hlt
        exact h ⟨hlo, not_le.mp hlt⟩
  constructor
  · rintro ⟨r, hr, -, hprio⟩ t ht
    obtain rfl := Except.ok.inj hr
    exact (hsep t ht).mp ((classifyPriority_eq_iff pci (round2 pci)).mp hprio t ht)
  · intro h
    have hall : ∀ t ∈ thresholds, ((t : K) ≤ pci ↔ (t : K) ≤ round2 pci) :=
      fun t ht => (hsep t ht).mpr (h t ht)
    exact ⟨_, rfl, classifySeverity_eq hall, (classifyPriority_eq_iff _ _).mpr hall⟩

/-- A survey whose exact index is 69.996: 30 points for the alligator cracking of a whole frame,
0.004 for a speck of worn striping. -/
def justBelow70 : List (DetectionInput ℚ) :=
  [{ damageCode := "ALLIGATOR_CRACK", pciWeight := 3 / 10, severity := 1, relArea := 1,
     imageId := "img1" },
   { damageCode := "STRIPING", pciWeight := 1 / 20, severity := 1 / 50, relArea := 1 / 25,
     imageId := "img1" }]

/-- Its record says `70.00`, the threshold of `FAIBLE` and `P3_SURVEILLANCE`, under the labels
`MODERE` and `P2_PLANIFIE`. -/
theorem computePci_justBelow70 :
    computePci justBelow70 1 = .ok {
      score := 70
      severityLevel := .MODERE
      priorityLevel := .P2_PLANIFIE
      deductions := [
        { damageCode := "ALLIGATOR_CRACK", pciWeight := 3 / 10, meanSeverity := 1, density := 1,
          deduction := 30 },
        { damageCode := "STRIPING", pciWeight := 1 / 20, meanSeverity := 1 / 50, density := 1 / 25,
          deduction := 1 / 250 }] } := by
  decide +kernel

/-- The inputs are in range, and the labels are not those of the score. -/
theorem labels_mismatch_justBelow70 :
    (∀ d ∈ justBelow70, d.Valid ∧ 0 ≤ d.pciWeight ∧ d.pciWeight ≤ 1) ∧
      ¬ ∃ r, computePci justBelow70 1 = .ok r ∧ r.severityLevel = classifySeverity r.score ∧
        r.priorityLevel = classifyPriority r.score := by
  refine ⟨by decide +kernel, ?_⟩
  rintro ⟨r, hr, hsev, -⟩
  rw [computePci_justBelow70] at hr
  obtain rfl := Except.ok.inj hr
  revert hsev
  decide +kernel

/-- One pothole on a twentieth of a single frame. -/
def singlePothole : List (DetectionInput ℚ) :=
  [{ damageCode := "POTHOLE", pciWeight := 7 / 20, severity := 4 / 5, relArea := 1 / 20,
     imageId := "img1" }]

/-- The criterion at a survey that meets it: its exact index is 98.6. -/
theorem labels_match_singlePothole :
    ∃ r, computePci singlePothole 1 = .ok r ∧ r.severityLevel = classifySeverity r.score ∧
      r.priorityLevel = classifyPriority r.score :=
  (labels_match_iff singlePothole 1 le_rfl (by decide +kernel)).mpr (by
    unfold JustBelow
    decide +kernel)

end RoadVisionAI.PciEngine
