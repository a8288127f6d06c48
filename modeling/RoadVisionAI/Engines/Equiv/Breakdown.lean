import RoadVisionAI.Engines.CdcLaws
import RoadVisionAI.Engines.Equiv.PciEngine

/-!
# The breakdown

Two results about the per-type entries of a record.  `deduction_bounds`: what the loop of
`compute_pci` adds up for a type is within the bounds of the CDC formula, so that a defect on few
images of a long survey removes little.  `breakdown_reconciles`: the entries are one for each
damage code, in code order, and up to their rounding they add up to what the score is short of 100,
unless the score has reached 0.
-/

namespace RoadVisionAI.PciEngine

open Python Weighted

variable {K : Type*} [Field K] [LinearOrder K] [IsStrictOrderedRing K] [FloorRing K]
variable {dets : List (DetectionInput K)} {n : ℤ}

omit [IsStrictOrderedRing K] [FloorRing K] in
theorem valid_ofCode (hv : ∀ d ∈ dets, d.Valid) (code : String) :
    ∀ d ∈ ofCode dets code, d.Valid :=
  fun d hd => hv d (mem_ofCode.mp hd).1

omit [LinearOrder K] [IsStrictOrderedRing K] [FloorRing K] in
/-- The weight of a group is the weight of its detections. -/
theorem groupWeight_ofCode {weight : String → K}
    (hw : ∀ d ∈ dets, d.pciWeight = weight d.damageCode) {code : String} (hcode : code ∈ codes dets) :
    groupWeight (ofCode dets code) = weight code := by
  obtain ⟨d, hd, rfl⟩ := mem_codes.mp hcode
  have hall : ∀ d' ∈ ofCode dets d.damageCode, d'.pciWeight = d.pciWeight := by
    intro d' hd'
    obtain ⟨hd', hcode'⟩ := mem_ofCode.mp hd'
    rw [hw d' hd', hcode', hw d hd]
  rw [groupWeight_eq_of_mem (mem_ofCode.mpr ⟨hd, rfl⟩) hall, hw d hd]

omit [IsStrictOrderedRing K] [FloorRing K] in
/-- The weight of a group is one of the weights, or 0. -/
theorem groupWeight_ofCode_nonneg (hw : ∀ d ∈ dets, 0 ≤ d.pciWeight) (code : String) :
    0 ≤ groupWeight (ofCode dets code) := by
  rw [groupWeight]
  cases hgroup : ofCode dets code with
  | nil => simp
  | cons d ds =>
    have hd : d ∈ ofCode dets code := by rw [hgroup]; exact List.mem_cons_self
    exact hw d (mem_ofCode.mp hd).1

/-- **The deduction of a type is bounded by its images and by its areas.**  The groups of the loop
are the detections of each code; for each of them the deduction is non-negative, at most the weight
times the share of the images it occurs on, and at most the weighted sum of severity times area,
which it equals when no image holds more than its own surface of the type. -/
theorem deduction_bounds (dets : List (DetectionInput K)) (n : ℤ) (weight : String → K) (hn : 1 ≤ n)
    (hv : ∀ d ∈ dets, d.Valid) (hw : ∀ d ∈ dets, d.pciWeight = weight d.damageCode ∧ 0 ≤ d.pciWeight) :
    ∃ byType r, groupByType dets = .ok byType ∧
      byType.sortedItems = (codes dets).sort.map (fun code => (code, ofCode dets code)) ∧
      computePci dets n = .ok r ∧
      r.deductions = byType.sortedItems.map (fun item => typeDeduction item.1 item.2 n) ∧
      ∀ item ∈ byType.sortedItems,
        0 ≤ deduction item.2 n ∧
        deduction item.2 n ≤ min (100 * weight item.1 * (imageIds item.2).card / n)
          (100 * weight item.1 / n * (item.2.map fun d => d.severity * d.relArea).sum) ∧
        ((∀ image ∈ imageIds item.2, ((ofImage item.2 image).map fun d => d.relArea).sum ≤ 1) →
          deduction item.2 n
            = 100 * weight item.1 / n * (item.2.map fun d => d.severity * d.relArea).sum) := by
  refine ⟨_, _, groupByType_eq hv, sortedItems_groupByType dets, computePci_eq hn hv, ?_, ?_⟩
  · rw [sortedItems_groupByType, List.map_map]
    apply List.map_congr_left
    intro code _
    exact (typeDeduction_ofCode hv n code).symm
  · intro item hitem
    rw [sortedItems_groupByType] at hitem
    obtain ⟨code, hcode, rfl⟩ := List.mem_map.mp hitem
    have hmem : code ∈ codes dets := (Finset.mem_sort _).mp hcode
    have hvalid := valid_ofCode hv code
    have hweight : groupWeight (ofCode dets code) = weight code :=
      groupWeight_ofCode (fun d hd => (hw d hd).1) hmem
    have hnonneg : 0 ≤ groupWeight (ofCode dets code) :=
      groupWeight_ofCode_nonneg (fun d hd => (hw d hd).2) code
    rw [deduction_eq hvalid, ← hweight]
    refine ⟨cdcDeduction_nonneg hvalid hnonneg hn, le_min ?_ ?_, ?_⟩
    · exact cdcDeduction_le_card hvalid hnonneg hn
    · exact cdcDeduction_le_severeArea hvalid hnonneg hn
    · exact fun hfull => cdcDeduction_eq_severeArea hvalid hfull

/-- The bounds on a survey of three images, one of them with a pothole. -/
theorem deduction_bounds_singlePothole :
    ∃ byType r, groupByType singlePothole = .ok byType ∧
      byType.sortedItems
        = (codes singlePothole).sort.map (fun code => (code, ofCode singlePothole code)) ∧
      computePci singlePothole 3 = .ok r ∧
      r.deductions = byType.sortedItems.map (fun item => typeDeduction item.1 item.2 3) ∧
      ∀ item ∈ byType.sortedItems,
        0 ≤ deduction item.2 3 ∧
        deduction item.2 3 ≤ min (100 * (7 / 20) * (imageIds item.2).card / ((3 : ℤ) : ℚ))
          (100 * (7 / 20) / ((3 : ℤ) : ℚ) * (item.2.map fun d => d.severity * d.relArea).sum) ∧
        ((∀ image ∈ imageIds item.2, ((ofImage item.2 image).map fun d => d.relArea).sum ≤ 1) →
          deduction item.2 3
            = 100 * (7 / 20) / ((3 : ℤ) : ℚ) * (item.2.map fun d => d.severity * d.relArea).sum) :=
  deduction_bounds singlePothole 3 (fun _ => 7 / 20) (by norm_num) (by decide +kernel)
    (by decide +kernel)

/-! ### The entries add up to the score -/

/-- The points all types remove, before any rounding. -/
def totalDeduction (dets : List (DetectionInput K)) (n : ℤ) : K :=
  ∑ code ∈ codes dets, deduction (ofCode dets code) n

omit [FloorRing K] in
theorem cdcTotal_nonneg (hn : 1 ≤ n) (hv : ∀ d ∈ dets, d.Valid)
    (hw : ∀ d ∈ dets, 0 ≤ d.pciWeight) : 0 ≤ cdcTotal dets n :=
  Finset.sum_nonneg fun code _ =>
    cdcDeduction_nonneg (valid_ofCode hv code) (groupWeight_ofCode_nonneg hw code) hn

theorem totalDeduction_eq (hv : ∀ d ∈ dets, d.Valid) : totalDeduction dets n = cdcTotal dets n :=
  Finset.sum_congr rfl fun code _ => deduction_eq (valid_ofCode hv code) n

omit [LinearOrder K] [IsStrictOrderedRing K] [FloorRing K] in
theorem sum_sort_codes (f : String → K) :
    ((codes dets).sort.map f).sum = ∑ code ∈ codes dets, f code := by
  rw [← Finset.sum_map_toList]
  exact ((Finset.sort_perm_toList _ _).map f).sum_eq

/-- The reported deductions differ from the exact ones by half a unit of the fourth decimal each. -/
theorem abs_cdcTotal_sub_sum_le :
    |cdcTotal dets n - ((cdcResult dets n).deductions.map TypeDeduction.deduction).sum|
      ≤ (cdcResult dets n).deductions.length * (1 / 2 / 10 ^ 4) := by
  set exact := (codes dets).sort.map fun code => cdcDeduction (ofCode dets code) n with hexact
  have htotal : cdcTotal dets n = exact.sum := (sum_sort_codes _).symm
  have hreported : (cdcResult dets n).deductions.map TypeDeduction.deduction
      = exact.map fun x => pyRound x 4 := by
    rw [hexact, List.map_map, cdcResult, List.map_map]
    rfl
  have hlength : (cdcResult dets n).deductions.length = exact.length := by
    rw [hexact, cdcResult, List.length_map, List.length_map]
  rw [htotal, hreported, hlength]
  exact halfEven.abs_sum_sub_sum_toPlaces_le exact 4

/-- **The breakdown reconciles with the score.** -/
theorem breakdown_reconciles (hn : 1 ≤ n) (hv : ∀ d ∈ dets, d.Valid)
    (hw : ∀ d ∈ dets, 0 ≤ d.pciWeight) :
    ∃ r, computePci dets n = .ok r ∧
      (r.deductions.map TypeDeduction.damageCode).Pairwise (· < ·) ∧
      (∀ code, code ∈ r.deductions.map TypeDeduction.damageCode
        ↔ ∃ d ∈ dets, d.damageCode = code) ∧
      (totalDeduction dets n ≤ 100 →
        |100 - (r.deductions.map TypeDeduction.deduction).sum - r.score|
          ≤ 5 / 1000 + 5 / 100000 * r.deductions.length) ∧
      (100 < totalDeduction dets n → r.score = 0) := by
  have hcodes : (cdcResult dets n).deductions.map TypeDeduction.damageCode = (codes dets).sort := by
    rw [cdcResult, List.map_map]
    exact List.map_id _
  have htotal := totalDeduction_eq (n := n) hv
  have hnonneg := cdcTotal_nonneg hn hv hw
  refine ⟨_, computePci_eq hn hv, ?_, ?_, ?_, ?_⟩
  · rw [hcodes]
    exact (Finset.sortedLT_sort _).pairwise
  · intro code
    rw [hcodes, Finset.mem_sort, mem_codes]
  · intro hle
    have hpci : cdcPci dets n = 100 - cdcTotal dets n := by
      rw [cdcPci, min_eq_right (by linarith), max_eq_right (by linarith)]
    have hscore : |cdcPci dets n - (cdcResult dets n).score| ≤ 1 / 2 / 10 ^ 2 :=
      halfUp.abs_sub_toPlaces_le _ 2
    have hsum : |cdcTotal dets n - ((cdcResult dets n).deductions.map TypeDeduction.deduction).sum|
        ≤ (cdcResult dets n).deductions.length * (1 / 2 / 10 ^ 4) := abs_cdcTotal_sub_sum_le
    set reported := ((cdcResult dets n).deductions.map TypeDeduction.deduction).sum
    -- the two errors: that of the entries, then that of the score
    calc |100 - reported - (cdcResult dets n).score|
        = |(cdcTotal dets n - reported) + (cdcPci dets n - (cdcResult dets n).score)| := by
          rw [hpci]; congr 1; ring
      _ ≤ |cdcTotal dets n - reported| + |cdcPci dets n - (cdcResult dets n).score| :=
          abs_add_le _ _
      _ ≤ (cdcResult dets n).deductions.length * (1 / 2 / 10 ^ 4) + 1 / 2 / 10 ^ 2 :=
          add_le_add hsum hscore
      _ = 5 / 1000 + 5 / 100000 * (cdcResult dets n).deductions.length := by ring
  · intro hlt
    have hpci : cdcPci dets n = 0 := by
      rw [cdcPci, max_eq_left]
      exact (min_le_right _ _).trans (by linarith)
    show round2 (cdcPci dets n) = 0
    rw [hpci]
    exact halfUp.toPlaces_zero 2

/-- The two types of the survey below a threshold: 30 and 0.004 points, score 70.00. -/
theorem breakdown_reconciles_justBelow70 :
    ∃ r, computePci justBelow70 1 = .ok r ∧
      (r.deductions.map TypeDeduction.damageCode).Pairwise (· < ·) ∧
      (∀ code, code ∈ r.deductions.map TypeDeduction.damageCode
        ↔ ∃ d ∈ justBelow70, d.damageCode = code) ∧
      (totalDeduction justBelow70 1 ≤ 100 →
        |100 - (r.deductions.map TypeDeduction.deduction).sum - r.score|
          ≤ 5 / 1000 + 5 / 100000 * r.deductions.length) ∧
      (100 < totalDeduction justBelow70 1 → r.score = 0) :=
  breakdown_reconciles le_rfl (by decide +kernel) (by decide +kernel)

end RoadVisionAI.PciEngine
