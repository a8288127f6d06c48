import RoadVisionAI.Engines.Equiv.Breakdown
import RoadVisionAI.Engines.Equiv.SurveyInvariance
import Mathlib.Data.List.Forall2

/-!
# Two surveys compared

What happens to the record when the damage grows.  Raising severities never helps
(`computePci_severer`): every step of the engine, from the mean to the labels, is monotone in them.
One more detection need not hurt (`computePci_append`): it takes part in the mean severity of its
type, which it lowers when it is milder than the mean, while the density grows only as far as its
image is not yet full.  `Dilutes` is the exact condition.
-/

namespace RoadVisionAI

/-- How bad a `severity_level` is. -/
def SeverityLevel.grade : SeverityLevel → ℕ
  | .FAIBLE => 0
  | .MODERE => 1
  | .GRAVE => 2
  | .CRITIQUE => 3

/-- How pressing a `priority_level` is. -/
def PriorityLevel.urgency : PriorityLevel → ℕ
  | .P4_EXCELLENT => 0
  | .P3_SURVEILLANCE => 1
  | .P2_PLANIFIE => 2
  | .P1_URGENT => 3
  | .P0_CRITIQUE => 4

namespace PciEngine

open Python Weighted

variable {K : Type*} [Field K] [LinearOrder K] [IsStrictOrderedRing K] [FloorRing K]
variable {dets dets' : List (DetectionInput K)} {n : ℤ}

/-! ### From the total to the record -/

omit [FloorRing K] in
theorem grade_classifySeverity {x y : K} (h : y ≤ x) :
    (classifySeverity x).grade ≤ (classifySeverity y).grade := by
  unfold classifySeverity
  split_ifs <;> first | (simp only [SeverityLevel.grade]; omega) | linarith

omit [FloorRing K] in
theorem urgency_classifyPriority {x y : K} (h : y ≤ x) :
    (classifyPriority x).urgency ≤ (classifyPriority y).urgency := by
  unfold classifyPriority
  split_ifs <;> first | (simp only [PriorityLevel.urgency]; omega) | linarith

omit [FloorRing K] in
theorem cdcPci_anti (h : cdcTotal dets n ≤ cdcTotal dets' n) : cdcPci dets' n ≤ cdcPci dets n := by
  unfold cdcPci
  gcongr

theorem score_anti (h : cdcTotal dets n ≤ cdcTotal dets' n) :
    (cdcResult dets' n).score ≤ (cdcResult dets n).score :=
  halfUp.toPlaces_mono 2 (cdcPci_anti h)

/-! ### Severer detections -/

/-- The same detection, at least as severe. -/
structure AtLeastAsSevere (d d' : DetectionInput K) : Prop where
  damageCode : d'.damageCode = d.damageCode
  pciWeight : d'.pciWeight = d.pciWeight
  relArea : d'.relArea = d.relArea
  imageId : d'.imageId = d.imageId
  severity : d.severity ≤ d'.severity

section Severer

variable (h : List.Forall₂ AtLeastAsSevere dets dets')
include h

omit [Field K] [IsStrictOrderedRing K] [FloorRing K] in
theorem ofCode_severer (code : String) :
    List.Forall₂ AtLeastAsSevere (ofCode dets code) (ofCode dets' code) := by
  induction h with
  | nil => exact List.Forall₂.nil
  | @cons d d' ds ds' hd _ ih =>
    unfold ofCode at ih ⊢
    by_cases hcode : d.damageCode = code
    · rw [List.filter_cons_of_pos (by simpa using hcode),
        List.filter_cons_of_pos (by simpa [hd.damageCode] using hcode)]
      exact List.Forall₂.cons hd ih
    · rw [List.filter_cons_of_neg (by simpa using hcode),
        List.filter_cons_of_neg (by simpa [hd.damageCode] using hcode)]
      exact ih

omit [Field K] [IsStrictOrderedRing K] [FloorRing K] in
/-- A field the two lists agree on is the same list of values. -/
theorem map_severer {β : Type*} {f : DetectionInput K → β}
    (hf : ∀ d d', AtLeastAsSevere d d' → f d' = f d) : dets'.map f = dets.map f := by
  induction h with
  | nil => rfl
  | cons hd _ ih => rw [List.map_cons, List.map_cons, hf _ _ hd, ih]

omit [IsStrictOrderedRing K] [FloorRing K] in
theorem coveredImages_severer : coveredImages dets' = coveredImages dets := by
  have hpairs : dets'.map (fun d => (d.imageId, d.relArea))
      = dets.map fun d => (d.imageId, d.relArea) :=
    map_severer h fun d d' hd => by rw [hd.imageId, hd.relArea]
  rw [coveredImages, ← cappedSum_pairs, hpairs, cappedSum_pairs, coveredImages]

theorem cdcDeduction_severer (hv : ∀ d ∈ dets, d.Valid) (hw : 0 ≤ groupWeight dets) (hn : 1 ≤ n) :
    cdcDeduction dets n ≤ cdcDeduction dets' n := by
  have hpos : (0 : K) < n := by exact_mod_cast hn
  have hcovered := coveredImages_nonneg hv
  have hweight : groupWeight dets' = groupWeight dets := by
    rw [groupWeight, map_severer h fun _ _ hd => hd.pciWeight, groupWeight]
  have hmean : meanSeverity dets ≤ meanSeverity dets' :=
    weightedMean_mono (fun d hd => (hv d hd).2.1)
      (h.imp fun _ _ hd => ⟨hd.relArea.symm, hd.severity⟩)
  rw [cdcDeduction_def, cdcDeduction_def, hweight, coveredImages_severer h]
  gcongr

theorem cdcTotal_severer (hv : ∀ d ∈ dets, d.Valid) (hw : ∀ d ∈ dets, 0 ≤ d.pciWeight)
    (hn : 1 ≤ n) : cdcTotal dets n ≤ cdcTotal dets' n := by
  have hcodes : codes dets' = codes dets := by
    rw [codes, map_severer h fun _ _ hd => hd.damageCode, codes]
  rw [cdcTotal, cdcTotal, hcodes]
  apply Finset.sum_le_sum
  intro code _
  exact cdcDeduction_severer (ofCode_severer h code) (valid_ofCode hv code)
    (groupWeight_ofCode_nonneg hw code) hn

/-- **Severer damage never scores better**, and its labels are no milder. -/
theorem computePci_severer (hn : 1 ≤ n) (hv : ∀ d ∈ dets, d.Valid) (hv' : ∀ d ∈ dets', d.Valid)
    (hw : ∀ d ∈ dets, 0 ≤ d.pciWeight) :
    ∃ r r', computePci dets n = .ok r ∧ computePci dets' n = .ok r' ∧
      r'.score ≤ r.score ∧
      r.severityLevel.grade ≤ r'.severityLevel.grade ∧
      r.priorityLevel.urgency ≤ r'.priorityLevel.urgency := by
  have htotal := cdcTotal_severer h hv hw hn
  have hpci := cdcPci_anti htotal
  exact ⟨_, _, computePci_eq hn hv, computePci_eq hn hv', score_anti htotal,
    grade_classifySeverity hpci, urgency_classifyPriority hpci⟩

end Severer

/-- The pothole and the cracks of two frames, each a little worse. -/
theorem computePci_severer_twoFrames :
    ∃ r r', computePci twoFrames 2 = .ok r ∧
      computePci (twoFrames.map fun d => { d with severity := (d.severity + 1) / 2 }) 2 = .ok r' ∧
      r'.score ≤ r.score ∧
      r.severityLevel.grade ≤ r'.severityLevel.grade ∧
      r.priorityLevel.urgency ≤ r'.priorityLevel.urgency :=
  computePci_severer
    (List.Forall₂.cons ⟨rfl, rfl, rfl, rfl, by decide +kernel⟩
      (List.Forall₂.cons ⟨rfl, rfl, rfl, rfl, by decide +kernel⟩
        (List.Forall₂.cons ⟨rfl, rfl, rfl, rfl, by decide +kernel⟩ List.Forall₂.nil)))
    (by norm_num) (by decide +kernel) (by decide +kernel) (by decide +kernel)

/-! ### One more detection -/

omit [Field K] [LinearOrder K] [IsStrictOrderedRing K] [FloorRing K] in
theorem ofCode_append_self (dets : List (DetectionInput K)) (d : DetectionInput K) :
    ofCode (dets ++ [d]) d.damageCode = ofCode dets d.damageCode ++ [d] := by
  rw [ofCode, List.filter_append, List.filter_cons_of_pos (by simp), List.filter_nil, ofCode]

omit [Field K] [LinearOrder K] [IsStrictOrderedRing K] [FloorRing K] in
theorem ofCode_append_other (dets : List (DetectionInput K)) {d : DetectionInput K} {code : String}
    (h : code ≠ d.damageCode) : ofCode (dets ++ [d]) code = ofCode dets code := by
  rw [ofCode, List.filter_append, List.filter_cons_of_neg (by simpa using h.symm), List.filter_nil,
    List.append_nil, ofCode]

omit [IsStrictOrderedRing K] [FloorRing K] in
/-- A type that does not occur removes nothing, so the total may range over more codes. -/
theorem cdcTotal_eq_of_subset {s : Finset String} (hs : codes dets ⊆ s) :
    cdcTotal dets n = ∑ code ∈ s, cdcDeduction (ofCode dets code) n := by
  apply Finset.sum_subset hs
  intro code _ hcode
  have hnone : ofCode dets code = [] := by
    apply List.filter_eq_nil_iff.mpr
    intro d hd hd'
    exact hcode (mem_codes.mpr ⟨d, hd, of_decide_eq_true hd'⟩)
  rw [hnone]
  simp [cdcDeduction, groupWeight]

omit [IsStrictOrderedRing K] [FloorRing K] in
/-- A detection changes the deduction of its own type only. -/
theorem cdcTotal_append (dets : List (DetectionInput K)) (d : DetectionInput K) :
    cdcTotal (dets ++ [d]) n = cdcTotal dets n
      + (cdcDeduction (ofCode dets d.damageCode ++ [d]) n
        - cdcDeduction (ofCode dets d.damageCode) n) := by
  set s := codes (dets ++ [d]) with hs
  have hd : d.damageCode ∈ s := mem_codes.mpr ⟨d, by simp, rfl⟩
  have hsub : codes dets ⊆ s := by
    intro code hcode
    obtain ⟨d', hd', rfl⟩ := mem_codes.mp hcode
    exact mem_codes.mpr ⟨d', by simp [hd'], rfl⟩
  have hother : ∀ code ∈ s.erase d.damageCode,
      cdcDeduction (ofCode (dets ++ [d]) code) n = cdcDeduction (ofCode dets code) n := by
    intro code hcode
    rw [ofCode_append_other dets (Finset.ne_of_mem_erase hcode)]
  rw [cdcTotal_eq_of_subset hsub, cdcTotal, ← Finset.add_sum_erase _ _ hd,
    ← Finset.add_sum_erase s (fun code => cdcDeduction (ofCode dets code) n) hd,
    Finset.sum_congr rfl hother, ofCode_append_self]
  ring

/-- How much surface of its image a further detection covers, beside the others of its type. -/
def gain (dets : List (DetectionInput K)) (d : DetectionInput K) : K :=
  min 1 (totalArea (ofImage dets d.imageId) + d.relArea) - min 1 (totalArea (ofImage dets d.imageId))

/-- A further detection takes more from the mean severity of its type than it adds surface. -/
def Dilutes (dets : List (DetectionInput K)) (d : DetectionInput K) : Prop :=
  (severeArea dets + d.severity * d.relArea) * totalArea dets * (coveredImages dets + gain dets d)
    < severeArea dets * (totalArea dets + d.relArea) * coveredImages dets

section OneMore

variable {d : DetectionInput K}

omit [FloorRing K] in
theorem gain_nonneg (ha : 0 ≤ d.relArea) : 0 ≤ gain dets d := by
  unfold gain
  apply sub_nonneg.mpr
  gcongr
  linarith

omit [FloorRing K] in
theorem coveredImages_append : coveredImages (dets ++ [d]) = coveredImages dets + gain dets d :=
  cappedSum_append_singleton zero_le_one d

omit [IsStrictOrderedRing K] [FloorRing K] [LinearOrder K] in
theorem totalArea_append : totalArea (dets ++ [d]) = totalArea dets + d.relArea := by
  simp [totalArea]

omit [IsStrictOrderedRing K] [FloorRing K] [LinearOrder K] in
theorem severeArea_append :
    severeArea (dets ++ [d]) = severeArea dets + d.severity * d.relArea := by
  simp [severeArea]

omit [FloorRing K] in
theorem severeArea_nonneg (hv : ∀ d ∈ dets, d.Valid) : 0 ≤ severeArea dets :=
  sum_map_nonneg fun d hd => mul_nonneg (hv d hd).1.1 (hv d hd).2.1

omit [IsStrictOrderedRing K] [FloorRing K] in
theorem valid_append (hv : ∀ d ∈ dets, d.Valid) (hd : d.Valid) :
    ∀ d' ∈ dets ++ [d], d'.Valid := by
  intro d' hd'
  rcases List.mem_append.mp hd' with h | h
  · exact hv d' h
  · rw [List.mem_singleton.mp h]
    exact hd

omit [FloorRing K] in
/-- The product of mean severity and covered surface falls exactly when the detection dilutes. -/
theorem severity_mul_covered_lt_iff (hv : ∀ d ∈ dets, d.Valid) (hd : d.Valid) :
    meanSeverity (dets ++ [d]) * coveredImages (dets ++ [d])
        < meanSeverity dets * coveredImages dets ↔ Dilutes dets d := by
  have hv' := valid_append hv hd
  have hmean := meanSeverity_mul_totalArea hv
  have hmean' := meanSeverity_mul_totalArea hv'
  have hm' := meanSeverity_nonneg hv'
  have hc := coveredImages_nonneg hv
  have hc' := coveredImages_nonneg hv'
  have hle := coveredImages_le_totalArea dets
  rw [totalArea_append, severeArea_append] at hmean'
  unfold Dilutes
  rw [← coveredImages_append]
  rcases (totalArea_nonneg hv).eq_or_lt with hA | hA
  · -- no area before: nothing is covered, so nothing can fall
    have hnone : coveredImages dets = 0 := le_antisymm (by rw [hA]; exact hle) hc
    rw [hnone, ← hA, mul_zero, mul_zero, mul_zero, zero_mul]
    constructor
    · intro hlt
      exact absurd hlt (not_lt.mpr (mul_nonneg hm' hc'))
    · intro hlt
      exact absurd hlt (lt_irrefl _)
  · have hA' : 0 < totalArea dets + d.relArea := by linarith [hd.2.1]
    rw [← hmean', ← hmean, ← mul_lt_mul_iff_of_pos_right (mul_pos hA hA')]
    constructor <;> intro hlt <;> linarith

omit [FloorRing K] in
/-- A detection at least as severe as the mean of its type does not dilute. -/
theorem not_dilutes_of_severe (hv : ∀ d ∈ dets, d.Valid) (hd : d.Valid)
    (h : meanSeverity dets ≤ d.severity) : ¬ Dilutes dets d := by
  have hS := severeArea_nonneg hv
  have hA := totalArea_nonneg hv
  have hC := coveredImages_nonneg hv
  have hgain : 0 ≤ gain dets d := gain_nonneg hd.2.1
  -- `S ≤ s · A`, so `S · (A + a) ≤ (S + s · a) · A`
  have hterm : severeArea dets * d.relArea ≤ d.severity * totalArea dets * d.relArea := by
    apply mul_le_mul_of_nonneg_right _ hd.2.1
    rw [← meanSeverity_mul_totalArea hv]
    exact mul_le_mul_of_nonneg_right h hA
  have hmean : severeArea dets * (totalArea dets + d.relArea)
      ≤ (severeArea dets + d.severity * d.relArea) * totalArea dets := by linarith
  have hpos : 0 ≤ (severeArea dets + d.severity * d.relArea) * totalArea dets :=
    mul_nonneg (add_nonneg hS (mul_nonneg hd.1.1 hd.2.1)) hA
  unfold Dilutes
  rw [not_lt]
  calc severeArea dets * (totalArea dets + d.relArea) * coveredImages dets
      ≤ (severeArea dets + d.severity * d.relArea) * totalArea dets * coveredImages dets :=
        mul_le_mul_of_nonneg_right hmean hC
    _ ≤ (severeArea dets + d.severity * d.relArea) * totalArea dets
          * (coveredImages dets + gain dets d) := by
        apply mul_le_mul_of_nonneg_left _ hpos
        linarith

omit [FloorRing K] in
/-- Nor does a detection for which its image still has room. -/
theorem not_dilutes_of_room (hv : ∀ d ∈ dets, d.Valid) (hd : d.Valid)
    (h : totalArea (ofImage dets d.imageId) + d.relArea ≤ 1) : ¬ Dilutes dets d := by
  have hS := severeArea_nonneg hv
  have hA := totalArea_nonneg hv
  have hC := coveredImages_nonneg hv
  have hle := coveredImages_le_totalArea dets
  have hs := hd.1.1
  have ha := hd.2.1
  have hgain : gain dets d = d.relArea := by
    rw [gain, min_eq_right h, min_eq_right (by linarith)]
    ring
  -- the new area counts in full, while the old one counts at most in full
  have hcovered : severeArea dets * d.relArea * coveredImages dets
      ≤ severeArea dets * d.relArea * totalArea dets :=
    mul_le_mul_of_nonneg_left hle (mul_nonneg hS ha)
  have hadded : 0 ≤ d.severity * d.relArea * totalArea dets * (coveredImages dets + d.relArea) := by
    positivity
  unfold Dilutes
  rw [not_lt, hgain]
  linarith

omit [IsStrictOrderedRing K] [FloorRing K] in
/-- The deduction of a group, by the weight of a detection that joins it. -/
theorem cdcDeduction_of_weight (hweight : ∀ d' ∈ dets, d'.pciWeight = d.pciWeight) :
    cdcDeduction dets n
      = 100 * d.pciWeight / n * (meanSeverity dets * coveredImages dets) := by
  rw [cdcDeduction_def]
  cases dets with
  | nil =>
    have hnone : coveredImages ([] : List (DetectionInput K)) = 0 := rfl
    rw [hnone]
    ring
  | cons d₀ ds =>
    have hgroup : groupWeight (d₀ :: ds) = d.pciWeight := hweight d₀ List.mem_cons_self
    rw [hgroup]
    ring

/-- **One more detection scores no better unless it dilutes its type**, which takes a detection
milder than the mean of its type on an image that is full with it.  If it does, and its type has any
weight, the points removed before the clamp do fall. -/
theorem computePci_append (hn : 1 ≤ n) (hv : ∀ d ∈ dets, d.Valid) (hd : d.Valid)
    (hw : 0 ≤ d.pciWeight)
    (hweight : ∀ d' ∈ dets, d'.damageCode = d.damageCode → d'.pciWeight = d.pciWeight) :
    ∃ r r', computePci dets n = .ok r ∧ computePci (dets ++ [d]) n = .ok r' ∧
      (¬ Dilutes (ofCode dets d.damageCode) d → r'.score ≤ r.score) ∧
      (Dilutes (ofCode dets d.damageCode) d → 0 < d.pciWeight →
        totalDeduction (dets ++ [d]) n < totalDeduction dets n) ∧
      (meanSeverity (ofCode dets d.damageCode) ≤ d.severity →
        ¬ Dilutes (ofCode dets d.damageCode) d) ∧
      (totalArea (ofImage (ofCode dets d.damageCode) d.imageId) + d.relArea ≤ 1 →
        ¬ Dilutes (ofCode dets d.damageCode) d) := by
  have hpos : (0 : K) < n := by exact_mod_cast hn
  have hv' := valid_append hv hd
  have hgroup := valid_ofCode hv d.damageCode
  set group := ofCode dets d.damageCode with hgroup_def
  have hsame : ∀ d' ∈ group, d'.pciWeight = d.pciWeight :=
    fun d' hd' => hweight d' (mem_ofCode.mp hd').1 (mem_ofCode.mp hd').2
  have hsame' : ∀ d' ∈ group ++ [d], d'.pciWeight = d.pciWeight := by
    intro d' hd'
    rcases List.mem_append.mp hd' with h | h
    · exact hsame d' h
    · rw [List.mem_singleton.mp h]
  have htotal : cdcTotal (dets ++ [d]) n = cdcTotal dets n
      + 100 * d.pciWeight / n * (meanSeverity (group ++ [d]) * coveredImages (group ++ [d])
        - meanSeverity group * coveredImages group) := by
    rw [cdcTotal_append, cdcDeduction_of_weight hsame, cdcDeduction_of_weight hsame']
    ring
  have hiff := severity_mul_covered_lt_iff hgroup hd
  refine ⟨_, _, computePci_eq hn hv, computePci_eq hn hv', ?_, ?_, ?_, ?_⟩
  · intro hnot
    have hle := not_lt.mp (mt hiff.mp hnot)
    have hchange : 0 ≤ 100 * d.pciWeight / n * (meanSeverity (group ++ [d])
        * coveredImages (group ++ [d]) - meanSeverity group * coveredImages group) :=
      mul_nonneg (by positivity) (sub_nonneg.mpr hle)
    apply score_anti
    rw [htotal]
    linarith
  · intro hdil hwpos
    have hlt := hiff.mpr hdil
    have hchange : 100 * d.pciWeight / n * (meanSeverity (group ++ [d])
        * coveredImages (group ++ [d]) - meanSeverity group * coveredImages group) < 0 :=
      mul_neg_of_pos_of_neg (by positivity) (sub_neg.mpr hlt)
    rw [totalDeduction_eq hv, totalDeduction_eq hv', htotal]
    linarith
  · exact not_dilutes_of_severe hgroup hd
  · exact not_dilutes_of_room hgroup hd

end OneMore

/-- A frame that is one severe pothole. -/
def fullFrame : List (DetectionInput ℚ) :=
  [{ damageCode := "POTHOLE", pciWeight := 7 / 20, severity := 1, relArea := 1, imageId := "img1" }]

/-- A second box over the same frame, of no severity. -/
def harmlessBox : DetectionInput ℚ :=
  { damageCode := "POTHOLE", pciWeight := 7 / 20, severity := 0, relArea := 1, imageId := "img1" }

/-- The second box halves the mean severity and adds no surface: the score rises from 65.00 to
82.50. -/
theorem score_rises_harmlessBox :
    ¬ ∀ (dets : List (DetectionInput ℚ)) (d : DetectionInput ℚ) (n : ℤ), 1 ≤ n →
      (∀ d' ∈ dets ++ [d], d'.Valid ∧ 0 ≤ d'.pciWeight ∧ d'.pciWeight ≤ 1) →
      UniformWeights (dets ++ [d]) →
      ∃ r r', computePci dets n = .ok r ∧ computePci (dets ++ [d]) n = .ok r' ∧
        r'.score ≤ r.score := by
  intro h
  obtain ⟨r, r', hr, hr', hle⟩ := h fullFrame harmlessBox 1 le_rfl (by decide +kernel)
    (by unfold UniformWeights; decide +kernel)
  have hscore : (computePci fullFrame 1).map PciResult.score = .ok 65 := by decide +kernel
  have hscore' : (computePci (fullFrame ++ [harmlessBox]) 1).map PciResult.score
      = .ok (165 / 2) := by decide +kernel
  rw [hr] at hscore
  rw [hr'] at hscore'
  have h65 : r.score = 65 := Except.ok.inj hscore
  have h82 : r'.score = 165 / 2 := Except.ok.inj hscore'
  rw [h65, h82] at hle
  norm_num at hle

/-- The criterion at that box, which dilutes. -/
theorem computePci_append_harmlessBox :
    ∃ r r', computePci fullFrame 1 = .ok r ∧
      computePci (fullFrame ++ [harmlessBox]) 1 = .ok r' ∧
      (¬ Dilutes (ofCode fullFrame harmlessBox.damageCode) harmlessBox → r'.score ≤ r.score) ∧
      (Dilutes (ofCode fullFrame harmlessBox.damageCode) harmlessBox → 0 < harmlessBox.pciWeight →
        totalDeduction (fullFrame ++ [harmlessBox]) 1 < totalDeduction fullFrame 1) ∧
      (meanSeverity (ofCode fullFrame harmlessBox.damageCode) ≤ harmlessBox.severity →
        ¬ Dilutes (ofCode fullFrame harmlessBox.damageCode) harmlessBox) ∧
      (totalArea (ofImage (ofCode fullFrame harmlessBox.damageCode) harmlessBox.imageId)
          + harmlessBox.relArea ≤ 1 →
        ¬ Dilutes (ofCode fullFrame harmlessBox.damageCode) harmlessBox) :=
  computePci_append le_rfl (by decide +kernel) (by decide +kernel) (by decide +kernel)
    (by decide +kernel)

end PciEngine

end RoadVisionAI
