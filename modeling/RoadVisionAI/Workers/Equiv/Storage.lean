import RoadVisionAI.Workers.Equiv.AnalysisWorker

/-!
# When a run can store its outputs

`Detection.Storable` is what the columns still ask of a detection after the detector has clamped its
box: a confidence that rounds into `[0, 1]`, and a corner below `10⁴`.  The computation and its
flushes return exactly when every detection that is kept is storable (`exists_store_analyse_iff`),
whatever the model predicts, and then they return what was computed (`analyse_of_store`).
-/

namespace RoadVisionAI.Detector

open Python

variable {K : Type*} [Field K] [LinearOrder K] [IsStrictOrderedRing K] [FloorRing K]

/-- What the columns of `damage_detections` ask of a detection besides what the detector does. -/
structure Detection.Storable (det : Detection K) : Prop where
  confidence_mem : 0 ≤ det.confidence ∧ det.confidence ≤ 1
  bboxX_lt : det.bboxX < 10 ^ 4
  bboxY_lt : det.bboxY < 10 ^ 4

instance : DecidablePred (Detection.Storable (K := K)) := fun det =>
  decidable_of_iff
    ((0 ≤ det.confidence ∧ det.confidence ≤ 1) ∧ det.bboxX < 10 ^ 4 ∧ det.bboxY < 10 ^ 4)
    ⟨fun ⟨hconf, hx, hy⟩ => ⟨hconf, hx, hy⟩, fun ⟨hconf, hx, hy⟩ => ⟨hconf, hx, hy⟩⟩

omit [FloorRing K] in
/-- What is less than half a unit below zero is not rounded below it. -/
theorem toPlaces_nonneg_of_neg_half_lt (r : NearestRounding K) {x : K} {d : ℕ}
    (h : -(1 / 2) < x * 10 ^ d) : 0 ≤ r.toPlaces x d := by
  have hround := r.sub_half_le_toInt (x * 10 ^ d)
  have hgt : ((-1 : ℤ) : K) < r.toInt (x * 10 ^ d) := by
    push_cast
    linarith
  have hint : 0 ≤ r.toInt (x * 10 ^ d) := by
    have := Int.cast_lt.mp hgt
    omega
  have hcast : (0 : K) ≤ r.toInt (x * 10 ^ d) := by exact_mod_cast hint
  exact div_nonneg hcast (by positivity)

/-- A confidence that is rounded up to zero gives a severity that is: it counts for less than half
in it. -/
theorem provisionalSeverity_mem_of_pyRound {confidence relArea : K}
    (hconf : 0 ≤ pyRound confidence 4) (harea : 0 ≤ relArea) :
    0 ≤ provisionalSeverity confidence relArea ∧ provisionalSeverity confidence relArea ≤ 1 := by
  have hdist := abs_le.mp (halfEven.abs_sub_toPlaces_le confidence 4)
  have hlow : -(1 / 2 / 10 ^ 4) ≤ confidence := by
    have hconf : 0 ≤ halfEven.toPlaces confidence 4 := hconf
    linarith [hdist.1]
  have hterm : 0 ≤ min 1 (relArea * 10) := le_min zero_le_one (by positivity)
  constructor
  · refine toPlaces_nonneg_of_neg_half_lt _ ?_
    rw [min_mul_of_nonneg _ _ (by positivity), lt_min_iff]
    constructor
    · norm_num
    · linarith
  · exact halfEven.toPlaces_le_one (min_le_left _ _) 4

/-- The detector sees to the other ranges. -/
theorem Detection.Storable.inRange {upper : String → String}
    {mapping : Option (Dict String String)} {box : YoloBox K}
    (h : (detectBox upper mapping box).Storable) : (detectBox upper mapping box).InRange where
  bboxX_nonneg := halfEven.toPlaces_nonneg (le_max_left _ _) 4
  bboxY_nonneg := halfEven.toPlaces_nonneg (le_max_left _ _) 4
  bboxWidth_pos := pyRound_side_pos box.w
  bboxWidth_le_one := halfEven.toPlaces_le_one (side_le_one box.w) 4
  bboxHeight_pos := pyRound_side_pos box.h
  bboxHeight_le_one := halfEven.toPlaces_le_one (side_le_one box.h) 4
  confidence_mem := h.confidence_mem
  severity_mem :=
    provisionalSeverity_mem_of_pyRound h.confidence_mem.1
      (mul_pos (side_pos box.w) (side_pos box.h)).le

end RoadVisionAI.Detector

namespace RoadVisionAI.AnalysisWorker

open Python Db Detector PciEngine

variable {K : Type} [Field K] [LinearOrder K] [IsStrictOrderedRing K] [FloorRing K]

/-! ### Flushes -/

theorem exists_mapM_eq_ok_iff {ε α β : Type} {f : α → Except ε β} {l : List α} :
    (∃ bs, l.mapM f = .ok bs) ↔ ∀ a ∈ l, ∃ b, f a = .ok b := by
  induction l with
  | nil => exact iff_of_true ⟨[], rfl⟩ fun _ h => absurd h List.not_mem_nil
  | cons a l ih =>
    rw [List.forall_mem_cons, ← ih]
    constructor
    · rintro ⟨bs, h⟩
      rw [List.mapM_cons] at h
      obtain ⟨b, hb, h⟩ := bind_eq_ok_iff.mp h
      obtain ⟨bs', hbs, -⟩ := bind_eq_ok_iff.mp h
      exact ⟨⟨b, hb⟩, bs', hbs⟩
    · rintro ⟨⟨b, hb⟩, bs, hbs⟩
      refine ⟨b :: bs, ?_⟩
      rw [List.mapM_cons]
      exact bind_eq_ok_iff.mpr ⟨b, hb, bind_eq_ok_iff.mpr ⟨bs, hbs, rfl⟩⟩

/-- The flushes succeed when each of them does. -/
theorem exists_store_iff {outputs : Outputs K} :
    (∃ stored, outputs.store = .ok stored) ↔
      (∀ row ∈ outputs.damageDetections, ∃ row', row.store = .ok row') ∧
        (∃ pci, outputs.pciScore.store = .ok pci) ∧
        ∃ analysis, outputs.analysisResult.store = .ok analysis := by
  rw [← exists_mapM_eq_ok_iff]
  constructor
  · rintro ⟨stored, h⟩
    obtain ⟨dets, hdets, h⟩ := bind_eq_ok_iff.mp h
    obtain ⟨pci, hpci, h⟩ := bind_eq_ok_iff.mp h
    obtain ⟨analysis, hanalysis, -⟩ := bind_eq_ok_iff.mp h
    exact ⟨⟨dets, hdets⟩, ⟨pci, hpci⟩, analysis, hanalysis⟩
  · rintro ⟨⟨dets, hdets⟩, ⟨pci, hpci⟩, analysis, hanalysis⟩
    exact ⟨_, bind_eq_ok_iff.mpr ⟨dets, hdets, bind_eq_ok_iff.mpr ⟨pci, hpci,
      bind_eq_ok_iff.mpr ⟨analysis, hanalysis, rfl⟩⟩⟩⟩

/-- A row its columns hold as it is, is stored when it passes the constraints. -/
theorem exists_storeRow_iff {α : Type} {quantize : α → α} {fits checks : α → Prop}
    [DecidablePred fits] [DecidablePred checks] {row : α} (h : quantize row = row) :
    (∃ row', storeRow quantize fits checks row = .ok row') ↔ fits row ∧ checks row := by
  simp only [storeRow_eq_ok_iff, h, exists_eq_left]

omit [FloorRing K] in
theorem fitsNumeric_of_lt {x : K} {precision scale : ℕ} (hx : 0 ≤ x)
    (hlt : x < 10 ^ (precision - scale)) : FitsNumeric precision scale x := by
  rw [FitsNumeric, abs_of_nonneg hx]
  exact hlt

omit [FloorRing K] in
theorem fitsNumeric_of_mem {x upper : K} {precision scale : ℕ} (hx : 0 ≤ x ∧ x ≤ upper)
    (hupper : upper < 10 ^ (precision - scale)) : FitsNumeric precision scale x :=
  fitsNumeric_of_lt hx.1 (lt_of_le_of_lt hx.2 hupper)

variable {model : ActiveModel K} {damageTypes : DamageTypeTable K} {images : List RoadImage}

/-- A detection is stored when it is storable. -/
theorem exists_store_row_iff {found : Found K}
    (hfound : found ∈ allDetections model damageTypes images) :
    (∃ row', (found.row model).store = .ok row') ↔ found.det.Storable := by
  rw [DamageDetection.store, exists_storeRow_iff (quantize_row hfound)]
  obtain ⟨-, ⟨box, -, hdet⟩, -⟩ := mem_allDetections hfound
  constructor
  · rintro ⟨⟨hx, hy, -⟩, -, -, -, -, hconf, -⟩
    exact ⟨hconf, (abs_lt.mp hx).2, (abs_lt.mp hy).2⟩
  · intro h
    have hrange : found.det.InRange := by
      rw [hdet] at h ⊢
      exact h.inRange
    refine ⟨⟨?_, ?_, ?_, ?_, ?_, ?_⟩, hrange.bboxX_nonneg, hrange.bboxY_nonneg,
      hrange.bboxWidth_pos, hrange.bboxHeight_pos, hrange.confidence_mem, hrange.severity_mem⟩
    · exact fitsNumeric_of_lt hrange.bboxX_nonneg h.bboxX_lt
    · exact fitsNumeric_of_lt hrange.bboxY_nonneg h.bboxY_lt
    · exact fitsNumeric_of_mem ⟨hrange.bboxWidth_pos.le, hrange.bboxWidth_le_one⟩ (by norm_num)
    · exact fitsNumeric_of_mem ⟨hrange.bboxHeight_pos.le, hrange.bboxHeight_le_one⟩ (by norm_num)
    · exact fitsNumeric_of_mem hrange.confidence_mem (by norm_num)
    · exact fitsNumeric_of_mem hrange.severity_mem (by norm_num)

/-! ### The computation and its flushes -/

variable {analysisId : Uuid} {processingTimeMs : ℕ} {outputs : Outputs K}

/-- What is stored is what was computed. -/
theorem analyse_of_store
    (h : analyse model damageTypes images analysisId processingTimeMs >>= Outputs.store
      = .ok outputs) :
    analyse model damageTypes images analysisId processingTimeMs = .ok outputs := by
  obtain ⟨computed, hcomputed, hstore⟩ := bind_eq_ok_iff.mp h
  rw [store_eq_ok hstore, quantize_analyse hcomputed]
  exact hcomputed

theorem valid_of_storable
    (h : ∀ found ∈ allDetections model damageTypes images, found.det.Storable) :
    ∀ d ∈ (allDetections model damageTypes images).map Found.pciInput, d.Valid := by
  intro d hd
  obtain ⟨found, hfound, rfl⟩ := List.mem_map.mp hd
  obtain ⟨-, ⟨box, -, hdet⟩, -⟩ := mem_allDetections hfound
  have hrange : found.det.InRange := by
    have hstorable := h found hfound
    rw [hdet] at hstorable ⊢
    exact hstorable.inRange
  exact ⟨hrange.severity_mem, hrange.area_mem⟩

/-- **When a run stores its outputs.**  Whatever the model predicts, the computation and the flushes
return exactly when there is an image and every detection that is kept is storable. -/
theorem exists_store_analyse_iff :
    (∃ stored, analyse model damageTypes images analysisId processingTimeMs >>= Outputs.store
      = .ok stored) ↔
      images ≠ [] ∧ ∀ found ∈ allDetections model damageTypes images, found.det.Storable := by
  constructor
  · rintro ⟨stored, h⟩
    obtain ⟨computed, hcomputed, hstore⟩ := bind_eq_ok_iff.mp h
    obtain ⟨hne, pci, -, rfl⟩ := analyse_eq_ok_iff.mp hcomputed
    refine ⟨hne, fun found hfound => (exists_store_row_iff hfound).mp ?_⟩
    exact (exists_store_iff.mp ⟨stored, hstore⟩).1 _ (List.mem_map_of_mem hfound)
  · rintro ⟨hne, hstorable⟩
    have hn : 1 ≤ (images.length : ℤ) := by
      exact_mod_cast Nat.pos_of_ne_zero (by simpa using hne)
    have hok : analyse model damageTypes images analysisId processingTimeMs = .ok _ :=
      analyse_eq_ok_iff.mpr ⟨hne, _, computePci_eq hn (valid_of_storable hstorable), rfl⟩
    have hquantize := quantize_analyse hok
    refine bind_isOk_iff.mpr ⟨_, hok, exists_store_iff.mpr ⟨?_, ?_, ?_⟩⟩
    · intro row hrow
      obtain ⟨found, hfound, rfl⟩ := List.mem_map.mp hrow
      exact (exists_store_row_iff hfound).mpr (hstorable found hfound)
    · have hscore := cdcResult_score_mem
        ((allDetections model damageTypes images).map Found.pciInput) images.length
      refine (exists_storeRow_iff (congrArg Outputs.pciScore hquantize)).mpr ⟨?_, hscore⟩
      exact fitsNumeric_of_mem hscore (by norm_num)
    · have hconf := recommendationConfidence_mem fun found hfound =>
        (hstorable found hfound).confidence_mem
      refine (exists_storeRow_iff (congrArg Outputs.analysisResult hquantize)).mpr ⟨?_, hconf⟩
      exact fun confidence hmem => fitsNumeric_of_mem (hconf confidence hmem) (by norm_num)

end RoadVisionAI.AnalysisWorker
