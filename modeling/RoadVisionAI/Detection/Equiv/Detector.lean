import RoadVisionAI.Detection.Detector

/-!
# Detections fit their columns

`Detection.InRange` is what the `damage_detections` columns ask of a detection, and `detectBox`
builds such detections from any box whose confidence lies in `[0, 1]`: the corner is cut off at 0,
the sides are kept in `[10⁻⁴, 1]`, whose ends are four-decimal numbers that no rounding passes, and
the severity is a convex combination of two numbers of `[0, 1]`, cut off at 1.
-/

namespace RoadVisionAI.Detector

open Python

variable {K : Type*} [Field K] [LinearOrder K] [IsStrictOrderedRing K] [FloorRing K]

/-- The ranges of the `damage_detections` columns. -/
structure Detection.InRange (det : Detection K) : Prop where
  bboxX_nonneg : 0 ≤ det.bboxX
  bboxY_nonneg : 0 ≤ det.bboxY
  bboxWidth_pos : 0 < det.bboxWidth
  bboxWidth_le_one : det.bboxWidth ≤ 1
  bboxHeight_pos : 0 < det.bboxHeight
  bboxHeight_le_one : det.bboxHeight ≤ 1
  confidence_mem : 0 ≤ det.confidence ∧ det.confidence ≤ 1
  severity_mem : 0 ≤ det.severity ∧ det.severity ≤ 1

/-- The sides are at least the smallest four-decimal number, before and after rounding. -/
theorem pyRound_side_pos (side : K) : 0 < pyRound (max (1 / 10 ^ 4) (min side 1)) 4 := by
  have hgrid : ((1 : ℤ) : K) / 10 ^ 4 ≤ max (1 / 10 ^ 4) (min side 1) := by
    push_cast
    exact le_max_left _ _
  have hpos : (0 : K) < ((1 : ℤ) : K) / 10 ^ 4 := by positivity
  exact lt_of_lt_of_le hpos (halfEven.le_toPlaces_of_grid_le hgrid)

omit [FloorRing K] in
theorem side_le_one (side : K) : max (1 / 10 ^ 4) (min side 1) ≤ 1 :=
  max_le (by norm_num) (min_le_right _ _)

omit [FloorRing K] in
theorem side_pos (side : K) : 0 < max (1 / 10 ^ 4 : K) (min side 1) :=
  lt_max_of_lt_left (by positivity)

theorem provisionalSeverity_mem {confidence relArea : K} (hconf : 0 ≤ confidence)
    (harea : 0 ≤ relArea) :
    0 ≤ provisionalSeverity confidence relArea ∧ provisionalSeverity confidence relArea ≤ 1 := by
  have hterm : 0 ≤ min 1 (relArea * 10) := le_min zero_le_one (by positivity)
  have hsum : 0 ≤ 4 / 10 * confidence + 6 / 10 * min 1 (relArea * 10) := by positivity
  constructor
  · exact halfEven.toPlaces_nonneg (le_min zero_le_one hsum) 4
  · exact halfEven.toPlaces_le_one (min_le_left _ _) 4

/-- **Every detection is in range** when the model's confidence is; its box may be anything. -/
theorem inRange_detectBox (upper : String → String) (mapping : Option (Dict String String))
    {box : YoloBox K} (hconf : 0 ≤ box.conf ∧ box.conf ≤ 1) :
    (detectBox upper mapping box).InRange where
  bboxX_nonneg := halfEven.toPlaces_nonneg (le_max_left _ _) 4
  bboxY_nonneg := halfEven.toPlaces_nonneg (le_max_left _ _) 4
  bboxWidth_pos := pyRound_side_pos box.w
  bboxWidth_le_one := halfEven.toPlaces_le_one (side_le_one box.w) 4
  bboxHeight_pos := pyRound_side_pos box.h
  bboxHeight_le_one := halfEven.toPlaces_le_one (side_le_one box.h) 4
  confidence_mem :=
    ⟨halfEven.toPlaces_nonneg hconf.1 4, halfEven.toPlaces_le_one hconf.2 4⟩
  severity_mem :=
    provisionalSeverity_mem hconf.1 (mul_pos (side_pos box.w) (side_pos box.h)).le

omit [FloorRing K] in
/-- The box of a detection in range covers at most the frame. -/
theorem Detection.InRange.area_mem {det : Detection K} (h : det.InRange) :
    0 ≤ det.bboxWidth * det.bboxHeight ∧ det.bboxWidth * det.bboxHeight ≤ 1 :=
  ⟨(mul_pos h.bboxWidth_pos h.bboxHeight_pos).le,
    mul_le_one₀ h.bboxWidth_le_one h.bboxHeight_pos.le h.bboxHeight_le_one⟩

end RoadVisionAI.Detector
