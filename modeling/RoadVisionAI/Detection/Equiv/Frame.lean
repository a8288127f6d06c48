import RoadVisionAI.Detection.Detector
import RoadVisionAI.Python.Equiv.HalfEven
import Mathlib.Data.Rat.Floor

/-!
# Boxes and the frame

`detect` cuts a box off at the left and the upper edge of the frame, but not at the right and the
lower one: what it stores stays inside exactly when the far edges do, or are brought back by the
rounding to four decimals (`inFrame_iff_fits`).  A box that was inside the frame, and is at least
`10⁻⁴` wide and high, stays inside (`inFrame_of_inside`).
-/

namespace RoadVisionAI.Detector

open Python

variable {K : Type*} [Field K] [LinearOrder K] [IsStrictOrderedRing K] [FloorRing K]

/-- The stored box ends inside the frame. -/
def Detection.InFrame (det : Detection K) : Prop :=
  det.bboxX + det.bboxWidth ≤ 1 ∧ det.bboxY + det.bboxHeight ≤ 1

instance (det : Detection ℚ) : Decidable det.InFrame :=
  inferInstanceAs (Decidable (_ ∧ _))

/-- The near edge of a side with this centre. -/
def nearEdge (centre side : K) : K := max 0 (centre - side / 2)

/-- The length of a side. -/
def sideLength (side : K) : K := max (1 / 10 ^ 4) (min side 1)

/-- The far edge is inside the frame, or at most a unit of the fourth decimal outside and brought
back by what the rounding of the near edge and the length drops. -/
def AxisFits (centre side : K) : Prop :=
  nearEdge centre side + sideLength side ≤ 1 ∨
    nearEdge centre side + sideLength side ≤ 1 + 1 / 10 ^ 4 ∧
      RoundsBack (nearEdge centre side * 10 ^ 4) (sideLength side * 10 ^ 4)

/-- Both axes fit. -/
def YoloBox.Fits (box : YoloBox K) : Prop := AxisFits box.xc box.w ∧ AxisFits box.yc box.h

/-- The box is inside the frame, and not too small to be stored. -/
def YoloBox.Inside (box : YoloBox K) : Prop :=
  (box.xc + box.w / 2 ≤ 1 ∧ 1 / 10 ^ 4 ≤ box.w ∧ box.w ≤ 1) ∧
    box.yc + box.h / 2 ≤ 1 ∧ 1 / 10 ^ 4 ≤ box.h ∧ box.h ≤ 1

/-! ### One axis -/

/-- In units of the fourth decimal. -/
theorem axisFits_iff_units {centre side : K} :
    AxisFits centre side ↔
      nearEdge centre side * 10 ^ 4 + sideLength side * 10 ^ 4 ≤ (10000 : ℤ) ∨
        nearEdge centre side * 10 ^ 4 + sideLength side * 10 ^ 4 ≤ (10000 : ℤ) + 1 ∧
          RoundsBack (nearEdge centre side * 10 ^ 4) (sideLength side * 10 ^ 4) := by
  have hunits : nearEdge centre side * 10 ^ 4 + sideLength side * 10 ^ 4
      = (nearEdge centre side + sideLength side) * 10 ^ 4 := (add_mul ..).symm
  have hone : (nearEdge centre side + sideLength side) * 10 ^ 4 ≤ (10000 : ℤ) ↔
      nearEdge centre side + sideLength side ≤ 1 := by
    push_cast
    constructor <;> intro h <;> linarith
  have hnext : (nearEdge centre side + sideLength side) * 10 ^ 4 ≤ (10000 : ℤ) + 1 ↔
      nearEdge centre side + sideLength side ≤ 1 + 1 / 10 ^ 4 := by
    push_cast
    constructor <;> intro h <;> linarith
  rw [hunits, hone, hnext, AxisFits]

theorem pyRound_add_le_one_iff (x y : K) :
    pyRound x 4 + pyRound y 4 ≤ 1 ↔
      roundHalfEven (x * 10 ^ 4) + roundHalfEven (y * 10 ^ 4) ≤ 10000 := by
  have hsum : pyRound x 4 + pyRound y 4
      = (roundHalfEven (x * 10 ^ 4) + roundHalfEven (y * 10 ^ 4) : ℤ) / 10 ^ 4 := by
    rw [Int.cast_add, add_div]
    rfl
  rw [hsum, div_le_one (by positivity)]
  have hcast : (10 : K) ^ 4 = (10000 : ℤ) := by norm_num
  rw [hcast, Int.cast_le]

/-- What is stored of an axis ends inside the frame exactly when the axis fits. -/
theorem axisFits_iff {centre side : K} :
    pyRound (nearEdge centre side) 4 + pyRound (sideLength side) 4 ≤ 1 ↔ AxisFits centre side := by
  rw [pyRound_add_le_one_iff, axisFits_iff_units]
  exact roundHalfEven_add_le_iff (by decide) _ _

omit [FloorRing K] in
theorem farEdge_le_one {centre side : K} (hfar : centre + side / 2 ≤ 1) (hlow : 1 / 10 ^ 4 ≤ side)
    (hhigh : side ≤ 1) : nearEdge centre side + sideLength side ≤ 1 := by
  have hside : sideLength side = side := by
    rw [sideLength, min_eq_left hhigh, max_eq_right hlow]
  rw [hside, nearEdge, ← le_sub_iff_add_le, max_le_iff]
  constructor <;> linarith

/-! ### The box -/

/-- **Stored boxes.**  The box of a detection is inside the frame exactly when both axes of the
predicted one fit. -/
theorem inFrame_iff_fits (upper : String → String) (mapping : Option (Dict String String))
    (box : YoloBox K) : (detectBox upper mapping box).InFrame ↔ box.Fits :=
  and_congr axisFits_iff axisFits_iff

/-- What was inside the frame stays inside. -/
theorem inFrame_of_inside (upper : String → String) (mapping : Option (Dict String String))
    {box : YoloBox K} (h : box.Inside) : (detectBox upper mapping box).InFrame := by
  obtain ⟨⟨hx, hxlow, hxhigh⟩, hy, hylow, hyhigh⟩ := h
  refine ⟨axisFits_iff.mpr (Or.inl ?_), axisFits_iff.mpr (Or.inl ?_)⟩
  · exact farEdge_le_one hx hxlow hxhigh
  · exact farEdge_le_one hy hylow hyhigh

/-- A pothole on the right edge, half a frame wide. -/
def overhangingBox : YoloBox ℚ where
  className := "pothole"
  conf := 9 / 10
  xc := 1
  yc := 1 / 2
  w := 1 / 2
  h := 1 / 2

theorem inFrame_iff_fits_overhangingBox :
    (detectBox id none overhangingBox).InFrame ↔ overhangingBox.Fits :=
  inFrame_iff_fits id none overhangingBox

/-- Its centre and size are in range, and what is stored of it is not. -/
theorem not_inFrame_overhangingBox :
    ((0 ≤ overhangingBox.xc ∧ overhangingBox.xc ≤ 1) ∧ (0 ≤ overhangingBox.yc ∧
        overhangingBox.yc ≤ 1) ∧ (0 ≤ overhangingBox.w ∧ overhangingBox.w ≤ 1) ∧
        0 ≤ overhangingBox.h ∧ overhangingBox.h ≤ 1) ∧
      ¬ (detectBox id none overhangingBox).InFrame := by
  decide +kernel

end RoadVisionAI.Detector
