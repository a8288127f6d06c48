import RoadVisionAI.Python.Dict
import RoadVisionAI.Python.Rounding
import RoadVisionAI.Python.Str

/-!
# The detector (`app/ai/detection/class_mapping.py`, `detector.py`)

A model's boxes become detections: the class name is resolved to a damage code, the centre form
becomes a corner form clamped into the frame, and every number is rounded to four decimals.  The
model is outside; `YoloBox` is what it returns.  `upper` is `str.upper`.
-/

namespace RoadVisionAI.Detector

open Python

/-! ### Class names -/

/-- `DEFAULT_CLASS_TO_CODE`. -/
def defaultClassToCode : List (String × String) :=
  [("pothole", "POTHOLE"),
   ("Alligator", "ALLIGATOR_CRACK"),
   ("Longitudinal-Crack", "LONGITUDINAL_CRACK"),
   ("Lateral-Crack", "LATERAL_CRACK"),
   ("Edge Cracking", "EDGE_CRACKING"),
   ("Ravelling", "RAVELLING"),
   ("Rutting", "RUTTING"),
   ("Striping", "STRIPING")]

/-- `normalise`. -/
def normalise (upper : String → String) (name : String) : String :=
  upper (replace (replace (strip name) "-" "_") " " "_")

/-- `resolve_code`: the model's own mapping, then the default one, then normalisation. -/
def resolveCode (upper : String → String) (className : String)
    (configMapping : Option (Dict String String)) : String :=
  match configMapping.bind (·.get? className) with
  | some code => code
  | none =>
    match defaultClassToCode.lookup className with
    | some code => code
    | none => normalise upper className

example (upper : String → String) :
    resolveCode upper "Alligator" none = "ALLIGATOR_CRACK" := rfl

/-! ### Boxes -/

/-- A box the model returns: `names[cls]`, `conf` and `xywhn[0]`. -/
structure YoloBox (K : Type*) where
  className : String
  conf : K
  xc : K
  yc : K
  w : K
  h : K
deriving DecidableEq

/-- `Detection`. -/
structure Detection (K : Type*) where
  damageCode : String
  confidence : K
  severity : K
  bboxX : K
  bboxY : K
  bboxWidth : K
  bboxHeight : K
deriving DecidableEq

variable {K : Type*} [Field K] [LinearOrder K] [IsStrictOrderedRing K] [FloorRing K]

/-- `_provisional_severity`. -/
def provisionalSeverity (confidence relArea : K) : K :=
  let areaTerm := min 1 (relArea * 10)
  pyRound (min 1 (4 / 10 * confidence + 6 / 10 * areaTerm)) 4

/-- The body of the loop of `detect`. -/
def detectBox (upper : String → String) (mapping : Option (Dict String String))
    (box : YoloBox K) : Detection K :=
  let x := max 0 (box.xc - box.w / 2)
  let y := max 0 (box.yc - box.h / 2)
  let w := max (1 / 10 ^ 4) (min box.w 1)
  let h := max (1 / 10 ^ 4) (min box.h 1)
  { damageCode := resolveCode upper box.className mapping
    confidence := pyRound box.conf 4
    severity := provisionalSeverity box.conf (w * h)
    bboxX := pyRound x 4
    bboxY := pyRound y 4
    bboxWidth := pyRound w 4
    bboxHeight := pyRound h 4 }

/-- `Detector.detect`, after the model's prediction. -/
def detect (upper : String → String) (mapping : Option (Dict String String))
    (boxes : List (YoloBox K)) : List (Detection K) :=
  boxes.map (detectBox upper mapping)

end RoadVisionAI.Detector
