import RoadVisionAI.Db.Columns
import RoadVisionAI.Engines.RuleEngine

/-!
# The rule language

What the docstring of `rule_engine.py` says of a condition: six fields, each with the shape of its
value and the test it stands for, half-open on the index (`pci_min <= PCI < pci_max`).  A field
that is present has to be one of them, to have its shape and to hold (`Documented`).  `Slips`
lists what `_matches` accepts beside that: a field it does not know, and values of another shape
that its comparisons take all the same.

Of an action, `ActionStorable` says that its day count and its costs satisfy the constraints of the
`maintenance_recommendations` columns they are written to, and `ActionFits` that they are also
within the ranges of these columns.
-/

namespace RoadVisionAI.RuleEngine

open Python Db

/-- The fields of a condition. -/
inductive Field where
  | pciMin | pciMax | severityIn | priorityIn | dominantTypeIn | minDetections
deriving DecidableEq, Repr

namespace Field

/-- The name of a field in the JSON text. -/
def key : Field → String
  | pciMin => "pci_min"
  | pciMax => "pci_max"
  | severityIn => "severity_in"
  | priorityIn => "priority_in"
  | dominantTypeIn => "dominant_type_in"
  | minDetections => "min_detections"

/-- A numeric bound. -/
def Bound (v : Json) : Prop := (∃ n, v = .int n) ∨ ∃ x, v = .float x

/-- A list of strings. -/
def Names (v : Json) : Prop := ∃ names : List String, v = .arr (names.map .str)

/-- The shape of the value of a field. -/
def Shape : Field → Json → Prop
  | pciMin, v | pciMax, v => Bound v
  | severityIn, v | priorityIn, v | dominantTypeIn, v => Names v
  | minDetections, v => ∃ n, v = .int n

/-- The number a bound denotes. -/
def boundValue : Json → PyFloat
  | .int n => .finite n
  | .float x => x
  | _ => .nan

/-- The string is an item of the list. -/
def Lists (v : Json) (name : String) : Prop := ∃ items, v = .arr items ∧ .str name ∈ items

/-- What a field of the right shape asks of the facts. -/
def Holds (ctx : AnalysisContext) : Field → Json → Prop
  | pciMin, v => (boundValue v).leRat ctx.pci
  | pciMax, v => (boundValue v).gtRat ctx.pci
  | severityIn, v => Lists v ctx.severityLevel.value
  | priorityIn, v => Lists v ctx.priorityLevel.value
  | dominantTypeIn, v => ∃ dominant, ctx.dominantDamageType = some dominant ∧ Lists v dominant
  | minDetections, v => ∀ n, v = .int n → n ≤ ctx.totalDetections

end Field

/-- The field is one of the language, with its shape, and holds. -/
def Documented (ctx : AnalysisContext) (key : String) (v : Json) : Prop :=
  ∃ field : Field, field.key = key ∧ field.Shape v ∧ field.Holds ctx v

/-! ### What else is accepted -/

/-- `float()` takes booleans and numeric texts. -/
inductive BoundSlips (accepts : PyFloat → Bool) : Json → Prop
  | bool {b} (h : accepts (.finite (if b then 1 else 0))) : BoundSlips accepts (.bool b)
  | text {s x} (hs : floatOfString s = .ok x) (h : accepts x) : BoundSlips accepts (.str s)

/-- `in` looks for a part of a text, for a key of an object, and in a list of any values. -/
inductive NamesSlip (name : String) : Json → Prop
  | text {s} (h : hasSubstring s name) : NamesSlip name (.str s)
  | object {fields : List (String × Json)} (h : name ∈ fields.map Prod.fst) :
      NamesSlip name (.obj fields)
  | mixed {items item} (h : .str name ∈ items) (hitem : item ∈ items)
      (hother : ∀ s, item ≠ .str s) : NamesSlip name (.arr items)

/-- `int()` takes booleans and numeric texts, and truncates. -/
inductive CountSlips (count : ℤ) : Json → Prop
  | bool {b} (h : (if b then 1 else 0) ≤ count) : CountSlips count (.bool b)
  | fraction {q : ℚ} (h : q.num.tdiv q.den ≤ count) : CountSlips count (.float (.finite q))
  | text {s n} (hs : intOfString s = .ok n) (h : n ≤ count) : CountSlips count (.str s)

/-- A value of another shape that the test of the field takes. -/
def Field.Slips (ctx : AnalysisContext) : Field → Json → Prop
  | pciMin, v => BoundSlips (fun x => x.leRat ctx.pci) v
  | pciMax, v => BoundSlips (fun x => x.gtRat ctx.pci) v
  | severityIn, v => NamesSlip ctx.severityLevel.value v
  | priorityIn, v => NamesSlip ctx.priorityLevel.value v
  | dominantTypeIn, v => ∃ dominant, ctx.dominantDamageType = some dominant ∧ NamesSlip dominant v
  | minDetections, v => CountSlips ctx.totalDetections v

/-- A field outside the language, or one whose value slips through its test. -/
def Slips (ctx : AnalysisContext) (key : String) (v : Json) : Prop :=
  (∀ field : Field, field.key ≠ key) ∨ ∃ field : Field, field.key = key ∧ field.Slips ctx v

/-! ### Actions -/

/-- The order of PostgreSQL's `numeric`, in which NaN is above everything. -/
def numericLe : PyDecimal → PyDecimal → Prop
  | _, .nan => True
  | .nan, _ => False
  | .infinite true, _ | _, .infinite false => True
  | .infinite false, _ | _, .infinite true => False
  | .finite x, .finite y => x ≤ y

instance : DecidableRel numericLe := fun low high =>
  match low, high with
  | .finite x, .finite y => inferInstanceAs (Decidable (x ≤ y))
  | .finite _, .nan | .finite _, .infinite false => .isTrue trivial
  | .finite _, .infinite true => .isFalse id
  | .infinite true, .finite _ | .infinite true, .nan | .infinite true, .infinite true
  | .infinite true, .infinite false => .isTrue trivial
  | .infinite false, .nan | .infinite false, .infinite false => .isTrue trivial
  | .infinite false, .finite _ | .infinite false, .infinite true => .isFalse id
  | .nan, .nan => .isTrue trivial
  | .nan, .finite _ | .nan, .infinite true | .nan, .infinite false => .isFalse id

/-- `estimated_days`: NULL, or an integer above zero. -/
def DaysCheck (days : Json) : Prop := days = .null ∨ ∃ n : ℤ, days = .int n ∧ 0 < n

instance : DecidablePred DaysCheck
  | .null => .isTrue (Or.inl rfl)
  | .int n => decidable_of_iff (0 < n) (by simp [DaysCheck])
  | .bool _ | .float _ | .str _ | .arr _ | .obj _ => .isFalse (by simp [DaysCheck])

/-- `CHECK (estimated_cost_min >= 0)` and
`CHECK (estimated_cost_max IS NULL OR estimated_cost_min IS NULL OR
estimated_cost_max >= estimated_cost_min)`. -/
def CostChecks (costMin costMax : Option PyDecimal) : Prop :=
  (∀ low ∈ costMin, numericLe (.finite 0) low) ∧
    ∀ low ∈ costMin, ∀ high ∈ costMax, numericLe low high

instance (costMin costMax : Option PyDecimal) : Decidable (CostChecks costMin costMax) :=
  match costMin, costMax with
  | none, _ => .isTrue (by simp [CostChecks])
  | some low, none => decidable_of_iff (numericLe (.finite 0) low) (by simp [CostChecks])
  | some low, some high =>
    decidable_of_iff (numericLe (.finite 0) low ∧ numericLe low high) (by simp [CostChecks])

/-- `INTEGER` takes the day count. -/
def FitsDays (days : Json) : Prop := ∀ n, days = .int n → FitsInteger n

instance : DecidablePred FitsDays
  | .int n => decidable_of_iff (FitsInteger n) (by simp [FitsDays])
  | .null | .bool _ | .float _ | .str _ | .arr _ | .obj _ => .isTrue (by simp [FitsDays])

/-- The day count and the costs satisfy the constraints of their columns. -/
def ColumnChecks (days : Json) (costMin costMax : Option PyDecimal) : Prop :=
  DaysCheck days ∧ CostChecks costMin costMax

/-- They also are within the ranges of `INTEGER` and `NUMERIC(12,2)`. -/
def RangeChecks (days : Json) (costMin costMax : Option PyDecimal) : Prop :=
  ColumnChecks days costMin costMax ∧ FitsDays days ∧
    ∀ cost ∈ costMin.toList ++ costMax.toList, FitsDecimal 12 2 (quantizeDecimal 2 cost)

/-- A decision satisfies the constraints of the columns it is written to. -/
def RuleDecision.Storable (decision : RuleDecision) : Prop :=
  ColumnChecks decision.estimatedDays decision.costMinMad decision.costMaxMad

/-- So it does their ranges. -/
def RuleDecision.Fits (decision : RuleDecision) : Prop :=
  RangeChecks decision.estimatedDays decision.costMinMad decision.costMaxMad

end RoadVisionAI.RuleEngine
