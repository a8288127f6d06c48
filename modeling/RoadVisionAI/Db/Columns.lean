import RoadVisionAI.Db.Models
import RoadVisionAI.Python.Number
import Mathlib.Data.Rat.Floor

/-!
# What the columns take

PostgreSQL refuses some values before a `CHECK` sees them: a NUL in a text, or in a string or a key
of a JSON document; a document with NaN or an infinity, which are no JSON; in a `NUMERIC` column an
infinity, and a number that does not fit once it has been coerced to the scale; in an `INTEGER`
column a number of more than 32 bits.  An unpaired surrogate, which it refuses like a NUL, is one
already (`loads`).  Left out are the sizes and depths that the server's memory bounds, and what the
driver converts or refuses by itself on the way (a fraction for an `INTEGER`, more decimal places
than its wire format carries).
-/

namespace RoadVisionAI.Db

open Python

/-! ### Texts and documents -/

/-- A `TEXT` column takes the text. -/
def TextAccepts (text : String) : Prop := '\u0000' ∉ text.toList

instance : DecidablePred TextAccepts := fun text =>
  inferInstanceAs (Decidable ('\u0000' ∉ text.toList))

mutual

/-- A `JSONB` column takes the document. -/
def jsonbAccepts : Json → Bool
  | .null | .bool _ | .int _ | .float (.finite _) => true
  | .float .nan | .float .inf | .float .negInf => false
  | .str s => decide (TextAccepts s)
  | .arr items => jsonbAcceptsItems items
  | .obj fields => jsonbAcceptsFields fields

/-- So it does every item of a list. -/
def jsonbAcceptsItems : List Json → Bool
  | [] => true
  | item :: items => jsonbAccepts item && jsonbAcceptsItems items

/-- So it does every member of an object. -/
def jsonbAcceptsFields : List (String × Json) → Bool
  | [] => true
  | (key, v) :: fields => decide (TextAccepts key) && jsonbAccepts v && jsonbAcceptsFields fields

end

theorem jsonbAcceptsItems_iff {items : List Json} :
    jsonbAcceptsItems items = true ↔ ∀ item ∈ items, jsonbAccepts item = true := by
  induction items with
  | nil => simp [jsonbAcceptsItems]
  | cons item items ih => simp [jsonbAcceptsItems, ih]

/-- A `JSONB` column takes the document, and so does a `CHECK` of its type. -/
def JsonbColumn (type : String) (v : Json) : Prop :=
  jsonbAccepts v = true ∧ v.jsonbTypeof = type

instance (type : String) : DecidablePred (JsonbColumn type) :=
  fun _ => inferInstanceAs (Decidable (_ ∧ _))

theorem jsonbColumn_array_iff {v : Json} :
    JsonbColumn "array" v
      ↔ ∃ items, v = .arr items ∧ ∀ item ∈ items, jsonbAccepts item = true := by
  rw [JsonbColumn, Json.jsonbTypeof_eq_array_iff]
  constructor
  · rintro ⟨haccepts, items, rfl⟩
    exact ⟨items, rfl, jsonbAcceptsItems_iff.mp haccepts⟩
  · rintro ⟨items, rfl, hitems⟩
    exact ⟨jsonbAcceptsItems_iff.mpr hitems, items, rfl⟩

/-! ### Numbers -/

/-- The number at the scale of its column, half away from zero. -/
def quantizeDecimal (scale : ℕ) : PyDecimal → PyDecimal
  | .finite q => .finite (quantizeHalfUp q scale)
  | x => x

/-- A `NUMERIC(precision, scale)` column takes the number, once coerced: NaN, but no infinity. -/
def FitsDecimal (precision scale : ℕ) : PyDecimal → Prop
  | .finite q => FitsNumeric precision scale q
  | .infinite _ => False
  | .nan => True

instance (precision scale : ℕ) : DecidablePred (FitsDecimal precision scale)
  | .finite q => inferInstanceAs (Decidable (FitsNumeric precision scale q))
  | .infinite _ => .isFalse id
  | .nan => .isTrue trivial

/-- An `INTEGER` column takes the number. -/
def FitsInteger (n : ℤ) : Prop := -2 ^ 31 ≤ n ∧ n < 2 ^ 31

instance : DecidablePred FitsInteger := fun _ => inferInstanceAs (Decidable (_ ∧ _))

end RoadVisionAI.Db
