import RoadVisionAI.Python.Number

/-!
# What the conversions accept

For each of `float(v)`, `int(v)`, `s in v` and `Decimal(str(v))`, the decoded values it is defined
on; on the others it raises an exception of the language.
-/

namespace RoadVisionAI.Python

/-- The values `float` accepts: numbers, an integer only if a double can hold it, and numeric
texts. -/
inductive FloatLike : Json → Prop
  | int {n : ℤ} {q : ℚ} (h : PyFloat.ofRat n = .finite q) : FloatLike (.int n)
  | float (x : PyFloat) : FloatLike (.float x)
  | bool (b : Bool) : FloatLike (.bool b)
  | text {s : String} {x : PyFloat} (h : floatOfString s = .ok x) : FloatLike (.str s)

/-- The values `int` accepts: numbers but the special ones, and integer literals. -/
inductive IntLike : Json → Prop
  | int (n : ℤ) : IntLike (.int n)
  | float (q : ℚ) : IntLike (.float (.finite q))
  | bool (b : Bool) : IntLike (.bool b)
  | text {s : String} {n : ℤ} (h : intOfString s = .ok n) : IntLike (.str s)

/-- The values `in` looks into. -/
inductive Container : Json → Prop
  | arr (items : List Json) : Container (.arr items)
  | obj (fields : List (String × Json)) : Container (.obj fields)
  | str (s : String) : Container (.str s)

/-- The values whose text is a decimal. -/
inductive DecimalLike : Json → Prop
  | int (n : ℤ) : DecimalLike (.int n)
  | float (x : PyFloat) : DecimalLike (.float x)
  | text {s : String} {d : PyDecimal} (h : decimalOfString s = .ok d) : DecimalLike (.str s)

theorem toFloat_isOk_iff {v : Json} : (∃ x, v.toFloat = .ok x) ↔ FloatLike v := by
  constructor
  · rintro ⟨x, h⟩
    cases v with
    | int n =>
      cases hfloat : PyFloat.ofRat n with
      | finite q => exact .int hfloat
      | _ =>
        simp only [Json.toFloat, hfloat] at h
        cases h
    | float y => exact .float y
    | bool b => exact .bool b
    | str s => exact .text h
    | _ => cases h
  · intro h
    cases h with
    | int h => exact ⟨_, by rw [Json.toFloat, h]⟩
    | float x => exact ⟨x, rfl⟩
    | bool b => exact ⟨_, rfl⟩
    | text h => exact ⟨_, h⟩

theorem toInt_isOk_iff {v : Json} : (∃ n, v.toInt = .ok n) ↔ IntLike v := by
  constructor
  · rintro ⟨n, h⟩
    cases v with
    | int m => exact .int m
    | float x =>
      cases x with
      | finite q => exact .float q
      | _ => cases h
    | bool b => exact .bool b
    | str s => exact .text h
    | _ => cases h
  · intro h
    cases h with
    | text h => exact ⟨_, h⟩
    | _ => exact ⟨_, rfl⟩

theorem hasMember_isOk_iff {v : Json} {s : String} :
    (∃ b, v.hasMember s = .ok b) ↔ Container v := by
  constructor
  · rintro ⟨b, h⟩
    cases v with
    | arr items => exact .arr items
    | obj fields => exact .obj fields
    | str t => exact .str t
    | _ => cases h
  · intro h
    cases h <;> exact ⟨_, rfl⟩

theorem toDecimal_isOk_iff {v : Json} : (∃ d, v.toDecimal = .ok d) ↔ DecimalLike v := by
  constructor
  · rintro ⟨d, h⟩
    cases v with
    | int n => exact .int n
    | float x => exact .float x
    | str s => exact .text h
    | _ => cases h
  · intro h
    cases h with
    | int n => exact ⟨_, rfl⟩
    | float x => cases x <;> exact ⟨_, rfl⟩
    | text h => exact ⟨_, h⟩

/-! ### Exceptions -/

theorem builtIn_floatOfString (s : String) :
    RaisesOnly PyException.BuiltIn (floatOfString s) := by
  intro e h
  unfold floatOfString at h
  split at h
  · obtain rfl := Except.error.inj h
    exact nofun
  · dsimp only at h
    split at h
    · cases h
    · cases h
    · cases h
    · split at h
      · obtain rfl := Except.error.inj h
        exact nofun
      · cases h

theorem builtIn_intOfString (s : String) : RaisesOnly PyException.BuiltIn (intOfString s) := by
  intro e h
  unfold intOfString at h
  split at h
  · obtain rfl := Except.error.inj h
    exact nofun
  · dsimp only at h
    split_ifs at h
    · obtain rfl := Except.error.inj h
      exact nofun
    · obtain rfl := Except.error.inj h
      exact nofun

theorem builtIn_toFloat (v : Json) : RaisesOnly PyException.BuiltIn v.toFloat := by
  intro e h
  cases v with
  | int n =>
    simp only [Json.toFloat] at h
    split at h
    · cases h
    · obtain rfl := Except.error.inj h
      exact nofun
  | float x => cases h
  | bool b => cases h
  | str s => exact builtIn_floatOfString s e h
  | _ =>
    obtain rfl := Except.error.inj h
    exact nofun

theorem builtIn_toInt (v : Json) : RaisesOnly PyException.BuiltIn v.toInt := by
  intro e h
  cases v with
  | int n => cases h
  | float x =>
    cases x with
    | finite q => cases h
    | _ =>
      obtain rfl := Except.error.inj h
      exact nofun
  | bool b => cases h
  | str s => exact builtIn_intOfString s e h
  | _ =>
    obtain rfl := Except.error.inj h
    exact nofun

theorem builtIn_hasMember (v : Json) (s : String) :
    RaisesOnly PyException.BuiltIn (v.hasMember s) := by
  intro e h
  cases v with
  | arr items => cases h
  | obj fields => cases h
  | str t => cases h
  | _ =>
    obtain rfl := Except.error.inj h
    exact nofun

end RoadVisionAI.Python
