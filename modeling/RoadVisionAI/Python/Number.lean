import RoadVisionAI.Python.Json

/-!
# `float(v)`, `int(v)` and `Decimal(str(v))` on decoded JSON

The conversions Python applies to a value of unknown type, with the exceptions they raise.  Numeric
strings follow CPython's grammar: white space around, Unicode decimal digits, underscores between
digits (anywhere for `Decimal`), the names of infinity and NaN in any case.  What counts as white
space differs: `Decimal` strips what `str.strip` does, `float` and `int` all of it but the four
separators U+001C to U+001F.  A message quotes the text as it stands, where Python quotes its
`repr`.
-/

namespace RoadVisionAI.Python

/-! ### Numeric strings -/

/-- Unicode digits become ASCII ones. -/
def asciiDigits (cs : List Char) : List Char :=
  cs.map fun c => match digitValue? c with
    | some d => Char.ofNat (48 + d)
    | none => c

/-- The white space around a `float` or an `int`: that of `str.strip`, without the four
separators. -/
def isNumberSpace (c : Char) : Bool := isSpace c && !(28 ≤ c.toNat && c.toNat ≤ 31)

/-- What `float` and `int` strip off a text. -/
def stripNumber (cs : List Char) : List Char :=
  (cs.dropWhile isNumberSpace).rdropWhile isNumberSpace

/-- Underscores are dropped when each stands between two digits; `none` otherwise. -/
def dropUnderscores (previous : Char) : List Char → Option (List Char)
  | [] => if previous = '_' then none else some []
  | c :: cs =>
    if c = '_' then
      if previous.isDigit then dropUnderscores c cs else none
    else if previous = '_' ∧ ¬ c.isDigit then none
    else (dropUnderscores c cs).map (c :: ·)

/-- The sign of a numeric string and what follows it. -/
def splitSign : List Char → Bool × List Char
  | '-' :: cs => (true, cs)
  | '+' :: cs => (false, cs)
  | cs => (false, cs)

/-- `digits [. digits] [e [sign] digits]`, with at least one digit before the exponent: the digits,
and the power of ten of the last one. -/
def scanDecimal? (cs : List Char) : Option (List Char × ℤ) :=
  let (whole, rest) := spanDigits cs
  let (fraction, rest) := match rest with
    | '.' :: more => spanDigits more
    | _ => ([], rest)
  let (exponent, rest) := scanExponent rest
  if (whole ++ fraction).isEmpty ∨ ¬ rest.isEmpty then none
  else some (whole ++ fraction, exponent.getD 0 - (fraction.length : ℤ))

/-- The value of a decimal literal, with the sign before it. -/
def decimalValue (negative : Bool) (digits : List Char) (exponent : ℤ) : ℚ :=
  let magnitude : ℚ := digitsValue digits * 10 ^ exponent
  if negative then -magnitude else magnitude

/-- A word in lower case, for the names of the special values. -/
def lowerAscii (cs : List Char) : String := String.ofList (cs.map Char.toLower)

/-- `float(s)`. -/
def floatOfString (s : String) : Except PyException PyFloat :=
  let invalid := .error (.valueError s!"could not convert string to float: '{s}'")
  match dropUnderscores ' ' (stripNumber (asciiDigits s.toList)) with
  | none => invalid
  | some cs =>
    let (negative, cs) := splitSign cs
    match lowerAscii cs with
    | "inf" | "infinity" => .ok (if negative then .negInf else .inf)
    | "nan" => .ok .nan
    | _ =>
      match scanDecimal? cs with
      | none => invalid
      | some (digits, exponent) => .ok (.ofRat (decimalValue negative digits exponent))

/-- `int(s)`. -/
def intOfString (s : String) : Except PyException ℤ :=
  let invalid := .error (.valueError s!"invalid literal for int() with base 10: '{s}'")
  match dropUnderscores ' ' (stripNumber (asciiDigits s.toList)) with
  | none => invalid
  | some cs =>
    let (negative, digits) := splitSign cs
    if digits.isEmpty ∨ ¬ digits.all Char.isDigit then invalid
    else if 4300 < digits.length then
      .error (.valueError s!"Exceeds the limit (4300 digits) for integer string conversion: value has {digits.length} digits; use sys.set_int_max_str_digits() to increase the limit")
    else .ok (if negative then -(digitsValue digits : ℤ) else digitsValue digits)

/-- A `decimal.Decimal`, without its exponent. -/
inductive PyDecimal where
  | finite (q : ℚ)
  | infinite (negative : Bool)
  | nan
deriving DecidableEq, Repr

/-- `MAX_EMAX` of `decimal`: the largest power of ten the first digit may stand for. -/
def maxEmax : ℤ := 999999999999999999

/-- `MIN_ETINY` of `decimal`: the smallest power of ten the last digit may stand for. -/
def minEtiny : ℤ := -1999999999999999997

/-- The first digit that is not zero, or the last zero, and the last digit are within the limits. -/
def inDecimalRange (digits : List Char) (exponent : ℤ) : Bool :=
  let coefficient := max 1 (digits.dropWhile (· = '0')).length
  minEtiny ≤ exponent && exponent + coefficient - 1 ≤ maxEmax

/-- `Decimal(s)`, which converts exactly or not at all. -/
def decimalOfString (s : String) : Except PyException PyDecimal :=
  let cs := (stripChars (asciiDigits s.toList)).filter (· ≠ '_')
  let (negative, cs) := splitSign cs
  let word := lowerAscii (cs.takeWhile fun c => ¬ c.isDigit)
  let payload := cs.dropWhile fun c => ¬ c.isDigit
  if word = "inf" ∧ payload.isEmpty ∨ word = "infinity" ∧ payload.isEmpty then
    .ok (.infinite negative)
  else if (word = "nan" ∨ word = "snan") ∧ payload.all Char.isDigit then .ok .nan
  else
    match scanDecimal? cs with
    | none => .error (.invalidOperation "[<class 'decimal.ConversionSyntax'>]")
    | some (digits, exponent) =>
      if inDecimalRange digits exponent then .ok (.finite (decimalValue negative digits exponent))
      else .error (.invalidOperation "[<class 'decimal.InvalidOperation'>]")

/-! ### Values of unknown type -/

/-- The type name in Python's error messages. -/
def Json.typeName : Json → String
  | .null => "NoneType"
  | .bool _ => "bool"
  | .int _ => "int"
  | .float _ => "float"
  | .str _ => "str"
  | .arr _ => "list"
  | .obj _ => "dict"

/-- `len(v)`. -/
def Json.len : Json → Except PyException ℕ
  | .arr items => .ok items.length
  | .obj fields => .ok fields.length
  | .str s => .ok s.length
  | v => .error (.typeError s!"object of type '{v.typeName}' has no len()")

/-- `float(v)`. -/
def Json.toFloat : Json → Except PyException PyFloat
  | .int n =>
    match PyFloat.ofRat n with
    | .finite q => .ok (.finite q)
    | _ => .error (.overflowError "int too large to convert to float")
  | .float x => .ok x
  | .bool b => .ok (.finite (if b then 1 else 0))
  | .str s => floatOfString s
  | v => .error (.typeError
      s!"float() argument must be a string or a real number, not '{v.typeName}'")

/-- `int(v)`; a float is truncated. -/
def Json.toInt : Json → Except PyException ℤ
  | .int n => .ok n
  | .float (.finite q) => .ok (q.num.tdiv q.den)
  | .float .nan => .error (.valueError "cannot convert float NaN to integer")
  | .float _ => .error (.overflowError "cannot convert float infinity to integer")
  | .bool b => .ok (if b then 1 else 0)
  | .str s => intOfString s
  | v => .error (.typeError
      s!"int() argument must be a string, a bytes-like object or a real number, not '{v.typeName}'")

/-- `Decimal(str(v))`.  The text of `None`, of a boolean, of a list and of a dictionary is never
numeric; that of an integer or a float denotes its value. -/
def Json.toDecimal : Json → Except PyException PyDecimal
  | .int n => .ok (.finite n)
  | .float (.finite q) => .ok (.finite q)
  | .float .inf => .ok (.infinite false)
  | .float .negInf => .ok (.infinite true)
  | .float .nan => .ok .nan
  | .str s => decimalOfString s
  | _ => .error (.invalidOperation "[<class 'decimal.ConversionSyntax'>]")

/-- `Decimal(str(v))` fails in one way. -/
theorem Json.toDecimal_error {v : Json} {e : PyException} (h : v.toDecimal = .error e) :
    ∃ msg, e = .invalidOperation msg := by
  cases v with
  | int n => cases h
  | float x => cases x <;> cases h
  | str s =>
    simp only [toDecimal, decimalOfString] at h
    split at h
    · cases h
    · split at h
      · cases h
      · split at h
        · exact ⟨_, (Except.error.inj h).symm⟩
        · split at h
          · cases h
          · exact ⟨_, (Except.error.inj h).symm⟩
  | _ => exact ⟨_, (Except.error.inj h).symm⟩

/-- `x >= v` for a finite float `x`; false on NaN. -/
def PyFloat.leRat (v : PyFloat) (x : ℚ) : Bool :=
  match v with
  | .finite q => q ≤ x
  | .negInf => true
  | .inf | .nan => false

/-- `x < v` for a finite float `x`; false on NaN. -/
def PyFloat.gtRat (v : PyFloat) (x : ℚ) : Bool :=
  match v with
  | .finite q => x < q
  | .inf => true
  | .negInf | .nan => false

/-- `s in v` for a string `s`: an item of a list, a key of a dictionary, a part of a string. -/
def Json.hasMember (v : Json) (s : String) : Except PyException Bool :=
  match v with
  | .arr items => .ok (items.any fun item => match item with
      | .str t => t = s
      | _ => false)
  | .obj fields => .ok (fields.any fun field => field.1 = s)
  | .str t => .ok (hasSubstring t s)
  | _ => .error (.typeError s!"argument of type '{v.typeName}' is not iterable")

end RoadVisionAI.Python
