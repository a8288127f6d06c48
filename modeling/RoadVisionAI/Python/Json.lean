import RoadVisionAI.Python.Dict
import RoadVisionAI.Python.Exception
import RoadVisionAI.Python.Str
import Mathlib.Data.Rat.Defs
import Mathlib.Algebra.Order.Ring.Rat
import Mathlib.Algebra.Field.Rat

/-!
# `json.loads`

`Json` is what `json.loads` returns: Python's `None`, `bool`, `int`, `float`, `str`, `list` and
`dict`.  `loads` is the recursive-descent scanner of the standard library, on the characters that
are left; an error keeps the characters left at the reported position.  It accepts what Python
accepts beyond the JSON grammar (`NaN`, `Infinity`, `-Infinity`, repeated keys, of which the last
wins) and fails in the three ways Python does: `JSONDecodeError`, `ValueError` on an integer
literal of more than 4300 digits, `RecursionError` on deep nesting.

A float is kept exact between the two ends of the double range, past which it is infinite or zero
as in Python.  An unpaired surrogate escape, which no Lean `Char` can hold, becomes U+0000: neither
is a blank, a digit or part of a name, and PostgreSQL takes neither.
-/

namespace RoadVisionAI.Python

/-- A Python `float`. -/
inductive PyFloat where
  | finite (q : ℚ)
  | inf
  | negInf
  | nan
deriving DecidableEq, Repr

/-- The double nearest to a decimal literal: infinite from half a unit above the largest finite
double on, zero up to half the smallest positive one, and `q` itself between. -/
def PyFloat.ofRat (q : ℚ) : PyFloat :=
  if 2 ^ 1024 - 2 ^ 970 ≤ q then .inf
  else if q ≤ -(2 ^ 1024 - 2 ^ 970) then .negInf
  else if |q| * 2 ^ 1075 ≤ 1 then .finite 0
  else .finite q

/-- A decoded JSON value, as the Python object it becomes. -/
inductive Json where
  | null
  | bool (b : Bool)
  | int (n : ℤ)
  | float (x : PyFloat)
  | str (s : String)
  | arr (items : List Json)
  | obj (fields : List (String × Json))

namespace Json

/-- `bool(v)`. -/
def truthy : Json → Bool
  | null => false
  | bool b => b
  | int n => n != 0
  | float (.finite q) => q != 0
  | float _ => true
  | str s => s != ""
  | arr items => !items.isEmpty
  | obj fields => !fields.isEmpty

/-- `v or w`. -/
def orElse (v w : Json) : Json := if v.truthy then v else w

/-- What `for x in v` visits: the items of a list, the keys of a dictionary, the characters of a
string; nothing when `v` cannot be iterated. -/
def elements : Json → List Json
  | arr items => items
  | obj fields => fields.map fun field => str field.1
  | str s => s.toList.map fun c => str (String.singleton c)
  | _ => []

/-- `jsonb_typeof(v)` of a value that PostgreSQL has stored. -/
def jsonbTypeof : Json → String
  | null => "null"
  | bool _ => "boolean"
  | int _ | float _ => "number"
  | str _ => "string"
  | arr _ => "array"
  | obj _ => "object"

theorem jsonbTypeof_eq_array_iff {v : Json} : v.jsonbTypeof = "array" ↔ ∃ items, v = arr items := by
  cases v <;> simp [jsonbTypeof]

theorem orElse_of_truthy {v : Json} (h : v.truthy = true) (w : Json) : v.orElse w = v :=
  if_pos h

theorem truthy_orElse {v w : Json} (h : w.truthy = true) : (v.orElse w).truthy = true := by
  unfold orElse
  split_ifs with hv
  · exact hv
  · exact h

end Json

/-! ### Equality -/

mutual

/-- Equality of two values. -/
def Json.decEq : (v w : Json) → Decidable (v = w)
  | .null, .null => isTrue rfl
  | .bool b, .bool c => decidable_of_iff (b = c) (by simp)
  | .int m, .int n => decidable_of_iff (m = n) (by simp)
  | .float x, .float y => decidable_of_iff (x = y) (by simp)
  | .str s, .str t => decidable_of_iff (s = t) (by simp)
  | .arr items, .arr items' =>
    have := Json.decEqItems items items'
    decidable_of_iff (items = items') (by simp)
  | .obj fields, .obj fields' =>
    have := Json.decEqFields fields fields'
    decidable_of_iff (fields = fields') (by simp)
  | .null, .bool _ | .null, .int _ | .null, .float _ | .null, .str _ | .null, .arr _
  | .null, .obj _ | .bool _, .null | .bool _, .int _ | .bool _, .float _ | .bool _, .str _
  | .bool _, .arr _ | .bool _, .obj _ | .int _, .null | .int _, .bool _ | .int _, .float _
  | .int _, .str _ | .int _, .arr _ | .int _, .obj _ | .float _, .null | .float _, .bool _
  | .float _, .int _ | .float _, .str _ | .float _, .arr _ | .float _, .obj _ | .str _, .null
  | .str _, .bool _ | .str _, .int _ | .str _, .float _ | .str _, .arr _ | .str _, .obj _
  | .arr _, .null | .arr _, .bool _ | .arr _, .int _ | .arr _, .float _ | .arr _, .str _
  | .arr _, .obj _ | .obj _, .null | .obj _, .bool _ | .obj _, .int _ | .obj _, .float _
  | .obj _, .str _ | .obj _, .arr _ => isFalse nofun

/-- Equality of two lists of values. -/
def Json.decEqItems : (items items' : List Json) → Decidable (items = items')
  | [], [] => isTrue rfl
  | [], _ :: _ | _ :: _, [] => isFalse nofun
  | item :: items, item' :: items' =>
    have := Json.decEq item item'
    have := Json.decEqItems items items'
    decidable_of_iff (item = item' ∧ items = items') (by simp)

/-- Equality of the members of two objects. -/
def Json.decEqFields : (fields fields' : List (String × Json)) → Decidable (fields = fields')
  | [], [] => isTrue rfl
  | [], _ :: _ | _ :: _, [] => isFalse nofun
  | (key, v) :: fields, (key', v') :: fields' =>
    have := Json.decEq v v'
    have := Json.decEqFields fields fields'
    decidable_of_iff ((key = key' ∧ v = v') ∧ fields = fields') (by simp)

end

instance : DecidableEq Json := Json.decEq

/-! ### The scanner -/

/-- A failure of the scanner; `rest` is what is left of the document at the reported position. -/
inductive ScanError where
  | decode (msg : String) (rest : List Char)
  | intDigits (digits : ℕ)
  | recursion
deriving DecidableEq

/-- A scanner takes a value off the front of the document. -/
abbrev Scanner (α : Type) := List Char → Except ScanError (α × List Char)

/-- JSON white space. -/
def skipWhitespace (cs : List Char) : List Char :=
  cs.dropWhile fun c => c = ' ' || c = '\t' || c = '\n' || c = '\r'

/-- The value of a hexadecimal digit. -/
def hexDigit? (c : Char) : Option ℕ :=
  if '0' ≤ c ∧ c ≤ '9' then some (c.toNat - 48)
  else if 'a' ≤ c ∧ c ≤ 'f' then some (c.toNat - 87)
  else if 'A' ≤ c ∧ c ≤ 'F' then some (c.toNat - 55)
  else none

/-- The code unit of four hexadecimal digits. -/
def hex4? (a b c d : Char) : Option ℕ := do
  return (((← hexDigit? a) * 16 + (← hexDigit? b)) * 16 + (← hexDigit? c)) * 16 + (← hexDigit? d)

/-- `chr(n)`, a surrogate becoming U+0000. -/
def chrOfNat (n : ℕ) : Char := if n.isValidChar then Char.ofNat n else '\u0000'

/-- The character a one-letter escape stands for. -/
def simpleEscape? : Char → Option Char
  | '"' => some '"'
  | '\\' => some '\\'
  | '/' => some '/'
  | 'b' => some '\u0008'
  | 'f' => some '\u000C'
  | 'n' => some '\n'
  | 'r' => some '\r'
  | 't' => some '\t'
  | _ => none

/-- A `\\uXXXX` escape, from the `u` on: the character and how many characters spell it.  A high
surrogate takes a following low one with it.  As in the C scanner, a character must follow. -/
def unicodeEscape (cs : List Char) : Except ScanError (Char × ℕ) :=
  match cs with
  | _ :: a :: b :: c :: d :: more =>
    match more.isEmpty, hex4? a b c d with
    | false, some high =>
      if 0xD800 ≤ high ∧ high ≤ 0xDBFF then
        match more with
        | '\\' :: 'u' :: a' :: b' :: c' :: d' :: more' =>
          if more'.isEmpty then .ok (chrOfNat high, 5)
          else
            match hex4? a' b' c' d' with
            | none => .error (.decode "Invalid \\uXXXX escape" (more.drop 1))
            | some low =>
              if 0xDC00 ≤ low ∧ low ≤ 0xDFFF then
                .ok (chrOfNat (0x10000 + (high - 0xD800) * 0x400 + (low - 0xDC00)), 11)
              else .ok (chrOfNat high, 5)
        | _ => .ok (chrOfNat high, 5)
      else .ok (chrOfNat high, 5)
    | _, _ => .error (.decode "Invalid \\uXXXX escape" cs)
  | _ => .error (.decode "Invalid \\uXXXX escape" cs)

/-- `scanstring`: the characters up to the closing quote.  `start` is the document from the
opening quote on, `skip` the number of characters of an escape still to be passed over. -/
def scanString (start : List Char) (acc : List Char) :
    ℕ → List Char → Except ScanError (String × List Char)
  | _, [] => .error (.decode "Unterminated string starting at" start)
  | skip + 1, _ :: cs => scanString start acc skip cs
  | 0, c :: cs =>
    if c = '"' then .ok (String.ofList acc.reverse, cs)
    else if c = '\\' then
      match cs with
      | [] => .error (.decode "Unterminated string starting at" start)
      | e :: _ =>
        if e = 'u' then do
          let (ch, length) ← unicodeEscape cs
          scanString start (ch :: acc) length cs
        else
          match simpleEscape? e with
          | none => .error (.decode "Invalid \\escape" (c :: cs))
          | some ch => scanString start (ch :: acc) 1 cs
    else if c.toNat < 0x20 then .error (.decode "Invalid control character at" (c :: cs))
    else scanString start (c :: acc) 0 cs

/-- The value of a run of ASCII digits. -/
def digitsValue (cs : List Char) : ℕ := cs.foldl (fun n c => n * 10 + (c.toNat - 48)) 0

/-- The longest digit run at the front, and what follows it. -/
def spanDigits (cs : List Char) : List Char × List Char := cs.span Char.isDigit

/-- The fraction of a number, when a digit follows the point. -/
def scanFraction (cs : List Char) : List Char × List Char :=
  match cs with
  | '.' :: c :: more => if c.isDigit then spanDigits (c :: more) else ([], cs)
  | _ => ([], cs)

/-- The exponent of a number: its sign and digits, or nothing when no digit follows. -/
def scanExponent (cs : List Char) : Option ℤ × List Char :=
  match cs with
  | e :: more =>
    if e = 'e' ∨ e = 'E' then
      let (negative, more) := match more with
        | '-' :: more => (true, more)
        | '+' :: more => (false, more)
        | _ => (false, more)
      let (digits, rest) := spanDigits more
      if digits.isEmpty then (none, cs)
      else (some (if negative then -(digitsValue digits : ℤ) else digitsValue digits), rest)
    else (none, cs)
  | [] => (none, cs)

/-- `_match_number`: an `int` when there is neither fraction nor exponent, else a `float`. -/
def matchNumber (start : List Char) : Except ScanError (Json × List Char) :=
  let (negative, cs) := match start with
    | '-' :: cs => (true, cs)
    | _ => (false, start)
  let (whole, rest) := match cs with
    | '0' :: more => (['0'], more)
    | _ => spanDigits cs
  if whole.isEmpty then .error (.decode "Expecting value" start)
  else
    let (fraction, rest) := scanFraction rest
    let (exponent, rest) := scanExponent rest
    if fraction.isEmpty ∧ exponent = none then
      if 4300 < whole.length then .error (.intDigits whole.length)
      else .ok (.int (if negative then -(digitsValue whole : ℤ) else digitsValue whole), rest)
    else
      let magnitude : ℚ := digitsValue (whole ++ fraction)
        * 10 ^ (exponent.getD 0 - (fraction.length : ℤ))
      .ok (.float (.ofRat (if negative then -magnitude else magnitude)), rest)

/-- The items of a list after its `[`, from the first item on.  `fuel` bounds their number. -/
def scanItems (scan : Scanner Json) : ℕ → List Json → Scanner Json
  | 0, _, cs => .error (.decode "Expecting value" cs)
  | fuel + 1, items, cs => do
    let (item, rest) ← scan cs
    let items := items ++ [item]
    match skipWhitespace rest with
    | ']' :: rest => .ok (.arr items, rest)
    | ',' :: rest =>
      match skipWhitespace rest with
      | ']' :: _ => .error (.decode "Illegal trailing comma before end of array" (',' :: rest))
      | next => scanItems scan fuel items next
    | other => .error (.decode "Expecting ',' delimiter" other)

/-- The members of a dictionary after its `{`, from the first key on.  `fuel` bounds their
number. -/
def scanMembers (scan : Scanner Json) : ℕ → List (String × Json) → Scanner Json
  | 0, _, cs => .error (.decode "Expecting value" cs)
  | fuel + 1, fields, cs =>
    match cs with
    | '"' :: more => do
      let (key, rest) ← scanString cs [] 0 more
      match skipWhitespace rest with
      | ':' :: rest => do
        let (value, rest) ← scan (skipWhitespace rest)
        let fields := assocSet key value fields
        match skipWhitespace rest with
        | '}' :: rest => .ok (.obj fields, rest)
        | ',' :: rest =>
          match skipWhitespace rest with
          | '}' :: _ => .error (.decode "Illegal trailing comma before end of object" (',' :: rest))
          | next => scanMembers scan fuel fields next
        | other => .error (.decode "Expecting ',' delimiter" other)
      | other => .error (.decode "Expecting ':' delimiter" other)
    | _ => .error (.decode "Expecting property name enclosed in double quotes" cs)

/-- `scan_once`, with the number of nesting levels still allowed. -/
def scanOnce : ℕ → Scanner Json
  | depth, cs =>
    match cs with
    | '"' :: more => do
      let (s, rest) ← scanString cs [] 0 more
      .ok (.str s, rest)
    | '{' :: more =>
      match depth with
      | 0 => .error .recursion
      | depth + 1 =>
        match skipWhitespace more with
        | '}' :: rest => .ok (.obj [], rest)
        | next => scanMembers (scanOnce depth) (next.length + 1) [] next
    | '[' :: more =>
      match depth with
      | 0 => .error .recursion
      | depth + 1 =>
        match skipWhitespace more with
        | ']' :: rest => .ok (.arr [], rest)
        | next => scanItems (scanOnce depth) (next.length + 1) [] next
    | 'n' :: 'u' :: 'l' :: 'l' :: rest => .ok (.null, rest)
    | 't' :: 'r' :: 'u' :: 'e' :: rest => .ok (.bool true, rest)
    | 'f' :: 'a' :: 'l' :: 's' :: 'e' :: rest => .ok (.bool false, rest)
    | 'N' :: 'a' :: 'N' :: rest => .ok (.float .nan, rest)
    | 'I' :: 'n' :: 'f' :: 'i' :: 'n' :: 'i' :: 't' :: 'y' :: rest => .ok (.float .inf, rest)
    | '-' :: 'I' :: 'n' :: 'f' :: 'i' :: 'n' :: 'i' :: 't' :: 'y' :: rest =>
      .ok (.float .negInf, rest)
    | _ => matchNumber cs

/-! ### The documents -/

/-- The nesting the interpreter's C stack allows; a build constant of CPython on which nothing
below depends. -/
def recursionLimit : ℕ := 10000

/-- `JSONDecodeError(msg, doc, pos)`, with the line and column Python derives from the position. -/
def jsonDecodeError (msg : String) (doc rest : List Char) : PyException :=
  let before := doc.take (doc.length - rest.length)
  let lineno := before.count '\n' + 1
  let colno := (before.reverse.takeWhile (· ≠ '\n')).length + 1
  .jsonDecodeError msg lineno colno before.length

/-- The exception a scanner failure on `doc` raises. -/
def ScanError.toPyException (doc : List Char) : ScanError → PyException
  | .decode msg rest => jsonDecodeError msg doc rest
  | .intDigits digits => .valueError
      s!"Exceeds the limit (4300 digits) for integer string conversion: value has {digits} digits; use sys.set_int_max_str_digits() to increase the limit"
  | .recursion => .recursionError "maximum recursion depth exceeded while decoding a JSON document"

/-- `JSONDecoder.decode`: one value between white space, and nothing more. -/
def decode (doc : List Char) : Except ScanError Json := do
  let (value, rest) ← scanOnce recursionLimit (skipWhitespace doc)
  match skipWhitespace rest with
  | [] => .ok value
  | extra => .error (.decode "Extra data" extra)

/-- `json.loads`. -/
def loads (raw : String) : Except PyException Json :=
  let doc := raw.toList
  match doc with
  | '\uFEFF' :: _ => .error (jsonDecodeError "Unexpected UTF-8 BOM (decode using utf-8-sig)" doc doc)
  | _ =>
    match decode doc with
    | .ok value => .ok value
    | .error e => .error (e.toPyException doc)

/-- `json.loads` of a text given by its characters. -/
theorem loads_eq_ok_of_chars {raw : String} {doc : List Char} {value : Json}
    (hraw : raw = String.ofList doc) (hdoc : decode doc = .ok value)
    (hbom : doc.head? ≠ some '\uFEFF') : loads raw = .ok value := by
  subst hraw
  simp only [loads, String.toList_ofList]
  split
  · exact absurd rfl hbom
  · rw [hdoc]

end RoadVisionAI.Python
