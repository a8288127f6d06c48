import RoadVisionAI.Python.Exception
import RoadVisionAI.Python.Str
import Mathlib.Data.Rat.Floor
import RoadVisionAI.Python.Rounding

/-!
# `str.format` and fixed-point formatting

`strFormat` is the markup scanner of `str.format` for keyword arguments: literal text, doubled
braces, and replacement fields `{name}`.  What a field may add to the name (attribute and item
access, a conversion, a format specification) is left to the argument's own protocol, the
parameter `fieldFormat`; a bare `{name}` is `str` of the argument.  Positional and automatic
fields raise `IndexError`, unknown names `KeyError`, malformed markup and an index no machine word
holds `ValueError`.
-/

namespace RoadVisionAI.Python

/-- A keyword argument of `format`. -/
inductive FormatArg where
  | str (s : String)
  | int (n : ℤ)
deriving DecidableEq, Repr

/-- `str(arg)`. -/
def FormatArg.text : FormatArg → String
  | .str s => s
  | .int n => toString n

/-- A replacement field: the argument's name, the accessors after it, the conversion letter and
the format specification. -/
structure FormatField where
  name : List Char
  accessors : List Char
  conversion : Option Char
  spec : List Char
deriving DecidableEq

/-- The formatting of a field that is more than a bare name, by the argument's own protocol. -/
abbrev FieldFormat := FormatArg → FormatField → Except PyException String

/-- The field name up to its terminator `}`, `:` or `!`; brackets hide terminators.  Returns the
name, the terminator and the rest. -/
def scanFieldName (acc : List Char) (inBrackets : Bool) :
    List Char → Except PyException (List Char × Char × List Char)
  | [] => .error (.valueError "expected '\x7d' before end of string")
  | c :: cs =>
    if inBrackets then scanFieldName (c :: acc) (c ≠ ']') cs
    else if c = '{' then .error (.valueError "unexpected '\x7b' in field name")
    else if c = '[' then scanFieldName (c :: acc) true cs
    else if c = '}' ∨ c = ':' ∨ c = '!' then .ok (acc.reverse, c, cs)
    else scanFieldName (c :: acc) false cs

/-- The format specification up to the brace that closes the field. -/
def scanFormatSpec (acc : List Char) (depth : ℕ) :
    List Char → Except PyException (List Char × List Char)
  | [] => .error (.valueError "unmatched '\x7b' in format spec")
  | c :: cs =>
    if c = '{' then scanFormatSpec (c :: acc) (depth + 1) cs
    else if c = '}' then
      match depth with
      | 0 => .ok (acc.reverse, cs)
      | depth + 1 => scanFormatSpec (c :: acc) depth cs
    else scanFormatSpec (c :: acc) depth cs

/-- `parse_field`: the field after its opening brace, and the text after its closing one. -/
def scanField (cs : List Char) : Except PyException (FormatField × List Char) := do
  let (full, terminator, rest) ← scanFieldName [] false cs
  let name := full.takeWhile fun c => c ≠ '.' ∧ c ≠ '['
  let accessors := full.drop name.length
  if terminator = '}' then return (⟨name, accessors, none, []⟩, rest)
  else if terminator = ':' then
    let (spec, rest) ← scanFormatSpec [] 0 rest
    return (⟨name, accessors, none, spec⟩, rest)
  else
    match rest with
    | [] => .error (.valueError "end of string while looking for conversion specifier")
    | [_] => .error (.valueError "unmatched '\x7b' in format spec")
    | conversion :: '}' :: rest => return (⟨name, accessors, some conversion, []⟩, rest)
    | conversion :: ':' :: rest => do
      let (spec, rest) ← scanFormatSpec [] 0 rest
      return (⟨name, accessors, some conversion, spec⟩, rest)
    | _ => .error (.valueError "expected ':' after conversion specifier")

/-- `sys.maxsize`. -/
def maxsize : ℕ := 2 ^ 63 - 1

/-- `get_integer`: the index a field name spells, digit by digit; `none` from the first character
on that is no digit.  An empty name is numbered automatically, from 0 on. -/
def getInteger (accumulator : ℕ) : List Char → Except PyException (Option ℕ)
  | [] => .ok (some accumulator)
  | c :: cs =>
    match digitValue? c with
    | none => .ok none
    | some digit =>
      if maxsize < accumulator * 10 + digit then
        .error (.valueError "Too many decimal digits in format string")
      else getInteger (accumulator * 10 + digit) cs

/-- `output_markup`: look the argument up and format it.  There are no positional arguments. -/
def formatField (fieldFormat : FieldFormat) (args : List (String × FormatArg))
    (field : FormatField) : Except PyException String := do
  match ← getInteger 0 field.name with
  | some index =>
    .error (.indexError s!"Replacement index {index} out of range for positional args tuple")
  | none =>
    match args.lookup (String.ofList field.name) with
    | none => .error (.keyError (String.ofList field.name))
    | some arg =>
      if field.accessors.isEmpty ∧ field.conversion = none ∧ field.spec.isEmpty then .ok arg.text
      else fieldFormat arg field

/-- The scan of a template.  `fuel` bounds the pieces; every piece takes a character. -/
def formatChars (fieldFormat : FieldFormat) (args : List (String × FormatArg)) :
    ℕ → List Char → Except PyException (List Char)
  | _, [] => .ok []
  | 0, _ => .ok []
  | fuel + 1, c :: cs =>
    if c = '{' then
      match cs with
      | [] => .error (.valueError "Single '\x7b' encountered in format string")
      | '{' :: cs => do return '{' :: (← formatChars fieldFormat args fuel cs)
      | _ => do
        let (field, rest) ← scanField cs
        let text ← formatField fieldFormat args field
        return text.toList ++ (← formatChars fieldFormat args fuel rest)
    else if c = '}' then
      match cs with
      | '}' :: cs => do return '}' :: (← formatChars fieldFormat args fuel cs)
      | _ => .error (.valueError "Single '\x7d' encountered in format string")
    else do return c :: (← formatChars fieldFormat args fuel cs)

/-- `template.format(**args)`. -/
def strFormat (fieldFormat : FieldFormat) (args : List (String × FormatArg)) (template : String) :
    Except PyException String := do
  return String.ofList (← formatChars fieldFormat args template.length template.toList)

/-- `f"{x:.{d}f}"`: rounded half to even on the exact value. -/
def fixedPoint (x : ℚ) (d : ℕ) : String :=
  let n := roundHalfEven (x * 10 ^ d)
  let digits := (toString n.natAbs).toList
  let padded := List.replicate (d + 1 - digits.length) '0' ++ digits
  let whole := padded.take (padded.length - d)
  let fraction := padded.drop (padded.length - d)
  let sign := if x < 0 then ['-'] else []
  String.ofList (sign ++ whole ++ (if d = 0 then [] else '.' :: fraction))

end RoadVisionAI.Python
