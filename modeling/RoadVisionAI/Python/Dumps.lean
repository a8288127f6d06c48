import RoadVisionAI.Python.Json

/-!
# `json.dumps(…, indent=2)`

The encoder, as far as it is used: strings, in the ASCII form, and objects, one member a line.
`loadBytes` is `json.loads` of the UTF-8 bytes such a text is stored as.
-/

namespace RoadVisionAI.Python

/-- The lower-case hexadecimal digit of `n < 16`. -/
def hexDigit (n : ℕ) : Char := Char.ofNat (if n < 10 then 48 + n else 87 + n)

/-- `'\\u{0:04x}'.format(n)`. -/
def unicodeText (n : ℕ) : List Char :=
  ['\\', 'u', hexDigit (n / 4096 % 16), hexDigit (n / 256 % 16), hexDigit (n / 16 % 16),
    hexDigit (n % 16)]

/-- The escape of a character: `ESCAPE_DCT`, or `\\uXXXX`, twice for a surrogate pair. -/
def escapeChar (c : Char) : List Char :=
  match c with
  | '\\' => ['\\', '\\']
  | '"' => ['\\', '"']
  | '\u0008' => ['\\', 'b']
  | '\u000C' => ['\\', 'f']
  | '\n' => ['\\', 'n']
  | '\r' => ['\\', 'r']
  | '\t' => ['\\', 't']
  | c =>
    let n := c.toNat
    if 0x20 ≤ n ∧ n ≤ 0x7E then [c]
    else if n < 0x10000 then unicodeText n
    else unicodeText (0xD800 + (n - 0x10000) / 0x400) ++
      unicodeText (0xDC00 + (n - 0x10000) % 0x400)

/-- `py_encode_basestring_ascii`. -/
def dumpsString (s : String) : List Char := '"' :: s.toList.flatMap escapeChar ++ ['"']

/-- `newline_indent`. -/
def newlineIndent (level : ℕ) : List Char := '\n' :: List.replicate (2 * level) ' '

/-- A member of an object, its value encoded. -/
def dumpsMember (member : String × List Char) : List Char :=
  dumpsString member.1 ++ ':' :: ' ' :: member.2

/-- `_iterencode_dict`: the members, their values encoded, at a level of indentation. -/
def dumpsObject (level : ℕ) : List (String × List Char) → List Char
  | [] => ['{', '}']
  | member :: members =>
    '{' :: newlineIndent (level + 1) ++ dumpsMember member ++
      members.flatMap (fun member => ',' :: newlineIndent (level + 1) ++ dumpsMember member) ++
      newlineIndent level ++ ['}']

/-- `json.loads` of bytes.  Of the encodings `json.loads` detects this is UTF-8. -/
def loadBytes (raw : ByteArray) : Except PyException Json :=
  match String.fromUTF8? raw with
  | some text => loads text
  | none => .error (.other "UnicodeDecodeError" "invalid utf-8")

example : dumpsString "é\n" = ['"', '\\', 'u', '0', '0', 'e', '9', '\\', 'n', '"'] := by decide

end RoadVisionAI.Python
