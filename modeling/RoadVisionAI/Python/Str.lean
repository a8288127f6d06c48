import Mathlib.Data.List.DropRight
import Mathlib.Data.List.Infix
import Mathlib.Data.Nat.Notation

/-!
# Python strings

The `str` methods in use, on lists of characters: `isspace`, `strip`, `split`, `replace`,
`partition`, `rsplit`, substring membership and the decimal value of a digit.  The tables are those
of Unicode 15.1.
-/

namespace RoadVisionAI.Python

/-- The characters `str.strip()` and `str.split()` treat as white space. -/
def isSpace (c : Char) : Bool :=
  let n := c.toNat
  (9 ≤ n && n ≤ 13) || (28 ≤ n && n ≤ 32) || n = 0x85 || n = 0xA0 || n = 0x1680 ||
    (0x2000 ≤ n && n ≤ 0x200A) || n = 0x2028 || n = 0x2029 || n = 0x202F || n = 0x205F ||
    n = 0x3000

/-- The zeros of the decimal digit blocks (category `Nd`). -/
def digitZeros : List ℕ :=
  [0x30, 0x660, 0x6F0, 0x7C0, 0x966, 0x9E6, 0xA66, 0xAE6, 0xB66, 0xBE6, 0xC66, 0xCE6, 0xD66, 0xDE6,
    0xE50, 0xED0, 0xF20, 0x1040, 0x1090, 0x17E0, 0x1810, 0x1946, 0x19D0, 0x1A80, 0x1A90, 0x1B50,
    0x1BB0, 0x1C40, 0x1C50, 0xA620, 0xA8D0, 0xA900, 0xA9D0, 0xA9F0, 0xAA50, 0xABF0, 0xFF10, 0x104A0,
    0x10D30, 0x11066, 0x110F0, 0x11136, 0x111D0, 0x112F0, 0x11450, 0x114D0, 0x11650, 0x116C0,
    0x11730, 0x118E0, 0x11950, 0x11C50, 0x11D50, 0x11DA0, 0x11F50, 0x16A60, 0x16AC0, 0x16B50,
    0x1D7CE, 0x1D7D8, 0x1D7E2, 0x1D7EC, 0x1D7F6, 0x1E140, 0x1E2F0, 0x1E4F0, 0x1E950, 0x1FBF0]

/-- `unicodedata.decimal(c)`. -/
def digitValue? (c : Char) : Option ℕ :=
  (digitZeros.find? fun z => z ≤ c.toNat && c.toNat < z + 10).map fun z => c.toNat - z

/-- `strip` on characters. -/
def stripChars (cs : List Char) : List Char := (cs.dropWhile isSpace).rdropWhile isSpace

/-- `s.strip()`. -/
def strip (s : String) : String := String.ofList (stripChars s.toList)

/-- The scan of `split`: `word` is the word under way, backwards. -/
def splitChars (word : List Char) : List Char → List (List Char)
  | [] => if word = [] then [] else [word.reverse]
  | c :: cs =>
    if isSpace c then
      if word = [] then splitChars [] cs else word.reverse :: splitChars [] cs
    else splitChars (c :: word) cs

/-- `s.split()`: the words between white space. -/
def split (s : String) : List String := (splitChars [] s.toList).map String.ofList

/-- The scan of `replace`: `skip` characters of a match are still to be dropped. -/
def replaceChars (old new : List Char) : ℕ → List Char → List Char
  | _, [] => []
  | 0, c :: cs =>
    if old.isPrefixOf (c :: cs) then new ++ replaceChars old new (old.length - 1) cs
    else c :: replaceChars old new 0 cs
  | skip + 1, _ :: cs => replaceChars old new skip cs

/-- `s.replace(old, new)` for a non-empty `old`. -/
def replace (s old new : String) : String :=
  String.ofList (replaceChars old.toList new.toList 0 s.toList)

/-- `sub in s`. -/
def hasSubstring (s sub : String) : Bool := decide (sub.toList <:+: s.toList)

/-- `s.partition(sep)` for a single character: what stands before and after the first one. -/
def partitionAt (sep : Char) (s : String) : String × String :=
  (String.ofList (s.toList.takeWhile (· ≠ sep)),
    String.ofList ((s.toList.dropWhile (· ≠ sep)).drop 1))

/-- `s.rsplit(sep, 1)[0]` for a single character: what stands before the last one. -/
def rsplitHead (sep : Char) (s : String) : String :=
  if sep ∈ s.toList then String.ofList (s.toList.rdropWhile (· ≠ sep)).dropLast else s

theorem partitionAt_append {sep : Char} {before : String} (h : sep ∉ before.toList)
    (after : String) :
    partitionAt sep (before ++ String.singleton sep ++ after) = (before, after) := by
  have hbefore : ∀ c ∈ before.toList, decide (c ≠ sep) = true := by
    intro c hc
    simpa using fun heq : c = sep => h (heq ▸ hc)
  have htake : (sep :: after.toList).takeWhile (· ≠ sep) = [] := by simp
  have hdrop : (sep :: after.toList).dropWhile (· ≠ sep) = sep :: after.toList := by simp
  rw [partitionAt, String.toList_append, String.toList_append, String.toList_singleton,
    List.append_assoc, List.singleton_append, List.takeWhile_append_of_pos hbefore,
    List.dropWhile_append_of_pos hbefore, htake, hdrop, List.append_nil, List.drop_one,
    List.tail_cons, String.ofList_toList, String.ofList_toList]

theorem rsplitHead_append {sep : Char} {after : String} (h : sep ∉ after.toList)
    (before : String) : rsplitHead sep (before ++ String.singleton sep ++ after) = before := by
  have hafter : ∀ c ∈ after.toList.reverse, decide (c ≠ sep) = true := by
    intro c hc
    simpa using fun heq : c = sep => h (heq ▸ List.mem_reverse.mp hc)
  have hstop :
      (sep :: before.toList.reverse).dropWhile (· ≠ sep) = sep :: before.toList.reverse := by
    simp
  have hdrop : (before.toList ++ [sep] ++ after.toList).rdropWhile (· ≠ sep)
      = before.toList ++ [sep] := by
    rw [List.rdropWhile, List.reverse_append, List.dropWhile_append_of_pos hafter,
      List.reverse_append, List.reverse_singleton, List.singleton_append, hstop,
      List.reverse_cons, List.reverse_reverse]
  have hmem : sep ∈ (before ++ String.singleton sep ++ after).toList := by simp
  rw [rsplitHead, if_pos hmem, String.toList_append, String.toList_append,
    String.toList_singleton, hdrop, List.dropLast_concat, String.ofList_toList]

example : strip " \t a b\n" = "a b" := by decide

example : split " \t ab\nc  " = ["ab", "c"] := by decide

example : replace "Rule {code}: {code}" "{code}" "R1" = "Rule R1: R1" := by decide

end RoadVisionAI.Python
