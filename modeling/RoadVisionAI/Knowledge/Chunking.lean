import RoadVisionAI.Python.Exception
import RoadVisionAI.Python.Str

/-!
# The chunker (`app/ai/rag/chunking.py`)

`chunk_pages` over Python's integers: `chunk_size` and `overlap` come unconstrained from the
settings, so the bounds of a slice may be negative and a window may be empty.  The loop runs on
fuel; a round takes `start` at least one further, so the number of words is enough.
-/

namespace RoadVisionAI.Knowledge

open Python

structure Chunk where
  text : String
  index : ℕ
  pageStart : ℕ
  pageEnd : ℕ
deriving DecidableEq, Repr

/-- The place of a slice bound in a list: counted from the end when negative, and clamped. -/
def sliceBound (length : ℕ) (bound : ℤ) : ℕ :=
  if bound < 0 then (bound + length).toNat else min bound.toNat length

/-- `xs[start:stop]`. -/
def slice {α : Type} (xs : List α) (start stop : ℤ) : List α :=
  (xs.take (sliceBound xs.length stop)).drop (sliceBound xs.length start)

/-- The words of the pages, each with the number of its page. -/
def numberedWords (pages : List String) : List (String × ℕ) :=
  (pages.zipIdx 1).flatMap fun page => (split page.1).map fun word => (word, page.2)

/-- The chunk of a window; `window[0]` raises on an empty one. -/
def chunkOf (window : List (String × ℕ)) (index : ℕ) : Except PyException Chunk :=
  match window.head?, window.getLast? with
  | some first, some last => .ok {
      text := " ".intercalate (window.map Prod.fst)
      index
      pageStart := first.2
      pageEnd := last.2 }
  | _, _ => .error (.indexError "list index out of range")

/-- The `while` loop. -/
def chunkLoop (words : List (String × ℕ)) (chunkSize overlap : ℤ) :
    ℕ → ℤ → ℕ → Except PyException (List Chunk)
  | 0, _, _ => .ok []
  | fuel + 1, start, index =>
    if start < words.length then do
      let chunk ← chunkOf (slice words start (start + chunkSize)) index
      if words.length ≤ start + chunkSize then return [chunk]
      let chunks ← chunkLoop words chunkSize overlap fuel (start + (chunkSize - overlap)) (index + 1)
      return chunk :: chunks
    else .ok []

def chunkPages (pages : List String) (chunkSize overlap : ℤ) : Except PyException (List Chunk) :=
  if chunkSize ≤ overlap then .error (.valueError "chunk_size must be greater than overlap")
  else
    let words := numberedWords pages
    chunkLoop words chunkSize overlap words.length 0 0

example : chunkPages ["a b c", "d e"] 3 1 = .ok [⟨"a b c", 0, 1, 1⟩, ⟨"c d e", 1, 1, 2⟩] := by
  decide

end RoadVisionAI.Knowledge
