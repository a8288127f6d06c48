import RoadVisionAI.Knowledge.Chunking
import Mathlib.Data.List.Range

/-!
# The loop of the chunker

* `chunkLoop_fuel`: the number of words is fuel enough.
* `index_chunkPages`: `chunk_pages` numbers its chunks from zero, without gaps.
-/

namespace RoadVisionAI.Knowledge

open Python

/-- One more round is not needed once the fuel covers the words from `start` on.  By induction on
the fuel; a round that goes on takes `start` at least one further. -/
theorem chunkLoop_fuel {words : List (String × ℕ)} {chunkSize overlap start : ℤ} {fuel : ℕ}
    (hstep : overlap < chunkSize) (hfuel : (words.length : ℤ) ≤ start + fuel) (index : ℕ) :
    chunkLoop words chunkSize overlap (fuel + 1) start index
      = chunkLoop words chunkSize overlap fuel start index := by
  induction fuel generalizing start index with
  | zero =>
    have hend : ¬ start < words.length := by omega
    unfold chunkLoop
    rw [if_neg hend]
  | succ fuel ih =>
    have hnext : (words.length : ℤ) ≤ start + (chunkSize - overlap) + fuel := by omega
    unfold chunkLoop
    simp only [ih hnext]

theorem index_chunkOf {window : List (String × ℕ)} {index : ℕ} {chunk : Chunk}
    (h : chunkOf window index = .ok chunk) : chunk.index = index := by
  unfold chunkOf at h
  split at h
  · obtain rfl := Except.ok.inj h
    rfl
  · cases h

/-- By induction on the rounds of the loop. -/
theorem index_chunkLoop {words : List (String × ℕ)} {chunkSize overlap start : ℤ} {fuel index : ℕ}
    {chunks : List Chunk} (h : chunkLoop words chunkSize overlap fuel start index = .ok chunks) :
    chunks.map Chunk.index = List.range' index chunks.length := by
  induction fuel generalizing start index chunks with
  | zero =>
    obtain rfl := Except.ok.inj h
    rfl
  | succ fuel ih =>
    unfold chunkLoop at h
    split_ifs at h with hstart hlast
    · obtain ⟨chunk, hchunk, h⟩ := bind_eq_ok_iff.mp h
      obtain rfl := Except.ok.inj h
      simp [index_chunkOf hchunk]
    · obtain ⟨chunk, hchunk, h⟩ := bind_eq_ok_iff.mp h
      obtain ⟨rest, hrest, h⟩ := bind_eq_ok_iff.mp h
      obtain rfl := Except.ok.inj h
      rw [List.map_cons, List.length_cons, List.range'_succ, index_chunkOf hchunk, ih hrest]
    · obtain rfl := Except.ok.inj h
      rfl

theorem index_chunkPages {pages : List String} {chunkSize overlap : ℤ} {chunks : List Chunk}
    (h : chunkPages pages chunkSize overlap = .ok chunks) :
    chunks.map Chunk.index = List.range' 0 chunks.length := by
  unfold chunkPages at h
  split_ifs at h
  exact index_chunkLoop h

end RoadVisionAI.Knowledge
