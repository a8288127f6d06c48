import RoadVisionAI.Db.Columns
import RoadVisionAI.Python.Equiv.Str
import RoadVisionAI.Python.Format

/-!
# Texts that every column takes

A text is free of NUL when its parts are, and the texts of numbers and of the enumerations are.
-/

namespace RoadVisionAI.Db

open Python

theorem textAccepts_of_eq_ofList {text : String} {cs : List Char} (h : text = String.ofList cs)
    (hcs : '\u0000' ∉ cs) : TextAccepts text := by
  rw [h, TextAccepts, String.toList_ofList]
  exact hcs

@[simp]
theorem textAccepts_append {s t : String} :
    TextAccepts (s ++ t) ↔ TextAccepts s ∧ TextAccepts t := by
  simp [TextAccepts, String.toList_append, not_or]

theorem textAccepts_toString_nat (n : ℕ) : TextAccepts (toString n) := notMem_toString rfl n

theorem textAccepts_toString_int : ∀ n : ℤ, TextAccepts (toString n)
  | .ofNat n => textAccepts_toString_nat n
  | .negSucc n => textAccepts_append.mpr ⟨by decide, textAccepts_toString_nat (n + 1)⟩

theorem textAccepts_fixedPoint (x : ℚ) (d : ℕ) : TextAccepts (fixedPoint x d) := by
  set digits := (toString (roundHalfEven (x * 10 ^ d)).natAbs).toList with hdigits
  set padded := List.replicate (d + 1 - digits.length) '0' ++ digits with hpadded
  have hnul : '\u0000' ∉ padded := by
    rw [hpadded, List.mem_append, not_or]
    exact ⟨fun h => absurd (List.eq_of_mem_replicate h) (by decide), notMem_toString rfl _⟩
  show '\u0000' ∉ (String.ofList _).toList
  rw [String.toList_ofList]
  simp only [← hdigits, ← hpadded, List.mem_append, not_or]
  refine ⟨⟨?_, fun h => hnul (List.mem_of_mem_take h)⟩, ?_⟩
  · split_ifs <;> decide
  · split_ifs
    · simp
    · rw [List.mem_cons, not_or]
      exact ⟨by decide, fun h => hnul (List.mem_of_mem_drop h)⟩

theorem textAccepts_strategy (strategy : MaintenanceStrategy) : TextAccepts strategy.value := by
  cases strategy <;> decide

theorem textAccepts_priority (level : PriorityLevel) : TextAccepts level.value := by
  cases level <;> decide

theorem textAccepts_severity (level : SeverityLevel) : TextAccepts level.value := by
  cases level <;> decide

end RoadVisionAI.Db
