import Mathlib.Data.Nat.Notation
import Mathlib.Logic.Basic

/-!
# What is stored, and who owns it

A store of named things beside a system that refers to them by name: nothing in the store says who
refers to it, and a thing nobody refers to stays where it is.  An owner takes a new thing (`take`),
passes all it owns to another (`pass`), or goes away (`drop`).

Under all three a thing that is owned is stored, and has one owner (`Sole`).  Whether every thing
has an owner (`Covered`) is kept by the first two, and by the third exactly when the owner that goes
owned nothing: `covered_take_iff`, `covered_pass_iff`, `covered_drop_iff`.
-/

namespace RoadVisionAI.Transition

variable {ν ο : Type*}

/-- The names in use, and who owns them. -/
@[ext]
structure Holdings (ν ο : Type*) where
  stored : ν → Prop
  owns : ο → ν → Prop

namespace Holdings

/-- What is owned is stored, and has one owner. -/
structure Sole (h : Holdings ν ο) : Prop where
  stored : ∀ o n, h.owns o n → h.stored n
  unique : ∀ o o' n, h.owns o n → h.owns o' n → o = o'

/-- What is stored is owned. -/
def Covered (h : Holdings ν ο) : Prop := ∀ n, h.stored n → ∃ o, h.owns o n

/-- The owner `o` takes the new thing `n`. -/
def take (h : Holdings ν ο) (o : ο) (n : ν) : Holdings ν ο where
  stored m := h.stored m ∨ m = n
  owns x m := h.owns x m ∨ x = o ∧ m = n

/-- The owner `o` passes what it owns to `o'`. -/
def pass (h : Holdings ν ο) (o o' : ο) : Holdings ν ο where
  stored := h.stored
  owns x m := x ≠ o ∧ h.owns x m ∨ x = o' ∧ h.owns o m

/-- The owner `o` goes away. -/
def drop (h : Holdings ν ο) (o : ο) : Holdings ν ο where
  stored := h.stored
  owns x m := x ≠ o ∧ h.owns x m

variable {h : Holdings ν ο} {o o' : ο} {n : ν}

theorem Sole.take (hs : h.Sole) (hn : ¬ h.stored n) : (h.take o n).Sole where
  stored x m := by
    rintro (hx | ⟨-, rfl⟩)
    · exact Or.inl (hs.stored x m hx)
    · exact Or.inr rfl
  unique x x' m := by
    rintro (hx | ⟨rfl, rfl⟩) (hx' | ⟨rfl, hm⟩)
    · exact hs.unique x x' m hx hx'
    · exact absurd (hs.stored x m hx) (hm ▸ hn)
    · exact absurd (hs.stored x' m hx') hn
    · rfl

theorem Sole.pass (hs : h.Sole) : (h.pass o o').Sole where
  stored x m := by
    rintro (⟨-, hx⟩ | ⟨-, hm⟩)
    · exact hs.stored x m hx
    · exact hs.stored o m hm
  unique x x' m := by
    rintro (⟨hxo, hx⟩ | ⟨rfl, hm⟩) (⟨hxo', hx'⟩ | ⟨rfl, hm'⟩)
    · exact hs.unique x x' m hx hx'
    · exact absurd (hs.unique x o m hx hm') hxo
    · exact absurd (hs.unique x' o m hx' hm) hxo'
    · rfl

theorem Sole.drop (hs : h.Sole) : (h.drop o).Sole where
  stored x m hx := hs.stored x m hx.2
  unique x x' m hx hx' := hs.unique x x' m hx.2 hx'.2

theorem covered_take_iff (hn : ¬ h.stored n) : (h.take o n).Covered ↔ h.Covered := by
  constructor
  · intro hcovered m hm
    obtain ⟨x, hx | ⟨-, rfl⟩⟩ := hcovered m (Or.inl hm)
    · exact ⟨x, hx⟩
    · exact absurd hm hn
  · rintro hcovered m (hm | rfl)
    · obtain ⟨x, hx⟩ := hcovered m hm
      exact ⟨x, Or.inl hx⟩
    · exact ⟨o, Or.inr ⟨rfl, rfl⟩⟩

theorem covered_pass_iff : (h.pass o o').Covered ↔ h.Covered := by
  constructor
  · intro hcovered m hm
    obtain ⟨x, ⟨-, hx⟩ | ⟨-, hx⟩⟩ := hcovered m hm
    · exact ⟨x, hx⟩
    · exact ⟨o, hx⟩
  · intro hcovered m hm
    obtain ⟨x, hx⟩ := hcovered m hm
    by_cases hxo : x = o
    · exact ⟨o', Or.inr ⟨rfl, hxo ▸ hx⟩⟩
    · exact ⟨x, Or.inl ⟨hxo, hx⟩⟩

/-- What the owner owned is stored for good, with no owner. -/
theorem covered_drop_iff (hs : h.Sole) :
    (h.drop o).Covered ↔ h.Covered ∧ ∀ m, ¬ h.owns o m := by
  constructor
  · refine fun hcovered => ⟨fun m hm => ?_, fun m hm => ?_⟩
    · obtain ⟨x, -, hx⟩ := hcovered m hm
      exact ⟨x, hx⟩
    · obtain ⟨x, hxo, hx⟩ := hcovered m (hs.stored o m hm)
      exact hxo (hs.unique x o m hx hm)
  · rintro ⟨hcovered, hnone⟩ m hm
    obtain ⟨x, hx⟩ := hcovered m hm
    refine ⟨x, ?_, hx⟩
    rintro rfl
    exact hnone m hx

end Holdings

end RoadVisionAI.Transition
