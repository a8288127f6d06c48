import RoadVisionAI.Python.Rounding

/-!
# The sum of two numbers rounded half to even

Rounding each of two numbers never takes their sum past an even integer it does not exceed: two ties
that meet at one are between numbers of different parity, so one of them goes down
(`roundHalfEven_add_le`).  A sum that exceeds it is brought back only from less than one above, by
what the two roundings drop (`roundHalfEven_add_le_iff`).
-/

namespace RoadVisionAI.Python

variable {K : Type*} [Field K] [LinearOrder K] [IsStrictOrderedRing K] [FloorRing K]

/-- Rounding half to even drops the fraction. -/
def RoundsDown (x : K) : Prop := Int.fract x < 1 / 2 ∨ Int.fract x = 1 / 2 ∧ Even ⌊x⌋

/-- What the two roundings drop makes up for what the sum is above an integer. -/
def RoundsBack (x y : K) : Prop :=
  RoundsDown x ∧ RoundsDown y ∧ 0 < Int.fract x + Int.fract y ∨
    (RoundsDown x ∨ RoundsDown y) ∧ 1 < Int.fract x + Int.fract y

omit [IsStrictOrderedRing K] in
theorem roundHalfEven_of_down {x : K} (h : RoundsDown x) : roundHalfEven x = ⌊x⌋ := by
  unfold roundHalfEven
  rcases h with hlt | ⟨htie, heven⟩
  · rw [if_pos hlt]
  · rw [if_neg htie.not_lt, if_neg htie.not_gt, if_pos heven]

omit [IsStrictOrderedRing K] in
theorem roundHalfEven_of_not_down {x : K} (h : ¬ RoundsDown x) : roundHalfEven x = ⌊x⌋ + 1 := by
  rw [RoundsDown, not_or, not_lt, not_and] at h
  unfold roundHalfEven
  rw [if_neg (not_lt.mpr h.1)]
  split_ifs with hgt heven
  · rfl
  · exact absurd heven (h.2 (le_antisymm (not_lt.mp hgt) h.1))
  · rfl

omit [IsStrictOrderedRing K] in
theorem RoundsDown.fract_le {x : K} (h : RoundsDown x) : Int.fract x ≤ 1 / 2 := by
  rcases h with hlt | ⟨htie, -⟩
  · exact hlt.le
  · exact htie.le

omit [IsStrictOrderedRing K] in
theorem le_fract_of_not_down {x : K} (h : ¬ RoundsDown x) : 1 / 2 ≤ Int.fract x := by
  rw [RoundsDown, not_or, not_lt] at h
  exact h.1

/-- The floors of two numbers that meet at an integer half-way up have different parities. -/
theorem not_both_up {x y : K} {n : ℤ} (hn : Even n) (h : x + y ≤ n) (hx : ¬ RoundsDown x)
    (hy : ¬ RoundsDown y) : ⌊x⌋ + ⌊y⌋ + 2 ≤ n := by
  have hxhalf := le_fract_of_not_down hx
  have hyhalf := le_fract_of_not_down hy
  have hxsum := Int.floor_add_fract x
  have hysum := Int.floor_add_fract y
  have hle : ((⌊x⌋ + ⌊y⌋ + 1 : ℤ) : K) ≤ n := by push_cast; linarith
  have hle' : ⌊x⌋ + ⌊y⌋ + 1 ≤ n := by exact_mod_cast hle
  by_contra hlt
  have heq : ⌊x⌋ + ⌊y⌋ + 1 = n := by omega
  have hcast : (⌊x⌋ : K) + ⌊y⌋ + 1 = n := by exact_mod_cast heq
  -- both are ties, and go up from odd numbers
  have hxtie : Int.fract x = 1 / 2 := by linarith
  have hytie : Int.fract y = 1 / 2 := by linarith
  have hxodd : ¬ Even ⌊x⌋ := fun heven => hx (Or.inr ⟨hxtie, heven⟩)
  have hyodd : ¬ Even ⌊y⌋ := fun heven => hy (Or.inr ⟨hytie, heven⟩)
  rw [Int.not_even_iff_odd] at hxodd hyodd
  have hodd : Odd n := heq ▸ (hxodd.add_odd hyodd).add_one
  exact (Int.not_even_iff_odd.mpr hodd) hn

theorem roundHalfEven_add_le {x y : K} {n : ℤ} (hn : Even n) (h : x + y ≤ n) :
    roundHalfEven x + roundHalfEven y ≤ n := by
  have hxsum := Int.floor_add_fract x
  have hysum := Int.floor_add_fract y
  have hxpos := Int.fract_nonneg x
  have hypos := Int.fract_nonneg y
  by_cases hx : RoundsDown x <;> by_cases hy : RoundsDown y
  · rw [roundHalfEven_of_down hx, roundHalfEven_of_down hy]
    have hle : ((⌊x⌋ + ⌊y⌋ : ℤ) : K) ≤ n := by push_cast; linarith
    exact_mod_cast hle
  · have hyhalf := le_fract_of_not_down hy
    rw [roundHalfEven_of_down hx, roundHalfEven_of_not_down hy]
    have hlt : ((⌊x⌋ + ⌊y⌋ : ℤ) : K) < n := by push_cast; linarith
    have hlt' : ⌊x⌋ + ⌊y⌋ < n := by exact_mod_cast hlt
    omega
  · have hxhalf := le_fract_of_not_down hx
    rw [roundHalfEven_of_not_down hx, roundHalfEven_of_down hy]
    have hlt : ((⌊x⌋ + ⌊y⌋ : ℤ) : K) < n := by push_cast; linarith
    have hlt' : ⌊x⌋ + ⌊y⌋ < n := by exact_mod_cast hlt
    omega
  · rw [roundHalfEven_of_not_down hx, roundHalfEven_of_not_down hy]
    have hle := not_both_up hn h hx hy
    omega

/-- One of the two is rounded up. -/
theorem floors_lt_iff {x y : K} {n : ℤ}
    (hfloors : ((⌊x⌋ + ⌊y⌋ : ℤ) : K) = x + y - (Int.fract x + Int.fract y)) (h : n < x + y)
    (hfracts : Int.fract x + Int.fract y < 2)
    (hone : (RoundsDown x ∨ RoundsDown y) ∧ ¬ (RoundsDown x ∧ RoundsDown y)) :
    ⌊x⌋ + ⌊y⌋ < n ↔ x + y ≤ n + 1 ∧ RoundsBack x y := by
  constructor
  · intro hlt
    have hlt' : ((⌊x⌋ + ⌊y⌋ : ℤ) : K) ≤ (n - 1 : ℤ) := by
      exact_mod_cast Int.le_sub_one_of_lt hlt
    push_cast at hlt' hfloors
    exact ⟨by linarith, Or.inr ⟨hone.1, by linarith⟩⟩
  · rintro ⟨hbound, ⟨hx, hy, -⟩ | ⟨-, hfract⟩⟩
    · exact absurd ⟨hx, hy⟩ hone.2
    · have hlt : ((⌊x⌋ + ⌊y⌋ : ℤ) : K) < n := by push_cast at hfloors ⊢; linarith
      exact_mod_cast hlt

/-- Above an integer: by the floors, whose sum is what the two fractions leave. -/
theorem roundHalfEven_add_le_iff_of_lt {x y : K} {n : ℤ} (h : n < x + y) :
    roundHalfEven x + roundHalfEven y ≤ n ↔ x + y ≤ n + 1 ∧ RoundsBack x y := by
  have hfloors : ((⌊x⌋ + ⌊y⌋ : ℤ) : K) = x + y - (Int.fract x + Int.fract y) := by
    have hxsum := Int.floor_add_fract x
    have hysum := Int.floor_add_fract y
    push_cast
    linarith
  have hxlt := Int.fract_lt_one x
  have hylt := Int.fract_lt_one y
  by_cases hx : RoundsDown x <;> by_cases hy : RoundsDown y
  · have hxhalf := hx.fract_le
    have hyhalf := hy.fract_le
    rw [roundHalfEven_of_down hx, roundHalfEven_of_down hy]
    constructor
    · intro hle
      have hle' : ((⌊x⌋ + ⌊y⌋ : ℤ) : K) ≤ n := by exact_mod_cast hle
      exact ⟨by linarith, Or.inl ⟨hx, hy, by linarith⟩⟩
    · rintro ⟨hbound, hback⟩
      have hpos : 0 < Int.fract x + Int.fract y := by
        rcases hback with ⟨-, -, hpos⟩ | ⟨-, hone⟩
        · exact hpos
        · linarith
      have hlt : ((⌊x⌋ + ⌊y⌋ : ℤ) : K) < (n + 1 : ℤ) := by push_cast at hfloors ⊢; linarith
      exact Int.lt_add_one_iff.mp (by exact_mod_cast hlt)
  · have hxhalf := hx.fract_le
    rw [roundHalfEven_of_down hx, roundHalfEven_of_not_down hy, ← add_assoc, Int.add_one_le_iff]
    exact floors_lt_iff hfloors h (by linarith) ⟨Or.inl hx, fun hboth => hy hboth.2⟩
  · have hyhalf := hy.fract_le
    rw [roundHalfEven_of_not_down hx, roundHalfEven_of_down hy, add_right_comm, Int.add_one_le_iff]
    exact floors_lt_iff hfloors h (by linarith) ⟨Or.inr hy, fun hboth => hx hboth.1⟩
  · -- no fraction is dropped, and two fractions are less than two
    rw [roundHalfEven_of_not_down hx, roundHalfEven_of_not_down hy]
    refine iff_of_false ?_ ?_
    · intro hle
      have hle' : ((⌊x⌋ + ⌊y⌋ + 2 : ℤ) : K) ≤ n := by
        have hle'' : ⌊x⌋ + ⌊y⌋ + 2 ≤ n := by omega
        exact_mod_cast hle''
      push_cast at hfloors hle'
      linarith
    · rintro ⟨-, ⟨hdown, -⟩ | ⟨hdown | hdown, -⟩⟩
      · exact hx hdown
      · exact hx hdown
      · exact hy hdown

/-- **Two numbers rounded half to even** sum to at most an even integer exactly when they did
before, or when what is dropped brings them back from at most one above. -/
theorem roundHalfEven_add_le_iff {n : ℤ} (hn : Even n) (x y : K) :
    roundHalfEven x + roundHalfEven y ≤ n ↔
      x + y ≤ n ∨ x + y ≤ n + 1 ∧ RoundsBack x y := by
  rcases le_or_gt (x + y) n with hle | hlt
  · exact iff_of_true (roundHalfEven_add_le hn hle) (Or.inl hle)
  · rw [roundHalfEven_add_le_iff_of_lt hlt, or_iff_right (not_le.mpr hlt)]

end RoadVisionAI.Python
