import Mathlib.Algebra.Order.Floor.Ring
import Mathlib.Algebra.Order.Field.Basic
import Mathlib.Algebra.Ring.Int.Parity
import Mathlib.Data.Int.ConditionallyCompleteOrder
import Mathlib.Tactic.Linarith
import Mathlib.Tactic.Positivity
import Mathlib.Tactic.Ring
import Mathlib.Tactic.FieldSimp
import Mathlib.Tactic.NormNum

/-!
# Rounding to decimal places over an exact ordered field

A `NearestRounding` picks one of the integers nearest to its argument; how it breaks ties is its
own business.  That one law already makes it monotone (`NearestRounding.mono`) and the identity
on the integers (`NearestRounding.toInt_intCast`), and the same follows for rounding to `d`
decimals (`toPlaces`): monotone, the identity on the grid of multiples of `10⁻ᵈ`, idempotent,
and at most half a unit away.

The two instances are the modes in use: `halfEven` (Python's `round`) and `halfUp`
(`decimal.ROUND_HALF_UP` and the scale coercion of SQL `NUMERIC`, both half away from zero).
-/

namespace RoadVisionAI.Python

/-! The numerals in use over a field. -/

instance atLeastTwo_two : Nat.AtLeastTwo 2 := inferInstance

instance atLeastTwo_ten : Nat.AtLeastTwo 10 := inferInstance

instance atLeastTwo_hundred : Nat.AtLeastTwo 100 := inferInstance

/-- A choice of a nearest integer for every number. -/
structure NearestRounding (K : Type*) [Field K] [LinearOrder K] where
  /-- The chosen integer. -/
  toInt : K → ℤ
  /-- It is a nearest one. -/
  abs_sub_toInt_le : ∀ x, |x - toInt x| ≤ 1 / 2

namespace NearestRounding

variable {K : Type*} [Field K] [LinearOrder K] [IsStrictOrderedRing K] (r : NearestRounding K)

theorem toInt_le_add_half (x : K) : (r.toInt x : K) ≤ x + 1 / 2 := by
  have h := abs_le.mp (r.abs_sub_toInt_le x)
  linarith [h.1]

theorem sub_half_le_toInt (x : K) : x - 1 / 2 ≤ (r.toInt x : K) := by
  have h := abs_le.mp (r.abs_sub_toInt_le x)
  linarith [h.2]

/-- Rounding to a nearest integer is monotone: two values of the wrong order would be one apart,
which forces the arguments to be equal. -/
theorem mono : Monotone r.toInt := by
  intro x y hxy
  by_contra hlt
  have hstep : r.toInt y + 1 ≤ r.toInt x := by omega
  have hcast : (r.toInt y : K) + 1 ≤ r.toInt x := by exact_mod_cast hstep
  have hx := r.toInt_le_add_half x
  have hy := r.sub_half_le_toInt y
  -- the two roundings are one apart, so `x` and `y` meet half-way
  have heq : x = y := le_antisymm hxy (by linarith)
  rw [heq] at hlt
  exact hlt le_rfl

@[simp]
theorem toInt_intCast (n : ℤ) : r.toInt (n : K) = n := by
  have h1 := r.toInt_le_add_half (n : K)
  have h2 := r.sub_half_le_toInt (n : K)
  have hlt : (r.toInt (n : K) : K) < ((n + 1 : ℤ) : K) := by push_cast; linarith
  have hgt : ((n - 1 : ℤ) : K) < (r.toInt (n : K) : K) := by push_cast; linarith
  have hlt' := Int.cast_lt.mp hlt
  have hgt' := Int.cast_lt.mp hgt
  omega

/-! ### Rounding to `d` decimals -/

/-- `x` rounded to `d` decimals. -/
def toPlaces (x : K) (d : ℕ) : K := (r.toInt (x * 10 ^ d) : K) / 10 ^ d

theorem toPlaces_mono (d : ℕ) : Monotone fun x => r.toPlaces x d := by
  intro x y hxy
  have hpow : (0 : K) < 10 ^ d := by positivity
  have hmul : x * 10 ^ d ≤ y * 10 ^ d := mul_le_mul_of_nonneg_right hxy hpow.le
  have hint : (r.toInt (x * 10 ^ d) : K) ≤ r.toInt (y * 10 ^ d) := by exact_mod_cast r.mono hmul
  exact div_le_div_of_nonneg_right hint hpow.le

/-- A multiple of `10⁻ᵈ` is its own rounding. -/
theorem toPlaces_grid (m : ℤ) (d : ℕ) : r.toPlaces ((m : K) / 10 ^ d) d = m / 10 ^ d := by
  have hpow : (10 : K) ^ d ≠ 0 := by positivity
  rw [toPlaces, div_mul_cancel₀ _ hpow, toInt_intCast]

@[simp]
theorem toPlaces_toPlaces (r' : NearestRounding K) (x : K) (d : ℕ) :
    r'.toPlaces (r.toPlaces x d) d = r.toPlaces x d :=
  r'.toPlaces_grid _ d

theorem toPlaces_intCast (m : ℤ) (d : ℕ) : r.toPlaces (m : K) d = m := by
  have hpow : (10 : K) ^ d ≠ 0 := by positivity
  have hgrid := r.toPlaces_grid (m * 10 ^ d) d
  push_cast at hgrid
  rwa [mul_div_assoc, div_self hpow, mul_one] at hgrid

@[simp]
theorem toPlaces_zero (d : ℕ) : r.toPlaces (0 : K) d = 0 := by
  simpa using r.toPlaces_intCast 0 d

@[simp]
theorem toPlaces_one (d : ℕ) : r.toPlaces (1 : K) d = 1 := by
  simpa using r.toPlaces_intCast 1 d

theorem toPlaces_nonneg {x : K} (h : 0 ≤ x) (d : ℕ) : 0 ≤ r.toPlaces x d := by
  have := r.toPlaces_mono d h
  simpa using this

theorem toPlaces_le_one {x : K} (h : x ≤ 1) (d : ℕ) : r.toPlaces x d ≤ 1 := by
  have := r.toPlaces_mono d h
  simpa using this

/-- Rounding cannot pass below a grid point that the argument is above. -/
theorem le_toPlaces_of_grid_le {x : K} {m : ℤ} {d : ℕ} (h : (m : K) / 10 ^ d ≤ x) :
    (m : K) / 10 ^ d ≤ r.toPlaces x d := by
  have hmono : r.toPlaces ((m : K) / 10 ^ d) d ≤ r.toPlaces x d := r.toPlaces_mono d h
  rwa [toPlaces_grid] at hmono

/-- Rounding to `d` decimals moves a number by at most half a unit of the last place. -/
theorem abs_sub_toPlaces_le (x : K) (d : ℕ) : |x - r.toPlaces x d| ≤ 1 / 2 / 10 ^ d := by
  have hpow : (0 : K) < 10 ^ d := by positivity
  have hscale : x - r.toPlaces x d = (x * 10 ^ d - r.toInt (x * 10 ^ d)) / 10 ^ d := by
    rw [toPlaces, sub_div, mul_div_cancel_right₀ _ hpow.ne']
  rw [hscale, abs_div, abs_of_pos hpow]
  exact div_le_div_of_nonneg_right (r.abs_sub_toInt_le _) hpow.le

/-- Rounding the terms moves a sum by at most half a unit of the last place for each of them. -/
theorem abs_sum_sub_sum_toPlaces_le (l : List K) (d : ℕ) :
    |l.sum - (l.map fun x => r.toPlaces x d).sum| ≤ l.length * (1 / 2 / 10 ^ d) := by
  induction l with
  | nil => simp
  | cons x l ih =>
    have hx := r.abs_sub_toPlaces_le x d
    have hsplit : (x :: l).sum - ((x :: l).map fun x => r.toPlaces x d).sum
        = (x - r.toPlaces x d) + (l.sum - (l.map fun x => r.toPlaces x d).sum) := by
      rw [List.sum_cons, List.map_cons, List.sum_cons]
      ring
    have hlength : ((x :: l).length : K) * (1 / 2 / 10 ^ d)
        = 1 / 2 / 10 ^ d + l.length * (1 / 2 / 10 ^ d) := by
      rw [List.length_cons]
      push_cast
      ring
    rw [hsplit, hlength]
    exact (abs_add_le _ _).trans (add_le_add hx ih)

end NearestRounding

/-! ### The two tie-breaking rules -/

variable {K : Type*} [Field K] [LinearOrder K] [IsStrictOrderedRing K] [FloorRing K]

/-- The integer `round(x)` returns: nearest, ties to even. -/
def roundHalfEven (x : K) : ℤ :=
  if Int.fract x < 1 / 2 then ⌊x⌋
  else if 1 / 2 < Int.fract x then ⌊x⌋ + 1
  else if Even ⌊x⌋ then ⌊x⌋ else ⌊x⌋ + 1

/-- The integer `ROUND_HALF_UP` gives: nearest, ties away from zero. -/
def roundHalfUp (x : K) : ℤ :=
  if 0 ≤ x then ⌊x + 1 / 2⌋ else -⌊-x + 1 / 2⌋

/-- `⌊x⌋` is within a half of `x` when the fractional part is at most a half, and `⌊x⌋ + 1`
when it is at least a half. -/
theorem abs_sub_floor_le {x : K} (h : Int.fract x ≤ 1 / 2) : |x - ⌊x⌋| ≤ 1 / 2 := by
  have hself : x - ⌊x⌋ = Int.fract x := Int.self_sub_floor x
  rw [hself, abs_of_nonneg (Int.fract_nonneg x)]
  exact h

theorem abs_sub_floor_add_one_le {x : K} (h : 1 / 2 ≤ Int.fract x) :
    |x - (⌊x⌋ + 1 : ℤ)| ≤ 1 / 2 := by
  have hself : x - ⌊x⌋ = Int.fract x := Int.self_sub_floor x
  have hlt := Int.fract_lt_one x
  push_cast
  rw [abs_le]
  constructor <;> linarith

theorem abs_sub_roundHalfEven_le (x : K) : |x - roundHalfEven x| ≤ 1 / 2 := by
  unfold roundHalfEven
  split_ifs with hlt hgt heven
  · exact abs_sub_floor_le hlt.le
  · exact abs_sub_floor_add_one_le hgt.le
  · exact abs_sub_floor_le (not_lt.mp hgt)
  · exact abs_sub_floor_add_one_le (not_lt.mp hlt)

theorem abs_sub_floor_add_half_le (x : K) : |x - ⌊x + 1 / 2⌋| ≤ 1 / 2 := by
  have h1 := Int.floor_le (x + 1 / 2)
  have h2 := Int.lt_floor_add_one (x + 1 / 2)
  rw [abs_le]
  constructor <;> linarith

theorem abs_sub_roundHalfUp_le (x : K) : |x - roundHalfUp x| ≤ 1 / 2 := by
  unfold roundHalfUp
  split_ifs with h
  · exact abs_sub_floor_add_half_le x
  · have hneg := abs_sub_floor_add_half_le (-x)
    -- below zero, half up is the mirror image of half up above it
    have hsign : x - (-⌊-x + 1 / 2⌋ : ℤ) = -(-x - ⌊-x + 1 / 2⌋) := by push_cast; ring
    rw [hsign, abs_neg]
    exact hneg

/-- Python's `round`. -/
def halfEven : NearestRounding K := ⟨roundHalfEven, abs_sub_roundHalfEven_le⟩

/-- `decimal.ROUND_HALF_UP`, and the scale coercion of SQL `NUMERIC`. -/
def halfUp : NearestRounding K := ⟨roundHalfUp, abs_sub_roundHalfUp_le⟩

/-- `round(x, d)`. -/
def pyRound (x : K) (d : ℕ) : K := halfEven.toPlaces x d

/-- `Decimal(x).quantize(Decimal(10) ** -d, rounding=ROUND_HALF_UP)`. -/
def quantizeHalfUp (x : K) (d : ℕ) : K := halfUp.toPlaces x d

/-- A `NUMERIC` column of `d` decimals keeps what Python rounded to `d` decimals. -/
@[simp]
theorem quantizeHalfUp_pyRound (x : K) (d : ℕ) : quantizeHalfUp (pyRound x d) d = pyRound x d :=
  halfEven.toPlaces_toPlaces halfUp x d

@[simp]
theorem quantizeHalfUp_quantizeHalfUp (x : K) (d : ℕ) :
    quantizeHalfUp (quantizeHalfUp x d) d = quantizeHalfUp x d :=
  halfUp.toPlaces_toPlaces halfUp x d

/-- Half-up rounding reaches a positive integer exactly from half a unit below it. -/
theorem le_roundHalfUp_iff {n : ℤ} (hn : 0 < n) (x : K) :
    n ≤ roundHalfUp x ↔ (n : K) - 1 / 2 ≤ x := by
  unfold roundHalfUp
  split_ifs with h
  · rw [Int.le_floor]
    constructor <;> intro h' <;> linarith
  · -- a negative number is rounded to one that is not positive
    have hfloor : 0 ≤ ⌊-x + 1 / 2⌋ := Int.floor_nonneg.mpr (by linarith)
    have hcast : (1 : K) ≤ n := by exact_mod_cast hn
    constructor
    · intro h'; omega
    · intro h'; linarith

/-- The same at `d` decimals: quantizing reaches a positive grid point exactly from half a unit
of the last place below it. -/
theorem le_quantizeHalfUp_iff {m : ℤ} (hm : 0 < m) (x : K) (d : ℕ) :
    (m : K) / 10 ^ d ≤ quantizeHalfUp x d ↔ (m : K) / 10 ^ d - 1 / 2 / 10 ^ d ≤ x := by
  have hpow : (0 : K) < 10 ^ d := by positivity
  have hint : (m : K) / 10 ^ d ≤ quantizeHalfUp x d ↔ m ≤ roundHalfUp (x * 10 ^ d) := by
    rw [quantizeHalfUp, NearestRounding.toPlaces, div_le_div_iff_of_pos_right hpow]
    exact Int.cast_le
  rw [hint, le_roundHalfUp_iff hm, ← sub_div, div_le_iff₀ hpow]

/-- From zero on, a number is rounded to `m` units of the last place exactly when it is within half
a unit of it, the lower end included. -/
theorem quantizeHalfUp_eq_iff {m : ℤ} {x : K} (hx : 0 ≤ x) (d : ℕ) :
    quantizeHalfUp x d = m / 10 ^ d ↔
      (m : K) - 1 / 2 ≤ x * 10 ^ d ∧ x * 10 ^ d < m + 1 / 2 := by
  have hpow : (10 : K) ^ d ≠ 0 := by positivity
  have hscaled : 0 ≤ x * 10 ^ d := by positivity
  have hfloor : quantizeHalfUp x d = (⌊x * 10 ^ d + 1 / 2⌋ : K) / 10 ^ d := by
    simp only [quantizeHalfUp, NearestRounding.toPlaces, halfUp, roundHalfUp, if_pos hscaled]
  rw [hfloor, div_left_inj' hpow, Int.cast_inj, Int.floor_eq_iff]
  constructor
  · rintro ⟨hlow, hhigh⟩
    constructor <;> linarith
  · rintro ⟨hlow, hhigh⟩
    constructor <;> linarith

end RoadVisionAI.Python
