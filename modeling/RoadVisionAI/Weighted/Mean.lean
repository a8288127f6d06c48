import Mathlib.Algebra.BigOperators.Ring.List
import Mathlib.Algebra.Order.BigOperators.Group.List
import Mathlib.Algebra.Order.Field.Basic
import Mathlib.Tactic.Linarith

/-!
# Weighted means

`weightedMean` is the mean of the values of a list, each counted with its weight; where the weights
add up to nothing it is the plain mean.  With non-negative weights it is a mean in every sense used
here: it lies between bounds on the values (`weightedMean_nonneg`, `weightedMean_le`), it grows
with them (`weightedMean_mono`), multiplied by the total weight it is the weighted sum
(`weightedMean_mul_sum`, with no case for weight zero), and repeating the list leaves it alone
(`weightedMean_of_scaled`).
-/

namespace RoadVisionAI.Weighted

variable {α β K : Type*} [Field K] [LinearOrder K]

/-- The mean of the values by weight; the plain mean when the weights add up to nothing. -/
def weightedMean (value weight : α → K) (l : List α) : K :=
  if 0 < (l.map weight).sum then
    (l.map fun a => value a * weight a).sum / (l.map weight).sum
  else
    (l.map value).sum / l.length

variable {value weight : α → K} {value' weight' : β → K} {l : List α} {l' : List β}
variable [IsStrictOrderedRing K]

theorem sum_map_nonneg {f : α → K} (h : ∀ a ∈ l, 0 ≤ f a) : 0 ≤ (l.map f).sum := by
  apply List.sum_nonneg
  intro x hx
  obtain ⟨a, ha, rfl⟩ := List.mem_map.mp hx
  exact h a ha

/-- Non-negative weights that add up to nothing are nothing. -/
theorem weight_eq_zero (hw : ∀ a ∈ l, 0 ≤ weight a) (h : (l.map weight).sum ≤ 0) :
    ∀ a ∈ l, weight a = 0 := by
  intro a ha
  apply le_antisymm _ (hw a ha)
  calc weight a
      ≤ (l.map weight).sum := List.single_le_sum (by simpa using hw) _ (List.mem_map_of_mem ha)
    _ ≤ 0 := h

theorem weightedMean_mul_sum (hw : ∀ a ∈ l, 0 ≤ weight a) :
    weightedMean value weight l * (l.map weight).sum
      = (l.map fun a => value a * weight a).sum := by
  unfold weightedMean
  split_ifs with h
  · exact div_mul_cancel₀ _ h.ne'
  · -- no weight at all, so no term on either side
    have hzero := weight_eq_zero hw (not_lt.mp h)
    have hsum : (l.map weight).sum = 0 := by
      rw [List.map_congr_left hzero]
      simp
    have hterms : (l.map fun a => value a * weight a).sum = 0 := by
      rw [List.map_congr_left fun a ha => by rw [hzero a ha, mul_zero]]
      simp
    rw [hsum, hterms, mul_zero]

theorem weightedMean_nonneg (hw : ∀ a ∈ l, 0 ≤ weight a) (hv : ∀ a ∈ l, 0 ≤ value a) :
    0 ≤ weightedMean value weight l := by
  unfold weightedMean
  split_ifs with h
  · exact div_nonneg (sum_map_nonneg fun a ha => mul_nonneg (hv a ha) (hw a ha)) h.le
  · exact div_nonneg (sum_map_nonneg hv) (Nat.cast_nonneg _)

theorem weightedMean_le {c : K} (hc : 0 ≤ c) (hw : ∀ a ∈ l, 0 ≤ weight a)
    (hv : ∀ a ∈ l, value a ≤ c) : weightedMean value weight l ≤ c := by
  unfold weightedMean
  split_ifs with h
  · rw [div_le_iff₀ h, ← List.sum_map_mul_left]
    exact List.sum_le_sum fun a ha => mul_le_mul_of_nonneg_right (hv a ha) (hw a ha)
  · have hsum : (l.map value).sum ≤ l.length * c := by
      have := List.sum_le_card_nsmul (l.map value) c (by simpa using hv)
      rwa [List.length_map, nsmul_eq_mul] at this
    exact div_le_of_le_mul₀ (Nat.cast_nonneg _) hc (by linarith)

/-! ### Two lists -/

theorem sum_map_le_sum_map {f : α → K} {g : β → K} (h : List.Forall₂ (fun a b => f a ≤ g b) l l') :
    (l.map f).sum ≤ (l'.map g).sum := by
  induction h with
  | nil => simp
  | cons hab _ ih => simpa using add_le_add hab ih

/-- Larger values under the same weights have a larger mean. -/
theorem weightedMean_mono (hw : ∀ a ∈ l, 0 ≤ weight a)
    (h : List.Forall₂ (fun a b => weight a = weight' b ∧ value a ≤ value' b) l l') :
    weightedMean value weight l ≤ weightedMean value' weight' l' := by
  have hweights : l.map weight = l'.map weight' := by
    clear hw
    induction h with
    | nil => rfl
    | cons hab _ ih => rw [List.map_cons, List.map_cons, hab.1, ih]
  have hvalues : (l.map value).sum ≤ (l'.map value').sum :=
    sum_map_le_sum_map (h.imp fun _ _ h => h.2)
  have hterms : (l.map fun a => value a * weight a).sum
      ≤ (l'.map fun b => value' b * weight' b).sum := by
    clear hweights hvalues
    induction h with
    | nil => simp
    | @cons a b l l' hab _ ih =>
      have hhead : value a * weight a ≤ value' b * weight' b := by
        rw [← hab.1]
        exact mul_le_mul_of_nonneg_right hab.2 (hw a List.mem_cons_self)
      simpa using add_le_add hhead (ih fun x hx => hw x (List.mem_cons_of_mem _ hx))
  unfold weightedMean
  rw [← hweights, ← h.length_eq]
  split_ifs with hpos
  · exact div_le_div_of_nonneg_right hterms hpos.le
  · exact div_le_div_of_nonneg_right hvalues (Nat.cast_nonneg _)

/-- A list in which everything occurs `k` times as often has the same mean. -/
theorem weightedMean_of_scaled {k : K} (hk : 0 < k)
    (hweights : (l'.map weight').sum = k * (l.map weight).sum)
    (hterms : (l'.map fun b => value' b * weight' b).sum
      = k * (l.map fun a => value a * weight a).sum)
    (hvalues : (l'.map value').sum = k * (l.map value).sum)
    (hlength : (l'.length : K) = k * l.length) :
    weightedMean value' weight' l' = weightedMean value weight l := by
  have hpos : 0 < k * (l.map weight).sum ↔ 0 < (l.map weight).sum := mul_pos_iff_of_pos_left hk
  unfold weightedMean
  simp only [hweights, hterms, hvalues, hlength, hpos, mul_div_mul_left _ _ hk.ne']

end RoadVisionAI.Weighted
