import RoadVisionAI.Weighted.CappedSum
import RoadVisionAI.Weighted.Mean
import Mathlib.Data.List.Flatten

/-!
# Lists taken several times over

`copies f k l` are `k` copies of `l`, the `i`-th of them changed by `f i`.  A sum of what the
changes leave alone grows `k`-fold (`sum_copies`), a weighted mean stays (`weightedMean_copies`),
and a capped sum grows `k`-fold when the copies share no key (`cappedSum_copies`).
-/

namespace RoadVisionAI.Weighted

variable {α κ K : Type*}

/-- `k` copies of a list, the `i`-th changed by `f i`. -/
def copies (f : ℕ → α → α) (k : ℕ) (l : List α) : List α :=
  (List.range k).flatMap fun i => l.map (f i)

variable {f : ℕ → α → α} {k : ℕ} {l : List α}

theorem copies_zero : copies f 0 l = [] := rfl

theorem copies_succ : copies f (k + 1) l = copies f k l ++ l.map (f k) := by
  rw [copies, copies, List.range_succ, List.flatMap_append, List.flatMap_singleton]

theorem mem_copies {a : α} : a ∈ copies f k l ↔ ∃ i < k, ∃ b ∈ l, f i b = a := by
  simp [copies]

theorem length_copies : (copies f k l).length = k * l.length := by
  induction k with
  | zero => simp [copies_zero]
  | succ k ih => rw [copies_succ, List.length_append, ih, List.length_map, Nat.succ_mul]

theorem filter_copies {p : α → Bool} (hp : ∀ i, ∀ a ∈ l, p (f i a) = p a) :
    (copies f k l).filter p = copies f k (l.filter p) := by
  induction k with
  | zero => rfl
  | succ k ih =>
    have hlast : (l.map (f k)).filter p = (l.filter p).map (f k) := by
      rw [List.filter_map]
      congr 1
      exact List.filter_congr fun a ha => hp k a ha
    rw [copies_succ, List.filter_append, ih, hlast, copies_succ]

variable [Field K]

theorem sum_copies {g : α → K} (hg : ∀ i, ∀ a ∈ l, g (f i a) = g a) :
    ((copies f k l).map g).sum = k * (l.map g).sum := by
  induction k with
  | zero => simp [copies_zero]
  | succ k ih =>
    have hlast : ((l.map (f k)).map g).sum = (l.map g).sum := by
      rw [List.map_map]
      congr 1
      exact List.map_congr_left fun a ha => hg k a ha
    rw [copies_succ, List.map_append, List.sum_append, ih, hlast]
    push_cast
    ring

variable [LinearOrder K] [IsStrictOrderedRing K]

theorem weightedMean_copies {value weight : α → K} (hk : 1 ≤ k)
    (hvalue : ∀ i, ∀ a ∈ l, value (f i a) = value a)
    (hweight : ∀ i, ∀ a ∈ l, weight (f i a) = weight a) :
    weightedMean value weight (copies f k l) = weightedMean value weight l := by
  have hpos : (0 : K) < k := by exact_mod_cast hk
  have hterm : ∀ i, ∀ a ∈ l, value (f i a) * weight (f i a) = value a * weight a := by
    intro i a ha
    rw [hvalue i a ha, hweight i a ha]
  apply weightedMean_of_scaled hpos (sum_copies hweight) (sum_copies hterm) (sum_copies hvalue)
  rw [length_copies]
  push_cast
  ring

variable [DecidableEq κ] {cap : K} {key : α → κ} {weight : α → K} {rename : ℕ → κ → κ}

omit [IsStrictOrderedRing K] in
/-- Copies whose keys are renamed apart do not share a cap. -/
theorem cappedSum_copies (hkey : ∀ i, ∀ a ∈ l, key (f i a) = rename i (key a))
    (hweight : ∀ i, ∀ a ∈ l, weight (f i a) = weight a)
    (hapart : ∀ i < k, ∀ j < k, ∀ x ∈ keys key l, ∀ y ∈ keys key l,
      rename i x = rename j y → i = j ∧ x = y) :
    cappedSum cap key weight (copies f k l) = k * cappedSum cap key weight l := by
  induction k with
  | zero => simp [copies_zero, cappedSum, keys]
  | succ k ih =>
    have hprev := ih fun i hi j hj => hapart i (by omega) j (by omega)
    -- the last copy is a renaming of the list
    have hinj : Set.InjOn (rename k) (keys key l) := by
      intro x hx y hy hxy
      exact (hapart k (by omega) k (by omega) x hx y hy hxy).2
    have hlast : cappedSum cap key weight (l.map (f k)) = cappedSum cap key weight l :=
      cappedSum_map (hkey k) (hweight k) hinj
    -- and it has no key of the earlier ones
    have hdisjoint : Disjoint (keys key (copies f k l)) (keys key (l.map (f k))) := by
      rw [Finset.disjoint_left]
      intro x hx hx'
      obtain ⟨a, ha, rfl⟩ := mem_keys.mp hx
      obtain ⟨i, hi, b, hb, rfl⟩ := mem_copies.mp ha
      rw [keys_map (hkey k)] at hx'
      obtain ⟨y, hy, hxy⟩ := Finset.mem_image.mp hx'
      rw [hkey i b hb] at hxy
      have heq := (hapart k (by omega) i (by omega) y hy (key b) (key_mem_keys hb) hxy).1
      omega
    rw [copies_succ, cappedSum_append hdisjoint, hprev, hlast]
    push_cast
    ring

end RoadVisionAI.Weighted
