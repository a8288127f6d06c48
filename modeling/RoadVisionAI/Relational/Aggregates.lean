import Mathlib.Algebra.BigOperators.Group.List.Lemmas
import Mathlib.Algebra.Field.Defs
import Mathlib.Algebra.Ring.Nat
import Mathlib.Data.Finset.Card

/-!
# SQL aggregates

`count(*) … GROUP BY`, `count(DISTINCT …)` and `avg` of a column, as a list in the order the query
happens to read it.  None depends on that order, except that groups may come out in another one.

* `sum_groupCount`: the groups have as many rows as the column.
* `groupCount_perm_iff`: the groups determine how often each value occurs.
* `countDistinct_append`: what a second column adds.
-/

namespace RoadVisionAI.Relational

section Groups

variable {κ : Type*} [DecidableEq κ]

/-- `SELECT k, count(*) … GROUP BY k`. -/
def groupCount (l : List κ) : List (κ × ℕ) := l.dedup.map fun k => (k, l.count k)

/-- `count(DISTINCT k)`. -/
def countDistinct (l : List κ) : ℕ := l.dedup.length

theorem sum_groupCount (l : List κ) : ((groupCount l).map Prod.snd).sum = l.length := by
  have hcounts : (groupCount l).map Prod.snd = l.dedup.map fun k => l.count k := by
    rw [groupCount, List.map_map]
    rfl
  rw [hcounts, List.sum_map_count_dedup_eq_length]

theorem mem_groupCount_iff {l : List κ} {k : κ} {n : ℕ} :
    (k, n) ∈ groupCount l ↔ k ∈ l ∧ l.count k = n := by
  simp only [groupCount, List.mem_map, List.mem_dedup, Prod.mk.injEq]
  constructor
  · rintro ⟨k', hk', rfl, hn⟩
    exact ⟨hk', hn⟩
  · rintro ⟨hk, hn⟩
    exact ⟨k, hk, rfl, hn⟩

/-- The groups determine the column, up to its order. -/
theorem groupCount_perm_iff {l l' : List κ} :
    (groupCount l).Perm (groupCount l') ↔ l.Perm l' := by
  constructor
  · intro h
    -- a value of one column has the count of its group in the other
    have hcount : ∀ {m m' : List κ}, (groupCount m).Perm (groupCount m') → ∀ k ∈ m,
        m'.count k = m.count k := by
      intro m m' hm k hk
      have hgroup : (k, m.count k) ∈ groupCount m := mem_groupCount_iff.mpr ⟨hk, rfl⟩
      exact (mem_groupCount_iff.mp (hm.mem_iff.mp hgroup)).2
    rw [List.perm_iff_count]
    intro k
    by_cases hk : k ∈ l
    · exact (hcount h k hk).symm
    · by_cases hk' : k ∈ l'
      · exact hcount h.symm k hk'
      · rw [List.count_eq_zero_of_not_mem hk, List.count_eq_zero_of_not_mem hk']
  · intro h
    have hgroup : (fun k => (k, l.count k)) = fun k => (k, l'.count k) := by
      funext k
      rw [h.count_eq]
    rw [groupCount, groupCount, hgroup]
    exact h.dedup.map _

theorem countDistinct_perm {l l' : List κ} (h : l.Perm l') :
    countDistinct l = countDistinct l' :=
  h.dedup.length_eq

/-- A second column adds the values that are not in the first. -/
theorem countDistinct_append (l l' : List κ) :
    countDistinct (l ++ l') = countDistinct l + countDistinct (l'.filter (· ∉ l)) := by
  have hcard : ∀ m : List κ, countDistinct m = m.toFinset.card := fun m =>
    (List.card_toFinset m).symm
  have hunion : (l ++ l').toFinset = l.toFinset ∪ (l'.filter (· ∉ l)).toFinset := by
    ext k
    simp only [List.mem_toFinset, List.mem_append, Finset.mem_union, List.mem_filter,
      decide_eq_true_eq]
    tauto
  have hdisjoint : Disjoint l.toFinset (l'.filter (· ∉ l)).toFinset := by
    rw [Finset.disjoint_left]
    intro k hk hk'
    rw [List.mem_toFinset, List.mem_filter, decide_eq_true_eq] at hk'
    exact hk'.2 (List.mem_toFinset.mp hk)
  rw [hcard, hcard, hcard, hunion, Finset.card_union_of_disjoint hdisjoint]

end Groups

section Means

variable {K : Type*} [Field K]

/-- `avg(x)`, without the scale of the quotient. -/
def avg (l : List K) : Option K := if l.isEmpty then none else some (l.sum / l.length)

theorem avg_perm {l l' : List K} (h : l.Perm l') : avg l = avg l' := by
  rw [avg, avg, h.isEmpty_eq, h.sum_eq, h.length_eq]

end Means

end RoadVisionAI.Relational
