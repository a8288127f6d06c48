import Mathlib.Algebra.BigOperators.Group.Finset.Piecewise
import Mathlib.Algebra.Order.BigOperators.Group.Finset
import Mathlib.Algebra.Order.BigOperators.Group.List
import Mathlib.Algebra.Order.Field.Basic
import Mathlib.Algebra.Order.Ring.Cast
import Mathlib.Tactic.Ring

/-!
# Sums that saturate by group

Each element of a list has a key and a weight.  `groupSum` adds up the weights of one key,
`cappedSum` adds up the groups, each cut off at `cap`.  Non-negative weights are assumed where a
bound needs them.

* between nothing and everything: `cappedSum_nonneg`, `cappedSum_le_card`, `cappedSum_le_sum`, and
  `cappedSum_eq_sum` when no group passes the cap;
* growth by one element: `cappedSum_append_singleton`;
* names do not matter, only which elements share one: `cappedSum_map`, and lists without a common
  key add up (`cappedSum_append`).
-/

namespace RoadVisionAI.Weighted

variable {α β κ ι K : Type*} [DecidableEq κ] [DecidableEq ι]
variable [Field K] [LinearOrder K]

/-- The keys of a list. -/
def keys (key : α → κ) (l : List α) : Finset κ := (l.map key).toFinset

/-- The summed weight of the elements of one key. -/
def groupSum (key : α → κ) (weight : α → K) (l : List α) (k : κ) : K :=
  ((l.filter fun a => key a = k).map weight).sum

/-- The sum over the groups, each capped. -/
def cappedSum (cap : K) (key : α → κ) (weight : α → K) (l : List α) : K :=
  ∑ k ∈ keys key l, min cap (groupSum key weight l k)

variable {cap : K} {key : α → κ} {weight : α → K} {l l₁ l₂ : List α}

/-! ### Keys and groups -/

theorem mem_keys {k : κ} : k ∈ keys key l ↔ ∃ a ∈ l, key a = k := by
  simp [keys]

theorem key_mem_keys {a : α} (ha : a ∈ l) : key a ∈ keys key l := mem_keys.mpr ⟨a, ha, rfl⟩

theorem keys_append : keys key (l₁ ++ l₂) = keys key l₁ ∪ keys key l₂ := by
  simp [keys]

omit [LinearOrder K] in
@[simp]
theorem groupSum_nil (k : κ) : groupSum key weight [] k = 0 := by simp [groupSum]

omit [LinearOrder K] in
theorem groupSum_cons (a : α) (k : κ) :
    groupSum key weight (a :: l) k
      = (if key a = k then weight a else 0) + groupSum key weight l k := by
  unfold groupSum
  split_ifs with h
  · rw [List.filter_cons_of_pos (by simpa using h), List.map_cons, List.sum_cons]
  · rw [List.filter_cons_of_neg (by simpa using h), zero_add]

omit [LinearOrder K] in
theorem groupSum_append (k : κ) :
    groupSum key weight (l₁ ++ l₂) k = groupSum key weight l₁ k + groupSum key weight l₂ k := by
  rw [groupSum, List.filter_append, List.map_append, List.sum_append, groupSum, groupSum]

omit [LinearOrder K] in
theorem groupSum_of_not_mem {k : κ} (h : k ∉ keys key l) : groupSum key weight l k = 0 := by
  have hnone : l.filter (fun a => key a = k) = [] := by
    rw [List.filter_eq_nil_iff]
    intro a ha hk
    exact h (mem_keys.mpr ⟨a, ha, of_decide_eq_true hk⟩)
  rw [groupSum, hnone]
  rfl

omit [LinearOrder K] in
/-- The groups make up the whole. -/
theorem sum_groupSum {s : Finset κ} (hs : keys key l ⊆ s) :
    ∑ k ∈ s, groupSum key weight l k = (l.map weight).sum := by
  induction l with
  | nil => simp
  | cons a l ih =>
    have ha : key a ∈ s := hs (key_mem_keys List.mem_cons_self)
    have hl : keys key l ⊆ s := by
      intro k hk
      obtain ⟨b, hb, rfl⟩ := mem_keys.mp hk
      exact hs (key_mem_keys (List.mem_cons_of_mem _ hb))
    simp only [groupSum_cons, Finset.sum_add_distrib, ih hl, List.map_cons, List.sum_cons]
    rw [Finset.sum_ite_eq, if_pos ha]

variable [IsStrictOrderedRing K]

theorem groupSum_nonneg (hw : ∀ a ∈ l, 0 ≤ weight a) (k : κ) : 0 ≤ groupSum key weight l k := by
  apply List.sum_nonneg
  intro x hx
  obtain ⟨a, ha, rfl⟩ := List.mem_map.mp hx
  exact hw a (List.mem_of_mem_filter ha)

/-! ### Bounds -/

omit [IsStrictOrderedRing K] in
/-- Keys that do not occur add nothing, so the sum may range over any set that has them all. -/
theorem cappedSum_eq_of_subset (hcap : 0 ≤ cap) {s : Finset κ} (hs : keys key l ⊆ s) :
    cappedSum cap key weight l = ∑ k ∈ s, min cap (groupSum key weight l k) := by
  apply Finset.sum_subset hs
  intro k _ hk
  rw [groupSum_of_not_mem hk, min_eq_right hcap]

theorem cappedSum_nonneg (hcap : 0 ≤ cap) (hw : ∀ a ∈ l, 0 ≤ weight a) :
    0 ≤ cappedSum cap key weight l :=
  Finset.sum_nonneg fun k _ => le_min hcap (groupSum_nonneg hw k)

theorem cappedSum_le_card :
    cappedSum cap key weight l ≤ (keys key l).card * cap := by
  calc cappedSum cap key weight l
      ≤ ∑ _k ∈ keys key l, cap := Finset.sum_le_sum fun k _ => min_le_left _ _
    _ = (keys key l).card * cap := by rw [Finset.sum_const, nsmul_eq_mul]

theorem cappedSum_le_sum : cappedSum cap key weight l ≤ (l.map weight).sum := by
  have hgroups : ∑ k ∈ keys key l, groupSum key weight l k = (l.map weight).sum :=
    sum_groupSum subset_rfl
  rw [← hgroups]
  exact Finset.sum_le_sum fun k _ => min_le_right _ _

omit [IsStrictOrderedRing K] in
/-- Nothing is cut off when no group passes the cap. -/
theorem cappedSum_eq_sum (h : ∀ k ∈ keys key l, groupSum key weight l k ≤ cap) :
    cappedSum cap key weight l = (l.map weight).sum := by
  have hgroups : ∑ k ∈ keys key l, groupSum key weight l k = (l.map weight).sum :=
    sum_groupSum subset_rfl
  rw [← hgroups]
  exact Finset.sum_congr rfl fun k hk => min_eq_right (h k hk)

/-! ### One more element -/

omit [IsStrictOrderedRing K] in
/-- What an element adds: the growth of its own group, as far as the cap lets it. -/
theorem cappedSum_append_singleton (hcap : 0 ≤ cap) (a : α) :
    cappedSum cap key weight (l ++ [a]) = cappedSum cap key weight l
      + (min cap (groupSum key weight l (key a) + weight a)
        - min cap (groupSum key weight l (key a))) := by
  set s := keys key (l ++ [a]) with hs
  have hl : keys key l ⊆ s := by rw [hs, keys_append]; exact Finset.subset_union_left
  have ha : key a ∈ s := key_mem_keys (by simp)
  -- only the group of `a` changes
  have hother : ∀ k ∈ s.erase (key a),
      min cap (groupSum key weight (l ++ [a]) k) = min cap (groupSum key weight l k) := by
    intro k hk
    have hne : key a ≠ k := (Finset.ne_of_mem_erase hk).symm
    rw [groupSum_append, groupSum_cons, if_neg hne, groupSum_nil, add_zero, add_zero]
  have hself : groupSum key weight (l ++ [a]) (key a)
      = groupSum key weight l (key a) + weight a := by
    rw [groupSum_append, groupSum_cons, if_pos rfl, groupSum_nil, add_zero]
  rw [cappedSum_eq_of_subset hcap hl, cappedSum, ← Finset.add_sum_erase _ _ ha,
    ← Finset.add_sum_erase s (fun k => min cap (groupSum key weight l k)) ha,
    Finset.sum_congr rfl hother, hself]
  ring

/-! ### Renaming the keys -/

omit [IsStrictOrderedRing K] in
/-- Lists without a common key add up. -/
theorem cappedSum_append (h : Disjoint (keys key l₁) (keys key l₂)) :
    cappedSum cap key weight (l₁ ++ l₂)
      = cappedSum cap key weight l₁ + cappedSum cap key weight l₂ := by
  have hleft : ∀ k ∈ keys key l₁,
      min cap (groupSum key weight (l₁ ++ l₂) k) = min cap (groupSum key weight l₁ k) := by
    intro k hk
    rw [groupSum_append, groupSum_of_not_mem (Finset.disjoint_left.mp h hk), add_zero]
  have hright : ∀ k ∈ keys key l₂,
      min cap (groupSum key weight (l₁ ++ l₂) k) = min cap (groupSum key weight l₂ k) := by
    intro k hk
    rw [groupSum_append, groupSum_of_not_mem (Finset.disjoint_right.mp h hk), zero_add]
  rw [cappedSum, keys_append, Finset.sum_union h, Finset.sum_congr rfl hleft,
    Finset.sum_congr rfl hright, cappedSum, cappedSum]

variable {f : α → β} {key' : β → ι} {weight' : β → K} {rename : κ → ι}

omit [Field K] [LinearOrder K] [IsStrictOrderedRing K] in
theorem keys_map (hkey : ∀ a ∈ l, key' (f a) = rename (key a)) :
    keys key' (l.map f) = (keys key l).image rename := by
  ext k
  constructor
  · intro hk
    obtain ⟨b, hb, rfl⟩ := mem_keys.mp hk
    obtain ⟨a, ha, rfl⟩ := List.mem_map.mp hb
    rw [hkey a ha]
    exact Finset.mem_image_of_mem _ (key_mem_keys ha)
  · intro hk
    obtain ⟨k₀, hk₀, rfl⟩ := Finset.mem_image.mp hk
    obtain ⟨a, ha, rfl⟩ := mem_keys.mp hk₀
    rw [← hkey a ha]
    exact key_mem_keys (List.mem_map_of_mem ha)

omit [LinearOrder K] [IsStrictOrderedRing K] in
/-- A renaming that keeps the keys apart keeps the groups. -/
theorem groupSum_map (hkey : ∀ a ∈ l, key' (f a) = rename (key a))
    (hweight : ∀ a ∈ l, weight' (f a) = weight a) (hinj : Set.InjOn rename (keys key l)) {k : κ}
    (hk : k ∈ keys key l) :
    groupSum key' weight' (l.map f) (rename k) = groupSum key weight l k := by
  have hfilter : (l.map f).filter (fun b => key' b = rename k)
      = (l.filter fun a => key a = k).map f := by
    rw [List.filter_map]
    congr 1
    apply List.filter_congr
    intro a ha
    have hiff : rename (key a) = rename k ↔ key a = k := hinj.eq_iff (key_mem_keys ha) hk
    simp only [Function.comp_apply, hkey a ha, hiff]
  rw [groupSum, hfilter, List.map_map, groupSum]
  congr 1
  exact List.map_congr_left fun a ha => hweight a (List.mem_of_mem_filter ha)

omit [IsStrictOrderedRing K] in
theorem cappedSum_map (hkey : ∀ a ∈ l, key' (f a) = rename (key a))
    (hweight : ∀ a ∈ l, weight' (f a) = weight a) (hinj : Set.InjOn rename (keys key l)) :
    cappedSum cap key' weight' (l.map f) = cappedSum cap key weight l := by
  rw [cappedSum, keys_map hkey, Finset.sum_image hinj]
  exact Finset.sum_congr rfl fun k hk => by rw [groupSum_map hkey hweight hinj hk]

omit [IsStrictOrderedRing K] in
/-- Only the keys and the weights of the elements matter. -/
theorem cappedSum_pairs :
    cappedSum cap Prod.fst Prod.snd (l.map fun a => (key a, weight a))
      = cappedSum cap key weight l :=
  cappedSum_map (fun a _ => (id_eq (key a)).symm) (fun _ _ => rfl) (Set.injOn_id _)

end RoadVisionAI.Weighted
