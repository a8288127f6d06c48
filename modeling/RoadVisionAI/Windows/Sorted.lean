import Mathlib.Data.List.Pairwise
import Mathlib.Order.Lattice

/-!
# Windows of a list sorted by a key

A part of a sorted list that is in one piece has every element whose key is strictly between those
of its ends, and some of those at the ends: `SortedBy.filter_eq_of_infix`, with
`length_filter_lt_left` and `length_filter_lt_right` for the ends.  From a window to one further on
the keys of the ends do not decrease (`SortedBy.key_head_le`, `SortedBy.key_last_le`).
-/

namespace RoadVisionAI.Windows

variable {α ι : Type*} [LinearOrder ι] {key : α → ι} {xs before w after : List α} {first last : α}

/-- The keys do not decrease along the list. -/
def SortedBy (key : α → ι) (xs : List α) : Prop := xs.Pairwise fun x y => key x ≤ key y

theorem SortedBy.append_iff {ys : List α} :
    SortedBy key (xs ++ ys) ↔
      SortedBy key xs ∧ SortedBy key ys ∧ ∀ x ∈ xs, ∀ y ∈ ys, key x ≤ key y :=
  List.pairwise_append

theorem SortedBy.sublist {ys : List α} (h : SortedBy key xs) (hsub : ys.Sublist xs) :
    SortedBy key ys :=
  List.Pairwise.sublist hsub h

/-- The first element has the least key. -/
theorem SortedBy.head_le (h : SortedBy key w) (hfirst : w.head? = some first) {x : α} (hx : x ∈ w) :
    key first ≤ key x := by
  obtain ⟨rest, rfl⟩ := List.head?_eq_some_iff.mp hfirst
  rcases List.mem_cons.mp hx with rfl | hx
  · exact le_rfl
  · exact (List.pairwise_cons.mp h).1 x hx

/-- The last element has the greatest key. -/
theorem SortedBy.le_last (h : SortedBy key w) (hlast : w.getLast? = some last) {x : α}
    (hx : x ∈ w) : key x ≤ key last := by
  obtain ⟨rest, rfl⟩ := List.getLast?_eq_some_iff.mp hlast
  rcases List.mem_append.mp hx with hx | hx
  · exact (SortedBy.append_iff.mp h).2.2 x hx last (List.mem_singleton_self last)
  · rw [List.mem_singleton.mp hx]

section Infix

variable (h : SortedBy key (before ++ w ++ after))

include h

theorem SortedBy.before_le (hfirst : w.head? = some first) {x : α} (hx : x ∈ before) :
    key x ≤ key first :=
  (SortedBy.append_iff.mp (SortedBy.append_iff.mp h).1).2.2 x hx first
    (List.mem_of_mem_head? hfirst)

theorem SortedBy.le_after (hlast : w.getLast? = some last) {x : α} (hx : x ∈ after) :
    key last ≤ key x :=
  (SortedBy.append_iff.mp h).2.2 last
    (List.mem_append_right before (List.mem_of_mem_getLast? hlast)) x hx

/-- The elements with keys between those of the ends. -/
theorem SortedBy.filter_eq_of_infix (hfirst : w.head? = some first)
    (hlast : w.getLast? = some last) :
    (before ++ w ++ after).filter (fun x => key first ≤ key x ∧ key x ≤ key last)
      = before.filter (fun x => key x = key first) ++ w
        ++ after.filter (fun x => key x = key last) := by
  have hw : SortedBy key w := (SortedBy.append_iff.mp (SortedBy.append_iff.mp h).1).2.1
  have hends : key first ≤ key last := hw.le_last hlast (List.mem_of_mem_head? hfirst)
  have hbefore : before.filter (fun x => key first ≤ key x ∧ key x ≤ key last)
      = before.filter fun x => key x = key first := by
    apply List.filter_congr
    intro x hx
    have hle := h.before_le hfirst hx
    refine decide_eq_decide.mpr ⟨fun hx' => le_antisymm hle hx'.1, fun heq => ?_⟩
    exact ⟨heq.ge, hle.trans hends⟩
  have hinner : w.filter (fun x => key first ≤ key x ∧ key x ≤ key last) = w := by
    rw [List.filter_eq_self]
    exact fun x hx => decide_eq_true ⟨hw.head_le hfirst hx, hw.le_last hlast hx⟩
  have hafter : after.filter (fun x => key first ≤ key x ∧ key x ≤ key last)
      = after.filter fun x => key x = key last := by
    apply List.filter_congr
    intro x hx
    have hle := h.le_after hlast hx
    refine decide_eq_decide.mpr ⟨fun hx' => le_antisymm hx'.2 hle, fun heq => ?_⟩
    exact ⟨hends.trans hle, heq.le⟩
  rw [List.filter_append, List.filter_append, hbefore, hinner, hafter]

omit h in
/-- The window starts among the elements with the key of its first one. -/
theorem length_filter_lt_left (hfirst : w.head? = some first) :
    (before.filter fun x => key x = key first).length
      < ((before ++ w ++ after).filter fun x => key x = key first).length := by
  have hmem : first ∈ w.filter fun x => key x = key first :=
    List.mem_filter.mpr ⟨List.mem_of_mem_head? hfirst, decide_eq_true rfl⟩
  have hpos := List.length_pos_of_mem hmem
  rw [List.filter_append, List.filter_append, List.length_append, List.length_append]
  omega

omit h in
theorem length_filter_lt_right (hlast : w.getLast? = some last) :
    (after.filter fun x => key x = key last).length
      < ((before ++ w ++ after).filter fun x => key x = key last).length := by
  have hmem : last ∈ w.filter fun x => key x = key last :=
    List.mem_filter.mpr ⟨List.mem_of_mem_getLast? hlast, decide_eq_true rfl⟩
  have hpos := List.length_pos_of_mem hmem
  rw [List.filter_append, List.filter_append, List.length_append, List.length_append]
  omega

end Infix

/-! ### From a window to one further on -/

section Further

variable {size a a' : ℕ} {first' last' : α} (h : SortedBy key xs) (ha : a ≤ a')

include h ha

theorem SortedBy.key_head_le (hfirst : ((xs.drop a).take size).head? = some first)
    (hfirst' : ((xs.drop a').take size).head? = some first') : key first ≤ key first' := by
  -- the later one is among what follows the earlier one
  have hmem : first' ∈ xs.drop a :=
    (List.drop_sublist_drop_left xs ha).mem (List.mem_of_mem_take (List.mem_of_mem_head? hfirst'))
  have hhead : (xs.drop a).head? = some first := by
    rw [List.head?_take] at hfirst
    split_ifs at hfirst
    exact hfirst
  exact (h.sublist (List.drop_sublist a xs)).head_le hhead hmem

theorem SortedBy.key_last_le (hlast : ((xs.drop a).take size).getLast? = some last)
    (hlast' : ((xs.drop a').take size).getLast? = some last') : key last ≤ key last' := by
  have hmem : last ∈ xs.take (a' + size) := by
    have hlast := List.mem_of_mem_getLast? hlast
    rw [List.take_drop] at hlast
    exact (List.take_sublist_take_left (Nat.add_le_add_right ha size)).mem
      (List.mem_of_mem_drop hlast)
  have hend : (xs.take (a' + size)).getLast? = some last' := by
    rw [List.take_drop] at hlast'
    rw [List.getLast?_drop] at hlast'
    split_ifs at hlast'
    exact hlast'
  exact (h.sublist (List.take_sublist _ xs)).le_last hend hmem

end Further

end RoadVisionAI.Windows
