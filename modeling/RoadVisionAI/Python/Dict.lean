import Mathlib.Data.Finset.Sort
import Mathlib.Data.List.Lookmap
import Mathlib.Data.List.Sort
import Mathlib.Algebra.BigOperators.Group.Finset.Basic

/-!
# Insertion-ordered dictionaries

`Dict κ ν` is Python's `dict`: an association list in insertion order whose keys are distinct, a
fact the structure carries.  Assigning to a present key keeps its position (`assocSet`).

The loop `for x in l: d[key(x)] = g(d.get(key(x), init), x)` is `Dict.accumulate`.  Its result is
described once, for any `g`: the keys are those of `l`, and the value at a key is the fold of
`g` over the elements of `l` with that key (`get?_accumulate`).  So the items, in key order, are
the sorted keys paired with those folds (`sortedItems_accumulate`), and a sum over the values is
a sum over the set of keys (`sum_values_accumulate`).
-/

namespace RoadVisionAI.Python

variable {κ ν α : Type*} [DecidableEq κ]

/-! ### Association lists -/

/-- `d[k] = v` on the entries of a dictionary: in place when `k` is present, else at the end. -/
def assocSet (k : κ) (v : ν) : List (κ × ν) → List (κ × ν)
  | [] => [(k, v)]
  | e :: es => if e.1 = k then (k, v) :: es else e :: assocSet k v es

@[simp]
theorem lookup_assocSet_self (k : κ) (v : ν) (l : List (κ × ν)) :
    (assocSet k v l).lookup k = some v := by
  induction l with
  | nil => simp [assocSet]
  | cons e es ih =>
    rw [assocSet]
    split_ifs with h
    · simp
    · have hne : (k == e.1) = false := by simpa using Ne.symm h
      rw [List.lookup_cons, hne]
      exact ih

theorem lookup_assocSet_of_ne {k k' : κ} (h : k' ≠ k) (v : ν) (l : List (κ × ν)) :
    (assocSet k v l).lookup k' = l.lookup k' := by
  have hkk : (k' == k) = false := by simpa using h
  induction l with
  | nil => rw [assocSet, List.lookup_cons, hkk]
  | cons e es ih =>
    rw [assocSet]
    split_ifs with he
    · rw [List.lookup_cons, List.lookup_cons, he, hkk]
    · rw [List.lookup_cons, List.lookup_cons, ih]

theorem keys_assocSet (k : κ) (v : ν) (l : List (κ × ν)) :
    (assocSet k v l).map Prod.fst
      = if k ∈ l.map Prod.fst then l.map Prod.fst else l.map Prod.fst ++ [k] := by
  induction l with
  | nil => simp [assocSet]
  | cons e es ih =>
    rw [assocSet]
    split_ifs with he hmem hmem
    · simp [he]
    · simp [he] at hmem
    · have hes : k ∈ es.map Prod.fst := by
        rcases List.mem_cons.mp hmem with h | h
        · exact absurd h.symm he
        · exact h
      rw [List.map_cons, ih, if_pos hes, List.map_cons]
    · have hes : k ∉ es.map Prod.fst := fun h => hmem (List.mem_cons_of_mem _ h)
      rw [List.map_cons, ih, if_neg hes, List.map_cons, List.cons_append]

theorem assocSet_of_not_mem {k : κ} {l : List (κ × ν)} (h : k ∉ l.map Prod.fst) (v : ν) :
    assocSet k v l = l ++ [(k, v)] := by
  induction l with
  | nil => rfl
  | cons e es ih =>
    rw [List.map_cons, List.mem_cons, not_or] at h
    rw [assocSet, if_neg (Ne.symm h.1), ih h.2, List.cons_append]

theorem mem_of_lookup_eq_some {k : κ} {v : ν} {l : List (κ × ν)} (h : l.lookup k = some v) :
    (k, v) ∈ l := by
  obtain ⟨before, after, rfl, -⟩ := List.lookup_eq_some_iff.mp h
  exact List.mem_append_right before List.mem_cons_self

theorem lookup_map_values (g : ν → α) (k : κ) (l : List (κ × ν)) :
    (l.map fun e => (e.1, g e.2)).lookup k = (l.lookup k).map g := by
  induction l with
  | nil => rfl
  | cons e es ih =>
    rw [List.map_cons, List.lookup_cons, List.lookup_cons, ih]
    split <;> rfl

theorem nodup_keys_assocSet (k : κ) (v : ν) {l : List (κ × ν)} (h : (l.map Prod.fst).Nodup) :
    ((assocSet k v l).map Prod.fst).Nodup := by
  rw [keys_assocSet]
  split_ifs with hk
  · exact h
  · refine List.nodup_append.mpr ⟨h, List.nodup_singleton k, ?_⟩
    intro a ha b hb hab
    rw [List.mem_singleton] at hb
    exact hk (by rwa [hab, hb] at ha)

/-! ### Dictionaries -/

/-- A Python `dict`: its items in insertion order, with distinct keys. -/
structure Dict (κ ν : Type*) where
  /-- `list(d.items())`. -/
  entries : List (κ × ν)
  /-- No key occurs twice. -/
  nodupKeys : (entries.map Prod.fst).Nodup

namespace Dict

/-- `{}`. -/
def empty : Dict κ ν := ⟨[], List.nodup_nil⟩

/-- `list(d)`. -/
def keys (d : Dict κ ν) : List κ := d.entries.map Prod.fst

/-- `list(d.values())`. -/
def values (d : Dict κ ν) : List ν := d.entries.map Prod.snd

/-- `d.get(k)`, with `none` for Python's `None`. -/
def get? (d : Dict κ ν) (k : κ) : Option ν := d.entries.lookup k

/-- `d[k] = v`. -/
def set (d : Dict κ ν) (k : κ) (v : ν) : Dict κ ν :=
  ⟨assocSet k v d.entries, nodup_keys_assocSet k v d.nodupKeys⟩

/-- `d[k] = g(d.get(k, init))`; `d.setdefault(k, []).append(x)` is the case of an append. -/
def upsert (d : Dict κ ν) (k : κ) (init : ν) (g : ν → ν) : Dict κ ν :=
  d.set k (g ((d.get? k).getD init))

/-- `dict(items)`: later items overwrite earlier ones of the same key. -/
def ofItems (l : List (κ × ν)) : Dict κ ν := l.foldl (fun d e => d.set e.1 e.2) empty

/-- `sorted(d.items())` on distinct keys: the values are never compared. -/
def sortedItems [LinearOrder κ] (d : Dict κ ν) : List (κ × ν) :=
  d.entries.insertionSort fun a b => a.1 ≤ b.1

@[simp]
theorem get?_empty (k : κ) : (empty : Dict κ ν).get? k = none := rfl

@[simp]
theorem get?_set_self (d : Dict κ ν) (k : κ) (v : ν) : (d.set k v).get? k = some v :=
  lookup_assocSet_self k v d.entries

theorem get?_set_of_ne (d : Dict κ ν) {k k' : κ} (h : k' ≠ k) (v : ν) :
    (d.set k v).get? k' = d.get? k' :=
  lookup_assocSet_of_ne h v d.entries

theorem mem_keys_set (d : Dict κ ν) (k k' : κ) (v : ν) :
    k' ∈ (d.set k v).keys ↔ k' = k ∨ k' ∈ d.keys := by
  have hkeys : (d.set k v).keys = if k ∈ d.keys then d.keys else d.keys ++ [k] :=
    keys_assocSet k v d.entries
  rw [hkeys]
  split_ifs with hk
  · constructor
    · exact Or.inr
    · rintro (rfl | h)
      · exact hk
      · exact h
  · simp [or_comm]

/-- With distinct keys, looking an entry's key up finds its value. -/
theorem get?_of_mem {d : Dict κ ν} {k : κ} {v : ν} (h : (k, v) ∈ d.entries) :
    d.get? k = some v := by
  obtain ⟨l, hl⟩ := d
  simp only [get?] at h ⊢
  induction l with
  | nil => simp at h
  | cons e es ih =>
    rw [List.map_cons, List.nodup_cons] at hl
    rcases List.mem_cons.mp h with rfl | hes
    · simp
    · have hne : (k == e.1) = false := by
        rw [beq_eq_false_iff_ne]
        intro hke
        exact hl.1 (hke ▸ List.mem_map_of_mem hes)
      rw [List.lookup_cons, hne]
      exact ih hl.2 hes

/-- With distinct keys the items are looked up as in the list. -/
theorem get?_ofItems {l : List (κ × ν)} (h : (l.map Prod.fst).Nodup) (k : κ) :
    (ofItems l).get? k = l.lookup k := by
  -- from any dictionary, a key of the list has the value the list gives it
  have hfold : ∀ d : Dict κ ν,
      (l.foldl (fun d e => d.set e.1 e.2) d).get? k = (l.lookup k).or (d.get? k) := by
    induction l with
    | nil => intro d; rfl
    | cons e es ih =>
      intro d
      rw [List.map_cons, List.nodup_cons] at h
      rw [List.foldl_cons, ih h.2, List.lookup_cons]
      by_cases hk : k = e.1
      · have hnone : es.lookup k = none := by
          rw [List.lookup_eq_none_iff]
          intro e' he'
          rw [bne_iff_ne, hk]
          intro heq
          exact h.1 (heq ▸ List.mem_map_of_mem he')
        rw [hnone, hk, get?_set_self]
        simp
      · have hbeq : (k == e.1) = false := by simpa using hk
        rw [get?_set_of_ne d hk, hbeq]
  rw [ofItems, hfold]
  simp

/-- A dictionary whose value at every key is given by `val` consists of its keys paired with
`val`. -/
theorem entries_eq_map {d : Dict κ ν} {val : κ → ν}
    (h : ∀ k ∈ d.keys, d.get? k = some (val k)) :
    d.entries = d.keys.map fun k => (k, val k) := by
  rw [keys, List.map_map]
  symm
  rw [← List.map_id d.entries, List.map_map]
  refine List.map_congr_left fun e he => ?_
  have hget := get?_of_mem (show (e.1, e.2) ∈ d.entries from he)
  have hval := h e.1 (List.mem_map_of_mem he)
  rw [hget] at hval
  have heq : e.2 = val e.1 := Option.some.inj hval
  simp [← heq]

/-- The items in key order are the sorted keys paired with their values. -/
theorem sortedItems_eq [LinearOrder κ] {d : Dict κ ν} {val : κ → ν}
    (h : ∀ k ∈ d.keys, d.get? k = some (val k)) :
    d.sortedItems = d.keys.toFinset.sort.map fun k => (k, val k) := by
  have hmap : d.keys.toFinset.sort.map (fun k => (k, val k))
      = (d.keys.map fun k => (k, val k)).insertionSort fun a b => a.1 ≤ b.1 := by
    rw [← List.map_insertionSort (· ≤ ·) (fun a b : κ × ν => a.1 ≤ b.1) (fun k => (k, val k))
      d.keys fun a _ b _ => Iff.rfl]
    congr 1
    -- both sides are sorted, and have the same keys
    refine List.Perm.eq_of_pairwise' (r := (· ≤ ·)) ?_ ?_ ?_
    · exact Finset.pairwise_sort _ _
    · exact List.pairwise_insertionSort _ _
    · refine (Finset.sort_perm_toList _ _).trans ?_
      refine (List.toFinset_toList d.nodupKeys).trans ?_
      exact (List.perm_insertionSort _ _).symm
  rw [hmap, ← entries_eq_map h]
  rfl

/-! ### Grouping loops -/

/-- `for x in l: d[key(x)] = g(d.get(key(x), init), x)`, from `d`. -/
def accumulateFrom (key : α → κ) (init : ν) (g : ν → α → ν) (d : Dict κ ν) (l : List α) :
    Dict κ ν :=
  l.foldl (fun d x => d.upsert (key x) init fun v => g v x) d

/-- The same loop from the empty dictionary. -/
def accumulate (key : α → κ) (init : ν) (g : ν → α → ν) (l : List α) : Dict κ ν :=
  accumulateFrom key init g empty l

variable (key : α → κ) (init : ν) (g : ν → α → ν)

theorem mem_keys_accumulateFrom (d : Dict κ ν) (l : List α) (k : κ) :
    k ∈ (accumulateFrom key init g d l).keys ↔ k ∈ d.keys ∨ k ∈ l.map key := by
  induction l generalizing d with
  | nil => simp [accumulateFrom]
  | cons x xs ih =>
    have hstep : accumulateFrom key init g d (x :: xs)
        = accumulateFrom key init g (d.upsert (key x) init fun v => g v x) xs := rfl
    rw [hstep, ih, upsert, mem_keys_set, List.map_cons, List.mem_cons]
    tauto

/-- Elements of other keys leave the value at `k` alone. -/
theorem get?_accumulateFrom_of_not_mem (d : Dict κ ν) (l : List α) (k : κ)
    (hk : k ∉ l.map key) : (accumulateFrom key init g d l).get? k = d.get? k := by
  induction l generalizing d with
  | nil => rfl
  | cons x xs ih =>
    rw [List.map_cons, List.mem_cons, not_or] at hk
    have hstep : accumulateFrom key init g d (x :: xs)
        = accumulateFrom key init g (d.upsert (key x) init fun v => g v x) xs := rfl
    rw [hstep, ih _ hk.2, upsert, get?_set_of_ne _ hk.1]

/-- The value at a key is the fold over the elements of that key, started from the value the
dictionary had (or `init`).  By induction on the loop. -/
theorem get?_accumulateFrom (d : Dict κ ν) (l : List α) (k : κ) (hk : k ∈ l.map key) :
    (accumulateFrom key init g d l).get? k
      = some ((l.filter fun x => key x = k).foldl g ((d.get? k).getD init)) := by
  induction l generalizing d with
  | nil => simp at hk
  | cons x xs ih =>
    have hstep : accumulateFrom key init g d (x :: xs)
        = accumulateFrom key init g (d.upsert (key x) init fun v => g v x) xs := rfl
    rw [hstep]
    by_cases hx : key x = k
    · have hval : (d.upsert (key x) init fun v => g v x).get? k
          = some (g ((d.get? k).getD init) x) := by
        rw [upsert, hx, get?_set_self]
      rw [List.filter_cons_of_pos (by simpa using hx), List.foldl_cons]
      by_cases hxs : k ∈ xs.map key
      · rw [ih _ hxs, hval, Option.getD_some]
      · -- `x` was the last element of this key
        have hnil : xs.filter (fun y => key y = k) = [] := by
          rw [List.filter_eq_nil_iff]
          intro y hy hyk
          exact hxs (List.mem_map.mpr ⟨y, hy, by simpa using hyk⟩)
        rw [get?_accumulateFrom_of_not_mem _ _ _ _ _ _ hxs, hval, hnil, List.foldl_nil]
    · -- `x` belongs to another key
      have hxs : k ∈ xs.map key := by
        rcases List.mem_cons.mp hk with h | h
        · exact absurd h.symm hx
        · exact h
      have hval : (d.upsert (key x) init fun v => g v x).get? k = d.get? k :=
        get?_set_of_ne _ (Ne.symm hx) _
      rw [ih _ hxs, hval, List.filter_cons_of_neg (by simpa using hx)]

theorem mem_keys_accumulate (l : List α) (k : κ) :
    k ∈ (accumulate key init g l).keys ↔ k ∈ l.map key := by
  rw [accumulate, mem_keys_accumulateFrom]
  simp [keys, empty]

theorem get?_accumulate {l : List α} {k : κ} (hk : k ∈ (accumulate key init g l).keys) :
    (accumulate key init g l).get? k
      = some ((l.filter fun x => key x = k).foldl g init) := by
  rw [mem_keys_accumulate] at hk
  rw [accumulate, get?_accumulateFrom _ _ _ _ _ _ hk]
  rfl

theorem toFinset_keys_accumulate (l : List α) :
    (accumulate key init g l).keys.toFinset = (l.map key).toFinset := by
  ext k
  rw [List.mem_toFinset, List.mem_toFinset, mem_keys_accumulate]

/-- The items of a grouping loop, in key order. -/
theorem sortedItems_accumulate [LinearOrder κ] (l : List α) :
    (accumulate key init g l).sortedItems
      = (l.map key).toFinset.sort.map fun k => (k, (l.filter fun x => key x = k).foldl g init) := by
  rw [sortedItems_eq fun k hk => get?_accumulate key init g hk, toFinset_keys_accumulate]

/-- A sum over the values of a grouping loop is a sum over the keys. -/
theorem sum_values_accumulate [AddCommMonoid ν] (l : List α) :
    (accumulate key init g l).values.sum
      = ∑ k ∈ (l.map key).toFinset, (l.filter fun x => key x = k).foldl g init := by
  rw [values, entries_eq_map fun k hk => get?_accumulate key init g hk, List.map_map,
    ← toFinset_keys_accumulate key init g]
  exact (List.sum_toFinset _ (accumulate key init g l).nodupKeys).symm

end Dict

end RoadVisionAI.Python
