import Mathlib.Data.List.Chain
import Mathlib.Data.List.DropRight

/-!
# Overlapping windows of a list

A list is cut into windows of one size, each sharing its first elements with the end of the one
before; the last window takes what is left, which may be less.  `Shape` carries what makes the
cutting come to an end.

The windows lose and invent nothing: joined without their overlaps they are the list
(`join_windows`), a window and the next share the overlap (`isChain_windows`), all but the last are
full (`length_of_mem_dropLast_windows`), and every one but the first has something of its own
(`lt_length_of_mem_tail_windows`).  `windows_eq_map` gives the place of each.
-/

namespace RoadVisionAI.Windows

variable {α β : Type*}

/-- The size of the windows, and what two of them share. -/
structure Shape where
  size : ℕ
  overlap : ℕ
  overlap_lt : overlap < size

namespace Shape

variable (shape : Shape)

/-- From the start of a window to the start of the next. -/
def step : ℕ := shape.size - shape.overlap

theorem step_pos : 0 < shape.step := Nat.sub_pos_of_lt shape.overlap_lt

theorem step_add_overlap : shape.step + shape.overlap = shape.size :=
  Nat.sub_add_cancel shape.overlap_lt.le

theorem overlap_le : shape.overlap ≤ shape.size := shape.overlap_lt.le

theorem step_le : shape.step ≤ shape.size := Nat.sub_le ..

/-- The windows of a list. -/
def windows (xs : List α) : List (List α) :=
  if xs.length ≤ shape.size then (if xs.isEmpty then [] else [xs])
  else xs.take shape.size :: windows (xs.drop shape.step)
termination_by xs.length
decreasing_by
  have := shape.step_pos
  have := shape.step_le
  rw [List.length_drop]
  omega

/-- The windows put together again, each without what it shares with the one before. -/
def join : List (List α) → List α
  | [] => []
  | w :: ws => w ++ ws.flatMap (List.drop shape.overlap)

variable {shape} {xs : List α}

@[simp]
theorem windows_nil : shape.windows ([] : List α) = [] := by
  rw [windows, if_pos (by simp)]
  rfl

theorem windows_of_le (hne : xs ≠ []) (h : xs.length ≤ shape.size) : shape.windows xs = [xs] := by
  rw [windows, if_pos h, if_neg (by simpa using hne)]

theorem windows_of_lt (h : shape.size < xs.length) :
    shape.windows xs = xs.take shape.size :: shape.windows (xs.drop shape.step) := by
  rw [windows, if_neg (not_le.mpr h)]

/-- By the windows: there is none, or one, or there is more than the first. -/
theorem windows_induction (shape : Shape) {motive : List α → Prop} (nil : motive [])
    (last : ∀ xs, xs ≠ [] → xs.length ≤ shape.size → motive xs)
    (more : ∀ xs, shape.size < xs.length → xs.drop shape.step ≠ [] →
      motive (xs.drop shape.step) → motive xs) (xs : List α) : motive xs := by
  induction hlength : xs.length using Nat.strong_induction_on generalizing xs with
  | _ n ih =>
    by_cases hne : xs = []
    · exact hne ▸ nil
    by_cases h : xs.length ≤ shape.size
    · exact last xs hne h
    · have hstep := shape.step_pos
      have hle := shape.step_le
      have hshorter : (xs.drop shape.step).length < n := by rw [List.length_drop]; omega
      have hrest : xs.drop shape.step ≠ [] := by
        rw [← List.length_pos_iff, List.length_drop]
        omega
      exact more xs (not_le.mp h) hrest (ih _ hshorter _ rfl)

/-- The first window. -/
theorem windows_eq_cons (shape : Shape) (hne : xs ≠ []) :
    ∃ ws, shape.windows xs = xs.take shape.size :: ws := by
  by_cases h : xs.length ≤ shape.size
  · exact ⟨[], by rw [windows_of_le hne h, List.take_of_length_le h]⟩
  · exact ⟨_, windows_of_lt (not_le.mp h)⟩

theorem windows_ne_nil (hne : xs ≠ []) : shape.windows xs ≠ [] := by
  obtain ⟨ws, hws⟩ := shape.windows_eq_cons hne
  rw [hws]
  exact List.cons_ne_nil _ _

/-! ### Nothing lost, nothing invented -/

/-- What the windows of a list show together is the list. -/
theorem join_windows (xs : List α) : shape.join (shape.windows xs) = xs := by
  induction xs using shape.windows_induction with
  | nil => rw [windows_nil, join]
  | last xs hne h =>
    rw [windows_of_le hne h, join, List.flatMap_nil, List.append_nil]
  | more xs h hrest ih =>
    obtain ⟨ws, hws⟩ := shape.windows_eq_cons hrest
    rw [hws, join] at ih
    -- the first window of the rest is long enough for the overlap to be dropped from it alone
    have hlong : shape.overlap ≤ ((xs.drop shape.step).take shape.size).length := by
      have := shape.step_add_overlap
      rw [List.length_take, List.length_drop]
      omega
    have hdrop : ((xs.drop shape.step).take shape.size).drop shape.overlap
        ++ ws.flatMap (List.drop shape.overlap) = xs.drop shape.size := by
      rw [← List.drop_append_of_le_length hlong, ih, List.drop_drop, shape.step_add_overlap]
    rw [windows_of_lt h, hws, join, List.flatMap_cons, hdrop, List.take_append_drop]

/-- A window ends with what the next one begins with. -/
theorem isChain_windows (shape : Shape) (xs : List α) :
    (shape.windows xs).IsChain fun w w' => w.rtake shape.overlap = w'.take shape.overlap := by
  induction xs using shape.windows_induction with
  | nil =>
    rw [windows_nil]
    exact .nil
  | last xs hne h =>
    rw [windows_of_le hne h]
    exact .singleton _
  | more xs h hrest ih =>
    obtain ⟨ws, hws⟩ := shape.windows_eq_cons hrest
    rw [windows_of_lt h]
    rw [hws] at ih ⊢
    refine .cons_cons ?_ ih
    have hlength : (xs.take shape.size).length = shape.size := List.length_take_of_le h.le
    rw [List.rtake, hlength, List.take_take, min_eq_left shape.overlap_le, ← step, List.drop_take,
      ← shape.step_add_overlap, Nat.add_sub_cancel_left]

/-- Every window but the last is full. -/
theorem length_of_mem_dropLast_windows {w : List α} (hw : w ∈ (shape.windows xs).dropLast) :
    w.length = shape.size := by
  induction xs using shape.windows_induction with
  | nil =>
    rw [windows_nil] at hw
    cases hw
  | last xs hne h =>
    rw [windows_of_le hne h] at hw
    cases hw
  | more xs h hrest ih =>
    rw [windows_of_lt h, List.dropLast_cons_of_ne_nil (windows_ne_nil hrest)] at hw
    rcases List.mem_cons.mp hw with rfl | hw
    · exact List.length_take_of_le h.le
    · exact ih hw

/-- Every window but the first goes past what it shares. -/
theorem lt_length_of_mem_tail_windows {w : List α} (hw : w ∈ (shape.windows xs).tail) :
    shape.overlap < w.length := by
  induction xs using shape.windows_induction with
  | nil =>
    rw [windows_nil] at hw
    cases hw
  | last xs hne h =>
    rw [windows_of_le hne h] at hw
    cases hw
  | more xs h hrest ih =>
    obtain ⟨ws, hws⟩ := shape.windows_eq_cons hrest
    rw [windows_of_lt h, List.tail_cons, hws] at hw
    rcases List.mem_cons.mp hw with rfl | hw
    · have := shape.step_add_overlap
      have := shape.overlap_lt
      rw [List.length_take, List.length_drop]
      omega
    · rw [hws] at ih
      exact ih hw

/-! ### Places -/

/-- The windows stand `step` apart. -/
theorem windows_eq_map (shape : Shape) (xs : List α) :
    ∃ count, shape.windows xs
      = (List.range count).map fun i => (xs.drop (i * shape.step)).take shape.size := by
  induction xs using shape.windows_induction with
  | nil => exact ⟨0, by rw [windows_nil]; rfl⟩
  | last xs hne h =>
    refine ⟨1, ?_⟩
    rw [windows_of_le hne h, List.range_one, List.map_singleton, Nat.zero_mul, List.drop_zero,
      List.take_of_length_le h]
  | more xs h hrest ih =>
    obtain ⟨count, hcount⟩ := ih
    refine ⟨count + 1, ?_⟩
    rw [windows_of_lt h, hcount, List.range_succ_eq_map, List.map_cons, List.map_map, Nat.zero_mul,
      List.drop_zero]
    congr 1
    apply List.map_congr_left
    intro i _
    rw [List.drop_drop, Function.comp_apply, Nat.succ_mul, Nat.add_comm shape.step]

/-- A window is a part of the list, in one piece. -/
theorem infix_of_mem_windows {w : List α} (hw : w ∈ shape.windows xs) : w <:+: xs := by
  obtain ⟨count, hcount⟩ := shape.windows_eq_map xs
  rw [hcount] at hw
  obtain ⟨i, -, rfl⟩ := List.mem_map.mp hw
  exact (List.take_prefix ..).isInfix.trans (List.drop_suffix ..).isInfix

/-- The windows of what the elements are mapped to. -/
theorem windows_map (f : α → β) (xs : List α) :
    shape.windows (xs.map f) = (shape.windows xs).map (List.map f) := by
  induction xs using shape.windows_induction with
  | nil => rw [List.map_nil, windows_nil, windows_nil, List.map_nil]
  | last xs hne h =>
    rw [windows_of_le hne h, windows_of_le (by simpa using hne) (by simpa using h),
      List.map_singleton]
  | more xs h hrest ih =>
    rw [windows_of_lt h, windows_of_lt (by simpa using h), List.map_cons, ← ih, List.map_take,
      List.map_drop]

end Shape

end RoadVisionAI.Windows
