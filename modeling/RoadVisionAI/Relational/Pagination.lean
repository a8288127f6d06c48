import Mathlib.Data.List.Sort
import Mathlib.Tactic.Linarith

/-!
# Pages of a query

`SELECT … ORDER BY key LIMIT n OFFSET k` against a table nobody writes.  The database may answer
every request from another order, as long as that order is sorted by the key (`Legal`), so rows with
equal keys may change places between two pages.  `lossless_iff`: going through the pages lists every
row exactly once, whatever the database does, exactly when no group of rows with equal keys lies on
both sides of a page boundary.

The position of a row in a legal order is known up to its ties: it comes after the rows with a
smaller key and before those with a larger one (`lt_countP_iff`).
-/

namespace RoadVisionAI.Relational

variable {α κ : Type*} [LinearOrder κ]

/-- A result order `ORDER BY key` allows: all the rows, sorted by the key, ties as they come. -/
structure Legal (key : α → κ) (rows order : List α) : Prop where
  perm : order.Perm rows
  sorted : order.Pairwise fun a b => key a ≤ key b

/-- `LIMIT limit OFFSET offset`. -/
def page (order : List α) (limit offset : ℕ) : List α := (order.drop offset).take limit

/-- An answer to one page request: a page of some legal order, and the count of the rows. -/
def Answers (key : α → κ) (rows : List α) (limit offset : ℕ) (answer : List α × ℕ) : Prop :=
  (∃ order, Legal key rows order ∧ answer.1 = page order limit offset) ∧ answer.2 = rows.length

/-- How many of the offsets `0, limit, 2 * limit, …` are below the total. -/
def pageCount (total limit : ℕ) : ℕ := (total + limit - 1) / limit

/-- Whatever a listing answers, its pages up to the total it reports list every row exactly once. -/
def Lossless (listing : ℕ → ℕ → List α × ℕ → Prop) (rows : List α) (limit : ℕ) : Prop :=
  ∀ answers : ℕ → List α × ℕ, (∀ i, listing limit (i * limit) (answers i)) →
    ((List.range (pageCount (answers 0).2 limit)).flatMap fun i => (answers i).1).Perm rows

/-- Rows with one key lie before and after the boundary. -/
def TieAcross (key : α → κ) (rows : List α) (boundary : ℕ) : Prop :=
  ∃ a ∈ rows, rows.countP (fun b => key b < key a) < boundary ∧
    boundary < rows.countP fun b => key b ≤ key a

/-- Rows with one key lie on both sides of a page boundary. -/
def TieAcrossPages (key : α → κ) (rows : List α) (limit : ℕ) : Prop :=
  ∃ i, TieAcross key rows (i * limit)

/-! ### Positions in a sorted list -/

/-- In a list where `p` holds up to some point, that point is the number of elements with `p`. -/
theorem lt_countP_iff {p : α → Prop} [DecidablePred p] {l : List α}
    (h : l.Pairwise fun a b => p b → p a) {j : ℕ} (hj : j < l.length) :
    j < l.countP (fun a => p a) ↔ p l[j] := by
  induction l generalizing j with
  | nil => simp at hj
  | cons a l ih =>
    rw [List.pairwise_cons] at h
    by_cases ha : p a
    · rw [List.countP_cons_of_pos (by simpa using ha)]
      cases j with
      | zero => simp [ha]
      | succ j =>
        rw [List.getElem_cons_succ, ← ih h.2 (by simpa using hj)]
        omega
    · -- past the point nothing has `p`
      have hnone : ∀ b ∈ a :: l, ¬ p b := by
        intro b hb hpb
        rcases List.mem_cons.mp hb with rfl | hbl
        · exact ha hpb
        · exact ha (h.1 b hbl hpb)
      have hzero : (a :: l).countP (fun a => p a) = 0 := by
        rw [List.countP_eq_zero]
        intro b hb
        simpa using hnone b hb
      rw [hzero]
      constructor
      · intro hlt; omega
      · intro hp
        exact absurd hp (hnone _ (List.getElem_mem hj))

namespace Legal

variable {key : α → κ} {rows order : List α}

theorem countP_eq (h : Legal key rows order) (p : α → Bool) : order.countP p = rows.countP p :=
  h.perm.countP_eq p

theorem lt_countP_lt_iff (h : Legal key rows order) (k : κ) {j : ℕ} (hj : j < order.length) :
    j < rows.countP (fun b => key b < k) ↔ key order[j] < k := by
  rw [← h.countP_eq]
  apply lt_countP_iff _ hj
  exact h.sorted.imp fun hab hb => lt_of_le_of_lt hab hb

theorem lt_countP_le_iff (h : Legal key rows order) (k : κ) {j : ℕ} (hj : j < order.length) :
    j < rows.countP (fun b => key b ≤ k) ↔ key order[j] ≤ k := by
  rw [← h.countP_eq]
  apply lt_countP_iff _ hj
  exact h.sorted.imp fun hab hb => hab.trans hb

/-- There is a legal order. -/
theorem insertionSort (key : α → κ) (rows : List α) :
    Legal key rows (rows.insertionSort fun a b => key a ≤ key b) where
  perm := List.perm_insertionSort _ _
  sorted := by
    apply List.pairwise_insertionSort

/-- Two neighbours with equal keys may change places. -/
theorem swap {a b : α} {before after : List α} (h : Legal key rows (before ++ a :: b :: after))
    (hkey : key a = key b) : Legal key rows (before ++ b :: a :: after) where
  perm := ((List.Perm.swap a b after).append_left before).trans h.perm
  sorted := by
    have hsame : (before ++ b :: a :: after).map key = (before ++ a :: b :: after).map key := by
      simp [hkey]
    have hsorted : ((before ++ a :: b :: after).map key).Pairwise (· ≤ ·) :=
      List.pairwise_map.mpr h.sorted
    rw [← hsame] at hsorted
    exact List.pairwise_map.mp hsorted

end Legal

/-! ### Clean boundaries -/

variable {key : α → κ} {rows order : List α} {limit : ℕ}

/-- The rows that come before the boundary in every legal order. -/
def firstRows (key : α → κ) (rows : List α) (boundary : ℕ) : List α :=
  rows.filter fun a => rows.countP (fun b => key b ≤ key a) ≤ boundary

/-- Without a tie across it, the boundary cuts every legal order into the same two sets of rows. -/
theorem Legal.take_perm (h : Legal key rows order) {boundary : ℕ}
    (hclean : ¬ TieAcross key rows boundary) :
    (order.take boundary).Perm (firstRows key rows boundary) := by
  set p : α → Bool := fun a => rows.countP (fun b => key b ≤ key a) ≤ boundary with hp
  have htake : ∀ a ∈ order.take boundary, p a := by
    intro a ha
    obtain ⟨j, hj, rfl⟩ := List.mem_take_iff_getElem.mp ha
    have hj' : j < order.length := by omega
    -- `a` is not below itself, so the smaller keys end before it
    have hbefore : ¬ j < rows.countP fun b => key b < key order[j] := by
      rw [h.lt_countP_lt_iff _ hj']
      exact lt_irrefl _
    by_contra hlate
    have hlt : ¬ rows.countP (fun b => key b ≤ key order[j]) ≤ boundary := by simpa [hp] using hlate
    exact hclean ⟨order[j], h.perm.mem_iff.mp (List.getElem_mem hj'), by omega, by omega⟩
  have hdrop : ∀ a ∈ order.drop boundary, ¬ p a := by
    intro a ha
    obtain ⟨j, hj, rfl⟩ := List.mem_drop_iff_getElem.mp ha
    have hat : boundary + j < rows.countP fun b => key b ≤ key order[boundary + j] :=
      (h.lt_countP_le_iff _ (by omega)).mpr le_rfl
    have hlt : ¬ rows.countP (fun b => key b ≤ key order[boundary + j]) ≤ boundary := by omega
    simpa [hp] using hlt
  have hfilter : order.filter p = order.take boundary := by
    conv_lhs => rw [← List.take_append_drop boundary order]
    rw [List.filter_append, List.filter_eq_self.mpr htake, List.filter_eq_nil_iff.mpr hdrop,
      List.append_nil]
  rw [← hfilter]
  exact h.perm.filter p

theorem firstRows_zero : firstRows key rows 0 = [] := by
  apply List.filter_eq_nil_iff.mpr
  intro a ha
  have hself : 0 < rows.countP fun b => key b ≤ key a :=
    List.countP_pos_iff.mpr ⟨a, ha, by simp⟩
  simpa using hself

theorem firstRows_of_le {boundary : ℕ} (h : rows.length ≤ boundary) :
    firstRows key rows boundary = rows := by
  apply List.filter_eq_self.mpr
  intro a _
  have hle : rows.countP (fun b => key b ≤ key a) ≤ rows.length := List.countP_le_length
  simpa using hle.trans h

/-- The first pages together are the rows before the boundary they end at. -/
theorem flatMap_page_perm {orders : ℕ → List α} (h : ∀ i, Legal key rows (orders i))
    (hclean : ∀ i, ¬ TieAcross key rows (i * limit)) (n : ℕ) :
    ((List.range n).flatMap fun i => page (orders i) limit (i * limit)).Perm
      (firstRows key rows (n * limit)) := by
  induction n with
  | zero => rw [Nat.zero_mul, firstRows_zero]; rfl
  | succ n ih =>
    have hnext : (orders n).take ((n + 1) * limit)
        = (orders n).take (n * limit) ++ page (orders n) limit (n * limit) := by
      rw [Nat.succ_mul, List.take_add, page]
    rw [List.range_succ, List.flatMap_append, List.flatMap_singleton]
    have hprev := ih.trans ((h n).take_perm (hclean n)).symm
    have hpage := hprev.append_right (page (orders n) limit (n * limit))
    rw [← hnext] at hpage
    exact hpage.trans ((h n).take_perm (hclean (n + 1)))

/-! ### Ties across a boundary -/

/-- The two rows at a boundary with a tie across it have the same key. -/
theorem TieAcross.exists_neighbours {boundary : ℕ} (htie : TieAcross key rows boundary) :
    ∃ before x y after, Legal key rows (before ++ x :: y :: after) ∧ key x = key y ∧
      before.length + 1 = boundary := by
  obtain ⟨a, -, hlow, hhigh⟩ := htie
  set order := rows.insertionSort fun a b => key a ≤ key b with horder
  have h : Legal key rows order := Legal.insertionSort key rows
  have hlength : boundary < order.length := by
    rw [h.perm.length_eq]
    exact hhigh.trans_le List.countP_le_length
  obtain ⟨m, rfl⟩ : ∃ m, boundary = m + 1 := ⟨boundary - 1, by omega⟩
  -- both positions are past the smaller keys and before the larger ones
  have hkey : ∀ j (hj : j < order.length), m ≤ j → j ≤ m + 1 → key order[j] = key a := by
    intro j hj hmj hjm
    apply le_antisymm
    · exact (h.lt_countP_le_iff (key a) hj).mp (by omega)
    · have hnot : ¬ key order[j] < key a := by
        rw [← h.lt_countP_lt_iff (key a) hj]
        omega
      exact not_lt.mp hnot
  refine ⟨order.take m, order[m], order[m + 1], order.drop (m + 2), ?_, ?_, ?_⟩
  · have hsplit : order.take m ++ order[m] :: order[m + 1] :: order.drop (m + 2) = order := by
      rw [← List.drop_eq_getElem_cons, ← List.drop_eq_getElem_cons, List.take_append_drop]
    rw [hsplit]
    exact h
  · rw [hkey m (by omega) (by omega) (by omega), hkey (m + 1) hlength (by omega) (by omega)]
  · rw [List.length_take]
    omega

theorem mem_page_iff {limit offset : ℕ} {a : α} :
    a ∈ page order limit offset
      ↔ ∃ j, ∃ h : j < order.length, offset ≤ j ∧ j < offset + limit ∧ order[j] = a := by
  rw [page, List.mem_take_iff_getElem]
  constructor
  · rintro ⟨j, hj, rfl⟩
    rw [List.length_drop] at hj
    exact ⟨offset + j, by omega, by omega, by omega, by rw [List.getElem_drop]⟩
  · rintro ⟨j, hj, hlow, hhigh, rfl⟩
    refine ⟨j - offset, by rw [List.length_drop]; omega, ?_⟩
    rw [List.getElem_drop]
    congr 1
    omega

theorem lt_pageCount_iff (hlimit : 1 ≤ limit) {total i : ℕ} :
    i < pageCount total limit ↔ i * limit < total := by
  rw [pageCount, Nat.lt_div_iff_mul_lt (by omega)]
  omega

/-- The page before the boundary, from one order, and the page after it, from another, can both list
the same row. -/
theorem not_lossless_of_tieAcross (hlimit : 1 ≤ limit) (hnodup : rows.Nodup) {i : ℕ}
    (htie : TieAcross key rows (i * limit)) : ¬ Lossless (Answers key rows) rows limit := by
  intro hlossless
  have hbelow : i * limit < rows.length := by
    obtain ⟨a, -, -, hhigh⟩ := htie
    exact hhigh.trans_le List.countP_le_length
  obtain ⟨before, x, y, after, horder, hkey, hboundary⟩ := htie.exists_neighbours
  obtain ⟨i, rfl⟩ : ∃ i', i = i' + 1 := ⟨i - 1, by
    cases i with
    | zero => omega
    | succ i => omega⟩
  have hswap := horder.swap hkey
  -- the page after the boundary is read from the order with the two rows exchanged
  set orders : ℕ → List α := fun j =>
    if j = i + 1 then before ++ y :: x :: after else before ++ x :: y :: after with horders
  have hlegal : ∀ j, Legal key rows (orders j) := by
    intro j
    rw [horders]
    dsimp only
    split_ifs
    · exact hswap
    · exact horder
  have hperm : ((List.range (pageCount rows.length limit)).flatMap
      fun j => page (orders j) limit (j * limit)).Perm rows :=
    hlossless (fun j => (page (orders j) limit (j * limit), rows.length))
      fun j => ⟨⟨orders j, hlegal j, rfl⟩, rfl⟩
  have hpages := List.nodup_flatMap.mp (hperm.nodup_iff.mpr hnodup)
  have hfirst : x ∈ page (orders i) limit (i * limit) := by
    rw [horders]
    dsimp only
    rw [if_neg (by omega), mem_page_iff]
    have hlt : before.length < (before ++ x :: y :: after).length := by simp
    refine ⟨before.length, hlt, ?_, ?_, by simp⟩
    · rw [Nat.succ_mul] at hboundary
      omega
    · rw [Nat.succ_mul] at hboundary
      omega
  have hsecond : x ∈ page (orders (i + 1)) limit ((i + 1) * limit) := by
    rw [horders]
    dsimp only
    rw [if_pos rfl, mem_page_iff]
    have hlt : before.length + 1 < (before ++ y :: x :: after).length := by simp
    refine ⟨before.length + 1, hlt, by omega, by omega, by simp⟩
  have hcount : i + 1 < pageCount rows.length limit := (lt_pageCount_iff hlimit).mpr hbelow
  have hdisjoint := List.pairwise_iff_getElem.mp hpages.2 i (i + 1)
    (by rw [List.length_range]; omega) (by rw [List.length_range]; exact hcount) (by omega)
  simp only [List.getElem_range] at hdisjoint
  exact hdisjoint hfirst hsecond

/-- **Paging is lossless exactly when no ties lie across a page boundary.** -/
theorem lossless_iff (hlimit : 1 ≤ limit) (hnodup : rows.Nodup) :
    Lossless (Answers key rows) rows limit ↔ ¬ TieAcrossPages key rows limit := by
  constructor
  · rintro hlossless ⟨i, htie⟩
    exact not_lossless_of_tieAcross hlimit hnodup htie hlossless
  · intro hties answers hanswers
    have hclean : ∀ i, ¬ TieAcross key rows (i * limit) := fun i htie => hties ⟨i, htie⟩
    choose orders hlegal hpage using fun i => (hanswers i).1
    have hpages : ((List.range (pageCount (answers 0).2 limit)).flatMap fun i => (answers i).1)
        = (List.range (pageCount rows.length limit)).flatMap fun i =>
            page (orders i) limit (i * limit) := by
      rw [(hanswers 0).2]
      simp only [hpage]
    have hall : rows.length ≤ pageCount rows.length limit * limit := by
      have hlast : ¬ pageCount rows.length limit * limit < rows.length := by
        rw [← lt_pageCount_iff hlimit]
        exact lt_irrefl _
      omega
    rw [hpages]
    have hperm := flatMap_page_perm hlegal hclean (pageCount rows.length limit)
    rwa [firstRows_of_le hall] at hperm

/-- Without a sort key all rows are tied, so nothing short of a single page will do. -/
theorem lossless_unsorted_iff (hlimit : 1 ≤ limit) (hnodup : rows.Nodup) :
    Lossless (Answers (fun _ => ()) rows) rows limit ↔ rows.length ≤ limit := by
  rw [lossless_iff hlimit hnodup]
  constructor
  · intro hclean
    by_contra hlong
    obtain ⟨a, ha⟩ : ∃ a, a ∈ rows := List.exists_mem_of_length_pos (by omega)
    exact hclean ⟨1, a, ha, by simp; omega, by simp; omega⟩
  · rintro hshort ⟨i, a, -, hlow, hhigh⟩
    cases i with
    | zero => simp at hlow
    | succ i =>
      have hle : limit ≤ (i + 1) * limit := Nat.le_mul_of_pos_left _ (by omega)
      simp at hhigh
      omega

end RoadVisionAI.Relational
