import RoadVisionAI.Knowledge.Equiv.Windows
import Mathlib.Tactic.Ring

/-!
# The guard of the chunker

`chunk_pages` refuses a `chunk_size` that is not greater than `overlap`, so that every round of its
loop goes on.  That is what the loop needs to end, whatever the signs of the two
(`exists_loopEnds`): `LoopEnds` is the loop without fuel, and `chunkLoop` computes what it ends with
(`loopEnds_iff`).  It is not all that `window[0]` needs: with a size that is not positive a window
can be empty (`slice_ne_nil_iff`), and `guardSuffices_iff` says for which parameters none is.
-/

namespace RoadVisionAI.Knowledge

open Python Windows

variable {words : List (String × ℕ)} {chunkSize overlap start : ℤ} {index fuel : ℕ}
  {outcome : Except PyException (List Chunk)}

/-! ### The loop without fuel -/

/-- The `while` loop ends, from where it is at `start` and `index`, with the chunks it appends or
with the exception it raises. -/
inductive LoopEnds (words : List (String × ℕ)) (chunkSize overlap : ℤ) :
    ℤ → ℕ → Except PyException (List Chunk) → Prop
  | done {start : ℤ} {index : ℕ} (hstart : words.length ≤ start) :
    LoopEnds words chunkSize overlap start index (.ok [])
  | raise {start : ℤ} {index : ℕ} {exc : PyException} (hstart : start < words.length)
    (hchunk : chunkOf (slice words start (start + chunkSize)) index = .error exc) :
    LoopEnds words chunkSize overlap start index (.error exc)
  | last {start : ℤ} {index : ℕ} {chunk : Chunk} (hstart : start < words.length)
    (hchunk : chunkOf (slice words start (start + chunkSize)) index = .ok chunk)
    (hlast : words.length ≤ start + chunkSize) :
    LoopEnds words chunkSize overlap start index (.ok [chunk])
  | next {start : ℤ} {index : ℕ} {chunk : Chunk} {outcome : Except PyException (List Chunk)}
    (hstart : start < words.length)
    (hchunk : chunkOf (slice words start (start + chunkSize)) index = .ok chunk)
    (hnext : ¬ words.length ≤ start + chunkSize)
    (hrest : LoopEnds words chunkSize overlap (start + (chunkSize - overlap)) (index + 1) outcome) :
    LoopEnds words chunkSize overlap start index (outcome.map (chunk :: ·))

section

variable {chunk : Chunk} {exc : PyException}

theorem chunkLoop_of_le (hstart : (words.length : ℤ) ≤ start) :
    chunkLoop words chunkSize overlap fuel start index = .ok [] := by
  cases fuel with
  | zero => rfl
  | succ fuel => rw [chunkLoop, if_neg (not_lt.mpr hstart)]

theorem chunkLoop_of_error (hstart : start < words.length)
    (hchunk : chunkOf (slice words start (start + chunkSize)) index = .error exc) :
    chunkLoop words chunkSize overlap (fuel + 1) start index = .error exc := by
  rw [chunkLoop, if_pos hstart, hchunk]
  rfl

theorem chunkLoop_of_last (hstart : start < words.length)
    (hchunk : chunkOf (slice words start (start + chunkSize)) index = .ok chunk)
    (hlast : words.length ≤ start + chunkSize) :
    chunkLoop words chunkSize overlap (fuel + 1) start index = .ok [chunk] := by
  rw [chunkLoop, if_pos hstart, hchunk]
  exact if_pos hlast

theorem chunkLoop_of_next (hstart : start < words.length)
    (hchunk : chunkOf (slice words start (start + chunkSize)) index = .ok chunk)
    (hnext : ¬ words.length ≤ start + chunkSize) :
    chunkLoop words chunkSize overlap (fuel + 1) start index
      = (chunkLoop words chunkSize overlap fuel (start + (chunkSize - overlap)) (index + 1)).map
          (chunk :: ·) := by
  rw [chunkLoop, if_pos hstart, hchunk]
  simp only [bind, Except.bind, if_neg hnext]
  cases chunkLoop words chunkSize overlap fuel (start + (chunkSize - overlap)) (index + 1) <;> rfl

end

/-- With fuel for the words from `start` on, the loop on fuel ends as the loop does.  By induction
on the fuel; a round that goes on takes `start` at least one further. -/
theorem loopEnds_chunkLoop (hstep : overlap < chunkSize)
    (hfuel : (words.length : ℤ) ≤ start + fuel) :
    LoopEnds words chunkSize overlap start index
      (chunkLoop words chunkSize overlap fuel start index) := by
  induction fuel generalizing start index with
  | zero => exact .done (by omega)
  | succ fuel ih =>
    by_cases hstart : start < words.length
    · cases hchunk : chunkOf (slice words start (start + chunkSize)) index with
      | error exc =>
        rw [chunkLoop_of_error hstart hchunk]
        exact .raise hstart hchunk
      | ok chunk =>
        by_cases hlast : words.length ≤ start + chunkSize
        · rw [chunkLoop_of_last hstart hchunk hlast]
          exact .last hstart hchunk hlast
        · rw [chunkLoop_of_next hstart hchunk hlast]
          exact .next hstart hchunk hlast (ih (by omega))
    · have hend := not_lt.mp hstart
      rw [chunkLoop_of_le hend]
      exact .done hend

/-- It ends in one way.  By induction on the rounds. -/
theorem LoopEnds.eq_chunkLoop (h : LoopEnds words chunkSize overlap start index outcome)
    (hstep : overlap < chunkSize) (hfuel : (words.length : ℤ) ≤ start + fuel) :
    outcome = chunkLoop words chunkSize overlap fuel start index := by
  induction h generalizing fuel with
  | done hstart => rw [chunkLoop_of_le hstart]
  | raise hstart hchunk =>
    obtain ⟨fuel, rfl⟩ : ∃ m, fuel = m + 1 := ⟨fuel - 1, by omega⟩
    rw [chunkLoop_of_error hstart hchunk]
  | last hstart hchunk hlast =>
    obtain ⟨fuel, rfl⟩ : ∃ m, fuel = m + 1 := ⟨fuel - 1, by omega⟩
    rw [chunkLoop_of_last hstart hchunk hlast]
  | next hstart hchunk hnext _ ih =>
    obtain ⟨fuel, rfl⟩ : ∃ m, fuel = m + 1 := ⟨fuel - 1, by omega⟩
    have hrest : _ = chunkLoop words chunkSize overlap fuel _ _ := ih (by omega)
    rw [chunkLoop_of_next hstart hchunk hnext, hrest]

theorem loopEnds_iff (hstep : overlap < chunkSize) (hfuel : (words.length : ℤ) ≤ start + fuel) :
    LoopEnds words chunkSize overlap start index outcome ↔
      outcome = chunkLoop words chunkSize overlap fuel start index := by
  constructor
  · exact fun h => h.eq_chunkLoop hstep hfuel
  · rintro rfl
    exact loopEnds_chunkLoop hstep hfuel

/-- Past the guard the loop ends, whatever the parameters. -/
theorem exists_loopEnds (hstep : overlap < chunkSize) (words : List (String × ℕ)) (start : ℤ)
    (index : ℕ) : ∃ outcome, LoopEnds words chunkSize overlap start index outcome := by
  have hfuel : (words.length : ℤ) ≤ start + (words.length - start).toNat := by omega
  exact ⟨_, loopEnds_chunkLoop hstep hfuel⟩

/-! ### Windows -/

/-- A window that starts at a word is not empty if its size is positive, or if its end is counted
from the end of the list and comes after its start. -/
theorem slice_ne_nil_iff {α : Type} {xs : List α} {size : ℤ} (hpos : 0 ≤ start)
    (hstart : start < xs.length) :
    slice xs start (start + size) ≠ [] ↔ 0 < size ∨ start + size < 0 ∧ 0 < xs.length + size := by
  have hfirst : sliceBound xs.length start = start.toNat := by
    rw [sliceBound, if_neg (not_lt.mpr hpos), Nat.min_eq_left (by omega)]
  have hlength : (slice xs start (start + size)).length
      = min (sliceBound xs.length (start + size)) xs.length - start.toNat := by
    rw [slice, List.length_drop, List.length_take, hfirst]
  rw [← List.length_pos_iff, hlength]
  unfold sliceBound
  split_ifs <;> omega

theorem chunkOf_nil (index : ℕ) :
    chunkOf [] index = .error (.indexError "list index out of range") := rfl

/-- Past the guard nothing but the index of an empty window raises.  By induction on the rounds. -/
theorem LoopEnds.raisesOnly (h : LoopEnds words chunkSize overlap start index outcome) :
    RaisesOnly (· = .indexError "list index out of range") outcome := by
  induction h with
  | done | last => exact raisesOnly_ok _
  | raise _ hchunk =>
    intro exc hexc
    obtain rfl := Except.error.inj hexc
    unfold chunkOf at hchunk
    split at hchunk
    · cases hchunk
    · exact (Except.error.inj hchunk).symm
  | @next _ _ _ outcome _ _ _ _ ih =>
    intro exc hexc
    cases outcome with
    | ok chunks => cases hexc
    | error exc' => exact ih exc hexc

/-- A chunk has the words of its window, of which there are some. -/
theorem words_ne_nil_of_chunkOf {window : List (String × ℕ)} {chunk : Chunk}
    (hwords : ∀ x ∈ window, IsWord x.1.toList) (h : chunkOf window index = .ok chunk) :
    chunk.words ≠ [] := by
  rw [words_of_chunkOf hwords h]
  rintro hnil
  obtain rfl := List.map_eq_nil_iff.mp hnil
  rw [chunkOf_nil] at h
  cases h

/-- By induction on the rounds. -/
theorem LoopEnds.words_ne_nil (h : LoopEnds words chunkSize overlap start index outcome)
    (hwords : ∀ x ∈ words, IsWord x.1.toList) :
    ∀ chunks, outcome = .ok chunks → ∀ chunk ∈ chunks, chunk.words ≠ [] := by
  have hslice : ∀ {start stop : ℤ}, ∀ x ∈ slice words start stop, IsWord x.1.toList :=
    fun x hx => hwords x (List.mem_of_mem_take (List.mem_of_mem_drop hx))
  induction h with
  | done =>
    rintro _ ⟨⟩
    exact List.forall_mem_nil _
  | raise => rintro _ ⟨⟩
  | last _ hchunk =>
    rintro _ ⟨⟩
    exact List.forall_mem_singleton.mpr (words_ne_nil_of_chunkOf hslice hchunk)
  | next _ hchunk _ _ ih =>
    intro chunks hchunks
    obtain ⟨rest, hrest, rfl⟩ := map_eq_ok_iff.mp hchunks
    exact List.forall_mem_cons.mpr ⟨words_ne_nil_of_chunkOf hslice hchunk, ih rest hrest⟩

/-! ### Which parameters the guard is enough for -/

/-- Windows of a positive size are not empty.  By induction on the fuel. -/
theorem isOk_chunkLoop_of_pos (hstep : overlap < chunkSize) (hsize : 0 < chunkSize)
    (hpos : 0 ≤ start) :
    ∃ chunks, chunkLoop words chunkSize overlap fuel start index = .ok chunks := by
  induction fuel generalizing start index with
  | zero => exact ⟨[], rfl⟩
  | succ fuel ih =>
    by_cases hstart : start < words.length
    · obtain ⟨chunk, hchunk⟩ :=
        exists_chunkOf ((slice_ne_nil_iff hpos hstart).mpr (Or.inl hsize)) index
      by_cases hlast : words.length ≤ start + chunkSize
      · exact ⟨_, chunkLoop_of_last hstart hchunk hlast⟩
      · obtain ⟨chunks, hchunks⟩ : ∃ chunks, chunkLoop words chunkSize overlap fuel
            (start + (chunkSize - overlap)) (index + 1) = .ok chunks := ih (by omega)
        refine ⟨chunk :: chunks, ?_⟩
        rw [chunkLoop_of_next hstart hchunk hlast, hchunks]
        rfl
    · exact ⟨_, chunkLoop_of_le (not_lt.mp hstart)⟩

/-- One round with a size that is not positive returns if its window is not empty and the rest of
the loop returns. -/
theorem isOk_chunkLoop_succ_iff (hsize : chunkSize ≤ 0) (hpos : 0 ≤ start)
    (hstart : start < words.length) :
    (∃ chunks, chunkLoop words chunkSize overlap (fuel + 1) start index = .ok chunks) ↔
      (start + chunkSize < 0 ∧ 0 < words.length + chunkSize) ∧
        ∃ chunks, chunkLoop words chunkSize overlap fuel (start + (chunkSize - overlap)) (index + 1)
          = .ok chunks := by
  by_cases hwindow : start + chunkSize < 0 ∧ 0 < words.length + chunkSize
  · obtain ⟨chunk, hchunk⟩ :=
      exists_chunkOf ((slice_ne_nil_iff hpos hstart).mpr (Or.inr hwindow)) index
    rw [chunkLoop_of_next hstart hchunk (by omega), and_iff_right hwindow]
    simp only [map_eq_ok_iff]
    constructor
    · rintro ⟨_, rest, hrest, -⟩
      exact ⟨rest, hrest⟩
    · rintro ⟨rest, hrest⟩
      exact ⟨_, rest, hrest, rfl⟩
  · have hempty : slice words start (start + chunkSize) = [] := by
      by_contra hne
      rcases (slice_ne_nil_iff hpos hstart).mp hne with hsize' | hwindow'
      · omega
      · exact hwindow hwindow'
    have hchunk : chunkOf (slice words start (start + chunkSize)) index
        = .error (.indexError "list index out of range") := by
      rw [hempty, chunkOf_nil]
    rw [chunkLoop_of_error hstart hchunk]
    exact iff_of_false (by rintro ⟨_, ⟨⟩⟩) fun h => hwindow h.1

/-- With a size that is not positive, every round must come before the end of its window, counted
from the end of the words.  By induction on the fuel. -/
theorem isOk_chunkLoop_iff_of_nonpos (hstep : overlap < chunkSize) (hsize : chunkSize ≤ 0)
    (hpos : 0 ≤ start) (hfuel : (words.length : ℤ) ≤ start + fuel) :
    (∃ chunks, chunkLoop words chunkSize overlap fuel start index = .ok chunks) ↔
      ∀ k : ℕ, start + k * (chunkSize - overlap) < words.length →
        start + k * (chunkSize - overlap) + chunkSize < 0 ∧ 0 < words.length + chunkSize := by
  induction fuel generalizing start index with
  | zero =>
    refine iff_of_true ⟨[], rfl⟩ fun k hk => ?_
    have hmul : 0 ≤ k * (chunkSize - overlap) := Int.mul_nonneg (by omega) (by omega)
    omega
  | succ fuel ih =>
    by_cases hstart : start < words.length
    · have hshift : ∀ k : ℕ, start + (chunkSize - overlap) + k * (chunkSize - overlap)
          = start + (k + 1 : ℕ) * (chunkSize - overlap) := by
        intro k
        push_cast
        ring
      -- the first round, and the rounds from the next one on
      rw [← Nat.and_forall_add_one]
      simp only [Nat.cast_zero, zero_mul, add_zero, hstart, true_implies, ← hshift]
      rw [← @ih (start + (chunkSize - overlap)) (index + 1) (by omega) (by omega)]
      exact isOk_chunkLoop_succ_iff hsize hpos hstart
    · refine iff_of_true ⟨_, chunkLoop_of_le (not_lt.mp hstart)⟩ fun k hk => ?_
      have hmul : 0 ≤ k * (chunkSize - overlap) := Int.mul_nonneg (by omega) (by omega)
      omega

/-- The first multiple of `step` from `-s` on is that of the ceiling of `-s / step`. -/
theorem forall_multiple_lt_iff {n step s : ℤ} (hstep : 0 < step) (hs : s ≤ 0) :
    (∀ k : ℕ, k * step < n → k * step + s < 0) ↔ n ≤ -(s / step) * step := by
  have hle : s / step * step ≤ s := Int.ediv_mul_le s hstep.ne'
  have hlt : s < s / step * step + step := by
    have h := Int.lt_ediv_add_one_mul_self s hstep
    rwa [add_mul, one_mul] at h
  constructor
  · intro h
    have hq : s / step ≤ 0 := Int.ediv_nonpos_of_nonpos_of_neg hs hstep
    obtain ⟨k, hk⟩ : ∃ k : ℕ, (k : ℤ) = -(s / step) := Int.eq_ofNat_of_zero_le (by omega) |>.imp
      fun _ => Eq.symm
    by_contra hn
    rw [← hk] at hn
    have hpast := h k (not_le.mp hn)
    rw [hk, neg_mul] at hpast
    omega
  · intro hn k hk
    have hkq : (k : ℤ) < -(s / step) := Int.lt_of_mul_lt_mul_right (hk.trans_le hn) hstep.le
    have hmul : (k + 1) * step ≤ -(s / step) * step :=
      Int.mul_le_mul_of_nonneg_right hkq hstep.le
    rw [add_mul, one_mul, neg_mul] at hmul
    omega

/-- The call raises at the guard; or else its loop ends, indexes no empty window, and every chunk
has a word. -/
def GuardSuffices (pages : List String) (chunkSize overlap : ℤ) : Prop :=
  chunkPages pages chunkSize overlap
      = .error (.valueError "chunk_size must be greater than overlap") ∨
    ∃ chunks, chunkPages pages chunkSize overlap = .ok chunks ∧
      LoopEnds (numberedWords pages) chunkSize overlap 0 0 (.ok chunks) ∧
      ∀ chunk ∈ chunks, chunk.words ≠ []

/-- The guard refuses the parameters, there is no word, or the size is positive; or there are more
words than it takes away, and the loop is past the last of them at the first round whose window
would end counted from the start. -/
def WindowsFilled (count : ℕ) (chunkSize overlap : ℤ) : Prop :=
  chunkSize ≤ overlap ∨ count = 0 ∨ 0 < chunkSize ∨
    0 < count + chunkSize ∧
      count ≤ -(chunkSize / (chunkSize - overlap)) * (chunkSize - overlap)

instance (count : ℕ) (chunkSize overlap : ℤ) : Decidable (WindowsFilled count chunkSize overlap) :=
  inferInstanceAs (Decidable (_ ∨ _ ∨ _ ∨ _ ∧ _))

theorem chunkPages_of_le {pages : List String} (h : chunkSize ≤ overlap) :
    chunkPages pages chunkSize overlap
      = .error (.valueError "chunk_size must be greater than overlap") :=
  if_pos h

theorem chunkPages_of_lt {pages : List String} (h : overlap < chunkSize) :
    chunkPages pages chunkSize overlap
      = chunkLoop (numberedWords pages) chunkSize overlap (numberedWords pages).length 0 0 :=
  if_neg (not_le.mpr h)

/-- Past the guard the call returns exactly when no window is empty. -/
theorem isOk_chunkPages_iff {pages : List String} (hstep : overlap < chunkSize) :
    (∃ chunks, chunkPages pages chunkSize overlap = .ok chunks) ↔
      WindowsFilled (numberedWords pages).length chunkSize overlap := by
  rw [chunkPages_of_lt hstep, WindowsFilled, or_iff_right (not_le.mpr hstep)]
  set count := (numberedWords pages).length
  rcases lt_or_ge 0 chunkSize with hsize | hsize
  · exact iff_of_true (isOk_chunkLoop_of_pos hstep hsize le_rfl) (Or.inr (Or.inl hsize))
  · rw [isOk_chunkLoop_iff_of_nonpos hstep hsize le_rfl (zero_add _).ge,
      or_iff_right (not_lt.mpr hsize), ← forall_multiple_lt_iff (by omega) hsize]
    simp only [zero_add]
    rcases Nat.eq_zero_or_pos count with hcount | hcount
    · -- no round is made
      refine iff_of_true (fun k hk => ?_) (Or.inl hcount)
      have hmul : 0 ≤ k * (chunkSize - overlap) := Int.mul_nonneg (by omega) (by omega)
      omega
    · rw [or_iff_right hcount.ne']
      constructor
      · intro h
        exact ⟨(h 0 (by omega)).2, fun k hk => (h k hk).1⟩
      · rintro ⟨hroom, h⟩ k hk
        exact ⟨h k hk, hroom⟩

/-- **The guard of `chunk_pages`.**  Whatever the pages and the parameters, the call raises at the
guard or gives chunks with words exactly when the windows are filled. -/
theorem guardSuffices_iff (pages : List String) (chunkSize overlap : ℤ) :
    GuardSuffices pages chunkSize overlap ↔
      WindowsFilled (pages.flatMap split).length chunkSize overlap := by
  have hcount : (pages.flatMap split).length = (numberedWords pages).length := by
    rw [← map_fst_numberedFrom 1 pages, List.length_map]
    rfl
  rw [hcount]
  rcases le_or_gt chunkSize overlap with hguard | hstep
  · exact iff_of_true (Or.inl (chunkPages_of_le hguard)) (Or.inl hguard)
  · have hends : LoopEnds (numberedWords pages) chunkSize overlap 0 0
        (chunkPages pages chunkSize overlap) := by
      rw [chunkPages_of_lt hstep]
      exact loopEnds_chunkLoop hstep (zero_add _).ge
    rw [← isOk_chunkPages_iff hstep]
    constructor
    · rintro (hraise | ⟨chunks, hchunks, -⟩)
      · -- past the guard nothing raises a `ValueError`
        cases hends.raisesOnly _ hraise
      · exact ⟨chunks, hchunks⟩
    · rintro ⟨chunks, hchunks⟩
      have hwords := hends.words_ne_nil (fun _ hx => isWord_of_mem_numberedWords hx) chunks hchunks
      rw [hchunks] at hends
      exact Or.inr ⟨chunks, hchunks, hends, hwords⟩

/-- A size below zero leaves words out at the end. -/
example : chunkPages ["a b c"] (-1) (-5) = .ok [⟨"a b", 0, 1, 1⟩] := by decide

/-- One word, and windows of no words. -/
theorem not_guardSuffices_emptyWindow : ¬ GuardSuffices ["chaussée"] 0 (-1) := by
  have hraise : chunkPages ["chaussée"] 0 (-1)
      = .error (.indexError "list index out of range") := by
    decide
  rintro (h | ⟨_, h, -⟩)
  · rw [hraise] at h
    cases h
  · rw [hraise] at h
    cases h

end RoadVisionAI.Knowledge
