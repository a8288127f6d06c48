import RoadVisionAI.Knowledge.Equiv.Chunking
import RoadVisionAI.Python.Equiv.Str
import RoadVisionAI.Windows.Overlapping
import RoadVisionAI.Windows.Sorted

/-!
# The chunks are the windows of the words

With `0 ≤ overlap < chunk_size` (`Shape`) the loop of `chunk_pages` makes one chunk of each
overlapping window of the words (`chunkPages_windows`), and the text of a chunk splits into the
words of its window (`words_of_chunkOf`).  What holds of windows in general then holds of the
chunks: together they show the words of the pages once (`chunks_cover`), and each is cited with the
pages it is from (`chunks_cited`).
-/

namespace RoadVisionAI.Knowledge

open Python Windows

/-- The words of a chunk. -/
def Chunk.words (chunk : Chunk) : List String := split chunk.text

/-! ### One chunk -/

theorem chunkOf_eq_ok_iff {window : List (String × ℕ)} {index : ℕ} {chunk : Chunk} :
    chunkOf window index = .ok chunk ↔ ∃ first last, window.head? = some first ∧
      window.getLast? = some last ∧
      chunk = ⟨" ".intercalate (window.map Prod.fst), index, first.2, last.2⟩ := by
  unfold chunkOf
  constructor
  · intro h
    split at h
    · next first last hfirst hlast =>
      obtain rfl := Except.ok.inj h
      exact ⟨first, last, hfirst, hlast, rfl⟩
    · cases h
  · rintro ⟨first, last, hfirst, hlast, rfl⟩
    rw [hfirst, hlast]

theorem exists_chunkOf {window : List (String × ℕ)} (hne : window ≠ []) (index : ℕ) :
    ∃ chunk, chunkOf window index = .ok chunk :=
  ⟨_, chunkOf_eq_ok_iff.mpr
    ⟨_, _, List.head?_eq_some_head hne, List.getLast?_eq_some_getLast hne, rfl⟩⟩

theorem words_of_chunkOf {window : List (String × ℕ)} {index : ℕ} {chunk : Chunk}
    (hwords : ∀ x ∈ window, IsWord x.1.toList) (h : chunkOf window index = .ok chunk) :
    chunk.words = window.map Prod.fst := by
  obtain ⟨first, last, -, -, rfl⟩ := chunkOf_eq_ok_iff.mp h
  exact split_intercalate (List.forall_mem_map.mpr hwords)

/-! ### The loop -/

theorem slice_eq {α : Type} (xs : List α) (start size : ℕ) :
    slice xs start (start + size) = (xs.drop start).take size := by
  have hstart : sliceBound xs.length start = min start xs.length := by
    rw [sliceBound, if_neg (by omega), Int.toNat_natCast]
  have hstop : sliceBound xs.length (start + size) = min (start + size) xs.length := by
    rw [sliceBound, if_neg (by omega), ← Int.natCast_add, Int.toNat_natCast]
  rw [slice, hstart, hstop, ← List.take_eq_take_min]
  by_cases hle : start ≤ xs.length
  · rw [min_eq_left hle, List.take_drop]
  · -- past the end both are empty
    have hge : xs.length ≤ start := (not_le.mp hle).le
    rw [List.drop_eq_nil_of_le hge, List.take_nil, min_eq_right hge]
    apply List.drop_eq_nil_of_le
    rw [List.length_take]
    exact Nat.min_le_right ..

/-- The chunks are those of the windows. -/
def Renders (windows : List (List (String × ℕ))) (chunks : List Chunk) : Prop :=
  List.Forall₂ (fun window chunk => chunkOf window chunk.index = .ok chunk) windows chunks

/-- By induction on the fuel; the words from `start` on are what is left to cut. -/
theorem chunkLoop_windows (shape : Shape) {words : List (String × ℕ)} {fuel start : ℕ}
    (hfuel : words.length ≤ start + fuel) (index : ℕ) :
    ∃ chunks, chunkLoop words shape.size shape.overlap fuel start index = .ok chunks ∧
      Renders (shape.windows (words.drop start)) chunks := by
  induction fuel generalizing start index with
  | zero =>
    have hend : words.length ≤ start := hfuel
    refine ⟨[], rfl, ?_⟩
    rw [List.drop_eq_nil_of_le hend, Shape.windows_nil]
    exact .nil
  | succ fuel ih =>
    unfold chunkLoop
    by_cases hstart : start < words.length
    · have hne : words.drop start ≠ [] := by
        rw [← List.length_pos_iff, List.length_drop]
        omega
      have hsize : 0 < shape.size := Nat.zero_lt_of_lt shape.overlap_lt
      have hwindow : (words.drop start).take shape.size ≠ [] := by
        rw [← List.length_pos_iff, List.length_take]
        exact Nat.lt_min.mpr ⟨hsize, List.length_pos_iff.mpr hne⟩
      obtain ⟨chunk, hchunk⟩ := exists_chunkOf hwindow index
      have hself : chunkOf ((words.drop start).take shape.size) chunk.index = .ok chunk := by
        rw [index_chunkOf hchunk, hchunk]
      rw [if_pos (by omega), slice_eq, hchunk]
      by_cases hlast : words.length ≤ start + shape.size
      · -- the last window takes what is left
        have hle : (words.drop start).length ≤ shape.size := by rw [List.length_drop]; omega
        refine ⟨[chunk], by simp only [bind, Except.bind]; rw [if_pos (by omega)]; rfl, ?_⟩
        rw [List.take_of_length_le hle] at hself
        rw [Shape.windows_of_le hne hle]
        exact .cons hself .nil
      · have hlt : shape.size < (words.drop start).length := by rw [List.length_drop]; omega
        have hstep := shape.step_pos
        have hnext : words.length ≤ start + shape.step + fuel := by omega
        obtain ⟨chunks, hchunks, hrenders⟩ := ih hnext (index + 1)
        have hcast : (start : ℤ) + (shape.size - shape.overlap) = (start + shape.step : ℕ) := by
          have := shape.step_add_overlap
          omega
        refine ⟨chunk :: chunks, ?_, ?_⟩
        · simp only [bind, Except.bind, hcast, hchunks]
          rw [if_neg (by omega)]
          rfl
        · rw [Shape.windows_of_lt hlt, List.drop_drop]
          exact .cons hself hrenders
    · refine ⟨[], if_neg (by omega), ?_⟩
      rw [List.drop_eq_nil_of_le (not_lt.mp hstart), Shape.windows_nil]
      exact .nil

/-- `chunk_pages` renders the windows of the words, and numbers its chunks from zero. -/
theorem chunkPages_windows (shape : Shape) (pages : List String) :
    ∃ chunks, chunkPages pages shape.size shape.overlap = .ok chunks ∧
      chunks.map Chunk.index = List.range chunks.length ∧
      Renders (shape.windows (numberedWords pages)) chunks := by
  have hguard : ¬ (shape.size : ℤ) ≤ shape.overlap := by
    have := shape.overlap_lt
    omega
  have hfuel : (numberedWords pages).length ≤ 0 + (numberedWords pages).length := by
    rw [Nat.zero_add]
  obtain ⟨chunks, hchunks, hrenders⟩ := chunkLoop_windows shape hfuel 0
  have hpages : chunkPages pages shape.size shape.overlap = .ok chunks := by
    rw [chunkPages, if_neg hguard]
    exact hchunks
  refine ⟨chunks, hpages, ?_, hrenders⟩
  rw [index_chunkPages hpages, List.range_eq_range']

/-! ### The words and their pages -/

/-- The words of the pages, numbered from `k` on. -/
def numberedFrom (k : ℕ) (pages : List String) : List (String × ℕ) :=
  (pages.zipIdx k).flatMap fun page => (split page.1).map fun word => (word, page.2)

theorem numberedFrom_cons (k : ℕ) (page : String) (pages : List String) :
    numberedFrom k (page :: pages)
      = ((split page).map fun word => (word, k)) ++ numberedFrom (k + 1) pages := by
  rw [numberedFrom, List.zipIdx_cons, List.flatMap_cons]
  rfl

theorem numberedFrom_append (k : ℕ) (pages pages' : List String) :
    numberedFrom k (pages ++ pages')
      = numberedFrom k pages ++ numberedFrom (k + pages.length) pages' := by
  rw [numberedFrom, List.zipIdx_append, List.flatMap_append]
  rfl

theorem map_fst_numberedFrom (k : ℕ) (pages : List String) :
    (numberedFrom k pages).map Prod.fst = pages.flatMap split := by
  induction pages generalizing k with
  | nil => rfl
  | cons page pages ih =>
    rw [numberedFrom_cons, List.map_append, ih, List.map_map, List.flatMap_cons]
    congr 1
    exact List.map_id _

/-- The pages of the words. -/
theorem number_of_mem_numberedFrom {k : ℕ} {pages : List String} {x : String × ℕ}
    (hx : x ∈ numberedFrom k pages) : k ≤ x.2 ∧ x.2 < k + pages.length := by
  obtain ⟨⟨page, i⟩, hpage, hword⟩ := List.mem_flatMap.mp hx
  obtain ⟨word, -, rfl⟩ := List.mem_map.mp hword
  have hi := List.mem_zipIdx hpage
  omega

theorem isWord_of_mem_numberedWords {pages : List String} {x : String × ℕ}
    (hx : x ∈ numberedWords pages) : IsWord x.1.toList := by
  obtain ⟨page, -, hx⟩ := List.mem_flatMap.mp hx
  obtain ⟨word, hword, rfl⟩ := List.mem_map.mp hx
  exact isWord_of_mem_split hword

theorem sortedBy_numberedFrom (k : ℕ) (pages : List String) :
    SortedBy Prod.snd (numberedFrom k pages) := by
  induction pages generalizing k with
  | nil => exact .nil
  | cons page pages ih =>
    rw [numberedFrom_cons, SortedBy.append_iff]
    refine ⟨List.pairwise_map.mpr (List.pairwise_of_forall fun _ _ => le_rfl), ih (k + 1), ?_⟩
    intro x hx y hy
    obtain ⟨word, -, rfl⟩ := List.mem_map.mp hx
    have hy := number_of_mem_numberedFrom hy
    omega

/-- The words of the pages `first` to `last`, counted from one. -/
def pageWords (pages : List String) (first last : ℕ) : List String :=
  ((pages.take last).drop (first - 1)).flatMap split

/-- They are those with these numbers. -/
theorem map_fst_filter_numberedWords (pages : List String) {first last : ℕ} (hfirst : 1 ≤ first)
    (hle : first ≤ last) :
    ((numberedWords pages).filter fun x => first ≤ x.2 ∧ x.2 ≤ last).map Prod.fst
      = pageWords pages first last := by
  have hbefore : pages.take (first - 1) = (pages.take last).take (first - 1) := by
    rw [List.take_take, min_eq_left (by omega)]
  have hsplit : pages.take (first - 1) ++ (pages.take last).drop (first - 1) ++ pages.drop last
      = pages := by
    rw [hbefore, List.take_append_drop, List.take_append_drop]
  have hwords : numberedWords pages = numberedFrom 1 (pages.take (first - 1)) ++
      numberedFrom (1 + (pages.take (first - 1)).length) ((pages.take last).drop (first - 1)) ++
      numberedFrom (1 + (pages.take (first - 1) ++ (pages.take last).drop (first - 1)).length)
        (pages.drop last) := by
    rw [← numberedFrom_append, ← numberedFrom_append, hsplit]
    rfl
  rw [hwords, List.filter_append, List.filter_append, List.filter_eq_nil_iff.mpr,
    List.filter_eq_self.mpr, List.filter_eq_nil_iff.mpr, List.nil_append, List.append_nil,
    map_fst_numberedFrom, pageWords]
  · intro x hx
    have hx := number_of_mem_numberedFrom hx
    simp only [List.length_append, List.length_take, List.length_drop] at hx
    simp only [decide_eq_true_eq]
    omega
  · intro x hx
    have hx := number_of_mem_numberedFrom hx
    simp only [List.length_take, List.length_drop] at hx
    simp only [decide_eq_true_eq]
    omega
  · intro x hx
    have hx := number_of_mem_numberedFrom hx
    simp only [List.length_take] at hx
    simp only [decide_eq_true_eq]
    omega

theorem length_pageWords_self (pages : List String) {page : ℕ} (hpage : 1 ≤ page) :
    (pageWords pages page page).length
      = ((numberedWords pages).filter fun x => x.2 = page).length := by
  rw [← map_fst_filter_numberedWords pages hpage le_rfl, List.length_map]
  congr 1
  apply List.filter_congr
  intro x _
  exact decide_eq_decide.mpr ⟨fun hx => le_antisymm hx.2 hx.1, fun hx => ⟨hx.ge, hx.le⟩⟩

/-! ### The chunks -/

theorem Renders.map_words {windows : List (List (String × ℕ))} {chunks : List Chunk}
    (h : Renders windows chunks) (hwords : ∀ w ∈ windows, ∀ x ∈ w, IsWord x.1.toList) :
    chunks.map Chunk.words = windows.map (List.map Prod.fst) := by
  induction h with
  | nil => rfl
  | cons hchunk _ ih =>
    obtain ⟨hfirst, hrest⟩ := List.forall_mem_cons.mp hwords
    rw [List.map_cons, List.map_cons, words_of_chunkOf hfirst hchunk, ih hrest]

/-- The chunks show the windows of the words of all pages. -/
theorem map_words_chunks {shape : Shape} {pages : List String} {chunks : List Chunk}
    (h : Renders (shape.windows (numberedWords pages)) chunks) :
    chunks.map Chunk.words = shape.windows (pages.flatMap split) := by
  have hfst : (numberedWords pages).map Prod.fst = pages.flatMap split :=
    map_fst_numberedFrom 1 pages
  have hwords : ∀ w ∈ shape.windows (numberedWords pages), ∀ x ∈ w, IsWord x.1.toList :=
    fun w hw x hx => isWord_of_mem_numberedWords ((Shape.infix_of_mem_windows hw).mem hx)
  rw [h.map_words hwords, ← hfst, Shape.windows_map]

/-- **Chunking loses and invents nothing.**  The chunks are numbered from zero and show the words of
the pages once when each is taken without what it shares with the one before; a chunk and the next
share the overlap, every chunk but the last is full, and every one but the first has a word of its
own. -/
theorem chunks_cover (shape : Shape) (pages : List String) :
    ∃ chunks, chunkPages pages shape.size shape.overlap = .ok chunks ∧
      chunks.map Chunk.index = List.range chunks.length ∧
      shape.join (chunks.map Chunk.words) = pages.flatMap split ∧
      (chunks.IsChain fun chunk next =>
        chunk.words.rtake shape.overlap = next.words.take shape.overlap) ∧
      (∀ chunk ∈ chunks.dropLast, chunk.words.length = shape.size) ∧
      ∀ chunk ∈ chunks.tail, shape.overlap < chunk.words.length := by
  obtain ⟨chunks, hchunks, hindex, hrenders⟩ := chunkPages_windows shape pages
  have hwords := map_words_chunks hrenders
  refine ⟨chunks, hchunks, hindex, ?_, ?_, ?_, ?_⟩
  · rw [hwords, Shape.join_windows]
  · have hchain := shape.isChain_windows (pages.flatMap split)
    rw [← hwords] at hchain
    exact (List.isChain_map Chunk.words).mp hchain
  · intro chunk hchunk
    have hmem : chunk.words ∈ (shape.windows (pages.flatMap split)).dropLast := by
      rw [← hwords, ← List.map_dropLast]
      exact List.mem_map_of_mem hchunk
    exact Shape.length_of_mem_dropLast_windows hmem
  · intro chunk hchunk
    have hmem : chunk.words ∈ (shape.windows (pages.flatMap split)).tail := by
      rw [← hwords, ← List.map_tail]
      exact List.mem_map_of_mem hchunk
    exact Shape.lt_length_of_mem_tail_windows hmem

/-- The words of the chunk are a part of those of its pages, in one piece, which begins on the first
of them and ends on the last. -/
def Chunk.Cites (chunk : Chunk) (pages : List String) : Prop :=
  chunk.words ≠ [] ∧ ∃ before after,
    pageWords pages chunk.pageStart chunk.pageEnd = before ++ chunk.words ++ after ∧
    before.length < (pageWords pages chunk.pageStart chunk.pageStart).length ∧
    after.length < (pageWords pages chunk.pageEnd chunk.pageEnd).length

theorem exists_of_renders {windows : List (List (String × ℕ))} {chunks : List Chunk}
    (h : Renders windows chunks) {chunk : Chunk} (hchunk : chunk ∈ chunks) :
    ∃ window ∈ windows, chunkOf window chunk.index = .ok chunk := by
  obtain ⟨i, hi, rfl⟩ := List.mem_iff_getElem.mp hchunk
  have hlength : i < windows.length := h.length_eq ▸ hi
  exact ⟨windows[i], List.getElem_mem hlength, h.get hlength hi⟩

/-- The page numbers a chunk gets. -/
theorem cites_of_chunkOf {pages : List String} {window : List (String × ℕ)} {index : ℕ}
    {chunk : Chunk} (hsub : window <:+: numberedWords pages)
    (h : chunkOf window index = .ok chunk) :
    1 ≤ chunk.pageStart ∧ chunk.pageStart ≤ chunk.pageEnd ∧ chunk.pageEnd ≤ pages.length ∧
      chunk.Cites pages := by
  have hwords := words_of_chunkOf (fun x hx => isWord_of_mem_numberedWords (hsub.mem hx)) h
  obtain ⟨first, last, hfirst, hlast, rfl⟩ := chunkOf_eq_ok_iff.mp h
  obtain ⟨before, after, heq⟩ := hsub
  have hsorted : SortedBy Prod.snd (before ++ window ++ after) := by
    rw [heq]
    exact sortedBy_numberedFrom 1 pages
  have hmemFirst : first ∈ numberedWords pages := by
    rw [← heq]
    exact List.mem_append_left _ (List.mem_append_right _ (List.mem_of_mem_head? hfirst))
  have hmemLast : last ∈ numberedWords pages := by
    rw [← heq]
    exact List.mem_append_left _ (List.mem_append_right _ (List.mem_of_mem_getLast? hlast))
  have hone : 1 ≤ first.2 := (number_of_mem_numberedFrom hmemFirst).1
  have hend : last.2 < 1 + pages.length := (number_of_mem_numberedFrom hmemLast).2
  have hle : first.2 ≤ last.2 :=
    (hsorted.sublist (List.IsInfix.sublist ⟨before, after, rfl⟩)).le_last hlast
      (List.mem_of_mem_head? hfirst)
  refine ⟨hone, hle, Nat.lt_one_add_iff.mp hend, ?_, ?_⟩
  · rw [hwords]
    intro hnil
    rw [List.map_eq_nil_iff.mp hnil] at hfirst
    cases hfirst
  · refine ⟨(before.filter fun x => x.2 = first.2).map Prod.fst,
      (after.filter fun x => x.2 = last.2).map Prod.fst, ?_, ?_, ?_⟩
    · rw [hwords, ← List.map_append, ← List.map_append,
        ← map_fst_filter_numberedWords pages hone hle, ← heq,
        hsorted.filter_eq_of_infix hfirst hlast]
    · rw [length_pageWords_self pages hone, ← heq, List.length_map]
      exact length_filter_lt_left hfirst
    · rw [length_pageWords_self pages (hone.trans hle), ← heq, List.length_map]
      exact length_filter_lt_right hlast

/-- Page numbers do not decrease along the chunks. -/
theorem pairwise_pages {shape : Shape} {pages : List String} {chunks : List Chunk}
    (h : Renders (shape.windows (numberedWords pages)) chunks) :
    chunks.Pairwise fun chunk later =>
      chunk.pageStart ≤ later.pageStart ∧ chunk.pageEnd ≤ later.pageEnd := by
  obtain ⟨count, hcount⟩ := shape.windows_eq_map (numberedWords pages)
  rw [List.pairwise_iff_getElem]
  intro i j hi hj hij
  have hlength := h.length_eq
  have hwindow : ∀ k (hk : k < chunks.length),
      chunkOf (((numberedWords pages).drop (k * shape.step)).take shape.size) chunks[k].index
        = .ok chunks[k] := by
    intro k hk
    have hk' : k < (shape.windows (numberedWords pages)).length := hlength ▸ hk
    have hchunk := h.get hk' hk
    simp only [List.get_eq_getElem, hcount, List.getElem_map, List.getElem_range] at hchunk
    exact hchunk
  have hsorted : SortedBy Prod.snd (numberedWords pages) := sortedBy_numberedFrom 1 pages
  have hplaces : i * shape.step ≤ j * shape.step := Nat.mul_le_mul_right _ hij.le
  obtain ⟨first, last, hfirst, hlast, hi⟩ := chunkOf_eq_ok_iff.mp (hwindow i hi)
  obtain ⟨first', last', hfirst', hlast', hj⟩ := chunkOf_eq_ok_iff.mp (hwindow j hj)
  rw [hi, hj]
  exact ⟨hsorted.key_head_le hplaces hfirst hfirst', hsorted.key_last_le hplaces hlast hlast'⟩

/-- **Citations point at the right pages.** -/
theorem chunks_cited (shape : Shape) (pages : List String) :
    ∃ chunks, chunkPages pages shape.size shape.overlap = .ok chunks ∧
      (∀ chunk ∈ chunks, 1 ≤ chunk.pageStart ∧ chunk.pageStart ≤ chunk.pageEnd ∧
        chunk.pageEnd ≤ pages.length ∧ chunk.Cites pages) ∧
      (chunks.map Chunk.pageStart).Pairwise (· ≤ ·) ∧
      (chunks.map Chunk.pageEnd).Pairwise (· ≤ ·) := by
  obtain ⟨chunks, hchunks, -, hrenders⟩ := chunkPages_windows shape pages
  have hpages := pairwise_pages hrenders
  refine ⟨chunks, hchunks, ?_, ?_, ?_⟩
  · intro chunk hchunk
    obtain ⟨window, hwindow, hchunk⟩ := exists_of_renders hrenders hchunk
    exact cites_of_chunkOf (Shape.infix_of_mem_windows hwindow) hchunk
  · exact List.pairwise_map.mpr (hpages.imp fun h => h.1)
  · exact List.pairwise_map.mpr (hpages.imp fun h => h.2)

end RoadVisionAI.Knowledge
