import RoadVisionAI.Python.Str

/-!
# Words and white space

`strip` and `split` go by the same white space.  A text has no word exactly when nothing of it is
left after stripping (`split_eq_nil_iff`, `strip_eq_empty_iff`), and words set apart by one blank
are split as they were (`split_intercalate`).  Stripping leaves the words (`split_strip`), and texts
set apart by white space have theirs one after the other (`split_intercalate_space`).  A number
written out consists of digits (`notMem_toString`).
-/

namespace RoadVisionAI.Python

/-- What `split` returns: not empty, and free of white space. -/
def IsWord (w : List Char) : Prop := w ≠ [] ∧ ∀ c ∈ w, isSpace c = false

/-! ### The scan -/

/-- White space ends a word. -/
theorem splitChars_space_of_ne_nil {word : List Char} (hword : word ≠ []) {c : Char}
    (hc : isSpace c = true) (cs : List Char) :
    splitChars word (c :: cs) = word.reverse :: splitChars [] cs := by
  rw [splitChars, if_pos hc, if_neg hword]

/-- A run without white space is taken into the word under way. -/
theorem splitChars_append {w : List Char} (hw : ∀ c ∈ w, isSpace c = false) (word cs : List Char) :
    splitChars word (w ++ cs) = splitChars (w.reverse ++ word) cs := by
  induction w generalizing word with
  | nil => rfl
  | cons c w ih =>
    obtain ⟨hc, hw⟩ := List.forall_mem_cons.mp hw
    rw [List.cons_append, splitChars, if_neg (by simp [hc]), ih hw, List.reverse_cons,
      List.append_assoc, List.singleton_append]

theorem isWord_of_mem_splitChars {word cs w : List Char} (hword : ∀ c ∈ word, isSpace c = false)
    (hw : w ∈ splitChars word cs) : IsWord w := by
  induction cs generalizing word with
  | nil =>
    rw [splitChars] at hw
    split_ifs at hw with hnil
    · cases hw
    · obtain rfl := List.mem_singleton.mp hw
      exact ⟨by simpa using hnil, by simpa using hword⟩
  | cons c cs ih =>
    rw [splitChars] at hw
    split_ifs at hw with hc hnil
    · exact ih (by simp) hw
    · rcases List.mem_cons.mp hw with rfl | hw
      · exact ⟨by simpa using hnil, by simpa using hword⟩
      · exact ih (by simp) hw
    · refine ih (List.forall_mem_cons.mpr ⟨?_, hword⟩) hw
      simpa using hc

/-- The words between single blanks.  By induction on the words; what follows a word starts with the
blank that ends it. -/
theorem splitChars_intercalate {ws : List (List Char)} (hws : ∀ w ∈ ws, IsWord w) :
    splitChars [] ([' '].intercalate ws) = ws := by
  induction ws with
  | nil => rfl
  | cons w ws ih =>
    obtain ⟨hw, hws⟩ := List.forall_mem_cons.mp hws
    have hne : w.reverse ≠ [] := by simpa using hw.1
    cases ws with
    | nil =>
      have hend := splitChars_append hw.2 [] []
      rw [List.append_nil, List.append_nil] at hend
      rw [List.intercalate_singleton, hend, splitChars, if_neg hne, List.reverse_reverse]
    | cons w' ws =>
      rw [List.intercalate_cons_cons, List.append_assoc, splitChars_append hw.2, List.append_nil,
        List.singleton_append, splitChars_space_of_ne_nil hne (by decide), ih hws,
        List.reverse_reverse]

theorem splitChars_eq_nil_iff {word cs : List Char} :
    splitChars word cs = [] ↔ word = [] ∧ ∀ c ∈ cs, isSpace c = true := by
  induction cs generalizing word with
  | nil =>
    rw [splitChars]
    split_ifs with hnil <;> simp [hnil]
  | cons c cs ih =>
    rw [splitChars]
    split_ifs with hc hnil
    · simp [ih, hnil, hc]
    · simp [hnil]
    · simp [ih, hc]

/-! ### Strings -/

theorem isWord_of_mem_split {s w : String} (hw : w ∈ split s) : IsWord w.toList := by
  obtain ⟨chars, hchars, rfl⟩ := List.mem_map.mp hw
  rw [String.toList_ofList]
  exact isWord_of_mem_splitChars (by simp) hchars

/-- `" ".join(words).split()`. -/
theorem split_intercalate {words : List String} (h : ∀ w ∈ words, IsWord w.toList) :
    split (" ".intercalate words) = words := by
  have hwords : ∀ w ∈ words.map String.toList, IsWord w := by
    intro w hw
    obtain ⟨word, hword, rfl⟩ := List.mem_map.mp hw
    exact h word hword
  have hblank : " ".toList = [' '] := by decide
  rw [split, String.toList_intercalate, hblank, splitChars_intercalate hwords, List.map_map]
  calc words.map (String.ofList ∘ String.toList)
      = words.map id := List.map_congr_left fun w _ => String.ofList_toList
    _ = words := List.map_id words

theorem split_eq_nil_iff {s : String} : split s = [] ↔ ∀ c ∈ s.toList, isSpace c = true := by
  rw [split, List.map_eq_nil_iff, splitChars_eq_nil_iff, and_iff_right rfl]

theorem strip_eq_empty_iff {s : String} : strip s = "" ↔ ∀ c ∈ s.toList, isSpace c = true := by
  have hempty : strip s = "" ↔ stripChars s.toList = [] := by
    rw [strip, ← String.toList_inj, String.toList_ofList, String.toList_empty]
  rw [hempty, stripChars, List.rdropWhile_eq_nil_iff]
  constructor
  · intro h c hc
    by_contra hspace
    -- the scan from the front stops at `c` at the latest, so `c` is among what it leaves
    have hmem : c ∈ s.toList.dropWhile isSpace := by
      rw [← List.takeWhile_append_dropWhile (p := isSpace) (l := s.toList)] at hc
      rcases List.mem_append.mp hc with htake | hdrop
      · exact absurd (List.mem_takeWhile_imp htake) hspace
      · exact hdrop
    exact hspace (h c hmem)
  · exact fun h c hc => h c (List.dropWhile_subset _ hc)

theorem mem_of_mem_intercalate {sep : List Char} {parts : List (List Char)} {c : Char}
    (h : c ∈ sep.intercalate parts) : c ∈ sep ∨ ∃ part ∈ parts, c ∈ part := by
  induction parts with
  | nil => cases h
  | cons part parts ih =>
    cases parts with
    | nil =>
      rw [List.intercalate_singleton] at h
      exact Or.inr ⟨part, List.mem_cons_self, h⟩
    | cons part' parts =>
      rw [List.intercalate_cons_cons, List.append_assoc, List.mem_append, List.mem_append] at h
      rcases h with hpart | hsep | hrest
      · exact Or.inr ⟨part, List.mem_cons_self, hpart⟩
      · exact Or.inl hsep
      · exact (ih hrest).imp_right fun ⟨l, hl, hc⟩ => ⟨l, List.mem_cons_of_mem _ hl, hc⟩

/-- Texts joined by white space are blank when none of them has a word. -/
theorem strip_intercalate_eq_empty {sep : String} {texts : List String}
    (hsep : ∀ c ∈ sep.toList, isSpace c = true) (htexts : ∀ text ∈ texts, split text = []) :
    strip (sep.intercalate texts) = "" := by
  rw [strip_eq_empty_iff, String.toList_intercalate]
  intro c hc
  rcases mem_of_mem_intercalate hc with hmem | ⟨part, hpart, hmem⟩
  · exact hsep c hmem
  · obtain ⟨text, htext, rfl⟩ := List.mem_map.mp hpart
    exact split_eq_nil_iff.mp (htexts text htext) c hmem

/-! ### White space around words -/

/-- White space between two texts: the words of the one, and then those of the other.  By induction
on the first text. -/
theorem splitChars_append_space {space : List Char} (hspace : ∀ c ∈ space, isSpace c = true)
    (hne : space ≠ []) (word cs cs' : List Char) :
    splitChars word (cs ++ (space ++ cs')) = splitChars word cs ++ splitChars [] cs' := by
  have hskip : ∀ {space : List Char}, (∀ c ∈ space, isSpace c = true) →
      splitChars [] (space ++ cs') = splitChars [] cs' := by
    intro space hspace
    induction space with
    | nil => rfl
    | cons c space ih =>
      obtain ⟨hc, hspace⟩ := List.forall_mem_cons.mp hspace
      rw [List.cons_append, splitChars, if_pos hc, if_pos rfl, ih hspace]
  induction cs generalizing word with
  | nil =>
    by_cases hword : word = []
    · rw [hword, List.nil_append, hskip hspace]
      rfl
    · obtain ⟨c, space, rfl⟩ := List.exists_cons_of_ne_nil hne
      obtain ⟨hc, hspace⟩ := List.forall_mem_cons.mp hspace
      rw [List.nil_append, List.cons_append, splitChars_space_of_ne_nil hword hc, hskip hspace,
        splitChars, if_neg hword]
      rfl
  | cons c cs ih =>
    rw [List.cons_append, splitChars, splitChars]
    split_ifs
    · exact ih []
    · rw [ih [], List.cons_append]
    · exact ih (c :: word)

theorem splitChars_stripChars (cs : List Char) :
    splitChars [] (stripChars cs) = splitChars [] cs := by
  have hlead : splitChars [] (cs.dropWhile isSpace) = splitChars [] cs := by
    induction cs with
    | nil => rfl
    | cons c cs ih =>
      rw [List.dropWhile_cons]
      split_ifs with hc
      · rw [ih, splitChars, if_pos hc, if_pos rfl]
      · rfl
  rw [← hlead, stripChars]
  generalize cs.dropWhile isSpace = rest
  have hsplit : rest = rest.rdropWhile isSpace ++ (rest.rtakeWhile isSpace ++ []) := by
    rw [List.append_nil, List.rdropWhile_append_rtakeWhile]
  conv_rhs => rw [hsplit]
  by_cases hnil : rest.rtakeWhile isSpace = []
  · rw [hnil, List.append_nil, List.append_nil]
  · have hspace : ∀ c ∈ rest.rtakeWhile isSpace, isSpace c = true :=
      fun c hc => List.mem_rtakeWhile_imp hc
    rw [splitChars_append_space hspace hnil]
    exact (List.append_nil _).symm

/-- `s.strip().split()`. -/
theorem split_strip (s : String) : split (strip s) = split s := by
  rw [split, strip, String.toList_ofList, splitChars_stripChars]
  rfl

/-- `sep.join(texts).split()` for a white `sep`. -/
theorem split_intercalate_space {sep : String} {texts : List String}
    (hsep : ∀ c ∈ sep.toList, isSpace c = true) (hne : sep.toList ≠ []) :
    split (sep.intercalate texts) = texts.flatMap split := by
  have hchars : ∀ parts : List (List Char),
      splitChars [] (sep.toList.intercalate parts) = parts.flatMap (splitChars []) := by
    intro parts
    induction parts with
    | nil => rfl
    | cons part parts ih =>
      cases parts with
      | nil => rw [List.intercalate_singleton, List.flatMap_singleton]
      | cons part' parts =>
        rw [List.intercalate_cons_cons, List.append_assoc, splitChars_append_space hsep hne, ih]
        rfl
  rw [split, String.toList_intercalate, hchars, List.flatMap_map, List.map_flatMap]
  rfl

/-! ### Numbers written out -/

theorem notMem_toString {c : Char} (h : c.isDigit = false) (n : ℕ) : c ∉ (toString n).toList := by
  intro hmem
  rw [Nat.toString_eq_ofList_toDigits, String.toList_ofList] at hmem
  have hdigit : c.isDigit = true := Nat.isDigit_of_mem_toDigits (by decide) (by decide) hmem
  rw [h] at hdigit
  cases hdigit

end RoadVisionAI.Python
