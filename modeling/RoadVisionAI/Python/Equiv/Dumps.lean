import RoadVisionAI.Python.Dumps
import RoadVisionAI.Python.Equiv.Json

/-!
# `json.loads` reads back what `json.dumps` writes

`Encodes depth text v`: the scanner takes `text` off any document and returns `v`.  Strings are
encoded by their escapes, which `scanString` undoes one character at a time
(`scanString_escapeChar`); an object is encoded when its values are (`encodes_dumpsObject`).
-/

namespace RoadVisionAI.Python

/-! ### Characters -/

theorem hexDigit?_hexDigit : ∀ n < 16, hexDigit? (hexDigit n) = some n := by decide

/-- Four hexadecimal digits spell a code unit. -/
theorem hex4?_unicodeText {n : ℕ} (h : n < 0x10000) :
    hex4? (hexDigit (n / 4096 % 16)) (hexDigit (n / 256 % 16)) (hexDigit (n / 16 % 16))
      (hexDigit (n % 16)) = some n := by
  simp only [hex4?, hexDigit?_hexDigit _ (Nat.mod_lt _ (by decide)), bind, Option.bind, pure]
  congr 1
  omega

theorem chrOfNat_toNat (c : Char) : chrOfNat c.toNat = c := by
  have hvalid : c.toNat.isValidChar := c.valid
  rw [chrOfNat, if_pos hvalid, Char.ofNat_toNat]

theorem not_surrogate (c : Char) : ¬ (0xD800 ≤ c.toNat ∧ c.toNat ≤ 0xDFFF) := by
  have hvalid : c.toNat < 0xD800 ∨ 0xDFFF < c.toNat ∧ c.toNat < 0x110000 := c.valid
  omega

theorem unicodeEscape_unicodeText {n : ℕ} (hn : n < 0x10000) (hhigh : ¬ (0xD800 ≤ n ∧ n ≤ 0xDBFF))
    {more : List Char} (hmore : more ≠ []) :
    unicodeEscape ((unicodeText n).tail ++ more) = .ok (chrOfNat n, 5) := by
  have hempty : more.isEmpty = false := by simpa using hmore
  simp only [unicodeText, List.tail_cons, List.cons_append, List.nil_append, unicodeEscape, hempty,
    hex4?_unicodeText hn, if_neg hhigh]

theorem unicodeEscape_surrogates {high low : ℕ} (hhigh : 0xD800 ≤ high ∧ high ≤ 0xDBFF)
    (hlow : 0xDC00 ≤ low ∧ low ≤ 0xDFFF) {more : List Char} (hmore : more ≠ []) :
    unicodeEscape ((unicodeText high).tail ++ (unicodeText low ++ more))
      = .ok (chrOfNat (0x10000 + (high - 0xD800) * 0x400 + (low - 0xDC00)), 11) := by
  have hempty : more.isEmpty = false := by simpa using hmore
  simp only [unicodeText, List.tail_cons, List.cons_append, List.nil_append, unicodeEscape,
    List.isEmpty_cons, hempty, hex4?_unicodeText (show high < 0x10000 by omega),
    hex4?_unicodeText (show low < 0x10000 by omega), if_pos hhigh, if_pos hlow]
  rfl

/-- An escape beginning with `\\u` is passed over as a whole. -/
theorem scanString_unicode {start acc rest : List Char} {ch : Char} (cs : List Char)
    (h : unicodeEscape ('u' :: cs ++ rest) = .ok (ch, cs.length + 1)) :
    scanString start acc 0 ('\\' :: 'u' :: cs ++ rest) = scanString start (ch :: acc) 0 rest := by
  have hskip : ∀ (l : List Char) (acc : List Char),
      scanString start acc l.length (l ++ rest) = scanString start acc 0 rest := by
    intro l acc
    induction l with
    | nil => rfl
    | cons c l ih => exact ih
  have hu : scanString start acc 0 ('\\' :: ('u' :: cs ++ rest))
      = (unicodeEscape ('u' :: cs ++ rest) >>= fun escape =>
          scanString start (escape.1 :: acc) escape.2 ('u' :: cs ++ rest)) := rfl
  rw [List.cons_append, hu, h]
  exact hskip ('u' :: cs) (ch :: acc)

/-- The scanner undoes the escape of a character. -/
theorem scanString_escapeChar (c : Char) {start acc rest : List Char} (hrest : rest ≠ []) :
    scanString start acc 0 (escapeChar c ++ rest) = scanString start (c :: acc) 0 rest := by
  unfold escapeChar
  -- seven characters have escapes of their own; the others are plain, one escape, or a pair
  split
  iterate 7 rfl
  next _ hbackslash hquote _ _ _ _ _ =>
    dsimp only
    split_ifs with hplain hbmp
    · have hcontrol : ¬ c.toNat < 0x20 := by omega
      rw [List.singleton_append, scanString.eq_def]
      simp only [if_neg hquote, if_neg hbackslash, if_neg hcontrol]
    · have hsurrogate := not_surrogate c
      have hescape := unicodeEscape_unicodeText hbmp (by omega) hrest
      rw [chrOfNat_toNat] at hescape
      exact scanString_unicode (unicodeText c.toNat).tail.tail hescape
    · -- the two halves of a surrogate pair give the character back
      have hvalid : c.toNat < 0xD800 ∨ 0xDFFF < c.toNat ∧ c.toNat < 0x110000 := c.valid
      set n := c.toNat - 0x10000 with hn
      have hback : 0x10000 + (0xD800 + n / 0x400 - 0xD800) * 0x400
          + (0xDC00 + n % 0x400 - 0xDC00) = c.toNat := by omega
      have hhigh : 0xD800 ≤ 0xD800 + n / 0x400 ∧ 0xD800 + n / 0x400 ≤ 0xDBFF := by omega
      have hlow : 0xDC00 ≤ 0xDC00 + n % 0x400 ∧ 0xDC00 + n % 0x400 ≤ 0xDFFF := by omega
      have hescape := unicodeEscape_surrogates hhigh hlow hrest
      rw [hback, chrOfNat_toNat, ← List.append_assoc] at hescape
      exact scanString_unicode
        ((unicodeText (0xD800 + n / 0x400)).tail.tail ++ unicodeText (0xDC00 + n % 0x400)) hescape

/-! ### Strings -/

theorem scanString_flatMap_escapeChar (cs : List Char) (start acc rest : List Char) :
    scanString start acc 0 (cs.flatMap escapeChar ++ '"' :: rest)
      = .ok (String.ofList (acc.reverse ++ cs), rest) := by
  induction cs generalizing acc with
  | nil => simp [scanString]
  | cons c cs ih =>
    rw [List.flatMap_cons, List.append_assoc, scanString_escapeChar c (by simp), ih,
      List.reverse_cons, List.append_assoc, List.singleton_append]

/-- `text` is an encoding of `v`: it starts with no blank, and the scanner reads `v` off it. -/
structure Encodes (depth : ℕ) (text : List Char) (v : Json) : Prop where
  noBlank : ∀ rest, skipWhitespace (text ++ rest) = text ++ rest
  scan : ∀ rest, scanOnce depth (text ++ rest) = .ok (v, rest)

theorem skipWhitespace_cons {c : Char}
    (h : (c = ' ' || c = '\t' || c = '\n' || c = '\r') = false) (cs : List Char) :
    skipWhitespace (c :: cs) = c :: cs := by
  rw [skipWhitespace, List.dropWhile_cons_of_neg]
  simp only [h, Bool.false_eq_true, not_false_eq_true]

theorem dumpsString_append (s : String) (rest : List Char) :
    dumpsString s ++ rest = '"' :: (s.toList.flatMap escapeChar ++ '"' :: rest) := by
  simp [dumpsString]

theorem encodes_dumpsString (depth : ℕ) (s : String) : Encodes depth (dumpsString s) (.str s) where
  noBlank rest := by
    rw [dumpsString_append]
    exact skipWhitespace_cons rfl _
  scan rest := by
    rw [dumpsString_append]
    cases depth <;>
      simp only [scanOnce, scanString_flatMap_escapeChar, List.reverse_nil, List.nil_append,
        String.ofList_toList, bind, Except.bind]

/-! ### Objects -/

theorem skipWhitespace_newlineIndent (level : ℕ) (cs : List Char) :
    skipWhitespace (newlineIndent level ++ cs) = skipWhitespace cs := by
  have hspaces : ∀ n, skipWhitespace (List.replicate n ' ' ++ cs) = skipWhitespace cs := by
    intro n
    induction n with
    | zero => rfl
    | succ n ih => exact ih
  exact hspaces (2 * level)

/-- A member: its key, its value, and the encoding of the value. -/
structure Member where
  key : String
  value : Json
  text : List Char

namespace Member

/-- The members with encoded values, as they are written. -/
def texts (members : List Member) : List (String × List Char) :=
  members.map fun member => (member.key, member.text)

/-- The members with their values, as they are read. -/
def fields (members : List Member) : List (String × Json) :=
  members.map fun member => (member.key, member.value)

/-- What follows a member: the other members, and the closing brace. -/
def remainder (level : ℕ) (members : List Member) (rest : List Char) : List Char :=
  (texts members).flatMap (fun m => ',' :: newlineIndent (level + 1) ++ dumpsMember m) ++
    (newlineIndent level ++ '}' :: rest)

theorem remainder_cons (level : ℕ) (member : Member) (members : List Member) (rest : List Char) :
    remainder level (member :: members) rest
      = ',' :: (newlineIndent (level + 1) ++
          (dumpsMember (member.key, member.text) ++ remainder level members rest)) := by
  simp [remainder, texts]

theorem dumpsObject_cons_append (level : ℕ) (member : Member) (members : List Member)
    (rest : List Char) :
    dumpsObject level (texts (member :: members)) ++ rest
      = '{' :: (newlineIndent (level + 1) ++
          (dumpsMember (member.key, member.text) ++ remainder level members rest)) := by
  simp [dumpsObject, remainder, texts]

end Member

/-- A member begins with the quote of its key. -/
theorem dumpsMember_append (member : String × List Char) (rest : List Char) :
    ∃ tail, dumpsMember member ++ rest = '"' :: tail :=
  ⟨_, by rw [dumpsMember, List.append_assoc, dumpsString_append]⟩

theorem skipWhitespace_dumpsMember (level : ℕ) (member : String × List Char) (rest : List Char) :
    skipWhitespace (newlineIndent level ++ (dumpsMember member ++ rest))
      = dumpsMember member ++ rest := by
  obtain ⟨tail, htail⟩ := dumpsMember_append member rest
  rw [skipWhitespace_newlineIndent, htail]
  exact skipWhitespace_cons rfl tail

section ScanMembers

variable {depth fuel : ℕ} {read : List (String × Json)} {member : Member}

/-- The value of a member is found after its colon. -/
theorem Encodes.skipWhitespace_colon {text : List Char} {v : Json} (h : Encodes depth text v)
    (after : List Char) :
    skipWhitespace (':' :: ' ' :: text ++ after) = ':' :: (' ' :: text ++ after) ∧
      skipWhitespace (' ' :: text ++ after) = text ++ after :=
  ⟨skipWhitespace_cons rfl _, h.noBlank after⟩

/-- A member is read, and the object closed. -/
theorem scanMembers_last (hencodes : Encodes depth member.text member.value)
    (hnew : member.key ∉ read.map Prod.fst) {after rest : List Char}
    (hafter : skipWhitespace after = '}' :: rest) :
    scanMembers (scanOnce depth) (fuel + 1) read
        (dumpsMember (member.key, member.text) ++ after)
      = .ok (.obj (read ++ [(member.key, member.value)]), rest) := by
  obtain ⟨hcolon, hvalue⟩ := hencodes.skipWhitespace_colon after
  rw [dumpsMember, List.append_assoc, dumpsString_append]
  simp only [scanMembers, scanString_flatMap_escapeChar, List.reverse_nil, List.nil_append,
    String.ofList_toList, hcolon, hvalue, hencodes.scan, assocSet_of_not_mem hnew, bind,
    Except.bind, hafter]

/-- A member is read, and the next one begins. -/
theorem scanMembers_next (hencodes : Encodes depth member.text member.value)
    (hnew : member.key ∉ read.map Prod.fst) {after rest next : List Char}
    (hafter : skipWhitespace after = ',' :: rest) (hnext : skipWhitespace rest = '"' :: next) :
    scanMembers (scanOnce depth) (fuel + 1) read
        (dumpsMember (member.key, member.text) ++ after)
      = scanMembers (scanOnce depth) fuel (read ++ [(member.key, member.value)])
          ('"' :: next) := by
  obtain ⟨hcolon, hvalue⟩ := hencodes.skipWhitespace_colon after
  rw [dumpsMember, List.append_assoc, dumpsString_append, scanMembers.eq_def]
  simp only [scanString_flatMap_escapeChar, List.reverse_nil, List.nil_append,
    String.ofList_toList, hcolon, hvalue, hencodes.scan, assocSet_of_not_mem hnew, bind,
    Except.bind, hafter, hnext]
  rfl

end ScanMembers

/-- The members up to the closing brace.  By induction on those after the first. -/
theorem scanMembers_dumps {depth : ℕ} (level : ℕ) (rest : List Char) (member : Member)
    (members : List Member) (fuel : ℕ) (read : List (String × Json))
    (hfuel : members.length < fuel)
    (hencodes : ∀ m ∈ member :: members, Encodes depth m.text m.value)
    (hkeys : (read.map Prod.fst ++ (member :: members).map Member.key).Nodup) :
    scanMembers (scanOnce depth) fuel read
        (dumpsMember (member.key, member.text) ++ Member.remainder level members rest)
      = .ok (.obj (read ++ Member.fields (member :: members)), rest) := by
  induction members generalizing member fuel read with
  | nil =>
    obtain ⟨fuel, rfl⟩ : ∃ n, fuel = n + 1 := ⟨fuel - 1, by simp at hfuel; omega⟩
    have hnew : member.key ∉ read.map Prod.fst := fun hmem =>
      List.disjoint_of_nodup_append hkeys hmem (List.mem_cons_self ..)
    have hclose : skipWhitespace (Member.remainder level [] rest) = '}' :: rest := by
      show skipWhitespace (newlineIndent level ++ '}' :: rest) = '}' :: rest
      rw [skipWhitespace_newlineIndent]
      exact skipWhitespace_cons rfl rest
    exact scanMembers_last (hencodes member (List.mem_cons_self ..)) hnew hclose
  | cons following members ih =>
    obtain ⟨fuel, rfl⟩ : ∃ n, fuel = n + 1 := ⟨fuel - 1, by simp at hfuel; omega⟩
    have hnew : member.key ∉ read.map Prod.fst := fun hmem =>
      List.disjoint_of_nodup_append hkeys hmem (List.mem_cons_self ..)
    have hrest := ih following fuel (read ++ [(member.key, member.value)])
      (by simp at hfuel; omega) (List.forall_mem_cons.mp hencodes).2 (by simpa using hkeys)
    have hnext := skipWhitespace_dumpsMember (level + 1) (following.key, following.text)
      (Member.remainder level members rest)
    -- the scanner looks at the quote of the next key
    obtain ⟨tail, htail⟩ := dumpsMember_append (following.key, following.text)
      (Member.remainder level members rest)
    rw [Member.remainder_cons, htail]
    rw [htail] at hrest hnext
    have hcomma : skipWhitespace (',' :: (newlineIndent (level + 1) ++ '"' :: tail))
        = ',' :: (newlineIndent (level + 1) ++ '"' :: tail) := skipWhitespace_cons rfl _
    rw [scanMembers_next (hencodes member (List.mem_cons_self ..)) hnew hcomma hnext, hrest]
    simp [Member.fields]

/-- **Objects.**  An object is encoded when its values are and its keys are distinct. -/
theorem encodes_dumpsObject {depth : ℕ} (level : ℕ) {members : List Member}
    (hencodes : ∀ m ∈ members, Encodes depth m.text m.value)
    (hkeys : (members.map Member.key).Nodup) :
    Encodes (depth + 1) (dumpsObject level (Member.texts members)) (.obj (Member.fields members))
    where
  noBlank rest := by cases members <;> exact skipWhitespace_cons rfl _
  scan rest := by
    cases members with
    | nil => rfl
    | cons member members =>
      rw [Member.dumpsObject_cons_append]
      set body := dumpsMember (member.key, member.text) ++ Member.remainder level members rest
        with hbody
      have hskip : skipWhitespace (newlineIndent (level + 1) ++ body) = body :=
        skipWhitespace_dumpsMember ..
      have hscan := scanMembers_dumps level rest member members
        (body.length + members.length + 1) [] (by omega) hencodes (by simpa using hkeys)
      have hfuel : body.length < body.length + members.length + 1 := by omega
      rw [← hbody, ← (scanOnce_fuel depth hfuel).2 []] at hscan
      simp only [scanOnce, hskip]
      obtain ⟨tail, htail⟩ : ∃ tail, body = '"' :: tail := dumpsMember_append ..
      rw [htail] at hscan ⊢
      exact hscan

theorem scanOnce_bom (depth : ℕ) (cs : List Char) :
    scanOnce depth ('\uFEFF' :: cs) = .error (.decode "Expecting value" ('\uFEFF' :: cs)) := by
  cases depth <;> rfl

/-- **Round trip.**  A text is read back as the value it encodes. -/
theorem loadBytes_of_encodes {text : List Char} {v : Json}
    (h : Encodes recursionLimit text v) :
    loadBytes (String.ofList text).toByteArray = .ok v := by
  have hutf8 : String.fromUTF8? (String.ofList text).toByteArray = some (String.ofList text) :=
    dif_pos (String.ofList text).isValidUTF8
  have hdoc : decode text = .ok v := by
    have hscan := h.scan []
    have hblank := h.noBlank []
    rw [List.append_nil] at hscan hblank
    rw [decode, hblank, hscan]
    rfl
  have hbom : text.head? ≠ some '\uFEFF' := by
    intro hhead
    obtain ⟨cs, rfl⟩ := List.head?_eq_some_iff.mp hhead
    have hscan := h.scan []
    rw [List.cons_append, scanOnce_bom] at hscan
    cases hscan
  rw [loadBytes, hutf8]
  exact loads_eq_ok_of_chars rfl hdoc hbom

end RoadVisionAI.Python
