import RoadVisionAI.Python.Dict
import RoadVisionAI.Python.Format

/-!
# What `str.format` returns and raises

A replacement field takes at least its closing brace (`suffix_scanField`), so `formatChars` needs
no more rounds than the template has characters, which is the fuel `strFormat` gives it
(`formatChars_fuel`).

`strFormat_error` lists what it raises.  A template whose fields are bare names of arguments
(`plainChars`) raises nothing, and adds no character of its own (`strFormat_of_plain`).
-/

namespace RoadVisionAI.Python

/-- A scan has taken a character at least. -/
theorem suffix_cons_of_suffix {rest cs : List Char} {c : Char} (h : ∃ last, last :: rest <:+ cs) :
    ∃ last, last :: rest <:+ c :: cs :=
  h.imp fun _ hsuffix => hsuffix.trans (List.suffix_cons ..)

theorem suffix_scanFieldName {acc cs name rest : List Char} {inBrackets : Bool} {terminator : Char}
    (h : scanFieldName acc inBrackets cs = .ok (name, terminator, rest)) :
    ∃ last, last :: rest <:+ cs := by
  induction cs generalizing acc inBrackets with
  | nil => cases h
  | cons c cs ih =>
    unfold scanFieldName at h
    split_ifs at h
    · exact suffix_cons_of_suffix (ih h)
    · exact suffix_cons_of_suffix (ih h)
    · obtain ⟨-, htail⟩ := Prod.mk.inj (Except.ok.inj h)
      obtain ⟨-, rfl⟩ := Prod.mk.inj htail
      exact ⟨c, List.suffix_rfl⟩
    · exact suffix_cons_of_suffix (ih h)

theorem suffix_scanFormatSpec {acc cs spec rest : List Char} {depth : ℕ}
    (h : scanFormatSpec acc depth cs = .ok (spec, rest)) : ∃ last, last :: rest <:+ cs := by
  induction cs generalizing acc depth with
  | nil => cases h
  | cons c cs ih =>
    unfold scanFormatSpec at h
    split_ifs at h
    · exact suffix_cons_of_suffix (ih h)
    · cases depth with
      | zero =>
        obtain ⟨-, rfl⟩ := Prod.mk.inj (Except.ok.inj h)
        exact ⟨c, List.suffix_rfl⟩
      | succ depth => exact suffix_cons_of_suffix (ih h)
    · exact suffix_cons_of_suffix (ih h)

theorem suffix_scanField {cs rest : List Char} {field : FormatField}
    (h : scanField cs = .ok (field, rest)) : ∃ last, last :: rest <:+ cs := by
  unfold scanField at h
  cases hname : scanFieldName [] false cs with
  | error exc => rw [hname] at h; cases h
  | ok scanned =>
    obtain ⟨full, terminator, after⟩ := scanned
    obtain ⟨_, hafter⟩ := suffix_scanFieldName hname
    have hcs : after <:+ cs := (List.suffix_cons ..).trans hafter
    simp only [hname, bind, Except.bind] at h
    split_ifs at h
    · obtain ⟨-, rfl⟩ := Prod.mk.inj (Except.ok.inj h)
      exact ⟨_, hafter⟩
    · cases hspec : scanFormatSpec [] 0 after with
      | error exc => rw [hspec] at h; cases h
      | ok scanned =>
        obtain ⟨spec, last⟩ := scanned
        rw [hspec] at h
        obtain rfl : last = rest := (Prod.mk.inj (Except.ok.inj h)).2
        exact (suffix_scanFormatSpec hspec).imp fun _ hlast => hlast.trans hcs
    · -- after `!`: one letter, then the closing brace or a specification
      split at h
      next => cases h
      next => cases h
      next conversion last =>
        obtain ⟨-, rfl⟩ := Prod.mk.inj (Except.ok.inj h)
        exact ⟨_, (List.suffix_cons ..).trans hcs⟩
      next conversion more =>
        cases hspec : scanFormatSpec [] 0 more with
        | error exc => rw [hspec] at h; cases h
        | ok scanned =>
          obtain ⟨spec, last⟩ := scanned
          rw [hspec] at h
          obtain rfl : last = rest := (Prod.mk.inj (Except.ok.inj h)).2
          refine (suffix_scanFormatSpec hspec).imp fun _ hlast => hlast.trans ?_
          exact (List.suffix_cons ..).trans ((List.suffix_cons ..).trans hcs)
      next => cases h

theorem length_scanField {cs rest : List Char} {field : FormatField}
    (h : scanField cs = .ok (field, rest)) : rest.length < cs.length := by
  obtain ⟨_, hsuffix⟩ := suffix_scanField h
  exact hsuffix.length_le

/-- **The fuel is enough**: any that reaches the length of the template gives the same text. -/
theorem formatChars_fuel (fieldFormat : FieldFormat) (args : List (String × FormatArg))
    {fuel fuel' : ℕ} {cs : List Char} (hfuel : cs.length ≤ fuel) (hfuel' : cs.length ≤ fuel') :
    formatChars fieldFormat args fuel cs = formatChars fieldFormat args fuel' cs := by
  induction fuel generalizing fuel' cs with
  | zero =>
    obtain rfl := List.length_eq_zero_iff.mp (Nat.le_zero.mp hfuel)
    cases fuel' <;> rfl
  | succ fuel ih =>
    cases cs with
    | nil => cases fuel' <;> rfl
    | cons c cs =>
      rw [List.length_cons] at hfuel hfuel'
      cases fuel' with
      | zero => omega
      | succ fuel' =>
        have hsame : ∀ l : List Char, l.length ≤ fuel → l.length ≤ fuel' →
            formatChars fieldFormat args fuel l = formatChars fieldFormat args fuel' l :=
          fun l hl hl' => ih hl hl'
        unfold formatChars
        split_ifs
        · split
          next => rfl
          next cs' =>
            rw [List.length_cons] at hfuel hfuel'
            rw [hsame cs' (by omega) (by omega)]
          next =>
            cases hfield : scanField cs with
            | error exc => rfl
            | ok scanned =>
              obtain ⟨field, rest⟩ := scanned
              have hrest := length_scanField hfield
              simp only [bind, Except.bind]
              rw [hsame rest (by omega) (by omega)]
        · split
          next cs' =>
            rw [List.length_cons] at hfuel hfuel'
            rw [hsame cs' (by omega) (by omega)]
          next => rfl
        · rw [hsame cs (by omega) (by omega)]

/-! ### Exceptions -/

theorem scanFieldName_error {acc cs : List Char} {inBrackets : Bool} {e : PyException}
    (h : scanFieldName acc inBrackets cs = .error e) : ∃ msg, e = .valueError msg := by
  induction cs generalizing acc inBrackets with
  | nil => exact ⟨_, (Except.error.inj h).symm⟩
  | cons c cs ih =>
    unfold scanFieldName at h
    split_ifs at h
    · exact ih h
    · exact ⟨_, (Except.error.inj h).symm⟩
    · exact ih h
    · exact ih h

theorem scanFormatSpec_error {acc cs : List Char} {depth : ℕ} {e : PyException}
    (h : scanFormatSpec acc depth cs = .error e) : ∃ msg, e = .valueError msg := by
  induction cs generalizing acc depth with
  | nil => exact ⟨_, (Except.error.inj h).symm⟩
  | cons c cs ih =>
    unfold scanFormatSpec at h
    split_ifs at h
    · exact ih h
    · cases depth with
      | zero => cases h
      | succ depth => exact ih h
    · exact ih h

theorem scanField_error {cs : List Char} {e : PyException} (h : scanField cs = .error e) :
    ∃ msg, e = .valueError msg := by
  unfold scanField at h
  rcases bind_eq_error_iff.mp h with hname | ⟨⟨full, terminator, rest⟩, -, h⟩
  · exact scanFieldName_error hname
  · have hspec : ∀ {cs} {g : List Char × List Char → Except PyException (FormatField × List Char)},
        scanFormatSpec [] 0 cs >>= g = .error e → (∀ r, g r ≠ .error e) →
        ∃ msg, e = .valueError msg := by
      intro cs g hbind hg
      rcases bind_eq_error_iff.mp hbind with hs | ⟨r, -, hr⟩
      · exact scanFormatSpec_error hs
      · exact absurd hr (hg r)
    dsimp only at h
    split_ifs at h
    · cases h
    · exact hspec h (fun _ hr => nomatch hr)
    · split at h
      · exact ⟨_, (Except.error.inj h).symm⟩
      · exact ⟨_, (Except.error.inj h).symm⟩
      · cases h
      · exact hspec h (fun _ hr => nomatch hr)
      · exact ⟨_, (Except.error.inj h).symm⟩

/-- What the scan of a template raises, beside what the arguments raise. -/
def MarkupError (e : PyException) : Prop :=
  (∃ msg, e = .valueError msg) ∨ (∃ msg, e = .indexError msg) ∨ ∃ key, e = .keyError key

theorem getInteger_error {accumulator : ℕ} {cs : List Char} {e : PyException}
    (h : getInteger accumulator cs = .error e) : ∃ msg, e = .valueError msg := by
  induction cs generalizing accumulator with
  | nil => cases h
  | cons c cs ih =>
    unfold getInteger at h
    split at h
    · cases h
    · split_ifs at h
      · exact ⟨_, (Except.error.inj h).symm⟩
      · exact ih h

theorem formatField_error {fieldFormat : FieldFormat} {args : List (String × FormatArg)}
    {field : FormatField} {e : PyException} (h : formatField fieldFormat args field = .error e) :
    MarkupError e ∨ ∃ arg, fieldFormat arg field = .error e := by
  rcases bind_eq_error_iff.mp h with hinteger | ⟨index, -, h⟩
  · exact Or.inl (Or.inl (getInteger_error hinteger))
  · cases index with
    | some index => exact Or.inl (Or.inr (Or.inl ⟨_, (Except.error.inj h).symm⟩))
    | none =>
      dsimp only at h
      split at h
      next => exact Or.inl (Or.inr (Or.inr ⟨_, (Except.error.inj h).symm⟩))
      next arg _ =>
        split at h
        · cases h
        · exact Or.inr ⟨arg, h⟩

theorem formatChars_error {fieldFormat : FieldFormat} {args : List (String × FormatArg)}
    {fuel : ℕ} {cs : List Char} {e : PyException}
    (h : formatChars fieldFormat args fuel cs = .error e) :
    MarkupError e ∨ ∃ arg field, fieldFormat arg field = .error e := by
  induction fuel generalizing cs with
  | zero => cases cs <;> cases h
  | succ fuel ih =>
    cases cs with
    | nil => cases h
    | cons c cs =>
      -- a piece of text, and the rest of the template after it
      have hrest : ∀ {cs'} {g : List Char → List Char},
          (formatChars fieldFormat args fuel cs' >>= fun text => pure (g text)) = .error e →
          MarkupError e ∨ ∃ arg field, fieldFormat arg field = .error e := by
        intro cs' g hbind
        rcases bind_eq_error_iff.mp hbind with hcs | ⟨_, -, hok⟩
        · exact ih hcs
        · cases hok
      unfold formatChars at h
      split_ifs at h
      · split at h
        next => exact Or.inl (Or.inl ⟨_, (Except.error.inj h).symm⟩)
        next => exact hrest h
        next =>
          rcases bind_eq_error_iff.mp h with hfield | ⟨⟨field, rest⟩, -, h⟩
          · exact Or.inl (Or.inl (scanField_error hfield))
          · rcases bind_eq_error_iff.mp h with htext | ⟨text, -, h⟩
            · rcases formatField_error htext with hmarkup | ⟨arg, harg⟩
              · exact Or.inl hmarkup
              · exact Or.inr ⟨arg, field, harg⟩
            · exact hrest h
      · split at h
        next => exact hrest h
        next => exact Or.inl (Or.inl ⟨_, (Except.error.inj h).symm⟩)
      · exact hrest h

/-- `template.format(**args)` raises `ValueError`, `IndexError`, `KeyError`, or what the formatting
of an argument raises. -/
theorem strFormat_error {fieldFormat : FieldFormat} {args : List (String × FormatArg)}
    {template : String} {e : PyException} (h : strFormat fieldFormat args template = .error e) :
    MarkupError e ∨ ∃ arg field, fieldFormat arg field = .error e := by
  rcases bind_eq_error_iff.mp h with hcs | ⟨_, -, hok⟩
  · exact formatChars_error hcs
  · cases hok

/-! ### Plain templates -/

/-- The fields of a template are bare names out of `names`. -/
def plainChars (names : List String) : ℕ → List Char → Bool
  | _, [] => true
  | 0, _ => true
  | fuel + 1, c :: cs =>
    if c = '{' then
      match cs with
      | [] => false
      | '{' :: cs => plainChars names fuel cs
      | _ =>
        match scanField cs with
        | .error _ => false
        | .ok (field, rest) =>
          decide (getInteger 0 field.name = .ok none) && field.accessors.isEmpty &&
            field.conversion.isNone && field.spec.isEmpty &&
            names.contains (String.ofList field.name) && plainChars names fuel rest
    else if c = '}' then
      match cs with
      | '}' :: cs => plainChars names fuel cs
      | _ => false
    else plainChars names fuel cs

theorem exists_lookup_eq_some {α β : Type*} [BEq α] [LawfulBEq α] {l : List (α × β)} {a : α}
    (h : a ∈ l.map Prod.fst) : ∃ b, l.lookup a = some b := by
  obtain ⟨e, he, rfl⟩ := List.mem_map.mp h
  refine Option.ne_none_iff_exists'.mp fun hnone => ?_
  have hne := List.lookup_eq_none_iff.mp hnone e he
  simp at hne

/-- Where a character of a formatted text can come from. -/
def CharOf (args : List (String × FormatArg)) (cs : List Char) (c : Char) : Prop :=
  c ∈ cs ∨ ∃ arg ∈ args, c ∈ arg.2.text.toList

theorem CharOf.of_subset {args : List (String × FormatArg)} {cs cs' : List Char} {c : Char}
    (h : CharOf args cs c) (hsub : cs ⊆ cs') : CharOf args cs' c :=
  h.imp_left fun hc => hsub hc

theorem formatChars_of_plain {fieldFormat : FieldFormat} {args : List (String × FormatArg)}
    {fuel : ℕ} {cs : List Char} (h : plainChars (args.map Prod.fst) fuel cs = true) :
    ∃ text, formatChars fieldFormat args fuel cs = .ok text ∧ ∀ c ∈ text, CharOf args cs c := by
  induction fuel generalizing cs with
  | zero => cases cs <;> exact ⟨[], rfl, nofun⟩
  | succ fuel ih =>
    cases cs with
    | nil => exact ⟨[], rfl, nofun⟩
    | cons c cs =>
      -- one character, and the rest of the template
      have hrest : ∀ {cs'}, cs' ⊆ c :: cs → plainChars (args.map Prod.fst) fuel cs' = true →
          ∃ text, (formatChars fieldFormat args fuel cs' >>= fun text => pure (c :: text))
              = Except.ok (ε := PyException) text ∧ ∀ c' ∈ text, CharOf args (c :: cs) c' := by
        intro cs' hsub hcs'
        obtain ⟨text, htext, hchars⟩ := ih hcs'
        refine ⟨c :: text, by rw [htext]; rfl, List.forall_mem_cons.mpr ⟨?_, ?_⟩⟩
        · exact Or.inl List.mem_cons_self
        · exact fun c' hc' => (hchars c' hc').of_subset hsub
      unfold plainChars at h
      unfold formatChars
      split_ifs at h ⊢ with hopen hclose
      · split at h
        next => cases h
        next =>
          obtain rfl := hopen
          exact hrest (List.subset_cons_of_subset _ (List.subset_cons_self ..)) h
        next =>
          split at h
          next => cases h
          next field rest hfield =>
            simp only [Bool.and_eq_true, decide_eq_true_eq, List.contains_iff_mem,
              Option.isNone_iff_eq_none] at h
            obtain ⟨⟨⟨⟨⟨hinteger, haccessors⟩, hconversion⟩, hspec⟩, hname⟩, hplain⟩ := h
            obtain ⟨arg, harg⟩ := exists_lookup_eq_some hname
            have htext : formatField fieldFormat args field = .ok arg.text := by
              simp only [formatField, hinteger, harg, bind, Except.bind]
              exact if_pos ⟨haccessors, hconversion, hspec⟩
            obtain ⟨text, hformat, hchars⟩ := ih hplain
            refine ⟨arg.text.toList ++ text, ?_, List.forall_mem_append.mpr ⟨?_, ?_⟩⟩
            · simp only [hfield, htext, hformat, bind, Except.bind, pure, Except.pure]
            · exact fun c' hc' => Or.inr ⟨_, mem_of_lookup_eq_some harg, hc'⟩
            · obtain ⟨_, hsuffix⟩ := suffix_scanField hfield
              have hsub : rest ⊆ c :: cs := fun _ hc' =>
                List.mem_cons_of_mem _ (hsuffix.subset (List.mem_cons_of_mem _ hc'))
              exact fun c' hc' => (hchars c' hc').of_subset hsub
      · split at h
        next =>
          obtain rfl := hclose
          exact hrest (List.subset_cons_of_subset _ (List.subset_cons_self ..)) h
        next => cases h
      · exact hrest (List.subset_cons_self ..) h

/-- A text given in three pieces, as its characters. -/
theorem eq_ofList_of_pieces {a b c : String} {la lb lc : List Char} (ha : a = String.ofList la)
    (hb : b = String.ofList lb) (hc : c = String.ofList lc) :
    a ++ b ++ c = String.ofList (la ++ lb ++ lc) := by
  rw [ha, hb, hc, String.ofList_append, String.ofList_append]

/-- A plain template raises nothing, and its text is made of the template and of the arguments. -/
theorem strFormat_of_plain {fieldFormat : FieldFormat} {args : List (String × FormatArg)}
    {template : String} {cs : List Char} (htemplate : template = String.ofList cs)
    (h : plainChars (args.map Prod.fst) cs.length cs = true) :
    ∃ text, strFormat fieldFormat args template = .ok text ∧
      ∀ c ∈ text.toList, CharOf args cs c := by
  subst htemplate
  obtain ⟨text, htext, hchars⟩ := formatChars_of_plain h
  refine ⟨String.ofList text, ?_, by rwa [String.toList_ofList]⟩
  rw [strFormat, String.toList_ofList, String.length_ofList, htext]
  rfl

end RoadVisionAI.Python
