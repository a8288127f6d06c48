import RoadVisionAI.Python.Equiv.Format

/-!
# The templates `str.format` accepts

`WellFormed` is their grammar: ordinary characters, doubled braces, and replacement fields whose
argument is given and takes the formatting the field asks for.  The scan returns a text exactly on
these (`strFormat_isOk_iff`).
-/

namespace RoadVisionAI.Python

variable {fieldFormat : FieldFormat} {args : List (String × FormatArg)}

/-- A field by the name of an argument, which is no number: bare, or formatted by the argument's own
protocol. -/
def Accepted (fieldFormat : FieldFormat) (args : List (String × FormatArg)) (field : FormatField) :
    Prop :=
  getInteger 0 field.name = .ok none ∧
    ∃ arg, args.lookup (String.ofList field.name) = some arg ∧
      ((field.accessors = [] ∧ field.conversion = none ∧ field.spec = []) ∨
        ∃ text, fieldFormat arg field = .ok text)

/-- The grammar of a template. -/
inductive WellFormed (fieldFormat : FieldFormat) (args : List (String × FormatArg)) :
    List Char → Prop
  | nil : WellFormed fieldFormat args []
  | char {c : Char} {cs : List Char} (hopening : c ≠ '{') (hclosing : c ≠ '}')
      (h : WellFormed fieldFormat args cs) : WellFormed fieldFormat args (c :: cs)
  | opening {cs : List Char} (h : WellFormed fieldFormat args cs) :
      WellFormed fieldFormat args ('{' :: '{' :: cs)
  | closing {cs : List Char} (h : WellFormed fieldFormat args cs) :
      WellFormed fieldFormat args ('}' :: '}' :: cs)
  | field {cs rest : List Char} {field : FormatField} (hfirst : cs.head? ≠ some '{')
      (hscan : scanField cs = .ok (field, rest)) (hfield : Accepted fieldFormat args field)
      (h : WellFormed fieldFormat args rest) : WellFormed fieldFormat args ('{' :: cs)

/-! ### What a template starts with -/

theorem wellFormed_char_iff {c : Char} {cs : List Char} (hopening : c ≠ '{') (hclosing : c ≠ '}') :
    WellFormed fieldFormat args (c :: cs) ↔ WellFormed fieldFormat args cs := by
  constructor
  · intro h
    cases h with
    | char _ _ h => exact h
    | opening h => exact absurd rfl hopening
    | closing h => exact absurd rfl hclosing
    | field _ _ _ h => exact absurd rfl hopening
  · exact .char hopening hclosing

theorem wellFormed_opening_iff {cs : List Char} :
    WellFormed fieldFormat args ('{' :: '{' :: cs) ↔ WellFormed fieldFormat args cs := by
  constructor
  · intro h
    cases h with
    | char hopening _ _ => exact absurd rfl hopening
    | opening h => exact h
    | field hfirst _ _ _ => exact absurd rfl hfirst
  · exact .opening

theorem wellFormed_closing_iff {cs : List Char} :
    WellFormed fieldFormat args ('}' :: cs) ↔
      ∃ rest, cs = '}' :: rest ∧ WellFormed fieldFormat args rest := by
  constructor
  · intro h
    cases h with
    | char _ hclosing _ => exact absurd rfl hclosing
    | closing h => exact ⟨_, rfl, h⟩
  · rintro ⟨rest, rfl, h⟩
    exact .closing h

theorem wellFormed_field_iff {cs : List Char} (hfirst : cs.head? ≠ some '{') :
    WellFormed fieldFormat args ('{' :: cs) ↔
      ∃ field rest, scanField cs = .ok (field, rest) ∧ Accepted fieldFormat args field ∧
        WellFormed fieldFormat args rest := by
  constructor
  · intro h
    cases h with
    | char hopening _ _ => exact absurd rfl hopening
    | opening h => exact absurd rfl hfirst
    | field _ hscan hfield h => exact ⟨_, _, hscan, hfield, h⟩
  · rintro ⟨field, rest, hscan, hfield, h⟩
    exact .field hfirst hscan hfield h

/-! ### The scan -/

theorem formatField_isOk_iff {field : FormatField} :
    (∃ text, formatField fieldFormat args field = .ok text) ↔ Accepted fieldFormat args field := by
  rw [formatField, Accepted, bind_isOk_iff]
  constructor
  · rintro ⟨index, hinteger, htext⟩
    cases index with
    | some index =>
      obtain ⟨_, htext⟩ := htext
      cases htext
    | none =>
      refine ⟨hinteger, ?_⟩
      revert htext
      cases args.lookup (String.ofList field.name) with
      | none => rintro ⟨_, ⟨⟩⟩
      | some arg =>
        simp only [Option.some.injEq, exists_eq_left', List.isEmpty_iff]
        split_ifs with hbare
        · exact fun _ => Or.inl hbare
        · exact Or.inr
  · rintro ⟨hinteger, arg, harg, hformat⟩
    refine ⟨none, hinteger, ?_⟩
    simp only [harg, List.isEmpty_iff]
    split_ifs with hbare
    · exact ⟨_, rfl⟩
    · exact hformat.resolve_left hbare

theorem formatChars_isOk_iff {fuel : ℕ} {cs : List Char} (hfuel : cs.length ≤ fuel) :
    (∃ text, formatChars fieldFormat args fuel cs = .ok text) ↔ WellFormed fieldFormat args cs := by
  induction fuel generalizing cs with
  | zero =>
    obtain rfl := List.length_eq_zero_iff.mp (Nat.le_zero.mp hfuel)
    exact iff_of_true ⟨[], rfl⟩ .nil
  | succ fuel ih =>
    cases cs with
    | nil => exact iff_of_true ⟨[], rfl⟩ .nil
    | cons c cs =>
      rw [List.length_cons] at hfuel
      unfold formatChars
      split_ifs with hopening hclosing
      · subst hopening
        split
        next =>
          rw [wellFormed_field_iff (by simp)]
          exact iff_of_false (by rintro ⟨_, ⟨⟩⟩) (by rintro ⟨_, _, ⟨⟩, -⟩)
        next cs' =>
          rw [bind_pure_isOk_iff, wellFormed_opening_iff]
          exact ih (by rw [List.length_cons] at hfuel; omega)
        next hnil hfirst =>
          have hhead : cs.head? ≠ some '{' := by
            intro hhead
            obtain ⟨cs', rfl⟩ := List.head?_eq_some_iff.mp hhead
            exact hfirst cs' rfl
          rw [wellFormed_field_iff hhead, bind_isOk_iff, Prod.exists]
          refine exists_congr fun field => exists_congr fun rest => and_congr_right fun hscan => ?_
          have hrest := length_scanField hscan
          rw [bind_isOk_iff, ← ih (by omega), ← formatField_isOk_iff]
          simp only [bind_pure_isOk_iff, exists_and_right]
      · subst hclosing
        rw [wellFormed_closing_iff]
        split
        next cs' =>
          rw [bind_pure_isOk_iff, ih (by rw [List.length_cons] at hfuel; omega)]
          simp
        next hfirst =>
          refine iff_of_false (by rintro ⟨_, ⟨⟩⟩) ?_
          rintro ⟨rest, rfl, -⟩
          exact hfirst rest rfl
      · rw [bind_pure_isOk_iff, wellFormed_char_iff hopening hclosing]
        exact ih (by omega)

/-- **Templates.**  `template.format(**args)` returns a text exactly on the well-formed ones. -/
theorem strFormat_isOk_iff {template : String} :
    (∃ text, strFormat fieldFormat args template = .ok text) ↔
      WellFormed fieldFormat args template.toList := by
  have hlength : template.toList.length ≤ template.length := String.length_toList.le
  rw [← formatChars_isOk_iff hlength, strFormat, bind_pure_isOk_iff]

end RoadVisionAI.Python
