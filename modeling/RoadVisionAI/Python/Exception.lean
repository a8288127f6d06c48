import Mathlib.Data.Nat.Notation

/-!
# Python exceptions

The exception classes the modelled code can raise or catch.  A fallible Python function is a
Lean function into `Except PyException`; `except` clauses match on the class.
-/

namespace RoadVisionAI.Python

/-- The exception classes that matter to the modelled `except` clauses.  The message is kept
where the modelled code writes it or reads it back. -/
inductive PyException where
  /-- `json.JSONDecodeError`, with the attributes its text is made of. -/
  | jsonDecodeError (msg : String) (lineno colno pos : ℕ)
  | valueError (msg : String)
  | typeError (msg : String)
  | attributeError (msg : String)
  | keyError (key : String)
  | indexError (msg : String)
  | overflowError (msg : String)
  | recursionError (msg : String)
  | runtimeError (msg : String)
  /-- `decimal.InvalidOperation`, an `ArithmeticError`. -/
  | invalidOperation (msg : String)
  /-- Any other subclass of `Exception`, by name: those of third-party packages and those a
  program declares itself. -/
  | other (cls msg : String)
deriving DecidableEq, Repr

/-- `str(exc)`. -/
def PyException.text : PyException → String
  | .jsonDecodeError msg lineno colno pos =>
    s!"{msg}: line {lineno} column {colno} (char {pos})"
  | .valueError msg | .typeError msg | .attributeError msg | .indexError msg
  | .overflowError msg | .recursionError msg | .runtimeError msg | .invalidOperation msg
  | .other _ msg => msg
  | .keyError key => s!"'{key}'"

/-- The exception is one of the language and its library. -/
def PyException.BuiltIn (exc : PyException) : Prop := ∀ cls msg, exc ≠ .other cls msg

/-! ### What the API answers -/

/-- FastAPI's `HTTPException`. -/
structure HttpException where
  statusCode : ℕ
  detail : String
  headers : List (String × String) := []

/-- What a request raises: an `HTTPException`, or something that becomes a 500. -/
inductive Raised where
  | http (exc : HttpException)
  | other (exc : PyException)

/-! ### Fallible functions in sequence -/

section

variable {ε α β : Type} {x : Except ε α} {f : α → Except ε β}

theorem bind_eq_ok_iff {b : β} : x >>= f = .ok b ↔ ∃ a, x = .ok a ∧ f a = .ok b := by
  cases x <;> simp [bind, Except.bind]

theorem bind_eq_error_iff {e : ε} :
    x >>= f = .error e ↔ x = .error e ∨ ∃ a, x = .ok a ∧ f a = .error e := by
  cases x <;> simp [bind, Except.bind]

theorem bind_isOk_iff : (∃ b, x >>= f = .ok b) ↔ ∃ a, x = .ok a ∧ ∃ b, f a = .ok b := by
  cases x <;> simp [bind, Except.bind]

theorem bind_pure_isOk_iff {g : α → β} :
    (∃ b, (x >>= fun a => pure (g a)) = .ok b) ↔ ∃ a, x = .ok a := by
  cases x <;> simp [bind, Except.bind, pure, Except.pure]

theorem map_eq_ok_iff {g : α → β} {b : β} : x.map g = .ok b ↔ ∃ a, x = .ok a ∧ g a = b := by
  cases x <;> simp [Except.map]

/-- Whatever is raised is of the kind `P`. -/
def RaisesOnly (P : ε → Prop) (x : Except ε α) : Prop := ∀ e, x = .error e → P e

variable {P : ε → Prop}

theorem raisesOnly_ok (a : α) : RaisesOnly P (.ok a : Except ε α) := nofun

/-- A sequence raises what its parts raise, as far as it comes. -/
theorem raisesOnly_bind_iff :
    RaisesOnly P (x >>= f) ↔ RaisesOnly P x ∧ ∀ a, x = .ok a → RaisesOnly P (f a) := by
  constructor
  · intro h
    refine ⟨fun e he => h e (bind_eq_error_iff.mpr (Or.inl he)), fun a ha e he => ?_⟩
    exact h e (bind_eq_error_iff.mpr (Or.inr ⟨a, ha, he⟩))
  · rintro ⟨hx, hf⟩ e he
    rcases bind_eq_error_iff.mp he with hex | ⟨a, ha, hfa⟩
    · exact hx e hex
    · exact hf a ha e hfa

theorem RaisesOnly.bind (hx : RaisesOnly P x) (hf : ∀ a, x = .ok a → RaisesOnly P (f a)) :
    RaisesOnly P (x >>= f) :=
  raisesOnly_bind_iff.mpr ⟨hx, hf⟩

theorem raisesOnly_iff : RaisesOnly P x ↔ (∃ a, x = .ok a) ∨ ∃ e, P e ∧ x = .error e := by
  cases x <;> simp [RaisesOnly]

/-- What raises only other kinds must not raise at all. -/
theorem raisesOnly_iff_ok (h : RaisesOnly (fun e => ¬ P e) x) :
    RaisesOnly P x ↔ ∃ a, x = .ok a := by
  cases hx : x with
  | ok a => exact iff_of_true (raisesOnly_ok a) ⟨a, rfl⟩
  | error e => exact iff_of_false (fun hP => h e hx (hP e rfl)) (fun hok => nomatch hok)

end

end RoadVisionAI.Python
