import RoadVisionAI.Python.Json
import Mathlib.Data.List.TakeDrop
import Mathlib.Data.List.TakeWhile

/-!
# The scanner does not run out of fuel

`scanItems` and `scanMembers` bound their repetitions by a fuel that the source does not have.  A
scanner that returns has taken at least one character (`progress_scanOnce`), so a document is
scanned in fewer rounds than it has characters, and any fuel beyond that gives the same result
(`scanOnce_fuel`).
-/

namespace RoadVisionAI.Python

/-- Whenever the scanner returns, it has taken something off the document. -/
def Progress {α : Type} (scan : Scanner α) : Prop :=
  ∀ cs v rest, scan cs = .ok (v, rest) → rest.length < cs.length

theorem length_skipWhitespace_le (cs : List Char) : (skipWhitespace cs).length ≤ cs.length :=
  List.length_dropWhile_le _ _

/-! ### Strings and numbers -/

theorem length_scanString {start acc : List Char} {skip : ℕ} {cs : List Char} {s : String}
    {rest : List Char} (h : scanString start acc skip cs = .ok (s, rest)) :
    rest.length < cs.length := by
  induction cs generalizing skip acc with
  | nil => simp [scanString] at h
  | cons c cs ih =>
    have hstep : rest.length < cs.length → rest.length < (c :: cs).length := by
      intro hlt
      rw [List.length_cons]
      omega
    cases skip with
    | succ skip => exact hstep (ih h)
    | zero =>
      unfold scanString at h
      split_ifs at h with hquote hescape hcontrol
      · obtain ⟨-, rfl⟩ := Prod.mk.inj (Except.ok.inj h)
        simp
      · -- an escape is passed over character by character
        split at h
        next => cases h
        next e more =>
          split_ifs at h with hu
          · cases hunicode : unicodeEscape (e :: more) with
            | error exc => rw [hunicode] at h; cases h
            | ok escape =>
              rw [hunicode] at h
              exact hstep (ih h)
          · split at h
            · cases h
            · exact hstep (ih h)
      · exact hstep (ih h)

theorem length_spanDigits (cs : List Char) :
    (spanDigits cs).1.length + (spanDigits cs).2.length = cs.length := by
  rw [spanDigits, List.span_eq_takeWhile_dropWhile, ← List.length_append,
    List.takeWhile_append_dropWhile]

theorem length_scanFraction_le (cs : List Char) : (scanFraction cs).2.length ≤ cs.length := by
  unfold scanFraction
  split
  next c more =>
    split_ifs
    · have := length_spanDigits (c :: more)
      simp only [List.length_cons] at this ⊢
      omega
    · exact le_rfl
  next => exact le_rfl

theorem length_scanExponent_le (cs : List Char) : (scanExponent cs).2.length ≤ cs.length := by
  unfold scanExponent
  split
  next e more =>
    split_ifs
    · split
      next negative more' hsign =>
        have hmore : more'.length ≤ more.length := by
          split at hsign <;> (obtain ⟨-, rfl⟩ := Prod.mk.inj hsign; simp)
        have := length_spanDigits more'
        split
        next digits rest hdigits =>
          rw [hdigits] at this
          by_cases hnone : digits.isEmpty
          · rw [if_pos hnone]
          · rw [if_neg hnone]
            simp only [List.length_cons] at this ⊢
            omega
    · exact le_rfl
  next => exact le_rfl

theorem progress_matchNumber : Progress matchNumber := by
  intro start v rest h
  unfold matchNumber at h
  split at h
  next negative cs hsign =>
    have hcs : cs.length ≤ start.length := by
      split at hsign <;> (obtain ⟨-, rfl⟩ := Prod.mk.inj hsign; simp)
    split at h
    next whole after hwhole =>
      -- the digits before the point, of which there is one
      have hlen : whole.length + after.length = cs.length := by
        split at hwhole
        · obtain ⟨rfl, rfl⟩ := Prod.mk.inj hwhole
          simp [Nat.add_comm]
        · have := length_spanDigits cs
          rwa [hwhole] at this
      by_cases hempty : whole.isEmpty = true
      · rw [if_pos hempty] at h
        cases h
      · rw [if_neg hempty] at h
        have hpos : 0 < whole.length := by
          rw [List.length_pos_iff]
          simpa using hempty
        have hfraction := length_scanFraction_le after
        have hexponent := length_scanExponent_le (scanFraction after).2
        have hrest : rest = (scanExponent (scanFraction after).2).2 := by
          cases hf : scanFraction after with
          | mk fraction rest₁ =>
            cases he : scanExponent rest₁ with
            | mk exponent rest₂ =>
              simp only [hf, he] at h ⊢
              split_ifs at h <;> exact (Prod.mk.inj (Except.ok.inj h)).2.symm
        rw [hrest]
        omega

/-! ### Items and members -/

/-- A round of the loop ends the scan, or goes on with a shorter text; and it does so with any two
amounts of fuel. -/
def Rounds {σ : Type} (loop : ℕ → σ → Scanner Json) : Prop :=
  ∀ fuel fuel' s cs,
    (∃ result, loop (fuel + 1) s cs = result ∧ loop (fuel' + 1) s cs = result ∧
      ∀ v rest, result = .ok (v, rest) → rest.length < cs.length) ∨
    ∃ s' next, next.length < cs.length ∧ loop (fuel + 1) s cs = loop fuel s' next ∧
      loop (fuel' + 1) s cs = loop fuel' s' next

namespace Rounds

variable {σ : Type} {loop : ℕ → σ → Scanner Json}

theorem progress (h : Rounds loop) (hzero : ∀ s cs v rest, loop 0 s cs ≠ .ok (v, rest))
    (fuel : ℕ) (s : σ) : Progress (loop fuel s) := by
  intro cs v rest hok
  induction fuel generalizing s cs with
  | zero => exact absurd hok (hzero s cs v rest)
  | succ fuel ih =>
    rcases h fuel fuel s cs with ⟨result, hresult, -, hlt⟩ | ⟨s', next, hnext, hround, -⟩
    · exact hlt v rest (hresult.symm.trans hok)
    · have hrest : rest.length < next.length := ih s' next (hround.symm.trans hok)
      omega

/-- Any fuel beyond the characters left gives the same result. -/
theorem fuel_eq (h : Rounds loop) {fuel fuel' : ℕ} {cs : List Char} (hfuel : cs.length < fuel)
    (hfuel' : cs.length < fuel') (s : σ) : loop fuel s cs = loop fuel' s cs := by
  induction fuel generalizing fuel' s cs with
  | zero => omega
  | succ fuel ih =>
    obtain ⟨fuel', rfl⟩ : ∃ n, fuel' = n + 1 := ⟨fuel' - 1, by omega⟩
    rcases h fuel fuel' s cs with ⟨result, hresult, hresult', -⟩ |
      ⟨s', next, hnext, hround, hround'⟩
    · rw [hresult, hresult']
    · rw [hround, hround']
      exact ih (by omega) (by omega) s'

end Rounds

theorem rounds_scanItems {scan : Scanner Json} (hscan : Progress scan) :
    Rounds (scanItems scan) := by
  intro fuel fuel' items cs
  rw [scanItems, scanItems]
  cases hitem : scan cs with
  | error exc => exact Or.inl ⟨_, rfl, rfl, fun _ _ h => nomatch h⟩
  | ok scanned =>
    obtain ⟨item, after⟩ := scanned
    have hafter := hscan cs item after hitem
    have hskip := length_skipWhitespace_le after
    simp only [bind, Except.bind]
    split
    next last hlast =>
      refine Or.inl ⟨_, rfl, rfl, fun v rest h => ?_⟩
      obtain ⟨-, rfl⟩ := Prod.mk.inj (Except.ok.inj h)
      rw [hlast, List.length_cons] at hskip
      omega
    next more hmore =>
      have hskip' := length_skipWhitespace_le more
      rw [hmore, List.length_cons] at hskip
      split
      next => exact Or.inl ⟨_, rfl, rfl, fun _ _ h => nomatch h⟩
      next => exact Or.inr ⟨items ++ [item], skipWhitespace more, by omega, rfl, rfl⟩
    next => exact Or.inl ⟨_, rfl, rfl, fun _ _ h => nomatch h⟩

theorem rounds_scanMembers {scan : Scanner Json} (hscan : Progress scan) :
    Rounds (scanMembers scan) := by
  intro fuel fuel' fields cs
  rw [scanMembers.eq_def scan (fuel + 1), scanMembers.eq_def scan (fuel' + 1)]
  dsimp only
  split
  next more =>
    rw [List.length_cons]
    cases hkey : scanString ('"' :: more) [] 0 more with
    | error exc => exact Or.inl ⟨_, rfl, rfl, fun _ _ h => nomatch h⟩
    | ok scanned =>
      obtain ⟨key, afterKey⟩ := scanned
      have hlen := length_scanString hkey
      have hcolon := length_skipWhitespace_le afterKey
      simp only [bind, Except.bind]
      split
      next value hvalue =>
        have hblank := length_skipWhitespace_le value
        rw [hvalue, List.length_cons] at hcolon
        cases hmember : scan (skipWhitespace value) with
        | error exc => exact Or.inl ⟨_, rfl, rfl, fun _ _ h => nomatch h⟩
        | ok scanned =>
          obtain ⟨member, after⟩ := scanned
          have hafter := hscan _ member after hmember
          have hskip := length_skipWhitespace_le after
          simp only
          split
          next last hlast =>
            refine Or.inl ⟨_, rfl, rfl, fun v rest h => ?_⟩
            obtain ⟨-, rfl⟩ := Prod.mk.inj (Except.ok.inj h)
            rw [hlast, List.length_cons] at hskip
            omega
          next last hlast =>
            have hskip' := length_skipWhitespace_le last
            rw [hlast, List.length_cons] at hskip
            split
            next => exact Or.inl ⟨_, rfl, rfl, fun _ _ h => nomatch h⟩
            next =>
              exact Or.inr ⟨assocSet key member fields, skipWhitespace last, by omega, rfl, rfl⟩
          next => exact Or.inl ⟨_, rfl, rfl, fun _ _ h => nomatch h⟩
      next => exact Or.inl ⟨_, rfl, rfl, fun _ _ h => nomatch h⟩
  next => exact Or.inl ⟨_, rfl, rfl, fun _ _ h => nomatch h⟩

theorem progress_scanItems {scan : Scanner Json} (hscan : Progress scan) (fuel : ℕ)
    (items : List Json) : Progress (scanItems scan fuel items) :=
  (rounds_scanItems hscan).progress (fun _ _ _ _ h => nomatch h) fuel items

theorem progress_scanMembers {scan : Scanner Json} (hscan : Progress scan) (fuel : ℕ)
    (fields : List (String × Json)) : Progress (scanMembers scan fuel fields) :=
  (rounds_scanMembers hscan).progress (fun _ _ _ _ h => nomatch h) fuel fields

/-- A scanned value is at least one character long.  By induction on the nesting. -/
theorem progress_scanOnce (depth : ℕ) : Progress (scanOnce depth) := by
  induction depth using Nat.strongRecOn with
  | ind depth ih =>
    intro cs v rest h
    have hliteral : ∀ (word : List Char) {value : Json} {after : List Char}, 0 < word.length →
        Except.ok (value, after) = (.ok (v, rest) : Except ScanError (Json × List Char)) →
        rest.length < (word ++ after).length := by
      intro word value after hword heq
      obtain ⟨-, rfl⟩ := Prod.mk.inj (Except.ok.inj heq)
      rw [List.length_append]
      omega
    unfold scanOnce at h
    split at h
    next more =>
      cases hstring : scanString ('"' :: more) [] 0 more with
      | error exc => rw [hstring] at h; cases h
      | ok scanned =>
        have hlen := length_scanString hstring
        rw [hstring] at h
        obtain ⟨-, rfl⟩ := Prod.mk.inj (Except.ok.inj h)
        rw [List.length_cons]
        omega
    next more =>
      -- an object: no member, or the members of the next level
      have hskip := length_skipWhitespace_le more
      rw [List.length_cons]
      split at h
      next => cases h
      next depth' =>
        split at h
        next last hlast =>
          obtain ⟨-, rfl⟩ := Prod.mk.inj (Except.ok.inj h)
          rw [hlast, List.length_cons] at hskip
          omega
        next =>
          have := progress_scanMembers (ih depth' (Nat.lt_succ_self depth')) _ _ _ _ _ h
          omega
    next more =>
      -- an array likewise
      have hskip := length_skipWhitespace_le more
      rw [List.length_cons]
      split at h
      next => cases h
      next depth' =>
        split at h
        next last hlast =>
          obtain ⟨-, rfl⟩ := Prod.mk.inj (Except.ok.inj h)
          rw [hlast, List.length_cons] at hskip
          omega
        next =>
          have := progress_scanItems (ih depth' (Nat.lt_succ_self depth')) _ _ _ _ _ h
          omega
    next after => exact hliteral ['n', 'u', 'l', 'l'] (by decide) h
    next after => exact hliteral ['t', 'r', 'u', 'e'] (by decide) h
    next after => exact hliteral ['f', 'a', 'l', 's', 'e'] (by decide) h
    next after => exact hliteral ['N', 'a', 'N'] (by decide) h
    next after => exact hliteral ['I', 'n', 'f', 'i', 'n', 'i', 't', 'y'] (by decide) h
    next after => exact hliteral ['-', 'I', 'n', 'f', 'i', 'n', 'i', 't', 'y'] (by decide) h
    next => exact progress_matchNumber _ _ _ h

/-! ### Fuel -/

/-- **The fuel of `scanOnce` is enough**: it repeats as often as any larger bound would allow. -/
theorem scanOnce_fuel (depth : ℕ) {fuel : ℕ} {cs : List Char} (hfuel : cs.length < fuel) :
    (∀ items, scanItems (scanOnce depth) (cs.length + 1) items cs
        = scanItems (scanOnce depth) fuel items cs) ∧
      (∀ fields, scanMembers (scanOnce depth) (cs.length + 1) fields cs
        = scanMembers (scanOnce depth) fuel fields cs) :=
  ⟨(rounds_scanItems (progress_scanOnce depth)).fuel_eq (Nat.lt_succ_self _) hfuel,
    (rounds_scanMembers (progress_scanOnce depth)).fuel_eq (Nat.lt_succ_self _) hfuel⟩

end RoadVisionAI.Python
