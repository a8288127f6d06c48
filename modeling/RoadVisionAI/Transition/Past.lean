import RoadVisionAI.Transition.Machine
import Mathlib.Data.List.Infix

/-!
# What has been done

`history_of_run` is the rule for statements about what has happened: what holds of the state and the
actions so far holds at the end of a run of all its actions.  `moves_of_run` is the same with every
action beside the state it is taken in.

Where actions have owners, `own` is what one of them has done.  A piece of work that it has just
made without a break (`<:+`) grows with its next action, and is there for good (`<:+:`).
-/

namespace RoadVisionAI.Transition.Machine

variable {σ α : Type*} {m : Machine σ α}

/-- What holds of a state and the actions so far, step by step.  By induction on the run. -/
theorem history_of_run {P : σ → List α → Prop}
    (hstep : ∀ s done a s', P s done → m.step s a = some s' → P s' (done ++ [a])) {s t : σ}
    (done : List α) {actions : List α} (hs : P s done) (h : m.run s actions = some t) :
    P t (done ++ actions) := by
  induction actions generalizing s done with
  | nil =>
    obtain rfl := Option.some.inj h
    rwa [List.append_nil]
  | cons a actions ih =>
    obtain ⟨s', hfirst, hrest⟩ := run_cons_eq_some_iff.mp h
    rw [List.append_cons]
    exact ih (done ++ [a]) (hstep s done a s' hs hfirst) hrest

variable (m) in
/-- The actions of a run, each with the state it is taken in. -/
def moves (s : σ) : List α → List (σ × α)
  | [] => []
  | a :: actions => (s, a) :: (m.step s a).elim [] fun s' => moves s' actions

/-- What holds of a state and the moves so far, step by step.  By induction on the run. -/
theorem moves_of_run {P : σ → List (σ × α) → Prop}
    (hstep : ∀ s done a s', P s done → m.step s a = some s' → P s' (done ++ [(s, a)])) {s t : σ}
    (done : List (σ × α)) {actions : List α} (hs : P s done) (h : m.run s actions = some t) :
    P t (done ++ m.moves s actions) := by
  induction actions generalizing s done with
  | nil =>
    obtain rfl := Option.some.inj h
    rwa [moves, List.append_nil]
  | cons a actions ih =>
    obtain ⟨s', hfirst, hrest⟩ := run_cons_eq_some_iff.mp h
    have hmoves : m.moves s (a :: actions) = (s, a) :: m.moves s' actions := by
      rw [moves, hfirst, Option.elim_some]
    rw [hmoves, List.append_cons]
    exact ih (done ++ [(s, a)]) (hstep s done a s' hs hfirst) hrest

theorem map_snd_moves {s t : σ} {actions : List α} (h : m.run s actions = some t) :
    (m.moves s actions).map Prod.snd = actions := by
  induction actions generalizing s with
  | nil => rfl
  | cons a actions ih =>
    obtain ⟨s', hfirst, hrest⟩ := run_cons_eq_some_iff.mp h
    rw [moves, hfirst, Option.elim_some, List.map_cons, ih hrest]

/-! ### What one owner has done -/

section

variable {β ι : Type*} [DecidableEq ι] (owner : β → Option ι) (i : ι)

/-- What `i` has done. -/
def own (done : List β) : List β := done.filter fun a => owner a = some i

variable {owner i} {part done : List β} {a : β}

theorem own_append_self (h : owner a = some i) :
    own owner i (done ++ [a]) = own owner i done ++ [a] := by
  simp [own, h]

theorem own_append_other (h : owner a ≠ some i) :
    own owner i (done ++ [a]) = own owner i done := by
  simp [own, h]

theorem mem_of_mem_own (h : a ∈ own owner i done) : a ∈ done := (List.mem_filter.mp h).1

/-- A piece of work begins. -/
theorem suffix_own_first (h : owner a = some i) : [a] <:+ own owner i (done ++ [a]) := by
  rw [own_append_self h]
  exact List.suffix_append ..

/-- Its owner goes on. -/
theorem suffix_own_next (hpart : part <:+ own owner i done) (h : owner a = some i) :
    part ++ [a] <:+ own owner i (done ++ [a]) := by
  obtain ⟨before, hbefore⟩ := hpart
  rw [own_append_self h, ← hbefore, List.append_assoc]
  exact List.suffix_append ..

/-- The others do not break in. -/
theorem suffix_own_other (hpart : part <:+ own owner i done) (h : owner a ≠ some i) :
    part <:+ own owner i (done ++ [a]) := by
  rwa [own_append_other h]

/-- What has been done has been done. -/
theorem infix_own_append (hpart : part <:+: own owner i done) :
    part <:+: own owner i (done ++ [a]) := by
  rw [own, List.filter_append]
  exact hpart.trans (List.prefix_append ..).isInfix

end

end RoadVisionAI.Transition.Machine
