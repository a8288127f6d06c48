import Mathlib.Data.Nat.Notation
import Mathlib.Data.Option.Basic
import Mathlib.Logic.Basic

/-!
# Machines and their runs

A machine takes an action at a time; an action that is not enabled makes no step.  Interleavings
are the lists of actions that can be run.

* `Invariant.holds`: what holds initially and survives every step holds of every reachable state.
* `Invariant.rel_of_leads`: a reflexive, transitive relation that every step makes, makes every run.
* `Invariant.statesMeet_iff_actionsMeet`: a property that a step keeps exactly when it meets a
  condition is kept along a run exactly when all its steps do; `statesMeet_of_actionsMeet` is the
  same in one direction.
* `Invariant.end_iff_actionsMeet`: when what a step has spoilt stays spoilt, it is enough to look at
  the end of the run.
* `Invariant.stepsMeet_iff_actionsMeet`: the same for a relation between the two ends of a step.
* `restrict`: the runs whose actions all meet a condition, as the runs of a machine.
-/

namespace RoadVisionAI.Transition

/-- Where the runs start, and what an action makes of a state. -/
structure Machine (σ α : Type*) where
  init : σ → Prop
  step : σ → α → Option σ

namespace Machine

variable {σ α : Type*} (m : Machine σ α)

/-- The state a list of actions leads to, when each is enabled. -/
def run (s : σ) (actions : List α) : Option σ := actions.foldlM m.step s

/-- Some run leads from `s` to `t`. -/
def Leads (s t : σ) : Prop := ∃ actions, m.run s actions = some t

/-- Some run leads from an initial state to `t`. -/
def Reachable (t : σ) : Prop := ∃ s, m.init s ∧ m.Leads s t

variable {m}

theorem run_cons (s : σ) (a : α) (actions : List α) :
    m.run s (a :: actions) = (m.step s a).bind fun s' => m.run s' actions := rfl

theorem run_cons_eq_some_iff {s t : σ} {a : α} {actions : List α} :
    m.run s (a :: actions) = some t ↔ ∃ s', m.step s a = some s' ∧ m.run s' actions = some t := by
  rw [run_cons, Option.bind_eq_some_iff]

theorem Leads.refl (s : σ) : m.Leads s s := ⟨[], rfl⟩

/-- One step, and then a run. -/
theorem Leads.head {s s' t : σ} {a : α} (hstep : m.step s a = some s') (h : m.Leads s' t) :
    m.Leads s t := by
  obtain ⟨actions, hrun⟩ := h
  exact ⟨a :: actions, run_cons_eq_some_iff.mpr ⟨s', hstep, hrun⟩⟩

theorem run_append {s t u : σ} {actions more : List α} (h : m.run s actions = some t)
    (h' : m.run t more = some u) : m.run s (actions ++ more) = some u := by
  rw [run, List.foldlM_append, ← run, h]
  exact h'

/-- One run, and then another. -/
theorem Leads.trans {s t u : σ} (h : m.Leads s t) (h' : m.Leads t u) : m.Leads s u := by
  obtain ⟨actions, hrun⟩ := h
  obtain ⟨more, hmore⟩ := h'
  exact ⟨actions ++ more, run_append hrun hmore⟩

/-- The end of a run that has been evaluated. -/
theorem reachable_of_map_run {β : Type*} {f : σ → β} {s : σ} {actions : List α} {b : β}
    (hs : m.init s) (h : (m.run s actions).map f = some b) :
    ∃ t, m.run s actions = some t ∧ m.Reachable t ∧ f t = b := by
  obtain ⟨t, ht, hb⟩ := Option.map_eq_some_iff.mp h
  exact ⟨t, ht, ⟨s, hs, actions, ht⟩, hb⟩

/-! ### Invariants -/

variable (m) in
/-- `P` holds initially, and every step preserves it. -/
structure Invariant (P : σ → Prop) : Prop where
  init : ∀ s, m.init s → P s
  step : ∀ s a s', P s → m.step s a = some s' → P s'

namespace Invariant

variable {P : σ → Prop} (hP : m.Invariant P)
include hP

/-- A run keeps an invariant.  By induction on the run. -/
theorem of_run {s t : σ} {actions : List α} (hs : P s) (h : m.run s actions = some t) : P t := by
  induction actions generalizing s with
  | nil =>
    obtain rfl := Option.some.inj h
    exact hs
  | cons a actions ih =>
    obtain ⟨s', hstep, hrun⟩ := run_cons_eq_some_iff.mp h
    exact ih (hP.step s a s' hs hstep) hrun

/-- Every reachable state satisfies an invariant. -/
theorem holds {s : σ} (h : m.Reachable s) : P s := by
  obtain ⟨s₀, hinit, actions, hrun⟩ := h
  exact hP.of_run (hP.init s₀ hinit) hrun

/-- A reflexive, transitive relation that every step makes holds between the ends of a run. -/
theorem rel_of_leads {R : σ → σ → Prop} (hrefl : ∀ s, R s s)
    (htrans : ∀ s t u, R s t → R t u → R s u)
    (hstep : ∀ s a s', P s → m.step s a = some s' → R s s') {s t : σ} (hs : P s)
    (h : m.Leads s t) : R s t := by
  obtain ⟨actions, hrun⟩ := h
  induction actions generalizing s with
  | nil =>
    obtain rfl := Option.some.inj hrun
    exact hrefl s
  | cons a actions ih =>
    obtain ⟨s', hfirst, hrest⟩ := run_cons_eq_some_iff.mp hrun
    exact htrans s s' t (hstep s a s' hs hfirst) (ih (hP.step s a s' hs hfirst) hrest)

end Invariant

/-- A second invariant may use a first one. -/
theorem Invariant.and {P Q : σ → Prop} (hP : m.Invariant P) (hinit : ∀ s, m.init s → Q s)
    (hstep : ∀ s a s', P s → Q s → m.step s a = some s' → Q s') :
    m.Invariant fun s => P s ∧ Q s where
  init s h := ⟨hP.init s h, hinit s h⟩
  step s a s' h hs := ⟨hP.step s a s' h.1 hs, hstep s a s' h.1 h.2 hs⟩

/-! ### Conditions on the steps of a run -/

variable (m) in
/-- Every state on the way satisfies `P`, both ends included. -/
def StatesMeet (P : σ → Prop) (s : σ) : List α → Prop
  | [] => P s
  | a :: actions => P s ∧ ∀ s', m.step s a = some s' → StatesMeet P s' actions

variable (m) in
/-- Every action on the way meets the condition `C` in the state it is taken in. -/
def ActionsMeet (C : σ → α → Prop) (s : σ) : List α → Prop
  | [] => True
  | a :: actions => C s a ∧ ∀ s', m.step s a = some s' → ActionsMeet C s' actions

instance ActionsMeet.decidable {C : σ → α → Prop} [∀ s a, Decidable (C s a)] :
    ∀ (s : σ) (actions : List α), Decidable (m.ActionsMeet C s actions)
  | _, [] => isTrue trivial
  | s, a :: actions =>
    match h : m.step s a with
    | none => decidable_of_iff (C s a) (by simp [ActionsMeet, h])
    | some s' =>
      have : Decidable (m.ActionsMeet C s' actions) := ActionsMeet.decidable s' actions
      decidable_of_iff (C s a ∧ m.ActionsMeet C s' actions) (by simp [ActionsMeet, h])

/-- A condition that the actions meet wherever they are taken. -/
theorem ActionsMeet.of_forall {C : σ → α → Prop} {s : σ} {actions : List α}
    (h : ∀ a ∈ actions, ∀ s, C s a) : m.ActionsMeet C s actions := by
  induction actions generalizing s with
  | nil => trivial
  | cons a actions ih =>
    obtain ⟨hfirst, hrest⟩ := List.forall_mem_cons.mp h
    exact ⟨hfirst s, fun _ _ => ih hrest⟩

/-- When a step keeps `P` exactly if it meets `C`, so does a run.  By induction on the run. -/
theorem Invariant.statesMeet_iff_actionsMeet {I P : σ → Prop} {C : σ → α → Prop}
    (hI : m.Invariant I)
    (hstep : ∀ s a s', I s → P s → m.step s a = some s' → (P s' ↔ C s a)) {s t : σ}
    {actions : List α} (hs : I s) (hP : P s) (h : m.run s actions = some t) :
    m.StatesMeet P s actions ↔ m.ActionsMeet C s actions := by
  induction actions generalizing s with
  | nil => exact iff_of_true hP trivial
  | cons a actions ih =>
    obtain ⟨s', hfirst, hrest⟩ := run_cons_eq_some_iff.mp h
    have hs' := hI.step s a s' hs hfirst
    have hkeeps := hstep s a s' hs hP hfirst
    -- the first step decides whether `P` survives to where the rest starts
    have hstates : m.StatesMeet P s (a :: actions) ↔ m.StatesMeet P s' actions := by
      simp only [StatesMeet, hP, true_and, hfirst, Option.some.injEq, forall_eq']
    have hactions : m.ActionsMeet C s (a :: actions) ↔ C s a ∧ m.ActionsMeet C s' actions := by
      simp only [ActionsMeet, hfirst, Option.some.injEq, forall_eq']
    have hhead : m.StatesMeet P s' actions → P s' := by
      cases actions with
      | nil => exact id
      | cons b rest => exact And.left
    rw [hstates, hactions]
    constructor
    · intro hrun
      exact ⟨hkeeps.mp (hhead hrun), (ih hs' (hhead hrun) hrest).mp hrun⟩
    · rintro ⟨hC, hrun⟩
      exact (ih hs' (hkeeps.mpr hC) hrest).mpr hrun

/-- When steps that meet `C` keep `P`, so do runs whose steps all do. -/
theorem Invariant.statesMeet_of_actionsMeet {I P : σ → Prop} {C : σ → α → Prop}
    (hI : m.Invariant I) (hstep : ∀ s a s', I s → P s → C s a → m.step s a = some s' → P s')
    {s : σ} {actions : List α} (hs : I s) (hP : P s) (h : m.ActionsMeet C s actions) :
    m.StatesMeet P s actions := by
  induction actions generalizing s with
  | nil => exact hP
  | cons a actions ih =>
    refine ⟨hP, fun s' hfirst => ?_⟩
    exact ih (hI.step s a s' hs hfirst) (hstep s a s' hs hP h.1 hfirst) (h.2 s' hfirst)

/-- When a step leads to `P` exactly from `P` and by meeting `C`, a run does exactly when all its
steps meet `C`.  By induction on the run. -/
theorem Invariant.end_iff_actionsMeet {I P : σ → Prop} {C : σ → α → Prop} (hI : m.Invariant I)
    (hstep : ∀ s a s', I s → m.step s a = some s' → (P s' ↔ P s ∧ C s a)) {s t : σ}
    {actions : List α} (hs : I s) (h : m.run s actions = some t) :
    P t ↔ P s ∧ m.ActionsMeet C s actions := by
  induction actions generalizing s with
  | nil =>
    obtain rfl := Option.some.inj h
    simp only [ActionsMeet, and_true]
  | cons a actions ih =>
    obtain ⟨s', hfirst, hrest⟩ := run_cons_eq_some_iff.mp h
    rw [ih (hI.step s a s' hs hfirst) hrest, hstep s a s' hs hfirst]
    simp only [ActionsMeet, hfirst, Option.some.injEq, forall_eq', and_assoc]

variable (m) in
/-- Every step on the way makes the relation `R`. -/
def StepsMeet (R : σ → σ → Prop) (s : σ) : List α → Prop
  | [] => True
  | a :: actions => ∀ s', m.step s a = some s' → R s s' ∧ StepsMeet R s' actions

/-- When a step makes `R` exactly if it meets `C`, so do the steps of a run.  By induction on the
run. -/
theorem Invariant.stepsMeet_iff_actionsMeet {I : σ → Prop} {R : σ → σ → Prop} {C : σ → α → Prop}
    (hI : m.Invariant I) (hstep : ∀ s a s', I s → m.step s a = some s' → (R s s' ↔ C s a))
    {s t : σ} {actions : List α} (hs : I s) (h : m.run s actions = some t) :
    m.StepsMeet R s actions ↔ m.ActionsMeet C s actions := by
  induction actions generalizing s with
  | nil => exact Iff.rfl
  | cons a actions ih =>
    obtain ⟨s', hfirst, hrest⟩ := run_cons_eq_some_iff.mp h
    have hhead := hstep s a s' hs hfirst
    have htail := ih (hI.step s a s' hs hfirst) hrest
    simp only [StepsMeet, ActionsMeet, hfirst, Option.some.injEq, forall_eq', hhead, htail]

/-- The end of the run is on the way. -/
theorem StatesMeet.last {P : σ → Prop} {s t : σ} {actions : List α}
    (h : m.StatesMeet P s actions) (hrun : m.run s actions = some t) : P t := by
  induction actions generalizing s with
  | nil =>
    obtain rfl := Option.some.inj hrun
    exact h
  | cons a actions ih =>
    obtain ⟨s', hfirst, hrest⟩ := run_cons_eq_some_iff.mp hrun
    exact ih (h.2 s' hfirst) hrest

theorem StatesMeet.imp {P Q : σ → Prop} (hPQ : ∀ s, P s → Q s) {s : σ} {actions : List α}
    (h : m.StatesMeet P s actions) : m.StatesMeet Q s actions := by
  induction actions generalizing s with
  | nil => exact hPQ s h
  | cons a actions ih => exact ⟨hPQ s h.1, fun s' hfirst => ih (h.2 s' hfirst)⟩

/-! ### The runs that meet a condition -/

variable (m) in
open Classical in
/-- The machine whose actions are those that meet the condition `C`. -/
noncomputable def restrict (C : σ → α → Prop) : Machine σ α where
  init := m.init
  step s a := if C s a then m.step s a else none

theorem step_restrict_eq_some_iff {C : σ → α → Prop} {s t : σ} {a : α} :
    (m.restrict C).step s a = some t ↔ C s a ∧ m.step s a = some t := by
  classical
  have hstep : (m.restrict C).step s a = if C s a then m.step s a else none := rfl
  rw [hstep]
  by_cases hC : C s a
  · rw [if_pos hC, and_iff_right hC]
  · rw [if_neg hC]
    exact iff_of_false (fun h => nomatch h) fun h => hC h.1

/-- Its runs are the runs whose actions all meet `C`.  By induction on the run. -/
theorem run_restrict_eq_some_iff {C : σ → α → Prop} {s t : σ} {actions : List α} :
    (m.restrict C).run s actions = some t
      ↔ m.run s actions = some t ∧ m.ActionsMeet C s actions := by
  induction actions generalizing s with
  | nil => exact (and_iff_left trivial).symm
  | cons a actions ih =>
    simp only [run_cons_eq_some_iff, step_restrict_eq_some_iff, ActionsMeet]
    constructor
    · rintro ⟨s', ⟨hC, hstep⟩, hrun⟩
      obtain ⟨hrest, hmeet⟩ := ih.mp hrun
      refine ⟨⟨s', hstep, hrest⟩, hC, fun s'' hstep' => ?_⟩
      rw [hstep] at hstep'
      exact Option.some.inj hstep' ▸ hmeet
    · rintro ⟨⟨s', hstep, hrest⟩, hC, hmeet⟩
      exact ⟨s', ⟨hC, hstep⟩, ih.mpr ⟨hrest, hmeet s' hstep⟩⟩

end Machine

end RoadVisionAI.Transition
