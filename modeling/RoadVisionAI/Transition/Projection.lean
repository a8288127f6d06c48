import RoadVisionAI.Transition.Machine

/-!
# Projections

A machine that keeps more than another one and makes its steps, or none, on what they share: its
runs are runs of the other.
-/

namespace RoadVisionAI.Transition.Machine

variable {σ τ α β : Type*}

/-- Seen through `f`, every step of `m` is a step of `m'`, or none. -/
structure Projects (m : Machine σ α) (m' : Machine τ β) (f : σ → τ) : Prop where
  init : ∀ s, m.init s → m'.init (f s)
  step : ∀ s a s', m.step s a = some s' → f s' = f s ∨ ∃ b, m'.step (f s) b = some (f s')

namespace Projects

variable {m : Machine σ α} {m' : Machine τ β} {f : σ → τ} (h : Projects m m' f)
include h

/-- By induction on the run. -/
theorem leads {s t : σ} (hst : m.Leads s t) : m'.Leads (f s) (f t) := by
  obtain ⟨actions, hrun⟩ := hst
  induction actions generalizing s with
  | nil =>
    obtain rfl := Option.some.inj hrun
    exact .refl _
  | cons a actions ih =>
    obtain ⟨s', hfirst, hrest⟩ := run_cons_eq_some_iff.mp hrun
    rcases h.step s a s' hfirst with heq | ⟨b, hb⟩
    · exact heq ▸ ih hrest
    · exact .head hb (ih hrest)

theorem reachable {t : σ} (ht : m.Reachable t) : m'.Reachable (f t) := by
  obtain ⟨s, hs, hst⟩ := ht
  exact ⟨f s, h.init s hs, h.leads hst⟩

end Projects

end RoadVisionAI.Transition.Machine
