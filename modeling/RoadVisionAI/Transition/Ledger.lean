import RoadVisionAI.Transition.Machine
import Mathlib.Algebra.Order.BigOperators.Group.Finset

/-!
# Logs that tell the story

A machine appends to a log, and the entries of the log are those of the actions of another machine,
the ledger.  When every step appends a run of the ledger between what the states show, so does every
run (`explains_of_leads`); and when a step that appends nothing changes nothing, a run that has
appended nothing has changed nothing (`same_of_silent`).

For accounts: when actions grant and what is granted is held until it is spent, a run has spent no
more than it was granted (`Covered.spent_le`).
-/

namespace RoadVisionAI.Transition.Machine

variable {σ τ α ε β : Type*} {m : Machine σ α}

/-! ### The ledger -/

section

variable (ledger : Machine τ ε) (log : σ → List β) (entry : ε → β) (shows : σ → τ → Prop)

/-- From `s` to `t` the log has grown by a run of the ledger between what the states show; `entry`
is what the log keeps of an action of the ledger. -/
def Explains (s t : σ) : Prop :=
  ∃ rest : List ε, log t = log s ++ rest.map entry ∧
    ∀ l, shows s l → ∃ l', shows t l' ∧ ledger.run l rest = some l'

end

variable {ledger : Machine τ ε} {log : σ → List β} {entry : ε → β} {shows : σ → τ → Prop}

/-- What appends nothing and shows what was shown. -/
theorem Explains.of_same {s t : σ} (hlog : log t = log s) (hshows : ∀ l, shows s l → shows t l) :
    Explains ledger log entry shows s t :=
  ⟨[], hlog.trans (List.append_nil _).symm, fun l hl => ⟨l, hshows l hl, rfl⟩⟩

/-- What appends one entry, of an action of the ledger. -/
theorem Explains.of_entry {s t : σ} {e : ε} (hlog : log t = log s ++ [entry e])
    (hshows : ∀ l, shows s l → ∃ l', ledger.step l e = some l' ∧ shows t l') :
    Explains ledger log entry shows s t := by
  refine ⟨[e], hlog, fun l hl => ?_⟩
  obtain ⟨l', hstep, hl'⟩ := hshows l hl
  exact ⟨l', hl', run_cons_eq_some_iff.mpr ⟨l', hstep, rfl⟩⟩

theorem Explains.refl (s : σ) : Explains ledger log entry shows s s :=
  .of_same rfl fun _ hl => hl

theorem Explains.trans {s t u : σ} (h : Explains ledger log entry shows s t)
    (h' : Explains ledger log entry shows t u) : Explains ledger log entry shows s u := by
  obtain ⟨rest, hlog, hrun⟩ := h
  obtain ⟨rest', hlog', hrun'⟩ := h'
  refine ⟨rest ++ rest', ?_, fun l hl => ?_⟩
  · rw [hlog', hlog, List.map_append, List.append_assoc]
  · obtain ⟨l', hl', hrest⟩ := hrun l hl
    obtain ⟨l'', hl'', hrest'⟩ := hrun' l' hl'
    exact ⟨l'', hl'', run_append hrest hrest'⟩

/-- Steps that explain what they do make runs that do. -/
theorem explains_of_leads {I : σ → Prop} (hI : m.Invariant I)
    (hstep : ∀ s a s', I s → m.step s a = some s' → Explains ledger log entry shows s s') {s t : σ}
    (hs : I s) (hst : m.Leads s t) : Explains ledger log entry shows s t :=
  hI.rel_of_leads Explains.refl (fun _ _ _ => Explains.trans) hstep hs hst

/-! ### Silence -/

/-- The log has grown, and if not, then `f` is what it was, where `P` holds and goes on to hold. -/
def Silent {γ : Type*} (log : σ → List β) (P : σ → Prop) (f : σ → γ) (s t : σ) : Prop :=
  ∃ rest, log t = log s ++ rest ∧ (rest = [] → P s → P t ∧ f t = f s)

theorem Silent.refl {γ : Type*} {P : σ → Prop} {f : σ → γ} (s : σ) : Silent log P f s s :=
  ⟨[], (List.append_nil _).symm, fun _ hP => ⟨hP, rfl⟩⟩

theorem Silent.trans {γ : Type*} {P : σ → Prop} {f : σ → γ} {s t u : σ} (h : Silent log P f s t)
    (h' : Silent log P f t u) : Silent log P f s u := by
  obtain ⟨rest, hlog, hsame⟩ := h
  obtain ⟨rest', hlog', hsame'⟩ := h'
  refine ⟨rest ++ rest', by rw [hlog', hlog, List.append_assoc], fun hnil hP => ?_⟩
  obtain ⟨hrest, hrest'⟩ := List.append_eq_nil_iff.mp hnil
  obtain ⟨hPt, hft⟩ := hsame hrest hP
  obtain ⟨hPu, hfu⟩ := hsame' hrest' hPt
  exact ⟨hPu, hfu.trans hft⟩

/-- A run that has logged nothing has changed nothing. -/
theorem same_of_silent {γ : Type*} {I P : σ → Prop} {f : σ → γ} (hI : m.Invariant I)
    (hstep : ∀ s a s', I s → m.step s a = some s' → Silent log P f s s') {s t : σ} (hs : I s)
    (hst : m.Leads s t) (hP : P s) (hlog : log t = log s) : P t ∧ f t = f s := by
  obtain ⟨rest, hrest, hsame⟩ :=
    hI.rel_of_leads Silent.refl (fun _ _ _ => Silent.trans) hstep hs hst
  refine hsame ?_ hP
  rw [hrest] at hlog
  exact List.append_right_eq_self.mp hlog

/-! ### Accounts -/

section

variable {ι M : Type*} [AddCommMonoid M] [PartialOrder M]

/-- What is held and what is spent is covered by what has been granted; only finitely many hold. -/
def Covered (held : σ → ι → M) (spent : σ → M) (s : σ) (granted : M) : Prop :=
  ∃ holders : Finset ι, (∀ i ∉ holders, held s i = 0) ∧
    spent s + ∑ i ∈ holders, held s i ≤ granted

variable {held : σ → ι → M} {spent : σ → M}

theorem Covered.of_unheld {s : σ} (h : ∀ i, held s i = 0) : Covered held spent s (spent s) :=
  ⟨∅, fun i _ => h i, by rw [Finset.sum_empty, add_zero]⟩

variable [IsOrderedAddMonoid M]

/-- A step in which `i` spends what it holds, or what it is granted. -/
theorem Covered.step [DecidableEq ι] {s s' : σ} {granted grant : M} (i : ι)
    (h : Covered held spent s granted)
    (hothers : ∀ j, j ≠ i → held s' j = held s j)
    (hi : spent s' + held s' i ≤ spent s + held s i + grant) :
    Covered held spent s' (granted + grant) := by
  obtain ⟨holders, hnone, hle⟩ := h
  have hall : ∑ j ∈ holders, held s j = held s i + ∑ j ∈ holders.erase i, held s j := by
    by_cases hmem : i ∈ holders
    · exact (Finset.add_sum_erase holders _ hmem).symm
    · rw [hnone i hmem, zero_add, Finset.erase_eq_of_notMem hmem]
  refine ⟨insert i holders, fun j hj => ?_, ?_⟩
  · obtain ⟨hne, hmem⟩ := not_or.mp (mt Finset.mem_insert.mpr hj)
    rw [hothers j hne, hnone j hmem]
  · have hrest : ∑ j ∈ holders.erase i, held s' j = ∑ j ∈ holders.erase i, held s j :=
      Finset.sum_congr rfl fun j hj => hothers j (Finset.ne_of_mem_erase hj)
    have hsum : ∑ j ∈ insert i holders, held s' j
        = held s' i + ∑ j ∈ holders.erase i, held s j := by
      rw [← hrest, ← Finset.erase_insert_eq_erase holders i]
      exact (Finset.add_sum_erase _ _ (Finset.mem_insert_self i holders)).symm
    calc spent s' + ∑ j ∈ insert i holders, held s' j
        = spent s' + held s' i + ∑ j ∈ holders.erase i, held s j := by rw [hsum, add_assoc]
      _ ≤ spent s + held s i + grant + ∑ j ∈ holders.erase i, held s j := by gcongr
      _ = spent s + ∑ j ∈ holders, held s j + grant := by
        rw [hall, add_right_comm, add_assoc (spent s)]
      _ ≤ granted + grant := by gcongr

/-- What is spent has been granted. -/
theorem Covered.spent_le {s : σ} {granted : M} (h : Covered held spent s granted)
    (hheld : ∀ i, 0 ≤ held s i) : spent s ≤ granted := by
  obtain ⟨holders, -, hle⟩ := h
  exact le_trans (le_add_of_nonneg_right (Finset.sum_nonneg fun i _ => hheld i)) hle

end

end RoadVisionAI.Transition.Machine
