import RoadVisionAI.Reports.Equiv.Archive
import RoadVisionAI.Transition.Holdings

/-!
# Who owns a PDF

The PDF is uploaded before its row is there, so between the upload and the commit the call owns it
and after the commit the report does (`holdings`).  A call that ends otherwise leaves the PDF to
nobody: `pdfs_owned_iff`.
-/

namespace RoadVisionAI.Reports

open Python Db Transition

variable {env : Env} {p q : ℕ} {input : Input}

/-- The object a call has uploaded. -/
def Proc.uploads : Proc → Option String
  | .generate _ (.uploaded _ objectName) | .generate _ (.inserted _ objectName _)
  | .generate _ (.audited _ objectName _) => some objectName
  | _ => none

/-- Who refers to an object: a committed report, or a call under way. -/
inductive Owner where
  | report (reportId : Uuid)
  | call (p : ℕ)
deriving DecidableEq

/-- The owner refers to the object. -/
def State.Refers (env : Env) (s : State) : Owner → String → Prop
  | .report reportId, objectName => ∃ row, s.db.reports.committed reportId = some row ∧
      row.filePath = some s!"{env.bucket.name}/{objectName}"
  | .call p, objectName => (s.procs p).uploads = some objectName

/-- The objects of the bucket, and who refers to them. -/
def State.holdings (env : Env) (s : State) : Holdings String Owner where
  stored objectName := (s.db.objects (env.bucket.name, objectName)).isSome
  owns := s.Refers env

/-- A call that has uploaded its PDF does not fail. -/
def Carried (s : State) : Action → Prop
  | .fail p => (s.procs p).uploads = none
  | .start .. | .exec .. => True

theorem filePath_inj {objectName other : String}
    (h : s!"{env.bucket.name}/{objectName}" = s!"{env.bucket.name}/{other}") :
    objectName = other :=
  String.append_right_inj _ |>.mp h

/-! ### One step -/

theorem Proc.Unbuilt.uploads {proc : Proc} (h : proc.Unbuilt) : proc.uploads = none := by
  unfold Proc.Unbuilt at h
  split at h
  · rfl
  · rfl
  · rfl
  · rfl
  · exact h.elim

section

variable {s : State} {effect : Effect} {proc' : Proc}

theorem refers_after_call : (s.after p effect proc').Refers env (.call q) =
    if q = p then fun objectName => proc'.uploads = some objectName else s.Refers env (.call q) := by
  funext objectName
  show ((Function.update s.procs p proc' q).uploads = some objectName) = _
  by_cases hq : q = p
  · rw [hq, Function.update_self, if_pos rfl]
  · rw [Function.update_of_ne hq, if_neg hq]
    rfl

/-- What changes neither the objects nor the committed rows, nor what the process has uploaded. -/
theorem holdings_stay (hobjects : (effect.apply p s.db).objects = s.db.objects)
    (hrows : ∀ k, (effect.apply p s.db).reports.committed k = s.db.reports.committed k)
    (huploads : proc'.uploads = (s.procs p).uploads) :
    (s.after p effect proc').holdings env = s.holdings env := by
  ext o objectName
  · show (Option.isSome ((effect.apply p s.db).objects _) = true) ↔ _
    rw [hobjects]
    rfl
  · cases o with
    | report k =>
      show (∃ row, (effect.apply p s.db).reports.committed k = some row ∧ _) ↔ _
      rw [hrows]
      rfl
    | call q =>
      show (s.after p effect proc').Refers env (.call q) objectName ↔ _
      rw [refers_after_call]
      split_ifs with hq
      · rw [huploads, hq]
        rfl
      · rfl

/-- An upload: the call takes the object. -/
theorem holdings_upload {call : GenerateCall} {pdf : ByteArray} {objectName : String}
    (hproc : s.procs p = .generate call (.built pdf)) :
    (s.after p (.putObject env.bucket.name objectName pdf)
      (.generate call (.uploaded pdf objectName))).holdings env
        = (s.holdings env).take (.call p) objectName := by
  refine Holdings.ext (funext fun name => propext ?_) (funext₂ fun o name => propext ?_)
  · show (Function.update s.db.objects (env.bucket.name, objectName) (some pdf)
      (env.bucket.name, name)).isSome = true ↔ (s.db.objects _).isSome = true ∨ name = objectName
    by_cases hname : name = objectName
    · rw [hname, Function.update_self]
      simp
    · rw [Function.update_of_ne (by simpa using hname)]
      simp [hname]
  · cases o with
    | report k => simp [State.holdings, Holdings.take, State.Refers, State.after, Effect.apply]
    | call q =>
      show (s.after p _ _).Refers env (.call q) name ↔ s.Refers env (.call q) name ∨ _
      rw [refers_after_call]
      split_ifs with hq
      · simp [hq, State.Refers, hproc, Proc.uploads, eq_comm]
      · simp [hq]

/-- A commit: the report gets the object of the call. -/
theorem holdings_commit {call : GenerateCall} {pdf : ByteArray} {objectName : String}
    {reportId : Uuid} (hproc : s.procs p = .generate call (.audited pdf objectName reportId))
    (hkeeps : (Proc.generate call (.audited pdf objectName reportId)).Keeps env s.db p) :
    (s.after p (.commit (auditOf call reportId pdf)) .idle).holdings env
      = (s.holdings env).pass (.call p) (.report reportId) := by
  obtain ⟨-, -, now, hinserts⟩ := hkeeps
  ext o name
  · rfl
  · cases o with
    | report k =>
      show (∃ row, (s.db.reports.commit p).committed k = some row ∧ _) ↔
        Owner.report k ≠ .call p ∧ s.Refers env (.report k) name ∨
          Owner.report k = .report reportId ∧ (s.procs p).uploads = some name
      rw [hinserts.committed_commit, hproc]
      obtain rfl | hk := eq_or_ne k reportId
      · have hnone : ¬ s.Refers env (.report k) name := by
          rintro ⟨row, hrow, -⟩
          exact nomatch hinserts.new.symm.trans hrow
        rw [if_pos rfl]
        simp only [Option.some.injEq, exists_eq_left', hnone, and_false, false_or, true_and,
          Proc.uploads, GenerateCall.report]
        exact ⟨fun h => filePath_inj h, fun h => h ▸ rfl⟩
      · simp [hk, State.Refers]
    | call q =>
      show (s.after p _ _).Refers env (.call q) name ↔
        Owner.call q ≠ .call p ∧ s.Refers env (.call q) name ∨ Owner.call q = .report reportId ∧ _
      rw [refers_after_call]
      split_ifs with hq
      · simp [hq, Proc.uploads]
      · simp [hq]

/-- A failure: the call is gone. -/
theorem holdings_fail :
    (s.after p .rollback .idle).holdings env = (s.holdings env).drop (.call p) := by
  ext o name
  · rfl
  · cases o with
    | report k => simp [State.holdings, Holdings.drop, State.Refers, State.after, Effect.apply,
        LockedTable.committed, LockedTable.rollback, Slot.rollback]
    | call q =>
      show (s.after p _ _).Refers env (.call q) name ↔
        Owner.call q ≠ .call p ∧ s.Refers env (.call q) name
      rw [refers_after_call]
      split_ifs with hq
      · simp [hq, Proc.uploads]
      · simp [hq]

end

/-- What one action does to the holdings: only a failure drops an owner. -/
theorem holdings_step {s s' : State} {a : Action} (hs : Sound env s) (hfresh : FreshName env s a)
    (h : step env s a = some s') :
    (Carried s a ∧ (s'.holdings env = s.holdings env ∨
      (∃ o n, ¬ (s.holdings env).stored n ∧ s'.holdings env = (s.holdings env).take o n) ∨
      ∃ o o', s'.holdings env = (s.holdings env).pass o o')) ∨
      ∃ q, a = .fail q ∧ s'.holdings env = (s.holdings env).drop (.call q) := by
  rcases step_cases h with ⟨q, call, rfl, hidle, rfl⟩ |
    ⟨q, input, effect, proc, rfl, hmakes, rfl⟩ | ⟨q, rfl, rfl⟩
  · refine Or.inl ⟨trivial, Or.inl (holdings_stay rfl (fun _ => rfl) ?_)⟩
    rw [hidle]
    rfl
  · refine Or.inl ⟨trivial, ?_⟩
    have hkeeps := hs.keeps q
    have hfresh : (s.procs q).FreshName env s.db.objects input := hfresh
    generalize hproc : s.procs q = before at hmakes hkeeps hfresh
    cases hmakes with
    | read hbefore hafter _ =>
      refine Or.inl (holdings_stay rfl (fun _ => rfl) ?_)
      rw [hproc, hbefore.uploads, hafter.uploads]
    | refuse hbefore =>
      exact Or.inl (holdings_stay rfl (fun _ => rfl) (by rw [hproc, hbefore.uploads]; rfl))
    | build => exact Or.inl (holdings_stay rfl (fun _ => rfl) (by rw [hproc]; rfl))
    | upload =>
      refine Or.inr (Or.inl ⟨_, _, fun hstored => ?_, holdings_upload hproc⟩)
      exact Option.isSome_iff_ne_none.mp hstored hfresh
    | flush =>
      exact Or.inl (holdings_stay rfl (fun _ => LockedTable.committed_write) (by rw [hproc]; rfl))
    | audit => exact Or.inl (holdings_stay rfl (fun _ => rfl) (by rw [hproc]; rfl))
    | commit => exact Or.inr (Or.inr ⟨_, _, holdings_commit hproc hkeeps⟩)
  · exact Or.inr ⟨q, rfl, holdings_fail⟩

theorem sole_step {s s' : State} {a : Action} (hs : Sound env s) (hsole : (s.holdings env).Sole)
    (hfresh : FreshName env s a) (h : step env s a = some s') : (s'.holdings env).Sole := by
  rcases holdings_step hs hfresh h with ⟨-, hstay | ⟨o, n, hn, htake⟩ | ⟨o, o', hpass⟩⟩ |
    ⟨q, -, hdrop⟩
  · rwa [hstay]
  · rw [htake]
    exact hsole.take hn
  · rw [hpass]
    exact hsole.pass
  · rw [hdrop]
    exact hsole.drop

theorem sole_invariant : (reporting env).Invariant fun s => Sound env s ∧ (s.holdings env).Sole :=
  sound_invariant.and
    (fun s hs => by
      obtain rfl : s = State.empty := hs
      refine ⟨fun o n ho => ?_, fun o o' n ho => ?_⟩
      · cases o with
        | report k =>
          obtain ⟨row, hrow, -⟩ := ho
          cases hrow
        | call q => cases ho
      · cases o with
        | report k =>
          obtain ⟨row, hrow, -⟩ := ho
          cases hrow
        | call q => cases ho)
    fun s a s' hs hsole h => by
      obtain ⟨hfresh, hstep⟩ := Machine.step_restrict_eq_some_iff.mp h
      exact sole_step hs hsole hfresh hstep

theorem covered_step {s s' : State} {a : Action} (hs : Sound env s)
    (hsole : (s.holdings env).Sole) (hfresh : FreshName env s a) (h : step env s a = some s') :
    (s'.holdings env).Covered ↔ (s.holdings env).Covered ∧ Carried s a := by
  rcases holdings_step hs hfresh h with
    ⟨hcarried, hstay | ⟨o, n, hn, htake⟩ | ⟨o, o', hpass⟩⟩ | ⟨q, rfl, hdrop⟩
  · rw [hstay, and_iff_left hcarried]
  · rw [htake, Holdings.covered_take_iff hn, and_iff_left hcarried]
  · rw [hpass, Holdings.covered_pass_iff, and_iff_left hcarried]
  · rw [hdrop, Holdings.covered_drop_iff hsole]
    exact and_congr_right' Option.eq_none_iff_forall_ne_some.symm

/-- **No orphans.**  Along a run from the beginning with fresh names, every stored PDF belongs to
exactly one committed report, or to one call under way, exactly when no call fails between its
upload and its commit; and in any case no two reports share a PDF. -/
theorem pdfs_owned_iff {t : State} {actions : List Action}
    (hrun : (reporting env).run State.empty actions = some t) :
    ((∀ objectName, (t.db.objects (env.bucket.name, objectName)).isSome →
        ∃! o, t.Refers env o objectName) ↔
      (reporting env).ActionsMeet Carried State.empty actions) ∧
      ∀ o o' objectName, t.Refers env o objectName → t.Refers env o' objectName → o = o' := by
  have hempty : (reporting env).init State.empty := rfl
  have hinit := sole_invariant.init _ hempty
  have hsole := (sole_invariant.of_run hinit hrun).2
  refine ⟨?_, hsole.unique⟩
  have hcovered : (State.empty.holdings env).Covered := fun _ hstored => nomatch hstored
  have hiff : (t.holdings env).Covered ↔ _ := sole_invariant.end_iff_actionsMeet
    (P := fun s => (s.holdings env).Covered) (C := Carried)
    (fun s a s' hs h => by
      obtain ⟨hfresh, hstep⟩ := Machine.step_restrict_eq_some_iff.mp h
      exact covered_step hs.1 hs.2 hfresh hstep) hinit hrun
  rw [and_iff_right hcovered] at hiff
  rw [← hiff]
  constructor
  · exact fun howned objectName hstored => (howned objectName hstored).exists
  · intro howned objectName hstored
    obtain ⟨o, ho⟩ := howned objectName hstored
    exact ⟨o, ho, fun o' ho' => hsole.unique o' o objectName ho' ho⟩

/-- The PDF of the report is the report's. -/
theorem pdfs_owned_iff_reported :
    ∃ t, (reporting pageEnv).run State.empty reported = some t ∧
      ∀ objectName, (t.db.objects ("reports", objectName)).isSome →
        ∃! o, t.Refers pageEnv o objectName := by
  obtain ⟨t, -, hrun, -⟩ := run_reported
  refine ⟨t, hrun, (pdfs_owned_iff hrun).1.mpr (.of_forall fun a ha s => ?_)⟩
  rcases List.mem_cons.mp ha with rfl | ha
  · trivial
  · rw [List.eq_of_mem_replicate ha]
    trivial

end RoadVisionAI.Reports
