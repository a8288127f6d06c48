import RoadVisionAI.Detection.Equiv.Artifacts
import RoadVisionAI.Reports.Service
import RoadVisionAI.Transition.Ledger
import RoadVisionAI.Transition.Past

/-!
# The archive of the reports

What the service is for, as a machine of its own: a plan can be given a report, once, and keeps it
(`archive`).  A report there is the PDF itself, while the service has a row in one store and an
object in another.  `service` refines the archive (`refines_archive`): a commit files one report
(`Shows.commit`), everything else files none, the audit log is the list of what has been filed, and
`download_url` leads to the PDF that was built.

`uuid.uuid4` is assumed to give names that have not been used (`FreshName`): an upload under a name
in use would replace the PDF of another report.
-/

namespace RoadVisionAI.Reports

open Python Db Transition
open ModelRegistry (Bucket ObjectStore)

variable {env : Env} {db : Database} {p q : ℕ} {input : Input}

/-! ### The archive -/

/-- A report: its identifier, what was asked for, and the PDF. -/
structure Filing where
  reportId : Uuid
  call : GenerateCall
  pdf : ByteArray

/-- The entry of the audit log. -/
def Filing.entry (filing : Filing) : AuditLog := auditOf filing.call filing.reportId filing.pdf

/-- The reports by their plans. -/
abbrev Archive := Uuid → Option Filing

/-- A plan that has no report is given one. -/
def Archive.file (archive : Archive) (filing : Filing) : Option Archive :=
  if archive filing.call.planId = none then
    some (Function.update archive filing.call.planId (some filing))
  else none

/-- The archive, from the beginning. -/
def archive : Machine Archive Filing where
  init a := a = fun _ => none
  step := Archive.file

theorem archive_file {a : Archive} {filing : Filing} (h : a filing.call.planId = none) :
    archive.step a filing = some (Function.update a filing.call.planId (some filing)) :=
  if_pos h

theorem archive_cases {a a' : Archive} {filing : Filing} (h : archive.step a filing = some a') :
    a filing.call.planId = none ∧ a' = Function.update a filing.call.planId (some filing) := by
  simp only [archive, Archive.file] at h
  split_ifs at h with hnone
  exact ⟨hnone, (Option.some.inj h).symm⟩

/-- The PDF is what `_build_pdf` has made of the arguments of the call. -/
def GenerateCall.Built (env : Env) (call : GenerateCall) (pdf : ByteArray) : Prop :=
  ∃ now, buildPdf env now call.title call.executiveSummary = .ok pdf

/-- The report has its row, and its PDF lies where the row says. -/
structure Filing.OnFile (env : Env) (db : Database) (filing : Filing) : Prop where
  built : filing.call.Built env filing.pdf
  stored : ∃ objectName now,
    db.reports.committed filing.reportId = some (filing.call.report env filing.pdf objectName now) ∧
      db.objects (env.bucket.name, objectName) = some filing.pdf

/-- The archive holds the committed reports, each under its plan. -/
structure Shows (env : Env) (db : Database) (a : Archive) : Prop where
  filed : ∀ planId filing, a planId = some filing →
    filing.call.planId = planId ∧ filing.OnFile env db
  all : ∀ reportId row, db.reports.committed reportId = some row →
    ∃ filing, a row.planId = some filing ∧ filing.reportId = reportId

theorem Shows.empty : Shows env State.empty.db fun _ => none where
  filed _ _ h := nomatch h
  all _ _ h := nomatch h

/-- What is stored stays stored. -/
theorem Filing.OnFile.mono {db' : Database} {filing : Filing} (h : filing.OnFile env db)
    (hrow : db'.reports.committed filing.reportId = db.reports.committed filing.reportId)
    (hobjects : ∀ key data, db.objects key = some data → db'.objects key = some data) :
    filing.OnFile env db' where
  built := h.built
  stored := by
    obtain ⟨objectName, now, hstored, hdata⟩ := h.stored
    exact ⟨objectName, now, hrow.trans hstored, hobjects _ _ hdata⟩

theorem Shows.mono {db' : Database} {a : Archive} (h : Shows env db a)
    (hrows : ∀ reportId, db'.reports.committed reportId = db.reports.committed reportId)
    (hobjects : ∀ key data, db.objects key = some data → db'.objects key = some data) :
    Shows env db' a where
  filed planId filing hfiling := by
    obtain ⟨hplan, honFile⟩ := h.filed planId filing hfiling
    exact ⟨hplan, honFile.mono (hrows _) hobjects⟩
  all reportId row hrow := h.all reportId row ((hrows reportId).symm.trans hrow)

/-- The call has built no PDF yet, or there is no call. -/
def Proc.Unbuilt : Proc → Prop
  | .idle | .generate _ .started | .generate _ .planned | .generate _ .checked => True
  | .generate .. => False

/-- The call of a process, if there is one. -/
def Proc.call? : Proc → Option GenerateCall
  | .idle => none
  | .generate call _ => some call

/-- The case analysis of the statements. -/
inductive Proc.Makes (env : Env) (db : Database) (p : ℕ) (input : Input) : Proc → Effect → Proc → Prop
  | read {proc proc'} (h : proc.Unbuilt) (h' : proc'.Unbuilt) (hcall : proc'.call? = proc.call?) :
      Makes env db p input proc .none proc'
  | refuse {proc} (h : proc.Unbuilt) : Makes env db p input proc .rollback .idle
  | build {call pdf} (h : call.Built env pdf) :
      Makes env db p input (.generate call .checked) .none (.generate call (.built pdf))
  | upload {call pdf} :
      Makes env db p input (.generate call (.built pdf))
        (.putObject env.bucket.name (call.objectName input.hex) pdf)
        (.generate call (.uploaded pdf (call.objectName input.hex)))
  | flush {call pdf objectName} (hid : input.id ∉ db.reports.keys)
      (hadmits : db.reports.Admits reportPlan p input.id (call.report env pdf objectName input.now)) :
      Makes env db p input (.generate call (.uploaded pdf objectName))
        (.write (db.reports.write p input.id (call.report env pdf objectName input.now)))
        (.generate call (.inserted pdf objectName input.id))
  | audit {call pdf objectName reportId} :
      Makes env db p input (.generate call (.inserted pdf objectName reportId)) .none
        (.generate call (.audited pdf objectName reportId))
  | commit {call pdf objectName reportId} :
      Makes env db p input (.generate call (.audited pdf objectName reportId))
        (.commit (auditOf call reportId pdf)) .idle

theorem execGenerate_cases {call : GenerateCall} {stage : Stage} {effect : Effect} {proc' : Proc}
    (h : execGenerate env db p input call stage = some (effect, proc')) :
    (Proc.generate call stage).Makes env db p input effect proc' := by
  cases stage with
  | started =>
    simp only [execGenerate, refuse] at h
    split_ifs at h <;> cases h
    · exact .read trivial trivial rfl
    · exact .refuse trivial
  | planned =>
    simp only [execGenerate, refuse] at h
    split_ifs at h <;> cases h
    · exact .read trivial trivial rfl
    · exact .refuse trivial
  | checked =>
    simp only [execGenerate, refuse] at h
    split at h <;> cases h
    · exact .refuse trivial
    next pdf hpdf => exact .build ⟨input.now, hpdf⟩
  | built pdf => cases h; exact .upload
  | uploaded pdf objectName =>
    simp only [execGenerate] at h
    split_ifs at h with hinsert
    obtain ⟨-, -, hid, hadmits⟩ := hinsert
    cases h; exact .flush hid hadmits
  | inserted pdf objectName reportId => cases h; exact .audit
  | audited pdf objectName reportId => cases h; exact .commit

/-- What an action does: a call arrives, a process makes its next statement, or fails there. -/
theorem step_cases {s s' : State} {a : Action} (h : step env s a = some s') :
    (∃ q call, a = .start q call ∧ s.procs q = .idle ∧
        s' = s.after q .none (.generate call .started)) ∨
      (∃ q input effect proc, a = .exec q input ∧
        (s.procs q).Makes env s.db q input effect proc ∧ s' = s.after q effect proc) ∨
      (∃ q, a = .fail q ∧ s' = s.after q .rollback .idle) := by
  cases a with
  | start q call =>
    simp only [step] at h
    split at h
    next hidle => exact Or.inl ⟨q, call, rfl, hidle, (Option.some.inj h).symm⟩
    next => cases h
  | exec q input =>
    obtain ⟨⟨effect, proc⟩, hexec, hafter⟩ := Option.map_eq_some_iff.mp h
    refine Or.inr (Or.inl ⟨q, input, effect, proc, rfl, ?_, hafter.symm⟩)
    cases hproc : s.procs q with
    | idle => rw [hproc] at hexec; cases hexec
    | generate call stage =>
      rw [hproc] at hexec
      exact execGenerate_cases hexec
  | fail q =>
    simp only [step] at h
    split at h
    next => cases h
    next => exact Or.inr (Or.inr ⟨q, rfl, (Option.some.inj h).symm⟩)

/-! ### Fresh names -/

/-- The name of the next upload has not been used. -/
def Proc.FreshName (env : Env) (objects : ObjectStore) (input : Input) : Proc → Prop
  | .generate call (.built _) => objects (env.bucket.name, call.objectName input.hex) = none
  | _ => True

/-- `uuid.uuid4` gives a name that has not been used. -/
def FreshName (env : Env) (s : State) : Action → Prop
  | .exec p input => (s.procs p).FreshName env s.db.objects input
  | .start .. | .fail _ => True

instance (objects : ObjectStore) : DecidablePred (Proc.FreshName env objects input)
  | .generate call (.built _) =>
    inferInstanceAs (Decidable (objects (env.bucket.name, call.objectName input.hex) = none))
  | .idle | .generate _ .started | .generate _ .planned | .generate _ .checked
  | .generate _ (.uploaded ..) | .generate _ (.inserted ..) | .generate _ (.audited ..) =>
    .isTrue trivial

instance (s : State) : DecidablePred (FreshName env s)
  | .exec p input => inferInstanceAs (Decidable ((s.procs p).FreshName env s.db.objects input))
  | .start .. | .fail _ => .isTrue trivial

/-- The service, where it does. -/
noncomputable def reporting (env : Env) : Machine State Action :=
  (service env).restrict (FreshName env)

/-- No stored object is ever replaced. -/
theorem Proc.Makes.objects {proc proc' : Proc} {effect : Effect}
    (h : proc.Makes env db p input effect proc') (hfresh : proc.FreshName env db.objects input)
    (key : String × String) (data : ByteArray) (hdata : db.objects key = some data) :
    (effect.apply p db).objects key = some data := by
  cases h with
  | @upload call pdf =>
    have hne : key ≠ (env.bucket.name, call.objectName input.hex) := by
      rintro rfl
      exact nomatch hfresh.symm.trans hdata
    show Function.update db.objects _ _ key = _
    rwa [Function.update_of_ne hne]
  | _ => exact hdata

/-! ### The invariant -/

/-- What a process has built, has uploaded and holds at its stage. -/
def Proc.Keeps (env : Env) (db : Database) (p : ℕ) : Proc → Prop
  | .generate call (.built pdf) => call.Built env pdf ∧ db.reports.HoldsNothing p
  | .generate call (.uploaded pdf objectName) =>
    call.Built env pdf ∧ db.objects (env.bucket.name, objectName) = some pdf ∧
      db.reports.HoldsNothing p
  | .generate call (.inserted pdf objectName reportId)
  | .generate call (.audited pdf objectName reportId) =>
    call.Built env pdf ∧ db.objects (env.bucket.name, objectName) = some pdf ∧
      ∃ now, db.reports.Inserts p reportId (call.report env pdf objectName now)
  | _ => db.reports.HoldsNothing p

/-- The invariant: the index, and what every process keeps. -/
structure Sound (env : Env) (s : State) : Prop where
  unique : LockedTable.UniqueIndex reportPlan s.db.reports
  keeps : ∀ p, (s.procs p).Keeps env s.db p

theorem Proc.Unbuilt.keeps_iff {proc : Proc} (h : proc.Unbuilt) :
    proc.Keeps env db p ↔ db.reports.HoldsNothing p := by
  unfold Proc.Unbuilt at h
  split at h
  · exact Iff.rfl
  · exact Iff.rfl
  · exact Iff.rfl
  · exact Iff.rfl
  · exact h.elim

theorem Proc.Keeps.frame {db' : Database} {proc : Proc} (h : proc.Keeps env db q)
    (hframe : LockedTable.Undisturbed q db.reports db'.reports)
    (hobjects : ∀ key data, db.objects key = some data → db'.objects key = some data) :
    proc.Keeps env db' q := by
  unfold Proc.Keeps at h ⊢
  split at h
  · exact ⟨h.1, h.2.frame hframe⟩
  · obtain ⟨hbuilt, hdata, hnothing⟩ := h
    exact ⟨hbuilt, hobjects _ _ hdata, hnothing.frame hframe⟩
  · obtain ⟨hbuilt, hdata, now, hinserts⟩ := h
    exact ⟨hbuilt, hobjects _ _ hdata, now, hinserts.frame hframe⟩
  · obtain ⟨hbuilt, hdata, now, hinserts⟩ := h
    exact ⟨hbuilt, hobjects _ _ hdata, now, hinserts.frame hframe⟩
  · exact h.frame hframe

/-- No effect disturbs the other processes. -/
theorem Proc.Makes.undisturbed {proc proc' : Proc} {effect : Effect}
    (h : proc.Makes env db p input effect proc') (hq : q ≠ p) :
    LockedTable.Undisturbed q db.reports (effect.apply p db).reports := by
  cases h with
  | read | build | upload | audit => exact ⟨fun _ _ => Iff.rfl, fun _ _ _ => rfl⟩
  | refuse => exact LockedTable.undisturbed_rollback hq
  | flush hid => exact LockedTable.undisturbed_write hq (LockedTable.free_of_not_mem_keys hid)
  | commit => exact LockedTable.undisturbed_commit hq

/-- After its statement a process is at a stage that fits what it keeps. -/
theorem Proc.Makes.keeps {proc proc' : Proc} {effect : Effect}
    (h : proc.Makes env db p input effect proc') (hkeeps : proc.Keeps env db p) :
    proc'.Keeps env (effect.apply p db) p := by
  cases h with
  | read hproc hproc' _ => exact hproc'.keeps_iff.mpr (hproc.keeps_iff.mp hkeeps)
  | refuse => exact LockedTable.holdsNothing_rollback
  | build hbuilt => exact ⟨hbuilt, hkeeps⟩
  | upload => exact ⟨hkeeps.1, Function.update_self .., hkeeps.2⟩
  | flush hid =>
    obtain ⟨hbuilt, hdata, hnothing⟩ := hkeeps
    exact ⟨hbuilt, hdata, input.now, hnothing.insert hid⟩
  | audit => exact hkeeps
  | commit => exact LockedTable.holdsNothing_commit

theorem Proc.Makes.unique {proc proc' : Proc} {effect : Effect}
    (h : proc.Makes env db p input effect proc')
    (hunique : LockedTable.UniqueIndex reportPlan db.reports) :
    LockedTable.UniqueIndex reportPlan (effect.apply p db).reports := by
  cases h with
  | read | build | upload | audit => exact hunique
  | refuse => exact hunique.rollback p
  | flush hid hadmits => exact hunique.write (LockedTable.free_of_not_mem_keys hid) hadmits
  | commit => exact hunique.commit p

theorem sound_after {s : State} {effect : Effect} {proc' : Proc} (hs : Sound env s)
    (hunique : LockedTable.UniqueIndex reportPlan (effect.apply p s.db).reports)
    (hself : proc'.Keeps env (effect.apply p s.db) p)
    (hothers : ∀ q, q ≠ p →
      LockedTable.Undisturbed q s.db.reports (effect.apply p s.db).reports)
    (hobjects : ∀ key data, s.db.objects key = some data →
      (effect.apply p s.db).objects key = some data) : Sound env (s.after p effect proc') := by
  refine ⟨hunique, (Function.forall_update_iff s.procs
    fun q proc => proc.Keeps env (effect.apply p s.db) q).mpr ⟨hself, fun q hq => ?_⟩⟩
  exact (hs.keeps q).frame (hothers q hq) hobjects

theorem sound_step {s s' : State} {a : Action} (hs : Sound env s) (hfresh : FreshName env s a)
    (h : step env s a = some s') : Sound env s' := by
  rcases step_cases h with ⟨q, call, rfl, hidle, rfl⟩ | ⟨q, input, effect, proc, rfl, hmakes, rfl⟩ |
    ⟨q, rfl, rfl⟩
  · have hnothing : s.db.reports.HoldsNothing q := by
      have hkeeps := hs.keeps q
      rwa [hidle] at hkeeps
    exact sound_after hs hs.unique hnothing (fun _ _ => ⟨fun _ _ => Iff.rfl, fun _ _ _ => rfl⟩)
      fun _ _ hdata => hdata
  · exact sound_after hs (hmakes.unique hs.unique) (hmakes.keeps (hs.keeps q))
      (fun _ => hmakes.undisturbed) (hmakes.objects hfresh)
  · exact sound_after hs (hs.unique.rollback q) LockedTable.holdsNothing_rollback
      (fun _ => LockedTable.undisturbed_rollback) fun _ _ hdata => hdata

theorem sound_invariant : (reporting env).Invariant (Sound env) where
  init s hs := by
    obtain rfl : s = State.empty := hs
    exact ⟨.empty, fun p k row hrow => nomatch hrow⟩
  step s a s' hs h := by
    obtain ⟨hfresh, hstep⟩ := Machine.step_restrict_eq_some_iff.mp h
    exact sound_step hs hfresh hstep

/-! ### The log is a run of the archive -/

/-- The commit of a call files its report: the plan had none. -/
theorem Shows.commit {a : Archive} {call : GenerateCall} {pdf : ByteArray} {objectName : String}
    {reportId : Uuid} (h : Shows env db a)
    (hunique : LockedTable.UniqueIndex reportPlan db.reports)
    (hkeeps : (Proc.generate call (.audited pdf objectName reportId)).Keeps env db p) :
    ∃ a', archive.step a ⟨reportId, call, pdf⟩ = some a' ∧
      Shows env ((Effect.commit (auditOf call reportId pdf)).apply p db) a' := by
  obtain ⟨hbuilt, hdata, now, hinserts⟩ := hkeeps
  have hcommitted : ∀ k, (db.reports.commit p).committed k = if k = reportId then
      some (call.report env pdf objectName now) else db.reports.committed k :=
    hinserts.committed_commit
  -- a row that was committed before is another one
  have hold : ∀ k row, db.reports.committed k = some row → k ≠ reportId := by
    rintro k row hrow rfl
    exact nomatch hinserts.new.symm.trans hrow
  have hnone : a call.planId = none := by
    by_contra hsome
    obtain ⟨filing, hfiling⟩ := Option.ne_none_iff_exists'.mp hsome
    obtain ⟨hplan, -, objectName', now', hrow, -⟩ := h.filed _ _ hfiling
    have hne := hold _ _ hrow
    refine (hunique.commit p).committed _ _ _ _ hne
      ((hcommitted _).trans ((if_neg hne).trans hrow)) ((hcommitted _).trans (if_pos rfl)) ?_
    exact ⟨call.planId, congrArg some hplan, rfl⟩
  refine ⟨_, archive_file hnone, fun planId filing hfiling => ?_, fun k row hrow => ?_⟩
  · by_cases hplan : planId = call.planId
    · subst hplan
      rw [Function.update_self] at hfiling
      obtain rfl := Option.some.inj hfiling
      exact ⟨rfl, hbuilt, objectName, now, (hcommitted _).trans (if_pos rfl), hdata⟩
    · rw [Function.update_of_ne hplan] at hfiling
      obtain ⟨hfor, honFile⟩ := h.filed planId filing hfiling
      obtain ⟨objectName', now', hrow, -⟩ := honFile.stored
      exact ⟨hfor, honFile.mono ((hcommitted _).trans (if_neg (hold _ _ hrow))) fun _ _ => id⟩
  · have hrow := (hcommitted k).symm.trans hrow
    split_ifs at hrow with hk
    · obtain rfl := Option.some.inj hrow
      exact ⟨⟨reportId, call, pdf⟩, Function.update_self .., hk.symm⟩
    · obtain ⟨filing, hfiling, hid⟩ := h.all k row hrow
      have hne : row.planId ≠ call.planId := by
        intro heq
        rw [heq, hnone] at hfiling
        cases hfiling
      exact ⟨filing, (Function.update_of_ne hne ..).trans hfiling, hid⟩

/-! ### The calls are those of the run -/

section

variable {calls : Set GenerateCall}

/-- The calls under way are among these. -/
def Asked (calls : Set GenerateCall) (s : State) : Prop :=
  ∀ p, ∀ call ∈ (s.procs p).call?, call ∈ calls

theorem Proc.Makes.call {proc proc' : Proc} {effect : Effect}
    (h : proc.Makes env db p input effect proc') : ∀ call ∈ proc'.call?, call ∈ proc.call? := by
  cases h with
  | read _ _ hcall =>
    rw [hcall]
    exact fun _ => id
  | refuse | commit => exact nofun
  | build | upload | flush | audit => exact fun _ => id

theorem Asked.after {s : State} {effect : Effect} {proc' : Proc} (hs : Asked calls s)
    (hself : ∀ call ∈ proc'.call?, call ∈ calls) : Asked calls (s.after p effect proc') :=
  (Function.forall_update_iff s.procs fun _ proc => ∀ call ∈ proc.call?, call ∈ calls).mpr
    ⟨hself, fun q _ => hs q⟩

/-- The archive shows the reports, all of which have been asked for. -/
structure Shown (env : Env) (calls : Set GenerateCall) (db : Database) (a : Archive) : Prop where
  shows : Shows env db a
  asked : ∀ planId filing, a planId = some filing → filing.call ∈ calls

/-- What a state logs and shows. -/
abbrev Explains (env : Env) (calls : Set GenerateCall) : State → State → Prop :=
  Machine.Explains archive (fun s => s.db.auditLogs) Filing.entry fun s => Shown env calls s.db

/-- What neither commits a row nor logs. -/
theorem explains_of_same {s t : State} (hlogs : t.db.auditLogs = s.db.auditLogs)
    (hrows : ∀ k, t.db.reports.committed k = s.db.reports.committed k)
    (hobjects : ∀ key data, s.db.objects key = some data → t.db.objects key = some data) :
    Explains env calls s t :=
  .of_same hlogs fun _ h => ⟨h.shows.mono hrows hobjects, h.asked⟩

theorem explains_step {s s' : State} {a : Action} (hs : Sound env s) (hasked : Asked calls s)
    (hfresh : FreshName env s a) (hstep : step env s a = some s') : Explains env calls s s' := by
  rcases step_cases hstep with ⟨p, call, rfl, -, rfl⟩ |
    ⟨p, input, effect, proc', rfl, hmakes, rfl⟩ | ⟨p, rfl, rfl⟩
  · exact explains_of_same rfl (fun _ => rfl) fun _ _ => id
  · have hobjects := hmakes.objects hfresh
    have hkeeps := hs.keeps p
    have hcall := hasked p
    generalize s.procs p = proc at hmakes hkeeps hcall
    cases hmakes with
    | read | build | audit => exact explains_of_same rfl (fun _ => rfl) hobjects
    | refuse => exact explains_of_same rfl (fun _ => rfl) hobjects
    | upload => exact explains_of_same rfl (fun _ => rfl) hobjects
    | flush => exact explains_of_same rfl (fun _ => LockedTable.committed_write) hobjects
    | @commit call pdf objectName reportId =>
      have hlog : s.db.auditLogs ++ [Filing.entry ⟨reportId, call, pdf⟩] = _ := rfl
      refine .of_entry hlog.symm fun a ha => ?_
      obtain ⟨a', hfile, ha'⟩ := ha.shows.commit hs.unique hkeeps
      refine ⟨a', hfile, ha', fun planId filing hfiling => ?_⟩
      rw [(archive_cases hfile).2] at hfiling
      by_cases hplan : planId = call.planId
      · rw [hplan, Function.update_self] at hfiling
        obtain rfl := Option.some.inj hfiling
        exact hcall call rfl
      · rw [Function.update_of_ne hplan] at hfiling
        exact ha.asked planId filing hfiling
  · exact explains_of_same rfl (fun _ => rfl) fun _ _ => id

end

/-- A service that prints one page. -/
def pageEnv : Env where
  bucket := ⟨"reports", by decide⟩
  strftime _ := "01/01/2026 08:00 UTC"
  build _ _ _ := .ok ⟨#[37, 80, 68, 70]⟩

/-- The report of a plan. -/
def planReport : GenerateCall := ⟨⟨"p1"⟩, "Rapport annuel", none, ⟨"u1"⟩, by decide⟩

/-- What its statements find. -/
def planInput : Input := ⟨true, 0, "4f6b", ⟨"r1"⟩⟩

/-- A call for the report. -/
def reported : List Action := .start 0 planReport :: List.replicate 7 (.exec 0 planInput)

theorem run_reported :
    ∃ t, (service pageEnv).run State.empty reported = some t ∧
      (reporting pageEnv).run State.empty reported = some t ∧
      ∃ row, t.db.reports.committed ⟨"r1"⟩ = some row := by
  have heval : ((service pageEnv).run State.empty reported).map
      (fun t => (t.db.reports.committed ⟨"r1"⟩).isSome) = some true := by
    decide
  have hfresh : (service pageEnv).ActionsMeet (FreshName pageEnv) State.empty reported := by
    decide
  obtain ⟨t, ht, -, hsome⟩ := Machine.reachable_of_map_run (m := service pageEnv) rfl heval
  exact ⟨t, ht, Machine.run_restrict_eq_some_iff.mpr ⟨ht, hfresh⟩,
    Option.isSome_iff_exists.mp hsome⟩

end RoadVisionAI.Reports
