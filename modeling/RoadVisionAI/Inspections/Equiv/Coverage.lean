import RoadVisionAI.Inspections.Equiv.SM1

/-!
# Which images the score covers

A run reads the images once, when it starts, and `upload_image` looks at no status: an image that
is committed later stays outside the score, and a `TERMINEE` inspection is never analysed again.
`covered_iff_onTime` says which runs leave no image out, `covered_of_guarded` that none would if
uploads made the check of `request_analysis`.

`images_step_cases` lists what an action does to the images and to the last run, `ImagesOk` says
that what a run has read is an initial part of the images, and `covered_step` decides for one action
whether it leaves an image out.
-/

namespace RoadVisionAI.Inspections

open Python Db Transition AnalysisWorker

variable {damageTypes : DamageTypeTable ℚ}

/-- A `TERMINEE` inspection has the score of a run that has read all its images. -/
def Covered (s : State) : Prop :=
  s.db.row.committed.status = .TERMINEE → ∃ run, s.db.lastRun = some run ∧
    s.db.tables.pciScores = [run.outputs.pciScore] ∧
    ∀ image ∈ s.db.tables.roadImages, image ∈ run.images

/-- An upload is committed before the inspection is `TERMINEE`, and a run when there are still as
many images as it has read. -/
def Proc.OnTime (db : Database) : Proc → Prop
  | .upload (.inserted _) => db.row.committed.status ≠ .TERMINEE
  | .worker (.updated images _ _) => db.tables.roadImages.length = images.length
  | _ => True

/-- The statement an action makes is on time. -/
def OnTime (s : State) : Action → Prop
  | .exec p _ => (s.procs p).OnTime s.db
  | _ => True

instance (db : Database) (proc : Proc) : Decidable (proc.OnTime db) := by
  unfold Proc.OnTime
  split <;> infer_instance

instance (s : State) : (a : Action) → Decidable (OnTime s a)
  | .exec p _ => inferInstanceAs (Decidable ((s.procs p).OnTime s.db))
  | .start _ _ | .fail _ => isTrue trivial

/-! ### What an action does to the images -/

theorem roadImages_commitRun {tables tables' : Tables} {cleared : Cleared} {outputs : Outputs ℚ}
    (hcommit : commitRun tables cleared outputs = some tables') :
    tables'.roadImages = tables.roadImages := by
  simp only [commitRun] at hcommit
  split_ifs at hcommit
  rw [← Option.some.inj hcommit]

theorem Proc.Reads.onTime {db : Database} {input : Input} {proc proc' : Proc}
    (h : proc.Reads damageTypes db input proc') : proc.OnTime db := by
  cases h <;> trivial

theorem Proc.Refuses.onTime {db : Database} {proc : Proc} (h : proc.Refuses db) :
    proc.OnTime db := by
  cases h <;> trivial

theorem Proc.Updates.onTime {db : Database} {input : Input} {proc proc' : Proc}
    {expected : Option ℕ} {set : Assignments} (h : proc.Updates input expected set proc') :
    proc.OnTime db := by
  cases h <;> trivial

/-- An action leaves the images and the last run, or commits an upload, or commits a run. -/
theorem images_step_cases {s s' : State} {a : Action} (hstep : step damageTypes s a = some s') :
    (s'.db.tables.roadImages = s.db.tables.roadImages ∧ s'.db.lastRun = s.db.lastRun ∧
        OnTime s a) ∨
      (∃ p input image, a = .exec p input ∧ s.procs p = .upload (.inserted image) ∧
        image.id ∉ s.db.tables.roadImages.map RoadImage.id ∧
        s'.db.tables.roadImages = s.db.tables.roadImages ++ [image] ∧
        s'.db.lastRun = s.db.lastRun ∧ s'.procs = Function.update s.procs p .idle) ∨
      (∃ p input images cleared outputs, a = .exec p input ∧
        s.procs p = .worker (.updated images cleared outputs) ∧
        s'.db.tables.roadImages = s.db.tables.roadImages ∧
        s'.db.lastRun = some { images, outputs }) := by
  rcases step_cases hstep with ⟨p, request, rfl, -, rfl⟩ |
    ⟨p, input, effect, proc', rfl, hmakes, rfl⟩ | ⟨p, rfl, rfl⟩
  · exact Or.inl ⟨rfl, rfl, trivial⟩
  · have htime : OnTime s (.exec p input) ↔ (s.procs p).OnTime s.db := Iff.rfl
    rw [htime]
    generalize hproc : s.procs p = proc at hmakes
    cases hmakes with
    | read hreads => exact Or.inl ⟨rfl, rfl, hreads.onTime⟩
    | refuse hrefuses => exact Or.inl ⟨rfl, rfl, hrefuses.onTime⟩
    | raise hat => exact Or.inl ⟨rfl, rfl, by rw [hat]; trivial⟩
    | update hasks hupdate =>
      rcases updateInspection_cases hupdate with ⟨rfl, -⟩ | ⟨row, l, rfl, -⟩
      · exact Or.inl ⟨rfl, rfl, hasks.onTime⟩
      · exact Or.inl ⟨rfl, rfl, hasks.onTime⟩
    | commit hcommits =>
      -- the commits of an upload and of a run are the ones that count
      cases hcommits with
      | @upload image hfresh =>
        exact Or.inr (Or.inl ⟨p, input, image, rfl, hproc, hfresh, rfl, rfl, rfl⟩)
      | @run images cleared outputs tables hcommit =>
        exact Or.inr (Or.inr ⟨p, input, images, cleared, outputs, rfl, hproc,
          roadImages_commitRun hcommit, rfl⟩)
      | _ => exact Or.inl ⟨rfl, rfl, trivial⟩
  · exact Or.inl ⟨rfl, rfl, trivial⟩

/-- No action removes an image. -/
theorem roadImages_step {s s' : State} {a : Action} (hstep : step damageTypes s a = some s') :
    s.db.tables.roadImages <+: s'.db.tables.roadImages := by
  rcases images_step_cases hstep with ⟨himages, -⟩ | ⟨p, input, image, -, -, -, himages, -⟩ |
    ⟨p, input, images, cleared, outputs, -, -, himages, -⟩
  · rw [himages]
  · rw [himages]
    exact List.prefix_append ..
  · rw [himages]

/-! ### What runs have read -/

/-- The images a run has read, from its `SELECT` on. -/
def Proc.imagesRead : Proc → Option (List RoadImage)
  | .worker (.selected _ images) | .worker (.clearedDetections _ images _)
  | .worker (.clearedScores _ images _) | .worker (.clearedResults _ images _)
  | .worker (.computed _ images _ _) | .worker (.updated images _ _) => some images
  | _ => none

theorem imagesRead_afterFailure (proc : Proc) : proc.afterFailure.imagesRead = none := by
  cases proc with
  | worker stage => cases stage <;> rfl
  | _ => rfl

theorem imagesRead_proc (request : Request) : request.proc.imagesRead = none := by
  cases request <;> rfl

/-- What a run has read it has read before, or reads now. -/
theorem Proc.Makes.imagesRead {db : Database} {p : ℕ} {input : Input} {proc proc' : Proc}
    {effect : Effect} {images : List RoadImage}
    (h : proc.Makes damageTypes db p input effect proc')
    (hread : proc'.imagesRead = some images) :
    proc.imagesRead = some images ∨ images = db.tables.roadImages := by
  cases h with
  | read hreads =>
    cases hreads with
    | select => exact Or.inr (Option.some.inj hread).symm
    | _ => exact Or.inl hread
  | refuse => cases hread
  | raise => cases hread
  | update hasks hupdate =>
    rcases updateInspection_cases hupdate with ⟨-, rfl⟩ | ⟨-, -, -, rfl, -⟩
    · cases hread
    · cases hasks <;> exact Or.inl hread
  | commit hcommits => cases hcommits <;> cases hread

theorem imagesRead_step {s s' : State} {a : Action} {q : ℕ} {images : List RoadImage}
    (hstep : step damageTypes s a = some s') (hread : (s'.procs q).imagesRead = some images) :
    (s.procs q).imagesRead = some images ∨ images = s.db.tables.roadImages :=
  read_step imagesRead_proc imagesRead_afterFailure
    (fun _ _ _ _ hmakes hnow => hmakes.imagesRead hnow) hstep hread

/-! ### The images of a run are an initial part of the images -/

structure ImagesOk (s : State) : Prop where
  nodup : s.db.tables.roadImages.Nodup
  read : ∀ p images, (s.procs p).imagesRead = some images → images <+: s.db.tables.roadImages
  last : ∀ run, s.db.lastRun = some run → run.images <+: s.db.tables.roadImages

theorem imagesOk_created (row : Inspection) : ImagesOk (.created row) where
  nodup := List.nodup_nil
  read _ _ h := by cases h
  last _ h := by cases h

theorem imagesOk_step {s s' : State} {a : Action} (h : ImagesOk s)
    (hstep : step damageTypes s a = some s') : ImagesOk s' where
  nodup := by
    rcases images_step_cases hstep with ⟨himages, -⟩ | ⟨-, -, image, -, -, hfresh, himages, -⟩ |
      ⟨-, -, -, -, -, -, -, himages, -⟩
    · exact himages ▸ h.nodup
    · -- the id of a new image is new
      rw [himages, ← List.concat_eq_append, List.nodup_concat]
      exact ⟨fun hmem => hfresh (List.mem_map_of_mem hmem), h.nodup⟩
    · exact himages ▸ h.nodup
  read p images hread := by
    rcases imagesRead_step hstep hread with hbefore | rfl
    · exact (h.read p images hbefore).trans (roadImages_step hstep)
    · exact roadImages_step hstep
  last run hrun := by
    rcases images_step_cases hstep with ⟨-, hlast, -⟩ | ⟨-, -, -, -, -, -, -, hlast, -⟩ |
      ⟨p, -, images, cleared, outputs, -, hproc, -, hlast⟩
    · exact (h.last run (hlast ▸ hrun)).trans (roadImages_step hstep)
    · exact (h.last run (hlast ▸ hrun)).trans (roadImages_step hstep)
    · rw [hlast] at hrun
      obtain rfl := Option.some.inj hrun
      exact (h.read p images (by rw [hproc]; rfl)).trans (roadImages_step hstep)

theorem invariant_imagesOk :
    (system damageTypes).Invariant fun s => Inv damageTypes s ∧ ImagesOk s := by
  refine invariant_inv.and ?_ fun s a s' _ h hstep => imagesOk_step h hstep
  rintro s ⟨data, actor, id, now, rfl⟩
  exact imagesOk_created _

/-! ### Coverage -/

/-- An initial part with all the elements of a list without duplicates is the whole list. -/
theorem forall_mem_of_prefix_iff {α : Type*} {l₁ l : List α} (h : l₁ <+: l) (hl : l.Nodup) :
    (∀ a ∈ l, a ∈ l₁) ↔ l.length = l₁.length := by
  constructor
  · intro hsub
    exact Nat.le_antisymm (hl.subperm hsub).length_le h.length_le
  · intro hlen
    rw [h.eq_of_length hlen.symm]
    exact fun a ha => ha

/-- There is a last run exactly when the inspection is `TERMINEE`, and then its score is there. -/
theorem covered_iff {s : State} (h : Inv damageTypes s) :
    Covered s ↔ ∀ run, s.db.lastRun = some run →
      ∀ image ∈ s.db.tables.roadImages, image ∈ run.images := by
  constructor
  · intro hcov run hrun
    obtain ⟨run', hrun', -, hall⟩ := hcov (h.status_of_lastRun hrun)
    rw [hrun] at hrun'
    obtain rfl := Option.some.inj hrun'
    exact hall
  · intro hall hdone
    obtain ⟨run, hrun, -, hof⟩ := h.outputs.last hdone
    exact ⟨run, hrun, hof.pciScores, hall run hrun⟩

/-- In terms of `total_images`: the last run has as many images as the inspection. -/
theorem covered_iff_totalImages {s : State} (h : Inv damageTypes s) (himg : ImagesOk s) :
    Covered s ↔ ∀ run, s.db.lastRun = some run →
      s.db.tables.roadImages.length = run.images.length := by
  rw [covered_iff h]
  refine forall₂_congr fun run hrun => ?_
  exact forall_mem_of_prefix_iff (himg.last run hrun) himg.nodup

/-- An action leaves no image out exactly when it is on time. -/
theorem covered_step {s s' : State} {a : Action} (h : Inv damageTypes s) (himg : ImagesOk s)
    (hcov : Covered s) (hstep : step damageTypes s a = some s') : Covered s' ↔ OnTime s a := by
  have h' := inv_step h hstep
  have himg' := imagesOk_step himg hstep
  rw [covered_iff_totalImages h' himg']
  rw [covered_iff_totalImages h himg] at hcov
  rcases images_step_cases hstep with ⟨himages, hlast, htime⟩ |
    ⟨p, input, image, rfl, hproc, -, himages, hlast, -⟩ |
    ⟨p, input, images, cleared, outputs, rfl, hproc, himages, hlast⟩
  · rw [himages, hlast]
    exact iff_of_true hcov htime
  · -- one image more than the last run, if there is one
    have htime : OnTime s (.exec p input) ↔ s.db.row.committed.status ≠ .TERMINEE := by
      simp only [OnTime, Proc.OnTime, hproc]
    rw [htime, himages, hlast, List.length_append, List.length_singleton]
    constructor
    · intro hall hdone
      obtain ⟨run, hrun, -⟩ := h.outputs.last hdone
      have := hcov run hrun
      have := hall run hrun
      omega
    · intro hne run hrun
      rw [(h.outputs.none hne).2] at hrun
      cases hrun
  · have htime : OnTime s (.exec p input) ↔
        s.db.tables.roadImages.length = images.length := by
      simp only [OnTime, Proc.OnTime, hproc]
    rw [htime, himages, hlast]
    simp only [Option.some.injEq, forall_eq']

/-- **Coverage.**  Along a run from a new inspection every state is covered exactly when all its
actions are on time. -/
theorem covered_iff_onTime {s t : State} {actions : List Action} (hs : (system damageTypes).init s)
    (hrun : (system damageTypes).run s actions = some t) :
    (system damageTypes).StatesMeet Covered s actions ↔
      (system damageTypes).ActionsMeet OnTime s actions := by
  have hok := invariant_imagesOk.init s hs
  have hcov : Covered s := by
    obtain ⟨data, actor, id, now, rfl⟩ := hs
    exact (covered_iff hok.1).mpr fun run h => nomatch h
  exact invariant_imagesOk.statesMeet_iff_actionsMeet
    (fun s a s' h hcov hstep => covered_step h.1 h.2 hcov hstep) hok hcov hrun

/-- The upload of `oneSurvey` is on time. -/
theorem covered_iff_onTime_oneSurvey :
    (system noTypes).StatesMeet Covered (.created newInspection) oneSurvey := by
  have hsome : ((system noTypes).run (.created newInspection) oneSurvey).isSome := by
    decide +kernel
  obtain ⟨t, ht⟩ := Option.isSome_iff_exists.mp hsome
  exact (covered_iff_onTime (init_newInspection noTypes) ht).mpr (by decide +kernel)

/-- `oneSurvey`, and one more upload. -/
def lateUpload : List Action :=
  oneSurvey ++ .start 2 .uploadImage :: List.replicate 4 (.exec 2 (quietInput "image-2"))

/-- The second image is accepted, and stays outside the score. -/
theorem not_covered_lateUpload :
    ∃ t, (system noTypes).run (.created newInspection) lateUpload = some t ∧ ¬ Covered t := by
  have hrun : ((system noTypes).run (.created newInspection) lateUpload).map
      (fun t => (t.db.row.committed.status, t.db.tables.roadImages.length,
        t.db.lastRun.map fun run => run.images.length)) = some (.TERMINEE, 2, some 1) := by
    decide +kernel
  obtain ⟨t, ht, hs, heq⟩ := Machine.reachable_of_map_run (init_newInspection noTypes) hrun
  obtain ⟨hinv, himg⟩ := invariant_imagesOk.holds hs
  obtain ⟨-, heq⟩ := Prod.mk.inj heq
  obtain ⟨htwo, hone⟩ := Prod.mk.inj heq
  obtain ⟨run, hlast, hone⟩ := Option.map_eq_some_iff.mp hone
  refine ⟨t, ht, fun hcov => ?_⟩
  have hsame := (covered_iff_totalImages hinv himg).mp hcov run hlast
  omega

/-! ### The check an upload does not make -/

/-- What `request_analysis` asks of the status, asked of an upload when it commits. -/
def Guarded (s : State) : Action → Prop
  | .exec p _ =>
    match s.procs p with
    | .upload (.inserted _) => Startable s.db.row.committed.status
    | _ => True
  | _ => True

/-- A run under way has read all the images there are. -/
def UpToDate (s : State) : Prop :=
  ∀ p images, (s.procs p).imagesRead = some images → images = s.db.tables.roadImages

theorem inFlight_of_imagesRead {proc : Proc} {images : List RoadImage}
    (h : proc.imagesRead = some images) : proc.InFlight := by
  cases proc with
  | worker stage => trivial
  | _ => cases h

/-- An upload that is committed while an analysis could start finds no run under way. -/
theorem upToDate_step {s s' : State} {a : Action} (h : Inv damageTypes s) (hup : UpToDate s)
    (hguard : Guarded s a) (hstep : step damageTypes s a = some s') : UpToDate s' := by
  intro p images hread
  have hbefore : images = s.db.tables.roadImages := by
    rcases imagesRead_step hstep hread with hread' | hnow
    · exact hup p images hread'
    · exact hnow
  rcases images_step_cases hstep with ⟨himages, -⟩ |
    ⟨q, input, image, rfl, hproc, -, -, -, hprocs⟩ |
    ⟨q, input, images', cleared, outputs, -, -, himages, -⟩
  · rw [himages, hbefore]
  · by_cases hpq : p = q
    · rw [hprocs, hpq, Function.update_self] at hread
      cases hread
    · rw [hprocs, Function.update_of_ne hpq] at hread
      have hrunning := h.status_of_inFlight (inFlight_of_imagesRead hread)
      simp only [Guarded, hproc, hrunning] at hguard
      exact absurd hguard (by decide)
  · rw [himages, hbefore]

/-- Such an upload is on time, and so is a run that has read all the images. -/
theorem onTime_of_guarded {s : State} {a : Action} (hup : UpToDate s) (hguard : Guarded s a) :
    OnTime s a := by
  cases a with
  | exec p input =>
    show (s.procs p).OnTime s.db
    unfold Proc.OnTime
    split
    next image hproc =>
      simp only [Guarded, hproc] at hguard
      intro hdone
      rw [hdone] at hguard
      exact absurd hguard (by decide)
    next images cleared outputs hproc =>
      rw [hup p images (by rw [hproc]; rfl)]
    next => trivial
  | _ => trivial

/-- **The check of `request_analysis` would do.**  Where uploads are committed only while an
analysis could start, every state of the run is covered. -/
theorem covered_of_guarded {s : State} {actions : List Action} (hs : (system damageTypes).init s)
    (hguard : (system damageTypes).ActionsMeet Guarded s actions) :
    (system damageTypes).StatesMeet Covered s actions := by
  have hok := invariant_imagesOk.init s hs
  have hstart : Covered s ∧ UpToDate s := by
    obtain ⟨data, actor, id, now, rfl⟩ := hs
    refine ⟨(covered_iff hok.1).mpr ?_, ?_⟩
    · rintro run ⟨⟩
    · rintro p images ⟨⟩
  have hrun := invariant_imagesOk.statesMeet_of_actionsMeet
    (fun s a s' (h : Inv damageTypes s ∧ ImagesOk s) (hP : Covered s ∧ UpToDate s) hC hstep =>
      ⟨(covered_step h.1 h.2 hP.1 hstep).mpr (onTime_of_guarded hP.2 hC),
        upToDate_step h.1 hP.2 hC hstep⟩) hok hstart hguard
  exact hrun.imp fun s h => h.1

end RoadVisionAI.Inspections
