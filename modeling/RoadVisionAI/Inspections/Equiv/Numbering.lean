import RoadVisionAI.Inspections.Equiv.Coverage

/-!
# The numbers of the images

`upload_image` reads the largest number in one statement and inserts the next one in another, and
nothing keeps two uploads from reading the same.  The numbers of the committed images still leave no
gap, and an upload under way has read a number that is one of them or the next (`Filled`); so they
are 1, 2, … exactly when no two are equal (`numbered_iff_nodup`), which is when every upload has
committed under the number that was then the next one (`numbered_iff_inOrder`).
-/

namespace RoadVisionAI.Inspections

open Python Db Transition AnalysisWorker

variable {damageTypes : DamageTypeTable ℚ}

/-- `sequence_num` of the images. -/
def sequenceNums (images : List RoadImage) : List ℕ := images.map RoadImage.sequenceNum

/-- The images are numbered from 1 on, in some order. -/
def Numbered (s : State) : Prop :=
  (sequenceNums s.db.tables.roadImages).Perm (List.range' 1 s.db.tables.roadImages.length)

/-- An upload is committed under the number that is still the next one. -/
def Proc.InOrder (db : Database) : Proc → Prop
  | .upload (.inserted image) => image.sequenceNum = nextSequenceNum db.tables.roadImages
  | _ => True

/-- The statement an action makes is in order. -/
def InOrder (s : State) : Action → Prop
  | .exec p _ => (s.procs p).InOrder s.db
  | _ => True

instance (s : State) : Decidable (Numbered s) := inferInstanceAs (Decidable (List.Perm _ _))

instance (db : Database) : (proc : Proc) → Decidable (proc.InOrder db)
  | .upload (.inserted image) =>
    inferInstanceAs (Decidable (image.sequenceNum = nextSequenceNum db.tables.roadImages))
  | .upload .started | .upload .found | .upload (.numbered _) => isTrue trivial
  | .idle | .patch _ | .softDelete _ | .analyse _ | .worker _ | .recommend _ => isTrue trivial

instance (s : State) : (a : Action) → Decidable (InOrder s a)
  | .exec p _ => inferInstanceAs (Decidable ((s.procs p).InOrder s.db))
  | .start _ _ | .fail _ => isTrue trivial

/-! ### The next number -/

theorem nextSequenceNum_append (images : List RoadImage) (image : RoadImage) :
    nextSequenceNum (images ++ [image])
      = max (nextSequenceNum images) (image.sequenceNum + 1) := by
  unfold nextSequenceNum
  induction images with
  | nil => simp
  | cons first images ih =>
    simp only [List.cons_append, List.map_cons, List.foldr_cons] at ih ⊢
    omega

/-- The images have the numbers below the next one, and only these. -/
def Fills (images : List RoadImage) : Prop :=
  ∀ k, k ∈ sequenceNums images ↔ 1 ≤ k ∧ k < nextSequenceNum images

theorem fills_append {images : List RoadImage} {image : RoadImage} (h : Fills images)
    (hone : 1 ≤ image.sequenceNum) (hnext : image.sequenceNum ≤ nextSequenceNum images) :
    Fills (images ++ [image]) := by
  intro k
  have hk := h k
  rw [nextSequenceNum_append, sequenceNums, List.map_append, List.mem_append, List.map_singleton,
    List.mem_singleton]
  unfold sequenceNums at hk
  rw [hk]
  omega

/-- Without gaps, only equal numbers can spoil the numbering. -/
theorem numbered_iff_nodup {s : State} (h : Fills s.db.tables.roadImages) :
    Numbered s ↔ (sequenceNums s.db.tables.roadImages).Nodup := by
  have hlength : (sequenceNums s.db.tables.roadImages).length = s.db.tables.roadImages.length :=
    List.length_map ..
  constructor
  · intro hperm
    exact hperm.nodup_iff.mpr List.nodup_range'
  · intro hnodup
    have hperm : (sequenceNums s.db.tables.roadImages).Perm
        (List.range' 1 (nextSequenceNum s.db.tables.roadImages - 1)) := by
      rw [List.perm_ext_iff_of_nodup hnodup List.nodup_range']
      intro k
      rw [h k, List.mem_range'_1]
      omega
    have hcount := hperm.length_eq
    rw [List.length_range', hlength] at hcount
    unfold Numbered
    rw [hcount]
    exact hperm

/-! ### What uploads have read -/

/-- The number an upload has read. -/
def Proc.sequenceNum : Proc → Option ℕ
  | .upload (.numbered sequenceNum) => some sequenceNum
  | .upload (.inserted image) => some image.sequenceNum
  | _ => none

theorem sequenceNum_proc (request : Request) : request.proc.sequenceNum = none := by
  cases request <;> rfl

theorem sequenceNum_afterFailure (proc : Proc) : proc.afterFailure.sequenceNum = none := by
  cases proc with
  | worker stage => cases stage <;> rfl
  | _ => rfl

/-- What an upload has read it has read before, or reads now. -/
theorem Proc.Makes.sequenceNum {db : Database} {p : ℕ} {input : Input} {proc proc' : Proc}
    {effect : Effect} {n : ℕ} (h : proc.Makes damageTypes db p input effect proc')
    (hread : proc'.sequenceNum = some n) :
    proc.sequenceNum = some n ∨ n = nextSequenceNum db.tables.roadImages := by
  cases h with
  | read hreads =>
    cases hreads with
    | number => exact Or.inr (Option.some.inj hread).symm
    | _ => exact Or.inl hread
  | refuse => cases hread
  | raise => cases hread
  | update hasks hupdate =>
    rcases updateInspection_cases hupdate with ⟨-, rfl⟩ | ⟨-, -, -, rfl, -⟩
    · cases hread
    · cases hasks <;> exact Or.inl hread
  | commit hcommits => cases hcommits <;> cases hread

theorem sequenceNum_step {s s' : State} {a : Action} {q n : ℕ}
    (hstep : step damageTypes s a = some s') (hread : (s'.procs q).sequenceNum = some n) :
    (s.procs q).sequenceNum = some n ∨ n = nextSequenceNum s.db.tables.roadImages :=
  read_step sequenceNum_proc sequenceNum_afterFailure
    (fun _ _ _ _ hmakes hnow => hmakes.sequenceNum hnow) hstep hread

/-- The invariant: no gaps, and an upload under way leaves none. -/
structure Filled (s : State) : Prop where
  fills : Fills s.db.tables.roadImages
  read : ∀ p n, (s.procs p).sequenceNum = some n →
    1 ≤ n ∧ n ≤ nextSequenceNum s.db.tables.roadImages

/-- The next number never goes back. -/
theorem nextSequenceNum_step {s s' : State} {a : Action}
    (hstep : step damageTypes s a = some s') :
    nextSequenceNum s.db.tables.roadImages ≤ nextSequenceNum s'.db.tables.roadImages := by
  rcases images_step_cases hstep with ⟨himages, -⟩ | ⟨-, -, image, -, -, -, himages, -⟩ |
    ⟨-, -, -, -, -, -, -, himages, -⟩
  · rw [himages]
  · rw [himages, nextSequenceNum_append]
    exact Nat.le_max_left ..
  · rw [himages]

theorem filled_step {s s' : State} {a : Action} (h : Filled s)
    (hstep : step damageTypes s a = some s') : Filled s' where
  fills := by
    rcases images_step_cases hstep with ⟨himages, -⟩ | ⟨p, -, image, -, hproc, -, himages, -⟩ |
      ⟨-, -, -, -, -, -, -, himages, -⟩
    · exact himages ▸ h.fills
    · obtain ⟨hone, hnext⟩ := h.read p image.sequenceNum (by rw [hproc]; rfl)
      rw [himages]
      exact fills_append h.fills hone hnext
    · exact himages ▸ h.fills
  read p n hread := by
    have hgrows := nextSequenceNum_step hstep
    rcases sequenceNum_step hstep hread with hbefore | rfl
    · obtain ⟨hone, hnext⟩ := h.read p n hbefore
      exact ⟨hone, hnext.trans hgrows⟩
    · exact ⟨Nat.le_add_left .., hgrows⟩

theorem invariant_filled : (system damageTypes).Invariant Filled where
  init := by
    rintro s ⟨data, actor, id, now, rfl⟩
    refine ⟨fun k => ?_, fun _ _ hread => nomatch hread⟩
    simp [State.created, sequenceNums, nextSequenceNum]
    omega
  step _ _ _ h hstep := filled_step h hstep

/-! ### The numbering -/

/-- An action that adds no image is in order. -/
theorem inOrder_of_roadImages_eq {s s' : State} {a : Action}
    (hstep : step damageTypes s a = some s')
    (himages : s'.db.tables.roadImages = s.db.tables.roadImages) : InOrder s a := by
  cases a with
  | exec p input =>
    show (s.procs p).InOrder s.db
    unfold Proc.InOrder
    split
    next image hproc =>
      -- this is the statement that adds its image
      obtain ⟨⟨effect, proc⟩, hexec, rfl⟩ := Option.map_eq_some_iff.mp hstep
      rw [hproc] at hexec
      simp only [exec, execUpload] at hexec
      split_ifs at hexec
      obtain ⟨rfl, rfl⟩ := Prod.mk.inj (Option.some.inj hexec)
      have hlength := congrArg List.length himages
      simp [State.after, Effect.apply] at hlength
    next => trivial
  | _ => trivial

/-- A state is numbered exactly when the one before it was, and the action was in order. -/
theorem numbered_step {s s' : State} {a : Action} (h : Filled s)
    (hstep : step damageTypes s a = some s') : Numbered s' ↔ Numbered s ∧ InOrder s a := by
  have h' := filled_step h hstep
  rw [numbered_iff_nodup h'.fills, numbered_iff_nodup h.fills]
  rcases images_step_cases hstep with ⟨himages, -⟩ | ⟨p, input, image, rfl, hproc, -, himages, -⟩ |
    ⟨-, -, -, -, -, -, -, himages, -⟩
  · rw [himages]
    exact (and_iff_left (inOrder_of_roadImages_eq hstep himages)).symm
  · have horder : InOrder s (.exec p input) ↔
        image.sequenceNum = nextSequenceNum s.db.tables.roadImages := by
      simp only [InOrder, Proc.InOrder, hproc]
    obtain ⟨hone, hnext⟩ := h.read p image.sequenceNum (by rw [hproc]; rfl)
    -- the number is new exactly when it is the next one
    have hnew : image.sequenceNum ∉ sequenceNums s.db.tables.roadImages ↔
        image.sequenceNum = nextSequenceNum s.db.tables.roadImages := by
      rw [h.fills]
      omega
    have happend : sequenceNums (s.db.tables.roadImages ++ [image])
        = (sequenceNums s.db.tables.roadImages).concat image.sequenceNum := by
      simp [sequenceNums]
    rw [horder, himages, happend, List.nodup_concat, hnew, and_comm]
  · rw [himages]
    exact (and_iff_left (inOrder_of_roadImages_eq hstep himages)).symm

/-- **Image numbering.**  At the end of a run from a new inspection the images are numbered from 1
on exactly when every upload has been committed in order. -/
theorem numbered_iff_inOrder {s t : State} {actions : List Action}
    (hs : (system damageTypes).init s) (hrun : (system damageTypes).run s actions = some t) :
    Numbered t ↔ (system damageTypes).ActionsMeet InOrder s actions := by
  have hnone : Numbered s := by
    obtain ⟨data, actor, id, now, rfl⟩ := hs
    exact List.Perm.refl []
  rw [invariant_filled.end_iff_actionsMeet (fun s a s' h hstep => numbered_step h hstep)
    (invariant_filled.init s hs) hrun]
  exact and_iff_right hnone

/-- Two uploads, one after the other. -/
def twoUploads : List Action :=
  .start 0 .uploadImage :: List.replicate 4 (.exec 0 (quietInput "image-1")) ++
    .start 1 .uploadImage :: List.replicate 4 (.exec 1 (quietInput "image-2"))

/-- They are numbered. -/
theorem numbered_iff_inOrder_twoUploads :
    ∃ t, (system noTypes).run (.created newInspection) twoUploads = some t ∧
      t.db.tables.roadImages.length = 2 ∧ Numbered t := by
  have hrun : ((system noTypes).run (.created newInspection) twoUploads).map
      (fun t => t.db.tables.roadImages.length) = some 2 := by
    decide
  obtain ⟨t, ht, htwo⟩ := Option.map_eq_some_iff.mp hrun
  have horder : (system noTypes).ActionsMeet InOrder (.created newInspection) twoUploads := by
    decide
  exact ⟨t, ht, htwo, (numbered_iff_inOrder (init_newInspection noTypes) ht).mpr horder⟩

/-- Two uploads that read the largest number one after the other, then insert. -/
def overlappingUploads : List Action :=
  .start 0 .uploadImage :: List.replicate 2 (.exec 0 (quietInput "image-1")) ++
    .start 1 .uploadImage :: List.replicate 2 (.exec 1 (quietInput "image-2")) ++
    List.replicate 2 (.exec 0 (quietInput "image-1")) ++
    List.replicate 2 (.exec 1 (quietInput "image-2"))

instance : (proc : Proc) → Decidable (proc = .idle)
  | .idle => isTrue rfl
  | .patch _ | .softDelete _ | .upload _ | .analyse _ | .worker _ | .recommend _ => isFalse nofun

/-- Both are accepted, as number 1. -/
theorem not_numbered_overlappingUploads :
    ∃ t, (system noTypes).run (.created newInspection) overlappingUploads = some t ∧
      (t.procs 0 = .idle ∧ t.procs 1 = .idle) ∧
      sequenceNums t.db.tables.roadImages = [1, 1] ∧ ¬ Numbered t := by
  have hrun : ((system noTypes).run (.created newInspection) overlappingUploads).map
      (fun t => (decide (t.procs 0 = .idle ∧ t.procs 1 = .idle),
        sequenceNums t.db.tables.roadImages, decide (Numbered t)))
      = some (true, [1, 1], false) := by
    decide
  obtain ⟨t, ht, heq⟩ := Option.map_eq_some_iff.mp hrun
  simp only [Prod.mk.injEq, decide_eq_true_eq, decide_eq_false_iff_not] at heq
  exact ⟨t, ht, heq⟩

end RoadVisionAI.Inspections
