import RoadVisionAI.Detection.Equiv.Artifacts
import RoadVisionAI.Inspections.Equiv.Audit
import RoadVisionAI.Inspections.RoadImages
import RoadVisionAI.Transition.Past
import RoadVisionAI.Transition.Projection

/-!
# An analysis is about the pictures that were uploaded

`imaging` makes the steps of `system` (`projects_system`), so what is proved of that holds here.
Beyond it, every committed row of `road_images` stands for a file that passed the checks, and its
path leads to the bytes of that file (`RoadImage.Kept`): whatever uploads and runs come in between,
the downloads of a run give back what was uploaded, and the committed detections are those of the
detector on these files (`analysed_as_uploaded`).

`uuid.uuid4` is assumed to give names that have not been used (`FreshName`).
-/

namespace RoadVisionAI.RoadImages

open Python Db Transition Inspections AnalysisWorker
open Detector (YoloBox)
open ModelRegistry (Bucket ObjectStore)

variable {env : Env} {damageTypes : DamageTypeTable ℚ} {files : Set UploadFile}
  {objects objects' : ObjectStore} {images images' : List RoadImage} {p q : ℕ} {proc proc' : Proc}
  {held : Held}

/-! ### Kept pictures -/

/-- The row is that of the file, which has passed the checks, and its path leads to the bytes. -/
structure RoadImage.Kept (env : Env) (objects : ObjectStore) (image : RoadImage)
    (file : UploadFile) : Prop where
  row : ∃ payload objectName, file.check env = .ok payload ∧
    image = file.image env payload objectName image.id image.sequenceNum
  download : image.download objects = .ok file.data

/-- Nothing stored is replaced. -/
def Retains (objects objects' : ObjectStore) : Prop :=
  ∀ key data, objects key = some data → objects' key = some data

theorem retains_update {key : String × String} (h : objects key = none) (data : ByteArray) :
    Retains objects (Function.update objects key (some data)) := by
  intro key' data' hdata
  have hne : key' ≠ key := by
    rintro rfl
    exact nomatch h.symm.trans hdata
  rwa [Function.update_of_ne hne]

theorem download_image {file : UploadFile} {payload : Payload} {objectName : String} {id : Uuid}
    {sequenceNum : ℕ} :
    (file.image env payload objectName id sequenceNum).download objects
      = objects.getObject env.bucket.name objectName := by
  have hpath : (file.image env payload objectName id sequenceNum).storagePath
      = env.bucket.name ++ String.singleton '/' ++ objectName := by
    rfl
  rw [RoadImage.download, hpath, partitionAt_append env.bucket.noSlash]

theorem getObject_eq_ok_iff {bucket objectName : String} {data : ByteArray} :
    objects.getObject bucket objectName = .ok data ↔ objects (bucket, objectName) = some data := by
  rw [ObjectStore.getObject]
  cases objects (bucket, objectName) with
  | none => simp
  | some stored => simp

theorem RoadImage.Kept.mono {image : RoadImage} {file : UploadFile}
    (h : image.Kept env objects file) (hretains : Retains objects objects') :
    image.Kept env objects' file where
  row := h.row
  download := by
    have hdownload := h.download
    rw [RoadImage.download, getObject_eq_ok_iff] at hdownload ⊢
    exact hretains _ _ hdownload

/-! ### What a run has seen -/

/-- A committed picture and the file it stands for. -/
abbrev Upload := RoadImage × UploadFile

/-- The outputs of a run of one of the detectors, which has predicted on the files. -/
def Analysed (env : Env) (damageTypes : DamageTypeTable ℚ) (uploads : List Upload)
    (outputs : Outputs ℚ) : Prop :=
  ∃ detector ∈ env.detectors, ∃ (model : ActiveModel ℚ) (analysisId : Uuid) (ms : ℕ)
    (computed : Outputs ℚ),
    (model.modelId = detector.modelId ∧ model.upper = detector.upper ∧
        model.classMapping = detector.classMapping ∧
        ∀ upload ∈ uploads, detector.predict upload.1.localName upload.2.data
          = .ok (model.predict upload.1.toRoadImage)) ∧
      analyse model damageTypes (uploads.map fun upload => upload.1.toRoadImage) analysisId ms
        = .ok computed ∧
      computed.store = .ok outputs

/-- The outputs are those of a run on committed pictures, each of one of the files. -/
def Traced (env : Env) (damageTypes : DamageTypeTable ℚ) (files : Set UploadFile)
    (objects : ObjectStore) (images : List RoadImage) (seen : List Db.RoadImage)
    (outputs : Outputs ℚ) : Prop :=
  ∃ uploads : List Upload, uploads.map (fun upload => upload.1.toRoadImage) = seen ∧
    (∀ upload ∈ uploads, upload.1 ∈ images ∧ upload.2 ∈ files ∧
      upload.1.Kept env objects upload.2) ∧
    Analysed env damageTypes uploads outputs

theorem Traced.mono {seen : List Db.RoadImage} {outputs : Outputs ℚ}
    (h : Traced env damageTypes files objects images seen outputs)
    (hretains : Retains objects objects') (himages : images ⊆ images') :
    Traced env damageTypes files objects' images' seen outputs := by
  obtain ⟨uploads, hseen, hkept, hanalysed⟩ := h
  refine ⟨uploads, hseen, fun upload hupload => ?_, hanalysed⟩
  obtain ⟨himage, hfile, hupload⟩ := hkept upload hupload
  exact ⟨himages himage, hfile, hupload.mono hretains⟩

/-- The rounds of the loop answer for each picture.  By induction on the pictures. -/
theorem mapM_round_eq_ok {detector : LoadedDetector} {results : List (Uuid × List (YoloBox ℚ))}
    (h : images.mapM (detector.round objects) = .ok results) :
    results.map Prod.fst = images.map (fun image => image.id) ∧
      ∀ image ∈ images, ∃ boxes data, (image.id, boxes) ∈ results ∧
        image.download objects = .ok data ∧ detector.predict image.localName data = .ok boxes := by
  induction images generalizing results with
  | nil =>
    rw [List.mapM_nil] at h
    cases h
    exact ⟨rfl, fun _ hnone => nomatch hnone⟩
  | cons image images ih =>
    rw [List.mapM_cons, bind_eq_ok_iff] at h
    obtain ⟨result, hresult, h⟩ := h
    obtain ⟨rest, hrest, h⟩ := bind_eq_ok_iff.mp h
    cases h
    obtain ⟨hkeys, hrounds⟩ := ih hrest
    rw [LoadedDetector.round, bind_eq_ok_iff] at hresult
    obtain ⟨data, hdata, hresult⟩ := hresult
    obtain ⟨boxes, hboxes, hresult⟩ := bind_eq_ok_iff.mp hresult
    cases hresult
    refine ⟨by rw [List.map_cons, List.map_cons, hkeys], List.forall_mem_cons.mpr ⟨?_, ?_⟩⟩
    · exact ⟨boxes, data, List.mem_cons_self, hdata, hboxes⟩
    · intro image' himage'
      obtain ⟨boxes', data', hmem, hround⟩ := hrounds image' himage'
      exact ⟨boxes', data', List.mem_cons_of_mem _ hmem, hround⟩

/-- What the model is asked about a picture is what the loop has found out. -/
theorem predict_onResults {detector : LoadedDetector} {results : List (Uuid × List (YoloBox ℚ))}
    (hnodup : (results.map Prod.fst).Nodup) {image : RoadImage} {boxes : List (YoloBox ℚ)}
    (h : (image.id, boxes) ∈ results) :
    (detector.onResults results).predict image.toRoadImage = boxes := by
  have hget : (Dict.ofItems results).get? image.id = some boxes := by
    rw [Dict.get?_ofItems hnodup]
    exact Dict.get?_of_mem (d := ⟨results, hnodup⟩) h
  show ((Dict.ofItems results).get? image.id).getD [] = boxes
  rw [hget, Option.getD_some]

/-- A run that has downloaded committed pictures has seen the files. -/
theorem traced_of_mapM {seen : List RoadImage} {detector : LoadedDetector}
    {results : List (Uuid × List (YoloBox ℚ))} {analysisId : Uuid} {ms : ℕ} {outputs : Outputs ℚ}
    (hdetector : detector ∈ env.detectors)
    (hkept : ∀ image ∈ images, ∃ file ∈ files, image.Kept env objects file)
    (hseen : seen ⊆ images)
    (hnodup : (seen.map fun image => image.id).Nodup)
    (hresults : seen.mapM (detector.round objects) = .ok results)
    (hcompute : analyse (detector.onResults results) damageTypes
      (seen.map RoadImage.toRoadImage) analysisId ms >>= Outputs.store = .ok outputs) :
    Traced env damageTypes files objects images (seen.map RoadImage.toRoadImage) outputs := by
  choose! file hmem hfile using hkept
  obtain ⟨computed, hanalyse, hstore⟩ := bind_eq_ok_iff.mp hcompute
  obtain ⟨hkeys, hrounds⟩ := mapM_round_eq_ok hresults
  have hmap : (seen.map fun image => (image, file image)).map
      (fun upload : Upload => upload.1.toRoadImage) = seen.map RoadImage.toRoadImage := by
    rw [List.map_map]
    rfl
  refine ⟨seen.map fun image => (image, file image), hmap, ?_, detector, hdetector,
    detector.onResults results, analysisId, ms, computed, ⟨rfl, rfl, rfl, ?_⟩, hmap ▸ hanalyse,
    hstore⟩
  · intro upload hupload
    obtain ⟨image, himage, rfl⟩ := List.mem_map.mp hupload
    exact ⟨hseen himage, hmem image (hseen himage), hfile image (hseen himage)⟩
  · intro upload hupload
    obtain ⟨image, himage, rfl⟩ := List.mem_map.mp hupload
    obtain ⟨boxes, data, hresult, hdata, hboxes⟩ := hrounds image himage
    -- what was downloaded is what was uploaded
    have hsame : data = (file image).data :=
      Except.ok.inj (hdata.symm.trans (hfile image (hseen himage)).download)
    rw [predict_onResults (hkeys ▸ hnodup) hresult, ← hsame, hboxes]

/-! ### The invariant -/

/-- One of the files has passed the checks, and is stored. -/
def Held.Stored (env : Env) (files : Set UploadFile) (objects : ObjectStore) (held : Held) : Prop :=
  ∃ file ∈ files, ∃ payload objectName, held = .stored file payload objectName ∧
    file.check env = .ok payload ∧ objects (env.bucket.name, objectName) = some file.data

/-- What a process holds fits its stage. -/
def Fits (env : Env) (damageTypes : DamageTypeTable ℚ) (files : Set UploadFile)
    (objects : ObjectStore) (images : List RoadImage) (held : Held) : Proc → Prop
  | .upload .started => ∃ file ∈ files, held = .file file
  | .upload .found => (∃ file ∈ files, held = .file file) ∨ held.Stored env files objects
  | .upload (.numbered _) => held.Stored env files objects
  | .upload (.inserted row) => ∃ image, held = .inserted image ∧ image.toRoadImage = row ∧
      ∃ file ∈ files, image.Kept env objects file
  | .worker (.selected _ seen) | .worker (.clearedDetections _ seen _)
  | .worker (.clearedScores _ seen _) | .worker (.clearedResults _ seen _) =>
    ∃ rows, held = .selected rows ∧ rows.map RoadImage.toRoadImage = seen ∧ rows ⊆ images ∧
      (rows.map fun image => image.id).Nodup
  | .worker (.computed _ seen _ outputs) | .worker (.updated seen _ outputs) =>
    Traced env damageTypes files objects images seen outputs
  | _ => True

/-- The invariant, while these files arrive. -/
structure Sound (env : Env) (damageTypes : DamageTypeTable ℚ) (files : Set UploadFile) (s : State) :
    Prop where
  rows : s.base.db.tables.roadImages = s.roadImages.map RoadImage.toRoadImage
  nodup : (s.roadImages.map fun image => image.id).Nodup
  kept : ∀ image ∈ s.roadImages, ∃ file ∈ files, image.Kept env s.objects file
  fits : ∀ p, Fits env damageTypes files s.objects s.roadImages (s.held p) (s.base.procs p)
  last : ∀ run, s.base.db.lastRun = some run →
    Traced env damageTypes files s.objects s.roadImages run.images run.outputs

theorem Held.Stored.mono (h : held.Stored env files objects) (hretains : Retains objects objects') :
    held.Stored env files objects' := by
  obtain ⟨file, hfile, payload, objectName, rfl, hcheck, hdata⟩ := h
  exact ⟨file, hfile, payload, objectName, rfl, hcheck, hretains _ _ hdata⟩

theorem Fits.mono (h : Fits env damageTypes files objects images held proc)
    (hretains : Retains objects objects') (himages : images ⊆ images') :
    Fits env damageTypes files objects' images' held proc := by
  unfold Fits at h ⊢
  split at h
  · exact h
  · exact h.imp_right fun hstored => hstored.mono hretains
  · exact h.mono hretains
  · obtain ⟨image, hheld, hrow, file, hfile, hkept⟩ := h
    exact ⟨image, hheld, hrow, file, hfile, hkept.mono hretains⟩
  iterate 4
    · obtain ⟨rows, hheld, hmap, hrows, hnodup⟩ := h
      exact ⟨rows, hheld, hmap, List.Subset.trans hrows himages, hnodup⟩
  · exact h.mono hretains himages
  · exact h.mono hretains himages
  · trivial

/-- The invariance, reduced to the rows, the objects and the process of the step. -/
theorem Sound.move {s : State} (hs : Sound env damageTypes files s) (added : List RoadImage)
    {effect : Effect} (hretains : Retains s.objects objects')
    (hrows : (effect.apply p s.base.db).tables.roadImages
      = s.base.db.tables.roadImages ++ added.map RoadImage.toRoadImage)
    (hnodup : ((s.roadImages ++ added).map fun image => image.id).Nodup)
    (hkept : ∀ image ∈ added, ∃ file ∈ files, image.Kept env objects' file)
    (hfits : Fits env damageTypes files objects' (s.roadImages ++ added) held proc')
    (hlast : ∀ run, (effect.apply p s.base.db).lastRun = some run →
      Traced env damageTypes files s.objects s.roadImages run.images run.outputs) :
    Sound env damageTypes files {
      base := s.base.after p effect proc'
      held := Function.update s.held p held
      objects := objects'
      roadImages := s.roadImages ++ added } where
  rows := by
    show (effect.apply p s.base.db).tables.roadImages = _
    rw [hrows, hs.rows, List.map_append]
  nodup := hnodup
  kept := by
    refine List.forall_mem_append.mpr ⟨fun image himage => ?_, hkept⟩
    obtain ⟨file, hfile, hkept⟩ := hs.kept image himage
    exact ⟨file, hfile, hkept.mono hretains⟩
  fits q := by
    show Fits env damageTypes files objects' _ (Function.update s.held p held q)
      ((s.base.after p effect proc').procs q)
    by_cases hq : q = p
    · rw [hq, Function.update_self, State.procs_after_self]
      exact hfits
    · rw [Function.update_of_ne hq, State.procs_after_of_ne hq]
      exact (hs.fits q).mono hretains (List.subset_append_left _ _)
  last run hrun := (hlast run hrun).mono hretains (List.subset_append_left _ _)

/-! ### The statements of `system` -/

section

variable {s s' : State}

theorem along_eq_some {action : Inspections.Action}
    (h : s.along damageTypes p held action = some s') :
    ∃ base, Inspections.step damageTypes s.base action = some base ∧
      s' = { s with base, held := Function.update s.held p held } := by
  obtain ⟨base, hstep, hs'⟩ := Option.map_eq_some_iff.mp h
  exact ⟨base, hstep, hs'.symm⟩

theorem along_exec {input : Inspections.Input}
    (h : s.along damageTypes p held (.exec p input) = some s') :
    ∃ effect proc, (s.base.procs p).Makes damageTypes s.base.db p input effect proc ∧
      s' = { s with
        base := s.base.after p effect proc
        held := Function.update s.held p held } := by
  obtain ⟨base, hstep, rfl⟩ := along_eq_some h
  obtain ⟨⟨effect, proc⟩, hexec, rfl⟩ := Option.map_eq_some_iff.mp hstep
  exact ⟨effect, proc, exec_cases hexec, rfl⟩

/-- What a statement that commits nothing leaves as it is. -/
theorem makes_tables {db : Database} {input : Inspections.Input} {effect : Effect}
    (h : proc.Makes damageTypes db p input effect proc') :
    ((effect.apply p db).tables = db.tables ∧ (effect.apply p db).lastRun = db.lastRun) ∨
      ∃ tables run, effect = .commit tables run ∧ proc.Commits db tables run proc' := by
  cases h with
  | commit hcommits => exact Or.inr ⟨_, _, rfl, hcommits⟩
  | update _ hupdate =>
    rcases updateInspection_cases hupdate with ⟨rfl, -⟩ | ⟨row, l, rfl, -⟩
    · exact Or.inl ⟨rfl, rfl⟩
    · exact Or.inl ⟨rfl, rfl⟩
  | _ => exact Or.inl ⟨rfl, rfl⟩

/-- A step that adds no picture. -/
theorem Sound.stay (hs : Sound env damageTypes files s) {effect : Effect}
    (hrows : (effect.apply p s.base.db).tables.roadImages = s.base.db.tables.roadImages)
    (hfits : Fits env damageTypes files s.objects s.roadImages held proc')
    (hlast : ∀ run, (effect.apply p s.base.db).lastRun = some run →
      Traced env damageTypes files s.objects s.roadImages run.images run.outputs) :
    Sound env damageTypes files
      { s with base := s.base.after p effect proc', held := Function.update s.held p held } := by
  have hnil : s.roadImages ++ [] = s.roadImages := List.append_nil _
  have hmove := hs.move [] (fun _ _ h => h)
    (by rw [hrows, List.map_nil, List.append_nil]) (by rw [hnil]; exact hs.nodup)
    (fun _ hnone => nomatch hnone) (by rw [hnil]; exact hfits) hlast
  rwa [hnil] at hmove

/-- A request arrives. -/
theorem sound_start {request : Request} (hs : Sound env damageTypes files s)
    (h : s.along damageTypes p held (.start p request) = some s')
    (hfits : Fits env damageTypes files s.objects s.roadImages held request.proc) :
    Sound env damageTypes files s' := by
  obtain ⟨base, hstep, rfl⟩ := along_eq_some h
  simp only [Inspections.step] at hstep
  split at hstep
  · obtain rfl := Option.some.inj hstep
    exact hs.stay rfl hfits hs.last
  · cases hstep

theorem sound_fail (hs : Sound env damageTypes files s)
    (h : s.along damageTypes p .nothing (.fail p) = some s') : Sound env damageTypes files s' := by
  obtain ⟨base, hstep, rfl⟩ := along_eq_some h
  simp only [Inspections.step] at hstep
  split at hstep
  · cases hstep
  · obtain rfl := Option.some.inj hstep
    refine hs.stay rfl ?_ hs.last
    unfold Proc.afterFailure
    split <;> trivial

/-- The statement is as in `system`, and what the process holds stays. -/
def Passive (held : Held) : Proc → Prop
  | .upload .found => ∀ file, held ≠ .file file
  | .upload (.numbered _) => ∀ file payload objectName, held ≠ .stored file payload objectName
  | .upload (.inserted _) => ∀ image, held ≠ .inserted image
  | .worker (.loaded _) => False
  | .worker (.clearedResults _ _ _) => ∀ images, held ≠ .selected images
  | _ => True

/-- A passive statement leads to a stage the held things fit. -/
theorem Fits.passive {db : Database} {input : Inspections.Input} {effect : Effect}
    (h : Fits env damageTypes files objects images held proc) (hpassive : Passive held proc)
    (hmakes : proc.Makes damageTypes db p input effect proc') :
    Fits env damageTypes files objects images held proc' := by
  cases hmakes with
  | read hreads =>
    cases hreads with
    | upload => exact Or.inl h
    | number =>
      rcases h with ⟨file, -, hfile⟩ | hstored
      · exact absurd hfile (hpassive file)
      · exact hstored
    | insert =>
      obtain ⟨file, -, payload, objectName, hheld, -⟩ := h
      exact absurd hheld (hpassive file payload objectName)
    | select => exact hpassive.elim
    | compute =>
      obtain ⟨rows, hheld, -⟩ := h
      exact absurd hheld (hpassive rows)
    | clearDetections | clearScores | clearResults | keepDone => exact h
    | _ => trivial
  | refuse => trivial
  | raise => trivial
  | update hasks hupdate =>
    rcases updateInspection_cases hupdate with ⟨-, rfl⟩ | ⟨row, l, -, rfl, -⟩
    · trivial
    · cases hasks with
      | finish => exact h
      | _ => trivial
  | commit hcommits => cases hcommits <;> trivial

theorem sound_passive {input : Inspections.Input} (hs : Sound env damageTypes files s)
    (hpassive : Passive (s.held p) (s.base.procs p))
    (h : s.along damageTypes p (s.held p) (.exec p input) = some s') :
    Sound env damageTypes files s' := by
  obtain ⟨effect, proc, hmakes, rfl⟩ := along_exec h
  have hfits := hs.fits p
  have hnext := hfits.passive hpassive hmakes
  rcases makes_tables hmakes with ⟨htables, hrun⟩ | ⟨tables, run, rfl, hcommits⟩
  · exact hs.stay (by rw [htables]) hnext (by rw [hrun]; exact hs.last)
  · generalize s.base.procs p = before at hcommits hfits hpassive
    cases hcommits with
    | upload =>
      obtain ⟨image, hheld, -⟩ := hfits
      exact absurd hheld (hpassive image)
    | run hcommit =>
      refine hs.stay ?_ hnext fun run hrun => ?_
      · unfold commitRun at hcommit
        simp only at hcommit
        split_ifs at hcommit
        obtain rfl := Option.some.inj hcommit
        rfl
      · obtain rfl := Option.some.inj hrun
        exact hfits
    | _ => exact hs.stay rfl hnext hs.last

/-! ### The other steps -/

/-- `uuid.uuid4` gives a name that has not been used. -/
def FreshName (env : Env) (s : State) : Action → Prop
  | .exec p input =>
    match s.base.procs p, s.held p with
    | .upload .found, .file file =>
      s.objects (env.bucket.name, file.objectName s.base.db.row.committed.id input.hex) = none
    | _, _ => True
  | _ => True

instance (s : State) : DecidablePred (FreshName env s) := by
  intro a
  unfold FreshName
  split
  · split <;> infer_instance
  · infer_instance

/-- The checks and the `put_object` of an upload. -/
theorem sound_put {file : UploadFile} {payload : Payload} {objectName : String}
    (hs : Sound env damageTypes files s) (hproc : s.base.procs p = .upload .found)
    (hheld : s.held p = .file file) (hcheck : file.check env = .ok payload)
    (hfresh : s.objects (env.bucket.name, objectName) = none) :
    Sound env damageTypes files { s with
      held := Function.update s.held p (.stored file payload objectName)
      objects := Function.update s.objects (env.bucket.name, objectName) (some file.data) } := by
  have hfile : file ∈ files := by
    have hfits := hs.fits p
    rw [hproc, hheld] at hfits
    rcases hfits with ⟨file', hfile, heq⟩ | ⟨_, -, _, _, heq, -⟩
    · exact Held.file.inj heq ▸ hfile
    · cases heq
  have hbase : s.base.after p .none (.upload .found) = s.base := by
    rw [State.after, ← hproc, Function.update_eq_self]
    rfl
  have hnil : s.roadImages ++ [] = s.roadImages := List.append_nil _
  have hmove : Sound env damageTypes files {
      base := s.base.after p .none (.upload .found)
      held := Function.update s.held p (.stored file payload objectName)
      objects := Function.update s.objects (env.bucket.name, objectName) (some file.data)
      roadImages := s.roadImages ++ [] } := hs.move [] (retains_update hfresh _)
    (by rw [List.map_nil, List.append_nil]; rfl) (by rw [hnil]; exact hs.nodup)
    (fun _ hnone => nomatch hnone)
    (Or.inr ⟨file, hfile, payload, objectName, rfl, hcheck, Function.update_self ..⟩) hs.last
  rwa [hbase, hnil] at hmove

/-- The flush of a row. -/
theorem sound_flush {file : UploadFile} {payload : Payload} {objectName : String} {sequenceNum : ℕ}
    {input : Input} (hs : Sound env damageTypes files s)
    (hproc : s.base.procs p = .upload (.numbered sequenceNum))
    (hheld : s.held p = .stored file payload objectName)
    (h : s.along damageTypes p
      (.inserted (file.image env payload objectName input.id sequenceNum))
      (.exec p (input.base [])) = some s') : Sound env damageTypes files s' := by
  have hfits := hs.fits p
  obtain ⟨effect, proc, hmakes, rfl⟩ := along_exec h
  rw [hproc] at hmakes hfits
  obtain ⟨file', hfile, payload', objectName', hheld', hcheck, hdata⟩ := hfits
  obtain ⟨rfl, rfl, rfl⟩ := Held.stored.inj (hheld.symm.trans hheld')
  cases hmakes with
  | read hreads =>
    cases hreads with
    | insert =>
      refine hs.stay rfl ⟨_, rfl, rfl, file, hfile, ⟨payload, objectName, hcheck, rfl⟩, ?_⟩ hs.last
      rw [download_image, getObject_eq_ok_iff, hdata]
  | refuse hrefuses => cases hrefuses
  | raise hclear => cases hclear
  | update hasks => cases hasks
  | commit hcommits => cases hcommits

/-- The commit of a row. -/
theorem sound_commit {image : RoadImage} {row : Db.RoadImage} {input : Input} {t : State}
    (hs : Sound env damageTypes files s) (hproc : s.base.procs p = .upload (.inserted row))
    (hheld : s.held p = .inserted image)
    (h : s.along damageTypes p .nothing (.exec p (input.base [])) = some t) :
    Sound env damageTypes files { t with roadImages := s.roadImages ++ [image] } := by
  have hfits := hs.fits p
  obtain ⟨effect, proc, hmakes, rfl⟩ := along_exec h
  rw [hproc] at hmakes hfits
  obtain ⟨image', hheld', hrow, file, hfile, hkept⟩ := hfits
  obtain rfl := Held.inserted.inj (hheld.symm.trans hheld')
  cases hmakes with
  | read hreads => cases hreads
  | refuse hrefuses => cases hrefuses
  | raise hclear => cases hclear
  | update hasks => cases hasks
  | commit hcommits =>
    cases hcommits with
    | upload hnew =>
      have hids : s.base.db.tables.roadImages.map Db.RoadImage.id
          = s.roadImages.map fun image => image.id := by
        rw [hs.rows, List.map_map]
        rfl
      refine hs.move [image] (fun _ _ h => h) (by rw [List.map_singleton, hrow]; rfl) ?_
        (List.forall_mem_singleton.mpr ⟨file, hfile, hkept⟩) trivial hs.last
      rw [hids, ← hrow] at hnew
      rw [List.map_append, List.map_singleton]
      exact List.nodup_append.mpr ⟨hs.nodup, List.nodup_singleton _, fun a ha b hb hab =>
        hnew (List.mem_singleton.mp hb ▸ hab ▸ ha)⟩

/-- The `SELECT` of a run. -/
theorem sound_select {row : Inspection} {input : Input} (hs : Sound env damageTypes files s)
    (hproc : s.base.procs p = .worker (.loaded row))
    (h : s.along damageTypes p (.selected s.roadImages) (.exec p (input.base [])) = some s') :
    Sound env damageTypes files s' := by
  obtain ⟨effect, proc, hmakes, rfl⟩ := along_exec h
  rw [hproc] at hmakes
  cases hmakes with
  | read hreads =>
    cases hreads with
    | select =>
      exact hs.stay rfl ⟨s.roadImages, rfl, hs.rows.symm, List.Subset.refl _, hs.nodup⟩ hs.last
  | refuse hrefuses => cases hrefuses
  | raise hclear => cases hclear
  | update hasks => cases hasks
  | commit hcommits => cases hcommits

/-- The downloads and the computation of a run. -/
theorem sound_compute {row : Inspection} {seen : List Db.RoadImage} {cleared : Cleared}
    {input : Input} {results : List (Uuid × List (YoloBox ℚ))} (hs : Sound env damageTypes files s)
    (hdetector : input.detector ∈ env.detectors)
    (hproc : s.base.procs p = .worker (.clearedResults row seen cleared))
    (hheld : s.held p = .selected images)
    (hresults : images.mapM (input.detector.round s.objects) = .ok results)
    (h : s.along damageTypes p (.selected images) (.exec p (input.base results)) = some s') :
    Sound env damageTypes files s' := by
  have hfits := hs.fits p
  obtain ⟨effect, proc, hmakes, rfl⟩ := along_exec h
  rw [hproc] at hmakes hfits
  obtain ⟨rows, hheld', rfl, hrows, hnodup⟩ := hfits
  obtain rfl := Held.selected.inj (hheld.symm.trans hheld')
  cases hmakes with
  | read hreads =>
    cases hreads with
    | compute hcompute =>
      exact hs.stay rfl (traced_of_mapM hdetector hs.kept hrows hnodup hresults hcompute) hs.last
  | refuse hrefuses => cases hrefuses
  | raise => exact hs.stay rfl trivial hs.last
  | update hasks => cases hasks
  | commit hcommits => cases hcommits

theorem sound_exec {input : Input} (hs : Sound env damageTypes files s)
    (hfresh : FreshName env s (.exec p input)) (hdetector : input.detector ∈ env.detectors)
    (h : exec env damageTypes s p input = some s') : Sound env damageTypes files s' := by
  unfold exec at h
  simp only at h
  split at h
  next file hproc hheld =>
    split at h
    next => exact sound_fail hs h
    next payload hcheck =>
      obtain rfl := Option.some.inj h
      simp only [FreshName, hproc, hheld] at hfresh
      exact sound_put hs hproc hheld hcheck hfresh
  next sequenceNum file payload objectName hproc hheld =>
    split_ifs at h
    exact sound_flush hs hproc hheld h
  next row image hproc hheld =>
    obtain ⟨t, ht, rfl⟩ := Option.map_eq_some_iff.mp h
    exact sound_commit hs hproc hheld ht
  next row hproc => exact sound_select hs hproc h
  next row seen cleared images hproc hheld =>
    split at h
    next => exact sound_fail hs h
    next results hresults => exact sound_compute hs hdetector hproc hheld hresults h
  next hselect hput hflush hcommit hcompute =>
    refine sound_passive hs ?_ h
    unfold Passive
    split
    next hproc => exact fun file hheld => hput file hproc hheld
    next n hproc => exact fun _ _ _ hheld => hflush _ _ _ _ hproc hheld
    next row hproc => exact fun _ hheld => hcommit _ _ hproc hheld
    next row hproc => exact hselect _ hproc
    next hproc => exact fun _ hheld => hcompute _ _ _ _ hproc hheld
    next => trivial

end

/-- The detector is one of those `_get_detector` can return. -/
def Detects (env : Env) : Action → Prop
  | .exec _ input => input.detector ∈ env.detectors
  | _ => True

/-- What arrives is one of the files. -/
def Uploads (files : Set UploadFile) : Action → Prop
  | .upload _ file => file ∈ files
  | _ => True

theorem sound_step {s s' : State} {a : Action} (hs : Sound env damageTypes files s)
    (hfresh : FreshName env s a) (hdetects : Detects env a) (huploads : Uploads files a)
    (h : step env damageTypes s a = some s') :
    Sound env damageTypes files s' := by
  cases a with
  | start p request =>
    cases request with
    | uploadImage => cases h
    | patch | softDelete | analyse | recommend => exact sound_start hs h trivial
  | upload p file => exact sound_start hs h ⟨file, huploads, rfl⟩
  | exec p input => exact sound_exec hs hfresh hdetects h
  | fail p => exact sound_fail hs h

/-! ### The runs -/

/-- The inspection, where `uuid.uuid4` gives unused names and `_get_detector` one of the detectors
in use. -/
noncomputable def surveying (env : Env) (damageTypes : DamageTypeTable ℚ) : Machine State Action :=
  ((imaging env damageTypes).restrict (FreshName env)).restrict fun _ a => Detects env a

theorem surveying_step {s s' : State} {a : Action}
    (h : (surveying env damageTypes).step s a = some s') :
    FreshName env s a ∧ Detects env a ∧ step env damageTypes s a = some s' := by
  obtain ⟨hdetects, h⟩ := Machine.step_restrict_eq_some_iff.mp h
  obtain ⟨hfresh, h⟩ := Machine.step_restrict_eq_some_iff.mp h
  exact ⟨hfresh, hdetects, h⟩

/-- The files that have been uploaded. -/
def uploaded (actions : List Action) : Set UploadFile := {file | ∃ p, .upload p file ∈ actions}

theorem sound_of_init {s : State} (hs : (surveying env damageTypes).init s) :
    Sound env damageTypes files s := by
  obtain ⟨base, held, objects, roadImages⟩ := s
  obtain ⟨⟨data, actor, id, now, rfl⟩, rfl, rfl, rfl⟩ := hs
  exact {
    rows := rfl
    nodup := List.nodup_nil
    kept := fun _ hnone => nomatch hnone
    fits := fun _ => trivial
    last := fun _ hnone => nomatch hnone }

/-- Every run, on the files it uploads. -/
theorem sound_of_run {s t : State} {actions : List Action}
    (hs : (surveying env damageTypes).init s)
    (hrun : (surveying env damageTypes).run s actions = some t) :
    Sound env damageTypes (uploaded actions) t := by
  -- as long as nothing else is uploaded
  have hstep : ∀ (s : State) (done : List Action) (a : Action) (s' : State),
      ((∀ b ∈ done, Uploads (uploaded actions) b) → Sound env damageTypes (uploaded actions) s) →
      (surveying env damageTypes).step s a = some s' →
      (∀ b ∈ done ++ [a], Uploads (uploaded actions) b) →
      Sound env damageTypes (uploaded actions) s' := by
    intro s done a s' hsound h hdone
    obtain ⟨hfresh, hdetects, h⟩ := surveying_step h
    obtain ⟨hdone, ha⟩ := List.forall_mem_append.mp hdone
    exact sound_step (hsound hdone) hfresh hdetects (ha a (List.mem_singleton_self a)) h
  refine Machine.history_of_run (P := fun t done => (∀ b ∈ done, Uploads (uploaded actions) b) →
    Sound env damageTypes (uploaded actions) t) hstep [] (fun _ => sound_of_init hs) hrun ?_
  rw [List.nil_append]
  intro b hb
  cases b with
  | upload p file => exact ⟨p, hb⟩
  | start | exec | fail => trivial

/-- What a step does, from afar: it stores an object under an unused name, or it is a step of
`system` that may add a picture. -/
theorem step_cases {s s' : State} {a : Action}
    (h : (surveying env damageTypes).step s a = some s') :
    (s'.base = s.base ∧ s'.roadImages = s.roadImages ∧ Retains s.objects s'.objects) ∨
      (∃ action, Inspections.step damageTypes s.base action = some s'.base) ∧
        s.roadImages ⊆ s'.roadImages ∧ s'.objects = s.objects := by
  obtain ⟨hfresh, -, h⟩ := surveying_step h
  have halong : ∀ {p held action t}, s.along damageTypes p held action = some t →
      (∃ action, Inspections.step damageTypes s.base action = some t.base) ∧
        s.roadImages ⊆ t.roadImages ∧ t.objects = s.objects := by
    intro p held action t ht
    obtain ⟨base, hstep, rfl⟩ := along_eq_some ht
    exact ⟨⟨action, hstep⟩, List.Subset.refl _, rfl⟩
  cases a with
  | start p request =>
    cases request with
    | uploadImage => cases h
    | patch | softDelete | analyse | recommend => exact Or.inr (halong h)
  | upload p file => exact Or.inr (halong h)
  | exec p input =>
    replace h : exec env damageTypes s p input = some s' := h
    unfold exec at h
    simp only at h
    split at h
    next file hproc hheld =>
      split at h
      · exact Or.inr (halong h)
      · obtain rfl := Option.some.inj h
        simp only [FreshName, hproc, hheld] at hfresh
        exact Or.inl ⟨rfl, rfl, retains_update hfresh _⟩
    · split_ifs at h
      exact Or.inr (halong h)
    · obtain ⟨t, ht, rfl⟩ := Option.map_eq_some_iff.mp h
      obtain ⟨hstep, -, hobjects⟩ := halong ht
      exact Or.inr ⟨hstep, List.subset_append_left _ _, hobjects⟩
    · exact Or.inr (halong h)
    · split at h
      · exact Or.inr (halong h)
      · exact Or.inr (halong h)
    · exact Or.inr (halong h)
  | fail p => exact Or.inr (halong h)

/-- Its steps are those of `system`. -/
theorem projects_system :
    (surveying env damageTypes).Projects (system damageTypes) State.base where
  init _ hs := hs.1
  step s a s' h := by
    rcases step_cases h with ⟨hbase, -⟩ | ⟨hstep, -⟩
    · exact Or.inl hbase
    · exact Or.inr hstep

/-- No picture is removed, and no object replaced. -/
theorem grows_of_leads {s t : State} (hst : (surveying env damageTypes).Leads s t) :
    s.roadImages ⊆ t.roadImages ∧ Retains s.objects t.objects := by
  have htrue : (surveying env damageTypes).Invariant fun _ => True :=
    ⟨fun _ _ => trivial, fun _ _ _ _ _ => trivial⟩
  refine htrue.rel_of_leads
    (R := fun s t => s.roadImages ⊆ t.roadImages ∧ Retains s.objects t.objects)
    (fun s => ⟨List.Subset.refl _, fun _ _ h => h⟩)
    (fun s t u hst htu =>
      ⟨List.Subset.trans hst.1 htu.1, fun key data h => htu.2 key data (hst.2 key data h)⟩)
    (fun s a s' _ h => ?_) trivial hst
  rcases step_cases h with ⟨-, himages, hretains⟩ | ⟨-, himages, hobjects⟩
  · exact ⟨by rw [himages]; exact List.Subset.refl _, hretains⟩
  · exact ⟨himages, by rw [hobjects]; exact fun _ _ h => h⟩

/-- **Analysed as uploaded.**  After any run, the path of every committed picture leads to the bytes
of a file that the run has uploaded and that has passed the checks of `upload_image`, and goes on to
do so whatever happens later, so no download of a run fails; and the outputs of an analysed
inspection are those of a detector on the uploaded files of committed pictures. -/
theorem analysed_as_uploaded {s₀ s t : State} {first later : List Action}
    (hinit : (surveying env damageTypes).init s₀)
    (hs : (surveying env damageTypes).run s₀ first = some s)
    (ht : (surveying env damageTypes).run s later = some t) :
    (∀ image ∈ s.roadImages, ∃ file ∈ uploaded first, image.Kept env s.objects file ∧
        image ∈ t.roadImages ∧ image.Kept env t.objects file) ∧
      t.base.db.tables.roadImages = t.roadImages.map RoadImage.toRoadImage ∧
      (t.base.db.row.committed.status = .TERMINEE → ∃ uploads outputs,
        (∀ upload ∈ uploads, upload.1 ∈ t.roadImages ∧ upload.2 ∈ uploaded (first ++ later) ∧
          upload.1.Kept env t.objects upload.2) ∧
          Analysed env damageTypes uploads outputs ∧
          t.base.db.tables.OutputsOf
            ⟨uploads.map fun upload => upload.1.toRoadImage, outputs⟩) := by
  have hboth := Machine.run_append hs ht
  have hsound := sound_of_run hinit hboth
  obtain ⟨himages, hretains⟩ := grows_of_leads ⟨later, ht⟩
  have hreach : (surveying env damageTypes).Reachable t := ⟨s₀, hinit, first ++ later, hboth⟩
  have hinv := invariant_inv.holds (projects_system.reachable hreach)
  refine ⟨fun image himage => ?_, hsound.rows, fun hdone => ?_⟩
  · obtain ⟨file, hfile, hkept⟩ := (sound_of_run hinit hs).kept image himage
    exact ⟨file, hfile, hkept, himages himage, hkept.mono hretains⟩
  · obtain ⟨run, hlast, -, houtputs⟩ := hinv.outputs.last hdone
    obtain ⟨uploads, hseen, hkept, hanalysed⟩ := hsound.last run hlast
    exact ⟨uploads, run.outputs, hkept, hanalysed, hseen ▸ houtputs⟩

/-- A picture of a road. -/
def roadPicture : UploadFile := ⟨some "image/jpeg", some "route.jpg", ⟨#[255, 216, 255]⟩⟩

/-- A detector that sees potholes in it. -/
def pictureDetector : LoadedDetector where
  modelId := ⟨"model-1"⟩
  upper text := text
  classMapping := none
  predict name data :=
    if name = "image-1.jpg" ∧ data.toList = roadPicture.data.toList then
      .ok (potholeModel.predict ⟨⟨"image-1"⟩, 1⟩)
    else .error (.other "FileNotFoundError" name)

/-- A service that takes what has three bytes for an image. -/
def pictureEnv : Env where
  bucket := ⟨"road-images", by decide⟩
  lower text := text
  imageSize data :=
    if data.size = 3 then .ok (640, 480) else .error (.other "UnidentifiedImageError" "")
  detectors := {pictureDetector}

/-- A moment. -/
def pictureInput (id : String) : Input := ⟨0, ⟨id⟩, "4f6b", pictureDetector, 0⟩

/-- The inspection before the upload. -/
def unpictured : State where
  base := .created newInspection
  held _ := .nothing
  objects _ := none
  roadImages := []

/-- The upload of the picture, and its analysis. -/
def pictureSurvey : List Action :=
  .upload 0 roadPicture :: List.replicate 5 (.exec 0 (pictureInput "image-1")) ++
    .start 1 .analyse :: List.replicate 12 (.exec 1 (pictureInput "analysis-1"))

/-- The two potholes are those of the picture. -/
theorem analysed_as_uploaded_pictureSurvey :
    ∃ t uploads outputs,
      (surveying pictureEnv potholeTable).run unpictured pictureSurvey = some t ∧
        t.roadImages.map RoadImage.localName = ["image-1.jpg"] ∧
        (∀ upload ∈ uploads, upload.2 = roadPicture) ∧
        Analysed pictureEnv potholeTable uploads outputs ∧
        t.base.db.tables.damageDetections = outputs.damageDetections ∧
        outputs.damageDetections.length = 2 := by
  have heval : ((imaging pictureEnv potholeTable).run unpictured pictureSurvey).map
      (fun t => (t.base.db.row.committed.status, t.roadImages.map RoadImage.localName,
        t.base.db.tables.damageDetections.length)) = some (.TERMINEE, ["image-1.jpg"], 2) := by
    decide +kernel
  have hfresh : (imaging pictureEnv potholeTable).ActionsMeet (FreshName pictureEnv) unpictured
      pictureSurvey := by
    decide +kernel
  obtain ⟨t, ht, hend⟩ := Option.map_eq_some_iff.mp heval
  obtain ⟨hdone, hnames⟩ := Prod.mk.inj hend
  obtain ⟨hnames, htwo⟩ := Prod.mk.inj hnames
  have hdetects : ∀ a ∈ pictureSurvey, Detects pictureEnv a := by
    simp [pictureSurvey, Detects, pictureInput, pictureEnv]
  have hrun := Machine.run_restrict_eq_some_iff.mpr
    ⟨Machine.run_restrict_eq_some_iff.mpr ⟨ht, hfresh⟩, .of_forall fun a ha _ => hdetects a ha⟩
  have hinit : (surveying pictureEnv potholeTable).init unpictured :=
    ⟨init_newInspection _, rfl, rfl, rfl⟩
  have hlater : (surveying pictureEnv potholeTable).run t [] = some t := rfl
  obtain ⟨-, -, hanalysed⟩ := analysed_as_uploaded hinit hrun hlater
  obtain ⟨uploads, outputs, hkept, hanalysed, houtputs⟩ := hanalysed hdone
  have hrows := houtputs.damageDetections
  refine ⟨t, uploads, outputs, hrun, hnames, fun upload hupload => ?_, hanalysed, hrows,
    hrows ▸ htwo⟩
  obtain ⟨-, ⟨p, hfile⟩, -⟩ := hkept upload hupload
  have hboth : p = 0 ∧ upload.2 = roadPicture := by simpa [pictureSurvey] using hfile
  exact hboth.2

end RoadVisionAI.RoadImages
