import RoadVisionAI.Detection.DetectorCache
import RoadVisionAI.Detection.Equiv.Artifacts

/-!
# Which detectors a process returns

A file that exists is not written again, a detector that is loaded is not loaded again, and
`load_artifacts` takes any exception for a missing config.  The first two do no harm: files and
detectors are those of their models (`Sound`).  The third gives a model the default mapping, for as
long as the process lives (`detectorCache_of_leads`), when the read of its config fails once:
`coherent_of_readsConfig`.
-/

namespace RoadVisionAI.DetectorCache

open Python Db Transition ModelRegistry

variable {store : Store}

/-! ### What the statement is about -/

/-- The mapping of the config, or the default when there is no config. -/
def UsesMapping (store : Store) (call : RegisterCall) (mapping : Json) : Prop :=
  (store.objects (store.bucket.name, call.configObject) = none → mapping = .obj []) ∧
    ((store.objects (store.bucket.name, call.configObject)).isSome →
      IsMapping mapping call.classMapping)

/-- The detector is that of the model. -/
def Detector.Fits (store : Store) (id : Uuid) (detector : Detector) : Prop :=
  detector.modelId = id ∧ ∃ call, store.calls id = some call ∧ detector.weights = call.weights ∧
    UsesMapping store call detector.mapping

/-- Every detector that has been returned is that of the model it was returned for. -/
def Coherent (store : Store) (s : State) : Prop :=
  ∀ p id detector, s.calls p = .returned id detector → detector.Fits store id

/-- A call that loads a model and reads its weights reads its config too, if there is one and it
does not map nothing. -/
def ReadsConfig (store : Store) (s : State) : Action → Prop
  | .exec p reads =>
    match s.calls p with
    | .locked id _ => s.detectorCache id = none → ∀ call ∈ store.calls id,
        (store.objects (store.bucket.name, call.configObject)).isSome →
        call.classMapping.entries ≠ [] → reads (store.bucket.name, call.weightsObject) = true →
        reads (store.bucket.name, call.configObject) = true
    | _ => True
  | _ => True

instance (store : Store) (s : State) : (a : Action) → Decidable (ReadsConfig store s a)
  | .exec p reads => by
    unfold ReadsConfig
    dsimp only
    split <;> infer_instance
  | .promote _ _ | .start _ | .fail _ => isTrue trivial

/-! ### Loading -/

theorem isMapping_empty {mapping : Dict String String} (h : mapping.entries = []) :
    IsMapping (.obj []) mapping := by
  refine ⟨[], rfl, fun key => ?_⟩
  rw [Dict.get?, h]
  rfl

/-- What `load_artifacts` returns when the config is read. -/
theorem usesMapping_classMappingOf {id : Uuid} {call : RegisterCall}
    {reads : String × String → Bool} (hcall : store.calls id = some call)
    (hreads : (store.objects (store.bucket.name, call.configObject)).isSome →
      call.classMapping.entries ≠ [] → reads (store.bucket.name, call.configObject) = true) :
    UsesMapping store call
      (classMappingOf (store.getObject reads store.bucket.name call.configObject)) := by
  constructor
  · intro hnone
    have hfails :
        ∃ exc, store.getObject reads store.bucket.name call.configObject = .error exc := by
      rw [Store.getObject, ObjectStore.getObject, hnone]
      split
      · exact ⟨_, rfl⟩
      · exact ⟨_, rfl⟩
    obtain ⟨exc, hexc⟩ := hfails
    rw [hexc]
    rfl
  · intro hsome
    obtain ⟨data, hdata⟩ := Option.isSome_iff_exists.mp hsome
    obtain ⟨registeredAt, rfl⟩ := store.config id call data hcall hdata
    by_cases hread : reads (store.bucket.name, call.configObject) = true
    · rw [Store.getObject, if_pos hread, ObjectStore.getObject, hdata]
      rw [classMappingOf_modelConfig, isMapping_iff]
      exact fun _ => rfl
    · have hempty : call.classMapping.entries = [] := by
        by_contra hne
        exact hread (hreads hsome hne)
      rw [Store.getObject, if_neg hread]
      exact isMapping_empty hempty

theorem loadArtifacts_ok {id : Uuid} {model : AiModel} {reads : String × String → Bool}
    {weights : ByteArray} {mapping : Json} (hmodel : store.Registered id model)
    (h : loadArtifacts (store.getObject reads) model = .ok (weights, mapping)) :
    ∃ call, store.calls id = some call ∧ weights = call.weights ∧
      reads (store.bucket.name, call.weightsObject) = true ∧
      mapping = classMappingOf (store.getObject reads store.bucket.name call.configObject) := by
  obtain ⟨call, hcall, hpath⟩ := hmodel
  rw [loadArtifacts_eq hpath] at h
  obtain ⟨data, hdata, hloaded⟩ := bind_eq_ok_iff.mp h
  obtain ⟨rfl, rfl⟩ := Prod.mk.inj (Except.ok.inj hloaded)
  rw [Store.getObject] at hdata
  split_ifs at hdata with hread
  rw [ObjectStore.getObject, store.weights id call hcall] at hdata
  exact ⟨call, hcall, (Except.ok.inj hdata).symm, hread, rfl⟩

/-! ### One step -/

/-- The call is in the `async with` block. -/
def Call.InBlock : Call → Prop
  | .locked _ _ | .loaded _ _ _ | .written _ _ => True
  | _ => False

/-- What an action does. -/
inductive Makes (store : Store) (s : State) : Action → State → Prop
  | promote {id model} (hregistered : store.Registered id model) :
      Makes store s (.promote id model) { s with active := some (id, model) }
  | start {p} : Makes store s (.start p) (s.goto p .started)
  | find {p reads id model} (hactive : s.active = some (id, model)) :
      Makes store s (.exec p reads) (s.goto p (.found id model))
  | acquire {p reads id model} (hcall : s.calls p = .found id model) (hlock : s.cacheLock = none) :
      Makes store s (.exec p reads) { s.goto p (.locked id model) with cacheLock := some p }
  | hit {p reads id} (hblock : (s.calls p).InBlock) :
      Makes store s (.exec p reads) (s.release p (.released id))
  | load {p reads id model weights mapping} (hcall : s.calls p = .locked id model)
      (hnew : s.detectorCache id = none)
      (hload : loadArtifacts (store.getObject reads) model = .ok (weights, mapping)) :
      Makes store s (.exec p reads) (s.goto p (.loaded id weights mapping))
  | write {p reads id weights mapping} (hcall : s.calls p = .loaded id weights mapping) :
      Makes store s (.exec p reads) { s.goto p (.written id mapping) with
        weightsFiles := Function.update s.weightsFiles id
          (some ((s.weightsFiles id).getD weights)) }
  | publish {p reads id weights mapping} (hcall : s.calls p = .written id mapping)
      (hfile : s.weightsFiles id = some weights) :
      Makes store s (.exec p reads) { s.release p (.released id) with
        detectorCache := Function.update s.detectorCache id
          (some { weights, mapping, modelId := id }) }
  | answer {p reads id detector} (hdetector : s.detectorCache id = some detector) :
      Makes store s (.exec p reads) (s.goto p (.returned id detector))
  /-- A call ends, inside the block or outside. -/
  | leave {a p} (hblock : (s.calls p).InBlock) : Makes store s a (s.release p .idle)
  | stop {a p} : Makes store s a (s.goto p .idle)

theorem exec_cases {s s' : State} {p : ℕ} {reads : String × String → Bool}
    (h : exec store s p reads (s.calls p) = some s') : Makes store s (.exec p reads) s' := by
  generalize hcall : s.calls p = call at h
  have hblock : call.InBlock → (s.calls p).InBlock := fun hin => hcall.symm ▸ hin
  cases call with
  | idle => cases h
  | returned id detector => cases h
  | started =>
    simp only [exec] at h
    split at h
    next => cases h; exact .stop
    next id model hactive => cases h; exact .find hactive
  | found id model =>
    simp only [exec] at h
    split at h
    next => cases h
    next hlock => cases h; exact .acquire hcall hlock
  | locked id model =>
    simp only [exec] at h
    split_ifs at h with hcached
    · cases h; exact .hit (hblock trivial)
    · split at h
      next => cases h; exact .leave (hblock trivial)
      next weights mapping hload =>
        have hnew : s.detectorCache id = none := by simpa using hcached
        cases h; exact .load hcall hnew hload
  | loaded id weights mapping => cases h; exact .write hcall
  | written id mapping =>
    simp only [exec] at h
    split at h
    next => cases h; exact .leave (hblock trivial)
    next weights hfile => cases h; exact .publish hcall hfile
  | released id =>
    simp only [exec] at h
    split at h
    next => cases h; exact .stop
    next detector hdetector => cases h; exact .answer hdetector

/-- The case analysis. -/
theorem step_cases {s s' : State} {a : Action} (h : step store s a = some s') :
    Makes store s a s' := by
  cases a with
  | promote id model =>
    simp only [step] at h
    split_ifs at h with hregistered
    cases h; exact .promote hregistered
  | start p =>
    simp only [step] at h
    split at h
    · cases h; exact .start
    · cases h; exact .start
    · cases h
  | exec p reads => exact exec_cases h
  | fail p =>
    simp only [step] at h
    generalize hcall : s.calls p = call at h
    have hblock : call.InBlock → (s.calls p).InBlock := fun hin => hcall.symm ▸ hin
    cases call with
    | idle => cases h
    | returned => cases h
    | locked => cases h; exact .leave (hblock trivial)
    | loaded => cases h; exact .leave (hblock trivial)
    | written => cases h; exact .leave (hblock trivial)
    | started => cases h; exact .stop
    | found => cases h; exact .stop
    | released => cases h; exact .stop

@[simp]
theorem State.calls_goto_self (s : State) (p : ℕ) (call : Call) : (s.goto p call).calls p = call :=
  Function.update_self ..

theorem State.calls_goto_of_ne {s : State} {p q : ℕ} {call : Call} (h : q ≠ p) :
    (s.goto p call).calls q = s.calls q :=
  Function.update_of_ne h ..

/-! ### The invariant -/

/-- What a call has at its stage. -/
def Call.Fits (store : Store) : Call → Prop
  | .found id model | .locked id model => store.Registered id model
  | .loaded id weights mapping =>
    ∃ call, store.calls id = some call ∧ weights = call.weights ∧ UsesMapping store call mapping
  | .written id mapping => ∃ call, store.calls id = some call ∧ UsesMapping store call mapping
  | .returned id detector => detector.Fits store id
  | .idle | .started | .released _ => True

/-- Files and detectors are those of their models. -/
structure Sound (store : Store) (s : State) : Prop where
  active : ∀ id model, s.active = some (id, model) → store.Registered id model
  weightsFiles : ∀ id call data, store.calls id = some call → s.weightsFiles id = some data →
    data = call.weights
  detectorCache : ∀ id detector, s.detectorCache id = some detector → detector.Fits store id
  calls : ∀ p, (s.calls p).Fits store

theorem fits_goto {s : State} {p : ℕ} {call : Call} (hs : ∀ q, (s.calls q).Fits store)
    (hcall : call.Fits store) (q : ℕ) : ((s.goto p call).calls q).Fits store := by
  by_cases hq : q = p
  · subst hq
    rw [State.calls_goto_self]
    exact hcall
  · rw [State.calls_goto_of_ne hq]
    exact hs q

/-- Only the calls change. -/
theorem Sound.goto {s : State} (hs : Sound store s) {p : ℕ} {call : Call}
    (hcall : call.Fits store) : Sound store (s.goto p call) :=
  ⟨hs.active, hs.weightsFiles, hs.detectorCache, fits_goto hs.calls hcall⟩

theorem Sound.release {s : State} (hs : Sound store s) {p : ℕ} {call : Call}
    (hcall : call.Fits store) : Sound store (s.release p call) :=
  ⟨hs.active, hs.weightsFiles, hs.detectorCache, fits_goto hs.calls hcall⟩

/-- The file of a model holds its weights: one that exists is not written again. -/
theorem Sound.write {s : State} (hs : Sound store s) {p : ℕ} {id : Uuid} {weights : ByteArray}
    {mapping : Json} (hcall : (Call.loaded id weights mapping).Fits store) :
    Sound store { s.goto p (.written id mapping) with
      weightsFiles := Function.update s.weightsFiles id
        (some ((s.weightsFiles id).getD weights)) } := by
  obtain ⟨registered, hregistered, hweights, hmapping⟩ := hcall
  refine ⟨hs.active, ?_, hs.detectorCache, fits_goto hs.calls ⟨registered, hregistered, hmapping⟩⟩
  intro id' call' data hcall' hdata
  by_cases hid : id' = id
  · subst hid
    obtain rfl : registered = call' := Option.some.inj (hregistered.symm.trans hcall')
    have hfile : (s.weightsFiles id').getD weights = data := by
      simpa [Function.update_self] using hdata
    cases hexists : s.weightsFiles id' with
    | none => rw [← hfile, hexists, Option.getD_none, hweights]
    | some file =>
      rw [← hfile, hexists, Option.getD_some]
      exact hs.weightsFiles id' registered file hregistered hexists
  · refine hs.weightsFiles id' call' data hcall' ?_
    simpa [Function.update_of_ne hid] using hdata

/-- The detector that goes into the dictionary is built from the file of its model. -/
theorem Sound.publish {s : State} (hs : Sound store s) {p : ℕ} {id : Uuid} {weights : ByteArray}
    {mapping : Json} (hcall : (Call.written id mapping).Fits store)
    (hfile : s.weightsFiles id = some weights) :
    Sound store { s.release p (.released id) with
      detectorCache := Function.update s.detectorCache id
        (some { weights, mapping, modelId := id }) } := by
  obtain ⟨registered, hregistered, hmapping⟩ := hcall
  refine ⟨hs.active, hs.weightsFiles, ?_, fits_goto hs.calls trivial⟩
  intro id' detector hdetector
  by_cases hid : id' = id
  · subst hid
    have hnew : some { weights, mapping, modelId := id' } = some detector := by
      simpa [Function.update_self] using hdetector
    rw [← Option.some.inj hnew]
    have hweights := hs.weightsFiles id' registered weights hregistered hfile
    exact ⟨rfl, registered, hregistered, hweights, hmapping⟩
  · refine hs.detectorCache id' detector ?_
    simpa [Function.update_of_ne hid] using hdetector

/-- An action keeps the invariant, if a load reads the config. -/
theorem sound_step {s s' : State} {a : Action} (hs : Sound store s) (hreads : ReadsConfig store s a)
    (hstep : step store s a = some s') : Sound store s' := by
  cases step_cases hstep with
  | promote hregistered =>
    refine ⟨?_, hs.weightsFiles, hs.detectorCache, hs.calls⟩
    intro id' model' hactive
    obtain ⟨rfl, rfl⟩ := Prod.mk.inj (Option.some.inj hactive)
    exact hregistered
  | start => exact hs.goto trivial
  | find hactive => exact hs.goto (hs.active _ _ hactive)
  | @acquire p _ id model hcall hlock =>
    have hfits : (Call.locked id model).Fits store := by
      have := hs.calls p
      rwa [hcall] at this
    exact ⟨hs.active, hs.weightsFiles, hs.detectorCache, fits_goto hs.calls hfits⟩
  | hit => exact hs.release trivial
  | @load p reads id model weights mapping hcall hnew hload =>
    have hfits : store.Registered id model := by
      have := hs.calls p
      rwa [hcall] at this
    -- here a failed read would give the model the mapping of no config
    simp only [ReadsConfig, hcall] at hreads
    obtain ⟨registered, hregistered, hweights, hread, rfl⟩ := loadArtifacts_ok hfits hload
    refine hs.goto ⟨registered, hregistered, hweights, ?_⟩
    refine usesMapping_classMappingOf hregistered fun hconfig hne => ?_
    exact hreads hnew registered hregistered hconfig hne hread
  | @write p _ _ _ _ hcall => exact hs.write (hcall ▸ hs.calls p)
  | @publish p _ _ _ _ hcall hfile => exact hs.publish (hcall ▸ hs.calls p) hfile
  | answer hdetector => exact hs.goto (hs.detectorCache _ _ hdetector)
  | leave => exact hs.release trivial
  | stop => exact hs.goto trivial

/-- A model with a class of its own. -/
def potholeModel : RegisterCall :=
  { challenger with
    version := "v2"
    classMapping := .ofItems [("D40", "POTHOLE")]
    versionLength := by decide }

/-- The call is about to put a detector of the model into the dictionary. -/
def Call.Loads (id : Uuid) : Call → Prop
  | .loaded id' _ _ | .written id' _ => id' = id
  | _ => False

theorem Call.Loads.inBlock {id : Uuid} {call : Call} (h : call.Loads id) : call.InBlock := by
  cases call with
  | loaded => trivial
  | written => trivial
  | _ => exact h.elim

theorem not_inBlock_idle : ¬ Call.idle.InBlock := fun h => h

theorem not_inBlock_released (id : Uuid) : ¬ (Call.released id).InBlock := fun h => h

/-- The lock is held by the call in the block, and what is loaded is not in the dictionary. -/
structure Exclusive (s : State) : Prop where
  held : ∀ p, (s.calls p).InBlock → s.cacheLock = some p
  loads : ∀ p id, (s.calls p).Loads id → s.detectorCache id = none

theorem Exclusive.eq_of_inBlock {s : State} (hs : Exclusive s) {p q : ℕ}
    (hp : (s.calls p).InBlock) (hq : (s.calls q).InBlock) : q = p :=
  Option.some.inj ((hs.held q hq).symm.trans (hs.held p hp))

theorem Exclusive.goto {s : State} (hs : Exclusive s) {p : ℕ} {call : Call}
    (hblock : call.InBlock → (s.calls p).InBlock)
    (hloads : ∀ id, call.Loads id → s.detectorCache id = none) : Exclusive (s.goto p call) := by
  constructor
  · intro q hq
    by_cases hqp : q = p
    · subst hqp
      rw [State.calls_goto_self] at hq
      exact hs.held q (hblock hq)
    · rw [State.calls_goto_of_ne hqp] at hq
      exact hs.held q hq
  · intro q id hq
    by_cases hqp : q = p
    · subst hqp
      rw [State.calls_goto_self] at hq
      exact hloads id hq
    · rw [State.calls_goto_of_ne hqp] at hq
      exact hs.loads q id hq

/-- Whoever leaves the block was alone in it. -/
theorem Exclusive.release {s s' : State} (hs : Exclusive s) {p : ℕ} {call : Call}
    (hp : (s.calls p).InBlock) (hcall : ¬ call.InBlock)
    (hcalls : s'.calls = (s.goto p call).calls) : Exclusive s' := by
  have hnobody : ∀ q, ¬ (s'.calls q).InBlock := by
    intro q hq
    rw [hcalls] at hq
    by_cases hqp : q = p
    · subst hqp
      rw [State.calls_goto_self] at hq
      exact hcall hq
    · rw [State.calls_goto_of_ne hqp] at hq
      exact hqp (hs.eq_of_inBlock hp hq)
  exact ⟨fun q hq => absurd hq (hnobody q), fun q id hq => absurd hq.inBlock (hnobody q)⟩

/-- Whoever enters the block finds it empty. -/
theorem Exclusive.acquire {s : State} (hs : Exclusive s) {p : ℕ} {id : Uuid} {model : AiModel}
    (hlock : s.cacheLock = none) :
    Exclusive { s.goto p (.locked id model) with cacheLock := some p } := by
  have hnobody : ∀ q, ¬ (s.calls q).InBlock := by
    intro q hq
    rw [hs.held q hq] at hlock
    cases hlock
  have hothers : ∀ q, q ≠ p → ¬ ((s.goto p (.locked id model)).calls q).InBlock := by
    intro q hqp
    rw [State.calls_goto_of_ne hqp]
    exact hnobody q
  constructor
  · intro q hq
    by_cases hqp : q = p
    · rw [hqp]
    · exact absurd hq (hothers q hqp)
  · intro q id' hq
    by_cases hqp : q = p
    · subst hqp
      have hloads : ((s.goto q (.locked id model)).calls q).Loads id' := hq
      rw [State.calls_goto_self] at hloads
      exact hloads.elim
    · exact absurd hq.inBlock (hothers q hqp)

theorem exclusive_step {s s' : State} {a : Action} (hs : Exclusive s)
    (hstep : step store s a = some s') : Exclusive s' := by
  cases step_cases hstep with
  | promote => exact ⟨hs.held, hs.loads⟩
  | start => exact hs.goto False.elim fun _ => False.elim
  | find => exact hs.goto False.elim fun _ => False.elim
  | acquire _ hlock => exact hs.acquire hlock
  | hit hblock => exact hs.release hblock (not_inBlock_released _) rfl
  | @load p _ id model _ _ hcall hnew =>
    have hblock : (s.calls p).InBlock := by rw [hcall]; trivial
    exact hs.goto (fun _ => hblock) (by rintro id' rfl; exact hnew)
  | @write p _ id weights mapping hcall =>
    have hblock : (s.calls p).InBlock := by rw [hcall]; trivial
    have hnone : s.detectorCache id = none := hs.loads p id (by rw [hcall]; rfl)
    have hgoto : Exclusive (s.goto p (.written id mapping)) :=
      hs.goto (fun _ => hblock) (by rintro id' rfl; exact hnone)
    exact ⟨hgoto.held, hgoto.loads⟩
  | @publish p _ id _ mapping hcall =>
    have hblock : (s.calls p).InBlock := by rw [hcall]; trivial
    exact hs.release hblock (not_inBlock_released id) rfl
  | answer => exact hs.goto False.elim fun _ => False.elim
  | leave hblock => exact hs.release hblock not_inBlock_idle rfl
  | stop => exact hs.goto False.elim fun _ => False.elim

/-- Nothing takes a detector out of the dictionary. -/
theorem detectorCache_step {s s' : State} {a : Action} (hs : Exclusive s)
    (hstep : step store s a = some s') {id : Uuid} {detector : Detector}
    (hdetector : s.detectorCache id = some detector) : s'.detectorCache id = some detector := by
  cases step_cases hstep with
  | @publish p _ id' _ mapping hcall =>
    -- the entry that is written was absent
    have hnone : s.detectorCache id' = none := hs.loads p id' (by rw [hcall]; rfl)
    have hne : id ≠ id' := by
      rintro rfl
      rw [hnone] at hdetector
      cases hdetector
    exact (Function.update_of_ne hne ..).trans hdetector
  | _ => exact hdetector

theorem invariant_exclusive : (worker store).Invariant Exclusive where
  init s hs := by
    constructor
    · intro p hp
      rw [hs.calls p] at hp
      exact hp.elim
    · intro p id hp
      rw [hs.calls p] at hp
      exact hp.elim
  step _ _ _ hs hstep := exclusive_step hs hstep

/-- What a process has loaded it keeps, a detector without its mapping too. -/
theorem detectorCache_of_leads {s t : State} (hs : (worker store).Reachable s)
    (h : (worker store).Leads s t) {id : Uuid} {detector : Detector}
    (hdetector : s.detectorCache id = some detector) : t.detectorCache id = some detector :=
  invariant_exclusive.rel_of_leads
    (R := fun s t => ∀ id detector, s.detectorCache id = some detector →
      t.detectorCache id = some detector)
    (fun _ _ _ hd => hd) (fun _ _ _ hst htu id detector hd => htu id detector (hst id detector hd))
    (fun _ _ _ hs hstep _ _ hd => detectorCache_step hs hstep hd) (invariant_exclusive.holds hs) h
    id detector hdetector

end RoadVisionAI.DetectorCache
