import RoadVisionAI.Detection.Equiv.SingleProduction
import RoadVisionAI.Python.Equiv.Dumps

/-!
# The artifacts of a model

`load_artifacts` finds the two objects `register` has stored (`loadArtifacts_eq`), and reads the
class mapping back out of the config (`classMappingOf_modelConfig`).  But two names and versions may
be joined to one path, and the objects are stored before the name and version are reserved, so an
object may have been overwritten: `roundTrip_iff_clean` says which histories keep every model's
artifacts.
-/

namespace RoadVisionAI.ModelRegistry

open Python Db Transition

variable {bucket : Bucket} {db : Database} {p q : ℕ} {input : Input}

/-! ### Loading what was stored -/

/-- `weights_path`. -/
def RegisterCall.weightsPath (bucket : Bucket) (call : RegisterCall) : String :=
  bucket.name ++ "/" ++ call.weightsObject

theorem loadArtifacts_eq {getObject : String → String → Except PyException ByteArray}
    {model : AiModel} {call : RegisterCall}
    (hpath : model.weightsPath = some (call.weightsPath bucket)) :
    loadArtifacts getObject model = (do
      let weights ← getObject bucket.name call.weightsObject
      return (weights, classMappingOf (getObject bucket.name call.configObject))) := by
  have hne : call.weightsPath bucket ≠ "" := by
    intro heq
    have hlength := congrArg String.length heq
    simp [RegisterCall.weightsPath] at hlength
  have hbucket : partitionAt '/' (call.weightsPath bucket) = (bucket.name, call.weightsObject) :=
    partitionAt_append bucket.noSlash call.weightsObject
  have hfolder : rsplitHead '/' call.weightsObject = call.folder := by
    have hsplit : call.weightsObject = call.folder ++ String.singleton '/' ++ "best.pt" := by
      rw [String.append_assoc]
      rfl
    rw [hsplit]
    exact rsplitHead_append (by decide) call.folder
  simp only [loadArtifacts, hpath, Option.getD_some, if_neg hne, hbucket, hfolder]
  rfl

/-- The members of the config. -/
theorem encodes_modelConfig (classMapping : Dict String String) (registeredAt : String) :
    Encodes recursionLimit
      (dumpsObject 0 [("class_mapping",
        dumpsObject 1 (classMapping.entries.map fun item => (item.1, dumpsString item.2))),
        ("registered_at", dumpsString registeredAt)])
      (.obj [("class_mapping", .obj (classMapping.entries.map fun item => (item.1, .str item.2))),
        ("registered_at", .str registeredAt)]) := by
  let items : List Member := classMapping.entries.map fun item =>
    { key := item.1, value := .str item.2, text := dumpsString item.2 }
  have hmapping : Encodes (recursionLimit - 1)
      (dumpsObject 1 (classMapping.entries.map fun item => (item.1, dumpsString item.2)))
      (.obj (classMapping.entries.map fun item => (item.1, .str item.2))) := by
    have hencodes : ∀ m ∈ items, Encodes (recursionLimit - 2) m.text m.value := by
      intro m hm
      obtain ⟨item, -, rfl⟩ := List.mem_map.mp hm
      exact encodes_dumpsString _ item.2
    have hkeys : (items.map Member.key).Nodup := by
      rw [List.map_map]
      exact classMapping.nodupKeys
    have htexts : Member.texts items
        = classMapping.entries.map fun item => (item.1, dumpsString item.2) := by
      simp [items, Member.texts]
    have hfields : Member.fields items
        = classMapping.entries.map fun item => (item.1, .str item.2) := by
      simp [items, Member.fields]
    rw [← htexts, ← hfields]
    exact encodes_dumpsObject 1 hencodes hkeys
  let members : List Member :=
    [{ key := "class_mapping"
       value := .obj (classMapping.entries.map fun item => (item.1, .str item.2))
       text := dumpsObject 1 (classMapping.entries.map fun item => (item.1, dumpsString item.2)) },
     { key := "registered_at", value := .str registeredAt, text := dumpsString registeredAt }]
  have hencodes : ∀ m ∈ members, Encodes (recursionLimit - 1) m.text m.value := by
    intro m hm
    rcases List.mem_cons.mp hm with rfl | hm
    · exact hmapping
    · obtain rfl := List.mem_singleton.mp hm
      exact encodes_dumpsString _ registeredAt
  exact encodes_dumpsObject 0 hencodes (by simp [members])

/-- The mapping is read back. -/
theorem classMappingOf_modelConfig (classMapping : Dict String String) (registeredAt : String) :
    classMappingOf (.ok (modelConfig classMapping registeredAt))
      = .obj (classMapping.entries.map fun item => (item.1, .str item.2)) := by
  have hload : loadBytes (modelConfig classMapping registeredAt)
      = .ok (.obj [("class_mapping",
          .obj (classMapping.entries.map fun item => (item.1, .str item.2))),
          ("registered_at", .str registeredAt)]) := by
    rw [modelConfig]
    exact loadBytes_of_encodes (encodes_modelConfig classMapping registeredAt)
  simp only [classMappingOf, bind, Except.bind, hload]
  rfl

/-! ### Object names -/

theorem weightsObject_eq_iff {call call' : RegisterCall} :
    call.weightsObject = call'.weightsObject ↔ call.folder = call'.folder :=
  String.append_left_inj _

theorem configObject_eq_iff {call call' : RegisterCall} :
    call.configObject = call'.configObject ↔ call.folder = call'.folder :=
  String.append_left_inj _

theorem weightsObject_ne_configObject (call call' : RegisterCall) :
    call.weightsObject ≠ call'.configObject := by
  intro heq
  have hlast := congrArg (fun s : String => s.toList.getLast?) heq
  simp [RegisterCall.weightsObject, RegisterCall.configObject] at hlast

/-! ### What the statement is about -/

/-- Two mappings are equal, as Python compares dictionaries. -/
def SameMapping (mapping mapping' : Dict String String) : Prop :=
  ∀ key, mapping.get? key = mapping'.get? key

/-- The value is the dictionary, up to the order of its items. -/
def IsMapping (v : Json) (mapping : Dict String String) : Prop :=
  ∃ fields, v = .obj fields ∧ ∀ key, fields.lookup key = (mapping.get? key).map .str

/-- Every committed model loads what was passed to the call it comes from. -/
def RoundTrip (s : State) : Prop :=
  ∀ id model, s.db.models.committed id = some model →
    ∃ call, s.created id = some call ∧ ∃ v,
      loadArtifacts s.db.objects.getObject model = .ok (call.weights, v) ∧
        IsMapping v call.classMapping

/-- The objects of the call hold its weights and its mapping. -/
def Stored (bucket : Bucket) (objects : ObjectStore) (call : RegisterCall) : Prop :=
  objects (bucket.name, call.weightsObject) = some call.weights ∧
    ∃ mapping registeredAt, objects (bucket.name, call.configObject)
      = some (modelConfig mapping registeredAt) ∧ SameMapping mapping call.classMapping

/-- An upload leaves the objects of the committed models as they are, and when a call commits, its
own objects are still as it has stored them. -/
def Proc.Clean (bucket : Bucket) (s : State) : Proc → Prop
  | .register call .checked => ∀ id model call', s.db.models.committed id = some model →
      s.created id = some call' → call'.folder = call.folder → call'.weights = call.weights
  | .register call .weightsStored => ∀ id model call', s.db.models.committed id = some model →
      s.created id = some call' → call'.folder = call.folder →
      SameMapping call.classMapping call'.classMapping
  | .register call (.inserted _) => Stored bucket s.db.objects call
  | _ => True

/-- The statement an action makes is clean. -/
def Clean (bucket : Bucket) (s : State) : Action → Prop
  | .exec p _ => (s.procs p).Clean bucket s
  | _ => True

/-! ### Configs -/

theorem isMapping_iff {mapping mapping' : Dict String String} :
    IsMapping (.obj (mapping.entries.map fun item => (item.1, .str item.2))) mapping'
      ↔ SameMapping mapping mapping' := by
  have hlookup : ∀ key,
      (mapping.entries.map fun item => (item.1, Json.str item.2)).lookup key
        = (mapping.get? key).map .str := fun key => lookup_map_values Json.str key mapping.entries
  constructor
  · rintro ⟨fields, hfields, hkeys⟩ key
    rw [← Json.obj.inj hfields] at hkeys
    have hkey := (hlookup key).symm.trans (hkeys key)
    exact Option.map_injective (fun _ _ => Json.str.inj) hkey
  · intro hsame
    exact ⟨_, rfl, fun key => by rw [hlookup, hsame key]⟩

/-- The config determines the mapping. -/
theorem sameMapping_of_modelConfig_eq {mapping mapping' : Dict String String}
    {registeredAt registeredAt' : String}
    (h : modelConfig mapping registeredAt = modelConfig mapping' registeredAt') :
    SameMapping mapping mapping' := by
  have hread := classMappingOf_modelConfig mapping registeredAt
  rw [h, classMappingOf_modelConfig] at hread
  rw [← isMapping_iff, ← hread, isMapping_iff]
  exact fun _ => rfl

/-! ### The invariant -/

/-- What a process has stored and holds at its stage. -/
def Proc.Files (bucket : Bucket) (s : State) (p : ℕ) : Proc → Prop
  | .register call (.inserted id) =>
    s.created id = some call ∧ (∃ row, s.db.models.Holds p id row) ∧
      ∀ k row, s.db.models.Holds p k row → k = id
  | .register call .configStored =>
    (∀ k row, ¬ s.db.models.Holds p k row) ∧
      (s.db.objects (bucket.name, call.configObject)).isSome
  | .promote _ _ => ∀ k row, s.db.models.Holds p k row → (s.db.models.committed k).isSome
  | _ => ∀ k row, ¬ s.db.models.Holds p k row

/-- Every version of a row has the path of the call it comes from, whose config is stored; what is
stored as a config is one. -/
structure Filed (bucket : Bucket) (s : State) : Prop where
  versions : LockedTable.EveryVersion (fun id row => ∃ call, s.created id = some call ∧
    row.weightsPath = some (call.weightsPath bucket) ∧
    (s.db.objects (bucket.name, call.configObject)).isSome) s.db.models
  configs : ∀ (call : RegisterCall) data, s.db.objects (bucket.name, call.configObject) = some data →
    ∃ mapping registeredAt, data = modelConfig mapping registeredAt
  procs : ∀ p, (s.procs p).Files bucket s p

/-- A process keeps what it holds and what is stored while the others go on. -/
theorem Proc.Files.frame {s s' : State} {proc : Proc} (h : proc.Files bucket s q)
    (hholds : ∀ k row, s'.db.models.Holds q k row ↔ s.db.models.Holds q k row)
    (hcommitted : ∀ k, (s.db.models.committed k).isSome → (s'.db.models.committed k).isSome)
    (hobjects : ∀ key, (s.db.objects key).isSome → (s'.db.objects key).isSome)
    (hcreated : ∀ k row, s.db.models.Holds q k row → s'.created k = s.created k) :
    proc.Files bucket s' q := by
  unfold Proc.Files at h ⊢
  split at h
  · obtain ⟨hcall, ⟨row, hrow⟩, honly⟩ := h
    refine ⟨(hcreated _ row hrow).trans hcall, ⟨row, (hholds _ row).mpr hrow⟩, ?_⟩
    exact fun k row' hrow' => honly k row' ((hholds k row').mp hrow')
  · exact ⟨fun k row hrow => h.1 k row ((hholds k row).mp hrow), hobjects _ h.2⟩
  · exact fun k row hrow => hcommitted k (h k row ((hholds k row).mp hrow))
  · exact fun k row hrow => h k row ((hholds k row).mp hrow)

/-- A commit removes no row. -/
theorem isSome_committed_commit {models : LockedTable Uuid AiModel} {k : Uuid}
    (h : (models.committed k).isSome) : ((models.commit p).committed k).isSome := by
  by_cases hheld : ∃ row, models.Holds p k row
  · obtain ⟨row, hrow⟩ := hheld
    rw [LockedTable.committed_commit_of_holds hrow]
    rfl
  · rwa [LockedTable.committed_commit_of_not_holds fun row hrow => hheld ⟨row, hrow⟩]

/-! ### One step -/

theorem Proc.Reads.files {s : State} {proc proc' : Proc} (hreads : proc.Reads s.db p input proc')
    (h : proc.Files bucket s p) : proc'.Files bucket s p := by
  cases hreads with
  | check => exact h
  | find => exact h
  | select => exact h
  | skip => exact h

/-- A row a promotion sees is committed: it writes no other. -/
theorem isSome_committed_of_visible {models : LockedTable Uuid AiModel} {id : Uuid} {row : AiModel}
    (h : ∀ k row, models.Holds p k row → (models.committed k).isSome)
    (hrow : (models.slots id).visible p = some row) : (models.committed id).isSome := by
  rcases Slot.visible_cases hrow with hheld | ⟨hcommitted, -⟩
  · exact h id row hheld
  · rw [LockedTable.committed, hcommitted]
    rfl

theorem isSome_committed_write {models : LockedTable Uuid AiModel} {id : Uuid} {row row' : AiModel}
    (h : ∀ k row, models.Holds p k row → (models.committed k).isSome)
    (hrow : (models.slots id).visible p = some row) (k : Uuid) (held : AiModel)
    (hheld : (models.write p id row').Holds p k held) :
    ((models.write p id row').committed k).isSome := by
  rw [LockedTable.committed_write]
  by_cases hk : k = id
  · exact hk ▸ isSome_committed_of_visible h hrow
  · exact h k held ((LockedTable.holds_write_of_ne hk).mp hheld)

/-- The objects after an upload. -/
theorem isSome_putObject {objects : ObjectStore} {key key' : String × String} {data : ByteArray}
    (h : (objects key).isSome) : (Function.update objects key' (some data) key).isSome := by
  by_cases hkey : key = key'
  · rw [hkey, Function.update_self]
    rfl
  · rwa [Function.update_of_ne hkey]

/-- The state after a statement that puts nothing on record. -/
theorem filed_after {s : State} {effect : Effect} {proc' : Proc} (hs : Filed bucket s)
    (hversions : LockedTable.EveryVersion (fun id row => ∃ call, s.created id = some call ∧
      row.weightsPath = some (call.weightsPath bucket) ∧
      ((effect.apply p s.db).objects (bucket.name, call.configObject)).isSome)
      (effect.apply p s.db).models)
    (hconfigs : ∀ (call : RegisterCall) data,
      (effect.apply p s.db).objects (bucket.name, call.configObject) = some data →
        ∃ mapping registeredAt, data = modelConfig mapping registeredAt)
    (hself : proc'.Files bucket (s.after p effect proc') p)
    (hholds : ∀ q k row, q ≠ p →
      ((effect.apply p s.db).models.Holds q k row ↔ s.db.models.Holds q k row))
    (hcommitted : ∀ k, (s.db.models.committed k).isSome →
      ((effect.apply p s.db).models.committed k).isSome)
    (hobjects : ∀ key, (s.db.objects key).isSome → ((effect.apply p s.db).objects key).isSome) :
    Filed bucket (s.after p effect proc') := by
  refine ⟨hversions, hconfigs, State.forall_procs_after
    (P := fun q proc => proc.Files bucket (s.after p effect proc') q) hself fun q hq => ?_⟩
  exact (hs.procs q).frame (fun k row => hholds q k row hq) hcommitted hobjects fun _ _ _ => rfl

theorem filed_rollback {s : State} (hs : Filed bucket s) (p : ℕ) :
    Filed bucket (s.after p .rollback .idle) := by
  refine filed_after hs (hs.versions.rollback p) hs.configs ?_ ?_ (fun _ h => h) fun _ h => h
  · exact fun k row hrow => (LockedTable.holds_rollback.mp hrow).2 rfl
  · intro q k row hq
    exact LockedTable.holds_rollback.trans (and_iff_left hq)

theorem filed_commit {s : State} (hs : Filed bucket s) (p : ℕ) (auditLog : AuditLog) :
    Filed bucket (s.after p (.commit auditLog) .idle) := by
  refine filed_after hs (hs.versions.commit p) hs.configs ?_ ?_ (fun _ => isSome_committed_commit)
    fun _ h => h
  · exact fun k row hrow => (LockedTable.holds_commit.mp hrow).2 rfl
  · intro q k row hq
    exact LockedTable.holds_commit.trans (and_iff_left hq)

theorem filed_putObject {s : State} {proc proc' : Proc} {objectName : String} {data : ByteArray}
    (hs : Filed bucket s) (hputs : proc.Puts input objectName data proc')
    (hproc : proc.Files bucket s p) :
    Filed bucket (s.after p (.putObject bucket.name objectName data) proc') := by
  refine filed_after hs ?_ ?_ ?_ (fun _ _ _ _ => Iff.rfl) (fun _ h => h)
    fun _ h => isSome_putObject h
  · refine hs.versions.imp ?_
    rintro k - row ⟨call, hcall, hpath, hconfig⟩
    exact ⟨call, hcall, hpath, isSome_putObject hconfig⟩
  · intro call' data' hdata
    -- under another name than the new object's there is what there was
    have hold : ∀ name, (bucket.name, call'.configObject) ≠ (bucket.name, name) →
        Function.update s.db.objects (bucket.name, name) (some data)
          (bucket.name, call'.configObject) = some data' →
        ∃ mapping registeredAt, data' = modelConfig mapping registeredAt := by
      intro name hne hupdate
      rw [Function.update_of_ne hne] at hupdate
      exact hs.configs call' data' hupdate
    cases hputs with
    | @weights call =>
      refine hold call.weightsObject (fun heq => ?_) hdata
      exact weightsObject_ne_configObject call call' (Prod.mk.inj heq).2.symm
    | @config call =>
      by_cases heq : (bucket.name, call'.configObject) = (bucket.name, call.configObject)
      · have hnew : Function.update s.db.objects (bucket.name, call.configObject)
            (some (modelConfig call.classMapping input.isoformat))
            (bucket.name, call'.configObject) = some data' := hdata
        rw [heq, Function.update_self] at hnew
        exact ⟨_, _, (Option.some.inj hnew).symm⟩
      · exact hold call.configObject heq hdata
  · cases hputs with
    | weights => exact hproc
    | config =>
      refine ⟨hproc, ?_⟩
      rw [Option.isSome_iff_exists]
      exact ⟨_, Function.update_self ..⟩

/-- A row that is written over keeps its path. -/
theorem filed_overwrite {s : State} {proc' : Proc} {call : PromoteCall} {id : Uuid}
    {row row' : AiModel} {stage : PromoteStage} (hs : Filed bucket s)
    (hfree : (s.db.models.slots id).Free p)
    (hproc : ∀ k row, s.db.models.Holds p k row → (s.db.models.committed k).isSome)
    (hrow : (s.db.models.slots id).visible p = some row)
    (hpath : row'.weightsPath = row.weightsPath)
    (hproc' : proc' = .promote call stage) :
    Filed bucket (s.after p (.write (s.db.models.write p id row')) proc') := by
  refine filed_after hs ?_ hs.configs ?_ ?_ (fun k h => ?_) fun _ h => h
  · refine hs.versions.write ?_
    obtain ⟨call, hcall, hold, hconfig⟩ := hs.versions.visible hrow
    exact ⟨call, hcall, hpath.trans hold, hconfig⟩
  · rw [hproc']
    exact isSome_committed_write hproc hrow
  · intro q k row hq
    exact LockedTable.holds_write_of_holder_ne hq hfree
  · show ((s.db.models.write p id row').committed k).isSome
    rwa [LockedTable.committed_write]

/-- A new row goes on record with its call. -/
theorem filed_insert {s : State} {call : RegisterCall} (hs : Filed bucket s)
    (hid : input.id ∉ s.db.models.keys)
    (hproc : (Proc.register call .configStored).Files bucket s p) :
    Filed bucket ((s.after p (.write (s.db.models.write p input.id (call.row bucket input.now)))
      (.register call (.inserted input.id))).record (some (input.id, call))) := by
  have hne : ∀ k ∈ s.db.models.keys, k ≠ input.id := fun k hk heq => hid (heq ▸ hk)
  have hfree : (s.db.models.slots input.id).Free p := LockedTable.free_of_not_mem_keys hid
  have hcreated : ∀ k ∈ s.db.models.keys,
      Function.update s.created input.id (some call) k = s.created k :=
    fun k hk => Function.update_of_ne (hne k hk) ..
  -- the other rows keep the calls they have on record
  refine ⟨?_, hs.configs, fun q => ?_⟩
  · refine LockedTable.EveryVersion.write ?_ ⟨call, Function.update_self .., rfl, hproc.2⟩
    refine hs.versions.imp ?_
    rintro k hk row ⟨call', hcall', hrest⟩
    exact ⟨call', (hcreated k hk).trans hcall', hrest⟩
  · rw [State.procs_record]
    by_cases hq : q = p
    · -- the process itself now holds the new row, and no other
      subst hq
      rw [State.procs_after_self]
      refine ⟨Function.update_self .., ⟨_, LockedTable.holds_write_self⟩, fun k row hrow => ?_⟩
      by_contra hk
      exact hproc.1 k row ((LockedTable.holds_write_of_ne hk).mp hrow)
    · rw [State.procs_after_of_ne hq]
      refine (hs.procs q).frame (fun k row => LockedTable.holds_write_of_holder_ne hq hfree)
        (fun k h => ?_) (fun _ h => h) fun k row hrow => ?_
      · show ((s.db.models.write p input.id (call.row bucket input.now)).committed k).isSome
        rwa [LockedTable.committed_write]
      · exact hcreated k (LockedTable.mem_keys_of_pending hrow)

theorem filed_empty : Filed bucket State.empty where
  versions := LockedTable.EveryVersion.empty
  configs _ _ h := nomatch h
  procs _ _ _ h := nomatch h

theorem filed_step {s s' : State} {a : Action} (hs : Filed bucket s)
    (hstep : step bucket s a = some s') : Filed bucket s' := by
  rcases step_cases hstep with ⟨p, request, rfl, hidle, rfl⟩ |
    ⟨p, input, effect, proc', rfl, hmakes, rfl⟩ | ⟨p, rfl, rfl⟩
  · refine filed_after hs hs.versions hs.configs ?_ (fun _ _ _ _ => Iff.rfl) (fun _ h => h)
      fun _ h => h
    have hnone : ∀ k row, ¬ s.db.models.Holds p k row := by
      have := hs.procs p
      rwa [hidle] at this
    cases request with
    | register call => exact hnone
    | promote call => exact fun k row hrow => absurd hrow (hnone k row)
  · have hproc := hs.procs p
    generalize s.procs p = proc at hmakes hproc
    cases hmakes with
    | read hreads =>
      rw [hreads.creates]
      exact filed_after hs hs.versions hs.configs (hreads.files hproc) (fun _ _ _ _ => Iff.rfl)
        (fun _ h => h) fun _ h => h
    | refuse hrefuses =>
      rw [hrefuses.creates]
      exact filed_rollback hs p
    | put hputs =>
      rw [hputs.creates]
      exact filed_putObject hs hputs hproc
    | write hfree hwrites =>
      cases hwrites with
      | insert _ hid _ => exact filed_insert hs hid hproc
      | retire hrow => exact filed_overwrite hs hfree hproc hrow rfl rfl
      | activate hrow => exact filed_overwrite hs hfree hproc hrow rfl rfl
    | commit hcommits =>
      rw [hcommits.creates]
      exact filed_commit hs p _
  · exact filed_rollback hs p

theorem invariant_filed : (registry bucket).Invariant (Filed bucket) where
  init _ hs := hs ▸ filed_empty
  step _ _ _ hs hstep := filed_step hs hstep

/-! ### Which histories keep the artifacts -/

/-- A model loads what its call was given exactly when the objects hold it. -/
theorem loads_iff_stored {objects : ObjectStore} {model : AiModel} {call : RegisterCall}
    (hpath : model.weightsPath = some (call.weightsPath bucket))
    (hconfig : ∃ mapping registeredAt, objects (bucket.name, call.configObject)
      = some (modelConfig mapping registeredAt)) :
    (∃ v, loadArtifacts objects.getObject model = .ok (call.weights, v) ∧
        IsMapping v call.classMapping) ↔ Stored bucket objects call := by
  obtain ⟨mapping, registeredAt, hmapping⟩ := hconfig
  have hget : objects.getObject bucket.name call.configObject
      = .ok (modelConfig mapping registeredAt) := by
    rw [ObjectStore.getObject, hmapping]
  -- a config determines its mapping, so `Stored` speaks of this one
  have hsame : (∃ mapping' registeredAt', objects (bucket.name, call.configObject)
      = some (modelConfig mapping' registeredAt') ∧ SameMapping mapping' call.classMapping)
      ↔ SameMapping mapping call.classMapping := by
    constructor
    · rintro ⟨mapping', registeredAt', hmapping', hsame⟩
      have heq := sameMapping_of_modelConfig_eq (Option.some.inj (hmapping.symm.trans hmapping'))
      exact fun key => (heq key).trans (hsame key)
    · exact fun hsame => ⟨mapping, registeredAt, hmapping, hsame⟩
  rw [Stored, hsame, loadArtifacts_eq hpath, hget, classMappingOf_modelConfig,
    ObjectStore.getObject]
  cases hweights : objects (bucket.name, call.weightsObject) with
  | none => simp [bind, Except.bind]
  | some data =>
    simp only [bind, Except.bind, pure, Except.pure, Except.ok.injEq, Prod.mk.injEq,
      Option.some.injEq, and_assoc, exists_and_left]
    refine and_congr_right fun _ => ?_
    rw [exists_eq_left', isMapping_iff]

theorem roundTrip_iff_stored {s : State} (hs : Filed bucket s) :
    RoundTrip s ↔ ∀ id call, (s.db.models.committed id).isSome → s.created id = some call →
      Stored bucket s.db.objects call := by
  have hloads : ∀ id model call, s.db.models.committed id = some model →
      s.created id = some call →
      ((∃ v, loadArtifacts s.db.objects.getObject model = .ok (call.weights, v) ∧
        IsMapping v call.classMapping) ↔ Stored bucket s.db.objects call) := by
    intro id model call hmodel hcall
    obtain ⟨call', hcall', hpath, hconfig⟩ := hs.versions id model (Or.inl hmodel)
    obtain rfl : call = call' := Option.some.inj (hcall.symm.trans hcall')
    obtain ⟨data, hdata⟩ := Option.isSome_iff_exists.mp hconfig
    obtain ⟨mapping, registeredAt, rfl⟩ := hs.configs call data hdata
    exact loads_iff_stored hpath ⟨mapping, registeredAt, hdata⟩
  constructor
  · intro h id call hid hcall
    obtain ⟨model, hmodel⟩ := Option.isSome_iff_exists.mp hid
    obtain ⟨call', hcall', hload⟩ := h id model hmodel
    obtain rfl : call = call' := Option.some.inj (hcall.symm.trans hcall')
    exact (hloads id model call hmodel hcall).mp hload
  · intro h id model hmodel
    obtain ⟨call, hcall, -⟩ := hs.versions id model (Or.inl hmodel)
    have hid : (s.db.models.committed id).isSome := by rw [hmodel]; rfl
    exact ⟨call, hcall, (hloads id model call hmodel hcall).mpr (h id call hid hcall)⟩

/-- An action leaves the objects and the committed models there are, or is an upload, or commits a
new model. -/
theorem artifacts_step_cases {s s' : State} {a : Action} (hs : Filed bucket s)
    (hstep : step bucket s a = some s') :
    ((∀ id, (s'.db.models.committed id).isSome ↔ (s.db.models.committed id).isSome) ∧
        (∀ id, (s.db.models.committed id).isSome → s'.created id = s.created id) ∧
        s'.db.objects = s.db.objects ∧ Clean bucket s a) ∨
      (∃ p input objectName data proc', a = .exec p input ∧
        (s.procs p).Puts input objectName data proc' ∧
        s' = s.after p (.putObject bucket.name objectName data) proc') ∨
      (∃ p input call id auditLog, a = .exec p input ∧ s.procs p = .register call (.inserted id) ∧
        s' = s.after p (.commit auditLog) .idle) := by
  rcases step_cases hstep with ⟨p, request, rfl, hidle, rfl⟩ |
    ⟨p, input, effect, proc', rfl, hmakes, rfl⟩ | ⟨p, rfl, rfl⟩
  · exact Or.inl ⟨fun _ => Iff.rfl, fun _ _ => rfl, rfl, trivial⟩
  · have hclean : Clean bucket s (.exec p input) ↔ (s.procs p).Clean bucket s := Iff.rfl
    have hfiles := hs.procs p
    rw [hclean]
    generalize hproc : s.procs p = proc at hmakes hfiles
    cases hmakes with
    | read hreads =>
      rw [hreads.creates]
      refine Or.inl ⟨fun _ => Iff.rfl, fun _ _ => rfl, rfl, ?_⟩
      cases hreads <;> trivial
    | refuse hrefuses =>
      rw [hrefuses.creates]
      refine Or.inl ⟨fun _ => Iff.rfl, fun _ _ => rfl, rfl, ?_⟩
      cases hrefuses <;> trivial
    | @put objectName data proc' hputs =>
      rw [hputs.creates]
      exact Or.inr (Or.inl ⟨p, input, objectName, data, proc', rfl, hproc ▸ hputs, rfl⟩)
    | @write id row proc' hfree hwrites =>
      have hcommitted : ∀ k, ((s.db.models.write p id row).committed k).isSome
          ↔ (s.db.models.committed k).isSome := fun k => by rw [LockedTable.committed_write]
      cases hwrites with
      | insert _ hid _ =>
        -- the row that goes on record is new
        refine Or.inl ⟨hcommitted, fun k hk => ?_, rfl, trivial⟩
        refine Function.update_of_ne ?_ ..
        rintro rfl
        rw [LockedTable.committed_of_not_mem_keys hid] at hk
        cases hk
      | retire => exact Or.inl ⟨hcommitted, fun _ _ => rfl, rfl, trivial⟩
      | activate => exact Or.inl ⟨hcommitted, fun _ _ => rfl, rfl, trivial⟩
    | commit hcommits =>
      cases hcommits with
      | @register call id =>
        exact Or.inr (Or.inr ⟨p, input, call, id, _, rfl, hproc, rfl⟩)
      | promote =>
        -- a promotion commits versions of rows that were committed before
        refine Or.inl ⟨fun k => ⟨fun hk => ?_, isSome_committed_commit⟩, fun _ _ => rfl, rfl,
          trivial⟩
        obtain ⟨row, hrow⟩ := Option.isSome_iff_exists.mp hk
        exact isSome_committed_of_visible hfiles hrow
  · exact Or.inl ⟨fun _ => Iff.rfl, fun _ _ => rfl, rfl, trivial⟩

/-- An upload of weights is seen by the calls with the same folder. -/
theorem stored_putWeights {objects : ObjectStore} {call call' : RegisterCall}
    (h : Stored bucket objects call') :
    Stored bucket (Function.update objects (bucket.name, call.weightsObject) (some call.weights))
      call' ↔ (call'.folder = call.folder → call'.weights = call.weights) := by
  have hconfig : Function.update objects (bucket.name, call.weightsObject) (some call.weights)
      (bucket.name, call'.configObject) = objects (bucket.name, call'.configObject) :=
    Function.update_of_ne (fun heq =>
      weightsObject_ne_configObject call call' (Prod.mk.inj heq).2.symm) ..
  rw [Stored, hconfig, and_iff_left h.2]
  by_cases hfolder : call'.folder = call.folder
  · rw [weightsObject_eq_iff.mpr hfolder, Function.update_self, Option.some.injEq]
    exact ⟨fun heq _ => heq.symm, fun heq => (heq hfolder).symm⟩
  · have hne : (bucket.name, call'.weightsObject) ≠ (bucket.name, call.weightsObject) :=
      fun heq => hfolder (weightsObject_eq_iff.mp (Prod.mk.inj heq).2)
    rw [Function.update_of_ne hne]
    exact iff_of_true h.1 fun heq => absurd heq hfolder

/-- So is an upload of a config. -/
theorem stored_putConfig {objects : ObjectStore} {call call' : RegisterCall} {registeredAt : String}
    (h : Stored bucket objects call') :
    Stored bucket (Function.update objects (bucket.name, call.configObject)
      (some (modelConfig call.classMapping registeredAt))) call'
      ↔ (call'.folder = call.folder → SameMapping call.classMapping call'.classMapping) := by
  have hweights : Function.update objects (bucket.name, call.configObject)
      (some (modelConfig call.classMapping registeredAt)) (bucket.name, call'.weightsObject)
      = objects (bucket.name, call'.weightsObject) :=
    Function.update_of_ne (fun heq =>
      weightsObject_ne_configObject call' call (Prod.mk.inj heq).2) ..
  rw [Stored, hweights, and_iff_right h.1]
  by_cases hfolder : call'.folder = call.folder
  · rw [configObject_eq_iff.mpr hfolder, Function.update_self]
    constructor
    · rintro ⟨mapping, time, hmapping, hsame⟩ - key
      have heq := sameMapping_of_modelConfig_eq (Option.some.inj hmapping)
      exact (heq key).trans (hsame key)
    · exact fun hsame => ⟨_, _, rfl, hsame hfolder⟩
  · have hne : (bucket.name, call'.configObject) ≠ (bucket.name, call.configObject) :=
      fun heq => hfolder (configObject_eq_iff.mp (Prod.mk.inj heq).2)
    rw [Function.update_of_ne hne]
    exact iff_of_true h.2 fun heq => absurd heq hfolder

/-- An upload keeps what is stored for the committed models exactly when it is clean. -/
theorem stored_put_iff {s : State} {proc proc' : Proc} {objectName : String} {data : ByteArray}
    (hold : ∀ id call, (s.db.models.committed id).isSome → s.created id = some call →
      Stored bucket s.db.objects call)
    (hputs : proc.Puts input objectName data proc') :
    (∀ id call, (s.db.models.committed id).isSome → s.created id = some call →
      Stored bucket (Function.update s.db.objects (bucket.name, objectName) (some data)) call) ↔
      proc.Clean bucket s := by
  -- the calls of the committed models, once more
  have hcalls : ∀ P : RegisterCall → Prop,
      (∀ id call', (s.db.models.committed id).isSome → s.created id = some call' → P call') ↔
        ∀ id model call', s.db.models.committed id = some model → s.created id = some call' →
          P call' := by
    intro P
    constructor
    · exact fun h id model call' hmodel => h id call' (by rw [hmodel]; rfl)
    · intro h id call' hid
      obtain ⟨model, hmodel⟩ := Option.isSome_iff_exists.mp hid
      exact h id model call' hmodel
  cases hputs with
  | @weights call =>
    rw [Proc.Clean, ← hcalls fun call' => call'.folder = call.folder →
      call'.weights = call.weights]
    exact forall₄_congr fun id call' hid hcall => stored_putWeights (hold id call' hid hcall)
  | @config call =>
    rw [Proc.Clean, ← hcalls fun call' => call'.folder = call.folder →
      SameMapping call.classMapping call'.classMapping]
    exact forall₄_congr fun id call' hid hcall => stored_putConfig (hold id call' hid hcall)

/-- A commit adds one model to those whose artifacts have to be stored. -/
theorem stored_commit_iff {s : State} {call : RegisterCall} {id : Uuid}
    (hold : ∀ id call, (s.db.models.committed id).isSome → s.created id = some call →
      Stored bucket s.db.objects call)
    (hfiles : (Proc.register call (.inserted id)).Files bucket s p) :
    (∀ id' call', ((s.db.models.commit p).committed id').isSome → s.created id' = some call' →
      Stored bucket s.db.objects call') ↔ Stored bucket s.db.objects call := by
  obtain ⟨hcall, ⟨row, hrow⟩, honly⟩ := hfiles
  constructor
  · intro h
    refine h id call ?_ hcall
    rw [LockedTable.committed_commit_of_holds hrow]
    rfl
  · intro hstored id' call' hid' hcall'
    by_cases heq : id' = id
    · subst heq
      obtain rfl : call = call' := Option.some.inj (hcall.symm.trans hcall')
      exact hstored
    · have hnot : ∀ row', ¬ s.db.models.Holds p id' row' :=
        fun row' hrow' => heq (honly id' row' hrow')
      rw [LockedTable.committed_commit_of_not_holds hnot] at hid'
      exact hold id' call' hid' hcall'

/-- A statement keeps the artifacts of all models exactly when it is clean. -/
theorem roundTrip_step {s s' : State} {a : Action} (hs : Filed bucket s) (htrip : RoundTrip s)
    (hstep : step bucket s a = some s') : RoundTrip s' ↔ Clean bucket s a := by
  have hold := (roundTrip_iff_stored hs).mp htrip
  rw [roundTrip_iff_stored (filed_step hs hstep)]
  rcases artifacts_step_cases hs hstep with ⟨hcommitted, hcreated, hobjects, hclean⟩ |
    ⟨p, input, objectName, data, proc', rfl, hputs, rfl⟩ |
    ⟨p, input, call, id, auditLog, rfl, hproc, rfl⟩
  · refine iff_of_true (fun id call hid hcall => ?_) hclean
    rw [hobjects]
    have hid := (hcommitted id).mp hid
    exact hold id call hid ((hcreated id hid).symm.trans hcall)
  · exact stored_put_iff hold hputs
  · have hclean : Clean bucket s (.exec p input) ↔ Stored bucket s.db.objects call := by
      show (s.procs p).Clean bucket s ↔ _
      rw [hproc]
      rfl
    have hfiles : (Proc.register call (.inserted id)).Files bucket s p := hproc ▸ hs.procs p
    rw [hclean]
    exact stored_commit_iff hold hfiles

/-- **The artifacts of a model.**  Along a run from the empty registry every state gives every model
its artifacts exactly when all its statements are clean. -/
theorem roundTrip_iff_clean {actions : List Action} {t : State}
    (hrun : (registry bucket).run State.empty actions = some t) :
    (registry bucket).StatesMeet RoundTrip State.empty actions ↔
      (registry bucket).ActionsMeet (Clean bucket) State.empty actions := by
  have hempty : RoundTrip State.empty := fun _ _ h => nomatch h
  exact invariant_filed.statesMeet_iff_actionsMeet
    (fun s a s' hs htrip hstep => roundTrip_step hs htrip hstep) filed_empty hempty hrun

/-- The criterion at the registration and promotion of one model. -/
theorem roundTrip_iff_clean_rollout :
    (registry modelsBucket).StatesMeet RoundTrip State.empty rollout ↔
      (registry modelsBucket).ActionsMeet (Clean modelsBucket) State.empty rollout := by
  have hsome : ((registry modelsBucket).run State.empty rollout).isSome := by decide
  obtain ⟨t, ht⟩ := Option.isSome_iff_exists.mp hsome
  exact roundTrip_iff_clean ht

/-- Two names and versions with one path. -/
def slashInName : RegisterCall :=
  { challenger with
    name := "abc/d"
    version := "e"
    nameLength := by decide
    versionLength := by decide }

/-- The other one. -/
def slashInVersion : RegisterCall where
  name := "abc"
  version := "d/e"
  weights := [2].toByteArray
  classMapping := .empty
  actorId := ⟨"admin-1"⟩
  nameLength := by decide
  versionLength := by decide
  weightsSize := by decide

/-- They are registered one after the other. -/
def sharedPath : List Action :=
  let input (id : String) : Input := { now := 1, isoformat := "", id := ⟨id⟩ }
  .start 0 (.register slashInName) :: List.replicate 5 (.exec 0 (input "m1")) ++
    .start 1 (.register slashInVersion) :: List.replicate 5 (.exec 1 (input "m2"))

/-- The first model loads the weights of the second. -/
theorem not_roundTrip_sharedPath :
    ∃ t, (registry modelsBucket).run State.empty sharedPath = some t ∧ ¬ RoundTrip t := by
  have hrun : ((registry modelsBucket).run State.empty sharedPath).map (fun t =>
      ((t.created ⟨"m1"⟩).map RegisterCall.weights, (t.db.models.committed ⟨"m1"⟩).bind fun model =>
        (loadArtifacts t.db.objects.getObject model).toOption.map Prod.fst))
      = some (some [1].toByteArray, some [2].toByteArray) := by
    decide
  obtain ⟨t, ht, heq⟩ := Option.map_eq_some_iff.mp hrun
  obtain ⟨hweights, hloaded⟩ := Prod.mk.inj heq
  obtain ⟨call, hcall, hweights⟩ := Option.map_eq_some_iff.mp hweights
  obtain ⟨model, hmodel, hloaded⟩ := Option.bind_eq_some_iff.mp hloaded
  refine ⟨t, ht, fun htrip => ?_⟩
  obtain ⟨call', hcall', v, hload, -⟩ := htrip ⟨"m1"⟩ model hmodel
  obtain rfl : call = call' := Option.some.inj (hcall.symm.trans hcall')
  rw [hload, hweights] at hloaded
  have hbytes : [1].toByteArray = [2].toByteArray := Option.some.inj hloaded
  exact absurd hbytes (by decide)

end RoadVisionAI.ModelRegistry
