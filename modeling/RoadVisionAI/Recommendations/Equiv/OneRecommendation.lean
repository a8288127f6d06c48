import RoadVisionAI.Agents.Equiv.RecommendationPipeline
import RoadVisionAI.Recommendations.Service

/-!
# One recommendation for an analysis

The check of `generate_for_analysis` and its insert lie a retrieval and an LLM call apart, so calls
for one analysis pass the check together.  `uq_rec_analysis` lets one of them commit
(`LockedTable.UniqueIndex`), and since the explanation and the audit entry are written in the same
transaction, the three tables grow together (`Accounts`): `one_recommendation`.
-/

namespace RoadVisionAI.Recommendations

open Python Db RuleEngine RecommendationPipeline Transition

variable {fieldFormat : FieldFormat} {db : Database} {p q : ℕ}

/-! ### What a statement can do -/

/-- The call has not flushed its recommendation. -/
def Proc.Unflushed : Proc → Prop
  | .generate _ (.recFlushed ..) | .generate _ (.auditFlushed ..) => False
  | _ => True

/-- The case analysis of the statements. -/
inductive Proc.Makes (db : Database) (p : ℕ) : Proc → Effect → Proc → Prop
  | read {proc proc'} (h : proc.Unflushed) (h' : proc'.Unflushed) : Makes db p proc .none proc'
  | refuse {proc} : Makes db p proc .rollback .idle
  | flush {call analysis result xai row stored} {input : Input}
      (hrow : recommendationOf input.id call.analysisResultId input.now input.createdAt analysis
        result = .ok row)
      (hstored : row.store = .ok stored)
      (hid : input.id ∉ db.recommendations.keys)
      (hadmits : db.recommendations.Admits recAnalysis p input.id stored) :
      Makes db p (.generate call (.xaiFlushed analysis result xai))
        (.write (db.recommendations.write p input.id stored))
        (.generate call (.recFlushed result xai input.id))
  | audit {call result xai recId auditLog}
      (h : auditOf recId call.actorId result = .ok auditLog) :
      Makes db p (.generate call (.recFlushed result xai recId)) .none
        (.generate call (.auditFlushed xai recId auditLog))
  | commit {call xai recId auditLog} :
      Makes db p (.generate call (.auditFlushed xai recId auditLog))
        (.commit { analysisResultId := call.analysisResultId, xai, auditLog }) .idle

theorem execGenerate_cases {input : Input} {call : Call} {stage : Stage} {effect : Effect}
    {proc' : Proc} (h : execGenerate fieldFormat db p input call stage = some (effect, proc')) :
    (Proc.generate call stage).Makes db p effect proc' := by
  cases stage with
  | started =>
    simp only [execGenerate, refuse] at h
    split at h <;> cases h
    · exact .read trivial trivial
    · exact .refuse
  | analysed analysis =>
    simp only [execGenerate, refuse] at h
    split_ifs at h <;> cases h
    · exact .read trivial trivial
    · exact .refuse
  | checked analysis =>
    simp only [execGenerate, refuse] at h
    split at h <;> cases h
    · exact .read trivial trivial
    · exact .refuse
  | scored analysis ctx =>
    cases h
    exact .read trivial trivial
  | ready analysis ctx rules =>
    simp only [execGenerate, refuse] at h
    split at h <;> cases h
    · exact .refuse
    · exact .read trivial trivial
  | decided analysis ctx result =>
    simp only [execGenerate] at h
    split at h <;> cases h
    exact .read trivial trivial
  | xaiFlushed analysis result xai =>
    simp only [execGenerate, refuse] at h
    split at h
    · cases h
      exact .refuse
    next row hrow =>
      split at h
      · cases h
      next stored hstored =>
        split_ifs at h with hinsert
        obtain ⟨hid, hadmits⟩ := hinsert
        cases h
        exact .flush hrow hstored hid hadmits
  | recFlushed result xai recId =>
    simp only [execGenerate, refuse] at h
    split at h
    · cases h
      exact .refuse
    next auditLog hlog =>
      split_ifs at h
      cases h
      exact .audit hlog
  | auditFlushed xai recId auditLog =>
    cases h
    exact .commit

/-- A step is a statement of a process, its failure, or the arrival of its call. -/
theorem step_cases {s s' : State} {a : Action} (h : step fieldFormat s a = some s') :
    ∃ p effect proc', (s.procs p).Makes s.db p effect proc' ∧ s' = s.after p effect proc' := by
  cases a with
  | start p call =>
    simp only [step] at h
    split at h <;> cases h
    next hproc => exact ⟨p, _, _, by rw [hproc]; exact .read trivial trivial, rfl⟩
  | exec p input =>
    obtain ⟨⟨effect, proc'⟩, hexec, rfl⟩ := Option.map_eq_some_iff.mp h
    refine ⟨p, effect, proc', ?_, rfl⟩
    cases hproc : s.procs p with
    | idle => rw [hproc] at hexec; cases hexec
    | generate call stage =>
      rw [hproc] at hexec
      exact execGenerate_cases hexec
  | fail p =>
    simp only [step] at h
    split at h <;> cases h
    exact ⟨p, _, _, .refuse, rfl⟩

theorem analysisResultId_recommendationOf {id analysisResultId : Uuid} {now createdAt : ℕ}
    {analysis : AnalysisResult ℚ} {result : PipelineResult} {row : MaintenanceRecommendation}
    (h : recommendationOf id analysisResultId now createdAt analysis result = .ok row) :
    row.analysisResultId = analysisResultId := by
  obtain ⟨deadline, -, hrow⟩ := bind_eq_ok_iff.mp h
  obtain rfl := Except.ok.inj hrow
  rfl

theorem store_eq_ok_iff {row stored : MaintenanceRecommendation} :
    row.store = .ok stored ↔ stored = row.quantize ∧ row.quantize.Fits ∧ row.quantize.Checks :=
  storeRow_eq_ok_iff

theorem action_auditOf {recId actorId : Uuid} {result : PipelineResult} {auditLog : AuditLog}
    (h : auditOf recId actorId result = .ok auditLog) :
    auditLog.action = "RECOMMENDATION_GENERATED" := by
  obtain ⟨refs, -, hlog⟩ := bind_eq_ok_iff.mp h
  obtain rfl := Except.ok.inj hlog
  rfl

/-! ### The invariant -/

/-- The recommendation a call has flushed is all it holds, and it is for its analysis. -/
def HoldsFor (recommendations : LockedTable Uuid MaintenanceRecommendation) (p : ℕ) (recId : Uuid)
    (analysisResultId : Uuid) : Prop :=
  ∃ row, recommendations.Inserts p recId row ∧ row.analysisResultId = analysisResultId

/-- What a process holds at its stage. -/
def Proc.Keeps (recommendations : LockedTable Uuid MaintenanceRecommendation) (p : ℕ) : Proc → Prop
  | .generate call (.recFlushed _ _ recId) =>
    HoldsFor recommendations p recId call.analysisResultId
  | .generate call (.auditFlushed _ recId auditLog) =>
    HoldsFor recommendations p recId call.analysisResultId ∧
      auditLog.action = "RECOMMENDATION_GENERATED"
  | _ => recommendations.HoldsNothing p

/-- The invariant: the index, and what every process holds. -/
structure Sound (s : State) : Prop where
  unique : LockedTable.UniqueIndex recAnalysis s.db.recommendations
  keeps : ∀ p, (s.procs p).Keeps s.db.recommendations p

theorem Proc.Unflushed.keeps_iff {proc : Proc} (h : proc.Unflushed)
    {recommendations : LockedTable Uuid MaintenanceRecommendation} :
    proc.Keeps recommendations p ↔ recommendations.HoldsNothing p := by
  unfold Proc.Keeps
  split
  · exact h.elim
  · exact h.elim
  · exact Iff.rfl

theorem Proc.Keeps.frame {proc : Proc}
    {recommendations recommendations' : LockedTable Uuid MaintenanceRecommendation}
    (h : proc.Keeps recommendations q)
    (hframe : LockedTable.Undisturbed q recommendations recommendations') :
    proc.Keeps recommendations' q := by
  unfold Proc.Keeps at h ⊢
  split at h
  · obtain ⟨row, hrow, hfor⟩ := h
    exact ⟨row, hrow.frame hframe, hfor⟩
  · obtain ⟨⟨row, hrow, hfor⟩, haction⟩ := h
    exact ⟨⟨row, hrow.frame hframe, hfor⟩, haction⟩
  · exact h.frame hframe

/-- No effect disturbs the other processes. -/
theorem Proc.Makes.undisturbed {proc proc' : Proc} {effect : Effect}
    (h : proc.Makes db p effect proc') (hq : q ≠ p) :
    LockedTable.Undisturbed q db.recommendations (effect.apply p db).recommendations := by
  cases h with
  | read | audit => exact ⟨fun _ _ => Iff.rfl, fun _ _ _ => rfl⟩
  | refuse => exact LockedTable.undisturbed_rollback hq
  | flush _ _ hid _ => exact LockedTable.undisturbed_write hq (LockedTable.free_of_not_mem_keys hid)
  | commit => exact LockedTable.undisturbed_commit hq

/-- After its statement a process is at a stage that fits what it holds. -/
theorem Proc.Makes.keeps {proc proc' : Proc} {effect : Effect} (h : proc.Makes db p effect proc')
    (hkeeps : proc.Keeps db.recommendations p) :
    proc'.Keeps (effect.apply p db).recommendations p := by
  cases h with
  | read hproc hproc' => exact hproc'.keeps_iff.mpr (hproc.keeps_iff.mp hkeeps)
  | refuse => exact LockedTable.holdsNothing_rollback
  | @flush call _ _ _ row _ _ hrow hstored hid _ =>
    have hnothing : db.recommendations.HoldsNothing p := hkeeps
    have hfor : row.analysisResultId = call.analysisResultId :=
      analysisResultId_recommendationOf hrow
    obtain ⟨rfl, -⟩ := store_eq_ok_iff.mp hstored
    exact ⟨_, hnothing.insert hid, hfor⟩
  | audit hlog => exact ⟨hkeeps, action_auditOf hlog⟩
  | commit => exact LockedTable.holdsNothing_commit

theorem Proc.Makes.unique {proc proc' : Proc} {effect : Effect} (h : proc.Makes db p effect proc')
    (hunique : LockedTable.UniqueIndex recAnalysis db.recommendations) :
    LockedTable.UniqueIndex recAnalysis (effect.apply p db).recommendations := by
  cases h with
  | read | audit => exact hunique
  | refuse => exact hunique.rollback p
  | flush _ _ hid hadmits =>
    exact hunique.write (LockedTable.free_of_not_mem_keys hid) hadmits
  | commit => exact hunique.commit p

theorem State.Quiet.sound {s : State} (h : s.Quiet) : Sound s where
  unique := by
    apply LockedTable.UniqueIndex.of_quiet h.settled
    rintro j k row row' hjk hrow hrow' ⟨key, hkey, hkey'⟩
    apply h.unique j k row row' hjk hrow hrow'
    rw [Option.some.inj hkey, Option.some.inj hkey']
  keeps p := by
    rw [h.idle p]
    exact LockedTable.holdsNothing_of_quiet h.settled

theorem sound_step {s s' : State} {a : Action} (hs : Sound s)
    (h : step fieldFormat s a = some s') : Sound s' := by
  obtain ⟨p, effect, proc', hmakes, rfl⟩ := step_cases h
  refine ⟨hmakes.unique hs.unique, ?_⟩
  have hothers : ∀ q, q ≠ p → (s.procs q).Keeps (effect.apply p s.db).recommendations q :=
    fun q hq => (hs.keeps q).frame (hmakes.undisturbed hq)
  exact (Function.forall_update_iff s.procs
    fun q proc => proc.Keeps (effect.apply p s.db).recommendations q).mpr
    ⟨hmakes.keeps (hs.keeps p), hothers⟩

theorem sound_invariant : (service fieldFormat).Invariant Sound where
  init _ hs := hs.sound
  step _ _ _ hs h := sound_step hs h

/-! ### The three tables -/

/-- The committed recommendations of an analysis. -/
def State.recommendationsOf (s : State) (analysisResultId : Uuid) : Finset Uuid :=
  s.db.recommendations.rows fun row => recAnalysis row = some analysisResultId

/-- The calls that have committed since `s` have each written one row of each table. -/
def Accounts (s t : State) : Prop :=
  ∃ new : List Generation,
    t.generations = s.generations ++ new ∧
    t.db.xaiExplanations = s.db.xaiExplanations ++ new.map Generation.xai ∧
    t.db.auditLogs = s.db.auditLogs ++ new.map Generation.auditLog ∧
    (∀ generation ∈ new, generation.auditLog.action = "RECOMMENDATION_GENERATED") ∧
    ∀ analysisResultId, (t.recommendationsOf analysisResultId).card
      = (s.recommendationsOf analysisResultId).card
        + (new.filter fun generation => generation.analysisResultId = analysisResultId).length

theorem Accounts.refl (s : State) : Accounts s s :=
  ⟨[], by simp, by simp, by simp, by simp, by simp⟩

theorem Accounts.trans (s t u : State) (h : Accounts s t) (h' : Accounts t u) : Accounts s u := by
  obtain ⟨new, hgen, hxai, haudit, haction, hcard⟩ := h
  obtain ⟨new', hgen', hxai', haudit', haction', hcard'⟩ := h'
  refine ⟨new ++ new', ?_, ?_, ?_, ?_, fun analysisResultId => ?_⟩
  · rw [hgen', hgen, List.append_assoc]
  · rw [hxai', hxai, List.map_append, List.append_assoc]
  · rw [haudit', haudit, List.map_append, List.append_assoc]
  · intro generation hmem
    rcases List.mem_append.mp hmem with hold | hnew
    · exact haction generation hold
    · exact haction' generation hnew
  · rw [hcard', hcard, List.filter_append, List.length_append, Nat.add_assoc]

/-- A statement that commits nothing leaves the committed rows. -/
theorem accounts_of_committed_eq {s t : State} (hgen : t.generations = s.generations)
    (hxai : t.db.xaiExplanations = s.db.xaiExplanations) (haudit : t.db.auditLogs = s.db.auditLogs)
    (hcommitted : ∀ k, t.db.recommendations.committed k = s.db.recommendations.committed k) :
    Accounts s t := by
  refine ⟨[], by simp [hgen], by simp [hxai], by simp [haudit], by simp, fun analysisResultId => ?_⟩
  rw [State.recommendationsOf, LockedTable.rows_congr hcommitted, State.recommendationsOf]
  rfl

theorem accounts_step {s s' : State} {a : Action} (hs : Sound s)
    (h : step fieldFormat s a = some s') : Accounts s s' := by
  obtain ⟨p, effect, proc', hmakes, rfl⟩ := step_cases h
  have hkeeps := hs.keeps p
  generalize s.procs p = proc at hmakes hkeeps
  cases hmakes with
  | read | audit =>
    exact accounts_of_committed_eq (List.append_nil _) rfl rfl fun _ => rfl
  | refuse => exact accounts_of_committed_eq (List.append_nil _) rfl rfl fun _ => rfl
  | flush =>
    exact accounts_of_committed_eq (List.append_nil _) rfl rfl fun _ => LockedTable.committed_write
  | @commit call xai recId auditLog =>
    obtain ⟨⟨row, hinserts, hfor⟩, haction⟩ := hkeeps
    refine ⟨[{ analysisResultId := call.analysisResultId, xai, auditLog }], rfl, rfl, rfl, ?_, ?_⟩
    · intro generation hmem
      rw [List.mem_singleton.mp hmem]
      exact haction
    · intro analysisResultId
      have hcard : ((s.db.recommendations.commit p).rows
            fun row => recAnalysis row = some analysisResultId).card
          = (s.recommendationsOf analysisResultId).card
            + if decide (recAnalysis row = some analysisResultId) then 1 else 0 :=
        LockedTable.card_rows_commit hinserts
      have hkey : recAnalysis row = some analysisResultId
          ↔ call.analysisResultId = analysisResultId := by
        rw [recAnalysis, hfor, Option.some_inj]
      show ((s.db.recommendations.commit p).rows
        fun row => recAnalysis row = some analysisResultId).card = _
      rw [hcard]
      by_cases hcall : call.analysisResultId = analysisResultId
      · simp [hkey, hcall]
      · simp [hkey, hcall]

/-- **One recommendation for an analysis, and the three tables in step.**  Along any run from a
quiet state, an analysis has at most one committed recommendation; every call that has committed has
written one explanation and one `RECOMMENDATION_GENERATED` entry, and those for the analysis are as
many as its new recommendations. -/
theorem one_recommendation {s t : State} {actions : List Action} (hs : s.Quiet)
    (h : (service fieldFormat).run s actions = some t) (analysisResultId : Uuid) :
    (t.recommendationsOf analysisResultId).card ≤ 1 ∧
      t.db.xaiExplanations = s.db.xaiExplanations ++ t.generations.map Generation.xai ∧
      t.db.auditLogs = s.db.auditLogs ++ t.generations.map Generation.auditLog ∧
      (∀ generation ∈ t.generations,
        generation.auditLog.action = "RECOMMENDATION_GENERATED") ∧
      (t.recommendationsOf analysisResultId).card = (s.recommendationsOf analysisResultId).card
        + (t.generations.filter fun generation =>
            generation.analysisResultId = analysisResultId).length := by
  have hsound : Sound t := sound_invariant.of_run hs.sound h
  have haccounts : Accounts s t :=
    sound_invariant.rel_of_leads Accounts.refl Accounts.trans
      (fun _ _ _ hsound hstep => accounts_step hsound hstep) hs.sound ⟨actions, h⟩
  obtain ⟨new, hgen, hxai, haudit, haction, hcard⟩ := haccounts
  rw [hs.unrecorded, List.nil_append] at hgen
  subst hgen
  exact ⟨hsound.unique.card_rows_le_one analysisResultId, hxai, haudit, haction,
    hcard analysisResultId⟩

/-- The analysis of a cracked road. -/
def crackedAnalysis : AnalysisResult ℚ where
  id := ⟨"a1"⟩
  totalDetections := 4
  dominantDamageType := some "ALLIGATOR_CRACK"
  overallSeverity := .MODERE
  recommendationConfidence := some (3 / 4)
  processingTimeMs := 900

/-- What a statement of a call finds, with one rule and no passage. -/
def crackedInput (id : String) : Input where
  analysisResults := [⟨⟨"i1"⟩, crackedAnalysis⟩]
  pciScores :=
    [⟨⟨"i1"⟩, { score := 60, severityLevel := .MODERE, priorityLevel := .P2_PLANIFIE }⟩]
  rules := [sealingRule]
  ragSearch := fun _ => .ok []
  llmGenerate := defaultLlm
  now := 1000000
  createdAt := 1000000
  id := ⟨id⟩

/-- No rows, no calls. -/
def noRecommendations : State where
  db := { recommendations := .empty, xaiExplanations := [], auditLogs := [] }
  procs := fun _ => .idle
  generations := []

/-- Two engineers ask for the recommendation of one analysis; both calls pass the check, the first
one commits, and the insert of the second fails. -/
def twoEngineers : List Action :=
  [.start 1 ⟨⟨"a1"⟩, ⟨"u1"⟩⟩, .start 2 ⟨⟨"a1"⟩, ⟨"u2"⟩⟩] ++
    (List.replicate 6 [.exec 1 (crackedInput "x1"), .exec 2 (crackedInput "x2")]).flatten ++
    [.exec 1 (crackedInput "r1"), .exec 1 (crackedInput ""), .exec 1 (crackedInput ""), .fail 2]

theorem quiet_noRecommendations : noRecommendations.Quiet where
  idle _ := rfl
  settled _ := rfl
  unique _ _ _ _ _ h := nomatch h
  unrecorded := rfl

/-- One recommendation is there, with one explanation and one entry. -/
theorem one_recommendation_twoEngineers :
    ∃ t, (service bareFields).run noRecommendations twoEngineers = some t ∧
      t.generations.length = 1 ∧
      (t.recommendationsOf ⟨"a1"⟩).card ≤ 1 ∧
      t.db.xaiExplanations
        = noRecommendations.db.xaiExplanations ++ t.generations.map Generation.xai ∧
      t.db.auditLogs
        = noRecommendations.db.auditLogs ++ t.generations.map Generation.auditLog ∧
      (∀ generation ∈ t.generations,
        generation.auditLog.action = "RECOMMENDATION_GENERATED") ∧
      (t.recommendationsOf ⟨"a1"⟩).card = (noRecommendations.recommendationsOf ⟨"a1"⟩).card
        + (t.generations.filter fun generation =>
            generation.analysisResultId = ⟨"a1"⟩).length := by
  have heval : ((service bareFields).run noRecommendations twoEngineers).map
      (fun t => t.generations.length) = some 1 := by
    decide +kernel
  obtain ⟨t, ht, -, hone⟩ := Machine.reachable_of_map_run quiet_noRecommendations heval
  exact ⟨t, ht, hone, one_recommendation quiet_noRecommendations ht ⟨"a1"⟩⟩

end RoadVisionAI.Recommendations
