import RoadVisionAI.Recommendations.Equiv.OneRecommendation
import RoadVisionAI.Transition.Past

/-!
# Every recommendation is explained

A call carries what it has computed from one statement to the next, and flushes its three rows in
three of them.  What it carries comes from its arguments and from what its own statements have found
(`Comes`), and these are the actions of its process since it was called (`Proc.Tells`).  So the rows
a call commits are of one result of the pipeline, on the analysis the call is for and the score of
the same inspection (`Explains`), and every committed recommendation that was not there before has
its explanation and its entry beside it (`recommendations_explained`).
-/

namespace RoadVisionAI.Recommendations

open Python Db RuleEngine RecommendationPipeline Transition Machine

/-- The process an action is of. -/
def Action.proc : Action → Option ℕ
  | .start p _ | .exec p _ | .fail p => some p

/-- The actions of a call whose statements have found `found`. -/
def callActions (p : ℕ) (call : Call) (found : List Input) : List Action :=
  .start p call :: found.map (.exec p)

/-- What the nine statements of a call find. -/
structure Inputs where
  analysis : Input
  existing : Input
  score : Input
  rules : Input
  pipeline : Input
  xai : Input
  recommendation : Input
  audit : Input
  commit : Input

/-- In the order of the statements. -/
def Inputs.toList (found : Inputs) : List Input :=
  [found.analysis, found.existing, found.score, found.rules, found.pipeline, found.xai,
    found.recommendation, found.audit, found.commit]

section

variable (fieldFormat : FieldFormat) (call : Call)

/-- The rows and the audit entry are what the statements of the call make of what they find: the
analysis it is for, the score of the same inspection, the result of the pipeline on these and on the
active rules. -/
structure Explains (found : Inputs) (generation : Generation) (row : MaintenanceRecommendation) :
    Prop where
  analysis : generation.analysisResultId = call.analysisResultId
  written : ∃ analysis ∈ found.analysis.analysisResults, ∃ pci ∈ found.score.pciScores, ∃ result,
    analysis.row.id = call.analysisResultId ∧ pci.inspectionId = analysis.inspectionId ∧
    runPipeline fieldFormat found.pipeline.ragSearch found.pipeline.llmGenerate
      (contextOf analysis.row pci.row) (found.rules.rules.filter Rule.isActive) = .ok result ∧
    (xaiOf found.xai.id analysis.row (contextOf analysis.row pci.row) result).store
      = .ok generation.xai ∧
    (recommendationOf found.recommendation.id call.analysisResultId found.recommendation.now
      found.recommendation.createdAt analysis.row result >>= MaintenanceRecommendation.store)
        = .ok row ∧
    auditOf found.recommendation.id call.actorId result = .ok generation.auditLog

/-- What the call has computed at its stage, and the row it has flushed, from what its statements
have found. -/
inductive Comes : List Input → Stage → Option MaintenanceRecommendation → Prop
  | started : Comes [] .started none
  | analysed {input analysis} (hanalysis : analysis ∈ input.analysisResults)
      (hid : analysis.row.id = call.analysisResultId) : Comes [input] (.analysed analysis) none
  | checked {found analysis} (input) (h : Comes found (.analysed analysis) none) :
      Comes (found ++ [input]) (.checked analysis) none
  | scored {found input analysis pci} (h : Comes found (.checked analysis) none)
      (hpci : pci ∈ input.pciScores) (hsame : pci.inspectionId = analysis.inspectionId) :
      Comes (found ++ [input]) (.scored analysis.row (contextOf analysis.row pci.row)) none
  | ready {found analysis ctx} (input) (h : Comes found (.scored analysis ctx) none) :
      Comes (found ++ [input]) (.ready analysis ctx (input.rules.filter Rule.isActive)) none
  | decided {found input analysis ctx rules result}
      (h : Comes found (.ready analysis ctx rules) none)
      (hresult : runPipeline fieldFormat input.ragSearch input.llmGenerate ctx rules = .ok result) :
      Comes (found ++ [input]) (.decided analysis ctx result) none
  | xaiFlushed {found input analysis ctx result xai}
      (h : Comes found (.decided analysis ctx result) none)
      (hxai : (xaiOf input.id analysis ctx result).store = .ok xai) :
      Comes (found ++ [input]) (.xaiFlushed analysis result xai) none
  | recFlushed {found input analysis result xai row}
      (h : Comes found (.xaiFlushed analysis result xai) none)
      (hrow : (recommendationOf input.id call.analysisResultId input.now input.createdAt analysis
        result >>= MaintenanceRecommendation.store) = .ok row) :
      Comes (found ++ [input]) (.recFlushed result xai input.id) (some row)
  | auditFlushed {found result xai recId auditLog row} (input)
      (h : Comes found (.recFlushed result xai recId) (some row))
      (hlog : auditOf recId call.actorId result = .ok auditLog) :
      Comes (found ++ [input]) (.auditFlushed xai recId auditLog) (some row)

end

variable {fieldFormat : FieldFormat} {db : Database} {p q : ℕ} {done : List Action}

/-! ### One statement -/

theorem mem_of_scalarOneOrNone {α : Type} {rows : List α} {cond : α → Bool} {row : α}
    (h : scalarOneOrNone rows cond = .ok (some row)) : row ∈ rows ∧ cond row = true := by
  unfold scalarOneOrNone at h
  split at h
  · cases h
  next only honly =>
    obtain rfl : only = row := Option.some.inj (Except.ok.inj h)
    exact List.mem_filter.mp (honly ▸ List.mem_singleton_self only)
  · cases h

theorem id_of_recommendationOf {id analysisResultId : Uuid} {now createdAt : ℕ}
    {analysis : AnalysisResult ℚ} {result : PipelineResult} {row : MaintenanceRecommendation}
    (h : (recommendationOf id analysisResultId now createdAt analysis result
      >>= MaintenanceRecommendation.store) = .ok row) : row.id = id := by
  obtain ⟨raw, hraw, hstored⟩ := bind_eq_ok_iff.mp h
  obtain ⟨deadline, -, hraw⟩ := bind_eq_ok_iff.mp hraw
  obtain rfl := Except.ok.inj hraw
  obtain ⟨rfl, -⟩ := store_eq_ok_iff.mp hstored
  rfl

/-- A statement that leads to another adds what it finds; the row it flushes, if any, is pending. -/
theorem Comes.exec {input : Input} {call call' : Call} {found : List Input} {stage stage' : Stage}
    {flushed : Option MaintenanceRecommendation} {effect : Effect}
    (h : Comes fieldFormat call found stage flushed)
    (hexec : execGenerate fieldFormat db p input call stage
      = some (effect, .generate call' stage')) :
    call' = call ∧ ∃ flushed', Comes fieldFormat call (found ++ [input]) stage' flushed' ∧
      ((flushed' = flushed ∧ effect = .none) ∨ ∃ row, flushed' = some row ∧
        effect = .write (db.recommendations.write p row.id row)) := by
  cases h with
  | started =>
    simp only [execGenerate, refuse] at hexec
    split at hexec <;> cases hexec
    next analysis hanalysis =>
      obtain ⟨hmem, hid⟩ := mem_of_scalarOneOrNone hanalysis
      exact ⟨rfl, none, .analysed hmem (of_decide_eq_true hid), Or.inl ⟨rfl, rfl⟩⟩
  | analysed hanalysis hid =>
    simp only [execGenerate, refuse] at hexec
    split_ifs at hexec <;> cases hexec
    exact ⟨rfl, none, .checked input (.analysed hanalysis hid), Or.inl ⟨rfl, rfl⟩⟩
  | checked _ h =>
    simp only [execGenerate, refuse] at hexec
    split at hexec <;> cases hexec
    next pci hpci =>
      obtain ⟨hmem, hsame⟩ := mem_of_scalarOneOrNone hpci
      exact ⟨rfl, none, .scored (.checked _ h) hmem (of_decide_eq_true hsame), Or.inl ⟨rfl, rfl⟩⟩
  | scored h hpci hsame =>
    cases hexec
    exact ⟨rfl, none, .ready input (.scored h hpci hsame), Or.inl ⟨rfl, rfl⟩⟩
  | ready _ h =>
    simp only [execGenerate, refuse] at hexec
    split at hexec <;> cases hexec
    next hresult => exact ⟨rfl, none, .decided (.ready _ h) hresult, Or.inl ⟨rfl, rfl⟩⟩
  | decided h hresult =>
    simp only [execGenerate] at hexec
    split at hexec <;> cases hexec
    next hxai => exact ⟨rfl, none, .xaiFlushed (.decided h hresult) hxai, Or.inl ⟨rfl, rfl⟩⟩
  | xaiFlushed h hxai =>
    simp only [execGenerate, refuse] at hexec
    split at hexec
    · cases hexec
    next raw hraw =>
      split at hexec
      · cases hexec
      next row hstored =>
        split_ifs at hexec
        cases hexec
        have hrow := bind_eq_ok_iff.mpr ⟨raw, hraw, hstored⟩
        refine ⟨rfl, some row, .recFlushed (.xaiFlushed h hxai) hrow, Or.inr ⟨row, rfl, ?_⟩⟩
        rw [id_of_recommendationOf hrow]
  | recFlushed h hrow =>
    simp only [execGenerate, refuse] at hexec
    split at hexec
    · cases hexec
    next auditLog hlog =>
      split_ifs at hexec
      cases hexec
      exact ⟨rfl, _, .auditFlushed input (.recFlushed h hrow) hlog, Or.inl ⟨rfl, rfl⟩⟩
  | auditFlushed => cases hexec

/-- What a call commits is explained by what its statements have found. -/
theorem Comes.explains {call : Call} {found : List Input} {xai : XaiExplanation} {recId : Uuid}
    {auditLog : AuditLog} {flushed : Option MaintenanceRecommendation}
    (h : Comes fieldFormat call found (.auditFlushed xai recId auditLog) flushed) (commit : Input) :
    ∃ inputs row, found ++ [commit] = Inputs.toList inputs ∧ flushed = some row ∧ row.id = recId ∧
      Explains fieldFormat call inputs
        { analysisResultId := call.analysisResultId, xai, auditLog } row := by
  -- back through the statements
  cases h with
  | @auditFlushed _ _ _ _ _ row audit h hlog =>
  cases h with
  | @recFlushed _ recommendation _ _ _ _ h hrow =>
  cases h with
  | @xaiFlushed _ explanation _ _ _ _ h hxai =>
  cases h with
  | @decided _ pipeline _ _ _ _ h hresult =>
  cases h with
  | ready rules h =>
  cases h with
  | @scored _ score _ _ h hpci hsame =>
  cases h with
  | checked existing h =>
  cases h with
  | @analysed analysis _ hanalysis hid =>
  exact ⟨⟨analysis, existing, score, rules, pipeline, explanation, recommendation, audit, commit⟩,
    row, rfl, rfl, id_of_recommendationOf hrow, rfl, _, hanalysis, _, hpci, _, hid, hsame, hresult,
    hxai, hrow, hlog⟩

/-! ### A run -/

section

variable (fieldFormat)

/-- What a call carries comes from the actions of its process since it was called, and the row it
has flushed is pending. -/
def Proc.Tells (done : List Action) (recommendations : LockedTable Uuid MaintenanceRecommendation)
    (p : ℕ) : Proc → Prop
  | .idle => True
  | .generate call stage => ∃ found flushed, callActions p call found <:+ own Action.proc p done ∧
      Comes fieldFormat call found stage flushed ∧
      ∀ row ∈ flushed, recommendations.Holds p row.id row

/-- A call that has been made explains the recommendation. -/
def ExplainedBy (done : List Action) (generations : List Generation) (recId : Uuid)
    (row : MaintenanceRecommendation) : Prop :=
  ∃ p call, ∃ found : Inputs, ∃ generation ∈ generations,
    callActions p call found.toList <:+: own Action.proc p done ∧ row.id = recId ∧
      Explains fieldFormat call found generation row

/-- Every committed recommendation that was not in `before` is explained, and every call knows what
it has computed. -/
structure Explained (before s : State) (done : List Action) : Prop where
  rows : ∀ recId row, s.db.recommendations.committed recId = some row →
    before.db.recommendations.committed recId = some row ∨
      ExplainedBy fieldFormat done s.generations recId row
  procs : ∀ p, (s.procs p).Tells fieldFormat done s.db.recommendations p

end

/-- What the others do leaves what a call carries. -/
theorem Proc.Tells.frame {a : Action} {proc : Proc}
    {recommendations recommendations' : LockedTable Uuid MaintenanceRecommendation}
    (h : proc.Tells fieldFormat done recommendations q) (ha : a.proc ≠ some q)
    (hframe : LockedTable.Undisturbed q recommendations recommendations') :
    proc.Tells fieldFormat (done ++ [a]) recommendations' q := by
  cases proc with
  | idle => trivial
  | generate call stage =>
    obtain ⟨found, flushed, hactions, hcomes, hholds⟩ := h
    exact ⟨found, flushed, suffix_own_other hactions ha, hcomes,
      fun row hrow => (hframe.holds _ row).mpr (hholds row hrow)⟩

theorem ExplainedBy.append {generations : List Generation} {recId : Uuid}
    {row : MaintenanceRecommendation} (h : ExplainedBy fieldFormat done generations recId row)
    (a : Action) (new : List Generation) :
    ExplainedBy fieldFormat (done ++ [a]) (generations ++ new) recId row := by
  obtain ⟨p, call, found, generation, hmem, hactions, hid, hexplains⟩ := h
  exact ⟨p, call, found, generation, List.mem_append_left _ hmem, infix_own_append hactions, hid,
    hexplains⟩

/-- A statement carries on what the call has computed. -/
theorem tells_exec {input : Input} {call : Call} {stage : Stage} {effect : Effect} {proc' : Proc}
    (htells : (Proc.generate call stage).Tells fieldFormat done db.recommendations p)
    (hexec : execGenerate fieldFormat db p input call stage = some (effect, proc')) :
    proc'.Tells fieldFormat (done ++ [.exec p input]) (effect.apply p db).recommendations p := by
  cases proc' with
  | idle => trivial
  | generate call' stage' =>
    obtain ⟨found, flushed, hactions, hcomes, hholds⟩ := htells
    obtain ⟨rfl, flushed', hcomes', hflushed⟩ := hcomes.exec hexec
    have hnext : callActions p call' (found ++ [input])
        <:+ own Action.proc p (done ++ [.exec p input]) := by
      have hsplit : callActions p call' (found ++ [input])
          = callActions p call' found ++ [.exec p input] := by
        simp [callActions]
      rw [hsplit]
      exact suffix_own_next hactions rfl
    refine ⟨_, flushed', hnext, hcomes', fun row hrow => ?_⟩
    rcases hflushed with ⟨rfl, rfl⟩ | ⟨row', rfl, rfl⟩
    · exact hholds row hrow
    · obtain rfl := Option.some.inj hrow
      exact LockedTable.holds_write_self

/-- A step of a process, when the rows it commits are explained. -/
theorem Explained.after {before s : State} {a : Action} {effect : Effect} {proc' : Proc}
    (hs : Explained fieldFormat before s done) (ha : a.proc = some p)
    (hmakes : (s.procs p).Makes s.db p effect proc')
    (hself : proc'.Tells fieldFormat (done ++ [a]) (effect.apply p s.db).recommendations p)
    (hrows : ∀ recId row, (effect.apply p s.db).recommendations.committed recId = some row →
      s.db.recommendations.committed recId = some row ∨
        ExplainedBy fieldFormat (done ++ [a]) (s.generations ++ effect.generations) recId row) :
    Explained fieldFormat before (s.after p effect proc') (done ++ [a]) where
  rows recId row hrow := by
    rcases hrows recId row hrow with hold | hnew
    · exact (hs.rows recId row hold).imp_right fun h => h.append a effect.generations
    · exact Or.inr hnew
  procs := (Function.forall_update_iff s.procs
    fun q proc => proc.Tells fieldFormat (done ++ [a]) (effect.apply p s.db).recommendations q).mpr
    ⟨hself, fun q hq => (hs.procs q).frame (fun h => hq (Option.some.inj (ha.symm.trans h)).symm)
      (hmakes.undisturbed hq)⟩

/-- The rows a statement leaves: those that were there, or the one the call has flushed. -/
theorem rows_exec {before s : State} {input : Input} {call : Call} {stage : Stage} {effect : Effect}
    {proc' : Proc} (hsound : Sound s) (hs : Explained fieldFormat before s done)
    (hproc : s.procs p = .generate call stage)
    (hexec : execGenerate fieldFormat s.db p input call stage = some (effect, proc')) :
    ∀ recId row, (effect.apply p s.db).recommendations.committed recId = some row →
      s.db.recommendations.committed recId = some row ∨
        ExplainedBy fieldFormat (done ++ [.exec p input]) (s.generations ++ effect.generations)
          recId row := by
  intro recId row hrow
  have hkeeps := hsound.keeps p
  have htells := hs.procs p
  rw [hproc] at hkeeps htells
  cases execGenerate_cases hexec with
  | read | audit | refuse => exact Or.inl hrow
  | flush => exact Or.inl (LockedTable.committed_write.symm.trans hrow)
  | @commit _ xai recId' auditLog =>
    obtain ⟨⟨_, hinserts, -⟩, -⟩ := hkeeps
    obtain ⟨found, flushed, hactions, hcomes, hholds⟩ := htells
    obtain ⟨inputs, new, hfound, rfl, rfl, hexplains⟩ := hcomes.explains input
    by_cases hk : recId = new.id
    · -- the row the call has flushed
      subst hk
      have hcommitted := LockedTable.committed_commit_of_holds (hholds new rfl)
      obtain rfl : new = row := Option.some.inj (hcommitted.symm.trans hrow)
      refine Or.inr ⟨p, call, inputs, _, List.mem_append_right _ (List.mem_singleton_self _), ?_,
        rfl, hexplains⟩
      have hsplit : callActions p call inputs.toList
          = callActions p call found ++ [.exec p input] := by
        simp [callActions, ← hfound]
      rw [hsplit]
      exact (suffix_own_next hactions rfl).isInfix
    · rw [← LockedTable.committed_commit_of_not_holds fun r hr => hk (hinserts.only recId r hr)]
      exact Or.inl hrow

theorem explained_step {before s s' : State} {a : Action} (hsound : Sound s)
    (hs : Explained fieldFormat before s done) (h : step fieldFormat s a = some s') :
    Explained fieldFormat before s' (done ++ [a]) := by
  cases a with
  | start p call =>
    simp only [step] at h
    split at h <;> cases h
    next hproc =>
      refine hs.after rfl ?_ ?_ fun _ _ hrow => Or.inl hrow
      · rw [hproc]
        exact .read trivial trivial
      · exact ⟨[], none, suffix_own_first rfl, .started,
          fun _ hnone => (Option.not_mem_none _ hnone).elim⟩
  | exec p input =>
    obtain ⟨⟨effect, proc'⟩, hexec, rfl⟩ := Option.map_eq_some_iff.mp h
    cases hproc : s.procs p with
    | idle => rw [hproc] at hexec; cases hexec
    | generate call stage =>
      rw [hproc] at hexec
      have htells := hs.procs p
      rw [hproc] at htells
      refine hs.after rfl ?_ (tells_exec htells hexec) (rows_exec hsound hs hproc hexec)
      rw [hproc]
      exact execGenerate_cases hexec
  | fail p =>
    simp only [step] at h
    split at h <;> cases h
    exact hs.after rfl .refuse trivial fun _ _ hrow => Or.inl hrow

/-- What a run has committed is explained by its actions. -/
theorem explained_of_run {s t : State} {actions : List Action} (hs : s.Quiet)
    (hrun : (service fieldFormat).run s actions = some t) :
    Explained fieldFormat s t actions := by
  have hstart : Explained fieldFormat s s [] := by
    refine ⟨fun _ _ hrow => Or.inl hrow, fun p => ?_⟩
    rw [hs.idle p]
    trivial
  have hall := Machine.history_of_run
    (P := fun t done => Sound t ∧ Explained fieldFormat s t done)
    (fun _ _ _ _ h hstep => ⟨sound_step h.1 hstep, explained_step h.1 h.2 hstep⟩) []
    ⟨hs.sound, hstart⟩ hrun
  exact hall.2

/-! ### What the rows say -/

/-- The explanation and the entry say what the recommendation says. -/
structure Generation.Agrees (generation : Generation) (row : MaintenanceRecommendation) : Prop where
  analysis : generation.analysisResultId = row.analysisResultId
  pending : row.status = .EN_ATTENTE
  justification : generation.xai.strategyJustification = row.justification
  refs : generation.xai.normativeRefs = row.normativeRefs
  confidence : generation.xai.confidenceScore = row.confidence
  entity : generation.auditLog.entityId = row.id
  /-- The rule that is named in the explanation is the one in the entry, beside the strategy and the
  number of the references. -/
  rule : ∃ code name refs missing,
    generation.xai.rulesApplied = .arr [.obj [("code", .str code), ("name", .str name)]] ∧
      row.normativeRefs.len = .ok refs ∧
      generation.auditLog.newValue
        = .obj [("strategy", .str row.strategy.value), ("rule", .str code),
            ("normative_refs", .int refs), ("missing_refs", .bool missing)]

theorem Explains.agrees {call : Call} {found : Inputs} {generation : Generation}
    {row : MaintenanceRecommendation} (h : Explains fieldFormat call found generation row) :
    generation.Agrees row := by
  obtain ⟨hanalysis, analysis, -, pci, -, result, -, -, -, hxai, hrow, hlog⟩ := h
  obtain ⟨raw, hraw, hrow⟩ := bind_eq_ok_iff.mp hrow
  obtain ⟨deadline, -, hraw⟩ := bind_eq_ok_iff.mp hraw
  obtain rfl := Except.ok.inj hraw
  obtain ⟨rfl, -⟩ := store_eq_ok_iff.mp hrow
  obtain ⟨hxai, -⟩ := storeRow_eq_ok_iff.mp hxai
  obtain ⟨refs, hrefs, hlog⟩ := bind_eq_ok_iff.mp hlog
  have hlog := (Except.ok.inj hlog).symm
  constructor
  · exact hanalysis
  · rfl
  · rw [hxai]
    rfl
  · rw [hxai]
    rfl
  · rw [hxai]
    rfl
  · rw [hlog]
    rfl
  · refine ⟨result.decision.ruleCode, result.decision.ruleName, refs, result.missingNormativeRefs,
      ?_, hrefs, ?_⟩
    · rw [hxai]
      rfl
    · rw [hlog]
      rfl

/-- **Every recommendation is explained.**  Along every run from a quiet state, whatever the
retrieval and the LLM answer, a committed recommendation that was not there before waits for its
validation and has been committed by a call of the run, with an explanation and an audit entry that
say the same.  All three are computed from one result of the pipeline, on the analysis that the call
was made for, the score of the same inspection and the active rules, as the statements of the call
have found them. -/
theorem recommendations_explained {s t : State} {actions : List Action} (hs : s.Quiet)
    (hrun : (service fieldFormat).run s actions = some t) {recId : Uuid}
    {row : MaintenanceRecommendation} (hrow : t.db.recommendations.committed recId = some row) :
    s.db.recommendations.committed recId = some row ∨
      ∃ p call, ∃ found : Inputs, ∃ generation ∈ t.generations,
        callActions p call found.toList <:+: own Action.proc p actions ∧ row.id = recId ∧
        Explains fieldFormat call found generation row ∧ generation.Agrees row ∧
        generation.xai ∈ t.db.xaiExplanations ∧ generation.auditLog ∈ t.db.auditLogs := by
  obtain ⟨new, hgen, hxai, haudit, -, -⟩ : Accounts s t :=
    sound_invariant.rel_of_leads Accounts.refl Accounts.trans
      (fun _ _ _ hsound hstep => accounts_step hsound hstep) hs.sound ⟨actions, hrun⟩
  rw [hs.unrecorded, List.nil_append] at hgen
  subst hgen
  refine ((explained_of_run hs hrun).rows recId row hrow).imp_right ?_
  rintro ⟨p, call, found, generation, hmem, hactions, hid, hexplains⟩
  refine ⟨p, call, found, generation, hmem, hactions, hid, hexplains, hexplains.agrees, ?_, ?_⟩
  · rw [hxai]
    exact List.mem_append_right _ (List.mem_map_of_mem hmem)
  · rw [haudit]
    exact List.mem_append_right _ (List.mem_map_of_mem hmem)

/-- The recommendation of the first engineer. -/
theorem recommendations_explained_twoEngineers :
    ∃ t row, (service bareFields).run noRecommendations twoEngineers = some t ∧
      t.db.recommendations.committed ⟨"r1"⟩ = some row ∧
      ∃ p call, ∃ found : Inputs, ∃ generation ∈ t.generations,
        callActions p call found.toList <:+: own Action.proc p twoEngineers ∧
        Explains bareFields call found generation row ∧ generation.Agrees row := by
  have heval : ((service bareFields).run noRecommendations twoEngineers).map
      (fun t => (t.db.recommendations.committed ⟨"r1"⟩).isSome) = some true := by
    decide +kernel
  obtain ⟨t, ht, -, hsome⟩ := Machine.reachable_of_map_run quiet_noRecommendations heval
  obtain ⟨row, hrow⟩ := Option.isSome_iff_exists.mp hsome
  rcases recommendations_explained quiet_noRecommendations ht hrow with hold |
    ⟨p, call, found, generation, hmem, hactions, -, hexplains, hagrees, -⟩
  · cases hold
  · exact ⟨t, row, ht, hrow, p, call, found, generation, hmem, hactions, hexplains, hagrees⟩

end RoadVisionAI.Recommendations
