import RoadVisionAI.Engines.Equiv.FirstMatch
import RoadVisionAI.Engines.Equiv.SeededRules
import RoadVisionAI.Recommendations.Equiv.Explained
import RoadVisionAI.Workers.Equiv.AnalysisWorker

/-!
# An analysis gets its recommendation

From the images to the recommendation, with the rules of the seed: whatever `analyse` has returned,
the rule engine decides it, and what it decides passes the constraints of `xai_explanations` and
`maintenance_recommendations`, so a call that is left alone commits (`recommended`).  Other calls
may be under way, stopped anywhere, as long as they are for other analyses.  A retrieval that
raises, or texts and references that the columns do not take, is what can still prevent it.
-/

namespace RoadVisionAI.Recommendations

open Python Db RuleEngine RecommendationPipeline Transition AnalysisWorker

variable {fieldFormat : FieldFormat} {p : ℕ} {call : Call} {outputs : Outputs ℚ}

/-! ### What the seed decides can be stored -/

/-- Every rule of the seed passes the constraints, with a deadline of two years at most. -/
theorem storable_seed : ∀ seed ∈ seededTable,
    DaysCheck (.int seed.estimatedDays) ∧
      CostChecks (seed.costs.map fun cost => .finite cost.1)
        (seed.costs.map fun cost => .finite cost.2) ∧
      0 < seed.deadlineDays ∧ seed.deadlineDays ≤ 730 := by
  decide

/-- A column of costs takes the amount as it is. -/
def KeepsCost (cost : ℤ) : Prop :=
  quantizeDecimal 2 (.finite cost) = .finite cost ∧ FitsDecimal 12 2 (.finite cost)

instance : DecidablePred KeepsCost := fun _ => inferInstanceAs (Decidable (_ ∧ _))

/-- So do the columns take the amounts, the day counts and the names of the seed. -/
theorem fits_seed : ∀ seed ∈ seededTable,
    FitsDays (.int seed.estimatedDays) ∧
      (∀ cost ∈ seed.costs.toList, KeepsCost cost.1 ∧ KeepsCost cost.2) ∧
      TextAccepts seed.rule.code ∧ TextAccepts seed.rule.name := by
  decide +kernel

set_option maxRecDepth 4000 in
/-- And the templates, each by its characters. -/
theorem textAccepts_justification : ∀ seed ∈ seededTable, TextAccepts seed.justification := by
  have htexts : ∀ text ∈ [r010Justification, r020Justification, r021Justification,
      r030Justification, r031Justification, r032Justification, r040Justification,
      r041Justification, r050Justification], TextAccepts text := by
    simp only [List.forall_mem_cons]
    refine ⟨textAccepts_of_eq_ofList rfl ?_, textAccepts_of_eq_ofList rfl ?_,
      textAccepts_of_eq_ofList rfl ?_, textAccepts_of_eq_ofList rfl ?_,
      textAccepts_of_eq_ofList rfl ?_, textAccepts_of_eq_ofList rfl ?_,
      textAccepts_of_eq_ofList rfl ?_, textAccepts_of_eq_ofList rfl ?_,
      textAccepts_of_eq_ofList rfl ?_, nofun⟩ <;> decide +kernel
  intro seed hseed
  exact htexts _ (List.mem_map_of_mem (f := SeededRule.justification) hseed)

/-- The columns take what the LLM says, and what it cites, which is an array. -/
def Storable (llmGenerate : LlmGenerate) : Prop :=
  ∀ prompt fields, ReturnsObject (llmGenerate narrateSystem prompt) fields →
    TextAccepts (answerText fields) ∧ ((citedRefs fields).truthy = true →
      ∃ items, citedRefs fields = .arr items ∧ ∀ item ∈ items, jsonbAccepts item = true)

/-- What the statements of a call find when it can be served: among analyses and scores that their
keys tell apart those of the inspection, as the worker has committed them, the rules of the seed in
any order, a retrieval that does not raise, titles and answers that the columns take, and a clock
that is two years away from the end of the calendar. -/
structure Input.Serves (inspectionId : Uuid) (outputs : Outputs ℚ) (input : Input) : Prop where
  analysisKeys : (input.analysisResults.map fun analysis => analysis.row.id).Nodup
  analysis : ⟨inspectionId, outputs.analysisResult⟩ ∈ input.analysisResults
  /-- A text of a table is free of NUL. -/
  dominant : ∀ type ∈ outputs.analysisResult.dominantDamageType, TextAccepts type
  scoreKeys : (input.pciScores.map OfInspection.inspectionId).Nodup
  score : ⟨inspectionId, outputs.pciScore⟩ ∈ input.pciScores
  rules : (input.rules.filter Rule.isActive).Perm seededRules
  retrieves : ∀ query, ∃ passages, input.ragSearch query = .ok passages ∧
    ∀ passage ∈ passages, TextAccepts passage.title
  answers : Storable input.llmGenerate
  clock : (input.now + 730 * dayMicros) / dayMicros ≤ 2932896

/-- The rule of the seed that is for an analysis. -/
def ruleFor (outputs : Outputs ℚ) : SeededRule :=
  triage (PciEngine.classifyPriority outputs.pciScore.score)
    outputs.analysisResult.dominantDamageType outputs.analysisResult.totalDetections

/-- The recommendation is what the rule asks for. -/
structure Follows (seed : SeededRule) (outputs : Outputs ℚ) (now : ℕ)
    (row : MaintenanceRecommendation) : Prop where
  strategy : row.strategy = seed.strategy
  days : row.estimatedDays = .int seed.estimatedDays
  costMin : row.estimatedCostMin = seed.costs.map fun cost => .finite cost.1
  costMax : row.estimatedCostMax = seed.costs.map fun cost => .finite cost.2
  deadline : row.deadline = some ((now + seed.deadlineDays * dayMicros) / dayMicros)
  confidence : row.confidence = outputs.analysisResult.recommendationConfidence
  status : row.status = .EN_ATTENTE

theorem ruleFor_mem (outputs : Outputs ℚ) : ruleFor outputs ∈ seededTable :=
  triage_mem_seededTable ..

/-- What the worker has committed has a confidence of `[0, 1]`. -/
theorem confidenceCheck_analyse {model : ActiveModel ℚ} {damageTypes : DamageTypeTable ℚ}
    {images : List RoadImage} {analysisId : Uuid} {processingTimeMs : ℕ}
    (hconf : model.ConfInRange images)
    (h : analyse model damageTypes images analysisId processingTimeMs = .ok outputs) :
    ConfidenceCheck outputs.analysisResult.recommendationConfidence := by
  obtain ⟨-, pci, -, rfl⟩ := analyse_eq_ok_iff.mp h
  exact recommendationConfidence_mem fun found hfound => (inRange_det hconf hfound).confidence_mem

/-! ### The statements -/

/-- The row with a key that no other row has. -/
theorem scalarOneOrNone_of_nodup {α κ : Type} [DecidableEq κ] {rows : List α} {key : α → κ}
    {row : α} (hnodup : (rows.map key).Nodup) (hmem : row ∈ rows) :
    scalarOneOrNone rows (fun row' => key row' = key row) = .ok (some row) := by
  have hall : ∀ row' ∈ rows.filter fun row' => key row' = key row, row' = row := by
    intro row' hrow'
    obtain ⟨hmem', hkey⟩ := List.mem_filter.mp hrow'
    exact List.inj_on_of_nodup_map hnodup hmem' hmem (of_decide_eq_true hkey)
  have hself : row ∈ rows.filter fun row' => key row' = key row :=
    List.mem_filter.mpr ⟨hmem, decide_eq_true rfl⟩
  have hrows : rows.filter (fun row' => key row' = key row) = [row] := by
    obtain ⟨n, hn⟩ : ∃ n, rows.filter (fun row' => key row' = key row) = List.replicate n row :=
      ⟨_, List.eq_replicate_of_mem hall⟩
    have hone : n ≤ 1 := by
      have hfilter := (hnodup.of_map key).filter fun row' => decide (key row' = key row)
      rwa [hn, List.nodup_replicate] at hfilter
    rw [hn] at hself ⊢
    obtain ⟨hpos, -⟩ := List.mem_replicate.mp hself
    obtain rfl : n = 1 := by omega
    rfl
  rw [scalarOneOrNone, hrows]

theorem textAccepts_textOr {text : Option String} {default : String}
    (h : ∀ t ∈ text, TextAccepts t) (hdefault : TextAccepts default) :
    TextAccepts (textOr text default) := by
  unfold textOr
  split
  · exact hdefault
  · split_ifs
    · exact hdefault
    · exact h _ rfl

/-- The rules of the seed decide, in any order, and say nothing that a column refuses. -/
theorem evaluate_of_perm (fieldFormat : FieldFormat) {rules : List Rule}
    (h : rules.Perm seededRules)
    (hdominant : ∀ type ∈ outputs.analysisResult.dominantDamageType, TextAccepts type) :
    ∃ justification, evaluate fieldFormat rules
          (contextOf outputs.analysisResult outputs.pciScore)
        = .ok ((ruleFor outputs).decision justification) ∧ TextAccepts justification := by
  have hcodes : (rules.map Rule.code).Nodup := by
    rw [(h.map Rule.code).nodup_iff]
    decide
  rw [evaluate, ordered_eq_of_perm hcodes h]
  obtain ⟨justification, hdecision, hchars⟩ := evaluate_seededRules fieldFormat
    (contextOf outputs.analysisResult outputs.pciScore)
  refine ⟨justification, hdecision, fun hnul => ?_⟩
  have htemplate := textAccepts_justification _ (ruleFor_mem outputs)
  rcases hchars _ hnul with hc | ⟨arg, harg, hc⟩
  · exact htemplate hc
  · -- an argument: the index, the dominant type, two constants, a count
    have htext : ∀ arg ∈ templateArgs (contextOf outputs.analysisResult outputs.pciScore),
        TextAccepts arg.2.text := by
      simp only [templateArgs, List.forall_mem_cons, FormatArg.text]
      refine ⟨textAccepts_fixedPoint _ _, ?_, ?_, ?_, textAccepts_toString_int _,
        List.forall_mem_nil _⟩
      · exact textAccepts_textOr hdominant (by decide)
      · exact textAccepts_severity _
      · exact textAccepts_priority _
    exact htext arg harg hc

/-- The pipeline returns what has been decided, with references and a text that the tables take. -/
theorem runPipeline_of_serves {inspectionId : Uuid} {input : Input}
    (h : input.Serves inspectionId outputs) {ctx : AnalysisContext} {rules : List Rule}
    {decision : RuleDecision} (hdecision : evaluate fieldFormat rules ctx = .ok decision)
    (htext : TextAccepts decision.justification) :
    ∃ result, runPipeline fieldFormat input.ragSearch input.llmGenerate ctx rules = .ok result ∧
      result.decision = decision ∧
      result.agentsInvolved = ["RuleEngine", "KnowledgeRetrievalAgent", "TechnicalNarrator"] ∧
      ArrayRefs result.normativeRefs ∧ TextAccepts result.justification := by
  obtain ⟨passages, hpassages, htitles⟩ := h.retrieves (ragQuery ctx decision)
  have hfit : Fit decision passages
      (input.llmGenerate narrateSystem (narratePrompt ctx decision passages)) := by
    constructor
    · exact fun fields hread hcited => (h.answers _ fields hread.2).2 hcited
    · exact fun _ passage hpassage => htitles passage (List.mem_of_mem_take hpassage)
    · exact fun fields hread _ => (h.answers _ fields hread.2).1
    · exact fun _ => htext
  exact ⟨_, runPipeline_eq hdecision hpassages, rfl, rfl, accepted_resultOf_iff.mpr hfit⟩

/-! ### The rows -/

/-- A deadline of the seed is a date. -/
theorem deadlineOf_seed {seed : SeededRule} (hseed : seed ∈ seededTable) {now : ℕ}
    (hnow : (now + 730 * dayMicros) / dayMicros ≤ 2932896) :
    deadlineOf now (.int seed.deadlineDays)
      = .ok (some ((now + seed.deadlineDays * dayMicros) / dayMicros)) := by
  obtain ⟨-, -, hpos, hle⟩ := storable_seed seed hseed
  have hday : (0 : ℤ) < dayMicros := by decide
  have htruthy : (Json.int seed.deadlineDays).truthy = true := by
    simp only [Json.truthy]
    exact bne_iff_ne.mpr hpos.ne'
  have hdelta : timedeltaDays (.int seed.deadlineDays) = .ok (seed.deadlineDays * dayMicros) := by
    rw [timedeltaDays, if_pos]
    rw [abs_of_pos hpos]
    omega
  have hnonneg : 0 ≤ (now + seed.deadlineDays * dayMicros) / dayMicros := by positivity
  have hlast : (now + seed.deadlineDays * dayMicros) / dayMicros ≤ 2932896 := by
    refine le_trans (Int.ediv_le_ediv hday ?_) hnow
    gcongr
  rw [deadlineOf, if_pos htruthy, hdelta]
  simp only [bind, Except.bind, pure, Except.pure]
  rw [if_pos ⟨by omega, hlast⟩]

/-- A confidence of `[0, 1]` is what its column holds, and fits. -/
theorem fitsConfidence_of_check {confidence : Option ℚ} (h : ConfidenceCheck confidence) :
    FitsConfidence confidence := by
  intro x hx
  obtain ⟨hnonneg, hle⟩ := h x hx
  rw [FitsNumeric, abs_of_nonneg hnonneg]
  norm_num
  linarith

/-- What the worker has committed is what the column holds. -/
theorem quantizeConfidence_analyse {model : ActiveModel ℚ} {damageTypes : DamageTypeTable ℚ}
    {images : List RoadImage} {analysisId : Uuid} {processingTimeMs : ℕ}
    (h : analyse model damageTypes images analysisId processingTimeMs = .ok outputs) :
    quantizeConfidence outputs.analysisResult.recommendationConfidence
      = outputs.analysisResult.recommendationConfidence := by
  obtain ⟨-, pci, -, rfl⟩ := analyse_eq_ok_iff.mp h
  exact quantize_recommendationConfidence _

/-- The amounts of the seed are what their columns hold. -/
theorem map_quantizeDecimal {costs : Option (ℤ × ℤ)} {bound : ℤ × ℤ → ℤ}
    (h : ∀ cost ∈ costs.toList, KeepsCost (bound cost)) :
    (costs.map fun cost => PyDecimal.finite (bound cost)).map (quantizeDecimal 2)
      = costs.map fun cost => .finite (bound cost) := by
  cases costs with
  | none => rfl
  | some cost =>
    have hkeeps := (h cost (List.mem_singleton_self _)).1
    simp only [Option.map_some, hkeeps]

theorem fitsDecimal_of_mem {costs : Option (ℤ × ℤ)} {bound : ℤ × ℤ → ℤ}
    (h : ∀ cost ∈ costs.toList, KeepsCost (bound cost)) :
    ∀ cost ∈ (costs.map fun cost => PyDecimal.finite (bound cost)).toList,
      FitsDecimal 12 2 cost := by
  cases costs with
  | none => exact nofun
  | some cost =>
    intro amount hamount
    obtain rfl := List.mem_singleton.mp hamount
    exact (h cost (List.mem_singleton_self _)).2

section

variable {result : PipelineResult} {justification : String}
  (hdecision : result.decision = (ruleFor outputs).decision justification)
  (hrefs : ArrayRefs result.normativeRefs)
include hdecision hrefs

/-- The columns take the entry. -/
theorem exists_auditOf (recId actorId : Uuid) :
    ∃ auditLog, auditOf recId actorId result = .ok auditLog ∧ auditLog.Fits := by
  obtain ⟨-, -, hcode, -⟩ := fits_seed _ (ruleFor_mem outputs)
  obtain ⟨n, hn⟩ := hrefs.1
  refine ⟨_, bind_eq_ok_iff.mpr ⟨n, hn, rfl⟩, ?_⟩
  have hkeys : TextAccepts "strategy" ∧ TextAccepts "rule" ∧ TextAccepts "normative_refs" ∧
      TextAccepts "missing_refs" := by decide
  rw [hdecision]
  simp [AuditLog.Fits, SeededRule.decision, jsonbAccepts, jsonbAcceptsFields, hkeys, hcode,
    textAccepts_strategy]

variable (htext : TextAccepts result.justification)
  (hconf : ConfidenceCheck outputs.analysisResult.recommendationConfidence)
  (hquantize : quantizeConfidence outputs.analysisResult.recommendationConfidence
    = outputs.analysisResult.recommendationConfidence)
include htext hconf hquantize

/-- The row passes the constraints, and its columns hold it as it is. -/
theorem exists_recommendationOf {now : ℕ} (hnow : (now + 730 * dayMicros) / dayMicros ≤ 2932896)
    (id analysisResultId : Uuid) (createdAt : ℕ) :
    ∃ row, recommendationOf id analysisResultId now createdAt outputs.analysisResult result
        = .ok row ∧ row.store = .ok row ∧ row.analysisResultId = analysisResultId ∧
      Follows (ruleFor outputs) outputs now row := by
  obtain ⟨hdays, hcosts, -⟩ := storable_seed _ (ruleFor_mem outputs)
  obtain ⟨hfitsDays, hkeeps, -⟩ := fits_seed _ (ruleFor_mem outputs)
  have hdeadline : deadlineOf now result.decision.deadlineDays
      = .ok (some ((now + (ruleFor outputs).deadlineDays * dayMicros) / dayMicros)) := by
    rw [hdecision]
    exact deadlineOf_seed (ruleFor_mem outputs) hnow
  refine ⟨_, bind_eq_ok_iff.mpr ⟨_, hdeadline, rfl⟩, ?_, rfl, ?_⟩
  · have hmin := fun cost hcost => (hkeeps cost hcost).1
    have hmax := fun cost hcost => (hkeeps cost hcost).2
    obtain ⟨hjsonb, htype⟩ := hrefs.2
    rw [hdecision]
    simp only [MaintenanceRecommendation.store, storeRow_eq_ok_iff,
      MaintenanceRecommendation.quantize, SeededRule.decision, map_quantizeDecimal hmin,
      map_quantizeDecimal hmax, hquantize, true_and]
    refine ⟨⟨fitsConfidence_of_check hconf, ?_, hfitsDays, hjsonb, htext⟩, hconf, hcosts, hdays,
      htype⟩
    exact List.forall_mem_append.mpr ⟨fitsDecimal_of_mem hmin, fitsDecimal_of_mem hmax⟩
  · constructor <;> first | rfl | rw [hdecision]; rfl

/-- So does the explanation. -/
theorem exists_xaiOf (id : Uuid)
    (hagents : result.agentsInvolved
      = ["RuleEngine", "KnowledgeRetrievalAgent", "TechnicalNarrator"])
    (hdominant : ∀ type ∈ outputs.analysisResult.dominantDamageType, TextAccepts type) :
    ∃ xai, (xaiOf id outputs.analysisResult (contextOf outputs.analysisResult outputs.pciScore)
      result).store = .ok xai := by
  obtain ⟨-, -, hcode, hname⟩ := fits_seed _ (ruleFor_mem outputs)
  obtain ⟨hjsonb, htype⟩ := hrefs.2
  set ctx := contextOf outputs.analysisResult outputs.pciScore with hctx
  refine ⟨_, storeRow_eq_ok_iff.mpr ⟨rfl, ⟨?_, ?_, ?_, htext⟩, ?_, rfl, htype, rfl, rfl⟩⟩
  · rw [XaiExplanation.quantize, xaiOf, hquantize]
    exact fitsConfidence_of_check hconf
  · simp only [XaiExplanation.quantize, xaiOf, List.forall_mem_cons]
    refine ⟨?_, hjsonb, ?_, ?_, nofun⟩
    · have hkeys : TextAccepts "code" ∧ TextAccepts "name" := by decide
      rw [hdecision]
      simp [SeededRule.decision, jsonbAccepts, jsonbAcceptsItems, jsonbAcceptsFields, hcode, hname,
        hkeys]
    · have hkeys : TextAccepts "pci" ∧ TextAccepts "severity" ∧ TextAccepts "priority" ∧
          TextAccepts "dominant_type" ∧ TextAccepts "detections" := by decide
      have htyped : jsonbAccepts (ctx.dominantDamageType.elim .null .str) = true := by
        cases hcase : ctx.dominantDamageType with
        | none => rfl
        | some type => exact decide_eq_true (hdominant type hcase)
      simp [jsonbAccepts, jsonbAcceptsFields, hkeys, htyped, textAccepts_severity,
        textAccepts_priority]
    · rw [hagents]
      decide
  · have hsplit : (xaiOf id outputs.analysisResult ctx result).quantize.severityJustification
        = "PCI " ++ fixedPoint ctx.pci 2 ++ " classé " ++ ctx.severityLevel.value ++ " " ++
          ("(priorité " ++ ctx.priorityLevel.value ++ ").") := rfl
    rw [hsplit]
    simp only [textAccepts_append, textAccepts_fixedPoint, textAccepts_severity,
      textAccepts_priority]
    decide
  · rw [XaiExplanation.quantize, xaiOf, hquantize]
    exact hconf

end

/-! ### The run -/

/-- One statement, and then the rest of the run. -/
theorem exists_run_exec {s : State} {stage : Stage} {input : Input} {effect : Effect}
    {proc' : Proc} {actions : List Action} {Q : State → Prop}
    (hproc : s.procs p = .generate call stage)
    (hexec : execGenerate fieldFormat s.db p input call stage = some (effect, proc'))
    (h : ∃ t, (service fieldFormat).run (s.after p effect proc') actions = some t ∧ Q t) :
    ∃ t, (service fieldFormat).run s (.exec p input :: actions) = some t ∧ Q t := by
  obtain ⟨t, hrun, hQ⟩ := h
  refine ⟨t, Machine.run_cons_eq_some_iff.mpr ⟨_, ?_, hrun⟩, hQ⟩
  show ((exec fieldFormat s.db p input (s.procs p)).map _) = _
  rw [hproc, exec, hexec]
  rfl

@[simp]
theorem State.procs_after_self (s : State) (effect : Effect) (proc : Proc) :
    (s.after p effect proc).procs p = proc :=
  Function.update_self ..

/-- Nobody has a row for the analysis, committed or flushed: the check passes. -/
theorem select_eq_nil {table : LockedTable Uuid MaintenanceRecommendation} {analysisResultId : Uuid}
    (hnone : LockedTable.EveryVersion (fun _ row => row.analysisResultId ≠ analysisResultId)
      table) :
    table.select p (fun row => row.analysisResultId = analysisResultId) = [] := by
  rw [LockedTable.select, List.filter_eq_nil_iff]
  rintro k - hany
  obtain ⟨row, hrow, hfor⟩ := Option.any_eq_true _ _ |>.mp hany
  exact hnone.visible hrow (of_decide_eq_true hfor)

/-- And so does the index. -/
theorem admits_of_everyVersion {table : LockedTable Uuid MaintenanceRecommendation}
    {analysisResultId : Uuid} {row : MaintenanceRecommendation}
    (hnone : LockedTable.EveryVersion (fun _ row => row.analysisResultId ≠ analysisResultId) table)
    (hrow : row.analysisResultId = analysisResultId) (k : Uuid) :
    table.Admits recAnalysis p k row := by
  have hconflict : ∀ row', LockedTable.Conflict recAnalysis row row' →
      row'.analysisResultId = analysisResultId := by
    rintro row' ⟨key, hkey, hkey'⟩
    rw [← hrow]
    exact Option.some.inj (hkey'.trans hkey.symm)
  refine fun j _ _ => ⟨fun row' hvisible hconf => ?_, fun w hpending _ hconf => ?_⟩
  · exact hnone.visible hvisible (hconflict row' hconf)
  · exact hnone j w.2 (Or.inr ⟨w.1, hpending⟩) (hconflict w.2 hconf)

/-- The run of a call, by what its statements return. -/
theorem exists_run_generate {s : State} (hidle : s.procs p = .idle) {found : Inputs}
    {analysis : OfInspection (AnalysisResult ℚ)} {pci : OfInspection (PciScore ℚ)}
    {result : PipelineResult} {xai : XaiExplanation} {row stored : MaintenanceRecommendation}
    {auditLog : AuditLog}
    (hanalysis : scalarOneOrNone found.analysis.analysisResults
      (fun analysis => analysis.row.id = call.analysisResultId) = .ok (some analysis))
    (hselect : s.db.recommendations.select p
      (fun row => row.analysisResultId = call.analysisResultId) = [])
    (hpci : scalarOneOrNone found.score.pciScores
      (fun pci => pci.inspectionId = analysis.inspectionId) = .ok (some pci))
    (hresult : runPipeline fieldFormat found.pipeline.ragSearch found.pipeline.llmGenerate
      (contextOf analysis.row pci.row) (found.rules.rules.filter Rule.isActive) = .ok result)
    (hxai : (xaiOf found.xai.id analysis.row (contextOf analysis.row pci.row) result).store
      = .ok xai)
    (hrow : recommendationOf found.recommendation.id call.analysisResultId found.recommendation.now
      found.recommendation.createdAt analysis.row result = .ok row)
    (hstored : row.store = .ok stored)
    (hinsert : found.recommendation.id ∉ s.db.recommendations.keys ∧
      s.db.recommendations.Admits recAnalysis p found.recommendation.id stored)
    (haudit : auditOf found.recommendation.id call.actorId result = .ok auditLog)
    (hfits : auditLog.Fits) :
    ∃ t, (service fieldFormat).run s (callActions p call found.toList) = some t ∧
      t.procs p = .idle ∧ t.db.recommendations.committed found.recommendation.id = some stored := by
  have hstart : (service fieldFormat).step s (.start p call)
      = some (s.after p .none (.generate call .started)) := by
    simp only [service, step, hidle]
  suffices h : ∃ t, (service fieldFormat).run (s.after p .none (.generate call .started))
      (found.toList.map (.exec p)) = some t ∧ t.procs p = .idle ∧
        t.db.recommendations.committed found.recommendation.id = some stored by
    obtain ⟨t, hrun, hend⟩ := h
    exact ⟨t, Machine.run_cons_eq_some_iff.mpr ⟨_, hstart, hrun⟩, hend⟩
  -- the reads
  refine exists_run_exec (State.procs_after_self ..) (by rw [execGenerate, hanalysis]) ?_
  refine exists_run_exec (State.procs_after_self ..) (if_pos hselect) ?_
  refine exists_run_exec (State.procs_after_self ..) (by rw [execGenerate, hpci]) ?_
  refine exists_run_exec (State.procs_after_self ..) rfl ?_
  refine exists_run_exec (State.procs_after_self ..) (by rw [execGenerate, hresult]) ?_
  -- the flushes
  refine exists_run_exec (State.procs_after_self ..) (by rw [execGenerate, hxai]) ?_
  refine exists_run_exec (State.procs_after_self ..)
    (by rw [execGenerate, hrow]; simp only [hstored]; exact if_pos hinsert) ?_
  refine exists_run_exec (State.procs_after_self ..)
    (by rw [execGenerate, haudit]; exact if_pos hfits) ?_
  refine exists_run_exec (State.procs_after_self ..) rfl ?_
  exact ⟨_, rfl, State.procs_after_self ..,
    LockedTable.committed_commit_of_holds LockedTable.holds_write_self⟩

/-- **An analysis gets its recommendation.**  For every non-empty list of images, every prediction
with confidences in `[0, 1]` and every reference table, a call for what the analysis has returned
that starts in any state, and is left alone, commits the recommendation of the rule of the seed for
it, provided nobody else has flushed one for the same analysis. -/
theorem recommended {s : State} (hidle : s.procs p = .idle)
    (hnone : LockedTable.EveryVersion
      (fun _ row => row.analysisResultId ≠ call.analysisResultId) s.db.recommendations)
    {model : ActiveModel ℚ} {damageTypes : DamageTypeTable ℚ} {images : List RoadImage}
    {processingTimeMs : ℕ} (hconf : model.ConfInRange images)
    (houtputs : analyse model damageTypes images call.analysisResultId processingTimeMs
      = .ok outputs)
    {inspectionId : Uuid} {found : Inputs}
    (hserves : ∀ input ∈ found.toList, input.Serves inspectionId outputs)
    (hfresh : found.recommendation.id ∉ s.db.recommendations.keys) :
    ∃ t row, (service fieldFormat).run s (callActions p call found.toList) = some t ∧
      t.procs p = .idle ∧ t.db.recommendations.committed found.recommendation.id = some row ∧
      row.analysisResultId = call.analysisResultId ∧
      Follows (ruleFor outputs) outputs found.recommendation.now row := by
  have hanalysis := hserves found.analysis (by simp [Inputs.toList])
  have hscore := hserves found.score (by simp [Inputs.toList])
  have hrules := hserves found.rules (by simp [Inputs.toList])
  have hconfidence := confidenceCheck_analyse hconf houtputs
  have hquantize := quantizeConfidence_analyse houtputs
  have hid : outputs.analysisResult.id = call.analysisResultId := by
    obtain ⟨-, pci, -, rfl⟩ := analyse_eq_ok_iff.mp houtputs
    rfl
  obtain ⟨justification, hdecision, htext⟩ :=
    evaluate_of_perm fieldFormat hrules.rules hrules.dominant
  obtain ⟨result, hresult, hdecided, hagents, hrefs, htext⟩ :=
    runPipeline_of_serves (hserves found.pipeline (by simp [Inputs.toList])) hdecision htext
  obtain ⟨xai, hxai⟩ := exists_xaiOf hdecided hrefs htext hconfidence hquantize found.xai.id hagents
    hrules.dominant
  obtain ⟨row, hrow, hstored, hfor, hfollows⟩ := exists_recommendationOf hdecided hrefs htext
    hconfidence hquantize (hserves found.recommendation (by simp [Inputs.toList])).clock
    found.recommendation.id call.analysisResultId found.recommendation.createdAt
  obtain ⟨auditLog, haudit, hfits⟩ :=
    exists_auditOf hdecided hrefs found.recommendation.id call.actorId
  obtain ⟨t, hrun, hdone, hcommitted⟩ := exists_run_generate hidle
    (hid ▸ scalarOneOrNone_of_nodup hanalysis.analysisKeys hanalysis.analysis)
    (select_eq_nil hnone) (scalarOneOrNone_of_nodup hscore.scoreKeys hscore.score) hresult hxai hrow
    hstored ⟨hfresh, admits_of_everyVersion hnone hfor _⟩ haudit hfits
  exact ⟨t, row, hrun, hdone, hcommitted, hfor, hfollows⟩

/-- What a call finds after the analysis: the seed, no passage, and an LLM that fails. -/
def servedInput (outputs : Outputs ℚ) : Input where
  analysisResults := [⟨⟨"i1"⟩, outputs.analysisResult⟩]
  pciScores := [⟨⟨"i1"⟩, outputs.pciScore⟩]
  rules := seededRules
  ragSearch := fun _ => .ok []
  llmGenerate := explodingLlm
  now := 0
  createdAt := 0
  id := ⟨"r1"⟩

theorem serves_servedInput {outputs : Outputs ℚ}
    (hdominant : ∀ type ∈ outputs.analysisResult.dominantDamageType, TextAccepts type) :
    (servedInput outputs).Serves ⟨"i1"⟩ outputs where
  analysisKeys := List.nodup_singleton _
  analysis := List.mem_singleton_self _
  dominant := hdominant
  scoreKeys := List.nodup_singleton _
  score := List.mem_singleton_self _
  rules := by
    have hactive : ∀ rule ∈ seededRules, rule.isActive = true := by decide
    show (seededRules.filter Rule.isActive).Perm seededRules
    rw [List.filter_eq_self.mpr hactive]
  retrieves _ := ⟨[], rfl, nofun⟩
  answers := by
    rintro prompt fields ⟨raw, hraw, -⟩
    cases hraw
  clock := by
    show (((0 : ℕ) : ℤ) + 730 * dayMicros) / dayMicros ≤ 2932896
    decide

/-- The same input for every statement. -/
def Inputs.always (input : Input) : Inputs :=
  ⟨input, input, input, input, input, input, input, input, input⟩

/-- The potholes of one image, and their recommendation. -/
theorem recommended_pothole :
    ∃ outputs, analyse potholeModel potholeTable [⟨⟨"img-1"⟩, 1⟩] ⟨"a1"⟩ 900 = .ok outputs ∧
      ∃ t row, (service bareFields).run noRecommendations
          (callActions 1 ⟨⟨"a1"⟩, ⟨"u1"⟩⟩ (Inputs.always (servedInput outputs)).toList) = some t ∧
        t.procs 1 = .idle ∧ t.db.recommendations.committed ⟨"r1"⟩ = some row ∧
        row.analysisResultId = ⟨"a1"⟩ ∧ Follows (ruleFor outputs) outputs 0 row := by
  have hconf : potholeModel.ConfInRange [⟨⟨"img-1"⟩, 1⟩] := by
    unfold ActiveModel.ConfInRange
    decide +kernel
  have hdominant : ∀ outputs ∈
      (analyse potholeModel potholeTable [⟨⟨"img-1"⟩, 1⟩] ⟨"a1"⟩ 900).toOption,
      ∀ type ∈ outputs.analysisResult.dominantDamageType, TextAccepts type := by
    decide +kernel
  obtain ⟨outputs, houtputs⟩ : ∃ outputs,
      analyse potholeModel potholeTable [⟨⟨"img-1"⟩, 1⟩] ⟨"a1"⟩ 900 = .ok outputs :=
    ⟨_, analyse_eq_ok_iff.mpr ⟨by decide, _,
      PciEngine.computePci_eq (by decide) (valid_pciInput hconf), rfl⟩⟩
  rw [houtputs] at hdominant
  have hserves : ∀ input ∈ (Inputs.always (servedInput outputs)).toList,
      input.Serves ⟨"i1"⟩ outputs := by
    intro input hinput
    obtain rfl : input = servedInput outputs := by simpa [Inputs.toList, Inputs.always] using hinput
    exact serves_servedInput (hdominant outputs rfl)
  exact ⟨outputs, houtputs, recommended rfl .empty hconf houtputs hserves List.not_mem_nil⟩

end RoadVisionAI.Recommendations
