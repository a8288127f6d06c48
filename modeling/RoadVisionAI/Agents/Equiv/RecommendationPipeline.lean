import RoadVisionAI.Agents.RecommendationPipeline
import RoadVisionAI.Db.Equiv.Columns
import RoadVisionAI.Engines.Equiv.RuleEngine

/-!
# What the LLM can and cannot change in a recommendation

All the narrator keeps of the LLM's outcome is `usableAnswer`: the fields of a JSON object whose
justification is absent or a string.  `runPipeline_eq` computes the result of a run from the rule's
decision, the passages and that answer.  From it:

* `llm_cannot_influence`: decision, passages, flag and agents do not depend on the LLM, and an
  outcome that is not a usable object leaves the result of a run without LLM;
* `missing_iff`: the flag of rule #6 is set exactly when there are no passages, exactly when there
  are no references;
* `accepted_iff_fit`: the tables take the references and the justification exactly when what a
  usable object says and cites is fit for them, and so is what stands in for it;
* `refs_titled_iff`: the references name retrieved passages exactly when what a usable object cites
  does.
-/

namespace RoadVisionAI.RecommendationPipeline

open Python Db RuleEngine

/-! ### The answer that is kept -/

/-- The fields of a JSON object whose justification is absent or a string. -/
def usableFields (parsed : Json) : Option Fields :=
  match parsed with
  | .obj fields =>
    match (fields.lookup "justification").getD (.str "") with
    | .str _ => some fields
    | _ => none
  | _ => none

/-- The fields of the LLM's answer, when they are usable; every other outcome degrades to the
rule's justification and the passages. -/
def usableAnswer (outcome : Except PyException String) : Option Fields :=
  match outcome with
  | .error _ => none
  | .ok raw =>
    match loads raw with
    | .error _ => none
    | .ok parsed => usableFields parsed

/-- The justification of an answer, blanks trimmed. -/
def answerText (fields : Fields) : String :=
  match (fields.lookup "justification").getD (.str "") with
  | .str justification => strip justification
  | _ => ""

/-- What the answer cites; any JSON value. -/
def citedRefs (fields : Fields) : Json := (fields.lookup "cited_refs").getD (.arr [])

/-- The references kept when the LLM is of no help. -/
def fallbackRefs (passages : List Passage) : Json := .arr ((passages.take 2).map Passage.ref)

theorem truthy_fallbackRefs {passages : List Passage} (h : passages ≠ []) :
    (fallbackRefs passages).truthy = true := by
  cases passages with
  | nil => exact absurd rfl h
  | cons p ps => simp [fallbackRefs, Json.truthy]

theorem readAnswer_of_usable {parsed : Json} {fields : Fields}
    (h : usableFields parsed = some fields) (fallback : Json) :
    readAnswer parsed fallback = .ok (answerText fields, (citedRefs fields).orElse fallback) := by
  unfold usableFields at h
  split at h
  next =>
    split at h
    next s hjust =>
      obtain rfl := Option.some.inj h
      simp only [readAnswer, answerText, citedRefs, hjust]
    next => cases h
  next => cases h

theorem readAnswer_of_not_usable {parsed : Json} (h : usableFields parsed = none)
    (fallback : Json) : ∃ exc, readAnswer parsed fallback = .error exc := by
  cases parsed with
  | obj fields =>
    unfold usableFields at h
    unfold readAnswer
    cases hjust : (fields.lookup "justification").getD (.str "") with
    | str s => simp only [hjust, reduceCtorEq] at h
    | _ => simp only [hjust]; exact ⟨_, rfl⟩
  | _ => exact ⟨_, rfl⟩

theorem narration_of_usable {llmGenerate : LlmGenerate} {prompt : String} {fields : Fields}
    (h : usableAnswer (llmGenerate narrateSystem prompt) = some fields) (fallback : Json) :
    narration llmGenerate prompt fallback
      = .ok (answerText fields, (citedRefs fields).orElse fallback) := by
  unfold usableAnswer at h
  unfold narration
  split at h
  next => cases h
  next raw hraw =>
    split at h
    next => cases h
    next parsed hparsed =>
      simp only [hraw, hparsed, bind, Except.bind]
      exact readAnswer_of_usable h fallback

theorem narration_of_not_usable {llmGenerate : LlmGenerate} {prompt : String}
    (h : usableAnswer (llmGenerate narrateSystem prompt) = none) (fallback : Json) :
    ∃ exc, narration llmGenerate prompt fallback = .error exc := by
  unfold usableAnswer at h
  unfold narration
  split at h
  next exc hexc => exact ⟨exc, by simp only [hexc, bind, Except.bind]⟩
  next raw hraw =>
    simp only [hraw, bind, Except.bind]
    split at h
    next exc hexc => exact ⟨exc, by simp only [hexc]⟩
    next parsed hparsed =>
      simp only [hparsed]
      exact readAnswer_of_not_usable h fallback

/-- The `try` statement, whatever the LLM returned or raised. -/
theorem narrationOrRule_eq (llmGenerate : LlmGenerate) (prompt : String) (decision : RuleDecision)
    (fallback : Json) :
    narrationOrRule llmGenerate prompt decision fallback
      = match usableAnswer (llmGenerate narrateSystem prompt) with
        | some fields => (answerText fields, (citedRefs fields).orElse fallback)
        | none => (decision.justification, fallback) := by
  unfold narrationOrRule
  cases h : usableAnswer (llmGenerate narrateSystem prompt) with
  | some fields => rw [narration_of_usable h fallback]
  | none =>
    obtain ⟨exc, hexc⟩ := narration_of_not_usable h fallback
    rw [hexc]
    -- the two `except` clauses do the same
    cases exc <;> rfl

/-- The LLM returned the text of a JSON object with these fields, whose justification is absent or
a string. -/
def ReturnsObject (outcome : Except PyException String) (fields : Fields) : Prop :=
  ∃ raw, outcome = .ok raw ∧ loads raw = .ok (.obj fields) ∧
    ∀ v, fields.lookup "justification" = some v → ∃ s, v = .str s

theorem usableFields_eq_some_iff {parsed : Json} {fields : Fields} :
    usableFields parsed = some fields ↔ parsed = .obj fields ∧
      ∀ v, fields.lookup "justification" = some v → ∃ s, v = .str s := by
  unfold usableFields
  cases parsed with
  | obj fields' =>
    cases hjust : fields'.lookup "justification" with
    | none =>
      simp only [hjust, Option.getD_none, Option.some.injEq, Json.obj.injEq]
      constructor
      · rintro rfl
        exact ⟨rfl, fun v hv => by rw [hjust] at hv; cases hv⟩
      · exact fun h => h.1
    | some v =>
      simp only [hjust, Option.getD_some, Json.obj.injEq]
      constructor
      · intro h
        cases v with
        | str s =>
          obtain rfl := Option.some.inj h
          exact ⟨rfl, fun w hw => ⟨s, by rw [hjust] at hw; exact (Option.some.inj hw).symm⟩⟩
        | _ => cases h
      · rintro ⟨rfl, hstr⟩
        obtain ⟨s, rfl⟩ := hstr v hjust
        rfl
  | _ => simp

theorem usableAnswer_eq_some_iff {outcome : Except PyException String} {fields : Fields} :
    usableAnswer outcome = some fields ↔ ReturnsObject outcome fields := by
  unfold usableAnswer ReturnsObject
  cases outcome with
  | error exc => simp
  | ok raw =>
    cases hparsed : loads raw with
    | error exc => simp [hparsed]
    | ok parsed => simp [hparsed, usableFields_eq_some_iff]

theorem usableAnswer_eq_none {outcome : Except PyException String}
    (h : ¬ ∃ fields, ReturnsObject outcome fields) : usableAnswer outcome = none := by
  rw [Option.eq_none_iff_forall_ne_some]
  exact fun fields hfields => h ⟨fields, usableAnswer_eq_some_iff.mp hfields⟩

theorem usableAnswer_of_loads {outcome : Except PyException String} {raw : String} {fields : Fields}
    (houtcome : outcome = .ok raw) (h : loads raw = .ok (.obj fields))
    (hfields : usableFields (.obj fields) = some fields) : usableAnswer outcome = some fields := by
  simp only [usableAnswer, houtcome, h, hfields]

/-! ### The result of a run -/

/-- The justification and the references of a run that found passages. -/
def narrated (decision : RuleDecision) (passages : List Passage) (answer : Option Fields) :
    String × Json :=
  match answer with
  | some fields =>
    (if answerText fields = "" then decision.justification else answerText fields,
      (citedRefs fields).orElse (fallbackRefs passages))
  | none => (decision.justification, fallbackRefs passages)

/-- The result of a run, from the decision, the passages and the answer kept. -/
def resultOf (decision : RuleDecision) (passages : List Passage) (answer : Option Fields) :
    PipelineResult where
  decision := decision
  justification :=
    if passages.isEmpty then decision.justification else (narrated decision passages answer).1
  normativeRefs := if passages.isEmpty then .arr [] else (narrated decision passages answer).2
  passages := passages
  missingNormativeRefs := passages.isEmpty
  agentsInvolved := ["RuleEngine", "KnowledgeRetrievalAgent", "TechnicalNarrator"]

theorem truthy_narrated (decision : RuleDecision) {passages : List Passage} (h : passages ≠ [])
    (answer : Option Fields) : (narrated decision passages answer).2.truthy = true := by
  cases answer with
  | some fields => exact Json.truthy_orElse (truthy_fallbackRefs h)
  | none => exact truthy_fallbackRefs h

theorem justification_narrated_ne {decision : RuleDecision} (passages : List Passage)
    (answer : Option Fields) (h : decision.justification ≠ "") :
    (narrated decision passages answer).1 ≠ "" := by
  cases answer with
  | none => exact h
  | some fields =>
    simp only [narrated]
    split_ifs with htext
    · exact h
    · exact htext

variable {fieldFormat : FieldFormat} {ragSearch : RagSearch} {llmGenerate : LlmGenerate}
  {ctx : AnalysisContext} {rules : List Rule}

/-- **The result of `run_pipeline`.**  Once the rule engine has decided and the retrieval has
answered, the run returns, and the LLM's outcome matters only through `usableAnswer`. -/
theorem runPipeline_eq {decision : RuleDecision} {passages : List Passage}
    (hdecision : evaluate fieldFormat rules ctx = .ok decision)
    (hpassages : ragSearch (ragQuery ctx decision) = .ok passages) :
    runPipeline fieldFormat ragSearch llmGenerate ctx rules
      = .ok (resultOf decision passages
          (usableAnswer (llmGenerate narrateSystem (narratePrompt ctx decision passages)))) := by
  -- one fact for each node of the graph
  have hrule : ruleNode fieldFormat { ctx, rules } = .ok { ctx, rules, decision } := by
    simp [ruleNode, hdecision, bind, Except.bind, pure, Except.pure]
  have hretrieve : retrieveNode ragSearch { ctx, rules, decision }
      = .ok { ctx, rules, decision, passages } := by
    simp [retrieveNode, require, hpassages, bind, Except.bind, pure, Except.pure]
  have hfinal : invoke fieldFormat ragSearch llmGenerate { ctx, rules }
      = narrateNode llmGenerate { ctx, rules, decision, passages } := by
    simp [invoke, hrule, hretrieve, bind, Except.bind, pure, Except.pure]
    cases narrateNode llmGenerate { ctx, rules, decision, passages } <;> rfl
  cases passages with
  | nil =>
    -- the narrator returns before the LLM is called
    simp [runPipeline, hfinal, narrateNode, require, resultOf, Json.orElse, Json.truthy, bind,
      Except.bind, pure, Except.pure]
  | cons p ps =>
    set answer := usableAnswer (llmGenerate narrateSystem (narratePrompt ctx decision (p :: ps)))
      with hanswer
    have htruthy := truthy_narrated decision (List.cons_ne_nil p ps) answer
    have hnarrate : narrateNode llmGenerate { ctx, rules, decision, passages := some (p :: ps) }
        = .ok {
            ctx, rules, decision
            passages := some (p :: ps)
            justification := some (narrated decision (p :: ps) answer).1
            citedRefs := some (narrated decision (p :: ps) answer).2
            missingNormativeRefs := some false } := by
      simp only [narrateNode, require, Option.elim_some, bind, Except.bind, List.isEmpty_cons,
        Bool.false_eq_true, if_false, narrationOrRule_eq, ← hanswer, pure, Except.pure]
      cases answer with
      | some fields => rfl
      | none => simp [narrated, fallbackRefs]
    simp [runPipeline, hfinal, hnarrate, require, resultOf, Json.orElse_of_truthy htruthy, bind,
      Except.bind, pure, Except.pure]

/-- A run that returns has a decision of the rule engine and an answer of the retrieval. -/
theorem eq_resultOf_of_runPipeline_eq_ok {r : PipelineResult}
    (h : runPipeline fieldFormat ragSearch llmGenerate ctx rules = .ok r) :
    ∃ decision passages, evaluate fieldFormat rules ctx = .ok decision
      ∧ ragSearch (ragQuery ctx decision) = .ok passages
      ∧ r = resultOf decision passages
          (usableAnswer (llmGenerate narrateSystem (narratePrompt ctx decision passages))) := by
  cases hdecision : evaluate fieldFormat rules ctx with
  | error exc =>
    simp [runPipeline, invoke, ruleNode, hdecision, bind, Except.bind] at h
  | ok decision =>
    cases hpassages : ragSearch (ragQuery ctx decision) with
    | error exc =>
      simp [runPipeline, invoke, ruleNode, retrieveNode, require, hdecision, hpassages, bind,
        Except.bind, pure, Except.pure] at h
    | ok passages =>
      rw [runPipeline_eq hdecision hpassages] at h
      exact ⟨decision, passages, rfl, hpassages, (Except.ok.inj h).symm⟩

/-! ### A run to try things on -/

/-- The placeholders of the sample's templates are bare names. -/
def bareFields : FieldFormat := fun arg _ => .ok arg.text

/-- A road in fair condition with longitudinal cracks. -/
def crackedRoad : AnalysisContext where
  pci := 60
  severityLevel := .MODERE
  priorityLevel := .P2_PLANIFIE
  dominantDamageType := some "LONGITUDINAL_CRACK"
  totalDetections := 4

/-- The rule that answers it. -/
def sealingRule : Rule where
  code := "R040"
  name := "Colmatage des fissures"
  condition := "\x7b\"pci_min\": 55, \"pci_max\": 70\x7d"
  action := "\x7b\"strategy\": \"COLMATAGE\", \"justification\": \"Règle \x7bcode\x7d : PCI \x7bpci\x7d\"\x7d"
  priority := 40
  isActive := true

def standardPassage : Passage where
  text := "Le colmatage des fissures longitudinales doit intervenir sous 120 jours."
  title := "Norme entretien DGR"
  pageStart := 12
  pageEnd := 13

/-- A retrieval that finds one passage. -/
def oneHit : RagSearch := fun _ => .ok [standardPassage]

/-- An LLM that cites the passage. -/
def faithfulLlm : LlmGenerate := fun _ _ =>
  .ok "\x7b\"justification\": \"Voir p. 12.\", \"cited_refs\": [\x7b\"title\": \"Norme entretien DGR\", \"page\": \"12\"\x7d]\x7d"

/-- An LLM that fails. -/
def explodingLlm : LlmGenerate := fun _ _ => .error (.runtimeError "429 quota exceeded")

/-- The fields of its answer. -/
def faithfulFields : Fields :=
  [("justification", .str "Voir p. 12."),
   ("cited_refs", .arr [.obj [("title", .str "Norme entretien DGR"), ("page", .str "12")]])]

theorem eq_faithfulFields {prompt : String} {fields : Fields}
    (h : ReturnsObject (faithfulLlm narrateSystem prompt) fields) : fields = faithfulFields := by
  have hanswer : usableAnswer (faithfulLlm narrateSystem prompt) = some faithfulFields :=
    usableAnswer_of_loads rfl (loads_eq_ok_of_chars rfl (by decide) (by decide)) rfl
  rw [← usableAnswer_eq_some_iff, hanswer] at h
  exact (Option.some.inj h).symm

/-- What it decides. -/
def sealingDecision : RuleDecision where
  strategy := .COLMATAGE
  ruleCode := "R040"
  ruleName := "Colmatage des fissures"
  justification := "Règle R040 : PCI 60.00"

theorem evaluate_sealingRule :
    evaluate bareFields [sealingRule] crackedRoad = .ok sealingDecision := by
  have hcond : parse sealingRule.condition "R040" "condition"
      = .ok [("pci_min", .int 55), ("pci_max", .int 70)] :=
    parse_eq_ok (loads_eq_ok_of_chars rfl (by decide) (by decide)) _ _
  have hdecides : Decides [sealingRule] crackedRoad sealingRule
      [("pci_min", .int 55), ("pci_max", .int 70)] :=
    ⟨[], [], by decide, by simp, hcond, by decide +kernel⟩
  have haction : parse sealingRule.action "R040" "action" = .ok
      [("strategy", .str "COLMATAGE"),
       ("justification", .str "Règle \x7bcode\x7d : PCI \x7bpci\x7d")] :=
    parse_eq_ok (loads_eq_ok_of_chars rfl (by decide) (by decide)) _ _
  have htemplate : actionTemplate
      [("strategy", .str "COLMATAGE"),
       ("justification", .str "Règle \x7bcode\x7d : PCI \x7bpci\x7d")] "R040"
        = .ok "Règle R040 : PCI \x7bpci\x7d" := by
    decide
  have htext : render bareFields "Règle R040 : PCI \x7bpci\x7d" crackedRoad
      = .ok "Règle R040 : PCI 60.00" := by
    decide +kernel
  exact (evaluate_eq_of_decides hdecides).trans (decisionOf_eq_ok_iff.mpr
    ⟨_, _, haction, rfl, htemplate, htext, rfl, rfl, rfl, rfl, rfl, rfl⟩)

/-! ### What does not depend on the LLM -/

/-- **The LLM has no say in the decision.**  Two runs on the same rules, facts and retrieval agree
on all but justification and references, and on these too each agrees with the run that has no LLM
unless its own returned a usable object. -/
theorem llm_cannot_influence {llm₁ llm₂ : LlmGenerate} {r₁ r₂ : PipelineResult}
    (h₁ : runPipeline fieldFormat ragSearch llm₁ ctx rules = .ok r₁)
    (h₂ : runPipeline fieldFormat ragSearch llm₂ ctx rules = .ok r₂) :
    (r₁.decision = r₂.decision ∧ r₁.passages = r₂.passages ∧
        r₁.missingNormativeRefs = r₂.missingNormativeRefs ∧
        r₁.agentsInvolved = r₂.agentsInvolved) ∧
      ∃ r₀, runPipeline fieldFormat ragSearch defaultLlm ctx rules = .ok r₀ ∧
        ((¬ ∃ fields, ReturnsObject
            (llm₁ narrateSystem (narratePrompt ctx r₁.decision r₁.passages)) fields) →
          r₁.justification = r₀.justification ∧ r₁.normativeRefs = r₀.normativeRefs) ∧
        ((¬ ∃ fields, ReturnsObject
            (llm₂ narrateSystem (narratePrompt ctx r₂.decision r₂.passages)) fields) →
          r₂.justification = r₀.justification ∧ r₂.normativeRefs = r₀.normativeRefs) := by
  obtain ⟨decision, passages, hdecision, hpassages, rfl⟩ := eq_resultOf_of_runPipeline_eq_ok h₁
  obtain ⟨decision₂, passages₂, hdecision₂, hpassages₂, rfl⟩ :=
    eq_resultOf_of_runPipeline_eq_ok h₂
  -- the two runs have decided and retrieved alike
  obtain rfl : decision = decision₂ := Except.ok.inj (hdecision.symm.trans hdecision₂)
  obtain rfl : passages = passages₂ := Except.ok.inj (hpassages.symm.trans hpassages₂)
  refine ⟨⟨rfl, rfl, rfl, rfl⟩, resultOf decision passages none, ?_, ?_⟩
  · -- the empty string is not a JSON document
    rw [runPipeline_eq hdecision hpassages]
    rfl
  · have hagree : ∀ llm : LlmGenerate,
        (¬ ∃ fields, ReturnsObject
          (llm narrateSystem (narratePrompt ctx decision passages)) fields) →
        resultOf decision passages
            (usableAnswer (llm narrateSystem (narratePrompt ctx decision passages)))
          = resultOf decision passages none := by
      intro llm hunusable
      rw [usableAnswer_eq_none hunusable]
    constructor
    · intro hunusable
      rw [hagree llm₁ hunusable]
      exact ⟨rfl, rfl⟩
    · intro hunusable
      rw [hagree llm₂ hunusable]
      exact ⟨rfl, rfl⟩

/-- The sample run, with an LLM that answers and one that fails. -/
theorem llm_cannot_influence_sealing :
    ∃ r₁ r₂ r₀,
      runPipeline bareFields oneHit faithfulLlm crackedRoad [sealingRule] = .ok r₁ ∧
      runPipeline bareFields oneHit explodingLlm crackedRoad [sealingRule] = .ok r₂ ∧
      runPipeline bareFields oneHit defaultLlm crackedRoad [sealingRule] = .ok r₀ ∧
      (r₁.decision = r₂.decision ∧ r₁.passages = r₂.passages ∧
        r₁.missingNormativeRefs = r₂.missingNormativeRefs ∧
        r₁.agentsInvolved = r₂.agentsInvolved) ∧
      r₂.justification = r₀.justification ∧ r₂.normativeRefs = r₀.normativeRefs := by
  have hdecision := evaluate_sealingRule
  have h₁ : runPipeline bareFields oneHit faithfulLlm crackedRoad [sealingRule] = .ok _ :=
    runPipeline_eq hdecision rfl
  have h₂ : runPipeline bareFields oneHit explodingLlm crackedRoad [sealingRule] = .ok _ :=
    runPipeline_eq hdecision rfl
  obtain ⟨hagree, r₀, h₀, -, hunusable⟩ := llm_cannot_influence h₁ h₂
  refine ⟨_, _, r₀, h₁, h₂, h₀, hagree, hunusable ?_⟩
  rintro ⟨fields, raw, hraw, -⟩
  cases hraw

/-- **The flag of rule #6 is exact**, and the justification is never lost. -/
theorem missing_iff {decision : RuleDecision} {r : PipelineResult}
    (hdecision : evaluate fieldFormat rules ctx = .ok decision)
    (h : runPipeline fieldFormat ragSearch llmGenerate ctx rules = .ok r) :
    (r.missingNormativeRefs = true ↔ r.passages = []) ∧
      (r.passages = [] ↔ r.normativeRefs.truthy = false) ∧
      (decision.justification ≠ "" → r.justification ≠ "") := by
  obtain ⟨decision', passages, hdecision', -, rfl⟩ := eq_resultOf_of_runPipeline_eq_ok h
  obtain rfl : decision = decision' := Except.ok.inj (hdecision.symm.trans hdecision')
  set answer := usableAnswer (llmGenerate narrateSystem (narratePrompt ctx decision passages))
  cases passages with
  | nil => exact ⟨by simp [resultOf], by simp [resultOf, Json.truthy], fun hj => hj⟩
  | cons p ps =>
    have htruthy := truthy_narrated decision (List.cons_ne_nil p ps) answer
    exact ⟨by simp [resultOf], by simp [resultOf, htruthy],
      justification_narrated_ne (p :: ps) answer⟩

/-- The sample run, with an LLM that fails. -/
theorem missing_iff_sealing :
    ∃ r, runPipeline bareFields oneHit explodingLlm crackedRoad [sealingRule] = .ok r ∧
      (r.missingNormativeRefs = true ↔ r.passages = []) ∧
      (r.passages = [] ↔ r.normativeRefs.truthy = false) ∧ r.justification ≠ "" := by
  have hdecision := evaluate_sealingRule
  have h : runPipeline bareFields oneHit explodingLlm crackedRoad [sealingRule] = .ok _ :=
    runPipeline_eq hdecision rfl
  obtain ⟨hflag, hrefs, hnonempty⟩ := missing_iff hdecision h
  exact ⟨_, h, hflag, hrefs, hnonempty (by decide)⟩

/-! ### What is kept of the answer -/

/-- The narrator reads these fields: there are passages, and the LLM returned a usable object. -/
def Reads (passages : List Passage) (outcome : Except PyException String) (fields : Fields) :
    Prop :=
  passages ≠ [] ∧ ReturnsObject outcome fields

/-- The fields the narrator reads. -/
def keptAnswer (passages : List Passage) (outcome : Except PyException String) : Option Fields :=
  if passages = [] then none else usableAnswer outcome

theorem mem_keptAnswer_iff {passages : List Passage} {outcome : Except PyException String}
    {fields : Fields} : fields ∈ keptAnswer passages outcome ↔ Reads passages outcome fields := by
  unfold keptAnswer Reads
  by_cases hp : passages = []
  · simp [hp]
  · simp [hp, usableAnswer_eq_some_iff]

/-- The justification of a result: that of the fields read, or the rule's where it is empty. -/
theorem justification_resultOf (decision : RuleDecision) (passages : List Passage)
    (outcome : Except PyException String) :
    (resultOf decision passages (usableAnswer outcome)).justification
      = ((keptAnswer passages outcome).filter (answerText · ≠ "")).elim decision.justification
          answerText := by
  cases passages with
  | nil => rfl
  | cons p ps =>
    cases hanswer : usableAnswer outcome with
    | none => simp [resultOf, narrated, keptAnswer, hanswer]
    | some fields =>
      by_cases htext : answerText fields = "" <;>
        simp [resultOf, narrated, keptAnswer, hanswer, Option.filter, htext]

/-- The references of a result: those the fields read cite, or the passages where they cite
nothing. -/
theorem normativeRefs_resultOf (decision : RuleDecision) (passages : List Passage)
    (outcome : Except PyException String) :
    (resultOf decision passages (usableAnswer outcome)).normativeRefs
      = ((keptAnswer passages outcome).filter fun fields => (citedRefs fields).truthy).elim
          (fallbackRefs passages) citedRefs := by
  cases passages with
  | nil => rfl
  | cons p ps =>
    cases hanswer : usableAnswer outcome with
    | none => simp [resultOf, narrated, keptAnswer, hanswer]
    | some fields =>
      by_cases hcited : (citedRefs fields).truthy = true <;>
        simp [resultOf, narrated, keptAnswer, hanswer, Option.filter, Json.orElse, hcited]

theorem normativeRefs_resultOf_none (decision : RuleDecision) (passages : List Passage) :
    (resultOf decision passages none).normativeRefs = fallbackRefs passages := by
  cases passages <;> rfl

/-- What a value that stands in for the unusable ones has. -/
theorem prop_elim_filter_iff {α β : Type} {P : β → Prop} {o : Option α} {usable : α → Bool}
    {value : α → β} {default : β} :
    P ((o.filter usable).elim default value)
      ↔ (∀ x ∈ o, usable x = true → P (value x)) ∧ ((∀ x ∈ o, usable x = false) → P default) := by
  cases o with
  | none => simp
  | some x => cases h : usable x <;> simp [Option.filter, h]

/-! ### What the tables take -/

/-- `normative_refs` is a JSON array: the audit entry can take its length, and the columns of both
tables take it, with their `jsonb_typeof(normative_refs) = 'array'`. -/
def ArrayRefs (refs : Json) : Prop := (∃ n, refs.len = .ok n) ∧ JsonbColumn "array" refs

theorem arrayRefs_iff {refs : Json} :
    ArrayRefs refs ↔ ∃ items, refs = .arr items ∧ ∀ item ∈ items, jsonbAccepts item = true := by
  rw [ArrayRefs, jsonbColumn_array_iff]
  constructor
  · exact fun h => h.2
  · rintro ⟨items, rfl, hitems⟩
    exact ⟨⟨_, rfl⟩, items, rfl, hitems⟩

theorem jsonbAccepts_ref_iff {p : Passage} :
    jsonbAccepts p.ref = true ↔ TextAccepts p.title := by
  have hkeys : TextAccepts "title" ∧ TextAccepts "page" := by decide
  have hpages : TextAccepts p.pages := by
    have hsplit : p.pages = toString p.pageStart ++ "-" ++ toString p.pageEnd := rfl
    rw [hsplit, textAccepts_append, textAccepts_append]
    exact ⟨⟨textAccepts_toString_int _, by decide⟩, textAccepts_toString_int _⟩
  simp [Passage.ref, jsonbAccepts, jsonbAcceptsFields, hpages, hkeys]

/-- The passages cited in place of the LLM's references have titles that PostgreSQL takes. -/
theorem arrayRefs_fallbackRefs_iff {passages : List Passage} :
    ArrayRefs (fallbackRefs passages) ↔ ∀ p ∈ passages.take 2, TextAccepts p.title := by
  simp only [arrayRefs_iff, fallbackRefs, Json.arr.injEq, exists_eq_left', List.forall_mem_map,
    jsonbAccepts_ref_iff]

/-- What the LLM says and cites is fit for the columns, and so is what is written in its place. -/
structure Fit (decision : RuleDecision) (passages : List Passage)
    (outcome : Except PyException String) : Prop where
  /-- What it cites is a list, without NaN, infinities and NUL. -/
  cites : ∀ fields, Reads passages outcome fields → (citedRefs fields).truthy = true →
    ∃ items, citedRefs fields = .arr items ∧ ∀ item ∈ items, jsonbAccepts item = true
  /-- Where it cites nothing, the titles of the first passages are without NUL. -/
  titles : (∀ fields, Reads passages outcome fields → (citedRefs fields).truthy = false) →
    ∀ p ∈ passages.take 2, TextAccepts p.title
  /-- What it says is without NUL. -/
  text : ∀ fields, Reads passages outcome fields → answerText fields ≠ "" →
    TextAccepts (answerText fields)
  /-- Where it says nothing, the rule's justification is without NUL. -/
  rule : (∀ fields, Reads passages outcome fields → answerText fields = "") →
    TextAccepts decision.justification

/-- The tables take the references of a result, as an array, and its justification. -/
theorem accepted_resultOf_iff {decision : RuleDecision} {passages : List Passage}
    {outcome : Except PyException String} :
    ArrayRefs (resultOf decision passages (usableAnswer outcome)).normativeRefs ∧
        TextAccepts (resultOf decision passages (usableAnswer outcome)).justification
      ↔ Fit decision passages outcome := by
  have hrefs : ArrayRefs (resultOf decision passages (usableAnswer outcome)).normativeRefs
      ↔ (∀ fields ∈ keptAnswer passages outcome, (citedRefs fields).truthy = true →
            ArrayRefs (citedRefs fields)) ∧
          ((∀ fields ∈ keptAnswer passages outcome, (citedRefs fields).truthy = false) →
            ArrayRefs (fallbackRefs passages)) := by
    rw [normativeRefs_resultOf]
    exact prop_elim_filter_iff
  have htext : TextAccepts (resultOf decision passages (usableAnswer outcome)).justification
      ↔ (∀ fields ∈ keptAnswer passages outcome, decide (answerText fields ≠ "") = true →
            TextAccepts (answerText fields)) ∧
          ((∀ fields ∈ keptAnswer passages outcome, decide (answerText fields ≠ "") = false) →
            TextAccepts decision.justification) := by
    rw [justification_resultOf]
    exact prop_elim_filter_iff
  rw [hrefs, htext, arrayRefs_fallbackRefs_iff]
  simp only [mem_keptAnswer_iff, arrayRefs_iff, decide_eq_true_eq, decide_eq_false_iff_not, ne_eq,
    not_not]
  constructor
  · rintro ⟨⟨hcites, htitles⟩, htext', hrule⟩
    exact ⟨hcites, htitles, htext', hrule⟩
  · rintro ⟨hcites, htitles, htext', hrule⟩
    exact ⟨⟨hcites, htitles⟩, htext', hrule⟩

/-- **The run always returns**, and the tables take its references, as an array, and its
justification exactly when these are fit for them. -/
theorem accepted_iff_fit {decision : RuleDecision} {passages : List Passage}
    (hdecision : evaluate fieldFormat rules ctx = .ok decision)
    (hpassages : ragSearch (ragQuery ctx decision) = .ok passages) :
    (∃ r, runPipeline fieldFormat ragSearch llmGenerate ctx rules = .ok r ∧
        ArrayRefs r.normativeRefs ∧ TextAccepts r.justification)
      ↔ Fit decision passages
          (llmGenerate narrateSystem (narratePrompt ctx decision passages)) := by
  simp only [runPipeline_eq hdecision hpassages, Except.ok.injEq, exists_eq_left']
  exact accepted_resultOf_iff

/-- An LLM that cites by a text instead of a list. -/
def textCitingLlm : LlmGenerate := fun _ _ =>
  .ok "\x7b\"justification\": \"Voir p. 12.\", \"cited_refs\": \"Norme entretien DGR, p. 12\"\x7d"

/-- Its references are a string, which neither table accepts. -/
theorem not_accepted_textCitingLlm :
    (∃ decision, evaluate bareFields [sealingRule] crackedRoad = .ok decision) ∧
      ¬ ∃ r, runPipeline bareFields oneHit textCitingLlm crackedRoad [sealingRule] = .ok r ∧
        ArrayRefs r.normativeRefs := by
  refine ⟨⟨_, evaluate_sealingRule⟩, ?_⟩
  rintro ⟨r, hr, -, hcolumn⟩
  have hdecision := evaluate_sealingRule
  have hanswer : ∀ prompt, usableAnswer (textCitingLlm narrateSystem prompt)
      = some [("justification", .str "Voir p. 12."),
        ("cited_refs", .str "Norme entretien DGR, p. 12")] :=
    fun _ => usableAnswer_of_loads rfl (loads_eq_ok_of_chars rfl (by decide) (by decide)) rfl
  rw [runPipeline_eq hdecision rfl] at hr
  obtain rfl := Except.ok.inj hr
  rw [normativeRefs_resultOf, keptAnswer, hanswer] at hcolumn
  exact absurd hcolumn (by decide)

/-- The criterion at an LLM that meets it. -/
theorem accepted_faithfulLlm :
    ∃ r, runPipeline bareFields oneHit faithfulLlm crackedRoad [sealingRule] = .ok r ∧
      ArrayRefs r.normativeRefs ∧ TextAccepts r.justification := by
  have hdecision := evaluate_sealingRule
  refine (accepted_iff_fit hdecision rfl).mpr ⟨?_, ?_, ?_, ?_⟩
  · rintro fields ⟨-, hfields⟩ -
    rw [eq_faithfulFields hfields]
    exact ⟨_, rfl, by decide⟩
  · intro _ p hp
    obtain rfl : p = standardPassage := List.mem_singleton.mp hp
    decide
  · rintro fields ⟨-, hfields⟩ -
    rw [eq_faithfulFields hfields]
    decide
  · intro _
    decide

/-- A reference is an object whose `title` is that of a passage. -/
def carriesTitle (passages : List Passage) : Json → Bool
  | .obj fields => passages.any fun p =>
    match fields.lookup "title" with
    | some (.str title) => title = p.title
    | _ => false
  | _ => false

theorem carriesTitle_ref {passages : List Passage} {p : Passage} (h : p ∈ passages) :
    carriesTitle passages p.ref = true := by
  unfold carriesTitle Passage.ref
  rw [List.any_eq_true]
  exact ⟨p, h, by simp⟩

/-- Every reference carries the title of a passage. -/
def TitledRefs (passages : List Passage) (refs : Json) : Prop :=
  ∀ ref ∈ refs.elements, carriesTitle passages ref = true

instance (passages : List Passage) (refs : Json) : Decidable (TitledRefs passages refs) :=
  inferInstanceAs (Decidable (∀ ref ∈ refs.elements, carriesTitle passages ref = true))

theorem titledRefs_fallbackRefs (passages : List Passage) :
    TitledRefs passages (fallbackRefs passages) := by
  intro ref href
  simp only [fallbackRefs, Json.elements, List.mem_map] at href
  obtain ⟨p, hp, rfl⟩ := href
  exact carriesTitle_ref (List.mem_of_mem_take hp)

/-- **References are made up only by the LLM.**  Every reference of the result carries the title of
a passage exactly when everything a usable answer cites does. -/
theorem refs_titled_iff {decision : RuleDecision} {passages : List Passage}
    (hdecision : evaluate fieldFormat rules ctx = .ok decision)
    (hpassages : ragSearch (ragQuery ctx decision) = .ok passages) :
    (∃ r, runPipeline fieldFormat ragSearch llmGenerate ctx rules = .ok r ∧
        TitledRefs r.passages r.normativeRefs)
      ↔ passages = [] ∨ ∀ fields,
          ReturnsObject (llmGenerate narrateSystem (narratePrompt ctx decision passages)) fields →
          (citedRefs fields).truthy = true → TitledRefs passages (citedRefs fields) := by
  set outcome := llmGenerate narrateSystem (narratePrompt ctx decision passages) with houtcome
  simp only [runPipeline_eq hdecision hpassages, ← houtcome, Except.ok.injEq, exists_eq_left',
    normativeRefs_resultOf]
  refine (prop_elim_filter_iff (P := TitledRefs passages)).trans ?_
  simp only [mem_keptAnswer_iff, titledRefs_fallbackRefs, implies_true, and_true, Reads, and_imp]
  rw [or_iff_not_imp_left]
  exact ⟨fun h hp fields => h fields hp, fun h fields hp => h hp fields⟩

/-- An LLM that cites a standard the retrieval did not return. -/
def inventingLlm : LlmGenerate := fun _ _ =>
  .ok "\x7b\"justification\": \"Voir p. 1.\", \"cited_refs\": [\x7b\"title\": \"Norme inventée\", \"page\": \"1\"\x7d]\x7d"

/-- Its reference is kept. -/
theorem refs_not_titled_inventingLlm :
    (∃ decision, evaluate bareFields [sealingRule] crackedRoad = .ok decision) ∧
      ¬ ∃ r, runPipeline bareFields oneHit inventingLlm crackedRoad [sealingRule] = .ok r ∧
        TitledRefs r.passages r.normativeRefs := by
  refine ⟨⟨_, evaluate_sealingRule⟩, ?_⟩
  rintro ⟨r, hr, htitled⟩
  have hdecision := evaluate_sealingRule
  have hanswer : ∀ prompt, usableAnswer (inventingLlm narrateSystem prompt)
      = some [("justification", .str "Voir p. 1."),
        ("cited_refs", .arr [.obj [("title", .str "Norme inventée"), ("page", .str "1")]])] :=
    fun _ => usableAnswer_of_loads rfl (loads_eq_ok_of_chars rfl (by decide) (by decide)) rfl
  rw [runPipeline_eq hdecision rfl] at hr
  obtain rfl := Except.ok.inj hr
  rw [normativeRefs_resultOf, keptAnswer, hanswer] at htitled
  have hpassage : ¬ TitledRefs [standardPassage]
      (.arr [.obj [("title", .str "Norme inventée"), ("page", .str "1")]]) := by
    decide
  exact hpassage htitled

/-- The criterion at an LLM that meets it. -/
theorem refs_titled_faithfulLlm :
    ∃ r, runPipeline bareFields oneHit faithfulLlm crackedRoad [sealingRule] = .ok r ∧
      TitledRefs r.passages r.normativeRefs := by
  have hdecision := evaluate_sealingRule
  refine (refs_titled_iff hdecision rfl).mpr (Or.inr ?_)
  intro fields hfields _
  rw [eq_faithfulFields hfields]
  decide +kernel

end RoadVisionAI.RecommendationPipeline
