import RoadVisionAI.Engines.RuleEngine

/-!
# The recommendation pipeline (`app/ai/agents/recommendation_pipeline.py`)

Three nodes run one after another on a shared state: the rule engine decides, the retrieval
returns passages, the narrator asks the LLM for a justification and citations.  The two injected
callables are parameters: `ragSearch query` and `llmGenerate system prompt` return a value or raise
any exception.  What the LLM returns is text; everything read from it goes through `json.loads` and
Python's dynamic types, so the references of the result are an arbitrary `Json`.
-/

namespace RoadVisionAI.RecommendationPipeline

open Python RuleEngine

/-- The entries of a search hit that the pipeline reads. -/
structure Passage where
  text : String
  title : String
  pageStart : ℤ
  pageEnd : ℤ
deriving DecidableEq

/-- `NARRATE_SYSTEM`. -/
def narrateSystem : String :=
  "Tu es un ingénieur routier senior de la Direction Générale des Routes du Maroc. " ++
  "On te fournit une décision de maintenance DÉJÀ PRISE par un moteur de règles " ++
  "déterministe, ainsi que des extraits de documents normatifs. Ta seule tâche est " ++
  "de rédiger une justification technique en français qui explique la décision et " ++
  "s'APPUIE EXPLICITEMENT sur les extraits fournis. Tu ne dois JAMAIS changer la " ++
  "stratégie décidée. Tu dois citer au moins une référence par son titre et sa page. " ++
  "Réponds UNIQUEMENT en JSON: " ++
  "\x7b\"justification\": \"...\", \"cited_refs\": [\x7b\"title\": \"...\", \"page\": \"...\"\x7d]\x7d"

/-- `GraphState`: the input, and the channels the nodes write. -/
structure GraphState where
  ctx : AnalysisContext
  rules : List Rule
  decision : Option RuleDecision := none
  passages : Option (List Passage) := none
  justification : Option String := none
  citedRefs : Option Json := none
  missingNormativeRefs : Option Bool := none

/-- `PipelineResult`. -/
structure PipelineResult where
  decision : RuleDecision
  justification : String
  normativeRefs : Json
  passages : List Passage
  missingNormativeRefs : Bool
  agentsInvolved : List String

/-- The retrieval's answer to a query. -/
abbrev RagSearch := String → Except PyException (List Passage)

/-- The LLM's answer to a system text and a prompt. -/
abbrev LlmGenerate := String → String → Except PyException String

/-- `state[key]`. -/
def require {α : Type} (key : String) (channel : Option α) : Except PyException α :=
  channel.elim (.error (.keyError key)) .ok

/-! ### The texts -/

/-- The retrieval query. -/
def ragQuery (ctx : AnalysisContext) (decision : RuleDecision) : String :=
  let dominant := textOr ctx.dominantDamageType "dégradation"
  s!"stratégie {decision.strategy.value} pour {dominant} " ++
  s!"chaussée PCI {fixedPoint ctx.pci 0} entretien routier norme"

/-- `f"{p['page_start']}-{p['page_end']}"`. -/
def Passage.pages (p : Passage) : String := s!"{p.pageStart}-{p.pageEnd}"

/-- The reference a passage is cited by. -/
def Passage.ref (p : Passage) : Json :=
  .obj [("title", .str p.title), ("page", .str p.pages)]

/-- One line of `refs_block`. -/
def refsLine (item : Passage × ℕ) : String :=
  s!"[{item.2 + 1}] {item.1.title} (p.{item.1.pages}) : " ++
  String.ofList (item.1.text.toList.take 800)

/-- The prompt of the narrator. -/
def narratePrompt (ctx : AnalysisContext) (decision : RuleDecision) (passages : List Passage) :
    String :=
  let dominant := textOr ctx.dominantDamageType "aucun"
  let refsBlock := "\n\n".intercalate (passages.zipIdx.map refsLine)
  "CONTEXTE DE L'INSPECTION :\n" ++
  s!"- Score PCI : {fixedPoint ctx.pci 2}/100 (sévérité {ctx.severityLevel.value}, " ++
  s!"priorité {ctx.priorityLevel.value})\n" ++
  s!"- Type de dégradation dominant : {dominant}\n" ++
  s!"- Nombre de détections : {ctx.totalDetections}\n\n" ++
  "DÉCISION DU MOTEUR DE RÈGLES (à justifier, NON à modifier) :\n" ++
  s!"- Stratégie : {decision.strategy.value}\n" ++
  s!"- Règle appliquée : {decision.ruleCode} — {decision.ruleName}\n\n" ++
  s!"EXTRAITS NORMATIFS DISPONIBLES :\n{refsBlock}\n\n" ++
  "Rédige la justification en citant au moins un extrait ci-dessus."

/-! ### The nodes -/

section Graph

variable (fieldFormat : FieldFormat) (ragSearch : RagSearch) (llmGenerate : LlmGenerate)

/-- `rule_node`. -/
def ruleNode (state : GraphState) : Except PyException GraphState := do
  let decision ← evaluate fieldFormat state.rules state.ctx
  return { state with decision }

/-- `retrieve_node`. -/
def retrieveNode (state : GraphState) : Except PyException GraphState := do
  let decision ← require "decision" state.decision
  let passages ← ragSearch (ragQuery state.ctx decision)
  return { state with passages }

/-- What the narrator reads from the decoded answer: the stripped justification, and the cited
references or the fallback. -/
def readAnswer (parsed : Json) (fallbackRefs : Json) : Except PyException (String × Json) :=
  match parsed with
  | .obj fields =>
    match (fields.lookup "justification").getD (.str "") with
    | .str justification =>
      .ok (strip justification,
        ((fields.lookup "cited_refs").getD (.arr [])).orElse fallbackRefs)
    | v => .error (.attributeError s!"'{v.typeName}' object has no attribute 'strip'")
  | v => .error (.attributeError s!"'{v.typeName}' object has no attribute 'get'")

/-- The body of the narrator's `try`: call the LLM, decode its text, read the answer. -/
def narration (prompt : String) (fallbackRefs : Json) : Except PyException (String × Json) := do
  let raw ← llmGenerate narrateSystem prompt
  let parsed ← loads raw
  readAnswer parsed fallbackRefs

/-- The `try` with its two `except` clauses. -/
def narrationOrRule (prompt : String) (decision : RuleDecision) (fallbackRefs : Json) :
    String × Json :=
  match narration llmGenerate prompt fallbackRefs with
  | .ok answer => answer
  -- not JSON, or JSON of another shape
  | .error (.jsonDecodeError ..) | .error (.attributeError _) | .error (.typeError _) =>
    (decision.justification, fallbackRefs)
  -- any provider failure
  | .error _ => (decision.justification, fallbackRefs)

/-- `narrate_node`. -/
def narrateNode (state : GraphState) : Except PyException GraphState := do
  let decision ← require "decision" state.decision
  let passages ← require "passages" state.passages
  if passages.isEmpty then
    return { state with
      justification := decision.justification
      citedRefs := some (.arr [])
      missingNormativeRefs := some true }
  let fallbackRefs := Json.arr ((passages.take 2).map Passage.ref)
  let answer := narrationOrRule llmGenerate (narratePrompt state.ctx decision passages) decision
    fallbackRefs
  let justification := if answer.1 = "" then decision.justification else answer.1
  return { state with
    justification
    citedRefs := some answer.2
    missingNormativeRefs := some false }

/-- The compiled graph: the nodes in the order of its edges, from the entry point to `END`. -/
def invoke (state : GraphState) : Except PyException GraphState :=
  [ruleNode fieldFormat, retrieveNode ragSearch, narrateNode llmGenerate].foldlM
    (fun state node => node state) state

/-- `run_pipeline`. -/
def runPipeline (ctx : AnalysisContext) (rules : List Rule) :
    Except PyException PipelineResult := do
  let final ← invoke fieldFormat ragSearch llmGenerate { ctx, rules }
  let passages := final.passages.getD []
  let decision ← require "decision" final.decision
  let justification ← require "justification" final.justification
  return {
    decision
    justification
    normativeRefs := (final.citedRefs.getD .null).orElse
      (.arr ((passages.take 3).map Passage.ref))
    passages
    missingNormativeRefs := final.missingNormativeRefs.getD false
    agentsInvolved := ["RuleEngine", "KnowledgeRetrievalAgent", "TechnicalNarrator"]
  }

end Graph

/-- `_default_llm`: what the service injects when no LLM is configured. -/
def defaultLlm : LlmGenerate := fun _ _ => .ok ""

end RoadVisionAI.RecommendationPipeline
