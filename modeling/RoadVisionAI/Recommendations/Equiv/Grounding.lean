import RoadVisionAI.Knowledge.Equiv.Provenance
import RoadVisionAI.Recommendations.Equiv.Explained

/-!
# From the PDF to the reference

The endpoint hands `generate_for_analysis` the `search` of the knowledge service, shielded against
every exception.  A reference that the pipeline makes of a passage names the PDF of a call of
`ingest_pdf` and pages of it (`Grounded`), in every state of the corpus, broken calls included; the
retrieval and the LLM keep no run of the pipeline from returning (`pipeline_grounded`).  So when the
LLM has nothing usable to say, what the service commits refers to ingested PDFs and to nothing else
(`recommendations_grounded`).  Which calls have ingested is a parameter, `ingested`: those that the
corpus has seen.
-/

namespace RoadVisionAI.Recommendations

open Python Db RuleEngine RecommendationPipeline Transition Machine

variable {E : Type} {env : Knowledge.Env E} {ingested : Knowledge.Call → Prop}

section

variable (env ingested)

/-- The retrieval of the endpoint, over what the corpus is after a run; its calls, and those of what
was there before, are among `ingested`. -/
def OverCorpus (ragSearch : RagSearch) : Prop :=
  ∃ before s actions t retrieval, s.Quiet ∧ Knowledge.Traceable env before s ∧
    (Knowledge.corpus env).run s actions = some t ∧
    (∀ call, Knowledge.Ingested before actions call → ingested call) ∧
    (∀ client, retrieval = .ok client → client.Lawful) ∧
    ragSearch = Knowledge.ragSearch retrieval t.stores.collection

/-- The passage is what a hit shows of the PDF of a call: its title, a chunk of it, the pages of the
chunk. -/
def Quoted (passage : Passage) : Prop :=
  ∃ call pages, ∃ hit : Knowledge.RagHit, ingested call ∧
    env.extractPdfPages call.pdfBytes = .ok pages ∧ hit.Quotes call pages ∧ passage = hit.passage

/-- The references are those of at most two passages that quote a PDF. -/
def Grounded (refs : Json) : Prop :=
  ∃ passages : List Passage, passages.length ≤ 2 ∧
    (∀ passage ∈ passages, Quoted env ingested passage) ∧ refs = .arr (passages.map Passage.ref)

end

/-- The LLM gives no answer that is used: it raises, or returns no object with a text. -/
def Unusable (llmGenerate : LlmGenerate) : Prop :=
  ∀ prompt fields, ¬ ReturnsObject (llmGenerate narrateSystem prompt) fields

/-! ### One run of the pipeline -/

/-- The endpoint's retrieval never raises, and all it returns is quoted. -/
theorem exists_passages {ragSearch : RagSearch} (hoverlap : 0 ≤ env.settings.ragChunkOverlap)
    (hsize : env.settings.ragChunkOverlap < env.settings.ragChunkSize)
    (h : OverCorpus env ingested ragSearch) (query : String) :
    ∃ passages, ragSearch query = .ok passages ∧
      ∀ passage ∈ passages, Quoted env ingested passage := by
  obtain ⟨before, s, actions, t, retrieval, hs, htraceable, hrun, hingested, hlawful, rfl⟩ := h
  obtain ⟨shape, hshapeSize, hshapeOverlap⟩ := Knowledge.exists_shape hoverlap hsize
  unfold Knowledge.ragSearch
  cases retrieval with
  | error exc => exact ⟨[], rfl, fun _ h => nomatch h⟩
  | ok client =>
    cases hsearch : Knowledge.search client t.stores.collection query none none with
    | error exc =>
      refine ⟨[], ?_, fun _ h => nomatch h⟩
      simp only [bind, Except.bind, hsearch]
    | ok hits =>
      refine ⟨hits.map Knowledge.RagHit.passage, ?_, fun passage hpassage => ?_⟩
      · simp only [bind, Except.bind, hsearch]
      · obtain ⟨hit, hhit, rfl⟩ := List.mem_map.mp hpassage
        obtain ⟨vector, hvector, distance, hfound⟩ :=
          (Knowledge.search_spec (hlawful client rfl) hsearch).2.2 hit hhit
        obtain ⟨call, documentId, pages, chunks, embeddings, hcall, hindexes, hmem⟩ :=
          (Knowledge.traceable_of_run hs htraceable hrun).vectors vector hvector
        exact ⟨call, pages, hit, hingested call hcall, hindexes.extracted,
          Knowledge.quotes_of_hitOf hshapeSize hshapeOverlap hindexes hmem hfound, rfl⟩

theorem grounded_fallbackRefs {passages : List Passage}
    (h : ∀ passage ∈ passages, Quoted env ingested passage) :
    Grounded env ingested (fallbackRefs passages) := by
  refine ⟨passages.take 2, List.length_take_le _ _, fun passage hpassage => ?_, rfl⟩
  exact h passage (List.mem_of_mem_take hpassage)

/-- Without a usable answer the references are those of the passages. -/
theorem grounded_resultOf {decision : RuleDecision} {passages : List Passage}
    {outcome : Except PyException String} (h : ∀ passage ∈ passages, Quoted env ingested passage)
    (hunusable : ∀ fields, ¬ ReturnsObject outcome fields) :
    Grounded env ingested (resultOf decision passages (usableAnswer outcome)).normativeRefs := by
  have hanswer : usableAnswer outcome = none :=
    usableAnswer_eq_none fun ⟨fields, hfields⟩ => hunusable fields hfields
  rw [hanswer, normativeRefs_resultOf_none]
  exact grounded_fallbackRefs h

/-- **The pipeline on the corpus.**  With the retrieval of the endpoint, over any state the corpus
gets into, the pipeline returns exactly when the rule engine decides, whatever the LLM does; every
passage of its result quotes the PDF of a call of `ingest_pdf` that the corpus has seen; and when
the LLM has no usable answer, so does every reference, while the flag says whether there is none. -/
theorem pipeline_grounded {fieldFormat : FieldFormat} {ragSearch : RagSearch}
    {llmGenerate : LlmGenerate} {ctx : AnalysisContext} {rules : List Rule}
    (hoverlap : 0 ≤ env.settings.ragChunkOverlap)
    (hsize : env.settings.ragChunkOverlap < env.settings.ragChunkSize)
    (h : OverCorpus env ingested ragSearch) :
    ((∃ r, runPipeline fieldFormat ragSearch llmGenerate ctx rules = .ok r) ↔
        ∃ decision, evaluate fieldFormat rules ctx = .ok decision) ∧
      ∀ r, runPipeline fieldFormat ragSearch llmGenerate ctx rules = .ok r →
        (∀ passage ∈ r.passages, Quoted env ingested passage) ∧
        (Unusable llmGenerate → Grounded env ingested r.normativeRefs ∧
          (r.missingNormativeRefs = true ↔ r.normativeRefs = .arr [])) := by
  refine ⟨⟨?_, ?_⟩, fun r hr => ?_⟩
  · rintro ⟨r, hr⟩
    obtain ⟨decision, -, hdecision, -⟩ := eq_resultOf_of_runPipeline_eq_ok hr
    exact ⟨decision, hdecision⟩
  · rintro ⟨decision, hdecision⟩
    obtain ⟨passages, hpassages, -⟩ :=
      exists_passages hoverlap hsize h (ragQuery ctx decision)
    exact ⟨_, runPipeline_eq hdecision hpassages⟩
  · obtain ⟨decision, passages, -, hpassages, rfl⟩ := eq_resultOf_of_runPipeline_eq_ok hr
    obtain ⟨passages', hpassages', hquoted⟩ :=
      exists_passages hoverlap hsize h (ragQuery ctx decision)
    obtain rfl : passages' = passages := Except.ok.inj (hpassages'.symm.trans hpassages)
    refine ⟨hquoted, fun hunusable => ⟨grounded_resultOf hquoted (hunusable _), ?_⟩⟩
    have hanswer := usableAnswer_eq_none fun ⟨fields, hfields⟩ =>
      hunusable (narratePrompt ctx decision passages') fields hfields
    rw [hanswer, normativeRefs_resultOf_none]
    cases passages' with
    | nil => simp [resultOf, fallbackRefs]
    | cons passage rest => simp [resultOf, fallbackRefs]

/-- The corpus after the norm is ingested. -/
def normCorpus : Knowledge.State ℕ :=
  ((Knowledge.corpus Knowledge.pageEnv).run Knowledge.noDocuments Knowledge.ingested).getD
    Knowledge.noDocuments

theorem run_normCorpus :
    (Knowledge.corpus Knowledge.pageEnv).run Knowledge.noDocuments Knowledge.ingested
      = some normCorpus := by
  have hsome : ((Knowledge.corpus Knowledge.pageEnv).run Knowledge.noDocuments
      Knowledge.ingested).isSome := by
    decide
  rw [normCorpus, Option.getD_eq_iff.mpr (Or.inl (Option.some_get hsome).symm), Option.some_get]

/-- The retrieval over it. -/
def normSearch : RagSearch :=
  Knowledge.ragSearch (.ok Knowledge.firstEntries) normCorpus.stores.collection

/-- The calls of `ingested`. -/
def NormCall (call : Knowledge.Call) : Prop :=
  ∃ p, Knowledge.Action.start p call ∈ Knowledge.ingested

theorem overCorpus_normSearch : OverCorpus Knowledge.pageEnv NormCall normSearch := by
  refine ⟨_, Knowledge.noDocuments, Knowledge.ingested, normCorpus, .ok Knowledge.firstEntries,
    Knowledge.quiet_noDocuments, Knowledge.traceable_noDocuments, run_normCorpus,
    fun _ hcall => hcall.resolve_left id, ?_, rfl⟩
  rintro client ⟨⟩
  exact Knowledge.lawful_firstEntries

theorem unusable_explodingLlm : Unusable explodingLlm := by
  rintro prompt fields ⟨raw, hraw, -⟩
  cases hraw

/-- The cracked road, with an LLM that fails: the run returns, and refers to the norm. -/
theorem pipeline_grounded_norm :
    ∃ r, runPipeline bareFields normSearch explodingLlm crackedRoad [sealingRule] = .ok r ∧
      Grounded Knowledge.pageEnv NormCall r.normativeRefs := by
  have hoverlap : 0 ≤ Knowledge.pageEnv.settings.ragChunkOverlap := by decide
  have hsize : Knowledge.pageEnv.settings.ragChunkOverlap
      < Knowledge.pageEnv.settings.ragChunkSize := by decide
  obtain ⟨hreturns, hresult⟩ := pipeline_grounded hoverlap hsize overCorpus_normSearch
  obtain ⟨r, hr⟩ := hreturns.mpr ⟨_, evaluate_sealingRule⟩
  exact ⟨r, hr, ((hresult r hr).2 unusable_explodingLlm).1⟩

/-! ### What the service commits -/

/-- **Recommendations refer to the corpus.**  Along every run of the service from a quiet state in
which every retrieval is over some state of the corpus and no LLM answer is usable, every committed
recommendation that was not there before refers to at most two passages, each a chunk of the PDF of
a call of `ingest_pdf` that the corpus has seen, by its title and the pages of the chunk; and so
does its explanation. -/
theorem recommendations_grounded {fieldFormat : FieldFormat} {s t : State} {actions : List Action}
    (hoverlap : 0 ≤ env.settings.ragChunkOverlap)
    (hsize : env.settings.ragChunkOverlap < env.settings.ragChunkSize) (hs : s.Quiet)
    (hrun : (service fieldFormat).run s actions = some t)
    (hgiven : ∀ p input, Action.exec p input ∈ actions →
      OverCorpus env ingested input.ragSearch ∧ Unusable input.llmGenerate) {recId : Uuid}
    {row : MaintenanceRecommendation} (hrow : t.db.recommendations.committed recId = some row) :
    s.db.recommendations.committed recId = some row ∨
      Grounded env ingested row.normativeRefs ∧
        ∃ generation ∈ t.generations, generation.Agrees row ∧
          Grounded env ingested generation.xai.normativeRefs := by
  refine ((explained_of_run hs hrun).rows recId row hrow).imp_right ?_
  rintro ⟨p, call, found, generation, hmem, hactions, -, hexplains⟩
  have hagrees := hexplains.agrees
  have hgrounded : Grounded env ingested generation.xai.normativeRefs := by
    obtain ⟨-, analysis, -, pci, -, result, -, -, hresult, hxai, -⟩ := hexplains
    -- the statement that has run the pipeline is one of the run
    have hexec : Action.exec p found.pipeline ∈ actions := by
      have hcall : Action.exec p found.pipeline ∈ callActions p call found.toList := by
        simp [callActions, Inputs.toList]
      exact mem_of_mem_own (hactions.subset hcall)
    obtain ⟨hcorpus, hunusable⟩ := hgiven p found.pipeline hexec
    obtain ⟨hxai, -⟩ := storeRow_eq_ok_iff.mp hxai
    have hrefs : generation.xai.normativeRefs = result.normativeRefs := by
      rw [hxai]
      rfl
    rw [hrefs]
    obtain ⟨decision, passages, -, hpassages, rfl⟩ := eq_resultOf_of_runPipeline_eq_ok hresult
    obtain ⟨passages', hpassages', hquoted⟩ := exists_passages hoverlap hsize hcorpus
      (ragQuery (contextOf analysis.row pci.row) decision)
    obtain rfl : passages' = passages := Except.ok.inj (hpassages'.symm.trans hpassages)
    exact grounded_resultOf hquoted (hunusable _)
  exact ⟨hagrees.refs ▸ hgrounded, generation, hmem, hagrees, hgrounded⟩

/-- What a statement of a call finds, with the norm in the corpus and an LLM that fails. -/
def normInput (id : String) : Input :=
  { crackedInput id with ragSearch := normSearch, llmGenerate := explodingLlm }

/-- A call for the analysis. -/
def normCall : List Action :=
  .start 1 ⟨⟨"a1"⟩, ⟨"u1"⟩⟩ :: List.replicate 9 (.exec 1 (normInput "r1"))

/-- Its recommendation refers to the norm. -/
theorem recommendations_grounded_norm :
    ∃ t row, (service bareFields).run noRecommendations normCall = some t ∧
      t.db.recommendations.committed ⟨"r1"⟩ = some row ∧ row.normativeRefs ≠ .arr [] ∧
      Grounded Knowledge.pageEnv NormCall row.normativeRefs := by
  have heval : ((service bareFields).run noRecommendations normCall).map
      (fun t => (t.db.recommendations.committed ⟨"r1"⟩).map fun row => row.normativeRefs.truthy)
        = some (some true) := by
    decide +kernel
  obtain ⟨t, ht, -, hrefs⟩ := Machine.reachable_of_map_run quiet_noRecommendations heval
  obtain ⟨row, hrow, htruthy⟩ := Option.map_eq_some_iff.mp hrefs
  have hgiven : ∀ p input, Action.exec p input ∈ normCall →
      OverCorpus Knowledge.pageEnv NormCall input.ragSearch ∧ Unusable input.llmGenerate := by
    intro p input hexec
    rcases List.mem_cons.mp hexec with hstart | hexec
    · cases hstart
    · obtain ⟨-, rfl⟩ := Action.exec.inj (List.eq_of_mem_replicate hexec)
      exact ⟨overCorpus_normSearch, unusable_explodingLlm⟩
  have hoverlap : 0 ≤ Knowledge.pageEnv.settings.ragChunkOverlap := by decide
  have hsize : Knowledge.pageEnv.settings.ragChunkOverlap
      < Knowledge.pageEnv.settings.ragChunkSize := by decide
  rcases recommendations_grounded hoverlap hsize quiet_noRecommendations ht hgiven hrow with
    hold | ⟨hgrounded, -⟩
  · cases hold
  · refine ⟨t, row, ht, hrow, ?_, hgrounded⟩
    rintro hnil
    rw [hnil] at htruthy
    cases htruthy

end RoadVisionAI.Recommendations
