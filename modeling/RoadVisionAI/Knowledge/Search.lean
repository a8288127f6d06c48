import RoadVisionAI.Agents.RecommendationPipeline
import RoadVisionAI.Knowledge.Service
import RoadVisionAI.Python.Rounding

/-!
# Retrieval (`app/ai/rag/knowledge_service.py`)

`KnowledgeService.search` over the collection of vectors, and the callable that
`app/api/v1/endpoints/recommendations.py` makes of it for the pipeline.  The embedding of a query
and the client of the vector store are parameters: `query` is what the client makes of the
collection, one query at a time, in columns.
-/

namespace RoadVisionAI.Knowledge

open Python RecommendationPipeline

variable {E : Type}

/-- What the client returns for one query: `result["documents"][0]` and so on. -/
structure QueryResult where
  documents : List String
  metadatas : List Metadata
  distances : List ℚ

/-- The service as `search` uses it: two settings, the embedder and the client. -/
structure Retrieval (E : Type) where
  ragTopK : ℤ := 5
  ragSimilarityThreshold : ℚ := 3 / 4
  embedQuery : String → Except PyException E
  query : List (Vector E) → E → ℤ → Except PyException QueryResult

/-- An entry of `hits`. -/
structure RagHit where
  text : String
  similarity : ℚ
  documentId : String
  title : String
  docType : String
  pageStart : ℕ
  pageEnd : ℕ
deriving DecidableEq

/-- The hit of a row of the result, unless it is below the threshold. -/
def hitOf (threshold : ℚ) (text : String) (metadata : Metadata) (distance : ℚ) : Option RagHit :=
  let similarity := 1 - distance
  if similarity < threshold then none
  else some {
    text
    similarity := pyRound similarity 4
    documentId := metadata.documentId
    title := metadata.title
    docType := metadata.docType
    pageStart := metadata.pageStart
    pageEnd := metadata.pageEnd }

/-- The loop over `zip(…, strict=True)`. -/
def hitsOf (threshold : ℚ) :
    List String → List Metadata → List ℚ → Except PyException (List RagHit)
  | [], [], [] => .ok []
  | text :: documents, metadata :: metadatas, distance :: distances => do
    let hits ← hitsOf threshold documents metadatas distances
    return (hitOf threshold text metadata distance).toList ++ hits
  | _, _, _ => .error (.valueError "zip() arguments have different lengths")

/-- `top_k or self._settings.rag_top_k`. -/
def Retrieval.topK (retrieval : Retrieval E) (topK : Option ℤ) : ℤ :=
  match topK with
  | some k => if k = 0 then retrieval.ragTopK else k
  | none => retrieval.ragTopK

/-- `KnowledgeService.search`. -/
def search (retrieval : Retrieval E) (collection : List (Vector E)) (query : String)
    (topK : Option ℤ) (threshold : Option ℚ) : Except PyException (List RagHit) := do
  let queryVector ← retrieval.embedQuery query
  let result ← retrieval.query collection queryVector (retrieval.topK topK)
  hitsOf (threshold.getD retrieval.ragSimilarityThreshold) result.documents result.metadatas
    result.distances

/-- What the pipeline reads of a hit. -/
def RagHit.passage (hit : RagHit) : Passage where
  text := hit.text
  title := hit.title
  pageStart := hit.pageStart
  pageEnd := hit.pageEnd

/-- The `rag_search` of `generate_recommendation`: with its defaults, and with no passages after any
exception, of the factories of client and embedder as well. -/
def ragSearch (retrieval : Except PyException (Retrieval E)) (collection : List (Vector E)) :
    RagSearch :=
  fun query =>
    match retrieval >>= fun retrieval => search retrieval collection query none none with
    | .ok hits => .ok (hits.map RagHit.passage)
    | .error _ => .ok []

end RoadVisionAI.Knowledge
