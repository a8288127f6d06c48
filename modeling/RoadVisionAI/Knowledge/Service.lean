import RoadVisionAI.Db.Models
import RoadVisionAI.Knowledge.Chunking
import RoadVisionAI.Python.Json
import RoadVisionAI.Transition.LockedTable
import RoadVisionAI.Transition.Machine

/-!
# The normative corpus (`app/ai/rag/knowledge_service.py`)

`KnowledgeService.ingest_pdf` as a process over two stores: the `knowledge_documents` table, under
transactions, and the collection of vectors, under none.  An action starts a call, lets it make its
next step, or makes it fail there; the steps of different calls interleave.  An upsert into the
collection happens as a whole or not at all, and nothing is ever taken out.

The text extraction and the embedding are parameters; `E` is the type of an embedding.
-/

namespace RoadVisionAI.Knowledge

open Python Db Transition

/-! ### The two stores -/

/-- A row of `knowledge_documents`, the columns that `ingest_pdf` sets. -/
structure KnowledgeDocument where
  id : Uuid
  title : String
  source : Option String
  docType : String
  version : Option String
  content : String
  pageCount : ℕ
  status : DocumentStatus
  embeddingCount : ℕ
  uploadedBy : Uuid
deriving DecidableEq

/-- The column types and the `CHECK` constraints. -/
def KnowledgeDocument.Checks (row : KnowledgeDocument) : Prop :=
  row.title.length ≤ 500 ∧ (∀ source ∈ row.source, source.length ≤ 500) ∧
    (∀ version ∈ row.version, version.length ≤ 50) ∧ 0 < row.pageCount ∧ row.pageCount < 2 ^ 31 ∧
    row.embeddingCount < 2 ^ 31

instance : DecidablePred KnowledgeDocument.Checks :=
  fun row => inferInstanceAs (Decidable (row.title.length ≤ 500 ∧
    (∀ source ∈ row.source, source.length ≤ 500) ∧ (∀ version ∈ row.version, version.length ≤ 50) ∧
    0 < row.pageCount ∧ row.pageCount < 2 ^ 31 ∧ row.embeddingCount < 2 ^ 31))

/-- A row of `audit_logs`, as `ingest_pdf` fills it in. -/
structure AuditLog where
  action : String
  entityType : String
  entityId : Uuid
  userId : Uuid
  newValue : Json

/-- What is kept beside a vector for citation. -/
structure Metadata where
  documentId : String
  title : String
  docType : String
  pageStart : ℕ
  pageEnd : ℕ
deriving DecidableEq

/-- An entry of the collection. -/
structure Vector (E : Type) where
  id : String
  embedding : E
  document : String
  metadata : Metadata

variable {E : Type}

/-- `upsert` of one entry: in the place of the one with its id, else at the end. -/
def upsertOne (collection : List (Vector E)) (vector : Vector E) : List (Vector E) :=
  if collection.any fun old => old.id = vector.id then
    collection.map fun old => if old.id = vector.id then vector else old
  else collection ++ [vector]

/-- `collection.upsert(…)`. -/
def upsert (collection vectors : List (Vector E)) : List (Vector E) :=
  vectors.foldl upsertOne collection

structure Stores (E : Type) where
  documents : LockedTable Uuid KnowledgeDocument
  auditLogs : List AuditLog
  collection : List (Vector E)

/-! ### The code between the steps -/

/-- `Settings`, the fields of the chunker. -/
structure Settings where
  ragChunkSize : ℤ := 512
  ragChunkOverlap : ℤ := 50

/-- What the service is built with. -/
structure Env (E : Type) where
  settings : Settings
  extractPdfPages : ByteArray → Except PyException (List String)
  embedPassages : List String → Except PyException (List E)

/-- The arguments of `ingest_pdf`. -/
structure Call where
  pdfBytes : ByteArray
  title : String
  docType : String
  source : Option String
  version : Option String
  actorId : Uuid

/-- `KnowledgeDocument(…)`. -/
def documentOf (id : Uuid) (call : Call) (pages : List String) (fullText : String) :
    KnowledgeDocument where
  id
  title := call.title
  source := call.source
  docType := call.docType
  version := call.version
  content := fullText
  pageCount := pages.length
  status := .PENDING
  embeddingCount := 0
  uploadedBy := call.actorId

/-- `f"{document.id}:{c.index}"`. -/
def vectorId (documentId : Uuid) (index : ℕ) : String := s!"{documentId.str}:{index}"

/-- The entry of a chunk. -/
def vectorOf (call : Call) (documentId : Uuid) (chunk : Chunk) (embedding : E) : Vector E where
  id := vectorId documentId chunk.index
  embedding
  document := chunk.text
  metadata := {
    documentId := documentId.str
    title := call.title
    docType := call.docType
    pageStart := chunk.pageStart
    pageEnd := chunk.pageEnd }

/-- The `DOCUMENT_INDEXED` entry. -/
def auditOf (call : Call) (documentId : Uuid) (chunks : List Chunk) (pages : List String) :
    AuditLog where
  action := "DOCUMENT_INDEXED"
  entityType := "knowledge_documents"
  entityId := documentId
  userId := call.actorId
  newValue := .obj [("title", .str call.title), ("chunks", .int chunks.length),
    ("pages", .int pages.length)]

/-! ### Processes -/

/-- How far a call has come. -/
inductive Stage (E : Type) where
  | started
  /-- The text is extracted. -/
  | extracted (pages : List String) (fullText : String)
  /-- The document is flushed. -/
  | flushed (document : KnowledgeDocument) (pages : List String)
  /-- The chunks are embedded. -/
  | embedded (document : KnowledgeDocument) (pages : List String) (chunks : List Chunk)
    (embeddings : List E)
  /-- The vectors are in the collection. -/
  | upserted (document : KnowledgeDocument) (pages : List String) (chunks : List Chunk)
  /-- The status, the count and the audit entry are flushed. -/
  | audited (document : KnowledgeDocument) (auditLog : AuditLog)
  | committed (document : KnowledgeDocument)

inductive Proc (E : Type) where
  | idle
  | ingest (call : Call) (stage : Stage E)

/-- What a call has answered. -/
inductive Response where
  | ingested (document : KnowledgeDocument)
  | refused (raised : Raised)

/-- What a step does to the stores. -/
inductive Effect (E : Type) where
  | none
  | write (documents : LockedTable Uuid KnowledgeDocument)
  | upsert (vectors : List (Vector E))
  | commit (auditLog : AuditLog)
  | rollback

/-- The stores after the effect of a step of process `p`. -/
def Effect.apply (p : ℕ) (stores : Stores E) : Effect E → Stores E
  | .none => stores
  | .write documents => { stores with documents }
  | .upsert vectors => { stores with collection := Knowledge.upsert stores.collection vectors }
  | .commit auditLog =>
    { stores with
      documents := stores.documents.commit p
      auditLogs := stores.auditLogs ++ [auditLog] }
  | .rollback => { stores with documents := stores.documents.rollback p }

structure Outcome (E : Type) where
  effect : Effect E
  proc : Proc E
  responses : List Response

/-- The call goes on. -/
def next (call : Call) (effect : Effect E) (stage : Stage E) : Option (Outcome E) :=
  some ⟨effect, .ingest call stage, []⟩

/-- The call ends; its session is closed. -/
def answer (response : Response) : Option (Outcome E) := some ⟨.rollback, .idle, [response]⟩

/-- `raise HTTPException(status.HTTP_400_BAD_REQUEST, detail)`. -/
def badRequest (detail : String) : Option (Outcome E) :=
  answer (.refused (.http ⟨400, detail, []⟩))

/-- The next step of `ingest_pdf`; `id` is the identifier the database draws. -/
def execIngest (env : Env E) (stores : Stores E) (p : ℕ) (id : Uuid) (call : Call) :
    Stage E → Option (Outcome E)
  | .started =>
    match env.extractPdfPages call.pdfBytes with
    | .error exc => badRequest s!"Unreadable PDF: {exc.text}"
    | .ok pages =>
      let fullText := strip ("\n\n".intercalate pages)
      if fullText = "" then badRequest "PDF contains no extractable text (scanned document?)"
      else next call .none (.extracted pages fullText)
  | .extracted pages fullText =>
    let document := documentOf id call pages fullText
    -- where a flush would raise, only a failure is left
    if id ∉ stores.documents.keys ∧ document.Checks then
      next call (.write (stores.documents.write p id document)) (.flushed document pages)
    else none
  | .flushed document pages =>
    match chunkPages pages env.settings.ragChunkSize env.settings.ragChunkOverlap with
    | .error exc => answer (.refused (.other exc))
    | .ok chunks =>
      if chunks = [] then badRequest "No content to index"
      else
        match env.embedPassages (chunks.map Chunk.text) with
        | .error exc => answer (.refused (.other exc))
        | .ok embeddings => next call .none (.embedded document pages chunks embeddings)
  | .embedded document pages chunks embeddings =>
    -- the client rejects lists of different lengths
    if embeddings.length = chunks.length then
      next call (.upsert (List.zipWith (vectorOf call document.id) chunks embeddings))
        (.upserted document pages chunks)
    else answer (.refused (.other (.valueError "")))
  | .upserted document pages chunks =>
    let row := { document with status := .INDEXED, embeddingCount := chunks.length }
    if row.Checks then
      next call (.write (stores.documents.write p row.id row))
        (.audited row (auditOf call row.id chunks pages))
    else none
  | .audited document auditLog => next call (.commit auditLog) (.committed document)
  | .committed document =>
    match (stores.documents.slots document.id).visible p with
    | none => answer (.refused (.other (.other "InvalidRequestError" "")))
    | some row => answer (.ingested row)

/-- The next step of a process. -/
def exec (env : Env E) (stores : Stores E) (p : ℕ) (id : Uuid) : Proc E → Option (Outcome E)
  | .idle => none
  | .ingest call stage => execIngest env stores p id call stage

/-! ### The machine -/

structure State (E : Type) where
  stores : Stores E
  procs : ℕ → Proc E
  responses : List Response

/-- An action: a call arrives, a process makes its next step, or it fails there. -/
inductive Action where
  | start (p : ℕ) (call : Call)
  | exec (p : ℕ) (id : Uuid)
  | fail (p : ℕ)

/-- Process `p` has made a step. -/
def State.after (s : State E) (p : ℕ) (outcome : Outcome E) : State E where
  stores := outcome.effect.apply p s.stores
  procs := Function.update s.procs p outcome.proc
  responses := s.responses ++ outcome.responses

/-- One action. -/
def step (env : Env E) (s : State E) : Action → Option (State E)
  | .start p call =>
    match s.procs p with
    | .idle => some (s.after p ⟨.none, .ingest call .started, []⟩)
    | .ingest .. => none
  | .exec p id => (exec env s.stores p id (s.procs p)).map (s.after p)
  | .fail p =>
    match s.procs p with
    | .idle => none
    | .ingest .. => some (s.after p ⟨.rollback, .idle, []⟩)

/-- No call is under way. -/
def State.Idle (s : State E) : Prop := ∀ p, s.procs p = .idle

/-- The vectors of a document. -/
def vectorsOf (collection : List (Vector E)) (documentId : Uuid) : List (Vector E) :=
  collection.filter fun vector => vector.metadata.documentId = documentId.str

/-- Vector store and database agree: every vector is of a committed indexed document, and such a
document has as many vectors as it counts. -/
structure Agree (stores : Stores E) : Prop where
  owned : ∀ vector ∈ stores.collection, ∃ row,
    stores.documents.committed ⟨vector.metadata.documentId⟩ = some row ∧ row.status = .INDEXED
  counted : ∀ documentId row, stores.documents.committed documentId = some row →
    row.status = .INDEXED → (vectorsOf stores.collection documentId).length = row.embeddingCount

/-- No call is under way, nothing is locked, and the stores agree on vectors that `ingest_pdf` has
named. -/
structure State.Quiet (s : State E) : Prop where
  idle : s.Idle
  settled : ∀ k, (s.stores.documents.slots k).pending = none
  named : ∀ vector ∈ s.stores.collection, ∃ index,
    vector.id = vectorId ⟨vector.metadata.documentId⟩ index
  agree : Agree s.stores

/-- The corpus, from any quiet state. -/
def corpus (env : Env E) : Machine (State E) Action where
  init := State.Quiet
  step := step env

end RoadVisionAI.Knowledge
