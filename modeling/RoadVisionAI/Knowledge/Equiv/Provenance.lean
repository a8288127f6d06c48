import RoadVisionAI.Knowledge.Equiv.Ingestion
import RoadVisionAI.Knowledge.Search

/-!
# Where a hit comes from

Whatever calls are made, and wherever they fail, an entry of the collection is a chunk of a PDF that
`ingest_pdf` has been called with, and every version of the row with its document id is the row of
that call (`Traceable`).  Which calls these are is a parameter, `known`: those of the entries that
were there, and those that a run starts (`Ingested`).  So a hit of `search` quotes the PDF of a call
of the run and cites its pages (`hits_quote`), and as long as no call fails between its upsert and
its commit, the catalogue bears it out between calls: the document is there, indexed, under that
title, and its text has the words of the hit in one piece (`hits_catalogued`).
-/

namespace RoadVisionAI.Knowledge

open Python Db Transition Windows

variable {E : Type} {env : Env E} {stores : Stores E} {p q : ℕ}

/-! ### What a call makes of its PDF -/

/-- The pages of the PDF, its chunks and their embeddings, under the settings of the service. -/
structure Indexes (env : Env E) (call : Call) (pages : List String) (chunks : List Chunk)
    (embeddings : List E) : Prop where
  extracted : env.extractPdfPages call.pdfBytes = .ok pages
  chunked : chunkPages pages env.settings.ragChunkSize env.settings.ragChunkOverlap = .ok chunks
  embedded : env.embedPassages (chunks.map Chunk.text) = .ok embeddings

/-- `full_text`. -/
def fullText (pages : List String) : String := strip ("\n\n".intercalate pages)

/-- The row is that of the call, whatever its status. -/
def KnowledgeDocument.Of (row : KnowledgeDocument) (call : Call) (pages : List String) : Prop :=
  row = { documentOf row.id call pages (fullText pages) with
    status := row.status
    embeddingCount := row.embeddingCount }

/-- A rewritten row is of the call it was of. -/
theorem KnowledgeDocument.Of.rewrite {row row' : KnowledgeDocument} {call : Call}
    {pages : List String} (h : row.Of call pages)
    (hrow : row' = { row with status := row'.status, embeddingCount := row'.embeddingCount }) :
    row'.Of call pages := by
  rw [KnowledgeDocument.Of] at h ⊢
  rw [h] at hrow
  rw [hrow]
  rfl

section

variable (env : Env E) (known : Call → Prop)

/-- The entry is a chunk of the PDF of a known call. -/
def Vector.Traced (vector : Vector E) : Prop :=
  ∃ call documentId pages chunks embeddings, known call ∧
    Indexes env call pages chunks embeddings ∧
    vector ∈ List.zipWith (vectorOf call documentId) chunks embeddings

/-- It is a chunk of the PDF whose row this is. -/
def KnowledgeDocument.Holds (row : KnowledgeDocument) (vector : Vector E) : Prop :=
  ∃ call pages chunks embeddings, known call ∧ Indexes env call pages chunks embeddings ∧
    row.Of call pages ∧
    vector ∈ List.zipWith (vectorOf call ⟨vector.metadata.documentId⟩) chunks embeddings

/-- The call that a process runs is known. -/
def Proc.Known : Proc E → Prop
  | .idle => True
  | .ingest call _ => known call

/-- What a process has computed so far comes from its call. -/
def Proc.Traces : Proc E → Prop
  | .ingest call (.extracted pages text) =>
    env.extractPdfPages call.pdfBytes = .ok pages ∧ text = fullText pages
  | .ingest call (.flushed document pages) =>
    env.extractPdfPages call.pdfBytes = .ok pages ∧ document.Of call pages
  | .ingest call (.embedded document pages chunks embeddings) =>
    Indexes env call pages chunks embeddings ∧ document.Of call pages
  | .ingest call (.upserted document pages chunks) =>
    (∃ embeddings, Indexes env call pages chunks embeddings) ∧ document.Of call pages
  | .ingest call (.audited document auditLog) =>
    ∃ pages chunks, document.Of call pages ∧ document.embeddingCount = chunks.length ∧
      auditLog = auditOf call document.id chunks pages
  | _ => True

/-- Every version of the row of a vector's document is the row of its PDF. -/
def Borne (stores : Stores E) : Prop :=
  ∀ vector ∈ stores.collection, LockedTable.EveryVersion
    (fun k row => k = ⟨vector.metadata.documentId⟩ → row.Holds env known vector) stores.documents

/-- The invariant. -/
structure Traceable (s : State E) : Prop where
  vectors : ∀ vector ∈ s.stores.collection, vector.Traced env known
  borne : Borne env known s.stores
  calls : ∀ p, (s.procs p).Known known
  procs : ∀ p, (s.procs p).Traces env

end

variable {known : Call → Prop}

/-- More calls may be known. -/
theorem Traceable.mono {known' : Call → Prop} {s : State E} (h : Traceable env known s)
    (hsub : ∀ call, known call → known' call) : Traceable env known' s where
  vectors vector hvector := by
    obtain ⟨call, documentId, pages, chunks, embeddings, hknown, hrest⟩ := h.vectors vector hvector
    exact ⟨call, documentId, pages, chunks, embeddings, hsub call hknown, hrest⟩
  borne vector hvector k row hrow hk := by
    obtain ⟨call, pages, chunks, embeddings, hknown, hrest⟩ := h.borne vector hvector k row hrow hk
    exact ⟨call, pages, chunks, embeddings, hsub call hknown, hrest⟩
  calls p := by
    have hcall := h.calls p
    generalize s.procs p = proc at hcall ⊢
    cases proc with
    | idle => trivial
    | ingest call stage => exact hsub call hcall
  procs := h.procs

/-! ### What the processes compute -/

theorem execIngest_traces {id : Uuid} {call : Call} {stage : Stage E} {outcome : Outcome E}
    (h : execIngest env stores p id call stage = some outcome)
    (hstage : (Proc.ingest call stage).Traces env) : outcome.proc.Traces env := by
  cases stage with
  | started =>
    simp only [execIngest, badRequest, answer, next] at h
    split at h
    · cases h
      trivial
    next pages hpages =>
      split_ifs at h <;> cases h
      · trivial
      · exact ⟨hpages, rfl⟩
  | extracted pages text =>
    simp only [execIngest, next] at h
    split_ifs at h
    cases h
    obtain ⟨hpages, rfl⟩ := hstage
    exact ⟨hpages, rfl⟩
  | flushed document pages =>
    simp only [execIngest, badRequest, answer, next] at h
    split at h
    · cases h
      trivial
    next chunks hchunks =>
      split_ifs at h
      · cases h
        trivial
      · split at h <;> cases h
        · trivial
        next embeddings hembeddings =>
          exact ⟨⟨hstage.1, hchunks, hembeddings⟩, hstage.2⟩
  | embedded document pages chunks embeddings =>
    simp only [execIngest, answer, next] at h
    split_ifs at h <;> cases h
    · exact ⟨⟨embeddings, hstage.1⟩, hstage.2⟩
    · trivial
  | upserted document pages chunks =>
    simp only [execIngest, next] at h
    split_ifs at h
    cases h
    exact ⟨pages, chunks, hstage.2.rewrite rfl, rfl, rfl⟩
  | audited document auditLog =>
    cases h
    trivial
  | committed document =>
    simp only [execIngest, answer] at h
    split at h <;> cases h <;> trivial

/-- A call that has made a step is over, or goes on. -/
theorem proc_of_execIngest {id : Uuid} {call : Call} {stage : Stage E} {outcome : Outcome E}
    (h : execIngest env stores p id call stage = some outcome) :
    outcome.proc = .idle ∨ ∃ stage', outcome.proc = .ingest call stage' := by
  cases stage with
  | started =>
    simp only [execIngest, badRequest, answer, next] at h
    split at h
    · cases h
      exact Or.inl rfl
    · split_ifs at h <;> cases h
      · exact Or.inl rfl
      · exact Or.inr ⟨_, rfl⟩
  | flushed document pages =>
    simp only [execIngest, badRequest, answer, next] at h
    split at h
    · cases h
      exact Or.inl rfl
    · split_ifs at h
      · cases h
        exact Or.inl rfl
      · split at h <;> cases h
        · exact Or.inl rfl
        · exact Or.inr ⟨_, rfl⟩
  | embedded document pages chunks embeddings =>
    simp only [execIngest, answer, next] at h
    split_ifs at h <;> cases h
    · exact Or.inr ⟨_, rfl⟩
    · exact Or.inl rfl
  | committed document =>
    simp only [execIngest, answer] at h
    split at h <;> cases h <;> exact Or.inl rfl
  | extracted | upserted =>
    simp only [execIngest, next] at h
    split_ifs at h
    cases h
    exact Or.inr ⟨_, rfl⟩
  | audited document auditLog =>
    cases h
    exact Or.inr ⟨_, rfl⟩

theorem traces_after {s : State E} {outcome : Outcome E} (hs : ∀ p, (s.procs p).Traces env)
    (houtcome : outcome.proc.Traces env) (q : ℕ) : ((s.after p outcome).procs q).Traces env :=
  (Function.forall_update_iff s.procs fun _ proc => proc.Traces env).mpr
    ⟨houtcome, fun q _ => hs q⟩ q

theorem traces_step {s s' : State E} {a : Action} (hs : ∀ p, (s.procs p).Traces env)
    (h : step env s a = some s') (q : ℕ) : (s'.procs q).Traces env := by
  cases a with
  | start p call =>
    simp only [step] at h
    split at h <;> cases h
    refine traces_after hs ?_ q
    trivial
  | exec p id =>
    obtain ⟨outcome, hexec, rfl⟩ := Option.map_eq_some_iff.mp h
    refine traces_after hs ?_ q
    have hproc := hs p
    cases hstage : s.procs p with
    | idle => rw [hstage] at hexec; cases hexec
    | ingest call stage =>
      rw [hstage] at hexec hproc
      exact execIngest_traces hexec hproc
  | fail p =>
    simp only [step] at h
    split at h <;> cases h
    refine traces_after hs ?_ q
    trivial

/-! ### What the stores hold -/

/-- The versions of an inserted row: there is one. -/
theorem Inserted.every_version {document : KnowledgeDocument} (h : Inserted stores p document)
    {row : KnowledgeDocument}
    (hrow : stores.documents.committed document.id = some row ∨
      ∃ q, (stores.documents.slots document.id).pending = some (q, row)) : row = document := by
  rcases hrow with hcommitted | ⟨q, hpending⟩
  · rw [h.new] at hcommitted
    cases hcommitted
  · have hsame := hpending.symm.trans h.holds
    exact (Prod.mk.inj (Option.some.inj hsame)).2

/-- The upsert of a call: its vectors are of its PDF, and its row is not committed yet. -/
theorem borne_upsert {s : State E} {call : Call} {document : KnowledgeDocument}
    {pages : List String} {chunks : List Chunk} {embeddings : List E}
    (hs : Borne env known s.stores) (hinserted : Inserted s.stores p document)
    (hknown : known call) (hindexes : Indexes env call pages chunks embeddings)
    (hof : document.Of call pages)
    (hcollection : upsert s.stores.collection
        (List.zipWith (vectorOf call document.id) chunks embeddings)
      = s.stores.collection ++ List.zipWith (vectorOf call document.id) chunks embeddings) :
    Borne env known { s.stores with
      collection := upsert s.stores.collection
        (List.zipWith (vectorOf call document.id) chunks embeddings) } := by
  intro vector hvector
  show LockedTable.EveryVersion _ s.stores.documents
  rw [hcollection] at hvector
  rcases List.mem_append.mp hvector with hold | hnew
  · exact hs vector hold
  · rintro k row hrow rfl
    have hid : (⟨vector.metadata.documentId⟩ : Uuid) = document.id := by
      rw [(mem_zipWith_vectorOf hnew).1]
    rw [hid] at hrow
    obtain rfl := hinserted.every_version hrow
    exact ⟨call, pages, chunks, embeddings, hknown, hindexes, hof, by rw [hid]; exact hnew⟩

/-- Every step of a process leaves the rows of the vectors those of their PDFs. -/
theorem borne_makes {s : State E} {outcome : Outcome E} (hs : Sound s)
    (htraceable : Traceable env known s) (h : (s.procs p).Makes env s.stores p outcome) :
    Borne env known (outcome.effect.apply p s.stores) := by
  have hkeeps := hs.keeps p
  have htraces := htraceable.procs p
  have hknown := htraceable.calls p
  have hborne := htraceable.borne
  generalize s.procs p = proc at h hkeeps htraces hknown
  cases h with
  | pass => exact hborne
  | embed => exact hborne
  | refuse => exact fun vector hvector => (hborne vector hvector).rollback p
  | commit => exact fun vector hvector => (hborne vector hvector).commit p
  | flush hid =>
    refine fun vector hvector => (hborne vector hvector).write fun hsame => ?_
    -- a document that has vectors is not new
    exact absurd (hsame ▸ hs.used vector hvector) hid
  | upsert hlength =>
    obtain ⟨hinserted, hnone, hindex, -⟩ := hkeeps
    exact borne_upsert hborne hinserted hknown htraces.1 htraces.2
      (upsert_vectors hs hnone hindex hlength)
  | @audit _ document _ chunks row _ hrow =>
    refine fun vector hvector => (hborne vector hvector).write fun hsame => ?_
    have hid : row.id = document.id := by rw [hrow]
    obtain ⟨call, pages, chunks, embeddings, hknown, hindexes, hof, hmem⟩ :=
      hborne vector hvector document.id document (Or.inr ⟨p, hkeeps.1.holds⟩) (hid ▸ hsame)
    exact ⟨call, pages, chunks, embeddings, hknown, hindexes, hof.rewrite (by rw [hrow]), hmem⟩

/-- A vector in the collection was there, or is of the call that upserts. -/
theorem traced_makes {s : State E} {outcome : Outcome E} (hs : Sound s)
    (htraceable : Traceable env known s) (h : (s.procs p).Makes env s.stores p outcome) :
    ∀ vector ∈ (outcome.effect.apply p s.stores).collection, vector.Traced env known := by
  have hkeeps := hs.keeps p
  have htraces := htraceable.procs p
  have hknown := htraceable.calls p
  generalize s.procs p = proc at h hkeeps htraces hknown
  cases h with
  | @upsert call document pages chunks embeddings hlength =>
    obtain ⟨-, hnone, hindex, -⟩ := hkeeps
    intro vector hvector
    have hvector : vector ∈ upsert s.stores.collection
        (List.zipWith (vectorOf call document.id) chunks embeddings) := hvector
    rw [upsert_vectors hs hnone hindex hlength] at hvector
    rcases List.mem_append.mp hvector with hold | hnew
    · exact htraceable.vectors vector hold
    · exact ⟨call, document.id, pages, chunks, embeddings, hknown, htraces.1, hnew⟩
  | _ => exact htraceable.vectors

/-- A process goes on with the call it runs, or begins with that of the action. -/
theorem known_step {s s' : State E} {a : Action} (hs : ∀ p, (s.procs p).Known known)
    (ha : ∀ p call, a = .start p call → known call) (h : step env s a = some s') (q : ℕ) :
    (s'.procs q).Known known := by
  have hafter : ∀ p (outcome : Outcome E), outcome.proc.Known known →
      ((s.after p outcome).procs q).Known known := fun p outcome houtcome =>
    (Function.forall_update_iff s.procs fun _ proc => proc.Known known).mpr
      ⟨houtcome, fun q _ => hs q⟩ q
  cases a with
  | start p call =>
    simp only [step] at h
    split at h <;> cases h
    exact hafter p _ (ha p call rfl)
  | exec p id =>
    obtain ⟨outcome, hexec, rfl⟩ := Option.map_eq_some_iff.mp h
    have hproc := hs p
    cases hstage : s.procs p with
    | idle => rw [hstage] at hexec; cases hexec
    | ingest call stage =>
      rw [hstage] at hexec hproc
      refine hafter p outcome ?_
      rcases proc_of_execIngest hexec with hidle | ⟨stage', hnext⟩
      · rw [hidle]
        trivial
      · rw [hnext]
        exact hproc
  | fail p =>
    simp only [step] at h
    split at h <;> cases h
    refine hafter p _ ?_
    trivial

theorem traceable_step {s s' : State E} {a : Action} (hs : Sound s)
    (htraceable : Traceable env known s) (ha : ∀ p call, a = .start p call → known call)
    (h : step env s a = some s') : Traceable env known s' := by
  have hcalls := known_step htraceable.calls ha h
  have hprocs := traces_step htraceable.procs h
  rcases step_cases h with ⟨p, outcome, hmakes, rfl, -⟩ | ⟨p, documentId, -, rfl, -⟩
  · exact ⟨traced_makes hs htraceable hmakes, borne_makes hs htraceable hmakes, hcalls, hprocs⟩
  · exact ⟨htraceable.vectors, fun vector hvector => (htraceable.borne vector hvector).rollback p,
      hcalls, hprocs⟩

/-- The calls of `ingest_pdf`: those before the run, and those it starts. -/
def Ingested (before : Call → Prop) (actions : List Action) (call : Call) : Prop :=
  before call ∨ ∃ p, Action.start p call ∈ actions

/-- A run leaves the collection traceable to the calls that it starts. -/
theorem traceable_of_run {s t : State E} {actions : List Action} (hs : s.Quiet)
    (htraceable : Traceable env known s) (hrun : (corpus env).run s actions = some t) :
    Traceable env (Ingested known actions) t := by
  have hstarted : (corpus env).ActionsMeet
      (fun _ a => ∀ p call, a = .start p call → Ingested known actions call) s actions := by
    refine .of_forall fun a ha _ p call hcall => Or.inr ⟨p, ?_⟩
    rwa [← hcall]
  have hstates := sound_invariant.statesMeet_of_actionsMeet
    (fun _ _ _ hs htraceable hstarted hstep => traceable_step hs htraceable hstarted hstep)
    hs.sound (htraceable.mono fun _ => Or.inl) hstarted
  exact hstates.last hrun

/-! ### What a search returns -/

/-- The client returns entries of the collection, no more than asked for, the closest first, in
columns of one length. -/
def Retrieval.Lawful (retrieval : Retrieval E) : Prop :=
  ∀ collection queryVector topK result,
    retrieval.query collection queryVector topK = .ok result →
      ∃ found : List (Vector E), found ⊆ collection ∧ (found.length : ℤ) ≤ topK ∧
        result.documents = found.map Vector.document ∧
        result.metadatas = found.map Vector.metadata ∧
        result.distances.length = found.length ∧ result.distances.Pairwise (· ≤ ·)

/-- The loop over columns of one length. -/
theorem hitsOf_columns (threshold : ℚ) {found : List (Vector E)} {distances : List ℚ}
    (h : distances.length = found.length) :
    hitsOf threshold (found.map Vector.document) (found.map Vector.metadata) distances
      = .ok ((found.zip distances).filterMap fun x =>
          hitOf threshold x.1.document x.1.metadata x.2) := by
  induction found generalizing distances with
  | nil =>
    obtain rfl := List.length_eq_zero_iff.mp h
    rfl
  | cons vector found ih =>
    obtain ⟨distance, distances, rfl⟩ := List.exists_cons_of_length_eq_add_one h
    rw [List.map_cons, List.map_cons, hitsOf, ih (Nat.succ_injective h), List.zip_cons_cons,
      List.filterMap_cons]
    cases hitOf threshold vector.document vector.metadata distance <;> rfl

theorem hitOf_eq_some_iff {threshold distance : ℚ} {text : String} {metadata : Metadata}
    {hit : RagHit} :
    hitOf threshold text metadata distance = some hit ↔ threshold ≤ 1 - distance ∧
      hit = ⟨text, pyRound (1 - distance) 4, metadata.documentId, metadata.title, metadata.docType,
        metadata.pageStart, metadata.pageEnd⟩ := by
  simp only [hitOf]
  split_ifs with h
  · exact iff_of_false (by simp) fun h' => absurd h (not_lt.mpr h'.1)
  · rw [Option.some.injEq, and_iff_right (not_lt.mp h), eq_comm]

/-- What `search` returns: entries of the collection, above the threshold, the most similar
first. -/
theorem search_spec {retrieval : Retrieval E} (hlawful : retrieval.Lawful)
    {collection : List (Vector E)} {query : String} {topK : Option ℤ} {threshold : Option ℚ}
    {hits : List RagHit} (h : search retrieval collection query topK threshold = .ok hits) :
    (hits.length : ℤ) ≤ retrieval.topK topK ∧
      hits.Pairwise (fun hit later => later.similarity ≤ hit.similarity) ∧
      ∀ hit ∈ hits, ∃ vector ∈ collection, ∃ distance,
        hitOf (threshold.getD retrieval.ragSimilarityThreshold) vector.document vector.metadata
          distance = some hit := by
  unfold search at h
  cases hvector : retrieval.embedQuery query with
  | error exc => rw [hvector] at h; cases h
  | ok queryVector =>
    cases hresult : retrieval.query collection queryVector (retrieval.topK topK) with
    | error exc => rw [hvector] at h; simp only [bind, Except.bind, hresult] at h; cases h
    | ok result =>
      obtain ⟨found, hsub, hcount, hdocuments, hmetadatas, hlength, hsorted⟩ :=
        hlawful _ _ _ _ hresult
      rw [hvector] at h
      simp only [bind, Except.bind, hresult, hdocuments, hmetadatas] at h
      rw [hitsOf_columns _ hlength] at h
      obtain rfl := Except.ok.inj h
      refine ⟨?_, ?_, ?_⟩
      · have hzip : (found.zip result.distances).length = found.length := by
          rw [List.length_zip, hlength, Nat.min_self]
        have hle := List.length_filterMap_le
          (fun x : Vector E × ℚ => hitOf (threshold.getD retrieval.ragSimilarityThreshold)
            x.1.document x.1.metadata x.2) (found.zip result.distances)
        omega
      · have hzip : ((found.zip result.distances).map Prod.snd).Pairwise (· ≤ ·) := by
          rw [List.map_snd_zip hlength.le]
          exact hsorted
        rw [List.pairwise_map] at hzip
        refine hzip.filterMap _ fun x y hxy hit hhit later hlater => ?_
        obtain ⟨-, rfl⟩ := hitOf_eq_some_iff.mp hhit
        obtain ⟨-, rfl⟩ := hitOf_eq_some_iff.mp hlater
        exact halfEven.toPlaces_mono 4 (sub_le_sub_left hxy 1)
      · intro hit hhit
        obtain ⟨⟨vector, distance⟩, hmem, hhit⟩ := List.mem_filterMap.mp hhit
        exact ⟨vector, hsub (List.of_mem_zip hmem).1, distance, hhit⟩

/-! ### A hit quotes a PDF -/

/-- A chunk cites pages of its PDF, and is a piece of its words. -/
theorem chunk_of_chunkPages (shape : Shape) {pages : List String} {chunks : List Chunk}
    (h : chunkPages pages shape.size shape.overlap = .ok chunks) {chunk : Chunk}
    (hchunk : chunk ∈ chunks) :
    1 ≤ chunk.pageStart ∧ chunk.pageStart ≤ chunk.pageEnd ∧ chunk.pageEnd ≤ pages.length ∧
      chunk.Cites pages ∧ chunk.words <:+: pages.flatMap split := by
  obtain ⟨chunks', hchunks', -, hrenders⟩ := chunkPages_windows shape pages
  obtain rfl : chunks' = chunks := Except.ok.inj (hchunks'.symm.trans h)
  obtain ⟨window, hwindow, hcut⟩ := exists_of_renders hrenders hchunk
  obtain ⟨hone, hle, hend, hcites⟩ :=
    cites_of_chunkOf (Shape.infix_of_mem_windows hwindow) hcut
  refine ⟨hone, hle, hend, hcites, ?_⟩
  have hmem : chunk.words ∈ shape.windows (pages.flatMap split) := by
    rw [← map_words_chunks hrenders]
    exact List.mem_map_of_mem hchunk
  exact Shape.infix_of_mem_windows hmem

/-- The hit is a chunk of the PDF of the call, under its title, and cites the pages the chunk is
from. -/
def RagHit.Quotes (hit : RagHit) (call : Call) (pages : List String) : Prop :=
  hit.title = call.title ∧ hit.docType = call.docType ∧
    1 ≤ hit.pageStart ∧ hit.pageStart ≤ hit.pageEnd ∧ hit.pageEnd ≤ pages.length ∧
    ∃ chunk : Chunk, hit.text = chunk.text ∧ hit.pageStart = chunk.pageStart ∧
      hit.pageEnd = chunk.pageEnd ∧ chunk.Cites pages ∧ chunk.words <:+: pages.flatMap split

/-- What is shown of an entry of a call. -/
theorem quotes_of_hitOf {call : Call} {documentId : Uuid} {pages : List String}
    {chunks : List Chunk} {embeddings : List E} {vector : Vector E} {threshold distance : ℚ}
    {hit : RagHit} {shape : Shape} (hsize : env.settings.ragChunkSize = shape.size)
    (hoverlap : env.settings.ragChunkOverlap = shape.overlap)
    (hindexes : Indexes env call pages chunks embeddings)
    (hvector : vector ∈ List.zipWith (vectorOf call documentId) chunks embeddings)
    (hhit : hitOf threshold vector.document vector.metadata distance = some hit) :
    hit.Quotes call pages := by
  obtain ⟨-, rfl⟩ := hitOf_eq_some_iff.mp hhit
  rw [← List.map_uncurry_zip_eq_zipWith] at hvector
  obtain ⟨⟨chunk, embedding⟩, hmem, rfl⟩ := List.mem_map.mp hvector
  have hchunked := hindexes.chunked
  rw [hsize, hoverlap] at hchunked
  obtain ⟨hone, hle, hend, hcites, hinfix⟩ :=
    chunk_of_chunkPages shape hchunked (List.of_mem_zip hmem).1
  exact ⟨rfl, rfl, hone, hle, hend, chunk, rfl, rfl, rfl, hcites, hinfix⟩

/-- The threshold a hit has passed, to the four decimals it is shown with. -/
theorem le_similarity_of_hitOf {threshold distance : ℚ} {text : String} {metadata : Metadata}
    {hit : RagHit} (h : hitOf threshold text metadata distance = some hit) :
    pyRound threshold 4 ≤ hit.similarity := by
  obtain ⟨hle, rfl⟩ := hitOf_eq_some_iff.mp h
  exact halfEven.toPlaces_mono 4 hle

/-- **Every hit quotes a PDF.**  Whatever calls of `ingest_pdf` have been made, and wherever they
have failed, a search returns at most `top_k` hits, the most similar first and none below the
threshold, and every one of them is a chunk of a PDF that `ingest_pdf` was called with, in the run
or for what was there before it, under the title and type it was called with, cited by the pages of
the PDF that the chunk is from. -/
theorem hits_quote {s t : State E} {actions : List Action} {retrieval : Retrieval E}
    {query : String} {topK : Option ℤ} {threshold : Option ℚ} {hits : List RagHit}
    (hoverlap : 0 ≤ env.settings.ragChunkOverlap)
    (hsize : env.settings.ragChunkOverlap < env.settings.ragChunkSize) (hs : s.Quiet)
    (htraceable : Traceable env known s) (hrun : (corpus env).run s actions = some t)
    (hlawful : retrieval.Lawful)
    (h : search retrieval t.stores.collection query topK threshold = .ok hits) :
    (hits.length : ℤ) ≤ retrieval.topK topK ∧
      hits.Pairwise (fun hit later => later.similarity ≤ hit.similarity) ∧
      ∀ hit ∈ hits,
        pyRound (threshold.getD retrieval.ragSimilarityThreshold) 4 ≤ hit.similarity ∧
        ∃ call pages, (known call ∨ ∃ p, Action.start p call ∈ actions) ∧
          env.extractPdfPages call.pdfBytes = .ok pages ∧ hit.Quotes call pages := by
  obtain ⟨shape, hshapeSize, hshapeOverlap⟩ := exists_shape hoverlap hsize
  obtain ⟨hcount, hsorted, hfound⟩ := search_spec hlawful h
  refine ⟨hcount, hsorted, fun hit hhit => ?_⟩
  obtain ⟨vector, hvector, distance, hhit⟩ := hfound hit hhit
  obtain ⟨call, documentId, pages, chunks, embeddings, hingested, hindexes, hmem⟩ :=
    (traceable_of_run hs htraceable hrun).vectors vector hvector
  exact ⟨le_similarity_of_hitOf hhit, call, pages, hingested, hindexes.extracted,
    quotes_of_hitOf hshapeSize hshapeOverlap hindexes hmem hhit⟩

/-- A client that takes the first entries for the closest. -/
def firstEntries : Retrieval ℕ where
  embedQuery query := .ok query.length
  query collection _ topK :=
    if topK ≤ 0 then .error (.typeError "Number of requested results cannot be negative, or zero.")
    else
      let found := collection.take topK.toNat
      .ok ⟨found.map Vector.document, found.map Vector.metadata, found.map fun _ => 0⟩

theorem lawful_firstEntries : firstEntries.Lawful := by
  intro collection queryVector topK result h
  simp only [firstEntries] at h
  split_ifs at h
  obtain rfl := Except.ok.inj h
  refine ⟨collection.take topK.toNat, List.take_subset _ _, ?_, rfl, rfl, List.length_map _, ?_⟩
  · rw [List.length_take]
    omega
  · exact List.pairwise_map.mpr (List.pairwise_of_forall fun _ _ => le_rfl)

/-- The corpus without documents, and without calls. -/
theorem traceable_noDocuments : Traceable pageEnv (fun _ => False) noDocuments where
  vectors _ h := nomatch h
  borne _ h := nomatch h
  calls _ := trivial
  procs _ := trivial

/-- The titles of the hits on the fissures. -/
def titles (s : State ℕ) : Option (List String) :=
  match search firstEntries s.stores.collection "fissures" none none with
  | .ok hits => some (hits.map RagHit.title)
  | .error _ => none

theorem search_of_titles {t : State ℕ} {names : List String} (h : titles t = some names) :
    ∃ hits, search firstEntries t.stores.collection "fissures" none none = .ok hits ∧
      hits.map RagHit.title = names := by
  unfold titles at h
  split at h
  next hits hhits => exact ⟨hits, hhits, Option.some.inj h⟩
  · cases h

/-- The hit after the norm is ingested. -/
theorem hits_quote_ingested :
    ∃ t hits, (corpus pageEnv).run noDocuments ingested = some t ∧
      search firstEntries t.stores.collection "fissures" none none = .ok hits ∧
      hits.map RagHit.title = ["Norme entretien DGR"] ∧
      ∀ hit ∈ hits, ∃ call pages, (∃ p, Action.start p call ∈ ingested) ∧
        pageEnv.extractPdfPages call.pdfBytes = .ok pages ∧ hit.Quotes call pages := by
  have heval : ((corpus pageEnv).run noDocuments ingested).map titles
      = some (some ["Norme entretien DGR"]) := by
    decide +kernel
  obtain ⟨t, ht, -, htitles⟩ := Machine.reachable_of_map_run quiet_noDocuments heval
  obtain ⟨hits, hhits, hnames⟩ := search_of_titles htitles
  have hquote := hits_quote (by decide) (by decide) quiet_noDocuments traceable_noDocuments ht
    lawful_firstEntries hhits
  refine ⟨t, hits, ht, hhits, hnames, fun hit hhit => ?_⟩
  obtain ⟨-, call, pages, hingested, hpages, hquotes⟩ := hquote.2.2 hit hhit
  exact ⟨call, pages, hingested.resolve_left id, hpages, hquotes⟩

/-! ### The catalogue bears it out -/

/-- The row shows the PDF the hit is from: its title, its pages, its text. -/
def KnowledgeDocument.Bears (row : KnowledgeDocument) (hit : RagHit) : Prop :=
  row.status = .INDEXED ∧ row.title = hit.title ∧ row.docType = hit.docType ∧
    1 ≤ hit.pageStart ∧ hit.pageStart ≤ hit.pageEnd ∧ hit.pageEnd ≤ row.pageCount ∧
    split hit.text ≠ [] ∧ split hit.text <:+: split row.content

/-- The words of the stored text are those of the pages. -/
theorem split_fullText (pages : List String) : split (fullText pages) = pages.flatMap split := by
  have hsep : "\n\n".toList.all isSpace = true := by decide +kernel
  rw [fullText, split_strip, split_intercalate_space (List.all_eq_true.mp hsep) (by decide)]

/-- **The catalogue bears every hit out.**  As long as no call fails between its upsert and its
commit, between calls the document of every hit is committed and indexed, under the title and type
of the hit; the pages that are cited are pages it has, and its text has the words of the hit in one
piece. -/
theorem hits_catalogued {s t : State E} {actions : List Action} {retrieval : Retrieval E}
    {query : String} {topK : Option ℤ} {threshold : Option ℚ} {hits : List RagHit}
    (hoverlap : 0 ≤ env.settings.ragChunkOverlap)
    (hsize : env.settings.ragChunkOverlap < env.settings.ragChunkSize) (hs : s.Quiet)
    (htraceable : Traceable env known s) (hrun : (corpus env).run s actions = some t)
    (hunbroken : (corpus env).ActionsMeet Unbroken s actions) (hidle : t.Idle)
    (hlawful : retrieval.Lawful)
    (h : search retrieval t.stores.collection query topK threshold = .ok hits) :
    ∀ hit ∈ hits, ∃ row, t.stores.documents.committed ⟨hit.documentId⟩ = some row ∧
      row.Bears hit := by
  obtain ⟨shape, hshapeSize, hshapeOverlap⟩ := exists_shape hoverlap hsize
  have hsound : Sound t := sound_invariant.of_run hs.sound hrun
  have howned : Owned t := (sound_invariant.end_iff_actionsMeet
    (fun _ _ _ hs h => owned_step_iff hs h) hs.sound hrun).mpr
    ⟨(agree_iff_owned hs.sound hs.idle).mp hs.agree, hunbroken⟩
  intro hit hhit
  obtain ⟨vector, hvector, distance, hhit⟩ := (search_spec hlawful h).2.2 hit hhit
  obtain ⟨row, hrow, hindexed⟩ := ((agree_iff_owned hsound hidle).mpr howned).owned vector hvector
  obtain ⟨call, pages, chunks, embeddings, -, hindexes, hof, hmem⟩ :=
    (traceable_of_run hs htraceable hrun).borne vector hvector _ row (Or.inl hrow) rfl
  obtain ⟨htitle, hdocType, hone, hle, hend, chunk, htext, -, -, hcites, hinfix⟩ :=
    quotes_of_hitOf hshapeSize hshapeOverlap hindexes hmem hhit
  obtain ⟨-, rfl⟩ := hitOf_eq_some_iff.mp hhit
  have hwords : split vector.document = chunk.words := congrArg split htext
  refine ⟨row, hrow, hindexed, ?_, ?_, hone, hle, ?_, ?_, ?_⟩
  · rw [hof, htitle]
    rfl
  · rw [hof, hdocType]
    rfl
  · rw [hof]
    exact hend
  · rw [hwords]
    exact hcites.1
  · rw [hwords, hof]
    show chunk.words <:+: split (fullText pages)
    rw [split_fullText]
    exact hinfix

/-- The norm is in the catalogue. -/
theorem hits_catalogued_ingested :
    ∃ t hits, (corpus pageEnv).run noDocuments ingested = some t ∧
      search firstEntries t.stores.collection "fissures" none none = .ok hits ∧
      hits.map RagHit.title = ["Norme entretien DGR"] ∧
      ∀ hit ∈ hits, ∃ row, t.stores.documents.committed ⟨hit.documentId⟩ = some row ∧
        row.Bears hit := by
  have heval : ((corpus pageEnv).run noDocuments ingested).map (fun t => (seen t, titles t))
      = some ((true, ["d1"], true), some ["Norme entretien DGR"]) := by
    decide +kernel
  obtain ⟨t, ht, -, heq⟩ := Machine.reachable_of_map_run quiet_noDocuments heval
  obtain ⟨hseen, htitles⟩ := Prod.mk.inj heq
  have hidle : t.Idle := idle_of_seen ht (by decide) hseen
  have hunbroken : (corpus pageEnv).ActionsMeet Unbroken noDocuments ingested := by decide
  obtain ⟨hits, hhits, hnames⟩ := search_of_titles htitles
  exact ⟨t, hits, ht, hhits, hnames, hits_catalogued (by decide) (by decide) quiet_noDocuments
    traceable_noDocuments ht hunbroken hidle lawful_firstEntries hhits⟩

end RoadVisionAI.Knowledge
