import RoadVisionAI.Knowledge.Equiv.TwoStores
import RoadVisionAI.Knowledge.Equiv.Windows

/-!
# Text enough to index

`ingest_pdf` asks twice whether there is anything to index: whether the joined pages are blank, and
whether there are chunks.  Both go by the same white space, so a text that passes the first check
passes the second (`exists_chunk`), and the second never answers a request (`ingestion_indexes`).
-/

namespace RoadVisionAI.Knowledge

open Python Db Transition Windows

variable {E : Type} {env : Env E} {stores : Stores E} {p : ℕ}

/-- What the first check asks for. -/
def HasText (pages : List String) : Prop := strip ("\n\n".intercalate pages) ≠ ""

/-- The settings as the chunker needs them. -/
theorem exists_shape {chunkSize overlap : ℤ} (hoverlap : 0 ≤ overlap) (h : overlap < chunkSize) :
    ∃ shape : Shape, chunkSize = shape.size ∧ overlap = shape.overlap :=
  ⟨⟨chunkSize.toNat, overlap.toNat, by omega⟩, by simp; omega, by simp; omega⟩

/-- A text that is not blank has a chunk. -/
theorem exists_chunk (shape : Shape) {pages : List String} (h : HasText pages) :
    ∃ chunks, chunkPages pages shape.size shape.overlap = .ok chunks ∧ chunks ≠ [] := by
  obtain ⟨chunks, hchunks, -, hrenders⟩ := chunkPages_windows shape pages
  refine ⟨chunks, hchunks, ?_⟩
  rintro rfl
  have hwindows : shape.windows (pages.flatMap split) = [] := (map_words_chunks hrenders).symm
  have hsep : "\n\n".toList.all isSpace = true := by decide +kernel
  apply h
  apply strip_intercalate_eq_empty (List.all_eq_true.mp hsep)
  by_contra hwords
  have hne : pages.flatMap split ≠ [] := fun hnil => hwords (List.flatMap_eq_nil_iff.mp hnil)
  exact Shape.windows_ne_nil hne hwindows

/-- The names of the vectors of a document are distinct. -/
theorem nodup_vectorIds {chunks : List Chunk}
    (h : chunks.map Chunk.index = List.range chunks.length) (documentId : Uuid) :
    (chunks.map fun chunk => vectorId documentId chunk.index).Nodup := by
  have hmap : chunks.map (fun chunk => vectorId documentId chunk.index)
      = (chunks.map Chunk.index).map (vectorId documentId) := by
    rw [List.map_map]
    rfl
  rw [hmap, h]
  exact List.Nodup.map (fun _ _ hid => (vectorId_inj hid).2) List.nodup_range

/-! ### Between the two checks -/

/-- What a call has extracted has passed the first check. -/
def Proc.HasText : Proc E → Prop
  | .ingest _ (.extracted pages _) | .ingest _ (.flushed _ pages) => Knowledge.HasText pages
  | _ => True

theorem execIngest_hasText {id : Uuid} {call : Call} {stage : Stage E} {outcome : Outcome E}
    (h : execIngest env stores p id call stage = some outcome)
    (hstage : (Proc.ingest call stage).HasText) : outcome.proc.HasText := by
  cases stage with
  | started =>
    simp only [execIngest, badRequest, answer, next] at h
    split at h
    · cases h
      trivial
    · split_ifs at h with hblank <;> cases h
      · trivial
      · exact hblank
  | extracted pages fullText =>
    simp only [execIngest, next] at h
    split_ifs at h
    cases h
    exact hstage
  | flushed document pages =>
    simp only [execIngest, badRequest, answer, next] at h
    split at h
    · cases h
      trivial
    · split_ifs at h
      · cases h
        trivial
      · split at h <;> cases h <;> trivial
  | embedded document pages chunks embeddings =>
    simp only [execIngest, answer, next] at h
    split_ifs at h <;> cases h <;> trivial
  | upserted document pages chunks =>
    simp only [execIngest, next] at h
    split_ifs at h
    cases h
    trivial
  | audited document auditLog =>
    cases h
    trivial
  | committed document =>
    simp only [execIngest, answer] at h
    split at h <;> cases h <;> trivial

theorem hasText_after {s : State E} {outcome : Outcome E} (hs : ∀ p, (s.procs p).HasText)
    (houtcome : outcome.proc.HasText) (q : ℕ) : ((s.after p outcome).procs q).HasText :=
  (Function.forall_update_iff s.procs fun _ proc => proc.HasText).mpr
    ⟨houtcome, fun q _ => hs q⟩ q

/-- Where every call has text, every call has after a step. -/
theorem hasText_step {s s' : State E} {a : Action} (hs : ∀ p, (s.procs p).HasText)
    (h : step env s a = some s') (q : ℕ) : (s'.procs q).HasText := by
  cases a with
  | start p call =>
    simp only [step] at h
    split at h <;> cases h
    refine hasText_after hs ?_ q
    trivial
  | exec p id =>
    obtain ⟨outcome, hexec, rfl⟩ := Option.map_eq_some_iff.mp h
    refine hasText_after hs ?_ q
    have hproc := hs p
    cases hstage : s.procs p with
    | idle => rw [hstage] at hexec; cases hexec
    | ingest call stage =>
      rw [hstage] at hexec hproc
      exact execIngest_hasText hexec hproc
  | fail p =>
    simp only [step] at h
    split at h <;> cases h
    refine hasText_after hs ?_ q
    trivial

theorem hasText_invariant : (corpus env).Invariant fun s => ∀ p, (s.procs p).HasText where
  init s hs p := by
    rw [hs.idle p]
    trivial
  step _ _ _ hs h := hasText_step hs h

/-- With chunks there is no second complaint. -/
theorem execIngest_flushed_ne {id : Uuid} {call : Call} {document : KnowledgeDocument}
    {pages : List String} {chunks : List Chunk}
    (h : chunkPages pages env.settings.ragChunkSize env.settings.ragChunkOverlap = .ok chunks)
    (hne : chunks ≠ []) :
    execIngest env stores p id call (.flushed document pages)
      ≠ badRequest "No content to index" := by
  simp only [execIngest, h, if_neg hne]
  split <;> simp [answer, next, badRequest]

/-- **What is not blank is indexed.**  With `0 ≤ overlap < chunk_size`, pages that are not blank
have a chunk, whose vectors have distinct names; no call comes to the answer "No content to index",
and a document that is about to be committed counts as many vectors as have been written for it. -/
theorem ingestion_indexes (env : Env E) (hoverlap : 0 ≤ env.settings.ragChunkOverlap)
    (hsize : env.settings.ragChunkOverlap < env.settings.ragChunkSize) :
    (∀ pages, HasText pages → ∃ chunks,
      chunkPages pages env.settings.ragChunkSize env.settings.ragChunkOverlap = .ok chunks ∧
      chunks ≠ [] ∧ ∀ documentId, (chunks.map fun chunk => vectorId documentId chunk.index).Nodup) ∧
    ∀ s, (corpus env).Reachable s → ∀ p call,
      (∀ document pages, s.procs p = .ingest call (.flushed document pages) →
        ∀ id, execIngest env s.stores p id call (.flushed document pages)
          ≠ badRequest "No content to index") ∧
      ∀ document auditLog, s.procs p = .ingest call (.audited document auditLog) →
        (vectorsOf s.stores.collection document.id).length = document.embeddingCount := by
  obtain ⟨shape, hshapeSize, hshapeOverlap⟩ := exists_shape hoverlap hsize
  rw [hshapeSize, hshapeOverlap]
  constructor
  · intro pages hpages
    obtain ⟨chunks, hchunks, hne⟩ := exists_chunk shape hpages
    have hindex := index_chunkPages hchunks
    rw [← List.range_eq_range'] at hindex
    exact ⟨chunks, hchunks, hne, nodup_vectorIds hindex⟩
  · intro s hs p call
    constructor
    · intro document pages hproc id
      have htext := hasText_invariant.holds hs p
      rw [hproc] at htext
      obtain ⟨chunks, hchunks, hne⟩ := exists_chunk shape htext
      rw [← hshapeSize, ← hshapeOverlap] at hchunks
      exact execIngest_flushed_ne hchunks hne
    · intro document auditLog hproc
      have hkeeps := (sound_invariant.holds hs).keeps p
      rw [hproc] at hkeeps
      exact hkeeps.2.1

/-- The page of the norm, under the default settings. -/
theorem ingestion_indexes_norm :
    HasText ["Colmatage des fissures"] ∧ ∃ chunks,
      chunkPages ["Colmatage des fissures"] 512 50 = .ok chunks ∧ chunks ≠ [] ∧
      ∀ documentId, (chunks.map fun chunk => vectorId documentId chunk.index).Nodup := by
  have htext : HasText ["Colmatage des fissures"] := by
    unfold HasText
    decide +kernel
  exact ⟨htext, (ingestion_indexes pageEnv (by decide) (by decide)).1 _ htext⟩

end RoadVisionAI.Knowledge
