import RoadVisionAI.Knowledge.Equiv.Chunking
import RoadVisionAI.Knowledge.Service
import RoadVisionAI.Python.Equiv.Str

/-!
# Vector store and database

`ingest_pdf` upserts the vectors of a document before it commits the document.  A call that fails in
between leaves vectors whose document is rolled back, and nothing ever removes them.  As long as no
call does, the two stores agree whenever no call is under way (`agree_iff_unbroken`).

`Sound` holds in every run: what each process holds of the table, and that the vectors of a document
are as many as its row counts, or as its call has chunks.
-/

namespace RoadVisionAI.Knowledge

open Python Db Transition

variable {E : Type} {env : Env E} {stores : Stores E} {p q : ℕ}

/-! ### Upserts -/

/-- A vector id names its document and its chunk. -/
theorem vectorId_inj {documentId documentId' : Uuid} {index index' : ℕ}
    (h : vectorId documentId index = vectorId documentId' index') :
    documentId = documentId' ∧ index = index' := by
  have hsplit : ∀ (documentId : Uuid) (index : ℕ),
      vectorId documentId index = documentId.str ++ String.singleton ':' ++ toString index :=
    fun _ _ => rfl
  have hhead := congrArg (rsplitHead ':') h
  rw [hsplit, hsplit, rsplitHead_append (notMem_toString rfl _),
    rsplitHead_append (notMem_toString rfl _)] at hhead
  rw [hsplit, hsplit, hhead] at h
  have hdigits : Nat.toDigits 10 index = Nat.toDigits 10 index' := by
    have htail : (toString index).toList = (toString index').toList := by
      simpa [String.toList_append] using congrArg String.toList h
    rwa [Nat.toString_eq_ofList_toDigits, Nat.toString_eq_ofList_toDigits, String.toList_ofList,
      String.toList_ofList] at htail
  have hindex : index = index' := by
    rw [← Nat.ofDigitChars_ten_toDigits (n := index), hdigits, Nat.ofDigitChars_ten_toDigits]
  exact ⟨congrArg Uuid.mk hhead, hindex⟩

/-- New entries under different ids are added at the end. -/
theorem upsert_eq_append {collection vectors : List (Vector E)}
    (hnew : ∀ vector ∈ vectors, ∀ old ∈ collection, old.id ≠ vector.id)
    (hnodup : (vectors.map Vector.id).Nodup) :
    upsert collection vectors = collection ++ vectors := by
  induction vectors generalizing collection with
  | nil => exact (List.append_nil _).symm
  | cons vector vectors ih =>
    obtain ⟨hhead, htail⟩ := List.nodup_cons.mp hnodup
    have hone : upsertOne collection vector = collection ++ [vector] := by
      apply if_neg
      simpa using hnew vector List.mem_cons_self
    have hstep :
        upsert collection (vector :: vectors) = upsert (collection ++ [vector]) vectors := by
      rw [← hone]
      rfl
    rw [hstep, ih ?_ htail, List.append_assoc, List.singleton_append]
    intro later hlater old hold
    rcases List.mem_append.mp hold with hcollection | hvector
    · exact hnew later (List.mem_cons_of_mem _ hlater) old hcollection
    · rw [List.mem_singleton.mp hvector]
      intro heq
      exact hhead (heq ▸ List.mem_map_of_mem hlater)

/-- The entries of a call: their document, and their ids. -/
theorem mem_zipWith_vectorOf {call : Call} {documentId : Uuid} {chunks : List Chunk}
    {embeddings : List E} {vector : Vector E}
    (h : vector ∈ List.zipWith (vectorOf call documentId) chunks embeddings) :
    vector.metadata.documentId = documentId.str ∧
      ∃ index, vector.id = vectorId documentId index := by
  rw [← List.map_uncurry_zip_eq_zipWith] at h
  obtain ⟨⟨chunk, embedding⟩, -, rfl⟩ := List.mem_map.mp h
  exact ⟨rfl, chunk.index, rfl⟩

theorem nodup_zipWith_vectorOf {call : Call} {documentId : Uuid} {chunks : List Chunk}
    {embeddings : List E} (hindex : chunks.map Chunk.index = List.range' 0 chunks.length)
    (hlength : embeddings.length = chunks.length) :
    ((List.zipWith (vectorOf call documentId) chunks embeddings).map Vector.id).Nodup := by
  have hids : (List.zipWith (vectorOf call documentId) chunks embeddings).map Vector.id
      = (chunks.map Chunk.index).map (vectorId documentId) := by
    have hchunks : (List.zip chunks embeddings).map Prod.fst = chunks :=
      List.map_fst_zip hlength.ge
    rw [← List.map_uncurry_zip_eq_zipWith, List.map_map, List.map_map]
    conv_rhs => rw [← hchunks, List.map_map]
    rfl
  rw [hids, hindex]
  exact List.Nodup.map (fun _ _ h => (vectorId_inj h).2) List.nodup_range'

theorem vectorsOf_append (collection vectors : List (Vector E)) (documentId : Uuid) :
    vectorsOf (collection ++ vectors) documentId
      = vectorsOf collection documentId ++ vectorsOf vectors documentId :=
  List.filter_append ..

theorem mem_vectorsOf {collection : List (Vector E)} {documentId : Uuid} {vector : Vector E} :
    vector ∈ vectorsOf collection documentId ↔
      vector ∈ collection ∧ vector.metadata.documentId = documentId.str := by
  rw [vectorsOf, List.mem_filter, decide_eq_true_eq]

/-! ### What a step can do -/

/-- The document whose vectors a call has put into the collection, and has not committed. -/
def Proc.exposes : Proc E → Option Uuid
  | .ingest _ (.upserted document ..) | .ingest _ (.audited document _) => some document.id
  | _ => none

/-- The call has not flushed a document, or has committed it. -/
def Proc.Bare : Proc E → Prop
  | .idle | .ingest _ .started | .ingest _ (.extracted ..) | .ingest _ (.committed _) => True
  | _ => False

/-- The case analysis of the steps. -/
inductive Proc.Makes (env : Env E) (stores : Stores E) (p : ℕ) : Proc E → Outcome E → Prop
  | pass {proc proc'} (h : proc.Bare) (h' : proc'.Bare) : Makes env stores p proc ⟨.none, proc', []⟩
  | refuse {proc responses} (h : proc.exposes = none) :
      Makes env stores p proc ⟨.rollback, .idle, responses⟩
  | flush {call pages fullText id} (hid : id ∉ stores.documents.keys) :
      Makes env stores p (.ingest call (.extracted pages fullText))
        ⟨.write (stores.documents.write p id (documentOf id call pages fullText)),
          .ingest call (.flushed (documentOf id call pages fullText) pages), []⟩
  | embed {call document pages chunks embeddings}
      (hindex : chunks.map Chunk.index = List.range' 0 chunks.length) (hchunks : chunks ≠ []) :
      Makes env stores p (.ingest call (.flushed document pages))
        ⟨.none, .ingest call (.embedded document pages chunks embeddings), []⟩
  | upsert {call document pages chunks embeddings} (hlength : embeddings.length = chunks.length) :
      Makes env stores p (.ingest call (.embedded document pages chunks embeddings))
        ⟨.upsert (List.zipWith (vectorOf call document.id) chunks embeddings),
          .ingest call (.upserted document pages chunks), []⟩
  | audit {call document pages chunks row auditLog}
      (hrow : row = { document with status := .INDEXED, embeddingCount := chunks.length }) :
      Makes env stores p (.ingest call (.upserted document pages chunks))
        ⟨.write (stores.documents.write p row.id row), .ingest call (.audited row auditLog), []⟩
  | commit {call document auditLog} :
      Makes env stores p (.ingest call (.audited document auditLog))
        ⟨.commit auditLog, .ingest call (.committed document), []⟩

theorem execIngest_cases {id : Uuid} {call : Call} {stage : Stage E} {outcome : Outcome E}
    (h : execIngest env stores p id call stage = some outcome) :
    (Proc.ingest call stage).Makes env stores p outcome := by
  cases stage with
  | started =>
    simp only [execIngest, badRequest, answer, next] at h
    split at h
    · cases h
      exact .refuse rfl
    · split_ifs at h <;> cases h
      · exact .refuse rfl
      · exact .pass trivial trivial
  | extracted pages fullText =>
    simp only [execIngest, next] at h
    split_ifs at h with hflush
    cases h
    exact .flush hflush.1
  | flushed document pages =>
    simp only [execIngest, badRequest, answer, next] at h
    split at h
    · cases h
      exact .refuse rfl
    next chunks hchunks =>
      split_ifs at h with hempty
      · cases h
        exact .refuse rfl
      · split at h <;> cases h
        · exact .refuse rfl
        · exact .embed (index_chunkPages hchunks) hempty
  | embedded document pages chunks embeddings =>
    simp only [execIngest, answer, next] at h
    split_ifs at h with hlength <;> cases h
    · exact .upsert hlength
    · exact .refuse rfl
  | upserted document pages chunks =>
    simp only [execIngest, next] at h
    split_ifs at h
    cases h
    exact .audit rfl
  | audited document auditLog =>
    cases h
    exact .commit
  | committed document =>
    simp only [execIngest, answer] at h
    split at h <;> cases h <;> exact .refuse rfl

/-- No call fails between its upsert and its commit. -/
def Unbroken (s : State E) : Action → Prop
  | .fail p => (s.procs p).exposes = none
  | .start .. | .exec .. => True

instance (s : State E) : DecidablePred (Unbroken s)
  | .fail p => inferInstanceAs (Decidable ((s.procs p).exposes = none))
  | .start .. | .exec .. => .isTrue trivial

/-- A step is one of a process that is not broken off, or the failure of one that is. -/
theorem step_cases {s s' : State E} {a : Action} (h : step env s a = some s') :
    (∃ p outcome, (s.procs p).Makes env s.stores p outcome ∧ s' = s.after p outcome ∧
      Unbroken s a) ∨
    ∃ p documentId, (s.procs p).exposes = some documentId ∧
      s' = s.after p ⟨.rollback, .idle, []⟩ ∧ ¬ Unbroken s a := by
  cases a with
  | start p call =>
    simp only [step] at h
    split at h <;> cases h
    next hidle =>
      refine Or.inl ⟨p, _, ?_, rfl, trivial⟩
      rw [hidle]
      exact .pass trivial trivial
  | exec p id =>
    obtain ⟨outcome, hexec, rfl⟩ := Option.map_eq_some_iff.mp h
    refine Or.inl ⟨p, outcome, ?_, rfl, trivial⟩
    cases hproc : s.procs p with
    | idle => rw [hproc] at hexec; cases hexec
    | ingest call stage =>
      rw [hproc] at hexec
      exact execIngest_cases hexec
  | fail p =>
    simp only [step] at h
    split at h <;> cases h
    cases hexposes : (s.procs p).exposes with
    | none => exact Or.inl ⟨p, _, .refuse hexposes, rfl, hexposes⟩
    | some documentId =>
      refine Or.inr ⟨p, documentId, hexposes, rfl, fun hunbroken => ?_⟩
      exact absurd (hexposes.symm.trans hunbroken) (by simp)

/-! ### What holds in every run -/

/-- The row a call has flushed is all it holds. -/
def Inserted (stores : Stores E) (p : ℕ) (document : KnowledgeDocument) : Prop :=
  stores.documents.Inserts p document.id document

/-- What a process holds at its stage, and how many vectors its document has. -/
def Proc.Keeps (stores : Stores E) (p : ℕ) : Proc E → Prop
  | .ingest _ (.flushed document _) =>
    Inserted stores p document ∧ vectorsOf stores.collection document.id = []
  | .ingest _ (.embedded document _ chunks _) =>
    Inserted stores p document ∧ vectorsOf stores.collection document.id = [] ∧
      chunks.map Chunk.index = List.range' 0 chunks.length ∧ chunks ≠ []
  | .ingest _ (.upserted document _ chunks) =>
    Inserted stores p document ∧
      (vectorsOf stores.collection document.id).length = chunks.length ∧ chunks ≠ []
  | .ingest _ (.audited document _) =>
    Inserted stores p document ∧
      (vectorsOf stores.collection document.id).length = document.embeddingCount ∧
      0 < document.embeddingCount ∧ document.status = .INDEXED
  | _ => stores.documents.HoldsNothing p

/-- The invariant: the names of the vectors, the counts of the indexed documents, and what every
process holds. -/
structure Sound (s : State E) : Prop where
  named : ∀ vector ∈ s.stores.collection, ∃ index,
    vector.id = vectorId ⟨vector.metadata.documentId⟩ index
  used : ∀ vector ∈ s.stores.collection, ⟨vector.metadata.documentId⟩ ∈ s.stores.documents.keys
  counted : ∀ documentId row, s.stores.documents.committed documentId = some row →
    row.status = .INDEXED → (vectorsOf s.stores.collection documentId).length = row.embeddingCount
  keeps : ∀ p, (s.procs p).Keeps s.stores p

theorem Proc.Bare.keeps_iff {proc : Proc E} (h : proc.Bare) :
    proc.Keeps stores p ↔ stores.documents.HoldsNothing p := by
  unfold Proc.Keeps
  split
  · exact h.elim
  · exact h.elim
  · exact h.elim
  · exact h.elim
  · exact Iff.rfl

/-- What one step leaves of the stores for process `q`. -/
structure Frames (q : ℕ) (stores stores' : Stores E) : Prop where
  undisturbed : LockedTable.Undisturbed q stores.documents stores'.documents
  vectors : ∀ document, Inserted stores q document →
    vectorsOf stores'.collection document.id = vectorsOf stores.collection document.id

theorem Proc.Keeps.frame {proc : Proc E} {stores' : Stores E} (h : proc.Keeps stores q)
    (hframe : Frames q stores stores') : proc.Keeps stores' q := by
  have hinserted : ∀ document, Inserted stores q document → Inserted stores' q document :=
    fun document hdocument => LockedTable.Inserts.frame hdocument hframe.undisturbed
  unfold Proc.Keeps at h ⊢
  split at h
  · exact ⟨hinserted _ h.1, by rw [hframe.vectors _ h.1]; exact h.2⟩
  · exact ⟨hinserted _ h.1, by rw [hframe.vectors _ h.1]; exact h.2⟩
  · exact ⟨hinserted _ h.1, by rw [hframe.vectors _ h.1]; exact h.2⟩
  · exact ⟨hinserted _ h.1, by rw [hframe.vectors _ h.1]; exact h.2⟩
  · exact h.frame hframe.undisturbed

/-- The vectors of a call are all of its document. -/
theorem vectorsOf_zipWith {call : Call} {documentId documentId' : Uuid} {chunks : List Chunk}
    {embeddings : List E} :
    vectorsOf (List.zipWith (vectorOf call documentId) chunks embeddings) documentId'
      = if documentId = documentId' then List.zipWith (vectorOf call documentId) chunks embeddings
        else [] := by
  split_ifs with hid
  · apply List.filter_eq_self.mpr
    intro vector hvector
    rw [decide_eq_true_eq, (mem_zipWith_vectorOf hvector).1, hid]
  · apply List.filter_eq_nil_iff.mpr
    intro vector hvector
    rw [decide_eq_true_eq, (mem_zipWith_vectorOf hvector).1]
    exact fun hstr => hid (congrArg Uuid.mk hstr)

/-- The upsert of a call adds its vectors, which are new. -/
theorem upsert_vectors {s : State E} (hs : Sound s) {call : Call} {document : KnowledgeDocument}
    {chunks : List Chunk} {embeddings : List E}
    (hnone : vectorsOf s.stores.collection document.id = [])
    (hindex : chunks.map Chunk.index = List.range' 0 chunks.length)
    (hlength : embeddings.length = chunks.length) :
    upsert s.stores.collection (List.zipWith (vectorOf call document.id) chunks embeddings)
      = s.stores.collection ++ List.zipWith (vectorOf call document.id) chunks embeddings := by
  apply upsert_eq_append ?_ (nodup_zipWith_vectorOf hindex hlength)
  intro vector hvector old hold heq
  obtain ⟨index, hname⟩ := hs.named old hold
  obtain ⟨-, index', hname'⟩ := mem_zipWith_vectorOf hvector
  rw [hname, hname'] at heq
  -- an old vector of that name would be of the document already
  have hmem : old ∈ vectorsOf s.stores.collection document.id :=
    mem_vectorsOf.mpr ⟨hold, congrArg Uuid.str (vectorId_inj heq).1⟩
  rw [hnone] at hmem
  cases hmem

/-- Two processes have not inserted the same document. -/
theorem Inserted.ne {document document' : KnowledgeDocument} (h : Inserted stores p document)
    (h' : Inserted stores q document') (hq : q ≠ p) : document.id ≠ document'.id := by
  intro hid
  have hholds := h'.holds
  rw [← hid] at hholds
  exact hq (hholds.unique h.holds)

theorem keeps_after {s : State E} {outcome : Outcome E} (hs : Sound s)
    (hself : outcome.proc.Keeps (outcome.effect.apply p s.stores) p)
    (hothers : ∀ q, q ≠ p → Frames q s.stores (outcome.effect.apply p s.stores)) (q : ℕ) :
    ((s.after p outcome).procs q).Keeps (s.after p outcome).stores q := by
  have hkeeps : ∀ q, q ≠ p → (s.procs q).Keeps (s.after p outcome).stores q :=
    fun q hq => (hs.keeps q).frame (hothers q hq)
  exact (Function.forall_update_iff s.procs
    fun q proc => proc.Keeps (s.after p outcome).stores q).mpr ⟨hself, hkeeps⟩ q

/-- A rollback leaves the collection and the committed rows. -/
theorem sound_rollback {s : State E} {responses : List Response} (hs : Sound s) :
    Sound (s.after p ⟨.rollback, .idle, responses⟩) where
  named := hs.named
  used := hs.used
  counted := hs.counted
  keeps := by
    apply keeps_after hs
    · exact LockedTable.holdsNothing_rollback
    · intro q hq
      exact ⟨LockedTable.undisturbed_rollback hq, fun _ _ => rfl⟩

theorem sound_flush {s : State E} {call : Call} {pages : List String} {fullText : String}
    {id : Uuid} (hs : Sound s) (hnothing : s.stores.documents.HoldsNothing p)
    (hid : id ∉ s.stores.documents.keys) :
    Sound (s.after p
      ⟨.write (s.stores.documents.write p id (documentOf id call pages fullText)),
        .ingest call (.flushed (documentOf id call pages fullText) pages), []⟩) where
  named := hs.named
  used vector hvector := List.mem_insert_of_mem (hs.used vector hvector)
  counted documentId row hrow hstatus := by
    have hold : s.stores.documents.committed documentId = some row :=
      LockedTable.committed_write.symm.trans hrow
    exact hs.counted documentId row hold hstatus
  keeps := by
    apply keeps_after hs
    · refine ⟨hnothing.insert hid, ?_⟩
      apply List.eq_nil_iff_forall_not_mem.mpr
      intro vector hvector
      obtain ⟨hmem, hdocument⟩ := mem_vectorsOf.mp hvector
      have hkey := hs.used vector hmem
      rw [hdocument] at hkey
      exact hid hkey
    · intro q hq
      exact ⟨LockedTable.undisturbed_write hq (LockedTable.free_of_not_mem_keys hid),
        fun _ _ => rfl⟩

theorem sound_upsert {s : State E} {call : Call} {document : KnowledgeDocument}
    {pages : List String} {chunks : List Chunk} {embeddings : List E} (hs : Sound s)
    (hkeeps : Proc.Keeps s.stores p (.ingest call (.embedded document pages chunks embeddings)))
    (hlength : embeddings.length = chunks.length) :
    Sound (s.after p
      ⟨.upsert (List.zipWith (vectorOf call document.id) chunks embeddings),
        .ingest call (.upserted document pages chunks), []⟩) := by
  obtain ⟨hinserted, hnone, hindex, hchunks⟩ := hkeeps
  have hcollection : (s.after p
      ⟨.upsert (List.zipWith (vectorOf call document.id) chunks embeddings),
        .ingest call (.upserted document pages chunks), []⟩).stores.collection
      = s.stores.collection ++ List.zipWith (vectorOf call document.id) chunks embeddings :=
    upsert_vectors hs hnone hindex hlength
  have hother : ∀ documentId, document.id ≠ documentId →
      vectorsOf (upsert s.stores.collection
        (List.zipWith (vectorOf call document.id) chunks embeddings)) documentId
        = vectorsOf s.stores.collection documentId := by
    intro documentId hne
    rw [upsert_vectors hs hnone hindex hlength, vectorsOf_append, vectorsOf_zipWith, if_neg hne,
      List.append_nil]
  refine ⟨?_, ?_, ?_, ?_⟩
  · intro vector hvector
    rw [hcollection] at hvector
    rcases List.mem_append.mp hvector with hold | hnew
    · exact hs.named vector hold
    · obtain ⟨hdocument, hname⟩ := mem_zipWith_vectorOf hnew
      rw [hdocument]
      exact hname
  · intro vector hvector
    rw [hcollection] at hvector
    rcases List.mem_append.mp hvector with hold | hnew
    · exact hs.used vector hold
    · obtain ⟨hdocument, -⟩ := mem_zipWith_vectorOf hnew
      rw [hdocument]
      exact LockedTable.mem_keys_of_pending hinserted.holds
  · intro documentId row hrow hstatus
    have hne : document.id ≠ documentId := by
      intro hid
      rw [← hid] at hrow
      exact absurd (hinserted.new.symm.trans hrow) (by simp)
    show (vectorsOf (upsert _ _) documentId).length = _
    rw [hother documentId hne]
    exact hs.counted documentId row hrow hstatus
  · apply keeps_after hs
    · refine ⟨hinserted, ?_, hchunks⟩
      show (vectorsOf (upsert _ _) document.id).length = _
      rw [upsert_vectors hs hnone hindex hlength, vectorsOf_append, hnone, List.nil_append,
        vectorsOf_zipWith, if_pos rfl, List.length_zipWith, hlength, Nat.min_self]
    · intro q hq
      refine ⟨⟨fun _ _ => Iff.rfl, fun _ _ _ => rfl⟩, fun document' hdocument' => ?_⟩
      exact hother document'.id (hinserted.ne hdocument' hq)

theorem sound_audit {s : State E} {call : Call} {document row : KnowledgeDocument}
    {pages : List String} {chunks : List Chunk} {auditLog : AuditLog} (hs : Sound s)
    (hkeeps : Proc.Keeps s.stores p (.ingest call (.upserted document pages chunks)))
    (hrow : row = { document with status := .INDEXED, embeddingCount := chunks.length }) :
    Sound (s.after p ⟨.write (s.stores.documents.write p row.id row),
      .ingest call (.audited row auditLog), []⟩) := by
  obtain ⟨hinserted, hcount, hchunks⟩ := hkeeps
  subst hrow
  refine ⟨hs.named, fun vector hvector => List.mem_insert_of_mem (hs.used vector hvector), ?_, ?_⟩
  · intro documentId row hrow hstatus
    have hold : s.stores.documents.committed documentId = some row :=
      LockedTable.committed_write.symm.trans hrow
    exact hs.counted documentId row hold hstatus
  · apply keeps_after hs
    · exact ⟨hinserted.rewrite, hcount, List.length_pos_iff.mpr hchunks, rfl⟩
    · intro q hq
      exact ⟨LockedTable.undisturbed_write hq hinserted.holds.free, fun _ _ => rfl⟩

theorem committed_commit_inserted {document : KnowledgeDocument}
    (h : Inserted stores p document) (documentId : Uuid) :
    (stores.documents.commit p).committed documentId
      = if documentId = document.id then some document
        else stores.documents.committed documentId := by
  split_ifs with hid
  · rw [hid]
    exact LockedTable.committed_commit_of_holds h.holds
  · exact LockedTable.committed_commit_of_not_holds fun row hrow => hid (h.only documentId row hrow)

theorem sound_commit {s : State E} {call : Call} {document : KnowledgeDocument}
    {auditLog : AuditLog} (hs : Sound s)
    (hkeeps : Proc.Keeps s.stores p (.ingest call (.audited document auditLog))) :
    Sound (s.after p ⟨.commit auditLog, .ingest call (.committed document), []⟩) := by
  obtain ⟨hinserted, hcount, -, -⟩ := hkeeps
  refine ⟨hs.named, hs.used, ?_, ?_⟩
  · intro documentId row hrow hstatus
    have hrow : (s.stores.documents.commit p).committed documentId = some row := hrow
    rw [committed_commit_inserted hinserted] at hrow
    split_ifs at hrow with hid
    · obtain rfl := Option.some.inj hrow
      rw [hid]
      exact hcount
    · exact hs.counted documentId row hrow hstatus
  · apply keeps_after hs
    · exact LockedTable.holdsNothing_commit
    · intro q hq
      exact ⟨LockedTable.undisturbed_commit hq, fun _ _ => rfl⟩

/-- Every step of a process keeps the invariant. -/
theorem sound_makes {s : State E} {outcome : Outcome E} (hs : Sound s)
    (h : (s.procs p).Makes env s.stores p outcome) : Sound (s.after p outcome) := by
  have hkeeps := hs.keeps p
  generalize s.procs p = proc at h hkeeps
  cases h with
  | pass hbare hbare' =>
    refine ⟨hs.named, hs.used, hs.counted, keeps_after hs ?_ ?_⟩
    · exact hbare'.keeps_iff.mpr (hbare.keeps_iff.mp hkeeps)
    · exact fun _ _ => ⟨⟨fun _ _ => Iff.rfl, fun _ _ _ => rfl⟩, fun _ _ => rfl⟩
  | refuse => exact sound_rollback hs
  | flush hid => exact sound_flush hs hkeeps hid
  | embed hindex hchunks =>
    refine ⟨hs.named, hs.used, hs.counted, keeps_after hs ?_ ?_⟩
    · exact ⟨hkeeps.1, hkeeps.2, hindex, hchunks⟩
    · exact fun _ _ => ⟨⟨fun _ _ => Iff.rfl, fun _ _ _ => rfl⟩, fun _ _ => rfl⟩
  | upsert hlength => exact sound_upsert hs hkeeps hlength
  | audit hrow => exact sound_audit hs hkeeps hrow
  | commit => exact sound_commit hs hkeeps

theorem sound_step {s s' : State E} {a : Action} (hs : Sound s) (h : step env s a = some s') :
    Sound s' := by
  rcases step_cases h with ⟨p, outcome, hmakes, rfl, -⟩ | ⟨p, documentId, -, rfl, -⟩
  · exact sound_makes hs hmakes
  · exact sound_rollback hs

theorem State.Quiet.sound {s : State E} (h : s.Quiet) : Sound s where
  named := h.named
  used vector hvector := by
    obtain ⟨row, hrow, -⟩ := h.agree.owned vector hvector
    by_contra hkey
    rw [LockedTable.committed_of_not_mem_keys hkey] at hrow
    cases hrow
  counted := h.agree.counted
  keeps p := by
    rw [h.idle p]
    exact LockedTable.holdsNothing_of_quiet h.settled

theorem sound_invariant : (corpus env).Invariant Sound where
  init _ hs := hs.sound
  step _ _ _ hs h := sound_step hs h

/-! ### Orphans -/

/-- Every vector is of a committed indexed document, or of a call that is about to commit it. -/
def Owned (s : State E) : Prop :=
  ∀ vector ∈ s.stores.collection,
    (∃ row, s.stores.documents.committed ⟨vector.metadata.documentId⟩ = some row ∧
      row.status = .INDEXED) ∨
    ∃ p, (s.procs p).exposes = some ⟨vector.metadata.documentId⟩

/-- Between calls, the stores agree when no vector is an orphan. -/
theorem agree_iff_owned {s : State E} (hs : Sound s) (hidle : s.Idle) :
    Agree s.stores ↔ Owned s := by
  constructor
  · intro hagree vector hvector
    exact Or.inl (hagree.owned vector hvector)
  · intro howned
    refine ⟨fun vector hvector => ?_, hs.counted⟩
    rcases howned vector hvector with hcommitted | ⟨p, hexposes⟩
    · exact hcommitted
    · rw [hidle p] at hexposes
      cases hexposes

theorem Proc.Bare.exposes_eq {proc : Proc E} (h : proc.Bare) : proc.exposes = none := by
  unfold Proc.exposes
  split
  · exact h.elim
  · exact h.elim
  · rfl

/-- A document that is exposed is inserted, and has vectors. -/
theorem Proc.Keeps.of_exposes {proc : Proc E} {documentId : Uuid} (h : proc.Keeps stores p)
    (hexposes : proc.exposes = some documentId) :
    ∃ document, Inserted stores p document ∧ document.id = documentId ∧
      0 < (vectorsOf stores.collection documentId).length := by
  unfold Proc.exposes at hexposes
  split at hexposes
  next document pages chunks =>
    obtain rfl := Option.some.inj hexposes
    obtain ⟨hinserted, hcount, hchunks⟩ := h
    refine ⟨document, hinserted, rfl, ?_⟩
    rw [hcount]
    exact List.length_pos_iff.mpr hchunks
  next document auditLog =>
    obtain rfl := Option.some.inj hexposes
    obtain ⟨hinserted, hcount, hpos, -⟩ := h
    refine ⟨document, hinserted, rfl, ?_⟩
    rw [hcount]
    exact hpos
  · cases hexposes

/-- Another process than `p` exposes the document. -/
def ExposedBeside (s : State E) (p : ℕ) (documentId : Uuid) : Prop :=
  ∃ q ≠ p, (s.procs q).exposes = some documentId

theorem exists_exposes_iff (s : State E) (p : ℕ) (documentId : Uuid) :
    (∃ q, (s.procs q).exposes = some documentId) ↔
      (s.procs p).exposes = some documentId ∨ ExposedBeside s p documentId := by
  have hsplit := Function.exists_update_iff s.procs (a := p) (b := s.procs p)
    fun _ proc => proc.exposes = some documentId
  rwa [Function.update_eq_self] at hsplit

theorem exists_exposes_after_iff (s : State E) (p : ℕ) (outcome : Outcome E) (documentId : Uuid) :
    (∃ q, ((s.after p outcome).procs q).exposes = some documentId) ↔
      outcome.proc.exposes = some documentId ∨ ExposedBeside s p documentId :=
  Function.exists_update_iff s.procs fun _ proc => proc.exposes = some documentId

/-- A step that commits nothing, adds no vector and exposes what was exposed. -/
theorem owned_after_iff {s : State E} {outcome : Outcome E}
    (hcollection : (outcome.effect.apply p s.stores).collection = s.stores.collection)
    (hcommitted : ∀ k, (outcome.effect.apply p s.stores).documents.committed k
      = s.stores.documents.committed k)
    (hexposes : outcome.proc.exposes = (s.procs p).exposes) :
    Owned (s.after p outcome) ↔ Owned s := by
  unfold Owned
  simp only [exists_exposes_after_iff, exists_exposes_iff s p, hexposes]
  show (∀ vector ∈ (outcome.effect.apply p s.stores).collection,
    (∃ row, (outcome.effect.apply p s.stores).documents.committed _ = some row ∧ _) ∨ _) ↔ _
  simp only [hcollection, hcommitted]

theorem owned_upsert_iff {s : State E} {call : Call} {document : KnowledgeDocument}
    {pages : List String} {chunks : List Chunk} {embeddings : List E} (hs : Sound s)
    (hproc : s.procs p = .ingest call (.embedded document pages chunks embeddings))
    (hlength : embeddings.length = chunks.length) :
    Owned (s.after p
      ⟨.upsert (List.zipWith (vectorOf call document.id) chunks embeddings),
        .ingest call (.upserted document pages chunks), []⟩) ↔ Owned s := by
  have hkeeps := hs.keeps p
  rw [hproc] at hkeeps
  obtain ⟨-, hnone, hindex, -⟩ := hkeeps
  have hcollection : upsert s.stores.collection
      (List.zipWith (vectorOf call document.id) chunks embeddings)
      = s.stores.collection ++ List.zipWith (vectorOf call document.id) chunks embeddings :=
    upsert_vectors hs hnone hindex hlength
  have hbefore : (s.procs p).exposes = none := by rw [hproc]; rfl
  unfold Owned
  simp only [exists_exposes_after_iff, exists_exposes_iff s p, hbefore]
  constructor
  · intro howned vector hvector
    have hmem : vector ∈ upsert s.stores.collection
        (List.zipWith (vectorOf call document.id) chunks embeddings) := by
      rw [hcollection]
      exact List.mem_append_left _ hvector
    rcases howned vector hmem with hcommitted | hself | hbeside
    · exact Or.inl hcommitted
    · -- the document of the call had no vector before
      have hdocument : document.id = ⟨vector.metadata.documentId⟩ := Option.some.inj hself
      have hold : vector ∈ vectorsOf s.stores.collection document.id :=
        mem_vectorsOf.mpr ⟨hvector, by rw [hdocument]⟩
      rw [hnone] at hold
      cases hold
    · exact Or.inr (Or.inr hbeside)
  · intro howned vector hvector
    have hmem : vector ∈ upsert s.stores.collection
        (List.zipWith (vectorOf call document.id) chunks embeddings) := hvector
    rw [hcollection] at hmem
    rcases List.mem_append.mp hmem with hold | hnew
    · rcases howned vector hold with hcommitted | hself | hbeside
      · exact Or.inl hcommitted
      · cases hself
      · exact Or.inr (Or.inr hbeside)
    · refine Or.inr (Or.inl ?_)
      rw [(mem_zipWith_vectorOf hnew).1]
      rfl

theorem owned_commit_iff {s : State E} {call : Call} {document : KnowledgeDocument}
    {auditLog : AuditLog} (hs : Sound s)
    (hproc : s.procs p = .ingest call (.audited document auditLog)) :
    Owned (s.after p ⟨.commit auditLog, .ingest call (.committed document), []⟩) ↔ Owned s := by
  have hkeeps := hs.keeps p
  rw [hproc] at hkeeps
  obtain ⟨hinserted, -, -, hindexed⟩ := hkeeps
  have hcommit : ∀ documentId, (s.after p ⟨.commit auditLog, .ingest call (.committed document),
      []⟩).stores.documents.committed documentId
        = if documentId = document.id then some document
          else s.stores.documents.committed documentId :=
    committed_commit_inserted hinserted
  have hbefore : (s.procs p).exposes = some document.id := by rw [hproc]; rfl
  have hafter : (Proc.ingest call (.committed document) : Proc E).exposes = none := rfl
  unfold Owned
  simp only [exists_exposes_after_iff, exists_exposes_iff s p, hbefore, hafter, hcommit]
  apply forall₂_congr
  intro vector _
  by_cases hid : (⟨vector.metadata.documentId⟩ : Uuid) = document.id
  · -- exposed before, committed after
    exact iff_of_true (Or.inl ⟨document, if_pos hid, hindexed⟩) (Or.inr (Or.inl (by rw [hid])))
  · simp only [if_neg hid, Option.some.injEq, Ne.symm hid, reduceCtorEq, false_or]

/-- The vectors of a call that fails after its upsert are orphans. -/
theorem not_owned_of_exposes {s : State E} {documentId : Uuid} {responses : List Response}
    (hs : Sound s) (hexposes : (s.procs p).exposes = some documentId) :
    ¬ Owned (s.after p ⟨.rollback, .idle, responses⟩) := by
  obtain ⟨document, hinserted, rfl, hpos⟩ := (hs.keeps p).of_exposes hexposes
  obtain ⟨vector, hvector⟩ := List.exists_mem_of_length_pos hpos
  obtain ⟨hmem, hdocument⟩ := mem_vectorsOf.mp hvector
  intro howned
  have hcases := howned vector hmem
  rw [hdocument, exists_exposes_after_iff] at hcases
  rcases hcases with ⟨row, hrow, -⟩ | hself | ⟨q, hq, hexposes'⟩
  · exact absurd (hinserted.new.symm.trans hrow) (by simp)
  · cases hself
  · obtain ⟨document', hinserted', hid, -⟩ := (hs.keeps q).of_exposes hexposes'
    exact hinserted.ne hinserted' hq hid.symm

/-- A step leaves no orphan exactly when there was none and the step breaks no call off. -/
theorem owned_step_iff {s s' : State E} {a : Action} (hs : Sound s) (h : step env s a = some s') :
    Owned s' ↔ Owned s ∧ Unbroken s a := by
  rcases step_cases h with ⟨p, outcome, hmakes, rfl, hunbroken⟩ |
    ⟨p, documentId, hexposes, rfl, hbroken⟩
  · rw [and_iff_left hunbroken]
    generalize hproc : s.procs p = proc at hmakes
    cases hmakes with
    | pass hbare hbare' =>
      apply owned_after_iff rfl (fun _ => rfl)
      rw [hproc, hbare.exposes_eq, hbare'.exposes_eq]
    | refuse hexposes =>
      apply owned_after_iff rfl (fun _ => rfl)
      rw [hproc, hexposes]
      rfl
    | flush =>
      refine owned_after_iff rfl ?_ ?_
      · exact fun _ => LockedTable.committed_write
      · rw [hproc]
        rfl
    | embed =>
      apply owned_after_iff rfl (fun _ => rfl)
      rw [hproc]
      rfl
    | upsert hlength => exact owned_upsert_iff hs hproc hlength
    | audit hrow =>
      refine owned_after_iff rfl ?_ ?_
      · exact fun _ => LockedTable.committed_write
      · rw [hproc, hrow]
        rfl
    | commit => exact owned_commit_iff hs hproc
  · refine iff_of_false (not_owned_of_exposes hs hexposes) fun h => hbroken h.2

/-- **The two stores agree exactly as long as no call fails between its upsert and its commit.**  A
run from a quiet state to one where no call is under way has passed through disagreement between
calls just when it contains such a failure. -/
theorem agree_iff_unbroken {s t : State E} {actions : List Action} (hs : s.Quiet)
    (hrun : (corpus env).run s actions = some t) (ht : t.Idle) :
    (corpus env).StatesMeet (fun u => u.Idle → Agree u.stores) s actions ↔
      (corpus env).ActionsMeet Unbroken s actions := by
  have hsound : Sound t := sound_invariant.of_run hs.sound hrun
  have howned : Owned s := (agree_iff_owned hs.sound hs.idle).mp hs.agree
  have hend : Owned t ↔ Owned s ∧ (corpus env).ActionsMeet Unbroken s actions :=
    sound_invariant.end_iff_actionsMeet (fun _ _ _ hs h => owned_step_iff hs h) hs.sound hrun
  constructor
  · intro hstates
    have hagree : Agree t.stores := hstates.last hrun ht
    exact (hend.mp ((agree_iff_owned hsound ht).mp hagree)).2
  · intro hactions
    have hstates : (corpus env).StatesMeet (fun u => Sound u ∧ Owned u) s actions :=
      sound_invariant.statesMeet_of_actionsMeet
        (fun _ _ _ hs howned hunbroken h =>
          ⟨sound_step hs h, (owned_step_iff hs h).mpr ⟨howned.2, hunbroken⟩⟩)
        hs.sound ⟨hs.sound, howned⟩ hactions
    refine hstates.imp ?_
    intro u hu hidle
    exact (agree_iff_owned hu.1 hidle).mpr hu.2

/-! ### A norm, and a lost one -/

def Action.process : Action → ℕ
  | .start p _ | .exec p _ | .fail p => p

/-- The processes that do not act stay where they are. -/
theorem procs_of_run {s t : State E} {actions : List Action}
    (h : (corpus env).run s actions = some t) (hq : ∀ a ∈ actions, a.process ≠ q) :
    t.procs q = s.procs q := by
  induction actions generalizing s with
  | nil =>
    obtain rfl := Option.some.inj h
    rfl
  | cons a actions ih =>
    obtain ⟨s', hfirst, hrest⟩ := Machine.run_cons_eq_some_iff.mp h
    rw [ih hrest fun b hb => hq b (List.mem_cons_of_mem _ hb)]
    have hne : q ≠ a.process := (hq a List.mem_cons_self).symm
    have hstep : step env s a = some s' := hfirst
    cases a with
    | start p call =>
      simp only [step] at hstep
      split at hstep <;> cases hstep
      exact Function.update_of_ne hne ..
    | exec p id =>
      obtain ⟨outcome, -, rfl⟩ := Option.map_eq_some_iff.mp hstep
      exact Function.update_of_ne hne ..
    | fail p =>
      simp only [step] at hstep
      split at hstep <;> cases hstep
      exact Function.update_of_ne hne ..

/-- An installation where a PDF has one page, and a text is embedded as its length. -/
def pageEnv : Env ℕ where
  settings := {}
  extractPdfPages bytes :=
    if bytes.size = 0 then .error (.other "EmptyFileError" "Cannot open empty stream.")
    else .ok ["Colmatage des fissures"]
  embedPassages texts := .ok (texts.map String.length)

def noDocuments : State ℕ where
  stores := { documents := .empty, auditLogs := [], collection := [] }
  procs := fun _ => .idle
  responses := []

def norm : Call where
  pdfBytes := ⟨#[0x25, 0x50, 0x44, 0x46]⟩
  title := "Norme entretien DGR"
  docType := "NORME_DGR"
  source := some "DGR"
  version := some "2024"
  actorId := ⟨"u1"⟩

theorem quiet_noDocuments : noDocuments.Quiet where
  idle _ := rfl
  settled _ := rfl
  named _ h := nomatch h
  agree := ⟨fun _ h => (nomatch h), fun _ _ h => (nomatch h)⟩

/-- The norm is ingested. -/
def ingested : List Action := .start 1 norm :: List.replicate 7 (.exec 1 ⟨"d1"⟩)

/-- The connection to the database is lost after the upsert. -/
def lostAudit : List Action := .start 1 norm :: List.replicate 4 (.exec 1 ⟨"d1"⟩) ++ [.fail 1]

/-- What is seen of a state: whether process 1 is idle, the documents of the vectors, and whether
the norm is committed. -/
def seen (s : State ℕ) : Bool × List String × Bool :=
  (match s.procs 1 with | .idle => true | .ingest .. => false,
    s.stores.collection.map fun vector => vector.metadata.documentId,
    (s.stores.documents.committed ⟨"d1"⟩).isSome)

theorem idle_of_seen {t : State ℕ} {actions : List Action} {rest : List String × Bool}
    (hrun : (corpus pageEnv).run noDocuments actions = some t)
    (hactions : ∀ a ∈ actions, a.process = 1) (hseen : seen t = (true, rest)) : t.Idle := by
  intro p
  by_cases hp : p = 1
  · subst hp
    have hidle := (Prod.mk.inj hseen).1
    split at hidle
    next h => exact h
    · cases hidle
  · exact procs_of_run hrun fun a ha => by rw [hactions a ha]; exact Ne.symm hp

/-- The stores agree after the norm is ingested. -/
theorem agree_iff_unbroken_ingested :
    ∃ t, (corpus pageEnv).run noDocuments ingested = some t ∧ seen t = (true, ["d1"], true) ∧
      (corpus pageEnv).StatesMeet (fun u => u.Idle → Agree u.stores) noDocuments ingested := by
  have heval :
      ((corpus pageEnv).run noDocuments ingested).map seen = some (true, ["d1"], true) := by
    decide
  obtain ⟨t, ht, -, hseen⟩ := Machine.reachable_of_map_run quiet_noDocuments heval
  have hidle : t.Idle := idle_of_seen ht (by decide) hseen
  have hunbroken : (corpus pageEnv).ActionsMeet Unbroken noDocuments ingested := by decide
  exact ⟨t, ht, hseen, (agree_iff_unbroken quiet_noDocuments ht hidle).mpr hunbroken⟩

/-- The vector of a norm whose audit entry fails is left without its document. -/
theorem disagree_lostAudit :
    ∃ t, (corpus pageEnv).run noDocuments lostAudit = some t ∧ t.Idle ∧ ¬ Agree t.stores := by
  have heval : ((corpus pageEnv).run noDocuments lostAudit).map seen
      = some (true, ["d1"], false) := by
    decide
  obtain ⟨t, ht, -, hseen⟩ := Machine.reachable_of_map_run quiet_noDocuments heval
  refine ⟨t, ht, idle_of_seen ht (by decide) hseen, fun hagree => ?_⟩
  obtain ⟨hvectors, hcommitted⟩ := Prod.mk.inj (Prod.mk.inj hseen).2
  obtain ⟨vector, rest, hcollection, hdocument, -⟩ := List.map_eq_cons_iff.mp hvectors
  obtain ⟨row, hrow, -⟩ := hagree.owned vector (by rw [hcollection]; exact List.mem_cons_self)
  rw [hdocument] at hrow
  rw [hrow] at hcommitted
  cases hcommitted

end RoadVisionAI.Knowledge
