import RoadVisionAI.Knowledge.Equiv.Provenance

/-!
# The catalogue and its log

A row of `knowledge_documents` is committed once, indexed, in one transaction with its
`DOCUMENT_INDEXED` entry, and nothing writes it again.  So the catalogue only grows, and the log
accounts for what it has grown by, row by row (`catalogue_grows`): nothing is ever left `PENDING`,
and the counts of the entry are those of the row.
-/

namespace RoadVisionAI.Knowledge

open Python Db Transition

variable {E : Type} {env : Env E} {stores : Stores E} {p : ℕ}

/-- The entry tells of the row: who has uploaded it, its title, its chunks and its pages. -/
def AuditLog.Tells (auditLog : AuditLog) (row : KnowledgeDocument) : Prop :=
  auditLog = {
    action := "DOCUMENT_INDEXED"
    entityType := "knowledge_documents"
    entityId := row.id
    userId := row.uploadedBy
    newValue := .obj [("title", .str row.title), ("chunks", .int row.embeddingCount),
      ("pages", .int row.pageCount)] }

theorem tells_of_traces {call : Call} {document : KnowledgeDocument} {auditLog : AuditLog}
    (h : (Proc.ingest call (.audited document auditLog) : Proc E).Traces env) :
    auditLog.Tells document := by
  obtain ⟨pages, chunks, hof, hcount, rfl⟩ := h
  have htitle : document.title = call.title := congrArg KnowledgeDocument.title hof
  have hpages : document.pageCount = pages.length := congrArg KnowledgeDocument.pageCount hof
  have hactor : document.uploadedBy = call.actorId := congrArg KnowledgeDocument.uploadedBy hof
  rw [AuditLog.Tells, auditOf, htitle, hpages, hactor, hcount]

/-- Between the two states the documents of `new` have been committed, and their entries logged. -/
structure GrowsBy (s t : State E) (new : List (KnowledgeDocument × AuditLog)) : Prop where
  logs : t.stores.auditLogs = s.stores.auditLogs ++ new.map Prod.snd
  once : (new.map fun entry => entry.1.id).Nodup
  fresh : ∀ entry ∈ new, s.stores.documents.committed entry.1.id = none
  indexed : ∀ entry ∈ new, entry.1.status = .INDEXED ∧ entry.2.Tells entry.1
  rows : ∀ documentId row, t.stores.documents.committed documentId = some row ↔
    s.stores.documents.committed documentId = some row ∨
      ∃ entry ∈ new, entry.1 = row ∧ row.id = documentId

theorem GrowsBy.of_same {s t : State E} (hlogs : t.stores.auditLogs = s.stores.auditLogs)
    (hrows : ∀ k, t.stores.documents.committed k = s.stores.documents.committed k) :
    GrowsBy s t [] where
  logs := hlogs.trans (List.append_nil _).symm
  once := List.nodup_nil
  fresh _ h := nomatch h
  indexed _ h := nomatch h
  rows documentId row := by rw [hrows]; simp

/-- The documents of the second list were not there before those of the first. -/
theorem GrowsBy.trans {s t u : State E} {new later : List (KnowledgeDocument × AuditLog)}
    (h : GrowsBy s t new) (h' : GrowsBy t u later) : GrowsBy s u (new ++ later) where
  logs := by rw [h'.logs, h.logs, List.map_append, List.append_assoc]
  once := by
    rw [List.map_append, List.nodup_append]
    refine ⟨h.once, h'.once, ?_⟩
    intro id hid id' hid' heq
    obtain ⟨entry, hentry, rfl⟩ := List.mem_map.mp hid
    obtain ⟨entry', hentry', rfl⟩ := List.mem_map.mp hid'
    have hthere : t.stores.documents.committed entry.1.id = some entry.1 :=
      (h.rows _ _).mpr (Or.inr ⟨entry, hentry, rfl, rfl⟩)
    rw [heq, h'.fresh entry' hentry'] at hthere
    cases hthere
  fresh entry hentry := by
    rcases List.mem_append.mp hentry with hfirst | hsecond
    · exact h.fresh entry hfirst
    · cases hrow : s.stores.documents.committed entry.1.id with
      | none => rfl
      | some row =>
        have hthere := (h.rows _ row).mpr (Or.inl hrow)
        rw [h'.fresh entry hsecond] at hthere
        cases hthere
  indexed entry hentry := by
    rcases List.mem_append.mp hentry with hfirst | hsecond
    · exact h.indexed entry hfirst
    · exact h'.indexed entry hsecond
  rows documentId row := by
    rw [h'.rows, h.rows, or_assoc]
    refine or_congr_right ?_
    simp only [List.mem_append, or_and_right, exists_or]

/-- The commit of a call adds its document. -/
theorem growsBy_commit {s : State E} {call : Call} {document : KnowledgeDocument}
    {auditLog : AuditLog}
    (hkeeps : (Proc.ingest call (.audited document auditLog) : Proc E).Keeps s.stores p)
    (htraces : (Proc.ingest call (.audited document auditLog) : Proc E).Traces env) :
    GrowsBy s (s.after p ⟨.commit auditLog, .ingest call (.committed document), []⟩)
      [(document, auditLog)] := by
  obtain ⟨hinserted, -, -, hindexed⟩ := hkeeps
  constructor
  · rfl
  · exact List.nodup_singleton _
  · intro entry hentry
    rw [List.mem_singleton.mp hentry]
    exact hinserted.new
  · intro entry hentry
    rw [List.mem_singleton.mp hentry]
    exact ⟨hindexed, tells_of_traces htraces⟩
  · intro documentId row
    show (s.stores.documents.commit p).committed documentId = some row ↔ _
    rw [committed_commit_inserted hinserted]
    split_ifs with hid
    · rw [hid, hinserted.new]
      simp only [Option.some.injEq, reduceCtorEq, List.mem_singleton, exists_eq_left, false_or]
      constructor
      · rintro rfl
        exact ⟨rfl, rfl⟩
      · exact And.left
    · simp only [List.mem_singleton, exists_eq_left]
      refine (or_iff_left ?_).symm
      rintro ⟨rfl, rfl⟩
      exact hid rfl

theorem growsBy_step {s s' : State E} {a : Action} (hs : Sound s)
    (htraces : ∀ p, (s.procs p).Traces env) (h : step env s a = some s') :
    ∃ new, GrowsBy s s' new := by
  rcases step_cases h with ⟨p, outcome, hmakes, rfl, -⟩ | ⟨p, documentId, -, rfl, -⟩
  · have hkeeps := hs.keeps p
    have htraces := htraces p
    generalize s.procs p = proc at hmakes hkeeps htraces
    cases hmakes with
    | flush => exact ⟨[], .of_same rfl fun _ => LockedTable.committed_write⟩
    | audit => exact ⟨[], .of_same rfl fun _ => LockedTable.committed_write⟩
    | commit => exact ⟨_, growsBy_commit hkeeps htraces⟩
    | _ => exact ⟨[], .of_same rfl fun _ => rfl⟩
  · exact ⟨[], .of_same rfl fun _ => rfl⟩

theorem traces_invariant :
    (corpus env).Invariant fun s => Sound s ∧ ∀ p, (s.procs p).Traces env :=
  sound_invariant.and
    (fun s hs p => by
      rw [hs.idle p]
      trivial)
    fun _ _ _ _ htraces hstep => traces_step htraces hstep

/-- **The catalogue only grows, and the log accounts for it.**  Whatever calls are made in between,
and wherever they fail: the rows that were committed stay as they are, the new ones are indexed, and
the entries that have been logged since tell of the new rows, one of each. -/
theorem catalogue_grows {s t : State E} (hs : (corpus env).Reachable s)
    (hst : (corpus env).Leads s t) : ∃ new, GrowsBy s t new :=
  traces_invariant.rel_of_leads (R := fun s t => ∃ new, GrowsBy s t new)
    (fun _ => ⟨[], .of_same rfl fun _ => rfl⟩)
    (fun _ _ _ ⟨new, h⟩ ⟨later, h'⟩ => ⟨new ++ later, h.trans h'⟩)
    (fun _ _ _ hs hstep => growsBy_step hs.1 hs.2 hstep) (traces_invariant.holds hs) hst

/-- The norm is in the catalogue, with its entry. -/
theorem catalogue_grows_ingested :
    ∃ t row, (corpus pageEnv).run noDocuments ingested = some t ∧
      t.stores.documents.committed ⟨"d1"⟩ = some row ∧ row.status = .INDEXED ∧
      ∃ auditLog ∈ t.stores.auditLogs, auditLog.Tells row := by
  have heval :
      ((corpus pageEnv).run noDocuments ingested).map seen = some (true, ["d1"], true) := by
    decide
  obtain ⟨t, ht, -, hseen⟩ := Machine.reachable_of_map_run quiet_noDocuments heval
  obtain ⟨row, hrow⟩ := Option.isSome_iff_exists.mp (Prod.mk.inj (Prod.mk.inj hseen).2).2
  have hempty : (corpus pageEnv).Reachable noDocuments := ⟨_, quiet_noDocuments, .refl _⟩
  obtain ⟨new, hgrows⟩ := catalogue_grows hempty ⟨ingested, ht⟩
  rcases (hgrows.rows _ _).mp hrow with hold | ⟨entry, hentry, rfl, -⟩
  · cases hold
  · obtain ⟨hindexed, htells⟩ := hgrows.indexed entry hentry
    refine ⟨t, entry.1, ht, hrow, hindexed, entry.2, ?_, htells⟩
    rw [hgrows.logs]
    exact List.mem_append_right _ (List.mem_map_of_mem hentry)

end RoadVisionAI.Knowledge
