import RoadVisionAI.Dashboard.Equiv.Coherence
import RoadVisionAI.Dashboard.Service
import RoadVisionAI.Transition.Past
import RoadVisionAI.Transition.Projection

/-!
# What the dashboard shows was true

A snapshot is not the database of any one moment, but each of its numbers is the answer of its query
in the state in which its call has made it, and these states come in the order of the queries
(`Told`).  `summary` shows a committed snapshot whose call began last (`summary_told`), and with a
region or a province given none at all, since no call sets them.
-/

namespace RoadVisionAI.DashboardService

open Db Transition Machine SnapshotJob Relational

variable {damageTypes : DamageTypeTable ℚ} {s t : State} {q : ℕ} {done : List (State × Action)}

/-! ### What a call has done -/

/-- The call a move is of. -/
def callOf (move : State × Action) : Option ℕ :=
  match move.2 with
  | .create .. | .inspection .. => none
  | .trigger q _ | .exec q _ | .fail q => some q

/-- A statement of a call: the state it is made in, and the identifier that is drawn for it. -/
structure Query where
  state : State
  id : Uuid

/-- What the statement reads. -/
def Query.surveys (query : Query) : List Survey := query.state.base.surveys

/-- The moves of a call that has made these statements. -/
def callMoves (q : ℕ) (call : TriggerCall) (begun : State) (made : List Query) :
    List (State × Action) :=
  (begun, .trigger q call) :: made.map fun query => (query.state, .exec q query.id)

/-- The seven statements of a call. -/
structure Queries where
  inspections : Query
  detections : Query
  mean : Query
  sections : Query
  flush : Query
  distribution : Query
  commit : Query

/-- In their order. -/
def Queries.toList (made : Queries) : List Query :=
  [made.inspections, made.detections, made.mean, made.sections, made.flush, made.distribution,
    made.commit]

section

variable (damageTypes : DamageTypeTable ℚ) (done : List (State × Action))

/-- The row is what the statements of a call have found, one after the other, from when the call
began to its commit. -/
def Told (row : SnapshotRow) : Prop :=
  ∃ q call begun, ∃ made : Queries, callMoves q call begun made.toList <:+: own callOf q done ∧
    row.createdAt = call.now ∧ row.id = made.commit.id ∧
    row.snapshot = dashboardSnapshot (totalInspections made.inspections.surveys)
      (totalDetections made.detections.surveys) (avgPci made.mean.surveys)
      (criticalSections made.sections.surveys) ∧
    row.stats = damageTypeStats (distribution damageTypes made.distribution.surveys)

/-- The job of a call that has made these statements. -/
def jobOf (made : List Query) : Option Job :=
  made.foldlM (fun job query => job.exec damageTypes query.surveys) .started

/-- A call has come to its stage by the moves it has made since it began. -/
def Knows (q : ℕ) (call : TriggerCall) (job : Job) : Prop :=
  job = .idle ∨ ∃ begun made, callMoves q call begun made <:+ own callOf q done ∧
    jobOf damageTypes made = some job

end

/-- A statement more. -/
theorem jobOf_append {made : List Query} {job next : Job} {query : Query}
    (h : jobOf damageTypes made = some job)
    (hexec : job.exec damageTypes query.surveys = some next) :
    jobOf damageTypes (made ++ [query]) = some next := by
  rw [jobOf] at h ⊢
  rw [List.foldlM_append, h]
  exact Option.bind_eq_some_iff.mpr ⟨job, rfl, Option.bind_eq_some_iff.mpr ⟨next, hexec, rfl⟩⟩

/-- What a call that is about to commit has found. -/
theorem answers_of_returned {made : List Query} {snapshot : DashboardSnapshot}
    {stats : List DamageTypeStat} (h : jobOf damageTypes made = some (.returned snapshot stats)) :
    ∃ a b c d e f, made = [a, b, c, d, e, f] ∧
      snapshot = dashboardSnapshot (totalInspections a.surveys) (totalDetections b.surveys)
        (avgPci c.surveys) (criticalSections d.surveys) ∧
      stats = damageTypeStats (distribution damageTypes f.surveys) := by
  rcases made with _ | ⟨a, _ | ⟨b, _ | ⟨c, _ | ⟨d, _ | ⟨e, _ | ⟨f, _ | ⟨g, made⟩⟩⟩⟩⟩⟩⟩
  · cases h
  · cases h
  · cases h
  · cases h
  · cases h
  · cases h
  · obtain ⟨rfl, rfl⟩ := Job.returned.inj (Option.some.inj h)
    exact ⟨a, b, c, d, e, f, rfl, rfl, rfl⟩
  · cases h

/-! ### The invariant -/

/-- The invariant: what the calls know, and what the rows say. -/
structure Sound (damageTypes : DamageTypeTable ℚ) (s : State) (done : List (State × Action)) :
    Prop where
  knows : ∀ q, Knows damageTypes done q (s.calls q) (s.base.jobs q)
  told : ∀ row ∈ s.snapshots, Told damageTypes done row
  plain : ∀ row ∈ s.snapshots, row.region = none ∧ row.province = none ∧
    row.snapshotDate = currentDate row.createdAt
  stored : s.base.stored = s.snapshots.map fun row => (row.snapshot, row.stats)

/-- What the others do leaves what a call knows. -/
theorem Knows.frame {call : TriggerCall} {job : Job} {move : State × Action}
    (h : Knows damageTypes done q call job) (hmove : callOf move ≠ some q) :
    Knows damageTypes (done ++ [move]) q call job := by
  rcases h with hidle | ⟨begun, made, hmoves, hjob⟩
  · exact Or.inl hidle
  · exact Or.inr ⟨begun, made, suffix_own_other hmoves hmove, hjob⟩

theorem Told.append {row : SnapshotRow} (h : Told damageTypes done row) (move : State × Action) :
    Told damageTypes (done ++ [move]) row := by
  obtain ⟨q, call, begun, made, hmoves, hrow⟩ := h
  exact ⟨q, call, begun, made, infix_own_append hmoves, hrow⟩

/-- A move that commits nothing: only its call has changed. -/
theorem Sound.move (h : Sound damageTypes s done) {move : State × Action}
    (hsnapshots : t.snapshots = s.snapshots) (hstored : t.base.stored = s.base.stored)
    (hself : ∀ q, callOf move = some q →
      Knows damageTypes (done ++ [move]) q (t.calls q) (t.base.jobs q))
    (hothers : ∀ q, callOf move ≠ some q → t.calls q = s.calls q ∧ t.base.jobs q = s.base.jobs q) :
    Sound damageTypes t (done ++ [move]) where
  knows q := by
    by_cases hq : callOf move = some q
    · exact hself q hq
    · obtain ⟨hcall, hjob⟩ := hothers q hq
      rw [hcall, hjob]
      exact (h.knows q).frame hq
  told row hrow := (h.told row (hsnapshots ▸ hrow)).append move
  plain row hrow := h.plain row (hsnapshots ▸ hrow)
  stored := by rw [hstored, hsnapshots, h.stored]

/-- A move of the call `q` that commits nothing. -/
theorem Sound.moveOf (h : Sound damageTypes s done) {move : State × Action}
    (hmove : callOf move = some q) (hsnapshots : t.snapshots = s.snapshots)
    (hstored : t.base.stored = s.base.stored)
    (hself : Knows damageTypes (done ++ [move]) q (t.calls q) (t.base.jobs q))
    (hothers : ∀ q' ≠ q, t.calls q' = s.calls q' ∧ t.base.jobs q' = s.base.jobs q') :
    Sound damageTypes t (done ++ [move]) := by
  refine h.move hsnapshots hstored (fun q' hq' => ?_) fun q' hq' => hothers q' ?_
  · obtain rfl : q = q' := Option.some.inj (hmove.symm.trans hq')
    exact hself
  · rintro rfl
    exact hq' hmove

theorem along_eq_some {action : SnapshotJob.Action} (h : s.along damageTypes action = some t) :
    ∃ base, SnapshotJob.step damageTypes s.base action = some base ∧ t = { s with base } := by
  obtain ⟨base, hstep, ht⟩ := Option.map_eq_some_iff.mp h
  exact ⟨base, hstep, ht.symm⟩

/-- The moves of a call that makes a statement more. -/
theorem suffix_callMoves {call : TriggerCall} {begun : State} {made : List Query}
    (h : callMoves q call begun made <:+ own callOf q done) (query : Query) :
    callMoves q call begun (made ++ [query])
      <:+ own callOf q (done ++ [(query.state, .exec q query.id)]) := by
  have hsplit : callMoves q call begun (made ++ [query])
      = callMoves q call begun made ++ [(query.state, .exec q query.id)] := by
    simp [callMoves]
  rw [hsplit]
  exact suffix_own_next h rfl

/-- A statement of a call, its commit apart. -/
theorem sound_exec {id : Uuid} (h : Sound damageTypes s done)
    (hjob : ∀ snapshot stats, s.base.jobs q ≠ .returned snapshot stats)
    (halong : s.along damageTypes (.exec q) = some t) :
    Sound damageTypes t (done ++ [(s, .exec q id)]) := by
  obtain ⟨base, hbase, rfl⟩ := along_eq_some halong
  -- it is not the commit
  simp only [SnapshotJob.step] at hbase
  obtain ⟨next, hexec, rfl⟩ := Option.map_eq_some_iff.mp hbase
  refine h.moveOf rfl rfl rfl ?_ fun q' hq => ⟨rfl, Function.update_of_ne hq ..⟩
  have hself : (s.base.after q next).jobs q = next := Function.update_self ..
  rw [hself]
  rcases h.knows q with hidle | ⟨begun, made, hmoves, hmade⟩
  · rw [hidle] at hexec
    cases hexec
  · have hnext : jobOf damageTypes (made ++ [⟨s, id⟩]) = some next := jobOf_append hmade hexec
    exact Or.inr ⟨begun, made ++ [⟨s, id⟩], suffix_callMoves hmoves ⟨s, id⟩, hnext⟩

/-- The commit of a call. -/
theorem sound_commit {id : Uuid} {snapshot : DashboardSnapshot} {stats : List DamageTypeStat}
    (h : Sound damageTypes s done) (hjob : s.base.jobs q = .returned snapshot stats) {base}
    (hbase : base = { s.base.after q .idle with stored := s.base.stored ++ [(snapshot, stats)] }) :
    Sound damageTypes (({ s with base } : State).commit ((s.calls q).row id snapshot stats)
      ((s.calls q).auditLog id)) (done ++ [(s, .exec q id)]) := by
  subst hbase
  rcases h.knows q with hidle | ⟨begun, made, hmoves, hmade⟩
  · rw [hjob] at hidle
    cases hidle
  rw [hjob] at hmade
  obtain ⟨a, b, c, d, e, f, rfl, rfl, rfl⟩ := answers_of_returned hmade
  refine ⟨fun q' => ?_, ?_, ?_, ?_⟩
  · show Knows damageTypes _ q' (s.calls q') ((s.base.after q .idle).jobs q')
    obtain rfl | hq := eq_or_ne q' q
    · exact Or.inl (Function.update_self ..)
    · have hother : (s.base.after q .idle).jobs q' = s.base.jobs q' := Function.update_of_ne hq ..
      rw [hother]
      exact (h.knows q').frame fun he => hq (Option.some.inj he).symm
  · refine List.forall_mem_append.mpr ⟨fun row hrow => (h.told row hrow).append _,
      List.forall_mem_singleton.mpr ?_⟩
    exact ⟨q, s.calls q, begun, ⟨a, b, c, d, e, f, ⟨s, id⟩⟩,
      (suffix_callMoves hmoves ⟨s, id⟩).isInfix, rfl, rfl, rfl, rfl⟩
  · exact List.forall_mem_append.mpr ⟨h.plain, List.forall_mem_singleton.mpr ⟨rfl, rfl, rfl⟩⟩
  · show s.base.stored ++ [_] = (s.snapshots ++ [_]).map _
    rw [h.stored, List.map_append, List.map_singleton]
    rfl

/-- A call begins. -/
theorem sound_trigger {call : TriggerCall} (h : Sound damageTypes s done)
    (hstep : (service damageTypes).step s (.trigger q call) = some t) :
    Sound damageTypes t (done ++ [(s, .trigger q call)]) := by
  obtain ⟨t, halong, rfl⟩ := Option.map_eq_some_iff.mp hstep
  obtain ⟨base, hbase, rfl⟩ := along_eq_some halong
  simp only [SnapshotJob.step] at hbase
  split at hbase
  · obtain rfl := Option.some.inj hbase
    refine h.moveOf rfl rfl rfl ?_ fun q' hq =>
      ⟨Function.update_of_ne hq .., Function.update_of_ne hq ..⟩
    have hjob : (s.base.after q .started).jobs q = .started := Function.update_self ..
    have hcall : Function.update s.calls q call q = call := Function.update_self ..
    show Knows damageTypes _ q (Function.update s.calls q call q) _
    rw [hcall]
    exact Or.inr ⟨s, [], suffix_own_first rfl, congrArg some hjob.symm⟩
  · cases hbase

/-- A call breaks off. -/
theorem sound_fail (h : Sound damageTypes s done)
    (hstep : (service damageTypes).step s (.fail q) = some t) :
    Sound damageTypes t (done ++ [(s, .fail q)]) := by
  obtain ⟨base, hbase, rfl⟩ := along_eq_some hstep
  simp only [SnapshotJob.step] at hbase
  split at hbase
  · cases hbase
  · obtain rfl := Option.some.inj hbase
    exact h.moveOf rfl rfl rfl (Or.inl (Function.update_self ..)) fun q' hq =>
      ⟨rfl, Function.update_of_ne hq ..⟩

theorem sound_step {a : Action} (h : Sound damageTypes s done)
    (hstep : (service damageTypes).step s a = some t) :
    Sound damageTypes t (done ++ [(s, a)]) := by
  cases a with
  | create data actor id now =>
    obtain ⟨base, hbase, rfl⟩ := along_eq_some hstep
    simp only [SnapshotJob.step] at hbase
    split_ifs at hbase
    obtain rfl := Option.some.inj hbase
    exact h.move rfl rfl (fun _ hnone => absurd hnone (Option.some_ne_none _).symm)
      fun _ _ => ⟨rfl, rfl⟩
  | inspection i action =>
    obtain ⟨base, hbase, rfl⟩ := along_eq_some hstep
    simp only [SnapshotJob.step, bind, Option.bind_eq_some_iff] at hbase
    obtain ⟨_, -, _, -, hbase⟩ := hbase
    obtain rfl := Option.some.inj hbase
    exact h.move rfl rfl (fun _ hnone => absurd hnone (Option.some_ne_none _).symm)
      fun _ _ => ⟨rfl, rfl⟩
  | trigger q call => exact sound_trigger h hstep
  | exec q id =>
    simp only [service, step] at hstep
    split at hstep
    next snapshot stats hreturned =>
      split_ifs at hstep
      obtain ⟨t, halong, rfl⟩ := Option.map_eq_some_iff.mp hstep
      obtain ⟨base, hbase, rfl⟩ := along_eq_some halong
      simp only [SnapshotJob.step, hreturned] at hbase
      exact sound_commit h hreturned (Option.some.inj hbase).symm
    next hnot => exact sound_exec h hnot hstep
  | fail q => exact sound_fail h hstep

/-- Every run. -/
theorem sound_of_run {actions : List Action}
    (h : (service damageTypes).run .empty actions = some s) :
    Sound damageTypes s ((service damageTypes).moves .empty actions) := by
  have hempty : Sound damageTypes .empty [] :=
    ⟨fun _ => Or.inl rfl, fun _ hnone => (nomatch hnone), fun _ hnone => (nomatch hnone), rfl⟩
  exact moves_of_run (fun _ _ _ _ h hstep => sound_step h hstep) [] hempty h

/-- The steps are those of `dashboard`. -/
theorem projects_dashboard :
    (service damageTypes).Projects (dashboard damageTypes) State.base where
  init := by
    rintro s rfl
    rfl
  step s a s' h := by
    have halong : ∀ {action t}, s.along damageTypes action = some t →
        t.base = s.base ∨ ∃ b, (dashboard damageTypes).step s.base b = some t.base := by
      intro action t ht
      obtain ⟨base, hbase, rfl⟩ := along_eq_some ht
      exact Or.inr ⟨action, hbase⟩
    cases a with
    | create | inspection | fail => exact halong h
    | trigger q call =>
      obtain ⟨t, ht, rfl⟩ := Option.map_eq_some_iff.mp h
      exact halong (t := t) ht
    | exec q id =>
      simp only [service, step] at h
      split at h
      · split_ifs at h
        obtain ⟨t, ht, rfl⟩ := Option.map_eq_some_iff.mp h
        exact halong (t := t) ht
      · exact halong h

/-- What `dashboard` stores is what the rows hold. -/
theorem refines_dashboard (hs : (service damageTypes).Reachable s) :
    (dashboard damageTypes).Reachable s.base ∧
      s.base.stored = s.snapshots.map fun row => (row.snapshot, row.stats) := by
  refine ⟨projects_dashboard.reachable hs, ?_⟩
  obtain ⟨_, rfl, actions, hrun⟩ := hs
  exact (sound_of_run hrun).stored

/-! ### Reading -/

theorem mem_whereGiven_iff {α β : Type*} {given : Option β} {cond : β → α → Bool} {rows : List α}
    {row : α} :
    row ∈ Repositories.whereGiven given cond rows
      ↔ row ∈ rows ∧ ∀ value ∈ given, cond value row := by
  cases given with
  | none => exact (and_iff_left nofun).symm
  | some value => simp [Repositories.whereGiven]

/-- No row is of a place, and a filter asks for one; or there is no row. -/
theorem ofPlace_eq_nil {rows : List SnapshotRow} {region province : Option String}
    (hplain : ∀ row ∈ rows, row.region = none ∧ row.province = none)
    (h : region ≠ none ∨ province ≠ none ∨ rows = []) : ofPlace region province rows = [] := by
  rw [List.eq_nil_iff_forall_not_mem]
  intro row hrow
  rw [ofPlace, mem_whereGiven_iff, mem_whereGiven_iff] at hrow
  obtain ⟨⟨hmem, hregion⟩, hprovince⟩ := hrow
  obtain ⟨hnone, hnone'⟩ := hplain row hmem
  rcases h with h | h | rfl
  · obtain ⟨value, hvalue⟩ := Option.ne_none_iff_exists'.mp h
    simpa [hnone] using hregion value hvalue
  · obtain ⟨value, hvalue⟩ := Option.ne_none_iff_exists'.mp h
    simpa [hnone'] using hprovince value hvalue
  · cases hmem

/-- The first row of a legal order is one of the latest. -/
theorem createdAt_le_of_head? {rows order : List SnapshotRow} {row : SnapshotRow}
    (hdates : ∀ row ∈ rows, row.snapshotDate = currentDate row.createdAt)
    (hlegal : Legal latestFirst rows order) (h : (page order 1 0).head? = some row) :
    row ∈ rows ∧ ∀ other ∈ rows, other.createdAt ≤ row.createdAt := by
  cases order with
  | nil => cases h
  | cons first rest =>
    obtain rfl := Option.some.inj h
    have hfirst : first ∈ rows := hlegal.perm.mem_iff.mp List.mem_cons_self
    refine ⟨hfirst, fun other hother => ?_⟩
    rcases List.mem_cons.mp (hlegal.perm.mem_iff.mpr hother) with rfl | hrest
    · exact le_rfl
    · have hle := List.rel_of_pairwise_cons hlegal.sorted hrest
      rw [latestFirst, latestFirst, Prod.Lex.toLex_le_toLex] at hle
      rcases hle with hdate | ⟨-, htime⟩
      · -- an earlier date is an earlier time
        rw [OrderDual.toDual_lt_toDual, hdates _ hfirst, hdates _ hother] at hdate
        by_contra hlate
        exact absurd (Nat.div_le_div_right (c := 86400) (not_le.mp hlate).le) (not_le.mpr hdate)
      · exact OrderDual.toDual_le_toDual.mp htime

/-- There is always an answer. -/
theorem exists_summary (rows : List SnapshotRow) (region province : Option String) :
    ∃ response, Summary rows region province response := by
  have hlegal := Legal.insertionSort latestFirst (ofPlace region province rows)
  set order := (ofPlace region province rows).insertionSort fun a b => latestFirst a ≤ latestFirst b
  cases hhead : (page order 1 0).head? with
  | none => exact ⟨noSnapshot, none, ⟨order, hlegal, hhead.symm⟩, rfl⟩
  | some row =>
    exact ⟨_, some row, ⟨order, hlegal, hhead.symm⟩, _, Legal.insertionSort _ row.stats, rfl⟩

/-- **What the dashboard shows was true.**  After every run, whatever calls and inspections are
under way: without a filter, `summary` shows a committed snapshot, if there is one, whose call began
last; each of its numbers was the answer of its query in the state of the run in which that call
made it, the queries being made in their order between the beginning of the call and its commit; and
its damage types are those of the snapshot, the most frequent first.  With a region or a province it
always answers that there is none. -/
theorem summary_told {actions : List Action}
    (hrun : (service damageTypes).run .empty actions = some s)
    {region province : Option String} {response : DashboardSummaryResponse}
    (h : Summary s.snapshots region province response) :
    (region ≠ none ∨ province ≠ none ∨ s.snapshots = [] → response = noSnapshot) ∧
      (region = none → province = none → s.snapshots ≠ [] → ∃ row ∈ s.snapshots,
        response.snapshot = some row ∧ response.message = none ∧
          (∀ other ∈ s.snapshots, other.createdAt ≤ row.createdAt) ∧
          Told damageTypes ((service damageTypes).moves .empty actions) row ∧
          response.damageStats.Perm row.stats ∧
          response.damageStats.Pairwise fun a b => b.count ≤ a.count) := by
  have hsound := sound_of_run hrun
  obtain ⟨latest, ⟨order, hlegal, rfl⟩, h⟩ := h
  refine ⟨fun hnone => ?_, ?_⟩
  · have hempty : ofPlace region province s.snapshots = [] :=
      ofPlace_eq_nil (fun row hrow => (hsound.plain row hrow).imp_right And.left) hnone
    rw [hempty] at hlegal
    obtain rfl : order = [] := hlegal.perm.eq_nil
    exact h
  · rintro rfl rfl hsome
    have hlegal : Legal latestFirst s.snapshots order := hlegal
    cases hhead : (page order 1 0).head? with
    | none =>
      rw [page, List.drop_zero, List.head?_eq_none_iff, List.take_eq_nil_iff] at hhead
      rcases hhead with hzero | rfl
      · cases hzero
      · exact absurd hlegal.perm.nil_eq.symm hsome
    | some row =>
      rw [hhead] at h
      obtain ⟨stats, hstats, rfl⟩ := h
      obtain ⟨hrow, hlatest⟩ := createdAt_le_of_head? (fun row hrow => (hsound.plain row hrow).2.2)
        hlegal hhead
      refine ⟨row, hrow, rfl, rfl, hlatest, hsound.told row hrow, hstats.perm, ?_⟩
      exact hstats.sorted.imp fun hle => OrderDual.toDual_le_toDual.mp hle

/-- The survey of `potholeSurvey`, then a snapshot. -/
def potholeDashboard : List Action :=
  .create
      { roadSectionId := ⟨"section-1"⟩, inspectionDate := none, weatherCond := none, notes := none }
      ⟨"agent-1"⟩ ⟨"inspection-1"⟩ 0 ::
    Inspections.potholeSurvey.map (.inspection 0) ++
    .trigger 0 ⟨⟨"admin-1"⟩, 90000⟩ :: List.replicate 7 (.exec 0 ⟨"snapshot-1"⟩)

/-- The dashboard shows the two potholes, as they were counted. -/
theorem summary_told_potholeDashboard :
    ∃ t response row, (service AnalysisWorker.potholeTable).run .empty potholeDashboard = some t ∧
      Summary t.snapshots none none response ∧ response.snapshot = some row ∧
      row.createdAt = 90000 ∧ row.snapshot.totalDetections = 2 ∧
      Told AnalysisWorker.potholeTable
        ((service AnalysisWorker.potholeTable).moves .empty potholeDashboard) row := by
  have heval : ((service AnalysisWorker.potholeTable).run .empty potholeDashboard).map
      (fun t => t.snapshots.map fun row => (row.createdAt, row.snapshot.totalDetections))
        = some [(90000, 2)] := by
    decide +kernel
  obtain ⟨t, ht, -, hrows⟩ :=
    Machine.reachable_of_map_run (m := service AnalysisWorker.potholeTable) rfl heval
  obtain ⟨only, honly, htwo⟩ := List.map_eq_singleton_iff.mp hrows
  obtain ⟨response, hresponse⟩ := exists_summary t.snapshots none none
  obtain ⟨row, hrow, hshown, -, -, htold, -⟩ :=
    (summary_told ht hresponse).2 rfl rfl (by rw [honly]; exact List.cons_ne_nil _ _)
  obtain rfl : row = only := List.mem_singleton.mp (honly ▸ hrow)
  obtain ⟨hcreated, htwo⟩ := Prod.mk.inj htwo
  exact ⟨t, response, row, ht, hresponse, hshown, hcreated, htwo, htold⟩

end RoadVisionAI.DashboardService
