import RoadVisionAI.Inspections.System
import RoadVisionAI.Python.Json
import RoadVisionAI.Relational.Aggregates

/-!
# The dashboard snapshot (`app/workers/snapshot_job.py`)

`compute_snapshot` is five queries, each a function of the committed rows, and two flushes.
`computeSnapshot` is what they make of a database nobody writes to; in `dashboard` they are the
statements of a process beside any number of inspections, each a `system` of its own, and every
query sees what is committed when it runs (READ COMMITTED: the engine sets no isolation level).

The rows of `road_images`, `damage_detections` and `pci_scores` are kept with the inspection they
belong to, so the joins along those foreign keys are read off.
-/

namespace RoadVisionAI.SnapshotJob

open Python Db Transition Inspections Relational

/-! ### The queries -/

/-- An inspection, and the committed rows that belong to it. -/
structure Survey where
  inspection : Inspection
  tables : Tables
deriving DecidableEq

section Queries

variable (damageTypes : DamageTypeTable ℚ) (surveys : List Survey)

/-- `CRITICAL_PCI_THRESHOLD`. -/
def criticalPciThreshold : ℚ := 40

/-- The table `damage_detections`. -/
def damageDetections : List (DamageDetection ℚ) :=
  surveys.flatMap fun survey => survey.tables.damageDetections

/-- `PciScore.score`. -/
def scores : List ℚ := surveys.flatMap fun survey => survey.tables.pciScores.map PciScore.score

/-- `SELECT count(*) FROM inspections WHERE deleted_at IS NULL`. -/
def totalInspections : ℕ :=
  (surveys.filter fun survey => survey.inspection.deletedAt = none).length

/-- `SELECT count(*) FROM damage_detections`. -/
def totalDetections : ℕ := (damageDetections surveys).length

/-- `SELECT avg(score) FROM pci_scores`. -/
def avgPci : Option ℚ := avg (scores surveys)

/-- `road_section_id` of the scores under the threshold, by the join of `pci_scores` and
`inspections`. -/
def criticalSectionIds : List Uuid :=
  surveys.flatMap fun survey =>
    (survey.tables.pciScores.filter fun row => row.score < criticalPciThreshold).map
      fun _ => survey.inspection.roadSectionId

/-- `SELECT count(DISTINCT road_section_id) …`. -/
def criticalSections : ℕ := countDistinct (criticalSectionIds surveys)

/-- `DamageType.code` of the join of `damage_types` and `damage_detections`. -/
def detectedCodes : List String :=
  (damageDetections surveys).flatMap fun detection =>
    (damageTypes.rows.filter fun dt => dt.id = detection.damageTypeId).map DamageType.code

/-- `SELECT code, count(damage_detections.id) … GROUP BY code`. -/
def distribution : List (String × ℕ) := groupCount (detectedCodes damageTypes surveys)

end Queries

/-! ### The rows -/

/-- `dashboard_snapshots`, as its columns hold it. -/
structure DashboardSnapshot where
  totalInspections : ℕ
  totalDetections : ℕ
  avgPciScore : Option ℚ
  criticalSections : ℕ
deriving DecidableEq

/-- The row of the snapshot.  The mean is stored in cents; the quotient of the query has sixteen
digits at least, more than cents can show. -/
def dashboardSnapshot (totalInspections totalDetections : ℕ) (avgPci : Option ℚ)
    (criticalSections : ℕ) : DashboardSnapshot where
  totalInspections
  totalDetections
  avgPciScore := avgPci.map fun mean => quantizeHalfUp mean 2
  criticalSections

/-- `damage_type_stats`. -/
structure DamageTypeStat where
  damageType : String
  count : ℕ
  percentage : PyFloat
deriving DecidableEq

/-- `round(100 * count / total, 2)`. -/
def percentage (count total : ℕ) : PyFloat :=
  match PyFloat.ofRat (100 * count / total) with
  | .finite q => .ofRat (pyRound q 2)
  | overflow => overflow

/-- The rows of the distribution, `total = sum(…) or 1`. -/
def damageTypeStats (rows : List (String × ℕ)) : List DamageTypeStat :=
  let sum := (rows.map Prod.snd).sum
  let total := if sum = 0 then 1 else sum
  rows.map fun row => {
    damageType := row.1
    count := row.2
    percentage := percentage row.2 total }

/-- `compute_snapshot`, when nobody writes. -/
def computeSnapshot (damageTypes : DamageTypeTable ℚ) (surveys : List Survey) :
    DashboardSnapshot × List DamageTypeStat :=
  (dashboardSnapshot (totalInspections surveys) (totalDetections surveys) (avgPci surveys)
      (criticalSections surveys),
    damageTypeStats (distribution damageTypes surveys))

/-! ### The statements of a call -/

/-- A call of `compute_snapshot`, by the statements it has made. -/
inductive Job where
  | idle
  | started
  | countedInspections (totalInspections : ℕ)
  | countedDetections (totalInspections totalDetections : ℕ)
  | averaged (totalInspections totalDetections : ℕ) (avgPci : Option ℚ)
  | summarised (snapshot : DashboardSnapshot)
  /-- The row of the snapshot is inserted. -/
  | flushed (snapshot : DashboardSnapshot)
  /-- The rows of the distribution are read and inserted; only the commit is left. -/
  | returned (snapshot : DashboardSnapshot) (stats : List DamageTypeStat)

/-- The next statement of a call, up to its return.  The last query goes with the flush of its rows,
which reads nothing. -/
def Job.exec (damageTypes : DamageTypeTable ℚ) (surveys : List Survey) : Job → Option Job
  | .idle => none
  -- each query reads what is committed when it runs
  | .started => some (.countedInspections (totalInspections surveys))
  | .countedInspections inspections =>
    some (.countedDetections inspections (totalDetections surveys))
  | .countedDetections inspections detections =>
    some (.averaged inspections detections (avgPci surveys))
  | .averaged inspections detections avgPci =>
    some (.summarised (dashboardSnapshot inspections detections avgPci (criticalSections surveys)))
  | .summarised snapshot => some (.flushed snapshot)
  | .flushed snapshot =>
    some (.returned snapshot (damageTypeStats (distribution damageTypes surveys)))
  | .returned _ _ => none

/-! ### The machine -/

/-- The inspections, the calls, and the committed snapshots. -/
structure State where
  inspections : List Inspections.State
  jobs : ℕ → Job
  stored : List (DashboardSnapshot × List DamageTypeStat)

/-- An action: an inspection is created or makes a step, a call begins, makes its next statement, or
fails there. -/
inductive Action where
  | create (data : InspectionCreate) (actor id : Uuid) (now : ℕ)
  | inspection (i : ℕ) (action : Inspections.Action)
  | trigger (q : ℕ)
  | exec (q : ℕ)
  | fail (q : ℕ)

namespace State

/-- What is committed. -/
def surveys (s : State) : List Survey :=
  s.inspections.map fun t => { inspection := t.db.row.committed, tables := t.db.tables }

/-- Call `q` has made a statement. -/
def after (s : State) (q : ℕ) (job : Job) : State :=
  { s with jobs := Function.update s.jobs q job }

/-- Nothing yet. -/
def empty : State where
  inspections := []
  jobs := fun _ => .idle
  stored := []

end State

/-- One action. -/
def step (damageTypes : DamageTypeTable ℚ) (s : State) : Action → Option State
  | .create data actor id now =>
    if id ∈ s.surveys.map (fun survey => survey.inspection.id) then none
    else some { s with inspections := s.inspections ++ [.created (create data actor id now)] }
  | .inspection i action => do
    let t ← s.inspections[i]?
    let t' ← Inspections.step damageTypes t action
    some { s with inspections := s.inspections.set i t' }
  | .trigger q =>
    match s.jobs q with
    | .idle => some (s.after q .started)
    | _ => none
  | .exec q =>
    match s.jobs q with
    | .returned snapshot stats =>
      some { s.after q .idle with stored := s.stored ++ [(snapshot, stats)] }
    | job => (job.exec damageTypes s.surveys).map (s.after q)
  | .fail q =>
    match s.jobs q with
    | .idle => none
    | _ => some (s.after q .idle)

/-- The dashboard and the inspections, from the beginning. -/
def dashboard (damageTypes : DamageTypeTable ℚ) : Machine State Action where
  init s := s = .empty
  step := step damageTypes

end RoadVisionAI.SnapshotJob
