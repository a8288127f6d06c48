import RoadVisionAI.Dashboard.SnapshotJob
import RoadVisionAI.Repositories.Listings
import Mathlib.Data.Prod.Lex

/-!
# The dashboard (`app/services/dashboard_service.py`, `app/repositories/dashboard_repository.py`)

`trigger_snapshot` around `compute_snapshot`, and `summary`.  A state is one of the machine
`dashboard` and what that leaves out: the columns of the snapshots that their rows are found by, and
the audit log.  `now()` and `CURRENT_DATE` are those of the beginning of a transaction, so a
snapshot bears the date of its call, not of its commit.

A request reads in one or two statements, and a committed snapshot never changes, so what `summary`
may answer is a relation on the committed rows.
-/

namespace RoadVisionAI.DashboardService

open Db Transition SnapshotJob Relational
open Repositories (whereGiven)

/-! ### Rows -/

/-- A call of `trigger_snapshot`: who makes it, and `now()` in its transaction. -/
structure TriggerCall where
  actorId : Uuid
  now : ℕ

/-- `CURRENT_DATE`, in a session whose time zone is UTC. -/
def currentDate (now : ℕ) : ℕ := now / 86400

/-- `dashboard_snapshots`, with its `damage_type_stats`. -/
structure SnapshotRow where
  id : Uuid
  snapshotDate : ℕ
  createdAt : ℕ
  region : Option String
  province : Option String
  snapshot : DashboardSnapshot
  stats : List DamageTypeStat

/-- `audit_logs`. -/
structure AuditLog where
  action : String
  entityType : String
  entityId : Uuid
  userId : Uuid

/-- The row of a call; what `compute_snapshot` does not set has the column's default. -/
def TriggerCall.row (call : TriggerCall) (id : Uuid) (snapshot : DashboardSnapshot)
    (stats : List DamageTypeStat) : SnapshotRow where
  id
  snapshotDate := currentDate call.now
  createdAt := call.now
  region := none
  province := none
  snapshot
  stats

/-- The `SNAPSHOT_COMPUTED` entry. -/
def TriggerCall.auditLog (call : TriggerCall) (id : Uuid) : AuditLog where
  action := "SNAPSHOT_COMPUTED"
  entityType := "dashboard_snapshots"
  entityId := id
  userId := call.actorId

/-! ### Reading -/

/-- `ORDER BY snapshot_date DESC, created_at DESC`. -/
def latestFirst (row : SnapshotRow) : ℕᵒᵈ ×ₗ ℕᵒᵈ :=
  toLex (OrderDual.toDual row.snapshotDate, OrderDual.toDual row.createdAt)

/-- The rows of `latest_snapshot`.  A comparison with `NULL` holds of no value. -/
def ofPlace (region province : Option String) (rows : List SnapshotRow) : List SnapshotRow :=
  let stmt := whereGiven region (fun region row => row.region = some region) rows
  whereGiven province (fun province row => row.province = some province) stmt

/-- `latest_snapshot`. -/
def LatestSnapshot (rows : List SnapshotRow) (region province : Option String)
    (answer : Option SnapshotRow) : Prop :=
  ∃ order, Legal latestFirst (ofPlace region province rows) order ∧ answer = (page order 1 0).head?

/-- `damage_stats`: `ORDER BY count DESC`. -/
def DamageStats (row : SnapshotRow) (answer : List DamageTypeStat) : Prop :=
  Legal (fun stat => OrderDual.toDual stat.count) row.stats answer

/-- `DashboardSummaryResponse`. -/
structure DashboardSummaryResponse where
  snapshot : Option SnapshotRow
  damageStats : List DamageTypeStat
  message : Option String

/-- The answer when there is no snapshot. -/
def noSnapshot : DashboardSummaryResponse where
  snapshot := none
  damageStats := []
  message := some "No snapshot computed yet — POST /api/dashboard/snapshots (admin)"

/-- `DashboardService.summary`. -/
def Summary (rows : List SnapshotRow) (region province : Option String)
    (response : DashboardSummaryResponse) : Prop :=
  ∃ latest, LatestSnapshot rows region province latest ∧
    match latest with
    | none => response = noSnapshot
    | some row => ∃ stats, DamageStats row stats ∧
      response = { snapshot := some row, damageStats := stats, message := none }

/-! ### The machine -/

structure State where
  base : SnapshotJob.State
  calls : ℕ → TriggerCall
  snapshots : List SnapshotRow
  auditLogs : List AuditLog

/-- An action: one of `dashboard` that is of no call, or a call begins or makes its next statement,
with the identifier its row may get. -/
inductive Action where
  | create (data : Inspections.InspectionCreate) (actor id : Uuid) (now : ℕ)
  | inspection (i : ℕ) (action : Inspections.Action)
  | trigger (q : ℕ) (call : TriggerCall)
  | exec (q : ℕ) (id : Uuid)
  | fail (q : ℕ)

/-- A step of `dashboard`. -/
def State.along (damageTypes : DamageTypeTable ℚ) (s : State) (action : SnapshotJob.Action) :
    Option State :=
  (SnapshotJob.step damageTypes s.base action).map fun base => { s with base }

/-- The rows a commit adds. -/
def State.commit (s : State) (row : SnapshotRow) (auditLog : AuditLog) : State :=
  { s with snapshots := s.snapshots ++ [row], auditLogs := s.auditLogs ++ [auditLog] }

/-- One action. -/
def step (damageTypes : DamageTypeTable ℚ) (s : State) : Action → Option State
  | .create data actor id now => s.along damageTypes (.create data actor id now)
  | .inspection i action => s.along damageTypes (.inspection i action)
  | .trigger q call =>
    (s.along damageTypes (.trigger q)).map fun t =>
      { t with calls := Function.update s.calls q call }
  | .exec q id =>
    match s.base.jobs q with
    | .returned snapshot stats =>
      if id ∈ s.snapshots.map SnapshotRow.id then none
      else (s.along damageTypes (.exec q)).map fun t =>
        t.commit ((s.calls q).row id snapshot stats) ((s.calls q).auditLog id)
    | _ => s.along damageTypes (.exec q)
  | .fail q => s.along damageTypes (.fail q)

/-- Nothing yet. -/
def State.empty : State where
  base := .empty
  calls _ := ⟨⟨""⟩, 0⟩
  snapshots := []
  auditLogs := []

/-- The dashboard and the inspections, from the beginning. -/
def service (damageTypes : DamageTypeTable ℚ) : Machine State Action where
  init s := s = .empty
  step := step damageTypes

end RoadVisionAI.DashboardService
