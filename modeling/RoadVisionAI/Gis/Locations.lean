import RoadVisionAI.Db.Models
import RoadVisionAI.Transition.Machine
import Mathlib.Data.Rat.Floor

/-!
# The locations (`01_schema_v4.2.sql`)

The table `gis_locations` under `INSERT` and `UPDATE` statements.  A value is coerced to the type of
its column as it is assigned; then the `BEFORE` triggers run, in the order of their names
`trg_gis_locations_geom` and `trg_gis_locations_updated_at`, and what they leave is tested against
the constraints.  A statement that fails on one row changes none.  The key is tested on the rows a
statement ends with: the database does so row by row, in an order it leaves open.  PostGIS is a
parameter.
-/

namespace RoadVisionAI.Gis

open Python Db Transition

/-! ### Values -/

/-- A `NUMERIC`. -/
inductive Numeric where
  | finite (q : ℚ)
  | nan
  | infinite (negative : Bool)
deriving DecidableEq

namespace Numeric

/-- The coercion to `NUMERIC(precision, scale)`. -/
def coerce (precision scale : ℕ) : Numeric → Option Numeric
  | finite q =>
    if FitsNumeric precision scale (quantizeHalfUp q scale) then
      some (finite (quantizeHalfUp q scale))
    else none
  | nan => some nan
  | infinite _ => none

/-- `BETWEEN low AND high`; NaN is above every number. -/
def Between (low high : ℚ) : Numeric → Prop
  | finite q => low ≤ q ∧ q ≤ high
  | nan | infinite _ => False

instance (low high : ℚ) : DecidablePred (Between low high)
  | finite _ => inferInstanceAs (Decidable (_ ∧ _))
  | nan | infinite _ => .isFalse id

end Numeric

/-- What the table uses of PostGIS. -/
structure PostGis where
  Geometry : Type
  Double : Type
  decEq : DecidableEq Geometry
  /-- The cast of a `NUMERIC` to a double. -/
  toDouble : Numeric → Double
  /-- `ST_MakePoint`. -/
  makePoint : Double → Double → Geometry
  /-- `ST_SetSRID`. -/
  setSRID : Geometry → ℤ → Geometry
  /-- The coercion to `GEOMETRY(Point, 4326)`. -/
  coerce : Geometry → Option Geometry
  /-- A point of the column's system is taken as it is. -/
  coerce_point : ∀ x y, coerce (setSRID (makePoint x y) 4326) = some (setSRID (makePoint x y) 4326)

instance (P : PostGis) : DecidableEq P.Geometry := P.decEq

variable {P : PostGis}

/-- `ST_SetSRID(ST_MakePoint(longitude, latitude), 4326)`. -/
def PostGis.point (P : PostGis) (longitude latitude : Numeric) : P.Geometry :=
  P.setSRID (P.makePoint (P.toDouble longitude) (P.toDouble latitude)) 4326

/-! ### Rows -/

/-- A row on its way into the table: `NEW` and `OLD` of the triggers. -/
structure Tuple (P : PostGis) where
  id : Option Uuid
  latitude : Option Numeric
  longitude : Option Numeric
  altitude : Option Numeric
  geometry : Option P.Geometry
  address : Option String
  createdAt : Option ℕ
  updatedAt : Option ℕ
deriving DecidableEq

/-- A row of the table, with the constraints it meets. -/
structure GisLocation (P : PostGis) where
  id : Uuid
  latitude : Numeric
  longitude : Numeric
  altitude : Option Numeric
  geometry : P.Geometry
  address : Option String
  createdAt : ℕ
  updatedAt : ℕ
  chkLatitude : latitude.Between (-90) 90
  chkLongitude : longitude.Between (-180) 180
  chkUpdatedAt : createdAt ≤ updatedAt

/-- The row, for the triggers. -/
def GisLocation.tuple (row : GisLocation P) : Tuple P where
  id := some row.id
  latitude := some row.latitude
  longitude := some row.longitude
  altitude := row.altitude
  geometry := some row.geometry
  address := row.address
  createdAt := some row.createdAt
  updatedAt := some row.updatedAt

/-- The `NOT NULL` and `CHECK` constraints. -/
def Tuple.store (new : Tuple P) : Option (GisLocation P) := do
  let id ← new.id
  let latitude ← new.latitude
  let longitude ← new.longitude
  let geometry ← new.geometry
  let createdAt ← new.createdAt
  let updatedAt ← new.updatedAt
  if h : latitude.Between (-90) 90 ∧ longitude.Between (-180) 180 ∧ createdAt ≤ updatedAt then
    some {
      id, latitude, longitude, geometry, createdAt, updatedAt
      altitude := new.altitude
      address := new.address
      chkLatitude := h.1
      chkLongitude := h.2.1
      chkUpdatedAt := h.2.2 }
  else none

/-- The columns a statement assigns: `none` is left out, `some none` is NULL. -/
structure Assignments (P : PostGis) where
  id : Option (Option Uuid) := none
  latitude : Option (Option Numeric) := none
  longitude : Option (Option Numeric) := none
  altitude : Option (Option Numeric) := none
  geometry : Option (Option P.Geometry) := none
  address : Option (Option String) := none
  createdAt : Option (Option ℕ) := none
  updatedAt : Option (Option ℕ) := none

/-- The value of a column after an assignment. -/
def assigned {α : Type} (coerce : α → Option α) (value : Option (Option α)) (old : Option α) :
    Option (Option α) :=
  match value with
  | none => some old
  | some none => some none
  | some (some v) => (coerce v).map some

/-- The tuple after the assignments. -/
def Assignments.apply (values : Assignments P) (old : Tuple P) : Option (Tuple P) := do
  return {
    id := ← assigned some values.id old.id
    latitude := ← assigned (Numeric.coerce 10 7) values.latitude old.latitude
    longitude := ← assigned (Numeric.coerce 10 7) values.longitude old.longitude
    altitude := ← assigned (Numeric.coerce 8 2) values.altitude old.altitude
    geometry := ← assigned P.coerce values.geometry old.geometry
    address := ← assigned some values.address old.address
    createdAt := ← assigned some values.createdAt old.createdAt
    updatedAt := ← assigned some values.updatedAt old.updatedAt }

/-! ### Triggers -/

/-- `fn_sync_geometry`; on an `INSERT` there is no `OLD`.  The functions are strict, and what is
assigned to `NEW.geometry` is coerced too. -/
def fnSyncGeometry (old : Option (Tuple P)) (new : Tuple P) : Option (Tuple P) :=
  if ∀ o ∈ old, new.latitude ≠ o.latitude ∨ new.longitude ≠ o.longitude then do
    let point : Option P.Geometry := do return P.point (← new.longitude) (← new.latitude)
    return { new with geometry := ← assigned P.coerce (some point) new.geometry }
  else some new

/-- `fn_set_updated_at`. -/
def fnSetUpdatedAt (now : ℕ) (old new : Tuple P) : Tuple P :=
  if new ≠ old then { new with updatedAt := some now } else new

/-! ### Statements -/

/-- The columns an `INSERT` leaves out. -/
def defaults (P : PostGis) (now : ℕ) (id : Uuid) : Tuple P where
  id := some id
  latitude := none
  longitude := none
  altitude := none
  geometry := none
  address := none
  createdAt := some now
  updatedAt := some now

/-- The row of an `INSERT`. -/
def insertRow (now : ℕ) (id : Uuid) (values : Assignments P) : Option (GisLocation P) := do
  let new ← values.apply (defaults P now id)
  let new ← fnSyncGeometry none new
  new.store

/-- The row of an `UPDATE`. -/
def updateRow (now : ℕ) (old : GisLocation P) (values : Assignments P) :
    Option (GisLocation P) := do
  let new ← values.apply old.tuple
  let new ← fnSyncGeometry (some old.tuple) new
  (fnSetUpdatedAt now old.tuple new).store

/-- The table, with its primary key. -/
structure Table (P : PostGis) where
  rows : List (GisLocation P)
  nodupIds : (rows.map GisLocation.id).Nodup

/-- The rows, if they respect the key. -/
def Table.ofRows (rows : List (GisLocation P)) : Option (Table P) :=
  if h : (rows.map GisLocation.id).Nodup then some ⟨rows, h⟩ else none

/-- A statement.  An `INSERT` has for every row the identifier `gen_random_uuid()` gives it; an
`UPDATE` assigns to the rows its `WHERE` clause selects what its expressions make of them. -/
inductive Statement (P : PostGis) where
  | insert (now : ℕ) (rows : List (Uuid × Assignments P))
  | update (now : ℕ) (set : GisLocation P → Option (Assignments P))

/-- A row under an `UPDATE`. -/
def updatedRow (now : ℕ) (set : GisLocation P → Option (Assignments P)) (row : GisLocation P) :
    Option (GisLocation P) :=
  match set row with
  | none => some row
  | some values => updateRow now row values

/-- The table after a statement, or nothing when it fails. -/
def exec (table : Table P) : Statement P → Option (Table P)
  | .insert now rows => do
    let new ← rows.mapM fun row => insertRow now row.1 row.2
    Table.ofRows (table.rows ++ new)
  | .update now set => do
    let rows ← table.rows.mapM (updatedRow now set)
    Table.ofRows rows

/-- The empty table. -/
def Table.empty (P : PostGis) : Table P := ⟨[], List.nodup_nil⟩

/-- The table, from its creation on: a statement that fails leaves it. -/
def locations (P : PostGis) : Machine (Table P) (Statement P) where
  init table := table = Table.empty P
  step table statement := some ((exec table statement).getD table)

end RoadVisionAI.Gis
