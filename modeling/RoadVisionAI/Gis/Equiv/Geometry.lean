import RoadVisionAI.Gis.Locations

/-!
# The geometry of a location

The geometry of a row is "auto-derived from latitude/longitude via trigger" (`Synced`).  The trigger
derives it where a row is inserted or where one of the two changes, and leaves alone an assignment
to the geometry itself: `synced_iff_keepsPoints` says that the geometry of the rows is their point
along a run exactly when no `UPDATE` that succeeds gives a row that stays where it is another one.
-/

namespace RoadVisionAI.Gis

open Db Transition

variable {P : PostGis} {now : ℕ}

/-- The point of the system 4326 at the longitude and the latitude of the row. -/
def GisLocation.point (row : GisLocation P) : P.Geometry := P.point row.longitude row.latitude

/-- The geometry of every row is its point. -/
def Synced (table : Table P) : Prop := ∀ row ∈ table.rows, row.geometry = row.point

instance (table : Table P) : Decidable (Synced table) :=
  inferInstanceAs (Decidable (∀ row ∈ table.rows, row.geometry = row.point))

/-- If the assignments leave the latitude and the longitude of the row as they are, its geometry is
its point after them. -/
def Assignments.KeepsPoint (values : Assignments P) (row : GisLocation P) : Prop :=
  ∀ new, values.apply row.tuple = some new → new.latitude = some row.latitude →
    new.longitude = some row.longitude → new.geometry = some row.point

/-- An `UPDATE` that succeeds assigns no row that stays where it is another geometry. -/
def KeepsPoints (table : Table P) : Statement P → Prop
  | .insert _ _ => True
  | .update now set =>
    (exec table (.update now set)).isSome →
      ∀ row ∈ table.rows, ∀ values, set row = some values → values.KeepsPoint row

/-! ### Rows -/

/-- The constraints let a row pass as the triggers left it. -/
theorem Tuple.tuple_of_store {new : Tuple P} {row : GisLocation P} (h : new.store = some row) :
    row.tuple = new := by
  obtain ⟨id, latitude, longitude, altitude, geometry, address, createdAt, updatedAt⟩ := new
  simp only [store, Option.bind_eq_bind, Option.bind_eq_some_iff] at h
  obtain ⟨_, rfl, _, rfl, _, rfl, _, rfl, _, rfl, _, rfl, h⟩ := h
  split_ifs at h with hchecks
  obtain rfl := Option.some.inj h
  rfl

@[simp]
theorem fnSetUpdatedAt_latitude (old new : Tuple P) :
    (fnSetUpdatedAt now old new).latitude = new.latitude := by
  unfold fnSetUpdatedAt
  split_ifs <;> rfl

@[simp]
theorem fnSetUpdatedAt_longitude (old new : Tuple P) :
    (fnSetUpdatedAt now old new).longitude = new.longitude := by
  unfold fnSetUpdatedAt
  split_ifs <;> rfl

@[simp]
theorem fnSetUpdatedAt_geometry (old new : Tuple P) :
    (fnSetUpdatedAt now old new).geometry = new.geometry := by
  unfold fnSetUpdatedAt
  split_ifs <;> rfl

/-- The trigger derives the geometry of a row that is new or moves. -/
theorem fnSyncGeometry_of_moves {old : Option (Tuple P)} {new : Tuple P}
    (h : ∀ o ∈ old, new.latitude ≠ o.latitude ∨ new.longitude ≠ o.longitude) :
    fnSyncGeometry old new =
      some { new with geometry := do return P.point (← new.longitude) (← new.latitude) } := by
  rw [fnSyncGeometry, if_pos h]
  cases new.longitude with
  | none => rfl
  | some longitude =>
    cases new.latitude with
    | none => rfl
    | some latitude =>
      have hcoerce : P.coerce (P.point longitude latitude) = some (P.point longitude latitude) :=
        P.coerce_point _ _
      simp only [assigned, Option.bind_eq_bind, Option.pure_def, Option.bind_some, hcoerce,
        Option.map_some]

/-- It leaves that of a row which stays. -/
theorem fnSyncGeometry_of_stays {old new : Tuple P} (hlatitude : new.latitude = old.latitude)
    (hlongitude : new.longitude = old.longitude) : fnSyncGeometry (some old) new = some new := by
  have hstays : ¬∀ o ∈ some old, new.latitude ≠ o.latitude ∨ new.longitude ≠ o.longitude := by
    intro hmoves
    rcases hmoves old rfl with h | h
    · exact h hlatitude
    · exact h hlongitude
  rw [fnSyncGeometry, if_neg hstays]

/-- A row that has moved, or is new, is stored at its point. -/
theorem geometry_of_moves {old : Option (Tuple P)} {new synced : Tuple P} {row : GisLocation P}
    (h : ∀ o ∈ old, new.latitude ≠ o.latitude ∨ new.longitude ≠ o.longitude)
    (hsync : fnSyncGeometry old new = some synced) (hlatitude : synced.latitude = some row.latitude)
    (hlongitude : synced.longitude = some row.longitude) : synced.geometry = some row.point := by
  rw [fnSyncGeometry_of_moves h] at hsync
  obtain rfl := Option.some.inj hsync
  simp only at hlatitude hlongitude
  simp only [hlatitude, hlongitude, Option.bind_eq_bind, Option.bind_some, Option.pure_def,
    GisLocation.point]

/-- What an `INSERT` stores has the geometry of its point, whatever it assigned. -/
theorem geometry_of_insertRow {id : Uuid} {values : Assignments P} {row : GisLocation P}
    (h : insertRow now id values = some row) : row.geometry = row.point := by
  simp only [insertRow, Option.bind_eq_bind, Option.bind_eq_some_iff] at h
  obtain ⟨new, -, synced, hsync, hstore⟩ := h
  have hmoves : ∀ o ∈ (none : Option (Tuple P)),
      new.latitude ≠ o.latitude ∨ new.longitude ≠ o.longitude :=
    fun o ho => absurd ho (Option.not_mem_none o)
  obtain rfl := Tuple.tuple_of_store hstore
  exact Option.some.inj (geometry_of_moves hmoves hsync rfl rfl)

/-- What an `UPDATE` stores has the geometry of its point exactly when the assignments keep it. -/
theorem geometry_of_updateRow_iff {old row : GisLocation P} {values : Assignments P}
    (h : updateRow now old values = some row) :
    row.geometry = row.point ↔ values.KeepsPoint old := by
  simp only [updateRow, Option.bind_eq_bind, Option.bind_eq_some_iff] at h
  obtain ⟨new, happly, synced, hsync, hstore⟩ := h
  have htuple := Tuple.tuple_of_store hstore
  have hlatitude : synced.latitude = some row.latitude := by
    rw [← fnSetUpdatedAt_latitude, ← htuple, GisLocation.tuple]
  have hlongitude : synced.longitude = some row.longitude := by
    rw [← fnSetUpdatedAt_longitude, ← htuple, GisLocation.tuple]
  have hgeometry : synced.geometry = some row.geometry := by
    rw [← fnSetUpdatedAt_geometry, ← htuple, GisLocation.tuple]
  have hkeeps : values.KeepsPoint old ↔ (new.latitude = some old.latitude →
      new.longitude = some old.longitude → new.geometry = some old.point) := by
    simp only [Assignments.KeepsPoint, happly, Option.some.injEq, forall_eq']
  rw [hkeeps]
  by_cases hstays : new.latitude = some old.latitude ∧ new.longitude = some old.longitude
  · -- the trigger does nothing: the geometry is the assigned one
    rw [fnSyncGeometry_of_stays hstays.1 hstays.2] at hsync
    obtain rfl := Option.some.inj hsync
    have hpoint : row.point = old.point := by
      have hlat := Option.some.inj (hlatitude.symm.trans hstays.1)
      have hlong := Option.some.inj (hlongitude.symm.trans hstays.2)
      rw [GisLocation.point, GisLocation.point, hlat, hlong]
    rw [hgeometry, Option.some.injEq, hpoint]
    exact ⟨fun hrow _ _ => hrow, fun hrow => hrow hstays.1 hstays.2⟩
  · have hmoves : ∀ o ∈ some old.tuple,
        new.latitude ≠ o.latitude ∨ new.longitude ≠ o.longitude := by
      rintro _ ⟨⟩
      exact Classical.not_and_iff_not_or_not.mp hstays
    have hrow : row.geometry = row.point :=
      Option.some.inj (hgeometry.symm.trans (geometry_of_moves hmoves hsync hlatitude hlongitude))
    exact iff_of_true hrow fun hlat hlong => absurd ⟨hlat, hlong⟩ hstays

/-! ### Tables -/

/-- What holds of an image as `R` does of its origin holds of all the images as `R` does of all the
list.  By induction on the list. -/
theorem forall_mem_mapM_iff {α β : Type} {f : α → Option β} {Q : β → Prop} {R : α → Prop}
    {xs : List α} {ys : List β} (h : xs.mapM f = some ys)
    (hQ : ∀ x ∈ xs, ∀ y, f x = some y → (Q y ↔ R x)) : (∀ y ∈ ys, Q y) ↔ ∀ x ∈ xs, R x := by
  induction xs generalizing ys with
  | nil =>
    obtain rfl := Option.some.inj h
    exact iff_of_true (List.forall_mem_nil Q) (List.forall_mem_nil R)
  | cons x xs ih =>
    simp only [List.mapM_cons, Option.bind_eq_bind, Option.bind_eq_some_iff] at h
    obtain ⟨y, hy, rest, hrest, h⟩ := h
    obtain rfl := Option.some.inj h
    have htail := ih hrest fun x' hx' => hQ x' (List.mem_cons_of_mem x hx')
    rw [List.forall_mem_cons, List.forall_mem_cons, htail, hQ x List.mem_cons_self y hy]

theorem Table.rows_of_ofRows {rows : List (GisLocation P)} {table : Table P}
    (h : Table.ofRows rows = some table) : table.rows = rows := by
  unfold Table.ofRows at h
  split_ifs at h with hids
  obtain rfl := Option.some.inj h
  rfl

/-- An `INSERT` keeps the rows in step. -/
theorem synced_insert {table table' : Table P} {rows : List (Uuid × Assignments P)}
    (hs : Synced table) (h : exec table (.insert now rows) = some table') : Synced table' := by
  obtain ⟨new, hnew, hrows⟩ := Option.bind_eq_some_iff.mp h
  have hinserted : ∀ row ∈ new, row.geometry = row.point :=
    (forall_mem_mapM_iff (R := fun _ => True) hnew fun _ _ _ hrow =>
      iff_true_intro (geometry_of_insertRow hrow)).mpr fun _ _ => trivial
  rw [Synced, Table.rows_of_ofRows hrows, List.forall_mem_append]
  exact ⟨hs, hinserted⟩

/-- So does an `UPDATE`, of a row that is in step, exactly when it does not move it off its
point. -/
theorem geometry_of_updatedRow_iff {set : GisLocation P → Option (Assignments P)}
    {old row : GisLocation P} (hold : old.geometry = old.point)
    (h : updatedRow now set old = some row) :
    row.geometry = row.point ↔ ∀ values, set old = some values → values.KeepsPoint old := by
  unfold updatedRow at h
  split at h
  next hset =>
    obtain rfl := Option.some.inj h
    simp only [hset, hold, reduceCtorEq, false_implies, implies_true]
  next values hset =>
    rw [geometry_of_updateRow_iff h]
    simp only [hset, Option.some.injEq, forall_eq']

/-- An `UPDATE` that succeeds keeps them in step exactly when no row is moved off its point. -/
theorem synced_update_iff {table table' : Table P} {set : GisLocation P → Option (Assignments P)}
    (hs : Synced table) (h : exec table (.update now set) = some table') :
    Synced table' ↔ KeepsPoints table (.update now set) := by
  have hkeeps : KeepsPoints table (.update now set) ↔
      ∀ row ∈ table.rows, ∀ values, set row = some values → values.KeepsPoint row := by
    simp only [KeepsPoints, h, Option.isSome_some, true_implies]
  obtain ⟨rows, hmap, hrows⟩ := Option.bind_eq_some_iff.mp h
  rw [hkeeps, Synced, Table.rows_of_ofRows hrows]
  exact forall_mem_mapM_iff hmap fun old hold _ => geometry_of_updatedRow_iff (hs old hold)

/-! ### Runs -/

/-- The rows are in step at the start, and a statement leaves them so exactly when it keeps the
points they are at; one that fails changes nothing. -/
theorem synced_step_iff {table table' : Table P} {statement : Statement P} (hs : Synced table)
    (h : (locations P).step table statement = some table') :
    Synced table' ↔ KeepsPoints table statement := by
  have hstep : (exec table statement).getD table = table' := Option.some.inj h
  cases hexec : exec table statement with
  | none =>
    rw [hexec, Option.getD_none] at hstep
    obtain rfl := hstep
    refine iff_of_true hs ?_
    cases statement with
    | insert => trivial
    | update now set =>
      intro hsucceeds
      rw [hexec] at hsucceeds
      exact absurd hsucceeds Bool.false_ne_true
  | some new =>
    rw [hexec, Option.getD_some] at hstep
    obtain rfl := hstep
    cases statement with
    | insert => exact iff_of_true (synced_insert hs hexec) trivial
    | update => exact synced_update_iff hs hexec

theorem synced_empty : Synced (Table.empty P) := List.forall_mem_nil _

/-- Every list of statements can be run. -/
theorem exists_run (table : Table P) (statements : List (Statement P)) :
    ∃ table', (locations P).run table statements = some table' := by
  induction statements generalizing table with
  | nil => exact ⟨table, rfl⟩
  | cons statement statements ih => exact ih ((exec table statement).getD table)

/-- Assignments that leave the geometry out keep the point of a row that is in step. -/
theorem Assignments.keepsPoint_of_geometry_eq_none {values : Assignments P} {row : GisLocation P}
    (hrow : row.geometry = row.point) (h : values.geometry = none) : values.KeepsPoint row := by
  intro new happly _ _
  have hgeometry : assigned P.coerce values.geometry row.tuple.geometry = some new.geometry := by
    simp only [apply, Option.bind_eq_bind, Option.bind_eq_some_iff] at happly
    obtain ⟨_, -, _, -, _, -, _, -, _, hgeometry, _, -, _, -, _, -, h⟩ := happly
    obtain rfl := Option.some.inj h
    exact hgeometry
  rw [h, assigned, GisLocation.tuple, hrow] at hgeometry
  exact (Option.some.inj hgeometry).symm

/-- The statement assigns no geometry to a row that is there. -/
def Statement.LeavesGeometry : Statement P → Prop
  | .insert _ _ => True
  | .update _ set => ∀ row values, set row = some values → values.geometry = none

/-- A run of statements that leave the geometry to the trigger keeps the rows in step. -/
theorem synced_of_leavesGeometry {statements : List (Statement P)}
    (h : ∀ statement ∈ statements, statement.LeavesGeometry) {table : Table P}
    (hs : Synced table) : (locations P).StatesMeet Synced table statements := by
  induction statements generalizing table with
  | nil => exact hs
  | cons statement statements ih =>
    rw [List.forall_mem_cons] at h
    refine ⟨hs, fun table' hstep => ih h.2 ((synced_step_iff hs hstep).mpr ?_)⟩
    cases statement with
    | insert => trivial
    | update now set =>
      intro _ row hrow values hvalues
      exact Assignments.keepsPoint_of_geometry_eq_none (hs row hrow) (h.1 row values hvalues)

/-- **The geometry of every row is the point at its longitude and latitude** after each statement of
a run exactly when no `UPDATE` of the run assigns a row that stays another geometry. -/
theorem synced_iff_keepsPoints (statements : List (Statement P)) :
    (locations P).StatesMeet Synced (Table.empty P) statements ↔
      (locations P).ActionsMeet KeepsPoints (Table.empty P) statements := by
  obtain ⟨table, hrun⟩ := exists_run (Table.empty P) statements
  have htrivial : (locations P).Invariant fun _ => True :=
    ⟨fun _ _ => trivial, fun _ _ _ _ _ => trivial⟩
  exact htrivial.statesMeet_iff_actionsMeet (fun _ _ _ _ hs => synced_step_iff hs) trivial
    synced_empty hrun

/-! ### A row moved off its point -/

/-- PostGIS on exact coordinates: the system of a geometry, and its x and y.  The column takes a
geometry of no system as one of its own. -/
def planar : PostGis where
  Geometry := ℤ × Numeric × Numeric
  Double := Numeric
  decEq := inferInstance
  toDouble := id
  makePoint x y := (0, x, y)
  setSRID geometry srid := (srid, geometry.2)
  coerce geometry :=
    if geometry.1 = 4326 ∨ geometry.1 = 0 then some (4326, geometry.2) else none
  coerce_point _ _ := rfl

/-- A location is recorded, and then its geometry assigned. -/
def movedPoint : List (Statement planar) :=
  [.insert 0 [(⟨"1"⟩, {
      latitude := some (some (.finite (67 / 2)))
      longitude := some (some (.finite (-15 / 2))) })],
    .update 1 fun _ => some { geometry := some (some (planar.point (.finite 0) (.finite 0))) }]

/-- The location is no longer where its latitude and longitude say. -/
theorem not_synced_movedPoint :
    ¬(locations planar).StatesMeet Synced (Table.empty planar) movedPoint := by
  intro h
  have hend : ((locations planar).run (Table.empty planar) movedPoint).map
      (fun table => decide (Synced table)) = some false := by decide +kernel
  obtain ⟨table, hrun, hsynced⟩ := Option.map_eq_some_iff.mp hend
  exact of_decide_eq_false hsynced (h.last hrun)

end RoadVisionAI.Gis
