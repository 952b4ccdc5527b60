import Pmind.Database

/-!
# What a failed insert leaves

`insert_reading` executes its inserts one after the other, and there is no transaction around them.
So one that fails leaves the rows of those before it: nothing, if it is the first, and otherwise a
part of the reading.
-/

namespace Pmind

namespace PlantDatabase

/-- An insert of `insert_reading`, as it is executed for a plant and a reading. -/
def store [Chrono] (plant : PlantRecord) (reading : NodeSensorReading) (db : PlantDatabase) :
    Statement → PlantDatabase
  | .insertGas => { db with gasData := db.gasData ++ (reading.data.gas.map fun gas =>
      ⟨plant.eui, gas.temp, gas.p, gas.h, gas.gas.toFloat32,
        Chrono.naiveUtc reading.data.ts⟩).toList }
  | .insertLight => { db with lightData := db.lightData ++ (reading.data.light.map fun light =>
      ⟨plant.eui, light.lux, light.fs.toFloat32, Chrono.naiveUtc reading.data.ts⟩).toList }
  | .insertMoisture => { db with moistureData := db.moistureData ++
      [⟨plant.eui, reading.data.soil.moisture.toFloat32, reading.data.soil.temp,
        Chrono.naiveUtc reading.data.ts⟩] }
  | _ => db

/-- The inserts a reading takes, in order. -/
def inserts (reading : NodeSensorReading) : List Statement :=
  (reading.data.gas.map fun _ => Statement.insertGas).toList
    ++ (reading.data.light.map fun _ => Statement.insertLight).toList ++ [.insertMoisture]

/-- The query for the plant fails, or no row has the address. -/
def NotFound (sql : Sql) (row : Option PlantRecord) : Prop := sql .selectByAddr ≠ none ∨ row = none

section Inserts

variable [Chrono] {sql : Sql} {row : Option PlantRecord} {plant : PlantRecord}
  {reading : NodeSensorReading} {db : PlantDatabase}

/-! ## One insert after the other -/

def executeAll (sql : Sql) (plant : PlantRecord) (reading : NodeSensorReading) :
    List Statement → Query Unit
  | [] => pure ()
  | stmt :: stmts => do
    execute sql stmt fun db => store plant reading db stmt
    executeAll sql plant reading stmts

theorem exec_executeAll_cons (stmt : Statement) (stmts : List Statement) :
    (executeAll sql plant reading (stmt :: stmts)).exec db =
      match sql stmt with
      | some msg => (.error (.sqliteError (.other msg)), db)
      | none => (executeAll sql plant reading stmts).exec (store plant reading db stmt) := by
  simp only [executeAll, execute]
  rcases sql stmt with _ | msg <;> rfl

theorem exec_executeAll (sql : Sql) (plant : PlantRecord) (reading : NodeSensorReading) :
    ∀ (stmts : List Statement) (db : PlantDatabase),
    (∃ done stmt rest msg, stmts = done ++ stmt :: rest ∧ (∀ s ∈ done, sql s = none)
        ∧ sql stmt = some msg ∧ (executeAll sql plant reading stmts).exec db
          = (.error (.sqliteError (.other msg)), done.foldl (store plant reading) db))
      ∨ (executeAll sql plant reading stmts).exec db
          = (.ok (), stmts.foldl (store plant reading) db)
  | [], db => Or.inr rfl
  | stmt :: stmts, db => by
    rw [exec_executeAll_cons]
    rcases hs : sql stmt with _ | msg
    · rcases exec_executeAll sql plant reading stmts (store plant reading db stmt) with
        ⟨done, stmt', rest, msg, rfl, hdone, hstmt, hexec⟩ | hexec
      · refine Or.inl ⟨stmt :: done, stmt', rest, msg, rfl, fun s h => ?_, hstmt, hexec⟩
        rcases List.mem_cons.mp h with rfl | h
        · exact hs
        · exact hdone s h
      · exact Or.inr hexec
    · exact Or.inl ⟨[], stmt, stmts, msg, rfl, fun s h => absurd h List.not_mem_nil, hs, rfl⟩

theorem exec_insertReading_notFound (reading : NodeSensorReading) (db : PlantDatabase)
    (h : NotFound sql row) :
    ∃ e, (insertReading sql row reading).exec db = (.error e, db) := by
  rcases hs : sql .selectByAddr with _ | msg
  · obtain rfl := h.resolve_left (fun hne => hne hs)
    exact ⟨.sqliteError .notFound, by simp only [insertReading, hs]; rfl⟩
  · exact ⟨.sqliteError (.other msg), by simp only [insertReading, hs]; rfl⟩

theorem insertReading_found (h : sql .selectByAddr = none) :
    insertReading sql (some plant) reading = executeAll sql plant reading (inserts reading) := by
  obtain ⟨addr, soil, light, gas, ts⟩ := reading
  simp only [insertReading, h]
  rcases gas with _ | gas <;> rcases light with _ | light <;>
    simp [inserts, executeAll, store]

/-! ## The rows -/

def rows (db : PlantDatabase) : ℕ :=
  db.gasData.length + db.lightData.length + db.moistureData.length

theorem rows_store {stmt : Statement} (h : stmt ∈ inserts reading) :
    (store plant reading db stmt).rows = db.rows + 1 := by
  simp only [inserts, List.mem_append, Option.mem_toList, Option.map_eq_some_iff,
    List.mem_singleton] at h
  rcases h with (⟨gas, hg, rfl⟩ | ⟨light, hl, rfl⟩) | rfl
  · simp only [store, rows, hg, Option.map_some, Option.toList_some, List.length_append,
      List.length_singleton]
    omega
  · simp only [store, rows, hl, Option.map_some, Option.toList_some, List.length_append,
      List.length_singleton]
    omega
  · simp only [store, rows, List.length_append, List.length_singleton]
    omega

theorem rows_foldl_store : ∀ {done : List Statement} {db : PlantDatabase},
    (∀ s ∈ done, s ∈ inserts reading) →
      (done.foldl (store plant reading) db).rows = db.rows + done.length
  | [], _, _ => rfl
  | stmt :: done, db, h => by
    rw [List.foldl_cons, rows_foldl_store fun s hs => h s (List.mem_cons_of_mem _ hs),
      rows_store (h stmt List.mem_cons_self), List.length_cons]
    omega

theorem plants_foldl_store : ∀ (done : List Statement) (db : PlantDatabase),
    (done.foldl (store plant reading) db).plants = db.plants
  | [], _ => rfl
  | stmt :: done, db => by
    rw [List.foldl_cons, plants_foldl_store done]
    rcases stmt <;> rfl

theorem foldl_store_eq_self {done : List Statement} (h : ∀ s ∈ done, s ∈ inserts reading) :
    done.foldl (store plant reading) db = db ↔ done = [] := by
  refine ⟨fun heq => ?_, fun heq => by rw [heq]; rfl⟩
  have hrows : (done.foldl (store plant reading) db).rows = db.rows + done.length :=
    rows_foldl_store h
  rw [heq] at hrows
  exact List.length_eq_zero_iff.mp (by omega)

/-- A call that fails has stored nothing of the reading if the query or the first insert failed, and
otherwise the rows of the inserts before the one that failed; one that succeeds has stored all. -/
theorem insertReading_leaves (sql : Sql) (row : Option PlantRecord) (reading : NodeSensorReading)
    (db : PlantDatabase) :
    (∀ e, ((insertReading sql row reading).exec db).1 = .error e →
        (NotFound sql row ∧ ((insertReading sql row reading).exec db).2 = db
          ∨ ∃ plant done stmt rest, row = some plant ∧ inserts reading = done ++ stmt :: rest
            ∧ (∀ s ∈ done, sql s = none) ∧ sql stmt ≠ none
            ∧ ((insertReading sql row reading).exec db).2 = done.foldl (store plant reading) db)
        ∧ ((insertReading sql row reading).exec db).2.plants = db.plants
        ∧ (((insertReading sql row reading).exec db).2 = db
          ↔ NotFound sql row ∨ ∃ stmt ∈ (inserts reading).head?, sql stmt ≠ none))
      ∧ (((insertReading sql row reading).exec db).1 = .ok () →
        ∃ plant, row = some plant
          ∧ ((insertReading sql row reading).exec db).2
            = (inserts reading).foldl (store plant reading) db) := by
  by_cases hnf : NotFound sql row
  · obtain ⟨e', hexec⟩ := exec_insertReading_notFound reading db hnf
    rw [hexec]
    exact ⟨fun e _ => ⟨Or.inl ⟨hnf, rfl⟩, rfl, by simp [hnf]⟩, fun h => by cases h⟩
  · obtain ⟨hsel, hrow⟩ := not_or.mp hnf
    obtain ⟨plant, rfl⟩ := Option.ne_none_iff_exists'.mp hrow
    rw [insertReading_found (not_not.mp hsel)]
    rcases exec_executeAll sql plant reading (inserts reading) db with
      ⟨done, stmt, rest, msg, heq, hdone, hstmt, hexec⟩ | hexec
    · have hne : sql stmt ≠ none := by simp [hstmt]
      have hmem : ∀ s ∈ done, s ∈ inserts reading := fun s hs => by
        rw [heq]
        exact List.mem_append_left _ hs
      rw [hexec]
      refine ⟨fun e _ => ⟨Or.inr ⟨plant, done, stmt, rest, rfl, heq, hdone, hne, rfl⟩,
        plants_foldl_store done db, ?_⟩, fun h => by cases h⟩
      rw [foldl_store_eq_self hmem, heq]
      rcases done with _ | ⟨s, done⟩
      · simp [hne]
      · simp [hnf, hdone s List.mem_cons_self]
    · rw [hexec]
      exact ⟨fun e h => (by cases h), fun _ => ⟨plant, rfl, rfl⟩⟩

end Inserts

/-- The disk is full when it comes to the moisture. -/
def diskFull : Sql
  | .insertMoisture => some "database or disk is full"
  | _ => none

def mint : PlantRecord := ⟨.of 0x60 0x55 0xf9 0xf6 0 1, "mint", "", "fd00::1", 0⟩

def gasReading : NodeSensorReading :=
  ⟨⟨.new 0xfd00 0 0 0 0 0 0 1, 49152⟩, ⟨⟨700, 0⟩, none, some ⟨0, 0, 0, 0⟩, 0⟩⟩

def garden : PlantDatabase := { empty with plants := empty.plants.insert mint.eui mint }

open Chrono

/-- The gas of a reading stays behind whose moisture could not be stored. -/
theorem not_atomic :
    First garden.plants gasReading.addr.ip.toText (some mint)
      ∧ (∃ e, ((insertReading diskFull (some mint) gasReading).exec garden).1 = .error e)
      ∧ ((insertReading diskFull (some mint) gasReading).exec garden).2.gasData.length = 1
      ∧ garden.gasData.length = 0 :=
  ⟨by decide +kernel, ⟨_, rfl⟩, rfl, rfl⟩

end PlantDatabase

end Pmind
