import Pmind.Lib.HashMap
import Pmind.Lib.Run
import Pmind.Node

/-!
# The database

`PlantDatabase` keeps a row for each plant, by its EUI, and appends a row for each reading of a
sensor, under the EUI of the plant whose row has the reading's address. Each handler is the SQL
statements it executes: a statement may fail, which ends the handler and leaves what the statements
before it did. A query for an address gives some row that has it.
-/

namespace Pmind

inductive DieselError where
  | notFound
  | other (msg : String)
deriving DecidableEq

inductive DatabaseError where
  | io
  | sqliteError (e : DieselError)
  | otherError (msg : String)
  | startUpError (msg : String)
deriving DecidableEq

/-- Seconds since 1970-01-01T00:00:00. -/
abbrev NaiveDateTime := ℤ

/-- `chrono`'s `DateTime::from_timestamp(ts, 0).unwrap_or_default().naive_utc()`. -/
class Chrono where
  naiveUtc : Int64 → NaiveDateTime

namespace Chrono

/-- To run the model with: every timestamp is a date. -/
scoped instance seconds : Chrono := ⟨Int64.toInt⟩

end Chrono

structure PlantRecord where
  eui : Eui
  name : String
  species : String
  addr : String
  updateCount : Int32
deriving DecidableEq

structure GasData where
  parentPlantEui : Eui
  temp : Float32
  pressure : Float32
  humidity : Float32
  gas : Float32
  ts : NaiveDateTime

structure LightData where
  parentPlantEui : Eui
  lux : Float32
  fs : Float32
  ts : NaiveDateTime

structure MoistureData where
  parentPlantEui : Eui
  moisture : Float32
  temp : Float32
  ts : NaiveDateTime

structure CreateOrModify where
  eui : Eui
  addr : Ipv6Addr
  name : String
deriving DecidableEq

/-- `NewPlant::new`: the row a registration is inserted as. -/
def CreateOrModify.newPlant (msg : CreateOrModify) : PlantRecord where
  eui := msg.eui
  name := msg.name
  species := ""
  addr := msg.addr.toText
  updateCount := 0

structure PlantDatabase where
  plants : HashMap Eui PlantRecord
  gasData : List GasData
  lightData : List LightData
  moistureData : List MoistureData

inductive Statement where
  | selectByAddr
  | insertGas
  | insertLight
  | insertMoisture
  | selectByEui
  | upsertPlant
  | insertPlant
deriving DecidableEq

/-- The error a statement fails with, if it does. That a query finds no row is no failure of it. -/
abbrev Sql := Statement → Option String

/-- A handler: it may fail, and keeps what it has written if so. -/
abbrev Query := ExceptT DatabaseError (StateM PlantDatabase)

def Query.exec (q : Query Unit) (db : PlantDatabase) : Except DatabaseError Unit × PlantDatabase :=
  q.run.run db

namespace PlantDatabase

def empty : PlantDatabase := ⟨∅, [], [], []⟩

def execute (sql : Sql) (stmt : Statement) (write : PlantDatabase → PlantDatabase) :
    Query Unit := do
  match sql stmt with
  | some msg => throw (.sqliteError (.other msg))
  | none => modify write

/-- What `filter(addr.eq(..)).first()` can give: some row with the address, and none only if there
is none. -/
def First (plants : HashMap Eui PlantRecord) (addr : String) : Option PlantRecord → Prop
  | some plant => plants.lookup plant.eui = some plant ∧ plant.addr = addr
  | none => ∀ eui ∈ plants.keys, ∀ plant ∈ plants.lookup eui, plant.addr ≠ addr

instance (plants : HashMap Eui PlantRecord) (addr : String) :
    (row : Option PlantRecord) → Decidable (First plants addr row)
  | some plant => inferInstanceAs
    (Decidable (plants.lookup plant.eui = some plant ∧ plant.addr = addr))
  | none => inferInstanceAs
    (Decidable (∀ eui ∈ plants.keys, ∀ plant ∈ plants.lookup eui, plant.addr ≠ addr))

/-- `insert_reading`; `row` is what the query for the reading's address gives. -/
def insertReading [Chrono] (sql : Sql) (row : Option PlantRecord) (reading : NodeSensorReading) :
    Query Unit := do
  let plant ← match sql .selectByAddr, row with
    | some msg, _ => throw (.sqliteError (.other msg))
    | none, some plant => pure plant
    | none, none => throw (.sqliteError .notFound)
  let ts := Chrono.naiveUtc reading.data.ts
  if let some gas := reading.data.gas then
    execute sql .insertGas fun db => { db with gasData := db.gasData ++
      [⟨plant.eui, gas.temp, gas.p, gas.h, gas.gas.toFloat32, ts⟩] }
  if let some light := reading.data.light then
    execute sql .insertLight fun db => { db with lightData := db.lightData ++
      [⟨plant.eui, light.lux, light.fs.toFloat32, ts⟩] }
  execute sql .insertMoisture fun db => { db with moistureData := db.moistureData ++
    [⟨plant.eui, reading.data.soil.moisture.toFloat32, reading.data.soil.temp, ts⟩] }

def createOrModifyPlantRecord (sql : Sql) (plant : PlantRecord) : Query Unit := do
  match sql .selectByEui, (← get).plants.lookup plant.eui with
  | none, some node =>
    let row : PlantRecord := { node with
      name := plant.name, addr := plant.addr, updateCount := node.updateCount + 1 }
    execute sql .upsertPlant fun db => { db with plants := db.plants.insert plant.eui row }
  | none, none =>
    execute sql .insertPlant fun db => { db with plants := db.plants.insert plant.eui plant }
  | some msg, _ => throw (.sqliteError (.other msg))

end PlantDatabase

inductive DatabaseEvent where
  | createOrModify (msg : CreateOrModify)
  /-- A reading, and the row the query for its address gives. -/
  | nodeSensorData (reading : NodeSensorReading) (row : Option PlantRecord)

/-- The database, and who registered each address last. -/
structure Archive where
  db : PlantDatabase
  registrant : Ipv6Addr → Option Eui

namespace Archive

def init : Archive := ⟨PlantDatabase.empty, fun _ => none⟩

def sqlOk : Sql := fun _ => none

def step [Chrono] (s : Archive) : DatabaseEvent → Option Archive
  | .createOrModify msg => some
    { db := ((PlantDatabase.createOrModifyPlantRecord sqlOk msg.newPlant).exec s.db).2
      registrant := Function.update s.registrant msg.addr (some msg.eui) }
  | .nodeSensorData reading row =>
    if PlantDatabase.First s.db.plants reading.addr.ip.toText row then
      some { s with db := ((PlantDatabase.insertReading sqlOk row reading).exec s.db).2 }
    else none

end Archive

end Pmind
