import Pmind.Proofs.Database

/-!
# What the database holds after a run

A plant's row is the sum of its registrations: its first one inserts it, and each later one sets the
name and address and counts up. The sensor tables are the readings that found a row, in the order
they came, each under the EUI of that row. So the tables are functions of the run.
-/

namespace Pmind

open Transition HashMap PlantDatabase

/-- The row its registrations leave of a plant, if there are any. -/
def plantRow (eui : Eui) (regs : List CreateOrModify) : Option PlantRecord :=
  match regs.head?, regs.getLast? with
  | some first, some last => some
    { eui
      name := last.name
      species := first.newPlant.species
      addr := last.addr.toText
      updateCount := Int32.ofNat (regs.length - 1) }
  | _, _ => none

@[simp] theorem plantRow_nil (eui : Eui) : plantRow eui [] = none := rfl

theorem plantRow_isSome {eui : Eui} {regs : List CreateOrModify} :
    (plantRow eui regs).isSome ↔ regs ≠ [] := by
  rcases regs with _ | ⟨first, rest⟩
  · simp
  · simp [plantRow, List.getLast?_cons]

theorem plantRow_addr (eui : Eui) (regs : List CreateOrModify) :
    (plantRow eui regs).map PlantRecord.addr = regs.getLast?.map fun msg => msg.addr.toText := by
  rcases regs with _ | ⟨first, rest⟩
  · rfl
  · simp [plantRow, List.getLast?_cons]

theorem plantRow_concat (regs : List CreateOrModify) (msg : CreateOrModify) :
    plantRow msg.eui (regs ++ [msg])
      = some (registered msg.newPlant (plantRow msg.eui regs)) := by
  rcases regs with _ | ⟨first, rest⟩
  · rfl
  · have hcount : Int32.ofNat (rest.length + 1) = Int32.ofNat rest.length + 1 := by
      rw [Int32.ofNat_add]
      rfl
    simp [plantRow, registered, CreateOrModify.newPlant, List.getLast?_cons, hcount]

/-! ## The rows of a reading -/

/-- A reading, with the EUI of the plant whose row it found. -/
structure Accepted where
  eui : Eui
  reading : NodeSensorReading

namespace Accepted

variable [Chrono]

def moistureRow (a : Accepted) : MoistureData :=
  ⟨a.eui, a.reading.data.soil.moisture.toFloat32, a.reading.data.soil.temp,
    Chrono.naiveUtc a.reading.data.ts⟩

def lightRow (a : Accepted) : Option LightData :=
  a.reading.data.light.map fun light =>
    ⟨a.eui, light.lux, light.fs.toFloat32, Chrono.naiveUtc a.reading.data.ts⟩

def gasRow (a : Accepted) : Option GasData :=
  a.reading.data.gas.map fun gas =>
    ⟨a.eui, gas.temp, gas.p, gas.h, gas.gas.toFloat32, Chrono.naiveUtc a.reading.data.ts⟩

end Accepted

namespace Archive

def registrations (ls : List DatabaseEvent) : List CreateOrModify :=
  ls.filterMap fun
    | .createOrModify msg => some msg
    | .nodeSensorData _ _ => none

def registrationsOf (eui : Eui) (ls : List DatabaseEvent) : List CreateOrModify :=
  (registrations ls).filter fun msg => msg.eui = eui

/-- What a step stores a reading under. -/
def accepted (_ : Archive) : DatabaseEvent → List Accepted
  | .createOrModify _ => []
  | .nodeSensorData reading row => row.toList.map fun plant => ⟨plant.eui, reading⟩

theorem registrationsOf_createOrModify (ls : List DatabaseEvent) (msg : CreateOrModify)
    (eui : Eui) :
    registrationsOf eui (ls ++ [.createOrModify msg])
      = registrationsOf eui ls ++ if msg.eui = eui then [msg] else [] := by
  by_cases h : msg.eui = eui <;> simp [registrationsOf, registrations, h]

theorem registrationsOf_nodeSensorData (ls : List DatabaseEvent) (reading : NodeSensorReading)
    (row : Option PlantRecord) (eui : Eui) :
    registrationsOf eui (ls ++ [.nodeSensorData reading row]) = registrationsOf eui ls := by
  simp [registrationsOf, registrations]

theorem accepted_none (s : Archive) (reading : NodeSensorReading) :
    accepted s (.nodeSensorData reading none) = [] := rfl

theorem accepted_some (s : Archive) (reading : NodeSensorReading) (plant : PlantRecord) :
    accepted s (.nodeSensorData reading (some plant)) = [⟨plant.eui, reading⟩] := rfl

theorem filterMap_singleton {α β : Type*} (f : α → Option β) (a : α) :
    [a].filterMap f = (f a).toList := by
  rcases h : f a with _ | b <;> simp [h]

section Run

variable [Chrono]

/-- The tables after a run `ls` in which the readings `accepted` found a plant. -/
structure Tables (ls : List DatabaseEvent) (accepted : List Accepted) (db : PlantDatabase) :
    Prop where
  plants : ∀ eui, db.plants.lookup eui = plantRow eui (registrationsOf eui ls)
  moisture : db.moistureData = accepted.map Accepted.moistureRow
  light : db.lightData = accepted.filterMap Accepted.lightRow
  gas : db.gasData = accepted.filterMap Accepted.gasRow
  parents : ∀ a ∈ accepted, a.eui ∈ db.plants

/-- A registration changes its plant's row only; a reading changes no plant's, and one that finds
none fails and changes nothing. -/
def Framed (s : Archive) : DatabaseEvent → Prop
  | .createOrModify msg => ∀ s' ∈ step s (.createOrModify msg),
    (∀ eui, eui ≠ msg.eui → s'.db.plants.lookup eui = s.db.plants.lookup eui)
      ∧ s'.db.gasData = s.db.gasData ∧ s'.db.lightData = s.db.lightData
      ∧ s'.db.moistureData = s.db.moistureData
  | .nodeSensorData reading row => ∀ s' ∈ step s (.nodeSensorData reading row),
    s'.db.plants = s.db.plants ∧ (row = none → s'.db = s.db
      ∧ ((insertReading sqlOk row reading).exec s.db).1 = .error (.sqliteError .notFound))

theorem db_createOrModify {s s' : Archive} {msg : CreateOrModify}
    (h : step s (.createOrModify msg) = some s') :
    s'.db = { s.db with
      plants := s.db.plants.insert msg.eui
        (registered msg.newPlant (s.db.plants.lookup msg.eui)) } := by
  simp only [step, createOrModifyPlantRecord_ok, Option.some.injEq] at h
  rw [← h]
  rfl

theorem tables_createOrModify {ls : List DatabaseEvent} {as : List Accepted} {s s' : Archive}
    {msg : CreateOrModify} (h : Tables ls as s.db) (hs : step s (.createOrModify msg) = some s') :
    Tables (ls ++ [.createOrModify msg]) as s'.db := by
  rw [db_createOrModify hs]
  refine ⟨fun eui => ?_, h.moisture, h.light, h.gas, fun a ha => ?_⟩
  · rw [lookup_insert_eq, registrationsOf_createOrModify, h.plants msg.eui]
    by_cases heq : msg.eui = eui
    · subst heq
      rw [if_pos rfl, if_pos rfl, plantRow_concat]
    · rw [if_neg (Ne.symm heq), if_neg heq, List.append_nil, h.plants eui]
  · exact Finmap.mem_insert.mpr (Or.inr (h.parents a ha))

theorem tables_nodeSensorData {ls : List DatabaseEvent} {as : List Accepted} {s s' : Archive}
    {reading : NodeSensorReading} {row : Option PlantRecord} (h : Tables ls as s.db)
    (hs : step s (.nodeSensorData reading row) = some s') :
    Tables (ls ++ [.nodeSensorData reading row])
      (as ++ accepted s (.nodeSensorData reading row)) s'.db := by
  obtain ⟨hrow, -, hdb, -⟩ := step_nodeSensorData hs
  have hplants : ∀ eui, s.db.plants.lookup eui
      = plantRow eui (registrationsOf eui (ls ++ [.nodeSensorData reading row])) := fun eui => by
    rw [registrationsOf_nodeSensorData, h.plants eui]
  rcases row with _ | plant
  · rw [insertReading_none] at hdb
    rw [hdb, accepted_none, List.append_nil]
    exact ⟨hplants, h.moisture, h.light, h.gas, h.parents⟩
  · rw [insertReading_ok] at hdb
    rw [hdb, accepted_some]
    refine ⟨hplants, ?_, ?_, ?_, ?_⟩
    · rw [List.map_append, h.moisture]
      rfl
    · rw [List.filterMap_append, h.light, filterMap_singleton]
      rfl
    · rw [List.filterMap_append, h.gas, filterMap_singleton]
      rfl
    · intro a ha
      rcases List.mem_append.mp ha with ha | ha
      · exact h.parents a ha
      · rw [List.mem_singleton.mp ha]
        exact Finmap.mem_of_lookup_eq_some hrow.1

theorem Tables.mem_plants {ls : List DatabaseEvent} {as : List Accepted} {db : PlantDatabase}
    (h : Tables ls as db) (eui : Eui) :
    eui ∈ db.plants ↔ ∃ msg ∈ registrations ls, msg.eui = eui := by
  rw [← Finmap.lookup_isSome, h.plants eui, plantRow_isSome, registrationsOf, ne_eq,
    List.filter_eq_nil_iff]
  simp

theorem Tables.parents_mem {ls : List DatabaseEvent} {as : List Accepted} {db : PlantDatabase}
    (h : Tables ls as db) {eui : Eui} (heui : eui ∈ newParents empty db) : eui ∈ db.plants := by
  simp only [newParents, empty, List.length_nil, List.drop_zero, h.gas, h.light, h.moisture,
    List.mem_append, List.mem_map, List.mem_filterMap, Accepted.gasRow, Accepted.lightRow,
    Option.map_eq_some_iff] at heui
  rcases heui with (⟨row, ⟨a, ha, gas, -, rfl⟩, rfl⟩ | ⟨row, ⟨a, ha, light, -, rfl⟩, rfl⟩)
    | ⟨row, ⟨a, ha, rfl⟩, rfl⟩
  · exact h.parents a ha
  · exact h.parents a ha
  · exact h.parents a ha

theorem tables_step {ls : List DatabaseEvent} {as : List Accepted} {s s' : Archive}
    {e : DatabaseEvent} (h : Tables ls as s.db) (hs : step s e = some s') :
    Tables (ls ++ [e]) (as ++ accepted s e) s'.db := by
  rcases e with msg | ⟨reading, row⟩
  · rw [accepted, List.append_nil]
    exact tables_createOrModify h hs
  · exact tables_nodeSensorData h hs

theorem framed (s : Archive) (e : DatabaseEvent) : Framed s e := by
  rcases e with msg | ⟨reading, row⟩
  · intro s' hs
    rw [db_createOrModify hs]
    exact ⟨fun eui hne => Finmap.lookup_insert_of_ne _ hne, rfl, rfl, rfl⟩
  · intro s' hs
    obtain ⟨-, -, hdb, hplants⟩ := step_nodeSensorData hs
    refine ⟨hplants, ?_⟩
    rintro rfl
    exact ⟨hdb, rfl⟩

/-- In every run of registrations and readings, each plant registered has one row, the sum of its
registrations, each reading that found a plant its rows under it, and nothing else changes. -/
theorem tables_follow (ls : List DatabaseEvent) (s : Archive) (h : run step init ls = some s) :
    Tables ls (outputs step accepted init ls) s.db
      ∧ (∀ eui, eui ∈ s.db.plants ↔ ∃ msg ∈ registrations ls, msg.eui = eui)
      ∧ (∀ eui ∈ newParents empty s.db, eui ∈ s.db.plants)
      ∧ EveryStep step Framed init ls := by
  have hinit : Tables [] (outputs step accepted init []) init.db :=
    ⟨fun eui => by simp [init, empty, registrationsOf, registrations], rfl, rfl, rfl, nofun⟩
  have htables : Tables ls (outputs step accepted init ls) s.db := by
    refine run_induct (Q := fun ls s => Tables ls (outputs step accepted init ls) s.db) hinit ?_ h
    intro ls t e t' ht hT hs
    rw [outputs_concat ht]
    exact tables_step hT hs
  exact ⟨htables, htables.mem_plants, fun _ => htables.parents_mem, everyStep_of_forall framed⟩

end Run

open Chrono

/-- Two plants that both move, with a reading from the address one leaves and the other takes. -/
theorem tables_moved :
    ∃ s, run step init movedRun = some s
      ∧ Tables movedRun (outputs step accepted init movedRun) s.db
      ∧ (∀ eui, eui ∈ s.db.plants ↔ ∃ msg ∈ registrations movedRun, msg.eui = eui)
      ∧ (∀ eui ∈ newParents empty s.db, eui ∈ s.db.plants)
      ∧ EveryStep step Framed init movedRun := by
  obtain ⟨s, hs⟩ := Option.isSome_iff_exists.mp
    (by decide +kernel : (run step init movedRun).isSome)
  exact ⟨s, hs, tables_follow movedRun s hs⟩

end Archive

end Pmind
