import Pmind.Database
import Pmind.Proofs.Net

/-!
# Whose readings the database stores

A reading is stored under the EUI of a row that has its address. Rows are kept by EUI, and nothing
takes an address from the row that has it when another node registers it. While no address is
registered that another node's row has, no two rows share one, and the row a reading finds is the
last registrant's; the first time one is, two rows share it.
-/

namespace Pmind

open HashMap

namespace PlantDatabase

variable {db : PlantDatabase}

theorem exec_get (f : PlantDatabase → Query Unit) : Query.exec (get >>= f) db = (f db).exec db :=
  rfl

def registered (plant : PlantRecord) : Option PlantRecord → PlantRecord
  | some node => { node with
    name := plant.name, addr := plant.addr, updateCount := node.updateCount + 1 }
  | none => plant

theorem createOrModifyPlantRecord_ok (plant : PlantRecord) :
    ((createOrModifyPlantRecord Archive.sqlOk plant).exec db).2 = { db with
      plants := db.plants.insert plant.eui (registered plant (db.plants.lookup plant.eui)) } := by
  unfold createOrModifyPlantRecord
  rw [exec_get]
  rcases db.plants.lookup plant.eui with _ | node
  · simp only [Archive.sqlOk]
    rfl
  · simp only [Archive.sqlOk]
    rfl

theorem registered_addr (plant : PlantRecord) (node : Option PlantRecord) :
    (registered plant node).addr = plant.addr := by
  rcases node with _ | node <;> rfl

/-- The EUIs the rows are stored under that are in `db'` and not yet in `db`. -/
def newParents (db db' : PlantDatabase) : List Eui :=
  (db'.gasData.drop db.gasData.length).map (·.parentPlantEui)
    ++ (db'.lightData.drop db.lightData.length).map (·.parentPlantEui)
    ++ (db'.moistureData.drop db.moistureData.length).map (·.parentPlantEui)

variable [Chrono]

theorem insertReading_ok (plant : PlantRecord) (reading : NodeSensorReading) :
    ((insertReading Archive.sqlOk (some plant) reading).exec db).2 =
      { db with
        gasData := db.gasData ++ (reading.data.gas.map fun gas => ⟨plant.eui, gas.temp, gas.p,
          gas.h, gas.gas.toFloat32, Chrono.naiveUtc reading.data.ts⟩).toList
        lightData := db.lightData ++ (reading.data.light.map fun light =>
          ⟨plant.eui, light.lux, light.fs.toFloat32, Chrono.naiveUtc reading.data.ts⟩).toList
        moistureData := db.moistureData ++ [⟨plant.eui, reading.data.soil.moisture.toFloat32,
          reading.data.soil.temp, Chrono.naiveUtc reading.data.ts⟩] } := by
  obtain ⟨addr, soil, light, gas, ts⟩ := reading
  rcases gas with _ | gas <;> rcases light with _ | light
  · simp only [Option.map_none, Option.toList_none, List.append_nil]
    rfl
  · simp only [Option.map_none, Option.toList_none, List.append_nil]
    rfl
  · simp only [Option.map_none, Option.toList_none, List.append_nil]
    rfl
  · rfl

theorem insertReading_none (reading : NodeSensorReading) :
    ((insertReading Archive.sqlOk none reading).exec db).2 = db := rfl

theorem newParents_insertReading {plant : PlantRecord} {reading : NodeSensorReading} {eui : Eui}
    (h : eui ∈ newParents db
      ((insertReading Archive.sqlOk (some plant) reading).exec db).2) : eui = plant.eui := by
  rw [insertReading_ok] at h
  simp only [newParents, List.drop_left, List.mem_append, List.mem_map, Option.mem_toList,
    Option.map_eq_some_iff, List.mem_singleton] at h
  rcases h with (⟨g, ⟨gas, -, rfl⟩, rfl⟩ | ⟨l, ⟨light, -, rfl⟩, rfl⟩) | ⟨m, rfl, rfl⟩ <;> rfl

end PlantDatabase

namespace Archive

open Transition PlantDatabase

def AddrsApart (s : Archive) : Prop := UniqueBy PlantRecord.addr s.db.plants

section Run

variable [Chrono]

/-- The rows a reading adds are the last registrant's of its address. -/
def Attributed (s : Archive) : DatabaseEvent → Prop
  | .createOrModify _ => True
  | .nodeSensorData reading row => ∀ s' ∈ step s (.nodeSensorData reading row),
    ∀ eui ∈ newParents s.db s'.db, s.registrant reading.addr.ip = some eui

/-- A registration's address is in no other plant's row. -/
def Unshared (s : Archive) : DatabaseEvent → Prop
  | .createOrModify msg => ∀ eui ∈ s.db.plants.keys, ∀ plant ∈ s.db.plants.lookup eui,
    plant.addr = msg.addr.toText → eui = msg.eui
  | .nodeSensorData _ _ => True

/-- Every row is its EUI's, and has an address its plant registered last. -/
def Registered (s : Archive) : Prop :=
  ∀ eui plant, s.db.plants.lookup eui = some plant →
    plant.eui = eui ∧ ∃ a : Ipv6Addr, plant.addr = a.toText ∧ s.registrant a = some eui

theorem step_createOrModify {s s' : Archive} {msg : CreateOrModify}
    (h : step s (.createOrModify msg) = some s') :
    ∃ row : PlantRecord, row.addr = msg.addr.toText
      ∧ (row.eui = msg.eui ∨ ∃ node ∈ s.db.plants.lookup msg.eui, row.eui = node.eui)
      ∧ s'.db.plants = s.db.plants.insert msg.eui row
      ∧ s'.registrant = Function.update s.registrant msg.addr (some msg.eui) := by
  simp only [step, createOrModifyPlantRecord_ok, Option.some.injEq] at h
  subst h
  refine ⟨_, registered_addr _ _, ?_, rfl, rfl⟩
  simp only [CreateOrModify.newPlant]
  rcases s.db.plants.lookup msg.eui with _ | node
  · exact Or.inl rfl
  · exact Or.inr ⟨node, rfl, rfl⟩

theorem step_nodeSensorData {s s' : Archive} {reading : NodeSensorReading}
    {row : Option PlantRecord} (h : step s (.nodeSensorData reading row) = some s') :
    First s.db.plants reading.addr.ip.toText row ∧ s'.registrant = s.registrant
      ∧ s'.db = ((insertReading sqlOk row reading).exec s.db).2 ∧ s'.db.plants = s.db.plants := by
  simp only [step] at h
  split_ifs at h with hrow
  cases h
  refine ⟨hrow, rfl, rfl, ?_⟩
  rcases row with _ | plant
  · rfl
  · simp only [insertReading_ok]

theorem addrsApart_step (s : Archive) (e : DatabaseEvent) (s' : Archive) (h : AddrsApart s)
    (hs : step s e = some s') : AddrsApart s' ↔ Unshared s e := by
  rcases e with msg | ⟨reading, row⟩
  · obtain ⟨row, haddr, -, hplants, -⟩ := step_createOrModify hs
    simp only [AddrsApart, Unshared, hplants, UniqueBy.insert_iff h, haddr]
    refine ⟨fun h' eui _ plant hp => h' eui plant hp, fun h' eui plant hp => ?_⟩
    exact h' eui (Finmap.mem_keys.mpr (Finmap.mem_of_lookup_eq_some hp)) plant hp
  · obtain ⟨-, -, -, hplants⟩ := step_nodeSensorData hs
    simp only [Unshared, iff_true, AddrsApart, hplants]
    exact h

theorem registered_step (s : Archive) (e : DatabaseEvent) (s' : Archive) (h : Registered s)
    (hun : Unshared s e) (hs : step s e = some s') : Registered s' := by
  rcases e with msg | ⟨reading, row⟩
  · obtain ⟨row, haddr, heui, hplants, hreg⟩ := step_createOrModify hs
    intro eui plant hp
    rw [hplants, lookup_insert_eq] at hp
    split_ifs at hp with heq
    · cases hp
      refine ⟨?_, msg.addr, haddr, by rw [hreg, heq, Function.update_self]⟩
      rcases heui with heui | ⟨node, hn, heui⟩
      · rw [heui, heq]
      · rw [heui, heq, (h msg.eui node hn).1]
    · obtain ⟨hpe, a, ha, hra⟩ := h eui plant hp
      refine ⟨hpe, a, ha, ?_⟩
      -- the address is not the one registered now: the row would share it
      have hne : a ≠ msg.addr := by
        rintro rfl
        exact heq (hun eui (Finmap.mem_keys.mpr (Finmap.mem_of_lookup_eq_some hp)) plant hp ha)
      rw [hreg, Function.update_of_ne hne, hra]
  · obtain ⟨-, hreg, -, hplants⟩ := step_nodeSensorData hs
    intro eui plant hp
    rw [hplants] at hp
    rw [hreg]
    exact h eui plant hp

theorem attributed_of_registered (s : Archive) (e : DatabaseEvent) (h : Registered s) :
    Attributed s e := by
  rcases e with msg | ⟨reading, row⟩
  · trivial
  · intro s' hs eui heui
    obtain ⟨hrow, -, hdb, -⟩ := step_nodeSensorData hs
    rw [hdb] at heui
    rcases row with _ | plant
    · simp [insertReading_none, newParents] at heui
    · obtain ⟨hl, haddr⟩ := hrow
      obtain ⟨-, a, ha, hra⟩ := h plant.eui plant hl
      rw [newParents_insertReading heui, ← hra,
        Ipv6Addr.toText_injective (ha.symm.trans haddr)]

/-- In every run of registrations and readings, no two rows ever share an address and each reading
is stored under the last registrant of its address, exactly if no registration is of an address
another plant's row has. -/
theorem attribution_iff (ls : List DatabaseEvent) (s : Archive) (h : run step init ls = some s) :
    EveryState step AddrsApart init ls ∧ EveryStep step Attributed init ls
      ↔ EveryStep step Unshared init ls := by
  have hapart : EveryState step AddrsApart init ls ↔ EveryStep step Unshared init ls :=
    everyState_iff_of_step addrsApart_step (uniqueBy_empty _) h
  refine ⟨fun ⟨hs, _⟩ => hapart.mp hs, fun hun => ⟨hapart.mpr hun, ?_⟩⟩
  have hreg : EveryState step Registered init ls :=
    everyStep_invariant registered_step (fun eui plant hp => by simp [init, empty] at hp) hun
  exact hreg.everyStep attributed_of_registered

instance (s : Archive) : (e : DatabaseEvent) → Decidable (Attributed s e)
  | .createOrModify _ => inferInstanceAs (Decidable True)
  | .nodeSensorData reading row => inferInstanceAs (Decidable
      (∀ s' ∈ step s (.nodeSensorData reading row),
        ∀ eui ∈ newParents s.db s'.db, s.registrant reading.addr.ip = some eui))

instance (s : Archive) : (e : DatabaseEvent) → Decidable (Unshared s e)
  | .createOrModify msg => inferInstanceAs (Decidable
      (∀ eui ∈ s.db.plants.keys, ∀ plant ∈ s.db.plants.lookup eui,
        plant.addr = msg.addr.toText → eui = msg.eui))
  | .nodeSensorData _ _ => inferInstanceAs (Decidable True)

end Run

def plantOf (n : UInt8) (m : UInt16) : CreateOrModify :=
  ⟨.of 0x60 0x55 0xf9 0xf6 0 n, .new 0xfd00 0 0 0 0 0 0 m, "mint"⟩

def readingFrom (m : UInt16) : NodeSensorReading :=
  ⟨⟨.new 0xfd00 0 0 0 0 0 0 m, 49152⟩, ⟨⟨700, 0⟩, none, none, 0⟩⟩

/-- Plant 1 moves from address 1 to address 3, plant 2 from address 2 to address 1. -/
def movedRun : List DatabaseEvent :=
  [.createOrModify (plantOf 1 1), .createOrModify (plantOf 2 2),
    .nodeSensorData (readingFrom 1) (some (plantOf 1 1).newPlant), .createOrModify (plantOf 1 3),
    .createOrModify (plantOf 2 1),
    .nodeSensorData (readingFrom 1) (some { (plantOf 2 1).newPlant with updateCount := 1 })]

open Chrono

theorem attribution_moved :
    EveryState step AddrsApart init movedRun ∧ EveryStep step Attributed init movedRun := by
  obtain ⟨s, hs⟩ := Option.isSome_iff_exists.mp
    (by decide +kernel : (run step init movedRun).isSome)
  exact (attribution_iff movedRun s hs).mpr (by decide +kernel)

/-- Plant 2 takes address 1, and a reading from there finds the row of plant 1. -/
def takenRun : List DatabaseEvent :=
  [.createOrModify (plantOf 1 1), .createOrModify (plantOf 2 1),
    .nodeSensorData (readingFrom 1) (some (plantOf 1 1).newPlant)]

theorem not_attribution : (∃ s, run step init takenRun = some s)
    ∧ ¬ EveryStep step Attributed init takenRun :=
  ⟨Option.isSome_iff_exists.mp (by decide +kernel), by decide +kernel⟩

end Archive

end Pmind
