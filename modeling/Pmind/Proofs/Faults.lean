import Mathlib.Data.List.TakeWhile
import Pmind.Proofs.Insert
import Pmind.Proofs.Store

/-!
# What the database holds if statements fail

A registration is one write, so a failed one leaves nothing. A reading is up to three, of which the
moisture's is the last: a failed one may leave gas and light behind, and its moisture never. So the
plants are the sums of the registrations that went through and the moisture the readings that did,
whatever fails and where.
-/

namespace Pmind

open Transition HashMap

/-- A message, and the errors its statements fail with. -/
structure Request where
  event : DatabaseEvent
  sql : Sql

namespace PlantDatabase

/-- The inserts of a reading up to the one that fails. -/
def executed (sql : Sql) (reading : NodeSensorReading) : List Statement :=
  (inserts reading).takeWhile fun stmt => (sql stmt).isNone

theorem exec_createOrModify (sql : Sql) (plant : PlantRecord) (db : PlantDatabase) :
    (createOrModifyPlantRecord sql plant).exec db = (.ok (), { db with
        plants := db.plants.insert plant.eui (registered plant (db.plants.lookup plant.eui)) })
      ∨ ∃ e, (createOrModifyPlantRecord sql plant).exec db = (.error e, db) := by
  unfold createOrModifyPlantRecord
  rw [exec_get]
  rcases hsel : sql .selectByEui with _ | msg
  · rcases hn : db.plants.lookup plant.eui with _ | node
    · rcases hi : sql .insertPlant with _ | msg
      · refine Or.inl ?_
        simp only [execute, hi]
        rfl
      · refine Or.inr ⟨.sqliteError (.other msg), ?_⟩
        simp only [execute, hi]
        rfl
    · rcases hu : sql .upsertPlant with _ | msg
      · refine Or.inl ?_
        simp only [execute, hu]
        rfl
      · refine Or.inr ⟨.sqliteError (.other msg), ?_⟩
        simp only [execute, hu]
        rfl
  · exact Or.inr ⟨.sqliteError (.other msg), rfl⟩

theorem nodup_inserts (reading : NodeSensorReading) : (inserts reading).Nodup := by
  unfold inserts
  rcases reading.data.gas with _ | gas <;> rcases reading.data.light with _ | light <;> simp

theorem executed_eq {sql : Sql} {reading : NodeSensorReading}
    (h : ∀ stmt ∈ inserts reading, sql stmt = none) :
    executed sql reading = inserts reading :=
  List.takeWhile_eq_self_iff.mpr fun stmt hs => by rw [h stmt hs, Option.isNone_none]

/-- The moisture is stored last. -/
theorem insertMoisture_mem_executed {sql : Sql} {reading : NodeSensorReading} :
    .insertMoisture ∈ executed sql reading ↔ ∀ stmt ∈ inserts reading, sql stmt = none := by
  refine ⟨fun h => ?_, fun h => ?_⟩
  · obtain ⟨rest, hrest⟩ := List.takeWhile_prefix (l := inserts reading) fun stmt =>
      (sql stmt).isNone
    change executed sql reading ++ rest = _ at hrest
    rcases List.eq_nil_or_concat rest with rfl | ⟨rest, stmt, rfl⟩
    · rw [List.append_nil] at hrest
      rw [← hrest]
      intro stmt hs
      exact Option.isNone_iff_eq_none.mp (List.mem_takeWhile_imp (p := fun s => (sql s).isNone) hs)
    · -- what is not executed would end with the moisture too
      have hnd := hrest ▸ nodup_inserts reading
      have hlast : stmt = .insertMoisture := by
        have hl := congrArg List.getLast? hrest
        simpa [inserts] using hl
      rw [List.nodup_append] at hnd
      exact absurd rfl (hnd.2.2 _ h _ (by simp [hlast]))
  · rw [executed_eq h]
    simp [inserts]

section Run

variable [Chrono]

/-- What the handler of a message returns, and the database after it. -/
def handle (db : PlantDatabase) (r : Request) : Except DatabaseError Unit × PlantDatabase :=
  match r.event with
  | .createOrModify msg => (createOrModifyPlantRecord r.sql msg.newPlant).exec db
  | .nodeSensorData reading row => (insertReading r.sql row reading).exec db

def step (db : PlantDatabase) (r : Request) : Option PlantDatabase :=
  match r.event with
  | .createOrModify _ => some (db.handle r).2
  | .nodeSensorData reading row =>
    if First db.plants reading.addr.ip.toText row then some (db.handle r).2 else none

def succeeds (db : PlantDatabase) (r : Request) : Bool := (db.handle r).1.isOk

/-- The registrations whose handler returns `Ok`. -/
def registers (db : PlantDatabase) (r : Request) : List CreateOrModify :=
  match r.event with
  | .createOrModify msg => if db.succeeds r then [msg] else []
  | .nodeSensorData _ _ => []

/-- The readings whose handler returns `Ok`. -/
def accepts (db : PlantDatabase) (r : Request) : List Accepted :=
  match r.event with
  | .nodeSensorData reading (some plant) => if db.succeeds r then [⟨plant.eui, reading⟩] else []
  | _ => []

/-- The readings that find their plant and of which an insert is executed. -/
def stores (stmt : Statement) (r : Request) : List Accepted :=
  match r.event with
  | .nodeSensorData reading (some plant) =>
    if r.sql .selectByAddr = none ∧ stmt ∈ executed r.sql reading then [⟨plant.eui, reading⟩]
    else []
  | _ => []

/-! ## One message -/

section Handlers

variable {sql : Sql} {plant : PlantRecord} {reading : NodeSensorReading}

theorem exec_executeAll_eq (sql : Sql) (plant : PlantRecord) (reading : NodeSensorReading) :
    ∀ (stmts : List Statement) (db : PlantDatabase),
      ((executeAll sql plant reading stmts).exec db).2
          = (stmts.takeWhile fun stmt => (sql stmt).isNone).foldl (store plant reading) db
        ∧ (((executeAll sql plant reading stmts).exec db).1.isOk
          ↔ ∀ stmt ∈ stmts, sql stmt = none)
  | [], db => ⟨rfl, by simp [executeAll, Query.exec]; rfl⟩
  | stmt :: stmts, db => by
    rw [exec_executeAll_cons]
    rcases hs : sql stmt with _ | msg
    · obtain ⟨hdb, hok⟩ := exec_executeAll_eq sql plant reading stmts (store plant reading db stmt)
      simp only [hdb, hok, List.takeWhile_cons, hs, List.forall_mem_cons, Option.isNone_none,
        if_true, List.foldl_cons, true_and]
    · simp [hs, Except.isOk, Except.toBool]

theorem foldl_store (plant : PlantRecord) (reading : NodeSensorReading) :
    ∀ {done : List Statement} (db : PlantDatabase), done.Nodup →
      (done.foldl (store plant reading) db).gasData = db.gasData
          ++ (if .insertGas ∈ done then [⟨plant.eui, reading⟩] else []).filterMap Accepted.gasRow
        ∧ (done.foldl (store plant reading) db).lightData = db.lightData
          ++ (if .insertLight ∈ done then [⟨plant.eui, reading⟩] else []).filterMap
            Accepted.lightRow
        ∧ (done.foldl (store plant reading) db).moistureData = db.moistureData
          ++ (if .insertMoisture ∈ done then [⟨plant.eui, reading⟩] else []).map
            Accepted.moistureRow
  | [], db, _ => by simp
  | stmt :: done, db, hnd => by
    obtain ⟨hstmt, hnd⟩ := List.nodup_cons.mp hnd
    obtain ⟨hg, hl, hm⟩ := foldl_store plant reading (store plant reading db stmt) hnd
    rw [List.foldl_cons, hg, hl, hm]
    rcases stmt <;> simp_all [store, Accepted.gasRow, Accepted.lightRow, Accepted.moistureRow,
      Archive.filterMap_singleton]

theorem insertReading_executed (h : sql .selectByAddr = none) (plant : PlantRecord)
    (reading : NodeSensorReading) (db : PlantDatabase) :
    ((insertReading sql (some plant) reading).exec db).2
        = (executed sql reading).foldl (store plant reading) db
      ∧ (((insertReading sql (some plant) reading).exec db).1.isOk
        ↔ .insertMoisture ∈ executed sql reading) := by
  rw [insertReading_found h, insertMoisture_mem_executed]
  exact exec_executeAll_eq sql plant reading (inserts reading) db

end Handlers

variable {db db' : PlantDatabase} {r : Request}

theorem stores_insertMoisture (db : PlantDatabase) (r : Request) :
    stores .insertMoisture r = db.accepts r := by
  obtain ⟨msg | ⟨reading, _ | plant⟩, sql⟩ := r
  · rfl
  · rfl
  · unfold stores accepts succeeds handle
    simp only []
    by_cases hsel : sql .selectByAddr = none
    · have hok := (insertReading_executed hsel plant reading db).2
      by_cases hm : .insertMoisture ∈ executed sql reading
      · rw [if_pos ⟨hsel, hm⟩, if_pos (hok.mpr hm)]
      · rw [if_neg fun h => hm h.2, if_neg fun h => hm (hok.mp h)]
    · have hnf : NotFound sql (some plant) := Or.inl hsel
      obtain ⟨e, he⟩ := exec_insertReading_notFound reading db hnf
      simp [he, hsel, Except.isOk, Except.toBool]

/-- The rows of a reading that a step adds. -/
theorem sensors_step (h : step db r = some db') :
    db'.gasData = db.gasData ++ (stores .insertGas r).filterMap Accepted.gasRow
      ∧ db'.lightData = db.lightData ++ (stores .insertLight r).filterMap Accepted.lightRow
      ∧ db'.moistureData = db.moistureData ++ (db.accepts r).map Accepted.moistureRow := by
  rw [← stores_insertMoisture]
  obtain ⟨msg | ⟨reading, row⟩, sql⟩ := r
  · cases h
    simp only [handle, stores, List.filterMap_nil, List.map_nil, List.append_nil]
    rcases exec_createOrModify sql msg.newPlant db with he | ⟨e, he⟩ <;> rw [he] <;>
      exact ⟨rfl, rfl, rfl⟩
  · simp only [step] at h
    split_ifs at h
    cases h
    by_cases hnf : NotFound sql row
    · obtain ⟨e, he⟩ := exec_insertReading_notFound reading db hnf
      have hnone : ∀ stmt, stores stmt ⟨.nodeSensorData reading row, sql⟩ = [] := by
        intro stmt
        rcases row with _ | plant
        · rfl
        · exact if_neg fun h => hnf.elim (fun hne => hne h.1) nofun
      simp [handle, he, hnone]
    · obtain ⟨hsel, hrow⟩ := not_or.mp hnf
      obtain ⟨plant, rfl⟩ := Option.ne_none_iff_exists'.mp hrow
      rw [not_not] at hsel
      have hnd : (executed sql reading).Nodup :=
        (nodup_inserts reading).sublist (List.takeWhile_sublist _)
      simp only [handle, (insertReading_executed hsel plant reading db).1, stores, hsel, true_and]
      exact foldl_store plant reading db hnd

theorem plants_step (h : step db r = some db') :
    (db.registers r = [] ∧ db'.plants = db.plants)
      ∨ ∃ msg, db.registers r = [msg] ∧ db'.plants
        = db.plants.insert msg.eui (registered msg.newPlant (db.plants.lookup msg.eui)) := by
  obtain ⟨msg | ⟨reading, row⟩, sql⟩ := r
  · cases h
    rcases exec_createOrModify sql msg.newPlant db with he | ⟨e, he⟩
    · have hs : db.succeeds ⟨.createOrModify msg, sql⟩ = true := by
        simp only [succeeds, handle, he]
        rfl
      refine Or.inr ⟨msg, if_pos hs, ?_⟩
      simp only [handle, he]
      rfl
    · have hs : ¬ db.succeeds ⟨.createOrModify msg, sql⟩ = true := by
        simp [succeeds, handle, he, Except.isOk, Except.toBool]
      refine Or.inl ⟨if_neg hs, ?_⟩
      simp only [handle, he]
  · simp only [step] at h
    split_ifs at h
    cases h
    refine Or.inl ⟨rfl, ?_⟩
    by_cases hnf : NotFound sql row
    · obtain ⟨e, he⟩ := exec_insertReading_notFound reading db hnf
      simp only [handle, he]
    · obtain ⟨hsel, hrow⟩ := not_or.mp hnf
      obtain ⟨plant, rfl⟩ := Option.ne_none_iff_exists'.mp hrow
      simp only [handle, (insertReading_executed (not_not.mp hsel) plant reading db).1]
      exact plants_foldl_store _ db

theorem stores_parent (h : step db r = some db') {stmt : Statement} {a : Accepted}
    (ha : a ∈ stores stmt r) : a.eui ∈ db.plants := by
  obtain ⟨msg | ⟨reading, _ | plant⟩, sql⟩ := r
  · exact absurd ha List.not_mem_nil
  · exact absurd ha List.not_mem_nil
  · simp only [step] at h
    split_ifs at h with hrow
    simp only [stores] at ha
    split_ifs at ha
    · rw [List.mem_singleton.mp ha]
      exact Finmap.mem_of_lookup_eq_some hrow.1
    · exact absurd ha List.not_mem_nil

/-- A reading whose handler returns `Ok` has all its rows stored. -/
theorem accepts_sublist {β : Type} (stmt : Statement) (row : Accepted → Option β)
    (hrow : ∀ a : Accepted, (row a).isSome → stmt ∈ inserts a.reading) (db : PlantDatabase)
    (r : Request) : ((db.accepts r).filterMap row).Sublist ((stores stmt r).filterMap row) := by
  rw [← stores_insertMoisture]
  obtain ⟨msg | ⟨reading, _ | plant⟩, sql⟩ := r
  · exact List.Sublist.refl _
  · exact List.Sublist.refl _
  · by_cases hm : sql .selectByAddr = none ∧ .insertMoisture ∈ executed sql reading
    · rcases ha : row ⟨plant.eui, reading⟩ with _ | b
      · simp [stores, hm, ha]
      · have hstmt : stmt ∈ executed sql reading := by
          rw [executed_eq (insertMoisture_mem_executed.mp hm.2)]
          exact hrow ⟨plant.eui, reading⟩ (by rw [ha]; rfl)
        simp only [stores]
        rw [if_pos hm, if_pos ⟨hm.1, hstmt⟩]
    · simp [stores, hm]

/-! ## A run -/

theorem plants_run {ls : List Request} (h : run step empty ls = some db) (eui : Eui) :
    db.plants.lookup eui
      = plantRow eui ((outputs step registers empty ls).filter fun msg => msg.eui = eui) := by
  refine run_induct (Q := fun ls db => ∀ eui, db.plants.lookup eui
    = plantRow eui ((outputs step registers empty ls).filter fun msg => msg.eui = eui))
    (fun eui => rfl) ?_ h eui
  intro ls t r t' ht ih hs eui
  rw [outputs_concat ht, List.filter_append]
  rcases plants_step hs with ⟨hreg, hp⟩ | ⟨msg, hreg, hp⟩
  · rw [hp, hreg, List.filter_nil, List.append_nil, ih]
  · rw [hp, hreg, lookup_insert_eq]
    by_cases heq : eui = msg.eui
    · subst heq
      rw [if_pos rfl, ih, List.filter_cons_of_pos (by simp), List.filter_nil, plantRow_concat]
    · rw [if_neg heq, List.filter_cons_of_neg (by simpa using Ne.symm heq), List.filter_nil,
        List.append_nil, ih]

theorem parents_run {ls : List Request} (h : run step empty ls = some db) (stmt : Statement) :
    ∀ a ∈ ls.flatMap (stores stmt), a.eui ∈ db.plants := by
  refine run_induct (Q := fun ls db => ∀ a ∈ ls.flatMap (stores stmt), a.eui ∈ db.plants)
    (by simp) ?_ h
  intro ls t r t' ht ih hs a ha
  rw [List.flatMap_append, List.mem_append] at ha
  have hmem : a.eui ∈ t.plants := by
    rcases ha with ha | ha
    · exact ih a ha
    · exact stores_parent hs (by simpa using ha)
  rcases plants_step hs with ⟨-, hp⟩ | ⟨msg, -, hp⟩
  · rwa [hp]
  · rw [hp]
    exact Finmap.mem_insert.mpr (Or.inr hmem)

theorem gas_run {ls : List Request} (h : run step empty ls = some db) :
    db.gasData = (ls.flatMap (stores .insertGas)).filterMap Accepted.gasRow := by
  have hrun := outputs_accumulated (q := gasData) (fun _ _ _ hs => (sensors_step hs).1.symm) h
  rw [← outputs_filterMap, outputs_eq_flatMap h] at hrun
  exact hrun.symm

theorem light_run {ls : List Request} (h : run step empty ls = some db) :
    db.lightData = (ls.flatMap (stores .insertLight)).filterMap Accepted.lightRow := by
  have hrun := outputs_accumulated (q := lightData) (fun _ _ _ hs => (sensors_step hs).2.1.symm) h
  rw [← outputs_filterMap, outputs_eq_flatMap h] at hrun
  exact hrun.symm

theorem moisture_run {ls : List Request} (h : run step empty ls = some db) :
    db.moistureData = (outputs step accepts empty ls).map Accepted.moistureRow := by
  have hrun := outputs_accumulated (q := moistureData)
    (fun _ _ _ hs => (sensors_step hs).2.2.symm) h
  rw [outputs_map] at hrun
  exact hrun.symm

theorem accepts_run {β : Type} {stmt : Statement} {row : Accepted → Option β}
    (hrow : ∀ a : Accepted, (row a).isSome → stmt ∈ inserts a.reading) {ls : List Request}
    (h : run step empty ls = some db) :
    ((outputs step accepts empty ls).filterMap row).Sublist
      ((ls.flatMap (stores stmt)).filterMap row) := by
  rw [← outputs_eq_flatMap h, outputs_filterMap, outputs_filterMap]
  simpa using outputs_sublist (q := fun _ => ([] : List β))
    (fun t r t' _ => by simpa using accepts_sublist stmt row hrow t r) h

/-- Whatever statements fail in a run, a plant's row is the sum of its registrations whose handler
returned `Ok`, and the moisture table is the readings whose handler did. The light and gas tables
have these readings' rows and at most those of readings that failed at a later insert. Every row's
parent is a plant. -/
theorem faults_kept (ls : List Request) (db : PlantDatabase) (h : run step empty ls = some db) :
    (∀ eui, db.plants.lookup eui
        = plantRow eui ((outputs step registers empty ls).filter fun msg => msg.eui = eui))
      ∧ db.moistureData = (outputs step accepts empty ls).map Accepted.moistureRow
      ∧ db.lightData = (ls.flatMap (stores .insertLight)).filterMap Accepted.lightRow
      ∧ ((outputs step accepts empty ls).filterMap Accepted.lightRow).Sublist db.lightData
      ∧ db.gasData = (ls.flatMap (stores .insertGas)).filterMap Accepted.gasRow
      ∧ ((outputs step accepts empty ls).filterMap Accepted.gasRow).Sublist db.gasData
      ∧ ∀ eui ∈ newParents empty db, eui ∈ db.plants := by
  have hgas := gas_run h
  have hlight := light_run h
  have hmoisture := moisture_run h
  refine ⟨plants_run h, hmoisture, hlight, ?_, hgas, ?_, ?_⟩
  · rw [hlight]
    exact accepts_run (fun a ha => by
      simpa [inserts, Accepted.lightRow, Option.isSome_iff_exists] using ha) h
  · rw [hgas]
    exact accepts_run (fun a ha => by
      simpa [inserts, Accepted.gasRow, Option.isSome_iff_exists] using ha) h
  · intro eui heui
    have hparent := fun stmt => parents_run h stmt
    have hstored : outputs step accepts empty ls = ls.flatMap (stores .insertMoisture) := by
      rw [← outputs_eq_flatMap h]
      exact outputs_congr (fun t r _ _ => (stores_insertMoisture t r).symm) h
    rw [hstored] at hmoisture
    simp only [newParents, empty, List.length_nil, List.drop_zero, hgas, hlight, hmoisture,
      List.mem_append, List.mem_map, List.mem_filterMap, Accepted.gasRow, Accepted.lightRow,
      Option.map_eq_some_iff] at heui
    rcases heui with (⟨row, ⟨a, ha, gas, -, rfl⟩, rfl⟩ | ⟨row, ⟨a, ha, light, -, rfl⟩, rfl⟩)
      | ⟨row, ⟨a, ha, rfl⟩, rfl⟩
    · exact hparent .insertGas a ha
    · exact hparent .insertLight a ha
    · exact hparent .insertMoisture a ha

end Run

open Chrono

/-- A plant's reading comes when the disk is full, and another when it is not, and then it cannot be
registered again. -/
def faultyRun : List Request :=
  let msg : CreateOrModify := ⟨mint.eui, gasReading.addr.ip, mint.name⟩
  [⟨.createOrModify msg, Archive.sqlOk⟩, ⟨.nodeSensorData gasReading (some mint), diskFull⟩,
    ⟨.nodeSensorData gasReading (some mint), Archive.sqlOk⟩,
    ⟨.createOrModify msg, fun _ => some "database is locked"⟩]

theorem kept_faulty : ∃ db, run step empty faultyRun = some db
    ∧ (∀ eui, db.plants.lookup eui = plantRow eui
        ((outputs step registers empty faultyRun).filter fun msg => msg.eui = eui))
    ∧ db.moistureData = (outputs step accepts empty faultyRun).map Accepted.moistureRow
    ∧ db.gasData = (faultyRun.flatMap (stores .insertGas)).filterMap Accepted.gasRow
    ∧ ∀ eui ∈ newParents empty db, eui ∈ db.plants := by
  obtain ⟨db, hdb⟩ : ∃ db, run step empty faultyRun = some db :=
    Option.isSome_iff_exists.mp (by decide +kernel)
  obtain ⟨hplants, hmoisture, -, -, hgas, -, hparents⟩ := faults_kept faultyRun db hdb
  exact ⟨db, hdb, hplants, hmoisture, hgas, hparents⟩

end PlantDatabase

end Pmind
