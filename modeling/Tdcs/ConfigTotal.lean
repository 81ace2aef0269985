import Tdcs.ConfigAgreement
import Mathlib.Data.List.Nodup
import Mathlib.Data.List.Dedup

/-!
Which documents `validate_config` gets through.

Only the calls of the schemas stand in a `try`. The checks that follow walk the value the schema
has perhaps rejected: they call `get` on it and on its parts, go through `slaves` and `tasks`,
and put the ids of the tasks into a set. A document with a scalar where one of these is due
raises there, whatever the schema said of it.
-/

namespace Tdcs.ConfigTotal

open Tdcs.ConfigValidator Tdcs.ConfigAgreement

variable (P : Pydantic) (py : PyText)

/-- The id of a task, as the check on duplicates compares it. -/
def taskId (t : Val) : Option Val.HashKey :=
  t.asMap.bind fun t => ((t.lookup "task_id").getD .null).hashKey

/-- The tasks of a document have different ids. -/
def DistinctTaskIds (raw : Val) : Prop := ((elems (dict raw) "tasks").map taskId).Nodup

/-- The checker returns a list; it is not empty for what the schema rejects, and empty only for
tasks with different ids. -/
def Total (raw : Val) : Prop :=
  ∃ errors, validateConfig P py raw = some errors ∧
    (appConfigSchema P py raw = none → errors ≠ []) ∧ (errors = [] → DistinctTaskIds raw)

/-! ### What can be walked -/

def Iterable : Val → Prop
  | .list _ | .map _ | .str _ => True
  | _ => False

def Hashable : Val → Prop
  | .list _ | .map _ => False
  | _ => True

/-- What stands under the key, if anything does, is a mapping. -/
def MapAt (d : List (String × Val)) (key : String) : Prop :=
  ∀ v, d.lookup key = some v → ∃ m, v = .map m

/-- A mapping whose `task_id`, where it has one, goes into a set. -/
def TaskWalkable (t : Val) : Prop :=
  ∃ d, t = .map d ∧ ∀ id, d.lookup "task_id" = some id → Hashable id

/-- A list of such mappings, or nothing to go through at all. -/
def TasksWalkable : Val → Prop
  | .list l => ∀ t ∈ l, TaskWalkable t
  | .map d => d = []
  | .str s => s = ""
  | _ => False

/-- The checks after the schema find a mapping wherever they call `get`, something to go through
wherever they loop, and ids that go into a set. -/
structure Walkable (m : List (String × Val)) : Prop where
  database : MapAt m "database"
  slaves : ∀ v, (sub m "database").lookup "slaves" = some v → Iterable v
  highAvailability : MapAt m "high_availability"
  tasks : ∀ v, m.lookup "tasks" = some v → TasksWalkable v

/-! ### The parts -/

variable {P py}

lemma iterable_iff {v : Val} : Iterable v ↔ ∃ l, v.iter = some l := by
  cases v <;> simp [Iterable, Val.iter]

lemma hashable_iff {v : Val} : Hashable v ↔ ∃ k, v.hashKey = some k := by
  cases v <;> simp [Hashable, Val.hashKey]

lemma mapAt_iff {d : List (String × Val)} {key : String} :
    MapAt d key ↔ ((d.lookup key).getD (.map [])).asMap = some (sub d key) := by
  unfold MapAt sub dict
  cases d.lookup key with
  | none => simp
  | some v => cases v <;> simp [Val.asMap]

lemma taskWalkable_iff {t : Val} : TaskWalkable t ↔ ∃ k, taskId t = some k := by
  unfold TaskWalkable taskId
  cases t with
  | map d =>
    have hget : (∀ id, d.lookup "task_id" = some id → Hashable id) ↔
        Hashable ((d.lookup "task_id").getD .null) := by
      cases d.lookup "task_id" with
      | none => simp [Hashable]
      | some id => simp
    rw [Val.asMap_map, Option.bind_some, ← hashable_iff, ← hget]
    simp
  | _ => simp [Val.asMap]

lemma mapAll_taskId_iff {l : List Val} :
    (∃ ids, mapAll taskId l = some ids) ↔ ∀ t ∈ l, TaskWalkable t := by
  constructor
  · rintro ⟨ids, hids⟩ t ht
    exact taskWalkable_iff.mpr (isSome_of_mapAll hids ht)
  · intro h
    exact mapAll_isSome fun t ht => Option.isSome_iff_exists.mpr (taskWalkable_iff.mp (h t ht))

lemma not_taskWalkable_str (s : String) : ¬ TaskWalkable (.str s) := by
  rintro ⟨d, hd, -⟩
  cases hd

lemma tasksWalkable_iff {v : Val} :
    TasksWalkable v ↔ ∃ ts, v.iter = some ts ∧ ∃ ids, mapAll taskId ts = some ids := by
  simp only [mapAll_taskId_iff]
  cases v with
  | list l => simp [TasksWalkable, Val.iter]
  | map d =>
    -- the keys of a mapping are strings, and so are the characters of a string
    cases d with
    | nil => simp [TasksWalkable, Val.iter]
    | cons p d => simp [TasksWalkable, Val.iter, not_taskWalkable_str]
  | str s =>
    have hs : s = "" ↔ s.toList = [] := by simp
    rw [TasksWalkable, hs]
    cases hl : s.toList with
    | nil => simp [Val.iter, hl]
    | cons c l => simp [Val.iter, hl, not_taskWalkable_str]
  | _ => simp [TasksWalkable, Val.iter]

lemma exists_databaseErrors {db : List (String × Val)} :
    (∃ errors, databaseErrors P py db = some errors) ↔
      ∀ v, db.lookup "slaves" = some v → Iterable v := by
  have hget : (∀ v, db.lookup "slaves" = some v → Iterable v) ↔
      Iterable ((db.lookup "slaves").getD (.list [])) := by
    cases db.lookup "slaves" with
    | none => simp [Iterable]
    | some v => simp
  rw [hget, iterable_iff]
  unfold databaseErrors
  constructor
  · rintro ⟨errors, h⟩
    obtain ⟨l, hl, -⟩ := Option.bind_eq_some_iff.mp h
    exact ⟨l, hl⟩
  · rintro ⟨l, hl⟩
    rw [hl]
    exact ⟨_, rfl⟩

lemma tasks_iff {m : List (String × Val)} :
    (∀ v, m.lookup "tasks" = some v → TasksWalkable v) ↔
      ∃ ts, ((m.lookup "tasks").getD (.list [])).iter = some ts ∧
        ∃ ids, mapAll taskId ts = some ids := by
  rw [← tasksWalkable_iff]
  cases m.lookup "tasks" with
  | none => simp [TasksWalkable]
  | some v => simp

/-! ### The checker -/

lemma validateConfig_eq_some {raw : Val} {errors : List ConfigError}
    (h : validateConfig P py raw = some errors) :
    ∃ m dbErrors haErrors ts ids, raw = .map m ∧
      MapAt m "database" ∧ databaseErrors P py (sub m "database") = some dbErrors ∧
      MapAt m "high_availability" ∧
      ((m.lookup "tasks").getD (.list [])).iter = some ts ∧ mapAll taskId ts = some ids ∧
      errors = (if (appConfigSchema P py raw).isNone then
          [.app (P.errorText "AppConfigSchema" raw)] else []) ++ dbErrors ++ haErrors ++
        (if duplicates ids = [] then [] else [.duplicateTaskId (duplicates ids)]) := by
  unfold validateConfig at h
  obtain ⟨m, hm, h⟩ := Option.bind_eq_some_iff.mp h
  obtain ⟨db, hdb, h⟩ := Option.bind_eq_some_iff.mp h
  obtain ⟨dbErrors, hdbe, h⟩ := Option.bind_eq_some_iff.mp h
  obtain ⟨ha, hha, h⟩ := Option.bind_eq_some_iff.mp h
  obtain ⟨ts, hts, h⟩ := Option.bind_eq_some_iff.mp h
  obtain ⟨ids, hids, h⟩ := Option.bind_eq_some_iff.mp h
  have hdb' : db = sub m "database" := by rw [sub, dict, hdb, Option.getD_some]
  have hha' : ha = sub m "high_availability" := by rw [sub, dict, hha, Option.getD_some]
  refine ⟨m, dbErrors, _, ts, ids, Val.asMap_eq_some.mp hm, ?_, ?_, ?_, hts, hids,
    (Option.some.inj h).symm⟩
  · rw [mapAt_iff, hdb, hdb']
  · rw [← hdb', hdbe]
  · rw [mapAt_iff, hha, hha']

/-- The checker returns exactly for the documents its later checks can walk. -/
lemma exists_validateConfig {raw : Val} :
    (∃ errors, validateConfig P py raw = some errors) ↔ ∃ m, raw = .map m ∧ Walkable m := by
  constructor
  · rintro ⟨errors, h⟩
    obtain ⟨m, dbErrors, -, ts, ids, rfl, hdb, hdbe, hha, hts, hids, -⟩ := validateConfig_eq_some h
    exact ⟨m, rfl, hdb, exists_databaseErrors.mp ⟨dbErrors, hdbe⟩, hha,
      tasks_iff.mpr ⟨ts, hts, ids, hids⟩⟩
  · rintro ⟨m, rfl, hdb, hslaves, hha, htasks⟩
    obtain ⟨dbErrors, hdbe⟩ := exists_databaseErrors.mpr hslaves
    obtain ⟨ts, hts, ids, hids⟩ := tasks_iff.mp htasks
    have hids : mapAll (fun t : Val => t.asMap.bind fun t =>
        ((t.lookup "task_id").getD .null).hashKey) ts = some ids := hids
    rw [validateConfig, Val.asMap_map, some_bind, mapAt_iff.mp hdb, some_bind, hdbe, some_bind,
      mapAt_iff.mp hha, some_bind, hts, some_bind, hids, some_bind]
    exact ⟨_, rfl⟩

lemma duplicates_eq_nil {ids : List Val.HashKey} : duplicates ids = [] ↔ ids.Nodup := by
  rw [duplicates, List.filter_eq_nil_iff, List.nodup_iff_count_le_one]
  constructor
  · intro h id
    by_cases hid : id ∈ ids
    · have := h id (by simpa using hid)
      simpa using this
    · rw [List.count_eq_zero_of_not_mem hid]
      omega
  · intro h id _
    simpa using h id

lemma map_taskId {ts : List Val} {ids : List Val.HashKey} (h : mapAll taskId ts = some ids) :
    ts.map taskId = ids.map some := by
  induction ts generalizing ids with
  | nil =>
    cases h
    rfl
  | cons t ts ih =>
    obtain ⟨id, ids, hid, hids, rfl⟩ := mapAll_cons_eq_some.mp h
    rw [List.map_cons, List.map_cons, hid, ih hids]

lemma distinctTaskIds {m : List (String × Val)} {ts : List Val} {ids : List Val.HashKey}
    (hts : ((m.lookup "tasks").getD (.list [])).iter = some ts)
    (hids : mapAll taskId ts = some ids) (h : duplicates ids = []) :
    DistinctTaskIds (.map m) := by
  have helems : elems (dict (.map m)) "tasks" = ts := by
    change ((m.lookup "tasks").getD (.list [])).iter.getD [] = ts
    rw [hts, Option.getD_some]
  rw [DistinctTaskIds, helems, map_taskId hids]
  exact (duplicates_eq_nil.mp h).map fun _ _ => Option.some.inj

variable (P py)

/-- **`validate_config` is a total checker exactly on the documents its later checks can walk.** -/
theorem total_iff_walkable (raw : Val) : Total P py raw ↔ ∃ m, raw = .map m ∧ Walkable m := by
  rw [← @exists_validateConfig P py raw]
  constructor
  · rintro ⟨errors, h, -⟩
    exact ⟨errors, h⟩
  · rintro ⟨errors, h⟩
    refine ⟨errors, h, ?_, ?_⟩
    · intro hrejected hnil
      obtain ⟨m, dbErrors, haErrors, ts, ids, -, -, -, -, -, -, herrors⟩ := validateConfig_eq_some h
      rw [hnil, hrejected] at herrors
      simp at herrors
    · intro hnil
      obtain ⟨m, dbErrors, haErrors, ts, ids, rfl, -, -, -, hts, hids, herrors⟩ :=
        validateConfig_eq_some h
      refine distinctTaskIds hts hids ?_
      by_contra hdup
      rw [hnil, if_neg hdup] at herrors
      simp at herrors

/-- `database:` with nothing behind it is rejected by the schema, and `get` is called on it. -/
theorem not_total_nullDatabase : ¬ ∀ raw, Total lax ascii raw := by
  intro h
  obtain ⟨errors, herrors, -⟩ := h (.map [("database", .null)])
  have hraises : validateConfig lax ascii (.map [("database", .null)]) = none := by decide +kernel
  rw [hraises] at herrors
  cases herrors

end Tdcs.ConfigTotal
