import Tdcs.Yaml
import Tdcs.TableRouter

/-!
`config_validator.py`: the schemas and `validate_config`.

A schema is a list of fields. Pydantic's lax mode, which reads a number or a truth value in
other values too, comes from outside; what it does to a value that has the type already is
stated in `Pydantic.Lawful`. `none` stands for a raised exception.
-/

namespace Tdcs.ConfigValidator

/-- How Pydantic reads a value for a field of type `int`, `float` or `bool`, and the text of
its `ValidationError`. -/
structure Pydantic where
  int : Val → Option ℤ
  float : Val → Option ℚ
  bool : Val → Option Bool
  errorText : String → Val → String

/-- A value that has the type is taken as it is. -/
structure Pydantic.Lawful (P : Pydantic) : Prop where
  int : ∀ n, P.int (.int n) = some n
  float : ∀ x, P.float (.float x) = some x
  bool : ∀ b, P.bool (.bool b) = some b

/-- The types of fields, with the bounds `ge` and `le`. -/
inductive Leaf
  | str
  | int (ge le : Option ℤ)
  | float (ge le : ℚ)
  | bool
  | strings
  | ints

/-- The field validators, `min_length` among them. -/
inductive Validator
  | any
  | minLength (n : ℕ)
  | oneOf (allowed : List String)
  /-- `check_log_level`. -/
  | upperIn (allowed : List String)
  /-- `^[a-z][a-z0-9_]*$`. -/
  | name
  | nonEmpty

structure Field where
  key : String
  leaf : Leaf
  default : Option Val := none
  validator : Validator := .any

def inBounds {α : Type*} [LE α] [DecidableLE α] (ge le : Option α) (n : α) : Bool :=
  ge.all (· ≤ n) && le.all (n ≤ ·)

/-- The value of type `leaf` that lax mode reads in a value, if there is one. -/
def Leaf.read (P : Pydantic) : Leaf → Val → Option Val
  | .str, .str s => some (.str s)
  | .str, _ => none
  | .int ge le, v => (P.int v).bind fun n => if inBounds ge le n then some (.int n) else none
  | .float ge le, v =>
    (P.float v).bind fun x => if ge ≤ x ∧ x ≤ le then some (.float x) else none
  | .bool, v => (P.bool v).map .bool
  | .strings, .list l => (mapAll (fun v => match v with
    | .str s => some (.str s)
    | _ => none) l).map .list
  | .ints, .list l => (mapAll (fun v => (P.int v).map .int) l).map .list
  | .strings, _ | .ints, _ => none

def Validator.run (py : PyText) : Validator → Val → Option Val
  | .any, v => some v
  | .minLength n, .str s => if n ≤ s.length then some (.str s) else none
  | .oneOf allowed, .str s => if s ∈ allowed then some (.str s) else none
  | .upperIn allowed, .str s =>
    if py.upper s ∈ allowed then some (.str (py.upper s)) else none
  | .name, .str s => if Pipeline.matchesNameRe s.toList then some (.str s) else none
  | .nonEmpty, .list l => if l.isEmpty then none else some (.list l)
  | _, _ => none

variable (P : Pydantic) (py : PyText)

/-- What the schema makes of a field that is missing or has a value. A default is not
validated. -/
def Field.run (f : Field) : Option Val → Option Val
  | none => f.default
  | some v => (f.leaf.read P v).bind (f.validator.run py)

/-- The fields of a model, by their keys. -/
def validateFields (fields : List Field) (m : List (String × Val)) :
    Option (List (String × Val)) :=
  mapAll (fun f => (f.run P py (m.lookup f.key)).map fun v => (f.key, v)) fields

def validateModel (fields : List Field) (v : Val) : Option (List (String × Val)) :=
  v.asMap.bind (validateFields P py fields)

/-- A model that has to be there. -/
def required (fields : List Field) (m : List (String × Val)) (key : String) :
    Option (List (String × Val)) :=
  (m.lookup key).bind (validateModel P py fields)

/-- A model whose default is the model without values. -/
def optional (fields : List Field) (m : List (String × Val)) (key : String) :
    Option (List (String × Val)) :=
  validateModel P py fields ((m.lookup key).getD (.map []))

/-! ### The schemas -/

def port : Leaf := .int (some 1) (some 65535)
def poolSize : Leaf := .int (some 1) (some 100)
def seconds1to300 : Leaf := .int (some 1) (some 300)
def seconds300to86400 : Leaf := .int (some 300) (some 86400)

def serviceConfigSchema : List Field := [
  { key := "instance_id", leaf := .str },
  { key := "log_level", leaf := .str, default := some (.str "INFO"),
    validator := .upperIn ["DEBUG", "INFO", "WARNING", "ERROR", "CRITICAL"] }]

def databaseNodeSchema : List Field := [
  { key := "host", leaf := .str },
  { key := "port", leaf := port, default := some (.int 3306) },
  { key := "user", leaf := .str },
  { key := "password", leaf := .str },
  { key := "database", leaf := .str },
  { key := "pool_size", leaf := poolSize, default := some (.int 5) },
  { key := "pool_timeout", leaf := seconds1to300, default := some (.int 30) },
  { key := "pool_recycle", leaf := seconds300to86400, default := some (.int 3600) },
  { key := "connect_timeout", leaf := .int (some 1) (some 120), default := some (.int 10) }]

def concurrencyConfigSchema : List Field := [
  { key := "worker_threads", leaf := .int (some 1) (some 32), default := some (.int 4) },
  { key := "queue_maxsize", leaf := .int (some 10) (some 10000), default := some (.int 500) },
  { key := "task_timeout", leaf := .int (some 10) (some 3600), default := some (.int 300) }]

def haConfigSchema : List Field := [
  { key := "enabled", leaf := .bool, default := some (.bool false) },
  { key := "heartbeat_interval", leaf := .int (some 3) (some 120), default := some (.int 10) },
  { key := "failover_timeout", leaf := .int (some 10) (some 300), default := some (.int 30) },
  { key := "degraded_mode", leaf := .str, default := some (.str "pause") }]

def webConfigSchema : List Field := [
  { key := "enabled", leaf := .bool, default := some (.bool true) },
  { key := "host", leaf := .str, default := some (.str "127.0.0.1") },
  { key := "port", leaf := port, default := some (.int 8080) },
  { key := "secret_key", leaf := .str, validator := .minLength 16 },
  { key := "token_expire_hours", leaf := .int (some 1) (some 168), default := some (.int 8) },
  { key := "rate_limit", leaf := .str, default := some (.str "200 per minute") },
  { key := "server", leaf := .str, default := some (.str "waitress"),
    validator := .oneOf ["waitress", "development"] },
  { key := "threads", leaf := .int (some 1) (some 32), default := some (.int 4) }]

def prometheusConfigSchema : List Field := [
  { key := "enabled", leaf := .bool, default := some (.bool true) },
  { key := "port", leaf := port, default := some (.int 9090) }]

/-- The field `kind` under its alias. -/
def alertingChannelSchema : List Field := [
  { key := "type", leaf := .str, default := some (.str ""),
    validator := .oneOf ["webhook", "wecom"] },
  { key := "webhook", leaf := .str, default := some (.str "") },
  { key := "secret", leaf := .str, default := some (.str "") }]

def alertingRuleSchema : List Field := [
  { key := "failed_files_threshold", leaf := .int (some 1) none, default := some (.int 10) },
  { key := "quality_score_min", leaf := .float 0 100, default := some (.float 80) },
  { key := "queue_size_max", leaf := .int (some 10) none, default := some (.int 400) }]

def alertingFields : List Field := [
  { key := "enabled", leaf := .bool, default := some (.bool false) }]

/-- A list of models; missing, it is empty. -/
def channelList (m : List (String × Val)) : Option (List (List (String × Val))) :=
  match m.lookup "channels" with
  | none => some []
  | some (.list l) => mapAll (validateModel P py alertingChannelSchema) l
  | some _ => none

def alertingConfigSchema (v : Val) : Option (List (String × Val)) := do
  let m ← v.asMap
  let fields ← validateFields P py alertingFields m
  let channels ← channelList P py m
  let rules ← optional P py alertingRuleSchema m "rules"
  some (fields ++ [("channels", .list (channels.map .map)), ("rules", .map rules)])

def monitoringConfigSchema (v : Val) : Option (List (String × Val)) := do
  let m ← v.asMap
  let prometheus ← optional P py prometheusConfigSchema m "prometheus"
  let alerting ← alertingConfigSchema P py ((m.lookup "alerting").getD (.map []))
  some [("prometheus", .map prometheus), ("alerting", .map alerting)]

def monitorConfigSchema : List Field := [
  { key := "folder_path", leaf := .str },
  { key := "file_extensions", leaf := .strings, validator := .nonEmpty },
  { key := "recursive", leaf := .bool, default := some (.bool false) },
  { key := "debounce_seconds", leaf := .float (1 / 2) 60, default := some (.float 3) },
  { key := "stability_check_interval", leaf := .float (1 / 2) 10, default := some (.float 1) },
  { key := "stability_check_count", leaf := .int (some 1) (some 10), default := some (.int 3) }]

def etlConfigSchema : List Field := [
  { key := "extractor", leaf := .str, validator := .oneOf ["csv", "json", "excel"] },
  { key := "encoding", leaf := .str, default := some (.str "auto") },
  { key := "batch_size", leaf := .int (some 1) (some 100000), default := some (.int 1000) },
  { key := "transformer_module", leaf := .str },
  { key := "transformer_function", leaf := .str },
  { key := "sandbox_timeout", leaf := .int (some 5) (some 300), default := some (.int 30) }]

def tableConfigSchema : List Field := [
  { key := "base_table", leaf := .str, validator := .name },
  { key := "partition_field", leaf := .str },
  { key := "partition_field_format", leaf := .str, default := some (.str "%Y-%m-%d") },
  { key := "create_table_template", leaf := .str },
  { key := "retention_months", leaf := .int (some 0) none, default := some (.int 0) },
  { key := "archive_old_tables", leaf := .bool, default := some (.bool true) }]

def errorHandlingConfigSchema : List Field := [
  { key := "max_retries", leaf := .int (some 0) (some 10), default := some (.int 3) },
  { key := "retry_backoff", leaf := .ints,
    default := some (.list [.int 5, .int 30, .int 120]) },
  { key := "dead_letter_dir", leaf := .str }]

def archiveConfigSchema : List Field := [
  { key := "mode", leaf := .str, default := some (.str "move"),
    validator := .oneOf ["keep", "move", "delete"] },
  { key := "archive_dir", leaf := .str, default := some (.str "") },
  { key := "compress_after_days", leaf := .int (some 0) none, default := some (.int 7) },
  { key := "cleanup_after_days", leaf := .int (some 0) none, default := some (.int 90) }]

def scheduleConfigSchema : List Field := [
  { key := "poll_interval", leaf := .int (some 0) (some 86400), default := some (.int 0) },
  { key := "poll_incremental", leaf := .bool, default := some (.bool true) }]

def taskFields : List Field := [
  { key := "task_id", leaf := .str, validator := .name },
  { key := "name", leaf := .str },
  { key := "enabled", leaf := .bool, default := some (.bool true) },
  { key := "priority", leaf := .int (some 1) (some 10), default := some (.int 5) }]

def taskConfigSchema (v : Val) : Option (List (String × Val)) := do
  let m ← v.asMap
  let fields ← validateFields P py taskFields m
  let monitor ← required P py monitorConfigSchema m "monitor"
  let etl ← required P py etlConfigSchema m "etl"
  let table ← required P py tableConfigSchema m "table"
  let errorHandling ← required P py errorHandlingConfigSchema m "error_handling"
  let archive ← optional P py archiveConfigSchema m "archive"
  let schedule ← optional P py scheduleConfigSchema m "schedule"
  some (fields ++ [("monitor", .map monitor), ("etl", .map etl), ("table", .map table),
    ("error_handling", .map errorHandling), ("archive", .map archive), ("schedule", .map schedule)])

/-- What `AppConfigSchema` produces, without `database`, which it takes as it is. -/
structure AppModel where
  service : List (String × Val)
  database : List (String × Val)
  concurrency : List (String × Val)
  highAvailability : List (String × Val)
  web : List (String × Val)
  monitoring : List (String × Val)
  tasks : List (List (String × Val))

def taskList (m : List (String × Val)) : Option (List (List (String × Val))) :=
  match m.lookup "tasks" with
  | some (.list l) => if l.isEmpty then none else mapAll (taskConfigSchema P py) l
  | _ => none

def appConfigSchema (v : Val) : Option AppModel := do
  let m ← v.asMap
  let service ← required P py serviceConfigSchema m "service"
  let database ← (m.lookup "database").bind Val.asMap
  let concurrency ← optional P py concurrencyConfigSchema m "concurrency"
  let highAvailability ← optional P py haConfigSchema m "high_availability"
  let web ← required P py webConfigSchema m "web"
  let monitoring ← monitoringConfigSchema P py ((m.lookup "monitoring").getD (.map []))
  let tasks ← taskList P py m
  some { service, database, concurrency, highAvailability, web, monitoring, tasks }

/-! ### `validate_config` -/

/-- The entries of the error list. -/
inductive ConfigError
  | app (text : String)
  | masterRequired
  | master (text : String)
  | slave (i : ℕ) (text : String)
  | haNeedsSlave
  | duplicateTaskId (ids : List Val.HashKey)

/-- The text of an entry; `repr` of a list of ids comes from outside. -/
def ConfigError.text (repr : List Val.HashKey → String) : ConfigError → String
  | .app text => text
  | .masterRequired => "database.master is required"
  | .master text => "database.master validation failed: " ++ text
  | .slave i text => "database.slaves[" ++ toString i ++ "] validation failed: " ++ text
  | .haNeedsSlave => "HA mode requires at least one slave (database.slaves)"
  | .duplicateTaskId ids => "Duplicate task_id: " ++ repr ids

/-- The checks on `database`: `master` and the slaves. -/
def databaseErrors (db : List (String × Val)) : Option (List ConfigError) := do
  let master := (db.lookup "master").getD (.map [])
  let slaves ← ((db.lookup "slaves").getD (.list [])).iter
  let masterErrors :=
    if !master.truthy then [.masterRequired]
    else if (validateModel P py databaseNodeSchema master).isNone then
      [.master (P.errorText "DatabaseNodeSchema" master)]
    else []
  let slaveErrors := slaves.zipIdx.filterMap fun p =>
    if (validateModel P py databaseNodeSchema p.1).isNone then
      some (.slave p.2 (P.errorText "DatabaseNodeSchema" p.1))
    else none
  some (masterErrors ++ slaveErrors)

/-- The ids that occur twice, each once, in the order of their first occurrences. -/
def duplicates (ids : List Val.HashKey) : List Val.HashKey :=
  ids.reverse.dedup.reverse.filter fun id => 1 < ids.count id

def validateConfig (raw : Val) : Option (List ConfigError) := do
  let appErrors :=
    if (appConfigSchema P py raw).isNone then [.app (P.errorText "AppConfigSchema" raw)] else []
  let m ← raw.asMap
  let db ← ((m.lookup "database").getD (.map [])).asMap
  let dbErrors ← databaseErrors P py db
  let ha ← ((m.lookup "high_availability").getD (.map [])).asMap
  let haErrors :=
    if ((ha.lookup "enabled").getD (.bool false)).truthy &&
        !((db.lookup "slaves").getD .null).truthy then [.haNeedsSlave]
    else []
  let tasks ← ((m.lookup "tasks").getD (.list [])).iter
  let ids ← mapAll (fun t => t.asMap.bind fun t => ((t.lookup "task_id").getD .null).hashKey) tasks
  let dupErrors := if duplicates ids = [] then [] else [.duplicateTaskId (duplicates ids)]
  some (appErrors ++ dbErrors ++ haErrors ++ dupErrors)

end Tdcs.ConfigValidator
