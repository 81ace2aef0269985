import Tdcs.Yaml

/-!
`ConfigManager._build`: the configuration from the raw dictionary.

A frozen dataclass is the list of its fields with their values; the builder copies most of
them from a key of a section, with a default of its own, and a table says which. `none`
stands for a raised exception.
-/

namespace Tdcs.Config

/-- A field of a dataclass, the key it is read from, and the default of `get`, without which
the key is required. A `tuple` field is converted. -/
structure Slot where
  field : String
  key : String
  default : Option Val := none
  tuple : Bool := false

abbrev Record := List (String × Val)

/-- `tuple(v)` for a tuple field. -/
def Slot.convert (s : Slot) (v : Val) : Option Val :=
  if s.tuple then v.iter.map .list else some v

/-- `d[key]` or `d.get(key, default)`. -/
def Slot.read (s : Slot) (d : List (String × Val)) : Option Val :=
  ((d.lookup s.key).or s.default).bind s.convert

def readSlots (slots : List Slot) (d : List (String × Val)) : Option Record :=
  mapAll (fun s => (s.read d).map fun v => (s.field, v)) slots

/-- `d[key]`, used as a dictionary. -/
def section! (d : List (String × Val)) (key : String) : Option (List (String × Val)) :=
  (d.lookup key).bind Val.asMap

/-- `d.get(key, {})`, used as a dictionary. -/
def section? (d : List (String × Val)) (key : String) : Option (List (String × Val)) :=
  ((d.lookup key).getD (.map [])).asMap

/-! ### The sections -/

def serviceSlots : List Slot := [
  { field := "log_level", key := "log_level", default := some (.str "INFO") }]

def databaseSlots : List Slot := [
  { field := "db_master_pool_size", key := "pool_size", default := some (.int 5) },
  { field := "db_master_pool_timeout", key := "pool_timeout", default := some (.int 30) },
  { field := "db_master_pool_recycle", key := "pool_recycle", default := some (.int 3600) },
  { field := "db_master_connect_timeout", key := "connect_timeout", default := some (.int 10) }]

def concurrencySlots : List Slot := [
  { field := "worker_threads", key := "worker_threads", default := some (.int 4) },
  { field := "queue_maxsize", key := "queue_maxsize", default := some (.int 500) },
  { field := "task_timeout", key := "task_timeout", default := some (.int 300) }]

def haSlots : List Slot := [
  { field := "enabled", key := "enabled", default := some (.bool false) },
  { field := "heartbeat_interval", key := "heartbeat_interval", default := some (.int 10) },
  { field := "failover_timeout", key := "failover_timeout", default := some (.int 30) },
  { field := "degraded_mode", key := "degraded_mode", default := some (.str "pause") }]

def webSlots : List Slot := [
  { field := "enabled", key := "enabled", default := some (.bool true) },
  { field := "host", key := "host", default := some (.str "127.0.0.1") },
  { field := "port", key := "port", default := some (.int 8080) },
  { field := "secret_key", key := "secret_key" },
  { field := "token_expire_hours", key := "token_expire_hours", default := some (.int 8) },
  { field := "rate_limit", key := "rate_limit", default := some (.str "200 per minute") },
  { field := "server", key := "server", default := some (.str "waitress") },
  { field := "threads", key := "threads", default := some (.int 4) }]

def prometheusSlots : List Slot := [
  { field := "enabled", key := "enabled", default := some (.bool true) },
  { field := "port", key := "port", default := some (.int 9090) }]

def channelSlots : List Slot := [
  { field := "type", key := "type", default := some (.str "webhook") },
  { field := "webhook", key := "webhook", default := some (.str "") },
  { field := "secret", key := "secret", default := some (.str "") }]

def ruleSlots : List Slot := [
  { field := "failed_files_threshold", key := "failed_files_threshold",
    default := some (.int 10) },
  { field := "quality_score_min", key := "quality_score_min", default := some (.float 80) },
  { field := "queue_size_max", key := "queue_size_max", default := some (.int 400) }]

def alertingSlots : List Slot := [
  { field := "enabled", key := "enabled", default := some (.bool false) }]

def taskSlots : List Slot := [
  { field := "task_id", key := "task_id" },
  { field := "name", key := "name" },
  { field := "enabled", key := "enabled", default := some (.bool true) },
  { field := "priority", key := "priority", default := some (.int 5) }]

def monitorSlots : List Slot := [
  { field := "monitor_folder", key := "folder_path" },
  { field := "file_extensions", key := "file_extensions", default := some (.list []),
    tuple := true },
  { field := "recursive", key := "recursive", default := some (.bool false) },
  { field := "debounce_seconds", key := "debounce_seconds", default := some (.int 3) },
  { field := "stability_check_interval", key := "stability_check_interval",
    default := some (.int 1) },
  { field := "stability_check_count", key := "stability_check_count",
    default := some (.int 3) }]

def etlSlots : List Slot := [
  { field := "extractor", key := "extractor", default := some (.str "csv") },
  { field := "encoding", key := "encoding", default := some (.str "auto") },
  { field := "batch_size", key := "batch_size", default := some (.int 1000) },
  { field := "transformer_module", key := "transformer_module" },
  { field := "transformer_function", key := "transformer_function" },
  { field := "sandbox_timeout", key := "sandbox_timeout", default := some (.int 30) }]

def tableSlots : List Slot := [
  { field := "base_table", key := "base_table" },
  { field := "partition_field", key := "partition_field" },
  { field := "partition_field_format", key := "partition_field_format",
    default := some (.str "%Y-%m-%d") },
  { field := "create_table_template", key := "create_table_template", default := some (.str "") },
  { field := "retention_months", key := "retention_months", default := some (.int 0) },
  { field := "archive_old_tables", key := "archive_old_tables", default := some (.bool true) }]

def errorHandlingSlots : List Slot := [
  { field := "max_retries", key := "max_retries", default := some (.int 3) },
  { field := "retry_backoff", key := "retry_backoff",
    default := some (.list [.int 5, .int 30, .int 120]), tuple := true },
  { field := "dead_letter_dir", key := "dead_letter_dir", default := some (.str "") }]

def archiveSlots : List Slot := [
  { field := "archive_mode", key := "mode", default := some (.str "move") },
  { field := "archive_dir", key := "archive_dir", default := some (.str "") },
  { field := "compress_after_days", key := "compress_after_days", default := some (.int 7) },
  { field := "cleanup_after_days", key := "cleanup_after_days", default := some (.int 90) }]

def scheduleSlots : List Slot := [
  { field := "poll_interval", key := "poll_interval", default := some (.int 0) },
  { field := "poll_incremental", key := "poll_incremental", default := some (.bool true) }]

/-! ### Building -/

/-- What `_resolve_instance_id` asks the host for. -/
structure Host where
  hostname : String
  pid : ℕ

def resolveInstanceId (host : Host) : Val → Option String
  | .str template =>
    some ((template.replace "${HOSTNAME}" host.hostname).replace "${PID}" (toString host.pid))
  | _ => none

def hexDigit (n : ℕ) : Char := Char.ofNat (if n < 10 then 48 + n else 55 + n)

def isUnreserved (b : UInt8) : Bool :=
  let n := b.toNat
  (48 ≤ n && n ≤ 57) || (65 ≤ n && n ≤ 90) || (97 ≤ n && n ≤ 122) || n = 95 || n = 46 ||
    n = 45 || n = 126

/-- `urllib.parse.quote(v, safe="")` of a string. -/
def quote : Val → Option String
  | .str s => some (String.ofList (s.toUTF8.toList.flatMap fun b =>
      if isUnreserved b then [Char.ofNat b.toNat]
      else ['%', hexDigit (b.toNat / 16), hexDigit (b.toNat % 16)]))
  | _ => none

/-- A value that is concatenated with strings. -/
def text : Val → Option String
  | .str s => some s
  | _ => none

variable (py : PyText) (host : Host)

def dsnText (user password dbHost port database : String) : String :=
  "mysql+pymysql://" ++ user ++ ":" ++ password ++ "@" ++ dbHost ++ ":" ++ port ++ "/" ++
    database ++ "?charset=utf8mb4"

def buildDsn (db : List (String × Val)) : Option String := do
  let user ← (db.lookup "user").bind quote
  let password ← (db.lookup "password").bind quote
  let dbHost ← (db.lookup "host").bind text
  let database ← (db.lookup "database").bind text
  some (dsnText user password dbHost (py.str ((db.lookup "port").getD (.int 3306))) database)

structure Monitoring where
  prometheus : Record
  alerting : Record
  channels : List Record
  rules : Record

def buildMonitoring (raw : List (String × Val)) : Option Monitoring := do
  let pr ← section? raw "prometheus"
  let ar ← section? raw "alerting"
  let ru ← section? ar "rules"
  let chs ← ((ar.lookup "channels").getD (.list [])).iter
  let channels ← mapAll (fun c => c.asMap.bind (readSlots channelSlots)) chs
  let prometheus ← readSlots prometheusSlots pr
  let alerting ← readSlots alertingSlots ar
  let rules ← readSlots ruleSlots ru
  some { prometheus, alerting, channels, rules }

/-- The fields of `TaskConfig`, by the section they are read from. -/
structure TaskRecord where
  task : Record
  monitor : Record
  etl : Record
  table : Record
  errorHandling : Record
  archive : Record
  schedule : Record

/-- `_build_task`. -/
def buildTask (t : List (String × Val)) : Option TaskRecord := do
  let m ← section! t "monitor"
  let e ← section! t "etl"
  let tb ← section! t "table"
  let eh ← section! t "error_handling"
  let ar ← section? t "archive"
  let sc ← section? t "schedule"
  let task ← readSlots taskSlots t
  let monitor ← readSlots monitorSlots m
  let etl ← readSlots etlSlots e
  let table ← readSlots tableSlots tb
  let errorHandling ← readSlots errorHandlingSlots eh
  let archive ← readSlots archiveSlots ar
  let schedule ← readSlots scheduleSlots sc
  some { task, monitor, etl, table, errorHandling, archive, schedule }

structure AppConfig where
  instanceId : String
  logLevel : Record
  dbMasterDsn : String
  dbMaster : Record
  dbSlaveDsns : List String
  concurrency : Record
  ha : Record
  web : Record
  monitoring : Monitoring
  tasks : List TaskRecord

/-- `_build`. -/
def build (raw : Val) : Option AppConfig := do
  let raw ← raw.asMap
  let svc ← section! raw "service"
  let db ← section! raw "database"
  let cc ← section? raw "concurrency"
  let ha ← section? raw "high_availability"
  let web ← section? raw "web"
  let mon ← section? raw "monitoring"
  let instanceId ← (svc.lookup "instance_id").bind (resolveInstanceId host)
  let logLevel ← readSlots serviceSlots svc
  let master ← section! db "master"
  let dbMasterDsn ← buildDsn py master
  let dbMaster ← readSlots databaseSlots master
  let slaves ← ((db.lookup "slaves").getD (.list [])).iter
  let dbSlaveDsns ← mapAll (fun s => s.asMap.bind (buildDsn py)) slaves
  let concurrency ← readSlots concurrencySlots cc
  let ha ← readSlots haSlots ha
  let web ← readSlots webSlots web
  let monitoring ← buildMonitoring mon
  let tasks ← ((raw.lookup "tasks").getD (.list [])).iter
  let tasks ← mapAll (fun t => t.asMap.bind buildTask) tasks
  some { instanceId, logLevel, dbMasterDsn, dbMaster, dbSlaveDsns, concurrency, ha, web,
         monitoring, tasks }

end Tdcs.Config
