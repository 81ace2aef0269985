import Tdcs.ConfigManager
import Tdcs.Lib.Dict

/-!
`config_api.py`: creating, updating and deleting a task in `config.yaml`.

A request reads the file without replacing the placeholders, changes its list of tasks, and
saves and reloads it. The changes come first, as functions on the document; the requests
follow, as programs over the file and the running configuration.
-/

namespace Tdcs.ConfigApi

open Tdcs.Lib Tdcs.ConfigValidator Tdcs.Config Tdcs.ConfigManager

abbrev Doc := List (String × Val)

/-! ### The form of a task -/

/-- `d.get(key, default)`. -/
def get (d : Doc) (key : String) (default : Val) : Val := (d.lookup key).getD default

/-- `d.update(updates)`. -/
def setAll (d updates : Doc) : Doc := updates.foldl (fun d p => Dict.put p.1 p.2 d) d

/-- `_build_task_dict`. -/
def buildTaskDict (data : Doc) : Doc := [
  ("task_id", get data "task_id" (.str "")),
  ("name", get data "name" (get data "task_id" (.str ""))),
  ("enabled", get data "enabled" (.bool true)),
  ("priority", get data "priority" (.int 1)),
  ("monitor", .map [
    ("folder_path", get data "monitor_folder" (.str ".")),
    ("file_extensions", get data "file_extensions" (.list [.str ".csv"])),
    ("recursive", get data "recursive" (.bool false)),
    ("debounce_seconds", get data "debounce_seconds" (.int 3)),
    ("stability_check_interval", get data "stability_check_interval" (.int 1)),
    ("stability_check_count", get data "stability_check_count" (.int 3))]),
  ("etl", .map [
    ("extractor", get data "extractor" (.str "csv")),
    ("encoding", get data "encoding" (.str "auto")),
    ("batch_size", get data "batch_size" (.int 1000)),
    ("transformer_module", get data "transformer_module" (.str "")),
    ("transformer_function", get data "transformer_function" (.str "")),
    ("sandbox_timeout", get data "sandbox_timeout" (.int 30))]),
  ("table", .map [
    ("base_table", get data "base_table" (.str "data")),
    ("partition_field", get data "partition_field" (.str "")),
    ("partition_field_format", get data "partition_field_format" (.str "%Y-%m-%d")),
    ("create_table_template", get data "create_table_template" (.str "")),
    ("retention_months", get data "retention_months" (.int 12)),
    ("archive_old_tables", get data "archive_old_tables" (.bool true))]),
  ("error_handling", .map [
    ("max_retries", get data "max_retries" (.int 3)),
    ("dead_letter_dir", get data "dead_letter_dir" (.str ""))]),
  ("archive", .map [
    ("mode", get data "archive_mode" (.str "keep")),
    ("archive_dir", get data "archive_dir" (.str "")),
    ("compress_after_days", get data "compress_after_days" (.int 0)),
    ("cleanup_after_days", get data "cleanup_after_days" (.int 0))]),
  ("schedule", .map [
    ("poll_interval", get data "poll_interval" (.int 60)),
    ("poll_incremental", get data "poll_incremental" (.bool true))])]

/-- `task.get(key) or {}`, used as a dictionary. -/
def sectionOf (task : Doc) (key : String) : Option Doc :=
  let v := get task key .null
  if v.truthy then v.asMap else some []

/-- `_flatten_task_for_builder`. -/
def flattenTaskForBuilder (task : Doc) : Option Doc := do
  let monitor ← sectionOf task "monitor"
  let etl ← sectionOf task "etl"
  let table ← sectionOf task "table"
  let errors ← sectionOf task "error_handling"
  let archive ← sectionOf task "archive"
  let schedule ← sectionOf task "schedule"
  some (setAll task [
    ("monitor_folder", get monitor "folder_path" (get task "monitor_folder" (.str "."))),
    ("file_extensions",
      get monitor "file_extensions" (get task "file_extensions" (.list [.str ".csv"]))),
    ("recursive", get monitor "recursive" (get task "recursive" (.bool false))),
    ("debounce_seconds", get monitor "debounce_seconds" (.int 3)),
    ("stability_check_interval", get monitor "stability_check_interval" (.int 1)),
    ("stability_check_count", get monitor "stability_check_count" (.int 3)),
    ("extractor", get etl "extractor" (get task "extractor" (.str "csv"))),
    ("encoding", get etl "encoding" (.str "auto")),
    ("batch_size", get etl "batch_size" (get task "batch_size" (.int 1000))),
    ("transformer_module", get etl "transformer_module" (.str "")),
    ("transformer_function", get etl "transformer_function" (.str "")),
    ("sandbox_timeout", get etl "sandbox_timeout" (.int 30)),
    ("base_table", get table "base_table" (get task "base_table" (.str "data"))),
    ("partition_field", get table "partition_field" (.str "")),
    ("partition_field_format", get table "partition_field_format" (.str "%Y-%m-%d")),
    ("create_table_template", get table "create_table_template" (.str "")),
    ("retention_months", get table "retention_months" (.int 12)),
    ("archive_old_tables", get table "archive_old_tables" (.bool true)),
    ("max_retries", get errors "max_retries" (get task "max_retries" (.int 3))),
    ("dead_letter_dir", get errors "dead_letter_dir" (.str "")),
    ("archive_mode", get archive "mode" (.str "keep")),
    ("archive_dir", get archive "archive_dir" (.str "")),
    ("compress_after_days", get archive "compress_after_days" (.int 0)),
    ("cleanup_after_days", get archive "cleanup_after_days" (.int 0)),
    ("poll_interval", get schedule "poll_interval" (get task "poll_interval" (.int 60))),
    ("poll_incremental", get schedule "poll_incremental" (.bool true))])

mutual

/-- `_deep_merge`. -/
def deepMerge (result : Doc) : Doc → Doc
  | [] => result
  | (key, value) :: updates =>
    deepMerge (Dict.put key (mergeValue (result.lookup key) value) result) updates

/-- What a key is set to: two dictionaries are merged. -/
def mergeValue (old : Option Val) : Val → Val
  | .map updates =>
    match old with
    | some (.map base) => .map (deepMerge base updates)
    | _ => .map updates
  | value => value

end

/-- `dict(v)` of a section: of a dictionary, or of an empty list or string. A value that is
true and no dictionary has been refused before. -/
def dictOf : Val → Option Doc
  | .map m => some m
  | .list [] | .str "" => some []
  | _ => none

/-- One section of the loop over `groups`. -/
def mergeSection (existing rebuilt : Doc) (result : Doc) (sec : String) : Option Doc :=
  (dictOf (get existing sec (.map []))).map fun base =>
    Dict.put sec (.map (deepMerge base ((get rebuilt sec (.map [])).asMap.getD []))) result

/-- `_merge_task_update`. -/
def mergeTaskUpdate (existing updates : Doc) : Option Doc := do
  let result := deepMerge existing updates
  let flat ← flattenTaskForBuilder existing
  let rebuilt := buildTaskDict (setAll flat updates)
  let result ← ["monitor", "etl", "table", "error_handling", "archive", "schedule"].foldlM
    (mergeSection existing rebuilt) result
  let result := ["task_id", "name", "enabled", "priority"].foldl (fun result key =>
    match updates.lookup key with
    | some v => Dict.put key v result
    | none => result) result
  some (Dict.put "task_id" (get existing "task_id" .null) result)

/-- `_validate_task_request`: the data, or a message. -/
def validateTaskRequest (data : Val) (taskId : Option String) : Except String Doc :=
  match data with
  | .map d =>
    let candidate := get d "task_id" (taskId.elim .null .str)
    let candidate := if candidate.truthy then candidate else .str ""
    let idOk := match candidate with
      | .str s => Pipeline.matchesNameRe s.toList
      | _ => false
    let nameOk := match d.lookup "name" with
      | none => true
      | some (.str s) => !(s.toList.all Pipeline.isSpace)
      | some _ => false
    if !idOk then .error "task_id 只能使用小写字母、数字和下划线，且必须以字母开头"
    else if !nameOk then .error "name 必须是非空字符串"
    else .ok d
  | _ => .error "请求体必须是 JSON 对象"

/-! ### The document -/

inductive Response
  | ok (taskId message : String)
  /-- The message, followed by the text of the exception, if there is one. -/
  | error (code message : String) (cause : Option Exc) (status : ℕ)
  /-- An exception that leaves the view, for which Flask answers 500. -/
  | raised
  deriving DecidableEq

def Response.isOk : Response → Bool
  | .ok _ _ => true
  | _ => false

/-- `t.get("task_id") == task_id`. -/
def hasId (taskId : String) (t : Doc) : Bool :=
  match t.lookup "task_id" with
  | some (.str s) => s == taskId
  | _ => false

/-- `cfg.get("tasks", [])`. -/
def tasksOf (cfg : Doc) : Val := get cfg "tasks" (.list [])

/-- The first task with the id and its index, if there is one; `none` where an element
before it is no dictionary. -/
def findTask (taskId : String) : List Val → Option (Option (ℕ × Doc))
  | [] => some none
  | v :: rest => v.asMap.bind fun t =>
    if hasId taskId t then some (some (0, t))
    else (findTask taskId rest).map fun r => r.map fun p => (p.1 + 1, p.2)

/-- `[t for t in tasks if ...]`, the condition on `t.get("task_id")`. -/
def filterTasks (keep : Doc → Bool) (tasks : List Val) : Option (List Val) :=
  (mapAll (fun v => v.asMap) tasks).map fun ts => (ts.filter keep).map .map

def createEdit (data : Doc) (taskId : String) (cfg : Doc) : Except Response Doc := do
  let some tasks := (tasksOf cfg).iter | .error .raised
  let some existing := filterTasks (hasId taskId) tasks | .error .raised
  if !existing.isEmpty then
    .error (.error "TASK_EXISTS" ("任务 '" ++ taskId ++ "' 已存在") none 409)
  else match tasksOf cfg with
    | .list l => .ok (Dict.put "tasks" (.list (l ++ [.map (buildTaskDict data)])) cfg)
    | _ => .error .raised

def updateEdit (data : Doc) (taskId : String) (cfg : Doc) : Except Response Doc := do
  let some tasks := (tasksOf cfg).iter | .error .raised
  match findTask taskId tasks with
  | none => .error .raised
  | some none => .error (.error "TASK_NOT_FOUND" ("任务 '" ++ taskId ++ "' 不存在") none 404)
  | some (some (idx, t)) =>
    match mergeTaskUpdate t data with
    | none => .error .raised
    | some updated => .ok (Dict.put "tasks" (.list (tasks.set idx (.map updated))) cfg)

def deleteEdit (taskId : String) (cfg : Doc) : Except Response Doc :=
  if taskId = "web_placeholder" then
    .error (.error "PROTECTED_TASK"
      "web_placeholder 是系统占位任务，不能删除；请先创建实际任务后再删除它" none 400)
  else match (tasksOf cfg).iter with
    | none => .error .raised
    | some tasks =>
      match filterTasks (fun t => !hasId taskId t) tasks with
      | none => .error .raised
      | some newTasks =>
        if newTasks.length = tasks.length then
          .error (.error "TASK_NOT_FOUND" ("任务 '" ++ taskId ++ "' 不存在") none 404)
        else .ok (Dict.put "tasks" (.list newTasks) cfg)

/-! ### The requests -/

variable (O : Outside)

/-- `_read_config_yaml`: the placeholders stay. -/
def readConfigYaml (content : Text) : Option Val :=
  (O.safeLoad content).map fun v => if v.truthy then v else .map []

/-- `_write_config_yaml`. -/
def writeConfigYaml (v : Val) : Prog State Exc Unit :=
  Prog.update fun s => { s with file := O.safeDump v }

/-- `_save_and_reload`. -/
def saveAndReload (cfg oldCfg : Val) : Prog State Exc Unit :=
  match validateConfig O.pydantic O.py cfg with
  | none => Prog.raise (O.validateError cfg)
  | some (e :: errors) => Prog.raise (.other "ValueError"
      ("配置校验失败: " ++ "; ".intercalate ((e :: errors).map (ConfigError.text O.repr))))
  | some [] => (writeConfigYaml O cfg).andThen fun _ =>
      (reload O).handle fun e =>
        (((writeConfigYaml O oldCfg).andThen fun _ => reload O).handle fun rollbackError =>
          Prog.raise (.other "RuntimeError" ("配置重载失败，且回滚失败: " ++ rollbackError.str)))
        |>.andThen fun _ => Prog.raise e

/-- `except ValueError`. -/
def isValueError (e : Exc) : Bool :=
  e.typeName ∈ ["ValueError", "UnicodeDecodeError", "UnicodeEncodeError"]

inductive Request
  /-- The bodies are `none` where they are no JSON. -/
  | create (body : Option Val)
  | update (taskId : String) (body : Option Val)
  | delete (taskId : String)

/-- `request.get_json(silent=True) or {}`. -/
def bodyOf (body : Option Val) : Val :=
  match body with
  | some v => if v.truthy then v else .map []
  | none => .map []

/-- `task_data.get("task_id", "").strip()`. The id has been validated. -/
def createdId (data : Doc) : String :=
  match get data "task_id" (.str "") with
  | .str s => s
  | _ => ""

/-- What a request does before it takes the lock: its change to the document, or an early
response. -/
def Request.change : Request → Except Response (Doc → Except Response Doc)
  | .create body =>
    match validateTaskRequest (bodyOf body) none with
    | .error message => .error (.error "INVALID_INPUT" message none 400)
    | .ok data => .ok (createEdit data (createdId data))
  | .update taskId body =>
    match validateTaskRequest (bodyOf body) (some taskId) with
    | .error message => .error (.error "INVALID_INPUT" message none 400)
    | .ok data =>
      match get data "task_id" (.str taskId) with
      | .str s =>
        if s = taskId then .ok (updateEdit data taskId)
        else .error (.error "TASK_ID_IMMUTABLE" "更新时不允许修改 task_id" none 400)
      | _ => .error (.error "TASK_ID_IMMUTABLE" "更新时不允许修改 task_id" none 400)
  | .delete taskId => .ok (deleteEdit taskId)

def Request.okResponse : Request → Response
  | .create body =>
    .ok (createdId ((bodyOf body).asMap.getD [])) "任务创建成功"
  | .update taskId _ => .ok taskId "任务更新成功"
  | .delete taskId => .ok taskId "任务已删除"

/-- The document as changed, and the old one, through YAML and back. -/
def Request.edit (req : Request) (content : Text) : Except Response (Val × Val) := do
  let change ← req.change
  let some cfg := readConfigYaml O content | .error .raised
  let some oldCfg := O.safeLoad (O.safeDump cfg) | .error .raised
  let some doc := cfg.asMap | .error .raised
  let new ← change doc
  .ok (.map new, oldCfg)

/-- `create_task`, `update_task` and `delete_task`, when nothing runs beside them. -/
def Request.run (req : Request) (s : State) : Response × State :=
  match req.edit O s.file with
  | .error r => (r, s)
  | .ok (new, oldCfg) =>
    match saveAndReload O new oldCfg s with
    | (.ok (), s') => (req.okResponse, s')
    | (.error e, s') =>
      if isValueError e then (.error "INVALID_CONFIG" "" (some e) 400, s')
      else (.error "CONFIG_RELOAD_FAILED" "配置重载失败，已回滚: " (some e) 500, s')

end Tdcs.ConfigApi
