import Tdcs.ConfigModels
import Tdcs.PipelineResult
import Tdcs.Lib.Prog
import Mathlib.Logic.Function.Basic
import Mathlib.Data.List.Nodup

/-!
`TaskManager`: starting the tasks, and following a new configuration.

A task runs as a watcher and a scanner. Its start raises where its folder is missing, or where
watchdog or the scanner's thread raises; nothing in the loops of `start_all` and
`_on_config_changed` catches that, so a loop breaks off at the first such task.
-/

namespace Tdcs.TaskManager

open Tdcs.Lib

/-- The tasks of a validated configuration: no id occurs twice. -/
structure Tasks where
  tasks : List TaskConfig
  nodup : (tasks.map TaskConfig.taskId).Nodup

/-- `{t.task_id: t for t in tasks}.get(task_id)`. -/
def Tasks.get? (c : Tasks) (taskId : String) : Option TaskConfig :=
  c.tasks.find? fun t => t.taskId = taskId

/-- What the operating system and watchdog answer; the error of a start, if it raises one. -/
structure Os where
  isDir : String → Bool
  startError : TaskConfig → Option Exc

structure State where
  /-- The configuration each watcher was made with. -/
  watchers : String → Option TaskConfig
  scanners : String → Option TaskConfig
  /-- `WorkerPool._paused`. -/
  paused : String → Bool
  /-- The lines "Task started". -/
  started : List String

/-- Has a watcher or a scanner. -/
def State.running (s : State) (taskId : String) : Bool :=
  (s.watchers taskId).isSome || (s.scanners taskId).isSome

/-- `_stop_task_locked`. -/
def State.stop (s : State) (taskId : String) : State :=
  { s with
    watchers := Function.update s.watchers taskId none
    scanners := Function.update s.scanners taskId none }

/-- A watcher and a scanner are made, and the old ones stopped, if there are any. -/
def State.start (s : State) (taskId : String) (t : TaskConfig) : State :=
  { s with
    watchers := Function.update s.watchers taskId (some t)
    scanners := Function.update s.scanners taskId (some t)
    started := s.started ++ [taskId] }

def stopTask (taskId : String) : Prog State Exc Unit := Prog.update fun s => s.stop taskId

/-- `WorkerPool.resume_task`. -/
def resumeTask (taskId : String) : Prog State Exc Unit :=
  Prog.update fun s => { s with paused := Function.update s.paused taskId false }

variable (os : Os)

/-- `start_task`, `new` being the configuration the manager gives. A start that raises leaves no
watcher and no scanner. -/
def startTask (new : Tasks) (taskId : String) : Prog State Exc Unit :=
  match new.get? taskId with
  | none => Prog.ret ()
  | some t =>
    if !os.isDir t.monitorFolder then
      Prog.raise (.other "ValueError" ("监控目录不存在或不可访问: " ++ t.monitorFolder))
    else match os.startError t with
      | some e => (stopTask taskId).andThen fun _ => Prog.raise e
      | none => Prog.update fun s => s.start taskId t

/-- `start_all`. -/
def startAll (new : Tasks) : Prog State Exc Unit :=
  Prog.forEach (startTask os new) ((new.tasks.filter TaskConfig.enabled).map TaskConfig.taskId)

/-- The ids the last loop of `_on_config_changed` starts. -/
def newlyEnabled (new : Tasks) (runningIds : String → Bool) (removed : List String) :
    List String :=
  (new.tasks.filter fun t =>
    t.enabled && !runningIds t.taskId && !removed.contains t.taskId).map TaskConfig.taskId

/-- `_on_config_changed`, the two sets of ids given in the order they are gone through. -/
def onConfigChanged (new : Tasks) (removed changed : List String) : Prog State Exc Unit :=
  (Prog.read State.running).andThen fun runningIds =>
  (Prog.forEach (fun id => (stopTask id).andThen fun _ => resumeTask id) removed).andThen fun _ =>
  (Prog.forEach (fun id => (stopTask id).andThen fun _ => startTask os new id) changed).andThen
    fun _ => Prog.forEach (startTask os new) (newlyEnabled new runningIds removed)

end Tdcs.TaskManager
