import Tdcs.ProcessedFileRepo
import Tdcs.PipelineResult

/-!
`FileProcessor.__call__`, cut at its calls.

A control point names the call that comes next, with the values the rest of the body
still needs; `resume` takes the answer of that call, or the exception it raised, to the
next control point. Between two calls the body computes nothing else, so the control
points are the places where other threads can run in between.
-/

namespace Tdcs.FileProcessor

open Tdcs.ProcessedFileRepo

/-- Which of the optional collaborators are there. -/
structure Deps where
  alerter : Bool := true
  taskManager : Bool := true

inductive Pc
  | getTask
  | tryClaim (maxRetries : ℕ)
  | markProcessing (maxRetries : ℕ)
  | execute (maxRetries : ℕ)
  | markUnhandled (msg : String)
  | unhandledFailure
  | markSuccess (result : PipelineResult)
  | saveQuality (result : PipelineResult) (fileId : ℕ)
  | checkQualityAlert (result : PipelineResult)
  | archiveAfterSuccess
  | markArchived (archivePath : String)
  | recordSuccess
  | markSkipped (reason : String)
  | markRetry (maxRetries : ℕ) (result : PipelineResult)
  | retryToDeadLetter
  | notifyDeadLetter
  | markFatal (result : PipelineResult)
  | recordFailure (result : PipelineResult)
  | fatalToDeadLetter (result : PipelineResult)
  | notifyPipelineFailure (result : PipelineResult)
  /-- The body has returned. -/
  | done
  /-- The exception has left the body. -/
  | raised (e : Exc)
  deriving DecidableEq, Repr

inductive Answer
  /-- `get_task`: the task's `max_retries`, or no such task. -/
  | task (maxRetries : Option ℕ)
  | db (reply : Reply)
  | result (r : PipelineResult)
  /-- `archive_after_success`. -/
  | path (archivePath : String)
  | unit
  | exc (e : Exc)
  deriving DecidableEq, Repr

def Answer.isExc : Answer → Bool
  | .exc _ => true
  | _ => false

/-- The branches on `result.status`. -/
def dispatch (maxRetries : ℕ) (result : PipelineResult) : Pc :=
  match result.status with
  | .success => .markSuccess result
  | .skipped => .markSkipped result.errorStr
  | .retry => .markRetry maxRetries result
  | .failed => .markFatal result

/-- Where an exception of the pending call leads: only `execute` and the quality report
stand inside a `try`. -/
def onRaise (e : Exc) : Pc → Pc
  | .execute _ => .markUnhandled e.str
  | .saveQuality _ _ | .checkQualityAlert _ => .archiveAfterSuccess
  | .done => .done
  | .raised e' => .raised e'
  | _ => .raised e

def afterRetry (deps : Deps) : Pc :=
  if deps.taskManager then .retryToDeadLetter
  else if deps.alerter then .notifyDeadLetter else .done

def afterFailure (deps : Deps) (result : PipelineResult) : Pc :=
  if deps.taskManager then .fatalToDeadLetter result
  else if deps.alerter then .notifyPipelineFailure result else .done

/-- The control point after the pending call has answered. An answer the call cannot give
leaves the body where it is. -/
def resume (deps : Deps) : Pc → Answer → Pc
  | pc, .exc e => onRaise e pc
  | .getTask, .task none => .done
  | .getTask, .task (some maxRetries) => .tryClaim maxRetries
  | .tryClaim maxRetries, .db (.granted b) => if b then .markProcessing maxRetries else .done
  | .markProcessing maxRetries, .db (.granted b) => if b then .execute maxRetries else .done
  | .execute maxRetries, .result r => dispatch maxRetries r
  | .markUnhandled _, .db (.retryCount _) => .unhandledFailure
  | .unhandledFailure, .unit => .done
  | .markSuccess r, .db (.fileId n) =>
    if r.qualityReport.isSome then .saveQuality r n else .archiveAfterSuccess
  | .saveQuality r _, .unit =>
    if deps.alerter then .checkQualityAlert r else .archiveAfterSuccess
  | .checkQualityAlert _, .unit => .archiveAfterSuccess
  | .archiveAfterSuccess, .path p => if p = "" then .recordSuccess else .markArchived p
  | .markArchived _, .db .unit => .recordSuccess
  | .recordSuccess, .unit => .done
  | .markSkipped _, .db .unit => .done
  | .markRetry maxRetries _, .db (.retryCount n) =>
    if maxRetries ≤ n then afterRetry deps else .done
  | .retryToDeadLetter, .unit => if deps.alerter then .notifyDeadLetter else .done
  | .notifyDeadLetter, .unit => .done
  | .markFatal r, .db (.retryCount _) => .recordFailure r
  | .recordFailure r, .unit => afterFailure deps r
  | .fatalToDeadLetter r, .unit => if deps.alerter then .notifyPipelineFailure r else .done
  | .notifyPipelineFailure _, .unit => .done
  | pc, _ => pc

/-- The repository method a control point calls, if it calls one. -/
def Pc.dbCall : Pc → Option Call
  | .tryClaim maxRetries => some (.tryClaim maxRetries)
  | .markProcessing _ => some .markProcessing
  | .markUnhandled msg => some (.markFailed "UnhandledError" msg)
  | .markSuccess r => some (.markSuccess r.rawCount r.validCount r.elapsedMs)
  | .markArchived p => some (.markArchived p)
  | .markSkipped reason => some (.markSkipped reason)
  | .markRetry _ r => some (.markFailed r.errorType r.errorStr)
  | .markFatal r => some (.markFailed r.errorType r.errorStr)
  | _ => none

/-- Where the run stands with respect to its claim: `idle` before the claim and after the
terminal mark, `claimed` between the claim and `mark_processing`, `processing` between
`mark_processing` returning `True` and the terminal mark. -/
inductive Phase | idle | claimed | processing
  deriving DecidableEq, Repr

def Pc.phase : Pc → Phase
  | .markProcessing _ => .claimed
  | .execute _ | .markUnhandled _ | .markSuccess _ | .markSkipped _ | .markRetry _ _
  | .markFatal _ => .processing
  | _ => .idle

/-- The status a row has while a run is in the phase. -/
def Phase.status : Phase → Status
  | .claimed => .claimed
  | _ => .processing

/-- The methods that end a run's processing. -/
def terminalMark : Call → Bool
  | .markSuccess _ _ _ | .markFailed _ _ | .markSkipped _ => true
  | _ => false

lemma phase_dispatch (maxRetries : ℕ) (r : PipelineResult) :
    (dispatch maxRetries r).phase = .processing := by
  unfold dispatch
  cases r.status <;> rfl

lemma phase_afterFailure (deps : Deps) (r : PipelineResult) :
    (afterFailure deps r).phase = .idle := by
  unfold afterFailure
  split_ifs <;> rfl

lemma phase_onRaise (e : Exc) (pc : Pc) :
    (onRaise e pc).phase = .idle ∨ (onRaise e pc).phase = pc.phase := by
  cases pc <;> simp [onRaise, Pc.phase]

lemma phase_resume (deps : Deps) {pc : Pc} {a : Answer}
    (h : pc.dbCall = none ∨ a.isExc = true) :
    (resume deps pc a).phase = .idle ∨ (resume deps pc a).phase = pc.phase := by
  fun_cases resume deps pc a
  all_goals first
    | exact phase_onRaise _ _
    | exact Or.inr (phase_dispatch _ _)
    | exact Or.inl (phase_afterFailure _ _)
    | simp_all [Pc.dbCall, Answer.isExc, Pc.phase]

end Tdcs.FileProcessor
