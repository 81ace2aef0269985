import Tdcs.PipelineCalls

/-!
Transient errors of the database, and the calls whose errors `_load_with_retry` looks at.
-/

namespace Tdcs.Pipeline

open Tdcs.Lib Tdcs.Extractor

/-- An error of the driver with its code: wrapped by SQLAlchemy, which keeps the code, or as the
driver raises it, with the code and the message in its text. -/
inductive MySqlError (code : ℕ) : Exc → Prop
  | wrapped (name msg : String) : MySqlError code (.other name msg (some code))
  | raw (name msg : String) :
      MySqlError code (.other name ("(" ++ toString code ++ ", '" ++ msg ++ "')"))

/-- An error of the driver whose code is one of `_MYSQL_RETRYABLE_ERRCODE`. -/
def TransientError (e : Exc) : Prop := ∃ code ∈ retryableErrcodes, MySqlError code e

variable {V : Type*} {w : World V} {cfg : TaskConfig} {file : FileView V} {s : State V}

/-- An error of the driver leads to a retry where it comes from below `_load_with_retry` and is
recognised there. -/
lemma retry_surface_iff {e : Exc} (he : TransientError e) (k : Site) :
    (outcome (.error (k.surface e))).1 = .retry ↔
      (∃ table, k = .load table) ∧ isTransient e = true := by
  obtain ⟨code, -, he⟩ := he
  cases k with
  | bare => cases he <;> simp [Site.surface, outcome]
  | load table =>
    unfold Site.surface
    dsimp only
    split_ifs with ht
    · simp [outcome, ht]
    · simp [outcome, ht]

/-- **Which transient errors are retried.** A call to the database that raises an error of the
driver makes the run one to retry exactly if it is a call of `load_batch` and the error is
recognised. -/
theorem retry_iff {n : ℕ} {e : Exc} {applied : Bool} (he : TransientError e)
    (hmade : s.dbCalls ≤ n ∧ n < (execute w cfg file s).2.dbCalls)
    (hraise : w.db n = .raise e applied) :
    (execute w cfg file s).1.status = .retry ↔
      (∃ table, (callPlan w cfg file s)[n - s.dbCalls]? = some (.load table)) ∧
        isTransient e = true := by
  have hcalls : DbCalls w (fun _ => True) _ (zeroed s) (callPlan w cfg file s) _ _ :=
    calls_loop ownErrors_true
  have hraised : (database w).raised n = some e := by simp [database, hraise]
  have hstate : (execute w cfg file s).2 = (Prog.forEach (turn w cfg)
      (stream w.ops file cfg).batches.zipIdx (zeroed s)).2 := by
    rcases h : (Prog.forEach (turn w cfg) (stream w.ops file cfg).batches.zipIdx (zeroed s)).1
      with e' | u
    · exact (status_of_loop_error h).2
    · exact (status_of_loop_ok h).2
  rw [hstate] at hmade
  obtain ⟨k, hk, herr⟩ := hcalls.error_of_raised hmade.1 hmade.2 hraised
  have hk' : (callPlan w cfg file s)[n - s.dbCalls]? = some k := hk
  have hstatus : (execute w cfg file s).1.status = (outcome (.error (k.surface e))).1 :=
    (status_of_loop_error herr).1
  rw [hstatus, retry_surface_iff he, hk']
  simp

/-- A database whose call of the given number deadlocks. -/
def deadlocksAt (n : ℕ) : World String := { smallWorld with
  db m := if m = n then .raise (.other "OperationalError"
    "(pymysql.err.OperationalError) (1213, 'Deadlock found when trying to get lock')" (some 1213))
    false else .ok 1 }

/-- Once the table has been seen to and the connection is there, the first statement deadlocks. -/
theorem retry_iff_deadlockAtLoad :
    (execute (deadlocksAt 4) smallTask smallFile {}).1.status = .retry ↔
      (∃ table, (callPlan (deadlocksAt 4) smallTask smallFile {})[4]? = some (.load table)) ∧
        isTransient (.other "OperationalError"
          "(pymysql.err.OperationalError) (1213, 'Deadlock found when trying to get lock')"
          (some 1213)) = true :=
  retry_iff ⟨1213, by decide, .wrapped _ _⟩ ⟨by decide, by decide +kernel⟩ rfl

/-- A deadlock while the table is created makes the run fail. -/
theorem not_retry_deadlockAtCreate :
    ¬ ∀ (w : World String) (cfg : TaskConfig) (file : FileView String) (s : State String) (n : ℕ)
      (e : Exc) (applied : Bool), TransientError e →
      s.dbCalls ≤ n ∧ n < (execute w cfg file s).2.dbCalls → w.db n = .raise e applied →
      (execute w cfg file s).1.status = .retry := by
  intro h
  have hretry := h (deadlocksAt 0) smallTask smallFile {} 0 _ _ ⟨1213, by decide, .wrapped _ _⟩
    ⟨by decide, by decide +kernel⟩ rfl
  revert hretry
  decide +kernel

end Tdcs.Pipeline
