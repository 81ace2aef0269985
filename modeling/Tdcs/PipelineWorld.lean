import Tdcs.Lib.Prog
import Tdcs.Extractor

/-!
What a run of the pipeline reads from the outside and what it leaves there.

Calls to the database, to the sandbox and to the clock are numbered, and the outside
answers the `n`-th of each as it likes. The state keeps the statements sent, the loads
committed and the counters of `execute`.
-/

namespace Tdcs.Pipeline

open Tdcs.Lib Tdcs.Extractor

/-- One `executemany`: the table and the columns of its SQL text, and its tuples. -/
structure Statement (V : Type*) where
  table : String
  columns : List (Option String)
  chunk : List (List (Option V))

/-- One committed `load_batch`. -/
structure Load (V : Type*) where
  table : String
  rows : List (Row V)

/-- A call returns a row count, or raises; a commit that raises may have been carried out. -/
inductive DbAnswer
  | ok (rowcount : ℕ)
  | raise (e : Exc) (applied : Bool)

structure World (V : Type*) where
  ops : ValueOps V
  /-- `datetime.strptime(value, fmt).strftime("%Y%m")`, by `fmt` and `value`. -/
  strptimeYm : String → String → Option String
  /-- `datetime.now().strftime("%Y%m")`. -/
  now : ℕ → String
  db : ℕ → DbAnswer
  /-- `transform_batch` on the batch of the given number. -/
  sandbox : ℕ → List (Item V) → Except Exc (List (Item V))
  elapsedMs : ℕ

structure State (V : Type*) where
  dbCalls : ℕ := 0
  clockReads : ℕ := 0
  /-- The tables `ensure_table_exists` has seen to. -/
  created : List String := []
  sent : List (Statement V) := []
  committed : List (Load V) := []
  rawCount : ℕ := 0
  validCount : ℕ := 0
  errorCount : ℤ := 0
  errorRows : List (Row V) := []

variable {V : Type*} (w : World V)

/-- A call to the database that sends no rows. -/
def dbCall : Prog (State V) Exc ℕ := fun s =>
  let s' := { s with dbCalls := s.dbCalls + 1 }
  match w.db s.dbCalls with
  | .ok n => (.ok n, s')
  | .raise e _ => (.error e, s')

def executemany (stmt : Statement V) : Prog (State V) Exc ℕ := fun s =>
  let s' := { s with dbCalls := s.dbCalls + 1, sent := s.sent ++ [stmt] }
  match w.db s.dbCalls with
  | .ok n => (.ok n, s')
  | .raise e _ => (.error e, s')

/-- `raw.commit()` behind the statements of one load. -/
def commit (load : Load V) : Prog (State V) Exc Unit := fun s =>
  let s' := { s with dbCalls := s.dbCalls + 1 }
  let done := { s' with committed := s.committed ++ [load] }
  match w.db s.dbCalls with
  | .ok _ => (.ok (), done)
  | .raise e applied => (.error e, if applied then done else s')

section frames

variable (stmt : Statement V) (load : Load V) (s : State V)

@[simp] lemma dbCall_snd : (dbCall w s).2 = { s with dbCalls := s.dbCalls + 1 } := by
  unfold dbCall
  cases w.db s.dbCalls <;> rfl

@[simp] lemma executemany_snd : (executemany w stmt s).2 =
    { s with dbCalls := s.dbCalls + 1, sent := s.sent ++ [stmt] } := by
  unfold executemany
  cases w.db s.dbCalls <;> rfl

@[simp] lemma commit_sent : (commit w load s).2.sent = s.sent := by
  unfold commit
  rcases w.db s.dbCalls with n | ⟨e, _ | _⟩ <;> rfl

@[simp] lemma commit_clockReads : (commit w load s).2.clockReads = s.clockReads := by
  unfold commit
  rcases w.db s.dbCalls with n | ⟨e, _ | _⟩ <;> rfl

lemma commit_committed_of_ok (h : (commit w load s).1 = .ok ()) :
    (commit w load s).2.committed = s.committed ++ [load] := by
  revert h
  unfold commit
  rcases w.db s.dbCalls with n | ⟨e, applied⟩
  · exact fun _ => rfl
  · exact fun h => by cases h

lemma commit_committed : (commit w load s).2.committed = s.committed ∨
    (commit w load s).2.committed = s.committed ++ [load] := by
  unfold commit
  rcases w.db s.dbCalls with n | ⟨e, _ | _⟩
  · exact Or.inr rfl
  · exact Or.inl rfl
  · exact Or.inr rfl

end frames

end Tdcs.Pipeline
