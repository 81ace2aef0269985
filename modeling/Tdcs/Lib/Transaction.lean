import Mathlib.Tactic

/-!
How a transaction ends, as the program that began it sees it.

An exception leaves it open whether the transaction was carried out: the connection may be lost
after the commit has reached the server.
-/

namespace Tdcs.Lib.Transaction

inductive Outcome
  | done
  | raised (applied : Bool)
  deriving DecidableEq, Repr

/-- The state the transaction leaves that makes `s'` out of `s`. -/
def Outcome.commit {σ : Type*} (db : Outcome) (s s' : σ) : σ :=
  match db with
  | .raised false => s
  | _ => s'

/-- What a caller answers, where `e` stands for an exception. -/
def Outcome.answer {ρ : Type*} (db : Outcome) (r e : ρ) : ρ :=
  match db with
  | .done => r
  | .raised _ => e

end Tdcs.Lib.Transaction
