import Mathlib.Data.Nat.Notation
import Mathlib.Data.Int.Notation

/-!
The exceptions of the service and the result `ETLPipeline.execute` returns.
-/

namespace Tdcs

/-- The exception classes of `core/exceptions.py` that the modelled code tells apart, and
every other class by its name; `errno` is the driver's error code where the class is one
of SQLAlchemy's `OperationalError` and `InternalError`. -/
inductive Exc
  | retryable (msg : String)
  | fatal (msg : String)
  | sandbox (msg : String)
  | skipFile (msg : String)
  | configValidation (msg : String)
  | other (name msg : String) (errno : Option ℕ := none)
  deriving DecidableEq, Repr

/-- `type(e).__name__`. -/
def Exc.typeName : Exc → String
  | .retryable _ => "RetryableError"
  | .fatal _ => "FatalError"
  | .sandbox _ => "SandboxError"
  | .skipFile _ => "SkipFileError"
  | .configValidation _ => "ConfigValidationError"
  | .other name _ _ => name

/-- `str(e)`. -/
def Exc.str : Exc → String
  | .retryable m | .fatal m | .sandbox m | .skipFile m | .configValidation m
  | .other _ m _ => m

/-- `isinstance(e, FatalError)`: a `SandboxError` is one. -/
def Exc.isFatal : Exc → Bool
  | .fatal _ | .sandbox _ => true
  | _ => false

/-- `isinstance(e, SkipFileError)`. -/
def Exc.isSkipFile : Exc → Bool
  | .skipFile _ => true
  | _ => false

/-- The driver's error code, where `_load_with_retry` finds one. -/
def Exc.errno : Exc → Option ℕ
  | .other _ _ n => n
  | _ => none

inductive PipelineStatus | success | failed | skipped | retry
  deriving DecidableEq, Repr

/-- The counts of a `QualityReport`. -/
structure QualityReport where
  totalRows : ℕ
  validRows : ℤ
  errorRows : ℕ
  deriving DecidableEq, Repr

structure PipelineResult where
  status : PipelineStatus
  rawCount : ℕ := 0
  validCount : ℕ := 0
  errorCount : ℤ := 0
  elapsedMs : ℕ := 0
  error : Option Exc := none
  qualityReport : Option QualityReport := none
  deriving DecidableEq, Repr

/-- `type(result.error).__name__`. -/
def PipelineResult.errorType (r : PipelineResult) : String :=
  (r.error.map Exc.typeName).getD "NoneType"

/-- `str(result.error)`. -/
def PipelineResult.errorStr (r : PipelineResult) : String := (r.error.map Exc.str).getD "None"

end Tdcs
