import Mathlib.Data.Int.Notation
import Mathlib.Data.Nat.Notation
import Mathlib.Data.Rat.Init

/-!
`TaskConfig`, the immutable configuration of one task.
-/

namespace Tdcs

inductive ExtractorKind | csv | json | excel
  deriving DecidableEq, Repr

inductive ArchiveMode | keep | move | delete
  deriving DecidableEq, Repr

/-- The dataclass `TaskConfig`; the defaults are the ones `_build_task` fills in. -/
structure TaskConfig where
  taskId : String
  name : String
  enabled : Bool := true
  priority : ℤ := 5
  monitorFolder : String
  fileExtensions : List String
  recursive : Bool := false
  debounceSeconds : ℚ := 3
  stabilityCheckInterval : ℚ := 1
  stabilityCheckCount : ℤ := 3
  extractor : ExtractorKind := .csv
  encoding : String := "auto"
  batchSize : ℤ := 1000
  transformerModule : String
  transformerFunction : String
  sandboxTimeout : ℤ := 30
  baseTable : String
  partitionField : String
  partitionFieldFormat : String := "%Y-%m-%d"
  createTableTemplate : String := ""
  retentionMonths : ℤ := 0
  archiveOldTables : Bool := true
  maxRetries : ℕ := 3
  retryBackoff : List ℤ := [5, 30, 120]
  deadLetterDir : String := ""
  archiveMode : ArchiveMode := .move
  archiveDir : String := ""
  compressAfterDays : ℤ := 7
  cleanupAfterDays : ℤ := 90
  pollInterval : ℤ := 0
  pollIncremental : Bool := true
  deriving DecidableEq, Repr

end Tdcs
