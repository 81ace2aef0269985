import Tdcs.ConfigValidator
import Tdcs.Config
import Tdcs.PipelineResult
import Tdcs.Lib.Prog

/-!
`ConfigManager`: reading the file, `load` and `reload`.

The placeholders are replaced in the text, before YAML reads it. What `safe_load` makes of a
text and what `safe_dump` writes for a value come from outside, and so do the environment and
the texts of most exceptions.
-/

namespace Tdcs.ConfigManager

open Tdcs.Lib Tdcs.ConfigValidator Tdcs.Config

abbrev Text := List Char

/-- What lies outside the repository. -/
structure Outside where
  pydantic : Pydantic
  py : PyText
  host : Host
  /-- `none` for a `YAMLError`. -/
  safeLoad : Text → Option Val
  safeDump : Val → Text
  environ : Text → Option Text
  /-- `\w`. -/
  isWord : Char → Bool
  repr : List Val.HashKey → String
  /-- What is raised where a text does not load. -/
  loadError : Text → Exc
  /-- What is raised where `validate_config` raises. -/
  validateError : Val → Exc

variable (O : Outside)

def builtinVars : List Text := ["HOSTNAME".toList, "PID".toList]

/-- `_env_replace`. -/
def envReplace (var : Text) : Option Text :=
  if var ∈ builtinVars then some ('$' :: '{' :: var ++ ['}']) else O.environ var

/-- The variable, where a match of `\$\{(\w+)\}` begins. -/
def placeholder : Text → Option Text
  | '$' :: '{' :: rest =>
    let var := rest.takeWhile O.isWord
    if var ≠ [] ∧ (rest.drop var.length).head? = some '}' then some var else none
  | _ => none

/-- `re.sub`, from the left, `skip` characters of the last match still to pass. -/
def substitute : ℕ → Text → Option Text
  | _, [] => some []
  | skip + 1, _ :: cs => substitute skip cs
  | 0, c :: cs =>
    match placeholder O (c :: cs) with
    | some var => (envReplace O var).bind fun v => (substitute (var.length + 2) cs).map (v ++ ·)
    | none => (substitute 0 cs).map (c :: ·)

/-- `_read_yaml`. -/
def readYaml (content : Text) : Option Val := (substitute O 0 content).bind O.safeLoad

/-- What `load` makes of a file: the configuration, unless one of its steps raises. -/
def loadConfig (content : Text) : Option AppConfig := do
  let raw ← readYaml O content
  let errors ← validateConfig O.pydantic O.py raw
  if errors.isEmpty then build O.py O.host raw else none

/-- The file and `_config`. -/
structure State where
  file : Text
  config : AppConfig

/-- `reload`, when nothing runs beside it. -/
def reload : Prog State Exc Unit := fun s =>
  match loadConfig O s.file with
  | some config => (.ok (), { s with config })
  | none => (.error (O.loadError s.file), s)

variable {O}

lemma reload_of_some {s : State} {config : AppConfig} (h : loadConfig O s.file = some config) :
    reload O s = (.ok (), { s with config }) := by simp [reload, h]

lemma reload_of_none {s : State} (h : loadConfig O s.file = none) :
    reload O s = (.error (O.loadError s.file), s) := by simp [reload, h]

end Tdcs.ConfigManager
