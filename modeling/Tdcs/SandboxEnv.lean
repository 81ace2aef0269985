import Mathlib.Tactic
import Tdcs.Lib.Dict

/-!
`sandbox_env.py`: the environment of a child process.

The two modes apply the two rules for sensitive names in different places, and come to the same:
what is left of the parent's environment are its variables that neither rule names.
-/

namespace Tdcs.SandboxEnv

open Tdcs.Lib

/-- `SENSITIVE_KEYS`. -/
def sensitiveKeys : List String := [
  "DB_MASTER_PASSWORD", "DB_SLAVE_PASSWORD",
  "WEB_SECRET_KEY", "SECRET_KEY",
  "AWS_SECRET_ACCESS_KEY", "AWS_SESSION_TOKEN",
  "DINGTALK_SECRET", "WECOM_KEY"]

/-- `SENSITIVE_KEYWORDS`. -/
def sensitiveKeywords : List String := [
  "ETL_", "SECRET", "PASSWORD", "PASSWD", "TOKEN",
  "API_KEY", "APIKEY", "AWS_", "ENCRYPTION", "PRIVATE",
  "CREDENTIAL", "DB_PASS", "MYSQL_", "REDIS_PASS"]

variable (upper : String → String)

/-- `any(kw in key.upper() for kw in SENSITIVE_KEYWORDS)`; `upper` is `str.upper`. -/
def hasKeyword (key : String) : Bool :=
  sensitiveKeywords.any fun kw => kw.toList <:+: (upper key).toList

/-- The filter over a copy of `os.environ`. -/
def filtered (keepSystemVars : Bool) (environ : Dict String String) : Dict String String :=
  let env := if keepSystemVars then environ
    else environ.entries.foldl
      (fun env p => if hasKeyword upper p.1 then env else env.set p.1 p.2) Dict.empty
  env.keys.foldl (fun env key =>
    if sensitiveKeys.contains key then env.erase key
    else if keepSystemVars then if hasKeyword upper key then env.erase key else env
    else env) env

def buildSandboxEnv (environ : Dict String String) (extraPath : String) (keepSystemVars : Bool)
    (extraRemove : Option (List String)) : Dict String String :=
  let env := filtered upper keepSystemVars environ
  let env := (extraRemove.getD []).foldl (fun env key => env.erase key) env
  let env := if extraPath ≠ "" then env.set "PYTHONPATH" extraPath else env
  (env.set "PYTHONIOENCODING" "utf-8").erase "PYTHONINSPECT"

/-- One of the two rules names the variable. -/
def Sensitive (key : String) : Prop := key ∈ sensitiveKeys ∨ hasKeyword upper key = true

def isSensitive (key : String) : Bool := sensitiveKeys.contains key || hasKeyword upper key

/-- The variables that `build_sandbox_env` sets or removes on its own account. -/
def ownNames : List String := ["PYTHONPATH", "PYTHONIOENCODING", "PYTHONINSPECT"]

/-- The child's environment tells nothing of sensitive variables and passes the others on. -/
structure HidesSecrets (extraPath : String) (keepSystemVars : Bool)
    (extraRemove : Option (List String)) : Prop where
  /-- Parents that agree on the variables that are not sensitive have children that agree. -/
  noninterference : ∀ e e' : Dict String String,
    (∀ key, ¬ Sensitive upper key → e.get? key = e'.get? key) →
    ∀ key, (buildSandboxEnv upper e extraPath keepSystemVars extraRemove).get? key =
      (buildSandboxEnv upper e' extraPath keepSystemVars extraRemove).get? key
  passedOn : ∀ (e : Dict String String) key, ¬ Sensitive upper key → key ∉ ownNames →
    key ∉ extraRemove.getD [] →
    (buildSandboxEnv upper e extraPath keepSystemVars extraRemove).get? key = e.get? key

variable {upper} {environ d : Dict String String} {key : String} {keepSystemVars : Bool}
  {extraRemove : Option (List String)} {extraPath : String}

/-! ### The filter -/

lemma entries_foldl_set (environ : Dict String String) :
    (environ.entries.foldl
      (fun env p => if hasKeyword upper p.1 then env else env.set p.1 p.2)
      (Dict.empty : Dict String String)).entries =
      environ.entries.filter fun x => !hasKeyword upper x.1 := by
  have hfold : ∀ (l : List (String × String)) (d : Dict String String),
      l.foldl (fun env p => if hasKeyword upper p.1 then env else env.set p.1 p.2) d =
        (l.filter fun x => !hasKeyword upper x.1).foldl (fun env p => env.set p.1 p.2) d := by
    intro l d
    induction l generalizing d with
    | nil => rfl
    | cons p l ih => cases hp : hasKeyword upper p.1 <;> simp [hp, ih]
  rw [hfold]
  exact Dict.entries_ofPairs (environ.nodup.sublist (List.filter_sublist.map Prod.fst))

/-- **Both modes leave the variables that neither rule names.** -/
lemma entries_filtered (keepSystemVars : Bool) (environ : Dict String String) :
    (filtered upper keepSystemVars environ).entries =
      environ.entries.filter fun x => !isSensitive upper x.1 := by
  have hrule : ∀ (env : Dict String String) key,
      (if sensitiveKeys.contains key then env.erase key
        else if keepSystemVars then if hasKeyword upper key then env.erase key else env
        else env) =
      if sensitiveKeys.contains key || (keepSystemVars && hasKeyword upper key) then env.erase key
        else env := by
    intro env key
    cases sensitiveKeys.contains key <;> cases keepSystemVars <;> simp
  -- every key of the dictionary is looked at
  have herase : ∀ (p : String → Bool) (d : Dict String String),
      (d.keys.foldl (fun env key => if p key then env.erase key else env) d).entries =
        d.entries.filter fun x => !p x.1 := by
    intro p d
    rw [← List.foldl_filter, Dict.entries_foldl_erase]
    refine List.filter_congr fun x hx => ?_
    have hmem : x.1 ∈ d.keys := List.mem_map_of_mem hx
    simp [List.mem_filter, hmem]
  unfold filtered
  simp only [hrule]
  rw [herase]
  cases keepSystemVars with
  | true => rfl
  | false =>
    simp only [Bool.false_eq_true, if_false, entries_foldl_set, List.filter_filter]
    refine List.filter_congr fun x _ => ?_
    unfold isSensitive
    cases hasKeyword upper x.1 <;> simp

lemma sensitive_iff : Sensitive upper key ↔ isSensitive upper key = true := by
  rw [isSensitive, Bool.or_eq_true, List.contains_iff_mem]
  rfl

lemma get?_filtered_of_sensitive (h : Sensitive upper key) :
    (filtered upper keepSystemVars environ).get? key = none := by
  rw [Dict.get?_of_entries_filter (p := fun key => !isSensitive upper key)
    (entries_filtered keepSystemVars environ), sensitive_iff.mp h]
  rfl

lemma get?_filtered (h : ¬ Sensitive upper key) :
    (filtered upper keepSystemVars environ).get? key = environ.get? key := by
  have hno : isSensitive upper key = false := by simpa [sensitive_iff] using h
  rw [Dict.get?_of_entries_filter (p := fun key => !isSensitive upper key)
    (entries_filtered keepSystemVars environ), hno]
  rfl

/-! ### The rest -/

lemma get?_foldl_erase (keys : List String) (d : Dict String String) (key : String) :
    (keys.foldl (fun env key => env.erase key) d).get? key =
      if key ∈ keys then none else d.get? key := by
  rw [Dict.get?_of_entries_filter (p := fun key => decide (key ∉ keys))
    (Dict.entries_foldl_erase keys d)]
  by_cases h : key ∈ keys <;> simp [h]

lemma get?_buildSandboxEnv_congr {e e' : Dict String String}
    (h : (filtered upper keepSystemVars e).get? key =
      (filtered upper keepSystemVars e').get? key) :
    (buildSandboxEnv upper e extraPath keepSystemVars extraRemove).get? key =
      (buildSandboxEnv upper e' extraPath keepSystemVars extraRemove).get? key := by
  unfold buildSandboxEnv
  dsimp only
  by_cases hinspect : key = "PYTHONINSPECT"
  · rw [hinspect, Dict.get?_erase_self, Dict.get?_erase_self]
  rw [Dict.get?_erase_of_ne _ hinspect, Dict.get?_erase_of_ne _ hinspect]
  by_cases hencoding : key = "PYTHONIOENCODING"
  · rw [hencoding, Dict.get?_set_self, Dict.get?_set_self]
  rw [Dict.get?_set_of_ne _ _ hencoding, Dict.get?_set_of_ne _ _ hencoding]
  have hremove : ((extraRemove.getD []).foldl (fun env key => env.erase key)
        (filtered upper keepSystemVars e)).get? key =
      ((extraRemove.getD []).foldl (fun env key => env.erase key)
        (filtered upper keepSystemVars e')).get? key := by
    rw [get?_foldl_erase, get?_foldl_erase, h]
  split_ifs
  · by_cases hpath : key = "PYTHONPATH"
    · rw [hpath, Dict.get?_set_self, Dict.get?_set_self]
    · rw [Dict.get?_set_of_ne _ _ hpath, Dict.get?_set_of_ne _ _ hpath, hremove]
  · exact hremove

lemma get?_buildSandboxEnv (hown : key ∉ ownNames) (hkept : key ∉ extraRemove.getD []) :
    (buildSandboxEnv upper environ extraPath keepSystemVars extraRemove).get? key =
      (filtered upper keepSystemVars environ).get? key := by
  obtain ⟨hpath, hencoding, hinspect⟩ :
      key ≠ "PYTHONPATH" ∧ key ≠ "PYTHONIOENCODING" ∧ key ≠ "PYTHONINSPECT" := by
    simpa [ownNames] using hown
  unfold buildSandboxEnv
  dsimp only
  rw [Dict.get?_erase_of_ne _ hinspect, Dict.get?_set_of_ne _ _ hencoding]
  split_ifs
  · rw [Dict.get?_set_of_ne _ _ hpath, get?_foldl_erase, if_neg hkept]
  · rw [get?_foldl_erase, if_neg hkept]

/-- **The child learns nothing about secrets.** -/
theorem hidesSecrets (upper : String → String) (extraPath : String) (keepSystemVars : Bool)
    (extraRemove : Option (List String)) :
    HidesSecrets upper extraPath keepSystemVars extraRemove := by
  constructor
  · intro e e' hagree key
    apply get?_buildSandboxEnv_congr
    by_cases hsecret : Sensitive upper key
    · rw [get?_filtered_of_sensitive hsecret, get?_filtered_of_sensitive hsecret]
    · rw [get?_filtered hsecret, get?_filtered hsecret, hagree key hsecret]
  · intro e key hsecret hown hkept
    rw [get?_buildSandboxEnv hown hkept, get?_filtered hsecret]

end Tdcs.SandboxEnv
