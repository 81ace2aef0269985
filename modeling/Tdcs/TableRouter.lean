import Tdcs.PipelineWorld

/-!
`TableRouter`: rows to the table of their month.
-/

namespace Tdcs.Pipeline

open Tdcs.Lib Tdcs.Extractor

variable {V : Type*} (w : World V) (cfg : TaskConfig)

/-- The suffix the row asks for: its partition field, if it is there, not falsy, and can be
parsed. -/
def rowSuffix (row : Row V) : Option String :=
  if cfg.partitionField = "" then none
  else match getCell row (some cfg.partitionField) with
    | none => none
    | some v =>
      if w.ops.truthy v then w.strptimeYm cfg.partitionFieldFormat (w.ops.str v) else none

/-- `_resolve_table`, in the month `now`. -/
def resolveTable (now : String) (row : Row V) : String :=
  cfg.baseTable ++ "_" ++ (rowSuffix w cfg row).getD now

/-- Every row with its table; the clock is read once for each row. -/
def tagged : ℕ → List (Row V) → List (String × Row V)
  | _, [] => []
  | k, row :: rows => (resolveTable w cfg (w.now k) row, row) :: tagged (k + 1) rows

/-- `group_by_table`. -/
def groupByTable (rows : List (Row V)) : Prog (State V) Exc (Dict String (List (Row V))) :=
  fun s => (.ok (Dict.group (tagged w cfg s.clockReads rows)),
    { s with clockReads := s.clockReads + rows.length })

/-- `str.isspace`, by character. -/
def isSpace (c : Char) : Bool :=
  let n := c.toNat
  (9 ≤ n && n ≤ 13) || (28 ≤ n && n ≤ 32) || n = 0x85 || n = 0xa0 || n = 0x1680 ||
    (0x2000 ≤ n && n ≤ 0x200a) || n = 0x2028 || n = 0x2029 || n = 0x202f || n = 0x205f ||
    n = 0x3000

def isLowerAscii (c : Char) : Bool := 'a' ≤ c && c ≤ 'z'

/-- `^[a-z][a-z0-9_]*$`, matched against the whole name. -/
def matchesNameRe (name : List Char) : Bool :=
  match name with
  | [] => false
  | c :: cs => isLowerAscii c && cs.all fun c => isLowerAscii c || ('0' ≤ c && c ≤ '9') || c = '_'

/-- `_validate_table_name`: the message of the `ValueError`, if it raises one. -/
def validateTableName (name : String) : Option String :=
  let cs := name.toList
  if (cs.head?.any isSpace) || (cs.getLast?.any isSpace) then
    some ("Invalid table name '" ++ name ++ "': contains leading/trailing whitespace")
  else if 64 < cs.length then
    some ("Invalid table name '" ++ name ++ "': exceeds MySQL max length 64")
  else if !matchesNameRe cs then
    some ("Invalid table name '" ++ name ++ "': must match ^[a-z][a-z0-9_]*$ " ++
      "(lowercase letters, digits, underscores; start with letter)")
  else none

/-- `ensure_table_exists`: the table is created and registered in one transaction, once for
each router. -/
def ensureTableExists (table : String) : Prog (State V) Exc Unit :=
  Prog.andThen (Prog.read State.created) fun created =>
  if table ∈ created then Prog.ret ()
  else match validateTableName table with
    | some msg => Prog.raise (.other "ValueError" msg)
    | none =>
      Prog.andThen (dbCall w) fun _ =>
      Prog.andThen (dbCall w) fun _ =>
      Prog.andThen (dbCall w) fun _ =>
      Prog.update fun s => { s with created := s.created ++ [table] }

/-! ### Routing -/

lemma tagged_append (k : ℕ) (rows rows' : List (Row V)) :
    tagged w cfg k (rows ++ rows') =
      tagged w cfg k rows ++ tagged w cfg (k + rows.length) rows' := by
  induction rows generalizing k with
  | nil => simp [tagged]
  | cons row rows ih =>
    rw [List.cons_append, tagged, tagged, List.cons_append, ih, List.length_cons]
    congr 3
    omega

lemma tagged_of_suffix {rows : List (Row V)}
    (h : ∀ row ∈ rows, (rowSuffix w cfg row).isSome = true) (k : ℕ) (now : String) :
    tagged w cfg k rows = rows.map fun row => (resolveTable w cfg now row, row) := by
  induction rows generalizing k with
  | nil => rfl
  | cons row rows ih =>
    have htable : resolveTable w cfg (w.now k) row = resolveTable w cfg now row := by
      obtain ⟨suffix, hs⟩ := Option.isSome_iff_exists.mp (h row List.mem_cons_self)
      simp [resolveTable, hs]
    rw [tagged, List.map_cons, htable, ih fun row' hrow' => h row' (List.mem_cons_of_mem _ hrow')]

/-! ### What the router leaves alone -/

variable {w} {δ : Type*} {log : State V → List δ}

lemma emits_dbCall (hlog : ∀ s n, log { s with dbCalls := n } = log s) (s : State V)
    {Q : ℕ → State V → Prop} (hQ : ∀ n, Q n { s with dbCalls := s.dbCalls + 1 }) :
    Prog.Emits log (dbCall w) s [] Q := by
  refine Prog.Emits.silent (by rw [dbCall_snd, hlog]) fun n _ => ?_
  rw [dbCall_snd]
  exact hQ n

lemma emits_ensureTableExists (hlog : ∀ s n, log { s with dbCalls := n } = log s)
    (hcreated : ∀ s c, log { s with created := c } = log s) (table : String) (s : State V) :
    Prog.Emits log (ensureTableExists w table) s [] fun _ s' => s'.clockReads = s.clockReads := by
  have hread : Prog.Emits log (Prog.read State.created : Prog (State V) Exc (List String)) s []
      fun _ s' => s'.clockReads = s.clockReads := Prog.emits_read rfl
  have hcall : ∀ s₀ : State V, Prog.Emits log (dbCall w) s₀ []
      fun _ s' => s'.clockReads = s₀.clockReads := fun s₀ => emits_dbCall hlog s₀ fun _ => rfl
  refine hread.andThen (M := []) fun created s₀ h₀ => ?_
  split_ifs with hmem
  · exact Prog.emits_ret h₀
  · rcases validateTableName table with _ | msg
    · refine (hcall s₀).andThen (M := []) fun _ s₁ h₁ => (hcall s₁).andThen (M := [])
        fun _ s₂ h₂ => (hcall s₂).andThen (M := []) fun _ s₃ h₃ => ?_
      refine Prog.emits_update (hcreated s₃ _) ?_
      calc s₃.clockReads = s₂.clockReads := h₃
        _ = s₁.clockReads := h₂
        _ = s₀.clockReads := h₁
        _ = s.clockReads := h₀
    · exact Prog.emits_raise

end Tdcs.Pipeline
