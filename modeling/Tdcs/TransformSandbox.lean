import Tdcs.Yaml
import Tdcs.Pipeline
import Tdcs.Lib.Loop
import Tdcs.Lib.Json

/-!
`transform_sandbox.py` and `_sandbox_runner.py`: a batch goes through a child process as JSON.

What the parsers put into a batch is more than JSON has: dates and decimals, which `json.dumps`
refuses, and the key `None`, which it writes as a string. The identity transform gives a batch
back exactly when it holds none of these.
-/

namespace Tdcs.TransformSandbox

open Tdcs.Lib Tdcs.Lib.Json Tdcs.Extractor Tdcs.Pipeline

/-- A Python value as it stands in a batch; an `object` is one of a class `json` does not know,
such as `Decimal` or `datetime`. -/
inductive PyVal (F : Type*)
  | none
  | bool (b : Bool)
  | int (n : ℤ)
  | float (x : F)
  | str (s : String)
  | object (type text : String)
  | list (l : List (PyVal F))
  | dict (m : List (Option String × PyVal F))

namespace PyVal

variable {F : Type*}

/-- `type(v).__name__`. -/
def typeName : PyVal F → String
  | none => "NoneType"
  | bool _ => "bool"
  | int _ => "int"
  | float _ => "float"
  | str _ => "str"
  | object type _ => type
  | list _ => "list"
  | dict _ => "dict"

def isNone : PyVal F → Bool
  | none => true
  | _ => false

mutual

/-- The value is of JSON's kinds, and the keys are strings. -/
def plain : PyVal F → Bool
  | object _ _ => false
  | list l => plainElems l
  | dict m => plainMembers m
  | _ => true

def plainElems : List (PyVal F) → Bool
  | [] => true
  | v :: l => plain v && plainElems l

def plainMembers : List (Option String × PyVal F) → Bool
  | [] => true
  | (k, v) :: m => k.isSome && plain v && plainMembers m

end

mutual

/-- The keys of a dictionary are distinct. -/
def wf : PyVal F → Bool
  | list l => wfElems l
  | dict m => decide (m.map Prod.fst).Nodup && wfMembers m
  | _ => true

def wfElems : List (PyVal F) → Bool
  | [] => true
  | v :: l => wf v && wfElems l

def wfMembers : List (Option String × PyVal F) → Bool
  | [] => true
  | (_, v) :: m => wf v && wfMembers m

end

mutual

/-- What `json.loads` makes of a document. -/
def ofJson : Value F → PyVal F
  | .null => none
  | .bool b => bool b
  | .int n => int n
  | .float x => float x
  | .str s => str s
  | .arr l => list (ofElems l)
  | .obj m => dict (ofMembers m)

def ofElems : List (Value F) → List (PyVal F)
  | [] => []
  | v :: l => ofJson v :: ofElems l

def ofMembers : List (String × Value F) → List (Option String × PyVal F)
  | [] => []
  | (k, v) :: m => (some k, ofJson v) :: ofMembers m

end

end PyVal

/-! ### `json` -/

section

variable {F : Type*} (fmt : FloatFormat F)

/-- Text that is written, and the class of the object that broke it off, if one did. -/
abbrev Emitted := List Char × Option String

def Emitted.after (text : List Char) (e : Emitted) : Emitted := (text ++ e.1, e.2)

/-- One after the other, the second only if the first was not broken off. -/
def Emitted.andThen (e e' : Emitted) : Emitted :=
  match e.2 with
  | none => e'.after e.1
  | some _ => e

mutual

/-- `json.dump(v, fp, ensure_ascii=False)`, which writes as it goes. The key `None` is written
as `"null"`. -/
def emit : PyVal F → Emitted
  | .none => (print fmt false .null, none)
  | .bool b => (print fmt false (.bool b), none)
  | .int n => (print fmt false (.int n), none)
  | .float x => (print fmt false (.float x), none)
  | .str s => (print fmt false (.str s), none)
  | .object type _ => ([], some type)
  | .list [] => (['[', ']'], none)
  | .list (v :: l) => ((emit v).andThen (emitElems l)).after ['[']
  | .dict [] => (['{', '}'], none)
  | .dict ((k, v) :: m) => ((emit v).andThen (emitMembers m)).after
      ('{' :: (printString false (k.getD "null") ++ [':', ' ']))

def emitElems : List (PyVal F) → Emitted
  | [] => ([']'], none)
  | v :: l => ((emit v).andThen (emitElems l)).after [',', ' ']

def emitMembers : List (Option String × PyVal F) → Emitted
  | [] => (['}'], none)
  | (k, v) :: m => ((emit v).andThen (emitMembers m)).after
      (',' :: ' ' :: (printString false (k.getD "null") ++ [':', ' ']))

end

def notSerializable (type : String) : String :=
  "Object of type " ++ type ++ " is not JSON serializable"

/-- `json.dumps(v, ensure_ascii=False)`. -/
def dumps (v : PyVal F) : Except Exc (List Char) :=
  match emit fmt v with
  | (text, none) => .ok text
  | (_, some type) => .error (.other "TypeError" (notSerializable type))

/-- `json.loads`, `none` for a `JSONDecodeError`. -/
def loads (text : List Char) : Option (PyVal F) := (parse fmt text).map PyVal.ofJson

end

/-! ### The child process -/

/-- What a call of the cleaning function ends in. -/
inductive CallEnd (F : Type*)
  | returned (v : PyVal F)
  | raised (type message traceback : String)
  /-- `SystemExit` and the like. -/
  | exited (code : ℤ) (stderr : List Char)

/-- A call: what the function prints, and its end. -/
structure Call (F : Type*) where
  printed : List Char
  ended : CallEnd F

/-- What `import_module` and `getattr` find. -/
inductive Found (F : Type*)
  | importError (message : String)
  /-- Another exception leaves the import. -/
  | crashed (code : ℤ) (stderr : List Char)
  | missing
  | notCallable
  | callable (f : PyVal F → Call F)

/-- The sandbox, with what the interpreter and the operating system decide. -/
structure Sandbox (F : Type*) where
  fmt : FloatFormat F
  find : String → String → Found F
  /-- The text of the `OSError`, where the process does not start. -/
  startError : Option String := none
  /-- Whether the process has answered a payload in time. -/
  inTime : List Char → ℤ → Bool
  /-- The texts of a `JSONDecodeError` and of the traceback of a `TypeError`. -/
  decodeError : List Char → String
  traceback : String → String

structure Process where
  stdout : List Char
  stderr : List Char
  returncode : ℤ

variable {F : Type*} (S : Sandbox F)

/-- `print(json.dumps(...))` of a dictionary of strings. -/
def errorLine (fields : List (String × String)) : List Char :=
  print S.fmt true (.obj (fields.map fun p => (p.1, .str p.2))) ++ ['\n']

/-- `main` of `_sandbox_runner.py`, started with three arguments. -/
def main (module func : String) (stdin : List Char) : Process :=
  match loads S.fmt stdin with
  | none => ⟨errorLine S [("error", "Invalid JSON input: " ++ S.decodeError stdin)], [], 0⟩
  | some rows =>
    match S.find module func with
    | .importError message => ⟨errorLine S [("error", "ImportError: " ++ message)], [], 0⟩
    | .crashed code stderr => ⟨[], stderr, code⟩
    | .missing => ⟨errorLine S [("error",
        "Function '" ++ func ++ "' not found in module '" ++ module ++ "'")], [], 0⟩
    | .notCallable => ⟨errorLine S [("error", "'" ++ func ++ "' is not callable")], [], 0⟩
    | .callable f =>
      let call := f rows
      match call.ended with
      | .returned v =>
        match emit S.fmt v with
        | (text, none) => ⟨call.printed ++ text, [], 0⟩
        | (text, some type) => ⟨call.printed ++ text ++ errorLine S
            [("error", "TypeError: " ++ notSerializable type),
              ("traceback", S.traceback type)], [], 0⟩
      | .raised type message traceback => ⟨call.printed ++ errorLine S
          [("error", type ++ ": " ++ message), ("traceback", traceback)], [], 0⟩
      | .exited code stderr => ⟨call.printed, stderr, code⟩

/-- `transform_batch`. -/
def transformBatch (rows : List (PyVal F)) (module func : String) (timeout : ℤ) :
    Except Exc (List (PyVal F)) :=
  match dumps S.fmt (.list rows) with
  | .error e => .error e
  | .ok payload =>
    match S.startError with
    | some message => .error (.retryable ("Failed to start sandbox process: " ++ message))
    | none =>
      if !S.inTime payload timeout then
        .error (.retryable ("Transform timed out (>" ++ toString timeout ++ "s)"))
      else
        let proc := main S module func payload
        if proc.returncode ≠ 0 then
          .error (.sandbox ("Transform failed: " ++
            String.ofList (proc.stderr.drop (proc.stderr.length - 2000))))
        else match loads S.fmt proc.stdout with
          | none => .error (.sandbox
              ("Transform returned invalid JSON: " ++ String.ofList (proc.stdout.take 200)))
          | some (.list result) => .ok result
          | some v => .error (.sandbox
              ("Transform function must return a list, got " ++ v.typeName))

/-! ### The batches of the pipeline -/

/-- The value of a cell that is not `None`. -/
abbrev Cell (F : Type*) := {v : PyVal F // v.isNone = false ∧ v.wf = true}

def cellValue : Option (Cell F) → PyVal F
  | none => .none
  | some c => c.1

def itemValue : Item (Cell F) → PyVal F
  | none => .none
  | some row => .dict (row.entries.map fun p => (p.1, cellValue p.2))

def toCell (v : PyVal F) : Option (Cell F) :=
  if h : v.isNone = false ∧ v.wf = true then some ⟨v, h⟩ else none

/-- The item a value is; a value that is neither a dictionary nor `None` is none. -/
def toItem : PyVal F → Option (Item (Cell F))
  | .none => some none
  | .dict m =>
    if h : ((m.map fun p => (p.1, toCell p.2)).map Prod.fst).Nodup then
      some (some ⟨m.map fun p => (p.1, toCell p.2), h⟩)
    else none
  | _ => none

/-- The world in which the sandbox is this one. A transform that returns a value which is no
row is let fail at once, as the router does on it. -/
def inSandbox (w : World (Cell F)) (cfg : TaskConfig) : World (Cell F) := { w with
  sandbox := fun _ batch =>
    match transformBatch S (batch.map itemValue) cfg.transformerModule cfg.transformerFunction
      cfg.sandboxTimeout with
    | .error e => .error e
    | .ok out =>
      match mapAll toItem out with
      | some items => .ok items
      | none => .error (.other "AttributeError" "") }

/-! ### What JSON gives back -/

section

variable (fmt : FloatFormat F)

lemma emitted_andThen (text text' : List Char) :
    Emitted.andThen (text, none) (text', none) = (text ++ text', none) := rfl

lemma emitted_after (text text' : List Char) :
    Emitted.after text (text', none) = (text ++ text', none) := rfl

mutual

/-- What comes from a document is written as the document. -/
theorem emit_ofJson : ∀ j : Value F, emit fmt (.ofJson j) = (print fmt false j, none)
  | .null | .bool _ | .int _ | .float _ | .str _ => by rw [PyVal.ofJson, emit]
  | .arr [] => by rw [PyVal.ofJson, PyVal.ofElems, emit, print]
  | .arr (v :: l) => by
    rw [PyVal.ofJson, PyVal.ofElems, emit, emit_ofJson v, emitElems_ofElems l, emitted_andThen,
      emitted_after, print]
    rfl
  | .obj [] => by rw [PyVal.ofJson, PyVal.ofMembers, emit, print]
  | .obj ((k, v) :: m) => by
    rw [PyVal.ofJson, PyVal.ofMembers, emit, emit_ofJson v, emitMembers_ofMembers m,
      emitted_andThen, emitted_after, print]
    simp

theorem emitElems_ofElems :
    ∀ l : List (Value F), emitElems fmt (PyVal.ofElems l) = (printElems fmt false l, none)
  | [] => by rw [PyVal.ofElems, emitElems, printElems]
  | v :: l => by
    rw [PyVal.ofElems, emitElems, emit_ofJson v, emitElems_ofElems l, emitted_andThen,
      emitted_after, printElems]
    rfl

theorem emitMembers_ofMembers : ∀ m : List (String × Value F),
    emitMembers fmt (PyVal.ofMembers m) = (printMembers fmt false m, none)
  | [] => by rw [PyVal.ofMembers, emitMembers, printMembers]
  | (k, v) :: m => by
    rw [PyVal.ofMembers, emitMembers, emit_ofJson v, emitMembers_ofMembers m, emitted_andThen,
      emitted_after, printMembers]
    simp

end

end

mutual

theorem plain_ofJson : ∀ j : Value F, (PyVal.ofJson j).plain = true
  | .null | .bool _ | .int _ | .float _ | .str _ => by rw [PyVal.ofJson, PyVal.plain] <;> simp
  | .arr l => by
    rw [PyVal.ofJson, PyVal.plain]
    exact plain_ofElems l
  | .obj m => by
    rw [PyVal.ofJson, PyVal.plain]
    exact plain_ofMembers m

theorem plain_ofElems : ∀ l : List (Value F), PyVal.plainElems (PyVal.ofElems l) = true
  | [] => rfl
  | v :: l => by
    rw [PyVal.ofElems, PyVal.plainElems, plain_ofJson v, plain_ofElems l]
    rfl

theorem plain_ofMembers : ∀ m : List (String × Value F),
    PyVal.plainMembers (PyVal.ofMembers m) = true
  | [] => rfl
  | (k, v) :: m => by
    rw [PyVal.ofMembers, PyVal.plainMembers, plain_ofJson v, plain_ofMembers m]
    rfl

end

mutual

/-- A plain value is one that a document has. -/
theorem exists_ofJson : ∀ v : PyVal F, v.plain = true → ∃ j, PyVal.ofJson j = v
  | .none, _ => ⟨.null, rfl⟩
  | .bool b, _ => ⟨.bool b, rfl⟩
  | .int n, _ => ⟨.int n, rfl⟩
  | .float x, _ => ⟨.float x, rfl⟩
  | .str s, _ => ⟨.str s, rfl⟩
  | .object _ _, h => by simp [PyVal.plain] at h
  | .list l, h => by
    obtain ⟨l', rfl⟩ := exists_ofElems l (by simpa [PyVal.plain] using h)
    exact ⟨.arr l', by rw [PyVal.ofJson]⟩
  | .dict m, h => by
    obtain ⟨m', rfl⟩ := exists_ofMembers m (by simpa [PyVal.plain] using h)
    exact ⟨.obj m', by rw [PyVal.ofJson]⟩

theorem exists_ofElems :
    ∀ l : List (PyVal F), PyVal.plainElems l = true → ∃ l', PyVal.ofElems l' = l
  | [], _ => ⟨[], rfl⟩
  | v :: l, h => by
    rw [PyVal.plainElems, Bool.and_eq_true] at h
    obtain ⟨j, rfl⟩ := exists_ofJson v h.1
    obtain ⟨l', rfl⟩ := exists_ofElems l h.2
    exact ⟨j :: l', by rw [PyVal.ofElems]⟩

theorem exists_ofMembers : ∀ m : List (Option String × PyVal F),
    PyVal.plainMembers m = true → ∃ m', PyVal.ofMembers m' = m
  | [], _ => ⟨[], rfl⟩
  | (k, v) :: m, h => by
    rw [PyVal.plainMembers, Bool.and_eq_true, Bool.and_eq_true] at h
    obtain ⟨⟨hk, hv⟩, hm⟩ := h
    obtain ⟨k, rfl⟩ := Option.isSome_iff_exists.mp hk
    obtain ⟨j, rfl⟩ := exists_ofJson v hv
    obtain ⟨m', rfl⟩ := exists_ofMembers m hm
    exact ⟨(k, j) :: m', by rw [PyVal.ofMembers]⟩

end

lemma keys_ofMembers (m : List (String × Value F)) :
    (PyVal.ofMembers m).map Prod.fst = (m.map Prod.fst).map some := by
  induction m with
  | nil => rfl
  | cons p m ih =>
    obtain ⟨k, v⟩ := p
    rw [PyVal.ofMembers, List.map_cons, ih]
    rfl

mutual

/-- Distinct keys are distinct in the document. -/
theorem distinct_of_wf : ∀ j : Value F, (PyVal.ofJson j).wf = true → Distinct j
  | .null, _ | .bool _, _ | .int _, _ | .float _, _ | .str _, _ => by simp [Distinct]
  | .arr l, h => by
    rw [Distinct]
    exact distinct_of_wfElems l (by simpa [PyVal.ofJson, PyVal.wf] using h)
  | .obj m, h => by
    rw [PyVal.ofJson, PyVal.wf, Bool.and_eq_true, decide_eq_true_eq, keys_ofMembers] at h
    rw [Distinct]
    exact ⟨h.1.of_map some, distinct_of_wfMembers m h.2⟩

theorem distinct_of_wfElems :
    ∀ l : List (Value F), PyVal.wfElems (PyVal.ofElems l) = true → DistinctElems l
  | [], _ => by rw [DistinctElems]; trivial
  | v :: l, h => by
    rw [PyVal.ofElems, PyVal.wfElems, Bool.and_eq_true] at h
    rw [DistinctElems]
    exact ⟨distinct_of_wf v h.1, distinct_of_wfElems l h.2⟩

theorem distinct_of_wfMembers :
    ∀ m : List (String × Value F), PyVal.wfMembers (PyVal.ofMembers m) = true → DistinctMembers m
  | [], _ => by rw [DistinctMembers]; trivial
  | (k, v) :: m, h => by
    rw [PyVal.ofMembers, PyVal.wfMembers, Bool.and_eq_true] at h
    rw [DistinctMembers]
    exact ⟨distinct_of_wf v h.1, distinct_of_wfMembers m h.2⟩

end

/-- **A plain value goes through JSON unchanged**, and is written without an error. -/
theorem loads_emit (fmt : FloatFormat F) {v : PyVal F} (hp : v.plain = true) (hw : v.wf = true) :
    ∃ text, emit fmt v = (text, none) ∧ loads fmt text = some v := by
  obtain ⟨j, rfl⟩ := exists_ofJson v hp
  refine ⟨_, emit_ofJson fmt j, ?_⟩
  rw [loads, parse_print fmt false j (distinct_of_wf j hw), Option.map_some]

/-! ### The identity transform -/

/-- The function that returns the rows it is given. -/
def identity (rows : PyVal F) : Call F := ⟨[], .returned rows⟩

/-- The process starts, and always answers in time. -/
structure Runs (S : Sandbox F) : Prop where
  starts : S.startError = none
  inTime : ∀ payload timeout, S.inTime payload timeout = true

lemma plain_list_iff {l : List (PyVal F)} :
    (PyVal.list l).plain = true ↔ ∀ v ∈ l, v.plain = true := by
  rw [PyVal.plain]
  induction l with
  | nil => simp [PyVal.plainElems]
  | cons v l ih => rw [PyVal.plainElems, Bool.and_eq_true, ih, List.forall_mem_cons]

lemma wf_list_iff {l : List (PyVal F)} : (PyVal.list l).wf = true ↔ ∀ v ∈ l, v.wf = true := by
  rw [PyVal.wf]
  induction l with
  | nil => simp [PyVal.wfElems]
  | cons v l ih => rw [PyVal.wfElems, Bool.and_eq_true, ih, List.forall_mem_cons]

lemma plain_of_transformBatch {S : Sandbox F} {rows out : List (PyVal F)} {module func : String}
    {timeout : ℤ} (h : transformBatch S rows module func timeout = .ok out) :
    ∀ v ∈ out, v.plain = true := by
  unfold transformBatch at h
  split at h
  · cases h
  · split at h
    · cases h
    · split at h
      · cases h
      · dsimp only at h
        split at h
        · cases h
        · split at h
          · cases h
          · next result hload =>
            cases h
            obtain ⟨j, -, hj⟩ := Option.map_eq_some_iff.mp hload
            rw [← plain_list_iff, ← hj]
            exact plain_ofJson j
          · cases h

/-- **The identity transform gives a batch back exactly when its values are plain.** -/
theorem transformBatch_identity_iff {S : Sandbox F} {module func : String} (hS : Runs S)
    (hid : S.find module func = .callable identity) (batch : List (PyVal F))
    (hw : ∀ v ∈ batch, v.wf = true) (timeout : ℤ) :
    transformBatch S batch module func timeout = .ok batch ↔ ∀ v ∈ batch, v.plain = true := by
  constructor
  · exact plain_of_transformBatch
  · intro hp
    obtain ⟨text, hemit, hload⟩ := loads_emit S.fmt (plain_list_iff.mpr hp) (wf_list_iff.mpr hw)
    have hmain : main S module func text = ⟨text, [], 0⟩ := by
      rw [main, hload]
      dsimp only
      rw [hid]
      simp [identity, hemit]
    rw [transformBatch, dumps, hemit]
    dsimp only
    rw [hS.starts]
    dsimp only
    rw [hS.inTime, hmain]
    simp [hload]

/-! ### The pipeline -/

lemma wf_cellValue (c : Option (Cell F)) : (cellValue c).wf = true := by
  cases c with
  | none => rfl
  | some c => exact c.2.2

lemma toCell_cellValue (c : Option (Cell F)) : toCell (cellValue c) = c := by
  cases c with
  | none => rfl
  | some c => exact dif_pos c.2

lemma wf_itemValue (item : Item (Cell F)) : (itemValue item).wf = true := by
  cases item with
  | none => rfl
  | some row =>
    have hkeys : (row.entries.map fun p => (p.1, cellValue p.2)).map Prod.fst =
        row.entries.map Prod.fst := by
      rw [List.map_map]
      rfl
    rw [itemValue, PyVal.wf, Bool.and_eq_true, decide_eq_true_eq, hkeys]
    refine ⟨row.nodup, ?_⟩
    induction row.entries with
    | nil => rfl
    | cons p l ih => rw [List.map_cons, PyVal.wfMembers, wf_cellValue, ih, Bool.and_true]

lemma toItem_itemValue (item : Item (Cell F)) : toItem (itemValue item) = some item := by
  cases item with
  | none => rfl
  | some row =>
    have hback : (row.entries.map fun p => (p.1, cellValue p.2)).map
        (fun p => (p.1, toCell p.2)) = row.entries := by
      rw [List.map_map]
      refine (List.map_congr_left fun p _ => ?_).trans (List.map_id _)
      simp [toCell_cellValue]
    have hnodup : (((row.entries.map fun p => (p.1, cellValue p.2)).map
        (fun p => (p.1, toCell p.2))).map Prod.fst).Nodup := by
      rw [hback]
      exact row.nodup
    rw [itemValue, toItem, dif_pos hnodup]
    exact congrArg (fun r => some (some r)) (Dict.ext hback)

lemma mapAll_toItem (batch : List (Item (Cell F))) :
    mapAll toItem (batch.map itemValue) = some batch := by
  induction batch with
  | nil => rfl
  | cons item batch ih =>
    rw [List.map_cons]
    exact mapAll_cons_eq_some.mpr ⟨item, batch, toItem_itemValue item, ih, rfl⟩

/-- The task without its transformer. -/
def untransformed (cfg : TaskConfig) : TaskConfig := { cfg with transformerModule := "" }

lemma groupByTable_untransformed (w : World (Cell F)) (cfg : TaskConfig)
    (rows : List (Row (Cell F))) :
    groupByTable w (untransformed cfg) rows = groupByTable w cfg rows := by
  have htagged : ∀ k, tagged w (untransformed cfg) k rows = tagged w cfg k rows := by
    induction rows with
    | nil => exact fun k => rfl
    | cons row rows ih =>
      intro k
      rw [tagged, tagged, ih]
      rfl
  unfold groupByTable
  simp only [htagged]
  rfl

/-- Every batch of the file comes back as it was, and the run is the one without a transformer. -/
structure Transparent (S : Sandbox F) (w : World (Cell F)) (cfg : TaskConfig)
    (file : FileView (Cell F)) : Prop where
  returns : ∀ batch ∈ (stream w.ops file cfg).batches,
    transformBatch S (batch.map itemValue) cfg.transformerModule cfg.transformerFunction
      cfg.sandboxTimeout = .ok (batch.map itemValue)
  runs : ∀ s, execute (inSandbox S w cfg) cfg file s =
    execute (inSandbox S w cfg) (untransformed cfg) file s

/-- No batch of the file has a date, a decimal or another object, or a row with the key `None`. -/
def PlainFile (w : World (Cell F)) (cfg : TaskConfig) (file : FileView (Cell F)) : Prop :=
  ∀ batch ∈ (stream w.ops file cfg).batches, ∀ item ∈ batch, (itemValue item).plain = true

lemma execute_eq_of_returns {S : Sandbox F} {w : World (Cell F)} {cfg : TaskConfig}
    {file : FileView (Cell F)} (h : ∀ batch ∈ (stream w.ops file cfg).batches,
      transformBatch S (batch.map itemValue) cfg.transformerModule cfg.transformerFunction
        cfg.sandboxTimeout = .ok (batch.map itemValue)) (s : State (Cell F)) :
    execute (inSandbox S w cfg) cfg file s =
      execute (inSandbox S w cfg) (untransformed cfg) file s := by
  have htransform : ∀ p ∈ (stream w.ops file cfg).batches.zipIdx,
      transform (inSandbox S w cfg) cfg p.2 p.1 = .ok p.1 := by
    intro p hp
    have hbatch := h p.1 (List.fst_mem_of_mem_zipIdx hp)
    rw [transform]
    split_ifs with hm
    · rfl
    · simp only [inSandbox]
      rw [hbatch]
      dsimp only
      rw [mapAll_toItem]
  have hturn : ∀ p ∈ (stream w.ops file cfg).batches.zipIdx,
      turn (inSandbox S w cfg) cfg p = turn (inSandbox S w cfg) (untransformed cfg) p := by
    intro p hp
    have hnone : transform (inSandbox S w cfg) (untransformed cfg) p.2 p.1 = .ok p.1 := if_pos rfl
    simp only [turn, htransform p hp, hnone, groupByTable_untransformed]
  have hbody : body (inSandbox S w cfg) cfg (stream w.ops file cfg) =
      body (inSandbox S w cfg) (untransformed cfg) (stream w.ops file (untransformed cfg)) := by
    rw [body, Prog.forEach_congr hturn]
    rfl
  unfold execute
  dsimp only
  rw [show (inSandbox S w cfg).ops = w.ops from rfl, hbody]

/-- **The sandbox is transparent exactly where JSON is**: for any batch of Python values, and for
a file and the run of the pipeline over it. -/
theorem transparent_iff (S : Sandbox F) (cfg : TaskConfig) (hS : Runs S)
    (hid : S.find cfg.transformerModule cfg.transformerFunction = .callable identity) :
    (∀ batch : List (PyVal F), (∀ v ∈ batch, v.wf = true) →
      (transformBatch S batch cfg.transformerModule cfg.transformerFunction cfg.sandboxTimeout =
        .ok batch ↔ ∀ v ∈ batch, v.plain = true)) ∧
    ∀ (w : World (Cell F)) (file : FileView (Cell F)),
      Transparent S w cfg file ↔ PlainFile w cfg file := by
  have hone : ∀ batch : List (PyVal F), (∀ v ∈ batch, v.wf = true) →
      (transformBatch S batch cfg.transformerModule cfg.transformerFunction cfg.sandboxTimeout =
        .ok batch ↔ ∀ v ∈ batch, v.plain = true) :=
    fun batch hw => transformBatch_identity_iff hS hid batch hw cfg.sandboxTimeout
  refine ⟨hone, fun w file => ?_⟩
  -- what the pipeline hands over are dicts of cells, well formed from the start
  have hitems : ∀ batch : List (Item (Cell F)),
      (transformBatch S (batch.map itemValue) cfg.transformerModule cfg.transformerFunction
        cfg.sandboxTimeout = .ok (batch.map itemValue) ↔
      ∀ item ∈ batch, (itemValue item).plain = true) := by
    intro batch
    rw [hone _ (by simp [wf_itemValue])]
    simp
  constructor
  · intro h batch hbatch
    exact (hitems batch).mp (h.returns batch hbatch)
  · intro h
    have hreturns := fun batch hbatch => (hitems batch).mpr (h batch hbatch)
    exact ⟨hreturns, execute_eq_of_returns hreturns⟩

/-! ### A file with prices -/

/-- Floats that end in `.5`, by their whole part. -/
def halves : FloatFormat ℕ where
  repr n := { int := Nat.toDigits 10 n, frac := some ['5'] }
  value n := Nat.ofDigitChars 10 n.int 0
  valid n := {
    int := ⟨allDigits_toDigits n, head_toDigits n⟩
    frac := by simp [Numeral.AllDigits]
    exp := by simp }
  isFloat n := rfl
  value_repr n := Nat.ofDigitChars_ten_toDigits

def identitySandbox : Sandbox ℕ where
  fmt := halves
  find _ _ := .callable identity
  inTime _ _ := true
  decodeError _ := ""
  traceback _ := ""

lemma runs_identitySandbox : Runs identitySandbox := ⟨rfl, fun _ _ => rfl⟩

def cellWorld : World (Cell ℕ) where
  ops := ⟨fun _ => true, fun c => c.1.typeName⟩
  strptimeYm _ _ := none
  now _ := "202406"
  db _ := .ok 1
  sandbox _ batch := .ok batch
  elapsedMs := 7

def cleanTask : TaskConfig where
  taskId := "prices"
  name := "prices"
  monitorFolder := "/in"
  fileExtensions := [".json"]
  transformerModule := "clean"
  transformerFunction := "transform"
  baseTable := "prices"
  partitionField := ""

/-- A file of one row, `{"price": price}`. -/
def priceFile (price : Cell ℕ) : FileView (Cell ℕ) where
  path := "/in/prices.json"
  size := 20
  ext := ".json"
  json _ := ⟨[some (Dict.ofPairs [(some "price", some price)])], none⟩

lemma batches_priceFile (price : Cell ℕ) :
    (stream cellWorld.ops (priceFile price) cleanTask).batches =
      [[some (Dict.ofPairs [(some "price", some price)])]] := rfl

theorem transparent_iff_integer : Runs identitySandbox ∧
    Transparent identitySandbox cellWorld cleanTask (priceFile ⟨.int 2, rfl, rfl⟩) := by
  refine ⟨runs_identitySandbox, ((transparent_iff identitySandbox cleanTask runs_identitySandbox
    rfl).2 cellWorld _).mpr ?_⟩
  intro batch hbatch item hitem
  rw [batches_priceFile, List.mem_singleton] at hbatch
  subst hbatch
  rw [List.mem_singleton] at hitem
  subst hitem
  rfl

/-- A price of 1.50 is a `Decimal`, which the sandbox refuses. -/
theorem not_transparent_decimal : ¬ ∀ (F : Type) (S : Sandbox F) (cfg : TaskConfig)
    (w : World (Cell F)) (file : FileView (Cell F)), Runs S →
      S.find cfg.transformerModule cfg.transformerFunction = .callable identity →
      Transparent S w cfg file := by
  intro hall
  have h := (hall ℕ identitySandbox cleanTask cellWorld
    (priceFile ⟨.object "Decimal" "1.50", rfl, rfl⟩) runs_identitySandbox rfl).returns _
    (by rw [batches_priceFile]; exact List.mem_singleton_self _)
  have herror : transformBatch identitySandbox
      ([some (Dict.ofPairs [(some "price", some ⟨.object "Decimal" "1.50", rfl, rfl⟩)])].map
        itemValue) cleanTask.transformerModule cleanTask.transformerFunction
      cleanTask.sandboxTimeout = .error (.other "TypeError" (notSerializable "Decimal")) := rfl
  rw [herror] at h
  cases h

end Tdcs.TransformSandbox
