import Mathlib.Data.List.Basic
import Mathlib.Tactic

/-!
`cleaner_registry.py`, `cleaners.py` and `_cleaner_runner.py`: when a template is valid, and what
the runner makes of it.

The check looks for a `def clean_data` anywhere in the syntax tree. The runner carries the module
out and asks the module for the attribute: a method, a function inside a function, and a branch
that was not taken leave none.
-/

namespace Tdcs.CleanerTemplate

variable {τ : Type*}

/-- The statements of a template; `τ` are its expressions. -/
inductive Stmt (τ : Type*)
  /-- `def`, or `async def`. -/
  | functionDef (isAsync : Bool) (name : String) (decorators : τ) (body : List (Stmt τ))
  | classDef (name : String) (bases : τ) (body : List (Stmt τ))
  | ifElse (test : τ) (body orelse : List (Stmt τ))
  /-- An assignment to names; an import is one, too. -/
  | assign (targets : List String) (value : τ)
  /-- An expression as a statement; inside a function a `return`, too. -/
  | expr (value : τ)

/-- What `ast.parse` makes of a text, with the docstring that `ast.get_docstring` finds. -/
structure Module (τ : Type*) where
  docstring : Option String
  body : List (Stmt τ)

/-! ### The check -/

mutual

/-- `any(isinstance(node, ast.FunctionDef) and node.name == "clean_data" for node in
ast.walk(tree))`, from a statement on. An `AsyncFunctionDef` is no `FunctionDef`. -/
def hasFunc : Stmt τ → Bool
  | .functionDef isAsync name _ body => !isAsync && name == "clean_data" || hasFuncs body
  | .classDef _ _ body => hasFuncs body
  | .ifElse _ body orelse => hasFuncs body || hasFuncs orelse
  | .assign _ _ | .expr _ => false

def hasFuncs : List (Stmt τ) → Bool
  | [] => false
  | s :: rest => hasFunc s || hasFuncs rest

end

/-- `ast.parse`, or the text of its exception. -/
abbrev Parse (τ : Type*) := String → Except String (Module τ)

/-- `_analyze_template`, of the text that was read, if it was: the docstring, and whether there is
a function. -/
def analyzeTemplate (parse : Parse τ) (source : Option String) : String × Bool :=
  match source.map parse with
  | some (.ok m) => (m.docstring.getD "", hasFuncs m.body)
  | _ => ("", false)

/-- `validate_cleaner`, of a text: `valid` and `message`. -/
def validateCleaner (parse : Parse τ) (code : String) : Bool × String :=
  match parse code with
  | .error e => (false, "语法错误: " ++ e)
  | .ok m =>
    if !hasFuncs m.body then (false, "未找到 def clean_data(df) 函数")
    else (true, "语法检查通过")

/-! ### The runner -/

/-- The value of an expression as a condition, or the text of what it raises. Nothing that is
carried out at loading is carried out twice. -/
abbrev Eval (τ : Type*) := τ → Except String Bool

mutual

/-- What a statement makes of the names of the namespace it is carried out in. The body of a
function is carried out when it is called, that of a class in a namespace of its own. -/
def exec (eval : Eval τ) (names : List String) : Stmt τ → Except String (List String)
  | .functionDef _ name decorators _ => do
    let _ ← eval decorators
    .ok (name :: names)
  | .classDef name bases body => do
    let _ ← eval bases
    let _ ← execAll eval [] body
    .ok (name :: names)
  | .ifElse test body orelse => do
    if ← eval test then execAll eval names body else execAll eval names orelse
  | .assign targets value => do
    let _ ← eval value
    .ok (targets ++ names)
  | .expr value => do
    let _ ← eval value
    .ok names

def execAll (eval : Eval τ) (names : List String) : List (Stmt τ) → Except String (List String)
  | [] => .ok names
  | s :: rest => do
    let names ← exec eval names s
    execAll eval names rest

end

/-- What a module has before it is carried out. -/
def moduleAttributes : List String :=
  ["__name__", "__doc__", "__package__", "__loader__", "__spec__", "__file__", "__cached__",
    "__builtins__"]

/-- `spec.loader.exec_module(mod)`. -/
def load (eval : Eval τ) (m : Module τ) : Except String (List String) :=
  execAll eval moduleAttributes m.body

/-- `hasattr(mod, name)`. Where the module has no such name, its function `__getattr__` is asked,
if it has one; `answers` says whether that gives a value. -/
def hasattr (answers : String → Bool) (names : List String) (name : String) : Bool :=
  names.contains name || (names.contains "__getattr__" && answers name)

def noFunction : String := "Template has no clean_data(df) function"

/-- `main`, up to the call of `mod.clean_data`: the error it prints, or the loaded module. -/
def runner (eval : Eval τ) (answers : String → Bool) (m : Module τ) :
    Except String (List String) :=
  match load eval m with
  | .error e => .error ("Failed to load template: " ++ e)
  | .ok names => if !hasattr answers names "clean_data" then .error noFunction else .ok names

/-- Loaded without an exception, the template has the attribute, and the runner does not miss
it. -/
structure Runnable (eval : Eval τ) (answers : String → Bool) (m : Module τ) : Prop where
  hasAttribute : ∀ names, load eval m = .ok names → hasattr answers names "clean_data" = true
  answered : runner eval answers m ≠ .error noFunction

/-! ### The module's own level -/

mutual

/-- The statements that are carried out in the same namespace: of a condition the branch that is
taken, of a function or a class nothing inside. -/
def taken (eval : Eval τ) : Stmt τ → List (Stmt τ)
  | .ifElse test body orelse =>
    match eval test with
    | .ok true => takenAll eval body
    | .ok false => takenAll eval orelse
    | .error _ => []
  | .functionDef isAsync name decorators body => [.functionDef isAsync name decorators body]
  | .classDef name bases body => [.classDef name bases body]
  | .assign targets value => [.assign targets value]
  | .expr value => [.expr value]

def takenAll (eval : Eval τ) : List (Stmt τ) → List (Stmt τ)
  | [] => []
  | s :: rest => taken eval s ++ takenAll eval rest

end

/-- The names a statement binds itself. -/
def bound : Stmt τ → List String
  | .functionDef _ name _ _ | .classDef name _ _ => [name]
  | .assign targets _ => targets
  | .ifElse _ _ _ | .expr _ => []

/-- A statement at the module's own level, on the branches that are taken, binds the name. -/
def Binds (eval : Eval τ) (m : Module τ) (name : String) : Prop :=
  ∃ s ∈ takenAll eval m.body, name ∈ bound s

/-- The module binds `clean_data` at its own level, or a `__getattr__` that gives it. -/
def Provides (eval : Eval τ) (answers : String → Bool) (m : Module τ) : Prop :=
  Binds eval m "clean_data" ∨ (Binds eval m "__getattr__" ∧ answers "clean_data" = true)

variable {eval : Eval τ} {answers : String → Bool} {m : Module τ}

/-! ### What a load leaves -/

lemma bind_eq_ok {α β : Type} {x : Except String α} {f : α → Except String β} {r : β}
    (h : x >>= f = .ok r) : ∃ a, x = .ok a ∧ f a = .ok r := by
  cases x with
  | error e => cases h
  | ok a => exact ⟨a, rfl, h⟩

mutual

lemma mem_exec {names names' : List String} {s : Stmt τ} (h : exec eval names s = .ok names')
    (name : String) : name ∈ names' ↔ name ∈ names ∨ ∃ s' ∈ taken eval s, name ∈ bound s' := by
  cases s with
  | functionDef isAsync f decorators body =>
    rw [exec] at h
    obtain ⟨_, -, h⟩ := bind_eq_ok h
    cases h
    simp [taken, bound, or_comm]
  | classDef c bases body =>
    rw [exec] at h
    obtain ⟨_, -, h⟩ := bind_eq_ok h
    obtain ⟨_, -, h⟩ := bind_eq_ok h
    cases h
    simp [taken, bound, or_comm]
  | ifElse test body orelse =>
    -- of the branches only the one the test chose binds anything
    rw [exec] at h
    obtain ⟨b, hb, h⟩ := bind_eq_ok h
    rw [taken, hb]
    cases b with
    | true => exact mem_execAll h name
    | false => exact mem_execAll h name
  | assign targets value =>
    rw [exec] at h
    obtain ⟨_, -, h⟩ := bind_eq_ok h
    cases h
    simp [taken, bound, or_comm]
  | expr value =>
    rw [exec] at h
    obtain ⟨_, -, h⟩ := bind_eq_ok h
    cases h
    simp [taken, bound]

lemma mem_execAll {names names' : List String} {body : List (Stmt τ)}
    (h : execAll eval names body = .ok names') (name : String) :
    name ∈ names' ↔ name ∈ names ∨ ∃ s ∈ takenAll eval body, name ∈ bound s := by
  cases body with
  | nil =>
    rw [execAll] at h
    cases h
    simp [takenAll]
  | cons s rest =>
    rw [execAll] at h
    obtain ⟨mid, hs, hrest⟩ := bind_eq_ok h
    rw [mem_execAll hrest name, mem_exec hs name, takenAll]
    simp only [List.mem_append, or_and_right, exists_or, or_assoc]

end

/-- A module that was loaded has the names that are bound at its level. -/
lemma mem_load_iff {names : List String} (h : load eval m = .ok names) {name : String}
    (hname : name ∉ moduleAttributes) : name ∈ names ↔ Binds eval m name := by
  rw [mem_execAll h name, or_iff_right hname, Binds]

lemma hasattr_iff {names : List String} (h : load eval m = .ok names) :
    hasattr answers names "clean_data" = true ↔ Provides eval answers m := by
  have hclean := mem_load_iff h (show "clean_data" ∉ moduleAttributes by decide)
  have hgetattr := mem_load_iff h (show "__getattr__" ∉ moduleAttributes by decide)
  rw [hasattr, Provides, Bool.or_eq_true, Bool.and_eq_true, List.contains_iff_mem,
    List.contains_iff_mem, hclean, hgetattr]

lemma failed_ne_noFunction (e : String) : "Failed to load template: " ++ e ≠ noFunction := by
  intro h
  have hlist := congrArg String.toList h
  rw [String.toList_append] at hlist
  have hhead := congrArg List.head? hlist
  rw [List.head?_append] at hhead
  cases hhead

lemma runner_eq_noFunction_iff :
    runner eval answers m = .error noFunction ↔
      ∃ names, load eval m = .ok names ∧ hasattr answers names "clean_data" = false := by
  rw [runner]
  cases hload : load eval m with
  | error e => simp [failed_ne_noFunction]
  | ok names => cases hattr : hasattr answers names "clean_data" <;> simp [hattr]

/-- **When a template is runnable**: the module binds `clean_data` at its own level, on the
branches that are taken, unless its loading raises. -/
theorem runnable_iff (eval : Eval τ) (answers : String → Bool) (m : Module τ) :
    Runnable eval answers m ↔ ((∃ names, load eval m = .ok names) → Provides eval answers m) := by
  constructor
  · rintro hrun ⟨names, hload⟩
    exact (hasattr_iff hload).1 (hrun.hasAttribute names hload)
  · intro hprov
    have hattr : ∀ names, load eval m = .ok names → hasattr answers names "clean_data" = true :=
      fun names hload => (hasattr_iff hload).2 (hprov ⟨names, hload⟩)
    refine ⟨hattr, fun h => ?_⟩
    obtain ⟨names, hload, hfalse⟩ := runner_eq_noFunction_iff.1 h
    rw [hattr names hload] at hfalse
    cases hfalse

/-! ### What the check sees -/

lemma valid_iff {parse : Parse τ} {code : String} (h : parse code = .ok m) :
    ((analyzeTemplate parse (some code)).2 = true ↔ hasFuncs m.body = true) ∧
      ((validateCleaner parse code).1 = true ↔ hasFuncs m.body = true) := by
  rw [analyzeTemplate, Option.map_some, validateCleaner, h]
  refine ⟨Iff.rfl, ?_⟩
  dsimp only
  cases hasFuncs m.body with
  | true => exact Iff.rfl
  | false => simp

/-- A template that binds the name in a statement of the module itself is runnable. -/
theorem runnable_of_mem_body {s : Stmt τ} (hs : s ∈ m.body) (hbound : "clean_data" ∈ bound s) :
    Runnable eval answers m := by
  have hself : s ∈ taken eval s := by
    cases s with
    | ifElse test body orelse => cases hbound
    | _ => simp [taken]
  have hsub : ∀ body : List (Stmt τ), s ∈ body → s ∈ takenAll eval body := by
    intro body
    induction body with
    | nil => exact fun h => absurd h List.not_mem_nil
    | cons s' rest ih =>
      intro h
      rw [takenAll, List.mem_append]
      rcases List.mem_cons.1 h with rfl | h
      · exact .inl hself
      · exact .inr (ih h)
  exact (runnable_iff eval answers m).2 fun _ => .inl ⟨s, hsub _ hs, hbound⟩

def inClassText : String := "class Cleaner:\n    def clean_data(self, df): return df"

/-- The template whose function is a method. -/
def inClass : Module String where
  docstring := none
  body := [.classDef "Cleaner" "" [.functionDef false "clean_data" "" [.expr "df"]]]

/-- It is valid for both checks, its loading raises nothing, and the runner misses the function. -/
theorem not_runnable_inClass : ¬ ∀ (parse : Parse String) (code : String) (m : Module String),
    parse code = .ok m → (analyzeTemplate parse (some code)).2 = true →
      (validateCleaner parse code).1 = true → ∀ eval answers, Runnable eval answers m := by
  intro hall
  let parse : Parse String := fun code =>
    if code = inClassText then .ok inClass else .error "invalid syntax"
  have hparse : parse inClassText = .ok inClass := if_pos rfl
  have hvalid := valid_iff hparse
  have hfunc : hasFuncs inClass.body = true := by decide
  have hrun := hall parse inClassText inClass hparse (hvalid.1.2 hfunc) (hvalid.2.2 hfunc)
    (fun _ => .ok true) (fun _ => false)
  exact hrun.answered (by decide)

end Tdcs.CleanerTemplate
