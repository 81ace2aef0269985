import Mathlib.Data.List.Basic
import Mathlib.Tactic.Common

/-!
The tokens of an SQL statement: words, punctuation, placeholders `%s` and identifiers in
backticks.

Between backticks a backtick is written twice. Which characters the server permits there is a
parameter.
-/

namespace Tdcs.Lib.SqlTokens

inductive Token
  | word (text : List Char)
  | ident (name : List Char)
  | symbol (c : Char)
  | placeholder
  deriving DecidableEq

/-- Where the reader stands; `tick` is behind a backtick that ends the identifier or is the first
of two. -/
inductive Phase
  | between
  | word (text : List Char)
  | ident (name : List Char)
  | tick (name : List Char)
  | percent

def isWordChar (c : Char) : Bool :=
  ('a' ≤ c && c ≤ 'z') || ('A' ≤ c && c ≤ 'Z') || ('0' ≤ c && c ≤ '9') || c = '_' || c = '$'

def isSymbol (c : Char) : Bool := c = '(' || c = ')' || c = ','

/-- What begins with `c`. -/
def start (c : Char) : Option (List Token × Phase) :=
  if c = ' ' then some ([], .between)
  else if c = '`' then some ([], .ident [])
  else if c = '%' then some ([], .percent)
  else if isSymbol c then some ([.symbol c], .between)
  else if isWordChar c then some ([], .word [c])
  else none

/-- A token that ends where `c` begins. -/
def startBehind (t : Token) (c : Char) : Option (List Token × Phase) :=
  (start c).map fun r => (t :: r.1, r.2)

variable (permitted : Char → Bool)

/-- One character: the tokens it ends, and where the reader stands behind it. -/
def step : Phase → Char → Option (List Token × Phase)
  | .between, c => start c
  | .word text, c =>
    if isWordChar c then some ([], .word (text ++ [c])) else startBehind (.word text) c
  | .ident name, c =>
    if c = '`' then some ([], .tick name)
    else if permitted c then some ([], .ident (name ++ [c])) else none
  | .tick name, c =>
    if c = '`' then if permitted c then some ([], .ident (name ++ [c])) else none
    else startBehind (.ident name) c
  | .percent, c => if c = 's' then some ([.placeholder], .between) else none

def run : Phase → List Char → Option (List Token × Phase)
  | p, [] => some ([], p)
  | p, c :: cs => (step permitted p c).bind fun r =>
    (run r.2 cs).map fun r' => (r.1 ++ r'.1, r'.2)

/-- The token the text ends in. -/
def finish : Phase → Option (List Token)
  | .between => some []
  | .word text => some [.word text]
  | .tick name => some [.ident name]
  | .ident _ | .percent => none

/-- The tokens of a text, none where it has characters that begin no token or ends in one. -/
def tokens (text : List Char) : Option (List Token) :=
  (run permitted .between text).bind fun r => (finish r.2).map fun ts => r.1 ++ ts

/-- A name as it is written between backticks. -/
def doubled (name : List Char) : List Char :=
  name.flatMap fun c => if c = '`' then ['`', '`'] else [c]

@[simp] lemma doubled_nil : doubled [] = [] := rfl

lemma doubled_cons (c : Char) (cs : List Char) :
    doubled (c :: cs) = (if c = '`' then ['`', '`'] else [c]) ++ doubled cs := rfl

lemma doubled_cons_backtick (cs : List Char) :
    doubled ('`' :: cs) = '`' :: '`' :: doubled cs := rfl

lemma doubled_cons_of_ne {c : Char} (h : c ≠ '`') (cs : List Char) :
    doubled (c :: cs) = c :: doubled cs := by
  rw [doubled_cons, if_neg h, List.singleton_append]

variable {permitted} {p q r : Phase} {a b : List Char} {ts us : List Token}

/-! ### Reading a text in parts -/

theorem run_append (p : Phase) (a b : List Char) :
    run permitted p (a ++ b) = (run permitted p a).bind fun r =>
      (run permitted r.2 b).map fun r' => (r.1 ++ r'.1, r'.2) := by
  induction a generalizing p with
  | nil => simp [run]
  | cons c a ih =>
    rw [List.cons_append, run, run, Option.bind_assoc]
    refine Option.bind_congr fun r _ => ?_
    rw [ih]
    cases run permitted r.2 a with
    | none => rfl
    | some r' => simp [Function.comp_def]

lemma run_append_of_some (h : run permitted p a = some (ts, q)) :
    run permitted p (a ++ b) = (run permitted q b).map fun r => (ts ++ r.1, r.2) := by
  rw [run_append, h, Option.bind_some]

lemma run_append_of_none (h : run permitted p a = none) : run permitted p (a ++ b) = none := by
  rw [run_append, h, Option.bind_none]

/-- **The round trip of a name**: between backticks it is read as it was before the doubling, if
its characters are permitted. -/
theorem run_doubled (acc name : List Char) :
    run permitted (.ident acc) (doubled name) =
      if name.all permitted then some ([], .ident (acc ++ name)) else none := by
  induction name generalizing acc with
  | nil => simp [run]
  | cons c cs ih =>
    by_cases hc : c = '`'
    · subst hc
      rw [doubled_cons_backtick, run, step, if_pos rfl, Option.bind_some, run, step, if_pos rfl]
      by_cases hp : permitted '`' = true
      · simp [hp, ih]
      · simp [hp]
    · rw [doubled_cons_of_ne hc, run, step, if_neg hc]
      by_cases hp : permitted c = true
      · simp [hp, ih]
      · simp [hp]

end Tdcs.Lib.SqlTokens
