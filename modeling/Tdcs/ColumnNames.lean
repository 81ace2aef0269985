import Tdcs.Loader
import Tdcs.Lib.PercentFormat
import Tdcs.Lib.SqlTokens

/-!
How table and column names reach the server: the statement of `load_batch`, with the names in
backticks, and what PyMySQL's `executemany` makes of it.

`executemany` takes the statement apart at its last `VALUES`, formats what stands before with `%`
and no arguments, and puts the rows into what stands behind. Texts are lists of characters.
-/

namespace Tdcs.ColumnNames

open Tdcs.Lib Tdcs.Lib.PercentFormat Tdcs.Lib.SqlTokens

/-- `_escape_column`. -/
def escapeColumn (name : List Char) : List Char := '`' :: (doubled name ++ ['`'])

/-- `", ".join(parts)`. -/
def join : List (List Char) → List Char
  | [] => []
  | part :: parts => part ++ parts.flatMap fun p => ", ".toList ++ p

/-- The statement of `load_batch` up to `VALUES`. -/
def beforeValues (table : List Char) (columns : List (List Char)) : List Char :=
  "INSERT IGNORE INTO ".toList ++ escapeColumn table ++ " (".toList ++
    join (columns.map escapeColumn) ++ ") VALUES ".toList

def placeholders (columns : List (List Char)) : List Char :=
  "(".toList ++ join (columns.map fun _ => "%s".toList) ++ ")".toList

/-- `executemany` raises if the format does. -/
def executemanyText (table : List Char) (columns : List (List Char)) : Option (List Char) :=
  (format (beforeValues table columns)).map fun text => text ++ placeholders columns

/-- The tokens of an `INSERT IGNORE` into the table and columns, with a placeholder for each
column. -/
def insertTokens (table : List Char) (columns : List (List Char)) : List Token :=
  [.word "INSERT".toList, .word "IGNORE".toList, .word "INTO".toList, .ident table, .symbol '('] ++
    (columns.map Token.ident).intersperse (.symbol ',') ++
    [.symbol ')', .word "VALUES".toList, .symbol '('] ++
    (columns.map fun _ => Token.placeholder).intersperse (.symbol ',') ++ [.symbol ')']

/-- The names reach a server that permits the characters `permitted` in identifiers. -/
def Intact (permitted : Char → Bool) (table : String) (columns : List String) : Prop :=
  ((executemanyText table.toList (columns.map String.toList)).bind fun text =>
    tokens permitted text) = some (insertTokens table.toList (columns.map String.toList))

/-! ### The format -/

variable {permitted : Char → Bool}

lemma backtick_ne : '`' ≠ '%' := by decide

lemma scan_doubled (p : Bool) (name : List Char) :
    scan p (doubled name) = (scan p name).map doubled := by
  induction name generalizing p with
  | nil => cases p <;> rfl
  | cons c cs ih =>
    by_cases hc : c = '`'
    · subst hc
      rw [doubled_cons_backtick]
      cases p with
      | false =>
        rw [scan_cons backtick_ne, scan_cons backtick_ne, scan_cons backtick_ne, ih]
        cases scan false cs <;> rfl
      | true =>
        -- a backtick after a lone percent is no directive, doubled or not
        rw [scan_cons_directive backtick_ne, scan_cons_directive backtick_ne]
        rfl
    · rw [doubled_cons_of_ne hc]
      cases p with
      | false =>
        rw [scan, scan]
        split_ifs with hpercent
        · exact ih _
        · rw [ih]
          cases scan false cs with
          | none => rfl
          | some out => simp [doubled_cons_of_ne hc]
      | true =>
        rw [scan, scan]
        split_ifs with hpercent
        · rw [ih]
          cases scan false cs with
          | none => rfl
          | some out => simp [doubled_cons_of_ne (show '%' ≠ '`' by decide)]
        · rfl

lemma scan_piece {piece : List Char} (h : '%' ∉ piece) (rest : List Char) :
    scan false (piece ++ '`' :: rest) = (scan false rest).map fun y => piece ++ '`' :: y := by
  have hpiece : scan false piece = some piece := format_of_notMem h
  rw [scan_append backtick_ne, hpiece, Option.bind_some]

lemma scan_name (name rest : List Char) :
    scan false (doubled name ++ '`' :: rest) =
      (format name).bind fun n => (scan false rest).map fun y => doubled n ++ '`' :: y := by
  rw [scan_append backtick_ne, scan_doubled, format]
  cases scan false name <;> rfl

def closing : List Char := ") VALUES ".toList

def comma : List Char := ", ".toList

/-- The columns behind the first, up to `VALUES`. -/
def columnsTail : List (List Char) → List Char
  | [] => closing
  | n :: ns => comma ++ '`' :: (doubled n ++ '`' :: columnsTail ns)

lemma join_columns (ns : List (List Char)) :
    (ns.map escapeColumn).flatMap (fun p => comma ++ p) ++ closing = columnsTail ns := by
  induction ns with
  | nil => rfl
  | cons n ns ih =>
    rw [List.map_cons, List.flatMap_cons, List.append_assoc, ih]
    simp [columnsTail, escapeColumn]

lemma beforeValues_cons (t c : List Char) (cs : List (List Char)) :
    beforeValues t (c :: cs) = "INSERT IGNORE INTO ".toList ++ '`' :: (doubled t ++
      '`' :: (" (".toList ++ '`' :: (doubled c ++ '`' :: columnsTail cs))) := by
  have hjoin : join ((c :: cs).map escapeColumn) =
      escapeColumn c ++ (cs.map escapeColumn).flatMap (fun p => comma ++ p) := rfl
  have htext : beforeValues t (c :: cs) = "INSERT IGNORE INTO ".toList ++ escapeColumn t ++
      " (".toList ++ join ((c :: cs).map escapeColumn) ++ closing := rfl
  rw [htext, hjoin, ← join_columns]
  simp only [escapeColumn, List.cons_append, List.append_assoc, List.nil_append]

lemma scan_columnsTail (ns : List (List Char)) :
    scan false (columnsTail ns) = (ns.mapM format).map columnsTail := by
  induction ns with
  | nil =>
    have hend : scan false closing = some closing := format_of_notMem (by decide +kernel)
    rw [columnsTail, hend]
    rfl
  | cons n ns ih =>
    rw [columnsTail, scan_piece (by decide +kernel), scan_name, ih, List.mapM_cons]
    cases format n with
    | none => rfl
    | some n' => cases ns.mapM format <;> rfl

lemma format_beforeValues (t c : List Char) (cs : List (List Char)) :
    format (beforeValues t (c :: cs)) = (format t).bind fun t' => (format c).bind fun c' =>
      (cs.mapM format).map fun cs' => beforeValues t' (c' :: cs') := by
  rw [format, beforeValues_cons, scan_piece (by decide +kernel), scan_name,
    scan_piece (by decide +kernel), scan_name, scan_columnsTail]
  cases format t with
  | none => rfl
  | some t' =>
    cases format c with
    | none => rfl
    | some c' =>
      cases cs.mapM format with
      | none => rfl
      | some cs' => simp [beforeValues_cons]

/-! ### The tokens -/

lemma intersperse_cons {α : Type*} (sep x : α) (xs : List α) :
    (x :: xs).intersperse sep = x :: xs.flatMap fun y => [sep, y] := by
  induction xs generalizing x with
  | nil => rfl
  | cons y ys ih => rw [List.intersperse_cons_cons, ih, List.flatMap_cons]; rfl

lemma run_columnsTail (n : List Char) (ns : List (List Char)) :
    run permitted (.ident n) ('`' :: columnsTail ns) =
      if ns.all fun m => m.all permitted then
        some (.ident n :: ns.flatMap (fun m => [.symbol ',', .ident m]) ++
          [.symbol ')', .word "VALUES".toList], .between)
      else none := by
  induction ns generalizing n with
  | nil => rfl
  | cons m ns ih =>
    have hpiece : run permitted (.ident n) "`, `".toList =
        some ([.ident n, .symbol ','], .ident []) := rfl
    have htext : '`' :: columnsTail (m :: ns) =
        "`, `".toList ++ (doubled m ++ '`' :: columnsTail ns) := by
      simp [columnsTail, comma]
    rw [htext, run_append_of_some hpiece]
    by_cases hm : m.all permitted = true
    · have hname : run permitted (.ident []) (doubled m) = some ([], .ident m) := by
        rw [run_doubled, if_pos hm, List.nil_append]
      rw [run_append_of_some hname, ih]
      by_cases hns : (ns.all fun m => m.all permitted) = true
      · simp [hm, hns]
      · simp [hm, hns]
    · have hname : run permitted (.ident []) (doubled m) = none := by
        rw [run_doubled, if_neg hm]
      rw [run_append_of_none hname]
      simp [hm]

lemma run_placeholders (cs : List (List Char)) (c : List Char) :
    run permitted .between (placeholders (c :: cs)) =
      some ([.symbol '(', .placeholder] ++
        (cs.flatMap fun _ => [.symbol ',', .placeholder]) ++ [.symbol ')'], .between) := by
  have hfirst : run permitted .between "(%s".toList =
      some ([.symbol '(', .placeholder], .between) := rfl
  have hrest : ∀ cs : List (List Char), run permitted .between
      ((cs.map fun _ => "%s".toList).flatMap (fun p => ", ".toList ++ p) ++ ")".toList) =
        some ((cs.flatMap fun _ => [.symbol ',', .placeholder]) ++ [.symbol ')'], .between) := by
    intro cs
    induction cs with
    | nil => rfl
    | cons c cs ih =>
      have hpiece : run permitted .between (", ".toList ++ "%s".toList) =
          some ([.symbol ',', .placeholder], .between) := rfl
      rw [List.map_cons, List.flatMap_cons, List.append_assoc, run_append_of_some hpiece, ih]
      simp
  have htext : placeholders (c :: cs) = "(%s".toList ++
      ((cs.map fun _ => "%s".toList).flatMap (fun p => ", ".toList ++ p) ++ ")".toList) := by
    simp [placeholders, join]
  rw [htext, run_append_of_some hfirst, hrest]
  simp

lemma run_table (t : List Char) (s : List Char) :
    run permitted .between ("INSERT IGNORE INTO `".toList ++ (doubled t ++ ("` (`".toList ++ s))) =
      if t.all permitted then
        (run permitted (.ident []) s).map fun r =>
          ([.word "INSERT".toList, .word "IGNORE".toList, .word "INTO".toList, .ident t,
            .symbol '('] ++ r.1, r.2)
      else none := by
  have hinsert : run permitted .between "INSERT IGNORE INTO `".toList =
      some ([.word "INSERT".toList, .word "IGNORE".toList, .word "INTO".toList], .ident []) := rfl
  have hopen : run permitted (.ident t) "` (`".toList =
      some ([.ident t, .symbol '('], .ident []) := rfl
  rw [run_append_of_some hinsert]
  by_cases ht : t.all permitted = true
  · have hname : run permitted (.ident []) (doubled t) = some ([], .ident t) := by
      rw [run_doubled, if_pos ht, List.nil_append]
    rw [run_append_of_some hname, run_append_of_some hopen, if_pos ht]
    simp [Function.comp_def]
  · have hname : run permitted (.ident []) (doubled t) = none := by
      rw [run_doubled, if_neg ht]
    rw [run_append_of_none hname, if_neg ht]
    rfl

lemma run_columns (c : List Char) (cs : List (List Char)) :
    run permitted (.ident []) (doubled c ++ ('`' :: columnsTail cs ++ placeholders (c :: cs))) =
      if c.all permitted ∧ (cs.all fun m => m.all permitted) then
        some (((c :: cs).map Token.ident).intersperse (.symbol ',') ++
          [.symbol ')', .word "VALUES".toList, .symbol '('] ++
          ((c :: cs).map fun _ => Token.placeholder).intersperse (.symbol ',') ++ [.symbol ')'],
          .between)
      else none := by
  by_cases hc : c.all permitted = true
  · have hname : run permitted (.ident []) (doubled c) = some ([], .ident c) := by
      rw [run_doubled, if_pos hc, List.nil_append]
    rw [run_append_of_some hname, run_append, run_columnsTail]
    by_cases hcs : (cs.all fun m => m.all permitted) = true
    · have hidents : ((c :: cs).map Token.ident).intersperse (.symbol ',') =
          .ident c :: cs.flatMap fun m => [.symbol ',', .ident m] := by
        rw [List.map_cons, intersperse_cons, List.flatMap_map]
      have hvalues : ((c :: cs).map fun _ => Token.placeholder).intersperse (.symbol ',') =
          .placeholder :: cs.flatMap fun _ => [.symbol ',', .placeholder] := by
        rw [List.map_cons, intersperse_cons, List.flatMap_map]
      rw [if_pos hcs, if_pos ⟨hc, hcs⟩, Option.bind_some, run_placeholders, hidents, hvalues]
      simp
    · rw [if_neg hcs, if_neg fun h => hcs h.2]
      rfl
  · have hname : run permitted (.ident []) (doubled c) = none := by
      rw [run_doubled, if_neg hc]
    rw [run_append_of_none hname, if_neg fun h => hc h.1]

/-- What the statement's text is read as. -/
theorem tokens_insert (t c : List Char) (cs : List (List Char)) :
    tokens permitted (beforeValues t (c :: cs) ++ placeholders (c :: cs)) =
      if ∀ n ∈ t :: c :: cs, n.all permitted then some (insertTokens t (c :: cs)) else none := by
  have htext : beforeValues t (c :: cs) ++ placeholders (c :: cs) =
      "INSERT IGNORE INTO `".toList ++ (doubled t ++ ("` (`".toList ++
        (doubled c ++ ('`' :: columnsTail cs ++ placeholders (c :: cs))))) := by
    rw [beforeValues_cons]
    simp
  rw [tokens, htext, run_table, run_columns]
  by_cases ht : t.all permitted = true
  · by_cases hcs : c.all permitted ∧ (cs.all fun m => m.all permitted)
    · have hall : ∀ n ∈ t :: c :: cs, n.all permitted = true := by
        rw [List.forall_mem_cons, List.forall_mem_cons]
        exact ⟨ht, hcs.1, List.all_eq_true.mp hcs.2⟩
      rw [if_pos ht, if_pos hcs, if_pos hall]
      simp [finish, insertTokens]
    · have hnot : ¬ ∀ n ∈ t :: c :: cs, n.all permitted = true := by
        rw [List.forall_mem_cons, List.forall_mem_cons]
        exact fun h => hcs ⟨h.2.1, List.all_eq_true.mpr h.2.2⟩
      rw [if_pos ht, if_neg hcs, if_neg hnot]
      rfl
  · rw [if_neg ht, if_neg fun hall => ht (hall t List.mem_cons_self)]
    rfl

/-! ### What arrives -/

lemma placeholders_congr {cs cs' : List (List Char)} (h : cs.length = cs'.length) :
    placeholders cs = placeholders cs' := by
  have hmap : cs.map (fun _ => "%s".toList) = cs'.map fun _ => "%s".toList := by
    rw [List.map_const', List.map_const', h]
  rw [placeholders, placeholders, hmap]

/-- The names of the tokens. -/
def names (ts : List Token) : List (List Char) :=
  ts.filterMap fun
    | .ident n => some n
    | _ => none

lemma names_append (ts us : List Token) : names (ts ++ us) = names ts ++ names us :=
  List.filterMap_append

lemma names_intersperse (l : List Token) : names (l.intersperse (.symbol ',')) = names l := by
  cases l with
  | nil => rfl
  | cons t l =>
    have hrest : names (l.flatMap fun t => [.symbol ',', t]) = names l := by
      induction l with
      | nil => rfl
      | cons t l ih =>
        have hcons : names [.symbol ',', t] = names [t] := rfl
        rw [List.flatMap_cons, names_append, ih, hcons, ← names_append, List.singleton_append]
    rw [intersperse_cons, ← List.singleton_append, names_append, hrest, ← names_append,
      List.singleton_append]

lemma names_idents (cs : List (List Char)) :
    names ((cs.map Token.ident).intersperse (.symbol ',')) = cs := by
  rw [names_intersperse]
  induction cs with
  | nil => rfl
  | cons c cs ih => exact congrArg (c :: ·) ih

lemma names_placeholders (cs : List (List Char)) :
    names ((cs.map fun _ => Token.placeholder).intersperse (.symbol ',')) = [] := by
  rw [names_intersperse]
  induction cs with
  | nil => rfl
  | cons c cs ih => exact ih

lemma names_insertTokens (t : List Char) (cs : List (List Char)) :
    names (insertTokens t cs) = t :: cs := by
  simp only [insertTokens, names_append, names_idents, names_placeholders]
  simp [names]

lemma mapM_cons_eq_some {n : List Char} {ns out : List (List Char)} :
    (n :: ns).mapM format = some out ↔
      ∃ n' ns', format n = some n' ∧ ns.mapM format = some ns' ∧ out = n' :: ns' := by
  rw [List.mapM_cons]
  cases format n with
  | none => simp
  | some n' =>
    cases ns.mapM format with
    | none => simp
    | some ns' => simp [eq_comm]

lemma length_mapM {ns out : List (List Char)} (h : ns.mapM format = some out) :
    out.length = ns.length := by
  induction ns generalizing out with
  | nil =>
    cases h
    rfl
  | cons n ns ih =>
    obtain ⟨n', ns', -, hns, rfl⟩ := mapM_cons_eq_some.mp h
    rw [List.length_cons, List.length_cons, ih hns]

lemma mapM_format_eq_self_iff {ns : List (List Char)} :
    ns.mapM format = some ns ↔ ∀ n ∈ ns, '%' ∉ n := by
  induction ns with
  | nil => simp
  | cons n ns ih =>
    rw [mapM_cons_eq_some, List.forall_mem_cons, ← ih, ← format_eq_self_iff]
    constructor
    · rintro ⟨n', ns', hn, hns, heq⟩
      obtain ⟨rfl, rfl⟩ := List.cons.inj heq
      exact ⟨hn, hns⟩
    · rintro ⟨hn, hns⟩
      exact ⟨n, ns, hn, hns, rfl⟩

/-- **When the names arrive.** They reach the server as they are exactly where none of them has a
percent sign and the server permits their characters; backticks, quotes, colons and dots do no
harm. -/
theorem intact_iff (permitted : Char → Bool) (table column : String) (columns : List String) :
    Intact permitted table (column :: columns) ↔
      ∀ name ∈ table :: column :: columns,
        '%' ∉ name.toList ∧ name.toList.all permitted = true := by
  have hmem : (∀ name ∈ table :: column :: columns,
      '%' ∉ name.toList ∧ name.toList.all permitted = true) ↔
        ∀ n ∈ table.toList :: (column :: columns).map String.toList,
          '%' ∉ n ∧ n.all permitted = true := by
    simp
  rw [hmem, Intact]
  generalize table.toList = t
  rw [List.map_cons]
  generalize column.toList = c
  generalize columns.map String.toList = cs
  rw [executemanyText, format_beforeValues]
  constructor
  · intro h
    obtain ⟨text, htext, htokens⟩ := Option.bind_eq_some_iff.mp h
    obtain ⟨before, hbefore, rfl⟩ := Option.map_eq_some_iff.mp htext
    obtain ⟨t', ht, hbefore⟩ := Option.bind_eq_some_iff.mp hbefore
    obtain ⟨c', hc, hbefore⟩ := Option.bind_eq_some_iff.mp hbefore
    obtain ⟨cs', hcs, rfl⟩ := Option.map_eq_some_iff.mp hbefore
    have hlength : (c :: cs).length = (c' :: cs').length := by
      rw [List.length_cons, List.length_cons, length_mapM hcs]
    rw [placeholders_congr hlength, tokens_insert] at htokens
    split_ifs at htokens with hpermitted
    -- the server reads the formatted names, so these are the names
    have hnames := congrArg names (Option.some.inj htokens)
    rw [names_insertTokens, names_insertTokens] at hnames
    obtain ⟨rfl, hcols⟩ := List.cons.inj hnames
    obtain ⟨rfl, rfl⟩ := List.cons.inj hcols
    have hpercent : ∀ n ∈ t' :: c' :: cs', '%' ∉ n :=
      List.forall_mem_cons.mpr ⟨format_eq_self_iff.mp ht,
        List.forall_mem_cons.mpr ⟨format_eq_self_iff.mp hc, mapM_format_eq_self_iff.mp hcs⟩⟩
    exact fun n hn => ⟨hpercent n hn, hpermitted n hn⟩
  · intro h
    have ht : format t = some t := format_of_notMem (h t List.mem_cons_self).1
    have hc : format c = some c := format_of_notMem (h c (by simp)).1
    have hcs : cs.mapM format = some cs :=
      mapM_format_eq_self_iff.mpr fun n hn => (h n (by simp [hn])).1
    rw [ht, hc, hcs]
    simp only [Option.bind_some, Option.map_some]
    rw [tokens_insert, if_pos fun n hn => (h n hn).2]

/-- MySQL permits the characters of the basic plane but NUL. -/
def mysqlPermits (c : Char) : Bool := 0 < c.toNat && c.toNat < 0x10000

/-- Two percent signs arrive as one. -/
example : executemanyText "t".toList ["a%%b".toList] =
    some "INSERT IGNORE INTO `t` (`a%b`) VALUES (%s)".toList := by
  decide +kernel

/-- The format of a column `yield%` raises. -/
theorem not_intact_percent : ¬ ∀ (table column : String) (columns : List String),
    (∀ name ∈ table :: column :: columns, name ≠ "" ∧ name.toList.all mysqlPermits = true) →
    (column :: columns).Nodup → Intact mysqlPermits table (column :: columns) := by
  intro hall
  have h := hall "runs_202405" "yield%" [] (by decide +kernel) (by simp)
  have hformat : executemanyText "runs_202405".toList ["yield%".toList] = none := by
    decide +kernel
  rw [Intact, List.map_cons, List.map_nil, hformat] at h
  cases h

end Tdcs.ColumnNames
