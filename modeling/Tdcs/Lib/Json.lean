import Tdcs.Lib.Dict
import Tdcs.Lib.JsonText

/-!
JSON documents: a printer, a parser, and that the parser reads back what the printer writes.

The printer writes one line, with `", "` and `": "` as separators; the parser takes white space
wherever it may stand. A key that comes twice in an object has its last value.
-/

namespace Tdcs.Lib.Json

inductive Value (F : Type*)
  | null
  | bool (b : Bool)
  | int (n : ℤ)
  | float (x : F)
  | str (s : String)
  | arr (l : List (Value F))
  | obj (m : List (String × Value F))

variable {F : Type*} (fmt : FloatFormat F)

/-! ### Printing -/

section

variable (ascii : Bool)

mutual

def print : Value F → List Char
  | .null => ['n', 'u', 'l', 'l']
  | .bool true => ['t', 'r', 'u', 'e']
  | .bool false => ['f', 'a', 'l', 's', 'e']
  | .int n => (Numeral.ofInt n).text
  | .float x => (fmt.repr x).text
  | .str s => printString ascii s
  | .arr [] => ['[', ']']
  | .arr (v :: l) => '[' :: (print v ++ printElems l)
  | .obj [] => ['{', '}']
  | .obj ((k, v) :: m) =>
    '{' :: (printString ascii k ++ (':' :: ' ' :: (print v ++ printMembers m)))

/-- What stands behind the first element. -/
def printElems : List (Value F) → List Char
  | [] => [']']
  | v :: l => ',' :: ' ' :: (print v ++ printElems l)

/-- What stands behind the first member. -/
def printMembers : List (String × Value F) → List Char
  | [] => ['}']
  | (k, v) :: m =>
    ',' :: ' ' :: (printString ascii k ++ (':' :: ' ' :: (print v ++ printMembers m)))

end

end

/-! ### Parsing -/

def isWhitespace (c : Char) : Bool := c = ' ' || c = '\t' || c = '\n' || c = '\r'

def skip (s : List Char) : List Char := s.dropWhile isWhitespace

/-- The value of a word, if the text starts with it. -/
def word (w : List Char) (v : Value F) (s : List Char) : Option (Value F × List Char) :=
  if w <+: s then some (v, s.drop w.length) else none

def number (s : List Char) : Option (Value F × List Char) :=
  (scanNumeral s).map fun p =>
    (if p.1.isInt then .int p.1.intValue else .float (fmt.value p.1), p.2)

def string (s : List Char) : Option (String × List Char) :=
  (scanString (s.length + 1) s).map fun p => (String.ofList p.1, p.2)

/-- Behind an element or a member: a comma, or the closing bracket. -/
def sep (close : Char) (s : List Char) : Option (Bool × List Char) :=
  match skip s with
  | [] => none
  | c :: s => if c = ',' then some (true, skip s) else if c = close then some (false, s) else none

/-- The key of a member, with its colon. -/
def key (s : List Char) : Option (String × List Char) :=
  match s with
  | [] => none
  | c :: s =>
    if c = quoteMark then
      (string s).bind fun p =>
        match skip p.2 with
        | [] => none
        | c :: s => if c = ':' then some (p.1, skip s) else none
    else none

mutual

/-- A value at the start of the text; the first argument is fuel. -/
def parseValue : ℕ → List Char → Option (Value F × List Char)
  | 0, _ => none
  | _ + 1, [] => none
  | n + 1, c :: s =>
    if c = quoteMark then (string s).map fun p => (.str p.1, p.2)
    else if c = '{' then
      if (skip s).head? = some '}' then some (.obj [], (skip s).tail)
      else (parseMembers n (skip s)).map fun p => (.obj (Dict.ofPairs p.1).entries, p.2)
    else if c = '[' then
      if (skip s).head? = some ']' then some (.arr [], (skip s).tail)
      else (parseElems n (skip s)).map fun p => (.arr p.1, p.2)
    else if c = 'n' then word ['n', 'u', 'l', 'l'] .null (c :: s)
    else if c = 't' then word ['t', 'r', 'u', 'e'] (.bool true) (c :: s)
    else if c = 'f' then word ['f', 'a', 'l', 's', 'e'] (.bool false) (c :: s)
    else number fmt (c :: s)

/-- The elements up to the closing bracket. -/
def parseElems : ℕ → List Char → Option (List (Value F) × List Char)
  | 0, _ => none
  | n + 1, s =>
    (parseValue n s).bind fun p => (sep ']' p.2).bind fun q =>
      if q.1 then (parseElems n q.2).map fun r => (p.1 :: r.1, r.2) else some ([p.1], q.2)

/-- The members up to the closing brace. -/
def parseMembers : ℕ → List Char → Option (List (String × Value F) × List Char)
  | 0, _ => none
  | n + 1, s =>
    (key s).bind fun k => (parseValue n k.2).bind fun p => (sep '}' p.2).bind fun q =>
      if q.1 then (parseMembers n q.2).map fun r => ((k.1, p.1) :: r.1, r.2)
      else some ([(k.1, p.1)], q.2)

end

/-- The whole text is one value. -/
def parse (s : List Char) : Option (Value F) :=
  (parseValue fmt s.length (skip s)).bind fun p => if (skip p.2).isEmpty then some p.1 else none

/-! ### Distinct keys -/

mutual

/-- No key comes twice in an object. -/
def Distinct : Value F → Prop
  | .arr l => DistinctElems l
  | .obj m => (m.map Prod.fst).Nodup ∧ DistinctMembers m
  | _ => True

def DistinctElems : List (Value F) → Prop
  | [] => True
  | v :: l => Distinct v ∧ DistinctElems l

def DistinctMembers : List (String × Value F) → Prop
  | [] => True
  | (_, v) :: m => Distinct v ∧ DistinctMembers m

end

/-! ### Heads -/

/-- The first character of a value that is printed. -/
def StartsValue (c : Char) : Prop :=
  c.isDigit = true ∨ c = '-' ∨ c = quoteMark ∨ c = '{' ∨ c = '[' ∨ c = 'n' ∨ c = 't' ∨ c = 'f'

lemma StartsValue.ne {c : Char} (h : StartsValue c) :
    isWhitespace c = false ∧ c ≠ ']' ∧ c ≠ '}' := by
  rcases h with h | rfl | rfl | rfl | rfl | rfl | rfl | rfl
  · have hne : ∀ d : Char, d.isDigit = false → c ≠ d := by
      rintro d hd rfl
      rw [h] at hd
      cases hd
    refine ⟨?_, hne _ rfl, hne _ rfl⟩
    simp [isWhitespace, hne ' ' rfl, hne '\t' rfl, hne '\n' rfl, hne '\r' rfl]
  all_goals decide

lemma text_eq_cons {n : Numeral} (hn : n.Valid) :
    ∃ c t, n.text = c :: t ∧ (c.isDigit = true ∨ c = '-') := by
  obtain ⟨⟨hne, hall⟩, -⟩ := hn.int
  unfold Numeral.text
  cases n.neg with
  | true => exact ⟨'-', _, rfl, .inr rfl⟩
  | false =>
    cases hi : n.int with
    | nil => exact absurd hi hne
    | cons c ds => exact ⟨c, _, rfl, .inl (hall c (hi ▸ List.mem_cons_self))⟩

lemma print_eq_cons (ascii : Bool) (v : Value F) :
    ∃ c t, print fmt ascii v = c :: t ∧ StartsValue c := by
  have hnum : ∀ n : Numeral, n.Valid → ∃ c t, n.text = c :: t ∧ StartsValue c := by
    intro n hn
    obtain ⟨c, t, heq, hc⟩ := text_eq_cons hn
    exact ⟨c, t, heq, hc.imp_right .inl⟩
  cases v with
  | null => exact ⟨'n', _, by rw [print], by simp [StartsValue]⟩
  | bool b =>
    cases b with
    | true => exact ⟨'t', _, by rw [print], by simp [StartsValue]⟩
    | false => exact ⟨'f', _, by rw [print], by simp [StartsValue]⟩
  | int n =>
    rw [print]
    exact hnum _ (valid_ofInt n)
  | float x =>
    rw [print]
    exact hnum _ (fmt.valid x)
  | str s => exact ⟨quoteMark, _, by rw [print, printString], by simp [StartsValue]⟩
  | arr l =>
    cases l with
    | nil => exact ⟨'[', _, by rw [print], by simp [StartsValue]⟩
    | cons v l => exact ⟨'[', _, by rw [print], by simp [StartsValue]⟩
  | obj m =>
    cases m with
    | nil => exact ⟨'{', _, by rw [print], by simp [StartsValue]⟩
    | cons p m => exact ⟨'{', _, by rw [print], by simp [StartsValue]⟩

lemma skip_of_head {c : Char} (h : isWhitespace c = false) (s : List Char) :
    skip (c :: s) = c :: s := by
  rw [skip, List.dropWhile_cons_of_neg (by simp [h])]

lemma skip_print (ascii : Bool) (v : Value F) (s : List Char) :
    skip (print fmt ascii v ++ s) = print fmt ascii v ++ s := by
  obtain ⟨c, t, heq, hc⟩ := print_eq_cons fmt ascii v
  rw [heq, List.cons_append, skip_of_head hc.ne.1]

/-! ### Reading back -/

lemma word_append (w : List Char) (v : Value F) (s : List Char) :
    word w v (w ++ s) = some (v, s) := by
  rw [word, if_pos (List.prefix_append w s), List.drop_left]

lemma string_print (ascii : Bool) (str : String) (s : List Char) :
    string (str.toList.flatMap (escape ascii) ++ quoteMark :: s) = some (str, s) := by
  have hlen := length_le_flatMap_escape ascii str.toList
  rw [string, scanString_escape ascii str.toList s (by rw [List.length_append]; omega),
    Option.map_some, String.ofList_toList]

lemma key_print (ascii : Bool) (k : String) (v : Value F) (s : List Char) :
    key (printString ascii k ++ (':' :: ' ' :: (print fmt ascii v ++ s))) =
      some (k, print fmt ascii v ++ s) := by
  have hskip : skip (' ' :: (print fmt ascii v ++ s)) = print fmt ascii v ++ s := by
    rw [skip, List.dropWhile_cons_of_pos rfl]
    exact skip_print fmt ascii v s
  have hcolon : ∀ t, skip (':' :: t) = ':' :: t := fun t => skip_of_head rfl t
  simp [key, printString, string_print, hcolon, hskip]

lemma ends_printElems (ascii : Bool) (l : List (Value F)) (s : List Char) :
    Ends (printElems fmt ascii l ++ s) := by
  cases l with
  | nil =>
    rw [printElems]
    exact ends_cons (by decide)
  | cons v l =>
    rw [printElems]
    exact ends_cons (by decide)

lemma ends_printMembers (ascii : Bool) (m : List (String × Value F)) (s : List Char) :
    Ends (printMembers fmt ascii m ++ s) := by
  cases m with
  | nil =>
    rw [printMembers]
    exact ends_cons (by decide)
  | cons p m =>
    rw [printMembers]
    exact ends_cons (by decide)

lemma number_text {n : Numeral} (hn : n.Valid) {s : List Char} (hs : Ends s) :
    number fmt (n.text ++ s) =
      some (if n.isInt then .int n.intValue else .float (fmt.value n), s) := by
  rw [number, scanNumeral_text hn hs, Option.map_some]

lemma parseValue_number {n : Numeral} (hn : n.Valid) {s : List Char} (hs : Ends s) (fuel : ℕ) :
    parseValue fmt (fuel + 1) (n.text ++ s) =
      some (if n.isInt then .int n.intValue else .float (fmt.value n), s) := by
  rw [← number_text fmt hn hs]
  obtain ⟨c, t, heq, hc⟩ := text_eq_cons hn
  have hne : ∀ d : Char, d.isDigit = false → d ≠ '-' → c ≠ d := by
    rintro d hd hm rfl
    rcases hc with hc | hc
    · rw [hc] at hd
      cases hd
    · exact hm hc
  rw [heq, List.cons_append, parseValue, if_neg (hne _ rfl (by decide)),
    if_neg (hne _ rfl (by decide)), if_neg (hne _ rfl (by decide)),
    if_neg (hne _ rfl (by decide)), if_neg (hne _ rfl (by decide)),
    if_neg (hne _ rfl (by decide))]

lemma sep_close (close : Char) (hc : close ≠ ',' ∧ isWhitespace close = false) (s : List Char) :
    sep close (close :: s) = some (false, s) := by
  simp [sep, skip_of_head hc.2, hc.1]

lemma sep_comma (close : Char) {c : Char} (hc : isWhitespace c = false) (t s : List Char) :
    sep close (',' :: ' ' :: (c :: t ++ s)) = some (true, c :: t ++ s) := by
  have hskip : skip (' ' :: (c :: t ++ s)) = c :: t ++ s := by
    rw [skip, List.dropWhile_cons_of_pos rfl]
    exact skip_of_head hc _
  rw [sep, skip_of_head (by decide)]
  simp only [if_true, hskip]

lemma sep_elems (ascii : Bool) (v : Value F) (l : List (Value F)) (s : List Char) :
    sep ']' (printElems fmt ascii (v :: l) ++ s) =
      some (true, print fmt ascii v ++ (printElems fmt ascii l ++ s)) := by
  obtain ⟨c, t, heq, hc⟩ := print_eq_cons fmt ascii v
  have := sep_comma ']' hc.ne.1 t (printElems fmt ascii l ++ s)
  rw [printElems, heq]
  simpa using this

lemma sep_members (ascii : Bool) (k : String) (v : Value F) (m : List (String × Value F))
    (s : List Char) : sep '}' (printMembers fmt ascii ((k, v) :: m) ++ s) =
      some (true, printString ascii k ++ (':' :: ' ' ::
        (print fmt ascii v ++ (printMembers fmt ascii m ++ s)))) := by
  have := sep_comma '}' (c := quoteMark) (by decide)
    (k.toList.flatMap (escape ascii) ++ [quoteMark]) (':' :: ' ' ::
      (print fmt ascii v ++ (printMembers fmt ascii m ++ s)))
  rw [printMembers]
  simpa [printString] using this

/-- The value is read back in front of everything that does not go on with it. -/
def ReadsBack (ascii : Bool) (v : Value F) : Prop :=
  ∀ n s, (print fmt ascii v).length ≤ n → Ends s →
    parseValue fmt n (print fmt ascii v ++ s) = some (v, s)

lemma exists_fuel (ascii : Bool) (v : Value F) {n : ℕ} (hn : (print fmt ascii v).length ≤ n) :
    ∃ m, n = m + 1 := by
  obtain ⟨c, t, heq, -⟩ := print_eq_cons fmt ascii v
  rw [heq, List.length_cons] at hn
  exact Nat.exists_eq_succ_of_ne_zero (by omega)

lemma parseElems_print (ascii : Bool) (v : Value F) (hv : ReadsBack fmt ascii v)
    (l : List (Value F)) (hl : ∀ w ∈ l, ReadsBack fmt ascii w) (n : ℕ) (s : List Char)
    (hn : (print fmt ascii v).length + (printElems fmt ascii l).length ≤ n) :
    parseElems fmt n (print fmt ascii v ++ (printElems fmt ascii l ++ s)) = some (v :: l, s) := by
  induction l generalizing v n with
  | nil =>
    obtain ⟨n, rfl⟩ := exists_fuel fmt ascii v (Nat.le_of_add_right_le hn)
    rw [printElems, List.length_singleton] at hn
    have hends := ends_printElems fmt ascii [] s
    rw [parseElems, hv n _ (by omega) hends, Option.bind_some, printElems,
      List.singleton_append, sep_close ']' (by decide), Option.bind_some]
    rfl
  | cons w l ih =>
    obtain ⟨n, rfl⟩ := exists_fuel fmt ascii v (Nat.le_of_add_right_le hn)
    rw [printElems] at hn
    simp only [List.length_cons, List.length_append] at hn
    have hends := ends_printElems fmt ascii (w :: l) s
    rw [List.forall_mem_cons] at hl
    rw [parseElems, hv n _ (by omega) hends, Option.bind_some, sep_elems, Option.bind_some,
      if_pos rfl, ih w hl.1 hl.2 n (by omega), Option.map_some]

lemma parseMembers_print (ascii : Bool) (k : String) (v : Value F) (hv : ReadsBack fmt ascii v)
    (m : List (String × Value F)) (hm : ∀ p ∈ m, ReadsBack fmt ascii p.2) (n : ℕ) (s : List Char)
    (hn : (print fmt ascii v).length + (printMembers fmt ascii m).length ≤ n) :
    parseMembers fmt n (printString ascii k ++ (':' :: ' ' ::
      (print fmt ascii v ++ (printMembers fmt ascii m ++ s)))) = some ((k, v) :: m, s) := by
  induction m generalizing k v n with
  | nil =>
    obtain ⟨n, rfl⟩ := exists_fuel fmt ascii v (Nat.le_of_add_right_le hn)
    rw [printMembers, List.length_singleton] at hn
    have hends := ends_printMembers fmt ascii [] s
    rw [parseMembers, key_print, Option.bind_some, hv n _ (by omega) hends,
      Option.bind_some, printMembers, List.singleton_append, sep_close '}' (by decide),
      Option.bind_some]
    rfl
  | cons p m ih =>
    obtain ⟨k', w⟩ := p
    obtain ⟨n, rfl⟩ := exists_fuel fmt ascii v (Nat.le_of_add_right_le hn)
    rw [printMembers] at hn
    simp only [List.length_cons, List.length_append] at hn
    have hends := ends_printMembers fmt ascii ((k', w) :: m) s
    rw [List.forall_mem_cons] at hm
    rw [parseMembers, key_print, Option.bind_some, hv n _ (by omega) hends, Option.bind_some,
      sep_members, Option.bind_some, if_pos rfl, ih k' w hm.1 hm.2 n (by omega), Option.map_some]

lemma readsBack_str (ascii : Bool) (str : String) : ReadsBack fmt ascii (.str str) := by
  intro n s hn _
  have htext : print fmt ascii (.str str) ++ s =
      quoteMark :: (str.toList.flatMap (escape ascii) ++ quoteMark :: s) := by
    simp [print, printString]
  obtain ⟨n, rfl⟩ := exists_fuel fmt ascii (.str str) hn
  rw [htext, parseValue, if_pos rfl, string_print, Option.map_some]

lemma readsBack_arr (ascii : Bool) (l : List (Value F)) (hl : ∀ w ∈ l, ReadsBack fmt ascii w) :
    ReadsBack fmt ascii (.arr l) := by
  intro n s hn _
  obtain ⟨n, rfl⟩ := exists_fuel fmt ascii (.arr l) hn
  cases l with
  | nil =>
    rw [print]
    rfl
  | cons v l =>
    rw [List.forall_mem_cons] at hl
    rw [print] at hn ⊢
    simp only [List.length_cons, List.length_append] at hn
    obtain ⟨c, t, heq, hc⟩ := print_eq_cons fmt ascii v
    have hhead : (print fmt ascii v ++ (printElems fmt ascii l ++ s)).head? ≠ some ']' := by
      simpa [heq] using hc.ne.2.1
    rw [List.cons_append, List.append_assoc, parseValue, if_neg (by decide), if_neg (by decide),
      if_pos rfl, skip_print, if_neg hhead,
      parseElems_print fmt ascii v hl.1 l hl.2 n s (by omega), Option.map_some]

lemma readsBack_obj (ascii : Bool) (m : List (String × Value F)) (hm : (m.map Prod.fst).Nodup)
    (hv : ∀ p ∈ m, ReadsBack fmt ascii p.2) : ReadsBack fmt ascii (.obj m) := by
  intro n s hn _
  obtain ⟨n, rfl⟩ := exists_fuel fmt ascii (.obj m) hn
  cases m with
  | nil =>
    rw [print]
    rfl
  | cons p m =>
    obtain ⟨k, v⟩ := p
    rw [List.forall_mem_cons] at hv
    rw [print] at hn ⊢
    simp only [List.length_cons, List.length_append] at hn
    let rest := ':' :: ' ' :: (print fmt ascii v ++ (printMembers fmt ascii m ++ s))
    have hskip : skip (printString ascii k ++ rest) = printString ascii k ++ rest := by
      rw [printString, List.cons_append, skip_of_head (by decide)]
    have hne : quoteMark ≠ '}' := by decide
    have hhead : (printString ascii k ++ rest).head? ≠ some '}' := by simp [printString, hne]
    have hassoc : '{' :: (printString ascii k ++ (':' :: ' ' ::
        (print fmt ascii v ++ printMembers fmt ascii m))) ++ s =
        '{' :: (printString ascii k ++ rest) := by
      simp [rest]
    rw [hassoc, parseValue, if_neg (by decide), if_pos rfl, hskip, if_neg hhead,
      parseMembers_print fmt ascii k v hv.1 m hv.2 n s (by omega), Option.map_some]
    dsimp only
    rw [Dict.entries_ofPairs hm]

mutual

/-- **Every value with distinct keys is read back.** -/
theorem readsBack (ascii : Bool) : ∀ v : Value F, Distinct v → ReadsBack fmt ascii v
  | .null, _ => by
    intro n s hn _
    obtain ⟨n, rfl⟩ := exists_fuel fmt ascii .null hn
    rw [print]
    exact word_append ['n', 'u', 'l', 'l'] .null s
  | .bool true, _ => by
    intro n s hn _
    obtain ⟨n, rfl⟩ := exists_fuel fmt ascii (.bool true) hn
    rw [print]
    exact word_append ['t', 'r', 'u', 'e'] (.bool true) s
  | .bool false, _ => by
    intro n s hn _
    obtain ⟨n, rfl⟩ := exists_fuel fmt ascii (.bool false) hn
    rw [print]
    exact word_append ['f', 'a', 'l', 's', 'e'] (.bool false) s
  | .int i, _ => by
    intro n s hn hs
    obtain ⟨n, rfl⟩ := exists_fuel fmt ascii (.int i) hn
    rw [print]
    rw [parseValue_number fmt (valid_ofInt i) hs, intValue_ofInt]
    rfl
  | .float x, _ => by
    intro n s hn hs
    obtain ⟨n, rfl⟩ := exists_fuel fmt ascii (.float x) hn
    rw [print]
    rw [parseValue_number fmt (fmt.valid x) hs, fmt.isFloat, if_neg (by decide), fmt.value_repr]
  | .str str, _ => readsBack_str fmt ascii str
  | .arr l, h => readsBack_arr fmt ascii l (readsBack_elems ascii l h)
  | .obj m, h => readsBack_obj fmt ascii m h.1 (readsBack_members ascii m h.2)

theorem readsBack_elems (ascii : Bool) : ∀ l : List (Value F), DistinctElems l →
    ∀ w ∈ l, ReadsBack fmt ascii w
  | [], _ => by simp
  | v :: l, h => List.forall_mem_cons.mpr ⟨readsBack ascii v h.1, readsBack_elems ascii l h.2⟩

theorem readsBack_members (ascii : Bool) : ∀ m : List (String × Value F), DistinctMembers m →
    ∀ p ∈ m, ReadsBack fmt ascii p.2
  | [], _ => by simp
  | (_, v) :: m, h =>
    List.forall_mem_cons.mpr ⟨readsBack ascii v h.1, readsBack_members ascii m h.2⟩

end

/-- **The parser inverts the printer** on values with distinct keys. -/
theorem parse_print (ascii : Bool) (v : Value F) (h : Distinct v) :
    parse fmt (print fmt ascii v) = some v := by
  have hread := readsBack fmt ascii v h _ [] (Nat.le_refl _) ends_nil
  have hskip := skip_print fmt ascii v []
  rw [List.append_nil] at hread hskip
  rw [parse, hskip, hread]
  rfl

/-! ### One line -/

/-- No control character is among them. -/
def Printable (l : List Char) : Prop := ∀ c ∈ l, 32 ≤ c.toNat

@[simp] lemma printable_nil : Printable [] := by simp [Printable]

@[simp] lemma printable_cons {c : Char} {l : List Char} :
    Printable (c :: l) ↔ 32 ≤ c.toNat ∧ Printable l := List.forall_mem_cons

@[simp] lemma printable_append {l l' : List Char} :
    Printable (l ++ l') ↔ Printable l ∧ Printable l' := List.forall_mem_append

lemma Printable.notMem {l : List Char} (h : Printable l) {c : Char} (hc : c.toNat < 32) :
    c ∉ l := by
  intro hmem
  have := h c hmem
  omega

lemma toNat_hexDigit : ∀ n < 16, 32 ≤ (hexDigit n).toNat := by decide

lemma printable_unicodeEscape {n : ℕ} (hn : n < 65536) : Printable (unicodeEscape n) := by
  have h1 := toNat_hexDigit (n / 4096) (by omega)
  have h2 := toNat_hexDigit (n / 256 % 16) (by omega)
  have h3 := toNat_hexDigit (n / 16 % 16) (by omega)
  have h4 := toNat_hexDigit (n % 16) (by omega)
  simp [unicodeEscape, hex4, backslash, h1, h2, h3, h4]

lemma printable_escape (ascii : Bool) (c : Char) : Printable (escape ascii c) := by
  unfold escape
  have hvalid := toNat_valid c
  split_ifs with h1 h2 h3 h4 h5 h6 h7 h8 h9
  · simp [backslash, quoteMark]
  · simp [backslash]
  · simp [backslash]
  · simp [backslash]
  · simp [backslash]
  · simp [backslash]
  · simp [backslash]
  · exact printable_unicodeEscape h9
  · rw [printable_append]
    exact ⟨printable_unicodeEscape (by omega), printable_unicodeEscape (by omega)⟩
  · rw [not_or] at h8
    simpa using h8.1

lemma printable_printString (ascii : Bool) (s : String) : Printable (printString ascii s) := by
  have hbody : Printable (s.toList.flatMap (escape ascii)) := by
    intro c hc
    obtain ⟨d, -, hd⟩ := List.mem_flatMap.mp hc
    exact printable_escape ascii d c hd
  simp [printString, quoteMark, hbody]

lemma printable_digits {ds : List Char} (hd : ∀ c ∈ ds, c.isDigit = true) : Printable ds := by
  intro c hc
  have h := hd c hc
  simp only [Char.isDigit, Bool.and_eq_true, decide_eq_true_eq] at h
  have h48 : 48 ≤ c.toNat := h.1
  omega

lemma printable_text {n : Numeral} (hn : n.Valid) : Printable n.text := by
  have hint := printable_digits hn.int.1.2
  have hfrac : Printable (Numeral.fracText n.frac) := by
    rcases hf : n.frac with _ | ds
    · simp [Numeral.fracText]
    · simp [Numeral.fracText, printable_digits (hn.frac ds hf).2]
  have hexp : Printable (Numeral.expText n.exp) := by
    rcases he : n.exp with _ | ⟨sign, ds⟩
    · simp [Numeral.expText]
    · obtain ⟨hds, hsign⟩ := hn.exp sign ds he
      have hs : Printable sign.toList := by
        intro c hc
        rcases hsign c (Option.mem_toList.mp hc) with rfl | rfl <;> simp
      simp [Numeral.expText, hs, printable_digits hds.2]
  rcases hneg : n.neg <;> simp [Numeral.text, hneg, hint, hfrac, hexp]

mutual

/-- **A document is one line**, and has no other control character in it either. -/
theorem printable_print (ascii : Bool) : ∀ v : Value F, Printable (print fmt ascii v)
  | .null => by simp [print]
  | .bool true => by simp [print]
  | .bool false => by simp [print]
  | .int n => by simp [print, printable_text (valid_ofInt n)]
  | .float x => by simp [print, printable_text (fmt.valid x)]
  | .str s => by simp [print, printable_printString ascii s]
  | .arr [] => by simp [print]
  | .arr (v :: l) => by
    have hv := printable_print ascii v
    have hl := printable_printElems ascii l
    simp [print, hv, hl]
  | .obj [] => by simp [print]
  | .obj ((k, v) :: m) => by
    have hk := printable_printString ascii k
    have hv := printable_print ascii v
    have hm := printable_printMembers ascii m
    simp [print, hk, hv, hm]

theorem printable_printElems (ascii : Bool) :
    ∀ l : List (Value F), Printable (printElems fmt ascii l)
  | [] => by simp [printElems]
  | v :: l => by
    have hv := printable_print ascii v
    have hl := printable_printElems ascii l
    simp [printElems, hv, hl]

theorem printable_printMembers (ascii : Bool) :
    ∀ m : List (String × Value F), Printable (printMembers fmt ascii m)
  | [] => by simp [printMembers]
  | (k, v) :: m => by
    have hk := printable_printString ascii k
    have hv := printable_print ascii v
    have hm := printable_printMembers ascii m
    simp [printMembers, hk, hv, hm]

end

end Tdcs.Lib.Json
