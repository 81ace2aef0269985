import Mathlib.Data.Int.Notation
import Mathlib.Data.Nat.Notation
import Mathlib.Data.List.Basic
import Mathlib.Tactic.Common

/-!
The numbers and strings of a JSON text: what is written for them, and that it is read back.

Floats are a parameter that comes with the texts of its numbers. A lone surrogate in an escape
is no character here.
-/

namespace Tdcs.Lib.Json

/-! ### Numbers -/

/-- The text of a number: the digits before the point, those behind it, and the exponent with
its sign. -/
structure Numeral where
  neg : Bool := false
  int : List Char
  frac : Option (List Char) := none
  exp : Option (Option Char × List Char) := none
  deriving DecidableEq

namespace Numeral

def fracText : Option (List Char) → List Char
  | none => []
  | some ds => '.' :: ds

def expText : Option (Option Char × List Char) → List Char
  | none => []
  | some (sign, ds) => 'e' :: (sign.toList ++ ds)

def text (n : Numeral) : List Char :=
  (if n.neg then ['-'] else []) ++ (n.int ++ (fracText n.frac ++ expText n.exp))

def AllDigits (ds : List Char) : Prop := ds ≠ [] ∧ ∀ c ∈ ds, c.isDigit = true

/-- Digits, of which a zero stands first only if it is the only one. -/
def IntPart (ds : List Char) : Prop :=
  AllDigits ds ∧ (ds.head? = some '0' → ds = ['0'])

structure Valid (n : Numeral) : Prop where
  int : IntPart n.int
  frac : ∀ ds, n.frac = some ds → AllDigits ds
  exp : ∀ sign ds, n.exp = some (sign, ds) →
    AllDigits ds ∧ ∀ c, sign = some c → c = '+' ∨ c = '-'

/-- A number with neither a fraction nor an exponent is an integer. -/
def isInt (n : Numeral) : Bool := n.frac.isNone && n.exp.isNone

def intValue (n : Numeral) : ℤ :=
  let m : ℕ := Nat.ofDigitChars 10 n.int 0
  if n.neg then -m else m

def ofInt (i : ℤ) : Numeral := { neg := i < 0, int := Nat.toDigits 10 i.natAbs }

end Numeral

/-- Floats that are written with a fraction or an exponent and read back as they were. -/
structure FloatFormat (F : Type*) where
  repr : F → Numeral
  value : Numeral → F
  valid : ∀ x, (repr x).Valid
  isFloat : ∀ x, (repr x).isInt = false
  value_repr : ∀ x, value (repr x) = x

def scanInt : List Char → Option (List Char × List Char)
  | [] => none
  | c :: s =>
    if c = '0' then some (['0'], s)
    else if c.isDigit then
      some ((c :: s).takeWhile Char.isDigit, (c :: s).dropWhile Char.isDigit)
    else none

/-- The fraction, if a point with a digit behind it follows. -/
def scanFrac : List Char → Option (List Char) × List Char
  | [] => (none, [])
  | c :: s =>
    if c = '.' ∧ s.takeWhile Char.isDigit ≠ [] then
      (some (s.takeWhile Char.isDigit), s.dropWhile Char.isDigit)
    else (none, c :: s)

def scanSign : List Char → Option Char × List Char
  | [] => (none, [])
  | c :: s => if c = '+' ∨ c = '-' then (some c, s) else (none, c :: s)

/-- The exponent, if the letter and a digit follow. -/
def scanExp : List Char → Option (Option Char × List Char) × List Char
  | [] => (none, [])
  | c :: s =>
    let (sign, ds) := scanSign s
    if (c = 'e' ∨ c = 'E') ∧ ds.takeWhile Char.isDigit ≠ [] then
      (some (sign, ds.takeWhile Char.isDigit), ds.dropWhile Char.isDigit)
    else (none, c :: s)

def scanNeg : List Char → Bool × List Char
  | [] => (false, [])
  | c :: s => if c = '-' then (true, s) else (false, c :: s)

def scanNumeral (s : List Char) : Option (Numeral × List Char) :=
  let (neg, s) := scanNeg s
  (scanInt s).map fun (int, s) =>
    let (frac, s) := scanFrac s
    let (exp, s) := scanExp s
    ({ neg, int, frac, exp }, s)

/-- What follows does not go on with the number. -/
def Ends (s : List Char) : Prop :=
  ∀ c ∈ s.head?, c.isDigit = false ∧ c ≠ '.' ∧ c ≠ 'e' ∧ c ≠ 'E'

lemma ends_nil : Ends [] := by simp [Ends]

lemma ends_cons {c : Char} {s : List Char} (h : c.isDigit = false ∧ c ≠ '.' ∧ c ≠ 'e' ∧ c ≠ 'E') :
    Ends (c :: s) := by
  simpa [Ends] using h

lemma span_digits {ds s : List Char} (hd : ∀ c ∈ ds, c.isDigit = true)
    (hs : ∀ c ∈ s.head?, c.isDigit = false) :
    (ds ++ s).takeWhile Char.isDigit = ds ∧ (ds ++ s).dropWhile Char.isDigit = s := by
  rw [List.takeWhile_append_of_pos hd, List.dropWhile_append_of_pos hd]
  cases s with
  | nil => simp
  | cons c s =>
    have hc : c.isDigit = false := hs c rfl
    simp [hc]

lemma scanExp_text {e : Option (Option Char × List Char)} {s : List Char}
    (he : ∀ sign ds, e = some (sign, ds) →
      Numeral.AllDigits ds ∧ ∀ c, sign = some c → c = '+' ∨ c = '-')
    (hs : Ends s) : scanExp (Numeral.expText e ++ s) = (e, s) := by
  cases e with
  | none =>
    cases s with
    | nil => rfl
    | cons c s =>
      obtain ⟨-, -, h1, h2⟩ := hs c rfl
      simp [Numeral.expText, scanExp, h1, h2]
  | some p =>
    obtain ⟨sign, ds⟩ := p
    obtain ⟨⟨hne, hd⟩, hsign⟩ := he sign ds rfl
    obtain ⟨htake, hdrop⟩ := span_digits hd fun c hc => (hs c hc).1
    have hscan : scanSign (sign.toList ++ (ds ++ s)) = (sign, ds ++ s) := by
      cases sign with
      | some c => rcases hsign c rfl with rfl | rfl <;> rfl
      | none =>
        cases ds with
        | nil => exact absurd rfl hne
        | cons c ds =>
          have hc := hd c List.mem_cons_self
          have h1 : c ≠ '+' := by
            rintro rfl
            revert hc
            decide
          have h2 : c ≠ '-' := by
            rintro rfl
            revert hc
            decide
          simp [scanSign, h1, h2]
    simp [Numeral.expText, scanExp, hscan, htake, hdrop, hne]

lemma head_fracText {n : Numeral} {s : List Char} (hs : Ends s) :
    ∀ c ∈ (Numeral.fracText n.frac ++ (Numeral.expText n.exp ++ s)).head?,
      c.isDigit = false := by
  intro c hc
  cases hf : n.frac with
  | some ds =>
    rw [hf] at hc
    cases hc
    decide
  | none =>
    cases he : n.exp with
    | some p =>
      rw [hf, he] at hc
      cases hc
      decide
    | none =>
      rw [hf, he] at hc
      exact (hs c hc).1

lemma scanFrac_text {f : Option (List Char)} {s : List Char}
    (hf : ∀ ds, f = some ds → Numeral.AllDigits ds)
    (hs : ∀ c ∈ s.head?, c.isDigit = false ∧ c ≠ '.') :
    scanFrac (Numeral.fracText f ++ s) = (f, s) := by
  cases f with
  | none =>
    cases s with
    | nil => rfl
    | cons c s => simp [Numeral.fracText, scanFrac, (hs c rfl).2]
  | some ds =>
    obtain ⟨hne, hd⟩ := hf ds rfl
    obtain ⟨htake, hdrop⟩ := span_digits hd fun c hc => (hs c hc).1
    simp [Numeral.fracText, scanFrac, htake, hdrop, hne]

lemma head_expText {e : Option (Option Char × List Char)} {s : List Char} (hs : Ends s) :
    ∀ c ∈ (Numeral.expText e ++ s).head?, c.isDigit = false ∧ c ≠ '.' := by
  intro c hc
  cases e with
  | some p =>
    cases hc
    decide
  | none => exact ⟨(hs c hc).1, (hs c hc).2.1⟩

lemma scanInt_text {ds s : List Char} (hd : Numeral.IntPart ds)
    (hs : ∀ c ∈ s.head?, c.isDigit = false) : scanInt (ds ++ s) = some (ds, s) := by
  obtain ⟨⟨hne, hall⟩, hzero⟩ := hd
  obtain ⟨htake, hdrop⟩ := span_digits hall hs
  cases ds with
  | nil => exact absurd rfl hne
  | cons c ds =>
    by_cases hc : c = '0'
    · subst hc
      cases hzero rfl
      rfl
    · rw [List.cons_append] at htake hdrop ⊢
      rw [scanInt, if_neg hc, if_pos (hall c List.mem_cons_self), htake, hdrop]

lemma scanNeg_text {neg : Bool} {ds s : List Char} (hd : Numeral.AllDigits ds) :
    scanNeg ((if neg then ['-'] else []) ++ (ds ++ s)) = (neg, ds ++ s) := by
  cases neg with
  | true => rfl
  | false =>
    obtain ⟨hne, hall⟩ := hd
    cases ds with
    | nil => exact absurd rfl hne
    | cons c ds =>
      have hc : c ≠ '-' := by
        rintro rfl
        have := hall '-' List.mem_cons_self
        revert this
        decide
      simp [scanNeg, hc]

/-- **A number is read back**, whatever follows that does not go on with it. -/
theorem scanNumeral_text {n : Numeral} (hn : n.Valid) {s : List Char} (hs : Ends s) :
    scanNumeral (n.text ++ s) = some (n, s) := by
  have hassoc : n.text ++ s = (if n.neg then ['-'] else []) ++
      (n.int ++ (Numeral.fracText n.frac ++ (Numeral.expText n.exp ++ s))) := by
    simp [Numeral.text]
  rw [hassoc, scanNumeral, scanNeg_text hn.int.1]
  dsimp only
  rw [scanInt_text hn.int (head_fracText hs), Option.map_some]
  dsimp only
  rw [scanFrac_text hn.frac (head_expText hs)]
  dsimp only
  rw [scanExp_text hn.exp hs]

/-! #### Integers -/

lemma allDigits_toDigits (n : ℕ) : Numeral.AllDigits (Nat.toDigits 10 n) :=
  ⟨Nat.toDigits_ne_nil, fun _ hc => Nat.isDigit_of_mem_toDigits (by decide) (by decide) hc⟩

lemma head_toDigits (n : ℕ) (h : (Nat.toDigits 10 n).head? = some '0') :
    Nat.toDigits 10 n = ['0'] := by
  induction n using Nat.strongRecOn with
  | _ n ih =>
    rcases Nat.lt_or_ge n 10 with hlt | hge
    · rw [Nat.toDigits_of_lt_base hlt] at h ⊢
      simpa using h
    · rw [Nat.toDigits_of_base_le (by decide) hge] at h
      rw [List.head?_append_of_ne_nil _ Nat.toDigits_ne_nil] at h
      have hdiv : n / 10 < n := by omega
      have hzero := ih (n / 10) hdiv h
      have hval := congrArg (fun ds => Nat.ofDigitChars 10 ds 0) hzero
      simp only [Nat.ofDigitChars_ten_toDigits] at hval
      have h0 : Nat.ofDigitChars 10 ['0'] 0 = 0 := by decide
      omega

lemma valid_ofInt (i : ℤ) : (Numeral.ofInt i).Valid where
  int := ⟨allDigits_toDigits _, head_toDigits _⟩
  frac := by simp [Numeral.ofInt]
  exp := by simp [Numeral.ofInt]

lemma intValue_ofInt (i : ℤ) : (Numeral.ofInt i).intValue = i := by
  unfold Numeral.intValue Numeral.ofInt
  rw [Nat.ofDigitChars_ten_toDigits]
  by_cases h : i < 0
  · simp only [h, decide_true, if_true]
    omega
  · simp only [h, decide_false, Bool.false_eq_true, if_false]
    omega

/-! ### Strings -/

abbrev quoteMark : Char := '\x22'
abbrev backslash : Char := '\x5c'

def hexDigit (n : ℕ) : Char := Char.ofNat (if n < 10 then 48 + n else 87 + n)

def hexVal (c : Char) : Option ℕ :=
  if c.isDigit then some (c.toNat - 48)
  else if 97 ≤ c.toNat ∧ c.toNat ≤ 102 then some (c.toNat - 87)
  else if 65 ≤ c.toNat ∧ c.toNat ≤ 70 then some (c.toNat - 55)
  else none

def hex4 (n : ℕ) : List Char :=
  [hexDigit (n / 4096), hexDigit (n / 256 % 16), hexDigit (n / 16 % 16), hexDigit (n % 16)]

def unicodeEscape (n : ℕ) : List Char := backslash :: 'u' :: hex4 n

/-- A character inside a string; with `ascii`, what is not printable ASCII is escaped, as two
surrogates if one escape does not hold it. -/
def escape (ascii : Bool) (c : Char) : List Char :=
  if c = quoteMark then [backslash, quoteMark]
  else if c = backslash then [backslash, backslash]
  else if c = '\n' then [backslash, 'n']
  else if c = '\r' then [backslash, 'r']
  else if c = '\t' then [backslash, 't']
  else if c = '\x0c' then [backslash, 'f']
  else if c = '\x08' then [backslash, 'b']
  else if c.toNat < 32 ∨ ascii = true ∧ 126 < c.toNat then
    if c.toNat < 65536 then unicodeEscape c.toNat
    else unicodeEscape (55296 + (c.toNat - 65536) / 1024) ++
      unicodeEscape (56320 + (c.toNat - 65536) % 1024)
  else [c]

def unescape (c : Char) : Option Char :=
  if c = quoteMark ∨ c = backslash ∨ c = '/' then some c
  else if c = 'n' then some '\n'
  else if c = 'r' then some '\r'
  else if c = 't' then some '\t'
  else if c = 'f' then some '\x0c'
  else if c = 'b' then some '\x08'
  else none

/-- Four hexadecimal digits. -/
def scanHex : List Char → Option (ℕ × List Char)
  | a :: b :: c :: d :: s =>
    (hexVal a).bind fun a => (hexVal b).bind fun b => (hexVal c).bind fun c =>
      (hexVal d).map fun d => (((a * 16 + b) * 16 + c) * 16 + d, s)
  | _ => none

/-- The escape of the second surrogate, of which `high` is the first. -/
def scanLow (high : ℕ) : List Char → Option (Char × List Char)
  | a :: b :: s =>
    if a = backslash ∧ b = 'u' then
      (scanHex s).bind fun p =>
        if 56320 ≤ p.1 ∧ p.1 < 57344 then
          some (Char.ofNat (65536 + (high - 55296) * 1024 + (p.1 - 56320)), p.2)
        else none
    else none
  | _ => none

def scanUnicode (s : List Char) : Option (Char × List Char) :=
  (scanHex s).bind fun p =>
    if 55296 ≤ p.1 ∧ p.1 < 56320 then scanLow p.1 p.2
    else if 56320 ≤ p.1 ∧ p.1 < 57344 then none
    else some (Char.ofNat p.1, p.2)

/-- What stands behind a backslash. -/
def scanEscape : List Char → Option (Char × List Char)
  | [] => none
  | e :: s => if e = 'u' then scanUnicode s else (unescape e).map fun c => (c, s)

/-- One character of a string; control characters have to be escaped. -/
def scanChar : List Char → Option (Char × List Char)
  | [] => none
  | c :: s =>
    if c = backslash then scanEscape s
    else if c = quoteMark ∨ c.toNat < 32 then none
    else some (c, s)

/-- The characters up to the closing quotation mark; the first argument is fuel. -/
def scanString : ℕ → List Char → Option (List Char × List Char)
  | 0, _ => none
  | n + 1, s =>
    if s.head? = some quoteMark then some ([], s.tail)
    else (scanChar s).bind fun p => (scanString n p.2).map fun q => (p.1 :: q.1, q.2)

def printString (ascii : Bool) (s : String) : List Char :=
  quoteMark :: (s.toList.flatMap (escape ascii) ++ [quoteMark])

lemma hexVal_hexDigit : ∀ n < 16, hexVal (hexDigit n) = some n := by decide

lemma scanHex_hex4 {n : ℕ} (h : n < 65536) (s : List Char) :
    scanHex (hex4 n ++ s) = some (n, s) := by
  have hsum : ((n / 4096 * 16 + n / 256 % 16) * 16 + n / 16 % 16) * 16 + n % 16 = n := by omega
  simp only [hex4, List.cons_append, List.nil_append, scanHex]
  rw [hexVal_hexDigit _ (by omega), hexVal_hexDigit _ (by omega), hexVal_hexDigit _ (by omega),
    hexVal_hexDigit _ (by omega)]
  simp [hsum]

lemma toNat_valid (c : Char) : c.toNat < 55296 ∨ 57343 < c.toNat ∧ c.toNat < 1114112 := c.valid

lemma scanUnicode_of_lt {c : Char} (h : c.toNat < 65536) (s : List Char) :
    scanUnicode (hex4 c.toNat ++ s) = some (c, s) := by
  have hv := toNat_valid c
  rw [scanUnicode, scanHex_hex4 h, Option.bind_some, if_neg (by dsimp only; omega),
    if_neg (by dsimp only; omega), Char.ofNat_toNat]

lemma scanUnicode_of_ge {c : Char} (h : 65536 ≤ c.toNat) (s : List Char) :
    scanUnicode (hex4 (55296 + (c.toNat - 65536) / 1024) ++
      (unicodeEscape (56320 + (c.toNat - 65536) % 1024) ++ s)) = some (c, s) := by
  have hv := toNat_valid c
  have hsum : 65536 + (55296 + (c.toNat - 65536) / 1024 - 55296) * 1024 +
      (56320 + (c.toNat - 65536) % 1024 - 56320) = c.toNat := by omega
  have hlow : unicodeEscape (56320 + (c.toNat - 65536) % 1024) ++ s =
      backslash :: 'u' :: (hex4 (56320 + (c.toNat - 65536) % 1024) ++ s) := rfl
  rw [scanUnicode, scanHex_hex4 (by omega), Option.bind_some, if_pos (by dsimp only; omega), hlow,
    scanLow, if_pos ⟨rfl, rfl⟩, scanHex_hex4 (by omega), Option.bind_some,
    if_pos (by dsimp only; omega), hsum, Char.ofNat_toNat]

/-- A character is escaped by a letter, by its code or by the codes of two surrogates, or it
stands for itself. -/
inductive Escaped (c : Char) : List Char → Prop
  | letter (e : Char) (hu : e ≠ 'u') (h : unescape e = some c) : Escaped c [backslash, e]
  | code (h : c.toNat < 65536) : Escaped c (unicodeEscape c.toNat)
  | surrogates (h : 65536 ≤ c.toNat) :
      Escaped c (unicodeEscape (55296 + (c.toNat - 65536) / 1024) ++
        unicodeEscape (56320 + (c.toNat - 65536) % 1024))
  | plain (hq : c ≠ quoteMark) (hb : c ≠ backslash) (h : 32 ≤ c.toNat) : Escaped c [c]

lemma escaped_escape (ascii : Bool) (c : Char) : Escaped c (escape ascii c) := by
  unfold escape
  split_ifs with h1 h2 h3 h4 h5 h6 h7 h8 h9
  · exact .letter quoteMark (by decide) (by rw [h1]; rfl)
  · exact .letter backslash (by decide) (by rw [h2]; rfl)
  · exact .letter 'n' (by decide) (by rw [h3]; rfl)
  · exact .letter 'r' (by decide) (by rw [h4]; rfl)
  · exact .letter 't' (by decide) (by rw [h5]; rfl)
  · exact .letter 'f' (by decide) (by rw [h6]; rfl)
  · exact .letter 'b' (by decide) (by rw [h7]; rfl)
  · exact .code h9
  · exact .surrogates (by omega)
  · rw [not_or] at h8
    exact .plain h1 h2 (by omega)

/-- **An escaped character is read back.** -/
theorem scanChar_escape (ascii : Bool) (c : Char) (s : List Char) :
    scanChar (escape ascii c ++ s) = some (c, s) := by
  have hesc := escaped_escape ascii c
  generalize escape ascii c = l at hesc
  cases hesc with
  | letter e hu h =>
    have htext : [backslash, e] ++ s = backslash :: e :: s := rfl
    rw [htext, scanChar, if_pos rfl, scanEscape, if_neg hu, h, Option.map_some]
  | code h => exact scanUnicode_of_lt h s
  | surrogates h =>
    rw [List.append_assoc]
    exact scanUnicode_of_ge h s
  | plain hq hb h =>
    have hplain : ¬ (c = quoteMark ∨ c.toNat < 32) := fun hor => hor.elim hq (by omega)
    rw [List.singleton_append, scanChar, if_neg hb, if_neg hplain]

lemma escape_eq_cons (ascii : Bool) (c : Char) :
    ∃ e l, escape ascii c = e :: l ∧ e ≠ quoteMark := by
  have hesc := escaped_escape ascii c
  have hne : backslash ≠ quoteMark := by decide
  generalize escape ascii c = l at hesc ⊢
  cases hesc with
  | letter | code | surrogates => exact ⟨backslash, _, rfl, hne⟩
  | plain hq => exact ⟨c, [], rfl, hq⟩

lemma head_escape (ascii : Bool) (c : Char) (s : List Char) :
    (escape ascii c ++ s).head? ≠ some quoteMark := by
  obtain ⟨e, l, he, hne⟩ := escape_eq_cons ascii c
  simpa [he] using hne

/-- **A string is read back**, with fuel for its characters. -/
theorem scanString_escape (ascii : Bool) (cs : List Char) (s : List Char) {n : ℕ}
    (hn : cs.length < n) :
    scanString n (cs.flatMap (escape ascii) ++ quoteMark :: s) = some (cs, s) := by
  induction cs generalizing n with
  | nil =>
    obtain ⟨n, rfl⟩ := Nat.exists_eq_succ_of_ne_zero (Nat.ne_of_gt hn)
    rfl
  | cons c cs ih =>
    obtain ⟨n, rfl⟩ := Nat.exists_eq_succ_of_ne_zero (Nat.ne_zero_of_lt hn)
    have hlen : cs.length < n := by simpa using hn
    rw [List.flatMap_cons, List.append_assoc, scanString, if_neg (head_escape ascii c _),
      scanChar_escape, Option.bind_some, ih hlen, Option.map_some]

lemma length_le_flatMap_escape (ascii : Bool) (cs : List Char) :
    cs.length ≤ (cs.flatMap (escape ascii)).length := by
  induction cs with
  | nil => simp
  | cons c cs ih =>
    obtain ⟨e, l, he, -⟩ := escape_eq_cons ascii c
    rw [List.flatMap_cons, List.length_append, he, List.length_cons, List.length_cons]
    omega

end Tdcs.Lib.Json
