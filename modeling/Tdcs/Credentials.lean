import Mathlib.Data.Bool.AllAny
import Tdcs.Placeholders

/-!
`alembic/env.py`: the URL that migrations connect with, against the one of the service.

Migrations read the placeholders as strings and replace them afterwards; they encode the password
with `quote_plus` and the user not at all.
-/

namespace Tdcs.Credentials

open Tdcs.Lib.PercentCoding Tdcs.Lib.YamlScalars Tdcs.ConfigManager Tdcs.Dsn Tdcs.Placeholders
open Tdcs.Config hiding hexDigit buildDsn Slot

/-! ### The migrations -/

/-- The bytes that `quote_plus` keeps in a text with spaces. -/
def keepSpace (b : UInt8) : Bool := isUnreserved b || b = 32

def plus (c : Char) : Char := if c = ' ' then '+' else c

def quotePlus (cs : Text) : Text :=
  if ' ' ∈ cs then (encode keepSpace (utf8 cs)).map plus else encode isUnreserved (utf8 cs)

/-- The variable, where a match of `\$\{([^}]+)\}` begins. -/
def envVar : Text → Option Text
  | '$' :: '{' :: rest =>
    let var := rest.takeWhile (· ≠ '}')
    if var ≠ [] ∧ (rest.drop var.length).head? = some '}' then some var else none
  | _ => none

variable (O : Outside)

/-- `_resolve_env_vars`, with `skip` characters of the last match still to pass. -/
def resolveEnvVars : ℕ → Text → Text
  | _, [] => []
  | skip + 1, _ :: cs => resolveEnvVars skip cs
  | 0, c :: cs =>
    match envVar (c :: cs) with
    | some var => (O.environ var).getD [] ++ resolveEnvVars (var.length + 2) cs
    | none => c :: resolveEnvVars 0 cs

/-- `_build_dsn`. -/
def buildDsn (dbCfg : List (String × Val)) : Option String := do
  let user ← text ((dbCfg.lookup "user").getD (.str ""))
  let password ← text ((dbCfg.lookup "password").getD (.str ""))
  some (dsnText (String.ofList (resolveEnvVars O 0 user.toList))
    (String.ofList (quotePlus (resolveEnvVars O 0 password.toList)))
    (O.py.str ((dbCfg.lookup "host").getD (.str "localhost")))
    (O.py.str ((dbCfg.lookup "port").getD (.int 3306)))
    (O.py.str ((dbCfg.lookup "database").getD (.str "etl_db"))))

/-- `_get_dsn_from_yaml`. -/
def getDsnFromYaml (content : Text) : Option String := do
  let raw ← (← O.safeLoad content).asMap
  let db ← section? raw "database"
  let master ← section? db "master"
  if master = [] then none else buildDsn O master

/-! ### A space becomes a plus sign -/

variable {O}

lemma plus_of_ne {c : Char} (h : c ≠ ' ') : plus c = c := if_neg h

lemma map_plus_eq_self {cs : Text} : cs.map plus = cs ↔ ' ' ∉ cs := by
  induction cs with
  | nil => simp
  | cons c cs ih =>
    rw [List.map_cons, List.cons.injEq, ih, List.mem_cons, not_or]
    refine and_congr_left fun _ => ⟨fun h hc => ?_, fun h => plus_of_ne (Ne.symm h)⟩
    rw [← hc] at h
    exact absurd h (by decide)

def plusByte (b : UInt8) : UInt8 := if b = 32 then 43 else b

lemma utf8EncodeChar_plus (c : Char) :
    String.utf8EncodeChar (plus c) = (String.utf8EncodeChar c).map plusByte := by
  by_cases hc : c = ' '
  · subst hc
    decide
  · rw [plus_of_ne hc]
    have hfree : ∀ b ∈ String.utf8EncodeChar c, b ≠ 32 := by
      intro b hb h
      have hcode : c.val.toNat ≠ 32 := by
        intro h32
        apply hc
        rw [← Char.ofNat_toNat c]
        exact congrArg Char.ofNat h32
      have hval : c.toNat = c.val.toNat := rfl
      subst h
      unfold String.utf8EncodeChar at hb
      dsimp only at hb
      split_ifs at hb <;>
        simp only [List.mem_cons, List.not_mem_nil, or_false, ← UInt8.toNat_inj,
          UInt8.toNat_ofNat'] at hb <;>
        simp at hb <;> omega
    symm
    calc (String.utf8EncodeChar c).map plusByte = (String.utf8EncodeChar c).map id :=
          List.map_congr_left fun b hb => if_neg (hfree b hb)
      _ = String.utf8EncodeChar c := List.map_id _

lemma utf8_map_plus (cs : Text) : utf8 (cs.map plus) = (utf8 cs).map plusByte := by
  rw [utf8, utf8, List.flatMap_map, List.map_flatMap]
  simp only [utf8EncodeChar_plus]

lemma map_plus_encodeByte (b : UInt8) : (encodeByte keepSpace b).map plus =
    if b = 32 then ['+'] else encodeByte isUnreserved b := by
  split_ifs with hb
  · subst hb
    decide
  · have hkeep : encodeByte keepSpace b = encodeByte isUnreserved b := by
      simp [encodeByte, keepSpace, hb]
    rw [hkeep, map_plus_eq_self]
    intro hmem
    have hchar : ' ' ∈ encode isUnreserved [b] := by simpa [encode] using hmem
    rcases encode_char hchar with ⟨b', hb', hspace⟩ | hspace | ⟨n, hn, hspace⟩
    · have hcode := congrArg Char.toNat hspace
      rw [toNat_ofNat_byte] at hcode
      rw [isUnreserved, ← hcode] at hb'
      exact absurd hb' (by decide)
    · exact absurd hspace (by decide)
    · revert n
      decide

lemma unquoteFrom_map_plus (bs p : List UInt8) :
    unquoteFrom 0 p ((encode keepSpace bs).map plus) = decode 0 (p ++ bs.map plusByte) := by
  induction bs generalizing p with
  | nil => simp [encode, unquoteFrom]
  | cons b bs ih =>
    have hcons : (encode keepSpace (b :: bs)).map plus =
        (encodeByte keepSpace b).map plus ++ (encode keepSpace bs).map plus := by
      rw [encode, List.flatMap_cons, List.map_append, ← encode]
    have hstep : ∀ cs, unquoteFrom 0 p ((encodeByte keepSpace b).map plus ++ cs) =
        unquoteFrom 0 (p ++ [plusByte b]) cs := by
      intro cs
      rw [map_plus_encodeByte, plusByte]
      split_ifs with hb
      · rfl
      · exact unquoteFrom_encodeByte safe_isUnreserved b p cs
    rw [hcons, hstep, ih, List.append_assoc, List.map_cons, List.singleton_append]

/-- **What `quote_plus` writes** is decoded with a plus sign for every space. -/
theorem unquote_quotePlus (cs : Text) : unquote (quotePlus cs) = cs.map plus := by
  unfold quotePlus
  split_ifs with hspace
  · have hdecode := decode_utf8_append (cs.map plus) []
    rw [List.append_nil, decode, List.append_nil] at hdecode
    rw [unquote, unquoteFrom_map_plus, List.nil_append, ← utf8_map_plus, hdecode]
  · rw [unquote_encode safe_isUnreserved, map_plus_eq_self.2 hspace]

lemma not_isDelimiter_quotePlus (cs : Text) : ∀ c ∈ quotePlus cs, isDelimiter c = false := by
  unfold quotePlus
  split_ifs with hspace
  · intro c hc
    obtain ⟨d, hd, rfl⟩ := List.mem_map.1 hc
    have hfree : isDelimiter d = false := by
      refine not_isDelimiter_encode (fun b hb => ?_) _ d hd
      rcases Bool.or_eq_true_iff.1 hb with hb | hb
      · exact not_isDelimiter_unreserved hb
      · rw [of_decide_eq_true hb]
        rfl
    unfold plus
    split_ifs
    · rfl
    · exact hfree
  · exact not_isDelimiter_encode (fun b hb => not_isDelimiter_unreserved hb) _

/-! ### A user that is not encoded -/

/-- What is decoded of it. -/
def decodedUser (x : Text) : Text := unquote (component x)

/-- No delimiter, and nothing that an escape begins with. -/
def Literal (cs : Text) : Prop := ∀ c ∈ cs, c ≠ '%' ∧ isDelimiter c = false

lemma component_cons {c : Char} (h : isDelimiter c = false) (cs : Text) :
    component (c :: cs) = c :: component cs := by
  rw [component, List.takeWhile_cons, h]
  rfl

lemma decodedUser_delimiter {c : Char} (h : isDelimiter c = true) (cs : Text) :
    decodedUser (c :: cs) = [] := by
  rw [decodedUser, component, List.takeWhile_cons, h]
  rfl

lemma decodedUser_cons {c : Char} (hc : c ≠ '%') (hfree : isDelimiter c = false) (cs : Text) :
    decodedUser (c :: cs) = c :: decodedUser cs := by
  rw [decodedUser, component_cons hfree, unquote_cons (escapedByte_of_ne _ hc), ← decodedUser]

lemma decodedUser_append {g : Text} (h : Literal g) (cs : Text) :
    decodedUser (g ++ cs) = g ++ decodedUser cs := by
  induction g with
  | nil => rfl
  | cons c g ih =>
    obtain ⟨hc, hg⟩ := List.forall_mem_cons.1 h
    rw [List.cons_append, decodedUser_cons hc.1 hc.2, ih hg, List.cons_append]

lemma Literal.append {g g' : Text} (h : Literal g) (h' : Literal g') : Literal (g ++ g') :=
  List.forall_mem_append.2 ⟨h, h'⟩

lemma literal_of_blank {run : Text} (h : ∀ c ∈ run, isBlank c = true ∨ isBreak c = true) :
    Literal run := by
  intro c hc
  have hcases : c = ' ' ∨ c = '\t' ∨ c = '\n' ∨ c = '\r' ∨ c = '\u0085' ∨ c = '\u2028' ∨
      c = '\u2029' := by
    simpa [isBlank, isBreak, isSeparator, or_assoc] using h c hc
  rcases hcases with rfl | rfl | rfl | rfl | rfl | rfl | rfl <;> decide

variable {s : Style} {x u g : Text}

lemma literal_of_escape {piece value : Text} (h : Escape s piece value) :
    (piece = ['\\', '/'] ∧ value = ['/']) ∨ Literal piece := by
  cases h with
  | quote =>
    have hquote : '\'' ≠ '%' ∧ isDelimiter '\'' = false := by decide
    exact .inr (List.forall_mem_cons.2 ⟨hquote, List.forall_mem_singleton.2 hquote⟩)
  | @named c r h =>
    by_cases hslash : c = '/'
    · subst hslash
      have hr : r = '/' := by
        simpa [namedEscapes] using h
      exact .inl ⟨rfl, by rw [hr]⟩
    · have hall : ∀ p ∈ namedEscapes, p.1 ≠ '/' → p.1 ≠ '%' ∧ isDelimiter p.1 = false := by decide
      exact .inr (List.forall_mem_cons.2 ⟨by decide, List.forall_mem_singleton.2 (hall _ h hslash)⟩)
  | @code k c digits hk hdigits hc =>
    have hkind : ∀ p ∈ codeEscapes, p.1 ≠ '%' ∧ isDelimiter p.1 = false := by decide
    have hdigit : ∀ d ∈ hexDigits, d ≠ '%' ∧ isDelimiter d = false :=
      List.all_iff_forall_prop.1 (by decide)
    exact .inr (List.forall_mem_cons.2 ⟨by decide, List.forall_mem_cons.2 ⟨hkind _ hk,
      fun d hd => hdigit d (hdigits d hd)⟩⟩)
  | lineBreak hrun hvalue hlt =>
    exact .inr (List.forall_mem_cons.2 ⟨by decide, literal_of_blank hrun⟩)

lemma exists_behind {a b r w : Text} (h : a ++ b = r ++ w) (hlt : a.length < r.length) :
    ∃ g, g ≠ [] ∧ r = a ++ g ∧ b = g ++ w := by
  rcases List.append_eq_append_iff.1 h with ⟨g, rfl, rfl⟩ | ⟨g, rfl, -⟩
  · refine ⟨g, ?_, rfl, rfl⟩
    rintro rfl
    simp at hlt
  · rw [List.length_append] at hlt
    omega

lemma literal_of_append {g g' : Text} (h : Literal (g ++ g')) : Literal g' :=
  (List.forall_mem_append.1 h).2

lemma behind_piece {piece value : Text} (hpiece : Literal piece)
    (hle : value.length ≤ piece.length) (hg : g ≠ []) (hlit : Literal g)
    (heq : value ++ u = g ++ decodedUser (piece ++ x)) :
    ∃ g', g' ≠ [] ∧ Literal g' ∧ u = g' ++ decodedUser x := by
  have hpos := List.length_pos_of_ne_nil hg
  have hlt : value.length < (g ++ piece).length := by
    rw [List.length_append]
    omega
  rw [decodedUser_append hpiece, ← List.append_assoc] at heq
  obtain ⟨g', hg', hsplit, hu⟩ := exists_behind heq hlt
  have hall := Literal.append hlit hpiece
  rw [hsplit] at hall
  exact ⟨g', hg', literal_of_append hall, hu⟩

/-- **What a piece of the text loses** on being read is never made up for behind it. -/
lemma ne_of_behind (h : Denotes s x u) (hg : g ≠ []) (hlit : Literal g) :
    u ≠ g ++ decodedUser x := by
  induction h generalizing g with
  | nil =>
    intro heq
    exact hg (List.append_eq_nil_iff.1 heq.symm).1
  | @char c x u hordinary h ih =>
    intro heq
    obtain ⟨d, g, rfl⟩ := List.exists_cons_of_ne_nil hg
    obtain ⟨hd, hlit'⟩ := List.forall_mem_cons.1 hlit
    rw [List.cons_append] at heq
    obtain ⟨rfl, htail⟩ := List.cons.inj heq
    rw [decodedUser_cons hd.1 hd.2] at htail
    have hnext : Literal (g ++ [c]) := Literal.append hlit' (List.forall_mem_singleton.2 hd)
    refine ih (by simp) hnext ?_
    rw [htail, List.append_assoc, List.singleton_append]
  | @escape piece value x u hpiece h ih =>
    intro heq
    rcases literal_of_escape hpiece with ⟨rfl, rfl⟩ | hpiecelit
    · -- the slash that is read is no part of `g`
      obtain ⟨d, g, rfl⟩ := List.exists_cons_of_ne_nil hg
      have hd := (List.forall_mem_cons.1 hlit).1.2
      rw [List.cons_append] at heq
      obtain ⟨rfl, -⟩ := List.cons.inj heq
      cases hd
    · obtain ⟨g', hg', hlit', hu⟩ := behind_piece hpiecelit hpiece.length_lt.le hg hlit heq
      exact ih hg' hlit' hu
  | @fold run value x u hrun h ih =>
    intro heq
    obtain ⟨g', hg', hlit', hu⟩ := behind_piece (literal_of_blank hrun.blank) hrun.le hg hlit heq
    exact ih hg' hlit' hu

/-! ### A percent sign that begins an escape -/

/-- A character of a percent escape. -/
def isEscapeChar (c : Char) : Bool := c ∈ '%' :: hexDigits

lemma isEscapeChar_plain {c : Char} (h : isEscapeChar c = true) :
    s.special c = false ∧ isBlank c = false ∧ isBreak c = false := by
  have hall : ∀ c ∈ '%' :: hexDigits,
      s.special c = false ∧ isBlank c = false ∧ isBreak c = false :=
    List.all_iff_forall_prop.1 (by cases s <;> decide)
  exact hall c (of_decide_eq_true h)

lemma isEscapeChar_lt {c : Char} (h : isEscapeChar c = true) : c.toNat < 128 := by
  have hall : ∀ c ∈ '%' :: hexDigits, c.toNat < 128 := List.all_iff_forall_prop.1 (by decide)
  exact hall c (of_decide_eq_true h)

lemma isEscapeChar_of_hexValue {c : Char} (h : (hexValue c).isSome) : isEscapeChar c = true := by
  have hlt : c.toNat < 128 := by
    by_contra hge
    have hnone : hexValue c = none := by
      unfold hexValue
      simp only
      rw [if_neg (by omega), if_neg (by omega), if_neg (by omega)]
    rw [hnone] at h
    cases h
  have hall : ∀ n < 128, (hexValue (Char.ofNat n)).isSome → isEscapeChar (Char.ofNat n) = true := by
    decide
  have hc := hall c.toNat hlt
  rw [Char.ofNat_toNat] at hc
  exact hc h

lemma component_eq_cons {cs rest : Text} {c : Char} (h : component cs = c :: rest) :
    ∃ cs', cs = c :: cs' ∧ component cs' = rest := by
  rcases cs with _ | ⟨d, cs⟩
  · cases h
  · by_cases hd : isDelimiter d = true
    · rw [component, List.takeWhile_cons, hd] at h
      cases h
    · rw [component_cons (by simpa using hd)] at h
      obtain ⟨rfl, hrest⟩ := List.cons.inj h
      exact ⟨cs, rfl, hrest⟩

lemma percent_escape (h : Denotes s x u) {b : UInt8} {d : Char} {w : Text}
    (hb : escapedByte ('%' :: component x) = some b) (hd : isEscapeChar d = true)
    (heq : decodedUser ('%' :: x) = d :: w) :
    ∃ k l rest u', x = k :: l :: rest ∧ u = k :: l :: u' ∧ Denotes s rest u' ∧
      isEscapeChar k = true ∧ isEscapeChar l = true ∧ decodedUser rest = w := by
  obtain ⟨k, l, rest, hcs, hk, hl⟩ := exists_of_escapedByte hb
  obtain ⟨x, rfl, hx⟩ := component_eq_cons (List.cons.inj hcs).2
  obtain ⟨x, rfl, rfl⟩ := component_eq_cons hx
  have hk' := isEscapeChar_of_hexValue hk
  have hl' := isEscapeChar_of_hexValue hl
  have hkplain := isEscapeChar_plain (s := s) hk'
  have hlplain := isEscapeChar_plain (s := s) hl'
  obtain ⟨u₁, rfl, h₁⟩ := h.of_cons hkplain.1 hkplain.2.1 hkplain.2.2
  obtain ⟨u₂, rfl, h₂⟩ := h₁.of_cons hlplain.1 hlplain.2.1 hlplain.2.2
  refine ⟨k, l, x, u₂, rfl, rfl, h₂, hk', hl', ?_⟩
  rw [decodedUser, component_cons (by rfl)] at heq
  by_cases hhigh : b < 128
  · rw [unquote_escape_ascii hb hhigh] at heq
    obtain ⟨-, htail⟩ := List.cons.inj heq
    rw [(List.cons.inj hcs).2] at htail
    exact htail
  · obtain ⟨c, l, hdecoded, hc⟩ := unquote_escape_high hb (UInt8.not_lt.1 hhigh)
    rw [hdecoded] at heq
    obtain ⟨rfl, -⟩ := List.cons.inj heq
    have hlt := isEscapeChar_lt hd
    omega

lemma decodedUser_cases (c : Char) (x : Text) :
    (isDelimiter c = true ∧ decodedUser (c :: x) = []) ∨
    (isDelimiter c = false ∧ escapedByte (c :: component x) = none ∧
      decodedUser (c :: x) = c :: decodedUser x) ∨
    (c = '%' ∧ ∃ b, escapedByte ('%' :: component x) = some b) := by
  by_cases hfree : isDelimiter c = true
  · exact .inl ⟨hfree, decodedUser_delimiter hfree x⟩
  · have hfree' : isDelimiter c = false := by simpa using hfree
    rcases hb : escapedByte (c :: component x) with _ | b
    · refine .inr (.inl ⟨hfree', rfl, ?_⟩)
      rw [decodedUser, component_cons hfree', unquote_cons hb, ← decodedUser]
    · have hc : c = '%' := by
        by_contra hne
        rw [escapedByte_of_ne _ hne] at hb
        cases hb
      subst hc
      exact .inr (.inr ⟨rfl, b, hb⟩)

/-- **What an escape holds back** is never made up for in front. -/
lemma ne_of_ahead (h : Denotes s x u) (hg : g ≠ []) (hescape : ∀ c ∈ g, isEscapeChar c = true) :
    decodedUser x ≠ g ++ u := by
  induction hn : x.length using Nat.strong_induction_on generalizing x u g with
  | _ n ih =>
  intro heq
  obtain ⟨d, g, rfl⟩ := List.exists_cons_of_ne_nil hg
  obtain ⟨hd, hescape'⟩ := List.forall_mem_cons.1 hescape
  rw [List.cons_append] at heq
  have hplain := isEscapeChar_plain (s := s) hd
  cases h with
  | nil => cases heq
  | @char c x u hordinary h =>
    rcases decodedUser_cases c x with ⟨-, hnil⟩ | ⟨-, -, hsame⟩ | ⟨rfl, b, hb⟩
    · rw [hnil] at heq
      cases heq
    · rw [hsame] at heq
      obtain ⟨rfl, htail⟩ := List.cons.inj heq
      have hnext : ∀ d ∈ g ++ [c], isEscapeChar d = true :=
        List.forall_mem_append.2 ⟨hescape', List.forall_mem_singleton.2 hd⟩
      refine ih x.length ?_ h (by simp) hnext rfl (by simpa using htail)
      rw [← hn, List.length_cons]
      exact Nat.lt_succ_self _
    · obtain ⟨k, l, rest, u', rfl, rfl, hrest, hk, hl, htail⟩ := percent_escape h hb hd heq
      have hnext : ∀ d ∈ g ++ ['%', k, l], isEscapeChar d = true := by
        refine List.forall_mem_append.2 ⟨hescape', List.forall_mem_cons.2 ⟨by decide, ?_⟩⟩
        exact List.forall_mem_cons.2 ⟨hk, List.forall_mem_singleton.2 hl⟩
      refine ih rest.length ?_ hrest (by simp) hnext rfl (by simpa using htail)
      rw [← hn]
      simp only [List.length_cons]
      omega
  | escape hpiece h =>
    obtain ⟨c, rest, rfl, hspecial, hc⟩ := hpiece.special_head
    have hhead : c ≠ '%' ∧ isDelimiter c = false := by
      rcases hc with rfl | rfl <;> decide
    rw [List.cons_append, decodedUser_cons hhead.1 hhead.2] at heq
    obtain ⟨rfl, -⟩ := List.cons.inj heq
    rw [hplain.1] at hspecial
    cases hspecial
  | fold hrun h =>
    obtain ⟨c, rest, rfl, hc⟩ := hrun.head
    have hhead := literal_of_blank hrun.blank c (by simp)
    rw [List.cons_append, decodedUser_cons hhead.1 hhead.2] at heq
    obtain ⟨rfl, -⟩ := List.cons.inj heq
    simp [hplain.2.1, hplain.2.2] at hc

/-- **A user in quotes** that is read and decoded the same has no escape of either kind, and no
delimiter. -/
theorem userSafe_of_denotes (h : Denotes s x u) (hu : u = decodedUser x) :
    (∀ c ∈ x, s.ordinary c = true ∧ isDelimiter c = false) ∧ EscapeFree x := by
  induction h with
  | nil => exact ⟨nofun, trivial⟩
  | @char c x u hordinary h ih =>
    rcases decodedUser_cases c x with ⟨-, hnil⟩ | ⟨hfree, hb, hsame⟩ | ⟨rfl, b, hb⟩
    · -- a delimiter: the decoded user would end before it
      rw [hnil] at hu
      cases hu
    · rw [hsame] at hu
      obtain ⟨hsafe, hescapes⟩ := ih (List.cons.inj hu).2
      have hcomponent : component x = x :=
        List.takeWhile_eq_self_iff.2 fun d hd => by simp [(hsafe d hd).2]
      rw [hcomponent] at hb
      exact ⟨List.forall_mem_cons.2 ⟨⟨hordinary, hfree⟩, hsafe⟩, hb, hescapes⟩
    · -- an escape of the URL: the value is ahead by its digits
      obtain ⟨k, l, rest, u', rfl, rfl, hrest, hk, hl, htail⟩ :=
        percent_escape h hb (by decide) hu.symm
      have hescape : ∀ d ∈ [k, l], isEscapeChar d = true :=
        List.forall_mem_cons.2 ⟨hk, List.forall_mem_singleton.2 hl⟩
      exact absurd htail (ne_of_ahead hrest (by simp) hescape)
  | @escape piece value x u hpiece h ih =>
    -- an escape of the scalar: the value is behind by what it loses
    rcases literal_of_escape hpiece with ⟨rfl, rfl⟩ | hlit
    · have hslash : decodedUser ('\\' :: '/' :: x) = ['\\'] := by
        rw [decodedUser_cons (by decide) (by decide), decodedUser_delimiter (by decide)]
      have hslashes : '/' :: u = ['\\'] := hu.trans hslash
      exact absurd (List.cons.inj hslashes).1 (by decide)
    · rw [decodedUser_append hlit] at hu
      obtain ⟨g, hg, hsplit, hrest⟩ := exists_behind hu hpiece.length_lt
      rw [hsplit] at hlit
      exact absurd hrest (ne_of_behind h hg (literal_of_append hlit))
  | @fold run value x u hrun h ih =>
    -- a line break folds to less than it was: the value is behind
    have hlit := literal_of_blank hrun.blank
    rw [decodedUser_append hlit] at hu
    have hlt : value.length < run.length := by
      refine lt_of_le_of_ne hrun.le fun hlen => hrun.ne ?_
      exact (List.append_inj hu hlen).1
    obtain ⟨g, hg, hsplit, hrest⟩ := exists_behind hu hlt
    rw [hsplit] at hlit
    exact absurd hrest (ne_of_behind h hg (literal_of_append hlit))

/-! ### The two URLs of a file -/

/-- The user and the password of a URL that is built. -/
def connects (dsn : Option String) : Option (Text × Option Text) :=
  dsn.bind fun dsn => credentials dsn.toList

variable (O) in
/-- **Migrations and service** connect with the same user and the same password. -/
def Same (content : Text) : Prop :=
  ∃ user password, connects (masterDsn O content) = some (user, some password) ∧
    connects (getDsnFromYaml O content) = some (user, some password)

/-- The scalar at `i` is a placeholder in quotes, of a variable that has a value. -/
structure Placed (O : Outside) (L : Layout) (i : ℕ) (style : Style) (var value : Text) : Prop where
  isVar : IsVar O var
  environ : O.environ var = some value
  quoted : style ≠ .plain
  slot : ∃ after, L.slots[i]? = some ⟨style, placeholderText var, after⟩

/-- A scalar that is read as it stands, as whatever it is. -/
def InOrder (resolve : Text → Option Val) (slot : Slot) : Prop :=
  slot.style.clean slot.src = true ∧ ∃ v, Reads strVal resolve slot v

/-- A file that is in order but for its user and its password, which are the scalars at `i` and
at `j`. -/
structure MasterFile (O : Outside) (resolve : Text → Option Val) (L L' : Layout)
    (doc : List Val → Val) (i j : ℕ) : Prop where
  framed : Framed O L
  loads : LoadsLayout strVal resolve O.safeLoad L.frame doc
  substituted : substLayout O L = some L'
  raw : ∀ slot ∈ L.slots, InOrder resolve slot
  others : ∀ k slot, L'.slots[k]? = some slot → k ≠ i → k ≠ j → InOrder resolve slot
  node : ∀ vals : List Val, vals.length = L.slots.length → ∃ m, masterNode (doc vals) = some m ∧
    m.lookup "user" = vals[i]? ∧ m.lookup "password" = vals[j]?
  target : ∀ vals m, List.Forall₂ (Reads strVal resolve) L'.slots vals →
    masterNode (doc vals) = some m → ∃ host database, m.lookup "host" = some (.str host) ∧
      m.lookup "database" = some (.str database)

/-- A user that is read and decoded as it stands. -/
def UserSafe (style : Style) (user : Text) : Prop :=
  (∀ c ∈ user, style.ordinary c = true ∧ isDelimiter c = false) ∧ EscapeFree user

/-- A password that is read as it stands and has no space. -/
def PasswordSafe (style : Style) (password : Text) : Prop :=
  ∀ c ∈ password, style.ordinary c = true ∧ c ≠ ' '

/-- A value that stays within its quotes, and has no separator that a fold may keep. -/
def Enclosed (style : Style) (value : Text) : Prop :=
  style.within value = true ∧ ∀ c ∈ value, isSeparator c = false

section same

variable {resolve : Text → Option Val} {L L' : Layout} {doc : List Val → Val} {i j : ℕ}
  {t : Style} {U P y : Text}

/-! #### Placeholders as strings -/

lemma envVar_placeholderText {var : Text} (h : IsVar O var) :
    envVar (placeholderText var) = some var := by
  have hfree : ∀ c ∈ var, decide (c ≠ '}') = true := by
    intro c hc
    rw [decide_eq_true_eq]
    rintro rfl
    have hword := h.word _ hc
    rw [h.brace] at hword
    cases hword
  obtain ⟨htake, -⟩ := takeWhile_append_stop (f := fun c => decide (c ≠ '}')) (n := '}') (by simp)
    var []
  rw [List.takeWhile_eq_self_iff.2 hfree] at htake
  simp only [placeholderText, envVar, htake]
  simp [h.ne_nil]

lemma resolveEnvVars_placeholderText {var value : Text} (h : IsVar O var)
    (hvalue : O.environ var = some value) : resolveEnvVars O 0 (placeholderText var) = value := by
  have hskip : ∀ cs : Text, resolveEnvVars O cs.length cs = [] := by
    intro cs
    induction cs with
    | nil => rfl
    | cons c cs ih => exact ih
  have hlen : var.length + 2 = ('{' :: (var ++ ['}'])).length := by simp
  have hvar := envVar_placeholderText h
  rw [placeholderText] at hvar ⊢
  rw [resolveEnvVars, hvar]
  dsimp only
  rw [hlen, hskip, hvalue, Option.getD_some, List.append_nil]

/-! #### The scalars of the file, and what they stand for -/

lemma exists_forall₂ {slots : List Slot} (h : ∀ slot ∈ slots, ∃ v, Reads strVal resolve slot v) :
    ∃ vals, List.Forall₂ (Reads strVal resolve) slots vals := by
  induction slots with
  | nil => exact ⟨[], .nil⟩
  | cons slot slots ih =>
    obtain ⟨⟨v, hv⟩, hslots⟩ := List.forall_mem_cons.1 h
    obtain ⟨vals, hvals⟩ := ih hslots
    exact ⟨v :: vals, .cons hv hvals⟩

lemma reads_quoted {style : Style} (hquoted : style ≠ .plain) {src after : Text} {v : Val}
    (h : Reads strVal resolve ⟨style, src, after⟩ v) : ∃ u, v = strVal u ∧ Denotes style src u := by
  cases h with
  | plain h => exact absurd rfl hquoted
  | quoted hquoted h => exact ⟨_, rfl, h⟩

lemma reads_placed (hfile : MasterFile O resolve L L' doc i j) {k : ℕ} {style : Style}
    {var value : Text} (h : Placed O L k style var value) {vals : List Val}
    (hvals : List.Forall₂ (Reads strVal resolve) L.slots vals) :
    vals[k]? = some (strVal (placeholderText var)) := by
  obtain ⟨after, hslot⟩ := h.slot
  obtain ⟨v, hv, hread⟩ := getElem?_of_forall₂ hvals hslot
  have hclean := (hfile.raw _ (List.mem_of_getElem? hslot)).1
  rw [hv, SelfReading.eq ⟨hclean, fun hplain => absurd hplain h.quoted⟩ hread]

lemma getElem?_placed (hfile : MasterFile O resolve L L' doc i j) {k : ℕ} {style : Style}
    {var value : Text} (h : Placed O L k style var value) :
    ∃ after, L'.slots[k]? = some ⟨style, value, after⟩ := by
  obtain ⟨after, hslot⟩ := h.slot
  obtain ⟨slot', hslot', hsubst⟩ := getElem?_substLayout hfile.substituted hslot
  rw [substSlot, substitute_placeholder h.isVar, h.environ] at hsubst
  obtain rfl := Option.some.inj hsubst
  exact ⟨after, hslot'⟩

lemma forall_slots (hfile : MasterFile O resolve L L' doc i j) (hu : Placed O L i s U x)
    (hp : Placed O L j t P y) {p : Slot → Prop} (hothers : ∀ slot, InOrder resolve slot → p slot)
    (huser : ∀ after, p ⟨s, x, after⟩) (hpassword : ∀ after, p ⟨t, y, after⟩) :
    ∀ slot ∈ L'.slots, p slot := by
  intro slot hslot
  obtain ⟨k, hk⟩ := List.mem_iff_getElem?.1 hslot
  obtain ⟨after, hi⟩ := getElem?_placed hfile hu
  obtain ⟨after', hj⟩ := getElem?_placed hfile hp
  by_cases hki : k = i
  · rw [hki, hi] at hk
    obtain rfl := Option.some.inj hk
    exact huser after
  by_cases hkj : k = j
  · rw [hkj, hj] at hk
    obtain rfl := Option.some.inj hk
    exact hpassword after'
  · exact hothers slot (hfile.others k slot hk hki hkj)

/-! #### The migrations -/

lemma section?_of_section! {raw : List (String × Val)} {key : String} {m : List (String × Val)}
    (h : section! raw key = some m) : section? raw key = some m := by
  obtain ⟨v, hv, hm⟩ := Option.bind_eq_some_iff.1 h
  rw [section?, hv, Option.getD_some, hm]

lemma getDsnFromYaml_text (hfile : MasterFile O resolve L L' doc i j) (hu : Placed O L i s U x)
    (hp : Placed O L j t P y) : ∃ dsn rest, getDsnFromYaml O L.text = some dsn ∧
      dsn.toList = scheme ++ ':' :: '/' :: '/' :: (x ++ ':' :: (quotePlus y ++ '@' :: rest)) := by
  obtain ⟨vals, hvals⟩ := exists_forall₂ fun slot hslot => (hfile.raw slot hslot).2
  have hload := hfile.loads.clean L rfl (fun slot hslot => (hfile.raw slot hslot).1) vals hvals
  obtain ⟨m, hm, huser, hpassword⟩ := hfile.node vals hvals.length_eq.symm
  rw [reads_placed hfile hu hvals] at huser
  rw [reads_placed hfile hp hvals] at hpassword
  obtain ⟨raw, hraw, hsections⟩ := Option.bind_eq_some_iff.1 hm
  obtain ⟨db, hdb, hmaster⟩ := Option.bind_eq_some_iff.1 hsections
  have hne : m ≠ [] := by
    rintro rfl
    cases huser
  obtain ⟨rest, hrest⟩ := toList_dsnText (String.ofList x) (String.ofList (quotePlus y))
    (O.py.str ((m.lookup "host").getD (.str "localhost")))
    (O.py.str ((m.lookup "port").getD (.int 3306)))
    (O.py.str ((m.lookup "database").getD (.str "etl_db")))
  rw [String.toList_ofList, String.toList_ofList] at hrest
  refine ⟨_, rest, ?_, hrest⟩
  simp only [getDsnFromYaml, hload, hraw, section?_of_section! hdb, section?_of_section! hmaster,
    Option.bind_eq_bind, Option.bind_some, if_neg hne, buildDsn, huser, hpassword, Option.getD_some,
    text, strVal, String.toList_ofList, resolveEnvVars_placeholderText hu.isVar hu.environ,
    resolveEnvVars_placeholderText hp.isVar hp.environ]

lemma connects_migrations (hfile : MasterFile O resolve L L' doc i j) (hu : Placed O L i s U x)
    (hp : Placed O L j t P y) (hfree : ∀ c ∈ x, isDelimiter c = false) :
    connects (getDsnFromYaml O L.text) = some (unquote x, some (y.map plus)) := by
  obtain ⟨dsn, rest, hdsn, htext⟩ := getDsnFromYaml_text hfile hu hp
  rw [hdsn, connects, Option.bind_some, credentials, htext, afterScheme_scheme, Option.bind_some,
    userinfo_of_free hfree (not_isDelimiter_quotePlus y), Option.map_some, Option.map_some,
    unquote_quotePlus]

lemma user_migrations (hfile : MasterFile O resolve L L' doc i j) (hu : Placed O L i s U x)
    (hp : Placed O L j t P y) {user : Text} {password : Option Text}
    (h : connects (getDsnFromYaml O L.text) = some (user, password)) : user = decodedUser x := by
  obtain ⟨dsn, rest, hdsn, htext⟩ := getDsnFromYaml_text hfile hu hp
  rw [hdsn, connects, Option.bind_some, credentials, htext, afterScheme_scheme,
    Option.bind_some] at h
  obtain ⟨q, hq, hcredentials⟩ := Option.map_eq_some_iff.1 h
  have huser := userinfo_user hq
  rw [Prod.mk.injEq] at hcredentials
  rw [← hcredentials.1, huser, decodedUser]

/-! #### The service -/

lemma masterDsn_text (hfile : MasterFile O resolve L L' doc i j) :
    masterDsn O L.text = (O.safeLoad L'.text).bind fun raw =>
      (masterNode raw).bind (Config.buildDsn O.py) := by
  rw [masterDsn, readYaml_text hfile.framed, hfile.substituted]
  rfl

lemma loads_substituted (hfile : MasterFile O resolve L L' doc i j) :
    LoadsLayout strVal resolve O.safeLoad L'.frame doc := by
  rw [frame_substLayout hfile.substituted]
  exact hfile.loads

/-- **The service connects** with a user and a password that the values stand for. -/
lemma connects_service (hfile : MasterFile O resolve L L' doc i j) (hu : Placed O L i s U x)
    (hp : Placed O L j t P y) (hx : Enclosed s x) (hy : Enclosed t y)
    {user : Text} {password : Option Text}
    (h : connects (masterDsn O L.text) = some (user, password)) :
    Denotes s x user ∧ ∃ v, password = some v ∧ Denotes t y v := by
  have hwithin := forall_slots hfile hu hp (p := fun slot => Enclosed slot.style slot.src)
    (fun slot hslot => ⟨within_of_clean hslot.1, not_isSeparator_of_clean hslot.1⟩)
    (fun _ => hx) (fun _ => hy)
  obtain ⟨dsn, hdsn, hcredentials⟩ := Option.bind_eq_some_iff.1 h
  rw [masterDsn_text hfile] at hdsn
  obtain ⟨raw, hraw, hnode⟩ := Option.bind_eq_some_iff.1 hdsn
  obtain ⟨m, hm, hbuilt⟩ := Option.bind_eq_some_iff.1 hnode
  obtain ⟨vals, hvals, rfl⟩ := (loads_substituted hfile).within L' rfl hwithin raw hraw
  obtain ⟨m', hm', huser, hpassword⟩ := hfile.node vals
    (hvals.length_eq.symm.trans (length_substLayout hfile.substituted))
  obtain rfl := Option.some.inj (hm.symm.trans hm')
  obtain ⟨u, v, hu', hv', hboth⟩ := credentials_buildDsn hbuilt
  rw [hboth] at hcredentials
  obtain ⟨rfl, rfl⟩ := Prod.mk.inj (Option.some.inj hcredentials)
  obtain ⟨after, hi⟩ := getElem?_placed hfile hu
  obtain ⟨after', hj⟩ := getElem?_placed hfile hp
  obtain ⟨w, hw, hreadw⟩ := getElem?_of_forall₂ hvals hi
  obtain ⟨z, hz, hreadz⟩ := getElem?_of_forall₂ hvals hj
  obtain ⟨u', rfl, hdenotes⟩ := reads_quoted hu.quoted hreadw
  obtain ⟨v', rfl, hdenotes'⟩ := reads_quoted hp.quoted hreadz
  rw [huser, hw] at hu'
  rw [hpassword, hz] at hv'
  obtain rfl : String.ofList u' = u := Val.str.inj (Option.some.inj hu')
  obtain rfl : String.ofList v' = v := Val.str.inj (Option.some.inj hv')
  rw [String.toList_ofList, String.toList_ofList]
  exact ⟨hdenotes, v', rfl, hdenotes'⟩

lemma connects_service_of_ordinary (hfile : MasterFile O resolve L L' doc i j)
    (hu : Placed O L i s U x) (hp : Placed O L j t P y) (hx : ∀ c ∈ x, s.ordinary c = true)
    (hy : ∀ c ∈ y, t.ordinary c = true) :
    connects (masterDsn O L.text) = some (x, some y) := by
  have hinOrder := forall_slots hfile hu hp (p := InOrder resolve) (fun slot hslot => hslot)
    (fun _ => ⟨(clean_quoted hu.quoted).2 hx, _, .quoted hu.quoted (denotes_of_ordinary hx)⟩)
    (fun _ => ⟨(clean_quoted hp.quoted).2 hy, _, .quoted hp.quoted (denotes_of_ordinary hy)⟩)
  obtain ⟨vals, hvals⟩ := exists_forall₂ fun slot hslot => (hinOrder slot hslot).2
  have hload := (loads_substituted hfile).clean L' rfl (fun slot hslot => (hinOrder slot hslot).1)
    vals hvals
  obtain ⟨m, hm, huser, hpassword⟩ := hfile.node vals
    (hvals.length_eq.symm.trans (length_substLayout hfile.substituted))
  obtain ⟨host, database, hhost, hdatabase⟩ := hfile.target vals m hvals hm
  have hvalue : ∀ {k : ℕ} {style : Style} {var value : Text}, Placed O L k style var value →
      (∀ c ∈ value, style.ordinary c = true) → vals[k]? = some (strVal value) := by
    intro k style var value hplaced hordinary
    obtain ⟨after, hk⟩ := getElem?_placed hfile hplaced
    obtain ⟨v, hv, hread⟩ := getElem?_of_forall₂ hvals hk
    obtain ⟨u, rfl, hdenotes⟩ := reads_quoted hplaced.quoted hread
    rw [hv, hdenotes.eq_of_ordinary hordinary]
  rw [hvalue hu hx] at huser
  rw [hvalue hp hy] at hpassword
  obtain ⟨dsn, hdsn⟩ : ∃ dsn, Config.buildDsn O.py m = some dsn :=
    buildDsn_isSome huser hpassword hhost hdatabase
  obtain ⟨u, v, hu', hv', hcredentials⟩ := credentials_buildDsn hdsn
  obtain rfl : String.ofList x = u := Val.str.inj (Option.some.inj (huser.symm.trans hu'))
  obtain rfl : String.ofList y = v := Val.str.inj (Option.some.inj (hpassword.symm.trans hv'))
  rw [String.toList_ofList, String.toList_ofList] at hcredentials
  rw [masterDsn_text hfile, hload, Option.bind_some, hm, Option.bind_some, hdsn, connects,
    Option.bind_some, hcredentials]

lemma ne_map_plus {run value : Text} (h : Fold run value) : value ≠ run.map plus := by
  intro heq
  have hspace : ' ' ∉ run := by
    intro hmem
    have hplus : '+' ∈ value := by
      rw [heq]
      exact List.mem_map_of_mem hmem
    exact absurd (h.folded _ hplus) (by decide)
  rw [map_plus_eq_self.2 hspace] at heq
  exact h.ne heq

/-- **When migrations and service connect as the same.** It is enough that both values are read as
they stand, that the user has no delimiter and nothing that a decoder takes for an escape, and that
the password has no space. For values that stay within their quotes this is the only case. -/
theorem same_iff (hfile : MasterFile O resolve L L' doc i j) (hu : Placed O L i s U x)
    (hp : Placed O L j t P y) :
    (UserSafe s x ∧ PasswordSafe t y → Same O L.text) ∧
    (Enclosed s x ∧ Enclosed t y → (Same O L.text ↔ UserSafe s x ∧ PasswordSafe t y)) := by
  have hsafe : UserSafe s x ∧ PasswordSafe t y → Same O L.text := by
    rintro ⟨hx, hy⟩
    have hspace : ' ' ∉ y := fun h => (hy _ h).2 rfl
    have hmigrations := connects_migrations hfile hu hp fun c hc => (hx.1 c hc).2
    rw [unquote_of_escapeFree hx.2, map_plus_eq_self.2 hspace] at hmigrations
    exact ⟨x, y, connects_service_of_ordinary hfile hu hp (fun c hc => (hx.1 c hc).1)
      (fun c hc => (hy c hc).1), hmigrations⟩
  refine ⟨hsafe, fun hin => ⟨fun h => ?_, hsafe⟩⟩
  obtain ⟨user, password, hservice, hmigrations⟩ := h
  obtain ⟨huser, v, hv, hpassword⟩ := connects_service hfile hu hp hin.1 hin.2 hservice
  have hx := userSafe_of_denotes huser (user_migrations hfile hu hp hmigrations)
  rw [connects_migrations hfile hu hp fun c hc => (hx.1 c hc).2] at hmigrations
  obtain ⟨-, hplus⟩ := Prod.mk.inj (Option.some.inj hmigrations)
  rw [hv, Option.some.injEq] at hplus
  rw [← hplus] at hpassword
  have hy := hpassword.ordinary_of_map fun run value hrun => ne_map_plus hrun
  have hspace := map_plus_eq_self.1 (hpassword.eq_of_ordinary hy)
  refine ⟨hx, fun c hc => ⟨hy c hc, ?_⟩⟩
  rintro rfl
  exact hspace hc

end same

/-! ### The file with two placeholders in double quotes -/

section two

variable {user password : String}

lemma environ_two : (twoVars user password).environ userVar = some user.toList ∧
    (twoVars user password).environ passwordVar = some password.toList := by
  have hne : passwordVar ≠ userVar := by decide
  exact ⟨by simp [twoVars], by simp [twoVars, hne]⟩

lemma substLayout_two : substLayout (twoVars user password) twoFile =
    some (twoScalars user.toList password.toList) := by
  have huser : substitute (twoVars user password) 0 (placeholderText userVar) =
      some user.toList := by
    rw [substitute_placeholder (isVar_two (.inl rfl)), environ_two.1]
  have hpassword : substitute (twoVars user password) 0 (placeholderText passwordVar) =
      some password.toList := by
    rw [substitute_placeholder (isVar_two (.inr rfl)), environ_two.2]
  simp [substLayout, twoFile, twoScalars, substSlot, huser, hpassword, mapAll]

lemma placed_two : Placed (twoVars user password) twoFile 0 .double userVar user.toList ∧
    Placed (twoVars user password) twoFile 1 .double passwordVar password.toList :=
  ⟨⟨isVar_two (.inl rfl), environ_two.1, double_ne, _, rfl⟩,
    ⟨isVar_two (.inr rfl), environ_two.2, double_ne, _, rfl⟩⟩

lemma masterFile_two : MasterFile (twoVars user password) (fun t => some (strVal t)) twoFile
    (twoScalars user.toList password.toList) twoDoc 0 1 where
  framed := framed_two
  loads := loadsLayout_two
  substituted := substLayout_two
  raw := by
    have hordinary : ∀ var, var = userVar ∨ var = passwordVar →
        ∀ c ∈ placeholderText var, Style.double.ordinary c = true := by
      intro var hvar
      rw [← List.all_eq_true]
      rcases hvar with rfl | rfl <;> decide
    intro slot hslot
    simp only [twoFile, twoScalars, List.mem_cons, List.not_mem_nil, or_false] at hslot
    rcases hslot with rfl | rfl
    · exact ⟨(clean_quoted double_ne).2 (hordinary _ (.inl rfl)),
        _, .quoted double_ne (denotes_of_ordinary (hordinary _ (.inl rfl)))⟩
    · exact ⟨(clean_quoted double_ne).2 (hordinary _ (.inr rfl)),
        _, .quoted double_ne (denotes_of_ordinary (hordinary _ (.inr rfl)))⟩
  others := by
    intro k slot hslot hk hk'
    have hlt := (List.getElem?_eq_some_iff.1 hslot).1
    simp [twoScalars] at hlt
    omega
  node := by
    intro vals hlen
    obtain ⟨u, p, rfl⟩ := List.length_eq_two.1 hlen
    exact ⟨master u p, masterNode_twoDoc u p, rfl, rfl⟩
  target := by
    intro vals m hvals hm
    obtain ⟨u, p, rfl⟩ := List.length_eq_two.1 hvals.length_eq.symm
    obtain rfl := Option.some.inj (hm.symm.trans (masterNode_twoDoc u p))
    exact ⟨"h", "d", rfl, rfl⟩

end two

theorem same_iff_twoFile :
    (UserSafe .double "etl".toList ∧ PasswordSafe .double "pass".toList →
      Same (twoVars "etl" "pass") twoFile.text) ∧
    (Enclosed .double "etl".toList ∧ Enclosed .double "pass".toList →
      (Same (twoVars "etl" "pass") twoFile.text ↔
        UserSafe .double "etl".toList ∧ PasswordSafe .double "pass".toList)) :=
  same_iff masterFile_two placed_two.1 placed_two.2

/-- With a space in the password, the migrations connect with a plus sign in its place. -/
theorem not_same_space : ¬ Same (twoVars "etl" "a b") twoFile.text := by
  rintro ⟨user, password, hservice, hmigrations⟩
  have huser : "etl".toList.all (fun c => Style.double.ordinary c && !isDelimiter c) = true := by
    decide
  have hpassword : "a b".toList.all Style.double.ordinary = true := by decide
  simp only [List.all_eq_true, Bool.and_eq_true, Bool.not_eq_true'] at huser hpassword
  rw [connects_service_of_ordinary masterFile_two placed_two.1 placed_two.2
    (fun c hc => (huser c hc).1) hpassword] at hservice
  rw [connects_migrations masterFile_two placed_two.1 placed_two.2
    fun c hc => (huser c hc).2] at hmigrations
  obtain ⟨-, hservice⟩ := Prod.mk.inj (Option.some.inj hservice)
  obtain ⟨-, hmigrations⟩ := Prod.mk.inj (Option.some.inj hmigrations)
  rw [← hservice] at hmigrations
  exact absurd hmigrations (by decide)

end Tdcs.Credentials
