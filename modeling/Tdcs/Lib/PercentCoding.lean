import Mathlib.Data.List.Basic
import Mathlib.Data.Nat.Notation

/-!
Percent-encoding of UTF-8 text, and decoding it.

Decoding never fails: what follows a percent sign and is not two hexadecimal digits stands for
itself, and bytes that are not UTF-8 are replaced. A run of ASCII characters is turned into bytes
as a whole, so an encoded character may be spread over several escapes.
-/

namespace Tdcs.Lib.PercentCoding

/-! ### UTF-8 -/

def utf8 (cs : List Char) : List UInt8 := cs.flatMap String.utf8EncodeChar

/-- The character the bytes begin with. -/
def firstChar (bs : List UInt8) : Option Char := bs.toByteArray.utf8DecodeChar? 0

def isContinuation (b : UInt8) : Bool := 0x80 ≤ b && b ≤ 0xbf

/-- `c` may stand behind the first byte `b` of a character of three or four bytes. -/
def secondOk (b c : UInt8) : Bool :=
  let lo : UInt8 := if b = 0xe0 then 0xa0 else if b = 0xf0 then 0x90 else 0x80
  let hi : UInt8 := if b = 0xed then 0x9f else if b = 0xf4 then 0x8f else 0xbf
  0xe0 ≤ b && b ≤ 0xf4 && lo ≤ c && c ≤ hi

/-- How many bytes behind `b` are replaced together with it, where no character begins. -/
def replacedTail (b : UInt8) : List UInt8 → ℕ
  | [] => 0
  | c :: bs =>
    if secondOk b c then (if 0xf0 ≤ b ∧ bs.head?.any isContinuation then 2 else 1) else 0

/-- Decoding with replacement, `skip` bytes of the last character still to pass. -/
def decode : ℕ → List UInt8 → List Char
  | _, [] => []
  | skip + 1, _ :: bs => decode skip bs
  | 0, b :: bs =>
    match firstChar (b :: bs) with
    | some c => c :: decode (c.utf8Size - 1) bs
    | none => '\ufffd' :: decode (replacedTail b bs) bs

/-! ### Percent-encoding -/

def hexDigit (n : ℕ) : Char := Char.ofNat (if n < 10 then 48 + n else 55 + n)

def hexValue (c : Char) : Option ℕ :=
  let n := c.toNat
  if 48 ≤ n ∧ n ≤ 57 then some (n - 48)
  else if 65 ≤ n ∧ n ≤ 70 then some (n - 55)
  else if 97 ≤ n ∧ n ≤ 102 then some (n - 87)
  else none

/-- A byte, as it is or as an escape. -/
def encodeByte (keep : UInt8 → Bool) (b : UInt8) : List Char :=
  if keep b then [Char.ofNat b.toNat]
  else ['%', hexDigit (b.toNat / 16), hexDigit (b.toNat % 16)]

def encode (keep : UInt8 → Bool) (bs : List UInt8) : List Char := bs.flatMap (encodeByte keep)

/-- The byte of the escape the text begins with. -/
def escapedByte : List Char → Option UInt8
  | '%' :: h :: l :: _ =>
    (hexValue h).bind fun a => (hexValue l).map fun b => UInt8.ofNat (16 * a + b)
  | _ => none

/-- Percent-decoding, with `skip` characters of the last escape still to pass and the bytes of the
run of ASCII characters so far. -/
def unquoteFrom : ℕ → List UInt8 → List Char → List Char
  | _, pending, [] => decode 0 pending
  | skip + 1, pending, _ :: cs => unquoteFrom skip pending cs
  | 0, pending, c :: cs =>
    match escapedByte (c :: cs) with
    | some b => unquoteFrom 2 (pending ++ [b]) cs
    | none =>
      if c.toNat < 128 then unquoteFrom 0 (pending ++ [UInt8.ofNat c.toNat]) cs
      else decode 0 pending ++ c :: unquoteFrom 0 [] cs

def unquote (cs : List Char) : List Char := unquoteFrom 0 [] cs

/-! ### Decoding UTF-8 -/

lemma decode_skip (k : ℕ) (bs : List UInt8) : decode k bs = decode 0 (bs.drop k) := by
  induction bs generalizing k with
  | nil => simp [decode]
  | cons b bs ih =>
    cases k with
    | zero => rfl
    | succ k => rw [decode, ih, List.drop_succ_cons]

lemma firstChar_append (c : Char) (bs : List UInt8) :
    firstChar (String.utf8EncodeChar c ++ bs) = some c := by
  rw [firstChar, List.toByteArray_append]
  exact ByteArray.utf8DecodeChar?_utf8EncodeChar_append

lemma decode_char_append (c : Char) (bs : List UInt8) :
    decode 0 (String.utf8EncodeChar c ++ bs) = c :: decode 0 bs := by
  have hlen : (String.utf8EncodeChar c).length = c.utf8Size := String.length_utf8EncodeChar c
  have hpos : 0 < c.utf8Size := c.utf8Size_pos
  obtain ⟨b, tail, hcons⟩ := List.exists_cons_of_length_pos (hlen ▸ hpos)
  have hfirst := firstChar_append c bs
  rw [hcons, List.cons_append] at hfirst ⊢
  rw [hcons, List.length_cons] at hlen
  have htail : tail.length = c.utf8Size - 1 := by omega
  rw [decode, hfirst]
  dsimp only
  rw [decode_skip, ← htail, List.drop_left]

/-- **Round trip.** -/
theorem decode_utf8_append (cs : List Char) (bs : List UInt8) :
    decode 0 (utf8 cs ++ bs) = cs ++ decode 0 bs := by
  induction cs with
  | nil => rfl
  | cons c cs ih =>
    have hcons : utf8 (c :: cs) ++ bs = String.utf8EncodeChar c ++ (utf8 cs ++ bs) := by
      rw [utf8, List.flatMap_cons, List.append_assoc, ← utf8]
    rw [hcons, decode_char_append, ih, List.cons_append]

lemma utf8EncodeChar_of_lt {c : Char} (h : c.toNat < 128) :
    String.utf8EncodeChar c = [UInt8.ofNat c.toNat] := by
  have hsize : c.utf8Size = 1 := by
    rw [Char.utf8Size_eq_one_iff, UInt32.le_iff_toNat_le]
    exact Nat.le_of_lt_succ h
  rw [String.utf8EncodeChar_eq_singleton hsize]
  congr 1

lemma toNat_ofNat_byte (b : UInt8) : (Char.ofNat b.toNat).toNat = b.toNat := by
  have hlt := b.toNat_lt
  have hvalid : b.toNat.isValidChar := Or.inl (by omega)
  rw [Char.ofNat, dif_pos hvalid]
  rfl

lemma utf8EncodeChar_ascii {b : UInt8} (h : b < 128) :
    String.utf8EncodeChar (Char.ofNat b.toNat) = [b] := by
  have hlt : (Char.ofNat b.toNat).toNat < 128 := by
    rw [toNat_ofNat_byte]
    exact UInt8.lt_iff_toNat_lt.1 h
  rw [utf8EncodeChar_of_lt hlt, toNat_ofNat_byte, UInt8.ofNat_toNat]

lemma decode_ascii {b : UInt8} (h : b < 128) (bs : List UInt8) :
    decode 0 (b :: bs) = Char.ofNat b.toNat :: decode 0 bs := by
  have hchar := decode_char_append (Char.ofNat b.toNat) bs
  rwa [utf8EncodeChar_ascii h, List.singleton_append] at hchar

lemma decode_high {b : UInt8} (h : 128 ≤ b) (bs : List UInt8) :
    ∃ c cs, decode 0 (b :: bs) = c :: cs ∧ 128 ≤ c.toNat := by
  rw [decode]
  rcases hfirst : firstChar (b :: bs) with _ | c
  · exact ⟨_, _, rfl, by decide⟩
  · refine ⟨_, _, rfl, ?_⟩
    obtain ⟨rest, hrest⟩ := ByteArray.exists_of_utf8DecodeChar?_eq_some hfirst
    have hbytes : b :: bs = String.utf8EncodeChar c ++ rest.data.toList := by
      have hdata := congrArg (fun a => a.data.toList) hrest
      simpa using hdata
    by_contra hlt
    rw [utf8EncodeChar_of_lt (by omega), List.singleton_append, List.cons.injEq] at hbytes
    have hb : 128 ≤ b.toNat := UInt8.le_iff_toNat_le.1 h
    rw [hbytes.1, UInt8.toNat_ofNat'] at hb
    omega

/-! ### Decoding escapes -/

lemma unquoteFrom_ascii {b : UInt8} (h : b < 128) (k : ℕ) (p : List UInt8) (cs : List Char) :
    unquoteFrom k (b :: p) cs = Char.ofNat b.toNat :: unquoteFrom k p cs := by
  induction cs generalizing k p with
  | nil =>
    cases k with
    | zero => exact decode_ascii h p
    | succ k => exact decode_ascii h p
  | cons c cs ih =>
    cases k with
    | succ k => rw [unquoteFrom, unquoteFrom, ih]
    | zero =>
      rw [unquoteFrom, unquoteFrom]
      rcases escapedByte (c :: cs) with _ | b'
      · dsimp only
        split_ifs
        · rw [List.cons_append, ih]
        · rw [decode_ascii h, List.cons_append]
      · dsimp only
        rw [List.cons_append, ih]

lemma unquoteFrom_high {b : UInt8} (h : 128 ≤ b) (k : ℕ) (p : List UInt8) (cs : List Char) :
    ∃ c l, unquoteFrom k (b :: p) cs = c :: l ∧ 128 ≤ c.toNat := by
  induction cs generalizing k p with
  | nil =>
    cases k with
    | zero => exact decode_high h p
    | succ k => exact decode_high h p
  | cons c cs ih =>
    cases k with
    | succ k =>
      rw [unquoteFrom]
      exact ih k p
    | zero =>
      rw [unquoteFrom]
      rcases escapedByte (c :: cs) with _ | b'
      · dsimp only
        split_ifs
        · exact ih 0 (p ++ [UInt8.ofNat c.toNat])
        · obtain ⟨c', l, hdecode, hhigh⟩ := decode_high h p
          rw [hdecode]
          exact ⟨c', _, rfl, hhigh⟩
      · exact ih 2 (p ++ [b'])

lemma unquoteFrom_skip (k : ℕ) (p : List UInt8) (cs : List Char) :
    unquoteFrom k p cs = unquoteFrom 0 p (cs.drop k) := by
  induction cs generalizing k with
  | nil =>
    cases k with
    | zero => rfl
    | succ k => rfl
  | cons c cs ih =>
    cases k with
    | zero => rfl
    | succ k => rw [unquoteFrom, ih, List.drop_succ_cons]

@[simp] lemma unquote_nil : unquote [] = [] := rfl

lemma unquote_cons {c : Char} {cs : List Char} (h : escapedByte (c :: cs) = none) :
    unquote (c :: cs) = c :: unquote cs := by
  rw [unquote, unquoteFrom, h]
  dsimp only
  split_ifs with hc
  · have hnat : (UInt8.ofNat c.toNat).toNat = c.toNat := by
      rw [UInt8.toNat_ofNat']
      omega
    have hlt : UInt8.ofNat c.toNat < 128 := by
      rw [UInt8.lt_iff_toNat_lt, hnat]
      exact hc
    rw [List.nil_append, unquoteFrom_ascii hlt, hnat, Char.ofNat_toNat, ← unquote]
  · rfl

lemma unquote_escape {c : Char} {cs : List Char} {b : UInt8} (h : escapedByte (c :: cs) = some b) :
    unquote (c :: cs) = unquoteFrom 0 [b] (cs.drop 2) := by
  rw [unquote, unquoteFrom, h]
  dsimp only
  rw [unquoteFrom_skip, List.nil_append]

lemma unquote_escape_ascii {c : Char} {cs : List Char} {b : UInt8}
    (h : escapedByte (c :: cs) = some b) (hb : b < 128) :
    unquote (c :: cs) = Char.ofNat b.toNat :: unquote (cs.drop 2) := by
  rw [unquote_escape h, unquoteFrom_ascii hb, ← unquote]

lemma unquote_escape_high {c : Char} {cs : List Char} {b : UInt8}
    (h : escapedByte (c :: cs) = some b) (hb : 128 ≤ b) :
    ∃ c' l, unquote (c :: cs) = c' :: l ∧ 128 ≤ c'.toNat := by
  rw [unquote_escape h]
  exact unquoteFrom_high hb 0 [] _

lemma exists_of_escapedByte {cs : List Char} {b : UInt8} (h : escapedByte cs = some b) :
    ∃ h' l rest, cs = '%' :: h' :: l :: rest ∧ (hexValue h').isSome ∧ (hexValue l).isSome := by
  unfold escapedByte at h
  split at h
  · next h' l rest =>
    rcases ha : hexValue h' with _ | a
    · simp [ha] at h
    · rcases hb : hexValue l with _ | b'
      · simp [ha, hb] at h
      · exact ⟨h', l, rest, rfl, by simp [ha], by simp [hb]⟩
  · cases h

lemma escapedByte_of_ne {c : Char} (cs : List Char) (h : c ≠ '%') :
    escapedByte (c :: cs) = none := by
  rcases hb : escapedByte (c :: cs) with _ | b
  · rfl
  · obtain ⟨h', l, rest, hcs, -⟩ := exists_of_escapedByte hb
    exact absurd (List.cons.inj hcs).1 h

/-! ### Round trip -/

lemma hexValue_hexDigit {n : ℕ} (h : n < 16) : hexValue (hexDigit n) = some n := by
  revert n
  decide

/-- Nothing that is kept looks like an escape. -/
def Safe (keep : UInt8 → Bool) : Prop := ∀ b, keep b = true → b < 128 ∧ b ≠ 37

variable {keep : UInt8 → Bool}

lemma unquoteFrom_encodeByte (hkeep : Safe keep) (b : UInt8) (p : List UInt8) (cs : List Char) :
    unquoteFrom 0 p (encodeByte keep b ++ cs) = unquoteFrom 0 (p ++ [b]) cs := by
  unfold encodeByte
  split_ifs with hb
  · obtain ⟨hlt, hne⟩ := hkeep b hb
    have hnat : (Char.ofNat b.toNat).toNat < 128 := by
      rw [toNat_ofNat_byte]
      exact UInt8.lt_iff_toNat_lt.1 hlt
    have hpercent : Char.ofNat b.toNat ≠ '%' := by
      intro heq
      have hcode := congrArg Char.toNat heq
      rw [toNat_ofNat_byte] at hcode
      exact hne (UInt8.toNat_inj.1 hcode)
    rw [List.singleton_append, unquoteFrom, escapedByte_of_ne _ hpercent]
    dsimp only
    rw [if_pos hnat, toNat_ofNat_byte, UInt8.ofNat_toNat]
  · have hlt := b.toNat_lt
    have hbyte : escapedByte ('%' :: hexDigit (b.toNat / 16) :: hexDigit (b.toNat % 16) :: cs) =
        some b := by
      have hdiv : b.toNat / 16 < 16 := by omega
      have hmod : b.toNat % 16 < 16 := by omega
      have hsum : 16 * (b.toNat / 16) + b.toNat % 16 = b.toNat := by omega
      rw [escapedByte, hexValue_hexDigit hdiv, hexValue_hexDigit hmod]
      show some (UInt8.ofNat (16 * (b.toNat / 16) + b.toNat % 16)) = some b
      rw [hsum, UInt8.ofNat_toNat]
    rw [List.cons_append, List.cons_append, List.cons_append, List.nil_append, unquoteFrom, hbyte]
    rfl

lemma unquoteFrom_encode (hkeep : Safe keep) (bs p : List UInt8) (cs : List Char) :
    unquoteFrom 0 p (encode keep bs ++ cs) = unquoteFrom 0 (p ++ bs) cs := by
  induction bs generalizing p with
  | nil => simp [encode]
  | cons b bs ih =>
    have hcons : encode keep (b :: bs) ++ cs = encodeByte keep b ++ (encode keep bs ++ cs) := by
      rw [encode, List.flatMap_cons, List.append_assoc, ← encode]
    rw [hcons, unquoteFrom_encodeByte hkeep, ih, List.append_assoc, List.singleton_append]

/-- **Round trip.** What is encoded byte by byte is decoded to the same text. -/
theorem unquote_encode (hkeep : Safe keep) (cs : List Char) :
    unquote (encode keep (utf8 cs)) = cs := by
  have hencode := unquoteFrom_encode hkeep (utf8 cs) [] []
  have hdecode := decode_utf8_append cs []
  rw [List.append_nil, List.nil_append] at hencode
  rw [List.append_nil, decode, List.append_nil] at hdecode
  rw [unquote, hencode, unquoteFrom, hdecode]

/-- No escape stands in the text. -/
def EscapeFree : List Char → Prop
  | [] => True
  | c :: cs => escapedByte (c :: cs) = none ∧ EscapeFree cs

lemma unquote_of_escapeFree {cs : List Char} (h : EscapeFree cs) : unquote cs = cs := by
  induction cs with
  | nil => rfl
  | cons c cs ih => rw [unquote_cons h.1, ih h.2]

end Tdcs.Lib.PercentCoding
