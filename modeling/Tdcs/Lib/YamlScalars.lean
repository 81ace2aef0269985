import Mathlib.Data.List.Basic
import Mathlib.Data.List.Forall2
import Mathlib.Data.List.DropRight
import Mathlib.Data.Nat.Notation

/-!
Scalars of a YAML text, and what they stand for.

A scalar in quotes is a sequence of characters that stand for themselves, of escapes, and of runs
of blanks and line breaks, which are folded. `Denotes` leaves open how long a run may be, so that
it holds of more readings than a scanner takes; the two separators of Unicode, which a fold may
keep, it leaves out. A plain scalar in a block mapping is the rest of
its line, without blanks around it and up to a comment; what it resolves to, if to anything, is
given.

A text with slots for scalars is a `Layout`; `LoadsLayout` says what a loader makes of it as long
as each scalar stays within its slot.
-/

namespace Tdcs.Lib.YamlScalars

inductive Style
  | plain
  | single
  | double
  deriving DecidableEq, Repr

/-! ### Characters -/

def isPrintable (c : Char) : Bool :=
  let n := c.toNat
  n = 0x09 || n = 0x0a || n = 0x0d || (0x20 ≤ n && n ≤ 0x7e) || n = 0x85 ||
    (0xa0 ≤ n && n ≤ 0xd7ff) || (0xe000 ≤ n && n ≤ 0xfffd) || 0x10000 ≤ n

/-- The line and the paragraph separator, which a fold keeps. -/
def isSeparator (c : Char) : Bool := c = '\u2028' || c = '\u2029'

def isBreak (c : Char) : Bool := c = '\n' || c = '\r' || c = '\u0085' || isSeparator c

def isBlank (c : Char) : Bool := c = ' ' || c = '\t'

/-- What ends a scalar in quotes or begins an escape there. -/
def Style.special : Style → Char → Bool
  | .plain, _ => false
  | .single, c => c = '\''
  | .double, c => c = '"' || c = '\\'

/-- The characters that stand for themselves wherever they are. -/
def Style.ordinary (s : Style) (c : Char) : Bool := isPrintable c && !s.special c && !isBreak c

/-! ### Scalars in quotes -/

/-- The escapes of one letter. -/
def namedEscapes : List (Char × Char) := [
  ('0', '\u0000'), ('a', '\u0007'), ('b', '\u0008'), ('t', '\t'), ('\t', '\t'), ('n', '\n'),
  ('v', '\u000b'), ('f', '\u000c'), ('r', '\r'), ('e', '\u001b'), (' ', ' '), ('"', '"'),
  ('\\', '\\'), ('/', '/'), ('N', '\u0085'), ('_', '\u00a0'), ('L', '\u2028'), ('P', '\u2029')]

/-- The escapes by number, and how many digits they have. -/
def codeEscapes : List (Char × ℕ) := [('x', 2), ('u', 4), ('U', 8)]

def hexDigits : List Char := "0123456789ABCDEFabcdef".toList

def hexNumber (digits : List Char) : ℕ :=
  digits.foldl (fun n d => 16 * n + (if d.toNat ≤ 57 then d.toNat - 48 else (d.toNat - 55) % 32)) 0

inductive Escape : Style → List Char → List Char → Prop
  | quote : Escape .single ['\'', '\''] ['\'']
  | named {c r : Char} (h : (c, r) ∈ namedEscapes) : Escape .double ['\\', c] [r]
  | code {k c : Char} {digits : List Char} (hk : (k, digits.length) ∈ codeEscapes)
      (hdigits : ∀ d ∈ digits, d ∈ hexDigits) (hc : c.toNat = hexNumber digits) :
      Escape .double ('\\' :: k :: digits) [c]
  | lineBreak {run value : List Char} (hrun : ∀ c ∈ run, isBlank c = true ∨ isBreak c = true)
      (hvalue : ∀ c ∈ value, isBreak c = true) (hlt : value.length < run.length) :
      Escape .double ('\\' :: run) value

/-- A run of blanks and line breaks becomes a space or fewer line breaks. -/
structure Fold (run value : List Char) : Prop where
  blank : ∀ c ∈ run, isBlank c = true ∨ isBreak c = true
  broken : ∃ c ∈ run, isBreak c = true
  folded : ∀ c ∈ value, c = ' ' ∨ isBreak c = true
  le : value.length ≤ run.length
  ne : value ≠ run

/-- What stands between the quotes, and what it stands for. -/
inductive Denotes (s : Style) : List Char → List Char → Prop
  | nil : Denotes s [] []
  | char {c : Char} {x u : List Char} (hc : s.ordinary c = true) (h : Denotes s x u) :
      Denotes s (c :: x) (c :: u)
  | escape {piece value x u : List Char} (hpiece : Escape s piece value) (h : Denotes s x u) :
      Denotes s (piece ++ x) (value ++ u)
  | fold {run value x u : List Char} (hrun : Fold run value) (h : Denotes s x u) :
      Denotes s (run ++ x) (value ++ u)

variable {s : Style} {piece run value x u : List Char}

lemma Escape.length_lt (h : Escape s piece value) : value.length < piece.length := by
  cases h with
  | quote => simp
  | named h => simp
  | code hk hdigits hc => simp
  | lineBreak hrun hvalue hlt =>
    rw [List.length_cons]
    omega

lemma Escape.special_head (h : Escape s piece value) :
    ∃ c rest, piece = c :: rest ∧ s.special c = true ∧ (c = '\\' ∨ c = '\'') := by
  cases h with
  | quote => exact ⟨_, _, rfl, rfl, .inr rfl⟩
  | named h => exact ⟨_, _, rfl, rfl, .inl rfl⟩
  | code hk hdigits hc => exact ⟨_, _, rfl, rfl, .inl rfl⟩
  | lineBreak hrun hvalue hlt => exact ⟨_, _, rfl, rfl, .inl rfl⟩

lemma Denotes.length_le (h : Denotes s x u) : u.length ≤ x.length := by
  induction h with
  | nil => exact le_rfl
  | char hc h ih => simpa using ih
  | escape hpiece h ih =>
    have hlt := hpiece.length_lt
    simp only [List.length_append]
    omega
  | fold hrun h ih =>
    have hle := hrun.le
    simp only [List.length_append]
    omega

lemma ordinary_iff {c : Char} : s.ordinary c = true ↔
    isPrintable c = true ∧ s.special c = false ∧ isBreak c = false := by
  simp [Style.ordinary, and_assoc]

lemma denotes_of_ordinary (h : ∀ c ∈ x, s.ordinary c = true) : Denotes s x x := by
  induction x with
  | nil => exact .nil
  | cons c x ih =>
    obtain ⟨hc, hx⟩ := List.forall_mem_cons.1 h
    exact .char hc (ih hx)

/-- Ordinary characters stand for themselves and nothing else. -/
theorem Denotes.eq_of_ordinary (h : Denotes s x u) (hx : ∀ c ∈ x, s.ordinary c = true) : u = x := by
  induction h with
  | nil => rfl
  | char hc h ih => rw [ih (List.forall_mem_cons.1 hx).2]
  | escape hpiece h ih =>
    obtain ⟨c, rest, rfl, hspecial, -⟩ := hpiece.special_head
    have hc := (ordinary_iff.1 (hx c (by simp))).2.1
    rw [hc] at hspecial
    cases hspecial
  | fold hrun h ih =>
    obtain ⟨c, hc, hbreak⟩ := hrun.broken
    have hc' := (ordinary_iff.1 (hx c (List.mem_append_left _ hc))).2.2
    rw [hc'] at hbreak
    cases hbreak

lemma Fold.head (h : Fold run value) :
    ∃ c rest, run = c :: rest ∧ (isBlank c = true ∨ isBreak c = true) := by
  obtain ⟨c, rest, rfl⟩ := List.exists_cons_of_ne_nil (List.ne_nil_of_mem h.broken.choose_spec.1)
  exact ⟨c, rest, rfl, h.blank c (by simp)⟩

lemma Denotes.of_cons {c : Char} {w : List Char} (h : Denotes s (c :: x) w)
    (hspecial : s.special c = false) (hblank : isBlank c = false) (hbreak : isBreak c = false) :
    ∃ u, w = c :: u ∧ Denotes s x u := by
  generalize hx : c :: x = y at h
  cases h with
  | nil => cases hx
  | char hc h =>
    obtain ⟨rfl, rfl⟩ := List.cons.inj hx
    exact ⟨_, rfl, h⟩
  | escape hpiece h =>
    obtain ⟨d, rest, rfl, hd, -⟩ := hpiece.special_head
    obtain ⟨rfl, -⟩ := List.cons.inj hx
    rw [hspecial] at hd
    cases hd
  | fold hrun h =>
    obtain ⟨d, rest, rfl, hd⟩ := hrun.head
    obtain ⟨rfl, -⟩ := List.cons.inj hx
    simp [hblank, hbreak] at hd

/-- A text that stands, place by place, for its image under `f` has no escapes and no folds. -/
theorem Denotes.ordinary_of_map {f : Char → Char}
    (hf : ∀ run value, Fold run value → value ≠ run.map f) (h : Denotes s x (x.map f)) :
    ∀ c ∈ x, s.ordinary c = true := by
  generalize hu : x.map f = u at h
  induction h with
  | nil => simp
  | char hc h ih =>
    rw [List.map_cons, List.cons.injEq] at hu
    exact List.forall_mem_cons.2 ⟨hc, ih hu.2⟩
  | @escape piece value x u hpiece h ih =>
    have hlt := hpiece.length_lt
    have hle := h.length_le
    have hlen := congrArg List.length hu
    simp only [List.length_map, List.length_append] at hlen
    omega
  | @fold run value x u hrun h ih =>
    have hle := hrun.le
    have hle' := h.length_le
    have hlen := congrArg List.length hu
    simp only [List.length_map, List.length_append] at hlen
    rw [List.map_append] at hu
    have hsame := (List.append_inj hu (by rw [List.length_map]; omega)).1
    exact absurd hsame.symm (hf run value hrun)

theorem Denotes.ordinary_of_self (h : Denotes s x x) : ∀ c ∈ x, s.ordinary c = true := by
  refine Denotes.ordinary_of_map (f := id) (fun run value hrun => ?_) (by rwa [List.map_id])
  rw [List.map_id]
  exact hrun.ne

/-! ### Staying within the slot -/

/-- No quote ends the scalar and no escape reaches beyond it; `escaped` behind a backslash, or, in
single quotes, behind a quote that must be doubled. -/
def contained (s : Style) : Bool → List Char → Bool
  | escaped, [] => !escaped
  | true, c :: cs => (s = .double || c = '\'') && contained s false cs
  | false, c :: cs =>
    if s = .single then contained s (c = '\'') cs
    else if c = '"' then false
    else contained s (c = '\\') cs

lemma contained_of_ordinary (hquoted : s ≠ .plain) (hx : ∀ c ∈ x, s.ordinary c = true) :
    contained s false x = true := by
  induction x with
  | nil => rfl
  | cons c x ih =>
    obtain ⟨hc, hx⟩ := List.forall_mem_cons.1 hx
    have hspecial := (ordinary_iff.1 hc).2.1
    cases s with
    | plain => exact absurd rfl hquoted
    | single =>
      have hquote : c ≠ '\'' := by simpa [Style.special] using hspecial
      simpa [contained, hquote] using ih hx
    | double =>
      have hboth : c ≠ '"' ∧ c ≠ '\\' := by simpa [Style.special] using hspecial
      simpa [contained, hboth.1, hboth.2] using ih hx

/-- A plain scalar up to its comment, which begins behind a space. -/
def uncomment : Bool → List Char → List Char
  | _, [] => []
  | afterSpace, c :: cs => if afterSpace ∧ c = '#' then [] else c :: uncomment (c = ' ') cs

/-- The text that is resolved. -/
def bare (src : List Char) : List Char :=
  ((uncomment true src).dropWhile (· = ' ')).rdropWhile (· = ' ')

/-- A colon that would make a mapping of the text. -/
def hasMapping : List Char → Bool
  | [] => false
  | c :: cs => (c = ':' && (cs.head?.all (· = ' '))) || hasMapping cs

/-- A plain scalar may begin so. -/
def startsPlain : List Char → Bool
  | [] => true
  | c :: cs =>
    if c ∈ "-?:".toList then cs.head?.any (· ≠ ' ') else c ∉ ",[]\x7b\x7d&*!|>'\"%@`".toList

def plainWithin (src : List Char) : Bool :=
  src.all (fun c => isPrintable c && !isBreak c && c ≠ '\t') &&
    startsPlain (src.dropWhile (· = ' ')) && !hasMapping (uncomment true src)

/-- The scalar ends where its slot ends. -/
def Style.within : Style → List Char → Bool
  | .plain, src => plainWithin src
  | s, src => contained s false src

/-- A scalar without escapes, folds, comments and blanks around it. -/
def Style.clean : Style → List Char → Bool
  | .plain, src => plainWithin src && bare src = src
  | s, src => src.all s.ordinary

lemma clean_quoted {style : Style} (hquoted : style ≠ .plain) {src : List Char} :
    style.clean src = true ↔ ∀ c ∈ src, style.ordinary c = true := by
  cases style with
  | plain => exact absurd rfl hquoted
  | single => simp [Style.clean]
  | double => simp [Style.clean]

lemma isSeparator_of_not_isBreak {c : Char} (h : isBreak c = false) : isSeparator c = false := by
  simp only [isBreak, Bool.or_eq_false_iff] at h
  exact h.2

lemma within_of_clean {src : List Char} (h : s.clean src = true) : s.within src = true := by
  cases s with
  | plain =>
    simp only [Style.clean, Bool.and_eq_true] at h
    exact h.1
  | single => exact contained_of_ordinary nofun (by simpa [Style.clean] using h)
  | double => exact contained_of_ordinary nofun (by simpa [Style.clean] using h)

lemma not_isSeparator_of_clean {src : List Char} (h : s.clean src = true) :
    ∀ c ∈ src, isSeparator c = false := by
  intro c hc
  by_cases hs : s = .plain
  · subst hs
    simp only [Style.clean, plainWithin, Bool.and_eq_true, List.all_eq_true,
      Bool.not_eq_true'] at h
    exact isSeparator_of_not_isBreak (h.1.1.1 c hc).1.2
  · exact isSeparator_of_not_isBreak (ordinary_iff.1 ((clean_quoted hs).1 h c hc)).2.2

/-! ### Layouts -/

def Style.opening : Style → Char
  | .plain => ' '
  | .single => '\''
  | .double => '"'

def Style.closing : Style → Char
  | .plain => '\n'
  | .single => '\''
  | .double => '"'

/-- A scalar and the text up to the next one. -/
structure Slot where
  style : Style
  src : List Char
  after : List Char

def Slot.text (slot : Slot) : List Char :=
  slot.style.opening :: (slot.src ++ slot.style.closing :: slot.after)

structure Layout where
  head : List Char
  slots : List Slot

def Layout.text (L : Layout) : List Char := L.head ++ L.slots.flatMap Slot.text

/-- The text around the scalars. -/
def Layout.frame (L : Layout) : List Char × List (Style × List Char) :=
  (L.head, L.slots.map fun slot => (slot.style, slot.after))

variable {β : Type*} (str : List Char → β) (resolve : List Char → Option β)

/-- A value that a scalar may stand for. -/
inductive Reads : Slot → β → Prop
  | plain {src after : List Char} {v : β} (h : resolve (bare src) = some v) :
      Reads ⟨.plain, src, after⟩ v
  | quoted {style : Style} {src after u : List Char} (hquoted : style ≠ .plain)
      (h : Denotes style src u) : Reads ⟨style, src, after⟩ (str u)

/-- What a loader makes of the texts with one frame: a document that depends on what the scalars
stand for. -/
structure LoadsLayout (load : List Char → Option β)
    (frame : List Char × List (Style × List Char)) (doc : List β → β) : Prop where
  clean : ∀ L : Layout, L.frame = frame → (∀ slot ∈ L.slots, slot.style.clean slot.src = true) →
    ∀ vals, List.Forall₂ (Reads str resolve) L.slots vals → load L.text = some (doc vals)
  within : ∀ L : Layout, L.frame = frame →
    (∀ slot ∈ L.slots, slot.style.within slot.src = true ∧ ∀ c ∈ slot.src, isSeparator c = false) →
    ∀ b, load L.text = some b → ∃ vals, List.Forall₂ (Reads str resolve) L.slots vals ∧ b = doc vals

/-- The scalar is a string, and stands for its own text. -/
def SelfReading (slot : Slot) : Prop :=
  slot.style.clean slot.src = true ∧ (slot.style = .plain → resolve slot.src = some (str slot.src))

variable {str resolve}

lemma SelfReading.reads {slot : Slot} (h : SelfReading str resolve slot) :
    Reads str resolve slot (str slot.src) := by
  obtain ⟨style, src, after⟩ := slot
  by_cases hstyle : style = .plain
  · subst hstyle
    obtain ⟨hclean, hresolve⟩ := h
    simp only [Style.clean, Bool.and_eq_true, decide_eq_true_eq] at hclean
    refine .plain ?_
    rw [hclean.2]
    exact hresolve rfl
  · exact .quoted hstyle (denotes_of_ordinary ((clean_quoted hstyle).1 h.1))

lemma SelfReading.eq {slot : Slot} (h : SelfReading str resolve slot) {v : β}
    (hv : Reads str resolve slot v) : v = str slot.src := by
  cases hv with
  | plain hv =>
    obtain ⟨hclean, hresolve⟩ := h
    simp only [Style.clean, Bool.and_eq_true, decide_eq_true_eq] at hclean
    rw [hclean.2, hresolve rfl] at hv
    exact (Option.some.inj hv).symm
  | quoted hquoted hdenotes => rw [hdenotes.eq_of_ordinary ((clean_quoted hquoted).1 h.1)]

lemma selfReading_of_reads (hstr : Function.Injective str)
    (hresolve : ∀ t u, resolve t = some (str u) → u = t) {slot : Slot}
    (hwithin : slot.style.within slot.src = true)
    (h : Reads str resolve slot (str slot.src)) : SelfReading str resolve slot := by
  obtain ⟨style, src, after⟩ := slot
  generalize hv : str src = v at h
  cases h with
  | plain h =>
    rw [← hv] at h
    have hbare : bare src = src := (hresolve _ _ h).symm
    refine ⟨?_, fun _ => ?_⟩
    · simp only [Style.clean, Bool.and_eq_true, decide_eq_true_eq]
      exact ⟨hwithin, hbare⟩
    · rwa [hbare] at h
  | quoted hquoted hdenotes =>
    obtain rfl := hstr hv
    exact ⟨(clean_quoted hquoted).2 (hdenotes.ordinary_of_self), fun h => absurd h hquoted⟩

section layout

variable {load : List Char → Option β} {L : Layout} {doc : List β → β}

/-- **Scalars that stand for themselves** make the document of their texts. -/
theorem load_of_selfReading (hload : LoadsLayout str resolve load L.frame doc)
    (h : ∀ slot ∈ L.slots, SelfReading str resolve slot) :
    load L.text = some (doc (L.slots.map fun slot => str slot.src)) := by
  refine hload.clean L rfl (fun slot hslot => (h slot hslot).1) _ ?_
  rw [List.forall₂_map_right_iff, List.forall₂_same]
  exact fun slot hslot => (h slot hslot).reads

/-- The other way round, as long as they stay within their slots. -/
theorem selfReading_of_load (hstr : Function.Injective str)
    (hresolve : ∀ t u, resolve t = some (str u) → u = t)
    (hdoc : ∀ vals vals', vals.length = L.slots.length → vals'.length = L.slots.length →
      doc vals = doc vals' → vals = vals')
    (hload : LoadsLayout str resolve load L.frame doc)
    (hwithin : ∀ slot ∈ L.slots, slot.style.within slot.src = true ∧
      ∀ c ∈ slot.src, isSeparator c = false)
    (h : load L.text = some (doc (L.slots.map fun slot => str slot.src))) :
    ∀ slot ∈ L.slots, SelfReading str resolve slot := by
  obtain ⟨vals, hreads, hsame⟩ := hload.within L rfl hwithin _ h
  have hvals := hdoc _ _ (List.length_map ..) hreads.length_eq.symm hsame
  rw [← hvals, List.forall₂_map_right_iff, List.forall₂_same] at hreads
  intro slot hslot
  exact selfReading_of_reads hstr hresolve (hwithin slot hslot).1 (hreads slot hslot)

end layout

end Tdcs.Lib.YamlScalars
