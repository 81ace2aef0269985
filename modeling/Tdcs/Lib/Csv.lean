import Mathlib.Data.List.Basic
import Mathlib.Tactic

/-!
The `csv` module in the dialect `excel`: what a writer makes of rows of texts, and what a reader
makes of a text.

The reader is the machine of `_csv.c`, fed line by line, with a signal at the end of each line. A
line ends where a text file opened with `newline=""` ends one: at a line feed, a carriage return,
or both.
-/

namespace Tdcs.Lib.Csv

abbrev Field := List Char

/-! ### The writer -/

/-- A field with such a character is quoted. -/
def special (c : Char) : Bool := c = ',' || c = '"' || c = '\r' || c = '\n'

/-- A field between quotes, in which a quote is written twice. -/
def doubled (f : Field) : List Char := f.flatMap fun c => if c = '"' then ['"', '"'] else [c]

def writeField (f : Field) : List Char :=
  if f.any special then '"' :: (doubled f ++ ['"']) else f

/-- The fields with commas between them. -/
def joinFields : List Field → List Char
  | [] => []
  | [f] => writeField f
  | f :: g :: row => writeField f ++ ',' :: joinFields (g :: row)

/-- `writerow`. A row of one empty field is told from an empty row. -/
def writerow (row : List Field) : List Char :=
  (if row = [[]] then ['"', '"'] else joinFields row) ++ ['\r', '\n']

/-- `writerows`. -/
def writerows (rows : List (List Field)) : List Char := rows.flatMap writerow

/-! ### The reader -/

inductive Phase
  | startRecord | startField | inField | inQuotedField | quoteInQuotedField | eatCrnl
  deriving DecidableEq, Repr

structure Reader where
  phase : Phase := .startRecord
  field : Field := []
  fields : List Field := []
  deriving DecidableEq, Repr

variable (limit : ℕ)

/-- `parse_save_field`. -/
def Reader.saveField (r : Reader) (phase : Phase) : Reader := ⟨phase, [], r.fields ++ [r.field]⟩

/-- `parse_add_char`, which raises for a field over `field_size_limit`. -/
def Reader.addChar (r : Reader) (phase : Phase) (c : Char) : Option Reader :=
  if r.field.length < limit then some ⟨phase, r.field ++ [c], r.fields⟩ else none

def isNewline (c : Char) : Bool := c = '\n' || c = '\r'

/-- `START_FIELD`. -/
def Reader.startField (r : Reader) (c : Char) : Option Reader :=
  if isNewline c then some (r.saveField .eatCrnl)
  else if c = '"' then some { r with phase := .inQuotedField }
  else if c = ',' then some (r.saveField .startField)
  else r.addChar limit .inField c

/-- `parse_process_char` for a character of the line. -/
def Reader.char (r : Reader) (c : Char) : Option Reader :=
  match r.phase with
  | .startRecord => if isNewline c then some { r with phase := .eatCrnl } else r.startField limit c
  | .startField => r.startField limit c
  | .inField =>
    if isNewline c then some (r.saveField .eatCrnl)
    else if c = ',' then some (r.saveField .startField)
    else r.addChar limit .inField c
  | .inQuotedField =>
    if c = '"' then some { r with phase := .quoteInQuotedField }
    else r.addChar limit .inQuotedField c
  | .quoteInQuotedField =>
    if c = '"' then r.addChar limit .inQuotedField c
    else if c = ',' then some (r.saveField .startField)
    else if isNewline c then some (r.saveField .eatCrnl)
    else r.addChar limit .inField c
  | .eatCrnl => if isNewline c then some r else none

/-- `parse_process_char` at the end of a line. -/
def Reader.eol (r : Reader) : Reader :=
  match r.phase with
  | .startRecord | .inQuotedField => r
  | .startField | .inField | .quoteInQuotedField => r.saveField .startRecord
  | .eatCrnl => { r with phase := .startRecord }

/-- The lines of a text, with their ends. -/
def lines : List Char → List (List Char)
  | [] => []
  | c :: s =>
    if c = '\n' ∨ c = '\r' ∧ s.head? ≠ some '\n' then [c] :: lines s
    else match lines s with
      | [] => [[c]]
      | l :: ls => (c :: l) :: ls

/-- The rows of the lines; a record goes on to the next line while it is between quotes. -/
def readLines (r : Reader) : List (List Char) → Option (List (List Field))
  | [] =>
    some
      (if r.field ≠ [] ∨ r.phase = .inQuotedField then [(r.saveField .startRecord).fields] else [])
  | line :: ls => do
    let r ← line.foldlM (Reader.char limit) r
    if r.eol.phase = .startRecord then (readLines {} ls).map (r.eol.fields :: ·)
    else readLines r.eol ls

/-- `list(csv.reader(f))`, if it does not raise. -/
def read (s : List Char) : Option (List (List Field)) := readLines limit {} (lines s)

/-! ### The reader, character by character -/

/-- The line is over: a record that is complete is put out, any other goes on. -/
def next (r : Reader) (k : Reader → Option (List (List Field))) : Option (List (List Field)) :=
  if r.eol.phase = .startRecord then (k {}).map (r.eol.fields :: ·) else k r.eol

/-- What is left when the lines are over. -/
def finish (r : Reader) : Option (List (List Field)) :=
  some (if r.field ≠ [] ∨ r.phase = .inQuotedField then [(r.saveField .startRecord).fields] else [])

/-- The reader on a text, `inLine` if a line has begun. -/
def go : List Char → Bool → Reader → Option (List (List Field))
  | [], inLine, r => if inLine then next r finish else finish r
  | c :: s, _, r => (r.char limit c).bind fun r =>
    if c = '\n' ∨ c = '\r' ∧ s.head? ≠ some '\n' then next r fun r => go s false r
    else go s true r

/-- The reader within a line, whose rest and whose successors are given. -/
def body (r : Reader) : List (List Char) → Option (List (List Field))
  | [] => next r finish
  | l :: ls => (l.foldlM (Reader.char limit) r).bind fun r => next r fun r => readLines limit r ls

variable {limit}

lemma readLines_cons (r : Reader) (l : List Char) (ls : List (List Char)) :
    readLines limit r (l :: ls) = body limit r (l :: ls) := rfl

/-- **The lines make no difference**: the reader can be fed the characters themselves. -/
lemma go_eq (s : List Char) :
    (∀ r, readLines limit r (lines s) = go limit s false r) ∧
      ∀ r, body limit r (lines s) = go limit s true r := by
  induction s with
  | nil => exact ⟨fun r => rfl, fun r => rfl⟩
  | cons c s ih =>
    have hbody : ∀ r, body limit r (lines (c :: s)) = go limit (c :: s) true r := by
      intro r
      unfold lines go
      split_ifs with hend
      · -- the line ends here
        simp only [body, List.foldlM_cons, List.foldlM_nil, bind_pure]
        exact congrArg _ (funext fun r => congrArg _ (funext fun r => ih.1 r))
      · -- `c` belongs to the first of the lines left, or is the last one
        rcases hl : lines s with _ | ⟨l, ls⟩
        · simp only [body, List.foldlM_cons, List.foldlM_nil, bind_pure]
          refine congrArg _ (funext fun r => ?_)
          rw [← ih.2 r, hl]
          rfl
        · simp only [body, List.foldlM_cons]
          rw [Option.bind_eq_bind, Option.bind_assoc]
          refine congrArg _ (funext fun r => ?_)
          rw [← ih.2 r, hl]
          rfl
    refine ⟨fun r => ?_, hbody⟩
    obtain ⟨l, ls, hl⟩ : ∃ l ls, lines (c :: s) = l :: ls := by
      unfold lines
      split_ifs
      · exact ⟨_, _, rfl⟩
      · rcases lines s with _ | ⟨l, ls⟩
        · exact ⟨_, _, rfl⟩
        · exact ⟨_, _, rfl⟩
    have hline := hbody r
    rw [hl] at hline ⊢
    rw [readLines_cons, hline]
    rfl

theorem read_eq_go (s : List Char) : read limit s = go limit s false {} := (go_eq s).1 {}

/-! ### What a writer wrote -/

section
variable {f g : Field} {fs : List Field} {s : List Char} {c : Char} {b : Bool}

lemma special_eq_false_iff :
    special c = false ↔ c ≠ ',' ∧ c ≠ '"' ∧ c ≠ '\r' ∧ c ≠ '\n' := by
  simp [special, and_assoc]

lemma go_cons_of_ne (hn : c ≠ '\n') (hr : c ≠ '\r') (r : Reader) :
    go limit (c :: s) b r = (r.char limit c).bind fun r => go limit s true r := by
  rw [go]
  simp [hn, hr]

lemma go_plain (hf : f.any special = false) (hlen : g.length + f.length ≤ limit) :
    go limit (f ++ c :: s) b ⟨.inField, g, fs⟩ = go limit (c :: s) true ⟨.inField, g ++ f, fs⟩ := by
  induction f generalizing g b with
  | nil => simp [go]
  | cons x f ih =>
    rw [List.any_cons, Bool.or_eq_false_iff] at hf
    obtain ⟨hcomma, -, hr, hn⟩ := special_eq_false_iff.1 hf.1
    rw [List.length_cons] at hlen
    have hroom : g.length < limit := by omega
    have hchar : Reader.char limit ⟨.inField, g, fs⟩ x = some ⟨.inField, g ++ [x], fs⟩ := by
      simp [Reader.char, Reader.addChar, isNewline, hcomma, hr, hn, hroom]
    have hrest := ih (g := g ++ [x]) (b := true) hf.2 (by simp; omega)
    rw [List.cons_append, go_cons_of_ne hn hr, hchar, Option.bind_some, hrest]
    simp

/-- The phases in which a field begins. -/
def Begins (p : Phase) : Prop := p = .startRecord ∨ p = .startField

lemma char_of_begins {p : Phase} (hp : Begins p) (hn : isNewline c = false) :
    Reader.char limit ⟨p, [], fs⟩ c = Reader.startField limit ⟨p, [], fs⟩ c := by
  rcases hp with rfl | rfl
  · simp [Reader.char, hn]
  · rfl

lemma go_unquoted {p : Phase} (hp : Begins p) (hf : f.any special = false) (hne : f ≠ [])
    (hlen : f.length ≤ limit) :
    go limit (f ++ c :: s) b ⟨p, [], fs⟩ = go limit (c :: s) true ⟨.inField, f, fs⟩ := by
  rcases f with _ | ⟨x, f⟩
  · exact absurd rfl hne
  · rw [List.any_cons, Bool.or_eq_false_iff] at hf
    obtain ⟨hcomma, hquote, hr, hn⟩ := special_eq_false_iff.1 hf.1
    rw [List.length_cons] at hlen
    have hroom : 0 < limit := by omega
    have hchar : Reader.char limit ⟨p, [], fs⟩ x = some ⟨.inField, [x], fs⟩ := by
      rw [char_of_begins hp (by simp [isNewline, hr, hn])]
      simp [Reader.startField, Reader.addChar, isNewline, hcomma, hquote, hr, hn, hroom]
    rw [List.cons_append, go_cons_of_ne hn hr, hchar, Option.bind_some,
      go_plain (g := [x]) hf.2 (by simp; omega)]
    rfl

lemma go_cons_quoted (hne : s ≠ []) {r r' : Reader} (hchar : r.char limit c = some r')
    (hp : r'.phase = .inQuotedField) : go limit (c :: s) b r = go limit s true r' := by
  obtain ⟨d, t, rfl⟩ := List.exists_cons_of_ne_nil hne
  have heol : r'.eol = r' := by simp [Reader.eol, hp]
  rw [go, hchar, Option.bind_some]
  split_ifs
  · simp [next, heol, hp, go]
  · rfl

lemma go_doubled (hlen : g.length + f.length ≤ limit) :
    go limit (doubled f ++ '"' :: c :: s) b ⟨.inQuotedField, g, fs⟩ =
      go limit (c :: s) true ⟨.quoteInQuotedField, g ++ f, fs⟩ := by
  induction f generalizing g b with
  | nil =>
    have hchar : Reader.char limit ⟨.inQuotedField, g, fs⟩ '"' =
        some ⟨.quoteInQuotedField, g, fs⟩ := rfl
    rw [doubled, List.flatMap_nil, List.nil_append, go_cons_of_ne (by decide) (by decide), hchar,
      Option.bind_some, List.append_nil]
  | cons x f ih =>
    rw [List.length_cons] at hlen
    have hroom : g.length < limit := by omega
    have hrest := ih (g := g ++ [x]) (b := true) (by simp; omega)
    rw [List.append_assoc, List.singleton_append] at hrest
    have hne : doubled f ++ '"' :: c :: s ≠ [] := by simp
    by_cases hx : x = '"'
    · subst hx
      have hopen : Reader.char limit ⟨.inQuotedField, g, fs⟩ '"' =
          some ⟨.quoteInQuotedField, g, fs⟩ := rfl
      have hagain : Reader.char limit ⟨.quoteInQuotedField, g, fs⟩ '"' =
          some ⟨.inQuotedField, g ++ ['"'], fs⟩ := by
        simp [Reader.char, Reader.addChar, hroom]
      have htext : doubled ('"' :: f) ++ '"' :: c :: s =
          '"' :: '"' :: (doubled f ++ '"' :: c :: s) := by simp [doubled]
      rw [htext, go_cons_of_ne (by decide) (by decide), hopen, Option.bind_some,
        go_cons_quoted hne hagain rfl, hrest]
    · have hchar : Reader.char limit ⟨.inQuotedField, g, fs⟩ x =
          some ⟨.inQuotedField, g ++ [x], fs⟩ := by
        simp [Reader.char, Reader.addChar, hx, hroom]
      have htext : doubled (x :: f) ++ '"' :: c :: s = x :: (doubled f ++ '"' :: c :: s) := by
        simp [doubled, hx]
      rw [htext, go_cons_quoted hne hchar rfl, hrest]

lemma go_quoted {p : Phase} (hp : Begins p) (hlen : f.length ≤ limit) :
    go limit ('"' :: (doubled f ++ '"' :: c :: s)) b ⟨p, [], fs⟩ =
      go limit (c :: s) true ⟨.quoteInQuotedField, f, fs⟩ := by
  have hchar : Reader.char limit ⟨p, [], fs⟩ '"' = some ⟨.inQuotedField, [], fs⟩ := by
    rw [char_of_begins hp (by decide)]
    rfl
  rw [go_cons_of_ne (by decide) (by decide), hchar, Option.bind_some,
    go_doubled (g := []) (by simpa using hlen), List.nil_append]

/-- Where the reader stands when the text of a field is over. -/
def Ends (f : Field) (p p' : Phase) : Prop :=
  p' = .inField ∨ p' = .quoteInQuotedField ∨ f = [] ∧ p' = p

lemma go_writeField {p : Phase} (hp : Begins p) (hlen : f.length ≤ limit) :
    ∃ p', Ends f p p' ∧
      go limit (writeField f ++ c :: s) b ⟨p, [], fs⟩ = go limit (c :: s) true ⟨p', f, fs⟩ := by
  unfold writeField
  split_ifs with hspecial
  · refine ⟨.quoteInQuotedField, .inr (.inl rfl), ?_⟩
    rw [List.cons_append, List.append_assoc, List.singleton_append]
    exact go_quoted hp hlen
  · rw [Bool.not_eq_true] at hspecial
    rcases eq_or_ne f [] with rfl | hne
    · exact ⟨p, .inr (.inr ⟨rfl, rfl⟩), rfl⟩
    · exact ⟨.inField, .inl rfl, go_unquoted hp hspecial hne hlen⟩

lemma char_comma {p p' : Phase} (hp : Begins p) (he : Ends f p p') :
    Reader.char limit ⟨p', f, fs⟩ ',' = some ⟨.startField, [], fs ++ [f]⟩ := by
  rcases he with rfl | rfl | ⟨rfl, rfl⟩
  · rfl
  · rfl
  · rcases hp with rfl | rfl <;> rfl

lemma go_field_comma {p : Phase} (hp : Begins p) (hlen : f.length ≤ limit) :
    go limit (writeField f ++ ',' :: s) b ⟨p, [], fs⟩ =
      go limit s true ⟨.startField, [], fs ++ [f]⟩ := by
  have hfield : ∃ p', Ends f p p' ∧ go limit (writeField f ++ ',' :: s) b ⟨p, [], fs⟩ =
      go limit (',' :: s) true ⟨p', f, fs⟩ := go_writeField hp hlen
  obtain ⟨p', he, hgo⟩ := hfield
  rw [hgo, go_cons_of_ne (by decide) (by decide), char_comma hp he, Option.bind_some]

lemma go_crlf {r r' : Reader} (hchar : r.char limit '\r' = some r') (hp : r'.phase = .eatCrnl) :
    go limit ('\r' :: '\n' :: s) b r = (go limit s false {}).map (r'.fields :: ·) := by
  have hstay : r'.char limit '\n' = some r' := by simp [Reader.char, hp, isNewline]
  have heol : r'.eol = { r' with phase := .startRecord } := by simp [Reader.eol, hp]
  have hcr : go limit ('\r' :: '\n' :: s) b r = go limit ('\n' :: s) true r' := by
    rw [go, hchar, Option.bind_some]
    simp
  rw [hcr, go, hstay, Option.bind_some]
  simp [next, heol]

lemma go_field_crlf {p : Phase} (hp : Begins p) (hlen : f.length ≤ limit)
    (hne : p = .startRecord → f ≠ []) :
    go limit (writeField f ++ '\r' :: '\n' :: s) b ⟨p, [], fs⟩ =
      (go limit s false {}).map ((fs ++ [f]) :: ·) := by
  have hfield : ∃ p', Ends f p p' ∧ go limit (writeField f ++ '\r' :: '\n' :: s) b ⟨p, [], fs⟩ =
      go limit ('\r' :: '\n' :: s) true ⟨p', f, fs⟩ := go_writeField hp hlen
  obtain ⟨p', he, hgo⟩ := hfield
  have hchar : Reader.char limit ⟨p', f, fs⟩ '\r' = some ⟨.eatCrnl, [], fs ++ [f]⟩ := by
    rcases he with rfl | rfl | ⟨rfl, rfl⟩
    · rfl
    · rfl
    · rcases hp with rfl | rfl
      · exact absurd rfl (hne rfl)
      · rfl
  rw [hgo]
  exact go_crlf hchar rfl

lemma go_joinFields {row : List Field} {p : Phase} (hp : Begins p)
    (hlen : ∀ f ∈ row, f.length ≤ limit) (hrow : row ≠ []) (hone : p = .startRecord → row ≠ [[]]) :
    go limit (joinFields row ++ '\r' :: '\n' :: s) b ⟨p, [], fs⟩ =
      (go limit s false {}).map ((fs ++ row) :: ·) := by
  induction row generalizing p fs b with
  | nil => exact absurd rfl hrow
  | cons f row ih =>
    rw [List.forall_mem_cons] at hlen
    rcases row with _ | ⟨g, row⟩
    · exact go_field_crlf hp hlen.1 fun h0 hnil => hone h0 (by rw [hnil])
    · have htext : joinFields (f :: g :: row) ++ '\r' :: '\n' :: s =
          writeField f ++ ',' :: (joinFields (g :: row) ++ '\r' :: '\n' :: s) := by
        simp [joinFields]
      have hrest : go limit (joinFields (g :: row) ++ '\r' :: '\n' :: s) true
          ⟨.startField, [], fs ++ [f]⟩ =
            (go limit s false {}).map ((fs ++ [f] ++ (g :: row)) :: ·) :=
        ih (.inr rfl) hlen.2 (List.cons_ne_nil _ _) fun h0 => by cases h0
      rw [htext, go_field_comma hp hlen.1, hrest, List.append_assoc, List.singleton_append]

/-- A row is read as it was written. -/
lemma go_writerow {row : List Field} (hlen : ∀ f ∈ row, f.length ≤ limit) :
    go limit (writerow row ++ s) b {} = (go limit s false {}).map (row :: ·) := by
  unfold writerow
  rw [List.append_assoc, List.cons_append, List.cons_append, List.nil_append]
  split_ifs with hone
  · subst hone
    have hquoted : go limit ('"' :: (doubled [] ++ '"' :: '\r' :: '\n' :: s)) b {} =
        go limit ('\r' :: '\n' :: s) true ⟨.quoteInQuotedField, [], []⟩ :=
      go_quoted (.inl rfl) (Nat.zero_le _)
    have hcr : Reader.char limit ⟨.quoteInQuotedField, [], []⟩ '\r' =
        some ⟨.eatCrnl, [], [[]]⟩ := rfl
    exact hquoted.trans (go_crlf hcr rfl)
  · rcases eq_or_ne row [] with rfl | hrow
    · have hcr : Reader.char limit {} '\r' = some ⟨.eatCrnl, [], []⟩ := rfl
      exact go_crlf hcr rfl
    · have hfields : go limit (joinFields row ++ '\r' :: '\n' :: s) b {} =
          (go limit s false {}).map (([] ++ row) :: ·) :=
        go_joinFields (.inl rfl) hlen hrow fun _ => hone
      exact hfields

end

/-- **What is written is read back**, row by row and field by field, as long as no field is longer
than the reader takes. -/
theorem read_writerows {rows : List (List Field)}
    (hlen : ∀ row ∈ rows, ∀ f ∈ row, f.length ≤ limit) :
    read limit (writerows rows) = some rows := by
  rw [read_eq_go]
  induction rows with
  | nil => rfl
  | cons row rows ih =>
    rw [List.forall_mem_cons] at hlen
    have htext : writerows (row :: rows) = writerow row ++ writerows rows := rfl
    rw [htext, go_writerow hlen.1, ih hlen.2, Option.map_some]

end Tdcs.Lib.Csv
